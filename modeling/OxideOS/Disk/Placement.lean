import OxideOS.Disk.RecordStore
import OxideOS.Fat.Volume

/-!
# Where the record store lies among partitions and volumes

The store has a fixed place, sectors 2048 to 2303, and `mount` writes there
whenever it finds neither its own header nor an ext2 volume, whatever the
partition table says. `mount_spares_iff` says exactly for which disks this leaves
the listed partitions and the FAT16 volume alone; a disk with the installer's
partition table is not one of them, because its first partition starts at sector
2048.
-/

set_option autoImplicit false

namespace OxideOS.Disk

open Lib Fat

/-- A run of sectors. -/
structure Extent where
  first : Nat
  count : Nat

namespace Extent

def contains (e : Extent) (lba : Nat) : Prop := e.first ≤ lba ∧ lba < e.first + e.count

instance (e : Extent) (lba : Nat) : Decidable (e.contains lba) :=
  inferInstanceAs (Decidable (_ ∧ _))

/-- Two runs have a sector in common. -/
def meets (e f : Extent) : Prop := max e.first f.first < min (e.first + e.count) (f.first + f.count)

theorem meets_iff {e f : Extent} : e.meets f ↔ ∃ lba, e.contains lba ∧ f.contains lba := by
  simp only [meets, contains]
  constructor
  · intro overlap
    exact ⟨max e.first f.first, by omega⟩
  · rintro ⟨lba, inE, inF⟩
    omega

end Extent

def storeExtent : Extent := ⟨storeBaseLba, 1 + maxRecords⟩

def PartEntry.extent (e : PartEntry) : Extent := ⟨e.startLba, e.sizeSectors⟩

def volumeExtent (b : Bpb) : Extent := ⟨b.firstLba, b.sizeSectors⟩

/-! ## What formatting writes -/

variable {d : Device} {lba : Nat}

theorem format_written : lba ∈ (format d).written ↔ storeExtent.contains lba ∨ lba ∈ d.written := by
  have written : lba ∈ (format d).written ↔
      (storeBaseLba ≤ lba ∧ lba < storeBaseLba + 1 + maxRecords) ∨ lba ∈ d.written := by
    unfold format
    refine loop_zero_invariant (fun n (d' : Device) => lba ∈ d'.written ↔
      (storeBaseLba ≤ lba ∧ lba < storeBaseLba + 1 + n) ∨ lba ∈ d.written) ?_ ?_
    · intro slot d' _ before
      rw [Device.written_writeSector, List.mem_cons, before, ← or_assoc, recordLba]
      exact or_congr_left (by omega)
    · rw [Device.written_writeSector, List.mem_cons, headerLba]
      exact or_congr_left (by omega)
  rw [written, Nat.add_assoc]
  rfl

theorem format_outside (outside : ¬ storeExtent.contains lba) :
    (format d).readSector lba = d.readSector lba := by
  simp only [Extent.contains, storeExtent] at outside
  unfold format
  refine loop_zero_invariant (fun _ (d' : Device) => d'.readSector lba = d.readSector lba) ?_ ?_
  · intro slot d' inside before
    have apart : lba ≠ recordLba slot := by
      simp only [recordLba]
      omega
    rw [Device.readSector_writeSector_of_ne _ _ apart, before]
  · have apart : lba ≠ headerLba := by
      simp only [headerLba]
      omega
    rw [Device.readSector_writeSector_of_ne _ _ apart]

/-- The sectors of the store are not boot sectors. -/
theorem format_inside (inside : storeExtent.contains lba) :
    hasBootSignature ((format d).readSector lba) = false := by
  simp only [Extent.contains, storeExtent] at inside
  have cleared : ∀ lba, storeBaseLba ≤ lba → lba < storeBaseLba + 1 + maxRecords →
      hasBootSignature ((format d).readSector lba) = false := by
    unfold format
    refine loop_zero_invariant (fun n (d' : Device) => ∀ lba, storeBaseLba ≤ lba →
      lba < storeBaseLba + 1 + n → hasBootSignature (d'.readSector lba) = false) ?_ ?_
    · intro slot d' _ before lba lower upper
      by_cases here : lba = recordLba slot
      · rw [here, Device.readSector_writeSector_self]
        rfl
      · rw [Device.readSector_writeSector_of_ne _ _ here]
        refine before lba lower ?_
        simp only [recordLba] at here
        omega
    · intro lba lower upper
      have here : lba = headerLba := by
        simp only [headerLba]
        omega
      rw [here, Device.readSector_writeSector_self]
      rfl
  exact cleared lba inside.1 (by omega)

theorem mbrInit_format : mbrInit (format d) = mbrInit d := by
  simp only [mbrInit, format_outside (show ¬ storeExtent.contains 0 by decide)]

/-- The volume the driver finds after formatting: a boot sector in the store's
place is gone, any other is as it was. -/
theorem fatInit_format :
    fatInit (format d)
      = if storeExtent.contains (mbrInit d).fat16LbaOffset then none else fatInit d := by
  split
  · next lost => simp only [fatInit, mbrInit_format, format_inside lost, Bool.not_false, if_true]
  · next kept => simp only [fatInit, mbrInit_format, format_outside kept]

/-! ## Main result -/

/-- The disk after the boot sequence has mounted its record store. -/
def afterMount (content : Nat → Sector) : Device := (mount ⟨⟨content, []⟩, false⟩ true).2.device

/-- Mounting writes no sector of a listed partition and none of the FAT16 volume
that the driver mounts from the disk afterwards. -/
def MountSpares (content : Nat → Sector) : Prop :=
  ∀ lba ∈ (afterMount content).written,
    (∀ e ∈ (mbrInit ⟨content, []⟩).partitions, ¬ e.extent.contains lba) ∧
    (∀ b, fatInit (afterMount content) = some b → ¬ (volumeExtent b).contains lba)

/-- Mounting spares the disk exactly when the store is already there, the disk is
an ext2 volume, or the store's place is free: no listed partition reaches into
it, nor does the volume of a FAT16 boot sector that lies outside of it. -/
theorem mount_spares_iff (content : Nat → Sector) :
    MountSpares content ↔
      hasStoreHeader ⟨content, []⟩ = true ∨ isExt2Disk ⟨content, []⟩ = true ∨
      ((∀ e ∈ (mbrInit ⟨content, []⟩).partitions, ¬ e.extent.meets storeExtent) ∧
        (¬ storeExtent.contains (mbrInit ⟨content, []⟩).fat16LbaOffset →
          ∀ b, fatInit ⟨content, []⟩ = some b → ¬ (volumeExtent b).meets storeExtent)) := by
  generalize disk : (⟨content, []⟩ : Device) = d
  have untouched : d.written = [] := by rw [← disk]
  by_cases found : hasStoreHeader d = true ∨ isExt2Disk d = true
  · have idle : (afterMount content).written = [] := by
      unfold afterMount mount
      rw [disk]
      rcases found with header | ext2
      · simp [header, untouched]
      · by_cases header : hasStoreHeader d = true <;> simp [header, ext2, untouched]
    constructor
    · intro _
      rcases found with header | ext2
      · exact .inl header
      · exact .inr (.inl ext2)
    · intro _ lba member
      rw [idle] at member
      cases member
  · obtain ⟨noHeader, notExt2⟩ := not_or.mp found
    have formatted : afterMount content = format d := by
      unfold afterMount mount
      rw [disk]
      simp [noHeader, notExt2]
    have written : ∀ lba, lba ∈ (format d).written ↔ storeExtent.contains lba := by
      intro lba
      rw [format_written, untouched]
      simp
    unfold MountSpares
    rw [formatted, disk, fatInit_format]
    constructor
    · intro spares
      refine .inr (.inr ⟨fun e member overlap => ?_, fun outside b mounted overlap => ?_⟩)
      · obtain ⟨lba, inE, inStore⟩ := Extent.meets_iff.mp overlap
        exact (spares lba ((written lba).mpr inStore)).1 e member inE
      · obtain ⟨lba, inB, inStore⟩ := Extent.meets_iff.mp overlap
        refine (spares lba ((written lba).mpr inStore)).2 b ?_ inB
        rw [if_neg outside, mounted]
    · rintro (header | ext2 | ⟨partitions, volume⟩)
      · exact absurd header noHeader
      · exact absurd ext2 notExt2
      · intro lba member
        have inStore := (written lba).mp member
        refine ⟨fun e listed inE => ?_, fun b mounted inB => ?_⟩
        · exact partitions e listed (Extent.meets_iff.mpr ⟨lba, inE, inStore⟩)
        · split at mounted
          · cases mounted
          · next outside =>
              exact volume outside b mounted (Extent.meets_iff.mpr ⟨lba, inB, inStore⟩)

/-- A disk with the installer's partition table and nothing else on it. -/
def installedDisk : Nat → Sector := Function.update (fun _ => Sector.zero) 0 (installerMbr [])

/-- Its first partition starts where the store is put. -/
theorem mount_overwrites_installed :
    hasBootSignature (installedDisk 0) = true ∧
    ∃ lba ∈ (afterMount installedDisk).written,
      ∃ e ∈ (mbrInit ⟨installedDisk, []⟩).partitions, e.extent.contains lba := by
  have noHeader : hasStoreHeader ⟨installedDisk, []⟩ = false := by decide
  have notExt2 : isExt2Disk ⟨installedDisk, []⟩ = false := by decide
  have formatted : afterMount installedDisk = format ⟨installedDisk, []⟩ := by
    simp [afterMount, mount, noHeader, notExt2]
  refine ⟨by decide, 2048, ?_, ⟨0x80, 0xEF, 2048, 131072⟩, by decide, by decide⟩
  rw [formatted]
  exact format_written.mpr (.inl (by decide))

end OxideOS.Disk
