import OxideOS.Fat.Volume
import OxideOS.Lib.Prog

/-!
# The partitions the installer makes

The installer puts a partition table in sector 0, a FAT32 volume for the boot loader
in the first partition and an empty FAT16 volume in the second. When the kernel starts
from such a disk it has to find the second again.

It does so unless the code of the boot loader in sector 0 begins with a jump
(`installed_recognised_iff`): then the sector is taken for the boot sector of a file
system on the whole disk, and the partition table is not read.
-/

set_option autoImplicit false

namespace OxideOS.Install

open Lib Disk Fat

/-! ## The layout of the data partition -/

def fat16Reserved : Nat := 4

def fat16FatSize : Nat := 16

def fat16FatCount : Nat := 2

def fat16Spc : Nat := 64

def fat16RootEntries : Nat := 512

def fat16RootSectors : Nat := fat16RootEntries / 16

def fat16Fat1Lba : Nat := dataPartStart + fat16Reserved

def fat16Fat2Lba : Nat := fat16Fat1Lba + fat16FatSize

def fat16RootLba : Nat := fat16Fat2Lba + fat16FatSize

def fat16DataLba : Nat := fat16RootLba + fat16RootSectors

/-! ## Formatting -/

def zeroSector (d : Device) (lba : Nat) : Device := d.writeSector lba Sector.zero

/-- `count` sectors from `start` on are filled with zeros. -/
def zeroSectors (d : Device) (start count : Nat) : Device :=
  loop (fun s d => zeroSector d (start + s)) 0 count d

theorem readSector_zeroSectors (d : Device) (start count lba : Nat) :
    (zeroSectors d start count).readSector lba
      = if start ≤ lba ∧ lba < start + count then Sector.zero else d.readSector lba := by
  unfold zeroSectors
  refine loop_zero_invariant (fun n (d' : Device) => d'.readSector lba
    = if start ≤ lba ∧ lba < start + n then Sector.zero else d.readSector lba) ?_ ?_
  · intro s d' _ before
    unfold zeroSector
    by_cases here : lba = start + s
    · subst here
      rw [Device.readSector_writeSector_self, if_pos (by omega)]
    · rw [Device.readSector_writeSector_of_ne _ _ here, before]
      exact if_congr (by omega) rfl rfl
  · exact (if_neg (by omega)).symm

def writeMbr (bootstrap : List UInt8) (d : Device) : Device :=
  d.writeSector 0 (installerMbr bootstrap)

/-- The boot sector of the data partition, with the texts "OXIDEOS ", "DATA",
"OXIDEDATA  " and "FAT16   ". -/
def dataBootSector : Sector :=
  let bpb := blit Sector.zero 0 [0xEB, 0x3C, 0x90]
  let bpb := blit bpb 3 [0x4F, 0x58, 0x49, 0x44, 0x45, 0x4F, 0x53, 0x20]
  let bpb := leWrite bpb 0x0B 2 512
  let bpb := leWrite bpb 0x0D 1 fat16Spc
  let bpb := leWrite bpb 0x0E 2 fat16Reserved
  let bpb := leWrite bpb 0x10 1 fat16FatCount
  let bpb := leWrite bpb 0x11 2 fat16RootEntries
  let bpb := leWrite bpb 0x13 2 0
  let bpb := blit bpb 0x15 [0xF8]
  let bpb := leWrite bpb 0x16 2 fat16FatSize
  let bpb := leWrite bpb 0x18 2 0x3F
  let bpb := leWrite bpb 0x1A 2 0xFF
  let bpb := leWrite bpb 0x1C 4 dataPartStart
  let bpb := leWrite bpb 0x20 4 dataPartSectors
  let bpb := blit bpb 0x24 [0x80, 0x00, 0x29]
  let bpb := blit bpb 0x27 [0x44, 0x41, 0x54, 0x41]
  let bpb := blit bpb 0x2B [0x4F, 0x58, 0x49, 0x44, 0x45, 0x44, 0x41, 0x54, 0x41, 0x20, 0x20]
  let bpb := blit bpb 0x36 [0x46, 0x41, 0x54, 0x31, 0x36, 0x20, 0x20, 0x20]
  blit bpb 0x1FE [0x55, 0xAA]

/-- The first sector of a table without clusters in use. -/
def fat16FirstSector : Sector := blit Sector.zero 0 [0xF8, 0xFF, 0xFF, 0xFF]

def formatDataPartition (d : Device) : Device :=
  let d := zeroSectors d dataPartStart fat16Reserved
  let d := d.writeSector dataPartStart dataBootSector
  let d := loop (fun s d => zeroSector (zeroSector d (fat16Fat1Lba + s)) (fat16Fat2Lba + s)) 0
    fat16FatSize d
  let d := d.writeSector fat16Fat1Lba fat16FirstSector
  let d := d.writeSector fat16Fat2Lba fat16FirstSector
  zeroSectors d fat16RootLba fat16RootSectors

/-- The boot sector stays when the rest of the volume is written. -/
theorem readSector_formatDataPartition (d : Device) :
    (formatDataPartition d).readSector dataPartStart = dataBootSector := by
  unfold formatDataPartition
  dsimp only
  rw [readSector_zeroSectors, if_neg (by decide),
    Device.readSector_writeSector_of_ne _ _ (by decide),
    Device.readSector_writeSector_of_ne _ _ (by decide)]
  refine loop_zero_invariant (fun _ (d' : Device) => d'.readSector dataPartStart = dataBootSector)
    ?_ (Device.readSector_writeSector_self ..)
  intro s d' bound before
  have first : dataPartStart ≠ fat16Fat1Lba + s := by
    have : fat16Fat1Lba = dataPartStart + 4 := rfl
    omega
  have second : dataPartStart ≠ fat16Fat2Lba + s := by
    have : fat16Fat2Lba = dataPartStart + 20 := rfl
    omega
  unfold zeroSector
  rw [Device.readSector_writeSector_of_ne _ _ second, Device.readSector_writeSector_of_ne _ _ first,
    before]

/-! ## Recognition -/

/-- The kernel finds the data partition and its parts where the installer put them. -/
def Recognised (d : Device) : Prop :=
  (mbrInit d).fat16LbaOffset = dataPartStart ∧
    ∃ b, fatInit d = some b ∧ b.fatStartLba = fat16Fat1Lba ∧ b.rootDirLba = fat16RootLba ∧
      b.dataStartLba = fat16DataLba

variable {bootstrap : List UInt8}

theorem installerMbr_code : installerMbr bootstrap 0 = bootstrap.getD 0 0 := by
  unfold installerMbr writePartEntry
  dsimp only
  rw [leWrite_outside (by omega), leWrite_outside (by omega), leWrite_outside (by omega),
    if_neg (by omega), leWrite_outside (by omega), leWrite_outside (by omega), if_neg (by omega),
    leWrite_outside (by omega), if_pos (by omega)]

/-- Behind the code the sector is always the same. -/
theorem installerMbr_behind {i : Nat} (behind : 440 ≤ i) :
    installerMbr bootstrap i = installerMbr [] i := by
  have code : ∀ blob : List UInt8, (if i < 440 then blob.getD i 0 else 0) = (0 : UInt8) :=
    fun blob => if_neg (by omega)
  unfold installerMbr writePartEntry
  refine leWrite_congr (leWrite_congr (leWrite_congr (if_congr Iff.rfl rfl ?_)))
  refine leWrite_congr (leWrite_congr (if_congr Iff.rfl rfl (leWrite_congr ?_)))
  rw [code, code]

theorem partEntry_installerMbr (i : Nat) :
    partEntry (installerMbr bootstrap) i = partEntry (installerMbr []) i := by
  have word : ∀ pos, 440 ≤ pos →
      leRead (installerMbr bootstrap) pos 4 = leRead (installerMbr []) pos 4 :=
    fun pos behind => leRead_congr fun j lower _ => installerMbr_behind (by omega)
  unfold partEntry
  dsimp only
  rw [installerMbr_behind (i := 446 + i * 16) (by omega),
    installerMbr_behind (i := 446 + i * 16 + 4) (by omega), word _ (by omega), word _ (by omega)]

/-- What the kernel makes of the installer's partition table. -/
theorem mbrInit_installerMbr {d : Device} (mbr : d.readSector 0 = installerMbr bootstrap) :
    (mbrInit d).fat16LbaOffset
      = if bootstrap.getD 0 0 = 0xEB ∨ bootstrap.getD 0 0 = 0xE9 then 0 else dataPartStart := by
  have signature : hasBootSignature (installerMbr bootstrap) = true := by
    unfold hasBootSignature
    rw [installerMbr_behind (i := 510) (by decide), installerMbr_behind (i := 511) (by decide)]
    decide
  have entries : (List.range 4).map (partEntry (installerMbr bootstrap))
      = (List.range 4).map (partEntry (installerMbr [])) :=
    List.map_congr_left fun i _ => partEntry_installerMbr i
  unfold mbrInit
  dsimp only
  rw [mbr, signature, installerMbr_code, entries]
  by_cases jump : bootstrap.getD 0 0 = 0xEB ∨ bootstrap.getD 0 0 = 0xE9
  · have code : (bootstrap.getD 0 0 == 0xEB || bootstrap.getD 0 0 == 0xE9) = true := by
      simpa using jump
    rw [code, if_pos jump]
    rfl
  · have code : (bootstrap.getD 0 0 == 0xEB || bootstrap.getD 0 0 == 0xE9) = false := by
      simpa using jump
    rw [code, if_neg jump]
    decide

/-- **An installed disk is recognised exactly when the code in sector 0 does not begin
with a jump.** -/
theorem installed_recognised_iff (bootstrap : List UInt8) (d : Device) :
    Recognised (writeMbr bootstrap (formatDataPartition d))
      ↔ bootstrap.getD 0 0 ≠ 0xEB ∧ bootstrap.getD 0 0 ≠ 0xE9 := by
  have mbr : (writeMbr bootstrap (formatDataPartition d)).readSector 0 = installerMbr bootstrap :=
    Device.readSector_writeSector_self ..
  have offset := mbrInit_installerMbr mbr
  constructor
  · rintro ⟨found, -⟩
    rw [offset] at found
    by_contra jump
    rw [if_pos (by tauto)] at found
    exact absurd found (by decide)
  · rintro ⟨notShort, notNear⟩
    rw [if_neg (by tauto)] at offset
    have boot : (writeMbr bootstrap (formatDataPartition d)).readSector dataPartStart
        = dataBootSector := by
      unfold writeMbr
      rw [Device.readSector_writeSector_of_ne _ _ (by decide), readSector_formatDataPartition]
    refine ⟨offset, readBpb dataBootSector dataPartStart, ?_, by decide, by decide, by decide⟩
    unfold fatInit
    dsimp only
    rw [offset, boot]
    exact if_neg (by decide)

/-- A boot loader whose code begins with a short jump. -/
theorem jump_not_recognised :
    ¬Recognised (writeMbr [0xEB, 0x3C] (formatDataPartition Device.blank)) := by
  rintro ⟨found, -⟩
  unfold writeMbr at found
  rw [mbrInit_installerMbr (Device.readSector_writeSector_self ..)] at found
  exact absurd found (by decide)

end OxideOS.Install
