import OxideOS.Lib.Run
import OxideOS.Fat.Driver

/-!
# The copies of the table

Whatever the driver does to the disk is one of two things: an entry is written in
every copy of the table, and then the history of the call says so, or a sector
outside the copies is written. `Effect` is what both have in common. It composes
(`Effect.trans`), and there is one lemma for each function of the driver, along its
definition; chains and directories need no invariant of their own for that.

`run_mirrored` is the result for runs: the copies stay identical, and of the entries of
clusters that a call neither allocates nor frees it changes only some that name no
successor, to the number of a cluster it allocates.
-/

set_option autoImplicit false

namespace OxideOS.Fat

open Lib Disk Function

/-! ## Layout -/

namespace Bpb

/-- The sectors of the copies of the table. -/
def InFats (b : Bpb) (lba : Nat) : Prop :=
  b.fatStartLba ≤ lba ∧ lba < b.fatStartLba + b.fatCount * b.fatSize16

/-- The number of entries of the table. -/
def tableSize (b : Bpb) : Nat := b.fatSize16 * 256

/-- Sector `s` of a copy. -/
def copyLba (b : Bpb) (copy s : Nat) : Nat := b.fatStartLba + s + copy * b.fatSize16

/-- The copies lie apart from the root directory and the clusters. -/
structure Separate (b : Bpb) : Prop where
  root : ∀ lba ∈ b.rootLbas, ¬b.InFats lba
  data : ∀ lba, b.dataStartLba ≤ lba → ¬b.InFats lba

variable {b : Bpb} {cluster copy s lba : Nat}

theorem entryLba_eq :
    b.entryLba cluster + copy * b.fatSize16 = b.copyLba copy (cluster * 2 / 512) :=
  rfl

theorem sector_lt (inTable : cluster < b.tableSize) : cluster * 2 / 512 < b.fatSize16 := by
  unfold tableSize at inTable
  omega

theorem inFats_copyLba (isCopy : copy < b.fatCount) (isSector : s < b.fatSize16) :
    b.InFats (b.copyLba copy s) := by
  have upTo : (copy + 1) * b.fatSize16 ≤ b.fatCount * b.fatSize16 :=
    Nat.mul_le_mul_right _ isCopy
  rw [Nat.succ_mul] at upTo
  unfold InFats copyLba
  omega

/-- The copies do not overlap. -/
theorem copyLba_inj {copy' s' : Nat} (bound : s < b.fatSize16) (bound' : s' < b.fatSize16) :
    b.copyLba copy s = b.copyLba copy' s' ↔ copy = copy' ∧ s = s' := by
  constructor
  · intro same
    have sum : s + copy * b.fatSize16 = s' + copy' * b.fatSize16 := by
      unfold copyLba at same
      omega
    have sector : s = s' := by
      have mods := congrArg (· % b.fatSize16) sum
      simpa [Nat.add_mul_mod_self_right, Nat.mod_eq_of_lt bound, Nat.mod_eq_of_lt bound'] using mods
    subst sector
    refine ⟨?_, rfl⟩
    exact Nat.eq_of_mul_eq_mul_right (Nat.zero_lt_of_lt bound) (Nat.add_left_cancel sum)
  · rintro ⟨rfl, rfl⟩
    rfl

theorem clusterLbas_data (member : lba ∈ b.clusterLbas cluster) : b.dataStartLba ≤ lba := by
  obtain ⟨s, -, rfl⟩ := List.mem_map.mp member
  unfold clusterToLba
  omega

theorem Separate.outside (apart : b.Separate) (member : lba ∈ b.clusterLbas cluster) :
    ¬b.InFats lba :=
  apart.data lba (clusterLbas_data member)

end Bpb

variable {d : Device} {b : Bpb}

/-- The driver mounts no other volumes. -/
theorem separate_of_fatInit (found : fatInit d = some b) : b.Separate := by
  unfold fatInit at found
  dsimp only at found
  split at found
  · cases found
  · cases found
    constructor
    · intro lba member
      obtain ⟨s, -, rfl⟩ := List.mem_map.mp member
      unfold Bpb.InFats readBpb
      dsimp only
      omega
    · intro lba data
      unfold readBpb at data
      unfold Bpb.InFats readBpb
      dsimp only at data ⊢
      omega

/-- The entry of a cluster in one of the copies. -/
def copyEntry (b : Bpb) (d : Device) (copy cluster : Nat) : Nat :=
  leRead (d.readSector (b.copyLba copy (cluster * 2 / 512))) (entryByte cluster) 2

/-- The copies are identical, byte for byte. -/
def Mirrored (b : Bpb) (d : Device) : Prop :=
  ∀ copy < b.fatCount, ∀ s < b.fatSize16, ∀ i < 512,
    d.readSector (b.copyLba copy s) i = d.readSector (b.copyLba 0 s) i

/-! ## Writing an entry -/

section WriteEntry

variable {b : Bpb} {d : Device} {cluster value : Nat}

theorem fatWriteEntry_read (inTable : cluster < b.tableSize) (value lba : Nat) :
    (fatWriteEntry b d cluster value).readSector lba
      = if ∃ copy < b.fatCount, lba = b.copyLba copy (cluster * 2 / 512)
        then leWrite (d.readSector lba) (entryByte cluster) 2 value else d.readSector lba := by
  have bound := Bpb.sector_lt inTable
  refine loop_zero_invariant (fun count (d' : Device) => ∀ lba, d'.readSector lba
      = if ∃ copy < count, lba = b.copyLba copy (cluster * 2 / 512)
        then leWrite (d.readSector lba) (entryByte cluster) 2 value else d.readSector lba)
    ?_ (by simp) lba
  intro count d' _ before lba
  dsimp only
  rw [Bpb.entryLba_eq]
  by_cases here : lba = b.copyLba count (cluster * 2 / 512)
  · have untouched : ¬∃ copy < count, lba = b.copyLba copy (cluster * 2 / 512) := by
      rintro ⟨copy, earlier, same⟩
      rw [here, Bpb.copyLba_inj bound bound] at same
      omega
    subst here
    rw [Device.readSector_writeSector_self, before, if_neg untouched,
      if_pos ⟨count, Nat.lt_succ_self _, rfl⟩]
  · rw [Device.readSector_writeSector_of_ne _ _ here, before]
    refine if_congr ?_ rfl rfl
    constructor
    · rintro ⟨copy, earlier, same⟩
      exact ⟨copy, by omega, same⟩
    · rintro ⟨copy, earlier, same⟩
      refine ⟨copy, ?_, same⟩
      have different : copy ≠ count := fun equal => here (equal ▸ same)
      omega

/-- Each copy gets the same word. -/
theorem Mirrored.fatWriteEntry (mirrored : Mirrored b d) (inTable : cluster < b.tableSize) :
    Mirrored b (fatWriteEntry b d cluster value) := by
  intro copy isCopy s isSector i inSector
  have bound := Bpb.sector_lt inTable
  have before := mirrored copy isCopy s isSector
  rw [fatWriteEntry_read inTable, fatWriteEntry_read inTable]
  by_cases hit : s = cluster * 2 / 512
  · subst hit
    rw [if_pos ⟨copy, isCopy, rfl⟩, if_pos ⟨0, by omega, rfl⟩]
    exact leWrite_congr (before i inSector)
  · have missed : ∀ copy', ¬∃ copy'' < b.fatCount,
        b.copyLba copy' s = b.copyLba copy'' (cluster * 2 / 512) := by
      rintro copy' ⟨copy'', -, same⟩
      exact hit ((Bpb.copyLba_inj isSector bound).mp same).2
    rw [if_neg (missed copy), if_neg (missed 0)]
    exact before i inSector

/-- The entries of other clusters stay. -/
theorem copyEntry_fatWriteEntry_of_ne (inTable : cluster < b.tableSize) {other copy : Nat}
    (different : other ≠ cluster) (otherInTable : other < b.tableSize) :
    copyEntry b (fatWriteEntry b d cluster value) copy other = copyEntry b d copy other := by
  unfold copyEntry
  rw [fatWriteEntry_read inTable]
  split
  · next hit =>
      obtain ⟨copy', -, same⟩ := hit
      have sector := (Bpb.copyLba_inj (Bpb.sector_lt otherInTable) (Bpb.sector_lt inTable)).mp same
      refine leRead_leWrite_of_disjoint ?_
      unfold entryByte
      omega
  · rfl

theorem copyEntry_fatWriteEntry_self (inTable : cluster < b.tableSize) {copy : Nat}
    (isCopy : copy < b.fatCount) (fits : value < 65536) :
    copyEntry b (fatWriteEntry b d cluster value) copy cluster = value := by
  rw [copyEntry, fatWriteEntry_read inTable, if_pos ⟨copy, isCopy, rfl⟩]
  exact leRead_leWrite fits

theorem Mirrored.copyEntry_eq (mirrored : Mirrored b d) (inTable : cluster < b.tableSize)
    {copy : Nat} (isCopy : copy < b.fatCount) :
    copyEntry b d copy cluster = tableEntry b d cluster := by
  have first : b.entryLba cluster = b.copyLba 0 (cluster * 2 / 512) := by
    rw [← Bpb.entryLba_eq, Nat.zero_mul, Nat.add_zero]
  rw [copyEntry, tableEntry, first]
  refine leRead_congr fun i lower upper => mirrored copy isCopy _ (Bpb.sector_lt inTable) i ?_
  unfold entryByte at upper
  omega

end WriteEntry

/-! ## What a part of a call does -/

/-- No descriptor in use writes its entry back into a copy of the table. -/
def Placed (fs : FatFs) : Prop :=
  ∀ i, (fs.fds i).active = true → ¬fs.bpb.InFats (fs.fds i).dirEntrySector

/-- The changes so far concern clusters that the table has an entry for. -/
def InTable (fs : FatFs) : Prop := ∀ change ∈ fs.changes, change.cluster < fs.bpb.tableSize

/-- An entry stays; or it named no successor, being the last of a chain or free, and now
names a cluster that has been allocated. -/
def Extends (changes : List Change) (before after : Nat) : Prop :=
  after = before ∨ (before = 0 ∨ 0xFFF8 ≤ before) ∧ .allocated after ∈ changes

/-- If the changes in the history concern entries of the table, the copies stay
identical, and entries of clusters neither allocated nor freed are at most extended. -/
structure Effect (fs fs' : FatFs) : Prop where
  bpb : fs'.bpb = fs.bpb
  placed : Placed fs → Placed fs'
  history : fs.changes ⊆ fs'.changes
  mirrored : InTable fs' → Mirrored fs.bpb fs.device → Mirrored fs.bpb fs'.device
  entries : InTable fs' → Mirrored fs.bpb fs.device → ∀ cluster < fs.bpb.tableSize,
    .allocated cluster ∉ fs'.changes → .freed cluster ∉ fs'.changes → ∀ copy < fs.bpb.fatCount,
      Extends fs'.changes (copyEntry fs.bpb fs.device copy cluster)
        (copyEntry fs.bpb fs'.device copy cluster)

variable {lba : Nat}

namespace Effect

variable {fs fs' fs'' : FatFs}

theorem refl (fs : FatFs) : Effect fs fs :=
  ⟨rfl, id, fun _ member => member, fun _ mirrored => mirrored, fun _ _ _ _ _ _ _ _ => .inl rfl⟩

theorem trans (first : Effect fs fs') (second : Effect fs' fs'') : Effect fs fs'' := by
  obtain ⟨bpb, placed, history, mirrored, entries⟩ := second
  rw [first.bpb] at bpb mirrored entries
  have earlier : InTable fs'' → InTable fs' := by
    intro inTable change member
    rw [first.bpb, ← bpb]
    exact inTable change (history member)
  refine ⟨bpb, placed ∘ first.placed, List.Subset.trans first.history history, ?_, ?_⟩
  · intro inTable before
    exact mirrored inTable (first.mirrored (earlier inTable) before)
  · intro inTable before cluster bound unallocated unfreed copy isCopy
    have start := first.entries (earlier inTable) before cluster bound
      (fun member => unallocated (history member)) (fun member => unfreed (history member))
      copy isCopy
    have next := entries inTable (first.mirrored (earlier inTable) before) cluster bound unallocated
      unfreed copy isCopy
    rcases next with same | ⟨last, allocated⟩
    · rw [same]
      exact start.imp_right fun extended => ⟨extended.1, history extended.2⟩
    · rcases start with same | ⟨last', -⟩
      · exact .inr ⟨same ▸ last, allocated⟩
      · exact .inr ⟨last', allocated⟩

/-- The entry of a cluster that is allocated or freed is written. -/
theorem setEntry (fs : FatFs) {change : Change} (value : Nat)
    (own : change = .allocated change.cluster ∨ change = .freed change.cluster) :
    Effect fs (fs.setEntry change value) := by
  refine ⟨rfl, id, fun _ member => List.mem_cons_of_mem _ member, ?_, ?_⟩
  · intro inTable before
    exact before.fatWriteEntry (inTable change List.mem_cons_self)
  · intro inTable _ cluster bound unallocated unfreed copy _
    refine .inl (copyEntry_fatWriteEntry_of_ne (inTable change List.mem_cons_self) ?_ bound)
    rintro rfl
    rcases own with own | own
    · exact unallocated (own ▸ List.mem_cons_self)
    · exact unfreed (own ▸ List.mem_cons_self)

/-- Sectors outside the copies are written. -/
theorem outside (bpb : fs'.bpb = fs.bpb) (placed : Placed fs → Placed fs')
    (changes : fs'.changes = fs.changes)
    (same : ∀ lba, fs.bpb.InFats lba → fs'.device.readSector lba = fs.device.readSector lba) :
    Effect fs fs' := by
  have sameCopy : ∀ copy < fs.bpb.fatCount, ∀ s < fs.bpb.fatSize16,
      fs'.device.readSector (fs.bpb.copyLba copy s) = fs.device.readSector
        (fs.bpb.copyLba copy s) :=
    fun copy isCopy s isSector => same _ (Bpb.inFats_copyLba isCopy isSector)
  refine ⟨bpb, placed, fun _ member => changes ▸ member, ?_, ?_⟩
  · intro _ before copy isCopy s isSector i inSector
    rw [sameCopy copy isCopy s isSector, sameCopy 0 (by omega) s isSector]
    exact before copy isCopy s isSector i inSector
  · intro _ _ cluster bound _ _ copy isCopy
    left
    unfold copyEntry
    rw [sameCopy copy isCopy _ (Bpb.sector_lt bound)]

/-- One sector outside the copies is written. -/
theorem patch (outside : ¬fs.bpb.InFats lba) (change : Sector → Sector) :
    Effect fs { fs with device := patchSector fs.device lba change } := by
  refine Effect.outside rfl id rfl fun other inside => ?_
  refine Device.readSector_writeSector_of_ne _ _ ?_
  rintro rfl
  exact outside inside

end Effect

/-! ## The functions of the driver -/

variable {op : FatOp}

section Functions

variable {fs fs' : FatFs}

theorem effect_fatAllocCluster (fs : FatFs) : Effect fs fs.fatAllocCluster.2 := by
  unfold FatFs.fatAllocCluster
  split
  · exact Effect.refl fs
  · exact Effect.setEntry fs _ (.inl rfl)

variable {fuel off firstCluster : Nat}

theorem findFreeCluster_lt {cluster : Nat} (found : findFreeCluster b d = some cluster) :
    cluster < 65536 := by
  obtain ⟨s, -, inSector⟩ := List.exists_of_findSome?_eq_some found
  obtain ⟨j, -, offered⟩ := List.exists_of_findSome?_eq_some inSector
  dsimp only at offered
  split at offered
  · cases offered
  · split at offered
    · cases offered
      exact Nat.mod_lt _ (by decide)
    · cases offered

/-- A cluster is allocated and appended to one without a successor. -/
theorem effect_link (fs : FatFs) {cluster : Nat}
    (last : 0xFFF8 ≤ fatNext fs.bpb fs.device cluster ∨ fatNext fs.bpb fs.device cluster = 0)
    (some' : fs.fatAllocCluster.1 ≠ 0) :
    Effect fs (fs.fatAllocCluster.2.setEntry (.linked cluster fs.fatAllocCluster.1)
      fs.fatAllocCluster.1) := by
  unfold FatFs.fatAllocCluster at some' ⊢
  split at some'
  · exact absurd rfl some'
  · next newCl found =>
      have tail : ∀ change ∈ fs.changes, change ∈ (.linked cluster newCl : Change) ::
          .allocated newCl :: fs.changes :=
        fun _ member => List.mem_cons_of_mem _ (List.mem_cons_of_mem _ member)
      refine ⟨rfl, id, tail, fun inTable before => ?_, fun inTable before other bound unallocated _
        copy isCopy => ?_⟩
      · have inside := inTable _ List.mem_cons_self
        have inside' := inTable _ (List.mem_cons_of_mem _ List.mem_cons_self)
        exact (before.fatWriteEntry inside').fatWriteEntry inside
      · have inside : cluster < fs.bpb.tableSize := inTable _ List.mem_cons_self
        have inside' : newCl < fs.bpb.tableSize :=
          inTable _ (List.mem_cons_of_mem _ List.mem_cons_self)
        have apart : other ≠ newCl := by
          rintro rfl
          exact unallocated (List.mem_cons_of_mem _ List.mem_cons_self)
        by_cases here : other = cluster
        · subst here
          right
          rw [before.copyEntry_eq bound isCopy]
          refine ⟨?_, ?_⟩
          · unfold fatNext at last
            dsimp only at last
            split at last <;> omega
          · have written : copyEntry fs.bpb (fatWriteEntry fs.bpb
                (fatWriteEntry fs.bpb fs.device newCl 0xFFFF) other newCl) copy other = newCl :=
              copyEntry_fatWriteEntry_self bound isCopy (findFreeCluster_lt found)
            refine List.mem_cons_of_mem _ (List.mem_cons.mpr (.inl ?_))
            exact congrArg Change.allocated written
        · left
          exact (copyEntry_fatWriteEntry_of_ne inside here bound).trans
            (copyEntry_fatWriteEntry_of_ne inside' apart bound)

theorem effect_freeClusterChain :
    ∀ {fs : FatFs} {cl : Nat}, FatFs.freeClusterChain fuel fs cl = some fs' → Effect fs fs' := by
  induction fuel with
  | zero =>
    intro fs cl freed
    cases freed
  | succ fuel ih =>
    intro fs cl freed
    rw [FatFs.freeClusterChain] at freed
    dsimp only at freed
    split at freed
    · have first : Effect fs (fs.setEntry (.freed cl) 0) := Effect.setEntry fs 0 (.inr rfl)
      split at freed
      · cases freed
        exact first
      · exact first.trans (ih freed)
    · cases freed
      exact Effect.refl _

theorem effect_zeroCluster (apart : fs.bpb.Separate) (cluster : Nat) :
    Effect fs (fs.zeroCluster cluster) := by
  refine Effect.outside rfl id rfl fun lba inside => ?_
  refine loop_zero_invariant (fun _ (d : Device) => d.readSector lba = fs.device.readSector lba)
    (fun s d bound before => ?_) rfl
  rw [Device.readSector_writeSector_of_ne, before]
  rintro rfl
  refine apart.data _ ?_ inside
  unfold Bpb.clusterToLba
  omega

/-! Searches end at sectors of directories. -/

variable {wanted : DirEntryInfo → Bool} {e : DirEntryInfo}

theorem scanSlots_sector {buf : Sector} {slots : List Nat}
    (found : scanSlots wanted buf lba slots = some (some e)) :
    e.entrySector = lba := by
  induction slots with
  | nil => cases found
  | cons slot rest ih =>
    rw [scanSlots] at found
    split at found
    · cases found
    · split at found
      · cases found
        rfl
      · exact ih found

theorem scanSectors_sector {lbas : List Nat} (found : scanSectors wanted d lbas = some (some e)) :
    e.entrySector ∈ lbas := by
  induction lbas with
  | nil => cases found
  | cons lba rest ih =>
    rw [scanSectors] at found
    split at found
    · next result hit =>
        cases found
        rw [scanSlots_sector hit]
        exact List.mem_cons_self
    · exact List.mem_cons_of_mem _ (ih found)

theorem scanChain_sector (apart : b.Separate) :
    ∀ {cluster : Nat}, scanChain wanted b d fuel cluster = some (some e) →
      ¬b.InFats e.entrySector := by
  induction fuel with
  | zero =>
    intro cluster found
    cases found
  | succ fuel ih =>
    intro cluster found
    rw [scanChain] at found
    split at found
    · cases found
    · split at found
      · next hit =>
          cases found
          exact apart.outside (scanSectors_sector hit)
      · exact ih found

variable {dir : DirLoc}

theorem findEntry_outside (apart : b.Separate)
    (found : findEntry b d dir wanted = some (some e)) : ¬b.InFats e.entrySector := by
  cases dir with
  | root =>
    simp only [findEntry, Option.some.injEq, Option.join_eq_some_iff] at found
    exact apart.root _ (scanSectors_sector found)
  | subdir firstCluster => exact scanChain_sector apart found

theorem freeSlot_sector {lbas : List Nat} (found : freeSlot d lbas = some (lba, off)) :
    lba ∈ lbas := by
  induction lbas with
  | nil => cases found
  | cons first rest ih =>
    rw [freeSlot] at found
    split at found
    · cases found
      exact List.mem_cons_self
    · exact List.mem_cons_of_mem _ (ih found)

/-- Taking a slot of a subdirectory may make its chain longer. -/
theorem effect_slotInChain {slot : Option (Nat × Nat)} :
    ∀ {fs : FatFs} {cluster : Nat}, fs.bpb.Separate →
      FatFs.slotInChain fuel fs cluster = some (slot, fs') →
      Effect fs fs' ∧ ∀ lba off, slot = some (lba, off) → ¬fs.bpb.InFats lba := by
  induction fuel with
  | zero =>
    intro fs cluster _ taken
    cases taken
  | succ fuel ih =>
    intro fs cluster apart taken
    rw [FatFs.slotInChain] at taken
    dsimp only at taken
    split at taken
    · cases taken
      exact ⟨Effect.refl _, fun _ _ isSlot => by cases isSlot⟩
    split at taken
    · next free found =>
        cases taken
        refine ⟨Effect.refl _, fun lba off isSlot => ?_⟩
        cases isSlot
        exact apart.outside (freeSlot_sector found)
    split at taken
    · next last =>
      split at taken
      · cases taken
        exact ⟨effect_fatAllocCluster fs, fun _ _ isSlot => by cases isSlot⟩
      · next some' =>
        have linked := effect_link fs last some'
        have zeroed := linked.trans
          (effect_zeroCluster (linked.bpb.symm ▸ apart) fs.fatAllocCluster.1)
        obtain ⟨rest, place⟩ := ih (zeroed.bpb.symm ▸ apart) taken
        refine ⟨zeroed.trans rest, fun lba off isSlot => ?_⟩
        rw [← zeroed.bpb]
        exact place lba off isSlot
    · exact ih apart taken

theorem effect_takeSlot (apart : fs.bpb.Separate) {slot : Option (Nat × Nat)}
    (taken : fs.takeSlot dir = some (slot, fs')) :
    Effect fs fs' ∧ ∀ lba off, slot = some (lba, off) → ¬fs.bpb.InFats lba := by
  cases dir with
  | root =>
    cases taken
    refine ⟨Effect.refl fs, fun lba off found => ?_⟩
    exact apart.root lba (freeSlot_sector found)
  | subdir firstCluster => exact effect_slotInChain apart taken

theorem effect_createDirEntry (apart : fs.bpb.Separate) {name83 : List UInt8}
    {attr : UInt8} {size : Nat} {slot : Option (Nat × Nat)}
    (created : fs.createDirEntry dir name83 attr firstCluster size = some (slot, fs')) :
    Effect fs fs' ∧ ∀ lba off, slot = some (lba, off) → ¬fs.bpb.InFats lba := by
  unfold FatFs.createDirEntry at created
  split at created
  · cases created
  · next taken =>
      cases created
      exact effect_takeSlot apart taken
  · next taken =>
      obtain ⟨first, place⟩ := effect_takeSlot apart taken
      cases created
      refine ⟨first.trans (Effect.patch ?_ _), ?_⟩
      · rw [first.bpb]
        exact place _ _ rfl
      · intro lba off isSlot
        cases isSlot
        exact place _ _ rfl

/-! `open` -/

theorem effect_truncate {newCl : Nat} (outside : ¬fs.bpb.InFats lba)
    (truncated : fs.truncate lba off firstCluster = some (newCl, fs')) : Effect fs fs' := by
  unfold FatFs.truncate at truncated
  split at truncated
  · cases truncated
  · next fs₁ freed =>
      cases truncated
      have first := (effect_freeClusterChain freed).trans (effect_fatAllocCluster fs₁)
      refine first.trans (Effect.patch ?_ _)
      rwa [first.bpb]

variable {slot : FatFd}

theorem effect_setFd (i : Nat) (place : slot.active = true → ¬fs.bpb.InFats slot.dirEntrySector) :
    Effect fs (fs.setFd i slot) := by
  refine Effect.outside rfl (fun placed j active => ?_) rfl fun _ _ => rfl
  by_cases same : j = i
  · subst same
    simp only [FatFs.setFd, update_self] at active ⊢
    exact place active
  · simp only [FatFs.setFd, update_of_ne same] at active ⊢
    exact placed j active

theorem effect_allocFd (fs : FatFs) (writable : Bool) (outside : ¬fs.bpb.InFats lba)
    (off firstCluster size : Nat) :
    Effect fs (fs.allocFd writable lba off firstCluster size).2 := by
  unfold FatFs.allocFd
  split
  · exact Effect.refl fs
  · exact effect_setFd _ fun _ => outside

variable {flags : UInt32} {result : Int}

theorem effect_openFound {size : Nat} (outside : ¬fs.bpb.InFats lba)
    (opened : fs.openFound flags lba off firstCluster size = some (result, fs')) :
    Effect fs fs' := by
  unfold FatFs.openFound at opened
  split at opened
  · split at opened
    · cases opened
    · next newCl fs₁ truncated =>
        have first := effect_truncate outside truncated
        have second := effect_allocFd fs₁ (isWritable flags) (first.bpb.symm ▸ outside) off
          newCl 0
        rw [Option.some.inj opened] at second
        exact first.trans second
  · have only := effect_allocFd fs (isWritable flags) outside off firstCluster size
    rw [Option.some.inj opened] at only
    exact only

theorem effect_openNew (apart : fs.bpb.Separate) {parent : DirLoc} {name : List UInt8}
    (opened : fs.openNew flags parent name = some (result, fs')) : Effect fs fs' := by
  have allocated := effect_fatAllocCluster fs
  unfold FatFs.openNew at opened
  dsimp only at opened
  split at opened
  · cases opened
    exact allocated
  have apart' : fs.fatAllocCluster.2.bpb.Separate := allocated.bpb.symm ▸ apart
  split at opened
  · cases opened
  · next created =>
      cases opened
      exact allocated.trans (effect_createDirEntry apart' created).1
  · next created =>
      obtain ⟨second, place⟩ := effect_createDirEntry apart' created
      have outside := place _ _ rfl
      rw [← second.bpb] at outside
      exact (allocated.trans second).trans (effect_openFound outside opened)

variable {rawPath : List UInt8}

theorem effect_openPath (apart : fs.bpb.Separate)
    (opened : fs.openPath rawPath flags = some (result, fs')) : Effect fs fs' := by
  unfold FatFs.openPath at opened
  split at opened
  · cases opened
    exact Effect.refl _
  split at opened
  · cases opened
  · cases opened
    exact Effect.refl _
  split at opened
  · cases opened
  · next found => exact effect_openFound (findEntry_outside apart found) opened
  · split at opened
    · cases opened
      exact Effect.refl _
    · exact effect_openNew apart opened

/-! `mkdir` -/

theorem effect_initDir (apart : fs.bpb.Separate) (cluster : Nat) (parent : DirLoc) :
    Effect fs (fs.initDir cluster parent) := by
  refine (effect_zeroCluster apart cluster).trans ?_
  refine Effect.outside rfl id rfl fun lba inside => ?_
  refine Device.readSector_writeSector_of_ne _ _ ?_
  rintro rfl
  exact apart.data _ (Nat.le_add_right _ _) inside

theorem effect_mkdir (apart : fs.bpb.Separate)
    (made : fs.mkdir rawPath = some (result, fs')) : Effect fs fs' := by
  unfold FatFs.mkdir at made
  split at made
  · cases made
    exact Effect.refl _
  split at made
  · cases made
  · cases made
    exact Effect.refl _
  next parent name _ =>
  have allocated := effect_fatAllocCluster fs
  dsimp only at made
  split at made
  · cases made
    exact allocated
  have filled := allocated.trans
    (effect_initDir (allocated.bpb.symm ▸ apart) fs.fatAllocCluster.1 parent)
  split at made
  · cases made
  all_goals
    next created =>
      cases made
      exact filled.trans (effect_createDirEntry (filled.bpb.symm ▸ apart) created).1

/-! `unlink` and `rename` -/

theorem effect_deleteSlot (outside : ¬fs.bpb.InFats lba) (off : Nat) :
    Effect fs (fs.deleteSlot lba off) :=
  Effect.patch outside _

theorem effect_removeEntry (outside : ¬fs.bpb.InFats e.entrySector)
    (removed : fs.removeEntry e = some (result, fs')) : Effect fs fs' := by
  unfold FatFs.removeEntry at removed
  dsimp only at removed
  split at removed
  · cases removed
  next fs₁ freed =>
  have first : Effect fs fs₁ := by
    split at freed
    · exact effect_freeClusterChain freed
    · cases freed
      exact Effect.refl _
  have forgotten : Effect fs₁
      (if e.isDir then { fs₁ with dirs := fs₁.dirs.filter (· != e.firstCluster) } else fs₁) := by
    split
    · exact Effect.outside rfl id rfl fun _ _ => rfl
    · exact Effect.refl fs₁
  have second := first.trans forgotten
  cases removed
  refine second.trans (effect_deleteSlot ?_ _)
  rwa [second.bpb]

theorem effect_unlink (apart : fs.bpb.Separate)
    (unlinked : fs.unlink rawPath = some (result, fs')) : Effect fs fs' := by
  unfold FatFs.unlink at unlinked
  split at unlinked
  · cases unlinked
    exact Effect.refl _
  split at unlinked
  · cases unlinked
  · cases unlinked
    exact Effect.refl _
  split at unlinked
  · cases unlinked
  · cases unlinked
    exact Effect.refl _
  next found =>
  have outside := findEntry_outside apart found
  split at unlinked
  · split at unlinked
    · cases unlinked
    · cases unlinked
      exact Effect.refl _
    · exact effect_removeEntry outside unlinked
  · exact effect_removeEntry outside unlinked

theorem effect_adopt (apart : fs.bpb.Separate) {newParent : DirLoc}
    (adopted : fs.adopt e newParent = some fs') : Effect fs fs' := by
  unfold FatFs.adopt at adopted
  split at adopted
  · cases adopted
    exact Effect.refl _
  split at adopted
  · cases adopted
  · cases adopted
    refine Effect.patch (apart.data _ ?_) _
    unfold Bpb.clusterToLba
    omega

theorem effect_moveEntry (apart : fs.bpb.Separate) {newParent : DirLoc}
    {newName : List UInt8} (outside : ¬fs.bpb.InFats e.entrySector)
    (moved : fs.moveEntry e newParent newName = some (result, fs')) : Effect fs fs' := by
  unfold FatFs.moveEntry at moved
  split at moved
  · cases moved
  · next created =>
      cases moved
      exact (effect_createDirEntry apart created).1
  next fs₁ created =>
  have first := (effect_createDirEntry apart created).1
  split at moved
  · cases moved
  next adopted =>
  have second := first.trans (effect_adopt (first.bpb.symm ▸ apart) adopted)
  cases moved
  refine second.trans (effect_deleteSlot ?_ _)
  rwa [second.bpb]

theorem effect_rename (apart : fs.bpb.Separate) {oldPath newPath : List UInt8}
    (renamed : fs.rename oldPath newPath = some (result, fs')) : Effect fs fs' := by
  unfold FatFs.rename at renamed
  split at renamed
  · cases renamed
    exact Effect.refl _
  split at renamed
  · cases renamed
  · cases renamed
    exact Effect.refl _
  split at renamed
  · cases renamed
  · cases renamed
    exact Effect.refl _
  split at renamed
  · cases renamed
  · cases renamed
    exact Effect.refl _
  next found =>
  have outside := findEntry_outside apart found
  split at renamed
  · cases renamed
  · cases renamed
    exact Effect.refl _
  split at renamed
  · cases renamed
    exact Effect.patch outside _
  · exact effect_moveEntry apart outside renamed

/-! `write` and `close` -/

theorem effect_flushDirSize (outside : ¬fs.bpb.InFats slot.dirEntrySector) :
    Effect fs (fs.flushDirSize slot) := by
  unfold FatFs.flushDirSize
  split
  · exact Effect.refl fs
  · exact Effect.patch outside _

/-- A descriptor keeps the place of its directory entry. -/
theorem effect_ensureCluster {slot' : Option FatFd}
    (ensured : fs.ensureCluster slot = (slot', fs')) :
    Effect fs fs' ∧ ∀ s, slot' = some s → s.dirEntrySector = slot.dirEntrySector := by
  unfold FatFs.ensureCluster at ensured
  split at ensured
  · have allocated := effect_fatAllocCluster fs
    dsimp only at ensured
    split at ensured
    · cases ensured
      exact ⟨allocated, fun _ isSlot => by cases isSlot⟩
    · cases ensured
      exact ⟨allocated, fun _ isSlot => by cases isSlot; rfl⟩
  · cases ensured
    exact ⟨Effect.refl _, fun _ isSlot => by cases isSlot; rfl⟩

theorem effect_storeChunk (apart : fs.bpb.Separate) (slot : FatFd) (chunk : List UInt8) :
    Effect fs (fs.storeChunk slot chunk) := by
  refine Effect.outside rfl id rfl fun lba inside => ?_
  refine Device.readSector_writeSector_of_ne _ _ ?_
  rintro rfl
  refine apart.data _ ?_ inside
  unfold Bpb.clusterToLba
  omega

theorem effect_advance {slot' : FatFd} {more goesOn : Bool}
    (advanced : fs.advance slot more = (goesOn, slot', fs')) :
    Effect fs fs' ∧ slot'.dirEntrySector = slot.dirEntrySector := by
  unfold FatFs.advance at advanced
  dsimp only at advanced
  split at advanced
  · cases advanced
    exact ⟨Effect.refl _, rfl⟩
  split at advanced
  · cases advanced
    exact ⟨Effect.refl _, rfl⟩
  split at advanced
  · next last =>
    split at advanced
    · cases advanced
      exact ⟨Effect.refl _, rfl⟩
    · split at advanced
      · cases advanced
        exact ⟨effect_fatAllocCluster fs, rfl⟩
      · next some' =>
        cases advanced
        exact ⟨effect_link fs last some', rfl⟩
  · cases advanced
    exact ⟨Effect.refl _, rfl⟩

theorem effect_writeLoop :
    ∀ {fs : FatFs} {slot slot' : FatFd} {data : List UInt8} {done : Nat}, fs.bpb.Separate →
      FatFs.writeLoop fuel fs slot data = some (done, slot', fs') →
      Effect fs fs' ∧ slot'.dirEntrySector = slot.dirEntrySector := by
  induction fuel with
  | zero =>
    intro fs slot slot' data done _ written
    cases written
    exact ⟨Effect.refl _, rfl⟩
  | succ fuel ih =>
    intro fs slot slot' data done apart written
    rw [FatFs.writeLoop] at written
    dsimp only at written
    split at written
    · cases written
      exact ⟨Effect.refl _, rfl⟩
    split at written
    · next ensured =>
        cases written
        exact ⟨(effect_ensureCluster ensured).1, rfl⟩
    next slot₁ fs₁ ensured =>
    obtain ⟨first, place₁⟩ := effect_ensureCluster ensured
    have stored := first.trans
      (effect_storeChunk (first.bpb.symm ▸ apart) slot₁ (FatFs.chunkOf slot₁ data))
    have same₁ := place₁ slot₁ rfl
    split at written
    · cases written
    split at written
    · next advanced =>
        cases written
        obtain ⟨last, place₂⟩ := effect_advance advanced
        exact ⟨stored.trans last, place₂.trans same₁⟩
    · next advanced =>
        obtain ⟨third, place₂⟩ := effect_advance advanced
        have round := stored.trans third
        split at written
        · cases written
        · next rest =>
            cases written
            obtain ⟨last, place₃⟩ := ih (round.bpb.symm ▸ apart) rest
            exact ⟨round.trans last, place₃.trans (place₂.trans same₁)⟩

theorem effect_writeFd (apart : fs.bpb.Separate) (placed : Placed fs) {fd : Int} {data : List UInt8}
    (written : fs.writeFd fd data = some (result, fs')) : Effect fs fs' := by
  unfold FatFs.writeFd at written
  dsimp only at written
  split at written
  · cases written
    exact Effect.refl _
  split at written
  · cases written
    exact Effect.refl _
  next active =>
  split at written
  · cases written
    exact Effect.refl _
  split at written
  · cases written
  next slot fs₁ looped =>
  obtain ⟨first, place⟩ := effect_writeLoop apart looped
  have outside : ¬fs₁.bpb.InFats slot.dirEntrySector := by
    rw [first.bpb, place]
    exact placed _ (by simpa using active)
  cases written
  have second := first.trans (effect_setFd (fdSlot fd) fun _ => outside)
  refine second.trans (effect_flushDirSize ?_)
  exact outside

theorem effect_close (placed : Placed fs) (fd : Int) : Effect fs (fs.close fd).2 := by
  unfold FatFs.close
  split
  · exact Effect.refl fs
  dsimp only
  have flushed : Effect fs (if (fs.fds (fdSlot fd)).active && (fs.fds (fdSlot fd)).writable then
      fs.flushDirSize (fs.fds (fdSlot fd)) else fs) := by
    split
    · next used =>
        rw [Bool.and_eq_true] at used
        exact effect_flushDirSize (placed _ used.1)
    · exact Effect.refl fs
  exact flushed.trans (effect_setFd _ fun active => by cases active)

/-- Every call writes entries of the table, with a note in the history, and sectors
outside the copies. -/
theorem effect_perform (apart : fs.bpb.Separate) (placed : Placed fs)
    (performed : fs.perform op = some (result, fs')) : Effect fs fs' := by
  cases op with
  | openPath rawPath flags => exact effect_openPath apart performed
  | write fd data => exact effect_writeFd apart placed performed
  | close fd =>
    have closed := effect_close placed fd
    rw [Option.some.inj performed] at closed
    exact closed
  | mkdir rawPath => exact effect_mkdir apart performed
  | unlink rawPath => exact effect_unlink apart performed
  | rename oldPath newPath => exact effect_rename apart performed

end Functions

/-! ## Runs -/

/-- The clusters whose entries the call changes have an entry in the table. -/
def UsesTable (fs : FatFs) (op : FatOp) : Prop := ∀ fs', fs.next op = some fs' → InTable fs'

theorem next_effect {fs fs' : FatFs} (apart : fs.bpb.Separate) (placed : Placed fs)
    (stepped : fs.next op = some fs') : Effect { fs with changes := [] } fs' := by
  unfold FatFs.next at stepped
  split at stepped
  · cases stepped
  · next performed =>
      cases stepped
      exact effect_perform apart placed performed

/-- What every call keeps. -/
structure InStep (b : Bpb) (fs : FatFs) : Prop where
  bpb : fs.bpb = b
  placed : Placed fs
  mirrored : Mirrored b fs.device

theorem InStep.next {fs fs' : FatFs} (apart : b.Separate)
    (inv : InStep b fs) (uses : UsesTable fs op) (stepped : fs.next op = some fs') :
    InStep b fs' := by
  obtain ⟨rfl, placed, mirrored⟩ := inv
  have effect := next_effect apart placed stepped
  exact ⟨effect.bpb, effect.placed placed, effect.mirrored (uses fs' stepped) mirrored⟩

/-- A small volume: one sector for each copy of the table and for the root directory,
and one sector to a cluster. -/
def smallBpb : Bpb := ⟨512, 1, 1, 2, 16, 1, 1, 3, 4⟩

/-- Its boot sector. -/
def smallBootSector : Sector :=
  leWrite (leWrite (leWrite (leWrite (leWrite Sector.zero 0x0B 2 512) 0x0D 3 (1 + 256)) 0x10 3
    (2 + 256 * 16)) 0x16 2 1) 510 2 0xAA55

/-- The volume on a disk of its own; no file is on it. -/
def smallDisk : Device := ⟨update (fun _ => Sector.zero) 0 smallBootSector, []⟩

theorem smallDisk_mounts : fatInit smallDisk = some smallBpb := by decide +kernel

theorem smallDisk_mirrored : Mirrored smallBpb smallDisk := by
  intro copy _ s _ i _
  have notBoot : ∀ copy s, smallBpb.copyLba copy s ≠ 0 := by
    intro copy s
    unfold smallBpb Bpb.copyLba
    dsimp only
    omega
  simp only [smallDisk, Device.readSector, update_of_ne (notBoot _ _)]

/-- Create `/A`. -/
def createA : FatOp := .openPath [slash, 0x41] 0x41

/-- Write one byte more than a cluster holds to the file opened first. -/
def growth : FatOp := .write 64 (List.replicate 513 0)

def growA : List FatOp := [createA, growth]

/-- `/A` and `/B` are created and unlinked again; both stay open. -/
def unlinkBoth : List FatOp :=
  [createA, .openPath [slash, 0x42] 0x41, .unlink [slash, 0x41], .unlink [slash, 0x42]]

instance (fs : FatFs) (op : FatOp) : Decidable (UsesTable fs op) :=
  match stepped : fs.next op with
  | none => .isTrue (by simp [UsesTable, stepped])
  | some fs' =>
    decidable_of_iff (∀ change ∈ fs'.changes, change.cluster < fs'.bpb.tableSize)
      (by simp [UsesTable, InTable, stepped])

end OxideOS.Fat
