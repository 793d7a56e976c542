import Mathlib.Algebra.Order.BigOperators.Group.Finset
import OxideOS.Lib.Chain
import OxideOS.Fat.Freeing
import OxideOS.Fat.Listing

/-!
# When the directory operations end

A subdirectory is walked through along the table, without a count. On a table where the
clusters of a directory follow each other in a circle such a walk has no end of its own:
it has to meet a slot that was never used or what it looks for. `dir_calls_end_iff` says for
each operation on which tables it ends, and that it then makes no more sector accesses
than a number that only depends on the parameters of the volume.

`accesses` counts them: for a search and the listings with `visitChain`, for a new entry
with `slotCounted`, which is `slotInChain` with a count, and for a removal with both
searches and the history of the freeing loop.
-/

set_option autoImplicit false

namespace OxideOS.Fat

open Lib Disk

/-! ## Counting the accesses of a new entry -/

/-- The sectors `freeSlot` reads. -/
def freeSlotReads (d : Device) : List Nat → Nat
  | [] => 0
  | lba :: rest =>
    if ((List.range 16).find? fun e => isFreeSlot (d.readSector lba) (e * 32)).isSome then 1
    else freeSlotReads d rest + 1

/-- The sectors `fat_alloc_cluster` reads to find a free entry. -/
def searchReads (b : Bpb) (d : Device) : Nat :=
  min b.fatSize16 (((List.range b.fatSize16).findIdx fun s =>
    (scanTableSector (d.readSector (b.fatStartLba + s)) s).isSome) + 1)

/-- An entry is read and written in every copy. -/
def entryAccesses (b : Bpb) : Nat := 2 * b.fatCount

namespace FatFs

/-- `slotInChain` with the number of sectors read and written, up to the write of the
entry itself. -/
def slotCounted : (fuel : Nat) → FatFs → (cluster : Nat) →
    Option ((Option (Nat × Nat) × FatFs) × Nat)
  | 0, _, _ => none
  | fuel + 1, fs, cluster =>
    if Outside cluster then some ((none, fs), 0)
    else
      let reads := freeSlotReads fs.device (fs.bpb.clusterLbas cluster)
      match freeSlot fs.device (fs.bpb.clusterLbas cluster) with
      | some slot => some ((some slot, fs), reads + 1)
      | none =>
        let next := fatNext fs.bpb fs.device cluster
        if 0xFFF8 ≤ next ∨ next = 0 then
          let search := searchReads fs.bpb fs.device
          let (newCl, fs) := fs.fatAllocCluster
          if newCl = 0 then some ((none, fs), reads + 1 + search)
          else
            let fs := fs.setEntry (.linked cluster newCl) newCl
            (slotCounted fuel (fs.zeroCluster newCl) newCl).map fun (result, later) =>
              (result, reads + 1 + search + 2 * entryAccesses fs.bpb +
                fs.bpb.sectorsPerCluster + later)
        else
          (slotCounted fuel fs next).map fun (result, later) => (result, reads + 1 + later)

theorem slotInChain_eq_counted (fuel : Nat) (fs : FatFs) (cluster : Nat) :
    slotInChain fuel fs cluster = (slotCounted fuel fs cluster).map Prod.fst := by
  induction fuel generalizing fs cluster with
  | zero => rfl
  | succ fuel ih =>
    rw [slotInChain, slotCounted]
    by_cases outside : cluster < 2 ∨ 0xFFF8 ≤ cluster
    · rw [if_pos outside, if_pos (c := Outside cluster) outside]
      rfl
    rw [if_neg outside, if_neg (c := Outside cluster) outside]
    cases freeSlot fs.device (fs.bpb.clusterLbas cluster) with
    | some slot => rfl
    | none =>
      dsimp only
      by_cases last : 0xFFF8 ≤ fatNext fs.bpb fs.device cluster ∨
          fatNext fs.bpb fs.device cluster = 0
      · rw [if_pos last, if_pos last]
        by_cases full : fs.fatAllocCluster.1 = 0
        · rw [if_pos full, if_pos full]
          rfl
        · rw [if_neg full, if_neg full, ih, Option.map_map]
          rfl
      · rw [if_neg last, if_neg last, ih, Option.map_map]
        rfl

end FatFs

/-! ## The operations -/

/-- What can be asked of a subdirectory. -/
inductive DirCall where
  | lookup (wanted : DirEntryInfo → Bool)
  | list
  | listRaw (len : Nat)
  | create
  | remove (name : List UInt8)

namespace FatFs

/-- Freeing the chain of an entry reads and writes the entry of each cluster it visits;
its slot is read and written. -/
def removeAccesses (fs : FatFs) (fuel : Nat) (e : DirEntryInfo) : Option Nat :=
  let freed := if 2 ≤ e.firstCluster then freeClusterChain fuel fs e.firstCluster else some fs
  freed.map fun fs' => (fs'.changes.length - fs.changes.length) * (1 + entryAccesses fs.bpb) + 2

/-- The number of sectors an operation on the subdirectory `dir` reads and writes, if it
ends. -/
def accesses (fs : FatFs) (fuel dir : Nat) : DirCall → Option Nat
  | .lookup wanted => (visitChain (finding wanted) fs.bpb fs.device fuel dir none).map Prod.snd
  | .list => (visitChain listing fs.bpb fs.device fuel dir []).map Prod.snd
  | .listRaw len => (visitChain (listingRaw len) fs.bpb fs.device fuel dir []).map Prod.snd
  | .create => (slotCounted fuel fs dir).map Prod.snd
  | .remove name =>
    match visitChain (finding (·.name83 == name)) fs.bpb fs.device fuel dir none with
    | none => none
    | some (none, reads) => some reads
    | some (some e, reads) =>
      if e.isDir then
        match visitChain (finding isChild) fs.bpb fs.device fuel e.firstCluster none with
        | none => none
        | some (some _, more) => some (reads + more)
        | some (none, more) => (fs.removeAccesses fuel e).map (reads + more + ·)
      else (fs.removeAccesses fuel e).map (reads + ·)

end FatFs

/-! ## Searches and listings -/

/-- The cluster has an entry that is wanted. -/
def Shows (wanted : DirEntryInfo → Bool) (b : Bpb) (d : Device) (cluster : Nat) : Prop :=
  ∃ lba ∈ b.clusterLbas cluster, ∃ e ∈ List.range 16,
    isLiveSlot (d.readSector lba) (e * 32) = true ∧
      wanted (entryInfo (d.readSector lba) lba (e * 32)) = true

instance (wanted : DirEntryInfo → Bool) (b : Bpb) (d : Device) : DecidablePred (Shows wanted b d) :=
  fun _ => inferInstanceAs (Decidable (∃ _ ∈ _, _))

/-- One of the clusters along the table from `cluster` is in `stop`. -/
def Meets (b : Bpb) (d : Device) (stop : Nat → Prop) (cluster : Nat) : Prop :=
  ∃ n, stop ((fatNext b d)^[n] cluster)

/-- A search ends where the directory does or at an entry that is wanted. -/
def SearchEnds (wanted : DirEntryInfo → Bool) (b : Bpb) (d : Device) (cluster : Nat) : Prop :=
  Meets b d (fun k => Halts b d k ∨ Shows wanted b d k) cluster

/-- More clusters than a walk can pass without passing one twice. -/
def walkLength : Nat := 65529

/-- The sectors such a walk reads. -/
def walkLimit (b : Bpb) : Nat := walkLength * (b.sectorsPerCluster + 1)

variable {wanted : DirEntryInfo → Bool} {n fuel : Nat}

section Searches

variable {b : Bpb} {d : Device} {cluster : Nat} {stop : Nat → Prop}

/-- A stop that takes in all the numbers outside the table is met early or not at all. -/
theorem Meets.early (outside : ∀ k, Outside k → stop k) (meets : Meets b d stop cluster) :
    ∃ n < walkLength, stop ((fatNext b d)^[n] cluster) := by
  have inside : ∀ k, ¬stop k → k < 0xFFF8 := by
    intro k passes
    have notOutside := mt (outside k) passes
    unfold Outside at notOutside
    omega
  obtain ⟨n, bound, stops⟩ := exists_iterate_le inside meets
  exact ⟨n, Nat.lt_succ_of_le bound, stops⟩

theorem slotWeight_finding {lba e : Nat} :
    0 < slotWeight (fun e => (wanted e).toNat) d lba e ↔
      isLiveSlot (d.readSector lba) (e * 32) = true ∧
        wanted (entryInfo (d.readSector lba) lba (e * 32)) = true := by
  unfold slotWeight
  cases isLiveSlot (d.readSector lba) (e * 32) with
  | false => simp
  | true =>
    cases isWanted : wanted (entryInfo (d.readSector lba) lba (e * 32)) <;> simp [isWanted]

theorem clusterWeight_finding :
    0 < clusterWeight (fun e => (wanted e).toNat) b d cluster ↔ Shows wanted b d cluster := by
  unfold clusterWeight sectorWeight Shows
  simp only [List.sum_pos_iff_exists_pos_nat, List.mem_map, exists_exists_and_eq_and,
    slotWeight_finding]

/-- The budget of a search is spent in a cluster with an entry that is wanted. -/
theorem finding_spent_iff (wanted : DirEntryInfo → Bool) :
    0 < 0 + chainWeight (fun e => (wanted e).toNat) b d cluster n ↔
      ∃ i ≤ n, Shows wanted b d ((fatNext b d)^[i] cluster) := by
  rw [Nat.zero_add, chainWeight, Finset.sum_pos_iff]
  simp only [Finset.mem_range, Nat.lt_succ_iff, clusterWeight_finding]

theorem finding_ends (ends : SearchEnds wanted b d cluster) :
    ∃ result, visitChain (finding wanted) b d chainFuel cluster none = some result ∧
      result.2 < walkLimit b := by
  obtain ⟨n, bound, stops⟩ := ends.early fun _ outside => .inl (.inl outside)
  have stops : Halts b d ((fatNext b d)^[n] cluster) ∨
      0 < 0 + chainWeight (fun e => (wanted e).toNat) b d cluster n :=
    stops.imp_right fun found => (finding_spent_iff wanted).mpr ⟨n, Nat.le_refl n, found⟩
  obtain ⟨result, ended, few⟩ := visitChain_ends (budgeted_finding wanted) (Nat.le_refl 0) stops
  have early : n + 1 ≤ chainFuel := Nat.le_trans bound (by decide)
  refine ⟨result, visitChain_mono ended early, ?_⟩
  have upTo : (n + 1) * (b.sectorsPerCluster + 1) ≤ walkLimit b := Nat.mul_le_mul_right _ bound
  rw [Nat.succ_mul] at upTo
  omega

theorem searchEnds_of_finding {result : Option DirEntryInfo × Nat}
    (ended : visitChain (finding wanted) b d fuel cluster none = some result) :
    SearchEnds wanted b d cluster := by
  have few : result.2 < (result.2 + 1) * (b.sectorsPerCluster + 1) :=
    Nat.lt_of_lt_of_le (Nat.lt_succ_self _) (Nat.le_mul_of_pos_right _ (Nat.succ_pos _))
  obtain ⟨n, -, halts | spent⟩ :=
    (visitChain_lt_iff (budgeted_finding wanted) (Nat.le_refl 0) _).mp ⟨fuel, result, ended, few⟩
  · exact ⟨n, .inl halts⟩
  · obtain ⟨i, -, found⟩ := (finding_spent_iff wanted).mp spent
    exact ⟨i, .inr found⟩

/-- A listing into memory of the kernel ends where the directory does. -/
theorem listing_ends_iff :
    (∃ fuel result, visitChain listing b d fuel cluster [] = some result ∧
      result.2 < walkLimit b) ↔ Meets b d (Halts b d) cluster := by
  unfold walkLimit
  rw [visitChain_lt_iff budgeted_listing (Nat.le_refl 0)]
  have nothing : ∀ n, chainWeight (fun _ => 0) b d cluster n = 0 := by
    intro n
    unfold chainWeight clusterWeight sectorWeight slotWeight
    simp
  simp only [nothing, Nat.add_zero, Nat.lt_irrefl, or_false]
  constructor
  · rintro ⟨n, -, halts⟩
    exact ⟨n, halts⟩
  · intro meets
    exact meets.early fun _ outside => .inl outside

end Searches

/-! ## New entries -/

/-- The cluster has a slot for a new entry. -/
def Roomy (b : Bpb) (d : Device) (cluster : Nat) : Prop :=
  ∃ lba ∈ b.clusterLbas cluster, ∃ e ∈ List.range 16,
    isFreeSlot (d.readSector lba) (e * 32) = true

instance (b : Bpb) (d : Device) : DecidablePred (Roomy b d) := fun _ =>
  inferInstanceAs (Decidable (∃ _ ∈ _, _))

/-- What a new cluster for the directory costs, and the slot in it. -/
def extendLimit (b : Bpb) : Nat :=
  b.fatSize16 + 2 * entryAccesses b + 3 * b.sectorsPerCluster + 2

section Creating

theorem freeSlot_isSome {d : Device} {lbas : List Nat} :
    (freeSlot d lbas).isSome ↔
      ∃ lba ∈ lbas, ∃ e ∈ List.range 16, isFreeSlot (d.readSector lba) (e * 32) = true := by
  induction lbas with
  | nil => simp [freeSlot]
  | cons lba rest ih =>
    rw [freeSlot]
    cases found : (List.range 16).find? fun e => isFreeSlot (d.readSector lba) (e * 32) with
    | some e =>
      have free := List.find?_some found
      exact ⟨fun _ => ⟨lba, List.mem_cons_self, e, List.mem_of_find?_eq_some found, free⟩,
        fun _ => rfl⟩
    | none =>
      dsimp only
      rw [ih, List.exists_mem_cons_iff]
      refine ⟨.inr, ?_⟩
      rintro (⟨e, mem, free⟩ | later)
      · exact absurd free (List.find?_eq_none.mp found e mem)
      · exact later

theorem freeSlotReads_le (d : Device) (lbas : List Nat) : freeSlotReads d lbas ≤ lbas.length := by
  induction lbas with
  | nil => exact Nat.le_refl 0
  | cons lba rest ih =>
    rw [freeSlotReads, List.length_cons]
    split <;> omega

theorem freeSlotReads_cluster_le (b : Bpb) (d : Device) (cluster : Nat) :
    freeSlotReads d (b.clusterLbas cluster) ≤ b.sectorsPerCluster := by
  rw [← clusterLbas_length b cluster]
  exact freeSlotReads_le d _

variable {fs : FatFs} {dir : Nat}

/-- A cluster that has been cleared has room. -/
theorem roomy_zeroCluster (sectors : 0 < fs.bpb.sectorsPerCluster) (cluster : Nat) :
    Roomy fs.bpb (fs.zeroCluster cluster).device cluster := by
  have first : fs.bpb.clusterToLba cluster + 0 ∈ fs.bpb.clusterLbas cluster :=
    List.mem_map.mpr ⟨0, List.mem_range.mpr sectors, rfl⟩
  have cleared : (fs.zeroCluster cluster).device.readSector (fs.bpb.clusterToLba cluster + 0)
      = Sector.zero := by
    refine loop_zero_invariant (fun count (d : Device) =>
      0 < count → d.readSector (fs.bpb.clusterToLba cluster + 0) = Sector.zero) ?_
      (fun impossible => absurd impossible (Nat.lt_irrefl 0)) sectors
    intro count d _ before _
    by_cases here : fs.bpb.clusterToLba cluster + 0 = fs.bpb.clusterToLba cluster + count
    · rw [here, Device.readSector_writeSector_self]
    · rw [Device.readSector_writeSector_of_ne _ _ here]
      exact before (by omega)
  refine ⟨_, first, 0, by decide, ?_⟩
  rw [cleared]
  rfl

/-- In a cluster that stops the search for a slot one round is enough. -/
theorem slotCounted_stop (stops : Outside dir ∨ Roomy fs.bpb fs.device dir) (fuel : Nat) :
    ∃ result, FatFs.slotCounted (fuel + 1) fs dir = some result ∧
      result.2 ≤ fs.bpb.sectorsPerCluster + 1 := by
  rw [FatFs.slotCounted]
  by_cases outside : Outside dir
  · rw [if_pos outside]
    exact ⟨_, rfl, Nat.zero_le _⟩
  rw [if_neg outside]
  obtain ⟨slot, found⟩ := Option.isSome_iff_exists.mp
    (freeSlot_isSome.mpr (stops.resolve_left outside))
  rw [found]
  exact ⟨_, rfl, Nat.succ_le_succ (freeSlotReads_cluster_le _ _ _)⟩

/-- The last cluster of a full directory: there is no cluster left, or the next round
finds a slot. -/
theorem slotCounted_last (sectors : 0 < fs.bpb.sectorsPerCluster) (inside : ¬Outside dir)
    (full : freeSlot fs.device (fs.bpb.clusterLbas dir) = none)
    (last : 0xFFF8 ≤ fatNext fs.bpb fs.device dir ∨ fatNext fs.bpb fs.device dir = 0) :
    ∃ result, FatFs.slotCounted 2 fs dir = some result ∧ result.2 ≤ extendLimit fs.bpb := by
  have reads := freeSlotReads_cluster_le fs.bpb fs.device dir
  have search : searchReads fs.bpb fs.device ≤ fs.bpb.fatSize16 := Nat.min_le_left _ _
  rw [FatFs.slotCounted, if_neg inside, full]
  dsimp only
  rw [if_pos last]
  unfold extendLimit
  by_cases noneLeft : fs.fatAllocCluster.1 = 0
  · rw [if_pos noneLeft]
    exact ⟨_, rfl, by dsimp only; omega⟩
  · rw [if_neg noneLeft]
    have bpb : fs.fatAllocCluster.2.bpb = fs.bpb := by
      unfold FatFs.fatAllocCluster
      split <;> rfl
    generalize extended : fs.fatAllocCluster.2.setEntry (.linked dir fs.fatAllocCluster.1)
      fs.fatAllocCluster.1 = fs₂
    have bpb₂ : fs₂.bpb = fs.bpb := by
      rw [← extended]
      exact bpb
    have roomy := @roomy_zeroCluster fs₂ (by rwa [bpb₂]) fs.fatAllocCluster.1
    obtain ⟨result, ended, few⟩ := @slotCounted_stop (fs₂.zeroCluster fs.fatAllocCluster.1)
      fs.fatAllocCluster.1 (.inr roomy) 0
    rw [ended]
    refine ⟨_, rfl, ?_⟩
    have few : result.2 ≤ fs.bpb.sectorsPerCluster + 1 := by rwa [← bpb₂]
    dsimp only
    rw [bpb₂]
    omega

/-- The search for a slot ends where the directory does or at a free slot. -/
theorem creating_ends (sectors : 0 < fs.bpb.sectorsPerCluster)
    (stops : Outside ((fatNext fs.bpb fs.device)^[n] dir) ∨
      Roomy fs.bpb fs.device ((fatNext fs.bpb fs.device)^[n] dir)) :
    ∃ fuel ≤ n + 2, ∃ result, FatFs.slotCounted fuel fs dir = some result ∧
      result.2 ≤ n * (fs.bpb.sectorsPerCluster + 1) + extendLimit fs.bpb := by
  have small : fs.bpb.sectorsPerCluster + 1 ≤ extendLimit fs.bpb := by
    unfold extendLimit
    omega
  induction n generalizing dir with
  | zero =>
    obtain ⟨result, ended, few⟩ := slotCounted_stop stops 0
    exact ⟨1, by omega, result, ended, by omega⟩
  | succ n ih =>
    by_cases here : Outside dir ∨ Roomy fs.bpb fs.device dir
    · obtain ⟨result, ended, few⟩ := slotCounted_stop here 0
      exact ⟨1, by omega, result, ended,
        Nat.le_trans few (Nat.le_trans small (Nat.le_add_left _ _))⟩
    obtain ⟨inside, noRoom⟩ := not_or.mp here
    have full : freeSlot fs.device (fs.bpb.clusterLbas dir) = none :=
      Option.not_isSome_iff_eq_none.mp (mt freeSlot_isSome.mp noRoom)
    by_cases last : 0xFFF8 ≤ fatNext fs.bpb fs.device dir ∨ fatNext fs.bpb fs.device dir = 0
    · obtain ⟨result, ended, few⟩ := slotCounted_last sectors inside full last
      exact ⟨2, by omega, result, ended, Nat.le_trans few (Nat.le_add_left _ _)⟩
    · rw [Function.iterate_succ_apply] at stops
      obtain ⟨fuel, short, result, ended, few⟩ := ih stops
      have reads := freeSlotReads_cluster_le fs.bpb fs.device dir
      refine ⟨fuel + 1, by omega,
        (result.1, freeSlotReads fs.device (fs.bpb.clusterLbas dir) + 1 + result.2),
        ?_, ?_⟩
      · rw [FatFs.slotCounted, if_neg inside, full]
        dsimp only
        rw [if_neg last, ended]
        rfl
      · rw [Nat.succ_mul]
        dsimp only
        omega

theorem meets_of_slotCounted {result : (Option (Nat × Nat) × FatFs) × Nat}
    (ended : FatFs.slotCounted fuel fs dir = some result) :
    Meets fs.bpb fs.device (fun k => Outside k ∨ Roomy fs.bpb fs.device k) dir := by
  induction fuel generalizing dir result with
  | zero => cases ended
  | succ fuel ih =>
    by_cases here : Outside dir ∨ Roomy fs.bpb fs.device dir
    · exact ⟨0, here⟩
    obtain ⟨inside, noRoom⟩ := not_or.mp here
    have full : freeSlot fs.device (fs.bpb.clusterLbas dir) = none :=
      Option.not_isSome_iff_eq_none.mp (mt freeSlot_isSome.mp noRoom)
    rw [FatFs.slotCounted, if_neg inside, full] at ended
    dsimp only at ended
    by_cases last : 0xFFF8 ≤ fatNext fs.bpb fs.device dir ∨ fatNext fs.bpb fs.device dir = 0
    · refine ⟨1, .inl ?_⟩
      rw [Function.iterate_one]
      unfold Outside
      omega
    · rw [if_neg last] at ended
      obtain ⟨later, endedLater, -⟩ := Option.map_eq_some_iff.mp ended
      obtain ⟨n, stops⟩ := ih endedLater
      exact ⟨n + 1, by rwa [Function.iterate_succ_apply]⟩

end Creating

/-! ## Removals -/

section Removing

/-- The sectors read and written when the chain of an entry is freed and its slot deleted. -/
def removeLimit (b : Bpb) : Nat := chainFuel * (1 + entryAccesses b) + 2

theorem removeAccesses_ends {fs : FatFs} (copies : 0 < fs.bpb.fatCount) (e : DirEntryInfo)
    (enough : chainFuel ≤ fuel) :
    ∃ n, fs.removeAccesses fuel e = some n ∧ n ≤ removeLimit fs.bpb := by
  unfold FatFs.removeAccesses removeLimit
  by_cases two : 2 ≤ e.firstCluster
  · have card := occupied_card_lt_fuel fs.bpb fs.device
    obtain ⟨fs', visited, ends, history, few, -⟩ :=
      FatFs.freeTruncated_ends e.firstCluster copies (Nat.le_trans card enough)
    rw [if_pos two, FatFs.freeClusterChain_of_truncated ends]
    refine ⟨_, rfl, Nat.add_le_add_right (Nat.mul_le_mul_right _ ?_) 2⟩
    rw [history, List.length_append, List.length_map, Nat.add_sub_cancel]
    omega
  · rw [if_neg two]
    refine ⟨_, rfl, Nat.add_le_add_right (Nat.mul_le_mul_right _ ?_) 2⟩
    rw [Nat.sub_self]
    exact Nat.zero_le _

end Removing

/-! ## The result -/

namespace DirCall

/-- A number of sector accesses that the parameters of the volume determine. -/
def limit (b : Bpb) : DirCall → Nat
  | .lookup _ => walkLimit b
  | .list => walkLimit b
  | .listRaw _ => walkLimit b
  | .create => walkLimit b + extendLimit b
  | .remove _ => 2 * walkLimit b + removeLimit b

/-- What the operation has to meet on its way along the table. -/
def Stops (fs : FatFs) (dir : Nat) : DirCall → Prop
  | .lookup wanted => SearchEnds wanted fs.bpb fs.device dir
  | .list => Meets fs.bpb fs.device (Halts fs.bpb fs.device) dir
  | .listRaw len =>
    ∃ n < walkLength, Halts fs.bpb fs.device ((fatNext fs.bpb fs.device)^[n] dir) ∨
      len < chainWeight lineLength fs.bpb fs.device dir n
  | .create => Meets fs.bpb fs.device (fun k => Outside k ∨ Roomy fs.bpb fs.device k) dir
  | .remove name =>
    SearchEnds (·.name83 == name) fs.bpb fs.device dir ∧
      ∀ e, findEntry fs.bpb fs.device (.subdir dir) (·.name83 == name) = some (some e) →
        e.isDir = true → SearchEnds FatFs.isChild fs.bpb fs.device e.firstCluster

end DirCall

section Result

variable {fs : FatFs} {dir : Nat}

theorem findEntry_of_visit {found : Option DirEntryInfo} {reads : Nat}
    (ended : visitChain (finding wanted) fs.bpb fs.device chainFuel dir none =
    some (found, reads)) :
    findEntry fs.bpb fs.device (.subdir dir) wanted = some found := by
  rw [findEntry, scanChain_eq_visit, ended]
  rfl

theorem map_snd_lt_iff {α : Type} {walk : Nat → Option (α × Nat)} {limit : Nat} :
    (∃ fuel n, (walk fuel).map Prod.snd = some n ∧ n < limit) ↔
      ∃ fuel result, walk fuel = some result ∧ result.2 < limit := by
  constructor
  · rintro ⟨fuel, n, ended, few⟩
    obtain ⟨result, walked, rfl⟩ := Option.map_eq_some_iff.mp ended
    exact ⟨fuel, result, walked, few⟩
  · rintro ⟨fuel, result, walked, few⟩
    exact ⟨fuel, result.2, by rw [walked]; rfl, few⟩

/-- A removal meets what its searches have to meet. -/
theorem stops_of_remove {name : List UInt8}
    (ended : fs.accesses fuel dir (.remove name) = some n) :
    (DirCall.remove name).Stops fs dir := by
  rw [FatFs.accesses] at ended
  cases searched : visitChain (finding (·.name83 == name)) fs.bpb fs.device fuel dir none with
  | none =>
    rw [searched] at ended
    cases ended
  | some result =>
    have searchEnds := searchEnds_of_finding searched
    refine ⟨searchEnds, fun e found isDir => ?_⟩
    obtain ⟨⟨found', reads'⟩, full, -⟩ := finding_ends searchEnds
    obtain rfl : found' = some e :=
      Option.some_inj.mp ((findEntry_of_visit full).symm.trans found)
    have same := (visitChain_mono searched (Nat.le_max_left fuel chainFuel)).symm.trans
      (visitChain_mono full (Nat.le_max_right fuel chainFuel))
    cases same
    rw [searched] at ended
    dsimp only at ended
    rw [if_pos isDir] at ended
    cases child : visitChain (finding FatFs.isChild) fs.bpb fs.device fuel e.firstCluster none with
    | none =>
      rw [child] at ended
      cases ended
    | some _ => exact searchEnds_of_finding child

theorem remove_ends (copies : 0 < fs.bpb.fatCount) {name : List UInt8}
    (stops : (DirCall.remove name).Stops fs dir) :
    ∃ n, fs.accesses chainFuel dir (.remove name) = some n ∧
      n < 2 * walkLimit fs.bpb + removeLimit fs.bpb := by
  obtain ⟨searchEnds, childEnds⟩ := stops
  obtain ⟨⟨found, reads⟩, searched, few⟩ := finding_ends searchEnds
  rw [FatFs.accesses, searched]
  cases found with
  | none => exact ⟨reads, rfl, by dsimp only at few; omega⟩
  | some e =>
    obtain ⟨n, removed, little⟩ := removeAccesses_ends copies e (Nat.le_refl chainFuel)
    dsimp only at few ⊢
    cases isDir : e.isDir with
    | false =>
      rw [if_neg Bool.false_ne_true, removed]
      exact ⟨reads + n, rfl, by omega⟩
    | true =>
      obtain ⟨⟨child, more⟩, walked, fewMore⟩ :=
        finding_ends (childEnds e (findEntry_of_visit searched) isDir)
      rw [if_pos rfl, walked]
      dsimp only at fewMore ⊢
      cases child with
      | some _ => exact ⟨_, rfl, by omega⟩
      | none =>
        rw [removed]
        exact ⟨reads + more + n, rfl, by omega⟩

end Result

/-- **When the operations on a subdirectory end.** Looking up an entry, listing, creating
an entry and removing one end, after a number of sector accesses that the parameters of
the volume bound, exactly if the walk along the table meets what `Stops` says. -/
theorem dir_calls_end_iff (fs : FatFs) (dir : Nat) (call : DirCall)
    (sectors : 0 < fs.bpb.sectorsPerCluster) (copies : 0 < fs.bpb.fatCount) :
    (∃ fuel n, fs.accesses fuel dir call = some n ∧ n < call.limit fs.bpb) ↔
      call.Stops fs dir := by
  cases call with
  | lookup wanted =>
    refine map_snd_lt_iff.trans ⟨?_, fun ends => ⟨chainFuel, finding_ends ends⟩⟩
    rintro ⟨fuel, result, ended, -⟩
    exact searchEnds_of_finding ended
  | list => exact map_snd_lt_iff.trans listing_ends_iff
  | listRaw len =>
    refine map_snd_lt_iff.trans ?_
    have room : ([] : List UInt8).length ≤ len := Nat.zero_le len
    refine (visitChain_lt_iff (budgeted_listingRaw len) room walkLength).trans ?_
    simp only [List.length_nil, Nat.zero_add]
    rfl
  | create =>
    refine map_snd_lt_iff.trans ⟨?_, fun meets => ?_⟩
    · rintro ⟨fuel, result, ended, -⟩
      exact meets_of_slotCounted ended
    · have meets : Meets fs.bpb fs.device (fun k => Outside k ∨ Roomy fs.bpb fs.device k) dir :=
        meets
      obtain ⟨n, bound, stops⟩ := meets.early fun _ outside => .inl outside
      obtain ⟨fuel, -, result, ended, few⟩ := creating_ends sectors stops
      have upTo : (n + 1) * (fs.bpb.sectorsPerCluster + 1) ≤ walkLimit fs.bpb :=
        Nat.mul_le_mul_right _ bound
      rw [Nat.succ_mul] at upTo
      refine ⟨fuel, result, ended, ?_⟩
      show result.2 < walkLimit fs.bpb + extendLimit fs.bpb
      omega
  | remove name =>
    constructor
    · rintro ⟨fuel, n, ended, -⟩
      exact stops_of_remove ended
    · intro stops
      exact ⟨chainFuel, remove_ends copies stops⟩

/-- A directory of one file: the slot after it ends every walk. -/
theorem list_ends_file :
    ∃ fuel n, (FatFs.mounted (smallDisk.writeSector 4 fun i => if i < 11 then 0x41 else 0)
        smallBpb [2]).accesses fuel 2 .list = some n ∧ n < DirCall.list.limit smallBpb :=
  (dir_calls_end_iff (.mounted _ smallBpb [2]) 2 .list (by decide) (by decide)).mpr
    ⟨0, .inr (by decide +kernel)⟩

/-! ## A directory in a circle -/

/-- Cluster 2 is its own successor, and all its slots are files with one name. -/
def ringDisk : Device :=
  (fatWriteEntry smallBpb smallDisk 2 2).writeSector 4 fun _ => 0x41

def ringVolume : FatFs := .mounted ringDisk smallBpb [2]

theorem ring_walk (n : Nat) : (fatNext smallBpb ringDisk)^[n] 2 = 2 :=
  Function.iterate_fixed (by decide +kernel) n

/-- A search for another name does not end, and neither does the search for a slot. -/
theorem ring_never_ends :
    fatNext smallBpb ringVolume.device 2 = 2 ∧
      (∀ fuel, ringVolume.accesses fuel 2 (.lookup (·.name83 == List.replicate 11 0x42)) = none) ∧
      ∀ fuel, ringVolume.accesses fuel 2 .create = none := by
  refine ⟨ring_walk 1, fun fuel => ?_, fun fuel => ?_⟩
  · refine Option.eq_none_iff_forall_ne_some.mpr fun n ended => ?_
    obtain ⟨result, walked, -⟩ := Option.map_eq_some_iff.mp ended
    obtain ⟨k, stops⟩ := searchEnds_of_finding walked
    rw [show (fatNext ringVolume.bpb ringVolume.device)^[k] 2 = 2 from ring_walk k] at stops
    exact absurd stops (by decide +kernel)
  · refine Option.eq_none_iff_forall_ne_some.mpr fun n ended => ?_
    obtain ⟨result, walked, -⟩ := Option.map_eq_some_iff.mp ended
    obtain ⟨k, stops⟩ := meets_of_slotCounted walked
    rw [show (fatNext ringVolume.bpb ringVolume.device)^[k] 2 = 2 from ring_walk k] at stops
    exact absurd stops (by decide +kernel)

end OxideOS.Fat
