import Mathlib.Data.Finset.Card
import OxideOS.Fat.Mirror

/-!
# Freeing a chain ends

The table comes from the disk, so what looks like a chain may run in a circle, into
another chain or out of the table. The two loops that free a chain read the
successor of a cluster before they put 0 into its entry, and neither keeps a count.

They end on every table. An entry that has become 0 stays 0, wherever the sectors of
the copies lie; so each visit of a cluster with a successor makes the number of
entries in use smaller, and a visit of a cluster without one is the last. Nothing is
said about chains: the measure is on the table as a whole.
-/

set_option autoImplicit false

namespace OxideOS.Fat

open Lib Disk

/-! ## Putting 0 into an entry -/

section WriteZero

variable {b : Bpb} {d : Device} {cluster other : Nat}

/-- One round of `fatWriteEntry` with the value 0, whatever sector it writes: the entries
lie side by side, so another one is either the one written or not touched. -/
theorem tableEntry_writeZero (b : Bpb) (d : Device) (lba cluster other : Nat) :
    tableEntry b (d.writeSector lba (leWrite (d.readSector lba) (entryByte cluster) 2 0))
        other = 0 ∨
      tableEntry b (d.writeSector lba (leWrite (d.readSector lba) (entryByte cluster) 2 0)) other
        = tableEntry b d other := by
  unfold tableEntry
  by_cases here : b.entryLba other = lba
  · rw [here, Device.readSector_writeSector_self]
    by_cases same : entryByte other = entryByte cluster
    · left
      rw [same]
      exact leRead_leWrite (by decide)
    · right
      refine leRead_leWrite_of_disjoint ?_
      unfold entryByte at same ⊢
      omega
  · right
    rw [Device.readSector_writeSector_of_ne _ _ here]

/-- An entry that is 0 stays 0 when another one is freed. -/
theorem tableEntry_zero_kept (zero : tableEntry b d other = 0) :
    tableEntry b (fatWriteEntry b d cluster 0) other = 0 := by
  refine loop_zero_invariant (fun _ d' => tableEntry b d' other = 0) ?_ zero
  intro copy d' _ before
  obtain now | same :=
    tableEntry_writeZero b d' (b.entryLba cluster + copy * b.fatSize16) cluster other
  · exact now
  · exact same.trans before

/-- The first copy is the one the entries are read from. -/
theorem tableEntry_freed (copies : 0 < b.fatCount) :
    tableEntry b (fatWriteEntry b d cluster 0) cluster = 0 := by
  refine loop_zero_invariant (fun count d' => 0 < count → tableEntry b d' cluster = 0) ?_
    (fun impossible => absurd impossible (Nat.lt_irrefl 0)) copies
  intro copy d' _ before _
  cases copy with
  | zero =>
    unfold tableEntry
    rw [Nat.zero_mul, Nat.add_zero, Device.readSector_writeSector_self]
    exact leRead_leWrite (by decide)
  | succ copy =>
    obtain now | same := tableEntry_writeZero b d' (b.entryLba cluster + (copy + 1) * b.fatSize16)
      cluster cluster
    · exact now
    · exact same.trans (before (Nat.succ_pos copy))

end WriteZero

/-! ## The measure -/

/-- The cluster numbers a walk can visit whose entry is not 0. -/
def occupied (b : Bpb) (d : Device) : Finset Nat :=
  (Finset.range 0xFFF8).filter fun cluster => tableEntry b d cluster ≠ 0

theorem mem_occupied {b : Bpb} {d : Device} {cluster : Nat} :
    cluster ∈ occupied b d ↔ cluster < 0xFFF8 ∧ tableEntry b d cluster ≠ 0 := by
  rw [occupied, Finset.mem_filter, Finset.mem_range]

theorem occupied_card_lt_fuel (b : Bpb) (d : Device) :
    (occupied b d).card + 2 ≤ chainFuel := by
  have bound : (occupied b d).card ≤ 0xFFF8 := by
    calc (occupied b d).card ≤ (Finset.range 0xFFF8).card := Finset.card_filter_le _ _
      _ = 0xFFF8 := Finset.card_range _
  unfold chainFuel
  omega

/-- Freeing a cluster that is in use. -/
theorem occupied_freed {b : Bpb} {d : Device} {cluster : Nat} (copies : 0 < b.fatCount)
    (used : cluster ∈ occupied b d) :
    (occupied b (fatWriteEntry b d cluster 0)).card < (occupied b d).card := by
  refine Finset.card_lt_card ((Finset.ssubset_iff_of_subset ?_).mpr ⟨cluster, used, ?_⟩)
  · intro other still
    obtain ⟨bound, nonzero⟩ := mem_occupied.mp still
    exact mem_occupied.mpr ⟨bound, fun zero => nonzero (tableEntry_zero_kept zero)⟩
  · intro still
    exact (mem_occupied.mp still).2 (tableEntry_freed copies)

namespace FatFs

/-! ## The two loops -/

/-- The loop of `O_TRUNC`: unlike `freeClusterChain` it does not look at the successor
before it takes it. -/
def freeTruncated : (fuel : Nat) → FatFs → (cl : Nat) → Option FatFs
  | 0, _, _ => none
  | fuel + 1, fs, cl =>
    if 2 ≤ cl ∧ cl < 0xFFF8 then
      let next := fatNext fs.bpb fs.device cl
      freeTruncated fuel (fs.setEntry (.freed cl) 0) next
    else some fs

variable {fs fs' : FatFs} {fuel cl : Nat}

/-- A successor `freeClusterChain` stops at is one the other loop does not visit. -/
theorem freeClusterChain_of_truncated (ends : freeTruncated fuel fs cl = some fs') :
    freeClusterChain fuel fs cl = some fs' := by
  induction fuel generalizing fs cl with
  | zero => cases ends
  | succ fuel ih =>
    rw [freeTruncated] at ends
    rw [freeClusterChain]
    by_cases visits : 2 ≤ cl ∧ cl < 0xFFF8
    · rw [if_pos visits] at ends ⊢
      dsimp only at ends ⊢
      by_cases last : fatNext fs.bpb fs.device cl = 0 ∨ fatNext fs.bpb fs.device cl = 0xFFFF
      · rw [if_pos last]
        cases fuel with
        | zero => cases ends
        | succ fuel =>
          rw [freeTruncated, if_neg (by omega)] at ends
          exact ends
      · rw [if_neg last]
        exact ih ends
    · rw [if_neg visits] at ends ⊢
      exact ends

/-- How often a cluster is visited: once more if its entry is not 0 at the start. -/
def visitBound (b : Bpb) (d : Device) (cluster : Nat) : Nat :=
  if tableEntry b d cluster = 0 then 1 else 2

theorem visitBound_freed (copies : 0 < fs.bpb.fatCount) (used : tableEntry fs.bpb fs.device cl ≠ 0)
    (cluster : Nat) :
    visitBound fs.bpb (fatWriteEntry fs.bpb fs.device cl 0) cluster + [cl].count cluster
      ≤ visitBound fs.bpb fs.device cluster := by
  unfold visitBound
  by_cases same : cl = cluster
  · subst same
    rw [if_pos (tableEntry_freed copies), if_neg used, List.count_singleton_self]
  · rw [List.count_singleton, beq_eq_false_iff_ne.mpr same]
    by_cases zero : tableEntry fs.bpb fs.device cluster = 0
    · rw [if_pos zero, if_pos (tableEntry_zero_kept zero)]
      exact Nat.le_refl 1
    · rw [if_neg zero]
      split <;> decide

/-- The loop ends while the fuel exceeds the entries in use by two: one visit may find an
entry that is 0, and one test finds the end. -/
theorem freeTruncated_ends (cl : Nat) (copies : 0 < fs.bpb.fatCount)
    (enough : (occupied fs.bpb fs.device).card + 2 ≤ fuel) :
    ∃ (fs' : FatFs) (visited : List Nat), freeTruncated fuel fs cl = some fs' ∧
      fs'.changes = visited.map Change.freed ++ fs.changes ∧
      visited.length ≤ (occupied fs.bpb fs.device).card + 1 ∧
      ∀ cluster, visited.count cluster ≤ visitBound fs.bpb fs.device cluster := by
  induction fuel generalizing fs cl with
  | zero => omega
  | succ fuel ih =>
    rw [freeTruncated]
    by_cases visits : 2 ≤ cl ∧ cl < 0xFFF8
    · rw [if_pos visits]
      dsimp only
      by_cases used : tableEntry fs.bpb fs.device cl = 0
      · obtain ⟨fuel, rfl⟩ : ∃ less, fuel = less + 1 := ⟨fuel - 1, by omega⟩
        have next : fatNext fs.bpb fs.device cl = 0 := by
          rw [fatNext, used]
          rfl
        rw [next, freeTruncated, if_neg (by omega)]
        refine ⟨_, [cl], rfl, rfl, Nat.le_add_left _ _, fun cluster => ?_⟩
        calc [cl].count cluster ≤ [cl].length := List.count_le_length
          _ = 1 := rfl
          _ ≤ visitBound fs.bpb fs.device cluster := by
            unfold visitBound
            split <;> decide
      · have fewer := occupied_freed copies (mem_occupied.mpr ⟨visits.2, used⟩)
        have rest : (occupied fs.bpb (fatWriteEntry fs.bpb fs.device cl 0)).card + 2 ≤ fuel := by
          omega
        obtain ⟨fs', visited, ends, history, few, bound⟩ :=
          @ih (fs.setEntry (.freed cl) 0) (fatNext fs.bpb fs.device cl) copies rest
        refine ⟨fs', visited ++ [cl], ends, ?_, ?_, fun cluster => ?_⟩
        · rw [history, List.map_append, List.append_assoc]
          rfl
        · rw [List.length_append]
          exact Nat.succ_le_succ (Nat.le_trans few fewer)
        · rw [List.count_append]
          exact Nat.le_trans (Nat.add_le_add_right (bound cluster) _)
            (visitBound_freed copies used cluster)
    · rw [if_neg visits]
      exact ⟨fs, [], rfl, rfl, Nat.zero_le _, fun _ => Nat.zero_le _⟩

/-- **Freeing ends.** On every table and from every cluster number both loops end, with
the same result. They visit the clusters the history lists, and none more than twice. -/
theorem freeing_ends (fs : FatFs) (cl : Nat) (copies : 0 < fs.bpb.fatCount) :
    ∃ (fs' : FatFs) (visited : List Nat),
      freeClusterChain chainFuel fs cl = some fs' ∧
      freeTruncated chainFuel fs cl = some fs' ∧
      fs'.changes = visited.map Change.freed ++ fs.changes ∧
      ∀ cluster, visited.count cluster ≤ 2 := by
  obtain ⟨fs', visited, ends, history, -, bound⟩ :=
    freeTruncated_ends cl copies (occupied_card_lt_fuel fs.bpb fs.device)
  refine ⟨fs', visited, freeClusterChain_of_truncated ends, ends, history, fun cluster => ?_⟩
  refine Nat.le_trans (bound cluster) ?_
  unfold visitBound
  split <;> decide

/-- `truncate` is stated with the first loop; the loop the code has there does the same. -/
theorem truncate_eq_truncated (fs : FatFs) (lba off cl : Nat) (copies : 0 < fs.bpb.fatCount) :
    fs.truncate lba off cl = (freeTruncated chainFuel fs cl).map fun freed =>
      (freed.fatAllocCluster.1,
        { freed.fatAllocCluster.2 with
          device := patchSector freed.fatAllocCluster.2.device lba fun buf =>
            putExtent buf off freed.fatAllocCluster.1 0 }) := by
  obtain ⟨freed, -, ends, -⟩ :=
    freeTruncated_ends cl copies (occupied_card_lt_fuel fs.bpb fs.device)
  rw [ends, truncate, freeClusterChain_of_truncated ends]
  rfl

/-- A table on which clusters 2 and 3 follow each other. -/
def circle : FatFs :=
  .mounted (fatWriteEntry smallBpb (fatWriteEntry smallBpb smallDisk 2 3) 3 2) smallBpb []

theorem freeing_ends_circle :
    fatNext smallBpb circle.device 2 = 3 ∧ fatNext smallBpb circle.device 3 = 2 ∧
      ∃ (fs' : FatFs) (visited : List Nat),
        freeClusterChain chainFuel circle 2 = some fs' ∧
        freeTruncated chainFuel circle 2 = some fs' ∧
        fs'.changes = visited.map Change.freed ++ [] ∧
        ∀ cluster, visited.count cluster ≤ 2 :=
  ⟨by decide +kernel, by decide +kernel, freeing_ends circle 2 (by decide)⟩

end FatFs
end OxideOS.Fat
