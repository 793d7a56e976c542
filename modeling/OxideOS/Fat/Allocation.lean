import OxideOS.Lib.Search
import OxideOS.Fat.Mirror

/-!
# The search for a free cluster

`fat_alloc_cluster` looks through the table sector by sector and word by word. The cluster
it takes is the first one whose word is 0 and whose number does not become 0 or 1 when it
is cut to sixteen bits.
-/

set_option autoImplicit false

namespace OxideOS.Fat

open Lib Disk

/-! ## Free clusters -/

/-- A word of the table that is 0. -/
def Blank (b : Bpb) (d : Device) (n : Nat) : Prop := n < b.tableSize ∧ tableEntry b d n = 0

/-- The search takes the word for that of a free cluster: it leaves out the indices that
become 0 or 1. -/
def Offered (b : Bpb) (d : Device) (n : Nat) : Prop := Blank b d n ∧ 2 ≤ n % 65536

instance (b : Bpb) (d : Device) : DecidablePred (Blank b d) := fun _ =>
  inferInstanceAs (Decidable (_ ∧ _))

section Search

variable {b : Bpb} {d : Device} {s j r : Nat}

/-- The entry that a scan of the table looks at. -/
theorem tableEntry_scan (b : Bpb) (d : Device) (s : Nat) (inSector : j < 256) :
    tableEntry b d (s * 256 + j) = 0 ↔
      d.readSector (b.fatStartLba + s) (2 * j) = 0 ∧
        d.readSector (b.fatStartLba + s) (2 * j + 1) = 0 := by
  have lba : b.entryLba (s * 256 + j) = b.fatStartLba + s := by
    unfold Bpb.entryLba
    omega
  have byte : entryByte (s * 256 + j) = 2 * j := by
    unfold entryByte
    omega
  unfold tableEntry
  rw [lba, byte, leRead, leRead, leRead]
  constructor
  · intro zero
    exact ⟨UInt8.toNat_inj.mp (by simp only [UInt8.toNat_zero]; omega),
      UInt8.toNat_inj.mp (by simp only [UInt8.toNat_zero]; omega)⟩
  · rintro ⟨low, high⟩
    rw [low, high]
    rfl

/-- What the inner loop does with word `j` of sector `s`. -/
theorem scan_word (inTable : s < b.fatSize16) (inSector : j < 256) :
    (let cluster := (s * 256 + j) % 65536
      if cluster < 2 then none
      else if d.readSector (b.fatStartLba + s) (2 * j) = 0 ∧
          d.readSector (b.fatStartLba + s) (2 * j + 1) = 0 then some cluster
      else none) = some r ↔
      Offered b d (s * 256 + j) ∧ r = (s * 256 + j) % 65536 := by
  have bound : s * 256 + j < b.tableSize := by
    unfold Bpb.tableSize
    omega
  have word := tableEntry_scan b d s inSector
  dsimp only
  unfold Offered Blank
  by_cases two : (s * 256 + j) % 65536 < 2
  · rw [if_pos two]
    constructor
    · intro impossible
      cases impossible
    · rintro ⟨⟨-, atLeast⟩, -⟩
      omega
  · rw [if_neg two]
    by_cases zero : tableEntry b d (s * 256 + j) = 0
    · rw [if_pos (word.mp zero), Option.some_inj]
      exact ⟨fun same => ⟨⟨⟨bound, zero⟩, by omega⟩, same.symm⟩, fun offered => offered.2.symm⟩
    · rw [if_neg (mt word.mpr zero)]
      constructor
      · intro impossible
        cases impossible
      · rintro ⟨⟨⟨-, isZero⟩, -⟩, -⟩
        exact absurd isZero zero

/-- A sector without an answer has no word to offer. -/
theorem not_offered_of_scan (inTable : s < b.fatSize16) (inSector : j < 256)
    (missed : scanTableSector (d.readSector (b.fatStartLba + s)) s = none) :
    ¬Offered b d (s * 256 + j) := by
  intro offered
  have here := List.findSome?_eq_none_iff.mp missed j (List.mem_range.mpr inSector)
  have answer := (scan_word inTable inSector).mpr ⟨offered, rfl⟩
  cases here.symm.trans answer

/-- The search finds the first word on offer. -/
theorem findFreeCluster_some (found : findFreeCluster b d = some r) :
    ∃ n, Offered b d n ∧ r = n % 65536 ∧ ∀ m < n, ¬Offered b d m := by
  obtain ⟨s, inTable, scanned, sectors⟩ := findSome?_range_eq_some found
  obtain ⟨j, inSector, word, words⟩ := findSome?_range_eq_some scanned
  obtain ⟨offered, number⟩ := (scan_word inTable inSector).mp word
  refine ⟨s * 256 + j, offered, number, fun m before => ?_⟩
  have split : m = m / 256 * 256 + m % 256 := by omega
  have small : m % 256 < 256 := Nat.mod_lt _ (by decide)
  rw [split]
  by_cases sector : m / 256 < s
  · exact not_offered_of_scan (Nat.lt_trans sector inTable) small (sectors _ sector)
  · have same : m / 256 = s := by omega
    rw [same]
    intro earlier
    have answer := (scan_word inTable small).mpr ⟨earlier, rfl⟩
    cases (words (m % 256) (by omega)).symm.trans answer

theorem findFreeCluster_none (missed : findFreeCluster b d = none) (n : Nat) :
    ¬Offered b d n := by
  intro offered
  have bound : n / 256 < b.fatSize16 := by
    have := offered.1.1
    unfold Bpb.tableSize at this
    omega
  have split : n = n / 256 * 256 + n % 256 := by omega
  rw [split] at offered
  exact not_offered_of_scan bound (Nat.mod_lt _ (by decide))
    (List.findSome?_eq_none_iff.mp missed _ (List.mem_range.mpr bound)) offered

end Search

end OxideOS.Fat
