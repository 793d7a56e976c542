import Mathlib.Algebra.BigOperators.Group.Finset.Piecewise
import Mathlib.Data.Finset.Card
import Mathlib.Data.Finset.Prod
import Mathlib.Tactic.Common

/-!
# Counting references

A finite set of slots, each pointing to a target or to nothing. `references`
counts the slots that point to a given target. The lemmas say how the count
changes when one slot is redirected (`references_update`) or when slots that
point nowhere are added or dropped (`references_subset`), and what a count of
zero or of one means (`references_eq_zero_iff`, `eq_of_references_le_one`).
-/

set_option autoImplicit false

namespace OxideOS.Lib

open Function

universe u v

variable {ι : Type u} {κ : Type v} [DecidableEq κ]
variable {slots slots' : Finset ι} {target target' : ι → Option κ} {k : κ}

/-- The number of slots that point to `k`. -/
def references (slots : Finset ι) (target : ι → Option κ) (k : κ) : Nat :=
  (slots.filter fun i => target i = some k).card

theorem references_congr (same : ∀ i ∈ slots, target i = target' i) :
    references slots target k = references slots target' k := by
  unfold references
  congr 1
  exact Finset.filter_congr fun i member => by rw [same i member]

/-- Redirecting one slot moves one reference from its old target to its new one. -/
theorem references_update [DecidableEq ι] {i : ι} (member : i ∈ slots) (new : Option κ) :
    references slots (update target i new) k + (if target i = some k then 1 else 0) =
      references slots target k + (if new = some k then 1 else 0) := by
  have others : ∀ j ∈ slots.erase i,
      (if update target i new j = some k then 1 else 0) =
        if target j = some k then 1 else 0 := by
    intro j other
    rw [update_of_ne (Finset.ne_of_mem_erase other)]
  simp only [references, Finset.card_filter]
  rw [← Finset.add_sum_erase slots _ member, ← Finset.add_sum_erase slots _ member,
    Finset.sum_congr rfl others, update_self]
  omega

/-- Slots that point nowhere do not count. -/
theorem references_subset (sub : slots ⊆ slots')
    (empty : ∀ i ∈ slots', i ∉ slots → target i = none) :
    references slots' target k = references slots target k := by
  unfold references
  congr 1
  ext i
  simp only [Finset.mem_filter]
  constructor
  · rintro ⟨member, points⟩
    refine ⟨?_, points⟩
    by_contra absent
    rw [empty i member absent] at points
    cases points
  · rintro ⟨member, points⟩
    exact ⟨sub member, points⟩

theorem references_eq_zero_iff :
    references slots target k = 0 ↔ ∀ i ∈ slots, target i ≠ some k := by
  rw [references, Finset.card_eq_zero, Finset.filter_eq_empty_iff]

theorem references_pos {i : ι} (member : i ∈ slots) (points : target i = some k) :
    0 < references slots target k :=
  Finset.card_pos.mpr ⟨i, Finset.mem_filter.mpr ⟨member, points⟩⟩

/-- A target with at most one reference is reached from one slot only. -/
theorem eq_of_references_le_one {i j : ι} (single : references slots target k ≤ 1)
    (memberI : i ∈ slots) (pointsI : target i = some k)
    (memberJ : j ∈ slots) (pointsJ : target j = some k) : i = j :=
  Finset.card_le_one.mp single i (Finset.mem_filter.mpr ⟨memberI, pointsI⟩)
    j (Finset.mem_filter.mpr ⟨memberJ, pointsJ⟩)

/-- A target that exactly one slot points to has one reference. -/
theorem references_eq_one {i : ι} (member : i ∈ slots) (points : target i = some k)
    (only : ∀ j ∈ slots, target j = some k → j = i) : references slots target k = 1 := by
  refine Finset.card_eq_one.mpr ⟨i, Finset.ext fun j => ?_⟩
  simp only [Finset.mem_filter, Finset.mem_singleton]
  constructor
  · rintro ⟨memberJ, pointsJ⟩
    exact only j memberJ pointsJ
  · rintro rfl
    exact ⟨member, points⟩

/-- When the slots of one target differ in their first component, there are at
most as many of them as first components. -/
theorem references_le_card_left {ρ : Type u} {ν : Type u} [DecidableEq ρ] [DecidableEq ν]
    {rows : Finset ρ} {columns : Finset ν} {target : ρ × ν → Option κ}
    (column : ∀ i j, target i = some k → target j = some k → i.2 = j.2) :
    references (rows ×ˢ columns) target k ≤ rows.card := by
  refine Finset.card_le_card_of_injOn Prod.fst ?_ ?_
  · intro i member
    exact (Finset.mem_product.mp (Finset.mem_filter.mp member).1).1
  · intro i memberI j memberJ same
    have pointsI := (Finset.mem_filter.mp (Finset.mem_coe.mp memberI)).2
    have pointsJ := (Finset.mem_filter.mp (Finset.mem_coe.mp memberJ)).2
    exact Prod.ext same (column i j pointsI pointsJ)

end OxideOS.Lib
