import Mathlib.Tactic.Common

/-!
# First-fit search in a table

Tables of a fixed number of slots are functions from slot numbers. `firstFrom`
is the search loop over them: it finds the first slot in a range that satisfies a
test. `firstFrom_eq_some` and `firstFrom_eq_none` say all there is to know about
its answer.
-/

set_option autoImplicit false

namespace OxideOS.Lib

/-- The first of `start`, …, `start + count - 1` that passes the test. -/
def firstFrom (test : Nat → Bool) : (start count : Nat) → Option Nat
  | _, 0 => none
  | start, count + 1 => if test start then some start else firstFrom test (start + 1) count

/-- The first slot below `size` that passes the test. -/
def firstBelow (size : Nat) (test : Nat → Bool) : Option Nat := firstFrom test 0 size

variable {test : Nat → Bool} {start count size i : Nat}

theorem firstFrom_eq_some (found : firstFrom test start count = some i) :
    start ≤ i ∧ i < start + count ∧ test i = true ∧ ∀ j, start ≤ j → j < i → test j = false := by
  induction count generalizing start with
  | zero => cases found
  | succ count ih =>
    rw [firstFrom] at found
    split at found
    · next passes =>
        cases found
        exact ⟨Nat.le_refl _, by omega, passes, fun j lower upper => absurd lower (by omega)⟩
    · next fails =>
        obtain ⟨lower, upper, passes, before⟩ := ih found
        refine ⟨by omega, by omega, passes, fun j after below => ?_⟩
        rcases Nat.eq_or_lt_of_le after with rfl | later
        · simpa using fails
        · exact before j later below

theorem firstFrom_eq_none :
    firstFrom test start count = none ↔ ∀ j, start ≤ j → j < start + count → test j = false := by
  induction count generalizing start with
  | zero =>
    simp only [firstFrom, true_iff]
    intro j lower upper
    omega
  | succ count ih =>
    rw [firstFrom]
    split
    · next passes =>
        simp only [reduceCtorEq, false_iff]
        intro fails
        rw [fails start (Nat.le_refl _) (by omega)] at passes
        cases passes
    · next fails =>
        rw [ih]
        refine ⟨fun rest j lower upper => ?_, fun all j lower upper => all j (by omega) (by omega)⟩
        rcases Nat.eq_or_lt_of_le lower with rfl | later
        · simpa using fails
        · exact rest j later (by omega)

theorem firstBelow_eq_some (found : firstBelow size test = some i) :
    i < size ∧ test i = true ∧ ∀ j < i, test j = false := by
  obtain ⟨-, upper, passes, before⟩ := firstFrom_eq_some found
  exact ⟨by omega, passes, fun j below => before j (Nat.zero_le j) below⟩

theorem firstBelow_eq_none : firstBelow size test = none ↔ ∀ j < size, test j = false := by
  rw [firstBelow, firstFrom_eq_none]
  simp

/-- Changing one element of a list is not seen by a function that ignores the
change. -/
theorem map_modify_of_eq {α β : Type} {g : α → β} {f : α → α} (same : ∀ x, g (f x) = g x)
    (l : List α) (i : Nat) : (l.modify i f).map g = l.map g := by
  refine List.ext_getElem? fun j => ?_
  rw [List.getElem?_map, List.getElem?_map, List.getElem?_modify]
  cases l[j]? with
  | none => rfl
  | some x =>
    by_cases here : i = j
    · simp [here, same]
    · simp [here]

end OxideOS.Lib
