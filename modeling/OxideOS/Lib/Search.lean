import Mathlib.Data.List.Basic
import Mathlib.Tactic.Common

/-!
# Searches through numbers

`findSome?_range_eq_some` says where a search through the numbers below a bound stops.
-/

set_option autoImplicit false

namespace OxideOS.Lib

variable {α β : Type}

/-- A search through the numbers below `n` stops at the first that answers. -/
theorem findSome?_range_eq_some {f : Nat → Option β} {n : Nat} {r : β}
    (found : (List.range n).findSome? f = some r) :
    ∃ i < n, f i = some r ∧ ∀ j < i, f j = none := by
  induction n with
  | zero => cases found
  | succ n ih =>
    rw [List.range_succ, List.findSome?_append] at found
    cases earlier : (List.range n).findSome? f with
    | some r' =>
      rw [earlier] at found
      obtain ⟨i, bound, answer, first⟩ := ih (earlier.trans found)
      exact ⟨i, Nat.lt_succ_of_lt bound, answer, first⟩
    | none =>
      rw [earlier, Option.none_or, List.findSome?_singleton] at found
      refine ⟨n, Nat.lt_succ_self n, found, fun j bound => ?_⟩
      exact List.findSome?_eq_none_iff.mp earlier j (List.mem_range.mpr bound)

end OxideOS.Lib
