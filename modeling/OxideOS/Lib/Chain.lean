import Mathlib.Data.Finset.Card
import Mathlib.Logic.Function.Iterate
import Mathlib.Data.Nat.Find
import Mathlib.Tactic.Common

/-!
# Walks in a table of successors

A table gives every node a successor, and a walk follows it until it meets a node at which
it stops. Nothing is known of the table: the walk may go round in a circle. If it ever
stops, it does so before it has seen a node twice.
-/

set_option autoImplicit false

namespace OxideOS.Lib

open Classical in
/-- A walk whose nodes are below `size` stops after at most `size` steps if it stops. -/
theorem exists_iterate_le {next : Nat → Nat} {stop : Nat → Prop} {c size : Nat}
    (inside : ∀ k, ¬stop k → k < size) (stops : ∃ n, stop (next^[n] c)) :
    ∃ n ≤ size, stop (next^[n] c) := by
  classical
  have earlier : ∀ m < Nat.find stops, ¬stop (next^[m] c) := fun m => Nat.find_min stops
  have distinct : ∀ i j, i < j → j < Nat.find stops → next^[i] c ≠ next^[j] c := by
    intro i j before bound same
    have back : Nat.find stops - j + i < Nat.find stops := by omega
    refine earlier _ back ?_
    rw [Function.iterate_add_apply, same, ← Function.iterate_add_apply,
      Nat.sub_add_cancel (Nat.le_of_lt bound)]
    exact Nat.find_spec stops
  have injective : Set.InjOn (fun n => next^[n] c) (Finset.range (Nat.find stops)) := by
    intro i first j second same
    rw [Finset.coe_range, Set.mem_Iio] at first second
    obtain less | equal | more := Nat.lt_trichotomy i j
    · exact absurd same (distinct i j less second)
    · exact equal
    · exact absurd same.symm (distinct j i more first)
  have into : ∀ n ∈ Finset.range (Nat.find stops), next^[n] c ∈ Finset.range size := fun n mem =>
    Finset.mem_range.mpr (inside _ (earlier n (Finset.mem_range.mp mem)))
  have bound := Finset.card_le_card_of_injOn _ into injective
  rw [Finset.card_range, Finset.card_range] at bound
  exact ⟨_, bound, Nat.find_spec stops⟩

end OxideOS.Lib
