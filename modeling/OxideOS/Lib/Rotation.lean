import OxideOS.Lib.Table

/-!
# Taking turns

A ring of `n` slots is searched from the slot after the current one, and the first slot
that is willing becomes the current one (`nextFrom`). A slot that is willing at every
search gets nearer with each turn that goes to another slot (`nextFrom_nearer`), so that
the others have at most `n - 1` turns before it has one (`turns_nearer`).
-/

set_option autoImplicit false

namespace OxideOS.Lib

/-- The first willing slot after `c`, around a ring of `n` slots. -/
def nextFrom (n : Nat) (willing : Nat → Bool) (c : Nat) : Option Nat :=
  (firstBelow n fun i => willing (((c + 1) % n + i) % n)).map fun i => ((c + 1) % n + i) % n

/-- The slots that are searched after `c` before `i`. -/
def ahead (n c i : Nat) : Nat :=
  if (c + 1) % n ≤ i then i - (c + 1) % n else i + n - (c + 1) % n

/-- The turns when the slots are asked again and again, from `c` on. -/
def turns (n : Nat) : Nat → List (Nat → Bool) → List (Option Nat)
  | _, [] => []
  | c, willing :: rest => nextFrom n willing c :: turns n ((nextFrom n willing c).getD c) rest

/-- The current slot after the turns. -/
def lastTurn (n : Nat) : Nat → List (Nat → Bool) → Nat
  | c, [] => c
  | c, willing :: rest => lastTurn n ((nextFrom n willing c).getD c) rest

variable {n c i j : Nat} {willing : Nat → Bool}

theorem mod_of_lt_double {x : Nat} (small : x < n + n) :
    x % n = x ∧ x < n ∨ x % n = x - n ∧ n ≤ x := by
  rcases Nat.lt_or_ge x n with less | more
  · exact .inl ⟨Nat.mod_eq_of_lt less, less⟩
  · refine .inr ⟨?_, more⟩
    rw [Nat.mod_eq_sub_mod more, Nat.mod_eq_of_lt (by omega)]

theorem ahead_lt (bound : i < n) : ahead n c i < n := by
  have start : (c + 1) % n < n := Nat.mod_lt _ (by omega)
  unfold ahead
  split <;> omega

/-- The slot `i` is found after `ahead n c i` others. -/
theorem add_ahead_mod (bound : i < n) : ((c + 1) % n + ahead n c i) % n = i := by
  have start : (c + 1) % n < n := Nat.mod_lt _ (by omega)
  unfold ahead
  split
  · rw [Nat.add_sub_cancel' ‹_›, Nat.mod_eq_of_lt bound]
  · rw [Nat.add_sub_cancel' (by omega), Nat.add_mod_right, Nat.mod_eq_of_lt bound]

theorem nextFrom_isSome (bound : i < n) (holds : willing i = true) :
    (nextFrom n willing c).isSome := by
  unfold nextFrom
  rw [Option.isSome_map]
  by_contra missing
  have refused := firstBelow_eq_none.mp (Option.not_isSome_iff_eq_none.mp missing) (ahead n c i)
    (ahead_lt bound)
  rw [add_ahead_mod bound, holds] at refused
  cases refused

/-- A turn of another slot brings a willing slot nearer. -/
theorem nextFrom_nearer (found : nextFrom n willing c = some j) (bound : i < n)
    (holds : willing i = true) (other : j ≠ i) : ahead n j i < ahead n c i := by
  obtain ⟨m, first, rfl⟩ := Option.map_eq_some_iff.mp found
  obtain ⟨small, -, before⟩ := firstBelow_eq_some first
  have start : (c + 1) % n < n := Nat.mod_lt _ (by omega)
  have near : m < ahead n c i := by
    rcases Nat.lt_trichotomy m (ahead n c i) with less | same | more
    · exact less
    · rw [same, add_ahead_mod bound] at other
      exact absurd rfl other
    · have refused := before _ more
      rw [add_ahead_mod bound, holds] at refused
      cases refused
  have place := @mod_of_lt_double n ((c + 1) % n + m) (by omega)
  have inside : ((c + 1) % n + m) % n < n := Nat.mod_lt _ (by omega)
  have next := @mod_of_lt_double n (((c + 1) % n + m) % n + 1) (by omega)
  unfold ahead at near ⊢
  generalize ((c + 1) % n + m) % n = j at place inside next ⊢
  generalize (j + 1) % n = t at next ⊢
  split at near <;> split <;> omega

/-- As long as a slot that is always willing has no turn, it gets nearer each time. -/
theorem turns_nearer (bound : i < n) (asked : List (Nat → Bool))
    (always : ∀ willing ∈ asked, willing i = true) (passed : some i ∉ turns n c asked) :
    ahead n (lastTurn n c asked) i + asked.length ≤ ahead n c i := by
  induction asked generalizing c with
  | nil => exact Nat.le_refl _
  | cons willing rest ih =>
    have here := always willing List.mem_cons_self
    obtain ⟨j, found⟩ := Option.isSome_iff_exists.mp (nextFrom_isSome (c := c) bound here)
    simp only [turns, found, Option.getD_some, List.mem_cons, not_or] at passed
    have nearer := nextFrom_nearer found bound here fun same => passed.1 (same ▸ rfl)
    have rest' := ih (fun w later => always w (List.mem_cons_of_mem _ later)) passed.2
    simp only [lastTurn, found, Option.getD_some, List.length_cons]
    omega

theorem turns_concat (asked : List (Nat → Bool)) (c : Nat) :
    turns n c (asked ++ [willing]) =
        turns n c asked ++ [nextFrom n willing (lastTurn n c asked)] ∧
      lastTurn n c (asked ++ [willing]) =
        (nextFrom n willing (lastTurn n c asked)).getD (lastTurn n c asked) := by
  induction asked generalizing c with
  | nil => exact ⟨rfl, rfl⟩
  | cons w rest ih =>
    obtain ⟨turns', last⟩ := ih ((nextFrom n w c).getD c)
    exact ⟨congrArg (nextFrom n w c :: ·) turns', last⟩

/-- **No slot has two turns** while another is always willing and has none. -/
theorem turn_between (bound : i < n) (asked : List (Nat → Bool))
    (always : ∀ w ∈ asked ++ [willing], w i = true)
    (again : nextFrom n willing (lastTurn n j asked) = some j) (other : i ≠ j) :
    some i ∈ turns n j asked := by
  by_contra passed
  obtain ⟨whole, last⟩ := @turns_concat n willing asked j
  have nearer := @turns_nearer n j i bound (asked ++ [willing]) always (by
    rw [whole, again, List.mem_append, List.mem_singleton, Option.some.injEq]
    exact fun here => here.elim passed other)
  rw [last, again, Option.getD_some, List.length_append] at nearer
  have positive : 0 < [willing].length := Nat.one_pos
  omega

end OxideOS.Lib
