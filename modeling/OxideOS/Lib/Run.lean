import Mathlib.Tactic.Common

/-!
# Runs of a machine

A machine is a step function that may refuse an event. `run` performs a list of
events, `Along` says that every event meets a condition in the state it happens
in. `run_invariant` is the induction over a run, once and for all: what holds at
the start and is preserved by every step that meets the condition holds at the
end.
-/

set_option autoImplicit false

namespace OxideOS.Lib

universe u v

variable {σ : Type u} {α : Type v}

/-- The state after the events, if none of them is refused. -/
def run (step : σ → α → Option σ) : σ → List α → Option σ
  | s, [] => some s
  | s, a :: rest =>
    match step s a with
    | none => none
    | some s' => run step s' rest

/-- Every event of the run meets `ok` in the state it happens in. -/
def Along (step : σ → α → Option σ) (ok : σ → α → Prop) : σ → List α → Prop
  | _, [] => True
  | s, a :: rest => ok s a ∧ ∀ s', step s a = some s' → Along step ok s' rest

/-- Whether every event meets a decidable condition is decided along the run. -/
instance Along.decidable (step : σ → α → Option σ) (ok : σ → α → Prop)
    [∀ s a, Decidable (ok s a)] : (s : σ) → (events : List α) → Decidable (Along step ok s events)
  | _, [] => .isTrue trivial
  | s, a :: rest =>
    match stepped : step s a with
    | none => decidable_of_iff (ok s a) (by simp [Along, stepped])
    | some s' =>
      have := Along.decidable step ok s' rest
      decidable_of_iff (ok s a ∧ Along step ok s' rest) (by simp [Along, stepped])

variable {step : σ → α → Option σ} {ok : σ → α → Prop} {I : σ → Prop}

@[simp] theorem run_nil (s : σ) : run step s [] = some s := rfl

variable {rest events more : List α}

theorem run_cons {s : σ} {a : α} {t : σ} :
    run step s (a :: rest) = some t ↔ ∃ s', step s a = some s' ∧ run step s' rest = some t := by
  show (match step s a with
    | none => none
    | some s' => run step s' rest) = some t ↔ _
  cases step s a with
  | none =>
    constructor
    · intro ran
      cases ran
    · rintro ⟨_, stepped, -⟩
      cases stepped
  | some s' =>
    constructor
    · exact fun ran => ⟨s', rfl, ran⟩
    · rintro ⟨_, same, ran⟩
      cases same
      exact ran

/-- Runs compose. -/
theorem run_append :
    ∀ {s t u : σ}, run step s events = some t → run step t more = some u →
      run step s (events ++ more) = some u := by
  induction events with
  | nil =>
    intro s t u ran next
    cases ran
    exact next
  | cons a rest ih =>
    intro s t u ran next
    obtain ⟨s', stepped, ran'⟩ := run_cons.mp ran
    exact run_cons.mpr ⟨s', stepped, ih ran' next⟩

/-- A run stops in the middle at some state. -/
theorem run_split :
    ∀ {s u : σ}, run step s (events ++ more) = some u →
      ∃ t, run step s events = some t ∧ run step t more = some u := by
  induction events with
  | nil => exact fun ran => ⟨_, rfl, ran⟩
  | cons a rest ih =>
    intro s u ran
    obtain ⟨s', stepped, ran'⟩ := run_cons.mp ran
    obtain ⟨t, first, second⟩ := ih ran'
    exact ⟨t, run_cons.mpr ⟨s', stepped, first⟩, second⟩

/-- Events that meet the condition in any state meet it along any run. -/
theorem along_of_forall (always : ∀ a ∈ events, ∀ s, ok s a) :
    ∀ {s : σ}, Along step ok s events := by
  induction events with
  | nil => exact trivial
  | cons a rest ih =>
    intro s
    refine ⟨always a List.mem_cons_self s, fun s' _ => ?_⟩
    exact ih fun b member => always b (List.mem_cons_of_mem a member)

/-- Conditions along runs compose. -/
theorem along_append :
    ∀ {s t : σ}, Along step ok s events → run step s events = some t → Along step ok t more →
      Along step ok s (events ++ more) := by
  induction events with
  | nil =>
    intro s t _ ran next
    cases ran
    exact next
  | cons a rest ih =>
    intro s t along ran next
    obtain ⟨s', stepped, ran'⟩ := run_cons.mp ran
    refine ⟨along.1, fun s₁ stepped₁ => ?_⟩
    rw [stepped] at stepped₁
    cases stepped₁
    exact ih (along.2 s' stepped) ran' next

/-- A weaker condition holds along the same run. -/
theorem Along.mono {ok' : σ → α → Prop} (weaker : ∀ s a, ok s a → ok' s a) :
    ∀ {s : σ}, Along step ok s events → Along step ok' s events := by
  induction events with
  | nil => exact fun _ => trivial
  | cons a rest ih =>
      exact fun along => ⟨weaker _ a along.1, fun s' stepped => ih (along.2 s' stepped)⟩

/-- **Induction over a run.** -/
theorem run_invariant (preserved : ∀ {s a s'}, I s → ok s a → step s a = some s' → I s') :
    ∀ {s t : σ}, I s → Along step ok s events → run step s events = some t → I t := by
  induction events with
  | nil =>
    intro s t holds _ ran
    cases ran
    exact holds
  | cons a rest ih =>
    intro s t holds along ran
    obtain ⟨s', stepped, ran'⟩ := run_cons.mp ran
    exact ih (preserved holds along.1 stepped) (along.2 s' stepped) ran'

/-- In the run of `events` from `s` the event `a` leads from `t` to `t'`, and `rest` is
what follows. -/
def Happens (step : σ → α → Option σ) (s : σ) (events : List α) (t : σ) (a : α) (t' : σ)
    (rest : List α) : Prop :=
  ∃ before, events = before ++ a :: rest ∧ run step s before = some t ∧ step t a = some t'

/-- What holds along a run holds of each of its events, and along what follows. -/
theorem Happens.along {s t t' : σ} {a : α}
    (happens : Happens step s events t a t' rest) (along : Along step ok s events) :
    ok t a ∧ Along step ok t' rest := by
  obtain ⟨before, rfl, ran, stepped⟩ := happens
  induction before generalizing s with
  | nil =>
    cases ran
    exact ⟨along.1, along.2 t' stepped⟩
  | cons b before ih =>
    obtain ⟨s', first, ran'⟩ := run_cons.mp ran
    exact ih (along.2 s' first) ran'

/-- An invariant of the run holds before and after each of its events. -/
theorem Happens.invariant {s t t' : σ} {a : α} (happens : Happens step s events t a t' rest)
    (preserved : ∀ {s a s'}, I s → ok s a → step s a = some s' → I s') (holds : I s)
    (along : Along step ok s events) : I t ∧ I t' := by
  obtain ⟨allowed, -⟩ := happens.along along
  obtain ⟨before, rfl, ran, stepped⟩ := happens
  have reached : I t := by
    clear stepped allowed
    induction before generalizing s with
    | nil =>
      cases ran
      exact holds
    | cons b before ih =>
      obtain ⟨s', first, ran'⟩ := run_cons.mp ran
      exact ih (preserved holds along.1 first) (along.2 s' first) ran'
  exact ⟨reached, preserved reached allowed stepped⟩

end OxideOS.Lib
