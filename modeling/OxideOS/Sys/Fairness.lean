import OxideOS.Lib.Rotation
import OxideOS.Sys.Preemption

/-!
# The scheduler takes turns

Every tick selects the first ready task after the slot that was selected last, and
nothing else changes that slot (`advance_current`). So a task that is ready at the
selection of eight ticks in a row is selected by one of them, and between two selections
of one task every task that stays ready is selected (`fair_turns`), whatever happens to
the other tasks in between.
-/

set_option autoImplicit false

namespace OxideOS.Sys

open Lib Mem Proc Proc.Kernel

/-! ## What changes the current slot -/

/-- The move does not select a task. -/
def Unselecting (_ : Life) (m : Move) : Prop := ∀ i, m ≠ .choose i

theorem unselecting_of_benign (L : Life) (m : Move) (allowed : benign m = true) :
    Unselecting L m := by
  rintro i rfl
  cases allowed

theorem step_current {L L' : Life} {m : Move} (other : Unselecting L m)
    (moved : L.step m = some L') : L'.current = L.current := by
  cases Life.moves_of_step moved with
  | choose kernel bound => exact absurd rfl (other _)
  | exit user => exact Life.finish_current L _
  | fatal kernel ready => exact Life.free_current _ _
  | _ => rfl

theorem Follows.current {L L' : Life} (follows : Follows Unselecting L L') :
    L'.current = L.current :=
  follows.preserves (fun same other moved => (step_current other moved).trans same) rfl

theorem permits_of {ok : Life → Move → Prop} {k : Kernel} {e : Event}
    (all : ∀ L m, Unselecting L m → ok L m) (choose : e.isTick = true → ∀ L i, ok L (.choose i)) :
    Permits ok k e where
  benign L m allowed := all L m (unselecting_of_benign L m allowed)
  choose := choose
  exit _ _ := all _ _ fun _ same => by cases same
  kill _ _ _ := all _ _ fun _ same => by cases same
  fatal _ _ _ _ := all _ _ fun _ same => by cases same
  spawn _ _ _ _ := all _ _ fun _ same => by cases same
  fork _ _ _ _ := all _ _ fun _ same => by cases same
  suspend _ _ := all _ _ fun _ same => by cases same

theorem advance_slots {k k' : Kernel} {e : Event} (slots : Slots k.life)
    (stepped : advance k e = some k') : Slots k'.life := by
  have follows : Follows (fun _ _ => True) k.life k'.life :=
    advance_follows slots (permits_of (fun _ _ _ => trivial) fun _ _ _ => trivial) stepped
  exact follows.preserves (fun slots _ => slots.step) slots

theorem slots_of_run {boot : Paging} {events : List Event} {k : Kernel}
    (reached : run advance (Kernel.start boot) events = some k) : Slots k.life := by
  have always : Along advance (fun _ _ => True) (Kernel.start boot) events :=
    along_of_forall fun _ _ _ => trivial
  exact run_invariant (fun slots _ stepped => advance_slots slots stepped) (slots_start boot) always
    reached

/-- Only a tick changes the current slot. -/
theorem advance_current {k k' : Kernel} {e : Event} (slots : Slots k.life)
    (other : e.isTick = false)
    (stepped : advance k e = some k') : k'.current = k.current := by
  have permits : Permits Unselecting k e :=
    permits_of (fun _ _ same => same) fun tick => absurd (other.symm.trans tick) Bool.false_ne_true
  exact (advance_follows slots permits stepped).current

/-- A tick selects the next ready task after the current slot. -/
theorem tick_current {k k' : Kernel} {messages : Nat → Option (List UInt8)} (slots : Slots k.life)
    (stepped : advance k (.tick messages) = some k') :
    ∃ s, selectionPoint messages k = some s ∧ s.current = k.current ∧
      k'.current = (nextReady s).getD k.current := by
  simp only [advance, Option.ite_none_left_eq_some] at stepped
  obtain ⟨user, settled⟩ := stepped
  have kernel : k.userMode = false := by simpa using user
  have same : ∀ {s}, selectionPoint messages k = some s → s.current = k.current := fun reached =>
    (selectionPoint_prepared unselecting_of_benign slots kernel reached).follows.current
  have settles : Settles (tick messages) (fun k' => ∃ s, selectionPoint messages k = some s ∧
      s.current = k.current ∧ k'.current = (nextReady s).getD k.current) k := by
    refine tick_settles (fun s reached idle => ⟨s, reached, same reached, ?_⟩)
      (fun s idx reached chosen => ?_)
    · rw [idle]
      exact same reached
    · refine Prog.wp_mono (fun killed k₅ delivered => ⟨s, reached, same reached, ?_⟩)
        (fun _ _ stopped => stopped) (deliverIfPending_spec idx { s with current := idx })
      rw [chosen]
      rcases delivered with ⟨rfl, kept⟩ | ⟨rfl, -, signum, died, -⟩
      · exact congrArg Life.current kept
      · have freed : (k₅.freeSpace idx).life.current = idx := by
          rw [life_freeSpace, Life.free_current, died]
          rfl
        exact freed
  exact settles k' settled

/-! ## Runs -/

/-- The states in which the ticks of a run select a task. -/
def selections : Kernel → List Event → List Kernel
  | _, [] => []
  | k, e :: rest =>
    let later := ((advance k e).map fun k' => selections k' rest).getD []
    match e with
    | .tick messages => (selectionPoint messages k).toList ++ later
    | _ => later

/-- Whether the task in a slot is ready. -/
def isReady (k : Kernel) (i : Nat) : Bool := (k.tasks i).state == .ready

/-- **The selections of a run are turns** around the ring of slots. -/
theorem selections_turns {k k' : Kernel} {window : List Event} (slots : Slots k.life)
    (ran : run advance k window = some k') :
    (selections k window).map nextReady =
        turns maxTasks k.current ((selections k window).map isReady) ∧
      k'.current = lastTurn maxTasks k.current ((selections k window).map isReady) := by
  induction window generalizing k with
  | nil =>
    cases ran
    exact ⟨rfl, rfl⟩
  | cons e rest ih =>
    obtain ⟨k₁, stepped, ran'⟩ := run_cons.mp ran
    obtain ⟨later, last⟩ := ih (advance_slots slots stepped) ran'
    cases tick : e.isTick with
    | false =>
      have same : selections k (e :: rest) = selections k₁ rest := by
        cases e with
        | tick messages => cases tick
        | _ => simp only [selections, stepped, Option.map_some, Option.getD_some]
      rw [same, ← advance_current slots tick stepped]
      exact ⟨later, last⟩
    | true =>
      cases e with
      | tick messages =>
        obtain ⟨s, reached, here, next⟩ := tick_current slots stepped
        have found : nextFrom maxTasks (isReady s) k.current = nextReady s := by
          rw [← here]
          rfl
        simp only [selections, stepped, reached, Option.map_some, Option.getD_some,
          Option.toList_some, List.singleton_append, List.map_cons, turns, lastTurn, found,
          ← next]
        exact ⟨by rw [later], last⟩
      | _ => cases tick

/-- **Round robin is fair.** In every run, a task that is ready at the selections of eight
ticks in a row is selected by one of them, and between two selections of one task every
task that stays ready is selected. -/
theorem fair_turns {boot : Paging} {before window : List Event} {k k' : Kernel}
    (reached : run advance (Kernel.start boot) before = some k)
    (ran : run advance k window = some k') {i : Nat} (bound : i < maxTasks) :
    (maxTasks ≤ (selections k window).length →
      (∀ s ∈ selections k window, (s.tasks i).state = .ready) →
      ∃ s ∈ selections k window, nextReady s = some i) ∧
    ∀ first between last j, selections k window = first :: (between ++ [last]) →
      nextReady first = some j → nextReady last = some j →
      (∀ s ∈ between ++ [last], (s.tasks i).state = .ready) →
      i = j ∨ ∃ s ∈ between, nextReady s = some i := by
  have willing : ∀ {l : List Kernel}, (∀ s ∈ l, (s.tasks i).state = .ready) →
      ∀ w ∈ l.map isReady, w i = true := by
    intro l ready w member
    obtain ⟨s, here, rfl⟩ := List.mem_map.mp member
    exact beq_iff_eq.mpr (ready s here)
  obtain ⟨inTurn, -⟩ := selections_turns (slots_of_run reached) ran
  constructor
  · intro enough ready
    by_contra never
    have passed : some i ∉ turns maxTasks k.current ((selections k window).map isReady) := by
      rw [← inTurn]
      exact fun turn => never (List.mem_map.mp turn)
    have nearer := turns_nearer bound _ (willing ready) passed
    have far : ahead maxTasks k.current i < maxTasks := ahead_lt bound
    rw [List.length_map] at nearer
    omega
  · intro first between last j all here again ready
    refine or_iff_not_imp_left.mpr fun other => List.mem_map.mp ?_
    rw [all] at inTurn
    simp only [List.map_cons, turns, List.cons.injEq] at inTurn
    obtain ⟨head, tail⟩ := inTurn
    rw [← head, here, Option.getD_some, List.map_append, List.map_append, List.map_singleton,
      List.map_singleton, (turns_concat _ j).1] at tail
    obtain ⟨middle, end'⟩ := List.append_inj' tail rfl
    rw [middle]
    have ready' := willing ready
    rw [List.map_append] at ready'
    exact turn_between bound _ ready' ((List.singleton_inj.mp end').symm.trans again) other

/-- **Every run of the kernel is a run of the life cycle**, from any reachable state on. -/
theorem run_refines_life {boot : Paging} {before events : List Event} {k k' : Kernel}
    (reached : run advance (Kernel.start boot) before = some k)
    (ran : run advance k events = some k') :
    ∃ moves, run Life.step k.life moves = some k'.life := by
  have follows : Slots k'.life ∧ Follows (fun _ _ => True) k.life k'.life := by
    refine run_invariant (I := fun s => Slots s.life ∧ Follows (fun _ _ => True) k.life s.life) ?_
      ⟨slots_of_run reached, .refl _⟩ (along_of_forall fun _ _ _ => trivial) ran
    rintro s e s' ⟨slots, before⟩ _ stepped
    have next : Follows (fun _ _ => True) s.life s'.life :=
      advance_follows slots (permits_of (fun _ _ _ => trivial) fun _ _ _ => trivial) stepped
    exact ⟨advance_slots slots stepped, before.trans next⟩
  obtain ⟨moves, moved, -⟩ := follows.2
  exact ⟨moves, moved⟩

/-- Two programs are started. -/
def startTwo : List Event := [.spawn (some looping) [] [], .spawn (some looping) [] []]

/-- Eight ticks, each with a whole slice for the selected program. -/
def eightSlices : List Event :=
  (List.replicate 8 [.tick fun _ => none, .timer .zeroed, .timer .zeroed]).flatten

set_option maxRecDepth 100000 in
theorem fair_turns_two :
    ∃ k k', run advance (Kernel.start roomyBoot) startTwo = some k ∧
      run advance k eightSlices = some k' ∧ ∃ s ∈ selections k eightSlices,
        nextReady s = some 1 := by
  have ends : (run advance (Kernel.start roomyBoot) startTwo).map (fun k =>
      ((run advance k eightSlices).isSome,
        decide (8 ≤ (selections k eightSlices).length ∧
          ∀ s ∈ selections k eightSlices, (s.tasks 1).state = .ready))) = some (true, true) := by
    decide +kernel
  obtain ⟨k, reached, facts⟩ := Option.map_eq_some_iff.mp ends
  obtain ⟨returns, ready⟩ := Prod.mk.inj facts
  obtain ⟨k', ran⟩ := Option.isSome_iff_exists.mp returns
  obtain ⟨enough, ready⟩ := of_decide_eq_true ready
  exact ⟨k, k', reached, ran,
    (fair_turns reached ran (by decide : 1 < maxTasks)).1 enough ready⟩

theorem startTwo_refines :
    ∃ k k' moves, run advance (Kernel.start roomyBoot) startTwo = some k ∧
      run advance k [.tick fun _ => none] = some k' ∧
      run Life.step k.life moves = some k'.life := by
  have ends : (run advance (Kernel.start roomyBoot) startTwo).map (fun k =>
      (run advance k [.tick fun _ => none]).isSome) = some true := by decide +kernel
  obtain ⟨k, reached, returns⟩ := Option.map_eq_some_iff.mp ends
  obtain ⟨k', ran⟩ := Option.isSome_iff_exists.mp returns
  obtain ⟨moves, moved⟩ := run_refines_life reached ran
  exact ⟨k, k', moves, reached, ran, moved⟩

end OxideOS.Sys
