import OxideOS.Sys.Fates

/-!
# Signals and blocked tasks

A pending signal is acted on when the scheduler chooses the task: its handler is
entered or the task ends. `send_signal` makes a sleeping task ready for that, but not a
task that waits for a child or for a message, and a task that is about to block does
not look for signals. From the fates of a task follows what becomes of an active signal
and, by counting the tasks before it in round-robin order, that it is acted on within
`maxTasks` ticks in every run that is `Heedful`: `signal_acted_on`. Without that it may
never be: `waiting_unheard`.
-/

set_option autoImplicit false

namespace OxideOS.Sys

open Lib Mem Fs Ipc Proc Proc.Kernel

/-! ## Heedful runs -/

/-- No task waits for a child or a message with an active signal, the running task does
not turn away from one, and those delivered are spaced. -/
structure Heedful (k : Kernel) (e : Event) : Prop where
  awake : ∀ i < maxTasks, waits (k.tasks i).state = true → ∀ b, ¬Active (k.tasks i) b
  straight : k.userMode = true → ∀ b, Active (k.tasks k.current) b → diverts k b e = false
  spaced : SpacesSignals k e

/-- A task that is not in user mode is not marked as running, and does not sleep with an
active signal. -/
structure Rests (t : Task) : Prop where
  still : t.state ≠ .running
  sleeps : t.state.isSleeping = true → ∀ b, ¬Active t b

variable {t : Task}

theorem Rests.of_ready (ready : t.state = .ready) : Rests t := by
  constructor
  · rw [ready]
    decide
  · rw [ready]
    intro asleep
    cases asleep

theorem Rests.of_free (free : t.state.isFree = true) : Rests t := by
  constructor
  · intro running
    rw [running] at free
    cases free
  · intro asleep
    cases state : t.state <;> simp [state, TaskState.isSleeping, TaskState.isFree] at asleep free

theorem Rests.touched {t' : Task} (rests : Rests t) (touched : Touched t t') : Rests t' := by
  cases free : t'.state.isFree with
  | true => exact .of_free free
  | false =>
    have roused := touched.roused free
    rcases roused.state with ready | ⟨same, kept⟩
    · exact .of_ready ready
    · refine ⟨same ▸ rests.still, fun asleep b active => ?_⟩
      rw [same] at asleep
      have signals : t'.signals = t.signals := by
        simp only [Task.signals, kept asleep, roused.mask, roused.handlers]
      exact rests.sleeps asleep b ((active_congr signals b).mp active)

/-- Every task that is not in user mode rests. -/
def Posture (k : Kernel) : Prop := ∀ i, ¬Engaged k i → Rests (k.tasks i)

theorem posture_start (boot : Paging) : Posture (Kernel.start boot) :=
  fun _ _ => .of_free rfl

variable {k : Kernel} {e : Event}

theorem advance_posture {k' : Kernel} (posture : Posture k) (heedful : Heedful k e)
    (stepped : advance k e = some k') : Posture k' := by
  intro i idle
  cases advance_fate stepped i with
  | touched touch stays =>
    by_cases engaged : Engaged k i
    · rcases stays engaged with still | ready | free
      · exact absurd still idle
      · exact .of_ready ready
      · exact .of_free free
    · exact (posture i engaged).touched touch
  | filled vacant ready => exact .of_ready ready
  | parked running uid signals blocked =>
    obtain ⟨user, rfl⟩ := running
    rcases blocked with waiting | ⟨asleep, diverted⟩
    · constructor
      · intro contrary
        rw [contrary] at waiting
        cases waiting
      · intro asleep
        cases state : (k'.tasks k.current).state <;>
          simp [state, waits, TaskState.isSleeping] at waiting asleep
    · constructor
      · intro contrary
        rw [contrary] at asleep
        cases asleep
      · intro _ b active
        have straight := heedful.straight user b ((active_congr signals b).mp active)
        exact absurd ((diverted b).symm.trans straight) (by decide)
  | changed running running' => exact absurd running' idle
  | served before happens after =>
    rcases after with engaged | free
    · exact absurd engaged idle
    · exact .of_free free

/-! ## Acting on a signal -/

/-- The event acts on signal `b + 1` of the task in slot `i`: it enters the handler or
ends the task. -/
inductive ActsOn (k : Kernel) (e : Event) (i b : Nat) : Prop
  | delivered {k₁ k₂ : Kernel} (happens : delivery k e = some (i, k₁, k₂))
      (active : Active (k₁.tasks i) b) (settled : Settled (k₁.tasks i) (k₂.tasks i) (b + 1))
  | ended {k' : Kernel} (stepped : advance k e = some k')
      (free : (k'.tasks i).state.isFree = true)

/-- One of the events acts on signal `b + 1` of the task that is in slot `i` in `k`. -/
def ActedOn (k : Kernel) (events : List Event) (i b : Nat) : Prop :=
  ∃ before e after k₁, events = before ++ e :: after ∧ run advance k before = some k₁ ∧
    (k₁.tasks i).uid = (k.tasks i).uid ∧ ActsOn k₁ e i b

variable {i b : Nat}

theorem ActedOn.later {k' : Kernel} {rest : List Event}
    (stepped : advance k e = some k') (uid : (k'.tasks i).uid = (k.tasks i).uid)
    (acted : ActedOn k' rest i b) : ActedOn k (e :: rest) i b := by
  obtain ⟨before, e', after, k₁, rfl, ran, same, acts⟩ := acted
  exact ⟨e :: before, e', after, k₁, rfl, run_cons.mpr ⟨k', stepped, ran⟩, same.trans uid, acts⟩

section Steps

variable {k k' : Kernel} {e : Event} {i b : Nat}

theorem delivery_acts {k₁ k₂ : Kernel} (spaced : SpacesSignals k e)
    (happens : delivery k e = some (i, k₁, k₂)) (before : Touched (k.tasks i) (k₁.tasks i))
    (active : Active (k.tasks i) b) : ActsOn k e i b := by
  obtain ⟨ready, after⟩ := delivery_task happens
  have roused := before.roused (by rw [ready]; rfl)
  have accounts := (accounts_iff_spaced ready).mpr (spaced i k₁ k₂ happens)
  have settled := accounts_iff_active.mp accounts b (roused.active active)
  rw [← after] at settled
  exact .delivered happens (roused.active active) settled

/-- An event acts on an active signal, or leaves it active. -/
theorem step_acts (heedful : Heedful k e) (stepped : advance k e = some k')
    (alive : (k.tasks i).state.isFree = false) (active : Active (k.tasks i) b) :
    ActsOn k e i b ∨ (k'.tasks i).uid = (k.tasks i).uid ∧ (k'.tasks i).state.isFree = false ∧
      Active (k'.tasks i) b := by
  cases free : (k'.tasks i).state.isFree with
  | true => exact .inl (.ended stepped free)
  | false =>
    cases advance_fate stepped i with
    | touched touch _ =>
      have roused := touch.roused free
      exact .inr ⟨roused.uid, rfl, roused.active active⟩
    | filled vacant _ => exact absurd (vacant.symm.trans alive) (by decide)
    | parked _ uid signals _ => exact .inr ⟨uid, rfl, (active_congr signals b).mpr active⟩
    | changed running _ uid kept =>
      obtain ⟨user, rfl⟩ := running
      exact .inr ⟨uid, rfl, kept b (heedful.straight user b active) active⟩
    | served before happens _ => exact .inl (delivery_acts heedful.spaced happens before active)

/-- Between two slices a task with an active signal is ready. -/
theorem ready_of_active (posture : Posture k) (heedful : Heedful k e) (kernel : k.userMode = false)
    (bound : i < maxTasks) (alive : (k.tasks i).state.isFree = false)
    (active : Active (k.tasks i) b) : (k.tasks i).state = .ready := by
  have rests := posture i fun engaged => absurd (kernel.symm.trans engaged.1) (by decide)
  have awake := heedful.awake i bound
  cases state : (k.tasks i).state with
  | empty | dead code => simp [state, TaskState.isFree] at alive
  | ready => rfl
  | running => exact absurd state rests.still
  | sleeping wake => exact absurd active (rests.sleeps (by rw [state]; rfl) b)
  | waiting child | waitingForMsg queue msgPtr => exact absurd active (awake (by rw [state]; rfl) b)

/-- A tick acts on an active signal, or serves a task before it in order. -/
theorem tick_acts {messages : Nat → Option (List UInt8)} (posture : Posture k)
    (heedful : Heedful k (.tick messages)) (stepped : advance k (.tick messages) = some k')
    (bound : i < maxTasks) (alive : (k.tasks i).state.isFree = false)
    (active : Active (k.tasks i) b) :
    ActsOn k (.tick messages) i b ∨ ahead maxTasks k'.current i < ahead maxTasks k.current i := by
  obtain ⟨kernel, k₁, nudged, choice⟩ := tick_cases stepped
  have ready := ready_of_active posture heedful kernel bound alive active
  cases free : (k₁.tasks i).state.isFree with
  | true =>
    refine .inl (.ended stepped ?_)
    rcases choice with ⟨-, rfl⟩ | ⟨idx, k₂, chosen, -, -, others, -⟩
    · exact free
    · have other : i ≠ idx := by
        rintro rfl
        rw [(nextReady_eq_some chosen).2] at free
        cases free
      rw [others i other, free]
  | false =>
    have stillReady : (k₁.tasks i).state = .ready := by
      rcases ((nudged.touched i).roused free).state with now | ⟨same, -⟩
      · exact now
      · exact same.trans ready
    obtain ⟨idx, chosen, nearer⟩ := nextReady_of_ready bound stillReady
    rcases choice with ⟨idle, -⟩ | ⟨idx', k₂, chosen', happens, current, -, -⟩
    · rw [idle] at chosen
      cases chosen
    · obtain rfl : idx = idx' := Option.some.inj (chosen.symm.trans chosen')
      rcases nearer with rfl | nearer
      · exact .inl (delivery_acts heedful.spaced happens (nudged.touched idx) active)
      · rw [current, ← nudged.current]
        exact .inr nearer

end Steps

/-- An active signal is acted on when the scheduler has gone round. -/
theorem acted_on_of_turns (bound : i < maxTasks) (events : List Event) :
    ∀ {k k' : Kernel}, Posture k → (k.tasks i).state.isFree = false → Active (k.tasks i) b →
      Along advance Heedful k events → run advance k events = some k' →
      ahead maxTasks k.current i < events.countP Event.isTick → ActedOn k events i b := by
  induction events with
  | nil =>
    intro k k' _ _ _ _ _ enough
    simp at enough
  | cons e rest ih =>
    intro k k' posture alive active along ran enough
    obtain ⟨k₁, stepped, ran⟩ := run_cons.mp ran
    obtain ⟨heedful, along⟩ := along
    rcases step_acts heedful stepped alive active with acts | ⟨uid, alive', active'⟩
    · exact ⟨[], e, rest, k, rfl, rfl, rfl, acts⟩
    · have recur : ahead maxTasks k₁.current i < rest.countP Event.isTick → _ := fun enough =>
        ih (advance_posture posture heedful stepped) alive' active' (along k₁ stepped) ran enough
      cases isTick : e.isTick with
      | false =>
        have same := (advance_fates isTick stepped).current
        refine .later stepped uid (recur ?_)
        rw [List.countP_cons_of_neg (by simp [isTick])] at enough
        rwa [same]
      | true =>
        cases e with
        | tick messages =>
          rcases tick_acts posture heedful stepped bound alive active with acts | nearer
          · exact ⟨[], _, rest, k, rfl, rfl, rfl, acts⟩
          · refine .later stepped uid (recur ?_)
            rw [List.countP_cons_of_pos (by simp [isTick])] at enough
            omega
        | _ => cases isTick

/-- **A signal is acted on within `maxTasks` ticks** in every heedful run: whenever a
signal is active for a living task, one of the events up to the `maxTasks`-th tick from
there enters its handler or ends the task. -/
theorem signal_acted_on {boot : Paging} {events more : List Event} {k k' : Kernel} {i b : Nat}
    (heedful : Along advance Heedful (Kernel.start boot) events)
    (ran : run advance (Kernel.start boot) events = some k)
    (heedful' : Along advance Heedful k more) (ran' : run advance k more = some k')
    (enough : maxTasks ≤ more.countP Event.isTick) (bound : i < maxTasks)
    (alive : (k.tasks i).live = true) (active : Active (k.tasks i) b) : ActedOn k more i b := by
  have posture : Posture k := run_invariant advance_posture (posture_start boot) heedful ran
  refine acted_on_of_turns bound more posture ?_ active heedful' ran' ?_
  · simpa [Task.live] using alive
  · exact Nat.lt_of_lt_of_le (ahead_lt bound) enough

/-! ## Deciding whether a run is heedful -/

instance (t : Task) (b : Nat) : Decidable (Active t b) := inferInstanceAs (Decidable (_ ∧ _))

theorem Active.lt (active : Active t b) : b < 32 :=
  BitVec.lt_of_getLsbD active.1

/-- A condition on the active signals is one on the bits of a word. -/
def decidableActive (t : Task) (P : Nat → Prop) [DecidablePred P] :
    Decidable (∀ b, Active t b → P b) :=
  decidable_of_iff (∀ b < 32, Active t b → P b)
    ⟨fun all b active => all b active.lt active, fun all b _ active => all b active⟩

theorem spaced_iff :
    Spaced t ↔ ∀ a, Active t a →
      (∀ b, Active t b → a = b) ∧
        (handlerOf t.signalHandlers (a + 1) ≠ sigDfl → t.firstRun = false) :=
  ⟨fun spaced _ active => ⟨fun _ active' => spaced.one active active', spaced.resumed active⟩,
    fun all => ⟨fun active active' => (all _ active).1 _ active', fun active => (all _ active).2⟩⟩

instance (t : Task) : Decidable (Spaced t) :=
  have (a : Nat) : Decidable (∀ b, Active t b → a = b) := decidableActive t fun b => a = b
  have := decidableActive t fun a => (∀ b, Active t b → a = b) ∧
    (handlerOf t.signalHandlers (a + 1) ≠ sigDfl → t.firstRun = false)
  decidable_of_iff _ spaced_iff.symm

instance (k : Kernel) (e : Event) : Decidable (SpacesSignals k e) :=
  match happens : delivery k e with
  | none => .isTrue fun idx k₁ k₂ other => by simp [happens] at other
  | some (idx, k₁, k₂) =>
    decidable_of_iff (Spaced (k₁.tasks idx)) (by simp [SpacesSignals, happens])

theorem heedful_iff :
    Heedful k e ↔ (∀ i < maxTasks, waits (k.tasks i).state = true →
        ∀ b, Active (k.tasks i) b → False) ∧
      (k.userMode = true → ∀ b, Active (k.tasks k.current) b → diverts k b e = false) ∧
      SpacesSignals k e :=
  ⟨fun heedful => ⟨heedful.awake, heedful.straight, heedful.spaced⟩,
    fun all => ⟨all.1, all.2.1, all.2.2⟩⟩

instance (k : Kernel) (e : Event) : Decidable (Heedful k e) :=
  have (t : Task) : Decidable (∀ b, Active t b → False) := decidableActive t fun _ => False
  have := decidableActive (k.tasks k.current) fun b => diverts k b e = false
  decidable_of_iff _ heedful_iff.symm

/-- A program sends itself `SIGTERM` and is preempted; then the scheduler goes round. -/
def selfTerm : List Event := startLooping ++ [.syscall (some .zeroed) (.kill 1 15)]

def goRound : List Event :=
  .timer .zeroed :: .timer .zeroed :: List.replicate maxTasks (.tick fun _ => none)

set_option maxRecDepth 100000 in
theorem signal_acted_on_term :
    ∃ k k', run advance (Kernel.start roomyBoot) selfTerm = some k ∧
      run advance k goRound = some k' ∧ ActedOn k goRound 0 14 := by
  have ends : (run advance (Kernel.start roomyBoot) (selfTerm ++ goRound)).isSome = true := by
    decide +kernel
  have middle : (run advance (Kernel.start roomyBoot) selfTerm).map (fun k => decide (
      (k.tasks 0).live = true ∧ Active (k.tasks 0) 14 ∧ Along advance Heedful k goRound)) =
        some true := by
    decide +kernel
  have heedful : Along advance Heedful (Kernel.start roomyBoot) selfTerm := by decide +kernel
  obtain ⟨k', whole⟩ := Option.isSome_iff_exists.mp ends
  obtain ⟨k, ran, ran'⟩ := run_split whole
  have facts : decide ((k.tasks 0).live = true ∧ Active (k.tasks 0) 14 ∧
      Along advance Heedful k goRound) = true := by
    simpa only [ran, Option.map_some, Option.some.injEq] using middle
  obtain ⟨alive, active, heedful'⟩ := of_decide_eq_true facts
  exact ⟨k, k', ran, ran', signal_acted_on heedful ran heedful' ran' (by decide) (by decide) alive
    active⟩

/-! ## A task that waits -/

/-- Nothing is due in the slot: nobody sleeps, waits for a child or is ready, and there is
no alarm. -/
def inert (t : Task) : Bool :=
  t.alarmDeadline == 0 &&
    match t.state with
    | .sleeping _ | .waiting _ | .ready => false
    | _ => true

theorem loop_inert {body : Nat → Kernel → Kernel}
    (same : ∀ i < maxTasks, body i k = k) : loop body 0 maxTasks k = k :=
  loop_zero_invariant (fun _ k' => k' = k) (fun i k' bound kept => by rw [kept, same i bound]) rfl

theorem wakeForMsgs_inert (k : Kernel) (start count : Nat) :
    Prog.forRange (wakeForMsg fun _ => none) start count k = (.ok ⟨⟩, k) := by
  have none : ∀ i, wakeForMsg (fun _ => none) i k = (.ok ⟨⟩, k) := by
    intro i
    unfold wakeForMsg
    rw [Prog.bind_apply]
    dsimp only [Prog.gets, id]
    cases (k.tasks i).state <;> rfl
  induction count generalizing start with
  | zero => rfl
  | succ count ih =>
    rw [Prog.forRange]
    unfold Prog.andThen
    rw [none start]
    exact ih (start + 1)

theorem prepare_inert (idle : ∀ i < maxTasks, inert (k.tasks i) = true) :
    prepare (fun _ => none) k = (.ok ⟨⟩, k) := by
  have sleepers : loop (wakeSleeper k.ticks) 0 maxTasks k = k := by
    refine loop_inert fun i bound => ?_
    have here := idle i bound
    unfold wakeSleeper
    cases state : (k.tasks i).state <;> simp [inert, state] at here ⊢
  have alarms : loop (fireAlarm k.ticks) 0 maxTasks k = k := by
    refine loop_inert fun i bound => ?_
    have here := idle i bound
    simp only [inert, Bool.and_eq_true, beq_iff_eq] at here
    simp [fireAlarm, here.1]
  have parents : loop wakeParent 0 maxTasks k = k := by
    refine loop_inert fun i bound => ?_
    have here := idle i bound
    unfold wakeParent
    cases state : (k.tasks i).state <;> simp [inert, state] at here ⊢
  unfold prepare
  simp only [Prog.bind_apply, Prog.gets, Prog.update, sleepers, alarms, wakeForMsgs_inert, parents]

theorem nextReady_inert (idle : ∀ i < maxTasks, inert (k.tasks i) = true) :
    nextReady k = none := by
  cases chosen : nextReady k with
  | none => rfl
  | some idx =>
    obtain ⟨bound, ready⟩ := nextReady_eq_some chosen
    have here := idle idx bound
    simp [inert, ready] at here

/-- A tick without messages does nothing if nothing is due. -/
theorem tick_inert (kernel : k.userMode = false) (idle : ∀ i < maxTasks, inert (k.tasks i) = true) :
    advance k (.tick fun _ => none) = some k ∧ delivery k (.tick fun _ => none) = none := by
  constructor
  · simp only [advance, kernel, Bool.false_eq_true, if_false, tick_eq]
    simp only [Prog.bind_apply, prepare_inert idle, Prog.gets, nextReady_inert idle]
    rfl
  · simp only [delivery, kernel, Bool.false_eq_true, if_false, prepare_inert idle,
      nextReady_inert idle]

/-- However many such ticks there are, they act on no signal. -/
theorem never_acted_on (kernel : k.userMode = false)
    (idle : ∀ i < maxTasks, inert (k.tasks i) = true) (alive : (k.tasks i).live = true)
    (b n : Nat) :
    run advance k (List.replicate n (.tick fun _ => none)) = some k ∧
      ¬ActedOn k (List.replicate n (.tick fun _ => none)) i b := by
  obtain ⟨stays, nothing⟩ := tick_inert kernel idle
  have rest : ∀ n, run advance k (List.replicate n (.tick fun _ => none)) = some k := by
    intro n
    induction n with
    | zero => rfl
    | succ n ih => exact run_cons.mpr ⟨k, stays, ih⟩
  refine ⟨rest n, ?_⟩
  rintro ⟨before, e, after, k₁, split, ran, -, acts⟩
  obtain ⟨-, ticks, others⟩ := List.append_eq_replicate_iff.mp split.symm
  have same : e = .tick fun _ => none :=
    List.eq_of_mem_replicate (others ▸ List.mem_cons_self)
  have back : k₁ = k := by
    rw [ticks, rest] at ran
    exact (Option.some.inj ran).symm
  subst same back
  cases acts with
  | delivered happens => exact absurd (nothing.symm.trans happens) (by simp)
  | ended stepped free =>
    obtain rfl := Option.some.inj (stays.symm.trans stepped)
    simp [Task.live, free] at alive

/-- Two programs are started; the first waits for a message, the second sends it `SIGTERM`
and exits. -/
def unheard : List Event :=
  startLooping ++ [.syscall (some .zeroed) (.msgrcvWait 0 0x7ff000 none)] ++ startLooping ++
    [.syscall (some .zeroed) (.kill 1 15), .syscall (some .zeroed) (.exit 0)]

set_option maxRecDepth 100000 in
/-- A task waits for a message and has `SIGTERM` pending, neither blocked nor ignored.
However many ticks follow, nothing is done about it. -/
theorem waiting_unheard :
    ∃ k, run advance (Kernel.start roomyBoot) unheard = some k ∧ (k.tasks 0).live = true ∧
      waits (k.tasks 0).state = true ∧ Active (k.tasks 0) 14 ∧
      ∀ n, run advance k (List.replicate n (.tick fun _ => none)) = some k ∧
        ¬ActedOn k (List.replicate n (.tick fun _ => none)) 0 14 := by
  have ends : (run advance (Kernel.start roomyBoot) unheard).map (fun k => decide (
      k.userMode = false ∧ (∀ i < maxTasks, inert (k.tasks i) = true) ∧ (k.tasks 0).live = true ∧
        waits (k.tasks 0).state = true ∧ Active (k.tasks 0) 14)) = some true := by
    decide +kernel
  obtain ⟨k, ran, facts⟩ := Option.map_eq_some_iff.mp ends
  obtain ⟨kernel, idle, alive, waiting, active⟩ := of_decide_eq_true facts
  exact ⟨k, ran, alive, waiting, active, never_acted_on kernel idle alive 14⟩

end OxideOS.Sys
