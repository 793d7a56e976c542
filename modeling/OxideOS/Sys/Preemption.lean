import OxideOS.Sys.Events

/-!
# The task in user mode is running

The timer preempts a task only if its state is `Running`. This holds of the task
in user mode as long as no system call marks it otherwise and then returns to it:
`sigsuspend` marks it as asleep, and a `SIGKILL` that a task sends to itself as
dead. In runs without these (`Calm`) the task in user mode can always be
preempted, and the dead stay dead.
-/

set_option autoImplicit false

namespace OxideOS.Sys

open Lib Mem Fs Ipc Proc Proc.Kernel

/-- The event is no `sigsuspend` and does not kill the task in user mode. -/
def Calm (k : Kernel) (e : Event) : Prop :=
  e.suspends = false ∧ ¬(k.userMode = true ∧ e.kills k k.current = true)

theorem Calm.permits {k : Kernel} {e : Event} (calm : Calm k e) : Permits Steady k e where
  benign L m allowed := by cases m <;> trivial
  choose _ _ _ := trivial
  exit _ _ := trivial
  kill i kills code := by
    rintro ⟨user, rfl⟩
    exact calm.2 ⟨user, kills⟩
  fatal _ _ _ _ := trivial
  spawn _ _ _ _ := trivial
  fork _ _ _ _ := trivial
  suspend suspends _ := absurd (suspends.symm.trans calm.1) (by decide)

/-! ## The invariant -/

theorem slots_start (boot : Paging) : Slots (Kernel.start boot).life := by
  have empty : ∀ i, ¬((Kernel.start boot).life.slots i).Taken := fun i taken => taken rfl
  exact {
    current_lt := (by decide : 0 < maxTasks)
    next_pos := Nat.one_pos
    empty_pid := fun _ _ => ⟨rfl, rfl⟩
    pid := fun _ taken => absurd taken (empty _)
    uid_lt := fun _ taken => absurd taken (empty _)
    uid_inj := fun _ _ taken => absurd taken (empty _)
    parent_lt := fun _ taken => absurd taken (empty _)
    parent_pid := fun _ _ taken => absurd taken (empty _)
    own_pid := fun _ own => absurd own (Nat.succ_ne_zero _).symm
    running := fun user => nomatch user
    awake := fun user => nomatch user }

theorem tended_start (boot : Paging) : Tended (Kernel.start boot).life :=
  ⟨slots_start boot, fun user => nomatch user⟩

theorem advance_tended {k k' : Kernel} {e : Event} (good : Tended k.life) (calm : Calm k e)
    (stepped : advance k e = some k') : Tended k'.life :=
  (advance_follows good.toSlots calm.permits stepped).preserves
    (fun good steady moved => good.step steady moved) good

/-- No event revives the task `u`. -/
theorem advance_retired {u : Nat} {k k' : Kernel} {e : Event}
    (holds : Tended k.life ∧ Retired u k.life) (calm : Calm k e)
    (stepped : advance k e = some k') : Tended k'.life ∧ Retired u k'.life :=
  (advance_follows holds.1.toSlots calm.permits stepped).preserves
    (I := fun L => Tended L ∧ Retired u L)
    (fun holds steady moved => ⟨holds.1.step steady moved,
      holds.2.step (fun user => by rw [holds.1.tended user]; rfl) moved⟩) holds

/-! ## Preemption -/

theorem finishSlice_ready (k : Kernel) :
    ((k.finishSlice exitPreempted).tasks k.current).state = .ready := by
  show ((({ k with userMode := false } : Kernel).setState k.current .ready).tasks
    k.current).state = .ready
  rw [setState, Kernel.modifyTask, setTask_self]

/-- The last timer interrupt of a slice preempts the running task. -/
theorem timerInterrupt_preempts {k : Kernel} (user : k.userMode = true)
    (running : (k.tasks k.current).state = .running) (last : k.sliceRemaining ≤ 1)
    (ctx : TaskContext) :
    (k.timerInterrupt ctx).userMode = false ∧
      ((k.timerInterrupt ctx).tasks k.current).state = .ready := by
  have spent : k.sliceRemaining - 1 = 0 := by omega
  unfold timerInterrupt
  dsimp only
  rw [if_pos user, if_pos ⟨spent, running⟩]
  exact ⟨rfl, finishSlice_ready _⟩

/-- An earlier one counts down. -/
theorem timerInterrupt_counts {k : Kernel} (user : k.userMode = true) (more : 1 < k.sliceRemaining)
    (ctx : TaskContext) :
    k.timerInterrupt ctx =
      { k with ticks := k.ticks + 1, sliceRemaining := k.sliceRemaining - 1 } := by
  have left : k.sliceRemaining - 1 ≠ 0 := by omega
  unfold timerInterrupt
  dsimp only
  rw [if_pos user, if_neg fun both => left both.1]

/-- When its slice has run out, the running task is `Ready` again. -/
theorem timers_preempt (ctx : TaskContext) (n : Nat) :
    ∀ {k : Kernel}, k.userMode = true → (k.tasks k.current).state = .running →
      max 1 k.sliceRemaining = n →
      ∃ k', run advance k (List.replicate n (.timer ctx)) = some k' ∧ k'.userMode = false ∧
        (k'.tasks k.current).state = .ready := by
  induction n with
  | zero =>
    intro k _ _ count
    omega
  | succ n ih =>
    intro k user running count
    by_cases last : k.sliceRemaining ≤ 1
    · have one : n = 0 := by omega
      subst one
      exact ⟨k.timerInterrupt ctx, rfl, timerInterrupt_preempts user running last ctx⟩
    · have counts := timerInterrupt_counts user (by omega) ctx
      obtain ⟨k', ran, ended⟩ := ih
        (k := { k with ticks := k.ticks + 1, sliceRemaining := k.sliceRemaining - 1 }) user running
        (by show max 1 (k.sliceRemaining - 1) = n; omega)
      refine ⟨k', ?_, ended⟩
      rw [List.replicate_succ]
      exact run_cons.mpr ⟨_, congrArg some counts, ran⟩

/-- **The task in user mode is running, can be preempted, and the dead stay dead**,
in every calm run. -/
theorem run_tended {boot : Paging} {events more : List Event} {k k' : Kernel}
    (calm : Along advance Calm (Kernel.start boot) events)
    (ran : run advance (Kernel.start boot) events = some k)
    (calm' : Along advance Calm k more) (ran' : run advance k more = some k') :
    (k.userMode = true → (k.tasks k.current).state = .running ∧
      ∀ ctx, ∃ k₁, run advance k (List.replicate (max 1 k.sliceRemaining) (.timer ctx)) = some k₁ ∧
        k₁.userMode = false ∧ (k₁.tasks k.current).state = .ready) ∧
    ∀ i < maxTasks, ∀ code, (k.tasks i).state = .dead code →
      ∀ j < maxTasks, (k'.tasks j).uid = (k.tasks i).uid →
        (k'.tasks j).state.isFree = true ∧ ¬(k'.userMode = true ∧ k'.current = j) := by
  have good : Tended k.life := run_invariant advance_tended (tended_start boot) calm ran
  refine ⟨fun user => ?_, fun i bound code dead j inside same => ?_⟩
  · have running : (k.tasks k.current).state = .running := good.tended user
    exact ⟨running, fun ctx => timers_preempt ctx _ user running rfl⟩
  · have later : Tended k'.life ∧ Retired (k.tasks i).uid k'.life :=
      run_invariant advance_retired ⟨good, Retired.of_dead good.toSlots bound dead⟩ calm' ran'
    have gone : (k'.tasks j).state.isFree = true := later.2.free inside same
    refine ⟨gone, ?_⟩
    rintro ⟨user, rfl⟩
    have running : (k'.tasks k'.current).state = .running := later.1.tended user
    rw [running] at gone
    cases gone

/-! ## A program on a small machine -/

/-- A machine with room for a few programs. -/
def roomyBoot : Paging := blankBoot 1024

/-- A program that loops: `jmp $`. -/
def looping : Image := .flat [0xeb, 0xfe]

/-- The program is started and runs. -/
def startLooping : List Event := [.spawn (some looping) [] [], .tick fun _ => none]

set_option maxRecDepth 100000 in
theorem run_tended_exit :
    ∃ k k', run advance (Kernel.start roomyBoot) startLooping = some k ∧
      run advance k [.timer .zeroed, .syscall (some .zeroed) (.exit 3)] = some k' ∧
      (k.tasks k.current).state = .running := by
  have ends : (run advance (Kernel.start roomyBoot) (startLooping ++
      [.timer .zeroed, .syscall (some .zeroed) (.exit 3)])).isSome = true := by decide +kernel
  have starts : (run advance (Kernel.start roomyBoot) startLooping).map (·.userMode) =
      some true := by decide +kernel
  obtain ⟨k', whole⟩ := Option.isSome_iff_exists.mp ends
  obtain ⟨k, ran, ran'⟩ := run_split whole
  have user : k.userMode = true := by simpa [ran] using starts
  have calm : Along advance Calm (Kernel.start roomyBoot) startLooping :=
    along_of_forall (by simp [startLooping, Calm, Event.suspends, Event.kills, Event.victim])
  have calm' : Along advance Calm k [.timer .zeroed, .syscall (some .zeroed) (.exit 3)] :=
    along_of_forall (by simp [Calm, Event.suspends, Event.kills, Event.victim])
  exact ⟨k, k', ran, ran', ((run_tended calm ran calm' ran').1 user).1⟩

/-- Two programs are started; the second one runs and kills itself. -/
def startSuicide : List Event :=
  .spawn (some looping) [] [] :: startLooping ++ [.syscall (some .zeroed) (.kill 2 9)]

set_option maxRecDepth 100000 in
/-- After `sigsuspend` a program runs on, marked as asleep, and no timer interrupt
takes the processor from it. A program that kills itself runs on, dead, and is
revived when it goes to sleep. -/
theorem suspended_runs_on :
    (∃ k, run advance (Kernel.start roomyBoot) (startLooping ++
        [.syscall (some .zeroed) (.sigsuspend 0), .timer .zeroed, .timer .zeroed]) = some k ∧
      k.userMode = true ∧ (k.tasks k.current).state = .sleeping ((2 ^ 64 - 1) / 2)) ∧
    ∃ k k', run advance (Kernel.start roomyBoot) startSuicide = some k ∧
      k.userMode = true ∧ (k.tasks k.current).state = .dead 137 ∧ (k.tasks k.current).uid = 2 ∧
      run advance k [.syscall (some .zeroed) (.sleep 0), .tick fun _ => none] = some k' ∧
      (k'.tasks 1).state = .ready ∧ (k'.tasks 1).uid = 2 := by
  constructor
  · have ends : (run advance (Kernel.start roomyBoot) (startLooping ++
        [.syscall (some .zeroed) (.sigsuspend 0), .timer .zeroed, .timer .zeroed])).map (fun k =>
        decide (k.userMode = true ∧
          (k.tasks k.current).state = .sleeping ((2 ^ 64 - 1) / 2))) = some true := by
      decide +kernel
    obtain ⟨k, ran, facts⟩ := Option.map_eq_some_iff.mp ends
    exact ⟨k, ran, of_decide_eq_true facts⟩
  · have middle : (run advance (Kernel.start roomyBoot) startSuicide).map (fun k =>
        decide (k.userMode = true ∧ (k.tasks k.current).state = .dead 137 ∧
          (k.tasks k.current).uid = 2)) = some true := by decide +kernel
    have ends : (run advance (Kernel.start roomyBoot) (startSuicide ++
        [.syscall (some .zeroed) (.sleep 0), .tick fun _ => none])).map (fun k' =>
          decide ((k'.tasks 1).state = .ready ∧ (k'.tasks 1).uid = 2)) = some true := by
      decide +kernel
    obtain ⟨k', whole, last⟩ := Option.map_eq_some_iff.mp ends
    obtain ⟨k, ran, ran'⟩ := run_split whole
    have facts : decide (k.userMode = true ∧ (k.tasks k.current).state = .dead 137 ∧
        (k.tasks k.current).uid = 2) = true := by
      simpa only [ran, Option.map_some, Option.some.injEq] using middle
    obtain ⟨user, dead, uid⟩ := of_decide_eq_true facts
    exact ⟨k, k', ran, user, dead, uid, ran', of_decide_eq_true last⟩

end OxideOS.Sys
