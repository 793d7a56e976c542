import OxideOS.Sys.Outline

/-!
# The tick refines the life cycle of tasks

`Follows` says that one state of the abstract machine `Life` is reached from
another by allowed moves. This module relates the scheduler's updates to those of
`Life` and proves that a tick is a run of it (`tick_follows`). The first four
phases of a tick only wake tasks and collect dead children; `Phase` is what they
have in common, and `Prepared` what is known of pending signals when a task is
chosen. The task chosen dies only of signals that were foreseeable when the tick
began (`FatalIn`).
-/

set_option autoImplicit false

namespace OxideOS.Sys

open Lib Mem Fs Ipc Proc Proc.Kernel
open Prog hiding update

/-! ## Runs of the abstract machine -/

/-- `L'` is reached from `L` by moves that are all `ok`. -/
def Follows (ok : Life → Move → Prop) (L L' : Life) : Prop :=
  ∃ moves, run Life.step L moves = some L' ∧ Along Life.step ok L moves

namespace Follows

variable {ok : Life → Move → Prop} {L L' L'' : Life}

theorem refl (L : Life) : Follows ok L L := ⟨[], rfl, trivial⟩

theorem of_eq (same : L' = L) : Follows ok L L' := by
  rw [same]
  exact refl L

theorem trans (first : Follows ok L L') (second : Follows ok L' L'') : Follows ok L L'' := by
  obtain ⟨moves, ran, along⟩ := first
  obtain ⟨more, ran', along'⟩ := second
  exact ⟨moves ++ more, run_append ran ran', along_append along ran along'⟩

theorem one {m : Move} (allowed : ok L m) (moved : L.step m = some L') : Follows ok L L' :=
  ⟨[m], run_cons.mpr ⟨L', moved, rfl⟩, allowed, fun _ _ => trivial⟩

/-- What every allowed move preserves is preserved. -/
theorem preserves {I : Life → Prop}
    (step : ∀ {L m L'}, I L → ok L m → Life.step L m = some L' → I L')
    (follows : Follows ok L L') (initially : I L) : I L' := by
  obtain ⟨moves, ran, along⟩ := follows
  exact run_invariant step initially along ran

end Follows

/-- The moves that are never restricted. -/
def benign : Move → Bool
  | .choose _ | .suspend _ | .exit _ | .fatal _ | .kill _ _ | .spawn _ _ | .fork _ _ => false
  | _ => true

/-! ## What a procedure of the kernel settles to -/

/-- Whatever becomes of the system after `c`, `P` holds of it. -/
def Settles {α : Type} (c : Kern α) (P : Kernel → Prop) (k : Kernel) : Prop :=
  ∀ k', settle (c k) = some k' → P k'

namespace Settles

variable {α : Type} {c : Kern α} {P : Kernel → Prop} {k : Kernel}

theorem of_wp (holds : wp c (fun _ k' => P k')
    (fun e k' => ∀ code, e = .exitToKernel code → P (k'.finishSlice code)) k) : Settles c P k := by
  intro k' settled
  unfold wp at holds
  cases result : c k with
  | mk outcome k₁ =>
    rw [result] at holds settled
    cases outcome with
    | ok a =>
      cases settled
      exact holds
    | error e =>
      cases e with
      | exitToKernel code =>
        cases settled
        exact holds code rfl
      | halt => cases settled

/-- A procedure that always returns, unless it stops the system. -/
theorem of_returns (holds : wp c (fun _ k' => P k') (fun e _ => Halts e) k) :
    Settles c P k := by
  refine of_wp (wp_mono (fun _ _ good => good) (fun e k' stopped code left => ?_) holds)
  exact absurd (stopped.symm.trans left) (by simp)

theorem of_ok {a : α} {k₁ : Kernel} (result : c k = (.ok a, k₁)) (holds : P k₁) :
    Settles c P k := by
  intro k' settled
  rw [result] at settled
  cases settled
  exact holds

theorem congr {c' : Kern α} (same : c k = c' k) (settles : Settles c' P k) : Settles c P k := by
  intro k' settled
  rw [same] at settled
  exact settles k' settled

/-- A procedure that keeps the life cycle does nothing to it. -/
theorem of_keeps {ok : Life → Move → Prop} (kept : Prog.Keeps Kernel.life Halts c) (k : Kernel) :
    Settles c (fun k' => Follows ok k.life k'.life) k :=
  of_returns (wp_mono (fun _ _ same => .of_eq same) (fun _ _ stopped => stopped.2) (kept.spec k))

end Settles

/-! ## The kernel's updates as updates of the life cycle -/

section Updates

variable (k : Kernel)

theorem life_setState (i : Nat) (s : TaskState) : (k.setState i s).life = k.life.setState i s :=
  life_setTask ..

theorem life_setDead (i : Nat) (code : Int) : (k.setDead i code).life = k.life.die i code := by
  show ((k.setState i (.dead code)).life).note _ = _
  rw [life_setState]
  rfl

theorem life_freeSpace (i : Nat) : (k.freeSpace i).life = k.life.free i := by
  unfold freeSpace
  dsimp only
  split
  · next none =>
      have same : ({ k.life.slots i with cr3 := 0 } : Slot) = k.life.slots i :=
        congrArg (fun cr3 => ({ k.life.slots i with cr3 := cr3 } : Slot)) none.symm
      rw [Life.free, same, Life.setSlot, Function.update_eq_self]
  · exact life_setTask ..

theorem life_reap (parent j : Nat) (code : Int) :
    (k.reap parent j code).life = k.life.bury parent j code := by
  have emptied : (k.modifyTask j fun t =>
      { t with state := .empty, pid := 0, parentPid := 0 }).life =
      k.life.setSlot j { k.life.slots j with state := .empty, pid := 0, parentPid := 0 } :=
    life_setTask ..
  exact congrArg (fun L : Life => L.note _) emptied

end Updates

/-! ## Signals -/

/-- What `sendSignal` does: nothing, a kill, or a pending signal that wakes a
sleeper. -/
theorem sendSignal_cases (pid signum : Nat) (k : Kernel) :
    sendSignal pid signum k = (false, k) ∨
      ∃ i, k.findPid pid = some i ∧ (k.tasks i).live = true ∧
        (signum = sigkill ∧ sendSignal pid signum k = (true, k.setDead i (128 + signum)) ∨
          signum ≠ sigkill ∧ sendSignal pid signum k = (true, k.modifyTask i fun t =>
            { t with
              pendingSignals := t.pendingSignals ||| sigBit signum
              state := if t.state.isSleeping then .ready else t.state })) := by
  unfold sendSignal
  split
  · exact .inl rfl
  · split
    · exact .inl rfl
    · next i found =>
        split
        · exact .inl rfl
        · next alive =>
            refine .inr ⟨i, found, by simpa [Task.live] using alive, ?_⟩
            split
            · next isKill => exact .inl ⟨isKill, rfl⟩
            · next notKill => exact .inr ⟨notKill, rfl⟩

/-- Raising a signal is seen as waking a sleeper. -/
theorem life_raise (k : Kernel) (i : Nat) (bit : BitVec 32) :
    (k.modifyTask i fun t =>
      { t with
        pendingSignals := t.pendingSignals ||| bit
        state := if t.state.isSleeping then .ready else t.state }).life = k.life.rouse i :=
  life_setTask ..

variable {ok : Life → Move → Prop}

theorem rouse_follows (allowed : ∀ L m, benign m = true → ok L m) (L : Life) {i : Nat}
    (bound : i < maxTasks) : Follows ok L (L.rouse i) := by
  by_cases asleep : (L.slots i).state.isSleeping = true
  · have blocked : Life.isBlocked (L.slots i).state = true := by
      cases state : (L.slots i).state <;> simp [state, TaskState.isSleeping] at asleep
      rfl
    have woken : L.rouse i = L.setState i .ready := by simp [Life.rouse, asleep]
    refine .one (m := .wake i) (allowed _ _ rfl) ?_
    rw [woken]
    exact if_pos ⟨bound, blocked⟩
  · have same : L.rouse i = L := by
      have unchanged : Function.update L.slots i (L.slots i) = L.slots :=
        Function.update_eq_self i L.slots
      simp only [Life.rouse, Life.setState, Life.setSlot, if_neg asleep]
      rw [unchanged]
    exact .of_eq same

theorem sendSignal_follows (allowed : ∀ L m, benign m = true → ok L m) (pid signum : Nat)
    (k : Kernel)
    (kill : signum = sigkill → ∀ i code, k.findPid pid = some i → (k.tasks i).live = true →
      ok k.life (.kill i code)) :
    Follows ok k.life (sendSignal pid signum k).2.life := by
  rcases sendSignal_cases pid signum k with nothing | ⟨i, found, alive, effect⟩
  · rw [nothing]
    exact .refl _
  · have bound : i < maxTasks := (firstBelow_eq_some found).1
    rcases effect with ⟨isKill, result⟩ | ⟨_, result⟩
    · rw [result]
      refine .one (kill isKill i (128 + signum) found alive) ?_
      show (if i < maxTasks ∧ (k.life.slots i).live = true then _ else none) = _
      rw [if_pos ⟨bound, alive⟩, life_setDead]
    · rw [result, life_raise]
      exact rouse_follows allowed k.life bound

/-! ## Leaving user mode -/

theorem finishSlice_preempted (k : Kernel) :
    (k.finishSlice exitPreempted).life =
      { k.life.setState k.current .ready with userMode := false } := by
  have preempted : k.finishSlice exitPreempted =
      ({ k with userMode := false } : Kernel).setState k.current .ready := rfl
  rw [preempted, life_setState]
  rfl

theorem finishSlice_sleeping (k : Kernel) :
    k.finishSlice exitSleeping = { k with userMode := false } := by
  have different : exitSleeping ≠ exitPreempted := by decide
  simp [finishSlice, different]

theorem life_notifyParent (k : Kernel) (parentPid child : Nat) :
    (k.notifyParent parentPid child).life = k.life.notify parentPid child := by
  have same : k.life.findPid parentPid = k.findPid parentPid := rfl
  unfold notifyParent Life.notify
  rw [same]
  rcases sendSignal_cases parentPid sigchld k with nothing | ⟨i, found, alive, effect⟩
  · rw [nothing]
    cases found : k.findPid parentPid with
    | none => rfl
    | some i =>
      by_cases dead : (k.tasks i).state.isFree = true
      · exact (if_pos dead).symm
      · simp [sendSignal, found, dead, sigchld, sigkill, nsig] at nothing
  · have stays : ¬(k.life.slots i).state.isFree = true := by
      have living : (k.tasks i).state.isFree = false := by simpa [Task.live] using alive
      exact ne_true_of_eq_false living
    rcases effect with ⟨isKill, -⟩ | ⟨-, result⟩
    · exact absurd isKill (by decide)
    · rw [result, found]
      dsimp only
      rw [if_neg stays]
      exact congrArg (fun L : Life => L.note _) (life_raise k i (sigBit sigchld))

/-- Any other code ends the task. -/
theorem finishSlice_dead (k : Kernel) {code : Int} (real : code ≠ exitPreempted)
    (final : code ≠ exitSleeping) : (k.finishSlice code).life = k.life.finish code := by
  have freed : ((({ k with userMode := false } : Kernel).setDead k.current code).freeSpace
      k.current).life = (({ k.life with userMode := false } : Life).die k.current code).free
        k.current := by
    rw [life_freeSpace, life_setDead]
    rfl
  have parentPid : (k.life.slots k.current).parentPid = (k.tasks k.current).parentPid := rfl
  simp only [finishSlice, if_neg real, if_neg final]
  show _ = (if (k.life.slots k.current).parentPid ≠ 0 then _ else _)
  rw [parentPid]
  split
  · rw [life_notifyParent, freed]
    rfl
  · exact freed

/-! ## The tick -/

/-- Who a task is, whether it is alive, its address space, and how it takes signals. -/
def watch (t : Task) : Bool × Nat × Nat × Nat × BitVec 32 × (Nat → Nat) :=
  (t.live, t.uid, t.parentUid, t.cr3, t.signalMask, t.signalHandlers)

/-- What a change of one task does not touch in it is touched in no task. -/
theorem modifyTask_same {β : Type} (g : Task → β) {k : Kernel} {i : Nat} {f : Task → Task}
    (same : g (f (k.tasks i)) = g (k.tasks i)) (j : Nat) :
    g ((k.modifyTask i f).tasks j) = g (k.tasks j) := by
  by_cases here : j = i
  · subst here
    rw [Kernel.modifyTask, setTask_self, same]
  · rw [Kernel.modifyTask, setTask_of_ne k _ here]

/-- From `k` to `k'` tasks have only been woken and dead children collected. -/
structure Phase (ok : Life → Move → Prop) (k k' : Kernel) : Prop where
  follows : Follows ok k.life k'.life
  watch : ∀ j, watch (k'.tasks j) = watch (k.tasks j)
  mode : k'.userMode = k.userMode

/-- A phase that leaves pending signals and alarms alone. -/
structure QuietPhase (ok : Life → Move → Prop) (k k' : Kernel) : Prop extends Phase ok k k' where
  signals : ∀ j, (k'.tasks j).pendingSignals = (k.tasks j).pendingSignals ∧
    (k'.tasks j).alarmDeadline = (k.tasks j).alarmDeadline

section Phases

variable {k k' k'' : Kernel}

theorem Phase.trans (first : Phase ok k k') (second : Phase ok k' k'') : Phase ok k k'' where
  follows := first.follows.trans second.follows
  watch j := (second.watch j).trans (first.watch j)
  mode := second.mode.trans first.mode

theorem QuietPhase.refl (k : Kernel) : QuietPhase ok k k :=
  ⟨⟨.refl _, fun _ => rfl, rfl⟩, fun _ => ⟨rfl, rfl⟩⟩

theorem QuietPhase.trans (first : QuietPhase ok k k') (second : QuietPhase ok k' k'') :
    QuietPhase ok k k'' :=
  ⟨first.toPhase.trans second.toPhase, fun j =>
    ⟨(second.signals j).1.trans (first.signals j).1,
      (second.signals j).2.trans (first.signals j).2⟩⟩

theorem watch_eq {t t' : Task} (live : t'.live = t.live) (uid : t'.uid = t.uid)
    (parentUid : t'.parentUid = t.parentUid) (cr3 : t'.cr3 = t.cr3)
    (mask : t'.signalMask = t.signalMask) (handlers : t'.signalHandlers = t.signalHandlers) :
    watch t' = watch t := by
  simp only [watch, live, uid, parentUid, cr3, mask, handlers]

theorem live_of_state {s : TaskState} {t : Task} (state : t.state = s) (alive : s.isFree = false) :
    t.live = true := by
  simp [Task.live, state, alive]

/-- A task that waits for a message is made ready with it, or nothing is done. -/
theorem wakeForMsg_wp {P : Kernel → Prop} (messages : Nat → Option (List UInt8)) {i : Nat}
    (same : P k) (woken : ∀ queue msgPtr p, (k.tasks i).state = .waitingForMsg queue msgPtr →
      P ({ k with paging := p }.modifyTask i fun t =>
        { t with ctx := { t.ctx with rax := 0 }, state := .ready })) :
    wp (wakeForMsg messages i) (fun _ k' => P k') (fun e k' => P k' ∧ Halts e) k := by
  unfold wakeForMsg
  rw [wp_bind, wp_gets]
  dsimp only [id]
  split
  · next queue msgPtr bytes state _ =>
      rw [wp_bind]
      unfold wp Kernel.copyToRegionIn
      cases k.paging.copyToRegionIn k.paging.l4TablePhys msgPtr (bytes.take messageSize) with
      | none => exact ⟨same, rfl⟩
      | some p => exact woken queue msgPtr p state
  · exact same

section

variable (allowed : ∀ L m, benign m = true → ok L m)
include allowed

/-- Making a blocked task ready, with some change to its registers. -/
theorem QuietPhase.wake {i : Nat}
    (bound : i < maxTasks) (blocked : Life.isBlocked (k.tasks i).state = true)
    (ctx : TaskContext → TaskContext) :
    QuietPhase ok k (k.modifyTask i fun t => { t with ctx := ctx t.ctx, state := .ready }) := by
  have life : (k.modifyTask i fun t => { t with ctx := ctx t.ctx, state := .ready }).life =
      k.life.setState i .ready := life_setTask ..
  have alive : (k.tasks i).live = true := by
    cases state : (k.tasks i).state <;> simp [state, Life.isBlocked] at blocked <;>
      exact live_of_state state rfl
  refine ⟨⟨?_, modifyTask_same _ (watch_eq alive.symm rfl rfl rfl rfl rfl), rfl⟩, fun j => ⟨?_, ?_⟩⟩
  · rw [life]
    exact .one (m := .wake i) (allowed _ _ rfl) (if_pos ⟨bound, blocked⟩)
  · exact modifyTask_same (·.pendingSignals) rfl j
  · exact modifyTask_same (·.alarmDeadline) rfl j

theorem wakeSleeper_phase (now : Nat) {i : Nat}
    (bound : i < maxTasks) (k : Kernel) : QuietPhase ok k (wakeSleeper now i k) := by
  unfold wakeSleeper
  split
  · next wake state =>
      split
      · exact .wake allowed bound (by rw [state]; rfl) id
      · exact .refl k
  · exact .refl k

theorem wakeForMsg_phase
    (messages : Nat → Option (List UInt8)) {i : Nat} (bound : i < maxTasks) (k : Kernel) :
    wp (wakeForMsg messages i) (fun _ k' => QuietPhase ok k k') (fun e _ => Halts e) k := by
  refine wp_mono (fun _ _ phase => phase) (fun _ _ stopped => stopped.2)
    (wakeForMsg_wp messages (.refl k) fun queue msgPtr p state => ?_)
  have stored : QuietPhase ok k { k with paging := p } :=
    ⟨⟨.refl _, fun _ => rfl, rfl⟩, fun _ => ⟨rfl, rfl⟩⟩
  refine stored.trans (.wake allowed bound ?_ fun ctx => { ctx with rax := 0 })
  show Life.isBlocked (k.tasks i).state = true
  rw [state]
  rfl

theorem wakeParent_phase {i : Nat}
    (bound : i < maxTasks) (kernel : k.userMode = false) : QuietPhase ok k (wakeParent i k) := by
  unfold wakeParent
  split
  · next childPid waits =>
      split
      · exact .refl k
      · next j found =>
          split
          · next code dead =>
              obtain ⟨boundJ, pid, -⟩ := firstBelow_eq_some found
              have different : j ≠ i := by
                rintro rfl
                rw [waits] at dead
                cases dead
              generalize woken : (k.modifyTask i fun t => { t with
                ctx := { t.ctx with rax := (code % 2 ^ 64).toNat }, state := .ready }) = k₁
              have life : k₁.life = k.life.setState i .ready := by
                rw [← woken]
                exact life_setTask ..
              have waiter : ∀ {β : Type} (g : Task → β), (∀ t : Task, t.live = true →
                  g { t with ctx := { t.ctx with rax := (code % 2 ^ 64).toNat },
                             state := .ready } = g t) → ∀ l, g (k₁.tasks l) = g (k.tasks l) := by
                intro β g same l
                rw [← woken]
                exact modifyTask_same g (same _ (live_of_state waits rfl)) l
              have child : ∀ {β : Type} (g : Task → β), (∀ t : Task, t.live = false →
                  g { t with state := .empty, pid := 0, parentPid := 0 } = g t) →
                  ∀ l, g ((k₁.reap i j code).tasks l) = g (k₁.tasks l) := by
                intro β g same l
                have emptied : (k₁.reap i j code).tasks = (k₁.modifyTask j fun t =>
                  { t with state := .empty, pid := 0, parentPid := 0 }).tasks := rfl
                rw [emptied]
                refine modifyTask_same g (same _ ?_) l
                rw [← woken, Kernel.modifyTask, setTask_of_ne k _ different]
                simp [Task.live, dead, TaskState.isFree]
              refine ⟨⟨?_, fun l => ?_, ?_⟩, fun l => ⟨?_, ?_⟩⟩
              · rw [life_reap, life]
                refine .one (m := .collect i j code) (allowed _ _ rfl) (if_pos ?_)
                refine ⟨kernel, bound, boundJ, waits.trans ?_, dead⟩
                exact congrArg TaskState.waiting (by simpa using pid : (k.tasks j).pid = _).symm
              · exact (child watch (fun t gone => watch_eq gone.symm rfl rfl rfl rfl rfl) l).trans
                  (waiter watch (fun t alive => watch_eq alive.symm rfl rfl rfl rfl rfl) l)
              · rw [← woken]
                rfl
              · exact (child (·.pendingSignals) (fun _ _ => rfl) l).trans
                  (waiter (·.pendingSignals) (fun _ _ => rfl) l)
              · exact (child (·.alarmDeadline) (fun _ _ => rfl) l).trans
                  (waiter (·.alarmDeadline) (fun _ _ => rfl) l)
          · exact .refl k
  · exact .refl k

end

/-! ### Alarms -/

/-- The signals pending after the alarm of `t`, if it is due, has gone off. -/
def duePending (now : Nat) (t : Task) : BitVec 32 :=
  if t.alarmDeadline ≠ 0 ∧ t.alarmDeadline ≤ now then t.pendingSignals ||| sigBit sigalrm
  else t.pendingSignals

theorem setAlarm_phase (k : Kernel) (i deadline : Nat) :
    Phase ok k (k.modifyTask i fun t => { t with alarmDeadline := deadline }) :=
  ⟨.of_eq (life_modifyTask rfl), modifyTask_same _ (watch_eq rfl rfl rfl rfl rfl rfl), rfl⟩

section

variable (allowed : ∀ L m, benign m = true → ok L m)
include allowed

theorem raise_phase {i : Nat} (bound : i < maxTasks)
    (alive : (k.tasks i).live = true) (bit : BitVec 32) :
    Phase ok k (k.modifyTask i fun t => { t with
        pendingSignals := t.pendingSignals ||| bit
        state := if t.state.isSleeping then .ready else t.state }) := by
  refine ⟨?_, modifyTask_same _ (watch_eq ?_ rfl rfl rfl rfl rfl), rfl⟩
  · rw [life_raise]
    exact rouse_follows allowed k.life bound
  · rw [alive]
    show (!(if (k.tasks i).state.isSleeping then TaskState.ready else
      (k.tasks i).state).isFree) = true
    split
    · rfl
    · exact alive

/-- The alarm of slot `i` concerns slot `i` only. -/
theorem fireAlarm_phase (now : Nat) {i : Nat} (bound : i < maxTasks) (slots : Slots k.life) :
    Phase ok k (fireAlarm now i k) ∧ (∀ j, j ≠ i → (fireAlarm now i k).tasks j = k.tasks j) ∧
      ((k.tasks i).live = true →
        ((fireAlarm now i k).tasks i).pendingSignals = duePending now (k.tasks i)) := by
  unfold fireAlarm duePending
  dsimp only
  split
  · next due =>
      generalize cleared : (k.modifyTask i fun t => { t with alarmDeadline := 0 }) = k₁
      have phase : Phase ok k k₁ := cleared ▸ setAlarm_phase k i 0
      have others : ∀ j, j ≠ i → k₁.tasks j = k.tasks j := by
        intro j different
        rw [← cleared, Kernel.modifyTask, setTask_of_ne k _ different]
      have here : k₁.tasks i = { k.tasks i with alarmDeadline := 0 } := by
        rw [← cleared, Kernel.modifyTask, setTask_self]
      have slots₁ : Slots k₁.life := phase.follows.preserves (fun s _ => s.step) slots
      have live₁ : (k₁.tasks i).live = (k.tasks i).live := by rw [here]; rfl
      have pid₁ : (k₁.tasks i).pid = (k.tasks i).pid := by rw [here]
      split
      · next numbered =>
          rcases sendSignal_cases (k.tasks i).pid sigalrm k₁ with
            nothing | ⟨l, found, alive, effect⟩
          · rw [nothing]
            refine ⟨phase, others, fun alive => ?_⟩
            have taken : (k₁.life.slots i).Taken := .of_live (live₁.trans alive)
            have pid : (k.tasks i).pid = i + 1 := pid₁.symm.trans (slots₁.pid bound taken)
            have found : k₁.findPid (i + 1) = some i := slots₁.findPid bound taken
            have awake : (k₁.tasks i).state.isFree = false := by
              simpa [Task.live] using live₁.trans alive
            simp [sendSignal, pid, found, awake, sigalrm, sigkill, nsig] at nothing
          · obtain ⟨boundL, pidL, -⟩ := firstBelow_eq_some found
            have same : l = i := by
              have takenL : (k₁.life.slots l).Taken := .of_live alive
              have pid : (k₁.life.slots l).pid = (k.tasks i).pid := of_decide_eq_true pidL
              have takenI : (k₁.life.slots i).Taken := by
                by_contra empty
                exact numbered (pid₁.symm.trans (slots₁.empty_pid bound empty).1)
              have pidI : (k₁.life.slots i).pid = (k.tasks i).pid := pid₁
              rw [slots₁.pid boundL takenL] at pid
              rw [slots₁.pid bound takenI] at pidI
              omega
            subst same
            rcases effect with ⟨isKill, -⟩ | ⟨-, result⟩
            · exact absurd isKill (by decide)
            · rw [result]
              refine ⟨phase.trans (raise_phase allowed bound alive _), ?_, fun _ => ?_⟩
              · intro j different
                rw [Kernel.modifyTask, setTask_of_ne k₁ _ different, others j different]
              · rw [Kernel.modifyTask, setTask_self, here]
      · next anonymous =>
          refine ⟨phase, others, fun alive => ?_⟩
          have taken : (k.life.slots i).Taken := .of_live alive
          have pid : (k.tasks i).pid = i + 1 := slots.pid bound taken
          exact absurd (by omega) anonymous
  · next notDue => exact ⟨(QuietPhase.refl k).toPhase, fun _ _ => rfl, fun _ => rfl⟩

/-- All alarms that are due go off. -/
theorem fireAlarms_phase (now : Nat) (slots : Slots k.life) :
    Phase ok k (loop (fireAlarm now) 0 maxTasks k) ∧
      ∀ j, j < maxTasks → (k.tasks j).live = true →
        ((loop (fireAlarm now) 0 maxTasks k).tasks j).pendingSignals =
          duePending now (k.tasks j) := by
  let passed (n : Nat) (k' : Kernel) : Prop :=
    Phase ok k k' ∧ (∀ j, n ≤ j → k'.tasks j = k.tasks j) ∧
      ∀ j, j < n → (k.tasks j).live = true →
        (k'.tasks j).pendingSignals = duePending now (k.tasks j)
  have initially : passed 0 k :=
    ⟨(QuietPhase.refl k).toPhase, fun _ _ => rfl, fun j below => absurd below (by omega)⟩
  have all : passed maxTasks (loop (fireAlarm now) 0 maxTasks k) := by
    refine loop_zero_invariant passed ?_ initially
    rintro n k' bound ⟨phase, ahead, behind⟩
    have slots' : Slots k'.life := phase.follows.preserves (fun s _ => s.step) slots
    obtain ⟨phase', others, here⟩ := fireAlarm_phase allowed now bound slots'
    refine ⟨phase.trans phase', fun j above => ?_, fun j below alive => ?_⟩
    · rw [others j (by omega), ahead j (by omega)]
    · by_cases last : j = n
      · subst last
        rw [ahead j (le_refl j)] at here
        exact here alive
      · rw [others j last]
        exact behind j (by omega) alive
  exact ⟨all.1, all.2.2⟩

theorem wakeSleepers_phase (now : Nat) (k : Kernel) :
    QuietPhase ok k (loop (wakeSleeper now) 0 maxTasks k) :=
  loop_zero_invariant (fun _ k' => QuietPhase ok k k')
    (fun _ k' bound phase => phase.trans (wakeSleeper_phase allowed now bound k')) (.refl k)

theorem wakeForMsgs_phase (messages : Nat → Option (List UInt8)) (k : Kernel) :
    wp (Prog.forRange (wakeForMsg messages) 0 maxTasks) (fun _ k' => QuietPhase ok k k')
      (fun e _ => Halts e) k := by
  refine wp_forRange_zero (fun _ k' => QuietPhase ok k k') ?_ (.refl k)
  intro n k' bound phase
  refine wp_mono (fun _ _ next => phase.trans next) (fun _ _ stopped => stopped) ?_
  exact wakeForMsg_phase allowed messages bound k'

theorem wakeParents_phase
    (kernel : k.userMode = false) : QuietPhase ok k (loop wakeParent 0 maxTasks k) := by
  refine loop_zero_invariant (fun _ k' => QuietPhase ok k k') ?_ (.refl k)
  intro n k' bound phase
  exact phase.trans (wakeParent_phase allowed bound (phase.mode.trans kernel))

end

end Phases

/-! ### Delivery -/

/-- The task would die of its signals at a tick at time `now`. -/
def deadly (now : Nat) (t : Task) : Bool :=
  match signalAction t.signalHandlers
    (bitsOf { t with pendingSignals := duePending now t }.deliverable) with
  | .terminate _ => true
  | _ => false

/-- From `k` to `k'` task `idx` has got its signals: it lives on, or it has died of one. -/
def Served (idx : Nat) (k : Kernel) (killed : Bool) (k' : Kernel) : Prop :=
  killed = false ∧ k'.life = k.life ∨
  killed = true ∧ k'.paging = k.paging ∧ ∃ signum : Nat,
    k'.life = k.life.die idx (128 + signum) ∧
    signalAction (k.tasks idx).signalHandlers (bitsOf (k.tasks idx).deliverable) = .terminate signum

theorem deliverPendingSignals_spec (idx : Nat) (k : Kernel) :
    wp (deliverPendingSignals idx) (Served idx k) (fun e _ => Halts e) k := by
  have cleared : ∀ set : BitVec 32, (k.modifyTask idx fun t =>
      { t with pendingSignals := t.pendingSignals &&& ~~~set }).life = k.life := by
    intro set
    exact life_modifyTask rfl
  unfold deliverPendingSignals
  rw [wp_bind, wp_gets]
  dsimp only
  split
  · exact .inl ⟨rfl, rfl⟩
  · rw [wp_bind, wp_update]
    generalize keeps : (k.modifyTask idx fun t => { t with pendingSignals :=
      t.pendingSignals &&& ~~~(k.tasks idx).deliverable }) = k₁
    have life : k₁.life = k.life := keeps ▸ cleared (k.tasks idx).deliverable
    have paging : k₁.paging = k.paging := by
      rw [← keeps]
      rfl
    split
    · exact .inl ⟨rfl, life⟩
    · next signum action =>
        rw [wp_bind, wp_update]
        refine .inr ⟨rfl, paging, signum, ?_, action⟩
        rw [life_setDead, life]
    · next signum handler action =>
        generalize wordBytes userSigtramp = trampoline
        rw [wp_bind]
        refine wp_mono (fun _ k₂ same => ?_) (fun _ _ stopped => stopped.2)
          ((copyToRegionIn_keeps _ _ _).spec k₁)
        rw [wp_bind]
        refine wp_mono (fun _ k₃ same' => ?_) (fun _ _ stopped => stopped.2)
          ((copyToRegionIn_keeps _ _ _).spec k₂)
        rw [wp_bind, wp_update]
        refine .inl ⟨rfl, ?_⟩
        have entered : (k₃.modifyTask idx fun t =>
            { t with ctx := { t.ctx with
                rsp := handlerFrame (k.tasks idx).ctx.rsp, rip := handler, rdi := signum } }).life =
              k₃.life := life_modifyTask rfl
        exact entered.trans ((congrArg (fun s => s.1.1) (same'.trans same)).trans life)

theorem deliverIfPending_spec (idx : Nat) (k : Kernel) :
    wp (deliverIfPending idx) (Served idx k) (fun e _ => Halts e) k := by
  unfold deliverIfPending
  rw [wp_bind, wp_gets]
  split
  · exact .inl ⟨rfl, rfl⟩
  · exact deliverPendingSignals_spec idx k

/-- The state of a tick when a task is chosen: alarms have gone off, and nothing
else has happened to the signals of the living. -/
structure Prepared (ok : Life → Move → Prop) (k k' : Kernel) : Prop extends Phase ok k k' where
  pending : ∀ j, j < maxTasks → (k.tasks j).live = true →
    (k'.tasks j).pendingSignals = duePending k.ticks (k.tasks j)

namespace Prepared

variable {k k' k'' : Kernel}

theorem of_phases {now : Nat} {k₁ k₂ : Kernel} (isNow : now = k.ticks)
    (sleepers : QuietPhase ok k k₁) (alarms : Phase ok k₁ k₂)
    (due : ∀ j, j < maxTasks → (k₁.tasks j).live = true →
      (k₂.tasks j).pendingSignals = duePending now (k₁.tasks j)) : Prepared ok k k₂ := by
  refine ⟨sleepers.toPhase.trans alarms, fun j bound alive => ?_⟩
  have live : (k₁.tasks j).live = (k.tasks j).live := congrArg Prod.fst (sleepers.watch j)
  have same : duePending now (k₁.tasks j) = duePending now (k.tasks j) := by
    simp only [duePending, (sleepers.signals j).1, (sleepers.signals j).2]
  rw [due j bound (live.trans alive), same, isNow]

theorem quiet (ready : Prepared ok k k') (next : QuietPhase ok k' k'') : Prepared ok k k'' :=
  ⟨ready.toPhase.trans next.toPhase, fun j bound alive =>
    (next.signals j).1.trans (ready.pending j bound alive)⟩

/-- The signals about to be delivered are those foreseen at the start. -/
theorem deadly (ready : Prepared ok k k') {i signum : Nat} (bound : i < maxTasks)
    (alive : (k.tasks i).live = true)
    (action : signalAction (k'.tasks i).signalHandlers (bitsOf (k'.tasks i).deliverable) =
      .terminate signum) : deadly k.ticks (k.tasks i) = true := by
  have mask : (k'.tasks i).signalMask = (k.tasks i).signalMask :=
    congrArg (fun w => w.2.2.2.2.1) (ready.watch i)
  have handlers : (k'.tasks i).signalHandlers = (k.tasks i).signalHandlers :=
    congrArg (fun w => w.2.2.2.2.2) (ready.watch i)
  have deliverable : (k'.tasks i).deliverable =
      { k.tasks i with pendingSignals := duePending k.ticks (k.tasks i) }.deliverable := by
    simp only [Task.deliverable, mask, ready.pending i bound alive]
  rw [handlers, deliverable] at action
  simp only [Sys.deadly, action]

end Prepared

/-- `L` is what a tick has made of `k` when it is about to end the task it has
chosen: the same tasks are alive, and the current one dies of its signals. -/
structure FatalIn (k : Kernel) (L : Life) : Prop where
  live : ∀ j, (L.slots j).live = (k.tasks j).live
  uid : ∀ j, (L.slots j).uid = (k.tasks j).uid
  parentUid : ∀ j, (L.slots j).parentUid = (k.tasks j).parentUid
  current_lt : L.current < maxTasks
  alive : (k.tasks L.current).live = true
  deadly : deadly k.ticks (k.tasks L.current) = true

theorem nextReady_eq_some {k : Kernel} {idx : Nat} (chosen : nextReady k = some idx) :
    idx < maxTasks ∧ (k.tasks idx).state = .ready := by
  obtain ⟨i, found, rfl⟩ := Option.map_eq_some_iff.mp chosen
  obtain ⟨-, ready, -⟩ := firstBelow_eq_some found
  exact ⟨Nat.mod_lt _ (by decide), by simpa using ready⟩

/-- The tick up to the choice of a task. -/
def prepare (messages : Nat → Option (List UInt8)) : Kern PUnit := do
  let now ← Prog.gets (·.ticks)
  Prog.update (loop (wakeSleeper now) 0 maxTasks)
  Prog.update (loop (fireAlarm now) 0 maxTasks)
  Prog.forRange (wakeForMsg messages) 0 maxTasks
  Prog.update (loop wakeParent 0 maxTasks)

/-- The delivery stands between the preparation and the resumption. -/
theorem tick_eq (messages : Nat → Option (List UInt8)) :
    tick messages = (do
      prepare messages
      match ← Prog.gets nextReady with
      | none => return ⟨⟩
      | some idx => do
          Prog.update fun k => { k with current := idx }
          let killed ← deliverIfPending idx
          if killed then Prog.update (·.freeSpace idx) else Prog.update (resume idx)) := by
  unfold prepare
  simp only [bind_assoc]
  rfl

theorem wakeForMsg_halts (messages : Nat → Option (List UInt8)) (i : Nat) :
    Leads (fun _ _ => True) (fun e _ => Halts e) (wakeForMsg messages i) :=
  ⟨fun _ => wakeForMsg_wp messages trivial fun _ _ _ _ => trivial⟩

theorem prepare_halts (messages : Nat → Option (List UInt8)) :
    Leads (fun _ _ => True) (fun e _ => Halts e) (prepare messages) := by
  refine .bind (.gets _) fun now => ?_
  refine .bind (.update fun _ => trivial) fun _ => .bind (.update fun _ => trivial) fun _ => ?_
  exact .bind (.forRange (wakeForMsg_halts messages) 0 maxTasks) fun _ => .update fun _ => trivial

attribute [irreducible] prepare

/-- The state of a tick when it selects a task; `none` if the system has stopped. -/
def selectionPoint (messages : Nat → Option (List UInt8)) (k : Kernel) : Option Kernel :=
  match prepare messages k with
  | (.ok _, k') => some k'
  | (.error _, _) => none

theorem selectionPoint_eq_some {messages : Nat → Option (List UInt8)} {k k' : Kernel} :
    selectionPoint messages k = some k' ↔ prepare messages k = (.ok ⟨⟩, k') := by
  unfold selectionPoint
  rcases prepare messages k with ⟨e | ⟨⟩, k₁⟩ <;> simp

theorem prepare_spec (allowed : ∀ L m, benign m = true → ok L m) {k : Kernel}
    (slots : Slots k.life) (kernel : k.userMode = false) (messages : Nat → Option (List UInt8)) :
    wp (prepare messages) (fun _ k' => Prepared ok k k') (fun e _ => Halts e) k := by
  have sleepers := wakeSleepers_phase allowed k.ticks k
  unfold prepare
  rw [wp_bind, wp_gets, wp_bind, wp_update, wp_bind, wp_update,
    wp_bind]
  generalize loop (wakeSleeper k.ticks) 0 maxTasks k = k₁ at sleepers ⊢
  have slots₁ : Slots k₁.life := sleepers.follows.preserves (fun s _ => s.step) slots
  have fired := fireAlarms_phase allowed k.ticks slots₁
  have prepared := Prepared.of_phases rfl sleepers fired.1 fired.2
  generalize loop (fireAlarm k.ticks) 0 maxTasks k₁ = k₂ at prepared ⊢
  refine wp_mono (fun _ k₃ messaged => ?_) (fun _ _ stopped => stopped)
    (wakeForMsgs_phase allowed messages k₂)
  have prepared₃ := prepared.quiet messaged
  exact prepared₃.quiet (wakeParents_phase allowed (prepared₃.mode.trans kernel))

theorem selectionPoint_prepared (allowed : ∀ L m, benign m = true → ok L m) {k k' : Kernel}
    (slots : Slots k.life) (kernel : k.userMode = false) {messages : Nat → Option (List UInt8)}
    (reached : selectionPoint messages k = some k') : Prepared ok k k' := by
  have spec := prepare_spec allowed slots kernel messages
  rwa [wp_ok (selectionPoint_eq_some.mp reached)] at spec

/-- A tick comes to its selection; then nothing happens, or the selected task gets its
signals and is resumed, unless they have killed it. -/
theorem tick_settles {P : Kernel → Prop} {k : Kernel} {messages : Nat → Option (List UInt8)}
    (idle : ∀ k', selectionPoint messages k = some k' → nextReady k' = none → P k')
    (runs : ∀ k' idx, selectionPoint messages k = some k' → nextReady k' = some idx →
      wp (deliverIfPending idx)
        (fun killed k' => P (if killed then k'.freeSpace idx else resume idx k'))
        (fun e _ => Halts e) { k' with current := idx }) :
    Settles (tick messages) P k := by
  refine .of_returns ?_
  rw [tick_eq, wp_bind]
  rcases prepared : prepare messages k with ⟨e | ⟨⟩, k₁⟩
  · exact (wp_error prepared).mpr ((prepare_halts messages).error prepared)
  · have reached := selectionPoint_eq_some.mpr prepared
    rw [wp_ok prepared, wp_bind, wp_gets]
    cases chosen : nextReady k₁ with
    | none => exact idle k₁ reached chosen
    | some idx =>
      dsimp only
      rw [wp_bind, wp_update, wp_bind]
      refine wp_mono (fun killed k₅ holds => ?_) (fun _ _ stopped => stopped)
        (runs k₁ idx reached chosen)
      cases killed with
      | true | false => exact holds

theorem life_resume (k : Kernel) (idx : Nat) :
    (resume idx k).life = { k.life.setState idx .running with userMode := true } := by
  have running : (k.modifyTask idx fun t => { t with state := .running, firstRun := false }).life =
      k.life.setState idx .running := life_setTask ..
  exact congrArg (fun L : Life => { L with userMode := true }) running

/-- **The tick is a run of the life cycle.** -/
theorem tick_follows (allowed : ∀ L m, benign m = true → ok L m) {k : Kernel}
    (slots : Slots k.life) (kernel : k.userMode = false) (choose : ∀ L i, ok L (.choose i))
    (fatal : ∀ L code, FatalIn k L → ok L (.fatal code)) (messages : Nat → Option (List UInt8)) :
    Settles (tick messages) (fun k' => Follows ok k.life k'.life) k := by
  refine tick_settles (fun k' reached _ => ?_) (fun k' idx reached chosen => ?_)
  · exact (selectionPoint_prepared allowed slots kernel reached).follows
  · have prepared := selectionPoint_prepared allowed slots kernel reached
    have kernel' : k'.userMode = false := prepared.mode.trans kernel
    obtain ⟨bound, ready⟩ := nextReady_eq_some chosen
    have before : Follows ok k.life { k'.life with current := idx } := by
      refine prepared.follows.trans (.one (choose k'.life idx) ?_)
      exact if_pos ⟨kernel', bound⟩
    refine wp_mono (fun killed k₅ delivered => ?_) (fun _ _ stopped => stopped)
      (deliverIfPending_spec idx { k' with current := idx })
    rcases delivered with ⟨rfl, same⟩ | ⟨rfl, -, signum, died, action⟩
    · rw [if_neg Bool.false_ne_true, life_resume, same]
      exact before.trans (.one (m := .resume) (allowed _ _ rfl) (if_pos ⟨kernel', ready⟩))
    · have alive : (k.tasks idx).live = true := by
        have same : (k'.tasks idx).live = (k.tasks idx).live :=
          congrArg Prod.fst (prepared.watch idx)
        exact same.symm.trans (live_of_state ready rfl)
      rw [if_pos rfl, life_freeSpace, died]
      refine before.trans ?_
      refine .one (m := .fatal (128 + signum)) (fatal _ _ ?_) (if_pos ⟨kernel', ready⟩)
      exact {
        live := fun j => congrArg Prod.fst (prepared.watch j)
        uid := fun j => congrArg (fun w => w.2.1) (prepared.watch j)
        parentUid := fun j => congrArg (fun w => w.2.2.1) (prepared.watch j)
        current_lt := bound
        alive := alive
        deadly := prepared.deadly bound alive action }

end OxideOS.Sys
