import OxideOS.Lib.Rotation
import OxideOS.Sys.Signals

/-!
# What an event does to the tasks

Most of what happens to a task is done to it by others: signals become pending for it, it
is made ready, it is killed. `Touched` says what this can be, and `Nudges` that nothing
else has happened to any task. `Fate` lists all that an event can do to one task:
`advance_fate`. How a tick chooses a task is in `tick_cases` and `nextReady_of_ready`.
-/

set_option autoImplicit false

namespace OxideOS.Sys

open Lib Mem Fs Ipc Proc Proc.Kernel Function
open Prog hiding update

/-! ## What others do to a task -/

/-- The task is the same, with perhaps more signals pending, and perhaps made ready. It
does not sleep with a new signal. -/
structure Roused (t t' : Task) : Prop where
  uid : t'.uid = t.uid
  mask : t'.signalMask = t.signalMask
  handlers : t'.signalHandlers = t.signalHandlers
  pending : ∀ bit, t.pendingSignals.getLsbD bit = true → t'.pendingSignals.getLsbD bit = true
  state : t'.state = .ready ∨
    t'.state = t.state ∧ (t.state.isSleeping = true → t'.pendingSignals = t.pendingSignals)

/-- The task has ended or has been roused; a free slot has stayed free. -/
structure Touched (t t' : Task) : Prop where
  free : t.state.isFree = true → t'.state.isFree = true
  roused : t'.state.isFree = false → Roused t t'

namespace Roused

variable {t t' t'' : Task}

theorem of_signals (state : t'.state = .ready ∨ t'.state = t.state) (uid : t'.uid = t.uid)
    (signals : t'.signals = t.signals) : Roused t t' where
  uid := uid
  mask := congrArg (·.2.1) signals
  handlers := congrArg (·.2.2) signals
  pending bit inside := by
    have same : t'.pendingSignals = t.pendingSignals := congrArg (·.1) signals
    rwa [same]
  state := state.imp_right fun same => ⟨same, fun _ => congrArg (·.1) signals⟩

theorem of_same (state : t'.state = t.state) (uid : t'.uid = t.uid)
    (signals : t'.signals = t.signals) : Roused t t' := .of_signals (.inr state) uid signals

theorem of_ready (ready : t'.state = .ready) (uid : t'.uid = t.uid)
    (signals : t'.signals = t.signals) : Roused t t' := .of_signals (.inl ready) uid signals

theorem trans (first : Roused t t') (second : Roused t' t'') : Roused t t'' where
  uid := second.uid.trans first.uid
  mask := second.mask.trans first.mask
  handlers := second.handlers.trans first.handlers
  pending bit inside := second.pending bit (first.pending bit inside)
  state := by
    rcases second.state with ready | ⟨same, kept⟩
    · exact .inl ready
    · rcases first.state with ready | ⟨same', kept'⟩
      · exact .inl (same.trans ready)
      · refine .inr ⟨same.trans same', fun asleep => ?_⟩
        rw [kept (same' ▸ asleep), kept' asleep]

theorem active (roused : Roused t t') {bit : Nat} (active : Active t bit) : Active t' bit := by
  obtain ⟨inside, loud⟩ := active
  refine ⟨?_, by rw [roused.handlers]; exact loud⟩
  simp only [Task.deliverable, BitVec.getLsbD_or, BitVec.getLsbD_and, Bool.or_eq_true,
    Bool.and_eq_true, roused.mask] at inside ⊢
  rcases inside with ⟨pending, rest⟩ | ⟨pending, rest⟩
  · exact .inl ⟨roused.pending bit pending, rest⟩
  · exact .inr ⟨roused.pending bit pending, rest⟩

end Roused

variable {t : Task}

/-- Whether a signal is active depends on the signals of the task only. -/
theorem active_congr {t' : Task} (same : t'.signals = t.signals) (bit : Nat) :
    Active t' bit ↔ Active t bit := by
  have pending : t'.pendingSignals = t.pendingSignals := congrArg (·.1) same
  have mask : t'.signalMask = t.signalMask := congrArg (·.2.1) same
  have handlers : t'.signalHandlers = t.signalHandlers := congrArg (·.2.2) same
  simp only [Active, Task.deliverable, pending, mask, handlers]

namespace Touched

variable {t t' t'' : Task}

theorem of_free (free : t'.state.isFree = true) : Touched t t' :=
  ⟨fun _ => free, fun alive => absurd (free.symm.trans alive) (by decide)⟩

theorem of_same (state : t'.state = t.state) (uid : t'.uid = t.uid)
    (signals : t'.signals = t.signals) : Touched t t' :=
  ⟨fun free => state ▸ free, fun _ => .of_same state uid signals⟩

theorem refl (t : Task) : Touched t t := .of_same rfl rfl rfl

theorem of_roused (alive : t.state.isFree = false) (roused : Roused t t') : Touched t t' :=
  ⟨fun free => absurd (free.symm.trans alive) (by decide), fun _ => roused⟩

theorem trans (first : Touched t t') (second : Touched t' t'') : Touched t t'' where
  free was := second.free (first.free was)
  roused alive := by
    cases middle : t'.state.isFree with
    | true => exact absurd ((second.free middle).symm.trans alive) (by decide)
    | false => exact (first.roused middle).trans (second.roused alive)

end Touched

/-- All tasks have been touched at most, and the processor has not changed hands. -/
structure Nudges (k k' : Kernel) : Prop where
  current : k'.current = k.current
  mode : k'.userMode = k.userMode
  touched : ∀ i, Touched (k.tasks i) (k'.tasks i)

variable {i : Nat}

namespace Nudges

variable {k k' k'' : Kernel}

theorem refl (k : Kernel) : Nudges k k := ⟨rfl, rfl, fun _ => .refl _⟩

theorem trans (first : Nudges k k') (second : Nudges k' k'') : Nudges k k'' :=
  ⟨second.current.trans first.current, second.mode.trans first.mode, fun i =>
    (first.touched i).trans (second.touched i)⟩

instance : IsPreorder Kernel Nudges where
  refl := Nudges.refl
  trans _ _ _ := Nudges.trans

/-- A change of one task. -/
theorem of_update (tasks : k'.tasks = update k.tasks i t)
    (current : k'.current = k.current) (mode : k'.userMode = k.userMode)
    (touched : Touched (k.tasks i) t) : Nudges k k' := by
  refine ⟨current, mode, fun j => ?_⟩
  rw [tasks]
  by_cases here : j = i
  · subst here
    rw [update_self]
    exact touched
  · rw [update_of_ne here]
    exact .refl _

theorem of_manners (same : k'.manners = k.manners) : Nudges k k' := by
  have life : k'.life = k.life := congrArg (·.1) same
  have signals : k'.signals = k.signals := congrArg (·.2) same
  refine ⟨congrArg (·.current) life, congrArg (·.userMode) life, fun i => ?_⟩
  have slot : (k'.tasks i).slot = (k.tasks i).slot := congrFun (congrArg (·.slots) life) i
  exact .of_same (congrArg (·.state) slot) (congrArg (·.uid) slot) (congrFun signals i)

theorem setDead (k : Kernel) (i : Nat) (code : Int) : Nudges k (k.setDead i code) :=
  .of_update rfl rfl rfl (.of_free rfl)

theorem freeSpace (k : Kernel) (i : Nat) : Nudges k (k.freeSpace i) := by
  unfold Kernel.freeSpace
  dsimp only
  split
  · exact .refl k
  · exact .of_update rfl rfl rfl (.of_same rfl rfl rfl)

theorem reap (k : Kernel) (parent j : Nat) (code : Int) : Nudges k (k.reap parent j code) :=
  .of_update rfl rfl rfl (.of_free rfl)

theorem loop {body : Nat → Kernel → Kernel} (step : ∀ i k, Nudges k (body i k)) (count : Nat)
    (k : Kernel) : Nudges k (Lib.loop body 0 count k) :=
  loop_zero_invariant (fun _ k' => Nudges k k') (fun i k' _ nudged => nudged.trans (step i k'))
    (.refl k)

end Nudges

/-- A signal kills a task or becomes pending; then a sleeper is ready. -/
theorem sendSignal_nudges (pid signum : Nat) (k : Kernel) :
    Nudges k (sendSignal pid signum k).2 := by
  rcases sendSignal_cases pid signum k with nothing | ⟨i, -, alive, ⟨-, result⟩ | ⟨-, result⟩⟩
  · rw [nothing]
    exact .refl k
  · rw [result]
    exact .setDead k i _
  · rw [result]
    refine .of_update rfl rfl rfl
      (.of_roused (by simpa [Task.live] using alive) ⟨rfl, rfl, rfl, ?_, ?_⟩)
    · intro bit inside
      simp [inside]
    · cases asleep : (k.tasks i).state.isSleeping with
      | true => exact .inl (if_pos asleep)
      | false =>
        refine .inr ⟨if_neg (by simp [asleep]), fun contrary => ?_⟩
        cases contrary

theorem notifyParent_nudges (parentPid child : Nat) (k : Kernel) :
    Nudges k (k.notifyParent parentPid child) := by
  have sent := sendSignal_nudges parentPid sigchld k
  unfold notifyParent
  rcases answer : sendSignal parentPid sigchld k with ⟨reached, k'⟩
  rw [answer] at sent
  cases reached with
  | true => exact ⟨sent.current, sent.mode, sent.touched⟩
  | false => exact sent

/-! ## The preparation of a tick -/

theorem wakeSleeper_nudges (now i : Nat) (k : Kernel) : Nudges k (wakeSleeper now i k) := by
  unfold wakeSleeper
  split
  · next wake state =>
      split
      · refine .of_update rfl rfl rfl (.of_roused (by rw [state]; rfl) ?_)
        exact .of_ready rfl rfl rfl
      · exact .refl k
  · exact .refl k

theorem fireAlarm_nudges (now i : Nat) (k : Kernel) : Nudges k (fireAlarm now i k) := by
  have cleared : Nudges k (k.modifyTask i fun t => { t with alarmDeadline := 0 }) :=
    .of_update rfl rfl rfl (.of_same rfl rfl rfl)
  unfold fireAlarm
  dsimp only
  split
  · split
    · exact cleared.trans (sendSignal_nudges _ _ _)
    · exact cleared
  · exact .refl k

theorem wakeForMsg_nudges (messages : Nat → Option (List UInt8)) (i : Nat) :
    Leads Nudges (fun e _ => Halts e) (wakeForMsg messages i) := by
  refine ⟨fun k => wakeForMsg_wp messages (.refl k) fun queue msgPtr p state => ?_⟩
  refine .of_update rfl rfl rfl (.of_roused (by rw [state]; rfl) ?_)
  exact .of_ready rfl rfl rfl

theorem wakeParent_nudges (i : Nat) (k : Kernel) : Nudges k (wakeParent i k) := by
  unfold wakeParent
  split
  · next childPid state =>
      split
      · exact .refl k
      · split
        · refine Nudges.trans ?_ (.reap _ _ _ _)
          refine .of_update rfl rfl rfl (.of_roused (by rw [state]; rfl) ?_)
          exact .of_ready rfl rfl rfl
        · exact .refl k
  · exact .refl k

theorem prepare_nudges (messages : Nat → Option (List UInt8)) :
    Leads Nudges (fun e _ => Halts e) (prepare messages) := by
  unfold prepare
  refine .bind (.gets _) fun now => ?_
  refine .bind (.update (.loop (wakeSleeper_nudges now) maxTasks)) fun _ => ?_
  refine .bind (.update (.loop (fireAlarm_nudges now) maxTasks)) fun _ => ?_
  refine .bind (.forRange (wakeForMsg_nudges messages) 0 maxTasks) fun _ => ?_
  exact .update (.loop wakeParent_nudges maxTasks)

/-! ## The choice of a task -/

/-- Only the task in slot `idx` has changed. -/
structure Elsewhere (idx : Nat) (k k' : Kernel) : Prop where
  current : k'.current = k.current
  mode : k'.userMode = k.userMode
  tasks : ∀ j, j ≠ idx → k'.tasks j = k.tasks j

namespace Elsewhere

variable {idx : Nat} {k k' k'' : Kernel}

theorem trans (first : Elsewhere idx k k') (second : Elsewhere idx k' k'') :
    Elsewhere idx k k'' :=
  ⟨second.current.trans first.current, second.mode.trans first.mode, fun j other =>
    (second.tasks j other).trans (first.tasks j other)⟩

instance : IsPreorder Kernel (Elsewhere idx) where
  refl _ := ⟨rfl, rfl, fun _ _ => rfl⟩
  trans _ _ _ := Elsewhere.trans

theorem of_update (tasks : k'.tasks = update k.tasks idx t)
    (current : k'.current = k.current) (mode : k'.userMode = k.userMode) : Elsewhere idx k k' := by
  refine ⟨current, mode, fun j other => ?_⟩
  rw [tasks, update_of_ne other]

end Elsewhere

theorem copyToRegionIn_elsewhere (idx cr3 virt : Nat) (bytes : List UInt8) :
    Leads (Elsewhere idx) (fun e _ => Halts e) (Kernel.copyToRegionIn cr3 virt bytes) := by
  refine ⟨fun k => ?_⟩
  unfold wp Kernel.copyToRegionIn
  cases k.paging.copyToRegionIn cr3 virt bytes with
  | none => exact ⟨⟨rfl, rfl, fun _ _ => rfl⟩, rfl⟩
  | some p => exact ⟨rfl, rfl, fun _ _ => rfl⟩

theorem deliverPendingSignals_elsewhere (idx : Nat) :
    Leads (Elsewhere idx) (fun e _ => Halts e) (deliverPendingSignals idx) := by
  unfold deliverPendingSignals
  refine .bind (.gets _) fun task => ?_
  dsimp only
  refine .ite (.pure _) (.bind (.update fun k => .of_update rfl rfl rfl) fun _ => ?_)
  split
  · exact .pure _
  · exact .bind (.update fun k => .of_update rfl rfl rfl) fun _ => .pure _
  · generalize wordBytes userSigtramp = trampoline
    refine .bind (copyToRegionIn_elsewhere _ _ _ _) fun _ => ?_
    refine .bind (copyToRegionIn_elsewhere _ _ _ _) fun _ => ?_
    exact .bind (.update fun k => .of_update rfl rfl rfl) fun _ => .pure _

theorem deliverIfPending_elsewhere (idx : Nat) :
    Leads (Elsewhere idx) (fun e _ => Halts e) (deliverIfPending idx) :=
  .bind (.gets _) fun _ => .ite (.pure _) (deliverPendingSignals_elsewhere idx)

variable {messages : Nat → Option (List UInt8)} {k k' : Kernel}

/-- A task killed by a signal is dead. -/
theorem killed_free {idx : Nat} (killed : deliverIfPending idx k = (.ok true, k')) :
    (k'.tasks idx).state.isFree = true := by
  rcases (wp_ok killed).mp (deliverIfPending_spec idx k) with
    ⟨contrary, -⟩ | ⟨-, -, signum, life, -⟩
  · cases contrary
  · have state : (k'.tasks idx).state = ((k.life.die idx (128 + signum)).slots idx).state :=
      congrArg (fun L : Life => (L.slots idx).state) life
    have dead : ((k.life.die idx (128 + signum)).slots idx).state = .dead (128 + signum) := by
      simp [Life.die, Life.setState]
    rw [state, dead]
    rfl

/-- **What a tick does**: tasks are touched, and one of the ready ones is chosen and
served, if there is one. -/
theorem tick_cases (stepped : advance k (.tick messages) = some k') :
    k.userMode = false ∧ ∃ k₁, Nudges k k₁ ∧ (nextReady k₁ = none ∧ k' = k₁ ∨
        ∃ idx k₂, nextReady k₁ = some idx ∧ delivery k (.tick messages) = some (idx, k₁, k₂) ∧
          k'.current = idx ∧ (∀ j, j ≠ idx → k'.tasks j = k₁.tasks j) ∧
          (k'.userMode = true ∨ (k'.tasks idx).state.isFree = true)) := by
  simp only [advance, Option.ite_none_left_eq_some] at stepped
  obtain ⟨kernel, settled⟩ := stepped
  have kernel : k.userMode = false := by simpa using kernel
  have nudged : ∀ {k₁}, selectionPoint messages k = some k₁ → Nudges k k₁ := fun reached =>
    (prepare_nudges messages).result (selectionPoint_eq_some.mp reached)
  refine ⟨kernel, ?_⟩
  generalize k' = ended at settled
  revert ended
  refine tick_settles (fun k₁ reached idle => ⟨k₁, nudged reached, .inl ⟨idle, rfl⟩⟩)
    fun k₁ idx reached chosen => ?_
  rcases result : deliverIfPending idx { k₁ with current := idx } with ⟨e | killed, k₂⟩
  · exact (wp_error result).mpr ((deliverIfPending_elsewhere idx).error result)
  · rw [wp_ok result]
    have others := (deliverIfPending_elsewhere idx).result result
    have happens : delivery k (.tick messages) = some (idx, k₁, k₂) := by
      simp only [delivery, kernel, Bool.false_eq_true, if_false, selectionPoint_eq_some.mp reached,
        chosen, result]
    refine ⟨k₁, nudged reached, .inr ⟨idx, k₂, chosen, happens, ?_⟩⟩
    cases killed with
    | true =>
      have freed : Elsewhere idx k₂ (k₂.freeSpace idx) := by
        unfold Kernel.freeSpace
        dsimp only
        split
        · exact ⟨rfl, rfl, fun _ _ => rfl⟩
        · exact .of_update rfl rfl rfl
      refine ⟨(others.trans freed).current, (others.trans freed).tasks, .inr ?_⟩
      exact ((Nudges.freeSpace k₂ idx).touched idx).free (killed_free result)
    | false =>
      refine ⟨others.current, fun j other => ?_, .inl rfl⟩
      exact (update_of_ne other _ _).trans (others.tasks j other)

/-! ## Round robin -/

/-- If a task is ready, one is chosen: that one, or one before it in order. -/
theorem nextReady_of_ready (bound : i < maxTasks) (ready : (k.tasks i).state = .ready) :
    ∃ idx, nextReady k = some idx ∧
      (idx = i ∨ ahead maxTasks idx i < ahead maxTasks k.current i) := by
  have holds : ((k.tasks i).state == .ready) = true := by
    rw [ready]
    rfl
  obtain ⟨idx, found⟩ := Option.isSome_iff_exists.mp (@nextFrom_isSome maxTasks k.current i
    (fun j => (k.tasks j).state == .ready) bound holds)
  refine ⟨idx, found, ?_⟩
  by_cases same : idx = i
  · exact .inl same
  · exact .inr (nextFrom_nearer found bound holds same)

/-! ## What an event does to a task -/

/-- The task in slot `i` is in user mode. -/
def Engaged (k : Kernel) (i : Nat) : Prop := k.userMode = true ∧ k.current = i

/-- The running task goes to sleep, blocks signal `b + 1` or changes its handler: the
calls after which a signal that is pending need not be acted on. -/
def diverts (k : Kernel) (b : Nat) : Event → Bool
  | .syscall (some _) (.sleep _) | .syscall _ (.sigsuspend _) => true
  | .syscall _ (.sigaction signum _ _) => signum % 2 ^ 32 == b + 1
  | .syscall _ .sigreturn => (k.tasks k.current).inSigsuspend
  | .syscall _ (.sigprocmask how setPtr _) =>
    setPtr != 0 && (how % 2 ^ 32 == 0 || how % 2 ^ 32 == 2)
  | _ => false

/-- Waiting for a child or for a message. -/
def waits : TaskState → Bool
  | .waiting _ | .waitingForMsg _ _ => true
  | _ => false

/-- What the event `e`, which leads from `k` to `k'`, does to the task in slot `i`. -/
inductive Fate (k : Kernel) (e : Event) (k' : Kernel) (i : Nat) : Prop
  /-- It is touched; if it was in user mode it is still, or is ready, or has ended. -/
  | touched (touch : Touched (k.tasks i) (k'.tasks i))
      (stays : Engaged k i → Engaged k' i ∨ (k'.tasks i).state = .ready ∨
        (k'.tasks i).state.isFree = true)
  /-- The slot was free and has a task that is ready. -/
  | filled (vacant : (k.tasks i).state.isFree = true) (ready : (k'.tasks i).state = .ready)
  /-- It blocks. -/
  | parked (running : Engaged k i) (uid : (k'.tasks i).uid = (k.tasks i).uid)
      (signals : (k'.tasks i).signals = (k.tasks i).signals)
      (blocked : waits (k'.tasks i).state = true ∨
        (k'.tasks i).state.isSleeping = true ∧ ∀ b, diverts k b e = true)
  /-- It runs on and has changed how it takes signals. -/
  | changed (running : Engaged k i) (running' : Engaged k' i)
      (uid : (k'.tasks i).uid = (k.tasks i).uid)
      (active : ∀ b, diverts k b e = false → Active (k.tasks i) b → Active (k'.tasks i) b)
  /-- It is chosen and its signals are delivered. -/
  | served {k₁ k₂ : Kernel} (before : Touched (k.tasks i) (k₁.tasks i))
      (happens : delivery k e = some (i, k₁, k₂))
      (after : Engaged k' i ∨ (k'.tasks i).state.isFree = true)

/-- The fates of all tasks under an event other than a tick, which leaves the choice of
the current task alone. -/
structure Fates (k : Kernel) (e : Event) (k' : Kernel) : Prop where
  current : k'.current = k.current
  fate : ∀ i, Fate k e k' i

namespace Fates

variable {k k' : Kernel} {e : Event}

theorem of_nudges (nudged : Nudges k k') : Fates k e k' := by
  refine ⟨nudged.current, fun i => .touched (nudged.touched i) ?_⟩
  rintro ⟨user, here⟩
  exact .inl ⟨nudged.mode.trans user, nudged.current.trans here⟩

/-- A change of the running task alone. -/
theorem of_update (tasks : k'.tasks = update k.tasks k.current t)
    (current : k'.current = k.current) (fate : Fate k e k' k.current) : Fates k e k' := by
  refine ⟨current, fun i => ?_⟩
  by_cases here : i = k.current
  · rw [here]
    exact fate
  · have same : k'.tasks i = k.tasks i := by rw [tasks, update_of_ne here]
    refine .touched ?_ fun engaged => absurd engaged.2.symm here
    rw [same]
    exact .refl _

theorem of_park (user : k.userMode = true)
    (tasks : k'.tasks = update k.tasks k.current t) (current : k'.current = k.current)
    (uid : t.uid = (k.tasks k.current).uid) (signals : t.signals = (k.tasks k.current).signals)
    (blocked : waits t.state = true ∨ t.state.isSleeping = true ∧ ∀ b, diverts k b e = true) :
    Fates k e k' := by
  have here : k'.tasks k.current = t := by rw [tasks, update_self]
  refine .of_update tasks current ?_
  refine .parked ⟨user, rfl⟩ ?_ ?_ ?_ <;> rw [here] <;> assumption

theorem of_change (user : k.userMode = true)
    (tasks : k'.tasks = update k.tasks k.current t) (current : k'.current = k.current)
    (mode : k'.userMode = k.userMode) (uid : t.uid = (k.tasks k.current).uid)
    (active : ∀ b, diverts k b e = false → Active (k.tasks k.current) b → Active t b) :
    Fates k e k' := by
  have here : k'.tasks k.current = t := by rw [tasks, update_self]
  refine .of_update tasks current ?_
  refine .changed ⟨user, rfl⟩ ⟨mode.trans user, current⟩ ?_ ?_ <;> rw [here] <;> assumption

/-- A task in a slot that was free. -/
theorem of_fill {slot : Nat} (tasks : k'.tasks = update k.tasks slot t)
    (current : k'.current = k.current) (mode : k'.userMode = k.userMode)
    (vacant : (k.tasks slot).state.isFree = true) (ready : t.state = .ready) : Fates k e k' := by
  refine ⟨current, fun i => ?_⟩
  by_cases here : i = slot
  · subst here
    refine .filled vacant ?_
    rw [tasks, update_self, ready]
  · have same : k'.tasks i = k.tasks i := by rw [tasks, update_of_ne here]
    refine .touched ?_ fun engaged => .inl ⟨mode.trans engaged.1, current.trans engaged.2⟩
    rw [same]
    exact .refl _

end Fates

/-- The task has come back for good: it ends, and its parent is told. -/
theorem finishSlice_nudges (k : Kernel) {code : Int} (small : -2 ^ 62 < code) :
    Nudges { k with userMode := false } (k.finishSlice code) ∧
      ((k.finishSlice code).tasks k.current).state.isFree = true := by
  obtain ⟨real, final⟩ := ends_of_small small
  have dead := Nudges.setDead { k with userMode := false } k.current code
  have freed := dead.trans (.freeSpace _ k.current)
  have ended : ((((({ k with userMode := false } : Kernel).setDead k.current code).freeSpace
      k.current).tasks k.current).state.isFree) = true := by
    refine ((Nudges.freeSpace _ k.current).touched k.current).free ?_
    show ((update k.tasks k.current _ k.current).state.isFree) = true
    rw [update_self]
    rfl
  simp only [finishSlice, if_neg real, if_neg final]
  split
  · have told := notifyParent_nudges (k.tasks k.current).parentPid (k.tasks k.current).uid
      ((({ k with userMode := false } : Kernel).setDead k.current code).freeSpace k.current)
    exact ⟨freed.trans told, (told.touched k.current).free ended⟩
  · exact ⟨freed, ended⟩

variable {e : Event}

theorem finishSlice_fates {code : Int} (small : -2 ^ 62 < code)
    (p : Paging) : Fates k e (({ k with paging := p } : Kernel).finishSlice code) := by
  obtain ⟨nudged, ended⟩ := finishSlice_nudges { k with paging := p } small
  refine ⟨nudged.current, fun i => .touched (nudged.touched i) ?_⟩
  rintro ⟨-, rfl⟩
  exact .inr (.inr ended)

/-- The task goes back to the end of the queue, changed only in what nobody looks at. -/
theorem preempt_fates {k₁ : Kernel}
    (tasks : k₁.tasks = update k.tasks k.current t) (current : k₁.current = k.current)
    (uid : t.uid = (k.tasks k.current).uid) (signals : t.signals = (k.tasks k.current).signals) :
    Fates k e (k₁.finishSlice exitPreempted) := by
  have result : (k₁.finishSlice exitPreempted).tasks =
      update k.tasks k.current { t with state := .ready } := by
    show update k₁.tasks k₁.current { k₁.tasks k₁.current with state := .ready } = _
    rw [current, tasks, update_self, update_idem]
  have here : (k₁.finishSlice exitPreempted).tasks k.current = { t with state := .ready } := by
    rw [result, update_self]
  refine .of_update result current ?_
  cases free : (k.tasks k.current).state.isFree with
  | true => exact .filled free (by rw [here])
  | false =>
    refine .touched (.of_roused free ?_) fun _ => .inr (.inl (by rw [here]))
    rw [here]
    exact .of_ready rfl uid signals

/-- The running task blocks in the state given. -/
theorem block_fates (user : k.userMode = true) {state : TaskState}
    (blocked : waits state = true ∨ state.isSleeping = true ∧ ∀ b, diverts k b e = true)
    (ctx : TaskContext) : Settles (block k.current state ctx) (Fates k e) k := by
  refine .of_wp ?_
  unfold block
  rw [wp_bind, wp_update]
  intro code left
  cases left
  rw [finishSlice_sleeping]
  exact .of_park user rfl rfl rfl rfl blocked

theorem timerInterrupt_fates (ctx : TaskContext) (k : Kernel) :
    Fates k (.timer ctx) (k.timerInterrupt ctx) := by
  unfold timerInterrupt
  dsimp only
  split
  · split
    · exact preempt_fates rfl rfl rfl rfl
    · exact .of_nudges (.of_manners rfl)
  · exact .of_nudges (.of_manners rfl)

/-! ## What the calls do -/

theorem sleepUntilTick_fates (user : k.userMode = true) (target : Nat) (ctx : Option TaskContext) :
    Settles (sleepUntilTick target ctx) (Fates k (.syscall ctx (.sleep target))) k := by
  refine sleepUntilTick_settles target ctx ?_ fun _ => .of_nudges (.of_manners rfl)
  rintro c rfl
  exact block_fates user (.inr ⟨rfl, fun _ => rfl⟩) c

theorem waitpid_fates (user : k.userMode = true) (pid : Nat)
    (ctx : Option TaskContext) : Settles (waitpid pid ctx) (Fates k e) k :=
  waitpid_settles (.of_nudges (.refl k)) (fun _ _ _ _ => .of_nudges (.reap k _ _ _))
    fun c _ => block_fates user (.inl rfl) c

theorem forkChild_fates (ctx : TaskContext) :
    Settles (forkChild (some ctx)) (Fates k e) k := by
  refine .of_wp ?_
  unfold wp forkChild forkTask
  dsimp only
  cases found : firstBelow maxTasks fun i => i != k.current && (k.tasks i).state.isFree with
  | none => exact Fates.of_nudges (.refl k)
  | some slot =>
    dsimp only
    cases Paging.cowForkUserPageTable (k.tasks k.current).cr3 stackRange
        (shmRanges (k.tasks k.current).shmAttaches k.segtab) k.paging with
    | mk result p =>
      cases result with
      | error e => exact Fates.of_nudges (.of_manners rfl)
      | ok cr3 =>
        obtain ⟨-, suits, -⟩ := firstBelow_eq_some found
        have vacant : (k.tasks slot).state.isFree = true := by
          simp only [Bool.and_eq_true] at suits
          exact suits.2
        exact Fates.of_fill rfl rfl rfl vacant rfl

theorem execBinary_fates (img : Image) (argBlock : List UInt8) :
    Settles (execBinary img argBlock) (Fates k e) k := by
  refine execBinary_settles (fun p => .of_nudges (.of_manners rfl)) fun cr3 rsp p => ?_
  exact preempt_fates rfl rfl rfl rfl

theorem killPidSig_fates (pid signum : Nat) :
    Settles (killPidSig pid signum) (Fates k e) k :=
  killPidSig_settles (.of_nudges (sendSignal_nudges _ _ k))

/-- A copy from or to the program changes the memory only. -/
theorem wp_storeWord {ptr w : Nat} {Q : Kernel → Prop} (holds : ∀ p, Q { k with paging := p }) :
    wp (storeWord ptr w) (fun _ k' => Q k') (fun e _ => Halts e) k := by
  unfold storeWord
  split
  · exact holds k.paging
  · unfold copyToUser currentTask
    rw [wp_bind, wp_gets]
    unfold wp Kernel.copyToRegionIn
    cases k.paging.copyToRegionIn (k.tasks k.current).cr3 ptr (wordBytes w) with
    | none => exact rfl
    | some p => exact holds p

theorem wp_copyFromUser {virt count : Nat} {Q : List Nat → Kernel → Prop}
    (holds : ∀ bytes, Q bytes k) :
    wp (copyFromUser virt count) Q (fun e _ => Halts e) k := by
  unfold wp copyFromUser
  cases k.paging.readUser (k.tasks k.current).cr3 virt count with
  | none => exact rfl
  | some bytes => exact holds bytes

variable {ctx : Option TaskContext}

theorem sigaction_fates (user : k.userMode = true) (signum handler oldPtr : Nat) :
    Settles (sigaction signum handler oldPtr)
      (Fates k (.syscall ctx (.sigaction signum handler oldPtr))) k := by
  refine .of_returns ?_
  have stays : Fates k (.syscall ctx (.sigaction signum handler oldPtr)) k := .of_nudges (.refl k)
  unfold sigaction currentTask updateCurrent
  split
  · exact stays
  · rw [wp_bind, wp_gets]
    split
    · exact stays
    · rw [wp_bind]
      refine wp_storeWord (Q := fun k' => wp _ _ _ k') fun p => ?_
      rw [wp_bind, wp_update, wp_pure]
      refine Fates.of_change user rfl rfl rfl rfl ?_
      rintro b straight ⟨inside, loud⟩
      have other : b + 1 ≠ signum % 2 ^ 32 := by
        rintro same
        simp [diverts, same] at straight
      refine ⟨inside, ?_⟩
      simpa only [ignored, handlerOf, update_of_ne other] using loud

theorem sigreturn_fates (user : k.userMode = true) :
    Settles sigreturn (Fates k (.syscall ctx .sigreturn)) k := by
  refine .of_returns ?_
  unfold sigreturn currentTask updateCurrent
  rw [wp_bind, wp_gets, wp_bind]
  refine wp_copyFromUser fun bytes => ?_
  rw [wp_bind, wp_update, wp_pure]
  have slot := (popFrame_same bytes (k.tasks k.current)).1
  refine Fates.of_change user rfl rfl rfl (congrArg Slot.uid slot) ?_
  intro b straight active
  have outside : (k.tasks k.current).inSigsuspend = false := by
    simpa only [diverts] using straight
  have signals : (popFrame bytes (k.tasks k.current)).signals = (k.tasks k.current).signals := by
    simp [popFrame, outside, Task.signals]
  exact (active_congr signals b).mpr active

/-- Unblocking signals leaves the active ones active. -/
theorem active_of_unblock {mask : BitVec 32} {b : Nat} (active : Active t b) :
    Active { t with signalMask := t.signalMask &&& ~~~mask } b := by
  obtain ⟨inside, loud⟩ := active
  refine ⟨?_, loud⟩
  simp only [Task.deliverable, BitVec.getLsbD_or, BitVec.getLsbD_and, BitVec.getLsbD_not,
    Bool.or_eq_true, Bool.and_eq_true, Bool.not_eq_true', decide_eq_true_eq] at inside ⊢
  rcases inside with ⟨pending, small, clear⟩ | kept
  · exact .inl ⟨pending, small, by simp [clear]⟩
  · exact .inr kept

theorem sigprocmask_fates (user : k.userMode = true) (how setPtr oldPtr : Nat) :
    Settles (sigprocmask how setPtr oldPtr)
      (Fates k (.syscall ctx (.sigprocmask how setPtr oldPtr))) k := by
  refine .of_returns ?_
  unfold sigprocmask currentTask updateCurrent
  rw [wp_bind, wp_gets, wp_bind]
  refine wp_storeWord (Q := fun k' => wp _ _ _ k') fun p => ?_
  have stays : Fates k (.syscall ctx (.sigprocmask how setPtr oldPtr)) { k with paging := p } :=
    .of_nudges (.of_manners rfl)
  split
  · exact stays
  · next given =>
      rw [wp_bind]
      refine wp_copyFromUser fun bytes => ?_
      split
      · exact stays
      · next mask changed =>
          rw [wp_bind, wp_update, wp_pure]
          refine Fates.of_change user rfl rfl rfl rfl ?_
          intro b straight active
          have given : setPtr ≠ 0 := given
          simp only [diverts, bne_iff_ne, ne_eq, given, not_false_eq_true, Bool.and_eq_false_imp,
            Bool.or_eq_false_iff, beq_eq_false_iff_ne, true_implies] at straight
          revert changed
          generalize how % 2 ^ 32 = command at straight ⊢
          match command with
          | 0 => exact absurd rfl straight.1
          | 1 =>
            intro changed
            cases changed
            exact active_of_unblock active
          | 2 => exact absurd rfl straight.2
          | _ + 3 => simp [changeMask]

theorem sigsuspend_fates (user : k.userMode = true) (maskPtr : Nat) :
    Settles (sigsuspend maskPtr) (Fates k (.syscall ctx (.sigsuspend maskPtr))) k := by
  refine .of_returns ?_
  unfold sigsuspend updateCurrent loadMask
  rw [wp_bind]
  have after : ∀ bytes : List Nat, wp (Prog.update fun k' => k'.modifyTask k'.current fun t =>
      { t with
        savedSignalMask := t.signalMask, inSigsuspend := true
        signalMask := BitVec.ofNat 32 (wordOf bytes) &&& ~~~unkillable
        state := .sleeping ((2 ^ 64 - 1) / 2) })
      (fun _ k' => Fates k (.syscall ctx (.sigsuspend maskPtr)) k') (fun e _ => Halts e) k := by
    intro bytes
    rw [wp_update]
    refine Fates.of_change user rfl rfl rfl rfl fun b straight => ?_
    simp [diverts] at straight
  split
  · exact after []
  · refine wp_copyFromUser fun bytes => ?_
    rw [wp_bind]
    exact after bytes

theorem msgrcvWait_fates (user : k.userMode = true)
    (queueId msgPtr : Nat) (message : Option (List UInt8)) (ctx : Option TaskContext) :
    Settles (msgrcvWait queueId msgPtr message ctx) (Fates k e) k := by
  unfold msgrcvWait
  split
  · exact .of_returns (Fates.of_nudges (.refl k))
  · refine .of_returns (wp_mono (fun _ k' same => ?_) (fun _ _ stopped => stopped.2)
      ((manners_of_surface (.bind (copyToUser_keeps _ _) fun _ => .pure _)).spec k))
    exact .of_nudges (.of_manners same)
  · exact block_fates user (.inl rfl) _
  · exact .of_returns (Fates.of_nudges (.refl k))

theorem dispatch_fates (user : k.userMode = true) (ctx : Option TaskContext)
    (call : Syscall) : Settles (dispatch ctx call) (Fates k (.syscall ctx call)) k := by
  cases quiet : call.quiet with
  | true =>
    refine .of_returns (wp_mono (fun _ k' same => ?_) (fun _ _ stopped => stopped.2)
      ((dispatch_quiet ctx quiet).spec k))
    exact .of_nudges (.of_manners same)
  | false =>
    cases call with
    | exit arg =>
      refine .of_wp fun code left => ?_
      cases left
      exact finishSlice_fates (toI32_range arg) k.paging
    | fork =>
      cases ctx with
      | none => exact .of_returns (Fates.of_nudges (.refl k))
      | some ctx => exact forkChild_fates ctx
    | waitpid pid => exact waitpid_fates user pid ctx
    | exec binary argBlock =>
      cases binary with
      | error code => exact .of_returns (Fates.of_nudges (.refl k))
      | ok img => exact execBinary_fates img argBlock
    | sleep targetTick => exact sleepUntilTick_fates user targetTick ctx
    | kill pid signum => exact killPidSig_fates pid signum
    | sigaction signum handler oldPtr => exact sigaction_fates user signum handler oldPtr
    | sigreturn => exact sigreturn_fates user
    | sigprocmask how setPtr oldPtr => exact sigprocmask_fates user how setPtr oldPtr
    | sigsuspend maskPtr => exact sigsuspend_fates user maskPtr
    | msgrcvWait queueId msgPtr message => exact msgrcvWait_fates user queueId msgPtr message ctx
    | brk | mmap | munmap | shmget | shmat | shmdt | sigpending | alarm | pipe | dup | dup2 | fcntl
      | openFile | close | read | write => cases quiet

/-! ## Events -/

theorem spawn_fates (binary : Option Image) (name argBlock : List UInt8) (k : Kernel) :
    Fates k e (spawn binary name argBlock k).2 := by
  unfold spawn
  cases binary with
  | none => exact .of_nudges (.refl k)
  | some img =>
    dsimp only
    cases found : firstBelow maxTasks fun i => (k.tasks i).state.isFree with
    | none => exact .of_nudges (.refl k)
    | some slot =>
      dsimp only
      cases spawnSpace img k.paging with
      | mk result p =>
        cases result with
        | error e => exact .of_nudges (.of_manners rfl)
        | ok cr3 =>
          dsimp only
          split
          · exact .of_nudges (.of_manners rfl)
          · obtain ⟨-, vacant, -⟩ := firstBelow_eq_some found
            exact .of_fill rfl rfl rfl vacant rfl

theorem store_fates {virt b : Nat}
    (stepped : advance k (.store virt b) = some k') : Fates k (.store virt b) k' := by
  have small : -2 ^ 62 < (-11 : Int) := by decide
  unfold advance at stepped
  dsimp only at stepped
  split at stepped
  · split at stepped
    · split at stepped
      · cases stepped
        exact .of_nudges (.of_manners rfl)
      · next p _ _ =>
          cases stepped
          exact finishSlice_fates small p
      · cases stepped
    · cases stepped
      exact finishSlice_fates small k.paging
  · cases stepped

theorem advance_fates (other : e.isTick = false) (stepped : advance k e = some k') :
    Fates k e k' := by
  cases e with
  | spawn binary name argBlock =>
    have spawned := spawn_fates (e := .spawn binary name argBlock) binary name argBlock k
    simp only [advance] at stepped
    split at stepped
    · cases stepped
    · split at stepped
      · cases stepped
      · next result =>
          cases stepped
          rwa [result] at spawned
  | kill pid =>
    simp only [advance, Option.ite_none_left_eq_some, Option.some.injEq] at stepped
    obtain ⟨-, rfl⟩ := stepped
    exact .of_nudges (sendSignal_nudges _ _ k)
  | tick messages => cases other
  | timer ctx =>
    cases stepped
    exact timerInterrupt_fates ctx k
  | exception vector =>
    simp only [advance, Option.ite_none_right_eq_some, Option.some.injEq] at stepped
    obtain ⟨-, rfl⟩ := stepped
    exact finishSlice_fates (exceptionCode_range vector) k.paging
  | store virt b => exact store_fates stepped
  | syscall ctx call =>
    simp only [advance, Option.ite_none_right_eq_some] at stepped
    exact dispatch_fates stepped.1 ctx call k' stepped.2

theorem tick_fate
    (stepped : advance k (.tick messages) = some k') (i : Nat) : Fate k (.tick messages) k' i := by
  obtain ⟨kernel, k₁, nudged, ⟨-, rfl⟩ | ⟨idx, k₂, -, happens, current, others, after⟩⟩ :=
    tick_cases stepped
  · refine .touched (nudged.touched i) fun engaged => ?_
    exact absurd (kernel.symm.trans engaged.1) (by decide)
  · by_cases here : i = idx
    · subst here
      exact .served (nudged.touched i) happens (after.imp_left fun user => ⟨user, current⟩)
    · refine .touched ?_ fun engaged => absurd (kernel.symm.trans engaged.1) (by decide)
      rw [others i here]
      exact nudged.touched i

/-- **What an event does to a task.** -/
theorem advance_fate (stepped : advance k e = some k') (i : Nat) :
    Fate k e k' i := by
  cases e with
  | tick messages => exact tick_fate stepped i
  | _ => exact (advance_fates rfl stepped).fate i

end OxideOS.Sys
