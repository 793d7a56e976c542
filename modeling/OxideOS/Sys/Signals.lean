import OxideOS.Sys.Preemption

/-!
# What becomes of a pending signal

At a tick the scheduler delivers signals to the task it has chosen: it clears every
signal that is pending and not blocked, and walks them from the lowest on, up to the
first that ends the task or has a handler. `delivery` is this moment of an event.

A signal is accounted for when it is still pending, or was ignored, or has ended the
task, or its handler is about to run. `no_signal_lost_iff` says when all signals are,
at every delivery of a run: no two signals that are not ignored may be delivered at
once, and a task that has not run yet, whose saved context is not used, may have no
handler to enter. Two handled signals at once are one too many: `second_signal_lost`.

A handler is to leave no trace in the registers of the task it interrupts
(`Transparent`). By `transparent_iff` every handler that is entered does:
its `ret` does not lead to the trampoline.
-/

set_option autoImplicit false

namespace OxideOS.Sys

open Lib Mem Fs Ipc Proc Proc.Kernel Function
open Prog hiding update

/-! ## Dispositions -/

def handlerOf (handlers : Nat → Nat) (signum : Nat) : Nat :=
  if signum < nsig then handlers signum else sigDfl

/-- The signal is ignored, by disposition or by default. -/
def ignored (handlers : Nat → Nat) (signum : Nat) : Bool :=
  handlerOf handlers signum == sigIgn ||
    handlerOf handlers signum == sigDfl && (signum == sigchld || signum == sigcont)

/-- What a signal that is not ignored does. -/
def actionOf (handlers : Nat → Nat) (signum : Nat) : Disposition :=
  if handlerOf handlers signum = sigDfl then .terminate signum
  else .handle signum (handlerOf handlers signum)

theorem signalAction_cons (handlers : Nat → Nat) (bit : Nat) (rest : List Nat) :
    signalAction handlers (bit :: rest) =
      if ignored handlers (bit + 1) then signalAction handlers rest
      else actionOf handlers (bit + 1) := by
  rw [signalAction]
  simp only [ignored, actionOf, ← handlerOf.eq_def]
  by_cases ign : handlerOf handlers (bit + 1) = sigIgn
  · simp [ign]
  · by_cases dfl : handlerOf handlers (bit + 1) = sigDfl
    · by_cases quiet : bit + 1 = sigchld ∨ bit + 1 = sigcont
      · simp [dfl, quiet, sigDfl, sigIgn]
      · simp [dfl, quiet, sigDfl, sigIgn]
    · simp [ign, dfl]

/-- The first signal that is not ignored decides. -/
theorem signalAction_cases (handlers : Nat → Nat) (bits : List Nat) :
    signalAction handlers bits = .nothing ∧ (∀ bit ∈ bits, ignored handlers (bit + 1) = true) ∨
      ∃ bit ∈ bits, ignored handlers (bit + 1) = false ∧
        signalAction handlers bits = actionOf handlers (bit + 1) := by
  induction bits with
  | nil => exact .inl ⟨rfl, by simp⟩
  | cons bit rest ih =>
    rw [signalAction_cons]
    cases first : ignored handlers (bit + 1) with
    | false => exact .inr ⟨bit, List.mem_cons_self, first, rfl⟩
    | true =>
      rw [if_pos rfl]
      rcases ih with ⟨nothing, all⟩ | ⟨later, member, active, action⟩
      · refine .inl ⟨nothing, fun b member => ?_⟩
        rcases List.mem_cons.mp member with rfl | member
        · exact first
        · exact all b member
      · exact .inr ⟨later, List.mem_cons_of_mem _ member, active, action⟩

@[simp] theorem mem_bitsOf {set : BitVec 32} {bit : Nat} :
    bit ∈ bitsOf set ↔ set.getLsbD bit = true := by
  simp only [bitsOf, List.mem_filter, List.mem_range, and_iff_right_iff_imp]
  intro inside
  exact BitVec.lt_of_getLsbD inside

/-! ## Delivery -/

/-- The task without its deliverable signals. -/
def cleared (t : Task) : Task :=
  { t with pendingSignals := t.pendingSignals &&& ~~~t.deliverable }

@[simp] theorem cleared_ctx (t : Task) : (cleared t).ctx = t.ctx := rfl

/-- The task after the action for a signal. -/
def respond (t : Task) : Disposition → Task
  | .nothing => t
  | .terminate signum => { t with state := .dead (128 + signum) }
  | .handle signum handler =>
    { t with ctx := { t.ctx with rsp := handlerFrame t.ctx.rsp, rip := handler, rdi := signum } }

/-- The task after the delivery of its signals. -/
def delivered (t : Task) : Task :=
  respond (cleared t) (signalAction t.signalHandlers (bitsOf t.deliverable))

theorem delivered_of_none {t : Task} (none : t.deliverable = 0) : delivered t = t := by
  have empty : bitsOf (0 : BitVec 32) = [] := by decide
  have all : t.pendingSignals &&& ~~~(0 : BitVec 32) = t.pendingSignals := by
    rw [show ~~~(0 : BitVec 32) = BitVec.allOnes 32 from by decide, BitVec.and_allOnes]
  rw [delivered, cleared, none, empty, all]
  rfl

theorem wp_copy_tasks {cr3 virt : Nat} {bytes : List UInt8} {k : Kernel} {Q : Kernel → Prop}
    (holds : ∀ p, Q { k with paging := p }) :
    wp (Kernel.copyToRegionIn cr3 virt bytes) (fun _ k' => Q k') (fun _ _ => True) k := by
  unfold wp Kernel.copyToRegionIn
  cases k.paging.copyToRegionIn cr3 virt bytes with
  | none => trivial
  | some p => exact holds p

theorem deliverPendingSignals_task (idx : Nat) (k : Kernel) :
    wp (deliverPendingSignals idx) (fun _ k' => k'.tasks idx = delivered (k.tasks idx))
      (fun _ _ => True) k := by
  unfold deliverPendingSignals
  rw [wp_bind, wp_gets]
  dsimp only
  split
  · next none => exact (delivered_of_none none).symm
  · rw [wp_bind, wp_update]
    have first : (k.modifyTask idx fun t => { t with
        pendingSignals := t.pendingSignals &&& ~~~(k.tasks idx).deliverable }).tasks idx =
        cleared (k.tasks idx) := update_self idx _ k.tasks
    generalize (k.modifyTask idx fun t => { t with
        pendingSignals := t.pendingSignals &&& ~~~(k.tasks idx).deliverable }) = k₁ at first
    rw [delivered]
    split
    · next action => rw [action]; exact first
    · next signum action =>
        rw [action]
        show update k₁.tasks idx _ idx = _
        rw [update_self, first]
        rfl
    · next signum handler action =>
        rw [action]
        generalize wordBytes userSigtramp = trampoline
        rw [wp_bind]
        refine wp_copy_tasks fun p => ?_
        rw [wp_bind]
        refine wp_copy_tasks fun p' => ?_
        rw [wp_bind, wp_update, wp_pure]
        simp only [modifyTask, setTask, update_self, first, respond, cleared_ctx]

theorem deliverIfPending_task (idx : Nat) (k : Kernel) :
    wp (deliverIfPending idx) (fun _ k' => k'.tasks idx = delivered (k.tasks idx))
      (fun _ _ => True) k := by
  unfold deliverIfPending
  simp only [wp_bind, wp_gets]
  split
  · next none =>
      refine (delivered_of_none ?_).symm
      rw [Task.deliverable, none]
      simp
  · exact deliverPendingSignals_task idx k

/-! ## Accounting -/

/-- What has become of a signal that is not pending any more. -/
inductive Settled (t t' : Task) (signum : Nat) : Prop
  | ignored (quiet : Sys.ignored t.signalHandlers signum = true)
  | ended (dead : t'.state = .dead (128 + signum))
  /-- The task is resumed in the handler, with the number of the signal. -/
  | entered (alive : t'.state = t.state) (resumed : t'.firstRun = false)
      (rip : t'.ctx.rip = handlerOf t.signalHandlers signum) (rdi : t'.ctx.rdi = signum)

/-- From `t` to `t'` no signal has been lost. -/
def Accounts (t t' : Task) : Prop :=
  ∀ bit, t.pendingSignals.getLsbD bit = true →
    t'.pendingSignals.getLsbD bit = true ∨ Settled t t' (bit + 1)

/-- A signal that can be delivered and is not ignored. -/
def Active (t : Task) (bit : Nat) : Prop :=
  t.deliverable.getLsbD bit = true ∧ ignored t.signalHandlers (bit + 1) = false

/-- At most one signal is active, and none has a handler before the task has run. -/
structure Spaced (t : Task) : Prop where
  one : ∀ {a b}, Active t a → Active t b → a = b
  resumed : ∀ {a}, Active t a → handlerOf t.signalHandlers (a + 1) ≠ sigDfl → t.firstRun = false

theorem pending_of_deliverable {t : Task} {bit : Nat} (inside : t.deliverable.getLsbD bit = true) :
    t.pendingSignals.getLsbD bit = true := by
  simp only [Task.deliverable, BitVec.getLsbD_or, BitVec.getLsbD_and, Bool.or_eq_true,
    Bool.and_eq_true] at inside
  rcases inside with ⟨pending, -⟩ | ⟨pending, -⟩
  · exact pending
  · exact pending

@[simp] theorem respond_pending (t : Task) (d : Disposition) :
    (respond t d).pendingSignals = t.pendingSignals := by
  cases d <;> rfl

/-- What stays pending is what is blocked. -/
theorem delivered_pending {t : Task} {bit : Nat} :
    (delivered t).pendingSignals.getLsbD bit = true ↔
      t.pendingSignals.getLsbD bit = true ∧ t.deliverable.getLsbD bit = false := by
  rw [delivered, respond_pending, cleared, BitVec.getLsbD_and, BitVec.getLsbD_not, Bool.and_eq_true,
    Bool.and_eq_true, Bool.not_eq_true', decide_eq_true_eq]
  constructor
  · rintro ⟨pending, -, blocked⟩
    exact ⟨pending, blocked⟩
  · rintro ⟨pending, blocked⟩
    exact ⟨pending, BitVec.lt_of_getLsbD pending, blocked⟩

/-- The signals that are to be accounted for. -/
theorem accounts_iff_active {t : Task} :
    Accounts t (delivered t) ↔ ∀ bit, Active t bit → Settled t (delivered t) (bit + 1) := by
  constructor
  · rintro accounts bit ⟨inside, -⟩
    rcases accounts bit (pending_of_deliverable inside) with still | settled
    · exact absurd ((delivered_pending.mp still).2.symm.trans inside) (by decide)
    · exact settled
  · intro settled bit pending
    cases inside : t.deliverable.getLsbD bit with
    | false => exact .inl (delivered_pending.mpr ⟨pending, inside⟩)
    | true =>
      cases quiet : ignored t.signalHandlers (bit + 1) with
      | true => exact .inr (.ignored quiet)
      | false => exact .inr (settled bit ⟨inside, quiet⟩)

/-- The signal acted on is one of the active ones, and the only one settled. -/
theorem settled_iff {t : Task} (ready : t.state = .ready) {first bit : Nat} (active : Active t bit)
    (action : signalAction t.signalHandlers (bitsOf t.deliverable) =
      actionOf t.signalHandlers (first + 1)) :
    Settled t (delivered t) (bit + 1) ↔ bit = first ∧
      (handlerOf t.signalHandlers (first + 1) ≠ sigDfl → t.firstRun = false) := by
  have loud := active.2
  by_cases dfl : handlerOf t.signalHandlers (first + 1) = sigDfl
  · have died : (delivered t).state = .dead (128 + (first + 1 : Nat)) := by
      rw [delivered, action, actionOf, if_pos dfl]
      rfl
    constructor
    · rintro (quiet | dead | ⟨alive⟩)
      · exact absurd (quiet.symm.trans loud) (by decide)
      · rw [died] at dead
        refine ⟨?_, fun other => absurd dfl other⟩
        injection dead with code
        omega
      · rw [died, ready] at alive
        cases alive
    · rintro ⟨rfl, -⟩
      exact .ended died
  · have shape : delivered t = respond (cleared t)
        (.handle (first + 1) (handlerOf t.signalHandlers (first + 1))) := by
      rw [delivered, action, actionOf, if_neg dfl]
    constructor
    · rintro (quiet | dead | ⟨-, resumed, -, rdi⟩)
      · exact absurd (quiet.symm.trans loud) (by decide)
      · rw [shape] at dead
        exact absurd (ready.symm.trans dead) (by simp)
      · rw [shape] at resumed rdi
        refine ⟨?_, fun _ => resumed⟩
        have same : first + 1 = bit + 1 := rdi
        omega
    · rintro ⟨rfl, resumed⟩
      rw [shape]
      exact .entered rfl (resumed dfl) rfl rfl

/-- **A delivery accounts for every signal** exactly if the signals are spaced. -/
theorem accounts_iff_spaced {t : Task} (ready : t.state = .ready) :
    Accounts t (delivered t) ↔ Spaced t := by
  rw [accounts_iff_active]
  rcases signalAction_cases t.signalHandlers (bitsOf t.deliverable) with
    ⟨-, all⟩ | ⟨first, member, loud, action⟩
  · have none : ∀ bit, ¬Active t bit := by
      rintro bit ⟨inside, loud⟩
      exact absurd ((all bit (mem_bitsOf.mpr inside)).symm.trans loud) (by decide)
    exact ⟨fun _ => ⟨fun active => absurd active (none _), fun active => absurd active (none _)⟩,
      fun _ bit active => absurd active (none bit)⟩
  · have active : Active t first := ⟨mem_bitsOf.mp member, loud⟩
    constructor
    · intro settled
      have only : ∀ {bit}, Active t bit → bit = first ∧
          (handlerOf t.signalHandlers (first + 1) ≠ sigDfl → t.firstRun = false) :=
        fun here => (settled_iff ready here action).mp (settled _ here)
      refine ⟨fun a b => (only a).1.trans (only b).1.symm, ?_⟩
      intro a here handled
      obtain ⟨rfl, resumed⟩ := only here
      exact resumed handled
    · intro spaced bit here
      exact (settled_iff ready here action).mpr ⟨spaced.one here active, spaced.resumed active⟩

/-! ## Runs -/

/-- The delivery of signals in an event, if there is one: the slot of the task, and
the states before and after it. -/
def delivery (k : Kernel) : Event → Option (Nat × Kernel × Kernel)
  | .tick messages =>
    if k.userMode then none else
    match prepare messages k with
    | (.error _, _) => none
    | (.ok _, k₁) =>
      match nextReady k₁ with
      | none => none
      | some idx =>
        match deliverIfPending idx { k₁ with current := idx } with
        | (.error _, _) => none
        | (.ok _, k₂) => some (idx, k₁, k₂)
  | _ => none

/-- The event loses no signal. -/
def KeepsSignals (k : Kernel) (e : Event) : Prop :=
  ∀ idx k₁ k₂, delivery k e = some (idx, k₁, k₂) → Accounts (k₁.tasks idx) (k₂.tasks idx)

/-- The signals of the task the event delivers to are spaced. -/
def SpacesSignals (k : Kernel) (e : Event) : Prop :=
  ∀ idx k₁ k₂, delivery k e = some (idx, k₁, k₂) → Spaced (k₁.tasks idx)

theorem delivery_eq_some {k k₁ k₂ : Kernel} {e : Event} {idx : Nat}
    (happens : delivery k e = some (idx, k₁, k₂)) :
    ∃ messages killed, e = .tick messages ∧ k.userMode = false ∧
      prepare messages k = (.ok ⟨⟩, k₁) ∧ nextReady k₁ = some idx ∧
      deliverIfPending idx { k₁ with current := idx } = (.ok killed, k₂) := by
  cases e with
  | tick messages =>
    simp only [delivery] at happens
    split at happens
    · cases happens
    · next kernel =>
        split at happens
        · cases happens
        · next prepared =>
            split at happens
            · cases happens
            · next chosen =>
                split at happens
                · cases happens
                · next killed _ result =>
                    cases happens
                    exact ⟨messages, killed, rfl, by simpa using kernel, prepared, chosen, result⟩
  | spawn | kill | timer | exception | store | syscall => cases happens

theorem delivery_task {k k₁ k₂ : Kernel} {e : Event} {idx : Nat}
    (happens : delivery k e = some (idx, k₁, k₂)) :
    (k₁.tasks idx).state = .ready ∧ k₂.tasks idx = delivered (k₁.tasks idx) := by
  obtain ⟨messages, killed, -, -, -, chosen, result⟩ := delivery_eq_some happens
  exact ⟨(nextReady_eq_some chosen).2, (wp_ok result).mp (deliverIfPending_task idx _)⟩

/-- **No signal is lost** in a run exactly if the signals are spaced at each of its
deliveries. -/
theorem no_signal_lost_iff (boot : Paging) (events : List Event) :
    Along advance KeepsSignals (Kernel.start boot) events ↔
      Along advance SpacesSignals (Kernel.start boot) events := by
  have each : ∀ k e, KeepsSignals k e ↔ SpacesSignals k e := by
    intro k e
    refine forall_congr' fun idx => forall_congr' fun k₁ => forall_congr' fun k₂ =>
      forall_congr' fun happens => ?_
    obtain ⟨ready, after⟩ := delivery_task happens
    rw [after]
    exact accounts_iff_spaced ready
  exact ⟨fun along => along.mono fun k e => (each k e).mp,
    fun along => along.mono fun k e => (each k e).mpr⟩

/-- The registers of a program with its stack at the top. -/
def atTop : TaskContext := { TaskContext.zeroed with rsp := 0x800000 }

/-- A program handles two signals, sends itself both and is preempted. -/
def twoSignals : List Event :=
  startLooping ++ [.syscall (some .zeroed) (.sigaction 10 0x400000 0),
    .syscall (some .zeroed) (.sigaction 12 0x400100 0), .syscall (some .zeroed) (.kill 1 10),
    .syscall (some .zeroed) (.kill 1 12), .timer atTop, .timer atTop]

set_option maxRecDepth 100000 in
/-- Two signals with handlers are pending: the handler of the first is entered, and
the second is gone. -/
theorem second_signal_lost :
    ∃ k k₁ k₂, run advance (Kernel.start roomyBoot) twoSignals = some k ∧
      delivery k (.tick fun _ => none) = some (0, k₁, k₂) ∧
      (k₁.tasks 0).pendingSignals = sigBit 10 ||| sigBit 12 ∧
      (k₂.tasks 0).pendingSignals = 0 ∧ (k₂.tasks 0).ctx.rip = 0x400000 ∧
      (k₂.tasks 0).ctx.rdi = 10 ∧ ¬KeepsSignals k (.tick fun _ => none) := by
  have ends : (run advance (Kernel.start roomyBoot) twoSignals).map (fun k =>
      (delivery k (.tick fun _ => none)).map fun (idx, k₁, k₂) => decide (idx = 0 ∧
        (k₁.tasks 0).pendingSignals = sigBit 10 ||| sigBit 12 ∧
        (k₂.tasks 0).pendingSignals = 0 ∧ (k₂.tasks 0).ctx.rip = 0x400000 ∧
        (k₂.tasks 0).ctx.rdi = 10 ∧ (k₂.tasks 0).state = .ready ∧
        ignored (k₁.tasks 0).signalHandlers 12 = false)) = some (some true) := by decide +kernel
  obtain ⟨k, ran, rest⟩ := Option.map_eq_some_iff.mp ends
  obtain ⟨⟨idx, k₁, k₂⟩, happens, facts⟩ := Option.map_eq_some_iff.mp rest
  obtain ⟨rfl, before, after, rip, rdi, ready, loud⟩ := of_decide_eq_true facts
  refine ⟨k, k₁, k₂, ran, happens, before, after, rip, rdi, fun keeps => ?_⟩
  have pending : (k₁.tasks 0).pendingSignals.getLsbD 11 = true := by
    rw [before]
    decide
  rcases keeps 0 k₁ k₂ happens 11 pending with still | quiet | dead | ⟨-, -, -, other⟩
  · rw [after] at still
    exact absurd still (by decide)
  · exact absurd (quiet.symm.trans loud) (by decide)
  · rw [ready] at dead
    cases dead
  · rw [rdi] at other
    cases other

/-! ## Returning from a handler -/

/-- The instruction `ret`: the return address is popped. -/
def ret (c : TaskContext) : Kern TaskContext := do
  let bytes ← copyFromUser c.rsp 8
  return { c with rip := wordOf bytes, rsp := (c.rsp + 8) % 2 ^ 64 }

/-- The trampoline up to the instruction after `int 0x80`. The number it loads, 95, is that of
`umask`, which answers `0o022`; `sigreturn` is 15. -/
def trampoline (c : TaskContext) : TaskContext := { c with rax := 18, rip := userSigtramp + 9 }

/-- The registers with which a task goes on after its handler. -/
def leaveHandler (c : TaskContext) : Kern TaskContext := do
  let c ← ret c
  return if c.rip = userSigtramp then trampoline c else c

theorem wp_of_forall {α : Type} {p : Kern α} {Q : α → Kernel → Prop} (always : ∀ a k, Q a k)
    (k : Kernel) : wp p Q (fun _ _ => True) k := by
  unfold wp
  split
  · exact always _ _
  · trivial

theorem leaveHandler_rsp (c : TaskContext) (k : Kernel) :
    wp (leaveHandler c) (fun c' _ => c'.rsp = (c.rsp + 8) % 2 ^ 64) (fun _ _ => True) k := by
  unfold leaveHandler ret trampoline
  simp only [bind_assoc, pure_bind]
  rw [wp_bind]
  refine wp_of_forall (fun bytes k₁ => ?_) k
  show (if _ then _ else _ : TaskContext).rsp = _
  split <;> rfl

/-- The task is resumed in a handler. -/
def entersHandler (t : Task) : Bool :=
  !t.firstRun && match signalAction t.signalHandlers (bitsOf t.deliverable) with
    | .handle _ _ => true
    | _ => false

/-- A handler entered in `k` with the registers `entry` comes to its `ret` in `k'` with the
registers `c`: the stack pointer and the registers of the caller are those of the entry,
and the memory from `rsp` on is unchanged. -/
structure HandlerReturns (k : Kernel) (entry : TaskContext) (rsp : Nat) (k' : Kernel)
    (c : TaskContext) : Prop where
  task : k'.current = k.current ∧ (k'.tasks k'.current).cr3 = (k.tasks k.current).cr3
  stack : c.rsp = entry.rsp
  saved : c.rbx = entry.rbx ∧ c.rbp = entry.rbp ∧ c.r12 = entry.r12 ∧ c.r13 = entry.r13 ∧
    c.r14 = entry.r14 ∧ c.r15 = entry.r15
  memory : ∀ addr ≥ rsp, k'.paging.readUser (k.tasks k.current).cr3 addr 1 =
    k.paging.readUser (k.tasks k.current).cr3 addr 1

/-- If the event enters a handler, the task goes on with the interrupted registers after
every normal return of it. -/
def Transparent (k : Kernel) (e : Event) : Prop :=
  ∀ idx k₁ k₂, delivery k e = some (idx, k₁, k₂) → entersHandler (k₁.tasks idx) = true →
    ∀ k' c, HandlerReturns (resume idx k₂) (k₂.tasks idx).ctx (k₁.tasks idx).ctx.rsp k' c →
      ∃ k'', leaveHandler c k' = (.ok (k₁.tasks idx).ctx, k'')

/-- The word popped by the handler's `ret` is not the last one that was pushed. -/
theorem handlerFrame_add_ne (rsp : Nat) : (handlerFrame rsp + 8) % 2 ^ 64 ≠ rsp := by
  unfold handlerFrame handlerReturn frameSize
  omega

/-- **A handler is transparent** only if it is not entered: it leaves the stack pointer
in the signal frame. -/
theorem transparent_iff (k : Kernel) (e : Event) :
    Transparent k e ↔ ∀ idx k₁ k₂, delivery k e = some (idx, k₁, k₂) →
      entersHandler (k₁.tasks idx) = false := by
  constructor
  · intro transparent idx k₁ k₂ happens
    by_contra entered
    rw [Bool.not_eq_false] at entered
    have entry : (k₂.tasks idx).ctx.rsp = handlerFrame (k₁.tasks idx).ctx.rsp := by
      rw [(delivery_task happens).2, delivered]
      unfold entersHandler at entered
      split at entered
      · next action => rw [action]; rfl
      · rw [Bool.and_false] at entered
        cases entered
    obtain ⟨k'', left⟩ := transparent idx k₁ k₂ happens entered (resume idx k₂) (k₂.tasks idx).ctx
      ⟨⟨rfl, rfl⟩, rfl, ⟨rfl, rfl, rfl, rfl, rfl, rfl⟩, fun _ _ => rfl⟩
    have popped := (wp_ok left).mp (leaveHandler_rsp _ _)
    rw [entry] at popped
    exact handlerFrame_add_ne _ popped.symm
  · intro none idx k₁ k₂ happens entered
    rw [none idx k₁ k₂ happens] at entered
    cases entered

/-- A program handles a signal, sends it to itself and is preempted at `0x400010`. -/
def oneSignal : List Event :=
  let preempted := Event.timer { atTop with rip := 0x400010, rdi := 3 }
  startLooping ++ [.syscall (some .zeroed) (.sigaction 10 0x400000 0),
    .syscall (some .zeroed) (.kill 1 10), preempted, preempted]

set_option maxRecDepth 100000 in
/-- The handler returns at once. Its `ret` pops the interrupted `rip` off the signal frame
and not the address of the trampoline, so `sigreturn` is not called: the stack pointer is
left in the frame, and `rdi` holds the number of the signal. -/
theorem handler_not_transparent :
    ∃ k k₁ k₂ c k₃, run advance (Kernel.start roomyBoot) oneSignal = some k ∧
      delivery k (.tick fun _ => none) = some (0, k₁, k₂) ∧ (k₁.tasks 0).ctx.rsp = 0x800000 ∧
      (k₁.tasks 0).ctx.rdi = 3 ∧ leaveHandler (k₂.tasks 0).ctx (resume 0 k₂) = (.ok c, k₃) ∧
      c.rip = 0x400010 ∧ c.rsp = 0x7fff78 ∧ c.rdi = 10 ∧ ¬Transparent k (.tick fun _ => none) := by
  have ends : (run advance (Kernel.start roomyBoot) oneSignal).map (fun k =>
      (delivery k (.tick fun _ => none)).map fun (idx, k₁, k₂) =>
        (decide (idx = 0 ∧ (k₁.tasks 0).ctx.rsp = 0x800000 ∧ (k₁.tasks 0).ctx.rdi = 3 ∧
          entersHandler (k₁.tasks 0) = true),
        (leaveHandler (k₂.tasks 0).ctx (resume 0 k₂)).1.toOption.map fun c =>
          decide (c.rip = 0x400010 ∧ c.rsp = 0x7fff78 ∧ c.rdi = 10))) =
      some (some (true, some true)) := by decide +kernel
  obtain ⟨k, ran, rest⟩ := Option.map_eq_some_iff.mp ends
  obtain ⟨⟨idx, k₁, k₂⟩, happens, facts⟩ := Option.map_eq_some_iff.mp rest
  obtain ⟨before, after⟩ := Prod.mk.inj facts
  obtain ⟨rfl, rsp, rdi, entered⟩ := of_decide_eq_true before
  obtain ⟨c, left, registers⟩ := Option.map_eq_some_iff.mp after
  obtain ⟨popped, stack, argument⟩ := of_decide_eq_true registers
  rcases result : leaveHandler (k₂.tasks 0).ctx (resume 0 k₂) with ⟨out, k₃⟩
  rw [result] at left
  cases out with
  | error e => cases left
  | ok c' =>
    cases left
    refine ⟨k, k₁, k₂, c, k₃, ran, happens, rsp, rdi, result, popped, stack, argument, ?_⟩
    intro transparent
    obtain ⟨k₄, same⟩ := transparent 0 k₁ k₂ happens entered (resume 0 k₂) (k₂.tasks 0).ctx
      ⟨⟨rfl, rfl⟩, rfl, ⟨rfl, rfl, rfl, rfl, rfl, rfl⟩, fun _ _ => rfl⟩
    rw [result] at same
    have stays : c = (k₁.tasks 0).ctx := by injection (Prod.mk.inj same).1
    rw [stays, rsp] at stack
    cases stack

end OxideOS.Sys
