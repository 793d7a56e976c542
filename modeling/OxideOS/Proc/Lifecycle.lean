import OxideOS.Lib.Run
import OxideOS.Proc.Spawn

/-!
# The life cycle of tasks

An abstract machine for what the scheduler and the system calls do to tasks. It
sees of a task only its state, its numbers and its address space (`Slot`), and of
the kernel only the slots, who is running and the history (`Life`). A `Move` is
one indivisible change: a task is woken, parked, resumed, preempted, created,
killed, collected. `Life.step` says when a move is possible and what it does.

Three invariants are proved of its runs, each under a condition on the moves:
`Slots` needs none; `Tended` says that the task in user mode is running;
`Lineage` relates children, parents and completed waits; `Buried` says what is
left of the dead. That the kernel's events are runs of this machine is proved
elsewhere.
-/

set_option autoImplicit false

namespace OxideOS.Proc

open Lib Function

structure Slot where
  state : TaskState
  pid : Nat
  parentPid : Nat
  cr3 : Nat
  uid : Nat
  parentUid : Nat

def Slot.live (s : Slot) : Bool := !s.state.isFree

/-- The part of the kernel that the life cycle is about. -/
structure Life where
  slots : Nat → Slot
  current : Nat
  userMode : Bool
  nextUid : Nat
  trace : List Note

inductive Move where
  /-- A sleeper, or a task waiting for a message, becomes ready. -/
  | wake (i : Nat)
  /-- The task in slot `i` waits for the dead child in slot `j` and gets its code. -/
  | collect (i j : Nat) (code : Int)
  /-- The current task finds its child in slot `j` dead. -/
  | reap (j : Nat) (code : Int)
  | choose (i : Nat)
  | resume
  /-- The current task blocks. -/
  | park (s : TaskState)
  /-- The current task is marked as asleep but goes on. -/
  | suspend (wake : Nat)
  | preempt
  /-- The current task ends. -/
  | exit (code : Int)
  /-- A signal ends the task that was to run next. -/
  | fatal (code : Int)
  /-- `SIGKILL`. -/
  | kill (i : Nat) (code : Int)
  | spawn (slot cr3 : Nat)
  | fork (slot cr3 : Nat)
  | exec (cr3 : Nat)

namespace Life

/-! ## Updates -/

def setSlot (L : Life) (i : Nat) (s : Slot) : Life :=
  { L with slots := update L.slots i s }

def setState (L : Life) (i : Nat) (st : TaskState) : Life :=
  L.setSlot i { L.slots i with state := st }

def note (L : Life) (n : Note) : Life := { L with trace := L.trace ++ [n] }

def findPid (L : Life) (pid : Nat) : Option Nat :=
  firstBelow maxTasks fun i => (L.slots i).pid == pid

def liveParent (L : Life) (s : Slot) : Option Nat :=
  if s.parentUid = 0 then none else
  (firstBelow maxTasks fun j => (L.slots j).live && (L.slots j).uid == s.parentUid).map
    fun _ => s.parentUid

def die (L : Life) (i : Nat) (code : Int) : Life :=
  (L.setState i (.dead code)).note (.died (L.slots i).uid code (L.liveParent (L.slots i)))

def free (L : Life) (i : Nat) : Life := L.setSlot i { L.slots i with cr3 := 0 }

/-- The slot `j` becomes `Empty`; `parent` has its code. -/
def bury (L : Life) (parent j : Nat) (code : Int) : Life :=
  (L.setSlot j { L.slots j with state := .empty, pid := 0, parentPid := 0 }).note
    (.waited (L.slots parent).uid (L.slots j).pid (L.slots j).uid code)

/-- A signal makes a sleeper ready. -/
def rouse (L : Life) (i : Nat) : Life :=
  L.setState i (if (L.slots i).state.isSleeping then .ready else (L.slots i).state)

/-- `SIGCHLD` for the death of `child` goes to the task with pid `parentPid`. -/
def notify (L : Life) (parentPid child : Nat) : Life :=
  match L.findPid parentPid with
  | none => L
  | some i =>
    if (L.slots i).state.isFree then L
    else (L.rouse i).note (.notified (L.slots i).uid child)

/-- The current task has come back from user mode for good. -/
def finish (L : Life) (code : Int) : Life :=
  let idx := L.current
  let L := { L with userMode := false }
  let s := L.slots idx
  let L := (L.die idx code).free idx
  if s.parentPid ≠ 0 then L.notify s.parentPid s.uid else L

def spawn (L : Life) (slot cr3 : Nat) : Life :=
  { L.setSlot slot ⟨.ready, slot + 1, 0, cr3, L.nextUid, 0⟩ with nextUid := L.nextUid + 1 }

def fork (L : Life) (slot cr3 : Nat) : Life :=
  let parent := L.slots L.current
  { (L.setSlot slot ⟨.ready, slot + 1, parent.pid, cr3, L.nextUid, parent.uid⟩).note
      (.forked parent.uid L.nextUid (slot + 1)) with
    nextUid := L.nextUid + 1 }

def exec (L : Life) (cr3 : Nat) : Life :=
  L.setSlot L.current { L.slots L.current with cr3 := cr3 }

/-! ## The machine -/

/-- The current task may block in this state: it waits only for a child. -/
def mayPark (L : Life) : TaskState → Bool
  | .sleeping _ | .waitingForMsg _ _ => true
  | .waiting c => (firstBelow maxTasks fun j =>
    (L.slots j).pid == c && (L.slots j).parentPid == (L.slots L.current).pid).isSome
  | _ => false

/-- Asleep or waiting for a message. -/
def isBlocked : TaskState → Bool
  | .sleeping _ | .waitingForMsg _ _ => true
  | _ => false

/-- One move, when it is possible. -/
def step (L : Life) : Move → Option Life
  | .wake i =>
    if i < maxTasks ∧ isBlocked (L.slots i).state = true then some (L.setState i .ready) else none
  | .collect i j code =>
    if L.userMode = false ∧ i < maxTasks ∧ j < maxTasks ∧
        (L.slots i).state = .waiting (L.slots j).pid ∧ (L.slots j).state = .dead code then
      some ((L.setState i .ready).bury i j code)
    else none
  | .reap j code =>
    if L.userMode = true ∧ j < maxTasks ∧ (L.slots j).state = .dead code ∧
        (L.slots j).parentPid = (L.slots L.current).pid then
      some (L.bury L.current j code)
    else none
  | .choose i => if L.userMode = false ∧ i < maxTasks then some { L with current := i } else none
  | .resume =>
    if L.userMode = false ∧ (L.slots L.current).state = .ready then
      some { L.setState L.current .running with userMode := true }
    else none
  | .park s =>
    if L.userMode = true ∧ L.mayPark s = true then
      some { L.setState L.current s with userMode := false }
    else none
  | .suspend wake =>
    if L.userMode = true then some (L.setState L.current (.sleeping wake)) else none
  | .preempt =>
    if L.userMode = true then some { L.setState L.current .ready with userMode := false } else none
  | .exit code => if L.userMode = true then some (L.finish code) else none
  | .fatal code =>
    if L.userMode = false ∧ (L.slots L.current).state = .ready then
      some ((L.die L.current code).free L.current)
    else none
  | .kill i code =>
    if i < maxTasks ∧ (L.slots i).live = true then some (L.die i code) else none
  | .spawn slot cr3 =>
    if L.userMode = false ∧ slot < maxTasks ∧ (L.slots slot).state.isFree = true then
      some (L.spawn slot cr3)
    else none
  | .fork slot cr3 =>
    if L.userMode = true ∧ slot < maxTasks ∧ slot ≠ L.current ∧
        (L.slots slot).state.isFree = true then
      some (L.fork slot cr3)
    else none
  | .exec cr3 => if L.userMode = true then some (L.exec cr3) else none

/-- The moves with their conditions and effects, one by one. -/
inductive Moves (L : Life) : Move → Life → Prop
  | wake {i : Nat} (bound : i < maxTasks) (blocked : isBlocked (L.slots i).state = true) :
      Moves L (.wake i) (L.setState i .ready)
  | collect {i j : Nat} {code : Int} (kernel : L.userMode = false) (boundI : i < maxTasks)
      (boundJ : j < maxTasks)
      (waits : (L.slots i).state = .waiting (L.slots j).pid)
      (dead : (L.slots j).state = .dead code) :
      Moves L (.collect i j code) ((L.setState i .ready).bury i j code)
  | reap {j : Nat} {code : Int} (user : L.userMode = true) (bound : j < maxTasks)
      (dead : (L.slots j).state = .dead code)
      (child : (L.slots j).parentPid = (L.slots L.current).pid) :
      Moves L (.reap j code) (L.bury L.current j code)
  | choose {i : Nat} (kernel : L.userMode = false) (bound : i < maxTasks) :
      Moves L (.choose i) { L with current := i }
  | resume (kernel : L.userMode = false) (ready : (L.slots L.current).state = .ready) :
      Moves L .resume { L.setState L.current .running with userMode := true }
  | park {s : TaskState} (user : L.userMode = true) (may : L.mayPark s = true) :
      Moves L (.park s) { L.setState L.current s with userMode := false }
  | suspend {wake : Nat} (user : L.userMode = true) :
      Moves L (.suspend wake) (L.setState L.current (.sleeping wake))
  | preempt (user : L.userMode = true) :
      Moves L .preempt { L.setState L.current .ready with userMode := false }
  | exit {code : Int} (user : L.userMode = true) : Moves L (.exit code) (L.finish code)
  | fatal {code : Int} (kernel : L.userMode = false) (ready : (L.slots L.current).state = .ready) :
      Moves L (.fatal code) ((L.die L.current code).free L.current)
  | kill {i : Nat} {code : Int} (bound : i < maxTasks) (alive : (L.slots i).live = true) :
      Moves L (.kill i code) (L.die i code)
  | spawn {slot cr3 : Nat} (kernel : L.userMode = false) (bound : slot < maxTasks)
      (vacant : (L.slots slot).state.isFree = true) : Moves L (.spawn slot cr3) (L.spawn slot cr3)
  | fork {slot cr3 : Nat} (user : L.userMode = true) (bound : slot < maxTasks)
      (other : slot ≠ L.current) (vacant : (L.slots slot).state.isFree = true) :
      Moves L (.fork slot cr3) (L.fork slot cr3)
  | exec {cr3 : Nat} (user : L.userMode = true) : Moves L (.exec cr3) (L.exec cr3)

theorem moves_of_step {L L' : Life} {m : Move} (moved : L.step m = some L') : Moves L m L' := by
  cases m <;> simp only [step, Option.ite_none_right_eq_some, Option.some.injEq] at moved <;>
    obtain ⟨guard, rfl⟩ := moved
  case wake => exact .wake guard.1 guard.2
  case collect => exact .collect guard.1 guard.2.1 guard.2.2.1 guard.2.2.2.1 guard.2.2.2.2
  case reap => exact .reap guard.1 guard.2.1 guard.2.2.1 guard.2.2.2
  case choose => exact .choose guard.1 guard.2
  case resume => exact .resume guard.1 guard.2
  case park => exact .park guard.1 guard.2
  case suspend => exact .suspend guard
  case preempt => exact .preempt guard
  case exit => exact .exit guard
  case fatal => exact .fatal guard.1 guard.2
  case kill => exact .kill guard.1 guard.2
  case spawn => exact .spawn guard.1 guard.2.1 guard.2.2
  case fork => exact .fork guard.1 guard.2.1 guard.2.2.1 guard.2.2.2
  case exec => exact .exec guard

/-! ## What the updates do -/

section Updates

variable (L : Life) (i j : Nat) (s : Slot) (st : TaskState) (n : Note)

@[simp] theorem setSlot_self : (L.setSlot i s).slots i = s := update_self ..

theorem setSlot_of_ne {i j : Nat} (other : j ≠ i) : (L.setSlot i s).slots j = L.slots j :=
  update_of_ne other ..

@[simp] theorem setSlot_current : (L.setSlot i s).current = L.current := rfl
@[simp] theorem setSlot_userMode : (L.setSlot i s).userMode = L.userMode := rfl
@[simp] theorem setSlot_nextUid : (L.setSlot i s).nextUid = L.nextUid := rfl
@[simp] theorem setSlot_trace : (L.setSlot i s).trace = L.trace := rfl

@[simp] theorem setState_current : (L.setState i st).current = L.current := rfl
@[simp] theorem setState_userMode : (L.setState i st).userMode = L.userMode := rfl
@[simp] theorem setState_nextUid : (L.setState i st).nextUid = L.nextUid := rfl
@[simp] theorem setState_trace : (L.setState i st).trace = L.trace := rfl

@[simp] theorem setState_self : (L.setState i st).slots i = { L.slots i with state := st } :=
  setSlot_self ..

theorem setState_of_ne {i j : Nat} (other : j ≠ i) : (L.setState i st).slots j = L.slots j :=
  setSlot_of_ne L _ other

@[simp] theorem note_slots : (L.note n).slots = L.slots := rfl
@[simp] theorem note_current : (L.note n).current = L.current := rfl
@[simp] theorem note_userMode : (L.note n).userMode = L.userMode := rfl
@[simp] theorem note_nextUid : (L.note n).nextUid = L.nextUid := rfl
@[simp] theorem note_trace : (L.note n).trace = L.trace ++ [n] := rfl

end Updates

end Life

/-! ## Slots and their numbers -/

/-- What identifies the task in a slot, and whether there is one. -/
def Slot.identity (s : Slot) : Bool × Nat × Nat × Nat × Nat :=
  (s.state == .empty, s.pid, s.parentPid, s.uid, s.parentUid)

/-- A task is in the slot, alive or dead. -/
def Slot.Taken (s : Slot) : Prop := s.state ≠ .empty

theorem Slot.taken_iff {s t : Slot} (same : s.identity = t.identity) : s.Taken ↔ t.Taken := by
  have empty : (s.state == .empty) = (t.state == .empty) := (Prod.mk.inj same).1
  by_cases here : t.state = .empty
  · simp_all [Taken]
  · simp_all [Taken]

theorem Slot.Taken.of_live {s : Slot} (live : s.live = true) : s.Taken := by
  intro empty
  simp [Slot.live, empty, TaskState.isFree] at live

/-- The numbers of the tasks: pids are slot numbers, a `uid` is never used twice,
and a child knows the pid of a parent that is still there. -/
structure Slots (L : Life) : Prop where
  current_lt : L.current < maxTasks
  next_pos : 0 < L.nextUid
  empty_pid : ∀ {i}, i < maxTasks → ¬(L.slots i).Taken →
    (L.slots i).pid = 0 ∧ (L.slots i).parentPid = 0
  pid : ∀ {i}, i < maxTasks → (L.slots i).Taken → (L.slots i).pid = i + 1
  uid_lt : ∀ {i}, i < maxTasks → (L.slots i).Taken →
    0 < (L.slots i).uid ∧ (L.slots i).uid < L.nextUid
  uid_inj : ∀ {i j}, i < maxTasks → j < maxTasks → (L.slots i).Taken → (L.slots j).Taken →
    (L.slots i).uid = (L.slots j).uid → i = j
  parent_lt : ∀ {i}, i < maxTasks → (L.slots i).Taken → (L.slots i).parentUid < (L.slots i).uid
  parent_pid : ∀ {i j}, i < maxTasks → j < maxTasks → (L.slots i).Taken → (L.slots j).Taken →
    (L.slots j).uid = (L.slots i).parentUid → (L.slots i).parentPid = (L.slots j).pid
  own_pid : ∀ {i}, i < maxTasks → (L.slots i).parentPid ≠ i + 1
  running : L.userMode = true → (L.slots L.current).Taken
  awake : L.userMode = true → ∀ c, (L.slots L.current).state ≠ .waiting c

namespace Slots

variable {L L' : Life}

/-- A pid leads to the slot it numbers. -/
theorem findPid (slots : Slots L) {j : Nat} (bound : j < maxTasks) (taken : (L.slots j).Taken) :
    L.findPid (j + 1) = some j := by
  cases found : L.findPid (j + 1) with
  | none =>
    have fails := firstBelow_eq_none.mp found j bound
    simp [slots.pid bound taken] at fails
  | some i =>
    obtain ⟨bound', here, -⟩ := firstBelow_eq_some found
    have pid : (L.slots i).pid = j + 1 := by simpa using here
    by_cases taken' : (L.slots i).Taken
    · rw [slots.pid bound' taken'] at pid
      exact congrArg some (by omega)
    · rw [(slots.empty_pid bound' taken').1] at pid
      omega

/-- A change after which the tasks that are there are those of before, in their slots,
keeps the numbers right. -/
theorem of_taken (slots : Slots L)
    (same : ∀ i, (L'.slots i).Taken → (L'.slots i).identity = (L.slots i).identity)
    (empty : ∀ {i}, i < maxTasks → ¬(L'.slots i).Taken →
      (L'.slots i).pid = 0 ∧ (L'.slots i).parentPid = 0)
    (next : L'.nextUid = L.nextUid) (current : L'.current < maxTasks)
    (running : L'.userMode = true → (L'.slots L'.current).Taken)
    (awake : L'.userMode = true → ∀ c, (L'.slots L'.current).state ≠ .waiting c) : Slots L' := by
  have taken : ∀ {i}, (L'.slots i).Taken → (L.slots i).Taken :=
    fun here => (Slot.taken_iff (same _ here)).mp here
  have pid : ∀ {i}, (L'.slots i).Taken → (L'.slots i).pid = (L.slots i).pid :=
    fun here => congrArg (fun x => x.2.1) (same _ here)
  have parentPid : ∀ {i}, (L'.slots i).Taken → (L'.slots i).parentPid = (L.slots i).parentPid :=
    fun here => congrArg (fun x => x.2.2.1) (same _ here)
  have uid : ∀ {i}, (L'.slots i).Taken → (L'.slots i).uid = (L.slots i).uid :=
    fun here => congrArg (fun x => x.2.2.2.1) (same _ here)
  have parentUid : ∀ {i}, (L'.slots i).Taken → (L'.slots i).parentUid = (L.slots i).parentUid :=
    fun here => congrArg (fun x => x.2.2.2.2) (same _ here)
  refine ⟨current, next ▸ slots.next_pos, empty, ?_, ?_, ?_, ?_, ?_, ?_, running, awake⟩
  · intro i bound here
    rw [pid here]
    exact slots.pid bound (taken here)
  · intro i bound here
    rw [uid here, next]
    exact slots.uid_lt bound (taken here)
  · intro i j boundI boundJ takenI takenJ equal
    rw [uid takenI, uid takenJ] at equal
    exact slots.uid_inj boundI boundJ (taken takenI) (taken takenJ) equal
  · intro i bound here
    rw [uid here, parentUid here]
    exact slots.parent_lt bound (taken here)
  · intro i j boundI boundJ takenI takenJ parent
    rw [uid takenJ, parentUid takenI] at parent
    rw [parentPid takenI, pid takenJ]
    exact slots.parent_pid boundI boundJ (taken takenI) (taken takenJ) parent
  · intro i bound
    by_cases here : (L'.slots i).Taken
    · rw [parentPid here]
      exact slots.own_pid bound
    · rw [(empty bound here).2]
      exact (Nat.succ_ne_zero i).symm

end Slots

/-! ## Changes that move no task -/

namespace Life

/-- The same tasks sit in the same slots. -/
structure SameTasks (L L' : Life) : Prop where
  identity : ∀ i, (L'.slots i).identity = (L.slots i).identity
  next : L'.nextUid = L.nextUid

namespace SameTasks

variable {L L' L'' : Life}

theorem refl (L : Life) : SameTasks L L := ⟨fun _ => rfl, rfl⟩

theorem trans (first : SameTasks L L') (second : SameTasks L' L'') : SameTasks L L'' :=
  ⟨fun i => (second.identity i).trans (first.identity i), second.next.trans first.next⟩

section

variable (same : SameTasks L L') (i : Nat)
include same i

theorem taken : (L'.slots i).Taken ↔ (L.slots i).Taken :=
  Slot.taken_iff (same.identity i)

theorem pid : (L'.slots i).pid = (L.slots i).pid :=
  congrArg (fun x => x.2.1) (same.identity i)

theorem parentPid :
    (L'.slots i).parentPid = (L.slots i).parentPid := congrArg (fun x => x.2.2.1) (same.identity i)

theorem uid : (L'.slots i).uid = (L.slots i).uid :=
  congrArg (fun x => x.2.2.2.1) (same.identity i)

theorem parentUid :
    (L'.slots i).parentUid = (L.slots i).parentUid :=
  congrArg (fun x => x.2.2.2.2) (same.identity i)

end

/-- Only slots and the counter of tasks matter. -/
theorem congr (same : SameTasks L L') (slots : L''.slots = L'.slots)
    (next : L''.nextUid = L'.nextUid) : SameTasks L L'' :=
  ⟨fun i => by rw [slots]; exact same.identity i, next.trans same.next⟩

theorem setSlot {i : Nat} {s : Slot} (same : s.identity = (L.slots i).identity) :
    SameTasks L (L.setSlot i s) := by
  refine ⟨fun j => ?_, rfl⟩
  by_cases here : j = i
  · subst here
    rw [setSlot_self, same]
  · rw [setSlot_of_ne L s here]

theorem setState {i : Nat} {st : TaskState} (taken : (L.slots i).Taken) (stays : st ≠ .empty) :
    SameTasks L (L.setState i st) := by
  have before : ((L.slots i).state == .empty) = false := beq_eq_false_iff_ne.mpr taken
  have after : (st == .empty) = false := beq_eq_false_iff_ne.mpr stays
  exact setSlot (by simp [Slot.identity, before, after])

theorem die {i : Nat} (taken : (L.slots i).Taken) (code : Int) : SameTasks L (L.die i code) :=
  (setState taken (by simp : TaskState.dead code ≠ .empty)).congr rfl rfl

theorem free (L : Life) (i : Nat) : SameTasks L (L.free i) := setSlot rfl

theorem rouse (L : Life) {i : Nat} (taken : (L.slots i).Taken) : SameTasks L (L.rouse i) := by
  refine setState taken ?_
  split
  · simp
  · exact taken

theorem notify (L : Life) (parentPid child : Nat) : SameTasks L (L.notify parentPid child) := by
  unfold Life.notify
  split
  · exact refl L
  · split
    · exact refl L
    · next i _ alive =>
        have taken : (L.slots i).Taken := Slot.Taken.of_live (by simpa [Slot.live] using alive)
        exact (rouse L taken).congr rfl rfl

theorem finish (taken : (L.slots L.current).Taken) (code : Int) : SameTasks L (L.finish code) := by
  have left : SameTasks L { L with userMode := false } := (refl L).congr rfl rfl
  have died : SameTasks L (({ L with userMode := false } : Life).die L.current code) :=
    left.trans (die (L := { L with userMode := false }) taken code)
  have freed := died.trans (free _ L.current)
  unfold Life.finish
  dsimp only
  split
  · exact freed.trans (notify _ _ _)
  · exact freed

end SameTasks

/-! ## Who runs after an update -/

theorem die_userMode (L : Life) (i : Nat) (code : Int) : (L.die i code).userMode = L.userMode := rfl

theorem die_current (L : Life) (i : Nat) (code : Int) : (L.die i code).current = L.current := rfl

@[simp] theorem free_current (L : Life) (i : Nat) : (L.free i).current = L.current := rfl

@[simp] theorem free_userMode (L : Life) (i : Nat) : (L.free i).userMode = L.userMode := rfl

@[simp] theorem notify_current (L : Life) (parentPid child : Nat) :
    (L.notify parentPid child).current = L.current := by
  unfold notify
  split
  · rfl
  · split <;> rfl

@[simp] theorem notify_userMode (L : Life) (parentPid child : Nat) :
    (L.notify parentPid child).userMode = L.userMode := by
  unfold notify
  split
  · rfl
  · split <;> rfl

@[simp] theorem finish_current (L : Life) (code : Int) : (L.finish code).current = L.current := by
  unfold finish
  dsimp only
  split <;> simp [die_current]

@[simp] theorem finish_userMode (L : Life) (code : Int) : (L.finish code).userMode = false := by
  unfold finish
  dsimp only
  split <;> simp [die_userMode]

end Life

namespace Slots

variable {L L' : Life}

open Life

section

variable (slots : Slots L)
include slots

theorem of_same (same : SameTasks L L') (current : L'.current < maxTasks)
    (running : L'.userMode = true → (L.slots L'.current).Taken)
    (awake : L'.userMode = true → ∀ c, (L'.slots L'.current).state ≠ .waiting c) : Slots L' := by
  refine slots.of_taken (fun i _ => same.identity i) (fun {i} bound none => ?_) same.next current
    (fun user => (same.taken _).mpr (running user)) awake
  rw [same.pid, same.parentPid]
  exact slots.empty_pid bound fun taken => none ((same.taken i).mpr taken)

/-- A change that moves no task, after which no task is in user mode. -/
theorem leave (same : SameTasks L L') (current : L'.current < maxTasks)
    (left : L'.userMode = false) : Slots L' :=
  slots.of_same same current (by simp [left]) (by simp [left])

/-- A change that moves no task while the current one, if in user mode, goes on. -/
theorem stay (same : SameTasks L L') (current : L'.current = L.current)
    (mode : L'.userMode = L.userMode)
    (awake : L.userMode = true → ∀ c, (L'.slots L.current).state ≠ .waiting c) : Slots L' := by
  refine slots.of_same same ?_ ?_ ?_
  · rw [current]
    exact slots.current_lt
  · rw [mode, current]
    exact slots.running
  · rw [mode, current]
    exact awake

/-- Emptying a slot other than that of the task in user mode. -/
theorem bury {parent j : Nat} {code : Int}
    (other : L.userMode = true → j ≠ L.current) : Slots (L.bury parent j code) := by
  have rest : ∀ {i}, i ≠ j → (L.bury parent j code).slots i = L.slots i :=
    fun different => setSlot_of_ne L _ different
  have current : L.userMode = true → (L.bury parent j code).slots L.current = L.slots L.current :=
    fun user => rest (other user).symm
  refine slots.of_taken (fun i taken => ?_) (fun {i} bound empty => ?_) rfl slots.current_lt
    (fun user => ?_) (fun user => ?_)
  · have different : i ≠ j := by
      rintro rfl
      simp [Life.bury, Slot.Taken] at taken
    rw [rest different]
  · by_cases here : i = j
    · subst here
      simp [Life.bury]
    · rw [rest here] at empty ⊢
      exact slots.empty_pid bound empty
  · show ((L.bury parent j code).slots L.current).Taken
    rw [current user]
    exact slots.running user
  · show ∀ c, ((L.bury parent j code).slots L.current).state ≠ .waiting c
    rw [current user]
    exact slots.awake user

/-- Putting a new task, with the next `uid`, into a slot. -/
theorem create {slot cr3 parentPid parentUid : Nat} (bound : slot < maxTasks)
    (other : L.userMode = true → slot ≠ L.current) (own : parentPid ≠ slot + 1)
    (younger : parentUid < L.nextUid)
    (parent : ∀ {j}, j < maxTasks → (L.slots j).Taken → (L.slots j).uid = parentUid →
      parentPid = (L.slots j).pid) (placed : L'.slots =
      update L.slots slot ⟨.ready, slot + 1, parentPid, cr3, L.nextUid, parentUid⟩)
    (next : L'.nextUid = L.nextUid + 1) (current : L'.current = L.current)
    (mode : L'.userMode = L.userMode) : Slots L' := by
  have new : L'.slots slot = ⟨.ready, slot + 1, parentPid, cr3, L.nextUid, parentUid⟩ := by
    rw [placed, update_self]
  have rest : ∀ {i}, i ≠ slot → L'.slots i = L.slots i := by
    intro i different
    rw [placed, update_of_ne different]
  refine ⟨current ▸ slots.current_lt, by omega, ?_, ?_, ?_, ?_, ?_, ?_, ?_, ?_, ?_⟩
  · intro i inside empty
    by_cases here : i = slot
    · subst here
      rw [new] at empty
      exact absurd (by simp [Slot.Taken]) empty
    · rw [rest here] at empty ⊢
      exact slots.empty_pid inside empty
  · intro i inside taken
    by_cases here : i = slot
    · subst here
      rw [new]
    · rw [rest here] at taken ⊢
      exact slots.pid inside taken
  · intro i inside taken
    by_cases here : i = slot
    · subst here
      rw [new, next]
      exact ⟨slots.next_pos, Nat.lt_succ_self _⟩
    · rw [rest here] at taken ⊢
      have range := slots.uid_lt inside taken
      omega
  · intro i j insideI insideJ takenI takenJ equal
    by_cases hereI : i = slot
    · by_cases hereJ : j = slot
      · exact hereI.trans hereJ.symm
      · rw [rest hereJ] at takenJ equal
        rw [hereI, new] at equal
        exact absurd equal.symm (Nat.ne_of_lt (slots.uid_lt insideJ takenJ).2)
    · rw [rest hereI] at takenI equal
      by_cases hereJ : j = slot
      · rw [hereJ, new] at equal
        exact absurd equal (Nat.ne_of_lt (slots.uid_lt insideI takenI).2)
      · rw [rest hereJ] at takenJ equal
        exact slots.uid_inj insideI insideJ takenI takenJ equal
  · intro i inside taken
    by_cases here : i = slot
    · subst here
      rw [new]
      exact younger
    · rw [rest here] at taken ⊢
      exact slots.parent_lt inside taken
  · intro i j insideI insideJ takenI takenJ equal
    by_cases hereI : i = slot
    · by_cases hereJ : j = slot
      · rw [hereI, hereJ, new] at equal
        exact absurd equal.symm (Nat.ne_of_lt younger)
      · rw [rest hereJ] at takenJ equal ⊢
        rw [hereI, new] at equal ⊢
        exact parent insideJ takenJ equal
    · rw [rest hereI] at takenI equal ⊢
      by_cases hereJ : j = slot
      · rw [hereJ, new] at equal
        have small := slots.parent_lt insideI takenI
        have large := (slots.uid_lt insideI takenI).2
        have equal' : L.nextUid = (L.slots i).parentUid := equal
        omega
      · rw [rest hereJ] at takenJ equal ⊢
        exact slots.parent_pid insideI insideJ takenI takenJ equal
  · intro i inside
    by_cases here : i = slot
    · subst here
      rw [new]
      exact own
    · rw [rest here]
      exact slots.own_pid inside
  · intro user
    rw [mode] at user
    rw [current, rest (other user).symm]
    exact slots.running user
  · intro user
    rw [mode] at user
    rw [current, rest (other user).symm]
    exact slots.awake user

theorem spawn {slot cr3 : Nat} (bound : slot < maxTasks)
    (kernel : L.userMode = false) : Slots (L.spawn slot cr3) := by
  refine slots.create bound (by simp [kernel]) (Nat.succ_ne_zero slot).symm
    slots.next_pos ?_ rfl rfl
    rfl rfl
  intro j inside taken orphan
  exact absurd orphan (Nat.ne_of_gt (slots.uid_lt inside taken).1)

theorem fork {slot cr3 : Nat} (bound : slot < maxTasks)
    (user : L.userMode = true) (other : slot ≠ L.current) : Slots (L.fork slot cr3) := by
  have here := slots.running user
  have pid := slots.pid slots.current_lt here
  refine slots.create bound (fun _ => other) ?_ (slots.uid_lt slots.current_lt here).2 ?_ rfl rfl
    rfl rfl
  · rw [pid]
    omega
  · intro j inside taken same
    rw [slots.uid_inj inside slots.current_lt taken here same]

/-- **The numbers of the tasks are kept by every move.** -/
theorem step {m : Move} (moved : L.step m = some L') : Slots L' := by
  have here := slots.current_lt
  cases moves_of_step moved with
  | @wake i bound blocked =>
    have taken : (L.slots i).Taken := by
      intro empty
      simp [empty, isBlocked] at blocked
    refine slots.stay (.setState taken (by simp)) rfl rfl fun user c => ?_
    by_cases current : L.current = i
    · simp [current]
    · rw [setState_of_ne L _ current]
      exact slots.awake user c
  | @collect i j code kernel boundI boundJ waits dead =>
    have taken : (L.slots i).Taken := by simp [Slot.Taken, waits]
    have ready : Slots (L.setState i .ready) :=
      slots.leave (.setState taken (by simp)) here kernel
    exact ready.bury (by simp [kernel])
  | reap user bound dead child =>
    refine slots.bury fun _ => ?_
    rintro rfl
    rw [slots.pid here (slots.running user)] at child
    exact slots.own_pid here child
  | choose kernel bound => exact slots.leave ((SameTasks.refl L).congr rfl rfl) bound kernel
  | resume kernel ready =>
    have taken : (L.slots L.current).Taken := by simp [Slot.Taken, ready]
    have same : SameTasks L (L.setState L.current .running) := .setState taken (by simp)
    have resumed : Slots { L.setState L.current .running with userMode := true } :=
      slots.of_same (same.congr rfl rfl) here (fun _ => taken) (by simp)
    exact resumed
  | @park s user may =>
    have stays : s ≠ .empty := by
      rintro rfl
      cases may
    exact slots.leave ((SameTasks.setState (slots.running user) stays).congr rfl rfl) here rfl
  | suspend user =>
    exact slots.stay (.setState (slots.running user) (by simp)) rfl rfl (by simp)
  | preempt user =>
    have same : SameTasks L (L.setState L.current .ready) :=
      .setState (slots.running user) (by simp)
    exact slots.leave (same.congr rfl rfl) here rfl
  | exit user =>
    exact slots.leave (.finish (slots.running user) _) (by simpa using here) (by simp)
  | fatal kernel ready =>
    have taken : (L.slots L.current).Taken := by simp [Slot.Taken, ready]
    refine slots.leave ((SameTasks.die taken _).trans (.free _ _)) ?_ ?_
    · simpa [die_current] using here
    · simpa [die_userMode] using kernel
  | @kill i code bound alive =>
    refine slots.stay (.die (.of_live alive) _) rfl rfl fun user c => ?_
    by_cases current : L.current = i
    · simp [current, Life.die]
    · show ((L.setState i (.dead code)).slots L.current).state ≠ .waiting c
      rw [setState_of_ne L _ current]
      exact slots.awake user c
  | spawn kernel bound vacant => exact slots.spawn bound kernel
  | fork user bound other vacant => exact slots.fork bound user other
  | @exec cr3 user =>
    have same : SameTasks L (L.setSlot L.current { L.slots L.current with cr3 := cr3 }) :=
      .setSlot rfl
    refine slots.stay (same.congr rfl rfl) rfl rfl fun _ c => ?_
    simpa [Life.exec] using slots.awake user c

end

end Slots

/-! ## The task in user mode is running -/

/-- The moves under which the task in user mode stays the running one: it is
neither marked as asleep nor killed while it goes on. -/
def Steady (L : Life) : Move → Prop
  | .suspend _ => False
  | .kill i _ => ¬(L.userMode = true ∧ i = L.current)
  | _ => True

/-- The task in user mode, if any, is `Running`. -/
structure Tended (L : Life) : Prop extends Slots L where
  tended : L.userMode = true → (L.slots L.current).state = .running

open Life in
theorem Tended.step {L L' : Life} (good : Tended L) {m : Move} (steady : Steady L m)
    (moved : L.step m = some L') : Tended L' := by
  refine ⟨good.toSlots.step moved, ?_⟩
  cases moves_of_step moved with
  | @wake i bound blocked =>
    intro user
    have running := good.tended user
    have different : L.current ≠ i := by
      rintro rfl
      simp [running, isBlocked] at blocked
    show ((L.setState i .ready).slots L.current).state = .running
    rw [setState_of_ne L _ different]
    exact running
  | collect kernel boundI boundJ waits dead =>
    intro user
    exact absurd (user.symm.trans kernel) (by decide)
  | @reap j code user bound dead child =>
    intro _
    have running := good.tended user
    have different : L.current ≠ j := by
      rintro rfl
      rw [running] at dead
      cases dead
    show ((L.bury L.current j code).slots L.current).state = .running
    simp only [Life.bury, note_slots]
    rw [setSlot_of_ne L _ different]
    exact running
  | choose kernel bound =>
    intro user
    exact absurd (user.symm.trans kernel) (by decide)
  | resume kernel ready =>
    intro _
    simp
  | park user may =>
    intro user'
    cases user'
  | suspend user => exact steady.elim
  | preempt user =>
    intro user'
    cases user'
  | exit user =>
    intro user'
    rw [finish_userMode] at user'
    cases user'
  | fatal kernel ready =>
    intro user
    rw [free_userMode, die_userMode, kernel] at user
    cases user
  | @kill i code bound alive =>
    intro user
    have different : L.current ≠ i := fun here => steady ⟨user, here.symm⟩
    show ((L.setState i (.dead code)).slots L.current).state = .running
    rw [setState_of_ne L _ different]
    exact good.tended user
  | spawn kernel bound vacant =>
    intro user
    exact absurd (user.symm.trans kernel) (by decide)
  | @fork slot cr3 user bound other vacant =>
    intro _
    show ((L.setSlot slot _).slots L.current).state = .running
    rw [setSlot_of_ne L _ other.symm]
    exact good.tended user
  | exec user =>
    intro _
    simpa [Life.exec] using good.tended user

/-! ## The dead stay dead -/

/-- The task `u` is dead or gone. -/
structure Retired (u : Nat) (L : Life) : Prop where
  known : u < L.nextUid
  free : ∀ {i}, i < maxTasks → (L.slots i).uid = u → (L.slots i).state.isFree = true

namespace Retired

variable {u : Nat} {L L' : Life}

section

variable (retired : Retired u L)
include retired

/-- Changing a slot revives nobody if its task was alive or is not afterwards. -/
theorem setSlot {i : Nat} {s : Slot} (same : s.uid = (L.slots i).uid)
    (alive : (L.slots i).state.isFree = false ∨ s.state.isFree = true)
    (slots : L'.slots = (L.setSlot i s).slots) (next : L'.nextUid = L.nextUid) : Retired u L' := by
  refine ⟨next ▸ retired.known, fun {j} bound uid => ?_⟩
  rw [slots] at uid ⊢
  by_cases here : j = i
  · subst here
    rw [Life.setSlot_self] at uid ⊢
    rcases alive with was | stays
    · rw [retired.free bound (same.symm.trans uid)] at was
      cases was
    · exact stays
  · rw [Life.setSlot_of_ne L s here] at uid ⊢
    exact retired.free bound uid

/-- A living task may change its state. -/
theorem setState (i : Nat) (st : TaskState)
    (alive : (L.slots i).state.isFree = false) (slots : L'.slots = (L.setState i st).slots)
    (next : L'.nextUid = L.nextUid) : Retired u L' :=
  retired.setSlot (s := { L.slots i with state := st }) rfl (.inl alive) slots next

theorem create (slot : Nat) {s : Slot} (fresh : s.uid = L.nextUid)
    (slots : L'.slots = (L.setSlot slot s).slots) (next : L'.nextUid = L.nextUid + 1) :
    Retired u L' := by
  have known := retired.known
  refine ⟨by omega, fun {j} bound uid => ?_⟩
  rw [slots] at uid ⊢
  by_cases here : j = slot
  · subst here
    rw [Life.setSlot_self, fresh] at uid
    omega
  · rw [Life.setSlot_of_ne L s here] at uid ⊢
    exact retired.free bound uid

theorem bury (parent j : Nat) (code : Int) :
    Retired u (L.bury parent j code) :=
  retired.setSlot (i := j) (s := { L.slots j with state := .empty, pid := 0, parentPid := 0 }) rfl
    (.inr rfl) rfl rfl

theorem die (i : Nat) (code : Int) : Retired u (L.die i code) :=
  retired.setSlot (i := i) (s := { L.slots i with state := .dead code }) rfl (.inr rfl) rfl rfl

theorem freeSpace (i : Nat) : Retired u (L.free i) := by
  refine retired.setSlot (i := i) (s := { L.slots i with cr3 := 0 }) rfl ?_ rfl rfl
  by_cases vacant : (L.slots i).state.isFree = true
  · exact .inr vacant
  · exact .inl (by simpa using vacant)

theorem notify (parentPid child : Nat) :
    Retired u (L.notify parentPid child) := by
  unfold Life.notify
  split
  · exact retired
  · split
    · exact retired
    · next i _ alive => exact retired.setState i _ (by simpa using alive) rfl rfl

omit retired in
theorem finish {code : Int}
    (died : Retired u (({ L with userMode := false } : Life).die L.current code)) :
    Retired u (L.finish code) := by
  have freed := died.freeSpace L.current
  unfold Life.finish
  dsimp only
  split
  · exact freed.notify _ _
  · exact freed

/-- **No move revives the dead** while the task in user mode is alive. -/
theorem step {m : Move} (alive : L.userMode = true → (L.slots L.current).state.isFree = false)
    (moved : L.step m = some L') : Retired u L' := by
  cases Life.moves_of_step moved with
  | @wake i bound blocked =>
    refine retired.setState i .ready ?_ rfl rfl
    cases state : (L.slots i).state <;> simp [state, Life.isBlocked, TaskState.isFree] at blocked ⊢
  | @collect i j code kernel boundI boundJ waits dead =>
    have ready : Retired u (L.setState i .ready) :=
      retired.setState i .ready (by simp [waits, TaskState.isFree]) rfl rfl
    exact ready.bury i j code
  | reap user bound dead child => exact retired.bury _ _ _
  | choose kernel bound => exact ⟨retired.known, retired.free⟩
  | resume kernel ready =>
    exact retired.setState L.current .running (by simp [ready, TaskState.isFree]) rfl rfl
  | @park s user may => exact retired.setState L.current s (alive user) rfl rfl
  | suspend user => exact retired.setState L.current _ (alive user) rfl rfl
  | preempt user => exact retired.setState L.current .ready (alive user) rfl rfl
  | exit user =>
    have left : Retired u { L with userMode := false } := ⟨retired.known, retired.free⟩
    exact .finish (left.die L.current _)
  | fatal kernel ready => exact (retired.die _ _).freeSpace _
  | kill bound lives => exact retired.die _ _
  | @spawn slot cr3 kernel bound vacant => exact retired.create slot rfl rfl rfl
  | @fork slot cr3 user bound other vacant => exact retired.create slot rfl rfl rfl
  | @exec cr3 user =>
    exact retired.setSlot (i := L.current) (s := { L.slots L.current with cr3 := cr3 }) rfl
      (.inl (alive user)) rfl rfl

end

/-- A dead task is retired: no other slot has its number. -/
theorem of_dead (slots : Slots L) {i : Nat} (bound : i < maxTasks) {code : Int}
    (dead : (L.slots i).state = .dead code) : Retired (L.slots i).uid L := by
  have taken : (L.slots i).Taken := by simp [Slot.Taken, dead]
  refine ⟨(slots.uid_lt bound taken).2, fun {j} inside same => ?_⟩
  by_cases here : (L.slots j).Taken
  · rw [slots.uid_inj inside bound here taken same, dead]
    rfl
  · have empty : (L.slots j).state = .empty := by simpa [Slot.Taken] using here
    rw [empty]
    rfl

end Retired

end OxideOS.Proc
