import OxideOS.Mem.Access
import OxideOS.Proc.Task

/-!
# The scheduler

`Kernel` is the state of the running system as the scheduler and the system
calls see it. A procedure of the kernel is a `Kern`: it ends normally, leaves the
interrupted program for the scheduler (`exit_to_kernel`), or stops the system
because the kernel itself has faulted.

`tick` is the first half of the scheduler's tick, up to the point where the
chosen task is resumed in user mode; `finishSlice` is the second half, which acts
on the code with which the task came back.

`trace` and `nextUid` are history variables. `trace` records forks, deaths, the
`SIGCHLD`s sent for them and completed waits. The code has neither of them and
nothing it computes depends on them.
-/

set_option autoImplicit false

namespace OxideOS.Proc

open Lib Mem Fs Ipc

/-- What the history records; tasks are named by their `uid`. -/
inductive Note where
  /-- `fork` returned `pid` to `parent` for the new task `child`. -/
  | forked (parent child pid : Nat)
  /-- A task died, and its parent if that was alive. -/
  | died (task : Nat) (code : Int) (parent : Option Nat)
  /-- `SIGCHLD` was made pending for `parent` because `child` died. -/
  | notified (parent child : Nat)
  /-- `waitpid(pid)` of `parent` completed with the exit code of `child`. -/
  | waited (parent pid child : Nat) (code : Int)
  deriving DecidableEq, Repr

structure Kernel where
  paging : Paging
  segtab : Nat → ShmSegment
  files : OpenFiles
  tasks : Nat → Task
  current : Nat
  sliceRemaining : Nat
  ticks : Nat
  /-- A task is executing user code. -/
  userMode : Bool
  nextUid : Nat
  trace : List Note

/-- The system after boot: no task, no segment, nothing open. -/
def Kernel.start (boot : Paging) : Kernel where
  paging := boot
  segtab := fun _ => .empty
  files := .empty
  tasks := fun _ => .empty
  current := 0
  sliceRemaining := 0
  ticks := 0
  userMode := false
  nextUid := 1
  trace := []

/-- How a procedure of the kernel can end without returning. -/
inductive Leave where
  | exitToKernel (code : Int)
  | halt
  deriving DecidableEq, Repr

/-- A procedure of the kernel. -/
abbrev Kern (α : Type) : Type := Prog Kernel Leave α

namespace Kernel

/-! ## Updates -/

def setTask (k : Kernel) (i : Nat) (t : Task) : Kernel :=
  { k with tasks := Function.update k.tasks i t }

def modifyTask (k : Kernel) (i : Nat) (f : Task → Task) : Kernel := k.setTask i (f (k.tasks i))

def setState (k : Kernel) (i : Nat) (s : TaskState) : Kernel :=
  k.modifyTask i fun t => { t with state := s }

def note (k : Kernel) (n : Note) : Kernel := { k with trace := k.trace ++ [n] }

/-- The `uid` of the parent of `t`, if the parent is alive. -/
def liveParent (k : Kernel) (t : Task) : Option Nat :=
  if t.parentUid = 0 then none else
  (firstBelow maxTasks fun j => (k.tasks j).live && (k.tasks j).uid == t.parentUid).map
    fun _ => t.parentUid

/-- The task in slot `i` becomes `Dead`. -/
def setDead (k : Kernel) (i : Nat) (code : Int) : Kernel :=
  (k.setState i (.dead code)).note (.died (k.tasks i).uid code (k.liveParent (k.tasks i)))

/-- Give the address space of slot `i` back, if it has one. -/
def freeSpace (k : Kernel) (i : Nat) : Kernel :=
  let cr3 := (k.tasks i).cr3
  if cr3 = 0 then k else
  { k.modifyTask i (fun t => { t with cr3 := 0 }) with
    paging := k.paging.freeUserPageTable cr3 }

/-- `waitpid` has found the child in slot `j` dead: the slot becomes `Empty`. -/
def reap (k : Kernel) (parent j : Nat) (code : Int) : Kernel :=
  (k.modifyTask j fun t => { t with state := .empty, pid := 0, parentPid := 0 }).note
    (.waited (k.tasks parent).uid (k.tasks j).pid (k.tasks j).uid code)

/-- The first slot whose task has the given pid. -/
def findPid (k : Kernel) (pid : Nat) : Option Nat :=
  firstBelow maxTasks fun i => (k.tasks i).pid == pid

/-- A supervisor copy into an address space; a fault stops the system. -/
def copyToRegionIn (cr3 virt : Nat) (bytes : List UInt8) : Kern PUnit := fun k =>
  match k.paging.copyToRegionIn cr3 virt bytes with
  | some p => (.ok ⟨⟩, { k with paging := p })
  | none => (.error .halt, k)

/-! ## Signals -/

/-- Send a signal to the first task with the given pid; the answer is whether
there is one that is alive. `SIGKILL` ends the task at once, any other signal
becomes pending and wakes a sleeper. -/
def sendSignal (pid signum : Nat) (k : Kernel) : Bool × Kernel :=
  if signum = 0 ∨ nsig ≤ signum then (false, k) else
  match k.findPid pid with
  | none => (false, k)
  | some i =>
    if (k.tasks i).state.isFree then (false, k) else
    if signum = sigkill then (true, k.setDead i (128 + signum)) else
    (true, k.modifyTask i fun t =>
      { t with
        pendingSignals := t.pendingSignals ||| sigBit signum
        state := if t.state.isSleeping then .ready else t.state })

def kill (pid : Nat) (k : Kernel) : Bool × Kernel := sendSignal pid sigkill k

/-- Where the return address of a signal handler is pushed. -/
def handlerReturn (rsp : Nat) : Nat := (rsp + (2 ^ 64 - 8)) % 2 ^ 64

/-- Where the signal frame is pushed: below the return address, aligned. -/
def handlerFrame (rsp : Nat) : Nat :=
  (handlerReturn rsp + (2 ^ 64 - frameSize)) % 2 ^ 64 / 16 * 16

/-- Deliver pending signals to the task in slot `idx` before it runs; the answer
is whether a default action has killed it. A handler is entered with a signal
frame pushed below the stack pointer of the saved context. -/
def deliverPendingSignals (idx : Nat) : Kern Bool := do
  let task ← Prog.gets fun k => k.tasks idx
  let deliverable := task.deliverable
  if deliverable = 0 then return false
  Prog.update (·.modifyTask idx fun t =>
    { t with pendingSignals := t.pendingSignals &&& ~~~deliverable })
  match signalAction task.signalHandlers (bitsOf deliverable) with
  | .nothing => return false
  | .terminate signum => do
      Prog.update (·.setDead idx (128 + signum))
      return true
  | .handle signum handler => do
      copyToRegionIn task.cr3 (handlerReturn task.ctx.rsp) (wordBytes userSigtramp)
      copyToRegionIn task.cr3 (handlerFrame task.ctx.rsp) (frameBytes task.ctx)
      Prog.update (·.modifyTask idx fun t =>
        { t with
          ctx := { t.ctx with rsp := handlerFrame task.ctx.rsp, rip := handler, rdi := signum } })
      return false

/-! ## The tick -/

/-- The size of a message: two words of 32 bits and the data. -/
def messageSize : Nat := 8 + 256

def wakeSleeper (now i : Nat) (k : Kernel) : Kernel :=
  match (k.tasks i).state with
  | .sleeping wake => if wake ≤ now then k.setState i .ready else k
  | _ => k

def fireAlarm (now i : Nat) (k : Kernel) : Kernel :=
  let task := k.tasks i
  if task.alarmDeadline ≠ 0 ∧ task.alarmDeadline ≤ now then
    let k := k.modifyTask i fun t => { t with alarmDeadline := 0 }
    if task.pid ≠ 0 then (sendSignal task.pid sigalrm k).2 else k
  else k

/-- Wake a task blocked on a message queue; `messages i` is what the queue holds
for slot `i`. The message is stored while the kernel's own page table is in
force. -/
def wakeForMsg (messages : Nat → Option (List UInt8)) (i : Nat) : Kern PUnit := do
  let k ← Prog.gets id
  match (k.tasks i).state, messages i with
  | .waitingForMsg _ msgPtr, some bytes => do
      copyToRegionIn k.paging.l4TablePhys msgPtr (bytes.take messageSize)
      Prog.update (·.modifyTask i fun t =>
        { t with ctx := { t.ctx with rax := 0 }, state := .ready })
  | _, _ => return ⟨⟩

/-- Wake a task waiting for a child that has died, and reap the child: the first
slot with the child's pid is looked at, whoever its parent is. -/
def wakeParent (i : Nat) (k : Kernel) : Kernel :=
  match (k.tasks i).state with
  | .waiting childPid =>
    match k.findPid childPid with
    | none => k
    | some j =>
      match (k.tasks j).state with
      | .dead code =>
        (k.modifyTask i fun t =>
          { t with
            ctx := { t.ctx with rax := (code % 2 ^ 64).toNat }, state := .ready }).reap i j code
      | _ => k
  | _ => k

/-- The next ready task, in round-robin order after the current one. -/
def nextReady (k : Kernel) : Option Nat :=
  (firstBelow maxTasks fun i =>
    (k.tasks (((k.current + 1) % maxTasks + i) % maxTasks)).state == .ready).map
    fun i => ((k.current + 1) % maxTasks + i) % maxTasks

/-- Resume the task in slot `idx` in user mode. -/
def resume (idx : Nat) (k : Kernel) : Kernel :=
  { k.modifyTask idx (fun t => { t with state := .running, firstRun := false }) with
    sliceRemaining := ticksPerSlice
    userMode := true }

/-- Deliver signals to the chosen task, if any are pending. -/
def deliverIfPending (idx : Nat) : Kern Bool := do
  let pending ← Prog.gets fun k => (k.tasks idx).pendingSignals
  if pending = 0 then return false else deliverPendingSignals idx

/-- The scheduler's tick up to the resumption of the chosen task. -/
def tick (messages : Nat → Option (List UInt8)) : Kern PUnit := do
  let now ← Prog.gets (·.ticks)
  Prog.update (loop (wakeSleeper now) 0 maxTasks)
  Prog.update (loop (fireAlarm now) 0 maxTasks)
  Prog.forRange (wakeForMsg messages) 0 maxTasks
  Prog.update (loop wakeParent 0 maxTasks)
  match ← Prog.gets nextReady with
  | none => return ⟨⟩
  | some idx => do
      Prog.update fun k => { k with current := idx }
      let killed ← deliverIfPending idx
      if killed then Prog.update (·.freeSpace idx) else Prog.update (resume idx)

/-- Send `SIGCHLD` for the death of `child`. -/
def notifyParent (parentPid child : Nat) (k : Kernel) : Kernel :=
  match sendSignal parentPid sigchld k with
  | (true, k') =>
    k'.note (.notified ((k.findPid parentPid).elim 0 fun i => (k.tasks i).uid) child)
  | (false, k') => k'

/-- The task has come back from user mode with `code`. -/
def finishSlice (code : Int) (k : Kernel) : Kernel :=
  let idx := k.current
  let k := { k with userMode := false }
  if code = exitPreempted then k.setState idx .ready else
  if code = exitSleeping then k else
  let task := k.tasks idx
  let k := (k.setDead idx code).freeSpace idx
  if task.parentPid ≠ 0 then k.notifyParent task.parentPid task.uid else k

/-- The timer interrupt in user mode, with the registers of the program. -/
def timerInterrupt (ctx : TaskContext) (k : Kernel) : Kernel :=
  let k := { k with ticks := k.ticks + 1 }
  if k.userMode then
    let k := { k with sliceRemaining := k.sliceRemaining - 1 }
    if k.sliceRemaining = 0 ∧ (k.tasks k.current).state = .running then
      (k.modifyTask k.current fun t => { t with ctx := ctx }).finishSlice exitPreempted
    else k
  else k

/-! ## Blocking -/

/-- Save the context of the current task, change its state and leave for the
scheduler. -/
def block (idx : Nat) (state : TaskState) (ctx : TaskContext) : Kern Int := do
  Prog.update (·.modifyTask idx fun t => { t with ctx := { ctx with rax := 0 }, state := state })
  Prog.fail (.exitToKernel exitSleeping)

def sleepTask (wakeTick : Nat) (ctx : TaskContext) : Kern Int := do
  let cur ← Prog.gets (·.current)
  block cur (.sleeping wakeTick) ctx

def waitForPid (parentIdx childPid : Nat) (ctx : TaskContext) : Kern Int :=
  block parentIdx (.waiting childPid) ctx

def waitForMsg (queueId msgPtr : Nat) (ctx : TaskContext) : Kern Int := do
  let cur ← Prog.gets (·.current)
  block cur (.waitingForMsg queueId msgPtr) ctx

def hasTask (k : Kernel) : Bool := (firstBelow maxTasks fun i => (k.tasks i).live).isSome

end Kernel

end OxideOS.Proc
