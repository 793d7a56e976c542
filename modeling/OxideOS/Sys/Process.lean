import OxideOS.Proc.Spawn
import OxideOS.Sys.UserBuffer

/-!
# System calls

The system calls on tasks, memory, signals and descriptors, as they act for the
current task. A call gets the registers of the caller when it was made with
`int 0x80`; the `syscall` instruction passes none, and calls that would block
then fall back to a code. A call ends with the value returned to the program, or
leaves for the scheduler, or stops the system.

`Event` is everything that can happen to the running system and `advance`
what follows: the terminal starts and kills programs, the main loop ticks, and in
user mode there are the timer, exceptions, the program's own stores and its
system calls.
-/

set_option autoImplicit false

namespace OxideOS.Sys

open Lib Mem Fs Ipc Proc Proc.Kernel Function

/-- A 64-bit word as a signed number. -/
def toI64 (w : Nat) : Int := if w < 2 ^ 63 then w else (w : Int) - 2 ^ 64

/-- The lower half of a word as a signed number. -/
def toI32 (w : Nat) : Int :=
  if w % 2 ^ 32 < 2 ^ 31 then (w % 2 ^ 32 : Nat) else ((w % 2 ^ 32 : Nat) : Int) - 2 ^ 32

def userHeapBase : Nat := 0x1000000
def userMmapBase : Nat := 0x8000000

/-! ## The current task -/

def currentTask : Kern Task := Prog.gets fun k => k.tasks k.current

def updateCurrent (f : Task → Task) : Kern PUnit := Prog.update fun k => k.modifyTask k.current f

/-- A store of the kernel through a pointer given by the program. -/
def copyToUser (virt : Nat) (bytes : List UInt8) : Kern PUnit := do
  let task ← currentTask
  copyToRegionIn task.cr3 virt bytes

/-- A load of the kernel through a pointer given by the program. -/
def copyFromUser (virt count : Nat) : Kern (List Nat) := fun k =>
  match k.paging.readUser (k.tasks k.current).cr3 virt count with
  | some bytes => (.ok bytes, k)
  | none => (.error .halt, k)

/-- Run a paging procedure; the answer is whether it succeeded. -/
def onPaging (c : Prog Paging PagingError PUnit) : Kern Bool := fun k =>
  match c k.paging with
  | (.ok _, p) => (.ok true, { k with paging := p })
  | (.error _, p) => (.ok false, { k with paging := p })

/-! ## Life and death -/

def exit (arg : Nat) : Kern Int := Prog.fail (.exitToKernel (toI32 arg))

def sleepUntilTick (targetTick : Nat) (ctx : Option TaskContext) : Kern Int := do
  let busy ← Prog.gets hasTask
  match ctx with
  | some ctx =>
    if busy then sleepTask targetTick ctx else
    Prog.update fun k => { k with ticks := max k.ticks targetTick }
    return 0
  | none =>
    Prog.update fun k => { k with ticks := max k.ticks targetTick }
    return 0

def forkChild (ctx : Option TaskContext) : Kern Int := fun k =>
  match ctx with
  | none => (.ok (-1), k)
  | some ctx =>
    match forkTask k.current { ctx with rax := 0 } k with
    | (some pid, k') => (.ok pid, k')
    | (none, k') => (.ok (-4), k')

/-- Collect a dead child, or block until it dies. -/
def waitpid (pid : Nat) (ctx : Option TaskContext) : Kern Int := do
  let k ← Prog.gets id
  let target := pid % 256
  let parentPid := (k.tasks k.current).pid
  match firstBelow maxTasks fun i =>
      (k.tasks i).pid == target && (k.tasks i).parentPid == parentPid with
  | none => return -3
  | some i =>
    match (k.tasks i).state with
    | .dead code => do
        Prog.update (·.reap k.current i code)
        return code
    | _ =>
      match ctx with
      | some ctx => waitForPid k.current target ctx
      | none => return -6

/-- `exec`, once the path has led to an image or to an error. -/
def exec (binary : Except Int Image) (block : List UInt8) : Kern Int :=
  match binary with
  | .error code => return code
  | .ok img => execBinary img block

def killPidSig (pid signum : Nat) : Kern Int := fun k =>
  let sig := if signum = 0 then sigkill else signum
  match sendSignal (pid % 256) (sig % 256) k with
  | (true, k') => (.ok 0, k')
  | (false, k') => (.ok (-3), k')

/-! ## Memory -/

/-- Round up to a page boundary, on 64 bits. -/
def pageCeil (addr : Nat) : Nat := (addr + 4095) % 2 ^ 64 / 4096 * 4096

def pagesFor (len : Nat) : Nat := (len + 4095) % 2 ^ 64 / 4096

/-- Map the pages from `first` up to `last`, if there are any. -/
def growHeap (cr3 first last : Nat) : Kern Bool :=
  if first < last then
    onPaging (Paging.mapUserRegionIn cr3 first ((last - first) / 4096) true false)
  else pure true

def brkProgram (newEnd : Nat) : Kern Int := do
  let task ← currentTask
  let curEnd := if task.heapEnd = 0 then userHeapBase else task.heapEnd
  if newEnd = 0 ∨ newEnd < userHeapBase ∨ newEnd ≤ curEnd then return toI64 curEnd
  let mapped ← growHeap task.cr3 (pageCeil curEnd) (pageCeil newEnd)
  if !mapped then return -4
  updateCurrent fun t => { t with heapEnd := newEnd }
  return toI64 newEnd

/-- Move the end of the mapped area and track the new region if there is room. -/
def recordRegion (base pages : Nat) (t : Task) : Task :=
  let t := { t with mmapEnd := (base + pages * 4096) % 2 ^ 64 }
  if t.mmapNregions < maxMmapRegions then
    { t with
      mmapRegions := update t.mmapRegions t.mmapNregions ⟨base, pages % 2 ^ 32⟩
      mmapNregions := t.mmapNregions + 1 }
  else t

def mmapAnon (len : Nat) : Kern Int := do
  if len = 0 then return -22
  let task ← currentTask
  let base := if task.mmapEnd = 0 then userMmapBase else task.mmapEnd
  let mapped ← onPaging (Paging.mapUserRegionIn task.cr3 base (pagesFor len) true false)
  if !mapped then return -12
  updateCurrent (recordRegion base (pagesFor len))
  return toI64 base

/-- Forget the first tracked region at `addr`; the last one takes its place. -/
def removeRegion (addr : Nat) (t : Task) : Task :=
  match firstBelow t.mmapNregions fun i => (t.mmapRegions i).virt == addr with
  | none => t
  | some i =>
    let last := t.mmapNregions - 1
    let regions := update t.mmapRegions i (t.mmapRegions last)
    { t with mmapRegions := update regions last .empty, mmapNregions := last }

/-- Unmap the pages from `addr` on, wherever they are. -/
def munmap (addr len : Nat) : Kern Int := do
  if len = 0 then return -22
  let task ← currentTask
  Prog.update fun k =>
    { k with paging := k.paging.unmapUserRegionIn task.cr3 addr (pagesFor len) }
  updateCurrent (removeRegion addr)
  return 0

def shmgetImpl (key size : Nat) : Kern Int := fun k =>
  match shmget (key % 2 ^ 32) size k.segtab k.paging with
  | (r, segtab, p) => (.ok r, { k with segtab := segtab, paging := p })

def shmatImpl (shmid : Nat) : Kern Int := fun k =>
  let task := k.tasks k.current
  match shmat (shmid % 2 ^ 32) task.cr3 task.shmAttaches k.segtab k.paging with
  | (r, attaches, segtab, p) =>
    (.ok r, { k.modifyTask k.current fun t => { t with shmAttaches := attaches } with
      segtab := segtab, paging := p })

def shmdtImpl (addr : Nat) : Kern Int := fun k =>
  match shmdt addr (k.tasks k.current).shmAttaches k.segtab with
  | (r, attaches, segtab) =>
    (.ok r, { k.modifyTask k.current fun t => { t with shmAttaches := attaches } with
      segtab := segtab })

/-! ## Signals -/

/-- Store a word where the program wants it, unless the pointer is null. -/
def storeWord (ptr w : Nat) : Kern PUnit :=
  if ptr = 0 then pure ⟨⟩ else copyToUser ptr (wordBytes w)

def sigaction (signum handler oldPtr : Nat) : Kern Int := do
  if signum % 2 ^ 32 = 0 ∨ nsig ≤ signum % 2 ^ 32 then return -22
  let task ← currentTask
  if oldPtr ≠ 0 ∧ (validateUserRange oldPtr 8).toOption = none then return -14
  storeWord oldPtr (task.signalHandlers (signum % 2 ^ 32))
  updateCurrent fun t =>
    { t with signalHandlers := update t.signalHandlers (signum % 2 ^ 32) handler }
  return 0

/-- Restore the registers of the saved context from the frame at its stack
pointer, and the mask that `sigsuspend` has replaced. -/
def popFrame (bytes : List Nat) (t : Task) : Task :=
  let t := { t with
    ctx := { restoreFrame t.ctx bytes with rsp := (t.ctx.rsp + frameSize + 8) % 2 ^ 64 } }
  if t.inSigsuspend then { t with inSigsuspend := false, signalMask := t.savedSignalMask } else t

def sigreturn : Kern Int := do
  let task ← currentTask
  let bytes ← copyFromUser task.ctx.rsp frameSize
  updateCurrent (popFrame bytes)
  return 0

/-- The mask that `sigprocmask` makes of the old one; `SIG_BLOCK` is 0,
`SIG_UNBLOCK` 1 and `SIG_SETMASK` 2. -/
def changeMask (how : Nat) (newMask old : BitVec 32) : Option (BitVec 32) :=
  match how with
  | 0 => some (old ||| newMask)
  | 1 => some (old &&& ~~~newMask)
  | 2 => some newMask
  | _ => none

def sigprocmask (how setPtr oldPtr : Nat) : Kern Int := do
  let task ← currentTask
  storeWord oldPtr task.signalMask.toNat
  if setPtr = 0 then return 0
  let bytes ← copyFromUser setPtr 8
  match changeMask (how % 2 ^ 32) (BitVec.ofNat 32 (wordOf bytes) &&& ~~~unkillable)
      task.signalMask with
  | none => return -22
  | some mask => do
      updateCurrent fun t => { t with signalMask := mask }
      return 0

def alarm (seconds : Nat) : Kern Int := do
  let now ← Prog.gets (·.ticks)
  let task ← currentTask
  let seconds := seconds % 2 ^ 32
  updateCurrent fun t => { t with alarmDeadline := if seconds = 0 then 0 else now + seconds * 100 }
  return if now < task.alarmDeadline then ((task.alarmDeadline - now) / 100 : Nat) else 0

def sigpending (setPtr : Nat) : Kern Int := do
  if setPtr = 0 then return -14
  let task ← currentTask
  copyToUser setPtr (wordBytes (task.pendingSignals &&& task.signalMask).toNat)
  return 0

/-- The bytes of a signal set; none for a null pointer, which stands for zero. -/
def loadMask (maskPtr : Nat) : Kern (List Nat) :=
  if maskPtr = 0 then pure [] else copyFromUser maskPtr 8

/-- Install a temporary mask and mark the task as asleep. The call then returns
to the program like any other. -/
def sigsuspend (maskPtr : Nat) : Kern Int := do
  let rawMask ← loadMask maskPtr
  updateCurrent fun t =>
    { t with
      savedSignalMask := t.signalMask, inSigsuspend := true
      signalMask := BitVec.ofNat 32 (wordOf rawMask) &&& ~~~unkillable
      state := .sleeping ((2 ^ 64 - 1) / 2) }
  return -4

/-! ## Descriptors -/

/-- Run an operation on the current task's table and the open files. -/
def onTable (f : FdTable → OpenFiles → Int × FdTable × OpenFiles) : Kern Int := fun k =>
  match f (k.tasks k.current).fdTable k.files with
  | (r, table, files) =>
    (.ok r, { k.modifyTask k.current fun t => { t with fdTable := table } with files := files })

/-- The table part of `pipe`. -/
def pipeAlloc (t : FdTable) (o : OpenFiles) : Except Int (Nat × Nat) × FdTable × OpenFiles :=
  match Pipe.alloc o.pipes with
  | none => (.error (-6), t, o)
  | some ((rawR, rawW), pipes) =>
    match t.openPipe rawR rawW with
    | (some slots, t) => (.ok slots, t, { o with pipes := pipes })
    | (none, t) => (.error (-24), t, { o with pipes := Pipe.close (Pipe.close pipes rawR) rawW })

def pipe (readFdPtr writeFdPtr : Nat) : Kern Int := do
  match validateUserRange readFdPtr 4, validateUserRange writeFdPtr 4 with
  | .error code, _ => return code
  | .ok _, .error code => return code
  | .ok _, .ok _ => do
      let k ← Prog.gets id
      let (result, table, files) := pipeAlloc (k.tasks k.current).fdTable k.files
      Prog.update fun k =>
        { k.modifyTask k.current fun t => { t with fdTable := table } with files := files }
      match result with
      | .error code => return code
      | .ok (rslot, wslot) => do
          copyToUser readFdPtr ((wordBytes rslot).take 4)
          copyToUser writeFdPtr ((wordBytes wslot).take 4)
          return 0

def dup (fd : Int) : Kern Int := onTable fun t o => ((t.dupFrom fd 0).1, (t.dupFrom fd 0).2, o)

def dup2 (oldFd newFd : Int) : Kern Int := onTable fun t o => t.dup2 oldFd newFd o

/-- `fcntl`: command 1 duplicates a descriptor, 3 answers `O_RDWR`. -/
def fcntl (fd : Int) (cmd arg : Nat) : Kern Int :=
  match cmd with
  | 1 => onTable fun t o => ((t.dupFrom fd arg).1, (t.dupFrom fd arg).2, o)
  | 3 => return 2
  | _ => return 0

def openFile (target : Target) (flags : Nat) : Kern Int :=
  onTable fun t o => vfsOpen target flags t o

def close (fd : Int) : Kern Int := onTable fun t o => t.close fd o

/-- The bytes a `read` returns: from a pipe, or `data` from another back end. -/
def readFd (fd : Int) (count : Nat) (data : List UInt8) (t : FdTable) (o : OpenFiles) :
    Int × List UInt8 × OpenFiles :=
  match t.get fd with
  | none => (ebadf, [], o)
  | some e =>
    match e.backend with
    | .pipe =>
      let (r, bytes, pipes) := Pipe.read o.pipes e.rawFd count
      (r, bytes, { o with pipes := pipes })
    | _ => ((data.take count).length, data.take count, o)

def read (fd : Int) (bufPtr count : Nat) (data : List UInt8) : Kern Int := do
  if count = 0 then return 0
  match validateUserRange bufPtr count with
  | .error code => return code
  | .ok _ => do
      let k ← Prog.gets id
      let (r, bytes, files) := readFd fd count data (k.tasks k.current).fdTable k.files
      Prog.update fun k => { k with files := files }
      copyToUser bufPtr bytes
      return r

/-- A `write` to a pipe, or to another back end, which answers `answer`. The
standard outputs go to the console unless they are redirected. -/
def write (fd : Int) (bufPtr count : Nat) (answer : Int) : Kern Int := do
  if fd < 0 then return -5
  match validateUserRange bufPtr count with
  | .error code => return code
  | .ok _ => do
      if fd = 0 then return -5
      let data ← copyFromUser bufPtr count
      onTable fun t o =>
        match t.get fd with
        | none => (if fd = 1 ∨ fd = 2 then (count : Int) else ebadf, t, o)
        | some e =>
          match e.backend with
          | .pipe =>
            let (r, pipes) := Pipe.write o.pipes e.rawFd (data.map UInt8.ofNat)
            (r, t, { o with pipes := pipes })
          | _ => (answer, t, o)

/-- A blocking receive; `message` is what the queue holds. -/
def msgrcvWait (queueId msgPtr : Nat) (message : Option (List UInt8)) (ctx : Option TaskContext) :
    Kern Int := do
  match validateUserRange msgPtr messageSize, message, ctx with
  | .error code, _, _ => return code
  | .ok _, some bytes, _ => do
      copyToUser msgPtr (bytes.take messageSize)
      return 0
  | .ok _, none, some ctx => waitForMsg (queueId % 2 ^ 32) msgPtr ctx
  | .ok _, none, none => return -11

/-! ## Dispatch -/

inductive Syscall where
  | exit (arg : Nat)
  | fork
  | waitpid (pid : Nat)
  | exec (binary : Except Int Image) (block : List UInt8)
  | sleep (targetTick : Nat)
  | kill (pid signum : Nat)
  | brk (newEnd : Nat)
  | mmap (len : Nat)
  | munmap (addr len : Nat)
  | shmget (key size : Nat)
  | shmat (shmid : Nat)
  | shmdt (addr : Nat)
  | sigaction (signum handler oldPtr : Nat)
  | sigreturn
  | sigprocmask (how setPtr oldPtr : Nat)
  | sigpending (setPtr : Nat)
  | sigsuspend (maskPtr : Nat)
  | alarm (seconds : Nat)
  | pipe (readFdPtr writeFdPtr : Nat)
  | dup (fd : Int)
  | dup2 (oldFd newFd : Int)
  | fcntl (fd : Int) (cmd arg : Nat)
  | openFile (target : Target) (flags : Nat)
  | close (fd : Int)
  | read (fd : Int) (bufPtr count : Nat) (data : List UInt8)
  | write (fd : Int) (bufPtr count : Nat) (answer : Int)
  | msgrcvWait (queueId msgPtr : Nat) (message : Option (List UInt8))

def dispatch (ctx : Option TaskContext) : Syscall → Kern Int
  | .exit arg => exit arg
  | .fork => forkChild ctx
  | .waitpid pid => waitpid pid ctx
  | .exec binary block => exec binary block
  | .sleep targetTick => sleepUntilTick targetTick ctx
  | .kill pid signum => killPidSig pid signum
  | .brk newEnd => brkProgram newEnd
  | .mmap len => mmapAnon len
  | .munmap addr len => munmap addr len
  | .shmget key size => shmgetImpl key size
  | .shmat shmid => shmatImpl shmid
  | .shmdt addr => shmdtImpl addr
  | .sigaction signum handler oldPtr => sigaction signum handler oldPtr
  | .sigreturn => sigreturn
  | .sigprocmask how setPtr oldPtr => sigprocmask how setPtr oldPtr
  | .sigpending setPtr => sigpending setPtr
  | .sigsuspend maskPtr => sigsuspend maskPtr
  | .alarm seconds => alarm seconds
  | .pipe readFdPtr writeFdPtr => pipe readFdPtr writeFdPtr
  | .dup fd => dup fd
  | .dup2 oldFd newFd => dup2 oldFd newFd
  | .fcntl fd cmd arg => fcntl fd cmd arg
  | .openFile target flags => openFile target flags
  | .close fd => close fd
  | .read fd bufPtr count data => read fd bufPtr count data
  | .write fd bufPtr count answer => write fd bufPtr count answer
  | .msgrcvWait queueId msgPtr message => msgrcvWait queueId msgPtr message ctx

/-! ## The running system -/

inductive Event where
  /-- The terminal starts a program. -/
  | spawn (binary : Option Image) (name block : List UInt8)
  /-- The terminal kills a task. -/
  | kill (pid : Nat)
  /-- The main loop calls the scheduler. -/
  | tick (messages : Nat → Option (List UInt8))
  | timer (ctx : TaskContext)
  /-- A processor exception in user mode that nothing resolves. -/
  | exception (vector : Nat)
  /-- The program stores a byte. -/
  | store (virt b : Nat)
  | syscall (ctx : Option TaskContext) (call : Syscall)

/-- The exit code of a task that raised an exception. -/
def exceptionCode (vector : Nat) : Int := if vector = 0 ∨ vector = 16 ∨ vector = 19 then -8 else -11

/-- What becomes of a system after a procedure of the kernel: it goes on, the
task has left for the scheduler, or it stops. -/
def settle {α : Type} : Except Leave α × Kernel → Option Kernel
  | (.ok _, k) => some k
  | (.error (.exitToKernel code), k) => some (k.finishSlice code)
  | (.error .halt, _) => none

/-- One event; `none` when it cannot happen or stops the system. -/
def advance (k : Kernel) : Event → Option Kernel
  | .spawn binary name block =>
    if k.userMode then none else
    match spawn binary name block k with
    | (.error .halted, _) => none
    | (_, k') => some k'
  | .kill pid => if k.userMode then none else some (Kernel.kill (pid % 256) k).2
  | .tick messages => if k.userMode then none else settle (tick messages k)
  | .timer ctx => some (k.timerInterrupt ctx)
  | .exception vector => if k.userMode then some (k.finishSlice (exceptionCode vector)) else none
  | .store virt b =>
    if k.userMode then
      if Paging.canonical virt then
        match Paging.store (k.tasks k.current).cr3 virt b true 2 k.paging with
        | some (.stored, p) => some { k with paging := p }
        | some (_, p) => some (({ k with paging := p } : Kernel).finishSlice (-11))
        | none => none
      else some (k.finishSlice (-11))
    else none
  | .syscall ctx call => if k.userMode then settle (dispatch ctx call k) else none

end OxideOS.Sys
