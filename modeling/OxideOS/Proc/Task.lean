import OxideOS.Fs.FdTable
import OxideOS.Ipc.Shm
import Mathlib.Data.BitVec

/-!
# Tasks

The task record of the scheduler and the constants it is made with. Signal sets
are 32-bit words, bit `n` standing for signal `n + 1`; `signalAction` is the
decision `deliver_pending_signals` takes over a set of deliverable signals, from
the lowest number on.

Two fields are history variables, which the code does not have and never reads:
`uid` numbers the tasks ever created (a slot and its pid are reused, a `uid` is
not), and `parentUid` is the `uid` of the task that forked this one.
-/

set_option autoImplicit false

namespace OxideOS.Proc

open Lib Fs Ipc

def maxTasks : Nat := 8
def userCodeAddr : Nat := 0x400000
def userStackTop : Nat := 0x800000
def userStackPages : Nat := 64
def ticksPerSlice : Nat := 2
def maxMmapRegions : Nat := 32

/-- The exit code that tells `tick` of a preemption. -/
def exitPreempted : Int := -2 ^ 63
/-- The exit code that tells `tick` of a task that blocked itself. -/
def exitSleeping : Int := -2 ^ 63 + 1

/-! ## Task states -/

inductive TaskState where
  | empty
  | ready
  | running
  | sleeping (wake : Nat)
  | waiting (childPid : Nat)
  | waitingForMsg (queueId msgPtr : Nat)
  | dead (code : Int)
  deriving DecidableEq, Repr

namespace TaskState

/-- The slot may be taken for a new task: `Empty` or `Dead`. -/
def isFree : TaskState → Bool
  | .empty | .dead _ => true
  | _ => false

def isSleeping : TaskState → Bool
  | .sleeping _ => true
  | _ => false

end TaskState

/-! ## Signals -/

def nsig : Nat := 32
def sigDfl : Nat := 0
def sigIgn : Nat := 1
def sigkill : Nat := 9
def sigalrm : Nat := 14
def sigchld : Nat := 17
def sigcont : Nat := 18
def sigstop : Nat := 19

/-- The bit of a signal in a signal set. -/
def sigBit (signum : Nat) : BitVec 32 := 1#32 <<< (signum - 1)

/-- The signals that cannot be blocked. -/
def unkillable : BitVec 32 := sigBit sigkill ||| sigBit sigstop

/-- What is to be done about a set of signals. -/
inductive Disposition where
  | nothing
  | terminate (signum : Nat)
  | handle (signum handler : Nat)
  deriving DecidableEq, Repr

/-- The action for the signals of the given bits, lowest first: ignored signals
are passed over, the first other one decides. -/
def signalAction (handlers : Nat → Nat) : List Nat → Disposition
  | [] => .nothing
  | bit :: rest =>
    let signum := bit + 1
    let handler := if signum < nsig then handlers signum else sigDfl
    if handler = sigIgn then signalAction handlers rest else
    if handler = sigDfl then
      if signum = sigchld ∨ signum = sigcont then signalAction handlers rest
      else .terminate signum
    else .handle signum handler

/-- The bits of a signal set in ascending order. -/
def bitsOf (set : BitVec 32) : List Nat := (List.range 32).filter fun i => set.getLsbD i

/-! ## The task record -/

structure TaskContext where
  r15 : Nat
  r14 : Nat
  r13 : Nat
  r12 : Nat
  r11 : Nat
  r10 : Nat
  r9 : Nat
  r8 : Nat
  rdi : Nat
  rsi : Nat
  rbp : Nat
  rdx : Nat
  rcx : Nat
  rbx : Nat
  rax : Nat
  rip : Nat
  cs : Nat
  rflags : Nat
  rsp : Nat
  ss : Nat

def TaskContext.zeroed : TaskContext := ⟨0, 0, 0, 0, 0, 0, 0, 0, 0, 0, 0, 0, 0, 0, 0, 0, 0, 0, 0, 0⟩

/-- A tracked anonymous mapping. -/
structure MmapRegion where
  virt : Nat
  pages : Nat

def MmapRegion.empty : MmapRegion := ⟨0, 0⟩

structure Task where
  state : TaskState
  ctx : TaskContext
  name : List UInt8
  firstRun : Bool
  entry : Nat
  cr3 : Nat
  pid : Nat
  parentPid : Nat
  pgid : Nat
  fsBase : Nat
  heapEnd : Nat
  mmapEnd : Nat
  outputLen : Nat
  fdTable : FdTable
  cwd : List UInt8
  pendingSignals : BitVec 32
  signalMask : BitVec 32
  savedSignalMask : BitVec 32
  inSigsuspend : Bool
  alarmDeadline : Nat
  signalHandlers : Nat → Nat
  shmAttaches : Nat → ShmAttach
  initialRsp : Nat
  mmapRegions : Nat → MmapRegion
  mmapNregions : Nat
  uid : Nat
  parentUid : Nat

namespace Task

def empty : Task where
  state := .empty
  ctx := .zeroed
  name := []
  firstRun := true
  entry := userCodeAddr
  cr3 := 0
  pid := 0
  parentPid := 0
  pgid := 0
  fsBase := 0
  heapEnd := 0
  mmapEnd := 0
  outputLen := 0
  fdTable := .new
  cwd := [47]
  pendingSignals := 0
  signalMask := 0
  savedSignalMask := 0
  inSigsuspend := false
  alarmDeadline := 0
  signalHandlers := fun _ => 0
  shmAttaches := fun _ => .empty
  initialRsp := userStackTop - 16
  mmapRegions := fun _ => .empty
  mmapNregions := 0
  uid := 0
  parentUid := 0

/-- Neither `Empty` nor `Dead`. -/
def live (t : Task) : Bool := !t.state.isFree

/-- The pending signals that are not blocked. -/
def deliverable (t : Task) : BitVec 32 :=
  (t.pendingSignals &&& ~~~t.signalMask) ||| (t.pendingSignals &&& unkillable)

end Task

/-! ## Signal frames -/

/-- The eight bytes of a word, lowest first. -/
def wordBytes (w : Nat) : List UInt8 := (List.range 8).map fun i => UInt8.ofNat (w >>> (8 * i))

/-- The word made of eight bytes, lowest first. -/
def wordOf (bytes : List Nat) : Nat := bytes.foldr (fun b w => b + 256 * w) 0

/-- The registers of a `SignalFrame` in the order of its fields. -/
def frameWords (c : TaskContext) : List Nat :=
  [c.rip, c.rax, c.rbx, c.rcx, c.rdx, c.rsi, c.rdi, c.r8, c.r9, c.r10, c.r11, c.r12, c.r13, c.r14,
    c.r15, c.rbp, c.rflags]

def frameSize : Nat := 136

def frameBytes (c : TaskContext) : List UInt8 := (frameWords c).flatMap wordBytes

/-- The context with the registers of a frame read back from user memory. -/
def restoreFrame (c : TaskContext) (bytes : List Nat) : TaskContext :=
  let word := fun i => wordOf ((bytes.drop (8 * i)).take 8)
  { c with
    rip := word 0, rax := word 1, rbx := word 2, rcx := word 3, rdx := word 4, rsi := word 5,
    rdi := word 6, r8 := word 7, r9 := word 8, r10 := word 9, r11 := word 10, r12 := word 11,
    r13 := word 12, r14 := word 13, r15 := word 14, rbp := word 15, rflags := word 16 }

def userSigtramp : Nat := 0x900000

/-- `mov rax, 95; int 0x80; ud2`. -/
def sigtrampBytes : List UInt8 := [0x48, 0xc7, 0xc0, 95, 0, 0, 0, 0xcd, 0x80, 0x0f, 0x0b]

end OxideOS.Proc
