import OxideOS.Ext2.Volume
import OxideOS.Fat.Driver
import OxideOS.Fs.RamDescriptors
import OxideOS.Net.Socket
import OxideOS.Sys.Process

/-!
# Readiness: poll and select against read

`poll` and `select` tell a program which descriptors it can read without waiting.
Each has a dispatch over the back ends of its own, and what they say ought to be
what `read` (on a socket, `recv`) then does. `Inputs` collects everything a read can
come from: the descriptor table of the task, pipes, files, the console and sockets.

`truthful_iff` lists the descriptors for which the two answer alike and as `read`
does. Devices are among them, files as long as they are open, and pipes at whose
other end somebody may still write. What is wrong elsewhere: an empty pipe without
writers is at its end but not reported (`closed_pipe_unready`); `select` reports the
write end of a pipe and a closed descriptor; both report a directory, which cannot
be read; and `select` looks at 64 descriptors and so at no socket.

Where `read` takes standard input from is in `reads_input_iff`. A task without an entry
for descriptor 0 reads nothing that is typed (`typed_byte_unread`).
-/

set_option autoImplicit false

namespace OxideOS.Sys

open Lib Ipc Fs Net

/-! ## The console -/

/-- The ring buffer behind the keyboard. -/
structure Stdin where
  buf : Fin 256 → UInt8
  head : Fin 256
  tail : Fin 256

namespace Stdin

def empty : Stdin := ⟨fun _ => 0, 0, 0⟩

def push (s : Stdin) (ch : UInt8) : Stdin :=
  if s.tail + 1 ≠ s.head then { s with buf := Function.update s.buf s.tail ch, tail := s.tail + 1 }
  else s

def pop (s : Stdin) : Option (UInt8 × Stdin) :=
  if s.head = s.tail then none else some (s.buf s.head, { s with head := s.head + 1 })

def available (s : Stdin) : Nat := (s.tail.val + 256 - s.head.val) % 256

theorem available_eq_zero (s : Stdin) : s.available = 0 ↔ s.head = s.tail := by
  have head := s.head.isLt
  have tail := s.tail.isLt
  rw [Fin.ext_iff, available]
  omega

end Stdin

/-! ## read -/

/-- What the reads of a task can come from. -/
structure Inputs (σ υ : Type) where
  table : FdTable
  pipes : Nat → Pipe
  ram : RamFs
  fat : Fat.FatFs
  ext2 : Ext2.Ext2State
  stdin : Stdin
  sockets : Sockets σ υ

namespace Inputs

variable {σ υ : Type}

/-- One byte from the console, or -6 for try again. -/
def getChar (w : Inputs σ υ) : Int × List UInt8 × Inputs σ υ :=
  match w.stdin.pop with
  | some (ch, stdin) => (1, [ch], { w with stdin := stdin })
  | none => (-6, [], w)

/-- `read_fd` with room for `room` bytes. -/
def readFd (w : Inputs σ υ) (fd : Int) (room : Nat) : Int × List UInt8 × Inputs σ υ :=
  match w.table.get fd with
  | none => (ebadf, [], w)
  | some e =>
    match e.backend with
    | .pipe =>
      let (r, bytes, pipes) := Pipe.read w.pipes e.rawFd room
      (r, bytes, { w with pipes := pipes })
    | .fat16 =>
      let (r, bytes, fat) := w.fat.readFd e.rawFd room
      (r, bytes, { w with fat := fat })
    | .ext2 =>
      let (r, bytes, ext2) := w.ext2.readFd e.rawFd room
      (r, bytes, { w with ext2 := ext2 })
    | .devNull => (0, [], w)
    | .devTty => if room = 0 then (0, [], w) else w.getChar
    | .dir => (eisdir, [], w)
    | .ramFS =>
      let (r, bytes, e) := w.ram.readEntry e room
      (r, bytes, { w with table := w.table.set fd.toNat (some e) })

/-- The system call `read`. Descriptor 0 falls back on the console when the table
answers -5, which is not the code for a descriptor that is not open. -/
def sysRead (w : Inputs σ υ) (fd : Int) (bufPtr count : Nat) : Int × List UInt8 × Inputs σ υ :=
  if count = 0 then (0, [], w) else
  match validateUserRange bufPtr count with
  | .error code => (code, [], w)
  | .ok _ =>
    let (r, bytes, w') := w.readFd fd count
    if fd = 0 ∧ r = -5 then w'.getChar else (r, bytes, w')

section Calls

variable [TcpSockets σ] [UdpSockets υ]

/-- What an immediate read answers: `recv` on a socket, `read` elsewhere. -/
def readAnswer (w : Inputs σ υ) (fd : Int) (bufPtr count : Nat) : Int :=
  if socketFdBase ≤ fd then (w.sockets.sysRecv fd count).1 else (w.sysRead fd bufPtr count).1

/-! ## poll -/

def pollin : BitVec 16 := 0x0001
def pollout : BitVec 16 := 0x0004
def pollhup : BitVec 16 := 0x0010
def timerHz : Nat := 100

structure PollFd where
  fd : Int
  events : BitVec 16
  revents : BitVec 16

/-- Calls that may wait return at once, or sleep for some ticks and then return 0. -/
inductive Outcome where
  | returns (r : Int)
  | sleeps (ticks : Nat)
  deriving DecidableEq

/-- How long a call that finds nothing sleeps. -/
def sleepTicks (timeoutMs : Int) : Nat :=
  if timeoutMs < 0 then 2 else max (timeoutMs.toNat * timerHz / 1000) 1

/-- The answer of a call that has found `ready` descriptors. -/
def waitUnless (ready : Nat) (timeoutMs : Int) : Outcome :=
  if 0 < ready ∨ timeoutMs = 0 then .returns ready else .sleeps (sleepTicks timeoutMs)

/-- `flag` if it was asked for and holds. -/
def raise (events flag : BitVec 16) (holds : Bool) : BitVec 16 :=
  if events &&& flag ≠ 0 ∧ holds = true then flag else 0

/-- `read_ready` of the pipes. -/
def pipeReadReady (w : Inputs σ υ) (rawFd : Nat) : Bool :=
  if !isPipeFd rawFd || !isReadFd rawFd then false else !(w.pipes (pipeIndex rawFd)).isEmpty

/-- The events of an open descriptor. -/
def entryEvents (w : Inputs σ υ) (e : FdEntry) (events : BitVec 16) : BitVec 16 :=
  match e.backend with
  | .devTty => raise events pollin (w.stdin.available != 0) ||| raise events pollout true
  | .devNull => raise events pollin true ||| raise events pollout true
  | .pipe =>
    if e.writable then raise events pollout true
    else raise events pollin (w.pipeReadReady e.rawFd)
  | .ramFS | .fat16 | .ext2 | .dir => raise events pollin true ||| raise events pollout true

/-- The events of one descriptor. -/
def polled (w : Inputs σ υ) (fd : Int) (events : BitVec 16) : BitVec 16 :=
  if fd < 0 then 0
  else if socketFdBase ≤ fd then
    raise events pollin (w.sockets.socketReadReady fd) ||| raise events pollout true
  else if maxFd ≤ fd then 0
  else
    match w.table.entries fd.toNat with
    | none => pollhup
    | some e => w.entryEvents e events

/-- `poll` on the array `fds` at `fdsPtr`: the outcome and the array afterwards. -/
def pollImpl (w : Inputs σ υ) (fdsPtr : Nat) (fds : List PollFd) (timeoutMs : Int) :
    Outcome × List PollFd :=
  if fds.length = 0 then (.returns 0, fds)
  else if 64 < fds.length ∨ fdsPtr < 0x1000 then (.returns (-22), fds)
  else
    let fds := fds.map fun p => { p with revents := w.polled p.fd p.events }
    (waitUnless (fds.countP fun p => p.revents ≠ 0) timeoutMs, fds)

/-- `poll` reports that the descriptor can be read. -/
def pollReports (w : Inputs σ υ) (fd : Int) : Bool :=
  (w.pollImpl 0x1000 [⟨fd, pollin, 0⟩] 0).2.any fun p => p.revents &&& pollin ≠ 0

/-! ## select -/

/-- A set of descriptors below 1024. -/
abbrev FdSet := Nat → Bool

/-- `fd_read_ready`. -/
def fdReadReady (w : Inputs σ υ) (fd : Nat) : Bool :=
  if socketFdBase ≤ fd then w.sockets.socketReadReady fd
  else if maxFd ≤ fd then false
  else
    match w.table.entries fd with
    | none => true
    | some e =>
      match e.backend with
      | .devTty => w.stdin.available != 0
      | .pipe => if !e.writable then w.pipeReadReady e.rawFd else true
      | .ramFS | .fat16 | .ext2 | .devNull | .dir => true

/-- The time limit in milliseconds; -1 is none. -/
def selectTimeout (timeoutPtr : Nat) (tvSec tvUsec : Int) : Option Int :=
  if timeoutPtr = 0 then some (-1)
  else if timeoutPtr < 0x1000 then none
  else some (tvSec * 1000 + tvUsec.tdiv 1000)

/-- `select` on the two sets at `readPtr` and `writePtr`, which do not overlap: the
outcome and the sets afterwards. A set whose address is below 0x1000 is left alone. -/
def selectImpl (w : Inputs σ υ) (nfds readPtr writePtr timeoutPtr : Nat) (tvSec tvUsec : Int)
    (readSet writeSet : FdSet) : Outcome × FdSet × FdSet :=
  if 1024 < nfds then (.returns (-22), readSet, writeSet)
  else
    match selectTimeout timeoutPtr tvSec tvUsec with
    | none => (.returns (-22), readSet, writeSet)
    | some timeoutMs =>
      let n := min nfds 64
      let readable fd := decide (fd < n) && (decide (0x1000 ≤ readPtr) && readSet fd) &&
        w.fdReadReady fd
      let writable fd := decide (fd < n) && (decide (0x1000 ≤ writePtr) && writeSet fd)
      let ready := (List.range n).countP readable + (List.range n).countP writable
      (waitUnless ready timeoutMs, if readPtr < 0x1000 then readSet else readable,
        if writePtr < 0x1000 then writeSet else writable)

/-- `select` reports that the descriptor can be read. -/
def selectReports (w : Inputs σ υ) (fd : Int) : Bool :=
  if fd < 0 then false
  else
    match w.selectImpl (fd.toNat + 1) 0x1000 0 0 0 0 (fun i => i == fd.toNat) fun _ => false with
    | (.returns r, set, _) => decide (0 ≤ r) && set fd.toNat
    | (.sleeps _, set, _) => set fd.toNat

end Calls

/-! ## What the back ends answer -/

/-- A file of the FAT16 volume is open under the raw descriptor. -/
def fatOpened (w : Inputs σ υ) (rawFd : Nat) : Bool :=
  w.fat.ready && Fat.isFatFd rawFd && (w.fat.fds (Fat.fdSlot rawFd)).active

/-- A file of the ext2 volume is open under the raw descriptor. -/
def ext2Opened (w : Inputs σ υ) (rawFd : Nat) : Bool :=
  w.ext2.ready && isExt2Fd rawFd && (w.ext2.fds (rawFd - ext2FdBase)).active

/-- The raw descriptor is the read end of a pipe, and that end is open. -/
def pipeOpened (w : Inputs σ υ) (rawFd : Nat) : Bool :=
  isPipeFd rawFd && isReadFd rawFd && (w.pipes (pipeIndex rawFd)).readOpen

variable (w : Inputs σ υ) (rawFd room : Nat)

omit w in
/-- A back end that asks three questions before it answers. -/
theorem guarded {α : Type} {a b c : Bool} {refused answer : Int × α} (code : refused.1 = -5)
    {P : Int → Prop} (good : P answer.1) :
    ((a && b && c) = true ∧
        P (if !a || !b then refused else if !c then refused else answer).1) ∨
      ((a && b && c) = false ∧
        (if !a || !b then refused else if !c then refused else answer).1 = -5) := by
  cases a <;> cases b <;> cases c <;> simp [code, good]

theorem fat_answer :
    (w.fatOpened rawFd = true ∧ 0 ≤ (w.fat.readFd rawFd room).1) ∨
      (w.fatOpened rawFd = false ∧ (w.fat.readFd rawFd room).1 = -5) := by
  refine guarded (P := fun r => 0 ≤ r) rfl ?_
  dsimp only
  split
  · exact Int.le_refl 0
  · exact Int.natCast_nonneg _

theorem ext2_answer :
    (w.ext2Opened rawFd = true ∧ 0 ≤ (w.ext2.readFd rawFd room).1) ∨
      (w.ext2Opened rawFd = false ∧ (w.ext2.readFd rawFd room).1 = -5) := by
  refine guarded (P := fun r => 0 ≤ r) rfl ?_
  dsimp only
  split
  · exact Int.le_refl 0
  · exact Int.natCast_nonneg _

/-- A read from a pipe is refused, finds data or the end, or has to be tried again. -/
theorem pipe_answer :
    (w.pipeOpened rawFd = true ∧
        if (w.pipes (pipeIndex rawFd)).isEmpty = true ∧
          (w.pipes (pipeIndex rawFd)).writeRefs ≠ 0 then
          (Pipe.read w.pipes rawFd room).1 = -6
        else 0 ≤ (Pipe.read w.pipes rawFd room).1) ∨
      (w.pipeOpened rawFd = false ∧ (Pipe.read w.pipes rawFd room).1 = -5) := by
  refine guarded (P := fun r => if (w.pipes (pipeIndex rawFd)).isEmpty = true ∧
    (w.pipes (pipeIndex rawFd)).writeRefs ≠ 0 then r = -6 else 0 ≤ r) rfl ?_
  by_cases empty : (w.pipes (pipeIndex rawFd)).isEmpty = true
  · by_cases writers : (w.pipes (pipeIndex rawFd)).writeRefs = 0 <;> simp [empty, writers]
  · simp [empty]

/-- The node of an entry is a file. -/
def isFileAt (w : Inputs σ υ) (idx : Nat) : Bool := (w.ram.inodes[idx]?).any fun n => n.kind = .file

theorem ram_answer (e : FdEntry) :
    (w.isFileAt e.inodeIdx = true ∧ 0 ≤ (w.ram.readEntry e room).1) ∨
      (w.isFileAt e.inodeIdx = false ∧ (w.ram.readEntry e room).1 < 0 ∧
        (w.ram.readEntry e room).1 ≠ -5) := by
  unfold isFileAt RamFs.readEntry
  cases node : w.ram.inodes[e.inodeIdx]? with
  | none => simp [ebadf]
  | some n =>
    by_cases file : n.kind = .file
    · simp [file]
    · simp [file, eisdir]

/-- The console has a byte. -/
def typed (w : Inputs σ υ) : Bool := w.stdin.available != 0

theorem getChar_nonneg : 0 ≤ w.getChar.1 ↔ w.typed = true := by
  unfold getChar typed Stdin.pop
  rw [bne_iff_ne, Ne, w.stdin.available_eq_zero]
  split
  · next ch rest found =>
      split at found
      · cases found
      · next different => simpa using different
  · next found =>
      split at found
      · next same => simp [same]
      · cases found

/-- A read through the entry at descriptor `fd` finds data or the end. -/
def yields (w : Inputs σ υ) (fd : Int) (e : FdEntry) : Bool :=
  match e.backend with
  | .devNull => true
  | .devTty => w.typed
  | .dir => false
  | .ramFS => w.isFileAt e.inodeIdx
  | .fat16 => w.fatOpened e.rawFd || (fd == 0 && w.typed)
  | .ext2 => w.ext2Opened e.rawFd || (fd == 0 && w.typed)
  | .pipe =>
    if w.pipeOpened e.rawFd then
      !(w.pipes (pipeIndex e.rawFd)).isEmpty || (w.pipes (pipeIndex e.rawFd)).writeRefs == 0
    else fd == 0 && w.typed

variable {w} {bufPtr count : Nat} {fd : Int}

/-- The answer of a read that an open descriptor refuses with -5. -/
theorem refused_nonneg {r : Int} {w' : Inputs σ υ} (refused : r = -5)
    (same : w'.stdin = w.stdin) (bytes : List UInt8) :
    0 ≤ (if fd = 0 ∧ r = -5 then w'.getChar else (r, bytes, w')).1 ↔
      (fd == 0 && w.typed) = true := by
  subst refused
  by_cases zero : fd = 0
  · have typed : w'.typed = w.typed := by rw [typed, typed, same]
    rw [if_pos ⟨zero, rfl⟩, getChar_nonneg, typed]
    simp [zero]
  · rw [if_neg fun both => zero both.1]
    simp [zero]

/-- The answer of a read that is not refused with -5. -/
theorem answered_nonneg {r : Int} {w' : Inputs σ υ} (answered : r ≠ -5) (bytes : List UInt8) :
    0 ≤ (if fd = 0 ∧ r = -5 then w'.getChar else (r, bytes, w')).1 ↔ 0 ≤ r := by
  rw [if_neg fun both => answered both.2]

section

variable (positive : 0 < count) (valid : validateUserRange bufPtr count = .ok ())
include positive valid

theorem sysRead_eq :
    w.sysRead fd bufPtr count =
      if fd = 0 ∧ (w.readFd fd count).1 = -5 then (w.readFd fd count).2.2.getChar
      else ((w.readFd fd count).1, (w.readFd fd count).2.1, (w.readFd fd count).2.2) := by
  rw [sysRead, if_neg (Nat.pos_iff_ne_zero.mp positive), valid]

/-- A read through a closed descriptor fails. -/
theorem sysRead_closed (closed : w.table.get fd = none) : (w.sysRead fd bufPtr count).1 < 0 := by
  rw [sysRead_eq positive valid, readFd, closed]
  simp [ebadf]

theorem sysRead_nonneg {e : FdEntry} (entry : w.table.get fd = some e) :
    0 ≤ (w.sysRead fd bufPtr count).1 ↔ w.yields fd e = true := by
  rw [sysRead_eq positive valid, readFd, entry]
  unfold yields
  cases backend : e.backend with
  | devNull => simp [backend]
  | dir => simp [backend, eisdir]
  | devTty =>
    simp only [backend]
    rw [if_neg (Nat.pos_iff_ne_zero.mp positive), answered_nonneg, getChar_nonneg]
    unfold getChar
    split <;> simp
  | ramFS =>
    simp only [backend]
    rcases w.ram_answer count e with ⟨file, good⟩ | ⟨other, bad, answered⟩
    · rw [answered_nonneg (by omega), file]
      simp [good]
    · rw [answered_nonneg answered, other]
      simp [Int.not_le.mpr bad]
  | fat16 =>
    simp only [backend]
    rcases w.fat_answer e.rawFd count with ⟨opened, good⟩ | ⟨closed, refused⟩
    · rw [answered_nonneg (by omega), opened]
      simp [good]
    · rw [closed, Bool.false_or]
      exact refused_nonneg refused rfl _
  | ext2 =>
    simp only [backend]
    rcases w.ext2_answer e.rawFd count with ⟨opened, good⟩ | ⟨closed, refused⟩
    · rw [answered_nonneg (by omega), opened]
      simp [good]
    · rw [closed, Bool.false_or]
      exact refused_nonneg refused rfl _
  | pipe =>
    simp only [backend]
    rcases w.pipe_answer e.rawFd count with ⟨opened, answer⟩ | ⟨closed, refused⟩
    · rw [opened, if_pos rfl]
      split at answer
      · next waits =>
          rw [answered_nonneg (by omega), answer]
          simp [waits]
      · next found =>
          rw [answered_nonneg (by omega)]
          simp only [answer, true_iff]
          by_cases empty : (w.pipes (pipeIndex e.rawFd)).isEmpty = true
          · have none : (w.pipes (pipeIndex e.rawFd)).writeRefs = 0 := by
              by_contra some
              exact found ⟨empty, some⟩
            simp [none]
          · simp [empty]
    · rw [closed, if_neg Bool.false_ne_true]
      exact refused_nonneg refused rfl _

end

/-! ## What poll and select report -/

/-- `poll` asks the back end of an open descriptor. -/
def pollSees (w : Inputs σ υ) (e : FdEntry) : Bool :=
  match e.backend with
  | .devTty => w.typed
  | .pipe => !e.writable && w.pipeReadReady e.rawFd
  | .devNull | .ramFS | .fat16 | .ext2 | .dir => true

theorem raise_pollin {holds : Bool} : (raise pollin pollin holds &&& pollin != 0) = holds := by
  cases holds <;> decide

theorem raise_pollin_pollout {holds : Bool} :
    ((raise pollin pollin holds ||| raise pollin pollout true) &&& pollin != 0) = holds := by
  cases holds <;> decide

theorem entryEvents_pollin (e : FdEntry) :
    (w.entryEvents e pollin &&& pollin != 0) = w.pollSees e := by
  unfold entryEvents pollSees
  cases backend : e.backend with
  | pipe =>
    cases writable : e.writable
    · exact raise_pollin
    · show (raise pollin pollout true &&& pollin != 0) = false
      decide
  | devTty => exact raise_pollin_pollout
  | devNull | ramFS | fat16 | ext2 | dir => exact raise_pollin_pollout

variable [TcpSockets σ] [UdpSockets υ]

/-- `poll` answers for each descriptor on its own. -/
theorem pollImpl_array {fds : List PollFd} {fdsPtr : Nat} {timeoutMs : Int} (some : fds ≠ [])
    (few : fds.length ≤ 64) (address : 0x1000 ≤ fdsPtr) :
    (w.pollImpl fdsPtr fds timeoutMs).2 =
      fds.map fun p => { p with revents := w.polled p.fd p.events } := by
  have refused : ¬(64 < fds.length ∨ fdsPtr < 0x1000) := by omega
  rw [pollImpl, if_neg (fun none => some (List.length_eq_zero_iff.mp none)), if_neg refused]

theorem pollReports_eq : w.pollReports fd = (w.polled fd pollin &&& pollin != 0) := by
  rw [pollReports, pollImpl_array (List.cons_ne_nil _ _) (by simp) (Nat.le_refl _)]
  simp only [List.map_cons, List.map_nil, List.any_cons, List.any_nil, Bool.or_false, ne_eq,
    decide_not, bne]
  rfl

/-- `select` answers for each descriptor below 64 on its own. -/
theorem selectImpl_readSet (writePtr : Nat) (readSet writeSet : FdSet)
    {nfds readPtr timeoutPtr : Nat} {tvSec tvUsec timeoutMs : Int} (few : nfds ≤ 1024)
    (address : 0x1000 ≤ readPtr)
    (timed : selectTimeout timeoutPtr tvSec tvUsec = some timeoutMs) :
    (∃ ready, (w.selectImpl nfds readPtr writePtr timeoutPtr tvSec tvUsec readSet writeSet).1 =
      waitUnless ready timeoutMs) ∧
    ∀ fd, (w.selectImpl nfds readPtr writePtr timeoutPtr tvSec tvUsec readSet writeSet).2.1 fd =
      (decide (fd < min nfds 64) && readSet fd && w.fdReadReady fd) := by
  rw [selectImpl, if_neg (Nat.not_lt.mpr few), timed]
  dsimp only
  rw [if_neg (Nat.not_lt.mpr address)]
  exact ⟨⟨_, rfl⟩, fun fd => by rw [decide_eq_true address, Bool.true_and]⟩

theorem selectReports_eq :
    w.selectReports fd = (decide (0 ≤ fd ∧ fd < 64) && w.fdReadReady fd.toNat) := by
  unfold selectReports
  by_cases negative : fd < 0
  · rw [if_pos negative, decide_eq_false (by omega), Bool.false_and]
  rw [if_neg negative]
  by_cases few : fd.toNat + 1 ≤ 1024
  · obtain ⟨⟨ready, outcome⟩, bits⟩ := w.selectImpl_readSet 0 (fun i => i == fd.toNat)
      (fun _ => false) few (Nat.le_refl 0x1000) (show selectTimeout 0 0 0 = some (-1) from rfl)
    have bit := bits fd.toNat
    have range : decide (fd.toNat < min (fd.toNat + 1) 64) = decide (0 ≤ fd ∧ fd < 64) := by
      rw [decide_eq_decide]
      omega
    rw [beq_self_eq_true, Bool.and_true, range] at bit
    rw [← bit]
    split
    · next r set other result =>
        rw [result] at outcome ⊢
        have answer : r = ready := by
          unfold waitUnless at outcome
          split at outcome <;> cases outcome
          rfl
        rw [answer, decide_eq_true (Int.natCast_nonneg ready), Bool.true_and]
    · next result => rw [result]
  · rw [selectImpl, if_pos (by omega), decide_eq_false (by omega)]
    rfl

/-! ## When the reports are true -/

/-- `poll` and `select` report the descriptor if and only if an immediate read finds
data or the end, and so they report the same. -/
structure Truthful (w : Inputs σ υ) (fd : Int) (bufPtr count : Nat) : Prop where
  poll : w.pollReports fd = true ↔ 0 ≤ w.readAnswer fd bufPtr count
  select : w.selectReports fd = true ↔ 0 ≤ w.readAnswer fd bufPtr count
  agree : w.pollReports fd = w.selectReports fd

/-- The reports are true for an open descriptor: a device; a file that is there (when
the file behind descriptor 0 is not, the console has to have a byte); the read end of
a pipe that has data or may still get some. -/
def plainEntry (w : Inputs σ υ) (fd : Int) (e : FdEntry) : Bool :=
  match e.backend with
  | .devNull | .devTty => true
  | .dir => false
  | .ramFS => w.isFileAt e.inodeIdx
  | .fat16 => w.fatOpened e.rawFd || (fd == 0 && w.typed)
  | .ext2 => w.ext2Opened e.rawFd || (fd == 0 && w.typed)
  | .pipe =>
    let p := w.pipes (pipeIndex e.rawFd)
    !e.writable &&
      if w.pipeOpened e.rawFd then !p.isEmpty || p.writeRefs != 0
      else (isPipeFd e.rawFd && isReadFd e.rawFd && !p.isEmpty) == (fd == 0 && w.typed)

/-- The reports are true for a socket: `select` reports none, so there is nothing to
receive, and the connection is not closed. -/
def plainSocket (w : Inputs σ υ) (fd : Int) : Bool :=
  match w.sockets.slotFromFd fd with
  | none => true
  | some e =>
    !w.sockets.started ||
      if e.sockType = sockStream then
        !TcpSockets.canRecv (w.sockets.tcp e.handle) && TcpSockets.isOpen (w.sockets.tcp e.handle)
      else !UdpSockets.canRecv (w.sockets.udp e.handle)

/-- The reports are true for a descriptor. Numbers that name nothing are not
reported; a closed descriptor is reported by `select`. -/
def plain (w : Inputs σ υ) (fd : Int) : Bool :=
  if socketFdBase ≤ fd then w.plainSocket fd
  else if fd < 0 ∨ maxFd ≤ fd then true
  else
    match w.table.entries fd.toNat with
    | none => false
    | some e => w.plainEntry fd e

/-- Three Boolean answers. -/
theorem truthful_bool {polled selected : Bool} {answer : Int} {finds : Bool}
    (read : 0 ≤ answer ↔ finds = true) :
    ((polled = true ↔ 0 ≤ answer) ∧ (selected = true ↔ 0 ≤ answer) ∧ polled = selected) ↔
      (polled == finds && selected == finds) = true := by
  rw [read]
  cases polled <;> cases selected <;> cases finds <;> decide

omit [TcpSockets σ] [UdpSockets υ] in
theorem entry_plain (e : FdEntry) {selected : Bool}
    (asked : selected = match e.backend with
      | .devTty => w.typed
      | .pipe => if !e.writable then w.pipeReadReady e.rawFd else true
      | .ramFS | .fat16 | .ext2 | .devNull | .dir => true) :
    (w.pollSees e == w.yields fd e && selected == w.yields fd e) = w.plainEntry fd e := by
  subst asked
  unfold pollSees yields plainEntry
  cases e.backend with
  | devTty | ramFS | fat16 | ext2 => simp
  | devNull => rfl
  | dir => rfl
  | pipe =>
    unfold pipeReadReady pipeOpened
    cases e.writable with
    | true => simp
    | false =>
      cases isPipeFd e.rawFd <;> cases isReadFd e.rawFd <;>
        cases (w.pipes (pipeIndex e.rawFd)).readOpen <;>
        cases empty : (w.pipes (pipeIndex e.rawFd)).isEmpty <;> simp [empty, bne]

omit [UdpSockets υ] in
/-- What `recv` answers on a socket. -/
theorem recv_nonneg (room : Nat) : 0 ≤ (w.sockets.sysRecv fd room).1 ↔
    ∃ e, w.sockets.slotFromFd fd = some e ∧ e.sockType = sockStream ∧ w.sockets.started = true ∧
      (TcpSockets.canRecv (w.sockets.tcp e.handle) = true ∨
        TcpSockets.isOpen (w.sockets.tcp e.handle) = false) := by
  unfold Sockets.sysRecv
  cases w.sockets.slotFromFd fd with
  | none => simp
  | some e =>
    by_cases stream : e.sockType = sockStream
    · cases started : w.sockets.started with
      | false => simp [stream]
      | true =>
        cases can : TcpSockets.canRecv (w.sockets.tcp e.handle) with
        | true =>
          obtain ⟨⟨bytes, sock⟩, received⟩ :=
            Option.isSome_iff_exists.mp (TcpSockets.recvSlice_isSome can room)
          simp [stream, can, received]
        | false =>
          cases opened : TcpSockets.isOpen (w.sockets.tcp e.handle) <;>
            simp [stream, can, opened]
    · simp [stream]

/-- The reports on a socket. -/
theorem socket_plain (room : Nat) :
    ((w.sockets.socketReadReady fd = true ↔ 0 ≤ (w.sockets.sysRecv fd room).1) ∧
      (false = true ↔ 0 ≤ (w.sockets.sysRecv fd room).1) ∧
      w.sockets.socketReadReady fd = false) ↔ w.plainSocket fd = true := by
  rw [recv_nonneg]
  unfold Sockets.socketReadReady plainSocket
  cases w.sockets.slotFromFd fd with
  | none => simp
  | some e =>
    by_cases stream : e.sockType = sockStream
    · cases w.sockets.started <;> cases can : TcpSockets.canRecv (w.sockets.tcp e.handle) <;>
        cases opened : TcpSockets.isOpen (w.sockets.tcp e.handle) <;> simp [stream, can, opened]
    · cases w.sockets.started <;> cases UdpSockets.canRecv (w.sockets.udp e.handle) <;>
        simp [stream]

/-- Numbers outside the table are not reported. -/
theorem unreported (outside : fd < 0 ∨ (maxFd : Int) ≤ fd) (below : fd < 200) :
    w.pollReports fd = false ∧ w.selectReports fd = false := by
  have notSocket : ¬(socketFdBase : Int) ≤ fd := Int.not_le.mpr below
  constructor
  · rw [pollReports_eq, polled, if_neg notSocket]
    rcases outside with negative | large
    · rw [if_pos negative]
      decide
    · rw [if_pos large, ite_self]
      decide
  · rw [selectReports_eq, Bool.and_eq_false_iff]
    rcases outside with negative | large
    · exact .inl (decide_eq_false (by omega))
    · have range : ¬socketFdBase ≤ fd.toNat ∧ maxFd ≤ fd.toNat := by
        unfold socketFdBase maxFd at *
        omega
      rw [fdReadReady, if_neg range.1, if_pos range.2]
      exact .inr rfl

/-- The table decides about the numbers inside it. -/
theorem reported (inside : ¬(fd < 0 ∨ (maxFd : Int) ≤ fd)) :
    w.pollReports fd = (w.table.entries fd.toNat).any (fun e => w.pollSees e) ∧
      w.selectReports fd = w.fdReadReady fd.toNat := by
  have range : ¬fd < 0 ∧ ¬(socketFdBase : Int) ≤ fd ∧ ¬(maxFd : Int) ≤ fd ∧ (0 ≤ fd ∧ fd < 64) := by
    unfold socketFdBase maxFd at *
    omega
  constructor
  · rw [pollReports_eq, polled, if_neg range.1, if_neg range.2.1, if_neg range.2.2.1]
    cases w.table.entries fd.toNat with
    | none =>
      show (pollhup &&& pollin != 0) = false
      decide
    | some e => exact entryEvents_pollin e
  · rw [selectReports_eq, decide_eq_true range.2.2.2, Bool.true_and]

/-- **Readiness.** The reports of `poll` and `select` on a descriptor are true, and
agree, if and only if the descriptor is one of the plain ones. -/
theorem truthful_iff (w : Inputs σ υ) (fd : Int) {bufPtr count : Nat} (positive : 0 < count)
    (valid : validateUserRange bufPtr count = .ok ()) :
    w.Truthful fd bufPtr count ↔ w.plain fd = true := by
  have fields : w.Truthful fd bufPtr count ↔
      (w.pollReports fd = true ↔ 0 ≤ w.readAnswer fd bufPtr count) ∧
      (w.selectReports fd = true ↔ 0 ≤ w.readAnswer fd bufPtr count) ∧
      w.pollReports fd = w.selectReports fd :=
    ⟨fun t => ⟨t.poll, t.select, t.agree⟩, fun t => ⟨t.1, t.2.1, t.2.2⟩⟩
  rw [fields, readAnswer, plain]
  by_cases socket : (socketFdBase : Int) ≤ fd
  · have above : (200 : Int) ≤ fd := socket
    rw [if_pos socket, if_pos socket, pollReports_eq, polled, if_neg (by omega), if_pos socket,
      raise_pollin_pollout, selectReports_eq, decide_eq_false (by omega), Bool.false_and]
    exact socket_plain count
  · rw [if_neg socket, if_neg socket]
    by_cases outside : fd < 0 ∨ (maxFd : Int) ≤ fd
    · have closed : w.table.get fd = none := by rw [FdTable.get, if_pos outside]
      have fails := Int.not_le.mpr (sysRead_closed positive valid closed)
      obtain ⟨poll, select⟩ := unreported (w := w) outside (Int.not_le.mp socket)
      rw [if_pos outside, poll, select]
      simp [fails]
    · have entry : w.table.get fd = w.table.entries fd.toNat := by rw [FdTable.get, if_neg outside]
      obtain ⟨poll, select⟩ := reported (w := w) outside
      have range : ¬socketFdBase ≤ fd.toNat ∧ ¬maxFd ≤ fd.toNat := by
        unfold socketFdBase maxFd at *
        omega
      rw [if_neg outside, poll, select, fdReadReady, if_neg range.1, if_neg range.2]
      cases found : w.table.entries fd.toNat with
      | none =>
        simp
      | some e =>
        rw [truthful_bool (sysRead_nonneg positive valid (entry.trans found))]
        exact Bool.eq_iff_iff.mp (entry_plain e rfl)

/-! ## A pipe -/

/-- A socket that delivers what is in its buffer. -/
structure Line where
  received : List UInt8
  isOpen : Bool

instance : TcpSockets Line where
  canRecv s := !s.received.isEmpty
  isOpen s := s.isOpen
  recvSlice s room := some (s.received.take room, { s with received := s.received.drop room })
  recvSlice_isSome := fun _ _ => rfl

instance : UdpSockets Line where
  canRecv s := !s.received.isEmpty

/-- A task with no descriptor open, on a machine without disks and network. -/
def bare : Inputs Line Line where
  table := .new
  pipes := fun _ => .new
  ram := ⟨[], 0⟩
  fat := ⟨.blank, false, ⟨512, 1, 0, 0, 0, 0, 0, 0, 0⟩, fun _ => .empty, [], []⟩
  ext2 := .new .blank
  stdin := .empty
  sockets := ⟨fun _ => none, false, fun _ => ⟨[], false⟩, fun _ => ⟨[], false⟩⟩

/-- The same after `pipe`, whose ends are the descriptors 3 and 4. -/
def withPipe : Inputs Line Line :=
  let (_, table, files) := pipeAlloc .new OpenFiles.empty
  { bare with table := table, pipes := files.pipes }

/-- The same after `pipe` and `close(4)`. -/
def withClosedPipe : Inputs Line Line :=
  let (_, table, files) := pipeAlloc .new OpenFiles.empty
  let (_, table, files) := table.close 4 files
  { bare with table := table, pipes := files.pipes }

theorem truthful_iff_withPipe :
    0 < 16 ∧ validateUserRange 0x400000 16 = .ok () ∧
      (withPipe.Truthful 3 0x400000 16 ↔ withPipe.plain 3 = true) ∧ withPipe.plain 3 = true :=
  ⟨by decide, rfl, truthful_iff withPipe 3 (by decide) rfl, by decide⟩

/-- The write end of a pipe is closed: a read from the other end returns 0 at once,
and neither `poll` nor `select` reports it. -/
theorem closed_pipe_unready :
    withClosedPipe.readAnswer 3 0x400000 16 = 0 ∧ withClosedPipe.pollReports 3 = false ∧
      withClosedPipe.selectReports 3 = false ∧ ¬withClosedPipe.Truthful 3 0x400000 16 := by
  have atEnd : withClosedPipe.readAnswer 3 0x400000 16 = 0 := by decide
  have unseen : withClosedPipe.pollReports 3 = false := by decide
  refine ⟨atEnd, unseen, by decide, fun truthful => ?_⟩
  have seen := truthful.poll.mpr (by rw [atEnd])
  rw [unseen] at seen
  cases seen

/-! ## Standard input -/

/-- `read` from descriptor 0 takes the oldest byte of the console if the descriptor has no
entry, and asks the back end of its entry otherwise. -/
def ReadsInput (w : Inputs σ υ) (bufPtr count : Nat) : Prop :=
  w.sysRead 0 bufPtr count =
    match w.table.get 0 with
    | none => w.getChar
    | some _ => w.readFd 0 count

/-- The back end knows the file of the entry. -/
def served (w : Inputs σ υ) (e : FdEntry) : Bool :=
  match e.backend with
  | .pipe => w.pipeOpened e.rawFd
  | .fat16 => w.fatOpened e.rawFd
  | .ext2 => w.ext2Opened e.rawFd
  | .devNull | .devTty | .dir | .ramFS => true

omit [TcpSockets σ] [UdpSockets υ]

theorem getChar_answer : w.getChar.1 = 1 ∨ w.getChar.1 = -6 := by
  unfold getChar
  split
  · exact .inl rfl
  · exact .inr rfl

/-- An entry answers -5 exactly if its back end does not know the file. -/
theorem readFd_refused_iff {e : FdEntry} (entry : w.table.get fd = some e) (positive : 0 < count) :
    (w.readFd fd count).1 = -5 ↔ w.served e = false := by
  rw [readFd, entry]
  unfold served
  cases backend : e.backend with
  | devNull | dir => simp [backend, eisdir]
  | devTty =>
    simp only [backend, if_neg (Nat.pos_iff_ne_zero.mp positive), reduceCtorEq, iff_false]
    rcases w.getChar_answer with one | again <;> omega
  | ramFS =>
    simp only [backend, reduceCtorEq, iff_false]
    rcases w.ram_answer count e with ⟨-, good⟩ | ⟨-, -, answered⟩ <;> omega
  | fat16 =>
    simp only [backend]
    rcases w.fat_answer e.rawFd count with ⟨opened, good⟩ | ⟨closed, refused⟩
    · simp only [opened, reduceCtorEq, iff_false]
      omega
    · simp [closed, refused]
  | ext2 =>
    simp only [backend]
    rcases w.ext2_answer e.rawFd count with ⟨opened, good⟩ | ⟨closed, refused⟩
    · simp only [opened, reduceCtorEq, iff_false]
      omega
    · simp [closed, refused]
  | pipe =>
    simp only [backend]
    rcases w.pipe_answer e.rawFd count with ⟨opened, answer⟩ | ⟨closed, refused⟩
    · simp only [opened, reduceCtorEq, iff_false]
      split at answer <;> omega
    · simp [closed, refused]

/-- **Standard input reaches programs** if and only if descriptor 0 has an entry whose back
end knows the file: without an entry the table answers -9 and not -5, and the console is
never asked. -/
theorem reads_input_iff (w : Inputs σ υ) {bufPtr count : Nat} (positive : 0 < count)
    (valid : validateUserRange bufPtr count = .ok ()) :
    w.ReadsInput bufPtr count ↔ ∃ e, w.table.get 0 = some e ∧ w.served e = true := by
  rw [ReadsInput, sysRead_eq positive valid]
  cases entry : w.table.get 0 with
  | none =>
    refine iff_of_false (fun same => ?_) (by rintro ⟨e, ⟨⟩, -⟩)
    have missing : w.readFd 0 count = (ebadf, [], w) := by rw [readFd, entry]
    rw [missing, if_neg (by rintro ⟨-, ⟨⟩⟩)] at same
    have answer : ebadf = w.getChar.1 := congrArg (·.1) same
    rcases w.getChar_answer with one | again <;> simp [ebadf] at answer <;> omega
  | some e =>
    have refused_iff := readFd_refused_iff entry positive
    simp only [Option.some.injEq, exists_eq_left']
    cases served : w.served e with
    | true =>
      have answered : (w.readFd 0 count).1 ≠ -5 := by simp [refused_iff, served]
      exact iff_of_true (if_neg fun both => answered both.2) rfl
    | false =>
      have refused := refused_iff.mpr served
      refine iff_of_false (fun same => ?_) Bool.false_ne_true
      simp only [refused, and_self, if_true] at same
      have answer := (congrArg (·.1) same).trans refused
      rcases (w.readFd 0 count).2.2.getChar_answer with one | again <;> omega

/-- The same with standard input from the read end of a pipe. -/
def withPipedInput : Inputs Line Line :=
  { withPipe with table := withPipe.table.set 0 (withPipe.table.get 3) }

theorem reads_input_iff_withPipedInput : withPipedInput.ReadsInput 0x400000 16 :=
  (reads_input_iff withPipedInput (by decide) rfl).mpr ⟨_, rfl, by decide⟩

/-- A byte has been typed and descriptor 0 is closed: `read` answers that the descriptor is
bad, and the byte stays where it is. -/
theorem typed_byte_unread :
    let w := { bare with stdin := Stdin.empty.push 97 }
    w.table.get 0 = none ∧ w.getChar.1 = 1 ∧ (w.sysRead 0 0x400000 16).1 = -9 ∧
      ¬w.ReadsInput 0x400000 16 := by
  have answer : ({ bare with stdin := Stdin.empty.push 97 }.sysRead 0 0x400000 16).1 = -9 := by
    decide
  refine ⟨by decide, by decide, answer, fun reads => ?_⟩
  have typed : ({ bare with stdin := Stdin.empty.push 97 }.sysRead 0 0x400000 16).1 = 1 :=
    congrArg (·.1) reads
  rw [typed] at answer
  cases answer

end Inputs

end OxideOS.Sys
