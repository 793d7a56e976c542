import OxideOS.Lib.Table
import Mathlib.Logic.Function.Basic

/-!
# Anonymous pipes

Eight pipes with a ring buffer each. The read end of pipe `n` has the raw
descriptor `80 + 2 n` and the write end `81 + 2 n`; each end has a count of the
descriptor-table entries that hold it, kept in one byte.
-/

set_option autoImplicit false

namespace OxideOS.Ipc

open Lib Function

def pipeFdBase : Nat := 80
def pipeCount : Nat := 8
def pipeBuf : Nat := 4096

structure Pipe where
  buf : Nat → UInt8
  head : Nat
  tail : Nat
  readOpen : Bool
  writeOpen : Bool
  writeRefs : Nat
  readRefs : Nat

namespace Pipe

def new : Pipe := ⟨fun _ => 0, 0, 0, false, false, 0, 0⟩

def isEmpty (p : Pipe) : Bool := p.head == p.tail

def len (p : Pipe) : Nat := (p.tail + pipeBuf - p.head) % pipeBuf

def availableWrite (p : Pipe) : Nat := pipeBuf - 1 - p.len

/-- Append bytes while there is room; the number of bytes taken comes first. -/
def push (p : Pipe) : List UInt8 → Nat × Pipe
  | [] => (0, p)
  | byte :: rest =>
    if p.availableWrite = 0 then (0, p) else
    let (written, p) :=
      push { p with buf := update p.buf p.tail byte, tail := (p.tail + 1) % pipeBuf } rest
    (written + 1, p)

/-- Take up to `count` bytes. -/
def pull (p : Pipe) : (count : Nat) → List UInt8 × Pipe
  | 0 => ([], p)
  | count + 1 =>
    if p.isEmpty then ([], p) else
    let (bytes, p') := pull { p with head := (p.head + 1) % pipeBuf } count
    (p.buf p.head :: bytes, p')

end Pipe

/-! ## Raw descriptors -/

def isPipeFd (fd : Nat) : Bool :=
  decide (pipeFdBase ≤ fd) && decide (fd < pipeFdBase + pipeCount * 2)

def pipeIndex (fd : Nat) : Nat := (fd - pipeFdBase) / 2

def isReadFd (fd : Nat) : Bool := (fd - pipeFdBase) % 2 == 0

/-! ## Operations on the table of pipes -/

namespace Pipe

variable (pipes : Nat → Pipe)

/-- Take the first pipe that is closed at both ends. -/
def alloc : Option ((Nat × Nat) × (Nat → Pipe)) :=
  match firstBelow pipeCount fun i => !(pipes i).readOpen && !(pipes i).writeOpen with
  | none => none
  | some i =>
    let p := { pipes i with
      head := 0, tail := 0, readOpen := true, writeOpen := true, readRefs := 1, writeRefs := 1 }
    some ((pipeFdBase + i * 2, pipeFdBase + i * 2 + 1), update pipes i p)

/-- Count one more holder of an end; the counter saturates at 255. -/
def addref (fd : Nat) : Nat → Pipe :=
  if isPipeFd fd then
    let p := pipes (pipeIndex fd)
    update pipes (pipeIndex fd)
      (if isReadFd fd then { p with readRefs := min (p.readRefs + 1) 255 }
      else { p with writeRefs := min (p.writeRefs + 1) 255 })
  else pipes

def write (fd : Nat) (data : List UInt8) : Int × (Nat → Pipe) :=
  if !isPipeFd fd || isReadFd fd then (-5, pipes) else
  let p := pipes (pipeIndex fd)
  if !p.writeOpen then (-5, pipes) else
  let (written, p) := p.push data
  (written, update pipes (pipeIndex fd) p)

/-- Read up to `count` bytes: an error code with no bytes, 0 at the end of the
data, or the number of bytes read. -/
def read (fd count : Nat) : Int × List UInt8 × (Nat → Pipe) :=
  if !isPipeFd fd || !isReadFd fd then (-5, [], pipes) else
  let p := pipes (pipeIndex fd)
  if !p.readOpen then (-5, [], pipes) else
  if p.isEmpty then (if p.writeRefs = 0 then 0 else -6, [], pipes) else
  let (bytes, p) := p.pull count
  (bytes.length, bytes, update pipes (pipeIndex fd) p)

/-- Drop one holder of an end and close the end with the last one. -/
def close (fd : Nat) : Nat → Pipe :=
  if isPipeFd fd then
    let p := pipes (pipeIndex fd)
    update pipes (pipeIndex fd)
      (if isReadFd fd then
        { p with readRefs := p.readRefs - 1, readOpen := p.readOpen && p.readRefs - 1 != 0 }
      else
        { p with writeRefs := p.writeRefs - 1, writeOpen := p.writeOpen && p.writeRefs - 1 != 0 })
  else pipes

end Pipe

end OxideOS.Ipc
