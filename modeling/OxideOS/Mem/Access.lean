import OxideOS.Lib.Bytes
import OxideOS.Mem.Paging

/-!
# Memory accesses through the page tables

The part of the machine the paging code is written for. `translate` is the
four-level translation of the processor with its page-fault error codes; write
protection holds in supervisor mode too (CR0.WP). `pageFault` is the dispatch of
a page fault by `isr_common_handler`: a write fault raised in user mode on a
present page is given to `tryResolveCowFault`, every other fault ends the task,
or the system when it was raised in kernel mode. `store` is the instruction that
is retried after the fault has been resolved.
-/

set_option autoImplicit false

namespace OxideOS.Mem

open Lib PageTableFlags PageTableEntry

/-- An access by privilege and kind. -/
structure Access where
  user : Bool
  write : Bool
  deriving DecidableEq

namespace Access

def userRead : Access := ⟨true, false⟩
def userWrite : Access := ⟨true, true⟩
def kernelWrite : Access := ⟨false, true⟩

/-- The error code the processor pushes: present, write, user. -/
def errCode (a : Access) (present : Bool) : Nat :=
  (if present then 1 else 0) + (if a.write then 2 else 0) + (if a.user then 4 else 0)

/-- One entry of the walk allows the access. -/
def permits (a : Access) (e : Nat) : Bool :=
  (!a.user || isUser e) && (!a.write || isWritable e)

end Access

namespace Paging

/-- The physical address of a virtual one, or the error code of the fault. -/
def translate (p : Paging) (cr3 virt : Nat) (a : Access) : Except Nat Nat :=
  let l4e := p.read (cr3 &&& addrMask) (l4Index virt)
  if !isPresent l4e then .error (a.errCode false) else
  let l3e := p.read (addr l4e) (l3Index virt)
  if !isPresent l3e then .error (a.errCode false) else
  if isHuge l3e then
    if a.permits l4e && a.permits l3e then .ok ((l3e &&& 0x000FFFFFC0000000) + virt % 2 ^ 30)
    else .error (a.errCode true) else
  let l2e := p.read (addr l3e) (l2Index virt)
  if !isPresent l2e then .error (a.errCode false) else
  if isHuge l2e then
    if a.permits l4e && a.permits l3e && a.permits l2e then
      .ok ((l2e &&& 0x000FFFFFFFE00000) + virt % 2 ^ 21)
    else .error (a.errCode true) else
  let l1e := p.read (addr l2e) (l1Index virt)
  if !isPresent l1e then .error (a.errCode false) else
  if a.permits l4e && a.permits l3e && a.permits l2e && a.permits l1e then
    .ok (addr l1e + virt % 4096)
  else .error (a.errCode true)

/-- The byte at a physical address. -/
def readByte (p : Paging) (phys : Nat) : Nat :=
  getByte (p.read phys (phys % 4096 / 8)) (phys % 8)

def writeByte (p : Paging) (phys b : Nat) : Paging :=
  p.write phys (phys % 4096 / 8) (setByte (p.read phys (phys % 4096 / 8)) (phys % 8) b)

/-- The byte user code reads at `virt`, if it can read there. -/
def userByte (p : Paging) (cr3 virt : Nat) : Option Nat :=
  match p.translate cr3 virt .userRead with
  | .ok phys => some (p.readByte phys)
  | .error _ => none

/-! ## Page faults -/

/-- What becomes of a faulting instruction. -/
inductive FaultResult where
  /-- The instruction is retried. -/
  | retry
  /-- The task is ended with exit code -11. -/
  | killed
  /-- The fault was raised in kernel mode: the system stops. -/
  | halted
  deriving DecidableEq, Repr

/-- The dispatch of a page fault; `user` is the privilege of the code segment. -/
def pageFault (cr3 cr2 errCode : Nat) (user : Bool) (p : Paging) : FaultResult × Paging :=
  if user && (errCode &&& 3 == 3) then
    match p.tryResolveCowFault cr3 cr2 with
    | (true, p') => (.retry, p')
    | (false, p') => (.killed, p')
  else if user then (.killed, p)
  else (.halted, p)

/-- How a store ends. -/
inductive StoreResult where
  | stored | killed | halted
  deriving DecidableEq, Repr

/-- A one-byte store at `virt`, tried at most `attempts` times: `none` when the
last attempt was to be retried. -/
def store (cr3 virt b : Nat) (user : Bool) : (attempts : Nat) → Paging →
    Option (StoreResult × Paging)
  | 0, _ => none
  | attempts + 1, p =>
    match p.translate cr3 virt ⟨user, true⟩ with
    | .ok phys => some (.stored, p.writeByte phys b)
    | .error code =>
      match p.pageFault cr3 virt code user with
      | (.retry, p') => store cr3 virt b user attempts p'
      | (.killed, p') => some (.killed, p')
      | (.halted, p') => some (.halted, p')

/-- The kernel stores the bytes one after the other, from `virt` on. -/
def writeUser (cr3 attempts : Nat) : (virt : Nat) → List UInt8 → Paging →
    Option (StoreResult × Paging)
  | _, [], p => some (.stored, p)
  | virt, b :: rest, p =>
    match store cr3 virt b.toNat false attempts p with
    | some (.stored, p') => writeUser cr3 attempts (virt + 1) rest p'
    | other => other

/-- The address is one the processor accepts: its upper 17 bits are equal. -/
def canonical (virt : Nat) : Bool := decide (virt < 2 ^ 47) || decide (2 ^ 64 - 2 ^ 47 ≤ virt)

/-- A supervisor copy into the address space `cr3`; `none` when a store faults,
which stops the system. -/
def copyToRegionIn (p : Paging) (cr3 virt : Nat) (bytes : List UInt8) : Option Paging :=
  if bytes.isEmpty || canonical virt && canonical (virt + (bytes.length - 1)) then
    match writeUser cr3 1 virt bytes p with
    | some (.stored, p') => some p'
    | _ => none
  else none

/-- The kernel loads `count` bytes from `virt` on; `none` when a load faults. -/
def readUser (p : Paging) (cr3 : Nat) : (virt count : Nat) → Option (List Nat)
  | _, 0 => some []
  | virt, count + 1 =>
    match p.translate cr3 virt ⟨false, false⟩ with
    | .error _ => none
    | .ok phys => (readUser p cr3 (virt + 1) count).map (p.readByte phys :: ·)

end Paging

end OxideOS.Mem
