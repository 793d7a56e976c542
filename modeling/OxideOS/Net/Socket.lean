import OxideOS.Lib.Table

/-!
# The socket table

A socket descriptor is 200 plus a slot of a table of sixteen entries; an entry
names a socket of the TCP/IP stack by its handle. The stack itself is not part of
the kernel's sources: `TcpSockets` and `UdpSockets` list what the table uses of
its sockets, with the one promise it relies on, that a TCP socket which says it
can receive does.
-/

set_option autoImplicit false

namespace OxideOS.Net

def sockStream : Nat := 1
def sockDgram : Nat := 2
def maxSockets : Nat := 16
def socketFdBase : Nat := 200

/-- What is used of the stack's TCP sockets. -/
class TcpSockets (σ : Type) where
  canRecv : σ → Bool
  isOpen : σ → Bool
  /-- Receive into a buffer of the given size. -/
  recvSlice : σ → Nat → Option (List UInt8 × σ)
  recvSlice_isSome : ∀ {s}, canRecv s = true → ∀ room, (recvSlice s room).isSome = true

/-- What is used of the stack's UDP sockets. -/
class UdpSockets (υ : Type) where
  canRecv : υ → Bool

structure SocketEntry where
  handle : Nat
  sockType : Nat

/-- The socket table and the sockets of the stack by their handles; there are none
before the stack has started. -/
structure Sockets (σ υ : Type) where
  table : Nat → Option SocketEntry
  started : Bool
  tcp : Nat → σ
  udp : Nat → υ

namespace Sockets

variable {σ υ : Type} [TcpSockets σ] [UdpSockets υ]

/-- The entry a descriptor stands for. -/
def slotFromFd (n : Sockets σ υ) (sfd : Int) : Option SocketEntry :=
  if socketFdBase ≤ sfd ∧ sfd < socketFdBase + maxSockets then n.table (sfd - socketFdBase).toNat
  else none

/-- Receive up to `len` bytes from a TCP socket: an error code, 0 when the
connection is closed, or the number of bytes received. -/
def sysRecv (n : Sockets σ υ) (sfd : Int) (len : Nat) : Int × List UInt8 × Sockets σ υ :=
  match n.slotFromFd sfd with
  | none => (-9, [], n)
  | some e =>
    if e.sockType ≠ sockStream then (-38, [], n)
    else if !n.started then (-100, [], n)
    else
      let sock := n.tcp e.handle
      if !TcpSockets.canRecv sock then (if !TcpSockets.isOpen sock then 0 else -11, [], n)
      else
        match TcpSockets.recvSlice sock len with
        | none => (-5, [], n)
        | some (bytes, sock) =>
          (bytes.length, bytes, { n with tcp := Function.update n.tcp e.handle sock })

/-- What `poll` and `select` ask. -/
def socketReadReady (n : Sockets σ υ) (sfd : Int) : Bool :=
  match n.slotFromFd sfd with
  | none => false
  | some e =>
    if !n.started then false
    else if e.sockType = sockStream then TcpSockets.canRecv (n.tcp e.handle)
    else UdpSockets.canRecv (n.udp e.handle)

end Sockets

end OxideOS.Net
