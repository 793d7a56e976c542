import OxideOS.Net.Socket

/-!
# Socket calls

The system calls of `drivers/net/socket.rs` on the table of `Net.Socket`, and the
kernel's own user of the table, the probe of `net_probe.rs`. A descriptor is looked up
in the one table there is, whoever passes it.

Of the stack, `TcpCalls` and `UdpCalls` list what the calls use of its sockets, and
`SocketSet` what they use of the set it keeps them in.
-/

set_option autoImplicit false

namespace OxideOS.Net

open Lib Function

def afInet : Nat := 2

structure Endpoint where
  addr : List UInt8
  port : Nat

def parseSockaddr (buf : List UInt8) : Option Endpoint :=
  match buf with
  | f₀ :: f₁ :: p₀ :: p₁ :: a₀ :: a₁ :: a₂ :: a₃ :: _ =>
    if f₀.toNat + 256 * f₁.toNat ≠ afInet then none
    else some ⟨[a₀, a₁, a₂, a₃], 256 * p₀.toNat + p₁.toNat⟩
  | _ => none

class TcpCalls (σ : Type) extends TcpSockets σ where
  new : σ
  listen : Nat → σ → Option σ
  isActive : σ → Bool
  connect : Endpoint → Nat → σ → Option σ
  canSend : σ → Bool
  sendSlice : List UInt8 → σ → Option (Nat × σ)

class UdpCalls (υ : Type) extends UdpSockets υ where
  new : υ
  bind : Endpoint → υ → Option υ
  sendSlice : List UInt8 → Endpoint → υ → Option υ
  recvSlice : υ → Nat → Option (List UInt8 × υ)

class SocketSet (η : Type) where
  /-- The handle of a new socket. -/
  add : η → Nat × η
  remove : Nat → η → η

/-- The table with what it keeps of listeners, and the set of sockets of the stack. -/
structure NetState (σ υ η : Type) extends Sockets σ υ where
  listenPort : Nat → Nat
  listening : Nat → Bool
  handles : η

namespace NetState

variable {σ υ η : Type} [TcpCalls σ] [UdpCalls υ] [SocketSet η]

/-! ## The set of sockets -/

def setTcp (n : NetState σ υ η) (h : Nat) (s : σ) : NetState σ υ η :=
  { n with tcp := update n.tcp h s }

def setUdp (n : NetState σ υ η) (h : Nat) (u : υ) : NetState σ υ η :=
  { n with udp := update n.udp h u }

def tcpSocketNew (n : NetState σ υ η) : Option (Nat × NetState σ υ η) :=
  if !n.started then none
  else
    let (h, handles) := SocketSet.add n.handles
    some (h, { n.setTcp h TcpCalls.new with handles := handles })

def udpSocketNew (n : NetState σ υ η) : Option (Nat × NetState σ υ η) :=
  if !n.started then none
  else
    let (h, handles) := SocketSet.add n.handles
    some (h, { n.setUdp h UdpCalls.new with handles := handles })

def socketClose (n : NetState σ υ η) (h : Nat) : NetState σ υ η :=
  if n.started then { n with handles := SocketSet.remove h n.handles } else n

/-! ## The calls -/

def allocSlot (n : NetState σ υ η) : Option Nat := firstBelow maxSockets fun i => (n.table i).isNone

def slotOf (sfd : Int) : Nat := (sfd - socketFdBase).toNat

def putEntry (n : NetState σ υ η) (slot : Nat) (e : SocketEntry) : NetState σ υ η :=
  { n with
    table := update n.table slot (some e)
    listenPort := update n.listenPort slot 0
    listening := update n.listening slot false }

/-- The call on the entry of a descriptor. -/
def onEntry (n : NetState σ υ η) (sfd : Int) (act : Nat → SocketEntry → Int × NetState σ υ η) :
    Int × NetState σ υ η :=
  match n.slotFromFd sfd with
  | none => (-9, n)
  | some e => act (slotOf sfd) e

def sysSocket (domain sockType : Nat) (n : NetState σ υ η) : Int × NetState σ υ η :=
  if domain ≠ afInet then (-22, n) else
  match n.allocSlot with
  | none => (-24, n)
  | some slot =>
    if sockType = sockStream then
      match n.tcpSocketNew with
      | none => (-12, n)
      | some (h, n) => ((slot + socketFdBase : Nat), n.putEntry slot ⟨h, sockType⟩)
    else if sockType = sockDgram then
      match n.udpSocketNew with
      | none => (-12, n)
      | some (h, n) => ((slot + socketFdBase : Nat), n.putEntry slot ⟨h, sockType⟩)
    else (-22, n)

def sysBind (sfd : Int) (addr : List UInt8) (n : NetState σ υ η) : Int × NetState σ υ η :=
  n.onEntry sfd fun slot e =>
    match parseSockaddr addr with
    | none => (-22, n)
    | some endpoint =>
      if e.sockType = sockStream then
        (0, { n with listenPort := update n.listenPort slot endpoint.port })
      else if e.sockType = sockDgram then
        if !n.started then (-100, n) else
        match UdpCalls.bind endpoint (n.udp e.handle) with
        | some u => (0, n.setUdp e.handle u)
        | none => (-98, n)
      else (-22, n)

def sysListen (sfd : Int) (n : NetState σ υ η) : Int × NetState σ υ η :=
  n.onEntry sfd fun slot e =>
    if e.sockType ≠ sockStream then (-38, n) else
    if n.listenPort slot = 0 then (-22, n) else
    if !n.started then (-100, n) else
    match TcpCalls.listen (n.listenPort slot) (n.tcp e.handle) with
    | some s => (0, { n.setTcp e.handle s with listening := update n.listening slot true })
    | none => (-98, n)

/-- The new entry takes the connection, and the listener gets a new socket. -/
def sysAccept (sfd : Int) (n : NetState σ υ η) : Int × NetState σ υ η :=
  n.onEntry sfd fun slot e =>
    if e.sockType ≠ sockStream ∨ n.listening slot = false then (-22, n) else
    if !n.started then (-100, n) else
    if !TcpCalls.isActive (n.tcp e.handle) then (-11, n) else
    match n.allocSlot with
    | none => (-24, n)
    | some newSlot =>
      match n.tcpSocketNew with
      | none => (-12, n)
      | some (h, n) =>
        let armed := (TcpCalls.listen (n.listenPort slot) (n.tcp h)).getD (n.tcp h)
        let n := { n.setTcp h armed with
          table := update n.table slot (some { e with handle := h }) }
        ((newSlot + socketFdBase : Nat), n.putEntry newSlot ⟨e.handle, sockStream⟩)

def sysSendto (sfd : Int) (bytes addr : List UInt8) (n : NetState σ υ η) : Int × NetState σ υ η :=
  n.onEntry sfd fun _ e =>
    if e.sockType ≠ sockDgram then (-38, n) else
    match parseSockaddr addr with
    | none => (-22, n)
    | some endpoint =>
      if !n.started then (-100, n) else
      match UdpCalls.sendSlice bytes endpoint (n.udp e.handle) with
      | some u => (bytes.length, n.setUdp e.handle u)
      | none => (-11, n)

def sysRecvfrom (sfd : Int) (len : Nat) (n : NetState σ υ η) : Int × NetState σ υ η :=
  n.onEntry sfd fun _ e =>
    if e.sockType ≠ sockDgram then (-38, n) else
    if !n.started then (-100, n) else
    if !UdpSockets.canRecv (n.udp e.handle) then (-11, n) else
    match UdpCalls.recvSlice (n.udp e.handle) len with
    | some (bytes, u) => (bytes.length, n.setUdp e.handle u)
    | none => (-5, n)

def sysConnect (sfd : Int) (addr : List UInt8) (n : NetState σ υ η) : Int × NetState σ υ η :=
  n.onEntry sfd fun slot e =>
    if e.sockType ≠ sockStream then (-38, n) else
    match parseSockaddr addr with
    | none => (-22, n)
    | some endpoint =>
      if !n.started then (-100, n) else
      match TcpCalls.connect endpoint (49152 + slot) (n.tcp e.handle) with
      | some s => (0, n.setTcp e.handle s)
      | none => (-111, n)

def sysSend (sfd : Int) (bytes : List UInt8) (n : NetState σ υ η) : Int × NetState σ υ η :=
  n.onEntry sfd fun _ e =>
    if e.sockType ≠ sockStream then (-38, n) else
    if !n.started then (-100, n) else
    if !TcpCalls.canSend (n.tcp e.handle) then (-11, n) else
    match TcpCalls.sendSlice bytes (n.tcp e.handle) with
    | some (sent, s) => (sent, n.setTcp e.handle s)
    | none => (-32, n)

def sysRecv (sfd : Int) (len : Nat) (n : NetState σ υ η) : Int × NetState σ υ η :=
  let (answer, _, sockets) := n.toSockets.sysRecv sfd len
  (answer, { n with toSockets := sockets })

def sysCloseSocket (sfd : Int) (n : NetState σ υ η) : Int × NetState σ υ η :=
  n.onEntry sfd fun slot e =>
    (0, { n.socketClose e.handle with table := update n.table slot none })

def tcpIsConnected (sfd : Int) (n : NetState σ υ η) : Bool :=
  match n.slotFromFd sfd with
  | none => false
  | some e => e.sockType == sockStream && n.started && TcpCalls.canSend (n.tcp e.handle)

inductive Call where
  | socket (domain sockType : Nat)
  | bind (sfd : Int) (addr : List UInt8)
  | listen (sfd : Int)
  | accept (sfd : Int)
  | connect (sfd : Int) (addr : List UInt8)
  | send (sfd : Int) (bytes : List UInt8)
  | recv (sfd : Int) (len : Nat)
  | sendto (sfd : Int) (bytes addr : List UInt8)
  | recvfrom (sfd : Int) (len : Nat)
  | closeSocket (sfd : Int)

def call (n : NetState σ υ η) : Call → Int × NetState σ υ η
  | .socket domain sockType => n.sysSocket domain sockType
  | .bind sfd addr => n.sysBind sfd addr
  | .listen sfd => n.sysListen sfd
  | .accept sfd => n.sysAccept sfd
  | .connect sfd addr => n.sysConnect sfd addr
  | .send sfd bytes => n.sysSend sfd bytes
  | .recv sfd len => n.sysRecv sfd len
  | .sendto sfd bytes addr => n.sysSendto sfd bytes addr
  | .recvfrom sfd len => n.sysRecvfrom sfd len
  | .closeSocket sfd => n.sysCloseSocket sfd

end NetState
end OxideOS.Net
