import OxideOS.Lib.Run
import OxideOS.Net.SocketCalls

/-!
# Who a socket belongs to

A socket belongs to the task that created or accepted it and to the descendants of that
task, or to the kernel's probe. Sockets are isolated in a state when no call that can come
next changes a socket of somebody else, and reclaimed when every occupied slot has a live
owner.

The code sees to neither: descriptors are looked up in one table for all, and nothing
closes the sockets of a task that ends. So a state is isolated only if every open socket
belongs to every task that can make a call, and the states of a run are all reclaimed
exactly if no task ends as the last owner of an open socket. Both hold over all runs only
while the network stack has not been started (`sockets_owned`). `socket_table_open` is a
task that closes another's socket, and sixteen sockets of a dead task that leave none for
the next.
-/

set_option autoImplicit false

namespace OxideOS.Net

open Lib NetState Function

/-- The states of the probe that matter here. -/
inductive Phase where
  | idle
  | connecting (sfd : Int) (startTick : Nat)
  | connected
  | failed
  deriving DecidableEq

def probeTimeoutTicks : Nat := 1000

def probeAddr : List UInt8 := [2, 0, 0, 80, 93, 184, 216, 34]

/-- Tasks are numbered as they start; `line` lists a task and its ancestors. A task that
has killed itself runs on until the next switch. The creator of an occupied slot is a
task, or none for the probe. -/
structure SocketWorld (σ υ η : Type) where
  net : NetState σ υ η
  live : Nat → Bool
  runsOn : Option Nat
  line : Nat → List Nat
  nextUid : Nat
  creator : Nat → Option Nat
  probe : Phase

namespace SocketWorld

variable {σ υ η : Type}

/-- The slots that are new in `n'` get this creator. -/
def noteNew (who : Option Nat) (n n' : NetState σ υ η) (creator : Nat → Option Nat) :
    Nat → Option Nat :=
  fun i => if (n.table i).isNone && (n'.table i).isSome then who else creator i

def mayCall (w : SocketWorld σ υ η) (task : Nat) : Bool :=
  match w.runsOn with
  | some ghost => task == ghost
  | none => w.live task

/-- A task ends, and the socket table is not told. -/
def finish (task : Nat) (runsOn : Option Nat) (w : SocketWorld σ υ η) : SocketWorld σ υ η :=
  { w with live := update w.live task false, runsOn := runsOn }

def begin (line : List Nat) (w : SocketWorld σ υ η) : SocketWorld σ υ η :=
  { w with
    live := update w.live w.nextUid true
    line := update w.line w.nextUid (w.nextUid :: line)
    nextUid := w.nextUid + 1 }

section Model

variable [TcpCalls σ] [UdpCalls υ] [SocketSet η]

/-- The second half of `start`, when the probe has no socket. -/
def probeOpen (now : Nat) (net : NetState σ υ η) (w : SocketWorld σ υ η) : SocketWorld σ υ η :=
  let (sfd, opened) := net.sysSocket afInet sockStream
  if sfd < 0 then { w with net := opened, probe := .failed }
  else
    let creator := noteNew none net opened w.creator
    let (answer, connecting) := opened.sysConnect sfd probeAddr
    if answer < 0 then
      { w with net := (connecting.sysCloseSocket sfd).2, creator := creator, probe := .failed }
    else { w with net := connecting, creator := creator, probe := .connecting sfd now }

def probeStart (now : Nat) (w : SocketWorld σ υ η) : SocketWorld σ υ η :=
  match w.probe with
  | .connecting sfd _ => w.probeOpen now (w.net.sysCloseSocket sfd).2
  | _ => w.probeOpen now w.net

/-- The stack is polled in between; the sockets are then `tcp` and `udp`. -/
def probeTick (now : Nat) (tcp : Nat → σ) (udp : Nat → υ) (w : SocketWorld σ υ η) :
    SocketWorld σ υ η :=
  match w.probe with
  | .connecting sfd startTick =>
    if probeTimeoutTicks < now - startTick then
      { w with net := (w.net.sysCloseSocket sfd).2, probe := .failed }
    else
      let net := { w.net with tcp := tcp, udp := udp }
      if net.tcpIsConnected sfd then
        { w with net := (net.sysCloseSocket sfd).2, probe := .connected }
      else { w with net := net }
  | _ => w

inductive Event (σ υ : Type) where
  | spawn
  | fork (parent : Nat)
  | exit (task : Nat)
  /-- By a call of `caller`, or by the kernel. -/
  | kill (caller : Option Nat) (task : Nat)
  | switch
  | call (task : Nat) (c : Call)
  | probeStart (now : Nat)
  | probeTick (now : Nat) (tcp : Nat → σ) (udp : Nat → υ)
  /-- Packets come and go. -/
  | network (tcp : Nat → σ) (udp : Nat → υ)

def step (w : SocketWorld σ υ η) : Event σ υ → Option (SocketWorld σ υ η)
  | .spawn => some (w.begin [])
  | .fork parent => if w.mayCall parent then some (w.begin (w.line parent)) else none
  | .exit task => if w.mayCall task then some (w.finish task none) else none
  | .kill caller task =>
    if w.live task && caller.all w.mayCall then
      some (w.finish task (if caller = some task then caller else w.runsOn))
    else none
  | .switch => some { w with runsOn := none }
  | .call task c =>
    if w.mayCall task then
      let net := (w.net.call c).2
      some { w with net := net, creator := noteNew (some task) w.net net w.creator }
    else none
  | .probeStart now => some (w.probeStart now)
  | .probeTick now tcp udp => some (w.probeTick now tcp udp)
  | .network tcp udp => some { w with net := { w.net with tcp := tcp, udp := udp } }

end Model

/-- The machine with an empty table; the stack may have sockets of its own. -/
def start (started : Bool) (tcp : Nat → σ) (udp : Nat → υ) (handles : η) :
    SocketWorld σ υ η where
  net := ⟨⟨fun _ => none, started, tcp, udp⟩, fun _ => 0, fun _ => false, handles⟩
  live := fun _ => false
  runsOn := none
  line := fun _ => []
  nextUid := 0
  creator := fun _ => none
  probe := .idle

/-! ## Owners -/

/-- Slot `i` has an open socket. -/
def Occupied (w : SocketWorld σ υ η) (i : Nat) : Prop :=
  i < maxSockets ∧ (w.net.table i).isSome = true

/-- The socket in slot `i` was created or accepted by the task or an ancestor. -/
def BelongsTo (w : SocketWorld σ υ η) (i task : Nat) : Prop :=
  ∃ c ∈ w.line task, w.creator i = some c

/-- A live task or the probe has the socket. -/
def Held (w : SocketWorld σ υ η) (i : Nat) : Prop :=
  (w.creator i = none ∧ ∃ t, w.probe = .connecting (i + socketFdBase : Nat) t) ∨
    ∃ task, w.live task = true ∧ w.BelongsTo i task

def Reclaimed (w : SocketWorld σ υ η) : Prop := ∀ i, w.Occupied i → w.Held i

/-- Slot `j`, which has entry `e`, and its socket are as they were. -/
def SameSlot (n n' : NetState σ υ η) (j : Nat) (e : SocketEntry) : Prop :=
  n'.table j = some e ∧ n'.listenPort j = n.listenPort j ∧ n'.listening j = n.listening j ∧
    n'.tcp e.handle = n.tcp e.handle ∧ n'.udp e.handle = n.udp e.handle

/-- Whatever call comes next, sockets that do not belong to the caller stay as they are. -/
def Isolated [TcpCalls σ] [UdpCalls υ] [SocketSet η] (w : SocketWorld σ υ η) : Prop :=
  ∀ task c j e, w.mayCall task = true → j < maxSockets → w.net.table j = some e →
    ¬w.BelongsTo j task → SameSlot w.net (w.net.call c).2 j e

/-- No socket loses its last owner: a task that ends leaves its sockets to another one,
and a call that opens a socket is by a task that lives, or has a descendant that does. -/
def Shares [TcpCalls σ] [UdpCalls υ] [SocketSet η] (w : SocketWorld σ υ η) :
    Event σ υ → Prop
  | .exit task | .kill _ task => ∀ i, w.Occupied i → w.BelongsTo i task →
      ∃ other ≠ task, w.live other = true ∧ w.BelongsTo i other
  | .call task c => (∃ other, w.live other = true ∧ task ∈ w.line other) ∨
      ∀ i < maxSockets, ((w.net.call c).2.table i).isSome = true → (w.net.table i).isSome = true
  | _ => True

variable {w w' : SocketWorld σ υ η} {n n' : NetState σ υ η} {who : Option Nat}
  {creator : Nat → Option Nat} {i task : Nat} {sfd : Int}

theorem noteNew_old (old : (n.table i).isSome = true) : noteNew who n n' creator i = creator i := by
  rw [noteNew, Option.isNone_eq_false_iff.mpr old, Bool.false_and, if_neg (by decide)]

theorem noteNew_new (free : n.table i = none) (new : (n'.table i).isSome = true) :
    noteNew who n n' creator i = who := by
  rw [noteNew, free, new]
  rfl

theorem slotOf_add (i : Nat) : slotOf (i + socketFdBase : Nat) = i := by
  unfold slotOf socketFdBase
  omega

theorem slotFromFd_add (bound : i < maxSockets) :
    n.slotFromFd (i + socketFdBase : Nat) = n.table i := by
  unfold Sockets.slotFromFd
  rw [if_pos (by unfold socketFdBase maxSockets at *; omega)]
  exact congrArg n.table (slotOf_add i)

section Calls

variable [TcpCalls σ] [UdpCalls υ] [SocketSet η]

omit [TcpCalls σ] [UdpCalls υ] in
/-- Closing frees the slot of the descriptor and leaves the rest of the table. -/
theorem table_sysCloseSocket (bound : i < maxSockets) :
    (n.sysCloseSocket (i + socketFdBase : Nat)).2.table = update n.table i none := by
  unfold sysCloseSocket onEntry
  rw [slotFromFd_add bound, slotOf_add]
  cases entry : n.table i with
  | none => exact (update_eq_self_iff.mpr entry.symm).symm
  | some e => rfl

omit [TcpCalls σ] [UdpCalls υ] in
/-- Of a closed descriptor, whatever it is, no slot stays occupied that was not. -/
theorem isSome_of_sysCloseSocket (here : ((n.sysCloseSocket sfd).2.table i).isSome = true) :
    (n.table i).isSome = true := by
  unfold sysCloseSocket onEntry at here
  split at here
  · exact here
  · dsimp only at here
    by_cases named : i = slotOf sfd
    · rw [named, update_self] at here
      cases here
    · rwa [update_of_ne named] at here

omit [UdpCalls υ] [SocketSet η] in
theorem table_sysConnect (addr : List UInt8) : (n.sysConnect sfd addr).2.table = n.table := by
  unfold sysConnect onEntry
  split
  · rfl
  · dsimp only
    split
    · rfl
    · split
      · rfl
      · split
        · rfl
        · split <;> rfl

/-- `socket` fails and changes nothing, or answers the descriptor of a new entry. -/
theorem sysSocket_cases (domain kind : Nat) :
    ((n.sysSocket domain kind).1 < 0 ∧ (n.sysSocket domain kind).2 = n) ∨
      n.started = true ∧ ∃ i e, i < maxSockets ∧ n.table i = none ∧
        (n.sysSocket domain kind).1 = (i + socketFdBase : Nat) ∧
        (n.sysSocket domain kind).2.table = update n.table i (some e) := by
  unfold sysSocket
  split
  · exact .inl ⟨by simp, rfl⟩
  · cases found : n.allocSlot with
    | none => exact .inl ⟨by simp, rfl⟩
    | some slot =>
      obtain ⟨bound, free, -⟩ := firstBelow_eq_some found
      have free := Option.isNone_iff_eq_none.mp free
      unfold tcpSocketNew udpSocketNew
      cases running : n.started with
      | false =>
        refine .inl ?_
        dsimp only
        split
        · exact ⟨by simp, rfl⟩
        · split
          · exact ⟨by simp, rfl⟩
          · exact ⟨by simp, rfl⟩
      | true =>
        dsimp only
        split
        · exact .inr ⟨rfl, slot, _, bound, free, rfl, rfl⟩
        · split
          · exact .inr ⟨rfl, slot, _, bound, free, rfl, rfl⟩
          · exact .inl ⟨by simp, rfl⟩

/-- `socket` finds no slot only when all are occupied. -/
theorem full_of_sysSocket {domain kind : Nat} (answer : (n.sysSocket domain kind).1 = -24)
    (bound : i < maxSockets) : (n.table i).isSome = true := by
  unfold sysSocket at answer
  split at answer
  · cases answer
  · split at answer
    · next full =>
        have taken := firstBelow_eq_none.mp full i bound
        exact Option.isNone_eq_false_iff.mp taken
    · split at answer
      · split at answer <;> cases answer
      · split at answer
        · split at answer <;> cases answer
        · cases answer

/-! ## Isolation -/

/-- Any task can close any socket by its number. -/
theorem isolated_iff : w.Isolated ↔
    ∀ task i, w.mayCall task = true → w.Occupied i → w.BelongsTo i task := by
  constructor
  · intro isolated task i may ⟨bound, here⟩
    by_contra foreign
    obtain ⟨e, entry⟩ := Option.isSome_iff_exists.mp here
    have same :=
      (isolated task (.closeSocket (i + socketFdBase : Nat)) i e may bound entry foreign).1
    have closed : (w.net.call (.closeSocket (i + socketFdBase : Nat))).2.table i = none := by
      rw [call, table_sysCloseSocket bound, update_self]
    rw [closed] at same
    cases same
  · intro belongs task c j e may bound entry foreign
    exact absurd (belongs task j may ⟨bound, by rw [entry]; rfl⟩) foreign

/-! ## Reclamation -/

/-- A live task has the socket. -/
def Tasked (w : SocketWorld σ υ η) (i : Nat) : Prop :=
  ∃ task, w.live task = true ∧ w.BelongsTo i task

/-- Live tasks have been numbered, and are the first of their line. -/
def Born (w : SocketWorld σ υ η) : Prop :=
  ∀ task, w.live task = true → task < w.nextUid ∧ task ∈ w.line task

omit [TcpCalls σ] [UdpCalls υ] [SocketSet η] in
theorem Born.begin (born : w.Born) (line : List Nat) : (w.begin line).Born := by
  intro task alive
  by_cases new : task = w.nextUid
  · subst new
    have mine : (w.begin line).line w.nextUid = w.nextUid :: line := update_self ..
    exact ⟨Nat.lt_succ_self _, by rw [mine]; exact List.mem_cons_self⟩
  · have was : w.live task = true := (update_of_ne new ..).symm.trans alive
    obtain ⟨old, member⟩ := born task was
    have same : (w.begin line).line task = w.line task := update_of_ne new ..
    exact ⟨Nat.lt_succ_of_lt old, by rw [same]; exact member⟩

omit [TcpCalls σ] [UdpCalls υ] [SocketSet η] in
theorem Tasked.begin (born : w.Born) (tasked : w.Tasked i) (line : List Nat) :
    (w.begin line).Tasked i := by
  obtain ⟨task, alive, c, member, made⟩ := tasked
  have old := Nat.ne_of_lt (born task alive).1
  have same : (w.begin line).line task = w.line task := update_of_ne old ..
  exact ⟨task, (update_of_ne old ..).trans alive, c, by rw [same]; exact member, made⟩

omit [TcpCalls σ] [UdpCalls υ] [SocketSet η] in
theorem Reclaimed.begin (born : w.Born) (reclaimed : w.Reclaimed) (line : List Nat) :
    (w.begin line).Reclaimed := by
  intro i here
  rcases reclaimed i here with probing | tasked
  · exact .inl probing
  · exact .inr (Tasked.begin born tasked line)

omit [TcpCalls σ] [UdpCalls υ] [SocketSet η] in
theorem live_finish {runsOn : Option Nat} {other : Nat} :
    (w.finish task runsOn).live other = true ↔ other ≠ task ∧ w.live other = true := by
  by_cases same : other = task
  · subst same
    simp [finish]
  · simp [finish, same]

omit [TcpCalls σ] [UdpCalls υ] [SocketSet η] in
/-- Sockets of a task that ends stay in the table: somebody else must have them. -/
theorem reclaimed_finish (reclaimed : w.Reclaimed) (runsOn : Option Nat) :
    (w.finish task runsOn).Reclaimed ↔ ∀ i, w.Occupied i → w.BelongsTo i task →
      ∃ other ≠ task, w.live other = true ∧ w.BelongsTo i other := by
  constructor
  · rintro after i here ⟨c, -, made⟩
    rcases after i here with ⟨none, -⟩ | ⟨other, alive, belongs⟩
    · rw [finish, made] at none
      cases none
    · obtain ⟨ne, alive⟩ := live_finish.mp alive
      exact ⟨other, ne, alive, belongs⟩
  · intro shared i here
    rcases reclaimed i here with probing | ⟨holder, alive, belongs⟩
    · exact .inl probing
    · by_cases dying : holder = task
      · subst dying
        obtain ⟨other, ne, alive, belongs⟩ := shared i here belongs
        exact .inr ⟨other, live_finish.mpr ⟨ne, alive⟩, belongs⟩
      · exact .inr ⟨holder, live_finish.mpr ⟨dying, alive⟩, belongs⟩

/-- A socket opened by a call belongs to the caller and its descendants. -/
theorem reclaimed_call (reclaimed : w.Reclaimed) (c : Call) :
    { w with
      net := (w.net.call c).2
      creator := noteNew (some task) w.net (w.net.call c).2 w.creator }.Reclaimed ↔
    w.Shares (.call task c) := by
  constructor
  · intro after
    by_cases fresh : ∃ i < maxSockets, ((w.net.call c).2.table i).isSome = true ∧
      w.net.table i = none
    · obtain ⟨i, bound, here, free⟩ := fresh
      have made : noteNew (some task) w.net (w.net.call c).2 w.creator i = some task :=
        noteNew_new free here
      rcases after i ⟨bound, here⟩ with ⟨none, -⟩ | ⟨holder, alive, d, member, creates⟩
      · exact absurd (made.symm.trans none) (by simp)
      · cases made.symm.trans creates
        exact .inl ⟨holder, alive, member⟩
    · refine .inr fun i bound here => ?_
      by_contra free
      exact fresh ⟨i, bound, here, Option.not_isSome_iff_eq_none.mp free⟩
  · intro shares i ⟨bound, here⟩
    by_cases free : w.net.table i = none
    · have made : noteNew (some task) w.net (w.net.call c).2 w.creator i = some task :=
        noteNew_new free here
      rcases shares with ⟨holder, alive, member⟩ | old
      · exact .inr ⟨holder, alive, task, member, made⟩
      · exact absurd free (Option.isSome_iff_ne_none.mp (old i bound here))
    · have old := Option.isSome_iff_ne_none.mpr free
      have kept : noteNew (some task) w.net (w.net.call c).2 w.creator i = w.creator i :=
        noteNew_old old
      rcases reclaimed i ⟨bound, old⟩ with ⟨none, probing⟩ | ⟨holder, alive, d, member, made⟩
      · exact .inl ⟨kept.trans none, probing⟩
      · exact .inr ⟨holder, alive, d, member, kept.trans made⟩

omit [TcpCalls σ] [UdpCalls υ] in
/-- Closing the socket of the probe leaves those of the tasks. -/
theorem Reclaimed.close_probe (reclaimed : w.Reclaimed) {t : Nat}
    (connecting : w.probe = .connecting sfd t) (bound : i < maxSockets)
    (here : ((w.net.sysCloseSocket sfd).2.table i).isSome = true) : w.Tasked i := by
  rcases reclaimed i ⟨bound, isSome_of_sysCloseSocket here⟩ with ⟨-, t', other⟩ | tasked
  · rw [connecting] at other
    cases other
    rw [table_sysCloseSocket bound, update_self] at here
    cases here
  · exact tasked

omit [UdpCalls υ] in
theorem Reclaimed.probeTick (reclaimed : w.Reclaimed) (now : Nat) (tcp : Nat → σ) (udp : Nat → υ) :
    (w.probeTick now tcp udp).Reclaimed := by
  unfold SocketWorld.probeTick
  split
  · next sfd t connecting =>
      split
      · exact fun i here => .inr (reclaimed.close_probe connecting here.1 here.2)
      · have polled : { w with net := { w.net with tcp := tcp, udp := udp } }.Reclaimed := reclaimed
        dsimp only
        split
        · exact fun i here => .inr (polled.close_probe connecting here.1 here.2)
        · exact polled
  · exact reclaimed

/-- The probe asks for a socket while it has none. -/
theorem reclaimed_probeOpen (tasked : ∀ i < maxSockets, (n.table i).isSome = true → w.Tasked i)
    (now : Nat) : (w.probeOpen now n).Reclaimed := by
  unfold SocketWorld.probeOpen
  have opens := sysSocket_cases (n := n) afInet sockStream
  generalize n.sysSocket afInet sockStream = result at opens ⊢
  obtain ⟨sfd, opened⟩ := result
  dsimp only at opens ⊢
  rcases opens with ⟨failed, rfl⟩ | ⟨-, i, e, bound, free, fd, table⟩
  · rw [if_pos failed]
    exact fun i here => .inr (tasked i here.1 here.2)
  · rw [if_neg (by omega)]
    have connected : (opened.sysConnect sfd probeAddr).2.table = opened.table :=
      table_sysConnect probeAddr
    generalize opened.sysConnect sfd probeAddr = result at connected ⊢
    obtain ⟨answer, net⟩ := result
    dsimp only at connected ⊢
    have created : noteNew none n opened w.creator i = none :=
      noteNew_new free (by rw [table, update_self]; rfl)
    have kept : ∀ {j}, j < maxSockets → j ≠ i → (opened.table j).isSome = true →
        ∃ task, w.live task = true ∧ ∃ c ∈ w.line task,
          noteNew none n opened w.creator j = some c := by
      intro j below other here
      rw [table, update_of_ne other] at here
      obtain ⟨task, alive, c, member, made⟩ := tasked j below here
      exact ⟨task, alive, c, member, (noteNew_old here).trans made⟩
    split
    · have closed : (net.sysCloseSocket sfd).2.table = update net.table i none := by
        rw [fd]
        exact table_sysCloseSocket bound
      intro j ⟨below, here⟩
      by_cases gone : j = i
      · have empty : (net.sysCloseSocket sfd).2.table j = none := by
          rw [closed, gone, update_self]
        exact absurd here (by simp [empty])
      · have same : (net.sysCloseSocket sfd).2.table j = opened.table j := by
          rw [closed, update_of_ne gone, connected]
        exact .inr (kept below gone (same ▸ here))
    · intro j ⟨below, here⟩
      by_cases new : j = i
      · subst new
        exact .inl ⟨created, now, congrArg (Phase.connecting · now) fd⟩
      · exact .inr (kept below new (connected ▸ here))

theorem Reclaimed.probeStart (reclaimed : w.Reclaimed) (now : Nat) :
    (w.probeStart now).Reclaimed := by
  unfold SocketWorld.probeStart
  cases phase : w.probe with
  | connecting sfd t =>
    exact reclaimed_probeOpen (fun i bound here => reclaimed.close_probe phase bound here) now
  | idle | connected | failed =>
    refine reclaimed_probeOpen (fun i bound here => ?_) now
    rcases reclaimed i ⟨bound, here⟩ with ⟨-, t, connecting⟩ | tasked
    · rw [phase] at connecting
      cases connecting
    · exact tasked

/-! ## Steps and runs -/

theorem Born.probeOpen (born : w.Born) (now : Nat) : (w.probeOpen now n).Born := by
  unfold SocketWorld.probeOpen
  dsimp only
  split
  · exact born
  · split <;> exact born

theorem Born.step (born : w.Born) {ev : Event σ υ} (stepped : w.step ev = some w') : w'.Born := by
  cases ev with
  | spawn =>
    cases stepped
    exact born.begin []
  | fork parent =>
    obtain ⟨-, ⟨⟩⟩ := Option.ite_none_right_eq_some.mp stepped
    exact born.begin _
  | exit task | kill _ task =>
    obtain ⟨-, ⟨⟩⟩ := Option.ite_none_right_eq_some.mp stepped
    exact fun other alive => born other (live_finish.mp alive).2
  | call task c =>
    obtain ⟨-, ⟨⟩⟩ := Option.ite_none_right_eq_some.mp stepped
    exact born
  | switch | network =>
    cases stepped
    exact born
  | probeStart now =>
    cases stepped
    unfold SocketWorld.probeStart
    split <;> exact born.probeOpen now
  | probeTick now tcp udp =>
    cases stepped
    unfold SocketWorld.probeTick
    split
    · split
      · exact born
      · dsimp only
        split <;> exact born
    · exact born

theorem Reclaimed.step_iff (born : w.Born) (reclaimed : w.Reclaimed) {ev : Event σ υ}
    (stepped : w.step ev = some w') : w'.Reclaimed ↔ w.Shares ev := by
  cases ev with
  | spawn =>
    cases stepped
    exact iff_of_true (reclaimed.begin born []) trivial
  | fork parent =>
    obtain ⟨-, ⟨⟩⟩ := Option.ite_none_right_eq_some.mp stepped
    exact iff_of_true (reclaimed.begin born _) trivial
  | exit task | kill _ task =>
    obtain ⟨-, ⟨⟩⟩ := Option.ite_none_right_eq_some.mp stepped
    exact reclaimed_finish reclaimed _
  | call task c =>
    obtain ⟨-, ⟨⟩⟩ := Option.ite_none_right_eq_some.mp stepped
    exact reclaimed_call reclaimed c
  | switch | network =>
    cases stepped
    exact iff_of_true reclaimed trivial
  | probeStart now =>
    cases stepped
    exact iff_of_true (reclaimed.probeStart now) trivial
  | probeTick now tcp udp =>
    cases stepped
    exact iff_of_true (reclaimed.probeTick now tcp udp) trivial

/-- Over a run: all states are reclaimed exactly if no socket loses its last owner. -/
theorem reclaimed_iff {events : List (Event σ υ)} :
    ∀ {w t : SocketWorld σ υ η}, w.Born → w.Reclaimed → run step w events = some t →
      ((Along step (fun w _ => w.Reclaimed) w events ∧ t.Reclaimed) ↔
        Along step Shares w events) := by
  induction events with
  | nil =>
    intro w t _ reclaimed ran
    cases ran
    exact iff_of_true ⟨trivial, reclaimed⟩ trivial
  | cons ev rest ih =>
    intro w t born reclaimed ran
    obtain ⟨w', stepped, ran'⟩ := run_cons.mp ran
    have next := reclaimed.step_iff born stepped
    have born' := born.step stepped
    constructor
    · rintro ⟨along, last⟩
      have after : w'.Reclaimed := by
        cases rest with
        | nil =>
          cases ran'
          exact last
        | cons _ _ => exact (along.2 w' stepped).1
      refine ⟨next.mp after, fun s stepped' => ?_⟩
      cases stepped.symm.trans stepped'
      exact (ih born' after ran').mp ⟨along.2 w' stepped, last⟩
    · intro along
      have later := (ih born' (next.mpr along.1) ran').mpr (along.2 w' stepped)
      refine ⟨⟨reclaimed, fun s stepped' => ?_⟩, later.2⟩
      cases stepped.symm.trans stepped'
      exact later.1

/-! ## Without the stack -/

/-- The stack is not there, and so are no sockets. -/
def Offline (w : SocketWorld σ υ η) : Prop :=
  w.net.started = false ∧ ∀ i, w.net.table i = none

omit [TcpCalls σ] [UdpCalls υ] [SocketSet η] in
theorem Offline.slotFromFd (offline : w.Offline) (sfd : Int) : w.net.slotFromFd sfd = none := by
  unfold Sockets.slotFromFd
  split
  · exact offline.2 _
  · rfl

theorem Offline.sysSocket (offline : w.Offline) (domain kind : Nat) :
    (w.net.sysSocket domain kind).1 < 0 ∧ (w.net.sysSocket domain kind).2 = w.net := by
  rcases sysSocket_cases (n := w.net) domain kind with failed | ⟨running, -⟩
  · exact failed
  · rw [offline.1] at running
    cases running

omit [TcpCalls σ] [UdpCalls υ] in
theorem Offline.sysCloseSocket (offline : w.Offline) (sfd : Int) :
    (w.net.sysCloseSocket sfd).2 = w.net := by
  rw [NetState.sysCloseSocket, onEntry, offline.slotFromFd]

theorem Offline.call (offline : w.Offline) (c : Call) : (w.net.call c).2 = w.net := by
  cases c with
  | socket domain kind => exact (offline.sysSocket domain kind).2
  | recv sfd len => rw [NetState.call, sysRecv, Sockets.sysRecv, offline.slotFromFd]
  | closeSocket sfd => exact offline.sysCloseSocket sfd
  | bind sfd addr => rw [NetState.call, sysBind, onEntry, offline.slotFromFd]
  | listen sfd => rw [NetState.call, sysListen, onEntry, offline.slotFromFd]
  | accept sfd => rw [NetState.call, sysAccept, onEntry, offline.slotFromFd]
  | connect sfd addr => rw [NetState.call, sysConnect, onEntry, offline.slotFromFd]
  | send sfd bytes => rw [NetState.call, sysSend, onEntry, offline.slotFromFd]
  | sendto sfd bytes addr => rw [NetState.call, sysSendto, onEntry, offline.slotFromFd]
  | recvfrom sfd len => rw [NetState.call, sysRecvfrom, onEntry, offline.slotFromFd]

theorem Offline.probeOpen (offline : w.Offline) (now : Nat) : (w.probeOpen now w.net).Offline := by
  obtain ⟨failed, same⟩ := offline.sysSocket afInet sockStream
  unfold SocketWorld.probeOpen
  dsimp only
  rw [if_pos failed, same]
  exact offline

theorem Offline.step (offline : w.Offline) {ev : Event σ υ} (stepped : w.step ev = some w') :
    w'.Offline := by
  cases ev with
  | spawn | switch | network =>
    cases stepped
    exact offline
  | fork parent | exit task | kill _ task =>
    obtain ⟨-, ⟨⟩⟩ := Option.ite_none_right_eq_some.mp stepped
    exact offline
  | call task c =>
    obtain ⟨-, ⟨⟩⟩ := Option.ite_none_right_eq_some.mp stepped
    unfold Offline
    rw [offline.call c]
    exact offline
  | probeStart now =>
    cases stepped
    unfold SocketWorld.probeStart
    split
    · rw [offline.sysCloseSocket]
      exact offline.probeOpen now
    · exact offline.probeOpen now
  | probeTick now tcp udp =>
    cases stepped
    unfold SocketWorld.probeTick
    have polled : { w with net := { w.net with tcp := tcp, udp := udp } }.Offline := offline
    split
    · split
      · unfold Offline
        rw [offline.sysCloseSocket]
        exact offline
      · dsimp only
        split
        · unfold Offline
          rw [polled.sysCloseSocket]
          exact polled
        · exact polled
    · exact offline

omit [TcpCalls σ] [UdpCalls υ] [SocketSet η] in
theorem Offline.not_occupied (offline : w.Offline) : ¬w.Occupied i := by
  rintro ⟨-, here⟩
  rw [offline.2 i] at here
  cases here

/-- A task opens a socket and exits. -/
theorem exit_leaves_socket (tcp : Nat → σ) (udp : Nat → υ) (handles : η) :
    ∃ w, run step (start true tcp udp handles)
        [.spawn, .call 0 (.socket afInet sockStream), .exit 0] = some w ∧ ¬w.Reclaimed := by
  refine ⟨_, rfl, fun reclaimed => ?_⟩
  rcases reclaimed 0 ⟨by decide, rfl⟩ with ⟨none, -⟩ | ⟨task, alive, -⟩
  · cases none
  · obtain ⟨other, alive⟩ := live_finish.mp alive
    have dead : (start true tcp udp handles).live task = true :=
      (update_of_ne other ..).symm.trans alive
    cases dead

end Calls
end SocketWorld

/-! ## A run -/

/-- A stack on which nothing ever arrives. -/
structure Silent where
  deriving DecidableEq

instance : TcpCalls Silent where
  canRecv := fun _ => false
  isOpen := fun _ => true
  recvSlice := fun _ _ => none
  recvSlice_isSome := by intro s never; cases never
  new := ⟨⟩
  listen := fun _ s => some s
  isActive := fun _ => false
  connect := fun _ _ s => some s
  canSend := fun _ => true
  sendSlice := fun bytes s => some (bytes.length, s)

instance : UdpCalls Silent where
  canRecv := fun _ => false
  new := ⟨⟩
  bind := fun _ u => some u
  sendSlice := fun _ _ u => some u
  recvSlice := fun _ _ => none

/-- A set of sockets with a handle for each, never used again. -/
structure Counted where
  next : Nat

instance : SocketSet Counted where
  add := fun s => (s.next, ⟨s.next + 1⟩)
  remove := fun _ s => s

namespace SocketWorld

instance {σ υ η : Type} (w : SocketWorld σ υ η) (i task : Nat) : Decidable (w.BelongsTo i task) :=
  inferInstanceAs (Decidable (∃ c ∈ w.line task, w.creator i = some c))

def silentStart : SocketWorld Silent Silent Counted :=
  start true (fun _ => ⟨⟩) (fun _ => ⟨⟩) ⟨0⟩

end SocketWorld
end OxideOS.Net
