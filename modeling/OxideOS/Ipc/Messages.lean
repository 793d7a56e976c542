import OxideOS.Lib.Ring
import OxideOS.Lib.Run
import OxideOS.Lib.SlotMap
import Mathlib.Data.List.Forall2

/-!
# Message queues

A table of sixteen queues, each a ring of sixty-four message cells. Abstractly it
is a finite map from queue identifiers to queues of messages (`Holds`): creating a
queue inserts an empty one, sending appends, receiving takes the first, destroying
erases (`msgqCreate_spec`, `msgsnd_spec`, `msgrcv_spec`, `msgqDestroy_spec`).

`Mail` is the table with a record of what went through each existing queue: what
its senders sent and the messages its receivers obtained. In every run the two
agree, in order and without loss (`run_carried`), as far as a cell is overwritten
by a send: `msgsnd` copies only as many bytes as it was given, and `msgrcv` hands
out the whole cell. `received_same` is the condition under which nothing else
shows through, `stale_received` what a receiver can see otherwise.
-/

set_option autoImplicit false

namespace OxideOS.Ipc

open Lib Function

def maxQueues : Nat := 16
def maxMsgSize : Nat := 256
def msgQueueDepth : Nat := 64

structure Message where
  typeId : Nat
  size : Nat
  data : Fin maxMsgSize → UInt8

namespace Message

def empty : Message := ⟨0, 0, fun _ => 0⟩

/-- The cell after a send: the type, the length, and the data in front of what the
cell held before. -/
def fill (m : Message) (typeId : Nat) (data : List UInt8) : Message where
  typeId := typeId
  size := data.length
  data := fun i => if i < data.length then data.getD i 0 else m.data i

end Message

structure MessageQueue where
  id : Nat
  inUse : Bool
  messages : Nat → Message
  head : Nat
  tail : Nat

namespace MessageQueue

def new : MessageQueue := ⟨0, false, fun _ => .empty, 0, 0⟩

def isEmpty (q : MessageQueue) : Bool := q.head == q.tail

def isFull (q : MessageQueue) : Bool := (q.tail + 1) % msgQueueDepth == q.head

/-- The slot taken for a new queue. -/
def opened (q : MessageQueue) (id : Nat) : MessageQueue :=
  { q with inUse := true, id := id, head := 0, tail := 0 }

/-- The slot given up. -/
def closed (q : MessageQueue) : MessageQueue := { q with inUse := false, head := 0, tail := 0 }

/-- A message written in the cell at the tail. -/
def enqueue (q : MessageQueue) (typeId : Nat) (data : List UInt8) : MessageQueue :=
  { q with
    messages := update q.messages q.tail ((q.messages q.tail).fill typeId data)
    tail := (q.tail + 1) % msgQueueDepth }

/-- The cell at the head given up. -/
def dequeue (q : MessageQueue) : MessageQueue := { q with head := (q.head + 1) % msgQueueDepth }

end MessageQueue

/-! ## The calls -/

section Calls

variable (queues : Nat → MessageQueue)

/-- The slot of the queue with the given identifier. -/
def findQueue (id : Nat) : Option Nat :=
  firstBelow maxQueues fun i => (queues i).inUse && (queues i).id == id

def msgqCreate (id : Nat) : Int × (Nat → MessageQueue) :=
  match findQueue queues id with
  | some _ => (id, queues)
  | none =>
    match firstBelow maxQueues fun i => !(queues i).inUse with
    | some i =>
      (id, update queues i ((queues i).opened id))
    | none => (-4, queues)

def msgsnd (id typeId : Nat) (data : List UInt8) : Int × (Nat → MessageQueue) :=
  if maxMsgSize < data.length then (-22, queues) else
  match findQueue queues id with
  | some i =>
    let q := queues i
    if q.isFull then (-6, queues) else
    (0, update queues i (q.enqueue typeId data))
  | none => (-2, queues)

/-- The message is handed out as a whole. -/
def msgrcv (id : Nat) : Int × Option Message × (Nat → MessageQueue) :=
  match findQueue queues id with
  | some i =>
    let q := queues i
    if q.isEmpty then (-6, none, queues) else
    (0, some (q.messages q.head), update queues i q.dequeue)
  | none => (-2, none, queues)

def msgqDestroy (id : Nat) : Int × (Nat → MessageQueue) :=
  match findQueue queues id with
  | some i => (0, update queues i (queues i).closed)
  | none => (-2, queues)

/-- The cell the next message for a queue is stored in. -/
def nextCell (id : Nat) : Option Message :=
  (findQueue queues id).map fun i => (queues i).messages (queues i).tail

end Calls

/-! ## One queue -/

namespace MessageQueue

/-- The messages waiting in the ring, oldest first. -/
def queue (q : MessageQueue) : List Message := ringQueue msgQueueDepth q.messages q.head q.tail

/-- Both positions are cells of the ring. -/
structure InRing (q : MessageQueue) : Prop where
  head : q.head < msgQueueDepth
  tail : q.tail < msgQueueDepth

variable {q : MessageQueue}

theorem inRing_opened (q : MessageQueue) (id : Nat) : (q.opened id).InRing :=
  ⟨show 0 < msgQueueDepth by decide, show 0 < msgQueueDepth by decide⟩

theorem inRing_closed (q : MessageQueue) : q.closed.InRing :=
  ⟨show 0 < msgQueueDepth by decide, show 0 < msgQueueDepth by decide⟩

theorem InRing.enqueue (ring : q.InRing) (typeId : Nat) (data : List UInt8) :
    (q.enqueue typeId data).InRing :=
  ⟨ring.head, Nat.mod_lt _ (by decide)⟩

theorem InRing.dequeue (ring : q.InRing) : q.dequeue.InRing :=
  ⟨Nat.mod_lt _ (by decide), ring.tail⟩

@[simp] theorem opened_queue (q : MessageQueue) (id : Nat) : (q.opened id).queue = [] := by
  simp [queue, opened]

theorem InRing.enqueue_queue (ring : q.InRing) (room : ¬ q.isFull = true) (typeId : Nat)
    (data : List UInt8) :
    (q.enqueue typeId data).queue = q.queue ++ [(q.messages q.tail).fill typeId data] := by
  have space : (q.tail + 1) % msgQueueDepth ≠ q.head := by
    simpa only [isFull, beq_iff_eq] using room
  exact ringQueue_enqueue ring.head ring.tail space _

theorem InRing.dequeue_queue (ring : q.InRing) (filled : ¬ q.isEmpty = true) :
    q.queue = q.messages q.head :: q.dequeue.queue := by
  have apart : q.head ≠ q.tail := by simpa only [isEmpty, beq_iff_eq] using filled
  exact ringQueue_dequeue ring.head ring.tail apart

end MessageQueue

/-! ## Queues by identifier -/

/-- A slot as a table of named queues sees it. -/
def slotOf (queues : Nat → MessageQueue) (i : Nat) : Option (Nat × List Message) :=
  if (queues i).inUse then some ((queues i).id, (queues i).queue) else none

/-- The table holds exactly the queues of the map. -/
structure Holds (queues : Nat → MessageQueue) (m : Finmap fun _ : Nat => List Message) : Prop where
  rep : Represents maxQueues (slotOf queues) m
  ring : ∀ i, (queues i).InRing

theorem holds_new : Holds (fun _ => .new) (∅ : Finmap fun _ : Nat => List Message) where
  rep := represents_empty fun _ _ => rfl
  ring _ := ⟨by decide, by decide⟩

section Specs

variable {queues : Nat → MessageQueue} {m : Finmap fun _ : Nat => List Message} {id i : Nat}

theorem slotOf_used (used : (queues i).inUse = true) :
    slotOf queues i = some ((queues i).id, (queues i).queue) := if_pos used

theorem slotOf_update (q : MessageQueue) :
    slotOf (update queues i q) =
      update (slotOf queues) i (if q.inUse then some (q.id, q.queue) else none) := by
  funext j
  by_cases here : j = i
  · subst here
    simp only [slotOf, update_self]
  · simp only [slotOf, update_of_ne here]

theorem inRing_update (ring : ∀ i, (queues i).InRing) {q : MessageQueue} (inside : q.InRing)
    (j : Nat) : (update queues i q j).InRing := by
  by_cases here : j = i
  · subst here
    rw [update_self]
    exact inside
  · rw [update_of_ne here]
    exact ring j

section

variable (holds : Holds queues m)
include holds

/-- The slot that is found holds the queue of that name. -/
theorem Holds.found (found : findQueue queues id = some i) :
    i < maxQueues ∧ (queues i).inUse = true ∧ (queues i).id = id ∧
      m.lookup id = some (queues i).queue := by
  obtain ⟨inside, passes, -⟩ := firstBelow_eq_some found
  simp only [Bool.and_eq_true, beq_iff_eq] at passes
  have held : slotOf queues i = some (id, (queues i).queue) := by
    rw [slotOf_used passes.1, passes.2]
  exact ⟨inside, passes.1, passes.2, holds.rep.lookup inside held⟩

/-- If none is found there is none. -/
theorem Holds.missing (absent : findQueue queues id = none) : id ∉ m := by
  intro present
  obtain ⟨j, inside, l, held⟩ := holds.rep.mem_iff.mp present
  have fails := firstBelow_eq_none.mp absent j inside
  unfold slotOf at held
  split at held
  · next used =>
      cases held
      simp [used] at fails
  · cases held

/-- Putting a queue in the slot of its name, or in a free slot when the name is
new. -/
theorem Holds.store (inside : i < maxQueues) {q : MessageQueue}
    (used : q.inUse = true) (ring : q.InRing)
    (place : (∃ l, slotOf queues i = some (q.id, l)) ∨ (slotOf queues i = none ∧ q.id ∉ m)) :
    Holds (update queues i q) (m.insert q.id q.queue) where
  rep := by
    rw [slotOf_update, if_pos used]
    exact holds.rep.store inside place
  ring := inRing_update holds.ring ring

/-- A queue that exists is opened; a new one is empty. -/
theorem msgqCreate_spec (id : Nat) :
    ((msgqCreate queues id).2 = queues ∧ (id ∈ m ∨ (msgqCreate queues id).1 < 0)) ∨
    (id ∉ m ∧ Holds (msgqCreate queues id).2 (m.insert id [])) := by
  unfold msgqCreate
  cases found : findQueue queues id with
  | some i =>
    obtain ⟨-, -, -, present⟩ := holds.found found
    exact .inl ⟨rfl, .inl (Finmap.mem_of_lookup_eq_some present)⟩
  | none =>
    have absent := holds.missing found
    cases free : firstBelow maxQueues fun i => !(queues i).inUse with
    | none => exact .inl ⟨rfl, .inr (show (-4 : Int) < 0 by decide)⟩
    | some i =>
      obtain ⟨inside, unused, -⟩ := firstBelow_eq_some free
      have clear : slotOf queues i = none := if_neg (by simpa using unused)
      have stored := holds.store inside (q := (queues i).opened id) rfl
        (MessageQueue.inRing_opened _ _) (.inr ⟨clear, absent⟩)
      rw [MessageQueue.opened_queue] at stored
      exact .inr ⟨absent, stored⟩

/-- A message that is accepted is appended, as the cell it is written over makes
it. -/
theorem msgsnd_spec (id typeId : Nat) (data : List UInt8) :
    ((msgsnd queues id typeId data).1 < 0 ∧ (msgsnd queues id typeId data).2 = queues) ∨
    ((msgsnd queues id typeId data).1 = 0 ∧ data.length ≤ maxMsgSize ∧
      ∃ l cell, m.lookup id = some l ∧ nextCell queues id = some cell ∧
        Holds (msgsnd queues id typeId data).2 (m.insert id (l ++ [cell.fill typeId data]))) := by
  unfold msgsnd
  split
  · exact .inl ⟨show (-22 : Int) < 0 by decide, rfl⟩
  · next fits =>
      cases found : findQueue queues id with
      | none => exact .inl ⟨show (-2 : Int) < 0 by decide, rfl⟩
      | some i =>
        dsimp only
        split
        · exact .inl ⟨show (-6 : Int) < 0 by decide, rfl⟩
        · next room =>
            obtain ⟨inside, used, named, present⟩ := holds.found found
            refine .inr ⟨rfl, Nat.le_of_not_lt fits, _, (queues i).messages (queues i).tail,
              present, by rw [nextCell, found]; rfl, ?_⟩
            rw [← (holds.ring i).enqueue_queue room, ← named]
            exact holds.store inside used ((holds.ring i).enqueue typeId data)
              (.inl ⟨_, slotOf_used used⟩)

/-- A receiver takes the first message. -/
theorem msgrcv_spec (id : Nat) :
    ((msgrcv queues id).1 < 0 ∧ (msgrcv queues id).2.1 = none ∧ (msgrcv queues id).2.2 = queues) ∨
    ((msgrcv queues id).1 = 0 ∧ ∃ msg rest, (msgrcv queues id).2.1 = some msg ∧
      m.lookup id = some (msg :: rest) ∧ Holds (msgrcv queues id).2.2 (m.insert id rest)) := by
  unfold msgrcv
  cases found : findQueue queues id with
  | none => exact .inl ⟨show (-2 : Int) < 0 by decide, rfl, rfl⟩
  | some i =>
    dsimp only
    split
    · exact .inl ⟨show (-6 : Int) < 0 by decide, rfl, rfl⟩
    · next filled =>
        obtain ⟨inside, used, named, present⟩ := holds.found found
        rw [(holds.ring i).dequeue_queue filled] at present
        refine .inr ⟨rfl, _, _, rfl, present, ?_⟩
        rw [← named]
        exact holds.store inside used (holds.ring i).dequeue (.inl ⟨_, slotOf_used used⟩)

/-- A queue that is destroyed is gone with what it held. -/
theorem msgqDestroy_spec (id : Nat) :
    ((msgqDestroy queues id).1 < 0 ∧ (msgqDestroy queues id).2 = queues ∧ id ∉ m) ∨
    ((msgqDestroy queues id).1 = 0 ∧ Holds (msgqDestroy queues id).2 (m.erase id)) := by
  unfold msgqDestroy
  cases found : findQueue queues id with
  | none => exact .inl ⟨show (-2 : Int) < 0 by decide, rfl, holds.missing found⟩
  | some i =>
    obtain ⟨inside, used, named, present⟩ := holds.found found
    refine .inr ⟨rfl, ?_, fun j => ?_⟩
    · have held : slotOf queues i = some (id, (queues i).queue) := by
        rw [slotOf_used used, named]
      have emptied := holds.rep.clear inside held
      rw [slotOf_update]
      exact emptied
    · exact inRing_update holds.ring (MessageQueue.inRing_closed _) j

end

end Specs

/-! ## What goes through the queues -/

/-- A call of the message queues. -/
inductive MailOp where
  | create (id : Nat)
  | send (id typeId : Nat) (data : List UInt8)
  | receive (id : Nat)
  | destroy (id : Nat)

/-- The table of queues and, for each queue that exists, the types and data its
senders sent and the messages its receivers obtained, since it was created. -/
structure Mail where
  queues : Nat → MessageQueue
  sent : Nat → List (Nat × List UInt8)
  received : Nat → List Message

namespace Mail

def start : Mail := ⟨fun _ => .new, fun _ => [], fun _ => []⟩

/-- One call. A message has been sent when the result is zero. -/
def step (s : Mail) : MailOp → Mail
  | .create id => { s with queues := (msgqCreate s.queues id).2 }
  | .send id typeId data =>
    let (code, queues) := msgsnd s.queues id typeId data
    if code = 0 then
      { s with
        queues := queues
        sent := update s.sent id (s.sent id ++ [(typeId, data)]) }
    else { s with queues := queues }
  | .receive id =>
    match msgrcv s.queues id with
    | (_, some msg, queues) =>
      { s with
        queues := queues
        received := update s.received id (s.received id ++ [msg]) }
    | (_, none, queues) => { s with queues := queues }
  | .destroy id =>
    let (code, queues) := msgqDestroy s.queues id
    if code = 0 then
      ⟨queues, update s.sent id [], update s.received id []⟩
    else { s with queues := queues }

def next (s : Mail) (op : MailOp) : Option Mail := some (s.step op)

/-- What has been sent to each queue is, message by message, what was received
followed by what is queued; `R` relates what was sent to what is stored. -/
structure Carried (R : Nat × List UInt8 → Message → Prop) (q : Nat) (s : Mail)
    (m : Finmap fun _ : Nat => List Message) : Prop where
  holds : Holds s.queues m
  matched : List.Forall₂ R (s.sent q) (s.received q ++ (m.lookup q).getD [])

section Carried

variable {R : Nat × List UInt8 → Message → Prop} {q : Nat} {s : Mail}
  {m : Finmap fun _ : Nat => List Message}

theorem carried_start : Carried R q start ∅ :=
  ⟨holds_new, by simp [start]⟩

section

variable (carried : Carried R q s m)
include carried

/-- A call for another queue. -/
theorem Carried.other {s' : Mail}
    {m' : Finmap fun _ : Nat => List Message} (holds : Holds s'.queues m')
    (sent : s'.sent q = s.sent q) (received : s'.received q = s.received q)
    (same : (m'.lookup q).getD [] = (m.lookup q).getD []) : Carried R q s' m' := by
  refine ⟨holds, ?_⟩
  rw [sent, received, same]
  exact carried.matched

theorem carried_create (id : Nat) :
    ∃ m', Carried R q (s.step (.create id)) m' := by
  rcases msgqCreate_spec carried.holds id with ⟨same, -⟩ | ⟨absent, holds⟩
  · refine ⟨m, carried.other ?_ rfl rfl rfl⟩
    show Holds (msgqCreate s.queues id).2 m
    rw [same]
    exact carried.holds
  · refine ⟨m.insert id [], carried.other holds rfl rfl ?_⟩
    by_cases here : q = id
    · subst here
      rw [Finmap.lookup_insert, Finmap.lookup_eq_none.mpr absent]
      rfl
    · rw [Finmap.lookup_insert_of_ne m here]

theorem carried_send (id typeId : Nat) (data : List UInt8)
    (fits : ∀ cell, id = q → data.length ≤ maxMsgSize → nextCell s.queues q = some cell →
      R (typeId, data) (cell.fill typeId data)) :
    ∃ m', Carried R q (s.step (.send id typeId data)) m' := by
  rcases msgsnd_spec carried.holds id typeId data with
    ⟨refused, same⟩ | ⟨accepted, short, l, cell, present, found, holds⟩
  · have unsent : (msgsnd s.queues id typeId data).1 ≠ 0 := by omega
    refine ⟨m, ?_⟩
    simp only [step, if_neg unsent, same]
    exact carried
  · refine ⟨m.insert id (l ++ [cell.fill typeId data]), ?_⟩
    simp only [step, if_pos accepted]
    by_cases here : q = id
    · subst here
      refine ⟨holds, ?_⟩
      have matched := carried.matched
      rw [present, Option.getD_some] at matched
      simp only [update_self, Finmap.lookup_insert, Option.getD_some]
      rw [← List.append_assoc]
      exact List.rel_append matched (.cons (fits cell rfl short found) .nil)
    · exact carried.other holds (update_of_ne here _ _) rfl
        (by rw [Finmap.lookup_insert_of_ne m here])

theorem carried_receive (id : Nat) :
    ∃ m', Carried R q (s.step (.receive id)) m' := by
  rcases msgrcv_spec carried.holds id with
    ⟨-, nothing, same⟩ | ⟨-, msg, rest, taken, present, holds⟩
  · refine ⟨m, ?_⟩
    rcases received : msgrcv s.queues id with ⟨code, none | msg, queues⟩
    · rw [received] at same
      simp only [step, received]
      rw [show queues = s.queues from same]
      exact carried
    · rw [received] at nothing
      cases nothing
  · rcases received : msgrcv s.queues id with ⟨code, none | got, queues⟩
    · rw [received] at taken
      cases taken
    · rw [received] at taken holds
      cases taken
      refine ⟨m.insert id rest, ?_⟩
      simp only [step, received]
      by_cases here : q = id
      · subst here
        refine ⟨holds, ?_⟩
        have matched := carried.matched
        rw [present, Option.getD_some] at matched
        simp only [update_self, Finmap.lookup_insert, Option.getD_some]
        rw [List.append_assoc]
        exact matched
      · exact carried.other holds rfl (update_of_ne here _ _)
          (by rw [Finmap.lookup_insert_of_ne m here])

theorem carried_destroy (id : Nat) :
    ∃ m', Carried R q (s.step (.destroy id)) m' := by
  rcases msgqDestroy_spec carried.holds id with ⟨refused, same, -⟩ | ⟨done, holds⟩
  · have kept : (msgqDestroy s.queues id).1 ≠ 0 := by omega
    refine ⟨m, ?_⟩
    simp only [step, if_neg kept, same]
    exact carried
  · refine ⟨m.erase id, ?_⟩
    simp only [step, if_pos done]
    by_cases here : q = id
    · subst here
      refine ⟨holds, ?_⟩
      simp only [update_self, Finmap.lookup_erase]
      exact .nil
    · exact carried.other holds (update_of_ne here _ _) (update_of_ne here _ _)
        (by rw [Finmap.lookup_erase_ne here])

end

/-- What a send to `q` stores is related to what it was given. -/
def Stores (R : Nat × List UInt8 → Message → Prop) (q : Nat) (s : Mail) : MailOp → Prop
  | .send id typeId data => ∀ cell, id = q → data.length ≤ maxMsgSize →
      nextCell s.queues q = some cell → R (typeId, data) (cell.fill typeId data)
  | _ => True

/-- Every call keeps the account of a queue. -/
theorem carried_step (carried : Carried R q s m) {op : MailOp} (stores : Stores R q s op) :
    ∃ m', Carried R q (s.step op) m' := by
  cases op with
  | create id => exact carried_create carried id
  | send id typeId data => exact carried_send carried id typeId data stores
  | receive id => exact carried_receive carried id
  | destroy id => exact carried_destroy carried id

/-- So does every run. -/
theorem run_carried {ops : List MailOp} {t : Mail} (stores : Along next (Stores R q) start ops)
    (ran : run next start ops = some t) : ∃ m, Carried R q t m := by
  refine run_invariant (I := fun s => ∃ m, Carried R q s m) ?_ ⟨∅, carried_start⟩ stores ran
  intro s op s' carried stores stepped
  obtain ⟨m, carried⟩ := carried
  cases stepped
  exact carried_step carried stores

end Carried

end Mail

/-! ## In order and once -/

/-- What a message says: its type and as many bytes as its size counts. -/
def Message.content (m : Message) : Nat × List UInt8 := (m.typeId, (List.ofFn m.data).take m.size)

/-- A send puts its own type and data in the cell, whatever the cell held. -/
theorem Message.fill_content (cell : Message) (typeId : Nat) {data : List UInt8}
    (short : data.length ≤ maxMsgSize) : (cell.fill typeId data).content = (typeId, data) := by
  refine congrArg (typeId, ·) (List.ext_getElem ?_ fun i inside here => ?_)
  · show ((List.ofFn _).take data.length).length = data.length
    rw [List.length_take, List.length_ofFn, Nat.min_eq_left short]
  · simp [Message.fill, here]

/-- The messages waiting in a queue. -/
def queuedFor (queues : Nat → MessageQueue) (id : Nat) : List Message :=
  ((findQueue queues id).map fun i => (queues i).queue).getD []

theorem Holds.queuedFor {queues : Nat → MessageQueue} {m : Finmap fun _ : Nat => List Message}
    (holds : Holds queues m) (id : Nat) : Ipc.queuedFor queues id = (m.lookup id).getD [] := by
  unfold Ipc.queuedFor
  cases found : findQueue queues id with
  | none => rw [Finmap.lookup_eq_none.mpr (holds.missing found)]; rfl
  | some i =>
    obtain ⟨-, -, -, present⟩ := holds.found found
    rw [present]
    rfl

namespace Mail

/-- What was sent is what was received followed by what is queued. -/
def Ordered (q : Nat) (s : Mail) : Prop :=
  ∃ m, Carried (fun sent msg => sent = msg.content) q s m

theorem Ordered.sent_eq {q : Nat} {s : Mail} (ordered : Ordered q s) :
    s.sent q = (s.received q ++ queuedFor s.queues q).map Message.content := by
  obtain ⟨m, carried⟩ := ordered
  have matched := List.forall₂_map_right_iff.mpr carried.matched
  rw [List.forall₂_eq_eq_eq] at matched
  rw [carried.holds.queuedFor]
  exact matched

theorem ordered_start (q : Nat) : Ordered q start := ⟨∅, carried_start⟩

theorem Ordered.step {q : Nat} {s : Mail} (ordered : Ordered q s) (op : MailOp) :
    Ordered q (s.step op) := by
  obtain ⟨m, carried⟩ := ordered
  refine carried_step carried ?_
  cases op with
  | send id typeId data =>
    intro cell _ short _
    exact (cell.fill_content typeId short).symm
  | create id | receive id | destroy id => trivial

/-! ## Nothing else shows through -/

/-- The bytes of the cell behind a message for `q` are zero, as in a cell that has
never been used; a message of the full length has none behind it. -/
def Clear (q : Nat) (s : Mail) : MailOp → Prop
  | .send id _ data =>
    match nextCell s.queues q with
    | some cell => id = q → ∀ i : Fin maxMsgSize, data.length ≤ i → cell.data i = 0
    | none => True
  | _ => True

instance Clear.decidable (q : Nat) (s : Mail) : (op : MailOp) → Decidable (Clear q s op)
  | .send id _ data =>
    match found : nextCell s.queues q with
    | some cell =>
      decidable_of_iff (id = q → ∀ i : Fin maxMsgSize, data.length ≤ i → cell.data i = 0)
        (by simp only [Clear, found])
    | none => .isTrue (by simp only [Clear, found])
  | .create _ => .isTrue trivial
  | .receive _ => .isTrue trivial
  | .destroy _ => .isTrue trivial

/-- The message structure that holds what was sent and nothing else. -/
def plain (sent : Nat × List UInt8) : Message := Message.empty.fill sent.1 sent.2

/-- In a clear cell a send leaves the message and nothing else. -/
theorem fill_clear {cell : Message} {data : List UInt8}
    (clear : ∀ i : Fin maxMsgSize, data.length ≤ i → cell.data i = 0) (typeId : Nat) :
    plain (typeId, data) = cell.fill typeId data := by
  simp only [plain, Message.fill, Message.mk.injEq, true_and]
  funext i
  split
  · rfl
  · next behind => exact (clear i (Nat.le_of_not_lt behind)).symm

theorem stores_of_clear {q : Nat} (s : Mail) (op : MailOp) (clear : Clear q s op) :
    Stores (fun sent msg => plain sent = msg) q s op := by
  cases op with
  | send id typeId data =>
    intro cell here _ found
    simp only [Clear, found] at clear
    exact fill_clear (clear here) typeId
  | create id | receive id | destroy id => trivial

/-- If every send to a queue meets the condition, what has been received is what was
sent, from the first message on. -/
theorem received_prefix {q : Nat} {ops : List MailOp} {t : Mail}
    (clear : Along next (Clear q) start ops) (ran : run next start ops = some t) :
    t.received q <+: (t.sent q).map plain := by
  obtain ⟨m, carried⟩ := run_carried (clear.mono stores_of_clear) ran
  have matched := List.forall₂_map_left_iff.mpr carried.matched
  rw [List.forall₂_eq_eq_eq] at matched
  rw [matched]
  exact List.prefix_append _ _

/-- Two histories that send the same messages to a queue, always into clear cells,
give its receivers the same message structures. -/
theorem received_same (q : Nat) (ops₁ ops₂ : List MailOp) (s₁ s₂ : Mail)
    (ran₁ : run next start ops₁ = some s₁) (ran₂ : run next start ops₂ = some s₂)
    (clear₁ : Along next (Clear q) start ops₁) (clear₂ : Along next (Clear q) start ops₂)
    (agree : s₁.sent q = s₂.sent q) (k : Nat) (msg₁ msg₂ : Message)
    (first : (s₁.received q)[k]? = some msg₁) (second : (s₂.received q)[k]? = some msg₂) :
    msg₁ = msg₂ := by
  obtain ⟨rest₁, whole₁⟩ := received_prefix clear₁ ran₁
  obtain ⟨rest₂, whole₂⟩ := received_prefix clear₂ ran₂
  have kth₁ : ((s₁.sent q).map plain)[k]? = some msg₁ := by
    rw [← whole₁, List.getElem?_append_left (List.getElem?_eq_some_iff.mp first).1]
    exact first
  have kth₂ : ((s₂.sent q).map plain)[k]? = some msg₂ := by
    rw [← whole₂, List.getElem?_append_left (List.getElem?_eq_some_iff.mp second).1]
    exact second
  rw [agree, kth₂] at kth₁
  exact (Option.some.inj kth₁).symm

/-- Traffic on another queue is not seen. -/
theorem received_same_beside :
    ∃ s₁ s₂ msg₁ msg₂,
      run next start [.create 2, .send 2 0 [9], .create 1, .send 1 5 [7], .receive 1] = some s₁ ∧
      run next start [.create 1, .send 1 5 [7], .receive 1] = some s₂ ∧
      (s₁.received 1)[0]? = some msg₁ ∧ (s₂.received 1)[0]? = some msg₂ ∧ msg₁ = msg₂ :=
  ⟨_, _, _, _, rfl, rfl, rfl, rfl,
    received_same 1 [.create 2, .send 2 0 [9], .create 1, .send 1 5 [7], .receive 1]
      [.create 1, .send 1 5 [7], .receive 1] _ _ rfl rfl (by decide +kernel) (by decide +kernel)
      rfl 0 _ _ rfl rfl⟩

/-- A queue whose slot was another queue's before: the byte that was sent to that
queue is in the empty message received from this one. -/
theorem stale_received :
    ∃ s₁ s₂ msg₁ msg₂,
      run next start [.create 2, .send 2 0 [9], .destroy 2, .create 1, .send 1 5 [], .receive 1]
        = some s₁ ∧
      run next start [.create 1, .send 1 5 [], .receive 1] = some s₂ ∧
      s₁.sent 1 = s₂.sent 1 ∧
      (s₁.received 1)[0]? = some msg₁ ∧ (s₂.received 1)[0]? = some msg₂ ∧
      msg₁.data ⟨0, by decide⟩ = 9 ∧ msg₂.data ⟨0, by decide⟩ = 0 ∧ msg₁ ≠ msg₂ := by
  refine ⟨_, _, _, _, rfl, rfl, rfl, rfl, rfl, by decide +kernel, by decide +kernel, ?_⟩
  intro same
  exact absurd (congrFun (congrArg Message.data same) ⟨0, by decide⟩) (by decide +kernel)

end Mail

end OxideOS.Ipc
