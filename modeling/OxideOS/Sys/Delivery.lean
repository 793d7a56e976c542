import OxideOS.Ipc.Messages
import OxideOS.Sys.Preemption

/-!
# Messages for blocked receivers

`Post` is the running system together with its message queues. The calls that
deal with messages use the queues of the table, the tick fetches a message for
every task that is blocked on a queue which holds one (`fetchAll`); every other
event is an event of the system alone.

The queues keep their order through all of this (`step_ordered`). But the tick
stores the message it has fetched while the kernel's own page table is in force,
at an address that means something in the receiver's address space only. A
message arrives where the receiver waits for it, then, in the runs in which no
tick finds a message for a blocked receiver (`run_delivers`), every receive being
served at once. `blocked_receiver_halts` is a run in which it does not.
-/

set_option autoImplicit false

namespace OxideOS.Sys

open Lib Mem Ipc Proc Proc.Kernel

/-- The four bytes of a `u32`, lowest first. -/
def u32Bytes (w : Nat) : List UInt8 := (List.range 4).map fun i => UInt8.ofNat (w >>> (8 * i))

/-- A message as it is stored in memory. -/
def messageBytes (m : Message) : List UInt8 :=
  u32Bytes m.typeId ++ u32Bytes m.size ++ List.ofFn m.data

structure Post where
  kernel : Kernel
  mail : Mail

inductive PostEvent where
  | create (id : Nat)
  | send (id typeId dataPtr dataLen : Nat)
  | receive (id msgOutPtr : Nat)
  | receiveWait (ctx : Option TaskContext) (id msgOutPtr : Nat)
  | tick
  | other (e : Event)

/-- The event is one of those that deal with messages. -/
def Event.dealsWithMessages : Event → Bool
  | .tick _ => true
  | .syscall _ (.msgrcvWait _ _ _) => true
  | _ => false

/-- A message of the given length would be taken by the queue. -/
def acceptsMessage (queues : Nat → MessageQueue) (id len : Nat) : Bool :=
  decide (len ≤ maxMsgSize) && (findQueue queues id).any fun i => !(queues i).isFull

/-- Fetch a message for slot `i`, if its task is blocked on a queue that holds
one. -/
def fetch (tasks : Nat → Task) (i : Nat) (s : Mail × (Nat → Option (List UInt8))) :
    Mail × (Nat → Option (List UInt8)) :=
  match (tasks i).state with
  | .waitingForMsg queueId _ =>
    (s.1.step (.receive queueId),
      Function.update s.2 i ((msgrcv s.1.queues queueId).2.1.map messageBytes))
  | _ => s

/-- The system when the tick has woken sleepers and fired alarms. -/
def woken (k : Kernel) : Kernel :=
  loop (fireAlarm k.ticks) 0 maxTasks (loop (wakeSleeper k.ticks) 0 maxTasks k)

/-- What a tick fetches, slot after slot. -/
def fetchAll (tasks : Nat → Task) (mail : Mail) : Mail × (Nat → Option (List UInt8)) :=
  loop (fetch tasks) 0 maxTasks (mail, fun _ => none)

namespace Post

def start (boot : Paging) : Post := ⟨.start boot, .start⟩

/-- `sys_msgsnd`: the data is read only when the queue takes the message. -/
def send (s : Post) (id typeId dataPtr dataLen : Nat) : Option Post :=
  match validateUserRange dataPtr dataLen with
  | .error _ => some s
  | .ok _ =>
    if acceptsMessage s.mail.queues id dataLen then
      (s.kernel.paging.readUser (s.kernel.tasks s.kernel.current).cr3 dataPtr dataLen).map
        fun bytes => { s with mail := s.mail.step (.send id typeId (bytes.map UInt8.ofNat)) }
    else some s

/-- `sys_msgrcv`: the message is stored through the caller's page tables. -/
def receive (s : Post) (id msgOutPtr : Nat) : Option Post :=
  match validateUserRange msgOutPtr messageSize with
  | .error _ => some s
  | .ok _ =>
    match (msgrcv s.mail.queues id).2.1 with
    | none => some s
    | some msg =>
      (settle (copyToUser msgOutPtr (messageBytes msg) s.kernel)).map fun k =>
        ⟨k, s.mail.step (.receive id)⟩

/-- `sys_msgrcv_wait`: the same when there is a message, else the caller blocks. -/
def receiveWait (s : Post) (ctx : Option TaskContext) (id msgOutPtr : Nat) : Option Post :=
  let message := (msgrcv s.mail.queues id).2.1
  (settle (msgrcvWait id msgOutPtr (message.map messageBytes) ctx s.kernel)).map fun k =>
    match validateUserRange msgOutPtr messageSize with
    | .error _ => ⟨k, s.mail⟩
    | .ok _ => ⟨k, s.mail.step (.receive id)⟩

/-- One event; `none` when it cannot happen or stops the system. -/
def step (s : Post) : PostEvent → Option Post
  | .create id =>
    if s.kernel.userMode then some { s with mail := s.mail.step (.create (id % 2 ^ 32)) } else none
  | .send id typeId dataPtr dataLen =>
    if s.kernel.userMode then s.send (id % 2 ^ 32) (typeId % 2 ^ 32) dataPtr dataLen else none
  | .receive id msgOutPtr => if s.kernel.userMode then s.receive (id % 2 ^ 32) msgOutPtr else none
  | .receiveWait ctx id msgOutPtr =>
    if s.kernel.userMode then s.receiveWait ctx (id % 2 ^ 32) msgOutPtr else none
  | .tick =>
    let fetched := fetchAll (woken s.kernel).tasks s.mail
    (advance s.kernel (.tick fetched.2)).map fun k => ⟨k, fetched.1⟩
  | .other e =>
    if e.dealsWithMessages then none else (advance s.kernel e).map fun k => { s with kernel := k }

end Post

/-! ## The tick -/

/-- What the tick is to do for a blocked receiver: store the message in the
receiver's own address space. -/
def storeOwn (messages : Nat → Option (List UInt8)) (i : Nat) : Kern PUnit := do
  let k ← Prog.gets id
  match (k.tasks i).state, messages i with
  | .waitingForMsg _ msgPtr, some bytes => do
      copyToRegionIn (k.tasks i).cr3 msgPtr (bytes.take messageSize)
      Prog.update (·.modifyTask i fun t =>
        { t with ctx := { t.ctx with rax := 0 }, state := .ready })
  | _, _ => return ⟨⟩

/-- In the loop over the blocked tasks the tick does what it is to do: every
message it has fetched is stored at the receiver's buffer in the receiver's own
address space, nothing else is written, and then the receiver is made ready. -/
def Delivers (s : Post) : PostEvent → Prop
  | .tick =>
    let messages := (fetchAll (woken s.kernel).tasks s.mail).2
    Prog.forRange (wakeForMsg messages) 0 maxTasks (woken s.kernel) =
      Prog.forRange (storeOwn messages) 0 maxTasks (woken s.kernel)
  | _ => True

/-- The task is not blocked on a queue that holds a message. -/
def noMailFor (queues : Nat → MessageQueue) (t : Task) : Bool :=
  match t.state with
  | .waitingForMsg queueId _ => (findQueue queues queueId).all fun i => (queues i).isEmpty
  | _ => true

/-- A tick finds no message for a blocked task. -/
def Idle (s : Post) : PostEvent → Prop
  | .tick => ∀ i < maxTasks, noMailFor s.mail.queues (s.kernel.tasks i) = true
  | _ => True

instance Idle.decidable (s : Post) : (e : PostEvent) → Decidable (Idle s e)
  | .tick => inferInstanceAs (Decidable (∀ i < maxTasks, _))
  | .create _ | .send _ _ _ _ | .receive _ _ | .receiveWait _ _ _ | .other _ => .isTrue trivial

section Tick

variable {k : Kernel} {messages : Nat → Option (List UInt8)} {i : Nat}

/-- Two systems in which the same tasks are blocked on the same queues. -/
def SameBlocked (k k' : Kernel) : Prop :=
  ∀ j queues, noMailFor queues (k'.tasks j) = noMailFor queues (k.tasks j)

theorem sameBlocked_modifyTask {f : Task → Task}
    (same : ∀ queues, noMailFor queues (f (k.tasks i)) = noMailFor queues (k.tasks i)) :
    SameBlocked k (k.modifyTask i f) := by
  intro j queues
  by_cases here : j = i
  · subst here
    rw [modifyTask, setTask]
    simpa only [Function.update_self] using same queues
  · rw [modifyTask, setTask_of_ne _ _ here]

theorem SameBlocked.trans {k' k'' : Kernel} (first : SameBlocked k k')
    (second : SameBlocked k' k'') :
    SameBlocked k k'' := fun j queues =>
  (second j queues).trans (first j queues)

theorem sameBlocked_wakeSleeper (now i : Nat) (k : Kernel) :
    SameBlocked k (wakeSleeper now i k) := by
  unfold wakeSleeper
  split
  · next wake asleep =>
      split
      · refine sameBlocked_modifyTask fun queues => ?_
        simp only [noMailFor, asleep]
      · exact fun _ _ => rfl
  · exact fun _ _ => rfl

theorem sameBlocked_sendSignal (pid : Nat) {signum : Nat} (mild : signum ≠ sigkill) (k : Kernel) :
    SameBlocked k (sendSignal pid signum k).2 := by
  unfold sendSignal
  split
  · exact fun _ _ => rfl
  split
  · exact fun _ _ => rfl
  · next i _ =>
      split
      · exact fun _ _ => rfl
      · dsimp only
        refine sameBlocked_modifyTask fun queues => ?_
        cases state : (k.tasks i).state <;> simp [noMailFor, state, TaskState.isSleeping]

theorem sameBlocked_fireAlarm (now i : Nat) (k : Kernel) : SameBlocked k (fireAlarm now i k) := by
  unfold fireAlarm
  dsimp only
  split
  · have cleared : SameBlocked k (k.modifyTask i fun t => { t with alarmDeadline := 0 }) :=
      sameBlocked_modifyTask fun _ => rfl
    split
    · exact cleared.trans (sameBlocked_sendSignal _ (by decide) _)
    · exact cleared
  · exact fun _ _ => rfl

/-- Waking sleepers and firing alarms unblocks no receiver. -/
theorem sameBlocked_woken (k : Kernel) : SameBlocked k (woken k) := by
  have slept : SameBlocked k (loop (wakeSleeper k.ticks) 0 maxTasks k) :=
    loop_zero_invariant (fun _ k' => SameBlocked k k')
      (fun i k' _ same => same.trans (sameBlocked_wakeSleeper _ i k')) fun _ _ => rfl
  exact loop_zero_invariant (fun _ k' => SameBlocked k k')
    (fun i k' _ same => same.trans (sameBlocked_fireAlarm _ i k')) slept

/-- A queue that holds nothing gives nothing. -/
theorem msgrcv_of_noMail {queues : Nat → MessageQueue} {t : Task} {queueId msgPtr : Nat}
    (blocked : t.state = .waitingForMsg queueId msgPtr) (none' : noMailFor queues t = true) :
    (msgrcv queues queueId).2 = (none, queues) := by
  simp only [noMailFor, blocked] at none'
  unfold msgrcv
  cases found : findQueue queues queueId with
  | none => rfl
  | some i =>
    rw [found, Option.all_some] at none'
    dsimp only
    rw [if_pos none']

/-- A tick that finds no message for a blocked task fetches none. -/
theorem fetchAll_idle {tasks : Nat → Task} {mail : Mail}
    (idle : ∀ i < maxTasks, noMailFor mail.queues (tasks i) = true) :
    fetchAll tasks mail = (mail, fun _ => none) := by
  refine loop_zero_invariant (fun _ s => s = (mail, fun _ => none)) (fun i s bound same => ?_) rfl
  subst same
  unfold fetch
  split
  · next queueId msgPtr blocked =>
      have nothing := msgrcv_of_noMail blocked (idle i bound)
      have kept : mail.step (.receive queueId) = mail := by
        rcases received : msgrcv mail.queues queueId with ⟨code, got, queues⟩
        rw [received] at nothing
        cases nothing
        simp only [Mail.step, received]
      rw [kept, nothing, Option.map_none, Function.update_eq_self_iff.mpr rfl]
  · rfl

end Tick

/-! ## Runs -/

/-- Where no message is fetched there is none to store. -/
theorem delivers_of_idle (s : Post) (e : PostEvent) (idle : Idle s e) : Delivers s e := by
  cases e with
  | tick =>
    have none' : fetchAll (woken s.kernel).tasks s.mail = (s.mail, fun _ => none) :=
      fetchAll_idle fun i bound => by
        rw [sameBlocked_woken]
        exact idle i bound
    have same : ∀ i, wakeForMsg (fun _ => none) i = storeOwn (fun _ => none) i := by
      intro i
      funext k
      simp only [wakeForMsg, storeOwn, bind, Prog.andThen, Prog.gets]
      cases ((id k).tasks i).state <;> rfl
    simp only [Delivers, none', funext same]
  | create id => trivial
  | send id typeId dataPtr dataLen => trivial
  | receive id msgOutPtr | receiveWait ctx id msgOutPtr | other e => trivial

variable {q : Nat}

/-- What a tick fetches is received from the queues like anything else. -/
theorem fetchAll_ordered (tasks : Nat → Task) {mail : Mail} (ordered : mail.Ordered q) :
    (fetchAll tasks mail).1.Ordered q := by
  have kept : ∀ i (fetched : Mail × (Nat → Option (List UInt8))), fetched.1.Ordered q →
      (fetch tasks i fetched).1.Ordered q := by
    intro i fetched kept
    unfold fetch
    split
    · next queueId msgPtr _ => exact kept.step (.receive queueId)
    · exact kept
  have initially : (mail, fun _ : Nat => (none : Option (List UInt8))).1.Ordered q := ordered
  exact loop_zero_invariant (fun _ fetched => fetched.1.Ordered q)
    (fun i fetched _ => kept i fetched) initially

/-- Every event keeps every queue in order: nothing is lost, doubled or
reordered, whoever receives. -/
theorem step_ordered {s s' : Post} {e : PostEvent} (ordered : s.mail.Ordered q)
    (stepped : s.step e = some s') : s'.mail.Ordered q := by
  cases e with
  | create id =>
    simp only [Post.step] at stepped
    split at stepped
    · cases stepped
      exact ordered.step (.create (id % 2 ^ 32))
    · cases stepped
  | send id typeId dataPtr dataLen =>
    simp only [Post.step, Post.send] at stepped
    split at stepped
    · split at stepped
      · cases stepped
        exact ordered
      · split at stepped
        · obtain ⟨bytes, -, rfl⟩ := Option.map_eq_some_iff.mp stepped
          exact ordered.step (.send (id % 2 ^ 32) (typeId % 2 ^ 32) (bytes.map UInt8.ofNat))
        · cases stepped
          exact ordered
    · cases stepped
  | receive id msgOutPtr =>
    simp only [Post.step, Post.receive] at stepped
    split at stepped
    · split at stepped
      · cases stepped
        exact ordered
      · split at stepped
        · cases stepped
          exact ordered
        · obtain ⟨k, -, rfl⟩ := Option.map_eq_some_iff.mp stepped
          exact ordered.step (.receive (id % 2 ^ 32))
    · cases stepped
  | receiveWait ctx id msgOutPtr =>
    simp only [Post.step, Post.receiveWait] at stepped
    split at stepped
    · obtain ⟨k, -, rfl⟩ := Option.map_eq_some_iff.mp stepped
      split
      · exact ordered
      · exact ordered.step (.receive (id % 2 ^ 32))
    · cases stepped
  | tick =>
    obtain ⟨k, -, moved⟩ := Option.map_eq_some_iff.mp stepped
    have kept := fetchAll_ordered (woken s.kernel).tasks ordered
    generalize fetchAll (woken s.kernel).tasks s.mail = fetched at kept moved
    cases moved
    exact kept
  | other e =>
    simp only [Post.step] at stepped
    split at stepped
    · cases stepped
    · obtain ⟨k, -, rfl⟩ := Option.map_eq_some_iff.mp stepped
      exact ordered

theorem run_ordered {k : Kernel} {events : List PostEvent} {t : Post}
    (ran : run Post.step ⟨k, .start⟩ events = some t) : t.mail.Ordered q := by
  have along : Along Post.step (fun _ _ => True) ⟨k, .start⟩ events :=
    along_of_forall fun _ _ _ => trivial
  exact run_invariant (I := fun s => s.mail.Ordered q)
    (fun ordered _ stepped => step_ordered ordered stepped) (Mail.ordered_start q) along ran

/-- In every run in which no tick finds a message for a blocked receiver, from any
system with empty queues: what has been received from a queue is, in order and
once each, the first of what was sent to it, the rest is still queued, and every
message fetched for a blocked receiver is stored where the receiver waits for it
and nowhere else. -/
theorem run_delivers (k : Kernel) (events : List PostEvent) (t : Post)
    (idle : Along Post.step Idle ⟨k, .start⟩ events)
    (ran : run Post.step ⟨k, .start⟩ events = some t) :
    (∀ q, (t.mail.received q).map Message.content <+: t.mail.sent q ∧
      t.mail.sent q = (t.mail.received q ++ queuedFor t.mail.queues q).map Message.content) ∧
    Along Post.step Delivers ⟨k, .start⟩ events := by
  refine ⟨fun q => ?_, idle.mono delivers_of_idle⟩
  have account := (run_ordered (q := q) ran).sent_eq
  refine ⟨?_, account⟩
  rw [account, List.map_append]
  exact List.prefix_append _ _

/-- A program sends a message to itself, receives it and waits on another queue, for a
tick. -/
def sendAndWait : List PostEvent :=
  [.other (.spawn (some looping) [] []), .tick, .create 1, .send 1 7 0x1000 0,
    .receive 1 0x400100, .receiveWait (some .zeroed) 2 0x400100, .tick]

set_option maxRecDepth 100000 in
theorem run_delivers_sendAndWait :
    ∃ t, run Post.step (Post.start roomyBoot) sendAndWait = some t ∧ t.mail.sent 1 = [(7, [])] ∧
      (t.mail.received 1).map Message.content = [(7, [])] ∧
      (t.mail.received 1).map Message.content <+: t.mail.sent 1 ∧
      (t.kernel.tasks 0).state = .waitingForMsg 2 0x400100 := by
  have ends : (run Post.step (Post.start roomyBoot) sendAndWait).map (fun t =>
      (t.mail.sent 1, (t.mail.received 1).map Message.content, (t.kernel.tasks 0).state)) =
        some ([(7, [])], [(7, [])], .waitingForMsg 2 0x400100) := by decide +kernel
  obtain ⟨t, ran, seen⟩ := Option.map_eq_some_iff.mp ends
  have idle : Along Post.step Idle (Post.start roomyBoot) sendAndWait := by decide +kernel
  have ordered := ((run_delivers (.start roomyBoot) sendAndWait t idle ran).1 1).1
  exact ⟨t, ran, congrArg Prod.fst seen, congrArg (·.2.1) seen, ordered, congrArg (·.2.2) seen⟩

/-! ## A message for a blocked receiver -/

section Blocked

open PageTableEntry

/-- A program blocks on an empty queue, another one sends it a message and uses up
its time. -/
def sendToBlocked : List PostEvent :=
  [.other (.spawn (some looping) [] []), .tick, .create 1, .receiveWait (some .zeroed) 1 0x400100,
    .other (.spawn (some looping) [] []), .tick, .send 1 7 0x1000 0, .other (.timer .zeroed),
    .other (.timer .zeroed)]

/-- A procedure of the kernel came to its end. -/
def ended {α : Type} : Except Leave α × Kernel → Bool
  | (.ok _, _) => true
  | (.error _, _) => false

variable {p : Paging} {r virt l4e l3e l2e l1e : Nat}

/-- The next byte of the page is reached through the same entries. -/
theorem walk_succ (walk : Walk p r virt l4e l3e l2e l1e) (inside : virt % 4096 + 1 < 4096) :
    Walk p r (virt + 1) l4e l3e l2e l1e := by
  have same : ∀ n, 12 ≤ n → (virt + 1) >>> n = virt >>> n := by
    intro n high
    obtain ⟨m, rfl⟩ := Nat.exists_eq_add_of_le high
    rw [Nat.shiftRight_add, Nat.shiftRight_add]
    congr 1
    simp only [Nat.shiftRight_eq_div_pow]
    omega
  have l4 : l4Index (virt + 1) = l4Index virt := by rw [l4Index, same 39 (by decide), ← l4Index]
  have l3 : l3Index (virt + 1) = l3Index virt := by rw [l3Index, same 30 (by decide), ← l3Index]
  have l2 : l2Index (virt + 1) = l2Index virt := by rw [l2Index, same 21 (by decide), ← l2Index]
  have l1 : l1Index (virt + 1) = l1Index virt := by rw [l1Index, same 12 (by decide), ← l1Index]
  exact { walk with
    l4 := l4 ▸ walk.l4, l3 := l3 ▸ walk.l3, l2 := l2 ▸ walk.l2, l1 := l1 ▸ walk.l1 }

/-- A store into a frame that is none of the tables on the way keeps the walk. -/
theorem walk_writeByte {phys : Nat} (walk : Walk p r virt l4e l3e l2e l1e)
    (apart : ∀ table ∈ [r, frameOf l4e, frameOf l3e, frameOf l2e], table ≠ phys / 4096) (b : Nat) :
    Walk (p.writeByte phys b) r virt l4e l3e l2e l1e := by
  simp only [List.forall_mem_cons, List.not_mem_nil, false_imp_iff, implies_true, and_true] at apart
  obtain ⟨root, table₃, table₂, table₁⟩ := apart
  exact { walk with
    l4 := by rw [Paging.writeByte_mem_of_ne p b root, walk.l4]
    l3 := by rw [Paging.writeByte_mem_of_ne p b table₃, walk.l3]
    l2 := by rw [Paging.writeByte_mem_of_ne p b table₂, walk.l2]
    l1 := by rw [Paging.writeByte_mem_of_ne p b table₁, walk.l1] }

/-- Bytes that end in the page they start in are stored, if the kernel may write
that page and it is none of the tables on the way. -/
theorem writeUser_stored (small : r < 2 ^ 40)
    (opened : Access.kernelWrite.permits l4e && Access.kernelWrite.permits l3e &&
      Access.kernelWrite.permits l2e && Access.kernelWrite.permits l1e)
    (apart : ∀ table ∈ [r, frameOf l4e, frameOf l3e, frameOf l2e], table ≠ frameOf l1e)
    (bytes : List UInt8) (walk : Walk p r virt l4e l3e l2e l1e)
    (inPage : virt % 4096 + bytes.length ≤ 4096) :
    ∃ p', Paging.writeUser (r * 4096) 1 virt bytes p = some (.stored, p') := by
  induction bytes generalizing p virt with
  | nil => exact ⟨p, rfl⟩
  | cons b rest ih =>
    rw [List.length_cons] at inPage
    have landed : p.translate (r * 4096) virt ⟨false, true⟩ =
        .ok (frameOf l1e * 4096 + virt % 4096) := by
      rw [walk.translate small]
      exact if_pos opened
    have stored : Paging.store (r * 4096) virt b.toNat false 1 p =
        some (.stored, p.writeByte (frameOf l1e * 4096 + virt % 4096) b.toNat) := by
      simp only [Paging.store, landed]
    simp only [Paging.writeUser, stored]
    rcases rest.eq_nil_or_concat with rfl | ⟨_, _, rfl⟩
    · exact ⟨_, rfl⟩
    · rw [List.length_concat] at inPage
      have kept : Walk (p.writeByte (frameOf l1e * 4096 + virt % 4096) b.toNat) r virt l4e l3e
          l2e l1e := walk_writeByte walk (by rwa [Paging.frame_of_offset]) b.toNat
      exact ih (walk_succ kept (by omega)) (by rw [List.length_concat]; omega)

/-- The kernel may write the page of `virt`, and it is none of the tables on the
way to it. -/
def ownPage (p : Paging) (r virt : Nat) : Bool :=
  let l4e := p.mem r (l4Index virt)
  let l3e := p.mem (frameOf l4e) (l3Index virt)
  let l2e := p.mem (frameOf l3e) (l2Index virt)
  let l1e := p.mem (frameOf l2e) (l1Index virt)
  isPresent l4e && isPresent l3e && isPresent l2e && isPresent l1e && !isHuge l3e && !isHuge l2e &&
    (Access.kernelWrite.permits l4e && Access.kernelWrite.permits l3e &&
      Access.kernelWrite.permits l2e && Access.kernelWrite.permits l1e) &&
    [r, frameOf l4e, frameOf l3e, frameOf l2e].all (· != frameOf l1e)

theorem copyToRegionIn_own {bytes : List UInt8} (small : r < 2 ^ 40)
    (own : ownPage p r virt = true) (inPage : virt % 4096 + bytes.length ≤ 4096)
    (low : virt + bytes.length < 2 ^ 47) :
    ∃ p', p.copyToRegionIn (r * 4096) virt bytes = some p' := by
  simp only [ownPage, Bool.and_eq_true, Bool.not_eq_true', List.all_eq_true, bne_iff_ne] at own
  obtain ⟨⟨⟨⟨⟨⟨⟨present₄, present₃⟩, present₂⟩, present₁⟩, small₃⟩, small₂⟩, opened⟩, apart⟩ := own
  obtain ⟨p', stored⟩ :=
    writeUser_stored small (by simpa only [Bool.and_eq_true] using opened) apart
    bytes ⟨rfl, rfl, rfl, rfl, present₄, present₃, present₂, present₁, small₃, small₂⟩ inPage
  have accepted : (bytes.isEmpty || Paging.canonical virt &&
      Paging.canonical (virt + (bytes.length - 1))) = true := by
    simp only [Paging.canonical, Bool.or_eq_true, Bool.and_eq_true, decide_eq_true_eq]
    exact .inr ⟨.inl (by omega), .inl (by omega)⟩
  exact ⟨p', by simp only [Paging.copyToRegionIn, accepted, if_true, stored]⟩

variable {messages : Nat → Option (List UInt8)}

/-- Nothing is stored for tasks that have no message. -/
theorem storeOwn_none {i : Nat} (none' : messages i = none)
    (k : Kernel) : storeOwn messages i k = (.ok ⟨⟩, k) := by
  simp only [storeOwn, bind, Prog.andThen, Prog.gets, none']
  cases ((id k).tasks i).state <;> rfl

theorem forRange_storeOwn_none {first count : Nat}
    (none' : ∀ i < first + count, first ≤ i → messages i = none) (k : Kernel) :
    Prog.forRange (storeOwn messages) first count k = (.ok ⟨⟩, k) := by
  induction count generalizing first with
  | zero => rfl
  | succ count ih =>
    simp only [Prog.forRange, Prog.andThen, storeOwn_none (none' first (by omega) (by omega))]
    exact ih fun i bound above => none' i (by omega) (by omega)

/-- The message for the task in the first slot is stored in its own page. -/
theorem forRange_storeOwn_first {k : Kernel}
    {queueId msgPtr : Nat} {bytes : List UInt8} (blocked : (k.tasks 0).state =
      .waitingForMsg queueId msgPtr) (fetched : messages 0 = some bytes)
    (only : ∀ i < maxTasks, 1 ≤ i → messages i = none) (root : (k.tasks 0).cr3 = r * 4096)
    (small : r < 2 ^ 40) (own : ownPage k.paging r msgPtr = true)
    (inPage : msgPtr % 4096 + messageSize ≤ 4096) (low : msgPtr + messageSize < 2 ^ 47) :
    ended (Prog.forRange (storeOwn messages) 0 maxTasks k) = true := by
  have short : (bytes.take messageSize).length ≤ messageSize := List.length_take_le _ _
  obtain ⟨p', copied⟩ : ∃ p', k.paging.copyToRegionIn (r * 4096) msgPtr (bytes.take messageSize) =
      some p' := copyToRegionIn_own small own (by omega) (by omega)
  have first : ∃ k', storeOwn messages 0 k = (.ok ⟨⟩, k') := by
    simp only [storeOwn, bind, Prog.andThen, Prog.gets, id, blocked, fetched, copyToRegionIn, root,
      copied, Prog.update]
    exact ⟨_, rfl⟩
  obtain ⟨k', stored⟩ := first
  have rest : Prog.forRange (storeOwn messages) 1 (maxTasks - 1) k' = (.ok ⟨⟩, k') :=
    forRange_storeOwn_none
      (fun i bound above => only i (by simpa [maxTasks] using bound) above) k'
  show ended (Prog.forRange _ 0 (maxTasks - 1 + 1) k) = true
  simp only [Prog.forRange, Prog.andThen, stored, Nat.zero_add, rest, ended]

/-- The first task is blocked on a queue, there is a message for it and for no
other task, and its buffer is in a page of its own; but the tick stops. -/
@[mk_iff]
structure Lost (s : Post) (k : Kernel) (messages : Nat → Option (List UInt8)) : Prop where
  fails : ended (Prog.forRange (wakeForMsg messages) 0 maxTasks k) = false
  stops : (s.step .tick).isNone = true
  blocked : (k.tasks 0).state = .waitingForMsg 1 0x400100
  root : (k.tasks 0).cr3 = 8192 * 4096
  own : ownPage k.paging 8192 0x400100 = true
  fetched : (messages 0).isSome = true
  only : ∀ i < maxTasks, 1 ≤ i → messages i = none

instance (s : Post) (k : Kernel) (messages : Nat → Option (List UInt8)) :
    Decidable (Lost s k messages) :=
  decidable_of_iff _ (lost_iff s k messages).symm

set_option maxRecDepth 100000 in
theorem sendToBlocked_tick :
    (run Post.step (Post.start roomyBoot) sendToBlocked).map (fun s =>
      decide (Lost s (woken s.kernel) (fetchAll (woken s.kernel).tasks s.mail).2)) =
      some true := by decide +kernel

/-- The message for the blocked program is not stored in its address space, though
there is room for it: the next tick stops the system. -/
theorem blocked_receiver_halts :
    ∃ s, run Post.step (Post.start roomyBoot) sendToBlocked = some s ∧ ¬Delivers s .tick ∧
      s.step .tick = none := by
  obtain ⟨s, ran, seen⟩ := Option.map_eq_some_iff.mp sendToBlocked_tick
  have lost := of_decide_eq_true seen
  obtain ⟨bytes, fetched⟩ := Option.isSome_iff_exists.mp lost.fetched
  have succeeds := forRange_storeOwn_first (r := 8192) lost.blocked fetched lost.only lost.root
    (by decide) lost.own (by decide) (by decide)
  have fails := lost.fails
  refine ⟨s, ran, fun delivers => ?_, Option.isNone_iff_eq_none.mp lost.stops⟩
  rw [show Prog.forRange _ _ _ _ = _ from delivers, succeeds] at fails
  cases fails

end Blocked

end OxideOS.Sys
