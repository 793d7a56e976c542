import OxideOS.Ipc.Pipe
import OxideOS.Lib.Ring
import OxideOS.Lib.Run

/-!
# Pipes as first-in first-out channels

Abstractly a pipe is a queue of bytes: `Pipe.queue` reads it off the ring buffer.
`push` appends the bytes it takes to the queue and `pull` removes a part at its
front (`push_spec`, `pull_spec`).

`Traffic` is the table of pipes together with a record of what went through each
slot since it was last allocated: the bytes its writes accepted, as counted by
their results, and the bytes its reads returned. In every run of the pipe
operations what was accepted is what was returned followed by what is queued.
-/

set_option autoImplicit false

namespace OxideOS.Ipc

open Lib Function

namespace Pipe

/-! ## The queue of a pipe -/

/-- The buffered bytes, oldest first. -/
def queue (p : Pipe) : List UInt8 := ringQueue pipeBuf p.buf p.head p.tail

/-- Both positions are cells of the ring. -/
structure InRing (p : Pipe) : Prop where
  head : p.head < pipeBuf
  tail : p.tail < pipeBuf

variable {p : Pipe}

theorem len_lt (p : Pipe) : p.len < pipeBuf := Nat.mod_lt _ (by decide)

@[simp] theorem queue_length (p : Pipe) : p.queue.length = p.len := ringContents_length

/-- One byte written behind the queue. -/
def enqueue (p : Pipe) (byte : UInt8) : Pipe :=
  { p with buf := update p.buf p.tail byte, tail := (p.tail + 1) % pipeBuf }

/-- The oldest byte given up. -/
def dequeue (p : Pipe) : Pipe := { p with head := (p.head + 1) % pipeBuf }

section

variable (ring : p.InRing)
include ring

theorem InRing.isEmpty_iff : p.isEmpty = true ↔ p.len = 0 := by
  rw [isEmpty, beq_iff_eq]
  exact (ringLen_eq_zero ring.head ring.tail).symm

theorem InRing.enqueue (byte : UInt8) : (p.enqueue byte).InRing :=
  ⟨ring.head, Nat.mod_lt _ (by decide)⟩

theorem InRing.dequeue : p.dequeue.InRing := ⟨Nat.mod_lt _ (by decide), ring.tail⟩

theorem InRing.enqueue_queue (room : p.len + 1 < pipeBuf) (byte : UInt8) :
    (p.enqueue byte).queue = p.queue ++ [byte] :=
  ringQueue_enqueue ring.head ring.tail (succ_tail_ne_head ring.head ring.tail room) byte

theorem InRing.dequeue_queue (filled : p.isEmpty ≠ true) :
    p.queue = p.buf p.head :: p.dequeue.queue := by
  rw [isEmpty, ne_eq, beq_iff_eq] at filled
  exact ringQueue_dequeue ring.head ring.tail filled

end

/-! ## Writing and reading -/

/-- What a loop of the driver may do to a pipe: move data, nothing else. -/
structure Moved (p p' : Pipe) : Prop where
  ring : p'.InRing
  readOpen : p'.readOpen = p.readOpen
  writeOpen : p'.writeOpen = p.writeOpen
  readRefs : p'.readRefs = p.readRefs
  writeRefs : p'.writeRefs = p.writeRefs

theorem push_cons (byte : UInt8) (rest : List UInt8) :
    p.push (byte :: rest)
      = if p.availableWrite = 0 then (0, p)
        else (((p.enqueue byte).push rest).1 + 1, ((p.enqueue byte).push rest).2) := rfl

theorem pull_succ (count : Nat) :
    p.pull (count + 1)
      = if p.isEmpty then ([], p)
        else (p.buf p.head :: (p.dequeue.pull count).1, (p.dequeue.pull count).2) := rfl

/-- `push` takes a prefix of the data, all of it unless the buffer is full
afterwards, and appends it to the queue. -/
theorem push_spec (data : List UInt8) (ring : p.InRing) :
    Moved p (p.push data).2 ∧
    (p.push data).2.queue = p.queue ++ data.take (p.push data).1 ∧
    (p.push data).1 ≤ data.length ∧
    ((p.push data).1 < data.length → (p.push data).2.len = pipeBuf - 1) := by
  induction data generalizing p with
  | nil =>
      exact ⟨⟨ring, rfl, rfl, rfl, rfl⟩, by simp [push], Nat.le_refl _,
        fun less => absurd less (by simp)⟩
  | cons byte rest ih =>
    rw [push_cons]
    split
    · next full =>
        refine ⟨⟨ring, rfl, rfl, rfl, rfl⟩, by simp, Nat.zero_le _, fun _ => ?_⟩
        have bound := p.len_lt
        show p.len = pipeBuf - 1
        simp only [availableWrite] at full
        omega
    · next free =>
        have room : p.len + 1 < pipeBuf := by
          simp only [availableWrite] at free
          omega
        obtain ⟨moved, queued, taken, filled⟩ := ih (ring.enqueue byte)
        refine ⟨⟨moved.ring, moved.readOpen, moved.writeOpen, moved.readRefs, moved.writeRefs⟩,
          ?_, Nat.succ_le_succ taken, fun less => filled (Nat.lt_of_succ_lt_succ less)⟩
        rw [queued, ring.enqueue_queue room, List.append_assoc]
        rfl

/-- `pull` removes as much of the front of the queue as was asked for. -/
theorem pull_spec (count : Nat) (ring : p.InRing) :
    Moved p (p.pull count).2 ∧
    p.queue = (p.pull count).1 ++ (p.pull count).2.queue ∧
    (p.pull count).1.length = min count p.len := by
  induction count generalizing p with
  | zero => exact ⟨⟨ring, rfl, rfl, rfl, rfl⟩, rfl, by simp [pull]⟩
  | succ count ih =>
    rw [pull_succ]
    split
    · next empty =>
        rw [ring.isEmpty_iff] at empty
        exact ⟨⟨ring, rfl, rfl, rfl, rfl⟩, rfl, by simp [empty]⟩
    · next nonempty =>
        have shorter := congrArg List.length (ring.dequeue_queue nonempty)
        rw [List.length_cons, queue_length, queue_length] at shorter
        obtain ⟨moved, queued, asked⟩ := ih ring.dequeue
        refine ⟨⟨moved.ring, moved.readOpen, moved.writeOpen, moved.readRefs, moved.writeRefs⟩,
          ?_, ?_⟩
        · rw [ring.dequeue_queue nonempty, queued]
          rfl
        · rw [List.length_cons, asked]
          omega

end Pipe

/-! ## Operations on the table -/

namespace Pipe

variable {pipes : Nat → Pipe}

/-- `alloc` takes a slot that is closed at both ends and opens it with nothing in
it, whatever its buffer held before. -/
theorem alloc_spec {fds : Nat × Nat} {pipes' : Nat → Pipe}
    (taken : alloc pipes = some (fds, pipes')) :
    ∃ i p, pipeIndex fds.1 = i ∧ (pipes i).readOpen = false ∧ (pipes i).writeOpen = false ∧
      pipes' = update pipes i p ∧ p.InRing ∧ p.queue = [] := by
  unfold alloc at taken
  cases found : firstBelow pipeCount fun i => !(pipes i).readOpen && !(pipes i).writeOpen with
  | none =>
    rw [found] at taken
    cases taken
  | some i =>
    rw [found] at taken
    cases taken
    obtain ⟨-, closed, -⟩ := firstBelow_eq_some found
    simp only [Bool.and_eq_true, Bool.not_eq_true'] at closed
    have index : pipeIndex (pipeFdBase + i * 2) = i := by
      simp only [pipeIndex]
      omega
    exact ⟨i, _, index, closed.1, closed.2, rfl, ⟨by simp [pipeBuf], by simp [pipeBuf]⟩,
      by simp [queue]⟩

theorem write_cases (fd : Nat) (data : List UInt8) :
    write pipes fd data = (-5, pipes) ∨
    write pipes fd data = ((((pipes (pipeIndex fd)).push data).1 : Int),
      update pipes (pipeIndex fd) ((pipes (pipeIndex fd)).push data).2) := by
  simp only [write]
  split
  · exact .inl rfl
  split
  · exact .inl rfl
  · exact .inr rfl

theorem read_cases (fd count : Nat) :
    (∃ code ≤ 0, read pipes fd count = (code, [], pipes)) ∨
    read pipes fd count = ((((pipes (pipeIndex fd)).pull count).1.length : Int),
      ((pipes (pipeIndex fd)).pull count).1,
      update pipes (pipeIndex fd) ((pipes (pipeIndex fd)).pull count).2) := by
  simp only [read]
  split
  · exact .inl ⟨-5, by decide, rfl⟩
  split
  · exact .inl ⟨-5, by decide, rfl⟩
  split
  · refine .inl ⟨_, ?_, rfl⟩
    split <;> decide
  · exact .inr rfl

/-- A refused write changes nothing; any other appends the bytes it counts. -/
theorem write_spec (fd : Nat) (data : List UInt8) (ring : (pipes (pipeIndex fd)).InRing) :
    ∃ p, (write pipes fd data).2 = update pipes (pipeIndex fd) p ∧
      Moved (pipes (pipeIndex fd)) p ∧
      p.queue = (pipes (pipeIndex fd)).queue ++ data.take (write pipes fd data).1.toNat ∧
      (write pipes fd data).1 ≤ data.length ∧
      (0 ≤ (write pipes fd data).1 → (write pipes fd data).1 < data.length →
        p.len = pipeBuf - 1) := by
  rcases write_cases fd data with refused | pushed
  · rw [refused]
    refine ⟨pipes (pipeIndex fd), (update_eq_self _ _).symm, ⟨ring, rfl, rfl, rfl, rfl⟩,
      by simp, ?_, ?_⟩
    · show (-5 : Int) ≤ data.length
      omega
    · intro accepted
      exact absurd accepted (show ¬ (0 : Int) ≤ -5 by decide)
  · rw [pushed]
    obtain ⟨moved, queued, taken, filled⟩ := push_spec data ring
    exact ⟨_, rfl, moved, queued, Int.ofNat_le.mpr taken,
      fun _ less => filled (Int.ofNat_lt.mp less)⟩

/-- A read removes the bytes it returns from the front of the queue and counts
them. -/
theorem read_spec (fd count : Nat) (ring : (pipes (pipeIndex fd)).InRing) :
    ∃ p, (read pipes fd count).2.2 = update pipes (pipeIndex fd) p ∧
      Moved (pipes (pipeIndex fd)) p ∧
      (pipes (pipeIndex fd)).queue = (read pipes fd count).2.1 ++ p.queue ∧
      (read pipes fd count).2.1.length = (read pipes fd count).1.toNat := by
  rcases read_cases fd count with ⟨code, negative, refused⟩ | pulled
  · rw [refused]
    exact ⟨pipes (pipeIndex fd), (update_eq_self _ _).symm, ⟨ring, rfl, rfl, rfl, rfl⟩, rfl,
      (Int.toNat_of_nonpos negative).symm⟩
  · rw [pulled]
    obtain ⟨moved, queued, -⟩ := pull_spec count ring
    exact ⟨_, rfl, moved, queued, rfl⟩

/-- The same data in the same place. -/
structure SameData (p p' : Pipe) : Prop where
  buf : p'.buf = p.buf
  head : p'.head = p.head
  tail : p'.tail = p.tail

theorem SameData.queue {p p' : Pipe} (same : SameData p p') : p'.queue = p.queue := by
  simp only [Pipe.queue, same.buf, same.head, same.tail]

theorem SameData.ring {p p' : Pipe} (same : SameData p p') (ring : p.InRing) : p'.InRing :=
  ⟨same.head ▸ ring.head, same.tail ▸ ring.tail⟩

theorem sameData_update {j : Nat} {p : Pipe} (same : SameData (pipes j) p) (i : Nat) :
    SameData (pipes i) (update pipes j p i) := by
  rcases eq_or_ne i j with rfl | other
  · rw [update_self]
    exact same
  · rw [update_of_ne other]
    exact ⟨rfl, rfl, rfl⟩

/-- Counting a holder leaves the data alone. -/
theorem sameData_addref (fd i : Nat) : SameData (pipes i) (addref pipes fd i) := by
  unfold addref
  split
  · refine sameData_update ?_ i
    split <;> exact ⟨rfl, rfl, rfl⟩
  · exact ⟨rfl, rfl, rfl⟩

/-- So does dropping one. -/
theorem sameData_close (fd i : Nat) : SameData (pipes i) (close pipes fd i) := by
  unfold close
  split
  · refine sameData_update ?_ i
    split <;> exact ⟨rfl, rfl, rfl⟩
  · exact ⟨rfl, rfl, rfl⟩

end Pipe

/-! ## What goes through the pipes -/

/-- A call of the pipe driver. -/
inductive PipeOp where
  | alloc
  | addref (fd : Nat)
  | write (fd : Nat) (data : List UInt8)
  | read (fd count : Nat)
  | close (fd : Nat)

/-- The table of pipes and, for each slot, what its writes accepted and its reads
returned since it was allocated. -/
structure Traffic where
  pipes : Nat → Pipe
  accepted : Nat → List UInt8
  returned : Nat → List UInt8

namespace Traffic

def start : Traffic := ⟨fun _ => .new, fun _ => [], fun _ => []⟩

/-- One call. A write has accepted the part of its data its result counts. -/
def step (s : Traffic) : PipeOp → Traffic
  | .alloc =>
    match Pipe.alloc s.pipes with
    | none => s
    | some ((readFd, _), pipes) =>
      ⟨pipes, update s.accepted (pipeIndex readFd) [],
        update s.returned (pipeIndex readFd) []⟩
  | .addref fd => { s with pipes := Pipe.addref s.pipes fd }
  | .write fd data =>
    let (result, pipes) := Pipe.write s.pipes fd data
    { s with
      pipes := pipes
      accepted := update s.accepted (pipeIndex fd)
        (s.accepted (pipeIndex fd) ++ data.take result.toNat) }
  | .read fd count =>
    let (_, bytes, pipes) := Pipe.read s.pipes fd count
    { s with
      pipes := pipes
      returned := update s.returned (pipeIndex fd)
        (s.returned (pipeIndex fd) ++ bytes) }
  | .close fd => { s with pipes := Pipe.close s.pipes fd }

def next (s : Traffic) (op : PipeOp) : Option Traffic := some (s.step op)

/-- Nothing is lost, doubled or reordered in a slot. -/
structure Lossless (s : Traffic) (i : Nat) : Prop where
  ring : (s.pipes i).InRing
  balance : s.accepted i = s.returned i ++ (s.pipes i).queue

theorem lossless_start (i : Nat) : start.Lossless i :=
  ⟨⟨by simp [start, Pipe.new, pipeBuf], by simp [start, Pipe.new, pipeBuf]⟩,
    by simp [start, Pipe.queue, Pipe.new]⟩

variable {s : Traffic}

/-- What a call does to the one slot it works on decides whether it keeps every
slot in balance. -/
theorem lossless_update {j : Nat} {p : Pipe} {accepted returned : List UInt8}
    (all : ∀ i, s.Lossless i) (ring : p.InRing)
    (balance : accepted = returned ++ p.queue) (i : Nat) :
    Lossless ⟨update s.pipes j p, update s.accepted j accepted,
      update s.returned j returned⟩ i := by
  rcases eq_or_ne i j with rfl | other
  · constructor <;> simpa only [update_self]
  · constructor <;> simp only [update_of_ne other]
    · exact (all i).ring
    · exact (all i).balance

theorem lossless_sameData {pipes : Nat → Pipe} (all : ∀ i, s.Lossless i)
    (same : ∀ i, Pipe.SameData (s.pipes i) (pipes i)) (i : Nat) :
    Lossless { s with pipes := pipes } i := by
  refine ⟨(same i).ring (all i).ring, ?_⟩
  rw [(same i).queue]
  exact (all i).balance

/-- Every call keeps every slot in balance. -/
theorem lossless_step (all : ∀ i, s.Lossless i) (op : PipeOp) : ∀ i, (s.step op).Lossless i := by
  cases op with
  | alloc =>
    simp only [step]
    split
    · exact all
    · next readFd writeFd pipes taken =>
        obtain ⟨i, p, index, -, -, rfl, ring, empty⟩ := Pipe.alloc_spec taken
        rw [index]
        exact lossless_update all ring (by rw [empty, List.append_nil])
  | addref fd => exact lossless_sameData all (Pipe.sameData_addref fd)
  | write fd data =>
    obtain ⟨p, updated, moved, queued, -⟩ := Pipe.write_spec fd data (all (pipeIndex fd)).ring
    simp only [step, updated]
    have kept := update_eq_self (pipeIndex fd) s.returned
    rw [← kept]
    refine lossless_update all moved.ring ?_
    rw [queued, (all (pipeIndex fd)).balance, List.append_assoc]
  | read fd count =>
    obtain ⟨p, updated, moved, queued, -⟩ := Pipe.read_spec fd count (all (pipeIndex fd)).ring
    simp only [step, updated]
    have kept := update_eq_self (pipeIndex fd) s.accepted
    rw [← kept]
    refine lossless_update all moved.ring ?_
    rw [(all (pipeIndex fd)).balance, queued, List.append_assoc]
  | close fd => exact lossless_sameData all (Pipe.sameData_close fd)

theorem run_lossless {ops : List PipeOp} {t : Traffic} (ran : run next start ops = some t) :
    ∀ i, t.Lossless i := by
  have along : Along next (fun _ _ => True) start ops := along_of_forall fun _ _ _ => trivial
  refine run_invariant (I := fun s => ∀ i, s.Lossless i) ?_ lossless_start along ran
  intro s op s' all _ stepped
  cases stepped
  exact lossless_step all op

/-! ## Main result -/

end Traffic

end OxideOS.Ipc
