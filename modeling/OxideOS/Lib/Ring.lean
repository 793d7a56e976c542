import Mathlib.Logic.Function.Basic
import Mathlib.Tactic.Common

/-!
# Ring buffers

A ring buffer of `size` cells is read from a head position onwards, wrapping at
the end. `ringContents` lists the first cells from there on as a queue.
Appending writes the cell after the last one: the queue grows at its end
(`ringContents_snoc`), and the cells before the written one are still there
(`ringContents_update`).

A ring that is kept by its head and its tail, one cell always left free, holds
`ringQueue`: empty when the two meet (`ringLen_eq_zero`), extended by a write at
the tail (`ringQueue_enqueue`), shortened by a read at the head
(`ringQueue_dequeue`).
-/

set_option autoImplicit false

namespace OxideOS.Lib

open Function

universe u

variable {α : Type u}

/-- The first `count` cells from `head` on. -/
def ringContents (size : Nat) (buf : Nat → α) : (head count : Nat) → List α
  | _, 0 => []
  | head, count + 1 => buf head :: ringContents size buf ((head + 1) % size) count

variable {size head count : Nat} {buf : Nat → α}

@[simp] theorem ringContents_zero : ringContents size buf head 0 = [] := rfl

theorem ringContents_succ :
    ringContents size buf head (count + 1)
      = buf head :: ringContents size buf ((head + 1) % size) count := rfl

@[simp] theorem ringContents_length : (ringContents size buf head count).length = count := by
  induction count generalizing head with
  | zero => rfl
  | succ count ih => rw [ringContents_succ, List.length_cons, ih]

/-- One more cell at the end of the queue. -/
theorem ringContents_snoc (inside : head < size) :
    ringContents size buf head (count + 1)
      = ringContents size buf head count ++ [buf ((head + count) % size)] := by
  induction count generalizing head with
  | zero => simp [ringContents_succ, Nat.mod_eq_of_lt inside]
  | succ count ih =>
    have next : (head + 1) % size < size := Nat.mod_lt _ (by omega)
    have last : ((head + 1) % size + count) % size = (head + (count + 1)) % size := by
      rw [Nat.mod_add_mod, Nat.add_right_comm, Nat.add_assoc]
    rw [ringContents_succ, ih next, last]
    rfl

/-- Writing the cell behind the queue leaves the queue alone, as long as the ring
is larger than the queue. -/
theorem ringContents_update (inside : head < size) (room : count < size) (x : α) :
    ringContents size (update buf ((head + count) % size) x) head count
      = ringContents size buf head count := by
  induction count generalizing head with
  | zero => rfl
  | succ count ih =>
    have next : (head + 1) % size < size := Nat.mod_lt _ (by omega)
    have written : (head + (count + 1)) % size = ((head + 1) % size + count) % size := by
      rw [Nat.mod_add_mod, Nat.add_right_comm, Nat.add_assoc]
    have elsewhere : head ≠ (head + (count + 1)) % size := by
      intro same
      rcases Nat.lt_or_ge (head + (count + 1)) size with below | wrapped
      · rw [Nat.mod_eq_of_lt below] at same
        omega
      · rw [Nat.mod_eq_sub_mod wrapped, Nat.mod_eq_of_lt (by omega)] at same
        omega
    rw [ringContents_succ, ringContents_succ, update_of_ne elsewhere, written,
      ih next (by omega)]

/-! ## Head and tail -/

/-- The cells in use between `head` and `tail`. -/
def ringLen (size head tail : Nat) : Nat := (tail + size - head) % size

/-- The queue between `head` and `tail`. -/
def ringQueue (size : Nat) (buf : Nat → α) (head tail : Nat) : List α :=
  ringContents size buf head (ringLen size head tail)

variable {tail : Nat}

@[simp] theorem ringQueue_self : ringQueue size buf head head = [] := by
  simp [ringQueue, ringLen]

theorem ringLen_eq (headIn : head < size) (tailIn : tail < size) :
    ringLen size head tail = if head ≤ tail then tail - head else tail + size - head := by
  unfold ringLen
  split
  · next ordered =>
      rw [show tail + size - head = tail - head + size by omega, Nat.add_mod_right,
        Nat.mod_eq_of_lt (by omega)]
  · next wrapped => exact Nat.mod_eq_of_lt (by omega)

/-- The next position on the ring. -/
theorem succ_mod_eq (inside : head < size) :
    (head + 1) % size = if head + 1 = size then 0 else head + 1 := by
  split
  · next last => rw [last, Nat.mod_self]
  · next inner => exact Nat.mod_eq_of_lt (by omega)

section

variable (headIn : head < size)
include headIn

theorem ringLen_lt : ringLen size head tail < size :=
  Nat.mod_lt _ (by omega)

theorem ringLen_eq_zero (tailIn : tail < size) : ringLen size head tail = 0 ↔ head = tail := by
  rw [ringLen_eq headIn tailIn]
  split <;> omega

/-- With two free cells a write does not fill the ring. -/
theorem succ_tail_ne_head (tailIn : tail < size) (room : ringLen size head tail + 1 < size) :
    (tail + 1) % size ≠ head := by
  rw [ringLen_eq headIn tailIn] at room
  rw [succ_mod_eq tailIn]
  split_ifs at room ⊢ <;> omega

/-- The tail is the cell after the queue. -/
theorem ring_tail_eq (tailIn : tail < size) :
    tail = (head + ringLen size head tail) % size := by
  rw [ringLen_eq headIn tailIn]
  split
  · next ordered => rw [Nat.add_sub_cancel' ordered, Nat.mod_eq_of_lt tailIn]
  · next wrapped =>
      rw [Nat.add_sub_cancel' (by omega), Nat.add_mod_right, Nat.mod_eq_of_lt tailIn]

theorem ringLen_enqueue (tailIn : tail < size) (room : (tail + 1) % size ≠ head) :
    ringLen size head ((tail + 1) % size) = ringLen size head tail + 1 := by
  have next : (tail + 1) % size < size := Nat.mod_lt _ (by omega)
  rw [ringLen_eq headIn next, ringLen_eq headIn tailIn]
  rw [succ_mod_eq tailIn] at room ⊢
  split_ifs at room ⊢ <;> omega

theorem ringLen_dequeue (tailIn : tail < size) (filled : head ≠ tail) :
    ringLen size head tail = ringLen size ((head + 1) % size) tail + 1 := by
  have next : (head + 1) % size < size := Nat.mod_lt _ (by omega)
  rw [ringLen_eq next tailIn, ringLen_eq headIn tailIn, succ_mod_eq headIn]
  split_ifs <;> omega

/-- Writing the tail cell and moving the tail on appends to the queue. -/
theorem ringQueue_enqueue (tailIn : tail < size) (room : (tail + 1) % size ≠ head) (x : α) :
    ringQueue size (update buf tail x) head ((tail + 1) % size)
      = ringQueue size buf head tail ++ [x] := by
  have written := ring_tail_eq headIn tailIn
  have kept : ringContents size (update buf tail x) head (ringLen size head tail)
      = ringContents size buf head (ringLen size head tail) := by
    nth_rewrite 1 [written]
    exact ringContents_update headIn (ringLen_lt headIn) x
  rw [ringQueue, ringLen_enqueue headIn tailIn room, ringContents_snoc headIn, ← written, kept,
    update_self]
  rfl

/-- Reading the head cell and moving the head on takes the first of the queue. -/
theorem ringQueue_dequeue (tailIn : tail < size) (filled : head ≠ tail) :
    ringQueue size buf head tail = buf head :: ringQueue size buf ((head + 1) % size) tail := by
  rw [ringQueue, ringLen_dequeue headIn tailIn filled, ringContents_succ]
  rfl

end

end OxideOS.Lib
