import Mathlib.Algebra.Order.Ring.Nat
import Mathlib.Tactic.Common

/-!
# Bytes of a word

`getByte` and `setByte` read and replace one byte of a word in little-endian
order. Replacing a byte is seen at that byte and nowhere else
(`getByte_setByte_self`, `getByte_setByte_of_ne`).
-/

set_option autoImplicit false

namespace OxideOS.Lib

/-- Byte `k` of the word `w`. -/
def getByte (w k : Nat) : Nat := w / 256 ^ k % 256

/-- The word `w` with byte `k` replaced by `b`. -/
def setByte (w k b : Nat) : Nat :=
  (w / 256 ^ (k + 1) * 256 + b) * 256 ^ k + w % 256 ^ k

variable {w k j b : Nat}

theorem setByte_div (w k b : Nat) : setByte w k b / 256 ^ k = w / 256 ^ (k + 1) * 256 + b := by
  have positive : 0 < 256 ^ k := Nat.pow_pos (by decide)
  rw [setByte, Nat.mul_comm, Nat.mul_add_div positive,
    Nat.div_eq_of_lt (Nat.mod_lt _ positive), Nat.add_zero]

theorem setByte_mod (w k b : Nat) : setByte w k b % 256 ^ k = w % 256 ^ k := by
  rw [setByte, Nat.mul_comm, Nat.mul_add_mod, Nat.mod_mod]

/-- The replaced byte reads back. -/
theorem getByte_setByte_self (byte : b < 256) : getByte (setByte w k b) k = b := by
  rw [getByte, setByte_div]
  omega

/-- Bytes below `k` are determined by the word modulo `256 ^ k`. -/
theorem getByte_mod (below : j < k) (x : Nat) : getByte (x % 256 ^ k) j = getByte x j := by
  obtain ⟨m, rfl⟩ : ∃ m, k = j + (m + 1) := ⟨k - j - 1, by omega⟩
  rw [getByte, getByte, Nat.pow_add, Nat.mod_mul_right_div_self]
  exact Nat.mod_mod_of_dvd _ (Dvd.intro_left (256 ^ m) (Nat.pow_succ 256 m).symm)

/-- Bytes above `k` are determined by the quotient by `256 ^ (k + 1)`. -/
theorem getByte_div (above : k < j) (x : Nat) :
    getByte x j = getByte (x / 256 ^ (k + 1)) (j - (k + 1)) := by
  rw [getByte, getByte, Nat.div_div_eq_div_mul, ← Nat.pow_add, Nat.add_sub_cancel' above]

/-- The other bytes are untouched. -/
theorem getByte_setByte_of_ne (byte : b < 256) (other : j ≠ k) :
    getByte (setByte w k b) j = getByte w j := by
  rcases Nat.lt_or_gt_of_ne other with below | above
  · rw [← getByte_mod below, setByte_mod, getByte_mod below]
  · have quotient : setByte w k b / 256 ^ (k + 1) = w / 256 ^ (k + 1) := by
      rw [Nat.pow_succ, ← Nat.div_div_eq_div_mul, setByte_div, Nat.pow_succ]
      omega
    rw [getByte_div above, quotient, ← getByte_div above]

end OxideOS.Lib
