import Mathlib.Algebra.Ring.Nat
import Mathlib.Logic.Function.Basic
import Mathlib.Tactic.Common

/-!
# Little-endian words in a block of bytes

A block is a function from positions to bytes. `leRead` reads a word of `width`
bytes, lowest byte first, and `leWrite` stores one. A stored word reads back
(`leRead_leWrite`), and everything outside its bytes stays
(`leWrite_outside`, `leRead_leWrite_of_disjoint`). `blit` copies a list of bytes
into a block.
-/

set_option autoImplicit false

namespace OxideOS.Lib

open Function

/-- The word of `width` bytes at `pos`. -/
def leRead (block : Nat → UInt8) (pos : Nat) : (width : Nat) → Nat
  | 0 => 0
  | width + 1 => (block pos).toNat + 256 * leRead block (pos + 1) width

/-- The block with the low `width` bytes of `value` at `pos`. -/
def leWrite (block : Nat → UInt8) (pos : Nat) : (width value : Nat) → Nat → UInt8
  | 0, _ => block
  | width + 1, value =>
    update (leWrite block (pos + 1) width (value / 256)) pos (UInt8.ofNat value)

variable {block other : Nat → UInt8} {pos at' width width' value i : Nat}

theorem leRead_succ :
    leRead block pos (width + 1) = (block pos).toNat + 256 * leRead block (pos + 1) width := rfl

theorem leWrite_succ : leWrite block pos (width + 1) value =
    update (leWrite block (pos + 1) width (value / 256)) pos (UInt8.ofNat value) := rfl

/-- A word only depends on its own bytes. -/
theorem leRead_congr (same : ∀ i, pos ≤ i → i < pos + width → block i = other i) :
    leRead block pos width = leRead other pos width := by
  induction width generalizing pos with
  | zero => rfl
  | succ width ih =>
    rw [leRead_succ, leRead_succ, same pos (Nat.le_refl _) (by omega),
      ih fun i lower upper => same i (by omega) (by omega)]

theorem leWrite_outside (outside : i < pos ∨ pos + width ≤ i) :
    leWrite block pos width value i = block i := by
  induction width generalizing pos value with
  | zero => rfl
  | succ width ih =>
    rw [leWrite_succ, update_of_ne (by omega), ih (by omega)]

/-- What is stored at a position depends on the block there only. -/
theorem leWrite_congr (same : block i = other i) :
    leWrite block pos width value i = leWrite other pos width value i := by
  induction width generalizing pos value with
  | zero => exact same
  | succ width ih =>
    rw [leWrite_succ, leWrite_succ]
    by_cases here : i = pos
    · rw [here, update_self, update_self]
    · rw [update_of_ne here, update_of_ne here, ih]

theorem leRead_leWrite (fits : value < 256 ^ width) :
    leRead (leWrite block pos width value) pos width = value := by
  induction width generalizing pos value with
  | zero =>
    rw [Nat.pow_zero] at fits
    show 0 = value
    omega
  | succ width ih =>
    have rest : leRead (leWrite block pos (width + 1) value) (pos + 1) width = value / 256 := by
      have quotient : value / 256 < 256 ^ width := by
        rw [Nat.pow_succ] at fits
        omega
      refine Eq.trans (leRead_congr fun i lower _ => ?_) (ih quotient)
      rw [leWrite_succ, update_of_ne (by omega)]
    rw [leRead_succ, rest, leWrite_succ, update_self, UInt8.toNat_ofNat']
    omega

theorem leRead_leWrite_of_disjoint (disjoint : at' + width' ≤ pos ∨ pos + width ≤ at') :
    leRead (leWrite block pos width value) at' width' = leRead block at' width' := by
  refine leRead_congr fun i lower upper => ?_
  exact leWrite_outside (by omega)

/-! ## Runs of bytes -/

/-- The block with `bytes` at `pos`. -/
def blit (block : Nat → UInt8) (pos : Nat) (bytes : List UInt8) : Nat → UInt8 := fun i =>
  if pos ≤ i ∧ i < pos + bytes.length then bytes.getD (i - pos) 0 else block i

end OxideOS.Lib
