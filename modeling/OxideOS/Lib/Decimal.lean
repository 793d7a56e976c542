import Mathlib.Algebra.Ring.Nat
import Mathlib.Tactic.Common

/-!
# Decimal numerals

A number of 32 bits is written as decimal digits, from the last digit to the
first, and read back digit by digit with arithmetic modulo `2 ^ 32`.
-/

set_option autoImplicit false

namespace OxideOS.Lib

/-- The digits of `n` in front of `acc`; `room` is the number of digits there is
space for. -/
def digitsBefore : (room n : Nat) → (acc : List UInt8) → List UInt8
  | 0, _, acc => acc
  | room + 1, n, acc =>
    if n = 0 then acc else digitsBefore room (n / 10) (.ofNat (48 + n % 10) :: acc)

theorem digitsBefore_succ (room n : Nat) (acc : List UInt8) : digitsBefore (room + 1) n acc =
    if n = 0 then acc else digitsBefore room (n / 10) (.ofNat (48 + n % 10) :: acc) := rfl

/-- The numeral of a number; ten digits are enough for 32 bits. -/
def decimal (n : UInt32) : List UInt8 := if n = 0 then [48] else digitsBefore 10 n.toNat []

/-- One more digit, if it is one. -/
def readDigit (value : UInt32) (c : UInt8) : Option UInt32 :=
  if c < 48 ∨ 57 < c then none else some (value * 10 + (c - 48).toUInt32)

def readDigits : UInt32 → List UInt8 → Option UInt32
  | value, [] => some value
  | value, c :: rest =>
    match readDigit value c with
    | none => none
    | some value => readDigits value rest

def readDecimal (text : List UInt8) : Option UInt32 := if text = [] then none else readDigits 0 text

/-- The characters of the ten digits. -/
theorem digit_range : ∀ d < 10, (48 : UInt8) ≤ .ofNat (48 + d) ∧ UInt8.ofNat (48 + d) ≤ 57 := by
  decide

theorem digit_value : ∀ d < 10, (UInt8.ofNat (48 + d) - 48).toUInt32 = .ofNat d := by decide

theorem readDigit_ofNat (value d : Nat) (digit : d < 10) :
    readDigit (.ofNat value) (.ofNat (48 + d)) = some (.ofNat (value * 10 + d)) := by
  have inside : ¬ (UInt8.ofNat (48 + d) < 48 ∨ 57 < UInt8.ofNat (48 + d)) := by
    rw [not_or, UInt8.not_lt, UInt8.not_lt]
    exact digit_range d digit
  rw [readDigit, if_neg inside, digit_value d digit, UInt32.ofNat_add, UInt32.ofNat_mul]
  rfl

theorem readDigits_digitsBefore {room n : Nat} {acc : List UInt8} (fits : n < 10 ^ room) :
    readDigits 0 (digitsBefore room n acc) = readDigits (.ofNat n) acc := by
  induction room generalizing n acc with
  | zero =>
    rw [Nat.pow_zero] at fits
    have none : n = 0 := by omega
    rw [none]
    rfl
  | succ room ih =>
    rw [digitsBefore_succ]
    split
    · next none =>
        rw [none]
        rfl
    · have quotient : n / 10 < 10 ^ room := by
        rw [Nat.pow_succ] at fits
        omega
      rw [ih quotient, readDigits, readDigit_ofNat _ _ (Nat.mod_lt _ (by decide)),
        Nat.div_add_mod']

theorem digitsBefore_digit {room n : Nat} {acc : List UInt8} (digits : ∀ c ∈ acc, 48 ≤ c ∧ c ≤ 57) :
    ∀ c ∈ digitsBefore room n acc, 48 ≤ c ∧ c ≤ 57 := by
  induction room generalizing n acc with
  | zero => exact digits
  | succ room ih =>
    rw [digitsBefore_succ]
    split
    · exact digits
    · refine ih fun c member => ?_
      rcases List.mem_cons.mp member with rfl | later
      · exact digit_range (n % 10) (Nat.mod_lt _ (by decide))
      · exact digits c later

theorem digitsBefore_ne_nil {room n : Nat} {acc : List UInt8} (filled : acc ≠ []) :
    digitsBefore room n acc ≠ [] := by
  induction room generalizing n acc with
  | zero => exact filled
  | succ room ih =>
    rw [digitsBefore_succ]
    split
    · exact filled
    · exact ih (List.cons_ne_nil _ _)

theorem decimal_ne_nil (n : UInt32) : decimal n ≠ [] := by
  unfold decimal
  split
  · exact List.cons_ne_nil _ _
  · next positive =>
      have : n.toNat ≠ 0 := fun zero => positive (UInt32.toNat_inj.mp zero)
      rw [digitsBefore_succ, if_neg this]
      exact digitsBefore_ne_nil (List.cons_ne_nil _ _)

theorem decimal_digit (n : UInt32) : ∀ c ∈ decimal n, 48 ≤ c ∧ c ≤ 57 := by
  unfold decimal
  split
  · intro c member
    rw [List.mem_singleton.mp member]
    decide
  · exact digitsBefore_digit (by simp)

/-- A numeral reads back. -/
theorem readDecimal_decimal (n : UInt32) : readDecimal (decimal n) = some n := by
  rw [readDecimal, if_neg (decimal_ne_nil n)]
  unfold decimal
  split
  · next zero =>
      rw [zero]
      rfl
  · have fits : n.toNat < 10 ^ 10 := Nat.lt_trans n.toNat_lt (by decide)
    rw [readDigits_digitsBefore fits, UInt32.ofNat_toNat]
    rfl

theorem decimal_inj {m n : UInt32} (same : decimal m = decimal n) : m = n := by
  have read := readDecimal_decimal m
  rw [same, readDecimal_decimal n] at read
  exact (Option.some.inj read).symm

theorem digitsBefore_length {room n : Nat} {acc : List UInt8} :
    (digitsBefore room n acc).length ≤ room + acc.length := by
  induction room generalizing n acc with
  | zero => exact Nat.le_add_left _ _
  | succ room ih =>
    rw [digitsBefore_succ]
    split
    · omega
    · have shorter := @ih (n / 10) (.ofNat (48 + n % 10) :: acc)
      rw [List.length_cons] at shorter
      omega

theorem decimal_length (n : UInt32) : (decimal n).length ≤ 10 := by
  unfold decimal
  split
  · simp
  · simpa using @digitsBefore_length 10 n.toNat []

end OxideOS.Lib
