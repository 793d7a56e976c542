import Mathlib.Data.List.TakeWhile

/-!
# Text

Characters as the library of the source language treats them: decoding of UTF-8, and
removal of white space at both ends.
-/

set_option autoImplicit false

namespace OxideOS.Lib

def fromUtf8 (s : List UInt8) : Option (List Char) :=
  (String.fromUTF8? ⟨s.toArray⟩).map String.toList

/-- The characters with the property White_Space. -/
def isWhitespace (c : Char) : Bool :=
  let n := c.toNat
  decide (9 ≤ n ∧ n ≤ 13) || n == 0x20 || n == 0x85 || n == 0xA0 || n == 0x1680 ||
    decide (0x2000 ≤ n ∧ n ≤ 0x200A) || n == 0x2028 || n == 0x2029 || n == 0x202F ||
    n == 0x205F || n == 0x3000

def trim (s : List Char) : List Char :=
  ((s.dropWhile isWhitespace).reverse.dropWhile isWhitespace).reverse

theorem trim_cons_ne_nil {c : Char} (ink : isWhitespace c = false) (rest : List Char) :
    trim (c :: rest) ≠ [] := by
  intro empty
  rw [trim, List.dropWhile_cons_of_neg (by rw [ink]; decide), List.reverse_eq_nil_iff,
    List.dropWhile_eq_nil_iff] at empty
  have blank := empty c (by simp)
  rw [ink] at blank
  cases blank

end OxideOS.Lib
