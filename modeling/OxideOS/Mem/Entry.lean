import Mathlib.Data.Nat.Bitwise
import Mathlib.Tactic.Common

/-!
# Page-table entries and their flags

An entry is a 64-bit word: a page-aligned physical address in bits 12–51 and
flags in the low twelve bits. `PageTableFlags` and `PageTableEntry` are the
operations of the paging allocator on such words, written on `Nat`.

The lemmas of the second half read an entry that one of the two constructors
(`PageTableEntry.set`, and `PageTableEntry.withFlags` for the raw `addr | flags`
of the fork and fault paths) has just built: its frame is the frame it was given
(`frameOf_set`, `frameOf_withFlags`) and its flag bits are the bits of the flags.
-/

set_option autoImplicit false

namespace OxideOS.Mem

/-- Bitwise complement of a 64-bit word. -/
def not64 (x : Nat) : Nat := 0xFFFFFFFFFFFFFFFF ^^^ x

namespace PageTableFlags

def present : Nat := 1 <<< 0
def writable : Nat := 1 <<< 1
def user : Nat := 1 <<< 2
/-- The software-defined copy-on-write marker, one of the bits the MMU ignores. -/
def cow : Nat := 1 <<< 9
def noExecute : Nat := 1 <<< 63

def userFlags (isWritable executable : Bool) : Nat :=
  let f := present ||| user
  let f := if isWritable then f ||| writable else f
  if executable then f else f ||| noExecute

/-- Flags of the entries above a leaf: always present and writable, and open to
user mode when the leaf is. -/
def parentTableFlags (f : Nat) : Nat :=
  if f &&& user ≠ 0 then (present ||| writable) ||| user else present ||| writable

def merge (f other : Nat) : Nat := f ||| other

def isWritable (f : Nat) : Bool := f &&& writable != 0
def isCow (f : Nat) : Bool := f &&& cow != 0

/-- Clear WRITABLE and set the COW marker. -/
def asCow (f : Nat) : Nat := (f &&& not64 writable) ||| cow

/-- Clear the COW marker and set WRITABLE. -/
def asWritableNoCow (f : Nat) : Nat := (f ||| writable) &&& not64 cow

end PageTableFlags

namespace PageTableEntry

def addrMask : Nat := 0x000FFFFFFFFFF000

def isPresent (e : Nat) : Bool := e &&& PageTableFlags.present != 0
/-- The page-size bit, which turns an L3 or L2 entry into a huge page. -/
def isHuge (e : Nat) : Bool := e &&& (1 <<< 7) != 0
/-- The bit that opens an entry to user mode. -/
def isUser (e : Nat) : Bool := e &&& PageTableFlags.user != 0
def flags (e : Nat) : Nat := e &&& 0xFFF
def addr (e : Nat) : Nat := e &&& addrMask
def set (a f : Nat) : Nat := (a &&& addrMask) ||| (f &&& 0xFFF)
/-- An entry composed without masking the address. -/
def withFlags (a f : Nat) : Nat := a ||| (f &&& 0xFFF)

/-- The number of the frame an entry points to. -/
def frameOf (e : Nat) : Nat := addr e / 4096

end PageTableEntry

open PageTableFlags PageTableEntry

/-! ## Flag tests as bit tests -/

section Bits

theorem and_two_pow_bne_zero (e k : Nat) : (e &&& 2 ^ k != 0) = e.testBit k := by
  rw [Nat.and_two_pow]
  cases e.testBit k <;> simp

theorem isPresent_eq_testBit (e : Nat) : isPresent e = e.testBit 0 := and_two_pow_bne_zero e 0
theorem isWritable_eq_testBit (e : Nat) : isWritable e = e.testBit 1 := and_two_pow_bne_zero e 1
theorem isUser_eq_testBit (e : Nat) : isUser e = e.testBit 2 := and_two_pow_bne_zero e 2
theorem isHuge_eq_testBit (e : Nat) : isHuge e = e.testBit 7 := and_two_pow_bne_zero e 7
theorem isCow_eq_testBit (e : Nat) : isCow e = e.testBit 9 := and_two_pow_bne_zero e 9

theorem addrMask_eq : addrMask = (2 ^ 40 - 1) <<< 12 := by decide

theorem testBit_addrMask_low {k : Nat} (low : k < 12) : addrMask.testBit k = false := by
  rw [addrMask_eq, Nat.testBit_shiftLeft]
  simp [Nat.not_le.mpr low]

theorem testBit_flagMask_low {k : Nat} (low : k < 12) : (0xFFF : Nat).testBit k = true := by
  have mask : (0xFFF : Nat) = 2 ^ 12 - 1 := by decide
  rw [mask, Nat.testBit_two_pow_sub_one]
  simpa using low

/-- A page-aligned address has no flag bits. -/
theorem testBit_frame_low (f : Nat) {k : Nat} (low : k < 12) : (f * 4096).testBit k = false := by
  have shifted : f * 4096 = f <<< 12 := by rw [Nat.shiftLeft_eq]
  rw [shifted, Nat.testBit_shiftLeft]
  simp [Nat.not_le.mpr low]

theorem testBit_flags {e k : Nat} (low : k < 12) : (flags e).testBit k = e.testBit k := by
  rw [flags, Nat.testBit_and, testBit_flagMask_low low, Bool.and_true]

theorem testBit_set {a f k : Nat} (low : k < 12) : (set a f).testBit k = f.testBit k := by
  rw [PageTableEntry.set, Nat.testBit_or, Nat.testBit_and, Nat.testBit_and,
    testBit_addrMask_low low,
    testBit_flagMask_low low]
  simp

theorem testBit_withFlags {g f k : Nat} (low : k < 12) :
    (withFlags (g * 4096) f).testBit k = f.testBit k := by
  rw [withFlags, Nat.testBit_or, Nat.testBit_and, testBit_frame_low g low,
    testBit_flagMask_low low]
  simp

theorem testBit_not64 {x k : Nat} (low : k < 64) : (not64 x).testBit k = !x.testBit k := by
  have ones : (0xFFFFFFFFFFFFFFFF : Nat) = 2 ^ 64 - 1 := by decide
  rw [not64, Nat.testBit_xor, ones, Nat.testBit_two_pow_sub_one]
  simp [low]

end Bits

/-! ## The frame of an entry -/

section Frames

theorem and_addrMask_frame {f : Nat} (small : f < 2 ^ 40) : f * 4096 &&& addrMask = f * 4096 := by
  have shifted : f * 4096 = f <<< 12 := by rw [Nat.shiftLeft_eq]
  rw [shifted, addrMask_eq, ← Nat.shiftLeft_and_distrib, Nat.and_two_pow_sub_one_eq_mod,
    Nat.mod_eq_of_lt small]

theorem flagMask_and_addrMask : (0xFFF : Nat) &&& addrMask = 0 := by decide

/-- The address of an entry is its frame number times the page size. -/
theorem addr_eq_frame (e : Nat) : addr e = frameOf e * 4096 := by
  have low : addr e % 4096 = 0 := by
    have pow : (4096 : Nat) = 2 ^ 12 := by decide
    rw [pow, ← Nat.and_two_pow_sub_one_eq_mod, addr, Nat.and_assoc]
    have : addrMask &&& (2 ^ 12 - 1) = 0 := by decide
    rw [this, Nat.and_zero]
  rw [frameOf]
  omega

theorem frameOf_lt (e : Nat) : frameOf e < 2 ^ 40 := by
  have bound : addr e ≤ addrMask := Nat.and_le_right
  rw [frameOf]
  simp only [addrMask] at bound
  omega

theorem addr_withFlags {g : Nat} (small : g < 2 ^ 40) (f : Nat) :
    addr (withFlags (g * 4096) f) = g * 4096 := by
  rw [addr, withFlags, Nat.and_or_distrib_right, and_addrMask_frame small, Nat.and_assoc,
    flagMask_and_addrMask, Nat.and_zero, Nat.or_zero]

theorem set_frame {g : Nat} (small : g < 2 ^ 40) (f : Nat) :
    set (g * 4096) f = withFlags (g * 4096) f := by
  rw [PageTableEntry.set, withFlags, and_addrMask_frame small]

theorem frameOf_withFlags {g : Nat} (small : g < 2 ^ 40) (f : Nat) :
    frameOf (withFlags (g * 4096) f) = g := by
  rw [frameOf, addr_withFlags small, Nat.mul_div_cancel g (by decide)]

theorem frameOf_set {g : Nat} (small : g < 2 ^ 40) (f : Nat) : frameOf (set (g * 4096) f) = g := by
  rw [set_frame small, frameOf_withFlags small]

end Frames

/-! ## Flags of an entry just built -/

section BuiltEntries

variable {a g f e : Nat}

@[simp] theorem isPresent_zero : isPresent 0 = false := by decide

@[simp] theorem isPresent_set : isPresent (set a f) = isPresent f := by
  simp only [isPresent_eq_testBit, testBit_set (by decide : 0 < 12)]

@[simp] theorem isWritable_set : isWritable (set a f) = isWritable f := by
  simp only [isWritable_eq_testBit, testBit_set (by decide : 1 < 12)]

@[simp] theorem isUser_set : isUser (set a f) = isUser f := by
  simp only [isUser_eq_testBit, testBit_set (by decide : 2 < 12)]

@[simp] theorem isHuge_set : isHuge (set a f) = isHuge f := by
  simp only [isHuge_eq_testBit, testBit_set (by decide : 7 < 12)]

@[simp] theorem isCow_set : isCow (set a f) = isCow f := by
  simp only [isCow_eq_testBit, testBit_set (by decide : 9 < 12)]

@[simp] theorem isPresent_withFlags : isPresent (withFlags (g * 4096) f) = isPresent f := by
  simp only [isPresent_eq_testBit, testBit_withFlags (by decide : 0 < 12)]

@[simp] theorem isWritable_withFlags : isWritable (withFlags (g * 4096) f) = isWritable f := by
  simp only [isWritable_eq_testBit, testBit_withFlags (by decide : 1 < 12)]

@[simp] theorem isUser_withFlags : isUser (withFlags (g * 4096) f) = isUser f := by
  simp only [isUser_eq_testBit, testBit_withFlags (by decide : 2 < 12)]

@[simp] theorem isHuge_withFlags : isHuge (withFlags (g * 4096) f) = isHuge f := by
  simp only [isHuge_eq_testBit, testBit_withFlags (by decide : 7 < 12)]

@[simp] theorem isCow_withFlags : isCow (withFlags (g * 4096) f) = isCow f := by
  simp only [isCow_eq_testBit, testBit_withFlags (by decide : 9 < 12)]

@[simp] theorem isPresent_flags : isPresent (flags e) = isPresent e := by
  simp only [isPresent_eq_testBit, testBit_flags (by decide : 0 < 12)]

@[simp] theorem isWritable_flags : isWritable (flags e) = isWritable e := by
  simp only [isWritable_eq_testBit, testBit_flags (by decide : 1 < 12)]

@[simp] theorem isUser_flags : isUser (flags e) = isUser e := by
  simp only [isUser_eq_testBit, testBit_flags (by decide : 2 < 12)]

@[simp] theorem isHuge_flags : isHuge (flags e) = isHuge e := by
  simp only [isHuge_eq_testBit, testBit_flags (by decide : 7 < 12)]

@[simp] theorem isCow_flags : isCow (flags e) = isCow e := by
  simp only [isCow_eq_testBit, testBit_flags (by decide : 9 < 12)]

end BuiltEntries

/-! ## Flags derived from flags -/

section DerivedFlags

variable (f other : Nat)

@[simp] theorem isPresent_merge : isPresent (merge f other) = (isPresent f || isPresent other) := by
  simp only [isPresent_eq_testBit, merge, Nat.testBit_or]

@[simp] theorem isUser_merge : isUser (merge f other) = (isUser f || isUser other) := by
  simp only [isUser_eq_testBit, merge, Nat.testBit_or]

@[simp] theorem isWritable_merge :
    isWritable (merge f other) = (isWritable f || isWritable other) := by
  simp only [isWritable_eq_testBit, merge, Nat.testBit_or]

@[simp] theorem isHuge_merge : isHuge (merge f other) = (isHuge f || isHuge other) := by
  simp only [isHuge_eq_testBit, merge, Nat.testBit_or]

@[simp] theorem isPresent_parentTableFlags : isPresent (parentTableFlags f) = true := by
  unfold parentTableFlags
  split <;> decide

@[simp] theorem isPresent_userFlags (w x : Bool) : isPresent (userFlags w x) = true := by
  cases w <;> cases x <;> decide

@[simp] theorem isUser_userFlags (w x : Bool) : isUser (userFlags w x) = true := by
  cases w <;> cases x <;> decide

@[simp] theorem isWritable_userFlags (w x : Bool) : isWritable (userFlags w x) = w := by
  cases w <;> cases x <;> decide

@[simp] theorem isCow_userFlags (w x : Bool) : isCow (userFlags w x) = false := by
  cases w <;> cases x <;> decide

theorem testBit_asCow {k : Nat} (low : k < 64) :
    (asCow f).testBit k = (f.testBit k && !writable.testBit k || cow.testBit k) := by
  rw [asCow, Nat.testBit_or, Nat.testBit_and, testBit_not64 low]

theorem testBit_asWritableNoCow {k : Nat} (low : k < 64) :
    (asWritableNoCow f).testBit k = ((f.testBit k || writable.testBit k) && !cow.testBit k) := by
  rw [asWritableNoCow, Nat.testBit_and, Nat.testBit_or, testBit_not64 low]

@[simp] theorem isPresent_asCow : isPresent (asCow f) = isPresent f := by
  rw [isPresent_eq_testBit, isPresent_eq_testBit, testBit_asCow f (by decide)]
  have bits : writable.testBit 0 = false ∧ cow.testBit 0 = false := by decide
  simp [bits]

@[simp] theorem isWritable_asCow : isWritable (asCow f) = false := by
  rw [isWritable_eq_testBit, testBit_asCow f (by decide)]
  have bits : writable.testBit 1 = true ∧ cow.testBit 1 = false := by decide
  simp [bits]

@[simp] theorem isCow_asCow : isCow (asCow f) = true := by
  rw [isCow_eq_testBit, testBit_asCow f (by decide)]
  have bits : cow.testBit 9 = true := by decide
  simp [bits]

@[simp] theorem isUser_asCow : isUser (asCow f) = isUser f := by
  rw [isUser_eq_testBit, isUser_eq_testBit, testBit_asCow f (by decide)]
  have bits : writable.testBit 2 = false ∧ cow.testBit 2 = false := by decide
  simp [bits]

@[simp] theorem isPresent_asWritableNoCow : isPresent (asWritableNoCow f) = isPresent f := by
  rw [isPresent_eq_testBit, isPresent_eq_testBit, testBit_asWritableNoCow f (by decide)]
  have bits : writable.testBit 0 = false ∧ cow.testBit 0 = false := by decide
  simp [bits]

@[simp] theorem isWritable_asWritableNoCow : isWritable (asWritableNoCow f) = true := by
  rw [isWritable_eq_testBit, testBit_asWritableNoCow f (by decide)]
  have bits : writable.testBit 1 = true ∧ cow.testBit 1 = false := by decide
  simp [bits]

@[simp] theorem isCow_asWritableNoCow : isCow (asWritableNoCow f) = false := by
  rw [isCow_eq_testBit, testBit_asWritableNoCow f (by decide)]
  have bits : cow.testBit 9 = true := by decide
  simp [bits]

@[simp] theorem isUser_asWritableNoCow : isUser (asWritableNoCow f) = isUser f := by
  rw [isUser_eq_testBit, isUser_eq_testBit, testBit_asWritableNoCow f (by decide)]
  have bits : writable.testBit 2 = false ∧ cow.testBit 2 = false := by decide
  simp [bits]

end DerivedFlags

end OxideOS.Mem
