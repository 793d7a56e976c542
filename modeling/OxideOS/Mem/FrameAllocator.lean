import Mathlib.Algebra.Ring.Nat
import Mathlib.Logic.Function.Basic
import OxideOS.Lib.Table

/-!
# The physical frame allocator

`PhysicalFrameAllocator` hands out 4 KiB frames of the first 256 MiB of physical
memory. A bitmap records which of the 65536 frames are in use and a sixteen-bit
counter per frame records how many references it has: `allocateFrame` searches
the bitmap circularly from `nextFrame` and gives the frame one reference,
`incRefcount` adds one (saturating), and `freeFrame` drops one and gives the
frame back when none is left.

Each operation has one lemma that says what it does to bitmap, counters and
`allocatedFrames`; nothing outside this module unfolds the operations.
-/

set_option autoImplicit false

namespace OxideOS.Mem

open Function Lib

/-- The allocator's state. `bitmap f` is `true` when frame `f` is in use. -/
structure PhysicalFrameAllocator where
  bitmap : Nat → Bool
  refcount : Nat → Nat
  nextFrame : Nat
  totalFrames : Nat
  allocatedFrames : Nat

namespace PhysicalFrameAllocator

def markFree (fa : PhysicalFrameAllocator) (frame : Nat) : PhysicalFrameAllocator :=
  if frame < 65536 then { fa with bitmap := update fa.bitmap frame false } else fa

def markUsed (fa : PhysicalFrameAllocator) (frame : Nat) : PhysicalFrameAllocator :=
  if frame < 65536 then { fa with bitmap := update fa.bitmap frame true } else fa

def isFree (fa : PhysicalFrameAllocator) (frame : Nat) : Bool :=
  decide (frame < 65536) && !fa.bitmap frame

/-- The first free frame among `start + off`, `start + off + 1`, … modulo 65536,
looking at `count` of them. -/
def scan (fa : PhysicalFrameAllocator) (start : Nat) : (off count : Nat) → Option Nat
  | _, 0 => none
  | off, count + 1 =>
    if fa.isFree ((start + off) % 65536) then some ((start + off) % 65536)
    else scan fa start (off + 1) count

def allocateFrame (fa : PhysicalFrameAllocator) : Option (Nat × PhysicalFrameAllocator) :=
  match fa.scan fa.nextFrame 0 fa.totalFrames with
  | none => none
  | some frame =>
    let fa := fa.markUsed frame
    some (frame * 4096,
      { fa with
        refcount := update fa.refcount frame 1
        nextFrame := (frame + 1) % 65536
        allocatedFrames := (fa.allocatedFrames + 1) % 2 ^ 64 })

/-- Drop one reference to the frame at `addr`; the frame is given back when the
counter reaches zero. The atomic decrement of `allocatedFrames` wraps. -/
def freeFrame (fa : PhysicalFrameAllocator) (addr : Nat) : PhysicalFrameAllocator :=
  let frame := addr / 4096
  if frame < 65536 then
    let fa := { fa with refcount := update fa.refcount frame (fa.refcount frame - 1) }
    if fa.refcount frame = 0 then
      let fa := fa.markFree frame
      { fa with allocatedFrames := (fa.allocatedFrames + (2 ^ 64 - 1)) % 2 ^ 64 }
    else fa
  else fa

def incRefcount (fa : PhysicalFrameAllocator) (addr : Nat) : PhysicalFrameAllocator :=
  let frame := addr / 4096
  if frame < 65536 then
    { fa with refcount := update fa.refcount frame (min (fa.refcount frame + 1) 65535) }
  else fa

def getRefcount (fa : PhysicalFrameAllocator) (addr : Nat) : Nat :=
  let frame := addr / 4096
  if frame < 65536 then fa.refcount frame else 0

/-! ## What the operations do -/

section Specifications

variable {fa fa' : PhysicalFrameAllocator}

theorem isFree_iff {frame : Nat} :
    fa.isFree frame = true ↔ frame < 65536 ∧ fa.bitmap frame = false := by
  simp [isFree]

/-- The search is for the first offset at which a frame is free. -/
theorem scan_eq (start off count : Nat) : fa.scan start off count =
    (firstFrom (fun k => fa.isFree ((start + k) % 65536)) off count).map
      fun k => (start + k) % 65536 := by
  induction count generalizing off with
  | zero => rfl
  | succ count ih =>
    rw [scan, firstFrom]
    split
    · rfl
    · exact ih (off + 1)

/-- A successful allocation takes a frame that was free, marks it used with one
reference and counts it. -/
theorem allocateFrame_some {a : Nat} (allocated : fa.allocateFrame = some (a, fa')) :
    ∃ frame, a = frame * 4096 ∧ frame < 65536 ∧ fa.bitmap frame = false ∧
      fa'.bitmap = update fa.bitmap frame true ∧
      fa'.refcount = update fa.refcount frame 1 ∧
      fa'.totalFrames = fa.totalFrames ∧
      fa'.allocatedFrames = (fa.allocatedFrames + 1) % 2 ^ 64 := by
  unfold allocateFrame at allocated
  split at allocated
  · cases allocated
  · next frame found =>
      rw [scan_eq] at found
      obtain ⟨k, first, rfl⟩ := Option.map_eq_some_iff.mp found
      obtain ⟨bound, free⟩ := isFree_iff.mp (firstFrom_eq_some first).2.2.1
      cases allocated
      refine ⟨_, rfl, bound, free, ?_⟩
      simp [markUsed, bound]

theorem freeFrame_refcount {f : Nat} (bound : f < 65536) :
    (fa.freeFrame (f * 4096)).refcount = update fa.refcount f (fa.refcount f - 1) := by
  have frame : f * 4096 / 4096 = f := Nat.mul_div_cancel f (by decide)
  simp only [freeFrame, frame, bound, if_true, markFree]
  split <;> rfl

theorem freeFrame_bitmap {f : Nat} (bound : f < 65536) :
    (fa.freeFrame (f * 4096)).bitmap =
      if fa.refcount f ≤ 1 then update fa.bitmap f false else fa.bitmap := by
  have frame : f * 4096 / 4096 = f := Nat.mul_div_cancel f (by decide)
  simp only [freeFrame, frame, bound, if_true, markFree, update_self,
    Nat.sub_eq_zero_iff_le]
  split <;> rfl

theorem freeFrame_allocatedFrames {f : Nat} (bound : f < 65536) :
    (fa.freeFrame (f * 4096)).allocatedFrames =
      if fa.refcount f ≤ 1 then (fa.allocatedFrames + (2 ^ 64 - 1)) % 2 ^ 64
      else fa.allocatedFrames := by
  have frame : f * 4096 / 4096 = f := Nat.mul_div_cancel f (by decide)
  simp only [freeFrame, frame, bound, if_true, markFree, update_self,
    Nat.sub_eq_zero_iff_le]
  split <;> rfl

theorem incRefcount_refcount {f : Nat} (bound : f < 65536) :
    (fa.incRefcount (f * 4096)).refcount =
      update fa.refcount f (min (fa.refcount f + 1) 65535) := by
  have frame : f * 4096 / 4096 = f := Nat.mul_div_cancel f (by decide)
  simp only [incRefcount, frame, bound, if_true]

@[simp] theorem incRefcount_bitmap (a : Nat) : (fa.incRefcount a).bitmap = fa.bitmap := by
  unfold incRefcount
  dsimp only
  split <;> rfl

@[simp] theorem incRefcount_allocatedFrames (a : Nat) :
    (fa.incRefcount a).allocatedFrames = fa.allocatedFrames := by
  unfold incRefcount
  dsimp only
  split <;> rfl

theorem getRefcount_frame {f : Nat} (bound : f < 65536) :
    fa.getRefcount (f * 4096) = fa.refcount f := by
  have frame : f * 4096 / 4096 = f := Nat.mul_div_cancel f (by decide)
  simp only [getRefcount, frame, bound, if_true]

end Specifications

end PhysicalFrameAllocator

end OxideOS.Mem
