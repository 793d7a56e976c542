import OxideOS.Lib.Run
import OxideOS.Mem.Exhaustion
import OxideOS.Mem.SharedFrames

/-!
# The frame allocator from the memory map on

`init` marks the frames of the usable regions of the memory map as free, from 32 MB
on, and takes the tables of the boot page table out again. What it remembers of the
regions beside the bitmap is how many frames there are: `allocateFrame` looks at as
many frames as that, from `nextFrame` on and around, wherever the free ones are.

After every history the allocator hands out frames of usable regions only and counts
them. It finds a frame as long as there is one exactly if one is in sight from the frame
handed out last, which with every history is so only for maps without frames to hand out
or with regions that overlap (`run_answers`): of a full allocator that gets its last frame
back, the next search stops just before that frame. `init_out_of_reach` is a memory map
with which not even the first frame is found.

`allocPhysFrames` takes several frames one after the other for one segment. They are
`n` frames in a row exactly when the first free frame in reach is the first of `n`
(`allocPhysFrames_row_iff`).
-/

set_option autoImplicit false

namespace OxideOS.Mem

open Lib Function
open Prog hiding update

/-! ## The memory map -/

/-- An entry of the memory map. -/
structure MemoryMapEntry where
  base : Nat
  length : Nat
  usable : Bool

variable {fa : PhysicalFrameAllocator}

namespace PhysicalFrameAllocator

def new : PhysicalFrameAllocator := ⟨fun _ => false, fun _ => 0, 0, 0, 0⟩

/-- The allocator with every frame marked used, as `init` begins. -/
def allUsed : PhysicalFrameAllocator := { new with bitmap := fun _ => true }

/-- A frame is marked free and counted. -/
def trackFrame (frame : Nat) (fa : PhysicalFrameAllocator) : PhysicalFrameAllocator :=
  { fa.markFree frame with totalFrames := fa.totalFrames + 1 }

/-- The frames of a usable region are tracked, from 32 MB on. -/
def trackEntry (fa : PhysicalFrameAllocator) (entry : MemoryMapEntry) : PhysicalFrameAllocator :=
  if entry.usable then
    let start := entry.base / 4096
    let count := entry.length / 4096
    let safe := max start 8192
    if safe < 65536 then
      let last := min (start + count) 65536
      loop trackFrame safe (last - safe) fa
    else fa
  else fa

/-- A frame of the boot page table is marked used; if it was free it is no longer
counted. -/
def markFrameUsed (phys : Nat) (fa : PhysicalFrameAllocator) : PhysicalFrameAllocator :=
  let frame := phys / 4096
  if frame < 65536 then
    let fa := if fa.isFree frame then { fa with totalFrames := fa.totalFrames - 1 } else fa
    fa.markUsed frame
  else fa

/-- The entry leads to a table. -/
def leadsOn (e : Nat) : Bool := PageTableEntry.isPresent e && !PageTableEntry.isHuge e

/-- Mark the tables below the table at `phys`, `levels` levels of them. -/
def visitTables (mem : Nat → Nat → Nat) :
    (levels phys : Nat) → PhysicalFrameAllocator → PhysicalFrameAllocator
  | 0, _, fa => fa
  | levels + 1, phys, fa =>
    loop (fun i fa =>
      let e := mem (phys / 4096) i
      if leadsOn e then
        visitTables mem levels (PageTableEntry.addr e) (markFrameUsed (PageTableEntry.addr e) fa)
      else fa) 0 512 fa

/-- The walk of the boot page table at `cr3` marks the tables of all four levels. -/
def protectPageTableFrames (mem : Nat → Nat → Nat) (cr3 : Nat) (fa : PhysicalFrameAllocator) :
    PhysicalFrameAllocator :=
  let l4Phys := cr3 &&& PageTableEntry.addrMask
  visitTables mem 3 l4Phys (markFrameUsed l4Phys fa)

/-- The allocator after it has been given the memory map, with `mem` the words of
physical memory. -/
def init (map : List MemoryMapEntry) (mem : Nat → Nat → Nat) (cr3 : Nat) : PhysicalFrameAllocator :=
  protectPageTableFrames mem cr3 (map.foldl trackEntry allUsed)

/-- Frame `f` holds a table below the one at `phys`. -/
def TableBelow (mem : Nat → Nat → Nat) : (levels phys f : Nat) → Prop
  | 0, _, _ => False
  | levels + 1, phys, f =>
    ∃ i < 512, leadsOn (mem (phys / 4096) i) = true ∧
      (f = PageTableEntry.addr (mem (phys / 4096) i) / 4096 ∨
        TableBelow mem levels (PageTableEntry.addr (mem (phys / 4096) i)) f)

/-- Frame `f` holds a table of the boot page table. -/
def BootTable (mem : Nat → Nat → Nat) (cr3 f : Nat) : Prop :=
  f = (cr3 &&& PageTableEntry.addrMask) / 4096 ∨
    TableBelow mem 3 (cr3 &&& PageTableEntry.addrMask) f

/-- The frame at address `a` lies in a usable region of the map. -/
def InUsable (map : List MemoryMapEntry) (a : Nat) : Prop :=
  ∃ entry ∈ map, entry.usable = true ∧ entry.base ≤ a ∧ a + 4096 ≤ entry.base + entry.length

/-- The region of an entry, in frames. -/
def Tracked (map : List MemoryMapEntry) (f : Nat) : Prop :=
  8192 ≤ f ∧ f < 65536 ∧ ∃ entry ∈ map, entry.usable = true ∧ entry.base / 4096 ≤ f ∧
    f < entry.base / 4096 + entry.length / 4096

/-- Frame `f` is one to hand out. -/
def Usable (map : List MemoryMapEntry) (mem : Nat → Nat → Nat) (cr3 f : Nat) : Prop :=
  Tracked map f ∧ ¬BootTable mem cr3 f

/-- The number of frames of an entry that are counted. -/
def regionFrames (entry : MemoryMapEntry) : Nat :=
  if entry.usable then
    min (entry.base / 4096 + entry.length / 4096) 65536 - max (entry.base / 4096) 8192
  else 0

open Classical in
/-- The frames that `init` counts: those of the usable regions, a frame of two regions
twice, less those that hold tables of the boot page table. -/
noncomputable def frameCount (map : List MemoryMapEntry) (mem : Nat → Nat → Nat)
    (cr3 : Nat) : Nat :=
  (map.map regionFrames).sum -
    ((Finset.range 65536).filter fun f => Tracked map f ∧ BootTable mem cr3 f).card

section Init

variable {fa : PhysicalFrameAllocator} {map : List MemoryMapEntry} {mem : Nat → Nat → Nat}
variable {cr3 f : Nat}

def freeFrames (fa : PhysicalFrameAllocator) : Finset Nat :=
  (Finset.range 65536).filter fun f => fa.isFree f

theorem mem_freeFrames : f ∈ freeFrames fa ↔ f < 65536 ∧ fa.bitmap f = false := by
  simp [freeFrames, isFree_iff]

/-! ### Tracking -/

theorem trackFrame_bitmap {i : Nat} (bound : i < 65536) :
    (trackFrame i fa).bitmap f = false ↔ fa.bitmap f = false ∨ f = i := by
  simp only [trackFrame, markFree, if_pos bound, update_apply]
  split <;> simp [*]

theorem trackFrame_rest (i : Nat) :
    (trackFrame i fa).nextFrame = fa.nextFrame ∧
      (trackFrame i fa).allocatedFrames = fa.allocatedFrames := by
  dsimp only [trackFrame, markFree]
  split <;> exact ⟨rfl, rfl⟩

/-- Frames that are free are counted, some of them more than once. -/
theorem trackFrame_covers {i : Nat} (bound : i < 65536)
    (covers : (freeFrames fa).card ≤ fa.totalFrames) :
    (freeFrames (trackFrame i fa)).card ≤ (trackFrame i fa).totalFrames := by
  have more : freeFrames (trackFrame i fa) ⊆ insert i (freeFrames fa) := by
    intro f free
    rw [mem_freeFrames, trackFrame_bitmap bound] at free
    rw [Finset.mem_insert, mem_freeFrames]
    exact free.2.elim (fun clear => .inr ⟨free.1, clear⟩) .inl
  calc (freeFrames (trackFrame i fa)).card
      ≤ (insert i (freeFrames fa)).card := Finset.card_le_card more
    _ ≤ (freeFrames fa).card + 1 := Finset.card_insert_le _ _
    _ ≤ fa.totalFrames + 1 := Nat.succ_le_succ covers

/-- From `fa` to `fa'` the frames with `P` have been marked free, and `n` are counted. -/
structure Tracks (P : Nat → Prop) (n : Nat) (fa fa' : PhysicalFrameAllocator) : Prop where
  bitmap : ∀ f, fa'.bitmap f = false ↔ fa.bitmap f = false ∨ P f
  total : fa'.totalFrames = fa.totalFrames + n
  next : fa'.nextFrame = fa.nextFrame
  allocated : fa'.allocatedFrames = fa.allocatedFrames
  covers : (freeFrames fa).card ≤ fa.totalFrames → (freeFrames fa').card ≤ fa'.totalFrames

theorem loop_trackFrame_tracks {low count : Nat}
    (inside : ∀ i, low ≤ i → i < low + count → i < 65536) :
    Tracks (fun f => low ≤ f ∧ f < low + count) (low + count - low) fa
      (loop trackFrame low count fa) := by
  refine loop_invariant (fun i fa' => Tracks (fun f => low ≤ f ∧ f < i) (i - low) fa fa')
    (fun i fa' lower upper before => ?_) ?_
  · have bound := inside i lower upper
    refine ⟨fun f => ?_, ?_, ?_, ?_, ?_⟩
    · rw [trackFrame_bitmap bound, before.bitmap, or_assoc]
      exact or_congr_right (by omega)
    · show fa'.totalFrames + 1 = _
      rw [before.total]
      omega
    · exact (trackFrame_rest i).1.trans before.next
    · exact (trackFrame_rest i).2.trans before.allocated
    · exact fun covers => trackFrame_covers bound (before.covers covers)
  · exact ⟨fun f => (or_iff_left (by omega)).symm, by omega, rfl, rfl, id⟩

theorem trackEntry_tracks (entry : MemoryMapEntry) :
    Tracks (Tracked [entry]) (regionFrames entry) fa (fa.trackEntry entry) := by
  have tracked : ∀ f, Tracked [entry] f ↔ 8192 ≤ f ∧ f < 65536 ∧ entry.usable = true ∧
      entry.base / 4096 ≤ f ∧ f < entry.base / 4096 + entry.length / 4096 := by
    simp [Tracked]
  have nothing (empty : ∀ f, ¬Tracked [entry] f) : Tracks (Tracked [entry]) 0 fa fa :=
    ⟨fun f => (or_iff_left (empty f)).symm, rfl, rfl, rfl, id⟩
  unfold trackEntry regionFrames
  split
  · next usable =>
      dsimp only
      simp only [usable, true_and] at tracked
      generalize entry.base / 4096 = first at tracked ⊢
      generalize entry.length / 4096 = count at tracked ⊢
      split
      · next below =>
          have done := @loop_trackFrame_tracks fa (max first 8192)
            (min (first + count) 65536 - max first 8192) fun i lower upper => by omega
          refine ⟨fun f => ?_, ?_, done.next, done.allocated, done.covers⟩
          · rw [done.bitmap, tracked]
            exact or_congr_right (by omega)
          · rw [done.total]
            omega
      · next above =>
          rw [show min (first + count) 65536 - max first 8192 = 0 by omega]
          exact nothing fun f => by rw [tracked]; omega
  · next unusable => exact nothing fun f => by simp [tracked, unusable]

theorem foldl_trackEntry_tracks (map : List MemoryMapEntry) :
    ∀ fa, Tracks (Tracked map) (map.map regionFrames).sum fa (map.foldl trackEntry fa) := by
  induction map with
  | nil => exact fun fa => ⟨fun f => by simp [Tracked], rfl, rfl, rfl, id⟩
  | cons entry rest ih =>
    intro fa
    have first := @trackEntry_tracks fa entry
    have others := ih (fa.trackEntry entry)
    refine ⟨fun f => ?_, ?_, others.next.trans first.next, others.allocated.trans first.allocated,
      fun covers => others.covers (first.covers covers)⟩
    · have split : Tracked (entry :: rest) f ↔ Tracked [entry] f ∨ Tracked rest f := by
        simp only [Tracked, List.mem_cons, List.not_mem_nil, or_false, or_and_right, exists_or,
          ← and_or_left]
      rw [List.foldl_cons, others.bitmap, first.bitmap, split, or_assoc]
    · rw [List.foldl_cons, others.total, first.total, List.map_cons, List.sum_cons, Nat.add_assoc]

/-! ### The boot page table -/

theorem markFrameUsed_bitmap (bound : f < 65536) (phys : Nat) :
    (markFrameUsed phys fa).bitmap f = true ↔ fa.bitmap f = true ∨ f = phys / 4096 := by
  have bitmap : (if fa.isFree (phys / 4096) then
      { fa with totalFrames := fa.totalFrames - 1 } else fa).bitmap = fa.bitmap := by
    split <;> rfl
  unfold markFrameUsed
  dsimp only
  split
  · next inside =>
      rw [markUsed, if_pos inside, bitmap]
      simp only [update_apply]
      split <;> simp [*]
  · next high =>
      have other : f ≠ phys / 4096 := by omega
      simp only [other, or_false]

/-- What every mark keeps, the walk of the tables keeps. -/
theorem visitTables_invariant {P : PhysicalFrameAllocator → Prop}
    (mark : ∀ phys fa, P fa → P (markFrameUsed phys fa)) (levels : Nat) :
    ∀ phys {fa : PhysicalFrameAllocator}, P fa → P (visitTables mem levels phys fa) := by
  induction levels with
  | zero => exact fun _ _ before => before
  | succ levels ih =>
    intro phys fa before
    rw [visitTables]
    refine loop_zero_invariant (fun _ => P) (fun i fa _ before => ?_) before
    dsimp only
    split
    · exact ih _ (mark _ _ before)
    · exact before

/-- The walk marks the tables, and nothing else. -/
theorem visitTables_bitmap (bound : f < 65536) (levels : Nat) :
    ∀ phys (fa : PhysicalFrameAllocator), (visitTables mem levels phys fa).bitmap f = true ↔
      fa.bitmap f = true ∨ TableBelow mem levels phys f := by
  induction levels with
  | zero => exact fun phys fa => by simp [visitTables, TableBelow]
  | succ levels ih =>
    intro phys fa
    rw [visitTables, TableBelow]
    refine loop_zero_invariant (fun n (fa' : PhysicalFrameAllocator) => fa'.bitmap f = true ↔
      fa.bitmap f = true ∨ ∃ i < n, leadsOn (mem (phys / 4096) i) = true ∧
        (f = PageTableEntry.addr (mem (phys / 4096) i) / 4096 ∨
          TableBelow mem levels (PageTableEntry.addr (mem (phys / 4096) i)) f))
      (fun i fa' _ before => ?_) (by simp)
    simp only [Nat.lt_succ_iff_lt_or_eq, or_and_right, exists_or, exists_eq_left]
    split
    · next leads =>
        rw [ih, markFrameUsed_bitmap bound, before]
        simp only [leads, true_and, or_assoc]
    · next stops => simp only [before, stops, Bool.false_eq_true, false_and, or_false]

/-- Apart from `n` the free frames are counted once, and nothing is handed out. -/
structure Counts (n : Nat) (fa : PhysicalFrameAllocator) : Prop where
  total : fa.totalFrames = n + (freeFrames fa).card
  next : fa.nextFrame = 0
  allocated : fa.allocatedFrames = 0

theorem markFrameUsed_counts {n : Nat} (phys : Nat) (counts : Counts n fa) :
    Counts n (markFrameUsed phys fa) := by
  have fewer : freeFrames (markFrameUsed phys fa) = (freeFrames fa).erase (phys / 4096) := by
    ext f
    rw [Finset.mem_erase, mem_freeFrames, mem_freeFrames, and_left_comm]
    refine and_congr_right fun bound => ?_
    rw [← Bool.not_eq_true, markFrameUsed_bitmap bound, not_or, Bool.not_eq_true, and_comm]
  by_cases inside : phys / 4096 < 65536
  · have rest : (markFrameUsed phys fa).totalFrames =
          (if fa.isFree (phys / 4096) then fa.totalFrames - 1 else fa.totalFrames) ∧
        (markFrameUsed phys fa).nextFrame = fa.nextFrame ∧
        (markFrameUsed phys fa).allocatedFrames = fa.allocatedFrames := by
      simp only [markFrameUsed, markUsed, if_pos inside]
      split <;> exact ⟨rfl, rfl, rfl⟩
    refine ⟨?_, rest.2.1.trans counts.next, rest.2.2.trans counts.allocated⟩
    rw [rest.1, fewer, counts.total]
    split
    · next free =>
        have member : phys / 4096 ∈ freeFrames fa := mem_freeFrames.mpr (isFree_iff.mp free)
        have some' := Finset.card_pos.mpr ⟨_, member⟩
        rw [Finset.card_erase_of_mem member]
        omega
    · next used =>
        rw [Finset.erase_eq_of_notMem fun member =>
          used (isFree_iff.mpr (mem_freeFrames.mp member))]
  · rwa [markFrameUsed, if_neg inside]

theorem protectPageTableFrames_counts {n : Nat} (counts : Counts n fa) :
    Counts n (protectPageTableFrames mem cr3 fa) := by
  rw [protectPageTableFrames]
  exact visitTables_invariant (P := Counts n) (fun phys _ => markFrameUsed_counts phys) 3 _
    (markFrameUsed_counts _ counts)

/-- **After `init`** the frames to hand out are free and no others; they are counted, and
the search begins at frame 0. -/
theorem init_spec (map : List MemoryMapEntry) (mem : Nat → Nat → Nat) (cr3 : Nat) :
    (∀ f, (init map mem cr3).isFree f = true ↔ Usable map mem cr3 f) ∧
      (init map mem cr3).totalFrames = frameCount map mem cr3 ∧
      (init map mem cr3).nextFrame = 0 ∧ (init map mem cr3).allocatedFrames = 0 := by
  have tracks := foldl_trackEntry_tracks map allUsed
  have tracked : ∀ f, (map.foldl trackEntry allUsed).bitmap f = false ↔ Tracked map f := by
    intro f
    rw [tracks.bitmap]
    exact or_iff_right (by simp [allUsed])
  have free : ∀ f, (init map mem cr3).isFree f = true ↔ Usable map mem cr3 f := by
    intro f
    rw [isFree_iff, Usable, ← tracked, ← Bool.not_eq_true, ← Bool.not_eq_true, BootTable, init,
      protectPageTableFrames]
    constructor
    · rintro ⟨bound, clear⟩
      rwa [visitTables_bitmap bound, markFrameUsed_bitmap bound, or_assoc, not_or] at clear
    · rintro ⟨clear, none'⟩
      have bound : f < 65536 := ((tracked f).mp (by simpa using clear)).2.1
      rw [visitTables_bitmap bound, markFrameUsed_bitmap bound, or_assoc, not_or]
      exact ⟨bound, clear, none'⟩
  have empty : (freeFrames allUsed).card ≤ allUsed.totalFrames := by
    simp [freeFrames, isFree, allUsed]
  have covers := tracks.covers empty
  have begun : Counts
      ((map.map regionFrames).sum - (freeFrames (map.foldl trackEntry allUsed)).card)
      (map.foldl trackEntry allUsed) := by
    refine ⟨?_, tracks.next, tracks.allocated⟩
    have total := tracks.total
    simp only [allUsed, new, Nat.zero_add] at total covers ⊢
    omega
  have counts : Counts _ (init map mem cr3) := protectPageTableFrames_counts begun
  refine ⟨free, ?_, counts.next, counts.allocated⟩
  classical
  have before : freeFrames (map.foldl trackEntry allUsed) =
      (Finset.range 65536).filter (Tracked map) := by
    ext f
    rw [mem_freeFrames, tracked, Finset.mem_filter, Finset.mem_range]
  have after : freeFrames (init map mem cr3) =
      ((Finset.range 65536).filter (Tracked map)).filter fun f => ¬BootTable mem cr3 f := by
    ext f
    rw [mem_freeFrames, ← isFree_iff, free, Finset.mem_filter, Finset.mem_filter, Finset.mem_range]
    exact ⟨fun usable => ⟨⟨usable.1.2.1, usable.1⟩, usable.2⟩, fun parts => ⟨parts.1.2, parts.2⟩⟩
  have parts := @Finset.card_filter_add_card_filter_not _
    ((Finset.range 65536).filter (Tracked map)) (BootTable mem cr3) _ _
  rw [← after, ← before, before, Finset.filter_filter, ← before] at parts
  have total := tracks.total
  have zero : allUsed.totalFrames = 0 := rfl
  rw [counts.total, frameCount]
  omega

end Init

/-! ## The search -/

section Search

variable {fa fa' : PhysicalFrameAllocator}

/-- Frame `f` is among the frames that the next allocation looks at. -/
def InReach (fa : PhysicalFrameAllocator) (f : Nat) : Prop :=
  ∃ k < fa.totalFrames, f = (fa.nextFrame + k) % 65536

/-- The next allocation fails exactly when no frame in reach is free. -/
theorem allocateFrame_eq_none :
    fa.allocateFrame = none ↔ ∀ f, fa.InReach f → fa.isFree f = false := by
  have scanned : fa.allocateFrame = none ↔ fa.scan fa.nextFrame 0 fa.totalFrames = none := by
    unfold allocateFrame
    split
    · next none' => simp [none']
    · next found => simp [found]
  rw [scanned, scan_eq, Option.map_eq_none_iff, firstFrom_eq_none]
  constructor
  · rintro all f ⟨k, inside, rfl⟩
    exact all k (Nat.zero_le k) (by omega)
  · intro all k _ inside
    exact all _ ⟨k, by omega, rfl⟩

/-- Frame `f` is the first free one of the frames that the next allocation looks at. -/
def FirstFree (fa : PhysicalFrameAllocator) (f : Nat) : Prop :=
  ∃ k < fa.totalFrames, f = (fa.nextFrame + k) % 65536 ∧ fa.isFree f = true ∧
    ∀ j < k, fa.isFree ((fa.nextFrame + j) % 65536) = false

/-- The frame allocated is the first free one, and the next search begins behind it. -/
theorem allocateFrame_firstFree {addr : Nat} (allocated : fa.allocateFrame = some (addr, fa')) :
    ∃ f, addr = f * 4096 ∧ fa.FirstFree f ∧ fa'.nextFrame = (f + 1) % 65536 := by
  unfold allocateFrame at allocated
  split at allocated
  · cases allocated
  · next f found =>
      rw [scan_eq] at found
      obtain ⟨k, first, rfl⟩ := Option.map_eq_some_iff.mp found
      obtain ⟨-, inside, free, before⟩ := firstFrom_eq_some first
      cases allocated
      exact ⟨_, rfl, ⟨k, by omega, rfl, free, fun j earlier => before j (Nat.zero_le j) earlier⟩,
        rfl⟩

theorem freeFrame_search (fa : PhysicalFrameAllocator) (addr : Nat) :
    (fa.freeFrame addr).totalFrames = fa.totalFrames ∧
      (fa.freeFrame addr).nextFrame = fa.nextFrame := by
  unfold freeFrame markFree
  dsimp only
  repeat' split
  all_goals exact ⟨rfl, rfl⟩

end Search

end PhysicalFrameAllocator

/-! ## Histories -/

open PhysicalFrameAllocator

/-- The allocator with the addresses that are handed out and not given back yet, and
the number of the frame behind the one that was handed out last. -/
structure Handouts where
  fa : PhysicalFrameAllocator
  out : List Nat
  after : Nat

inductive FrameCall where
  | allocate
  | free (addr : Nat)

namespace Handouts

/-- A call; only frames that are handed out are given back. -/
def step (s : Handouts) : FrameCall → Option Handouts
  | .allocate =>
    match s.fa.allocateFrame with
    | none => some s
    | some (addr, fa) => some ⟨fa, addr :: s.out, (addr / 4096 + 1) % 65536⟩
  | .free addr =>
    if addr ∈ s.out then some ⟨s.fa.freeFrame addr, s.out.erase addr, s.after⟩ else none

/-- The allocator after `init`, with nothing handed out. -/
def start (map : List MemoryMapEntry) (mem : Nat → Nat → Nat) (cr3 : Nat) : Handouts :=
  ⟨init map mem cr3, [], 0⟩

/-- An allocation fails only when no frame is free. -/
def Complete (s : Handouts) : Prop :=
  s.fa.allocateFrame = none → ∀ f, s.fa.isFree f = false

/-- An allocation returns a frame that was free, in a usable region and from 32 MB on,
and is no table of the boot page table. -/
def Sound (map : List MemoryMapEntry) (mem : Nat → Nat → Nat) (cr3 : Nat) (s : Handouts) : Prop :=
  ∀ addr fa, s.fa.allocateFrame = some (addr, fa) →
    InUsable map addr ∧ 32 * 1024 * 1024 ≤ addr ∧ s.fa.isFree (addr / 4096) = true ∧
    ¬BootTable mem cr3 (addr / 4096)

section Runs

variable (map : List MemoryMapEntry) (mem : Nat → Nat → Nat) (cr3 : Nat)

/-- Frame `f` is to be handed out, and is not. -/
def Left (s : Handouts) (f : Nat) : Prop := Usable map mem cr3 f ∧ f * 4096 ∉ s.out

/-- If any frame is left, then one is among as many frames as `init` has counted, from the
one behind the last on and around. -/
def InSight (s : Handouts) : Prop :=
  (∃ f, Left map mem cr3 s f) →
    ∃ k < frameCount map mem cr3, Left map mem cr3 s ((s.after + k) % 65536)

/-- The frames that are free or handed out are those to hand out; the frames handed out
are in use with one reference each, and they are counted. -/
structure Accounted (s : Handouts) : Prop where
  good : ∀ f, Usable map mem cr3 f ↔ s.fa.isFree f = true ∨ f * 4096 ∈ s.out
  held : ∀ addr ∈ s.out, ∃ f < 65536, addr = f * 4096 ∧ s.fa.bitmap f = true ∧ s.fa.refcount f = 1
  nodup : s.out.Nodup
  counted : s.fa.allocatedFrames = s.out.length
  total : s.fa.totalFrames = frameCount map mem cr3
  next : s.fa.nextFrame = s.after
  low : s.after < 65536

variable {map mem cr3} {s s' : Handouts} {addr f : Nat}

theorem accounted_start : Accounted map mem cr3 (start map mem cr3) := by
  obtain ⟨free, total, next, allocated⟩ := init_spec map mem cr3
  rw [start]
  refine ⟨fun f => ?_, fun addr member => absurd member List.not_mem_nil, List.nodup_nil, allocated,
    total, next, Nat.zero_lt_succ _⟩
  rw [free f]
  exact (or_iff_left List.not_mem_nil).symm

section

variable (accounted : Accounted map mem cr3 s)
include accounted

/-- There are no more frames to hand out than the bitmap has bits. -/
theorem Accounted.length_le : s.out.length ≤ 65536 := by
  have frames : s.out ⊆ (List.range 65536).map (· * 4096) := by
    intro addr member
    obtain ⟨f, bound, rfl, -⟩ := accounted.held addr member
    exact List.mem_map_of_mem (List.mem_range.mpr bound)
  have fits := (accounted.nodup.subperm frames).length_le
  rwa [List.length_map, List.length_range] at fits

theorem Accounted.left_iff : Left map mem cr3 s f ↔ s.fa.isFree f = true := by
  rw [Left, accounted.good f]
  refine ⟨fun left => left.1.resolve_right left.2, fun free => ⟨.inl free, fun member => ?_⟩⟩
  obtain ⟨g, -, same, used, -⟩ := accounted.held _ member
  rw [show g = f by omega, (isFree_iff.mp free).2] at used
  cases used

theorem Accounted.allocate (allocated : s.fa.allocateFrame = some (addr, fa)) :
    Accounted map mem cr3 ⟨fa, addr :: s.out, (addr / 4096 + 1) % 65536⟩ := by
  obtain ⟨f, rfl, bound, clear, bitmap, refcount, total, counted⟩ := allocateFrame_some allocated
  obtain ⟨g, same, -, next⟩ := allocateFrame_firstFree allocated
  obtain rfl : g = f := by omega
  have free : s.fa.isFree g = true := isFree_iff.mpr ⟨bound, clear⟩
  have fresh : g * 4096 ∉ s.out := (accounted.left_iff.mpr free).2
  rw [Nat.mul_div_cancel g (by decide)]
  refine ⟨fun h => ?_, fun a member => ?_, List.nodup_cons.mpr ⟨fresh, accounted.nodup⟩, ?_,
    total.trans accounted.total, next, Nat.mod_lt _ (by decide)⟩
  · rw [accounted.good h, List.mem_cons, isFree_iff, isFree_iff, bitmap]
    by_cases here : h = g
    · subst here
      simp [bound, clear]
    · rw [update_of_ne here, or_iff_right (show h * 4096 ≠ g * 4096 by omega)]
  · rcases List.mem_cons.mp member with rfl | old
    · exact ⟨g, bound, rfl, by rw [bitmap, update_self], by rw [refcount, update_self]⟩
    · obtain ⟨h, bound', rfl, used, one⟩ := accounted.held a old
      have other : h ≠ g := by
        rintro rfl
        exact fresh old
      exact ⟨h, bound', rfl, by rw [bitmap, update_of_ne other]; exact used,
        by rw [refcount, update_of_ne other]; exact one⟩
  · have fits := accounted.length_le
    rw [counted, accounted.counted, List.length_cons]
    exact Nat.mod_eq_of_lt (by omega)

theorem Accounted.free (member : addr ∈ s.out) :
    Accounted map mem cr3 ⟨s.fa.freeFrame addr, s.out.erase addr, s.after⟩ := by
  obtain ⟨f, bound, rfl, -, one⟩ := accounted.held addr member
  have last : s.fa.refcount f ≤ 1 := by omega
  have bitmap := @freeFrame_bitmap s.fa _ bound
  have counted := @freeFrame_allocatedFrames s.fa _ bound
  rw [if_pos last] at bitmap counted
  have kept := freeFrame_search s.fa (f * 4096)
  refine ⟨fun g => ?_, fun a left => ?_, accounted.nodup.erase _, ?_, kept.1.trans accounted.total,
    kept.2.trans accounted.next, accounted.low⟩
  · rw [accounted.good g, isFree_iff, isFree_iff, bitmap,
      List.Nodup.mem_erase_iff accounted.nodup]
    by_cases here : g = f
    · subst here
      simp [bound, member]
    · rw [update_of_ne here, and_iff_right (show g * 4096 ≠ f * 4096 by omega)]
  · obtain ⟨other, old⟩ := (List.Nodup.mem_erase_iff accounted.nodup).mp left
    obtain ⟨g, bound', rfl, used, one'⟩ := accounted.held a old
    have apart : g ≠ f := by
      rintro rfl
      exact other rfl
    refine ⟨g, bound', rfl, ?_, ?_⟩
    · rw [bitmap, update_of_ne apart]
      exact used
    · rw [freeFrame_refcount bound, update_of_ne apart]
      exact one'
  · have fits := accounted.length_le
    have some' := List.length_pos_of_mem member
    rw [counted, accounted.counted, List.length_erase_of_mem member]
    omega

theorem step_accounted {call : FrameCall}
    (stepped : s.step call = some s') : Accounted map mem cr3 s' := by
  cases call with
  | allocate =>
    simp only [step] at stepped
    split at stepped
    · cases stepped
      exact accounted
    · next allocated =>
        cases stepped
        exact accounted.allocate allocated
  | free addr =>
    simp only [step] at stepped
    split at stepped
    · next member =>
        cases stepped
        exact accounted.free member
    · cases stepped

/-- Whether an allocation is complete is told by the map and the frames handed out so far. -/
theorem Accounted.complete_iff : s.Complete ↔ InSight map mem cr3 s := by
  simp only [Complete, InSight, allocateFrame_eq_none, InReach, accounted.left_iff,
    accounted.total, accounted.next]
  constructor
  · rintro complete ⟨f, free⟩
    by_contra none'
    have used := complete (fun g reach => ?_) f
    · rw [used] at free
      cases free
    · obtain ⟨k, inside, rfl⟩ := reach
      exact Bool.eq_false_iff.mpr fun found => none' ⟨k, inside, found⟩
  · intro sight fails f
    refine Bool.eq_false_iff.mpr fun free => ?_
    obtain ⟨k, inside, found⟩ := sight ⟨f, free⟩
    rw [fails _ ⟨k, inside, rfl⟩] at found
    cases found

/-- A frame of a region that begins at a page boundary lies in the region. -/
theorem Accounted.sound (aligned : ∀ entry ∈ map, entry.usable = true → entry.base % 4096 = 0) :
    Sound map mem cr3 s := by
  intro addr fa allocated
  obtain ⟨f, rfl, bound, clear, -⟩ := allocateFrame_some allocated
  have free : s.fa.isFree f = true := isFree_iff.mpr ⟨bound, clear⟩
  obtain ⟨⟨low, -, entry, member, usable, lower, upper⟩, noTable⟩ :=
    (accounted.good f).mpr (.inl free)
  have boundary := aligned entry member usable
  rw [Nat.mul_div_cancel f (by decide)]
  exact ⟨⟨entry, member, usable, by omega, by omega⟩, by omega, free, noTable⟩

end

theorem accounted_of_run {calls : List FrameCall}
    (ran : run step (start map mem cr3) calls = some s) : Accounted map mem cr3 s := by
  have free : Along step (fun _ _ => True) (start map mem cr3) calls :=
    along_of_forall fun _ _ _ => trivial
  exact run_invariant (fun accounted _ stepped => step_accounted accounted stepped)
    accounted_start free ran

/-- While allocations are complete and frames are left, a frame is handed out. -/
theorem Accounted.allocates (accounted : Accounted map mem cr3 s) (complete : s.Complete)
    (left : ∃ f, Left map mem cr3 s f) :
    ∃ f fa, s.step .allocate = some ⟨fa, f * 4096 :: s.out, (f + 1) % 65536⟩ := by
  obtain ⟨f, left⟩ := left
  have free := accounted.left_iff.mp left
  cases allocated : s.fa.allocateFrame with
  | none =>
    rw [complete allocated f] at free
    cases free
  | some answer =>
    obtain ⟨addr, fa⟩ := answer
    obtain ⟨g, rfl, -⟩ := allocateFrame_some allocated
    refine ⟨g, fa, ?_⟩
    simp only [step, allocated, Nat.mul_div_cancel g (show 0 < 4096 by decide)]

/-- As long as allocations are complete, allocating goes on until nothing is left; the next
search then begins behind the frame handed out last. -/
theorem allocates_all
    (complete : ∀ calls s, run step (start map mem cr3) calls = some s → s.Complete) (n : Nat) :
    ∀ {calls : List FrameCall} {s : Handouts}, run step (start map mem cr3) calls = some s →
      65536 < s.out.length + n → (∃ f, Left map mem cr3 s f) →
      ∃ calls t f rest, run step (start map mem cr3) calls = some t ∧ t.out = f * 4096 :: rest ∧
        t.after = (f + 1) % 65536 ∧ ∀ g, ¬Left map mem cr3 t g := by
  induction n with
  | zero =>
    intro calls s ran many
    have few := (accounted_of_run ran).length_le
    omega
  | succ n ih =>
    intro calls s ran many left
    obtain ⟨f, fa, stepped⟩ := (accounted_of_run ran).allocates (complete calls s ran) left
    have ran' := run_append ran (run_cons.mpr ⟨_, stepped, run_nil _⟩)
    by_cases more : ∃ g, Left map mem cr3 ⟨fa, f * 4096 :: s.out, (f + 1) % 65536⟩ g
    · exact ih ran' (by rw [List.length_cons]; omega) more
    · exact ⟨_, _, f, s.out, ran', rfl, rfl, not_exists.mp more⟩

/-- If all frames are handed out and the last of them comes back, it lies farthest away. -/
theorem last_out_of_sight (some' : ∃ f, Usable map mem cr3 f)
    (few : frameCount map mem cr3 < 65536) :
    ∃ calls s, run step (start map mem cr3) calls = some s ∧ ¬s.Complete := by
  by_contra! complete
  obtain ⟨f, usable⟩ := some'
  obtain ⟨calls, t, g, rest, ran, out, after, none'⟩ := allocates_all complete 65537
    (run_nil _) (by omega) ⟨f, usable, List.not_mem_nil⟩
  have member : g * 4096 ∈ t.out := out ▸ List.mem_cons_self
  have stepped : t.step (.free (g * 4096)) =
      some ⟨t.fa.freeFrame (g * 4096), t.out.erase (g * 4096), t.after⟩ := if_pos member
  have ran' := run_append ran (run_cons.mpr ⟨_, stepped, run_nil _⟩)
  have accounted := accounted_of_run ran
  have nodup : g * 4096 ∉ rest := (List.nodup_cons.mp (out ▸ accounted.nodup)).1
  have sight := (accounted_of_run ran').complete_iff.mp (complete _ _ ran')
  simp only [InSight, Left, out, List.erase_cons_head, after] at sight
  obtain ⟨k, inside, found, missing⟩ :=
    sight ⟨g, (accounted.good g).mpr (.inr member), nodup⟩
  have taken := not_and_not_right.mp (none' (((g + 1) % 65536 + k) % 65536)) found
  rw [out, List.mem_cons] at taken
  have same := taken.resolve_right missing
  have bound := found.1.2.1
  omega

end Runs

/-- **Allocation is sound and counted** in the state after any history, for every memory
map whose usable regions begin at page boundaries, every content of physical memory and
every boot page table. It is complete there exactly if a frame is in sight, as far as the
map and the history tell. After all histories it is complete only if there is nothing to
hand out, or regions overlap so much that as many frames are counted as the bitmap has
bits. -/
theorem run_answers (map : List MemoryMapEntry) (mem : Nat → Nat → Nat) (cr3 : Nat)
    (aligned : ∀ entry ∈ map, entry.usable = true → entry.base % 4096 = 0) :
    (∀ calls s, run step (start map mem cr3) calls = some s →
      Sound map mem cr3 s ∧ s.fa.allocatedFrames = s.out.length ∧
      (s.Complete ↔ InSight map mem cr3 s)) ∧
    ((∀ calls s, run step (start map mem cr3) calls = some s → s.Complete) ↔
      (∀ f, ¬Usable map mem cr3 f) ∨ 65536 ≤ frameCount map mem cr3) := by
  refine ⟨fun calls s ran => ?_, fun complete => ?_, fun room calls s ran => ?_⟩
  · have accounted := accounted_of_run ran
    exact ⟨accounted.sound aligned, accounted.counted, accounted.complete_iff⟩
  · by_contra! small
    obtain ⟨calls, s, ran, incomplete⟩ := last_out_of_sight small.1 small.2
    exact incomplete (complete calls s ran)
  · have accounted := accounted_of_run ran
    rw [accounted.complete_iff]
    rintro ⟨f, left⟩
    rcases room with none' | many
    · exact absurd left.1 (none' f)
    · have bound := left.1.1.2.1
      have low := accounted.low
      refine ⟨(f + 65536 - s.after) % 65536, by omega, ?_⟩
      rwa [show (s.after + (f + 65536 - s.after) % 65536) % 65536 = f by omega]

def blankMemory : Nat → Nat → Nat := fun _ _ => 0

/-- With nothing in memory the boot page table is one frame below 32 MB. -/
theorem usable_blank {map : List MemoryMapEntry} {f : Nat} :
    Usable map blankMemory 0x1000 f ↔ Tracked map f := by
  refine and_iff_left_of_imp fun tracked table => ?_
  rcases table with rfl | ⟨i, -, leads, -⟩
  · exact absurd tracked.1 (by decide)
  · exact absurd leads (show leadsOn 0 ≠ true by decide)

theorem frameCount_blank (map : List MemoryMapEntry) :
    frameCount map blankMemory 0x1000 = (map.map regionFrames).sum := by
  classical
  have none' : ((Finset.range 65536).filter fun f =>
      Tracked map f ∧ BootTable blankMemory 0x1000 f) = ∅ :=
    Finset.filter_eq_empty_iff.mpr fun f _ both => (usable_blank.mpr both.1).2 both.2
  rw [frameCount, none', Finset.card_empty, Nat.sub_zero]

/-- The first frame from 32 MB on is handed out first, if it is one to hand out and the
search gets there. -/
theorem Accounted.allocates_first {map : List MemoryMapEntry} {mem : Nat → Nat → Nat} {cr3 : Nat}
    {s : Handouts} (accounted : Accounted map mem cr3 s) (begins : s.after = 0)
    (left : Left map mem cr3 s 8192) (many : 8192 < frameCount map mem cr3) :
    ∃ fa, s.fa.allocateFrame = some (0x2000000, fa) := by
  have free := accounted.left_iff.mp left
  have complete := accounted.complete_iff.mpr fun _ => ⟨8192, many, by rwa [begins]⟩
  cases allocated : s.fa.allocateFrame with
  | none =>
    rw [complete allocated 8192] at free
    cases free
  | some answer =>
    obtain ⟨addr, fa⟩ := answer
    obtain ⟨f, rfl, ⟨k, -, place, found, before⟩, -⟩ := allocateFrame_firstFree allocated
    rw [accounted.next, begins, Nat.zero_add] at place
    simp only [accounted.next, begins, Nat.zero_add] at before
    have low : 8192 ≤ f := ((accounted.good f).mpr (.inl found)).1.1
    have first : ¬8192 < k := by
      intro later
      rw [before 8192 later] at free
      cases free
    exact ⟨fa, by rw [show f = 8192 by omega]⟩

/-- All memory from 32 MB to 256 MB is usable. -/
def wholeMap : List MemoryMapEntry := [⟨0x2000000, 0xE000000, true⟩]

theorem run_answers_wholeMap :
    (∃ fa, (start wholeMap blankMemory 0x1000).fa.allocateFrame = some (0x2000000, fa) ∧
      InUsable wholeMap 0x2000000) ∧
    ¬∀ calls s, run step (start wholeMap blankMemory 0x1000) calls = some s → s.Complete := by
  have usable : Usable wholeMap blankMemory 0x1000 8192 :=
    usable_blank.mpr ⟨by decide, by decide, _, List.mem_singleton_self _, rfl, by decide, by decide⟩
  have count : frameCount wholeMap blankMemory 0x1000 = 57344 := frameCount_blank wholeMap
  obtain ⟨always, whole⟩ := run_answers wholeMap blankMemory 0x1000 (by simp [wholeMap])
  obtain ⟨fa, allocated⟩ := accounted_start.allocates_first rfl ⟨usable, List.not_mem_nil⟩
    (by rw [count]; decide)
  refine ⟨⟨fa, allocated, ((always [] _ rfl).1 _ _ allocated).1⟩, fun complete => ?_⟩
  rcases whole.mp complete with none' | many
  · exact none' 8192 usable
  · rw [count] at many
    exact absurd many (by decide)

/-- One usable frame, at 32 MB. -/
def oneFrame : List MemoryMapEntry := [⟨0x2000000, 0x1000, true⟩]

/-- Memory is usable from the middle of a page on. -/
def halfPage : List MemoryMapEntry := [⟨0x2000800, 0xDFFF000, true⟩]

/-- One frame is usable and counted, so one frame is looked at: frame 0. And of a region
that does not begin at a page boundary the page it begins in is handed out. -/
theorem init_out_of_reach :
    (init oneFrame blankMemory 0x1000).isFree 8192 = true ∧
    (init oneFrame blankMemory 0x1000).allocateFrame.isNone = true ∧
    ¬(start oneFrame blankMemory 0x1000).Complete ∧
    (∃ fa, (start halfPage blankMemory 0x1000).fa.allocateFrame = some (0x2000000, fa)) ∧
    ¬Sound halfPage blankMemory 0x1000 (start halfPage blankMemory 0x1000) := by
  have free : (init oneFrame blankMemory 0x1000).isFree 8192 = true := by decide +kernel
  have fails : (init oneFrame blankMemory 0x1000).allocateFrame.isNone = true := by decide +kernel
  have usable : Usable halfPage blankMemory 0x1000 8192 :=
    usable_blank.mpr ⟨by decide, by decide, _, List.mem_singleton_self _, rfl, by decide, by decide⟩
  have count : frameCount halfPage blankMemory 0x1000 = 57343 := frameCount_blank halfPage
  obtain ⟨fa, allocated⟩ := accounted_start.allocates_first rfl ⟨usable, List.not_mem_nil⟩
    (by rw [count]; decide)
  refine ⟨free, fails, fun complete => ?_, ⟨fa, allocated⟩, fun sound => ?_⟩
  · rw [Complete, start] at complete
    generalize init oneFrame blankMemory 0x1000 = fa at free fails complete
    rw [complete (Option.isNone_iff_eq_none.mp fails) 8192] at free
    cases free
  · obtain ⟨⟨entry, member, -, lower, -⟩, -⟩ := sound _ _ allocated
    rw [halfPage, List.mem_singleton] at member
    subst member
    exact absurd lower (by decide)

end Handouts

/-! ## Frames in a row -/

variable {a : Nat}

namespace PhysicalFrameAllocator

variable {fa fa' : PhysicalFrameAllocator} {f g : Nat}

theorem FirstFree.inReach (first : fa.FirstFree f) : fa.InReach f := by
  obtain ⟨k, inside, place, -⟩ := first
  exact ⟨k, inside, place⟩

theorem FirstFree.unique (first : fa.FirstFree f) (again : fa.FirstFree g) : f = g := by
  obtain ⟨k, -, rfl, free, before⟩ := first
  obtain ⟨l, -, rfl, free', before'⟩ := again
  rcases Nat.lt_trichotomy k l with earlier | same | later
  · rw [before' k earlier] at free
    cases free
  · rw [same]
  · rw [before l later] at free'
    cases free'

/-- No frame is in reach, or the first free one is the first of `n` free frames in a
row and is not frame 0. -/
def RowInReach (fa : PhysicalFrameAllocator) (n : Nat) : Prop :=
  (∀ f, fa.InReach f → fa.isFree f = false) ∨
    0 < n ∧ ∃ f, fa.FirstFree f ∧ f ≠ 0 ∧ ∀ i < n, fa.isFree (f + i) = true

end PhysicalFrameAllocator

namespace Paging

variable {n b f m : Nat} {p p' : Paging}

/-- The `n` frames from the address `b` on were free and are in use and zeroed now, and
nothing has happened to the other frames' marks. -/
structure Row (n b : Nat) (p p' : Paging) : Prop where
  free : ∀ i < n, p.frameAllocator.isFree (b / 4096 + i) = true
  used : ∀ i < n, p'.frameAllocator.isFree (b / 4096 + i) = false
  others : ∀ f, (∀ i < n, f ≠ b / 4096 + i) →
    p'.frameAllocator.isFree f = p.frameAllocator.isFree f
  zeroed : ∀ i < n, ∀ w, p'.read (b + i * 4096) w = 0

/-- A segment of `n` pages gets `n` frames in a row, or else nothing is taken. -/
def RowOrNothing (n : Nat) (p : Paging) : Prop :=
  ((p.allocPhysFrames n).1 ≠ 0 → Row n (p.allocPhysFrames n).1 p (p.allocPhysFrames n).2) ∧
  ((p.allocPhysFrames n).1 = 0 → (p.allocPhysFrames n).2.frameAllocator = p.frameAllocator)

/-- From `p` to `p'` the first `m` frames of the row from frame `f` on have been taken. -/
structure Begun (f m : Nat) (p p' : Paging) : Prop where
  total : p'.frameAllocator.totalFrames = p.frameAllocator.totalFrames
  taken : ∀ i < m, p'.frameAllocator.bitmap (f + i) = true
  others : ∀ g, (∀ i < m, g ≠ f + i) → p'.frameAllocator.bitmap g = p.frameAllocator.bitmap g
  zeroed : ∀ i < m, ∀ w, p'.read ((f + i) * 4096) w = 0

theorem Begun.none : Begun f 0 p p :=
  ⟨rfl, fun i bound => absurd bound (Nat.not_lt_zero i), fun _ _ => rfl,
    fun i bound => absurd bound (Nat.not_lt_zero i)⟩

/-- The allocation of the frame behind the row makes the row longer. -/
theorem Begun.step (begun : Begun f m p p')
    (allocated : p'.frameAllocator.allocateFrame = some ((f + m) * 4096, fa)) :
    Begun f (m + 1) p (Paging.zero { p' with frameAllocator := fa } ((f + m) * 4096)) := by
  obtain ⟨g, same, -, -, bitmap, -, total, -⟩ :=
    allocateFrame_some allocated
  obtain rfl : g = f + m := by omega
  refine ⟨total.trans begun.total, fun i bound => ?_, fun h other => ?_, fun i bound w => ?_⟩
  · show fa.bitmap (f + i) = true
    rw [bitmap, update_apply]
    split
    · rfl
    · next apart => exact begun.taken i (by omega)
  · show fa.bitmap h = _
    rw [bitmap, update_of_ne (other m (by omega))]
    exact begun.others h fun i bound => other i (by omega)
  · simp only [read, zero, Nat.mul_div_cancel _ (show 0 < 4096 by decide), update_apply]
    split
    · rfl
    · next apart =>
        have before := begun.zeroed i (by omega) w
        rwa [read, Nat.mul_div_cancel _ (by decide)] at before

/-- A frame allocated and zeroed: the program's next step. -/
theorem wp_take {Q : Nat → Paging → Prop}
    {E : PagingError → Paging → Prop} (allocated : p.frameAllocator.allocateFrame = some (a, fa)) :
    wp (allocateFrame .exhausted) Q E p ↔ Q a { p with frameAllocator := fa } := by
  have result : allocateFrame .exhausted p = (.ok a, { p with frameAllocator := fa }) := by
    unfold allocateFrame
    rw [allocated]
  exact wp_ok result

/-- While the frames of the row are free, each allocation takes the next of them. -/
theorem Begun.advance (begun : Begun f m p p')
    (next : p'.frameAllocator.nextFrame = (f + m) % 65536)
    (some' : 0 < p.frameAllocator.totalFrames)
    (free : p.frameAllocator.isFree (f + m) = true) :
    wp (do
        let next ← Paging.allocateFrame .exhausted
        Prog.update (·.zero next))
      (fun _ p'' => Begun f (m + 1) p p'' ∧
        p''.frameAllocator.nextFrame = (f + (m + 1)) % 65536) (fun _ _ => False) p' := by
  obtain ⟨bound, clear⟩ := isFree_iff.mp free
  have place : p'.frameAllocator.nextFrame = f + m := by
    rw [next, Nat.mod_eq_of_lt bound]
  have here : p'.frameAllocator.isFree p'.frameAllocator.nextFrame = true := by
    rw [place]
    refine isFree_iff.mpr ⟨bound, ?_⟩
    rw [begun.others _ fun i inside => by omega]
    exact clear
  obtain ⟨fa, allocated, next', -⟩ :=
    allocateFrame_next here (begun.total ▸ some')
  rw [place] at allocated next'
  rw [wp_bind, wp_take allocated, wp_update]
  exact ⟨begun.step allocated, next'⟩

/-- Where the first free frame begins a row of `n` free frames, the segment gets the row. -/
theorem allocPhysFrames_begun (some' : 0 < n) (first : p.frameAllocator.FirstFree f)
    (free : ∀ i < n, p.frameAllocator.isFree (f + i) = true) :
    (p.allocPhysFrames n).1 = f * 4096 ∧ Begun f n p (p.allocPhysFrames n).2 := by
  refine @Inv.allocPhysFrames_of_wp p (fun a p' => a = f * 4096 ∧ Begun f n p p') n ?_
  have total : 0 < p.frameAllocator.totalFrames := by
    obtain ⟨k, inside, -⟩ := first
    omega
  cases allocated : p.frameAllocator.allocateFrame with
  | none =>
    have used := allocateFrame_eq_none.mp allocated f first.inReach
    have found := free 0 some'
    rw [Nat.add_zero, used] at found
    cases found
  | some answer =>
    obtain ⟨a, fa⟩ := answer
    obtain ⟨g, rfl, first', next⟩ := allocateFrame_firstFree allocated
    obtain rfl := first.unique first'
    rw [wp_bind, wp_take allocated, wp_bind, wp_update, wp_bind]
    have begun : Begun f (0 + 1) p (Paging.zero { p with frameAllocator := fa } (f * 4096)) :=
      Begun.none.step allocated
    refine wp_mono (fun _ p' done => ?_) (fun _ _ stopped => absurd stopped not_false)
      (wp_forRange (fun m p' => Begun f m p p' ∧
          p'.frameAllocator.nextFrame = (f + m) % 65536)
        (fun m p' _ inside before => before.1.advance before.2 total (free m (by omega)))
        ⟨begun, next⟩)
    rw [Nat.add_sub_cancel' some'] at done
    exact ⟨rfl, done.1⟩

theorem Begun.row (begun : Begun f n p p')
    (free : ∀ i < n, p.frameAllocator.isFree (f + i) = true) : Row n (f * 4096) p p' := by
  have place : f * 4096 / 4096 = f := Nat.mul_div_cancel f (by decide)
  constructor
  · rwa [place]
  · intro i bound
    simp only [place, isFree, begun.taken i bound, Bool.not_true,
      Bool.and_false]
  · rw [place]
    intro g other
    simp only [isFree, begun.others g other]
  · intro i bound w
    rw [← Nat.add_mul]
    exact begun.zeroed i bound w

/-- Nothing is in reach: nothing is taken. -/
theorem allocPhysFrames_none (n : Nat) (allocated : p.frameAllocator.allocateFrame = none) :
    p.allocPhysFrames n = (0, p) := by
  have result : allocateFrame .exhausted p = (.error .exhausted, p) := by
    unfold allocateFrame
    rw [allocated]
  have answer := @Inv.allocPhysFrames_of_wp p (fun a p' => a = 0 ∧ p' = p) n
    (by rw [wp_bind, wp_error result]; exact ⟨rfl, rfl⟩)
  exact Prod.ext answer.1 answer.2

/-- The first frame that is found stays taken, whatever comes of the others. -/
theorem allocPhysFrames_takes (n : Nat)
    (allocated : p.frameAllocator.allocateFrame = some (a, fa)) :
    ((p.allocPhysFrames n).1 = 0 ∨ (p.allocPhysFrames n).1 = a) ∧
      Grown { p with frameAllocator := fa } (p.allocPhysFrames n).2 := by
  refine @Inv.allocPhysFrames_of_wp p
    (fun b p' => (b = 0 ∨ b = a) ∧ Grown { p with frameAllocator := fa } p') n ?_
  rw [wp_bind, wp_take allocated, wp_bind, wp_update, wp_bind]
  have one : Leads Grown Dries (do
      let next ← allocateFrame .exhausted
      Prog.update (·.zero next)) :=
    .bind (allocateFrame_leads _) fun _ => leads_update fun _ => rfl
  have more := (Leads.forRange (fun _ : Nat => one) 1 (n - 1)).related
    (Paging.zero { p with frameAllocator := fa } a)
  exact wp_mono (fun _ _ grown => ⟨.inr rfl, grown⟩) (fun _ _ grown => ⟨.inl rfl, grown⟩)
    (wp_state.mpr more)

/-- **A segment's frames are a row, or none is taken**, exactly where no frame is in
reach, or the first that is free is the first of as many free frames as there are pages. -/
theorem allocPhysFrames_row_iff (n : Nat) (p : Paging) :
    RowOrNothing n p ↔ p.frameAllocator.RowInReach n := by
  constructor
  · rintro ⟨row, nothing⟩
    cases allocated : p.frameAllocator.allocateFrame with
    | none => exact .inl (allocateFrame_eq_none.mp allocated)
    | some answer =>
      obtain ⟨a, fa⟩ := answer
      obtain ⟨f, rfl, first, -⟩ := allocateFrame_firstFree allocated
      obtain ⟨g, same, bound, clear, bitmap, -⟩ :=
        allocateFrame_some allocated
      obtain rfl : g = f := by omega
      obtain ⟨answers, grown⟩ := allocPhysFrames_takes n allocated
      have used : (p.allocPhysFrames n).2.frameAllocator.bitmap g = true := by
        refine grown g ?_
        show fa.bitmap g = true
        rw [bitmap, update_self]
      have nonzero : (p.allocPhysFrames n).1 ≠ 0 := by
        intro failed
        rw [nothing failed, clear] at used
        cases used
      have address := answers.resolve_left nonzero
      have got := row nonzero
      rw [address] at got nonzero
      have place : g * 4096 / 4096 = g := Nat.mul_div_cancel g (by decide)
      refine .inr ⟨?_, g, first, fun zero => nonzero (by rw [zero, Nat.zero_mul]),
        fun i inside => ?_⟩
      · by_contra none'
        have kept := got.others g fun i inside => by omega
        simp [isFree, used, clear, bound] at kept
      · have free := got.free i inside
        rwa [place] at free
  · rintro (none' | ⟨some', f, first, nonzero, free⟩)
    · have answer := allocPhysFrames_none n (allocateFrame_eq_none.mpr none')
      unfold RowOrNothing
      rw [answer]
      exact ⟨fun found => absurd rfl found, fun _ => rfl⟩
    · obtain ⟨address, begun⟩ := allocPhysFrames_begun some' first free
      unfold RowOrNothing
      rw [address]
      exact ⟨fun _ => begun.row free, fun zero => absurd zero (by omega)⟩

/-- Two frames are free, with one in use between them. -/
def gapped : Paging :=
  ⟨⟨fun f => f != 8192 && f != 8194, fun _ => 0, 8192, 4, 0⟩, fun _ _ => 1, 0⟩

/-- A segment of two pages is answered with the frames on either side of a frame that
is in use, and one of three pages leaves two frames taken behind. -/
theorem allocPhysFrames_gapped :
    (gapped.allocPhysFrames 2).1 = 8192 * 4096 ∧ gapped.frameAllocator.isFree 8193 = false ∧
    (gapped.allocPhysFrames 3).1 = 0 ∧
    (gapped.allocPhysFrames 3).2.frameAllocator.allocatedFrames = 2 ∧
    ¬RowOrNothing 2 gapped ∧ ¬RowOrNothing 3 gapped := by
  have address : (gapped.allocPhysFrames 2).1 = 8192 * 4096 := by decide +kernel
  have failed : (gapped.allocPhysFrames 3).1 = 0 := by decide +kernel
  have left : (gapped.allocPhysFrames 3).2.frameAllocator.allocatedFrames = 2 := by decide +kernel
  refine ⟨address, by decide, failed, left, fun holds => ?_, fun holds => ?_⟩
  · have row := holds.1 (by rw [address]; decide)
    have free := row.free 1 (by decide)
    rw [address] at free
    exact absurd free (by decide)
  · rw [holds.2 failed] at left
    exact absurd left (by decide)

end Paging

end OxideOS.Mem
