import OxideOS.Sys.Simulation

/-!
# Frames of segments and the reach of memory calls

The frames of an active segment stay marked as used over every careful run and are
handed to nobody else (`segments_held`). Unmapping one attached page is enough to
lose a frame: `munmap_frees_segment`.

`calls_confined` is about `mmap`, `munmap`, `brk` and `shmat`: in the states of a
careful run they change no translation of the upper half and none of another task,
and free no frame behind one. None of these calls checks the addresses it is given:
`munmap_frees_kernel_page` unmaps a page of the kernel.
-/

set_option autoImplicit false

namespace OxideOS.Sys

open Lib Mem Fs Ipc Proc Proc.Kernel PageTableFlags PageTableEntry

/-! ## The frames of segments -/

/-- The frame of page `page` of an active segment. -/
def SegmentFrame (k : Kernel) (f : Nat) : Prop :=
  ∃ id < maxSegments, ∃ page < (k.segtab id).pages,
    (k.segtab id).active = true ∧ f = (k.segtab id).physBase / 4096 + page

/-- The frames of active segments are in use, the allocator does not hand them out,
and its count is that of the frames in use. -/
structure SegmentsHeld (boot : Paging) (k : Kernel) : Prop where
  used : ∀ f, SegmentFrame k f → k.paging.frameAllocator.bitmap f = true
  kept : ∀ f phys fa, SegmentFrame k f →
    k.paging.frameAllocator.allocateFrame = some (phys, fa) → phys ≠ f * 4096
  count : k.paging.frameAllocator.allocatedFrames =
    boot.frameAllocator.allocatedFrames + inUse boot k.paging.frameAllocator.refcount

theorem segmentFrame_iff {k : Kernel} {f : Nat} : SegmentFrame k f ↔ f ∈ shmFrames k.segtab := by
  simp only [SegmentFrame, shmFrames, frameRun, Set.mem_ofPred_eq, Set.mem_Ico]
  refine exists_congr fun id => and_congr_right fun _ => ?_
  constructor
  · rintro ⟨page, bound, active, rfl⟩
    exact ⟨active, by omega⟩
  · rintro ⟨active, low, high⟩
    exact ⟨f - (k.segtab id).physBase / 4096, by omega, active, by omega⟩

theorem Formed.held {boot : Paging} {L : Layout} {k : Kernel} (formed : Formed boot L k) :
    SegmentsHeld boot k := by
  obtain ⟨extra, inv⟩ := formed.inv
  have used : ∀ f, SegmentFrame k f → k.paging.frameAllocator.bitmap f = true := by
    intro f frame
    obtain ⟨pool, -, positive⟩ := inv.acc.shared (segmentFrame_iff.mp frame)
    exact (inv.acc.used pool).mpr positive
  refine ⟨used, ?_, inv.acc.count⟩
  rintro f phys fa frame allocated rfl
  obtain ⟨g, same, free, -⟩ := inv.acc.allocate inv.start allocated
  obtain rfl : f = g := by omega
  exact absurd ((used f frame).symm.trans free) (by decide)

/-- **Frames of segments stay allocated** in every state of a careful run. -/
theorem segments_held {boot : Paging} (start : Boot boot) {ops : List Op} {k : Kernel}
    (careful : Along move Careful (Kernel.start boot) ops)
    (ran : run move (Kernel.start boot) ops = some k) : SegmentsHeld boot k := by
  obtain ⟨L, formed⟩ := formed_of_run start careful ran
  exact formed.held

/-- A program of one page. -/
def onePage : Plan := ⟨[.map 0x400000 1 true true .oomCode], 0x400000, 0x401000⟩

/-- A task creates a segment of one page, attaches it and forks. -/
def shareAndFork : List Op :=
  [.start onePage [], .act 0 (.shmget 1 4096), .act 0 (.shmat 0), .act 0 (.fork .zeroed)]

theorem segments_held_shareAndFork :
    ∃ k, run move (Kernel.start smallBoot) shareAndFork = some k ∧ SegmentFrame k 8197 ∧
      SegmentsHeld smallBoot k := by
  have ends : (run move (Kernel.start smallBoot) shareAndFork).map (fun k =>
      decide ((k.segtab 0).active = true ∧ (k.segtab 0).physBase = 8197 * 4096 ∧
        (k.segtab 0).pages = 1)) = some true := by decide +kernel
  obtain ⟨k, ran, facts⟩ := Option.map_eq_some_iff.mp ends
  obtain ⟨active, base, pages⟩ := of_decide_eq_true facts
  have steady : Along move Checkable (Kernel.start smallBoot) shareAndFork := by decide +kernel
  refine ⟨k, ran, ⟨0, by decide, 0, by rw [pages]; decide, active, by rw [base]⟩, ?_⟩
  exact segments_held smallBoot_boot (steady.mono fun _ _ => Checkable.careful) ran

/-- Unmapping an attached page frees the frame of the segment, which the allocator
may then give to another owner. -/
theorem munmap_frees_segment :
    Boot smallBoot ∧ ∃ k, run move (Kernel.start smallBoot)
        [.start onePage [], .act 0 (.shmget 1 4096), .act 0 (.shmat 0),
          .act 0 (.munmap 0x20000000 4096)] = some k ∧
      SegmentFrame k 8197 ∧ k.paging.frameAllocator.bitmap 8197 = false ∧
      ¬SegmentsHeld smallBoot k := by
  refine ⟨smallBoot_boot, ?_⟩
  have ends : (run move (Kernel.start smallBoot)
      [.start onePage [], .act 0 (.shmget 1 4096), .act 0 (.shmat 0),
        .act 0 (.munmap 0x20000000 4096)]).map (fun k =>
          decide ((k.segtab 0).active = true ∧ (k.segtab 0).physBase = 8197 * 4096 ∧
            (k.segtab 0).pages = 1 ∧ k.paging.frameAllocator.bitmap 8197 = false)) = some true := by
    decide +kernel
  obtain ⟨k, ran, facts⟩ := Option.map_eq_some_iff.mp ends
  obtain ⟨active, base, pages, freed⟩ := of_decide_eq_true facts
  have frame : SegmentFrame k 8197 :=
    ⟨0, by decide, 0, by rw [pages]; decide, active, by rw [base]⟩
  refine ⟨k, ran, frame, freed, fun held => ?_⟩
  exact absurd ((held.used 8197 frame).symm.trans freed) (by decide)

/-! ## The reach of memory calls -/

def memoryCall : Act → Bool
  | .brk _ | .mmap _ | .munmap _ _ | .shmat _ => true
  | _ => false

/-- From `k` to `k'` the task in slot `i` has changed no translation but those of
its own lower half, and no frame behind another translation has been freed: neither
one the kernel had at boot nor one another task maps. -/
structure Confined (boot : Paging) (k k' : Kernel) (i : Nat) : Prop where
  upper : ∀ j, occupied k j = true → ∀ virt, ¬LowerHalf virt → ∀ a,
    k'.paging.translate (k.tasks j).cr3 virt a = k.paging.translate (k.tasks j).cr3 virt a
  lower : ∀ j, occupied k j = true → j ≠ i → ∀ virt, LowerHalf virt → ∀ a,
    k'.paging.translate (k.tasks j).cr3 virt a = k.paging.translate (k.tasks j).cr3 virt a
  kernelFrames : ∀ f, boot.frameAllocator.bitmap f = true →
    k'.paging.frameAllocator.bitmap f = true
  taskFrames : ∀ j, occupied k j = true → j ≠ i → ∀ virt, LowerHalf virt → ∀ a phys,
    k.paging.translate (k.tasks j).cr3 virt a = .ok phys →
      k'.paging.frameAllocator.bitmap (phys / 4096) = true

/-- A memory call works on the caller's own address space. -/
theorem Moves.others_kept {L L' : Layout} {i : Nat} {b : Books} {a : Act}
    (moves : Moves L (.act i a) L') (call : memoryCall a = true) (live : L.books i = some b)
    {r : Nat} (member : r ∈ L.spaces.roots) :
    r ∈ L'.spaces.roots ∧ (r ≠ b.root → ∀ v, L'.spaces.view r v = L.spaces.view r v) := by
  have region : ∀ {b' : Books} {A' : AddressSpaces} {virt pages : Nat}, L.books i = some b' →
      MapsRegion L.spaces A' b'.root virt pages (userFlags true false) →
      r ∈ A'.roots ∧ (r ≠ b.root → ∀ v, A'.view r v = L.spaces.view r v) := by
    intro b' A' virt pages live' more
    rw [live] at live'
    cases live'
    exact ⟨more.roots ▸ member, fun other v => more.others other⟩
  have segment : ∀ {b' : Books} {A' : AddressSpaces} {virt base pages : Nat}, L.books i = some b' →
      MapsShared L.spaces A' b'.root virt base pages (userFlags true false) →
      r ∈ A'.roots ∧ (r ≠ b.root → ∀ v, A'.view r v = L.spaces.view r v) := by
    intro b' A' virt base pages live' more
    rw [live] at live'
    cases live'
    exact ⟨more.roots ▸ member, fun other v => more.others r v (.inl other)⟩
  cases moves with
  | refused | noted _ _ => exact ⟨member, fun _ _ => rfl⟩
  | leftover beside =>
    refine ⟨by rw [beside.roots]; exact Finset.mem_insert_of_mem member, fun _ v => ?_⟩
    refine beside.others ?_
    rintro rfl
    exact beside.new member
  | grown live' _ more _ => exact region live' more
  | mapped live' more _ => exact region live' more
  | unfinished live' more => exact region live' more
  | unmapped live' _ roots kept _ =>
    rw [live] at live'
    cases live'
    exact ⟨roots ▸ member, fun other v => kept r v (.inl other)⟩
  | attached live' _ _ _ more _ _ => exact segment live' more
  | unattached live' _ _ more => exact segment live' more
  | executed | exited | forked | unforked | created | detached | stored => cases call

/-- **Memory calls are confined** to the caller's lower half, in every state of a
careful run. -/
theorem calls_confined {boot : Paging} (start : Boot boot) {ops : List Op} {k k' : Kernel}
    (careful : Along move Careful (Kernel.start boot) ops)
    (ran : run move (Kernel.start boot) ops = some k) {i : Nat} {a : Act}
    (call : memoryCall a = true) (allowed : Careful k (.act i a))
    (moved : move k (.act i a) = some k') : Confined boot k k' i := by
  obtain ⟨L, formed⟩ := formed_of_run start careful ran
  obtain ⟨L', formed', moves⟩ := formed.move allowed moved
  obtain ⟨extra, inv⟩ := formed.inv
  obtain ⟨extra', inv'⟩ := formed'.inv
  have caller : occupied k i = true := by
    by_contra empty
    simp [Sys.move, empty] at moved
  have books : ∀ {j}, occupied k j = true → Sys.books k j = some (booksOf (k.tasks j)) :=
    fun here => if_pos here
  have live : L.books i = some (booksOf (k.tasks i)) := formed.books ▸ books caller
  have kept : ∀ {j}, occupied k j = true →
      (booksOf (k.tasks j)).root ∈ L'.spaces.roots ∧ (j ≠ i → ∀ v,
        L'.spaces.view (booksOf (k.tasks j)).root v =
          L.spaces.view (booksOf (k.tasks j)).root v) := by
    intro j here
    obtain ⟨member, views⟩ := moves.others_kept call live (formed.member (books here))
    refine ⟨member, fun other => views fun same => ?_⟩
    exact other (formed.sound.apart (formed.books ▸ books here) live same)
  have lower : ∀ j, occupied k j = true → j ≠ i → ∀ virt, LowerHalf virt → ∀ a,
      k'.paging.translate (k.tasks j).cr3 virt a = k.paging.translate (k.tasks j).cr3 virt a := by
    intro j here other virt low a
    obtain ⟨member, views⟩ := kept here
    rw [formed.cr3 (books here), inv'.translate_lower member low,
      inv.translate_lower (formed.member (books here)) low, views other]
  refine ⟨?_, lower, ?_, ?_⟩
  · intro j here virt high a
    rw [formed.cr3 (books here), inv'.translate_upper (kept here).1 high,
      inv.translate_upper (formed.member (books here)) high]
  · intro f used
    have outside : ¬Pool boot f := by
      intro pool
      exact absurd ((PhysicalFrameAllocator.isFree_iff.mp pool).2.symm.trans used) (by decide)
    rw [(inv'.acc.kernel outside).1, used]
  · intro j here other virt low a phys through
    obtain ⟨member, views⟩ := kept here
    rw [← lower j here other virt low a, formed.cr3 (books here)] at through
    obtain ⟨e, mapped, rfl, -⟩ := inv'.translate_ok member low through
    rw [Paging.frame_of_offset]
    exact inv'.mapped_used mapped

/-- Two programs are started. -/
def twoPrograms : List Op := [.start onePage [], .start onePage []]

theorem calls_confined_mmap :
    ∃ k k', run move (Kernel.start smallBoot) twoPrograms = some k ∧ occupied k 1 = true ∧
      move k (.act 0 (.mmap 4096)) = some k' ∧ Confined smallBoot k k' 0 := by
  have ends : (run move (Kernel.start smallBoot) twoPrograms).map (fun k =>
      decide (occupied k 1 = true ∧ Checkable k (.act 0 (.mmap 4096)) ∧
        (move k (.act 0 (.mmap 4096))).isSome = true)) = some true := by decide +kernel
  obtain ⟨k, ran, facts⟩ := Option.map_eq_some_iff.mp ends
  obtain ⟨second, steady, defined⟩ := of_decide_eq_true facts
  obtain ⟨k', moved⟩ := Option.isSome_iff_exists.mp defined
  have before : Along move Checkable (Kernel.start smallBoot) twoPrograms := by decide +kernel
  exact ⟨k, k', ran, second, moved, calls_confined smallBoot_boot
    (before.mono fun _ _ => Checkable.careful) ran rfl steady.careful moved⟩

/-- The tables of a kernel with one page at the start of the upper half: frame 1 is
the L4 table, frames 2, 3 and 4 are the tables below, frame 5 is the page. -/
def kernelMem (f i : Nat) : Nat :=
  if f = 1 ∧ i = 256 then 0x2003 else
  if f = 2 ∧ i = 0 then 0x3003 else
  if f = 3 ∧ i = 0 then 0x4003 else
  if f = 4 ∧ i = 0 then 0x5003 else 0

def kernelBoot : Paging := { smallBoot with mem := kernelMem }

theorem kernelMem_present {f i : Nat} (present : isPresent (kernelMem f i) = true) :
    f = 1 ∧ i = 256 ∧ kernelMem f i = 0x2003 ∨ f = 2 ∧ i = 0 ∧ kernelMem f i = 0x3003 ∨
      f = 3 ∧ i = 0 ∧ kernelMem f i = 0x4003 ∨ f = 4 ∧ i = 0 ∧ kernelMem f i = 0x5003 := by
  unfold kernelMem at present ⊢
  split_ifs at present ⊢ with first second third fourth
  · exact .inl ⟨first.1, first.2, rfl⟩
  · exact .inr (.inl ⟨second.1, second.2, rfl⟩)
  · exact .inr (.inr (.inl ⟨third.1, third.2, rfl⟩))
  · exact .inr (.inr (.inr ⟨fourth.1, fourth.2, rfl⟩))
  · exact absurd present (by decide)

theorem kernelBoot_tables {level f : Nat} (table : KernelTable kernelBoot level f) :
    level = 3 ∧ f = 2 ∨ level = 2 ∧ f = 3 ∨ level = 1 ∧ f = 4 := by
  induction table with
  | top _ _ present =>
    rcases kernelMem_present present with ⟨-, -, entry⟩ | ⟨wrong, -⟩ | ⟨wrong, -⟩ | ⟨wrong, -⟩
    · refine .inl ⟨rfl, ?_⟩
      show frameOf (kernelMem _ _) = 2
      rw [entry]
      decide
    all_goals exact absurd wrong (by decide)
  | @down level f i _ _ present _ above =>
    rcases kernelMem_present present with ⟨rfl, -⟩ | ⟨rfl, -, entry⟩ | ⟨rfl, -, entry⟩ | ⟨rfl, -⟩
    · omega
    · refine .inr (.inl ⟨by omega, ?_⟩)
      show frameOf (kernelMem 2 i) = 3
      rw [entry]
      decide
    · refine .inr (.inr ⟨by omega, ?_⟩)
      show frameOf (kernelMem 3 i) = 4
      rw [entry]
      decide
    · omega

theorem kernelBoot_boot : Boot kernelBoot := by
  have pool : ∀ {f}, Pool kernelBoot f → 8192 ≤ f := fun free => smallBoot_boot.pool_high free
  refine ⟨pool, fun _ => rfl, Nat.zero_le _, smallBoot_boot.kernel_cr3,
    smallBoot_boot.kernel_l4, ?_,
    ?_, ?_⟩
  · intro level f table free
    have high := pool free
    have low := kernelBoot_tables table
    omega
  · intro i _ _
    show isUser (kernelMem 1 i) = false
    unfold kernelMem
    split_ifs <;> decide
  · intro f i _ _ present
    show isCow (kernelMem f i) = false
    rcases kernelMem_present present with
      ⟨-, -, entry⟩ | ⟨-, -, entry⟩ | ⟨-, -, entry⟩ | ⟨-, -, entry⟩ <;>
      rw [entry] <;> decide

/-- A task unmaps a page of the kernel: the other task has lost the translation too,
and the frame behind it is free. -/
theorem munmap_frees_kernel_page :
    Boot kernelBoot ∧ ∃ k k', run move (Kernel.start kernelBoot) twoPrograms = some k ∧
      move k (.act 0 (.munmap 0xFFFF800000000000 4096)) = some k' ∧
      (k.paging.translate (k.tasks 1).cr3 0xFFFF800000000000 .kernelWrite).toOption = some 0x5000 ∧
      (k'.paging.translate (k.tasks 1).cr3 0xFFFF800000000000 .kernelWrite).toOption = none ∧
      k'.paging.frameAllocator.bitmap 5 = false ∧ ¬Confined kernelBoot k k' 0 := by
  refine ⟨kernelBoot_boot, ?_⟩
  have ends : (run move (Kernel.start kernelBoot) twoPrograms).map (fun k =>
      (move k (.act 0 (.munmap 0xFFFF800000000000 4096))).map (fun k' => decide
        ((k.paging.translate (k.tasks 1).cr3 0xFFFF800000000000 .kernelWrite).toOption =
          some 0x5000 ∧
          (k'.paging.translate (k.tasks 1).cr3 0xFFFF800000000000 .kernelWrite).toOption = none ∧
          k'.paging.frameAllocator.bitmap 5 = false))) = some (some true) := by decide +kernel
  obtain ⟨k, ran, rest⟩ := Option.map_eq_some_iff.mp ends
  obtain ⟨k', moved, facts⟩ := Option.map_eq_some_iff.mp rest
  obtain ⟨before, after, freed⟩ := of_decide_eq_true facts
  refine ⟨k, k', ran, moved, before, after, freed, fun confined => ?_⟩
  have used : kernelBoot.frameAllocator.bitmap 5 = true := by decide
  exact absurd ((confined.kernelFrames 5 used).symm.trans freed) (by decide)

end OxideOS.Sys
