import OxideOS.Sys.Layout

/-!
# Every operation is a move

`Formed boot L k` relates the running system to a sound layout: the paging state is
well formed for its address spaces and for the frames of the active segments, and
the books and the segment table are those of the layout. `Formed.move` is the
simulation: a careful operation of the system is a move of the layout.

`Careful` keeps the operations away from what the kernel does not guard against.
Mapping, unmapping and copying stay in the lower half. A segment is created from
frames that are free in a row. Frames of segments are mapped without a reference of
their own, so that unmapping such a page, or freeing an address space that has one,
would free the frame: a task unmaps no page of a segment, and it exits or executes
another program only if it maps none.
-/

set_option autoImplicit false

namespace OxideOS.Sys

open Lib Mem Fs Ipc Proc Proc.Kernel PageTableFlags PageTableEntry Function
open Prog hiding update

/-! ## Careful operations -/

/-- The address space of the task maps no frame of an active segment. -/
def NoShared (k : Kernel) (i : Nat) : Prop :=
  ∀ v e, leafAt k.paging.mem ((k.tasks i).cr3 / 4096) v = some e → frameOf e ∉ shmFrames k.segtab

/-- No page of the region is mapped to a frame of an active segment. -/
def NoSharedIn (k : Kernel) (i addr pages : Nat) : Prop :=
  ∀ page < pages, ∀ e,
    leafAt k.paging.mem ((k.tasks i).cr3 / 4096) (regionPage addr page) = some e →
    frameOf e ∉ shmFrames k.segtab

/-- Where the next anonymous mapping of the task starts. -/
def mmapBase (t : Task) : Nat := if t.mmapEnd = 0 then userMmapBase else t.mmapEnd

/-- The key has a segment. -/
def KeyExists (segtab : Nat → ShmSegment) (key : Nat) : Prop :=
  ∃ id < maxSegments, (segtab id).active = true ∧ (segtab id).key = key % 2 ^ 32

def Careful (k : Kernel) : Op → Prop
  | .start plan _ => ∀ s ∈ plan.steps, s.Low
  | .act i a =>
    match a with
    | .exec plan => (∀ s ∈ plan.steps, s.Low) ∧ NoShared k i
    | .exit _ => NoShared k i
    | .brk newEnd => newEnd ≤ 2 ^ 47
    | .mmap len => LowerRegion (mmapBase (k.tasks i)) (pagesFor len)
    | .munmap addr len => LowerRegion addr (pagesFor len) ∧ NoSharedIn k i addr (pagesFor len)
    | .shmget key size =>
      KeyExists k.segtab key ∨ FreeRun k.paging.frameAllocator ((size + 4095) / 4096)
    | .fork _ | .shmat _ | .shmdt _ | .sigaction _ _ _ | .setFs _ | .store _ _ => True

instance (segtab : Nat → ShmSegment) (f : Nat) : Decidable (f ∈ shmFrames segtab) :=
  inferInstanceAs (Decidable (∃ id < maxSegments, (segtab id).active = true ∧
    f ∈ Set.Ico ((segtab id).physBase / 4096) ((segtab id).physBase / 4096 + (segtab id).pages)))

instance (k : Kernel) (i addr pages : Nat) : Decidable (NoSharedIn k i addr pages) := by
  unfold NoSharedIn
  infer_instance

instance (segtab : Nat → ShmSegment) (key : Nat) : Decidable (KeyExists segtab key) :=
  inferInstanceAs (Decidable (∃ id < maxSegments, _))

/-- A careful operation other than `exec` and `exit`: whether an operation is one
can be decided. -/
def Checkable (k : Kernel) : Op → Prop
  | .act _ (.exec _) | .act _ (.exit _) => False
  | op => Careful k op

instance (k : Kernel) (op : Op) : Decidable (Checkable k op) := by
  cases op with
  | start plan name => exact inferInstanceAs (Decidable (∀ s ∈ plan.steps, s.Low))
  | act i a => cases a <;> dsimp only [Checkable, Careful] <;> infer_instance

variable {k k' : Kernel}

theorem Checkable.careful {op : Op} (steady : Checkable k op) : Careful k op := by
  cases op with
  | start plan name => exact steady
  | act i a =>
    cases a with
    | exec plan | exit arg => exact steady.elim
    | _ => exact steady

/-! ## The relation -/

structure Formed (boot : Paging) (L : Layout) (k : Kernel) : Prop where
  books : L.books = Sys.books k
  segtab : L.segtab = k.segtab
  inv : ∃ extra, Inv boot L.spaces (shmFrames k.segtab) extra k.paging
  sound : L.Sound

/-- The operation has led from a state formed for `L` to `k'` by a move. -/
def Simulates (boot : Paging) (L : Layout) (op : Op) (k' : Kernel) : Prop :=
  ∃ L', Formed boot L' k' ∧ Moves L op L'

/-- What holds of every way a procedure ends holds after it. -/
theorem settle_of_wp {α : Type} {c : Kern α} {Q : Kernel → Prop} (ends : wp c (fun _ s => Q s)
      (fun e s => ∀ code, e = .exitToKernel code → Q (s.finishSlice code)) k)
    (settled : settle (c k) = some k') : Q k' := by
  unfold wp at ends
  split at ends
  · next result =>
      rw [result] at settled
      cases settled
      exact ends
  · next e s result =>
      rw [result] at settled
      cases e with
      | exitToKernel code =>
        cases settled
        exact ends code rfl
      | halt => cases settled

@[simp] theorem wp_onPaging {c : Prog Paging PagingError PUnit}
    {Q : Bool → Kernel → Prop} {E : Leave → Kernel → Prop} :
    wp (onPaging c) Q E k ↔
      wp c (fun _ p => Q true { k with paging := p }) (fun _ p => Q false { k with paging := p })
        k.paging := by
  unfold wp onPaging
  rcases c k.paging with ⟨e | a, p⟩ <;> rfl

variable {virt : Nat}

theorem wp_copyToRegionIn {cr3 : Nat} {bytes : List UInt8}
    {Q : PUnit → Kernel → Prop} {E : Leave → Kernel → Prop} :
    wp (Kernel.copyToRegionIn cr3 virt bytes) Q E k ↔
      match k.paging.copyToRegionIn cr3 virt bytes with
      | some p => Q ⟨⟩ { k with paging := p }
      | none => E .halt k := by
  unfold wp Kernel.copyToRegionIn
  cases k.paging.copyToRegionIn cr3 virt bytes <;> rfl

namespace Formed

variable {boot : Paging} {L : Layout} {k : Kernel} {i : Nat} {b : Books} {op : Op}

section

variable (formed : Formed boot L k) (live : Sys.books k i = some b)
include formed live

theorem member :
    b.root ∈ L.spaces.roots :=
  (formed.sound.root (formed.books ▸ live)).1

theorem cr3 :
    (k.tasks i).cr3 = b.root * 4096 := by
  rw [← (formed.sound.root (formed.books ▸ live)).2, ← (books_eq_some.mp live).2.2]
  rfl

/-- The page tables of a task are its address space. -/
theorem leafAt_eq (v : Nat) :
    leafAt k.paging.mem ((k.tasks i).cr3 / 4096) v = L.spaces.view b.root v := by
  obtain ⟨extra, inv⟩ := formed.inv
  rw [formed.cr3 live, Paging.frame_div, inv.rep.leafAt_eq (formed.member live)]

theorem plain (none : NoShared k i) :
    L.Plain b.root := by
  intro v e mapped
  rw [formed.segtab]
  refine none v e ?_
  rw [formed.leafAt_eq live, mapped]

end

/-- The layout has moved along. -/
theorem follow (formed : Formed boot L k) {L' : Layout} (moves : Moves L op L')
    (books : L'.books = Sys.books k') (segtab : L'.segtab = k'.segtab)
    (inv : ∃ extra, Inv boot L'.spaces (shmFrames k'.segtab) extra k'.paging) :
    Simulates boot L op k' :=
  ⟨L', ⟨books, segtab, inv, moves.sound formed.sound⟩, moves⟩

/-- Nothing has changed. -/
theorem refuse (formed : Formed boot L k) (books : Sys.books k' = Sys.books k)
    (segtab : k'.segtab = k.segtab) (paging : k'.paging = k.paging) : Simulates boot L op k' := by
  refine formed.follow .refused (formed.books.trans books.symm) (formed.segtab.trans segtab.symm) ?_
  rw [segtab, paging]
  exact formed.inv

/-! ## Memory -/

/-- A region of the caller is mapped, or some of its pages. -/
theorem mapRegion (formed : Formed boot L k) (live : Sys.books k i = some b) {pages : Nat}
    (low : LowerRegion virt pages) :
    wp (Paging.mapUserRegionIn (k.tasks i).cr3 virt pages true false)
      (fun _ p => ∃ A', (∃ extra, Inv boot A' (shmFrames k.segtab) extra p) ∧
        MapsRegion L.spaces A' b.root virt pages (userFlags true false) ∧
        ∀ page < pages, L.spaces.view b.root (regionPage virt page) = none ∧
          A'.view b.root (regionPage virt page) ≠ none)
      (fun _ p => ∃ A', (∃ extra, Inv boot A' (shmFrames k.segtab) extra p) ∧
        MapsRegion L.spaces A' b.root virt pages (userFlags true false)) k.paging := by
  obtain ⟨extra, inv⟩ := formed.inv
  rw [formed.cr3 live]
  refine wp_mono ?_ ?_ (inv.mapUserRegionIn_spec (formed.member live) low true false)
  · rintro - p ⟨A', inv', more, mapped⟩
    exact ⟨A', ⟨extra, inv'⟩, more, mapped⟩
  · rintro - p ⟨A', extra', inv', more, -⟩
    exact ⟨A', ⟨extra', inv'⟩, more⟩

variable {addr len : Nat}

theorem pageCeil_eq (bound : addr ≤ 2 ^ 47) :
    pageCeil addr = (addr + 4095) / 4096 * 4096 := by
  rw [pageCeil]
  omega

/-- The pages by which the heap grows lie in the lower half. -/
theorem heap_low {b : Books} {newEnd : Nat} (higher : heapTop b < newEnd)
    (bound : newEnd ≤ 2 ^ 47) :
    LowerRegion (pageCeil (heapTop b)) (heapPages b newEnd) := by
  intro page inside
  refine lowerHalf_of_lt ?_
  rw [heapPages, pageCeil_eq bound, pageCeil_eq (by omega)] at inside
  rw [Paging.pageVirt, pageCeil_eq (by omega)]
  split at inside <;> omega

theorem growHeap_eq (cr3 : Nat) (b : Books) (newEnd : Nat) :
    growHeap cr3 (pageCeil (heapTop b)) (pageCeil newEnd) =
      onPaging (Paging.mapUserRegionIn cr3 (pageCeil (heapTop b)) (heapPages b newEnd)
        true false) := by
  unfold growHeap heapPages
  split
  · rfl
  · rfl

theorem brk (formed : Formed boot L k) (live : Sys.books k i = some b) {newEnd : Nat}
    (low : newEnd ≤ 2 ^ 47) :
    wp (brkProgram newEnd) (fun _ k' => Simulates boot L (.act i (.brk newEnd)) k')
      (fun _ _ => False) (enter i k) := by
  have recorded : booksOf (k.tasks i) = b := (books_eq_some.mp live).2.2
  have top : (if (k.tasks i).heapEnd = 0 then userHeapBase else (k.tasks i).heapEnd) =
      heapTop b := by
    rw [heapTop, ← recorded]
    rfl
  unfold brkProgram
  simp only [currentTask, wp_bind, wp_gets, enter, top]
  split
  · exact formed.refuse rfl rfl rfl
  · next grows =>
      push Not at grows
      rw [growHeap_eq]
      simp only [wp_bind, wp_onPaging]
      refine wp_mono ?_ ?_ (formed.mapRegion live (heap_low grows.2.2 low))
      · rintro - p ⟨A', inv', more, mapped⟩
        refine formed.follow (.grown (formed.books ▸ live) grows.2.2 more mapped) ?_
          formed.segtab inv'
        obtain rfl := recorded
        rw [formed.books]
        exact (books_modifyTask (f := fun t => { t with heapEnd := newEnd }) live rfl).symm
      · rintro - p ⟨A', inv', more⟩
        exact formed.follow (.unfinished (formed.books ▸ live) more) formed.books formed.segtab inv'

theorem recordRegion_same (base pages : Nat) (t : Task) :
    (recordRegion base pages t).live = t.live ∧
      booksOf (recordRegion base pages t) = { booksOf t with
        mmapEnd := (booksOf (recordRegion base pages t)).mmapEnd
        mmapRegions := (booksOf (recordRegion base pages t)).mmapRegions
        mmapNregions := (booksOf (recordRegion base pages t)).mmapNregions } := by
  unfold recordRegion
  simp only
  split
  · exact ⟨rfl, rfl⟩
  · exact ⟨rfl, rfl⟩

theorem mmap (formed : Formed boot L k) (live : Sys.books k i = some b)
    (low : LowerRegion (mmapBase (k.tasks i)) (pagesFor len)) :
    wp (mmapAnon len) (fun _ k' => Simulates boot L (.act i (.mmap len)) k')
      (fun _ _ => False) (enter i k) := by
  have recorded : booksOf (k.tasks i) = b := (books_eq_some.mp live).2.2
  unfold mmapAnon
  split
  · exact formed.refuse rfl rfl rfl
  · simp only [currentTask, wp_bind, wp_gets, enter, wp_onPaging]
    refine wp_mono ?_ ?_ (formed.mapRegion live low)
    · rintro - p ⟨A', inv', more, -⟩
      obtain ⟨alive, rest⟩ := recordRegion_same (mmapBase (k.tasks i)) (pagesFor len) (k.tasks i)
      rw [recorded] at rest
      refine formed.follow (.mapped (formed.books ▸ live) more rest) ?_ formed.segtab inv'
      rw [formed.books]
      exact (books_modifyTask live alive).symm
    · rintro - p ⟨A', inv', more⟩
      exact formed.follow (.unfinished (formed.books ▸ live) more) formed.books formed.segtab inv'

theorem removeRegion_same (addr : Nat) (t : Task) :
    (removeRegion addr t).live = t.live ∧
      booksOf (removeRegion addr t) = { booksOf t with
        mmapRegions := (booksOf (removeRegion addr t)).mmapRegions
        mmapNregions := (booksOf (removeRegion addr t)).mmapNregions } := by
  unfold removeRegion
  split
  · exact ⟨rfl, rfl⟩
  · exact ⟨rfl, rfl⟩

theorem munmap (formed : Formed boot L k) (live : Sys.books k i = some b)
    (low : LowerRegion addr (pagesFor len)) (plain : NoSharedIn k i addr (pagesFor len)) :
    wp (Sys.munmap addr len) (fun _ k' => Simulates boot L (.act i (.munmap addr len)) k')
      (fun _ _ => False) (enter i k) := by
  have recorded : booksOf (k.tasks i) = b := (books_eq_some.mp live).2.2
  obtain ⟨extra, inv⟩ := formed.inv
  have others : ∀ page < pagesFor len, ∀ e,
      L.spaces.view b.root (regionPage addr page) = some e → frameOf e ∉ shmFrames k.segtab := by
    intro page bound e mapped
    refine plain page bound e ?_
    rw [formed.leafAt_eq live, mapped]
  unfold Sys.munmap
  split
  · exact formed.refuse rfl rfl rfl
  · obtain ⟨A', inv', roots, -, kept⟩ :=
      inv.unmapUserRegionIn_spec (formed.member live) low others
    obtain ⟨alive, rest⟩ := removeRegion_same addr (k.tasks i)
    rw [recorded] at rest
    rw [← formed.cr3 live] at inv'
    refine formed.follow (.unmapped (formed.books ▸ live) ?_ roots kept rest) ?_ formed.segtab
      ⟨extra, inv'⟩
    · rw [formed.segtab]
      exact others
    · rw [formed.books]
      exact (books_modifyTask live alive).symm

/-! ## Shared memory -/

/-- A new segment adds its frames. -/
theorem shmFrames_update {segtab : Nat → ShmSegment} {id : Nat} (bound : id < maxSegments)
    (free : (segtab id).active = false) {seg : ShmSegment} (active : seg.active = true) :
    shmFrames (update segtab id seg) =
      shmFrames segtab ∪ frameRun (seg.physBase / 4096) seg.pages := by
  ext f
  simp only [shmFrames, Set.mem_union, Set.mem_ofPred_eq]
  constructor
  · rintro ⟨id', bound', used, inside⟩
    by_cases here : id' = id
    · subst here
      rw [update_self] at inside
      exact .inr inside
    · rw [update_of_ne here] at used inside
      exact .inl ⟨id', bound', used, inside⟩
  · rintro (⟨id', bound', used, inside⟩ | inside)
    · refine ⟨id', bound', ?_⟩
      rw [update_of_ne]
      · exact ⟨used, inside⟩
      · rintro rfl
        exact absurd (used.symm.trans free) (by decide)
    · refine ⟨id, bound, ?_⟩
      rw [update_self]
      exact ⟨active, inside⟩

theorem shmget (formed : Formed boot L k) {key size : Nat}
    (careful : KeyExists k.segtab key ∨ FreeRun k.paging.frameAllocator ((size + 4095) / 4096)) :
    wp (shmgetImpl key size) (fun _ k' => Simulates boot L (.act i (.shmget key size)) k')
      (fun _ _ => False) (enter i k) := by
  obtain ⟨extra, inv⟩ := formed.inv
  have same : ∀ {r : (Nat → ShmSegment) × Paging}, r = (k.segtab, k.paging) →
      Simulates boot L (.act i (.shmget key size))
        { enter i k with segtab := r.1, paging := r.2 } := by
    rintro r rfl
    exact formed.refuse rfl rfl rfl
  show Simulates boot L _ { enter i k with
    segtab := (Ipc.shmget (key % 2 ^ 32) size k.segtab k.paging).2.1
    paging := (Ipc.shmget (key % 2 ^ 32) size k.segtab k.paging).2.2 }
  rcases shmget_cases with unchanged | ⟨positive, small, absent, slot, bound, inactive, outcome⟩
  · exact same unchanged
  · have free : FreeRun k.paging.frameAllocator ((size + 4095) / 4096) := by
      refine careful.resolve_left ?_
      rintro ⟨id, inside, active, equal⟩
      exact absent id inside active equal
    have some' : 0 < (size + 4095) / 4096 := by omega
    have first := PhysicalFrameAllocator.isFree_iff.mp (free 0 some')
    have pool := (inv.acc.unowned first.1 first.2).1
    have high : 8192 ≤ k.paging.frameAllocator.nextFrame + 0 := inv.start.pool_high pool
    rcases inv.allocPhysFrames_spec some' free with ⟨zero, back⟩ | ⟨address, extra', inv'⟩
    · rcases outcome with ⟨-, result⟩ | ⟨nonzero, -⟩
      · rw [back] at result
        exact same result
      · exact absurd zero nonzero
    · rcases outcome with ⟨zero, -⟩ | ⟨-, result⟩
      · rw [address] at zero
        omega
      · have last := (PhysicalFrameAllocator.isFree_iff.mp
          (free ((size + 4095) / 4096 - 1) (by omega))).1
        have limit : size ≤ 0x100000 := small
        have base : k.paging.frameAllocator.nextFrame * 4096 / 4096 =
            k.paging.frameAllocator.nextFrame := Paging.frame_div _
        rw [address] at result
        rw [result]
        refine formed.follow (.created (formed.segtab ▸ inactive) ⟨?_, ?_, ?_, ?_⟩) formed.books
          (congrArg (fun t => update t slot _) formed.segtab) ⟨extra', ?_⟩
        · exact congrArg (· * 4096) base.symm
        · exact some'
        · show (size + 4095) / 4096 ≤ 256
          omega
        · show k.paging.frameAllocator.nextFrame * 4096 / 4096 + (size + 4095) / 4096 ≤ 65536
          omega
        · show Mem.Inv boot L.spaces (shmFrames (update k.segtab slot _)) extra' _
          rw [shmFrames_update bound inactive rfl, base]
          exact inv'

theorem shmat (formed : Formed boot L k) (live : Sys.books k i = some b) {shmid : Nat} :
    wp (shmatImpl shmid) (fun _ k' => Simulates boot L (.act i (.shmat shmid)) k')
      (fun _ _ => False) (enter i k) := by
  obtain ⟨extra, inv⟩ := formed.inv
  have recorded : booksOf (k.tasks i) = b := (books_eq_some.mp live).2.2
  have attaches : (k.tasks i).shmAttaches = b.shmAttaches := by rw [← recorded]; rfl
  have after : ∀ {table : Nat → ShmAttach} {segtab : Nat → ShmSegment} {p : Paging},
      Sys.books { (enter i k).modifyTask i fun t => { t with shmAttaches := table } with
          segtab := segtab, paging := p } =
        update L.books i (some { b with shmAttaches := table }) := by
    intro table segtab p
    obtain rfl := recorded
    rw [formed.books]
    exact books_modifyTask (f := fun t => { t with shmAttaches := table }) live rfl
  have back : update L.books i (some { b with shmAttaches := b.shmAttaches }) = L.books := by
    rw [formed.books]
    exact update_eq_self_iff.mpr live.symm
  show Simulates boot L _ { (enter i k).modifyTask i fun t =>
      { t with shmAttaches := (Ipc.shmat (shmid % 2 ^ 32) (k.tasks i).cr3 (k.tasks i).shmAttaches
        k.segtab k.paging).2.1 } with
    segtab := (Ipc.shmat (shmid % 2 ^ 32) (k.tasks i).cr3 (k.tasks i).shmAttaches k.segtab
      k.paging).2.2.1
    paging := (Ipc.shmat (shmid % 2 ^ 32) (k.tasks i).cr3 (k.tasks i).shmAttaches k.segtab
      k.paging).2.2.2 }
  rw [attaches]
  have unchanged : ∀ {r : Int}, Ipc.shmat (shmid % 2 ^ 32) (k.tasks i).cr3 b.shmAttaches k.segtab
      k.paging = (r, b.shmAttaches, k.segtab, k.paging) → Simulates boot L (.act i (.shmat shmid))
        { (enter i k).modifyTask i fun t => { t with shmAttaches := (Ipc.shmat (shmid % 2 ^ 32)
          (k.tasks i).cr3 b.shmAttaches k.segtab k.paging).2.1 } with
            segtab := (Ipc.shmat (shmid % 2 ^ 32) (k.tasks i).cr3 b.shmAttaches k.segtab
              k.paging).2.2.1
            paging := (Ipc.shmat (shmid % 2 ^ 32) (k.tasks i).cr3 b.shmAttaches k.segtab
              k.paging).2.2.2 } := by
    intro r result
    rw [result]
    exact formed.refuse (after.trans (back.trans formed.books)) rfl rfl
  rcases shmat_cases with ⟨-, result⟩ | ⟨bound, active, outcome⟩
  · exact unchanged (Prod.ext rfl result)
  · have ok : SegmentOk (k.segtab (shmid % 2 ^ 32)) := by
      have := formed.sound.segment bound (formed.segtab.symm ▸ active)
      rwa [formed.segtab] at this
    have frames : ∀ page < (k.segtab (shmid % 2 ^ 32)).pages,
        (k.segtab (shmid % 2 ^ 32)).physBase / 4096 + page ∈ shmFrames k.segtab := by
      intro page inside
      exact ⟨_, bound, active, Set.mem_Ico.mpr ⟨Nat.le_add_right _ _, Nat.add_lt_add_left inside _⟩⟩
    have spec := inv.mapPhysPagesIn_spec (formed.member live) (window_low bound ok.size) frames true
    rw [← ok.aligned, ← formed.cr3 live] at spec
    rcases outcome with ⟨n, -, -, -, result⟩ | ⟨e, p', failed, result⟩ | ⟨n, -, p', mapped, result⟩
    · exact unchanged result
    · obtain ⟨A', extra', inv', more⟩ := (wp_error failed).mp spec
      rw [result]
      have moves : Moves L (.act i (.shmat shmid)) { L with spaces := A' } :=
        .unattached (formed.books ▸ live) bound (formed.segtab.symm ▸ active)
          (formed.segtab.symm ▸ more)
      exact formed.follow moves (after.trans back).symm formed.segtab ⟨extra', inv'⟩
    · obtain ⟨A', extra', inv', more, pages⟩ := (wp_ok mapped).mp spec
      rw [result]
      have same := SameSegments.update k.segtab (shmid % 2 ^ 32)
        ((k.segtab (shmid % 2 ^ 32)).refcount + 1)
      refine formed.follow (.attached (formed.books ▸ live) rfl bound (formed.segtab.symm ▸ active)
        (formed.segtab.symm ▸ more) ?_ (formed.segtab.symm ▸ same)) after.symm rfl ⟨extra', ?_⟩
      · rw [formed.segtab]
        exact ⟨bound, active, pages⟩
      · show Mem.Inv boot A' (shmFrames (update k.segtab _ _)) extra' p'
        rw [same.shmFrames]
        exact inv'

theorem shmdt (formed : Formed boot L k) (live : Sys.books k i = some b) :
    wp (shmdtImpl addr) (fun _ k' => Simulates boot L (.act i (.shmdt addr)) k')
      (fun _ _ => False) (enter i k) := by
  have recorded : booksOf (k.tasks i) = b := (books_eq_some.mp live).2.2
  have attaches : (k.tasks i).shmAttaches = b.shmAttaches := by rw [← recorded]; rfl
  have after : ∀ {table : Nat → ShmAttach} {segtab : Nat → ShmSegment},
      Sys.books { (enter i k).modifyTask i fun t => { t with shmAttaches := table } with
          segtab := segtab } =
        update L.books i (some { b with shmAttaches := table }) := by
    intro table segtab
    obtain rfl := recorded
    rw [formed.books]
    exact books_modifyTask (f := fun t => { t with shmAttaches := table }) live rfl
  show Simulates boot L _ { (enter i k).modifyTask i fun t =>
      { t with shmAttaches := (Ipc.shmdt addr (k.tasks i).shmAttaches k.segtab).2.1 } with
    segtab := (Ipc.shmdt addr (k.tasks i).shmAttaches k.segtab).2.2 }
  rw [attaches]
  rcases shmdt_cases with result | ⟨n, bound, active, here, table, segments⟩
  · rw [result]
    refine formed.refuse (after.trans ?_) rfl rfl
    rw [formed.books]
    exact update_eq_self_iff.mpr live.symm
  · have same : SameSegments k.segtab (Ipc.shmdt addr b.shmAttaches k.segtab).2.2 := by
      rcases segments with unchanged | ⟨id, count, changed⟩
      · rw [unchanged]
        exact SameSegments.refl _
      · rw [changed]
        exact SameSegments.update _ _ _
    rw [table]
    refine formed.follow (.detached (formed.books ▸ live) bound active here
      (formed.segtab.symm ▸ same)) after.symm rfl ?_
    show ∃ extra,
      Mem.Inv boot L.spaces (shmFrames (Ipc.shmdt addr b.shmAttaches k.segtab).2.2) extra _
    rw [same.shmFrames]
    exact formed.inv

/-! ## Signal handlers, the FS base and stores -/

/-- The books after a change of the current task. -/
theorem note (formed : Formed boot L k) (live : Sys.books k i = some b) {a : Act} {p : Paging}
    (inv : ∃ extra, Inv boot L.spaces (shmFrames k.segtab) extra p) {f : Task → Task}
    (alive : (f (k.tasks i)).live = (k.tasks i).live)
    (rest : booksOf (f (k.tasks i)) = { b with
      fsBase := (booksOf (f (k.tasks i))).fsBase
      signalHandlers := (booksOf (f (k.tasks i))).signalHandlers }) :
    Simulates boot L (.act i a) (({ enter i k with paging := p } : Kernel).modifyTask i f) := by
  refine formed.follow (.noted (formed.books ▸ live) rest) ?_ formed.segtab inv
  rw [formed.books]
  exact (books_modifyTask live alive).symm

theorem setFs (formed : Formed boot L k) (live : Sys.books k i = some b) :
    wp (setFsBase addr) (fun _ k' => Simulates boot L (.act i (.setFs addr)) k')
      (fun _ _ => False) (enter i k) := by
  have recorded : booksOf (k.tasks i) = b := (books_eq_some.mp live).2.2
  refine formed.note (f := fun t => { t with fsBase := addr }) live formed.inv rfl ?_
  rw [← recorded]
  rfl

/-- A copy through a pointer that has passed the check stays in the lower half. -/
theorem lower_of_validated {ptr : Nat} {bytes : List UInt8} {p p' : Paging} {cr3 : Nat}
    (valid : validateUserRange ptr len = .ok ()) (fits : bytes.length ≤ len)
    (done : p.copyToRegionIn cr3 ptr bytes = some p') :
    bytes = [] ∨ ptr + bytes.length ≤ 2 ^ 47 := by
  rcases bytes.eq_nil_or_concat with empty | ⟨init, last, rfl⟩
  · exact .inl empty
  · refine .inr ?_
    have ending : ptr + (len - 1) < kernelSpaceBase := by
      simp only [validateUserRange] at valid
      split_ifs at valid with zero small wraps high
      · simp only [List.length_concat] at fits
        omega
      · omega
    have canonical : Paging.canonical (ptr + ((init.concat last).length - 1)) = true := by
      unfold Paging.copyToRegionIn at done
      split at done
      · next allowed =>
          have nonempty : (init.concat last).isEmpty = false := by
            simp [List.isEmpty_eq_false_iff, List.concat_eq_append]
          rw [nonempty, Bool.false_or, Bool.and_eq_true] at allowed
          exact allowed.2
      · cases done
    simp only [Paging.canonical, Bool.or_eq_true, decide_eq_true_eq, kernelSpaceBase,
      List.length_concat] at *
    omega

theorem sigaction (formed : Formed boot L k) (live : Sys.books k i = some b)
    {signum handler oldPtr : Nat} :
    wp (Sys.sigaction signum handler oldPtr)
      (fun _ k' => Simulates boot L (.act i (.sigaction signum handler oldPtr)) k')
      (fun e _ => e = .halt) (enter i k) := by
  have recorded : booksOf (k.tasks i) = b := (books_eq_some.mp live).2.2
  unfold Sys.sigaction
  split
  · exact formed.refuse rfl rfl rfl
  · simp only [currentTask, wp_bind, wp_gets]
    split
    · exact formed.refuse rfl rfl rfl
    · next checked =>
        have done : ∀ {p : Paging}, (∃ extra, Inv boot L.spaces (shmFrames k.segtab) extra p) →
            Simulates boot L (.act i (.sigaction signum handler oldPtr))
              (({ enter i k with paging := p } : Kernel).modifyTask i fun t => { t with
                signalHandlers :=
                  update t.signalHandlers (signum % 2 ^ 32) handler }) := by
          intro p inv
          refine formed.note live inv rfl ?_
          rw [← recorded]
          rfl
        by_cases null : oldPtr = 0
        · rw [storeWord, if_pos null]
          exact done formed.inv
        · obtain ⟨extra, inv⟩ := formed.inv
          have valid : validateUserRange oldPtr 8 = .ok () := by
            cases result : validateUserRange oldPtr 8 with
            | ok _ => rfl
            | error code => exact absurd ⟨null, by rw [result]; rfl⟩ checked
          rw [storeWord, if_neg null]
          rw [wp_bind]
          show wp (Kernel.copyToRegionIn (k.tasks i).cr3 oldPtr
            (wordBytes ((k.tasks i).signalHandlers (signum % 2 ^ 32)))) _ _ (enter i k)
          generalize words : wordBytes ((k.tasks i).signalHandlers (signum % 2 ^ 32)) = bytes
          have eight : bytes.length = 8 := by
            rw [← words, wordBytes, List.length_map, List.length_range]
          rw [wp_copyToRegionIn]
          split
          · next p copied =>
              change k.paging.copyToRegionIn (k.tasks i).cr3 oldPtr bytes = some p at copied
              have low : oldPtr + bytes.length ≤ 2 ^ 47 := by
                refine (lower_of_validated valid (Nat.le_of_eq eight) copied).resolve_left ?_
                rintro rfl
                cases eight
              rw [formed.cr3 live] at copied
              exact done ⟨extra, inv.copyToRegionIn_spec (formed.member live) low copied⟩
          · rfl

theorem store (formed : Formed boot L k) (live : Sys.books k i = some b) {byte : Nat} :
    wp (storeByte virt byte) (fun _ k' => Simulates boot L (.act i (.store virt byte)) k')
      (fun e _ => e = .halt) (enter i k) := by
  obtain ⟨extra, inv⟩ := formed.inv
  obtain ⟨res, p', A', done, inv', moved, -⟩ := inv.userStore_spec (formed.member live) virt byte
  rw [← formed.cr3 live] at done
  unfold wp storeByte
  simp only [enter, done]
  cases res with
  | stored =>
    rcases moved with rfl | ⟨e, f, mapped, cow, -, rfl⟩
    · exact formed.follow .refused formed.books formed.segtab ⟨extra, inv'⟩
    · exact formed.follow (.stored (formed.books ▸ live) mapped cow) formed.books formed.segtab
        ⟨extra, inv'⟩
  | killed => rfl
  | halted => rfl

/-! ## Fork -/

/-- What a fork shares verbatim are pages of segments. -/
theorem sharedPages (sound : L.Sound) (live : L.books i = some b) :
    SharedPages (shmRanges b.shmAttaches L.segtab) (shmFrames L.segtab) L.spaces b.root := by
  intro v e mapped inside
  rw [sharedPage, List.any_eq_true] at inside
  obtain ⟨range, member, within⟩ := inside
  obtain ⟨n, bound, entry⟩ := List.mem_filterMap.mp member
  rw [List.mem_range] at bound
  simp only at entry
  split at entry
  · next test =>
      rw [Bool.and_eq_true] at test
      obtain ⟨here, attached⟩ := sound.listed live bound test.1
      have ok := sound.segment attached.bound attached.active
      have size := ok.size
      have small := attached.bound
      have count : segmentPages L.segtab (b.shmAttaches n).shmid =
          (L.segtab (b.shmAttaches n).shmid).pages := by
        rw [segmentPages, if_neg (by omega), attached.active, if_pos rfl]
      rw [count, here] at entry
      cases entry
      obtain ⟨low, high⟩ : shmVaddr (b.shmAttaches n).shmid ≤ v * 4096 ∧ v * 4096 <
          shmVaddr (b.shmAttaches n).shmid + (L.segtab (b.shmAttaches n).shmid).pages * 4096 := by
        rw [Paging.inRange, Bool.and_eq_true, decide_eq_true_eq, decide_eq_true_eq] at within
        exact within
      rw [shmVaddr, shmVirtBase, shmSlotSize] at low high
      obtain ⟨page, place⟩ : ∃ page, v = 0x20000 + (b.shmAttaches n).shmid * 256 + page :=
        ⟨v - (0x20000 + (b.shmAttaches n).shmid * 256), by omega⟩
      have fits : page < (L.segtab (b.shmAttaches n).shmid).pages := by omega
      have entry := attached.pages page fits
      rw [window_page small (by omega), ← place, mapped] at entry
      cases entry
      exact attached.frame_mem ok fits
  · cases entry

/-- A slot that is free for a new task has no books. -/
theorem books_of_free {slot : Nat} (free : (k.tasks slot).state.isFree = true) :
    Sys.books k slot = none := by
  simp [Sys.books, occupied, Task.live, free]

theorem fork (formed : Formed boot L k) (live : Sys.books k i = some b) {ctx : TaskContext} :
    wp (forkChild (some ctx)) (fun _ k' => Simulates boot L (.act i (.fork ctx)) k')
      (fun _ _ => False) (enter i k) := by
  obtain ⟨extra, inv⟩ := formed.inv
  have recorded : booksOf (k.tasks i) = b := (books_eq_some.mp live).2.2
  have ranges : shmRanges (k.tasks i).shmAttaches k.segtab = shmRanges b.shmAttaches L.segtab := by
    rw [formed.segtab, ← recorded]
    rfl
  have shared : SharedPages (shmRanges b.shmAttaches L.segtab) (shmFrames k.segtab)
      L.spaces b.root := by
    have := sharedPages formed.sound (formed.books ▸ live)
    rwa [formed.segtab] at this ⊢
  have spec := inv.cowForkUserPageTable_spec (formed.member live) stackRange shared
  rw [← formed.cr3 live, ← ranges] at spec
  unfold wp forkChild
  simp only [enter, forkTask]
  cases found : firstBelow maxTasks fun j => j != i && (k.tasks j).state.isFree with
  | none => exact formed.refuse rfl rfl rfl
  | some slot =>
    obtain ⟨bound, test, -⟩ := firstBelow_eq_some found
    rw [Bool.and_eq_true] at test
    rcases result : Paging.cowForkUserPageTable (k.tasks i).cr3 stackRange
      (shmRanges (k.tasks i).shmAttaches k.segtab) k.paging with ⟨e | cr3, p⟩
    · obtain ⟨-, rfl | ⟨f, A', inv', effect⟩⟩ := (wp_error result).mp spec
      · exact formed.refuse rfl rfl rfl
      · rw [ranges] at effect
        exact formed.follow (.unforked (formed.books ▸ live) effect) formed.books formed.segtab
          ⟨extra, inv'⟩
    · obtain ⟨f, A', rfl, inv', effect, all⟩ := (wp_ok result).mp spec
      rw [ranges] at effect
      have moves : Moves L (.act i (.fork ctx)) { L with
          spaces := A'
          books := update L.books slot (some { b with
            cr3 := f * 4096, fsBase := (k.tasks slot).fsBase, shmAttaches := fun _ => .empty }) } :=
        .forked (formed.books ▸ live) (formed.books ▸ books_of_free test.2) effect all
      refine formed.follow moves ?_ formed.segtab ⟨extra, inv'⟩
      rw [formed.books, ← recorded]
      exact (books_setTask k bound (forkedTask (k.tasks slot) (k.tasks i) slot (f * 4096) k.nextUid
        { ctx with rax := 0 })).symm

/-! ## Programs come and go -/

/-- The root of a live task is not frame 0. -/
theorem cr3_ne_zero (formed : Formed boot L k) (live : Sys.books k i = some b) :
    (k.tasks i).cr3 ≠ 0 := by
  obtain ⟨extra, inv⟩ := formed.inv
  have owned := inv.rep.root_own (formed.member live)
  have high := inv.start.pool_high (inv.acc.table owned).1
  rw [formed.cr3 live]
  omega

/-- The books depend on the tasks only. -/
theorem books_congr (tasks : k'.tasks = k.tasks) : Sys.books k' = Sys.books k := by
  funext j
  rw [Sys.books, Sys.books, occupied, occupied, tasks]

theorem exec (formed : Formed boot L k) (live : Sys.books k i = some b) {plan : Plan}
    (low : ∀ s ∈ plan.steps, s.Low) (plain : NoShared k i) :
    wp (execPlan plan) (fun _ k' => Simulates boot L (.act i (.exec plan)) k')
      (fun e s => ∀ code, e = .exitToKernel code →
        Simulates boot L (.act i (.exec plan)) (s.finishSlice code)) (enter i k) := by
  obtain ⟨extra, inv⟩ := formed.inv
  have recorded : booksOf (k.tasks i) = b := (books_eq_some.mp live).2.2
  have member := formed.member live
  have spec := build_spec inv low
  unfold wp execPlan
  simp only [enter]
  rcases result : build plan.steps k.paging with ⟨e | cr3, p⟩
  · have left : Simulates boot L (.act i (.exec plan)) { enter i k with paging := p } := by
      rcases (wp_error result).mp spec with rfl | ⟨f, A', extra', inv', beside⟩
      · exact formed.refuse rfl rfl rfl
      · exact formed.follow (.leftover beside) formed.books formed.segtab ⟨extra', inv'⟩
    cases e with
    | halted =>
      intro code impossible
      cases impossible
    | emptyBinary | maxTasks | oomPageTable | oomStack | oomCode | badImage => exact left
  · obtain ⟨f, rfl, A₁, extra₁, inv₁, beside⟩ := (wp_ok result).mp spec
    have different : b.root ≠ f := by
      rintro rfl
      exact beside.new member
    have member₁ : b.root ∈ A₁.roots := by
      rw [beside.roots]
      exact Finset.mem_insert_of_mem member
    have plain₁ : ∀ v e, A₁.view b.root v = some e → frameOf e ∉ shmFrames k.segtab := by
      intro v e mapped
      rw [beside.others different] at mapped
      rw [← formed.segtab]
      exact formed.plain live plain v e mapped
    obtain ⟨A', inv', roots, -, others⟩ := inv₁.freeUserPageTable_spec member₁ plain₁
    rw [← formed.cr3 live] at inv'
    rw [beside.roots] at roots
    rintro code ⟨⟩
    rw [finishSlice, if_pos rfl]
    simp only [formed.cr3_ne_zero live, if_false]
    refine formed.follow (.executed (formed.books ▸ live) (formed.plain live plain) beside.new roots
      fun away new => (others away).trans (beside.others new)) ?_ formed.segtab ⟨extra₁, inv'⟩
    obtain rfl := recorded
    rw [formed.books]
    have bound := (books_eq_some.mp live).1
    refine ((books_congr ?_).trans (books_setTask k bound { k.tasks i with
      cr3 := f * 4096, entry := plan.entry, firstRun := true, initialRsp := plan.rsp
      fdTable := (k.tasks i).fdTable.execTable, outputLen := 0, state := .ready })).symm
    show update (update k.tasks i _) i _ = update k.tasks i _
    rw [update_idem]
    simp only [modifyTask, setTask, update_self]

/-- A signal that does not kill leaves books, segments and pages alone. -/
theorem sendSignal_same (k : Kernel) (pid : Nat) {signum : Nat} (other : signum ≠ sigkill) :
    Sys.books (sendSignal pid signum k).2 = Sys.books k ∧
      (sendSignal pid signum k).2.segtab = k.segtab ∧
      (sendSignal pid signum k).2.paging = k.paging := by
  unfold sendSignal
  split
  · exact ⟨rfl, rfl, rfl⟩
  · split
    · exact ⟨rfl, rfl, rfl⟩
    · next j _ =>
        split
        · exact ⟨rfl, rfl, rfl⟩
        · have same : Sys.books (k.modifyTask j fun t => { t with
              pendingSignals := t.pendingSignals ||| sigBit signum
              state := if t.state.isSleeping then .ready else t.state }) = Sys.books k := by
            refine books_modifyTask_same ?_ rfl
            cases state : (k.tasks j).state <;>
              simp [Task.live, TaskState.isSleeping, TaskState.isFree, state]
          exact ⟨same, rfl, rfl⟩

theorem notifyParent_same (k : Kernel) (parent child : Nat) :
    Sys.books (k.notifyParent parent child) = Sys.books k ∧
      (k.notifyParent parent child).segtab = k.segtab ∧
      (k.notifyParent parent child).paging = k.paging := by
  have sent := sendSignal_same k parent (by decide : sigchld ≠ sigkill)
  unfold notifyParent
  split <;> rename_i result <;> rw [result] at sent <;> exact sent

theorem toI32_bounds (w : Nat) : -2 ^ 31 ≤ toI32 w ∧ toI32 w < 2 ^ 31 := by
  unfold toI32
  split <;> omega

theorem exit (formed : Formed boot L k) (live : Sys.books k i = some b) {arg : Nat}
    (plain : NoShared k i) :
    Simulates boot L (.act i (.exit arg)) ((enter i k).finishSlice (toI32 arg)) := by
  obtain ⟨extra, inv⟩ := formed.inv
  have bounds := toI32_bounds arg
  have notPreempted : toI32 arg ≠ exitPreempted := by rw [exitPreempted]; omega
  have notSleeping : toI32 arg ≠ exitSleeping := by rw [exitSleeping]; omega
  have shared : ∀ v e, L.spaces.view b.root v = some e → frameOf e ∉ shmFrames k.segtab := by
    rw [← formed.segtab]
    exact formed.plain live plain
  obtain ⟨A', inv', roots, -, others⟩ := inv.freeUserPageTable_spec (formed.member live) shared
  rw [← formed.cr3 live] at inv'
  let dead : Kernel :=
    (({ enter i k with userMode := false } : Kernel).setDead i (toI32 arg)).freeSpace i
  have cr3 : ((({ enter i k with userMode := false } : Kernel).setDead i (toI32 arg)).tasks i).cr3 =
      (k.tasks i).cr3 := by
    show (update k.tasks i _ i).cr3 = _
    rw [update_self]
    rfl
  have freed : dead = { (({ enter i k with userMode := false } : Kernel).setDead i
      (toI32 arg)).modifyTask i (fun t => { t with cr3 := 0 }) with
        paging := k.paging.freeUserPageTable (k.tasks i).cr3 } := by
    show freeSpace _ i = _
    rw [freeSpace]
    simp only [cr3, formed.cr3_ne_zero live, if_false]
    rfl
  have gone : Simulates boot L (.act i (.exit arg)) dead := by
    rw [freed]
    refine formed.follow (.exited (formed.books ▸ live) (formed.plain live plain) roots others) ?_
      formed.segtab ⟨extra, inv'⟩
    have bound := (books_eq_some.mp live).1
    rw [formed.books]
    refine ((books_congr ?_).trans (books_setTask k bound { k.tasks i with
      state := .dead (toI32 arg), cr3 := 0 })).symm
    have tasks : (({ enter i k with userMode := false } : Kernel).setDead i (toI32 arg)).tasks =
        update k.tasks i { k.tasks i with state := .dead (toI32 arg) } := rfl
    simp only [modifyTask, setTask, tasks, update_self, update_idem]
  have ending : (enter i k).finishSlice (toI32 arg) =
      if (k.tasks i).parentPid ≠ 0 then dead.notifyParent (k.tasks i).parentPid (k.tasks i).uid
      else dead := by
    rw [finishSlice, if_neg notPreempted, if_neg notSleeping]
    rfl
  rw [ending]
  split
  · obtain ⟨L', formed', moves⟩ := gone
    obtain ⟨books, segtab, paging⟩ :=
      notifyParent_same dead (k.tasks i).parentPid (k.tasks i).uid
    refine ⟨L',
      ⟨formed'.books.trans books.symm, formed'.segtab.trans segtab.symm, ?_, formed'.sound⟩,
      moves⟩
    rw [segtab, paging]
    exact formed'.inv
  · exact gone

theorem start (formed : Formed boot L k) {plan : Plan} {name : List UInt8}
    (low : ∀ s ∈ plan.steps, s.Low) (moved : move k (.start plan name) = some k') :
    Simulates boot L (.start plan name) k' := by
  obtain ⟨extra, inv⟩ := formed.inv
  have spec := build_spec inv low
  simp only [move, startTask] at moved
  cases found : firstBelow maxTasks fun j => (k.tasks j).state.isFree with
  | none =>
    rw [found] at moved
    cases moved
    exact formed.refuse rfl rfl rfl
  | some slot =>
    obtain ⟨bound, free, -⟩ := firstBelow_eq_some found
    rw [found] at moved
    rcases result : build plan.steps k.paging with ⟨e | cr3, p⟩
    · have left : Simulates boot L (.start plan name) { k with paging := p } := by
        rcases (wp_error result).mp spec with rfl | ⟨f, A', extra', inv', beside⟩
        · exact formed.refuse rfl rfl rfl
        · exact formed.follow (.leftover beside) formed.books formed.segtab ⟨extra', inv'⟩
      rw [result] at moved
      cases e with
      | halted => cases moved
      | _ =>
        cases moved
        exact left
    · obtain ⟨f, rfl, A', extra', inv', beside⟩ := (wp_ok result).mp spec
      rw [result] at moved
      cases moved
      refine formed.follow (.started (formed.books ▸ books_of_free free) beside) ?_ formed.segtab
        ⟨extra', inv'⟩
      rw [formed.books]
      exact (books_setTask k bound (spawnedTask (k.tasks slot) slot (f * 4096) plan.entry plan.rsp
        k.nextUid name)).symm

/-! ## The simulation -/

/-- **Every careful operation is a move.** -/
theorem move (formed : Formed boot L k) (careful : Careful k op)
    (moved : Sys.move k op = some k') : Simulates boot L op k' := by
  cases op with
  | start plan name => exact formed.start careful moved
  | act i a =>
    simp only [Sys.move] at moved
    split at moved
    · next here =>
        have live : Sys.books k i = some (booksOf (k.tasks i)) := if_pos here
        have halts : ∀ {c : Kern Int} {Q : Kernel → Prop},
            wp c (fun _ s => Q s) (fun e _ => e = .halt) (enter i k) →
            settle (c (enter i k)) = some k' → Q k' := by
          intro c Q ends settled
          refine settle_of_wp (wp_mono (fun _ _ holds => holds) ?_ ends) settled
          rintro e s rfl code impossible
          cases impossible
        have returns : ∀ {c : Kern Int} {Q : Kernel → Prop},
            wp c (fun _ s => Q s) (fun _ _ => False) (enter i k) →
            settle (c (enter i k)) = some k' → Q k' := by
          intro c Q ends
          exact halts (wp_mono (fun _ _ holds => holds) (fun _ _ never => never.elim) ends)
        cases a with
        | fork ctx => exact returns (formed.fork live) moved
        | exec plan => exact settle_of_wp (formed.exec live careful.1 careful.2) moved
        | exit arg =>
          cases moved
          exact formed.exit live careful
        | brk newEnd => exact returns (formed.brk live careful) moved
        | mmap len => exact returns (formed.mmap live careful) moved
        | munmap addr len => exact returns (formed.munmap live careful.1 careful.2) moved
        | shmget key size => exact returns (formed.shmget careful) moved
        | shmat shmid => exact returns (formed.shmat live) moved
        | shmdt addr => exact returns (formed.shmdt live) moved
        | sigaction signum handler oldPtr => exact halts (formed.sigaction live) moved
        | setFs addr => exact returns (formed.setFs live) moved
        | store virt byte => exact halts (formed.store live) moved
    · cases moved

end Formed

/-- The system after boot has no tasks and no segments. -/
def Layout.empty : Layout := ⟨.empty, fun _ => none, fun _ => .empty⟩

theorem formed_start {boot : Paging} (start : Boot boot) :
    Formed boot Layout.empty (Kernel.start boot) := by
  have none : shmFrames (Kernel.start boot).segtab = ∅ := by
    ext f
    simp only [shmFrames, Set.mem_ofPred_eq, Set.mem_empty_iff_false, iff_false]
    rintro ⟨id, -, active, -⟩
    cases active
  refine ⟨?_, rfl, ⟨fun _ => 0, ?_⟩, ⟨?_, ?_, ?_, ?_⟩⟩
  · funext j
    simp [books, occupied, Kernel.start, Task.live, Task.empty, TaskState.isFree, Layout.empty]
  · rw [none]
    exact start.inv
  · intro id _ active
    cases active
  · intro j b absent
    cases absent
  · intro j j' b c absent
    cases absent
  · intro j b n absent
    cases absent

/-- **Careful runs keep the system formed.** -/
theorem formed_of_run {boot : Paging} (start : Boot boot) {ops : List Op}
    (careful : Along move Careful (Kernel.start boot) ops)
    (ran : run move (Kernel.start boot) ops = some k) : ∃ L, Formed boot L k := by
  refine run_invariant (I := fun k => ∃ L, Formed boot L k) ?_ ⟨_, formed_start start⟩ careful ran
  rintro k op k' ⟨L, formed⟩ careful moved
  obtain ⟨L', formed', -⟩ := formed.move careful moved
  exact ⟨L', formed'⟩

end OxideOS.Sys
