import OxideOS.Sys.Spaces

/-!
# Who maps what

The abstract side of `Spaces`: the address spaces, the books of the live tasks and
the segment table. `Moves` says what an operation can do to them. A layout is
`Sound` when every task has an address space of its own, every segment has a run of
frames, and the attachments in a task's books are mapped there as the segment's
pages; `Moves.sound` is that every move keeps this.

`Moves.attached` is the fact about shared memory behind it: a segment mapped in an
address space stays mapped there as long as the address space lives, unless its
task forks without the segment in its attachment table.
-/

set_option autoImplicit false

namespace OxideOS.Sys

open Lib Mem Fs Ipc Proc Proc.Kernel PageTableFlags PageTableEntry Function

/-! ## Segments -/

/-- The frames of the active segments. -/
def shmFrames (segtab : Nat → ShmSegment) : Set Nat :=
  { f | ∃ id < maxSegments, (segtab id).active = true ∧
    f ∈ frameRun ((segtab id).physBase / 4096) (segtab id).pages }

/-- A segment as `shmget` makes it: one to 256 whole frames. -/
structure SegmentOk (seg : ShmSegment) : Prop where
  aligned : seg.physBase = seg.physBase / 4096 * 4096
  positive : 0 < seg.pages
  size : seg.pages ≤ 256
  fits : seg.physBase / 4096 + seg.pages ≤ 65536

/-- The tables have the same segments; only the numbers of attachments differ. -/
def SameSegments (segtab segtab' : Nat → ShmSegment) : Prop :=
  ∀ id, (segtab' id).active = (segtab id).active ∧ (segtab' id).physBase = (segtab id).physBase ∧
    (segtab' id).pages = (segtab id).pages

/-- The leaf entry of a page of an attached segment. -/
def segEntry (seg : ShmSegment) (page : Nat) : Nat :=
  PageTableEntry.set ((seg.physBase / 4096 + page) * 4096) (userFlags true false)

/-- The pages of segment `id` are mapped below the root `r`, at the segment's
address. -/
structure Attached (A : AddressSpaces) (segtab : Nat → ShmSegment) (r id : Nat) : Prop where
  bound : id < maxSegments
  active : (segtab id).active = true
  pages : ∀ page < (segtab id).pages,
    A.view r (regionPage (shmVaddr id) page) = some (segEntry (segtab id) page)

theorem SameSegments.refl (segtab : Nat → ShmSegment) : SameSegments segtab segtab :=
  fun _ => ⟨rfl, rfl, rfl⟩

variable {segtab segtab' : Nat → ShmSegment}

theorem SameSegments.shmFrames
    (same : SameSegments segtab segtab') : shmFrames segtab' = shmFrames segtab := by
  ext f
  simp only [Sys.shmFrames, Set.mem_ofPred_eq]
  refine exists_congr fun id => and_congr_right fun _ => ?_
  obtain ⟨active, base, pages⟩ := same id
  rw [active, base, pages]

/-- A change of the number of attachments. -/
theorem SameSegments.update (segtab : Nat → ShmSegment) (id count : Nat) :
    SameSegments segtab (update segtab id { segtab id with refcount := count }) := by
  intro other
  by_cases here : other = id
  · subst here
    simp
  · simp [update_of_ne here]

variable {id page id' i n : Nat}

theorem SegmentOk.same (same : SameSegments segtab segtab')
    (ok : SegmentOk (segtab id)) : SegmentOk (segtab' id) := by
  obtain ⟨-, base, pages⟩ := same id
  exact ⟨by rw [base]; exact ok.aligned, by rw [pages]; exact ok.positive,
    by rw [pages]; exact ok.size, by rw [base, pages]; exact ok.fits⟩

theorem Attached.same {A : AddressSpaces} {r : Nat}
    (attached : Attached A segtab r id) (same : SameSegments segtab segtab') :
    Attached A segtab' r id := by
  obtain ⟨active, base, pages⟩ := same id
  refine ⟨attached.bound, active.trans attached.active, ?_⟩
  intro page bound
  rw [pages] at bound
  rw [attached.pages page bound, segEntry, segEntry, base]

/-- The frame of a page of a segment. -/
theorem frameOf_segEntry {seg : ShmSegment} (ok : SegmentOk seg)
    (bound : page < seg.pages) : frameOf (segEntry seg page) = seg.physBase / 4096 + page := by
  have fits := ok.fits
  exact frameOf_set (by omega) _

theorem isCow_segEntry (seg : ShmSegment) (page : Nat) : isCow (segEntry seg page) = false := by
  rw [segEntry, isCow_set, isCow_userFlags]

/-- The pages of a segment's window. -/
theorem window_page (bound : id < maxSegments) (inside : page < 256) :
    regionPage (shmVaddr id) page = 0x20000 + id * 256 + page := by
  rw [regionPage_eq, shmVaddr, shmVirtBase, shmSlotSize]
  rw [maxSegments] at bound
  omega

/-- The windows of two segments do not meet. -/
theorem window_ne {page' : Nat} (bound : id < maxSegments) (bound' : id' < maxSegments)
    (inside : page < 256) (inside' : page' < 256) (different : id ≠ id') :
    regionPage (shmVaddr id) page ≠ regionPage (shmVaddr id') page' := by
  rw [window_page bound inside, window_page bound' inside']
  omega

theorem window_low {pages : Nat} (bound : id < maxSegments) (size : pages ≤ 256) :
    LowerRegion (shmVaddr id) pages := by
  intro page inside
  rw [lowerHalf_iff, ← regionPage, window_page bound (by omega), userPages]
  rw [maxSegments] at bound
  omega

/-! ## Layouts -/

structure Layout where
  spaces : AddressSpaces
  books : Nat → Option Books
  segtab : Nat → ShmSegment

/-- The attachment table has the segment. -/
def Lists (b : Books) (id : Nat) : Prop :=
  ∃ n < maxAttach, (b.shmAttaches n).active = true ∧ (b.shmAttaches n).shmid = id

instance (b : Books) (id : Nat) : Decidable (Lists b id) :=
  inferInstanceAs (Decidable (∃ n < maxAttach, _))

variable {L : Layout} {b : Books}

namespace Layout

/-- No page below the root is mapped to a frame of a segment. -/
def Plain (L : Layout) (r : Nat) : Prop :=
  ∀ v e, L.spaces.view r v = some e → frameOf e ∉ shmFrames L.segtab

structure Sound (L : Layout) : Prop where
  segment : ∀ {id}, id < maxSegments → (L.segtab id).active = true → SegmentOk (L.segtab id)
  root : ∀ {i b}, L.books i = some b → b.root ∈ L.spaces.roots ∧ b.cr3 = b.root * 4096
  apart : ∀ {i j b c}, L.books i = some b → L.books j = some c → b.root = c.root → i = j
  listed : ∀ {i b n}, L.books i = some b → n < maxAttach → (b.shmAttaches n).active = true →
    (b.shmAttaches n).vaddr = shmVaddr (b.shmAttaches n).shmid ∧
      Attached L.spaces L.segtab b.root (b.shmAttaches n).shmid

/-- A task whose address space maps no frame of a segment lists no attachment. -/
theorem Sound.unlisted (sound : L.Sound)
    (live : L.books i = some b) (plain : L.Plain b.root) (bound : n < maxAttach) :
    (b.shmAttaches n).active = false := by
  by_contra active
  rw [Bool.not_eq_false] at active
  obtain ⟨-, attached⟩ := sound.listed live bound active
  have ok := sound.segment attached.bound attached.active
  refine plain _ _ (attached.pages 0 ok.positive) ?_
  rw [frameOf_segEntry ok ok.positive]
  refine ⟨_, attached.bound, attached.active, ?_⟩
  exact Set.mem_Ico.mpr ⟨Nat.le_add_right _ 0, Nat.add_lt_add_left ok.positive _⟩

/-- An attached segment is entered in the attachment table. -/
theorem Sound.list (sound : L.Sound)
    (live : L.books i = some b) (attached : Attached L.spaces L.segtab b.root id) :
    Sound { L with
      books := update L.books i (some { b with
        shmAttaches := update b.shmAttaches n ⟨id, shmVaddr id, true⟩ }) } := by
  have back : ∀ {j c'}, update L.books i (some { b with
      shmAttaches := update b.shmAttaches n ⟨id, shmVaddr id, true⟩ }) j = some c' →
      ∃ c, L.books j = some c ∧ c'.cr3 = c.cr3 ∧ ∀ m, c'.shmAttaches m = c.shmAttaches m ∨
        c.root = b.root ∧ c'.shmAttaches m = ⟨id, shmVaddr id, true⟩ := by
    intro j c' after
    by_cases here : j = i
    · subst here
      rw [update_self] at after
      cases after
      refine ⟨b, live, rfl, fun m => ?_⟩
      by_cases entry : m = n
      · subst entry
        exact .inr ⟨rfl, update_self _ _ _⟩
      · exact .inl (update_of_ne entry _ _)
    · rw [update_of_ne here] at after
      exact ⟨c', after, rfl, fun _ => .inl rfl⟩
  refine ⟨sound.segment, ?_, ?_, ?_⟩
  · intro j c' after
    obtain ⟨c, before, cr3, -⟩ := back after
    have old := sound.root before
    rw [Books.root] at old ⊢
    rwa [cr3]
  · intro j j' c' d' after after' equal
    obtain ⟨c, before, cr3, -⟩ := back after
    obtain ⟨d, before', cr3', -⟩ := back after'
    refine sound.apart before before' ?_
    rwa [Books.root, Books.root, cr3, cr3'] at equal
  · intro j c' m after bound active
    obtain ⟨c, before, cr3, entries⟩ := back after
    have root : c'.root = c.root := by rw [Books.root, Books.root, cr3]
    rw [root]
    rcases entries m with old | ⟨here, new⟩
    · rw [old] at active ⊢
      exact sound.listed before bound active
    · rw [new, here]
      exact ⟨rfl, attached⟩

end Layout

/-! ## Moves -/

/-- The first page behind the heap of a task. -/
def heapTop (b : Books) : Nat := if b.heapEnd = 0 then userHeapBase else b.heapEnd

/-- The number of pages by which the heap grows. -/
def heapPages (b : Books) (newEnd : Nat) : Nat :=
  if pageCeil (heapTop b) < pageCeil newEnd then
    (pageCeil newEnd - pageCeil (heapTop b)) / 4096
  else 0

/-- What an operation may do to a layout. -/
inductive Moves (L : Layout) : Op → Layout → Prop
  | refused {op : Op} : Moves L op L
  /-- A program could not be loaded; its address space is left behind. -/
  | leftover {op : Op} {A' : AddressSpaces} {f : Nat} (beside : Beside L.spaces A' f) :
      Moves L op { L with spaces := A' }
  | started {plan : Plan} {name : List UInt8} {slot f : Nat} {A' : AddressSpaces}
      (free : L.books slot = none) (beside : Beside L.spaces A' f) :
      Moves L (.start plan name)
        { L with
          spaces := A'
          books := update L.books slot (some (.fresh (f * 4096))) }
  | executed {i : Nat} {b : Books} {plan : Plan} {f : Nat} {A' : AddressSpaces}
      (live : L.books i = some b) (plain : L.Plain b.root) (new : f ∉ L.spaces.roots)
      (roots : A'.roots = (insert f L.spaces.roots).erase b.root)
      (others : ∀ {r v}, r ≠ b.root → r ≠ f → A'.view r v = L.spaces.view r v) :
      Moves L (.act i (.exec plan))
        { L with
          spaces := A'
          books := update L.books i (some { b with cr3 := f * 4096 }) }
  | exited {i : Nat} {b : Books} {arg : Nat} {A' : AddressSpaces}
      (live : L.books i = some b) (plain : L.Plain b.root)
      (roots : A'.roots = L.spaces.roots.erase b.root)
      (others : ∀ {r v}, r ≠ b.root → A'.view r v = L.spaces.view r v) :
      Moves L (.act i (.exit arg))
        { L with spaces := A', books := update L.books i none }
  | forked {i : Nat} {b : Books} {ctx : TaskContext} {slot f fs : Nat} {A' : AddressSpaces}
      (live : L.books i = some b) (free : L.books slot = none)
      (effect : ForkEffect (shmRanges b.shmAttaches L.segtab) b.root f L.spaces A')
      (all : ∀ v, L.spaces.view b.root v ≠ none → A'.view f v ≠ none) :
      Moves L (.act i (.fork ctx))
        { L with
          spaces := A'
          books := update L.books slot
            (some { b with cr3 := f * 4096, fsBase := fs, shmAttaches := fun _ => .empty }) }
  /-- A fork ran out of memory; the child's address space is left behind. -/
  | unforked {i : Nat} {b : Books} {ctx : TaskContext} {f : Nat} {A' : AddressSpaces}
      (live : L.books i = some b)
      (effect : ForkEffect (shmRanges b.shmAttaches L.segtab) b.root f L.spaces A') :
      Moves L (.act i (.fork ctx)) { L with spaces := A' }
  | grown {i : Nat} {b : Books} {newEnd : Nat} {A' : AddressSpaces} (live : L.books i = some b)
      (higher : heapTop b < newEnd)
      (more : MapsRegion L.spaces A' b.root (pageCeil (heapTop b)) (heapPages b newEnd)
        (userFlags true false))
      (mapped : ∀ page < heapPages b newEnd,
        L.spaces.view b.root (regionPage (pageCeil (heapTop b)) page) = none ∧
          A'.view b.root (regionPage (pageCeil (heapTop b)) page) ≠ none) :
      Moves L (.act i (.brk newEnd))
        { L with
          spaces := A'
          books := update L.books i (some { b with heapEnd := newEnd }) }
  | mapped {i : Nat} {b b' : Books} {len virt pages : Nat} {A' : AddressSpaces}
      (live : L.books i = some b)
      (more : MapsRegion L.spaces A' b.root virt pages (userFlags true false))
      (rest : b' = { b with
        mmapEnd := b'.mmapEnd, mmapRegions := b'.mmapRegions, mmapNregions := b'.mmapNregions }) :
      Moves L (.act i (.mmap len))
        { L with spaces := A', books := update L.books i (some b') }
  /-- A call ran out of memory or into a mapped page. -/
  | unfinished {i : Nat} {b : Books} {a : Act} {virt pages : Nat} {A' : AddressSpaces}
      (live : L.books i = some b)
      (more : MapsRegion L.spaces A' b.root virt pages (userFlags true false)) :
      Moves L (.act i a) { L with spaces := A' }
  | unmapped {i : Nat} {b b' : Books} {addr len : Nat} {A' : AddressSpaces}
      (live : L.books i = some b)
      (plain : ∀ page < pagesFor len, ∀ e, L.spaces.view b.root (regionPage addr page) = some e →
        frameOf e ∉ shmFrames L.segtab)
      (roots : A'.roots = L.spaces.roots)
      (kept : ∀ r v, r ≠ b.root ∨ (∀ page < pagesFor len, v ≠ regionPage addr page) →
        A'.view r v = L.spaces.view r v)
      (rest : b' = { b with mmapRegions := b'.mmapRegions, mmapNregions := b'.mmapNregions }) :
      Moves L (.act i (.munmap addr len))
        { L with spaces := A', books := update L.books i (some b') }
  | created {i key size id : Nat} {seg : ShmSegment} (free : (L.segtab id).active = false)
      (ok : SegmentOk seg) :
      Moves L (.act i (.shmget key size)) { L with segtab := update L.segtab id seg }
  | attached {i : Nat} {b : Books} {shmid id n : Nat} {A' : AddressSpaces}
      {segtab' : Nat → ShmSegment} (live : L.books i = some b) (number : id = shmid % 2 ^ 32)
      (bound : id < maxSegments) (active : (L.segtab id).active = true)
      (more : MapsShared L.spaces A' b.root (shmVaddr id) ((L.segtab id).physBase / 4096)
        (L.segtab id).pages (userFlags true false))
      (pages : Attached A' L.segtab b.root id) (same : SameSegments L.segtab segtab') :
      Moves L (.act i (.shmat shmid))
        { spaces := A'
          segtab := segtab'
          books := update L.books i (some { b with
            shmAttaches := update b.shmAttaches n ⟨id, shmVaddr id, true⟩ }) }
  /-- The mapping of a segment ran out of memory. -/
  | unattached {i : Nat} {b : Books} {shmid id : Nat} {A' : AddressSpaces}
      (live : L.books i = some b) (bound : id < maxSegments) (active : (L.segtab id).active = true)
      (more : MapsShared L.spaces A' b.root (shmVaddr id) ((L.segtab id).physBase / 4096)
        (L.segtab id).pages (userFlags true false)) :
      Moves L (.act i (.shmat shmid)) { L with spaces := A' }
  | detached {i : Nat} {b : Books} {addr n : Nat} {segtab' : Nat → ShmSegment}
      (live : L.books i = some b) (bound : n < maxAttach)
      (active : (b.shmAttaches n).active = true) (here : (b.shmAttaches n).vaddr = addr)
      (same : SameSegments L.segtab segtab') :
      Moves L (.act i (.shmdt addr))
        { L with
          segtab := segtab'
          books := update L.books i (some { b with
            shmAttaches := update b.shmAttaches n .empty }) }
  /-- The signal handlers or the FS base have changed. -/
  | noted {i : Nat} {b b' : Books} {a : Act} (live : L.books i = some b)
      (rest : b' = { b with fsBase := b'.fsBase, signalHandlers := b'.signalHandlers }) :
      Moves L (.act i a) { L with books := update L.books i (some b') }
  /-- A store to a copy-on-write page. -/
  | stored {i : Nat} {b : Books} {virt byte v e f : Nat} (live : L.books i = some b)
      (mapped : L.spaces.view b.root v = some e) (cow : isCow e = true) :
      Moves L (.act i (.store virt byte))
        { L with
          spaces := L.spaces.setView b.root v
            (some (withFlags (f * 4096) (asWritableNoCow (flags e)))) }

/-! ## Attached segments stay attached -/

namespace Attached

variable {A A' : AddressSpaces} {segtab : Nat → ShmSegment} {r id : Nat}

section

variable (attached : Attached A segtab r id)
include attached

/-- Pages that look the same are attached the same. -/
theorem congr (same : ∀ v, A'.view r v = A.view r v) :
    Attached A' segtab r id :=
  ⟨attached.bound, attached.active, fun page bound => (same _).trans (attached.pages page bound)⟩

/-- What is mapped stays mapped. -/
theorem kept (kept : ∀ {v e}, A.view r v = some e → A'.view r v = some e) :
    Attached A' segtab r id :=
  ⟨attached.bound, attached.active, fun page bound => kept (attached.pages page bound)⟩

/-- The frames of an attached segment belong to it. -/
theorem frame_mem (ok : SegmentOk (segtab id))
    (bound : page < (segtab id).pages) :
    frameOf (segEntry (segtab id) page) ∈ shmFrames segtab := by
  rw [frameOf_segEntry ok bound]
  refine ⟨id, attached.bound, attached.active, Set.mem_Ico.mpr ?_⟩
  omega

/-- Mapping a segment, the same or another one, over the pages of its window. -/
theorem shared (ok : SegmentOk (segtab id)) {r' : Nat}
    (bound' : id' < maxSegments) (ok' : SegmentOk (segtab id'))
    (more : MapsShared A A' r' (shmVaddr id') ((segtab id').physBase / 4096) (segtab id').pages
      (userFlags true false)) : Attached A' segtab r id := by
  have size := ok.size
  have size' := ok'.size
  refine ⟨attached.bound, attached.active, ?_⟩
  intro page bound
  rw [← attached.pages page bound]
  by_cases here : r = r'
  · subst here
    by_cases same : id = id'
    · subst same
      rcases more.pages page bound with unchanged | set
      · exact unchanged
      · rw [set, attached.pages page bound, segEntry]
    · refine more.others _ _ (.inr fun page' inside => ?_)
      exact window_ne attached.bound bound' (by omega) (by omega) same
  · exact more.others _ _ (.inl here)

/-- Another segment is created. -/
theorem created {seg : ShmSegment} (other : id ≠ id') :
    Attached A (update segtab id' seg) r id := by
  have same : update segtab id' seg id = segtab id := update_of_ne other _ _
  refine ⟨attached.bound, ?_, ?_⟩ <;> rw [same]
  · exact attached.active
  · exact attached.pages

/-- A copy-on-write page is remapped. -/
theorem resolved {r' v e : Nat}
    (mapped : A.view r' v = some e) (cow : isCow e = true) (new : Option Nat) :
    Attached (A.setView r' v new) segtab r id := by
  refine ⟨attached.bound, attached.active, fun page bound => ?_⟩
  rw [AddressSpaces.setView_of_ne]
  · exact attached.pages page bound
  · rintro ⟨rfl, rfl⟩
    rw [attached.pages page bound] at mapped
    cases mapped
    exact absurd (cow.symm.trans (isCow_segEntry _ _)) (by decide)

end

end Attached

/-- The pages of a listed segment lie in the ranges a fork shares. -/
theorem sharedPage_of_listed (bound : n < maxAttach) (active : (b.shmAttaches n).active = true)
    (here : (b.shmAttaches n).vaddr = shmVaddr (b.shmAttaches n).shmid)
    (small : (b.shmAttaches n).shmid < maxSegments)
    (exists' : (segtab (b.shmAttaches n).shmid).active = true)
    (ok : SegmentOk (segtab (b.shmAttaches n).shmid))
    (inside : page < (segtab (b.shmAttaches n).shmid).pages) :
    sharedPage (shmRanges b.shmAttaches segtab)
      (regionPage (shmVaddr (b.shmAttaches n).shmid) page) = true := by
  have size := ok.size
  have count : segmentPages segtab (b.shmAttaches n).shmid =
      (segtab (b.shmAttaches n).shmid).pages := by
    rw [segmentPages, if_neg (by omega), exists', if_pos rfl]
  rw [sharedPage, List.any_eq_true]
  refine ⟨((b.shmAttaches n).vaddr, (b.shmAttaches n).vaddr +
    (segtab (b.shmAttaches n).shmid).pages * 4096), ?_, ?_⟩
  · refine List.mem_filterMap.mpr ⟨n, List.mem_range.mpr bound, ?_⟩
    have positive := ok.positive
    simp only [count, active, Bool.true_and, bne_iff_ne, ne_eq]
    rw [if_pos (by omega)]
  · rw [window_page small (by omega)]
    simp only [Paging.inRange, here, Bool.and_eq_true, decide_eq_true_eq, shmVaddr, shmVirtBase,
      shmSlotSize]
    omega

/-- A fork by a task that lists the segment leaves its pages alone. -/
theorem Attached.forked {A' : AddressSpaces} {f : Nat} (sound : L.Sound) (live : L.books i = some b)
    (effect : ForkEffect (shmRanges b.shmAttaches L.segtab) b.root f L.spaces A')
    (attached : Attached L.spaces L.segtab b.root id) (lists : Lists b id) :
    Attached A' L.segtab b.root id := by
  obtain ⟨n, bound, active, rfl⟩ := lists
  obtain ⟨here, -⟩ := sound.listed live bound active
  refine ⟨attached.bound, attached.active, ?_⟩
  intro page inside
  rcases effect.source (regionPage (shmVaddr (b.shmAttaches n).shmid) page) with
    same | ⟨e, -, -, -, -, outside⟩
  · exact same.trans (attached.pages page inside)
  · have shared := sharedPage_of_listed bound active here attached.bound attached.active
      (sound.segment attached.bound attached.active) inside
    exact absurd (shared.symm.trans outside) (by decide)

namespace Moves

variable {L L' : Layout} {op : Op} {r id : Nat}

/-- **Attached segments stay attached** while the address space lives, if its task
does not fork without listing the segment. -/
theorem attached_kept (moves : Moves L op L') (sound : L.Sound) (before : r ∈ L.spaces.roots)
    (after : r ∈ L'.spaces.roots) (attached : Attached L.spaces L.segtab r id)
    (lists : ∀ {i b ctx}, op = .act i (.fork ctx) → L.books i = some b → b.root = r → Lists b id) :
    Attached L'.spaces L'.segtab r id := by
  have ok := sound.segment attached.bound attached.active
  have beside : ∀ {A' : AddressSpaces} {f : Nat}, Beside L.spaces A' f →
      Attached A' L.segtab r id := by
    intro A' f beside
    refine attached.congr fun v => beside.others ?_
    rintro rfl
    exact beside.new before
  have fork : ∀ {i : Nat} {b : Books} {ctx : TaskContext} {f : Nat} {A' : AddressSpaces},
      op = .act i (.fork ctx) → L.books i = some b →
      ForkEffect (shmRanges b.shmAttaches L.segtab) b.root f L.spaces A' →
      Attached A' L.segtab r id := by
    intro i b ctx f A' forks live effect
    by_cases here : b.root = r
    · subst here
      exact attached.forked sound live effect (lists forks live rfl)
    · refine attached.congr fun v => effect.others (Ne.symm here) ?_
      rintro rfl
      exact effect.new before
  cases moves with
  | refused | noted _ _ => exact attached
  | leftover added => exact beside added
  | started _ added => exact beside added
  | executed _ _ new roots others =>
    rw [roots] at after
    refine attached.congr fun v => others (Finset.ne_of_mem_erase after) ?_
    rintro rfl
    exact new before
  | exited _ _ roots others =>
    rw [roots] at after
    exact attached.congr fun v => others (Finset.ne_of_mem_erase after)
  | forked live _ effect _ => exact fork rfl live effect
  | unforked live effect => exact fork rfl live effect
  | grown _ _ more _ => exact attached.kept more.kept
  | mapped _ more _ => exact attached.kept more.kept
  | unfinished _ more => exact attached.kept more.kept
  | @unmapped i b _ addr len A' live plain roots kept =>
    refine ⟨attached.bound, attached.active, fun page inside => ?_⟩
    rw [← attached.pages page inside]
    refine kept _ _ ?_
    by_cases here : r = b.root
    · subst here
      refine .inr fun page' inside' same => ?_
      refine plain page' inside' (segEntry (L.segtab id) page) ?_ (attached.frame_mem ok inside)
      rw [← same]
      exact attached.pages page inside
    · exact .inl here
  | @created i key size id' seg free _ =>
    refine attached.created ?_
    rintro rfl
    exact absurd (attached.active.symm.trans free) (by decide)
  | attached _ _ bound active more _ same =>
    exact (attached.shared ok bound (sound.segment bound active) more).same same
  | unattached _ bound active more =>
    exact attached.shared ok bound (sound.segment bound active) more
  | detached _ _ _ _ same => exact attached.same same
  | stored _ mapped cow => exact attached.resolved mapped cow _

/-- The books of a slot after a change in one slot. -/
theorem books_cases {bs : Nat → Option Books} {slot : Nat} {new : Option Books}
    (here : update bs slot new i = some b) :
    i = slot ∧ new = some b ∨ i ≠ slot ∧ bs i = some b := by
  by_cases same : i = slot
  · subst same
    rw [update_self] at here
    exact .inl ⟨rfl, here⟩
  · rw [update_of_ne same] at here
    exact .inr ⟨same, here⟩

/-- Books in which no task has moved to another address space or attached a
segment. -/
def Same (bs bs' : Nat → Option Books) : Prop :=
  ∀ {i b'}, bs' i = some b' → ∃ b, bs i = some b ∧ b'.cr3 = b.cr3 ∧
    ∀ n, (b'.shmAttaches n).active = true → b'.shmAttaches n = b.shmAttaches n

/-- The books are sound as long as the attached segments are. -/
theorem sound_of_same (sound : L.Sound) (segments : ∀ {id}, id < maxSegments →
      (L'.segtab id).active = true → SegmentOk (L'.segtab id))
    (same : Same L.books L'.books)
    (roots : ∀ {i b'}, L'.books i = some b' → b'.root ∈ L.spaces.roots → b'.root ∈ L'.spaces.roots)
    (kept : ∀ {i b id}, L.books i = some b → Lists b id → b.root ∈ L'.spaces.roots →
      Attached L.spaces L.segtab b.root id → Attached L'.spaces L'.segtab b.root id) :
    L'.Sound where
  segment := segments
  root := by
    intro i b' after
    obtain ⟨b, before, equal, -⟩ := same after
    obtain ⟨member, cr3⟩ := sound.root before
    have root : b'.root = b.root := by rw [Books.root, Books.root, equal]
    exact ⟨roots after (root ▸ member), by rw [equal, root]; exact cr3⟩
  apart := by
    intro i j b' c' after after' equal
    obtain ⟨b, before, same₁, -⟩ := same after
    obtain ⟨c, before', same₂, -⟩ := same after'
    refine sound.apart before before' ?_
    rwa [Books.root, Books.root, same₁, same₂] at equal
  listed := by
    intro i b' n after bound active
    obtain ⟨b, before, equal, listing⟩ := same after
    have root : b'.root = b.root := by rw [Books.root, Books.root, equal]
    have unchanged := listing n active
    rw [unchanged] at active ⊢
    obtain ⟨here, attached⟩ := sound.listed before bound active
    have member := roots after (root ▸ (sound.root before).1)
    rw [root] at member ⊢
    exact ⟨here, kept before ⟨n, bound, active, rfl⟩ member attached⟩

/-- A task with an address space of its own and without attachments comes in. -/
theorem sound_of_new (sound : L.Sound) {slot f : Nat} {new : Books} (segtab : L'.segtab = L.segtab)
    (books : L'.books = update L.books slot (some new)) (cr3 : new.cr3 = f * 4096)
    (blank : ∀ n < maxAttach, (new.shmAttaches n).active = false) (fresh : f ∉ L.spaces.roots)
    (member : f ∈ L'.spaces.roots)
    (roots : ∀ {i b}, i ≠ slot → L.books i = some b → b.root ∈ L'.spaces.roots)
    (kept : ∀ {i b id}, L.books i = some b → Lists b id → b.root ∈ L'.spaces.roots →
      Attached L.spaces L.segtab b.root id → Attached L'.spaces L'.segtab b.root id) :
    L'.Sound := by
  have root : new.root = f := by rw [Books.root, cr3, Paging.frame_div]
  have other : ∀ {i b}, L.books i = some b → b.root ≠ f := by
    intro i b live equal
    exact fresh (equal ▸ (sound.root live).1)
  refine ⟨?_, ?_, ?_, ?_⟩
  · rw [segtab]
    exact sound.segment
  · intro i b after
    rw [books] at after
    rcases books_cases after with ⟨-, same⟩ | ⟨away, before⟩
    · cases same
      rw [root]
      exact ⟨member, cr3⟩
    · exact ⟨roots away before, (sound.root before).2⟩
  · intro i j b c after after' equal
    rw [books] at after after'
    rcases books_cases after with ⟨here, same⟩ | ⟨-, before⟩ <;>
      rcases books_cases after' with ⟨here', same'⟩ | ⟨-, before'⟩
    · rw [here, here']
    · cases same
      exact absurd (equal.symm.trans root) (other before')
    · cases same'
      exact absurd (equal.trans root) (other before)
    · exact sound.apart before before' equal
  · intro i b n after bound active
    rw [books] at after
    rcases books_cases after with ⟨-, same⟩ | ⟨away, before⟩
    · cases same
      rw [blank n bound] at active
      cases active
    · obtain ⟨here, attached⟩ := sound.listed before bound active
      exact ⟨here, kept before ⟨n, bound, active, rfl⟩ (roots away before) attached⟩

theorem Same.refl (bs : Nat → Option Books) : Same bs bs :=
  fun {_ b'} here => ⟨b', here, rfl, fun _ _ => rfl⟩

/-- One slot is emptied, or its task changes neither address space nor
attachments. -/
theorem Same.update {bs : Nat → Option Books} {new : Option Books} (live : bs i = some b)
    (same : ∀ {b'}, new = some b' → b'.cr3 = b.cr3 ∧
      ∀ n, (b'.shmAttaches n).active = true → b'.shmAttaches n = b.shmAttaches n) :
    Same bs (update bs i new) := by
  intro j b' after
  rcases books_cases after with ⟨rfl, here⟩ | ⟨-, before⟩
  · obtain ⟨cr3, listing⟩ := same here
    exact ⟨b, live, cr3, listing⟩
  · exact ⟨b', before, rfl, fun _ _ => rfl⟩

/-- **Every move keeps a layout sound.** -/
theorem sound (moves : Moves L op L') (sound : L.Sound) : L'.Sound := by
  have kept : ∀ {i b id}, L.books i = some b → Lists b id → b.root ∈ L'.spaces.roots →
      Attached L.spaces L.segtab b.root id → Attached L'.spaces L'.segtab b.root id := by
    intro i b id live lists after attached
    refine moves.attached_kept sound (sound.root live).1 after attached ?_
    intro j c ctx _ live' same
    obtain rfl := sound.apart live' live same
    rw [live] at live'
    cases live'
    exact lists
  cases moves with
  | refused => exact sound
  | leftover beside =>
    refine sound_of_same sound sound.segment (Same.refl _) (fun _ member => ?_) kept
    rw [beside.roots]
    exact Finset.mem_insert_of_mem member
  | started free beside =>
    refine sound_of_new sound rfl rfl rfl (fun n _ => rfl) beside.new beside.member ?_ kept
    intro i b _ live
    rw [beside.roots]
    exact Finset.mem_insert_of_mem (sound.root live).1
  | @executed i b plan f A' live plain new roots others =>
    have different : f ≠ b.root := by
      rintro rfl
      exact new (sound.root live).1
    have blank : ∀ n < maxAttach, (b.shmAttaches n).active = false :=
      fun n bound => sound.unlisted live plain bound
    refine sound_of_new sound rfl rfl rfl blank new ?_ ?_ kept
    · rw [roots]
      exact Finset.mem_erase_of_ne_of_mem different (Finset.mem_insert_self f _)
    · intro j c away live'
      rw [roots]
      refine Finset.mem_erase_of_ne_of_mem ?_ (Finset.mem_insert_of_mem (sound.root live').1)
      intro same
      exact away (sound.apart live' live same)
  | @exited i b arg A' live plain roots others =>
    refine sound_of_same sound sound.segment (Same.update live fun none => by cases none) ?_ kept
    intro j c after member
    rw [roots]
    refine Finset.mem_erase_of_ne_of_mem ?_ member
    intro same
    rcases books_cases after with ⟨-, absent⟩ | ⟨away, before⟩
    · cases absent
    · exact away (sound.apart before live same)
  | forked live free effect all =>
    refine sound_of_new sound rfl rfl rfl (fun n _ => rfl) effect.new ?_ ?_ kept
    · rw [effect.roots]
      exact Finset.mem_insert_self _ _
    · intro j c _ live'
      rw [effect.roots]
      exact Finset.mem_insert_of_mem (sound.root live').1
  | unforked live effect =>
    refine sound_of_same sound sound.segment (Same.refl _) (fun _ member => ?_) kept
    rw [effect.roots]
    exact Finset.mem_insert_of_mem member
  | grown live _ more _ =>
    refine sound_of_same sound sound.segment (Same.update live ?_) (fun _ member => ?_) kept
    · rintro _ ⟨⟩
      exact ⟨rfl, fun _ _ => rfl⟩
    · rw [more.roots]
      exact member
  | mapped live more rest =>
    refine sound_of_same sound sound.segment (Same.update live ?_) (fun _ member => ?_) kept
    · rintro _ ⟨⟩
      rw [rest]
      exact ⟨rfl, fun _ _ => rfl⟩
    · rw [more.roots]
      exact member
  | unfinished live more =>
    refine sound_of_same sound sound.segment (Same.refl _) (fun _ member => ?_) kept
    rw [more.roots]
    exact member
  | unmapped live plain roots others rest =>
    refine sound_of_same sound sound.segment (Same.update live ?_) (fun _ member => ?_) kept
    · rintro _ ⟨⟩
      rw [rest]
      exact ⟨rfl, fun _ _ => rfl⟩
    · rw [roots]
      exact member
  | @created i key size id seg free ok =>
    refine sound_of_same sound (fun {id'} bound active => ?_) (Same.refl _) (fun _ member => member)
      kept
    simp only at active ⊢
    by_cases here : id' = id
    · subst here
      rw [update_self]
      exact ok
    · rw [update_of_ne here] at active ⊢
      exact sound.segment bound active
  | @attached i b shmid id n A' segtab' live number bound active more pages same =>
    have mapped : Layout.Sound ⟨A', L.books, segtab'⟩ := by
      refine sound_of_same sound ?_ (Same.refl _) (fun _ member => ?_) kept
      · intro id' bound' active'
        rw [(same id').1] at active'
        exact (sound.segment bound' active').same same
      · rw [more.roots]
        exact member
    exact mapped.list live (pages.same same)
  | unattached live bound active more =>
    refine sound_of_same sound sound.segment (Same.refl _) (fun _ member => ?_) kept
    rw [more.roots]
    exact member
  | @detached i b addr n segtab' live bound active here same =>
    refine sound_of_same sound ?_ (Same.update live ?_) (fun _ member => member) kept
    · intro id bound' active'
      rw [(same id).1] at active'
      exact (sound.segment bound' active').same same
    · rintro _ ⟨⟩
      refine ⟨rfl, fun m active' => ?_⟩
      simp only at active'
      by_cases equal : m = n
      · subst equal
        rw [update_self] at active'
        cases active'
      · exact update_of_ne equal _ _
  | noted live rest =>
    refine sound_of_same sound sound.segment (Same.update live ?_) (fun _ member => member) kept
    rintro _ ⟨⟩
    rw [rest]
    exact ⟨rfl, fun _ _ => rfl⟩
  | stored live mapped cow =>
    exact sound_of_same sound sound.segment (Same.refl _) (fun _ member => member) kept

end Moves

end OxideOS.Sys
