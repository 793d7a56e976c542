import OxideOS.Sys.ExecTrace
import OxideOS.Sys.SegmentContract

/-!
# The address ranges of a task

`brk` grows the heap from 16 MB on, `mmap` hands out one region after the other from
128 MB on, and `shmat` maps a segment at an address above 512 MB that depends on its
number only. A call that maps fresh pages fails where a page is mapped already; `shmat`
does not look.

As long as the heap and the regions end below the segments, no length is so large that
it wraps around when it is rounded up to pages, and the program itself is not loaded
where the segments are, all the ranges that the calls hand out are apart
(`ranges_apart`). `ranges_collide` has a length that wraps and a program in the way.
-/

set_option autoImplicit false

namespace OxideOS.Sys

open Lib Mem Fs Ipc Proc Proc.Kernel PageTableFlags PageTableEntry
open Prog hiding update

/-! ## Calls and ranges -/

/-- A call for memory. -/
inductive MemCall where
  | brk (newEnd : Nat)
  | mmap (len : Nat)
  | shmat (shmid : Nat)

def MemCall.act : MemCall → Act
  | .brk newEnd => .brk newEnd
  | .mmap len => .mmap len
  | .shmat shmid => .shmat shmid

/-- One call of the task in slot `i`. -/
def callBy (i : Nat) (k : Kernel) (c : MemCall) : Option Kernel := move k (.act i c.act)

/-- The first and the end address of what a call hands out that answers `a`. -/
def MemCall.range (k : Kernel) (a : Nat) : MemCall → Nat × Nat
  | .brk _ => (userHeapBase, a)
  | .mmap len => (a, a + len)
  | .shmat shmid => (a, a + segmentPages k.segtab (shmid % 2 ^ 32) * 4096)

/-- Both calls are about the heap, or about one segment. -/
def MemCall.sameArea : MemCall → MemCall → Prop
  | .brk _, .brk _ => True
  | .shmat shmid, .shmat shmid' => shmid % 2 ^ 32 = shmid' % 2 ^ 32
  | _, _ => False

/-- The leaf entry of a page of the task in slot `i`. -/
def leafOf (k : Kernel) (i v : Nat) : Option Nat := leafAt k.paging.mem ((k.tasks i).cr3 / 4096) v

/-- No sum of the call exceeds 64 bits. -/
def NoWrap (i : Nat) (k : Kernel) : MemCall → Prop
  | .brk newEnd => breakOf k i + 4095 < 2 ^ 64 ∧ newEnd + 4095 < 2 ^ 64
  | .mmap len => len + 4095 < 2 ^ 64 ∧
      mmapBase (k.tasks i) + (len + 4095) / 4096 * 4096 < 2 ^ 64
  | .shmat _ => True

/-- What is handed out in the run of `calls` from `k₀` is apart from all that is handed
out later, from the program and its stack, and is not mapped anew by a later call. -/
structure RangesApart (i : Nat) (k₀ : Kernel) (calls : List MemCall) : Prop where
  noWrap : ∀ c k k' rest, Happens (callBy i) k₀ calls k c k' rest → NoWrap i k c
  apart : ∀ c k k' rest, Happens (callBy i) k₀ calls k c k' rest →
    ∀ a : Nat, answer k i c.act = some a →
    ∀ d j j' rest', Happens (callBy i) k' rest j d j' rest' →
    ∀ b : Nat, answer j i d.act = some b → ¬c.sameArea d →
    ∀ x, (c.range k a).1 ≤ x → x < (c.range k a).2 → ¬((d.range j b).1 ≤ x ∧ x < (d.range j b).2)
  program : ∀ c k k' rest, Happens (callBy i) k₀ calls k c k' rest →
    ∀ a : Nat, answer k i c.act = some a →
    ∀ x, (c.range k a).1 ≤ x → x < (c.range k a).2 → leafOf k₀ i (x / 4096) = none
  kept : ∀ c k k' rest, Happens (callBy i) k₀ calls k c k' rest →
    ∀ a : Nat, answer k i c.act = some a →
    ∀ d j j' rest', Happens (callBy i) k' rest j d j' rest' →
    ∀ x, (c.range k a).1 ≤ x → x < (c.range k a).2 → leafOf j' i (x / 4096) = leafOf j i (x / 4096)

/-- The heap and the regions end below the segments, and no length wraps around. -/
def Fits (i : Nat) (k : Kernel) : MemCall → Prop
  | .brk newEnd => newEnd ≤ shmVirtBase
  | .mmap len => len + 4095 < 2 ^ 64 ∧
      mmapBase (k.tasks i) + (len + 4095) / 4096 * 4096 ≤ shmVirtBase
  | .shmat _ => True

instance (i : Nat) (k : Kernel) (c : MemCall) : Decidable (Fits i k c) := by
  unfold Fits
  split <;> infer_instance

/-- A task that has not called for memory yet. -/
structure Unserved (t : Task) : Prop where
  heap : t.heapEnd = 0
  regions : t.mmapEnd = 0

/-! ## Areas -/

/-- What the pages of a task are for, beside the segments. -/
inductive Area where
  | program | heap | regions
  deriving DecidableEq

/-- The pages of an area; `program` are the pages there were before the first call. -/
def area (program : Nat → Prop) (k : Kernel) (i : Nat) : Area → Nat → Prop
  | .program, v => program v
  | .heap, v => userHeapBase / 4096 ≤ v ∧ v < (breakOf k i + 4095) / 4096
  | .regions, v => userMmapBase / 4096 ≤ v ∧ v < mmapBase (k.tasks i) / 4096

/-- The areas are mapped and no page is in two of them. -/
structure Areas (pages : Area → Nat → Prop) (leaf : Nat → Option Nat) : Prop where
  mapped : ∀ {a v}, pages a v → leaf v ≠ none
  apart : ∀ {a a' v}, pages a v → pages a' v → a = a'

/-- An area grows by pages that were not mapped. -/
theorem Areas.grow {pages pages' : Area → Nat → Prop} {leaf leaf' : Nat → Option Nat}
    (areas : Areas pages leaf) (kept : ∀ v e, leaf v = some e → leaf' v = some e) (x : Area)
    (others : ∀ a v, a ≠ x → pages' a v → pages a v)
    (grown : ∀ v, pages' x v → pages x v ∨ leaf v = none ∧ leaf' v ≠ none) :
    Areas pages' leaf' := by
  have old : ∀ {a v}, pages a v → leaf' v ≠ none := by
    intro a v page
    obtain ⟨e, there⟩ := Option.ne_none_iff_exists'.mp (areas.mapped page)
    rw [kept v e there]
    exact Option.some_ne_none e
  have before : ∀ {a v}, pages' a v → pages a v ∨ a = x ∧ leaf v = none ∧ leaf' v ≠ none := by
    intro a v page
    by_cases here : a = x
    · subst here
      exact (grown v page).imp id fun new => ⟨rfl, new⟩
    · exact .inl (others a v here page)
  constructor
  · intro a v page
    rcases before page with there | ⟨-, -, new⟩
    · exact old there
    · exact new
  · intro a a' v page page'
    rcases before page with there | ⟨rfl, absent, -⟩
    · rcases before page' with there' | ⟨-, absent, -⟩
      · exact areas.apart there there'
      · exact absurd absent (areas.mapped there)
    · rcases before page' with there' | ⟨rfl, -, -⟩
      · exact absurd absent (areas.mapped there')
      · rfl

/-! ## What the calls do -/

/-- From `k` to `k'` the task has kept its address space and all that it had mapped. -/
structure Keeps (i : Nat) (k k' : Kernel) : Prop where
  here : occupied k' i = occupied k i
  cr3 : (k'.tasks i).cr3 = (k.tasks i).cr3
  segtab : k'.segtab = k.segtab
  leaves : ∀ v e, leafOf k i v = some e → leafOf k' i v = some e

/-- The pages from `first` up to `last` were not mapped and are now. -/
def MapsPages (i : Nat) (k k' : Kernel) (first last : Nat) : Prop :=
  ∀ v, first ≤ v → v < last → leafOf k i v = none ∧ leafOf k' i v ≠ none

section Calls

variable {boot : Paging} {L : Layout} {k k' : Kernel} {i : Nat}

/-- A region is mapped: in terms of the page tables. -/
theorem mapRegion_leaves (formed : Formed boot L k) (here : occupied k i = true)
    {virt pages : Nat} (aligned : virt % 4096 = 0) (low : virt + pages * 4096 ≤ 2 ^ 47) :
    wp (Paging.mapUserRegionIn (k.tasks i).cr3 virt pages true false)
      (fun _ p => (∀ v e, leafOf k i v = some e →
          leafAt p.mem ((k.tasks i).cr3 / 4096) v = some e) ∧
        ∀ v, virt / 4096 ≤ v → v < virt / 4096 + pages → leafOf k i v = none ∧
          leafAt p.mem ((k.tasks i).cr3 / 4096) v ≠ none)
      (fun _ p => ∀ v e, leafOf k i v = some e →
        leafAt p.mem ((k.tasks i).cr3 / 4096) v = some e) k.paging := by
  have live : books k i = some (booksOf (k.tasks i)) := if_pos here
  have lower : LowerRegion virt pages := by
    intro page inside
    refine lowerHalf_of_lt ?_
    rw [Paging.pageVirt]
    omega
  have member := formed.member live
  have tables : ∀ {A' : AddressSpaces} {p : Paging} {fl : Nat},
      (∃ extra, Inv boot A' (shmFrames k.segtab) extra p) →
      MapsRegion L.spaces A' (booksOf (k.tasks i)).root virt pages fl →
      ∀ v, leafAt p.mem ((k.tasks i).cr3 / 4096) v = A'.view (booksOf (k.tasks i)).root v := by
    rintro A' p fl ⟨extra, inv'⟩ more v
    rw [formed.cr3 live, Paging.frame_div, inv'.rep.leafAt_eq (more.roots ▸ member)]
  refine wp_mono ?_ ?_ (formed.mapRegion live lower)
  · rintro - p ⟨A', inv', more, mapped⟩
    refine ⟨fun v e there => ?_, fun v first last => ?_⟩
    · rw [leafOf, formed.leafAt_eq live] at there
      rw [tables inv' more]
      exact more.kept there
    · have page : regionPage virt (v - virt / 4096) = v := by
        rw [regionPage_eq]
        omega
      have new := mapped (v - virt / 4096) (by omega)
      rw [page] at new
      rw [leafOf, formed.leafAt_eq live, tables inv' more]
      exact new
  · rintro - p ⟨A', inv', more⟩ v e there
    rw [leafOf, formed.leafAt_eq live] at there
    rw [tables inv' more]
    exact more.kept there

theorem mapsPages_of {p : Paging} {virt pages last : Nat} (cr3 : (k'.tasks i).cr3 = (k.tasks i).cr3)
    (paging : k'.paging = p) (end' : last ≤ virt / 4096 + pages)
    (mapped : ∀ v, virt / 4096 ≤ v → v < virt / 4096 + pages → leafOf k i v = none ∧
      leafAt p.mem ((k.tasks i).cr3 / 4096) v ≠ none) :
    MapsPages i k k' (virt / 4096) last := by
  intro v first inside
  rw [leafOf, leafOf, cr3, paging]
  exact mapped v first (Nat.lt_of_lt_of_le inside end')

/-- The state after the paging and the record of the caller have changed. -/
def served (i : Nat) (k : Kernel) (p : Paging) (f : Task → Task) : Kernel :=
  Kernel.modifyTask { enter i k with paging := p } i f

theorem served_task (p : Paging) (f : Task → Task) : (served i k p f).tasks i = f (k.tasks i) := by
  show Function.update k.tasks i (f (k.tasks i)) i = f (k.tasks i)
  rw [Function.update_self]

theorem served_keeps {p : Paging} {f : Task → Task} (live : (f (k.tasks i)).live = (k.tasks i).live)
    (cr3 : (f (k.tasks i)).cr3 = (k.tasks i).cr3)
    (kept : ∀ v e, leafOf k i v = some e → leafAt p.mem ((k.tasks i).cr3 / 4096) v = some e) :
    Keeps i k (served i k p f) := by
  constructor
  · rw [occupied, served_task, live]
    rfl
  · rw [served_task, cr3]
  · rfl
  · intro v e there
    rw [leafOf, served_task, cr3]
    exact kept v e there

/-- The heap grows by fresh pages up to the new break, or it stays. -/
structure BrkOutcome (i newEnd : Nat) (k : Kernel) (v : Int) (k' : Kernel) : Prop where
  keeps : Keeps i k k'
  regions : mmapBase (k'.tasks i) = mmapBase (k.tasks i)
  answer : v < 0 ∨ v = toI64 (breakOf k' i)
  heap : breakOf k' i = breakOf k i ∨ breakOf k' i = newEnd ∧ breakOf k i < newEnd ∧
    MapsPages i k k' ((breakOf k i + 4095) / 4096) ((newEnd + 4095) / 4096)

theorem brk_served (formed : Formed boot L k) (here : occupied k i = true) {newEnd : Nat} {v : Int}
    (bound : newEnd ≤ 2 ^ 46) (performed : brkProgram newEnd (enter i k) = (.ok v, k')) :
    BrkOutcome i newEnd k v k' := by
  have outcome : wp (brkProgram newEnd) (BrkOutcome i newEnd k) (fun _ _ => True)
      (enter i k) := by
    have top : (if (k.tasks i).heapEnd = 0 then userHeapBase else (k.tasks i).heapEnd) =
        heapTop (booksOf (k.tasks i)) := rfl
    unfold brkProgram
    simp only [currentTask, wp_bind, wp_gets, enter, top]
    split
    · exact ⟨⟨rfl, rfl, rfl, fun _ _ there => there⟩, rfl, .inr rfl, .inl rfl⟩
    · next grows =>
        push Not at grows
        have higher : breakOf k i < newEnd := grows.2.2
        have first : pageCeil (breakOf k i) = (breakOf k i + 4095) / 4096 * 4096 :=
          Formed.pageCeil_eq (by omega)
        have last : heapPages (booksOf (k.tasks i)) newEnd =
            (newEnd + 4095) / 4096 - (breakOf k i + 4095) / 4096 := by
          rw [heapPages, ← breakOf, first, Formed.pageCeil_eq (by omega)]
          split <;> omega
        rw [Formed.growHeap_eq]
        simp only [wp_bind, wp_onPaging]
        refine wp_mono ?_ ?_ (mapRegion_leaves formed here ?_ ?_)
        · rintro - p ⟨kept, mapped⟩
          show BrkOutcome i newEnd k (toI64 newEnd) (served i k p fun t => { t with
            heapEnd := newEnd })
          have after : breakOf (served i k p fun t => { t with heapEnd := newEnd }) i = newEnd := by
            rw [breakOf, served_task, heapTop]
            exact if_neg grows.1
          refine ⟨served_keeps rfl rfl kept, by rw [served_task]; rfl, .inr (by rw [after]),
            .inr ⟨after, higher, ?_⟩⟩
          have place : (breakOf k i + 4095) / 4096 = pageCeil (breakOf k i) / 4096 := by
            rw [first, Nat.mul_div_cancel _ (by decide)]
          rw [place]
          have reach : (newEnd + 4095) / 4096 ≤
              pageCeil (breakOf k i) / 4096 + heapPages (booksOf (k.tasks i)) newEnd := by
            rw [← place, last]
            omega
          exact mapsPages_of (by rw [served_task]) rfl reach mapped
        · rintro - p kept
          exact ⟨⟨rfl, rfl, rfl, kept⟩, rfl, .inl (by decide), .inl rfl⟩
        · rw [← breakOf, first]
          omega
        · rw [← breakOf, first, last]
          omega
  exact (wp_ok performed).mp outcome

/-- A region of fresh pages is handed out, or the end of the regions stays. -/
structure MmapOutcome (i len : Nat) (k : Kernel) (v : Int) (k' : Kernel) : Prop where
  keeps : Keeps i k k'
  heap : breakOf k' i = breakOf k i
  regions : v < 0 ∧ mmapBase (k'.tasks i) = mmapBase (k.tasks i) ∨
    v = toI64 (mmapBase (k.tasks i)) ∧
    mmapBase (k'.tasks i) = mmapBase (k.tasks i) + (len + 4095) / 4096 * 4096 ∧
    MapsPages i k k' (mmapBase (k.tasks i) / 4096) (mmapBase (k'.tasks i) / 4096)

theorem recordRegion_mmapEnd (base pages : Nat) (t : Task) :
    (recordRegion base pages t).mmapEnd = (base + pages * 4096) % 2 ^ 64 := by
  unfold recordRegion
  dsimp only
  split <;> rfl

theorem mmap_served (formed : Formed boot L k) (here : occupied k i = true) {len : Nat} {v : Int}
    (aligned : mmapBase (k.tasks i) % 4096 = 0) (wraps : len + 4095 < 2 ^ 64)
    (bound : mmapBase (k.tasks i) + (len + 4095) / 4096 * 4096 ≤ 2 ^ 46)
    (performed : mmapAnon len (enter i k) = (.ok v, k')) : MmapOutcome i len k v k' := by
  have pages : pagesFor len = (len + 4095) / 4096 := by
    rw [pagesFor, Nat.mod_eq_of_lt wraps]
  have low : mmapBase (k.tasks i) + pagesFor len * 4096 ≤ 2 ^ 47 := by
    rw [pages]
    omega
  have outcome : wp (mmapAnon len) (MmapOutcome i len k) (fun _ _ => True) (enter i k) := by
    unfold mmapAnon
    split
    · exact ⟨⟨rfl, rfl, rfl, fun _ _ there => there⟩, rfl, .inl ⟨by decide, rfl⟩⟩
    · next some' =>
        simp only [currentTask, wp_bind, wp_gets, enter, wp_onPaging]
        refine wp_mono ?_ ?_ (mapRegion_leaves formed here aligned low)
        · rintro - p ⟨kept, mapped⟩
          show MmapOutcome i len k (toI64 (mmapBase (k.tasks i)))
            (served i k p (recordRegion (mmapBase (k.tasks i)) (pagesFor len)))
          obtain ⟨live, books⟩ :=
            Formed.recordRegion_same (mmapBase (k.tasks i)) (pagesFor len) (k.tasks i)
          have end' : mmapBase (recordRegion (mmapBase (k.tasks i)) (pagesFor len) (k.tasks i)) =
              mmapBase (k.tasks i) + (len + 4095) / 4096 * 4096 := by
            rw [mmapBase, recordRegion_mmapEnd, pages, Nat.mod_eq_of_lt (by omega)]
            exact if_neg (by omega)
          refine ⟨served_keeps live (congrArg Books.cr3 books) kept, ?_,
            .inr ⟨rfl, by rw [served_task, end'], ?_⟩⟩
          · rw [breakOf, served_task, heapTop, congrArg Books.heapEnd books]
            rfl
          · rw [served_task, end']
            refine mapsPages_of (by rw [served_task]; exact congrArg Books.cr3 books) rfl ?_ mapped
            rw [pages]
            omega
        · rintro - p kept
          exact ⟨⟨rfl, rfl, rfl, kept⟩, rfl, .inl ⟨by decide, rfl⟩⟩
  exact (wp_ok performed).mp outcome

/-- Pages of the segment are mapped; the other pages stay as they are. -/
structure ShmatOutcome (i id : Nat) (k k' : Kernel) : Prop where
  here : occupied k' i = occupied k i
  cr3 : (k'.tasks i).cr3 = (k.tasks i).cr3
  heap : breakOf k' i = breakOf k i
  regions : mmapBase (k'.tasks i) = mmapBase (k.tasks i)
  segtab : SameSegments k.segtab k'.segtab
  pages : ∀ page < (k.segtab id).pages,
    leafOf k' i (regionPage (shmVaddr id) page) = leafOf k i (regionPage (shmVaddr id) page) ∨
      leafOf k' i (regionPage (shmVaddr id) page) = some (segEntry (k.segtab id) page)
  others : ∀ w, maxSegments ≤ id ∨ w < shmVaddr id / 4096 ∨ shmVaddr id / 4096 + 256 ≤ w →
    leafOf k' i w = leafOf k i w

theorem shmat_served (formed : Formed boot L k) (here : occupied k i = true) {shmid : Nat} {v : Int}
    (performed : shmatImpl shmid (enter i k) = (.ok v, k')) :
    ShmatOutcome i (shmid % 2 ^ 32) k k' := by
  have live : books k i = some (booksOf (k.tasks i)) := if_pos here
  have outcome := @shmat_cases (shmid % 2 ^ 32) (k.tasks i).cr3 k.segtab (k.tasks i).shmAttaches
    k.paging
  generalize named : Ipc.shmat (shmid % 2 ^ 32) (k.tasks i).cr3 (k.tasks i).shmAttaches k.segtab
    k.paging = out at outcome
  rw [shmatImpl_enter named] at performed
  obtain ⟨-, rfl⟩ := Prod.mk.inj performed
  generalize shmid % 2 ^ 32 = id at outcome ⊢
  have task : ∀ {table : Nat → ShmAttach} {segtab : Nat → ShmSegment} {p : Paging},
      ({ (enter i k).modifyTask i fun t => { t with shmAttaches := table } with
        segtab := segtab, paging := p } : Kernel).tasks i =
        { k.tasks i with shmAttaches := table } :=
    Function.update_self i _ k.tasks
  have result : ∀ {table : Nat → ShmAttach} {segtab : Nat → ShmSegment} {p : Paging},
      SameSegments k.segtab segtab →
      (∀ page < (k.segtab id).pages,
        leafAt p.mem ((k.tasks i).cr3 / 4096) (regionPage (shmVaddr id) page) =
            leafOf k i (regionPage (shmVaddr id) page) ∨
          leafAt p.mem ((k.tasks i).cr3 / 4096) (regionPage (shmVaddr id) page) =
            some (segEntry (k.segtab id) page)) →
      (∀ w, maxSegments ≤ id ∨ w < shmVaddr id / 4096 ∨ shmVaddr id / 4096 + 256 ≤ w →
        leafAt p.mem ((k.tasks i).cr3 / 4096) w = leafOf k i w) →
      ShmatOutcome i id k { (enter i k).modifyTask i fun t => { t with shmAttaches := table } with
        segtab := segtab, paging := p } := by
    intro table segtab p same pages others
    refine ⟨?_, ?_, ?_, ?_, same, fun page inside => ?_, fun w outside => ?_⟩
    · rw [occupied, task]
      rfl
    · rw [task]
    · rw [breakOf, task]
      rfl
    · rw [task]
      rfl
    · rw [leafOf, task]
      exact pages page inside
    · rw [leafOf, task]
      exact others w outside
  rcases outcome with ⟨-, same⟩ | ⟨bound, active, outcome⟩
  · rw [same]
    exact result (SameSegments.refl _) (fun _ _ => .inl rfl) fun _ _ => rfl
  · obtain ⟨extra, inv⟩ := formed.inv
    have ok : SegmentOk (k.segtab id) := by
      have known := formed.sound.segment bound (formed.segtab.symm ▸ active)
      rwa [formed.segtab] at known
    have frames : ∀ page < (k.segtab id).pages,
        (k.segtab id).physBase / 4096 + page ∈ shmFrames k.segtab := by
      intro page inside
      exact ⟨_, bound, active, Set.mem_Ico.mpr ⟨Nat.le_add_right _ _, Nat.add_lt_add_left inside _⟩⟩
    have spec := inv.mapPhysPagesIn_spec (formed.member live) (window_low bound ok.size) frames true
    rw [← ok.aligned, ← formed.cr3 live] at spec
    have mapped : ∀ {A' : AddressSpaces} {extra' : Nat → Nat} {p : Paging}
        {segtab : Nat → ShmSegment} {table : Nat → ShmAttach},
        Inv boot A' (shmFrames k.segtab) extra' p →
        MapsShared L.spaces A' (booksOf (k.tasks i)).root (shmVaddr id)
          ((k.segtab id).physBase / 4096) (k.segtab id).pages (userFlags true false) →
        SameSegments k.segtab segtab → ShmatOutcome i id k
          { (enter i k).modifyTask i fun t => { t with shmAttaches := table } with
            segtab := segtab, paging := p } := by
      intro A' extra' p segtab table inv' more same
      have tables : ∀ w, leafAt p.mem ((k.tasks i).cr3 / 4096) w =
          A'.view (booksOf (k.tasks i)).root w := by
        intro w
        rw [formed.cr3 live, Paging.frame_div, inv'.rep.leafAt_eq (more.roots ▸ formed.member live)]
      refine result same (fun page inside => ?_) fun w outside => ?_
      · rw [tables, leafOf, formed.leafAt_eq live]
        exact more.pages page inside
      · rw [tables, leafOf, formed.leafAt_eq live]
        refine more.others _ w (.inr fun page inside => ?_)
        have size := ok.size
        rw [window_page bound (by omega)]
        rw [shmVaddr, shmVirtBase, shmSlotSize] at outside
        omega
    rcases outcome with ⟨n, -, -, -, rfl⟩ | ⟨e, p', failed, rfl⟩ | ⟨n, -, p', done, rfl⟩
    · exact result (SameSegments.refl _) (fun _ _ => .inl rfl) fun _ _ => rfl
    · obtain ⟨A', extra', inv', more⟩ := (wp_error failed).mp spec
      exact mapped inv' more (SameSegments.refl _)
    · obtain ⟨A', extra', inv', more, -⟩ := (wp_ok done).mp spec
      exact mapped inv' more (SameSegments.update k.segtab id _)

end Calls

/-! ## One call -/

/-- The state of a task whose areas are apart; `program` are the pages that it started
with. -/
structure Separated (boot : Paging) (program : Nat → Prop) (i : Nat) (k : Kernel) : Prop where
  formed : ∃ L, Formed boot L k
  here : occupied k i = true
  heap : userHeapBase ≤ breakOf k i ∧ breakOf k i ≤ shmVirtBase
  regions : userMmapBase ≤ mmapBase (k.tasks i) ∧ mmapBase (k.tasks i) ≤ shmVirtBase ∧
    mmapBase (k.tasks i) % 4096 = 0
  areas : Areas (area program k i) (leafOf k i)

/-- An attached segment. -/
structure Standing (i id : Nat) (k : Kernel) : Prop where
  bound : id < maxSegments
  active : (k.segtab id).active = true
  size : (k.segtab id).pages ≤ 256
  pages : SegmentAt k i id

/-- From `k` to `k'` the areas have grown, and what was handed out is still mapped as it
was. -/
structure Advances (program : Nat → Prop) (i : Nat) (k k' : Kernel) : Prop where
  heap : breakOf k i ≤ breakOf k' i
  regions : mmapBase (k.tasks i) ≤ mmapBase (k'.tasks i)
  areas : ∀ a v, area program k i a v → leafOf k' i v = leafOf k i v
  segments : ∀ id, Standing i id k → Standing i id k' ∧
    (k'.segtab id).pages = (k.segtab id).pages ∧ ∀ page < (k.segtab id).pages,
      leafOf k' i (regionPage (shmVaddr id) page) = leafOf k i (regionPage (shmVaddr id) page)

section Steps

variable {boot : Paging} {program : Nat → Prop} {k k' : Kernel} {i : Nat}

/-- The call is careful and returns. -/
theorem Separated.performs (separated : Separated boot program i k) {c : MemCall}
    (fits : Fits i k c) (moved : callBy i k c = some k') :
    (∃ L, Formed boot L k') ∧ ∃ v, perform c.act (enter i k) = (.ok v, k') := by
  obtain ⟨L, formed⟩ := separated.formed
  have here := separated.here
  have live : books k i = some (booksOf (k.tasks i)) := if_pos here
  have careful : Careful k (.act i c.act) := by
    cases c with
    | brk newEnd =>
      have bound : newEnd ≤ shmVirtBase := fits
      show newEnd ≤ 2 ^ 47
      rw [shmVirtBase] at bound
      omega
    | mmap len =>
      obtain ⟨wraps, bound⟩ : len + 4095 < 2 ^ 64 ∧ _ := fits
      rw [shmVirtBase] at bound
      show LowerRegion (mmapBase (k.tasks i)) (pagesFor len)
      intro page inside
      refine lowerHalf_of_lt ?_
      rw [pagesFor, Nat.mod_eq_of_lt wraps] at inside
      rw [Paging.pageVirt]
      omega
    | shmat shmid => trivial
  obtain ⟨L', formed', -⟩ := formed.move careful moved
  refine ⟨⟨L', formed'⟩, ?_⟩
  have returns : wp (perform c.act) (fun _ _ => True) (fun _ _ => False) (enter i k) := by
    have ends : ∀ {Q}, wp (perform c.act) Q (fun _ _ => False) (enter i k) → _ :=
      wp_mono (fun _ _ _ => trivial) fun _ _ never => never
    cases c with
    | brk newEnd => exact ends (formed.brk live careful)
    | mmap len => exact ends (formed.mmap live careful)
    | shmat shmid => exact ends (formed.shmat live)
  simp only [callBy, move, here, if_true] at moved
  rcases performed : perform c.act (enter i k) with ⟨e | v, k₁⟩
  · exact ((wp_error performed).mp returns).elim
  · rw [performed] at moved
    cases moved
    exact ⟨v, rfl⟩

/-- What was mapped and is kept is the same, for all that was handed out. -/
theorem Keeps.advances (keeps : Keeps i k k') (separated : Separated boot program i k)
    (heap : breakOf k i ≤ breakOf k' i) (regions : mmapBase (k.tasks i) ≤ mmapBase (k'.tasks i)) :
    Advances program i k k' := by
  have segtab := keeps.segtab
  refine ⟨heap, regions, fun a v page => ?_,
    fun id standing => ⟨?_, by rw [segtab], fun page inside => ?_⟩⟩
  · obtain ⟨e, there⟩ := Option.ne_none_iff_exists'.mp (separated.areas.mapped page)
    rw [there, keeps.leaves v e there]
  · refine ⟨standing.bound, segtab ▸ standing.active, segtab ▸ standing.size, fun page inside => ?_⟩
    rw [segtab] at inside ⊢
    exact keeps.leaves _ _ (standing.pages page inside)
  · rw [keeps.leaves _ _ (standing.pages page inside)]
    exact (standing.pages page inside).symm

section

variable (separated : Separated boot program i k) (after : ∃ L, Formed boot L k')
include separated after

theorem Separated.brk
    {newEnd : Nat} (fits : newEnd ≤ shmVirtBase) {v : Int} (outcome : BrkOutcome i newEnd k v k') :
    Separated boot program i k' ∧ Advances program i k k' := by
  have low := separated.heap
  have higher : breakOf k i ≤ breakOf k' i ∧ breakOf k' i ≤ shmVirtBase := by
    rcases outcome.heap with same | ⟨new, more, -⟩
    · omega
    · omega
  refine ⟨⟨after, outcome.keeps.here.trans separated.here, by omega, ?_, ?_⟩,
    outcome.keeps.advances separated higher.1 (Nat.le_of_eq outcome.regions.symm)⟩
  · rw [outcome.regions]
    exact separated.regions
  · refine separated.areas.grow outcome.keeps.leaves .heap (fun a v other page => ?_)
      fun v page => ?_
    · cases a with
      | program => exact page
      | heap => exact absurd rfl other
      | regions => simpa only [area, outcome.regions] using page
    · rcases outcome.heap with same | ⟨new, more, pages⟩
      · simp only [area, same] at page
        exact .inl page
      · simp only [area, new] at page ⊢
        by_cases old : v < (breakOf k i + 4095) / 4096
        · exact .inl ⟨page.1, old⟩
        · exact .inr (pages v (Nat.le_of_not_lt old) page.2)

theorem Separated.mmap
    {len : Nat} (fits : mmapBase (k.tasks i) + (len + 4095) / 4096 * 4096 ≤ shmVirtBase) {v : Int}
    (outcome : MmapOutcome i len k v k') :
    Separated boot program i k' ∧ Advances program i k k' := by
  obtain ⟨low, high, aligned⟩ := separated.regions
  have regions : mmapBase (k.tasks i) ≤ mmapBase (k'.tasks i) ∧
      mmapBase (k'.tasks i) ≤ shmVirtBase ∧ mmapBase (k'.tasks i) % 4096 = 0 := by
    rcases outcome.regions with ⟨-, same⟩ | ⟨-, new, -⟩
    · omega
    · omega
  refine ⟨⟨after, outcome.keeps.here.trans separated.here, ?_, by omega, ?_⟩,
    outcome.keeps.advances separated (Nat.le_of_eq outcome.heap.symm) regions.1⟩
  · rw [outcome.heap]
    exact separated.heap
  · refine separated.areas.grow outcome.keeps.leaves .regions (fun a v other page => ?_)
      fun v page => ?_
    · cases a with
      | program => exact page
      | heap => simpa only [area, outcome.heap] using page
      | regions => exact absurd rfl other
    · rcases outcome.regions with ⟨-, same⟩ | ⟨-, new, pages⟩
      · simp only [area, same] at page
        exact .inl page
      · by_cases old : v < mmapBase (k.tasks i) / 4096
        · exact .inl ⟨page.1, old⟩
        · exact .inr (pages v (Nat.le_of_not_lt old) page.2)

theorem Separated.shmat (clear : ∀ v, program v → v < 0x20000 ∨ 0x21000 ≤ v) {id : Nat}
    (outcome : ShmatOutcome i id k k') :
    Separated boot program i k' ∧ Advances program i k k' := by
  have heap := separated.heap
  have regions := separated.regions
  have place : shmVaddr id / 4096 = 0x20000 + id * 256 := by
    rw [shmVaddr, shmVirtBase, shmSlotSize]
    omega
  rw [shmVirtBase] at heap regions
  have kept : ∀ a v, area program k i a v → leafOf k' i v = leafOf k i v := by
    intro a v page
    refine outcome.others v ?_
    rw [place, maxSegments]
    cases a with
    | program =>
      have outside := clear v page
      omega
    | heap =>
      obtain ⟨-, high⟩ : _ ∧ v < (breakOf k i + 4095) / 4096 := page
      omega
    | regions =>
      obtain ⟨-, high⟩ : _ ∧ v < mmapBase (k.tasks i) / 4096 := page
      omega
  have same : area program k' i = area program k i := by
    funext a v
    cases a with
    | program => rfl
    | heap => simp only [area, outcome.heap]
    | regions => simp only [area, outcome.regions]
  have stays : ∀ id', Standing i id' k → ∀ page < (k.segtab id').pages,
      leafOf k' i (regionPage (shmVaddr id') page) = leafOf k i
        (regionPage (shmVaddr id') page) := by
    intro id' standing page inside
    by_cases this : id' = id
    · subst this
      rcases outcome.pages page inside with old | new
      · exact old
      · rw [new]
        exact (standing.pages page inside).symm
    · refine outcome.others _ ?_
      have bound := standing.bound
      have size := standing.size
      rw [window_page bound (by omega), place]
      rw [maxSegments] at bound ⊢
      omega
  refine ⟨⟨after, outcome.here.trans separated.here, ?_, ?_, ?_⟩,
    ⟨Nat.le_of_eq outcome.heap.symm, Nat.le_of_eq outcome.regions.symm, kept,
      fun id' standing => ⟨?_, (outcome.segtab id').2.2, stays id' standing⟩⟩⟩
  · rw [outcome.heap]
    exact separated.heap
  · rw [outcome.regions]
    exact separated.regions
  · rw [same]
    refine ⟨fun {a v} page => ?_, separated.areas.apart⟩
    rw [kept a v page]
    exact separated.areas.mapped page
  · obtain ⟨active, base, count⟩ := outcome.segtab id'
    refine ⟨standing.bound, active.trans standing.active, count ▸ standing.size,
      fun page inside => ?_⟩
    rw [count] at inside
    have entry : segEntry (k'.segtab id') page = segEntry (k.segtab id') page := by
      rw [segEntry, segEntry, base]
    rw [entry]
    exact (stays id' standing page inside).trans (standing.pages page inside)

end

/-- **One call** keeps the areas apart and what was handed out in its place. -/
theorem Separated.call (separated : Separated boot program i k)
    (clear : ∀ v, program v → v < 0x20000 ∨ 0x21000 ≤ v) {c : MemCall} (fits : Fits i k c)
    (moved : callBy i k c = some k') :
    Separated boot program i k' ∧ Advances program i k k' := by
  obtain ⟨after, v, performed⟩ := separated.performs fits moved
  obtain ⟨L, formed⟩ := separated.formed
  cases c with
  | brk newEnd =>
    have bound : newEnd ≤ shmVirtBase := fits
    exact separated.brk after fits (brk_served formed separated.here
      (by rw [shmVirtBase] at bound; omega) performed)
  | mmap len =>
    obtain ⟨wraps, bound⟩ : len + 4095 < 2 ^ 64 ∧ _ ≤ shmVirtBase := fits
    exact separated.mmap after bound (mmap_served formed separated.here separated.regions.2.2 wraps
      (by rw [shmVirtBase] at bound; omega) performed)
  | shmat shmid => exact separated.shmat after clear (shmat_served formed separated.here performed)

end Steps

/-! ## What has been handed out -/

/-- The range `r`, which the call has handed out, is held by the task in the state `s`. -/
def Held (i : Nat) (r : Nat × Nat) (s : Kernel) : MemCall → Prop
  | .brk _ => r.1 = userHeapBase ∧ r.2 ≤ breakOf s i
  | .mmap _ => userMmapBase ≤ r.1 ∧ r.2 ≤ mmapBase (s.tasks i)
  | .shmat shmid => Standing i (shmid % 2 ^ 32) s ∧ r.1 = shmVaddr (shmid % 2 ^ 32) ∧
      r.2 = r.1 + (s.segtab (shmid % 2 ^ 32)).pages * 4096

section Holding

variable {boot : Paging} {program : Nat → Prop} {k k' : Kernel} {i x : Nat} {r r' : Nat × Nat}
variable {c d : MemCall}

theorem Held.advances (held : Held i r k c) (advances : Advances program i k k') :
    Held i r k' c := by
  cases c with
  | brk newEnd => exact ⟨held.1, held.2.trans advances.heap⟩
  | mmap len => exact ⟨held.1, held.2.trans advances.regions⟩
  | shmat shmid =>
    obtain ⟨standing, address, size⟩ := held
    obtain ⟨standing', count, -⟩ := advances.segments _ standing
    exact ⟨standing', address, by rw [count]; exact size⟩

/-- The page of a segment that an address belongs to. -/
theorem Standing.page {id : Nat} (standing : Standing i id k) (low : shmVaddr id ≤ x)
    (high : x < shmVaddr id + (k.segtab id).pages * 4096) :
    ∃ page < (k.segtab id).pages, x / 4096 = regionPage (shmVaddr id) page ∧
      x / 4096 = 0x20000 + id * 256 + page ∧ page < 256 := by
  have size := standing.size
  rw [shmVaddr, shmVirtBase, shmSlotSize] at low high
  refine ⟨x / 4096 - (0x20000 + id * 256), by omega, ?_, by omega, by omega⟩
  rw [window_page standing.bound (by omega)]
  omega

/-- Where the pages of a call lie. -/
def Place (program : Nat → Prop) (k : Kernel) (i : Nat) : MemCall → Nat → Prop
  | .brk _, v => area program k i .heap v
  | .mmap _, v => area program k i .regions v
  | .shmat shmid, v => ∃ page < 256, v = 0x20000 + shmid % 2 ^ 32 * 256 + page

theorem Held.place (held : Held i r k c) (separated : Separated boot program i k) (low : r.1 ≤ x)
    (high : x < r.2) : Place program k i c (x / 4096) := by
  cases c with
  | brk newEnd =>
    obtain ⟨base, top⟩ := held
    exact ⟨by omega, by omega⟩
  | mmap len =>
    obtain ⟨base, top⟩ := held
    have aligned := separated.regions.2.2
    exact ⟨by omega, by omega⟩
  | shmat shmid =>
    obtain ⟨standing, address, size⟩ := held
    obtain ⟨page, -, -, place, small⟩ := standing.page (address ▸ low) (by omega)
    exact ⟨page, small, place⟩

/-- What is held is not mapped anew. -/
theorem Held.kept (held : Held i r k c) (separated : Separated boot program i k)
    (advances : Advances program i k k') (low : r.1 ≤ x) (high : x < r.2) :
    leafOf k' i (x / 4096) = leafOf k i (x / 4096) := by
  cases c with
  | brk newEnd => exact advances.areas .heap _ (held.place separated low high)
  | mmap len => exact advances.areas .regions _ (held.place separated low high)
  | shmat shmid =>
    obtain ⟨standing, address, size⟩ := held
    obtain ⟨page, inside, place, -⟩ := standing.page (address ▸ low) (by omega)
    obtain ⟨-, -, same⟩ := advances.segments _ standing
    rw [place]
    exact same page inside

/-- The heap and the regions lie below the segments. -/
theorem Separated.below (separated : Separated boot program i k) {v shmid page : Nat}
    (place : area program k i .heap v ∨ area program k i .regions v) :
    v ≠ 0x20000 + shmid % 2 ^ 32 * 256 + page := by
  have heap := separated.heap
  have regions := separated.regions
  rw [shmVirtBase] at heap regions
  rcases place with ⟨-, high⟩ | ⟨-, high⟩ <;> omega

/-- What is held has not been mapped by the program itself. -/
theorem Held.outside (held : Held i r k c) (separated : Separated boot program i k)
    (clear : ∀ v, program v → v < 0x20000 ∨ 0x21000 ≤ v) (low : r.1 ≤ x) (high : x < r.2) :
    ¬program (x / 4096) := by
  intro page
  have own : area program k i .program (x / 4096) := page
  have place := held.place separated low high
  cases c with
  | brk newEnd =>
    have same : Area.program = .heap := separated.areas.apart own place
    cases same
  | mmap len =>
    have same : Area.program = .regions := separated.areas.apart own place
    cases same
  | shmat shmid =>
    obtain ⟨page', small, place⟩ := place
    have bound := held.1.bound
    have away := clear _ page
    rw [maxSegments] at bound
    omega

/-- Two ranges are apart, unless they are of one area or both of `mmap`. -/
theorem Held.apart (held : Held i r k c) (held' : Held i r' k d)
    (separated : Separated boot program i k) (areas : ¬c.sameArea d)
    (regions : ∀ len len', c = .mmap len → d = .mmap len' → r.2 ≤ r'.1) (low : r.1 ≤ x)
    (high : x < r.2) : ¬(r'.1 ≤ x ∧ x < r'.2) := by
  rintro ⟨low', high'⟩
  have place := held.place separated low high
  have place' := held'.place separated low' high'
  cases c with
  | brk newEnd =>
    cases d with
    | brk newEnd' => exact areas trivial
    | mmap len' =>
      have same : Area.heap = .regions := separated.areas.apart place place'
      cases same
    | shmat shmid' =>
      obtain ⟨page, -, there⟩ := place'
      exact separated.below (.inl place) there
  | mmap len =>
    cases d with
    | brk newEnd' =>
      have same : Area.regions = .heap := separated.areas.apart place place'
      cases same
    | mmap len' =>
      have order := regions len len' rfl rfl
      omega
    | shmat shmid' =>
      obtain ⟨page, -, there⟩ := place'
      exact separated.below (.inr place) there
  | shmat shmid =>
    obtain ⟨page, small, there⟩ := place
    cases d with
    | brk newEnd' => exact separated.below (.inl place') there
    | mmap len' => exact separated.below (.inr place') there
    | shmat shmid' =>
      obtain ⟨page', small', there'⟩ := place'
      refine areas (?_ : shmid % 2 ^ 32 = shmid' % 2 ^ 32)
      omega

/-- An address below the end of the segments is answered as it is. -/
theorem eq_of_toI64 {a w : Nat} (small : w ≤ shmVirtBase) (answered : (a : Int) = toI64 w) :
    a = w := by
  rw [shmVirtBase] at small
  rw [toI64, if_pos (by omega)] at answered
  exact_mod_cast answered

/-- A segment that is answered is attached. -/
theorem standing_of_answer (after : ∃ L, Formed boot L k') {shmid a : Nat}
    (here : occupied k i = true) (performed : shmatImpl shmid (enter i k) = (.ok (a : Int), k')) :
    Standing i (shmid % 2 ^ 32) k' ∧ a = shmVaddr (shmid % 2 ^ 32) := by
  obtain ⟨L', formed'⟩ := after
  obtain ⟨still, n, bound, active, same, address⟩ := shmat_answer performed (Int.natCast_nonneg a)
  have live : books k' i = some (booksOf (k'.tasks i)) := if_pos (still.trans here)
  obtain ⟨place, attached⟩ := formed'.sound.listed (formed'.books ▸ live) bound active
  have attached' : Attached L'.spaces k'.segtab (booksOf (k'.tasks i)).root (shmid % 2 ^ 32) := by
    rw [← same, ← formed'.segtab]
    exact attached
  have ok : SegmentOk (k'.segtab (shmid % 2 ^ 32)) := by
    rw [← formed'.segtab]
    exact formed'.sound.segment attached'.bound (formed'.segtab ▸ attached'.active)
  refine ⟨⟨attached'.bound, attached'.active, ok.size, fun page inside => ?_⟩, ?_⟩
  · rw [formed'.leafAt_eq live]
    exact attached'.pages page inside
  · have named : a = ((k'.tasks i).shmAttaches n).vaddr := by exact_mod_cast address
    rw [named, ← same]
    exact place

/-- What a call answers is held afterwards; a region begins where the regions ended. -/
theorem held_of_answer (separated : Separated boot program i k) (fits : Fits i k c)
    (after : Separated boot program i k') (moved : callBy i k c = some k') {a : Nat}
    (answered : answer k i c.act = some (a : Int)) :
    Held i (c.range k a) k' c ∧ ∀ len, c = .mmap len → a = mmapBase (k.tasks i) := by
  obtain ⟨here, performed⟩ := performs_of_answer moved answered
  obtain ⟨L, formed⟩ := separated.formed
  cases c with
  | brk newEnd =>
    have bound : newEnd ≤ shmVirtBase := fits
    have outcome := brk_served formed here (by rw [shmVirtBase] at bound; omega) performed
    refine ⟨⟨rfl, ?_⟩, fun len other => by cases other⟩
    rcases outcome.answer with negative | same
    · exact absurd negative (Int.not_lt.mpr (Int.natCast_nonneg a))
    · exact Nat.le_of_eq (eq_of_toI64 after.heap.2 same)
  | mmap len =>
    obtain ⟨wraps, bound⟩ : len + 4095 < 2 ^ 64 ∧ _ ≤ shmVirtBase := fits
    have outcome := mmap_served formed here separated.regions.2.2 wraps
      (by rw [shmVirtBase] at bound; omega) performed
    rcases outcome.regions with ⟨negative, -⟩ | ⟨same, end', -⟩
    · exact absurd negative (Int.not_lt.mpr (Int.natCast_nonneg a))
    · have base := eq_of_toI64 separated.regions.2.1 same
      refine ⟨⟨?_, ?_⟩, fun _ _ => base⟩
      · rw [MemCall.range, base]
        exact separated.regions.1
      · rw [MemCall.range, base, end']
        omega
  | shmat shmid =>
    obtain ⟨standing, address⟩ := standing_of_answer after.formed here performed
    obtain ⟨active, -, count⟩ := (shmat_served formed here performed).segtab (shmid % 2 ^ 32)
    refine ⟨⟨standing, address, ?_⟩, fun len other => by cases other⟩
    have size : segmentPages k.segtab (shmid % 2 ^ 32) = (k'.segtab (shmid % 2 ^ 32)).pages := by
      rw [segmentPages, if_neg (Nat.not_le.mpr standing.bound), if_pos (active ▸ standing.active),
        count]
    rw [MemCall.range, size]

end Holding

/-! ## Runs of calls -/

/-- No sum of a call that fits exceeds 64 bits. -/
theorem Separated.noWrap {boot : Paging} {program : Nat → Prop} {i : Nat} {k : Kernel} {c : MemCall}
    (separated : Separated boot program i k) (fits : Fits i k c) : NoWrap i k c := by
  have heap := separated.heap.2
  rw [shmVirtBase] at heap
  cases c with
  | brk newEnd =>
    have bound : newEnd ≤ shmVirtBase := fits
    rw [shmVirtBase] at bound
    exact ⟨by omega, by omega⟩
  | mmap len =>
    obtain ⟨wraps, bound⟩ : len + 4095 < 2 ^ 64 ∧ _ ≤ shmVirtBase := fits
    rw [shmVirtBase] at bound
    exact ⟨wraps, by omega⟩
  | shmat shmid => trivial

/-- Before the first call there are the pages of the program only. -/
theorem separated_of_unserved {boot : Paging} {L : Layout} {i : Nat} {k : Kernel}
    (formed : Formed boot L k) (here : occupied k i = true) (fresh : Unserved (k.tasks i)) :
    Separated boot (fun v => leafOf k i v ≠ none) i k := by
  have heap : breakOf k i = userHeapBase := if_pos fresh.heap
  have regions : mmapBase (k.tasks i) = userMmapBase := if_pos fresh.regions
  have only : ∀ {a v}, area (fun v => leafOf k i v ≠ none) k i a v → a = .program ∧
      leafOf k i v ≠ none := by
    intro a v page
    cases a with
    | program => exact ⟨rfl, page⟩
    | heap =>
      obtain ⟨low, high⟩ := page
      rw [heap] at high
      rw [userHeapBase] at low high
      omega
    | regions =>
      obtain ⟨low, high⟩ := page
      rw [regions] at high
      omega
  refine ⟨⟨L, formed⟩, here, ?_, ?_, fun page => (only page).2, fun page page' => ?_⟩
  · rw [heap]
    decide
  · rw [regions]
    decide
  · rw [(only page).1, (only page').1]

/-- **The ranges of a task are apart**: in every run of calls whose heap and regions end
below the segments, from a state in which the task has not called for memory and no page
of it lies where the segments are. -/
theorem ranges_apart {boot : Paging} (start : Boot boot) {ops : List Op} {k₀ : Kernel} {i : Nat}
    {calls : List MemCall} (careful : Along move Careful (Kernel.start boot) ops)
    (ran : run move (Kernel.start boot) ops = some k₀) (here : occupied k₀ i = true)
    (fresh : Unserved (k₀.tasks i))
    (clear : ∀ v, leafOf k₀ i v ≠ none → v < 0x20000 ∨ 0x21000 ≤ v)
    (fits : Along (callBy i) (Fits i) k₀ calls) : RangesApart i k₀ calls := by
  obtain ⟨L, formed⟩ := formed_of_run start careful ran
  have first := separated_of_unserved formed here fresh
  have step : ∀ {k c k'}, Separated boot (fun v => leafOf k₀ i v ≠ none) i k → Fits i k c →
      callBy i k c = some k' → Separated boot (fun v => leafOf k₀ i v ≠ none) i k' :=
    fun separated fits moved => (separated.call clear fits moved).1
  have holding : ∀ {c : MemCall} {r : Nat × Nat} {k k' : Kernel} {d : MemCall},
      Separated boot (fun v => leafOf k₀ i v ≠ none) i k ∧ Held i r k c → Fits i k d →
      callBy i k d = some k' →
      Separated boot (fun v => leafOf k₀ i v ≠ none) i k' ∧ Held i r k' c := by
    rintro c r k k' d ⟨separated, held⟩ fits moved
    obtain ⟨separated', advances⟩ := separated.call clear fits moved
    exact ⟨separated', held.advances advances⟩
  have handed : ∀ {c k k' rest}, Happens (callBy i) k₀ calls k c k' rest → ∀ {a : Nat},
      answer k i c.act = some (a : Int) → Separated boot (fun v => leafOf k₀ i v ≠ none) i k' ∧
        Held i (c.range k a) k' c ∧ Along (callBy i) (Fits i) k' rest := by
    intro c k k' rest happens a answered
    obtain ⟨small, later⟩ := happens.along fits
    obtain ⟨before, after⟩ := happens.invariant step first fits
    obtain ⟨_, -, -, moved⟩ := happens
    exact ⟨after, (held_of_answer before small after moved answered).1, later⟩
  constructor
  · intro c k k' rest happens
    obtain ⟨small, -⟩ := happens.along fits
    exact (happens.invariant step first fits).1.noWrap small
  · intro c k k' rest happens a answered d j j' rest' happens' b answered' areas x low high
    obtain ⟨separated, held, later⟩ := handed happens answered
    obtain ⟨small, -⟩ := happens'.along later
    obtain ⟨⟨before, held'⟩, after, held''⟩ := happens'.invariant holding ⟨separated, held⟩ later
    obtain ⟨_, -, -, moved⟩ := happens'
    obtain ⟨new, base⟩ := held_of_answer before small after moved answered'
    refine held''.apart new after areas (fun len len' first second => ?_) low high
    subst first second
    rw [MemCall.range, MemCall.range, base len' rfl]
    exact held'.2
  · intro c k k' rest happens a answered x low high
    obtain ⟨separated, held, -⟩ := handed happens answered
    exact Classical.not_not.mp (held.outside separated clear low high)
  · intro c k k' rest happens a answered d j j' rest' happens' x low high
    obtain ⟨separated, held, later⟩ := handed happens answered
    obtain ⟨small, -⟩ := happens'.along later
    obtain ⟨⟨before, held'⟩, -⟩ := happens'.invariant holding ⟨separated, held⟩ later
    obtain ⟨_, -, -, moved⟩ := happens'
    exact held'.kept before (before.call clear small moved).2 low high

/-- A task grows its heap, asks for a page and attaches a segment. -/
def oneOfEach : List MemCall := [.brk 0x1001000, .mmap 4096, .shmat 0]

theorem ranges_apart_oneOfEach :
    ∃ k₀, run move (Kernel.start threeTasks) [.start onePage [], .act 0 (.shmget 1 4096)] =
      some k₀ ∧
      (run (callBy 0) k₀ oneOfEach).isSome = true ∧ RangesApart 0 k₀ oneOfEach := by
  have ends : (run move (Kernel.start threeTasks) [.start onePage [], .act 0 (.shmget 1 4096)]).map
      (fun k => (decide (occupied k 0 = true ∧ (k.tasks 0).heapEnd = 0 ∧ (k.tasks 0).mmapEnd = 0),
        decide (∀ q : Fin 8, tableAt k.paging.mem ((k.tasks 0).cr3 / 4096) 3 (0x100 + q) = none),
        decide (Along (callBy 0) (Fits 0) k oneOfEach), (run (callBy 0) k oneOfEach).isSome)) =
      some (true, true, true, true) := by decide +kernel
  have careful : Along move Checkable (Kernel.start threeTasks)
      [.start onePage [], .act 0 (.shmget 1 4096)] := by decide +kernel
  obtain ⟨k₀, ran, facts⟩ := Option.map_eq_some_iff.mp ends
  simp only [Prod.mk.injEq, decide_eq_true_eq] at facts
  obtain ⟨⟨here, heap, regions⟩, clear, fits, returns⟩ := facts
  refine ⟨k₀, ran, returns, ranges_apart threeTasks_boot (careful.mono fun _ _ => Checkable.careful)
    ran here ⟨heap, regions⟩ (fun v mapped => ?_) fits⟩
  by_contra inside
  have absent := clear ⟨v / 512 - 0x100, by omega⟩
  rw [show 0x100 + (v / 512 - 0x100) = v / 512 by omega] at absent
  exact mapped (by rw [leafOf, leafAt, absent])

/-- A program of one page where the first segment is attached. -/
def inTheWay : Plan := ⟨[.map 0x20000000 1 true true .oomCode], 0x20000000, 0x20001000⟩

/-- The length of the first request wraps around to no pages, and the next request is
answered with the same address; and a segment is attached over the page of a program. -/
theorem ranges_collide :
    Boot threeTasks ∧
    (∃ k₀, run move (Kernel.start threeTasks) [.start onePage []] = some k₀ ∧
      ¬RangesApart 0 k₀ [.mmap (2 ^ 64 - 1), .mmap 4096]) ∧
    ∃ k₀, run move (Kernel.start threeTasks) [.start inTheWay [], .act 0 (.shmget 1 4096)] =
      some k₀ ∧
      ¬RangesApart 0 k₀ [.shmat 0] := by
  refine ⟨threeTasks_boot, ?_, ?_⟩
  · have ends : (run move (Kernel.start threeTasks) [.start onePage []]).bind (fun k =>
        (callBy 0 k (.mmap (2 ^ 64 - 1))).bind fun k' => (callBy 0 k' (.mmap 4096)).map fun _ =>
          (answer k 0 (.mmap (2 ^ 64 - 1)), answer k' 0 (.mmap 4096))) =
        some (some 0x8000000, some 0x8000000) := by decide +kernel
    obtain ⟨k, ran, rest⟩ := Option.bind_eq_some_iff.mp ends
    obtain ⟨k', moved, rest⟩ := Option.bind_eq_some_iff.mp rest
    obtain ⟨j, moved', facts⟩ := Option.map_eq_some_iff.mp rest
    obtain ⟨first, second⟩ : answer k 0 (.mmap (2 ^ 64 - 1)) = some 0x8000000 ∧
        answer k' 0 (.mmap 4096) = some 0x8000000 := by
      simpa only [Prod.mk.injEq] using facts
    refine ⟨k, ran, fun apart => ?_⟩
    have wide : 0x8000000 < (MemCall.range k 0x8000000 (.mmap (2 ^ 64 - 1))).2 :=
      Nat.lt_add_of_pos_right (by decide)
    have high : 0x8000000 < (MemCall.range k' 0x8000000 (.mmap 4096)).2 :=
      Nat.lt_add_of_pos_right (by decide)
    exact apart.apart (.mmap (2 ^ 64 - 1)) k k' [.mmap 4096] ⟨[], rfl, rfl, moved⟩ 0x8000000 first
      (.mmap 4096) k' j [] ⟨[], rfl, rfl, moved'⟩ 0x8000000 second id 0x8000000 (Nat.le_refl _) wide
      ⟨Nat.le_refl _, high⟩
  · have ends : (run move (Kernel.start threeTasks)
        [.start inTheWay [], .act 0 (.shmget 1 4096)]).bind (fun k =>
        (callBy 0 k (.shmat 0)).map fun _ => (answer k 0 (.shmat 0), segmentPages k.segtab 0,
          (leafOf k 0 0x20000).isSome)) = some (some 0x20000000, 1, true) := by decide +kernel
    obtain ⟨k, ran, rest⟩ := Option.bind_eq_some_iff.mp ends
    obtain ⟨k', moved, facts⟩ := Option.map_eq_some_iff.mp rest
    obtain ⟨address, pages, mapped⟩ : answer k 0 (.shmat 0) = some 0x20000000 ∧
        segmentPages k.segtab 0 = 1 ∧ (leafOf k 0 0x20000).isSome = true := by
      simpa only [Prod.mk.injEq] using facts
    refine ⟨k, ran, fun apart => ?_⟩
    have high : 0x20000000 < (MemCall.range k 0x20000000 (.shmat 0)).2 := by
      show 0x20000000 < 0x20000000 + segmentPages k.segtab 0 * 4096
      rw [pages]
      decide
    have absent := apart.program (.shmat 0) k k' [] ⟨[], rfl, rfl, moved⟩ 0x20000000 address
      0x20000000 (Nat.le_refl _) high
    rw [show 0x20000000 / 4096 = 0x20000 by decide] at absent
    rw [absent] at mapped
    cases mapped

end OxideOS.Sys
