import OxideOS.Sys.SharedSegments

/-!
# What exec leaves behind

`exec` replaces the address space of a task and leaves its books as they are. When a
task has nothing in its books before every `exec`, and unmaps no page of its heap,
the books describe the address space at all times (`exec_leaves_no_trace`): the heap
is mapped up to the break, and an address that `shmat` answers has the segment behind
it. With a heap from the old program, the new one is told of memory it does not have:
`stale_heap`.
-/

set_option autoImplicit false

namespace OxideOS.Sys

open Lib Mem Fs Ipc Proc Proc.Kernel PageTableFlags PageTableEntry Function

/-! ## Pages the program can write -/

/-- The program can write to the page, after a copy perhaps. -/
def Usable (e : Nat) : Prop := isUser e = true ∧ (isWritable e = true ∨ isCow e = true)

theorem usable_set (phys : Nat) : Usable (PageTableEntry.set phys (userFlags true false)) := by
  simp [Usable]

variable {e v r i : Nat}

theorem Usable.cowEntry (usable : Usable e) : Usable (Mem.cowEntry e) := by
  simp [Usable, Mem.cowEntry, usable.1]

theorem Usable.resolved (usable : Usable e) (f : Nat) :
    Usable (withFlags (f * 4096) (asWritableNoCow (PageTableEntry.flags e))) := by
  simp [Usable, usable.1]

/-- The copy of a page in a forked task. -/
theorem Usable.copy {ranges : List (Nat × Nat)} {e' : Nat} (usable : Usable e)
    (copy : LeafCopy ranges v e e') : Usable e' := by
  cases copy with
  | verbatim => exact usable
  | copied | readonly => simpa [Usable] using usable
  | lowered => exact usable.cowEntry

/-- The page can be written below the root. -/
def UsablePage (A : AddressSpaces) (r v : Nat) : Prop := ∃ e, A.view r v = some e ∧ Usable e

/-- A segment is mapped over other pages, or over none. -/
theorem UsablePage.shared {A A' : AddressSpaces} {r' virt base pages : Nat}
    (usable : UsablePage A r v)
    (more : MapsShared A A' r' virt base pages (userFlags true false)) : UsablePage A' r v := by
  obtain ⟨e, mapped, open'⟩ := usable
  by_cases here : r = r' ∧ ∃ page < pages, v = regionPage virt page
  · obtain ⟨rfl, page, inside, rfl⟩ := here
    rcases more.pages page inside with unchanged | set
    · exact ⟨e, unchanged.trans mapped, open'⟩
    · exact ⟨_, set, usable_set _⟩
  · refine ⟨e, (more.others r v ?_).trans mapped, open'⟩
    by_cases same : r = r'
    · exact .inr fun page inside equal => here ⟨same, page, inside, equal⟩
    · exact .inl same

theorem UsablePage.forked {A A' : AddressSpaces} {ranges : List (Nat × Nat)} {src f : Nat}
    (usable : UsablePage A r v) (member : r ∈ A.roots) (effect : ForkEffect ranges src f A A') :
    UsablePage A' r v := by
  obtain ⟨e, mapped, open'⟩ := usable
  by_cases here : r = src
  · subst here
    rcases effect.source v with same | ⟨d, before, after, -⟩
    · exact ⟨e, same.trans mapped, open'⟩
    · rw [mapped] at before
      cases before
      exact ⟨_, after, open'.cowEntry⟩
  · refine ⟨e, (effect.others here ?_).trans mapped, open'⟩
    rintro rfl
    exact effect.new member

variable {L L' : Layout} {op : Op}

/-- **Pages stay usable** as long as the address space lives and the task does not
unmap them. -/
theorem Moves.usable_kept (moves : Moves L op L')
    (before : r ∈ L.spaces.roots) (after : r ∈ L'.spaces.roots) (usable : UsablePage L.spaces r v)
    (kept : ∀ {i b addr len}, op = .act i (.munmap addr len) → L.books i = some b → b.root = r →
      ∀ page < pagesFor len, v ≠ regionPage addr page) : UsablePage L'.spaces r v := by
  obtain ⟨e, mapped, open'⟩ := usable
  have same : ∀ {A' : AddressSpaces}, A'.view r v = L.spaces.view r v → UsablePage A' r v :=
    fun unchanged => ⟨e, unchanged.trans mapped, open'⟩
  have beside : ∀ {A' : AddressSpaces} {f : Nat}, Beside L.spaces A' f → UsablePage A' r v := by
    intro A' f beside
    refine same (beside.others ?_)
    rintro rfl
    exact beside.new before
  cases moves with
  | refused | created _ _ | detached _ _ _ _ _ | noted _ _ => exact same rfl
  | leftover added => exact beside added
  | started _ added => exact beside added
  | executed _ _ new roots others =>
    rw [roots] at after
    refine same (others (Finset.ne_of_mem_erase after) ?_)
    rintro rfl
    exact new before
  | exited _ _ roots others =>
    rw [roots] at after
    exact same (others (Finset.ne_of_mem_erase after))
  | forked _ _ effect _ => exact UsablePage.forked ⟨e, mapped, open'⟩ before effect
  | unforked _ effect => exact UsablePage.forked ⟨e, mapped, open'⟩ before effect
  | grown _ _ more _ => exact ⟨e, more.kept mapped, open'⟩
  | mapped _ more _ => exact ⟨e, more.kept mapped, open'⟩
  | unfinished _ more => exact ⟨e, more.kept mapped, open'⟩
  | @unmapped i b _ addr len A' live _ _ others =>
    refine same (others r v ?_)
    by_cases here : b.root = r
    · exact .inr (kept rfl live here)
    · exact .inl (Ne.symm here)
  | attached _ _ _ _ more _ _ => exact UsablePage.shared ⟨e, mapped, open'⟩ more
  | unattached _ _ _ more => exact UsablePage.shared ⟨e, mapped, open'⟩ more
  | @stored i b virt byte w d f live mapped' cow =>
    by_cases here : r = b.root ∧ v = w
    · obtain ⟨rfl, rfl⟩ := here
      rw [mapped] at mapped'
      cases mapped'
      exact ⟨_, AddressSpaces.setView_self _ _ _ _, open'.resolved f⟩
    · exact same (AddressSpaces.setView_of_ne _ _ here)

/-! ## Heaps -/

/-- The number of the page is one of the heap. -/
def HeapPage (b : Books) (v : Nat) : Prop :=
  userHeapBase / 4096 ≤ v ∧ v < pageCeil (heapTop b) / 4096

instance (b : Books) (v : Nat) : Decidable (HeapPage b v) := inferInstanceAs (Decidable (_ ∧ _))

/-- Nothing of an address space is recorded: no heap, no mappings, no attachments, no
FS base, and every signal has its default action or is ignored. -/
structure Blank (b : Books) : Prop where
  heap : b.heapEnd = 0
  mmap : b.mmapEnd = 0
  regions : b.mmapNregions = 0
  attaches : ∀ n < maxAttach, (b.shmAttaches n).active = false
  handlers : ∀ signum < nsig, b.signalHandlers signum ≤ 1
  fs : b.fsBase = 0

variable {b b' : Books}

theorem blank_iff : Blank b ↔ b.heapEnd = 0 ∧ b.mmapEnd = 0 ∧ b.mmapNregions = 0 ∧
    (∀ n < maxAttach, (b.shmAttaches n).active = false) ∧
    (∀ signum < nsig, b.signalHandlers signum ≤ 1) ∧ b.fsBase = 0 :=
  ⟨fun blank => ⟨blank.1, blank.2, blank.3, blank.4, blank.5, blank.6⟩,
    fun ⟨heap, mmap, regions, attaches, handlers, fs⟩ =>
      ⟨heap, mmap, regions, attaches, handlers, fs⟩⟩

instance (b : Books) : Decidable (Blank b) := decidable_of_iff _ blank_iff.symm

/-- A task executes another program only with blank books, and unmaps no page of its
heap. -/
def BooksTidy (k : Kernel) : Op → Prop
  | .act i (.exec _) => Blank (booksOf (k.tasks i))
  | .act i (.munmap addr len) =>
    ∀ page < pagesFor len, ¬HeapPage (booksOf (k.tasks i)) (regionPage addr page)
  | _ => True

def Orderly (k : Kernel) (op : Op) : Prop := Careful k op ∧ BooksTidy k op

instance (k : Kernel) (op : Op) : Decidable (BooksTidy k op) := by
  unfold BooksTidy
  split <;> infer_instance

/-- Where the heap of a task comes from: it is as before, or the task is new, or it
has executed another program or grown its heap. -/
inductive HeapOf (L L' : Layout) : Op → Nat → Books → Prop
  | kept {op : Op} {j : Nat} {b b' : Books} (live : L.books j = some b) (cr3 : b'.cr3 = b.cr3)
      (heap : b'.heapEnd = b.heapEnd) : HeapOf L L' op j b'
  | started {op : Op} {j : Nat} {b' : Books} (heap : b'.heapEnd = 0) : HeapOf L L' op j b'
  | executed {j : Nat} {b b' : Books} {plan : Plan} (live : L.books j = some b)
      (heap : b'.heapEnd = b.heapEnd) : HeapOf L L' (.act j (.exec plan)) j b'
  | forked {i j : Nat} {b b' : Books} {ctx : TaskContext} (live : L.books i = some b)
      (heap : b'.heapEnd = b.heapEnd)
      (effect : ForkEffect (shmRanges b.shmAttaches L.segtab) b.root b'.root L.spaces L'.spaces)
      (all : ∀ v, L.spaces.view b.root v ≠ none → L'.spaces.view b'.root v ≠ none) :
      HeapOf L L' (.act i (.fork ctx)) j b'
  | grown {j : Nat} {b b' : Books} {newEnd : Nat} (live : L.books j = some b)
      (cr3 : b'.cr3 = b.cr3) (heap : b'.heapEnd = newEnd) (higher : heapTop b < newEnd)
      (more : MapsRegion L.spaces L'.spaces b.root (pageCeil (heapTop b)) (heapPages b newEnd)
        (userFlags true false))
      (mapped : ∀ page < heapPages b newEnd,
        L.spaces.view b.root (regionPage (pageCeil (heapTop b)) page) = none ∧
          L'.spaces.view b.root (regionPage (pageCeil (heapTop b)) page) ≠ none) :
      HeapOf L L' (.act j (.brk newEnd)) j b'

theorem Moves.heapOf {j : Nat} (moves : Moves L op L')
    (after : L'.books j = some b') : HeapOf L L' op j b' := by
  have same : L.books j = some b' → HeapOf L L' op j b' := fun before => .kept before rfl rfl
  cases moves with
  | refused => exact same after
  | leftover _ | unforked _ _ | unfinished _ _ | created _ _ | unattached _ _ _ _ | stored _ _ _ =>
    exact same after
  | started _ _ =>
    rcases books_cases after with ⟨-, new⟩ | ⟨-, before⟩
    · cases new
      exact .started rfl
    · exact same before
  | executed live _ _ _ _ =>
    rcases books_cases after with ⟨rfl, new⟩ | ⟨-, before⟩
    · cases new
      exact .executed live rfl
    · exact same before
  | exited _ _ _ _ =>
    rcases books_cases after with ⟨-, none⟩ | ⟨-, before⟩
    · cases none
    · exact same before
  | @forked i b ctx slot f fs A' live _ effect all =>
    rcases books_cases after with ⟨rfl, new⟩ | ⟨-, before⟩
    · cases new
      have root : f * 4096 / 4096 = f := Paging.frame_div f
      refine .forked live rfl ?_ ?_
      · show ForkEffect _ b.root (f * 4096 / 4096) _ _
        rw [root]
        exact effect
      · intro v mapped
        show A'.view (f * 4096 / 4096) v ≠ none
        rw [root]
        exact all v mapped
    · exact same before
  | grown live higher more mapped =>
    rcases books_cases after with ⟨rfl, new⟩ | ⟨-, before⟩
    · cases new
      exact .grown live rfl rfl higher more mapped
    · exact same before
  | mapped live _ rest =>
    rcases books_cases after with ⟨rfl, new⟩ | ⟨-, before⟩
    · cases new
      exact .kept live (by rw [rest]) (by rw [rest])
    · exact same before
  | unmapped live _ _ _ rest =>
    rcases books_cases after with ⟨rfl, new⟩ | ⟨-, before⟩
    · cases new
      exact .kept live (by rw [rest]) (by rw [rest])
    · exact same before
  | attached live _ _ _ _ _ _ =>
    rcases books_cases after with ⟨rfl, new⟩ | ⟨-, before⟩
    · cases new
      exact .kept live rfl rfl
    · exact same before
  | detached live _ _ _ _ =>
    rcases books_cases after with ⟨rfl, new⟩ | ⟨-, before⟩
    · cases new
      exact .kept live rfl rfl
    · exact same before
  | noted live rest =>
    rcases books_cases after with ⟨rfl, new⟩ | ⟨-, before⟩
    · cases new
      exact .kept live (by rw [rest]) (by rw [rest])
    · exact same before

/-- The heaps of all tasks are mapped, for writing. -/
def Heaped (L : Layout) : Prop :=
  ∀ {i b}, L.books i = some b →
    b.heapEnd ≤ 2 ^ 47 ∧ ∀ v, HeapPage b v → UsablePage L.spaces b.root v

theorem heapTop_congr (heap : b'.heapEnd = b.heapEnd) : heapTop b' = heapTop b := by
  rw [heapTop, heapTop, heap]

/-- Without a heap there are no pages of the heap. -/
theorem heapPage_blank (none : b.heapEnd = 0) (v : Nat) : ¬HeapPage b v := by
  rw [HeapPage, heapTop, if_pos none]
  have top : pageCeil userHeapBase = userHeapBase := by decide
  rw [top]
  omega

/-- The pages of a heap that has grown are those it had and the new ones. -/
theorem heapPage_grown {newEnd : Nat} (heap : b'.heapEnd = newEnd)
    (higher : heapTop b < newEnd) (bound : newEnd ≤ 2 ^ 47) (page : HeapPage b' v) :
    HeapPage b v ∨ ∃ n < heapPages b newEnd, v = regionPage (pageCeil (heapTop b)) n := by
  obtain ⟨low, high⟩ := page
  have top : heapTop b' = newEnd := by
    rw [heapTop, heap, if_neg (by omega)]
  rw [top, Formed.pageCeil_eq bound] at high
  by_cases old : v < pageCeil (heapTop b) / 4096
  · exact .inl ⟨low, old⟩
  · rw [Formed.pageCeil_eq (by omega)] at old
    refine .inr ⟨v - (heapTop b + 4095) / 4096, ?_, ?_⟩
    · rw [heapPages, Formed.pageCeil_eq bound, Formed.pageCeil_eq (by omega)]
      split <;> omega
    · rw [regionPage_eq, Formed.pageCeil_eq (by omega)]
      omega

variable {boot : Paging} {k k' : Kernel}

/-- **Heaps stay mapped.** -/
theorem Heaped.move
    (formed : Formed boot L k) (sound' : L'.Sound) (moves : Moves L op L') (heaped : Heaped L)
    (tidy : Orderly k op) : Heaped L' := by
  have recorded : ∀ {i b}, L.books i = some b → booksOf (k.tasks i) = b :=
    fun live => (books_eq_some.mp (formed.books ▸ live)).2.2
  have kept : ∀ {j b b' v}, L.books j = some b → L'.books j = some b' → b'.cr3 = b.cr3 →
      HeapPage b v → UsablePage L'.spaces b.root v := by
    intro j b b' v live after cr3 page
    have root : b'.root = b.root := by rw [Books.root, Books.root, cr3]
    refine moves.usable_kept (formed.sound.root live).1 (root ▸ (sound'.root after).1)
      ((heaped live).2 v page) ?_
    rintro i c addr len rfl live' same n inside rfl
    obtain rfl := formed.sound.apart live' live same
    rw [live] at live'
    cases live'
    have clear := tidy.2 n inside
    rw [recorded live] at clear
    exact clear page
  intro j b' after
  cases moves.heapOf after with
  | kept live cr3 heap =>
    have root : b'.root = _ := congrArg (· / 4096) cr3
    refine ⟨heap ▸ (heaped live).1, fun v page => ?_⟩
    rw [HeapPage, heapTop_congr heap] at page
    exact root ▸ kept live after cr3 page
  | started heap =>
    exact ⟨by omega, fun v page => absurd page (heapPage_blank heap v)⟩
  | executed live heap =>
    have blank : Blank (booksOf (k.tasks j)) := tidy.2
    rw [recorded live] at blank
    have none := heap.trans blank.heap
    exact ⟨by omega, fun v page => absurd page (heapPage_blank none v)⟩
  | forked live heap effect all =>
    refine ⟨heap ▸ (heaped live).1, fun v page => ?_⟩
    rw [HeapPage, heapTop_congr heap] at page
    obtain ⟨e, mapped, usable⟩ := (heaped live).2 v page
    obtain ⟨e', copied⟩ := Option.ne_none_iff_exists'.mp
      (all v (by rw [mapped]; exact Option.some_ne_none e))
    obtain ⟨d, before, copy⟩ := effect.target copied
    rw [mapped] at before
    cases before
    exact ⟨e', copied, usable.copy copy⟩
  | @grown _ b _ newEnd live cr3 heap higher more mapped =>
    have bound : newEnd ≤ 2 ^ 47 := tidy.1
    have root : b'.root = b.root := congrArg (· / 4096) cr3
    refine ⟨heap ▸ bound, fun v page => ?_⟩
    rw [root]
    rcases heapPage_grown heap higher bound page with old | ⟨n, inside, rfl⟩
    · exact kept live after cr3 old
    · obtain ⟨absent, present⟩ := mapped n inside
      obtain ⟨e, there⟩ := Option.ne_none_iff_exists'.mp present
      rcases more.entries there with before | ⟨-, d, rfl⟩
      · rw [absent] at before
        cases before
      · exact ⟨_, there, usable_set _⟩

theorem heaped_of_run (start : Boot boot) {ops : List Op}
    (tidy : Along move Orderly (Kernel.start boot) ops)
    (ran : run move (Kernel.start boot) ops = some k) :
    ∃ L, Formed boot L k ∧ Heaped L := by
  refine run_invariant (I := fun k => ∃ L, Formed boot L k ∧ Heaped L) ?_ ?_ tidy ran
  · rintro k op k' ⟨L, formed, heaped⟩ allowed moved
    obtain ⟨L', formed', moves⟩ := formed.move allowed.1 moved
    exact ⟨L', formed', heaped.move formed formed'.sound moves allowed⟩
  · refine ⟨_, formed_start start, ?_⟩
    rintro i b ⟨⟩

/-! ## The calls -/

/-- The program in slot `i` can write at the address. -/
def Writable (k : Kernel) (i a : Nat) : Prop :=
  ∃ e, leafAt k.paging.mem ((k.tasks i).cr3 / 4096) (a / 4096) = some e ∧ Usable e

/-- The break of a task. -/
def breakOf (k : Kernel) (i : Nat) : Nat := heapTop (booksOf (k.tasks i))

theorem Heaped.writable (formed : Formed boot L k)
    (heaped : Heaped L) (here : occupied k i = true) {a : Nat} (low : userHeapBase ≤ a)
    (high : a < breakOf k i) : Writable k i a := by
  have live : books k i = some (booksOf (k.tasks i)) := if_pos here
  obtain ⟨bound, pages⟩ := heaped (formed.books ▸ live)
  have small : breakOf k i ≤ 2 ^ 47 := by
    rw [breakOf, heapTop]
    split
    · decide
    · exact bound
  obtain ⟨e, mapped, usable⟩ := pages (a / 4096) (by
    rw [HeapPage, ← breakOf, Formed.pageCeil_eq small]
    omega)
  exact ⟨e, (formed.leafAt_eq live _).trans mapped, usable⟩

/-- `brk` answers an error or the break. -/
theorem brk_answer {newEnd : Nat} {v : Int}
    (answered : brkProgram newEnd (enter i k) = (.ok v, k')) :
    occupied k' i = occupied k i ∧ (v < 0 ∨ v = toI64 (breakOf k' i)) := by
  have ends : Prog.wp (brkProgram newEnd)
      (fun v k' => occupied k' i = occupied k i ∧ (v < 0 ∨ v = toI64 (breakOf k' i)))
      (fun _ _ => True) (enter i k) := by
    have top : (if (k.tasks i).heapEnd = 0 then userHeapBase else (k.tasks i).heapEnd) =
        heapTop (booksOf (k.tasks i)) := rfl
    unfold brkProgram
    simp only [currentTask, Prog.wp_bind, Prog.wp_gets, enter, top]
    split
    · exact ⟨rfl, .inr rfl⟩
    · next grows =>
        push Not at grows
        rw [Formed.growHeap_eq]
        simp only [Prog.wp_bind, wp_onPaging]
        refine Prog.wp_mono ?_ ?_ ((Prog.wp_state (P := fun _ => True)).mpr trivial)
        · rintro - p -
          refine ⟨?_, .inr (congrArg toI64 ?_)⟩
          · show (decide (i < maxTasks) && (update k.tasks i _ i).live) = _
            rw [update_self]
            rfl
          · show newEnd = heapTop (booksOf (update k.tasks i _ i))
            rw [update_self, heapTop]
            exact (if_neg grows.1).symm
        · rintro - p -
          exact ⟨rfl, .inl (by decide)⟩
  exact (Prog.wp_ok answered).mp ends

/-- Of the books, `exec` changes the root alone. -/
theorem exec_books {plan : Plan} (moved : settle (execPlan plan (enter i k)) = some k') :
    booksOf (k'.tasks i) = { booksOf (k.tasks i) with cr3 := (k'.tasks i).cr3 } := by
  refine settle_of_wp (Q := fun k' => booksOf (k'.tasks i) =
    { booksOf (k.tasks i) with cr3 := (k'.tasks i).cr3 }) ?_ moved
  unfold Prog.wp execPlan
  simp only [enter]
  rcases build plan.steps k.paging with ⟨e | cr3, p⟩
  · cases e with
    | halted =>
      rintro code ⟨⟩
    | _ => rfl
  · rintro code ⟨⟩
    rw [finishSlice, if_pos rfl]
    simp only [setState, modifyTask, setTask, update_self]
    rfl

theorem shmatImpl_enter {shmid : Nat} {out : Int × (Nat → ShmAttach) × (Nat → ShmSegment) × Paging}
    (named : Ipc.shmat (shmid % 2 ^ 32) (k.tasks i).cr3 (k.tasks i).shmAttaches k.segtab
      k.paging = out) :
    shmatImpl shmid (enter i k) = (.ok out.1,
      { (enter i k).modifyTask i fun t => { t with shmAttaches := out.2.1 } with
        segtab := out.2.2.1, paging := out.2.2.2 }) := by
  rw [← named]
  rfl

/-- `shmat` answers the address of an attachment in the table. -/
theorem shmat_answer {shmid : Nat} {v : Int}
    (answered : shmatImpl shmid (enter i k) = (.ok v, k')) (positive : 0 ≤ v) :
    occupied k' i = occupied k i ∧ ∃ n < maxAttach, ((k'.tasks i).shmAttaches n).active = true ∧
      ((k'.tasks i).shmAttaches n).shmid = shmid % 2 ^ 32 ∧
      v = ((k'.tasks i).shmAttaches n).vaddr := by
  have outcome := @shmat_cases (shmid % 2 ^ 32) (k.tasks i).cr3 k.segtab (k.tasks i).shmAttaches
    k.paging
  generalize named : Ipc.shmat (shmid % 2 ^ 32) (k.tasks i).cr3 (k.tasks i).shmAttaches k.segtab
    k.paging = out at outcome
  rw [shmatImpl_enter named] at answered
  obtain ⟨answer, after⟩ := Prod.mk.inj answered
  have result : out.1 = v := Except.ok.inj answer
  have task : k'.tasks i = { k.tasks i with shmAttaches := out.2.1 } := by
    rw [← after]
    exact update_self i _ k.tasks
  refine ⟨by rw [occupied, task]; rfl, ?_⟩
  rw [task]
  rcases outcome with ⟨negative, -⟩ | ⟨-, -, outcome⟩
  · omega
  · rcases outcome with ⟨n, bound, active, same, rfl⟩ | ⟨e, p', -, rfl⟩ | ⟨n, bound, p', -, rfl⟩
    · exact ⟨n, bound, active, same, result.symm⟩
    · rw [← result] at positive
      exact absurd positive (by simp)
    · refine ⟨n, bound, ?_⟩
      simp only [update_self, true_and]
      exact result.symm

/-- The pages of the segment stand at its address in the address space of the task. -/
def SegmentAt (k : Kernel) (i id : Nat) : Prop :=
  ∀ page < (k.segtab id).pages, leafAt k.paging.mem ((k.tasks i).cr3 / 4096)
    (regionPage (shmVaddr id) page) = some (segEntry (k.segtab id) page)

/-- **Exec leaves no trace**: in every state of a tidy run the books of a task that
executes another program are blank afterwards, the heap of every task can be written
up to its break, which is what `brk` answers, and an address that `shmat` answers has
the segment behind it. -/
theorem exec_leaves_no_trace {boot : Paging} (start : Boot boot) {ops : List Op} {k : Kernel}
    (tidy : Along move Orderly (Kernel.start boot) ops)
    (ran : run move (Kernel.start boot) ops = some k) :
    (∀ i plan k', Orderly k (.act i (.exec plan)) → move k (.act i (.exec plan)) = some k' →
      Blank (booksOf (k'.tasks i))) ∧
    (∀ i, occupied k i = true → ∀ a, userHeapBase ≤ a → a < breakOf k i → Writable k i a) ∧
    (∀ i newEnd v k', occupied k i = true → Orderly k (.act i (.brk newEnd)) →
      perform (.brk newEnd) (enter i k) = (.ok v, k') →
      ∀ a, userHeapBase ≤ a → (a : Int) < v → Writable k' i a) ∧
    ∀ i shmid v k', occupied k i = true → perform (.shmat shmid) (enter i k) = (.ok v, k') → 0 ≤ v →
      v = shmVaddr (shmid % 2 ^ 32) ∧ SegmentAt k' i (shmid % 2 ^ 32) := by
  obtain ⟨L, formed, heaped⟩ := heaped_of_run start tidy ran
  refine ⟨?_, fun i here a low high => heaped.writable formed here low high, ?_, ?_⟩
  · intro i plan k' allowed moved
    have here : occupied k i = true := by
      by_contra empty
      simp [move, empty] at moved
    simp only [move, here, if_true] at moved
    have blank : Blank (booksOf (k.tasks i)) := allowed.2
    rw [exec_books moved]
    exact { blank with }
  · intro i newEnd v k' here allowed answered a low high
    have moved : move k (.act i (.brk newEnd)) = some k' := by
      simp only [move, here, if_true, answered]
      rfl
    obtain ⟨L', formed', moves⟩ := formed.move allowed.1 moved
    have heaped' : Heaped L' := heaped.move formed formed'.sound moves allowed
    obtain ⟨still, answer⟩ := brk_answer answered
    refine heaped'.writable formed' (still.trans here) low ?_
    rcases answer with negative | rfl
    · omega
    · rw [toI64] at high
      split at high <;> omega
  · intro i shmid v k' here answered positive
    have moved : move k (.act i (.shmat shmid)) = some k' := by
      simp only [move, here, if_true, answered]
      rfl
    obtain ⟨L', formed', -⟩ :=
      formed.move (show Careful k (.act i (.shmat shmid)) from trivial) moved
    obtain ⟨still, n, bound, active, same, rfl⟩ := shmat_answer answered positive
    have live : books k' i = some (booksOf (k'.tasks i)) := if_pos (still.trans here)
    obtain ⟨address, attached⟩ := formed'.sound.listed (formed'.books ▸ live) bound active
    have number : ((booksOf (k'.tasks i)).shmAttaches n).shmid = shmid % 2 ^ 32 := same
    rw [number] at address attached
    refine ⟨congrArg Int.ofNat address, fun page inside => ?_⟩
    rw [← formed'.segtab] at inside ⊢
    rw [formed'.leafAt_eq live]
    exact attached.pages page inside

/-- An operation that is careful because there are no segments when a task leaves
its address space. -/
def Unshared (k : Kernel) : Op → Prop
  | .act _ (.exec plan) =>
    (∀ s ∈ plan.steps, s.Low) ∧ ∀ id < maxSegments, (k.segtab id).active = false
  | .act _ (.exit _) => ∀ id < maxSegments, (k.segtab id).active = false
  | op => Checkable k op

instance (k : Kernel) (op : Op) : Decidable (Unshared k op) := by
  unfold Unshared
  split <;> infer_instance

theorem Unshared.careful (unshared : Unshared k op) : Careful k op := by
  have plain : ∀ {i}, (∀ id < maxSegments, (k.segtab id).active = false) → NoShared k i := by
    rintro i none v e - ⟨id, bound, active, -⟩
    exact absurd (active.symm.trans (none id bound)) (by decide)
  cases op with
  | start plan name => exact @Checkable.careful k (.start plan name) unshared
  | act i a =>
    cases a with
    | exec plan => exact ⟨unshared.1, plain unshared.2⟩
    | exit arg => exact plain unshared
    | _ => exact @Checkable.careful k (.act i _) unshared

/-- A program is executed, grows its heap and attaches a segment. -/
def execAndGrow : List Op :=
  [.start onePage [], .act 0 (.exec onePage), .act 0 (.brk 0x1001000), .act 0 (.shmget 1 4096)]

theorem exec_leaves_no_trace_execAndGrow :
    ∃ k, run move (Kernel.start smallBoot) execAndGrow = some k ∧ breakOf k 0 = 0x1001000 ∧
      Writable k 0 0x1000800 ∧ ∃ k', perform (.shmat 0) (enter 0 k) = (.ok (shmVaddr 0), k') ∧
        SegmentAt k' 0 0 := by
  have ends : (run move (Kernel.start smallBoot) execAndGrow).map (fun k =>
      decide (occupied k 0 = true ∧ breakOf k 0 = 0x1001000 ∧
        (perform (.shmat 0) (enter 0 k)).1.toOption = some (shmVaddr 0 : Int))) = some true := by
    decide +kernel
  obtain ⟨k, ran, facts⟩ := Option.map_eq_some_iff.mp ends
  obtain ⟨here, top, answered⟩ := of_decide_eq_true facts
  have tidy : Along move (fun k op => Unshared k op ∧ BooksTidy k op) (Kernel.start smallBoot)
      execAndGrow := by decide +kernel
  obtain ⟨-, heap, -, shm⟩ := exec_leaves_no_trace smallBoot_boot
    (tidy.mono fun _ _ => And.imp_left Unshared.careful) ran
  refine ⟨k, ran, top, heap 0 here _ (by decide) (by rw [top]; decide), ?_⟩
  rcases result : perform (.shmat 0) (enter 0 k) with ⟨e | v, k'⟩
  · rw [result] at answered
    cases answered
  · rw [result] at answered
    cases answered
    exact ⟨k', rfl, (shm 0 0 _ k' here result (by decide)).2⟩

/-- A program with a heap executes another one: the new program is told of a heap in
which nothing is mapped. -/
theorem stale_heap :
    Boot smallBoot ∧ ∃ k, run move (Kernel.start smallBoot)
        [.start onePage [], .act 0 (.brk 0x1001000), .act 0 (.exec onePage)] = some k ∧
      ¬Blank (booksOf (k.tasks 0)) ∧ (perform (.brk 0) (enter 0 k)).1 = .ok 0x1001000 ∧
      ¬Writable k 0 0x1000000 := by
  refine ⟨smallBoot_boot, ?_⟩
  have ends : (run move (Kernel.start smallBoot)
      [.start onePage [], .act 0 (.brk 0x1001000), .act 0 (.exec onePage)]).map (fun k =>
        decide (¬Blank (booksOf (k.tasks 0)) ∧
          (perform (.brk 0) (enter 0 k)).1.toOption = some (0x1001000 : Int) ∧
          leafAt k.paging.mem ((k.tasks 0).cr3 / 4096) (0x1000000 / 4096) = none)) = some true := by
    decide +kernel
  obtain ⟨k, ran, facts⟩ := Option.map_eq_some_iff.mp ends
  obtain ⟨stale, answer, absent⟩ := of_decide_eq_true facts
  refine ⟨k, ran, stale, ?_, ?_⟩
  · rcases result : (perform (.brk 0) (enter 0 k)).1 with e | v
    · rw [result] at answer
      cases answer
    · rw [result] at answer
      cases answer
      rfl
  · rintro ⟨e, mapped, -⟩
    rw [absent] at mapped
    cases mapped

end OxideOS.Sys
