import OxideOS.Lib.RefCount
import OxideOS.Mem.AddressSpaces
import Mathlib.Order.Interval.Finset.Nat

/-!
# Reference accounting of physical frames

`Accounting boot A shm extra fa` relates the counters of the frame allocator to
the address spaces: a table has one reference, a frame mapped by leaf entries has
at least as many references as there are entries and at most `extra` more, a
frame of a shared-memory segment (`shm`) has at least one, a writable private
entry is the only one of its frame, and `allocatedFrames` counts the frames in
use. With `extra` zero everywhere the counters are exact.

Each way the paging code changes counters and entries together has one lemma, from
`Accounting.allocate` to `Accounting.addShared`.
-/

set_option autoImplicit false

namespace OxideOS.Mem

open Lib PageTableFlags PageTableEntry Function PhysicalFrameAllocator

/-- The page tables of the kernel: what the upper half of its L4 leads to, level
by level. -/
inductive KernelTable (boot : Paging) : (level frame : Nat) → Prop
  | top {i : Nat} : 256 ≤ i → i < 512 →
      isPresent (boot.mem (boot.l4TablePhys / 4096) i) = true →
      KernelTable boot 3 (frameOf (boot.mem (boot.l4TablePhys / 4096) i))
  | down {level f i : Nat} : KernelTable boot (level + 2) f → i < 512 →
      isPresent (boot.mem f i) = true → isHuge (boot.mem f i) = false →
      KernelTable boot (level + 1) (frameOf (boot.mem f i))

/-- What the boot process leaves behind: the free frames lie above the first
32 MiB and have no references; the kernel's tables are not among them; the upper
half is closed to user mode and has no copy-on-write page. -/
structure Boot (boot : Paging) : Prop where
  pool_high : ∀ {f}, Pool boot f → 8192 ≤ f
  pool_refcount : ∀ {f}, Pool boot f → boot.frameAllocator.refcount f = 0
  counter : boot.frameAllocator.allocatedFrames ≤ 65536
  kernel_cr3 : boot.l4TablePhys &&& addrMask = boot.l4TablePhys
  kernel_l4 : ¬Pool boot (boot.l4TablePhys / 4096)
  kernel_table : ∀ {level f}, KernelTable boot level f → ¬Pool boot f
  kernel_private : ∀ {i}, 256 ≤ i → i < 512 →
    isUser (boot.mem (boot.l4TablePhys / 4096) i) = false
  kernel_leaf : ∀ {f i}, KernelTable boot 1 f → i < 512 → isPresent (boot.mem f i) = true →
    isCow (boot.mem f i) = false

/-! ## Counting leaf entries and frames in use -/

namespace AddressSpaces

/-- The root and page number of every user page. -/
def pages (A : AddressSpaces) : Finset (Nat × Nat) := A.roots ×ˢ Finset.range userPages

/-- The frame each user page is mapped to. -/
def frameAt (A : AddressSpaces) (page : Nat × Nat) : Option Nat :=
  (A.view page.1 page.2).map frameOf

/-- The number of leaf entries that map frame `f`. -/
def refs (A : AddressSpaces) (f : Nat) : Nat := references A.pages A.frameAt f

variable {A : AddressSpaces} {r v f e : Nat}

theorem mem_pages : (r, v) ∈ A.pages ↔ r ∈ A.roots ∧ v < userPages := by
  simp [pages]

theorem frameAt_setView (new : Option Nat) :
    (A.setView r v new).frameAt = update A.frameAt (r, v) (new.map frameOf) := by
  funext page
  obtain ⟨r', v'⟩ := page
  by_cases same : (r', v') = (r, v)
  · rw [same, update_self]
    simp [frameAt]
  · rw [update_of_ne same]
    have other : ¬(r' = r ∧ v' = v) := fun equal => same (Prod.ext equal.1 equal.2)
    simp [frameAt, setView_of_ne _ _ other]

/-- Changing one leaf entry moves one reference. -/
theorem refs_setView (member : r ∈ A.roots) (bound : v < userPages) (new : Option Nat) :
    (A.setView r v new).refs f + (if (A.view r v).map frameOf = some f then 1 else 0) =
      A.refs f + (if new.map frameOf = some f then 1 else 0) := by
  unfold refs
  rw [frameAt_setView]
  exact references_update (mem_pages.mpr ⟨member, bound⟩) (new.map frameOf)

end AddressSpaces

/-- The mark of a frame of the pool that has a reference. -/
def useMark (boot : Paging) (refcount : Nat → Nat) (f : Nat) : Option Unit :=
  if Pool boot f ∧ 0 < refcount f then some () else none

/-- The number of frames of the pool that have a reference. -/
def inUse (boot : Paging) (refcount : Nat → Nat) : Nat :=
  references (Finset.range 65536) (useMark boot refcount) ()

section InUse

variable {boot : Paging} {refcount : Nat → Nat} {f : Nat}

theorem useMark_eq_some (pool : Pool boot f) :
    useMark boot refcount f = some () ↔ 0 < refcount f := by
  simp [useMark, pool]

theorem useMark_update (pool : Pool boot f) (n : Nat) :
    useMark boot (update refcount f n) =
      update (useMark boot refcount) f (if 0 < n then some () else none) := by
  funext g
  by_cases equal : g = f
  · subst equal
    simp [useMark, pool]
  · simp [useMark, update_of_ne equal]

theorem inUse_update (pool : Pool boot f) (n : Nat) :
    inUse boot (update refcount f n) + (if 0 < refcount f then 1 else 0) =
      inUse boot refcount + (if 0 < n then 1 else 0) := by
  have moved : references (Finset.range 65536)
        (update (useMark boot refcount) f (if 0 < n then some () else none)) () +
        (if useMark boot refcount f = some () then 1 else 0) =
      inUse boot refcount + (if (if 0 < n then some () else none) = some () then 1 else 0) :=
    references_update (Finset.mem_range.mpr pool.lt) _
  rw [← useMark_update pool] at moved
  simp only [useMark_eq_some pool] at moved
  by_cases positive : 0 < n
  · simpa [inUse, positive] using moved
  · simpa [inUse, positive] using moved

theorem inUse_le (boot : Paging) (refcount : Nat → Nat) : inUse boot refcount ≤ 65536 := by
  have bound :=
    Finset.card_filter_le (Finset.range 65536) fun f => useMark boot refcount f = some ()
  rwa [Finset.card_range] at bound

theorem inUse_pos (pool : Pool boot f) (positive : 0 < refcount f) : 0 < inUse boot refcount :=
  references_pos (Finset.mem_range.mpr pool.lt) ((useMark_eq_some pool).mpr positive)

end InUse

/-! ## The allocator's own books -/

/-- The bitmap marks exactly the frames of the pool that have a reference, the
other frames are as at boot, and `allocatedFrames` counts the frames in use. -/
structure Ledger (boot : Paging) (fa : PhysicalFrameAllocator) : Prop where
  used : ∀ {f}, Pool boot f → (fa.bitmap f = true ↔ 0 < fa.refcount f)
  kernel : ∀ {f}, ¬Pool boot f → fa.bitmap f = boot.frameAllocator.bitmap f ∧
    fa.refcount f = boot.frameAllocator.refcount f
  count : fa.allocatedFrames = boot.frameAllocator.allocatedFrames + inUse boot fa.refcount

namespace Ledger

variable {boot : Paging} {fa fa' : PhysicalFrameAllocator} {f : Nat}

/-- A frame the allocator considers free belongs to the pool and has no
reference. -/
theorem free_frame (books : Ledger boot fa) (bound : f < 65536) (free : fa.bitmap f = false) :
    Pool boot f ∧ fa.refcount f = 0 := by
  have pool : Pool boot f := by
    by_contra outside
    refine outside (isFree_iff.mpr ⟨bound, ?_⟩)
    rw [← (books.kernel outside).1]
    exact free
  refine ⟨pool, ?_⟩
  by_contra positive
  have used := (books.used pool).mpr (Nat.pos_of_ne_zero positive)
  rw [free] at used
  cases used

/-- A change of the counter of one frame of the pool, with the bitmap and the
number of allocated frames changed to match. -/
theorem update (books : Ledger boot fa) (pool : Pool boot f) {n : Nat}
    (refcount : fa'.refcount = Function.update fa.refcount f n)
    (bitmapSelf : fa'.bitmap f = true ↔ 0 < n)
    (bitmapOther : ∀ g, g ≠ f → fa'.bitmap g = fa.bitmap g)
    (counter : fa'.allocatedFrames + (if 0 < fa.refcount f then 1 else 0) =
      fa.allocatedFrames + (if 0 < n then 1 else 0)) : Ledger boot fa' := by
  refine { used := ?_, kernel := ?_, count := ?_ }
  · intro g poolG
    by_cases same : g = f
    · subst same
      rw [refcount, Function.update_self]
      exact bitmapSelf
    · rw [refcount, Function.update_of_ne same, bitmapOther g same]
      exact books.used poolG
  · intro g outside
    have different : g ≠ f := by
      rintro rfl
      exact outside pool
    rw [refcount, Function.update_of_ne different, bitmapOther g different]
    exact books.kernel outside
  · have moved : inUse boot (Function.update fa.refcount f n) +
        (if 0 < fa.refcount f then 1 else 0) =
        inUse boot fa.refcount + (if 0 < n then 1 else 0) := inUse_update pool n
    rw [← refcount] at moved
    have before := books.count
    omega

theorem allocate (start : Boot boot) (books : Ledger boot fa) {a : Nat}
    (allocated : fa.allocateFrame = some (a, fa')) : Ledger boot fa' := by
  obtain ⟨f, -, bound, free, bitmap, refcount, -, counter⟩ :=
    allocateFrame_some allocated
  obtain ⟨pool, zero⟩ := books.free_frame bound free
  refine books.update pool refcount ?_ ?_ ?_
  · simp [bitmap]
  · intro g different
    rw [bitmap, Function.update_of_ne different]
  · have bounded := inUse_le boot fa.refcount
    have small := start.counter
    have before := books.count
    rw [counter, zero, Nat.mod_eq_of_lt (by omega)]
    simp

/-- Dropping a reference that exists keeps the books. -/
theorem freeFrame (books : Ledger boot fa) (start : Boot boot) (pool : Pool boot f)
    (positive : 0 < fa.refcount f) : Ledger boot (fa.freeFrame (f * 4096)) := by
  have used := (books.used pool).mpr positive
  refine books.update pool (freeFrame_refcount pool.lt) ?_ ?_ ?_
  · rw [freeFrame_bitmap pool.lt]
    split
    · next last =>
        rw [Function.update_self]
        simp only [Bool.false_eq_true, false_iff]
        omega
    · next shared =>
        rw [used]
        simp only [true_iff]
        omega
  · intro g different
    rw [freeFrame_bitmap pool.lt]
    split
    · rw [Function.update_of_ne different]
    · rfl
  · have some_in_use := inUse_pos pool positive
    have bounded := inUse_le boot fa.refcount
    have small := start.counter
    have before := books.count
    rw [freeFrame_allocatedFrames pool.lt, if_pos positive]
    split
    · next last =>
        rw [if_neg (by omega)]
        omega
    · next shared => rw [if_pos (by omega)]

theorem incRefcount (books : Ledger boot fa) (pool : Pool boot f)
    (positive : 0 < fa.refcount f) : Ledger boot (fa.incRefcount (f * 4096)) := by
  have used := (books.used pool).mpr positive
  have more : 0 < min (fa.refcount f + 1) 65535 := by omega
  refine books.update pool (incRefcount_refcount pool.lt) ?_ ?_ ?_
  · rw [incRefcount_bitmap]
    exact ⟨fun _ => more, fun _ => used⟩
  · intro g _
    rw [incRefcount_bitmap]
  · rw [incRefcount_allocatedFrames, if_pos positive, if_pos more]

end Ledger

/-! ## The accounting relation -/

/-- The allocator's counters account for the address spaces `A`. -/
structure Accounting (boot : Paging) (A : AddressSpaces) (shm : Set Nat) (extra : Nat → Nat)
    (fa : PhysicalFrameAllocator) : Prop extends Ledger boot fa where
  table : ∀ {f n}, A.own f = some n → Pool boot f ∧ fa.refcount f = 1
  leaf : ∀ {r v e}, A.view r v = some e → Pool boot (frameOf e) ∧ A.own (frameOf e) = none
  bound : ∀ {r v e}, A.view r v = some e → r ∈ A.roots ∧ v < userPages
  refs_le : ∀ {f}, Pool boot f → f ∉ shm → A.own f = none → A.refs f ≤ fa.refcount f
  le_refs : ∀ {f}, Pool boot f → f ∉ shm → A.own f = none →
    fa.refcount f ≤ A.refs f + extra f
  shared : ∀ {f}, f ∈ shm → Pool boot f ∧ A.own f = none ∧ 0 < fa.refcount f
  clean : ∀ {r v e}, A.view r v = some e → isWritable e = true → isCow e = false
  writable : ∀ {r v e}, A.view r v = some e → isWritable e = true → frameOf e ∉ shm →
    fa.refcount (frameOf e) = 1
  home : ∀ {r v e r' v' e'}, A.view r v = some e → A.view r' v' = some e' →
    frameOf e = frameOf e' → frameOf e ∉ shm → v = v'

namespace Accounting

variable {boot : Paging} {A : AddressSpaces} {shm : Set Nat} {extra : Nat → Nat}
variable {fa fa' : PhysicalFrameAllocator}

open AddressSpaces

/-- The slack may be overestimated. -/
theorem mono (acc : Accounting boot A shm extra fa) {extra' : Nat → Nat}
    (more : ∀ f, extra f ≤ extra' f) : Accounting boot A shm extra' fa :=
  { acc with
    le_refs := fun pool plain data =>
      Nat.le_trans (acc.le_refs pool plain data) (Nat.add_le_add_left (more _) _) }

variable {r v e f e' : Nat}

/-- A mapped page is counted. -/
theorem refs_pos (acc : Accounting boot A shm extra fa)
    (mapped : A.view r v = some e) : 0 < A.refs (frameOf e) :=
  references_pos (mem_pages.mpr (acc.bound mapped))
    (by simp [frameAt, mapped])

/-- A frame no page is mapped to is not counted. -/
theorem refs_eq_zero (unmapped : ∀ {r v e}, A.view r v = some e → frameOf e ≠ f) :
    A.refs f = 0 := by
  refine references_eq_zero_iff.mpr fun page _ points => ?_
  obtain ⟨e, mapped, frame⟩ := Option.map_eq_some_iff.mp points
  exact unmapped mapped frame

/-- A private frame that is mapped writable has no other entry. -/
theorem sole_entry (acc : Accounting boot A shm extra fa) {r' v' : Nat}
    (mapped : A.view r v = some e) (mapped' : A.view r' v' = some e')
    (frame : frameOf e = frameOf e') (plain : frameOf e ∉ shm)
    (single : fa.refcount (frameOf e) = 1) : r = r' ∧ v = v' := by
  obtain ⟨pool, data⟩ := acc.leaf mapped
  have few : A.refs (frameOf e) ≤ 1 := single ▸ acc.refs_le pool plain data
  have same := eq_of_references_le_one few
    (mem_pages.mpr (acc.bound mapped)) (by simp [frameAt, mapped])
    (mem_pages.mpr (acc.bound mapped'))
    (by simp [frameAt, mapped', frame])
  exact Prod.mk.inj same

/-- A frame the allocator considers free belongs to the pool and to nobody. -/
theorem unowned (acc : Accounting boot A shm extra fa) (bound : f < 65536)
    (free : fa.bitmap f = false) :
    Pool boot f ∧ A.own f = none ∧ f ∉ shm ∧
      ∀ {r v e}, A.view r v = some e → frameOf e ≠ f := by
  obtain ⟨pool, zero⟩ := acc.free_frame bound free
  have data : A.own f = none := by
    by_contra owned
    obtain ⟨n, owned⟩ := Option.ne_none_iff_exists'.mp owned
    have one := (acc.table owned).2
    omega
  have plain : f ∉ shm := by
    intro member
    have positive := (acc.shared member).2.2
    omega
  refine ⟨pool, data, plain, ?_⟩
  rintro r v e mapped rfl
  have counted := acc.refs_pos mapped
  have bounded := acc.refs_le pool plain data
  omega

/-- A frame that has just been allocated and is not used for anything yet. -/
structure Pending (boot : Paging) (A : AddressSpaces) (shm : Set Nat)
    (fa : PhysicalFrameAllocator) (f : Nat) : Prop where
  pool : Pool boot f
  data : A.own f = none
  plain : f ∉ shm
  one : fa.refcount f = 1
  unmapped : ∀ {r v e}, A.view r v = some e → frameOf e ≠ f

/-- Allocation takes a frame nobody uses; it is pending afterwards. -/
theorem allocate (start : Boot boot) (acc : Accounting boot A shm extra fa) {a : Nat}
    (allocated : fa.allocateFrame = some (a, fa')) :
    ∃ f, a = f * 4096 ∧ fa.bitmap f = false ∧
      (∀ g, g ≠ f → fa'.refcount g = fa.refcount g ∧ fa'.bitmap g = fa.bitmap g) ∧
      Pending boot A shm fa' f ∧
      Accounting boot A shm (update extra f 1) fa' := by
  have books := acc.toLedger.allocate start allocated
  obtain ⟨f, rfl, bound, free, bitmap, refcount, -, -⟩ :=
    allocateFrame_some allocated
  obtain ⟨pool, data, plain, unmapped⟩ := acc.unowned bound free
  have one : fa'.refcount f = 1 := by rw [refcount, update_self]
  have other : ∀ g, g ≠ f → fa'.refcount g = fa.refcount g ∧ fa'.bitmap g = fa.bitmap g := by
    intro g different
    rw [refcount, bitmap, update_of_ne different, update_of_ne different]
    exact ⟨rfl, rfl⟩
  refine ⟨f, rfl, free, other, ⟨pool, data, plain, one, unmapped⟩, ?_⟩
  refine
    { books with
      table := ?_, leaf := acc.leaf, bound := acc.bound, refs_le := ?_, le_refs := ?_,
      shared := ?_, clean := acc.clean, writable := ?_, home := acc.home }
  · intro g n owned
    rw [(other g (ne_of_own owned data)).1]
    exact acc.table owned
  · intro g poolG plainG dataG
    by_cases same : g = f
    · subst same
      rw [refs_eq_zero unmapped]
      exact Nat.zero_le _
    · rw [(other g same).1]
      exact acc.refs_le poolG plainG dataG
  · intro g poolG plainG dataG
    by_cases same : g = f
    · subst same
      rw [one, update_self]
      omega
    · rw [(other g same).1, update_of_ne same]
      exact acc.le_refs poolG plainG dataG
  · intro g member
    have different : g ≠ f := by
      rintro rfl
      exact plain member
    rw [(other g different).1]
    exact acc.shared member
  · intro r v e mapped writable plainE
    rw [(other _ (unmapped mapped)).1]
    exact acc.writable mapped writable plainE

/-! ## Tables -/

/-- The count of leaf entries depends on the entries only. -/
theorem refs_of_view {A' : AddressSpaces} (view : A'.view = A.view)
    (sub : A.roots ⊆ A'.roots) (bound : ∀ {r v e}, A.view r v = some e → r ∈ A.roots) :
    A'.refs f = A.refs f := by
  have frames : A'.frameAt = A.frameAt := by
    funext page
    rw [frameAt, frameAt, view]
  unfold refs
  rw [frames]
  refine references_subset (Finset.product_subset_product_left sub) ?_
  rintro ⟨r, v⟩ member absent
  rw [frameAt, Option.map_eq_none_iff]
  by_contra mapped
  obtain ⟨e, mapped⟩ := Option.ne_none_iff_exists'.mp mapped
  have inside := (mem_pages.mp member).2
  exact absent (mem_pages.mpr ⟨bound mapped, inside⟩)

/-- A pending frame becomes a table, perhaps the L4 of a new address space. -/
theorem makeTable (acc : Accounting boot A shm (update extra f 1) fa)
    (pending : Pending boot A shm fa f) (n : Node) {R : Finset Nat} (sub : A.roots ⊆ R) :
    Accounting boot { A.setOwn f (some n) with roots := R } shm extra fa := by
  have refs : ∀ g, AddressSpaces.refs { A.setOwn f (some n) with roots := R } g = A.refs g :=
    fun g => refs_of_view rfl sub fun mapped => (acc.bound mapped).1
  have old : ∀ {g}, (A.setOwn f (some n)).own g = none → g ≠ f ∧ A.own g = none := by
    intro g data
    by_cases same : g = f
    · subst same
      rw [setOwn_self] at data
      cases data
    · rw [setOwn_of_ne _ _ same] at data
      exact ⟨same, data⟩
  refine
    { acc.toLedger with
      table := ?_, leaf := ?_, bound := ?_, refs_le := ?_, le_refs := ?_, shared := ?_,
      clean := acc.clean, writable := acc.writable, home := acc.home }
  · intro g n' owned
    rcases setOwn_cases owned with ⟨rfl, -⟩ | ⟨-, owned⟩
    · exact ⟨pending.pool, pending.one⟩
    · exact acc.table owned
  · intro r v e mapped
    obtain ⟨pool, data⟩ := acc.leaf mapped
    exact ⟨pool, (setOwn_of_ne _ _ (pending.unmapped mapped)).trans data⟩
  · intro r v e mapped
    exact ⟨sub (acc.bound mapped).1, (acc.bound mapped).2⟩
  · intro g pool plain data
    rw [refs]
    exact acc.refs_le pool plain (old data).2
  · intro g pool plain data
    have bounded := acc.le_refs pool plain (old data).2
    rw [update_of_ne (old data).1] at bounded
    rw [refs]
    exact bounded
  · intro g member
    obtain ⟨pool, data, positive⟩ := acc.shared member
    have different : g ≠ f := by
      rintro rfl
      exact pending.plain member
    exact ⟨pool, (setOwn_of_ne _ _ different).trans data, positive⟩

/-- A table is given back, perhaps as the L4 of an address space without mapped
pages. -/
theorem freeTable (start : Boot boot) (acc : Accounting boot A shm extra fa) {n : Node}
    (owned : A.own f = some n) {R : Finset Nat} (sub : R ⊆ A.roots)
    (keeps : ∀ {r v e}, A.view r v = some e → r ∈ R) :
    Accounting boot { A.setOwn f none with roots := R } shm extra (fa.freeFrame (f * 4096)) := by
  obtain ⟨pool, one⟩ := acc.table owned
  have refcount : (fa.freeFrame (f * 4096)).refcount =
      update fa.refcount f (fa.refcount f - 1) :=
    freeFrame_refcount pool.lt
  have refs : ∀ g, AddressSpaces.refs { A.setOwn f none with roots := R } g = A.refs g :=
    fun g => Eq.symm (refs_of_view rfl sub keeps)
  have unmapped : ∀ {r v e}, A.view r v = some e → frameOf e ≠ f :=
    fun mapped => Ne.symm (ne_of_own owned (acc.leaf mapped).2)
  have old : ∀ {g}, g ≠ f → (A.setOwn f none).own g = none → A.own g = none :=
    fun different data => (setOwn_of_ne _ _ different).symm.trans data
  refine
    { acc.toLedger.freeFrame start pool (by omega) with
      table := ?_, leaf := ?_, bound := ?_, refs_le := ?_, le_refs := ?_, shared := ?_,
      clean := acc.clean, writable := ?_, home := acc.home }
  · intro g n' here
    obtain ⟨same, here⟩ := setOwn_none here
    rw [refcount, update_of_ne same]
    exact acc.table here
  · intro r v e mapped
    obtain ⟨poolE, data⟩ := acc.leaf mapped
    exact ⟨poolE, (setOwn_of_ne _ _ (unmapped mapped)).trans data⟩
  · intro r v e mapped
    exact ⟨keeps mapped, (acc.bound mapped).2⟩
  · intro g poolG plain data
    rw [refs]
    by_cases same : g = f
    · subst same
      rw [refs_eq_zero unmapped]
      exact Nat.zero_le _
    · rw [refcount, update_of_ne same]
      exact acc.refs_le poolG plain (old same data)
  · intro g poolG plain data
    rw [refs]
    by_cases same : g = f
    · subst same
      rw [refcount, update_self, one]
      omega
    · rw [refcount, update_of_ne same]
      exact acc.le_refs poolG plain (old same data)
  · intro g member
    obtain ⟨poolG, data, positive⟩ := acc.shared member
    have different : g ≠ f := Ne.symm (ne_of_own owned data)
    rw [refcount, update_of_ne different]
    exact ⟨poolG, (setOwn_of_ne _ _ different).trans data, positive⟩
  · intro r v e mapped writable plain
    rw [refcount, update_of_ne (unmapped mapped)]
    exact acc.writable mapped writable plain

/-! ## Leaf entries -/

/-- One entry changes, and the counters with it. What is said of all entries has to be said
of the new one, and of the counters again. -/
theorem setEntry (acc : Accounting boot A shm extra fa) {extra' : Nat → Nat}
    {new : Option Nat} (books : Ledger boot fa') (member : r ∈ A.roots) (inside : v < userPages)
    (table : ∀ {g n}, A.own g = some n → fa'.refcount g = fa.refcount g)
    (shared : ∀ {g}, g ∈ shm → 0 < fa'.refcount g)
    (counts : ∀ {g}, Pool boot g → g ∉ shm → A.own g = none →
      (A.setView r v new).refs g ≤ fa'.refcount g ∧
        fa'.refcount g ≤ (A.setView r v new).refs g + extra' g)
    (leaf : ∀ {e}, new = some e → Pool boot (frameOf e) ∧ A.own (frameOf e) = none)
    (clean : ∀ {e}, new = some e → isWritable e = true → isCow e = false)
    (writable : ∀ {e}, new = some e → isWritable e = true → frameOf e ∉ shm →
      fa'.refcount (frameOf e) = 1)
    (kept : ∀ {r' v' e}, ¬(r' = r ∧ v' = v) → A.view r' v' = some e → isWritable e = true →
      frameOf e ∉ shm → fa'.refcount (frameOf e) = fa.refcount (frameOf e))
    (home : ∀ {e r' v' e'}, new = some e → A.view r' v' = some e' → frameOf e = frameOf e' →
      frameOf e ∉ shm → v = v') :
    Accounting boot (A.setView r v new) shm extra' fa' where
  toLedger := books
  table owned := by
    rw [table owned]
    exact acc.table owned
  leaf mapped := by
    rcases view_setView_cases mapped with ⟨-, -, here⟩ | ⟨-, old⟩
    · exact leaf here
    · exact acc.leaf old
  bound mapped := by
    rcases view_setView_cases mapped with ⟨rfl, rfl, -⟩ | ⟨-, old⟩
    · exact ⟨member, inside⟩
    · exact acc.bound old
  refs_le pool plain data := (counts pool plain data).1
  le_refs pool plain data := (counts pool plain data).2
  shared member := ⟨(acc.shared member).1, (acc.shared member).2.1, shared member⟩
  clean mapped := by
    rcases view_setView_cases mapped with ⟨-, -, here⟩ | ⟨-, old⟩
    · exact clean here
    · exact acc.clean old
  writable mapped may plain := by
    rcases view_setView_cases mapped with ⟨-, -, here⟩ | ⟨other, old⟩
    · exact writable here may plain
    · rw [kept other old may plain]
      exact acc.writable old may plain
  home mapped₁ mapped₂ same plain := by
    rcases view_setView_cases mapped₁ with ⟨-, rfl, here₁⟩ | ⟨-, old₁⟩
    · rcases view_setView_cases mapped₂ with ⟨-, rfl, -⟩ | ⟨-, old₂⟩
      · rfl
      · exact home here₁ old₂ same plain
    · rcases view_setView_cases mapped₂ with ⟨-, rfl, here₂⟩ | ⟨-, old₂⟩
      · exact (home here₂ old₁ same.symm (same ▸ plain)).symm
      · exact acc.home old₁ old₂ same plain

/-- A pending frame is mapped at an unmapped page. -/
theorem mapFresh {d : Nat} (acc : Accounting boot A shm (update extra d 1) fa)
    (pending : Pending boot A shm fa d) (member : r ∈ A.roots)
    (bound : v < userPages) (absent : A.view r v = none) (frame : frameOf e = d)
    (clean : isWritable e = true → isCow e = false) :
    Accounting boot (A.setView r v (some e)) shm extra fa := by
  refine acc.setEntry acc.toLedger member bound (fun _ => rfl)
    (fun inside => (acc.shared inside).2.2)
    ?_ ?_ ?_ ?_ (fun _ _ _ _ => rfl) ?_
  · intro g pool plain data
    have moved := @refs_setView A r v g member bound (some e)
    have few := acc.refs_le pool plain data
    have bounded := acc.le_refs pool plain data
    rw [absent, Option.map_none, Option.map_some, frame, if_neg (by simp)] at moved
    by_cases same : d = g
    · subst same
      rw [refs_eq_zero pending.unmapped, if_pos rfl] at moved
      rw [pending.one]
      omega
    · rw [if_neg (by simpa using same)] at moved
      rw [update_of_ne (Ne.symm same)] at bounded
      omega
  · rintro _ ⟨⟩
    exact frame ▸ ⟨pending.pool, pending.data⟩
  · rintro _ ⟨⟩
    exact clean
  · rintro _ ⟨⟩ - -
    exact frame ▸ pending.one
  · rintro _ r' v' e' ⟨⟩ old same -
    exact absurd (same.symm.trans frame) (pending.unmapped old)

/-- A leaf entry is cleared and its reference dropped. The entry may map a
shared-memory frame only if another reference remains. -/
theorem unmapLeaf (start : Boot boot) (acc : Accounting boot A shm extra fa)
    (mapped : A.view r v = some e) (remains : frameOf e ∈ shm → 1 < fa.refcount (frameOf e)) :
    Accounting boot (A.setView r v none) shm extra (fa.freeFrame (frameOf e * 4096)) := by
  obtain ⟨pool, data⟩ := acc.leaf mapped
  obtain ⟨member, bound⟩ := acc.bound mapped
  have refcount : (fa.freeFrame (frameOf e * 4096)).refcount =
      update fa.refcount (frameOf e) (fa.refcount (frameOf e) - 1) :=
    freeFrame_refcount pool.lt
  have positive : 0 < fa.refcount (frameOf e) := by
    by_cases plain : frameOf e ∈ shm
    · exact (acc.shared plain).2.2
    · exact Nat.lt_of_lt_of_le (acc.refs_pos mapped) (acc.refs_le pool plain data)
  refine acc.setEntry (acc.toLedger.freeFrame start pool positive) member bound ?_ ?_ ?_
    (fun gone => by cases gone) (fun gone => by cases gone) (fun gone => by cases gone) ?_
    (fun gone => by cases gone)
  · intro g n owned
    rw [refcount, update_of_ne (ne_of_own owned data)]
  · intro g memberG
    have positiveG := (acc.shared memberG).2.2
    by_cases same : g = frameOf e
    · subst same
      have left := remains memberG
      rw [refcount, update_self]
      omega
    · rw [refcount, update_of_ne same]
      exact positiveG
  · intro g poolG plain dataG
    have few := acc.refs_le poolG plain dataG
    have bounded := acc.le_refs poolG plain dataG
    have moved := @refs_setView A r v g member bound none
    simp only [mapped, Option.map_some, Option.some.injEq, Option.map_none, reduceCtorEq,
      if_false] at moved
    by_cases same : frameOf e = g
    · subst same
      rw [if_pos rfl] at moved
      rw [refcount, update_self]
      omega
    · rw [if_neg same] at moved
      rw [refcount, update_of_ne (Ne.symm same)]
      omega
  · intro r' v' e' other old writable plain
    have one := acc.writable old writable plain
    have different : frameOf e' ≠ frameOf e :=
      fun same => other (acc.sole_entry old mapped same plain one)
    rw [refcount, update_of_ne different]

/-- The flags of a leaf entry change. Write access to a private frame is granted
to a sole owner only. -/
theorem setFlags (acc : Accounting boot A shm extra fa)
    (mapped : A.view r v = some e) (frame : frameOf e' = frameOf e)
    (clean : isWritable e' = true → isCow e' = false)
    (granted : isWritable e' = true → frameOf e ∉ shm → fa.refcount (frameOf e) = 1) :
    Accounting boot (A.setView r v (some e')) shm extra fa := by
  obtain ⟨member, bound⟩ := acc.bound mapped
  refine acc.setEntry acc.toLedger member bound (fun _ => rfl)
    (fun inside => (acc.shared inside).2.2)
    ?_ ?_ ?_ ?_ (fun _ _ _ _ => rfl) ?_
  · intro g pool plain data
    have moved := @refs_setView A r v g member bound (some e')
    rw [mapped, Option.map_some, Option.map_some, frame] at moved
    rw [Nat.add_right_cancel moved]
    exact ⟨acc.refs_le pool plain data, acc.le_refs pool plain data⟩
  · rintro _ ⟨⟩
    rw [frame]
    exact acc.leaf mapped
  · rintro _ ⟨⟩
    exact clean
  · rintro _ ⟨⟩
    rw [frame]
    exact granted
  · rintro _ r' v' e'' ⟨⟩ old
    rw [frame]
    exact acc.home mapped old

/-- A read-only private frame is mapped a second time, at the same page of
another address space, with one more reference. -/
theorem shareLeaf (acc : Accounting boot A shm extra fa) (few : A.roots.card < 65535)
    {src dst : Nat} (mapped : A.view src v = some e) (plain : frameOf e ∉ shm)
    (readonly : isWritable e = false) (absent : A.view dst v = none) (member : dst ∈ A.roots)
    (frame : frameOf e' = frameOf e) (readonly' : isWritable e' = false) :
    Accounting boot (A.setView dst v (some e')) shm extra (fa.incRefcount (frameOf e * 4096)) := by
  obtain ⟨pool, data⟩ := acc.leaf mapped
  obtain ⟨-, bound⟩ := acc.bound mapped
  have refcount : (fa.incRefcount (frameOf e * 4096)).refcount =
      update fa.refcount (frameOf e) (min (fa.refcount (frameOf e) + 1) 65535) :=
    incRefcount_refcount pool.lt
  have counted := acc.refs_le pool plain data
  have positive := acc.refs_pos mapped
  have moved : ∀ g, (A.setView dst v (some e')).refs g =
      A.refs g + (if frameOf e = g then 1 else 0) := by
    intro g
    have := @refs_setView A dst v g member bound (some e')
    simpa [absent, frame] using this
  have sharers : A.refs (frameOf e) + 1 ≤ 65535 := by
    have once : (A.setView dst v (some e')).refs (frameOf e) ≤ A.roots.card := by
      refine references_le_card_left ?_
      have page : ∀ {r' v' e₁}, (A.setView dst v (some e')).view r' v' = some e₁ →
          frameOf e₁ = frameOf e → v' = v := by
        intro r' v' e₁ here same
        rcases view_setView_cases here with ⟨-, rfl, -⟩ | ⟨-, old⟩
        · rfl
        · exact (acc.home mapped old same.symm plain).symm
      intro page₁ page₂ points₁ points₂
      obtain ⟨e₁, mapped₁, frame₁⟩ := Option.map_eq_some_iff.mp points₁
      obtain ⟨e₂, mapped₂, frame₂⟩ := Option.map_eq_some_iff.mp points₂
      exact (page mapped₁ frame₁).trans (page mapped₂ frame₂).symm
    rw [moved, if_pos rfl] at once
    omega
  refine acc.setEntry (acc.toLedger.incRefcount pool (by omega)) member bound ?_ ?_ ?_
    ?_ ?_ ?_ ?_ ?_
  · intro g n owned
    rw [refcount, update_of_ne (ne_of_own owned data)]
  · intro g memberG
    have different : g ≠ frameOf e := by
      rintro rfl
      exact plain memberG
    rw [refcount, update_of_ne different]
    exact (acc.shared memberG).2.2
  · intro g poolG plainG dataG
    have few := acc.refs_le poolG plainG dataG
    have bounded := acc.le_refs poolG plainG dataG
    rw [moved]
    by_cases same : frameOf e = g
    · subst same
      rw [if_pos rfl, refcount, update_self]
      omega
    · rw [if_neg same, refcount, update_of_ne (Ne.symm same)]
      omega
  · rintro _ ⟨⟩
    rw [frame]
    exact ⟨pool, data⟩
  · rintro _ ⟨⟩ writable
    rw [readonly'] at writable
    cases writable
  · rintro _ ⟨⟩ writable
    rw [readonly'] at writable
    cases writable
  · rintro r' v' e₁ - old writable plain₁
    have different : frameOf e₁ ≠ frameOf e := by
      intro same
      obtain ⟨rfl, rfl⟩ := acc.sole_entry old mapped same plain₁ (acc.writable old writable plain₁)
      rw [mapped] at old
      cases old
      rw [readonly] at writable
      cases writable
    rw [refcount, update_of_ne different]
  · rintro _ r' v' e'' ⟨⟩ old
    rw [frame]
    exact acc.home mapped old

/-! ## Shared memory -/

/-- A page is mapped to a shared-memory frame, without a reference of its own.
What was mapped there before loses its entry but not its reference. -/
theorem mapShared (acc : Accounting boot A shm extra fa) (member : r ∈ A.roots)
    (bound : v < userPages) (shared : frameOf e ∈ shm)
    (clean : isWritable e = true → isCow e = false) :
    Accounting boot (A.setView r v (some e)) shm
      (fun g => extra g + if (A.view r v).map frameOf = some g then 1 else 0) fa := by
  refine acc.setEntry acc.toLedger member bound (fun _ => rfl)
    (fun inside => (acc.shared inside).2.2)
    ?_ ?_ ?_ ?_ (fun _ _ _ _ => rfl) ?_
  · intro g pool plain data
    have moved := @refs_setView A r v g member bound (some e)
    have different : ¬frameOf e = g := by
      rintro rfl
      exact plain shared
    have few := acc.refs_le pool plain data
    have bounded := acc.le_refs pool plain data
    simp only [Option.map_some, Option.some.injEq, different, if_false] at moved
    omega
  · rintro _ ⟨⟩
    exact ⟨(acc.shared shared).1, (acc.shared shared).2.1⟩
  · rintro _ ⟨⟩
    exact clean
  · rintro _ ⟨⟩ - plain
    exact absurd shared plain
  · rintro _ r' v' e' ⟨⟩ - - plain
    exact absurd shared plain

/-- A shared-memory frame gets one more reference. -/
theorem incShared (acc : Accounting boot A shm extra fa) (member : f ∈ shm) :
    Accounting boot A shm extra (fa.incRefcount (f * 4096)) := by
  obtain ⟨pool, data, positive⟩ := acc.shared member
  have refcount : (fa.incRefcount (f * 4096)).refcount =
      update fa.refcount f (min (fa.refcount f + 1) 65535) :=
    incRefcount_refcount pool.lt
  have other : ∀ {g}, g ∉ shm → (fa.incRefcount (f * 4096)).refcount g = fa.refcount g := by
    intro g plain
    rw [refcount, update_of_ne]
    rintro rfl
    exact plain member
  refine
    { acc with
      toLedger := acc.toLedger.incRefcount pool positive
      table := ?_, refs_le := ?_, le_refs := ?_, shared := ?_, writable := ?_ }
  · intro g n owned
    rw [refcount, update_of_ne (ne_of_own owned data)]
    exact acc.table owned
  · intro g poolG plain dataG
    rw [other plain]
    exact acc.refs_le poolG plain dataG
  · intro g poolG plain dataG
    rw [other plain]
    exact acc.le_refs poolG plain dataG
  · intro g memberG
    obtain ⟨poolG, dataG, positiveG⟩ := acc.shared memberG
    refine ⟨poolG, dataG, ?_⟩
    by_cases same : g = f
    · subst same
      rw [refcount, update_self]
      omega
    · rw [refcount, update_of_ne same]
      exact positiveG
  · intro r v e mapped writable plain
    rw [other plain]
    exact acc.writable mapped writable plain

/-- A frame with a reference that is no table becomes part of a segment. -/
theorem addShared (acc : Accounting boot A shm extra fa) {d : Nat} (pool : Pool boot d)
    (data : A.own d = none) (positive : 0 < fa.refcount d) :
    Accounting boot A (insert d shm) extra fa := by
  have old : ∀ {g}, g ∉ insert d shm → g ∉ shm :=
    fun plain member => plain (Set.mem_insert_of_mem d member)
  refine
    { acc with
      refs_le := fun poolG plain dataG => acc.refs_le poolG (old plain) dataG
      le_refs := fun poolG plain dataG => acc.le_refs poolG (old plain) dataG
      shared := ?_
      writable := fun mapped writable plain => acc.writable mapped writable (old plain)
      home := fun mapped mapped' same plain => acc.home mapped mapped' same (old plain) }
  intro g member
  rcases Set.mem_insert_iff.mp member with rfl | member
  · exact ⟨pool, data, positive⟩
  · exact acc.shared member

end Accounting

end OxideOS.Mem
