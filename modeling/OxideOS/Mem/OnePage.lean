import OxideOS.Lib.Radix
import OxideOS.Mem.Mapping

/-!
# Mapping one page

`map` and `unmap` on any tree of page tables without huge pages in which no two entries
lead to one table and no free frame is a table (`Tree`). On the way down `map` widens the
flags of the entries it passes and builds the tables that are missing; both leave all
leaves as they are (`nextTable_tree`). The leaf that it sets in the end is the one of its
own page, and `unmap` takes that one away again (`map_one_page`).
-/

set_option autoImplicit false

namespace OxideOS.Mem

open Lib PageTableFlags PageTableEntry Function PhysicalFrameAllocator
open Prog hiding update

/-! ## Trees of page tables -/

/-- The frame of the table that an entry leads to. -/
def child (e : Nat) : Option Nat := if isPresent e then some (frameOf e) else none

/-- The paths to tables: at most three indices, each below 512. -/
def tablePaths : PathSet Nat where
  Mem path := path.length ≤ 3 ∧ ∀ i ∈ path, i < 512
  closed before after := by
    rintro ⟨short, small⟩
    rw [List.length_append] at short
    exact ⟨by omega, fun i member => small i (List.mem_append_left after member)⟩

/-- An address whose upper bits repeat bit 47. -/
def Canonical (v : Nat) : Prop := v < 2 ^ 47 ∨ 2 ^ 64 - 2 ^ 47 ≤ v ∧ v < 2 ^ 64

namespace Paging

/-- The table that a path leads to from the L4 table in frame `r`. -/
def table (p : Paging) (r : Nat) (path : List Nat) : Option Nat :=
  nodeAt child p.mem r path

/-- The leaf entry behind a path, if it is present. -/
def leaf (p : Paging) (r : Nat) (path : List Nat) (i : Nat) : Option Nat :=
  (p.table r path).bind fun t => if isPresent (p.mem t i) then some (p.mem t i) else none

/-- The translation of an address by the processor, with the flags of the leaf. -/
def translation (p : Paging) (l4 virt : Nat) : Option (Nat × Nat) :=
  let l4e := p.read l4 (l4Index virt)
  if !isPresent l4e then none else
  let l3e := p.read (addr l4e) (l3Index virt)
  if !isPresent l3e then none else
  if isHuge l3e then some ((l3e &&& 0x000FFFFFC0000000) + virt % 2 ^ 30, flags l3e) else
  let l2e := p.read (addr l3e) (l2Index virt)
  if !isPresent l2e then none else
  if isHuge l2e then some ((l2e &&& 0x000FFFFFFFE00000) + virt % 2 ^ 21, flags l2e) else
  let l1e := p.read (addr l2e) (l1Index virt)
  if !isPresent l1e then none else some (addr l1e + virt % 4096, flags l1e)

/-- No entry of an L3 or L2 table is a huge page. -/
def NoHuge (p : Paging) (r : Nat) : Prop :=
  ∀ path t i, tablePaths.Mem path → path.length = 1 ∨ path.length = 2 →
    p.table r path = some t → i < 512 → isPresent (p.mem t i) = true → isHuge (p.mem t i) = false

/-- No table is shared, no entry is a huge page, and no free frame is a table. -/
structure Tree (p : Paging) (r : Nat) : Prop where
  unshared : Unshared child p.mem r tablePaths
  small : NoHuge p r
  apart : ∀ f path, p.frameAllocator.isFree f = true → tablePaths.Mem path →
    p.table r path ≠ some f

/-- The leaves of all pages are the same. -/
def SameLeaves (r : Nat) (p p' : Paging) : Prop :=
  ∀ path i, tablePaths.Mem path → path.length = 3 → i < 512 → p'.leaf r path i = p.leaf r path i

end Paging

/-- The path to the L1 table of an address. -/
def tablePath (virt : Nat) : List Nat := [l4Index virt, l3Index virt, l2Index virt]

section Paths

variable {v w : Nat}

theorem tablePaths_mem (virt : Nat) (n : Nat) : tablePaths.Mem ((tablePath virt).take n) := by
  refine ⟨by simp [tablePath], fun i member => ?_⟩
  have here := List.mem_of_mem_take member
  simp only [tablePath, List.mem_cons, List.not_mem_nil, or_false] at here
  rcases here with rfl | rfl | rfl
  · exact l4Index_lt virt
  · exact l3Index_lt virt
  · exact l2Index_lt virt

/-- The indices of a canonical address determine its page. -/
theorem page_eq_of_indices (canonical : Canonical v) (canonical' : Canonical w)
    (path : tablePath v = tablePath w) (index : l1Index v = l1Index w) : v / 4096 = w / 4096 := by
  simp only [tablePath, List.cons.injEq, and_true, l4Index_eq, l3Index_eq, l2Index_eq] at path
  simp only [l1Index_eq] at index
  obtain ⟨first, second, third⟩ := path
  have number : pageNumber v = pageNumber w := by omega
  simp only [pageNumber] at number
  unfold Canonical at canonical canonical'
  omega

end Paths

namespace Paging

variable {p p' p'' : Paging} {r : Nat}

theorem SameLeaves.refl : SameLeaves r p p := fun _ _ _ _ _ => rfl

theorem SameLeaves.trans (first : SameLeaves r p p') (second : SameLeaves r p' p'') :
    SameLeaves r p p'' := fun path i member length bound =>
  (second path i member length bound).trans (first path i member length bound)

/-- In a tree without huge pages a translation is a leaf. -/
theorem NoHuge.translation_eq (small : NoHuge p r) (virt : Nat) :
    p.translation (r * 4096) virt =
      (p.leaf r (tablePath virt) (l1Index virt)).map fun e => (addr e + virt % 4096, flags e) := by
  have table₃ := small _ (frameOf (p.mem r (l4Index virt))) (l3Index virt)
    (tablePaths_mem virt 1) (.inl rfl)
  have table₂ := small _ (frameOf (p.mem (frameOf (p.mem r (l4Index virt)))
    (l3Index virt))) (l2Index virt) (tablePaths_mem virt 2) (.inr rfl)
  simp only [translation, leaf, table, tablePath, List.take_succ_cons, List.take_zero, nodeAt_cons,
    nodeAt_nil, child, read, addr_eq_frame, frame_div] at table₃ table₂ ⊢
  generalize p.mem r (l4Index virt) = l4e at table₃ table₂ ⊢
  by_cases present₄ : isPresent l4e = true
  · simp only [present₄, if_true, Option.bind_some, forall_const] at table₃ table₂ ⊢
    have small₃ := table₃ (l3Index_lt virt)
    generalize p.mem (frameOf l4e) (l3Index virt) = l3e at small₃ table₂ ⊢
    by_cases present₃ : isPresent l3e = true
    · simp only [present₃, if_true, Option.bind_some, forall_const] at small₃ table₂ ⊢
      have small₂ := table₂ (l2Index_lt virt)
      generalize p.mem (frameOf l3e) (l2Index virt) = l2e at small₂ ⊢
      by_cases present₂ : isPresent l2e = true
      · simp only [present₂, forall_const] at small₂
        by_cases present₁ : isPresent (p.mem (frameOf l2e) (l1Index virt)) = true
        · simp [present₂, small₃, small₂, present₁]
        · simp [present₂, small₃, small₂, present₁]
      · simp [present₂, small₃]
    · simp [present₃]
  · simp [present₄]

/-- The translations of a tree depend on its leaves only. -/
theorem SameLeaves.translation (same : SameLeaves r p p') (small : NoHuge p r)
    (small' : NoHuge p' r) (virt : Nat) :
    p'.translation (r * 4096) virt = p.translation (r * 4096) virt := by
  rw [small.translation_eq, small'.translation_eq]
  rw [same (tablePath virt) (l1Index virt) (tablePaths_mem virt 3) rfl (l1Index_lt virt)]

/-! ## One level of the walk -/

variable {path : List Nat} {t i g pf e : Nat}

theorem child_of_present (present : isPresent e = true) : child e = some (frameOf e) := by
  rw [child, if_pos present]

theorem child_of_absent (absent : isPresent e = false) : child e = none := by
  rw [child, absent]
  exact if_neg Bool.false_ne_true

/-- An entry above the leaves is written so that it leads where it has led. -/
theorem Tree.rewrite (tree : Tree p r) (found : p.table r path = some t)
    (member : tablePaths.Mem path) (inner : path.length < 3)
    (leads : child e = child (p.mem t i)) (huge : isHuge e = isHuge (p.mem t i)) :
    Tree (p.write (t * 4096) i e) r ∧ SameLeaves r p (p.write (t * 4096) i e) ∧
      ∀ path, (p.write (t * 4096) i e).table r path = p.table r path := by
  have mem' : ∀ s j, (p.write (t * 4096) i e).mem s j = if s = t ∧ j = i then e else p.mem s j := by
    intro s j
    rw [write_mem_frame, update_apply]
    by_cases here : s = t
    · subst here
      simp only [true_and, if_true, update_apply]
    · simp only [here, if_false, false_and]
  have tables : ∀ path, (p.write (t * 4096) i e).table r path = p.table r path := by
    intro path
    refine nodeAt_congr fun before j after s _ _ => ?_
    rw [mem']
    split
    · next here => rw [here.1, here.2, leads]
    · rfl
  refine ⟨⟨fun path₁ path₂ s => ?_, fun path₁ s j member₁ length found₁ bound => ?_,
    fun f path₁ free member₁ => ?_⟩, fun path₁ j member₁ length bound => ?_, tables⟩
  · have same := tree.unshared path₁ path₂ s
    have first := tables path₁
    have second := tables path₂
    unfold table at first second
    rwa [first, second]
  · rw [tables] at found₁
    have small := tree.small path₁ s j member₁ length found₁ bound
    rw [mem']
    split
    · next here =>
        rw [here.1, here.2] at small
        intro present
        rw [huge]
        have known : child (p.mem t i) = some (frameOf e) := by
          rw [← leads, child_of_present present]
        refine small ?_
        by_contra absent
        rw [child_of_absent (by simpa using absent)] at known
        cases known
    · exact small
  · rw [tables]
    exact tree.apart f path₁ free member₁
  · unfold leaf
    rw [tables]
    cases reached : p.table r path₁ with
    | none => rfl
    | some s =>
      have other : s ≠ t := by
        rintro rfl
        have same := tree.unshared path₁ path s member₁ member reached found
        rw [same] at length
        omega
      simp only [Option.bind_some, mem', other, false_and, if_false]

/-- The state after a frame has been allocated for a table, linked and zeroed. -/
def linkTable (p : Paging) (fa : PhysicalFrameAllocator) (t i g pf : Nat) : Paging :=
  Paging.zero (Paging.write { p with frameAllocator := fa } (t * 4096) i
    (PageTableEntry.set (g * 4096) pf)) (g * 4096)

theorem linkTable_mem (fa : PhysicalFrameAllocator) (s j : Nat) :
    (p.linkTable fa t i g pf).mem s j = if s = g then 0 else
      if s = t ∧ j = i then PageTableEntry.set (g * 4096) pf else p.mem s j := by
  rw [linkTable, zero_mem_frame, write_mem_frame, update_apply, update_apply]
  by_cases fresh : s = g
  · simp only [fresh, if_true]
  · by_cases here : s = t
    · subst here
      simp only [fresh, if_false, if_true, true_and, update_apply]
    · simp only [fresh, here, if_false, false_and]

section Link

variable {fa : PhysicalFrameAllocator}

/-- A frame that the allocator hands out is no table. -/
theorem Tree.fresh (tree : Tree p r)
    (allocated : p.frameAllocator.allocateFrame = some (g * 4096, fa)) {path' : List Nat}
    (member : tablePaths.Mem path') : p.table r path' ≠ some g := by
  obtain ⟨frame, same, bound, clear, -⟩ := allocateFrame_some allocated
  obtain rfl : frame = g := by omega
  exact tree.apart frame path' (isFree_iff.mpr ⟨bound, clear⟩) member

section

variable (tree : Tree p r) (found : p.table r path = some t) (member : tablePaths.Mem path)
include tree found member

theorem Tree.linksFresh (absent : isPresent (p.mem t i) = false) (present : isPresent pf = true)
    (allocated : p.frameAllocator.allocateFrame = some (g * 4096, fa)) :
    LinksFresh child p.mem (p.linkTable fa t i g pf).mem r tablePaths path t i g := by
  have old : t ≠ g := by
    rintro rfl
    exact tree.fresh allocated member found
  have small : g < 2 ^ 40 := by
    obtain ⟨frame, same, bound, -⟩ := allocateFrame_some allocated
    omega
  refine ⟨found, member, child_of_absent absent, fun path' => tree.fresh allocated, ?_,
    fun j => ?_, fun s j other apart => ?_⟩
  · rw [linkTable_mem, if_neg old, if_pos ⟨rfl, rfl⟩, child_of_present (by simpa using present),
      frameOf_set small]
  · rw [linkTable_mem, if_pos rfl]
    exact child_of_absent isPresent_zero
  · rw [linkTable_mem, if_neg other, if_neg (by tauto)]

/-- A fresh table is linked at an absent entry above the leaves. -/
theorem Tree.link (absent : isPresent (p.mem t i) = false)
    (present : isPresent pf = true) (small : isHuge pf = false)
    (allocated : p.frameAllocator.allocateFrame = some (g * 4096, fa)) :
    Tree (p.linkTable fa t i g pf) r := by
  have link := tree.linksFresh found member absent present allocated
  refine ⟨link.unshared tree.unshared, fun path₁ s j member₁ length found₁ inside => ?_,
    fun f path₁ free₁ member₁ found₁ => ?_⟩
  · rw [linkTable_mem]
    rcases (link.nodeAt_eq_some_iff tree.unshared member₁).mp found₁ with known | ⟨-, rfl⟩
    · have old : s ≠ g := by
        rintro rfl
        exact tree.fresh allocated member₁ known
      rw [if_neg old]
      split
      · intro _
        rw [isHuge_set, small]
      · exact tree.small path₁ s j member₁ length known inside
    · rw [if_pos rfl, isPresent_zero]
      intro impossible
      cases impossible
  · obtain ⟨frame, same, -, -, bitmap, -⟩ := allocateFrame_some allocated
    obtain rfl : frame = g := by omega
    obtain ⟨bound₁, clear₁⟩ : f < 65536 ∧ fa.bitmap f = false :=
      isFree_iff.mp free₁
    have other : f ≠ frame := by
      rintro rfl
      rw [bitmap, update_self] at clear₁
      cases clear₁
    rw [bitmap, update_of_ne other] at clear₁
    have known := ((link.nodeAt_eq_some_iff tree.unshared member₁).mp found₁).resolve_right
      fun new => other new.2
    exact tree.apart f path₁ (isFree_iff.mpr ⟨bound₁, clear₁⟩) member₁ known

/-- The fresh table has no leaves, and the leaves of the others stay. -/
theorem Tree.link_leaves (inner : path.length < 3)
    (absent : isPresent (p.mem t i) = false) (present : isPresent pf = true)
    (allocated : p.frameAllocator.allocateFrame = some (g * 4096, fa)) :
    SameLeaves r p (p.linkTable fa t i g pf) := by
  have link := tree.linksFresh found member absent present allocated
  intro path₁ j member₁ length inside
  have tables : ∀ {s}, (p.linkTable fa t i g pf).table r path₁ = some s ↔ _ :=
    link.nodeAt_eq_some_iff tree.unshared member₁
  unfold leaf
  cases reached : p.table r path₁ with
  | some s =>
    have old : s ≠ g := by
      rintro rfl
      exact tree.fresh allocated member₁ reached
    have other : s ≠ t := by
      rintro rfl
      have same := tree.unshared path₁ path s member₁ member reached found
      rw [same] at length
      omega
    rw [tables.mpr (.inl reached)]
    simp only [Option.bind_some, linkTable_mem, old, other, false_and, if_false]
  | none =>
    cases reached' : (p.linkTable fa t i g pf).table r path₁ with
    | none => rfl
    | some s =>
      rcases tables.mp reached' with known | ⟨-, rfl⟩
      · exact absurd (known.symm.trans reached) (Option.some_ne_none s)
      · simp [linkTable_mem]

end

end Link

/-- **One level of the walk** keeps the tree and its leaves, and arrives at a table. -/
theorem nextTable_tree (tree : Tree p r) (found : p.table r path = some t)
    (member : tablePaths.Mem (path ++ [i])) (present : isPresent pf = true)
    (small : isHuge pf = false) (oom : PagingError) :
    wp (nextTable (t * 4096) i pf oom)
      (fun a p' => ∃ t', a = t' * 4096 ∧ Tree p' r ∧ SameLeaves r p p' ∧
        p'.table r (path ++ [i]) = some t')
      (fun _ p' => Tree p' r ∧ SameLeaves r p p') p := by
  have before : tablePaths.Mem path := tablePaths.closed path [i] member
  have inner : path.length < 3 := by
    have short := member.1
    rw [List.length_append, List.length_singleton] at short
    omega
  rw [nextTable, wp_bind, wp_gets, read_frame]
  split
  · next there =>
      rw [wp_bind, wp_update, wp_gets]
      have frame : frameOf (PageTableEntry.set (addr (p.mem t i)) (merge (flags (p.mem t i)) pf)) =
          frameOf (p.mem t i) := by
        rw [addr_eq_frame, frameOf_set (frameOf_lt _)]
      have leads : child (PageTableEntry.set (addr (p.mem t i)) (merge (flags (p.mem t i)) pf)) =
          child (p.mem t i) := by
        rw [child_of_present (by simpa using .inl there), child_of_present there, frame]
      obtain ⟨tree', leaves, tables⟩ := tree.rewrite found before inner leads (by simp [small])
      refine ⟨frameOf (p.mem t i), ?_, tree', leaves, ?_⟩
      · rw [read_frame, write_mem_frame, update_self, update_self, addr_eq_frame,
          frame]
      · rw [tables, table, nodeAt_snoc found, child_of_present there]
  · next missing =>
      have absent : isPresent (p.mem t i) = false := by simpa using missing
      rw [wp_bind]
      cases allocated : p.frameAllocator.allocateFrame with
      | none =>
        have result : allocateFrame oom p = (.error oom, p) := by
          unfold allocateFrame
          rw [allocated]
        rw [wp_error result]
        exact ⟨tree, SameLeaves.refl⟩
      | some answer =>
        obtain ⟨a, fa⟩ := answer
        obtain ⟨g, rfl, -⟩ := allocateFrame_some allocated
        have result : allocateFrame oom p = (.ok (g * 4096), { p with frameAllocator := fa }) := by
          unfold allocateFrame
          rw [allocated]
        rw [wp_ok result, wp_bind, wp_update, wp_bind, wp_update,
          wp_pure]
        have link := tree.linksFresh found before absent present allocated
        exact ⟨g, rfl, tree.link found before absent present small allocated,
          tree.link_leaves found before inner absent present allocated,
          (link.nodeAt_eq_some_iff tree.unshared member).mpr (.inr ⟨rfl, rfl⟩)⟩

/-! ## The leaf -/

/-- The entry at `i` of the L1 table behind a path is set to `e`. -/
structure SetsLeaf (r : Nat) (path : List Nat) (i e : Nat) (p p' : Paging) : Prop where
  tables : ∀ path', tablePaths.Mem path' → p'.table r path' = p.table r path'
  unshared : Unshared child p'.mem r tablePaths
  here : p'.leaf r path i = if isPresent e then some e else none
  others : ∀ path' j, tablePaths.Mem path' → path'.length = 3 → path' ≠ path ∨ j ≠ i →
    p'.leaf r path' j = p.leaf r path' j
  small : NoHuge p' r

/-- A leaf is written: the other leaves stay. -/
theorem setLeaf (unshared : Unshared child p.mem r tablePaths) (small : NoHuge p r)
    (found : p.table r path = some t) (member : tablePaths.Mem path) (length : path.length = 3)
    (after : p'.mem = (p.write (t * 4096) i e).mem) : SetsLeaf r path i e p p' := by
  have mem' : ∀ s j, p'.mem s j = if s = t ∧ j = i then e else p.mem s j := by
    intro s j
    rw [after, write_mem_frame, update_apply]
    by_cases here : s = t
    · subst here
      simp only [true_and, if_true, update_apply]
    · simp only [here, if_false, false_and]
  have upper : ∀ {path' s}, tablePaths.Mem path' → path'.length < 3 → p.table r path' = some s →
      s ≠ t := by
    rintro path' s member' shorter found' rfl
    rw [unshared path' path s member' member found' found] at shorter
    omega
  have tables : ∀ path', tablePaths.Mem path' → p'.table r path' = p.table r path' := by
    intro path' member'
    refine nodeAt_congr fun before j rest s split found' => ?_
    have short := member'.1
    rw [split, List.length_append, List.length_cons] at short
    have other := upper (tablePaths.closed before (j :: rest) (split ▸ member')) (by omega) found'
    rw [mem', if_neg fun same => other same.1]
  refine ⟨tables, fun path₁ path₂ s member₁ member₂ => ?_, ?_,
    fun path' j member' length' apart => ?_,
    fun path' s j member' length' found' inside => ?_⟩
  · have first := tables path₁ member₁
    have second := tables path₂ member₂
    unfold table at first second
    rw [first, second]
    exact unshared path₁ path₂ s member₁ member₂
  · simp only [leaf, tables path member, found, Option.bind_some, mem', and_self, if_true]
  · unfold leaf
    rw [tables path' member']
    cases reached : p.table r path' with
    | none => rfl
    | some s =>
      have other : ¬(s = t ∧ j = i) := by
        rintro ⟨rfl, rfl⟩
        have same := unshared path' path s member' member reached found
        exact apart.elim (fun differs => differs same) fun differs => differs rfl
      simp only [Option.bind_some, mem', other, if_false]
  · rw [tables path' member'] at found'
    rw [mem', if_neg fun same => upper member' (by omega) found' same.1]
    exact small path' s j member' length' found' inside

/-- The translations of the other pages stay. -/
theorem SetsLeaf.translation_of_ne {v w : Nat}
    (sets : SetsLeaf r (tablePath v) (l1Index v) e p p') (small : NoHuge p r)
    (canonical : Canonical v) (canonical' : Canonical w) (other : w / 4096 ≠ v / 4096) :
    p'.translation (r * 4096) w = p.translation (r * 4096) w := by
  rw [small.translation_eq, sets.small.translation_eq,
    sets.others (tablePath w) (l1Index w) (tablePaths_mem w 3) rfl]
  by_contra same
  push Not at same
  exact other (page_eq_of_indices canonical' canonical same.1 same.2)

/-- A leaf set over an absent one and taken away again leaves the leaves as they were. -/
theorem SetsLeaf.sameLeaves (first : SetsLeaf r path i e p p') (second : SetsLeaf r path i 0 p' p'')
    (absent : p.leaf r path i = none) : SameLeaves r p p'' := by
  intro path' j member length _
  by_cases here : path' = path ∧ j = i
  · rw [here.1, here.2, second.here, absent, isPresent_zero]
    rfl
  · have apart : path' ≠ path ∨ j ≠ i := by tauto
    rw [second.others path' j member length apart, first.others path' j member length apart]

theorem flags_set {a f : Nat} : flags (PageTableEntry.set a f) = f &&& 0xFFF := by
  rw [flags, PageTableEntry.set, Nat.and_or_distrib_right, Nat.and_assoc, Nat.and_assoc,
    Nat.and_comm addrMask, flagMask_and_addrMask, Nat.and_zero, Nat.zero_or, Nat.and_self]

/-- What `map` does: tables are built and a leaf that was absent is set, or it fails
with all leaves as they were. -/
theorem map_tree (tree : Tree p r) (virt phys fl : Nat) :
    wp (map (r * 4096) virt phys fl)
      (fun _ p' => ∃ q t, Tree q r ∧ SameLeaves r p q ∧ q.table r (tablePath virt) = some t ∧
        isPresent (q.mem t (l1Index virt)) = false ∧
        p' = q.write (t * 4096) (l1Index virt) (PageTableEntry.set phys fl))
      (fun _ p' => Tree p' r ∧ SameLeaves r p p') p := by
  have present := @isPresent_parentTableFlags fl
  have small : isHuge (parentTableFlags fl) = false := by
    unfold parentTableFlags
    split <;> decide
  rw [map]
  simp only [wp_bind]
  refine wp_mono ?_ (fun _ _ failed => failed) (nextTable_tree tree
    (show p.table r [] = some r from rfl) (tablePaths_mem virt 1) present small .oomL3Table)
  rintro - p₁ ⟨t₃, rfl, tree₁, leaves₁, found₁⟩
  refine wp_mono ?_ (fun _ _ failed => ⟨failed.1, leaves₁.trans failed.2⟩)
    (nextTable_tree tree₁ found₁ (tablePaths_mem virt 2) present small .oomL2Table)
  rintro - p₂ ⟨t₂, rfl, tree₂, leaves₂, found₂⟩
  refine wp_mono ?_
    (fun _ _ failed => ⟨failed.1, (leaves₁.trans leaves₂).trans failed.2⟩)
    (nextTable_tree tree₂ found₂ (tablePaths_mem virt 3) present small .oomL1Table)
  rintro - p₃ ⟨t₁, rfl, tree₃, leaves₃, found₃⟩
  have leaves := (leaves₁.trans leaves₂).trans leaves₃
  rw [wp_gets, read_frame]
  split
  · rw [wp_fail]
    exact ⟨tree₃, leaves⟩
  · next absent =>
      rw [wp_update]
      exact ⟨p₃, t₁, tree₃, leaves, found₃, by simpa using absent, rfl⟩

/-- The walk to a table, entry by entry. -/
theorem table_tablePath {virt : Nat} (found : p.table r (tablePath virt) = some t) :
    ∃ l4e l3e l2e, p.mem r (l4Index virt) = l4e ∧ isPresent l4e = true ∧
      p.mem (frameOf l4e) (l3Index virt) = l3e ∧ isPresent l3e = true ∧
      p.mem (frameOf l3e) (l2Index virt) = l2e ∧ isPresent l2e = true ∧ frameOf l2e = t := by
  simp only [table, tablePath, nodeAt_cons, nodeAt_nil, child, Option.bind_eq_some_iff,
    Option.ite_none_right_eq_some, Option.some.injEq] at found
  obtain ⟨t₃, ⟨present₄, rfl⟩, t₂, ⟨present₃, rfl⟩, t₁, ⟨present₂, rfl⟩, rfl⟩ := found
  exact ⟨_, _, _, rfl, present₄, rfl, present₃, rfl, present₂, rfl⟩

/-- `unmap` takes away the leaf that the path of the address leads to. -/
theorem wp_unmap {virt : Nat} {Q : Nat → Paging → Prop} {E : PagingError → Paging → Prop}
    (found : p.table r (tablePath virt) = some t)
    (present : isPresent (p.mem t (l1Index virt)) = true)
    (after : Q (addr (p.mem t (l1Index virt)))
      ((p.write (t * 4096) (l1Index virt) 0).freeFrame (addr (p.mem t (l1Index virt))))) :
    wp (unmap (r * 4096) virt) Q E p := by
  obtain ⟨l4e, l3e, l2e, entry₄, present₄, entry₃, present₃, entry₂, present₂, rfl⟩ :=
    table_tablePath found
  simp only [unmap, wp_bind, wp_presentEntry, wp_update, wp_pure, addr_eq_frame,
    entry₄, present₄, entry₃, present₃, entry₂, present₂, present, if_true] at after ⊢
  exact after

end Paging

open Paging

/-- **Mapping one page affects that page only.** `map` sets the translation and the leaf
flags of its page, or fails; the translations and leaf flags of all other pages stay, and
`unmap` brings back the translations that there were before. -/
theorem map_one_page (p : Paging) (r v phys fl : Nat) (tree : Tree p r) (canonical : Canonical v)
    (aligned : v % 4096 = 0) (frame : phys % 4096 = 0) (bound : phys < 2 ^ 52)
    (present : isPresent fl = true) :
    wp (Paging.map (r * 4096) v phys fl)
      (fun _ p' =>
        p'.translation (r * 4096) v = some (phys, fl &&& 0xFFF) ∧
        (∀ w, Canonical w → w / 4096 ≠ v / 4096 →
          p'.translation (r * 4096) w = p.translation (r * 4096) w) ∧
        wp (Paging.unmap (r * 4096) v)
          (fun a p'' => a = phys ∧
            ∀ w, Canonical w → p''.translation (r * 4096) w = p.translation (r * 4096) w)
          (fun _ _ => False) p')
      (fun _ p' => ∀ w, Canonical w →
        p'.translation (r * 4096) w = p.translation (r * 4096) w) p := by
  refine wp_mono ?_ ?_ (map_tree tree v phys fl)
  · rintro - p' ⟨q, t, treeq, leaves, found, absent, after⟩
    have member := tablePaths_mem v 3
    obtain ⟨n, rfl⟩ : ∃ n, phys = n * 4096 := ⟨phys / 4096, by omega⟩
    have leafEntry : isPresent (PageTableEntry.set (n * 4096) fl) = true := by simpa using present
    have address : addr (PageTableEntry.set (n * 4096) fl) = n * 4096 := by
      rw [addr_eq_frame, frameOf_set (by omega)]
    have mapped := setLeaf treeq.unshared treeq.small found member rfl (congrArg Paging.mem after)
    have none' : q.leaf r (tablePath v) (l1Index v) = none := by
      rw [leaf, found, Option.bind_some, absent]
      rfl
    refine ⟨?_, fun w canonical' other => ?_, ?_⟩
    · rw [mapped.small.translation_eq, mapped.here, leafEntry, if_pos rfl, Option.map_some, address,
        flags_set, aligned, Nat.add_zero]
    · rw [mapped.translation_of_ne treeq.small canonical canonical' other]
      exact leaves.translation tree.small treeq.small w
    · have found' : p'.table r (tablePath v) = some t := (mapped.tables _ member).trans found
      have entry : p'.mem t (l1Index v) = PageTableEntry.set (n * 4096) fl := by
        rw [after, write_mem_frame, update_self, update_self]
      refine wp_unmap found' (entry ▸ leafEntry) ⟨by rw [entry, address], fun w _ => ?_⟩
      have unmapped := @setLeaf _ ((p'.write (t * 4096) (l1Index v) 0).freeFrame
        (addr (p'.mem t (l1Index v)))) r _ t _ 0 mapped.unshared mapped.small found' member rfl rfl
      exact (leaves.trans (mapped.sameLeaves unmapped none')).translation tree.small
        unmapped.small w
  · rintro - p' ⟨tree', leaves⟩ w -
    exact leaves.translation tree.small tree'.small w

/-- An empty L4 table in frame 1, and three free frames. -/
def emptyTree : Paging := ⟨⟨fun f => f < 2 || 4 < f, fun _ => 0, 2, 3, 0⟩, fun _ _ => 0, 0x1000⟩

theorem emptyTree_tree : Tree emptyTree 1 := by
  have only : ∀ {path t}, emptyTree.table 1 path = some t → path = [] ∧ t = 1 := by
    intro path t found
    cases path with
    | nil => exact ⟨rfl, (Option.some.inj found).symm⟩
    | cons i rest =>
      have absent : child (emptyTree.mem 1 i) = none := child_of_absent isPresent_zero
      rw [table, nodeAt_cons, absent] at found
      cases found
  refine ⟨fun path path' t _ _ found found' => ?_, fun path t i _ length found => ?_,
    fun f path free _ found => ?_⟩
  · rw [(only found).1, (only found').1]
  · rw [(only found).1] at length
    simp at length
  · rw [(only found).2] at free
    cases free

theorem map_one_page_emptyTree :
    ∃ p', Paging.map (1 * 4096) 0x400000 0x5000 7 emptyTree = (.ok ⟨⟩, p') ∧
      p'.translation (1 * 4096) 0x400000 = some (0x5000, 7) := by
  have holds := map_one_page emptyTree 1 0x400000 0x5000 7 emptyTree_tree (.inl (by decide))
    (by decide) (by decide) (by decide) (by decide)
  have succeeds : (Paging.map (1 * 4096) 0x400000 0x5000 7 emptyTree).1.isOk = true := by
    decide +kernel
  rcases ran : Paging.map (1 * 4096) 0x400000 0x5000 7 emptyTree with ⟨e | ⟨⟩, p'⟩
  · rw [ran] at succeeds
    cases succeeds
  · exact ⟨p', rfl, ((wp_ok ran).mp holds).1⟩

end OxideOS.Mem
