import OxideOS.Mem.Access
import OxideOS.Mem.Fork

/-!
# Translations of well-formed address spaces

In a well-formed state the processor's walk of a user address ends at the leaf
entry of the abstract view (`translate_of_mapped`, `translate_of_unmapped`), and
it depends only on the tables of that address space (`translate_congr`).
-/

set_option autoImplicit false

namespace OxideOS.Mem

open Lib PageTableFlags PageTableEntry

/-- The entries on the way from the root `r` to the leaf entry of `virt`, all of
them present. -/
structure Walk (p : Paging) (r virt l4e l3e l2e l1e : Nat) : Prop where
  l4 : p.mem r (l4Index virt) = l4e
  l3 : p.mem (frameOf l4e) (l3Index virt) = l3e
  l2 : p.mem (frameOf l3e) (l2Index virt) = l2e
  l1 : p.mem (frameOf l2e) (l1Index virt) = l1e
  present₄ : isPresent l4e = true
  present₃ : isPresent l3e = true
  present₂ : isPresent l2e = true
  present₁ : isPresent l1e = true
  small₃ : isHuge l3e = false
  small₂ : isHuge l2e = false

theorem cr3_frame {r : Nat} (small : r < 2 ^ 40) : r * 4096 &&& addrMask = r * 4096 :=
  and_addrMask_frame small

/-- The entries above the leaves allow every access. -/
theorem Link.permits {e : Nat} (link : Link e) (a : Access) : a.permits e = true := by
  simp [Access.permits, link.user, link.writable]

namespace Walk

variable {p : Paging} {r virt l4e l3e l2e l1e : Nat}

/-- There is one walk to each address. -/
theorem unique (walk : Walk p r virt l4e l3e l2e l1e) {m4e m3e m2e m1e : Nat}
    (walk' : Walk p r virt m4e m3e m2e m1e) : l4e = m4e ∧ l3e = m3e ∧ l2e = m2e ∧ l1e = m1e := by
  obtain rfl := walk.l4.symm.trans walk'.l4
  obtain rfl := walk.l3.symm.trans walk'.l3
  obtain rfl := walk.l2.symm.trans walk'.l2
  exact ⟨rfl, rfl, rfl, walk.l1.symm.trans walk'.l1⟩

/-- A complete walk translates, if all of its entries allow the access. -/
theorem translate (walk : Walk p r virt l4e l3e l2e l1e) (small : r < 2 ^ 40) (a : Access) :
    p.translate (r * 4096) virt a =
      if a.permits l4e && a.permits l3e && a.permits l2e && a.permits l1e then
        .ok (frameOf l1e * 4096 + virt % 4096)
      else .error (a.errCode true) := by
  simp only [Paging.translate, cr3_frame small, Paging.read_frame, addr_eq_frame, walk.l4, walk.l3,
    walk.l2, walk.l1, walk.present₄, walk.present₃, walk.present₂, walk.present₁, walk.small₃,
    walk.small₂, Bool.not_true, Bool.false_eq_true, if_false]

/-- The walk of `tryResolveCowFault` arrives at the same leaf. -/
theorem tryResolveCowFault (walk : Walk p r virt l4e l3e l2e l1e) (small : r < 2 ^ 40) :
    p.tryResolveCowFault (r * 4096) virt =
      if !isCow l1e then (false, p)
      else if p.frameAllocator.getRefcount (frameOf l1e * 4096) ≤ 1 then
        (true, p.write (frameOf l2e * 4096) (l1Index virt)
          (withFlags (frameOf l1e * 4096) (asWritableNoCow (flags l1e))))
      else match p.frameAllocator.allocateFrame with
        | none => (false, p)
        | some (newFrame, fa) =>
          (true, ((({ p with frameAllocator := fa } : Paging).copy (frameOf l1e * 4096)
            newFrame).write (frameOf l2e * 4096) (l1Index virt)
              (withFlags newFrame (asWritableNoCow (flags l1e)))).freeFrame
            (frameOf l1e * 4096)) := by
  cases result : p.frameAllocator.allocateFrame with
  | none | some pair =>
    simp [Paging.tryResolveCowFault, cr3_frame small, addr_eq_frame, walk.l4, walk.l3, walk.l2,
      walk.l1, walk.present₄, walk.present₃, walk.present₂, walk.present₁, walk.small₃,
      walk.small₂, result]

end Walk

/-- The walk from the root `r` to `virt` meets an absent entry. -/
inductive Stops (p : Paging) (r virt : Nat) : Prop
  | l4 : isPresent (p.mem r (l4Index virt)) = false → Stops p r virt
  | l3 : isPresent (p.mem r (l4Index virt)) = true →
      isPresent (p.mem (frameOf (p.mem r (l4Index virt))) (l3Index virt)) = false → Stops p r virt
  | l2 : isPresent (p.mem r (l4Index virt)) = true →
      isPresent (p.mem (frameOf (p.mem r (l4Index virt))) (l3Index virt)) = true →
      isHuge (p.mem (frameOf (p.mem r (l4Index virt))) (l3Index virt)) = false →
      isPresent (p.mem (frameOf (p.mem (frameOf (p.mem r (l4Index virt))) (l3Index virt)))
        (l2Index virt)) = false → Stops p r virt
  | l1 : isPresent (p.mem r (l4Index virt)) = true →
      isPresent (p.mem (frameOf (p.mem r (l4Index virt))) (l3Index virt)) = true →
      isHuge (p.mem (frameOf (p.mem r (l4Index virt))) (l3Index virt)) = false →
      isPresent (p.mem (frameOf (p.mem (frameOf (p.mem r (l4Index virt))) (l3Index virt)))
        (l2Index virt)) = true →
      isHuge (p.mem (frameOf (p.mem (frameOf (p.mem r (l4Index virt))) (l3Index virt)))
        (l2Index virt)) = false →
      isPresent (p.mem (frameOf (p.mem (frameOf (p.mem (frameOf (p.mem r (l4Index virt)))
        (l3Index virt))) (l2Index virt))) (l1Index virt)) = false → Stops p r virt

namespace Stops

variable {p : Paging} {r virt : Nat}

theorem translate (stops : Stops p r virt) (small : r < 2 ^ 40) (a : Access) :
    p.translate (r * 4096) virt a = .error (a.errCode false) := by
  cases stops <;> simp_all [Paging.translate, cr3_frame small, addr_eq_frame]

theorem tryResolveCowFault (stops : Stops p r virt) (small : r < 2 ^ 40) :
    p.tryResolveCowFault (r * 4096) virt = (false, p) := by
  cases stops <;> simp_all [Paging.tryResolveCowFault, cr3_frame small, addr_eq_frame]

end Stops

namespace Inv

variable {boot : Paging} {A : AddressSpaces} {shm : Set Nat} {extra : Nat → Nat} {p : Paging}
variable {r virt : Nat}

section

variable (inv : Inv boot A shm extra p)
include inv

theorem root_small (member : r ∈ A.roots) : r < 2 ^ 40 :=
  (inv.rep.own_pool (inv.rep.root_own member)).lt_two_pow

/-- The walk to a mapped page, through the tables of its address space. -/
theorem walk_of_mapped {e : Nat} (mapped : A.view r (pageNumber virt) = some e) :
    ∃ l4e l3e l2e, Walk p r virt l4e l3e l2e e ∧ (∃ pos, A.own (frameOf l4e) = some ⟨3, r, pos⟩) ∧
      (∃ pos, A.own (frameOf l3e) = some ⟨2, r, pos⟩) ∧
      A.own (frameOf l2e) = some ⟨1, r, pageNumber virt / 512⟩ := by
  obtain ⟨t₁, table₁, entry, present₁⟩ := inv.rep.leaf_table mapped
  obtain ⟨t₂, table₂, bound₂, present₂, points₂⟩ := inv.rep.parent table₁ (by decide)
  obtain ⟨t₃, table₃, bound₃, present₃, points₃⟩ := inv.rep.parent table₂ (by decide)
  obtain ⟨t₄, table₄, bound₄, present₄, points₄⟩ := inv.rep.parent table₃ (by decide)
  obtain ⟨rfl, -⟩ := inv.rep.own_root table₄
  have index₄ : pageNumber virt / 512 / 512 / 512 % 512 = l4Index virt := by
    rw [← l4Index_eq]
    exact Nat.mod_eq_of_lt (l4Index_lt virt)
  rw [index₄] at present₄ points₄ bound₄
  rw [← l3Index_eq] at present₃ points₃ bound₃
  rw [← l2Index_eq] at present₂ points₂ bound₂
  rw [← l1Index_eq] at entry
  have small₃ := (inv.rep.child table₃ (by decide) bound₃ present₃).2.small
  have small₂ := (inv.rep.child table₂ (by decide) bound₂ present₂).2.small
  refine ⟨p.mem t₄ (l4Index virt), p.mem t₃ (l3Index virt), p.mem t₂ (l2Index virt),
    ⟨rfl, by rw [points₄], by rw [points₃], by rw [points₂]; exact entry, present₄, present₃,
      present₂, present₁, small₃, small₂⟩, ?_⟩
  rw [points₄, points₃, points₂]
  exact ⟨⟨_, table₃⟩, ⟨_, table₂⟩, table₁⟩

/-- The walk of an unmapped page stops at an absent entry. -/
theorem stops_of_unmapped (member : r ∈ A.roots)
    (low : LowerHalf virt) (unmapped : A.view r (pageNumber virt) = none) : Stops p r virt := by
  have rep := inv.rep
  by_cases present₄ : isPresent (p.mem r (l4Index virt)) = true
  · obtain ⟨table₃, -⟩ := rep.tables_of_present member low present₄
    by_cases present₃ : isPresent (p.mem (frameOf (p.mem r (l4Index virt))) (l3Index virt)) = true
    · obtain ⟨table₂, ⟨small₃, -, -⟩⟩ := rep.child table₃ (by decide) (l3Index_lt virt) present₃
      by_cases present₂ : isPresent (p.mem (frameOf (p.mem (frameOf (p.mem r (l4Index virt)))
          (l3Index virt))) (l2Index virt)) = true
      · obtain ⟨table₁, ⟨small₂, -, -⟩⟩ := rep.child table₂ (by decide) (l2Index_lt virt) present₂
        have leaf := rep.leaf table₁ (l1Index_lt virt)
        rw [← pageNumber_eq, unmapped] at leaf
        refine .l1 present₄ present₃ small₃ present₂ small₂ ?_
        by_contra present₁
        rw [Bool.not_eq_false] at present₁
        rw [if_pos present₁] at leaf
        cases leaf
      · exact .l2 present₄ present₃ small₃ (by simpa using present₂)
    · exact .l3 present₄ (by simpa using present₃)
  · exact .l4 (by simpa using present₄)

/-- The walk of the processor ends at the entry of the view. -/
theorem view_of_walk (member : r ∈ A.roots) (low : LowerHalf virt)
    {l4e l3e l2e e : Nat} (walk : Walk p r virt l4e l3e l2e e) :
    A.view r (pageNumber virt) = some e := by
  cases view : A.view r (pageNumber virt) with
  | none =>
    have small := inv.root_small member
    have stopped := (inv.stops_of_unmapped member low view).translate small ⟨false, false⟩
    rw [walk.translate small] at stopped
    simp [Access.permits] at stopped
  | some e' =>
    obtain ⟨_, _, _, walk', -⟩ := inv.walk_of_mapped view
    rw [(walk.unique walk').2.2.2]

/-- **Translation of a mapped page.** The leaf entry decides: the entries above it are
open. -/
theorem translate_of_mapped {e : Nat} (mapped : A.view r (pageNumber virt) = some e) (a : Access) :
    p.translate (r * 4096) virt a =
      if a.permits e then .ok (frameOf e * 4096 + virt % 4096) else .error (a.errCode true) := by
  obtain ⟨member, bound⟩ := inv.acc.bound mapped
  have low := (lowerHalf_iff virt).mpr bound
  obtain ⟨l4e, l3e, l2e, walk, ⟨_, table₃⟩, ⟨_, table₂⟩, -⟩ := inv.walk_of_mapped mapped
  have open₄ : Link l4e := by
    have present := walk.present₄
    rw [← walk.l4] at present ⊢
    exact (inv.rep.child (inv.rep.root_own member) (by decide) low present).2
  have open₃ : Link l3e := by
    have present := walk.present₃
    rw [← walk.l3] at present ⊢
    exact (inv.rep.child table₃ (by decide) (l3Index_lt virt) present).2
  have open₂ : Link l2e := by
    have present := walk.present₂
    rw [← walk.l2] at present ⊢
    exact (inv.rep.child table₂ (by decide) (l2Index_lt virt) present).2
  rw [walk.translate (inv.root_small member), open₄.permits, open₃.permits, open₂.permits,
    Bool.true_and, Bool.true_and, Bool.true_and]

/-- An access that succeeds in the lower half is to a mapped page. -/
theorem translate_ok (member : r ∈ A.roots) (low : LowerHalf virt)
    {a : Access} {phys : Nat} (ok : p.translate (r * 4096) virt a = .ok phys) :
    ∃ e, A.view r (pageNumber virt) = some e ∧ phys = frameOf e * 4096 + virt % 4096 ∧
      a.permits e = true := by
  cases view : A.view r (pageNumber virt) with
  | none =>
    have stops := inv.stops_of_unmapped member low view
    rw [stops.translate (inv.root_small member)] at ok
    cases ok
  | some e =>
    rw [inv.translate_of_mapped view a] at ok
    split at ok
    · next allowed =>
        cases ok
        exact ⟨e, rfl, rfl, allowed⟩
    · cases ok

/-- Translations in the lower half are those of the abstract address space. -/
theorem translate_lower (member : r ∈ A.roots) (low : LowerHalf virt) (a : Access) :
    p.translate (r * 4096) virt a =
      match A.view r (pageNumber virt) with
      | some e =>
        if a.permits e then .ok (frameOf e * 4096 + virt % 4096) else .error (a.errCode true)
      | none => .error (a.errCode false) := by
  cases view : A.view r (pageNumber virt) with
  | none => exact (inv.stops_of_unmapped member low view).translate (inv.root_small member) a
  | some e => exact inv.translate_of_mapped view a

/-- A translation in the lower half depends only on the tables of its address
space. -/
theorem translate_congr (member : r ∈ A.roots) (low : LowerHalf virt) {p' : Paging}
    (tables : ∀ {t n}, A.own t = some n → n.root = r → p'.mem t = p.mem t) (a : Access) :
    p'.translate (r * 4096) virt a = p.translate (r * 4096) virt a := by
  have small := inv.root_small member
  have root := tables (inv.rep.root_own member) rfl
  cases view : A.view r (pageNumber virt) with
  | some e =>
    obtain ⟨l4e, l3e, l2e, walk, ⟨_, table₃⟩, ⟨_, table₂⟩, table₁⟩ := inv.walk_of_mapped view
    have walk' : Walk p' r virt l4e l3e l2e e :=
      { walk with
        l4 := by rw [root]; exact walk.l4
        l3 := by rw [tables table₃ rfl]; exact walk.l3
        l2 := by rw [tables table₂ rfl]; exact walk.l2
        l1 := by rw [tables table₁ rfl]; exact walk.l1 }
    rw [walk'.translate small, walk.translate small]
  | none =>
    have stops := inv.stops_of_unmapped member low view
    have stops' : Stops p' r virt := by
      cases stops with
      | l4 absent => exact .l4 (by rw [root]; exact absent)
      | l3 present₄ absent =>
        obtain ⟨table₃, -⟩ := inv.rep.tables_of_present member low present₄
        exact .l3 (by rw [root]; exact present₄) (by rw [root, tables table₃ rfl]; exact absent)
      | l2 present₄ present₃ small₃ absent =>
        obtain ⟨table₃, -⟩ := inv.rep.tables_of_present member low present₄
        obtain ⟨table₂, -⟩ := inv.rep.child table₃ (by decide) (l3Index_lt virt) present₃
        refine .l2 ?_ ?_ ?_ ?_
        · rw [root]
          exact present₄
        · rw [root, tables table₃ rfl]
          exact present₃
        · rw [root, tables table₃ rfl]
          exact small₃
        · rw [root, tables table₃ rfl, tables table₂ rfl]
          exact absent
      | l1 present₄ present₃ small₃ present₂ small₂ absent =>
        obtain ⟨table₃, -⟩ := inv.rep.tables_of_present member low present₄
        obtain ⟨table₂, -⟩ := inv.rep.child table₃ (by decide) (l3Index_lt virt) present₃
        obtain ⟨table₁, -⟩ := inv.rep.child table₂ (by decide) (l2Index_lt virt) present₂
        refine .l1 ?_ ?_ ?_ ?_ ?_ ?_
        · rw [root]
          exact present₄
        · rw [root, tables table₃ rfl]
          exact present₃
        · rw [root, tables table₃ rfl]
          exact small₃
        · rw [root, tables table₃ rfl, tables table₂ rfl]
          exact present₂
        · rw [root, tables table₃ rfl, tables table₂ rfl]
          exact small₂
        · rw [root, tables table₃ rfl, tables table₂ rfl, tables table₁ rfl]
          exact absent
    rw [stops'.translate small, stops.translate small]

end

/-! ## The upper half -/

section Upper

variable {p' : Paging}

section

variable (inv : Inv boot A shm extra p)
include inv

/-- The entries of the upper half are the kernel's, down to the leaves. -/
theorem upper_entry (member : r ∈ A.roots) (high : ¬LowerHalf virt) :
    p.mem r (l4Index virt) = boot.mem (boot.l4TablePhys / 4096) (l4Index virt) :=
  inv.rep.upper member (Nat.le_of_not_lt high)

theorem kernel_entry {level f : Nat}
    (table : KernelTable boot level f) (i : Nat) : p.mem f i = boot.mem f i := by
  rw [inv.rep.kernel (inv.start.kernel_table table)]

/-- **Kernel translations.** Every address space translates the upper half as the
kernel's own tables did at boot. -/
theorem translate_upper (member : r ∈ A.roots) (high : ¬LowerHalf virt) (a : Access) :
    p.translate (r * 4096) virt a = boot.translate boot.l4TablePhys virt a := by
  simp only [Paging.translate, cr3_frame (inv.root_small member), inv.start.kernel_cr3,
    Paging.read, addr_eq_frame, Paging.frame_div, inv.upper_entry member high]
  by_cases present₄ : isPresent (boot.mem (boot.l4TablePhys / 4096) (l4Index virt)) = true
  · have table₃ := KernelTable.top (Nat.le_of_not_lt high) (l4Index_lt virt) present₄
    simp only [present₄, inv.kernel_entry table₃]
    generalize boot.mem (boot.l4TablePhys / 4096) (l4Index virt) = l4e at *
    by_cases down₃ : isPresent (boot.mem (frameOf l4e) (l3Index virt)) = true ∧
        isHuge (boot.mem (frameOf l4e) (l3Index virt)) = false
    · have table₂ := KernelTable.down table₃ (l3Index_lt virt) down₃.1 down₃.2
      simp only [down₃, inv.kernel_entry table₂]
      generalize boot.mem (frameOf l4e) (l3Index virt) = l3e at *
      by_cases down₂ : isPresent (boot.mem (frameOf l3e) (l2Index virt)) = true ∧
          isHuge (boot.mem (frameOf l3e) (l2Index virt)) = false
      · have table₁ := KernelTable.down table₂ (l2Index_lt virt) down₂.1 down₂.2
        simp only [down₂, inv.kernel_entry table₁]
      · rw [not_and_or, Bool.not_eq_true, Bool.not_eq_false] at down₂
        rcases down₂ with absent | huge
        · simp only [absent, Bool.not_false, if_true]
        · simp only [huge, if_true]
    · rw [not_and_or, Bool.not_eq_true, Bool.not_eq_false] at down₃
      rcases down₃ with absent | huge
      · simp only [absent, Bool.not_false, if_true]
      · simp only [huge, if_true]
  · simp only [present₄, Bool.not_false, if_true]

/-- User mode has no access to the upper half. -/
theorem translate_upper_user (member : r ∈ A.roots)
    (high : ¬LowerHalf virt) {a : Access} (user : a.user = true) :
    ∃ code, p.translate (r * 4096) virt a = .error code := by
  have closed := inv.start.kernel_private (Nat.le_of_not_lt high) (l4Index_lt virt)
  have denied : a.permits (boot.mem (boot.l4TablePhys / 4096) (l4Index virt)) = false := by
    simp [Access.permits, user, closed]
  simp only [Paging.translate, cr3_frame (inv.root_small member), Paging.read, addr_eq_frame,
    Paging.frame_div, inv.upper_entry member high, denied, Bool.false_and, Bool.false_eq_true,
    if_false]
  split_ifs <;> exact ⟨_, rfl⟩

/-- The copy-on-write resolver does nothing in the upper half. -/
theorem tryResolveCowFault_upper (member : r ∈ A.roots)
    (high : ¬LowerHalf virt) : p.tryResolveCowFault (r * 4096) virt = (false, p) := by
  simp only [Paging.tryResolveCowFault, cr3_frame (inv.root_small member), Paging.read,
    addr_eq_frame, Paging.frame_div, inv.upper_entry member high]
  split_ifs with absent₄ stop₃ stop₂ absent₁ plain single
  any_goals rfl
  all_goals
    simp only [Bool.not_eq_true', Bool.not_eq_false, Bool.or_eq_true, not_or] at *
    have table₃ := KernelTable.top (Nat.le_of_not_lt high) (l4Index_lt virt) absent₄
    rw [inv.kernel_entry table₃] at *
    have table₂ := KernelTable.down table₃ (l3Index_lt virt) stop₃.1 (by simpa using stop₃.2)
    rw [inv.kernel_entry table₂] at *
    have table₁ := KernelTable.down table₂ (l2Index_lt virt) stop₂.1 (by simpa using stop₂.2)
    rw [inv.kernel_entry table₁] at *
    have private' := inv.start.kernel_leaf table₁ (l1Index_lt virt) absent₁
    rw [isCow_flags, private'] at plain
    cases plain

end

end Upper

end Inv

end OxideOS.Mem
