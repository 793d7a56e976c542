import OxideOS.Mem.Accounting

/-!
# The invariant of the paging state

`Inv boot A shm extra p` joins the two halves: memory represents the address
spaces `A` and the allocator's counters account for them. This module has the
arithmetic of page numbers and the specifications of the table walk: following or
building the tables down to one page (`nextTable_spec`, `nextTablePhys_spec`)
keeps the invariant and changes no mapping.
-/

set_option autoImplicit false

namespace OxideOS.Mem

open Lib PageTableFlags PageTableEntry Function

/-- The paging state is well formed for the address spaces `A`, the
shared-memory frames `shm` and the slack `extra`. -/
structure Inv (boot : Paging) (A : AddressSpaces) (shm : Set Nat) (extra : Nat → Nat)
    (p : Paging) : Prop where
  start : Boot boot
  rep : Represents boot A p.mem
  acc : Accounting boot A shm extra p.frameAllocator
  l4 : p.l4TablePhys = boot.l4TablePhys

/-! ## Page numbers -/

/-- The page number of a virtual address, 36 bits wide. -/
def pageNumber (virt : Nat) : Nat := virt / 4096 % 2 ^ 36

/-- The address lies in the lower half of the address space. -/
def LowerHalf (virt : Nat) : Prop := l4Index virt < 256

instance (virt : Nat) : Decidable (LowerHalf virt) :=
  inferInstanceAs (Decidable (l4Index virt < 256))

section PageNumbers

variable (virt : Nat)

theorem and_0x1FF (x : Nat) : x &&& 0x1FF = x % 512 := by
  have mask : (0x1FF : Nat) = 2 ^ 9 - 1 := by decide
  rw [mask, Nat.and_two_pow_sub_one_eq_mod]

theorem l4Index_eq : l4Index virt = pageNumber virt / 512 / 512 / 512 := by
  rw [l4Index, and_0x1FF, Nat.shiftRight_eq_div_pow, pageNumber]
  omega

theorem l3Index_eq : l3Index virt = pageNumber virt / 512 / 512 % 512 := by
  rw [l3Index, and_0x1FF, Nat.shiftRight_eq_div_pow, pageNumber]
  omega

theorem l2Index_eq : l2Index virt = pageNumber virt / 512 % 512 := by
  rw [l2Index, and_0x1FF, Nat.shiftRight_eq_div_pow, pageNumber]
  omega

theorem l1Index_eq : l1Index virt = pageNumber virt % 512 := by
  rw [l1Index, and_0x1FF, Nat.shiftRight_eq_div_pow, pageNumber]
  omega

theorem l4Index_lt : l4Index virt < 512 := by
  rw [l4Index, and_0x1FF]
  omega

theorem l3Index_lt : l3Index virt < 512 := by
  rw [l3Index, and_0x1FF]
  omega

theorem l2Index_lt : l2Index virt < 512 := by
  rw [l2Index, and_0x1FF]
  omega

theorem l1Index_lt : l1Index virt < 512 := by
  rw [l1Index, and_0x1FF]
  omega

theorem lowerHalf_iff : LowerHalf virt ↔ pageNumber virt < userPages := by
  rw [LowerHalf, l4Index_eq, userPages]
  omega

theorem lowerHalf_of_lt {virt : Nat} (bound : virt < 2 ^ 47) : LowerHalf virt := by
  rw [lowerHalf_iff, pageNumber, userPages]
  omega

/-- The indices of an address, put together, are its page number. -/
theorem pageNumber_eq :
    pageNumber virt =
      (((0 * 512 + l4Index virt) * 512 + l3Index virt) * 512 + l2Index virt) * 512 +
        l1Index virt := by
  rw [l4Index_eq, l3Index_eq, l2Index_eq, l1Index_eq]
  omega

end PageNumbers

/-! ## Memory operations on whole frames -/

namespace Paging

variable (p : Paging) (f g i value : Nat)

theorem frame_div : f * 4096 / 4096 = f := Nat.mul_div_cancel f (by decide)

@[simp] theorem read_frame : p.read (f * 4096) i = p.mem f i := by
  rw [read, frame_div]

@[simp] theorem write_mem_frame : (p.write (f * 4096) i value).mem =
    update p.mem f (update (p.mem f) i value) := by
  simp only [write, frame_div]

@[simp] theorem zero_mem_frame :
    (p.zero (f * 4096)).mem = update p.mem f fun _ => 0 := by
  simp only [zero, frame_div]

@[simp] theorem copy_mem_frame :
    (p.copy (f * 4096) (g * 4096)).mem = update p.mem g (p.mem f) := by
  simp only [copy, frame_div]

theorem initL4_mem_frame : (p.initL4 (f * 4096)).mem =
    update p.mem f fun i => if i < 256 then 0 else p.read p.l4TablePhys i := by
  simp only [initL4, frame_div]

theorem write_write_comm {f g : Nat} (other : f ≠ g) (i j x y : Nat) :
    (p.write (f * 4096) i x).write (g * 4096) j y = (p.write (g * 4096) j y).write
      (f * 4096) i x := by
  simp only [write, frame_div, update_of_ne other, update_of_ne other.symm]
  rw [update_comm other]

theorem zero_write_comm {f g : Nat} (other : f ≠ g) (i x : Nat) :
    (p.zero (f * 4096)).write (g * 4096) i x = (p.write (g * 4096) i x).zero (f * 4096) := by
  simp only [write, zero, frame_div, update_of_ne other.symm]
  rw [update_comm other]

variable (a b : Nat)

@[simp] theorem freeFrame_mem : (p.freeFrame a).mem = p.mem := rfl
@[simp] theorem freeFrame_frameAllocator :
    (p.freeFrame a).frameAllocator = p.frameAllocator.freeFrame a := rfl

@[simp] theorem incRefcount_mem : (p.incRefcount a).mem = p.mem := rfl

end Paging

/-! ## Steps that change no mapping -/

/-- From `(A, p)` to `(A', p')` no mapping, no frame in use and no content of a
data frame has changed; fresh frames may have become tables. -/
structure Extends (A : AddressSpaces) (p : Paging) (A' : AddressSpaces) (p' : Paging) : Prop where
  roots : A'.roots = A.roots
  view : A'.view = A.view
  used : ∀ {g}, p.frameAllocator.bitmap g = true → p'.frameAllocator.bitmap g = true ∧
    p'.frameAllocator.refcount g = p.frameAllocator.refcount g ∧ A'.own g = A.own g
  data : ∀ {g}, p.frameAllocator.bitmap g = true → A.own g = none → p'.mem g = p.mem g

namespace Extends

variable {A A' A'' : AddressSpaces} {p p' p'' : Paging}

theorem refl : Extends A p A p where
  roots := rfl
  view := rfl
  used := fun used => ⟨used, rfl, rfl⟩
  data := fun _ _ => rfl

theorem trans (first : Extends A p A' p') (second : Extends A' p' A'' p'') :
    Extends A p A'' p'' where
  roots := second.roots.trans first.roots
  view := second.view.trans first.view
  used := by
    intro g used
    obtain ⟨used', count, own⟩ := first.used used
    obtain ⟨used'', count', own'⟩ := second.used used'
    exact ⟨used'', count'.trans count, own'.trans own⟩
  data := by
    intro g used data
    obtain ⟨used', -, own⟩ := first.used used
    exact (second.data used' (own.trans data)).trans (first.data used data)

end Extends

/-! ## The start -/

/-- No address spaces. -/
def AddressSpaces.empty : AddressSpaces where
  roots := ∅
  own := fun _ => none
  view := fun _ _ => none

/-- After boot the paging state is well formed without address spaces. -/
theorem Boot.inv {boot : Paging} (start : Boot boot) :
    Inv boot .empty ∅ (fun _ => 0) boot where
  start := start
  rep := by constructor <;> simp [AddressSpaces.empty]
  acc := by
    have unused : ∀ f, Pool boot f → boot.frameAllocator.refcount f = 0 :=
      fun f pool => start.pool_refcount pool
    have none_used : inUse boot boot.frameAllocator.refcount = 0 := by
      refine references_eq_zero_iff.mpr fun f _ marked => ?_
      simp only [useMark] at marked
      split at marked
      · next used => exact absurd used.2 (by simp [unused f used.1])
      · cases marked
    have no_refs : ∀ f, AddressSpaces.empty.refs f = 0 := by
      intro f
      refine Accounting.refs_eq_zero ?_
      intro r v e mapped
      cases mapped
    refine ⟨⟨?_, fun _ => ⟨rfl, rfl⟩, by rw [none_used, Nat.add_zero]⟩, ?_, ?_, ?_, ?_, ?_, ?_, ?_,
      ?_, ?_⟩
    · intro f pool
      simp [unused f pool, (PhysicalFrameAllocator.isFree_iff.mp pool).2]
    · intro f n owned
      cases owned
    · intro r v e mapped
      cases mapped
    · intro r v e mapped
      cases mapped
    · intro f _ _ _
      simp [no_refs]
    · intro f pool _ _
      simp [unused f pool]
    · intro f shared
      exact absurd shared (Set.notMem_empty f)
    · intro r v e mapped
      cases mapped
    · intro r v e mapped
      cases mapped
    · intro r v e r' v' e' mapped
      cases mapped
  l4 := rfl

namespace Inv

variable {boot : Paging} {A A' : AddressSpaces} {shm : Set Nat} {extra extra' : Nat → Nat}
variable {p p' : Paging}

theorem pending_extends (inv : Inv boot A shm extra p) (grown : Extends A p A' p') {d : Nat}
    (pending : Accounting.Pending boot A shm p.frameAllocator d) :
    Accounting.Pending boot A' shm p'.frameAllocator d := by
  have used : p.frameAllocator.bitmap d = true :=
    (inv.acc.used pending.pool).mpr (by rw [pending.one]; decide)
  obtain ⟨-, count, own⟩ := grown.used used
  refine ⟨pending.pool, own.trans pending.data, pending.plain, count.trans pending.one, ?_⟩
  intro r v e mapped
  rw [grown.view] at mapped
  exact pending.unmapped mapped

/-- There are fewer address spaces than a counter can count. -/
theorem roots_few (inv : Inv boot A shm extra p) : A.roots.card < 65535 := by
  have inside : A.roots ⊆ Finset.Ico 8192 65536 := by
    intro r member
    have pool := inv.rep.own_pool (inv.rep.root_own member)
    exact Finset.mem_Ico.mpr ⟨inv.start.pool_high pool, pool.lt⟩
  have bounded := Finset.card_le_card inside
  rw [Nat.card_Ico] at bounded
  omega

/-- Allocating a frame either fails without effect or yields a pending frame. -/
theorem allocateFrame_spec (inv : Inv boot A shm extra p) (oom : PagingError) :
    Prog.wp (Paging.allocateFrame oom)
      (fun a p' => ∃ f, a = f * 4096 ∧ p.frameAllocator.bitmap f = false ∧
        (∀ g, g ≠ f → p'.frameAllocator.refcount g = p.frameAllocator.refcount g ∧
          p'.frameAllocator.bitmap g = p.frameAllocator.bitmap g) ∧
        Accounting.Pending boot A shm p'.frameAllocator f ∧ p'.mem = p.mem ∧
        Inv boot A shm (update extra f 1) p')
      (fun e p' => e = oom ∧ p' = p) p := by
  unfold Prog.wp Paging.allocateFrame
  cases result : p.frameAllocator.allocateFrame with
  | none => exact ⟨rfl, rfl⟩
  | some pair =>
    obtain ⟨a, fa⟩ := pair
    obtain ⟨f, rfl, free, other, pending, acc⟩ := inv.acc.allocate inv.start result
    exact ⟨f, rfl, free, other, pending, rfl, ⟨inv.start, inv.rep, acc, inv.l4⟩⟩

end Inv

end OxideOS.Mem
