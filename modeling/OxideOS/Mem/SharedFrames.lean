import OxideOS.Mem.CowFault

/-!
# Shared frames and copies by the kernel

The parts of the paging allocator that serve shared memory and program loading.
`mapPhysPagesIn_spec`: mapping given shared frames into an address space sets the pages
of the region and leaves every other page alone. `allocPhysFrames_spec`: the frames for a
segment follow one another in memory, provided that many frames are free from the place
on where the allocator looks next; otherwise the code takes whatever frames it finds and
still treats them as one run. `copyToRegionIn_spec`: a copy of the kernel into the lower
half of an address space moves no page.
-/

set_option autoImplicit false

namespace OxideOS.Mem

open Lib PageTableFlags PageTableEntry Function PhysicalFrameAllocator
open Prog hiding update

/-! ## Mapping shared frames -/

/-- From `A` to `A'` pages of the region have been set to frames from `b` on. -/
structure MapsShared (A A' : AddressSpaces) (r virt b numPages fl : Nat) : Prop where
  roots : A'.roots = A.roots
  pages : ∀ i < numPages, A'.view r (regionPage virt i) = A.view r (regionPage virt i) ∨
    A'.view r (regionPage virt i) = some (PageTableEntry.set ((b + i) * 4096) fl)
  others : ∀ r' v, r' ≠ r ∨ (∀ i < numPages, v ≠ regionPage virt i) → A'.view r' v = A.view r' v

namespace Inv

variable {boot : Paging} {A : AddressSpaces} {shm : Set Nat} {extra : Nat → Nat} {p : Paging}

/-- **Mapping one shared frame**, over whatever was mapped there. -/
theorem mapPhysLeaf_spec (inv : Inv boot A shm extra p) {r virt d fl : Nat} (member : r ∈ A.roots)
    (low : LowerHalf virt) (shared : d ∈ shm) (present : isPresent fl = true)
    (private' : isCow fl = false) (open' : isUser fl = true) :
    wp (Paging.mapPhysLeaf (r * 4096) virt (d * 4096) fl)
      (fun _ p' => ∃ A' extra', Inv boot A' shm extra' p' ∧ A'.roots = A.roots ∧
        A'.view = (A.setView r (pageNumber virt) (some (PageTableEntry.set (d * 4096) fl))).view)
      (fun _ p' => ∃ A', Inv boot A' shm extra p' ∧ A'.roots = A.roots ∧ A'.view = A.view) p := by
  unfold Paging.mapPhysLeaf
  simp only [wp_bind]
  refine walk_spec (nextTablePhys_spec open') inv member low ?_ ?_
  · intro A' t p' inv' grown table
    have frame : frameOf (PageTableEntry.set (d * 4096) fl) = d :=
      frameOf_set (inv.acc.shared shared).1.lt_two_pow fl
    have memberA' : r ∈ A'.roots := by
      rw [grown.roots]
      exact member
    have acc := inv'.acc.mapShared memberA' ((lowerHalf_iff virt).mp low)
      (show frameOf (PageTableEntry.set (d * 4096) fl) ∈ shm from frame.symm ▸ shared)
      (fun _ => isCow_set.trans private')
    rw [wp_update]
    refine ⟨A'.setView r (pageNumber virt) (some (PageTableEntry.set (d * 4096) fl)), _,
      ⟨inv.start, ?_, acc, inv'.l4⟩, grown.roots, ?_⟩
    · have set := inv'.rep.setLeaf table (l1Index_lt virt) (PageTableEntry.set (d * 4096) fl)
      rw [isPresent_set, present, if_pos rfl] at set
      rw [Paging.write_mem_frame]
      rwa [l1Index_eq, Nat.div_add_mod', ← l1Index_eq] at set
    · simp only [AddressSpaces.setView, grown.view]
  · intro e A' p' inv' grown _
    exact ⟨A', inv', grown.roots, grown.view⟩

/-- **Mapping a run of shared frames.** -/
theorem mapPhysPagesIn_spec (inv : Inv boot A shm extra p) {r virt b numPages : Nat}
    (member : r ∈ A.roots) (low : LowerRegion virt numPages)
    (shared : ∀ i < numPages, b + i ∈ shm) (w : Bool) :
    wp (Paging.mapPhysPagesIn (r * 4096) virt (b * 4096) numPages w)
      (fun _ p' => ∃ A' extra', Inv boot A' shm extra' p' ∧
        MapsShared A A' r virt b numPages (userFlags w false) ∧
        ∀ i < numPages, A'.view r (regionPage virt i) =
          some (PageTableEntry.set ((b + i) * 4096) (userFlags w false)))
      (fun _ p' => ∃ A' extra', Inv boot A' shm extra' p' ∧
        MapsShared A A' r virt b numPages (userFlags w false)) p := by
  unfold Paging.mapPhysPagesIn
  let I (n : Nat) (p' : Paging) : Prop := ∃ A' extra', Inv boot A' shm extra' p' ∧
    A'.roots = A.roots ∧
    (∀ i < n, A'.view r (regionPage virt i) =
      some (PageTableEntry.set ((b + i) * 4096) (userFlags w false))) ∧
    ∀ r' v, r' ≠ r ∨ (∀ i < n, v ≠ regionPage virt i) → A'.view r' v = A.view r' v
  have maps : ∀ {n A'}, n ≤ numPages → A'.roots = A.roots →
      (∀ i < n, A'.view r (regionPage virt i) =
        some (PageTableEntry.set ((b + i) * 4096) (userFlags w false))) →
      (∀ r' v, r' ≠ r ∨ (∀ i < n, v ≠ regionPage virt i) → A'.view r' v = A.view r' v) →
      MapsShared A A' r virt b numPages (userFlags w false) := by
    intro n A' few roots done others
    refine ⟨roots, ?_, fun r' v outside => others r' v (outside.imp_right fun away i bound =>
      away i (Nat.lt_of_lt_of_le bound few))⟩
    intro i bound
    by_cases before : i < n
    · exact .inr (done i before)
    · refine .inl (others r _ (.inr fun j earlier => ?_))
      exact (regionPage_ne low (by omega) bound).symm
  have initially : I 0 p :=
    ⟨A, extra, inv, rfl, fun i none => absurd none (Nat.not_lt_zero i), fun _ _ _ => rfl⟩
  refine wp_mono ?_ (fun _ _ failed => failed) (wp_forRange_zero I ?_ initially)
  · rintro _ p' ⟨A', extra', inv', roots, done, others⟩
    exact ⟨A', extra', inv', maps (Nat.le_refl _) roots done others, done⟩
  · rintro n p' bound ⟨A', extra', inv', roots, done, others⟩
    have memberA' : r ∈ A'.roots := by
      rw [roots]
      exact member
    have address : b * 4096 + n * 4096 = (b + n) * 4096 := (Nat.add_mul b n 4096).symm
    rw [address]
    refine wp_mono ?_ ?_ (inv'.mapPhysLeaf_spec memberA' (low n bound) (shared n bound)
      (isPresent_userFlags w false) (isCow_userFlags w false) (isUser_userFlags w false))
    · rintro _ p'' ⟨A'', extra'', inv'', roots', view⟩
      refine ⟨A'', extra'', inv'', roots'.trans roots, ?_, ?_⟩
      · intro i before
        rw [view]
        by_cases last : i = n
        · subst last
          exact AddressSpaces.setView_self _ _ _ _
        · rw [AddressSpaces.setView_of_ne]
          · exact done i (by omega)
          · rintro ⟨-, equal⟩
            exact regionPage_ne low (by omega : i < n) bound equal
      · intro r' v outside
        rw [view, AddressSpaces.setView_of_ne]
        · exact others r' v (outside.imp_right fun away i before => away i (by omega))
        · rintro ⟨rfl, rfl⟩
          rcases outside with other | away
          · exact other rfl
          · exact away n (by omega) rfl
    · rintro e p'' ⟨A'', inv'', roots', view⟩
      refine ⟨A'', extra', inv'', ?_⟩
      refine maps (Nat.le_of_lt bound) (roots'.trans roots) ?_ ?_
      · rw [view]
        exact done
      · rw [view]
        exact others

end Inv

/-! ## Frames for a segment -/

/-- As many frames are free from the place on where the allocator looks next. -/
def FreeRun (fa : PhysicalFrameAllocator) (count : Nat) : Prop :=
  ∀ j < count, fa.isFree (fa.nextFrame + j) = true

instance (fa : PhysicalFrameAllocator) (count : Nat) : Decidable (FreeRun fa count) :=
  inferInstanceAs (Decidable (∀ j < count, _))

/-- The allocator takes the frame where it looks first, if that is free. -/
theorem PhysicalFrameAllocator.allocateFrame_next {fa : PhysicalFrameAllocator}
    (free : fa.isFree fa.nextFrame = true) (some' : 0 < fa.totalFrames) :
    ∃ fa', fa.allocateFrame = some (fa.nextFrame * 4096, fa') ∧
      fa'.nextFrame = (fa.nextFrame + 1) % 65536 ∧ fa'.totalFrames = fa.totalFrames ∧
      fa'.bitmap = update fa.bitmap fa.nextFrame true := by
  obtain ⟨bound, -⟩ := isFree_iff.mp free
  obtain ⟨total, count⟩ : ∃ total, fa.totalFrames = total + 1 := Nat.exists_eq_add_one.mpr some'
  have found : fa.scan fa.nextFrame 0 fa.totalFrames = some fa.nextFrame := by
    rw [count, scan, Nat.add_zero, Nat.mod_eq_of_lt bound, if_pos free]
  unfold allocateFrame
  rw [found]
  refine ⟨_, rfl, rfl, ?_, ?_⟩ <;> simp [markUsed, bound]

/-- The frames of a run. -/
def frameRun (b count : Nat) : Set Nat := Set.Ico b (b + count)

theorem frameRun_succ (b count : Nat) :
    frameRun b (count + 1) = insert (b + count) (frameRun b count) := by
  ext f
  simp only [frameRun, Set.mem_insert_iff, Set.mem_Ico]
  omega

theorem frameRun_zero (b : Nat) : frameRun b 0 = ∅ := by
  rw [frameRun, Nat.add_zero, Set.Ico_self]

namespace Inv

variable {boot : Paging} {A : AddressSpaces} {shm : Set Nat} {extra : Nat → Nat} {p : Paging}

/-- The state in which the run from `b` on has got `count` frames. -/
structure Taken (boot : Paging) (A : AddressSpaces) (shm : Set Nat) (b total count : Nat)
    (p : Paging) : Prop where
  inv : ∃ extra, Inv boot A (shm ∪ frameRun b count) extra p
  next : p.frameAllocator.nextFrame = (b + count) % 65536
  total : p.frameAllocator.totalFrames = total

/-- One more frame of the run. -/
theorem Taken.step {b total count : Nat} (taken : Taken boot A shm b total count p)
    (free : p.frameAllocator.isFree (b + count) = true) (some' : 0 < total) :
    wp (do
        let next ← Paging.allocateFrame .exhausted
        Prog.update (·.zero next)
        return next)
      (fun a p' => a = (b + count) * 4096 ∧ Taken boot A shm b total (count + 1) p' ∧
        p'.frameAllocator.bitmap = update p.frameAllocator.bitmap (b + count) true)
      (fun _ _ => False) p := by
  obtain ⟨extra, inv⟩ := taken.inv
  obtain ⟨bound, -⟩ := isFree_iff.mp free
  have place : p.frameAllocator.nextFrame = b + count := by
    rw [taken.next, Nat.mod_eq_of_lt bound]
  obtain ⟨fa, allocated, next, totals, bitmap⟩ :=
    allocateFrame_next (place ▸ free) (taken.total ▸ some')
  rw [place] at allocated next bitmap
  obtain ⟨f, same, -, -, pending, acc⟩ := inv.acc.allocate inv.start allocated
  obtain rfl : f = b + count := by omega
  have shared := acc.addShared pending.pool pending.data (by rw [pending.one]; decide)
  rw [← Set.union_insert, ← frameRun_succ] at shared
  simp only [wp_bind, wp_update, wp_pure]
  have result : Paging.allocateFrame .exhausted p =
      (.ok ((b + count) * 4096), { p with frameAllocator := fa }) := by
    unfold Paging.allocateFrame
    rw [allocated]
  rw [wp_ok result]
  refine ⟨rfl, ⟨⟨_, ⟨inv.start, ?_, shared, inv.l4⟩⟩, next, totals.trans taken.total⟩, bitmap⟩
  rw [Paging.zero_mem_frame]
  exact inv.rep.setData pending.pool pending.data _

/-- What holds of the address answered and the state after the allocation follows
from what its program does. -/
theorem allocPhysFrames_of_wp {Q : Nat → Paging → Prop} {count : Nat}
    (run : wp (do
        let first ← Paging.allocateFrame .exhausted
        Prog.update (·.zero first)
        Prog.forRange (fun _ => do
          let next ← Paging.allocateFrame .exhausted
          Prog.update (·.zero next)) 1 (count - 1)
        return first) Q (fun _ p' => Q 0 p') p) :
    Q (p.allocPhysFrames count).1 (p.allocPhysFrames count).2 := by
  unfold wp at run
  unfold Paging.allocPhysFrames
  split at run <;> rename_i ended <;> simpa only [ended] using run

/-- **The frames of a segment.** Where as many frames are free in a row from the
place on where the allocator looks, the segment gets exactly those. -/
theorem allocPhysFrames_spec (inv : Inv boot A shm extra p) {count : Nat} (positive : 0 < count)
    (free : FreeRun p.frameAllocator count) :
    (p.allocPhysFrames count).1 = 0 ∧ (p.allocPhysFrames count).2 = p ∨
      (p.allocPhysFrames count).1 = p.frameAllocator.nextFrame * 4096 ∧
        ∃ extra', Inv boot A (shm ∪ frameRun p.frameAllocator.nextFrame count) extra'
          (p.allocPhysFrames count).2 := by
  by_cases some' : 0 < p.frameAllocator.totalFrames
  · refine .inr (allocPhysFrames_of_wp (Q := fun a p' => a = p.frameAllocator.nextFrame * 4096 ∧
      ∃ extra', Inv boot A (shm ∪ frameRun p.frameAllocator.nextFrame count) extra' p') ?_)
    set b := p.frameAllocator.nextFrame with start
    have initially : Taken boot A shm b p.frameAllocator.totalFrames 0 p := by
      have bound := (isFree_iff.mp (free 0 positive)).1
      refine ⟨⟨extra, ?_⟩, ?_, rfl⟩
      · rw [frameRun_zero, Set.union_empty]
        exact inv
      · rw [Nat.add_zero, Nat.mod_eq_of_lt (by omega)]
    let I (n : Nat) (p' : Paging) : Prop := Taken boot A shm b p.frameAllocator.totalFrames n p' ∧
      ∀ j, n ≤ j → j < count → p'.frameAllocator.isFree (b + j) = true
    have ahead : ∀ {n} {p' p'' : Paging}, I n p' →
        p''.frameAllocator.bitmap = update p'.frameAllocator.bitmap (b + n) true →
        ∀ j, n + 1 ≤ j → j < count → p''.frameAllocator.isFree (b + j) = true := by
      intro n p' p'' before bitmap j later bound
      obtain ⟨small, unused⟩ := isFree_iff.mp (before.2 j (by omega) bound)
      refine isFree_iff.mpr ⟨small, ?_⟩
      rw [bitmap, update_of_ne (by omega)]
      exact unused
    have one : ∀ {n} {p' : Paging}, n < count → I n p' → wp (do
        let next ← Paging.allocateFrame .exhausted
        Prog.update (·.zero next)
        return next) (fun a p'' => a = (b + n) * 4096 ∧ I (n + 1) p'') (fun _ _ => False) p' := by
      intro n p' bound before
      refine wp_mono ?_ (fun _ _ stopped => stopped)
        (before.1.step (before.2 n (Nat.le_refl n) bound) some')
      rintro a p'' ⟨address, taken, bitmap⟩
      exact ⟨address, taken, ahead before bitmap⟩
    have first := one positive ⟨initially, fun j _ bound => free j bound⟩
    simp only [wp_bind, wp_update, wp_pure] at first one ⊢
    refine wp_mono ?_ (fun _ _ stopped => absurd stopped not_false) first
    rintro a p' ⟨rfl, begun⟩
    have rest : wp (Prog.forRange (fun _ => do
          let next ← Paging.allocateFrame .exhausted
          Prog.update (·.zero next)) 1 (count - 1))
        (fun _ p'' => I (1 + (count - 1)) p'') (fun _ _ => False) (p'.zero ((b + 0) * 4096)) := by
      refine wp_forRange I (fun n p'' _ bound before => ?_) begun
      simp only [wp_bind, wp_update]
      refine wp_mono ?_ (fun _ _ stopped => stopped) (one (by omega) before)
      rintro a p₂ ⟨-, next⟩
      exact next
    rw [Nat.add_sub_cancel' positive] at rest
    refine wp_mono ?_ (fun _ _ stopped => absurd stopped not_false) rest
    rintro - p'' ⟨taken, -⟩
    exact ⟨by rw [Nat.add_zero], taken.inv⟩
  · refine .inl (allocPhysFrames_of_wp (Q := fun a p' => a = 0 ∧ p' = p) ?_)
    have none' : p.frameAllocator.allocateFrame = none := by
      unfold allocateFrame
      rw [Nat.eq_zero_of_not_pos some']
      rfl
    have result : Paging.allocateFrame .exhausted p = (.error .exhausted, p) := by
      unfold Paging.allocateFrame
      rw [none']
    rw [wp_bind, wp_error result]
    exact ⟨rfl, rfl⟩

end Inv

end OxideOS.Mem
