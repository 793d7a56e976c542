import OxideOS.Mem.CowFault
import OxideOS.Mem.Fork

/-!
# Running out of frames

What the paging functions do to the frame allocator on their way. None of the
functions that build something gives a frame back, not even when it fails
(`Grown`), so one that fails after its first frame leaves more frames in use than
before. And a function that reports a lack of frames stops where there is none
left (`Paging.Dry`).
-/

set_option autoImplicit false

namespace OxideOS.Mem

open Lib PageTableFlags PageTableEntry
open Prog hiding update

/-! ## Frames in use -/

/-- The number of frames in use. -/
def framesInUse (p : Paging) : Nat :=
  ((Finset.range 65536).filter fun f => p.frameAllocator.bitmap f = true).card

/-- Every frame that was in use still is. -/
def Grown (p p' : Paging) : Prop :=
  ∀ f, p.frameAllocator.bitmap f = true → p'.frameAllocator.bitmap f = true

instance : IsPreorder Paging Grown where
  refl _ _ used := used
  trans _ _ _ first second f used := second f (first f used)

variable {p p' : Paging}

theorem framesInUse_le (grown : Grown p p') : framesInUse p ≤ framesInUse p' := by
  refine Finset.card_le_card fun g member => ?_
  simp only [Finset.mem_filter] at member ⊢
  exact ⟨member.1, grown g member.2⟩

/-- A new frame is one more frame in use, whatever happens to the others. -/
theorem framesInUse_lt (grown : Grown p p') {f : Nat} (bound : f < 65536)
    (free : p.frameAllocator.bitmap f = false) (used : p'.frameAllocator.bitmap f = true) :
    framesInUse p < framesInUse p' := by
  refine Finset.card_lt_card (Finset.ssubset_iff_of_subset ?_ |>.mpr ⟨f, ?_, ?_⟩)
  · intro g member
    simp only [Finset.mem_filter] at member ⊢
    exact ⟨member.1, grown g member.2⟩
  · simp [bound, used]
  · simp [free]

namespace Paging

/-- No frame is left. -/
def Dry (p : Paging) : Prop := p.frameAllocator.allocateFrame = none

instance (p : Paging) : Decidable p.Dry :=
  decidable_of_iff (p.frameAllocator.allocateFrame.isNone = true) Option.isNone_iff_eq_none

/-! ## Frames are only taken, until none is left -/

/-- Whatever the error, it is for want of a frame. -/
def Dries (_ : PagingError) (p : Paging) : Prop := p.Dry

/-- The error reports a lack of frames only where there is none. -/
def Starved (e : PagingError) (p : Paging) : Prop := e.isOutOfMemory = true → p.Dry

theorem leads_starved {α : Type} {c : Prog Paging PagingError α} (leads : Leads Grown Dries c) :
    Leads Grown Starved c := leads.mono (fun _ _ grown => grown) fun _ _ dry _ => dry

theorem grown_of_allocator (same : p'.frameAllocator = p.frameAllocator) :
    Grown p p' := fun f used => by rw [same]; exact used

theorem leads_update {ε : Type} {E : ε → Paging → Prop} {f : Paging → Paging}
    (same : ∀ p, (f p).frameAllocator = p.frameAllocator) :
    Leads Grown E (Prog.update f) := .update fun p => grown_of_allocator (same p)

theorem allocateFrame_leads (oom : PagingError) : Leads Grown Dries (allocateFrame oom) := by
  refine ⟨fun p => ?_⟩
  cases taken : p.frameAllocator.allocateFrame with
  | none =>
    have ended : allocateFrame oom p = (.error oom, p) := by rw [allocateFrame, taken]
    rw [wp_error ended]
    exact ⟨fun _ used => used, taken⟩
  | some answer =>
    have ended : allocateFrame oom p = (.ok answer.1, { p with frameAllocator := answer.2 }) := by
      rw [allocateFrame, taken]
    rw [wp_ok ended]
    obtain ⟨frame, -, -, -, bitmap, -⟩ := PhysicalFrameAllocator.allocateFrame_some taken
    intro f used
    show answer.2.bitmap f = true
    rw [bitmap, Function.update_apply]
    split
    · rfl
    · exact used

theorem createUserPageTable_leads : Leads Grown Dries createUserPageTable :=
  .bind (allocateFrame_leads _) fun _ => .bind (leads_update fun _ => rfl) fun _ => .pure _

theorem nextTable_leads (table i pf : Nat) (oom : PagingError) :
    Leads Grown Dries (nextTable table i pf oom) :=
  .bind (.gets _) fun _ => .ite
    (.bind (leads_update fun _ => rfl) fun _ => .gets _)
    (.bind (allocateFrame_leads oom) fun _ => .bind (leads_update fun _ => rfl) fun _ =>
      .bind (leads_update fun _ => rfl) fun _ => .pure _)

/-- A page that is mapped already is no lack of frames. -/
theorem map_leads (l4 virt phys fl : Nat) : Leads Grown Starved (map l4 virt phys fl) :=
  .bind (leads_starved (nextTable_leads _ _ _ _)) fun _ =>
    .bind (leads_starved (nextTable_leads _ _ _ _)) fun _ =>
      .bind (leads_starved (nextTable_leads _ _ _ _)) fun _ => .bind (.gets _) fun _ =>
        .ite (.fail fun _ lack => absurd lack (by decide)) (leads_update fun _ => rfl)

theorem mapPage_leads (cr3 virt page : Nat) (w x : Bool) :
    Leads Grown Starved (do
      let phys ← allocateFrame .outOfFrames
      Prog.update (·.zero phys)
      map cr3 (pageVirt virt page) phys (userFlags w x)) :=
  .bind (leads_starved (allocateFrame_leads _)) fun _ => .bind (leads_update fun _ => rfl) fun _ =>
    map_leads _ _ _ _

theorem mapUserRegionIn_leads (cr3 virt numPages : Nat) (w x : Bool) :
    Leads Grown Starved (mapUserRegionIn cr3 virt numPages w x) :=
  .forRange (fun page => mapPage_leads cr3 virt page w x) 0 numPages

theorem grown_incRefcount (p : Paging) (phys : Nat) : Grown p (p.incRefcount phys) := by
  intro f used
  rw [incRefcount, PhysicalFrameAllocator.incRefcount_bitmap]
  exact used

theorem cowForkLeaf_leads (stackRange : Nat × Nat) (shmRanges : List (Nat × Nat))
    (src dst i virt : Nat) :
    Leads Grown Dries (cowForkLeaf stackRange shmRanges src dst i virt) :=
  .bind (.gets _) fun _ => .ite
    (.ite (leads_update fun _ => rfl) <| .ite
      (.bind (allocateFrame_leads _) fun _ => .bind (leads_update fun _ => rfl) fun _ =>
        leads_update fun _ => rfl)
      (.bind (.update fun p => grown_incRefcount p _) fun _ =>
        .bind (leads_update fun _ => rfl) fun _ => .ite (leads_update fun _ => rfl) (.pure _)))
    (.pure _)

theorem cowForkLevel_leads (stackRange : Nat × Nat) (shmRanges : List (Nat × Nat)) :
    ∀ level src dst virt count,
      Leads Grown Dries (cowForkLevel stackRange shmRanges level src dst virt count)
  | 0, _, _, _, _ => .ret _
  | 1, _, _, _, count => .forRange (fun _ => cowForkLeaf_leads _ _ _ _ _ _) 0 count
  | level + 2, _, _, _, count => by
      rw [cowForkLevel]
      refine .forRange (fun i => .bind (.gets _) fun e => ?_) 0 count
      refine .ite ?_ (.pure _)
      exact .bind (allocateFrame_leads _) fun _ => .bind (leads_update fun _ => rfl) fun _ =>
        .bind (leads_update fun _ => rfl) fun _ =>
          cowForkLevel_leads stackRange shmRanges (level + 1) _ _ _ _

/-- A fork fails only for want of a frame. -/
theorem cowForkUserPageTable_leads (src : Nat) (stackRange : Nat × Nat)
    (shmRanges : List (Nat × Nat)) :
    Leads Grown Dries (cowForkUserPageTable src stackRange shmRanges) :=
  .bind (allocateFrame_leads _) fun _ => .bind (leads_update fun _ => rfl) fun _ =>
    .bind (cowForkLevel_leads _ _ _ _ _ _ _) fun _ => .pure _

/-! ## Procedures that begin with a frame -/

section First

variable {α : Type} {oom : PagingError} {next : Nat → Prog Paging PagingError α} {p : Paging}

/-- Without a frame nothing has happened. -/
theorem first_dry (dry : p.Dry) : (allocateFrame oom >>= next) p = (.error oom, p) := by
  have ended : allocateFrame oom p = (.error oom, p) := by
    rw [allocateFrame, show p.frameAllocator.allocateFrame = none from dry]
  rw [Prog.bind_apply, ended]

/-- With one, it is in use at the end, whatever the end is. -/
theorem first_taken (leads : ∀ a, Leads Grown Starved (next a)) (wet : ¬ p.Dry) :
    framesInUse p < framesInUse ((allocateFrame oom >>= next) p).2 := by
  obtain ⟨answer, taken⟩ := Option.ne_none_iff_exists'.mp wet
  obtain ⟨frame, -, bound, free, bitmap, -⟩ := PhysicalFrameAllocator.allocateFrame_some taken
  have ended : allocateFrame oom p = (.ok answer.1, { p with frameAllocator := answer.2 }) := by
    rw [allocateFrame, taken]
  rw [Prog.bind_apply, ended]
  have here : framesInUse p < framesInUse { p with frameAllocator := answer.2 } := by
    have one := (allocateFrame_leads oom).related p
    rw [ended] at one
    refine framesInUse_lt one bound free ?_
    show answer.2.bitmap frame = true
    rw [bitmap, Function.update_self]
  exact Nat.lt_of_lt_of_le here (framesInUse_le ((leads answer.1).related _))

end First

theorem createUserPageTable_dry (dry : p.Dry) :
    createUserPageTable p = (.error .exhausted, p) := first_dry dry

theorem createUserPageTable_taken (wet : ¬ p.Dry) :
    framesInUse p < framesInUse (createUserPageTable p).2 :=
  first_taken (fun _ => .bind (leads_update fun _ => rfl) fun _ => .pure _) wet

variable {cr3 virt : Nat}

theorem mapUserRegionIn_dry (dry : p.Dry) {numPages : Nat} (some_ : numPages ≠ 0) (w x : Bool) :
    mapUserRegionIn cr3 virt numPages w x p = (.error .outOfFrames, p) := by
  obtain ⟨n, rfl⟩ := Nat.exists_eq_succ_of_ne_zero some_
  unfold mapUserRegionIn
  rw [Prog.forRange, Prog.andThen, first_dry dry]

theorem mapUserRegionIn_taken (wet : ¬ p.Dry) {numPages : Nat} (some_ : numPages ≠ 0) (w x : Bool) :
    framesInUse p < framesInUse (mapUserRegionIn cr3 virt numPages w x p).2 := by
  obtain ⟨n, rfl⟩ := Nat.exists_eq_succ_of_ne_zero some_
  unfold mapUserRegionIn
  rw [Prog.forRange]
  have first : framesInUse p < framesInUse ((do
      let phys ← allocateFrame .outOfFrames
      Prog.update (·.zero phys)
      map cr3 (pageVirt virt 0) phys (userFlags w x)) p).2 :=
    first_taken (fun _ => .bind (leads_update fun _ => rfl) fun _ => map_leads _ _ _ _) wet
  refine Nat.lt_of_lt_of_le first (framesInUse_le ?_)
  unfold Prog.andThen
  rcases (do
      let phys ← allocateFrame .outOfFrames
      Prog.update (·.zero phys)
      map cr3 (pageVirt virt 0) phys (userFlags w x) : Prog Paging PagingError PUnit) p with
    ⟨e | a, p'⟩
  · exact fun _ used => used
  · exact (Leads.forRange (fun page => mapPage_leads cr3 virt page w x) 1 n).related p'

theorem cowForkUserPageTable_dry (dry : p.Dry) (src : Nat) (stackRange : Nat × Nat)
    (shmRanges : List (Nat × Nat)) :
    cowForkUserPageTable src stackRange shmRanges p = (.error .exhausted, p) := first_dry dry

theorem cowForkUserPageTable_taken (wet : ¬ p.Dry) (src : Nat)
    (stackRange : Nat × Nat) (shmRanges : List (Nat × Nat)) :
    framesInUse p < framesInUse (cowForkUserPageTable src stackRange shmRanges p).2 :=
  first_taken (fun _ => leads_starved (.bind (leads_update fun _ => rfl) fun _ =>
    .bind (cowForkLevel_leads _ _ _ _ _ _ _) fun _ => .pure _)) wet

/-! ## Copies of the kernel take no frame -/

theorem writeUser_allocator {bytes : List UInt8} :
    ∀ {virt : Nat} {p p' : Paging}, writeUser cr3 1 virt bytes p = some (.stored, p') →
      p'.frameAllocator = p.frameAllocator := by
  induction bytes with
  | nil =>
    intro virt p p' done
    cases done
    rfl
  | cons b rest ih =>
    intro virt p p' done
    cases through : p.translate cr3 virt ⟨false, true⟩ with
    | ok phys =>
      simp only [writeUser, store, through] at done
      have same : (p.writeByte phys b.toNat).frameAllocator = p.frameAllocator := rfl
      exact (ih done).trans same
    | error code => simp [writeUser, store, through, pageFault] at done

theorem copyToRegionIn_allocator {bytes : List UInt8}
    (done : p.copyToRegionIn cr3 virt bytes = some p') : p'.frameAllocator = p.frameAllocator := by
  unfold copyToRegionIn at done
  split at done
  · split at done
    · next stored =>
        cases done
        exact writeUser_allocator stored
    · cases done
  · cases done

end Paging

end OxideOS.Mem
