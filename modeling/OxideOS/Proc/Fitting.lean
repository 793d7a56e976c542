import OxideOS.Mem.Exhaustion
import OxideOS.Proc.Loading

/-!
# Plans that fit

Building an address space ends in one of three ways: it is built, it fails, or the
kernel faults while it copies. `Fits` says of the steps of a plan that they do not
get in each other's way: pages are mapped where nothing is, bytes are copied to
pages that are there. For such a plan the only thing that can go wrong is that the
frames run out (`build_succeeds`).
-/

set_option autoImplicit false

namespace OxideOS.Proc

open Lib Mem PageTableFlags PageTableEntry
open Prog hiding update

/-! ## Frames of a plan -/

theorem copyIn_leads (cr3 virt : Nat) (bytes : List UInt8) :
    Leads Grown (fun _ _ => True) (copyIn cr3 virt bytes) := by
  refine ⟨fun p => ?_⟩
  unfold wp copyIn
  cases copied : p.copyToRegionIn cr3 virt bytes with
  | none => exact ⟨fun _ used => used, trivial⟩
  | some p' => exact Paging.grown_of_allocator (Paging.copyToRegionIn_allocator copied)

theorem LoadStep.run_leads (cr3 : Nat) :
    ∀ s : LoadStep, Leads Grown (fun _ _ => True) (s.run cr3)
  | .map _ _ _ _ _ => (Paging.mapUserRegionIn_leads _ _ _ _ _).mapError fun _ _ _ => trivial
  | .copy _ _ => copyIn_leads _ _ _
  | .filled _ _ => .bind (Paging.mapUserRegionIn_leads _ _ _ _ _).isOk fun _ =>
    .ite (copyIn_leads _ _ _) (.pure _)
  | .stop _ => .fail fun _ => trivial

/-- Without a frame for the root nothing has happened. -/
theorem build_dry {p : Paging} (dry : p.Dry) (steps : List LoadStep) :
    build steps p = (.error .oomPageTable, p) := by
  have ended : createSpace p = (.error .oomPageTable, p) := by
    rw [createSpace, Prog.mapError, Paging.createUserPageTable_dry dry]
  rw [build, Prog.bind_apply, ended]

/-- With one, there are more frames in use at the end, whatever the end is. -/
theorem build_taken {p : Paging} (wet : ¬ p.Dry) (steps : List LoadStep) :
    framesInUse p < framesInUse (build steps p).2 := by
  have first : framesInUse p < framesInUse (createSpace p).2 := by
    have same : (createSpace p).2 = (Paging.createUserPageTable p).2 := by
      unfold createSpace Prog.mapError
      rcases Paging.createUserPageTable p with ⟨e | a, p'⟩ <;> rfl
    rw [same]
    exact Paging.createUserPageTable_taken wet
  refine Nat.lt_of_lt_of_le first (framesInUse_le ?_)
  rw [build, Prog.bind_apply]
  rcases createSpace p with ⟨e | cr3, p'⟩
  · exact fun _ used => used
  · have rest : Leads Grown (fun _ _ => True) (do
        Prog.forEach (LoadStep.run cr3) steps
        return cr3) := .bind (.forEach (LoadStep.run_leads cr3) steps) fun _ => .pure _
    exact rest.related p'

/-! ## Fitting -/

/-- The pages a step may map. -/
def LoadStep.pages : LoadStep → Set Nat
  | .map virt pages _ _ _ => { v | ∃ page < pages, v = regionPage virt page }
  | .filled virt _ => { v | v = regionPage virt 0 }
  | .copy _ _ | .stop _ => ∅

/-- The pages a step has mapped for sure when building goes on. -/
def LoadStep.surely : LoadStep → Set Nat
  | .map virt pages _ _ _ => { v | ∃ page < pages, v = regionPage virt page }
  | .filled _ _ | .copy _ _ | .stop _ => ∅

/-- The step fits where the pages in `maybe` may be mapped and those in `sure` are. -/
def LoadStep.Fits (maybe sure : Set Nat) : LoadStep → Prop
  | .map virt pages isWritable _ _ => isWritable = true ∧ LowerRegion virt pages ∧
      ∀ page < pages, regionPage virt page ∉ maybe
  | .copy virt bytes => virt + bytes.length ≤ 2 ^ 47 ∧
      ∀ i < bytes.length, pageNumber (virt + i) ∈ sure
  | .filled virt bytes => LowerRegion virt 1 ∧ regionPage virt 0 ∉ maybe ∧
      virt + bytes.length ≤ 2 ^ 47 ∧ ∀ i < bytes.length, pageNumber (virt + i) = regionPage virt 0
  | .stop _ => False

/-- The steps fit one after the other. -/
def Fits (maybe sure : Set Nat) : List LoadStep → Prop
  | [] => True
  | s :: rest => s.Fits maybe sure ∧ Fits (maybe ∪ s.pages) (sure ∪ s.surely) rest

section Specs

variable {boot : Paging} {shm : Set Nat} {f : Nat} {maybe sure : Set Nat} {p : Paging}

/-- The root `f` is being filled: what may be mapped there, and what is. -/
def Filling (boot : Paging) (shm : Set Nat) (f : Nat) (maybe sure : Set Nat) (p : Paging) : Prop :=
  ∃ A extra, Inv boot A shm extra p ∧ f ∈ A.roots ∧ (∀ v, A.view f v ≠ none → v ∈ maybe) ∧
    ∀ v ∈ sure, ∃ e, A.view f v = some e ∧ isWritable e = true

/-- A copy to writable pages is let through. -/
theorem writeUser_succeeds {A : AddressSpaces} {extra : Nat → Nat} {bytes : List UInt8} :
    ∀ {virt : Nat} {p : Paging}, Inv boot A shm extra p →
      (∀ i < bytes.length, ∃ e, A.view f (pageNumber (virt + i)) = some e ∧ isWritable e = true) →
      ∃ p', Paging.writeUser (f * 4096) 1 virt bytes p = some (.stored, p') := by
  induction bytes with
  | nil => exact fun {_ p} _ _ => ⟨p, rfl⟩
  | cons b rest ih =>
    intro virt p inv pages
    obtain ⟨e, mapped, writable⟩ := pages 0 (Nat.succ_pos _)
    rw [Nat.add_zero] at mapped
    have allowed : Access.permits ⟨false, true⟩ e = true := by simp [Access.permits, writable]
    have through := inv.translate_of_mapped mapped ⟨false, true⟩
    rw [if_pos allowed] at through
    simp only [Paging.writeUser, Paging.store, through]
    refine ih (inv.writeByte mapped) fun i inside => ?_
    rw [show virt + 1 + i = virt + (i + 1) by omega]
    exact pages (i + 1) (by simp; omega)

theorem copyIn_succeeds {virt : Nat} {bytes : List UInt8}
    (bound : virt + bytes.length ≤ 2 ^ 47)
    (inside : ∀ i < bytes.length, pageNumber (virt + i) ∈ sure)
    (filling : Filling boot shm f maybe sure p) :
    wp (copyIn (f * 4096) virt bytes) (fun _ p' => Filling boot shm f maybe sure p')
      (fun _ p' => p'.Dry) p := by
  obtain ⟨A, extra, inv, member, possible, certain⟩ := filling
  obtain ⟨p', stored⟩ := writeUser_succeeds inv fun i here => certain _ (inside i here)
  have copied : p.copyToRegionIn (f * 4096) virt bytes = some p' := by
    unfold Paging.copyToRegionIn
    rw [if_pos, stored]
    cases bytes with
    | nil => rfl
    | cons b rest =>
      rw [List.length_cons] at bound
      simp only [Paging.canonical, List.isEmpty_cons, List.length_cons, Nat.add_sub_cancel,
        Bool.false_or, Bool.and_eq_true, Bool.or_eq_true, decide_eq_true_eq]
      omega
  have ended : copyIn (f * 4096) virt bytes p = (.ok ⟨⟩, p') := by rw [copyIn, copied]
  rw [wp_ok ended]
  exact ⟨A, extra, inv.copyToRegionIn_spec member bound copied, member, possible, certain⟩

/-- Mapping where nothing is mapped succeeds, or the frames run out. In both cases the
pages of the region are the only new ones. -/
theorem mapPages_succeeds {virt pages : Nat} (low : LowerRegion virt pages)
    (absent : ∀ page < pages, regionPage virt page ∉ maybe) (x : Bool)
    (filling : Filling boot shm f maybe sure p) :
    wp (Paging.mapUserRegionIn (f * 4096) virt pages true x)
      (fun _ p' => Filling boot shm f (maybe ∪ { v | ∃ page < pages, v = regionPage virt page })
        (sure ∪ { v | ∃ page < pages, v = regionPage virt page }) p')
      (fun _ p' => Filling boot shm f (maybe ∪ { v | ∃ page < pages, v = regionPage virt page })
        sure p' ∧ p'.Dry) p := by
  obtain ⟨A, extra, inv, member, possible, certain⟩ := filling
  have unmapped : ∀ page < pages, A.view f (regionPage virt page) = none := by
    intro page inside
    by_contra mapped
    exact absent page inside (possible _ mapped)
  have grown : ∀ {A' : AddressSpaces}, MapsRegion A A' f virt pages (userFlags true x) →
      (∀ v, A'.view f v ≠ none → v ∈ maybe ∪ { v | ∃ page < pages, v = regionPage virt page }) ∧
      ∀ v ∈ sure, ∃ e, A'.view f v = some e ∧ isWritable e = true := by
    intro A' more
    constructor
    · intro v mapped
      obtain ⟨e, entry⟩ := Option.ne_none_iff_exists'.mp mapped
      rcases more.entries entry with old | ⟨new, -⟩
      · exact .inl (possible v (by rw [old]; simp))
      · exact .inr new
    · intro v inside
      obtain ⟨e, entry, writable⟩ := certain v inside
      exact ⟨e, more.kept entry, writable⟩
  refine wp_mono ?_ ?_ (wp_and (inv.mapUserRegionIn_spec member low true x)
    ((Paging.mapUserRegionIn_leads (f * 4096) virt pages true x).spec p))
  · rintro - p' ⟨⟨A', inv', more, mapped⟩, -⟩
    obtain ⟨possible', certain'⟩ := grown more
    refine ⟨A', extra, inv', more.roots ▸ member, possible', ?_⟩
    rintro v (old | ⟨page, inside, rfl⟩)
    · exact certain' v old
    · obtain ⟨absent', there⟩ := mapped page inside
      obtain ⟨e, entry⟩ := Option.ne_none_iff_exists'.mp there
      rcases more.entries entry with old | ⟨-, d, rfl⟩
      · rw [absent'] at old
        cases old
      · exact ⟨_, entry, by rw [isWritable_set, isWritable_userFlags]⟩
  · rintro e p' ⟨⟨A', extra', inv', more, reason⟩, -, starved⟩
    obtain ⟨possible', certain'⟩ := grown more
    refine ⟨⟨A', extra', inv', more.roots ▸ member, possible', certain'⟩, ?_⟩
    rcases reason with ⟨-, page, inside, mapped⟩ | lack
    · exact absurd (unmapped page inside) mapped
    · exact starved lack

/-- A step that fits does its work, or the frames have run out. -/
theorem LoadStep.run_succeeds {s : LoadStep} (fits : s.Fits maybe sure)
    (filling : Filling boot shm f maybe sure p) :
    wp (s.run (f * 4096))
      (fun _ p' => Filling boot shm f (maybe ∪ s.pages) (sure ∪ s.surely) p')
      (fun _ p' => p'.Dry) p := by
  cases s with
  | map virt pages w x failure =>
    obtain ⟨rfl, low, absent⟩ := fits
    rw [LoadStep.run, wp_mapError]
    exact wp_mono (fun _ _ mapped => mapped) (fun _ _ failed => failed.2)
      (mapPages_succeeds low absent x filling)
  | copy virt bytes =>
    refine wp_mono (fun _ p' copied => ?_) (fun _ _ failed => failed)
      (copyIn_succeeds fits.1 fits.2 filling)
    simpa [LoadStep.pages, LoadStep.surely] using copied
  | filled virt bytes =>
    obtain ⟨low, absent, bound, inside⟩ := fits
    have one : { v | ∃ page < 1, v = regionPage virt page } = { v | v = regionPage virt 0 } := by
      ext v
      simp
    have mapped := mapPages_succeeds low (by simpa using absent) true filling
    rw [one] at mapped
    simp only [LoadStep.run, wp_bind, wp_isOk]
    refine wp_mono ?_ ?_ mapped
    · intro _ p' filling'
      refine wp_mono ?_ (fun _ _ failed => failed)
        (copyIn_succeeds bound (fun i here => .inr (inside i here)) filling')
      rintro _ p'' ⟨A, extra, inv, member, possible, certain⟩
      refine ⟨A, extra, inv, member, possible, fun v here => certain v ?_⟩
      exact .inl (here.resolve_right (Set.notMem_empty v))
    · rintro _ p' ⟨⟨A, extra, inv, member, possible, certain⟩, -⟩
      refine ⟨A, extra, inv, member, possible, fun v here => certain v ?_⟩
      exact here.resolve_right (Set.notMem_empty v)
  | stop e => exact fits.elim

theorem steps_succeed : ∀ {steps : List LoadStep} {maybe sure : Set Nat} {p : Paging},
    Fits maybe sure steps → Filling boot shm f maybe sure p →
    wp (Prog.forEach (LoadStep.run (f * 4096)) steps) (fun _ _ => True)
      (fun _ p' => p'.Dry) p
  | [], _, _, _, _, _ => trivial
  | _ :: _, _, _, _, fits, filling => by
      rw [Prog.forEach, wp_andThen]
      exact wp_mono (fun _ _ filling' => steps_succeed fits.2 filling')
        (fun _ _ failed => failed) (LoadStep.run_succeeds fits.1 filling)

/-- **A plan that fits** is carried out, unless the frames run out. -/
theorem build_succeeds {A : AddressSpaces} {extra : Nat → Nat} (inv : Inv boot A shm extra p)
    {steps : List LoadStep} (fits : Fits ∅ ∅ steps) :
    wp (build steps) (fun _ _ => True) (fun _ p' => p'.Dry) p := by
  simp only [build, createSpace, wp_bind, wp_mapError, wp_pure]
  refine wp_mono ?_ (fun _ _ failed => failed.2.2)
    (wp_and inv.createUserPageTable_spec (Paging.createUserPageTable_leads.spec p))
  rintro _ p' ⟨⟨f, A', rfl, new, inv', roots, view⟩, -⟩
  refine steps_succeed fits ⟨A', extra, inv', ?_, ?_, fun v none_ => none_.elim⟩
  · rw [roots]
    exact Finset.mem_insert_self f A.roots
  · intro v mapped
    obtain ⟨e, entry⟩ := Option.ne_none_iff_exists'.mp mapped
    rw [view] at entry
    exact absurd (inv.rep.view_bound entry).1 new

end Specs

end OxideOS.Proc
