import OxideOS.Mem.Invariant

/-!
# Mapping and unmapping user pages

Specifications of `map` and `unmap` and of their loops over a region, for pages
of the lower half. `map_spec` says that mapping a pending frame either installs
the one leaf entry, or fails and leaves every mapping as it was; the frame then
stays allocated without being mapped. `unmap_spec` says that unmapping clears one
entry and drops its reference.
-/

set_option autoImplicit false

namespace OxideOS.Mem

open Lib PageTableFlags PageTableEntry Function Paging AddressSpaces
open Prog hiding update

variable {fl r i virt numPages : Nat}

namespace Link

variable {e pf : Nat}

theorem set (link : Link pf) {a : Nat} : Link (PageTableEntry.set a pf) :=
  ⟨by rw [isHuge_set, link.small], by rw [isUser_set, link.user],
    by rw [isWritable_set, link.writable]⟩

theorem merge (old : Link e) (link : Link pf) {a : Nat} :
    Link (PageTableEntry.set a (PageTableFlags.merge (flags e) pf)) := by
  have wide : Link (PageTableFlags.merge (flags e) pf) := by
    refine ⟨?_, ?_, ?_⟩
    · rw [isHuge_merge, isHuge_flags, old.small, link.small, Bool.or_self]
    · rw [isUser_merge, link.user, Bool.or_true]
    · rw [isWritable_merge, link.writable, Bool.or_true]
  exact wide.set

theorem parentTableFlags (user : isUser fl = true) :
    Link (PageTableFlags.parentTableFlags fl) := by
  have bit : fl &&& PageTableFlags.user ≠ 0 := by simpa [isUser] using user
  unfold PageTableFlags.parentTableFlags
  rw [if_pos bit]
  exact ⟨by decide, by decide, by decide⟩

theorem withFlags (link : Link e) {f : Nat} : Link (PageTableEntry.withFlags (f * 4096) e) :=
  ⟨by rw [isHuge_withFlags, link.small], by rw [isUser_withFlags, link.user],
    by rw [isWritable_withFlags, link.writable]⟩

end Link

namespace Inv

variable {boot : Paging} {A : AddressSpaces} {shm : Set Nat} {extra : Nat → Nat} {p : Paging}

/-! ## Walking down the tables -/

/-- A fresh table is linked below an absent entry. -/
theorem linkFresh (inv : Inv boot A shm extra p) {t level pos pf : Nat} (oom : PagingError)
    (table : A.own t = some ⟨level + 1, r, pos⟩) (positive : 1 ≤ level)
    (bound : i < fan (level + 1)) (absent : isPresent (p.mem t i) = false)
    (present : isPresent pf = true) (link : Link pf) :
    wp (do
        let a ← Paging.allocateFrame oom
        Prog.update (·.write (t * 4096) i (PageTableEntry.set a pf))
        Prog.update (·.zero a)
        return a) (fun a p' => ∃ A' f, Inv boot A' shm extra p' ∧ Extends A p A' p' ∧ a = f * 4096 ∧
        A'.own f = some ⟨level, r, pos * 512 + i⟩) (fun e p' => e = oom ∧ p' = p) p := by
  simp only [wp_bind, wp_update, wp_pure]
  refine wp_mono ?_ (fun _ _ failed => failed) (inv.allocateFrame_spec oom)
  rintro a p' ⟨f, rfl, free, other, pending, same, inv'⟩
  have frame : frameOf (PageTableEntry.set (f * 4096) pf) = f :=
    frameOf_set pending.pool.lt_two_pow pf
  refine ⟨A.setOwn f (some ⟨level, r, pos * 512 + i⟩), f, ⟨inv.start, ?_, ?_, inv'.l4⟩, ?_, rfl,
    setOwn_self _ _ _⟩
  · rw [zero_mem_frame, write_mem_frame]
    have absent' : isPresent (p'.mem t i) = false := by
      rw [same]
      exact absent
    exact inv'.rep.linkTable table positive bound absent' pending.pool pending.data
      (by rw [isPresent_set]; exact present) frame link.set
  · exact inv'.acc.makeTable pending _ (Finset.Subset.refl _)
  · refine ⟨rfl, rfl, ?_, ?_⟩
    · intro g used
      have different : g ≠ f := by
        rintro rfl
        rw [free] at used
        cases used
      refine ⟨?_, (other g different).1, setOwn_of_ne _ _ different⟩
      exact (other g different).2.trans used
    · intro g used data
      have different : g ≠ f := by
        rintro rfl
        rw [free] at used
        cases used
      have notTable : g ≠ t := by
        rintro rfl
        rw [table] at data
        cases data
      rw [zero_mem_frame, write_mem_frame, update_of_ne different,
        update_of_ne notTable, same]

/-- What one level of either walk does. -/
structure NextSpec (boot : Paging) (shm : Set Nat) (extra : Nat → Nat)
    (next : Nat → Nat → PagingError → Prog Paging PagingError Nat) : Prop where
  spec : ∀ {A : AddressSpaces} {p : Paging} {t level r pos i : Nat} (oom : PagingError),
    Inv boot A shm extra p → A.own t = some ⟨level + 1, r, pos⟩ → 1 ≤ level →
    i < fan (level + 1) →
    wp (next (t * 4096) i oom)
      (fun a p' => ∃ A' f, Inv boot A' shm extra p' ∧ Extends A p A' p' ∧ a = f * 4096 ∧
        A'.own f = some ⟨level, r, pos * 512 + i⟩)
      (fun e p' => e = oom ∧ p' = p) p

/-- One level of the walk of `map` leads to the table below. -/
theorem nextTable_spec (open' : isUser fl = true) :
    NextSpec boot shm extra fun t i oom => Paging.nextTable t i (parentTableFlags fl) oom := by
  refine ⟨fun {A p t level r pos i} oom inv table positive bound => ?_⟩
  have link := Link.parentTableFlags open'
  unfold Paging.nextTable
  rw [wp_bind, wp_gets, read_frame]
  split
  · next there =>
      obtain ⟨next, old⟩ := inv.rep.child table positive bound there
      have frame : frameOf (PageTableEntry.set (addr (p.mem t i))
          (merge (flags (p.mem t i)) (parentTableFlags fl))) =
          frameOf (p.mem t i) := by
        rw [addr_eq_frame]
        exact frameOf_set (frameOf_lt _) _
      rw [wp_bind, wp_update, wp_gets]
      refine ⟨A, frameOf (p.mem t i), ⟨inv.start, ?_, inv.acc, inv.l4⟩, ?_, ?_, next⟩
      · rw [write_mem_frame]
        refine inv.rep.setParentEntry table positive bound there ?_ frame (old.merge link)
        simp [there]
      · refine ⟨rfl, rfl, fun used => ⟨used, rfl, rfl⟩, ?_⟩
        intro g used data
        have notTable : g ≠ t := by
          rintro rfl
          rw [table] at data
          cases data
        rw [write_mem_frame, update_of_ne notTable]
      · rw [read_frame, write_mem_frame, update_self, update_self,
          addr_eq_frame, frame]
  · next absent =>
      exact inv.linkFresh oom table positive bound (by simpa using absent)
        (isPresent_parentTableFlags fl) link

/-- One level of the walk of `mapPhysLeaf` leads to the table below. -/
theorem nextTablePhys_spec (open' : isUser fl = true) :
    NextSpec boot shm extra fun t i oom => Paging.nextTablePhys t i (parentTableFlags fl) oom := by
  refine ⟨fun {A p t level r pos i} oom inv table positive bound => ?_⟩
  unfold Paging.nextTablePhys
  rw [wp_bind, wp_gets, read_frame]
  split
  · next there =>
      obtain ⟨next, -⟩ := inv.rep.child table positive bound there
      exact ⟨A, frameOf (p.mem t i), inv, Extends.refl, addr_eq_frame _, next⟩
  · next absent =>
      exact inv.linkFresh oom table positive bound (by simpa using absent)
        (isPresent_parentTableFlags fl) (Link.parentTableFlags open')

/-- The three levels above the leaf lead to the L1 table of the page, or stop
for lack of memory with every mapping as it was. -/
theorem walk_spec {next : Nat → Nat → PagingError → Prog Paging PagingError Nat}
    (step : NextSpec boot shm extra next) (inv : Inv boot A shm extra p)
    (member : r ∈ A.roots) (low : LowerHalf virt) {oom3 oom2 oom1 : PagingError}
    {Q : Nat → Paging → Prop} {E : PagingError → Paging → Prop}
    (reached : ∀ A' t p', Inv boot A' shm extra p' → Extends A p A' p' →
      A'.own t = some ⟨1, r, pageNumber virt / 512⟩ → Q (t * 4096) p')
    (failed : ∀ e A' p', Inv boot A' shm extra p' → Extends A p A' p' →
      e = oom3 ∨ e = oom2 ∨ e = oom1 → E e p') :
    wp (next (r * 4096) (l4Index virt) oom3) (fun l3 p₃ =>
      wp (next l3 (l3Index virt) oom2) (fun l2 p₂ =>
        wp (next l2 (l2Index virt) oom1) Q E p₂) E p₃) E p := by
  refine wp_mono ?_ ?_ (step.spec oom3 inv (inv.rep.root_own member) (by decide) low)
  · rintro _ p₃ ⟨A₃, t₃, inv₃, grown₃, rfl, own₃⟩
    refine wp_mono ?_ ?_ (step.spec oom2 inv₃ own₃ (by decide) (l3Index_lt virt))
    · rintro _ p₂ ⟨A₂, t₂, inv₂, grown₂, rfl, own₂⟩
      refine wp_mono ?_ ?_ (step.spec oom1 inv₂ own₂ (by decide) (l2Index_lt virt))
      · rintro _ p₁ ⟨A₁, t₁, inv₁, grown₁, rfl, own₁⟩
        refine reached A₁ t₁ p₁ inv₁ ((grown₃.trans grown₂).trans grown₁) ?_
        rw [own₁, pageNumber_eq virt, div_of_index (l1Index_lt virt)]
      · rintro e p' ⟨rfl, rfl⟩
        exact failed e A₂ p' inv₂ (grown₃.trans grown₂) (.inr (.inr rfl))
    · rintro e p' ⟨rfl, rfl⟩
      exact failed e A₃ p' inv₃ grown₃ (.inr (.inl rfl))
  · rintro e p' ⟨rfl, rfl⟩
    exact failed e A p' inv Extends.refl (.inl rfl)

/-! ## Mapping one page -/

/-- **Mapping a pending frame.** On success the page was unmapped and its leaf
entry is now the frame's; on failure no mapping has changed and the frame is
still pending. -/
theorem map_spec {d : Nat} (inv : Inv boot A shm (update extra d 1) p)
    (pending : Accounting.Pending boot A shm p.frameAllocator d) (member : r ∈ A.roots)
    (low : LowerHalf virt) (present : isPresent fl = true) (private' : isCow fl = false)
    (open' : isUser fl = true) :
    wp (Paging.map (r * 4096) virt (d * 4096) fl)
      (fun _ p' => ∃ A', Inv boot A' shm extra p' ∧ A'.roots = A.roots ∧
        A.view r (pageNumber virt) = none ∧
        A'.view = (A.setView r (pageNumber virt) (some (PageTableEntry.set (d * 4096) fl))).view)
      (fun e p' => ∃ A', Inv boot A' shm (update extra d 1) p' ∧ Extends A p A' p' ∧
        (e = .pageAlreadyMapped ∧ A.view r (pageNumber virt) ≠ none ∨
          e = .oomL3Table ∨ e = .oomL2Table ∨ e = .oomL1Table)) p := by
  unfold Paging.map
  simp only [wp_bind]
  refine walk_spec (nextTable_spec open') inv member low ?_ ?_
  · intro A' t p' inv' grown table
    have leaf := inv'.rep.leaf table (l1Index_lt virt)
    rw [l1Index_eq, Nat.div_add_mod', grown.view, ← l1Index_eq] at leaf
    rw [wp_gets, read_frame]
    split
    · next there =>
        refine ⟨A', inv', grown, .inl ⟨rfl, ?_⟩⟩
        rw [leaf, if_pos there]
        simp
    · next absent =>
        rw [if_neg absent] at leaf
        have frame : frameOf (PageTableEntry.set (d * 4096) fl) = d :=
          frameOf_set pending.pool.lt_two_pow fl
        have pending' := inv.pending_extends grown pending
        refine ⟨A'.setView r (pageNumber virt) (some (PageTableEntry.set (d * 4096) fl)),
          ⟨inv.start, ?_, ?_, inv'.l4⟩, grown.roots, leaf, ?_⟩
        · have set := inv'.rep.setLeaf table (l1Index_lt virt) (PageTableEntry.set (d * 4096) fl)
          rw [isPresent_set, present, if_pos rfl] at set
          rw [write_mem_frame]
          rwa [l1Index_eq, Nat.div_add_mod', ← l1Index_eq] at set
        · refine inv'.acc.mapFresh pending' ?_ ((lowerHalf_iff virt).mp low) ?_ frame ?_
          · rw [grown.roots]
            exact member
          · rw [grown.view]
            exact leaf
          · rw [isCow_set]
            exact fun _ => private'
        · simp only [AddressSpaces.setView, grown.view]
  · intro e A' p' inv' grown oom
    exact ⟨A', inv', grown, .inr oom⟩

end Inv

/-! ## Mapping a region -/

/-- The page number of page `page` of the region that starts at `virt`. -/
def regionPage (virt page : Nat) : Nat := pageNumber (Paging.pageVirt virt page)

/-- Every page of the region lies in the lower half. -/
def LowerRegion (virt numPages : Nat) : Prop :=
  ∀ page < numPages, LowerHalf (Paging.pageVirt virt page)

instance (virt numPages : Nat) : Decidable (LowerRegion virt numPages) :=
  inferInstanceAs (Decidable (∀ page < numPages, LowerHalf (Paging.pageVirt virt page)))

theorem regionPage_eq (virt page : Nat) :
    regionPage virt page = (virt / 4096 + page) % 2 ^ 36 := by
  rw [regionPage, pageNumber, Paging.pageVirt]
  omega

/-- A region inside the lower half does not come back to one of its own pages:
it would have to cross the upper half. -/
theorem regionPage_ne {j : Nat} (low : LowerRegion virt numPages) (order : i < j)
    (bound : j < numPages) : regionPage virt i ≠ regionPage virt j := by
  intro same
  have lowI := (lowerHalf_iff _).mp (low i (by omega))
  have lowMid := (lowerHalf_iff _).mp (low (i + 2 ^ 35) (by
    simp only [regionPage_eq] at same
    omega))
  rw [← regionPage, regionPage_eq, userPages] at lowI lowMid
  omega

/-- From `A` to `A'` pages of `r` may have been mapped; what was mapped is still
mapped as it was. -/
structure MapsMore (A A' : AddressSpaces) (r : Nat) : Prop where
  roots : A'.roots = A.roots
  kept : ∀ {r' v e}, A.view r' v = some e → A'.view r' v = some e
  others : ∀ {r' v}, r' ≠ r → A'.view r' v = A.view r' v

namespace MapsMore

variable {A A' A'' : AddressSpaces} {r : Nat}

theorem refl : MapsMore A A r := ⟨rfl, id, fun _ => rfl⟩

theorem trans (first : MapsMore A A' r) (second : MapsMore A' A'' r) : MapsMore A A'' r where
  roots := second.roots.trans first.roots
  kept := fun mapped => second.kept (first.kept mapped)
  others := fun other => (second.others other).trans (first.others other)

theorem of_view_eq (roots : A'.roots = A.roots) (view : A'.view = A.view) : MapsMore A A' r where
  roots := roots
  kept := fun mapped => by rw [view]; exact mapped
  others := fun _ => by rw [view]

/-- Mapping one unmapped page. -/
theorem of_setView {v : Nat} {e : Option Nat} (roots : A'.roots = A.roots)
    (view : A'.view = (A.setView r v e).view) (absent : A.view r v = none) : MapsMore A A' r where
  roots := roots
  kept := by
    intro r' v' e' mapped
    rw [view, setView_of_ne]
    · exact mapped
    · rintro ⟨rfl, rfl⟩
      rw [absent] at mapped
      cases mapped
  others := by
    intro r' v' other
    rw [view, setView_of_ne _ _ fun same => other same.1]

end MapsMore

/-- From `A` to `A'` pages of the region may have been mapped, with the flags
`fl`. -/
structure MapsRegion (A A' : AddressSpaces) (r virt numPages fl : Nat) : Prop
    extends MapsMore A A' r where
  entries : ∀ {v e}, A'.view r v = some e → A.view r v = some e ∨
    (∃ page < numPages, v = regionPage virt page) ∧ ∃ d, e = PageTableEntry.set (d * 4096) fl

namespace Inv

variable {boot : Paging} {A : AddressSpaces} {shm : Set Nat} {extra : Nat → Nat} {p : Paging}

/-- One iteration of `mapUserRegionIn`. -/
theorem mapPage_spec (inv : Inv boot A shm extra p) (member : r ∈ A.roots)
    (low : LowerHalf virt) (w x : Bool) :
    wp (do
        let phys ← Paging.allocateFrame .outOfFrames
        Prog.update (·.zero phys)
        Paging.map (r * 4096) virt phys (userFlags w x))
      (fun _ p' => ∃ A' d, Inv boot A' shm extra p' ∧ A'.roots = A.roots ∧
        A.view r (pageNumber virt) = none ∧
        A'.view = (A.setView r (pageNumber virt)
          (some (PageTableEntry.set (d * 4096) (userFlags w x)))).view)
      (fun e p' => ∃ A' extra', Inv boot A' shm extra' p' ∧ A'.roots = A.roots ∧
        A'.view = A.view ∧ (e = .pageAlreadyMapped ∧ A.view r (pageNumber virt) ≠ none ∨
          e.isOutOfMemory = true)) p := by
  simp only [wp_bind, wp_update]
  refine wp_mono ?_ ?_ (inv.allocateFrame_spec .outOfFrames)
  · rintro _ p' ⟨d, rfl, -, -, pending, -, inv'⟩
    have zeroed : Inv boot A shm (update extra d 1) (p'.zero (d * 4096)) := by
      refine ⟨inv.start, ?_, inv'.acc, inv'.l4⟩
      rw [zero_mem_frame]
      exact inv'.rep.setData pending.pool pending.data _
    refine wp_mono ?_ ?_ (zeroed.map_spec pending member low (isPresent_userFlags w x)
      (isCow_userFlags w x) (isUser_userFlags w x))
    · rintro _ p'' ⟨A', inv'', roots, absent, view⟩
      exact ⟨A', _, inv'', roots, absent, view⟩
    · rintro e p'' ⟨A', inv'', grown, reason⟩
      refine ⟨A', _, inv'', grown.roots, grown.view, ?_⟩
      rcases reason with already | rfl | rfl | rfl
      · exact .inl already
      · exact .inr rfl
      · exact .inr rfl
      · exact .inr rfl
  · rintro e p' ⟨rfl, rfl⟩
    exact ⟨A, extra, inv, rfl, rfl, .inr rfl⟩

/-- **Mapping a region.** Nothing that was mapped changes. On success every page of
the region was unmapped and is mapped now; a failure is a lack of memory or a page
of the region that was mapped before the call. -/
theorem mapUserRegionIn_spec (inv : Inv boot A shm extra p)
    (member : r ∈ A.roots) (low : LowerRegion virt numPages) (w x : Bool) :
    wp (Paging.mapUserRegionIn (r * 4096) virt numPages w x)
      (fun _ p' => ∃ A', Inv boot A' shm extra p' ∧
        MapsRegion A A' r virt numPages (userFlags w x) ∧
        ∀ page < numPages, A.view r (regionPage virt page) = none ∧
          A'.view r (regionPage virt page) ≠ none)
      (fun e p' => ∃ A' extra', Inv boot A' shm extra' p' ∧
        MapsRegion A A' r virt numPages (userFlags w x) ∧
        (e = .pageAlreadyMapped ∧ (∃ page < numPages, A.view r (regionPage virt page) ≠ none) ∨
          e.isOutOfMemory = true)) p := by
  unfold Paging.mapUserRegionIn
  let I (i : Nat) (p' : Paging) : Prop := ∃ A', Inv boot A' shm extra p' ∧
    MapsRegion A A' r virt numPages (userFlags w x) ∧
    (∀ j < i, A.view r (regionPage virt j) = none ∧ A'.view r (regionPage virt j) ≠ none) ∧
    ∀ v, (∀ j < i, v ≠ regionPage virt j) → A'.view r v = A.view r v
  have initially : I 0 p :=
    ⟨A, inv, ⟨MapsMore.refl, .inl⟩, fun j none => absurd none (Nat.not_lt_zero j), fun _ _ => rfl⟩
  refine wp_mono ?_ (fun _ _ failed => failed) (wp_forRange_zero I ?_ initially)
  · rintro _ p' ⟨A', inv', more, mapped, -⟩
    exact ⟨A', inv', more, mapped⟩
  · rintro page p' bound ⟨A', inv', more, mapped, fresh⟩
    have same : A'.view r (regionPage virt page) = A.view r (regionPage virt page) :=
      fresh _ fun j before => (regionPage_ne low before bound).symm
    have memberA' : r ∈ A'.roots := by
      rw [more.roots]
      exact member
    refine wp_mono ?_ ?_ (inv'.mapPage_spec memberA' (low page bound) w x)
    · rintro _ p'' ⟨A'', d, inv'', roots, absent, view⟩
      have step : MapsMore A' A'' r := MapsMore.of_setView roots view absent
      refine ⟨A'', inv'', ⟨more.toMapsMore.trans step, ?_⟩, ?_, ?_⟩
      · intro v e here
        by_cases new : v = regionPage virt page
        · subst new
          rw [view, ← regionPage, setView_self] at here
          cases here
          exact .inr ⟨⟨page, bound, rfl⟩, d, rfl⟩
        · rw [view, ← regionPage, setView_of_ne _ _ fun equal => new equal.2] at here
          exact more.entries here
      · intro j before
        by_cases last : j = page
        · subst last
          refine ⟨same ▸ absent, ?_⟩
          rw [view, ← regionPage, setView_self]
          simp
        · obtain ⟨unmapped, there⟩ := mapped j (by omega)
          refine ⟨unmapped, ?_⟩
          obtain ⟨e, there⟩ := Option.ne_none_iff_exists'.mp there
          rw [step.kept there]
          simp
      · intro v untouched
        rw [view, setView_of_ne]
        · exact fresh v fun j before => untouched j (by omega)
        · rintro ⟨-, rfl⟩
          exact untouched page (by omega) rfl
    · rintro e p'' ⟨A'', extra', inv'', roots, view, reason⟩
      refine ⟨A'', extra', inv'', ⟨more.toMapsMore.trans (MapsMore.of_view_eq roots view), ?_⟩, ?_⟩
      · intro v e here
        rw [view] at here
        exact more.entries here
      · rcases reason with ⟨rfl, mapped⟩ | oom
        · refine .inl ⟨rfl, page, bound, ?_⟩
          rw [← same]
          exact mapped
        · exact .inr oom

end Inv

/-! ## Reading a translation -/

namespace Represents

variable {boot : Paging} {A : AddressSpaces} {mem : Nat → Nat → Nat}

/-- The tables on the way to a page of the lower half, as far as they exist. -/
theorem tables_of_present (rep : Represents boot A mem) (member : r ∈ A.roots)
    (low : LowerHalf virt) (present₄ : isPresent (mem r (l4Index virt)) = true) :
    A.own (frameOf (mem r (l4Index virt))) = some ⟨3, r, 0 * 512 + l4Index virt⟩ ∧
      isHuge (mem r (l4Index virt)) = false :=
  have child := rep.child (rep.root_own member) (by decide) low present₄
  ⟨child.1, child.2.small⟩

/-- Where the tables end before the leaf, nothing is mapped. -/
theorem view_none_of_no_table (rep : Represents boot A mem) {v : Nat}
    (missing : (∀ f, A.own f ≠ some ⟨3, r, v / 512 / 512 / 512⟩) ∨
      (∀ f, A.own f ≠ some ⟨2, r, v / 512 / 512⟩) ∨ (∀ f, A.own f ≠ some ⟨1, r, v / 512⟩)) :
    A.view r v = none := by
  refine rep.unmapped fun f table₁ => ?_
  obtain ⟨g, table₂, -⟩ := rep.parent table₁ (by decide)
  obtain ⟨h, table₃, -⟩ := rep.parent table₂ (by decide)
  rcases missing with none | none | none
  · exact none h table₃
  · exact none g table₂
  · exact none f table₁

end Represents

namespace Paging

theorem wp_presentEntry {t : Nat} {missing : PagingError} {p : Paging}
    {Q : Nat → Paging → Prop} {E : PagingError → Paging → Prop} :
    wp (presentEntry (t * 4096) i missing) Q E p ↔
      if isPresent (p.mem t i) then Q (p.mem t i) p else E missing p := by
  unfold presentEntry
  rw [wp_bind, wp_gets, read_frame]
  split <;> rfl

end Paging

namespace Inv

variable {boot : Paging} {A : AddressSpaces} {shm : Set Nat} {extra : Nat → Nat} {p : Paging}

/-- **Unmapping one page.** On success the page was mapped, its entry is gone
and its reference dropped; on failure nothing has changed. The page must not
be mapped to a shared-memory frame. -/
theorem unmap_spec (inv : Inv boot A shm extra p) (member : r ∈ A.roots) (low : LowerHalf virt)
    (plain : ∀ e, A.view r (pageNumber virt) = some e → frameOf e ∉ shm) :
    wp (Paging.unmap (r * 4096) virt)
      (fun a p' => ∃ e, A.view r (pageNumber virt) = some e ∧ a = addr e ∧
        Inv boot (A.setView r (pageNumber virt) none) shm extra p')
      (fun _ p' => A.view r (pageNumber virt) = none ∧ p' = p) p := by
  have rep := inv.rep
  have position := pageNumber_eq virt
  have div₁ : pageNumber virt / 512 =
      ((0 * 512 + l4Index virt) * 512 + l3Index virt) * 512 + l2Index virt := by
    rw [position, div_of_index (l1Index_lt virt)]
  have div₂ : pageNumber virt / 512 / 512 = (0 * 512 + l4Index virt) * 512 + l3Index virt := by
    rw [div₁, div_of_index (l2Index_lt virt)]
  have div₃ : pageNumber virt / 512 / 512 / 512 = 0 * 512 + l4Index virt := by
    rw [div₂, div_of_index (l3Index_lt virt)]
  unfold Paging.unmap
  simp only [wp_bind, wp_update, wp_pure]
  rw [wp_presentEntry]
  split
  case isFalse absent =>
    refine ⟨rep.view_none_of_no_table (.inl ?_), rfl⟩
    rw [div₃]
    exact rep.no_table (rep.root_own member) (by decide) (l4Index_lt virt) (by simpa using absent)
  case isTrue present₄ =>
    obtain ⟨table₃, -⟩ := rep.tables_of_present member low present₄
    rw [addr_eq_frame, wp_presentEntry]
    split
    case isFalse absent =>
      refine ⟨rep.view_none_of_no_table (.inr (.inl ?_)), rfl⟩
      rw [div₂]
      exact rep.no_table table₃ (by decide) (l3Index_lt virt) (by simpa using absent)
    case isTrue present₃ =>
      obtain ⟨table₂, -⟩ := rep.child table₃ (by decide) (l3Index_lt virt) present₃
      rw [addr_eq_frame, wp_presentEntry]
      split
      case isFalse absent =>
        refine ⟨rep.view_none_of_no_table (.inr (.inr ?_)), rfl⟩
        rw [div₁]
        exact rep.no_table table₂ (by decide) (l2Index_lt virt) (by simpa using absent)
      case isTrue present₂ =>
        obtain ⟨table₁, -⟩ := rep.child table₂ (by decide) (l2Index_lt virt) present₂
        have leaf := rep.leaf table₁ (l1Index_lt virt)
        rw [← position] at leaf
        rw [addr_eq_frame, wp_presentEntry]
        split
        case isFalse absent => exact ⟨leaf.trans (if_neg absent), rfl⟩
        case isTrue present₁ =>
          rw [if_pos present₁] at leaf
          refine ⟨_, leaf, rfl, ⟨inv.start, ?_, ?_, inv.l4⟩⟩
          · rw [freeFrame_mem, write_mem_frame]
            have cleared := rep.setLeaf table₁ (l1Index_lt virt) 0
            rwa [isPresent_zero, ← position] at cleared
          · rw [freeFrame_frameAllocator, addr_eq_frame]
            exact inv.acc.unmapLeaf inv.start leaf fun shared => absurd shared (plain _ leaf)

/-- **Unmapping a region.** The pages of the region are unmapped, every other
page is as it was, and each cleared entry has dropped its reference. -/
theorem unmapUserRegionIn_spec (inv : Inv boot A shm extra p)
    (member : r ∈ A.roots) (low : LowerRegion virt numPages)
    (plain : ∀ page < numPages, ∀ e, A.view r (regionPage virt page) = some e → frameOf e ∉ shm) :
    ∃ A', Inv boot A' shm extra (Paging.unmapUserRegionIn (r * 4096) virt numPages p) ∧
      A'.roots = A.roots ∧ (∀ page < numPages, A'.view r (regionPage virt page) = none) ∧
      ∀ r' v, r' ≠ r ∨ (∀ page < numPages, v ≠ regionPage virt page) →
        A'.view r' v = A.view r' v := by
  let I (i : Nat) (p' : Paging) : Prop := ∃ A', Inv boot A' shm extra p' ∧ A'.roots = A.roots ∧
    (∀ page < i, A'.view r (regionPage virt page) = none) ∧
    ∀ r' v, r' ≠ r ∨ (∀ page < i, v ≠ regionPage virt page) → A'.view r' v = A.view r' v
  have initially : I 0 p := ⟨A, inv, rfl, fun _ absurd => by omega, fun _ _ _ => rfl⟩
  unfold Paging.unmapUserRegionIn
  show I numPages _
  refine loop_zero_invariant I ?_ initially
  rintro page p' bound ⟨A', inv', roots, cleared, kept⟩
  have same : A'.view r (regionPage virt page) = A.view r (regionPage virt page) :=
    kept r _ (.inr fun j before => (regionPage_ne low before bound).symm)
  have memberA' : r ∈ A'.roots := by
    rw [roots]
    exact member
  refine wp_state.mp (wp_mono ?_ ?_ (inv'.unmap_spec memberA' (low page bound) ?_))
  · rintro _ p'' ⟨e, mapped, -, inv''⟩
    refine ⟨_, inv'', roots, ?_, ?_⟩
    · intro j before
      by_cases last : j = page
      · subst last
        exact setView_self _ _ _ _
      · rw [setView_of_ne]
        · exact cleared j (by omega)
        · rintro ⟨-, equal⟩
          exact regionPage_ne low (by omega : j < page) bound equal
    · intro r' v outside
      rw [setView_of_ne]
      · refine kept r' v (outside.imp_right fun away j before => away j (by omega))
      · rintro ⟨rfl, rfl⟩
        rcases outside with other | away
        · exact other rfl
        · exact away page (by omega) rfl
  · rintro _ p'' ⟨absent, rfl⟩
    refine ⟨A', inv', roots, ?_, fun r' v outside =>
      kept r' v (outside.imp_right fun away j before => away j (by omega))⟩
    intro j before
    by_cases last : j = page
    · subst last
      exact absent
    · exact cleared j (by omega)
  · intro e mapped
    rw [← regionPage, same] at mapped
    exact plain page bound e mapped

end Inv

end OxideOS.Mem
