import OxideOS.Mem.Mapping

/-!
# Creating and freeing address spaces

`createUserPageTable_spec`: a new address space is empty and shares the kernel's
upper half. `freeUserPageTable_spec`: freeing an address space drops exactly the
references its tables and leaf entries hold and nothing else.

The teardown reads the tables while it frees them and never clears an entry. The
proof follows it on a second copy of memory in which every entry is cleared when
its subtree has been freed: there the state is well formed after every step
(`freeLevel_spec`), and the two copies agree on all tables that are still in use.
-/

set_option autoImplicit false

namespace OxideOS.Mem

open Lib PageTableFlags PageTableEntry Function AddressSpaces

namespace Inv

variable {boot : Paging} {A : AddressSpaces} {shm : Set Nat} {extra : Nat → Nat} {p : Paging}

/-- The kernel's upper half, as `initL4` copies it. -/
theorem read_kernel_l4 (inv : Inv boot A shm extra p) (i : Nat) :
    p.read p.l4TablePhys i = boot.mem (boot.l4TablePhys / 4096) i := by
  rw [Paging.read, inv.l4, inv.rep.kernel inv.start.kernel_l4]

/-- A pending frame filled by `initL4` is the root of an empty address space. -/
theorem addRoot {f : Nat} (inv : Inv boot A shm (update extra f 1) p)
    (pending : Accounting.Pending boot A shm p.frameAllocator f) :
    f ∉ A.roots ∧ Inv boot { A.setOwn f (some ⟨4, f, 0⟩) with roots := insert f A.roots } shm extra
      (p.initL4 (f * 4096)) := by
  refine ⟨?_, inv.start, ?_, ?_, inv.l4⟩
  · intro member
    have root := inv.rep.root_own member
    rw [pending.data] at root
    cases root
  · rw [Paging.initL4_mem_frame]
    exact inv.rep.addRoot pending.pool pending.data (fun i low => if_pos low)
      (fun i high => (if_neg (by omega)).trans (inv.read_kernel_l4 i))
  · exact inv.acc.makeTable pending _ (Finset.subset_insert _ _)

/-- **A new address space** is empty; the others are as they were. -/
theorem createUserPageTable_spec (inv : Inv boot A shm extra p) :
    Prog.wp Paging.createUserPageTable
      (fun a p' => ∃ f A', a = f * 4096 ∧ f ∉ A.roots ∧ Inv boot A' shm extra p' ∧
        A'.roots = insert f A.roots ∧ A'.view = A.view)
      (fun e p' => e = .exhausted ∧ p' = p) p := by
  unfold Paging.createUserPageTable
  simp only [Prog.wp_bind, Prog.wp_update, Prog.wp_pure]
  refine Prog.wp_mono ?_ (fun _ _ failed => failed) (inv.allocateFrame_spec .exhausted)
  rintro _ p' ⟨f, rfl, -, -, pending, -, inv'⟩
  obtain ⟨new, added⟩ := inv'.addRoot pending
  exact ⟨f, _, rfl, new, added, rfl, rfl⟩

end Inv

/-! ## What a teardown gives back -/

/-- From `fa` to `fa'` frame `f` has lost `n` references. It is free if these were the last. -/
structure Drops (f n : Nat) (fa fa' : PhysicalFrameAllocator) : Prop where
  refcount : fa'.refcount f = fa.refcount f - n
  bitmap : fa'.bitmap f = (fa.bitmap f && (decide (n = 0) || decide (n < fa.refcount f)))

namespace Drops

variable {f n m : Nat} {fa fa' fa'' : PhysicalFrameAllocator}

theorem refl (f : Nat) (fa : PhysicalFrameAllocator) : Drops f 0 fa fa := ⟨rfl, by simp⟩

theorem trans (first : Drops f n fa fa') (second : Drops f m fa' fa'') :
    Drops f (n + m) fa fa'' := by
  refine ⟨by rw [second.refcount, first.refcount, Nat.sub_sub], ?_⟩
  rw [second.bitmap, first.bitmap, first.refcount, Bool.and_assoc]
  congr 1
  rw [Bool.eq_iff_iff]
  simp only [Bool.and_eq_true, Bool.or_eq_true, decide_eq_true_eq]
  omega

theorem freeFrame (bound : f < 65536) (fa : PhysicalFrameAllocator) (a : Nat) :
    Drops f (if a / 4096 = f then 1 else 0) fa (fa.freeFrame a) := by
  unfold PhysicalFrameAllocator.freeFrame PhysicalFrameAllocator.markFree
  dsimp only
  by_cases here : a / 4096 = f
  · subst here
    simp only [if_pos bound, if_true, update_self, Nat.sub_eq_zero_iff_le]
    split
    · next last => exact ⟨update_self .., by simp [last]⟩
    · next shared => exact ⟨update_self .., by simp; omega⟩
  · rw [if_neg here]
    have other : ∀ {β : Type} (g : Nat → β) (b : β), update g (a / 4096) b f = g f :=
      fun g b => update_of_ne (Ne.symm here) b g
    split
    · split <;> exact ⟨other _ _, by simp [other]⟩
    · exact .refl f fa

end Drops

/-- The references to frame `f` that the entries below a table hold. -/
def refsBelow (mem : Nat → Nat → Nat) (f : Nat) : (level table count : Nat) → Nat
  | 0, _, _ => 0
  | level + 1, table, count =>
    ((List.range count).map fun i =>
      let e := mem (table / 4096) i
      if isPresent e then refsBelow mem f level (addr e) 512 + (if addr e / 4096 = f then 1 else 0)
      else 0).sum

/-- The references to frame `f` of an address space: those in its user half, and that to its
root. -/
def refsOf (mem : Nat → Nat → Nat) (cr3 f : Nat) : Nat :=
  refsBelow mem f 4 cr3 256 + if cr3 / 4096 = f then 1 else 0

theorem freeLevel_drops (mem : Nat → Nat → Nat) {f : Nat} (bound : f < 65536) (level : Nat) :
    ∀ (table count : Nat) (fa : PhysicalFrameAllocator),
      Drops f (refsBelow mem f level table count) fa
        (Paging.freeLevel mem level table count fa) := by
  induction level with
  | zero => exact fun _ _ fa => .refl f fa
  | succ level ih =>
    intro table count fa
    refine loop_zero_invariant
      (fun i fa' => Drops f (refsBelow mem f (level + 1) table i) fa fa') ?_ (.refl f fa)
    intro i fa' _ dropped
    have more : refsBelow mem f (level + 1) table (i + 1) = refsBelow mem f (level + 1) table i +
        (if isPresent (mem (table / 4096) i) then
          refsBelow mem f level (addr (mem (table / 4096) i)) 512 +
          (if addr (mem (table / 4096) i) / 4096 = f then 1 else 0) else 0) := by
      simp only [refsBelow, List.range_succ, List.map_append, List.sum_append, List.map_cons,
        List.map_nil, List.sum_singleton]
    rw [more]
    refine dropped.trans ?_
    dsimp only
    split
    · exact (ih _ _ fa').trans (.freeFrame bound _ _)
    · exact .refl f fa'

/-- **A teardown gives an address space back**: every frame loses the references that the
address space holds to it, and no other. -/
theorem freeUserPageTable_drops (cr3 : Nat) (p : Paging) {f : Nat} (bound : f < 65536) :
    Drops f (refsOf p.mem cr3 f) p.frameAllocator (p.freeUserPageTable cr3).frameAllocator :=
  (freeLevel_drops p.mem bound 4 cr3 256 p.frameAllocator).trans (.freeFrame bound _ cr3)

/-! ## Pruning a tree -/

/-- From `(A, g)` to `(A', g')` tables below the given level and leaf entries of
the address space `r` may have gone; what is left is as it was, except for the
entries of the table `t`. -/
structure Pruned (level t r : Nat) (A : AddressSpaces) (g : Nat → Nat → Nat)
    (A' : AddressSpaces) (g' : Nat → Nat → Nat) : Prop where
  roots : A'.roots = A.roots
  own : ∀ {f n}, A'.own f = some n → A.own f = some n
  mem : ∀ {f n}, A'.own f = some n → f ≠ t → g' f = g f
  high : ∀ {f n}, A.own f = some n → level ≤ n.level → A'.own f = some n
  others : ∀ {r' v}, r' ≠ r → A'.view r' v = A.view r' v
  sub : ∀ {r' v e}, A'.view r' v = some e → A.view r' v = some e

namespace Pruned

variable {level t r : Nat} {A A' A'' : AddressSpaces} {g g' g'' : Nat → Nat → Nat}

theorem refl : Pruned level t r A g A g :=
  ⟨rfl, id, fun _ _ => rfl, fun owned _ => owned, fun _ => rfl, id⟩

theorem trans (first : Pruned level t r A g A' g') (second : Pruned level t r A' g' A'' g'') :
    Pruned level t r A g A'' g'' where
  roots := second.roots.trans first.roots
  own := fun owned => first.own (second.own owned)
  mem := fun owned other => (second.mem owned other).trans (first.mem (second.own owned) other)
  high := fun owned above => second.high (first.high owned above) above
  others := fun other => (second.others other).trans (first.others other)
  sub := fun mapped => first.sub (second.sub mapped)

/-- Clearing a leaf entry of `t`. -/
theorem clearLeaf {v i : Nat} :
    Pruned level t r A g (A.setView r v none)
      (update g t (update (g t) i 0)) where
  roots := rfl
  own := id
  mem := fun _ other => update_of_ne other _ _
  high := fun owned _ => owned
  others := fun other => setView_of_ne _ _ fun same => other same.1
  sub := by
    intro r' v' e mapped
    rcases view_setView_cases mapped with ⟨-, -, ⟨⟩⟩ | ⟨-, old⟩
    exact old

/-- Pruning below the table `c` and then unlinking `c` from `t`. -/
theorem unlink {c i : Nat} {n : Node} (below : Pruned level c r A g A' g')
    (owned : A.own c = some n) (at_level : n.level = level) :
    Pruned (level + 1) t r A g (A'.setOwn c none)
      (update g' t (update (g' t) i 0)) where
  roots := below.roots
  own := by
    intro f m here
    by_cases same : f = c
    · subst same
      rw [setOwn_self] at here
      cases here
    · exact below.own ((setOwn_of_ne _ _ same).symm.trans here)
  mem := by
    intro f m here other
    by_cases same : f = c
    · subst same
      rw [setOwn_self] at here
      cases here
    · rw [update_of_ne other]
      exact below.mem ((setOwn_of_ne _ _ same).symm.trans here) same
  high := by
    intro f m here above
    have different : f ≠ c := by
      rintro rfl
      rw [owned] at here
      cases here
      omega
    exact (setOwn_of_ne _ _ different).trans (below.high here (by omega))
  others := below.others
  sub := below.sub

end Pruned

section Free

variable {boot : Paging} {shm : Set Nat} {extra : Nat → Nat}

/-- The loop of `freeLevel` on the copy of memory that is cleared as it goes:
after `i` entries the first `i` are absent and the rest are still those the code
reads. -/
structure FreeState (boot : Paging) (shm : Set Nat) (extra : Nat → Nat)
    (mem : Nat → Nat → Nat) (level t r : Nat) (A : AddressSpaces) (g : Nat → Nat → Nat)
    (i : Nat) (fa : PhysicalFrameAllocator) (A' : AddressSpaces) (g' : Nat → Nat → Nat) : Prop where
  rep : Represents boot A' g'
  acc : Accounting boot A' shm extra fa
  pruned : Pruned level t r A g A' g'
  absent : ∀ j < i, isPresent (g' t j) = false
  ahead : ∀ j, i ≤ j → g' t j = mem t j

/-- **Freeing the subtree below a table.** All of its entries can be cleared
afterwards, and the counters have dropped exactly the references below it. -/
theorem freeLevel_spec (start : Boot boot) {mem : Nat → Nat → Nat} (level : Nat) :
    ∀ {A : AddressSpaces} {g : Nat → Nat → Nat} {fa : PhysicalFrameAllocator} {t r pos : Nat},
      Represents boot A g → Accounting boot A shm extra fa →
      A.own t = some ⟨level, r, pos⟩ →
      (∀ v e, A.view r v = some e → frameOf e ∉ shm) →
      (∀ {f n}, A.own f = some n → n.level < level → g f = mem f) → g t = mem t →
      ∃ A' g', FreeState boot shm extra mem level t r A g (fan level)
        (Paging.freeLevel mem level (t * 4096) (fan level) fa) A' g' := by
  induction level with
  | zero =>
    intro A g fa t r pos rep _ table
    have positive : 1 ≤ 0 := rep.level_pos table
    omega
  | succ level ih =>
    intro A g fa t r pos rep acc table plain agree agreeT
    have top : level + 1 ≤ 4 := rep.level_le table
    let I (i : Nat) (fa' : PhysicalFrameAllocator) : Prop :=
      ∃ A' g', FreeState boot shm extra mem (level + 1) t r A g i fa' A' g'
    have initially : I 0 fa :=
      ⟨A, g, rep, acc, Pruned.refl, fun _ impossible => by omega, fun j _ => by rw [agreeT]⟩
    show I (fan (level + 1)) _
    refine loop_zero_invariant I ?_ initially
    rintro i fa' bound ⟨A', g', state⟩
    have bound' : i < 512 := Nat.lt_of_lt_of_le bound (fan_le _)
    have table' : A'.own t = some ⟨level + 1, r, pos⟩ := state.pruned.high table (Nat.le_refl _)
    have entry : g' t i = mem t i := state.ahead i (Nat.le_refl _)
    simp only [Paging.frame_div]
    split
    case isFalse none =>
      refine ⟨A', g', state.rep, state.acc, state.pruned, ?_, fun j later =>
        state.ahead j (by omega)⟩
      intro j before
      by_cases last : j = i
      · subst last
        rw [entry]
        simpa using none
      · exact state.absent j (by omega)
    case isTrue present =>
      have present' : isPresent (g' t i) = true := by
        rw [entry]
        exact present
      rw [addr_eq_frame]
      by_cases leaf : level = 0
      · subst leaf
        have view := state.rep.leaf table' bound'
        rw [if_pos present', entry] at view
        refine ⟨_, _, ?_, ?_, state.pruned.trans (Pruned.clearLeaf (v := pos * 512 + i) (i := i)),
          ?_, ?_⟩
        · have cleared := state.rep.setLeaf table' bound' 0
          rwa [isPresent_zero] at cleared
        · exact state.acc.unmapLeaf start view fun shared =>
            absurd shared (plain _ _ (state.pruned.sub view))
        · intro j before
          rw [update_self]
          by_cases last : j = i
          · subst last
            rw [update_self]
            rfl
          · rw [update_of_ne last]
            exact state.absent j (by omega)
        · intro j later
          rw [update_self, update_of_ne (by omega)]
          exact state.ahead j (by omega)
      · obtain ⟨child, -⟩ := state.rep.child table' (by omega) bound present'
        rw [entry] at child
        have below : level < 4 := by omega
        have notT : ∀ {f n}, A'.own f = some n → n.level < level + 1 → f ≠ t := by
          rintro f n owned lower rfl
          rw [table'] at owned
          cases owned
          exact Nat.lt_irrefl _ lower
        have agree' : ∀ {f n}, A'.own f = some n → n.level < level + 1 → g' f = mem f := by
          intro f n owned lower
          rw [state.pruned.mem owned (notT owned lower)]
          exact agree (state.pruned.own owned) lower
        obtain ⟨A₁, g₁, inner⟩ := ih state.rep state.acc child
          (fun v e mapped => plain v e (state.pruned.sub mapped))
          (fun owned lower => agree' owned (by omega)) (agree' child (by simp))
        rw [fan_of_lt below] at inner
        have tableT : A₁.own t = some ⟨level + 1, r, pos⟩ := inner.pruned.high table' (by simp)
        have childC := inner.pruned.high child (Nat.le_refl _)
        have sameT : g₁ t = g' t := inner.pruned.mem tableT (Ne.symm (notT child (by simp)))
        refine ⟨_, _, ?_, ?_, state.pruned.trans (inner.pruned.unlink (i := i) child rfl), ?_, ?_⟩
        · exact inner.rep.unlinkTable tableT bound' below childC fun j bound => inner.absent j bound
        · exact inner.acc.freeTable start childC (Finset.Subset.refl _) fun mapped =>
            (inner.acc.bound mapped).1
        · intro j before
          rw [update_self]
          by_cases last : j = i
          · subst last
            rw [update_self]
            rfl
          · rw [update_of_ne last, sameT]
            exact state.absent j (by omega)
        · intro j later
          rw [update_self, update_of_ne (by omega), sameT]
          exact state.ahead j (by omega)

end Free

namespace Inv

variable {boot : Paging} {A : AddressSpaces} {shm : Set Nat} {extra : Nat → Nat} {p : Paging}

/-- **Freeing an address space** that maps no shared-memory frame removes it and
leaves the others as they were. -/
theorem freeUserPageTable_spec (inv : Inv boot A shm extra p) {r : Nat} (member : r ∈ A.roots)
    (plain : ∀ v e, A.view r v = some e → frameOf e ∉ shm) :
    ∃ A', Inv boot A' shm extra (Paging.freeUserPageTable (r * 4096) p) ∧
      A'.roots = A.roots.erase r ∧ (∀ v, A'.view r v = none) ∧
      ∀ {r' v}, r' ≠ r → A'.view r' v = A.view r' v := by
  have root := inv.rep.root_own member
  obtain ⟨A₁, g₁, state⟩ := freeLevel_spec inv.start 4 inv.rep inv.acc root plain
    (fun _ _ => rfl) rfl
  have member₁ : r ∈ A₁.roots := by
    rw [state.pruned.roots]
    exact member
  have removed := state.rep.removeRoot member₁ fun i low => state.absent i low
  have unmapped : ∀ {r' v e}, A₁.view r' v = some e → r' ∈ A₁.roots.erase r :=
    fun mapped => (removed.view_bound mapped).1
  refine ⟨{ A₁.setOwn r none with roots := A₁.roots.erase r },
    ⟨inv.start, ?_, ?_, inv.l4⟩, ?_, ?_, ?_⟩
  · refine removed.congr_mem (fun {f n} owned => ?_) (fun {f} outside => ?_)
    · have different : f ≠ r := by
        rintro rfl
        rw [setOwn_self] at owned
        cases owned
      have owned₁ := (setOwn_of_ne _ _ different).symm.trans owned
      exact (state.pruned.mem owned₁ different).symm
    · rw [removed.kernel outside]
      exact inv.rep.kernel outside
  · exact state.acc.freeTable inv.start (state.rep.root_own member₁)
      (Finset.erase_subset _ _) unmapped
  · rw [state.pruned.roots]
  · intro v
    by_contra mapped
    obtain ⟨e, mapped⟩ := Option.ne_none_iff_exists'.mp mapped
    exact Finset.notMem_erase r _ (unmapped mapped)
  · intro r' v other
    exact state.pruned.others other

end Inv

end OxideOS.Mem
