import OxideOS.Mem.Teardown

/-!
# Forking an address space copy-on-write

`cowForkUserPageTable_spec`: whatever the fork does before it succeeds or runs
out of memory, the state stays well formed. The parent keeps every mapping, at
most without write access, every other address space is as it was, and each page
of the child is a copy of the parent's (`LeafCopy`): the same entry in the
shared-memory ranges, and elsewhere a frame of its own or the same frame without
write access. After a success the child has all of the parent's pages.

The induction is on the table level. Source and destination are walked at the
same position; at level one each of the three kinds of leaf is one
accounting step (`shareVerbatim`, `copyLeaf`, `shareCow`).
-/

set_option autoImplicit false

namespace OxideOS.Mem

open Lib PageTableFlags PageTableEntry Function Paging AddressSpaces
open Prog hiding update

/-- The page lies in one of the shared-memory ranges. -/
def sharedPage (shmRanges : List (Nat × Nat)) (v : Nat) : Bool :=
  shmRanges.any (Paging.inRange (v * 4096))

/-- The entry of a page of the parent after the fork, if that is not the entry it
had: the same frame without write access. -/
def cowEntry (e : Nat) : Nat := withFlags (frameOf e * 4096) (asCow (flags e))

/-- The entry `e'` of the child for a page `v` that the parent maps with `e`. -/
inductive LeafCopy (shmRanges : List (Nat × Nat)) (v e : Nat) : (e' : Nat) → Prop
  | verbatim : sharedPage shmRanges v = true → LeafCopy shmRanges v e e
  | copied {f : Nat} : sharedPage shmRanges v = false → f < 2 ^ 40 →
      LeafCopy shmRanges v e (withFlags (f * 4096) e)
  | readonly : sharedPage shmRanges v = false → isWritable e = false →
      LeafCopy shmRanges v e (withFlags (frameOf e * 4096) (flags e))
  | lowered : sharedPage shmRanges v = false → isWritable e = true →
      LeafCopy shmRanges v e (cowEntry e)

/-- From `(A, p)` to `(A', p')` a fork from `src` to `dst` has worked on tables of
at most the given level. -/
structure Forked (shmRanges : List (Nat × Nat)) (level src dst : Nat)
    (A : AddressSpaces) (p : Paging) (A' : AddressSpaces) (p' : Paging) : Prop where
  roots : A'.roots = A.roots
  own : ∀ {f n}, A.own f = some n → A'.own f = some n
  mem : ∀ {f n}, A.own f = some n → level < n.level → p'.mem f = p.mem f
  others : ∀ {r v}, r ≠ src → r ≠ dst → A'.view r v = A.view r v
  source : ∀ v, A'.view src v = A.view src v ∨
    ∃ e, A.view src v = some e ∧ A'.view src v = some (cowEntry e) ∧
      A'.view dst v = some (cowEntry e) ∧ isWritable e = true ∧ sharedPage shmRanges v = false
  target : ∀ {v e'}, A'.view dst v = some e' → A.view dst v = some e' ∨
    ∃ e, A.view src v = some e ∧ LeafCopy shmRanges v e e'
  kept : ∀ {v e'}, A.view dst v = some e' → A'.view dst v = some e'

theorem frameOf_cowEntry (e : Nat) : frameOf (cowEntry e) = frameOf e :=
  frameOf_withFlags (frameOf_lt e) _

@[simp] theorem isWritable_cowEntry (e : Nat) : isWritable (cowEntry e) = false := by
  simp [cowEntry]

variable {v level src dst t pos : Nat}

namespace Forked

variable {shmRanges : List (Nat × Nat)} {level level' src dst : Nat}
variable {A A' A'' : AddressSpaces} {p p' p'' : Paging}

theorem refl : Forked shmRanges level src dst A p A p :=
  ⟨rfl, id, fun _ _ => rfl, fun _ _ => rfl, fun _ => .inl rfl, .inl, id⟩

theorem mono (forked : Forked shmRanges level src dst A p A' p') (more : level ≤ level') :
    Forked shmRanges level' src dst A p A' p' :=
  { forked with mem := fun owned above => forked.mem owned (by omega) }

theorem trans (first : Forked shmRanges level src dst A p A' p')
    (second : Forked shmRanges level src dst A' p' A'' p'') :
    Forked shmRanges level src dst A p A'' p'' where
  roots := second.roots.trans first.roots
  own := fun owned => second.own (first.own owned)
  mem := fun owned above => (second.mem (first.own owned) above).trans (first.mem owned above)
  others := fun notSrc notDst => (second.others notSrc notDst).trans (first.others notSrc notDst)
  source := by
    intro v
    rcases second.source v with same | ⟨e, before, after, copy, writable, outside⟩
    · rcases first.source v with same' | ⟨e, before, middle, copy, writable, outside⟩
      · exact .inl (same.trans same')
      · exact .inr ⟨e, before, same.trans middle, second.kept copy, writable, outside⟩
    · rcases first.source v with same | ⟨d, -, middle, -, -, -⟩
      · exact .inr ⟨e, same ▸ before, after, copy, writable, outside⟩
      · rw [middle] at before
        cases before
        rw [isWritable_cowEntry] at writable
        cases writable
  target := by
    intro v e' mapped
    rcases second.target mapped with before | ⟨d, middle, copy⟩
    · exact first.target before
    · rcases first.source v with same | ⟨e, before, -, copied, writable, outside⟩
      · exact .inr ⟨d, same ▸ middle, copy⟩
      · rw [second.kept copied] at mapped
        cases mapped
        exact .inr ⟨e, before, .lowered outside writable⟩
  kept := fun mapped => second.kept (first.kept mapped)

section

variable (forked : Forked shmRanges level src dst A p A' p')
include forked

/-- The frame of each page of the parent stays. -/
theorem source_frame {e : Nat} (mapped : A'.view src v = some e) :
    ∃ d, A.view src v = some d ∧ frameOf e = frameOf d := by
  rcases forked.source v with same | ⟨d, before, after, -⟩
  · exact ⟨e, same ▸ mapped, rfl⟩
  · rw [mapped] at after
    cases after
    exact ⟨d, before, frameOf_cowEntry d⟩

/-- The pages of the parent stay mapped. -/
theorem source_mapped (mapped : A.view src v ≠ none) : A'.view src v ≠ none := by
  rcases forked.source v with same | ⟨d, -, after, -⟩
  · rwa [same]
  · simp [after]

/-- The pages of the child stay mapped. -/
theorem target_mapped (mapped : A.view dst v ≠ none) : A'.view dst v ≠ none := by
  obtain ⟨e, entry⟩ := Option.ne_none_iff_exists'.mp mapped
  simp [forked.kept entry]

end

end Forked

/-- Every page of `src` in a shared-memory range is mapped to a shared frame. -/
def SharedPages (shmRanges : List (Nat × Nat)) (shm : Set Nat) (A : AddressSpaces)
    (src : Nat) : Prop :=
  ∀ v e, A.view src v = some e → sharedPage shmRanges v = true → frameOf e ∈ shm

variable {shmRanges : List (Nat × Nat)} {A' : AddressSpaces} {p' : Paging}

theorem SharedPages.forked {shm : Set Nat} {A : AddressSpaces}
    {p : Paging} (shared : SharedPages shmRanges shm A src)
    (forked : Forked shmRanges level src dst A p A' p') : SharedPages shmRanges shm A' src := by
  intro v e mapped inside
  obtain ⟨d, before, frame⟩ := forked.source_frame mapped
  rw [frame]
  exact shared v d before inside

/-- The pages below a position of the tree that the parent maps, the child maps. -/
def Covered (level pos src dst : Nat) (A A' : AddressSpaces) : Prop :=
  ∀ v, v / 512 ^ level = pos → A.view src v ≠ none → A'.view dst v ≠ none

namespace Represents

variable {boot : Paging} {A : AddressSpaces} {mem : Nat → Nat → Nat}

variable {r : Nat}

/-- Above a mapped page there is a table of every level. -/
theorem table_above (rep : Represents boot A mem) (mapped : A.view r v ≠ none)
    (level : Nat) (few : level < 4) :
    ∃ t, A.own t = some ⟨level + 1, r, v / 512 ^ (level + 1)⟩ := by
  induction level with
  | zero =>
    obtain ⟨e, entry⟩ := Option.ne_none_iff_exists'.mp mapped
    obtain ⟨t, table, -⟩ := rep.leaf_table entry
    exact ⟨t, table⟩
  | succ level ih =>
    obtain ⟨t, table⟩ := ih (by omega)
    obtain ⟨q, above, -⟩ := rep.parent table few
    rw [Nat.div_div_eq_div_mul, ← Nat.pow_succ] at above
    exact ⟨q, above⟩

/-- Below an entry that is not present nothing is mapped. -/
theorem covered_of_absent (rep : Represents boot A mem) {i : Nat}
    (table : A.own t = some ⟨level + 1 + 1, r, pos⟩) (few : level + 1 < 4) (bound : i < 512)
    (absent : isPresent (mem t i) = false) (A' : AddressSpaces) :
    Covered (level + 1) (pos * 512 + i) r dst A A' := by
  intro v below mapped
  obtain ⟨f, owned⟩ := rep.table_above mapped level (by omega)
  rw [below] at owned
  exact absurd owned (rep.no_table table few bound absent f)

/-- The pages below a table are those below its entries. -/
theorem covered_of_entries (rep : Represents boot A mem)
    (table : A.own t = some ⟨level + 1, r, pos⟩)
    (entries : ∀ i < fan (level + 1), Covered level (pos * 512 + i) r dst A A') :
    Covered (level + 1) pos r dst A A' := by
  intro v below mapped
  have split : v / 512 ^ level / 512 = pos := by
    rw [Nat.div_div_eq_div_mul, ← Nat.pow_succ, below]
  have index : v / 512 ^ level % 512 < fan (level + 1) := by
    by_cases top : level + 1 = 4
    · obtain rfl : level = 3 := by omega
      obtain ⟨e, entry⟩ := Option.ne_none_iff_exists'.mp mapped
      have bound := (rep.view_bound entry).2
      unfold userPages at bound
      show v / 512 ^ 3 % 512 < 256
      omega
    · have few := rep.level_le table
      rw [fan_of_lt (Nat.lt_of_le_of_ne few top)]
      exact Nat.mod_lt _ (by decide)
  exact entries _ index v (by omega) mapped

end Represents

/-- What is copied later is copied. -/
theorem Covered.forked {level' : Nat}
    {A A'' : AddressSpaces} {p : Paging} (covered : Covered level pos src dst A A')
    (forked : Forked shmRanges level' src dst A' p A'' p') : Covered level pos src dst A A'' :=
  fun v below mapped => forked.target_mapped (covered v below mapped)

/-! ## One leaf -/

namespace Inv

variable {boot : Paging} {A : AddressSpaces} {shm : Set Nat} {extra : Nat → Nat} {p : Paging}
variable {shmRanges : List (Nat × Nat)} {src dst s d pos i e : Nat}

/-- Both tables are the L1 tables of the same position, the source entry is
present and the destination entry is not. -/
structure ForkLeaf (A : AddressSpaces) (p : Paging) (src dst s d pos i e : Nat) : Prop where
  different : src ≠ dst
  source : A.own s = some ⟨1, src, pos⟩
  target : A.own d = some ⟨1, dst, pos⟩
  bound : i < 512
  entry : p.mem s i = e
  present : isPresent e = true
  absent : isPresent (p.mem d i) = false

variable {e' : Nat}

namespace ForkLeaf

variable (at_leaf : ForkLeaf A p src dst s d pos i e) (inv : Inv boot A shm extra p)
include at_leaf

theorem tables_ne : s ≠ d := by
  rintro rfl
  have same := at_leaf.source.symm.trans at_leaf.target
  cases same
  exact at_leaf.different rfl

include inv

theorem view_source : A.view src (pos * 512 + i) = some e := by
  have leaf := inv.rep.leaf at_leaf.source at_leaf.bound
  rwa [at_leaf.entry, if_pos at_leaf.present] at leaf

theorem view_target : A.view dst (pos * 512 + i) = none := by
  have leaf := inv.rep.leaf at_leaf.target at_leaf.bound
  rwa [at_leaf.absent] at leaf

/-- Writing the destination entry only. -/
theorem forked_target (copy : LeafCopy shmRanges (pos * 512 + i) e e')
    (mem : ∀ f, f ≠ d → A.own f ≠ none → p'.mem f = p.mem f) :
    Forked shmRanges 1 src dst A p (A.setView dst (pos * 512 + i) (some e')) p' where
  roots := rfl
  own := id
  mem := by
    intro f n owned above
    refine mem f ?_ (by simp [owned])
    rintro rfl
    rw [at_leaf.target] at owned
    cases owned
    exact Nat.lt_irrefl _ above
  others := fun _ notDst => setView_of_ne _ _ fun same => notDst same.1
  source := fun v => .inl (setView_of_ne _ _ fun same => at_leaf.different same.1)
  target := by
    intro v e'' mapped
    rcases view_setView_cases mapped with ⟨-, rfl, new⟩ | ⟨-, old⟩
    · cases new
      exact .inr ⟨e, at_leaf.view_source inv, copy⟩
    · exact .inl old
  kept := by
    intro v e'' mapped
    rw [setView_of_ne, mapped]
    rintro ⟨-, rfl⟩
    rw [at_leaf.view_target inv] at mapped
    cases mapped

theorem page_bound : dst ∈ A.roots ∧ pos * 512 + i < userPages :=
  ⟨inv.rep.own_member at_leaf.target, (inv.acc.bound (at_leaf.view_source inv)).2⟩

/-- A page of a shared-memory range: the same entry, no reference. -/
theorem shareVerbatim (shared : frameOf e ∈ shm) :
    Inv boot (A.setView dst (pos * 512 + i) (some e)) shm extra (p.write (d * 4096) i e) := by
  obtain ⟨member, bound⟩ := at_leaf.page_bound inv
  refine ⟨inv.start, ?_, ?_, inv.l4⟩
  · have set := inv.rep.setLeaf at_leaf.target at_leaf.bound e
    rw [if_pos at_leaf.present] at set
    rwa [write_mem_frame]
  · have mapped := inv.acc.mapShared member bound shared
      (inv.acc.clean (at_leaf.view_source inv))
    rw [at_leaf.view_target inv] at mapped
    exact mapped.mono fun f => by simp

end ForkLeaf

/-- A page of the stack: a pending frame gets the content and the flags. -/
theorem ForkLeaf.copyLeaf (at_leaf : ForkLeaf A p src dst s d pos i e) {f : Nat}
    (inv : Inv boot A shm (update extra f 1) p)
    (pending : Accounting.Pending boot A shm p.frameAllocator f) :
    Inv boot (A.setView dst (pos * 512 + i) (some (withFlags (f * 4096) e))) shm extra
      ((p.copy (frameOf e * 4096) (f * 4096)).write (d * 4096) i (withFlags (f * 4096) e)) := by
  obtain ⟨member, bound⟩ := at_leaf.page_bound inv
  refine ⟨inv.start, ?_, ?_, inv.l4⟩
  · have copied := inv.rep.setData pending.pool pending.data (p.mem (frameOf e))
    have set := copied.setLeaf at_leaf.target at_leaf.bound (withFlags (f * 4096) e)
    rw [isPresent_withFlags, if_pos at_leaf.present] at set
    rwa [write_mem_frame, copy_mem_frame]
  · refine inv.acc.mapFresh pending member bound (at_leaf.view_target inv)
      (frameOf_withFlags pending.pool.lt_two_pow e) ?_
    rw [isWritable_withFlags, isCow_withFlags]
    exact inv.acc.clean (at_leaf.view_source inv)

namespace ForkLeaf

variable (at_leaf : ForkLeaf A p src dst s d pos i e) (inv : Inv boot A shm extra p)
include at_leaf inv

/-- A private page: one more reference and the same frame in both address
spaces, in both without write access. -/
theorem shareCow (frame : frameOf e' = frameOf e) (readonly' : isWritable e' = false)
    (readonly : isWritable e = false) (present' : isPresent e' = true) :
    Inv boot (A.setView dst (pos * 512 + i) (some e')) shm extra
      ((p.incRefcount (frameOf e * 4096)).write (d * 4096) i e') := by
  obtain ⟨member, bound⟩ := at_leaf.page_bound inv
  have source := at_leaf.view_source inv
  have target := at_leaf.view_target inv
  refine ⟨inv.start, ?_, ?_, inv.l4⟩
  · have set := inv.rep.setLeaf at_leaf.target at_leaf.bound e'
    rw [if_pos present'] at set
    rwa [write_mem_frame]
  · by_cases plain : frameOf e ∈ shm
    · have mapped := (inv.acc.incShared plain).mapShared member bound (e := e')
        (by rw [frame]; exact plain) (fun writable => by rw [readonly'] at writable; cases writable)
      rw [target] at mapped
      exact mapped.mono fun f => by simp
    · exact inv.acc.shareLeaf inv.roots_few source plain readonly target member frame readonly'

/-- The parent's entry loses write access. -/
theorem downgrade (frame : frameOf e' = frameOf e) (readonly : isWritable e' = false)
    (present' : isPresent e' = true) :
    Inv boot (A.setView src (pos * 512 + i) (some e')) shm extra (p.write (s * 4096) i e') := by
  refine ⟨inv.start, ?_, ?_, inv.l4⟩
  · have set := inv.rep.setLeaf at_leaf.source at_leaf.bound e'
    rw [if_pos present'] at set
    rwa [write_mem_frame]
  · refine inv.acc.setFlags (at_leaf.view_source inv) frame ?_ ?_
    · intro writable
      rw [readonly] at writable
      cases writable
    · intro writable
      rw [readonly] at writable
      cases writable

/-- A writable private page loses write access in both address spaces. -/
theorem shareWritable (writable : isWritable e = true)
    (outside : sharedPage shmRanges (pos * 512 + i) = false) :
    ∃ A', Inv boot A' shm extra
        (((p.incRefcount (frameOf e * 4096)).write (d * 4096) i (cowEntry e)).write (s * 4096) i
          (cowEntry e)) ∧
      Forked shmRanges 1 src dst A p A'
        (((p.incRefcount (frameOf e * 4096)).write (d * 4096) i (cowEntry e)).write (s * 4096) i
          (cowEntry e)) ∧
      A'.view dst (pos * 512 + i) ≠ none := by
  have tables := at_leaf.tables_ne
  have readonly := isWritable_cowEntry e
  have present' : isPresent (cowEntry e) = true := by
    simpa [cowEntry] using at_leaf.present
  have lowered := at_leaf.downgrade inv (frameOf_cowEntry e) readonly present'
  have at_leaf' : ForkLeaf (A.setView src (pos * 512 + i) (some (cowEntry e)))
      (p.write (s * 4096) i (cowEntry e)) src dst s d pos i (cowEntry e) :=
    ⟨at_leaf.different, at_leaf.source, at_leaf.target, at_leaf.bound, by simp, present',
      by rw [write_mem_frame, update_of_ne tables.symm]; exact at_leaf.absent⟩
  have both := at_leaf'.shareCow lowered rfl readonly readonly present'
  rw [frameOf_cowEntry] at both
  rw [write_write_comm _ tables.symm]
  have notTarget : ∀ {v}, ¬(src = dst ∧ v = pos * 512 + i) := fun same => at_leaf.different same.1
  refine ⟨_, both, ⟨rfl, id, ?_, ?_, ?_, ?_, ?_⟩, ?_⟩
  · intro f n owned above
    have low : ∀ {g r}, A.own g = some ⟨1, r, pos⟩ → f ≠ g := by
      rintro g r here rfl
      rw [here] at owned
      cases owned
      exact Nat.lt_irrefl _ above
    rw [write_mem_frame, update_of_ne (low at_leaf.target),
      write_mem_frame, update_of_ne (low at_leaf.source), incRefcount_mem]
  · intro r v notSrc notDst
    rw [setView_of_ne _ _ fun same => notDst same.1,
      setView_of_ne _ _ fun same => notSrc same.1]
  · intro v
    rw [setView_of_ne _ _ notTarget]
    by_cases page : v = pos * 512 + i
    · subst page
      exact .inr ⟨e, at_leaf.view_source inv, setView_self _ _ _ _,
        setView_self _ _ _ _, writable, outside⟩
    · exact .inl (setView_of_ne _ _ fun same => page same.2)
  · intro v e' mapped
    rcases view_setView_cases mapped with ⟨-, rfl, new⟩ | ⟨-, old⟩
    · cases new
      exact .inr ⟨e, at_leaf.view_source inv, .lowered outside writable⟩
    · rw [setView_of_ne _ _ fun same => at_leaf.different same.1.symm] at old
      exact .inl old
  · intro v e' mapped
    rw [setView_of_ne, setView_of_ne, mapped]
    · exact fun same => at_leaf.different same.1.symm
    · rintro ⟨-, rfl⟩
      rw [at_leaf.view_target inv] at mapped
      cases mapped
  · rw [setView_self]
    exact Option.some_ne_none _

end ForkLeaf

/-- **One leaf of the fork.** -/
theorem cowForkLeaf_spec (inv : Inv boot A shm extra p) (stackRange : Nat × Nat)
    (different : src ≠ dst) (source : A.own s = some ⟨1, src, pos⟩)
    (target : A.own d = some ⟨1, dst, pos⟩) (bound : i < 512)
    (absent : isPresent (p.mem d i) = false) (shared : SharedPages shmRanges shm A src) :
    wp (Paging.cowForkLeaf stackRange shmRanges (s * 4096) (d * 4096) i
        ((pos * 512 + i) * 4096))
      (fun _ p' => ∃ A', Inv boot A' shm extra p' ∧ Forked shmRanges 1 src dst A p A' p' ∧
        (A.view src (pos * 512 + i) ≠ none → A'.view dst (pos * 512 + i) ≠ none) ∧
        ∀ j, j ≠ i → p'.mem d j = p.mem d j)
      (fun e p' => e = .exhausted ∧ p' = p) p := by
  unfold Paging.cowForkLeaf
  rw [wp_bind, wp_gets, read_frame]
  split
  case isFalse absent' =>
    have leaf := inv.rep.leaf source bound
    rw [if_neg absent'] at leaf
    exact ⟨A, inv, Forked.refl, fun mapped => absurd leaf mapped, fun _ _ => rfl⟩
  case isTrue present =>
    have at_leaf : ForkLeaf A p src dst s d pos i (p.mem s i) :=
      ⟨different, source, target, bound, rfl, present, absent⟩
    have view := at_leaf.view_source inv
    have tables := at_leaf.tables_ne
    have isMapped : ∀ x, (A.setView dst (pos * 512 + i) (some x)).view dst (pos * 512 + i) ≠ none :=
      fun x => by simp
    split
    case isTrue inside =>
      refine ⟨_, at_leaf.shareVerbatim inv (shared _ _ view inside), ?_, fun _ => isMapped _, ?_⟩
      · refine at_leaf.forked_target inv (.verbatim inside) fun f other _ => ?_
        rw [write_mem_frame, update_of_ne other]
      · intro j other
        rw [write_mem_frame, update_self, update_of_ne other]
    case isFalse outside =>
      have outside' : sharedPage shmRanges (pos * 512 + i) = false := by
        simpa [sharedPage] using outside
      split
      case isTrue =>
        simp only [wp_bind, wp_update]
        refine wp_mono ?_ (fun _ _ failed => failed) (inv.allocateFrame_spec .exhausted)
        rintro _ p' ⟨f, rfl, -, -, pending, same, inv'⟩
        have at_leaf' : ForkLeaf A p' src dst s d pos i (p.mem s i) :=
          ⟨different, source, target, bound, by rw [same], present, by rw [same]; exact absent⟩
        have notD : d ≠ f := by
          rintro rfl
          have data := pending.data
          rw [target] at data
          cases data
        rw [addr_eq_frame]
        refine ⟨_, at_leaf'.copyLeaf inv' pending, ?_, fun _ => isMapped _, ?_⟩
        · refine at_leaf.forked_target inv (.copied outside' pending.pool.lt_two_pow)
            fun g other table => ?_
          have notF : g ≠ f := by
            rintro rfl
            exact table pending.data
          rw [write_mem_frame, copy_mem_frame, update_of_ne other,
            update_of_ne notF, same]
        · intro j other
          rw [write_mem_frame, update_self, update_of_ne other,
            copy_mem_frame, update_of_ne notD, same]
      case isFalse =>
        simp only [wp_bind, wp_update]
        rw [addr_eq_frame]
        by_cases writable : isWritable (flags (p.mem s i)) = true
        · have changed : asCow (flags (p.mem s i)) ≠ flags (p.mem s i) := by
            intro equal
            rw [← equal, isWritable_asCow] at writable
            cases writable
          rw [if_pos writable, if_pos changed, wp_update]
          rw [isWritable_flags] at writable
          obtain ⟨A', inv', forked, copy⟩ := at_leaf.shareWritable inv writable outside'
          refine ⟨A', inv', forked, fun _ => copy, ?_⟩
          intro j other
          rw [write_mem_frame, update_of_ne tables.symm, write_mem_frame,
            update_self, update_of_ne other, incRefcount_mem]
        · rw [if_neg writable, if_neg (fun changed => changed rfl), wp_pure]
          rw [isWritable_flags] at writable
          have frame := frameOf_withFlags (frameOf_lt (p.mem s i)) (flags (p.mem s i))
          refine ⟨_, at_leaf.shareCow inv frame (by simpa using writable) (by simpa using writable)
            (by simpa using present), ?_, fun _ => isMapped _, ?_⟩
          · refine at_leaf.forked_target inv (.readonly outside' (by simpa using writable))
              fun f other _ => ?_
            rw [write_mem_frame, update_of_ne other, incRefcount_mem]
          · intro j other
            rw [write_mem_frame, update_self, update_of_ne other,
              incRefcount_mem]

/-- The indices collected so far and one more index. -/
theorem or_index {i : Nat} (n : Nat) (bound : i < 512) :
    pos <<< (n + 9) ||| i <<< n = (pos * 512 + i) <<< n := by
  rw [Nat.add_comm, Nat.shiftLeft_add, ← Nat.shiftLeft_or_distrib,
    ← Nat.shiftLeft_add_eq_or_of_lt bound, Nat.shiftLeft_eq pos]

/-- A pending frame is linked into the destination as the copy of a table. -/
theorem linkCopy {f : Nat} (inv : Inv boot A shm (update extra f 1) p)
    (pending : Accounting.Pending boot A shm p.frameAllocator f)
    (table : A.own t = some ⟨level + 1, dst, pos⟩) (positive : 1 ≤ level)
    (bound : i < fan (level + 1)) (absent : isPresent (p.mem t i) = false)
    (present : isPresent e = true) (link : Link e) :
    Inv boot (A.setOwn f (some ⟨level, dst, pos * 512 + i⟩)) shm extra
      ((p.zero (f * 4096)).write (t * 4096) i (withFlags (f * 4096) e)) := by
  have other : f ≠ t := by
    rintro rfl
    have data := pending.data
    rw [table] at data
    cases data
  refine ⟨inv.start, ?_, inv.acc.makeTable pending _ (Finset.Subset.refl _), inv.l4⟩
  rw [zero_write_comm _ other, zero_mem_frame, write_mem_frame]
  exact inv.rep.linkTable table positive bound absent pending.pool pending.data
    (by rw [isPresent_withFlags]; exact present)
    (frameOf_withFlags pending.pool.lt_two_pow e) link.withFlags

/-- **Forking the subtree below a table.** -/
theorem cowForkLevel_spec (stackRange : Nat × Nat) (different : src ≠ dst) (level : Nat) :
    ∀ {A : AddressSpaces} {p : Paging} {s d pos : Nat}, Inv boot A shm extra p → level ≤ 4 →
      A.own s = some ⟨level, src, pos⟩ → A.own d = some ⟨level, dst, pos⟩ →
      (∀ i < fan level, isPresent (p.mem d i) = false) → SharedPages shmRanges shm A src →
      wp (Paging.cowForkLevel stackRange shmRanges level (s * 4096) (d * 4096)
          (pos <<< (12 + 9 * level)) (fan level))
        (fun _ p' => ∃ A', Inv boot A' shm extra p' ∧ Forked shmRanges level src dst A p A' p' ∧
          Covered level pos src dst A A')
        (fun e p' => e = .exhausted ∧
          ∃ A', Inv boot A' shm extra p' ∧ Forked shmRanges level src dst A p A' p') p := by
  induction level with
  | zero =>
    intro A p s d pos inv _ source
    have positive : 1 ≤ 0 := inv.rep.level_pos source
    omega
  | succ level ih =>
    intro A p s d pos inv top source target empty shared
    let I (i : Nat) (p' : Paging) : Prop := ∃ A', Inv boot A' shm extra p' ∧
      Forked shmRanges (level + 1) src dst A p A' p' ∧
      (∀ j < i, Covered level (pos * 512 + j) src dst A A') ∧
      ∀ j, i ≤ j → j < fan (level + 1) → isPresent (p'.mem d j) = false
    have initially : I 0 p :=
      ⟨A, inv, Forked.refl, fun j none => absurd none (Nat.not_lt_zero j), fun j _ => empty j⟩
    have finish : ∀ (u : PUnit) (p' : Paging), I (fan (level + 1)) p' →
        ∃ A', Inv boot A' shm extra p' ∧ Forked shmRanges (level + 1) src dst A p A' p' ∧
          Covered (level + 1) pos src dst A A' :=
      fun _ p' ⟨A', inv', forked, done, _⟩ =>
        ⟨A', inv', forked, inv.rep.covered_of_entries source done⟩
    have extend : ∀ {i A' A'' p' p''}, Forked shmRanges (level + 1) src dst A' p' A'' p'' →
        (∀ j < i, Covered level (pos * 512 + j) src dst A A') →
        Covered level (pos * 512 + i) src dst A A'' →
        ∀ j < i + 1, Covered level (pos * 512 + j) src dst A A'' := by
      intro i A' A'' p' p'' forked done last j bound
      rcases Nat.lt_succ_iff_lt_or_eq.mp bound with earlier | rfl
      · exact (done j earlier).forked forked
      · exact last
    by_cases leaf : level = 0
    · subst leaf
      refine wp_mono finish (fun _ _ failed => failed)
        (wp_forRange_zero I ?_ initially)
      rintro i p' bound ⟨A', inv', forked, done, ahead⟩
      rw [show 12 + 9 * (0 + 1) = 12 + 9 from rfl, or_index 12 bound, Nat.shiftLeft_eq]
      refine wp_mono ?_ ?_ (inv'.cowForkLeaf_spec stackRange different
        (forked.own source) (forked.own target) bound (ahead i (Nat.le_refl _) bound)
        (shared.forked forked))
      · rintro _ p'' ⟨A'', inv'', step, copied, rest⟩
        refine ⟨A'', inv'', forked.trans step, extend step done ?_, fun j later boundJ => ?_⟩
        · intro v here mapped
          obtain rfl : v = pos * 512 + i := by simpa using here
          exact copied (forked.source_mapped mapped)
        rw [rest j (by omega)]
        exact ahead j (by omega) boundJ
      · rintro e p'' ⟨rfl, rfl⟩
        exact ⟨rfl, A', inv', forked⟩
    · obtain ⟨level, rfl⟩ : ∃ k, level = k + 1 := ⟨level - 1, by omega⟩
      refine wp_mono finish (fun _ _ failed => failed)
        (wp_forRange_zero I ?_ initially)
      rintro i p' bound ⟨A', inv', forked, done, ahead⟩
      have bound' : i < 512 := Nat.lt_of_lt_of_le bound (fan_le _)
      rw [wp_bind, wp_gets, read_frame]
      split
      case isFalse absent =>
        have none : Covered (level + 1) (pos * 512 + i) src dst A' A' :=
          inv'.rep.covered_of_absent (forked.own source) (by omega) bound'
            (by simpa using absent) A'
        exact ⟨A', inv', forked,
          extend (Forked.refl (p := p')) done fun v here mapped => none v here
            (forked.source_mapped mapped),
          fun j later => ahead j (by omega)⟩
      case isTrue present =>
        obtain ⟨child, plain⟩ := inv'.rep.child (forked.own source) (by omega) bound present
        simp only [wp_bind, wp_update]
        refine wp_mono ?_ ?_ (inv'.allocateFrame_spec .exhausted)
        · rintro _ p₁ ⟨f, rfl, -, -, pending, same, inv₁⟩
          have linked := inv₁.linkCopy pending (forked.own target) (by omega) bound
            (by rw [same]; exact ahead i (Nat.le_refl _) bound) present plain
          have kept : ∀ {g n}, A'.own g = some n → g ≠ f := by
            rintro g n owned rfl
            rw [pending.data] at owned
            cases owned
          have notF : ∀ {g n}, A'.own g = some n →
              (A'.setOwn f (some ⟨level + 1, dst, pos * 512 + i⟩)).own g = some n :=
            fun owned => (setOwn_of_ne _ _ (kept owned)).trans owned
          have step : Forked shmRanges (level + 1 + 1) src dst A' p'
              (A'.setOwn f (some ⟨level + 1, dst, pos * 512 + i⟩))
              ((p₁.zero (f * 4096)).write (d * 4096) i (withFlags (f * 4096) (p'.mem s i))) := by
            refine ⟨rfl, notF, ?_, fun _ _ => rfl, fun _ => .inl rfl, .inl, id⟩
            intro g n owned above
            have notD : g ≠ d := by
              rintro rfl
              rw [forked.own target] at owned
              cases owned
              exact Nat.lt_irrefl _ above
            rw [write_mem_frame, update_of_ne notD, zero_mem_frame,
              update_of_ne (kept owned), same]
          have zeros : ∀ j, ((p₁.zero (f * 4096)).write (d * 4096) i
              (withFlags (f * 4096) (p'.mem s i))).mem f j = 0 := by
            intro j
            rw [write_mem_frame, update_of_ne (kept (forked.own target)).symm,
              zero_mem_frame, update_self]
          have inner := ih linked (by omega) (notF child) (setOwn_self _ _ _)
            (fun j _ => by rw [zeros j]; rfl) ((shared.forked forked).forked step)
          rw [fan_of_lt (by omega : level + 1 < 4)] at inner
          rw [addr_eq_frame, show 12 + 9 * (level + 1 + 1) = 12 + 9 * (level + 1) + 9 from rfl,
            or_index _ bound']
          refine wp_mono ?_ ?_ inner
          · rintro _ p₂ ⟨A₂, inv₂, below, covered⟩
            have whole := step.trans (below.mono (Nat.le_succ _))
            refine ⟨A₂, inv₂, forked.trans whole, extend whole done ?_, ?_⟩
            · exact fun v here mapped => covered v here (forked.source_mapped mapped)
            intro j later boundJ
            rw [below.mem (notF (forked.own target)) (Nat.lt_succ_self _), write_mem_frame,
              update_self, update_of_ne (by omega), zero_mem_frame,
              update_of_ne (kept (forked.own target)), same]
            exact ahead j (by omega) boundJ
          · rintro e p₂ ⟨rfl, A₂, inv₂, below⟩
            exact ⟨rfl, A₂, inv₂, forked.trans (step.trans (below.mono (Nat.le_succ _)))⟩
        · rintro e p₁ ⟨rfl, rfl⟩
          exact ⟨rfl, A', inv', forked⟩

end Inv

/-- What a fork from `src` to the new root `f` may do to the address spaces. -/
structure ForkEffect (shmRanges : List (Nat × Nat)) (src f : Nat) (A A' : AddressSpaces) :
    Prop where
  new : f ∉ A.roots
  roots : A'.roots = insert f A.roots
  others : ∀ {r v}, r ≠ src → r ≠ f → A'.view r v = A.view r v
  source : ∀ v, A'.view src v = A.view src v ∨
    ∃ e, A.view src v = some e ∧ A'.view src v = some (cowEntry e) ∧
      A'.view f v = some (cowEntry e) ∧ isWritable e = true ∧ sharedPage shmRanges v = false
  target : ∀ {v e'}, A'.view f v = some e' → ∃ e, A.view src v = some e ∧ LeafCopy shmRanges v e e'

namespace Inv

variable {boot : Paging} {A : AddressSpaces} {shm : Set Nat} {extra : Nat → Nat} {p : Paging}

/-- **Fork.** A successful fork adds one address space, with the pages of the
parent; one that runs out of memory leaves the tables it has built behind as an
address space nobody knows of, or nothing at all. -/
theorem cowForkUserPageTable_spec (inv : Inv boot A shm extra p)
    (member : src ∈ A.roots) (stackRange : Nat × Nat) (shared : SharedPages shmRanges shm A src) :
    wp (Paging.cowForkUserPageTable (src * 4096) stackRange shmRanges)
      (fun a p' => ∃ f A', a = f * 4096 ∧ Inv boot A' shm extra p' ∧
        ForkEffect shmRanges src f A A' ∧ ∀ v, A.view src v ≠ none → A'.view f v ≠ none)
      (fun e p' => e = .exhausted ∧ (p' = p ∨ ∃ f A', Inv boot A' shm extra p' ∧
        ForkEffect shmRanges src f A A')) p := by
  unfold Paging.cowForkUserPageTable
  simp only [wp_bind, wp_update, wp_pure]
  refine wp_mono ?_ (fun e p' failed => ⟨failed.1, .inl failed.2⟩)
    (inv.allocateFrame_spec .exhausted)
  rintro _ p₁ ⟨f, rfl, -, -, pending, -, inv₁⟩
  obtain ⟨new, added⟩ := inv₁.addRoot pending
  have different : src ≠ f := by
    rintro rfl
    exact new member
  have blank : ∀ v, A.view f v = none := by
    intro v
    by_contra mapped
    obtain ⟨e, entry⟩ := Option.ne_none_iff_exists'.mp mapped
    exact new (inv.rep.view_bound entry).1
  have empty : ∀ i < fan 4, isPresent ((p₁.initL4 (f * 4096)).mem f i) = false := by
    intro i low
    have low' : i < 256 := low
    rw [initL4_mem_frame, update_self, if_pos low']
    rfl
  have forked := cowForkLevel_spec stackRange different 4 added (by decide)
    (added.rep.root_own (Finset.mem_insert_of_mem member))
    (added.rep.root_own (Finset.mem_insert_self _ _)) empty shared
  rw [Nat.zero_shiftLeft] at forked
  have effect : ∀ {A' p'}, Forked shmRanges 4 src f
      { A.setOwn f (some ⟨4, f, 0⟩) with roots := insert f A.roots }
      (p₁.initL4 (f * 4096)) A' p' → ForkEffect shmRanges src f A A' := by
    intro A' p' forked
    refine ⟨new, forked.roots, forked.others, forked.source, fun {v e'} mapped => ?_⟩
    rcases forked.target mapped with old | copied
    · exact absurd ((blank v).symm.trans old) (by simp)
    · exact copied
  refine wp_mono ?_ ?_ forked
  · rintro _ p' ⟨A', inv', forked, covered⟩
    refine ⟨f, A', rfl, inv', effect forked, fun v mapped => covered v ?_ mapped⟩
    obtain ⟨e, entry⟩ := Option.ne_none_iff_exists'.mp mapped
    exact Nat.div_eq_of_lt (Nat.lt_trans (inv.rep.view_bound entry).2 (by decide))
  · rintro e p' ⟨rfl, A', inv', forked⟩
    exact ⟨rfl, .inr ⟨f, A', inv', effect forked⟩⟩

end Inv

end OxideOS.Mem
