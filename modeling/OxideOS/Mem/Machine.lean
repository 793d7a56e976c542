import OxideOS.Lib.Run
import OxideOS.Mem.CowFault

/-!
# Address spaces over whole runs

The system of all live address spaces: `step` performs one of the paging
allocator's operations on a live address space, or one user store. `Sound` says
what the operations are for: reference counts are exact, write access is
exclusive, no address space sees another one's stores, and when the last address
space is freed the allocator is as it was at boot.

`run_sound` proves it for every run in which no page is mapped over a mapped one
and mapping and unmapping stay in the lower half. Mapping over a mapped page
fails, but the frame allocated for it is lost: `leaked_frame`.
-/

set_option autoImplicit false

namespace OxideOS.Mem

open Lib PageTableFlags PageTableEntry

/-! ## The system -/

/-- The paging state and the L4 frames of the live address spaces. -/
structure System where
  paging : Paging
  live : Finset Nat

/-- The operations on address spaces; `root` is the frame of an L4 table. -/
inductive Op where
  | create
  | map (root virt numPages : Nat) (isWritable executable : Bool)
  | unmap (root virt numPages : Nat)
  | fork (root : Nat) (stackRange : Nat × Nat)
  | fault (root faultAddr : Nat)
  | free (root : Nat)
  | store (root virt b : Nat)
  deriving DecidableEq

/-- One operation on a live address space; `none` when it is not live. What an
operation that fails has done before stays done. -/
def step (s : System) : Op → Option System
  | .create =>
    match Paging.createUserPageTable s.paging with
    | (.ok l4, p) => some ⟨p, insert (l4 / 4096) s.live⟩
    | (.error _, p) => some { s with paging := p }
  | .map root virt numPages isWritable executable =>
    if root ∈ s.live then
      some { s with
        paging :=
          (Paging.mapUserRegionIn (root * 4096) virt numPages isWritable executable s.paging).2 }
    else none
  | .unmap root virt numPages =>
    if root ∈ s.live then
      some { s with paging := Paging.unmapUserRegionIn (root * 4096) virt numPages s.paging }
    else none
  | .fork root stackRange =>
    if root ∈ s.live then
      match Paging.cowForkUserPageTable (root * 4096) stackRange [] s.paging with
      | (.ok l4, p) => some ⟨p, insert (l4 / 4096) s.live⟩
      | (.error _, p) => some { s with paging := p }
    else none
  | .fault root faultAddr =>
    if root ∈ s.live then
      some { s with paging := (Paging.tryResolveCowFault (root * 4096) faultAddr s.paging).2 }
    else none
  | .free root =>
    if root ∈ s.live then
      some ⟨Paging.freeUserPageTable (root * 4096) s.paging, s.live.erase root⟩
    else none
  | .store root virt b =>
    if root ∈ s.live then
      match Paging.store (root * 4096) virt b true 2 s.paging with
      | some (_, p) => some { s with paging := p }
      | none => none
    else none

/-- The outcome reports a lack of frames. -/
def ranOut {α : Type} : Except PagingError α → Bool
  | .ok _ => false
  | .error e => e.isOutOfMemory

/-- The operation is one that builds or copies tables and no frame is left for it. -/
def outOfMemory (s : System) : Op → Bool
  | .create => ranOut (Paging.createUserPageTable s.paging).1
  | .map root virt numPages isWritable executable =>
    ranOut (Paging.mapUserRegionIn (root * 4096) virt numPages isWritable executable s.paging).1
  | .fork root stackRange =>
    ranOut (Paging.cowForkUserPageTable (root * 4096) stackRange [] s.paging).1
  | .unmap _ _ _ | .fault _ _ | .free _ | .store _ _ _ => false

/-! ## What the page tables say -/

/-- The frame of the table `depth` levels below the root `r` at position `pos`. -/
def tableAt (mem : Nat → Nat → Nat) (r : Nat) : (depth pos : Nat) → Option Nat
  | 0, pos => if pos = 0 then some r else none
  | depth + 1, pos =>
    match tableAt mem r depth (pos / 512) with
    | none => none
    | some t =>
      if pos % 512 < fan (4 - depth) ∧ isPresent (mem t (pos % 512)) = true then
        some (frameOf (mem t (pos % 512)))
      else none

/-- The present leaf entry of page `v` below the root `r`. -/
def leafAt (mem : Nat → Nat → Nat) (r v : Nat) : Option Nat :=
  match tableAt mem r 3 (v / 512) with
  | none => none
  | some t => if isPresent (mem t (v % 512)) then some (mem t (v % 512)) else none

/-- The number of present leaf entries of live address spaces that map `f`. -/
def leafRefs (s : System) (f : Nat) : Nat :=
  references (s.live ×ˢ Finset.range userPages)
    (fun page => (leafAt s.paging.mem page.1 page.2).map frameOf) f

/-- The number of places in live address spaces where `f` serves as a table. -/
def tableRefs (s : System) (f : Nat) : Nat :=
  references (s.live ×ˢ (Finset.range 4 ×ˢ Finset.range (512 ^ 3)))
    (fun place => tableAt s.paging.mem place.1 place.2.1 place.2.2) f

/-- Copy-on-write isolation, relative to the state at boot. -/
structure Sound (boot : Paging) (s : System) : Prop where
  /-- The counter of a frame is the number of references to it. -/
  counts : ∀ f, Pool boot f →
    s.paging.frameAllocator.refcount f = leafRefs s f + tableRefs s f
  /-- A page that can be written without a fault has its frame for itself. -/
  exclusive : ∀ r ∈ s.live, ∀ v e, leafAt s.paging.mem r v = some e → isWritable e = true →
    isCow e = false → s.paging.frameAllocator.refcount (frameOf e) = 1
  /-- A user store ends, and no other address space can read a byte it changed. -/
  isolated : ∀ r ∈ s.live, ∀ virt b, ∃ res p',
    Paging.store (r * 4096) virt b true 2 s.paging = some (res, p') ∧
      ∀ r' ∈ s.live, r' ≠ r → ∀ virt',
        p'.userByte (r' * 4096) virt' = s.paging.userByte (r' * 4096) virt'
  /-- Without address spaces the allocator is as it was at boot. -/
  restored : s.live = ∅ →
    s.paging.frameAllocator.bitmap = boot.frameAllocator.bitmap ∧
      s.paging.frameAllocator.refcount = boot.frameAllocator.refcount ∧
      s.paging.frameAllocator.allocatedFrames = boot.frameAllocator.allocatedFrames

/-- Mapping and unmapping stay in the lower half. -/
def InLowerHalf : Op → Prop
  | .map _ virt numPages _ _ | .unmap _ virt numPages => LowerRegion virt numPages
  | .create | .fork _ _ | .fault _ _ | .free _ | .store _ _ _ => True

instance (op : Op) : Decidable (InLowerHalf op) := by
  unfold InLowerHalf
  split <;> infer_instance

/-- What is mapped was not mapped before. -/
def OnUnmapped (s : System) : Op → Prop
  | .map root virt numPages _ _ =>
    ∀ page < numPages, leafAt s.paging.mem root (regionPage virt page) = none
  | .create | .unmap _ _ _ | .fork _ _ | .fault _ _ | .free _ | .store _ _ _ => True

instance (s : System) (op : Op) : Decidable (OnUnmapped s op) := by
  unfold OnUnmapped
  split <;> infer_instance

/-! ## The tables and the abstract address spaces -/

namespace Represents

variable {boot : Paging} {A : AddressSpaces} {mem : Nat → Nat → Nat}

/-- The tables found by walking down from a root are those of its tree. -/
theorem tableAt_eq_some (rep : Represents boot A mem) {r : Nat} (member : r ∈ A.roots)
    {depth : Nat} (shallow : depth ≤ 3) :
    ∀ {pos f : Nat}, tableAt mem r depth pos = some f ↔ A.own f = some ⟨4 - depth, r, pos⟩ := by
  induction depth with
  | zero =>
    intro pos f
    constructor
    · intro found
      obtain ⟨rfl, rfl⟩ : pos = 0 ∧ r = f := by simpa [tableAt] using found
      exact rep.root_own member
    · intro owned
      obtain ⟨rfl, rfl⟩ := rep.own_root owned
      rfl
  | succ depth ih =>
    intro pos f
    have level : 4 - depth = 4 - (depth + 1) + 1 := by omega
    have above : ∀ {pos f : Nat},
        tableAt mem r depth pos = some f ↔ A.own f = some ⟨4 - depth, r, pos⟩ := ih (by omega)
    constructor
    · intro found
      rw [tableAt] at found
      split at found
      · cases found
      · next t parent =>
          have table := above.mp parent
          rw [level] at table
          split at found
          · next entry =>
              cases found
              rw [level] at entry
              have linked := (rep.child table (by omega) entry.1 entry.2).1
              rwa [Nat.div_add_mod'] at linked
          · cases found
    · intro owned
      obtain ⟨t, table, bound, present, points⟩ := rep.parent owned (by omega)
      rw [← level] at table bound
      rw [tableAt, above.mpr table]
      simp only [bound, present, and_self, if_true, points]

/-- The leaf entries found by walking down from a root are its view. -/
theorem leafAt_eq (rep : Represents boot A mem) {r : Nat} (member : r ∈ A.roots) (v : Nat) :
    leafAt mem r v = A.view r v := by
  have tables : ∀ {f}, tableAt mem r 3 (v / 512) = some f ↔ A.own f = some ⟨1, r, v / 512⟩ :=
    rep.tableAt_eq_some member (by decide)
  rw [leafAt]
  cases found : tableAt mem r 3 (v / 512) with
  | none =>
    refine (rep.unmapped fun f owned => ?_).symm
    rw [tables.mpr owned] at found
    cases found
  | some t =>
    have leaf := rep.leaf (tables.mp found) (Nat.mod_lt v (by decide))
    rw [Nat.div_add_mod'] at leaf
    exact leaf.symm

/-- Positions of tables have at most three digits. -/
theorem pos_lt (rep : Represents boot A mem) {f : Nat} {n : Node} (owned : A.own f = some n) :
    n.pos < 512 ^ 3 := by
  obtain ⟨level, r, pos⟩ := n
  have positive : 1 ≤ level := rep.level_pos owned
  show pos < 512 ^ 3
  by_cases below : level < 4
  · obtain ⟨k, rfl⟩ : ∃ k, level = k + 1 := Nat.exists_eq_add_one.mpr positive
    have inside := rep.pos_bound owned below
    have wide : pos + 1 ≤ (pos + 1) * 512 ^ k := Nat.le_mul_of_pos_right _ (Nat.pow_pos (by decide))
    rw [Nat.pow_succ, ← Nat.mul_assoc, userPages] at inside
    omega
  · obtain rfl : level = 4 := Nat.le_antisymm (rep.level_le owned) (Nat.le_of_not_lt below)
    rw [(rep.own_root owned).2]
    decide

end Represents

namespace Inv

variable {boot : Paging} {A : AddressSpaces} {s : System}

section

variable (inv : Inv boot A ∅ (fun _ => 0) s.paging) (roots : A.roots = s.live)
include inv roots

theorem leafRefs_eq (f : Nat) : leafRefs s f = A.refs f := by
  rw [leafRefs, AddressSpaces.refs, AddressSpaces.pages, roots]
  refine references_congr ?_
  rintro ⟨r, v⟩ page
  have member : r ∈ A.roots := roots ▸ (Finset.mem_product.mp page).1
  rw [inv.rep.leafAt_eq member, AddressSpaces.frameAt]

/-- The place of a table, as a slot of `tableRefs`. -/
theorem place_mem {f : Nat} {n : Node} (owned : A.own f = some n) :
    (n.root, 4 - n.level, n.pos) ∈ s.live ×ˢ (Finset.range 4 ×ˢ Finset.range (512 ^ 3)) := by
  have positive := inv.rep.level_pos owned
  have bound := inv.rep.pos_lt owned
  simp only [Finset.mem_product, Finset.mem_range]
  exact ⟨roots ▸ inv.rep.own_member owned, by omega, bound⟩

/-- A table serves in exactly one place. -/
theorem tableRefs_of_table {f : Nat} {n : Node} (owned : A.own f = some n) : tableRefs s f = 1 := by
  have positive := inv.rep.level_pos owned
  have bounded := inv.rep.level_le owned
  have level : 4 - (4 - n.level) = n.level := by omega
  refine references_eq_one (inv.place_mem roots owned) ?_ ?_
  · have shallow : 4 - n.level ≤ 3 := by omega
    refine (inv.rep.tableAt_eq_some (inv.rep.own_member owned) shallow).mpr ?_
    rw [level, owned]
  · rintro ⟨r, depth, pos⟩ place found
    simp only [Finset.mem_product, Finset.mem_range] at place
    obtain ⟨live, shallow, -⟩ := place
    have same := (inv.rep.tableAt_eq_some (roots ▸ live) (Nat.le_of_lt_succ shallow)).mp found
    rw [owned] at same
    cases same
    have back : 4 - (4 - depth) = depth := by omega
    simp only [back]

theorem tableRefs_of_data {f : Nat} (data : A.own f = none) : tableRefs s f = 0 := by
  refine references_eq_zero_iff.mpr ?_
  rintro ⟨r, depth, pos⟩ place found
  simp only [Finset.mem_product, Finset.mem_range] at place
  obtain ⟨live, shallow, -⟩ := place
  have owned := (inv.rep.tableAt_eq_some (roots ▸ live) (Nat.le_of_lt_succ shallow)).mp found
  rw [data] at owned
  cases owned

/-- A well-formed state without shared memory and without slack is sound. -/
theorem sound :
    Sound boot s where
  counts := by
    intro f pool
    rw [inv.leafRefs_eq roots]
    cases owned : A.own f with
    | none =>
      have low := inv.acc.refs_le pool (Set.notMem_empty f) owned
      have high := inv.acc.le_refs pool (Set.notMem_empty f) owned
      rw [inv.tableRefs_of_data roots owned]
      omega
    | some n =>
      have unmapped : A.refs f = 0 := by
        refine Accounting.refs_eq_zero ?_
        rintro r v e mapped rfl
        rw [(inv.acc.leaf mapped).2] at owned
        cases owned
      rw [inv.tableRefs_of_table roots owned, unmapped, (inv.acc.table owned).2]
  exclusive := by
    intro r live v e found writable _
    rw [inv.rep.leafAt_eq (roots ▸ live)] at found
    exact inv.acc.writable found writable (Set.notMem_empty _)
  isolated := by
    intro r live virt b
    obtain ⟨res, p', A', done, -, -, unseen⟩ := inv.userStore_spec (roots ▸ live) virt b
    refine ⟨res, p', done, ?_⟩
    intro r' live' other virt'
    exact unseen (fun _ _ => Set.notMem_empty _) r' (roots ▸ live') other virt'
  restored := by
    intro none_live
    have no_roots : A.roots = ∅ := roots.trans none_live
    have no_table : ∀ f, A.own f = none := by
      intro f
      cases owned : A.own f with
      | none => rfl
      | some n =>
        have member := inv.rep.own_member owned
        rw [no_roots] at member
        exact absurd member (Finset.notMem_empty _)
    have count : ∀ f, s.paging.frameAllocator.refcount f = boot.frameAllocator.refcount f := by
      intro f
      by_cases pool : Pool boot f
      · have unmapped : A.refs f = 0 := by
          refine Accounting.refs_eq_zero ?_
          intro r v e mapped
          have member := (inv.acc.bound mapped).1
          rw [no_roots] at member
          exact absurd member (Finset.notMem_empty _)
        have high := inv.acc.le_refs pool (Set.notMem_empty f) (no_table f)
        rw [inv.start.pool_refcount pool]
        omega
      · exact (inv.acc.kernel pool).2
    have counters := funext count
    refine ⟨funext fun f => ?_, counters, ?_⟩
    · by_cases pool : Pool boot f
      · have free := (PhysicalFrameAllocator.isFree_iff.mp pool).2
        have unused := inv.acc.used pool
        rw [count f, inv.start.pool_refcount pool] at unused
        rw [free]
        simpa using unused
      · exact (inv.acc.kernel pool).1
    · have total := inv.acc.count
      have zero : inUse boot s.paging.frameAllocator.refcount = 0 := by
        refine references_eq_zero_iff.mpr fun f _ marked => ?_
        simp only [useMark] at marked
        split at marked
        · next used =>
            rw [count f, inv.start.pool_refcount used.1] at used
            exact absurd used.2 (Nat.lt_irrefl 0)
        · cases marked
      rw [total, zero, Nat.add_zero]

end

end Inv

/-! ## The width of the entries -/

/-- No leaf entry has a bit above the address of its frame. -/
def AddressSpaces.Narrow (A : AddressSpaces) : Prop :=
  ∀ r v e, A.view r v = some e → e < 2 ^ 52

theorem withFlags_lt {f : Nat} (small : f < 2 ^ 40) (fl : Nat) :
    withFlags (f * 4096) fl < 2 ^ 52 := by
  refine Nat.or_lt_two_pow (by omega) (Nat.lt_of_le_of_lt Nat.and_le_right (by decide))

theorem set_lt (a fl : Nat) : PageTableEntry.set a fl < 2 ^ 52 :=
  Nat.or_lt_two_pow (Nat.lt_of_le_of_lt Nat.and_le_right (by decide))
    (Nat.lt_of_le_of_lt Nat.and_le_right (by decide))

theorem LeafCopy.lt {shmRanges : List (Nat × Nat)} {v e e' : Nat}
    (copy : LeafCopy shmRanges v e e') (narrow : e < 2 ^ 52) : e' < 2 ^ 52 := by
  cases copy with
  | verbatim => exact narrow
  | copied _ small => exact withFlags_lt small e
  | readonly | lowered => exact withFlags_lt (frameOf_lt e) _

namespace AddressSpaces.Narrow

variable {A A' : AddressSpaces}

theorem empty : AddressSpaces.empty.Narrow := by
  intro r v e mapped
  cases mapped

theorem setView (narrow : A.Narrow) {r v e : Nat} (small : e < 2 ^ 52) :
    (A.setView r v (some e)).Narrow := by
  intro r' v' e' mapped
  rcases AddressSpaces.view_setView_cases mapped with ⟨-, -, new⟩ | ⟨-, old⟩
  · cases new
    exact small
  · exact narrow _ _ _ old

theorem unmapped (narrow : A.Narrow)
    (less : ∀ r v, A'.view r v = A.view r v ∨ A'.view r v = none) : A'.Narrow := by
  intro r v e mapped
  rcases less r v with same | none
  · exact narrow r v e (same ▸ mapped)
  · rw [none] at mapped
    cases mapped

theorem mapped (narrow : A.Narrow) {r virt numPages fl : Nat}
    (more : MapsRegion A A' r virt numPages fl) : A'.Narrow := by
  intro r' v e mapped
  by_cases here : r' = r
  · subst here
    rcases more.entries mapped with old | ⟨-, d, rfl⟩
    · exact narrow _ _ _ old
    · exact set_lt _ _
  · exact narrow _ _ _ (more.others here ▸ mapped)

theorem forked (narrow : A.Narrow) {shmRanges : List (Nat × Nat)} {src f : Nat}
    (effect : ForkEffect shmRanges src f A A') : A'.Narrow := by
  intro r v e mapped
  by_cases child : r = f
  · subst child
    obtain ⟨d, before, copy⟩ := effect.target mapped
    exact copy.lt (narrow _ _ _ before)
  · by_cases parent : r = src
    · subst parent
      rcases effect.source v with same | ⟨d, -, after, -⟩
      · exact narrow _ _ _ (same ▸ mapped)
      · rw [after] at mapped
        cases mapped
        exact withFlags_lt (frameOf_lt d) _
    · exact narrow _ _ _ (effect.others parent child ▸ mapped)

end AddressSpaces.Narrow

section Steps

variable {boot : Paging} {A : AddressSpaces} {extra : Nat → Nat} {s s' : System} {op : Op}

/-- After a step, the system is well formed for some address spaces that include
the live ones; if nothing failed on the way the slack is the same and there are no
others. Entries stay narrow. -/
def Follows (boot : Paging) (A : AddressSpaces) (extra : Nat → Nat) (exact : Prop) (s' : System) :
    Prop :=
  ∃ A' extra', Inv boot A' ∅ extra' s'.paging ∧ s'.live ⊆ A'.roots ∧ (A.Narrow → A'.Narrow) ∧
    (exact → extra' = extra ∧ A'.roots = s'.live)

/-- A step with a new address space. -/
theorem Follows.insert_root {p : Paging} {A' : AddressSpaces} {f : Nat} {exact : Prop}
    (inv : Inv boot A' ∅ extra p) (sub : s.live ⊆ A.roots) (new : A'.roots = insert f A.roots)
    (entries : A.Narrow → A'.Narrow) (all : exact → A.roots = s.live) :
    Follows boot A extra exact ⟨p, insert (f * 4096 / 4096) s.live⟩ := by
  rw [Paging.frame_div]
  refine ⟨A', extra, inv, ?_, entries, fun holds => ⟨rfl, ?_⟩⟩
  · rw [new]
    exact Finset.insert_subset_insert f sub
  · rw [new, all holds]

/-- **One operation** that maps and unmaps in the lower half only. -/
theorem Inv.step (inv : Inv boot A ∅ extra s.paging) (sub : s.live ⊆ A.roots)
    (low : InLowerHalf op) (stepped : step s op = some s') :
    Follows boot A extra (OnUnmapped s op ∧ outOfMemory s op = false ∧ A.roots = s.live) s' := by
  have plain : ∀ f : Nat, f ∉ (∅ : Set Nat) := fun f => Set.notMem_empty f
  cases op with
  | create =>
    have spec := inv.createUserPageTable_spec
    simp only [Mem.step] at stepped
    split at stepped
    · next l4 p result =>
        cases stepped
        obtain ⟨f, A', rfl, -, inv', new, view⟩ := (Prog.wp_ok result).mp spec
        refine .insert_root inv' sub new (fun narrow => ?_) fun exact => exact.2.2
        exact narrow.unmapped fun r v => .inl (by rw [view])
    · next e p result =>
        cases stepped
        obtain ⟨rfl, rfl⟩ := (Prog.wp_error result).mp spec
        exact ⟨A, extra, inv, sub, id, fun exact => ⟨rfl, exact.2.2⟩⟩
  | map root virt numPages w x =>
    simp only [Mem.step] at stepped
    split at stepped
    · next live =>
        cases stepped
        have spec := inv.mapUserRegionIn_spec (sub live) low w x
        rcases result : Paging.mapUserRegionIn (root * 4096) virt numPages w x s.paging with
          ⟨e | _, p⟩
        · obtain ⟨A', extra', inv', more, reason⟩ := (Prog.wp_error result).mp spec
          refine ⟨A', extra', inv', more.roots ▸ sub, fun narrow => narrow.mapped more, ?_⟩
          rintro ⟨unmapped, enough, -⟩
          rcases reason with ⟨-, page, bound, mapped⟩ | exhausted
          · rw [← inv.rep.leafAt_eq (sub live)] at mapped
            exact absurd (unmapped page bound) mapped
          · rw [outOfMemory, result] at enough
            exact absurd (exhausted.symm.trans enough) (by decide)
        · obtain ⟨A', inv', more, -⟩ := (Prog.wp_ok result).mp spec
          exact ⟨A', extra, inv', more.roots ▸ sub, fun narrow => narrow.mapped more,
            fun exact => ⟨rfl, more.roots.trans exact.2.2⟩⟩
    · cases stepped
  | unmap root virt numPages =>
    simp only [Mem.step] at stepped
    split at stepped
    · next live =>
        cases stepped
        obtain ⟨A', inv', same, cleared, kept⟩ := inv.unmapUserRegionIn_spec (sub live) low
          fun _ _ _ _ => plain _
        have less : ∀ r v, A'.view r v = A.view r v ∨ A'.view r v = none := by
          intro r v
          by_cases region : r = root ∧ ∃ page < numPages, v = regionPage virt page
          · obtain ⟨rfl, page, bound, rfl⟩ := region
            exact .inr (cleared page bound)
          · refine .inl (kept r v ?_)
            by_contra neither
            push Not at neither
            exact region neither
        exact ⟨A', extra, inv', same ▸ sub, fun narrow => narrow.unmapped less,
          fun exact => ⟨rfl, same.trans exact.2.2⟩⟩
    · cases stepped
  | fork root stackRange =>
    simp only [Mem.step] at stepped
    split at stepped
    · next live =>
        have shared : SharedPages [] ∅ A root := by
          intro v e _ inside
          simp [sharedPage] at inside
        have spec := inv.cowForkUserPageTable_spec (sub live) stackRange shared
        split at stepped
        · next l4 p result =>
            cases stepped
            obtain ⟨f, A', rfl, inv', effect, -⟩ := (Prog.wp_ok result).mp spec
            exact .insert_root inv' sub effect.roots (fun narrow => narrow.forked effect)
              fun exact => exact.2.2
        · next e p result =>
            cases stepped
            obtain ⟨rfl, rfl | ⟨f, A', inv', effect⟩⟩ := (Prog.wp_error result).mp spec
            · exact ⟨A, extra, inv, sub, id, fun exact => ⟨rfl, exact.2.2⟩⟩
            · refine ⟨A', extra, inv', ?_, fun narrow => narrow.forked effect, ?_⟩
              · rw [effect.roots]
                exact sub.trans (Finset.subset_insert _ _)
              · rintro ⟨-, enough, -⟩
                rw [outOfMemory, result] at enough
                cases enough
    · cases stepped
  | fault root faultAddr =>
    simp only [Mem.step] at stepped
    split at stepped
    · next live =>
        cases stepped
        by_cases low : LowerHalf faultAddr
        · rcases inv.tryResolveCowFault_spec (sub live) low with
            ⟨refused, -⟩ | ⟨e, e', p', done, resolved, inv'⟩
          · rw [refused]
            exact ⟨A, extra, inv, sub, id, fun exact => ⟨rfl, exact.2.2⟩⟩
          · rw [done]
            obtain ⟨f, small, rfl⟩ := resolved.entry
            exact ⟨_, extra, inv', sub, fun narrow => narrow.setView (withFlags_lt small _),
              fun exact => ⟨rfl, exact.2.2⟩⟩
        · rw [inv.tryResolveCowFault_upper (sub live) low]
          exact ⟨A, extra, inv, sub, id, fun exact => ⟨rfl, exact.2.2⟩⟩
    · cases stepped
  | free root =>
    simp only [Mem.step] at stepped
    split at stepped
    · next live =>
        cases stepped
        obtain ⟨A', inv', erased, cleared, kept⟩ := inv.freeUserPageTable_spec (sub live)
          fun _ _ _ => plain _
        refine ⟨A', extra, inv', ?_, fun narrow => narrow.unmapped ?_, fun exact => ⟨rfl, ?_⟩⟩
        · rw [erased]
          exact Finset.erase_subset_erase _ sub
        · intro r v
          by_cases freed : r = root
          · subst freed
            exact .inr (cleared v)
          · exact .inl (kept freed)
        · rw [erased, exact.2.2]
    · cases stepped
  | store root virt b =>
    simp only [Mem.step] at stepped
    split at stepped
    · next live =>
        obtain ⟨res, p', A', done, inv', moved, -⟩ := inv.userStore_spec (sub live) virt b
        rw [done] at stepped
        cases stepped
        have roots : A'.roots = A.roots := by
          rcases moved with rfl | ⟨e, f, -, -, -, rfl⟩ <;> rfl
        have narrow' : A.Narrow → A'.Narrow := by
          intro narrow
          rcases moved with rfl | ⟨e, f, -, -, small, rfl⟩
          · exact narrow
          · exact narrow.setView (withFlags_lt small _)
        exact ⟨A', extra, inv', roots ▸ sub, narrow', fun exact => ⟨rfl, roots.trans exact.2.2⟩⟩
    · cases stepped

/-- The system is well formed; the live address spaces are among those that
exist. -/
def WellFormed (boot : Paging) (s : System) : Prop :=
  ∃ A extra, Inv boot A ∅ extra s.paging ∧ s.live ⊆ A.roots

theorem wellFormed_of_run (start : Boot boot) {ops : List Op}
    (low : Along step (fun _ op => InLowerHalf op) ⟨boot, ∅⟩ ops)
    (ran : run step ⟨boot, ∅⟩ ops = some s) : WellFormed boot s := by
  refine run_invariant (I := WellFormed boot) ?_ ⟨.empty, _, start.inv, fun _ => id⟩ low ran
  rintro s op s' ⟨A, extra, inv, sub⟩ low stepped
  obtain ⟨A', extra', inv', sub', -, -⟩ := inv.step sub low stepped
  exact ⟨A', extra', inv', sub'⟩

/-- **Copy-on-write isolation.** In every run from boot without allocation failure
that maps only unmapped pages, and maps and unmaps in the lower half only, every
state is sound. -/
theorem run_sound (start : Boot boot) {ops : List Op}
    (careful : Along step
      (fun s op => InLowerHalf op ∧ OnUnmapped s op ∧ outOfMemory s op = false) ⟨boot, ∅⟩ ops)
    (ran : run step ⟨boot, ∅⟩ ops = some s) : Sound boot s := by
  have formed : ∃ A, Inv boot A ∅ (fun _ => 0) s.paging ∧ A.roots = s.live := by
    refine run_invariant (I := fun s => ∃ A, Inv boot A ∅ (fun _ => 0) s.paging ∧ A.roots = s.live)
      ?_ ⟨.empty, start.inv, rfl⟩ careful ran
    rintro s op s' ⟨A, inv, roots⟩ ⟨low, unmapped, enough⟩ stepped
    obtain ⟨A', extra', inv', -, -, exact⟩ := inv.step roots.symm.subset low stepped
    obtain ⟨rfl, roots'⟩ := exact ⟨unmapped, enough, roots⟩
    exact ⟨A', inv', roots'⟩
  obtain ⟨A, inv, roots⟩ := formed
  exact inv.sound roots

variable (start : Boot boot) {ops : List Op}
  (low : Along step (fun _ op => InLowerHalf op) ⟨boot, ∅⟩ ops)
  (ran : run step ⟨boot, ∅⟩ ops = some s) {r : Nat} (live : r ∈ s.live)
include start low ran live

/-- **The upper half stays the kernel's**, whether operations fail or not: every live
address space translates it as the kernel's tables did at boot, and neither a user
access nor the fault handler gets anywhere there. -/
theorem run_upper_half {virt : Nat} (high : ¬LowerHalf virt) :
    (∀ a, s.paging.translate (r * 4096) virt a = boot.translate boot.l4TablePhys virt a ∧
      (a.user = true → ∃ code, s.paging.translate (r * 4096) virt a = .error code)) ∧
    s.paging.tryResolveCowFault (r * 4096) virt = (false, s.paging) := by
  obtain ⟨A, extra, inv, sub⟩ := wellFormed_of_run start low ran
  exact ⟨fun a => ⟨inv.translate_upper (sub live) high a, inv.translate_upper_user (sub live) high⟩,
    inv.tryResolveCowFault_upper (sub live) high⟩

/-- **A store ends and stays private**, whether operations fail or not: it is retried at
most once, and no other live address space reads a changed byte. -/
theorem run_store_private (virt b : Nat) :
    ∃ res p', Paging.store (r * 4096) virt b true 2 s.paging = some (res, p') ∧
      ∀ r' ∈ s.live, r' ≠ r → ∀ v, p'.userByte (r' * 4096) v = s.paging.userByte (r' * 4096) v := by
  obtain ⟨A, extra, inv, sub⟩ := wellFormed_of_run start low ran
  obtain ⟨res, p', A', done, -, -, unseen⟩ := inv.userStore_spec (sub live) virt b
  exact ⟨res, p', done, fun r' live' => unseen (fun _ _ => id) r' (sub live')⟩

end Steps

/-! ## A small machine -/

/-- A machine with the given number of free frames and nothing mapped in its
upper half. -/
def blankBoot (frames : Nat) : Paging where
  frameAllocator :=
    { bitmap := fun f => !(decide (8192 ≤ f) && decide (f < 8192 + frames))
      refcount := fun _ => 0
      nextFrame := 8192
      totalFrames := frames
      allocatedFrames := 0 }
  mem := fun _ _ => 0
  l4TablePhys := 0x1000

theorem blankBoot_pool {frames f : Nat} (fits : frames ≤ 24576) :
    Pool (blankBoot frames) f ↔ 8192 ≤ f ∧ f < 8192 + frames := by
  simp only [Pool, PhysicalFrameAllocator.isFree_iff, blankBoot, Bool.not_eq_false',
    Bool.and_eq_true, decide_eq_true_eq]
  omega

theorem blankBoot_boot {frames : Nat} (fits : frames ≤ 24576) : Boot (blankBoot frames) := by
  have none_present : ∀ f i, isPresent ((blankBoot frames).mem f i) = false := by
    intro f i
    show isPresent 0 = false
    decide
  have none_user : ∀ f i, isUser ((blankBoot frames).mem f i) = false := by
    intro f i
    show isUser 0 = false
    decide
  have no_table : ∀ {level f}, ¬KernelTable (blankBoot frames) level f := by
    intro level f table
    cases table with
    | top _ _ present => exact absurd present (by simp [none_present])
    | down _ _ present _ => exact absurd present (by simp [none_present])
  refine ⟨fun pool => ((blankBoot_pool fits).mp pool).1, fun _ => rfl, Nat.zero_le _, ?_, ?_,
    fun table => absurd table no_table, fun _ _ => none_user _ _,
      fun table => absurd table no_table⟩
  · show 0x1000 &&& addrMask = 0x1000
    decide
  · rw [blankBoot_pool fits]
    exact fun ⟨high, _⟩ => absurd high (by show ¬8192 ≤ 0x1000 / 4096; decide)

/-- A machine with sixteen free frames. -/
def smallBoot : Paging := blankBoot 16

theorem smallBoot_boot : Boot smallBoot := blankBoot_boot (by decide)

/-- The careful operations of one program: map a page, fork, write in the child,
unmap in the parent and free both. -/
def forkAndFree : List Op :=
  [.create, .map 8192 0x400000 1 true false, .fork 8192 (0x700000, 0x800000),
    .store 8197 0x400010 7, .fault 8192 0x400000, .unmap 8192 0x400000 1, .free 8192, .free 8197]

theorem run_sound_forkAndFree :
    ∃ s, run step ⟨smallBoot, ∅⟩ forkAndFree = some s ∧ s.live = ∅ ∧ Sound smallBoot s := by
  have ends : (run step ⟨smallBoot, ∅⟩ forkAndFree).map System.live = some ∅ := by decide +kernel
  obtain ⟨s, ran, empty⟩ := Option.map_eq_some_iff.mp ends
  exact ⟨s, ran, empty, run_sound smallBoot_boot (by decide +kernel) ran⟩

/-- Mapping a page twice fails the second time and loses a frame: when the
address space is freed, one frame stays allocated. -/
theorem leaked_frame :
    Boot smallBoot ∧ ∃ s, run step ⟨smallBoot, ∅⟩
        [.create, .map 8192 0x400000 1 true false, .map 8192 0x400000 1 true false, .free 8192] =
          some s ∧ s.live = ∅ ∧ s.paging.frameAllocator.allocatedFrames = 1 ∧
      ¬Sound smallBoot s := by
  refine ⟨smallBoot_boot, ?_⟩
  have ends : (run step ⟨smallBoot, ∅⟩
      [.create, .map 8192 0x400000 1 true false, .map 8192 0x400000 1 true false, .free 8192]).map
        (fun s => (s.live, s.paging.frameAllocator.allocatedFrames)) = some (∅, 1) := by
    decide +kernel
  obtain ⟨s, ran, final⟩ := Option.map_eq_some_iff.mp ends
  obtain ⟨empty, one⟩ := Prod.mk.inj final
  refine ⟨s, ran, empty, one, fun sound => ?_⟩
  have zero := (sound.restored empty).2.2
  rw [one] at zero
  exact absurd zero (by decide)

/-- A page is mapped, mapped again in vain, and shared by a fork. -/
def failAndFork : List Op :=
  [.create, .map 8192 0x400000 1 true false, .map 8192 0x400000 1 true false,
    .fork 8192 (0x700000, 0x800000)]

theorem failAndFork_runs :
    ∃ s, run step ⟨smallBoot, ∅⟩ failAndFork = some s ∧ s.live = {8192, 8198} :=
  Option.map_eq_some_iff.mp (by decide +kernel)

theorem failAndFork_upper_half :
    ∃ s, run step ⟨smallBoot, ∅⟩ failAndFork = some s ∧
      s.paging.tryResolveCowFault (8192 * 4096) 0xFFFF800000000000 = (false, s.paging) := by
  obtain ⟨s, ran, live⟩ := failAndFork_runs
  exact ⟨s, ran,
    (run_upper_half smallBoot_boot (by decide +kernel) ran (by simp [live]) (by decide)).2⟩

theorem failAndFork_private :
    ∃ s res p', run step ⟨smallBoot, ∅⟩ failAndFork = some s ∧
      Paging.store (8192 * 4096) 0x400010 7 true 2 s.paging = some (res, p') ∧
      ∀ v, p'.userByte (8198 * 4096) v = s.paging.userByte (8198 * 4096) v := by
  obtain ⟨s, ran, live⟩ := failAndFork_runs
  obtain ⟨res, p', done, unseen⟩ :=
    run_store_private smallBoot_boot (by decide +kernel) ran (r := 8192) (by simp [live]) 0x400010 7
  exact ⟨s, res, p', ran, done, unseen 8198 (by simp [live]) (by decide)⟩

end OxideOS.Mem
