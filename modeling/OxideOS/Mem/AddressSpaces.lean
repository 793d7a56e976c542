import OxideOS.Mem.Paging
import Mathlib.Data.Finset.Basic

/-!
# User address spaces and their page-table trees

The abstract view of what the page tables in physical memory are for.
`AddressSpaces` lists the roots of the address spaces, assigns to each frame that
serves as a table its place in one of the trees (`own`), and gives for each root
and page number the leaf entry found there (`view`).

`Represents boot A mem` says that memory holds these trees: every present entry
of a table leads to the table one level down (`child`), every table other than a
root is linked from exactly one place (`parent`, `inj`), the leaf entries are the
view (`leaf`, `unmapped`), and memory that was not free at boot is as it was at
boot. All conditions are local to one entry, so each primitive change of memory
has one lemma, from `Represents.setLeaf` to `Represents.setData`.
-/

set_option autoImplicit false

namespace OxideOS.Mem

open PageTableFlags PageTableEntry Function

/-- The place of a table: its level (4 for a root), the frame of its root, and
the indices that lead to it from the root, read as one number in base 512. -/
structure Node where
  level : Nat
  root : Nat
  pos : Nat
  deriving DecidableEq

/-- The user address spaces that exist. -/
structure AddressSpaces where
  /-- The frames of their L4 tables. -/
  roots : Finset Nat
  /-- Which frames are tables, and where. -/
  own : Nat → Option Node
  /-- The leaf entry of a root at a page number. -/
  view : Nat → Nat → Option Nat

/-- The number of entries of a table that belong to user space. -/
def fan (level : Nat) : Nat := if level = 4 then 256 else 512

theorem fan_le (level : Nat) : fan level ≤ 512 := by
  unfold fan
  split <;> decide

variable {level pos i r v r' f g t : Nat}

theorem fan_of_lt (below : level < 4) : fan level = 512 := by
  unfold fan
  rw [if_neg (by omega)]

theorem div_of_index (bound : i < 512) : (pos * 512 + i) / 512 = pos := by
  omega

theorem mod_of_index (bound : i < 512) : (pos * 512 + i) % 512 = i := by
  omega

/-- The number of pages of the lower half of the address space. -/
def userPages : Nat := 2 ^ 35

variable {n : Node}

namespace AddressSpaces

/-- Change the leaf entry of one page of one root. -/
def setView (A : AddressSpaces) (r v : Nat) (e : Option Nat) : AddressSpaces :=
  { A with view := fun r' v' => if r' = r ∧ v' = v then e else A.view r' v' }

/-- Make a frame a table, or stop it being one. -/
def setOwn (A : AddressSpaces) (f : Nat) (n : Option Node) : AddressSpaces :=
  { A with own := update A.own f n }

@[simp] theorem setView_own (A : AddressSpaces) (r v : Nat) (e : Option Nat) :
    (A.setView r v e).own = A.own := rfl

@[simp] theorem setView_self (A : AddressSpaces) (r v : Nat) (e : Option Nat) :
    (A.setView r v e).view r v = e := by
  simp [setView]

theorem setView_of_ne (A : AddressSpaces) {v' : Nat} (e : Option Nat)
    (other : ¬(r' = r ∧ v' = v)) : (A.setView r v e).view r' v' = A.view r' v' := by
  simp [setView, other]

variable {A : AddressSpaces}

/-- An entry after a change is the new one or an old one. -/
theorem view_setView_cases {v' e' : Nat} {e : Option Nat}
    (mapped : (A.setView r v e).view r' v' = some e') :
    (r' = r ∧ v' = v ∧ e = some e') ∨ (¬(r' = r ∧ v' = v) ∧ A.view r' v' = some e') := by
  by_cases same : r' = r ∧ v' = v
  · obtain ⟨rfl, rfl⟩ := same
    rw [setView_self] at mapped
    exact .inl ⟨rfl, rfl, mapped⟩
  · rw [setView_of_ne _ _ same] at mapped
    exact .inr ⟨same, mapped⟩

theorem setView_setView (A : AddressSpaces) (r v : Nat) (e e' : Option Nat) :
    (A.setView r v e).setView r v e' = A.setView r v e' := by
  unfold setView
  congr 1
  funext r' v'
  by_cases same : r' = r ∧ v' = v <;> simp [same]

@[simp] theorem setOwn_view (A : AddressSpaces) (f : Nat) (n : Option Node) :
    (A.setOwn f n).view = A.view := rfl

@[simp] theorem setOwn_self (A : AddressSpaces) (f : Nat) (n : Option Node) :
    (A.setOwn f n).own f = n := by
  simp [setOwn]

theorem setOwn_of_ne (A : AddressSpaces) (n : Option Node) (other : g ≠ f) :
    (A.setOwn f n).own g = A.own g := by
  simp [setOwn, other]

/-- A table after a change is the new one or an old one. -/
theorem setOwn_cases {n : Option Node} {m : Node}
    (owned : (A.setOwn g n).own f = some m) : f = g ∧ n = some m ∨ f ≠ g ∧ A.own f = some m := by
  by_cases same : f = g
  · subst same
    rw [setOwn_self] at owned
    exact .inl ⟨rfl, owned⟩
  · rw [setOwn_of_ne _ _ same] at owned
    exact .inr ⟨same, owned⟩

theorem setOwn_none {m : Node} (owned : (A.setOwn g none).own f = some m) :
    f ≠ g ∧ A.own f = some m := by
  rcases setOwn_cases owned with ⟨-, gone⟩ | old
  · cases gone
  · exact old

/-- Tables of different levels are different frames. -/
theorem ne_of_level {n' : Node} (here : A.own f = some n)
    (table : A.own t = some n') (levels : n.level ≠ n'.level) : f ≠ t := by
  rintro rfl
  rw [here, Option.some.injEq] at table
  exact levels (congrArg Node.level table)

/-- A frame that is a table is not one that is none. -/
theorem ne_of_own (here : A.own f = some n) (fresh : A.own g = none) : f ≠ g := by
  rintro rfl
  rw [fresh] at here
  cases here

end AddressSpaces

/-- The frames that the boot process left free. -/
def Pool (boot : Paging) (f : Nat) : Prop := boot.frameAllocator.isFree f = true

instance (boot : Paging) : DecidablePred (Pool boot) := fun f =>
  inferInstanceAs (Decidable (boot.frameAllocator.isFree f = true))

theorem Pool.lt {boot : Paging} (pool : Pool boot f) : f < 65536 :=
  (PhysicalFrameAllocator.isFree_iff.mp pool).1

theorem Pool.lt_two_pow {boot : Paging} (pool : Pool boot f) : f < 2 ^ 40 :=
  Nat.lt_trans pool.lt (by decide)

/-- An entry that leads to a table of user pages: user mode may read and write what it
leads to, as far as the entries below allow it. -/
structure Link (e : Nat) : Prop where
  small : isHuge e = false
  user : isUser e = true
  writable : isWritable e = true

/-- Physical memory holds the page-table trees of the address spaces `A`. -/
structure Represents (boot : Paging) (A : AddressSpaces) (mem : Nat → Nat → Nat) : Prop where
  own_pool : ∀ {f n}, A.own f = some n → Pool boot f
  own_member : ∀ {f n}, A.own f = some n → n.root ∈ A.roots
  level_pos : ∀ {f n}, A.own f = some n → 1 ≤ n.level
  level_le : ∀ {f n}, A.own f = some n → n.level ≤ 4
  root_own : ∀ {r}, r ∈ A.roots → A.own r = some ⟨4, r, 0⟩
  own_root : ∀ {f r pos}, A.own f = some ⟨4, r, pos⟩ → f = r ∧ pos = 0
  pos_bound : ∀ {f level r pos}, A.own f = some ⟨level, r, pos⟩ → level < 4 →
    (pos + 1) * 512 ^ level ≤ userPages
  child : ∀ {f level r pos i}, A.own f = some ⟨level + 1, r, pos⟩ → 1 ≤ level →
    i < fan (level + 1) → isPresent (mem f i) = true →
    A.own (frameOf (mem f i)) = some ⟨level, r, pos * 512 + i⟩ ∧ Link (mem f i)
  parent : ∀ {f level r pos}, A.own f = some ⟨level, r, pos⟩ → level < 4 →
    ∃ q, A.own q = some ⟨level + 1, r, pos / 512⟩ ∧ pos % 512 < fan (level + 1) ∧
      isPresent (mem q (pos % 512)) = true ∧ frameOf (mem q (pos % 512)) = f
  inj : ∀ {f g n}, A.own f = some n → A.own g = some n → f = g
  leaf : ∀ {f r pos i}, A.own f = some ⟨1, r, pos⟩ → i < 512 →
    A.view r (pos * 512 + i) = if isPresent (mem f i) then some (mem f i) else none
  unmapped : ∀ {r v}, (∀ f, A.own f ≠ some ⟨1, r, v / 512⟩) → A.view r v = none
  upper : ∀ {r i}, r ∈ A.roots → 256 ≤ i → mem r i = boot.mem (boot.l4TablePhys / 4096) i
  kernel : ∀ {f}, ¬Pool boot f → mem f = boot.mem f

namespace Represents

open AddressSpaces

variable {boot : Paging} {A : AddressSpaces} {mem : Nat → Nat → Nat}

/-- No table sits where its parent has no present entry. -/
theorem no_table (rep : Represents boot A mem)
    (table : A.own t = some ⟨level + 1, r, pos⟩) (below : level < 4) (bound : i < 512)
    (absent : isPresent (mem t i) = false) (f : Nat) :
    A.own f ≠ some ⟨level, r, pos * 512 + i⟩ := by
  intro here
  obtain ⟨q, above, -, present, -⟩ := rep.parent here below
  rw [div_of_index bound] at above
  rw [mod_of_index bound, rep.inj above table, absent] at present
  cases present

variable {e : Nat}

/-- Writing one entry leaves all others alone. -/
theorem entry_of_ne {j : Nat} (other : ¬(f = t ∧ j = i)) :
    update mem t (update (mem t) i e) f j = mem f j := by
  by_cases same : f = t
  · subst same
    rw [update_self, update_of_ne fun index => other ⟨rfl, index⟩]
  · rw [update_of_ne same]

theorem entry_self :
    update mem t (update (mem t) i e) t i = e := by
  rw [update_self, update_self]

section

variable (rep : Represents boot A mem)
include rep

/-- Entries for user pages are not in the upper half of a root. -/
theorem upper_entry {j : Nat}
    (table : A.own t = some ⟨level + 1, r, pos⟩) (bound : i < fan (level + 1))
    (member : r' ∈ A.roots)
    (high : 256 ≤ j) : update mem t (update (mem t) i e) r' j =
      boot.mem (boot.l4TablePhys / 4096) j := by
  rw [entry_of_ne]
  · exact rep.upper member high
  · rintro ⟨rfl, rfl⟩
    rw [rep.root_own member] at table
    cases table
    simp only [fan, if_true] at bound
    omega

/-- Memory in use since boot holds no table. -/
theorem kernel_table {content : Nat → Nat} (table : A.own t = some n) (outside : ¬Pool boot f) :
    update mem t content f = boot.mem f := by
  have other : f ≠ t := by
    rintro rfl
    exact outside (rep.own_pool table)
  rw [update_of_ne other]
  exact rep.kernel outside

/-- Writing a leaf entry changes the view of one page. -/
theorem setLeaf (table : A.own t = some ⟨1, r, pos⟩) (bound : i < 512) (e : Nat) :
    Represents boot (A.setView r (pos * 512 + i) (if isPresent e then some e else none))
      (update mem t (update (mem t) i e)) := by
  have higher : ∀ {f level r' pos'}, A.own f = some ⟨level + 1, r', pos'⟩ → 1 ≤ level → f ≠ t :=
    fun here positive => ne_of_level here table (by simp only; omega)
  refine
    { rep with
      child := ?_, parent := ?_, leaf := ?_, unmapped := ?_
      upper := fun member high => rep.upper_entry table bound member high
      kernel := fun outside => rep.kernel_table table outside }
  · intro f level r' pos' j here positive
    rw [update_of_ne (higher here positive)]
    exact rep.child here positive
  · intro f level r' pos' here below
    obtain ⟨q, above, bounds⟩ := rep.parent here below
    refine ⟨q, above, ?_⟩
    rw [update_of_ne (higher above (rep.level_pos here))]
    exact bounds
  · intro f r' pos' j here boundJ
    by_cases slot : f = t ∧ j = i
    · obtain ⟨rfl, rfl⟩ := slot
      rw [setView_own, table] at here
      cases here
      rw [entry_self, setView_self]
    · rw [entry_of_ne slot, setView_of_ne]
      · exact rep.leaf here boundJ
      · rintro ⟨rfl, page⟩
        have position : pos' = pos := by omega
        subst position
        exact slot ⟨rep.inj here table, by omega⟩
  · intro r' v none
    rw [setView_of_ne]
    · exact rep.unmapped none
    · rintro ⟨rfl, rfl⟩
      refine none t ?_
      rw [div_of_index bound]
      exact table

/-- Rewriting the entry above a table without moving it changes nothing. -/
theorem setParentEntry (table : A.own t = some ⟨level + 1, r, pos⟩) (positive : 1 ≤ level)
    (bound : i < fan (level + 1)) (present : isPresent (mem t i) = true)
    (presentNew : isPresent e = true) (frame : frameOf e = frameOf (mem t i)) (link : Link e) :
    Represents boot A (update mem t (update (mem t) i e)) := by
  refine
    { rep with
      child := ?_, parent := ?_, leaf := ?_
      upper := fun member high => rep.upper_entry table bound member high
      kernel := fun outside => rep.kernel_table table outside }
  · intro f level' r' pos' j here positive' boundJ
    by_cases slot : f = t ∧ j = i
    · obtain ⟨rfl, rfl⟩ := slot
      rw [entry_self, frame]
      exact fun _ => ⟨(rep.child here positive' boundJ present).1, link⟩
    · rw [entry_of_ne slot]
      exact rep.child here positive' boundJ
  · intro f level' r' pos' here below
    obtain ⟨q, above, boundQ, presentQ, points⟩ := rep.parent here below
    refine ⟨q, above, boundQ, ?_⟩
    by_cases slot : q = t ∧ pos' % 512 = i
    · obtain ⟨rfl, rfl⟩ := slot
      rw [entry_self, frame]
      exact ⟨presentNew, points⟩
    · rw [entry_of_ne slot]
      exact ⟨presentQ, points⟩
  · intro f r' pos' j here
    rw [update_of_ne (ne_of_level here table (by simp only; omega))]
    exact rep.leaf here

/-- Only tables and memory in use since boot matter. -/
theorem congr_mem {mem' : Nat → Nat → Nat} (tables : ∀ {f n}, A.own f = some n → mem' f = mem f)
    (outside : ∀ {f}, ¬Pool boot f → mem' f = mem f) : Represents boot A mem' := by
  refine { rep with child := ?_, parent := ?_, leaf := ?_, upper := ?_, kernel := ?_ }
  · intro f level r pos i here
    rw [tables here]
    exact rep.child here
  · intro f level r pos here below
    obtain ⟨q, above, bounds⟩ := rep.parent here below
    refine ⟨q, above, ?_⟩
    rw [tables above]
    exact bounds
  · intro f r pos i here
    rw [tables here]
    exact rep.leaf here
  · intro r i member
    rw [tables (rep.root_own member)]
    exact rep.upper member
  · intro f reserved
    rw [outside reserved]
    exact rep.kernel reserved

/-- Writing to a frame that is not a table changes nothing. -/
theorem setData {d : Nat} (pool : Pool boot d) (data : A.own d = none) (content : Nat → Nat) :
    Represents boot A (update mem d content) := by
  refine rep.congr_mem (fun here => update_of_ne (ne_of_own here data) _ _)
    (fun outside => ?_)
  · refine update_of_ne ?_ _ _
    rintro rfl
    exact outside pool

/-- A mapped page is an entry of an L1 table. -/
theorem leaf_table (mapped : A.view r v = some e) :
    ∃ t, A.own t = some ⟨1, r, v / 512⟩ ∧ mem t (v % 512) = e ∧ isPresent e = true := by
  by_cases table : ∃ t, A.own t = some ⟨1, r, v / 512⟩
  · obtain ⟨t, here⟩ := table
    have entry := rep.leaf here (Nat.mod_lt v (by decide))
    rw [Nat.div_add_mod', mapped] at entry
    split at entry
    · next present =>
        cases entry
        exact ⟨t, here, rfl, present⟩
    · cases entry
  · rw [rep.unmapped fun f here => table ⟨f, here⟩] at mapped
    cases mapped

/-- Only pages of the lower half of existing address spaces are mapped. -/
theorem view_bound (mapped : A.view r v = some e) :
    r ∈ A.roots ∧ v < userPages := by
  obtain ⟨t, here, -, -⟩ := rep.leaf_table mapped
  have bound := rep.pos_bound here (by decide)
  refine ⟨rep.own_member here, ?_⟩
  omega

/-- Linking a fresh empty table below an absent entry. -/
theorem linkTable (table : A.own t = some ⟨level + 1, r, pos⟩) (positive : 1 ≤ level)
    (bound : i < fan (level + 1)) (absent : isPresent (mem t i) = false)
    (pool : Pool boot g) (fresh : A.own g = none)
    (presentNew : isPresent e = true) (frame : frameOf e = g) (link : Link e) :
    Represents boot (A.setOwn g (some ⟨level, r, pos * 512 + i⟩))
      (update (update mem t (update (mem t) i e)) g fun _ => 0) := by
  have below : level < 4 := by
    have := rep.level_le table
    simp only at this
    omega
  have bound' : i < 512 := Nat.lt_of_lt_of_le bound (fan_le _)
  have other : ∀ {f n}, A.own f = some n → f ≠ g :=
    fun here => ne_of_own here fresh
  refine
    { own_pool := ?_, own_member := ?_, level_pos := ?_, level_le := ?_, root_own := ?_,
      own_root := ?_, pos_bound := ?_, child := ?_, parent := ?_, inj := ?_, leaf := ?_,
      unmapped := ?_, upper := ?_, kernel := ?_ }
  · intro f n here
    rcases setOwn_cases here with ⟨rfl, ⟨⟩⟩ | ⟨-, old⟩
    · exact pool
    · exact rep.own_pool old
  · intro f n here
    rcases setOwn_cases here with ⟨rfl, ⟨⟩⟩ | ⟨-, old⟩
    · have member := rep.own_member table
      exact member
    · exact rep.own_member old
  · intro f n here
    rcases setOwn_cases here with ⟨rfl, ⟨⟩⟩ | ⟨-, old⟩
    · exact positive
    · exact rep.level_pos old
  · intro f n here
    rcases setOwn_cases here with ⟨rfl, ⟨⟩⟩ | ⟨-, old⟩
    · exact Nat.le_of_lt below
    · exact rep.level_le old
  · intro r' member
    have root := rep.root_own member
    rw [setOwn_of_ne _ _ (other root)]
    exact root
  · intro f r' pos' here
    rcases setOwn_cases here with ⟨rfl, same⟩ | ⟨-, old⟩
    · simp only [Option.some.injEq, Node.mk.injEq] at same
      omega
    · exact rep.own_root old
  · intro f level' r' pos' here below'
    rcases setOwn_cases here with ⟨rfl, ⟨⟩⟩ | ⟨-, old⟩
    · by_cases top : level + 1 = 4
      · obtain rfl : level = 3 := by omega
        obtain ⟨-, rfl⟩ := rep.own_root table
        simp only [fan, if_true] at bound
        simp only [userPages]
        omega
      · have above := rep.pos_bound table (by omega)
        rw [Nat.pow_succ, Nat.mul_comm (512 ^ level), ← Nat.mul_assoc] at above
        exact Nat.le_trans (Nat.mul_le_mul_right _ (by omega)) above
    · exact rep.pos_bound old below'
  · intro f level' r' pos' j here positive' boundJ presentJ
    rcases setOwn_cases here with ⟨rfl, -⟩ | ⟨different, old⟩
    · rw [update_self] at presentJ
      cases presentJ
    · rw [update_of_ne different] at presentJ ⊢
      by_cases slot : f = t ∧ j = i
      · obtain ⟨rfl, rfl⟩ := slot
        rw [table] at old
        cases old
        rw [entry_self, frame, setOwn_self]
        exact ⟨rfl, link⟩
      · rw [entry_of_ne slot] at presentJ ⊢
        obtain ⟨next, link⟩ := rep.child old positive' boundJ presentJ
        rw [setOwn_of_ne _ _ (other next)]
        exact ⟨next, link⟩
  · intro f level' r' pos' here below'
    rcases setOwn_cases here with ⟨rfl, ⟨⟩⟩ | ⟨different, old⟩
    · refine ⟨t, ?_, ?_⟩
      · rw [setOwn_of_ne _ _ (other table), div_of_index bound']
        exact table
      · rw [mod_of_index bound', update_of_ne (other table), entry_self]
        exact ⟨bound, presentNew, frame⟩
    · obtain ⟨q, above, boundQ, presentQ, points⟩ := rep.parent old below'
      refine ⟨q, ?_, boundQ, ?_⟩
      · rw [setOwn_of_ne _ _ (other above)]
        exact above
      · rw [update_of_ne (other above), entry_of_ne]
        · exact ⟨presentQ, points⟩
        · rintro ⟨rfl, rfl⟩
          rw [absent] at presentQ
          cases presentQ
  · intro f g' n here there
    have free := rep.no_table table below bound' absent
    rcases setOwn_cases here with ⟨rfl, ⟨⟩⟩ | ⟨-, old⟩
    · rcases setOwn_cases there with ⟨rfl, -⟩ | ⟨-, old'⟩
      · rfl
      · exact absurd old' (free g')
    · rcases setOwn_cases there with ⟨rfl, ⟨⟩⟩ | ⟨-, old'⟩
      · exact absurd old (free f)
      · exact rep.inj old old'
  · intro f r' pos' j here boundJ
    rcases setOwn_cases here with ⟨rfl, ⟨⟩⟩ | ⟨different, old⟩
    · rw [update_self, isPresent_zero]
      refine rep.unmapped fun f' => ?_
      rw [div_of_index boundJ]
      exact rep.no_table table below bound' absent f'
    · rw [update_of_ne different, 
        update_of_ne (ne_of_level old table (by simp only; omega))]
      exact rep.leaf old boundJ
  · intro r' v none
    refine rep.unmapped fun f here => none f ?_
    rw [setOwn_of_ne _ _ (other here)]
    exact here
  · intro r' j member high
    rw [update_of_ne (other (rep.root_own member))]
    exact rep.upper_entry table bound member high
  · intro f outside
    have inside : f ≠ g := by
      rintro rfl
      exact outside pool
    rw [update_of_ne inside]
    exact rep.kernel_table table outside

/-- Unlinking a table without present entries from its parent. -/
theorem unlinkTable
    (table : A.own t = some ⟨level + 1, r, pos⟩) (bound : i < 512) (below : level < 4)
    (here : A.own g = some ⟨level, r, pos * 512 + i⟩)
    (empty : ∀ j < 512, isPresent (mem g j) = false) :
    Represents boot (A.setOwn g none) (update mem t (update (mem t) i 0)) := by
  have positive : 1 ≤ level := rep.level_pos here
  have boundFan : i < fan (level + 1) := by
    obtain ⟨q, -, boundQ, -⟩ := rep.parent here below
    rwa [mod_of_index bound] at boundQ
  refine
    { own_pool := fun owned => rep.own_pool (setOwn_none owned).2
      own_member := fun owned => rep.own_member (setOwn_none owned).2
      level_pos := fun owned => rep.level_pos (setOwn_none owned).2
      level_le := fun owned => rep.level_le (setOwn_none owned).2
      root_own := ?_
      own_root := fun owned => rep.own_root (setOwn_none owned).2
      pos_bound := fun owned => rep.pos_bound (setOwn_none owned).2
      child := ?_, parent := ?_
      inj := fun owned owned' => rep.inj (setOwn_none owned).2 (setOwn_none owned').2
      leaf := ?_, unmapped := ?_
      upper := fun member high => rep.upper_entry table boundFan member high
      kernel := fun outside => rep.kernel_table table outside }
  · intro r' member
    have root := rep.root_own member
    rw [setOwn_of_ne _ _ (ne_of_level root here (by simp only; omega))]
    exact root
  · intro f level' r' pos' j owned positive' boundJ present
    obtain ⟨different, owned⟩ := setOwn_none owned
    by_cases slot : f = t ∧ j = i
    · obtain ⟨rfl, rfl⟩ := slot
      rw [entry_self] at present
      cases present
    · rw [entry_of_ne slot] at present ⊢
      obtain ⟨next, link⟩ := rep.child owned positive' boundJ present
      have other : frameOf (mem f j) ≠ g := by
        intro same
        rw [same, here] at next
        simp only [Option.some.injEq, Node.mk.injEq] at next
        obtain ⟨rfl, rfl, position⟩ := next
        have boundJ' : j < 512 := Nat.lt_of_lt_of_le boundJ (fan_le _)
        have position' : pos' = pos := by omega
        subst position'
        exact slot ⟨rep.inj owned table, by omega⟩
      rw [setOwn_of_ne _ _ other]
      exact ⟨next, link⟩
  · intro f level' r' pos' owned below'
    obtain ⟨different, owned⟩ := setOwn_none owned
    obtain ⟨q, above, boundQ, present, points⟩ := rep.parent owned below'
    have other : q ≠ g := by
      rintro rfl
      rw [empty _ (Nat.mod_lt _ (by decide))] at present
      cases present
    refine ⟨q, ?_, boundQ, ?_⟩
    · rw [setOwn_of_ne _ _ other]
      exact above
    · rw [entry_of_ne]
      · exact ⟨present, points⟩
      · rintro ⟨rfl, rfl⟩
        rw [table] at above
        cases above
        rw [Nat.div_add_mod'] at here
        exact different (rep.inj owned here)
  · intro f r' pos' j owned
    obtain ⟨-, owned⟩ := setOwn_none owned
    rw [update_of_ne (ne_of_level owned table (by simp only; omega))]
    exact rep.leaf owned
  · intro r' v none
    rw [setOwn_view]
    by_cases gone : A.own g = some ⟨1, r', v / 512⟩
    · have entry := rep.leaf gone (Nat.mod_lt v (by decide))
      rw [empty _ (Nat.mod_lt v (by decide)), Nat.div_add_mod'] at entry
      exact entry
    · refine rep.unmapped fun f owned => ?_
      have other : f ≠ g := by
        rintro rfl
        exact gone owned
      refine none f ?_
      rw [setOwn_of_ne _ _ other]
      exact owned

/-- Turning a fresh frame into an L4 with an empty user half. -/
theorem addRoot {content : Nat → Nat}
    (pool : Pool boot g) (fresh : A.own g = none) (empty : ∀ i < 256, content i = 0)
    (high : ∀ i, 256 ≤ i → content i = boot.mem (boot.l4TablePhys / 4096) i) :
    Represents boot { A.setOwn g (some ⟨4, g, 0⟩) with roots := insert g A.roots }
      (update mem g content) := by
  have other : ∀ {f n}, A.own f = some n → f ≠ g :=
    fun owned => ne_of_own owned fresh
  have new_root : ∀ {f level pos}, A.own f ≠ some ⟨level, g, pos⟩ := by
    intro f level pos owned
    exact other (rep.root_own (rep.own_member owned)) rfl
  refine
    { own_pool := ?_, own_member := ?_, level_pos := ?_, level_le := ?_, root_own := ?_,
      own_root := ?_, pos_bound := ?_, child := ?_, parent := ?_, inj := ?_, leaf := ?_,
      unmapped := ?_, upper := ?_, kernel := ?_ }
  · intro f n owned
    rcases setOwn_cases owned with ⟨rfl, ⟨⟩⟩ | ⟨-, owned⟩
    · exact pool
    · exact rep.own_pool owned
  · intro f n owned
    rcases setOwn_cases owned with ⟨rfl, ⟨⟩⟩ | ⟨-, owned⟩
    · exact Finset.mem_insert_self _ _
    · exact Finset.mem_insert_of_mem (rep.own_member owned)
  · intro f n owned
    rcases setOwn_cases owned with ⟨rfl, ⟨⟩⟩ | ⟨-, owned⟩
    · exact (by decide : 1 ≤ 4)
    · exact rep.level_pos owned
  · intro f n owned
    rcases setOwn_cases owned with ⟨rfl, ⟨⟩⟩ | ⟨-, owned⟩
    · exact Nat.le_refl 4
    · exact rep.level_le owned
  · intro r member
    rcases Finset.mem_insert.mp member with rfl | member
    · exact setOwn_self _ _ _
    · have root := rep.root_own member
      exact (setOwn_of_ne _ _ (other root)).trans root
  · intro f r pos owned
    rcases setOwn_cases owned with ⟨rfl, ⟨⟩⟩ | ⟨-, owned⟩
    · exact ⟨rfl, rfl⟩
    · exact rep.own_root owned
  · intro f level r pos owned below
    rcases setOwn_cases owned with ⟨rfl, ⟨⟩⟩ | ⟨-, owned⟩
    · omega
    · exact rep.pos_bound owned below
  · intro f level r pos i owned positive bound present
    rcases setOwn_cases owned with ⟨rfl, same⟩ | ⟨different, owned⟩
    · cases same
      have low : i < 256 := by simpa [fan] using bound
      rw [update_self, empty i low] at present
      cases present
    · rw [update_of_ne different] at present ⊢
      obtain ⟨next, link⟩ := rep.child owned positive bound present
      exact ⟨(setOwn_of_ne _ _ (other next)).trans next, link⟩
  · intro f level r pos owned below
    rcases setOwn_cases owned with ⟨rfl, ⟨⟩⟩ | ⟨-, owned⟩
    · omega
    · obtain ⟨q, above, bounds⟩ := rep.parent owned below
      refine ⟨q, (setOwn_of_ne _ _ (other above)).trans above, ?_⟩
      rw [update_of_ne (other above)]
      exact bounds
  · intro f f' n owned owned'
    rcases setOwn_cases owned with ⟨rfl, ⟨⟩⟩ | ⟨-, old⟩
    · rcases setOwn_cases owned' with ⟨rfl, -⟩ | ⟨-, owned'⟩
      · rfl
      · exact absurd owned' new_root
    · rcases setOwn_cases owned' with ⟨rfl, ⟨⟩⟩ | ⟨-, old'⟩
      · exact absurd old new_root
      · exact rep.inj old old'
  · intro f r pos i owned
    rcases setOwn_cases owned with ⟨rfl, same⟩ | ⟨different, owned⟩
    · cases same
    · rw [update_of_ne different]
      exact rep.leaf owned
  · intro r v none
    refine rep.unmapped fun f owned => none f ?_
    exact (setOwn_of_ne _ _ (other owned)).trans owned
  · intro r i member bound
    rcases Finset.mem_insert.mp member with rfl | member
    · rw [update_self]
      exact high i bound
    · rw [update_of_ne (other (rep.root_own member))]
      exact rep.upper member bound
  · intro f outside
    have inside : f ≠ g := by
      rintro rfl
      exact outside pool
    rw [update_of_ne inside]
    exact rep.kernel outside

/-- A root without present user entries is the only table of its address space. -/
theorem only_root (empty : ∀ i < 256, isPresent (mem g i) = false) (depth : Nat) :
    ∀ {f pos}, depth < 3 → A.own f ≠ some ⟨3 - depth, g, pos⟩ := by
  induction depth with
  | zero =>
    intro f pos _ owned
    obtain ⟨q, above, bound, present, -⟩ := rep.parent owned (by decide)
    rw [(rep.own_root above).1, empty _ (by simpa [fan] using bound)] at present
    cases present
  | succ depth ih =>
    intro f pos bound owned
    obtain ⟨q, above, -⟩ := rep.parent owned (by omega)
    have level : 3 - (depth + 1) + 1 = 3 - depth := by omega
    rw [level] at above
    exact ih (by omega) above

/-- Dropping a root without present user entries. -/
theorem removeRoot (member : g ∈ A.roots) (empty : ∀ i < 256, isPresent (mem g i) = false) :
    Represents boot { A.setOwn g none with roots := A.roots.erase g } mem := by
  have other_root : ∀ {f n}, f ≠ g → A.own f = some n → n.root ≠ g := by
    rintro f ⟨level, r, pos⟩ different owned same
    simp only at same
    subst same
    have positive : 1 ≤ level := rep.level_pos owned
    have bound : level ≤ 4 := rep.level_le owned
    by_cases top : level = 4
    · subst top
      exact different (rep.own_root owned).1
    · have level_eq : level = 3 - (3 - level) := by omega
      rw [level_eq] at owned
      exact rep.only_root empty (3 - level) (by omega) owned
  have kept : ∀ {f n}, n.root ≠ g → A.own f = some n → (A.setOwn g none).own f = some n := by
    intro f n different owned
    refine (setOwn_of_ne _ _ ?_).trans owned
    rintro rfl
    rw [rep.root_own member] at owned
    cases owned
    exact different rfl
  refine
    { own_pool := fun owned => rep.own_pool (setOwn_none owned).2
      own_member := fun owned => Finset.mem_erase.mpr
        ⟨other_root (setOwn_none owned).1 (setOwn_none owned).2,
          rep.own_member (setOwn_none owned).2⟩
      level_pos := fun owned => rep.level_pos (setOwn_none owned).2
      level_le := fun owned => rep.level_le (setOwn_none owned).2
      root_own := ?_
      own_root := fun owned => rep.own_root (setOwn_none owned).2
      pos_bound := fun owned => rep.pos_bound (setOwn_none owned).2
      child := ?_, parent := ?_
      inj := fun owned owned' => rep.inj (setOwn_none owned).2 (setOwn_none owned').2
      leaf := fun owned => rep.leaf (setOwn_none owned).2
      unmapped := ?_
      upper := fun kept high => rep.upper (Finset.mem_of_mem_erase kept) high
      kernel := rep.kernel }
  · intro r present
    obtain ⟨different, present⟩ := Finset.mem_erase.mp present
    exact kept different (rep.root_own present)
  · intro f level r pos i owned positive bound present
    obtain ⟨different, owned⟩ := setOwn_none owned
    obtain ⟨next, link⟩ := rep.child owned positive bound present
    have root : r ≠ g := other_root different owned
    exact ⟨kept root next, link⟩
  · intro f level r pos owned below
    obtain ⟨different, owned⟩ := setOwn_none owned
    obtain ⟨q, above, bounds⟩ := rep.parent owned below
    have root : r ≠ g := other_root different owned
    exact ⟨q, kept root above, bounds⟩
  · intro r v none
    refine rep.unmapped fun f owned => ?_
    by_cases same : f = g
    · subst same
      rw [rep.root_own member] at owned
      cases owned
    · exact none f ((setOwn_of_ne _ _ same).trans owned)

end

end Represents

end OxideOS.Mem
