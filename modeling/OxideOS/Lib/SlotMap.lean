import OxideOS.Lib.Table
import Mathlib.Data.Finmap
import Mathlib.Data.Finset.Card

/-!
# Finite maps kept in a table of slots

A table of `size` slots, each empty or holding a key with a value, stands for a
finite map when no two slots hold the same key (`Represents`). Overwriting,
filling and clearing a slot are insertion and removal in the map; the table is
full exactly when the map has `size` keys; the keys in slot order are the keys of
the map, each once.
-/

set_option autoImplicit false

namespace OxideOS.Lib

open Function

universe u v

variable {κ : Type u} {ν : Type v} [DecidableEq κ]

/-- The slots below `size` hold exactly the pairs of the map, each key once. -/
structure Represents (size : Nat) (slots : Nat → Option (κ × ν)) (m : Finmap fun _ : κ => ν) :
    Prop where
  found : ∀ k v, m.lookup k = some v ↔ ∃ i < size, slots i = some (k, v)
  distinct : ∀ {i j k v w}, i < size → j < size → slots i = some (k, v) → slots j = some (k, w) →
    i = j

/-- The keys in slot order. -/
def slotKeys (size : Nat) (slots : Nat → Option (κ × ν)) : List κ :=
  (List.range size).filterMap fun i => (slots i).map Prod.fst

variable {size i : Nat} {slots : Nat → Option (κ × ν)} {m : Finmap fun _ : κ => ν} {k : κ} {v : ν}

theorem represents_empty (empty : ∀ i < size, slots i = none) :
    Represents size slots (∅ : Finmap fun _ : κ => ν) where
  found k v := by
    rw [Finmap.lookup_empty]
    constructor
    · intro impossible
      cases impossible
    · rintro ⟨i, inside, filled⟩
      rw [empty i inside] at filled
      cases filled
  distinct inside _ filled _ := by
    rw [empty _ inside] at filled
    cases filled

namespace Represents

section

variable (rep : Represents size slots m)
include rep

theorem lookup (inside : i < size) (filled : slots i = some (k, v)) : m.lookup k = some v :=
  (rep.found k v).mpr ⟨i, inside, filled⟩

theorem mem_iff : k ∈ m ↔ ∃ i < size, ∃ v, slots i = some (k, v) := by
  rw [Finmap.mem_iff]
  constructor
  · rintro ⟨v, present⟩
    obtain ⟨i, inside, filled⟩ := (rep.found k v).mp present
    exact ⟨i, inside, v, filled⟩
  · rintro ⟨i, inside, v, filled⟩
    exact ⟨v, rep.lookup inside filled⟩

/-- A slot that holds no key but `k`, the only one that does, gets new content. -/
theorem replace {m' : Finmap fun _ : κ => ν} {content : Option ν} (inside : i < size)
    (alone : ∀ {j w}, j < size → slots j = some (k, w) → j = i)
    (own : ∀ {l w}, slots i = some (l, w) → l = k)
    (here : m'.lookup k = content) (elsewhere : ∀ {l}, l ≠ k → m'.lookup l = m.lookup l) :
    Represents size (update slots i (content.map (k, ·))) m' := by
  have filled : ∀ {j l w}, j < size → (update slots i (content.map (k, ·)) j = some (l, w) ↔
      l = k ∧ j = i ∧ content = some w ∨ l ≠ k ∧ slots j = some (l, w)) := by
    intro j l w insideJ
    by_cases same : j = i
    · subst same
      have other : slots j = some (l, w) → l = k := own
      rw [update_self, Option.map_eq_some_iff]
      grind
    · have other : slots j = some (l, w) → l ≠ k := by
        rintro filled rfl
        exact same (alone insideJ filled)
      rw [update_of_ne same]
      grind
  constructor
  · intro l w
    by_cases same : l = k
    · rw [same, here]
      constructor
      · exact fun stored => ⟨i, inside, (filled inside).mpr (.inl ⟨rfl, rfl, stored⟩)⟩
      · rintro ⟨j, insideJ, there⟩
        rcases (filled insideJ).mp there with ⟨-, -, stored⟩ | ⟨ne, -⟩
        · exact stored
        · exact absurd rfl ne
    · rw [elsewhere same, rep.found]
      refine exists_congr fun j => and_congr_right fun insideJ => ?_
      rw [filled insideJ]
      simp [same]
  · intro j j' l w w' insideJ insideJ' there there'
    rcases (filled insideJ).mp there with ⟨key, first, -⟩ | ⟨ne, old⟩ <;>
      rcases (filled insideJ').mp there' with ⟨key', second, -⟩ | ⟨ne', old'⟩
    · exact first.trans second.symm
    · exact absurd key ne'
    · exact absurd key' ne
    · exact rep.distinct insideJ insideJ' old old'

/-- Putting a pair in the slot of its key, or in an empty slot when the key is
new, inserts it. -/
theorem store (inside : i < size)
    (place : (∃ w, slots i = some (k, w)) ∨ (slots i = none ∧ k ∉ m)) :
    Represents size (update slots i (some (k, v))) (m.insert k v) := by
  refine rep.replace (k := k) inside ?_ ?_ (Finmap.lookup_insert _) (Finmap.lookup_insert_of_ne _)
  · intro j w insideJ filled
    rcases place with ⟨old, here⟩ | ⟨-, fresh⟩
    · exact rep.distinct insideJ inside filled here
    · exact absurd (rep.mem_iff.mpr ⟨j, insideJ, w, filled⟩) fresh
  · intro l w filled
    rcases place with ⟨old, here⟩ | ⟨here, -⟩ <;> cases here.symm.trans filled
    rfl

/-- Clearing the slot of a key removes the key. -/
theorem clear (inside : i < size) (held : slots i = some (k, v)) :
    Represents size (update slots i none) (m.erase k) := by
  refine rep.replace (k := k) inside ?_ ?_ (Finmap.lookup_erase ..) Finmap.lookup_erase_ne
  · intro j w insideJ filled
    exact rep.distinct insideJ inside filled held
  · intro l w filled
    cases held.symm.trans filled
    rfl

end

/-! ## Keys and their number -/

section

variable (rep : Represents size slots m)
include rep

theorem mem_slotKeys : k ∈ slotKeys size slots ↔ k ∈ m := by
  rw [rep.mem_iff, slotKeys, List.mem_filterMap]
  refine exists_congr fun i => ?_
  rw [List.mem_range]
  refine and_congr_right fun _ => ?_
  cases slots i with
  | none => simp
  | some pair =>
    obtain ⟨l, w⟩ := pair
    simp

theorem nodup_slotKeys : (slotKeys size slots).Nodup := by
  rw [slotKeys, List.Nodup, List.pairwise_filterMap]
  refine List.Pairwise.imp_of_mem ?_ List.nodup_range
  intro i j memI memJ apart k held l held' same
  subst same
  obtain ⟨⟨_, v⟩, filled, rfl⟩ := Option.map_eq_some_iff.mp held
  obtain ⟨⟨_, w⟩, filled', rfl⟩ := Option.map_eq_some_iff.mp held'
  exact apart (rep.distinct (List.mem_range.mp memI) (List.mem_range.mp memJ) filled filled')

theorem length_slotKeys : (slotKeys size slots).length = m.keys.card := by
  rw [← List.toFinset_card_of_nodup rep.nodup_slotKeys]
  congr 1
  ext k
  rw [List.mem_toFinset, rep.mem_slotKeys, Finmap.mem_keys]

theorem card_le : m.keys.card ≤ size := by
  rw [← rep.length_slotKeys]
  exact Nat.le_trans (List.length_filterMap_le _ _) (Nat.le_of_eq List.length_range)

/-- Every slot is taken exactly when the map has as many keys as there are slots. -/
theorem full_iff : (∀ i < size, slots i ≠ none) ↔ m.keys.card = size := by
  have taken := List.filterMap_length_eq_length (f := fun i => (slots i).map Prod.fst)
    (l := List.range size)
  rw [List.length_range] at taken
  rw [← rep.length_slotKeys, slotKeys, taken]
  simp [Option.isSome_iff_ne_none]

end

end Represents

end OxideOS.Lib
