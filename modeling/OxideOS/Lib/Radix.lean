import Mathlib.Data.List.Basic

/-!
# Radix trees in memory

Tables of entries, where an entry may lead to a further table. `nodeAt` is the table
that a path of indices leads to from the root. When no two paths lead to one table
(`Unshared`), an entry belongs to one path only: changing it without changing where it
leads changes no walk (`nodeAt_congr`), and making an empty entry lead to a fresh, empty
table adds exactly that table (`LinksFresh.nodeAt_eq_some_iff`).
-/

set_option autoImplicit false

namespace OxideOS.Lib

universe u v w

variable {ι : Type u} {κ : Type v} {ε : Type w}

/-- The table that the path leads to; `child` is the table an entry leads to. -/
def nodeAt (child : ε → Option ι) (mem : ι → κ → ε) : ι → List κ → Option ι
  | t, [] => some t
  | t, i :: rest => (child (mem t i)).bind fun t' => nodeAt child mem t' rest

section Walks

variable {child : ε → Option ι} {mem mem' : ι → κ → ε} {r s t g : ι} {path rest : List κ} {i : κ}

@[simp] theorem nodeAt_nil : nodeAt child mem r [] = some r := rfl

theorem nodeAt_cons :
    nodeAt child mem r (i :: rest) =
      (child (mem r i)).bind fun t => nodeAt child mem t rest := rfl

theorem nodeAt_append :
    nodeAt child mem r (path ++ rest) =
      (nodeAt child mem r path).bind fun t => nodeAt child mem t rest := by
  induction path generalizing r with
  | nil => rfl
  | cons j path ih =>
    rw [List.cons_append, nodeAt_cons, nodeAt_cons]
    cases child (mem r j) with
    | none => rfl
    | some t => exact ih

/-- One step further along the path. -/
theorem nodeAt_snoc (found : nodeAt child mem r path = some t) :
    nodeAt child mem r (path ++ [i]) = child (mem t i) := by
  rw [nodeAt_append, found, Option.bind_some, nodeAt_cons]
  cases child (mem t i) with
  | none => rfl
  | some s => rfl

/-- A walk depends only on where the entries it passes lead. -/
theorem nodeAt_congr
    (same : ∀ before i after t, path = before ++ i :: after →
      nodeAt child mem r before = some t → child (mem' t i) = child (mem t i)) :
    nodeAt child mem' r path = nodeAt child mem r path := by
  induction path generalizing r with
  | nil => rfl
  | cons j path ih =>
    rw [nodeAt_cons, nodeAt_cons, same [] j path r rfl rfl]
    cases next : child (mem r j) with
    | none => rfl
    | some t =>
      refine ih fun before i after s split found => ?_
      refine same (j :: before) i after s (by rw [split, List.cons_append]) ?_
      rw [nodeAt_cons, next]
      exact found

end Walks

/-- The paths in question, with all of their beginnings. -/
structure PathSet (κ : Type v) where
  Mem : List κ → Prop
  closed : ∀ before after, Mem (before ++ after) → Mem before

/-- No two paths lead to one table. -/
def Unshared (child : ε → Option ι) (mem : ι → κ → ε) (r : ι) (paths : PathSet κ) : Prop :=
  ∀ path path' t, paths.Mem path → paths.Mem path' → nodeAt child mem r path = some t →
    nodeAt child mem r path' = some t → path = path'

/-- From `mem` to `mem'` the empty entry at `i` of the table `t` has been made to lead to
`g`, a table that was not in the tree and has no entries. -/
structure LinksFresh (child : ε → Option ι) (mem mem' : ι → κ → ε) (r : ι) (paths : PathSet κ)
    (path : List κ) (t : ι) (i : κ) (g : ι) : Prop where
  found : nodeAt child mem r path = some t
  member : paths.Mem path
  free : child (mem t i) = none
  fresh : ∀ path', paths.Mem path' → nodeAt child mem r path' ≠ some g
  linked : child (mem' t i) = some g
  empty : ∀ j, child (mem' g j) = none
  others : ∀ s j, s ≠ g → s ≠ t ∨ j ≠ i → child (mem' s j) = child (mem s j)

namespace LinksFresh

variable {child : ε → Option ι} {mem mem' : ι → κ → ε} {r s t g : ι} {paths : PathSet κ}
variable {path path' : List κ} {i : κ}

section

variable (link : LinksFresh child mem mem' r paths path t i g)
include link

/-- The walks that do not pass the new entry are as before. -/
theorem nodeAt_eq (unshared : Unshared child mem r paths) (member' : paths.Mem path')
    (apart : ∀ rest, path' ≠ path ++ i :: rest) :
    nodeAt child mem' r path' = nodeAt child mem r path' := by
  refine nodeAt_congr fun before j after s split found => ?_
  have member : paths.Mem before := paths.closed before (j :: after) (split ▸ member')
  have old : s ≠ g := by
    rintro rfl
    exact link.fresh before member found
  refine link.others s j old ?_
  by_contra same
  push Not at same
  obtain ⟨rfl, rfl⟩ := same
  obtain rfl := unshared before path s member link.member found link.found
  exact apart after split

/-- The tables are those there were and the new one. -/
theorem nodeAt_eq_some_iff (unshared : Unshared child mem r paths) (member' : paths.Mem path') :
    nodeAt child mem' r path' = some s ↔
      nodeAt child mem r path' = some s ∨ path' = path ++ [i] ∧ s = g := by
  by_cases beyond : ∃ rest, path' = path ++ i :: rest
  · obtain ⟨rest, rfl⟩ := beyond
    have before : nodeAt child mem r (path ++ i :: rest) = none := by
      rw [nodeAt_append, link.found, Option.bind_some, nodeAt_cons, link.free, Option.bind_none]
    have reached : nodeAt child mem' r path = some t := by
      rw [link.nodeAt_eq unshared link.member fun rest split => ?_]
      · exact link.found
      · have longer := congrArg List.length split
        simp at longer
    rw [before, nodeAt_append, reached, Option.bind_some, nodeAt_cons, link.linked,
      Option.bind_some]
    cases rest with
    | nil => simp [eq_comm]
    | cons j rest => simp [nodeAt_cons, link.empty]
  · push Not at beyond
    rw [link.nodeAt_eq unshared member' beyond]
    refine ⟨.inl, fun known => known.resolve_right fun new => ?_⟩
    exact beyond [] new.1

theorem unshared (before : Unshared child mem r paths) : Unshared child mem' r paths := by
  intro path₁ path₂ s member₁ member₂ found₁ found₂
  rw [link.nodeAt_eq_some_iff before member₁] at found₁
  rw [link.nodeAt_eq_some_iff before member₂] at found₂
  rcases found₁ with old₁ | ⟨new₁, rfl⟩
  · rcases found₂ with old₂ | ⟨-, rfl⟩
    · exact before path₁ path₂ s member₁ member₂ old₁ old₂
    · exact absurd old₁ (link.fresh path₁ member₁)
  · rcases found₂ with old₂ | ⟨new₂, -⟩
    · exact absurd old₂ (link.fresh path₂ member₂)
    · rw [new₁, new₂]

end

end LinksFresh

end OxideOS.Lib
