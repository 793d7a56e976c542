import Mathlib.Data.List.DropRight
import Mathlib.Tactic.Common

/-!
# Paths

A path is a list of characters, cut into segments at a separator. Its components
are the segments that are not empty, so that doubled and trailing separators do
not count. `joinPath` writes a list of names as an absolute path, and
`components_joinPath` reads them back.
-/

set_option autoImplicit false

namespace OxideOS.Lib

universe u

variable {α : Type u} [DecidableEq α] (sep : α)

/-- The parts between separators; a path without separator is one part. -/
def segments : List α → List (List α)
  | [] => [[]]
  | c :: rest =>
    if c = sep then [] :: segments rest
    else
      match segments rest with
      | [] => [[c]]
      | first :: others => (c :: first) :: others

/-- The parts that are not empty. -/
def components (path : List α) : List (List α) := (segments sep path).filter fun s => !s.isEmpty

/-- The absolute path through the given names. -/
def joinPath (names : List (List α)) : List α := names.flatMap fun name => sep :: name

/-- A name as it can occur in a path. -/
def IsName (name : List α) : Prop := name ≠ [] ∧ sep ∉ name

variable {sep} {path rest name : List α}

theorem segments_ne_nil : segments sep path ≠ [] := by
  cases path with
  | nil => simp [segments]
  | cons c rest =>
    rw [segments]
    split
    · simp
    · split <;> simp

/-- Segments of a path that is cut at one of its separators. -/
theorem segments_append_sep :
    segments sep (path ++ sep :: rest) = segments sep path ++ segments sep rest := by
  induction path with
  | nil => simp [segments]
  | cons c path ih =>
    rw [List.cons_append, segments, segments]
    split
    · rw [ih, List.cons_append]
    · rw [ih]
      cases first : segments sep path with
      | nil => exact absurd first segments_ne_nil
      | cons s ss => rfl

theorem segments_of_notMem (whole : sep ∉ path) : segments sep path = [path] := by
  induction path with
  | nil => rfl
  | cons c path ih =>
    rw [List.mem_cons, not_or] at whole
    rw [segments, if_neg (Ne.symm whole.1), ih whole.2]

@[simp] theorem components_nil : components sep ([] : List α) = [] := rfl

/-- Components of a path that is cut at one of its separators. -/
theorem components_append_sep :
    components sep (path ++ sep :: rest) = components sep path ++ components sep rest := by
  rw [components, segments_append_sep, List.filter_append]
  rfl

theorem components_sep_cons : components sep (sep :: rest) = components sep rest := by
  rw [← List.nil_append (sep :: rest), components_append_sep, components_nil, List.nil_append]

theorem components_of_isName (valid : IsName sep name) : components sep name = [name] := by
  rw [components, segments_of_notMem valid.2]
  simp [valid.1]

/-- Trailing separators do not count. -/
theorem components_rdropWhile :
    components sep (path.rdropWhile (· = sep)) = components sep path := by
  induction path using List.reverseRecOn with
  | nil => rfl
  | append_singleton path c ih =>
    by_cases same : c = sep
    · rw [List.rdropWhile_concat_pos _ _ _ (by simpa using same), ih, same,
        components_append_sep, components_nil, List.append_nil]
    · rw [List.rdropWhile_concat_neg _ _ _ (by simpa using same)]

/-- What comes before the last name is empty or ends in a separator. -/
theorem rdropWhile_eq_nil_or_concat :
    path.rdropWhile (· ≠ sep) = [] ∨ ∃ dir, path.rdropWhile (· ≠ sep) = dir ++ [sep] := by
  by_cases empty : path.rdropWhile (· ≠ sep) = []
  · exact .inl empty
  · refine .inr ⟨(path.rdropWhile (· ≠ sep)).dropLast, ?_⟩
    have last := List.rdropWhile_last_not (fun c => decide (c ≠ sep)) path empty
    have isSep : (path.rdropWhile (· ≠ sep)).getLast empty = sep := by simpa using last
    have whole := List.dropLast_append_getLast empty
    rw [isSep] at whole
    exact whole.symm

/-- Components before and in the last name. -/
theorem components_split :
    components sep path
      = components sep (path.rdropWhile (· ≠ sep)) ++ components sep
        (path.rtakeWhile (· ≠ sep)) := by
  have whole : path.rdropWhile (· ≠ sep) ++ path.rtakeWhile (· ≠ sep) = path :=
    List.rdropWhile_append_rtakeWhile ..
  rcases @rdropWhile_eq_nil_or_concat _ _ sep path with none | ⟨dir, cut⟩
  · rw [none] at whole ⊢
    rw [List.nil_append] at whole
    rw [whole, components_nil, List.nil_append]
  · rw [cut] at whole ⊢
    rw [components_append_sep, components_nil, List.append_nil, ← components_append_sep]
    rw [List.append_assoc, List.singleton_append] at whole
    rw [whole]

/-- The separator before the last name does not count. -/
theorem components_dropLast_rdropWhile :
    components sep (path.rdropWhile (· ≠ sep)).dropLast
      = components sep (path.rdropWhile (· ≠ sep)) := by
  rcases @rdropWhile_eq_nil_or_concat _ _ sep path with none | ⟨dir, cut⟩
  · rw [none, List.dropLast_nil]
  · rw [cut, List.dropLast_concat, components_append_sep, components_nil, List.append_nil]

/-- A path that does not end in a separator ends in a name. -/
theorem isName_rtakeWhile (filled : path ≠ []) (ends : path.getLast filled ≠ sep) :
    IsName sep (path.rtakeWhile (· ≠ sep)) := by
  constructor
  · rw [Ne, List.rtakeWhile_eq_nil_iff]
    intro stops
    exact stops filled (by simpa using ends)
  · intro member
    simpa using List.mem_rtakeWhile_imp member

/-- The names written as a path read back. -/
theorem components_joinPath {names : List (List α)} (valid : ∀ name ∈ names, IsName sep name) :
    components sep (joinPath sep names) = names := by
  induction names with
  | nil => rfl
  | cons name names ih =>
    have rest := ih fun other member => valid other (List.mem_cons_of_mem name member)
    have own := components_of_isName (valid name List.mem_cons_self)
    rw [joinPath, List.flatMap_cons, List.cons_append, components_sep_cons]
    cases names with
    | nil => simpa using own
    | cons next more =>
      rw [← joinPath]
      have cut : joinPath sep (next :: more) = sep :: (next ++ joinPath sep more) := by
        simp [joinPath]
      rw [cut] at rest ⊢
      rw [components_append_sep, own]
      rw [components_sep_cons] at rest
      rw [rest]
      rfl

/-- A path cut at its last separator, when a name follows. -/
theorem rtakeWhile_append_name {dir : List α} (valid : IsName sep name) :
    (dir ++ sep :: name).rtakeWhile (· ≠ sep) = name ∧
      (dir ++ sep :: name).rdropWhile (· ≠ sep) = dir ++ [sep] := by
  have whole : ∀ rest : List α, sep ∉ rest →
      (dir ++ sep :: rest).rtakeWhile (· ≠ sep) = rest ∧
        (dir ++ sep :: rest).rdropWhile (· ≠ sep) = dir ++ [sep] := by
    intro rest
    induction rest using List.reverseRecOn with
    | nil =>
      intro _
      rw [List.rtakeWhile_concat_neg _ _ _ (by simp), List.rdropWhile_concat_neg _ _ _ (by simp)]
      exact ⟨rfl, rfl⟩
    | append_singleton rest c ih =>
      intro absent
      rw [List.mem_append, not_or, List.mem_singleton] at absent
      have other : c ≠ sep := Ne.symm absent.2
      rw [← List.cons_append, ← List.append_assoc,
        List.rtakeWhile_concat_pos _ _ _ (by simpa using other),
        List.rdropWhile_concat_pos _ _ _ (by simpa using other)]
      exact ⟨by rw [(ih absent.1).1], (ih absent.1).2⟩
  exact whole name valid.2

/-- Names written as lines read back. -/
theorem components_lines {names : List (List α)} (valid : ∀ name ∈ names, IsName sep name) :
    components sep (names.flatMap fun name => name ++ [sep]) = names := by
  induction names with
  | nil => rfl
  | cons name names ih =>
    rw [List.flatMap_cons, List.append_assoc, List.singleton_append, components_append_sep,
      components_of_isName (valid name List.mem_cons_self),
      ih fun other member => valid other (List.mem_cons_of_mem name member)]
    rfl

end OxideOS.Lib
