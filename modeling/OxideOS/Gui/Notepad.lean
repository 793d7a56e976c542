import Mathlib.Data.Prod.Lex
import Mathlib.Order.Bounds.Basic
import OxideOS.Lib.Search

/-!
# The search of the notepad

`find_next` of `gui/notepad.rs` goes through the rows from the position after the last
match on, and a second time from the start of the text. The last match may be stale: the
text and the query can have changed since. Positions are compared in reading order, the
lexicographic order of row and column.

The search stops at the least occurrence after the last match, or else at the least of
all, and it fails only if there is none (`findNext_complete`).
-/

set_option autoImplicit false

namespace OxideOS.Gui

open Lib

def maxLines : Nat := 1024

/-- The text, the query in the bar, the last match and the cursor. A row of `lines` holds
the bytes up to the length of the line. The rows are those of the buffer: opening a file
with 1024 line ends counts one more, and a search that gets there is out of range. -/
structure Notepad where
  lines : Nat → List UInt8
  numLines : Nat
  numLines_le : numLines ≤ maxLines
  barText : List UInt8
  findHasMatch : Bool
  findMatchRow : Nat
  findMatchCol : Nat
  cursorRow : Nat
  cursorCol : Nat
  scrollTop : Nat

namespace Notepad

def ensureVisible (n : Notepad) (approxRows : Nat) : Notepad :=
  { n with scrollTop :=
      if n.cursorRow < n.scrollTop then n.cursorRow
      else if n.scrollTop + approxRows ≤ n.cursorRow ∧ 0 < approxRows then
        n.cursorRow + 1 - approxRows
      else n.scrollTop }

/-- The first match in a row from the column `colFrom` on. -/
def searchRow (n : Notepad) (row colFrom : Nat) : Option (Nat ×ₗ Nat) :=
  if n.barText.length ≤ (n.lines row).length then
    ((List.range' colFrom ((n.lines row).length - n.barText.length + 1 - colFrom)).find? fun col =>
      ((n.lines row).drop col).take n.barText.length == n.barText).map fun col => toLex (row, col)
  else none

/-- One pass over the rows. -/
def searchFrom (n : Notepad) (rowStart colStart : Nat) : Option (Nat ×ₗ Nat) :=
  (List.range (n.numLines - rowStart)).findSome? fun i =>
    n.searchRow (rowStart + i) (if i = 0 then colStart else 0)

/-- The position after the last match. The length of the row is out of range beyond the
last line of the buffer. -/
def searchStart (n : Notepad) : Option (Nat × Nat) :=
  if n.findHasMatch then
    if n.findMatchRow < maxLines then
      if (n.lines n.findMatchRow).length < n.findMatchCol + 1 + n.barText.length then
        some (n.findMatchRow + 1, 0)
      else some (n.findMatchRow, n.findMatchCol + 1)
    else none
  else some (0, 0)

def findNext (n : Notepad) : Option Notepad :=
  if n.barText = [] then some { n with findHasMatch := false }
  else n.searchStart.map fun start =>
    match (n.searchFrom start.1 start.2).or
      (if start = (0, 0) then none else n.searchFrom 0 0) with
    | some p =>
        { n with findMatchRow := (ofLex p).1, findMatchCol := (ofLex p).2, findHasMatch := true,
                 cursorRow := (ofLex p).1, cursorCol := (ofLex p).2 }.ensureVisible 20
    | none => { n with findHasMatch := false }

/-! ## Occurrences in reading order -/

/-- The query stands at the position `p`. -/
def Occurs (n : Notepad) (p : Nat ×ₗ Nat) : Prop :=
  (ofLex p).1 < n.numLines ∧ n.barText <+: (n.lines (ofLex p).1).drop (ofLex p).2

/-- The position `p` comes after the last match, if there is one. -/
def Passed (n : Notepad) (p : Nat ×ₗ Nat) : Prop :=
  n.findHasMatch = true → toLex (n.findMatchRow, n.findMatchCol) < p

/-- What the search is to find: the first occurrence after the last match, or else the
first of all. -/
structure Finds (n n' : Notepad) : Prop where
  found_iff : n'.findHasMatch = true ↔ ∃ p, n.Occurs p
  selected : n'.findHasMatch = true →
    n'.cursorRow = n'.findMatchRow ∧ n'.cursorCol = n'.findMatchCol ∧
    (IsLeast {p | n.Occurs p ∧ n.Passed p} (toLex (n'.findMatchRow, n'.findMatchCol)) ∨
      (∀ p, n.Occurs p → ¬ n.Passed p) ∧
        IsLeast {p | n.Occurs p} (toLex (n'.findMatchRow, n'.findMatchCol)))

variable {n : Notepad} {p : Nat ×ₗ Nat} {row col : Nat}

theorem slice_eq_iff : (((n.lines row).drop col).take n.barText.length == n.barText) = true ↔
    n.barText <+: (n.lines row).drop col := by
  rw [beq_iff_eq, List.prefix_iff_eq_take, eq_comm]

theorem col_le (asked : n.barText ≠ []) (here : n.barText <+: (n.lines row).drop col) :
    col + n.barText.length ≤ (n.lines row).length := by
  have fits := here.length_le
  have some_ := List.length_pos_of_ne_nil asked
  rw [List.length_drop] at fits
  omega

theorem searchRow_some {colFrom : Nat} (found : n.searchRow row colFrom = some p) :
    (ofLex p).1 = row ∧ colFrom ≤ (ofLex p).2 ∧ n.barText <+: (n.lines row).drop (ofLex p).2 ∧
      ∀ col, colFrom ≤ col → n.barText <+: (n.lines row).drop col → (ofLex p).2 ≤ col := by
  unfold searchRow at found
  split at found
  · obtain ⟨c, first, rfl⟩ := Option.map_eq_some_iff.mp found
    obtain ⟨here, member, earlier⟩ := List.find?_range'_eq_some.mp first
    refine ⟨rfl, (List.mem_range'_1.mp member).1, slice_eq_iff.mp here, fun col late other => ?_⟩
    by_contra before
    have missed := earlier col late (not_le.mp before)
    rw [slice_eq_iff.mpr other] at missed
    cases missed
  · cases found

theorem searchRow_none {colFrom : Nat} (asked : n.barText ≠ [])
    (missed : n.searchRow row colFrom = none) (late : colFrom ≤ col) :
    ¬ n.barText <+: (n.lines row).drop col := by
  intro here
  have fits := col_le asked here
  rw [searchRow, if_pos (by omega), Option.map_eq_none_iff, List.find?_eq_none] at missed
  exact missed col (List.mem_range'_1.mpr (by omega)) (slice_eq_iff.mpr here)

/-- The positions from `(row, col)` on, by the number of rows in between. -/
theorem le_iff_row : toLex (row, col) ≤ p ↔
    ∃ i, (ofLex p).1 = row + i ∧ (if i = 0 then col else 0) ≤ (ofLex p).2 := by
  rw [Prod.Lex.le_iff]
  constructor
  · rintro (before | ⟨same, late⟩)
    · exact ⟨(ofLex p).1 - row, (Nat.add_sub_of_le before.le).symm,
        (if_neg (Nat.sub_ne_zero_of_lt before)).trans_le (Nat.zero_le _)⟩
    · exact ⟨0, same.symm, late⟩
  · rintro ⟨i, there, late⟩
    rcases i.eq_zero_or_pos with rfl | more
    · exact .inr ⟨there.symm, late⟩
    · exact .inl (by rw [there]; exact Nat.lt_add_of_pos_right more)

theorem searchFrom_some (asked : n.barText ≠ []) (found : n.searchFrom row col = some p) :
    IsLeast {q | n.Occurs q ∧ toLex (row, col) ≤ q} p := by
  obtain ⟨i, bound, answer, first⟩ := findSome?_range_eq_some found
  obtain ⟨there, late, here, least⟩ := searchRow_some answer
  refine ⟨⟨⟨?_, there ▸ here⟩, le_iff_row.mpr ⟨i, there, late⟩⟩, ?_⟩
  · rw [there]
    omega
  · rintro q ⟨⟨-, other⟩, after⟩
    obtain ⟨j, row', late'⟩ := le_iff_row.mp after
    rw [row'] at other
    rw [Prod.Lex.le_iff, there, row']
    rcases lt_trichotomy j i with before | rfl | behind
    · exact absurd other (searchRow_none asked (first j before) late')
    · exact .inr ⟨rfl, least _ late' other⟩
    · exact .inl (Nat.add_lt_add_left behind row)

theorem searchFrom_none (asked : n.barText ≠ []) (missed : n.searchFrom row col = none)
    (occurs : n.Occurs p) : ¬ toLex (row, col) ≤ p := by
  intro after
  obtain ⟨inside, here⟩ := occurs
  obtain ⟨i, there, late⟩ := le_iff_row.mp after
  rw [there] at inside here
  have none_ := List.findSome?_eq_none_iff.mp missed i (List.mem_range.mpr (by omega))
  exact searchRow_none asked none_ late here

theorem zero_le (p : Nat ×ₗ Nat) : toLex (0, 0) ≤ p :=
  le_iff_row.mpr ⟨(ofLex p).1, (Nat.zero_add _).symm, by split <;> exact Nat.zero_le _⟩

/-- An occurrence is after the last match if it is not before the start of the search. -/
theorem passed_iff (asked : n.barText ≠ []) (occurs : n.Occurs p) {start : Nat × Nat}
    (starts : n.searchStart = some start) : n.Passed p ↔ toLex start ≤ p := by
  unfold searchStart at starts
  by_cases matched : n.findHasMatch = true
  · rw [if_pos matched] at starts
    split at starts
    · rw [Passed, forall_prop_of_true matched, Prod.Lex.lt_iff]
      split at starts <;> cases starts <;> rw [Prod.Lex.le_iff]
      · rename_i short
        have fits := col_le asked occurs.2
        simp only [ofLex_toLex]
        constructor
        · rintro (below | ⟨same, late⟩)
          · omega
          · rw [← same] at fits
            omega
        · omega
      · simp only [ofLex_toLex]
        omega
    · cases starts
  · rw [if_neg matched] at starts
    cases starts
    exact ⟨fun _ => zero_le p, fun _ found => absurd found matched⟩

/-- **The search is complete**, wherever the last match was. -/
theorem findNext_complete (asked : n.barText ≠ []) (kept : n.findMatchRow < maxLines) :
    ∃ n', n.findNext = some n' ∧ n.Finds n' := by
  obtain ⟨start, starts⟩ : ∃ start, n.searchStart = some start := by
    unfold searchStart
    rw [if_pos kept]
    split
    · split <;> exact ⟨_, rfl⟩
    · exact ⟨_, rfl⟩
  rw [findNext, if_neg asked, starts, Option.map_some]
  refine ⟨_, rfl, ?_⟩
  cases first : n.searchFrom start.1 start.2 with
  | some p =>
    obtain ⟨⟨occurs, after⟩, least⟩ := searchFrom_some asked first
    refine ⟨⟨fun _ => ⟨p, occurs⟩, fun _ => rfl⟩, fun _ => ⟨rfl, rfl, .inl ?_⟩⟩
    refine ⟨⟨occurs, (passed_iff asked occurs starts).mpr after⟩, fun q other => ?_⟩
    exact least ⟨other.1, (passed_iff asked other.1 starts).mp other.2⟩
  | none =>
    have early : ∀ p, n.Occurs p → ¬ n.Passed p := fun p occurs passed =>
      searchFrom_none asked first occurs ((passed_iff asked occurs starts).mp passed)
    have again : (if start = (0, 0) then none else n.searchFrom 0 0) = n.searchFrom 0 0 := by
      split
      · rename_i origin
        rw [origin] at first
        exact first.symm
      · rfl
    rw [again, Option.none_or]
    cases second : n.searchFrom 0 0 with
    | some p =>
      obtain ⟨⟨occurs, -⟩, least⟩ := searchFrom_some asked second
      refine ⟨⟨fun _ => ⟨p, occurs⟩, fun _ => rfl⟩, fun _ => ⟨rfl, rfl, .inr ⟨early, occurs, ?_⟩⟩⟩
      intro q other
      exact least ⟨other, zero_le q⟩
    | none =>
      have absent : ∀ p, ¬ n.Occurs p := fun p occurs =>
        searchFrom_none asked second occurs (zero_le p)
      exact ⟨⟨by simp, fun found => absurd found (not_exists.mpr absent)⟩, by simp⟩

/-- The text "aba" with the last match at its end: the search wraps around. -/
def wrapping : Notepad :=
  ⟨fun _ => [97, 98, 97], 1, by decide, [97], true, 0, 2, 0, 2, 0⟩

theorem wrapping_complete : ∃ n', wrapping.findNext = some n' ∧ wrapping.Finds n' :=
  findNext_complete (by decide) (by decide)

end Notepad
end OxideOS.Gui
