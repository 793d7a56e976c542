import Mathlib.Data.List.Nodup

/-!
# Windows on a desk

What matters of a window manager for who is on top and who has the focus: which
windows there are, how they are stacked, which are hidden, and which one has the
focus, is dragged or is resized. `Desk` has five moves; every operation of the window
manager is a few of them.

A desk is sound when the stack has each window once, focus, drag and resize are on
windows that exist, and the focus is on one that can be seen. The moves that may
break this are closing a window, which takes no notice of a resize and gives the focus
to the topmost window even if that is minimized, and raising one, which gives no focus
to a window that is on top already.
-/

set_option autoImplicit false

namespace OxideOS.Gui

open Function

structure Desk where
  alive : Nat → Bool
  hidden : Nat → Bool
  /-- From the bottom up. -/
  order : List Nat
  focus : Option Nat
  drag : Option Nat
  resize : Option Nat

namespace Desk

/-! ## Moves -/

def enter (d : Desk) (id : Nat) : Desk :=
  { d with
    alive := update d.alive id true, hidden := update d.hidden id false
    order := d.order ++ [id], focus := some id }

def close (d : Desk) (id : Nat) : Desk :=
  { d with
    alive := update d.alive id false
    order := d.order.erase id
    focus := if d.focus = some id then (d.order.erase id).getLast? else d.focus
    drag := if d.drag = some id then none else d.drag }

def hide (d : Desk) (id : Nat) : Desk :=
  let hidden := update d.hidden id true
  { d with
    hidden := hidden
    focus := if d.focus = some id then d.order.reverse.find? fun i => i != id && !hidden i
      else d.focus }

def reveal (d : Desk) (id : Nat) : Desk := { d with hidden := update d.hidden id false }

def raise (d : Desk) (id : Nat) : Desk :=
  if d.order.idxOf id + 1 = d.order.length then d
  else { d with order := d.order.erase id ++ [id], focus := some id }

/-! ## Sound desks -/

structure Sound (d : Desk) : Prop where
  nodup : d.order.Nodup
  mem : ∀ id, id ∈ d.order ↔ d.alive id = true
  focus : ∀ {id}, d.focus = some id → d.alive id = true
  drag : ∀ {id}, d.drag = some id → d.alive id = true
  resize : ∀ {id}, d.resize = some id → d.alive id = true
  shown : ∀ {id}, d.focus = some id → d.hidden id = false

/-- The window is on top and has the focus. -/
def OnTop (d : Desk) (id : Nat) : Prop := d.order.getLast? = some id ∧ d.focus = some id

/-- Closing leaves no resize behind and gives the focus to a window that is seen. -/
def MayClose (d : Desk) (id : Nat) : Prop :=
  d.resize ≠ some id ∧
    (d.focus = some id → ∀ top ∈ (d.order.erase id).getLast?, d.hidden top = false)

/-- A window that is raised is seen, and has the focus if it is on top. -/
def MayRaise (d : Desk) (id : Nat) : Prop :=
  d.hidden id = false ∧ (d.order.getLast? = some id → d.focus = some id)

instance (d : Desk) (id : Nat) : Decidable (d.MayClose id) := inferInstanceAs (Decidable (_ ∧ _))
instance (d : Desk) (id : Nat) : Decidable (d.MayRaise id) := inferInstanceAs (Decidable (_ ∧ _))

variable {d : Desk} {id : Nat}

theorem Sound.enter (sound : d.Sound) (new : d.alive id = false) : (d.enter id).Sound := by
  have absent : id ∉ d.order := by
    rw [sound.mem, new]
    decide
  have kept : ∀ {other}, d.alive other = true → (d.enter id).alive other = true := by
    intro other alive
    by_cases here : other = id
    · rw [here]
      exact update_self id true d.alive
    · exact (update_of_ne here true d.alive).trans alive
  refine ⟨?_, ?_, ?_, fun h => kept (sound.drag h), fun h => kept (sound.resize h), ?_⟩
  · exact sound.nodup.append (List.nodup_singleton id) (List.disjoint_singleton.mpr absent)
  · intro other
    by_cases here : other = id
    · subst here
      simp [Desk.enter]
    · simp [Desk.enter, here, sound.mem]
  · rintro other ⟨⟩
    exact update_self id true d.alive
  · rintro other ⟨⟩
    exact update_self id false d.hidden

theorem Sound.close (sound : d.Sound) (may : d.MayClose id) : (d.close id).Sound := by
  have kept : ∀ {other}, other ≠ id → (d.close id).alive other = d.alive other := by
    intro other here
    exact update_of_ne here false d.alive
  have mem : ∀ other, other ∈ d.order.erase id ↔ (d.close id).alive other = true := by
    intro other
    rw [sound.nodup.mem_erase_iff, sound.mem]
    by_cases here : other = id
    · subst here
      simp [Desk.close]
    · rw [kept here]
      exact and_iff_right here
  have focused : ∀ {other}, (d.close id).focus = some other →
      d.focus = some id ∧ (d.order.erase id).getLast? = some other ∨
        d.focus = some other ∧ other ≠ id := by
    intro other focus
    by_cases had : d.focus = some id
    · exact .inl ⟨had, by simpa [Desk.close, had] using focus⟩
    · have same : d.focus = some other := by simpa [Desk.close, had] using focus
      refine .inr ⟨same, ?_⟩
      rintro rfl
      exact had same
  refine ⟨sound.nodup.erase id, mem, ?_, ?_, ?_, ?_⟩
  · intro other focus
    rcases focused focus with ⟨-, top⟩ | ⟨same, here⟩
    · exact (mem other).mp (List.mem_of_getLast? top)
    · exact (kept here).trans (sound.focus same)
  · intro other drag
    by_cases had : d.drag = some id
    · simp [Desk.close, had] at drag
    · have same : d.drag = some other := by simpa [Desk.close, had] using drag
      refine (kept ?_).trans (sound.drag same)
      rintro rfl
      exact had same
  · intro other resize
    refine (kept ?_).trans (sound.resize resize)
    rintro rfl
    exact may.1 resize
  · intro other focus
    rcases focused focus with ⟨had, top⟩ | ⟨same, -⟩
    · exact may.2 had other top
    · exact sound.shown same

theorem Sound.hide (sound : d.Sound) : (d.hide id).Sound := by
  have focused : ∀ {other}, (d.hide id).focus = some other →
      other ∈ d.order ∧ other ≠ id ∧ d.hidden other = false := by
    intro other focus
    by_cases had : d.focus = some id
    · have found : (d.order.reverse.find? fun i =>
          i != id && !update d.hidden id true i) = some other := by
        simpa [Desk.hide, had] using focus
      have test := List.find?_some found
      simp only [Bool.and_eq_true, bne_iff_ne, ne_eq, Bool.not_eq_true'] at test
      refine ⟨List.mem_reverse.mp (List.mem_of_find?_eq_some found), test.1, ?_⟩
      rw [update_of_ne test.1] at test
      exact test.2
    · have same : d.focus = some other := by simpa [Desk.hide, had] using focus
      refine ⟨(sound.mem other).mpr (sound.focus same), ?_, sound.shown same⟩
      rintro rfl
      exact had same
  refine ⟨sound.nodup, sound.mem, ?_, sound.drag, sound.resize, ?_⟩
  · intro other focus
    exact (sound.mem other).mp (focused focus).1
  · intro other focus
    obtain ⟨-, here, seen⟩ := focused focus
    exact (update_of_ne here true d.hidden).trans seen

theorem Sound.reveal (sound : d.Sound) : (d.reveal id).Sound := by
  refine ⟨sound.nodup, sound.mem, sound.focus, sound.drag, sound.resize, ?_⟩
  intro other focus
  by_cases here : other = id
  · rw [here]
    exact update_self id false d.hidden
  · exact (update_of_ne here false d.hidden).trans (sound.shown focus)

/-- A window is at the end of the stack exactly if it is the last of it. -/
theorem idxOf_last (nodup : d.order.Nodup) (member : id ∈ d.order) :
    d.order.idxOf id + 1 = d.order.length ↔ d.order.getLast? = some id := by
  have bound := List.idxOf_lt_length_iff.mpr member
  rw [List.getLast?_eq_getElem?]
  constructor
  · intro last
    rw [show d.order.length - 1 = d.order.idxOf id by omega, List.getElem?_eq_getElem bound,
      List.getElem_idxOf]
  · intro top
    have small : d.order.length - 1 < d.order.length := by omega
    rw [List.getElem?_eq_getElem small] at top
    have same := nodup.idxOf_getElem (d.order.length - 1) small
    rw [Option.some.inj top] at same
    omega

theorem Sound.raise (sound : d.Sound) (alive : d.alive id = true) (may : d.MayRaise id) :
    (d.raise id).Sound ∧ (d.raise id).OnTop id := by
  have member := (sound.mem id).mpr alive
  unfold Desk.raise
  by_cases last : d.order.idxOf id + 1 = d.order.length
  · rw [if_pos last]
    have top := (idxOf_last sound.nodup member).mp last
    exact ⟨sound, top, may.2 top⟩
  · rw [if_neg last]
    have mem : ∀ other, other ∈ d.order.erase id ++ [id] ↔ d.alive other = true := by
      intro other
      rw [List.mem_append, List.mem_singleton, sound.nodup.mem_erase_iff, sound.mem]
      by_cases here : other = id
      · subst here
        simp [alive]
      · simp [here]
    refine ⟨⟨?_, mem, ?_, sound.drag, sound.resize, ?_⟩, ?_, rfl⟩
    · refine (sound.nodup.erase id).append (List.nodup_singleton id)
        (List.disjoint_singleton.mpr ?_)
      exact sound.nodup.not_mem_erase
    · rintro other ⟨⟩
      exact alive
    · rintro other ⟨⟩
      exact may.1
    · exact List.getLast?_concat

end Desk

end OxideOS.Gui
