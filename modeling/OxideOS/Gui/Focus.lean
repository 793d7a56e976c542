import OxideOS.Gui.Desk
import OxideOS.Gui.WindowManager

/-!
# Focus and stacking order

Every operation of the window manager is a few moves of its desk (`deskOf_*`). So the
stack of windows, the focus and the windows that are dragged and resized stay
consistent over every run (`windows_consistent`), as long as no window is closed while
it is being resized, the focus of a closed window does not fall on a minimized one, and
no window is raised or restored that is on top without the focus. `focus_astray` shows
that each of these goes wrong.
-/

set_option autoImplicit false

namespace OxideOS.Gui

open Lib Function

namespace WindowManager

def deskOf (m : WindowManager) : Desk where
  alive := m.live
  hidden := fun id => m.windowStates id == .minimized
  order := m.zOrder
  focus := m.focusedWindow
  drag := m.draggingWindow
  resize := m.resizingWindow

/-- The stack has each window once, focus, drag and resize are on windows that exist,
and the focus is not on a minimized one. -/
structure Consistent (m : WindowManager) : Prop where
  order : m.zOrder.Nodup ∧ ∀ id, id ∈ m.zOrder ↔ m.live id = true
  focused : ∀ {id}, m.focusedWindow = some id → m.live id = true
  dragging : ∀ {id}, m.draggingWindow = some id → m.live id = true
  resizing : ∀ {id}, m.resizingWindow = some id → m.live id = true
  shown : ∀ {id}, m.focusedWindow = some id → m.windowStates id ≠ .minimized

theorem consistent_iff {m : WindowManager} : m.Consistent ↔ m.deskOf.Sound := by
  constructor
  · intro c
    exact ⟨c.order.1, c.order.2, c.focused, c.dragging, c.resizing,
      fun focus => beq_eq_false_iff_ne.mpr (c.shown focus)⟩
  · intro s
    exact ⟨⟨s.nodup, s.mem⟩, s.focus, s.drag, s.resize,
      fun focus => beq_eq_false_iff_ne.mp (s.shown focus)⟩

variable {m : WindowManager} {id : Nat}

theorem live_of_le (bound : maxWindows ≤ id) : m.live id = false := by
  simp [live, Nat.not_lt.mpr bound]

theorem live_of_some {w : Window} (bound : ¬maxWindows ≤ id) (there : m.windows id = some w) :
    m.live id = true := by
  simp [live, there, Nat.not_le.mp bound]

theorem live_setState (state : WindowState) : (m.setState id state).live = m.live := rfl

/-- Moving or resizing a window. -/
theorem live_setWindow (w : Window) (here : (m.windows id).isSome = true) :
    (m.setWindow id w).live = m.live := by
  funext other
  by_cases same : other = id
  · subst same
    simp [live, setWindow, here]
  · simp [live, setWindow, update_of_ne same]

theorem deskOf_setWindow (w : Window) (here : (m.windows id).isSome = true) :
    (m.setWindow id w).deskOf = m.deskOf := by
  simp only [deskOf, live_setWindow w here]
  rfl

theorem hidden_setState (m : WindowManager) (id : Nat) (state : WindowState) :
    (fun other => (m.setState id state).windowStates other == .minimized) =
      update (fun other => m.windowStates other == .minimized) id (state == .minimized) := by
  funext other
  by_cases same : other = id
  · subst same
    simp [setState]
  · simp [setState, update_of_ne same]

theorem deskOf_reveal {state : WindowState} (seen : (state == .minimized) = false) :
    (m.setState id state).deskOf = m.deskOf.reveal id := by
  simp only [deskOf, hidden_setState, seen, Desk.reveal]
  rfl

theorem deskOf_addWindow (w : Window) :
    ((m.addWindow w).1 = none ∧ (m.addWindow w).2 = m) ∨
      ∃ i, (m.addWindow w).1 = some i ∧ m.live i = false ∧
        (m.addWindow w).2.deskOf = m.deskOf.enter i := by
  unfold addWindow
  split
  · exact .inl ⟨rfl, rfl⟩
  · split
    · exact .inl ⟨rfl, rfl⟩
    · next i found =>
        obtain ⟨bound, free, -⟩ := firstBelow_eq_some found
        refine .inr ⟨i, rfl, by simp [live, Option.isNone_iff_eq_none.mp free], ?_⟩
        have alive : ((m.setWindow i w).setState i .normal).live = update m.live i true := by
          funext other
          by_cases same : other = i
          · subst same
            simp [live, setState, setWindow, bound]
          · simp [live, setState, setWindow, update_of_ne same]
        have hidden := hidden_setState (m.setWindow i w) i .normal
        simp only [deskOf, Desk.enter, ← alive]
        rw [show (fun other => m.windowStates other == WindowState.minimized) =
          fun other => (m.setWindow i w).windowStates other == WindowState.minimized from rfl]
        rw [show (false : Bool) = (WindowState.normal == .minimized) from rfl, ← hidden]
        rfl

theorem deskOf_removeWindow (m : WindowManager) (id : Nat) :
    (m.removeWindow id).deskOf = if m.live id then m.deskOf.close id else m.deskOf := by
  unfold removeWindow
  cases here : m.live id with
  | false => rfl
  | true =>
    have alive : ∀ m' : WindowManager, m'.windows = update m.windows id none →
        m'.live = update m.live id false := by
      intro m' windows
      funext other
      by_cases same : other = id
      · subst same
        simp [live, windows]
      · simp [live, windows, update_of_ne same]
    simp only [Bool.not_true, Bool.false_eq_true, if_false, if_true, deskOf, Desk.close]
    rw [alive _ rfl]
    rfl

theorem deskOf_minimizeWindow (m : WindowManager) (id : Nat) :
    (m.minimizeWindow id).deskOf = if m.live id then m.deskOf.hide id else m.deskOf := by
  unfold minimizeWindow
  cases here : m.live id with
  | false => rfl
  | true =>
    have hidden := hidden_setState m id .minimized
    have test : (fun i => i != id && (m.setState id .minimized).windowStates i != .minimized) =
        fun i => i != id && !update m.deskOf.hidden id true i := by
      funext i
      exact congrArg (fun b => i != id && !b) (congrFun hidden i)
    simp only [Bool.not_true, Bool.false_eq_true, if_false, if_true]
    by_cases focused : m.focusedWindow = some id
    · have same : (m.setState id .minimized).focusedWindow = some id := focused
      rw [if_pos same]
      simp only [deskOf, Desk.hide, hidden, focused, if_true, test]
      rfl
    · have same : ¬(m.setState id .minimized).focusedWindow = some id := focused
      rw [if_neg same]
      simp only [deskOf, Desk.hide, hidden, focused, if_false]
      rfl

/-- A call on a window does nothing if there is no such window. -/
theorem onWindow {P : Bool → WindowManager → Prop} {act : Window → WindowManager}
    (missing : P false m) (acts : ∀ w, (m.windows id).isSome = true → P true (act w)) :
    P (m.live id) (if maxWindows ≤ id then m else
      match m.windows id with
      | none => m
      | some w => act w) := by
  by_cases bound : maxWindows ≤ id
  · rw [if_pos bound, live_of_le bound]
    exact missing
  · rw [if_neg bound]
    cases there : m.windows id with
    | none => simpa [live, there] using missing
    | some w =>
      rw [live_of_some bound there]
      exact acts w (by rw [there]; rfl)

/-- A maximized or snapped window is in no way hidden. -/
theorem deskOf_maximizeWindow :
    (m.maximizeWindow id).deskOf = if m.live id then m.deskOf.reveal id else m.deskOf := by
  refine @onWindow m id
    (fun live m' => m'.deskOf = if live then m.deskOf.reveal id else m.deskOf) _ rfl fun w here => ?_
  cases m.windowStates id <;>
    exact (deskOf_reveal rfl).trans (congrArg (·.reveal id) (deskOf_setWindow _ here))

theorem deskOf_snap (x : Nat) {state : WindowState} (seen : (state == .minimized) = false) :
    (m.snap x state id).deskOf = if m.live id then m.deskOf.reveal id else m.deskOf :=
  @onWindow m id
    (fun live m' => m'.deskOf = if live then m.deskOf.reveal id else m.deskOf) _ rfl fun _ here =>
      (deskOf_reveal seen).trans (congrArg (·.reveal id) (deskOf_setWindow _ here))

theorem deskOf_bringToFront (member : id ∈ m.zOrder ↔ m.live id = true) :
    (m.bringToFront id).deskOf = if m.live id then m.deskOf.raise id else m.deskOf := by
  unfold bringToFront
  cases here : m.live id with
  | false => rfl
  | true =>
    simp only [Bool.not_true, Bool.false_eq_true, if_false, if_true, member.mpr here, Desk.raise]
    show _ = if m.zOrder.idxOf id + 1 = m.zOrder.length then _ else _
    split <;> rfl

/-- What a restored window was: minimized ones are brought to the front. -/
theorem deskOf_restoreWindow (member : id ∈ m.zOrder ↔ m.live id = true) (here : m.live id = true) :
    (m.restoreWindow id).deskOf =
      if m.windowStates id = .minimized then (m.deskOf.reveal id).raise id
      else m.deskOf.reveal id := by
  have bound : ¬maxWindows ≤ id := by
    simp only [live, Bool.and_eq_true, decide_eq_true_eq] at here
    omega
  have grown : (m.maximizeWindow id).deskOf = m.deskOf.reveal id := by
    rw [deskOf_maximizeWindow, here, if_pos rfl]
  unfold restoreWindow
  rw [if_neg bound]
  cases state : m.windowStates id with
  | minimized =>
    rw [if_pos rfl]
    have front := deskOf_bringToFront (m := m.setState id .normal) member
    rw [front, live_setState, here, if_pos rfl, deskOf_reveal rfl]
  | maximized | snappedLeft | snappedRight => exact grown
  | normal =>
    rw [if_neg (by decide)]
    have seen : m.deskOf.hidden id = false := by simp [deskOf, state]
    rw [Desk.reveal, ← seen, update_eq_self]

/-! ## Clicks -/

theorem clickTarget_some {mouseX mouseY : Nat} {hit : Hit}
    (target : m.clickTarget mouseX mouseY = some (id, hit)) :
    id ∈ m.zOrder ∧ m.windowStates id ≠ .minimized := by
  obtain ⟨other, member, here⟩ := List.exists_of_findSome?_eq_some target
  split at here
  · cases here
  · next seen =>
      split at here
      · cases here
      · split at here
        · obtain ⟨h, -, same⟩ := Option.map_eq_some_iff.mp here
          cases same
          exact ⟨List.mem_reverse.mp member, seen⟩
        · cases here

theorem taskbarTarget_some {mouseX : Nat} (target : m.taskbarTarget mouseX = some id) :
    id ∈ m.zOrder := by
  obtain ⟨⟨other, i⟩, found, rfl⟩ := Option.map_eq_some_iff.mp target
  have member := List.mem_of_find?_eq_some found
  exact (List.mem_zipIdx' member).2 ▸ List.getElem_mem _

theorem deskOf_startResize (edge mouseX mouseY : Nat) (here : m.live id = true) :
    (m.startResize id edge mouseX mouseY).deskOf = { m.deskOf with resize := some id } := by
  simp only [live, Bool.and_eq_true] at here
  obtain ⟨w, there⟩ := Option.isSome_iff_exists.mp here.2
  simp only [startResize, there]
  rfl

theorem deskOf_startDrag (dx dy : Int) (member : id ∈ m.zOrder ↔ m.live id = true)
    (here : m.live id = true) :
    (m.startDrag id dx dy).deskOf = m.deskOf ∨
      (m.startDrag id dx dy).deskOf = { m.deskOf with drag := some id } ∨
      (m.startDrag id dx dy).deskOf = { m.deskOf.reveal id with drag := some id } := by
  unfold startDrag
  by_cases grown : m.windowStates id = .maximized
  · rw [if_pos grown]
    exact .inl rfl
  · rw [if_neg grown]
    by_cases snapped : m.windowStates id = .snappedLeft ∨ m.windowStates id = .snappedRight
    · have seen : m.windowStates id ≠ .minimized := by
        rcases snapped with left | right
        · rw [left]; decide
        · rw [right]; decide
      have restored := deskOf_restoreWindow member here
      rw [if_neg seen] at restored
      simp only [snapped, if_true]
      refine .inr (.inr ?_)
      rw [← restored]
      rfl
    · simp only [snapped, if_false]
      exact .inr (.inl rfl)

/-! ## Careful operations -/

/-- The window is on top and has the focus. -/
def IsOnTop (m : WindowManager) (id : Nat) : Prop :=
  m.zOrder.getLast? = some id ∧ m.focusedWindow = some id

instance (m : WindowManager) (id : Nat) : Decidable (m.IsOnTop id) :=
  inferInstanceAs (Decidable (_ ∧ _))

/-- A window that is closed is not being resized, and if it has the focus the topmost
of the others is not minimized. -/
def MayClose (m : WindowManager) (id : Nat) : Prop := m.deskOf.MayClose id

/-- A window that is brought to the front is not minimized, and if it is on top it has
the focus. -/
def MayRaise (m : WindowManager) (id : Nat) : Prop := m.deskOf.MayRaise id

/-- A minimized window that is restored is not on top; any other is, and has the
focus. -/
def MayRestore (m : WindowManager) (id : Nat) : Prop :=
  if m.windowStates id = .minimized then m.zOrder.getLast? ≠ some id else m.IsOnTop id

/-- A click on an item of the taskbar. -/
def MayPick (m : WindowManager) (id : Nat) : Prop :=
  if m.windowStates id = .minimized then m.zOrder.getLast? ≠ some id
  else m.focusedWindow = some id ∨ m.zOrder.getLast? ≠ some id

/-- A click on a window. -/
def MayHit (m : WindowManager) (id : Nat) : Hit → Prop
  | .close => m.MayClose id
  | .maximize | .minimize => True
  | .resize _ | .titlebar _ _ | .body => m.MayRaise id

def Gentle (m : WindowManager) : Op → Prop
  | .remove id => m.live id = true → m.MayClose id
  | .bringToFront id => m.live id = true → m.MayRaise id
  | .restore id => m.live id = true → m.MayRestore id
  | .click mouseX mouseY =>
    if mouseY < taskbarHeight then
      m.isClockClicked mouseX = true ∨ ∀ id ∈ m.taskbarTarget mouseX, m.MayPick id
    else ∀ target ∈ m.clickTarget mouseX mouseY, m.MayHit target.1 target.2
  | .add _ | .minimize _ | .maximize _ | .snapLeft _ | .snapRight _ | .drag _ _ | .release => True

/-- The window that the operation brings to the front or restores. -/
def raised (m : WindowManager) : Op → Option Nat
  | .bringToFront id | .restore id => if m.live id then some id else none
  | .click mouseX mouseY =>
    if mouseY < taskbarHeight then
      if m.isClockClicked mouseX then none else
      (m.taskbarTarget mouseX).filter fun id =>
        m.windowStates id == .minimized || m.focusedWindow != some id
    else
      (m.clickTarget mouseX mouseY).bind fun
        | (id, .resize _) | (id, .titlebar _ _) | (id, .body) => some id
        | _ => none
  | _ => none

/-! ## Every operation keeps the manager consistent -/

theorem Consistent.of_desk {d : Desk} (sound : d.Sound) (same : m.deskOf = d) : m.Consistent :=
  consistent_iff.mpr (same ▸ sound)

section

variable (c : m.Consistent)
include c

theorem Consistent.member (id : Nat) : id ∈ m.zOrder ↔ m.live id = true :=
  c.order.2 id

theorem Consistent.front (here : m.live id = true) (may : m.MayRaise id) :
    (m.bringToFront id).Consistent ∧ (m.bringToFront id).IsOnTop id := by
  obtain ⟨sound, top⟩ := (consistent_iff.mp c).raise here may
  have desk := deskOf_bringToFront (c.member id)
  rw [here, if_pos rfl] at desk
  rw [← desk] at sound top
  exact ⟨consistent_iff.mpr sound, top⟩

/-- What is done to a window that is there. -/
theorem Consistent.change {m' : WindowManager} {d : Desk} (sound : m.live id = true → d.Sound)
    (desk : m'.deskOf = if m.live id then d else m.deskOf) : m'.Consistent := by
  cases here : m.live id with
  | false =>
    rw [here] at desk
    exact .of_desk (consistent_iff.mp c) desk
  | true =>
    rw [here] at desk
    exact .of_desk (sound here) desk

theorem Consistent.remove (may : m.live id = true → m.MayClose id) :
    (m.removeWindow id).Consistent :=
  c.change (fun here => (consistent_iff.mp c).close (may here)) (deskOf_removeWindow m id)

theorem Consistent.reveal {m' : WindowManager}
    (desk : m'.deskOf = if m.live id then m.deskOf.reveal id else m.deskOf) : m'.Consistent :=
  c.change (fun _ => (consistent_iff.mp c).reveal) desk

theorem Consistent.minimize : (m.minimizeWindow id).Consistent :=
  c.change (fun _ => (consistent_iff.mp c).hide) (deskOf_minimizeWindow m id)

theorem Consistent.add (w : Window) : (m.addWindow w).2.Consistent := by
  rcases deskOf_addWindow (m := m) w with ⟨-, same⟩ | ⟨i, -, free, desk⟩
  · rw [same]
    exact c
  · exact .of_desk ((consistent_iff.mp c).enter free) desk

/-- A minimized window that is restored comes to the front. -/
theorem Consistent.restoreMinimized (here : m.live id = true)
    (state : m.windowStates id = .minimized) (below : m.zOrder.getLast? ≠ some id) :
    (m.restoreWindow id).Consistent ∧ (m.restoreWindow id).IsOnTop id := by
  have desk := deskOf_restoreWindow (c.member id) here
  rw [if_pos state] at desk
  have may : (m.deskOf.reveal id).MayRaise id := by
    refine ⟨?_, fun top => absurd top below⟩
    exact update_self id false m.deskOf.hidden
  obtain ⟨sound, top⟩ := (consistent_iff.mp c).reveal.raise here may
  rw [← desk] at sound top
  exact ⟨consistent_iff.mpr sound, top⟩

theorem Consistent.restore (may : m.live id = true → m.MayRestore id) :
    (m.restoreWindow id).Consistent ∧ (m.live id = true → (m.restoreWindow id).IsOnTop id) := by
  cases here : m.live id with
  | true =>
    have allowed := may here
    by_cases state : m.windowStates id = .minimized
    · rw [MayRestore, if_pos state] at allowed
      obtain ⟨good, top⟩ := c.restoreMinimized here state allowed
      exact ⟨good, fun _ => top⟩
    · rw [MayRestore, if_neg state] at allowed
      have desk := deskOf_restoreWindow (c.member id) here
      rw [if_neg state] at desk
      refine ⟨.of_desk (consistent_iff.mp c).reveal desk, fun _ => ?_⟩
      show (m.restoreWindow id).deskOf.OnTop id
      rw [desk]
      exact allowed
  | false =>
    refine ⟨?_, fun wrong => by cases wrong⟩
    have absent : ∀ state, bringToFront id (m.setState id state) = m.setState id state := by
      intro state
      simp [bringToFront, live_setState, here]
    unfold restoreWindow
    split
    · exact c
    · next bound =>
        have grown : (m.maximizeWindow id).Consistent := c.reveal deskOf_maximizeWindow
        split
        · rw [absent]
          exact .of_desk (consistent_iff.mp c).reveal (deskOf_reveal rfl)
        · exact grown
        · exact grown
        · exact grown
        · exact c

theorem Consistent.actOn (mouseX mouseY : Nat) {hit : Hit}
    (here : m.live id = true) (may : m.MayHit id hit) :
    (m.actOn id mouseX mouseY hit).Consistent ∧
      ((∃ edge, hit = .resize edge) ∨ (∃ dx dy, hit = .titlebar dx dy) ∨ hit = .body →
        (m.actOn id mouseX mouseY hit).IsOnTop id) := by
  cases hit with
  | close =>
    refine ⟨?_, by simp⟩
    have noted : ({ m with lastClosedWindow := some id } : WindowManager).Consistent :=
      .of_desk (consistent_iff.mp c) rfl
    exact noted.remove fun _ => may
  | maximize => exact ⟨c.reveal deskOf_maximizeWindow, by simp⟩
  | minimize => exact ⟨c.minimize, by simp⟩
  | body =>
    obtain ⟨good, top⟩ := c.front here may
    exact ⟨good, fun _ => top⟩
  | resize edge =>
    obtain ⟨good, top⟩ := c.front here may
    have still := good.focused top.2
    have desk := deskOf_startResize edge mouseX mouseY still
    refine ⟨?_, fun _ => ?_⟩
    · have sound := consistent_iff.mp good
      have stretched : ({ (m.bringToFront id).deskOf with resize := some id } : Desk).Sound := by
        refine ⟨sound.nodup, sound.mem, sound.focus, sound.drag, ?_, sound.shown⟩
        rintro other ⟨⟩
        exact still
      exact .of_desk stretched desk
    · show (startResize id edge mouseX mouseY (m.bringToFront id)).deskOf.OnTop id
      rw [desk]
      exact top
  | titlebar dx dy =>
    obtain ⟨good, top⟩ := c.front here may
    have still := good.focused top.2
    have sound := consistent_iff.mp good
    have dragged : ∀ {d : Desk}, d.Sound → d.alive id = true →
        ({ d with drag := some id } : Desk).Sound := by
      intro d sound alive
      refine ⟨sound.nodup, sound.mem, sound.focus, ?_, sound.resize, sound.shown⟩
      rintro other ⟨⟩
      exact alive
    have result : (startDrag id dx dy (m.bringToFront id)).deskOf.Sound ∧
        (startDrag id dx dy (m.bringToFront id)).deskOf.OnTop id := by
      rcases deskOf_startDrag dx dy (good.member id) still with desk | desk | desk
      · rw [desk]
        exact ⟨sound, top⟩
      · rw [desk]
        exact ⟨dragged sound still, top⟩
      · rw [desk]
        exact ⟨dragged sound.reveal still, top⟩
    exact ⟨consistent_iff.mpr result.1, fun _ => result.2⟩

end

theorem deskOf_handleDrag (mouseX mouseY : Nat) :
    (m.handleDrag mouseX mouseY).deskOf = m.deskOf := by
  have moved : ∀ {id : Nat} {w : Window} (w' : Window), m.windows id = some w →
      (m.setWindow id w').deskOf = m.deskOf := by
    intro id w w' there
    exact deskOf_setWindow w' (by rw [there]; rfl)
  unfold handleDrag
  split
  · split
    · rfl
    · next there => exact moved _ there
  · split
    · rfl
    · split
      · rfl
      · next there => exact moved _ there

theorem deskOf_snapReleased :
    (m.snapReleased id).deskOf = m.deskOf ∨
      (m.snapReleased id).deskOf = if m.live id then m.deskOf.reveal id else m.deskOf := by
  unfold snapReleased
  split
  · split
    · exact .inl rfl
    · split
      · exact .inr (deskOf_snap 0 rfl)
      · split
        · exact .inr (deskOf_snap _ rfl)
        · exact .inl rfl
  · exact .inl rfl

theorem Consistent.release (c : m.Consistent) : m.releaseDrag.Consistent := by
  have sound := consistent_iff.mp c
  unfold releaseDrag
  split
  · have freed : ({ m.deskOf with resize := none } : Desk).Sound := by
      refine ⟨sound.nodup, sound.mem, sound.focus, sound.drag, ?_, sound.shown⟩
      rintro id ⟨⟩
    exact .of_desk freed rfl
  · split
    · exact c
    · next id _ =>
        have snapped : (m.snapReleased id).Consistent := by
          rcases deskOf_snapReleased (m := m) with same | shown
          · exact .of_desk sound same
          · exact c.reveal shown
        have sound' := consistent_iff.mp snapped
        have dropped : ({ (m.snapReleased id).deskOf with drag := none } : Desk).Sound := by
          refine ⟨sound'.nodup, sound'.mem, sound'.focus, ?_, sound'.resize, sound'.shown⟩
          rintro other ⟨⟩
        exact .of_desk dropped rfl

/-- A click on the item of a window in the taskbar. -/
theorem Consistent.pick (c : m.Consistent) (here : m.live id = true) (may : m.MayPick id) :
    let m' := if m.windowStates id = .minimized then restoreWindow id m
      else if m.focusedWindow = some id then minimizeWindow id m else bringToFront id m
    m'.Consistent ∧
      (m.windowStates id = .minimized ∨ m.focusedWindow ≠ some id → m'.IsOnTop id) := by
  unfold MayPick at may
  by_cases state : m.windowStates id = .minimized
  · rw [if_pos state] at may
    obtain ⟨good, top⟩ := c.restoreMinimized here state may
    simp only [state, if_true]
    exact ⟨good, fun _ => top⟩
  · rw [if_neg state] at may
    by_cases focused : m.focusedWindow = some id
    · simp only [state, focused, if_true, if_false]
      exact ⟨c.minimize, by simp⟩
    · have allowed : m.MayRaise id :=
        ⟨beq_eq_false_iff_ne.mpr state, fun top => absurd top (may.resolve_left focused)⟩
      obtain ⟨good, top⟩ := c.front here allowed
      simp only [state, focused, if_false]
      exact ⟨good, fun _ => top⟩

theorem Consistent.taskbar (c : m.Consistent) {mouseX : Nat}
    (gentle : m.isClockClicked mouseX = true ∨ ∀ id ∈ m.taskbarTarget mouseX, m.MayPick id) :
    (m.handleTaskbarClick mouseX).2.Consistent ∧ (m.isClockClicked mouseX = false →
      ∀ id ∈ (m.taskbarTarget mouseX).filter fun id =>
        m.windowStates id == .minimized || m.focusedWindow != some id,
          (m.handleTaskbarClick mouseX).2.IsOnTop id) := by
  unfold handleTaskbarClick
  cases clock : m.isClockClicked mouseX with
  | true => exact ⟨.of_desk (consistent_iff.mp c) rfl, fun wrong => by cases wrong⟩
  | false =>
    have pick := gentle.resolve_left (by rw [clock]; decide)
    simp only [Bool.false_eq_true, if_false]
    cases target : m.taskbarTarget mouseX with
    | none => exact ⟨c, fun _ id none => by cases none⟩
    | some id =>
      have here := (c.member id).mp (taskbarTarget_some target)
      obtain ⟨good, top⟩ := c.pick here (pick id target)
      refine ⟨good, fun _ other raised => ?_⟩
      obtain ⟨same, test⟩ := Option.filter_eq_some_iff.mp raised
      cases same
      simp only [Bool.or_eq_true, beq_iff_eq, bne_iff_ne] at test
      exact top test

theorem Consistent.click (c : m.Consistent) {mouseX mouseY : Nat}
    (gentle : m.Gentle (.click mouseX mouseY)) :
    (m.handleClick mouseX mouseY).2.Consistent ∧
      ∀ id ∈ m.raised (.click mouseX mouseY), (m.handleClick mouseX mouseY).2.IsOnTop id := by
  simp only [Gentle, raised] at gentle ⊢
  unfold handleClick
  by_cases bar : mouseY < taskbarHeight
  · simp only [bar, if_true] at gentle ⊢
    obtain ⟨good, top⟩ := c.taskbar gentle
    refine ⟨good, fun id here => ?_⟩
    split at here
    · cases here
    · next clock => exact top (by simpa using clock) id here
  · simp only [bar, if_false] at gentle ⊢
    cases target : m.clickTarget mouseX mouseY with
    | none => exact ⟨c, fun id none => by cases none⟩
    | some found =>
      obtain ⟨id, hit⟩ := found
      have here := (c.member id).mp (clickTarget_some target).1
      obtain ⟨good, top⟩ := c.actOn mouseX mouseY here (gentle (id, hit) target)
      refine ⟨good, fun other raised => ?_⟩
      cases hit with
      | close | maximize | minimize => cases raised
      | resize edge =>
        cases raised
        exact top (.inl ⟨edge, rfl⟩)
      | titlebar dx dy =>
        cases raised
        exact top (.inr (.inl ⟨dx, dy, rfl⟩))
      | body =>
        cases raised
        exact top (.inr (.inr rfl))

/-- **One operation.** -/
theorem Consistent.apply (c : m.Consistent) {op : Op} (gentle : m.Gentle op) :
    (m.apply op).Consistent ∧ ∀ id ∈ m.raised op, (m.apply op).IsOnTop id := by
  cases op with
  | add w => exact ⟨c.add w, fun id none => by cases none⟩
  | remove id => exact ⟨c.remove gentle, fun id none => by cases none⟩
  | minimize id => exact ⟨c.minimize, fun id none => by cases none⟩
  | maximize id => exact ⟨c.reveal deskOf_maximizeWindow, fun id none => by cases none⟩
  | snapLeft id => exact ⟨c.reveal (deskOf_snap 0 rfl), fun id none => by cases none⟩
  | snapRight id => exact ⟨c.reveal (deskOf_snap _ rfl), fun id none => by cases none⟩
  | drag x y =>
      exact ⟨.of_desk (consistent_iff.mp c) (deskOf_handleDrag x y), fun id none => by cases none⟩
  | release => exact ⟨c.release, fun id none => by cases none⟩
  | click x y => exact c.click gentle
  | restore id =>
    obtain ⟨good, top⟩ := c.restore gentle
    refine ⟨good, fun other raised => ?_⟩
    simp only [WindowManager.raised] at raised
    split at raised
    · next here =>
        cases raised
        exact top here
    · cases raised
  | bringToFront id =>
    cases here : m.live id with
    | true =>
      obtain ⟨good, top⟩ := c.front here (gentle here)
      refine ⟨good, fun other raised => ?_⟩
      simp only [WindowManager.raised, here, if_true] at raised
      cases raised
      exact top
    | false =>
      refine ⟨?_, fun other raised => ?_⟩
      · have same : m.apply (.bringToFront id) = m := by
          simp [WindowManager.apply, bringToFront, here]
        rw [same]
        exact c
      · simp [WindowManager.raised, here] at raised

/-! ## Runs -/

theorem consistent_new (width height : Nat) :
    (new.setScreenDimensions width height).Consistent where
  order := ⟨List.nodup_nil, fun id => by simp [new, setScreenDimensions, live]⟩
  focused := by rintro id ⟨⟩
  dragging := by rintro id ⟨⟩
  resizing := by rintro id ⟨⟩
  shown := by rintro id ⟨⟩

/-- **The window manager stays consistent** over every run of gentle operations, and
a window that such an operation brings to the front or restores is on top and has the
focus. -/
theorem windows_consistent {width height : Nat} {ops : List Op} {m : WindowManager}
    (gentle : Along step Gentle (new.setScreenDimensions width height) ops)
    (ran : run step (new.setScreenDimensions width height) ops = some m) :
    m.Consistent ∧ ∀ op, m.Gentle op → ∀ id ∈ m.raised op, (m.apply op).IsOnTop id := by
  have good : m.Consistent := by
    refine run_invariant ?_ (consistent_new width height) gentle ran
    rintro m op m' c allowed ⟨⟩
    exact (c.apply allowed).1
  exact ⟨good, fun op allowed => (good.apply allowed).2⟩

instance (m : WindowManager) (id : Nat) : Decidable (m.MayClose id) :=
  inferInstanceAs (Decidable (m.deskOf.MayClose id))

instance (m : WindowManager) (id : Nat) : Decidable (m.MayRaise id) :=
  inferInstanceAs (Decidable (m.deskOf.MayRaise id))

instance (m : WindowManager) (id : Nat) : Decidable (m.MayRestore id) := by
  unfold MayRestore
  infer_instance

instance (m : WindowManager) (id : Nat) : Decidable (m.MayPick id) := by
  unfold MayPick
  infer_instance

instance (m : WindowManager) (id : Nat) (hit : Hit) : Decidable (m.MayHit id hit) := by
  unfold MayHit
  split <;> infer_instance

instance (m : WindowManager) (op : Op) : Decidable (m.Gentle op) := by
  unfold Gentle
  split <;> infer_instance

/-- Two windows side by side; the left one is clicked, minimized and restored. -/
def twoWindows : List Op :=
  [.add ⟨100, 100, 300, 200, true⟩, .add ⟨500, 100, 300, 200, true⟩, .click 200 200, .minimize 0,
    .bringToFront 1, .click 600 105, .drag 700 205, .release]

theorem windows_consistent_twoWindows :
    ∃ m, run step (new.setScreenDimensions 1280 800) twoWindows = some m ∧ m.Consistent ∧
      m.raised (.restore 0) = some 0 ∧ (m.apply (.restore 0)).IsOnTop 0 := by
  have ends : (run step (new.setScreenDimensions 1280 800) twoWindows).map (fun m =>
      decide (m.Gentle (.restore 0) ∧ m.raised (.restore 0) = some 0)) =
        some true := by decide +kernel
  obtain ⟨m, ran, facts⟩ := Option.map_eq_some_iff.mp ends
  obtain ⟨gentle, raised⟩ := of_decide_eq_true facts
  have along : Along step Gentle (new.setScreenDimensions 1280 800) twoWindows := by decide +kernel
  obtain ⟨good, top⟩ := windows_consistent along ran
  exact ⟨m, ran, good, raised, top _ gentle 0 raised⟩

/-- A window is closed while another one, minimized, is on top: that one gets the
focus. A window is closed while it is being resized. A minimized window on top is
restored and gets no focus. -/
theorem focus_astray :
    (∃ m, run step new [.add ⟨100, 100, 300, 200, true⟩, .add ⟨500, 100, 300, 200, true⟩,
        .minimize 1, .remove 0] = some m ∧ m.focusedWindow = some 1 ∧
        m.windowStates 1 = .minimized ∧ ¬m.Consistent) ∧
      (∃ m, run step new [.add ⟨100, 100, 300, 200, true⟩, .click 399 200, .remove 0] = some m ∧
        m.resizingWindow = some 0 ∧ m.live 0 = false ∧ ¬m.Consistent) ∧
      ∃ m, run step new [.add ⟨100, 100, 300, 200, true⟩, .minimize 0, .restore 0] = some m ∧
        m.live 0 = true ∧ ¬m.IsOnTop 0 := by
  refine ⟨?_, ?_, ?_⟩
  · have ends : (run step new [.add ⟨100, 100, 300, 200, true⟩, .add ⟨500, 100, 300, 200, true⟩,
        .minimize 1, .remove 0]).map (fun m =>
          decide (m.focusedWindow = some 1 ∧ m.windowStates 1 = .minimized)) =
        some true := by decide
    obtain ⟨m, ran, facts⟩ := Option.map_eq_some_iff.mp ends
    obtain ⟨focus, hidden⟩ := of_decide_eq_true facts
    exact ⟨m, ran, focus, hidden, fun c => c.shown focus hidden⟩
  · have ends : (run step new [.add ⟨100, 100, 300, 200, true⟩, .click 399 200, .remove 0]).map
        (fun m => decide (m.resizingWindow = some 0 ∧ m.live 0 = false)) = some true := by decide
    obtain ⟨m, ran, facts⟩ := Option.map_eq_some_iff.mp ends
    obtain ⟨resizing, gone⟩ := of_decide_eq_true facts
    refine ⟨m, ran, resizing, gone, fun c => ?_⟩
    exact absurd ((c.resizing resizing).symm.trans gone) (by decide)
  · have ends : (run step new [.add ⟨100, 100, 300, 200, true⟩, .minimize 0, .restore 0]).map
        (fun m => decide (m.live 0 = true ∧ ¬m.IsOnTop 0)) = some true := by decide
    obtain ⟨m, ran, facts⟩ := Option.map_eq_some_iff.mp ends
    exact ⟨m, ran, of_decide_eq_true facts⟩

end WindowManager
end OxideOS.Gui
