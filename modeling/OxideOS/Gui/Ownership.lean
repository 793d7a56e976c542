import OxideOS.Gui.Focus
import OxideOS.Gui.Session

/-!
# Windows belong to their processes

In a session every entry of the window table has a live process, a window that exists
and was made for that process, and no two entries have one window (`Exact`). Drawing
calls then reach only windows of the caller, and input only the owner of the window.

This holds over every run in which a process with windows ends by exiting, and none that
has killed itself creates one (`ownership_exact`). Killing a process leaves its entries
behind, and so does closing one of its windows, since the loop then kills the process:
the next window with that id has two entries, and its input goes to the dead one
(`entry_outlives_window`).
-/

set_option autoImplicit false

namespace OxideOS.Gui

open Lib Function

/-! ## What the window manager's operations do to the set of windows -/

namespace WindowManager

variable {m : WindowManager} {id : Nat}

/-- The windows there are, and the one whose close button has been hit. -/
def outline (m : WindowManager) : (Nat → Bool) × Option Nat := (m.live, m.lastClosedWindow)

theorem outline_setWindow (w : Window) (here : (m.windows id).isSome = true) :
    (m.setWindow id w).outline = m.outline :=
  Prod.ext (live_setWindow w here) rfl

theorem outline_bringToFront : (m.bringToFront id).outline = m.outline := by
  unfold bringToFront
  split
  · rfl
  · split
    · split <;> rfl
    · rfl

theorem outline_minimizeWindow : (m.minimizeWindow id).outline = m.outline := by
  unfold minimizeWindow
  split
  · rfl
  · dsimp only
    split <;> rfl

theorem outline_maximizeWindow : (m.maximizeWindow id).outline = m.outline := by
  refine @onWindow m id (fun _ m' => m'.outline = m.outline) _ rfl fun w here => ?_
  cases m.windowStates id <;> exact outline_setWindow _ here

theorem outline_snap (x : Nat) (state : WindowState) : (m.snap x state id).outline = m.outline :=
  @onWindow m id (fun _ m' => m'.outline = m.outline) _ rfl fun _ here => outline_setWindow _ here

theorem outline_restoreWindow : (m.restoreWindow id).outline = m.outline := by
  unfold restoreWindow
  split
  · rfl
  · split
    · exact outline_bringToFront
    · exact outline_maximizeWindow
    · exact outline_maximizeWindow
    · exact outline_maximizeWindow
    · rfl

theorem outline_startResize (edge mouseX mouseY : Nat) :
    (m.startResize id edge mouseX mouseY).outline = m.outline := by
  unfold startResize
  split <;> rfl

theorem outline_startDrag (dx dy : Int) : (m.startDrag id dx dy).outline = m.outline := by
  unfold startDrag
  split
  · rfl
  · by_cases snapped : m.windowStates id = .snappedLeft ∨ m.windowStates id = .snappedRight
    · simp only [snapped, if_true]
      exact outline_restoreWindow
    · simp only [snapped, if_false]
      rfl

theorem outline_actOn {hit : Hit} (mouseX mouseY : Nat) (other : hit ≠ .close) :
    (m.actOn id mouseX mouseY hit).outline = m.outline := by
  cases hit with
  | close => exact absurd rfl other
  | maximize => exact outline_maximizeWindow
  | minimize => exact outline_minimizeWindow
  | resize edge => exact (outline_startResize ..).trans outline_bringToFront
  | titlebar dx dy => exact (outline_startDrag ..).trans outline_bringToFront
  | body => exact outline_bringToFront

theorem outline_handleTaskbarClick (mouseX : Nat) :
    (m.handleTaskbarClick mouseX).2.outline = m.outline := by
  unfold handleTaskbarClick
  split
  · rfl
  · split
    · rfl
    · dsimp only
      split
      · exact outline_restoreWindow
      · split
        · exact outline_minimizeWindow
        · exact outline_bringToFront

theorem live_removeWindow : (m.removeWindow id).live = update m.live id false := by
  have alive := congrArg Desk.alive (deskOf_removeWindow m id)
  cases here : m.live id with
  | true =>
    rw [here, if_pos rfl] at alive
    exact alive
  | false =>
    rw [here, if_neg (by decide)] at alive
    rw [← here, update_eq_self]
    exact alive

theorem outline_removeWindow :
    (m.removeWindow id).outline = (update m.live id false, m.lastClosedWindow) := by
  refine Prod.ext live_removeWindow ?_
  show (m.removeWindow id).lastClosedWindow = _
  unfold removeWindow
  split <;> rfl

/-- A click changes the set of windows only if it hits a close button. -/
theorem outline_handleClick (mouseX mouseY : Nat) :
    (m.handleClick mouseX mouseY).2.outline = m.outline ∨
      ∃ id, ¬mouseY < taskbarHeight ∧ m.clickTarget mouseX mouseY = some (id, .close) ∧
        (m.handleClick mouseX mouseY).2.outline = (update m.live id false, some id) := by
  unfold handleClick
  split
  · exact .inl (outline_handleTaskbarClick mouseX)
  · next below =>
      cases target : m.clickTarget mouseX mouseY with
      | none => exact .inl rfl
      | some pair =>
        obtain ⟨id, hit⟩ := pair
        by_cases close : hit = .close
        · subst close
          exact .inr ⟨id, below, rfl, outline_removeWindow⟩
        · exact .inl (outline_actOn mouseX mouseY close)

theorem outline_handleDrag (mouseX mouseY : Nat) :
    (m.handleDrag mouseX mouseY).outline = m.outline := by
  unfold handleDrag
  split
  · split
    · rfl
    · next there => exact outline_setWindow _ (by rw [there]; rfl)
  · split
    · rfl
    · split
      · rfl
      · next there => exact outline_setWindow _ (by rw [there]; rfl)

theorem outline_snapReleased : (m.snapReleased id).outline = m.outline := by
  unfold snapReleased
  split
  · split
    · rfl
    · split
      · exact outline_snap _ _
      · split
        · exact outline_snap _ _
        · rfl
  · rfl

theorem outline_releaseDrag : m.releaseDrag.outline = m.outline := by
  unfold releaseDrag
  split
  · rfl
  · split
    · rfl
    · exact outline_snapReleased

theorem addWindow_cases (w : Window) :
    m.addWindow w = (none, m) ∨
      ∃ i m', m.addWindow w = (some i, m') ∧ m.live i = false ∧
        m'.outline = (update m.live i true, m.lastClosedWindow) := by
  rcases deskOf_addWindow (m := m) w with ⟨full, same⟩ | ⟨i, answer, free, desk⟩
  · exact .inl (Prod.ext full same)
  · refine .inr ⟨i, _, Prod.ext answer rfl, free, Prod.ext (congrArg Desk.alive desk) ?_⟩
    show (m.addWindow w).2.lastClosedWindow = _
    unfold addWindow
    split
    · rfl
    · split <;> rfl

end WindowManager

/-! ## Ownership -/

namespace Session

variable {s s' : Session} {procs : Nat → Option Nat} {i j pid id : Nat}

/-- Every active entry has a live process among `procs`, its window exists and was made
for that process; no two have one window. -/
structure OwnedBy (procs : Nat → Option Nat) (s : Session) : Prop where
  owner : ∀ {i}, i < maxEntries → (s.entries i).active = true →
    ∃ u, procs (s.entries i).pid = some u ∧ s.wm.live (s.entries i).windowId = true ∧
      s.creators (s.entries i).windowId = some u
  apart : ∀ {i j}, i < maxEntries → j < maxEntries → (s.entries i).active = true →
    (s.entries j).active = true → (s.entries i).windowId = (s.entries j).windowId → i = j

theorem slotByWin_some (found : s.slotByWin id = some i) :
    i < maxEntries ∧ (s.entries i).active = true ∧ (s.entries i).windowId = id := by
  obtain ⟨bound, passes, -⟩ := firstBelow_eq_some found
  simp only [Bool.and_eq_true, beq_iff_eq] at passes
  exact ⟨bound, passes.1, passes.2⟩

theorem slotByPidAndWin_some (found : s.slotByPidAndWin pid id = some i) :
    i < maxEntries ∧ (s.entries i).active = true ∧ (s.entries i).pid = pid ∧
      (s.entries i).windowId = id := by
  obtain ⟨bound, passes, -⟩ := firstBelow_eq_some found
  simp only [Bool.and_eq_true, beq_iff_eq] at passes
  exact ⟨bound, passes.1.1, passes.1.2, passes.2⟩

theorem windowId_ne (foreign : s.isProcWindow id = false) (bound : i < maxEntries)
    (active : (s.entries i).active = true) : (s.entries i).windowId ≠ id := by
  have none : s.slotByWin id = none := by
    simpa [isProcWindow, Option.isSome_eq_false_iff] using foreign
  have fails := firstBelow_eq_none.mp none i bound
  rw [active, Bool.true_and] at fails
  exact beq_eq_false_iff_ne.mp fails

namespace OwnedBy

section

variable (owned : OwnedBy procs s)
include owned

section

variable (entries : s'.entries = s.entries) (creators : s'.creators = s.creators)
include entries creators

/-- The windows of the active entries are still there. -/
theorem keep (kept : ∀ {i}, i < maxEntries → (s.entries i).active = true →
      s'.wm.live (s.entries i).windowId = true) : OwnedBy procs s' := by
  constructor
  · intro i bound active
    rw [entries] at active ⊢
    obtain ⟨u, alive, -, made⟩ := owned.owner bound active
    exact ⟨u, alive, kept bound active, by rw [creators]; exact made⟩
  · rw [entries]
    exact owned.apart

theorem keep_outline (outline : s'.wm.outline = s.wm.outline) :
    OwnedBy procs s' := by
  refine owned.keep entries creators fun bound active => ?_
  obtain ⟨-, -, live, -⟩ := owned.owner bound active
  rw [show s'.wm.live = s.wm.live from congrArg Prod.fst outline]
  exact live

/-- A window of the kernel is gone. -/
theorem keep_others (foreign : s.isProcWindow id = false)
    (live : s'.wm.live = update s.wm.live id false) : OwnedBy procs s' := by
  refine owned.keep entries creators fun bound active => ?_
  obtain ⟨-, -, here, -⟩ := owned.owner bound active
  rw [live, update_of_ne (windowId_ne foreign bound active)]
  exact here

end

/-- The entry and its window go together. -/
theorem release (bound : i < maxEntries) (active : (s.entries i).active = true) :
    OwnedBy procs { s.release i with wm := s.wm.removeWindow (s.entries i).windowId } := by
  have others : ∀ {j}, ((s.release i).entries j).active = true →
      j ≠ i ∧ (s.release i).entries j = s.entries j := by
    intro j still
    by_cases same : j = i
    · subst same
      simp [Session.release, setEntry] at still
    · exact ⟨same, update_of_ne same ..⟩
  constructor
  · intro j below still
    obtain ⟨ne, entry⟩ := others still
    dsimp only at still ⊢
    rw [entry] at still ⊢
    obtain ⟨u, alive, live, made⟩ := owned.owner below still
    have other : (s.entries j).windowId ≠ (s.entries i).windowId :=
      fun same => ne (owned.apart below bound still active same)
    refine ⟨u, alive, ?_, made⟩
    rw [WindowManager.live_removeWindow, update_of_ne other]
    exact live
  · intro j k below above still stillToo same
    obtain ⟨-, entry⟩ := others still
    obtain ⟨-, entryToo⟩ := others stillToo
    dsimp only at still stillToo same
    rw [entry] at still same
    rw [entryToo] at stillToo same
    exact owned.apart below above still stillToo same

/-- Only the events of an entry change. -/
theorem setEvents (events : List GuiEvent) :
    OwnedBy procs (s.setEntry i { s.entries i with events := events }) := by
  have same : ∀ j, let e := (s.setEntry i { s.entries i with events := events }).entries j
      e.active = (s.entries j).active ∧ e.pid = (s.entries j).pid ∧
        e.windowId = (s.entries j).windowId := by
    intro j
    by_cases here : j = i
    · subst here
      simp [setEntry]
    · simp [setEntry, update_of_ne here]
  constructor
  · intro j bound active
    rw [(same j).1] at active
    rw [(same j).2.1, (same j).2.2]
    exact owned.owner bound active
  · intro j k below above first second equal
    rw [(same _).1] at first second
    rw [(same j).2.2, (same k).2.2] at equal
    exact owned.apart below above first second equal

theorem pushEvent (ev : GuiEvent) :
    OwnedBy procs (s.pushEvent id ev) := by
  unfold Session.pushEvent
  split
  · exact owned
  · unfold GprocEntry.push
    split
    · exact owned.setEvents (s.entries _).events
    · exact owned.setEvents _

/-- A window that was not there before belongs to no entry yet. -/
theorem windowId_ne_of_dead (dead : s.wm.live id = false)
    (bound : i < maxEntries) (active : (s.entries i).active = true) :
    (s.entries i).windowId ≠ id := by
  rintro rfl
  obtain ⟨-, -, live, -⟩ := owned.owner bound active
  rw [dead] at live
  cases live

/-- The kernel opens a window of its own. -/
theorem opened (entries : s'.entries = s.entries)
    (dead : s.wm.live id = false) (live : s'.wm.live = update s.wm.live id true)
    (creators : s'.creators = update s.creators id none) : OwnedBy procs s' := by
  constructor
  · intro i bound active
    rw [entries] at active ⊢
    obtain ⟨u, alive, here, made⟩ := owned.owner bound active
    have other := owned.windowId_ne_of_dead dead bound active
    rw [live, creators, update_of_ne other, update_of_ne other]
    exact ⟨u, alive, here, made⟩
  · rw [entries]
    exact owned.apart

/-- A process gets a window. -/
theorem granted {u : Nat} (owner : procs pid = some u)
    (entries : s'.entries = update s.entries i ⟨true, id, pid, []⟩)
    (dead : s.wm.live id = false) (live : s'.wm.live = update s.wm.live id true)
    (creators : s'.creators = update s.creators id (some u)) : OwnedBy procs s' := by
  have fresh : ∀ {j}, j ≠ i → j < maxEntries → (s'.entries j).active = true →
      (s'.entries j) = s.entries j ∧ (s.entries j).active = true ∧ (s.entries j).windowId ≠ id := by
    intro j ne bound active
    have same : s'.entries j = s.entries j := by rw [entries, update_of_ne ne]
    rw [same] at active
    exact ⟨same, active, owned.windowId_ne_of_dead dead bound active⟩
  have this : s'.entries i = ⟨true, id, pid, []⟩ := by rw [entries, update_self]
  constructor
  · intro j bound active
    by_cases ne : j = i
    · subst ne
      rw [this, live, creators]
      exact ⟨u, owner, update_self .., update_self ..⟩
    · obtain ⟨same, was, other⟩ := fresh ne bound active
      rw [same, live, creators, update_of_ne other, update_of_ne other]
      exact owned.owner bound was
  · intro j k below above first second equal
    by_cases left : j = i
    · by_cases right : k = i
      · rw [left, right]
      · obtain ⟨same, -, other⟩ := fresh right above second
        rw [left, this, same] at equal
        exact absurd equal.symm other
    · obtain ⟨same, was, other⟩ := fresh left below first
      by_cases right : k = i
      · rw [right, this, same] at equal
        exact absurd equal other
      · obtain ⟨sameToo, wasToo, -⟩ := fresh right above second
        rw [same, sameToo] at equal
        exact owned.apart below above was wasToo equal

/-- The owners of the active entries are still alive. -/
theorem survive {procs' : Nat → Option Nat}
    (alive : ∀ {i}, i < maxEntries → (s.entries i).active = true →
      procs' (s.entries i).pid = procs (s.entries i).pid) : OwnedBy procs' s := by
  refine ⟨fun bound active => ?_, owned.apart⟩
  rw [alive bound active]
  exact owned.owner bound active

end

end OwnedBy

/-! ## A process exits -/

/-- The first `i` entries have none of the process. -/
def Cleared (pid i : Nat) (s : Session) : Prop :=
  ∀ j < i, (s.entries j).active = true → (s.entries j).pid ≠ pid

theorem exitEntry_spec (owned : OwnedBy procs s) (cleared : Cleared pid i s)
    (bound : i < maxEntries) :
    OwnedBy procs (exitEntry pid i s) ∧ Cleared pid (i + 1) (exitEntry pid i s) ∧
      (exitEntry pid i s).procs = s.procs ∧
      (exitEntry pid i s).wm.lastClosedWindow = s.wm.lastClosedWindow := by
  unfold exitEntry
  split
  · next mine =>
      simp only [Bool.and_eq_true, beq_iff_eq] at mine
      refine ⟨owned.release bound mine.1, ?_, rfl,
        congrArg Prod.snd WindowManager.outline_removeWindow⟩
      intro j below active
      by_cases same : j = i
      · subst same
        simp [release, setEntry] at active
      · simp only [release, setEntry, update_of_ne same] at active ⊢
        exact cleared j (by omega) active
  · next other =>
      refine ⟨owned, fun j below active => ?_, rfl, rfl⟩
      by_cases same : j = i
      · subst same
        simpa [active] using other
      · exact cleared j (by omega) active

theorem onProcessExit_spec (owned : OwnedBy procs s) :
    OwnedBy procs (onProcessExit pid s) ∧ Cleared pid maxEntries (onProcessExit pid s) ∧
      (onProcessExit pid s).procs = s.procs ∧
      (onProcessExit pid s).wm.lastClosedWindow = s.wm.lastClosedWindow := by
  refine loop_zero_invariant (fun i t => OwnedBy procs t ∧ Cleared pid i t ∧ t.procs = s.procs ∧
    t.wm.lastClosedWindow = s.wm.lastClosedWindow) ?_ ⟨owned, fun j below => by omega, rfl, rfl⟩
  rintro i t bound ⟨tOwned, cleared, same, last⟩
  obtain ⟨owned', cleared', same', last'⟩ := exitEntry_spec tOwned cleared bound
  exact ⟨owned', cleared', same'.trans same, last'.trans last⟩

/-! ## Whole runs -/

/-- A process that is killed has no windows, one that has killed itself creates none, and
the windows that are closed are the kernel's. -/
def Courteous (s : Session) : Event → Prop
  | .kill _ pid => ∀ i < maxEntries, (s.entries i).active = true → (s.entries i).pid ≠ pid % 256
  | .create pid _ _ => (s.procs pid).isSome = true
  | .close id => s.isProcWindow id = false
  | .click mouseX mouseY => mouseY < taskbarHeight ∨
      ∀ target ∈ s.wm.clickTarget mouseX mouseY, target.2 = .close → s.isProcWindow target.1 = false
  | _ => True

/-- The windows are owned by live processes, and no closed window is left to look at. -/
def Tended (s : Session) : Prop := OwnedBy s.procs s ∧ s.wm.lastClosedWindow = none

theorem handleWindowClose_foreign (wm : WindowManager) (foreign : s.isProcWindow id = false) :
    handleWindowClose id { s with wm := wm } = { s with wm := wm } := by
  have same : isProcWindow { s with wm := wm } id = false := foreign
  rw [handleWindowClose, same, if_neg (by decide)]

theorem Tended.click {mouseX mouseY : Nat} (tended : s.Tended)
    (courteous : s.Courteous (.click mouseX mouseY)) : (s.click mouseX mouseY).Tended := by
  obtain ⟨owned, last⟩ := tended
  unfold Session.click
  rcases WindowManager.outline_handleClick mouseX mouseY with same | ⟨id, below, target, outline⟩
  · have none : (s.wm.handleClick mouseX mouseY).2.lastClosedWindow = none :=
      (congrArg Prod.snd same).trans last
    simp only [none]
    exact ⟨owned.keep_outline rfl rfl same, none⟩
  · have some : (s.wm.handleClick mouseX mouseY).2.lastClosedWindow = some id :=
      congrArg Prod.snd outline
    have foreign : s.isProcWindow id = false :=
      courteous.resolve_left below (id, .close) target rfl
    simp only [some]
    rw [handleWindowClose_foreign _ foreign]
    exact ⟨owned.keep_others rfl rfl foreign (congrArg Prod.fst outline), rfl⟩

theorem Tended.create {width height : Nat} (tended : s.Tended)
    (alive : (s.procs pid).isSome = true) : (s.createWindow pid width height).2.Tended := by
  obtain ⟨owned, last⟩ := tended
  unfold createWindow
  split
  · exact ⟨owned, last⟩
  · next slot free =>
      rcases WindowManager.addWindow_cases (m := s.wm) (s.placed slot width height) with
        full | ⟨id, wm, added, dead, outline⟩
      · rw [full]
        exact ⟨owned, last⟩
      · rw [added]
        obtain ⟨u, owner⟩ := Option.isSome_iff_exists.mp alive
        refine ⟨owned.granted owner rfl dead (congrArg Prod.fst outline) ?_,
          (congrArg Prod.snd outline).trans last⟩
        rw [← owner]

theorem Tended.open {w : Window} (tended : s.Tended) (stepped : s.step (.open w) = some s') :
    s'.Tended := by
  obtain ⟨owned, last⟩ := tended
  simp only [step] at stepped
  rcases WindowManager.addWindow_cases (m := s.wm) w with
    full | ⟨id, wm, added, dead, outline⟩
  · rw [full] at stepped
    cases stepped
    exact ⟨owned, last⟩
  · rw [added] at stepped
    cases stepped
    exact ⟨owned.opened rfl dead (congrArg Prod.fst outline) rfl,
      (congrArg Prod.snd outline).trans last⟩

theorem Tended.exit (tended : s.Tended) :
    (onProcessExit pid { s with procs := update s.procs pid none }).Tended := by
  obtain ⟨owned, last⟩ := tended
  have orphaned : OwnedBy s.procs { s with procs := update s.procs pid none } :=
    owned.keep_outline rfl rfl rfl
  obtain ⟨owned', cleared, procs, last'⟩ := onProcessExit_spec orphaned
  refine ⟨?_, last'.trans last⟩
  rw [procs]
  refine owned'.survive fun bound active => ?_
  exact update_of_ne (cleared _ bound active) ..

theorem Tended.step (tended : s.Tended) {ev : Event} (courteous : s.Courteous ev)
    (stepped : s.step ev = some s') : s'.Tended := by
  have ⟨owned, last⟩ := tended
  cases ev with
  | spawn pid =>
    simp only [Session.step] at stepped
    split at stepped
    · cases stepped
    · next fresh =>
        cases stepped
        refine ⟨(owned.survive fun bound active => ?_).keep_outline rfl rfl rfl, last⟩
        obtain ⟨u, alive, -⟩ := owned.owner bound active
        refine update_of_ne ?_ ..
        intro same
        rw [same] at alive
        rw [alive] at fresh
        exact fresh rfl
  | exit pid =>
    simp only [Session.step] at stepped
    split at stepped
    · cases stepped
    · cases stepped
      exact tended.exit
  | kill caller pid =>
    simp only [Session.step] at stepped
    split at stepped
    · cases stepped
    · cases stepped
      refine ⟨(owned.survive fun bound active => ?_).keep_outline rfl rfl rfl, last⟩
      exact update_of_ne (courteous _ bound active) ..
  | switch =>
    cases stepped
    exact ⟨owned.keep_outline rfl rfl rfl, last⟩
  | create pid width height =>
    simp only [Session.step] at stepped
    split at stepped
    · cases stepped
    · cases stepped
      exact tended.create courteous
  | destroy pid id =>
    simp only [Session.step] at stepped
    split at stepped
    · cases stepped
    · cases stepped
      unfold destroyWindow
      split
      · exact tended
      · next slot found =>
          obtain ⟨bound, active, -, same⟩ := slotByPidAndWin_some found
          subst same
          exact ⟨owned.release bound active,
            (congrArg Prod.snd WindowManager.outline_removeWindow).trans last⟩
  | poll pid id eventPtr =>
    simp only [Session.step] at stepped
    split at stepped
    · cases stepped
    · cases stepped
      unfold pollEvent
      split
      · exact tended
      · split
        · exact tended
        · dsimp only
          split <;> exact ⟨owned.setEvents _, last⟩
  | «open» w => exact tended.open stepped
  | close id =>
    cases stepped
    rw [closeWindow, handleWindowClose_foreign _ courteous]
    exact ⟨owned.keep_others rfl rfl courteous WindowManager.live_removeWindow,
      (congrArg Prod.snd WindowManager.outline_removeWindow).trans last⟩
  | click mouseX mouseY =>
    cases stepped
    exact tended.click courteous
  | drag mouseX mouseY =>
    cases stepped
    have same := WindowManager.outline_handleDrag (m := s.wm) mouseX mouseY
    exact ⟨owned.keep_outline rfl rfl same, (congrArg Prod.snd same).trans last⟩
  | release =>
    cases stepped
    have same := WindowManager.outline_releaseDrag (m := s.wm)
    exact ⟨owned.keep_outline rfl rfl same, (congrArg Prod.snd same).trans last⟩
  | input id ev =>
    cases stepped
    refine ⟨?_, ?_⟩
    · have pushed : OwnedBy s.procs (s.pushEvent id ev) := owned.pushEvent ev
      unfold Session.pushEvent at pushed ⊢
      split at pushed <;> exact pushed
    · unfold Session.pushEvent
      split <;> exact last

/-- The rectangle `inner` lies in the rectangle `outer`. -/
def Within (inner outer : Nat × Nat × Nat × Nat) : Prop :=
  outer.1 ≤ inner.1 ∧ outer.2.1 ≤ inner.2.1 ∧
    inner.1 + inner.2.2.1 ≤ outer.1 + outer.2.2.1 ∧
    inner.2.1 + inner.2.2.2 ≤ outer.2.1 + outer.2.2.2

/-- Ownership of windows is exact: entries have live owners and windows of their own,
drawing calls that go through are about windows made for the caller and paint inside
them, with text as far as it fits, and an event for a window goes to the process it was
made for and to no other. -/
structure Exact (s : Session) : Prop where
  owned : OwnedBy s.procs s
  drawn : ∀ {pid id area}, s.target pid id = .ok area →
    (∃ u, s.procs pid = some u ∧ s.creators id = some u) ∧ s.contentArea id = some area ∧
      (∀ {x y w h rect}, (s.fillRect pid id x y w h).2 = some rect → Within rect area) ∧
      (∀ {phys x y w h rect}, (s.blitShm pid id phys w h x y).2 = some rect → Within rect area) ∧
      ∀ {x y w h rect}, (s.drawText pid id x y w h).2 = some rect →
        (Within rect area ↔ min x area.2.2.1 + w ≤ area.2.2.1 ∧ min y area.2.2.2 + h ≤ area.2.2.2)
  sent : ∀ {id ev}, s.pushEvent id ev ≠ s → ∃ i u, s.slotByWin id = some i ∧
    s.procs (s.entries i).pid = some u ∧ s.creators id = some u ∧
    ∀ j ≠ i, (s.pushEvent id ev).entries j = s.entries j
  heard : ∀ {pid id ptr ev}, (s.pollEvent pid id ptr).2.1 = some ev →
    ∃ u, s.procs pid = some u ∧ s.creators id = some u

theorem OwnedBy.creator (owned : OwnedBy procs s) (found : s.slotByPidAndWin pid id = some i) :
    ∃ u, procs pid = some u ∧ s.creators id = some u := by
  obtain ⟨bound, active, rfl, rfl⟩ := slotByPidAndWin_some found
  obtain ⟨u, alive, -, made⟩ := owned.owner bound active
  exact ⟨u, alive, made⟩

theorem target_ok {area : Nat × Nat × Nat × Nat} (granted : s.target pid id = .ok area) :
    (∃ i, s.slotByPidAndWin pid id = some i) ∧ s.contentArea id = some area := by
  unfold target at granted
  split at granted
  · cases granted
  · next found =>
      rw [Option.isNone_iff_eq_none] at found
      refine ⟨Option.ne_none_iff_exists'.mp found, ?_⟩
      split at granted
      · cases granted
      · next here =>
          cases granted
          exact here

section

variable {area rect : Nat × Nat × Nat × Nat} {x y w h : Nat} (granted : s.target pid id = .ok area)
include granted

theorem fillRect_within (painted : (s.fillRect pid id x y w h).2 = some rect) :
    Within rect area := by
  obtain ⟨cx, cy, cw, ch⟩ := area
  simp only [fillRect, granted] at painted
  split at painted
  · cases painted
    simp only [Within]
    omega
  · cases painted

theorem blitShm_within {phys : Nat} (painted : (s.blitShm pid id phys w h x y).2 = some rect) :
    Within rect area := by
  obtain ⟨cx, cy, cw, ch⟩ := area
  simp only [blitShm, granted] at painted
  split at painted
  · cases painted
  · split at painted
    · cases painted
      simp only [Within]
      omega
    · cases painted

theorem drawText_within_iff (painted : (s.drawText pid id x y w h).2 = some rect) :
    Within rect area ↔ min x area.2.2.1 + w ≤ area.2.2.1 ∧ min y area.2.2.2 + h ≤ area.2.2.2 := by
  obtain ⟨cx, cy, cw, ch⟩ := area
  simp only [drawText, granted] at painted
  cases painted
  simp only [Within]
  omega

end

theorem OwnedBy.exact (owned : OwnedBy s.procs s) : s.Exact := by
  refine ⟨owned, ?_, ?_, ?_⟩
  · intro pid id area granted
    obtain ⟨⟨i, found⟩, here⟩ := target_ok granted
    exact ⟨owned.creator found, here, fun painted => fillRect_within granted painted,
      fun painted => blitShm_within granted painted,
      fun painted => drawText_within_iff granted painted⟩
  · intro id ev changed
    unfold Session.pushEvent at changed ⊢
    cases found : s.slotByWin id with
    | none =>
      rw [found] at changed
      exact absurd rfl changed
    | some i =>
      obtain ⟨bound, active, rfl⟩ := slotByWin_some found
      obtain ⟨u, alive, -, made⟩ := owned.owner bound active
      exact ⟨i, u, rfl, alive, made, fun j ne => update_of_ne ne ..⟩
  · intro pid id ptr ev got
    unfold pollEvent at got
    split at got
    · cases got
    · next found => exact owned.creator found

instance (s : Session) (ev : Event) : Decidable (s.Courteous ev) := by
  unfold Courteous
  split <;> infer_instance

/-- Two processes open windows beside one of the kernel; the first exits, and its pid
and window id go to a third, which draws and gets a key. -/
def threeProcesses : List Event :=
  [.open ⟨700, 300, 300, 200, true⟩, .spawn 1, .spawn 2, .create 1 300 200, .create 2 320 240,
    .click 712 315, .exit 1, .spawn 1, .create 1 200 200, .create 1 300 300, .input 1 (.key 65)]

end Session
end OxideOS.Gui
