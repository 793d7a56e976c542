import OxideOS.Gui.WindowManager
import OxideOS.Lib.Prog
import OxideOS.Lib.Run

/-!
# Processes and their windows

The table of `kernel/gui/gui_proc.rs` that says which process a window belongs to, and
the part of the main loop that closes windows. A drawing call names a window and goes
through if the table has an entry for the calling process and that window; an input
event goes to the first entry for the window.

Of the scheduler only the processes are kept that are alive, by pid. A process ends in
one of two ways: the scheduler's tick answers its pid, and the loop calls
`onProcessExit`; or it is killed, and nobody is told. A process that kills itself runs on
until the next tick, and makes calls. Two history variables, which the
code does not have, tell a pid from its next owner and a window id from its next window:
`procs` numbers the processes ever started, and `creators` is the process for which a
window was made.
-/

set_option autoImplicit false

namespace OxideOS.Gui

open Lib Function

def maxEntries : Nat := 12
def eventRingSize : Nat := 64
def titleBarH : Nat := 34

inductive GuiEvent where
  | key (ch : Nat)
  | mouseMove (x y : Nat)
  | mouseBtn (x y button : Nat) (pressed : Bool)
  | focus (gained : Bool)
  | close
  deriving DecidableEq, Repr

/-- An entry of the table, without its copy of the window's contents. -/
structure GprocEntry where
  active : Bool
  windowId : Nat
  pid : Nat
  events : List GuiEvent
  deriving DecidableEq, Repr

namespace GprocEntry

def empty : GprocEntry := ⟨false, 0, 0, []⟩

/-- A full ring drops the event; one place of it is never used. -/
def push (e : GprocEntry) (ev : GuiEvent) : GprocEntry :=
  if e.events.length + 1 = eventRingSize then e else { e with events := e.events ++ [ev] }

end GprocEntry

structure Session where
  wm : WindowManager
  entries : Nat → GprocEntry
  /-- The number of the live process with this pid. -/
  procs : Nat → Option Nat
  /-- The process that has killed itself and runs on. -/
  runsOn : Option Nat
  nextUid : Nat
  /-- The process a window was created for; none for a window of the kernel. -/
  creators : Nat → Option Nat

namespace Session

def start (width height : Nat) : Session where
  wm := WindowManager.new.setScreenDimensions width height
  entries := fun _ => .empty
  procs := fun _ => none
  runsOn := none
  nextUid := 0
  creators := fun _ => none

/-! ## The table -/

def slotByWin (s : Session) (windowId : Nat) : Option Nat :=
  firstBelow maxEntries fun i => (s.entries i).active && (s.entries i).windowId == windowId

def slotByPidAndWin (s : Session) (pid windowId : Nat) : Option Nat :=
  firstBelow maxEntries fun i =>
    (s.entries i).active && (s.entries i).pid == pid && (s.entries i).windowId == windowId

def isProcWindow (s : Session) (windowId : Nat) : Bool := (s.slotByWin windowId).isSome

def pidByWindow (s : Session) (windowId : Nat) : Option Nat :=
  (s.slotByWin windowId).map fun i => (s.entries i).pid

def setEntry (s : Session) (i : Nat) (e : GprocEntry) : Session :=
  { s with entries := update s.entries i e }

/-- The entry is free again. -/
def release (s : Session) (i : Nat) : Session := s.setEntry i { s.entries i with active := false }

/-- The contents of a window: everything below the title bar. -/
def contentArea (s : Session) (windowId : Nat) : Option (Nat × Nat × Nat × Nat) :=
  if windowId < maxWindows then
    (s.wm.windows windowId).map fun w => (w.x, w.y + titleBarH, w.width, w.height - titleBarH)
  else none

/-! ## System calls -/

/-- Where a new window of entry `slot` goes. -/
def placed (s : Session) (slot width height : Nat) : Window :=
  let off := min slot 6 * 24
  let x := min (60 + off) (s.wm.screenWidth - (width + 10))
  let y := min (70 + off) (s.wm.screenHeight - (height + 80))
  { x := x, y := y, width := min width (s.wm.screenWidth - (x + 4))
    height := min height (s.wm.screenHeight - (y + 4)), visible := true }

def createWindow (pid width height : Nat) (s : Session) : Int × Session :=
  match firstBelow maxEntries fun i => !(s.entries i).active with
  | none => (-12, s)
  | some slot =>
    match s.wm.addWindow (s.placed slot width height) with
    | (none, wm) => (-12, { s with wm := wm })
    | (some id, wm) =>
      (id, { s.setEntry slot ⟨true, id, pid, []⟩ with
        wm := wm, creators := update s.creators id (s.procs pid) })

def destroyWindow (pid windowId : Nat) (s : Session) : Int × Session :=
  match s.slotByPidAndWin pid windowId with
  | none => (-9, s)
  | some slot => (0, { s.release slot with wm := s.wm.removeWindow windowId })

/-- The area a drawing call of the process may draw in, or its error. -/
def target (pid windowId : Nat) (s : Session) : Except Int (Nat × Nat × Nat × Nat) :=
  if (s.slotByPidAndWin pid windowId).isNone then .error (-9) else
  match s.contentArea windowId with
  | none => .error (-9)
  | some area => .ok area

/-- The answer, and the rectangle of the screen that is painted. -/
def fillRect (pid windowId x y w h : Nat) (s : Session) : Int × Option (Nat × Nat × Nat × Nat) :=
  match s.target pid windowId with
  | .error e => (e, none)
  | .ok (cx, cy, cw, ch) =>
    let aw := min w (cw - x)
    let ah := min h (ch - y)
    (0, if 0 < aw ∧ 0 < ah then some (cx + min x cw, cy + min y ch, aw, ah) else none)

/-- The answer, and the rectangle that the pixels of segment memory at `phys` go to. -/
def blitShm (pid windowId phys srcW srcH dstX dstY : Nat) (s : Session) :
    Int × Option (Nat × Nat × Nat × Nat) :=
  match s.target pid windowId with
  | .error e => (e, none)
  | .ok (cx, cy, cw, ch) =>
    if phys = 0 then (-9, none) else
    let blitW := min srcW (cw - dstX)
    let blitH := min srcH (ch - dstY)
    (0, if 0 < blitW ∧ 0 < blitH then some (cx + dstX, cy + dstY, blitW, blitH) else none)

/-- The answer, and the rectangle of a text that is `w` pixels wide and `h` high. It is not
cut at the edges of the window. -/
def drawText (pid windowId x y w h : Nat) (s : Session) : Int × Option (Nat × Nat × Nat × Nat) :=
  match s.target pid windowId with
  | .error e => (e, none)
  | .ok (cx, cy, cw, ch) => (0, some (cx + min x cw, cy + min y ch, w, h))

/-- The next event of the window; an event is taken before the pointer is looked at. -/
def pollEvent (pid windowId eventPtr : Nat) (s : Session) : Int × Option GuiEvent × Session :=
  match s.slotByPidAndWin pid windowId with
  | none => (-9, none, s)
  | some slot =>
    match (s.entries slot).events with
    | [] => (-6, none, s)
    | ev :: rest =>
      let s' := s.setEntry slot { s.entries slot with events := rest }
      if eventPtr < 0x1000 ∨ 0xFFFF800000000000 ≤ eventPtr then (-14, none, s')
      else (0, some ev, s')

/-! ## The main loop -/

/-- `push_key_event` and the others: the event goes to the entry of the window. -/
def pushEvent (windowId : Nat) (ev : GuiEvent) (s : Session) : Session :=
  match s.slotByWin windowId with
  | none => s
  | some slot => s.setEntry slot ((s.entries slot).push ev)

/-- The close event is pushed; the entry stays. -/
def onWindowClosed (windowId : Nat) (s : Session) : Session := s.pushEvent windowId .close

def exitEntry (pid i : Nat) (s : Session) : Session :=
  if (s.entries i).active && (s.entries i).pid == pid then
    { s.release i with wm := s.wm.removeWindow (s.entries i).windowId }
  else s

def onProcessExit (pid : Nat) (s : Session) : Session := loop (exitEntry pid) 0 maxEntries s

/-- A killed process is dead at once. -/
def kill (pid : Nat) (s : Session) : Session :=
  { s with procs := update s.procs (pid % 256) none }

def handleWindowClose (closedId : Nat) (s : Session) : Session :=
  if s.isProcWindow closedId then
    let s := s.onWindowClosed closedId
    match s.pidByWindow closedId with
    | some pid => s.kill pid
    | none => s
  else s

/-- A click that reaches the window manager. -/
def click (mouseX mouseY : Nat) (s : Session) : Session :=
  let wm := (s.wm.handleClick mouseX mouseY).2
  match wm.lastClosedWindow with
  | none => { s with wm := wm }
  | some id => handleWindowClose id { s with wm := { wm with lastClosedWindow := none } }

/-- The loop removes a window: its thumbnail was closed, or the menu of a notepad. -/
def closeWindow (id : Nat) (s : Session) : Session :=
  handleWindowClose id { s with wm := s.wm.removeWindow id }

inductive Event where
  | spawn (pid : Nat)
  /-- The scheduler's tick answers that the process has ended. -/
  | exit (pid : Nat)
  /-- A process, or the kernel if there is no caller, kills a process. -/
  | kill (caller : Option Nat) (pid : Nat)
  /-- The tick after which another process runs. -/
  | switch
  | create (pid width height : Nat)
  | destroy (pid windowId : Nat)
  | poll (pid windowId eventPtr : Nat)
  /-- The kernel opens a window of its own. -/
  | open (w : Window)
  | close (id : Nat)
  | click (mouseX mouseY : Nat)
  | drag (mouseX mouseY : Nat)
  | release
  | input (windowId : Nat) (ev : GuiEvent)

def mayCall (s : Session) (pid : Nat) : Bool := (s.procs pid).isSome || s.runsOn == some pid

/-- One event; `none` when the process is not there, or the pid is taken. -/
def step (s : Session) : Event → Option Session
  | .spawn pid =>
    if (s.procs pid).isSome then none
    else some { s with
      procs := update s.procs pid (some s.nextUid), nextUid := s.nextUid + 1 }
  | .exit pid =>
    if (s.procs pid).isNone then none
    else some (onProcessExit pid { s with procs := update s.procs pid none })
  | .kill caller pid =>
    if !caller.all s.mayCall then none
    else some { s.kill pid with runsOn := if caller = some (pid % 256) then caller else s.runsOn }
  | .switch => some { s with runsOn := none }
  | .create pid width height =>
    if !s.mayCall pid then none else some (s.createWindow pid width height).2
  | .destroy pid windowId =>
    if !s.mayCall pid then none else some (s.destroyWindow pid windowId).2
  | .poll pid windowId eventPtr =>
    if !s.mayCall pid then none else some (s.pollEvent pid windowId eventPtr).2.2
  | .open w =>
    match s.wm.addWindow w with
    | (none, wm) => some { s with wm := wm }
    | (some id, wm) => some { s with wm := wm, creators := update s.creators id none }
  | .close id => some (s.closeWindow id)
  | .click mouseX mouseY => some (s.click mouseX mouseY)
  | .drag mouseX mouseY => some { s with wm := s.wm.handleDrag mouseX mouseY }
  | .release => some { s with wm := s.wm.releaseDrag }
  | .input windowId ev => some (s.pushEvent windowId ev)

end Session
end OxideOS.Gui
