import Mathlib.Algebra.Order.Ring.Int
import Mathlib.Tactic.Common
import OxideOS.Lib.Run
import OxideOS.Lib.Table

/-!
# The window manager

The windows of the desktop, as `gui/window_manager.rs` keeps them: sixteen places for
windows, the stacking order from the bottom up, and the windows that have the focus,
are being dragged or are being resized. The order is the used part of the array
`z_order`; its length is `window_count`.

Of a window only its place, its size and whether it is visible are kept. Sums of
coordinates are taken without the check for overflow, where the kernel stops.
-/

set_option autoImplicit false

namespace OxideOS.Gui

open Lib Function

def maxWindows : Nat := 16
def taskbarHeight : Nat := 48
def titlebarH : Nat := 34
def resizeZone : Nat := 8
def minWinW : Nat := 200
def minWinH : Nat := 100
def taskbarItemWidth : Nat := 150
def taskbarItemSpacing : Nat := 5

/-- A word read as a signed number. -/
def asI64 (w : Nat) : Int := if w < 2 ^ 63 then w else (w : Int) - 2 ^ 64

structure Window where
  x : Nat
  y : Nat
  width : Nat
  height : Nat
  visible : Bool
  deriving DecidableEq, Repr

def Window.isTitlebarClicked (w : Window) (mouseX mouseY : Nat) : Bool :=
  w.visible && decide (w.x ≤ mouseX ∧ mouseX < w.x + w.width ∧ w.y ≤ mouseY ∧ mouseY < w.y + 30)

inductive WindowState where
  | normal | minimized | maximized | snappedLeft | snappedRight
  deriving DecidableEq, Repr

structure WindowManager where
  windows : Nat → Option Window
  windowStates : Nat → WindowState
  /-- Place and size before the window was maximized or snapped. -/
  savedPositions : Nat → Nat × Nat × Nat × Nat
  zOrder : List Nat
  focusedWindow : Option Nat
  draggingWindow : Option Nat
  dragOffsetX : Int
  dragOffsetY : Int
  screenWidth : Nat
  screenHeight : Nat
  lastClosedWindow : Option Nat
  clockWasClicked : Bool
  resizingWindow : Option Nat
  /-- 1 for the right edge, 2 for the bottom, 3 for the corner. -/
  resizeEdge : Nat
  resizeStartMx : Int
  resizeStartMy : Int
  resizeStartW : Nat
  resizeStartH : Nat

namespace WindowManager

def new : WindowManager where
  windows := fun _ => none
  windowStates := fun _ => .normal
  savedPositions := fun _ => (0, 0, 0, 0)
  zOrder := []
  focusedWindow := none
  draggingWindow := none
  dragOffsetX := 0
  dragOffsetY := 0
  screenWidth := 1280
  screenHeight := 800
  lastClosedWindow := none
  clockWasClicked := false
  resizingWindow := none
  resizeEdge := 0
  resizeStartMx := 0
  resizeStartMy := 0
  resizeStartW := 0
  resizeStartH := 0

def setScreenDimensions (m : WindowManager) (width height : Nat) : WindowManager :=
  { m with screenWidth := width, screenHeight := height }

/-- The window id names a window. -/
def live (m : WindowManager) (id : Nat) : Bool := decide (id < maxWindows) && (m.windows id).isSome

def setState (m : WindowManager) (id : Nat) (state : WindowState) : WindowManager :=
  { m with windowStates := update m.windowStates id state }

def setWindow (m : WindowManager) (id : Nat) (w : Window) : WindowManager :=
  { m with windows := update m.windows id (some w) }

def savePosition (m : WindowManager) (id : Nat) (w : Window) : WindowManager :=
  { m with savedPositions := update m.savedPositions id (w.x, w.y, w.width, w.height) }

/-! ## Windows come and go -/

def addWindow (w : Window) (m : WindowManager) : Option Nat × WindowManager :=
  if maxWindows ≤ m.zOrder.length then (none, m) else
  match firstBelow maxWindows fun i => (m.windows i).isNone with
  | none => (none, m)
  | some i =>
    (some i, { (m.setWindow i w).setState i .normal with
      zOrder := m.zOrder ++ [i], focusedWindow := some i })

def removeWindow (id : Nat) (m : WindowManager) : WindowManager :=
  if !m.live id then m else
  let zOrder := m.zOrder.erase id
  { m with
    windows := update m.windows id none
    zOrder := zOrder
    focusedWindow := if m.focusedWindow = some id then zOrder.getLast? else m.focusedWindow
    draggingWindow := if m.draggingWindow = some id then none else m.draggingWindow }

/-! ## States -/

/-- The focus goes to the topmost other window that is not minimized. -/
def minimizeWindow (id : Nat) (m : WindowManager) : WindowManager :=
  if !m.live id then m else
  let m := m.setState id .minimized
  if m.focusedWindow = some id then
    { m with focusedWindow := m.zOrder.reverse.find? fun i =>
        i != id && m.windowStates i != .minimized }
  else m

def maximizeWindow (id : Nat) (m : WindowManager) : WindowManager :=
  if maxWindows ≤ id then m else
  match m.windows id with
  | none => m
  | some w =>
    match m.windowStates id with
    | .maximized | .snappedLeft | .snappedRight =>
      let (x, y, width, height) := m.savedPositions id
      (m.setWindow id { w with x := x, y := y, width := width, height := height }).setState id
        .normal
    | .normal | .minimized =>
      ((m.savePosition id w).setWindow id { w with
        x := 0, y := taskbarHeight, width := m.screenWidth
        height := m.screenHeight - taskbarHeight }).setState id .maximized

/-- Half of the screen, from `x` on. -/
def snap (x : Nat) (state : WindowState) (id : Nat) (m : WindowManager) : WindowManager :=
  if maxWindows ≤ id then m else
  match m.windows id with
  | none => m
  | some w =>
    ((m.savePosition id w).setWindow id { w with
      x := x, y := taskbarHeight, width := m.screenWidth / 2
      height := m.screenHeight - taskbarHeight }).setState id state

def snapLeft (id : Nat) (m : WindowManager) : WindowManager := snap 0 .snappedLeft id m

def snapRight (id : Nat) (m : WindowManager) : WindowManager :=
  snap (m.screenWidth / 2) .snappedRight id m

/-- A window that is topmost already does not get the focus. -/
def bringToFront (id : Nat) (m : WindowManager) : WindowManager :=
  if !m.live id then m else
  if id ∈ m.zOrder then
    if m.zOrder.idxOf id + 1 = m.zOrder.length then m
    else { m with zOrder := m.zOrder.erase id ++ [id], focusedWindow := some id }
  else m

def restoreWindow (id : Nat) (m : WindowManager) : WindowManager :=
  if maxWindows ≤ id then m else
  match m.windowStates id with
  | .minimized => bringToFront id (m.setState id .normal)
  | .maximized | .snappedLeft | .snappedRight => maximizeWindow id m
  | .normal => m

/-! ## Clicks -/

/-- What of a window has been hit. -/
inductive Hit where
  | close | maximize | minimize
  | resize (edge : Nat)
  | titlebar (dx dy : Int)
  | body
  deriving DecidableEq, Repr

def btnSize : Nat := 14
def btnCloseOx : Nat := 10
def btnMinOx : Nat := 28
def btnMaxOx : Nat := 46

def btnBy (w : Window) : Nat := w.y + (titlebarH - btnSize) / 2

/-- A button of the title bar, `ox` from the left. -/
def isButtonClicked (ox : Nat) (w : Window) (mouseX mouseY : Nat) : Bool :=
  decide (w.x + ox ≤ mouseX ∧ mouseX < w.x + ox + btnSize ∧ btnBy w ≤ mouseY ∧
    mouseY < btnBy w + btnSize)

def isCloseButtonClicked : Window → Nat → Nat → Bool := isButtonClicked btnCloseOx
def isMinimizeButtonClicked : Window → Nat → Nat → Bool := isButtonClicked btnMinOx
def isMaximizeButtonClicked : Window → Nat → Nat → Bool := isButtonClicked btnMaxOx

def detectResizeEdge (w : Window) (mx my : Nat) : Nat :=
  let right := decide (w.x + (w.width - resizeZone) ≤ mx ∧ mx < w.x + w.width + resizeZone)
  let bottom := decide (w.y + (w.height - resizeZone) ≤ my ∧ my < w.y + w.height + resizeZone)
  if mx < w.x then 0 else
  if my < w.y + titlebarH then 0 else
  match right, bottom with
  | true, true => 3
  | true, false => 1
  | false, true => 2
  | false, false => 0

def hitOf (state : WindowState) (w : Window) (mouseX mouseY : Nat) : Option Hit :=
  if isCloseButtonClicked w mouseX mouseY then some .close else
  if isMaximizeButtonClicked w mouseX mouseY then some .maximize else
  if isMinimizeButtonClicked w mouseX mouseY then some .minimize else
  if state = .normal ∧ 0 < detectResizeEdge w mouseX mouseY then
    some (.resize (detectResizeEdge w mouseX mouseY)) else
  if w.isTitlebarClicked mouseX mouseY then
    some (.titlebar (asI64 mouseX - asI64 w.x) (asI64 mouseY - asI64 w.y)) else
  if w.x ≤ mouseX ∧ mouseX < w.x + w.width ∧ w.y ≤ mouseY ∧ mouseY < w.y + w.height then some .body
  else none

/-- The topmost window that is hit, below the taskbar. -/
def clickTarget (m : WindowManager) (mouseX mouseY : Nat) : Option (Nat × Hit) :=
  m.zOrder.reverse.findSome? fun id =>
    if m.windowStates id = .minimized then none else
    match m.windows id with
    | none => none
    | some w => if w.visible then (hitOf (m.windowStates id) w mouseX mouseY).map (id, ·) else none

def clockPillW : Nat := 90 + 24

def isClockClicked (m : WindowManager) (mouseX : Nat) : Bool :=
  let pill := (m.screenWidth - clockPillW) / 2
  decide (pill ≤ mouseX ∧ mouseX < pill + clockPillW)

/-- The window whose item of the taskbar is hit. -/
def taskbarTarget (m : WindowManager) (mouseX : Nat) : Option Nat :=
  (m.zOrder.zipIdx.find? fun (_, i) =>
    let item := 158 + i * (taskbarItemWidth + taskbarItemSpacing)
    decide (item ≤ mouseX ∧ mouseX < item + taskbarItemWidth)).map (·.1)

def handleTaskbarClick (mouseX : Nat) (m : WindowManager) : Bool × WindowManager :=
  if m.isClockClicked mouseX then (true, { m with clockWasClicked := true }) else
  match m.taskbarTarget mouseX with
  | none => (false, m)
  | some id =>
    (true,
      if m.windowStates id = .minimized then restoreWindow id m
      else if m.focusedWindow = some id then minimizeWindow id m
      else bringToFront id m)

def startResize (id edge mouseX mouseY : Nat) (m : WindowManager) : WindowManager :=
  match m.windows id with
  | none => m
  | some w =>
    { m with
      resizingWindow := some id, resizeEdge := edge, resizeStartMx := asI64 mouseX
      resizeStartMy := asI64 mouseY, resizeStartW := w.width, resizeStartH := w.height }

/-- The title bar has been hit: a snapped window is restored, and unless it is
maximized the window is dragged from now on. -/
def startDrag (id : Nat) (dx dy : Int) (m : WindowManager) : WindowManager :=
  if m.windowStates id = .maximized then m else
  let m' := if m.windowStates id = .snappedLeft ∨ m.windowStates id = .snappedRight then
    restoreWindow id m else m
  { m' with draggingWindow := some id, dragOffsetX := dx, dragOffsetY := dy }

def actOn (id mouseX mouseY : Nat) (hit : Hit) (m : WindowManager) : WindowManager :=
  match hit with
  | .close => removeWindow id { m with lastClosedWindow := some id }
  | .maximize => maximizeWindow id m
  | .minimize => minimizeWindow id m
  | .resize edge => startResize id edge mouseX mouseY (bringToFront id m)
  | .titlebar dx dy => startDrag id dx dy (bringToFront id m)
  | .body => bringToFront id m

def handleClick (mouseX mouseY : Nat) (m : WindowManager) : Bool × WindowManager :=
  if mouseY < taskbarHeight then handleTaskbarClick mouseX m else
  match m.clickTarget mouseX mouseY with
  | none => (false, m)
  | some (id, hit) => (true, actOn id mouseX mouseY hit m)

/-! ## Dragging -/

def handleDrag (mouseX mouseY : Nat) (m : WindowManager) : WindowManager :=
  match m.resizingWindow with
  | some id =>
    match m.windows id with
    | none => m
    | some w =>
      let width := (max (m.resizeStartW + (asI64 mouseX - m.resizeStartMx)) minWinW).toNat
      let height := (max (m.resizeStartH + (asI64 mouseY - m.resizeStartMy)) minWinH).toNat
      m.setWindow id { w with
        width := if m.resizeEdge = 1 ∨ m.resizeEdge = 3 then width else w.width
        height := if m.resizeEdge = 2 ∨ m.resizeEdge = 3 then height else w.height }
  | none =>
    match m.draggingWindow with
    | none => m
    | some id =>
      match m.windows id with
      | none => m
      | some w =>
        m.setWindow id { w with
          x := (max (asI64 mouseX - m.dragOffsetX) 0).toNat
          y := (max (asI64 mouseY - m.dragOffsetY) taskbarHeight).toNat }

def snapEdge : Nat := 20

/-- The dragged window is snapped if it has been left at an edge of the screen. -/
def snapReleased (id : Nat) (m : WindowManager) : WindowManager :=
  if m.windowStates id = .normal then
    match m.windows id with
    | none => m
    | some w =>
      if w.x ≤ snapEdge then snapLeft id m
      else if m.screenWidth ≤ w.x + w.width + snapEdge then snapRight id m
      else m
  else m

def releaseDrag (m : WindowManager) : WindowManager :=
  if m.resizingWindow.isSome then { m with resizingWindow := none } else
  match m.draggingWindow with
  | none => m
  | some id => { snapReleased id m with draggingWindow := none }

/-! ## The operations -/

inductive Op where
  | add (w : Window)
  | remove (id : Nat)
  | minimize (id : Nat)
  | maximize (id : Nat)
  | restore (id : Nat)
  | snapLeft (id : Nat)
  | snapRight (id : Nat)
  | bringToFront (id : Nat)
  | click (mouseX mouseY : Nat)
  | drag (mouseX mouseY : Nat)
  | release

def apply (m : WindowManager) : Op → WindowManager
  | .add w => (m.addWindow w).2
  | .remove id => m.removeWindow id
  | .minimize id => m.minimizeWindow id
  | .maximize id => m.maximizeWindow id
  | .restore id => m.restoreWindow id
  | .snapLeft id => m.snapLeft id
  | .snapRight id => m.snapRight id
  | .bringToFront id => m.bringToFront id
  | .click mouseX mouseY => (m.handleClick mouseX mouseY).2
  | .drag mouseX mouseY => m.handleDrag mouseX mouseY
  | .release => m.releaseDrag

def step (m : WindowManager) (op : Op) : Option WindowManager := some (m.apply op)

end WindowManager
end OxideOS.Gui
