import RmDisplay.Core.Refresh
import RmDisplay.Receiver.Gesture

/-!
# The local menu

The menu is drawn into the receiver's own overlay plane, and a released touch
on it chooses an action.
-/

namespace RmDisplay.Receiver

open Foundation Protocol RmDisplay.Core

inductive LocalMenuAction where
  | setProfile (profile : RefreshProfile)
  | togglePartialRefresh
  | fullRefresh
  | newPair
  | closeApp
  | close
deriving DecidableEq, Repr

def menuHeight (height : Nat) : Nat := min (max height 240) 560

def profiles : List RefreshProfile :=
  [.realtime, .animate, .balanced, .reading, .quality, .custom]

def profileButtonsBottom (height : Nat) : Nat := min 154 (height / 2)

/-- A button with the profile it selects. -/
structure ProfileButton where
  bounds : Rect
  profile : RefreshProfile
deriving DecidableEq, Repr

def profileButtonBounds (width height : Nat) (customAvailable : Bool) :
    List ProfileButton :=
  let shown := if customAvailable then profiles else profiles.take 5
  let count := shown.length
  let left := min 16 (width / 8)
  let gap := min 8 (width / 20)
  let available := width - left * 2 - gap * (count - 1)
  let top := min 68 (height / 4)
  let bottom := profileButtonsBottom height
  shown.zipIdx.map fun (profile, index) =>
    let x := left + available * index / count + gap * index
    let next := left + available * (index + 1) / count + gap * index
    ⟨⟨x, top, next - x, bottom - top⟩, profile⟩

/-- Top and bottom of each of the five control rows. -/
def controlRowBounds (height : Nat) : List (Nat × Nat) :=
  let top := min (profileButtonsBottom height + 8) height
  let available := height - top
  (List.range 5).map fun index =>
    (top + available * index / 5, top + available * (index + 1) / 5)

def controlActions : List LocalMenuAction :=
  [.togglePartialRefresh, .fullRefresh, .newPair, .closeApp, .close]

def hitTest (x y width height : Nat) (customAvailable : Bool) :
    LocalMenuAction :=
  if width ≤ x ∨ menuHeight height ≤ y then .close
  else
    match (profileButtonBounds width (menuHeight height) customAvailable).find?
        fun button => decide (button.bounds.Covers x y) with
    | some button => .setProfile button.profile
    | none =>
        match ((controlRowBounds (menuHeight height)).zip controlActions).find?
            fun row => decide (row.1.1 ≤ y ∧ y < row.1.2) with
        | some row => row.2
        | none => .close

def profileName : RefreshProfile → String
  | .realtime => "REALTIME"
  | .animate => "ANIMATE"
  | .balanced => "BALANCED"
  | .reading => "READING"
  | .quality => "QUALITY"
  | .custom => "CUSTOM"

/-- Seven rows of five pixels each, the highest bit on the left. -/
def glyph : Char → List Nat
  | 'A' => [14, 17, 17, 31, 17, 17, 17]
  | 'B' => [30, 17, 17, 30, 17, 17, 30]
  | 'C' => [14, 17, 16, 16, 16, 17, 14]
  | 'D' => [30, 17, 17, 17, 17, 17, 30]
  | 'E' => [31, 16, 16, 30, 16, 16, 31]
  | 'F' => [31, 16, 16, 30, 16, 16, 16]
  | 'G' => [14, 17, 16, 23, 17, 17, 14]
  | 'H' => [17, 17, 17, 31, 17, 17, 17]
  | 'I' => [31, 4, 4, 4, 4, 4, 31]
  | 'L' => [16, 16, 16, 16, 16, 16, 31]
  | 'M' => [17, 27, 21, 21, 17, 17, 17]
  | 'N' => [17, 25, 21, 19, 17, 17, 17]
  | 'O' => [14, 17, 17, 17, 17, 17, 14]
  | 'P' => [30, 17, 17, 30, 16, 16, 16]
  | 'Q' => [14, 17, 17, 17, 21, 18, 13]
  | 'R' => [30, 17, 17, 30, 20, 18, 17]
  | 'S' => [15, 16, 16, 14, 1, 1, 30]
  | 'T' => [31, 4, 4, 4, 4, 4, 4]
  | 'U' => [17, 17, 17, 17, 17, 17, 14]
  | 'V' => [17, 17, 17, 17, 17, 10, 4]
  | 'W' => [17, 17, 17, 21, 21, 21, 10]
  | 'X' => [17, 17, 10, 4, 10, 17, 17]
  | 'Y' => [17, 17, 10, 4, 4, 4, 4]
  | ' ' => [0, 0, 0, 0, 0, 0, 0]
  | _ => [31, 1, 2, 4, 4, 0, 4]

/-- Both planes of the menu and the length of a row. -/
structure Canvas where
  planes : Planes
  stride : Nat
deriving DecidableEq

namespace Canvas

/-- A canvas that covers nothing yet. -/
def blank (width height : Nat) : Canvas where
  planes :=
    { luma := List.replicate (width * height) 0
      alpha := List.replicate (width * height) 0
      sameLength := by simp }
  stride := width

/-- Fill the part of a rectangle that lies on the canvas. -/
def fillRect (self : Canvas) (x y width height : Nat) (value : UInt8) :
    Res SurfaceError Canvas :=
  if self.stride ≤ x ∨ self.stride = 0 then .ok self
  else do
    let width := min width (self.stride - x)
    let rows := self.planes.luma.length / self.stride
    let planes ← (List.range' y (min (y + height) rows - y)).foldlM
      (fun planes row => Res.orPanic (planes.overwrite (row * self.stride + x)
        (List.replicate width value) (List.replicate width 255))) self.planes
    return { self with planes }

def drawGlyph (self : Canvas) (x y : Nat) (letter : Char) (scale : Nat)
    (value : UInt8) : Res SurfaceError Canvas :=
  (glyph letter).zipIdx.foldlM (fun canvas (bits, row) =>
    (List.range 5).foldlM (fun canvas column =>
      if bits.testBit (4 - column) then
        canvas.fillRect (x + column * scale) (y + row * scale) scale scale value
      else .ok canvas) canvas) self

def drawText (self : Canvas) (x y : Nat) (text : String) (scale : Nat)
    (value : UInt8) : Res SurfaceError Canvas :=
  text.toList.zipIdx.foldlM (fun canvas (letter, index) =>
    canvas.drawGlyph (x + index * (6 * scale)) y letter scale value) self

def drawTextCentered (self : Canvas) (bounds : Rect) (text : String)
    (scale : Nat) (value : UInt8) : Res SurfaceError Canvas :=
  self.drawText (bounds.x + (bounds.width - text.length * 6 * scale) / 2)
    (bounds.y + (bounds.height - 7 * scale) / 2) text scale value

end Canvas

structure LocalMenu where
  visible : Bool := false
  customAvailable : Bool := false
deriving DecidableEq, Repr

namespace LocalMenu

def toggle (self : LocalMenu) : LocalMenu :=
  { self with visible := !self.visible }

def close (self : LocalMenu) : LocalMenu := { self with visible := false }

def actionForReport (self : LocalMenu) (report : List PhysicalPointerEvent)
    (width height : Nat) : Option LocalMenuAction :=
  if !self.visible then none
  else
    (report.reverse.find? (·.phase == .up)).map fun event =>
      hitTest event.x event.y width height self.customAvailable

/-- One button, marked when its profile is active. -/
def drawProfileButton (profile : RefreshProfile) (scale : Nat)
    (canvas : Canvas) (button : ProfileButton) : Res SurfaceError Canvas := do
  let bounds := button.bounds
  let active := profile == button.profile
  let canvas ← canvas.fillRect bounds.x bounds.y bounds.width bounds.height
    (if active then 0 else 235)
  canvas.drawTextCentered bounds (profileName button.profile) scale
    (if active then 255 else 0)

/-- The rectangle behind the label of a control row. -/
def controlBackground (width : Nat) (row : Nat × Nat) : Rect :=
  ⟨16, row.1 + 5, width - 32, row.2 - (row.1 + 10)⟩

def controlLabels (partialRefresh : Bool) : List String :=
  [if partialRefresh then "PARTIAL ON" else "PARTIAL OFF",
    "FULL REFRESH", "NEW PAIR", "CLOSE APP", "CLOSE MENU"]

def drawControlRow (width : Nat) (canvas : Canvas)
    (row : (Nat × Nat) × String) : Res SurfaceError Canvas := do
  let ((top, bottom), label) := row
  let background := controlBackground width (top, bottom)
  let canvas ← canvas.fillRect background.x background.y background.width
    background.height 235
  canvas.drawText 32 (top + (bottom - top - 14) / 2) label 2 0

/-- The visible menu. -/
def draw (width height : Nat) (profile : RefreshProfile)
    (partialRefresh customAvailable : Bool) : Res SurfaceError Canvas := do
  let menuHeight := menuHeight height
  let canvas ← (Canvas.blank width height).fillRect 0 0 width menuHeight 255
  let canvas ← canvas.fillRect 0 0 width 5 0
  let buttons := profileButtonBounds width menuHeight customAvailable
  let scale := if buttons.head?.any (100 ≤ ·.bounds.width) then 2 else 1
  let canvas ← buttons.foldlM (drawProfileButton profile scale) canvas
  let canvas ← canvas.drawText 24 18 "RM DISPLAY" 3 0
  let canvas ← canvas.drawText (width - 310) 18
    ("ACTIVE " ++ profileName profile) 2 0
  ((controlRowBounds menuHeight).zip (controlLabels partialRefresh)).foldlM
    (drawControlRow width) canvas

/-- Draw the menu, or clear its plane when it is closed. -/
def render (self : LocalMenu) (overlay : LocalOverlay) (width height : Nat)
    (profile : RefreshProfile) (partialRefresh customAvailable : Bool) :
    Res SurfaceError (LocalOverlay × LocalMenu) :=
  let menu := { self with customAvailable }
  if !self.visible then .ok (overlay.clear, menu)
  else
    match draw width height profile partialRefresh customAvailable with
    | .ok canvas =>
        match overlay.replacePlanes canvas.planes.luma canvas.planes.alpha with
        | .ok overlay => .ok (overlay, menu)
        -- The source expects planes that match the overlay.
        | .error _ | .panic => .panic
    | .error err => .error err
    | .panic => .panic

end LocalMenu

end RmDisplay.Receiver
