import RmDisplay.Core.PlaneCells
import RmDisplay.Receiver.LocalMenu

/-!
# What the menu is drawn of

The menu is drawn by filling rectangles, each for one part of the menu.  The
planes show the rectangles in the order in which they are filled.
-/

namespace RmDisplay.Receiver

open Foundation Protocol RmDisplay.Core

namespace Canvas

def picture (self : Canvas) : Cells := self.planes.cells self.stride

/-- The places of the panel that filling a rectangle sets. -/
def filled (width height : Nat) (rect : Rect) : Set Place :=
  {p | rect.Covers p.1 p.2 ∧ p.1 < width ∧ p.2 < height}

end Canvas

/-- What a rectangle of the menu is filled for. -/
inductive MenuPart where
  | panel | edge
  | button (button : ProfileButton)
  | row (index : Nat)
  | text

structure MenuFill where
  part : MenuPart
  rect : Rect
  value : UInt8

namespace MenuFill

def draw (canvas : Canvas) (fill : MenuFill) : Res SurfaceError Canvas :=
  canvas.fillRect fill.rect.x fill.rect.y fill.rect.width fill.rect.height
    fill.value

/-- The picture after filling rectangles of the panel. -/
noncomputable def paint (width height : Nat) (picture : Cells) (fill : MenuFill) : Cells :=
  Picture.paint (Canvas.filled width height fill.rect)
    (fun _ => (some fill.value, some 255)) picture

variable {width height : Nat} {profile : RefreshProfile}
  {partialRefresh customAvailable : Bool} {fill : MenuFill}

end MenuFill

end RmDisplay.Receiver
