import Mathlib.Data.List.Perm.Basic

/-!
# Opened and closed items

Items are opened and later closed.  `Settles` relates the items that are open
before and after some steps to those the steps open and close; the order does
not count, and equal items count as often as they occur.
-/

namespace RmDisplay.Foundation

variable {α : Type} {before middle after opened openedLater closed
  closedLater : List α}

/-- Every item that was open or is opened is closed once or still open. -/
def Settles (before opened closed after : List α) : Prop :=
  (opened ++ before).Perm (closed ++ after)

namespace Settles

theorem refl (items : List α) : Settles items [] [] items := List.Perm.refl _

theorem replace (item : α) (items : List α) :
    Settles items [item] items [item] := List.perm_append_comm

theorem atOnce (item : α) (items : List α) :
    Settles items [item] [item] items := List.Perm.refl _

theorem close (items : List α) : Settles items [] items [] := by
  simp [Settles]

theorem of_eq (same : before = after) : Settles before [] [] after := by
  rw [same]
  exact refl after

theorem trans (first : Settles before opened closed middle)
    (second : Settles middle openedLater closedLater after) :
    Settles before (opened ++ openedLater) (closed ++ closedLater) after := by
  have moved : (opened ++ openedLater ++ before).Perm
      (opened ++ before ++ openedLater) := by
    simp only [List.append_assoc]
    exact List.perm_append_comm.append_left opened
  have between : (closed ++ middle ++ openedLater).Perm
      (closed ++ (openedLater ++ middle)) := by
    rw [List.append_assoc]
    exact List.perm_append_comm.append_left closed
  have settled : (closed ++ (openedLater ++ middle)).Perm
      (closed ++ closedLater ++ after) := by
    rw [List.append_assoc]
    exact List.Perm.append_left closed second
  exact moved.trans
    ((List.Perm.append_right openedLater first).trans (between.trans settled))

/-- What is opened and closed may be listed in any order. -/
theorem congr {opened' closed' : List α}
    (settles : Settles before opened closed after)
    (sameOpened : opened'.Perm opened) (sameClosed : closed.Perm closed') :
    Settles before opened' closed' after :=
  ((sameOpened.append_right _).trans settles).trans
    (sameClosed.append_right _)

end Settles

end RmDisplay.Foundation
