import RmDisplay.Core.OperationSteps

/-!
# What steps do to the ink

The ink changes only where it is edited.  Everything else that happens to a
core at most forgets which part of the ink is dirty.
-/

namespace RmDisplay.Core

open Foundation Protocol DisplayCore

theorem inkPlanes_planeTaken (core : DisplayCore) (intent : FrameIntent) :
    (core.planeTaken intent).ink.planes = core.ink.planes := by
  rcases planeTaken_eq core intent with same | taken
  · rw [same]
  · rw [taken]
    rfl

theorem inkPlanes_drawnPlane {core drawn : DisplayCore} {intent : FrameIntent}
    {damage : List Rect} (draws : core.drawnPlane intent = .ok (drawn, damage)) :
    drawn.ink.planes = core.ink.planes := by
  rw [← inkPlanes_planeTaken core intent]
  unfold drawnPlane at draws
  dsimp only at draws
  split at draws
  · cases draws
    rfl
  · obtain ⟨working, _, draws⟩ := Res.bind_eq_ok.mp draws
    obtain ⟨_, _, draws⟩ := Res.bind_eq_ok.mp draws
    cases draws
    rfl

theorem FrameStep.inkPlanes {timing : Timing} {before after : World}
    {terminal : TerminalFrame}
    (step : FrameStep timing before terminal after) :
    after.core.ink.planes = before.core.ink.planes := by
  cases step with
  | accepted _ _ _ _ _ presents =>
      obtain ⟨_, _, _, _, _, rfl⟩ := presentAccepted_eq_ok presents
      simp
  | _ => rfl

theorem PlaneStep.inkPlanes {timing : Timing} {intent : FrameIntent}
    {before after : World} {output : Except CoreError Unit}
    (step : PlaneStep timing intent before output after) :
    after.core.ink.planes = before.core.ink.planes := by
  cases step with
  | failed _ => exact inkPlanes_planeTaken _ _
  | unchanged draws => exact inkPlanes_drawnPlane draws
  | refused draws _ _ => exact inkPlanes_drawnPlane draws
  | accepted draws _ _ presents =>
      obtain ⟨_, _, _, _, _, rfl⟩ := planeAccepted_eq_ok presents
      rw [← inkPlanes_drawnPlane draws]
      simp

theorem CleanupStep.inkPlanes {timing : Timing} {before after : World}
    {report : CleanupReport} (step : CleanupStep timing before report after) :
    after.core.ink.planes = before.core.ink.planes := by
  cases step with
  | accepted _ _ =>
      rw [cleanupAccepted_eq]
  | _ => rfl

/-- A step that does not edit the ink keeps it. -/
theorem CoreStep.inkPlanes {before after : World} {action : Action}
    {terminals : List TerminalFrame}
    (step : CoreStep before action terminals after)
    (notInk : ∀ edit, action ≠ .edit .ink edit) :
    after.core.ink.planes = before.core.ink.planes := by
  cases step with
  | commit commits =>
      obtain ⟨_, _, _, _, _, _, _, rfl⟩ := commitTimed_eq_ok commits
      rfl
  | cancel | freeze => rfl
  | @edit core _ _ id edit edits =>
      obtain ⟨_, _, rfl⟩ := editPlane_eq_ok edits
      cases id with
      | ink => exact absurd rfl (notInk edit)
      | menu | peer => rfl
  | adjust adjusts =>
      obtain ⟨_, _, _, _, _, _, rfl⟩ := adjusts.frame
      rfl
  | present step => exact step.inkPlanes
  | draw step => exact step.inkPlanes
  | resubmit _ step => exact step.inkPlanes

end RmDisplay.Core
