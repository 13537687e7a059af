import RmDisplay.Core.OperationSteps

/-!
# What steps do to the frames

A core knows the base with its frame id, the presented frame with its base, and
the frame that is pending.  A step that accepts no frame and does not freeze
presents the pending frame, drops it, or asks for a keyframe after a failure.
-/

namespace RmDisplay.Core

open Foundation Protocol DisplayCore

/-- What a core knows of its frames. -/
structure FrameState where
  base : PixelSurface
  baseValid : Bool
  logicalFrameId : Nat
  presentedFrameId : Nat
  presentedBase : PixelSurface
  pending : Option PendingPresentation

def DisplayCore.frames (self : DisplayCore) : FrameState where
  base := self.base
  baseValid := self.baseValid
  logicalFrameId := self.logicalFrameId
  presentedFrameId := self.presentedFrameId
  presentedBase := self.presentedBase
  pending := self.pending

/-- A failure that makes the ids start anew: planes do not take part. -/
def PanelCall.resets : PanelCall → Bool
  | .pump accepted => !accepted
  | .submit submission =>
      submission.reply.isNone &&
        match submission.origin with
        | .frame _ _ | .cleanup => true
        | .overlay | .ink | .fallback => false

/-- What happens to the frames when no frame is accepted; the first argument
tells whether a call failed. -/
inductive FrameChange : Bool → FrameState → FrameState → Prop where
  | kept {state : FrameState} : FrameChange false state state
  | dropped {state : FrameState} :
      FrameChange false state { state with pending := none }
  | failed {state : FrameState} :
      FrameChange true state
        { state with baseValid := false, logicalFrameId := 0, pending := none }
  | presented {state : FrameState} {pending : PendingPresentation}
      (isPending : state.pending = some pending) :
      FrameChange false state
        { state with
          presentedFrameId := pending.frameId
          presentedBase := state.base
          pending := none }

theorem FrameChange.keepsBase {failed : Bool} {state next : FrameState}
    (change : FrameChange failed state next) (valid : next.baseValid = true) :
    state.baseValid = true ∧ next.base = state.base := by
  cases change with
  | kept | dropped | presented _ => exact ⟨valid, rfl⟩
  | failed => cases valid

theorem frames_editPlane {core next : DisplayCore} {id : PlaneId}
    {edit : PlaneEdit} (edits : core.editPlane id edit = .ok next) :
    next.frames = core.frames := by
  obtain ⟨plane, _, rfl⟩ := editPlane_eq_ok edits
  cases id <;> rfl

/-- A step with the calls it makes. -/
def ChangesFrames (before after : World) : Prop :=
  ∃ new : List PanelCall, after.panel.calls = new ++ before.panel.calls ∧
    FrameChange (new.any (·.resets)) before.core.frames after.core.frames

namespace ChangesFrames

variable {core next : DisplayCore} {panel : Panel}

/-- The panel takes no part. -/
theorem quiet (change : FrameChange false core.frames next.frames) :
    ChangesFrames ⟨core, panel⟩ ⟨next, panel⟩ := ⟨[], rfl, change⟩

theorem same (sameFrames : next.frames = core.frames) :
    ChangesFrames ⟨core, panel⟩ ⟨next, panel⟩ := by
  refine quiet ?_
  rw [sameFrames]
  exact .kept

end ChangesFrames

theorem FrameStep.changesFrames {timing : Timing} {before after : World}
    {terminal : TerminalFrame}
    (step : FrameStep timing before terminal after) :
    ChangesFrames before after := by
  cases step with
  | pumpFailed _ failed =>
      refine ⟨[_], rfl, ?_⟩
      simp only [List.any_cons, PanelCall.resets, failed, Bool.not_false,
        Bool.true_or]
      exact .failed
  | unchanged isPending pumped _ _ =>
      refine ⟨[_], rfl, ?_⟩
      simp only [List.any_cons, List.any_nil, PanelCall.resets, pumped,
        Bool.not_true, Bool.or_false]
      exact .presented isPending
  | refused _ _ _ _ refuses =>
      refine ⟨[_, _], rfl, ?_⟩
      simp only [List.any_cons, PanelCall.resets, refuses, Option.isNone_none,
        Bool.and_true, Bool.true_or]
      exact .failed
  | @accepted core _ _ pending _ _ isPending pumped _ _ accepts presents =>
      obtain ⟨_, _, _, _, _, rfl⟩ := presentAccepted_eq_ok presents
      refine ⟨[_, _], rfl, ?_⟩
      simp only [List.any_cons, List.any_nil, PanelCall.resets, pumped, accepts,
        Option.isNone_some, Bool.false_and, Bool.not_true, Bool.or_false]
      have presented := @FrameChange.presented core.frames pending isPending
      simpa [DisplayCore.frames] using presented

theorem PlaneStep.changesFrames {timing : Timing} {intent : FrameIntent}
    {before after : World} {output : Except CoreError Unit}
    (step : PlaneStep timing intent before output after) :
    ChangesFrames before after := by
  have submits {panel : Panel} {decision : RefreshDecision}
      {damage : List Rect} {pixels : PixelSurface} {core next : DisplayCore}
      (sameFrames : next.frames = core.frames) :
      ChangesFrames ⟨core, panel⟩ ⟨next, panel.afterSubmit (planeOrigin intent)
        pixels damage decision⟩ := by
    refine ⟨[_], rfl, ?_⟩
    have noReset : (PanelCall.submit ⟨planeOrigin intent, pixels, damage,
        decision, panel.nextSubmit⟩).resets = false := by
      unfold planeOrigin
      split <;> simp [PanelCall.resets]
    rw [List.any_cons, noReset, sameFrames]
    exact .kept
  cases step with
  | failed _ =>
      obtain ⟨_, taken⟩ := planeTaken_frame _ intent
      rw [taken]
      exact .same rfl
  | unchanged draws =>
      obtain ⟨_, _, rfl⟩ := drawnPlane_frame draws
      exact .same rfl
  | refused draws _ _ =>
      obtain ⟨_, _, rfl⟩ := drawnPlane_frame draws
      exact submits rfl
  | accepted draws _ _ presents =>
      obtain ⟨_, _, _, _, _, rfl⟩ := planeAccepted_eq_ok presents
      obtain ⟨_, _, rfl⟩ := drawnPlane_frame draws
      exact submits (by simp [DisplayCore.frames])

theorem CleanupStep.changesFrames {timing : Timing} {before after : World}
    {report : CleanupReport} (step : CleanupStep timing before report after)
    (idle : before.core.pending = none) : ChangesFrames before after := by
  have failed {core : DisplayCore} (idle : core.pending = none) :
      FrameChange true core.frames core.markPanelFailure.frames := by
    have failure := @FrameChange.failed core.frames
    rw [← idle] at failure
    exact failure
  cases step with
  | pumpFailed refused =>
      refine ⟨[_], rfl, ?_⟩
      simp only [List.any_cons, PanelCall.resets, refused, Bool.not_false,
        Bool.true_or]
      exact failed idle
  | refused pumped refuses =>
      refine ⟨[_, _], rfl, ?_⟩
      simp only [List.any_cons, PanelCall.resets, refuses, Option.isNone_none,
        Bool.and_true, Bool.true_or]
      exact failed idle
  | accepted pumped accepts =>
      rw [cleanupAccepted_eq]
      refine ⟨[_, _], rfl, ?_⟩
      simp only [List.any_cons, List.any_nil, PanelCall.resets, pumped, accepts,
        Option.isNone_some, Bool.false_and, Bool.not_true, Bool.or_false]
      exact .kept

/-- A step that neither accepts a frame nor freezes. -/
theorem CoreStep.changesFrames {before after : World} {action : Action}
    {terminals : List TerminalFrame}
    (step : CoreStep before action terminals after)
    (notCommit : action.accepted = []) (notFreeze : action ≠ .freeze) :
    ChangesFrames before after := by
  cases step with
  | commit _ => cases notCommit
  | cancel => exact .quiet .dropped
  | freeze => exact absurd rfl notFreeze
  | edit edits => exact .same (frames_editPlane edits)
  | adjust adjusts =>
      obtain ⟨_, _, _, _, _, _, rfl⟩ := adjusts.frame
      exact .same rfl
  | present step => exact step.changesFrames
  | draw step => exact step.changesFrames
  | resubmit idle step => exact step.changesFrames idle

end RmDisplay.Core
