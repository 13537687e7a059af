import RmDisplay.Core.OperationSteps

/-!
# The tally of partial updates

A core counts what the panel counted for its partial submissions and starts
anew with every complete one.  The count can be read off the calls it made.
-/

namespace RmDisplay.Core

open Foundation Protocol DisplayCore

/-- The updates that the panel counted for partial submissions of a core since
the last complete one, on top of what there was before.  The latest call comes
first. -/
def partialUpdates (start : Nat) : List PanelCall → Nat
  | [] => start
  | .pump _ :: earlier => partialUpdates start earlier
  | .submit submission :: earlier =>
      match submission.reply with
      | none => partialUpdates start earlier
      | some metrics =>
          -- A session without a surface drives the panel itself.
          if submission.origin = .fallback then partialUpdates start earlier
          else if submission.decision.completeRefresh then 0
          else
            Bounded.saturatingAdd u32Max (partialUpdates start earlier)
              metrics.physicalSubmissions

theorem partialUpdates_append (start : Nat) (newer older : List PanelCall) :
    partialUpdates start (newer ++ older) =
      partialUpdates (partialUpdates start older) newer := by
  induction newer with
  | nil => rfl
  | cons call newer induction =>
      cases call with
      | pump accepted => exact induction
      | submit submission =>
          simp only [List.cons_append, partialUpdates, induction]

section

variable (start : Nat) {origin : Origin} {pixels : PixelSurface}
  {damage : List Rect} {decision : RefreshDecision}
  {reply : Option PanelSubmissionMetrics} {metrics : PanelSubmissionMetrics}
  {earlier : List PanelCall}

theorem partialUpdates_refused (refuses : reply = none) :
    partialUpdates start
        (.submit ⟨origin, pixels, damage, decision, reply⟩ :: earlier) =
      partialUpdates start earlier := by
  simp only [partialUpdates, refuses]

theorem partialUpdates_accepted (accepts : reply = some metrics)
    (ofCore : origin ≠ .fallback) :
    partialUpdates start
        (.submit ⟨origin, pixels, damage, decision, reply⟩ :: earlier) =
      if decision.completeRefresh then 0
      else
        Bounded.saturatingAdd u32Max (partialUpdates start earlier)
          metrics.physicalSubmissions := by
  simp only [partialUpdates, accepts, if_neg ofCore]

end

/-- The count after the calls made between two worlds. -/
def Counted (before after : World) : Prop :=
  ∃ made, after.panel.calls = made ++ before.panel.calls ∧
    after.core.refreshPolicy.presentedSinceCleanup =
      partialUpdates before.core.refreshPolicy.presentedSinceCleanup made

theorem FrameStep.counted {timing : Timing} {before after : World}
    {terminal : TerminalFrame} (step : FrameStep timing before terminal after) :
    Counted before after := by
  cases step with
  | pumpFailed _ _ | unchanged _ _ _ _ => exact ⟨[.pump _], rfl, rfl⟩
  | refused _ _ _ _ refuses =>
      refine ⟨[.submit _, .pump _], rfl, ?_⟩
      rw [partialUpdates_refused _ refuses]
      rfl
  | accepted _ _ _ _ accepts presents =>
      obtain ⟨working, settleDamage, fastUpdates, _, _, rfl⟩ :=
        presentAccepted_eq_ok presents
      refine ⟨[.submit _, .pump _], rfl, ?_⟩
      rw [partialUpdates_accepted _ accepts]
      · rfl
      · simp

theorem PlaneStep.counted {timing : Timing} {intent : FrameIntent}
    {before after : World} {output : Except CoreError Unit}
    (step : PlaneStep timing intent before output after) :
    Counted before after := by
  cases step with
  | @failed core _ _ _ =>
      obtain ⟨ink, taken⟩ := planeTaken_frame core intent
      refine ⟨[], rfl, ?_⟩
      rw [taken]
      rfl
  | unchanged draws =>
      obtain ⟨ink, working, rfl⟩ := drawnPlane_frame draws
      exact ⟨[], rfl, rfl⟩
  | refused draws _ refuses =>
      obtain ⟨ink, working, rfl⟩ := drawnPlane_frame draws
      refine ⟨[.submit _], rfl, ?_⟩
      rw [partialUpdates_refused _ refuses]
      rfl
  | accepted draws _ accepts presents =>
      obtain ⟨ink, working, rfl⟩ := drawnPlane_frame draws
      obtain ⟨presented, settleDamage, fastUpdates, _, _, rfl⟩ :=
        planeAccepted_eq_ok presents
      have ofCore : planeOrigin intent ≠ .fallback := by
        cases intent <;> simp [planeOrigin]
      refine ⟨[.submit _], rfl, ?_⟩
      rw [partialUpdates_accepted _ accepts ofCore]
      rfl

theorem CleanupStep.counted {timing : Timing} {before after : World}
    {report : CleanupReport}
    (step : CleanupStep timing before report after) :
    Counted before after := by
  cases step with
  | pumpFailed _ => exact ⟨[.pump _], rfl, rfl⟩
  | refused _ refuses =>
      refine ⟨[.submit _, .pump _], rfl, ?_⟩
      rw [partialUpdates_refused _ refuses]
      rfl
  | @accepted core _ _ _ accepts =>
      have complete : core.cleanupDecision.completeRefresh = true :=
        RefreshPolicy.decide_forced _ _ _ _ _
      refine ⟨[.submit _, .pump _], rfl, ?_⟩
      rw [cleanupAccepted_eq, partialUpdates_accepted _ accepts,
        if_pos complete]
      · simp only [RefreshPolicy.presented,
          RefreshPolicy.presentedSubmissions, complete, if_true]
      · simp

/-- Every step of a core but an adjustment counts its calls. -/
theorem CoreStep.counted {before after : World} {action : Action}
    {terminals : List TerminalFrame}
    (step : CoreStep before action terminals after)
    (notAdjust : action ≠ .adjust) : Counted before after := by
  cases step with
  | adjust _ => exact absurd rfl notAdjust
  | cancel | freeze => exact ⟨[], rfl, rfl⟩
  | commit commits =>
      obtain ⟨_, _, _, _, _, base, _, rfl⟩ := commitTimed_eq_ok commits
      exact ⟨[], rfl, rfl⟩
  | @edit core _ _ plane _ edits =>
      obtain ⟨edited, _, stored⟩ := Res.bind_eq_ok.mp edits
      cases stored
      obtain ⟨overlay, peerOverlay, ink, same⟩ :=
        setPlane_frame core plane edited
      refine ⟨[], rfl, ?_⟩
      rw [same]
      rfl
  | present step => exact step.counted
  | draw step => exact step.counted
  | resubmit _ step => exact step.counted

end RmDisplay.Core
