import RmDisplay.Core.Terminals

/-!
# Recovery from panel failures

After a failing panel call the core owes two things: no delta is accepted
before a keyframe, and what the frames accepted since show first is shown by a
complete refresh.  Both are read off the history; the invariants say which
flags of the core keep the promise.
-/

namespace RmDisplay.Core

open Foundation Protocol DisplayCore

namespace PanelCall

def failed : PanelCall → Bool
  | .pump accepted => !accepted
  | .submit submission => submission.reply.isNone

/-- A complete refresh that succeeded. -/
def refreshes : PanelCall → Bool
  | .pump _ => false
  | .submit submission =>
      submission.reply.isSome && submission.decision.completeRefresh

/-- A frame, and not a local plane or a cleanup, that was shown. -/
def showsFrame : PanelCall → Bool
  | .pump _ => false
  | .submit submission =>
      submission.reply.isSome &&
        match submission.origin with
        | .frame _ _ => true
        | .overlay | .ink | .cleanup | .fallback => false

/-- The panel took this frame. -/
def presents (frameId : Nat) : PanelCall → Bool
  | .pump _ => false
  | .submit submission =>
      submission.reply.isSome &&
        match submission.origin with
        | .frame shown _ => shown == frameId
        | .overlay | .ink | .cleanup | .fallback => false

/-- A complete refresh of the whole surface. -/
def showsAll : PanelCall → Bool
  | .pump _ => false
  | .submit submission =>
      submission.decision.completeRefresh &&
        submission.damage ==
          fullDamage submission.pixels.width submission.pixels.height

end PanelCall

/-- A call failed and no complete refresh succeeded since. -/
def refreshOwed : List PanelCall → Bool
  | [] => false
  | call :: earlier =>
      call.failed || !call.refreshes && refreshOwed earlier

/-- A call failed and no keyframe was accepted since. -/
def keyframeOwed : List CoreEvent → Bool
  | [] => false
  | event :: earlier =>
      !event.accepted.any (·.baseFrameId == 0) &&
        (event.calls.any (·.failed) || keyframeOwed earlier)

/-- What the core promises after panel failures. -/
structure Recovers (history : List CoreEvent) (final : World) : Prop where
  /-- No delta is accepted until a keyframe was. -/
  refuses : ∀ (event : CoreEvent) (earlier : List CoreEvent),
    event :: earlier <:+ history → keyframeOwed earlier = true →
    ∀ (frame : ValidatedFrame) (contentClass : ContentClass) (timing : Timing)
      (decodeUs : Nat),
      event.input = .commit frame contentClass timing decodeUs →
      frame.baseFrameId ≠ 0 →
      event.accepted = [] ∧ (frame.frameId ≠ 0 →
        frame.pixelFormat = event.before.core.base.format →
        event.output = .error .needKeyframe)
  /-- The first frame shown is shown completely, unless all was refreshed
  before. -/
  completes : ∀ (call : PanelCall) (earlier : List PanelCall),
    call :: earlier <:+ final.panel.calls → refreshOwed earlier = true →
    call.showsFrame = true → call.showsAll = true
  /-- A frame reported presented while a refresh is owed was refreshed so. -/
  presents : ∀ (event : CoreEvent) (earlier : List CoreEvent),
    event :: earlier <:+ history →
    refreshOwed event.before.panel.calls = true →
    ∀ terminal ∈ event.settled, terminal.outcome = .presented →
      ∃ call pump,
        call :: pump :: event.before.panel.calls <:+ event.after.panel.calls ∧
        call.presents terminal.frameId = true ∧ call.showsAll = true

/-- Only a keyframe is accepted, and it is to be refreshed completely. -/
def DisplayCore.recovering (core : DisplayCore) : Bool :=
  !core.baseValid && core.logicalFrameId == 0 && core.panelStateUncertain

/-- If drawing the plane changes anything, the panel takes it, unless the
recovery is armed, and with a complete refresh while the state of the panel is
uncertain. -/
def DrawRecovers (intent : FrameIntent) (world : World) : Prop :=
  match world.core.drawnPlane intent with
  | .ok (drawn, damage) =>
      damage ≠ [] →
        if world.panel.nextSubmit.isNone then world.core.recovering = true
        else world.core.panelStateUncertain = true →
          (drawn.planeDecision intent damage).completeRefresh = true
  | .error _ | .panic => True

instance (intent : FrameIntent) (world : World) :
    Decidable (DrawRecovers intent world) :=
  match drawn : world.core.drawnPlane intent with
  | .ok (plane, damage) =>
      decidable_of_iff (damage ≠ [] →
          if world.panel.nextSubmit.isNone then world.core.recovering = true
          else world.core.panelStateUncertain = true →
            (plane.planeDecision intent damage).completeRefresh = true)
        (by rw [DrawRecovers, drawn])
  | .error _ => .isTrue (by rw [DrawRecovers, drawn]; trivial)
  | .panic => .isTrue (by rw [DrawRecovers, drawn]; trivial)

namespace DrawRecovers

variable {core drawn : DisplayCore} {panel : Panel} {intent : FrameIntent}
  {damage : List Rect}

theorem of_refused (recovers : DrawRecovers intent ⟨core, panel⟩)
    (draws : core.drawnPlane intent = .ok (drawn, damage))
    (damaged : damage ≠ []) (refuses : panel.nextSubmit = none) :
    core.recovering = true := by
  simp only [DrawRecovers, draws] at recovers
  simpa [refuses] using recovers damaged

theorem of_accepted (recovers : DrawRecovers intent ⟨core, panel⟩)
    (draws : core.drawnPlane intent = .ok (drawn, damage))
    (damaged : damage ≠ []) {metrics : PanelSubmissionMetrics}
    (accepts : panel.nextSubmit = some metrics)
    (uncertain : core.panelStateUncertain = true) :
    (drawn.planeDecision intent damage).completeRefresh = true := by
  simp only [DrawRecovers, draws] at recovers
  have complete : core.panelStateUncertain = true →
      (drawn.planeDecision intent damage).completeRefresh = true := by
    simpa [accepts] using recovers damaged
  exact complete uncertain

end DrawRecovers

/-- A frame is not cancelled while the state of the panel is uncertain. -/
def CancelRecovers (world : World) : Prop :=
  world.core.panelStateUncertain = true → world.core.pending = none

instance (world : World) : Decidable (CancelRecovers world) := by
  unfold CancelRecovers
  infer_instance

/-- The condition on one operation. -/
def CoreEvent.KeepsRecovery (event : CoreEvent) : Prop :=
  (event.input = .cancelPending → CancelRecovers event.before) ∧
    ∀ drawing ∈ event.input.drawing event.before,
      DrawRecovers drawing.1 drawing.2

instance (event : CoreEvent) : Decidable event.KeepsRecovery := by
  unfold CoreEvent.KeepsRecovery
  infer_instance

/-- Only a keyframe is accepted. -/
def NeedsKeyframe (core : DisplayCore) : Prop :=
  (core.baseValid = false ∧ core.logicalFrameId = 0) ∧ core.pending = none

/-- The next frame shown will be shown completely. -/
def Armed (core : DisplayCore) : Prop :=
  core.panelStateUncertain = true ∧
    (core.baseValid = false ∧ core.pending = none ∨
      ∃ pending, core.pending = some pending ∧ pending.forceCleanup = true)

/-- What is owed by the calls so far is promised by the core. -/
structure Promises (world : World) : Prop where
  armed : refreshOwed world.panel.calls = true → Armed world.core
  completes : ∀ (call : PanelCall) (earlier : List PanelCall),
    call :: earlier <:+ world.panel.calls → refreshOwed earlier = true →
    call.showsFrame = true → call.showsAll = true

/-- What a step may do. -/
def StepRecovers (world : World) : Action → Prop
  | .cancel => CancelRecovers world
  | .draw intent => DrawRecovers intent world ∧ world.core.pending = none
  | .commit _ | .freeze | .edit _ _ | .adjust | .present | .resubmit => True

namespace Promises

variable {core next : DisplayCore} {panel : Panel} {origin : Origin}
  {pixels : PixelSurface} {damage : List Rect} {decision : RefreshDecision}

theorem transfer (promises : Promises ⟨core, panel⟩)
    (armed : Armed core → Armed next) : Promises ⟨next, panel⟩ :=
  ⟨fun owed => armed (promises.armed owed), promises.completes⟩

private theorem call {calls : List PanelCall} {made : PanelCall}
    (promises : Promises ⟨core, panel⟩) (isCalls : panel.calls = calls)
    {after : Panel} (added : after.calls = made :: calls)
    (armed : refreshOwed (made :: calls) = true → Armed next)
    (shows : refreshOwed calls = true → made.showsFrame = true →
      made.showsAll = true) : Promises ⟨next, after⟩ := by
  refine ⟨fun owed => armed (added ▸ owed), ?_⟩
  intro call earlier suffix owed showsFrame
  rw [added] at suffix
  rcases List.suffix_cons_iff.mp suffix with same | older
  · cases same
    exact shows owed showsFrame
  · exact promises.completes call earlier (isCalls ▸ older) owed showsFrame

theorem pumped (promises : Promises ⟨core, panel⟩)
    (accepts : panel.nextPump = true) : Promises ⟨core, panel.afterPump⟩ := by
  refine promises.call rfl rfl ?_ (fun _ impossible => nomatch impossible)
  intro owed
  simp only [refreshOwed, PanelCall.failed, PanelCall.refreshes, accepts,
    Bool.not_true, Bool.not_false, Bool.true_and, Bool.false_or] at owed
  exact promises.armed owed

theorem pumpFailed (promises : Promises ⟨core, panel⟩) (armed : Armed next) :
    Promises ⟨next, panel.afterPump⟩ :=
  promises.call rfl rfl (fun _ => armed) fun _ impossible => nomatch impossible

theorem refused (promises : Promises ⟨core, panel⟩)
    (refuses : panel.nextSubmit = none) (armed : Armed next) :
    Promises ⟨next, panel.afterSubmit origin pixels damage decision⟩ := by
  refine promises.call rfl rfl (fun _ => armed) ?_
  intro _ impossible
  simp [PanelCall.showsFrame, refuses] at impossible

/-- While a refresh is owed, only a complete one is submitted. -/
theorem accepted (promises : Promises ⟨core, panel⟩)
    {metrics : PanelSubmissionMetrics} (accepts : panel.nextSubmit = some metrics)
    (complete : Armed core → decision.completeRefresh = true ∧
      damage = fullDamage pixels.width pixels.height) :
    Promises ⟨next, panel.afterSubmit origin pixels damage decision⟩ := by
  refine promises.call rfl rfl ?_ ?_
  · intro owed
    simp only [refreshOwed, PanelCall.failed, PanelCall.refreshes, accepts,
      Option.isNone_some, Option.isSome_some, Bool.true_and, Bool.false_or,
      Bool.and_eq_true, Bool.not_eq_true'] at owed
    rw [(complete (promises.armed owed.2)).1] at owed
    exact absurd owed.1 (by decide)
  · intro owed _
    obtain ⟨isComplete, isFull⟩ := complete (promises.armed owed)
    simp [PanelCall.showsAll, isComplete, isFull]

end Promises

/-- While a refresh is owed, the pending frame is to be refreshed completely. -/
theorem Armed.prepares {core : DisplayCore} {pending : PendingPresentation}
    {prepared : Prepared} (armed : Armed core)
    (isPending : core.pending = some pending)
    (spec : core.Prepares pending prepared) :
    prepared.decision.completeRefresh = true ∧ prepared.damage =
      fullDamage prepared.working.width prepared.working.height := by
  obtain ⟨_, ⟨_, none⟩ | ⟨other, same, forced⟩⟩ := armed
  · rw [none] at isPending
    cases isPending
  · rw [isPending] at same
    cases same
    have isComplete := spec.cleanup (.inl forced)
    obtain ⟨⟨sameWidth, sameHeight⟩, _⟩ :=
      PixelSurface.shape_eq_iff.mp spec.shape
    rw [sameWidth, sameHeight]
    exact ⟨isComplete, spec.complete isComplete⟩

theorem Armed.of_recovering {core : DisplayCore}
    (recovering : core.recovering = true) (idle : core.pending = none) :
    Armed core ∧ NeedsKeyframe core := by
  simp only [DisplayCore.recovering, Bool.and_eq_true, Bool.not_eq_true',
    beq_iff_eq] at recovering
  obtain ⟨⟨invalid, zero⟩, uncertain⟩ := recovering
  exact ⟨⟨uncertain, .inl ⟨invalid, idle⟩⟩, ⟨invalid, zero⟩, idle⟩

theorem FrameStep.promises {timing : Timing} {before after : World}
    {terminal : TerminalFrame}
    (step : FrameStep timing before terminal after)
    (coherent : Coherent before.core) (promises : Promises before) :
    Promises after := by
  cases step with
  | pumpFailed isPending failed =>
      exact promises.pumpFailed ⟨rfl, .inl ⟨rfl, rfl⟩⟩
  | unchanged isPending pumped prepares nothing =>
      have spec := (prepareFrame_spec coherent
        (coherent.hint _ isPending)).of_ok prepares
      refine (promises.pumped pumped).transfer fun armed => ?_
      obtain ⟨_, isFull⟩ := armed.prepares isPending spec
      rw [nothing] at isFull
      cases isFull
  | refused isPending pumped prepares damaged refuses =>
      exact (promises.pumped pumped).refused refuses ⟨rfl, .inl ⟨rfl, rfl⟩⟩
  | accepted isPending pumped prepares damaged accepts presents =>
      have spec := (prepareFrame_spec coherent
        (coherent.hint _ isPending)).of_ok prepares
      exact (promises.pumped pumped).accepted accepts
        (·.prepares isPending spec)

/-- While a refresh is owed, a frame is reported presented when all of it was
refreshed. -/
theorem FrameStep.refreshesAll {timing : Timing} {before after : World}
    {terminal : TerminalFrame}
    (step : FrameStep timing before terminal after)
    (coherent : Coherent before.core) (armed : Armed before.core)
    (presented : terminal.outcome = .presented) :
    ∃ call pump, after.panel.calls = call :: pump :: before.panel.calls ∧
      call.presents terminal.frameId = true ∧ call.showsAll = true := by
  cases step with
  | pumpFailed | refused => cases presented
  | unchanged isPending pumped prepares nothing =>
      have spec := (prepareFrame_spec coherent
        (coherent.hint _ isPending)).of_ok prepares
      obtain ⟨_, isFull⟩ := armed.prepares isPending spec
      rw [nothing] at isFull
      cases isFull
  | accepted isPending pumped prepares damaged accepts presents =>
      have spec := (prepareFrame_spec coherent
        (coherent.hint _ isPending)).of_ok prepares
      obtain ⟨isComplete, isFull⟩ := armed.prepares isPending spec
      refine ⟨_, _, rfl, ?_, ?_⟩
      · simp [PanelCall.presents, accepts]
      · simp [PanelCall.showsAll, isComplete, isFull]

theorem PlaneStep.promises {timing : Timing} {intent : FrameIntent}
    {before after : World} {output : Except CoreError Unit}
    (step : PlaneStep timing intent before output after)
    (coherent : Coherent before.core)
    (recovers : DrawRecovers intent before)
    (idle : before.core.pending = none) (promises : Promises before) :
    Promises after := by
  cases step with
  | failed _ =>
      obtain ⟨_, taken⟩ := planeTaken_frame _ intent
      rw [taken]
      exact promises.transfer id
  | unchanged draws =>
      obtain ⟨_, _, rfl⟩ := drawnPlane_frame draws
      exact promises.transfer id
  | refused draws damaged refuses =>
      have recovering := recovers.of_refused draws damaged refuses
      obtain ⟨_, _, rfl⟩ := drawnPlane_frame draws
      exact promises.refused refuses (Armed.of_recovering recovering idle).1
  | accepted draws damaged accepts presents =>
      have spec := drawnPlane_spec coherent draws
      obtain ⟨sameWidth, sameHeight⟩ := width_drawn spec
      obtain ⟨⟨shapeWidth, shapeHeight⟩, _⟩ :=
        PixelSurface.shape_eq_iff.mp spec.shape
      refine promises.accepted accepts fun armed => ?_
      have complete := recovers.of_accepted draws damaged accepts armed.1
      refine ⟨complete, ?_⟩
      unfold submittedDamage RefreshPolicy.damageForDecision
      rw [if_pos complete, sameWidth, sameHeight, shapeWidth, shapeHeight]
      rfl

theorem CleanupStep.promises {timing : Timing} {before after : World}
    {report : CleanupReport} (step : CleanupStep timing before report after)
    (idle : before.core.pending = none) (coherent : Coherent before.core)
    (promises : Promises before) : Promises after := by
  cases step with
  | pumpFailed failed =>
      exact promises.pumpFailed ⟨rfl, .inl ⟨rfl, idle⟩⟩
  | refused pumped refuses =>
      exact (promises.pumped pumped).refused refuses
        ⟨rfl, .inl ⟨rfl, idle⟩⟩
  | accepted pumped accepts =>
      obtain ⟨⟨sameWidth, sameHeight⟩, _⟩ :=
        PixelSurface.shape_eq_iff.mp coherent.presentedShape
      refine (promises.pumped pumped).accepted accepts fun _ => ⟨?_, ?_⟩
      · exact RefreshPolicy.decide_forced _ _ _ _ _
      · rw [sameWidth, sameHeight]
        rfl

/-- A frame accepted while a refresh is owed brings the refresh. -/
theorem Armed.commit {core next : DisplayCore} {frame : ValidatedFrame}
    {contentClass : ContentClass} {timing : Timing} {decodeUs : Nat}
    {report : CommitReport}
    (commits : core.commitTimed frame contentClass timing decodeUs =
      .ok (report, next)) (armed : Armed core) : Armed next := by
  obtain ⟨_, _, _, onBase, _, base, _, rfl⟩ := commitTimed_eq_ok commits
  obtain ⟨uncertain, waiting⟩ := armed
  refine ⟨uncertain, .inr ⟨_, rfl, ?_⟩⟩
  simp only [nextPending, Bool.or_eq_true, Bool.and_eq_true, beq_iff_eq]
  rcases waiting with ⟨invalid, _⟩ | ⟨pending, isPending, forced⟩
  · rcases onBase with keyframe | ⟨valid, _⟩
    · exact .inr ⟨keyframe, uncertain⟩
    · rw [invalid] at valid
      cases valid
  · exact .inl (by rw [isPending]; exact forced)

theorem CoreStep.promises {before after : World} {action : Action}
    {terminals : List TerminalFrame}
    (step : CoreStep before action terminals after)
    (coherent : Coherent before.core) (recovers : StepRecovers before action)
    (promises : Promises before) : Promises after := by
  cases step with
  | commit commits => exact promises.transfer (Armed.commit commits)
  | cancel =>
      refine promises.transfer fun armed => ?_
      obtain ⟨uncertain, waiting⟩ := armed
      have idle := recovers uncertain
      rcases waiting with ⟨invalid, none⟩ | ⟨_, isPending, _⟩
      · exact ⟨uncertain, .inl ⟨invalid, rfl⟩⟩
      · rw [idle] at isPending
        cases isPending
  | freeze => exact promises.transfer fun armed => ⟨armed.1, .inl ⟨rfl, rfl⟩⟩
  | edit edits =>
      obtain ⟨_, _, rfl⟩ := editPlane_eq_ok edits
      obtain ⟨_, _, _, same⟩ := setPlane_frame _ _ _
      rw [same]
      exact promises.transfer id
  | adjust adjusts =>
      obtain ⟨_, _, _, _, _, _, rfl⟩ := adjusts.frame
      exact promises.transfer id
  | present step => exact step.promises coherent promises
  | draw step => exact step.promises coherent recovers.1 recovers.2 promises
  | resubmit idle step => exact step.promises idle coherent promises

/-- A step adds calls, and a failing call leaves a core that needs a
keyframe. -/
def Demands (before after : World) : Prop :=
  ∃ new : List PanelCall, after.panel.calls = new ++ before.panel.calls ∧
    ((new.any (·.failed) = true ∨ NeedsKeyframe before.core) →
      NeedsKeyframe after.core)

namespace Demands

variable {before middle after : World}

theorem quiet {core next : DisplayCore} {panel : Panel}
    (needs : NeedsKeyframe core → NeedsKeyframe next) :
    Demands ⟨core, panel⟩ ⟨next, panel⟩ :=
  ⟨[], rfl, fun demanded => needs (by simpa using demanded)⟩

theorem trans (first : Demands before middle) (second : Demands middle after) :
    Demands before after := by
  obtain ⟨new, added, needs⟩ := first
  obtain ⟨newer, addedLater, needsLater⟩ := second
  refine ⟨newer ++ new, by rw [addedLater, added, List.append_assoc], ?_⟩
  rw [List.any_append, Bool.or_eq_true, or_assoc]
  exact fun demanded => needsLater (demanded.imp_right needs)

end Demands

theorem FrameStep.demands {timing : Timing} {before after : World}
    {terminal : TerminalFrame}
    (step : FrameStep timing before terminal after) :
    Demands before after := by
  have pending {core : DisplayCore} {pending : PendingPresentation}
      (isPending : core.pending = some pending) : ¬ NeedsKeyframe core := by
    rintro ⟨_, none⟩
    rw [none] at isPending
    cases isPending
  cases step with
  | pumpFailed _ failed => exact ⟨[_], rfl, fun _ => ⟨⟨rfl, rfl⟩, rfl⟩⟩
  | unchanged isPending pumped _ _ =>
      refine ⟨[_], rfl, ?_⟩
      rintro (impossible | needs)
      · simp [PanelCall.failed, pumped] at impossible
      · exact absurd needs (pending isPending)
  | refused _ _ _ _ _ => exact ⟨[_, _], rfl, fun _ => ⟨⟨rfl, rfl⟩, rfl⟩⟩
  | accepted isPending pumped _ _ accepts _ =>
      refine ⟨[_, _], rfl, ?_⟩
      rintro (impossible | needs)
      · simp [PanelCall.failed, pumped, accepts] at impossible
      · exact absurd needs (pending isPending)

theorem PlaneStep.demands {timing : Timing} {intent : FrameIntent}
    {before after : World} {output : Except CoreError Unit}
    (step : PlaneStep timing intent before output after)
    (recovers : DrawRecovers intent before)
    (idle : before.core.pending = none) : Demands before after := by
  cases step with
  | failed _ =>
      obtain ⟨_, taken⟩ := planeTaken_frame _ intent
      rw [taken]
      exact .quiet id
  | unchanged draws =>
      obtain ⟨_, _, rfl⟩ := drawnPlane_frame draws
      exact .quiet id
  | refused draws damaged refuses =>
      have recovering := recovers.of_refused draws damaged refuses
      obtain ⟨_, _, rfl⟩ := drawnPlane_frame draws
      exact ⟨[_], rfl, fun _ => (Armed.of_recovering recovering idle).2⟩
  | accepted draws damaged accepts presents =>
      obtain ⟨_, _, _, _, _, rfl⟩ := planeAccepted_eq_ok presents
      obtain ⟨_, _, rfl⟩ := drawnPlane_frame draws
      refine ⟨[_], rfl, ?_⟩
      rintro (impossible | ⟨⟨invalid, zero⟩, none⟩)
      · simp [PanelCall.failed, accepts] at impossible
      · refine ⟨⟨?_, ?_⟩, ?_⟩
        · simpa using invalid
        · simpa using zero
        · simpa using none

theorem CleanupStep.demands {timing : Timing} {before after : World}
    {report : CleanupReport} (step : CleanupStep timing before report after)
    (idle : before.core.pending = none) : Demands before after := by
  cases step with
  | pumpFailed failed => exact ⟨[_], rfl, fun _ => ⟨⟨rfl, rfl⟩, idle⟩⟩
  | refused pumped refuses => exact ⟨[_, _], rfl, fun _ => ⟨⟨rfl, rfl⟩, idle⟩⟩
  | accepted pumped accepts =>
      rw [cleanupAccepted_eq]
      refine ⟨[_, _], rfl, ?_⟩
      rintro (impossible | needs)
      · simp [PanelCall.failed, pumped, accepts] at impossible
      · exact needs

theorem CoreStep.demands {before after : World} {action : Action}
    {terminals : List TerminalFrame}
    (step : CoreStep before action terminals after)
    (recovers : StepRecovers before action)
    (notCommit : action.accepted = []) : Demands before after := by
  cases step with
  | commit _ => cases notCommit
  | cancel => exact .quiet fun needs => ⟨needs.1, rfl⟩
  | freeze => exact .quiet fun needs => ⟨⟨rfl, needs.1.2⟩, rfl⟩
  | edit edits =>
      obtain ⟨_, _, rfl⟩ := editPlane_eq_ok edits
      obtain ⟨_, _, _, same⟩ := setPlane_frame _ _ _
      rw [same]
      exact .quiet id
  | adjust adjusts =>
      obtain ⟨_, _, _, _, _, _, rfl⟩ := adjusts.frame
      exact .quiet id
  | present step => exact step.demands
  | draw step => exact step.demands recovers.1 recovers.2
  | resubmit idle step => exact step.demands idle

theorem CoreSteps.demands {before after : World}
    {accepted : List ValidatedFrame} {terminals : List TerminalFrame}
    (steps : CoreSteps StepRecovers before accepted terminals after)
    (noFrame : accepted = []) : Demands before after := by
  induction steps with
  | nil => exact .quiet id
  | cons recovers step _ induction =>
      rw [List.append_eq_nil_iff] at noFrame
      exact (step.demands recovers noFrame.1).trans (induction noFrame.2)

theorem CoreStep.frameStep {before after : World} {action : Action}
    {terminals : List TerminalFrame} {terminal : TerminalFrame}
    (step : CoreStep before action terminals after)
    (member : terminal ∈ terminals)
    (presented : terminal.outcome = .presented) :
    action = .present ∧ ∃ timing, FrameStep timing before terminal after := by
  have cancelled {core : DisplayCore}
      (member : terminal ∈ core.cancelPending.1.toList) : False := by
    simp only [cancelPending, Option.mem_toList,
      Option.map_eq_some_iff] at member
    obtain ⟨_, _, rfl⟩ := member
    cases presented
  cases step with
  | commit commits =>
      obtain ⟨_, _, _, _, rfl, _⟩ := commitTimed_eq_ok commits
      simp only [Option.mem_toList, Option.map_eq_some_iff] at member
      obtain ⟨_, _, rfl⟩ := member
      cases presented
  | cancel => exact (cancelled member).elim
  | freeze => exact (cancelled member).elim
  | edit | adjust | draw | resubmit => cases member
  | present step =>
      rw [List.mem_singleton.mp member]
      exact ⟨rfl, _, step⟩

/-- What an operation presents, it presents before it uses the panel
otherwise. -/
theorem CoreSteps.refreshesAll {panel : Panel} {before after : World}
    {accepted : List ValidatedFrame} {terminals : List TerminalFrame}
    (steps : CoreSteps (fun world action => StepRecovers world action ∧
      (action = .present → world.panel = panel)) before accepted terminals after)
    (coherent : Coherent before.core) (promises : Promises before)
    (owed : refreshOwed panel.calls = true) {terminal : TerminalFrame}
    (member : terminal ∈ terminals)
    (presented : terminal.outcome = .presented) :
    ∃ call pump, call :: pump :: panel.calls <:+ after.panel.calls ∧
      call.presents terminal.frameId = true ∧ call.showsAll = true := by
  induction steps with
  | nil => cases member
  | cons isAllowed step rest induction =>
      rcases List.mem_append.mp member with first | later
      · obtain ⟨rfl, _, presents⟩ := step.frameStep first presented
        obtain rfl := isAllowed.2 rfl
        obtain ⟨call, pump, made, takes, whole⟩ :=
          presents.refreshesAll coherent (promises.armed owed) presented
        exact ⟨call, pump, made ▸ rest.calls_suffix, takes, whole⟩
      · exact induction (step.coherent coherent)
          (step.promises coherent isAllowed.1 promises) later

/-- The condition on an operation is a condition on its steps. -/
theorem CoreEvent.KeepsRecovery.takes {event : CoreEvent}
    (keeps : event.KeepsRecovery) {current : World} {action : Action}
    (takes : event.input.Takes event.before current action) :
    StepRecovers current action := by
  cases action with
  | cancel =>
      rw [takes.1]
      exact keeps.1 takes.2
  | draw intent => exact ⟨keeps.2 (intent, current) takes.1, takes.2⟩
  | commit | freeze | edit | adjust | present | resubmit => trivial

theorem CoreOp.Takes.before {op : CoreOp} {world current : World}
    {action : Action} (takes : op.Takes world current action)
    (presents : action = .present) : current.panel = world.panel := by
  subst presents
  exact takes

/-- What is known after a run whose operations met the condition. -/
private structure RecoveryInv (history : List CoreEvent) (final : World) :
    Prop where
  coherent : Coherent final.core
  promises : Promises final
  needs : keyframeOwed history = true → NeedsKeyframe final.core
  recovers : Recovers history final

private theorem refuses_delta {event : CoreEvent} {frame : ValidatedFrame}
    {contentClass : ContentClass} {timing : Timing} {decodeUs : Nat}
    (stepped : coreStep event.before event.input event.output event.after)
    (isCommit : event.input = .commit frame contentClass timing decodeUs)
    (isDelta : frame.baseFrameId ≠ 0)
    (needs : NeedsKeyframe event.before.core) :
    event.accepted = [] ∧ (frame.frameId ≠ 0 →
      frame.pixelFormat = event.before.core.base.format →
      event.output = .error .needKeyframe) := by
  obtain ⟨⟨invalid, zero⟩, idle⟩ := needs
  rw [isCommit] at stepped
  rcases onCore_runs stepped with ⟨_, _, commits, _⟩ | ⟨err, fails, failed, _⟩
  · obtain ⟨_, _, _, keyframe | ⟨valid, _⟩, _⟩ := commitTimed_eq_ok commits
    · exact absurd keyframe isDelta
    · rw [invalid] at valid
      cases valid
  · refine ⟨by rw [CoreEvent.accepted, isCommit, failed]; rfl, ?_⟩
    intro someId sameFormat
    have refused : event.before.core.commitTimed frame contentClass timing
        decodeUs = .error .needKeyframe := by
      unfold commitTimed pendingIsSettled
      rw [idle, if_neg (by simp), if_neg (by omega),
        if_neg (not_not.mpr sameFormat), if_pos ⟨isDelta, .inl (by simp [invalid])⟩]
    rw [refused] at fails
    cases fails
    exact failed

private theorem needs_snoc {history : List CoreEvent} {event : CoreEvent}
    (keeps : event.KeepsRecovery)
    (stepped : coreStep event.before event.input event.output event.after)
    (coherent : Coherent event.before.core)
    (needs : keyframeOwed history = true → NeedsKeyframe event.before.core)
    (owed : keyframeOwed (event :: history) = true) :
    NeedsKeyframe event.after.core := by
  simp only [keyframeOwed, Bool.and_eq_true, Bool.not_eq_true',
    Bool.or_eq_true] at owed
  obtain ⟨noKeyframe, owed⟩ := owed
  by_cases noFrame : event.accepted = []
  · obtain ⟨_, steps, _⟩ := (accounts_of_coreStep coherent stepped).steps
    obtain ⟨new, added, demanded⟩ :=
      (steps.mono fun _ _ => keeps.takes).demands noFrame
    rw [event.calls_eq added] at owed
    exact demanded (owed.imp_right needs)
  · obtain ⟨before, input, output, after⟩ := event
    cases input with
    | commit frame contentClass timing decodeUs =>
        rcases onCore_runs stepped with ⟨report, next, _, returned, isAfter⟩ |
          ⟨_, _, failed, _⟩
        · cases returned
          have samePanel : after.panel.calls = [] ++ before.panel.calls :=
            congrArg (fun world => world.panel.calls) isAfter
          rw [CoreEvent.calls_eq samePanel] at owed
          have needed := needs (by simpa using owed)
          have isDelta : frame.baseFrameId ≠ 0 := by
            simpa [CoreEvent.accepted, CoreOp.accepted] using noKeyframe
          exact absurd (refuses_delta stepped rfl isDelta needed).1 noFrame
        · cases failed
          exact absurd rfl noFrame
    | _ => exact absurd rfl noFrame

private theorem recoveryInv_snoc {history : List CoreEvent} {event : CoreEvent}
    (keeps : event.KeepsRecovery)
    (stepped : coreStep event.before event.input event.output event.after)
    (inv : RecoveryInv history event.before) :
    RecoveryInv (event :: history) event.after := by
  obtain ⟨terminals, steps, _, _, _, settles⟩ :=
    (accounts_of_coreStep inv.coherent stepped).steps
  obtain ⟨coherent, promises⟩ := (steps.mono fun _ _ => keeps.takes).keeps
    (fun world => Coherent world.core ∧ Promises world)
    (fun recovers step inv =>
      ⟨step.coherent inv.1, step.promises inv.1 recovers inv.2⟩)
    ⟨inv.coherent, inv.promises⟩
  refine ⟨coherent, promises,
    needs_snoc keeps stepped inv.coherent inv.needs, ?_, promises.completes,
    ?_⟩
  · intro other earlier suffix owed frame contentClass timing decodeUs isCommit
      isDelta
    rcases List.suffix_cons_iff.mp suffix with same | older
    · cases same
      exact refuses_delta stepped isCommit isDelta (inv.needs owed)
    · exact inv.recovers.refuses other earlier older owed frame contentClass
        timing decodeUs isCommit isDelta
  · intro other earlier suffix owed terminal member presented
    rcases List.suffix_cons_iff.mp suffix with same | older
    · cases same
      exact (steps.mono fun _ _ takes => ⟨keeps.takes takes,
        takes.before⟩).refreshesAll inv.coherent inv.promises owed (settles ▸ member)
        presented
    · exact inv.recovers.presents other earlier older owed terminal member
        presented

/-- The core recovers from every panel failure in every run whose planes reach
the panel, with a complete refresh while its state is uncertain, and in which
no frame is cancelled then. -/
theorem recovers_of_run {setup : CoreSetup} {history : List CoreEvent}
    {final : World} (run : CoreRun setup history final)
    (keeps : ∀ event ∈ history, event.KeepsRecovery) :
    Recovers history final := by
  obtain ⟨first, fresh, run⟩ := run
  have promises : Promises ⟨first, setup.panel⟩ :=
    ⟨fun impossible => (nomatch impossible),
      fun call earlier suffix => by simp [CoreSetup.panel] at suffix⟩
  refine (Run.keeps RecoveryInv ?_ (fun _ _ => recoveryInv_snoc) run
    keeps).recovers
  refine ⟨(newCore_spec fresh).1, promises, fun impossible => (nomatch impossible),
    ?_, promises.completes, ?_⟩
  · intro event earlier suffix
    simp at suffix
  · intro event earlier suffix
    simp at suffix

/-- The panel refuses a frame and then the menu: a delta is refused, and the
keyframe is shown by a complete refresh. -/
theorem recovers_after_refusal :
    ∃ history final,
      CoreRun (.gray 1 1 (fun _ => true)
        fun call => if call = 1 ∨ call = 2 then none else some { }) history final ∧
      (acceptedFrames history).map (·.frameId) = [2, 1] ∧
      final.panel.calls.map (·.failed) = [false, false, true, true, false] ∧
      Recovers history final := by
  have replayed : ((CoreSetup.gray 1 1 (fun _ => true)
      fun call => if call = 1 ∨ call = 2 then none else some { }).replay
      [.tick { now := .ofSecs 5 },
        .commit (grayFrame 2 0 .latest ⟨0, 0, 1, 1⟩ [20]) .textUi
          { now := .ofSecs 4 } 0,
        .commit (grayFrame 2 1 .latest ⟨0, 0, 1, 1⟩ [20]) .textUi
          { now := .ofSecs 3 } 0,
        .presentOverlay { now := .ofSecs 3 },
        .edit .menu (.replacePlanes [0] [255]),
        .tick { now := .ofSecs 2 },
        .commit (grayFrame 1 0 .latest ⟨0, 0, 1, 1⟩ [10]) .textUi
          { now := .ofSecs 1 } 0]).map (fun result =>
        ((acceptedFrames result.1).map (·.frameId),
          result.2.panel.calls.map (·.failed),
          result.1.all fun event => decide event.KeepsRecovery)) =
      some ([2, 1], [false, false, true, true, false], true) := by decide +kernel
  obtain ⟨⟨history, final⟩, replayed, facts⟩ :=
    Option.map_eq_some_iff.mp replayed
  simp only [Prod.mk.injEq, List.all_eq_true, decide_eq_true_eq] at facts
  have run := CoreSetup.run_of_replay replayed
  exact ⟨history, final, run, facts.1, facts.2.1,
    recovers_of_run run facts.2.2⟩

/-- The pump fails while the menu is presented, the menu itself is shown by a
partial refresh, and the keyframe that follows is no complete refresh. -/
theorem recovery_disarmed :
    ∃ history final,
      (CoreSetup.gray 1 1 (fun call => call ≠ 2) fun _ => some { }).replay
        [.tick { now := .ofSecs 6 },
          .commit (grayFrame 3 0 .latest ⟨0, 0, 1, 1⟩ [30]) .textUi
            { now := .ofSecs 5 } 0,
          .presentOverlay { now := .ofSecs 4 },
          .commit (grayFrame 2 1 .latest ⟨0, 0, 1, 1⟩ [20]) .textUi
            { now := .ofSecs 3 } 0,
          .tick { now := .ofSecs 2 },
          .commit (grayFrame 1 0 .latest ⟨0, 0, 1, 1⟩ [10]) .textUi
            { now := .ofSecs 1 } 0] = some (history, final) ∧
      CoreRun (.gray 1 1 (fun call => call ≠ 2) fun _ => some { }) history
        final ∧ ¬ Recovers history final := by
  have replayed : ((CoreSetup.gray 1 1 (fun call => call ≠ 2)
      fun _ => some { }).replay
      [.tick { now := .ofSecs 6 },
        .commit (grayFrame 3 0 .latest ⟨0, 0, 1, 1⟩ [30]) .textUi
          { now := .ofSecs 5 } 0,
        .presentOverlay { now := .ofSecs 4 },
        .commit (grayFrame 2 1 .latest ⟨0, 0, 1, 1⟩ [20]) .textUi
          { now := .ofSecs 3 } 0,
        .tick { now := .ofSecs 2 },
        .commit (grayFrame 1 0 .latest ⟨0, 0, 1, 1⟩ [10]) .textUi
          { now := .ofSecs 1 } 0]).map (fun result =>
        match result.2.panel.calls with
        | [] => false
        | call :: earlier =>
            refreshOwed earlier && call.showsFrame && !call.showsAll) =
      some true := by decide +kernel
  obtain ⟨⟨history, final⟩, replayed, facts⟩ :=
    Option.map_eq_some_iff.mp replayed
  refine ⟨history, final, replayed, CoreSetup.run_of_replay replayed, ?_⟩
  intro recovers
  split at facts
  · cases facts
  · rename_i call earlier isCalls
    simp only [Bool.and_eq_true, Bool.not_eq_true'] at facts
    have shown := recovers.completes call earlier
      (isCalls ▸ List.suffix_refl _) facts.1.1 facts.1.2
    rw [facts.2] at shown
    cases shown

theorem plane_refusal_unnoticed :
    ∃ history final,
      CoreRun (.gray 1 1 (fun _ => true)
        fun call => if call = 2 then none else some { }) history final ∧
      (final.panel.calls.head?.map (·.failed)) = some true ∧
      ((acceptedFrames history).head?.map (·.baseFrameId)) = some 1 := by
  have replayed : ((CoreSetup.gray 1 1 (fun _ => true)
      fun call => if call = 2 then none else some { }).replay
      [.commit (grayFrame 2 1 .latest ⟨0, 0, 1, 1⟩ [20]) .textUi
          { now := .ofSecs 4 } 0,
        .presentOverlay { now := .ofSecs 3 },
        .edit .menu (.replacePlanes [0] [255]),
        .tick { now := .ofSecs 2 },
        .commit (grayFrame 1 0 .latest ⟨0, 0, 1, 1⟩ [10]) .textUi
          { now := .ofSecs 1 } 0]).map (fun result =>
        (result.2.panel.calls.head?.map (·.failed),
          (acceptedFrames result.1).head?.map (·.baseFrameId))) =
      some (some true, some 1) := by decide +kernel
  obtain ⟨⟨history, final⟩, replayed, facts⟩ :=
    Option.map_eq_some_iff.mp replayed
  simp only [Prod.mk.injEq] at facts
  exact ⟨history, final, CoreSetup.run_of_replay replayed, facts⟩

end RmDisplay.Core
