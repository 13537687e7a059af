import RmDisplay.Receiver.NumberingSteps
import RmDisplay.Receiver.SessionRuns

/-!
# Numbers in a run of a session

The pen, the touch panel and the dispatch of envelopes number what they return
as every other procedure does.  Over a run the numbers climb from one
operation to the next, so a producer that reads the envelopes in order never
meets an old message id.
-/

namespace RmDisplay.Receiver

open Foundation Protocol RmDisplay.Core Core.DisplayCore

namespace Session

section

variable {now : Duration} {physical : Bool}

theorem settings_freezeOnDown {freezes : Bool} {surface : ActiveSurface}
    {phase : PointerPhase} :
    (freezeOnDown freezes surface phase).2.core.settings =
      surface.core.settings := by
  unfold freezeOnDown
  split <;> rfl

theorem settings_drawSegment {surface next : ActiveSurface}
    {record : PointerRecord} {phase : PointerPhase}
    {segment : Option InkSegment}
    (draws : drawSegment surface record phase = .ok (segment, next)) :
    next.core.settings = surface.core.settings := by
  unfold drawSegment at draws
  split at draws
  · obtain ⟨drawn, edits, stored⟩ := Res.bind_eq_ok.mp draws
    have kept := settings_editPlane edits
    cases stored
    exact kept
  · cases draws
    rfl

theorem inkRecord_steady {record : PointerRecord} :
    steadily.Emits (inkRecord physical now record) fun _ => [] := by
  refine .of_from fun session => .get ?_
  split
  · exact .pure rfl
  · rename_i surface shown
    refine .ite (fun _ => .set (still_same rfl rfl) (.pure rfl)) fun _ => ?_
    refine .ofRes fun drawn draws => .set ?_ (.pure rfl)
    refine still_shown (ledger_noteFrozen _ _ _) shown rfl ?_
    exact (settings_drawSegment draws).trans settings_freezeOnDown

theorem notePen_steady {session : Session} {records : List PointerRecord} :
    Steady session [] (session.notePen records now physical) := by
  unfold notePen
  split
  · split
    · exact still_same rfl rfl
    · exact .refl session
  · exact .refl session

theorem penBatch_steady {records : List PointerRecord} :
    steadily.Emits (penBatch records now) id := by
  refine .of_from fun session => .get ?_
  split
  · exact .pure rfl
  · refine .ite (fun _ => ?_) fun _ => .pure rfl
    exact .call (inputBatch_from fun _ => rfl) fun _ _ => .pure rfl

theorem core_filterRecord {surface : ActiveSurface} {record : PointerRecord} :
    (filterRecord surface record).2.core = surface.core := by
  unfold filterRecord
  dsimp only
  split <;> rfl

theorem core_filterRecords {surface : ActiveSurface}
    {records : List PointerRecord} :
    (filterRecords surface records).2.core = surface.core := by
  induction records generalizing surface with
  | nil => rfl
  | cons record records induction => exact induction.trans core_filterRecord

theorem penRecords_from {session : Session} {surface : ActiveSurface}
    {records : List PointerRecord} (shown : session.surface = some surface) :
    steadily.From session session [] (penRecords surface records now physical)
      id := by
  refine .modify ?_ (.ite (fun _ => .pure rfl) fun _ => ?_)
  · exact still_shown rfl shown rfl (congrArg settings core_filterRecords)
  · refine .quiet (.gatherQuiet (fun record => inkRecord_steady) _) fun _ _ => ?_
    refine .bind penBatch_steady fun batches _ => ?_
    exact .bind terminalResults_steady fun _ _ => .pure rfl

theorem penReport_steady {records : List PointerRecord} :
    steadily.Emits (penReport now physical records) id := by
  refine .of_from fun session => .modify notePen_steady (.get ?_)
  refine .ite (fun _ => .pure rfl) fun _ => ?_
  split
  · exact .pure rfl
  · rename_i surface shown
    refine .ite (fun _ => ?_) fun _ => .whole (penRecords_from shown)
    exact .set (still_shown rfl shown rfl rfl) (.pure rfl)

theorem flushInk_steady : steadily.Emits (flushInk now) id := by
  refine .of_from fun session => .get (.ite (fun _ => ?_) fun _ => .pure rfl)
  exact .quiet (runCore_steady fun _ => presentPlane_keeps) fun _ _ =>
    .all terminalResults_steady

theorem penReportsInner_steady {reports : List (List PointerRecord)} :
    steadily.Emits (penReportsInner reports now physical) id := by
  refine .of_from fun session =>
    .bind (.gather (fun records => penReport_steady) reports) fun _ _ => ?_
  exact .bind flushInk_steady fun _ _ => .pure rfl

theorem touchBatch_steady {target : TouchTarget}
    {events : List PhysicalPointerEvent} :
    steadily.Emits (touchBatch target events now) id := by
  refine .of_from fun session => ?_
  unfold touchBatch
  split
  · exact .pure rfl
  · refine .ite (fun _ => .pure rfl) fun _ => ?_
    exact .bind pointerBatch_steady fun _ _ => .pure rfl

theorem processTouch_steady {report : List PhysicalPointerEvent}
    {forwardEnabled cleanupEnabled : Bool} :
    steadily.Emits (processTouch report now forwardEnabled cleanupEnabled)
      fun _ => [] :=
  .of_from fun _ => .get (.set (still_same rfl rfl) (.pure rfl))

theorem detachTouch_steady : steadily.Emits detachTouch fun _ => [] :=
  .of_from fun _ => .get (.set (still_same rfl rfl) (.pure rfl))

theorem staleTouch_steady {target : TouchTarget}
    {report : List PhysicalPointerEvent} :
    steadily.Emits (staleTouch target report now) id := by
  refine .of_from fun session => .quiet processTouch_steady fun _ _ => ?_
  exact .quiet detachTouch_steady fun _ _ => .get (.all touchBatch_steady)

theorem menuTouch_lively {report : List PhysicalPointerEvent} :
    lively.Emits (menuTouch report now) id := by
  refine .of_from fun session =>
    .quiet (livelyOf processTouch_steady) fun _ _ => .get ?_
  split
  · exact .pure rfl
  · refine .bind handleLocalMenuAction_lively fun _ _ => ?_
    exact .quiet (livelyOf detachTouch_steady) fun _ _ => .pure rfl

theorem surfaceTouch_steady {target : TouchTarget}
    {report : List PhysicalPointerEvent} :
    steadily.Emits (surfaceTouch target report now) id := by
  refine .of_from fun session => .quiet processTouch_steady fun gesture _ => ?_
  refine .ite (fun _ => .pure rfl) fun _ => ?_
  refine .bind touchBatch_steady fun cancelled _ => ?_
  refine .bind touchBatch_steady fun forwarded _ => ?_
  refine .ite (fun _ => ?_) fun _ => .after ?_
  · refine .bind localCleanup_steady fun cleaned _ => .pure ?_
    simp
  · exact .pure (by simp)

theorem touchReport_lively {target : TouchTarget}
    {report : List PhysicalPointerEvent} :
    lively.Emits (touchReport target now report) id := by
  refine .of_from fun session => .ite (fun _ => .pure rfl) fun _ => ?_
  refine .modify (lively_same rfl rfl) (.get ?_)
  refine .ite (fun _ => .all (livelyOf staleTouch_steady)) fun _ => ?_
  exact .ite (fun _ => .all menuTouch_lively) fun _ =>
    .all (livelyOf surfaceTouch_steady)

theorem inputReports_lively {reports : List (List PhysicalPointerEvent)} :
    lively.Emits (inputReports reports now) id :=
  .of_from fun _ => .get (.all (.gather (fun _ => touchReport_lively) _))

theorem cancelInput_steady {surface : ActiveSurface}
    {cancelled : List PhysicalPointerEvent} {pen : Option PointerRecord} :
    steadily.Emits (cancelInput surface cancelled pen now physical) id := by
  refine .of_from fun session => .bind touchBatch_steady fun batches _ => ?_
  split
  · exact .after (.pure (by simp))
  · exact .bind penReportsInner_steady fun _ _ => .pure rfl

theorem inputCaptureFailed_steady :
    steadily.Emits (inputCaptureFailed now) id := by
  refine .of_from fun session => .quiet detachTouch_steady fun _ _ =>
    .modify (still_same rfl rfl) (.get ?_)
  split
  · exact .after (.quiet setPenAvailable_steady fun _ _ => .pure rfl)
  · exact .bind cancelInput_steady fun _ _ =>
      .quiet setPenAvailable_steady fun _ _ => .pure rfl

theorem liftPen_from {session : Session} {surface : ActiveSurface}
    {cancelled : List PhysicalPointerEvent}
    (shown : session.surface = some surface) :
    steadily.From session session [] (liftPen surface cancelled now) id :=
  .modify (still_shown rfl shown rfl rfl) (.all cancelInput_steady)

theorem powerKeyPressed_steady :
    steadily.Emits (powerKeyPressed now) id := by
  refine .of_from fun session => .modify (still_same rfl rfl) (.get ?_)
  refine .ite (fun _ => .pure rfl) fun _ => .computes rfl (still_same rfl rfl) ?_
  have draws (start between : Session) (responses : List Envelope) :
      steadily.From start between responses (do
        Proc.modify fun session => session.withMenu session.localMenu.toggle
        let drawn ← renderLocalMenu now
        return responses ++ drawn) id :=
    .modify (still_withMenu _ _)
      (.bind renderLocalMenu_steady fun _ _ => .pure rfl)
  split
  · exact .after (draws _ _ [])
  · rename_i surface shown
    exact .call (liftPen_from shown) fun responses last => draws _ last responses

end

section

variable {now : Duration}

theorem acceptHello_steady {hello : ClientHello} :
    steadily.Emits (acceptHello hello) fun envelope => [envelope] := by
  refine .of_from fun session => .get (.ofRes fun _ _ => .ofRes fun minor _ => ?_)
  exact .set (still_same rfl rfl) (.all (wrap_steady ⟨rfl, rfl⟩))

theorem validateEnvelopeHeader_steady {envelope : Envelope} :
    steadily.Emits (validateEnvelopeHeader envelope) fun _ => [] := by
  refine .of_from fun session => .get (.ite (fun _ => .throw) fun _ => ?_)
  exact .ite (fun _ => .throw) fun _ => .finish (still_same rfl rfl) rfl

theorem poll_steady : steadily.Emits (poll now) id := by
  have keeps (start between : Session) (terminals : List TerminalFrame) :
      steadily.From start between [] (do
        keepCarried
        terminalResults terminals) id :=
    .quiet keepCarried_steady fun _ _ => .all terminalResults_steady
  refine .of_from fun session => .get ?_
  split
  · exact .pure rfl
  · refine .ite (fun _ => ?_) fun _ => ?_
    · exact .quiet (askCore_steady fun _ => tickInteractive_keeps) fun _ _ =>
        keeps _ _ _
    · exact .quiet (runCore_steady fun _ => tickInner_keeps) fun _ _ =>
        keeps _ _ _

/-- Only a profile request may change the custom profile that is remembered. -/
theorem handleBody_lively {body : Body}
    (other : ∀ request, body ≠ .epaperProfileRequest request) :
    lively.Emits (handleBody body now) id := by
  cases body with
  | ping cookie =>
      exact .of_from fun _ => .bind (livelyOf (wrap_steady ⟨rfl, rfl⟩))
        fun _ _ => .pure rfl
  | goodbye =>
      exact .of_from fun _ => .modify (lively_same rfl rfl) (.pure rfl)
  | surfaceOpen request =>
      exact .of_from fun _ => .bind (livelyOf openSurface_steady) fun _ _ =>
        .modify (lively_same rfl rfl) (.pure rfl)
  | surfaceClose surfaceId generation => exact livelyOf closeSurface_steady
  | overlayUpdate update => exact overlayUpdate_lively
  | frame frame => exact livelyOf acceptFrame_steady
  | epaperProfileRequest request => exact absurd rfl (other request)
  | epaperRefreshRequest request => exact handleEpaperRefresh_lively
  | actionResult => exact .pure rfl
  | _ => exact .of_from fun _ => .throw

theorem handleBody_orderly {body : Body} :
    orderly.Emits (handleBody body now) id := by
  by_cases other : ∀ request, body ≠ .epaperProfileRequest request
  · exact orderlyOf (handleBody_lively other)
  · obtain ⟨request, isRequest⟩ := not_forall_not.mp other
    subst isRequest
    exact handleEpaperProfile_orderly

theorem handleFirst_steady {body : Body} :
    steadily.Emits (handleFirst body) id := by
  refine .of_from fun session => ?_
  unfold handleFirst
  split
  · exact .bind acceptHello_steady fun _ _ => .pure rfl
  · exact .throw

/-- A procedure without an answer. -/
theorem silent_lively {procedure : SessionProc Unit}
    (emits : steadily.Emits procedure fun _ => []) :
    lively.Emits (do
      procedure
      return ([] : List Envelope)) id :=
  .of_from fun _ => .quiet (livelyOf emits) fun _ _ => .pure rfl

end

section

variable {now : Duration} {emission : Emission Session Envelope}
  (widens : ∀ before items after, Lively before items after →
    emission.rel before items after)

include widens

/-- An envelope emits what its body emits. -/
theorem handleInner_emits {envelope : Envelope} {pollAfter : Bool}
    (handles : ∀ body ∈ envelope.body,
      emission.Emits (handleBody body now) id) :
    emission.Emits (handleInner envelope now pollAfter) id := by
  have finishes (start between : Session) (responses : List Envelope) :
      emission.From start between responses (if pollAfter then do
          let polled ← poll now
          return responses ++ polled
        else return responses) id :=
    .ite (fun _ => .bind ((livelyOf poll_steady).mono widens)
      fun _ _ => .pure rfl) fun _ => .pure rfl
  refine .of_from fun session => .quiet
    ((livelyOf validateEnvelopeHeader_steady).mono widens)
    fun _ _ => .get ?_
  split
  · exact .throw
  · rename_i body isBody
    refine .ite (fun _ => ?_) fun _ => ?_
    · exact .bind (handles body isBody) fun responses last =>
        finishes _ last responses
    · exact .bind ((livelyOf handleFirst_steady).mono widens)
        fun responses last => finishes _ last responses

/-- Only the body of an envelope may do more than lively procedures do. -/
theorem operation_emits {op : SessionOp}
    (handles : ∀ envelope now,
      op = .handle envelope now ∨ op = .handleDeferred envelope now →
      ∀ body ∈ envelope.body, emission.Emits (handleBody body now) id) :
    emission.Emits op.run id := by
  have steadyOf {procedure : SessionProc (List Envelope)}
      (emits : steadily.Emits procedure id) : emission.Emits procedure id :=
    (livelyOf emits).mono widens
  have silent {procedure : SessionProc Unit}
      (emits : steadily.Emits procedure fun _ => []) :
      emission.Emits (do
        procedure
        return ([] : List Envelope)) id := (silent_lively emits).mono widens
  cases op with
  | handle envelope now =>
      exact handleInner_emits widens (handles envelope now (.inl rfl))
  | handleDeferred envelope now =>
      exact handleInner_emits widens (handles envelope now (.inr rfl))
  | poll now => exact steadyOf poll_steady
  | penReports reports now => exact steadyOf penReportsInner_steady
  | inputReports reports now => exact inputReports_lively.mono widens
  | powerKeyPressed now => exact steadyOf powerKeyPressed_steady
  | inputCaptureFailed now => exact steadyOf inputCaptureFailed_steady
  | closeLocalMenu now => exact steadyOf closeLocalMenu_steady
  | setFrameFrozen frozen now => exact steadyOf setFrameFrozen_steady
  | clearInk now => exact steadyOf clearInk_steady
  | setLocalInk enabled now => exact silent setLocalInk_steady
  | setInkPaused paused now => exact silent setInkPaused_steady
  | requestCleanup now =>
      have cleans : steadily.Emits (SessionOp.run (.requestCleanup now)) id :=
        .of_from fun _ => .bind requestCleanup_steady fun _ _ => .pure rfl
      exact steadyOf cleans
  | setPenAvailable available => exact silent setPenAvailable_steady
  | setFreezeOnPenDown enabled =>
      exact silent (.modify fun _ => still_same rfl rfl)
  | setAutomaticIdleCleanup enabled =>
      exact silent (.modify fun _ => still_same rfl rfl)

end

/-- Every operation numbers what it returns, and keeps the settings valid. -/
theorem operation_orderly (op : SessionOp) : orderly.Emits op.run id :=
  operation_emits (fun _ _ _ lively => lively.toOrderly)
    fun _ _ _ _ _ => handleBody_orderly

end Session

/-- The envelopes the operations of a run returned, in order. -/
def outgoing (history : List SessionEvent) : List Envelope :=
  history.reverse.flatMap (·.envelopes)

theorem newSession_numbered {setup : SessionSetup} {first : Session}
    (fresh : setup.newSession = .ok first) :
    first.Numbered ∧ first.nextOutgoingMessageId = 1 ∧
      first.overlaySequence = 0 ∧ first.lastCustomProfile = none ∧
      first.surface = none ∧ first.config = setup.config := by
  obtain ⟨fallback, _, stored⟩ := Res.bind_eq_ok.mp fresh
  cases stored
  exact ⟨⟨rfl, Nat.le_refl _, Nat.le_refl _⟩, rfl, rfl, rfl, rfl, rfl⟩

/-- A run numbers what it returns, and keeps the settings valid. -/
theorem SessionRun.orderly {setup : SessionSetup} {history : List SessionEvent}
    {final : Session} (run : SessionRun setup history final) :
    ∃ first, setup.newSession = .ok first ∧
      Orderly first (outgoing history) final := by
  obtain ⟨first, fresh, run⟩ := run
  refine ⟨first, fresh, ?_⟩
  have climbs := Emission.rel_of_run Session.operation_orderly run
  have same : (fun event : SessionEvent =>
      Emission.handed id event.output) = SessionEvent.envelopes := by
    funext event
    unfold Emission.handed SessionEvent.envelopes
    cases event.output <;> rfl
  rw [same] at climbs
  exact climbs

end RmDisplay.Receiver
