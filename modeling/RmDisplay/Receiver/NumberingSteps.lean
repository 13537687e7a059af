import RmDisplay.Receiver.CustomProfile
import RmDisplay.Receiver.Numbering

/-!
# Procedures that number their envelopes

Every procedure of a session follows its text: what it returns is put together
from what its parts returned, in the order in which the parts built it.
-/

namespace RmDisplay.Receiver

open Foundation Protocol RmDisplay.Core Core.DisplayCore

namespace Session

section

variable {before after : Session} {envelope : Envelope}

theorem nextNumber_of_lt {bound number : Nat} (below : number < bound) :
    nextNumber bound number = number + 1 := by
  unfold nextNumber Bounded.wrappingSucc
  rw [Nat.mod_eq_of_lt (by omega)]
  omega

/-- The session after an envelope was built. -/
def wrapped (self : Session) (body : Body) : Session :=
  { self.note (.sent body self.pendingFrame) with
    nextOutgoingMessageId :=
      nextNumber u32Max (max self.nextOutgoingMessageId 1) }

theorem wrap_runs {body : Body} {output : Except SessionError Envelope}
    (runs : (wrap body).Runs before output after) :
    after = before.wrapped body ∧
      output = .ok ⟨before.sessionId, max before.nextOutgoingMessageId 1,
        some body⟩ := by
  have returned : (pure ⟨before.sessionId,
      max before.nextOutgoingMessageId 1, some body⟩ :
        SessionProc Envelope).Runs (before.wrapped body) output after := runs
  obtain ⟨isOutput, isAfter⟩ := Proc.runs_pure.mp returned
  exact ⟨isAfter, isOutput⟩

/-- An envelope takes the next message id, and the next sequence number if it
is an input batch. -/
theorem counts_sent (isBuilt : after.built = before.built + 1)
    (isNext : after.nextOutgoingMessageId =
      nextNumber u32Max (max before.nextOutgoingMessageId 1))
    (isId : envelope.messageId = max before.nextOutgoingMessageId 1)
    (input : 1 ≤ before.nextInputSequence →
      before.nextInputSequence < u64Max →
        Climbs before.nextInputSequence after.nextInputSequence
            (inputNumbers [envelope]) ∧
          after.nextInputSequence ≤ before.nextInputSequence + 1) :
    Counts before [envelope] after := by
  have isSmall (small : after.built < u32Max) (numbered : before.Numbered) :
      before.nextInputSequence < u64Max := by
    have fits := numbered.input
    have bounds : u32Max < u64Max := by decide
    omega
  have isMessage (small : after.built < u32Max) (numbered : before.Numbered) :
      envelope.messageId = before.built + 1 ∧
        after.nextOutgoingMessageId = after.built + 1 := by
    have isNumber := numbered.message
    have isFirst : max before.nextOutgoingMessageId 1 = before.built + 1 := by
      omega
    rw [isNext, isId, isFirst, nextNumber_of_lt (by omega), isBuilt]
    exact ⟨rfl, rfl⟩
  refine ⟨by omega, ?_, ?_, ?_⟩
  · intro small numbered
    obtain ⟨climbs, one⟩ := input numbered.first (isSmall small numbered)
    have first := numbered.first
    have fits := numbered.input
    have ordered := climbs.ordered
    exact ⟨(isMessage small numbered).2, by omega, by omega⟩
  · intro small numbered
    obtain ⟨isNumber, isAfter⟩ := isMessage small numbered
    unfold messageIds
    rw [List.map_singleton, isNumber, isAfter, numbered.message, isBuilt]
    exact .single _
  · intro small numbered
    exact (input numbered.first (isSmall small numbered)).1

/-- What an envelope says has no number of its own. -/
structure Numberless (body : Body) : Prop where
  input : inputNumber body = none
  applied : appliedNumber body = none

theorem steady_wrapped {body : Body} (plain : Numberless body)
    (isBody : envelope.body = some body)
    (isId : envelope.messageId = max before.nextOutgoingMessageId 1) :
    Steady before [envelope] (before.wrapped body) where
  counts := by
    refine counts_sent rfl rfl isId fun _ _ => ?_
    have none : inputNumbers [envelope] = [] := by
      simp [inputNumbers, bodies, isBody, plain.input]
    rw [none]
    exact ⟨.nil (Nat.le_refl _), Nat.le_succ _⟩
  overlay := rfl
  applied := by simp [appliedNumbers, bodies, isBody, plain.applied]
  policy := rfl
  custom := rfl
  agrees := id

theorem wrap_steady {body : Body} (plain : Numberless body) :
    steadily.Emits (wrap body) fun envelope => [envelope] := by
  intro before output after runs
  obtain ⟨rfl, rfl⟩ := wrap_runs runs
  exact steady_wrapped plain rfl rfl

theorem frameResult_steady {key : FrameKey} {verdict : Verdict}
    {logical presented : Nat} {metrics : Option PresentationMetrics} :
    steadily.Emits (frameResult key verdict logical presented metrics)
      fun envelope => [envelope] :=
  .of_from fun _ => .get (.all (wrap_steady ⟨rfl, rfl⟩))

theorem terminalResult_steady {terminal : TerminalFrame} :
    steadily.Emits (terminalResult terminal) fun envelope => [envelope] :=
  .of_from fun _ => .get (.all frameResult_steady)

theorem terminalResults_steady {terminals : List TerminalFrame} :
    steadily.Emits (terminalResults terminals) id := by
  refine .gather (fun terminal => ?_) terminals
  exact .of_from fun _ => .bind terminalResult_steady fun _ _ => .pure rfl

theorem immediateFrameResult_steady {frame : Frame} {verdict : Verdict} :
    steadily.Emits (immediateFrameResult frame verdict)
      fun envelope => [envelope] :=
  .of_from fun _ => .get (.all frameResult_steady)

/-- A change of what is neither counted nor set. -/
theorem still_same (same : after.ledger = before.ledger)
    (shown : after.surface = before.surface) : Steady before [] after :=
  .still same fun surface isShown => ⟨surface, shown ▸ isShown, rfl⟩

/-- A change of the active surface that keeps the settings of its core. -/
theorem still_shown {surface next : ActiveSurface}
    (same : after.ledger = before.ledger)
    (shown : before.surface = some surface) (isNext : after.surface = some next)
    (settings : next.core.settings = surface.core.settings) :
    Steady before [] after := by
  refine .still same fun other isShown => ⟨surface, shown, ?_⟩
  rw [isNext] at isShown
  cases isShown
  exact settings

theorem readStopwatch_steady :
    steadily.Emits readStopwatch fun _ => [] :=
  .of_from fun _ => .get (.set (still_same rfl rfl) (.pure rfl))

theorem runCore_steady {α : Type} {now : Duration}
    {operation : Timing → CoreProc α}
    (keeps : ∀ timing, keepsSettings.Emits (operation timing)
      fun _ => ([] : List Envelope)) :
    steadily.Emits (runCore now operation) fun _ => [] := by
  refine .of_from fun session =>
    .quiet readStopwatch_steady fun stopwatch between => .get ?_
  split
  · exact .panic
  · rename_i surface shown
    exact .zoom (fun world kept => still_shown rfl shown rfl kept) (keeps _)

theorem askCore_steady {α : Type} {cause : CleanupCause} {asks : Bool}
    {now : Duration} {operation : Timing → CoreProc α}
    (keeps : ∀ timing, keepsSettings.Emits (operation timing)
      fun _ => ([] : List Envelope)) :
    steadily.Emits (askCore cause asks now operation) fun _ => [] := by
  refine .of_from fun session => .modify ?_ (.all (runCore_steady keeps))
  split
  · exact still_same rfl rfl
  · exact .refl session

theorem cancelPending_steady :
    steadily.Emits cancelPending fun _ => [] := by
  refine .of_from fun session => .get ?_
  split
  · exact .pure rfl
  · rename_i surface shown
    exact .set (still_shown rfl shown rfl rfl) (.pure rfl)

theorem refuseFrame_steady {frame : Frame} {verdict : Verdict} :
    steadily.Emits (refuseFrame frame verdict) id :=
  .of_from fun _ => .modify (still_same rfl rfl)
    (.bind immediateFrameResult_steady fun _ _ => .pure rfl)

theorem settings_commitTimed {core next : DisplayCore} {frame : ValidatedFrame}
    {contentClass : ContentClass} {timing : Timing} {decodeUs : Nat}
    {report : CommitReport}
    (commits : core.commitTimed frame contentClass timing decodeUs =
      .ok (report, next)) : next.settings = core.settings := by
  obtain ⟨_, _, _, _, _, _, _, rfl⟩ := commitTimed_eq_ok commits
  rfl

theorem acceptFrame_steady {frame : Frame} {now : Duration} :
    steadily.Emits (acceptFrame frame now) id := by
  refine .of_from fun session => .get ?_
  split
  · exact .all refuseFrame_steady
  · rename_i surface validated admits
    refine .computes rfl (still_same rfl rfl) ?_
    split
    · rename_i report core commits
      refine .modify ?_ (.all terminalResults_steady)
      exact still_shown rfl (surface_of_admits admits) rfl
        (settings_commitTimed commits)
    · exact .all refuseFrame_steady
    · exact .panic

theorem settings_newCore {session : Session} {pixelFormat : PixelFormat}
    {core : DisplayCore} (isNew : session.newCore pixelFormat = .ok core) :
    core.settings = (session.config.refreshPolicy,
      session.config.refreshPolicy.damageTile) := by
  obtain ⟨first, created, restores⟩ := Res.bind_eq_ok.mp isNew
  rw [settings_restoreRefreshDebt restores]
  have settings := settings_newWithFormat created
  cases session.carryCleanup <;> exact settings

theorem installSurface_steady {request : SurfaceOpen}
    {pixelFormat : PixelFormat} {sourceKind : SourceKind} :
    steadily.Emits (installSurface request pixelFormat sourceKind) id := by
  refine .of_from fun session => .get (.set (still_same rfl rfl) ?_)
  refine .ofRes fun core isNew => .modify (still_same rfl rfl) ?_
  refine .quiet cancelPending_steady fun cancelled between =>
    .bind terminalResults_steady fun responses _ => .reached fun steady => ?_
  refine .modify (.quiet rfl fun _ => ?_) ?_
  · rintro surface isShown
    cases isShown
    have policy := Steady.policy steady
    refine (settings_newCore isNew).trans ?_
    rw [← policy]
    rfl
  · exact .bind (wrap_steady ⟨rfl, rfl⟩) fun ready _ => .pure rfl

theorem openSurface_steady {request : SurfaceOpen} :
    steadily.Emits (openSurface request) id := by
  refine .of_from fun session => .get (.ite (fun _ => .throw) fun _ => ?_)
  split
  · exact .throw
  · refine .ite (fun _ => .throw) fun _ => ?_
    split
    · exact .throw
    · exact .all installSurface_steady

theorem closeSurface_steady {surfaceId generation : Nat} :
    steadily.Emits (closeSurface surfaceId generation) id := by
  refine .of_from fun session => .get (.ite (fun _ => .pure rfl) fun _ => ?_)
  refine .quiet cancelPending_steady fun cancelled between =>
    .modify (still_same rfl rfl) ?_
  refine .bind terminalResults_steady fun responses _ => .modify ?_ (.pure rfl)
  exact .quiet rfl fun _ _ missing => nomatch missing

theorem still_withSurface {change : ActiveSurface → ActiveSurface}
    (same : after.ledger = before.ledger)
    (mapped : after.surface = before.surface.map change)
    (settings : ∀ surface,
      (change surface).core.settings = surface.core.settings) :
    Steady before [] after := by
  refine .still same fun surface isShown => ?_
  rw [mapped] at isShown
  obtain ⟨earlier, shown, rfl⟩ := Option.map_eq_some_iff.mp isShown
  exact ⟨earlier, shown, settings earlier⟩

theorem setLocalInk_steady {enabled : Bool} {now : Duration} :
    steadily.Emits (setLocalInk enabled now) fun _ => [] := by
  refine .of_from fun session => .get (.ite (fun _ => .throw) fun _ => ?_)
  split
  · exact .throw
  · rename_i surface shown
    refine .ite (fun _ => ?_) fun _ => .pure rfl
    exact .finish (still_shown rfl shown rfl rfl) rfl

theorem setInkPaused_steady {paused : Bool} {now : Duration} :
    steadily.Emits (setInkPaused paused now) fun _ => [] := by
  refine .of_from fun session => .get ?_
  split
  · exact .throw
  · rename_i surface shown
    refine .ite (fun _ => ?_) fun _ => .pure rfl
    exact .finish (still_shown rfl shown rfl rfl) rfl

theorem clearInk_steady {now : Duration} :
    steadily.Emits (clearInk now) id := by
  refine .of_from fun session => .get ?_
  split
  · exact .throw
  · rename_i surface shown
    refine .set (still_shown rfl shown rfl rfl) ?_
    exact .quiet (runCore_steady fun _ => presentPlane_keeps) fun _ _ =>
      .all terminalResults_steady

/-- An input batch with the next sequence number. -/
theorem inputBatch_from {session : Session}
    {surfaceId generation sequence : Nat} {records : List PointerRecord}
    {now : Duration} (isNext : 1 ≤ session.nextInputSequence →
      sequence = session.nextInputSequence) :
    steadily.From session session []
      (inputBatch surfaceId generation sequence records now)
      fun envelope => [envelope] := by
  intro _ output after runs
  unfold inputBatch at runs
  rw [Proc.runs_get_bind, Proc.runs_set_bind] at runs
  obtain ⟨rfl, rfl⟩ := wrap_runs runs
  refine ⟨counts_sent rfl rfl rfl fun first small => ?_, rfl, rfl, rfl, rfl,
    id⟩
  have isSequence := isNext first
  subst isSequence
  refine ⟨?_, ?_⟩
  · change Climbs _ (nextNumber u64Max session.nextInputSequence) [_]
    rw [nextNumber_of_lt small]
    exact .single _
  · change nextNumber u64Max session.nextInputSequence ≤ _
    rw [nextNumber_of_lt small]

theorem pointerBatch_steady {surfaceId generation : Nat}
    {report : List PhysicalPointerEvent} {now : Duration} :
    steadily.Emits (pointerBatch surfaceId generation report now)
      fun envelope => [envelope] :=
  .of_from fun _ => .get (inputBatch_from fun first => Nat.max_eq_left first)

theorem ledger_noteFrozen (session : Session)
    (earlier later : ActiveSurface) :
    (session.noteFrozen earlier later).ledger = session.ledger := by
  unfold noteFrozen
  split <;> rfl

theorem setFrameFrozen_steady {frozen : Bool} {now : Duration} :
    steadily.Emits (setFrameFrozen frozen now) id := by
  refine .of_from fun session => .get ?_
  split
  · exact .throw
  · rename_i surface shown
    refine .ite (fun _ => .pure rfl) fun _ => .ite (fun _ => .throw) fun _ => ?_
    refine .set ?_ (.bind terminalResults_steady fun responses _ => ?_)
    · refine still_shown (ledger_noteFrozen _ _ _) shown rfl ?_
      cases frozen <;> rfl
    · refine .ite (fun _ => ?_) fun _ => .pure rfl
      exact .bind pointerBatch_steady fun _ _ => .pure rfl

theorem keepCarried_steady :
    steadily.Emits keepCarried fun _ => [] :=
  .modify fun _ => still_same rfl rfl

theorem requestCleanup_steady {now : Duration} {cause : CleanupCause} :
    steadily.Emits (requestCleanup now cause) (·.2) := by
  have rest (start session : Session) (report : CleanupReport) :
      steadily.From start session []
        (do
          let responses ← terminalResults report.terminals
          return (report, responses)) (·.2) :=
    .bind terminalResults_steady fun _ _ => .pure rfl
  refine .of_from fun session => .get ?_
  split
  · refine .quiet (askCore_steady fun _ => requestCleanup_keeps) ?_
    exact fun report between => .modify (still_same rfl rfl) (rest _ _ report)
  · exact .modify (still_same rfl rfl) (.after (rest _ _ _))

theorem setPenAvailable_steady {available : Bool} :
    steadily.Emits (setPenAvailable available) fun _ => [] := by
  refine .modify fun session => ?_
  dsimp only
  split
  · exact still_same rfl rfl
  · exact still_withSurface rfl rfl fun _ => rfl

theorem presentFallback_steady {completeRefresh : Bool} :
    steadily.Emits (presentFallback completeRefresh) fun _ => [] := by
  refine .of_from fun session => .get ?_
  split
  · exact .pure rfl
  · refine .ofRes fun drawn _ => .set (still_same rfl rfl) ?_
    refine .ofRes fun composed _ => .modify (still_same rfl rfl) ?_
    exact .ite (fun _ => .pure rfl) fun _ => .throw

theorem drawMenu_from {session : Session} {surface : ActiveSurface}
    (shown : session.surface = some surface) :
    steadily.From session session [] (drawMenu session surface)
      fun _ => [] := by
  refine .ofRes fun drawn _ => .finish ?_ rfl
  exact still_shown rfl shown rfl rfl

theorem renderLocalMenu_steady {now : Duration} :
    steadily.Emits (renderLocalMenu now) id := by
  refine .of_from fun session => .get ?_
  split
  · rename_i surface shown
    refine .call (drawMenu_from shown) fun _ _ => ?_
    refine .quiet (runCore_steady fun _ => presentPlane_keeps) fun _ _ => ?_
    exact .quiet keepCarried_steady fun _ _ => .all terminalResults_steady
  · exact .quiet presentFallback_steady fun _ _ => .pure rfl

theorem still_withMenu (session : Session) (menu : LocalMenu) :
    Steady session [] (session.withMenu menu) := still_same rfl rfl

theorem closeLocalMenu_steady {now : Duration} :
    steadily.Emits (closeLocalMenu now) id := by
  refine .of_from fun session => .get (.ite (fun _ => .pure rfl) fun _ => ?_)
  exact .set (still_withMenu _ _) (.all renderLocalMenu_steady)

theorem localCleanup_steady {now : Duration} {cause : CleanupCause} :
    steadily.Emits (localCleanup now cause) id := by
  refine .of_from fun session => .get (.ite (fun _ => ?_) fun _ => ?_)
  · exact .quiet presentFallback_steady fun _ _ => .pure rfl
  · exact .bind requestCleanup_steady fun _ _ => .pure rfl

theorem leaveMenu_steady {now : Duration} :
    steadily.Emits (leaveMenu now) fun _ => [] := by
  refine .of_from fun session => .modify (still_withMenu _ _) ?_
  refine .quiet (.discard (.attempt renderLocalMenu_steady)) fun _ _ => ?_
  exact .finish (still_same rfl rfl) rfl

theorem overlayResult_steady {update : OverlayUpdate} {message : String}
    {shown : Option ActiveSurface} :
    steadily.Emits (overlayResult update false message shown)
      fun envelope => [envelope] := wrap_steady ⟨rfl, rfl⟩

theorem overlayCleared_steady {session : Session} {surface : ActiveSurface}
    {update : OverlayUpdate} {now : Duration}
    (shown : session.surface = some surface) :
    Steady session [] (session.overlayCleared surface update now) := by
  unfold overlayCleared
  dsimp only
  split <;> split <;> exact still_shown rfl shown rfl rfl

theorem settings_setPlane (core : DisplayCore) (id : PlaneId)
    (plane : LocalOverlay) :
    (core.setPlane id plane).settings = core.settings := by
  cases id <;> rfl

theorem settings_editPlane {surface next : ActiveSurface} {id : PlaneId}
    {edit : PlaneEdit} (edits : surface.editPlane id edit = .ok next) :
    next.core.settings = surface.core.settings := by
  obtain ⟨core, edited, isNext⟩ := Res.bind_eq_ok.mp edits
  obtain ⟨plane, _, isCore⟩ := Res.bind_eq_ok.mp edited
  cases isNext
  cases isCore
  exact settings_setPlane _ _ _

theorem settings_overlayPatched {surface next : ActiveSurface}
    {update : OverlayUpdate} (patches : overlayPatched surface update = .ok next) :
    next.core.settings = surface.core.settings := by
  unfold overlayPatched at patches
  split at patches
  · cases patches
    rfl
  · exact settings_editPlane patches

theorem editActive_steady {change : ActiveSurface → SurfaceRes ActiveSurface}
    (settings : ∀ surface next, change surface = .ok next →
      next.core.settings = surface.core.settings) :
    steadily.Emits (editActive change) fun _ => [] := by
  refine .of_from fun session => .get ?_
  split
  · exact .pure rfl
  · rename_i surface shown
    refine .ofRes fun changed changes => .finish ?_ rfl
    exact still_shown rfl shown rfl (settings _ _ changes)

theorem overlayInk_steady {session : Session} {surface : ActiveSurface}
    {update : OverlayUpdate} (shown : session.surface = some surface) :
    Steady session [] (session.overlayInk surface update) := by
  unfold overlayInk
  split
  · exact still_shown rfl shown rfl rfl
  · exact still_shown rfl shown rfl rfl
  · exact still_shown (ledger_noteFrozen _ _ _) shown rfl rfl

/-- What an applied update does before it is answered. -/
def overlaid (surface : ActiveSurface) (update : OverlayUpdate)
    (now : Duration) : SessionProc (List Envelope) := do
  Proc.modify fun session => session.overlayCleared surface update now
  editActive fun surface => overlayPatched surface update
  Proc.modify fun session =>
    match session.surface with
    | none => session
    | some surface => session.overlayInk surface update
  let terminals ← runCore now DisplayCore.presentOverlay
  terminalResults terminals

def answerOverlay (update : OverlayUpdate) (responses : List Envelope) :
    SessionProc (List Envelope) := do
  let session ← Proc.get
  let result ← overlayResult update true "" session.surface
  return responses ++ [result]

theorem applyOverlay_eq (surface : ActiveSurface) (update : OverlayUpdate)
    (now : Duration) : applyOverlay surface update now =
      (overlaid surface update now >>= answerOverlay update) := by
  unfold overlaid
  simp only [bind_assoc]
  rfl

theorem overlaid_from {session : Session} {surface : ActiveSurface}
    {update : OverlayUpdate} {now : Duration}
    (shown : session.surface = some surface) :
    steadily.From session session [] (overlaid surface update now) id := by
  refine .modify (overlayCleared_steady shown) ?_
  refine .quiet (editActive_steady fun _ _ => settings_overlayPatched) ?_
  intro _ between
  refine .modify ?_ ?_
  · split
    · exact .refl between
    · rename_i isShown
      exact overlayInk_steady isShown
  · exact .quiet (runCore_steady fun _ => presentPlane_keeps) fun _ _ =>
      .all terminalResults_steady

/-- The answer of an applied update has the update's own sequence number. -/
theorem answerOverlay_applies {update : OverlayUpdate}
    {earlier between after : Session} {responses : List Envelope}
    {output : Except SessionError (List Envelope)}
    (newer : earlier.overlaySequence < update.sequence)
    (taken : between.overlaySequence = update.sequence)
    (counts : Counts earlier responses between)
    (unapplied : appliedNumbers responses = [])
    (policied : earlier.Policied → between.Policied)
    (custom : between.lastCustomProfile = earlier.lastCustomProfile)
    (runs : (answerOverlay update responses).Runs between output after) :
    Lively earlier (Emission.handed id output) after := by
  unfold answerOverlay at runs
  rw [Proc.runs_get_bind] at runs
  rcases Proc.runs_bind.mp runs with ⟨result, answered, wraps, runs⟩ |
    ⟨err, rfl, fails⟩
  · obtain ⟨rfl, isResult⟩ := wrap_runs wraps
    obtain ⟨rfl, rfl⟩ := Proc.runs_pure.mp runs
    cases isResult
    refine ⟨⟨counts.trans (counts_sent rfl rfl rfl fun _ _ =>
      ⟨.nil (Nat.le_refl _), Nat.le_succ _⟩), ?_, fun valid => ?_⟩, custom⟩
    · change Climbs _ (between.overlaySequence + 1)
        (appliedNumbers (responses ++ [_]))
      rw [appliedNumbers_append, unapplied, taken]
      exact (Climbs.nil newer).append (.single _)
    · obtain ⟨valid, custom, agrees⟩ := policied valid
      exact ⟨valid, custom, agrees⟩
  · cases (wrap_runs fails).2

/-- An update that is applied counts once, and its number is a new one. -/
theorem applyOverlay_lively {before session : Session} {surface : ActiveSurface}
    {update : OverlayUpdate} {now : Duration}
    (newer : before.overlaySequence < update.sequence)
    (isSession : session = { before with overlaySequence := update.sequence })
    (shown : session.surface = some surface)
    {output : Except SessionError (List Envelope)} {after : Session}
    (runs : (applyOverlay surface update now).Runs session output after) :
    Lively before (Emission.handed id output) after := by
  have starts : Counts before [] session := .quiet (by rw [isSession]; rfl)
  have taken : session.overlaySequence = update.sequence := by rw [isSession]
  have policied (policied : before.Policied) : session.Policied := by
    rw [isSession]
    exact ⟨policied.valid, policied.custom, policied.agrees⟩
  have custom : session.lastCustomProfile = before.lastCustomProfile := by
    rw [isSession]
  rw [applyOverlay_eq] at runs
  have lays := @overlaid_from session surface update now shown
    (Steady.refl session)
  rcases Proc.runs_bind.mp runs with ⟨responses, between, ran, runs⟩ |
    ⟨err, rfl, fails⟩
  · have steady : Steady session responses between := lays _ _ ran
    exact answerOverlay_applies newer (steady.overlay.trans taken)
      (starts.trans steady.counts) steady.applied
      (fun valid => steady.lively.policied (policied valid))
      (steady.custom.trans custom) runs
  · have steady : Steady session [] after := lays _ _ fails
    refine ⟨⟨starts.trans steady.counts, .nil ?_,
      fun valid => steady.lively.policied (policied valid)⟩,
      steady.custom.trans custom⟩
    have taken := steady.overlay.trans taken
    omega

theorem overlayUpdate_lively {update : OverlayUpdate} {now : Duration} :
    lively.Emits (overlayUpdate update now) id := by
  have refuses {start session : Session} {message : String}
      {shown : Option ActiveSurface} : lively.From start session []
      (do return [← overlayResult update false message shown]) id :=
    .bind (livelyOf overlayResult_steady) fun _ _ => .pure rfl
  refine .of_from fun before => .get (.set ?_ ?_)
  · split
    · rename_i valid
      have newer := (of_decide_eq_true valid).2
      refine ⟨⟨.quiet rfl, .nil (Nat.succ_le_succ (Nat.le_of_lt newer)), ?_⟩,
        rfl⟩
      exact fun policied => ⟨policied.valid, policied.custom, policied.agrees⟩
    · exact (Steady.refl before).lively
  · refine .ite (fun _ => refuses) fun _ => .ite (fun _ => refuses) ?_
    intro isValid
    have valid : decide (update.sequence ≠ 0 ∧
        before.overlaySequence < update.sequence) = true := by
      simpa using isValid
    rw [if_pos valid]
    refine .ite (fun _ => refuses) fun _ => ?_
    split
    · exact refuses
    · rename_i surface shown
      split
      · exact refuses
      · exact fun _ _ _ runs =>
          applyOverlay_lively (of_decide_eq_true valid).2 rfl shown runs

/-- Settings that stay valid when they are given to the session and to the core
of its surface. -/
theorem orderly_set {next : RefreshPolicyConfig}
    (same : after.counters = before.counters)
    (overlay : after.overlaySequence = before.overlaySequence)
    (policy : after.config.refreshPolicy = next)
    (valid : before.Policied → next.validate = .ok () ∧
      ∀ custom ∈ after.lastCustomProfile, custom.validate = .ok ())
    (shown : next.validate = .ok () → ∀ surface ∈ after.surface,
      surface.core.settings = (next, next.damageTile)) :
    Orderly before [] after := by
  refine .resets same overlay fun policied => ?_
  obtain ⟨isValid, custom⟩ := valid policied
  refine ⟨?_, custom, ?_⟩
  · rw [policy]
    exact isValid
  · unfold Agrees
    rw [policy]
    exact shown isValid

theorem lively_set {next : RefreshPolicyConfig}
    (same : after.counters = before.counters)
    (overlay : after.overlaySequence = before.overlaySequence)
    (policy : after.config.refreshPolicy = next)
    (custom : after.lastCustomProfile = before.lastCustomProfile)
    (valid : before.Policied → next.validate = .ok ())
    (shown : next.validate = .ok () → ∀ surface ∈ after.surface,
      surface.core.settings = (next, next.damageTile)) :
    Lively before [] after := by
  refine ⟨orderly_set same overlay policy (fun policied => ?_) shown, custom⟩
  rw [custom]
  exact ⟨valid policied, policied.custom⟩

/-- The core of the active surface takes over the settings. -/
theorem askCore_sets {next : RefreshPolicyConfig} {cause : CleanupCause}
    {asks : Bool} {now : Duration}
    {output : Except SessionError RefreshProfileChange}
    (shown : before.surface.isSome = true)
    (runs : (askCore cause asks now
      (DisplayCore.changeRefreshProfile next)).Runs before output after) :
    after.ledger = before.ledger ∧
      (next.validate = .ok () → ∀ surface ∈ after.surface,
        surface.core.settings = (next, next.damageTile)) := by
  obtain ⟨surface, isShown⟩ := Option.isSome_iff_exists.mp shown
  have noted : (if asks then before.note (.asked cause) else before).surface =
      some surface := by
    cases asks <;> exact isShown
  obtain ⟨timing, given, world, _, ran, rfl, _⟩ :=
    runCore_runs noted (Proc.runs_modify_bind.mp runs)
  refine ⟨?_, fun valid surface member => ?_⟩
  · cases asks <;> rfl
  · cases member
    exact changeRefreshProfile_sets valid ran

theorem lively_same (same : after.ledger = before.ledger)
    (shown : after.surface = before.surface) : Lively before [] after :=
  (still_same same shown).lively

theorem changeProfile_from {session : Session} {next : RefreshPolicyConfig}
    {now : Duration} (valid : session.Policied → next.validate = .ok ()) :
    lively.From session session [] (changeProfile next now) id := by
  have draws (between : Session) (responses : List Envelope) :
      lively.From session between responses (do
        let drawn ← renderLocalMenu now
        return responses ++ drawn) id :=
    .bind (livelyOf renderLocalMenu_steady) fun _ _ => .pure rfl
  have resets {after : Session} (ledger : after.ledger = (session.counters,
        session.overlaySequence, next, session.lastCustomProfile))
      (shown : next.validate = .ok () → ∀ surface ∈ after.surface,
        surface.core.settings = (next, next.damageTile)) :
      Lively session [] after :=
    lively_set (congrArg (·.1) ledger) (congrArg (·.2.1) ledger)
      (congrArg (·.2.2.1) ledger) (congrArg (·.2.2.2) ledger) valid shown
  refine .get ?_
  split
  · rename_i surface shown
    refine .ahead ?_ fun change between =>
      .bind (livelyOf terminalResults_steady) fun responses last =>
        draws last responses
    intro output after runs
    obtain ⟨same, sets⟩ := askCore_sets (by rw [shown]; rfl) runs
    exact resets same sets
  · rename_i hidden
    have stored : Lively session [] { session with
        config := { session.config with refreshPolicy := next } } := by
      refine resets rfl fun _ surface missing => ?_
      change surface ∈ session.surface at missing
      rw [hidden] at missing
      cases missing
    refine .set stored (.modify ?_ (.after (draws _ [])))
    split
    · exact lively_same rfl rfl
    · exact lively_same rfl rfl

/-- The core of the active surface is given the settings, or nothing is
changed. -/
theorem runCore_reconfigures {next : RefreshPolicyConfig} {now : Duration}
    {output : Except SessionError CoreReply}
    (shown : before.surface.isSome = true)
    (runs : (runCore now fun _ => onCore .configured fun core =>
      core.updateRefreshConfig next).Runs before output after) :
    after.ledger = before.ledger ∧
      (∀ reply, output = .ok reply → ∀ surface ∈ after.surface,
        surface.core.settings = (next, next.damageTile)) ∧
      (∀ err, output = .error err → before.Agrees → after.Agrees) := by
  obtain ⟨surface, isShown⟩ := Option.isSome_iff_exists.mp shown
  obtain ⟨timing, given, world, _, ran, rfl, rfl⟩ := runCore_runs isShown runs
  refine ⟨rfl, ?_, ?_⟩
  · intro reply returned other member
    have isOk := ok_of_mapError returned
    subst isOk
    cases member
    rcases onCore_runs ran with ⟨changed, core, updates, _, rfl⟩ |
      ⟨err, _, impossible, _⟩
    · exact (updateRefreshConfig_eq_ok updates).2
    · cases impossible
  · intro err returned agrees other member
    cases member
    rcases onCore_runs ran with ⟨changed, core, updates, rfl, _⟩ |
      ⟨err, _, _, rfl⟩
    · cases returned
    · exact agrees surface isShown

/-- The session and its core are given settings. -/
theorem reconfigured {next : RefreshPolicyConfig} {now : Duration}
    {reply : CoreReply} (valid : before.Policied → next.validate = .ok ())
    (shown : before.surface.isSome = true)
    (runs : (runCore now fun _ => onCore .configured fun core =>
      core.updateRefreshConfig next).Runs before (.ok reply) after) :
    Lively before [] { after with
      config := { after.config with refreshPolicy := next } } := by
  obtain ⟨same, sets, _⟩ := runCore_reconfigures shown runs
  exact lively_set (congrArg (·.1) same) (congrArg (·.2.1) same) rfl
    (congrArg (·.2.2.2) same) valid fun _ => sets reply rfl

theorem reconfigure_failed {next : RefreshPolicyConfig} {now : Duration}
    {err : SessionError} (shown : before.surface.isSome = true)
    (runs : (runCore now fun _ => onCore .configured fun core =>
      core.updateRefreshConfig next).Runs before (.error err) after) :
    Lively before [] after := by
  obtain ⟨same, _, keeps⟩ := runCore_reconfigures shown runs
  exact (Steady.quiet same (keeps err rfl)).lively

theorem handleLocalMenuAction_lively {action : LocalMenuAction}
    {now : Duration} : lively.Emits (handleLocalMenuAction action now) id := by
  have render (start between : Session) :
      lively.From start between [] (renderLocalMenu now) id :=
    .all (livelyOf renderLocalMenu_steady)
  refine .of_from fun session => .get ?_
  split
  · split
    · exact render _ _
    · rename_i custom known
      exact changeProfile_from fun policied => policied.custom _ known
  · exact changeProfile_from fun policied =>
      RefreshPolicyConfig.validate_switchedTo policied.valid _
  · have valid (policied : session.Policied) : RefreshPolicyConfig.validate
        { session.config.refreshPolicy with
          partialRefreshEnabled :=
            !session.config.refreshPolicy.partialRefreshEnabled } = .ok () :=
      policied.valid
    dsimp only
    split
    · rename_i hidden
      refine .modify ?_ ?_
      · refine lively_set rfl rfl rfl rfl valid ?_
        intro _ surface missing
        change surface ∈ session.surface at missing
        rw [hidden] at missing
        cases missing
      · exact render _ _
    · rename_i surface shown
      have isShown : session.surface.isSome = true := by rw [shown]; rfl
      exact .backed (fun _ _ runs => reconfigured valid isShown runs)
        (fun _ _ runs => reconfigure_failed isShown runs)
        fun _ _ _ => render _ _
  · exact .all (livelyOf localCleanup_steady)
  · refine .quiet (livelyOf leaveMenu_steady) fun _ _ => ?_
    exact .modify (lively_same rfl rfl) (.pure rfl)
  · refine .quiet (livelyOf leaveMenu_steady) fun _ _ => ?_
    exact .modify (lively_same rfl rfl) (.pure rfl)
  · exact .set (still_withMenu _ _).lively (render _ _)

theorem epaperProfileResult_steady {request : EpaperProfileRequest}
    {result : EpaperProfileResultCode} {active : RefreshPolicyConfig}
    {cleanupPerformed cleanupPending : Bool} {message : String} :
    steadily.Emits (epaperProfileResult request result active cleanupPerformed
      cleanupPending message) fun envelope => [envelope] :=
  wrap_steady ⟨rfl, rfl⟩

/-- The core takes over the settings the session already has. -/
theorem applyProfile_sets {current next : RefreshPolicyConfig} {now : Duration}
    {output : Except SessionError RefreshProfileChange}
    (runs : (applyProfile current next now).Runs before output after) :
    after.ledger = before.ledger ∧
      (next.validate = .ok () → ∀ surface ∈ after.surface,
        surface.core.settings = (next, next.damageTile)) := by
  unfold applyProfile at runs
  rw [Proc.runs_get_bind] at runs
  split at runs
  · rename_i surface shown
    have isShown : before.surface.isSome = true := by rw [shown]; rfl
    rcases Proc.runs_bind.mp runs with ⟨change, between, asks, runs⟩ |
      ⟨err, rfl, fails⟩
    · obtain ⟨same, sets⟩ := askCore_sets isShown asks
      rw [Proc.runs_modify_bind, Proc.runs_pure] at runs
      obtain ⟨_, rfl⟩ := runs
      exact ⟨same, sets⟩
    · exact askCore_sets isShown fails
  · rename_i hidden
    rw [Proc.runs_set_bind, Proc.runs_pure] at runs
    obtain ⟨_, isAfter⟩ := runs
    have same : after.surface = before.surface := by
      rw [isAfter]
      cases next != current <;> rfl
    refine ⟨?_, fun _ surface missing => ?_⟩
    · rw [isAfter]
      cases next != current <;> rfl
    · rw [same, hidden] at missing
      cases missing

theorem setProfile_from {session : Session} {request : EpaperProfileRequest}
    {next : RefreshPolicyConfig} {now : Duration}
    (valid : session.Policied → next.validate = .ok ()) :
    orderly.From session session [] (setProfile request next now) id := by
  refine .get (.ahead ?_ fun change between => ?_)
  · intro output after runs
    obtain ⟨same, sets⟩ := applyProfile_sets runs
    have ledger : after.ledger = (session.counters, session.overlaySequence,
        next, if next.profile = .custom then some next
          else session.lastCustomProfile) := same
    have custom : after.lastCustomProfile = if next.profile = .custom then
        some next else session.lastCustomProfile := congrArg (·.2.2.2) ledger
    refine orderly_set (congrArg (·.1) ledger) (congrArg (·.2.1) ledger)
      (congrArg (·.2.2.1) ledger) (fun policied => ?_) sets
    have isValid := valid policied
    rw [custom]
    refine ⟨isValid, ?_⟩
    split
    · rintro _ ⟨⟩
      exact isValid
    · exact policied.custom
  · refine .bind (orderlyOf (livelyOf terminalResults_steady)) fun _ _ => ?_
    exact .bind (orderlyOf (livelyOf epaperProfileResult_steady)) fun _ _ =>
      .pure rfl

theorem requestedConfig_valid {session : Session}
    {request : EpaperProfileRequest} {next : RefreshPolicyConfig}
    (valid : session.config.refreshPolicy.validate = .ok ())
    (accepts : session.requestedConfig request = .ok next) :
    next.validate = .ok () := by
  unfold requestedConfig at accepts
  split at accepts
  · cases accepts
  · split at accepts
    · cases accepts
    · split at accepts
      · cases accepts
      · rename_i custom _
        cases computed : customProfileConfig custom with
        | error message =>
            rw [computed] at accepts
            cases accepts
        | ok config =>
            rw [computed] at accepts
            cases accepts
            exact (customProfileConfig_spec computed).1
  · split at accepts
    · cases accepts
    · split at accepts
      · cases accepts
      · cases accepts
        exact RefreshPolicyConfig.validate_switchedTo valid _

theorem handleEpaperProfile_orderly {request : EpaperProfileRequest}
    {now : Duration} : orderly.Emits (handleEpaperProfile request now) id := by
  refine .of_from fun session => .get ?_
  have answers (between : Session) (result : EpaperProfileResultCode)
      (message : String) : orderly.From session between []
      (do return [← epaperProfileResult request result
        session.config.refreshPolicy false session.currentCleanupPending
        message]) id :=
    .bind (orderlyOf (livelyOf epaperProfileResult_steady)) fun _ _ => .pure rfl
  refine .ite (fun _ => answers _ _ _) fun _ =>
    .ite (fun _ => answers _ _ _) fun _ => ?_
  have counted : Lively session []
      { session with lastProfileRequestId := request.requestId } :=
    lively_same rfl rfl
  refine .set counted.toOrderly (.ite (fun _ => answers _ _ _) fun _ => ?_)
  refine .ite (fun _ => answers _ _ _) fun _ => ?_
  split
  · exact answers _ _ _
  · rename_i next accepts
    refine .whole (setProfile_from fun policied => ?_)
    exact requestedConfig_valid policied.valid accepts

theorem epaperRefreshResult_steady {request : EpaperRefreshRequest}
    {result : EpaperRefreshResultCode} {cleanupPerformed : Bool}
    {message : String} :
    steadily.Emits (epaperRefreshResult request result cleanupPerformed message)
      fun envelope => [envelope] :=
  .of_from fun _ => .get (.all (wrap_steady ⟨rfl, rfl⟩))

/-- A threshold that was checked keeps updated settings valid. -/
theorem updatedConfig_valid {config : RefreshPolicyConfig}
    {request : EpaperRefreshRequest} (valid : config.validate = .ok ())
    (checked : ¬ request.largeUpdateThresholdPercent.any (100 < ·) = true) :
    (updatedConfig config request).validate = .ok () := by
  obtain ⟨tile, threshold, named⟩ := RefreshPolicyConfig.validate_iff.mp valid
  refine RefreshPolicyConfig.validate_iff.mpr ⟨tile, ?_, named⟩
  unfold updatedConfig
  cases asked : request.largeUpdateThresholdPercent with
  | none => exact threshold
  | some percent => simpa [asked] using checked

/-- What an update answers, whether or not it changed the settings. -/
def answerUpdate (request : EpaperRefreshRequest) (changed : Bool) :
    SessionProc (List Envelope) := do
  return [← epaperRefreshResult request
    (if changed then .applied else .unchanged) false
    (if changed then "receiver refresh parameters applied"
      else "requested refresh parameters are already active")]

theorem answerUpdate_steady {request : EpaperRefreshRequest} {changed : Bool} :
    steadily.Emits (answerUpdate request changed) id :=
  .of_from fun _ => .bind epaperRefreshResult_steady fun _ _ => .pure rfl

theorem updateRefresh_from {session : Session} {request : EpaperRefreshRequest}
    {now : Duration}
    (checked : ¬ request.largeUpdateThresholdPercent.any (100 < ·) = true) :
    lively.From session session [] (updateRefresh request now) id := by
  have answers (between : Session) (changed : Bool) :
      lively.From session between [] (answerUpdate request changed) id :=
    .all (livelyOf answerUpdate_steady)
  have valid (policied : session.Policied) := updatedConfig_valid
    policied.valid checked
  refine .get ?_
  dsimp only
  split
  · rename_i hidden
    refine .after (.modify ?_ (answers _ _))
    refine lively_set rfl rfl rfl rfl valid fun _ surface missing => ?_
    change surface ∈ session.surface at missing
    rw [hidden] at missing
    cases missing
  · rename_i surface shown
    have isShown : session.surface.isSome = true := by rw [shown]; rfl
    change lively.From session session []
      (runCore now (fun _ => onCore .configured fun core =>
          core.updateRefreshConfig
            (updatedConfig session.config.refreshPolicy request)) >>=
        fun reply => Proc.modify (fun after => { after with
            config := { after.config with
              refreshPolicy :=
                updatedConfig session.config.refreshPolicy request } }) >>=
          fun _ => answerUpdate request (reply == .configured true)) id
    exact .backed (fun _ _ runs => reconfigured valid isShown runs)
      (fun _ _ runs => reconfigure_failed isShown runs)
      fun reply _ _ => answers _ (reply == .configured true)

theorem cleanupRefresh_steady {request : EpaperRefreshRequest}
    {now : Duration} :
    steadily.Emits (cleanupRefresh request now) id := by
  refine .of_from fun session =>
    .bind requestCleanup_steady fun reported _ => ?_
  exact .bind epaperRefreshResult_steady fun _ _ => .pure rfl

theorem handleEpaperRefresh_lively {request : EpaperRefreshRequest}
    {now : Duration} : lively.Emits (handleEpaperRefresh request now) id := by
  refine .of_from fun session => .get ?_
  have answers (between : Session) (result : EpaperRefreshResultCode)
      (message : String) : lively.From session between []
      (do return [← epaperRefreshResult request result false message]) id :=
    .bind (livelyOf epaperRefreshResult_steady) fun _ _ => .pure rfl
  refine .ite (fun _ => answers _ _ _) fun _ =>
    .ite (fun _ => answers _ _ _) fun _ => ?_
  refine .set (lively_same rfl rfl) ?_
  split
  · exact answers _ _ _
  · refine .ite (fun _ => answers _ _ _) fun checked => ?_
    exact .whole (updateRefresh_from checked)
  · exact .all (livelyOf cleanupRefresh_steady)
  · exact answers _ _ _

end

end Session

end RmDisplay.Receiver
