import RmDisplay.Receiver.FrameBase
import RmDisplay.Receiver.OverlayUpdates

/-!
# What becomes of a frame

A frame is answered at once and changes nothing of the surface, or all its
regions are applied and it is pending.  The core refuses a frame that was
decoded for the present surface only for its place in the sequence.
-/

namespace RmDisplay.Receiver

open Foundation Protocol RmDisplay.Core Core.DisplayCore

/-- A refused frame is answered with a verdict, and changes no more than the
bookkeeping of its envelopes. -/
structure FrameRefused (verdict : Session.Verdict) (before : Session)
    (frame : Frame) (answers : List Envelope) (after : Session) : Prop where
  code : verdict.result = .rejected ∨ verdict.result = .needKeyframe
  answered : bodies answers = [before.face.resultBody
    ⟨frame.surfaceId, frame.generation, frame.frameId⟩ verdict none]
  same : after = { before with
    nextOutgoingMessageId := after.nextOutgoingMessageId
    readings := after.readings
    journal := after.journal }

/-- A frame that was superseded is answered as such. -/
def SupersededAs (frameId : Nat) (body : Body) : Prop :=
  ∃ result, body = .frameResult result ∧ result.frameId = frameId ∧
    result.result = wire FrameResultCode.superseded

/-- The core after a frame was accepted. -/
structure CoreTakes (frame : Frame) (validated : ValidatedFrame)
    (before after : DisplayCore) : Prop where
  applied : before.base.applyRegionsAtomic validated.regions = .ok after.base
  pending : ∃ pending, after.pending = some pending ∧
    pending.frameId = frame.frameId
  same : after = { before with
    base := after.base
    baseValid := true
    logicalFrameId := frame.frameId
    pending := after.pending }

/-- An accepted frame is applied as a whole, and takes the place of the frame
that was pending. -/
structure FrameTaken (before : Session) (frame : Frame)
    (answers : List Envelope) (after : Session) : Prop where
  surfaces : ∃ surface validated core, before.surface = some surface ∧
    validateAndDecodeFrame before.codecs frame (before.surfaceState surface) =
      .ok validated ∧
    CoreTakes frame validated surface.core core ∧
    after.surface = some { surface with core } ∧
    List.Forall₂ SupersededAs (surface.core.pending.toList.map (·.frameId))
      (bodies answers)

namespace Session

variable {before after : Session} {frame : Frame}

/-- The envelope a body is sent in. -/
def sealed (self : Session) (body : Body) : Envelope :=
  ⟨self.sessionId, max self.nextOutgoingMessageId 1, some body⟩

theorem frameResult_runs (session : Session) (key : FrameKey)
    (verdict : Verdict) (metrics : Option PresentationMetrics) :
    (frameResult key verdict session.face.logicalFrameId
        session.face.presentedFrameId metrics).Runs session
      (.ok (session.sealed (session.face.resultBody key verdict metrics)))
      (session.wrapped (session.face.resultBody key verdict metrics)) := by
  rw [frameResult, Proc.runs_get_bind, Face.resultBody, credits_face,
    byteCredits_face]
  rfl

theorem told_wrapped (session : Session) (body : Body) :
    Told session (session.wrapped body) := rfl

theorem refuseFrame_runs {session : Session} {frame : Frame}
    {verdict : Verdict} {body : Body}
    (answers : body = session.face.resultBody
      ⟨frame.surfaceId, frame.generation, frame.frameId⟩ verdict none) :
    (refuseFrame frame verdict).Runs session (.ok [session.sealed body])
      ((session.note (.refused frame)).wrapped body) := by
  rw [answers, refuseFrame, Proc.runs_modify_bind, Proc.runs_bind]
  refine .inl ⟨_, _, ?_, Proc.runs_pure.mpr ⟨rfl, rfl⟩⟩
  rw [immediateFrameResult, Proc.runs_get_bind, surfaceIds_face]
  exact frameResult_runs (session.note (.refused frame)) _ _ _

theorem terminalResult_runs (session : Session) (terminal : TerminalFrame) :
    (terminalResult terminal).Runs session
      (.ok (session.sealed (session.face.terminalBody terminal)))
      (session.wrapped (session.face.terminalBody terminal)) := by
  rw [terminalResult, Proc.runs_get_bind, surfaceIds_face, ← inkFrozen_face]
  exact frameResult_runs session _ _ _

theorem terminalResults_superseded (session : Session)
    (replaced : Option PendingPresentation) (now : Duration) :
    ∃ answers after,
      (terminalResults (replaced.map (supersededTerminal now)).toList).Runs
        session (.ok answers) after ∧
      Told session after ∧
      List.Forall₂ SupersededAs (replaced.toList.map (·.frameId))
        (bodies answers) := by
  cases replaced with
  | none => exact ⟨[], session, rfl, rfl, .nil⟩
  | some old =>
      have runs := terminalResult_runs session (supersededTerminal now old)
      refine ⟨[session.sealed (session.face.terminalBody
        (supersededTerminal now old))], _, ?_, told_wrapped session
          (session.face.terminalBody (supersededTerminal now old)), ?_⟩
      · rw [Option.map_some, Option.toList_some, terminalResults, Proc.gather,
          bind_assoc, Proc.runs_bind]
        exact .inl ⟨_, _, runs, rfl⟩
      · exact .cons ⟨_, rfl, rfl, rfl⟩ .nil

theorem semanticResult_code (err : SemanticError) :
    (semanticResult err).result = .rejected ∨
      (semanticResult err).result = .needKeyframe := by
  cases err with
  | badBase _ _ => exact .inr rfl
  | _ => exact .inl rfl

theorem commitResult_code (err : CoreError) :
    (commitResult err).result = .rejected ∨
      (commitResult err).result = .needKeyframe := by
  cases err with
  | needKeyframe => exact .inr rfl
  | _ => exact .inl rfl

theorem admitFrame_code {session : Session} {frame : Frame}
    {verdict : Verdict} (refuses : session.admitFrame frame = .error verdict) :
    verdict.result = .rejected ∨ verdict.result = .needKeyframe := by
  unfold admitFrame at refuses
  repeat' split at refuses
  any_goals cases refuses
  any_goals exact .inl rfl
  exact semanticResult_code _

theorem refuseFrame_outcome (session : Session) (frame : Frame)
    (readings : Nat) {verdict : Verdict}
    (code : verdict.result = .rejected ∨ verdict.result = .needKeyframe) :
    ∃ answers after, (refuseFrame frame verdict).Runs
        { session with readings } (.ok answers) after ∧
      FrameRefused verdict session frame answers after :=
  ⟨_, _, refuseFrame_runs rfl, ⟨code, rfl, rfl⟩⟩

theorem validates_of_admitFrame {session : Session} {frame : Frame}
    {surface : ActiveSurface} {validated : ValidatedFrame}
    (admits : session.admitFrame frame = .ok (surface, validated)) :
    validateAndDecodeFrame session.codecs frame (session.surfaceState surface) =
      .ok validated := by
  unfold admitFrame at admits
  grind

theorem coreTakes_of_commit {session : Session} {frame : Frame}
    {surface : ActiveSurface} {validated : ValidatedFrame}
    {contentClass : ContentClass} {timing : Timing} {decodeUs : Nat}
    {report : CommitReport} {core : DisplayCore}
    (decodes : Decodes frame (session.surfaceState surface) validated)
    (commits : surface.core.commitTimed validated contentClass timing
      decodeUs = .ok (report, core)) :
    CoreTakes frame validated surface.core core ∧
      report.superseded =
        surface.core.pending.map (supersededTerminal timing.now) := by
  obtain ⟨_, _, _, _, rfl, base, applied, rfl⟩ := commitTimed_eq_ok commits
  refine ⟨⟨applied, ⟨_, rfl, decodes.frameId⟩, ?_⟩, rfl⟩
  rw [decodes.frameId]

theorem readStopwatch_bind {α : Type} {next : Stopwatch → SessionProc α}
    {before after : Session} {output : Except SessionError α} :
    (readStopwatch >>= next).Runs before output after ↔
      (next (before.stopwatch before.readings)).Runs
        { before with readings := before.readings + 1 } output after := Iff.rfl

theorem acceptFrame_unadmitted {session : Session} {frame : Frame}
    {verdict : Verdict} (refuses : session.admitFrame frame = .error verdict)
    (now : Duration) :
    ∃ answers after, (acceptFrame frame now).Runs session (.ok answers)
        after ∧ FrameRefused verdict session frame answers after := by
  obtain ⟨answers, after, runs, refused⟩ := refuseFrame_outcome session
    frame session.readings (admitFrame_code refuses)
  refine ⟨answers, after, ?_, refused⟩
  rw [acceptFrame, Proc.runs_get_bind, refuses]
  exact runs

/-- The call of the core for an admitted frame. -/
def commitFrame (self : Session) (frame : Frame) (surface : ActiveSurface)
    (validated : ValidatedFrame) (now : Duration) :
    Res CoreError (CommitReport × DisplayCore) :=
  surface.core.commitTimed validated (contentClass frame.contentClass)
    ((self.stopwatch self.readings).timing now)
    (durationUs (self.stopwatch self.readings).decodeElapsed)

theorem acceptFrame_uncommitted {session : Session} {frame : Frame}
    {surface : ActiveSurface} {validated : ValidatedFrame} {now : Duration}
    {err : CoreError}
    (admits : session.admitFrame frame = .ok (surface, validated))
    (refuses : session.commitFrame frame surface validated now =
      .error err) :
    ∃ answers after, (acceptFrame frame now).Runs session (.ok answers)
        after ∧
      FrameRefused (commitResult err) session frame answers after := by
  obtain ⟨answers, after, runs, refused⟩ := refuseFrame_outcome session
    frame (session.readings + 1) (commitResult_code err)
  refine ⟨answers, after, ?_, refused⟩
  unfold commitFrame at refuses
  rw [acceptFrame, Proc.runs_get_bind, admits]
  dsimp only
  rw [readStopwatch_bind, refuses]
  exact runs

theorem acceptFrame_committed {session : Session} {frame : Frame}
    {surface : ActiveSurface} {validated : ValidatedFrame} {now : Duration}
    {report : CommitReport} {core : DisplayCore}
    (admits : session.admitFrame frame = .ok (surface, validated))
    (commits : session.commitFrame frame surface validated now =
      .ok (report, core)) :
    ∃ answers after, (acceptFrame frame now).Runs session (.ok answers)
        after ∧ FrameTaken session frame answers after := by
  have admitted := admits_of_admitFrame admits
  obtain ⟨takes, superseded⟩ := coreTakes_of_commit admitted.decodes commits
  obtain ⟨answers, after, tells, told, answered⟩ := terminalResults_superseded
    { ({ session with readings := session.readings + 1 } : Session).note
        (.accepted frame validated) with
      surface := some { surface with core } } surface.core.pending
    ((session.stopwatch session.readings).timing now).now
  rw [← superseded] at tells
  unfold commitFrame at commits
  refine ⟨answers, after, ?_, ⟨surface, validated, core, admitted.active,
    validates_of_admitFrame admits, takes, ?_, answered⟩⟩
  · rw [acceptFrame, Proc.runs_get_bind, admits]
    dsimp only
    rw [readStopwatch_bind, commits]
    exact tells
  · unfold Told at told
    rw [told]

/-- Every frame is refused or taken. -/
theorem acceptFrame_outcome (session : Session) (frame : Frame)
    (now : Duration) :
    ∃ answers after, (acceptFrame frame now).Runs session (.ok answers)
        after ∧
      ((∃ verdict, FrameRefused verdict session frame answers after) ∨
        FrameTaken session frame answers after) := by
  cases admission : session.admitFrame frame with
  | error verdict =>
      obtain ⟨answers, after, runs, refused⟩ :=
        acceptFrame_unadmitted admission now
      exact ⟨answers, after, runs, .inl ⟨verdict, refused⟩⟩
  | ok admitted =>
      obtain ⟨surface, validated⟩ := admitted
      have decodes := (admits_of_admitFrame admission).decodes
      have refuses {err : CoreError} (refusal : session.commitFrame frame
          surface validated now = .error err) :
          ∃ answers after, (acceptFrame frame now).Runs session (.ok answers)
              after ∧
            ((∃ verdict, FrameRefused verdict session frame answers after) ∨
              FrameTaken session frame answers after) := by
        obtain ⟨answers, after, runs, refused⟩ :=
          acceptFrame_uncommitted admission refusal
        exact ⟨answers, after, runs, .inl ⟨_, refused⟩⟩
      rcases commitTimed_of_decodes decodes (contentClass frame.contentClass)
        ((session.stopwatch session.readings).timing now)
        (durationUs (session.stopwatch session.readings).decodeElapsed) with
        ⟨report, core, commits⟩ | ⟨settled, _⟩ | ⟨offBase, _⟩
      · obtain ⟨answers, after, runs, taken⟩ :=
          acceptFrame_committed admission commits
        exact ⟨answers, after, runs, .inr taken⟩
      · exact refuses settled
      · exact refuses offBase

end Session

/-- The base of a session is the replay of the frames it accepted. -/
theorem SessionRun.replayed {setup : SessionSetup}
    {history : List SessionEvent} {final : Session}
    (run : SessionRun setup history final) :
    Replayed final.face.frameView (entriesOf history) := by
  have holds := run.keepsAlways (fun face =>
      Replayed face.frameView (face.journal.map (·.entry)))
    (fun _ isShown => nomatch isShown) fun step _ holds => by
      obtain ⟨_, _, moves⟩ := step.frames
      rw [step.journal]
      exact moves.replayed holds
  rw [← run.journal]
  exact holds

/-- In every session a frame is taken as a whole or refused without a trace, a
decoded frame is refused by the core only for its place in the sequence, and a
valid base is the last keyframe with all later deltas. -/
theorem frameBase_of_run {setup : SessionSetup}
    {history : List SessionEvent} {final : Session}
    (run : SessionRun setup history final) :
    (∀ (frame : Frame) (now : Duration), ∃ answers after,
      (Session.acceptFrame frame now).Runs final (.ok answers) after ∧
        ((∃ verdict, FrameRefused verdict final frame answers after) ∨
          FrameTaken final frame answers after)) ∧
    ∀ surface, final.surface = some surface →
      (∀ frame validated, validateAndDecodeFrame final.codecs frame
          (final.surfaceState surface) = .ok validated →
        ∀ contentClass timing decodeUs,
          (∃ report core, surface.core.commitTimed validated contentClass
            timing decodeUs = .ok (report, core)) ∨
          surface.core.commitTimed validated contentClass timing decodeUs =
            .error .settledBarrier ∨
          surface.core.commitTimed validated contentClass timing decodeUs =
            .error .needKeyframe) ∧
      (surface.core.baseValid = true → ∀ blank : PixelSurface,
        blank.shape = surface.core.base.shape →
          replayBase blank (acceptedHere (entriesOf history)) =
            .ok surface.core.base) := by
  refine ⟨Session.acceptFrame_outcome final, ?_⟩
  intro surface active
  refine ⟨?_, ?_⟩
  · intro frame validated validates contentClass timing decodeUs
    rcases Session.commitTimed_of_decodes (decodes_of_validate validates)
      contentClass timing decodeUs with takes | ⟨settled, _⟩ | ⟨offBase, _⟩
    · exact .inl takes
    · exact .inr (.inl settled)
    · exact .inr (.inr offBase)
  · intro valid
    refine run.replayed surface.frameView ?_ valid
    rw [frameView_face, active, Option.map_some]

/-- A keyframe and a delta, with ticks between them and after them. -/
theorem frameBase_of_delta :
    ∃ setup history final surface blank, SessionRun setup history final ∧
      final.surface = some surface ∧ surface.core.baseValid = true ∧
      (acceptedHere (entriesOf history)).map (·.frameId) = [2, 1] ∧
      replayBase blank (acceptedHere (entriesOf history)) =
        .ok surface.core.base := by
  have ran := @SessionSetup.ran (.gray 1 1 (fun _ => true)
      fun _ => some ⟨0, 0, 2⟩)
    [grayMessage 4 (grayFrame 1 1 2 1 .latest ⟨0, 0, 1, 1⟩ [7]) (.ofSecs 3),
      grayMessage 3 (grayFrame 1 1 1 0 .settled ⟨0, 0, 1, 1⟩ [9]) (.ofSecs 2),
      grayMessage 2 (grayOpen 1 []) (.ofSecs 1),
      grayMessage 1 (.clientHello (grayHello [.byteCredits])) 1]
    (fun history final =>
      final.surface.any (fun surface => surface.core.baseValid) &&
        (acceptedHere (entriesOf history)).map (·.frameId) == [2, 1])
    (by decide +kernel)
  obtain ⟨history, final, run, checked⟩ := ran
  rw [Bool.and_eq_true, Option.any_eq_true, beq_iff_eq] at checked
  obtain ⟨⟨surface, active, valid⟩, accepted⟩ := checked
  exact ⟨_, history, final, surface, surface.core.base, run, active, valid,
    accepted, ((frameBase_of_run run).2 surface active).2 valid _ rfl⟩

end RmDisplay.Receiver
