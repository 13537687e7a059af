import RmDisplay.Link.BaseAgreement
import RmDisplay.Receiver.FrameOutcomes

/-!
# What becomes of a producer's frames

A session takes a frame of its producer as a whole, and its base then has the
pixels that were passed for the frame; or it answers the frame and changes
nothing.  So a delta is only ever applied to the picture that it was computed
from.
-/

namespace RmDisplay.Link

open Foundation Protocol RmDisplay.Core Core.DisplayCore Producer Receiver

/-- The session that handles the body of an envelope. -/
def heading (session : Session) (envelope : Envelope) : Session :=
  { session with lastIncomingMessageId := envelope.messageId }

/-- A frame is taken on the base it was made for, and the base then has its
pixels. -/
structure TakenAsPassed (made : List ClientEvent) (before : Session)
    (frame : Frame) (answers : List Envelope) (after : Session) : Prop where
  taken : FrameTaken before frame answers after
  onBase : frame.baseFrameId ≠ 0 → ∀ surface, before.surface = some surface →
    passed made frame.baseFrameId = some surface.core.base.pixels
  pixels : ∀ surface, after.surface = some surface →
    passed made frame.frameId = some surface.core.base.pixels

theorem unchanged_of_refused {session after : Session} {envelope : Envelope}
    {refusal : SessionError}
    (refused : (Session.validateEnvelopeHeader envelope).Runs session
      (.error refusal) after) : after = session := by
  unfold Session.validateEnvelopeHeader at refused
  rw [Proc.runs_get_bind] at refused
  split at refused
  · exact (Proc.runs_throw.mp refused).2
  · split at refused
    · exact (Proc.runs_throw.mp refused).2
    · cases (Proc.runs_set.mp refused).1

theorem heading_of_checked {session middle : Session} {envelope : Envelope}
    {done : Unit}
    (checked : (Session.validateEnvelopeHeader envelope).Runs session (.ok done)
      middle) : middle = heading session envelope := by
  unfold Session.validateEnvelopeHeader at checked
  rw [Proc.runs_get_bind] at checked
  split at checked
  · cases (Proc.runs_throw.mp checked).1
  · split at checked
    · cases (Proc.runs_throw.mp checked).1
    · exact (Proc.runs_set.mp checked).2

/-- The envelope of a frame is turned down, or the frame is handled. -/
theorem acceptFrame_of_handleInner {session after : Session}
    {envelope : Envelope} {now : Duration} {pollAfter : Bool}
    {output : Except SessionError (List Envelope)} {frame : Frame}
    (greeted : session.established = true)
    (isFrame : envelope.body = some (.frame frame))
    (runs : (Session.handleInner envelope now pollAfter).Runs session output
      after) :
    (∃ refusal, output = .error refusal ∧
        (Session.validateEnvelopeHeader envelope).Runs session (.error refusal)
          after ∧ after = session) ∨
      ∃ taken middle, (Session.acceptFrame frame now).Runs
          (heading session envelope) taken middle ∧
        ∀ responses, output = .ok responses →
          ∃ answers, taken = .ok answers ∧ answers <+: responses := by
  rcases Proc.runs_bind.mp runs with
    ⟨_, middle, checked, runs⟩ | ⟨refusal, failed, checked⟩
  · right
    have headed := heading_of_checked checked
    subst headed
    rw [Proc.runs_get_bind] at runs
    simp only [isFrame] at runs
    rw [if_pos (show (heading session envelope).established = true from
      greeted)] at runs
    rcases Proc.runs_bind.mp runs with
      ⟨answers, taken, accepts, runs⟩ | ⟨refusal, failed, accepts⟩
    · refine ⟨_, taken, accepts, fun responses returned => ⟨answers, rfl, ?_⟩⟩
      subst returned
      split at runs
      · rcases Proc.runs_bind.mp runs with ⟨_, _, _, finished⟩ | ⟨_, failed, _⟩
        · cases (Proc.runs_pure.mp finished).1
          exact List.prefix_append _ _
        · cases failed
      · cases (Proc.runs_pure.mp runs).1
        exact List.prefix_refl _
    · refine ⟨_, after, accepts, fun responses returned => ?_⟩
      cases failed.symm.trans returned
  · exact .inl ⟨refusal, failed, checked, unchanged_of_refused checked⟩

/-- A frame that carries what was passed for it is taken as it was passed, or
refused. -/
theorem takenAsPassed_of_carries {made : List ClientEvent} {surface : Surface}
    {before : Session} {frame : Frame} (now : Duration)
    (carries : ∀ state validated,
      validateAndDecodeFrame before.codecs frame state = .ok validated →
      Carries made surface validated)
    (spans : Spans surface before.face.frameView)
    (shows : ∀ shown ∈ before.face.frameView,
      ShowsPassed made surface shown.state) :
    ∃ answers after,
      (Session.acceptFrame frame now).Runs before (.ok answers) after ∧
        ((∃ verdict, FrameRefused verdict before frame answers after) ∨
          TakenAsPassed made before frame answers after) := by
  cases admission : before.admitFrame frame with
  | error verdict =>
      obtain ⟨answers, after, runs, refused⟩ :=
        Session.acceptFrame_unadmitted admission now
      exact ⟨answers, after, runs, .inl ⟨verdict, refused⟩⟩
  | ok admitted =>
      obtain ⟨active, validated⟩ := admitted
      have admits := Session.admits_of_admitFrame admission
      have valid := Session.validates_of_admitFrame admission
      rcases Session.commitTimed_of_decodes admits.decodes
        (Session.contentClass frame.contentClass)
        ((before.stopwatch before.readings).timing now)
        (durationUs (before.stopwatch before.readings).decodeElapsed) with
        ⟨report, core, commits⟩ | ⟨settled, _⟩ | ⟨offBase, _⟩
      · obtain ⟨answers, after, runs, taken⟩ :=
          Session.acceptFrame_committed admission commits
        obtain ⟨base, _, accepts, _, _⟩ := accepts_of_admits admission commits
        have isShown : active.frameView ∈ before.face.frameView := by
          rw [frameView_face, admits.active]
          rfl
        have shown := shows _ isShown
        have isPassed := shows_of_accepts accepts (spans _ isShown)
          (carries _ _ valid) shown.base
        refine ⟨answers, after, runs, .inr ⟨taken, ?_, ?_⟩⟩
        · intro isDelta other isOther
          cases isOther.symm.trans admits.active
          rw [← admits.decodes.baseFrameId] at isDelta ⊢
          obtain ⟨baseValid, onBase⟩ := accepts.onBase.resolve_left isDelta
          rw [onBase]
          exact (shown.base baseValid).pixels
        · intro next isNext
          obtain ⟨old, decoded, now, isOld, decodes, takes, isAfter, _⟩ :=
            taken.surfaces
          cases isOld.symm.trans admits.active
          cases decodes.symm.trans valid
          cases isNext.symm.trans isAfter
          have sameBase := takes.applied.symm.trans accepts.applied
          cases sameBase
          rw [← accepts.sameId]
          exact isPassed.pixels
      · obtain ⟨answers, after, runs, refused⟩ :=
          Session.acceptFrame_uncommitted admission settled
        exact ⟨answers, after, runs, .inl ⟨_, refused⟩⟩
      · obtain ⟨answers, after, runs, refused⟩ :=
          Session.acceptFrame_uncommitted admission offBase
        exact ⟨answers, after, runs, .inl ⟨_, refused⟩⟩

theorem Linked.greeted {setup : SessionSetup} {start client : ProducerClient}
    {surface : Surface} {made : List ClientEvent}
    {history : List SessionEvent} {session : Session}
    (linked : Linked setup start surface made client history session) :
    session.established = true := by
  obtain ⟨_, _, _, announced, _⟩ := linked.calls
  exact (linked.serves.terms.2 _ announced).1

/-- The operation hands an envelope to the session. -/
def Delivers (envelope : Envelope) (now : Duration) (op : SessionOp) : Prop :=
  op = .handle envelope now ∨ op = .handleDeferred envelope now

section

variable {event : SessionEvent} {envelope : Envelope} {frame : Frame}
  {now : Duration}

theorem handleInner_of_delivers (delivers : Delivers envelope now event.input)
    (stepped : sessionStep event.before event.input event.output event.after) :
    ∃ pollAfter, (Session.handleInner envelope now pollAfter).Runs event.before
      event.output event.after := by
  rcases delivers with isOp | isOp
  · rw [isOp] at stepped
    exact ⟨true, stepped⟩
  · rw [isOp] at stepped
    exact ⟨false, stepped⟩

theorem frames_of_delivers {left : Owed} (acts : Acts event left)
    (succeeds : event.Succeeds) (delivers : Delivers envelope now event.input)
    (isFrame : envelope.body = some (.frame frame)) :
    event.written.filterMap (·.frame) = [frame] := by
  have brought : (envelope.body.bind bodyFrame).toList = [frame] := by
    rw [isFrame]
    rfl
  rw [acts.frames succeeds]
  rcases delivers with isOp | isOp
  · rw [isOp]
    exact brought
  · rw [isOp]
    exact brought

/-- No surface is opened by a frame. -/
theorem stays_of_delivers {left : Owed} (acts : Acts event left)
    (succeeds : event.Succeeds) (delivers : Delivers envelope now event.input)
    (isFrame : envelope.body = some (.frame frame)) :
    ∀ entry ∈ event.written, entry.opens = false := by
  have still : (event.before.opReach event.input).moves = false := by
    have reach : (event.before.envelopeReach envelope now).moves = false := by
      unfold Session.envelopeReach
      rw [isFrame]
      split <;> rfl
    rcases delivers with isOp | isOp
    · rw [isOp]
      exact reach
    · rw [isOp]
      exact reach
  intro entry member
  have allowed := (acts.within succeeds).allowed entry member
  cases entry with
  | opened =>
      have moves : (event.before.opReach event.input).moves = true := allowed
      rw [still] at moves
      cases moves
  | _ => rfl

end

/-- The entries of a run up to an operation on the surface. -/
theorem entriesOf_split {history newer older : List SessionEvent}
    {event : SessionEvent} (split : history = newer ++ event :: older) :
    entriesOf history =
      (event.written ++ (entriesOf newer).reverse).reverse ++
        entriesOf older := by
  rw [split, entriesOf, List.flatMap_append, List.flatMap_cons,
    List.reverse_append, List.reverse_reverse, List.append_assoc]
  rfl

theorem chronicle_split {history newer older : List SessionEvent}
    {event : SessionEvent} (split : history = newer ++ event :: older)
    (stays : ∀ entry ∈ entriesOf newer, entry.opens = false)
    (still : ∀ entry ∈ event.written, entry.opens = false) :
    chronicle (entriesOf history) = chronicle (entriesOf older) ++
      (event.written ++ (entriesOf newer).reverse) := by
  rw [entriesOf_split split]
  apply chronicle_append
  intro entry isEntry
  rcases List.mem_append.mp isEntry with now | later
  · exact still entry now
  · exact stays entry (List.mem_reverse.mp later)

/-- An operation of a run since the surface was opened, or the next one, which
is given the next frame in flight. -/
inductive Handed (client : ProducerClient) (history : List SessionEvent)
    (session : Session) (frame : Frame) : SessionEvent → Prop
  | past {newer older : List SessionEvent} {event : SessionEvent}
      (split : history = newer ++ event :: older)
      (stays : ∀ entry ∈ entriesOf newer, entry.opens = false) :
      Handed client history session frame event
  | next {event : SessionEvent} (here : event.before = session)
      (stepped : sessionStep event.before event.input event.output event.after)
      (inFlight : (chronicle (entriesOf history)).filterMap (·.frame) ++ [frame]
        <+: sentFrames client.journal) :
      Handed client history session frame event

/-- A frame is taken as it was passed, or refused without a trace; its envelope
may be turned down before. -/
inductive Agrees (made : List ClientEvent) (event : SessionEvent)
    (envelope : Envelope) (frame : Frame) (now : Duration) : Prop
  | turnedDown {refusal : SessionError} (failed : event.output = .error refusal)
      (refused : (Session.validateEnvelopeHeader envelope).Runs event.before
        (.error refusal) event.after) (same : event.after = event.before)
  | handled {answers : List Envelope} {middle : Session}
      (runs : (Session.acceptFrame frame now).Runs
        (heading event.before envelope) (.ok answers) middle)
      (returned : event.Succeeds → answers <+: event.envelopes)
      (outcome : (∃ verdict, FrameRefused verdict
          (heading event.before envelope) frame answers middle) ∨
        TakenAsPassed made (heading event.before envelope) frame answers middle)

theorem agrees_of_settles {made : List ClientEvent} {event : SessionEvent}
    {envelope : Envelope} {frame : Frame} {now : Duration}
    (greeted : event.before.established = true)
    (delivers : Delivers envelope now event.input)
    (stepped : sessionStep event.before event.input event.output event.after)
    (isFrame : envelope.body = some (.frame frame))
    (settles : ∃ answers middle, (Session.acceptFrame frame now).Runs
        (heading event.before envelope) (.ok answers) middle ∧
      ((∃ verdict, FrameRefused verdict (heading event.before envelope) frame
          answers middle) ∨
        TakenAsPassed made (heading event.before envelope) frame answers
          middle)) : Agrees made event envelope frame now := by
  obtain ⟨pollAfter, runs⟩ := handleInner_of_delivers delivers stepped
  rcases acceptFrame_of_handleInner greeted isFrame runs with
    ⟨refusal, failed, refused, same⟩ | ⟨taken, middle, accepts, returns⟩
  · exact .turnedDown failed refused same
  · obtain ⟨answers, other, settles, outcome⟩ := settles
    obtain ⟨rfl, rfl⟩ : taken = .ok answers ∧ middle = other := by
      cases taken with
      | ok value =>
          cases accepts.symm.trans settles
          exact ⟨rfl, rfl⟩
      | error refusal => cases accepts.symm.trans settles
    refine .handled settles ?_ outcome
    rintro ⟨responses, returned⟩
    obtain ⟨same, isTaken, isFront⟩ := returns responses returned
    cases isTaken
    rw [SessionEvent.envelopes, returned]
    exact isFront

namespace Linked

variable {setup : SessionSetup} {start client : ProducerClient}
  {surface : Surface} {made : List ClientEvent} {history : List SessionEvent}
  {session : Session} {event : SessionEvent} {envelope : Envelope}
  {frame : Frame} {now : Duration}

/-- A frame of the client is handled as it should be after a run that has done
so. -/
theorem agrees_of_run
    (linked : Linked setup start surface made client history session)
    (inverts : Inverts setup.codecs start.compress)
    (disciplined : Disciplined made) (onSurface : OnSurface surface made)
    {older : List SessionEvent} (run : SessionRun setup older event.before)
    (told : ∀ entry ∈ entriesOf older, OpensSpanning surface entry)
    (carry : AllCarry made surface (entriesOf older))
    (sent : frame ∈ sentFrames client.journal)
    (greeted : event.before.established = true)
    (stepped : sessionStep event.before event.input event.output event.after)
    (isFrame : envelope.body = some (.frame frame))
    (delivers : Delivers envelope now event.input) :
    Agrees made event envelope frame now := by
  have showing : Showing made surface (entriesOf older)
      event.before.face.frameView := showing_of_run run told
  obtain ⟨⟨sameCodecs, _⟩, _⟩ := run.terms
  refine agrees_of_settles greeted delivers stepped isFrame
    (takenAsPassed_of_carries now ?_ showing.spans (showing.shows carry))
  intro state validated valid
  have valid : validateAndDecodeFrame event.before.codecs frame state =
      .ok validated := valid
  rw [sameCodecs] at valid
  exact linked.carries inverts disciplined onSurface sent valid

theorem agrees_past
    (linked : Linked setup start surface made client history session)
    (inverts : Inverts setup.codecs start.compress)
    (disciplined : Disciplined made) (onSurface : OnSurface surface made)
    {newer older : List SessionEvent}
    (split : history = newer ++ event :: older)
    (stays : ∀ entry ∈ entriesOf newer, entry.opens = false)
    (isFrame : envelope.body = some (.frame frame))
    (delivers : Delivers envelope now event.input) :
    Agrees made event envelope frame now := by
  have member : event ∈ history := by
    rw [split]
    exact List.mem_append_right _ List.mem_cons_self
  obtain ⟨left, acts⟩ := linked.serves.acts_of_mem member
  have succeeds := linked.succeeds event member
  have chronicled := chronicle_split split stays
    (stays_of_delivers acts succeeds delivers isFrame)
  refine linked.agrees_of_run inverts disciplined onSurface
    (linked.serves.before_of_split split) ?_ ?_ ?_ ?_ acts.stepped isFrame
    delivers
  · intro entry isEntry
    apply linked.opensSpanning
    rw [entriesOf_split split]
    exact List.mem_append_right _ isEntry
  · intro other validated isTaken
    apply linked.allCarry inverts disciplined onSurface other validated
    rw [chronicled]
    exact List.mem_append_left _ isTaken
  · apply linked.handled.subset
    rw [chronicled, List.filterMap_append, List.filterMap_append,
      frames_of_delivers acts succeeds delivers isFrame]
    simp
  · obtain ⟨pollAfter, runs⟩ := handleInner_of_delivers delivers acts.stepped
    obtain ⟨responses, returned⟩ := succeeds
    rw [returned] at runs
    exact handleInner_greeted acts.sound runs isFrame

theorem agrees_next
    (linked : Linked setup start surface made client history session)
    (inverts : Inverts setup.codecs start.compress)
    (disciplined : Disciplined made) (onSurface : OnSurface surface made)
    (here : event.before = session)
    (stepped : sessionStep event.before event.input event.output event.after)
    (inFlight : (chronicle (entriesOf history)).filterMap (·.frame) ++ [frame]
      <+: sentFrames client.journal)
    (isFrame : envelope.body = some (.frame frame))
    (delivers : Delivers envelope now event.input) :
    Agrees made event envelope frame now := by
  subst here
  refine linked.agrees_of_run inverts disciplined onSurface linked.serves
    linked.opensSpanning (linked.allCarry inverts disciplined onSurface) ?_
    linked.greeted stepped isFrame delivers
  exact inFlight.subset (List.mem_append_right _ (List.mem_singleton_self _))

end Linked

/-- While the session is open and no operation of it has failed: however the two
sides take turns, every frame that is handled on the surface is taken on the
base that it was made for, which then has the pixels that were passed for it, or
it is refused and leaves no trace.  The same is true of the next frame, even if
its operation fails. -/
theorem framesAgree_of_linked {setup : SessionSetup}
    {start client : ProducerClient} {surface : Surface}
    {made : List ClientEvent} {history : List SessionEvent}
    {session : Session} {event : SessionEvent} {envelope : Envelope}
    {frame : Frame} {now : Duration}
    (linked : Linked setup start surface made client history session)
    (inverts : Inverts setup.codecs start.compress)
    (disciplined : Disciplined made) (onSurface : OnSurface surface made)
    (handed : Handed client history session frame event)
    (isFrame : envelope.body = some (.frame frame))
    (delivers : Delivers envelope now event.input) :
    Agrees made event envelope frame now := by
  cases handed with
  | past split stays =>
      exact linked.agrees_past inverts disciplined onSurface split stays isFrame
        delivers
  | next here stepped inFlight =>
      exact linked.agrees_next inverts disciplined onSurface here stepped
        inFlight isFrame delivers

/-- The operation returns envelopes. -/
def returns (session : Session) (op : SessionOp) : Bool :=
  match op.run session with
  | .ok _ _ => true
  | .error _ _ | .panic => false

theorem stepped_of_returns {session : Session} {op : SessionOp}
    (isReturned : returns session op = true) :
    ∃ envelopes after, sessionStep session op (.ok envelopes) after := by
  unfold returns at isReturned
  split at isReturned
  · rename_i envelopes after ran
    exact ⟨envelopes, after, ran⟩
  · cases isReturned
  · cases isReturned

/-- A delta is in flight to a session that shows its base. -/
theorem framesAgree_of_smallRuns :
    ∃ surface made client history session event frame,
      Linked smallReceiver (smallProducer (resultsOf smallReceiver smallOps))
        surface made client history session ∧
      Handed client history session frame event ∧
      event.input = grayMessage 4 (.frame frame) (.ofSecs 3) ∧
      frame.frameId = 2 ∧ event.Succeeds ∧ passed made 2 = some [10, 30] ∧
      Agrees made event ⟨1, 4, some (.frame frame)⟩ frame (.ofSecs 3) := by
  obtain ⟨frame, isFrame, isSecond⟩ : ∃ frame : Frame,
      grayFrame 1 1 2 1 .latest ⟨1, 0, 1, 1⟩ [30] = .frame frame ∧
        frame.frameId = 2 := ⟨_, rfl, rfl⟩
  have runs : dialogueRuns smallReceiver smallOps.tail
      (smallProducer (resultsOf smallReceiver smallOps)) smallCalls.tail
      [false, false, true, false, false, true, true]
      (fun surface made client history session =>
        decide (Disciplined made) && decide (OnSurface surface made) &&
          passed made 2 == some [10, 30] &&
          (bodyFrame (grayFrame 1 1 2 1 .latest ⟨1, 0, 1, 1⟩ [30])).any
            (fun frame => ((chronicle (entriesOf history)).filterMap (·.frame)
              ++ [frame]).isPrefixOf (sentFrames client.journal)) &&
          returns session (grayMessage 4
            (grayFrame 1 1 2 1 .latest ⟨1, 0, 1, 1⟩ [30]) (.ofSecs 3))) =
      true := by decide +kernel
  obtain ⟨surface, made, client, history, session, linked, checked⟩ :=
    Linked.ran runs
  rw [isFrame] at checked
  simp only [Bool.and_eq_true, decide_eq_true_eq, beq_iff_eq, bodyFrame,
    Option.any_some, List.isPrefixOf_iff_prefix] at checked
  obtain ⟨⟨⟨⟨disciplined, onSurface⟩, isPassed⟩, inFlight⟩, isReturned⟩ :=
    checked
  obtain ⟨envelopes, after, stepped⟩ := stepped_of_returns isReturned
  have handed : Handed client history session frame
      ⟨session, grayMessage 4 (.frame frame) (.ofSecs 3), .ok envelopes,
        after⟩ := .next rfl stepped inFlight
  exact ⟨surface, made, client, history, session, _, frame, linked, handed, rfl,
    isSecond, ⟨envelopes, rfl⟩, isPassed,
    framesAgree_of_linked linked storedCodecs_inverts disciplined onSurface
      handed rfl (.inl rfl)⟩

end RmDisplay.Link
