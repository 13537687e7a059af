import RmDisplay.Foundation.Channels
import RmDisplay.Producer.ClientBases
import RmDisplay.Producer.DeltaRoundTrip
import RmDisplay.Receiver.ResultOrder
import RmDisplay.Receiver.Terms

/-!
# A producer and a receiver

Frames go one way and results the other, over channels that keep their order.
However the two sides take turns, a result reaches the producer in the order of
its frames and within the credits that the surface was announced with.
-/

namespace RmDisplay.Link

open Foundation Protocol RmDisplay.Core Core.DisplayCore Producer Receiver

/-- The frames and results that the two sides write down. -/
def dialogue : Wiring Exchange JournalEntry Frame FrameResult where
  leftSends
    | .sent frame => some frame
    | .received _ | .retried _ => none
  leftTakes
    | .received result => some result
    | .sent _ | .retried _ => none
  rightSends := JournalEntry.result
  rightTakes := JournalEntry.frame

/-- A client made calls on the surface that a session announced to it, and the
frames and results since the surface was opened went over the channels.  The
session is open, and none of its operations returned an error. -/
structure Linked (setup : SessionSetup) (start : ProducerClient)
    (surface : Surface) (made : List ClientEvent) (client : ProducerClient)
    (history : List SessionEvent) (session : Session) : Prop where
  serves : SessionRun setup history session
  succeeds : ∀ event ∈ history, event.Succeeds
  isOpen : session.closed = false
  calls : ∃ ready opened pending,
    .sent (.surfaceReady ready) pending ∈ entriesOf history ∧
      start.acceptSurface ready = .ok (surface, opened) ∧
      Run clientStep opened made client
  interleaved : dialogue.Interleaved client.journal
    (chronicle (entriesOf history))

theorem terms_of_run {opened client : ProducerClient} {made : List ClientEvent}
    (run : Run clientStep opened made client) :
    client.flow = opened.flow ∧ client.tally.coding = opened.tally.coding := by
  induction run with
  | nil => exact ⟨rfl, rfl⟩
  | @snoc older before after input output earlier stepped induction =>
      let event : ClientEvent := ⟨before, input, output, after⟩
      have continues := @continues_of_step event stepped
      exact ⟨continues.flow.trans induction.1,
        continues.coding.trans induction.2⟩

theorem acceptSurface_eq_ok {start opened : ProducerClient}
    {ready : SurfaceReady} {surface : Surface}
    (accepted : start.acceptSurface ready = .ok (surface, opened)) :
    (0 < surface.width ∧ 0 < surface.height) ∧
      (surface.width = ready.width ∧ surface.height = ready.height) ∧
      opened.tally.coding = start.tally.coding ∧
      ∃ limits, ready.limits = some limits ∧
        opened.creditLimit = limits.maxInflight ∧
        (1 ≤ opened.selectedMinor →
          opened.byteCreditLimit = limits.maxInflightBytes) := by
  unfold ProducerClient.acceptSurface at accepted
  split at accepted
  · cases accepted
  · split at accepted
    · cases accepted
    · rename_i geometry
      split at accepted
      · cases accepted
      · rename_i limits isLimits
        split at accepted
        · cases accepted
        · cases accepted
          refine ⟨⟨?_, ?_⟩, ⟨rfl, rfl⟩, rfl, limits, isLimits, rfl, ?_⟩
          · exact Nat.pos_of_ne_zero fun none => geometry (.inl none)
          · exact Nat.pos_of_ne_zero fun none => geometry (.inr (.inl none))
          · exact fun minor => if_pos minor

theorem not_turnedDown {result : FrameResult}
    (accepts : ProducerClient.accepts result = true) : ¬ TurnedDown result := by
  unfold ProducerClient.accepts ProducerClient.resultCode at accepts
  rintro (rejected | needKeyframe)
  · rw [rejected] at accepts
    revert accepts
    decide
  · rw [needKeyframe] at accepts
    revert accepts
    decide

namespace Linked

variable {setup : SessionSetup} {start client : ProducerClient}
  {surface : Surface} {made : List ClientEvent} {history : List SessionEvent}
  {session : Session}

section

variable (linked : Linked setup start surface made client history session)

include linked

theorem clientRun : ∃ ready, ClientRun start ready made client := by
  obtain ⟨ready, opened, _, _, accepted, run⟩ := linked.calls
  exact ⟨ready, surface, opened, accepted, run⟩

/-- The surface has the size of the display of the session. -/
theorem sized : (0 < surface.width ∧ 0 < surface.height) ∧
    surface.width = session.panel.info.width ∧
    surface.height = session.panel.info.height := by
  obtain ⟨ready, opened, pending, announced, accepted, _⟩ := linked.calls
  obtain ⟨positive, ⟨sameWidth, sameHeight⟩, _⟩ := acceptSurface_eq_ok accepted
  obtain ⟨_, _, width, height⟩ := linked.serves.terms.2 _ announced
  exact ⟨positive, sameWidth.trans width, sameHeight.trans height⟩

theorem coding : client.tally.coding = start.tally.coding := by
  obtain ⟨_, _, _, _, accepted, run⟩ := linked.calls
  exact (terms_of_run run).2.trans (acceptSurface_eq_ok accepted).2.2.1

theorem creditLimits {result : FrameResult}
    {pending : Option PendingPresentation}
    (member : .sent (.frameResult result) pending ∈ entriesOf history) :
    result.credits ≤ client.flow.creditLimit ∧
      (1 ≤ client.flow.selectedMinor →
        result.byteCredits ≤ client.flow.byteCreditLimit) := by
  obtain ⟨ready, opened, _, announced, accepted, run⟩ := linked.calls
  obtain ⟨_, _, _, limits, isLimits, creditLimit, byteCreditLimit⟩ :=
    acceptSurface_eq_ok accepted
  obtain ⟨_, told, _⟩ := linked.serves.terms.2 _ announced
  cases isLimits.symm.trans told
  obtain ⟨credits, byteCredits⟩ := linked.serves.credits member
  rw [(terms_of_run run).1]
  refine ⟨?_, fun minor => ?_⟩
  · exact Nat.le_trans credits (Nat.le_of_eq creditLimit.symm)
  · exact Nat.le_trans byteCredits (Nat.le_of_eq (byteCreditLimit minor).symm)

theorem increasing : (sentIds client.journal).Pairwise (· < ·) := by
  obtain ⟨_, run⟩ := linked.clientRun
  exact run.increasing

theorem handled : (chronicle (entriesOf history)).filterMap (·.frame) <+:
    sentFrames client.journal := linked.interleaved.delivered.1

theorem rising : Rising (chronicle (entriesOf history)) :=
  linked.increasing.sublist (linked.handled.sublist.map _)

theorem answers : AllAnswered (chronicle (entriesOf history)) :=
  (linked.serves.answering linked.succeeds linked.isOpen linked.rising).answers

end

end Linked

private theorem mem_of_prefix {ids front : List Nat}
    (increasing : ids.Pairwise (· < ·)) (isFront : front <+: ids) {id : Nat}
    (member : id ∈ front) {other : Nat} (isOther : other ∈ ids)
    (smaller : other < id) : other ∈ front := by
  obtain ⟨rest, rfl⟩ := isFront
  rcases List.mem_append.mp isOther with inFront | inRest
  · exact inFront
  · have later := (List.pairwise_append.mp increasing).2.2 id member other inRest
    omega

namespace Linked

variable {setup : SessionSetup} {start client : ProducerClient}
  {surface : Surface} {made : List ClientEvent} {history : List SessionEvent}
  {session : Session}

/-- Every result the client has read answers a frame in flight, and those that
do not decline their frames come in order. -/
theorem sequenced
    (linked : Linked setup start surface made client history session) :
    client.flow.Sequenced client.journal := by
  intro earlier result later split
  obtain ⟨sofar, ⟨rest, isChronicle⟩, sooner, taken⟩ :=
    linked.interleaved.left_of_split split rfl
  obtain ⟨before, entry, after, rfl, isResult, isReceived⟩ :=
    Wiring.sender_of_prefix taken
  have isReceived : before.filterMap (·.result) = received earlier := isReceived
  have sameIds : resultIds before = answeredIds earlier :=
    congrArg (List.map FrameResult.frameId) isReceived
  have answered : Answered before result :=
    linked.answers before entry (after ++ rest) result
      (by rw [← isChronicle]; simp) isResult
  -- What was handled before the result was sent before it was read.
  have front : handledIds before <+: sentIds earlier := by
    have delivered := sooner.delivered.1
    rw [List.filterMap_append] at delivered
    exact ((List.prefix_append _ _).trans delivered).map _
  have shorter : earlier <+: client.journal := ⟨_, split.symm⟩
  have increasing : (sentIds earlier).Pairwise (· < ·) :=
    linked.increasing.sublist ((shorter.sublist.filterMap _).map _)
  have isSent := front.subset answered.handled
  obtain ⟨pending, isEntry⟩ := sent_of_result isResult
  have written : .sent (.frameResult result) pending ∈ entriesOf history := by
    rw [← isEntry]
    apply mem_of_chronicle
    rw [← isChronicle]
    simp
  obtain ⟨credits, byteCredits⟩ := linked.creditLimits written
  refine ⟨⟨?_, credits, byteCredits⟩, fun accepts => ?_, fun accepts => ?_⟩
  · refine List.mem_filter.mpr ⟨isSent, ?_⟩
    rw [← sameIds]
    simpa using answered.fresh
  · intro frameId wasSent smaller
    rw [← sameIds]
    have wasHandled :=
      mem_of_prefix increasing front answered.handled wasSent smaller
    exact (answered.first.resolve_left (not_turnedDown accepts)) frameId
      wasHandled smaller
  · rcases answered.names.resolve_left (not_turnedDown accepts) with
      none | ⟨least, named⟩
    · exact .inl none
    · exact .inr ⟨least, front.subset named⟩

end Linked

/-- The latest surface that some entries announce. -/
def announced (entries : List JournalEntry) :
    Option (SurfaceReady × Option PendingPresentation) :=
  entries.findSome? fun
    | .sent (.surfaceReady ready) pending => some (ready, pending)
    | _ => none

theorem mem_of_announced {entries : List JournalEntry} {ready : SurfaceReady}
    {pending : Option PendingPresentation}
    (isAnnounced : announced entries = some (ready, pending)) :
    .sent (.surfaceReady ready) pending ∈ entries := by
  obtain ⟨entry, member, found⟩ := List.exists_of_findSome?_eq_some isAnnounced
  cases entry with
  | sent body _ =>
      cases body with
      | surfaceReady _ =>
          cases found
          exact member
      | _ => cases found
  | _ => cases found

/-- Do these operations and calls make a dialogue in the given turns, with a
check on what it comes to? -/
def dialogueRuns (setup : SessionSetup) (ops : List SessionOp)
    (start : ProducerClient) (calls : List ClientOp) (turns : List Bool)
    (check : Surface → List ClientEvent → ProducerClient →
      List SessionEvent → Session → Bool) : Bool :=
  match setup.replay ops with
  | none => false
  | some (history, session) =>
      match announced (entriesOf history) with
      | none => false
      | some (ready, _) =>
          match start.acceptSurface ready with
          | .ok (surface, opened) =>
              match replay ClientOp.run opened calls with
              | none => false
              | some (made, client) =>
                  allSucceed history && !session.closed &&
                    dialogue.takeTurns turns [] [] client.journal
                      (chronicle (entriesOf history)) &&
                    check surface made client history session
          | .error _ | .panic => false

theorem Linked.ran {setup : SessionSetup} {ops : List SessionOp}
    {start : ProducerClient} {calls : List ClientOp} {turns : List Bool}
    {check : Surface → List ClientEvent → ProducerClient →
      List SessionEvent → Session → Bool}
    (runs : dialogueRuns setup ops start calls turns check = true) :
    ∃ surface made client history session,
      Linked setup start surface made client history session ∧
        check surface made client history session = true := by
  unfold dialogueRuns at runs
  split at runs
  · cases runs
  · rename_i history session replayed
    split at runs
    · cases runs
    · rename_i ready pending isAnnounced
      split at runs
      · rename_i surface opened accepted
        split at runs
        · cases runs
        · rename_i made client called
          simp only [Bool.and_eq_true, Bool.not_eq_true'] at runs
          obtain ⟨⟨⟨succeed, isOpen⟩, interleaved⟩, checked⟩ := runs
          refine ⟨surface, made, client, history, session, ?_, checked⟩
          refine ⟨SessionSetup.run_of_replay replayed,
            succeeds_of_allSucceed succeed, isOpen, ?_, ?_⟩
          · exact ⟨ready, opened, pending, mem_of_announced isAnnounced,
              accepted, run_of_replay called⟩
          · exact Wiring.Interleaved.of_takeTurns .nil interleaved
      · cases runs
      · cases runs

/-- The surface that a 2x1 receiver announces. -/
def smallSurface : Surface where
  id := surfaceId
  generation := 1
  width := 2
  height := 1
  maxFrameBytes := 8388608
  maxRegions := 512
  maxInflight := 2
  maxInflightBytes := 16777216

/-- A 2x1 receiver that keeps what is compressed as it is. -/
def smallReceiver : SessionSetup :=
  { SessionSetup.gray 2 1 (fun _ => true) (fun _ => some {}) with
    codecs := storedCodecs }

/-- A producer that will read these results. -/
def smallProducer (results : List Body) : ProducerClient :=
  { ProducerClient.gray results with
    crc32
    compress := storeBlock
    selectedMinor := 1 }

/-- A keyframe and a delta, the latest first. -/
def smallOps : List SessionOp :=
  [grayMessage 4 (grayFrame 1 1 2 1 .latest ⟨1, 0, 1, 1⟩ [30]) (.ofSecs 3),
    grayMessage 3 (grayFrame 1 1 1 0 .settled ⟨0, 0, 2, 1⟩ [10, 20]) (.ofSecs 2),
    grayMessage 2 (grayOpen 1 []) (.ofSecs 1),
    grayMessage 1 (.clientHello (grayHello [.byteCredits])) 1]

def smallCalls : List ClientOp :=
  [.pumpOnce, .queueDelta smallSurface [10, 20] [10, 30] 1 .mixed,
    .sendFrame smallSurface [10, 20] .settled .mixed]

/-- The results that a receiver sends for some operations. -/
def resultsOf (setup : SessionSetup) (ops : List SessionOp) : List Body :=
  match setup.replay ops with
  | none => []
  | some (history, _) =>
      (entriesOf history).reverse.filterMap fun entry =>
        entry.result.map .frameResult

/-- A keyframe and a delta reach the panel, and their results the producer. -/
def smallRuns (check : Surface → List ClientEvent → ProducerClient →
    List SessionEvent → Session → Bool) : Bool :=
  dialogueRuns smallReceiver smallOps
    (smallProducer (resultsOf smallReceiver smallOps)) smallCalls
    [false, false, true, false, false, true, true, false, false, true] check

/-- While the session is open and no operation of it failed: however the two
sides take turns, every result the client has read answers a frame in flight
within the credits it was told, and those that take their frames come in the
order of sending. -/
theorem resultsInSequence_of_linked {setup : SessionSetup}
    {start client : ProducerClient} {surface : Surface}
    {made : List ClientEvent} {history : List SessionEvent} {session : Session}
    (linked : Linked setup start surface made client history session) :
    client.flow.Sequenced client.journal :=
  linked.sequenced

theorem resultsInSequence_of_smallRuns :
    ∃ surface made client history session,
      Linked smallReceiver (smallProducer (resultsOf smallReceiver smallOps))
        surface made client history session ∧
      sentIds client.journal = [1, 2] ∧ answeredIds client.journal = [1, 2] ∧
      client.flow.Sequenced client.journal := by
  have runs : smallRuns (fun _ _ client _ _ =>
      sentIds client.journal == [1, 2] &&
        answeredIds client.journal == [1, 2]) = true := by decide +kernel
  obtain ⟨surface, made, client, history, session, linked, checked⟩ :=
    Linked.ran runs
  simp only [Bool.and_eq_true, beq_iff_eq] at checked
  exact ⟨surface, made, client, history, session, linked, checked.1, checked.2,
    resultsInSequence_of_linked linked⟩

end RmDisplay.Link
