import RmDisplay.Link.Dialogue
import RmDisplay.Producer.ClientCredits
import RmDisplay.Receiver.CreditRefusals

/-!
# Credits

A receiver tells what its pending frame leaves of the limits, whatever is still
on its way to it.  A producer that takes this for what it may claim can exceed
the limits; as long as no result gives back the bytes of frames in flight it does
not, and then no frame is refused for want of credit.
-/

namespace RmDisplay.Link

open Foundation Protocol RmDisplay.Core Core.DisplayCore Producer Receiver

/-- Whatever is in flight when a result is read was pending at the receiver when
the result was built. -/
def Counted (client : ProducerClient) (history : List SessionEvent) : Prop :=
  ∀ front result pending, front ++ [.received result] <+: client.journal →
    .sent (.frameResult result) pending ∈ chronicle (entriesOf history) →
      claimed (inFlight (front ++ [.received result])) ≤
        (pending.map (·.decodedBytes)).getD 0

theorem claimedBytes_le {frames : List Frame} {frame : Frame}
    (member : frame ∈ frames) : claimedBytes frame ≤ claimed frames :=
  List.single_le_sum (fun _ _ => Nat.zero_le _) _
    (List.mem_map_of_mem member)

namespace Linked

variable {setup : SessionSetup} {start client : ProducerClient}
  {surface : Surface} {made : List ClientEvent} {history : List SessionEvent}
  {session : Session}

/-- The limits of the producer are those of the receiver. -/
theorem limits
    (linked : Linked setup start surface made client history session)
    (minor : 1 ≤ client.selectedMinor) :
    client.flow.creditLimit = setup.config.limits.maxInflight ∧
      client.flow.byteCreditLimit =
        if session.byteCreditsEnabled then
          setup.config.limits.maxInflightBytes
        else 0 := by
  obtain ⟨ready, opened, _, announced, accepted, run⟩ := linked.calls
  obtain ⟨_, _, _, limits, isLimits, creditLimit, byteCreditLimit⟩ :=
    acceptSurface_eq_ok accepted
  obtain ⟨⟨_, sameLimits, _⟩, tells⟩ := linked.serves.terms
  obtain ⟨_, told, _⟩ := tells _ announced
  cases isLimits.symm.trans told
  have sameFlow := (terms_of_run run).1
  rw [sameFlow]
  have isMinor : 1 ≤ opened.selectedMinor := by
    have same : client.selectedMinor = opened.selectedMinor :=
      congrArg Flow.selectedMinor sameFlow
    rw [← same]
    exact minor
  refine ⟨creditLimit.trans ?_, (byteCreditLimit isMinor).trans ?_⟩
  · exact congrArg (·.maxInflight) sameLimits
  · rw [← sameLimits]
    rfl

/-- A result tells what its pending frame left of the limits. -/
theorem exactCredits
    (linked : Linked setup start surface made client history session)
    {result : FrameResult} {pending : Option PendingPresentation}
    (member : .sent (.frameResult result) pending ∈
      chronicle (entriesOf history)) :
    ExactCredits setup.config.limits session.byteCreditsEnabled result
      pending := by
  obtain ⟨⟨_, sameLimits, _⟩, _⟩ := linked.serves.terms
  rw [← sameLimits]
  apply linked.serves.accounts.exact
  change _ ∈ session.journal.map (·.entry)
  rw [linked.serves.journal]
  exact mem_of_chronicle member

/-- A result that counts what is in flight does not give it back. -/
theorem spares
    (linked : Linked setup start surface made client history session)
    (minor : 1 ≤ client.selectedMinor)
    (enabled : session.byteCreditsEnabled = true)
    (counted : Counted client history) :
    client.flow.Spares client.journal := by
  intro front result isFront
  have isRead : result ∈ client.journal.filterMap dialogue.leftTakes := by
    have front := (isFront.sublist.filterMap dialogue.leftTakes).subset
    apply front
    rw [List.filterMap_append]
    exact List.mem_append_right _ (List.mem_singleton_self _)
  obtain ⟨entry, isEntry, isResult⟩ :=
    List.mem_filterMap.mp (linked.interleaved.delivered.2.subset isRead)
  obtain ⟨pending, rfl⟩ := sent_of_result isResult
  obtain ⟨_, byteCreditLimit⟩ := linked.limits minor
  have told := (linked.exactCredits isEntry).byteCredits enabled
  have held := counted front result pending isFront isEntry
  rw [byteCreditLimit, if_pos enabled, ← told]
  exact Nat.add_le_add_left held _

/-- What has a result was sent before it. -/
theorem answered_sent
    (linked : Linked setup start surface made client history session)
    {front : List Exchange} (isFront : front <+: client.journal) :
    ∀ frameId ∈ answeredIds front, frameId ∈ sentIds front := by
  intro frameId member
  obtain ⟨result, isReceived, rfl⟩ := List.mem_map.mp member
  obtain ⟨entry, isEntry, isResult⟩ := List.mem_filterMap.mp isReceived
  obtain ⟨earlier, later, rfl⟩ := List.append_of_mem isEntry
  obtain ⟨rest, whole⟩ := isFront
  cases entry with
  | received other =>
      cases isResult
      obtain ⟨answers, _⟩ := linked.sequenced earlier result (later ++ rest) (by
        rw [← whole, List.append_assoc]
        rfl)
      rw [sentIds_append]
      exact List.mem_append_left _ (mem_unanswered.mp answers.inFlight).1
  | sent _ | retried _ => cases isResult

/-- When a frame is handled, the producer had it in flight beside all frames
without a result. -/
theorem inFlight_of_handled
    (linked : Linked setup start surface made client history session)
    {before later : List JournalEntry} {entry : JournalEntry} {frame : Frame}
    (split : chronicle (entriesOf history) = before ++ entry :: later)
    (isFrame : entry.frame = some frame) :
    ∃ front others, front <+: client.journal ∧
      inFlight front = others ++ [frame] ∧
      ∀ other ∈ before.filterMap (·.frame), other.frameId ∉ resultIds before →
        other ∈ others := by
  obtain ⟨sofar, isPrefix, ran, sent⟩ :=
    linked.interleaved.right_of_split split isFrame
  obtain ⟨earlier, sending, rest, rfl, isSending, same⟩ :=
    Wiring.sender_of_prefix sent
  obtain rfl : sending = .sent frame := by
    cases sending with
    | sent other =>
        cases isSending
        rfl
    | received _ | retried _ => cases isSending
  have isFront : earlier ++ [.sent frame] <+: client.journal := by
    refine List.IsPrefix.trans ⟨rest, ?_⟩ isPrefix
    rw [List.append_assoc]
    rfl
  have known := linked.answered_sent ((List.prefix_append _ _).trans isFront)
  have increasing : (sentIds (earlier ++ [.sent frame])).Pairwise (· < ·) :=
    linked.increasing.sublist ((isFront.sublist.filterMap _).map _)
  rw [sentIds_append] at increasing
  have unknown : frame.frameId ∉ answeredIds earlier := by
    intro isOld
    exact Nat.lt_irrefl _ ((List.pairwise_append.mp increasing).2.2 _
      (known _ isOld) _ (List.mem_singleton_self _))
  refine ⟨_, inFlight earlier, isFront, inFlight_sent unknown, ?_⟩
  intro other isOther fresh
  have sentBefore : other ∈ sentFrames earlier := by
    have same : sentFrames earlier = before.filterMap (·.frame) := same
    rw [same]
    exact isOther
  refine List.mem_filter.mpr ⟨sentBefore, ?_⟩
  have unread : other.frameId ∉ answeredIds earlier := by
    intro isOld
    apply fresh
    have taken := ran.delivered.2
    rw [List.filterMap_append] at taken
    have front := ((List.prefix_append _ _).trans taken).subset
    obtain ⟨result, isRead, sameId⟩ := List.mem_map.mp isOld
    exact List.mem_map.mpr ⟨result, front isRead, sameId⟩
  simpa using unread

/-- A frame that is handled while the producer is within the limits finds
credit. -/
theorem credited
    (linked : Linked setup start surface made client history session)
    (minor : 1 ≤ client.selectedMinor)
    (enabled : session.byteCreditsEnabled = true)
    (within : ∀ front, front <+: client.journal → client.flow.Within front)
    {result : FrameResult} {pending : Option PendingPresentation}
    (member : .sent (.frameResult result) pending ∈
      chronicle (entriesOf history)) : ¬ WantsCredit result := by
  intro wants
  obtain ⟨earlier, later, split⟩ := List.append_of_mem member
  have crediting := linked.serves.credited linked.succeeds linked.isOpen
    linked.rising
  obtain ⟨before, frame, rfl, short⟩ :=
    crediting.short earlier result pending later split wants
  rw [List.append_assoc] at split
  obtain ⟨front, others, isFront, isInFlight, waiting⟩ :=
    linked.inFlight_of_handled split rfl
  obtain ⟨frames, bytes⟩ := within front isFront
  rw [isInFlight, List.length_append, List.length_singleton] at frames
  have isClaimed : claimed [frame] = claimedBytes frame := by
    simp [claimed, claimedBytes, ProducerClient.decodedBytes]
  rw [isInFlight, claimed_append, isClaimed] at bytes
  obtain ⟨creditLimit, byteCreditLimit⟩ := linked.limits minor
  have exact := linked.exactCredits member
  -- The pending frame is in flight beside the one that is refused.
  have held : pending.toList.length ≤ others.length ∧
      (pending.map (·.decodedBytes)).getD 0 ≤ claimed others := by
    cases pending with
    | none => exact ⟨Nat.zero_le _, Nat.zero_le _⟩
    | some stood =>
        obtain ⟨other, isOther, stands⟩ := short.standing stood rfl
        have fresh := short.waits stood rfl
        rw [stands.frameId] at fresh
        have isHeld := waiting other isOther fresh
        refine ⟨List.length_pos_of_mem isHeld, ?_⟩
        change stood.decodedBytes ≤ claimed others
        rw [stands.decodedBytes]
        exact claimedBytes_le isHeld
  rcases short.lacks with none | less
  · have credits := exact.credits
    omega
  · have byteCredits := exact.byteCredits enabled
    rw [if_pos enabled] at byteCreditLimit
    omega

end Linked

/-- While the session is open and no operation of it failed: as long as every
result counts the frames that are in flight when it is read, these are always
within the limits of the receiver, which refuses none for want of credit. -/
theorem creditsHold_of_linked {setup : SessionSetup}
    {start client : ProducerClient} {surface : Surface}
    {made : List ClientEvent} {history : List SessionEvent} {session : Session}
    (linked : Linked setup start surface made client history session)
    (minor : 1 ≤ client.selectedMinor)
    (enabled : session.byteCreditsEnabled = true)
    (counted : Counted client history) :
    (∀ front, front <+: client.journal →
        (inFlight front).length ≤ setup.config.limits.maxInflight ∧
          claimed (inFlight front) ≤ setup.config.limits.maxInflightBytes) ∧
      ∀ result pending, .sent (.frameResult result) pending ∈
        chronicle (entriesOf history) → ¬ WantsCredit result := by
  obtain ⟨ready, run⟩ := linked.clientRun
  have within := run.within minor linked.sequenced
    (linked.spares minor enabled counted)
  obtain ⟨creditLimit, byteCreditLimit⟩ := linked.limits minor
  rw [if_pos enabled] at byteCreditLimit
  refine ⟨fun front isFront => ?_, fun result pending member =>
    linked.credited minor enabled within member⟩
  obtain ⟨frames, bytes⟩ := within front isFront
  rw [creditLimit] at frames
  rw [byteCreditLimit] at bytes
  exact ⟨frames, bytes⟩

/-- A keyframe and a delta whose results come before anything else is sent. -/
theorem creditsHold_of_smallRuns :
    ∃ surface made client history session,
      Linked smallReceiver (smallProducer (resultsOf smallReceiver smallOps))
        surface made client history session ∧
      sentIds client.journal = [1, 2] ∧ Counted client history ∧
      (∀ front, front <+: client.journal →
        (inFlight front).length ≤ smallReceiver.config.limits.maxInflight ∧
          claimed (inFlight front) ≤
            smallReceiver.config.limits.maxInflightBytes) ∧
      ∀ result pending, .sent (.frameResult result) pending ∈
        chronicle (entriesOf history) → ¬ WantsCredit result := by
  have runs : smallRuns (fun _ _ client _ session =>
      decide (sentIds client.journal = [1, 2]) &&
        decide (1 ≤ client.selectedMinor) && session.byteCreditsEnabled &&
        client.journal.inits.all fun front =>
          (justRead front).isNone || (inFlight front).isEmpty) = true := by
    decide +kernel
  obtain ⟨surface, made, client, history, session, linked, checked⟩ :=
    Linked.ran runs
  simp only [Bool.and_eq_true, decide_eq_true_eq, List.all_eq_true,
    Bool.or_eq_true, List.isEmpty_iff, List.mem_inits] at checked
  obtain ⟨⟨⟨sent, minor⟩, enabled⟩, none⟩ := checked
  have counted : Counted client history := by
    intro front result pending isFront _
    rcases none _ isFront with unread | empty
    · rw [justRead_eq_some.mpr ⟨front, rfl⟩] at unread
      cases unread
    · rw [empty]
      exact Nat.zero_le _
  exact ⟨surface, made, client, history, session, linked, sent, counted,
    creditsHold_of_linked linked minor enabled counted⟩

/-- A receiver with room for a full frame and a half. -/
def tightReceiver : SessionSetup :=
  { smallReceiver with
    config := { smallReceiver.config with
      limits := { smallReceiver.config.limits with maxInflightBytes := 3 } } }

/-- A keyframe and three deltas, the latest first; the last two arrive before
the next tick. -/
def tightOps : List SessionOp :=
  [.handleDeferred ⟨1, 6, some (grayFrame 1 1 4 3 .latest ⟨0, 0, 2, 1⟩ [70, 80])⟩
      (.ofSecs 4),
    .handleDeferred ⟨1, 5, some (grayFrame 1 1 3 2 .latest ⟨0, 0, 2, 1⟩ [50, 60])⟩
      (.ofSecs 4),
    grayMessage 4 (grayFrame 1 1 2 1 .latest ⟨1, 0, 1, 1⟩ [30]) (.ofSecs 3),
    grayMessage 3 (grayFrame 1 1 1 0 .settled ⟨0, 0, 2, 1⟩ [10, 20]) (.ofSecs 2),
    grayMessage 2 (grayOpen 1 []) (.ofSecs 1),
    grayMessage 1 (.clientHello (grayHello [.byteCredits])) 1]

def tightCalls : List ClientOp :=
  [.queueDelta smallSurface [50, 60] [70, 80] 1 .mixed,
    .queueDelta smallSurface [10, 30] [50, 60] 1 .mixed,
    .queueDelta smallSurface [10, 20] [10, 30] 1 .mixed,
    .sendFrame smallSurface [10, 20] .settled .mixed]

/-- The result of the second frame gives back the bytes of the third one, and the
fourth one is sent and refused. -/
theorem credits_exceeded :
    ∃ surface made client history session,
      Linked tightReceiver (smallProducer (resultsOf tightReceiver tightOps))
        surface made client history session ∧
      1 ≤ client.selectedMinor ∧ session.byteCreditsEnabled = true ∧
      tightReceiver.config.limits.maxInflight = 2 ∧
      surface.width * surface.height ≤
        tightReceiver.config.limits.maxInflightBytes ∧
      tightReceiver.config.limits.maxInflightBytes <
        claimed (inFlight client.journal) ∧
      ∃ result pending, .sent (.frameResult result) pending ∈
        chronicle (entriesOf history) ∧ result.frameId = 4 ∧
          WantsCredit result := by
  have runs : dialogueRuns tightReceiver tightOps
      (smallProducer (resultsOf tightReceiver tightOps)) tightCalls
      [false, false, true, false, false, true, true, true, false, false, true,
        true, false, false, false]
      (fun surface _ client history session =>
        decide (1 ≤ client.selectedMinor) && session.byteCreditsEnabled &&
          decide (surface.width * surface.height ≤
            tightReceiver.config.limits.maxInflightBytes) &&
          decide (tightReceiver.config.limits.maxInflightBytes <
            claimed (inFlight client.journal)) &&
          (chronicle (entriesOf history)).any fun entry =>
            entry.result.any fun result =>
              result.frameId == 4 &&
                result.reason == wire FrameResultReason.noCredit) = true := by
    decide +kernel
  obtain ⟨surface, made, client, history, session, linked, checked⟩ :=
    Linked.ran runs
  simp only [Bool.and_eq_true, decide_eq_true_eq, List.any_eq_true,
    Option.any_eq_true, beq_iff_eq] at checked
  obtain ⟨⟨⟨⟨minor, enabled⟩, fits⟩, exceeded⟩, entry, member, result, isResult, isFourth,
    wants⟩ := checked
  obtain ⟨pending, rfl⟩ := sent_of_result isResult
  exact ⟨surface, made, client, history, session, linked, minor, enabled,
    rfl, fits, exceeded, result, pending, member, isFourth, wants⟩

end RmDisplay.Link
