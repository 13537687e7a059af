import RmDisplay.Producer.ClientMoves

/-!
# What the frames of a client are based on

A client sends deltas before it knows what became of the frames before them.
As long as the receiver answers in order, a delta is based on the frame that
was the latest one when the call began, or on nothing, although results arrive
while the call waits.
-/

namespace RmDisplay.Producer

open Foundation Protocol Relation

/-- An accepting result is about the earliest frame in flight.  It names a frame
that was sent no earlier than that, or none. -/
structure InSequence (earlier : List Exchange) (result : FrameResult) :
    Prop where
  first : ProducerClient.accepts result = true →
    ∀ frameId ∈ sentIds earlier, frameId < result.frameId →
      frameId ∈ answeredIds earlier
  names : ProducerClient.accepts result = true → result.logicalFrameId = 0 ∨
    result.frameId ≤ result.logicalFrameId ∧
      result.logicalFrameId ∈ sentIds earlier

/-- Every result answers a frame in flight, in order. -/
def Flow.Sequenced (flow : Flow) (journal : List Exchange) : Prop :=
  ∀ earlier result later, journal = earlier ++ .received result :: later →
    flow.Answers earlier result ∧ InSequence earlier result

theorem Flow.Sequenced.before {flow : Flow} {journal later : List Exchange}
    (sequenced : flow.Sequenced later) (grows : journal <+: later) :
    flow.Sequenced journal := by
  obtain ⟨rest, rfl⟩ := grows
  intro earlier result between split
  exact sequenced earlier result (between ++ rest) (by simp [split])

namespace Tally

/-- The latest frame is in flight, or its result was the last one. -/
def Follows (tally : Tally) (frameId : Nat) : Prop :=
  tally.pending.getLast? = some frameId ∧ tally.logicalFrameId = frameId ∨
    tally.pending = [] ∧
      (tally.logicalFrameId = frameId ∨ tally.logicalFrameId = 0)

/-- Frame ids are used once, whatever the receiver says. -/
structure Counted (tally : Tally) : Prop where
  increasing : (sentIds tally.journal).Pairwise (· < ·)
  fresh : ∀ frameId ∈ sentIds tally.journal, frameId < tally.nextFrameId

/-- What a client knows agrees with its journal. -/
structure Sound (tally : Tally) : Prop extends Counted tally where
  inFlight : tally.pending = unanswered tally.journal
  known : ∀ frameId ∈ answeredIds tally.journal,
    frameId ∈ sentIds tally.journal
  latest : tally.needsKeyframe = false →
    ∃ frameId, (sentIds tally.journal).getLast? = some frameId ∧
      tally.Follows frameId

end Tally

theorem le_getLast_of_increasing {numbers : List Nat} {last number : Nat}
    (increasing : numbers.Pairwise (· < ·))
    (isLast : numbers.getLast? = some last) (member : number ∈ numbers) :
    number ≤ last := by
  obtain ⟨earlier, rfl⟩ := List.getLast?_eq_some_iff.mp isLast
  rcases List.mem_append.mp member with old | new
  · exact Nat.le_of_lt ((List.pairwise_append.mp increasing).2.2 number old last
      (List.mem_singleton_self last))
  · exact Nat.le_of_eq (List.mem_singleton.mp new)

/-- The least number of an increasing list comes first. -/
theorem eq_cons_of_least {numbers : List Nat} {least : Nat}
    (increasing : numbers.Pairwise (· < ·)) (member : least ∈ numbers)
    (isLeast : ∀ number ∈ numbers, ¬ number < least) :
    ∃ rest, numbers = least :: rest := by
  cases numbers with
  | nil => cases member
  | cons first rest =>
      rcases List.mem_cons.mp member with rfl | later
      · exact ⟨rest, rfl⟩
      · exact absurd ((List.pairwise_cons.mp increasing).1 least later)
          (isLeast first List.mem_cons_self)

section

variable {call : Call} {start tally next : Tally}

theorem Tally.Counted.sent (counted : tally.Counted) {frame : Frame}
    (isNext : frame.frameId = tally.nextFrameId) (needsKeyframe : Bool) :
    (tally.launched frame needsKeyframe).Counted := by
  constructor
  · change (sentIds (tally.journal ++ [.sent frame])).Pairwise (· < ·)
    rw [sentIds_append, sentIds_sent]
    refine List.pairwise_append.mpr
      ⟨counted.increasing, List.pairwise_singleton _ _, ?_⟩
    intro frameId member other isOther
    rw [List.mem_singleton.mp isOther, isNext]
    exact counted.fresh frameId member
  · change ∀ frameId ∈ sentIds (tally.journal ++ [.sent frame]),
      frameId < tally.nextFrameId + 1
    rw [sentIds_append, sentIds_sent]
    intro frameId member
    rcases List.mem_append.mp member with old | new
    · exact Nat.lt_succ_of_lt (counted.fresh frameId old)
    · rw [List.mem_singleton.mp new, isNext]
      exact Nat.lt_succ_self _

theorem Tally.Counted.noted (counted : tally.Counted) {entry : Exchange}
    (sends : sentIds [entry] = []) : (tally.note entry).Counted := by
  have same : sentIds (tally.journal ++ [entry]) = sentIds tally.journal := by
    rw [sentIds_append, sends, List.append_nil]
  constructor
  · change (sentIds (tally.journal ++ [entry])).Pairwise (· < ·)
    rw [same]
    exact counted.increasing
  · change ∀ frameId ∈ sentIds (tally.journal ++ [entry]), _
    rw [same]
    exact counted.fresh

theorem HearMove.counted (move : HearMove tally next)
    (counted : tally.Counted) : next.Counted := by
  cases move with
  | @took result _ =>
      have noted := counted.noted (@sentIds_received result)
      exact ⟨noted.increasing, noted.fresh⟩
  | ignored _ => exact counted.noted sentIds_received
  | demanded => exact ⟨counted.increasing, counted.fresh⟩

theorem CallMove.counted (move : CallMove call start tally next)
    (counted : tally.Counted) : next.Counted := by
  cases move with
  | hears move => exact move.counted counted
  | retried result => exact counted.noted sentIds_retried
  | skipped =>
      refine ⟨counted.increasing, fun frameId member => ?_⟩
      exact Nat.lt_succ_of_lt (counted.fresh frameId member)
  | sent needsKeyframe isNext _ _ => exact counted.sent isNext needsKeyframe

theorem counted_of_moves
    (moves : ReflTransGen (CallMove call start) tally next)
    (counted : tally.Counted) : next.Counted := by
  induction moves with
  | refl => exact counted
  | tail _ move induction => exact move.counted induction

theorem Tally.Sound.ordered (sound : tally.Sound) :
    tally.pending.Pairwise (· < ·) := by
  rw [sound.inFlight]
  exact sound.increasing.filter _

/-- The frame of an accepting result is the first one in flight. -/
theorem Tally.Sound.first (sound : tally.Sound) {result : FrameResult}
    (takes : tally.Takes result)
    (sequence : InSequence tally.journal result)
    (accepts : ProducerClient.accepts result = true) :
    ∃ rest, tally.pending = result.frameId :: rest := by
  refine eq_cons_of_least sound.ordered takes.inFlight ?_
  intro frameId member earlier
  rw [sound.inFlight] at member
  obtain ⟨isSent, unanswered⟩ := mem_unanswered.mp member
  exact unanswered (sequence.first accepts frameId isSent earlier)

theorem Tally.Sound.follows_took (sound : tally.Sound) {result : FrameResult}
    (takes : tally.Takes result)
    (sequence : InSequence tally.journal result)
    (keeps : (tally.answered result).needsKeyframe = false) :
    ∃ frameId, (sentIds tally.journal).getLast? = some frameId ∧
      (tally.answered result).Follows frameId := by
  obtain ⟨kept, refused⟩ := Bool.or_eq_false_iff.mp keeps
  have accepts : ProducerClient.accepts result = true := by
    simpa using refused
  obtain ⟨frameId, isLast, follows⟩ := sound.latest kept
  obtain ⟨rest, isPending⟩ := sound.first takes sequence accepts
  have erased : (tally.answered result).pending = rest := by
    change tally.pending.erase result.frameId = rest
    rw [isPending, List.erase_cons_head]
  have logical : (tally.answered result).logicalFrameId =
      rest.getLast?.getD result.logicalFrameId := by
    change (if (tally.answered result).needsKeyframe then _ else
      (tally.answered result).pending.getLast?.getD _) = _
    rw [keeps, erased]
    rfl
  refine ⟨frameId, isLast, ?_⟩
  unfold Tally.Follows
  rw [erased, logical]
  rcases follows with ⟨latest, _⟩ | ⟨settled, _⟩
  · rw [isPending] at latest
    cases rest with
    | nil =>
        cases latest
        right
        refine ⟨rfl, ?_⟩
        rcases sequence.names accepts with none | ⟨least, isSent⟩
        · exact .inr none
        · exact .inl (Nat.le_antisymm
            (le_getLast_of_increasing sound.increasing isLast isSent) least)
    | cons second later =>
        rw [List.getLast?_cons_cons] at latest
        rw [latest]
        exact .inl ⟨rfl, rfl⟩
  · rw [isPending] at settled
    cases settled

theorem HearMove.sound (move : HearMove tally next) (sound : tally.Sound)
    (sequenced : next.flow.Sequenced next.journal) : next.Sound := by
  have counted := move.counted sound.toCounted
  cases move with
  | @took result takes =>
      obtain ⟨answers, sequence⟩ := sequenced tally.journal result [] rfl
      have distinct : (sentIds tally.journal).Nodup :=
        sound.increasing.imp Nat.ne_of_lt
      refine ⟨counted, ?_, ?_, fun keeps => ?_⟩
      · change tally.pending.erase result.frameId =
          unanswered (tally.journal ++ [.received result])
        rw [unanswered_received distinct, sound.inFlight]
      · change ∀ frameId ∈ answeredIds (tally.journal ++ [.received result]),
          frameId ∈ sentIds (tally.journal ++ [.received result])
        rw [answeredIds_append, answeredIds_received, sentIds_append,
          sentIds_received, List.append_nil]
        intro frameId member
        rcases List.mem_append.mp member with old | new
        · exact sound.known frameId old
        · rw [List.mem_singleton.mp new]
          exact (mem_unanswered.mp answers.inFlight).1
      · obtain ⟨frameId, isLast, follows⟩ :=
          sound.follows_took takes sequence keeps
        refine ⟨frameId, ?_, follows⟩
        change (sentIds (tally.journal ++ [.received result])).getLast? = _
        rw [sentIds_append, sentIds_received, List.append_nil]
        exact isLast
  | @ignored result odd =>
      obtain ⟨answers, _⟩ := sequenced tally.journal result [] rfl
      refine absurd ⟨?_, answers.credits, answers.byteCredits⟩ odd
      rw [sound.inFlight]
      exact answers.inFlight
  | demanded =>
      refine ⟨counted, sound.inFlight, sound.known, fun keeps => ?_⟩
      cases keeps

theorem CallMove.sound (move : CallMove call start tally next)
    (sound : tally.Sound) (sequenced : next.flow.Sequenced next.journal) :
    next.Sound := by
  have counted := move.counted sound.toCounted
  cases move with
  | hears move => exact move.sound sound sequenced
  | retried result =>
      have same : sentIds (tally.journal ++ [.retried result]) =
          sentIds tally.journal := by simp
      refine ⟨counted, sound.inFlight.trans unanswered_retried.symm, ?_, ?_⟩
      · change ∀ frameId ∈ answeredIds (tally.journal ++ [.retried result]),
          frameId ∈ sentIds (tally.journal ++ [.retried result])
        rw [same, answeredIds_append, answeredIds_retried, List.append_nil]
        exact sound.known
      · intro keeps
        obtain ⟨frameId, isLast, follows⟩ := sound.latest keeps
        refine ⟨frameId, ?_, follows⟩
        change (sentIds (tally.journal ++ [.retried result])).getLast? = _
        rw [same]
        exact isLast
  | skipped => exact ⟨counted, sound.inFlight, sound.known, sound.latest⟩
  | @sent frame needsKeyframe isNext _ _ =>
      have unknown : frame.frameId ∉ answeredIds tally.journal := by
        intro member
        have below := sound.fresh _ (sound.known _ member)
        omega
      refine ⟨counted, ?_, ?_, fun _ => ⟨frame.frameId, ?_, ?_⟩⟩
      · change tally.pending ++ [frame.frameId] =
          unanswered (tally.journal ++ [.sent frame])
        rw [unanswered_sent unknown, sound.inFlight]
      · change ∀ frameId ∈ answeredIds (tally.journal ++ [.sent frame]),
          frameId ∈ sentIds (tally.journal ++ [.sent frame])
        rw [answeredIds_append, answeredIds_sent, List.append_nil,
          sentIds_append]
        exact fun frameId member =>
          List.mem_append_left _ (sound.known frameId member)
      · change (sentIds (tally.journal ++ [.sent frame])).getLast? = _
        rw [sentIds_append, sentIds_sent, List.getLast?_concat]
      · left
        refine ⟨?_, rfl⟩
        change (tally.pending ++ [frame.frameId]).getLast? = _
        rw [List.getLast?_concat]

/-- A frame of a call that began with the tally `start`. -/
inductive Made (call : Call) (start : Tally) (frame : Frame) : Prop
  | whole (regions : frame.regions = [call.whole start.coding])
  | delta {previous : Bytes} {tile : Nat}
      (given : call.previous = some previous)
      (matched : previous.length = call.surface.width * call.surface.height)
      (regions : encodeDeltaRegions start.coding.crc32 start.coding.compress
        previous call.pixels call.surface.width call.surface.height tile
        (min call.surface.maxRegions maxDeltaRegions)
        start.coding.zstdEnabled = some frame.regions)
      (based : frame.baseFrameId = 0 ∨
        frame.baseFrameId = start.logicalFrameId)

/-- How far a call has come.  Until it sends a frame, the latest frame stays the
same. -/
structure Proceeds (call : Call) (start tally : Tally) : Prop where
  flow : tally.flow = start.flow
  coding : tally.coding = start.coding
  grows : start.journal <+: tally.journal
  sound : tally.Sound
  waited : sentFrames tally.journal = sentFrames start.journal →
    (tally.needsKeyframe = false → start.needsKeyframe = false) ∧
      (start.pending = [] → tally.pending = [] ∧
        tally.logicalFrameId = start.logicalFrameId)
  made : ∀ frame ∈ sentFrames tally.journal,
    frame ∈ sentFrames start.journal ∨ call.Sized ∧ Made call start frame

theorem CallMove.grows (move : CallMove call start tally next) :
    next.flow = tally.flow ∧ next.coding = tally.coding ∧
      tally.journal <+: next.journal := by
  cases move with
  | hears move =>
      cases move with
      | took _ | ignored _ => exact ⟨rfl, rfl, List.prefix_append _ _⟩
      | demanded => exact ⟨rfl, rfl, List.prefix_rfl⟩
  | skipped => exact ⟨rfl, rfl, List.prefix_rfl⟩
  | retried _ | sent _ _ _ _ => exact ⟨rfl, rfl, List.prefix_append _ _⟩

/-- A delta is based on the frame that was the latest one at the start. -/
theorem Proceeds.based (proceeds : Proceeds call start tally)
    (sound : start.Sound) (keeps : tally.needsKeyframe = false)
    (unsent : sentFrames tally.journal = sentFrames start.journal) :
    tally.logicalFrameId = 0 ∨
      tally.logicalFrameId = start.logicalFrameId := by
  obtain ⟨kept, settled⟩ := proceeds.waited unsent
  obtain ⟨first, isFirst, before⟩ := sound.latest (kept keeps)
  obtain ⟨last, isLast, now⟩ := proceeds.sound.latest keeps
  have same : last = first := by
    unfold sentIds at isFirst isLast
    rw [unsent, isFirst] at isLast
    exact (Option.some.inj isLast).symm
  subst same
  rcases before with ⟨_, isLatest⟩ | ⟨none, _⟩
  · rw [isLatest]
    rcases now with ⟨_, isSame⟩ | ⟨_, isSame | isNone⟩
    · exact .inr isSame
    · exact .inr isSame
    · exact .inl isNone
  · exact .inr (settled none).2

theorem Proceeds.made_of_draws (proceeds : Proceeds call start tally)
    (sound : start.Sound) {frame : Frame}
    (draws : Draws call start tally frame) : Made call start frame := by
  cases draws with
  | whole regions _ =>
      rw [proceeds.coding] at regions
      exact .whole regions
  | delta given matched regions based keeps first =>
      rw [proceeds.coding] at regions
      refine .delta given matched regions ?_
      rw [based]
      exact proceeds.based sound keeps first

theorem Proceeds.move (proceeds : Proceeds call start tally)
    (sound : start.Sound) (move : CallMove call start tally next)
    (sequenced : next.flow.Sequenced next.journal) :
    Proceeds call start next := by
  obtain ⟨sameFlow, sameCoding, grows⟩ := move.grows
  have soundNext := move.sound proceeds.sound sequenced
  have plain (frames : sentFrames next.journal = sentFrames tally.journal)
      (needs : next.needsKeyframe = false → tally.needsKeyframe = false)
      (settled : tally.pending = [] → next.pending = [] ∧
        next.logicalFrameId = tally.logicalFrameId) :
      Proceeds call start next := by
    refine ⟨sameFlow.trans proceeds.flow, sameCoding.trans proceeds.coding,
      proceeds.grows.trans grows, soundNext, ?_, ?_⟩
    · rw [frames]
      intro unsent
      obtain ⟨kept, none⟩ := proceeds.waited unsent
      refine ⟨fun keeps => kept (needs keeps), fun isSettled => ?_⟩
      obtain ⟨empty, same⟩ := none isSettled
      exact ⟨(settled empty).1, (settled empty).2.trans same⟩
    · rw [frames]
      exact proceeds.made
  cases move with
  | hears move =>
      cases move with
      | @took result takes =>
          refine plain ?_ (fun keeps => (Bool.or_eq_false_iff.mp keeps).1) ?_
          · exact sentFrames_append.trans (List.append_nil _)
          · intro empty
            have member := takes.inFlight
            rw [empty] at member
            cases member
      | ignored _ =>
          refine plain ?_ id fun empty => ⟨empty, rfl⟩
          exact sentFrames_append.trans (List.append_nil _)
      | demanded =>
          exact plain rfl (fun keeps => by cases keeps) fun empty => ⟨empty, rfl⟩
  | retried _ =>
      refine plain ?_ id fun empty => ⟨empty, rfl⟩
      exact sentFrames_append.trans (List.append_nil _)
  | skipped => exact plain rfl id fun empty => ⟨empty, rfl⟩
  | @sent frame needsKeyframe isNext sized draws =>
      have frames : sentFrames (tally.journal ++ [.sent frame]) =
          sentFrames tally.journal ++ [frame] := sentFrames_append
      refine ⟨proceeds.flow, proceeds.coding, proceeds.grows.trans grows,
        soundNext, fun unsent => ?_, ?_⟩
      · obtain ⟨rest, isRest⟩ := proceeds.grows
        change sentFrames (tally.journal ++ [.sent frame]) = _ at unsent
        rw [frames, ← isRest, sentFrames_append, List.append_assoc] at unsent
        have none := List.append_right_eq_self.mp unsent
        simp at none
      · change ∀ other ∈ sentFrames (tally.journal ++ [.sent frame]), _
        rw [frames]
        intro other member
        rcases List.mem_append.mp member with old | new
        · exact proceeds.made other old
        · rw [List.mem_singleton.mp new]
          exact .inr ⟨sized, proceeds.made_of_draws sound draws⟩

theorem proceeds_of_moves
    (moves : ReflTransGen (CallMove call start) start next)
    (sound : start.Sound) (sequenced : next.flow.Sequenced next.journal) :
    Proceeds call start next := by
  induction moves with
  | refl =>
      exact ⟨rfl, rfl, List.prefix_rfl, sound,
        fun _ => ⟨id, fun empty => ⟨empty, rfl⟩⟩, fun _ member => .inl member⟩
  | tail _ move induction =>
      obtain ⟨sameFlow, _, grows⟩ := move.grows
      have earlier := sequenced.before grows
      rw [sameFlow] at earlier
      exact (induction earlier).move sound move sequenced

end

/-- The ids of the frames a call sent. -/
def newIds (event : ClientEvent) : List Nat :=
  (sentIds event.after.journal).drop (sentIds event.before.journal).length

/-- The pixels that were passed for a frame. -/
def passed : List ClientEvent → Nat → Option Bytes
  | [], _ => none
  | event :: older, frameId =>
      if frameId ∈ newIds event then event.input.call.map (·.pixels)
      else passed older frameId

/-- A call that is given earlier pixels is given those that were passed for the
latest frame. -/
def Disciplined (history : List ClientEvent) : Prop :=
  ∀ newer event older, history = newer ++ event :: older →
    ∀ call ∈ event.input.call, ∀ previous ∈ call.previous,
      event.before.logicalFrameId ≠ 0 →
        passed older event.before.logicalFrameId = some previous

/-- All frames are for one surface. -/
def OnSurface (surface : Surface) (history : List ClientEvent) : Prop :=
  ∀ event ∈ history, ∀ call ∈ event.input.call, call.surface = surface

theorem disciplined_cons {event : ClientEvent} {older : List ClientEvent} :
    Disciplined (event :: older) ↔
      (∀ call ∈ event.input.call, ∀ previous ∈ call.previous,
        event.before.logicalFrameId ≠ 0 →
          passed older event.before.logicalFrameId = some previous) ∧
        Disciplined older := by
  constructor
  · intro disciplined
    refine ⟨disciplined [] event older rfl, ?_⟩
    exact fun newer other oldest split =>
      disciplined (event :: newer) other oldest (congrArg (event :: ·) split)
  · rintro ⟨first, rest⟩ newer other oldest split
    cases newer with
    | nil =>
        cases split
        exact first
    | cons head newer =>
        cases split
        exact rest newer other oldest rfl

instance decidableDisciplined :
    (history : List ClientEvent) → Decidable (Disciplined history)
  | [] => .isTrue fun newer _ _ split => by simp at split
  | _ :: older =>
      have := decidableDisciplined older
      decidable_of_iff _ disciplined_cons.symm

instance (surface : Surface) (history : List ClientEvent) :
    Decidable (OnSurface surface history) :=
  inferInstanceAs (Decidable (∀ event ∈ history, ∀ call ∈ event.input.call,
    call.surface = surface))

/-- What is known of a sent frame: it shows the pixels that were passed for it,
alone or on top of those that were passed for its base. -/
structure Backed (history : List ClientEvent) (surface : Surface)
    (coding : Coding) (frame : Frame) (call : Call) : Prop where
  isOn : call.surface = surface
  sized : call.Sized
  pixels : passed history frame.frameId = some call.pixels
  regions : frame.regions = [call.whole coding] ∨
    ∃ previous tile,
      previous.length = surface.width * surface.height ∧
      encodeDeltaRegions coding.crc32 coding.compress previous call.pixels
        surface.width surface.height tile
        (min surface.maxRegions maxDeltaRegions) coding.zstdEnabled =
          some frame.regions ∧
      (frame.baseFrameId = 0 ∨
        passed history frame.baseFrameId = some previous)

/-- The terms of the surface stay, and the journal grows. -/
structure Continues (before after : Tally) : Prop where
  flow : after.flow = before.flow
  coding : after.coding = before.coding
  grows : before.journal <+: after.journal

theorem continues_of_moves {call : Call} {start before after : Tally}
    (moves : ReflTransGen (CallMove call start) before after) :
    Continues before after := by
  induction moves with
  | refl => exact ⟨rfl, rfl, List.prefix_rfl⟩
  | tail _ move induction =>
      obtain ⟨sameFlow, sameCoding, grows⟩ := move.grows
      exact ⟨sameFlow.trans induction.flow, sameCoding.trans induction.coding,
        induction.grows.trans grows⟩

/-- A call of which nothing is sent. -/
def Call.idle : Call := ⟨⟨0, 0, 0, 0, 0, 0, 0, 0⟩, [], none⟩

theorem continues_of_step {event : ClientEvent}
    (stepped : clientStep event.before event.input event.output event.after) :
    Continues event.before.tally event.after.tally := by
  rcases moves_of_run stepped with ⟨call, _, moves⟩ | ⟨_, hears⟩
  · exact continues_of_moves moves
  · exact continues_of_moves (@calling_of_hears .idle event.before.tally _ _
      hears)

/-- What every call does. -/
structure Calls (event : ClientEvent) : Prop
    extends Continues event.before.tally event.after.tally where
  sound : event.after.tally.Sound
  made : ∀ frame ∈ sentFrames event.after.journal,
    frame ∈ sentFrames event.before.journal ∨
      ∃ call, event.input.call = some call ∧ call.Sized ∧
        Made call event.before.tally frame

theorem calls_of_step {event : ClientEvent}
    (stepped : clientStep event.before event.input event.output event.after)
    (sound : event.before.tally.Sound)
    (sequenced : event.after.flow.Sequenced event.after.journal) :
    Calls event := by
  rcases moves_of_run stepped with ⟨call, isCall, moves⟩ | ⟨_, hears⟩
  · have proceeds := proceeds_of_moves moves sound sequenced
    refine ⟨continues_of_step stepped, proceeds.sound, ?_⟩
    intro frame member
    rcases proceeds.made frame member with old | ⟨sized, made⟩
    · exact .inl old
    · exact .inr ⟨call, isCall, sized, made⟩
  · have proceeds := proceeds_of_moves (@calling_of_hears .idle _ _ _ hears)
      sound sequenced
    refine ⟨continues_of_step stepped, proceeds.sound, ?_⟩
    intro frame member
    have same : sentFrames event.after.journal =
        sentFrames event.before.journal := by
      have frames := ProducerClient.sentFrames_of_hears hears
      exact frames
    rw [same] at member
    exact .inl member

namespace Calls

variable {event : ClientEvent} {older : List ClientEvent}

theorem journal (calls : Calls event) :
    event.before.journal <+: event.after.journal := calls.grows

theorem newIds_eq (calls : Calls event) :
    sentIds event.after.journal =
      sentIds event.before.journal ++ newIds event := by
  obtain ⟨rest, isRest⟩ := calls.journal
  unfold newIds
  rw [← isRest, sentIds_append, List.drop_left]

theorem passed_older (calls : Calls event) {frameId : Nat}
    (known : frameId ∈ sentIds event.before.journal) :
    passed (event :: older) frameId = passed older frameId := by
  have increasing : (sentIds event.after.journal).Pairwise (· < ·) :=
    calls.sound.increasing
  rw [calls.newIds_eq] at increasing
  have apart := (List.pairwise_append.mp increasing).2.2 frameId known
  rw [passed, if_neg]
  intro isNew
  exact Nat.lt_irrefl _ (apart frameId isNew)

theorem passed_new (calls : Calls event) {frame : Frame}
    (sent : frame ∈ sentFrames event.after.journal)
    (isNew : frame ∉ sentFrames event.before.journal) :
    passed (event :: older) frame.frameId =
      event.input.call.map (·.pixels) := by
  obtain ⟨rest, isRest⟩ := calls.journal
  have member : frame.frameId ∈ newIds event := by
    rw [← isRest, sentFrames_append] at sent
    have later := (List.mem_append.mp sent).resolve_left isNew
    unfold newIds
    rw [← isRest, sentIds_append, List.drop_left]
    exact List.mem_map_of_mem later
  rw [passed, if_pos member]

end Calls

/-- What holds after a part of a run. -/
structure Passes (history : List ClientEvent) (surface : Surface)
    (client : ProducerClient) : Prop where
  sound : client.tally.Sound
  known : ∀ frameId, passed history frameId ≠ none →
    frameId ∈ sentIds client.journal
  backed : ∀ frame ∈ sentFrames client.journal,
    ∃ call, Backed history surface client.tally.coding frame call

theorem Calls.passed_some {event : ClientEvent} {older : List ClientEvent}
    {surface : Surface} {frameId : Nat} {pixels : Bytes}
    (calls : Calls event) (passes : Passes older surface event.before)
    (isPassed : passed older frameId = some pixels) :
    passed (event :: older) frameId = some pixels := by
  have known : frameId ∈ sentIds event.before.journal := by
    apply passes.known
    rw [isPassed]
    exact Option.some_ne_none _
  rw [calls.passed_older known, isPassed]

theorem Backed.later {event : ClientEvent} {older : List ClientEvent}
    {surface : Surface} {coding : Coding} {frame : Frame} {call : Call}
    (calls : Calls event) (passes : Passes older surface event.before)
    (backed : Backed older surface coding frame call) :
    Backed (event :: older) surface coding frame call := by
  refine ⟨backed.isOn, backed.sized,
    calls.passed_some passes backed.pixels, ?_⟩
  rcases backed.regions with whole | ⟨previous, tile, matched, regions, based⟩
  · exact .inl whole
  · refine .inr ⟨previous, tile, matched, regions, ?_⟩
    rcases based with none | isPassed
    · exact .inl none
    · exact .inr (calls.passed_some passes isPassed)

theorem Passes.step {event : ClientEvent} {older : List ClientEvent}
    {surface : Surface} (passes : Passes older surface event.before)
    (calls : Calls event)
    (onSurface : ∀ call ∈ event.input.call, call.surface = surface)
    (disciplined : ∀ call ∈ event.input.call, ∀ previous ∈ call.previous,
      event.before.logicalFrameId ≠ 0 →
        passed older event.before.logicalFrameId = some previous) :
    Passes (event :: older) surface event.after := by
  refine ⟨calls.sound, fun frameId isPassed => ?_, fun frame member => ?_⟩
  · rw [calls.newIds_eq, List.mem_append]
    rw [passed] at isPassed
    split at isPassed
    · exact .inr ‹_›
    · exact .inl (passes.known frameId isPassed)
  · rw [calls.coding]
    by_cases old : frame ∈ sentFrames event.before.journal
    · obtain ⟨call, backed⟩ := passes.backed frame old
      exact ⟨call, backed.later calls passes⟩
    · obtain ⟨call, isCall, sized, made⟩ :=
        (calls.made frame member).resolve_left old
      have sameSurface := onSurface call isCall
      have pixels := @Calls.passed_new event older calls frame member old
      rw [isCall] at pixels
      refine ⟨call, sameSurface, sized, pixels, ?_⟩
      cases made with
      | whole regions => exact .inl regions
      | @delta previous tile given matched regions based =>
          rw [sameSurface] at matched regions
          refine .inr ⟨previous, tile, matched, regions, ?_⟩
          by_cases none : frame.baseFrameId = 0
          · exact .inl none
          · right
            have isLatest : frame.baseFrameId = event.before.logicalFrameId :=
              based.resolve_left none
            rw [isLatest] at none ⊢
            exact calls.passed_some passes
              (disciplined call isCall previous given none)

/-- A surface that was just opened knows of no frames. -/
theorem acceptSurface_blank {client opened : ProducerClient}
    {ready : SurfaceReady} {surface : Surface}
    (accepted : client.acceptSurface ready = .ok (surface, opened)) :
    opened.tally.Sound ∧ opened.journal = [] := by
  obtain ⟨_, _, needs, settled, _, empty⟩ := acceptSurface_opened accepted
  have isEmpty : opened.tally.journal = [] := empty
  have isSettled : opened.tally.pending = [] :=
    congrArg (List.map PendingFrame.frameId) settled
  refine ⟨⟨⟨?_, ?_⟩, ?_, ?_, ?_⟩, isEmpty⟩
  · rw [isEmpty]
    exact .nil
  · rw [isEmpty]
    exact List.forall_mem_nil _
  · rw [isSettled, isEmpty]
    rfl
  · rw [isEmpty]
    exact List.forall_mem_nil _
  · intro keeps
    cases needs.symm.trans keeps

/-- In every run the ids of the frames increase. -/
theorem ClientRun.increasing {start final : ProducerClient}
    {ready : SurfaceReady} {history : List ClientEvent}
    (run : ClientRun start ready history final) :
    (sentIds final.journal).Pairwise (· < ·) := by
  obtain ⟨_, opened, accepted, run⟩ := run
  have counted : final.tally.Counted := by
    induction run with
    | nil => exact (acceptSurface_blank accepted).1.toCounted
    | @snoc older before after input output earlier stepped induction =>
        rcases moves_of_run stepped with ⟨call, _, moves⟩ | ⟨_, hears⟩
        · exact counted_of_moves moves induction
        · exact counted_of_moves
            (@calling_of_hears .idle before.tally _ _ hears) induction
  exact counted.increasing

/-- In a disciplined run against a receiver that answers in order, every frame
shows the pixels that were passed for it. -/
theorem ClientRun.passes {start final : ProducerClient} {ready : SurfaceReady}
    {surface : Surface} {history : List ClientEvent}
    (run : ClientRun start ready history final)
    (sequenced : final.flow.Sequenced final.journal)
    (disciplined : Disciplined history) (onSurface : OnSurface surface history) :
    Passes history surface final := by
  obtain ⟨_, opened, accepted, run⟩ := run
  induction run with
  | nil =>
      obtain ⟨sound, empty⟩ := acceptSurface_blank accepted
      refine ⟨sound, fun frameId isPassed => absurd rfl isPassed, ?_⟩
      rw [empty]
      exact List.forall_mem_nil _
  | @snoc older before after input output earlier stepped induction =>
      let event : ClientEvent := ⟨before, input, output, after⟩
      have continues := @continues_of_step event stepped
      have wasSequenced : before.flow.Sequenced before.journal := by
        have shorter := sequenced.before continues.grows
        rw [show after.flow = before.flow from continues.flow] at shorter
        exact shorter
      have passes := induction wasSequenced
        (disciplined_cons.mp disciplined).2
        fun other member => onSurface other (List.mem_cons_of_mem _ member)
      have calls := @calls_of_step event stepped passes.sound sequenced
      exact passes.step calls (onSurface event List.mem_cons_self)
        (disciplined [] event older rfl)

end RmDisplay.Producer
