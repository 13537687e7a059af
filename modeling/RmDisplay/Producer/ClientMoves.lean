import Mathlib.Logic.Relation
import RmDisplay.Foundation.Emission
import RmDisplay.Producer.ClientReports

/-!
# Moves of a client

Everything a call does to the frames of a client is a sequence of moves: a
result arrives, a keyframe is asked for, a frame is sent.  What holds of the
frames of a client is shown for one move and then holds after every call.
-/

namespace RmDisplay.Producer

open Foundation Protocol Relation

/-- How a client encodes regions. -/
structure Coding where
  crc32 : Bytes → Nat
  compress : Compressor
  zstdEnabled : Bool

/-- What a client knows of its frames, and how it makes them. -/
structure Tally where
  flow : Flow
  coding : Coding
  nextFrameId : Nat
  logicalFrameId : Nat
  needsKeyframe : Bool
  credits : Nat
  byteCredits : Nat
  /-- The frames in flight. -/
  pending : List Nat
  journal : List Exchange

def ProducerClient.tally (self : ProducerClient) : Tally where
  flow := self.flow
  coding := ⟨self.crc32, self.compress, self.zstdEnabled⟩
  nextFrameId := self.nextFrameId
  logicalFrameId := self.logicalFrameId
  needsKeyframe := self.needsKeyframe
  credits := self.credits
  byteCredits := self.byteCredits
  pending := self.pendingFrames.map (·.frameId)
  journal := self.journal

namespace Tally

def note (self : Tally) (entry : Exchange) : Tally :=
  { self with journal := self.journal ++ [entry] }

/-- A message has arrived. -/
def heard (self : Tally) (body : Body) : Tally :=
  match body with
  | .frameResult result => self.note (.received result)
  | _ => self

/-- A frame in flight has got its result. -/
def answered (self : Tally) (result : FrameResult) : Tally :=
  let pending := self.pending.erase result.frameId
  let needsKeyframe := self.needsKeyframe || !ProducerClient.accepts result
  { self with
    pending
    needsKeyframe
    credits := result.credits
    byteCredits :=
      if 1 ≤ self.flow.selectedMinor then result.byteCredits
      else self.byteCredits
    logicalFrameId :=
      if needsKeyframe then result.logicalFrameId
      else pending.getLast?.getD result.logicalFrameId }

theorem answered_pending (self : Tally) (result : FrameResult) :
    (self.answered result).pending = self.pending.erase result.frameId := rfl

theorem answered_byteCredits {self : Tally} (result : FrameResult)
    (minor : 1 ≤ self.flow.selectedMinor) :
    (self.answered result).byteCredits = result.byteCredits := if_pos minor

/-- The client takes a result for one of its frames. -/
structure Takes (tally : Tally) (result : FrameResult) : Prop where
  inFlight : result.frameId ∈ tally.pending
  credits : result.credits ≤ tally.flow.creditLimit
  byteCredits : 1 ≤ tally.flow.selectedMinor →
    result.byteCredits ≤ tally.flow.byteCreditLimit

/-- A frame id and the credits of a frame are used up. -/
def spent (self : Tally) (needed : Nat) : Tally :=
  { self with
    nextFrameId := self.nextFrameId + 1
    credits := self.credits - 1
    byteCredits := self.byteCredits - needed }

/-- There are credits for a frame of these regions. -/
structure Affords (tally : Tally) (regions : List FrameRegion) : Prop where
  credit : 0 < tally.credits
  byteCredits : ProducerClient.decodedBytes regions ≤ tally.byteCredits
  few : tally.pending.length < 2

/-- A frame is on its way. -/
def launched (self : Tally) (frame : Frame) (needsKeyframe : Bool) : Tally :=
  { self.spent (ProducerClient.decodedBytes frame.regions) with
    logicalFrameId := frame.frameId
    needsKeyframe
    pending := self.pending ++ [frame.frameId]
    journal := self.journal ++ [.sent frame] }

end Tally

/-- Moves that send no frame. -/
inductive HearMove : Tally → Tally → Prop
  | took {tally : Tally} {result : FrameResult} (takes : tally.Takes result) :
      HearMove tally ((tally.note (.received result)).answered result)
  | ignored {tally : Tally} {result : FrameResult}
      (odd : ¬ tally.Takes result) :
      HearMove tally (tally.note (.received result))
  | demanded {tally : Tally} :
      HearMove tally { tally with needsKeyframe := true }

abbrev Hears : Tally → Tally → Prop := ReflTransGen HearMove

/-- What a call that sends frames is given. -/
structure Call where
  surface : Surface
  pixels : Bytes
  previous : Option Bytes
deriving DecidableEq

/-- The region of a frame that shows all pixels. -/
def Call.whole (self : Call) (coding : Coding) : FrameRegion :=
  encodeRegion coding.crc32 coding.compress
    ⟨0, 0, self.surface.width, self.surface.height⟩ self.pixels
    coding.zstdEnabled

/-- The pixels of a call fill its surface. -/
structure Call.Sized (call : Call) : Prop where
  pixels : call.pixels.length = call.surface.width * call.surface.height
  fits : call.pixels.length ≤ call.surface.maxFrameBytes

/-- A frame of a call that began with the tally `start`.  A delta is sent before
any other frame, while no keyframe is needed. -/
inductive Draws (call : Call) (start tally : Tally) (frame : Frame) : Prop
  | whole (regions : frame.regions = [call.whole tally.coding])
      (based : frame.baseFrameId = 0 ∨
        frame.baseFrameId = tally.logicalFrameId)
  | delta {previous : Bytes} {tile : Nat} (given : call.previous = some previous)
      (matched : previous.length = call.surface.width * call.surface.height)
      (regions : encodeDeltaRegions tally.coding.crc32 tally.coding.compress
        previous call.pixels call.surface.width call.surface.height tile
        (min call.surface.maxRegions maxDeltaRegions)
        tally.coding.zstdEnabled = some frame.regions)
      (based : frame.baseFrameId = tally.logicalFrameId)
      (keeps : tally.needsKeyframe = false)
      (first : sentFrames tally.journal = sentFrames start.journal)

/-- Moves of a call that began with the tally `start`. -/
inductive CallMove (call : Call) (start : Tally) : Tally → Tally → Prop
  | hears {tally next : Tally} (move : HearMove tally next) :
      CallMove call start tally next
  | retried {tally : Tally} (result : FrameResult) :
      CallMove call start tally (tally.note (.retried result))
  | skipped {tally : Tally} (needed : Nat) :
      CallMove call start tally (tally.spent needed)
  | sent {tally : Tally} {frame : Frame} (needsKeyframe : Bool)
      (isNext : frame.frameId = tally.nextFrameId) (sized : call.Sized)
      (draws : Draws call start tally frame)
      (affords : tally.Affords frame.regions) :
      CallMove call start tally (tally.launched frame needsKeyframe)

/-- What is handed out does not matter here. -/
def hearing : Emission ProducerClient Unit :=
  .ofRelation (fun before after => Hears before.tally after.tally)
    (fun _ => .refl) fun earlier later => earlier.trans later

def calling (call : Call) (start : Tally) : Emission ProducerClient Unit :=
  .ofRelation
    (fun before after =>
      ReflTransGen (CallMove call start) before.tally after.tally)
    (fun _ => .refl) fun earlier later => earlier.trans later

theorem calling_of_hears {call : Call} {start before after : Tally}
    (hears : Hears before after) :
    ReflTransGen (CallMove call start) before after :=
  hears.lift id fun _ _ move => .hears move

namespace ProducerClient

variable {α β : Type}

/-- A part of a call that sends no frame. -/
abbrev Listens (proc : ClientProc α) : Prop :=
  hearing.Emits proc fun _ => []

/-- A part of a call that starts with a message that just arrived. -/
def Heeds (body : Body) (proc : ClientProc α) : Prop :=
  ∀ (before : Tally) client output after, client.tally = before.heard body →
    proc.Runs client output after → Hears before after.tally

theorem hearing_of_eq {before after : ProducerClient}
    (same : after.tally = before.tally) : hearing.rel before [] after := by
  change Hears before.tally after.tally
  rw [same]

theorem Heeds.bind {body : Body} {proc : ClientProc α}
    {next : α → ClientProc β} (first : Heeds body proc)
    (rest : ∀ value, Listens (next value)) : Heeds body (proc >>= next) := by
  intro before client output after heard runs
  rcases Proc.runs_bind.mp runs with ⟨value, between, ran, continued⟩ |
    ⟨err, rfl, failed⟩
  · exact (first before client _ between heard ran).trans
      (rest value between output after continued)
  · exact first before client _ after heard failed

/-- A message that is no result changes nothing by arriving. -/
theorem Heeds.of_listens {body : Body} {proc : ClientProc α}
    (listens : Listens proc) (other : ∀ result, body ≠ .frameResult result) :
    Heeds body proc := by
  intro before client output after heard runs
  have same : before.heard body = before := by
    unfold Tally.heard
    split
    · exact absurd rfl (other _)
    · rfl
  rw [same] at heard
  have hears : Hears client.tally after.tally := listens client output after runs
  rw [heard] at hears
  exact hears

theorem noteReceived_tally (client : ProducerClient) (envelope : Envelope) :
    (client.noteReceived envelope).tally =
      match envelope.body with
      | some body => client.tally.heard body
      | none => client.tally := by
  unfold noteReceived
  cases envelope.body with
  | none => rfl
  | some body => cases body <;> rfl

/-- Receive a message and go on with what it says. -/
theorem receive_listens {next : Envelope → ClientProc α}
    (empty : ∀ envelope, envelope.body = none → Listens (next envelope))
    (full : ∀ envelope body, envelope.body = some body →
      Heeds body (next envelope)) :
    Listens (receive >>= next) := by
  intro client output after runs
  have quiet {between : ProducerClient}
      {given : Except ProducerError Envelope}
      (ran : receive.Runs client given between) :
      (∃ err, given = .error err ∧ between.tally = client.tally) ∨
        ∃ envelope, given = .ok envelope ∧
          between.tally = (client.noteReceived envelope).tally := by
    simp only [receive, Proc.runs_get_bind] at ran
    split at ran
    · cases given <;> cases ran
    · rw [Proc.runs_set_bind] at ran
      split at ran
      · obtain ⟨rfl, rfl⟩ := Proc.runs_throw.mp ran
        exact .inl ⟨_, rfl, rfl⟩
      · split at ran
        · obtain ⟨rfl, rfl⟩ := Proc.runs_throw.mp ran
          exact .inl ⟨_, rfl, rfl⟩
        · split at ran
          · obtain ⟨rfl, rfl⟩ := Proc.runs_throw.mp ran
            exact .inl ⟨_, rfl, rfl⟩
          · rw [Proc.runs_modify_bind] at ran
            obtain ⟨rfl, rfl⟩ := Proc.runs_pure.mp ran
            refine .inr ⟨_, rfl, ?_⟩
            rw [noteReceived_tally]
            exact noteReceived_tally _ _
  rcases Proc.runs_bind.mp runs with ⟨envelope, between, ran, continued⟩ |
    ⟨err, rfl, failed⟩
  · rcases quiet ran with ⟨_, impossible, _⟩ | ⟨_, same, noted⟩
    · cases impossible
    · cases same
      rw [noteReceived_tally] at noted
      cases isBody : envelope.body with
      | none =>
          rw [isBody] at noted
          have hears : Hears between.tally after.tally :=
            empty envelope isBody between output after continued
          rw [show between.tally = client.tally from noted] at hears
          exact hears
      | some body =>
          rw [isBody] at noted
          exact full envelope body isBody client.tally between output after
            noted continued
  · rcases quiet failed with ⟨_, _, same⟩ | ⟨_, impossible, _⟩
    · exact hearing_of_eq same
    · cases impossible

theorem answered_tally (client : ProducerClient) (result : FrameResult) :
    (client.answered result).tally = client.tally.answered result := by
  have erased : (client.pendingFrames.eraseP
      (·.frameId == result.frameId)).map (·.frameId) =
        (client.pendingFrames.map (·.frameId)).erase result.frameId := by
    rw [List.erase_eq_eraseP, List.eraseP_map]
    congr 2
    funext other
    exact BEq.comm
  unfold Tally.answered tally answered
  simp only [← erased, List.getLast?_map]
  rfl

theorem applyFrameResult_heeds (result : FrameResult) :
    Heeds (.frameResult result) (applyFrameResult result) := by
  intro before client output after heard runs
  have pending : client.pendingFrames.map (·.frameId) = before.pending :=
    congrArg Tally.pending heard
  have flow : client.flow = before.flow := congrArg Tally.flow heard
  have noted : client.tally = before.note (.received result) := heard
  simp only [applyFrameResult, Proc.runs_get_bind] at runs
  split at runs
  · rename_i exceeds
    obtain ⟨rfl, rfl⟩ := Proc.runs_throw.mp runs
    rw [noted]
    apply ReflTransGen.single
    apply HearMove.ignored
    rintro ⟨_, credits, byteCredits⟩
    rw [← flow] at credits byteCredits
    rcases exceeds with exceeds | ⟨minor, exceeds⟩
    · exact absurd credits (Nat.not_le.mpr exceeds)
    · exact absurd (byteCredits minor) (Nat.not_le.mpr exceeds)
  · rename_i within
    split at runs
    · rename_i missing
      obtain ⟨rfl, rfl⟩ := Proc.runs_throw.mp runs
      rw [noted]
      apply ReflTransGen.single
      apply HearMove.ignored
      rintro ⟨inFlight, _, _⟩
      rw [← pending] at inFlight
      obtain ⟨frame, member, same⟩ := List.mem_map.mp inFlight
      exact List.find?_eq_none.mp missing frame member (beq_iff_eq.mpr same)
    · rename_i frame found
      rw [Proc.runs_set_bind, Proc.runs_pure] at runs
      obtain ⟨rfl, rfl⟩ := runs
      rw [answered_tally, noted]
      apply ReflTransGen.single
      apply HearMove.took
      refine ⟨?_, ?_, ?_⟩
      · have same := List.find?_some found
        rw [← pending]
        exact List.mem_map.mpr ⟨frame, List.mem_of_find?_eq_some found,
          beq_iff_eq.mp same⟩
      · rw [← flow]
        exact Nat.not_lt.mp fun exceeds => within (.inl exceeds)
      · rw [← flow]
        exact fun minor => Nat.not_lt.mp fun exceeds =>
          within (.inr ⟨minor, exceeds⟩)

/-- Reports that wait for a caller do not belong to the tally. -/
theorem queueReport_listens (report : FrameReport) :
    Listens (queueReport report) :=
  .modify fun _ => .refl

theorem send_listens {body : Body} (other : ∀ frame, body ≠ .frame frame) :
    Listens (send body) := by
  have unnoted (client : ProducerClient) : client.noteSent body = client := by
    unfold noteSent
    split
    · exact absurd rfl (other _)
    · rfl
  refine .of_from fun client => .get ?_
  split
  · exact .throw
  · refine .set (hearing_of_eq rfl) ?_
    split
    · exact .throw
    · refine .finish ?_ rfl
      rw [unnoted]
      exact hearing.refl _

theorem emitEvent_listens (body : Body) : Listens (emitEvent body) := by
  refine .of_from fun client => .get ?_
  split
  · exact .pure rfl
  · split
    · exact .throw
    · exact .set (hearing_of_eq rfl) (.pure rfl)

theorem handleAuxiliary_heeds (body : Body) :
    Heeds body (handleAuxiliary body) := by
  cases body with
  | frameResult result =>
      exact (applyFrameResult_heeds result).bind queueReport_listens
  | actionInvoke surfaceId generation invocationId =>
      apply Heeds.of_listens ?_ (by intro _ same; cases same)
      refine .of_from fun client => .get ?_
      refine .quiet (emitEvent_listens _) fun _ between => ?_
      exact .all (send_listens (by intro _ same; cases same))
  | error err =>
      apply Heeds.of_listens ?_ (by intro _ same; cases same)
      refine .of_from fun client => ?_
      change hearing.From client client []
        (if err.fatal then Proc.throw (ProducerError.remote err.message) else pure ()) _
      split
      · exact .throw
      · exact .pure rfl
  | ping cookie =>
      apply Heeds.of_listens (send_listens ?_) (by intro _ same; cases same)
      intro _ same
      cases same
  | inputBatch | keyInput | textInput =>
      exact .of_listens (emitEvent_listens _) (by intro _ same; cases same)
  | goodbye =>
      apply Heeds.of_listens ?_ (by intro _ same; cases same)
      exact .of_from fun _ => .throw
  | _ =>
      apply Heeds.of_listens ?_ (by intro _ same; cases same)
      exact .of_from fun _ => .pure rfl

theorem pumpOnce_listens : Listens pumpOnce := by
  apply receive_listens
  · intro envelope isNone
    rw [isNone]
    exact .of_from fun _ => .throw
  · intro envelope body isSome
    rw [isSome]
    exact handleAuxiliary_heeds body

theorem receiveUntil_listens {α : Type}
    {awaited : Body → ClientProc (Option α)}
    (each : ∀ body, Heeds body (awaited body)) (messages : Nat) :
    Listens (receiveUntil awaited messages) := by
  induction messages with
  | zero => exact .of_from fun _ => .panic
  | succ messages induction =>
      apply receive_listens
      · intro envelope isNone
        rw [isNone]
        exact .of_from fun _ => .throw
      · intro envelope body isSome
        rw [isSome]
        apply (each body).bind
        intro found
        cases found with
        | some value => exact .pure rfl
        | none => exact induction

theorem await_listens {α : Type} {awaited : Body → ClientProc (Option α)}
    (each : ∀ body, Heeds body (awaited body)) : Listens (await awaited) :=
  .of_from fun _ => .get (.all (receiveUntil_listens each _))

theorem aside_heeds {α : Type} (body : Body) :
    Heeds body (do handleAuxiliary body; return (none : Option α)) :=
  (handleAuxiliary_heeds body).bind fun _ => .pure rfl

theorem anyReport_heeds (body : Body) : Heeds body (anyReport body) := by
  cases body with
  | frameResult result =>
      exact (applyFrameResult_heeds result).bind fun _ => .pure rfl
  | _ => exact aside_heeds _

theorem receivePendingFrameReport_listens :
    Listens receivePendingFrameReport := await_listens anyReport_heeds

theorem settleLoop_listens (turns : Nat) : Listens (settleLoop turns) := by
  induction turns with
  | zero => exact .of_from fun _ => .panic
  | succ turns induction =>
      refine .of_from fun client => .get (.ite (fun _ => .pure rfl) fun _ => ?_)
      refine .quiet receivePendingFrameReport_listens fun report _ => ?_
      exact .quiet (queueReport_listens report) fun _ _ => .all induction

theorem settlePendingFrames_listens : Listens settlePendingFrames :=
  .of_from fun _ => .get (.all (settleLoop_listens _))

theorem reportOf_heeds (frameId : Nat) (body : Body) :
    Heeds body (reportOf frameId body) := by
  cases body with
  | frameResult result =>
      apply (applyFrameResult_heeds result).bind
      intro report
      refine .of_from fun _ => .ite (fun _ => .pure rfl) fun _ => ?_
      exact .quiet (queueReport_listens report) fun _ _ => .pure rfl
  | _ => exact aside_heeds _

theorem overlayAnswer_heeds (sequence : Nat) (body : Body) :
    Heeds body (overlayAnswer sequence body) := by
  cases body with
  | overlayResult result =>
      apply Heeds.of_listens ?_ (by intro _ same; cases same)
      exact .of_from fun _ => .ite (fun _ => .pure rfl) fun _ => .pure rfl
  | _ => exact aside_heeds _

theorem waitForFrameReport_listens (frameId : Nat) :
    Listens (waitForFrameReport frameId) := by
  refine .of_from fun client => .get ?_
  split
  · exact .set (hearing_of_eq rfl) (.pure rfl)
  · exact .all (await_listens (reportOf_heeds frameId))

theorem takeReport_listens : Listens takeReport := by
  refine .of_from fun client => .get ?_
  split
  · exact .pure rfl
  · exact .set (hearing_of_eq rfl) (.pure rfl)

theorem waitForFrameCreditReport_listens :
    Listens waitForFrameCreditReport := by
  refine .of_from fun client => .quiet takeReport_listens fun found _ => ?_
  cases found with
  | some report => exact .pure rfl
  | none =>
      refine .get (.ite (fun _ => .pure rfl) fun _ => ?_)
      exact .quiet receivePendingFrameReport_listens fun _ _ => .pure rfl

theorem flushFrameReports_listens : Listens flushFrameReports :=
  .of_from fun _ => .quiet settlePendingFrames_listens fun _ _ =>
    .get (.set (hearing_of_eq rfl) (.pure rfl))

theorem updateOverlay_listens (update : OverlayUpdate) :
    Listens (updateOverlay update) := by
  have sends : Listens (send (.overlayUpdate update)) :=
    send_listens (by intro _ same; cases same)
  refine .of_from fun client => .get (.ite (fun _ => .throw) fun _ => ?_)
  refine .quiet sends fun _ _ => ?_
  refine .quiet (await_listens (overlayAnswer_heeds _)) fun result between => ?_
  refine .modify ?_ (.pure rfl)
  split
  · exact .single .demanded
  · exact hearing.refl _

theorem creditLoop_listens (needed turns : Nat) :
    Listens (creditLoop needed turns) := by
  induction turns with
  | zero => exact .of_from fun _ => .panic
  | succ turns induction =>
      refine .of_from fun client => .get (.ite (fun _ => ?_) fun _ => .pure rfl)
      refine .ite (fun _ => .throw) fun _ => ?_
      refine .quiet receivePendingFrameReport_listens fun report _ => ?_
      refine .quiet (queueReport_listens report) fun _ _ => .get ?_
      exact .ite (fun _ => .pure rfl) fun _ => .all induction

variable {call : Call} {start : Tally}

theorem calls_of_listens {proc : ClientProc α} (listens : Listens proc) :
    (calling call start).Emits proc fun _ => [] :=
  listens.mono fun _ _ _ hears => calling_of_hears hears

/-- A frame was sent with the next id, or an id may have been used up. -/
theorem postFrame_tally {input : FrameInput} {regions : List FrameRegion}
    {baseFrameId : Nat} {exhausted : Nat → ProducerError}
    {client after : ProducerClient} {output : Except ProducerError Nat}
    (runs : (postFrame input regions baseFrameId exhausted).Runs client output
      after) :
    match output with
    | .ok frameId =>
        ∃ frame : Frame, frame.frameId = frameId ∧
          frame.frameId = client.nextFrameId ∧
          frame.baseFrameId = baseFrameId ∧ frame.regions = regions ∧
          after.pendingFrames = client.pendingFrames ∧
          ∀ producer needsKeyframe,
            ({ after.launch frameId producer with needsKeyframe } :
              ProducerClient).tally =
              client.tally.launched frame needsKeyframe
    | .error _ =>
        after.tally = client.tally ∨
          after.tally = client.tally.spent (decodedBytes regions) := by
  simp only [postFrame, Proc.runs_get_bind] at runs
  split at runs
  · obtain ⟨rfl, rfl⟩ := Proc.runs_throw.mp runs
    exact .inl rfl
  · rename_i next isNext
    obtain ⟨rfl, _⟩ := Bounded.checkedAdd_eq_some.mp isNext
    rw [Proc.runs_set_bind] at runs
    rcases Proc.runs_bind.mp runs with ⟨_, between, sends, returned⟩ |
      ⟨err, rfl, failed⟩
    · obtain ⟨rfl, rfl⟩ := Proc.runs_pure.mp returned
      simp only [send, Proc.runs_get_bind] at sends
      split at sends
      · cases (Proc.runs_throw.mp sends).1
      · rw [Proc.runs_set_bind] at sends
        split at sends
        · cases (Proc.runs_throw.mp sends).1
        · obtain ⟨_, rfl⟩ := Proc.runs_modify.mp sends
          let frame : Frame :=
            { surfaceId := input.surface.id
              generation := input.surface.generation
              frameId := client.nextFrameId
              baseFrameId
              intent := wire input.intent
              contentClass := wire input.contentClass
              regions }
          refine ⟨frame, rfl, rfl, rfl, rfl, rfl,
            fun producer needsKeyframe => ?_⟩
          unfold tally launch Tally.launched
          simp only [List.map_append, List.map_singleton]
          rfl
    · right
      simp only [send, Proc.runs_get_bind] at failed
      split at failed
      · obtain ⟨_, rfl⟩ := Proc.runs_throw.mp failed
        rfl
      · rw [Proc.runs_set_bind] at failed
        split at failed
        · obtain ⟨_, rfl⟩ := Proc.runs_throw.mp failed
          rfl
        · cases (Proc.runs_modify.mp failed).1

/-- A frame that was drawn for this call is sent. -/
theorem postFrame_calls {input : FrameInput} {regions : List FrameRegion}
    {baseFrameId : Nat} {exhausted : Nat → ProducerError}
    {change : Nat → ProducerClient → ProducerClient}
    {next : Nat → ClientProc β} {origin client : ProducerClient}
    (sized : call.Sized)
    (draws : ∀ frame : Frame, frame.regions = regions →
      frame.baseFrameId = baseFrameId →
      Draws call start client.tally frame)
    (affords : client.tally.Affords regions)
    (launches : ∀ frameId (between : ProducerClient),
      ∃ producer needsKeyframe, change frameId between =
        { between.launch frameId producer with needsKeyframe })
    (rest : ∀ frameId (between : ProducerClient),
      between.pendingFrames = client.pendingFrames →
      (calling call start).From origin (change frameId between) []
        (next frameId) fun _ => []) :
    (calling call start).From origin client []
      (postFrame input regions baseFrameId exhausted >>= fun frameId =>
        Proc.modify (change frameId) >>= fun _ => next frameId)
      fun _ => [] := by
  refine .backed ?_ ?_ fun frameId between runs => ?_
  · intro frameId after runs
    obtain ⟨frame, _, isNext, based, sameRegions, _, launched⟩ :=
      postFrame_tally runs
    obtain ⟨producer, needsKeyframe, changed⟩ := launches frameId after
    change ReflTransGen (CallMove call start) client.tally
      (change frameId after).tally
    rw [changed, launched]
    rw [← sameRegions] at affords
    exact .single (.sent needsKeyframe isNext sized
      (draws frame sameRegions based) affords)
  · intro err after runs
    change ReflTransGen (CallMove call start) client.tally after.tally
    rcases postFrame_tally runs with same | skipped
    · rw [same]
    · rw [skipped]
      exact .single (.skipped _)
  · obtain ⟨_, _, _, _, _, samePending, _⟩ := postFrame_tally runs
    exact rest frameId between samePending

theorem concludeFrame_emits {emission : Emission ProducerClient Unit}
    {frameId : Nat}
    (waits : emission.Emits (waitForFrameReport frameId) fun _ => [])
    (retries : ∀ client result,
      emission.rel client [] (client.note (.retried result)))
    (forceKeyframe : Bool) :
    emission.Emits (concludeFrame frameId forceKeyframe) fun _ => [] := by
  refine .of_from fun _ => .quiet waits fun report between => ?_
  refine .ite (fun _ => .pure rfl) fun _ => ?_
  split
  · exact .pure rfl
  · exact .pure rfl
  · refine .ite (fun _ => .throw) fun _ => ?_
    exact .modify (retries between report.result) (.pure rfl)
  · exact .throw
  · exact .throw

theorem concludeFrame_calls (frameId : Nat) (forceKeyframe : Bool) :
    (calling call start).Emits (concludeFrame frameId forceKeyframe)
      fun _ => [] :=
  concludeFrame_emits (calls_of_listens (waitForFrameReport_listens frameId))
    (fun _ result => .single (.retried result)) forceKeyframe

theorem length_of_hears {before after : Tally} (hears : Hears before after) :
    after.pending.length ≤ before.pending.length := by
  induction hears with
  | refl => exact Nat.le_refl _
  | tail _ move induction =>
      refine Nat.le_trans ?_ induction
      cases move with
      | took _ => exact List.length_erase_le
      | ignored _ | demanded => exact Nat.le_refl _

/-- No frame gets into flight. -/
def draining : Emission ProducerClient Unit :=
  .ofRelation
    (fun before after =>
      after.pendingFrames.length ≤ before.pendingFrames.length)
    (fun _ => Nat.le_refl _) fun earlier later => Nat.le_trans later earlier

theorem drains_of_listens {proc : ClientProc α} (listens : Listens proc) :
    draining.Emits proc fun _ => [] := by
  refine listens.mono fun before _ after hears => ?_
  have fewer := length_of_hears hears
  simp only [tally, List.length_map] at fewer
  exact fewer

theorem concludeFrame_drains {frameId : Nat} {forceKeyframe : Bool}
    {client after : ProducerClient}
    {output : Except ProducerError (FrameReport × Bool)}
    (runs : (concludeFrame frameId forceKeyframe).Runs client output after) :
    after.pendingFrames.length ≤ client.pendingFrames.length :=
  concludeFrame_emits (drains_of_listens (waitForFrameReport_listens frameId))
    (fun _ _ => Nat.le_refl _) forceKeyframe client output after runs

/-- What is sent is what the call is given, in the right sizes. -/
structure Serves (call : Call) (input : FrameInput) : Prop where
  sized : call.Sized
  surface : input.surface = call.surface
  pixels : input.pixels = call.pixels
  delta : ∀ previous tile, input.delta = some (previous, tile) →
    call.previous = some previous ∧
      previous.length = call.surface.width * call.surface.height

theorem draws_of_frameRegions {input : FrameInput} {client : ProducerClient}
    {regions : List FrameRegion} {forceKeyframe : Bool} {frame : Frame}
    (serves : Serves call input)
    (given : client.frameRegions input forceKeyframe = .ok regions)
    (same : frame.regions = regions)
    (based : frame.baseFrameId =
      if forceKeyframe then 0 else client.logicalFrameId)
    (early : forceKeyframe = false → client.needsKeyframe = false ∧
      sentFrames client.journal = sentFrames start.journal) :
    Draws call start client.tally frame := by
  obtain ⟨_, sameSurface, samePixels, sameDelta⟩ := serves
  have isWhole : client.wholeRegions input = [call.whole client.tally.coding] := by
    rw [wholeRegions, sameSurface, samePixels]
    rfl
  have onBase : frame.baseFrameId = 0 ∨
      frame.baseFrameId = client.tally.logicalFrameId := by
    rw [based]
    split
    · exact .inl rfl
    · exact .inr rfl
  unfold frameRegions at given
  split at given
  · cases given
    exact .whole (same.trans isWhole) onBase
  · rename_i delta
    split at given
    · rename_i previous tile isDelta
      obtain ⟨keeps, first⟩ := early (Bool.eq_false_iff.mpr delta)
      rw [if_neg delta] at based
      obtain ⟨isPrevious, matched⟩ := sameDelta previous tile isDelta
      rw [deltaRegions, sameSurface, samePixels, ← same] at given
      exact .delta isPrevious matched (Res.orPanic_eq_ok.mp given) based keeps
        first
    · cases given
      exact .whole (same.trans isWhole) onBase

theorem sendLoop_calls {input : FrameInput} (serves : Serves call input)
    (turns : Nat) (origin client : ProducerClient)
    (forceKeyframe : Bool) (producer : ProducerFrameMetrics)
    (few : client.pendingFrames.length + turns ≤ 2)
    (early : forceKeyframe = false → client.needsKeyframe = false ∧
      sentFrames client.journal = sentFrames start.journal) :
    (calling call start).From origin client []
      (sendLoop input forceKeyframe producer turns) fun _ => [] := by
  induction turns generalizing client forceKeyframe producer with
  | zero => exact .panic
  | succ turns induction =>
      refine .get (.ofRes fun regions given => .ite (fun _ => .throw) fun credit =>
        .ite (fun _ => .throw) fun enough => ?_)
      have affords : client.tally.Affords regions := by
        refine ⟨Nat.pos_of_ne_zero credit, Nat.not_lt.mp enough, ?_⟩
        simp only [tally, List.length_map]
        omega
      refine postFrame_calls serves.sized ?_ affords (fun _ _ => ⟨_, _, rfl⟩) ?_
      · intro frame same based
        exact draws_of_frameRegions serves given same based early
      · intro frameId between samePending
        refine .known (concludeFrame_calls frameId forceKeyframe) ?_
        rintro ⟨report, again⟩ later concluded
        refine .ite (fun _ => ?_) fun _ => .pure rfl
        refine induction later true report.producer ?_ fun isFalse => by
          cases isFalse
        have fewer := concludeFrame_drains concluded
        simp only [launch, samePending, List.length_append,
          List.length_singleton] at fewer
        omega

theorem sentFrames_of_hears {before after : Tally} (hears : Hears before after) :
    sentFrames after.journal = sentFrames before.journal := by
  induction hears with
  | refl => rfl
  | tail _ move induction =>
      rw [← induction]
      cases move with
      | took _ | ignored _ => exact (sentFrames_append).trans (List.append_nil _)
      | demanded => rfl

theorem sized_of_validate {surface : Surface} {pixels : Bytes}
    {given : Option Bytes} {previous : Option Bytes}
    (valid : validateFramePixels surface pixels given = .ok ()) :
    Call.Sized ⟨surface, pixels, previous⟩ ∧
      ∀ other ∈ given, other.length = surface.width * surface.height := by
  unfold validateFramePixels at valid
  split at valid
  · cases valid
  · rename_i expected computed
    obtain ⟨rfl, _⟩ := Bounded.checkedMul_eq_some.mp computed
    split at valid
    · cases valid
    · rename_i samePixels
      split at valid
      · cases valid
      · rename_i fits
        refine ⟨⟨not_not.mp samePixels, Nat.not_lt.mp fits⟩, ?_⟩
        intro other isOther
        cases isOther
        dsimp only at valid
        split at valid
        · cases valid
        · rename_i sameOther
          exact not_not.mp sameOther

/-- A frame is sent once all frames in flight have their results. -/
theorem sendFrameReportInner_calls {input : FrameInput}
    {origin client : ProducerClient} (surface : input.surface = call.surface)
    (pixels : input.pixels = call.pixels)
    (delta : ∀ previous tile, input.delta = some (previous, tile) →
      call.previous = some previous)
    (quiet : sentFrames client.journal = sentFrames start.journal) :
    (calling call start).From origin client [] (sendFrameReportInner input)
      fun _ => [] := by
  intro reached output after runs
  rcases Proc.runs_bind.mp runs with ⟨_, settled, settles, runs⟩ |
    ⟨err, rfl, failed⟩
  · have hears : Hears client.tally settled.tally :=
      settlePendingFrames_listens _ _ _ settles
    have still : sentFrames settled.journal = sentFrames start.journal :=
      (sentFrames_of_hears hears).trans quiet
    have further : (calling call start).rel origin [] settled :=
      reached.trans (calling_of_hears hears)
    refine Emission.From.ofRes (fun checked valid => ?_) further output after
      runs
    obtain ⟨sized, matched⟩ := sized_of_validate valid
    rw [surface, pixels] at sized
    have settledNone : settled.pendingFrames = [] := settleLoop_post settles
    refine .get (sendLoop_calls ⟨sized, surface, pixels, ?_⟩ _ _ _ _ _
      (by rw [settledNone]; rfl) ?_)
    · intro previous tile isDelta
      refine ⟨delta previous tile isDelta, ?_⟩
      rw [← surface]
      exact matched previous (by rw [isDelta]; rfl)
    · intro free
      exact ⟨(Bool.or_eq_false_iff.mp free).1, still⟩
  · have hears : Hears client.tally after.tally :=
      settlePendingFrames_listens _ _ _ failed
    exact reached.trans (calling_of_hears hears)

/-- A keyframe in place of a delta. -/
theorem recover_calls {input : FrameInput} {origin client : ProducerClient}
    (surface : input.surface = call.surface)
    (pixels : input.pixels = call.pixels) (whole : input.delta = none)
    (quiet : sentFrames client.journal = sentFrames start.journal) :
    (calling call start).From origin client [] (recover input) fun _ => [] := by
  intro reached output after runs
  rcases Proc.runs_bind.mp runs with ⟨_, settled, settles, runs⟩ |
    ⟨err, rfl, failed⟩
  · have hears : Hears client.tally settled.tally :=
      settlePendingFrames_listens _ _ _ settles
    have further : (calling call start).rel origin [] settled :=
      reached.trans (calling_of_hears hears)
    have sends : (calling call start).From settled settled []
        (sendFrameReportInner input) fun _ => [] := by
      refine sendFrameReportInner_calls surface pixels ?_
        ((sentFrames_of_hears hears).trans quiet)
      intro previous tile isDelta
      rw [whole] at isDelta
      cases isDelta
    have rest : (calling call start).From origin settled []
        (sendFrameReportInner input >>= fun report => pure (some report))
        fun _ => [] := .call sends fun _ _ => .pure rfl
    exact rest further output after runs
  · have hears : Hears client.tally after.tally :=
      settlePendingFrames_listens _ _ _ failed
    exact reached.trans (calling_of_hears hears)

theorem coding_of_hears {before after : Tally} (hears : Hears before after) :
    after.coding = before.coding := by
  induction hears with
  | refl => rfl
  | tail _ move induction =>
      rw [← induction]
      cases move <;> rfl

theorem queueDeltaFrameReport_calls {input : FrameInput} {previous : Bytes}
    {tile : Nat} {client after : ProducerClient}
    {output : Except ProducerError (Option FrameReport)}
    (surface : input.surface = call.surface)
    (pixels : input.pixels = call.pixels) (whole : input.delta = none)
    (isPrevious : call.previous = some previous)
    (runs : (queueDeltaFrameReport input previous tile).Runs client output
      after) :
    (calling call client.tally).rel client [] after := by
  rw [queueDeltaFrameReport, Proc.runs_get_bind] at runs
  split at runs
  · exact recover_calls surface pixels whole rfl (.refl) _ _ runs
  rename_i free
  rw [Proc.runs_ofRes_bind] at runs
  rcases runs with ⟨checked, valid, runs⟩ | ⟨err, _, rfl, rfl⟩
  swap
  · exact .refl
  rw [Proc.runs_ofRes_bind] at runs
  rcases runs with ⟨regions, computed, runs⟩ | ⟨err, _, rfl, rfl⟩
  swap
  · exact .refl
  rcases Proc.runs_bind.mp runs with ⟨again, waited, credit, runs⟩ |
    ⟨err, rfl, failed⟩
  swap
  · exact calls_of_listens (creditLoop_listens _ _) _ _ _ failed
  have hears : Hears client.tally waited.tally :=
    creditLoop_listens _ _ _ _ _ credit
  have reached : (calling call client.tally).rel client [] waited :=
    calling_of_hears hears
  cases again with
  | true =>
      exact recover_calls surface pixels whole (sentFrames_of_hears hears)
        reached _ _ runs
  | false =>
      obtain ⟨keeps, few, someCredit, enough⟩ :=
        creditLoop_post credit (Bool.eq_false_iff.mpr fun needs =>
          free (.inl needs))
      have affords : waited.tally.Affords regions := by
        refine ⟨Nat.pos_of_ne_zero someCredit, enough, ?_⟩
        simp only [tally, List.length_map]
        exact few
      obtain ⟨sized, matched⟩ :=
        @sized_of_validate _ _ _ call.previous valid
      rw [surface, pixels] at sized
      rw [deltaRegions, surface, pixels] at computed
      have encoded := Res.orPanic_eq_ok.mp computed
      have posts : (calling call client.tally).From client waited []
          (postFrame input regions waited.logicalFrameId
            (fun _ => .messageOrder) >>= fun frameId =>
              Proc.modify (fun client => client.launch frameId
                { attempts := 1 }) >>= fun _ => takeReport) fun _ => [] := by
        refine postFrame_calls sized ?_ affords ?_
          fun _ _ _ => .all (calls_of_listens takeReport_listens)
        · intro frame same based
          rw [← same] at encoded
          rw [surface] at matched
          refine @Draws.delta _ _ _ _ previous tile isPrevious
            (matched previous rfl) ?_ based keeps (sentFrames_of_hears hears)
          rw [coding_of_hears hears]
          exact encoded
        · exact fun frameId between =>
            ⟨{ attempts := 1 }, between.needsKeyframe, rfl⟩
      exact posts reached _ _ runs

end ProducerClient

/-- What a call that sends frames was given. -/
def ClientOp.call : ClientOp → Option Call
  | .queueDelta surface previous pixels _ _ =>
      some ⟨surface, pixels, some previous⟩
  | .sendFrame surface pixels _ _ => some ⟨surface, pixels, none⟩
  | .sendDelta surface previous pixels _ _ _ =>
      some ⟨surface, pixels, some previous⟩
  | .waitForCredit | .flush | .updateOverlay _ | .pumpOnce => none

private theorem reaches_of_map {α : Type}
    {emission : Emission ProducerClient Unit} {proc : ClientProc α}
    {reports : α → List FrameReport} {client after : ProducerClient}
    {output : Except ProducerError (List FrameReport)}
    (leads : ∀ output after, proc.Runs client output after →
      emission.rel client [] after)
    (runs : (proc >>= fun value => pure (reports value)).Runs client output
      after) : emission.rel client [] after := by
  rcases Proc.runs_bind.mp runs with ⟨value, between, ran, runs⟩ |
    ⟨err, _, failed⟩
  · obtain ⟨_, rfl⟩ := Proc.runs_pure.mp runs
    exact leads _ _ ran
  · exact leads _ _ failed

/-- Every call is a sequence of moves. -/
theorem moves_of_run {op : ClientOp} {client after : ProducerClient}
    {output : Except ProducerError (List FrameReport)}
    (runs : op.run.Runs client output after) :
    (∃ call, op.call = some call ∧
        (calling call client.tally).rel client [] after) ∨
      op.call = none ∧ hearing.rel client [] after := by
  cases op with
  | queueDelta surface previous pixels tile contentClass =>
      refine .inl ⟨_, rfl, reaches_of_map (fun output after ran => ?_) runs⟩
      exact ProducerClient.queueDeltaFrameReport_calls rfl rfl rfl rfl ran
  | sendFrame surface pixels intent contentClass =>
      refine .inl ⟨_, rfl, reaches_of_map (fun output after ran => ?_) runs⟩
      refine ProducerClient.sendFrameReportInner_calls rfl rfl ?_ rfl .refl _ _
        ran
      intro _ _ isDelta
      cases isDelta
  | sendDelta surface previous pixels tile intent contentClass =>
      refine .inl ⟨_, rfl, reaches_of_map (fun output after ran => ?_) runs⟩
      refine ProducerClient.sendFrameReportInner_calls rfl rfl ?_ rfl .refl _ _
        ran
      intro _ _ isDelta
      cases isDelta
      rfl
  | waitForCredit =>
      exact .inr ⟨rfl, reaches_of_map
        (ProducerClient.waitForFrameCreditReport_listens _) runs⟩
  | flush =>
      exact .inr ⟨rfl, ProducerClient.flushFrameReports_listens _ _ _ runs⟩
  | updateOverlay update =>
      exact .inr ⟨rfl, @reaches_of_map _ _ _ (fun _ => []) _ _ _
        (ProducerClient.updateOverlay_listens update _) runs⟩
  | pumpOnce =>
      exact .inr ⟨rfl, @reaches_of_map _ _ _ (fun _ => []) _ _ _
        (ProducerClient.pumpOnce_listens _) runs⟩

end RmDisplay.Producer
