import Mathlib.Data.List.Induction
import RmDisplay.Producer.ClientBooks

/-!
# Every report is handed over once

Calls that send a frame account for all results they receive, and so does a
run of calls.
-/

namespace RmDisplay.Producer

open Foundation Protocol ProducerClient Books

/-- What a rejection tells of a result. -/
structure Answer where
  frameId : Nat
  result : Int
  reason : Int
deriving DecidableEq

def answerOf (result : FrameResult) : Answer where
  frameId := result.frameId
  result := result.result
  reason := result.reason

/-- The result an error hands over.  The last frame id is never sent: its
rejection tells that there is none left. -/
def rejected : ProducerError → List Answer
  | .frameRejected frameId result reason =>
      if frameId < u64Max then [⟨frameId, result, reason⟩] else []
  | _ => []

/-- The results a call hands over. -/
def handed : Except ProducerError (List FrameReport) → List Answer
  | .ok reports => reports.map (answerOf ·.result)
  | .error err => rejected err

/-- A call hands over the results it has in hand at its end. -/
def Hands (output : Except ProducerError (List FrameReport))
    (held : List FrameResult) : Prop :=
  match output with
  | .ok reports => held = reports.map (·.result)
  | .error err => held.map answerOf = rejected err

theorem Hands.answers {output : Except ProducerError (List FrameReport)}
    {held : List FrameResult} (hands : Hands output held) :
    held.map answerOf = handed output := by
  cases output with
  | ok reports =>
      have same : held = reports.map (·.result) := hands
      rw [same, List.map_map]
      rfl
  | error err => exact hands

theorem rejected_plain {err : ProducerError} (plain : err.Plain) :
    rejected err = [] := by
  cases err
  case frameRejected => exact plain.elim
  all_goals rfl

/-- A call accounts for what it receives. -/
def Settles (before : Books) (output : Except ProducerError (List FrameReport))
    (after : ProducerClient) : Prop :=
  ∃ held, Hands output held ∧ Accounts before [] held after.books

theorem settles_of_waitsFrom {α : Type} {before : Books}
    {output : Except ProducerError α} {after : ProducerClient}
    {reports : α → List FrameReport}
    (waits : WaitsFrom before [] (fun value => (reports value).map (·.result))
      output after) :
    Settles before (output.map reports) after := by
  cases output with
  | ok value => exact ⟨_, rfl, waits.toAccounts⟩
  | error err => exact ⟨[], (rejected_plain waits.1).symm, waits.2.toAccounts⟩

/-- The books after a frame was sent. -/
def launchedBooks (books : Books) (frame : Frame)
    (producer : ProducerFrameMetrics) (needsKeyframe : Bool) : Books :=
  { books with
    nextFrameId := books.nextFrameId + 1
    logicalFrameId := frame.frameId
    needsKeyframe
    pendingFrames := books.pendingFrames ++ [⟨frame.frameId, producer⟩]
    journal := books.journal ++ [.sent frame] }

section

variable {books : Books} {frame : Frame} {producer : ProducerFrameMetrics}
  {needsKeyframe : Bool} {hand : List FrameResult}

theorem launched_sound (sound : books.Sound hand)
    (isNext : frame.frameId = books.nextFrameId)
    (fits : books.nextFrameId + 1 ≤ u64Max)
    (keyframe : books.needsKeyframe = true → frame.baseFrameId = 0) :
    (launchedBooks books frame producer needsKeyframe).Sound hand := by
  have unknown : frame.frameId ∉ sentIds books.journal := by
    intro known
    have below := sound.fresh _ known
    omega
  have unanswered := unanswered_sent
    fun answered => unknown (sound.known _ answered)
  have received : received (books.journal ++ [.sent frame]) =
      received books.journal := by simp
  have reported : lastReported (books.journal ++ [.sent frame]) =
      lastReported books.journal := by rw [lastReported, received, lastReported]
  constructor
  case inFlight =>
    change (books.pendingFrames ++ _).map _ = Producer.unanswered (_ ++ _)
    rw [unanswered, List.map_append, sound.inFlight]
    rfl
  case bounded => exact fits
  case fresh =>
    intro frameId member
    change frameId ∈ sentIds (books.journal ++ [.sent frame]) at member
    change frameId < books.nextFrameId + 1
    rw [sentIds_append, sentIds_sent, List.mem_append,
      List.mem_singleton] at member
    rcases member with earlier | rfl
    · exact Nat.lt_succ_of_lt (sound.fresh frameId earlier)
    · omega
  case distinct =>
    change (sentIds (books.journal ++ [.sent frame])).Nodup
    rw [sentIds_append, sentIds_sent]
    refine List.nodup_append.mpr ⟨sound.distinct, List.pairwise_singleton _ _, ?_⟩
    intro frameId member other isOther same
    rw [List.mem_singleton] at isOther
    subst isOther same
    exact unknown member
  case known =>
    intro frameId member
    change frameId ∈ answeredIds (books.journal ++ [.sent frame]) at member
    change frameId ∈ sentIds (books.journal ++ [.sent frame])
    rw [answeredIds_append, answeredIds_sent, List.append_nil] at member
    rw [sentIds_append]
    exact List.mem_append_left _ (sound.known frameId member)
  case once =>
    change (answeredIds (books.journal ++ [.sent frame])).Nodup
    rw [answeredIds_append, answeredIds_sent, List.append_nil]
    exact sound.once
  case kept =>
    intro result member
    change result ∈ Producer.received (books.journal ++ [.sent frame])
    rw [received]
    exact sound.kept result member
  case reported =>
    change books.receiverLogicalFrameId =
      lastReported (books.journal ++ [.sent frame])
    rw [reported]
    exact sound.reported
  case tracks =>
    intro _
    change frame.frameId = (Producer.unanswered
      (books.journal ++ [.sent frame])).getLast?.getD _
    rw [unanswered, List.getLast?_concat]
    rfl
  case accepted =>
    intro _ none
    change Producer.unanswered (books.journal ++ [.sent frame]) = [] at none
    rw [unanswered] at none
    exact absurd none (List.append_ne_nil_of_right_ne_nil _ (List.cons_ne_nil _ _))
  case retries =>
    exact retries_sent sound.retries fun owes => keyframe (sound.keyframe owes)
  case keyframe => exact fun owes => absurd owes not_owesKeyframe_sent

theorem launched_accounts (isNext : frame.frameId = books.nextFrameId)
    (fits : books.nextFrameId + 1 ≤ u64Max)
    (keyframe : books.needsKeyframe = true → frame.baseFrameId = 0) :
    Accounts books hand hand
      (launchedBooks books frame producer needsKeyframe) where
  flow := rfl
  grows := List.prefix_append _ _
  sound := fun sound _ => launched_sound sound isNext fits keyframe
  balanced := fun _ _ => by
    change (received (books.journal ++ [.sent frame]) ++ _).Perm
      (_ ++ (retried (books.journal ++ [.sent frame]) ++ _))
    rw [received_append, retried_append, received_sent, retried_sent,
      List.append_nil, List.append_nil]
    exact List.Perm.refl _

theorem skipped_accounts (fits : books.nextFrameId + 1 ≤ u64Max) :
    Accounts books hand hand
      { books with nextFrameId := books.nextFrameId + 1 } where
  flow := rfl
  grows := List.prefix_refl _
  sound := fun sound _ =>
    { sound with
      bounded := fits
      fresh := fun frameId member =>
        Nat.lt_succ_of_lt (sound.fresh frameId member) }
  balanced := fun _ _ => List.Perm.refl _

theorem retried_accounts {result : FrameResult}
    (needs : books.needsKeyframe = true)
    (code : resultCode result = .needKeyframe)
    (delta : ∃ frame, (sentFrames books.journal).getLast? = some frame ∧
      frame.frameId = result.frameId ∧ frame.baseFrameId ≠ 0) :
    Accounts books [result] [] (books.note (.retried result)) where
  flow := rfl
  grows := List.prefix_append _ _
  sound := fun sound _ => by
    have sameSent : sentIds (books.journal ++ [.retried result]) =
        sentIds books.journal := by simp
    have sameAnswered : answeredIds (books.journal ++ [.retried result]) =
        answeredIds books.journal := by simp
    have sameReceived : received (books.journal ++ [.retried result]) =
        received books.journal := by simp
    constructor
    case inFlight => exact sound.inFlight.trans unanswered_retried.symm
    case bounded => exact sound.bounded
    case fresh =>
      change ∀ frameId ∈ sentIds (books.journal ++ [.retried result]), _
      rw [sameSent]
      exact sound.fresh
    case distinct =>
      change (sentIds (books.journal ++ [.retried result])).Nodup
      rw [sameSent]
      exact sound.distinct
    case known =>
      change ∀ frameId ∈ answeredIds (books.journal ++ [.retried result]),
        frameId ∈ sentIds (books.journal ++ [.retried result])
      rw [sameSent, sameAnswered]
      exact sound.known
    case once =>
      change (answeredIds (books.journal ++ [.retried result])).Nodup
      rw [sameAnswered]
      exact sound.once
    case kept =>
      intro other member
      change other ∈ received (books.journal ++ [.retried result])
      rw [sameReceived]
      rw [List.append_nil] at member
      exact sound.kept other (List.mem_append_left _ member)
    case reported =>
      change _ = lastReported (books.journal ++ [.retried result])
      rw [lastReported, sameReceived]
      exact sound.reported
    case tracks =>
      intro impossible
      cases needs.symm.trans impossible
    case accepted =>
      intro impossible
      cases needs.symm.trans impossible
    case retries => exact retries_retried sound.retries code delta
    case keyframe => exact fun _ => needs
  balanced := fun _ _ => by
    change (received (books.journal ++ [.retried result]) ++ _).Perm
      (_ ++ (retried (books.journal ++ [.retried result]) ++
        (books.queued ++ [])))
    apply List.perm_iff_count.mpr
    intro other
    simp only [received_append, retried_append, received_retried,
      retried_retried, List.count_append, List.count_nil]
    omega

end

/-- Either no frame was sent, for a reason that is no rejection or because
there is no frame id left, or the next frame is on its way. -/
theorem postFrame_runs {input : FrameInput} {regions : List FrameRegion}
    {baseFrameId : Nat} {exhausted : Nat → ProducerError}
    {client after : ProducerClient} {output : Except ProducerError Nat}
    (runs : (postFrame input regions baseFrameId exhausted).Runs client output
      after) :
    (∃ err : ProducerError, output = .error err ∧
        (err.Plain ∨ err = exhausted client.nextFrameId ∧
          u64Max ≤ client.nextFrameId) ∧
        ∀ hand, Accounts client.books hand hand after.books) ∨
      ∃ frame : Frame, output = .ok frame.frameId ∧
        frame.frameId = client.nextFrameId ∧ frame.baseFrameId = baseFrameId ∧
        client.nextFrameId + 1 ≤ u64Max ∧
        ∀ producer needsKeyframe,
          { after.launch frame.frameId producer with needsKeyframe }.books =
            launchedBooks client.books frame producer needsKeyframe := by
  simp only [postFrame, Proc.runs_get_bind] at runs
  split at runs
  · rename_i overflow
    obtain ⟨rfl, rfl⟩ := Proc.runs_throw.mp runs
    refine .inl ⟨_, rfl, .inr ⟨rfl, ?_⟩, fun _ => .refl⟩
    unfold Bounded.checkedAdd at overflow
    split at overflow
    · cases overflow
    · omega
  · rename_i next isNext
    obtain ⟨rfl, fits⟩ := Bounded.checkedAdd_eq_some.mp isNext
    rw [Proc.runs_set_bind] at runs
    have skipped (hand : List FrameResult) :
        Accounts client.books hand hand
          { client.books with nextFrameId := client.nextFrameId + 1 } :=
      skipped_accounts fits
    rcases Proc.runs_bind.mp runs with ⟨_, between, sends, returned⟩ |
      ⟨err, rfl, failed⟩
    · obtain ⟨rfl, rfl⟩ := Proc.runs_pure.mp returned
      simp only [send, Proc.runs_get_bind] at sends
      split at sends
      · cases (Proc.runs_throw.mp sends).1
      · rw [Proc.runs_set_bind] at sends
        split at sends
        · cases (Proc.runs_throw.mp sends).1
        · obtain ⟨_, rfl⟩ := Proc.runs_modify.mp sends
          exact .inr ⟨_, rfl, rfl, rfl, fits, fun _ _ => rfl⟩
    · simp only [send, Proc.runs_get_bind] at failed
      split at failed
      · obtain ⟨same, rfl⟩ := Proc.runs_throw.mp failed
        cases same
        exact .inl ⟨_, rfl, .inl trivial, skipped⟩
      · rw [Proc.runs_set_bind] at failed
        split at failed
        · obtain ⟨same, rfl⟩ := Proc.runs_throw.mp failed
          cases same
          exact .inl ⟨_, rfl, .inl trivial, skipped⟩
        · cases (Proc.runs_modify.mp failed).1

theorem receiveUntil_post {α : Type} {awaited : Body → ClientProc (Option α)}
    {post : α → ProducerClient → Prop}
    (each : ∀ body client value after,
      (awaited body).Runs client (.ok (some value)) after → post value after)
    {messages : Nat} {client after : ProducerClient} {value : α}
    (runs : (receiveUntil awaited messages).Runs client (.ok value) after) :
    post value after := by
  induction messages generalizing client with
  | zero => cases runs
  | succ messages induction =>
      rcases Proc.runs_bind.mp runs with ⟨envelope, _, _, runs⟩ |
        ⟨_, impossible, _⟩
      · split at runs
        · cases (Proc.runs_throw.mp runs).1
        · rcases Proc.runs_bind.mp runs with ⟨found, _, ran, runs⟩ |
            ⟨_, impossible, _⟩
          · cases found with
            | some other =>
                obtain ⟨same, rfl⟩ := Proc.runs_pure.mp runs
                cases same
                exact each _ _ _ _ ran
            | none => exact induction runs
          · cases impossible
      · cases impossible

theorem applyFrameResult_post {result : FrameResult} {report : FrameReport}
    {client after : ProducerClient}
    (runs : (applyFrameResult result).Runs client (.ok report) after) :
    accepts report.result = false → after.needsKeyframe = true := by
  simp only [applyFrameResult, Proc.runs_get_bind] at runs
  split at runs
  · cases (Proc.runs_throw.mp runs).1
  · split at runs
    · cases (Proc.runs_throw.mp runs).1
    · rw [Proc.runs_set_bind] at runs
      obtain ⟨same, rfl⟩ := Proc.runs_pure.mp runs
      cases same
      intro refused
      change (client.needsKeyframe || !accepts result) = true
      rw [refused, Bool.not_false, Bool.or_true]

theorem reportOf_post {frameId : Nat} {body : Body} {report : FrameReport}
    {client after : ProducerClient}
    (runs : (reportOf frameId body).Runs client (.ok (some report)) after) :
    report.result.frameId = frameId ∧
      (accepts report.result = false → after.needsKeyframe = true) := by
  cases body
  case frameResult result =>
    rcases Proc.runs_bind.mp runs with ⟨found, _, ran, runs⟩ |
      ⟨_, impossible, _⟩
    · split at runs
      · rename_i isFrame
        obtain ⟨same, rfl⟩ := Proc.runs_pure.mp runs
        cases same
        exact ⟨isFrame, applyFrameResult_post ran⟩
      · rcases Proc.runs_bind.mp runs with ⟨_, _, _, runs⟩ |
          ⟨_, impossible, _⟩
        · cases (Proc.runs_pure.mp runs).1
        · cases impossible
    · cases impossible
  all_goals
    rcases Proc.runs_bind.mp runs with ⟨_, _, _, runs⟩ | ⟨_, impossible, _⟩
    · cases (Proc.runs_pure.mp runs).1
    · cases impossible

/-- The report is that of the frame.  Unless it was queued before, a frame that
was not taken makes the client send a keyframe. -/
theorem waitForFrameReport_post {frameId : Nat} {report : FrameReport}
    {client after : ProducerClient}
    (runs : (waitForFrameReport frameId).Runs client (.ok report) after) :
    report.result.frameId = frameId ∧
      (report ∈ client.completedFrameReports ∨
        (accepts report.result = false → after.needsKeyframe = true)) := by
  simp only [waitForFrameReport, Proc.runs_get_bind] at runs
  split at runs
  · rename_i found isFound
    rw [Proc.runs_set_bind] at runs
    cases (Proc.runs_pure.mp runs).1
    have isFrame := List.find?_some isFound
    exact ⟨beq_iff_eq.mp isFrame, .inl (List.mem_of_find?_eq_some isFound)⟩
  · rw [await, Proc.runs_get_bind] at runs
    have post := @receiveUntil_post _ _ (fun report after =>
      report.result.frameId = frameId ∧
        (accepts report.result = false → after.needsKeyframe = true))
      (fun _ _ _ _ => reportOf_post) _ _ _ _ runs
    exact ⟨post.1, .inr post.2⟩

theorem settleLoop_post {turns : Nat} {client after : ProducerClient}
    (runs : (settleLoop turns).Runs client (.ok ()) after) :
    after.pendingFrames = [] := by
  induction turns generalizing client with
  | zero => cases runs
  | succ turns induction =>
      rw [settleLoop, Proc.runs_get_bind] at runs
      split at runs
      · rename_i none
        obtain ⟨_, rfl⟩ := Proc.runs_pure.mp runs
        exact List.isEmpty_iff.mp none
      · rcases Proc.runs_bind.mp runs with ⟨_, _, _, runs⟩ |
          ⟨_, impossible, _⟩
        · rw [queueReport, Proc.runs_modify_bind] at runs
          exact induction runs
        · cases impossible

theorem creditLoop_post {needed turns : Nat} {client after : ProducerClient}
    (runs : (creditLoop needed turns).Runs client (.ok false) after)
    (start : client.needsKeyframe = false) :
    after.needsKeyframe = false ∧ after.pendingFrames.length < 2 ∧
      after.credits ≠ 0 ∧ needed ≤ after.byteCredits := by
  induction turns generalizing client with
  | zero => cases runs
  | succ turns induction =>
      rw [creditLoop, Proc.runs_get_bind] at runs
      split at runs
      · split at runs
        · cases (Proc.runs_throw.mp runs).1
        · rcases Proc.runs_bind.mp runs with ⟨_, between, _, runs⟩ |
            ⟨_, impossible, _⟩
          · rw [queueReport, Proc.runs_modify_bind, Proc.runs_get_bind] at runs
            split at runs
            · cases (Proc.runs_pure.mp runs).1
            · rename_i kept
              exact induction runs (Bool.eq_false_iff.mpr kept)
          · cases impossible
      · rename_i free
        obtain ⟨_, rfl⟩ := Proc.runs_pure.mp runs
        refine ⟨start, ?_, ?_, ?_⟩
        · exact Nat.not_le.mp fun many => free (.inl many)
        · exact fun none => free (.inr (.inl none))
        · exact Nat.not_lt.mp fun short => free (.inr (.inr short))

/-- What a synchronous call leaves: it accounts for what it received, and a
report that it returns is that of the frame it sent last. -/
def SendsFrom (before : Books) (output : Except ProducerError FrameReport)
    (after : ProducerClient) : Prop :=
  Settles before (output.map fun report => [report]) after ∧
    ∀ report, output = .ok report → ∃ frame,
      (sentFrames after.journal).getLast? = some frame ∧
        frame.frameId = report.result.frameId

theorem sendsFrom_trans {first second : Books}
    {output : Except ProducerError FrameReport} {after : ProducerClient}
    (earlier : Accounts first [] [] second)
    (later : SendsFrom second output after) : SendsFrom first output after := by
  obtain ⟨⟨held, hands, accounts⟩, last⟩ := later
  exact ⟨⟨held, hands, earlier.trans accounts⟩, last⟩

theorem sendsFrom_error {before : Books} {err : ProducerError}
    {after : ProducerClient} (none : rejected err = [])
    (accounts : Accounts before [] [] after.books) :
    SendsFrom before (.error err) after :=
  ⟨⟨[], none.symm, accounts⟩, nofun⟩

theorem frameRegions_ne_error {client : ProducerClient} {input : FrameInput}
    {forceKeyframe : Bool} {err : ProducerError} :
    client.frameRegions input forceKeyframe ≠ .error err := by
  unfold frameRegions deltaRegions
  split
  · nofun
  · split
    · cases encodeDeltaRegions _ _ _ _ _ _ _ _ _ <;> nofun
    · nofun

theorem accounts_of_sound {first second : Books}
    {carried held : List FrameResult} (flow : second.flow = first.flow)
    (grows : first.journal <+: second.journal)
    (accounts : first.Sound carried → Accounts first carried held second) :
    Accounts first carried held second where
  flow := flow
  grows := grows
  sound := fun sound => (accounts sound).sound sound
  balanced := fun sound => (accounts sound).balanced sound

/-- A result that is about the frame sent last, and that is not a queued one,
makes the client need a keyframe unless the frame was taken. -/
theorem needs_of_refused {books : Books} {frame : Frame} {report : FrameReport}
    {queue : List FrameReport} {needed : Prop} (sound : books.Sound [])
    (sameQueue : queue = books.completedFrameReports)
    (isNext : frame.frameId = books.nextFrameId)
    (isFrame : report.result.frameId = frame.frameId)
    (either : report ∈ queue ∨ needed) : needed := by
  refine either.resolve_left fun member => ?_
  rw [sameQueue] at member
  have known := sound.kept report.result
    (List.mem_append_left _ (List.mem_map_of_mem member))
  have below := sound.fresh _ (sound.known _ (List.mem_map_of_mem known))
  omega

/-- What the end of a sent frame leaves: its report is in hand, or has been
used up to announce a keyframe. -/
theorem concludeFrame_runs {books : Books} {frame : Frame}
    {producer : ProducerFrameMetrics} {needsKeyframe forceKeyframe : Bool}
    {client after : ProducerClient}
    {output : Except ProducerError (FrameReport × Bool)}
    (launched : client.books =
      launchedBooks books frame producer needsKeyframe)
    (earlier : Accounts books [] [] client.books)
    (isNext : frame.frameId = books.nextFrameId)
    (isSent : frame.frameId < u64Max)
    (based : forceKeyframe = false → books.Sound [] → frame.baseFrameId ≠ 0)
    (runs : (concludeFrame frame.frameId forceKeyframe).Runs client output
      after) :
    match output with
    | .ok (report, again) =>
        report.result.frameId = frame.frameId ∧
          (sentFrames after.journal).getLast? = some frame ∧
          Accounts books [] (if again then [] else [report.result]) after.books
    | .error err => ∃ held, held.map answerOf = rejected err ∧
        Accounts books [] held after.books := by
  rcases Proc.runs_bind.mp runs with ⟨report, between, ran, runs⟩ |
    ⟨err, rfl, failed⟩
  swap
  · obtain ⟨plain, waits⟩ :=
      waitForFrameReport_waiting _ _ _ _ failed
    exact ⟨[], (rejected_plain plain).symm, earlier.trans waits.toAccounts⟩
  have waits : Waits client.books [] [report.result] between.books :=
    waitForFrameReport_waiting _ _ _ _ ran
  obtain ⟨isFrame, whenRefused⟩ := waitForFrameReport_post ran
  have accounts := earlier.trans waits.toAccounts
  have last : (sentFrames between.journal).getLast? = some frame := by
    have frames : sentFrames between.journal = sentFrames client.books.journal :=
      waits.frames
    rw [frames, launched]
    simp [launchedBooks]
  have sameQueue : client.completedFrameReports =
      books.completedFrameReports :=
    congrArg Books.completedFrameReports launched
  have rejects : ([report.result] : List FrameResult).map answerOf =
      rejected (rejection report frame.frameId) := by
    rw [rejection, rejected, if_pos isSent, List.map_singleton, answerOf, isFrame]
  split at runs
  · obtain ⟨rfl, rfl⟩ := Proc.runs_pure.mp runs
    exact ⟨isFrame, last, accounts⟩
  · split at runs
    · obtain ⟨rfl, rfl⟩ := Proc.runs_pure.mp runs
      exact ⟨isFrame, last, accounts⟩
    · obtain ⟨rfl, rfl⟩ := Proc.runs_pure.mp runs
      exact ⟨isFrame, last, accounts⟩
    · rename_i code
      split at runs
      · obtain ⟨rfl, rfl⟩ := Proc.runs_throw.mp runs
        exact ⟨_, rejects, accounts⟩
      · rename_i isDelta
        rw [Proc.runs_modify_bind] at runs
        obtain ⟨rfl, rfl⟩ := Proc.runs_pure.mp runs
        refine ⟨isFrame, ?_, ?_⟩
        · change (sentFrames (between.journal ++ _)).getLast? = _
          rw [sentFrames_append, sentFrames_retried, List.append_nil]
          exact last
        · refine accounts_of_sound accounts.flow
            (accounts.grows.trans (List.prefix_append _ _)) fun sound => ?_
          have refused : accepts report.result = false := by
            rw [accepts, code]
            rfl
          have needs : between.needsKeyframe = true :=
            needs_of_refused sound sameQueue isNext isFrame
              (whenRefused.imp_right fun needs => needs refused)
          exact accounts.trans (retried_accounts needs code
            ⟨frame, last, isFrame.symm, based (Bool.eq_false_iff.mpr isDelta) sound⟩)
    · obtain ⟨rfl, rfl⟩ := Proc.runs_throw.mp runs
      exact ⟨_, rejects, accounts⟩
    · obtain ⟨rfl, rfl⟩ := Proc.runs_throw.mp runs
      exact ⟨_, rejects, accounts⟩

theorem sendLoop_sends {input : FrameInput} {forceKeyframe : Bool}
    {producer : ProducerFrameMetrics} {turns : Nat}
    {client after : ProducerClient} {output : Except ProducerError FrameReport}
    (runs : (sendLoop input forceKeyframe producer turns).Runs client output
      after)
    (demanded : client.needsKeyframe = true → forceKeyframe = true)
    (based : forceKeyframe = false → client.books.Sound [] →
      client.logicalFrameId ≠ 0) :
    SendsFrom client.books output after := by
  induction turns generalizing client forceKeyframe producer with
  | zero => cases output <;> cases runs
  | succ turns induction =>
      rw [sendLoop, Proc.runs_get_bind, Proc.runs_ofRes_bind] at runs
      rcases runs with ⟨regions, _, runs⟩ | ⟨_, impossible, _⟩
      swap
      · exact absurd impossible frameRegions_ne_error
      split at runs
      · obtain ⟨rfl, rfl⟩ := Proc.runs_throw.mp runs
        exact sendsFrom_error rfl .refl
      split at runs
      · obtain ⟨rfl, rfl⟩ := Proc.runs_throw.mp runs
        exact sendsFrom_error rfl .refl
      rcases Proc.runs_bind.mp runs with ⟨frameId, posted, posts, runs⟩ |
        ⟨err, rfl, failed⟩
      swap
      · rcases postFrame_runs failed with ⟨_, same, why, accounts⟩ |
          ⟨_, impossible, _⟩
        · cases same
          refine sendsFrom_error ?_ (accounts [])
          rcases why with plain | ⟨rfl, none⟩
          · exact rejected_plain plain
          · exact if_neg (Nat.not_lt.mpr none)
        · cases impossible
      rcases postFrame_runs posts with ⟨_, impossible, _⟩ |
        ⟨frame, same, isNext, isBase, fits, launches⟩
      · cases impossible
      cases same
      have next : frame.frameId < u64Max := by omega
      have launched (producer : ProducerFrameMetrics) (needsKeyframe : Bool) :
          Accounts client.books [] []
            { posted.launch frame.frameId producer with needsKeyframe }.books := by
        rw [launches]
        refine launched_accounts isNext fits fun needs => ?_
        rw [isBase, if_pos (demanded needs)]
      have isDelta (delta : forceKeyframe = false) (sound : client.books.Sound []) :
          frame.baseFrameId ≠ 0 := by
        rw [isBase, if_neg (Bool.eq_false_iff.mp delta)]
        exact based delta sound
      rw [Proc.runs_modify_bind] at runs
      rcases Proc.runs_bind.mp runs with ⟨⟨report, again⟩, between, ran, runs⟩ |
        ⟨err, rfl, failed⟩
      · obtain ⟨isFrame, last, accounts⟩ := concludeFrame_runs (launches _ _)
          (launched _ _) isNext next isDelta ran
        cases again with
        | true =>
            exact sendsFrom_trans accounts
              (induction runs (fun _ => rfl) nofun)
        | false =>
            obtain ⟨rfl, rfl⟩ := Proc.runs_pure.mp runs
            refine ⟨⟨_, rfl, accounts⟩, ?_⟩
            rintro _ ⟨⟩
            exact ⟨frame, last, isFrame.symm⟩
      · obtain ⟨held, hands, accounts⟩ := concludeFrame_runs (launches _ _)
          (launched _ _) isNext next isDelta failed
        exact ⟨⟨held, hands, accounts⟩, nofun⟩

theorem validateFramePixels_plain {surface : Surface} {pixels : Bytes}
    {previous : Option Bytes} {err : ProducerError}
    (failed : validateFramePixels surface pixels previous = .error err) :
    err.Plain := by
  unfold validateFramePixels at failed
  repeat' split at failed
  all_goals
    cases failed
    try trivial

/-- A client in order that is settled and needs no keyframe bases its frames on
what the receiver named last. -/
theorem logical_of_settled {client : ProducerClient}
    (sound : client.books.Sound []) (settled : client.pendingFrames = [])
    (keeps : client.needsKeyframe = false) :
    client.logicalFrameId = client.receiverLogicalFrameId := by
  have none : unanswered client.journal = [] := by
    rw [← show _ = unanswered client.journal from sound.inFlight]
    exact congrArg (List.map PendingFrame.frameId) settled
  have tracks : client.logicalFrameId =
      (unanswered client.journal).getLast?.getD (lastReported client.journal) :=
    sound.tracks keeps
  rw [tracks, none]
  exact sound.reported.symm

theorem sendFrameReportInner_sends {input : FrameInput}
    {client after : ProducerClient} {output : Except ProducerError FrameReport}
    (runs : (sendFrameReportInner input).Runs client output after) :
    SendsFrom client.books output after := by
  rcases Proc.runs_bind.mp runs with ⟨_, settled, settles, runs⟩ |
    ⟨err, rfl, failed⟩
  swap
  · obtain ⟨plain, waits⟩ := settlePendingFrames_waiting _ _ _ failed
    exact sendsFrom_error (rejected_plain plain) waits.toAccounts
  have waits : Waits client.books [] [] settled.books :=
    settlePendingFrames_waiting _ _ _ settles
  rw [settlePendingFrames, Proc.runs_get_bind] at settles
  have none := settleLoop_post settles
  refine sendsFrom_trans waits.toAccounts ?_
  rw [Proc.runs_ofRes_bind] at runs
  rcases runs with ⟨_, _, runs⟩ | ⟨err, failed, rfl, rfl⟩
  · rw [Proc.runs_get_bind] at runs
    refine sendLoop_sends runs ?_ ?_
    · intro needs
      rw [needs, Bool.true_or]
    · intro free sound
      obtain ⟨keeps, based⟩ := Bool.or_eq_false_iff.mp free
      rw [logical_of_settled sound none keeps]
      exact beq_eq_false_iff_ne.mp based
  · exact sendsFrom_error (rejected_plain (validateFramePixels_plain failed))
      .refl

theorem settles_trans {first second : Books}
    {output : Except ProducerError (List FrameReport)} {after : ProducerClient}
    (earlier : Accounts first [] [] second)
    (later : Settles second output after) : Settles first output after := by
  obtain ⟨held, hands, accounts⟩ := later
  exact ⟨held, hands, earlier.trans accounts⟩

theorem settles_error {before : Books} {err : ProducerError}
    {after : ProducerClient} (plain : err.Plain)
    (accounts : Accounts before [] [] after.books) :
    Settles before (.error err) after :=
  ⟨[], (rejected_plain plain).symm, accounts⟩

theorem recover_settles {input : FrameInput} {client after : ProducerClient}
    {output : Except ProducerError (Option FrameReport)}
    (runs : (recover input).Runs client output after) :
    Settles client.books (output.map Option.toList) after := by
  rcases Proc.runs_bind.mp runs with ⟨_, settled, settles, runs⟩ |
    ⟨err, rfl, failed⟩
  · have waits : Waits client.books [] [] settled.books :=
      settlePendingFrames_waiting _ _ _ settles
    refine settles_trans waits.toAccounts ?_
    rcases Proc.runs_bind.mp runs with ⟨report, sent, sends, runs⟩ |
      ⟨err, rfl, failed⟩
    · obtain ⟨rfl, rfl⟩ := Proc.runs_pure.mp runs
      exact (sendFrameReportInner_sends sends).1
    · exact (sendFrameReportInner_sends failed).1
  · obtain ⟨plain, waits⟩ := settlePendingFrames_waiting _ _ _ failed
    exact settles_error plain waits.toAccounts

theorem queueDeltaFrameReport_settles {input : FrameInput} {previous : Bytes}
    {tile : Nat} {client after : ProducerClient}
    {output : Except ProducerError (Option FrameReport)}
    (runs : (queueDeltaFrameReport input previous tile).Runs client output
      after) :
    Settles client.books (output.map Option.toList) after := by
  rw [queueDeltaFrameReport, Proc.runs_get_bind] at runs
  split at runs
  · exact recover_settles runs
  rename_i free
  rw [Proc.runs_ofRes_bind] at runs
  rcases runs with ⟨_, _, runs⟩ | ⟨err, failed, rfl, rfl⟩
  swap
  · exact settles_error (validateFramePixels_plain failed) .refl
  rw [Proc.runs_ofRes_bind] at runs
  rcases runs with ⟨regions, _, runs⟩ | ⟨err, failed, _, _⟩
  swap
  · unfold deltaRegions at failed
    cases computed : encodeDeltaRegions _ _ _ _ _ _ _ _ _
    all_goals
      rw [computed] at failed
      cases failed
  rcases Proc.runs_bind.mp runs with ⟨again, waited, credit, runs⟩ |
    ⟨err, rfl, failed⟩
  swap
  · obtain ⟨plain, waits⟩ := creditLoop_waiting _ _ _ _ _ failed
    exact settles_error plain waits.toAccounts
  have waits : Waits client.books [] [] waited.books :=
    creditLoop_waiting _ _ _ _ _ credit
  refine settles_trans waits.toAccounts ?_
  cases again with
  | true => exact recover_settles runs
  | false =>
      obtain ⟨keeps, _⟩ := creditLoop_post credit
        (Bool.eq_false_iff.mpr fun needs => free (.inl needs))
      rw [if_neg Bool.false_ne_true, Proc.runs_get_bind] at runs
      rcases Proc.runs_bind.mp runs with ⟨frameId, posted, posts, runs⟩ |
        ⟨err, rfl, failed⟩
      · rcases postFrame_runs posts with ⟨_, impossible, _⟩ |
          ⟨frame, same, isNext, _, fits, launches⟩
        · cases impossible
        cases same
        rw [Proc.runs_modify_bind] at runs
        have launched : Accounts waited.books [] []
            (posted.launch frame.frameId { attempts := 1 }).books := by
          have books := launches { attempts := 1 } posted.needsKeyframe
          rw [show (posted.launch frame.frameId { attempts := 1 }).books = _
            from books]
          exact launched_accounts isNext fits
            fun needs => nomatch keeps.symm.trans needs
        exact settles_trans launched
          (settles_of_waitsFrom (takeReport_waiting _ _ _ runs))
      · rcases postFrame_runs failed with ⟨_, same, why, accounts⟩ |
          ⟨_, impossible, _⟩
        · cases same
          refine settles_error ?_ (accounts [])
          rcases why with plain | ⟨rfl, _⟩
          · exact plain
          · trivial
        · cases impossible

theorem settles_of_map {α : Type} {proc : ClientProc α}
    {reports : α → List FrameReport} {client after : ProducerClient}
    {output : Except ProducerError (List FrameReport)}
    (settles : ∀ output after, proc.Runs client output after →
      Settles client.books (output.map reports) after)
    (runs : (do return reports (← proc) : ClientProc _).Runs client output
      after) : Settles client.books output after := by
  rcases Proc.runs_bind.mp runs with ⟨value, _, ran, runs⟩ |
    ⟨err, rfl, failed⟩
  · obtain ⟨rfl, rfl⟩ := Proc.runs_pure.mp runs
    exact settles _ _ ran
  · exact settles _ _ failed

theorem run_settles {op : ClientOp} {client after : ProducerClient}
    {output : Except ProducerError (List FrameReport)}
    (runs : op.run.Runs client output after) :
    Settles client.books output after := by
  cases op with
  | queueDelta surface previous pixels tile contentClass =>
      exact settles_of_map (fun _ _ => queueDeltaFrameReport_settles) runs
  | sendFrame surface pixels intent contentClass =>
      exact settles_of_map
        (fun _ _ ran => (sendFrameReportInner_sends ran).1) runs
  | sendDelta surface previous pixels tile intent contentClass =>
      exact settles_of_map
        (fun _ _ ran => (sendFrameReportInner_sends ran).1) runs
  | waitForCredit =>
      exact settles_of_map (fun _ _ ran =>
        settles_of_waitsFrom (waitForFrameCreditReport_waiting _ _ _ ran)) runs
  | flush =>
      have settles := @settles_of_waitsFrom _ _ _ _ (fun reports => reports)
        (flushFrameReports_waiting _ _ _ runs)
      cases output <;> exact settles
  | updateOverlay update =>
      exact settles_of_map (fun _ _ ran =>
        @settles_of_waitsFrom _ _ _ _ (fun _ => [])
          (updateOverlay_waiting update _ _ _ ran)) runs
  | pumpOnce =>
      exact settles_of_map (fun _ _ ran =>
        @settles_of_waitsFrom _ _ _ _ (fun _ => [])
          (pumpOnce_waiting _ _ _ ran)) runs

/-- The receiver answers in the order of sending. -/
def InOrder (journal : List Exchange) : Prop :=
  ∀ earlier result later, journal = earlier ++ .received result :: later →
    (unanswered earlier).head? = some result.frameId

/-- A frame that is taken and was sent last is the one its result names. -/
def NamesLast (journal : List Exchange) : Prop :=
  ∀ earlier result later, journal = earlier ++ .received result :: later →
    accepts result = true →
    (sentIds earlier).getLast? = some result.frameId →
      result.logicalFrameId = result.frameId

/-- What a flush hands over: all that was queued, and all that arrives. -/
structure Flushes (event : ClientEvent) (reports : List FrameReport) : Prop where
  all : ∃ later, event.after.journal = event.before.journal ++ later ∧
    (reports.map (·.result)).Perm
      (event.before.books.queued ++ received later)
  nothingQueued : event.after.completedFrameReports = []
  nothingInFlight : event.after.pendingFrames = []

/-- What becomes of the results of a run. -/
structure ReportsConserved (history : List ClientEvent)
    (final : ProducerClient) : Prop where
  /-- Received results were handed over, announced a keyframe, or are queued. -/
  conserved : ((received final.journal).map answerOf).Perm
    (history.flatMap (fun event => handed event.output) ++
      ((retried final.journal).map answerOf ++
        final.books.queued.map answerOf))
  once : ((received final.journal).map (·.frameId)).Nodup
  inFlight : final.pendingFrames.map (·.frameId) = unanswered final.journal
  returned : ∀ event ∈ history, ∀ reports, event.output = .ok reports →
    ∀ report ∈ reports, report.result ∈ received event.after.journal
  queued : ∀ report ∈ final.completedFrameReports,
    report.result ∈ received final.journal
  flushed : ∀ event ∈ history, event.input = .flush →
    ∀ reports, event.output = .ok reports → Flushes event reports
  retries : Retries final.journal
  /-- The youngest frame in flight, or what the last result named. -/
  tracks : final.needsKeyframe = false → final.logicalFrameId =
    (unanswered final.journal).getLast?.getD (lastReported final.journal)
  latest : InOrder final.journal → NamesLast final.journal →
    final.needsKeyframe = false →
      (sentIds final.journal).getLast? = some final.logicalFrameId

theorem InOrder.before {journal later : List Exchange}
    (inOrder : InOrder (journal ++ later)) : InOrder journal := by
  intro earlier result between split
  exact inOrder earlier result (between ++ later) (by simp [split])

theorem sentIds_of_inOrder {journal : List Exchange} (inOrder : InOrder journal)
    (distinct : (sentIds journal).Nodup) :
    sentIds journal = answeredIds journal ++ unanswered journal := by
  induction journal using List.reverseRecOn with
  | nil => rfl
  | append_singleton journal entry induction =>
      rw [sentIds_append] at distinct
      obtain ⟨earlierDistinct, _, apart⟩ := List.nodup_append.mp distinct
      have earlier := induction inOrder.before earlierDistinct
      cases entry with
      | sent frame =>
          have unknown : frame.frameId ∉ answeredIds journal := by
            intro answered
            refine apart frame.frameId ?_ frame.frameId (by simp) rfl
            rw [earlier]
            exact List.mem_append_left _ answered
          rw [unanswered_sent unknown]
          simp [earlier]
      | received result =>
          have first := inOrder journal result [] rfl
          obtain ⟨rest, isRest⟩ := List.head?_eq_some_iff.mp first
          rw [unanswered_received earlierDistinct, isRest, List.erase_cons_head]
          simp [earlier, isRest]
      | retried result =>
          rw [unanswered_retried]
          simp [earlier]

/-- With answers in order, the last result answers the frame sent last when
nothing is in flight. -/
theorem lastSent_of_settled {journal : List Exchange} {result : FrameResult}
    (inOrder : InOrder journal) (distinct : (sentIds journal).Nodup)
    (none : unanswered journal = [])
    (last : (received journal).getLast? = some result) :
    (sentIds journal).getLast? = some result.frameId ∧
      ∃ earlier later, journal = earlier ++ .received result :: later ∧
        (sentIds earlier).getLast? = some result.frameId := by
  have all := sentIds_of_inOrder inOrder distinct
  rw [none, List.append_nil] at all
  have lastSent : (sentIds journal).getLast? = some result.frameId := by
    rw [all, answeredIds, List.getLast?_map, last]
    rfl
  refine ⟨lastSent, ?_⟩
  obtain ⟨entry, isEntry, isResult⟩ :=
    List.mem_filterMap.mp (List.mem_of_getLast? last)
  cases entry
  case received other =>
    cases isResult
    obtain ⟨earlier, later, rfl⟩ := List.append_of_mem isEntry
    refine ⟨earlier, later, rfl, ?_⟩
    have first := inOrder earlier result later rfl
    have isSent := (mem_unanswered.mp (List.mem_of_head? first)).1
    have parts : sentIds (earlier ++ .received result :: later) =
        sentIds earlier ++ sentIds later := by
      rw [List.append_cons, sentIds_append, sentIds_append, sentIds_received,
        List.append_nil]
    rw [parts] at lastSent distinct
    rw [List.getLast?_append] at lastSent
    -- A frame sent after the answer would have the id of the last frame again.
    cases after : (sentIds later).getLast? with
    | none =>
        rw [after] at lastSent
        exact lastSent
    | some next =>
        rw [after] at lastSent
        cases lastSent
        exact absurd rfl ((List.nodup_append.mp distinct).2.2 _ isSent _
          (List.mem_of_getLast? after))
  all_goals cases isResult

theorem latest_of_inOrder {client : ProducerClient} (sound : client.books.Sound [])
    (inOrder : InOrder client.journal) (names : NamesLast client.journal)
    (keeps : client.needsKeyframe = false) :
    (sentIds client.journal).getLast? = some client.logicalFrameId := by
  have tracks : client.logicalFrameId =
      (unanswered client.journal).getLast?.getD (lastReported client.journal) :=
    sound.tracks keeps
  cases youngest : (unanswered client.journal).getLast? with
  | some frameId =>
      rw [youngest] at tracks
      rw [sentIds_of_inOrder inOrder sound.distinct, List.getLast?_append,
        youngest, tracks]
      rfl
  | none =>
      have none := List.getLast?_eq_none_iff.mp youngest
      obtain ⟨result, last, accepted⟩ := sound.accepted keeps none
      obtain ⟨lastSent, earlier, later, split, wasLast⟩ :=
        lastSent_of_settled inOrder sound.distinct none last
      rw [youngest, show lastReported client.journal = result.logicalFrameId from
        by rw [lastReported, show (received client.journal).getLast? = _ from last]
           rfl] at tracks
      rw [lastSent, tracks]
      exact congrArg some
        (names earlier result later split accepted wasLast).symm

theorem flushes_of_run {event : ClientEvent} {reports : List FrameReport}
    (stepped : clientStep event.before event.input event.output event.after)
    (isFlush : event.input = .flush) (returned : event.output = .ok reports)
    (sound : event.before.books.Sound [])
    (conforms : event.after.flow.Conforms event.after.journal) :
    Flushes event reports := by
  rw [clientStep, procStep, isFlush, returned] at stepped
  have waits : Waits event.before.books [] (reports.map (·.result))
      event.after.books := flushFrameReports_waiting _ _ _ stepped
  rcases Proc.runs_bind.mp stepped with ⟨_, settled, settles, stepped⟩ |
    ⟨_, impossible, _⟩
  swap
  · cases impossible
  rw [settlePendingFrames, Proc.runs_get_bind] at settles
  rw [Proc.runs_get_bind, Proc.runs_set_bind] at stepped
  obtain ⟨_, isAfter⟩ := Proc.runs_pure.mp stepped
  have settledNone : settled.pendingFrames = [] := settleLoop_post settles
  have none : event.after.pendingFrames = [] := by
    rw [isAfter]
    exact settledNone
  have empty : event.after.completedFrameReports = [] := by rw [isAfter]
  obtain ⟨later, grows⟩ := waits.grows
  refine ⟨⟨later, grows.symm, ?_⟩, empty, none⟩
  have balanced := waits.balanced sound conforms
  have nothing : event.after.books.queued = [] := by
    rw [Books.queued, show event.after.books.completedFrameReports = _ from empty]
    rfl
  apply List.perm_iff_count.mpr
  intro result
  have counts := List.perm_iff_count.mp balanced result
  rw [waits.retries, ← grows, nothing] at counts
  simp only [received_append, List.count_append, List.count_nil] at counts ⊢
  omega

/-- The books of a surface that was just opened. -/
structure Opened (books : Books) : Prop where
  nextFrameId : books.nextFrameId = 1
  receiverLogicalFrameId : books.receiverLogicalFrameId = 0
  needsKeyframe : books.needsKeyframe = true
  pendingFrames : books.pendingFrames = []
  completedFrameReports : books.completedFrameReports = []
  journal : books.journal = []

theorem acceptSurface_opened {client opened : ProducerClient}
    {ready : SurfaceReady} {surface : Surface}
    (accepted : client.acceptSurface ready = .ok (surface, opened)) :
    Opened opened.books := by
  unfold acceptSurface at accepted
  repeat' split at accepted
  all_goals
    cases accepted
    try exact ⟨rfl, rfl, rfl, rfl, rfl, rfl⟩

theorem Opened.sound {books : Books} (isOpened : Opened books) :
    books.Sound [] := by
  obtain ⟨_, _, _, _, _, _, _, _⟩ := books
  obtain ⟨rfl, rfl, rfl, rfl, rfl, rfl⟩ := isOpened
  constructor
  case inFlight => rfl
  case bounded => exact Nat.le_of_ble_eq_true rfl
  case fresh => exact fun _ missing => nomatch missing
  case distinct => exact List.Pairwise.nil
  case known => exact fun _ missing => nomatch missing
  case once => exact List.Pairwise.nil
  case kept => exact fun _ missing => nomatch missing
  case reported => rfl
  case tracks => exact fun impossible => nomatch impossible
  case accepted => exact fun impossible => nomatch impossible
  case retries =>
    intro earlier result later split
    cases earlier <;> cases split
  case keyframe => exact fun _ => rfl

/-- The books and the reports handed over so far. -/
structure Kept (history : List ClientEvent) (client : ProducerClient) :
    Prop where
  sound : client.books.Sound []
  conserved : ((received client.journal).map answerOf).Perm
    (history.flatMap (fun event => handed event.output) ++
      ((retried client.journal).map answerOf ++
        client.books.queued.map answerOf))
  returned : ∀ event ∈ history, ∀ reports, event.output = .ok reports →
    ∀ report ∈ reports, report.result ∈ received event.after.journal
  flushed : ∀ event ∈ history, event.input = .flush →
    ∀ reports, event.output = .ok reports → Flushes event reports

theorem kept_step {history : List ClientEvent} {event : ClientEvent}
    (stepped : clientStep event.before event.input event.output event.after)
    (conforms : event.after.flow.Conforms event.after.journal)
    (kept : Kept history event.before) :
    Kept (event :: history) event.after := by
  obtain ⟨held, hands, accounts⟩ := run_settles stepped
  have sound := accounts.sound kept.sound conforms
  have returnedNow (reports : List FrameReport)
      (returned : event.output = .ok reports) (report : FrameReport)
      (member : report ∈ reports) :
      report.result ∈ received event.after.journal := by
    rw [returned] at hands
    have same : held = reports.map (·.result) := hands
    refine sound.kept report.result (List.mem_append_right _ ?_)
    rw [same]
    exact List.mem_map_of_mem member
  constructor
  case sound =>
    exact { sound with
      kept := fun result member => sound.kept result
        (List.mem_append_left _ (by rwa [List.append_nil] at member)) }
  case conserved =>
    have answers := hands.answers
    have balanced := (accounts.balanced kept.sound conforms).map answerOf
    apply List.perm_iff_count.mpr
    intro answer
    have before := List.perm_iff_count.mp kept.conserved answer
    have counts := List.perm_iff_count.mp balanced answer
    rw [List.flatMap_cons, ← answers]
    change _ = _ at counts
    simp only [List.map_append, List.count_append, List.map_nil,
      List.count_nil] at before counts ⊢
    change _ = _ + _ + (_ + _)
    simp only [ProducerClient.books] at before counts ⊢
    omega
  case returned =>
    intro other member
    rcases List.mem_cons.mp member with rfl | older
    · exact returnedNow
    · exact kept.returned other older
  case flushed =>
    intro other member
    rcases List.mem_cons.mp member with rfl | older
    · exact fun isFlush reports returned =>
        flushes_of_run stepped isFlush returned kept.sound conforms
    · exact kept.flushed other older

theorem ClientRun.kept {start final : ProducerClient} {ready : SurfaceReady}
    {history : List ClientEvent} (run : ClientRun start ready history final)
    (conforms : final.flow.Conforms final.journal) : Kept history final := by
  obtain ⟨surface, opened, accepted, run⟩ := run
  induction run with
  | nil =>
      have isOpened := acceptSurface_opened accepted
      have journal : opened.journal = [] := isOpened.journal
      have queue : opened.books.queued = [] :=
        congrArg (List.map FrameReport.result) isOpened.completedFrameReports
      refine ⟨isOpened.sound, ?_, fun _ missing => (nomatch missing),
        fun _ missing => (nomatch missing)⟩
      rw [journal, queue]
      exact List.Perm.refl _
  | @snoc history before after input output earlier stepped induction =>
      obtain ⟨_, _, accounts⟩ := run_settles stepped
      have flow : after.flow = before.flow := accounts.flow
      have conformsBefore : before.flow.Conforms before.journal := by
        rw [← flow]
        exact conforms.before accounts.grows
      exact @kept_step history ⟨before, input, output, after⟩ stepped conforms
        (induction conformsBefore)

/-- For a receiver that answers every sent frame at most once, every result is
handed over exactly once, announces a keyframe, or is still queued. -/
theorem reportsConserved_of_run {start final : ProducerClient}
    {ready : SurfaceReady} {history : List ClientEvent}
    (run : ClientRun start ready history final)
    (conforms : final.flow.Conforms final.journal) :
    ReportsConserved history final := by
  have kept := run.kept conforms
  exact
    { conserved := kept.conserved
      once := kept.sound.once
      inFlight := kept.sound.inFlight
      returned := kept.returned
      queued := fun report member => kept.sound.kept report.result
        (List.mem_append_left _ (List.mem_map_of_mem member))
      flushed := kept.flushed
      retries := kept.sound.retries
      tracks := kept.sound.tracks
      latest := latest_of_inOrder kept.sound }

theorem conforms_of_each {flow : Flow} {journal : List Exchange}
    (each : ∀ index < journal.length,
      match journal[index]? with
      | some (.received result) => flow.Answers (journal.take index) result
      | _ => True) : flow.Conforms journal := by
  rintro earlier result later rfl
  have answers := each earlier.length (by simp)
  rw [List.getElem?_append_right (Nat.le_refl _), Nat.sub_self,
    List.take_left'] at answers
  · exact answers
  · rfl

instance (flow : Flow) (journal : List Exchange) (result : FrameResult) :
    Decidable (flow.Answers journal result) :=
  decidable_of_iff (result.frameId ∈ unanswered journal ∧
      result.credits ≤ flow.creditLimit ∧
      (1 ≤ flow.selectedMinor → result.byteCredits ≤ flow.byteCreditLimit))
    ⟨fun ⟨inFlight, credits, byteCredits⟩ => ⟨inFlight, credits, byteCredits⟩,
      fun answers => ⟨answers.inFlight, answers.credits, answers.byteCredits⟩⟩

/-- Does a receiver answer as it should, as far as the journal goes? -/
def conforms (client : ProducerClient) : Bool :=
  (List.range client.journal.length).all fun index =>
    match client.journal[index]? with
    | some (.received result) =>
        decide (client.flow.Answers (client.journal.take index) result)
    | _ => true

theorem conforms_of_check {client : ProducerClient}
    (checked : conforms client = true) :
    client.flow.Conforms client.journal := by
  refine conforms_of_each fun index inside => ?_
  have each := List.all_eq_true.mp checked index (List.mem_range.mpr inside)
  split
  · rename_i result found
    rw [found] at each
    exact of_decide_eq_true each
  · trivial

/-- A queued delta whose result arrives on its own, a delta that is sent again
as a keyframe, and a flush. -/
theorem reportsConserved_retried :
    ∃ history final, ClientRun
        (.gray [grayResult 1 .presented 2 1, grayResult 2 .presented 2 2,
          grayResult 3 .needKeyframe 2 0, grayResult 4 .presented 2 4])
        (grayReady 1 1) history final ∧
      sentIds final.journal = [1, 2, 3, 4] ∧
      (retried final.journal).map (·.frameId) = [3] ∧
      ReportsConserved history final := by
  have replayed : (ClientRun.replay
      (.gray [grayResult 1 .presented 2 1, grayResult 2 .presented 2 2,
        grayResult 3 .needKeyframe 2 0, grayResult 4 .presented 2 4])
      (grayReady 1 1)
      [.flush, .sendDelta (graySurface 1 1) [20] [30] 1 .latest .mixed,
        .pumpOnce, .queueDelta (graySurface 1 1) [10] [20] 1 .mixed,
        .sendFrame (graySurface 1 1) [10] .latest .mixed]).map (fun result =>
        (conforms result.2, sentIds result.2.journal,
          (retried result.2.journal).map (·.frameId))) =
      some (true, [1, 2, 3, 4], [3]) := by decide +kernel
  obtain ⟨⟨history, final⟩, replayed, facts⟩ :=
    Option.map_eq_some_iff.mp replayed
  simp only [Prod.mk.injEq] at facts
  have run := ClientRun.of_replay replayed
  exact ⟨history, final, run, facts.2.1, facts.2.2,
    reportsConserved_of_run run (conforms_of_check facts.1)⟩

/-- The receiver answers the second of two frames in flight first: the client
takes the first one for the latest. -/
theorem latest_of_swapped :
    ∃ history final, ClientRun
        (.gray [grayResult 1 .presented 2 1, grayResult 3 .presented 1 3])
        (grayReady 1 1) history final ∧
      final.flow.Conforms final.journal ∧ final.needsKeyframe = false ∧
      (sentIds final.journal).getLast? = some 3 ∧ final.logicalFrameId = 2 := by
  have replayed : (ClientRun.replay
      (.gray [grayResult 1 .presented 2 1, grayResult 3 .presented 1 3])
      (grayReady 1 1)
      [.pumpOnce, .queueDelta (graySurface 1 1) [20] [30] 1 .mixed,
        .queueDelta (graySurface 1 1) [10] [20] 1 .mixed,
        .sendFrame (graySurface 1 1) [10] .latest .mixed]).map (fun result =>
        (conforms result.2, result.2.needsKeyframe,
          (sentIds result.2.journal).getLast?, result.2.logicalFrameId)) =
      some (true, false, some 3, 2) := by decide +kernel
  obtain ⟨⟨history, final⟩, replayed, facts⟩ :=
    Option.map_eq_some_iff.mp replayed
  simp only [Prod.mk.injEq] at facts
  obtain ⟨checked, needs, last, logical⟩ := facts
  exact ⟨history, final, ClientRun.of_replay replayed,
    conforms_of_check checked, needs, last, logical⟩

end RmDisplay.Producer
