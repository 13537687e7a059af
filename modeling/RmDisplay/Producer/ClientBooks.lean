import RmDisplay.Producer.Client

/-!
# What becomes of the results of frames

A result may arrive inside any call and move through two lists before a caller
sees it.  The books below compare what was received with what was handed over:
they balance after every call, whatever messages arrive in between, as long as
the receiver answers sent frames and nothing else.

The client's idea of the last frame follows from the same invariant.
-/

namespace RmDisplay.Producer

open Foundation Protocol

def sentFrames (journal : List Exchange) : List Frame :=
  journal.filterMap fun
    | .sent frame => some frame
    | .received _ | .retried _ => none

def received (journal : List Exchange) : List FrameResult :=
  journal.filterMap fun
    | .received result => some result
    | .sent _ | .retried _ => none

def retried (journal : List Exchange) : List FrameResult :=
  journal.filterMap fun
    | .retried result => some result
    | .sent _ | .received _ => none

def sentIds (journal : List Exchange) : List Nat :=
  (sentFrames journal).map (·.frameId)

def answeredIds (journal : List Exchange) : List Nat :=
  (received journal).map (·.frameId)

/-- The frames in flight, in the order of sending. -/
def unanswered (journal : List Exchange) : List Nat :=
  (sentIds journal).filter fun frameId => !(answeredIds journal).contains frameId

section

variable {journal later : List Exchange} {frame : Frame} {result : FrameResult}

@[simp] theorem sentFrames_append : sentFrames (journal ++ later) =
    sentFrames journal ++ sentFrames later := List.filterMap_append

@[simp] theorem received_append : received (journal ++ later) =
    received journal ++ received later := List.filterMap_append

@[simp] theorem retried_append : retried (journal ++ later) =
    retried journal ++ retried later := List.filterMap_append

@[simp] theorem sentIds_append : sentIds (journal ++ later) =
    sentIds journal ++ sentIds later := by simp [sentIds]

@[simp] theorem answeredIds_append : answeredIds (journal ++ later) =
    answeredIds journal ++ answeredIds later := by simp [answeredIds]

@[simp] theorem sentFrames_sent : sentFrames [.sent frame] = [frame] := rfl

@[simp] theorem sentFrames_received : sentFrames [.received result] = [] := rfl

@[simp] theorem sentFrames_retried : sentFrames [.retried result] = [] := rfl

@[simp] theorem received_sent : received [.sent frame] = [] := rfl

@[simp] theorem received_received : received [.received result] = [result] := rfl

@[simp] theorem received_retried : received [.retried result] = [] := rfl

@[simp] theorem retried_sent : retried [.sent frame] = [] := rfl

@[simp] theorem retried_received : retried [.received result] = [] := rfl

@[simp] theorem retried_retried : retried [.retried result] = [result] := rfl

@[simp] theorem sentIds_sent : sentIds [.sent frame] = [frame.frameId] := rfl

@[simp] theorem sentIds_received : sentIds [.received result] = [] := rfl

@[simp] theorem sentIds_retried : sentIds [.retried result] = [] := rfl

@[simp] theorem answeredIds_sent : answeredIds [.sent frame] = [] := rfl

@[simp] theorem answeredIds_received :
    answeredIds [.received result] = [result.frameId] := rfl

@[simp] theorem answeredIds_retried : answeredIds [.retried result] = [] := rfl

theorem mem_unanswered {frameId : Nat} : frameId ∈ unanswered journal ↔
    frameId ∈ sentIds journal ∧ frameId ∉ answeredIds journal := by
  simp [unanswered]

theorem unanswered_retried :
    unanswered (journal ++ [.retried result]) = unanswered journal := by
  simp [unanswered]

theorem unanswered_sent (unknown : frame.frameId ∉ answeredIds journal) :
    unanswered (journal ++ [.sent frame]) =
      unanswered journal ++ [frame.frameId] := by
  simp [unanswered, unknown]

theorem unanswered_received (distinct : (sentIds journal).Nodup) :
    unanswered (journal ++ [.received result]) =
      (unanswered journal).erase result.frameId := by
  have inFlight : (unanswered journal).Nodup := List.Pairwise.filter _ distinct
  rw [inFlight.erase_eq_filter, unanswered, unanswered, List.filter_filter,
    sentIds_append, sentIds_received, List.append_nil]
  refine List.filter_congr fun frameId _ => ?_
  simp only [answeredIds_append, answeredIds_received, List.contains_eq_mem,
    List.mem_append, List.mem_singleton, Bool.decide_or, Bool.not_or]
  rw [Bool.and_comm]
  rfl

end

/-- An entry was written last, or before the last one. -/
theorem split_snoc {journal earlier later : List Exchange}
    {entry last : Exchange}
    (split : journal ++ [last] = earlier ++ entry :: later) :
    (journal = earlier ∧ last = entry ∧ later = []) ∨
      ∃ between, later = between ++ [last] ∧
        journal = earlier ++ entry :: between := by
  rcases List.eq_nil_or_concat later with rfl | ⟨between, final, rfl⟩
  · obtain ⟨sameJournal, sameLast⟩ := List.append_inj' split rfl
    cases sameLast
    exact .inl ⟨sameJournal, rfl, rfl⟩
  · rw [List.concat_eq_append, ← List.cons_append,
      ← List.append_assoc] at split
    obtain ⟨sameJournal, sameLast⟩ := List.append_inj' split rfl
    cases sameLast
    exact .inr ⟨between, List.concat_eq_append, sameJournal⟩

/-- What limits the credits. -/
structure Flow where
  creditLimit : Nat
  byteCreditLimit : Nat
  selectedMinor : Nat

def ProducerClient.flow (self : ProducerClient) : Flow where
  creditLimit := self.creditLimit
  byteCreditLimit := self.byteCreditLimit
  selectedMinor := self.selectedMinor

/-- A result answers a frame in flight, within the limits. -/
structure Flow.Answers (flow : Flow) (journal : List Exchange)
    (result : FrameResult) : Prop where
  inFlight : result.frameId ∈ unanswered journal
  credits : result.credits ≤ flow.creditLimit
  byteCredits : 1 ≤ flow.selectedMinor →
    result.byteCredits ≤ flow.byteCreditLimit

/-- The receiver answers every frame at most once, within the limits. -/
def Flow.Conforms (flow : Flow) (journal : List Exchange) : Prop :=
  ∀ earlier result later, journal = earlier ++ .received result :: later →
    flow.Answers earlier result

theorem Flow.Conforms.before {flow : Flow} {journal later : List Exchange}
    (conforms : flow.Conforms later) (grows : journal <+: later) :
    flow.Conforms journal := by
  obtain ⟨rest, rfl⟩ := grows
  intro earlier result between split
  exact conforms earlier result (between ++ rest) (by simp [split])

/-- A delta for which the receiver has no base is sent again as a keyframe:
it is the last frame sent, and the next one is a keyframe. -/
structure RetryAfter (earlier : List Exchange) (result : FrameResult)
    (later : List Exchange) : Prop where
  code : ProducerClient.resultCode result = .needKeyframe
  delta : ∃ frame, (sentFrames earlier).getLast? = some frame ∧
    frame.frameId = result.frameId ∧ frame.baseFrameId ≠ 0
  keyframe : ∀ frame, (sentFrames later).head? = some frame →
    frame.baseFrameId = 0

def Retries (journal : List Exchange) : Prop :=
  ∀ earlier result later, journal = earlier ++ .retried result :: later →
    RetryAfter earlier result later

/-- A keyframe was announced and not sent yet. -/
def OwesKeyframe (journal : List Exchange) : Prop :=
  ∃ earlier result later, journal = earlier ++ .retried result :: later ∧
    sentFrames later = []

theorem retries_received {journal : List Exchange} {result : FrameResult}
    (retries : Retries journal) : Retries (journal ++ [.received result]) := by
  intro earlier retry later split
  rcases split_snoc split with ⟨_, impossible, _⟩ | ⟨between, rfl, older⟩
  · cases impossible
  · have before := retries earlier retry between older
    refine ⟨before.code, before.delta, ?_⟩
    simpa using before.keyframe

theorem owesKeyframe_received {journal : List Exchange} {result : FrameResult}
    (owes : OwesKeyframe (journal ++ [.received result])) :
    OwesKeyframe journal := by
  obtain ⟨earlier, retry, later, split, unsent⟩ := owes
  rcases split_snoc split with ⟨_, impossible, _⟩ | ⟨between, rfl, older⟩
  · cases impossible
  · exact ⟨earlier, retry, between, older, by simpa using unsent⟩

theorem retries_sent {journal : List Exchange} {frame : Frame}
    (retries : Retries journal)
    (keyframe : OwesKeyframe journal → frame.baseFrameId = 0) :
    Retries (journal ++ [.sent frame]) := by
  intro earlier retry later split
  rcases split_snoc split with ⟨_, impossible, _⟩ | ⟨between, rfl, older⟩
  · cases impossible
  · have before := retries earlier retry between older
    refine ⟨before.code, before.delta, fun next isNext => ?_⟩
    cases unsent : sentFrames between with
    | nil =>
        rw [sentFrames_append, unsent] at isNext
        cases isNext
        exact keyframe ⟨earlier, retry, between, older, unsent⟩
    | cons first rest =>
        rw [sentFrames_append, unsent] at isNext
        exact before.keyframe next (by rw [unsent]; exact isNext)

theorem not_owesKeyframe_sent {journal : List Exchange} {frame : Frame} :
    ¬ OwesKeyframe (journal ++ [.sent frame]) := by
  rintro ⟨earlier, retry, later, split, unsent⟩
  rcases split_snoc split with ⟨_, impossible, _⟩ | ⟨between, rfl, _⟩
  · cases impossible
  · simp at unsent

theorem retries_retried {journal : List Exchange} {result : FrameResult}
    (retries : Retries journal)
    (code : ProducerClient.resultCode result = .needKeyframe)
    (delta : ∃ frame, (sentFrames journal).getLast? = some frame ∧
      frame.frameId = result.frameId ∧ frame.baseFrameId ≠ 0) :
    Retries (journal ++ [.retried result]) := by
  intro earlier retry later split
  rcases split_snoc split with ⟨rfl, same, rfl⟩ | ⟨between, rfl, older⟩
  · cases same
    exact ⟨code, delta, by rintro _ ⟨⟩⟩
  · have before := retries earlier retry between older
    refine ⟨before.code, before.delta, ?_⟩
    simpa using before.keyframe

/-- The logical frame that the last result named. -/
def lastReported (journal : List Exchange) : Nat :=
  ((received journal).getLast?.map (·.logicalFrameId)).getD 0

/-- What a client knows of its frames. -/
structure Books where
  flow : Flow
  nextFrameId : Nat
  receiverLogicalFrameId : Nat
  logicalFrameId : Nat
  needsKeyframe : Bool
  pendingFrames : List PendingFrame
  completedFrameReports : List FrameReport
  journal : List Exchange

def ProducerClient.books (self : ProducerClient) : Books where
  flow := self.flow
  nextFrameId := self.nextFrameId
  receiverLogicalFrameId := self.receiverLogicalFrameId
  logicalFrameId := self.logicalFrameId
  needsKeyframe := self.needsKeyframe
  pendingFrames := self.pendingFrames
  completedFrameReports := self.completedFrameReports
  journal := self.journal

namespace Books

def note (self : Books) (entry : Exchange) : Books :=
  { self with journal := self.journal ++ [entry] }

/-- A message has arrived. -/
def heard (self : Books) (body : Body) : Books :=
  match body with
  | .frameResult result => self.note (.received result)
  | _ => self

/-- Results that wait for a caller. -/
def queued (self : Books) : List FrameResult :=
  self.completedFrameReports.map (·.result)

/-- The program has the results in its `hand`. -/
structure Sound (books : Books) (hand : List FrameResult) : Prop where
  inFlight : books.pendingFrames.map (·.frameId) = unanswered books.journal
  bounded : books.nextFrameId ≤ u64Max
  fresh : ∀ frameId ∈ sentIds books.journal, frameId < books.nextFrameId
  distinct : (sentIds books.journal).Nodup
  known : ∀ frameId ∈ answeredIds books.journal, frameId ∈ sentIds books.journal
  once : (answeredIds books.journal).Nodup
  kept : ∀ result ∈ books.queued ++ hand, result ∈ received books.journal
  reported : books.receiverLogicalFrameId = lastReported books.journal
  tracks : books.needsKeyframe = false → books.logicalFrameId =
    (unanswered books.journal).getLast?.getD (lastReported books.journal)
  accepted : books.needsKeyframe = false → unanswered books.journal = [] →
    ∃ result, (received books.journal).getLast? = some result ∧
      ProducerClient.accepts result = true
  retries : Retries books.journal
  keyframe : OwesKeyframe books.journal → books.needsKeyframe = true

/-- The results received between two moments, and those that were `carried` in
by the program, are all found again: queued, used up by a retry, or `held` by
the program. -/
def Balanced (before : Books) (carried held : List FrameResult)
    (after : Books) : Prop :=
  (received after.journal ++ (retried before.journal ++
      (before.queued ++ carried))).Perm
    (received before.journal ++ (retried after.journal ++
      (after.queued ++ held)))

theorem Balanced.trans {first second third : Books}
    {carried middle held : List FrameResult}
    (earlier : Balanced first carried middle second)
    (later : Balanced second middle held third) :
    Balanced first carried held third := by
  apply List.perm_iff_count.mpr
  intro result
  have earlierCount := List.perm_iff_count.mp earlier result
  have laterCount := List.perm_iff_count.mp later result
  simp only [List.count_append] at earlierCount laterCount ⊢
  omega

/-- What a part of a call does to the books. -/
structure Accounts (before : Books) (carried held : List FrameResult)
    (after : Books) : Prop where
  flow : after.flow = before.flow
  grows : before.journal <+: after.journal
  sound : before.Sound carried → after.flow.Conforms after.journal →
    after.Sound held
  balanced : before.Sound carried → after.flow.Conforms after.journal →
    Balanced before carried held after

theorem Accounts.refl {books : Books} {held : List FrameResult} :
    Accounts books held held books where
  flow := rfl
  grows := List.prefix_refl _
  sound := fun sound _ => sound
  balanced := fun _ _ => List.Perm.refl _

theorem Accounts.trans {first second third : Books}
    {carried middle held : List FrameResult}
    (earlier : Accounts first carried middle second)
    (later : Accounts second middle held third) :
    Accounts first carried held third := by
  have conformsBefore (conforms : third.flow.Conforms third.journal) :
      second.flow.Conforms second.journal := by
    rw [← later.flow]
    exact conforms.before later.grows
  refine ⟨later.flow.trans earlier.flow, earlier.grows.trans later.grows,
    fun sound conforms => ?_, fun sound conforms => ?_⟩
  · exact later.sound (earlier.sound sound (conformsBefore conforms)) conforms
  · exact (earlier.balanced sound (conformsBefore conforms)).trans
      (later.balanced (earlier.sound sound (conformsBefore conforms)) conforms)

/-- A part of a call that sends no frame. -/
structure Waits (before : Books) (carried held : List FrameResult)
    (after : Books) : Prop extends Accounts before carried held after where
  frames : sentFrames after.journal = sentFrames before.journal
  retries : retried after.journal = retried before.journal
  keyframe : before.needsKeyframe = true → after.needsKeyframe = true

theorem Waits.refl {books : Books} {held : List FrameResult} :
    Waits books held held books where
  toAccounts := .refl
  frames := rfl
  retries := rfl
  keyframe := id

theorem Waits.trans {first second third : Books}
    {carried middle held : List FrameResult}
    (earlier : Waits first carried middle second)
    (later : Waits second middle held third) :
    Waits first carried held third where
  toAccounts := earlier.toAccounts.trans later.toAccounts
  frames := later.frames.trans earlier.frames
  retries := later.retries.trans earlier.retries
  keyframe := later.keyframe ∘ earlier.keyframe

theorem Waits.of_eq {before after : Books} {held : List FrameResult}
    (same : after = before) : Waits before held held after := by
  subst same
  exact .refl

/-- A report in hand is queued. -/
theorem Waits.queue {books : Books} {report : FrameReport} :
    Waits books [report.result] [] { books with
      completedFrameReports := books.completedFrameReports ++ [report] } where
  flow := rfl
  grows := List.prefix_refl _
  sound := fun sound _ =>
    { sound with
      kept := by
        simpa only [queued, List.map_append, List.map_singleton,
          List.append_nil] using sound.kept }
  balanced := fun _ _ => by
    rw [Balanced, queued, queued, List.map_append, List.append_nil]
    exact List.Perm.refl _
  frames := rfl
  retries := rfl
  keyframe := id

end Books

/-- The error rejects no frame. -/
def ProducerError.Plain : ProducerError → Prop
  | .frameRejected .. => False
  | _ => True

namespace ProducerClient

open Books

section

variable {before : Books} {client : ProducerClient} {result : FrameResult}

/-- A conforming receiver answers a pending frame within the limits. -/
theorem answers_pending (heard : client.books = before.heard (.frameResult result))
    (sound : before.Sound [])
    (conforms : client.flow.Conforms client.journal) :
    result.credits ≤ client.creditLimit ∧
      (1 ≤ client.selectedMinor → result.byteCredits ≤ client.byteCreditLimit) ∧
      result.frameId ∈ client.pendingFrames.map (·.frameId) := by
  have journal : client.journal = before.journal ++ [.received result] :=
    congrArg Books.journal heard
  have pending : client.pendingFrames = before.pendingFrames :=
    congrArg Books.pendingFrames heard
  have answers := conforms before.journal result [] journal
  refine ⟨answers.credits, answers.byteCredits, ?_⟩
  rw [pending, sound.inFlight]
  exact answers.inFlight

theorem answered_sound (heard : client.books = before.heard (.frameResult result))
    (sound : before.Sound [])
    (conforms : client.flow.Conforms client.journal) :
    (client.answered result).books.Sound [result] := by
  have journal : client.journal = before.journal ++ [.received result] :=
    congrArg Books.journal heard
  have pending : client.pendingFrames = before.pendingFrames :=
    congrArg Books.pendingFrames heard
  have queue : client.completedFrameReports = before.completedFrameReports :=
    congrArg Books.completedFrameReports heard
  have next : client.nextFrameId = before.nextFrameId :=
    congrArg Books.nextFrameId heard
  have needs : client.needsKeyframe = before.needsKeyframe :=
    congrArg Books.needsKeyframe heard
  have answers := conforms before.journal result [] journal
  obtain ⟨isSent, isNew⟩ := mem_unanswered.mp answers.inFlight
  have inFlight : (client.answered result).pendingFrames.map (·.frameId) =
      unanswered (before.journal ++ [.received result]) := by
    change (client.pendingFrames.eraseP
      (·.frameId == result.frameId)).map (·.frameId) = _
    rw [unanswered_received sound.distinct, ← sound.inFlight, ← pending,
      List.erase_eq_eraseP, List.eraseP_map]
    congr 2
    funext other
    exact BEq.comm
  have reported : lastReported (before.journal ++ [.received result]) =
      result.logicalFrameId := by simp [lastReported]
  constructor
  case inFlight =>
    change _ = unanswered client.journal
    rw [journal]
    exact inFlight
  case bounded =>
    change client.nextFrameId ≤ u64Max
    rw [next]
    exact sound.bounded
  case fresh =>
    change ∀ frameId ∈ sentIds client.journal, frameId < client.nextFrameId
    rw [journal, next]
    simpa using sound.fresh
  case distinct =>
    change (sentIds client.journal).Nodup
    rw [journal]
    simpa using sound.distinct
  case known =>
    change ∀ frameId ∈ answeredIds client.journal, frameId ∈ sentIds client.journal
    rw [journal]
    intro frameId member
    rw [answeredIds_append, List.mem_append, answeredIds_received,
      List.mem_singleton] at member
    rw [sentIds_append, sentIds_received, List.append_nil]
    rcases member with earlier | rfl
    · exact sound.known frameId earlier
    · exact isSent
  case once =>
    change (answeredIds client.journal).Nodup
    rw [journal, answeredIds_append, answeredIds_received]
    exact List.nodup_append.mpr ⟨sound.once, List.pairwise_singleton _ _,
      fun frameId member other isOther same => by
        rw [List.mem_singleton] at isOther
        subst isOther same
        exact isNew member⟩
  case kept =>
    change ∀ other ∈ client.completedFrameReports.map (·.result) ++ [result],
      other ∈ received client.journal
    rw [journal, queue]
    intro other member
    rw [received_append, received_received, List.mem_append]
    rcases List.mem_append.mp member with earlier | last
    · exact .inl (sound.kept other (List.mem_append_left _ earlier))
    · exact .inr last
  case reported =>
    change result.logicalFrameId = lastReported client.journal
    rw [journal, reported]
  case tracks =>
    change (client.needsKeyframe || !accepts result) = false →
      (if client.needsKeyframe || !accepts result then result.logicalFrameId
        else ((client.answered result).pendingFrames.getLast?.map
          (·.frameId)).getD result.logicalFrameId) =
        (unanswered client.journal).getLast?.getD (lastReported client.journal)
    intro keeps
    rw [if_neg (by rw [keeps]; exact Bool.false_ne_true), ← List.getLast?_map,
      inFlight, journal, reported]
  case accepted =>
    change (client.needsKeyframe || !accepts result) = false → _ →
      ∃ other, (received client.journal).getLast? = some other ∧
        accepts other = true
    intro keeps _
    refine ⟨result, by rw [journal]; simp, ?_⟩
    simpa using (Bool.or_eq_false_iff.mp keeps).2
  case retries =>
    change Retries client.journal
    rw [journal]
    exact retries_received sound.retries
  case keyframe =>
    change OwesKeyframe client.journal →
      (client.needsKeyframe || !accepts result) = true
    rw [journal, needs]
    intro owes
    rw [sound.keyframe (owesKeyframe_received owes), Bool.true_or]

theorem answered_waits (heard : client.books = before.heard (.frameResult result)) :
    Waits before [] [result] (client.answered result).books := by
  have journal : client.journal = before.journal ++ [.received result] :=
    congrArg Books.journal heard
  have queue : client.completedFrameReports = before.completedFrameReports :=
    congrArg Books.completedFrameReports heard
  have needs : client.needsKeyframe = before.needsKeyframe :=
    congrArg Books.needsKeyframe heard
  have flow : client.flow = before.flow := congrArg Books.flow heard
  constructor
  case toAccounts =>
    constructor
    case flow => exact flow
    case grows =>
      change before.journal <+: client.journal
      rw [journal]
      exact List.prefix_append _ _
    case sound => exact answered_sound heard
    case balanced =>
      intro _ _
      change (received client.journal ++ (retried before.journal ++
          (before.queued ++ []))).Perm (received before.journal ++
        (retried client.journal ++ (client.books.queued ++ [result])))
      have sameQueue : client.books.queued = before.queued :=
        congrArg (List.map FrameReport.result) queue
      rw [journal, sameQueue]
      apply List.perm_iff_count.mpr
      intro other
      simp only [received_append, retried_append, received_received,
        retried_received, List.count_append, List.count_nil]
      omega
  case frames =>
    change sentFrames client.journal = _
    rw [journal]
    simp
  case retries =>
    change retried client.journal = _
    rw [journal]
    simp
  case keyframe =>
    intro needed
    change (client.needsKeyframe || !accepts result) = true
    rw [needs, needed, Bool.true_or]

/-- Nothing is claimed about a receiver that does not conform. -/
theorem refused_waits (heard : client.books = before.heard (.frameResult result))
    (refused : before.Sound [] → ¬ client.flow.Conforms client.journal) :
    Waits before [] [] client.books := by
  have journal : client.journal = before.journal ++ [.received result] :=
    congrArg Books.journal heard
  have flow : client.flow = before.flow := congrArg Books.flow heard
  refine ⟨⟨flow, ?_, ?_, ?_⟩, ?_, ?_, ?_⟩
  · change before.journal <+: client.journal
    rw [journal]
    exact List.prefix_append _ _
  · exact fun sound conforms => absurd conforms (refused sound)
  · exact fun sound conforms => absurd conforms (refused sound)
  · change sentFrames client.journal = _
    rw [journal]
    simp
  · change retried client.journal = _
    rw [journal]
    simp
  · intro needed
    have needs : client.needsKeyframe = before.needsKeyframe :=
      congrArg Books.needsKeyframe heard
    exact needs.trans needed

end

/-- What a part of a call does, seen from earlier books: the results `carried`
in are accounted for, and it gives its caller those in `held`. -/
def WaitsFrom {α : Type} (before : Books) (carried : List FrameResult)
    (held : α → List FrameResult) (output : Except ProducerError α)
    (after : ProducerClient) : Prop :=
  match output with
  | .ok value => Waits before carried (held value) after.books
  | .error err => err.Plain ∧ Waits before carried [] after.books

/-- A part of a call that sends no frame. -/
def Waiting {α : Type} (carried : List FrameResult) (proc : ClientProc α)
    (held : α → List FrameResult) : Prop :=
  ∀ client output after, proc.Runs client output after →
    WaitsFrom client.books carried held output after

/-- A part of a call that starts with a message that just arrived. -/
def Hearing {α : Type} (body : Body) (proc : ClientProc α)
    (held : α → List FrameResult) : Prop :=
  ∀ before client output after, client.books = before.heard body →
    proc.Runs client output after → WaitsFrom before [] held output after

section

variable {α β : Type} {carried : List FrameResult} {proc : ClientProc α}
  {held : α → List FrameResult}

theorem waitsFrom_bind {before : Books} {client after : ProducerClient}
    {next : α → ClientProc β} {given : β → List FrameResult}
    {output : Except ProducerError β}
    (runs : (proc >>= next).Runs client output after)
    (first : ∀ middle between, proc.Runs client middle between →
      WaitsFrom before carried held middle between)
    (rest : ∀ value, Waiting (held value) (next value) given) :
    WaitsFrom before carried given output after := by
  rcases Proc.runs_bind.mp runs with ⟨value, between, ran, continued⟩ |
    ⟨err, rfl, failed⟩
  · have earlier : Waits before carried (held value) between.books :=
      first _ _ ran
    have later := rest value between output after continued
    cases output with
    | ok => exact earlier.trans later
    | error => exact ⟨later.1, earlier.trans later.2⟩
  · exact first _ _ failed

theorem Waiting.bind {next : α → ClientProc β} {given : β → List FrameResult}
    (first : Waiting carried proc held)
    (rest : ∀ value, Waiting (held value) (next value) given) :
    Waiting carried (proc >>= next) given :=
  fun client _ _ runs => waitsFrom_bind runs (first client) rest

theorem Hearing.bind {body : Body} {next : α → ClientProc β}
    {given : β → List FrameResult} (first : Hearing body proc held)
    (rest : ∀ value, Waiting (held value) (next value) given) :
    Hearing body (proc >>= next) given :=
  fun before client _ _ heard runs => waitsFrom_bind runs
    (fun middle between ran => first before client middle between heard ran) rest

theorem Waiting.pure {value : α} (same : held value = carried) :
    Waiting carried (pure value) held := by
  intro client output after runs
  obtain ⟨rfl, rfl⟩ := Proc.runs_pure.mp runs
  subst same
  exact Waits.refl

theorem Waiting.throw {err : ProducerError} (plain : err.Plain) :
    Waiting [] (Proc.throw err : ClientProc α) held := by
  intro client output after runs
  obtain ⟨rfl, rfl⟩ := Proc.runs_throw.mp runs
  exact ⟨plain, .refl⟩

theorem Waiting.get {next : ProducerClient → ClientProc α}
    (rest : ∀ client, Waiting carried (next client) held) :
    Waiting carried (Proc.get >>= next) held :=
  fun client output after runs => rest client client output after runs

/-- A message that is no result changes nothing by arriving. -/
theorem Hearing.of_waiting {body : Body} (waiting : Waiting [] proc held)
    (other : ∀ result, body ≠ .frameResult result) : Hearing body proc held := by
  intro before client output after heard runs
  have same : client.books = before := by
    rw [heard]
    unfold Books.heard
    split
    · exact absurd rfl (other _)
    · rfl
  rw [← same]
  exact waiting client output after runs

end

theorem queueReport_waiting (report : FrameReport) :
    Waiting [report.result] (queueReport report) fun _ => [] := by
  intro client output after runs
  obtain ⟨rfl, rfl⟩ := Proc.runs_modify.mp runs
  exact Waits.queue

theorem applyFrameResult_hearing (result : FrameResult) :
    Hearing (.frameResult result) (applyFrameResult result)
      fun report => [report.result] := by
  intro before client output after heard runs
  simp only [applyFrameResult, Proc.runs_get_bind] at runs
  split at runs
  · rename_i exceeds
    obtain ⟨rfl, rfl⟩ := Proc.runs_throw.mp runs
    refine ⟨trivial, refused_waits heard fun sound conforms => ?_⟩
    obtain ⟨credits, byteCredits, _⟩ := answers_pending heard sound conforms
    rcases exceeds with exceeds | ⟨minor, exceeds⟩
    · exact absurd credits (Nat.not_le.mpr exceeds)
    · exact absurd (byteCredits minor) (Nat.not_le.mpr exceeds)
  · split at runs
    · rename_i missing
      obtain ⟨rfl, rfl⟩ := Proc.runs_throw.mp runs
      refine ⟨trivial, refused_waits heard fun sound conforms => ?_⟩
      obtain ⟨_, _, pending⟩ := answers_pending heard sound conforms
      obtain ⟨frame, member, same⟩ := List.mem_map.mp pending
      exact List.find?_eq_none.mp missing frame member (beq_iff_eq.mpr same)
    · rw [Proc.runs_set_bind, Proc.runs_pure] at runs
      obtain ⟨rfl, rfl⟩ := runs
      exact answered_waits heard

theorem send_waiting {body : Body} (other : ∀ frame, body ≠ .frame frame) :
    Waiting [] (send body) fun _ => [] := by
  intro client output after runs
  simp only [send, Proc.runs_get_bind] at runs
  split at runs
  · obtain ⟨rfl, rfl⟩ := Proc.runs_throw.mp runs
    exact ⟨trivial, .refl⟩
  · rw [Proc.runs_set_bind] at runs
    split at runs
    · obtain ⟨rfl, rfl⟩ := Proc.runs_throw.mp runs
      exact ⟨trivial, .of_eq rfl⟩
    · obtain ⟨rfl, rfl⟩ := Proc.runs_modify.mp runs
      refine Waits.of_eq ?_
      unfold noteSent
      split
      · exact absurd rfl (other _)
      · rfl

theorem emitEvent_waiting (body : Body) :
    Waiting [] (emitEvent body) fun _ => [] := by
  intro client output after runs
  simp only [emitEvent, Proc.runs_get_bind] at runs
  split at runs
  · obtain ⟨rfl, rfl⟩ := Proc.runs_pure.mp runs
    exact Waits.refl
  · split at runs
    · obtain ⟨rfl, rfl⟩ := Proc.runs_throw.mp runs
      exact ⟨trivial, .refl⟩
    · obtain ⟨rfl, rfl⟩ := Proc.runs_set.mp runs
      exact Waits.of_eq rfl

theorem handleAuxiliary_hearing (body : Body) :
    Hearing body (handleAuxiliary body) fun _ => [] := by
  cases body
  case frameResult result =>
    exact (applyFrameResult_hearing result).bind queueReport_waiting
  case actionInvoke =>
    refine .of_waiting (.get fun client => ?_) nofun
    exact (emitEvent_waiting _).bind fun _ => send_waiting nofun
  case error err =>
    refine .of_waiting ?_ nofun
    change Waiting []
      (if err.fatal then Proc.throw (.remote err.message) else pure ()) _
    split
    · exact .throw trivial
    · exact .pure rfl
  case ping => exact .of_waiting (send_waiting nofun) nofun
  case inputBatch => exact .of_waiting (emitEvent_waiting _) nofun
  case keyInput => exact .of_waiting (emitEvent_waiting _) nofun
  case textInput => exact .of_waiting (emitEvent_waiting _) nofun
  case goodbye => exact .of_waiting (.throw trivial) nofun
  all_goals exact .of_waiting (.pure rfl) nofun

/-- The books know of an envelope that was received. -/
theorem noteReceived_books (client : ProducerClient) (envelope : Envelope) :
    (client.noteReceived envelope).books =
      match envelope.body with
      | some body => client.books.heard body
      | none => client.books := by
  unfold noteReceived
  cases envelope.body with
  | none => rfl
  | some body => cases body <;> rfl

theorem receive_runs {client after : ProducerClient}
    {output : Except ProducerError Envelope}
    (runs : receive.Runs client output after) :
    (∃ err : ProducerError, output = .error err ∧ err.Plain ∧
        after.books = client.books) ∨
      ∃ envelope, output = .ok envelope ∧
        after.books = (client.noteReceived envelope).books := by
  simp only [receive, Proc.runs_get_bind] at runs
  split at runs
  · cases output <;> cases runs
  · rw [Proc.runs_set_bind] at runs
    split at runs
    · obtain ⟨rfl, rfl⟩ := Proc.runs_throw.mp runs
      exact .inl ⟨_, rfl, trivial, rfl⟩
    · split at runs
      · obtain ⟨rfl, rfl⟩ := Proc.runs_throw.mp runs
        exact .inl ⟨_, rfl, trivial, rfl⟩
      · split at runs
        · obtain ⟨rfl, rfl⟩ := Proc.runs_throw.mp runs
          exact .inl ⟨_, rfl, trivial, rfl⟩
        · rw [Proc.runs_modify_bind] at runs
          obtain ⟨rfl, rfl⟩ := Proc.runs_pure.mp runs
          refine .inr ⟨_, rfl, ?_⟩
          rw [noteReceived_books]
          exact noteReceived_books _ _

/-- Receive a message and go on with what it says. -/
theorem receive_waiting {α : Type} {next : Envelope → ClientProc α}
    {held : α → List FrameResult}
    (empty : ∀ envelope, envelope.body = none → Waiting [] (next envelope) held)
    (full : ∀ envelope body, envelope.body = some body →
      Hearing body (next envelope) held) :
    Waiting [] (receive >>= next) held := by
  intro client output after runs
  rcases Proc.runs_bind.mp runs with ⟨envelope, between, ran, continued⟩ |
    ⟨err, rfl, failed⟩
  · rcases receive_runs ran with ⟨_, impossible, _⟩ | ⟨_, same, books⟩
    · cases impossible
    · cases same
      rw [noteReceived_books] at books
      cases isBody : envelope.body with
      | none =>
          rw [isBody] at books
          rw [← show between.books = client.books from books]
          exact empty envelope isBody between output after continued
      | some body =>
          rw [isBody] at books
          exact full envelope body isBody client.books between output after
            books continued
  · rcases receive_runs failed with ⟨_, same, plain, books⟩ | ⟨_, impossible, _⟩
    · cases same
      exact ⟨plain, .of_eq books⟩
    · cases impossible

theorem pumpOnce_waiting : Waiting [] pumpOnce fun _ => [] := by
  refine receive_waiting (fun envelope isNone => ?_)
    fun envelope body isSome => ?_
  · rw [isNone]
    exact .throw trivial
  · rw [isSome]
    exact handleAuxiliary_hearing body

/-- What a caller has in hand when a message may have been the awaited one. -/
def heldIfSome {α : Type} (held : α → List FrameResult) :
    Option α → List FrameResult
  | some value => held value
  | none => []

theorem receiveUntil_waiting {α : Type} {held : α → List FrameResult}
    {awaited : Body → ClientProc (Option α)}
    (each : ∀ body, Hearing body (awaited body) (heldIfSome held))
    (messages : Nat) : Waiting [] (receiveUntil awaited messages) held := by
  induction messages with
  | zero =>
      intro client output after runs
      cases output <;> cases runs
  | succ messages induction =>
      refine receive_waiting (fun envelope isNone => ?_)
        fun envelope body isSome => ?_
      · rw [isNone]
        exact .throw trivial
      · rw [isSome]
        refine (each body).bind fun found => ?_
        cases found with
        | some value => exact .pure rfl
        | none => exact induction

theorem await_waiting {α : Type} {held : α → List FrameResult}
    {awaited : Body → ClientProc (Option α)}
    (each : ∀ body, Hearing body (awaited body) (heldIfSome held)) :
    Waiting [] (await awaited) held :=
  .get fun client => receiveUntil_waiting each client.io.incoming.length

/-- Handle a message that is not the awaited one. -/
theorem aside_hearing {α : Type} {held : α → List FrameResult} (body : Body) :
    Hearing body (do handleAuxiliary body; return none) (heldIfSome held) :=
  (handleAuxiliary_hearing body).bind fun _ => .pure rfl

theorem anyReport_hearing (body : Body) : Hearing body (anyReport body)
    (heldIfSome fun report => [report.result]) := by
  cases body
  case frameResult result =>
    exact (applyFrameResult_hearing result).bind fun report => .pure rfl
  all_goals exact aside_hearing _

theorem receivePendingFrameReport_waiting :
    Waiting [] receivePendingFrameReport fun report => [report.result] :=
  await_waiting anyReport_hearing

theorem settleLoop_waiting (turns : Nat) :
    Waiting [] (settleLoop turns) fun _ => [] := by
  induction turns with
  | zero =>
      intro client output after runs
      cases output <;> cases runs
  | succ turns induction =>
      refine .get fun client => ?_
      split
      · exact .pure rfl
      · exact receivePendingFrameReport_waiting.bind fun report =>
          (queueReport_waiting report).bind fun _ => induction

theorem settlePendingFrames_waiting :
    Waiting [] settlePendingFrames fun _ => [] :=
  .get fun _ => settleLoop_waiting _

theorem reportOf_hearing (frameId : Nat) (body : Body) :
    Hearing body (reportOf frameId body)
      (heldIfSome fun report => [report.result]) := by
  cases body
  case frameResult result =>
    refine (applyFrameResult_hearing result).bind fun report => ?_
    split
    · exact .pure rfl
    · exact (queueReport_waiting report).bind fun _ => .pure rfl
  all_goals exact aside_hearing _

theorem overlayAnswer_hearing (sequence : Nat) (body : Body) :
    Hearing body (overlayAnswer sequence body) (heldIfSome fun _ => []) := by
  cases body
  case overlayResult result =>
    refine .of_waiting ?_ nofun
    change Waiting [] (if result.sequence = sequence then
      pure (some result) else pure none) _
    split
    · exact .pure rfl
    · exact .pure rfl
  all_goals exact aside_hearing _

theorem find?_perm {α : Type} {test : α → Bool} {items : List α} {item : α}
    (found : items.find? test = some item) :
    items.Perm (items.eraseP test ++ [item]) := by
  induction items with
  | nil => cases found
  | cons first rest induction =>
      rw [List.find?_cons] at found
      rw [List.eraseP_cons]
      cases passes : test first with
      | true =>
          rw [passes] at found
          cases found
          exact (List.perm_append_singleton _ _).symm
      | false =>
          rw [passes] at found
          exact (induction found).cons first

/-- A queued report is taken in hand. -/
theorem Waits.take {books : Books} {queue taken : List FrameReport}
    (perm : books.completedFrameReports.Perm (queue ++ taken)) :
    Waits books [] (taken.map (·.result))
      { books with completedFrameReports := queue } := by
  have results : books.queued.Perm
      (queue.map (·.result) ++ taken.map (·.result)) := by
    rw [← List.map_append]
    exact perm.map _
  constructor
  case toAccounts =>
    constructor
    case flow => rfl
    case grows => exact List.prefix_refl _
    case sound =>
      intro sound _
      exact { sound with
        kept := fun result member => sound.kept result
          (List.mem_append_left _ (results.mem_iff.mpr member)) }
    case balanced =>
      intro _ _
      apply List.perm_iff_count.mpr
      intro result
      have counts := List.perm_iff_count.mp results result
      simp only [List.count_append, queued, List.count_nil] at counts ⊢
      omega
  case frames => rfl
  case retries => rfl
  case keyframe => exact id

theorem waitForFrameReport_waiting (frameId : Nat) :
    Waiting [] (waitForFrameReport frameId) fun report => [report.result] := by
  intro client output after runs
  simp only [waitForFrameReport, Proc.runs_get_bind] at runs
  split at runs
  · rename_i report found
    rw [Proc.runs_set_bind, Proc.runs_pure] at runs
    obtain ⟨rfl, rfl⟩ := runs
    exact Waits.take (find?_perm found)
  · exact await_waiting (reportOf_hearing frameId) client output after runs

theorem takeReport_waiting :
    Waiting [] takeReport fun report => report.toList.map (·.result) := by
  intro client output after runs
  simp only [takeReport, Proc.runs_get_bind] at runs
  split at runs
  · obtain ⟨rfl, rfl⟩ := Proc.runs_pure.mp runs
    exact Waits.refl
  · rename_i report later queue
    rw [Proc.runs_set_bind, Proc.runs_pure] at runs
    obtain ⟨rfl, rfl⟩ := runs
    refine Waits.take ?_
    change client.completedFrameReports.Perm (later ++ [report])
    rw [queue]
    exact (List.perm_append_singleton _ _).symm

theorem waitForFrameCreditReport_waiting :
    Waiting [] waitForFrameCreditReport
      fun report => report.toList.map (·.result) := by
  refine takeReport_waiting.bind fun found => ?_
  cases found with
  | some report => exact .pure rfl
  | none =>
      refine .get fun client => ?_
      split
      · exact .pure rfl
      · exact receivePendingFrameReport_waiting.bind fun _ => .pure rfl

theorem flushFrameReports_waiting :
    Waiting [] flushFrameReports fun reports => reports.map (·.result) := by
  refine settlePendingFrames_waiting.bind fun _ => ?_
  intro client output after runs
  rw [Proc.runs_get_bind, Proc.runs_set_bind, Proc.runs_pure] at runs
  obtain ⟨rfl, rfl⟩ := runs
  exact Waits.take (List.Perm.refl _)

/-- A keyframe may be asked for at any time. -/
theorem Waits.demand {books : Books} {hand : List FrameResult} :
    Waits books hand hand { books with needsKeyframe := true } where
  flow := rfl
  grows := List.prefix_refl _
  sound := fun sound _ =>
    { sound with
      tracks := fun impossible => nomatch impossible
      accepted := fun impossible => nomatch impossible
      keyframe := fun _ => rfl }
  balanced := fun _ _ => List.Perm.refl _
  frames := rfl
  retries := rfl
  keyframe := fun _ => rfl

theorem updateOverlay_waiting (update : OverlayUpdate) :
    Waiting [] (updateOverlay update) fun _ => [] := by
  have sends : Waiting [] (send (.overlayUpdate update)) fun _ => [] :=
    send_waiting nofun
  have demands (result : OverlayResult) :
      Waiting [] (Proc.modify fun client : ProducerClient =>
        if result.applied && update.localInk == some false then
          { client with needsKeyframe := true }
        else client) fun _ => [] := by
    intro client output after runs
    obtain ⟨rfl, rfl⟩ := Proc.runs_modify.mp runs
    change Waits client.books [] [] _
    split
    · exact Waits.demand
    · exact Waits.refl
  refine .get fun client => ?_
  split
  · exact .throw trivial
  · exact sends.bind fun _ =>
      (await_waiting (overlayAnswer_hearing _)).bind fun result =>
        (demands result).bind fun _ => .pure rfl

theorem creditLoop_waiting (needed turns : Nat) :
    Waiting [] (creditLoop needed turns) fun _ => [] := by
  induction turns with
  | zero =>
      intro client output after runs
      cases output <;> cases runs
  | succ turns induction =>
      refine .get fun client => ?_
      split
      · split
        · exact .throw trivial
        · refine receivePendingFrameReport_waiting.bind fun report =>
            (queueReport_waiting report).bind fun _ => .get fun client => ?_
          split
          · exact .pure rfl
          · exact induction
      · exact .pure rfl

end ProducerClient

end RmDisplay.Producer
