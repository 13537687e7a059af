import Mathlib.Data.List.Infix
import RmDisplay.Receiver.CleanupPending
import RmDisplay.Receiver.FrameOutcomes
import RmDisplay.Receiver.FrameResults

/-!
# The order of frame results

A surface has at most one pending frame, and the results of earlier frames are
due before it.  As long as the ids of the frames increase, a result that does
not decline its frame is about the earliest frame without a result, and it
names no frame before that one.
-/

namespace RmDisplay.Receiver

open Foundation Protocol RmDisplay.Core Core.DisplayCore

namespace JournalEntry

/-- The frame result an entry sends. -/
def result : JournalEntry → Option FrameResult
  | .sent (.frameResult result) _ => some result
  | _ => none

end JournalEntry

/-- The entries since the present surface was opened, the latest first. -/
def sinceOpened (entries : List JournalEntry) : List JournalEntry :=
  entries.takeWhile fun entry => !entry.opens

def handledIds (entries : List JournalEntry) : List Nat :=
  (entries.filterMap (·.frame)).map (·.frameId)

def resultIds (entries : List JournalEntry) : List Nat :=
  (entries.filterMap (·.result)).map (·.frameId)

/-- The frame was not taken. -/
def TurnedDown (result : FrameResult) : Prop :=
  result.result = wire FrameResultCode.rejected ∨
    result.result = wire FrameResultCode.needKeyframe

section

variable {entries later : List JournalEntry}

@[simp] theorem handledIds_append :
    handledIds (entries ++ later) = handledIds entries ++ handledIds later := by
  simp [handledIds]

@[simp] theorem resultIds_append :
    resultIds (entries ++ later) = resultIds entries ++ resultIds later := by
  simp [resultIds]

theorem ids_of_plain (plain : ∀ entry ∈ entries,
    entry.frame = none ∧ entry.result = none) :
    handledIds entries = [] ∧ resultIds entries = [] := by
  constructor
  · rw [handledIds, List.filterMap_eq_nil_iff.mpr, List.map_nil]
    exact fun entry member => (plain entry member).1
  · rw [resultIds, List.filterMap_eq_nil_iff.mpr, List.map_nil]
    exact fun entry member => (plain entry member).2

end

/-- The frames without a result, in the order in which their results will be
sent. -/
def Station.queue (self : Station) : List Nat :=
  self.owed.terminals.map (·.frameId) ++
    self.face.pendingFrame.toList.map (·.frameId)

/-- What a step does to the frames without a result and to the logical frame. -/
inductive AnswerMove :
    List Nat → Nat → List JournalEntry → List Nat → Nat → Prop
  | still {queue : List Nat} {logical next : Nat} {entries : List JournalEntry}
      (plain : ∀ entry ∈ entries, entry.opens = false ∧
        entry.frame = none ∧ entry.result = none)
      (kept : next = logical ∨ next = 0) :
      AnswerMove queue logical entries queue next
  | took {queue : List Nat} {logical : Nat} (frame : Frame)
      (validated : ValidatedFrame) :
      AnswerMove queue logical [.accepted frame validated]
        (queue ++ [frame.frameId]) frame.frameId
  | refused {queue : List Nat} {logical : Nat} (frame : Frame)
      {result : FrameResult} (pending : Option PendingPresentation)
      (same : result.frameId = frame.frameId) (declined : TurnedDown result) :
      AnswerMove queue logical
        [.refused frame, .sent (.frameResult result) pending] queue logical
  | answered {queue : List Nat} {logical : Nat} (result : FrameResult)
      (pending : Option PendingPresentation)
      (names : result.logicalFrameId = logical) :
      AnswerMove (result.frameId :: queue) logical
        [.sent (.frameResult result) pending] queue logical
  | opened {queue : List Nat} {logical : Nat} {entry : JournalEntry}
      (opens : entry.opens = true) :
      AnswerMove queue logical [entry] [] 0

theorem AnswerMove.queue_of_opens {queue left : List Nat} {logical next : Nat}
    {entries : List JournalEntry}
    (move : AnswerMove queue logical entries left next)
    (opens : entries.any (·.opens) = true) :
    left = [] ∧ ∃ entry, entries = [entry] ∧ entry.opens = true := by
  cases move with
  | still plain _ =>
      obtain ⟨entry, member, isOpening⟩ := List.any_eq_true.mp opens
      rw [(plain entry member).1] at isOpening
      cases isOpening
  | opened isOpening => exact ⟨rfl, _, rfl, isOpening⟩
  | took | refused | answered => simp [JournalEntry.opens] at opens

private theorem eq_of_perm {ids others : List Nat} (perm : ids.Perm others)
    (few : ids.length ≤ 1) : others = ids := by
  cases ids with
  | nil => exact (List.nil_perm.mp perm)
  | cons only rest =>
      cases rest with
      | nil => exact (List.singleton_perm.mp perm).symm
      | cons _ _ => simp at few

theorem length_pendingIds (core : DisplayCore) : core.pendingIds.length ≤ 1 := by
  unfold pendingIds
  cases core.pending <;> simp

theorem queue_screen {face : Face} {screen : Screen} {owed : Owed}
    (shown : face.screen = some screen) :
    Station.queue ⟨face, owed⟩ =
      owed.terminals.map (·.frameId) ++ screen.core.pendingIds := by
  unfold Station.queue Face.pendingFrame pendingIds
  rw [shown, Option.bind_some, Option.toList_map]

theorem logical_screen {face : Face} {screen : Screen}
    (shown : face.screen = some screen) :
    face.logicalFrameId = screen.core.logicalFrameId := by
  rw [Face.logicalFrameId, shown, Option.map_some, Option.getD_some]

private theorem queue_replaced {face next : Face} {screen other : Screen}
    {owed left : Owed} {terminals : List TerminalFrame}
    (shown : face.screen = some screen) (isNext : next.screen = some other)
    (settles : Settles screen.core.pendingIds []
      (terminals.map (·.frameId)) other.core.pendingIds)
    (isLeft : left.terminals = owed.terminals ++ terminals) :
    Station.queue ⟨next, left⟩ = Station.queue ⟨face, owed⟩ := by
  have perm : screen.core.pendingIds.Perm
      (terminals.map (·.frameId) ++ other.core.pendingIds) := settles
  rw [queue_screen shown, queue_screen isNext, isLeft, List.map_append,
    List.append_assoc, eq_of_perm perm (length_pendingIds _)]

private theorem queue_kept {face next : Face} {screen other : Screen}
    {owed left : Owed} (shown : face.screen = some screen)
    (isNext : next.screen = some other)
    (pending : other.core.pending = screen.core.pending)
    (isLeft : left.terminals = owed.terminals) :
    Station.queue ⟨next, left⟩ = Station.queue ⟨face, owed⟩ := by
  rw [queue_screen shown, queue_screen isNext, isLeft, pendingIds, pendingIds,
    pending]

theorem turnedDown_of_refuses {session : Session} {frame : Frame}
    {verdict : Session.Verdict} {result : FrameResult}
    (refuses : session.Refuses frame verdict)
    (isResult : result.result = wire verdict.result) : TurnedDown result := by
  have code : verdict.result = .rejected ∨ verdict.result = .needKeyframe := by
    rcases refuses with unadmitted | ⟨_, _, _, _, _, _, _, _, rfl⟩
    · exact Session.admitFrame_code unadmitted
    · exact Session.commitResult_code _
  unfold TurnedDown
  rw [isResult]
  rcases code with same | same
  · exact .inl (by rw [same])
  · exact .inr (by rw [same])

private theorem noFrame_of_plain {action : Action} (plain : Plain action) :
    action.accepted = [] ∧ action ≠ .freeze := by
  cases action <;> simp_all [Plain, Action.accepted]

private theorem queue_core {face : Face} {screen : Screen}
    {action : Action} {owed : Owed} {terminals : List TerminalFrame}
    {world : World} (shown : face.screen = some screen)
    (plain : Plain action) (coherent : Coherent screen.core)
    (step : CoreStep ⟨screen.core, face.panel⟩ action terminals world) :
    Station.queue
        ⟨{ face with
            panel := world.panel
            screen := some { screen with core := world.core } },
          { owed with terminals := owed.terminals ++ terminals }⟩ =
      Station.queue ⟨face, owed⟩ := by
  have settles := step.settles coherent
  rw [(noFrame_of_plain plain).1] at settles
  exact @queue_replaced _ _ _ { screen with core := world.core } _ _ _
    shown rfl settles rfl

private theorem logical_core {core : DisplayCore} {panel : Panel}
    {action : Action} {terminals : List TerminalFrame}
    {world : World} (plain : Plain action)
    (step : CoreStep ⟨core, panel⟩ action terminals world) :
    world.core.logicalFrameId = core.logicalFrameId ∨
      world.core.logicalFrameId = 0 := by
  obtain ⟨noFrame, notFreeze⟩ := noFrame_of_plain plain
  obtain ⟨made, _, change⟩ := step.changesFrames noFrame notFreeze
  have isNext : world.core.logicalFrameId =
      world.core.frames.logicalFrameId := rfl
  rw [isNext]
  generalize world.core.frames = next at change
  generalize made.any (·.resets) = failed at change
  cases change with
  | kept | dropped | presented _ => exact .inl rfl
  | failed => exact .inr rfl

private theorem accepted_answers {session : Session} {surface : ActiveSurface}
    {frame : Frame} {validated : ValidatedFrame} {contentClass : ContentClass}
    {timing : Timing} {decodeUs : Nat} {report : CommitReport}
    {next : DisplayCore} {owed : Owed} (sound : session.face.Sound)
    (admits : session.admitFrame frame = .ok (surface, validated))
    (commits : surface.core.commitTimed validated contentClass timing
      decodeUs = .ok (report, next)) :
    AnswerMove (Station.queue ⟨session.face, owed⟩)
      session.face.logicalFrameId [.accepted frame validated]
      (Station.queue ⟨{ session.face.note (.accepted frame validated) with
          screen := some { surface.screen with core := next } },
        { owed with
          terminals := owed.terminals ++ report.superseded.toList }⟩)
      next.logicalFrameId := by
  have isScreen := Session.screen_of_admits admits
  have settles := (@CoreStep.commit _ _ session.face.panel _ _ _ _ _
    commits).settles (sound.coherent _ isScreen)
  have decodes := (Session.admits_of_admitFrame admits).decodes
  obtain ⟨_, _, _, _, _, base, _, rfl⟩ := commitTimed_eq_ok commits
  have superseded : report.superseded.toList.map (·.frameId) =
      surface.screen.core.pendingIds := by
    have perm : (validated.frameId ::
        surface.screen.core.pendingIds).Perm
        (report.superseded.toList.map (·.frameId) ++
          [validated.frameId]) := settles
    exact eq_of_perm
      (perm.trans (List.perm_append_singleton _ _)).cons_inv
      (length_pendingIds surface.screen.core)
  have isQueue : Station.queue ⟨session.face, owed⟩ =
      owed.terminals.map (·.frameId) ++ surface.screen.core.pendingIds :=
    queue_screen isScreen
  have moved := @AnswerMove.took (Station.queue ⟨session.face, owed⟩)
    session.face.logicalFrameId frame validated
  rw [isQueue] at moved ⊢
  rw [← superseded, ← decodes.frameId] at moved
  rw [← superseded]
  unfold Station.queue
  rw [List.map_append]
  exact moved

private theorem reported_answers {face : Face} {terminal : TerminalFrame}
    {owed : Owed} {rest : List TerminalFrame}
    (due : owed.terminals = terminal :: rest) :
    AnswerMove (Station.queue ⟨face, owed⟩) face.logicalFrameId
      [.sent (face.terminalBody terminal) face.pendingFrame]
      (Station.queue ⟨face, { owed with terminals := rest }⟩)
      face.logicalFrameId := by
  have isQueue : Station.queue ⟨face, owed⟩ = terminal.frameId ::
      Station.queue ⟨face, { owed with terminals := rest }⟩ := by
    unfold Station.queue
    rw [due, List.map_cons, List.cons_append]
  obtain ⟨result, isBody, isFrame, isLogical⟩ :
      ∃ result, face.terminalBody terminal = .frameResult result ∧
        result.frameId = terminal.frameId ∧
        result.logicalFrameId = face.logicalFrameId := ⟨_, rfl, rfl, rfl⟩
  rw [isQueue, isBody, ← isFrame]
  exact .answered result face.pendingFrame isLogical

private theorem opened_answers {face next : Face} {core : DisplayCore}
    {screen : Screen} {queue : List Nat} {logical : Nat} {entry : JournalEntry}
    (opens : Opens face core) (isOpening : entry.opens = true)
    (shown : next.screen = some screen) (same : screen.core = core) :
    AnswerMove queue logical [entry] (Station.queue ⟨next, {}⟩)
      next.logicalFrameId := by
  rw [queue_screen shown, logical_screen shown, pendingIds, same, opens.idle,
    opens.ids.1]
  exact .opened isOpening

/-- The answers of a step come in the order of the frames. -/
theorem FaceStep.answers {before after : Station} {entries : List JournalEntry}
    (step : FaceStep before entries after) (sound : before.face.Sound)
    (isOpen : after.face.closed = false) :
    AnswerMove before.queue before.face.logicalFrameId entries after.queue
      after.face.logicalFrameId := by
  have still {station next : Station} {entries : List JournalEntry}
      (plain : ∀ entry ∈ entries, entry.opens = false ∧
        entry.frame = none ∧ entry.result = none)
      (queue : next.queue = station.queue)
      (logical : next.face.logicalFrameId = station.face.logicalFrameId ∨
        next.face.logicalFrameId = 0) :
      AnswerMove station.queue station.face.logicalFrameId entries next.queue
        next.face.logicalFrameId := by
    rw [queue]
    exact .still plain logical
  have plainOne {entry : JournalEntry} (opens : entry.opens = false)
      (frame : entry.frame = none) (result : entry.result = none) :
      ∀ other ∈ [entry], other.opens = false ∧ other.frame = none ∧
        other.result = none := by
    intro other member
    rw [List.mem_singleton.mp member]
    exact ⟨opens, frame, result⟩
  cases step with
  | core shown plain step =>
      refine still (List.forall_mem_nil _)
        (queue_core shown plain (sound.coherent _ shown) step) ?_
      rw [logical_screen shown]
      exact logical_core plain step
  | @frozen face screen owed shown live presented =>
      have settles := (@CoreStep.freeze screen.core face.panel).settles
        (sound.coherent _ shown)
      refine still (plainOne rfl rfl rfl) ?_ (.inl ?_)
      · exact @queue_replaced _ _ _ { screen with
          inkFrozen := true, core := screen.core.freezePresented.2 } _ _ _
          shown rfl settles rfl
      · rw [logical_screen shown]
        rfl
  | accepted admits commits => exact accepted_answers sound admits commits
  | configured shown updates =>
      obtain ⟨_, _, stored⟩ := Res.bind_eq_ok.mp updates
      cases stored
      refine still (List.forall_mem_nil _) (queue_kept shown rfl rfl rfl)
        (.inl ?_)
      rw [logical_screen shown]
      rfl
  | noted shown _ =>
      refine still (List.forall_mem_nil _) (queue_kept shown rfl rfl rfl)
        (.inl ?_)
      rw [logical_screen shown]
      rfl
  | asked shown _ _ | released shown _ =>
      refine still (plainOne rfl rfl rfl) (queue_kept shown rfl rfl rfl)
        (.inl ?_)
      rw [logical_screen shown]
      rfl
  | @inked face screen next entry owed shown step =>
      have isPending := step.pending.2
      have isLogical : next.core.logicalFrameId =
          screen.core.logicalFrameId :=
        congrArg (·.state.logicalFrameId) step.frameView.1
      refine still ?_ (queue_kept shown rfl isPending rfl) (.inl ?_)
      · cases step <;> simp [JournalEntry.opens, JournalEntry.frame,
          JournalEntry.result]
      · rw [logical_screen shown, ← isLogical]
        rfl
  | @refused session frame verdict body owed greeted refuses answers =>
      subst answers
      exact .refused frame _ rfl (turnedDown_of_refuses refuses rfl)
  | reported due answers =>
      subst answers
      exact reported_answers due
  | @sent face body owed truthful =>
      refine still (plainOne rfl rfl ?_) rfl (.inl rfl)
      cases body with
      | frameResult _ => exact truthful.elim
      | _ => rfl
  | @batched face batch owed left truthful source =>
      refine still (plainOne rfl rfl rfl) ?_ (.inl rfl)
      unfold Station.queue
      rw [source.terminals]
      rfl
  | opened _ _ _ _ _ opens => exact opened_answers opens rfl rfl rfl
  | @closed face idle kept =>
      refine still (plainOne rfl rfl rfl) ?_ (.inr rfl)
      unfold Station.queue
      rw [idle]
      rfl
  | forgotten closed =>
      rw [closed] at isOpen
      cases isOpen
  | armed _ _ _ | overlooked _ | clocked _ | touched _ _ | detached _
  | menu _ _ _ | captureLost =>
      exact still (plainOne rfl rfl rfl) rfl (.inl rfl)
  | carried _ | fallback _ _ _ _ | ended | greeted _ _ =>
      exact still (List.forall_mem_nil _) rfl (.inl rfl)

/-- What is known of a result from the entries before it. -/
structure Answered (earlier : List JournalEntry) (result : FrameResult) :
    Prop where
  handled : result.frameId ∈ handledIds earlier
  fresh : result.frameId ∉ resultIds earlier
  first : TurnedDown result ∨ ∀ frameId ∈ handledIds earlier,
    frameId < result.frameId → frameId ∈ resultIds earlier
  names : TurnedDown result ∨ result.logicalFrameId = 0 ∨
    result.frameId ≤ result.logicalFrameId ∧
      result.logicalFrameId ∈ handledIds earlier

/-- Every result is known from the entries before it. -/
def AllAnswered (entries : List JournalEntry) : Prop :=
  ∀ earlier entry later result, entries = earlier ++ entry :: later →
    entry.result = some result → Answered earlier result

/-- The frames of some entries have their results or are in the queue. -/
structure Answering (entries : List JournalEntry) (queue : List Nat)
    (logical : Nat) : Prop where
  settled : (handledIds entries).Perm (resultIds entries ++ queue)
  ordered : queue.Pairwise (· < ·)
  logical : logical = 0 ∨ logical ∈ handledIds entries ∧
    ∀ frameId ∈ queue, frameId ≤ logical
  answers : AllAnswered entries

theorem Answering.nil : Answering [] [] 0 where
  settled := .refl _
  ordered := .nil
  logical := .inl rfl
  answers := by
    intro earlier entry later result split
    simp at split

theorem AllAnswered.append {entries later : List JournalEntry}
    (answers : AllAnswered entries)
    (new : ∀ earlier entry rest result, later = earlier ++ entry :: rest →
      entry.result = some result → Answered (entries ++ earlier) result) :
    AllAnswered (entries ++ later) := by
  intro earlier entry rest result split isResult
  rcases List.append_eq_append_iff.mp split with
    ⟨between, rfl, isLater⟩ | ⟨between, isEntries, isRest⟩
  · exact new between entry rest result isLater isResult
  · cases between with
    | nil =>
        rw [List.append_nil] at isEntries
        subst isEntries
        have onlyNew := new [] entry rest result isRest.symm isResult
        rwa [List.append_nil] at onlyNew
    | cons first more =>
        cases isRest
        exact answers earlier entry more result isEntries isResult

namespace Answering

variable {done entries : List JournalEntry} {queue : List Nat}
  {logical next : Nat}

theorem handled (answering : Answering done queue logical) {frameId : Nat}
    (member : frameId ∈ queue) : frameId ∈ handledIds done :=
  answering.settled.mem_iff.mpr (List.mem_append_right _ member)

theorem still (answering : Answering done queue logical)
    (plain : ∀ entry ∈ entries, entry.frame = none ∧ entry.result = none)
    (kept : next = logical ∨ next = 0) :
    Answering (done ++ entries) queue next := by
  obtain ⟨noFrame, noResult⟩ := ids_of_plain plain
  have sameHandled : handledIds (done ++ entries) = handledIds done := by
    rw [handledIds_append, noFrame, List.append_nil]
  have sameResults : resultIds (done ++ entries) = resultIds done := by
    rw [resultIds_append, noResult, List.append_nil]
  refine ⟨?_, answering.ordered, ?_, answering.answers.append ?_⟩
  · rw [sameHandled, sameResults]
    exact answering.settled
  · rw [sameHandled]
    rcases kept with rfl | none
    · exact answering.logical
    · exact .inl none
  · intro earlier entry rest result split isResult
    have isPlain := plain entry (by rw [split]; simp)
    rw [isPlain.2] at isResult
    cases isResult

theorem took (answering : Answering done queue logical) (frame : Frame)
    (validated : ValidatedFrame)
    (newer : ∀ frameId ∈ handledIds done, frameId < frame.frameId) :
    Answering (done ++ [.accepted frame validated]) (queue ++ [frame.frameId])
      frame.frameId := by
  have isHandled : handledIds (done ++ [.accepted frame validated]) =
      handledIds done ++ [frame.frameId] := handledIds_append
  have isResults : resultIds (done ++ [.accepted frame validated]) =
      resultIds done := resultIds_append.trans (List.append_nil _)
  refine ⟨?_, ?_, .inr ⟨?_, ?_⟩, answering.answers.append ?_⟩
  · rw [isHandled, isResults, ← List.append_assoc]
    exact answering.settled.append_right _
  · refine List.pairwise_append.mpr
      ⟨answering.ordered, List.pairwise_singleton _ _, ?_⟩
    intro frameId member other isOther
    rw [List.mem_singleton.mp isOther]
    exact newer frameId (answering.handled member)
  · rw [isHandled]
    exact List.mem_append_right _ (List.mem_singleton_self _)
  · intro frameId member
    rcases List.mem_append.mp member with old | new
    · exact Nat.le_of_lt (newer frameId (answering.handled old))
    · exact Nat.le_of_eq (List.mem_singleton.mp new)
  · intro earlier entry rest result split isResult
    cases earlier with
    | nil =>
        cases split
        cases isResult
    | cons _ _ => simp at split

/-- A frame that is refused is answered at once. -/
theorem refused (answering : Answering done queue logical) (frame : Frame)
    {result : FrameResult} (pending : Option PendingPresentation)
    (same : result.frameId = frame.frameId) (declined : TurnedDown result)
    (newer : ∀ frameId ∈ handledIds done, frameId < frame.frameId) :
    Answering (done ++ [.refused frame, .sent (.frameResult result) pending])
      queue logical := by
  have isHandled : handledIds
      (done ++ [.refused frame, .sent (.frameResult result) pending]) =
        handledIds done ++ [frame.frameId] := handledIds_append
  have isResults : resultIds
      (done ++ [.refused frame, .sent (.frameResult result) pending]) =
        resultIds done ++ [frame.frameId] := by
    rw [resultIds_append, ← same]
    rfl
  refine ⟨?_, answering.ordered, ?_, answering.answers.append ?_⟩
  · rw [isHandled, isResults, List.append_assoc]
    have moved : (handledIds done ++ [frame.frameId]).Perm
        ((resultIds done ++ queue) ++ [frame.frameId]) :=
      answering.settled.append_right _
    rw [List.append_assoc] at moved
    exact moved.trans (List.perm_append_comm.append_left _)
  · rw [isHandled]
    exact answering.logical.imp_right fun known =>
      ⟨List.mem_append_left _ known.1, known.2⟩
  · intro earlier entry rest other split isResult
    cases earlier with
    | nil =>
        cases split
        cases isResult
    | cons first earlier =>
        cases earlier with
        | nil =>
            cases split
            cases isResult
            have handledNow : handledIds (done ++ [.refused frame]) =
                handledIds done ++ [frame.frameId] := handledIds_append
            have resultsNow : resultIds (done ++ [.refused frame]) =
                resultIds done := resultIds_append.trans (List.append_nil _)
            refine ⟨?_, ?_, .inl declined, .inl declined⟩
            · rw [handledNow, same]
              exact List.mem_append_right _ (List.mem_singleton_self _)
            · rw [resultsNow, same]
              intro isOld
              have member := answering.settled.mem_iff.mpr
                (List.mem_append_left queue isOld)
              exact Nat.lt_irrefl _ (newer _ member)
        | cons _ _ => simp at split

/-- The first frame of the queue is answered. -/
theorem answered {result : FrameResult}
    (answering : Answering done (result.frameId :: queue) logical)
    (pending : Option PendingPresentation)
    (distinct : (handledIds done).Nodup)
    (names : result.logicalFrameId = logical) :
    Answering (done ++ [.sent (.frameResult result) pending]) queue
      logical := by
  have isHandled : handledIds
      (done ++ [.sent (.frameResult result) pending]) = handledIds done :=
    handledIds_append.trans (List.append_nil _)
  have isResults : resultIds
      (done ++ [.sent (.frameResult result) pending]) =
        resultIds done ++ [result.frameId] := resultIds_append
  have ordered := List.pairwise_cons.mp answering.ordered
  refine ⟨?_, ordered.2, ?_, answering.answers.append ?_⟩
  · rw [isHandled, isResults, List.append_assoc]
    exact answering.settled
  · rw [isHandled]
    exact answering.logical.imp_right fun known =>
      ⟨known.1, fun frameId member =>
        known.2 frameId (List.mem_cons_of_mem _ member)⟩
  · intro earlier entry rest other split isResult
    cases earlier with
    | cons _ _ => simp at split
    | nil =>
        cases split
        cases isResult
        rw [List.append_nil]
        have apart := (answering.settled.nodup_iff.mp distinct)
        refine ⟨answering.handled List.mem_cons_self, ?_, .inr ?_, .inr ?_⟩
        · intro isOld
          exact (List.nodup_append.mp apart).2.2 _ isOld _ List.mem_cons_self rfl
        · intro frameId isHandled earlier
          rcases List.mem_append.mp (answering.settled.mem_iff.mp isHandled)
            with old | waiting
          · exact old
          · rcases List.mem_cons.mp waiting with rfl | later
            · exact absurd earlier (Nat.lt_irrefl _)
            · exact absurd earlier (Nat.lt_asymm (ordered.1 frameId later))
        · rw [names]
          exact answering.logical.imp_right fun known =>
            ⟨known.2 _ List.mem_cons_self, known.1⟩

end Answering

/-- The entries since the present surface was opened, the earliest first. -/
def chronicle (entries : List JournalEntry) : List JournalEntry :=
  (sinceOpened entries).reverse

theorem mem_of_chronicle {entries : List JournalEntry} {entry : JournalEntry}
    (member : entry ∈ chronicle entries) : entry ∈ entries := by
  have sublist := List.takeWhile_sublist
    (fun entry : JournalEntry => !entry.opens) (l := entries)
  exact sublist.subset (List.mem_reverse.mp member)

theorem sent_of_result {entry : JournalEntry} {result : FrameResult}
    (isResult : entry.result = some result) :
    ∃ pending, entry = .sent (.frameResult result) pending := by
  cases entry with
  | sent body pending =>
      cases body with
      | frameResult other =>
          cases isResult
          exact ⟨pending, rfl⟩
      | _ => cases isResult
  | _ => cases isResult

theorem chronicle_append {entries older : List JournalEntry}
    (stays : ∀ entry ∈ entries, entry.opens = false) :
    chronicle (entries.reverse ++ older) = chronicle older ++ entries := by
  unfold chronicle sinceOpened
  rw [List.takeWhile_append_of_pos, List.reverse_append, List.reverse_reverse]
  intro entry member
  rw [stays entry (List.mem_reverse.mp member)]
  rfl

theorem chronicle_opened {entry : JournalEntry} {older : List JournalEntry}
    (opens : entry.opens = true) : chronicle (entry :: older) = [] := by
  unfold chronicle sinceOpened
  rw [List.takeWhile_cons, opens]
  rfl

/-- The ids of the frames of the surface increase. -/
def Rising (entries : List JournalEntry) : Prop :=
  (handledIds entries).Pairwise (· < ·)

theorem Rising.before {entries later : List JournalEntry}
    (rising : Rising (entries ++ later)) : Rising entries := by
  unfold Rising at rising
  rw [handledIds_append] at rising
  exact (List.pairwise_append.mp rising).1

theorem Rising.newer {entries later : List JournalEntry} {frame : Frame}
    (rising : Rising (entries ++ later))
    (member : frame.frameId ∈ handledIds later) :
    ∀ frameId ∈ handledIds entries, frameId < frame.frameId := by
  unfold Rising at rising
  rw [handledIds_append] at rising
  exact fun frameId old =>
    (List.pairwise_append.mp rising).2.2 frameId old _ member

theorem AnswerMove.answering {queue left : List Nat} {logical next : Nat}
    {entries older : List JournalEntry}
    (move : AnswerMove queue logical entries left next)
    (answering : Rising (chronicle older) →
      Answering (chronicle older) queue logical)
    (rising : Rising (chronicle (entries.reverse ++ older))) :
    Answering (chronicle (entries.reverse ++ older)) left next := by
  cases move with
  | still plain kept =>
      have stays : ∀ entry ∈ entries, entry.opens = false :=
        fun entry member => (plain entry member).1
      rw [chronicle_append stays] at rising ⊢
      exact (answering rising.before).still
        (fun entry member => (plain entry member).2) kept
  | took frame validated =>
      have stays : ∀ entry ∈ [JournalEntry.accepted frame validated],
          entry.opens = false := by
        intro entry member
        rw [List.mem_singleton.mp member]
        rfl
      rw [chronicle_append stays] at rising ⊢
      exact (answering rising.before).took frame validated
        (rising.newer (List.mem_singleton_self _))
  | @refused _ _ frame result pending same declined =>
      have stays : ∀ entry ∈ [JournalEntry.refused frame,
          .sent (.frameResult result) pending], entry.opens = false := by
        intro entry member
        rcases List.mem_cons.mp member with rfl | member
        · rfl
        · rw [List.mem_singleton.mp member]
          rfl
      rw [chronicle_append stays] at rising ⊢
      exact (answering rising.before).refused frame pending same declined
        (rising.newer (List.mem_singleton_self _))
  | answered result pending names =>
      have stays : ∀ entry ∈ [JournalEntry.sent (.frameResult result) pending],
          entry.opens = false := by
        intro entry member
        rw [List.mem_singleton.mp member]
        rfl
      rw [chronicle_append stays] at rising ⊢
      exact (answering rising.before).answered pending
        (rising.before.imp Nat.ne_of_lt) names
  | opened opens =>
      rw [List.reverse_singleton, List.singleton_append,
        chronicle_opened opens]
      exact .nil

/-- Every result of a run is known from the entries of its surface before
it. -/
def EverAnswered (entries : List JournalEntry) : Prop :=
  ∀ newer entry older result, entries = newer ++ entry :: older →
    entry.result = some result → Answered (chronicle older) result

/-- The ids of the frames increased on every surface. -/
def EverRising (entries : List JournalEntry) : Prop :=
  ∀ newer older, entries = newer ++ older → Rising (chronicle older)

theorem EverRising.older {entries older : List JournalEntry}
    (rising : EverRising (entries ++ older)) : EverRising older := by
  rintro newer oldest rfl
  exact rising (entries ++ newer) oldest (List.append_assoc _ _ _).symm

/-- Entries of the same surface whose results are known from those before. -/
theorem EverAnswered.append {entries older : List JournalEntry}
    (ever : EverAnswered older)
    (stays : ∀ entry ∈ entries, entry.opens = false)
    (answers : AllAnswered (chronicle (entries.reverse ++ older))) :
    EverAnswered (entries.reverse ++ older) := by
  rw [chronicle_append stays] at answers
  intro newer entry oldest result split isResult
  rcases List.append_eq_append_iff.mp split with
    ⟨between, rfl, isOlder⟩ | ⟨between, isNewer, isOldest⟩
  · exact ever between entry oldest result isOlder isResult
  · cases between with
    | nil => exact ever [] entry oldest result isOldest.symm isResult
    | cons first between =>
        obtain ⟨rfl, rfl⟩ := List.cons.inj isOldest
        have inOrder : entries = between.reverse ++ entry :: newer.reverse := by
          have reversed := congrArg List.reverse isNewer
          rw [List.reverse_reverse] at reversed
          simpa using reversed
        have before : chronicle (between ++ older) =
            chronicle older ++ between.reverse := by
          have same := @chronicle_append between.reverse older fun other member =>
            stays other (by
              rw [inOrder]
              exact List.mem_append_left _ member)
          rwa [List.reverse_reverse] at same
        change Answered (chronicle (between ++ older)) result
        rw [before]
        apply answers _ entry newer.reverse result _ isResult
        rw [inOrder, List.append_assoc]

/-- A new surface brings no result. -/
theorem EverAnswered.opened {entry : JournalEntry} {older : List JournalEntry}
    (ever : EverAnswered older) (opens : entry.opens = true) :
    EverAnswered (entry :: older) := by
  intro newer other oldest result split isResult
  cases newer with
  | nil =>
      cases split
      obtain ⟨_, rfl⟩ := sent_of_result isResult
      cases opens
  | cons first newer =>
      cases split
      exact ever newer other oldest result rfl isResult

theorem AnswerMove.everAnswered {queue left : List Nat} {logical next : Nat}
    {entries older : List JournalEntry}
    (move : AnswerMove queue logical entries left next)
    (answering : Rising (chronicle older) →
      Answering (chronicle older) queue logical)
    (rising : Rising (chronicle (entries.reverse ++ older)))
    (ever : EverAnswered older) : EverAnswered (entries.reverse ++ older) := by
  have answers := (move.answering answering rising).answers
  cases move with
  | still plain kept =>
      exact ever.append (fun entry member => (plain entry member).1) answers
  | took _ _ | refused _ _ _ _ | answered _ _ _ =>
      refine ever.append (fun entry member => ?_) answers
      revert entry
      simp [JournalEntry.opens]
  | opened opens => exact ever.opened opens

theorem Steps.answering {before after : Station} {entries older : List JournalEntry}
    (steps : Steps before entries after) (sound : before.face.Sound)
    (isOpen : after.face.closed = false)
    (answering : Rising (chronicle older) →
      Answering (chronicle older) before.queue before.face.logicalFrameId)
    (rising : Rising (chronicle (entries.reverse ++ older))) :
    Answering (chronicle (entries.reverse ++ older)) after.queue
      after.face.logicalFrameId := by
  induction steps generalizing older with
  | nil => exact answering rising
  | cons step rest induction =>
      rw [List.reverse_append, List.append_assoc] at rising ⊢
      refine induction (step.sound sound) isOpen ?_ rising
      exact (step.answers sound (rest.stillOpen isOpen)).answering answering

/-- In every run without an error the frames of the surface are answered in
order, as long as their ids increase and the session is open. -/
theorem SessionRun.answering {setup : SessionSetup}
    {history : List SessionEvent} {final : Session}
    (run : SessionRun setup history final)
    (succeed : ∀ event ∈ history, event.Succeeds)
    (isOpen : final.closed = false)
    (rising : Rising (chronicle (entriesOf history))) :
    Answering (chronicle (entriesOf history)) (Station.queue ⟨final.face, {}⟩)
      final.face.logicalFrameId := by
  refine (run.keeps (fun history face => face.closed = false →
    Rising (chronicle (entriesOf history)) →
      Answering (chronicle (entriesOf history)) (Station.queue ⟨face, {}⟩)
        face.logicalFrameId) ?_ ?_ succeed).2 isOpen rising
  · exact fun _ _ => .nil
  · intro history event left succeeds acts answering isOpen rising
    have wasOpen := acts.steps.stillOpen isOpen
    obtain ⟨loose, isLeft, _⟩ := acts.settled succeeds
    have answered := acts.steps.answering acts.sound isOpen (answering wasOpen)
      rising
    rw [isLeft] at answered
    exact answered

theorem Steps.everAnswered {before after : Station}
    {entries older : List JournalEntry}
    (steps : Steps before entries after) (sound : before.face.Sound)
    (isOpen : after.face.closed = false)
    (answering : Rising (chronicle older) →
      Answering (chronicle older) before.queue before.face.logicalFrameId)
    (rising : EverRising (entries.reverse ++ older))
    (ever : EverAnswered older) : EverAnswered (entries.reverse ++ older) := by
  induction steps generalizing older with
  | nil => exact ever
  | @cons before middle after done entries step rest induction =>
      rw [List.reverse_append, List.append_assoc] at rising ⊢
      have move := step.answers sound (rest.stillOpen isOpen)
      exact induction (step.sound sound) isOpen (move.answering answering)
        rising (move.everAnswered answering (rising.older [] _ rfl) ever)

/-- In every run without an error every result answers a frame of its surface
that was handled before and had no result yet, as long as the ids of the frames
of every surface increase and the session is open.  A result that takes its
frame comes after those of all earlier frames of the surface, and names that
frame or a later one that was handled before. -/
theorem answeredInOrder_of_run {setup : SessionSetup}
    {history : List SessionEvent} {final : Session}
    (run : SessionRun setup history final)
    (succeed : ∀ event ∈ history, event.Succeeds)
    (isOpen : final.closed = false)
    (rising : EverRising (entriesOf history)) :
    EverAnswered (entriesOf history) := by
  refine (run.keeps (fun history face => face.closed = false →
    EverRising (entriesOf history) → EverAnswered (entriesOf history) ∧
      Answering (chronicle (entriesOf history)) (Station.queue ⟨face, {}⟩)
        face.logicalFrameId) ?_ ?_ succeed).2 isOpen rising |>.1
  · intro isOpen rising
    refine ⟨?_, .nil⟩
    intro newer entry older result split
    simp [entriesOf] at split
  · intro history event left succeeds acts answering isOpen rising
    have wasOpen := acts.steps.stillOpen isOpen
    obtain ⟨loose, isLeft, _⟩ := acts.settled succeeds
    obtain ⟨ever, known⟩ := answering wasOpen rising.older
    refine ⟨acts.steps.everAnswered acts.sound isOpen (fun _ => known) rising
      ever, ?_⟩
    have answered := acts.steps.answering acts.sound isOpen (fun _ => known)
      (rising [] _ rfl)
    rw [isLeft] at answered
    exact answered

/-- A keyframe is superseded by the next one, and that one is cancelled when
another surface is opened. -/
theorem answeredInOrder_of_superseded :
    ∃ history final,
      SessionRun (.gray 1 1 (fun _ => true) (fun _ => some {})) history final ∧
        handledIds (entriesOf history) = [2, 1] ∧
        resultIds (entriesOf history) = [2, 1] ∧
        handledIds (chronicle (entriesOf history)) = [] ∧
        EverAnswered (entriesOf history) := by
  have ran := @SessionSetup.ran (.gray 1 1 (fun _ => true) (fun _ => some {}))
    [.handleDeferred ⟨1, 5, some (grayOpen 2 [])⟩ 0,
      .handleDeferred ⟨1, 4, some (grayFrame 1 1 2 0 .settled ⟨0, 0, 1, 1⟩ [7])⟩ 0,
      .handleDeferred ⟨1, 3, some (grayFrame 1 1 1 0 .latest ⟨0, 0, 1, 1⟩ [9])⟩ 0,
      grayMessage 2 (grayOpen 1 []) 0,
      grayMessage 1 (.clientHello (grayHello [.byteCredits])) 0]
    (fun history final => allSucceed history && !final.closed &&
      (handledIds (entriesOf history) == [2, 1]) &&
      (resultIds (entriesOf history) == [2, 1]) &&
      (handledIds (chronicle (entriesOf history)) == []) &&
      (entriesOf history).tails.all fun older =>
        decide ((handledIds (chronicle older)).Pairwise (· < ·)))
    (by decide +kernel)
  obtain ⟨history, final, run, checked⟩ := ran
  simp only [Bool.and_eq_true, Bool.not_eq_true', beq_iff_eq, List.all_eq_true,
    decide_eq_true_eq] at checked
  obtain ⟨⟨⟨⟨⟨succeed, isOpen⟩, handled⟩, results⟩, opened⟩, rising⟩ := checked
  have ever : EverRising (entriesOf history) := by
    intro newer older split
    apply rising older
    exact (List.mem_tails _ _).mpr ⟨newer, split.symm⟩
  exact ⟨history, final, run, handled, results, opened,
    answeredInOrder_of_run run (succeeds_of_allSucceed succeed) isOpen ever⟩

end RmDisplay.Receiver
