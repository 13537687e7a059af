import RmDisplay.Receiver.FrameSteps
import RmDisplay.Receiver.Control

/-!
# Ids of frames

Accepted ids grow until a failure of the panel makes the ids start anew, so
that a keyframe can resume with any id.  As long as the accepted ids of a
surface grow, the presented ids a session tells never go back.
-/

namespace RmDisplay.Receiver

open Foundation Protocol RmDisplay.Core Core.DisplayCore

/-- What happened to the ids of frames. -/
inductive FrameMark where
  /-- A surface was opened or closed. -/
  | bounds
  /-- A frame was accepted, after so many failures of the panel. -/
  | accepts (failures frameId : Nat)
  /-- The presented frame was told. -/
  | presents (frameId : Nat)
deriving DecidableEq

/-- The presented frame an envelope tells; a refused update may tell none. -/
def toldFrame : Body → Option Nat
  | .frameResult result => some result.presentedFrameId
  | .inputBatch batch => some batch.presentedFrameId
  | .overlayResult result =>
      if !result.applied && result.presentedFrameId == 0 then none
      else some result.presentedFrameId
  | _ => none

def JournalEntry.mark (failures : Nat) : JournalEntry → Option FrameMark
  | .opened .. | .closed => some .bounds
  | .accepted _ validated => some (.accepts failures validated.frameId)
  | .sent body _ => (toldFrame body).map .presents
  | _ => none

/-- The failures among the first calls of a panel. -/
def failuresBefore (panel : Panel) (count : Nat) : Nat :=
  (panel.calls.drop (panel.calls.length - count)).countP (·.resets)

def JournalRecord.mark (panel : Panel) (record : JournalRecord) :
    Option FrameMark :=
  record.entry.mark (failuresBefore panel record.calls)

/-- The presented frame of a snapshot of the ink. -/
def snapshotMark (session : Session) : Option FrameMark :=
  match session.inkSnapshot with
  | .ok snapshot => some (.presents snapshot.presentedFrameId)
  | .error _ | .panic => none

/-- The records an event added to the journal, the latest first. -/
def SessionEvent.records (event : SessionEvent) : List JournalRecord :=
  event.after.journal.take
    (event.after.journal.length - event.before.journal.length)

/-- What an event did to the ids, and the snapshot that can be taken after it;
the latest first. -/
def SessionEvent.marks (event : SessionEvent) : List FrameMark :=
  (snapshotMark event.after).toList ++
    event.records.filterMap (·.mark event.after.panel)

def timeline (history : List SessionEvent) : List FrameMark :=
  history.flatMap SessionEvent.marks

/-- The frames accepted on the present surface, each with the failures before
it; the latest first. -/
def acceptedIds : List FrameMark → List (Nat × Nat)
  | [] | .bounds :: _ => []
  | .accepts failures frameId :: older =>
      (failures, frameId) :: acceptedIds older
  | .presents _ :: older => acceptedIds older

/-- The presented frames told since the surface was opened. -/
def presentedIds : List FrameMark → List Nat
  | [] | .bounds :: _ => []
  | .accepts _ _ :: older => presentedIds older
  | .presents frameId :: older => frameId :: presentedIds older

/-- The accepted ids grow in spite of failures. -/
def Increasing (marks : List FrameMark) : Prop :=
  (acceptedIds marks).Pairwise fun later earlier => earlier.2 < later.2

instance (marks : List FrameMark) : Decidable (Increasing marks) :=
  inferInstanceAs (Decidable (List.Pairwise _ _))

/-- The presented ids that were told do not go back. -/
def Advancing (marks : List FrameMark) : Prop :=
  (presentedIds marks).Pairwise fun later earlier => earlier ≤ later

instance (marks : List FrameMark) : Decidable (Advancing marks) :=
  inferInstanceAs (Decidable (List.Pairwise _ _))

/-- Ids grow between failures, and the presented ids advance while the accepted
ones grow. -/
structure Ordered (marks : List FrameMark) : Prop where
  accepted : (acceptedIds marks).Pairwise fun later earlier =>
    later.1 = earlier.1 → earlier.2 < later.2
  presented : Increasing marks → Advancing marks

/-- What holds of the frames of a session and of the timeline before. -/
structure IdsKept (view : Option FrameView) (failures : Nat)
    (marks : List FrameMark) : Prop where
  ordered : ∀ older, older <:+ marks → Ordered older
  past : ∀ id ∈ acceptedIds marks, id.1 ≤ failures
  latest : ∀ shown, view = some shown → ∀ id ∈ acceptedIds marks,
    id.1 = failures → id.2 ≤ shown.state.logicalFrameId
  shown : ∀ shown, view = some shown → shown.state.presentedFrameId = 0 ∨
    ∃ id ∈ acceptedIds marks, shown.state.presentedFrameId = id.2
  pending : ∀ shown, view = some shown →
    ∀ pending ∈ shown.state.pending,
      (∃ id ∈ acceptedIds marks, pending.frameId = id.2) ∧
      (Increasing marks → shown.state.presentedFrameId ≤ pending.frameId)
  told : Increasing marks →
    ∀ frameId ∈ presentedIds marks, frameId ≤ FrameView.presentedFrameId view

namespace IdsKept

variable {view next : Option FrameView} {failures : Nat}
  {marks : List FrameMark} {shown : FrameView}

theorem ordered_cons {mark : FrameMark} (kept : IdsKept view failures marks)
    (ordered : Ordered (mark :: marks)) :
    ∀ older, older <:+ mark :: marks → Ordered older := by
  intro older suffix
  rcases List.suffix_cons_iff.mp suffix with rfl | shorter
  · exact ordered
  · exact kept.ordered older shorter

theorem bounded (kept : IdsKept view failures marks)
    (blank : ∀ fresh, next = some fresh →
      fresh.state.presentedFrameId = 0 ∧ fresh.state.pending = none) :
    IdsKept next failures (.bounds :: marks) := by
  constructor
  · exact kept.ordered_cons ⟨.nil, fun _ => .nil⟩
  · exact List.forall_mem_nil _
  · intro _ _
    exact List.forall_mem_nil _
  · intro fresh isFresh
    exact .inl (blank fresh isFresh).1
  · intro fresh isFresh pending isPending
    rw [(blank fresh isFresh).2] at isPending
    cases isPending
  · intro _
    exact List.forall_mem_nil _

theorem presents (kept : IdsKept view failures marks) :
    IdsKept view failures
      (.presents (FrameView.presentedFrameId view) :: marks) := by
  constructor
  · apply kept.ordered_cons
    have before := kept.ordered marks List.suffix_rfl
    refine ⟨before.accepted, fun increasing => ?_⟩
    exact .cons (kept.told increasing) (before.presented increasing)
  · exact kept.past
  · exact kept.latest
  · exact kept.shown
  · exact kept.pending
  · intro increasing
    exact List.forall_mem_cons.mpr ⟨le_rfl, kept.told increasing⟩

/-- A frame is accepted. -/
theorem accepts (kept : IdsKept view failures marks) {frame : Frame}
    {validated : ValidatedFrame} {base : PixelSurface}
    {pending : PendingPresentation} (isShown : view = some shown)
    (accepts : shown.Accepts frame validated base)
    (isPending : pending.frameId = validated.frameId) :
    IdsKept
      (some { shown with
        state := { shown.state with
          base
          baseValid := true
          logicalFrameId := validated.frameId
          pending := some pending } })
      failures (.accepts failures validated.frameId :: marks) := by
  have newer : ∀ id ∈ acceptedIds marks, id.1 = failures →
      id.2 < validated.frameId := by
    intro id member same
    exact (kept.latest shown isShown id member same).trans_lt accepts.newer
  have unchanged (increasing :
      Increasing (.accepts failures validated.frameId :: marks)) :
      Increasing marks := (List.pairwise_cons.mp increasing).2
  have isPresented : FrameView.presentedFrameId view =
      shown.state.presentedFrameId := by
    rw [isShown]
    rfl
  constructor
  · apply kept.ordered_cons
    have before := kept.ordered marks List.suffix_rfl
    refine ⟨.cons (fun id member same => newer id member same.symm)
      before.accepted, fun increasing => ?_⟩
    exact before.presented (unchanged increasing)
  · exact List.forall_mem_cons.mpr ⟨le_rfl, kept.past⟩
  · rintro _ ⟨⟩
    refine List.forall_mem_cons.mpr ⟨fun _ => le_rfl, ?_⟩
    intro id member same
    exact (newer id member same).le
  · rintro _ ⟨⟩
    rcases kept.shown shown isShown with blank | ⟨id, member, same⟩
    · exact .inl blank
    · exact .inr ⟨id, List.mem_cons_of_mem _ member, same⟩
  · rintro _ ⟨⟩ _ ⟨⟩
    refine ⟨⟨_, List.mem_cons_self, isPending⟩, fun increasing => ?_⟩
    rw [isPending]
    rcases kept.shown shown isShown with blank | ⟨id, member, same⟩
    · exact blank ▸ Nat.zero_le _
    · have below := (List.pairwise_cons.mp increasing).1 id member
      exact same ▸ below.le
  · intro increasing frameId member
    have below := kept.told (unchanged increasing) frameId member
    rw [isPresented] at below
    exact below

theorem forward (kept : IdsKept view failures marks) {failed : Bool}
    {state : FrameState} (isShown : view = some shown)
    (changes : FrameChange failed shown.state state)
    (increasing : Increasing marks) :
    shown.state.presentedFrameId ≤ state.presentedFrameId := by
  cases changes with
  | kept | dropped | failed => exact le_rfl
  | presented isPending =>
      exact (kept.pending shown isShown _ isPending).2 increasing

theorem change (kept : IdsKept view failures marks) {made : List PanelCall}
    {state : FrameState} (isShown : view = some shown)
    (changes : FrameChange (made.any (·.resets)) shown.state state) :
    IdsKept (some { shown with state })
      (failures + made.countP (·.resets)) marks := by
  constructor
  · exact kept.ordered
  · intro id member
    exact (kept.past id member).trans (Nat.le_add_right _ _)
  · rintro _ ⟨⟩ id member same
    have past := kept.past id member
    have noFailure : made.any (·.resets) = false := by
      by_contra failed
      obtain ⟨call, isCall, resets⟩ :=
        List.any_eq_true.mp (Bool.not_eq_false _ ▸ failed)
      have some : 0 < made.countP (·.resets) :=
        List.countP_pos_iff.mpr ⟨call, isCall, resets⟩
      omega
    rw [noFailure] at changes
    have unchanged : state.logicalFrameId = shown.state.logicalFrameId := by
      cases changes with
      | kept | dropped | presented _ => rfl
    rw [unchanged]
    exact kept.latest shown isShown id member (by omega)
  · rintro _ ⟨⟩
    generalize made.any (·.resets) = failed at changes
    cases changes with
    | kept | dropped | failed => exact kept.shown shown isShown
    | presented isPending =>
        exact .inr (kept.pending shown isShown _ isPending).1
  · rintro _ ⟨⟩ pending isPending
    generalize made.any (·.resets) = failed at changes
    cases changes with
    | kept => exact kept.pending shown isShown pending isPending
    | dropped | failed | presented _ => cases isPending
  · intro increasing frameId member
    have below := kept.told increasing frameId member
    rw [isShown] at below
    exact below.trans (kept.forward isShown changes increasing)

theorem later (kept : IdsKept view failures marks) (more : Nat) :
    IdsKept view (failures + more) marks where
  ordered := kept.ordered
  past := fun id member => (kept.past id member).trans (Nat.le_add_right _ _)
  latest := fun shown isShown id member same => by
    have past := kept.past id member
    exact kept.latest shown isShown id member (by omega)
  shown := kept.shown
  pending := kept.pending
  told := kept.told

theorem still (kept : IdsKept view failures marks) {fresh : FrameView}
    (isShown : view = some shown)
    (logical : fresh.state.logicalFrameId = shown.state.logicalFrameId)
    (presented : fresh.state.presentedFrameId = shown.state.presentedFrameId)
    (pending : fresh.state.pending = none ∨
      fresh.state.pending = shown.state.pending) :
    IdsKept (some fresh) failures marks := by
  constructor
  · exact kept.ordered
  · exact kept.past
  · rintro _ ⟨⟩
    rw [logical]
    exact kept.latest shown isShown
  · rintro _ ⟨⟩
    rw [presented]
    exact kept.shown shown isShown
  · rintro _ ⟨⟩ waiting isWaiting
    rcases pending with none | same
    · rw [none] at isWaiting
      cases isWaiting
    · rw [same] at isWaiting
      rw [presented]
      exact kept.pending shown isShown waiting isWaiting
  · intro increasing frameId member
    have below := kept.told increasing frameId member
    rw [isShown] at below
    exact below.trans_eq presented.symm

theorem toldFrame_of_reports {body : Body}
    (reports : FrameView.Reports view body) :
    toldFrame body = none ∨
      toldFrame body = some (FrameView.presentedFrameId view) := by
  cases body with
  | frameResult result => exact .inr (congrArg some reports)
  | inputBatch batch => exact .inr (congrArg some reports.presented)
  | overlayResult result =>
      rcases reports with names | ⟨refused, none, _⟩
      · rw [toldFrame, names.presented]
        split
        · exact .inl rfl
        · exact .inr rfl
      · left
        simp [toldFrame, refused, none]
  | _ => exact .inl rfl

theorem quiet (kept : IdsKept view failures marks)
    {entries : List JournalEntry}
    (plain : ∀ entry ∈ entries, FrameView.Quiet view entry) :
    IdsKept view failures (entries.filterMap (·.mark failures) ++ marks) := by
  induction entries with
  | nil => exact kept
  | cons entry entries induction =>
      obtain ⟨isQuiet, others⟩ := List.forall_mem_cons.mp plain
      have before := induction others
      have marked : entry.mark failures = none ∨ entry.mark failures =
          some (.presents (FrameView.presentedFrameId view)) := by
        cases entry with
        | opened _ _ _ _ | closed | accepted _ _ => exact isQuiet.elim
        | sent body pending =>
            rcases toldFrame_of_reports isQuiet with untold | told
            · exact .inl (by rw [JournalEntry.mark, untold]; rfl)
            · exact .inr (by rw [JournalEntry.mark, told]; rfl)
        | _ => exact .inl rfl
      rcases marked with unmarked | told
      · rw [List.filterMap_cons_none unmarked]
        exact before
      · rw [List.filterMap_cons_some told]
        exact before.presents

end IdsKept

theorem FaceMove.idsKept {view next : Option FrameView} {failures : Nat}
    {marks : List FrameMark} {entries : List JournalEntry}
    {made : List PanelCall} (moves : FaceMove view entries made next)
    (kept : IdsKept view failures marks) :
    IdsKept next (failures + made.countP (·.resets))
      (entries.reverse.filterMap (·.mark failures) ++ marks) := by
  cases moves with
  | quiet _ plain =>
      refine (kept.quiet fun entry member => ?_).later _
      exact plain entry (List.mem_reverse.mp member)
  | core isShown changes => exact kept.change isShown changes
  | froze isShown _ _ => exact kept.still isShown rfl rfl (.inl rfl)
  | released isShown _ => exact kept.still isShown rfl rfl (.inr rfl)
  | accepted isShown accepts isPending =>
      exact kept.accepts isShown accepts isPending
  | opened _ _ _ _ _ blank =>
      refine kept.bounded ?_
      rintro _ ⟨⟩
      exact ⟨blank.2.2.1, blank.2.2.2⟩
  | closed =>
      refine kept.bounded ?_
      rintro _ ⟨⟩

theorem FaceStep.records {before after : Station} {entries : List JournalEntry}
    (step : FaceStep before entries after) :
    after.face.journal =
      entries.reverse.map (JournalRecord.mk before.face.panel.calls.length) ++
        before.face.journal := by
  cases step with
  | @inked _ _ _ entry _ _ _ => cases entry <;> rfl
  | _ => rfl

/-- How often the panel failed so far. -/
def Face.failures (self : Face) : Nat := self.panel.calls.countP (·.resets)

theorem failuresBefore_append {panel later : Panel} {made : List PanelCall}
    (calls : later.calls = made ++ panel.calls) :
    failuresBefore later panel.calls.length =
      panel.calls.countP (·.resets) := by
  unfold failuresBefore
  rw [calls, List.length_append, Nat.add_sub_cancel, List.drop_left]

theorem Steps.idsKept {before after : Station} {entries : List JournalEntry}
    (steps : Steps before entries after) {marks : List FrameMark}
    (kept : IdsKept before.face.frameView before.face.failures marks) :
    ∃ records made, after.face.journal = records ++ before.face.journal ∧
      after.face.panel.calls = made ++ before.face.panel.calls ∧
      IdsKept after.face.frameView after.face.failures
        (records.filterMap (·.mark after.face.panel) ++ marks) := by
  induction steps generalizing marks with
  | nil => exact ⟨[], [], rfl, rfl, kept⟩
  | @cons before middle after entries more step _ induction =>
      obtain ⟨made, calls, moves⟩ := step.frames
      have moved := moves.idsKept kept
      have failures : middle.face.failures =
          before.face.failures + made.countP (·.resets) := by
        unfold Face.failures
        rw [calls, List.countP_append, Nat.add_comm]
      rw [← failures] at moved
      obtain ⟨records, later, journal, laterCalls, holds⟩ := induction moved
      refine ⟨records ++ entries.reverse.map
        (JournalRecord.mk before.face.panel.calls.length), later ++ made,
        ?_, ?_, ?_⟩
      · rw [journal, step.records, List.append_assoc]
      · rw [laterCalls, calls, List.append_assoc]
      · have sameMarks : (entries.reverse.map (JournalRecord.mk
            before.face.panel.calls.length)).filterMap
              (·.mark after.face.panel) =
            entries.reverse.filterMap (·.mark before.face.failures) := by
          have allCalls : after.face.panel.calls =
              (later ++ made) ++ before.face.panel.calls := by
            rw [laterCalls, calls, List.append_assoc]
          rw [List.filterMap_map]
          unfold JournalRecord.mark Face.failures
          rw [← failuresBefore_append allCalls]
          rfl
        rw [List.filterMap_append, sameMarks, List.append_assoc]
        exact holds

theorem snapshotMark_eq (session : Session) :
    snapshotMark session = none ∨ snapshotMark session =
      some (.presents (FrameView.presentedFrameId session.face.frameView)) := by
  unfold snapshotMark
  split
  · rename_i snapshot given
    right
    unfold Session.inkSnapshot at given
    split at given
    · cases given
    · rename_i surface active
      obtain ⟨bitmap, _, stored⟩ := Res.bind_eq_ok.mp given
      cases stored
      rw [frameView_face, active]
      rfl
  · exact .inl rfl
  · exact .inl rfl

theorem SessionRun.idsKept {setup : SessionSetup}
    {history : List SessionEvent} {final : Session}
    (run : SessionRun setup history final) :
    IdsKept final.face.frameView final.face.failures (timeline history) := by
  refine (run.keeps (fun history face =>
    IdsKept face.frameView face.failures (timeline history)) ?_ ?_
    fun _ _ => True.intro).2
  · constructor
    · rintro older suffix
      rw [List.suffix_nil.mp suffix]
      exact ⟨.nil, fun _ => .nil⟩
    · exact List.forall_mem_nil _
    · rintro _ ⟨⟩
    · rintro _ ⟨⟩
    · rintro _ ⟨⟩
    · intro _
      exact List.forall_mem_nil _
  · intro history event left _ acts kept
    obtain ⟨records, _, journal, _, holds⟩ := acts.steps.idsKept kept
    have isRecords : event.records = records := by
      have grows : event.after.journal = records ++ event.before.journal :=
        journal
      unfold SessionEvent.records
      rw [grows, List.length_append, Nat.add_sub_cancel, List.take_left']
      rfl
    change IdsKept _ _ (event.marks ++ timeline history)
    unfold SessionEvent.marks
    rw [isRecords, List.append_assoc]
    rcases snapshotMark_eq event.after with missing | told
    · rw [missing]
      exact holds
    · rw [told]
      exact holds.presents

/-- In every session, between two failures of the panel the ids of accepted
frames grow, and the presented ids advance as long as the accepted ones grow. -/
theorem frameIds_of_run {setup : SessionSetup} {history : List SessionEvent}
    {final : Session} (run : SessionRun setup history final)
    {newer older : List FrameMark} (split : timeline history = newer ++ older) :
    Ordered older :=
  run.idsKept.ordered older ⟨newer, split.symm⟩

/-- Two frames, with the ids that were told after them. -/
theorem frameIds_of_delta :
    ∃ setup history final, SessionRun setup history final ∧
      acceptedIds (timeline history) = [(0, 2), (0, 1)] ∧
      Advancing (timeline history) := by
  have ran := @SessionSetup.ran (.gray 1 1 (fun _ => true)
      fun _ => some ⟨0, 0, 2⟩)
    [grayMessage 4 (grayFrame 1 1 2 1 .settled ⟨0, 0, 1, 1⟩ [7]) (.ofSecs 3),
      grayMessage 3 (grayFrame 1 1 1 0 .settled ⟨0, 0, 1, 1⟩ [9]) (.ofSecs 2),
      grayMessage 2 (grayOpen 1 []) (.ofSecs 1),
      grayMessage 1 (.clientHello (grayHello [.byteCredits])) 1]
    (fun history _ =>
      decide (acceptedIds (timeline history) = [(0, 2), (0, 1)]))
    (by decide +kernel)
  obtain ⟨history, final, run, checked⟩ := ran
  have accepted := of_decide_eq_true checked
  have ordered : Ordered (timeline history) :=
    @frameIds_of_run _ _ _ run [] _ rfl
  refine ⟨_, history, final, run, accepted, ordered.presented ?_⟩
  unfold Increasing
  rw [accepted]
  decide

/-- After a failure of the panel a keyframe resumes with id 1, and the
presented id goes back from 5 to 1. -/
theorem frameIds_of_failure :
    ∃ setup history final, SessionRun setup history final ∧
      acceptedIds (timeline history) = [(1, 1), (0, 6), (0, 5)] ∧
      ¬ Increasing (timeline history) ∧ ¬ Advancing (timeline history) := by
  have ran := @SessionSetup.ran (.gray 1 1 (fun _ => true)
      fun calls => if calls = 3 then none else some ⟨0, 0, 2⟩)
    [grayMessage 5 (grayFrame 1 1 1 0 .settled ⟨0, 0, 1, 1⟩ [8]) (.ofSecs 4),
      grayMessage 4 (grayFrame 1 1 6 5 .settled ⟨0, 0, 1, 1⟩ [7]) (.ofSecs 3),
      grayMessage 3 (grayFrame 1 1 5 0 .settled ⟨0, 0, 1, 1⟩ [9]) (.ofSecs 2),
      grayMessage 2 (grayOpen 1 []) (.ofSecs 1),
      grayMessage 1 (.clientHello (grayHello [.byteCredits])) 1]
    (fun history _ =>
      decide (acceptedIds (timeline history) = [(1, 1), (0, 6), (0, 5)] ∧
        ¬ Advancing (timeline history)))
    (by decide +kernel)
  obtain ⟨history, final, run, checked⟩ := ran
  obtain ⟨accepted, notAdvancing⟩ := of_decide_eq_true checked
  refine ⟨_, history, final, run, accepted, ?_, notAdvancing⟩
  unfold Increasing
  rw [accepted]
  decide

end RmDisplay.Receiver
