import RmDisplay.Core.CleanRefreshes
import RmDisplay.Receiver.FrameIds
import RmDisplay.Receiver.OverlayUpdates

/-!
# Pending cleanups

A session keeps the fact that a cleanup is pending in the core of its surface,
and for itself while there is none.  Both copies say the same as the journal
and the calls of the panel: a cleanup was asked for after the last complete
refresh.
-/

namespace RmDisplay.Receiver

open Foundation Protocol RmDisplay.Core Core.DisplayCore

/-- A cleanup was asked for. -/
def JournalEntry.asks : JournalEntry → Bool
  | .asked _ => true
  | _ => false

/-- A surface was opened. -/
def JournalEntry.opens : JournalEntry → Bool
  | .opened .. => true
  | _ => false

/-- The menu chose a profile while no surface was active, or a surface was
opened with a cleanup that was not pending any more. -/
def JournalEntry.drifts : JournalEntry → Bool
  | .asked .offscreen => true
  | .opened _ _ _ stale => stale
  | _ => false

/-- What an envelope tells about a pending cleanup. -/
def toldCleanup : Body → Option Bool
  | .epaperProfileResult result => some result.cleanupPending
  | .epaperRefreshResult result => result.active.map (·.cleanupPending)
  | _ => none

def JournalEntry.toldCleanup : JournalEntry → Option Bool
  | .sent body _ => Receiver.toldCleanup body
  | _ => none

/-- A cleanup was asked for after the last complete refresh among the calls,
and before the calls after them. -/
def demanded (journal : List JournalRecord) (calls : List PanelCall) : Bool :=
  journal.any fun record => record.entry.asks &&
    decide (lastClean calls ≤ record.calls ∧ record.calls ≤ calls.length)

/-- The first calls of a panel. -/
def callsAt (calls : List PanelCall) (count : Nat) : List PanelCall :=
  calls.drop (calls.length - count)

theorem callsAt_append {made calls : List PanelCall} {count : Nat}
    (early : count ≤ calls.length) :
    callsAt (made ++ calls) count = callsAt calls count := by
  unfold callsAt
  rw [List.length_append, Nat.add_sub_assoc early, List.drop_append,
    List.drop_of_length_le (Nat.le_add_right _ _), List.nil_append,
    Nat.add_sub_cancel_left]

@[simp] theorem callsAt_length (calls : List PanelCall) :
    callsAt calls calls.length = calls := by
  simp [callsAt]

theorem length_callsAt {calls : List PanelCall} {count : Nat}
    (early : count ≤ calls.length) : (callsAt calls count).length = count := by
  rw [callsAt, List.length_drop]
  omega

/-- The records were made at most so far. -/
def Bounded (journal : List JournalRecord) (calls : List PanelCall) : Prop :=
  ∀ record ∈ journal, record.calls ≤ calls.length

theorem demanded_iff {journal : List JournalRecord} {calls : List PanelCall} :
    demanded journal calls = true ↔ ∃ record ∈ journal,
      record.entry.asks = true ∧ lastClean calls ≤ record.calls ∧
        record.calls ≤ calls.length := by
  simp [demanded]

theorem demanded_quiet {record : JournalRecord}
    (quiet : record.entry.asks = false) (journal : List JournalRecord)
    (calls : List PanelCall) :
    demanded (record :: journal) calls = demanded journal calls := by
  simp [demanded, quiet]

theorem demanded_append {fresh : List JournalRecord}
    (quiet : ∀ record ∈ fresh, record.entry.asks = false)
    (journal : List JournalRecord) (calls : List PanelCall) :
    demanded (fresh ++ journal) calls = demanded journal calls := by
  induction fresh with
  | nil => rfl
  | cons record fresh induction =>
      obtain ⟨isQuiet, others⟩ := List.forall_mem_cons.mp quiet
      rw [List.cons_append, demanded_quiet isQuiet, induction others]

theorem demanded_asked {record : JournalRecord} {calls : List PanelCall}
    (asks : record.entry.asks = true) (now : record.calls = calls.length)
    (journal : List JournalRecord) :
    demanded (record :: journal) calls = true :=
  demanded_iff.mpr ⟨record, List.mem_cons_self, asks,
    now ▸ lastClean_le calls, now.le⟩

theorem demanded_late {fresh : List JournalRecord} {calls : List PanelCall}
    (late : ∀ record ∈ fresh, calls.length < record.calls)
    (journal : List JournalRecord) :
    demanded (fresh ++ journal) calls = demanded journal calls := by
  rw [Bool.eq_iff_iff, demanded_iff, demanded_iff]
  constructor
  · rintro ⟨record, member, asks, after, before⟩
    rcases List.mem_append.mp member with isFresh | isOld
    · exact absurd before (Nat.not_le_of_lt (late record isFresh))
    · exact ⟨record, isOld, asks, after, before⟩
  · rintro ⟨record, member, rest⟩
    exact ⟨record, List.mem_append_right _ member, rest⟩

theorem demanded_calls {journal : List JournalRecord}
    {made calls : List PanelCall} (bounded : Bounded journal calls) :
    demanded journal (made ++ calls) =
      (decide (lastClean (made ++ calls) = lastClean calls) &&
        demanded journal calls) := by
  rw [Bool.eq_iff_iff, Bool.and_eq_true, decide_eq_true_iff, demanded_iff,
    demanded_iff]
  constructor
  · rintro ⟨record, member, asks, after, _⟩
    have early := bounded record member
    rcases lastClean_append made calls with same | later
    · exact ⟨same, record, member, asks, same ▸ after, early⟩
    · omega
  · rintro ⟨same, record, member, asks, after, early⟩
    refine ⟨record, member, asks, same.symm ▸ after, ?_⟩
    rw [List.length_append]
    omega

theorem demanded_still {journal : List JournalRecord}
    {made calls : List PanelCall} (bounded : Bounded journal calls)
    (same : lastClean (made ++ calls) = lastClean calls) :
    demanded journal (made ++ calls) = demanded journal calls := by
  rw [demanded_calls bounded, decide_eq_true same, Bool.true_and]

theorem cleaned_since {older journal : List JournalRecord}
    {calls : List PanelCall} {count : Nat}
    (old : ∀ record ∈ older, record ∈ journal)
    (bounded : Bounded journal calls) (early : count ≤ calls.length)
    (before : demanded older (callsAt calls count) = true)
    (now : demanded journal calls = false) : count < lastClean calls := by
  obtain ⟨record, member, asks, after, _⟩ := demanded_iff.mp before
  have isMember := old record member
  have split : calls = calls.take (calls.length - count) ++
      callsAt calls count := (List.take_append_drop _ _).symm
  have length := length_callsAt early
  rcases lastClean_append (calls.take (calls.length - count))
      (callsAt calls count) with same | later
  · rw [← split] at same
    have still : demanded journal calls = true := demanded_iff.mpr
      ⟨record, isMember, asks, same.symm ▸ after, bounded record isMember⟩
    rw [now] at still
    cases still
  · rw [← split, length] at later
    exact later

/-- Every record tells whether a cleanup was demanded when it was made. -/
def AllTold (calls : List PanelCall) : List JournalRecord → Prop
  | [] => True
  | record :: older =>
      (∀ pending, record.entry.toldCleanup = some pending →
        pending = demanded older (callsAt calls record.calls)) ∧
      AllTold calls older

theorem AllTold.of_split {calls : List PanelCall}
    {journal newer older : List JournalRecord} {record : JournalRecord}
    (told : AllTold calls journal) (split : journal = newer ++ record :: older)
    {pending : Bool} (tells : record.entry.toldCleanup = some pending) :
    pending = demanded older (callsAt calls record.calls) := by
  induction newer generalizing journal with
  | nil =>
      subst split
      exact told.1 pending tells
  | cons _ newer induction =>
      subst split
      exact induction told.2 rfl

theorem AllTold.later {made calls : List PanelCall}
    {journal : List JournalRecord} (told : AllTold calls journal)
    (bounded : Bounded journal calls) : AllTold (made ++ calls) journal := by
  induction journal with
  | nil => trivial
  | cons record older induction =>
      obtain ⟨early, others⟩ := List.forall_mem_cons.mp bounded
      refine ⟨fun pending tells => ?_, induction told.2 others⟩
      rw [callsAt_append early]
      exact told.1 pending tells

/-- Every frame that was submitted while a cleanup was demanded is a complete
refresh. -/
def AllComplete (journal : List JournalRecord) : List PanelCall → Prop
  | [] => True
  | call :: older =>
      (∀ submission, call = .submit submission → submission.IsFrame →
        demanded journal older = true →
        submission.decision.completeRefresh = true) ∧
      AllComplete journal older

theorem AllComplete.of_split {journal : List JournalRecord}
    {calls newer older : List PanelCall} {submission : Submission}
    (complete : AllComplete journal calls)
    (split : calls = newer ++ .submit submission :: older)
    (isFrame : submission.IsFrame) (demands : demanded journal older = true) :
    submission.decision.completeRefresh = true := by
  induction newer generalizing calls with
  | nil =>
      subst split
      exact complete.1 submission rfl isFrame demands
  | cons _ newer induction =>
      subst split
      exact induction complete.2 rfl

theorem AllComplete.later {fresh journal : List JournalRecord}
    {calls : List PanelCall} (complete : AllComplete journal calls)
    (late : ∀ record ∈ fresh, calls.length ≤ record.calls) :
    AllComplete (fresh ++ journal) calls := by
  induction calls with
  | nil => trivial
  | cons call older induction =>
      have later : ∀ record ∈ fresh, older.length < record.calls :=
        fun record member => late record member
      refine ⟨?_, induction complete.2 fun record member =>
        (later record member).le⟩
      intro submission isCall isFrame demands
      rw [demanded_late later] at demands
      exact complete.1 submission isCall isFrame demands

theorem AllComplete.pumps {journal : List JournalRecord}
    {pumps calls : List PanelCall} (complete : AllComplete journal calls)
    (allPumps : ∀ call ∈ pumps, call.IsPump) :
    AllComplete journal (pumps ++ calls) := by
  induction pumps with
  | nil => exact complete
  | cons call pumps induction =>
      obtain ⟨⟨accepted, rfl⟩, others⟩ := List.forall_mem_cons.mp allPumps
      exact ⟨nofun, induction others⟩

/-- The surface opened last, and what was written before. -/
def lastOpening : List JournalRecord →
    Option (JournalRecord × List JournalRecord)
  | [] => none
  | record :: older =>
      if record.entry.opens then some (record, older) else lastOpening older

theorem mem_lastOpening {journal older : List JournalRecord}
    {opening : JournalRecord}
    (last : lastOpening journal = some (opening, older)) :
    opening ∈ journal ∧ ∀ record ∈ older, record ∈ journal := by
  induction journal with
  | nil => cases last
  | cons record rest induction =>
      unfold lastOpening at last
      split at last
      · cases last
        exact ⟨List.mem_cons_self, fun _ => List.mem_cons_of_mem _⟩
      · obtain ⟨member, others⟩ := induction last
        exact ⟨List.mem_cons_of_mem _ member,
          fun other isOther => List.mem_cons_of_mem _ (others other isOther)⟩

theorem lastOpening_append {fresh : List JournalRecord}
    (quiet : ∀ record ∈ fresh, record.entry.opens = false)
    (journal : List JournalRecord) :
    lastOpening (fresh ++ journal) = lastOpening journal := by
  induction fresh with
  | nil => rfl
  | cons record fresh induction =>
      obtain ⟨isQuiet, others⟩ := List.forall_mem_cons.mp quiet
      rw [List.cons_append, lastOpening, isQuiet, induction others]
      rfl

/-- What is known about a pending cleanup, its reports, and the frames that
are submitted meanwhile. -/
structure PendsFor (pending : Bool) (presentedFrameId : Nat)
    (journal : List JournalRecord) (calls : List PanelCall) : Prop where
  bounded : Bounded journal calls
  pending : pending = demanded journal calls
  told : AllTold calls journal
  complete : AllComplete journal calls
  /-- No frame is presented on a new surface before the cleanup was done. -/
  first : ∀ opening older, lastOpening journal = some (opening, older) →
    demanded older (callsAt calls opening.calls) = true →
    presentedFrameId ≠ 0 → opening.calls < lastClean calls

namespace PendsFor

variable {pending next : Bool} {presented presentedNext : Nat}
  {journal : List JournalRecord} {calls : List PanelCall}

/-- Records without a demand that tell the truth, and no calls. -/
theorem quiet (pends : PendsFor pending presented journal calls)
    {entries : List JournalEntry}
    (plain : ∀ entry ∈ entries, entry.asks = false ∧ entry.opens = false ∧
      ∀ told, entry.toldCleanup = some told → told = pending)
    (frame : presentedNext = presented ∨ presentedNext = 0) :
    PendsFor pending presentedNext
      (entries.map (JournalRecord.mk calls.length) ++ journal) calls := by
  have quiets : ∀ record ∈ entries.map (JournalRecord.mk calls.length),
      record.entry.asks = false ∧ record.entry.opens = false := by
    intro record member
    obtain ⟨entry, isEntry, rfl⟩ := List.mem_map.mp member
    exact ⟨(plain entry isEntry).1, (plain entry isEntry).2.1⟩
  refine ⟨?_, ?_, ?_, ?_, ?_⟩
  · intro record member
    rcases List.mem_append.mp member with isFresh | isOld
    · obtain ⟨entry, _, rfl⟩ := List.mem_map.mp isFresh
      exact Nat.le_refl _
    · exact pends.bounded record isOld
  · rw [demanded_append fun record member => (quiets record member).1]
    exact pends.pending
  · clear quiets
    induction entries with
    | nil => exact pends.told
    | cons entry entries induction =>
        obtain ⟨⟨_, _, truthful⟩, others⟩ := List.forall_mem_cons.mp plain
        refine ⟨fun told tells => ?_, induction others⟩
        change told = demanded (entries.map _ ++ journal)
          (callsAt calls calls.length)
        rw [callsAt_length, demanded_append, truthful told tells]
        · exact pends.pending
        · intro record member
          obtain ⟨other, isOther, rfl⟩ := List.mem_map.mp member
          exact (others other isOther).1
  · apply pends.complete.later
    intro record member
    obtain ⟨entry, _, rfl⟩ := List.mem_map.mp member
    exact Nat.le_refl _
  · rw [lastOpening_append fun record member => (quiets record member).2]
    intro opening older last demands shown
    rcases frame with same | blank
    · exact pends.first opening older last demands (same ▸ shown)
    · exact absurd blank shown

theorem asked (pends : PendsFor pending presented journal calls)
    (cause : CleanupCause) (frame : presentedNext = presented) :
    PendsFor true presentedNext (⟨calls.length, .asked cause⟩ :: journal)
      calls := by
  subst frame
  refine ⟨List.forall_mem_cons.mpr ⟨Nat.le_refl _, pends.bounded⟩, ?_,
    ⟨nofun, pends.told⟩, ?_, pends.first⟩
  · exact (demanded_asked rfl rfl journal).symm
  · exact @AllComplete.later [_] _ _ pends.complete fun record member => by
      rw [List.mem_singleton.mp member]

theorem opened (pends : PendsFor pending presented journal calls)
    (surfaceId generation : Nat) (ink : Planes) (stale : Bool) :
    PendsFor pending 0
      (⟨calls.length, .opened surfaceId generation ink stale⟩ :: journal)
      calls := by
  refine ⟨List.forall_mem_cons.mpr ⟨Nat.le_refl _, pends.bounded⟩, ?_,
    ⟨nofun, pends.told⟩, ?_, fun _ _ _ _ shown => absurd rfl shown⟩
  · rw [demanded_quiet rfl]
    exact pends.pending
  · exact @AllComplete.later [_] _ _ pends.complete fun record member => by
      rw [List.mem_singleton.mp member]

private theorem first_called (pends : PendsFor pending presented journal calls)
    {made : List PanelCall}
    (frame : presentedNext ≠ presented → pending = true →
      calls.length < lastClean (made ++ calls))
    (opening : JournalRecord) (older : List JournalRecord)
    (last : lastOpening journal = some (opening, older))
    (demands : demanded older (callsAt (made ++ calls) opening.calls) = true)
    (shown : presentedNext ≠ 0) :
    opening.calls < lastClean (made ++ calls) := by
  obtain ⟨member, others⟩ := mem_lastOpening last
  have early := pends.bounded opening member
  rw [callsAt_append early] at demands
  have earlier (cleaned : opening.calls < lastClean calls) :
      opening.calls < lastClean (made ++ calls) := by
    rcases lastClean_append made calls with same | later
    · rw [same]
      exact cleaned
    · omega
  by_cases same : presentedNext = presented
  · exact earlier (pends.first opening older last demands (same ▸ shown))
  · cases isPending : pending with
    | true => exact Nat.lt_of_le_of_lt early (frame same isPending)
    | false =>
        apply earlier
        exact cleaned_since others pends.bounded early demands
          (pends.pending.symm.trans isPending)

/-- A step of the core. -/
theorem core {before after : World}
    (pends : PendsFor before.core.forceCleanupNext
      before.core.presentedFrameId journal before.panel.calls)
    (step : Disarms before after) :
    PendsFor after.core.forceCleanupNext after.core.presentedFrameId journal
      after.panel.calls := by
  have longer (made : List PanelCall) :
      Bounded journal (made ++ before.panel.calls) := by
    intro record member
    rw [List.length_append]
    exact Nat.le_add_left_of_le (pends.bounded record member)
  cases step with
  | quiet pumps allPumps calls armed frame =>
      rw [calls, armed]
      have same := lastClean_pumps allPumps before.panel.calls
      refine ⟨longer pumps, ?_, pends.told.later pends.bounded,
        pends.complete.pumps allPumps, pends.first_called ?_⟩
      · rw [demanded_still pends.bounded same]
        exact pends.pending
      · intro differs forced
        exact absurd (frame forced) differs
  | submits submission pumps allPumps calls armed complete frame =>
      have made : after.panel.calls = (.submit submission :: pumps) ++
          before.panel.calls := calls
      rw [made, armed]
      have same := lastClean_pumps allPumps before.panel.calls
      have cleaned : (PanelCall.submit submission).cleans = true →
          before.panel.calls.length <
            lastClean (.submit submission :: pumps ++ before.panel.calls) := by
        intro cleans
        rw [List.cons_append, lastClean_cons_of_cleans cleans,
          List.length_append]
        omega
      refine ⟨longer _, ?_, pends.told.later pends.bounded,
        ⟨?_, pends.complete.pumps allPumps⟩, pends.first_called ?_⟩
      · rw [demanded_calls pends.bounded, ← pends.pending]
        cases cleans : (PanelCall.submit submission).cleans with
        | true =>
            have moved := cleaned cleans
            have differs : lastClean
                (.submit submission :: pumps ++ before.panel.calls) ≠
                lastClean before.panel.calls :=
              (Nat.lt_of_le_of_lt (lastClean_le _) moved).ne'
            rw [decide_eq_false differs]
            simp
        | false =>
            rw [List.cons_append, lastClean_cons_of_not cleans, same]
            simp
      · rintro _ ⟨⟩ isFrame demands
        refine complete ?_ isFrame
        rw [pends.pending, ← demanded_still pends.bounded same]
        exact demands
      · exact fun differs forced => cleaned (frame forced differs)

/-- A session without a surface drives the panel itself. -/
theorem fallback (pends : PendsFor pending presented journal calls)
    {submission : Submission} (origin : submission.origin = .fallback) :
    PendsFor pending presented journal (.submit submission :: calls) := by
  have notClean : (PanelCall.submit submission).cleans = false := by
    simp [PanelCall.cleans, origin]
  have same := lastClean_cons_of_not notClean calls
  refine ⟨?_, ?_, @AllTold.later [_] _ _ pends.told pends.bounded,
    ⟨?_, pends.complete⟩, @first_called _ _ _ _ _ pends [_] ?_⟩
  · exact fun record member =>
      Nat.le_succ_of_le (pends.bounded record member)
  · exact pends.pending.trans
      (@demanded_still journal [.submit submission] calls pends.bounded
        same).symm
  · rintro _ ⟨⟩ ⟨_, _, isFrame⟩
    rw [origin] at isFrame
    cases isFrame
  · exact fun differs => absurd rfl differs

end PendsFor

/-- What holds of a face while nothing drifts. -/
def Face.Pends (self : Face) : Prop :=
  PendsFor self.cleanupPending self.presentedFrameId self.journal
    self.panel.calls

theorem Face.presentedFrameId_shown {face : Face} {screen : Screen}
    (shown : face.screen = some screen) :
    face.presentedFrameId = screen.core.presentedFrameId := by
  rw [Face.presentedFrameId, shown]
  rfl

/-- An entry that neither asks nor opens, and tells the truth. -/
def JournalEntry.Plain (pending : Bool) (entry : JournalEntry) : Prop :=
  entry.asks = false ∧ entry.opens = false ∧
    ∀ told, entry.toldCleanup = some told → told = pending

theorem JournalEntry.plain_of_silent {entry : JournalEntry}
    (asks : entry.asks = false) (opens : entry.opens = false)
    (silent : entry.toldCleanup = none) (pending : Bool) :
    entry.Plain pending :=
  ⟨asks, opens, fun _ tells => nomatch silent.symm.trans tells⟩

/-- An envelope that tells the truth about the face. -/
theorem Truthful.plain {face : Face} {body : Body} (truthful : Truthful face body)
    (pendingFrame : Option PendingPresentation) :
    (JournalEntry.sent body pendingFrame).Plain face.cleanupPending := by
  refine ⟨rfl, rfl, fun told tells => ?_⟩
  cases body with
  | epaperProfileResult result =>
      cases tells
      exact truthful
  | epaperRefreshResult result =>
      obtain ⟨state, isActive, same, _⟩ := truthful
      simp only [JournalEntry.toldCleanup, toldCleanup, isActive,
        Option.map_some, Option.some.injEq] at tells
      rw [← tells]
      exact same
  | _ => cases tells

namespace Face.Pends

variable {before after : Face}

theorem still (pends : before.Pends) {entries : List JournalEntry}
    (records : after.journal = entries.reverse.map
      (JournalRecord.mk before.panel.calls.length) ++ before.journal)
    (plain : ∀ entry ∈ entries, entry.Plain before.cleanupPending)
    (calls : after.panel.calls = before.panel.calls)
    (pending : after.cleanupPending = before.cleanupPending)
    (frame : after.presentedFrameId = before.presentedFrameId ∨
      after.presentedFrameId = 0) : after.Pends := by
  unfold Face.Pends
  rw [records, calls, pending]
  exact PendsFor.quiet pends
    (fun entry member => plain entry (List.mem_reverse.mp member)) frame

theorem screen (pends : before.Pends) {entries : List JournalEntry}
    {screen next : Screen} (shown : before.screen = some screen)
    (isNext : after.screen = some next)
    (records : after.journal = entries.reverse.map
      (JournalRecord.mk before.panel.calls.length) ++ before.journal)
    (plain : ∀ entry ∈ entries, entry.Plain before.cleanupPending)
    (calls : after.panel.calls = before.panel.calls)
    (pending : next.core.forceCleanupNext = screen.core.forceCleanupNext)
    (frame : next.core.presentedFrameId = screen.core.presentedFrameId) :
    after.Pends := by
  refine pends.still records plain calls ?_ (.inl ?_)
  · rw [Session.cleanupPending_shown shown,
      Session.cleanupPending_shown isNext, pending]
  · rw [Face.presentedFrameId_shown shown, Face.presentedFrameId_shown isNext,
      frame]

end Face.Pends

theorem InkStep.cleanup {screen next : Screen} {entry : Option JournalEntry}
    (step : InkStep screen entry next) :
    next.core.forceCleanupNext = screen.core.forceCleanupNext ∧
      next.core.presentedFrameId = screen.core.presentedFrameId ∧
      ∀ pending, ∀ written ∈ entry.toList, written.Plain pending := by
  cases step with
  | drew _ _ _ _ _ edits =>
      obtain ⟨edited, _, stored⟩ := Res.bind_eq_ok.mp edits
      cases stored
      refine ⟨rfl, rfl, fun pending written member => ?_⟩
      rw [List.mem_singleton.mp member]
      exact JournalEntry.plain_of_silent rfl rfl rfl pending
  | switched _ _ | lost | forgotten => exact ⟨rfl, rfl, fun _ => List.forall_mem_nil _⟩
  | _ =>
      refine ⟨rfl, rfl, fun pending written member => ?_⟩
      rw [List.mem_singleton.mp member]
      exact JournalEntry.plain_of_silent rfl rfl rfl pending

theorem FaceStep.pends {before after : Station} {entries : List JournalEntry}
    (step : FaceStep before entries after) (sound : before.face.Sound)
    (steady : ∀ entry ∈ entries, entry.drifts = false)
    (pends : before.face.Pends) : after.face.Pends := by
  have records := step.records
  have silent {entry : JournalEntry} (asks : entry.asks = false)
      (opens : entry.opens = false) (tells : entry.toldCleanup = none) :
      ∀ other ∈ [entry], other.Plain before.face.cleanupPending := by
    intro other member
    rw [List.mem_singleton.mp member]
    exact JournalEntry.plain_of_silent asks opens tells _
  have nothing : ∀ entry ∈ ([] : List JournalEntry),
      entry.Plain before.face.cleanupPending := List.forall_mem_nil _
  cases step with
  | @core face screen action _ _ world shown plain step =>
      have notAdjust : action ≠ .adjust := by
        rintro rfl
        exact plain
      have isPending := Session.cleanupPending_shown shown
      have isFrame := Face.presentedFrameId_shown shown
      unfold Face.Pends at pends
      dsimp only at pends
      rw [isPending, isFrame] at pends
      exact @PendsFor.core _ ⟨screen.core, face.panel⟩ world pends
        (step.disarms (sound.coherent screen shown) notAdjust)
  | @configured face screen _ _ _ next shown updates =>
      obtain ⟨policy, _, stored⟩ := Res.bind_eq_ok.mp updates
      cases stored
      exact pends.screen shown rfl records nothing rfl rfl rfl
  | noted shown _ => exact pends.screen shown rfl records nothing rfl rfl rfl
  | @asked face screen _ shown cause _ =>
      have isFrame := Face.presentedFrameId_shown shown
      exact PendsFor.asked pends cause isFrame.symm
  | @armed face _ hidden cause _ =>
      have armed := PendsFor.asked pends cause rfl
      have isKept : Face.cleanupPending { face with cleanupKept := true } = true :=
        Session.cleanupPending_hidden hidden
      rw [← isKept] at armed
      exact armed
  | overlooked _ => cases steady _ List.mem_cons_self
  | frozen shown _ _ | released shown _ =>
      exact pends.screen shown rfl records (silent rfl rfl rfl) rfl rfl rfl
  | accepted admits commits =>
      obtain ⟨_, _, _, _, _, base, _, rfl⟩ := commitTimed_eq_ok commits
      exact pends.screen (Session.screen_of_admits admits) rfl records
        (silent rfl rfl rfl) rfl rfl rfl
  | refused _ _ answers =>
      refine pends.still records (List.forall_mem_cons.mpr ⟨?_, ?_⟩) rfl rfl
        (.inl rfl)
      · exact JournalEntry.plain_of_silent rfl rfl rfl _
      · rw [answers]
        exact silent rfl rfl rfl
  | reported _ answers =>
      subst answers
      exact pends.still records (silent rfl rfl rfl) rfl rfl (.inl rfl)
  | sent truthful =>
      refine pends.still records (fun entry member => ?_) rfl rfl (.inl rfl)
      rw [List.mem_singleton.mp member]
      exact truthful.plain _
  | batched _ _ =>
      exact pends.still records (silent rfl rfl rfl) rfl rfl (.inl rfl)
  | @carried face _ cleanup debt carries =>
      refine pends.still records nothing rfl ?_ (.inl rfl)
      cases shown : face.screen with
      | some screen =>
          rw [Session.cleanupPending_shown shown]
          exact @Session.cleanupPending_shown _ screen rfl
      | none =>
          have isKept := Session.cleanupPending_hidden shown
          refine (@Session.cleanupPending_hidden _ rfl).trans ?_
          change cleanup = _
          cases carries with
          | debt => exact isKept.symm
          | cleanup => rfl
          | both =>
              dsimp only
              rw [isKept, Bool.or_self]
  | @opened face core _ _ surfaceId generation _ opens =>
      have stale := steady _ List.mem_cons_self
      have same : core.forceCleanupNext = face.cleanupPending := by
        cases isPending : face.cleanupPending with
        | true => exact opens.cleanup.trans (opens.pending isPending)
        | false =>
            simp only [JournalEntry.drifts, isPending, Bool.not_false,
              Bool.and_true] at stale
            exact stale
      change PendsFor core.forceCleanupNext core.presentedFrameId _ _
      rw [opens.ids.2, same]
      exact PendsFor.opened pends surfaceId generation _ _
  | @closed face idle kept =>
      refine pends.still records (silent rfl rfl rfl) rfl ?_ (.inr rfl)
      exact kept.1
  | @inked face screen next entry _ shown step =>
      obtain ⟨armed, frame, plain⟩ := step.cleanup
      refine pends.screen shown rfl records (plain _) ?_ armed frame
      cases entry <;> rfl
  | fallback hidden _ _ _ => exact PendsFor.fallback pends rfl
  | clocked _ | touched _ _ | detached _ | menu _ _ _ | captureLost =>
      exact pends.still records (silent rfl rfl rfl) rfl rfl (.inl rfl)
  | greeted _ _ | ended | forgotten _ =>
      exact pends.still records nothing rfl rfl (.inl rfl)

/-- What a session says about a pending cleanup, now and in every result. -/
structure CleanupLaw (session : Session) : Prop where
  state : session.currentRefreshState.cleanupPending =
    demanded session.journal session.panel.calls
  results : ∀ newer record older pending,
    session.journal = newer ++ record :: older →
    record.entry.toldCleanup = some pending →
    pending = demanded older (callsAt session.panel.calls record.calls)
  /-- Frames submitted while a cleanup is demanded are complete refreshes. -/
  frames : ∀ newer submission older,
    session.panel.calls = newer ++ .submit submission :: older →
    submission.IsFrame → demanded session.journal older = true →
    submission.decision.completeRefresh = true
  /-- A frame is presented on a surface that was opened while a cleanup was
  demanded only when that was done. -/
  first : ∀ surface opening older, session.surface = some surface →
    lastOpening session.journal = some (opening, older) →
    demanded older (callsAt session.panel.calls opening.calls) = true →
    surface.core.presentedFrameId ≠ 0 →
    opening.calls < lastClean session.panel.calls

theorem AllComplete.unasked (calls : List PanelCall) : AllComplete [] calls := by
  induction calls with
  | nil => trivial
  | cons call older induction =>
      refine ⟨fun _ _ _ demands => ?_, induction⟩
      cases demands

theorem PendsFor.unasked (calls : List PanelCall) : PendsFor false 0 [] calls where
  bounded := List.forall_mem_nil _
  pending := rfl
  told := trivial
  complete := .unasked calls
  first := fun _ _ last => by cases last

/-- In every session in which the menu chooses no profile without a surface,
and no surface is opened with a cleanup that was done already, a cleanup is
reported as pending exactly if one was asked for since the last complete
refresh. -/
theorem cleanupLaw_of_run {setup : SessionSetup}
    {history : List SessionEvent} {final : Session}
    (run : SessionRun setup history final)
    (steady : ∀ entry ∈ entriesOf history, entry.drifts = false) :
    CleanupLaw final := by
  have pends : final.face.Pends := by
    refine run.keepsAlways (fun face => (∀ record ∈ face.journal,
      record.entry.drifts = false) → face.Pends)
      (fun _ => PendsFor.unasked _) ?_ ?_
    · intro station next entries step sound holds steady
      rw [step.records] at steady
      refine step.pends sound ?_ (holds fun record member =>
        steady record (List.mem_append_right _ member))
      intro entry member
      exact steady ⟨_, entry⟩ (List.mem_append_left _
        (List.mem_map_of_mem (List.mem_reverse.mpr member)))
    · intro record member
      apply steady
      rw [← run.journal]
      exact List.mem_map_of_mem member
  have state : final.currentRefreshState.cleanupPending =
      final.face.cleanupPending :=
    Session.cleanupPending_currentRefreshState final
  refine ⟨state.trans pends.pending, ?_, ?_, ?_⟩
  · intro newer record older pending split tells
    exact pends.told.of_split split tells
  · intro newer submission older split isFrame demands
    exact pends.complete.of_split split isFrame demands
  · intro surface opening older active last demands shown
    refine pends.first opening older last demands ?_
    rw [Face.presentedFrameId_shown (Session.screen_of_surface active)]
    exact shown

/-- A cleanup is asked for before the first frame, survives the surface, and
is done by the first frame of the next one. -/
theorem cleanupLaw_of_reopened :
    ∃ setup history final surface opening older, SessionRun setup history final ∧
      final.surface = some surface ∧ surface.core.presentedFrameId = 1 ∧
      lastOpening final.journal = some (opening, older) ∧
      demanded older (callsAt final.panel.calls opening.calls) = true ∧
      opening.calls < lastClean final.panel.calls ∧
      final.currentRefreshState.cleanupPending = false := by
  have ran := @SessionSetup.ran (.gray 1 1 (fun _ => true) fun _ => some {})
    [grayMessage 5 (grayFrame 2 2 1 0 .settled ⟨0, 0, 1, 1⟩ [9]) (.ofSecs 4),
      grayMessage 4 (grayOpen 2 []) (.ofSecs 3),
      grayMessage 3 (.surfaceClose 1 1) (.ofSecs 2),
      .requestCleanup (.ofSecs 2), grayMessage 2 (grayOpen 1 []) (.ofSecs 1),
      grayMessage 1 (.clientHello (grayHello [.byteCredits])) 1]
    (fun history final =>
      (entriesOf history).all (fun entry => !entry.drifts) &&
      final.surface.any (fun surface => surface.core.presentedFrameId == 1) &&
      (lastOpening final.journal).any (fun last =>
        demanded last.2 (callsAt final.panel.calls last.1.calls)) &&
      !demanded final.journal final.panel.calls)
    (by decide +kernel)
  obtain ⟨history, final, run, checked⟩ := ran
  simp only [Bool.and_eq_true, List.all_eq_true, Bool.not_eq_true',
    Option.any_eq_true, beq_iff_eq] at checked
  obtain ⟨⟨⟨steady, surface, active, shown⟩, ⟨opening, older⟩, last, demands⟩,
    settled⟩ := checked
  have law := cleanupLaw_of_run run steady
  refine ⟨_, history, final, surface, opening, older, run, active, shown, last,
    demands, ?_, law.state.trans settled⟩
  exact law.first surface opening older active last demands (by simp [shown])

/-- A frame that sets the pixel, a second after the frame before it. -/
def frameAt (frameId : Nat) : SessionOp :=
  grayMessage (frameId + 2)
    (grayFrame 1 1 frameId (frameId - 1) .latest ⟨0, 0, 1, 1⟩
      [UInt8.ofNat frameId]) (.ofSecs frameId)

/-- What was submitted, and whether it was a complete refresh. -/
def refreshesOf (calls : List PanelCall) : List (Origin × Bool) :=
  calls.filterMap fun call =>
    match call with
    | .pump _ => none
    | .submit submission =>
        some (submission.origin, submission.decision.completeRefresh)

/-- A cleanup is pending although nobody asked for one, after the attempt in
an idle moment failed; and the first frame of a surface opened while one is
pending need not be a complete refresh, if an overlay was presented before. -/
theorem cleanupLaw_of_idle :
    (∃ setup history final, SessionRun setup history final ∧
      (∀ event ∈ history, event.Succeeds) ∧
      final.currentRefreshState.cleanupPending = true ∧
      ∀ entry ∈ entriesOf history, entry.asks = true → entry = .asked .idle) ∧
    ∃ setup history final, SessionRun setup history final ∧
      (∀ event ∈ history, event.Succeeds) ∧
      (lastOpening final.journal).any (fun last =>
        demanded last.2 (callsAt final.panel.calls last.1.calls)) = true ∧
      refreshesOf final.panel.calls =
        [(.frame 1 .settled, false), (.overlay, true)] := by
  constructor
  · have ran := @SessionSetup.ran (.gray 1 1 (fun _ => true)
        fun call => if call = 11 then none else some {})
      [.poll (.ofSecs 20), frameAt 5, frameAt 4, frameAt 3, frameAt 2,
        frameAt 1, grayMessage 2 (grayOpen 1 []) (.ofSecs 1),
        grayMessage 1 (.clientHello (grayHello [.byteCredits])) 1]
      (fun history final => allSucceed history &&
        final.currentRefreshState.cleanupPending &&
        (entriesOf history).all fun entry =>
          !entry.asks || decide (entry = .asked .idle))
      (by decide +kernel)
    obtain ⟨history, final, run, checked⟩ := ran
    simp only [Bool.and_eq_true, List.all_eq_true, Bool.or_eq_true,
      Bool.not_eq_true', decide_eq_true_iff] at checked
    obtain ⟨⟨succeed, pending⟩, idle⟩ := checked
    refine ⟨_, history, final, run, succeeds_of_allSucceed succeed, pending, ?_⟩
    intro entry member asks
    refine (idle entry member).resolve_left fun quiet => ?_
    rw [asks] at quiet
    cases quiet
  · have ran := @SessionSetup.ran (.gray 1 1 (fun _ => true) fun _ => some {})
      [grayMessage 4 (grayFrame 1 1 1 0 .settled ⟨0, 0, 1, 1⟩ [9]) (.ofSecs 4),
        grayMessage 3 (.overlayUpdate (pixelUpdate 1 1 1 7)) 3,
        grayMessage 2 (grayOpen 1 []) 2, .requestCleanup 1,
        grayMessage 1 (.clientHello (grayHello
          [.byteCredits, .epaperCustomProfile, .remoteOverlay])) 1]
      (fun history final => allSucceed history &&
        (lastOpening final.journal).any (fun last =>
          demanded last.2 (callsAt final.panel.calls last.1.calls)) &&
        decide (refreshesOf final.panel.calls =
          [(.frame 1 .settled, false), (.overlay, true)]))
      (by decide +kernel)
    obtain ⟨history, final, run, checked⟩ := ran
    simp only [Bool.and_eq_true, decide_eq_true_iff] at checked
    exact ⟨_, history, final, run, succeeds_of_allSucceed checked.1.1,
      checked.1.2, checked.2⟩

end RmDisplay.Receiver
