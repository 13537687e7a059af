import RmDisplay.Receiver.ResultOrder

/-!
# Refusals for want of credit

A frame is refused for want of credit only if the frame that is pending, which
has no result yet, leaves too little for it.
-/

namespace RmDisplay.Receiver

open Foundation Protocol RmDisplay.Core Core.DisplayCore

/-- The result says that there was no credit for its frame. -/
def WantsCredit (result : FrameResult) : Prop :=
  result.reason = wire FrameResultReason.noCredit

/-- What is pending stands for one of the frames. -/
def Standing (entries : List JournalEntry)
    (pending : Option PendingPresentation) : Prop :=
  ∀ waiting ∈ pending, ∃ frame ∈ entries.filterMap (·.frame),
    Stands waiting frame

/-- There was no credit for a frame, as another one was pending. -/
structure Short (earlier : List JournalEntry) (frame : Frame)
    (result : FrameResult) (pending : Option PendingPresentation) : Prop where
  lacks : result.credits = 0 ∨ result.byteCredits < claimedBytes frame
  standing : Standing earlier pending
  waits : ∀ waiting ∈ pending, waiting.frameId ∉ resultIds earlier

/-- Every refusal for want of credit is about the frame handled last, for which
there was none. -/
def ShortOnly (entries : List JournalEntry) : Prop :=
  ∀ earlier result pending later,
    entries = earlier ++ .sent (.frameResult result) pending :: later →
      WantsCredit result → ∃ before frame, earlier = before ++ [.refused frame] ∧
        Short before frame result pending

theorem ShortOnly.nil : ShortOnly [] := by
  intro earlier result pending later split
  simp at split

theorem ShortOnly.append {entries later : List JournalEntry}
    (short : ShortOnly entries)
    (new : ∀ earlier result pending rest,
      later = earlier ++ .sent (.frameResult result) pending :: rest →
        WantsCredit result → ∃ before frame,
          earlier = before ++ [.refused frame] ∧
            Short (entries ++ before) frame result pending) :
    ShortOnly (entries ++ later) := by
  intro earlier result pending rest split wants
  rcases List.append_eq_append_iff.mp split with
    ⟨between, rfl, isLater⟩ | ⟨between, isEntries, isRest⟩
  · obtain ⟨before, frame, rfl, isShort⟩ :=
      new between result pending rest isLater wants
    exact ⟨entries ++ before, frame, (List.append_assoc _ _ _).symm, isShort⟩
  · cases between with
    | nil =>
        rw [List.append_nil] at isEntries
        subst isEntries
        obtain ⟨before, frame, impossible, _⟩ :=
          new [] result pending rest isRest.symm wants
        simp at impossible
    | cons first more =>
        cases isRest
        exact short earlier result pending more isEntries wants

theorem Session.admitFrame_short {session : Session} {frame : Frame}
    {verdict : Session.Verdict} (refuses : session.admitFrame frame =
      .error verdict) (wants : verdict.reason = .noCredit) :
    session.credits = 0 ∨ session.byteCredits < claimedBytes frame := by
  unfold Session.admitFrame at refuses
  split at refuses
  · cases refuses
    cases wants
  · split at refuses
    · cases refuses
      cases wants
    · split at refuses
      · rename_i none
        exact .inl none
      · split at refuses
        · cases refuses
          cases wants
        · rename_i cost computed
          split at refuses
          · rename_i short
            rw [Session.decodedCost_eq computed] at short
            exact .inr short.2
          · split at refuses
            · cases refuses
              cases wants
            · split at refuses
              · rename_i err _
                cases refuses
                cases err <;> cases wants
              · cases refuses

theorem noCredit_of_wire {reason : FrameResultReason}
    (same : wire reason = wire FrameResultReason.noCredit) :
    reason = .noCredit := by
  revert same
  cases reason <;> decide

theorem Session.Refuses.short {session : Session} {frame : Frame}
    {verdict : Session.Verdict} (refuses : session.Refuses frame verdict)
    (wants : verdict.reason = .noCredit) :
    session.credits = 0 ∨ session.byteCredits < claimedBytes frame := by
  rcases refuses with unadmitted | ⟨_, _, _, _, _, err, _, _, rfl⟩
  · exact Session.admitFrame_short unadmitted wants
  · cases err <;> cases wants

theorem outcomeVerdict_credited (inkFrozen : Bool)
    (outcome : PresentationOutcome) :
    (Session.outcomeVerdict inkFrozen outcome).reason ≠ .noCredit := by
  cases outcome <;> cases inkFrozen <;> decide

/-- Only a frame that is refused at once may want credit. -/
theorem FaceStep.short {before after : Station} {entries : List JournalEntry}
    {result : FrameResult} {pending : Option PendingPresentation}
    (step : FaceStep before entries after)
    (member : .sent (.frameResult result) pending ∈ entries)
    (wants : WantsCredit result) :
    ∃ frame, entries = [.refused frame, .sent (.frameResult result) pending] ∧
      (result.credits = 0 ∨ result.byteCredits < claimedBytes frame) := by
  obtain ⟨isPending, credits, byteCredits, _⟩ := step.result member
  cases step with
  | @refused session frame verdict body owed greeted refuses answers =>
      simp only [List.mem_cons, JournalEntry.sent.injEq, List.not_mem_nil,
        or_false, reduceCtorEq, false_or] at member
      obtain ⟨isBody, rfl⟩ := member
      refine ⟨frame, by rw [isBody], ?_⟩
      rw [credits, byteCredits]
      change session.face.credits = 0 ∨
        session.face.byteCredits < claimedBytes frame
      rw [Session.credits_face, Session.byteCredits_face]
      rw [answers] at isBody
      cases isBody
      exact refuses.short (noCredit_of_wire wants)
  | @reported face terminal body owed rest due answers =>
      simp only [List.mem_singleton, JournalEntry.sent.injEq] at member
      obtain ⟨isBody, _⟩ := member
      rw [answers] at isBody
      cases isBody
      exact absurd (noCredit_of_wire wants) (outcomeVerdict_credited _ _)
  | sent truthful =>
      simp only [List.mem_singleton, JournalEntry.sent.injEq] at member
      obtain ⟨rfl, _⟩ := member
      exact truthful.elim
  | inked _ step => cases step <;> simp at member
  | _ => simp at member

/-- What is known of the refusals and of the pending frame of a surface. -/
structure Crediting (entries : List JournalEntry)
    (pending : Option PendingPresentation) : Prop where
  standing : Standing entries pending
  short : ShortOnly entries

theorem Standing.append {entries later : List JournalEntry}
    {pending : Option PendingPresentation} (standing : Standing entries pending) :
    Standing (entries ++ later) pending := by
  intro waiting isPending
  obtain ⟨frame, member, stands⟩ := standing waiting isPending
  refine ⟨frame, ?_, stands⟩
  rw [List.filterMap_append]
  exact List.mem_append_left _ member

theorem Answering.waits {entries : List JournalEntry} {face : Face}
    {owed : Owed} {logical : Nat}
    (answering : Answering entries (Station.queue ⟨face, owed⟩) logical)
    (rising : Rising entries) :
    ∀ waiting ∈ face.pendingFrame, waiting.frameId ∉ resultIds entries := by
  intro waiting isPending isOld
  have distinct := answering.settled.nodup_iff.mp (rising.imp Nat.ne_of_lt)
  refine (List.nodup_append.mp distinct).2.2 _ isOld waiting.frameId ?_ rfl
  unfold Station.queue
  rw [Option.mem_def.mp isPending]
  exact List.mem_append_right _ (List.mem_singleton_self _)

/-- A step on the surface keeps what is known of refusals. -/
theorem FaceStep.crediting {before after : Station}
    {entries done : List JournalEntry} (step : FaceStep before entries after)
    (answering : Answering done before.queue before.face.logicalFrameId)
    (rising : Rising done)
    (crediting : Crediting done before.face.pendingFrame) :
    Crediting (done ++ entries) after.face.pendingFrame := by
  constructor
  · rcases step.pending_cases with
      same | none | ⟨frame, validated, pending, rfl, isPending, stands, _⟩
    · rw [same]
      exact crediting.standing.append
    · rw [none]
      intro _ missing
      cases missing
    · rw [isPending]
      intro waiting isWaiting
      cases isWaiting
      refine ⟨frame, ?_, stands⟩
      rw [List.filterMap_append]
      exact List.mem_append_right _ (List.mem_singleton_self _)
  · refine crediting.short.append fun earlier result pending rest split wants => ?_
    have member : .sent (.frameResult result) pending ∈ entries := by
      rw [split]
      exact List.mem_append_right _ List.mem_cons_self
    obtain ⟨isPending, _⟩ := step.result member
    obtain ⟨frame, isEntries, lacks⟩ := step.short member wants
    rw [isEntries] at split
    have isEarlier : earlier = [.refused frame] := by
      cases earlier with
      | nil => simp at split
      | cons first earlier =>
          cases earlier with
          | nil =>
              cases split
              rfl
          | cons _ _ => simp at split
    refine ⟨[], frame, isEarlier, ?_⟩
    rw [List.append_nil, isPending]
    exact ⟨lacks, crediting.standing, answering.waits rising⟩

/-- On an open session the refusals of a surface are known, as long as the ids of
its frames increase. -/
theorem FaceStep.credited {before after : Station}
    {entries older : List JournalEntry} (step : FaceStep before entries after)
    (sound : before.face.Sound) (isOpen : after.face.closed = false)
    (known : Rising (chronicle older) →
      Answering (chronicle older) before.queue before.face.logicalFrameId ∧
        Crediting (chronicle older) before.face.pendingFrame)
    (rising : Rising (chronicle (entries.reverse ++ older))) :
    Answering (chronicle (entries.reverse ++ older)) after.queue
        after.face.logicalFrameId ∧
      Crediting (chronicle (entries.reverse ++ older))
        after.face.pendingFrame := by
  have moves := step.answers sound isOpen
  refine ⟨moves.answering (fun wasRising => (known wasRising).1) rising, ?_⟩
  by_cases opens : entries.any (·.opens) = true
  · obtain ⟨settled, entry, rfl, isOpening⟩ := moves.queue_of_opens opens
    rw [List.reverse_singleton, List.singleton_append,
      chronicle_opened isOpening]
    refine ⟨fun waiting isPending => ?_, .nil⟩
    unfold Station.queue at settled
    rw [Option.mem_def.mp isPending] at settled
    simp at settled
  · have stays : ∀ entry ∈ entries, entry.opens = false := by
      simpa using opens
    rw [chronicle_append stays] at rising ⊢
    obtain ⟨answering, crediting⟩ := known rising.before
    exact step.crediting answering rising.before crediting

theorem Steps.credited {before after : Station} {entries older : List JournalEntry}
    (steps : Steps before entries after) (sound : before.face.Sound)
    (isOpen : after.face.closed = false)
    (known : Rising (chronicle older) →
      Answering (chronicle older) before.queue before.face.logicalFrameId ∧
        Crediting (chronicle older) before.face.pendingFrame)
    (rising : Rising (chronicle (entries.reverse ++ older))) :
    Answering (chronicle (entries.reverse ++ older)) after.queue
        after.face.logicalFrameId ∧
      Crediting (chronicle (entries.reverse ++ older))
        after.face.pendingFrame := by
  induction steps generalizing older with
  | nil => exact known rising
  | cons step rest induction =>
      rw [List.reverse_append, List.append_assoc] at rising ⊢
      refine induction (step.sound sound) isOpen ?_ rising
      exact step.credited sound (rest.stillOpen isOpen) known

/-- In every run without an error the refusals for want of credit are known, as
long as the ids of the frames increase and the session is open. -/
theorem SessionRun.credited {setup : SessionSetup}
    {history : List SessionEvent} {final : Session}
    (run : SessionRun setup history final)
    (succeed : ∀ event ∈ history, event.Succeeds)
    (isOpen : final.closed = false)
    (rising : Rising (chronicle (entriesOf history))) :
    Crediting (chronicle (entriesOf history)) final.face.pendingFrame := by
  refine ((run.keeps (fun history face => face.closed = false →
    Rising (chronicle (entriesOf history)) →
      Answering (chronicle (entriesOf history)) (Station.queue ⟨face, {}⟩)
          face.logicalFrameId ∧
        Crediting (chronicle (entriesOf history)) face.pendingFrame) ?_ ?_
    succeed).2 isOpen rising).2
  · intro _ _
    refine ⟨.nil, ?_, .nil⟩
    intro _ missing
    cases missing
  · intro history event left succeeds acts known isOpen rising
    obtain ⟨loose, isLeft, _⟩ := acts.settled succeeds
    have credited := acts.steps.credited acts.sound isOpen
      (known (acts.steps.stillOpen isOpen)) rising
    rw [isLeft] at credited
    exact credited

end RmDisplay.Receiver
