import RmDisplay.Core.Terminals
import RmDisplay.Receiver.Admission
import RmDisplay.Receiver.SessionRuns

/-!
# Frame results

Every frame is answered once or still pending, whatever path its result takes,
and a result tells the credits that are left when it is built.
-/

namespace RmDisplay.Receiver

open Foundation Protocol RmDisplay.Core Core.DisplayCore

def frameKey (frame : Frame) : Session.FrameKey :=
  ⟨frame.surfaceId, frame.generation, frame.frameId⟩

/-- The frame a body is the result of. -/
def resultKey : Body → Option Session.FrameKey
  | .frameResult result =>
      some ⟨result.surfaceId, result.generation, result.frameId⟩
  | _ => none

def bodyFrame : Body → Option Frame
  | .frame frame => some frame
  | _ => none

/-- The frame an operation brings. -/
def SessionOp.frame : SessionOp → Option Frame
  | .handle envelope _ | .handleDeferred envelope _ =>
      envelope.body.bind bodyFrame
  | _ => none

/-- All frames received in a run. -/
def receivedFrames (history : List SessionEvent) : List Session.FrameKey :=
  history.flatMap fun event => (event.input.frame.map frameKey).toList

/-- The frames of all results sent in a run. -/
def answeredFrames (history : List SessionEvent) : List Session.FrameKey :=
  history.flatMap fun event => (bodies event.envelopes).filterMap resultKey

namespace Face

/-- A frame of the active surface. -/
def frameKey (self : Face) (frameId : Nat) : Session.FrameKey :=
  ⟨self.surfaceKey.1, self.surfaceKey.2, frameId⟩

/-- The frame that is pending. -/
def pendingKeys (self : Face) : List Session.FrameKey :=
  self.pendingFrame.toList.map fun pending => self.frameKey pending.frameId

end Face

/-- The frames of the active surface that have no result yet. -/
def Station.awaited (self : Station) : List Session.FrameKey :=
  self.face.pendingKeys ++
    self.owed.terminals.map fun terminal => self.face.frameKey terminal.frameId

/-- The credits of a result are what a pending frame leaves of the limits. -/
structure ExactCredits (limits : ReceiverLimits) (byteCreditsEnabled : Bool)
    (result : FrameResult) (pending : Option PendingPresentation) : Prop where
  credits : result.credits + pending.toList.length = limits.maxInflight
  byteCredits : byteCreditsEnabled = true →
    result.byteCredits + (pending.map (·.decodedBytes)).getD 0 =
      limits.maxInflightBytes

private theorem awaited_screen {face : Face} {screen : Screen} {owed : Owed}
    (shown : face.screen = some screen) (surfaceId generation : Nat)
    (sameSurface : surfaceId = screen.surfaceId ∧
      generation = screen.generation) :
    Station.awaited ⟨face, owed⟩ =
      (screen.core.pendingIds ++ owed.terminals.map (·.frameId)).map
        (⟨surfaceId, generation, ·⟩) := by
  obtain ⟨rfl, rfl⟩ := sameSurface
  unfold Station.awaited Face.pendingKeys Face.pendingFrame Face.frameKey
    Face.surfaceKey DisplayCore.pendingIds
  simp only [shown, Option.bind_some, Option.map_some, Option.getD_some,
    List.map_append, List.map_map]
  cases screen.core.pending <;> rfl

private theorem settles_owing {before accepted terminals after : List Nat}
    (settles : Settles before accepted terminals after) (owed : List Nat)
    (key : Nat → Session.FrameKey) :
    Settles ((before ++ owed).map key) (accepted.map key) []
      ((after ++ (owed ++ terminals)).map key) := by
  have opened : (accepted ++ (before ++ owed)).Perm
      (terminals ++ (after ++ owed)) := by
    rw [← List.append_assoc, ← List.append_assoc]
    exact settles.append_right owed
  have closed : (terminals ++ (after ++ owed)).Perm
      (after ++ (owed ++ terminals)) := by
    rw [← List.append_assoc after]
    exact List.perm_append_comm
  unfold Settles
  rw [← List.map_append, List.nil_append]
  exact (opened.trans closed).map key

namespace JournalEntry

/-- The frame an entry brings. -/
def frameKey (entry : JournalEntry) : Option Session.FrameKey :=
  entry.frame.map Receiver.frameKey

/-- The frame an entry answers. -/
def resultKey (entry : JournalEntry) : Option Session.FrameKey :=
  entry.body.bind Receiver.resultKey

end JournalEntry

theorem Truthful.noResult {face : Face} {body : Body}
    (truthful : Truthful face body) : resultKey body = none := by
  cases body with
  | frameResult _ => exact truthful.elim
  | _ => rfl

private theorem settles_screen {face next : Face} {screen other : Screen}
    {owed left : Owed} {accepted : List Nat} {terminals : List TerminalFrame}
    {opened closed : List Session.FrameKey}
    (settles : Settles screen.core.pendingIds accepted
      (terminals.map (·.frameId)) other.core.pendingIds)
    (shown : face.screen = some screen) (isNext : next.screen = some other)
    (sameSurface : screen.surfaceId = other.surfaceId ∧
      screen.generation = other.generation)
    (isLeft : left.terminals = owed.terminals ++ terminals)
    (isOpened : opened = accepted.map
      (⟨screen.surfaceId, screen.generation, ·⟩))
    (isClosed : closed = []) :
    Settles (Station.awaited ⟨face, owed⟩) opened closed
      (Station.awaited ⟨next, left⟩) := by
  rw [awaited_screen shown _ _ ⟨rfl, rfl⟩,
    awaited_screen isNext _ _ sameSurface, isLeft, isOpened, isClosed,
    owed.terminals.map_append]
  exact settles_owing settles _ _

theorem BatchSource.terminals {face : Face} {owed left : Owed}
    {records : List PointerRecord}
    (source : BatchSource face owed records left) :
    left.terminals = owed.terminals := by
  cases source with
  | touches _ | pen _ _ | empty => rfl

theorem InkStep.pending {screen next : Screen} {entry : Option JournalEntry}
    (step : InkStep screen entry next) :
    (screen.surfaceId = next.surfaceId ∧
      screen.generation = next.generation) ∧
      next.core.pending = screen.core.pending := by
  cases step with
  | drew _ _ _ _ _ edits =>
      obtain ⟨_, _, rfl⟩ := editPlane_eq_ok edits
      exact ⟨⟨rfl, rfl⟩, rfl⟩
  | _ => exact ⟨⟨rfl, rfl⟩, rfl⟩

/-- Every step settles the frames it is about. -/
theorem FaceStep.settles {before after : Station} {entries : List JournalEntry}
    (step : FaceStep before entries after) (sound : before.face.Sound)
    (isOpen : after.face.closed = false) :
    Settles before.awaited (entries.filterMap (·.frameKey))
      (entries.filterMap (·.resultKey)) after.awaited := by
  have adjusted {face next : Face} {screen other : Screen} {owed left : Owed}
      {closed : List Session.FrameKey}
      (shown : face.screen = some screen) (isNext : next.screen = some other)
      (same : screen.surfaceId = other.surfaceId ∧
        screen.generation = other.generation)
      (samePending : other.core.pending = screen.core.pending)
      (isLeft : left.terminals = owed.terminals) (isClosed : closed = []) :
      Settles (Station.awaited ⟨face, owed⟩) [] closed
        (Station.awaited ⟨next, left⟩) := by
    have settles : Settles screen.core.pendingIds []
        (([] : List TerminalFrame).map (·.frameId)) other.core.pendingIds :=
      Settles.of_eq (by rw [pendingIds, pendingIds, samePending])
    exact settles_screen settles shown isNext same (by simpa using isLeft) rfl
      isClosed
  cases step with
  | @core face screen action owed terminals world shown plain step =>
      have settles := step.settles (sound.coherent _ shown)
      have noFrame : action.accepted = [] := by
        cases action <;> first | rfl | cases plain
      rw [noFrame] at settles
      exact @settles_screen _ _ _ { screen with core := world.core } _ _ _ _ _ _
        settles shown rfl ⟨rfl, rfl⟩ rfl rfl rfl
  | @frozen face screen owed shown live presented =>
      have settles := (@CoreStep.freeze screen.core face.panel).settles
        (sound.coherent _ shown)
      exact @settles_screen _ _ _ { screen with
        inkFrozen := true, core := screen.core.freezePresented.2 } _ _ _ _ _ _
        settles shown rfl ⟨rfl, rfl⟩ rfl rfl rfl
  | @accepted session surface frame validated contentClass timing decodeUs
      report next owed admits commits =>
      have isScreen := Session.screen_of_admits admits
      have settles := (@CoreStep.commit _ _ session.face.panel _ _ _ _ _
        commits).settles (sound.coherent _ isScreen)
      have decodes := (Session.admits_of_admitFrame admits).decodes
      refine @settles_screen _ _ _ { surface.screen with core := next } _ _ _ _
        _ _ settles isScreen rfl ⟨rfl, rfl⟩ rfl ?_ rfl
      change [Receiver.frameKey frame] = [⟨surface.surfaceId, surface.generation,
        validated.frameId⟩]
      rw [Receiver.frameKey, decodes.frameId, decodes.surfaceId,
        decodes.generation]
      rfl
  | configured shown updates =>
      obtain ⟨_, _, _, _, _, _, same⟩ := (Adjusts.configured updates).frame
      exact adjusted shown rfl ⟨rfl, rfl⟩ (by rw [same]) rfl rfl
  | noted shown _ | asked shown _ _ | released shown _ =>
      exact adjusted shown rfl ⟨rfl, rfl⟩ rfl rfl rfl
  | @inked face screen next entry owed shown step =>
      obtain ⟨sameSurface, samePending⟩ := step.pending
      have noFrame : entry.toList.filterMap (·.frameKey) = [] := by
        cases step <;> rfl
      have noResult : entry.toList.filterMap (·.resultKey) = [] := by
        cases step <;> rfl
      rw [noFrame]
      exact adjusted shown rfl sameSurface samePending rfl noResult
  | @refused session frame verdict body owed greeted refuses answers =>
      subst answers
      exact Settles.atOnce (Receiver.frameKey frame)
        (Station.awaited ⟨session.face, owed⟩)
  | @reported face terminal body owed rest due answers =>
      subst answers
      have split : Station.awaited ⟨face, owed⟩ = face.pendingKeys ++
          ([face.frameKey terminal.frameId] ++
            rest.map fun terminal => face.frameKey terminal.frameId) := by
        rw [Station.awaited, due]
        rfl
      have moved : (Station.awaited ⟨face, owed⟩).Perm
          ([face.frameKey terminal.frameId] ++ (face.pendingKeys ++
            rest.map fun terminal => face.frameKey terminal.frameId)) := by
        rw [split, ← List.append_assoc, ← List.append_assoc]
        exact List.perm_append_comm.append_right _
      exact moved
  | @sent face body owed truthful =>
      have noResult : [JournalEntry.sent body face.pendingFrame].filterMap
          (·.resultKey) = [] := by
        simp [JournalEntry.resultKey, JournalEntry.body, truthful.noResult]
      rw [noResult]
      exact Settles.refl _
  | @batched face batch owed left truthful source =>
      refine Settles.of_eq ?_
      rw [Station.awaited, Station.awaited, source.terminals]
      rfl
  | @opened face core greeted idle _ _ _ opens =>
      have before : Station.awaited ⟨face, {}⟩ = [] := by
        simp [Station.awaited, Face.pendingKeys, idle]
      rw [before]
      refine Settles.of_eq ?_
      simp [Station.awaited, Face.pendingKeys, Face.pendingFrame, opens.idle]
  | @closed face idle kept =>
      have before : Station.awaited ⟨face, {}⟩ = [] := by
        simp [Station.awaited, Face.pendingKeys, idle]
      rw [before]
      exact Settles.of_eq rfl
  | forgotten closed =>
      rw [closed] at isOpen
      cases isOpen
  | armed _ _ _ | overlooked _ | carried _ | clocked _ | fallback _ _ _ _
  | ended | touched _ _ | detached _ | menu _ _ _ | captureLost | greeted _ _ =>
      exact Settles.refl _

theorem FaceStep.terms {before after : Station} {entries : List JournalEntry}
    (step : FaceStep before entries after) :
    after.face.limits = before.face.limits ∧
      (after.face.established = before.face.established ∧
          after.face.byteCreditsEnabled = before.face.byteCreditsEnabled ∨
        before.face.established = false ∧
          after.face.screen = before.face.screen ∧ entries = [] ∧
          after.owed = before.owed) := by
  cases step with
  | greeted first _ => exact ⟨rfl, .inr ⟨first, rfl, rfl, rfl⟩⟩
  | @inked _ _ _ entry _ _ _ => cases entry <;> exact ⟨rfl, .inl ⟨rfl, rfl⟩⟩
  | _ => exact ⟨rfl, .inl ⟨rfl, rfl⟩⟩

/-- The decoded lengths that the regions of a frame claim. -/
def claimedBytes (frame : Frame) : Nat :=
  (frame.regions.map (·.decodedLen)).sum

/-- What is pending is a frame and its bytes. -/
structure Stands (pending : PendingPresentation) (frame : Frame) : Prop where
  frameId : pending.frameId = frame.frameId
  decodedBytes : pending.decodedBytes = claimedBytes frame

theorem FaceStep.pending_cases {before after : Station}
    {entries : List JournalEntry} (step : FaceStep before entries after) :
    after.face.pendingFrame = before.face.pendingFrame ∨
      after.face.pendingFrame = none ∨
      ∃ frame validated pending, entries = [.accepted frame validated] ∧
        after.face.pendingFrame = some pending ∧ Stands pending frame ∧
        before.face.credits ≠ 0 ∧
        (before.face.byteCreditsEnabled = true →
          pending.decodedBytes ≤ before.face.byteCredits) := by
  have onScreen {face next : Face} {screen other : Screen}
      (shown : face.screen = some screen) (isNext : next.screen = some other)
      (pending : other.core.pending = screen.core.pending ∨
        other.core.pending = none) :
      next.pendingFrame = face.pendingFrame ∨ next.pendingFrame = none := by
    simp only [Face.pendingFrame, shown, isNext, Option.bind_some]
    exact pending
  have quiet {face next : Face} {credit : Prop}
      (cases : next.pendingFrame = face.pendingFrame ∨
        next.pendingFrame = none) :
      next.pendingFrame = face.pendingFrame ∨ next.pendingFrame = none ∨
        credit := by
    rcases cases with same | none
    · exact .inl same
    · exact .inr (.inl none)
  cases step with
  | @core face screen action owed terminals world shown plain step =>
      have noFrame : action.accepted = [] := by
        cases action <;> first | rfl | cases plain
      exact quiet (onScreen shown rfl (step.pending_cases noFrame))
  | frozen shown _ _ => exact quiet (onScreen shown rfl (.inr rfl))
  | configured shown updates =>
      exact quiet (onScreen shown rfl
        (.inl (Adjusts.configured updates).pending_eq))
  | noted shown _ | asked shown _ _ | released shown _ =>
      exact quiet (onScreen shown rfl (.inl rfl))
  | inked shown step =>
      exact quiet (onScreen shown rfl (.inl step.pending.2))
  | @accepted session surface frame validated _ _ _ _ next _ admits commits =>
      have admitted := Session.admits_of_admitFrame admits
      obtain ⟨_, _, _, _, _, base, _, rfl⟩ := commitTimed_eq_ok commits
      refine .inr (.inr ⟨frame, validated, _, rfl, rfl, ?_, ?_, ?_⟩)
      · exact ⟨admitted.decodes.frameId, admitted.decodes.decodedBytes⟩
      · change session.face.credits ≠ 0
        rw [Session.credits_face]
        exact admitted.credit
      · intro enabled
        change validated.decodedBytes ≤ session.face.byteCredits
        rw [Session.byteCredits_face]
        exact admitted.affordable enabled
  | opened _ _ _ _ _ opens =>
      refine .inr (.inl ?_)
      exact opens.idle
  | closed _ _ => exact .inr (.inl rfl)
  | _ => exact .inl rfl

theorem FaceStep.result {before after : Station} {entries : List JournalEntry}
    {result : FrameResult} {pending : Option PendingPresentation}
    (step : FaceStep before entries after)
    (member : .sent (.frameResult result) pending ∈ entries) :
    pending = before.face.pendingFrame ∧
      result.credits = before.face.credits ∧
      result.byteCredits = before.face.byteCredits ∧
      (before.face.established = true ∨ before.owed.terminals ≠ []) := by
  cases step with
  | refused greeted _ answers =>
      simp only [List.mem_cons, JournalEntry.sent.injEq, List.not_mem_nil,
        or_false, reduceCtorEq, false_or] at member
      obtain ⟨same, rfl⟩ := member
      rw [answers] at same
      cases same
      exact ⟨rfl, rfl, rfl, .inl greeted⟩
  | reported due answers =>
      simp only [List.mem_singleton, JournalEntry.sent.injEq] at member
      obtain ⟨same, rfl⟩ := member
      rw [answers] at same
      cases same
      refine ⟨rfl, rfl, rfl, .inr ?_⟩
      rw [due]
      exact List.cons_ne_nil _ _
  | sent truthful =>
      simp only [List.mem_singleton, JournalEntry.sent.injEq] at member
      obtain ⟨rfl, _⟩ := member
      exact truthful.elim
  | inked _ step => cases step <;> simp at member
  | _ => simp at member

/-- What the results told so far, and what is pending, agree with the limits. -/
structure Station.Accounts (station : Station) : Prop where
  /-- Before the handshake nothing is answered. -/
  silent : station.face.established = false → station.owed.terminals = [] ∧
    ∀ result pending, .sent (.frameResult result) pending ∉
      station.face.journal.map (·.entry)
  covered : ∀ pending ∈ station.face.pendingFrame,
    0 < station.face.limits.maxInflight ∧
      (station.face.byteCreditsEnabled = true →
        pending.decodedBytes ≤ station.face.limits.maxInflightBytes)
  exact : ∀ result pending, .sent (.frameResult result) pending ∈
      station.face.journal.map (·.entry) →
    ExactCredits station.face.limits station.face.byteCreditsEnabled result
      pending

theorem exactCredits_of_face {face : Face} {result : FrameResult}
    (covered : ∀ pending ∈ face.pendingFrame,
      0 < face.limits.maxInflight ∧ (face.byteCreditsEnabled = true →
        pending.decodedBytes ≤ face.limits.maxInflightBytes))
    (credits : result.credits = face.credits)
    (byteCredits : result.byteCredits = face.byteCredits) :
    ExactCredits face.limits face.byteCreditsEnabled result
      face.pendingFrame := by
  unfold Face.credits at credits
  unfold Face.byteCredits at byteCredits
  cases isPending : face.pendingFrame with
  | none =>
      rw [isPending] at credits byteCredits
      refine ⟨by simpa using credits, fun enabled => ?_⟩
      rw [if_pos enabled] at byteCredits
      simpa using byteCredits
  | some pending =>
      obtain ⟨someCredit, affordable⟩ := covered pending isPending
      rw [isPending] at credits byteCredits
      constructor
      · simp only [Option.isSome_some, if_true] at credits
        simp only [Option.toList_some, List.length_singleton]
        omega
      · intro enabled
        have fits := affordable enabled
        simp only [enabled, if_true, Option.map_some,
          Option.getD_some] at byteCredits ⊢
        omega

theorem FaceStep.noTerminal {before after : Station}
    {entries : List JournalEntry} (step : FaceStep before entries after)
    (hidden : before.face.screen = none)
    (noTerminal : before.owed.terminals = []) : after.owed.terminals = [] := by
  cases step with
  | core shown _ _ | frozen shown _ _ =>
      rw [hidden] at shown
      cases shown
  | accepted admits _ =>
      rw [Session.screen_of_admits admits] at hidden
      cases hidden
  | reported due _ =>
      rw [noTerminal] at due
      cases due
  | batched _ source => exact source.terminals.trans noTerminal
  | opened _ _ _ _ _ _ | closed _ _ | forgotten _ => rfl
  | _ => exact noTerminal

theorem FaceStep.accounts {before after : Station} {entries : List JournalEntry}
    (step : FaceStep before entries after) (sound : before.face.Sound)
    (accounts : before.Accounts) : after.Accounts := by
  have isJournal := step.journal
  have fresh (unborn : before.face.established = false)
      (result : FrameResult) (pending : Option PendingPresentation) :
      .sent (.frameResult result) pending ∉
        after.face.journal.map (·.entry) := by
    rw [isJournal]
    intro member
    rcases List.mem_append.mp member with new | old
    · obtain ⟨_, _, _, greeted | due⟩ := step.result (List.mem_reverse.mp new)
      · rw [unborn] at greeted
        cases greeted
      · exact due (accounts.silent unborn).1
    · exact (accounts.silent unborn).2 result pending old
  have quiet (unborn : before.face.established = false) :
      after.owed.terminals = [] :=
    step.noTerminal (sound.greeted unborn) (accounts.silent unborn).1
  obtain ⟨sameLimits, ⟨sameGreeted, sameEnabled⟩ |
    ⟨unborn, sameScreen, _, _⟩⟩ := step.terms
  · refine ⟨fun unborn => ?_, ?_, ?_⟩
    · rw [sameGreeted] at unborn
      exact ⟨quiet unborn, fresh unborn⟩
    · rw [sameLimits, sameEnabled]
      rcases step.pending_cases with
        same | none | ⟨_, _, next, _, isNext, _, credit, fits⟩
      · rw [same]
        exact accounts.covered
      · rw [none]
        intro _ missing
        cases missing
      · intro pending isPending
        rw [isNext] at isPending
        cases isPending
        unfold Face.credits at credit
        refine ⟨by omega, fun enabled => ?_⟩
        have affordable := fits enabled
        rw [Face.byteCredits, if_pos enabled] at affordable
        omega
    · rw [sameLimits, sameEnabled, isJournal]
      intro result pending member
      rcases List.mem_append.mp member with new | old
      · obtain ⟨rfl, credits, byteCredits, _⟩ :=
          step.result (List.mem_reverse.mp new)
        exact exactCredits_of_face accounts.covered credits byteCredits
      · exact accounts.exact result pending old
  · refine ⟨fun _ => ⟨quiet unborn, fresh unborn⟩, ?_, ?_⟩
    · rw [Face.pendingFrame, sameScreen, sound.greeted unborn]
      intro _ missing
      cases missing
    · exact fun result pending member => (fresh unborn result pending member).elim

theorem handleInner_greeted {session after : Session} {envelope : Envelope}
    {now : Duration} {pollAfter : Bool} {responses : List Envelope}
    {frame : Frame} (sound : session.face.Sound)
    (runs : (Session.handleInner envelope now pollAfter).Runs session
      (.ok responses) after)
    (isFrame : envelope.body = some (.frame frame)) :
    session.established = true := by
  rcases Proc.runs_bind.mp runs with ⟨_, middle, checked, runs⟩ | ⟨_, failed, _⟩
  · obtain ⟨_, _, _, holds⟩ :=
      @Session.validateEnvelopeHeader_does session {} envelope sound _ _ checked
    obtain ⟨isMiddle, _, _⟩ := holds _ rfl
    rw [Proc.runs_get_bind] at runs
    simp only [isFrame] at runs
    by_contra fresh
    have isFresh : middle.established = false := by
      rw [isMiddle]
      simpa using fresh
    simp only [isFresh, Bool.false_eq_true, if_false] at runs
    rcases Proc.runs_bind.mp runs with ⟨_, _, first, _⟩ | ⟨_, failed, _⟩
    · obtain ⟨impossible, _⟩ := Proc.runs_throw.mp first
      cases impossible
    · cases failed
  · cases failed

theorem Acts.frames {event : SessionEvent} {left : Owed}
    (acts : Acts event left) (succeeds : event.Succeeds) :
    event.written.filterMap (·.frame) = event.input.frame.toList := by
  have handled {envelope : Envelope} {now : Duration} {pollAfter : Bool}
      {responses : List Envelope}
      (runs : (Session.handleInner envelope now pollAfter).Runs event.before
        (.ok responses) event.after) :
      (event.before.envelopeReach envelope now).frames =
        (SessionOp.frame (.handle envelope now)).toList := by
    unfold Session.envelopeReach
    change _ = (envelope.body.bind bodyFrame).toList
    cases isBody : envelope.body with
    | none => split <;> rfl
    | some body =>
        cases body with
        | frame frame =>
            rw [if_pos (handleInner_greeted acts.sound runs isBody)]
            rfl
        | _ => split <;> rfl
  have stepped := acts.stepped
  rw [(acts.within succeeds).frames]
  obtain ⟨envelopes, returned⟩ := succeeds
  unfold sessionStep procStep at stepped
  cases isOp : event.input with
  | handle envelope now | handleDeferred envelope now =>
      rw [isOp, returned] at stepped
      exact handled stepped
  | _ => rfl

theorem Station.Accounts.rest {face : Face} {owed : Owed}
    (accounts : Station.Accounts ⟨face, owed⟩) :
    Station.Accounts ⟨face, {}⟩ where
  silent := fun unborn => ⟨rfl, (accounts.silent unborn).2⟩
  covered := accounts.covered
  exact := accounts.exact

theorem SessionRun.accounts {setup : SessionSetup} {history : List SessionEvent}
    {final : Session} (run : SessionRun setup history final) :
    Station.Accounts ⟨final.face, {}⟩ := by
  refine (run.keeps (fun _ face => Station.Accounts ⟨face, {}⟩) ?_ ?_
    fun _ _ => True.intro).2
  · exact ⟨fun _ => ⟨rfl, fun _ _ missing => nomatch missing⟩,
      fun _ missing => (nomatch missing), fun _ _ missing => (nomatch missing)⟩
  · intro history event left _ acts accounts
    exact (acts.steps.keeps
      (fun station => station.face.Sound ∧ station.Accounts)
      (fun step both => ⟨step.sound both.1, step.accounts both.1 both.2⟩)
      ⟨acts.sound, accounts⟩).2.rest

theorem sent_of_body {entries : List JournalEntry} {body : Body}
    (member : body ∈ entries.filterMap (·.body)) :
    ∃ pending, .sent body pending ∈ entries := by
  obtain ⟨entry, isEntry, isBody⟩ := List.mem_filterMap.mp member
  cases entry with
  | sent found pending =>
      cases isBody
      exact ⟨pending, isEntry⟩
  | _ => cases isBody

/-- Every frame received is answered once or the one that is pending, and every
result tells the credits that are left. -/
structure FramesAnswered (history : List SessionEvent) (final : Session) :
    Prop where
  once : Settles [] (receivedFrames history) (answeredFrames history)
    final.face.pendingKeys
  exact : ∀ event ∈ history, ∀ result,
    .frameResult result ∈ bodies event.envelopes →
    ∃ pending, .sent (.frameResult result) pending ∈ event.written ∧
      ExactCredits event.after.config.limits event.after.byteCreditsEnabled
        result pending

/-- The steps of an event settle its frames. -/
theorem Acts.settles {event : SessionEvent} {left : Owed}
    (acts : Acts event left) (succeeds : event.Succeeds)
    (isOpen : event.after.closed = false) :
    Settles event.before.face.pendingKeys
      (event.input.frame.map frameKey).toList
      ((bodies event.envelopes).filterMap resultKey)
      event.after.face.pendingKeys := by
  have settles {before after : Station} {entries : List JournalEntry}
      (steps : Steps before entries after) (sound : before.face.Sound)
      (isOpen : after.face.closed = false) :
      Settles before.awaited (entries.filterMap (·.frameKey))
        (entries.filterMap (·.resultKey)) after.awaited := by
    induction steps with
    | nil => exact Settles.refl _
    | cons step rest induction =>
        rw [List.filterMap_append, List.filterMap_append]
        exact (step.settles sound (rest.stillOpen isOpen)).trans
          (induction (step.sound sound) isOpen)
  have settled := settles acts.steps acts.sound isOpen
  obtain ⟨loose, isLeft, _⟩ := acts.settled succeeds
  rw [isLeft] at settled
  have sameFrames : event.written.filterMap (·.frameKey) =
      (event.input.frame.map frameKey).toList := by
    rw [Option.toList_map, ← acts.frames succeeds, List.map_filterMap]
    rfl
  have sameResults : event.written.filterMap (·.resultKey) =
      (bodies event.envelopes).filterMap resultKey := by
    rw [acts.returned succeeds isOpen, List.filterMap_filterMap]
    rfl
  rw [sameFrames, sameResults] at settled
  simpa [Station.awaited] using settled

/-- In every run without an error, up to the step that closes the session,
every frame is answered once. -/
theorem framesAnswered_of_run {setup : SessionSetup}
    {history : List SessionEvent} {final : Session}
    (run : SessionRun setup history final)
    (succeed : ∀ event ∈ history, event.Succeeds)
    (isOpen : final.closed = false) : FramesAnswered history final := by
  constructor
  · refine (run.keeps (fun history face => face.closed = false →
      Settles [] (receivedFrames history) (answeredFrames history)
        face.pendingKeys) (fun _ => Settles.refl []) ?_ succeed).2 isOpen
    intro history event left succeeds acts settled isOpen
    have wasOpen := acts.steps.stillOpen isOpen
    refine ((settled wasOpen).trans (acts.settles succeeds isOpen)).congr ?_ ?_
    · exact List.perm_append_comm
    · exact List.perm_append_comm
  · intro event member result sent
    obtain ⟨left, acts⟩ := run.acts_of_mem member
    obtain ⟨newer, older, split⟩ := List.append_of_mem member
    have succeeds := succeed event member
    rw [acts.returned succeeds (run.open_of_mem isOpen member)] at sent
    obtain ⟨pending, written⟩ := sent_of_body sent
    refine ⟨pending, written, ?_⟩
    refine (run.after_of_split split).accounts.exact result pending ?_
    change _ ∈ event.after.face.journal.map (·.entry)
    rw [acts.steps.journal]
    exact List.mem_append_left _ (List.mem_reverse.mpr written)

/-- A keyframe is superseded by the next one, which stays pending. -/
theorem framesAnswered_of_superseded :
    ∃ history final,
      SessionRun (.gray 1 1 (fun _ => true) (fun _ => some {})) history final ∧
        receivedFrames history = [⟨1, 1, 2⟩, ⟨1, 1, 1⟩] ∧
        FramesAnswered history final := by
  have ran := @SessionSetup.ran (.gray 1 1 (fun _ => true) (fun _ => some {}))
    [.handleDeferred ⟨1, 4, some (grayFrame 1 1 2 0 .settled ⟨0, 0, 1, 1⟩ [7])⟩ 0,
      .handleDeferred ⟨1, 3, some (grayFrame 1 1 1 0 .latest ⟨0, 0, 1, 1⟩ [9])⟩ 0,
      grayMessage 2 (grayOpen 1 []) 0,
      grayMessage 1 (.clientHello (grayHello [.byteCredits])) 0]
    (fun history final => allSucceed history && !final.closed &&
      (receivedFrames history == [⟨1, 1, 2⟩, ⟨1, 1, 1⟩]))
    (by decide +kernel)
  obtain ⟨history, final, run, checked⟩ := ran
  simp only [Bool.and_eq_true, Bool.not_eq_true', beq_iff_eq] at checked
  obtain ⟨⟨succeed, isOpen⟩, received⟩ := checked
  exact ⟨history, final, run, received, framesAnswered_of_run run
    (succeeds_of_allSucceed succeed) isOpen⟩

end RmDisplay.Receiver
