import RmDisplay.Receiver.InputSteps

/-!
# Operations as steps of the face

Every operation of a session is a sequence of steps of its face.  What a run
of operations does to the face follows from what one step does.
-/

namespace RmDisplay.Receiver

open Foundation Protocol RmDisplay.Core Core.DisplayCore

namespace Session

section

variable {before : Session} {owed : Owed} {surface : ActiveSurface}

theorem acceptHello_does {hello : ClientHello}
    (first : before.established = false) :
    Does (acceptHello hello) before owed fun envelope after left entries =>
      Replies [] owed {} [envelope] after left entries := by
  refine Does.get (Does.ofRes fun _ _ => Does.ofRes fun selectedMinor _ => ?_)
  have greets := Steps.single (@FaceStep.greeted before.face owed first
    (decide (1 ≤ selectedMinor)))
  refine Does.setSteps _ _ greets ?_
  refine (wrap_sends ?_).mono fun _ _ _ _ _ sent => sent.2
  trivial

/-- What handling a body may do. -/
def bodyReach (self : Session) (now : Duration) : Body → Reach
  | .frame frame => { frames := [frame] }
  | .surfaceOpen _ | .surfaceClose _ _ => { moves := true }
  | .overlayUpdate update =>
      { bounds := changeBounds
          (self.overlayApplies update && overlayRearms update) now }
  | _ => {}

theorem poll_does {now : Duration} (noTerminal : owed.terminals = []) :
    Does (poll now) before owed (Replies [] owed {}) := by
  have keeps (session : Session) (terminals : List TerminalFrame)
      (shown : session.face.screen.isSome = true) :
      Does (do
          keepCarried
          terminalResults terminals) session (owed.gives terminals)
        (Replies [] owed {}) :=
    Does.stepQuietly (steps_kept shown)
      (terminalResults_given _ noTerminal).replies
  refine Does.get ?_
  split
  · exact Does.reply rfl ⟨rfl, rfl, rfl⟩
  · rename_i surface shown
    dsimp only
    split
    · refine Does.silently _ (askCore_does shown fun coherent timing isNow =>
        tickInteractive_core (screen_of_surface shown) coherent isNow)
        (.plain _) ?_
      rintro terminals after _ _ ⟨rfl, world, _, isAfter, rfl, rfl⟩ _
      have isShown : after.face.screen.isSome = true := by
        rw [isAfter]
        rfl
      have asked : Reach.Holds {} [.asked .idle] :=
        .single rfl rfl trivial ⟨rfl, rfl, rfl⟩
      rw [Owed.asked_other (by simp)]
      cases before.interactionIdle now && surface.core.idleCleanupDue now with
      | true => exact ⟨rfl, asked, keeps after _ isShown⟩
      | false => exact ⟨rfl, .nil ⟨rfl, rfl, rfl⟩, keeps after _ isShown⟩
    · refine Does.silently _ (runCore_does shown fun coherent timing _ =>
        tickWithoutIdleCleanup_core (screen_of_surface shown) coherent)
        (.plain _) ?_
      rintro terminals after _ _ ⟨rfl, world, _, isAfter, rfl, rfl⟩ _
      refine ⟨rfl, .nil ⟨rfl, rfl, rfl⟩, keeps after _ ?_⟩
      rw [isAfter]
      rfl

theorem handleBody_does {body : Body} {now : Duration}
    (greeted : before.established = true) :
    Does (handleBody body now) before {}
      (Replies [] {} (before.bodyReach now body)) := by
  have throws {reach : Reach} : Does
      (Proc.throw .illegalDirection : SessionProc (List Envelope)) before {}
      (Replies [] {} reach) := Does.throw
  cases body with
  | ping cookie =>
      refine (Does.one (wrap_sends ?_)).replies
      trivial
  | goodbye =>
      refine Does.step steps_ended rfl (.plain _) (.nil ⟨rfl, rfl, rfl⟩) ?_
      exact Does.reply rfl ⟨rfl, rfl, rfl⟩
  | surfaceOpen request =>
      refine Does.call (openSurface_does greeted)
        (.before (.refl _) ⟨rfl, rfl, rfl⟩) ?_
      intro responses after entries _ _
      refine Does.step (Steps.single (.clocked now)) rfl (.plainAfter _)
        (.single rfl rfl rfl ⟨rfl, rfl, rfl⟩) ?_
      exact Does.reply rfl ⟨rfl, rfl, rfl⟩
  | surfaceClose surfaceId generation => exact closeSurface_does
  | overlayUpdate update => exact overlayUpdate_does rfl
  | frame frame => exact acceptFrame_does greeted rfl
  | epaperProfileRequest request => exact handleEpaperProfile_does rfl
  | epaperRefreshRequest request => exact handleEpaperRefresh_does rfl
  | actionResult => exact Does.reply rfl ⟨rfl, rfl, rfl⟩
  | _ => exact throws

theorem handleFirst_does {body : Body} (first : before.established = false) :
    Does (handleFirst body) before owed (Replies [] owed {}) := by
  unfold handleFirst
  split
  · exact Does.one (acceptHello_does first)
  · exact Does.throw

/-- What handling an envelope may do. -/
def envelopeReach (self : Session) (envelope : Envelope) (now : Duration) :
    Reach :=
  if self.established then
    (envelope.body.map (self.bodyReach now)).getD {}
  else {}

theorem validateEnvelopeHeader_does {envelope : Envelope} :
    Does (validateEnvelopeHeader envelope) before owed
      fun _ after left entries =>
        after = { before with lastIncomingMessageId := envelope.messageId } ∧
          left = owed ∧ entries = [] := by
  refine Does.get ?_
  split
  · exact Does.throw
  · split
    · exact Does.throw
    · exact Does.computes owed [] rfl .nil ⟨rfl, rfl, rfl⟩

theorem handleInner_does {envelope : Envelope} {now : Duration}
    {pollAfter : Bool} :
    Does (handleInner envelope now pollAfter) before {}
      (Replies [] {} (before.envelopeReach envelope now)) := by
  have finishes (responses : List Envelope) (session : Session) :
      Does (if pollAfter then do
          let polled ← poll now
          return responses ++ polled
        else return responses) session {}
        (Replies (bodies responses) {} {}) := by
    split
    · refine Does.call (poll_does rfl) (.plain _) ?_
      intro polled after entries _ _
      exact Does.reply (by simp) ⟨rfl, rfl, rfl⟩
    · exact Does.reply rfl ⟨rfl, rfl, rfl⟩
  refine Does.silently _ validateEnvelopeHeader_does (.plain _) ?_
  rintro _ after _ _ ⟨rfl, rfl, rfl⟩ _
  refine ⟨rfl, .nil ⟨rfl, rfl, rfl⟩, Does.get ?_⟩
  split
  · exact Does.throw
  · rename_i body isBody
    dsimp only
    unfold envelopeReach
    split
    · rename_i greeted
      have isGreeted : before.established = true := greeted
      rw [isBody]
      have handles := @handleBody_does
        { before with lastIncomingMessageId := envelope.messageId } body now
        isGreeted
      refine Does.call handles (.plainAfter _) ?_
      exact fun responses session _ _ _ => finishes responses session
    · rename_i fresh
      have isFresh : before.established = false := Bool.eq_false_iff.mpr fresh
      refine Does.call (handleFirst_does isFresh) (.plain _) ?_
      exact fun responses session _ _ _ => finishes responses session

/-- What an operation may do. -/
def opReach (self : Session) : SessionOp → Reach
  | .handle envelope now | .handleDeferred envelope now =>
      self.envelopeReach envelope now
  | .poll _ | .requestCleanup _ | .setPenAvailable _ | .setFreezeOnPenDown _
  | .setAutomaticIdleCleanup _ => {}
  | .penReports reports _ => { pens := fun record => record ∈ reports.flatten }
  | .inputReports reports _ => touchReach (reports.flatMap heard)
  | .powerKeyPressed _ => cancelReach false self.face
  | .inputCaptureFailed _ => cancelReach true self.face
  | .closeLocalMenu _ => { menu := true }
  | .setFrameFrozen frozen now =>
      { bounds := changeBounds (self.surface.any (·.inkFrozen != frozen)) now }
  | .clearInk now => { bounds := [now] }
  | .setLocalInk enabled now =>
      { bounds := changeBounds (self.surface.any (·.localInk != enabled)) now }
  | .setInkPaused paused now =>
      { bounds := changeBounds (self.surface.any (·.inkPaused != paused)) now }

/-- A procedure without an answer. -/
theorem silent_does {procedure : SessionProc Unit} {reach : Reach}
    (does : Does procedure before owed (Silent owed reach)) :
    Does (do
        procedure
        return []) before owed (Replies [] owed reach) := by
  refine Does.silently _ does (.plainAfter _) ?_
  rintro _ after _ entries ⟨rfl, silent, within⟩ _
  exact ⟨silent, within, Does.reply rfl ⟨rfl, rfl, rfl⟩⟩

theorem quiet_does {change : Session → Session}
    (same : (change before).face = before.face) :
    Does (do
        Proc.modify change
        return []) before owed (Replies [] owed {}) :=
  Does.quiet same (Does.reply rfl ⟨rfl, rfl, rfl⟩)

/-- Every operation is a sequence of steps.  Only closing the menu from outside
may leave contacts loose. -/
theorem operation_does (op : SessionOp) :
    Does op.run before {} fun envelopes after left entries =>
      ∃ loose, Replies [] { loose } (before.opReach op) envelopes after left
        entries ∧ (loose = true → ∃ now, op = .closeLocalMenu now) := by
  have tight {procedure : SessionProc (List Envelope)} {reach : Reach}
      (does : Does procedure before {} (Replies [] {} reach)) :
      Does procedure before {} fun envelopes after left entries =>
        ∃ loose, Replies [] { loose } reach envelopes after left entries ∧
          (loose = true → ∃ now, op = .closeLocalMenu now) :=
    does.mono fun _ _ _ _ _ replies => ⟨false, replies, nofun⟩
  cases op with
  | handle envelope now => exact tight handleInner_does
  | handleDeferred envelope now => exact tight handleInner_does
  | poll now => exact tight (poll_does rfl)
  | penReports reports now =>
      exact tight (penReportsInner_does (fun _ _ _ _ => .inl rfl) rfl)
  | inputReports reports now => exact tight inputReports_does
  | powerKeyPressed now => exact tight powerKeyPressed_does
  | inputCaptureFailed now => exact tight inputCaptureFailed_does
  | closeLocalMenu now =>
      refine (closeLocalMenu_does rfl rfl).mono ?_
      rintro envelopes after left entries - ⟨loose, replies⟩
      exact ⟨loose, replies, fun _ => ⟨now, rfl⟩⟩
  | setFrameFrozen frozen now => exact tight (setFrameFrozen_does rfl)
  | clearInk now => exact tight (clearInk_does rfl)
  | setLocalInk enabled now => exact tight (silent_does setLocalInk_does)
  | setInkPaused paused now => exact tight (silent_does setInkPaused_does)
  | requestCleanup now =>
      refine tight (Does.bind _ (requestCleanup_does rfl nofun fun _ => rfl) ?_)
      rintro ⟨report, responses⟩ after left entries ⟨_, isLeft, same, within⟩ _
      rw [Owed.asked_other (by simp)] at isLeft
      subst isLeft
      refine Does.pure ⟨rfl, ?_, ?_⟩
      · rwa [List.append_nil]
      · rwa [List.append_nil]
  | setPenAvailable available => exact tight (silent_does setPenAvailable_does)
  | setFreezeOnPenDown enabled => exact tight (quiet_does rfl)
  | setAutomaticIdleCleanup enabled => exact tight (quiet_does rfl)

end

end Session

end RmDisplay.Receiver
