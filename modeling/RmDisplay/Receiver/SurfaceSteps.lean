import RmDisplay.Receiver.Conduct

/-!
# Frames and surfaces as steps of the face

Accepting or refusing a frame, and opening, replacing and closing a surface.
-/

namespace RmDisplay.Receiver

open Foundation Protocol RmDisplay.Core Core.DisplayCore

namespace Session

section

variable {before : Session} {owed : Owed}

theorem readStopwatch_does :
    Does readStopwatch before owed fun _ after left entries =>
      after = { before with readings := before.readings + 1 } ∧ left = owed ∧
        entries = [] :=
  Does.get (Does.setQuiet rfl (Does.pure ⟨rfl, rfl, rfl⟩))

/-- A frame is accepted, or refused and answered. -/
theorem acceptFrame_does {frame : Frame} {now : Duration}
    (greeted : before.established = true) (noTerminal : owed.terminals = []) :
    Does (acceptFrame frame now) before owed
      (Replies [] owed { frames := [frame] }) := by
  refine Does.get ?_
  cases admitted : before.admitFrame frame with
  | error verdict => exact refuseFrame_does greeted (.inl admitted)
  | ok pair =>
      obtain ⟨surface, validated⟩ := pair
      refine Does.silently _ readStopwatch_does (.plain _) ?_
      rintro stopwatch after _ _ ⟨rfl, rfl, rfl⟩ _
      refine ⟨rfl, .nil ⟨rfl, rfl, rfl⟩, ?_⟩
      have admits : ({ before with
          readings := before.readings + 1 } : Session).admitFrame frame =
          .ok (surface, validated) := admitted
      dsimp only
      split
      · rename_i report core commits
        refine Does.step (Steps.single (.accepted admits commits)) rfl
          (.plainAfter _) ⟨rfl, rfl, nofun, fun _ member => ?_⟩ ?_
        · rw [List.mem_singleton.mp member]
          trivial
        · exact (terminalResults_given _ noTerminal).replies
      · rename_i err commits
        exact refuseFrame_does greeted
          (.inr ⟨_, _, _, _, _, err, admits, commits, rfl⟩)
      · exact Does.panic

theorem cancelPending_does :
    Does cancelPending before owed fun terminal after left entries =>
      (after.face = { before.face with
          screen := before.face.screen.map fun screen =>
            { screen with core := screen.core.cancelPending.2 } } ∧
        left = owed.gives terminal.toList) ∧ entries = [] := by
  refine Does.get ?_
  cases shown : before.surface with
  | none =>
      refine Does.pure ⟨⟨?_, ?_⟩, rfl⟩
      · simp [face, shown]
      · exact Owed.gives_nil.symm
  | some surface =>
      have isScreen := screen_of_surface shown
      have cancels : FaceStep ⟨before.face, owed⟩ [] _ :=
        .core isScreen (show Plain .cancel from trivial) .cancel
      refine Does.setSteps _ _ (Steps.single cancels) (Does.pure ⟨⟨?_, rfl⟩, rfl⟩)
      rw [isScreen]
      rfl

theorem newCore_opens {session : Session} {pixelFormat : PixelFormat}
    {core : DisplayCore} {face : Face}
    (fresh : session.newCore pixelFormat = .ok core)
    (cleanup : face.cleanupKept = session.carryCleanup)
    (debt : face.debtKept = session.carryDebt)
    (kept : face.debtKept = face.debt)
    (pending : face.cleanupPending = true → face.cleanupKept = true) :
    Opens face core := by
  unfold newCore at fresh
  obtain ⟨first, created, restored⟩ := Res.bind_eq_ok.mp fresh
  obtain ⟨coherent, blank, invalid, _, _⟩ := @newCore_spec
    ⟨session.panel.info.width, session.panel.info.height, pixelFormat,
      session.config.limits.maxFpsX100,
      .ofMillis session.config.limits.settledDeadlineMs,
      session.config.refreshPolicy, session.panel.info,
      session.panel.pumpReply, session.panel.submitReply⟩ first created
  have dyed : Coherent (first.setInkWaveform session.config.inkWaveform) :=
    Adjusts.waveform.coherent coherent
  unfold restoreRefreshDebt at restored
  obtain ⟨policy, debts, same⟩ := Res.bind_eq_ok.mp restored
  have isRestored := restored
  rw [Res.mapError_eq_ok] at debts
  obtain ⟨_, _, samePolicy⟩ := Res.bind_eq_ok.mp debts
  cases same
  cases samePolicy
  have carried : Coherent (if session.carryCleanup then
      (first.setInkWaveform session.config.inkWaveform).requireCleanup
      else first.setInkWaveform session.config.inkWaveform) := by
    split
    · exact Adjusts.armed.coherent dyed
    · exact dyed
  refine ⟨(Adjusts.restored restored).coherent carried, ?_, ?_, ?_, ?_, ?_,
    kept, pending⟩
  · cases session.carryCleanup <;> exact blank.ids
  · cases session.carryCleanup <;> exact blank.idle
  · cases session.carryCleanup <;> exact invalid
  · rw [cleanup]
    cases session.carryCleanup with
    | true => rfl
    | false => exact blank.disarmed
  · exact debt.symm

theorem cleanupPending_face (session : Session) :
    session.face.cleanupPending = session.currentCleanupPending := by
  simp only [Face.cleanupPending, currentCleanupPending, face]
  cases session.surface <;> rfl

theorem carryCleanup_face (session : Session) :
    (session.face.cleanupKept || session.face.cleanupPending) =
      session.carryCleanup := by
  rw [cleanupPending_face, currentCleanupPending, carryCleanup]
  cases session.surface with
  | none => exact (Bool.or_self _).trans (Bool.or_false _).symm
  | some _ => rfl

theorem debt_face (session : Session) :
    session.face.debt = session.carryDebt := by
  simp only [Face.debt, carryDebt, face]
  cases session.surface <;> rfl

theorem isSome_screen (session : Session) :
    session.face.screen.isSome = session.surface.isSome :=
  Option.isSome_map

/-- What the active surface carries on is kept for a later one. -/
theorem steps_kept {session : Session}
    (shown : session.face.screen.isSome = true) :
    Steps ⟨session.face, owed⟩ []
      ⟨{ session.face with
          cleanupKept := session.surface.any (·.core.forceCleanupNext)
          debtKept := session.carryDebt }, owed⟩ := by
  have isKept : session.face.cleanupPending =
      session.surface.any (·.core.forceCleanupNext) := by
    rw [cleanupPending_face, currentCleanupPending]
    rw [isSome_screen] at shown
    obtain ⟨surface, isSurface⟩ := Option.isSome_iff_exists.mp shown
    rw [isSurface]
    rfl
  rw [← debt_face, ← isKept]
  exact Steps.cons (.carried .debt) (Steps.single (.carried .cleanup))

theorem installSurface_does {request : SurfaceOpen} {pixelFormat : PixelFormat}
    {sourceKind : SourceKind} (greeted : before.established = true) :
    Does (installSurface request pixelFormat sourceKind) before {}
      (Replies [] {} { moves := true }) := by
  refine Does.get (Does.setStep .nil rfl (.plain _) (.nil ⟨rfl, rfl, rfl⟩) ?_)
  refine Does.ofRes fun core fresh => ?_
  have carries : FaceStep ⟨before.face, {}⟩ []
      ⟨{ before.face with
          cleanupKept := before.carryCleanup
          debtKept := before.carryDebt }, {}⟩ := by
    rw [← carryCleanup_face, ← debt_face]
    exact .carried .both
  refine Does.stepQuietly (Steps.single carries) ?_
  refine Does.silently _ cancelPending_does (.plain _) ?_
  rintro cancelled middle _ _ ⟨⟨isMiddle, rfl⟩, rfl⟩ _
  refine ⟨rfl, .nil ⟨rfl, rfl, rfl⟩, ?_⟩
  refine Does.tell (terminalResults_given _ rfl) ?_
  intro responses after unchanged
  replace isMiddle : middle.face = { before.face with
      screen := before.face.screen.map fun screen =>
        { screen with core := screen.core.cancelPending.2 }
      cleanupKept := before.carryCleanup
      debtKept := before.carryDebt } := isMiddle
  rw [Unchanged, isMiddle] at unchanged
  have idle : after.face.pendingFrame = none := by
    rw [unchanged, Face.pendingFrame]
    cases before.face.screen <;> rfl
  have opens : Opens after.face core := by
    rw [unchanged]
    refine newCore_opens fresh rfl rfl ?_ ?_
    · change before.carryDebt = _
      rw [← debt_face]
      simp only [Face.debt]
      cases before.face.screen <;> rfl
    · intro isPending
      change before.carryCleanup = true
      simp only [Face.cleanupPending] at isPending
      cases shown : before.face.screen with
      | none =>
          rw [shown] at isPending
          exact isPending
      | some screen =>
          rw [shown] at isPending
          rw [← carryCleanup_face, Face.cleanupPending, shown, Bool.or_eq_true]
          exact .inr isPending
  have isGreeted : after.face.established = true := by
    rw [unchanged]
    exact greeted
  simp only [← cleanupPending_face]
  refine Does.step (Steps.single (.opened isGreeted idle request.surfaceId
    (max before.nextGeneration 1) _ opens)) rfl (.plainAfter _)
    (.single rfl rfl rfl ⟨rfl, rfl, rfl⟩) ?_
  refine Does.send (wrap_sends trivial) ?_
  intro ready final _
  exact Does.reply (by simp) ⟨rfl, rfl, rfl⟩

theorem openSurface_does {request : SurfaceOpen}
    (greeted : before.established = true) :
    Does (openSurface request) before {} (Replies [] {} { moves := true }) := by
  refine Does.get ?_
  split
  · exact Does.throw
  · split
    · exact Does.throw
    · split
      · exact Does.throw
      · split
        · exact Does.throw
        · exact installSurface_does greeted

theorem closeSurface_does {surfaceId generation : Nat} :
    Does (closeSurface surfaceId generation) before {}
      (Replies [] {} { moves := true }) := by
  refine Does.get ?_
  split
  · exact Does.reply rfl ⟨rfl, rfl, rfl⟩
  · rename_i active
    have shown : before.face.screen.isSome = true := by
      rw [isSome_screen]
      cases isSurface : before.surface with
      | none => simp [isSurface] at active
      | some _ => rfl
    refine Does.silently _ cancelPending_does (.plain _) ?_
    rintro cancelled middle _ _ ⟨⟨isMiddle, rfl⟩, rfl⟩ _
    refine ⟨rfl, .nil ⟨rfl, rfl, rfl⟩, ?_⟩
    have isShown : middle.face.screen.isSome = true := by
      rw [isMiddle]
      exact Option.isSome_map.trans shown
    refine Does.stepQuietly (steps_kept isShown) ?_
    refine Does.tell (terminalResults_given _ rfl) ?_
    intro responses after unchanged
    replace unchanged : after.face = { middle.face with
        cleanupKept := middle.surface.any (·.core.forceCleanupNext)
        debtKept := middle.carryDebt
        journal := after.face.journal } := unchanged
    have idle : after.face.pendingFrame = none := by
      rw [unchanged, Face.pendingFrame, isMiddle]
      cases before.face.screen <;> rfl
    have kept : after.face.cleanupKept = after.face.cleanupPending ∧
        after.face.debtKept = after.face.debt := by
      have isSurface := isShown
      rw [isSome_screen] at isSurface
      obtain ⟨surface, isSurface⟩ := Option.isSome_iff_exists.mp isSurface
      rw [unchanged, Face.cleanupPending, Face.debt, carryDebt, isSurface]
      simp [face, isSurface, ActiveSurface.screen]
    refine Does.step (Steps.single (.closed idle kept)) rfl (.plainAfter _)
      (.single rfl rfl rfl ⟨rfl, rfl, rfl⟩) ?_
    exact Does.reply (by simp) ⟨rfl, rfl, rfl⟩

end

end Session

end RmDisplay.Receiver
