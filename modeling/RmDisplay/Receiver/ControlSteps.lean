import RmDisplay.Receiver.SurfaceSteps

/-!
# Control as steps of the face

Requests of the application, the local menu, the overlay of the producer and
requests about refresh settings.
-/

namespace RmDisplay.Receiver

open Foundation Protocol RmDisplay.Core Core.DisplayCore

/-- The procedure builds no envelope. -/
def Silent {α : Type} (left : Owed) (reach : Reach) : Post α :=
  fun _ _ remaining entries => remaining = left ∧
    entries.filterMap (·.body) = [] ∧ reach.Holds entries

theorem Owed.asked_other {owed : Owed} {cause : CleanupCause} {asks : Bool}
    (other : cause ≠ .chord) : owed.asked cause asks = owed := by
  cases cause with
  | chord => exact absurd rfl other
  | request | profile | offscreen | idle =>
      have unchanged : (owed.chord && !(asks && false)) = owed.chord := by simp
      exact congrArg (fun chord => { owed with chord }) unchanged

theorem Steps.rearm {station : Station} {owed : Owed} {face : Face} {screen : Screen}
    {entries : List JournalEntry}
    (steps : Steps station entries ⟨face, owed⟩)
    (shown : face.screen = some screen) (since : Duration)
    (paused localInk : Bool) :
    Steps station (entries ++ [.boundary since paused])
      ⟨{ face.note (.boundary since paused) with
          screen := some { screen with
            localInk
            inkPaused := paused
            penPoint := none
            inkNeedsDown := true
            inkNotBefore := max screen.inkNotBefore since } }, owed⟩ :=
  steps.append (.single (.inked shown (.rearmed since paused localInk)))

namespace Session

section

variable {before : Session} {owed : Owed} {surface : ActiveSurface}

/-- Ink starts anew on the active surface. -/
theorem steps_rearmed (shown : before.surface = some surface)
    (since : Duration) (paused localInk : Bool) :
    Steps ⟨before.face, owed⟩ [.boundary since paused]
      ⟨{ before.face.note (.boundary since paused) with
          screen := some { surface.screen with
            localInk
            inkPaused := paused
            penPoint := none
            inkNeedsDown := true
            inkNotBefore := max surface.inkNotBefore since } }, owed⟩ :=
  Steps.nil.rearm (screen_of_surface shown) since paused localInk

theorem steps_cleared (shown : before.surface = some surface) :
    Steps ⟨before.face, owed⟩ [.inkCleared surface.core.ink.clear.planes]
      ⟨{ before.face.note (.inkCleared surface.core.ink.clear.planes) with
          screen := some (surface.clearPlane .ink).screen }, owed⟩ :=
  .single (.inked (screen_of_surface shown) .cleared)

/-- When a call that sets a flag of the surface makes ink start anew. -/
def changeBounds (changes : Bool) (now : Duration) : List Duration :=
  if changes then [now] else []

theorem setLocalInk_does {enabled : Bool} {now : Duration} :
    Does (setLocalInk enabled now) before owed (Silent owed {
      bounds := changeBounds (before.surface.any (·.localInk != enabled)) now
    }) := by
  refine Does.get ?_
  split
  · exact Does.throw
  · split
    · exact Does.throw
    · rename_i surface shown
      split
      · rename_i changes
        refine Does.computes owed [.boundary now surface.inkPaused] rfl
          (steps_rearmed shown now surface.inkPaused enabled) ⟨rfl, rfl, ?_⟩
        simp only [shown, Option.any_some, changes, changeBounds, if_true]
        exact .boundary now _
      · rename_i same
        refine Does.pure ⟨rfl, rfl, .nil ⟨rfl, rfl, ?_⟩⟩
        simp [shown, same, changeBounds]

theorem setInkPaused_does {paused : Bool} {now : Duration} :
    Does (setInkPaused paused now) before owed (Silent owed {
      bounds := changeBounds (before.surface.any (·.inkPaused != paused)) now
    }) := by
  refine Does.get ?_
  split
  · exact Does.throw
  · rename_i surface shown
    split
    · rename_i changes
      refine Does.computes owed [.boundary now paused] rfl
        (steps_rearmed shown now paused surface.localInk) ⟨rfl, rfl, ?_⟩
      simp only [shown, Option.any_some, changes, changeBounds, if_true]
      exact .boundary now _
    · rename_i same
      refine Does.pure ⟨rfl, rfl, .nil ⟨rfl, rfl, ?_⟩⟩
      simp [shown, same, changeBounds]

/-- What the core still shows is drawn and its terminals are reported. -/
theorem presentPlane_tells {intent : FrameIntent} {now : Duration}
    (shown : before.surface = some surface) (noTerminal : owed.terminals = []) :
    Does (do
        let terminals ← runCore now fun timing => presentPlane timing intent
        terminalResults terminals) before owed (Replies [] owed {}) := by
  refine Does.silently _ (runCore_does shown fun coherent timing _ =>
    presentPlane_core (screen_of_surface shown) coherent intent) (.plain _) ?_
  rintro terminals after _ _ ⟨rfl, world, _, isAfter, rfl, rfl⟩ _
  exact ⟨rfl, .nil ⟨rfl, rfl, rfl⟩,
    (terminalResults_given _ noTerminal).replies⟩

theorem clearInk_does {now : Duration} (noTerminal : owed.terminals = []) :
    Does (clearInk now) before owed
      (Replies [] owed { bounds := [now] }) := by
  refine Does.get ?_
  split
  · exact Does.throw
  · rename_i surface shown
    have clears := @steps_cleared _ owed _ shown
    refine Does.setStep (clears.rearm rfl now surface.inkPaused
      surface.localInk) rfl
      (.plainAfter _) ?_
      (presentPlane_tells rfl noTerminal)
    exact Reach.Holds.append (.before (.plain _) ⟨rfl, rfl, rfl⟩)
      (Reach.Holds.single rfl rfl trivial ⟨rfl, rfl, rfl⟩) (.boundary now _)

theorem surfaceKey_of_surface {session : Session}
    (shown : session.surface = some surface) :
    session.face.surfaceKey = (surface.surfaceId, surface.generation) := by
  rw [Face.surfaceKey, screen_of_surface shown]
  rfl

theorem surfaceKey_unchanged {before after : Session}
    (unchanged : Unchanged before after) :
    after.face.surfaceKey = before.face.surfaceKey := by
  rw [unchanged]
  rfl

theorem inputBatch_does {surfaceId generation sequence : Nat}
    {records : List PointerRecord} {now : Duration} {left : Owed}
    (key : before.face.surfaceKey = (surfaceId, generation))
    (source : BatchSource before.face owed records left) :
    Does (inputBatch surfaceId generation sequence records now) before owed
      (Sends before left) := by
  refine Does.get (Does.setQuiet rfl ?_)
  refine wrap_does (.batched ⟨key.symm, ?_, ?_⟩ source)
  · exact (presentedFrameId_face before).symm
  · exact (inkFrozen_face before).symm

theorem pointerBatch_does {surfaceId generation : Nat}
    {report : List PhysicalPointerEvent} {now : Duration} {left : Owed}
    (key : before.face.surfaceKey = (surfaceId, generation))
    (source : BatchSource before.face owed (report.map pointerRecord) left) :
    Does (pointerBatch surfaceId generation report now) before owed
      (Sends before left) :=
  Does.get (inputBatch_does key source)

theorem noteFrozen_froze {next : ActiveSurface}
    (live : surface.inkFrozen = false) (frozen : next.inkFrozen = true) :
    before.noteFrozen surface next = before.note
      (.froze next.core.presentedFrameId next.core.presentedBase) := by
  simp [noteFrozen, live, frozen]

theorem noteFrozen_released {next : ActiveSurface}
    (frozen : surface.inkFrozen = true) (live : next.inkFrozen = false) :
    before.noteFrozen surface next = before.note .released := by
  simp [noteFrozen, live, frozen]

theorem noteFrozen_same {next : ActiveSurface}
    (same : next.inkFrozen = surface.inkFrozen) :
    before.noteFrozen surface next = before := by
  unfold noteFrozen
  rw [same]
  cases surface.inkFrozen <;> rfl

/-- The surface with its background frozen or released, and with ink that
starts anew. -/
def frozenAnew (surface : ActiveSurface) (frozen : Bool) (now : Duration) :
    ActiveSurface :=
  { surface.rearmInk now with
    inkFrozen := frozen
    core := if frozen then surface.core.freezePresented.2 else surface.core }

/-- The background is frozen or released, and ink starts anew. -/
theorem steps_frozen {frozen : Bool} {now : Duration}
    (shown : before.surface = some surface)
    (changes : surface.inkFrozen ≠ frozen)
    (presented : ¬ (frozen = true ∧ surface.core.presentedFrameId = 0)) :
    ∃ entry, [entry].filterMap (·.body) = [] ∧ Reach.Holds {} [entry] ∧
      Steps ⟨before.face, owed⟩ ([entry] ++ [.boundary now surface.inkPaused])
        ⟨Session.face
          { (before.noteFrozen surface (frozenAnew surface frozen now)).note
              (.boundary now surface.inkPaused) with
            surface := some (frozenAnew surface frozen now) },
          owed.gives (if frozen then surface.core.freezePresented.1.toList
            else [])⟩ := by
  have isScreen := screen_of_surface shown
  cases frozen with
  | true =>
      have live : surface.inkFrozen = false := Bool.eq_false_iff.mpr changes
      have isPresented : surface.screen.core.presentedFrameId ≠ 0 :=
        fun none => presented ⟨rfl, none⟩
      have freezes := Steps.single
        (@FaceStep.frozen _ _ owed isScreen live isPresented)
      rw [noteFrozen_froze live rfl]
      refine ⟨_, ?_, ?_, freezes.rearm rfl now surface.inkPaused
        surface.localInk⟩
      · rfl
      · exact .single rfl rfl trivial ⟨rfl, rfl, rfl⟩
  | false =>
      have frozen : surface.inkFrozen = true :=
        (Bool.eq_false_or_eq_true _).resolve_right changes
      have releases := Steps.single
        (@FaceStep.released _ _ owed isScreen frozen)
      rw [noteFrozen_released frozen rfl]
      change ∃ entry, _ ∧ _ ∧ Steps _ _ ⟨_, owed.gives []⟩
      rw [Owed.gives_nil]
      refine ⟨_, ?_, ?_, releases.rearm rfl now surface.inkPaused
        surface.localInk⟩
      · rfl
      · exact .single rfl rfl trivial ⟨rfl, rfl, rfl⟩

theorem setFrameFrozen_does {frozen : Bool} {now : Duration}
    (noTerminal : owed.terminals = []) :
    Does (setFrameFrozen frozen now) before owed (Replies [] owed {
      bounds := changeBounds (before.surface.any (·.inkFrozen != frozen)) now
    }) := by
  refine Does.get ?_
  split
  · exact Does.throw
  · rename_i surface shown
    split
    · rename_i same
      exact Does.reply rfl ⟨rfl, rfl, by simp [shown, same, changeBounds]⟩
    · rename_i changes
      split
      · exact Does.throw
      · rename_i presented
        have isBounds : changeBounds
            (before.surface.any (·.inkFrozen != frozen)) now = [now] := by
          simp [shown, changes, changeBounds]
        rw [isBounds]
        obtain ⟨entry, silent, allowed, steps⟩ :=
          @steps_frozen _ owed _ _ now shown changes presented
        have noBody : ([entry] ++ [JournalEntry.boundary now
            surface.inkPaused]).filterMap (·.body) = [] := by
          rw [List.filterMap_append, silent]
          rfl
        have within := allowed.append (.plain _) (Reach.Holds.boundary now
          surface.inkPaused)
        have answers (session : Session) (terminals : List TerminalFrame)
            (key : session.face.surfaceKey =
              (surface.surfaceId, surface.generation)) :
            Does (do
                let responses ← terminalResults terminals
                if surface.penForwardingEnabled then
                  let batch ← pointerBatch surface.surfaceId
                    surface.generation [] now
                  return responses ++ [batch]
                else return responses) session (owed.gives terminals)
              (Replies [] owed {}) := by
          refine Does.tell (terminalResults_given _ noTerminal) ?_
          intro responses after unchanged
          split
          · refine Does.send (pointerBatch_does
              ((surfaceKey_unchanged unchanged).trans key) .empty) ?_
            intro batch final _
            exact Does.reply (by simp) ⟨rfl, rfl, rfl⟩
          · exact Does.reply rfl ⟨rfl, rfl, rfl⟩
        cases frozen with
        | true =>
            exact Does.setStep steps noBody (.plainAfter _) within
              (answers _ _ rfl)
        | false =>
            exact Does.setStep steps noBody (.plainAfter _) within
              (answers _ _ rfl)

/-- A cleanup was asked for; its report says whether it is still to come. -/
def CleanupPost (owed : Owed) (cause : CleanupCause) :
    Post (CleanupReport × List Envelope) :=
  fun result after left entries =>
    result.1.cleanupPending = after.face.cleanupPending ∧
      Replies [] (owed.asked cause true) {} result.2 after left entries

theorem steps_carried {session : Session} {pending : Bool}
    (isPending : session.face.cleanupPending = pending) :
    Steps ⟨session.face, owed⟩ []
      ⟨{ session.face with
          debtKept := session.carryDebt
          cleanupKept := pending }, owed⟩ := by
  rw [← isPending, ← debt_face]
  exact Steps.cons (.carried .debt) (Steps.single (.carried .cleanup))

theorem cleanupPending_shown {face : Face} {screen : Screen}
    (shown : face.screen = some screen) :
    face.cleanupPending = screen.core.forceCleanupNext := by
  rw [Face.cleanupPending, shown]

theorem cleanupPending_hidden {face : Face} (hidden : face.screen = none) :
    face.cleanupPending = face.cleanupKept := by
  rw [Face.cleanupPending, hidden]

theorem requestCleanup_does {cause : CleanupCause} {now : Duration}
    (noTerminal : owed.terminals = [])
    (due : cause = .chord → owed.chord = true)
    (armed : before.surface = none → cause = .request) :
    Does (requestCleanup now cause) before owed (CleanupPost owed cause) := by
  have asked : Reach.Holds {} [.asked cause] :=
    .single rfl rfl trivial ⟨rfl, rfl, rfl⟩
  have answers (report : CleanupReport) (session : Session)
      (isPending : report.cleanupPending = session.face.cleanupPending) :
      Does (do
          let responses ← terminalResults report.terminals
          pure (report, responses)) session
        ((owed.asked cause true).gives report.terminals)
        (CleanupPost owed cause) := by
    refine Does.bind _ (terminalResults_given report.terminals noTerminal) ?_
    rintro responses final _ entries ⟨unchanged, rfl, same, within⟩ _
    refine Does.pure ⟨?_, rfl, ?_, ?_⟩
    · rw [isPending, unchanged]
      rfl
    · rwa [List.append_nil]
    · rwa [List.append_nil]
  have extend {result : CleanupReport × List Envelope} {final : Session}
      {left : Owed} {entries : List JournalEntry}
      (holds : CleanupPost owed cause result final left entries) :
      CleanupPost owed cause result final left (.asked cause :: entries) :=
    ⟨holds.1, holds.2.1, holds.2.2.1, asked.append (.plain _) holds.2.2.2⟩
  refine Does.get ?_
  dsimp only
  split
  · rename_i surface shown
    refine Does.bind _ (askCore_does shown fun coherent timing _ =>
      requestCleanup_core (screen_of_surface shown) coherent due) ?_
    rintro report after _ _ ⟨rfl, world, _, isAfter, rfl, rfl, isPending⟩ _
    have isShown : after.face.screen =
        some { surface.screen with core := world.core } := by
      rw [isAfter]
      rfl
    have isCarried : after.face.cleanupPending = report.cleanupPending :=
      (cleanupPending_shown isShown).trans isPending.symm
    refine Does.change _ _ (steps_carried isCarried) ?_
    refine (answers report _ ?_).mono fun _ _ _ _ _ => extend
    rw [isPending]
    refine (@cleanupPending_shown _ { surface.screen with core := world.core }
      ?_).symm
    exact isShown
  · rename_i missing
    obtain rfl := armed missing
    have hidden : before.face.screen = none := by simp [face, missing]
    have arms := Steps.single
      (@FaceStep.armed _ owed hidden .request (.inl rfl))
    refine Does.change _ _ arms ?_
    have isKept : Face.cleanupPending { before.face.note (.asked .request) with
        cleanupKept := true } = true :=
      cleanupPending_hidden hidden
    have does := (answers ⟨false, true, false, []⟩
      { before.note (.asked .request) with
        cleanupPendingWithoutSurface := true } isKept.symm).mono
      fun _ _ _ _ _ => extend
    rw [Owed.gives_nil, Owed.asked_other (by simp)] at does
    exact Does.given does

/-- An application without a pen gives up the pen contact. -/
theorem setPenAvailable_does {available : Bool} :
    Does (setPenAvailable available) before owed (Silent owed {}) := by
  have idle : Reach.Holds {} [] := .nil ⟨rfl, rfl, rfl⟩
  cases available with
  | true => exact Does.lastQuiet rfl ⟨rfl, rfl, idle⟩
  | false =>
      cases shown : before.surface with
      | none =>
          refine Does.lastQuiet ?_ ⟨rfl, rfl, idle⟩
          simp [face, withSurface, shown]
      | some surface =>
          have loses := Steps.single
            (@FaceStep.inked _ _ _ _ owed (screen_of_surface shown) .lost)
          refine Does.lastChange owed [] ?_ ⟨rfl, rfl, idle⟩
          simpa [face, withSurface, shown, ActiveSurface.screen] using loses

theorem render_eq_ok {menu next : LocalMenu} {overlay drawn : LocalOverlay}
    {width height : Nat} {profile : RefreshProfile}
    {partialRefresh customAvailable : Bool}
    (rendered : menu.render overlay width height profile partialRefresh
      customAvailable = .ok (drawn, next)) :
    next.visible = menu.visible ∧
      ∃ edit : PlaneEdit, edit.apply width overlay = .ok drawn := by
  unfold LocalMenu.render at rendered
  split at rendered
  · cases rendered
    exact ⟨rfl, .clear, rfl⟩
  · split at rendered
    · rename_i canvas _
      split at rendered
      · rename_i replaced replaces
        cases rendered
        exact ⟨rfl, .replacePlanes canvas.planes.luma canvas.planes.alpha,
          replaces⟩
      · cases rendered
      · cases rendered
    · cases rendered
    · cases rendered

theorem presentFallback_does {completeRefresh : Bool}
    (hidden : before.surface = none) :
    Does (presentFallback completeRefresh) before owed (Silent owed {}) := by
  have idle : Reach.Holds {} [] := .nil ⟨rfl, rfl, rfl⟩
  refine Does.get ?_
  split
  · exact Does.pure ⟨rfl, rfl, idle⟩
  · rename_i fallback _
    refine Does.ofRes fun rendered drawn => ?_
    obtain ⟨overlay, menu⟩ := rendered
    obtain ⟨sameVisible, _⟩ := render_eq_ok drawn
    refine Does.setQuiet ?_ (Does.ofRes fun composed _ => ?_)
    · simp [face, sameVisible]
    have noScreen : before.face.screen = none := by simp [face, hidden]
    refine Does.change owed [] (Steps.single (.fallback
      (by simpa [face, sameVisible] using noScreen) composed _ _)) ?_
    split
    · exact Does.pure ⟨rfl, rfl, idle⟩
    · exact Does.throw

theorem drawMenu_does (shown : before.surface = some surface) :
    Does (drawMenu before surface) before owed
      fun _ after left entries => after.face.screen.isSome = true ∧
        left = owed ∧ entries = [] := by
  refine Does.ofRes fun rendered drawn => ?_
  obtain ⟨overlay, menu⟩ := rendered
  obtain ⟨sameVisible, edit, applied⟩ := render_eq_ok drawn
  have edits : surface.core.editPlane .menu edit =
      .ok (surface.core.setPlane .menu overlay) := by
    rw [editPlane]
    change (edit.apply surface.core.width surface.core.overlay >>= _) = _
    rw [applied]
    rfl
  have steps := Steps.single (@FaceStep.core _ _ _ owed _ _
    (screen_of_surface shown) (show Plain (.edit .menu edit) from trivial)
    (.edit edits))
  rw [List.append_nil] at steps
  refine Does.computes owed [] rfl ?_ ⟨rfl, rfl, rfl⟩
  simpa [face, sameVisible, ActiveSurface.screen] using steps

theorem renderLocalMenu_does {now : Duration}
    (noTerminal : owed.terminals = []) :
    Does (renderLocalMenu now) before owed (Replies [] owed {}) := by
  refine Does.get ?_
  split
  · rename_i surface shown
    refine Does.silently _ (drawMenu_does shown) (.plain _) ?_
    rintro _ middle _ _ ⟨isShown, rfl, rfl⟩ _
    refine ⟨rfl, .nil ⟨rfl, rfl, rfl⟩, ?_⟩
    rw [isSome_screen] at isShown
    obtain ⟨drawn, isDrawn⟩ := Option.isSome_iff_exists.mp isShown
    refine Does.silently _ (runCore_does isDrawn fun coherent timing _ =>
      presentPlane_core (screen_of_surface isDrawn) coherent .settled)
      (.plain _) ?_
    rintro terminals after _ _ ⟨rfl, world, _, isAfter, rfl, rfl⟩ _
    refine ⟨rfl, .nil ⟨rfl, rfl, rfl⟩, ?_⟩
    have stillShown : after.face.screen.isSome = true := by
      rw [isAfter]
      rfl
    exact Does.stepQuietly (steps_kept stillShown)
      (terminalResults_given _ noTerminal).replies
  · rename_i hidden
    refine Does.silently _ (presentFallback_does hidden) (.plain _) ?_
    rintro _ _ _ _ ⟨rfl, silent, within⟩ _
    exact ⟨silent, within, Does.reply rfl ⟨rfl, rfl, rfl⟩⟩

theorem steps_menuClosed (shown : before.localMenu.visible = true)
    (sound : before.face.Sound) (told : owed.touches = []) :
    Steps ⟨before.face, owed⟩ [.menu false]
      ⟨(before.withMenu before.localMenu.close).face,
        { owed with
          loose := owed.loose || !before.face.touchGesture.settled }⟩ :=
  .single (.menu false (sound.covered shown) told)

/-- A reply that may leave contacts loose. -/
def RepliesLoosely (owed : Owed) (reach : Reach) : Post (List Envelope) :=
  fun envelopes after left entries =>
    ∃ loose, Replies [] { owed with loose } reach envelopes after left entries

theorem closedMenu_does {now : Duration}
    (shown : before.localMenu.visible = true) (noTerminal : owed.terminals = [])
    (told : owed.touches = []) :
    Does (do
        Proc.set (before.withMenu before.localMenu.close)
        renderLocalMenu now) before owed
      (RepliesLoosely owed { menu := true }) := by
  have closes : Does (do
      Proc.set (before.withMenu before.localMenu.close)
      renderLocalMenu now) before owed (Replies []
        { owed with loose := owed.loose || !before.face.touchGesture.settled }
        { menu := true }) :=
    Does.sound fun sound =>
      Does.setStep (steps_menuClosed shown sound told) rfl (.plainAfter _)
        (.single rfl rfl rfl ⟨rfl, rfl, rfl⟩) (renderLocalMenu_does noTerminal)
  exact closes.mono fun _ _ _ _ _ replies => ⟨_, replies⟩

theorem closeLocalMenu_does {now : Duration}
    (noTerminal : owed.terminals = []) (told : owed.touches = []) :
    Does (closeLocalMenu now) before owed
      (RepliesLoosely owed { menu := true }) := by
  refine Does.get ?_
  split
  · exact (Does.reply rfl ⟨rfl, rfl, rfl⟩).mono
      fun _ _ _ _ _ replies => ⟨owed.loose, replies⟩
  · rename_i shown
    exact closedMenu_does (by simpa using shown) noTerminal told

theorem localCleanup_does {cause : CleanupCause} {now : Duration}
    (noTerminal : owed.terminals = [])
    (due : cause = .chord → owed.chord = true ∧ before.surface.isSome = true) :
    Does (localCleanup now cause) before owed
      (Replies [] (owed.asked cause true) {}) := by
  refine Does.get ?_
  split
  · rename_i isNone
    have hidden := Option.isNone_iff_eq_none.mp isNone
    have other : cause ≠ .chord := by
      intro chord
      have := (due chord).2
      rw [hidden] at this
      cases this
    rw [Owed.asked_other other]
    refine Does.silently _ (presentFallback_does hidden) (.plain _) ?_
    rintro _ _ _ _ ⟨rfl, silent, within⟩ _
    exact ⟨silent, within, Does.reply rfl ⟨rfl, rfl, rfl⟩⟩
  · rename_i isSome
    refine Does.bind _ (requestCleanup_does noTerminal
      (fun chord => (due chord).1) ?_) ?_
    · intro hidden
      rw [hidden] at isSome
      exact absurd rfl isSome
    · rintro ⟨report, responses⟩ after left entries ⟨_, rfl, same, within⟩ _
      refine Does.pure ⟨rfl, ?_, ?_⟩
      · rwa [List.append_nil]
      · rwa [List.append_nil]

theorem terminalResults_safe {terminals : List TerminalFrame}
    {err : SessionError} {after : Session} :
    ¬ (terminalResults terminals).Runs before (.error err) after := by
  refine Proc.gather_safe fun terminal state next failed => ?_
  rcases Proc.runs_bind.mp failed with ⟨_, _, _, returned⟩ | ⟨_, same, failed⟩
  · cases (Proc.runs_pure.mp returned).1
  · cases same
    cases failed

theorem presentFallback_fails {completeRefresh : Bool} {err : SessionError}
    {after : Session} (hidden : before.surface = none)
    (runs : (presentFallback completeRefresh).Runs before (.error err) after) :
    Steps ⟨before.face, owed⟩ [] ⟨after.face, owed⟩ := by
  rw [presentFallback, Proc.runs_get_bind] at runs
  split at runs
  · cases (Proc.runs_pure.mp runs).1
  · rename_i fallback _
    rcases Proc.runs_ofRes_bind.mp runs with ⟨⟨overlay, menu⟩, drawn, runs⟩ |
      ⟨_, _, _, rfl⟩
    · obtain ⟨sameVisible, _⟩ := render_eq_ok drawn
      have sameFace : Session.face { before with
          localMenu := menu
          fallback := some { fallback with overlay } } = before.face := by
        simp [face, sameVisible]
      rw [Proc.runs_set_bind] at runs
      rcases Proc.runs_ofRes_bind.mp runs with ⟨composed, _, runs⟩ |
        ⟨_, _, _, rfl⟩
      · rw [Proc.runs_modify_bind] at runs
        have noScreen : before.face.screen = none := by simp [face, hidden]
        split at runs
        · cases (Proc.runs_pure.mp runs).1
        · obtain ⟨_, rfl⟩ := Proc.runs_throw.mp runs
          refine Steps.single ?_
          rw [← sameFace] at noScreen ⊢
          exact .fallback noScreen composed _ _
      · rw [sameFace]
        exact .nil
    · exact .nil

/-- Where the menu cannot be shown, at most terminals of the core are lost. -/
theorem renderLocalMenu_fails {now : Duration} {err : SessionError}
    {after : Session} (sound : before.face.Sound)
    (runs : (renderLocalMenu now).Runs before (.error err) after) :
    ∃ terminals,
      Steps ⟨before.face, owed⟩ [] ⟨after.face, owed.gives terminals⟩ := by
  rw [renderLocalMenu, Proc.runs_get_bind] at runs
  split at runs
  · rename_i surface shown
    rcases Proc.runs_bind.mp runs with ⟨_, drawn, drew, runs⟩ | ⟨_, _, failed⟩
    · obtain ⟨_, _, draws, holds⟩ :=
        @drawMenu_does _ owed _ shown sound _ _ drew
      obtain ⟨isShown, rfl, rfl⟩ := holds _ rfl
      rw [isSome_screen] at isShown
      obtain ⟨surface, isDrawn⟩ := Option.isSome_iff_exists.mp isShown
      rcases Proc.runs_bind.mp runs with ⟨terminals, _, _, runs⟩ |
        ⟨_, _, failed⟩
      · rcases Proc.runs_bind.mp runs with ⟨_, _, _, runs⟩ | ⟨_, same, failed⟩
        · exact absurd runs terminalResults_safe
        · cases same
          cases failed
      · obtain ⟨timing, given, world, _, ran, isAfter, _⟩ :=
          runCore_runs isDrawn failed
        have coherent := (draws.keeps (fun station => station.face.Sound)
          FaceStep.sound sound).coherent _ (screen_of_surface isDrawn)
        obtain ⟨terminals, presents, _⟩ := presentPlane_core
          (screen_of_surface isDrawn) coherent .settled given world ran
        rw [← face_ranCore, ← isAfter] at presents
        exact ⟨terminals, draws.append presents⟩
    · refine ⟨[], ?_⟩
      rw [Owed.gives_nil]
      rcases Proc.runs_ofRes_bind.mp failed with ⟨_, _, returned⟩ |
        ⟨_, _, _, rfl⟩
      · cases (Proc.runs_set.mp returned).1
      · exact .nil
  · rename_i hidden
    refine ⟨[], ?_⟩
    rw [Owed.gives_nil]
    rcases Proc.runs_bind.mp runs with ⟨_, _, _, returned⟩ | ⟨_, _, failed⟩
    · cases (Proc.runs_pure.mp returned).1
    · exact presentFallback_fails hidden failed

/-- The session ends, and what is not reported yet is dropped. -/
theorem steps_ended {session : Session} :
    Steps ⟨session.face, owed⟩ []
      ⟨{ session.face with closed := true }, { owed with terminals := [] }⟩ :=
  Steps.cons .ended (Steps.single (.forgotten rfl))

/-- Leaving the menu ends the session, whatever the panel says. -/
theorem leaveMenu_does {now : Duration}
    (shown : before.localMenu.visible = true) (noTerminal : owed.terminals = [])
    (told : owed.touches = []) :
    Does (leaveMenu now) before owed fun _ after left entries =>
      after.face.closed = true ∧ (∃ loose, left = { owed with loose }) ∧
        Reach.Holds { menu := true } entries := by
  refine Does.sound fun sound =>
    Does.change _ _ (steps_menuClosed shown sound told) ?_
  have attempts (session : Session) (start : Owed) (loose : Bool)
      (isStart : start = { owed with loose }) :
      Does (Proc.attempt (renderLocalMenu now) :
          SessionProc (Except SessionError (List Envelope))) session start
        fun _ _ left entries => (∃ terminals, left = start.gives terminals) ∧
          Reach.Holds {} entries := by
    intro sound output after runs
    obtain ⟨given, ran, rfl⟩ := Proc.runs_attempt.mp runs
    cases given with
    | ok envelopes =>
        have noTerminal : start.terminals = [] := by
          rw [isStart]
          exact noTerminal
        obtain ⟨_, entries, steps, holds⟩ :=
          renderLocalMenu_does noTerminal sound _ _ ran
        obtain ⟨rfl, _, within⟩ := holds envelopes rfl
        exact ⟨_, entries, steps, fun _ _ =>
          ⟨⟨[], Owed.gives_nil.symm⟩, within⟩⟩
    | error err =>
        obtain ⟨terminals, steps⟩ := renderLocalMenu_fails sound ran
        exact ⟨_, [], steps, fun _ _ => ⟨⟨terminals, rfl⟩,
          .nil ⟨rfl, rfl, rfl⟩⟩⟩
  refine Does.bind _ (attempts _ _ _ rfl) ?_
  rintro _ after _ entries ⟨⟨terminals, rfl⟩, within⟩ _
  refine Does.lastChange _ _ steps_ended ⟨rfl,
    ⟨owed.loose || !before.face.touchGesture.settled, ?_⟩, ?_⟩
  · rw [← noTerminal]
    rfl
  · rw [List.append_nil]
    exact Reach.Holds.append (.plainAfter { menu := true })
      (.single rfl rfl rfl ⟨rfl, rfl, rfl⟩) within

/-- The policy of the session changes, and that of its surface. -/
theorem changeProfile_does {next : RefreshPolicyConfig} {now : Duration}
    (noTerminal : owed.terminals = []) :
    Does (changeProfile next now) before owed (Replies [] owed {}) := by
  refine Does.get (Does.setStep .nil rfl (.plain _)
    (.nil ⟨rfl, rfl, rfl⟩) ?_)
  have draws (responses : List Envelope) (session : Session) :
      Does (do
          let drawn ← renderLocalMenu now
          return responses ++ drawn) session owed
        (Replies (bodies responses) owed {}) := by
    refine Does.call (renderLocalMenu_does noTerminal) (.plain _) ?_
    intro drawn after entries _ _
    exact Does.reply (by simp) ⟨rfl, rfl, rfl⟩
  have asked (cause : CleanupCause) : Reach.Holds {} [.asked cause] :=
    .single rfl rfl trivial ⟨rfl, rfl, rfl⟩
  dsimp only
  split
  · rename_i surface shown
    refine Does.silently _ (askCore_does shown fun coherent timing _ =>
      changeRefreshProfile_core (screen_of_surface shown) coherent)
      (.plain _) ?_
    rintro change after _ _ ⟨rfl, world, _, _, rfl, rfl, _⟩ _
    refine ⟨?_, ?_, ?_⟩
    · cases reconfigures surface.core next <;> rfl
    · cases reconfigures surface.core next with
      | true => exact asked .profile
      | false => exact .nil ⟨rfl, rfl, rfl⟩
    · rw [Owed.asked_other (by simp)]
      exact Does.tell (terminalResults_given _ noTerminal)
        fun responses final _ => draws responses final
  · rename_i hidden
    have noScreen : before.face.screen = none := by simp [face, hidden]
    split
    · refine Does.step (Steps.single (.overlooked noScreen)) rfl
        (.plain _) (asked .offscreen) ?_
      exact Does.given (draws [] _)
    · exact Does.given (Does.given (draws [] _))

theorem handleLocalMenuAction_does {action : LocalMenuAction} {now : Duration}
    (shown : before.localMenu.visible = true) (noTerminal : owed.terminals = [])
    (told : owed.touches = []) :
    Does (handleLocalMenuAction action now) before owed
      (RepliesLoosely owed { menu := true }) := by
  have tight {procedure : SessionProc (List Envelope)}
      (does : Does procedure before owed (Replies [] owed {})) :
      Does procedure before owed (RepliesLoosely owed { menu := true }) := by
    have wide : Does procedure before owed
        (Replies [] owed { menu := true }) :=
      does.widen (.plain _) ⟨rfl, rfl, rfl⟩
    exact wide.mono fun _ _ _ _ _ replies => ⟨owed.loose, replies⟩
  have leaves (reset : Session → Session)
      (same : ∀ session : Session, (reset session).face = session.face) :
      Does (do
          leaveMenu now
          Proc.modify reset
          return []) before owed (RepliesLoosely owed { menu := true }) := by
    refine Does.bind _ (leaveMenu_does shown noTerminal told) ?_
    rintro _ after _ entries ⟨ended, ⟨loose, rfl⟩, within⟩ _
    refine Does.quiet (same after) (Does.pure ⟨loose, rfl, ?_, ?_⟩)
    · intro isOpen
      rw [same after, ended] at isOpen
      cases isOpen
    · rwa [List.append_nil]
  refine Does.get ?_
  cases action with
  | setProfile profile =>
      cases profile with
      | custom =>
          dsimp only
          split
          · exact tight (renderLocalMenu_does noTerminal)
          · exact tight (changeProfile_does noTerminal)
      | realtime | animate | balanced | reading | quality =>
          exact tight (changeProfile_does noTerminal)
  | togglePartialRefresh =>
      refine tight ?_
      dsimp only
      split
      · exact Does.quiet rfl (renderLocalMenu_does noTerminal)
      · rename_i surface shown
        refine Does.silently _ (runCore_does shown fun _ timing _ =>
          updateRefreshConfig_core (screen_of_surface shown)) (.plain _) ?_
        rintro _ after _ _ ⟨rfl, world, _, _, rfl, rfl⟩ _
        refine ⟨rfl, .nil ⟨rfl, rfl, rfl⟩, ?_⟩
        rw [Owed.gives_nil]
        exact Does.quiet rfl (renderLocalMenu_does noTerminal)
  | fullRefresh =>
      have cleans := @localCleanup_does before owed .request now noTerminal
        nofun
      rw [Owed.asked_other (by simp)] at cleans
      exact tight cleans
  | newPair => exact leaves _ fun _ => rfl
  | closeApp => exact leaves _ fun _ => rfl
  | close => exact closedMenu_does shown noTerminal told

theorem overlayResult_does {update : OverlayUpdate} {applied : Bool}
    {message : String} {shown : Option ActiveSurface}
    (isShown : shown = before.surface ∨ shown = none ∧ applied = false) :
    Does (overlayResult update applied message shown) before owed
      (Sends before owed) := by
  refine wrap_sends ?_
  rcases isShown with rfl | ⟨rfl, rfl⟩
  · exact .inl ⟨(presentedFrameId_face before).symm,
      (inkFrozen_face before).symm⟩
  · exact .inr ⟨rfl, rfl, rfl⟩

/-- Steps that build no envelope. -/
def Quietly (before : Face) (owed : Owed) (reach : Reach) (after : Face) : Prop :=
  ∃ entries, Steps ⟨before, owed⟩ entries ⟨after, owed⟩ ∧
    entries.filterMap (·.body) = [] ∧ reach.Holds entries

theorem Quietly.append {first middle last : Face} {earlier later whole : Reach}
    (joins : Reach.Joins earlier later whole)
    (left : Quietly first owed earlier middle)
    (right : Quietly middle owed later last) :
    Quietly first owed whole last := by
  obtain ⟨entries, steps, silent, within⟩ := left
  obtain ⟨more, further, noMore, holds⟩ := right
  refine ⟨entries ++ more, steps.append further, ?_, within.append joins holds⟩
  rw [List.filterMap_append, silent, noMore]
  rfl

/-- Does an update make ink start anew? -/
def overlayRearms (update : OverlayUpdate) : Bool :=
  update.clear || update.localInk.isSome

theorem clearedPlanes_steps {session : Session}
    (shown : session.surface = some surface) :
    Quietly session.face owed {}
      { session.face.note (.inkCleared surface.core.ink.clear.planes) with
        screen := some { ((surface.clearPlane .peer).clearPlane .ink).screen with
          penPoint := none } } := by
  have isScreen := screen_of_surface shown
  have clears := Steps.single (@FaceStep.core _ _ _ owed _ _ isScreen
    (show Plain (.edit .peer .clear) from trivial) (.edit rfl))
  rw [List.append_nil] at clears
  have inks := clears.append (.single (.inked rfl .cleared))
  have lifts := inks.append (.single (.inked rfl .lost))
  exact ⟨_, lifts, rfl, .single rfl rfl trivial ⟨rfl, rfl, rfl⟩⟩

theorem overlayCleared_steps {update : OverlayUpdate} {now : Duration}
    (shown : before.surface = some surface) :
    Quietly before.face owed { bounds := changeBounds (overlayRearms update) now }
      (before.overlayCleared surface update now).face := by
  have keeps {session : Session} {surface : ActiveSurface}
      (shown : session.surface = some surface) :
      Quietly session.face owed {}
        (if update.clear then
          { session.note (.inkCleared surface.core.ink.clear.planes) with
            surface := some { (surface.clearPlane .peer).clearPlane .ink with
              penPoint := none } }
        else { session with surface := some surface } : Session).face := by
    split
    · exact clearedPlanes_steps shown
    · have same : Session.face { session with surface := some surface } =
          session.face := by
        simp [face, shown]
      rw [same]
      exact ⟨[], .nil, rfl, .nil ⟨rfl, rfl, rfl⟩⟩
  unfold overlayCleared changeBounds
  cases rearms : overlayRearms update with
  | true =>
      rw [overlayRearms] at rearms
      simp only [rearms, if_true]
      have rearm : Quietly before.face owed { bounds := [now] }
          { before.note (.boundary now surface.inkPaused) with
            surface := some (surface.rearmInk now) : Session }.face :=
        ⟨_, steps_rearmed shown now surface.inkPaused surface.localInk, rfl,
          .boundary now _⟩
      exact rearm.append (.plainAfter _) (keeps rfl)
  | false =>
      rw [overlayRearms] at rearms
      simp only [rearms, Bool.false_eq_true, if_false]
      exact keeps shown

/-- The patch of the update is applied to the plane of the producer. -/
theorem overlayPatched_does {update : OverlayUpdate}
    (shown : before.surface = some surface) :
    Does (editActive fun surface => overlayPatched surface update) before owed
      fun _ after left entries => (∃ patched, after.surface = some patched ∧
        patched.inkNeedsDown = surface.inkNeedsDown) ∧
          left = owed ∧ entries = [] := by
  refine Does.get ?_
  rw [shown]
  refine Does.ofRes fun patched patches => ?_
  unfold overlayPatched at patches
  split at patches
  · cases patches
    have same : Session.face { before with surface := some surface } =
        before.face := by
      simp [face, shown]
    refine Does.computes owed [] rfl ?_ ⟨⟨_, rfl, rfl⟩, rfl, rfl⟩
    rw [same]
    exact .nil
  · obtain ⟨core, edits, same⟩ := Res.bind_eq_ok.mp patches
    cases same
    have steps := Steps.single (@FaceStep.core _ _ _ owed _ _
      (screen_of_surface shown) (show Plain (.edit .peer _) from trivial)
      (.edit edits))
    rw [List.append_nil] at steps
    exact Does.computes owed [] rfl steps ⟨⟨_, rfl, rfl⟩, rfl, rfl⟩

/-- Local ink is switched while ink waits for a DOWN. -/
theorem overlayInk_steps {update : OverlayUpdate}
    (shown : before.surface = some surface)
    (rearmed : update.localInk.isSome = true → surface.inkNeedsDown = true) :
    Quietly before.face owed {} (before.overlayInk surface update).face := by
  unfold overlayInk
  split
  · have same : face { before with surface := some surface } = before.face := by
      simp [face, shown]
    rw [same]
    exact ⟨[], .nil, rfl, .nil ⟨rfl, rfl, rfl⟩⟩
  · rename_i switches
    have needsDown := rearmed (by rw [switches]; rfl)
    exact ⟨_, .single (.inked (screen_of_surface shown)
      (.switched true needsDown)), rfl, .nil ⟨rfl, rfl, rfl⟩⟩
  · rename_i switches
    have needsDown := rearmed (by rw [switches]; rfl)
    have clears := (@steps_cleared _ owed _ shown).append
      (.single (.inked rfl (.switched false needsDown)))
    rw [Option.toList_none, List.append_nil] at clears
    have cleared : Reach.Holds {}
        [.inkCleared (surface.clearPlane .ink).core.ink.planes] :=
      .single rfl rfl trivial ⟨rfl, rfl, rfl⟩
    cases frozen : surface.inkFrozen with
    | true =>
        dsimp only
        rw [noteFrozen_released frozen rfl]
        have releases := clears.append (.single (.released rfl frozen))
        have lifts := releases.append (.single (.inked rfl .lost))
        rw [Option.toList_none, List.append_nil] at lifts
        exact ⟨_, lifts, rfl, cleared.append (.plain _)
          (.single rfl rfl trivial ⟨rfl, rfl, rfl⟩)⟩
    | false =>
        dsimp only
        rw [noteFrozen_same frozen.symm]
        have lifts := clears.append (.single (.inked rfl .lost))
        have stays : (surface.clearPlane .ink).screen.inkFrozen = false :=
          frozen
        rw [Option.toList_none, List.append_nil, stays] at lifts
        exact ⟨_, lifts, rfl, cleared⟩

theorem isSome_overlayInk {update : OverlayUpdate} :
    (before.overlayInk surface update).surface.isSome = true := by
  unfold overlayInk
  split <;> rfl

theorem surface_overlayCleared {update : OverlayUpdate} {now : Duration} :
    ∃ cleared,
      (before.overlayCleared surface update now).surface = some cleared ∧
        (overlayRearms update = true → cleared.inkNeedsDown = true) := by
  unfold overlayCleared overlayRearms
  cases rearms : (update.clear || update.localInk.isSome) with
  | true =>
      simp only [if_true]
      split
      · exact ⟨_, rfl, fun _ => rfl⟩
      · exact ⟨_, rfl, fun _ => rfl⟩
  | false =>
      simp only [Bool.false_eq_true, if_false]
      split
      · exact ⟨_, rfl, False.elim⟩
      · exact ⟨_, rfl, False.elim⟩

theorem applyOverlay_does {update : OverlayUpdate} {now : Duration}
    (shown : before.surface = some surface) (noTerminal : owed.terminals = []) :
    Does (applyOverlay surface update now) before owed (Replies [] owed {
      bounds := changeBounds (overlayRearms update) now }) := by
  obtain ⟨entries, steps, silent, within⟩ :=
    @overlayCleared_steps _ owed _ update now shown
  refine Does.step steps silent (.plainAfter _) within ?_
  obtain ⟨cleared, isCleared, rearmed⟩ :=
    @surface_overlayCleared before surface update now
  refine Does.silently _ (overlayPatched_does isCleared) (.plain _) ?_
  rintro _ patched owed _ ⟨⟨surface, isPatched, same⟩, rfl, rfl⟩ _
  refine ⟨rfl, .nil ⟨rfl, rfl, rfl⟩, ?_⟩
  obtain ⟨entries, steps, silent, within⟩ :=
    @overlayInk_steps _ owed _ update isPatched fun switches =>
      same.trans (rearmed (by rw [overlayRearms, switches, Bool.or_true]))
  refine Does.step (?_ : Steps ⟨_, _⟩ _ ⟨_, owed⟩) silent (.plain _) within ?_
  · simp only [isPatched]
    exact steps
  simp only [isPatched]
  obtain ⟨inked, isSurface⟩ := Option.isSome_iff_exists.mp
    (@isSome_overlayInk patched surface update)
  refine Does.silently _ (runCore_does isSurface fun coherent timing _ =>
    presentPlane_core (screen_of_surface isSurface) coherent .settled)
    (.plain _) ?_
  rintro terminals after _ _ ⟨rfl, world, _, isAfter, rfl, rfl⟩ _
  refine ⟨rfl, .nil ⟨rfl, rfl, rfl⟩, ?_⟩
  refine Does.tell (terminalResults_given _ noTerminal) ?_
  intro responses final _
  refine Does.get (Does.send (overlayResult_does (.inl rfl)) ?_)
  intro result last _
  exact Does.reply (by simp) ⟨rfl, rfl, rfl⟩

/-- Is an update applied? -/
def overlayApplies (self : Session) (update : OverlayUpdate) : Bool :=
  self.remoteOverlayEnabled &&
    decide (update.sequence ≠ 0 ∧ self.overlaySequence < update.sequence) &&
    !(update.localInk.isSome && !self.localInkControlEnabled) &&
    self.surface.any fun surface => (self.overlayProblem surface update).isNone

theorem overlayUpdate_does {update : OverlayUpdate} {now : Duration}
    (noTerminal : owed.terminals = []) :
    Does (overlayUpdate update now) before owed (Replies [] owed {
      bounds := changeBounds
        (before.overlayApplies update && overlayRearms update) now }) := by
  have refuses (unapplied : before.overlayApplies update = false)
      (session : Session) (problem : String) (shown : Option ActiveSurface)
      (isShown : shown = session.surface ∨ shown = none) :
      Does (do return [← overlayResult update false problem shown]) session owed
        (Replies [] owed {
          bounds := changeBounds
            (before.overlayApplies update && overlayRearms update) now }) := by
    rw [unapplied]
    refine (Does.one (overlayResult_does ?_)).replies
    exact isShown.imp id fun none => ⟨none, rfl⟩
  refine Does.get ?_
  dsimp only
  by_cases valid : update.sequence ≠ 0 ∧ before.overlaySequence < update.sequence
  · simp only [valid, ne_eq, not_false_eq_true, and_self, decide_true, if_true,
      Bool.not_true, Bool.false_eq_true, if_false]
    refine Does.setStep .nil rfl (.plain _) (.nil ⟨rfl, rfl, rfl⟩) ?_
    split
    · rename_i disabled
      exact refuses (by simp_all [overlayApplies]) _ _ _ (.inr rfl)
    · rename_i enabled
      split
      · rename_i noInk
        exact refuses (by simp_all [overlayApplies]) _ _ _ (.inr rfl)
      · rename_i ink
        split
        · rename_i hidden
          exact refuses (by simp_all [overlayApplies]) _ _ _ (.inr rfl)
        · rename_i surface shown
          split
          · rename_i problem found
            refine refuses ?_ _ _ _ (.inl shown.symm)
            have isProblem : before.overlayProblem surface update =
                some problem := found
            simp [overlayApplies, show before.surface = some surface from shown,
              isProblem]
          · rename_i fine
            have isFine : before.overlayProblem surface update = none := fine
            have applies : before.overlayApplies update = true := by
              rw [overlayApplies, Bool.eq_false_iff.mpr ink]
              simp_all
            rw [applies, Bool.true_and]
            exact applyOverlay_does shown noTerminal
  · simp only [valid, decide_false, Bool.false_eq_true, if_false, Bool.not_false,
      if_true]
    refine Does.setStep .nil rfl (.plain _) (.nil ⟨rfl, rfl, rfl⟩) ?_
    have unapplied : before.overlayApplies update = false := by
      simp [overlayApplies, valid]
    split
    · exact refuses unapplied _ _ _ (.inr rfl)
    · exact refuses unapplied _ _ _ (.inr rfl)

theorem epaperProfileResult_does {request : EpaperProfileRequest}
    {result : EpaperProfileResultCode} {active : RefreshPolicyConfig}
    {performed pending : Bool} {message : String}
    (isPending : pending = before.face.cleanupPending) :
    Does (epaperProfileResult request result active performed pending message)
      before owed (Sends before owed) :=
  wrap_sends isPending

theorem debt_currentRefreshState (session : Session) :
    session.currentRefreshState.presentedSinceFullRefresh =
      session.face.debt.physicalPartialUpdatesSinceCleanup := by
  rw [debt_face, currentRefreshState, carryDebt]
  cases session.surface <;> rfl

theorem cleanupPending_currentRefreshState (session : Session) :
    session.currentRefreshState.cleanupPending =
      session.face.cleanupPending := by
  rw [cleanupPending_face, currentRefreshState, currentCleanupPending]
  cases session.surface <;> rfl

theorem epaperRefreshResult_does {request : EpaperRefreshRequest}
    {result : EpaperRefreshResultCode} {performed : Bool} {message : String} :
    Does (epaperRefreshResult request result performed message) before owed
      (Sends before owed) :=
  Does.get (wrap_sends ⟨_, rfl, cleanupPending_currentRefreshState before,
    debt_currentRefreshState before⟩)

/-- The policy of the active surface changes, or a cleanup is armed. -/
theorem applyProfile_does {current next : RefreshPolicyConfig}
    {now : Duration} :
    Does (applyProfile current next now) before owed
      fun change after left entries =>
        change.cleanupPending = after.face.cleanupPending ∧
          left = owed.gives change.terminals ∧
          entries.filterMap (·.body) = [] ∧ Reach.Holds {} entries := by
  have asked : Reach.Holds {} [.asked .profile] :=
    .single rfl rfl trivial ⟨rfl, rfl, rfl⟩
  refine Does.get ?_
  split
  · rename_i surface shown
    refine Does.bind _ (askCore_does shown fun coherent timing _ =>
      changeRefreshProfile_core (screen_of_surface shown) coherent) ?_
    rintro change after _ _ ⟨rfl, world, _, isAfter, rfl, rfl, isPending⟩ _
    have isShown : after.face.screen =
        some { surface.screen with core := world.core } := by
      rw [isAfter]
      rfl
    have isCarried : after.face.cleanupPending = change.cleanupPending :=
      (cleanupPending_shown isShown).trans isPending.symm
    have carries := Steps.single (@FaceStep.carried after.face
      ((owed.asked .profile (reconfigures surface.core next)).gives
        change.terminals) _ _ .cleanup)
    rw [isCarried] at carries
    refine Does.change _ _ carries (Does.pure ⟨?_, ?_, ?_, ?_⟩)
    · rw [isPending]
      refine (@cleanupPending_shown _ { surface.screen with core := world.core }
        ?_).symm
      exact isShown
    · rw [Owed.asked_other (by simp)]
    · cases reconfigures surface.core next <;> rfl
    · rw [List.append_nil, List.append_nil]
      cases reconfigures surface.core next with
      | true => exact asked
      | false => exact .nil ⟨rfl, rfl, rfl⟩
  · rename_i hidden
    have noScreen : before.face.screen = none := by simp [face, hidden]
    dsimp only
    cases changes : next != current with
    | true =>
        rw [Bool.or_true]
        refine Does.setSteps _ _ (Steps.single (.armed noScreen .profile
          (.inr rfl))) (Does.pure ⟨?_, Owed.gives_nil.symm, rfl, asked⟩)
        refine (?_ : Face.cleanupPending _ = true).symm
        exact (cleanupPending_hidden noScreen :
          Face.cleanupPending { before.face.note (.asked .profile) with
            cleanupKept := true } = true)
    | false =>
        rw [Bool.or_false]
        refine Does.setQuiet rfl (Does.pure ⟨?_, Owed.gives_nil.symm, rfl,
          .nil ⟨rfl, rfl, rfl⟩⟩)
        exact (cleanupPending_hidden noScreen).symm

theorem setProfile_does {request : EpaperProfileRequest}
    {next : RefreshPolicyConfig} {now : Duration}
    (noTerminal : owed.terminals = []) :
    Does (setProfile request next now) before owed (Replies [] owed {}) := by
  refine Does.get (Does.setStep .nil rfl (.plain _)
    (.nil ⟨rfl, rfl, rfl⟩) ?_)
  refine Does.silently _ applyProfile_does (.plain _) ?_
  rintro change after _ _ ⟨isPending, rfl, silent, within⟩ _
  refine ⟨silent, within, ?_⟩
  refine Does.tell (terminalResults_given _ noTerminal) ?_
  intro responses final unchanged
  refine Does.send (epaperProfileResult_does ?_) ?_
  · rw [isPending, unchanged]
    rfl
  · intro result last _
    exact Does.reply (by simp) ⟨rfl, rfl, rfl⟩

theorem handleEpaperProfile_does {request : EpaperProfileRequest}
    {now : Duration} (noTerminal : owed.terminals = []) :
    Does (handleEpaperProfile request now) before owed (Replies [] owed {}) := by
  have answers (session : Session) (same : session.face = before.face)
      (result : EpaperProfileResultCode) (message : String) :
      Does (do return [← epaperProfileResult request result
          before.config.refreshPolicy false before.currentCleanupPending
          message]) session owed (Replies [] owed {}) := by
    refine (Does.one (epaperProfileResult_does ?_)).replies
    rw [same, cleanupPending_face]
  refine Does.get ?_
  split
  · exact answers _ rfl _ _
  · split
    · exact answers _ rfl _ _
    · refine Does.setStep .nil rfl (.plain _) (.nil ⟨rfl, rfl, rfl⟩) ?_
      have numbered := answers
        { before with lastProfileRequestId := request.requestId } rfl
      dsimp only
      split
      · exact numbered _ _
      · split
        · exact numbered _ _
        · split
          · exact numbered _ _
          · exact setProfile_does noTerminal

theorem updateRefresh_does {request : EpaperRefreshRequest} {now : Duration} :
    Does (updateRefresh request now) before owed (Replies [] owed {}) := by
  have answers (session : Session) (changed : Bool)
      (config : Session → Session)
      (same : (config session).face = session.face) :
      Does (do
          Proc.modify config
          return [← epaperRefreshResult request
            (if changed then .applied else .unchanged) false
            (if changed then "receiver refresh parameters applied"
              else "requested refresh parameters are already active")])
        session owed (Replies [] owed {}) :=
    Does.stepQuietly (same ▸ .nil) (Does.one epaperRefreshResult_does).replies
  refine Does.get ?_
  dsimp only
  split
  · exact Does.given (answers _ _ _ rfl)
  · rename_i surface shown
    refine Does.silently _ (runCore_does shown fun _ timing _ =>
      updateRefreshConfig_core (screen_of_surface shown)) (.plain _) ?_
    rintro reply after _ _ ⟨rfl, world, _, _, rfl, rfl⟩ _
    refine ⟨rfl, .nil ⟨rfl, rfl, rfl⟩, ?_⟩
    rw [Owed.gives_nil]
    exact Does.given (answers _ _ _ rfl)

theorem cleanupRefresh_does {request : EpaperRefreshRequest} {now : Duration}
    (noTerminal : owed.terminals = []) :
    Does (cleanupRefresh request now) before owed (Replies [] owed {}) := by
  refine Does.bind _ (requestCleanup_does noTerminal nofun fun _ => rfl) ?_
  rintro ⟨report, responses⟩ after left entries ⟨_, isLeft, same, within⟩ steps
  rw [Owed.asked_other (by simp)] at isLeft
  subst isLeft
  have answers : Does (do
      let result ← epaperRefreshResult request
        (if report.backendFailed then .failed else .applied)
        report.cleanupPerformed
        (if report.backendFailed then "full cleanup failed and remains armed"
          else if report.cleanupPerformed then "full cleanup completed"
          else "full cleanup is armed for the next presentation")
      return responses ++ [result]) after left
      (Replies (bodies responses) left {}) :=
    Does.send epaperRefreshResult_does fun result final _ =>
      Does.reply (by simp) ⟨rfl, rfl, rfl⟩
  refine answers.mono ?_
  rintro given last remaining more further ⟨rfl, sameGiven, holds⟩
  refine ⟨rfl, fun isOpen => ?_, within.append (.plain _) holds⟩
  rw [sameGiven isOpen, same (further.stillOpen isOpen), List.nil_append,
    List.nil_append, List.filterMap_append]

theorem handleEpaperRefresh_does {request : EpaperRefreshRequest}
    {now : Duration} (noTerminal : owed.terminals = []) :
    Does (handleEpaperRefresh request now) before owed (Replies [] owed {}) := by
  have answers (session : Session) (result : EpaperRefreshResultCode)
      (message : String) :
      Does (do return [← epaperRefreshResult request result false message])
        session owed (Replies [] owed {}) :=
    (Does.one epaperRefreshResult_does).replies
  refine Does.get ?_
  split
  · exact answers _ _ _
  · split
    · exact answers _ _ _
    · refine Does.setStep .nil rfl (.plain _) (.nil ⟨rfl, rfl, rfl⟩) ?_
      split
      · exact answers _ _ _
      · split
        · exact answers _ _ _
        · exact updateRefresh_does
      · exact cleanupRefresh_does noTerminal
      · exact answers _ _ _

end

end Session

end RmDisplay.Receiver
