import RmDisplay.Core.ClearedInk
import RmDisplay.Receiver.InkOperations
import RmDisplay.Receiver.OverlayUpdates

/-!
# Clearing the ink

`Session.clearInk` completes a pending frame, but does not redraw the strokes
themselves.  Whether they disappear depends on what was pending.
-/

namespace RmDisplay.Receiver

open Foundation Protocol RmDisplay.Core Core.DisplayCore

namespace Session

theorem clearInk_presents {before after : Session} {surface : ActiveSurface}
    {now : Duration} {output : Except SessionError (List Envelope)}
    (active : before.surface = some surface)
    (coherent : Coherent surface.core) (willing : before.panel.Willing)
    (runs : (clearInk now).Runs before output after) :
    ∃ answers screen terminals, output = .ok answers ∧
      after.surface = some screen ∧
      InkPresented ⟨surface.core, before.panel⟩ ⟨screen.core, after.panel⟩
        terminals := by
  unfold clearInk at runs
  rw [Proc.runs_get_bind, active] at runs
  dsimp only at runs
  rw [Proc.runs_set_bind] at runs
  have cleared : Coherent surface.core.inkCleared :=
    coherent_clearInk coherent
  have presents {timing : Timing} {given : Except CoreError (List TerminalFrame)}
      {world : World}
      (core : (presentInk timing).Runs
        ⟨surface.core.inkCleared, before.panel⟩ given world) :
      ∃ terminals, given = .ok terminals ∧
        InkPresented ⟨surface.core, before.panel⟩ world terminals :=
    @presentInk_cleared timing ⟨surface.core, before.panel⟩ world given
      cleared willing core
  rcases Proc.runs_bind.mp runs with ⟨terminals, between, ran, runs⟩ |
    ⟨err, _, failed⟩
  · obtain ⟨timing, given, world, _, core, rfl, isGiven⟩ :=
      runCore_runs rfl ran
    obtain ⟨finished, rfl, presented⟩ := presents core
    cases isGiven
    obtain ⟨told, answers, rfl, _⟩ :=
      terminalResults_answers presented.presented runs
    unfold Told at told
    refine ⟨answers, _, terminals, rfl, by rw [told]; rfl, ?_⟩
    rw [told]
    exact presented
  · obtain ⟨timing, given, world, _, core, rfl, isGiven⟩ :=
      runCore_runs rfl failed
    obtain ⟨_, rfl, _⟩ := presents core
    cases isGiven

end Session

/-- On a panel that does not fail clearing the ink returns, keeps the other
planes, and removes the ink from the screen exactly if none is left where
completing the pending frame draws nothing. -/
theorem inkErased_iff_of_run {setup : SessionSetup}
    {history : List SessionEvent} {final after : Session}
    {surface : ActiveSurface} {now : Duration}
    {output : Except SessionError (List Envelope)}
    (run : SessionRun setup history final) (willing : final.panel.Willing)
    (active : final.surface = some surface)
    (runs : (Session.clearInk now).Runs final output after) :
    ∃ answers screen, output = .ok answers ∧ after.surface = some screen ∧
      KeepsPlanes surface.core.inkCleared screen.core ∧
      (InkErased ⟨screen.core, after.panel⟩ ↔ surface.core.InkCovered) := by
  have coherent := run.sound.coherent surface.screen
    (Session.screen_of_surface active)
  obtain ⟨answers, screen, terminals, returned, shown, presented⟩ :=
    Session.clearInk_presents active coherent willing runs
  refine ⟨answers, screen, returned, shown, presented.planes, ?_⟩
  have sameWidth : screen.core.width = surface.core.width :=
    congrArg PixelSurface.width presented.planes.base
  have sameHeight : screen.core.height = surface.core.height :=
    congrArg PixelSurface.height presented.planes.base
  have sameInkless : screen.core.inkless = surface.core.inkCleared.inkless :=
    inkless_keeps presented.planes
  rw [inkErased_iff presented.idle, ← presented.erased, sameWidth, sameHeight,
    sameInkless]
  rfl

/-- What a row of three pixels shows, and what it shows without ink. -/
def rowsOf (core : DisplayCore) : List (Bytes × Bytes) :=
  (List.range 3).map fun column =>
    (core.presented.picture (column, 0), core.inkless (column, 0))

/-- The rows before and after the last event of a run that clears the ink. -/
def clearedRows (history : List SessionEvent) : Option (List (Bytes × Bytes)) :=
  match history with
  | ⟨before, .clearInk _, _, after⟩ :: _ => do
      let _ ← before.surface
      let screen ← after.surface
      return rowsOf screen.core
  | _ => none

theorem clearInk_of_rows {setup : SessionSetup} {history : List SessionEvent}
    {final : Session} {rows : List (Bytes × Bytes)}
    (run : SessionRun setup history final)
    (checked : clearedRows history = some rows) :
    ∃ older before surface now output screen, SessionRun setup older before ∧
      before.surface = some surface ∧
      (Session.clearInk now).Runs before output final ∧
      final.surface = some screen ∧ rowsOf screen.core = rows := by
  obtain ⟨first, fresh, run⟩ := run
  unfold clearedRows at checked
  split at checked
  · cases run with
    | snoc earlier stepped =>
        obtain ⟨surface, active, checked⟩ :=
          Option.bind_eq_some_iff.mp checked
        obtain ⟨screen, shown, same⟩ := Option.bind_eq_some_iff.mp checked
        cases same
        exact ⟨_, _, surface, _, _, screen, ⟨first, fresh, earlier⟩, active,
          stepped, shown, rfl⟩
  · cases checked

/-- A stroke on a presented frame, and what arrives before the ink is
cleared. -/
def strokeThen (later : List SessionOp) : List SessionOp :=
  .clearInk (.ofSecs 8) :: later ++
    [penAt .move 1 (.ofSecs 6), penAt .down 0 (.ofSecs 5),
      .setLocalInk true (.ofSecs 4), .setFreezeOnPenDown false,
      grayMessage 3 (grayFrame 1 1 1 0 .settled ⟨0, 0, 3, 1⟩ [9, 9, 9])
        (.ofSecs 3),
      grayMessage 2 (grayOpen 1 []) (.ofSecs 2), .setPenAvailable true,
      grayMessage 1 (.clientHello (grayHello [])) 1]

/-- A stroke is removed together with the frame that was pending. -/
theorem inkErased_iff_of_pending :
    ∃ (setup : SessionSetup) (history : List SessionEvent)
      (final after : Session) (surface screen : ActiveSurface),
      SessionRun setup history final ∧ final.surface = some surface ∧
      after.surface = some screen ∧
      KeepsPlanes surface.core.inkCleared screen.core ∧
      rowsOf screen.core = [([8], [8]), ([8], [8]), ([8], [8])] ∧
      (InkErased ⟨screen.core, after.panel⟩ ↔ surface.core.InkCovered) := by
  have ran := @SessionSetup.ran (.gray 3 1 (fun _ => true)
      fun _ => some ⟨0, 0, 2⟩)
    (strokeThen
      [.handleDeferred
        ⟨1, 4, some (grayFrame 1 1 2 0 .settled ⟨0, 0, 3, 1⟩ [8, 8, 8])⟩
        (.ofSecs 7)])
    (fun history _ => clearedRows history ==
      some [([8], [8]), ([8], [8]), ([8], [8])])
    (by decide +kernel)
  obtain ⟨history, after, run, checked⟩ := ran
  obtain ⟨older, before, surface, now, output, screen, earlier, active, runs,
    shown, rows⟩ := clearInk_of_rows run (beq_iff_eq.mp checked)
  have reliable : before.panel.Reliable :=
    earlier.reliable ⟨fun _ => rfl, fun _ => rfl⟩
  obtain ⟨answers, _, _, isScreen, planes, erases⟩ :=
    inkErased_iff_of_run earlier reliable.willing active runs
  rw [shown] at isScreen
  cases isScreen
  exact ⟨_, older, before, after, surface, screen, earlier, active, shown,
    planes, rows, erases⟩

/-- A stroke stays on the screen if nothing is pending. -/
theorem not_inkErased_of_stroke :
    ∃ (setup : SessionSetup) (history : List SessionEvent)
      (final after : Session) (surface screen : ActiveSurface) (now : Duration)
      (answers : List Envelope), SessionRun setup history final ∧ final.panel.Willing ∧
      final.surface = some surface ∧
      (Session.clearInk now).Runs final (.ok answers) after ∧
      after.surface = some screen ∧
      rowsOf screen.core = [([0], [9]), ([0], [9]), ([0], [9])] ∧
      ¬ InkErased ⟨screen.core, after.panel⟩ := by
  have ran := @SessionSetup.ran (.gray 3 1 (fun _ => true)
      fun _ => some ⟨0, 0, 2⟩) (strokeThen [])
    (fun history final => clearedRows history ==
        some [([0], [9]), ([0], [9]), ([0], [9])] &&
      final.surface.any fun screen =>
        decide (0 < screen.core.width ∧ 0 < screen.core.height))
    (by decide +kernel)
  obtain ⟨history, after, run, checked⟩ := ran
  simp only [Bool.and_eq_true, beq_iff_eq] at checked
  obtain ⟨cleared, sized⟩ := checked
  obtain ⟨older, before, surface, now, output, screen, earlier, active, runs,
    shown, rows⟩ := clearInk_of_rows run cleared
  have reliable : before.panel.Reliable :=
    earlier.reliable ⟨fun _ => rfl, fun _ => rfl⟩
  have coherent := earlier.sound.coherent surface.screen
    (Session.screen_of_surface active)
  obtain ⟨answers, _, _, rfl, _⟩ :=
    Session.clearInk_presents active coherent reliable.willing runs
  refine ⟨_, older, before, after, surface, screen, now, answers, earlier,
    reliable.willing, active, runs, shown, rows, ?_⟩
  intro erased
  rw [shown, Option.any_some, decide_eq_true_eq] at sized
  have same : screen.core.presented.picture (0, 0) =
      screen.core.inkless (0, 0) := erased.shown (0, 0) sized.1 sized.2
  have first : (screen.core.presented.picture (0, 0),
      screen.core.inkless (0, 0)) = (([0], [9]) : Bytes × Bytes) :=
    (List.cons.inj rows).1
  cases (Prod.ext_iff.mp first).1.symm.trans (same.trans
    (Prod.ext_iff.mp first).2)

end RmDisplay.Receiver
