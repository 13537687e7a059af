import RmDisplay.Core.PartialUpdates
import RmDisplay.Receiver.SessionRuns

/-!
# The debt of partial updates

The count of partial updates a session reports is the tally of the calls its
cores made to the panel.  Opening, replacing and closing a surface hand it on.
-/

namespace RmDisplay.Receiver

open Foundation Protocol RmDisplay.Core Core.DisplayCore

/-- The partial updates since the last complete refresh. -/
def Face.partialCount (self : Face) : Nat :=
  self.debt.physicalPartialUpdatesSinceCleanup

theorem Face.partialCount_shown {face : Face} {screen : Screen}
    (shown : face.screen = some screen) :
    face.partialCount = screen.core.refreshPolicy.presentedSinceCleanup := by
  simp only [partialCount, debt, shown]
  rfl

theorem currentRefreshState_partialCount (session : Session) :
    session.currentRefreshState.presentedSinceFullRefresh =
      session.face.partialCount := by
  cases shown : session.surface with
  | none =>
      simp [Session.currentRefreshState, Face.partialCount, Face.debt,
        Session.face, shown]
  | some surface =>
      simp [Session.currentRefreshState, Face.partialCount, Face.debt,
        Session.face, shown, ActiveSurface.screen, refreshDebt,
        RefreshPolicy.debt]

theorem InkStep.refreshPolicy {screen next : Screen}
    {entry : Option JournalEntry} (step : InkStep screen entry next) :
    next.core.refreshPolicy = screen.core.refreshPolicy := by
  cases step with
  | drew _ _ _ _ _ edits =>
      obtain ⟨edited, _, stored⟩ := Res.bind_eq_ok.mp edits
      cases stored
      rfl
  | _ => rfl

/-- The calls of a step, counted by the face. -/
def FaceCounted (before after : Face) : Prop :=
  ∃ made, after.panel.calls = made ++ before.panel.calls ∧
    after.partialCount = partialUpdates before.partialCount made

theorem faceCounted_of_same {before after : Face}
    (calls : after.panel.calls = before.panel.calls)
    (same : after.partialCount = before.partialCount) :
    FaceCounted before after :=
  ⟨[], calls, same⟩

theorem faceCounted_of_policy {before after : Face} {screen next : Screen}
    (shown : before.screen = some screen) (isNext : after.screen = some next)
    (calls : after.panel.calls = before.panel.calls)
    (policy : next.core.refreshPolicy = screen.core.refreshPolicy) :
    FaceCounted before after := by
  apply faceCounted_of_same calls
  rw [Face.partialCount_shown shown, Face.partialCount_shown isNext, policy]

theorem FaceStep.counted {before after : Station} {entries : List JournalEntry}
    (step : FaceStep before entries after) :
    FaceCounted before.face after.face := by
  cases step with
  | @core _ _ action _ _ _ shown plain step =>
      have notAdjust : action ≠ .adjust := by
        rintro rfl
        exact plain
      obtain ⟨made, calls, count⟩ := step.counted notAdjust
      refine ⟨made, calls, ?_⟩
      rw [Face.partialCount_shown shown, Face.partialCount_shown rfl]
      exact count
  | configured shown updates =>
      obtain ⟨policy, configured, stored⟩ := Res.bind_eq_ok.mp updates
      rw [Res.mapError_eq_ok] at configured
      obtain ⟨_, _, samePolicy⟩ := Res.bind_eq_ok.mp configured
      cases stored
      cases samePolicy
      refine faceCounted_of_same rfl ?_
      rw [Face.partialCount_shown shown, Face.partialCount_shown rfl]
  | noted shown _ | asked shown _ _ | released shown _ =>
      exact faceCounted_of_policy shown rfl rfl rfl
  | frozen shown _ _ => exact faceCounted_of_policy shown rfl rfl rfl
  | @inked face screen next entry _ shown step =>
      refine faceCounted_of_policy shown rfl ?_ step.refreshPolicy
      cases entry <;> rfl
  | accepted admits commits =>
      obtain ⟨_, _, _, _, _, base, _, rfl⟩ := commitTimed_eq_ok commits
      exact faceCounted_of_policy (Session.screen_of_admits admits) rfl rfl rfl
  | @carried face _ cleanup debt carries =>
      refine faceCounted_of_same rfl ?_
      cases shown : face.screen with
      | some screen =>
          simp only [Face.partialCount, Face.debt, shown]
      | none =>
          cases carries with
          | debt | cleanup | both =>
              simp only [Face.partialCount, Face.debt, shown]
  | @opened face core _ _ _ _ _ opens =>
      refine faceCounted_of_same rfl ?_
      have same : core.refreshDebt = face.debt := opens.debt.trans opens.kept
      exact congrArg (·.physicalPartialUpdatesSinceCleanup) same
  | @closed face _ kept =>
      refine faceCounted_of_same rfl ?_
      exact congrArg (·.physicalPartialUpdatesSinceCleanup) kept.2
  | fallback hidden pixels damage decision =>
      refine ⟨[.submit _], rfl, ?_⟩
      simp only [partialUpdates]
      split
      · rfl
      · rfl
  | _ => exact faceCounted_of_same rfl rfl

/-- In every session, the count of partial updates reported at any time is the
tally of the calls the cores of the session made to the panel. -/
theorem partialDebt_of_run {setup : SessionSetup}
    {history : List SessionEvent} {final : Session}
    (run : SessionRun setup history final) :
    ∃ made, final.panel.calls = made ++ setup.panel.calls ∧
      final.currentRefreshState.presentedSinceFullRefresh =
        partialUpdates 0 made := by
  rw [currentRefreshState_partialCount]
  refine run.keepsAlways
    (fun face => ∃ made, face.panel.calls = made ++ setup.panel.calls ∧
      face.partialCount = partialUpdates 0 made) ⟨[], rfl, rfl⟩ ?_
  rintro station next entries step _ ⟨made, calls, count⟩
  obtain ⟨more, moreCalls, moreCount⟩ := step.counted
  refine ⟨more ++ made, ?_, ?_⟩
  · rw [moreCalls, calls, List.append_assoc]
  · rw [moreCount, count, partialUpdates_append]

/-- Two partial updates are still counted after the surface was closed. -/
theorem partialDebt_of_close :
    ∃ setup history final made, SessionRun setup history final ∧
      final.surface.isNone ∧ final.panel.calls = made ++ setup.panel.calls ∧
      final.currentRefreshState.presentedSinceFullRefresh = 2 ∧
      partialUpdates 0 made = 2 := by
  have ran := @SessionSetup.ran (.gray 1 1 (fun _ => true)
      fun _ => some ⟨0, 0, 2⟩)
    [grayMessage 5 (.surfaceClose 1 1) (.ofSecs 4),
      grayMessage 4 (grayFrame 1 1 2 1 .latest ⟨0, 0, 1, 1⟩ [7]) (.ofSecs 3),
      grayMessage 3 (grayFrame 1 1 1 0 .settled ⟨0, 0, 1, 1⟩ [9]) (.ofSecs 2),
      grayMessage 2 (grayOpen 1 []) (.ofSecs 1),
      grayMessage 1 (.clientHello (grayHello [.byteCredits])) 1]
    (fun _ final => final.surface.isNone &&
      final.currentRefreshState.presentedSinceFullRefresh == 2)
    (by decide +kernel)
  obtain ⟨history, final, run, checked⟩ := ran
  rw [Bool.and_eq_true, beq_iff_eq] at checked
  obtain ⟨made, calls, count⟩ := partialDebt_of_run run
  exact ⟨_, history, final, made, run, checked.1, calls, checked.2,
    count.symm.trans checked.2⟩

end RmDisplay.Receiver
