import RmDisplay.Core.Recovery
import RmDisplay.Core.Submissions

/-!
# Cleanup reports

A cleanup report is put together from the terminal frames of a nested tick, or
branch by branch.  Here it is compared with the calls the panel got: what it
calls performed is a complete refresh that the panel accepted, and what it
calls a failure is a failing call.
-/

namespace RmDisplay.Core

open Foundation Protocol DisplayCore

/-- What a report says about the calls made. -/
structure CleanupReport.Honest (report : CleanupReport)
    (calls : List PanelCall) : Prop where
  performed : report.cleanupPerformed = calls.any (·.refreshes)
  failed : report.backendFailed = calls.any (·.failed)

/-- A cleanup of `before` that made the calls. -/
structure Cleans (before : World) (report : CleanupReport)
    (calls : List PanelCall) (after : World) : Prop where
  honest : report.Honest calls
  exactlyOne : report.cleanupPerformed = !report.cleanupPending
  armed : report.cleanupPending = after.core.forceCleanupNext
  /-- A pending frame gets its terminal. -/
  terminal : ∀ pending, before.core.pending = some pending →
    after.core.pending = none ∧
      ∃ terminal, report.terminals = [terminal] ∧
        terminal.frameId = pending.frameId ∧
        (calls.any (·.failed) = false → terminal.outcome = .presented ∧
          terminal.metrics.completeRefresh = true)
  noTerminal : before.core.pending = none → report.terminals = []
  /-- A presented image is submitted again, once the panel was pumped. -/
  resubmitted : before.core.pending = none →
    before.core.presentedFrameId ≠ 0 →
      after.core.presented = before.core.presented ∧
        (calls = [.pump false] ∨ ∃ decision reply,
          decision.completeRefresh = true ∧
          calls = [.submit ⟨.cleanup, before.core.presented,
            fullDamage before.core.width before.core.height, decision, reply⟩,
            .pump true])
  nothing : before.core.pending = none → before.core.presentedFrameId = 0 →
    calls = []

/-- The part of a profile change that reports a cleanup. -/
def RefreshProfileChange.report (change : RefreshProfileChange) :
    CleanupReport where
  cleanupPerformed := change.cleanupPerformed
  cleanupPending := change.cleanupPending
  backendFailed := change.backendFailed
  terminals := change.terminals

/-- A profile change that selected the configuration and made the calls. -/
structure Selects (config : RefreshPolicyConfig) (before : World)
    (change : RefreshProfileChange) (calls : List PanelCall) (after : World) :
    Prop where
  honest : change.report.Honest calls
  selected : change.config = config
  changed : change.changed = (config != before.core.refreshPolicy.config)
  inForce : after.core.refreshPolicy.config = config
  tile : after.core.damageTile = config.damageTile
  cleans : change.changed = true ∨ before.core.forceCleanupNext = true →
    Cleans before change.report calls after
  /-- Otherwise the panel and the frames are left alone. -/
  rests : change.changed = false → before.core.forceCleanupNext = false →
    change.report = ⟨false, false, false, []⟩ ∧ calls = [] ∧
      after.core.pending = before.core.pending

/-- What a terminal frame says about the calls made while a cleanup is
armed. -/
structure FrameCleans (before : World) (terminal : TerminalFrame)
    (calls : List PanelCall) (after : World) : Prop where
  added : after.panel.calls = calls ++ before.panel.calls
  performed : (terminal.outcome == .presented &&
    terminal.metrics.completeRefresh) = calls.any (·.refreshes)
  failed : (terminal.outcome == .backendFailure) = calls.any (·.failed)
  disarmed : after.core.forceCleanupNext = !calls.any (·.refreshes)
  one : calls.any (·.failed) = !calls.any (·.refreshes)

/-- An armed cleanup makes every frame a complete refresh, so that a frame
whose pixels are on the panel is submitted nevertheless. -/
theorem FrameStep.cleans {timing : Timing} {before after : World}
    {terminal : TerminalFrame}
    (step : FrameStep timing before terminal after)
    (coherent : Coherent before.core)
    (armed : before.core.forceCleanupNext = true) :
    ∃ calls, FrameCleans before terminal calls after := by
  have complete {core : DisplayCore} {pending : PendingPresentation}
      {prepared : Prepared} (coherent : Coherent core)
      (armed : core.forceCleanupNext = true)
      (isPending : core.pending = some pending)
      (prepares : core.prepareFrame pending = .ok prepared) :
      prepared.decision.completeRefresh = true ∧
        prepared.damage = fullDamage core.width core.height := by
    have spec := (prepareFrame_spec coherent
      (coherent.hint _ isPending)).of_ok prepares
    have isComplete := spec.cleanup (.inr armed)
    exact ⟨isComplete, spec.complete isComplete⟩
  cases step with
  | pumpFailed isPending failed =>
      refine ⟨[_], rfl, ?_, ?_, ?_, ?_⟩
      · simp [PanelCall.refreshes, pumpFailedTerminal]
      · simp [PanelCall.failed, pumpFailedTerminal, failed]
      · exact armed.trans rfl
      · simp [PanelCall.failed, PanelCall.refreshes, failed]
  | unchanged isPending pumped prepares nothing =>
      have isFull := (complete coherent armed isPending prepares).2
      rw [nothing] at isFull
      cases isFull
  | refused isPending pumped prepares damaged refuses =>
      refine ⟨[_, _], rfl, ?_, ?_, ?_, ?_⟩
      · simp [PanelCall.refreshes, refuses]
      · simp [PanelCall.failed, refuses]
      · simp only [List.any_cons, PanelCall.refreshes, refuses]
        exact armed
      · simp [PanelCall.failed, PanelCall.refreshes, refuses]
  | accepted isPending pumped prepares damaged accepts presents =>
      have isComplete := (complete coherent armed isPending prepares).1
      obtain ⟨_, _, _, _, _, rfl⟩ := presentAccepted_eq_ok presents
      refine ⟨[_, _], rfl, ?_, ?_, ?_, ?_⟩
      · simp [PanelCall.refreshes, frameMetrics, isComplete, accepts]
      · simp [PanelCall.failed, accepts, pumped]
      · simp [PanelCall.refreshes, isComplete, accepts]
      · simp [PanelCall.failed, PanelCall.refreshes, isComplete, accepts,
          pumped]

theorem CleanupStep.cleans {timing : Timing} {before after : World}
    {report : CleanupReport} (step : CleanupStep timing before report after)
    (idle : before.core.pending = none)
    (armed : before.core.forceCleanupNext = true)
    (presented : before.core.presentedFrameId ≠ 0) :
    ∃ calls, after.panel.calls = calls ++ before.panel.calls ∧
      Cleans before report calls after := by
  have noFrame {goal : PendingPresentation → Prop} (other : PendingPresentation)
      (isPending : before.core.pending = some other) : goal other := by
    rw [idle] at isPending
    cases isPending
  have shown {goal : Prop} (_ : before.core.pending = none)
      (none : before.core.presentedFrameId = 0) : goal := absurd none presented
  have isComplete (core : DisplayCore) :
      core.cleanupDecision.completeRefresh = true :=
    RefreshPolicy.decide_forced _ _ _ _ _
  cases step with
  | pumpFailed failed =>
      refine ⟨[.pump false], ?_, ⟨rfl, rfl⟩, rfl, armed.symm, noFrame,
        fun _ => rfl, fun _ _ => ⟨rfl, .inl rfl⟩, shown⟩
      rw [← failed]
      rfl
  | @refused core panel pumped refuses =>
      refine ⟨[.submit ⟨.cleanup, core.presented,
        fullDamage core.width core.height, core.cleanupDecision, none⟩,
        .pump true], ?_, ⟨rfl, rfl⟩, rfl, armed.symm, noFrame, fun _ => rfl,
        fun _ _ => ⟨rfl, .inr ⟨_, _, isComplete core, rfl⟩⟩, shown⟩
      rw [← refuses, ← pumped]
      rfl
  | @accepted core panel metrics pumped accepts =>
      rw [cleanupAccepted_eq]
      refine ⟨[.submit ⟨.cleanup, core.presented,
        fullDamage core.width core.height, core.cleanupDecision, some metrics⟩,
        .pump true], ?_, ⟨?_, rfl⟩, rfl, rfl, noFrame, fun _ => rfl,
        fun _ _ => ⟨rfl, .inr ⟨_, _, isComplete core, rfl⟩⟩, shown⟩
      · rw [← accepts, ← pumped]
        rfl
      · simp [performedCleanup, PanelCall.refreshes, isComplete]

theorem Cleans.adjusted {core next : DisplayCore} {panel : Panel}
    {report : CleanupReport} {calls : List PanelCall} {after : World}
    (cleans : Cleans ⟨next, panel⟩ report calls after)
    (adjusts : Adjusts core next) : Cleans ⟨core, panel⟩ report calls after := by
  obtain ⟨_, _, _, _, _, _, rfl⟩ := adjusts.frame
  obtain ⟨honest, exactlyOne, armed, terminal, noTerminal, resubmitted,
    nothing⟩ := cleans
  exact ⟨honest, exactlyOne, armed, terminal, noTerminal, resubmitted, nothing⟩

section

variable {world after : World} {timing : Timing}

theorem requestCleanup_cleans (coherent : Coherent world.core)
    {output : Except CoreError CleanupReport}
    (runs : (requestCleanup timing).Runs world output after) :
    ∃ report calls, output = .ok report ∧
      after.panel.calls = calls ++ world.panel.calls ∧
      Cleans world report calls after := by
  obtain ⟨core, panel⟩ := world
  have armedCoherent : Coherent core.requireCleanup :=
    (@Adjusts.armed core).coherent coherent
  simp only [requestCleanup, getCore_bind, setCore_bind] at runs
  split at runs
  · rename_i isPending
    obtain ⟨pending, isPending⟩ := Option.isSome_iff_exists.mp isPending
    rw [Proc.runs_bind] at runs
    rcases runs with ⟨terminals, between, ticked, runs⟩ | ⟨err, rfl, failed⟩
    · rcases tickInner_runs armedCoherent ticked with
        ⟨_, _, none | ⟨impossible, _⟩⟩ | ⟨terminal, same, step⟩
      · cases isPending.symm.trans none
      · cases impossible
      · cases same
        simp only [getCore_bind, Proc.runs_pure] at runs
        obtain ⟨rfl, rfl⟩ := runs
        obtain ⟨calls, cleans⟩ := step.cleans armedCoherent rfl
        obtain ⟨⟨other, samePending, named⟩, _⟩ := step.terminal_eq
        refine ⟨_, calls, rfl, cleans.added, ⟨?_, ?_⟩, ?_, rfl, ?_, ?_, ?_, ?_⟩
        · simpa using cleans.performed
        · simpa using cleans.failed
        · simpa [cleans.disarmed] using cleans.performed
        · intro given isGiven
          cases isGiven.symm.trans samePending
          refine ⟨step.idle, terminal, rfl, named, fun working => ?_⟩
          have refreshed : calls.any (·.refreshes) = true := by
            rw [cleans.one, Bool.not_eq_false'] at working
            exact working
          have shown := cleans.performed.trans refreshed
          rw [Bool.and_eq_true, beq_iff_eq] at shown
          exact shown
        all_goals
          intro none
          cases isPending.symm.trans none
    · obtain ⟨_, impossible, _⟩ := tickInner_steps armedCoherent failed
      cases impossible
  · rename_i idle
    have idle : core.pending = none := by simpa [requireCleanup] using idle
    split at runs
    · rename_i zero
      rw [Proc.runs_pure] at runs
      obtain ⟨rfl, rfl⟩ := runs
      refine ⟨_, [], rfl, rfl, ⟨rfl, rfl⟩, rfl, rfl, ?_, fun _ => rfl, ?_,
        fun _ _ => rfl⟩
      · intro pending isPending
        rw [idle] at isPending
        cases isPending
      · exact fun _ presented => absurd zero presented
    · rename_i presented
      obtain ⟨report, rfl, _, step⟩ := resubmitPresented_runs runs
      obtain ⟨calls, added, cleans⟩ := step.cleans idle rfl presented
      exact ⟨report, calls, rfl, added, cleans.adjusted .armed⟩

theorem requestCleanup_setting (coherent : Coherent world.core)
    {output : Except CoreError CleanupReport}
    (runs : (requestCleanup timing).Runs world output after) :
    after.core.setting = world.core.setting := by
  obtain ⟨_, _, _, steps⟩ := requestCleanup_steps coherent runs
  refine (steps.keeps (fun current => Coherent current.core ∧
    current.core.setting = world.core.setting) ?_
    ⟨(@Adjusts.armed world.core).coherent coherent, rfl⟩).2
  rintro current next action given presents step ⟨coherent, same⟩
  refine ⟨step.coherent coherent, (step.setting_eq coherent ?_).trans same⟩
  rcases presents with ⟨rfl, _⟩ | rfl <;> exact fun impossible => nomatch impossible

theorem changeRefreshProfile_selects (coherent : Coherent world.core)
    {config : RefreshPolicyConfig} (valid : config.validate = .ok ())
    {output : Except CoreError RefreshProfileChange}
    (runs : (changeRefreshProfile config timing).Runs world output after) :
    ∃ change calls, output = .ok change ∧
      after.panel.calls = calls ++ world.panel.calls ∧
      Selects config world change calls after := by
  have updated : world.core.updateRefreshConfig config =
      .ok (config != world.core.refreshPolicy.config,
        { world.core with
          refreshPolicy := { world.core.refreshPolicy with config }
          damageTile := config.damageTile }) := by
    unfold updateRefreshConfig RefreshPolicy.reconfigure
    rw [valid]
    rfl
  rcases changeRefreshProfile_runs coherent runs with
    ⟨changed, configured, report, updates, rfl, rest⟩ | ⟨⟨_, _, fails⟩, _⟩
  · have configuredCoherent : Coherent configured :=
      (Adjusts.configured updates).coherent coherent
    have adjusts := Adjusts.configured updates
    rw [updated] at updates
    cases updates
    split at rest
    · rename_i cleans
      obtain ⟨given, calls, same, added, cleaned⟩ :=
        requestCleanup_cleans configuredCoherent rest
      cases same
      have setting := requestCleanup_setting configuredCoherent rest
      have inForce := congrArg (·.2.1) setting
      have tile := congrArg (·.2.2) setting
      refine ⟨_, calls, rfl, added, cleaned.honest, rfl, rfl, inForce, tile,
        fun _ => cleaned.adjusted adjusts, ?_⟩
      intro (same : (config != world.core.refreshPolicy.config) = false) unarmed
      simp [same, unarmed] at cleans
    · rename_i rests
      obtain ⟨rfl, rfl⟩ := rest
      refine ⟨_, [], rfl, rfl, ⟨rfl, rfl⟩, rfl, rfl, rfl, rfl, ?_,
        fun _ _ => ⟨rfl, rfl, rfl⟩⟩
      intro cleans
      exact absurd (Bool.or_eq_true_iff.mpr cleans) rests
  · rw [updated] at fails
    cases fails

end

/-- What every state of a run guarantees about a cleanup. -/
structure CleanupHonest (setup : CoreSetup) (final : World) : Prop where
  cleanup : ∀ timing output after,
    (requestCleanup timing).Runs final output after →
      ∃ report calls, output = .ok report ∧
        after.panel.calls = calls ++ final.panel.calls ∧
        Cleans final report calls after
  profile : ∀ config timing output after, config.validate = .ok () →
    (changeRefreshProfile config timing).Runs final output after →
      ∃ change calls, output = .ok change ∧
        after.panel.calls = calls ++ final.panel.calls ∧
        Selects config final change calls after
  /-- Both return on a surface whose pixels can be counted. -/
  returns : setup.width * setup.height < 2 ^ 32 → ∀ timing,
    (∃ output after, (requestCleanup timing).Runs final output after) ∧
      ∀ config, ∃ output after,
        (changeRefreshProfile config timing).Runs final output after

theorem cleanupHonest_of_run {setup : CoreSetup} {history : List CoreEvent}
    {final : World} (run : CoreRun setup history final) :
    CleanupHonest setup final := by
  have coherent := run.coherent
  refine ⟨fun _ _ _ => requestCleanup_cleans coherent,
    fun _ _ _ _ valid => changeRefreshProfile_selects coherent valid, ?_⟩
  intro bounded timing
  have small := run.pixels_le bounded
  obtain ⟨output, after, runs, _⟩ :=
    @requestCleanup_returns final coherent small timing
  refine ⟨⟨output, after, runs⟩, fun config => ?_⟩
  obtain ⟨output, after, runs, _⟩ :=
    @changeRefreshProfile_returns final coherent small timing config
  exact ⟨output, after, runs⟩

/-- A frame that repaints the shown pixel is pending, on a panel that refuses
its fourth call. -/
theorem cleanupHonest_repaintPending :
    ∃ history final,
      CoreRun (.gray 1 1 (fun _ => true)
        fun call => if call = 3 then none else some { }) history final ∧
      final.panel.calls.length = 2 ∧
      final.core.pending.map (·.frameId) = some 2 ∧
      CleanupHonest (.gray 1 1 (fun _ => true)
        fun call => if call = 3 then none else some { }) final := by
  have replayed : ((CoreSetup.gray 1 1 (fun _ => true)
      fun call => if call = 3 then none else some { }).replay
      [.commit (grayFrame 2 1 .latest ⟨0, 0, 1, 1⟩ [10]) .textUi
          { now := .ofSecs 3 } 0,
        .tick { now := .ofSecs 2 },
        .commit (grayFrame 1 0 .latest ⟨0, 0, 1, 1⟩ [10]) .textUi
          { now := .ofSecs 1 } 0]).map (fun result =>
        (result.2.panel.calls.length,
          result.2.core.pending.map (·.frameId))) =
      some (2, some 2) := by decide +kernel
  obtain ⟨⟨history, final⟩, replayed, facts⟩ :=
    Option.map_eq_some_iff.mp replayed
  simp only [Prod.mk.injEq] at facts
  have run := CoreSetup.run_of_replay replayed
  exact ⟨history, final, run, facts.1, facts.2, cleanupHonest_of_run run⟩

end RmDisplay.Core
