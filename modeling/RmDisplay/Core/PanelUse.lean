import RmDisplay.Core.OperationSteps

/-!
# When an operation uses the panel

An operation that is given a time may present the pending frame and then draw
a plane, or resubmit the image.  It does so at that time.  No other operation
calls the panel.
-/

namespace RmDisplay.Core

open Foundation Protocol DisplayCore

namespace PanelCall

/-- A pump that succeeded. -/
def isReady : PanelCall → Bool
  | .pump accepted => accepted
  | .submit _ => false

/-- A submission that succeeded. -/
def isAccepted : PanelCall → Bool
  | .pump _ => false
  | .submit submission => submission.reply.isSome

/-- A submission of a frame that failed. -/
def refusesFrame : PanelCall → Bool
  | .pump _ => false
  | .submit submission =>
      match submission.origin with
      | .frame _ _ => submission.reply.isNone
      | .overlay | .ink | .cleanup | .fallback => false

end PanelCall

/-- The panel was ready and did not refuse the frame.  A frame that changes
nothing is not submitted. -/
def showsFrame (calls : List PanelCall) : Bool :=
  calls.any (·.isReady) && !calls.any (·.refusesFrame)

namespace CoreOp

/-- The time an operation is given. -/
def timing : CoreOp → Option Timing
  | .commit _ _ timing _ | .tick timing | .tickInteractive timing _
  | .tickWithoutIdleCleanup timing | .presentOverlay timing
  | .presentInk timing | .requestCleanup timing
  | .changeRefreshProfile _ timing => some timing
  | .updateRefreshConfig _ | .freezePresented | .cancelPending
  | .requireCleanup | .restoreRefreshDebt _ | .setInkWaveform _
  | .edit _ _ => none

end CoreOp

namespace CoreEvent

def now (event : CoreEvent) : Option Duration :=
  event.input.timing.map (·.now)

/-- The pending frame was presented. -/
def presentsFrame (event : CoreEvent) : Bool :=
  event.before.core.pending.isSome && showsFrame event.calls

/-- A frame was presented or a submission succeeded. -/
def refreshes (event : CoreEvent) : Bool :=
  event.presentsFrame || event.calls.any (·.isAccepted)

end CoreEvent

/-- The time of the latest presentation or successful submission. -/
def lastRefresh : List CoreEvent → Option Duration
  | [] => none
  | event :: older => if event.refreshes then event.now else lastRefresh older

/-- Damage that no complete refresh has removed, and when it was last added
to. -/
structure PartialDamage where
  pixels : Nat
  latest : Option Duration

namespace PartialDamage

/-- What a call at `now` adds. -/
def record (now : Duration) (call : PanelCall) (damage : PartialDamage) :
    PartialDamage :=
  match call with
  | .pump _ => damage
  | .submit submission =>
      if submission.reply.isNone then damage
      else if submission.decision.completeRefresh then ⟨0, none⟩
      else
        ⟨Bounded.saturatingAdd u64Max damage.pixels
            (damagePixels submission.damage),
          some now⟩

end PartialDamage

def DisplayCore.partialDamage (self : DisplayCore) : PartialDamage :=
  ⟨self.partialDamagePixelsSinceCleanup, self.lastPartialAt⟩

/-- Nothing is presented. -/
structure Calm (before after : World) : Prop where
  panel : after.panel = before.panel
  lastPresentAt : after.core.lastPresentAt = before.core.lastPresentAt
  damage : after.core.partialDamage = before.core.partialDamage
  shown : after.core.presentedFrameId = before.core.presentedFrameId

theorem Calm.refl (world : World) : Calm world world := ⟨rfl, rfl, rfl, rfl⟩

/-- What an operation does with the panel at one time. -/
inductive PanelUse (timing : Timing) : World → World → Prop where
  | rests {world : World} : PanelUse timing world world
  | frame {before after : World} {terminal : TerminalFrame}
      (step : FrameStep timing before terminal after) :
      PanelUse timing before after
  | plane {before after : World} {intent : FrameIntent}
      {output : Except CoreError Unit} (idle : before.core.pending = none)
      (step : PlaneStep timing intent before output after) :
      PanelUse timing before after
  | both {before middle after : World} {terminal : TerminalFrame}
      {intent : FrameIntent} {output : Except CoreError Unit}
      (first : FrameStep timing before terminal middle)
      (second : PlaneStep timing intent middle output after) :
      PanelUse timing before after
  | cleanup {before after : World} {report : CleanupReport}
      (idle : before.core.pending = none)
      (step : CleanupStep timing before report after) :
      PanelUse timing before after

/-- What new calls at one time have done to the core. -/
structure Marks (now : Duration) (before : World) (shown refreshed : Bool)
    (new : List PanelCall) (after : World) : Prop where
  calls : after.panel.calls = new ++ before.panel.calls
  lastPresentAt : after.core.lastPresentAt =
    if refreshed then some now else before.core.lastPresentAt
  damage : after.core.partialDamage =
    new.foldr (PartialDamage.record now) before.core.partialDamage
  presented : shown = false →
    after.core.presentedFrameId = before.core.presentedFrameId
  failure : after.core.lastIdleCleanupFailure =
    before.core.lastIdleCleanupFailure

section

variable {timing : Timing} {before middle after : World}

theorem partialDamage_submitted (core : DisplayCore)
    (submission : Submission) (accepted : submission.reply.isSome)
    (now : Duration) (submissions : Nat) (settleDamage : List Rect)
    (fastUpdates : Nat) :
    (core.submitted submission.decision submission.damage now submissions
        settleDamage fastUpdates).partialDamage =
      PartialDamage.record now (.submit submission) core.partialDamage := by
  have notRefused : submission.reply.isNone = false := by
    simpa using accepted
  unfold submitted recordPanelDamage PartialDamage.record partialDamage
  simp only [notRefused, Bool.false_eq_true, if_false]
  cases submission.decision.completeRefresh <;> rfl

theorem lastPresentAt_submitted (core : DisplayCore)
    (decision : RefreshDecision) (damage : List Rect) (now : Duration)
    (submissions : Nat) (settleDamage : List Rect) (fastUpdates : Nat) :
    (core.submitted decision damage now submissions settleDamage
      fastUpdates).lastPresentAt = some now := by
  obtain ⟨_, _, same⟩ := submitted_eq core decision damage now submissions
    settleDamage fastUpdates
  rw [same]

theorem failure_submitted (core : DisplayCore)
    (decision : RefreshDecision) (damage : List Rect) (now : Duration)
    (submissions : Nat) (settleDamage : List Rect) (fastUpdates : Nat) :
    (core.submitted decision damage now submissions settleDamage
      fastUpdates).lastIdleCleanupFailure = core.lastIdleCleanupFailure := by
  obtain ⟨_, _, same⟩ := submitted_eq core decision damage now submissions
    settleDamage fastUpdates
  rw [same]

theorem FrameStep.marks {terminal : TerminalFrame}
    (step : FrameStep timing before terminal after) :
    ∃ new, Marks timing.now before (showsFrame new) (showsFrame new) new after ∧
      (new.any (·.isAccepted) = true → showsFrame new = true) := by
  cases step with
  | @pumpFailed core panel pending isPending failed =>
      refine ⟨[.pump panel.nextPump], ⟨rfl, ?_, rfl, fun _ => rfl, rfl⟩, ?_⟩
      · simp [showsFrame, PanelCall.isReady, failed]
        rfl
      · simp [PanelCall.isAccepted]
  | @unchanged core panel pending prepared isPending pumped _ _ =>
      refine ⟨[.pump panel.nextPump], ⟨rfl, ?_, rfl, ?_, rfl⟩, ?_⟩
      · simp [showsFrame, PanelCall.isReady, PanelCall.refusesFrame, pumped]
        rfl
      · simp [showsFrame, PanelCall.isReady, PanelCall.refusesFrame, pumped]
      · simp [PanelCall.isAccepted]
  | refused isPending pumped _ _ refuses =>
      refine ⟨[.submit _, .pump _], ⟨rfl, ?_, ?_, ?_, rfl⟩, ?_⟩
      · simp [showsFrame, PanelCall.refusesFrame, refuses]
        rfl
      · simp [PartialDamage.record, refuses]
        rfl
      · exact fun _ => rfl
      · simp [PanelCall.isAccepted, refuses]
  | @accepted core next panel pending prepared metrics isPending pumped _ _
      accepts presents =>
      obtain ⟨working, settleDamage, fastUpdates, _, _, rfl⟩ :=
        presentAccepted_eq_ok presents
      have shown : showsFrame [.submit ⟨.frame pending.frameId pending.intent,
          prepared.working, prepared.damage, prepared.decision,
          panel.afterPump.nextSubmit⟩, .pump panel.nextPump] = true := by
        simp [showsFrame, PanelCall.isReady, PanelCall.refusesFrame, pumped,
          accepts]
      refine ⟨_, ⟨rfl, ?_, ?_, ?_, ?_⟩, fun _ => shown⟩
      · rw [shown]
        exact lastPresentAt_submitted core prepared.decision prepared.damage
          timing.now metrics.physicalSubmissions settleDamage fastUpdates
      · exact partialDamage_submitted core ⟨_, _, _, _, _⟩ (by simp [accepts])
          timing.now metrics.physicalSubmissions settleDamage fastUpdates
      · rw [shown]
        exact fun impossible => by cases impossible
      · exact failure_submitted core prepared.decision prepared.damage
          timing.now metrics.physicalSubmissions settleDamage fastUpdates

/-- Drawing a plane never calls for a frame. -/
theorem PlaneStep.marks {intent : FrameIntent}
    {output : Except CoreError Unit}
    (step : PlaneStep timing intent before output after) :
    ∃ new, Marks timing.now before false (new.any (·.isAccepted)) new after ∧
      new.any (·.isReady) = false ∧ new.any (·.refusesFrame) = false := by
  cases step with
  | @failed core panel err fails =>
      obtain ⟨ink, taken⟩ := planeTaken_frame core intent
      rw [taken]
      exact ⟨[], ⟨rfl, rfl, rfl, fun _ => rfl, rfl⟩, rfl, rfl⟩
  | unchanged draws =>
      obtain ⟨ink, working, rfl⟩ := drawnPlane_frame draws
      exact ⟨[], ⟨rfl, rfl, rfl, fun _ => rfl, rfl⟩, rfl, rfl⟩
  | @refused core drawn panel damage draws _ refuses =>
      obtain ⟨ink, working, rfl⟩ := drawnPlane_frame draws
      refine ⟨[.submit _], ⟨rfl, ?_, ?_, fun _ => rfl, rfl⟩, rfl, ?_⟩
      · simp [PanelCall.isAccepted, refuses]
      · simp [PartialDamage.record, refuses]
        rfl
      · cases intent <;> rfl
  | @accepted core drawn next panel damage metrics draws _ accepts presents =>
      obtain ⟨presented, settleDamage, fastUpdates, _, _, rfl⟩ :=
        planeAccepted_eq_ok presents
      have recorded := partialDamage_submitted drawn
        ⟨planeOrigin intent, drawn.working,
          drawn.submittedDamage intent damage,
          drawn.planeDecision intent damage, panel.nextSubmit⟩
        (by simp [accepts]) timing.now metrics.physicalSubmissions settleDamage
        fastUpdates
      have refreshed := lastPresentAt_submitted drawn
        (drawn.planeDecision intent damage)
        (drawn.submittedDamage intent damage) timing.now
        metrics.physicalSubmissions settleDamage fastUpdates
      have failed := failure_submitted drawn
        (drawn.planeDecision intent damage)
        (drawn.submittedDamage intent damage) timing.now
        metrics.physicalSubmissions settleDamage fastUpdates
      have kept := submitted_eq drawn (drawn.planeDecision intent damage)
        (drawn.submittedDamage intent damage) timing.now
        metrics.physicalSubmissions settleDamage fastUpdates
      obtain ⟨ink, working, rfl⟩ := drawnPlane_frame draws
      refine ⟨[.submit _], ⟨rfl, ?_, ?_, fun _ => ?_, ?_⟩, rfl, ?_⟩
      · simpa [PanelCall.isAccepted, accepts] using refreshed
      · exact recorded
      · obtain ⟨_, _, same⟩ := kept
        dsimp only
        rw [same]
      · exact failed
      · cases intent <;> rfl

/-- A cleanup is one complete submission, if the panel is ready. -/
theorem CleanupStep.marks {report : CleanupReport}
    (step : CleanupStep timing before report after) :
    ∃ new, Marks timing.now before false (new.any (·.isAccepted)) new after ∧
      new ≠ [] ∧ (report.backendFailed = !new.any (·.isAccepted)) ∧
      (new.any (·.isAccepted) = true → ∃ submission rest,
        new = .submit submission :: rest ∧ submission.reply.isSome = true ∧
        submission.decision.completeRefresh = true) := by
  cases step with
  | pumpFailed failed =>
      exact ⟨[.pump _], ⟨rfl, rfl, rfl, fun _ => rfl, rfl⟩, by simp, rfl,
        nofun⟩
  | refused pumped refuses =>
      refine ⟨[.submit _, .pump _], ⟨rfl, ?_, ?_, fun _ => rfl, rfl⟩, by simp,
        ?_, ?_⟩
      · simp [PanelCall.isAccepted, refuses]
        rfl
      · simp [PartialDamage.record, refuses]
        rfl
      · simp [PanelCall.isAccepted, refuses, failedCleanup]
      · simp [PanelCall.isAccepted, refuses]
  | @accepted core panel metrics pumped accepts =>
      have complete : core.cleanupDecision.completeRefresh = true :=
        RefreshPolicy.decide_forced _ _ _ _ _
      rw [cleanupAccepted_eq]
      refine ⟨[.submit _, .pump _], ⟨rfl, ?_, ?_, fun _ => rfl, rfl⟩, by simp,
        ?_, fun _ => ⟨_, _, rfl, by simp [accepts], complete⟩⟩
      · simp [PanelCall.isAccepted, accepts]
      · simp [PartialDamage.record, accepts, complete]
        rfl
      · simp [PanelCall.isAccepted, accepts, performedCleanup]

theorem showsFrame_append {new old : List PanelCall}
    (notReady : new.any (·.isReady) = false)
    (noRefusal : new.any (·.refusesFrame) = false) :
    showsFrame (new ++ old) = showsFrame old := by
  simp only [showsFrame, List.any_append, notReady, noRefusal, Bool.false_or]

/-- One use of the panel, as its calls tell it. -/
theorem PanelUse.marks (use : PanelUse timing before after) :
    ∃ new, Marks timing.now before
      (before.core.pending.isSome && showsFrame new)
      (before.core.pending.isSome && showsFrame new ||
        new.any (·.isAccepted)) new after := by
  cases use with
  | rests =>
      refine ⟨[], rfl, ?_, rfl, fun _ => rfl, rfl⟩
      simp [showsFrame]
  | frame step =>
      obtain ⟨new, marks, accepted⟩ := step.marks
      refine ⟨new, ?_⟩
      rw [step.isPending, Bool.true_and]
      have same : (showsFrame new || new.any (·.isAccepted)) =
          showsFrame new := by
        rw [Bool.or_eq_left_iff_imp]
        exact accepted
      rw [same]
      exact marks
  | plane idle step =>
      obtain ⟨new, marks, _, _⟩ := step.marks
      refine ⟨new, ?_⟩
      rw [idle]
      exact marks
  | both first second =>
      obtain ⟨old, older, accepted⟩ := first.marks
      obtain ⟨new, newer, notReady, noRefusal⟩ := second.marks
      refine ⟨new ++ old, ?_⟩
      rw [first.isPending, Bool.true_and, showsFrame_append notReady noRefusal]
      refine ⟨?_, ?_, ?_, ?_, newer.failure.trans older.failure⟩
      · rw [newer.calls, older.calls, List.append_assoc]
      · rw [newer.lastPresentAt, older.lastPresentAt, List.any_append]
        cases new.any (·.isAccepted) <;> cases isShown : showsFrame old <;>
          simp_all
      · rw [newer.damage, older.damage, List.foldr_append]
      · exact fun hidden =>
          (newer.presented rfl).trans (older.presented hidden)
  | cleanup idle step =>
      obtain ⟨new, marks, _⟩ := step.marks
      refine ⟨new, ?_⟩
      rw [idle]
      exact marks

/-- A tick that cleans up because nothing happens. -/
def CoreOp.CleansIdle (op : CoreOp) (core : DisplayCore) : Prop :=
  ∃ timing idle, (op = .tick timing ∧ idle = true ∨
      op = .tickInteractive timing idle) ∧
    (idle && core.idleCleanupDue timing.now) = true

/-- The idle cleanup that failed last. -/
def DisplayCore.World.failure (world : World) : Option Duration :=
  world.core.lastIdleCleanupFailure

/-- An operation that is given a time uses the panel between two calm parts.
-/
structure Uses (timing : Timing) (before start done after : World) : Prop where
  first : Calm before start
  pending : start.core.pending = before.core.pending
  failure : start.failure = before.failure
  use : PanelUse timing start done
  last : Calm done after

theorem PanelUse.uses (use : PanelUse timing before after) :
    Uses timing before before after after :=
  ⟨.refl _, rfl, rfl, use, .refl _⟩

theorem tickInner_uses {ignoreDeadline : Bool}
    (coherent : Coherent before.core)
    {output : Except CoreError (List TerminalFrame)}
    (runs : (tickInner timing ignoreDeadline).Runs before output after) :
    PanelUse timing before after := by
  rcases tickInner_runs coherent runs with ⟨_, rfl, _⟩ | ⟨terminal, _, step⟩
  · exact .rests
  · exact .frame step

theorem requestCleanup_uses (coherent : Coherent before.core)
    {output : Except CoreError CleanupReport}
    (runs : (requestCleanup timing).Runs before output after) :
    PanelUse timing ⟨before.core.requireCleanup, before.panel⟩ after := by
  obtain ⟨core, panel⟩ := before
  have armedCoherent : Coherent core.requireCleanup :=
    (@Adjusts.armed core).coherent coherent
  simp only [requestCleanup, getCore_bind, setCore_bind] at runs
  split at runs
  · rcases Proc.runs_bind.mp runs with ⟨terminals, between, ticked, runs⟩ |
      ⟨err, rfl, failed⟩
    · simp only [getCore_bind, Proc.runs_pure] at runs
      obtain ⟨rfl, rfl⟩ := runs
      exact tickInner_uses armedCoherent ticked
    · exact tickInner_uses armedCoherent failed
  · rename_i idle
    split at runs
    · obtain ⟨rfl, rfl⟩ := Proc.runs_pure.mp runs
      exact .rests
    · obtain ⟨report, rfl, _, step⟩ := resubmitPresented_runs runs
      exact .cleanup (by simpa [requireCleanup] using idle) step

theorem requestCleanup_idle {core : DisplayCore} {panel : Panel}
    (due : core.idleCleanupDue timing.now = true)
    {output : Except CoreError CleanupReport}
    (runs : (requestCleanup timing).Runs ⟨core, panel⟩ output after) :
    ∃ report, output = .ok report ∧ report.terminals = [] ∧
      CleanupStep timing ⟨core.requireCleanup, panel⟩ report after := by
  simp only [idleCleanupDue, Bool.and_eq_true, Option.isNone_iff_eq_none]
    at due
  obtain ⟨⟨idle, adaptive⟩, _⟩ := due
  have presented : core.presentedFrameId ≠ 0 := by
    unfold adaptiveCleanupDue at adaptive
    split at adaptive
    · cases adaptive
    · simp only [Bool.and_eq_true, bne_iff_ne] at adaptive
      exact adaptive.1.1
  simp only [requestCleanup, getCore_bind, setCore_bind, idle,
    Option.isSome_none, Bool.false_eq_true, if_false, presented] at runs
  exact resubmitPresented_runs runs

/-- What a tick does. -/
theorem tickInteractive_runs (coherent : Coherent before.core) {idle : Bool}
    {output : Except CoreError (List TerminalFrame)}
    (runs : (tickInteractive timing idle).Runs before output after) :
    if idle && before.core.idleCleanupDue timing.now then
      ∃ report middle, output = .ok [] ∧
        CleanupStep timing ⟨before.core.requireCleanup, before.panel⟩ report
          middle ∧
        after = ⟨{ middle.core with
            lastIdleCleanupFailure :=
              if report.backendFailed then some timing.now else none },
          middle.panel⟩
    else (tickInner timing false).Runs before output after := by
  obtain ⟨core, panel⟩ := before
  simp only [tickInteractive, getCore_bind] at runs
  split at runs
  · rename_i due
    rw [if_pos due]
    have isDue := (Bool.and_eq_true _ _ ▸ due).2
    rcases Proc.runs_bind.mp runs with ⟨report, between, cleaned, runs⟩ |
      ⟨err, rfl, failed⟩
    · obtain ⟨_, same, none, step⟩ := requestCleanup_idle isDue cleaned
      cases same
      simp only [getCore_bind, setCore_bind, Proc.runs_pure] at runs
      obtain ⟨rfl, rfl⟩ := runs
      exact ⟨report, between, by rw [none], step, rfl⟩
    · obtain ⟨_, impossible, _⟩ := requestCleanup_idle isDue failed
      cases impossible
  · rename_i waits
    rw [if_neg waits]
    exact runs

theorem tickInteractive_uses (coherent : Coherent before.core) {idle : Bool}
    {output : Except CoreError (List TerminalFrame)}
    (runs : (tickInteractive timing idle).Runs before output after) :
    ∃ start done, Uses timing before start done after ∧
      (after.failure = done.failure ∨
        (idle && before.core.idleCleanupDue timing.now) = true) := by
  have ticked := tickInteractive_runs coherent runs
  split at ticked
  · rename_i due
    obtain ⟨report, middle, _, step, rfl⟩ := ticked
    have idle : before.core.pending = none := by
      simp only [idleCleanupDue, Bool.and_eq_true, Option.isNone_iff_eq_none]
        at due
      exact due.2.1.1
    exact ⟨⟨before.core.requireCleanup, before.panel⟩, middle,
      ⟨⟨rfl, rfl, rfl, rfl⟩, rfl, rfl, .cleanup idle step,
        ⟨rfl, rfl, rfl, rfl⟩⟩, .inr due⟩
  · exact ⟨before, after, (tickInner_uses coherent ticked).uses, .inl rfl⟩

theorem changeRefreshProfile_uses (coherent : Coherent before.core)
    {config : RefreshPolicyConfig}
    {output : Except CoreError RefreshProfileChange}
    (runs : (changeRefreshProfile config timing).Runs before output after) :
    ∃ start, Uses timing before start after after := by
  rcases changeRefreshProfile_runs coherent runs with
    ⟨changed, configured, report, updates, _, rest⟩ | ⟨_, rfl⟩
  · have configuredCoherent := (Adjusts.configured updates).coherent coherent
    have same : ∃ refreshPolicy damageTile, configured =
        { before.core with refreshPolicy, damageTile } := by
      obtain ⟨_, _, stored⟩ := Res.bind_eq_ok.mp updates
      cases stored
      exact ⟨_, _, rfl⟩
    obtain ⟨refreshPolicy, damageTile, isConfigured⟩ := same
    split at rest
    · have use := requestCleanup_uses configuredCoherent rest
      refine ⟨⟨configured.requireCleanup, before.panel⟩, ?_, ?_, ?_, use,
        .refl _⟩
      · rw [isConfigured]
        exact ⟨rfl, rfl, rfl, rfl⟩
      · rw [isConfigured]
        rfl
      · rw [isConfigured]
        rfl
    · obtain ⟨_, rfl⟩ := rest
      refine ⟨⟨configured, before.panel⟩, ?_, ?_, ?_, .rests, .refl _⟩
      · rw [isConfigured]
        exact ⟨rfl, rfl, rfl, rfl⟩
      · rw [isConfigured]
      · rw [isConfigured]
        rfl
  · exact ⟨after, PanelUse.rests.uses⟩

theorem presentPlane_uses (coherent : Coherent before.core)
    {intent : FrameIntent} {output : Except CoreError (List TerminalFrame)}
    (runs : (presentPlane timing intent).Runs before output after) :
    PanelUse timing before after := by
  obtain ⟨terminals, drawn, ⟨idle, _, same⟩ | ⟨terminal, _, flush⟩, step, _⟩ :=
    presentPlane_runs coherent runs
  · rw [same] at step
    exact .plane idle step
  · exact .both flush step

theorem commitTimed_calm {core next : DisplayCore} {panel : Panel}
    {frame : ValidatedFrame} {contentClass : ContentClass} {decodeUs : Nat}
    {report : CommitReport}
    (commits : core.commitTimed frame contentClass timing decodeUs =
      .ok (report, next)) : Calm ⟨core, panel⟩ ⟨next, panel⟩ := by
  obtain ⟨_, _, _, _, _, base, _, rfl⟩ := commitTimed_eq_ok commits
  exact ⟨rfl, rfl, rfl, rfl⟩

private theorem runs_of_map {α β : Type} {first : CoreProc α}
    {function : α → β} {output : Except CoreError β}
    (runs : (function <$> first).Runs before output after) :
    ∃ given, first.Runs before given after := by
  rcases Proc.runs_map.mp runs with ⟨_, ran, _⟩ | ⟨_, _, ran⟩
  · exact ⟨_, ran⟩
  · exact ⟨_, ran⟩

theorem CoreOp.uses {op : CoreOp} (coherent : Coherent before.core)
    (timed : op.timing = some timing)
    {output : Except CoreError CoreReply}
    (runs : op.run.Runs before output after) :
    ∃ start done, Uses timing before start done after ∧
      (after.failure = done.failure ∨ op.CleansIdle before.core) := by
  cases op with
  | commit frame contentClass other decodeUs =>
      refine ⟨before, before, ⟨.refl _, rfl, rfl, .rests, ?_⟩, .inl ?_⟩
      · rcases onCore_runs runs with ⟨_, _, commits, _, rfl⟩ | ⟨_, _, _, rfl⟩
        · exact commitTimed_calm commits
        · exact .refl _
      · rcases onCore_runs runs with ⟨_, _, commits, _, rfl⟩ | ⟨_, _, _, rfl⟩
        · obtain ⟨_, _, _, _, _, base, _, rfl⟩ := commitTimed_eq_ok commits
          rfl
        · rfl
  | tick other =>
      cases timed
      obtain ⟨_, ticked⟩ := runs_of_map runs
      obtain ⟨start, done, uses, kept⟩ := tickInteractive_uses coherent ticked
      exact ⟨start, done, uses, kept.imp id fun due =>
        ⟨_, _, .inl ⟨rfl, rfl⟩, due⟩⟩
  | tickInteractive other idle =>
      cases timed
      obtain ⟨_, ticked⟩ := runs_of_map runs
      obtain ⟨start, done, uses, kept⟩ := tickInteractive_uses coherent ticked
      exact ⟨start, done, uses, kept.imp id fun due => ⟨_, _, .inr rfl, due⟩⟩
  | tickWithoutIdleCleanup other =>
      cases timed
      obtain ⟨_, ticked⟩ := runs_of_map runs
      exact ⟨_, _, (tickInner_uses coherent ticked).uses, .inl rfl⟩
  | presentOverlay other | presentInk other =>
      cases timed
      obtain ⟨_, ran⟩ := runs_of_map runs
      exact ⟨_, _, (presentPlane_uses coherent ran).uses, .inl rfl⟩
  | requestCleanup other =>
      cases timed
      obtain ⟨_, ran⟩ := runs_of_map runs
      exact ⟨⟨before.core.requireCleanup, before.panel⟩, after,
        ⟨⟨rfl, rfl, rfl, rfl⟩, rfl, rfl, requestCleanup_uses coherent ran,
          .refl _⟩, .inl rfl⟩
  | changeRefreshProfile config other =>
      cases timed
      obtain ⟨_, ran⟩ := runs_of_map runs
      obtain ⟨start, uses⟩ := changeRefreshProfile_uses coherent ran
      exact ⟨start, _, uses, .inl rfl⟩
  | _ => cases timed

/-- An operation that is given no time leaves the panel alone. -/
theorem CoreOp.calm {op : CoreOp} (untimed : op.timing = none)
    {output : Except CoreError CoreReply}
    (runs : op.run.Runs before output after) :
    Calm before after ∧ after.failure = before.failure := by
  unfold CoreOp.run at runs
  cases op with
  | updateRefreshConfig config =>
      rcases onCore_runs runs with ⟨_, _, updates, _, rfl⟩ | ⟨_, _, _, rfl⟩
      · obtain ⟨_, _, stored⟩ := Res.bind_eq_ok.mp updates
        cases stored
        exact ⟨⟨rfl, rfl, rfl, rfl⟩, rfl⟩
      · exact ⟨.refl _, rfl⟩
  | freezePresented | cancelPending | requireCleanup | setInkWaveform _ =>
      rcases onCore_runs runs with ⟨_, _, same, _, rfl⟩ | ⟨_, _, _, rfl⟩
      · cases same
        exact ⟨⟨rfl, rfl, rfl, rfl⟩, rfl⟩
      · exact ⟨.refl _, rfl⟩
  | restoreRefreshDebt debt =>
      rcases onCore_runs runs with ⟨_, _, restores, _, rfl⟩ | ⟨_, _, _, rfl⟩
      · obtain ⟨_, restored, same⟩ := Res.bind_eq_ok.mp restores
        cases same
        obtain ⟨_, _, stored⟩ := Res.bind_eq_ok.mp restored
        cases stored
        exact ⟨⟨rfl, rfl, rfl, rfl⟩, rfl⟩
      · exact ⟨.refl _, rfl⟩
  | edit plane change =>
      rcases onCore_runs runs with ⟨_, _, edits, _, rfl⟩ | ⟨_, _, _, rfl⟩
      · obtain ⟨_, edited, same⟩ := Res.bind_eq_ok.mp edits
        cases same
        obtain ⟨value, _, rfl⟩ :=
          editPlane_eq_ok (Res.mapError_eq_ok.mp edited)
        obtain ⟨_, _, _, same⟩ := setPlane_frame before.core plane value
        rw [same]
        exact ⟨⟨rfl, rfl, rfl, rfl⟩, rfl⟩
      · exact ⟨.refl _, rfl⟩
  | _ => cases untimed

end

/-- What an event has done to the core, as its calls tell it. -/
structure CoreEvent.Marked (event : CoreEvent) : Prop where
  lastPresentAt : event.after.core.lastPresentAt =
    if event.refreshes then event.now else event.before.core.lastPresentAt
  damage : event.after.core.partialDamage =
    event.calls.foldr (PartialDamage.record (event.now.getD 0))
      event.before.core.partialDamage
  presented : event.presentsFrame = false →
    event.after.core.presentedFrameId = event.before.core.presentedFrameId
  failure : ¬ event.input.CleansIdle event.before.core →
    event.after.failure = event.before.failure

theorem CoreEvent.marked {event : CoreEvent}
    (coherent : Coherent event.before.core)
    (stepped : coreStep event.before event.input event.output event.after) :
    event.Marked := by
  cases timed : event.input.timing with
  | none =>
      obtain ⟨calm, failure⟩ := event.input.calm timed stepped
      have silent : event.calls = [] := event.calls_eq (by rw [calm.panel]; rfl)
      have hidden : event.presentsFrame = false := by
        simp [presentsFrame, silent, showsFrame]
      refine ⟨?_, ?_, fun _ => calm.shown, fun _ => failure⟩
      · rw [refreshes, hidden, silent]
        exact calm.lastPresentAt
      · rw [silent]
        exact calm.damage
  | some timing =>
      obtain ⟨start, done, uses, kept⟩ :=
        event.input.uses coherent timed stepped
      obtain ⟨new, marks⟩ := uses.use.marks
      have isNew : event.calls = new := by
        refine event.calls_eq ?_
        rw [uses.last.panel, marks.calls, uses.first.panel]
      have isNow : event.now = some timing.now := by
        rw [now, timed]
        rfl
      rw [uses.pending] at marks
      refine ⟨?_, ?_, ?_, ?_⟩
      · rw [refreshes, presentsFrame, isNew, isNow, uses.last.lastPresentAt,
          marks.lastPresentAt, uses.first.lastPresentAt]
      · rw [isNew, isNow, uses.last.damage, marks.damage, uses.first.damage]
        rfl
      · intro hidden
        rw [presentsFrame, isNew] at hidden
        rw [uses.last.shown, marks.presented hidden, uses.first.shown]
      · intro notIdle
        rcases kept with kept | cleans
        · exact kept.trans (marks.failure.trans uses.failure)
        · exact absurd cleans notIdle

theorem newCore_unused {setup : CoreSetup} {first : DisplayCore}
    (fresh : setup.newCore = .ok first) :
    first.lastPresentAt = none ∧ first.partialDamage = ⟨0, none⟩ ∧
      first.presentedFrameId = 0 ∧ first.pending = none ∧
      first.lastIdleCleanupFailure = none := by
  obtain ⟨_, _, fresh⟩ := Res.bind_eq_ok.mp fresh
  obtain ⟨_, _, fresh⟩ := Res.bind_eq_ok.mp fresh
  obtain ⟨_, _, fresh⟩ := Res.bind_eq_ok.mp fresh
  cases fresh
  exact ⟨rfl, rfl, rfl, rfl, rfl⟩

theorem CoreRun.lastPresentAt_eq {setup : CoreSetup}
    {history : List CoreEvent} {final : World}
    (run : CoreRun setup history final) :
    final.core.lastPresentAt = lastRefresh history := by
  refine CoreRun.keeps (fun history world =>
    world.core.lastPresentAt = lastRefresh history)
    (fun first fresh => (newCore_unused fresh).1) ?_ run
  intro history event earlier stepped known
  rw [(event.marked earlier.coherent stepped).lastPresentAt, known]
  rfl

end RmDisplay.Core
