import RmDisplay.Core.PanelUse
import RmDisplay.Core.Submissions
import RmDisplay.Core.Terminals
import RmDisplay.Core.ZeroDamage

/-!
# Frame pacing

The deadline of the pending frame is one frame interval after the latest
presentation.  No tick presents the frame earlier, every later tick does, and
frames that supersede one another do not move the deadline past the interval.
-/

namespace RmDisplay.Core

open Foundation Protocol DisplayCore

/-- Time never goes back. -/
def Chronological (history : List CoreEvent) : Prop :=
  (history.filterMap (·.now)).Pairwise (· ≥ ·)

instance (history : List CoreEvent) : Decidable (Chronological history) :=
  inferInstanceAs (Decidable (List.Pairwise _ _))

/-- The time of the latest accepted frame. -/
def lastAccept : List CoreEvent → Option Duration
  | [] => none
  | event :: older =>
      if (event.input.accepted event.output).isEmpty then lastAccept older
      else event.now

/-- When the latest presentation allows the next one. -/
def intervalDue (history : List CoreEvent) (interval : Duration) :
    Option Duration :=
  (lastRefresh history).map fun last => min (last + interval) durationMax

section

variable {before after : World} {pending : PendingPresentation}
  {timing : Timing} {op : CoreOp}

theorem tickInner_early (isPending : before.core.pending = some pending)
    (early : timing.now < before.core.deadlineOf pending)
    {output : Except CoreError (List TerminalFrame)}
    (runs : (tickInner timing false).Runs before output after) :
    output = .ok [] := by
  simp only [tickInner, getCore_bind, isPending] at runs
  have waits : (!false && decide (timing.now <
      before.core.deadlineOf pending)) = true := by simpa using early
  rw [if_pos waits] at runs
  exact (Proc.runs_pure.mp runs).1

theorem tick_idle (coherent : Coherent before.core)
    (idle : before.core.pending = none) (ticks : op.Ticks timing)
    {output : Except CoreError CoreReply}
    (stepped : coreStep before op output after) :
    output = .ok (.ticked []) := by
  have inner {given : Except CoreError (List TerminalFrame)}
      (runs : (tickInner timing false).Runs before given after) :
      given = .ok [] := by
    rcases tickInner_runs coherent runs with ⟨same, _⟩ | ⟨_, _, step⟩
    · exact same
    · have isPending := step.isPending
      rw [idle] at isPending
      cases isPending
  have interactive {still : Bool}
      {given : Except CoreError (List TerminalFrame)}
      (runs : (tickInteractive timing still).Runs before given after) :
      given = .ok [] := by
    have ticked := tickInteractive_runs coherent runs
    split at ticked
    · obtain ⟨_, _, same, _⟩ := ticked
      exact same
    · exact inner ticked
  have mapped {procedure : CoreProc (List TerminalFrame)}
      (gives : ∀ given, procedure.Runs before given after → given = .ok [])
      (runs : (CoreReply.ticked <$> procedure).Runs before output after) :
      output = .ok (.ticked []) := by
    rcases Proc.runs_map.mp runs with ⟨terminals, ran, rfl⟩ | ⟨_, _, failed⟩
    · cases gives _ ran
      rfl
    · cases gives _ failed
  cases op with
  | tick now | tickInteractive now still =>
      cases ticks
      exact mapped (fun _ => interactive) stepped
  | tickWithoutIdleCleanup now =>
      cases ticks
      exact mapped (fun _ => inner) stepped
  | _ => exact ticks.elim

theorem tick_due (coherent : Coherent before.core) (ticks : op.Ticks timing)
    {terminals : List TerminalFrame} {terminal : TerminalFrame}
    (stepped : coreStep before op (.ok (.ticked terminals)) after)
    (finished : terminal ∈ terminals) :
    ∃ pending, before.core.pending = some pending ∧
      terminal.frameId = pending.frameId ∧
      before.core.deadlineOf pending ≤ timing.now := by
  cases isPending : before.core.pending with
  | none =>
      cases tick_idle coherent isPending ticks stepped
      cases finished
  | some pending =>
      obtain ⟨given, ran, same⟩ := tick_runs isPending ticks stepped
      have due : before.core.deadlineOf pending ≤ timing.now := by
        by_contra early
        rw [tickInner_early isPending (Nat.lt_of_not_le early) ran] at same
        cases same
        cases finished
      obtain ⟨given, taken, step⟩ := frameStep_of_tick coherent isPending ticks
        (Nat.not_lt.mpr due) stepped
      cases taken
      obtain ⟨⟨other, isOther, sameId⟩, _⟩ := step.terminal_eq
      rw [isPending] at isOther
      cases isOther
      rw [List.mem_singleton.mp finished]
      exact ⟨pending, rfl, sameId, due⟩

theorem tick_finishes (coherent : Coherent before.core)
    (isPending : before.core.pending = some pending) (ticks : op.Ticks timing)
    (due : before.core.deadlineOf pending ≤ timing.now)
    {output : Except CoreError CoreReply}
    (stepped : coreStep before op output after) :
    ∃ terminal, output = .ok (.ticked [terminal]) ∧
      terminal.frameId = pending.frameId := by
  obtain ⟨terminal, taken, step⟩ := frameStep_of_tick coherent isPending ticks
    (Nat.not_lt.mpr due) stepped
  obtain ⟨⟨other, isOther, sameId⟩, _⟩ := step.terminal_eq
  rw [isPending] at isOther
  cases isOther
  exact ⟨terminal, taken, sameId⟩

theorem tick_returns (coherent : Coherent before.core)
    (small : before.core.width * before.core.height ≤ u32Max)
    (ticks : op.Ticks timing) :
    ∃ output after, coreStep before op output after := by
  have mapped {procedure : CoreProc (List TerminalFrame)}
      (returns : procedure.Returns before fun _ => False) :
      ∃ output after, (CoreReply.ticked <$> procedure).Runs before output
        after := by
    obtain ⟨output, after, runs, _⟩ := Proc.returns_map returns
    exact ⟨output, after, runs⟩
  cases op with
  | tick now =>
      cases ticks
      exact mapped (tickInteractive_returns coherent small true)
  | tickInteractive now idle =>
      cases ticks
      exact mapped (tickInteractive_returns coherent small idle)
  | tickWithoutIdleCleanup now =>
      cases ticks
      exact mapped (tickInner_returns coherent small false)
  | _ => exact ticks.elim

end

theorem CoreSteps.pending_before {allowed : World → Action → Prop}
    {before after : World} {accepted : List ValidatedFrame}
    {terminals : List TerminalFrame} {pending : PendingPresentation}
    (steps : CoreSteps allowed before accepted terminals after)
    (none : accepted = [])
    (isPending : after.core.pending = some pending) :
    before.core.pending = some pending := by
  induction steps with
  | nil => exact isPending
  | cons _ step _ induction =>
      obtain ⟨notCommit, others⟩ := List.append_eq_nil_iff.mp none
      have later := induction others isPending
      rcases step.pending_cases notCommit with same | gone
      · exact same ▸ later
      · rw [gone] at later
        cases later

/-- Only an accepted frame becomes pending, at the time of the event. -/
theorem CoreEvent.accepts {event : CoreEvent}
    (coherent : Coherent event.before.core)
    (stepped : coreStep event.before event.input event.output event.after)
    {pending : PendingPresentation}
    (isPending : event.after.core.pending = some pending) :
    if (event.input.accepted event.output).isEmpty then
      event.before.core.pending = some pending
    else event.now = some pending.acceptedAt := by
  obtain ⟨before, op, output, after⟩ := event
  dsimp only at *
  split
  · rename_i none
    obtain ⟨terminals, steps, _⟩ :=
      (accounts_of_coreStep coherent stepped).steps
    exact steps.pending_before (List.isEmpty_iff.mp none) isPending
  · rename_i accepted
    cases op with
    | commit frame contentClass timing decodeUs =>
        rcases onCore_runs stepped with ⟨_, _, commits, _, rfl⟩ |
          ⟨_, _, rfl, rfl⟩
        · obtain ⟨_, _, _, _, _, base, _, rfl⟩ := commitTimed_eq_ok commits
          cases isPending
          rfl
        · exact absurd rfl accepted
    | _ => exact absurd rfl accepted

theorem CoreRun.acceptedAt_eq {setup : CoreSetup} {history : List CoreEvent}
    {final : World} (run : CoreRun setup history final) :
    ∀ pending, final.core.pending = some pending →
      lastAccept history = some pending.acceptedAt := by
  refine CoreRun.keeps (fun history world =>
    ∀ pending, world.core.pending = some pending →
      lastAccept history = some pending.acceptedAt) ?_ ?_ run
  · intro first fresh pending isPending
    rw [(newCore_unused fresh).2.2.2.1] at isPending
    cases isPending
  · intro history event earlier stepped known pending isPending
    have accepts := event.accepts earlier.coherent stepped isPending
    unfold lastAccept
    split at accepts
    · rename_i none
      rw [if_pos none]
      exact known pending accepts
    · rename_i accepted
      rw [if_neg accepted]
      exact accepts

/-- Frames are presented at their deadlines. -/
structure FramePaced (setup : CoreSetup) (history : List CoreEvent)
    (final : World) : Prop where
  /-- A tick that finishes a LATEST frame comes one interval after the latest
  presentation, as far as times are counted. -/
  spaced : ∀ newer event older timing terminals terminal,
    history = newer ++ event :: older → event.input.Ticks timing →
    event.output = .ok (.ticked terminals) → terminal ∈ terminals →
    ∃ pending, event.before.core.pending = some pending ∧
      terminal.frameId = pending.frameId ∧
      (pending.intent ≠ .settled →
        ∀ due ∈ intervalDue older event.before.core.frameInterval,
          due ≤ timing.now)
  finishes : ∀ op timing pending deadline,
    final.core.pending = some pending → op.Ticks timing →
    final.core.nextDeadline = some deadline → deadline ≤ timing.now →
    (∀ output after, coreStep final op output after →
      ∃ terminal, output = .ok (.ticked [terminal]) ∧
        terminal.frameId = pending.frameId) ∧
    (setup.width * setup.height < 2 ^ 32 →
      ∃ output after, coreStep final op output after)
  settled : ∀ pending, final.core.pending = some pending →
    pending.intent = .settled →
    ∃ accepted deadline, lastAccept history = some accepted ∧
      final.core.nextDeadline = some deadline ∧
      deadline ≤ accepted + final.core.settledDeadline
  latest : ∀ pending, final.core.pending = some pending →
    ∃ accepted deadline, lastAccept history = some accepted ∧
      final.core.nextDeadline = some deadline ∧
      deadline ≤ ((lastRefresh history).map fun last =>
        max (last + final.core.frameInterval) accepted).getD accepted
  /-- Whatever was superseded, the first tick one interval after the latest
  presentation is late enough. -/
  unstarved : ∀ (timing : Timing) pending, final.core.pending = some pending →
    (∀ time ∈ history.filterMap (·.now), time ≤ timing.now) →
    (∀ due ∈ intervalDue history final.core.frameInterval,
      due ≤ timing.now) →
    ∃ deadline, final.core.nextDeadline = some deadline ∧
      deadline ≤ timing.now

theorem CoreRun.fpsDue_eq {setup : CoreSetup} {history : List CoreEvent}
    {final : World} (run : CoreRun setup history final)
    {pending : PendingPresentation}
    (isPending : final.core.pending = some pending) :
    final.core.nextDeadline = some (final.core.deadlineOf pending) ∧
      final.core.deadlineOf pending ≤
        (intervalDue history final.core.frameInterval).getD
          pending.acceptedAt ∧
      (pending.intent ≠ .settled → final.core.deadlineOf pending =
        (intervalDue history final.core.frameInterval).getD
          pending.acceptedAt) ∧
      (pending.intent = .settled → final.core.deadlineOf pending ≤
        pending.acceptedAt + final.core.settledDeadline) := by
  have bounds (fpsDue : Duration)
      (isDue : final.core.deadlineOf pending =
        if pending.intent = .settled then
          min fpsDue (min (pending.acceptedAt + final.core.settledDeadline)
            durationMax)
        else fpsDue) :
      final.core.deadlineOf pending ≤ fpsDue ∧
        (pending.intent ≠ .settled →
          final.core.deadlineOf pending = fpsDue) ∧
        (pending.intent = .settled → final.core.deadlineOf pending ≤
          pending.acceptedAt + final.core.settledDeadline) := by
    rw [isDue]
    refine ⟨?_, fun notSettled => if_neg notSettled, fun isSettled => ?_⟩
    · split
      · exact Nat.min_le_left _ _
      · exact Nat.le_refl _
    · rw [if_pos isSettled]
      exact (Nat.min_le_right _ _).trans (Nat.min_le_left _ _)
  refine ⟨?_, bounds _ ?_⟩
  · rw [nextDeadline, isPending]
    rfl
  · unfold deadlineOf intervalDue
    rw [run.lastPresentAt_eq]
    cases lastRefresh history <;> rfl

theorem lastAccept_mem {history : List CoreEvent} {time : Duration}
    (accepted : lastAccept history = some time) :
    time ∈ history.filterMap (·.now) := by
  induction history with
  | nil => cases accepted
  | cons event older induction =>
      unfold lastAccept at accepted
      split at accepted
      · have member := induction accepted
        rw [List.filterMap_cons]
        split
        · exact member
        · exact List.mem_cons_of_mem _ member
      · rw [List.filterMap_cons, accepted]
        exact List.mem_cons_self

theorem framePaced_of_run {setup : CoreSetup} {history : List CoreEvent}
    {final : World} (run : CoreRun setup history final) :
    FramePaced setup history final := by
  refine ⟨?_, ?_, ?_, ?_, ?_⟩
  · intro newer event older timing terminals terminal split ticks isOutput
      finished
    obtain ⟨earlier, stepped⟩ := run.before_of_split split
    rw [isOutput] at stepped
    obtain ⟨pending, isPending, sameId, reached⟩ :=
      tick_due earlier.coherent ticks stepped finished
    refine ⟨pending, isPending, sameId, fun notSettled due isDue => ?_⟩
    rw [(earlier.fpsDue_eq isPending).2.2.1 notSettled, isDue] at reached
    exact reached
  · intro op timing pending deadline isPending ticks isDeadline reached
    have coherent := run.coherent
    rw [(run.fpsDue_eq isPending).1] at isDeadline
    cases isDeadline
    refine ⟨fun output after stepped =>
      tick_finishes coherent isPending ticks reached stepped, ?_⟩
    intro bounded
    exact tick_returns coherent (run.pixels_le bounded) ticks
  · intro pending isPending isSettled
    obtain ⟨isDeadline, _, _, bounded⟩ := run.fpsDue_eq isPending
    exact ⟨_, _, run.acceptedAt_eq pending isPending, isDeadline,
      bounded isSettled⟩
  · intro pending isPending
    obtain ⟨isDeadline, bounded, _⟩ := run.fpsDue_eq isPending
    refine ⟨_, _, run.acceptedAt_eq pending isPending, isDeadline,
      bounded.trans ?_⟩
    unfold intervalDue
    cases lastRefresh history with
    | none => exact Nat.le_refl _
    | some last =>
        exact (Nat.min_le_left _ _).trans (Nat.le_max_left _ _)
  · intro timing pending isPending latest spaced
    obtain ⟨isDeadline, bounded, _⟩ := run.fpsDue_eq isPending
    refine ⟨_, isDeadline, bounded.trans ?_⟩
    cases isDue : intervalDue history final.core.frameInterval with
    | none =>
        exact latest _ (lastAccept_mem (run.acceptedAt_eq pending isPending))
    | some due => exact spaced due isDue

/-- The interval without a bound on times. -/
def StrictlySpaced (history : List CoreEvent) : Prop :=
  ∀ newer event older timing terminals terminal pending last,
    history = newer ++ event :: older → event.input.Ticks timing →
    event.output = .ok (.ticked terminals) → terminal ∈ terminals →
    terminal.outcome = .presented →
    event.before.core.pending = some pending → pending.intent = .latest →
    lastRefresh older = some last →
    last + event.before.core.frameInterval ≤ timing.now

/-- Does a run end with a LATEST frame that is presented before the interval
has passed? -/
def endsEarly : List CoreEvent → Bool
  | ⟨before, .tick timing, .ok (.ticked [terminal]), _⟩ :: older =>
      terminal.outcome == .presented &&
        before.core.pending.any (·.intent == .latest) &&
        (lastRefresh older).any fun last =>
          timing.now < last + before.core.frameInterval
  | _ => false

theorem not_strictlySpaced {history : List CoreEvent}
    (early : endsEarly history = true) : ¬ StrictlySpaced history := by
  intro spaced
  unfold endsEarly at early
  split at early
  · rename_i before timing terminal after older
    simp only [Bool.and_eq_true, beq_iff_eq, Option.any_eq_true,
      decide_eq_true_eq] at early
    obtain ⟨⟨presented, pending, isPending, latest⟩, last, isLast, less⟩ :=
      early
    have reached := spaced [] _ older timing [terminal] terminal pending last
      rfl rfl rfl (List.mem_singleton_self _) presented isPending latest isLast
    exact absurd less (Nat.not_lt.mpr reached)
  · cases early

/-- At the end of time the interval is cut short. -/
theorem not_strictlySpaced_lastFrame :
    ∃ history final,
      CoreRun (.gray 1 1 (fun _ => true) fun _ => some { }) history final ∧
      Chronological history ∧ ¬ StrictlySpaced history := by
  have replayed : ((CoreSetup.gray 1 1 (fun _ => true)
      fun _ => some { }).replay
      [.tick { now := durationMax },
        .commit (grayFrame 2 1 .latest ⟨0, 0, 1, 1⟩ [20]) .textUi
          { now := durationMax } 0,
        .tick { now := durationMax - 1 },
        .commit (grayFrame 1 0 .latest ⟨0, 0, 1, 1⟩ [10]) .textUi
          { now := durationMax - 1 } 0]).map (fun result =>
        (endsEarly result.1, result.1.filterMap (·.now))) =
      some (true, [durationMax, durationMax, durationMax - 1,
        durationMax - 1]) := by decide +kernel
  obtain ⟨⟨history, final⟩, replayed, facts⟩ :=
    Option.map_eq_some_iff.mp replayed
  simp only [Prod.mk.injEq] at facts
  refine ⟨history, final, CoreSetup.run_of_replay replayed, ?_,
    not_strictlySpaced facts.1⟩
  unfold Chronological
  rw [facts.2]
  decide

/-- A frame that superseded another is presented one interval later. -/
theorem framePaced_superseded :
    ∃ history final,
      CoreRun (.gray 1 1 (fun _ => true) fun _ => some { }) history final ∧
      lastRefresh history = some (.ofSecs 3) ∧
      FramePaced (.gray 1 1 (fun _ => true) fun _ => some { }) history
        final := by
  have replayed : ((CoreSetup.gray 1 1 (fun _ => true)
      fun _ => some { }).replay
      [.tick { now := .ofSecs 3 },
        .commit (grayFrame 3 2 .latest ⟨0, 0, 1, 1⟩ [30]) .textUi
          { now := .ofSecs 2 } 0,
        .commit (grayFrame 2 1 .latest ⟨0, 0, 1, 1⟩ [20]) .textUi
          { now := .ofSecs 2 } 0,
        .tick { now := .ofSecs 1 },
        .commit (grayFrame 1 0 .latest ⟨0, 0, 1, 1⟩ [10]) .textUi
          { now := .ofSecs 1 } 0]).map (fun result =>
        lastRefresh result.1) = some (some (.ofSecs 3)) := by decide +kernel
  obtain ⟨⟨history, final⟩, replayed, refreshed⟩ :=
    Option.map_eq_some_iff.mp replayed
  have run := CoreSetup.run_of_replay replayed
  exact ⟨history, final, run, refreshed, framePaced_of_run run⟩

end RmDisplay.Core
