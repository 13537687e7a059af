import RmDisplay.Core.OperationSteps
import RmDisplay.Foundation.Ledger

/-!
# Terminal results

Every accepted frame is pending until it gets its terminal result.  The steps
settle the pending frame like a ledger; the terminal of a flushed frame is lost
exactly if the plane drawn after it fails.
-/

namespace RmDisplay.Core

open Foundation Protocol DisplayCore

/-- The id of the pending frame. -/
def DisplayCore.pendingIds (self : DisplayCore) : List Nat :=
  (self.pending.map (·.frameId)).toList

/-- Does drawing the plane return an error?  Either the plane cannot be
redrawn, or the panel refuses the damage. -/
def drawFails (intent : FrameIntent) (world : World) : Prop :=
  match world.core.drawnPlane intent with
  | .ok (_, damage) => damage ≠ [] ∧ world.panel.nextSubmit = none
  | .error _ => True
  | .panic => False

instance (intent : FrameIntent) (world : World) :
    Decidable (drawFails intent world) := by
  unfold drawFails
  split <;> infer_instance

namespace CoreEvent

/-- The frame the operation accepted. -/
def accepted (event : CoreEvent) : List ValidatedFrame :=
  event.input.accepted event.output

/-- The terminal frames handed to the caller. -/
def terminals (event : CoreEvent) : List TerminalFrame :=
  match event.output with
  | .ok reply => reply.terminalFrames
  | .error _ => []

/-- If a plane is drawn after a pending frame was flushed, drawing it does not
fail. -/
def KeepsTerminal (event : CoreEvent) : Prop :=
  event.before.core.pending.isSome = true →
    ∀ drawing ∈ event.input.drawing event.before,
      ¬ drawFails drawing.1 drawing.2

instance (event : CoreEvent) : Decidable event.KeepsTerminal := by
  unfold KeepsTerminal
  infer_instance

end CoreEvent

/-- All frames accepted in a run, the latest first. -/
def acceptedFrames (history : List CoreEvent) : List ValidatedFrame :=
  history.flatMap CoreEvent.accepted

/-- All terminal frames handed out in a run. -/
def terminalFrames (history : List CoreEvent) : List TerminalFrame :=
  history.flatMap CoreEvent.terminals

/-- Exactly one terminal per accepted frame.  Ids can be used again after a
panel failure, so every id is counted as often as it was accepted. -/
structure TerminalsExact (history : List CoreEvent) (final : World) :
    Prop where
  once : Settles [] ((acceptedFrames history).map (·.frameId))
    ((terminalFrames history).map (·.frameId)) final.core.pendingIds
  /-- What is superseded is the last accepted frame, and it was not SETTLED. -/
  superseded : ∀ (later : List CoreEvent) (event : CoreEvent)
    (earlier : List CoreEvent), history = later ++ event :: earlier →
    ∀ terminal ∈ event.terminals, terminal.outcome = .superseded →
      ∃ frame ∈ (acceptedFrames earlier).head?,
        frame.frameId = terminal.frameId ∧ frame.intent ≠ .settled

theorem FrameStep.terminal_eq {timing : Timing} {before after : World}
    {terminal : TerminalFrame}
    (step : FrameStep timing before terminal after) :
    (∃ pending, before.core.pending = some pending ∧
      terminal.frameId = pending.frameId) ∧
      (terminal.outcome = .presented ∨ terminal.outcome = .backendFailure) := by
  cases step with
  | pumpFailed isPending _ => exact ⟨⟨_, isPending, rfl⟩, .inr rfl⟩
  | unchanged isPending _ _ _ => exact ⟨⟨_, isPending, rfl⟩, .inl rfl⟩
  | refused isPending _ _ _ _ => exact ⟨⟨_, isPending, rfl⟩, .inr rfl⟩
  | accepted isPending _ _ _ _ _ => exact ⟨⟨_, isPending, rfl⟩, .inl rfl⟩

theorem PlaneStep.pending_eq {timing : Timing} {intent : FrameIntent}
    {before after : World} {output : Except CoreError Unit}
    (step : PlaneStep timing intent before output after) :
    after.core.pending = before.core.pending := by
  cases step with
  | failed _ =>
      obtain ⟨_, taken⟩ := planeTaken_frame _ intent
      rw [taken]
  | unchanged draws | refused draws _ _ =>
      obtain ⟨_, _, rfl⟩ := drawnPlane_frame draws
      rfl
  | accepted draws _ _ presents =>
      obtain ⟨_, _, _, _, _, rfl⟩ := planeAccepted_eq_ok presents
      rw [pending_submitted]
      obtain ⟨_, _, rfl⟩ := drawnPlane_frame draws
      rfl

theorem PlaneStep.error_iff {timing : Timing} {intent : FrameIntent}
    {before after : World} {output : Except CoreError Unit}
    (step : PlaneStep timing intent before output after) :
    (∃ err, output = .error err) ↔ drawFails intent before := by
  unfold drawFails
  cases step with
  | failed fails => simp [fails]
  | unchanged draws => simp [draws]
  | refused draws damaged refuses => simp [draws, damaged, refuses]
  | accepted draws _ accepts _ => simp [draws, accepts]

theorem Adjusts.pending_eq {core next : DisplayCore}
    (adjusts : Adjusts core next) : next.pending = core.pending := by
  obtain ⟨_, _, _, _, _, _, rfl⟩ := adjusts.frame
  rfl

theorem CleanupStep.pending_eq {timing : Timing} {before after : World}
    {report : CleanupReport}
    (step : CleanupStep timing before report after) :
    after.core.pending = before.core.pending := by
  cases step with
  | pumpFailed _ | refused _ _ => rfl
  | accepted _ _ =>
      rw [cleanupAccepted_eq]

theorem CoreStep.settles {before after : World} {action : Action}
    {terminals : List TerminalFrame} (coherent : Coherent before.core)
    (step : CoreStep before action terminals after) :
    Settles before.core.pendingIds (action.accepted.map (·.frameId))
      (terminals.map (·.frameId)) after.core.pendingIds := by
  have kept (same : after.core.pending = before.core.pending) :
      Settles before.core.pendingIds [] [] after.core.pendingIds := by
    unfold pendingIds
    rw [same]
    exact Settles.refl _
  have closed {core : DisplayCore} :
      Settles core.pendingIds [] (core.cancelPending.1.toList.map (·.frameId))
        [] := by
    unfold cancelPending pendingIds
    cases core.pending with
    | none => exact Settles.refl []
    | some pending => exact Settles.close [pending.frameId]
  cases step with
  | commit commits =>
      obtain ⟨_, _, _, _, rfl, base, _, rfl⟩ := commitTimed_eq_ok commits
      unfold pendingIds
      generalize DisplayCore.pending _ = old
      cases old with
      | none => exact Settles.refl _
      | some old => exact Settles.replace _ [old.frameId]
  | cancel => exact closed
  | freeze => exact closed
  | edit edits =>
      rename_i plane _
      obtain ⟨_, _, rfl⟩ := editPlane_eq_ok edits
      exact kept (by cases plane <;> rfl)
  | adjust adjusts => exact kept adjusts.pending_eq
  | present step =>
      obtain ⟨⟨pending, isPending, sameId⟩, _⟩ := step.terminal_eq
      rw [pendingIds, pendingIds, isPending, step.idle, List.map_singleton,
        sameId]
      exact Settles.close [pending.frameId]
  | draw step => exact kept (step.pending_eq)
  | resubmit _ step => exact kept step.pending_eq

theorem CoreStep.pending_cases {before after : World} {action : Action}
    {terminals : List TerminalFrame}
    (step : CoreStep before action terminals after)
    (notCommit : action.accepted = []) :
    after.core.pending = before.core.pending ∨ after.core.pending = none := by
  cases step with
  | commit _ => cases notCommit
  | cancel => exact .inr rfl
  | freeze => exact .inr rfl
  | edit edits =>
      rename_i plane _
      obtain ⟨_, _, rfl⟩ := editPlane_eq_ok edits
      exact .inl (by cases plane <;> rfl)
  | adjust adjusts => exact .inl adjusts.pending_eq
  | present step => exact .inr step.idle
  | draw step => exact .inl step.pending_eq
  | resubmit _ step => exact .inl step.pending_eq

theorem CoreStep.superseded {before after : World} {action : Action}
    {terminals : List TerminalFrame} {terminal : TerminalFrame}
    (step : CoreStep before action terminals after)
    (member : terminal ∈ terminals)
    (isSuperseded : terminal.outcome = .superseded) :
    (∃ frame, action = .commit frame) ∧ ∃ pending,
      before.core.pending = some pending ∧
        pending.frameId = terminal.frameId ∧ pending.intent ≠ .settled := by
  have cancelled {core : DisplayCore}
      (member : terminal ∈ core.cancelPending.1.toList) : False := by
    simp only [cancelPending, Option.mem_toList,
      Option.map_eq_some_iff] at member
    obtain ⟨_, _, rfl⟩ := member
    cases isSuperseded
  cases step with
  | commit commits =>
      obtain ⟨notSettled, _, _, _, rfl, _⟩ := commitTimed_eq_ok commits
      simp only [Option.mem_toList, Option.map_eq_some_iff] at member
      obtain ⟨pending, isPending, rfl⟩ := member
      refine ⟨⟨_, rfl⟩, pending, isPending, rfl, ?_⟩
      simp only [pendingIsSettled, isPending, Option.any_some] at notSettled
      simpa using notSettled
  | cancel => exact (cancelled member).elim
  | freeze => exact (cancelled member).elim
  | edit | adjust | draw | resubmit => cases member
  | present step =>
      obtain ⟨_, outcome⟩ := step.terminal_eq
      rw [List.mem_singleton.mp member] at isSuperseded
      rw [isSuperseded] at outcome
      rcases outcome with impossible | impossible <;> cases impossible

/-- The pending frame is the last accepted one. -/
def LastAccepted (frames : List ValidatedFrame) (core : DisplayCore) : Prop :=
  ∀ pending ∈ core.pending, ∃ frame ∈ frames.head?,
    frame.frameId = pending.frameId ∧ frame.intent = pending.intent

theorem CoreStep.lastAccepted {before after : World} {action : Action}
    {terminals : List TerminalFrame} {frames : List ValidatedFrame}
    (coherent : Coherent before.core)
    (step : CoreStep before action terminals after)
    (last : LastAccepted frames before.core) :
    LastAccepted (action.accepted ++ frames) after.core := by
  have kept (same : after.core.pending = before.core.pending) :
      LastAccepted frames after.core := by
    rw [LastAccepted, same]
    exact last
  cases step with
  | commit commits =>
      obtain ⟨_, _, _, _, _, base, _, rfl⟩ := commitTimed_eq_ok commits
      rintro pending isPending
      cases isPending
      exact ⟨_, rfl, rfl, rfl⟩
  | cancel =>
      intro _ missing
      cases missing
  | freeze =>
      intro _ missing
      cases missing
  | edit edits =>
      rename_i plane _
      obtain ⟨_, _, rfl⟩ := editPlane_eq_ok edits
      exact kept (by cases plane <;> rfl)
  | adjust adjusts => exact kept adjusts.pending_eq
  | present step =>
      intro pending isPending
      rw [step.idle] at isPending
      cases isPending
  | draw step => exact kept (step.pending_eq)
  | resubmit _ step => exact kept step.pending_eq

namespace CoreSteps

variable {allowed : World → Action → Prop} {before after : World}
  {accepted : List ValidatedFrame} {terminals : List TerminalFrame}

theorem settles (coherent : Coherent before.core)
    (steps : CoreSteps allowed before accepted terminals after) :
    Settles before.core.pendingIds (accepted.map (·.frameId))
      (terminals.map (·.frameId)) after.core.pendingIds := by
  induction steps with
  | nil => exact Settles.refl _
  | cons _ step _ induction =>
      rw [List.map_append, List.map_append]
      exact (step.settles coherent).trans (induction (step.coherent coherent))

theorem lastAccepted {frames : List ValidatedFrame}
    (coherent : Coherent before.core)
    (steps : CoreSteps allowed before accepted terminals after)
    (last : LastAccepted frames before.core) :
    LastAccepted (accepted.reverse ++ frames) after.core := by
  induction steps generalizing frames with
  | nil => exact last
  | cons _ step _ induction =>
      have next := induction (step.coherent coherent)
        (step.lastAccepted coherent last)
      rw [← List.append_assoc] at next
      rename_i action _ _ _ _ _
      have sameOrder : action.accepted.reverse = action.accepted := by
        cases action <;> rfl
      rw [List.reverse_append, sameOrder]
      exact next

/-- An operation can only supersede the frame that was pending when it was
called. -/
theorem superseded {op : CoreOp} {world : World} {terminal : TerminalFrame}
    (steps : CoreSteps (op.Takes world) before accepted terminals after)
    (member : terminal ∈ terminals)
    (isSuperseded : terminal.outcome = .superseded) :
    ∃ pending, world.core.pending = some pending ∧
      pending.frameId = terminal.frameId ∧ pending.intent ≠ .settled := by
  induction steps with
  | nil => cases member
  | cons isAllowed step _ induction =>
      rcases List.mem_append.mp member with now | later
      · obtain ⟨⟨frame, rfl⟩, found⟩ := step.superseded now isSuperseded
        rw [← isAllowed.1]
        exact found
      · exact induction later

end CoreSteps

/-- What an operation opens and closes; a failing plane loses the terminal of
the frame that was flushed for it. -/
theorem settles_of_coreStep {event : CoreEvent}
    (coherent : Coherent event.before.core)
    (stepped : coreStep event.before event.input event.output event.after) :
    ∃ lost, Settles event.before.core.pendingIds
        (event.accepted.map (·.frameId))
        (event.terminals.map (·.frameId) ++ lost)
        event.after.core.pendingIds ∧
      (lost = [] ↔ event.KeepsTerminal) := by
  obtain ⟨before, input, output, after⟩ := event
  obtain ⟨⟨terminals, steps, returned, failed, flushes, _⟩, draws⟩ :=
    accounts_of_coreStep coherent stepped
  have settles := steps.settles coherent
  cases output with
  | ok reply =>
      refine ⟨[], ?_, fun _ isPending drawing isDrawing fails => ?_,
        fun _ => rfl⟩
      · rw [List.append_nil]
        rw [returned reply rfl] at settles
        exact settles
      · obtain ⟨timing, drawn, _, plane, errors⟩ := draws drawing isDrawing
        obtain ⟨_, impossible⟩ := errors.mp (plane.error_iff.mpr fails)
        cases impossible
  | error err =>
      refine ⟨terminals.map (·.frameId), ?_, fun none => ?_, fun keeps => ?_⟩
      · exact settles
      · have noTerminals := List.map_eq_nil_iff.mp none
        intro isPending drawing isDrawing _
        exact flushes isPending (by rw [isDrawing]; rfl) noTerminals
      · by_contra some
        obtain ⟨isPending, isDrawn⟩ := failed err rfl
          fun none => some (by rw [none]; rfl)
        obtain ⟨drawing, isDrawing⟩ := Option.isSome_iff_exists.mp isDrawn
        obtain ⟨timing, drawn, _, plane, errors⟩ := draws drawing isDrawing
        exact keeps isPending drawing isDrawing
          (plane.error_iff.mp (errors.mpr ⟨err, rfl⟩))

/-- What is known about the terminals after any run. -/
private structure Ledger (history : List CoreEvent) (final : World) :
    Prop where
  coherent : Coherent final.core
  last : LastAccepted (acceptedFrames history) final.core
  balance : ∃ lost, Settles []
      ((acceptedFrames history).map (·.frameId))
      ((terminalFrames history).map (·.frameId) ++ lost)
      final.core.pendingIds ∧
    (lost = [] ↔ ∀ event ∈ history, event.KeepsTerminal)

private theorem ledger_snoc {history : List CoreEvent} {event : CoreEvent}
    (stepped : coreStep event.before event.input event.output event.after)
    (ledger : Ledger history event.before) :
    Ledger (event :: history) event.after := by
  obtain ⟨coherent, last, lost, balance, noneLost⟩ := ledger
  obtain ⟨terminals, steps, _⟩ := (accounts_of_coreStep coherent stepped).steps
  obtain ⟨now, settles, kept⟩ := settles_of_coreStep coherent stepped
  have sameOrder : event.accepted.reverse = event.accepted := by
    obtain ⟨before, input, output, after⟩ := event
    cases input <;> cases output <;> rfl
  refine ⟨steps.keeps (fun world => Coherent world.core)
    (fun _ step coherent => step.coherent coherent) coherent, ?_,
    now ++ lost, ?_, ?_⟩
  · have next := steps.lastAccepted coherent last
    change LastAccepted (event.accepted.reverse ++ _) _ at next
    rw [sameOrder] at next
    exact next
  · refine (balance.trans settles).congr ?_ ?_
    · simp only [acceptedFrames, List.flatMap_cons, List.map_append]
      exact List.perm_append_comm
    · simp only [terminalFrames, List.flatMap_cons, List.map_append,
        List.perm_iff_count, List.count_append]
      intro id
      omega
  · rw [List.append_eq_nil_iff, kept, noneLost, List.forall_mem_cons]

private theorem ledger_of_run {setup : CoreSetup} {history : List CoreEvent}
    {final : World} (run : CoreRun setup history final) :
    Ledger history final := by
  obtain ⟨first, fresh, run⟩ := run
  refine Run.keeps Ledger ?_ (fun _ _ _ => ledger_snoc) run
    fun _ _ => True.intro
  obtain ⟨coherent, blank, _⟩ := newCore_spec fresh
  refine ⟨coherent, ?_, [], ?_, by simp⟩
  · simp [LastAccepted, blank.idle]
  · simp [Settles, acceptedFrames, terminalFrames, pendingIds, blank.idle]

/-- Exactly one terminal per accepted frame, if and only if no plane drawn
after a pending frame fails. -/
theorem terminals_exact_iff {setup : CoreSetup} {history : List CoreEvent}
    {final : World} (run : CoreRun setup history final) :
    TerminalsExact history final ↔ ∀ event ∈ history, event.KeepsTerminal := by
  obtain ⟨_, _, lost, balance, noneLost⟩ := ledger_of_run run
  rw [← noneLost]
  constructor
  · intro exact
    have sameLength := balance.length_eq.symm.trans exact.once.length_eq
    simp only [List.length_append] at sameLength
    exact List.length_eq_zero_iff.mp (by omega)
  · rintro rfl
    refine ⟨by simpa using balance, ?_⟩
    rintro later event earlier split terminal member isSuperseded
    obtain ⟨first, fresh, whole⟩ := run
    obtain ⟨before, stepped⟩ := whole.prefix_of_split split
    have ledger := ledger_of_run ⟨first, fresh, before⟩
    obtain ⟨terminals, steps, returned, _⟩ :=
      (accounts_of_coreStep ledger.coherent stepped).steps
    cases isOutput : event.output with
    | error err => simp [CoreEvent.terminals, isOutput] at member
    | ok reply =>
        simp only [CoreEvent.terminals, isOutput] at member
        rw [← returned reply isOutput] at member
        obtain ⟨pending, isPending, sameId, notSettled⟩ :=
          steps.superseded member isSuperseded
        obtain ⟨frame, isLast, frameId, intent⟩ :=
          ledger.last pending isPending
        exact ⟨frame, isLast, frameId.trans sameId, intent ▸ notSettled⟩

/-- On a panel that always works, a LATEST frame is superseded and the next one
presented before the menu is drawn. -/
theorem terminals_exact_reliable :
    ∃ history final,
      CoreRun (.gray 1 1 (fun _ => true) fun _ => some { }) history final ∧
        (acceptedFrames history).length = 2 ∧ TerminalsExact history final := by
  have replayed : ((CoreSetup.gray 1 1 (fun _ => true) fun _ => some { }).replay
      [.presentOverlay { now := 3 },
        .commit (grayFrame 2 1 .settled ⟨0, 0, 1, 1⟩ [20]) .textUi
          { now := 2 } 0,
        .commit (grayFrame 1 0 .latest ⟨0, 0, 1, 1⟩ [10]) .textUi
          { now := 1 } 0]).map (fun result =>
        ((acceptedFrames result.1).length,
          result.1.all fun event => decide event.KeepsTerminal)) =
      some (2, true) := by decide +kernel
  obtain ⟨⟨history, final⟩, replayed, facts⟩ :=
    Option.map_eq_some_iff.mp replayed
  simp only [Prod.mk.injEq, List.all_eq_true, decide_eq_true_eq] at facts
  have run := CoreSetup.run_of_replay replayed
  exact ⟨history, final, run, facts.1,
    (terminals_exact_iff run).mpr facts.2⟩

/-- A panel that always fails: the frame that the menu flushes gets its result
and loses it when the menu is refused too. -/
theorem flushed_terminal_lost :
    ∃ history final,
      (CoreSetup.gray 1 1 (fun _ => false) fun _ => none).replay
        [.presentOverlay { now := 2 },
          .commit (grayFrame 1 0 .latest ⟨0, 0, 1, 1⟩ [10]) .textUi
            { now := 1 } 0] = some (history, final) ∧
      CoreRun (.gray 1 1 (fun _ => false) fun _ => none) history final ∧
      ¬ TerminalsExact history final := by
  have replayed : ((CoreSetup.gray 1 1 (fun _ => false) fun _ => none).replay
      [.presentOverlay { now := 2 },
        .commit (grayFrame 1 0 .latest ⟨0, 0, 1, 1⟩ [10]) .textUi
          { now := 1 } 0]).map (fun result =>
        ((acceptedFrames result.1).length, (terminalFrames result.1).length,
          result.2.core.pendingIds)) = some (1, 0, []) := by
    decide +kernel
  obtain ⟨⟨history, final⟩, replayed, facts⟩ :=
    Option.map_eq_some_iff.mp replayed
  simp only [Prod.mk.injEq] at facts
  refine ⟨history, final, replayed, CoreSetup.run_of_replay replayed, ?_⟩
  intro exact
  have sameLength := exact.once.length_eq
  simp [facts] at sameLength

end RmDisplay.Core
