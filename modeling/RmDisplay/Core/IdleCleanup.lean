import RmDisplay.Core.Pacing

/-!
# Cleanups of an idle screen

A tick cleans the screen up by itself once enough partial damage has gathered
and nothing happens.  The damage that counts is what the panel has accepted
since its latest complete refresh.
-/

namespace RmDisplay.Core

open Foundation Protocol DisplayCore

/-- A successful submission. -/
def PanelCall.submission? : PanelCall → Option Submission
  | .pump _ => none
  | .submit submission =>
      if submission.reply.isSome then some submission else none

/-- The successful submissions of an event with its time, the latest first. -/
def CoreEvent.submissions (event : CoreEvent) : List (Duration × Submission) :=
  event.calls.filterMap fun call =>
    call.submission?.map (event.now.getD 0, ·)

/-- The submissions since the latest complete one. -/
def sinceComplete (submissions : List (Duration × Submission)) :
    List (Duration × Submission) :=
  submissions.takeWhile (!·.2.decision.completeRefresh)

/-- The partial submissions since the latest complete one. -/
def partials (history : List CoreEvent) : List (Duration × Submission) :=
  sinceComplete (history.flatMap (·.submissions))

/-- The damage of some submissions, as far as it is counted. -/
def submittedPixels (submissions : List (Duration × Submission)) : Nat :=
  min (submissions.map (damagePixels ·.2.damage)).sum u64Max

def summary (submissions : List (Duration × Submission)) : PartialDamage :=
  ⟨submittedPixels (sinceComplete submissions),
    (sinceComplete submissions).head?.map (·.1)⟩

theorem record_summary (now : Duration) (submission : Submission)
    (accepted : submission.reply.isSome = true)
    (older : List (Duration × Submission)) :
    PartialDamage.record now (.submit submission) (summary older) =
      summary ((now, submission) :: older) := by
  have notRefused : submission.reply.isNone = false := by
    simpa using accepted
  unfold PartialDamage.record summary sinceComplete submittedPixels
  simp only [notRefused, Bool.false_eq_true, if_false, List.takeWhile_cons]
  cases submission.decision.completeRefresh with
  | true => rfl
  | false =>
      simp only [Bool.false_eq_true, if_false, Bool.not_false, if_true,
        List.map_cons, List.sum_cons, List.head?_cons, Option.map_some,
        PartialDamage.mk.injEq, and_true]
      unfold Bounded.saturatingAdd
      omega

theorem record_calls (now : Duration) (calls : List PanelCall)
    (older : List (Duration × Submission)) :
    calls.foldr (PartialDamage.record now) (summary older) =
      summary (calls.filterMap (fun call => call.submission?.map (now, ·)) ++
        older) := by
  induction calls with
  | nil => rfl
  | cons call calls induction =>
      rw [List.foldr_cons, induction, List.filterMap_cons]
      cases call with
      | pump accepted => rfl
      | submit submission =>
          cases isAccepted : submission.reply.isSome with
          | true =>
              rw [record_summary now submission isAccepted]
              simp [PanelCall.submission?, isAccepted]
          | false =>
              have refused : submission.reply = none := by
                simpa using isAccepted
              simp [PanelCall.submission?, PartialDamage.record, refused]

theorem CoreRun.partialDamage_eq {setup : CoreSetup}
    {history : List CoreEvent} {final : World}
    (run : CoreRun setup history final) :
    final.core.partialDamage =
      summary (history.flatMap (·.submissions)) := by
  refine CoreRun.keeps (fun history world => world.core.partialDamage =
    summary (history.flatMap (·.submissions)))
    (fun first fresh => (newCore_unused fresh).2.1) ?_ run
  intro history event earlier stepped known
  rw [(event.marked earlier.coherent stepped).damage, known, record_calls]
  rfl

theorem CoreRun.presented_mem {setup : CoreSetup} {history : List CoreEvent}
    {final : World} (run : CoreRun setup history final) :
    final.core.presentedFrameId ≠ 0 →
      ∃ event ∈ history, event.presentsFrame = true := by
  refine CoreRun.keeps (fun history world => world.core.presentedFrameId ≠ 0 →
      ∃ event ∈ history, event.presentsFrame = true) ?_ ?_ run
  · intro first fresh shown
    exact absurd (newCore_unused fresh).2.2.1 shown
  · intro history event earlier stepped known shown
    cases presents : event.presentsFrame with
    | true => exact ⟨event, List.mem_cons_self, presents⟩
    | false =>
        rw [(event.marked earlier.coherent stepped).presented presents] at shown
        obtain ⟨older, member, presented⟩ := known shown
        exact ⟨older, List.mem_cons_of_mem _ member, presented⟩

/-- The caller of a tick says that nobody interacts. -/
def CoreOp.saysIdle : CoreOp → Bool
  | .tick _ => true
  | .tickInteractive _ idle => idle
  | _ => false

namespace CoreEvent

/-- A tick that called the panel and finished no frame. -/
def triesCleanup (event : CoreEvent) : Bool :=
  match event.input, event.output with
  | .tick _, .ok (.ticked []) | .tickInteractive _ _, .ok (.ticked []) =>
      !event.calls.isEmpty
  | _, _ => false

/-- The panel accepted what it was sent. -/
def succeeds (event : CoreEvent) : Bool := event.calls.any (·.isAccepted)

/-- What a tick that cleans up by itself does. -/
structure CleansUp (event : CoreEvent) (timing : Timing) : Prop where
  now : event.now = some timing.now
  idle : event.input.saysIdle = true
  due : event.before.core.idleCleanupDue timing.now = true
  complete : event.succeeds = true → ∃ submission rest,
    event.submissions = (timing.now, submission) :: rest ∧
      submission.decision.completeRefresh = true
  failure : event.after.failure =
    if event.succeeds then none else some timing.now

section

variable {event : CoreEvent}

/-- A cleanup that a tick starts by itself is seen from outside. -/
theorem cleansUp_of_due {timing : Timing} {idle : Bool}
    (timed : event.input.timing = some timing)
    (stated : event.input.saysIdle = idle)
    (due : (idle && event.before.core.idleCleanupDue timing.now) = true)
    {output : Except CoreError (List TerminalFrame)}
    (coherent : Coherent event.before.core)
    (runs : (tickInteractive timing idle).Runs event.before output
      event.after) :
    output = .ok [] ∧ event.calls ≠ [] ∧ event.CleansUp timing := by
  have ticked := tickInteractive_runs coherent runs
  rw [if_pos due] at ticked
  obtain ⟨report, middle, isOutput, step, isAfter⟩ := ticked
  obtain ⟨new, marks, some, failed, complete⟩ := step.marks
  have isNew : event.calls = new := by
    refine event.calls_eq ?_
    rw [isAfter]
    exact marks.calls
  have isNow : event.now = .some timing.now := by
    rw [CoreEvent.now, timed]
    rfl
  rw [Bool.and_eq_true] at due
  refine ⟨isOutput, isNew ▸ some, isNow, stated.trans due.1, due.2, ?_, ?_⟩
  · intro succeeds
    rw [CoreEvent.succeeds, isNew] at succeeds
    obtain ⟨submission, rest, isSubmission, accepted, isComplete⟩ :=
      complete succeeds
    refine ⟨submission, rest.filterMap fun call =>
      call.submission?.map (timing.now, ·), ?_, isComplete⟩
    rw [submissions, isNew, isSubmission, isNow, List.filterMap_cons]
    simp [PanelCall.submission?, accepted]
  · rw [isAfter, CoreEvent.succeeds, isNew]
    change (if report.backendFailed = true then _ else _) = _
    rw [failed]
    cases new.any (·.isAccepted) <;> rfl

theorem cleansUp_of_calls {timing : Timing} {idle : Bool}
    (timed : event.input.timing = some timing)
    (stated : event.input.saysIdle = idle)
    (coherent : Coherent event.before.core) (calls : event.calls ≠ [])
    (runs : (tickInteractive timing idle).Runs event.before (.ok [])
      event.after) : event.CleansUp timing := by
  by_cases due : (idle && event.before.core.idleCleanupDue timing.now) = true
  · exact (cleansUp_of_due timed stated due coherent runs).2.2
  · have ticked := tickInteractive_runs coherent runs
    rw [if_neg due] at ticked
    rcases tickInner_runs coherent ticked with ⟨_, same, _⟩ | ⟨_, finished, _⟩
    · exact absurd (event.calls_eq (by rw [same]; rfl)) calls
    · cases finished

theorem ticked_of_map {procedure : CoreProc (List TerminalFrame)}
    {before after : World} {terminals : List TerminalFrame}
    (runs : (CoreReply.ticked <$> procedure).Runs before
      (.ok (.ticked terminals)) after) :
    procedure.Runs before (.ok terminals) after := by
  rcases Proc.runs_map.mp runs with ⟨_, ran, same⟩ | ⟨_, impossible, _⟩
  · cases same
    exact ran
  · cases impossible

theorem cleansUp_of_tries (coherent : Coherent event.before.core)
    (stepped : coreStep event.before event.input event.output event.after)
    (tries : event.triesCleanup = true) :
    ∃ timing, event.CleansUp timing := by
  obtain ⟨before, op, output, after⟩ := event
  unfold triesCleanup at tries
  split at tries
  · rename_i timing isInput isOutput
    cases isInput
    cases isOutput
    exact ⟨timing, cleansUp_of_calls rfl rfl coherent (by simpa using tries)
      (ticked_of_map stepped)⟩
  · rename_i timing idle isInput isOutput
    cases isInput
    cases isOutput
    exact ⟨timing, cleansUp_of_calls rfl rfl coherent (by simpa using tries)
      (ticked_of_map stepped)⟩
  · cases tries

theorem tries_of_cleansIdle (coherent : Coherent event.before.core)
    (stepped : coreStep event.before event.input event.output event.after)
    (cleans : event.input.CleansIdle event.before.core) :
    event.triesCleanup = true := by
  obtain ⟨before, op, output, after⟩ := event
  obtain ⟨timing, idle, form, due⟩ := cleans
  have tried (timed : op.timing = some timing) (stated : op.saysIdle = idle)
      (runs : (CoreReply.ticked <$> tickInteractive timing idle).Runs before
        output after) :
      output = .ok (.ticked []) ∧
        (CoreEvent.calls ⟨before, op, output, after⟩).isEmpty = false := by
    rcases Proc.runs_map.mp runs with ⟨terminals, ran, rfl⟩ | ⟨err, _, failed⟩
    · obtain ⟨same, calls, _⟩ := @cleansUp_of_due
        ⟨before, op, .ok (.ticked terminals), after⟩ timing idle timed stated
        due _ coherent ran
      cases same
      exact ⟨rfl, by simpa using calls⟩
    · obtain ⟨same, _⟩ := @cleansUp_of_due ⟨before, op, output, after⟩ timing
        idle timed stated due _ coherent failed
      cases same
  rcases form with ⟨isOp, rfl⟩ | isOp
  · dsimp only at isOp
    subst isOp
    obtain ⟨rfl, calls⟩ := tried rfl rfl stepped
    simp only [triesCleanup, calls, Bool.not_false]
  · dsimp only at isOp
    subst isOp
    obtain ⟨rfl, calls⟩ := tried rfl rfl stepped
    simp only [triesCleanup, calls, Bool.not_false]

end

end CoreEvent

/-- The time of the latest cleanup of this kind, if it failed. -/
def lastFailure : List CoreEvent → Option Duration
  | [] => none
  | event :: older =>
      if event.triesCleanup then
        if event.succeeds then none else event.now
      else lastFailure older

theorem CoreRun.failure_eq {setup : CoreSetup} {history : List CoreEvent}
    {final : World} (run : CoreRun setup history final) :
    final.failure = lastFailure history := by
  refine CoreRun.keeps (fun history world =>
    world.failure = lastFailure history)
    (fun first fresh => (newCore_unused fresh).2.2.2.2) ?_ run
  intro history event earlier stepped known
  have coherent := earlier.coherent
  unfold lastFailure
  split
  · rename_i tries
    obtain ⟨timing, cleans⟩ := event.cleansUp_of_tries coherent stepped tries
    rw [cleans.failure, cleans.now]
  · rename_i rests
    rw [(event.marked coherent stepped).failure, known]
    exact fun cleans => rests (event.tries_of_cleansIdle coherent stepped cleans)

/-- Pixels of partial damage after which a profile cleans up. -/
def DisplayCore.screenBudget (self : DisplayCore) (screenEquivalents : Nat) :
    Nat :=
  Bounded.saturatingMul u64Max
    (Bounded.saturatingMul u64Max self.width self.height) screenEquivalents

/-- When an idle cleanup is due. -/
theorem idleCleanupDue_iff {core : DisplayCore} {now : Duration} :
    core.idleCleanupDue now = true ↔
      core.pending = none ∧ core.presentedFrameId ≠ 0 ∧
      (∃ screens idle last,
        adaptiveCleanup core.refreshPolicy.config.profile =
          some (screens, idle) ∧
        core.screenBudget screens ≤ core.partialDamagePixelsSinceCleanup ∧
        core.lastPartialAt = some last ∧ idle ≤ now - last) ∧
      ∀ failed ∈ core.lastIdleCleanupFailure,
        Duration.ofSecs 5 ≤ now - failed := by
  unfold idleCleanupDue adaptiveCleanupDue screenBudget
  cases adaptiveCleanup core.refreshPolicy.config.profile with
  | none => simp
  | some limits =>
      obtain ⟨screens, idle⟩ := limits
      simp only [Bool.and_eq_true, Option.isNone_iff_eq_none, bne_iff_ne,
        decide_eq_true_eq, Option.any_eq_true, Option.all_eq_true,
        Option.some.injEq, Prod.mk.injEq]
      constructor
      · rintro ⟨⟨free, ⟨shown, budget⟩, last, isLast, waited⟩, recovered⟩
        exact ⟨free, shown, ⟨screens, idle, last, ⟨rfl, rfl⟩, budget, isLast,
          waited⟩, fun failed isFailed => recovered failed isFailed⟩
      · rintro ⟨free, shown, ⟨_, _, last, ⟨rfl, rfl⟩, budget, isLast, waited⟩,
          recovered⟩
        exact ⟨⟨free, ⟨shown, budget⟩, last, isLast, waited⟩,
          fun failed isFailed => recovered failed isFailed⟩

/-- Some screens of partial damage are due for a cleanup in the profile. -/
structure BudgetSpent (core : DisplayCore)
    (spent : List (Duration × Submission)) (screens : Nat) (idle : Duration) :
    Prop where
  profile : adaptiveCleanup core.refreshPolicy.config.profile =
    some (screens, idle)
  reached : core.screenBudget screens ≤ submittedPixels spent

/-- A tick may clean up. -/
structure IdleDue (event : CoreEvent) (older : List CoreEvent)
    (now : Duration) : Prop where
  time : event.now = some now
  stated : event.input.saysIdle = true
  free : event.before.core.pending = none
  shown : ∃ earlier ∈ older, earlier.presentsFrame = true
  spent : ∃ screens idle last,
    BudgetSpent event.before.core (partials older) screens idle ∧
    (partials older).head?.map (·.1) = some last ∧ last + idle ≤ now

/-- Idle cleanups follow partial damage, and their own failures. -/
structure IdleCleanupSound (history : List CoreEvent) (final : World) :
    Prop where
  pixels : final.core.partialDamagePixelsSinceCleanup =
    submittedPixels (partials history)
  latest : final.core.lastPartialAt = (partials history).head?.map (·.1)
  due : ∀ newer event older, history = newer ++ event :: older →
    event.triesCleanup = true → ∃ now, IdleDue event older now
  /-- After a success all of the budget is spent anew. -/
  again : ∀ newer later middle success older,
    history = newer ++ later :: (middle ++ success :: older) →
    success.triesCleanup = true → success.succeeds = true →
    later.triesCleanup = true →
    ∃ screens idle, BudgetSpent later.before.core (partials middle) screens idle
  waits : ∀ newer later middle failed older,
    history = newer ++ later :: (middle ++ failed :: older) →
    failed.triesCleanup = true → failed.succeeds = false →
    later.triesCleanup = true →
    ∃ failedAt now, failed.now = some failedAt ∧ later.now = some now ∧
      failedAt + Duration.ofSecs 5 ≤ now

theorem add_le_of_le_sub {span start now : Nat} (positive : 0 < span)
    (waited : span ≤ now - start) : start + span ≤ now := by
  omega

theorem adaptiveCleanup_pos {profile : RefreshProfile} {screens : Nat}
    {idle : Duration} (adaptive : adaptiveCleanup profile =
      some (screens, idle)) : 0 < idle := by
  cases profile <;> cases adaptive <;> decide

section

variable {setup : CoreSetup} {history newer middle older : List CoreEvent}
  {event later failed : CoreEvent} {final : World}

theorem CoreRun.idleDue (run : CoreRun setup history final)
    (split : history = newer ++ event :: older)
    (tries : event.triesCleanup = true) :
    ∃ now, IdleDue event older now ∧ (∀ failed ∈ lastFailure older,
      failed + Duration.ofSecs 5 ≤ now) ∧
      (event.succeeds = true → ∃ submission rest,
        event.submissions = (now, submission) :: rest ∧
          submission.decision.completeRefresh = true) := by
  obtain ⟨earlier, stepped⟩ := run.before_of_split split
  obtain ⟨timing, cleans⟩ :=
    event.cleansUp_of_tries earlier.coherent stepped tries
  obtain ⟨free, shown, ⟨screens, idle, last, profile, reached, isLast, waited⟩,
    recovered⟩ := idleCleanupDue_iff.mp cleans.due
  have damage := earlier.partialDamage_eq
  have isPixels : event.before.core.partialDamagePixelsSinceCleanup =
      submittedPixels (partials older) := congrArg (·.pixels) damage
  have isLatest : event.before.core.lastPartialAt =
      (partials older).head?.map (·.1) := congrArg (·.latest) damage
  rw [isPixels] at reached
  rw [isLatest] at isLast
  have positive := adaptiveCleanup_pos profile
  refine ⟨timing.now, ⟨cleans.now, cleans.idle, free,
    earlier.presented_mem shown, screens, idle, last, ⟨profile, reached⟩,
    isLast, add_le_of_le_sub positive waited⟩, ?_, cleans.complete⟩
  intro failedAt isFailed
  rw [← earlier.failure_eq] at isFailed
  have long := recovered failedAt isFailed
  exact add_le_of_le_sub (by decide) long

theorem partials_append {submission : Submission} {now : Duration}
    {rest : List (Duration × Submission)}
    (first : event.submissions = (now, submission) :: rest)
    (complete : submission.decision.completeRefresh = true) :
    partials (middle ++ event :: older) = partials middle := by
  unfold partials sinceComplete
  rw [List.flatMap_append, List.flatMap_cons, first]
  generalize middle.flatMap (·.submissions) = submissions
  induction submissions with
  | nil => simp [complete]
  | cons head tail induction =>
      simp only [List.cons_append, List.takeWhile_cons] at induction ⊢
      rw [induction]

theorem Chronological.le (chronological : Chronological history)
    (split : history = newer ++ later :: (middle ++ event :: older))
    {now earlier : Duration} (isNow : later.now = some now)
    (isEarlier : event.now = some earlier) : earlier ≤ now := by
  unfold Chronological at chronological
  rw [split] at chronological
  simp only [List.filterMap_append, List.filterMap_cons, isNow, isEarlier,
    List.pairwise_append, List.pairwise_cons] at chronological
  exact chronological.2.1.1 earlier
    (List.mem_append_right _ List.mem_cons_self)

theorem lastFailure_append
    (rests : ∀ event ∈ middle, event.triesCleanup = false)
    (tries : failed.triesCleanup = true) (fails : failed.succeeds = false) :
    lastFailure (middle ++ failed :: older) = failed.now := by
  induction middle with
  | nil => simp [lastFailure, tries, fails]
  | cons event middle induction =>
      obtain ⟨rest, others⟩ := List.forall_mem_cons.mp rests
      rw [List.cons_append, lastFailure, rest]
      exact induction others

/-- No cleanup comes within five seconds of one that failed. -/
theorem CoreRun.waits {setup : CoreSetup}
    {history newer middle older : List CoreEvent} {later failed : CoreEvent}
    {final : World} (run : CoreRun setup history final)
    (chronological : Chronological history)
    (split : history = newer ++ later :: (middle ++ failed :: older))
    (tries : failed.triesCleanup = true) (fails : failed.succeeds = false)
    (triesLater : later.triesCleanup = true) :
    ∃ failedAt now, failed.now = some failedAt ∧ later.now = some now ∧
      failedAt + Duration.ofSecs 5 ≤ now := by
  have splitFailed : history = (newer ++ later :: middle) ++
      failed :: older := by rw [split]; simp
  obtain ⟨failedAt, failedDue, _⟩ := run.idleDue splitFailed tries
  by_cases between : ∃ event ∈ middle, event.triesCleanup = true
  · -- The time passed already before the cleanup in between.
    obtain ⟨event, member, triesBetween⟩ := between
    obtain ⟨left, right, isMiddle⟩ := List.append_of_mem member
    have splitBetween : history = (newer ++ later :: left) ++
        event :: (right ++ failed :: older) := by
      rw [split, isMiddle]
      simp
    have shorter : right.length < middle.length := by
      rw [isMiddle, List.length_append, List.length_cons]
      omega
    obtain ⟨failedAt, betweenAt, isFailed, isBetween, waited⟩ :=
      run.waits chronological splitBetween tries fails triesBetween
    obtain ⟨now, due, _⟩ := run.idleDue split triesLater
    have inOrder : history =
        newer ++ later :: (left ++ event :: (right ++ failed :: older)) := by
      rw [split, isMiddle]
      simp
    have ordered := chronological.le inOrder due.time isBetween
    exact ⟨failedAt, now, isFailed, due.time, waited.trans ordered⟩
  · have rests : ∀ event ∈ middle, event.triesCleanup = false := by
      intro event member
      by_contra tries
      exact between ⟨event, member, by simpa using tries⟩
    obtain ⟨now, due, recovered, _⟩ := run.idleDue split triesLater
    refine ⟨failedAt, now, failedDue.time, due.time, recovered failedAt ?_⟩
    rw [lastFailure_append rests tries fails, failedDue.time]
    rfl
  termination_by middle.length

end

theorem idleCleanupSound_of_run {setup : CoreSetup}
    {history : List CoreEvent} {final : World}
    (run : CoreRun setup history final)
    (chronological : Chronological history) :
    IdleCleanupSound history final := by
  have damage := run.partialDamage_eq
  refine ⟨congrArg (·.pixels) damage, congrArg (·.latest) damage, ?_, ?_, ?_⟩
  · intro newer event older split tries
    obtain ⟨now, due, _⟩ := run.idleDue split tries
    exact ⟨now, due⟩
  · intro newer later middle success older split tries succeeds triesLater
    obtain ⟨_, _, _, complete⟩ := @CoreRun.idleDue setup history
      (newer ++ later :: middle) older success final run
      (by rw [split]; simp) tries
    obtain ⟨submission, rest, first, isComplete⟩ := complete succeeds
    obtain ⟨_, due, _⟩ := run.idleDue split triesLater
    obtain ⟨screens, idle, _, spent, _⟩ := due.spent
    rw [partials_append first isComplete] at spent
    exact ⟨screens, idle, spent⟩
  · intro newer later middle failed older split tries fails triesLater
    exact run.waits chronological split tries fails triesLater

/-- A frame that sets the pixel, and the tick that presents it. -/
def grayUpdate (frameId : Nat) : List CoreOp :=
  [.tick { now := .ofSecs frameId },
    .commit (grayFrame frameId (frameId - 1) .latest ⟨0, 0, 1, 1⟩
      [UInt8.ofNat frameId]) .textUi { now := .ofSecs frameId } 0]

/-- Four screens of partial damage, a cleanup that fails and one that does not.
-/
theorem idleCleanupSound_retried :
    ∃ history final,
      CoreRun (.gray 1 1 (fun _ => true)
        fun call => if call = 11 then none else some { }) history final ∧
      Chronological history ∧
      history.countP (fun event => event.triesCleanup && event.succeeds) = 1 ∧
      history.countP (fun event => event.triesCleanup && !event.succeeds) = 1 ∧
      IdleCleanupSound history final := by
  have replayed : ((CoreSetup.gray 1 1 (fun _ => true)
      fun call => if call = 11 then none else some { }).replay
      ([.tick { now := .ofSecs 16 }, .tick { now := .ofSecs 15 },
        .tick { now := .ofSecs 11 }] ++ grayUpdate 5 ++ grayUpdate 4 ++
        grayUpdate 3 ++ grayUpdate 2 ++ grayUpdate 1)).map (fun result =>
        (decide (Chronological result.1),
          result.1.countP (fun event => event.triesCleanup && event.succeeds),
          result.1.countP
            (fun event => event.triesCleanup && !event.succeeds))) =
      some (true, 1, 1) := by decide +kernel
  obtain ⟨⟨history, final⟩, replayed, facts⟩ :=
    Option.map_eq_some_iff.mp replayed
  simp only [Prod.mk.injEq, decide_eq_true_eq] at facts
  have run := CoreSetup.run_of_replay replayed
  exact ⟨history, final, run, facts.1, facts.2.1, facts.2.2,
    idleCleanupSound_of_run run facts.1⟩

end RmDisplay.Core
