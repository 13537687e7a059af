import RmDisplay.Core.Terminals

/-!
# The settle debt

What was last shown with a fast waveform, and how many fast submissions there
were since the panel settled, can be read off the panel calls.  The debt the
core keeps has to cover the one and count the other, for then the next SETTLED
frame repaints everything fast.
-/

namespace RmDisplay.Core

open Foundation Protocol DisplayCore Foundation.Picture

namespace Submission

/-- A fast submission of a frame that is not SETTLED, or of ink.  Validation
leaves LATEST as the only other intent. -/
def isFast (self : Submission) : Bool :=
  !self.decision.completeRefresh &&
    (self.decision.waveform == .fastest || self.decision.waveform == .fast) &&
    match self.origin with
    | .frame _ intent => intent != .settled
    | .ink => true
    | .overlay | .cleanup | .fallback => false

/-- A SETTLED frame or a complete refresh. -/
def settles (self : Submission) : Bool :=
  self.decision.completeRefresh ||
    match self.origin with
    | .frame _ intent => intent == .settled
    | .ink | .overlay | .cleanup | .fallback => false

end Submission

/-- Was the last accepted submission of a place fast? -/
def lastFast (p : Place) : List PanelCall → Bool
  | [] => false
  | .pump _ :: earlier => lastFast p earlier
  | .submit submission :: earlier =>
      if submission.reply.isSome ∧ Covered submission.damage p.1 p.2 then
        submission.isFast
      else lastFast p earlier

def fastDebt (calls : List PanelCall) : Set Place := {p | lastFast p calls}

/-- How many physical submissions were fast since the panel settled. -/
def fastCount : List PanelCall → Nat
  | [] => 0
  | .pump _ :: earlier => fastCount earlier
  | .submit submission :: earlier =>
      match submission.reply with
      | none => fastCount earlier
      | some metrics =>
          if submission.settles then 0
          else if submission.isFast then
            Bounded.saturatingAdd u32Max (fastCount earlier)
              metrics.physicalSubmissions
          else fastCount earlier

/-- The core knows its debt, and the next SETTLED frame pays it. -/
structure DebtComplete (world : World) : Prop where
  covers : fastDebt world.panel.calls ⊆ region world.core.settleDamage
  counts : world.core.fastUpdatesSinceSettled = fastCount world.panel.calls
  repaints : ∀ pending ∈ world.core.pending, pending.intent = .settled →
    ∀ prepared, world.core.prepareFrame pending = .ok prepared →
      fastDebt world.panel.calls ⊆ region prepared.damage

/-- Does drawing the plane keep the debt?  A complete refresh and the fastest
ink do.  Another waveform than the fastest forgets all debt, so there must be
none outside the damage and nothing counted, and fast ink is debt itself.  The
fastest overlay counts what does not count. -/
def DrawKeepsDebt (intent : FrameIntent) (world : World) : Prop :=
  match world.core.drawnPlane intent with
  | .ok (drawn, damage) =>
      let decision := drawn.planeDecision intent damage
      damage ≠ [] → decision.completeRefresh = false →
        if decision.waveform = .fastest then
          intent ≠ .latest → ∀ metrics ∈ world.panel.nextSubmit,
            Bounded.saturatingAdd u32Max world.core.fastUpdatesSinceSettled
              metrics.physicalSubmissions = world.core.fastUpdatesSinceSettled
        else
          (intent = .latest → decision.waveform ≠ .fast) ∧
            world.core.fastUpdatesSinceSettled = 0 ∧
            fastDebt world.panel.calls ⊆
              region (drawn.submittedDamage intent damage)
  | .error _ | .panic => True

/-- The condition on one operation. -/
def CoreEvent.KeepsDebt (event : CoreEvent) : Prop :=
  ∀ drawing ∈ event.input.drawing event.before,
    DrawKeepsDebt drawing.1 drawing.2

section

variable {panel : Panel} {origin : Origin} {pixels : PixelSurface}
  {damage : List Rect} {decision : RefreshDecision}

theorem fastDebt_submitted {metrics : PanelSubmissionMetrics}
    (accepts : panel.nextSubmit = some metrics) :
    fastDebt (panel.afterSubmit origin pixels damage decision).calls =
      if (Submission.mk origin pixels damage decision (some metrics)).isFast
      then fastDebt panel.calls ∪ region damage
      else fastDebt panel.calls \ region damage := by
  ext p
  by_cases covered : Covered damage p.1 p.2
  · split
    · rename_i fast
      simp [fastDebt, lastFast, Panel.afterSubmit, accepts, covered, fast]
    · rename_i slow
      simp [fastDebt, lastFast, Panel.afterSubmit, accepts, covered, slow]
  · split
    · simp [fastDebt, lastFast, Panel.afterSubmit, accepts, covered]
    · simp [fastDebt, lastFast, Panel.afterSubmit, accepts, covered]

theorem fastCount_submitted {metrics : PanelSubmissionMetrics}
    (accepts : panel.nextSubmit = some metrics) :
    fastCount (panel.afterSubmit origin pixels damage decision).calls =
      if (Submission.mk origin pixels damage decision (some metrics)).settles
      then 0
      else if
        (Submission.mk origin pixels damage decision (some metrics)).isFast
      then Bounded.saturatingAdd u32Max (fastCount panel.calls)
        metrics.physicalSubmissions
      else fastCount panel.calls := by
  simp [Panel.afterSubmit, fastCount, accepts]

end

/-- The part of `DebtComplete` that every step keeps; the rest follows. -/
structure DebtKept (world : World) : Prop where
  coherent : Coherent world.core
  reliable : world.panel.Reliable
  covers : fastDebt world.panel.calls ⊆ region world.core.settleDamage
  counts : world.core.fastUpdatesSinceSettled = fastCount world.panel.calls

theorem DebtKept.complete {world : World} (kept : DebtKept world) :
    DebtComplete world := by
  refine ⟨kept.covers, kept.counts, ?_⟩
  intro pending isPending settled prepared prepares
  have spec := (prepareFrame_spec kept.coherent
    (kept.coherent.hint pending isPending)).of_ok prepares
  exact kept.covers.trans (spec.debt settled)

theorem DebtKept.inside {world : World} (kept : DebtKept world) :
    fastDebt world.panel.calls ⊆
      region (fullDamage world.core.width world.core.height) := by
  refine kept.covers.trans ?_
  rintro p ⟨rect, member, covered⟩
  exact mem_region_fullDamage.mpr
    ((kept.coherent.debt rect member).bounds covered)

namespace DebtKept

variable {core next : DisplayCore} {panel : Panel} {origin : Origin}
  {pixels : PixelSurface} {damage : List Rect} {decision : RefreshDecision}
  {metrics : PanelSubmissionMetrics}

theorem pumped (kept : DebtKept ⟨core, panel⟩) :
    DebtKept ⟨core, panel.afterPump⟩ :=
  ⟨kept.coherent, kept.reliable.afterPump, kept.covers, kept.counts⟩

theorem transfer (kept : DebtKept ⟨core, panel⟩) (coherent : Coherent next)
    (sameDebt : next.settleDamage = core.settleDamage)
    (sameCount : next.fastUpdatesSinceSettled = core.fastUpdatesSinceSettled) :
    DebtKept ⟨next, panel⟩ :=
  ⟨coherent, kept.reliable, by dsimp only; rw [sameDebt]; exact kept.covers,
    sameCount.trans kept.counts⟩

theorem of_fast (kept : DebtKept ⟨core, panel⟩) (coherent : Coherent next)
    (accepts : panel.nextSubmit = some metrics)
    (fast : (Submission.mk origin pixels damage decision
      (some metrics)).isFast = true)
    (slow : (Submission.mk origin pixels damage decision
      (some metrics)).settles = false)
    (covers : region core.settleDamage ∪ region damage ⊆
      region next.settleDamage)
    (counts : next.fastUpdatesSinceSettled = Bounded.saturatingAdd u32Max
      core.fastUpdatesSinceSettled metrics.physicalSubmissions) :
    DebtKept ⟨next, panel.afterSubmit origin pixels damage decision⟩ := by
  refine ⟨coherent, kept.reliable.afterSubmit _ _ _ _, ?_, ?_⟩
  · dsimp only
    rw [fastDebt_submitted accepts, if_pos fast]
    exact (Set.union_subset_union_left _ kept.covers).trans covers
  · dsimp only
    rw [fastCount_submitted accepts, if_neg (by simp [slow]), if_pos fast,
      counts, ← kept.counts]

theorem of_slow (kept : DebtKept ⟨core, panel⟩) (coherent : Coherent next)
    (accepts : panel.nextSubmit = some metrics)
    (slow : (Submission.mk origin pixels damage decision
      (some metrics)).isFast = false)
    (covers : fastDebt panel.calls \ region damage ⊆ region next.settleDamage)
    (counts : next.fastUpdatesSinceSettled =
      if (Submission.mk origin pixels damage decision (some metrics)).settles
      then 0 else core.fastUpdatesSinceSettled) :
    DebtKept ⟨next, panel.afterSubmit origin pixels damage decision⟩ := by
  refine ⟨coherent, kept.reliable.afterSubmit _ _ _ _, ?_, ?_⟩
  · dsimp only
    rw [fastDebt_submitted accepts, if_neg (by simp [slow])]
    exact covers
  · dsimp only
    rw [fastCount_submitted accepts, counts]
    split
    · rfl
    · rw [if_neg (by simp [slow])]
      exact kept.counts

end DebtKept

theorem FrameStep.debtKept {timing : Timing} {before after : World}
    {terminal : TerminalFrame}
    (step : FrameStep timing before terminal after) (kept : DebtKept before) :
    DebtKept after := by
  have coherent := step.coherent kept.coherent
  cases step with
  | pumpFailed _ failed =>
      have pumps := kept.reliable.pumped
      rw [failed] at pumps
      cases pumps
  | unchanged _ _ _ _ => exact kept.pumped.transfer coherent rfl rfl
  | refused _ _ _ _ refuses =>
      exact absurd refuses kept.reliable.afterPump.submitted
  | @accepted core next panel pending prepared metrics isPending _ prepares _
      accepts presents =>
      have spec := (prepareFrame_spec kept.coherent
        (kept.coherent.hint _ isPending)).of_ok prepares
      obtain ⟨_, settleDamage, fastUpdates, _, debt, rfl⟩ :=
        presentAccepted_eq_ok presents
      cases debt with
      | cleared clears =>
          have settles : fastDebt panel.afterPump.calls ⊆
              region prepared.damage := by
            rcases clears with complete | settled
            · rw [spec.complete complete]
              exact kept.pumped.inside
            · exact kept.pumped.covers.trans (spec.debt settled)
          refine kept.pumped.of_slow coherent accepts ?_ ?_ ?_
          · rcases clears with complete | settled
            · simp [Submission.isFast, complete]
            · simp [Submission.isFast, settled]
          · rw [Set.sdiff_eq_empty.mpr settles]
            exact Set.empty_subset _
          · rw [if_pos]
            · rfl
            · rcases clears with complete | settled
              · simp [Submission.settles, complete]
              · simp [Submission.settles, settled]
      | added adds fast debt =>
          refine kept.pumped.of_fast coherent accepts ?_ ?_
            (addsDebt_spec kept.coherent spec.inside debt).2 debt.2
          · rcases fast with fastest | fast
            · simp [Submission.isFast, adds, fastest]
            · simp [Submission.isFast, adds, fast]
          · simp [Submission.settles, adds]
      | kept keeps slow =>
          refine kept.pumped.of_slow coherent accepts ?_ ?_ ?_
          · simp [Submission.isFast, slow]
          · exact Set.sdiff_subset.trans kept.covers
          · rw [if_neg (by simp [Submission.settles, keeps])]
            rfl

theorem PlaneStep.debtKept {timing : Timing} {intent : FrameIntent}
    {before after : World} {output : Except CoreError Unit}
    (step : PlaneStep timing intent before output after)
    (keeps : DrawKeepsDebt intent before) (kept : DebtKept before) :
    DebtKept after := by
  have coherent := step.coherent kept.coherent
  unfold DrawKeepsDebt at keeps
  cases step with
  | failed _ =>
      obtain ⟨_, taken⟩ := planeTaken_frame _ intent
      rw [taken] at coherent ⊢
      exact kept.transfer coherent rfl rfl
  | unchanged draws =>
      obtain ⟨_, _, rfl⟩ := drawnPlane_frame draws
      exact kept.transfer coherent rfl rfl
  | refused _ _ refuses => exact absurd refuses kept.reliable.submitted
  | @accepted core drawn next panel damage metrics draws damaged accepts
      presents =>
      have spec := drawnPlane_spec kept.coherent draws
      have drawnKept : DebtKept ⟨drawn, panel⟩ := by
        obtain ⟨_, _, rfl⟩ := drawnPlane_frame draws
        exact kept.transfer (coherent_drawn kept.coherent spec) rfl rfl
      have sameCount :
          drawn.fastUpdatesSinceSettled = core.fastUpdatesSinceSettled := by
        obtain ⟨_, _, rfl⟩ := drawnPlane_frame draws
        rfl
      simp only [draws] at keeps
      have inside : ∀ rect ∈ drawn.submittedDamage intent damage,
          rect.Inside drawn.width drawn.height :=
        (submittedDamage_spec intent (by
          obtain ⟨sameWidth, sameHeight⟩ := width_drawn spec
          rw [sameWidth, sameHeight]
          exact spec.inside)).1
      obtain ⟨_, settleDamage, fastUpdates, _, debt, rfl⟩ :=
        planeAccepted_eq_ok presents
      by_cases complete :
          (drawn.planeDecision intent damage).completeRefresh = true
      · have wholeSurface : drawn.submittedDamage intent damage =
            fullDamage drawn.width drawn.height := by
          unfold submittedDamage RefreshPolicy.damageForDecision
          rw [if_pos complete]
        refine drawnKept.of_slow coherent accepts ?_ ?_ ?_
        · simp [Submission.isFast, complete]
        · rw [wholeSurface, Set.sdiff_eq_empty.mpr drawnKept.inside]
          exact Set.empty_subset _
        · rw [if_pos (by simp [Submission.settles, complete])]
          cases debt with
          | cleared _ => rfl
          | added adds _ =>
              rw [complete] at adds
              cases adds.1
      · rw [Bool.not_eq_true] at complete
        have keeps := keeps damaged complete
        have notSettling (pixels : PixelSurface) (submitted : List Rect) :
            (Submission.mk (planeOrigin intent) pixels submitted
              (drawn.planeDecision intent damage) (some metrics)).settles =
              false := by
          unfold planeOrigin
          split <;> simp [Submission.settles, complete]
        cases debt with
        | cleared clears =>
            have slow := clears.resolve_left (by simp [complete])
            rw [if_neg slow] at keeps
            obtain ⟨notFast, none, within⟩ := keeps
            refine drawnKept.of_slow coherent accepts ?_ ?_ ?_
            · unfold planeOrigin Submission.isFast
              by_cases ink : intent = .latest
              · simp [slow, notFast ink]
              · simp [ink]
            · rw [Set.sdiff_eq_empty.mpr within]
              exact Set.empty_subset _
            · rw [notSettling, sameCount, none]
              rfl
        | added adds debt =>
            have grows := (addsDebt_spec drawnKept.coherent inside debt).2
            rw [if_pos adds.2] at keeps
            by_cases ink : intent = .latest
            · refine drawnKept.of_fast coherent accepts ?_ (notSettling _ _)
                grows debt.2
              subst ink
              simp [planeOrigin, Submission.isFast, adds]
            · refine drawnKept.of_slow coherent accepts ?_ ?_ ?_
              · simp [planeOrigin, ink, Submission.isFast]
              · exact (Set.sdiff_subset.trans drawnKept.covers).trans
                  (Set.subset_union_left.trans grows)
              · rw [notSettling]
                have counted := keeps ink metrics accepts
                rw [← sameCount] at counted
                exact debt.2.trans counted

theorem CleanupStep.debtKept {timing : Timing} {before after : World}
    {report : CleanupReport} (step : CleanupStep timing before report after)
    (kept : DebtKept before) : DebtKept after := by
  have coherent := step.coherent kept.coherent
  cases step with
  | pumpFailed failed =>
      have pumps := kept.reliable.pumped
      rw [failed] at pumps
      cases pumps
  | refused _ refuses =>
      exact absurd refuses kept.reliable.afterPump.submitted
  | @accepted core panel metrics _ accepts =>
      have complete : core.cleanupDecision.completeRefresh = true :=
        RefreshPolicy.decide_forced _ _ _ _ _
      rw [cleanupAccepted_eq] at coherent ⊢
      refine kept.pumped.of_slow coherent accepts ?_ ?_ ?_
      · simp [Submission.isFast]
      · rw [Set.sdiff_eq_empty.mpr kept.pumped.inside]
        exact Set.empty_subset _
      · rw [if_pos (by simp [Submission.settles, complete])]

/-- What a step may do. -/
def StepKeepsDebt (world : World) : Action → Prop
  | .draw intent => DrawKeepsDebt intent world
  | .commit _ | .cancel | .freeze | .edit _ _ | .adjust | .present
  | .resubmit => True

theorem CoreStep.debtKept {before after : World} {action : Action}
    {terminals : List TerminalFrame}
    (step : CoreStep before action terminals after)
    (keeps : StepKeepsDebt before action) (kept : DebtKept before) :
    DebtKept after := by
  have coherent := step.coherent kept.coherent
  cases step with
  | commit commits =>
      obtain ⟨_, _, _, _, _, _, _, rfl⟩ := commitTimed_eq_ok commits
      exact kept.transfer coherent rfl rfl
  | cancel | freeze => exact kept.transfer coherent rfl rfl
  | edit edits =>
      obtain ⟨_, _, rfl⟩ := editPlane_eq_ok edits
      obtain ⟨_, _, _, same⟩ := setPlane_frame _ _ _
      rw [same] at coherent ⊢
      exact kept.transfer coherent rfl rfl
  | adjust adjusts =>
      obtain ⟨_, _, _, _, _, _, rfl⟩ := adjusts.frame
      exact kept.transfer coherent rfl rfl
  | present step => exact step.debtKept kept
  | draw step => exact step.debtKept keeps kept
  | resubmit _ step => exact step.debtKept kept

theorem CoreEvent.KeepsDebt.takes {event : CoreEvent}
    (keeps : event.KeepsDebt) {current : World} {action : Action}
    (takes : event.input.Takes event.before current action) :
    StepKeepsDebt current action := by
  cases action with
  | draw intent => exact keeps (intent, current) takes.1
  | commit | cancel | freeze | edit | adjust | present | resubmit => trivial

/-- On a panel that never fails the settle debt is complete in every run whose
planes keep it. -/
theorem debtComplete_of_run {setup : CoreSetup} {history : List CoreEvent}
    {final : World} (run : CoreRun setup history final)
    (reliable : setup.panel.Reliable)
    (keeps : ∀ event ∈ history, event.KeepsDebt) : DebtComplete final := by
  obtain ⟨first, fresh, run⟩ := run
  obtain ⟨coherent, blank, _⟩ := newCore_spec fresh
  refine DebtKept.complete (Run.keeps (fun _ => DebtKept)
    ⟨coherent, reliable, ?_, blank.settled.2⟩ ?_ run keeps)
  · intro p impossible
    simp [fastDebt, lastFast, CoreSetup.panel] at impossible
  · intro _ event keeps stepped kept
    obtain ⟨_, steps, _⟩ := (accounts_of_coreStep kept.coherent stepped).steps
    exact (steps.mono fun _ _ => keeps.takes).keeps DebtKept
      (fun keeps step kept => step.debtKept keeps kept) kept

theorem drawKeepsDebt_ink {world : World}
    (fastest : world.core.inkWaveform = .fastest) :
    DrawKeepsDebt .latest world := by
  unfold DrawKeepsDebt
  split
  · rename_i drawn damage draws
    have isFastest : (drawn.planeDecision .latest damage).waveform =
        .fastest := by
      obtain ⟨_, _, rfl⟩ := drawnPlane_frame draws
      exact fastest
    intro _ _ _
    rw [if_pos isFastest]
    exact fun notInk => absurd rfl notInk
  · trivial
  · trivial

/-- A fast frame and fast ink on a panel that never fails. -/
theorem debtComplete_of_ink :
    ∃ history final,
      CoreRun (.gray 2 1 (fun _ => true)
        fun _ => some { physicalSubmissions := 1 }) history final ∧
      fastCount final.panel.calls = 2 ∧ DebtComplete final := by
  have replayed : ((CoreSetup.gray 2 1 (fun _ => true)
      fun _ => some { physicalSubmissions := 1 }).replay
      [.presentInk { now := .ofSecs 6 },
        .edit .ink (.inkLine (1, 0) (1, 0) 0 false),
        .tick { now := .ofSecs 4 },
        .commit (grayFrame 2 1 .latest ⟨0, 0, 1, 1⟩ [20]) .textUi
          { now := .ofSecs 3 } 0,
        .tick { now := .ofSecs 2 },
        .commit (grayFrame 1 0 .latest ⟨0, 0, 2, 1⟩ [10, 10]) .textUi
          { now := .ofSecs 1 } 0]).map (fun result =>
        (fastCount result.2.panel.calls, result.1.all fun event =>
          decide (∀ drawing ∈ event.input.drawing event.before,
            drawing.1 = .latest ∧ drawing.2.core.inkWaveform = .fastest))) =
      some (2, true) := by decide +kernel
  obtain ⟨⟨history, final⟩, replayed, facts⟩ :=
    Option.map_eq_some_iff.mp replayed
  simp only [Prod.mk.injEq, List.all_eq_true, decide_eq_true_eq] at facts
  have run := CoreSetup.run_of_replay replayed
  refine ⟨history, final, run, facts.1, debtComplete_of_run run
    ⟨fun _ => rfl, fun _ => rfl⟩ fun event member drawing isDrawing => ?_⟩
  obtain ⟨isInk, fastest⟩ := facts.2 event member drawing isDrawing
  rw [isInk]
  exact drawKeepsDebt_ink fastest

/-- A menu of one pixel, shown with the quality waveform, forgets the fast
pixel next to it. -/
theorem debt_forgotten :
    ∃ history final,
      (CoreSetup.gray 2 1 (fun _ => true)
        fun _ => some { physicalSubmissions := 1 }).replay
        [.presentOverlay { now := .ofSecs 6 },
          .edit .menu (.replacePlanes [0, 0] [0, 255]),
          .tick { now := .ofSecs 4 },
          .commit (grayFrame 2 1 .latest ⟨0, 0, 1, 1⟩ [20]) .textUi
            { now := .ofSecs 3 } 0,
          .tick { now := .ofSecs 2 },
          .commit (grayFrame 1 0 .latest ⟨0, 0, 2, 1⟩ [10, 10]) .textUi
            { now := .ofSecs 1 } 0] = some (history, final) ∧
      CoreRun (.gray 2 1 (fun _ => true)
        fun _ => some { physicalSubmissions := 1 }) history final ∧
      (0, 0) ∈ fastDebt final.panel.calls ∧ final.core.settleDamage = [] ∧
      ¬ DebtComplete final := by
  have replayed : ((CoreSetup.gray 2 1 (fun _ => true)
      fun _ => some { physicalSubmissions := 1 }).replay
      [.presentOverlay { now := .ofSecs 6 },
        .edit .menu (.replacePlanes [0, 0] [0, 255]),
        .tick { now := .ofSecs 4 },
        .commit (grayFrame 2 1 .latest ⟨0, 0, 1, 1⟩ [20]) .textUi
          { now := .ofSecs 3 } 0,
        .tick { now := .ofSecs 2 },
        .commit (grayFrame 1 0 .latest ⟨0, 0, 2, 1⟩ [10, 10]) .textUi
          { now := .ofSecs 1 } 0]).map (fun result =>
        (lastFast (0, 0) result.2.panel.calls, result.2.core.settleDamage)) =
      some (true, []) := by decide +kernel
  obtain ⟨⟨history, final⟩, replayed, facts⟩ :=
    Option.map_eq_some_iff.mp replayed
  simp only [Prod.mk.injEq] at facts
  refine ⟨history, final, replayed, CoreSetup.run_of_replay replayed, facts.1,
    facts.2, fun complete => ?_⟩
  have covered := complete.covers facts.1
  rw [facts.2] at covered
  simp at covered

end RmDisplay.Core
