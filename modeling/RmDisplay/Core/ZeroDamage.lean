import RmDisplay.Core.Rendering

/-!
# Frames that change nothing

A pending frame whose composition already equals the presented picture should
not disturb the panel.  Whether it does is decided twice: the damage comes from
tiles around the rectangles of the frame, and the complete refresh from
counters and the configuration.  The tick is silent exactly when both find
nothing to do.
-/

namespace RmDisplay.Core

open Foundation Protocol DisplayCore Foundation.Picture

namespace DisplayCore

/-- Everything rendered at once over the base the pending frame left. -/
def nextRendering (self : DisplayCore) : SurfaceRes PixelSurface :=
  { self with presentedBase := self.base }.fullRendering

/-- The rectangles of a frame reach into tiles where the working surface is
not what is presented. -/
def StaleTile (self : DisplayCore) (pending : PendingPresentation)
    (p : Place) : Prop :=
  (p.1 < self.width ∧ p.2 < self.height) ∧ p ∉ region pending.damageHint ∧
    (∃ q ∈ region pending.damageHint, SameTile self.damageTile p q) ∧
      self.working.picture p ≠ self.presented.picture p

/-- The pending frame changes no pixel, and nothing asks for a repaint. -/
structure Redundant (core : DisplayCore) (pending : PendingPresentation) :
    Prop where
  isPending : core.pending = some pending
  partialDamage : pending.forceFullDamage = false
  disarmed : pending.forceCleanup = false ∧ core.forceCleanupNext = false
  same : core.nextRendering = .ok core.presented
  settled : pending.intent = .settled → core.settleDamage = []

instance {core : DisplayCore} {pending : PendingPresentation} :
    Decidable (Redundant core pending) :=
  decidable_of_iff (core.pending = some pending ∧
      pending.forceFullDamage = false ∧
      (pending.forceCleanup = false ∧ core.forceCleanupNext = false) ∧
      core.nextRendering = .ok core.presented ∧
      (pending.intent = .settled → core.settleDamage = []))
    ⟨fun ⟨isPending, partialDamage, disarmed, same, settled⟩ =>
      ⟨isPending, partialDamage, disarmed, same, settled⟩,
    fun redundant => ⟨redundant.isPending, redundant.partialDamage,
      redundant.disarmed, redundant.same, redundant.settled⟩⟩

namespace Redundant

variable {core : DisplayCore} {pending : PendingPresentation}

theorem composed (redundant : Redundant core pending)
    (coherent : Coherent core) :
    core.composition core.base.picture = core.presented.picture := by
  have moved : Coherent { core with presentedBase := core.base } :=
    { coherent with presentedBaseShape := rfl }
  obtain ⟨surface, rendered, _, picture⟩ := fullRendering_spec moved
  have isPresented : surface = core.presented := by
    have same := redundant.same
    rw [nextRendering, rendered] at same
    cases same
    rfl
  rw [← isPresented, picture]
  rfl

theorem composeRegions_eq (redundant : Redundant core pending) :
    core.composeRegions pending = pending.damageHint := by
  rw [composeRegions, redundant.partialDamage]
  by_cases settled : pending.intent = .settled
  · rw [if_pos settled, redundant.settled settled, List.append_nil]
    rfl
  · rw [if_neg settled, List.append_nil]
    rfl

theorem changedDamage_spec (redundant : Redundant core pending)
    (coherent : Coherent core) {working : PixelSurface}
    (shape : working.shape = core.base.shape)
    (painted : working.picture = paint (region pending.damageHint)
      (core.composition core.base.picture) core.working.picture) :
    ∃ changed, core.changedDamage pending working = .ok changed ∧
      (∀ rect ∈ changed, rect.Inside core.width core.height) ∧
      (changed = [] ↔ ∀ p, ¬ core.StaleTile pending p) := by
  have hint := coherent.hint pending redundant.isPending
  obtain ⟨⟨sameWidth, sameHeight⟩, _⟩ := PixelSurface.shape_eq_iff.mp shape
  obtain ⟨changed, computed, inside, _, _, none⟩ :=
    tileDamageRegions_spec pending.damageHint
      (coherent.presentedShape.trans shape.symm) coherent.tile
      (by rw [sameWidth, sameHeight]; exact hint)
  rw [sameWidth, sameHeight] at inside none
  refine ⟨changed, ?_, inside, none.trans ?_⟩
  · rw [changedDamage, redundant.partialDamage, redundant.composeRegions_eq]
    exact computed
  · rw [redundant.composed coherent] at painted
    constructor
    · rintro same p ⟨⟨wide, high⟩, outside, near, differ⟩
      have shown := same p wide high near
      rw [painted, paint_of_not_mem outside] at shown
      exact differ shown.symm
    · intro fresh p wide high near
      by_cases outside : p ∈ region pending.damageHint
      · rw [painted, paint_of_mem outside]
      · rw [painted, paint_of_not_mem outside]
        by_contra differ
        exact fresh p ⟨⟨wide, high⟩, outside, near, Ne.symm differ⟩

theorem decisionDamage_eq_nil_iff (redundant : Redundant core pending)
    {changed damage : List Rect}
    (inside : ∀ rect ∈ changed, rect.Inside core.width core.height)
    (decides : core.decisionDamage pending changed = .ok damage) :
    damage = [] ↔ changed = [] := by
  unfold decisionDamage at decides
  split at decides
  · rename_i settled
    rw [redundant.settled settled] at decides
    constructor
    · rintro rfl
      have covers := ((mergeTiledDamage_spec core.damageTile
        (by simp) inside).of_ok decides).2
      refine List.eq_nil_iff_forall_not_mem.mpr fun rect member => ?_
      obtain ⟨wide, high, _, _⟩ := inside rect member
      have corner : (rect.x, rect.y) ∈ region changed :=
        ⟨rect, member, ⟨le_rfl, by omega⟩, le_rfl, by omega⟩
      simpa using covers (.inr corner)
    · rintro rfl
      exact (mergeTiledDamage_nil _ _ _).of_ok decides
  · cases decides
    exact Iff.rfl

end Redundant

/-- Does the policy refresh everything, even for an empty update? -/
def RefreshesAnyway (self : RefreshPolicy) : Prop :=
  self.config.partialRefreshEnabled = false ∨
    (self.hasPresented = false ∧ self.config.cleanFirstFrame = true) ∨
    (0 < self.config.cleanupAfterUpdates ∧
      self.config.cleanupAfterUpdates ≤ self.presentedSinceCleanup)

instance {policy : RefreshPolicy} : Decidable (RefreshesAnyway policy) :=
  inferInstanceAs (Decidable (_ ∨ _ ∨ _))

theorem refreshReason_empty {policy : RefreshPolicy} {intent : FrameIntent}
    {panelPixels : Nat} (somePixels : 0 < panelPixels) :
    policy.refreshReason intent 0 panelPixels false ≠ .none ↔
      RefreshesAnyway policy := by
  have noArea : ¬ (intent = .settled ∧
      0 < policy.config.largeUpdateThresholdPercent ∧
      Bounded.saturatingMul u64Max panelPixels
          policy.config.largeUpdateThresholdPercent ≤
        Bounded.saturatingMul u64Max 0 100) := by
    rintro ⟨_, somePercent, reached⟩
    have some := Nat.mul_pos somePixels somePercent
    simp only [Bounded.saturatingMul, Nat.zero_mul, u64Max] at reached
    omega
  unfold RefreshPolicy.refreshReason RefreshesAnyway
  dsimp only
  rw [if_neg noArea]
  cases policy.config.partialRefreshEnabled with
  | false => simp
  | true =>
      cases policy.hasPresented <;> cases policy.config.cleanFirstFrame <;>
        simp

theorem frameDecision_empty {core : DisplayCore} {pending : PendingPresentation}
    (redundant : Redundant core pending) :
    (core.frameDecision pending []).completeRefresh = true ↔
      RefreshesAnyway core.refreshPolicy := by
  have somePixels : 0 < core.width * core.height :=
    Nat.mul_pos core.base.packed.wide core.base.packed.high
  have notDue : core.staticCleanupDue pending = false := by
    unfold staticCleanupDue
    by_cases settled : pending.intent = .settled
    · simp [redundant.settled settled]
    · simp [settled]
  rw [← @refreshReason_empty _ pending.intent _ somePixels]
  simp only [frameDecision, redundant.disarmed.1, redundant.disarmed.2, notDue,
    Bool.or_self, Bool.false_and, Bool.false_eq_true, if_false]
  change (core.refreshPolicy.decide _ _ 0 _ false).completeRefresh = true ↔ _
  unfold RefreshPolicy.decide
  dsimp only
  split
  · rename_i reason
    exact iff_of_true rfl reason
  · rename_i reason
    exact iff_of_false (by simp) reason

/-- Preparing a redundant frame finds no damage exactly if the tiles are fresh
and the policy does not refresh everything anyway. -/
theorem prepareFrame_eq_nil_iff {core : DisplayCore}
    {pending : PendingPresentation} {prepared : Prepared}
    (coherent : Coherent core) (redundant : Redundant core pending)
    (prepares : core.prepareFrame pending = .ok prepared) :
    prepared.damage = [] ↔
      (∀ p, ¬ core.StaleTile pending p) ∧
        ¬ RefreshesAnyway core.refreshPolicy := by
  have regionsInside := composeRegions_inside coherent
    (coherent.hint pending redundant.isPending)
  obtain ⟨working, composed, shape, painted⟩ :=
    composeWorking_spec coherent coherent.workingShape regionsInside
  rw [redundant.composeRegions_eq] at painted
  obtain ⟨changed, isChanged, inside, none⟩ :=
    redundant.changedDamage_spec coherent shape painted
  rw [prepareFrame, composed, Res.ok_bind, isChanged, Res.ok_bind] at prepares
  obtain ⟨damage, decides, prepares⟩ := Res.bind_eq_ok.mp prepares
  have noDamage := redundant.decisionDamage_eq_nil_iff inside decides
  have complete : damage = [] →
      ((core.frameDecision pending damage).completeRefresh = true ↔
        RefreshesAnyway core.refreshPolicy) := by
    rintro rfl
    exact frameDecision_empty redundant
  dsimp only at prepares
  split at prepares
  · rename_i isComplete
    obtain ⟨full, _, stored⟩ := Res.bind_eq_ok.mp prepares
    cases stored
    refine iff_of_false (by simp [fullDamage]) ?_
    rintro ⟨fresh, quiet⟩
    exact quiet ((complete (noDamage.mpr (none.mpr fresh))).mp isComplete)
  · rename_i isPartial
    cases prepares
    change damage = [] ↔ _
    constructor
    · intro empty
      exact ⟨none.mp (noDamage.mp empty),
        fun anyway => isPartial ((complete empty).mpr anyway)⟩
    · rintro ⟨fresh, _⟩
      exact noDamage.mpr (none.mpr fresh)

end DisplayCore

/-- The tick reported the frame as presented, and neither the panel nor any
debt noticed. -/
structure Unnoticed (pending : PendingPresentation) (event : CoreEvent) :
    Prop where
  noSubmission : ∀ submission, .submit submission ∉ event.calls
  samePolicy : event.after.core.refreshPolicy = event.before.core.refreshPolicy
  sameDebt : event.after.core.settleDamage = event.before.core.settleDamage ∧
    event.after.core.fastUpdatesSinceSettled =
      event.before.core.fastUpdatesSinceSettled ∧
    event.after.core.partialDamagePixelsSinceCleanup =
      event.before.core.partialDamagePixelsSinceCleanup
  reported : ∃ metrics,
    event.output = .ok (.ticked [⟨pending.frameId, .presented, metrics⟩])
  advanced : event.after.core.presentedFrameId = pending.frameId

/-- The panel answers, no tile around the frame is stale, and the policy does
not refresh everything anyway. -/
structure StaysQuiet (world : World) (pending : PendingPresentation) : Prop where
  pumps : world.panel.nextPump = true
  fresh : ∀ p, ¬ world.core.StaleTile pending p
  partially : ¬ RefreshesAnyway world.core.refreshPolicy

/-- An operation that only ticks. -/
def CoreOp.Ticks (timing : Timing) : CoreOp → Prop
  | .tick now | .tickInteractive now _ | .tickWithoutIdleCleanup now =>
      now = timing
  | _ => False

section

variable {before after : World} {pending : PendingPresentation}
  {timing : Timing}

theorem tickInteractive_pending (isPending : before.core.pending = some pending)
    {idle : Bool} {output : Except CoreError (List TerminalFrame)}
    (runs : (tickInteractive timing idle).Runs before output after) :
    (tickInner timing false).Runs before output after := by
  have busy : (idle && before.core.idleCleanupDue timing.now) = false := by
    simp [idleCleanupDue, isPending]
  simp only [tickInteractive, getCore_bind, busy] at runs
  exact runs

theorem tick_runs {op : CoreOp} {output : Except CoreError CoreReply}
    (isPending : before.core.pending = some pending)
    (ticks : op.Ticks timing) (stepped : coreStep before op output after) :
    ∃ given, (tickInner timing false).Runs before given after ∧
      output = given.map .ticked := by
  have mapped {procedure : CoreProc (List TerminalFrame)}
      (runs : (CoreReply.ticked <$> procedure).Runs before output after) :
      ∃ given, procedure.Runs before given after ∧
        output = given.map .ticked := by
    rcases Proc.runs_map.mp runs with ⟨terminals, ran, rfl⟩ | ⟨err, rfl, failed⟩
    · exact ⟨_, ran, rfl⟩
    · exact ⟨_, failed, rfl⟩
  cases op with
  | tick now | tickInteractive now idle =>
      cases ticks
      obtain ⟨given, ran, same⟩ := mapped stepped
      exact ⟨given, tickInteractive_pending isPending ran, same⟩
  | tickWithoutIdleCleanup now =>
      cases ticks
      exact mapped stepped
  | _ => exact ticks.elim

theorem frameStep_of_tick {op : CoreOp} {output : Except CoreError CoreReply}
    (coherent : Coherent before.core)
    (isPending : before.core.pending = some pending)
    (ticks : op.Ticks timing)
    (due : ¬ timing.now < before.core.deadlineOf pending)
    (stepped : coreStep before op output after) :
    ∃ terminal, output = .ok (.ticked [terminal]) ∧
      FrameStep timing before terminal after := by
  obtain ⟨given, ran, rfl⟩ := tick_runs isPending ticks stepped
  rcases tickInner_runs coherent ran with
    ⟨_, _, idle | ⟨_, other, isOther, early⟩⟩ | ⟨terminal, rfl, step⟩
  · rw [idle] at isPending
    cases isPending
  · rw [isPending] at isOther
    cases isOther
    exact absurd early due
  · exact ⟨terminal, rfl, step⟩

end

/-- The tick that takes a redundant frame goes unnoticed exactly if the panel
answers, the tiles around the frame are fresh and the policy does not refresh
everything anyway. -/
theorem unnoticed_iff_of_run {setup : CoreSetup} {history : List CoreEvent}
    {event : CoreEvent} (run : CoreRun setup history event.before)
    {pending : PendingPresentation}
    (redundant : Redundant event.before.core pending) {timing : Timing}
    (ticks : event.input.Ticks timing)
    (due : ¬ timing.now < event.before.core.deadlineOf pending)
    (stepped : coreStep event.before event.input event.output event.after) :
    Unnoticed pending event ↔ StaysQuiet event.before pending := by
  have coherent := run.coherent
  obtain ⟨before, op, output, after⟩ := event
  dsimp only at *
  obtain ⟨terminal, rfl, step⟩ :=
    frameStep_of_tick coherent redundant.isPending ticks due stepped
  have noticed {submission : Submission} {call : PanelCall}
      (added : after.panel.calls =
        [.submit submission, call] ++ before.panel.calls) :
      ¬ Unnoticed pending ⟨before, op, .ok (.ticked [terminal]), after⟩ := by
    intro unnoticed
    refine unnoticed.noSubmission submission ?_
    rw [CoreEvent.calls_eq added]
    exact List.mem_cons_self
  have damages {prepared : Prepared}
      (prepares : before.core.prepareFrame pending = .ok prepared)
      (damaged : prepared.damage ≠ []) : ¬ StaysQuiet before pending :=
    fun quiet => damaged ((prepareFrame_eq_nil_iff coherent redundant
      prepares).mpr ⟨quiet.fresh, quiet.partially⟩)
  cases step with
  | @pumpFailed core panel other isPending failed =>
      refine iff_of_false ?_ ?_
      · intro unnoticed
        obtain ⟨metrics, reported⟩ := unnoticed.reported
        simp [pumpFailedTerminal] at reported
      · intro quiet
        rw [quiet.pumps] at failed
        cases failed
  | @unchanged core panel other prepared isPending pumped prepares nothing =>
      cases isPending.symm.trans redundant.isPending
      refine iff_of_true ?_ ?_
      · refine ⟨?_, rfl, ⟨rfl, rfl, rfl⟩, ⟨_, rfl⟩, rfl⟩
        intro submission member
        rw [show CoreEvent.calls _ = [.pump panel.nextPump] from
          CoreEvent.calls_eq rfl] at member
        simp at member
      · obtain ⟨fresh, partially⟩ :=
          (prepareFrame_eq_nil_iff coherent redundant prepares).mp nothing
        exact ⟨pumped, fresh, partially⟩
  | @refused core panel other prepared isPending pumped prepares damaged _ =>
      cases isPending.symm.trans redundant.isPending
      exact iff_of_false (noticed rfl) (damages prepares damaged)
  | @accepted core next panel other prepared metrics isPending pumped prepares
      damaged _ _ =>
      cases isPending.symm.trans redundant.isPending
      exact iff_of_false (noticed rfl) (damages prepares damaged)

/-- A small core with partial refreshes on or off. -/
def refreshingCore (partialRefreshEnabled : Bool) : CoreSetup :=
  let setup := CoreSetup.gray 2 1 (fun _ => true) fun _ => some { }
  { setup with config := { setup.config with partialRefreshEnabled } }

/-- A keyframe, and a frame that paints one pixel as it already is. -/
def repaintedPixel : List CoreOp :=
  [.tick { now := .ofSecs 4 },
    .commit (grayFrame 2 1 .latest ⟨0, 0, 1, 1⟩ [10]) .textUi
      { now := .ofSecs 3 } 0,
    .tick { now := .ofSecs 2 },
    .commit (grayFrame 1 0 .latest ⟨0, 0, 2, 1⟩ [10, 10]) .textUi
      { now := .ofSecs 1 } 0]

/-- Is the last event a due tick of a redundant frame, and does a test hold? -/
def takesRedundant (test : CoreEvent → Bool) : List CoreEvent → Bool
  | [] => false
  | event :: _ =>
      test event && event.before.core.pending.any fun pending =>
        decide (Redundant event.before.core pending) &&
          decide (¬ Duration.ofSecs 4 < event.before.core.deadlineOf pending) &&
          decide (event.input = .tick { now := .ofSecs 4 })

theorem redundant_of_replay {setup : CoreSetup} {ops : List CoreOp}
    {test : CoreEvent → Bool}
    (replayed : (setup.replay ops).map (fun result =>
      takesRedundant test result.1) = some true) :
    ∃ (history : List CoreEvent) (event : CoreEvent)
        (pending : PendingPresentation),
      CoreRun setup history event.before ∧
        Redundant event.before.core pending ∧
        event.input.Ticks { now := .ofSecs 4 } ∧
        ¬ Duration.ofSecs 4 < event.before.core.deadlineOf pending ∧
        coreStep event.before event.input event.output event.after ∧
        test event = true := by
  obtain ⟨⟨history, final⟩, replayed, takes⟩ :=
    Option.map_eq_some_iff.mp replayed
  have run := CoreSetup.run_of_replay replayed
  cases history with
  | nil => cases takes
  | cons event history =>
      obtain ⟨tested, facts⟩ := Bool.and_eq_true_iff.mp takes
      obtain ⟨pending, isPending, facts⟩ := (Option.any_eq_true _ _).mp facts
      simp only [Bool.and_eq_true, decide_eq_true_eq] at facts
      obtain ⟨⟨redundant, due⟩, ticks⟩ := facts
      obtain ⟨earlier, stepped⟩ := run.last
      refine ⟨history, event, pending, earlier, redundant, ?_, due, stepped,
        tested⟩
      rw [ticks]
      rfl

/-- With partial refreshes a pixel painted as it already is stays unnoticed. -/
theorem unnoticed_repainted_pixel :
    ∃ (history : List CoreEvent) (event : CoreEvent)
        (pending : PendingPresentation),
      CoreRun (refreshingCore true) history event.before ∧
        Redundant event.before.core pending ∧ Unnoticed pending event := by
  have replayed : ((refreshingCore true).replay repaintedPixel).map
      (fun result => takesRedundant (fun event =>
        decide (event.before.core.damageTile = 1) &&
          event.before.panel.nextPump &&
          !decide (RefreshesAnyway event.before.core.refreshPolicy))
        result.1) = some true := by decide +kernel
  obtain ⟨history, event, pending, run, redundant, ticks, due, stepped, facts⟩ :=
    redundant_of_replay replayed
  simp only [Bool.and_eq_true, decide_eq_true_eq, Bool.not_eq_true',
    decide_eq_false_iff_not] at facts
  obtain ⟨⟨smallTile, pumps⟩, partially⟩ := facts
  refine ⟨history, event, pending, run, redundant,
    (unnoticed_iff_of_run run redundant ticks due stepped).mpr
      ⟨pumps, ?_, partially⟩⟩
  rintro ⟨x, y⟩ ⟨_, outside, ⟨⟨x', y'⟩, inside, column, row⟩, _⟩
  rw [smallTile, Nat.div_one, Nat.div_one] at column row
  cases column
  cases row
  exact outside inside

/-- Without partial refreshes the same frame refreshes the whole panel. -/
theorem noticed_without_partial_refresh :
    ∃ (history : List CoreEvent) (event : CoreEvent)
        (pending : PendingPresentation),
      CoreRun (refreshingCore false) history event.before ∧
        Redundant event.before.core pending ∧
        event.input.Ticks { now := .ofSecs 4 } ∧
        ¬ Duration.ofSecs 4 < event.before.core.deadlineOf pending ∧
        coreStep event.before event.input event.output event.after ∧
        ¬ Unnoticed pending event := by
  have replayed : ((refreshingCore false).replay repaintedPixel).map
      (fun result => takesRedundant (fun event => event.calls.any fun call =>
        match call with
        | .submit _ => true
        | .pump _ => false) result.1) = some true := by decide +kernel
  obtain ⟨history, event, pending, run, redundant, ticks, due, stepped, facts⟩ :=
    redundant_of_replay replayed
  refine ⟨history, event, pending, run, redundant, ticks, due, stepped, ?_⟩
  intro unnoticed
  obtain ⟨call, member, isSubmit⟩ := List.any_eq_true.mp facts
  cases call with
  | submit submission => exact unnoticed.noSubmission submission member
  | pump _ => cases isSubmit

end RmDisplay.Core
