import RmDisplay.Core.Steps

/-!
# Operations as sequences of atomic steps

`CoreStep` collects the atomic steps, labelled by what they do, and
`steps_of_run` says that every operation of a coherent core is a sequence of
them.  The terminal frames of the steps are the ones the operation returns; an
operation that returns an error loses them.
-/

namespace RmDisplay.Core

open Foundation Protocol DisplayCore

/-- What an atomic step does. -/
inductive Action where
  | commit (frame : ValidatedFrame)
  | cancel
  | freeze
  | edit (plane : PlaneId) (change : PlaneEdit)
  | adjust
  | present
  | draw (intent : FrameIntent)
  | resubmit
deriving DecidableEq, Repr

/-- The frame an action accepts. -/
def Action.accepted : Action → List ValidatedFrame
  | .commit frame => [frame]
  | .cancel | .freeze | .edit _ _ | .adjust | .present | .draw _ | .resubmit => []

/-- Changes of the refresh state that neither a frame, a plane nor the panel
takes part in. -/
inductive Adjusts : DisplayCore → DisplayCore → Prop where
  | configured {core next : DisplayCore} {config : RefreshPolicyConfig}
      {changed : Bool}
      (updates : core.updateRefreshConfig config = .ok (changed, next)) :
      Adjusts core next
  | armed {core : DisplayCore} : Adjusts core core.requireCleanup
  | restored {core next : DisplayCore} {debt : RefreshDebt}
      (restores : core.restoreRefreshDebt debt = .ok next) : Adjusts core next
  | waveform {core : DisplayCore} {waveform : Waveform} :
      Adjusts core (core.setInkWaveform waveform)
  | noted {core : DisplayCore} {failure : Option Duration} :
      Adjusts core { core with lastIdleCleanupFailure := failure }

inductive CoreStep : World → Action → List TerminalFrame → World → Prop where
  | commit {core next : DisplayCore} {panel : Panel} {frame : ValidatedFrame}
      {contentClass : ContentClass} {timing : Timing} {decodeUs : Nat}
      {report : CommitReport}
      (commits : core.commitTimed frame contentClass timing decodeUs =
        .ok (report, next)) :
      CoreStep ⟨core, panel⟩ (.commit frame) report.superseded.toList
        ⟨next, panel⟩
  | cancel {core : DisplayCore} {panel : Panel} :
      CoreStep ⟨core, panel⟩ .cancel core.cancelPending.1.toList
        ⟨core.cancelPending.2, panel⟩
  | freeze {core : DisplayCore} {panel : Panel} :
      CoreStep ⟨core, panel⟩ .freeze core.freezePresented.1.toList
        ⟨core.freezePresented.2, panel⟩
  | edit {core next : DisplayCore} {panel : Panel} {plane : PlaneId}
      {change : PlaneEdit} (edits : core.editPlane plane change = .ok next) :
      CoreStep ⟨core, panel⟩ (.edit plane change) [] ⟨next, panel⟩
  | adjust {core next : DisplayCore} {panel : Panel}
      (adjusts : Adjusts core next) :
      CoreStep ⟨core, panel⟩ .adjust [] ⟨next, panel⟩
  | present {timing : Timing} {before after : World} {terminal : TerminalFrame}
      (step : FrameStep timing before terminal after) :
      CoreStep before .present [terminal] after
  | draw {timing : Timing} {intent : FrameIntent} {before after : World}
      {output : Except CoreError Unit}
      (step : PlaneStep timing intent before output after) :
      CoreStep before (.draw intent) [] after
  | resubmit {timing : Timing} {before after : World} {report : CleanupReport}
      (idle : before.core.pending = none)
      (step : CleanupStep timing before report after) :
      CoreStep before .resubmit [] after

/-- No call replaces the replies of a panel. -/
theorem CoreStep.panel_reliable {before after : World} {action : Action}
    {terminals : List TerminalFrame}
    (step : CoreStep before action terminals after)
    (reliable : before.panel.Reliable) : after.panel.Reliable := by
  cases step with
  | commit _ | cancel | freeze | edit _ | adjust _ => exact reliable
  | present step =>
      cases step with
      | pumpFailed _ _ | unchanged _ _ _ _ => exact reliable.afterPump
      | refused _ _ _ _ _ | accepted _ _ _ _ _ _ =>
          exact reliable.afterPump.afterSubmit _ _ _ _
  | draw step =>
      cases step with
      | failed _ | unchanged _ => exact reliable
      | refused _ _ _ | accepted _ _ _ _ => exact reliable.afterSubmit _ _ _ _
  | resubmit _ step =>
      cases step with
      | pumpFailed _ => exact reliable.afterPump
      | refused _ _ | accepted _ _ =>
          exact reliable.afterPump.afterSubmit _ _ _ _

/-- Adjusting leaves the surfaces, the planes, the frames and the debt. -/
theorem Adjusts.frame {core next : DisplayCore} (adjusts : Adjusts core next) :
    ∃ refreshPolicy damageTile forceCleanupNext inkWaveform
      lastIdleCleanupFailure,
      (core.forceCleanupNext = true → forceCleanupNext = true) ∧
        next = { core with
          refreshPolicy
          damageTile
          forceCleanupNext
          inkWaveform
          lastIdleCleanupFailure } := by
  cases adjusts with
  | configured updates =>
      obtain ⟨_, _, stored⟩ := Res.bind_eq_ok.mp updates
      cases stored
      exact ⟨_, _, _, _, _, id, rfl⟩
  | restored restores =>
      obtain ⟨_, _, stored⟩ := Res.bind_eq_ok.mp restores
      cases stored
      exact ⟨_, _, _, _, _, id, rfl⟩
  | armed => exact ⟨_, _, _, _, _, fun _ => rfl, rfl⟩
  | waveform | noted => exact ⟨_, _, _, _, _, id, rfl⟩

theorem DisplayCore.setPlane_frame (core : DisplayCore) (id : PlaneId)
    (plane : LocalOverlay) :
    ∃ overlay peerOverlay ink,
      core.setPlane id plane = { core with overlay, peerOverlay, ink } := by
  cases id <;> exact ⟨_, _, _, rfl⟩

/-- A sequence of allowed steps, with the frames it accepts and the terminal
frames it gives. -/
inductive CoreSteps (allowed : World → Action → Prop) :
    World → List ValidatedFrame → List TerminalFrame → World → Prop where
  | nil {world : World} : CoreSteps allowed world [] [] world
  | cons {before middle after : World} {action : Action}
      {accepted : List ValidatedFrame}
      {terminals more : List TerminalFrame} (isAllowed : allowed before action)
      (step : CoreStep before action terminals middle)
      (rest : CoreSteps allowed middle accepted more after) :
      CoreSteps allowed before (action.accepted ++ accepted)
        (terminals ++ more) after

namespace CoreSteps

variable {allowed : World → Action → Prop} {before middle after : World}
  {accepted : List ValidatedFrame} {terminals : List TerminalFrame}

theorem single (action : Action) (isAllowed : allowed before action)
    (step : CoreStep before action terminals after) :
    CoreSteps allowed before action.accepted terminals after := by
  simpa using CoreSteps.cons isAllowed step .nil

theorem append {acceptedLater : List ValidatedFrame} {later : List TerminalFrame}
    (first : CoreSteps allowed before accepted terminals middle)
    (second : CoreSteps allowed middle acceptedLater later after) :
    CoreSteps allowed before (accepted ++ acceptedLater) (terminals ++ later)
      after := by
  induction first with
  | nil => exact second
  | cons isAllowed step _ induction =>
      rw [List.append_assoc, List.append_assoc]
      exact .cons isAllowed step (induction second)

theorem mono {wider : World → Action → Prop}
    (steps : CoreSteps allowed before accepted terminals after)
    (widens : ∀ world action, allowed world action → wider world action) :
    CoreSteps wider before accepted terminals after := by
  induction steps with
  | nil => exact .nil
  | cons isAllowed step _ induction =>
      exact .cons (widens _ _ isAllowed) step induction

theorem keeps (inv : World → Prop)
    (steps : CoreSteps allowed before accepted terminals after)
    (preserved : ∀ {world next : World} {action : Action}
      {given : List TerminalFrame}, allowed world action →
      CoreStep world action given next → inv world → inv next)
    (atStart : inv before) : inv after := by
  induction steps with
  | nil => exact atStart
  | cons isAllowed step _ induction =>
      exact induction (preserved isAllowed step atStart)

theorem calls_suffix
    (steps : CoreSteps allowed before accepted terminals after) :
    before.panel.calls <:+ after.panel.calls := by
  refine steps.keeps (before.panel.calls <:+ ·.panel.calls) ?_
    (List.suffix_refl _)
  intro world next action given _ step older
  refine older.trans ?_
  have pumped (panel : Panel) : panel.calls <:+ panel.afterPump.calls :=
    List.suffix_cons _ _
  have submitted (panel : Panel) (origin : Origin) (pixels : PixelSurface)
      (damage : List Rect) (decision : RefreshDecision) : panel.calls <:+
        (panel.afterSubmit origin pixels damage decision).calls :=
    List.suffix_cons _ _
  cases step with
  | commit | cancel | freeze | edit | adjust => exact List.suffix_refl _
  | present step =>
      cases step with
      | pumpFailed | unchanged => exact pumped _
      | refused | accepted => exact (pumped _).trans (submitted _ _ _ _ _)
  | draw step =>
      cases step with
      | failed | unchanged => exact List.suffix_refl _
      | refused | accepted => exact submitted _ _ _ _ _
  | resubmit _ step =>
      cases step with
      | pumpFailed => exact pumped _
      | refused | accepted => exact (pumped _).trans (submitted _ _ _ _ _)

end CoreSteps

theorem Adjusts.coherent {core next : DisplayCore} (adjusts : Adjusts core next)
    (coherent : Coherent core) : Coherent next := by
  cases adjusts with
  | configured updates =>
      obtain ⟨policy, reconfigured, stored⟩ := Res.bind_eq_ok.mp updates
      rw [Res.mapError_eq_ok] at reconfigured
      obtain ⟨_, valid, _⟩ := Res.bind_eq_ok.mp reconfigured
      cases stored
      exact coherent.transfer rfl ⟨rfl, rfl, rfl⟩ ⟨rfl, rfl, rfl⟩ (.inl rfl)
        (.inl rfl) (RefreshPolicyConfig.validate_eq_ok valid)
  | restored restores =>
      obtain ⟨policy, _, stored⟩ := Res.bind_eq_ok.mp restores
      cases stored
      exact coherent.transfer rfl ⟨rfl, rfl, rfl⟩ ⟨rfl, rfl, rfl⟩ (.inl rfl)
        (.inl rfl) coherent.tile
  | armed | waveform | noted =>
      exact coherent.transfer rfl ⟨rfl, rfl, rfl⟩ ⟨rfl, rfl, rfl⟩ (.inl rfl)
        (.inl rfl) coherent.tile

/-- What an accepted frame does to the core. -/
theorem commitTimed_eq_ok {core next : DisplayCore} {frame : ValidatedFrame}
    {contentClass : ContentClass} {timing : Timing} {decodeUs : Nat}
    {report : CommitReport}
    (commits : core.commitTimed frame contentClass timing decodeUs =
      .ok (report, next)) :
    core.pendingIsSettled = false ∧
      (frame.frameId ≠ 0 ∧ core.logicalFrameId < frame.frameId) ∧
      frame.pixelFormat = core.base.format ∧
      (frame.baseFrameId = 0 ∨ core.baseValid = true ∧
        frame.baseFrameId = core.logicalFrameId) ∧
      report = ⟨frame.frameId,
        core.pending.map (supersededTerminal timing.now)⟩ ∧
      ∃ base, core.base.applyRegionsAtomic frame.regions = .ok base ∧
        next = { core with
          base
          logicalFrameId := frame.frameId
          baseValid := true
          pending :=
            some (core.nextPending frame contentClass timing decodeUs) } := by
  unfold commitTimed at commits
  split at commits
  · cases commits
  · rename_i notSettled
    split at commits
    · cases commits
    · rename_i newer
      split at commits
      · cases commits
      · rename_i sameFormat
        split at commits
        · cases commits
        · rename_i onBase
          obtain ⟨base, applied, stored⟩ := Res.bind_eq_ok.mp commits
          cases stored
          refine ⟨by simpa using notSettled, by omega, not_not.mp sameFormat,
            ?_, rfl, base, Res.mapError_eq_ok.mp applied, rfl⟩
          rw [not_and_or, not_not, not_or] at onBase
          rcases onBase with keyframe | ⟨valid, current⟩
          · exact .inl keyframe
          · exact .inr ⟨by simpa using valid, not_not.mp current⟩

theorem coherent_commit {core next : DisplayCore} {frame : ValidatedFrame}
    {contentClass : ContentClass} {timing : Timing} {decodeUs : Nat}
    {report : CommitReport} (coherent : Coherent core)
    (commits : core.commitTimed frame contentClass timing decodeUs =
      .ok (report, next)) : Coherent next := by
  obtain ⟨_, _, _, _, _, base, applied, rfl⟩ := commitTimed_eq_ok commits
  have valid := PixelSurface.valid_of_applyRegionsAtomic applied
  obtain ⟨after, appliedAgain, sameShape, _⟩ :=
    PixelSurface.applyRegionsAtomic_spec valid
  rw [applied] at appliedAgain
  cases appliedAgain
  obtain ⟨⟨sameWidth, sameHeight⟩, _⟩ :=
    PixelSurface.shape_eq_iff.mp sameShape
  have regionsInside := (PixelSurface.validateRegions_eq_ok.mp valid).1
  have sizes : base.width * base.height = core.width * core.height := by
    rw [sameWidth, sameHeight]
    rfl
  refine ⟨coherent.overlayLen.trans sizes.symm, coherent.peerLen.trans sizes.symm,
    coherent.inkLen.trans sizes.symm, coherent.presentedShape.trans sameShape.symm,
    coherent.workingShape.trans sameShape.symm,
    coherent.presentedBaseShape.trans sameShape.symm, ?_, ?_, coherent.tile, ?_⟩
  · intro pending isPending rect member
    simp only [width, height, sameWidth, sameHeight]
    cases isPending
    rcases List.mem_append.mp member with new | old
    · obtain ⟨next, isRegion, rfl⟩ := List.mem_map.mp new
      exact (regionsInside next isRegion).1
    · cases isOld : core.pending with
      | none => simp [isOld] at old
      | some earlier =>
          rw [isOld] at old
          exact coherent.hint earlier isOld rect old
  · simp only [width, height, sameWidth, sameHeight]
    exact coherent.debt
  · simp only [width, height, sameWidth, sameHeight]
    exact coherent.dirty

theorem editPlane_eq_ok {core next : DisplayCore} {id : PlaneId}
    {change : PlaneEdit} (edits : core.editPlane id change = .ok next) :
    ∃ plane, change.apply core.width (core.plane id) = .ok plane ∧
      next = core.setPlane id plane := by
  obtain ⟨plane, applied, stored⟩ := Res.bind_eq_ok.mp edits
  cases stored
  exact ⟨plane, applied, rfl⟩

theorem len_edit {change : PlaneEdit} {width : Nat}
    {plane after : LocalOverlay}
    (applied : change.apply width plane = .ok after) :
    after.len = plane.len := by
  cases change with
  | replacePlanes luma alpha =>
      exact (LocalOverlay.replacePlanes_spec applied).1
  | patch rect luma alpha => exact (LocalOverlay.patch_spec applied).1
  | clear =>
      cases applied
      rfl
  | inkLine origin target radius erase =>
      obtain ⟨_, _, sameLen, _⟩ := LocalOverlay.inkLine_spec applied
      exact sameLen

theorem coherent_edit {core next : DisplayCore} {id : PlaneId}
    {change : PlaneEdit} (coherent : Coherent core)
    (edits : core.editPlane id change = .ok next) : Coherent next := by
  obtain ⟨plane, applied, rfl⟩ := editPlane_eq_ok edits
  have sameLen := len_edit applied
  cases id with
  | menu =>
      exact ⟨sameLen.trans coherent.overlayLen, coherent.peerLen,
        coherent.inkLen, coherent.presentedShape, coherent.workingShape,
        coherent.presentedBaseShape, coherent.hint, coherent.debt,
        coherent.tile, coherent.dirty⟩
  | peer =>
      exact ⟨coherent.overlayLen, sameLen.trans coherent.peerLen,
        coherent.inkLen, coherent.presentedShape, coherent.workingShape,
        coherent.presentedBaseShape, coherent.hint, coherent.debt,
        coherent.tile, coherent.dirty⟩
  | ink =>
      refine ⟨coherent.overlayLen, coherent.peerLen,
        sameLen.trans coherent.inkLen, coherent.presentedShape,
        coherent.workingShape, coherent.presentedBaseShape, coherent.hint,
        coherent.debt, coherent.tile, ?_⟩
      cases change with
      | replacePlanes luma alpha =>
          intro rect isDirty
          have same := (LocalOverlay.replacePlanes_spec applied).2
          exact coherent.dirty rect (same ▸ isDirty)
      | patch rect luma alpha =>
          intro dirty isDirty
          have same := (LocalOverlay.patch_spec applied).2
          exact coherent.dirty dirty (same ▸ isDirty)
      | clear =>
          cases applied
          intro rect missing
          cases missing
      | inkLine origin target radius erase =>
          obtain ⟨rect, isDirty, _, _, fits, _⟩ :=
            LocalOverlay.inkLine_spec applied
          have rows : core.ink.len / core.width = core.height := by
            rw [coherent.inkLen, Nat.mul_comm]
            exact Nat.mul_div_cancel _ core.base.packed.wide
          intro other isOther
          have sameRect : rect = other := by
            have both := isDirty.symm.trans isOther
            exact Option.some.inj both
          rw [← sameRect]
          have := fits fun before wasDirty => by
            have old := coherent.dirty before wasDirty
            change _ ∧ _ ≤ core.ink.len / core.width
            rw [rows]
            exact old
          change _ ∧ _ ≤ core.ink.len / core.width at this
          rw [rows] at this
          exact this

/-- The panel accepted a maintenance refresh, which is always complete. -/
theorem cleanupAccepted_eq (core : DisplayCore) (now : Duration) :
    core.cleanupAccepted now = { core with
      lastPresentAt := some now
      panelStateUncertain := false
      refreshPolicy := core.refreshPolicy.presented core.cleanupDecision
      partialDamagePixelsSinceCleanup := 0
      lastPartialAt := none
      forceCleanupNext := false
      settleDamage := []
      fastUpdatesSinceSettled := 0 } := by
  have complete : core.cleanupDecision.completeRefresh = true :=
    RefreshPolicy.decide_forced _ _ _ _ _
  unfold cleanupAccepted recordPanelDamage
  simp only [complete, if_true]
  rfl

theorem CleanupStep.coherent {timing : Timing} {world after : World}
    {report : CleanupReport} (step : CleanupStep timing world report after)
    (coherent : Coherent world.core) : Coherent after.core := by
  cases step with
  | pumpFailed _ | refused _ _ =>
      exact coherent.transfer rfl ⟨rfl, rfl, rfl⟩ ⟨rfl, rfl, rfl⟩ (.inl rfl)
        (.inr rfl) coherent.tile
  | accepted _ _ =>
      rw [cleanupAccepted_eq]
      exact coherent.transfer rfl ⟨rfl, rfl, rfl⟩ ⟨rfl, rfl, rfl⟩ (.inl rfl)
        (.inr rfl) coherent.tile

theorem coherent_freeze {core : DisplayCore} (coherent : Coherent core) :
    Coherent core.freezePresented.2 := by
  have sameShape := coherent.presentedBaseShape
  obtain ⟨⟨sameWidth, sameHeight⟩, _⟩ := PixelSurface.shape_eq_iff.mp sameShape
  have sizes : core.presentedBase.width * core.presentedBase.height =
      core.width * core.height := by
    rw [sameWidth, sameHeight]
    rfl
  refine ⟨coherent.overlayLen.trans sizes.symm,
    coherent.peerLen.trans sizes.symm, coherent.inkLen.trans sizes.symm,
    coherent.presentedShape.trans sameShape.symm,
    coherent.workingShape.trans sameShape.symm, rfl,
    fun _ missing => (by cases missing), ?_, coherent.tile, ?_⟩
  · change ∀ rect ∈ core.settleDamage, rect.Inside core.presentedBase.width
      core.presentedBase.height
    rw [sameWidth, sameHeight]
    exact coherent.debt
  · change ∀ rect ∈ core.ink.dirty,
      rect.x + rect.width ≤ core.presentedBase.width ∧
        rect.y + rect.height ≤ core.presentedBase.height
    rw [sameWidth, sameHeight]
    exact coherent.dirty

theorem CoreStep.coherent {before after : World} {action : Action}
    {terminals : List TerminalFrame}
    (step : CoreStep before action terminals after)
    (coherent : Coherent before.core) : Coherent after.core := by
  cases step with
  | commit commits => exact coherent_commit coherent commits
  | cancel =>
      exact coherent.transfer rfl ⟨rfl, rfl, rfl⟩ ⟨rfl, rfl, rfl⟩ (.inr rfl)
        (.inl rfl) coherent.tile
  | freeze => exact coherent_freeze coherent
  | edit edits => exact coherent_edit coherent edits
  | adjust adjusts => exact adjusts.coherent coherent
  | present step => exact step.coherent coherent
  | draw step => exact step.coherent coherent
  | resubmit _ step => exact step.coherent coherent

/-- What a core is made for, and how it is configured. -/
def DisplayCore.setting (self : DisplayCore) :
    ((Nat × Nat) × PixelFormat) × RefreshPolicyConfig × Nat :=
  (self.base.shape, self.refreshPolicy.config, self.damageTile)

theorem FrameStep.setting_eq {timing : Timing} {before after : World}
    {terminal : TerminalFrame} (step : FrameStep timing before terminal after) :
    after.core.setting = before.core.setting := by
  cases step with
  | pumpFailed _ _ | unchanged _ _ _ _ | refused _ _ _ _ _ => rfl
  | accepted _ _ _ _ _ presents =>
      obtain ⟨_, _, _, _, _, rfl⟩ := presentAccepted_eq_ok presents
      unfold setting
      simp [RefreshPolicy.presentedSubmissions]

theorem PlaneStep.setting_eq {timing : Timing} {intent : FrameIntent}
    {before after : World} {output : Except CoreError Unit}
    (step : PlaneStep timing intent before output after) :
    after.core.setting = before.core.setting := by
  cases step with
  | failed _ =>
      obtain ⟨_, taken⟩ := planeTaken_frame _ intent
      rw [taken]
      rfl
  | unchanged draws | refused draws _ _ =>
      obtain ⟨_, _, rfl⟩ := drawnPlane_frame draws
      rfl
  | accepted draws _ _ presents =>
      obtain ⟨_, _, _, _, _, rfl⟩ := planeAccepted_eq_ok presents
      obtain ⟨_, _, rfl⟩ := drawnPlane_frame draws
      unfold setting
      simp [RefreshPolicy.presentedSubmissions]

theorem CleanupStep.setting_eq {timing : Timing} {before after : World}
    {report : CleanupReport} (step : CleanupStep timing before report after) :
    after.core.setting = before.core.setting := by
  cases step with
  | pumpFailed _ | refused _ _ => rfl
  | accepted _ _ =>
      rw [cleanupAccepted_eq]
      rfl

theorem CoreStep.setting_eq {before after : World} {action : Action}
    {terminals : List TerminalFrame}
    (step : CoreStep before action terminals after)
    (coherent : Coherent before.core) (notAdjust : action ≠ .adjust) :
    after.core.setting = before.core.setting := by
  cases step with
  | commit commits =>
      obtain ⟨_, _, _, _, _, base, applied, rfl⟩ := commitTimed_eq_ok commits
      obtain ⟨other, appliedAgain, sameShape, _⟩ :=
        PixelSurface.applyRegionsAtomic_spec
          (PixelSurface.valid_of_applyRegionsAtomic applied)
      cases applied.symm.trans appliedAgain
      exact congrArg (·, _) sameShape
  | cancel => rfl
  | freeze => exact congrArg (·, _) coherent.presentedBaseShape
  | edit edits =>
      obtain ⟨plane, _, rfl⟩ := editPlane_eq_ok edits
      obtain ⟨_, _, _, same⟩ := setPlane_frame _ _ plane
      rw [same]
      rfl
  | adjust _ => exact absurd rfl notAdjust
  | present step => exact step.setting_eq
  | draw step => exact step.setting_eq
  | resubmit _ step => exact step.setting_eq

theorem CoreStep.shape_eq {before after : World} {action : Action}
    {terminals : List TerminalFrame}
    (step : CoreStep before action terminals after)
    (coherent : Coherent before.core) :
    after.core.base.shape = before.core.base.shape := by
  by_cases isAdjust : action = .adjust
  · cases step with
    | adjust adjusts =>
        obtain ⟨_, _, _, _, _, _, rfl⟩ := adjusts.frame
        rfl
    | _ => cases isAdjust
  · exact congrArg (·.1) (step.setting_eq coherent isAdjust)

section

variable {world after : World} {timing : Timing}

private theorem submitPlane_runs {core : DisplayCore} {panel : Panel}
    {intent : FrameIntent} {drawn : DisplayCore} {damage : List Rect}
    {output : Except CoreError Unit} (coherent : Coherent core)
    (draws : core.drawnPlane intent = .ok (drawn, damage))
    (damaged : damage ≠ [])
    (runs : (submitPlane timing intent damage).Runs ⟨drawn, panel⟩ output
      after) :
    PlaneStep timing intent ⟨core, panel⟩ output after := by
  have spec := drawnPlane_spec coherent draws
  obtain ⟨sameWidth, sameHeight⟩ := width_drawn spec
  have inside := (submittedDamage_spec intent
    (by rw [sameWidth, sameHeight]; exact spec.inside)).1
  simp only [submitPlane, getCore_bind, submit_bind] at runs
  split at runs
  · rename_i refuses
    rw [Proc.runs_throw] at runs
    obtain ⟨rfl, rfl⟩ := runs
    exact .refused draws damaged refuses
  · rename_i metrics accepts
    obtain ⟨next, presents, _, runs⟩ := ofRes_bind_of_ensures
      (planeAccepted_ensures (coherent_drawn coherent spec) inside
        (drawn.planeDecision intent damage) metrics.physicalSubmissions
        timing.now) runs
    obtain ⟨rfl, rfl⟩ := Proc.runs_modify.mp runs
    exact .accepted draws damaged accepts presents

theorem drawPlane_runs (coherent : Coherent world.core) {intent : FrameIntent}
    {output : Except CoreError Unit}
    (runs : (drawPlane timing intent).Runs world output after) :
    PlaneStep timing intent world output after := by
  obtain ⟨core, panel⟩ := world
  simp only [drawPlane, getCore_bind, setCore_bind] at runs
  change Proc.Runs (if (core.planeArea intent).isEmpty = true then _ else _)
    ⟨core.planeTaken intent, panel⟩ output after at runs
  split at runs
  · rename_i noArea
    rw [Proc.runs_pure] at runs
    obtain ⟨rfl, rfl⟩ := runs
    exact .unchanged (by simp [drawnPlane, noArea])
  · rename_i someArea
    rw [Proc.runs_bind] at runs
    rcases runs with ⟨working, between, redrawn, runs⟩ | ⟨err, rfl, failed⟩
    · rw [Proc.runs_ofRes] at redrawn
      obtain ⟨rfl, ⟨value, redrawn, same⟩ | ⟨_, _, impossible⟩⟩ := redrawn
      · cases same
        obtain ⟨damage, computed, _⟩ := redrawn_spec coherent
          (fun none => someArea (List.isEmpty_iff.mpr none)) redrawn
        have draws : core.drawnPlane intent =
            .ok ({ core.planeTaken intent with working }, damage) := by
          unfold drawnPlane
          dsimp only
          rw [if_neg someArea]
          exact Res.bind_eq_ok.mpr ⟨working, redrawn,
            Res.bind_eq_ok.mpr ⟨damage, computed, rfl⟩⟩
        rw [setCore_bind] at runs
        change (Proc.ofRes CoreError.surface
          (({ core.planeTaken intent with working } : DisplayCore).planeDamage
            intent (core.planeArea intent)) >>= _).Runs _ _ _ at runs
        rw [computed] at runs
        change Proc.Runs (if damage.isEmpty = true then _ else _) _ output after
          at runs
        split at runs
        · rename_i nothing
          rw [Proc.runs_pure] at runs
          obtain ⟨rfl, rfl⟩ := runs
          rw [List.isEmpty_iff.mp nothing] at draws
          exact .unchanged draws
        · rename_i damaged
          exact submitPlane_runs coherent draws
            (fun none => damaged (List.isEmpty_iff.mpr none)) runs
      · cases impossible
    · rw [Proc.runs_ofRes] at failed
      obtain ⟨rfl, ⟨_, _, impossible⟩ | ⟨err, fails, same⟩⟩ := failed
      · cases impossible
      · cases same
        have drawFails : core.drawnPlane intent = .error err := by
          change (core.planeTaken intent).redrawPlanes
            (core.planeArea intent) = .error err at fails
          unfold drawnPlane
          dsimp only
          rw [if_neg someArea, fails, Res.error_bind]
        exact .failed drawFails

/-- Steps that only show what is there; a frame is the first that is shown. -/
def Presents (panel : Panel) (current : World) (action : Action) : Prop :=
  action = .present ∧ current.panel = panel ∨ action = .resubmit

/-- Steps that never draw a plane, accept, cancel or edit. -/
def Maintains (panel : Panel) (current : World) (action : Action) : Prop :=
  action = .adjust ∨ Presents panel current action

theorem Presents.maintains {panel : Panel} {current : World} {action : Action}
    (presents : Presents panel current action) :
    Maintains panel current action :=
  .inr presents

theorem tickInner_steps (coherent : Coherent world.core) {ignoreDeadline : Bool}
    {output : Except CoreError (List TerminalFrame)}
    (runs : (tickInner timing ignoreDeadline).Runs world output after) :
    ∃ terminals, output = .ok terminals ∧
      CoreSteps (Presents world.panel) world [] terminals after := by
  rcases tickInner_runs coherent runs with ⟨rfl, rfl, _⟩ | ⟨terminal, rfl, step⟩
  · exact ⟨[], rfl, .nil⟩
  · exact ⟨[terminal], rfl, .single _ (.inl ⟨rfl, rfl⟩) (.present step)⟩

/-- Resubmitting the presented image is one cleanup step. -/
theorem resubmitPresented_runs
    {output : Except CoreError CleanupReport}
    (runs : (resubmitPresented timing).Runs world output after) :
    ∃ report, output = .ok report ∧ report.terminals = [] ∧
      CleanupStep timing world report after := by
  obtain ⟨core, panel⟩ := world
  simp only [resubmitPresented, pump_bind] at runs
  split at runs
  · rename_i failed
    simp only [cleanupFailed, getCore_bind, setCore_bind, Proc.runs_pure] at runs
    obtain ⟨rfl, rfl⟩ := runs
    exact ⟨_, rfl, rfl, .pumpFailed (by simpa using failed)⟩
  · rename_i pumped
    simp only [getCore_bind, submit_bind] at runs
    split at runs
    · rename_i refuses
      simp only [cleanupFailed, getCore_bind, setCore_bind, Proc.runs_pure]
        at runs
      obtain ⟨rfl, rfl⟩ := runs
      exact ⟨_, rfl, rfl, .refused (by simpa using pumped) refuses⟩
    · rename_i metrics accepts
      simp only [setCore_bind, Proc.runs_pure] at runs
      obtain ⟨rfl, rfl⟩ := runs
      exact ⟨_, rfl, rfl, .accepted (by simpa using pumped) accepts⟩

private theorem CleanupStep.cleanupPending {report : CleanupReport}
    (step : CleanupStep timing world report after)
    (armed : world.core.forceCleanupNext = true) :
    report.cleanupPending = after.core.forceCleanupNext := by
  cases step with
  | pumpFailed _ | refused _ _ => exact armed.symm
  | accepted _ _ =>
      rw [cleanupAccepted_eq]
      rfl

/-- A cleanup request arms a cleanup and then shows what is there. -/
theorem requestCleanup_steps (coherent : Coherent world.core)
    {output : Except CoreError CleanupReport}
    (runs : (requestCleanup timing).Runs world output after) :
    ∃ report, output = .ok report ∧
      report.cleanupPending = after.core.forceCleanupNext ∧
      CoreSteps (Presents world.panel) ⟨world.core.requireCleanup, world.panel⟩
        [] report.terminals after := by
  obtain ⟨core, panel⟩ := world
  have armedCoherent : Coherent core.requireCleanup :=
    (@Adjusts.armed core).coherent coherent
  simp only [requestCleanup, getCore_bind, setCore_bind] at runs
  split at runs
  · rw [Proc.runs_bind] at runs
    rcases runs with ⟨terminals, between, ticked, runs⟩ | ⟨err, rfl, failed⟩
    · obtain ⟨given, same, steps⟩ := tickInner_steps armedCoherent ticked
      cases same
      simp only [getCore_bind, Proc.runs_pure] at runs
      obtain ⟨rfl, rfl⟩ := runs
      exact ⟨_, rfl, rfl, steps⟩
    · obtain ⟨_, impossible, _⟩ := tickInner_steps armedCoherent failed
      cases impossible
  · rename_i idle
    split at runs
    · rw [Proc.runs_pure] at runs
      obtain ⟨rfl, rfl⟩ := runs
      exact ⟨_, rfl, rfl, .nil⟩
    · obtain ⟨report, rfl, noTerminals, step⟩ := resubmitPresented_runs runs
      refine ⟨report, rfl, step.cleanupPending rfl, ?_⟩
      rw [noTerminals]
      exact .single _ (.inr rfl)
        (.resubmit (by simpa [requireCleanup] using idle) step)

theorem requestCleanup_maintains (coherent : Coherent world.core)
    {output : Except CoreError CleanupReport}
    (runs : (requestCleanup timing).Runs world output after) :
    ∃ report, output = .ok report ∧
      CoreSteps (Maintains world.panel) world [] report.terminals after := by
  obtain ⟨report, rfl, _, steps⟩ := requestCleanup_steps coherent runs
  exact ⟨report, rfl, .cons (.inl rfl) (.adjust .armed)
    (steps.mono fun _ _ => Presents.maintains)⟩

theorem requireCleanup_of_armed {core : DisplayCore}
    (armed : core.forceCleanupNext = true) : core.requireCleanup = core := by
  rw [requireCleanup, ← armed]

/-- A profile change configures the policy, and then requests a cleanup if that
changed anything or a cleanup is armed. -/
theorem changeRefreshProfile_runs (coherent : Coherent world.core)
    {config : RefreshPolicyConfig}
    {output : Except CoreError RefreshProfileChange}
    (runs : (changeRefreshProfile config timing).Runs world output after) :
    (∃ changed configured report,
      world.core.updateRefreshConfig config = .ok (changed, configured) ∧
      output = .ok ⟨config, changed, report.cleanupPerformed,
        report.cleanupPending, report.backendFailed, report.terminals⟩ ∧
      if changed || configured.forceCleanupNext then
        (requestCleanup timing).Runs ⟨configured, world.panel⟩ (.ok report) after
      else report = ⟨false, false, false, []⟩ ∧
        after = ⟨configured, world.panel⟩) ∨
      (∃ err, output = .error err ∧
        world.core.updateRefreshConfig config = .error err) ∧ after = world := by
  obtain ⟨core, panel⟩ := world
  simp only [changeRefreshProfile, getCore_bind] at runs
  rw [Proc.runs_bind] at runs
  rcases runs with ⟨⟨changed, configured⟩, between, updated, runs⟩ |
    ⟨err, rfl, failed⟩
  · rw [Proc.runs_ofRes] at updated
    obtain ⟨rfl, ⟨_, updates, same⟩ | ⟨_, _, impossible⟩⟩ := updated
    · cases same
      have configuredCoherent : Coherent configured :=
        (Adjusts.configured updates).coherent coherent
      simp only [setCore_bind] at runs
      split at runs
      · rename_i cleans
        rw [Proc.runs_bind] at runs
        rcases runs with ⟨report, between, cleaned, runs⟩ | ⟨err, rfl, failed⟩
        · rw [Proc.runs_pure] at runs
          obtain ⟨rfl, rfl⟩ := runs
          refine .inl ⟨changed, configured, report, updates, rfl, ?_⟩
          rw [if_pos cleans]
          exact cleaned
        · obtain ⟨_, impossible, _⟩ :=
            requestCleanup_steps configuredCoherent failed
          cases impossible
      · rename_i rests
        obtain ⟨rfl, rfl⟩ := Proc.runs_pure.mp runs
        refine .inl ⟨changed, configured, ⟨false, false, false, []⟩, updates,
          rfl, ?_⟩
        rw [if_neg rests]
        exact ⟨rfl, rfl⟩
    · cases impossible
  · rw [Proc.runs_ofRes] at failed
    obtain ⟨unchanged, ⟨_, _, impossible⟩ | ⟨_, fails, same⟩⟩ := failed
    · cases impossible
    · cases same
      exact .inr ⟨⟨_, rfl, fails⟩, unchanged⟩

theorem changeRefreshProfile_steps (coherent : Coherent world.core)
    {config : RefreshPolicyConfig}
    {output : Except CoreError RefreshProfileChange}
    (runs : (changeRefreshProfile config timing).Runs world output after) :
    (∃ change configured, output = .ok change ∧
      world.core.updateRefreshConfig config = .ok (change.changed, configured) ∧
      change.cleanupPending = after.core.forceCleanupNext ∧
      CoreSteps (Presents world.panel)
        ⟨if change.changed then configured.requireCleanup else configured,
          world.panel⟩ [] change.terminals after) ∨
      (∃ err, output = .error err ∧
        world.core.updateRefreshConfig config = .error err) ∧ after = world := by
  rcases changeRefreshProfile_runs coherent runs with
    ⟨changed, configured, report, updates, rfl, rest⟩ | failed
  · refine .inl ⟨_, configured, rfl, updates, ?_⟩
    split at rest
    · rename_i cleans
      obtain ⟨given, same, pending, steps⟩ :=
        requestCleanup_steps ((Adjusts.configured updates).coherent coherent) rest
      cases same
      refine ⟨pending, ?_⟩
      cases changed with
      | true => exact steps
      | false =>
          rw [requireCleanup_of_armed (by simpa using cleans)] at steps
          exact steps
    · rename_i rests
      obtain ⟨rfl, rfl⟩ := rest
      obtain ⟨rfl, unarmed⟩ : changed = false ∧
          configured.forceCleanupNext = false := by simpa using rests
      exact ⟨unarmed.symm, .nil⟩
  · exact .inr failed

theorem changeRefreshProfile_maintains (coherent : Coherent world.core)
    {config : RefreshPolicyConfig}
    {output : Except CoreError RefreshProfileChange}
    (runs : (changeRefreshProfile config timing).Runs world output after) :
    (∃ change, output = .ok change ∧
      CoreSteps (Maintains world.panel) world [] change.terminals after) ∨
      (∃ err, output = .error err) ∧ after = world := by
  rcases changeRefreshProfile_steps coherent runs with
    ⟨change, configured, rfl, updates, _, steps⟩ | ⟨⟨err, rfl, _⟩, unchanged⟩
  · refine .inl ⟨change, rfl, .cons (.inl rfl) (.adjust (.configured updates)) ?_⟩
    have maintained := steps.mono fun _ _ => Presents.maintains
    split at maintained
    · exact .cons (.inl rfl) (.adjust .armed) maintained
    · exact maintained
  · exact .inr ⟨⟨err, rfl⟩, unchanged⟩

/-- A tick either starts a cleanup of its own or lets the pending frame
advance. -/
theorem tickInteractive_steps (coherent : Coherent world.core) {idle : Bool}
    {output : Except CoreError (List TerminalFrame)}
    (runs : (tickInteractive timing idle).Runs world output after) :
    ∃ terminals, output = .ok terminals ∧
      if idle && world.core.idleCleanupDue timing.now then
        ∃ middle failure,
          CoreSteps (Presents world.panel)
            ⟨world.core.requireCleanup, world.panel⟩ [] terminals middle ∧
          after = ⟨{ middle.core with lastIdleCleanupFailure := failure },
            middle.panel⟩
      else CoreSteps (Presents world.panel) world [] terminals after := by
  simp only [tickInteractive, getCore_bind] at runs
  split at runs
  · rename_i due
    rw [Proc.runs_bind] at runs
    rcases runs with ⟨report, between, cleaned, runs⟩ | ⟨err, rfl, failed⟩
    · obtain ⟨given, same, _, steps⟩ := requestCleanup_steps coherent cleaned
      cases same
      simp only [getCore_bind, setCore_bind, Proc.runs_pure] at runs
      obtain ⟨rfl, rfl⟩ := runs
      refine ⟨_, rfl, ?_⟩
      rw [if_pos due]
      exact ⟨between, _, steps, rfl⟩
    · obtain ⟨_, impossible, _⟩ := requestCleanup_steps coherent failed
      cases impossible
  · rename_i waits
    obtain ⟨terminals, rfl, steps⟩ := tickInner_steps coherent runs
    refine ⟨terminals, rfl, ?_⟩
    rw [if_neg waits]
    exact steps

theorem tickInteractive_maintains (coherent : Coherent world.core)
    {idle : Bool} {output : Except CoreError (List TerminalFrame)}
    (runs : (tickInteractive timing idle).Runs world output after) :
    ∃ terminals, output = .ok terminals ∧
      CoreSteps (Maintains world.panel) world [] terminals after := by
  obtain ⟨terminals, rfl, steps⟩ := tickInteractive_steps coherent runs
  refine ⟨terminals, rfl, ?_⟩
  split at steps
  · obtain ⟨middle, failure, steps, rfl⟩ := steps
    have armed : CoreSteps (Maintains world.panel) world [] terminals middle :=
      .cons (.inl rfl) (.adjust .armed)
        (steps.mono fun _ _ => Presents.maintains)
    simpa [Action.accepted] using
      armed.append (.single _ (.inl rfl) (.adjust .noted))
  · exact steps.mono fun _ _ => Presents.maintains

/-- The world after a pending frame was presented. -/
def flushed (timing : Timing) (world : World) : World :=
  if world.core.pending.isSome then
    match tickInner timing true world with
    | .ok _ after => after
    | .error _ after => after
    | .panic => world
  else world

/-- The terminal frames of a pending frame that is presented. -/
def flushTerminals (timing : Timing) (world : World) : List TerminalFrame :=
  if world.core.pending.isSome then
    match tickInner timing true world with
    | .ok terminals _ => terminals
    | .error _ _ | .panic => []
  else []

theorem flushTerminals_eq {terminals : List TerminalFrame}
    (isPending : world.core.pending.isSome = true)
    (runs : (tickInner timing true).Runs world (.ok terminals) after) :
    flushTerminals timing world = terminals := by
  unfold Proc.Runs at runs
  rw [flushTerminals, if_pos isPending, runs]

theorem flushed_eq {output : Except CoreError (List TerminalFrame)}
    (isPending : world.core.pending.isSome = true)
    (runs : (tickInner timing true).Runs world output after) :
    flushed timing world = after := by
  unfold Proc.Runs at runs
  rw [flushed, if_pos isPending, runs]
  cases output <;> rfl

/-- Presenting a plane first presents a pending frame and then draws. -/
theorem presentPlane_runs (coherent : Coherent world.core)
    {intent : FrameIntent} {output : Except CoreError (List TerminalFrame)}
    (runs : (presentPlane timing intent).Runs world output after) :
    ∃ terminals drawn,
      ((world.core.pending = none ∧ terminals = [] ∧
          flushed timing world = world) ∨
        ∃ terminal, terminals = [terminal] ∧
          FrameStep timing world terminal (flushed timing world)) ∧
      PlaneStep timing intent (flushed timing world) drawn after ∧
      terminals = flushTerminals timing world ∧
      output = drawn.map fun _ => terminals := by
  simp only [presentPlane, getCore_bind] at runs
  have draws {between : World} {terminals : List TerminalFrame}
      (betweenCoherent : Coherent between.core)
      (runs : (do
        drawPlane timing intent
        pure terminals : CoreProc (List TerminalFrame)).Runs between output
          after) :
      ∃ drawn, PlaneStep timing intent between drawn after ∧
        output = drawn.map fun _ => terminals := by
    rw [Proc.runs_bind] at runs
    rcases runs with ⟨_, _, drawn, rest⟩ | ⟨err, rfl, failed⟩
    · obtain ⟨rfl, rfl⟩ := Proc.runs_pure.mp rest
      exact ⟨_, drawPlane_runs betweenCoherent drawn, rfl⟩
    · exact ⟨_, drawPlane_runs betweenCoherent failed, rfl⟩
  split at runs
  · rename_i isPending
    rw [Proc.runs_bind] at runs
    rcases runs with ⟨terminals, between, ticked, runs⟩ | ⟨err, rfl, failed⟩
    · rw [flushed_eq isPending ticked]
      rcases tickInner_runs coherent ticked with
        ⟨_, _, none | ⟨impossible, _⟩⟩ | ⟨terminal, same, step⟩
      · rw [none] at isPending
        cases isPending
      · cases impossible
      · cases same
        obtain ⟨drawn, plane, same⟩ := draws (step.coherent coherent) runs
        exact ⟨_, drawn, .inr ⟨terminal, rfl, step⟩, plane,
          (flushTerminals_eq isPending ticked).symm, same⟩
    · obtain ⟨_, impossible, _⟩ := tickInner_steps coherent failed
      cases impossible
  · rename_i idle
    have none : world.core.pending = none := by simpa using idle
    have same : flushed timing world = world := by
      rw [flushed, if_neg idle]
    rw [same]
    obtain ⟨drawn, plane, same⟩ := draws coherent runs
    exact ⟨[], drawn, .inl ⟨none, rfl, rfl⟩, plane,
      by rw [flushTerminals, if_neg idle], same⟩

namespace CoreOp

/-- What an operation draws, and the world it draws in. -/
def drawing : CoreOp → World → Option (FrameIntent × World)
  | .presentOverlay timing, world => some (.settled, flushed timing world)
  | .presentInk timing, world => some (.latest, flushed timing world)
  | _, _ => none

/-- The atomic steps an operation started in `world` may take. -/
def Takes (op : CoreOp) (world current : World) : Action → Prop
  | .commit frame => current = world ∧ ∃ contentClass timing decodeUs,
      op = .commit frame contentClass timing decodeUs
  | .cancel => current = world ∧ op = .cancelPending
  | .freeze => current = world ∧ op = .freezePresented
  | .edit plane change => current = world ∧ op = .edit plane change
  | .draw intent => op.drawing world = some (intent, current) ∧
      current.core.pending = none
  | .present => current.panel = world.panel
  | .adjust | .resubmit => True

/-- The frame an operation accepts. -/
def accepted : CoreOp → Except CoreError CoreReply → List ValidatedFrame
  | .commit frame _ _ _, .ok _ => [frame]
  | _, _ => []

/-- The terminal frames of what an operation settles.  An error drops that of
the frame that was flushed. -/
def settled : CoreOp → World → Except CoreError CoreReply → List TerminalFrame
  | _, _, .ok reply => reply.terminalFrames
  | .presentOverlay timing, world, .error _
  | .presentInk timing, world, .error _ => flushTerminals timing world
  | _, _, .error _ => []

@[simp] theorem settled_ok (op : CoreOp) (world : World) (reply : CoreReply) :
    op.settled world (.ok reply) = reply.terminalFrames := by
  cases op <;> rfl

end CoreOp

/-- The terminal frames of what an operation settles, with those that it
drops. -/
def CoreEvent.settled (event : CoreEvent) : List TerminalFrame :=
  event.input.settled event.before event.output

theorem Maintains.takes {op : CoreOp} {world : World} {current : World}
    {action : Action} (maintains : Maintains world.panel current action) :
    op.Takes world current action := by
  rcases maintains with rfl | ⟨rfl, same⟩ | rfl
  · trivial
  · exact same
  · trivial

/-- A function on the core alone returns, or changes nothing. -/
theorem onCore_runs {α : Type} {reply : α → CoreReply}
    {operation : DisplayCore → Res CoreError (α × DisplayCore)}
    {output : Except CoreError CoreReply}
    (runs : (onCore reply operation).Runs world output after) :
    (∃ value next, operation world.core = .ok (value, next) ∧
      output = .ok (reply value) ∧ after = ⟨next, world.panel⟩) ∨
    ∃ err, operation world.core = .error err ∧ output = .error err ∧
      after = world := by
  simp only [onCore, getCore_bind] at runs
  rw [Proc.runs_bind] at runs
  rcases runs with ⟨⟨value, next⟩, between, computed, runs⟩ |
    ⟨err, rfl, failed⟩
  · rw [Proc.runs_ofRes] at computed
    obtain ⟨rfl, ⟨_, returned, same⟩ | ⟨_, _, impossible⟩⟩ := computed
    · cases same
      simp only [setCore_bind, Proc.runs_pure] at runs
      exact .inl ⟨value, next, returned, runs.1, runs.2⟩
    · cases impossible
  · rw [Proc.runs_ofRes] at failed
    obtain ⟨rfl, ⟨_, _, impossible⟩ | ⟨_, fails, same⟩⟩ := failed
    · cases impossible
    · cases same
      exact .inr ⟨_, fails, rfl, rfl⟩

/-- What an operation's steps have to do with what it returns.  Terminals are
lost only by an error of a plane drawn after a flush. -/
structure Accounts (op : CoreOp) (world : World)
    (output : Except CoreError CoreReply) (after : World) : Prop where
  steps : ∃ terminals,
    CoreSteps (op.Takes world) world (op.accepted output) terminals after ∧
      (∀ reply, output = .ok reply → terminals = reply.terminalFrames) ∧
      (∀ err, output = .error err → terminals ≠ [] →
        world.core.pending.isSome = true ∧ (op.drawing world).isSome = true) ∧
      (world.core.pending.isSome = true → (op.drawing world).isSome = true →
        terminals ≠ []) ∧
      terminals = op.settled world output
  draws : ∀ drawing ∈ op.drawing world, ∃ timing drawn,
    (world.core.pending = none ∧ drawing.2 = world ∨
      ∃ terminal, FrameStep timing world terminal drawing.2) ∧
      PlaneStep timing drawing.1 drawing.2 drawn after ∧
      ((∃ err, drawn = .error err) ↔ ∃ err, output = .error err)

private theorem accounts_unchanged {op : CoreOp} {err : CoreError}
    (none : op.accepted (.error err) = []) (noPlane : op.drawing world = .none)
    (noTerminal : op.settled world (.error err) = []) :
    Accounts op world (.error err) world where
  steps := ⟨[], by rw [none]; exact .nil, by simp, by simp, by simp [noPlane],
    noTerminal.symm⟩
  draws := by simp [noPlane]

private theorem accounts_steps {op : CoreOp} {reply : CoreReply}
    (noPlane : op.drawing world = none)
    (steps : CoreSteps (op.Takes world) world (op.accepted (.ok reply))
      reply.terminalFrames after) :
    Accounts op world (.ok reply) after where
  steps := ⟨_, steps, by simp, by simp, by simp [noPlane], by simp⟩
  draws := by simp [noPlane]

private theorem accounts_step {op : CoreOp} (action : Action)
    {reply : CoreReply} (noPlane : op.drawing world = none)
    (takes : op.Takes world world action)
    (accepted : op.accepted (.ok reply) = action.accepted)
    (step : CoreStep world action reply.terminalFrames after) :
    Accounts op world (.ok reply) after :=
  accounts_steps noPlane (by rw [accepted]; exact .single action takes step)

private theorem accounts_maintenance {op : CoreOp} {reply : CoreReply}
    (noPlane : op.drawing world = none)
    (accepted : op.accepted (.ok reply) = [])
    (steps : CoreSteps (Maintains world.panel) world []
      reply.terminalFrames after) :
    Accounts op world (.ok reply) after :=
  accounts_steps noPlane
    (by rw [accepted]; exact steps.mono fun _ _ => Maintains.takes)

private theorem accounts_maintained {α : Type} {proc : CoreProc α} {op : CoreOp}
    {reply : α → CoreReply} {output : Except CoreError CoreReply}
    (noPlane : op.drawing world = none)
    (accepted : ∀ value, op.accepted (.ok (reply value)) = [])
    (maintains : ∀ {output : Except CoreError α},
      proc.Runs world output after →
      ∃ value, output = .ok value ∧ CoreSteps (Maintains world.panel) world []
        (reply value).terminalFrames after)
    (runs : (reply <$> proc).Runs world output after) :
    Accounts op world output after := by
  rcases Proc.runs_map.mp runs with ⟨value, ran, rfl⟩ | ⟨err, rfl, failed⟩
  · obtain ⟨_, same, steps⟩ := maintains ran
    cases same
    exact accounts_maintenance noPlane (accepted value) steps
  · obtain ⟨_, impossible, _⟩ := maintains failed
    cases impossible

private theorem accounts_onCore {α : Type} {op : CoreOp} {reply : α → CoreReply}
    {change : DisplayCore → Res CoreError (α × DisplayCore)}
    {output : Except CoreError CoreReply} (action : Action)
    (noPlane : op.drawing world = none)
    (takes : op.Takes world world action)
    (accepted : ∀ value, op.accepted (.ok (reply value)) = action.accepted)
    (refused : ∀ err, op.accepted (.error err) = [] ∧
      op.settled world (.error err) = [])
    (does : ∀ value next, change world.core = .ok (value, next) →
      CoreStep world action (reply value).terminalFrames
        { world with core := next })
    (runs : (onCore reply change).Runs world output after) :
    Accounts op world output after := by
  rcases onCore_runs runs with ⟨value, next, changes, rfl, rfl⟩ |
    ⟨err, _, rfl, rfl⟩
  · exact accounts_step action noPlane takes (accepted value)
      (does value next changes)
  · exact accounts_unchanged (refused err).1 noPlane (refused err).2

private theorem accounts_plane (coherent : Coherent world.core) {op : CoreOp}
    {intent : FrameIntent}
    {output : Except CoreError (List TerminalFrame)}
    (drawing : op.drawing world = some (intent, flushed timing world))
    (accepted : ∀ reply, op.accepted reply = [])
    (settles : ∀ err, op.settled world (.error err) =
      flushTerminals timing world)
    (runs : (presentPlane timing intent).Runs world output after) :
    Accounts op world (output.map .ticked) after := by
  obtain ⟨terminals, drawn, flush, plane, isFlush, rfl⟩ :=
    presentPlane_runs coherent runs
  have idle : (flushed timing world).core.pending = none := by
    rcases flush with ⟨idle, _, same⟩ | ⟨_, _, step⟩
    · rw [same]
      exact idle
    · exact step.idle
  have drawStep : CoreSteps (op.Takes world) (flushed timing world) [] []
      after := .single (.draw intent) ⟨drawing, idle⟩ (.draw plane)
  have steps : CoreSteps (op.Takes world) world [] terminals after := by
    rcases flush with ⟨_, rfl, same⟩ | ⟨terminal, rfl, step⟩
    · rw [same] at drawStep
      exact drawStep
    · have presents : CoreSteps (op.Takes world) world [] [terminal]
          (flushed timing world) := .single .present rfl (.present step)
      exact presents.append drawStep
  refine ⟨⟨terminals, by rw [accepted]; exact steps, ?_, ?_, ?_, ?_⟩, ?_⟩
  · cases drawn with
    | ok _ =>
        rintro reply same
        cases same
        rfl
    | error _ =>
        rintro _ impossible
        cases impossible
  · rcases flush with ⟨_, rfl, _⟩ | ⟨terminal, _, step⟩
    · intro _ _ impossible
      exact absurd rfl impossible
    · exact fun _ _ _ => ⟨step.isPending, by rw [drawing]; rfl⟩
  · rcases flush with ⟨none, _, _⟩ | ⟨terminal, rfl, _⟩
    · simp [none]
    · simp
  · cases drawn with
    | ok _ => exact (CoreOp.settled_ok op world (.ticked terminals)).symm
    | error err => exact isFlush.trans (settles err).symm
  · intro other same
    rw [drawing] at same
    cases same
    refine ⟨timing, drawn, flush.imp (fun none => ⟨none.1, none.2.2⟩)
      (fun ⟨terminal, _, step⟩ => ⟨terminal, step⟩), plane, ?_⟩
    cases drawn with
    | ok _ => exact ⟨fun ⟨_, missing⟩ => (by cases missing),
        fun ⟨_, missing⟩ => (by cases missing)⟩
    | error err => exact ⟨fun _ => ⟨err, rfl⟩, fun _ => ⟨err, rfl⟩⟩

/-- Every operation of a coherent core is a sequence of atomic steps. -/
theorem accounts_of_coreStep (coherent : Coherent world.core) {op : CoreOp}
    {output : Except CoreError CoreReply}
    (runs : coreStep world op output after) :
    Accounts op world output after := by
  cases op with
  | commit frame contentClass timing decodeUs =>
      refine accounts_onCore (.commit frame) rfl ⟨rfl, _, _, _, rfl⟩
        (fun _ => rfl) (fun _ => ⟨rfl, rfl⟩) ?_ runs
      intro report next commits
      exact .commit commits
  | tick timing | tickInteractive timing idle =>
      exact accounts_maintained rfl (fun _ => rfl)
        (tickInteractive_maintains coherent) runs
  | tickWithoutIdleCleanup timing =>
      refine accounts_maintained rfl (fun _ => rfl) ?_ runs
      intro output ticked
      obtain ⟨terminals, same, steps⟩ := tickInner_steps coherent ticked
      exact ⟨terminals, same, steps.mono fun _ _ => Presents.maintains⟩
  | presentOverlay timing | presentInk timing =>
      rcases Proc.runs_map.mp runs with ⟨terminals, presented, rfl⟩ |
        ⟨err, rfl, failed⟩
      · exact accounts_plane coherent rfl (fun _ => rfl) (fun _ => rfl) presented
      · exact accounts_plane coherent rfl (fun _ => rfl) (fun _ => rfl) failed
  | requestCleanup timing =>
      exact accounts_maintained rfl (fun _ => rfl)
        (requestCleanup_maintains coherent) runs
  | changeRefreshProfile config timing =>
      rcases Proc.runs_map.mp runs with ⟨change, changed, rfl⟩ |
        ⟨err, rfl, failed⟩
      · rcases changeRefreshProfile_maintains coherent changed with
          ⟨_, same, steps⟩ | ⟨⟨_, impossible⟩, _⟩
        · cases same
          exact accounts_maintenance rfl rfl steps
        · cases impossible
      · rcases changeRefreshProfile_maintains coherent failed with
          ⟨_, impossible, _⟩ | ⟨_, rfl⟩
        · cases impossible
        · exact accounts_unchanged rfl rfl rfl
  | updateRefreshConfig config =>
      refine accounts_onCore .adjust rfl trivial (fun _ => rfl)
        (fun _ => ⟨rfl, rfl⟩) ?_ runs
      intro changed next updates
      exact .adjust (.configured updates)
  | freezePresented =>
      refine accounts_onCore .freeze rfl ⟨rfl, rfl⟩ (fun _ => rfl)
        (fun _ => ⟨rfl, rfl⟩) ?_ runs
      intro terminal next frozen
      cases frozen
      exact .freeze
  | cancelPending =>
      refine accounts_onCore .cancel rfl ⟨rfl, rfl⟩ (fun _ => rfl)
        (fun _ => ⟨rfl, rfl⟩) ?_ runs
      intro terminal next cancelled
      cases cancelled
      exact .cancel
  | requireCleanup =>
      change (onCore (fun _ : Unit => CoreReply.done) _).Runs _ _ _ at runs
      refine accounts_onCore .adjust rfl trivial (fun _ => rfl)
        (fun _ => ⟨rfl, rfl⟩) ?_ runs
      intro _ next armed
      cases armed
      exact .adjust .armed
  | restoreRefreshDebt debt =>
      change (onCore (fun _ : Unit => CoreReply.done) _).Runs _ _ _ at runs
      refine accounts_onCore .adjust rfl trivial (fun _ => rfl)
        (fun _ => ⟨rfl, rfl⟩) ?_ runs
      intro _ next restores
      obtain ⟨restored, restores, same⟩ := Res.bind_eq_ok.mp restores
      cases same
      exact .adjust (.restored restores)
  | setInkWaveform waveform =>
      change (onCore (fun _ : Unit => CoreReply.done) _).Runs _ _ _ at runs
      refine accounts_onCore .adjust rfl trivial (fun _ => rfl)
        (fun _ => ⟨rfl, rfl⟩) ?_ runs
      intro _ next stored
      cases stored
      exact .adjust .waveform
  | edit plane change =>
      change (onCore (fun _ : Unit => CoreReply.done) _).Runs _ _ _ at runs
      refine accounts_onCore (.edit plane change) rfl ⟨rfl, rfl⟩ (fun _ => rfl)
        (fun _ => ⟨rfl, rfl⟩) ?_ runs
      intro _ next edits
      obtain ⟨edited, edits, same⟩ := Res.bind_eq_ok.mp edits
      cases same
      exact .edit (Res.mapError_eq_ok.mp edits)

end

/-- A core as it is created: every surface blank, every plane clear, nothing
accepted. -/
structure Blank (core : DisplayCore) : Prop where
  presented : core.presented = core.base
  working : core.working = core.base
  presentedBase : core.presentedBase = core.base
  overlay : core.overlay.transparent = true
  peer : core.peerOverlay.transparent = true
  ink : core.ink.transparent = true
  clean : core.ink.dirty = none
  ids : core.logicalFrameId = 0 ∧ core.presentedFrameId = 0
  idle : core.pending = none
  certain : core.panelStateUncertain = false
  disarmed : core.forceCleanupNext = false
  settled : core.settleDamage = [] ∧ core.fastUpdatesSinceSettled = 0

theorem newCore_spec {setup : CoreSetup} {first : DisplayCore}
    (fresh : setup.newCore = .ok first) :
    Coherent first ∧ Blank first ∧ first.baseValid = false ∧
      (first.width = setup.width ∧ first.height = setup.height) ∧
      first.base.format = setup.pixelFormat := by
  unfold CoreSetup.newCore newWithFormat at fresh
  obtain ⟨policy, created, fresh⟩ := Res.bind_eq_ok.mp fresh
  obtain ⟨surface, blank, fresh⟩ := Res.bind_eq_ok.mp fresh
  obtain ⟨plane, clear, fresh⟩ := Res.bind_eq_ok.mp fresh
  rw [Res.mapError_eq_ok] at created blank clear
  cases fresh
  obtain ⟨_, valid, _⟩ := Res.bind_eq_ok.mp created
  obtain ⟨len, sized, clear⟩ := Res.bind_eq_ok.mp clear
  cases clear
  obtain ⟨_, rfl, _⟩ := pixelLen_eq_ok.mp sized
  obtain ⟨sizes, sameFormat⟩ := PixelSurface.newWithFormat_eq_ok blank
  have planeLen : (List.replicate (setup.width * setup.height)
      (0 : UInt8)).length = surface.width * surface.height := by
    rw [List.length_replicate, sizes.1, sizes.2]
  exact ⟨⟨planeLen, planeLen, planeLen, rfl, rfl, rfl,
      fun _ missing => (by cases missing), fun _ missing => (by cases missing),
      RefreshPolicyConfig.validate_eq_ok valid,
      fun _ missing => (by cases missing)⟩,
    ⟨rfl, rfl, rfl, rfl, rfl, rfl, rfl, ⟨rfl, rfl⟩, rfl, rfl, rfl, rfl, rfl⟩,
    rfl, sizes, sameFormat⟩

theorem CoreRun.coherent {setup : CoreSetup} {history : List CoreEvent}
    {final : World} (run : CoreRun setup history final) :
    Coherent final.core := by
  obtain ⟨first, fresh, run⟩ := run
  refine Run.keeps (fun _ world => Coherent world.core) (newCore_spec fresh).1
    ?_ run fun _ _ => True.intro
  rintro history event - stepped coherent
  obtain ⟨_, steps, _⟩ := (accounts_of_coreStep coherent stepped).steps
  exact steps.keeps (fun world => Coherent world.core)
    (fun _ step coherent => step.coherent coherent) coherent

theorem CoreRun.shape_eq {setup : CoreSetup} {history : List CoreEvent}
    {final : World} (run : CoreRun setup history final) :
    final.core.base.shape = ((setup.width, setup.height), setup.pixelFormat) := by
  obtain ⟨first, fresh, run⟩ := run
  obtain ⟨coherent, _, _, ⟨sameWidth, sameHeight⟩, sameFormat⟩ :=
    newCore_spec fresh
  have always : ∀ event ∈ history, (fun _ : CoreEvent => True) event :=
    fun _ _ => trivial
  refine (Run.keeps (fun _ world => Coherent world.core ∧
    world.core.base.shape = ((setup.width, setup.height), setup.pixelFormat))
    ⟨coherent, ?_⟩ ?_ run always).2
  · rw [← sameWidth, ← sameHeight, ← sameFormat]
    rfl
  · rintro history event _ stepped ⟨coherent, shape⟩
    obtain ⟨_, steps, _⟩ := (accounts_of_coreStep coherent stepped).steps
    refine steps.keeps (fun world => Coherent world.core ∧
      world.core.base.shape = ((setup.width, setup.height), setup.pixelFormat))
      ?_ ⟨coherent, shape⟩
    rintro world next action given _ step ⟨coherent, shape⟩
    exact ⟨step.coherent coherent, (step.shape_eq coherent).trans shape⟩

theorem CoreRun.pixels_le {setup : CoreSetup} {history : List CoreEvent}
    {final : World} (run : CoreRun setup history final)
    (bounded : setup.width * setup.height < 2 ^ 32) :
    final.core.width * final.core.height ≤ u32Max := by
  have sameWidth := congrArg (·.1.1) run.shape_eq
  have sameHeight := congrArg (·.1.2) run.shape_eq
  change final.core.width = setup.width at sameWidth
  change final.core.height = setup.height at sameHeight
  rw [sameWidth, sameHeight]
  exact Nat.le_pred_of_lt bounded

end RmDisplay.Core
