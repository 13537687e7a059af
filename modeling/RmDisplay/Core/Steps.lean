import RmDisplay.Core.Composition

/-!
# The atomic steps of the core

Every operation is a short sequence of atomic steps: a frame is presented, a
plane is drawn, the presented image is resubmitted, or the core changes without
the panel.  The relations below say everything such a step can do; what holds
in every run is proved once for each of them.
-/

namespace RmDisplay.Core

open Foundation Protocol DisplayCore Foundation.Picture

/-- The settle debt after a submission that adds to it. -/
def AddsDebt (core : DisplayCore) (damage : List Rect) (submissions : Nat)
    (settleDamage : List Rect) (fastUpdates : Nat) : Prop :=
  mergeTiledDamage core.width core.height core.damageTile core.settleDamage
      damage = .ok settleDamage ∧
    fastUpdates = Bounded.saturatingAdd u32Max core.fastUpdatesSinceSettled
      submissions

/-- The settle debt after a presented frame. -/
inductive FrameDebt (core : DisplayCore) (pending : PendingPresentation)
    (prepared : Prepared) (submissions : Nat) : List Rect → Nat → Prop where
  | cleared
      (clears : prepared.decision.completeRefresh = true ∨
        pending.intent = .settled) :
      FrameDebt core pending prepared submissions [] 0
  | added {settleDamage : List Rect} {fastUpdates : Nat}
      (adds : prepared.decision.completeRefresh = false ∧
        pending.intent ≠ .settled)
      (fast : prepared.decision.waveform = .fastest ∨
        prepared.decision.waveform = .fast)
      (debt : AddsDebt core prepared.damage submissions settleDamage
        fastUpdates) :
      FrameDebt core pending prepared submissions settleDamage fastUpdates
  | kept
      (keeps : prepared.decision.completeRefresh = false ∧
        pending.intent ≠ .settled)
      (slow : prepared.decision.waveform ≠ .fastest ∧
        prepared.decision.waveform ≠ .fast) :
      FrameDebt core pending prepared submissions core.settleDamage
        core.fastUpdatesSinceSettled

/-- The settle debt after a presented plane. -/
inductive PlaneDebt (core : DisplayCore) (damage : List Rect)
    (decision : RefreshDecision) (submissions : Nat) :
    List Rect → Nat → Prop where
  | cleared
      (clears : decision.completeRefresh = true ∨
        decision.waveform ≠ .fastest) :
      PlaneDebt core damage decision submissions [] 0
  | added {settleDamage : List Rect} {fastUpdates : Nat}
      (adds : decision.completeRefresh = false ∧ decision.waveform = .fastest)
      (debt : AddsDebt core damage submissions settleDamage fastUpdates) :
      PlaneDebt core damage decision submissions settleDamage fastUpdates

namespace DisplayCore

/-- A core after an accepted submission. -/
def submitted (core : DisplayCore) (decision : RefreshDecision)
    (damage : List Rect) (now : Duration) (submissions : Nat)
    (settleDamage : List Rect) (fastUpdates : Nat) : DisplayCore :=
  { core.recordPanelDamage decision damage now with
    lastPresentAt := some now
    panelStateUncertain := false
    refreshPolicy :=
      core.refreshPolicy.presentedSubmissions decision submissions
    forceCleanupNext := !decision.completeRefresh && core.forceCleanupNext
    settleDamage
    fastUpdatesSinceSettled := fastUpdates }

theorem addSettleDebt_eq_ok {core next : DisplayCore} {damage : List Rect}
    {submissions : Nat}
    (added : core.addSettleDebt damage submissions = .ok next) :
    ∃ settleDamage fastUpdates,
      AddsDebt core damage submissions settleDamage fastUpdates ∧
      next = { core with
        settleDamage, fastUpdatesSinceSettled := fastUpdates } := by
  obtain ⟨settleDamage, merged, stored⟩ := Res.bind_eq_ok.mp added
  cases stored
  exact ⟨settleDamage, _, ⟨Res.mapError_eq_ok.mp merged, rfl⟩, rfl⟩

theorem recordPanelDamage_fields (core : DisplayCore)
    (decision : RefreshDecision) (damage : List Rect) (now : Duration) :
    ∃ pixels lastPartial, core.recordPanelDamage decision damage now =
      { core with
        partialDamagePixelsSinceCleanup := pixels
        lastPartialAt := lastPartial } := by
  unfold recordPanelDamage
  split
  · exact ⟨_, _, rfl⟩
  · exact ⟨_, _, rfl⟩

/-- The core after the panel accepted a frame. -/
theorem presentAccepted_eq_ok {core next : DisplayCore}
    {pending : PendingPresentation} {prepared : Prepared} {submissions : Nat}
    {now : Duration}
    (presents : core.presentAccepted pending prepared submissions now =
      .ok next) :
    ∃ working settleDamage fastUpdates,
      core.presented.copyRegionsFrom prepared.working prepared.damage =
        .ok working ∧
      FrameDebt core pending prepared submissions settleDamage fastUpdates ∧
      next = { core.submitted prepared.decision prepared.damage now submissions
          settleDamage fastUpdates with
        pending := none
        presented := prepared.working
        working
        presentedFrameId := pending.frameId
        presentedBase := core.base } := by
  unfold presentAccepted at presents
  obtain ⟨pixels, lastPartial, recorded⟩ := recordPanelDamage_fields core
    prepared.decision prepared.damage now
  simp only [recorded] at presents
  obtain ⟨working, copied, presents⟩ := Res.bind_eq_ok.mp presents
  obtain ⟨settled, debt, finished⟩ := Res.bind_eq_ok.mp presents
  rw [Res.mapError_eq_ok] at copied
  cases finished
  unfold settleFrameDebt at debt
  simp only [submitted, recorded, disarmCleanup]
  split at debt
  · rename_i clears
    cases debt
    refine ⟨working, [], 0, copied, .cleared (by simpa using clears), ?_⟩
    cases prepared.decision.completeRefresh <;> rfl
  · rename_i adds
    rw [Bool.or_eq_true, not_or, Bool.not_eq_true, beq_iff_eq] at adds
    split at debt
    · rename_i fastest
      obtain ⟨settleDamage, fastUpdates, added, rfl⟩ :=
        addSettleDebt_eq_ok debt
      exact ⟨working, settleDamage, fastUpdates, copied,
        .added adds (.inl fastest) added, by simp [adds.1]⟩
    · rename_i fast
      obtain ⟨settleDamage, fastUpdates, added, rfl⟩ :=
        addSettleDebt_eq_ok debt
      exact ⟨working, settleDamage, fastUpdates, copied,
        .added adds (.inr fast) added, by simp [adds.1]⟩
    · rename_i slow
      cases debt
      exact ⟨working, _, _, copied, .kept adds (by simp [slow]),
        by simp [adds.1]⟩
    · rename_i slow
      cases debt
      exact ⟨working, _, _, copied, .kept adds (by simp [slow]),
        by simp [adds.1]⟩

/-- The core after the panel accepted a plane. -/
theorem planeAccepted_eq_ok {core next : DisplayCore} {damage : List Rect}
    {decision : RefreshDecision} {submissions : Nat} {now : Duration}
    (presents : core.planeAccepted damage decision submissions now =
      .ok next) :
    ∃ presented settleDamage fastUpdates,
      core.presented.copyRegionsFrom core.working damage = .ok presented ∧
      PlaneDebt core damage decision submissions settleDamage fastUpdates ∧
      next = { core.submitted decision damage now submissions settleDamage
          fastUpdates with
        presented } := by
  unfold planeAccepted at presents
  obtain ⟨pixels, lastPartial, recorded⟩ := recordPanelDamage_fields core
    decision damage now
  simp only [recorded] at presents
  obtain ⟨presented, copied, debt⟩ := Res.bind_eq_ok.mp presents
  rw [Res.mapError_eq_ok] at copied
  simp only [submitted, recorded, disarmCleanup] at debt ⊢
  split at debt
  · rename_i clears
    cases debt
    rw [Bool.or_eq_true, bne_iff_ne] at clears
    refine ⟨presented, [], 0, copied, .cleared clears, ?_⟩
    cases decision.completeRefresh <;> rfl
  · rename_i adds
    rw [Bool.or_eq_true, not_or, Bool.not_eq_true, bne_iff_ne, not_not] at adds
    simp only [adds.1] at debt ⊢
    obtain ⟨settleDamage, fastUpdates, added, rfl⟩ := addSettleDebt_eq_ok debt
    exact ⟨presented, settleDamage, fastUpdates, copied, .added adds added, rfl⟩

private theorem addSettleDebt_ensures {core : DisplayCore}
    {damage : List Rect} {submissions : Nat}
    (debtInside : ∀ rect ∈ core.settleDamage,
      rect.Inside core.width core.height)
    (damageInside : ∀ rect ∈ damage, rect.Inside core.width core.height) :
    (core.addSettleDebt damage submissions).Ensures fun _ => True :=
  Res.Ensures.bind _ (Res.Ensures.mapError
    (mergeTiledDamage_spec _ debtInside damageInside)) fun _ _ => trivial

theorem presentAccepted_ensures {core : DisplayCore} (coherent : Coherent core)
    {pending : PendingPresentation} {prepared : Prepared}
    (prepares : core.Prepares pending prepared) (submissions : Nat)
    (now : Duration) :
    (core.presentAccepted pending prepared submissions now).Ensures
      fun _ => True := by
  obtain ⟨⟨sameWidth, sameHeight⟩, _⟩ :=
    PixelSurface.shape_eq_iff.mp coherent.presentedShape
  have copies := PixelSurface.copyRegionsFrom_spec prepared.damage
    (coherent.presentedShape.trans prepares.shape.symm)
    (by rw [sameWidth, sameHeight]; exact prepares.inside)
  obtain ⟨pixels, lastPartial, recorded⟩ := recordPanelDamage_fields core
    prepared.decision prepared.damage now
  unfold presentAccepted
  simp only [recorded]
  refine Res.Ensures.bind _
    (Res.Ensures.mapError (Res.Ensures.of_returns copies)) ?_
  intro working _
  refine Res.Ensures.bind (fun _ => True) ?_ fun _ _ => trivial
  unfold settleFrameDebt
  split
  · trivial
  · split
    · exact addSettleDebt_ensures coherent.debt prepares.inside
    · exact addSettleDebt_ensures coherent.debt prepares.inside
    · trivial
    · trivial

theorem planeAccepted_ensures {core : DisplayCore} (coherent : Coherent core)
    {damage : List Rect}
    (inside : ∀ rect ∈ damage, rect.Inside core.width core.height)
    (decision : RefreshDecision) (submissions : Nat) (now : Duration) :
    (core.planeAccepted damage decision submissions now).Ensures
      fun _ => True := by
  obtain ⟨⟨sameWidth, sameHeight⟩, _⟩ :=
    PixelSurface.shape_eq_iff.mp coherent.presentedShape
  have copies := PixelSurface.copyRegionsFrom_spec damage
    (coherent.presentedShape.trans coherent.workingShape.symm)
    (by rw [sameWidth, sameHeight]; exact inside)
  obtain ⟨pixels, lastPartial, recorded⟩ := recordPanelDamage_fields core
    decision damage now
  unfold planeAccepted
  simp only [recorded]
  refine Res.Ensures.bind _
    (Res.Ensures.mapError (Res.Ensures.of_returns copies)) ?_
  intro presented _
  split
  · trivial
  · unfold disarmCleanup
    split
    · exact addSettleDebt_ensures coherent.debt inside
    · exact addSettleDebt_ensures coherent.debt inside

end DisplayCore

namespace DisplayCore

section

variable (core : DisplayCore) (decision : RefreshDecision) (damage : List Rect)
  (now : Duration) (submissions : Nat) (settleDamage : List Rect)
  (fastUpdates : Nat)

/-- An accepted submission leaves everything but the refresh state. -/
theorem submitted_eq :
    ∃ pixels lastPartial,
      core.submitted decision damage now submissions settleDamage fastUpdates =
        { core with
          lastPresentAt := some now
          panelStateUncertain := false
          refreshPolicy :=
            core.refreshPolicy.presentedSubmissions decision submissions
          forceCleanupNext := !decision.completeRefresh && core.forceCleanupNext
          settleDamage
          fastUpdatesSinceSettled := fastUpdates
          partialDamagePixelsSinceCleanup := pixels
          lastPartialAt := lastPartial } := by
  unfold submitted recordPanelDamage
  split
  · exact ⟨_, _, rfl⟩
  · exact ⟨_, _, rfl⟩

@[simp] theorem base_submitted :
    (core.submitted decision damage now submissions settleDamage
      fastUpdates).base = core.base := by
  obtain ⟨_, _, same⟩ := submitted_eq core decision damage now submissions
    settleDamage fastUpdates
  rw [same]

@[simp] theorem overlay_submitted :
    (core.submitted decision damage now submissions settleDamage
      fastUpdates).overlay = core.overlay := by
  obtain ⟨_, _, same⟩ := submitted_eq core decision damage now submissions
    settleDamage fastUpdates
  rw [same]

@[simp] theorem peerOverlay_submitted :
    (core.submitted decision damage now submissions settleDamage
      fastUpdates).peerOverlay = core.peerOverlay := by
  obtain ⟨_, _, same⟩ := submitted_eq core decision damage now submissions
    settleDamage fastUpdates
  rw [same]

@[simp] theorem ink_submitted :
    (core.submitted decision damage now submissions settleDamage
      fastUpdates).ink = core.ink := by
  obtain ⟨_, _, same⟩ := submitted_eq core decision damage now submissions
    settleDamage fastUpdates
  rw [same]

@[simp] theorem presentedBase_submitted :
    (core.submitted decision damage now submissions settleDamage
      fastUpdates).presentedBase = core.presentedBase := by
  obtain ⟨_, _, same⟩ := submitted_eq core decision damage now submissions
    settleDamage fastUpdates
  rw [same]

@[simp] theorem working_submitted :
    (core.submitted decision damage now submissions settleDamage
      fastUpdates).working = core.working := by
  obtain ⟨_, _, same⟩ := submitted_eq core decision damage now submissions
    settleDamage fastUpdates
  rw [same]

@[simp] theorem logicalFrameId_submitted :
    (core.submitted decision damage now submissions settleDamage
      fastUpdates).logicalFrameId = core.logicalFrameId := by
  obtain ⟨_, _, same⟩ := submitted_eq core decision damage now submissions
    settleDamage fastUpdates
  rw [same]

@[simp] theorem presentedFrameId_submitted :
    (core.submitted decision damage now submissions settleDamage
      fastUpdates).presentedFrameId = core.presentedFrameId := by
  obtain ⟨_, _, same⟩ := submitted_eq core decision damage now submissions
    settleDamage fastUpdates
  rw [same]

@[simp] theorem baseValid_submitted :
    (core.submitted decision damage now submissions settleDamage
      fastUpdates).baseValid = core.baseValid := by
  obtain ⟨_, _, same⟩ := submitted_eq core decision damage now submissions
    settleDamage fastUpdates
  rw [same]

@[simp] theorem pending_submitted :
    (core.submitted decision damage now submissions settleDamage
      fastUpdates).pending = core.pending := by
  obtain ⟨_, _, same⟩ := submitted_eq core decision damage now submissions
    settleDamage fastUpdates
  rw [same]

@[simp] theorem damageTile_submitted :
    (core.submitted decision damage now submissions settleDamage
      fastUpdates).damageTile = core.damageTile := by
  obtain ⟨_, _, same⟩ := submitted_eq core decision damage now submissions
    settleDamage fastUpdates
  rw [same]

@[simp] theorem refreshPolicy_submitted :
    (core.submitted decision damage now submissions settleDamage
      fastUpdates).refreshPolicy = core.refreshPolicy.presentedSubmissions decision submissions := by
  rfl

@[simp] theorem forceCleanupNext_submitted :
    (core.submitted decision damage now submissions settleDamage
      fastUpdates).forceCleanupNext = (!decision.completeRefresh && core.forceCleanupNext) := by
  rfl

end

end DisplayCore

/-- The pending frame is taken and gets its terminal result. -/
inductive FrameStep (timing : Timing) :
    World → TerminalFrame → World → Prop where
  | pumpFailed {core : DisplayCore} {panel : Panel}
      {pending : PendingPresentation}
      (isPending : core.pending = some pending)
      (failed : panel.nextPump = false) :
      FrameStep timing ⟨core, panel⟩ (pumpFailedTerminal pending timing.now)
        ⟨{ core.markPanelFailure with pending := none }, panel.afterPump⟩
  | unchanged {core : DisplayCore} {panel : Panel}
      {pending : PendingPresentation} {prepared : Prepared}
      (isPending : core.pending = some pending)
      (pumped : panel.nextPump = true)
      (prepares : core.prepareFrame pending = .ok prepared)
      (nothing : prepared.damage = []) :
      FrameStep timing ⟨core, panel⟩
        ⟨pending.frameId, .presented, frameMetrics pending prepared timing⟩
        ⟨core.presentedUnchanged pending prepared timing.now, panel.afterPump⟩
  | refused {core : DisplayCore} {panel : Panel}
      {pending : PendingPresentation} {prepared : Prepared}
      (isPending : core.pending = some pending)
      (pumped : panel.nextPump = true)
      (prepares : core.prepareFrame pending = .ok prepared)
      (damaged : prepared.damage ≠ [])
      (refuses : panel.afterPump.nextSubmit = none) :
      FrameStep timing ⟨core, panel⟩
        ⟨pending.frameId, .backendFailure, frameMetrics pending prepared timing⟩
        ⟨core.presentRefused, panel.afterPump.afterSubmit
          (.frame pending.frameId pending.intent) prepared.working
          prepared.damage prepared.decision⟩
  | accepted {core next : DisplayCore} {panel : Panel}
      {pending : PendingPresentation} {prepared : Prepared}
      {metrics : PanelSubmissionMetrics}
      (isPending : core.pending = some pending)
      (pumped : panel.nextPump = true)
      (prepares : core.prepareFrame pending = .ok prepared)
      (damaged : prepared.damage ≠ [])
      (accepts : panel.afterPump.nextSubmit = some metrics)
      (presents : core.presentAccepted pending prepared
        metrics.physicalSubmissions timing.now = .ok next) :
      FrameStep timing ⟨core, panel⟩
        ⟨pending.frameId, .presented,
          { frameMetrics pending prepared timing with
            convertUs := metrics.convertUs
            submitUs := metrics.submitUs }⟩
        ⟨next, panel.afterPump.afterSubmit
          (.frame pending.frameId pending.intent) prepared.working
          prepared.damage prepared.decision⟩

theorem FrameStep.isPending {timing : Timing} {world after : World}
    {terminal : TerminalFrame} (step : FrameStep timing world terminal after) :
    world.core.pending.isSome = true := by
  cases step with
  | pumpFailed isPending | unchanged isPending | refused isPending
  | accepted isPending => exact Option.isSome_of_eq_some isPending

/-- Afterwards nothing is pending. -/
theorem FrameStep.idle {timing : Timing} {world after : World}
    {terminal : TerminalFrame} (step : FrameStep timing world terminal after) :
    after.core.pending = none := by
  cases step with
  | pumpFailed _ _ | unchanged _ _ _ _ | refused _ _ _ _ _ => rfl
  | accepted _ _ _ _ _ presents =>
      obtain ⟨_, _, _, _, _, rfl⟩ := presentAccepted_eq_ok presents
      rfl

namespace DisplayCore

/-- The area a plane presentation redraws. -/
def planeArea (core : DisplayCore) (intent : FrameIntent) : List Rect :=
  (core.takePlaneRegions intent).1

/-- The core after the area was taken. -/
def planeTaken (core : DisplayCore) (intent : FrameIntent) : DisplayCore :=
  (core.takePlaneRegions intent).2

/-- The core with the plane redrawn, and what that changed. -/
def drawnPlane (core : DisplayCore) (intent : FrameIntent) :
    SurfaceRes (DisplayCore × List Rect) :=
  let taken := core.planeTaken intent
  if (core.planeArea intent).isEmpty then .ok (taken, [])
  else do
    let working ← taken.redrawPlanes (core.planeArea intent)
    let drawn := { taken with working }
    let damage ← drawn.planeDamage intent (core.planeArea intent)
    return (drawn, damage)

/-- The damage a drawn plane is submitted with. -/
def submittedDamage (drawn : DisplayCore) (intent : FrameIntent)
    (damage : List Rect) : List Rect :=
  RefreshPolicy.damageForDecision (drawn.planeDecision intent damage)
    drawn.width drawn.height damage

end DisplayCore

namespace DisplayCore

/-- What a drawn plane shows. -/
structure Draws (core : DisplayCore) (intent : FrameIntent)
    (drawn : DisplayCore) (damage : List Rect) : Prop where
  taken : drawn = { core.planeTaken intent with working := drawn.working }
  shape : drawn.working.shape = core.base.shape
  painted : drawn.working.picture = paint (region (core.planeArea intent))
    (core.composition core.base.picture) core.working.picture
  inside : ∀ rect ∈ damage, rect.Inside core.width core.height
  covers : ∀ p ∈ region (core.planeArea intent),
    core.presented.picture p ≠ drawn.working.picture p → p ∈ region damage
  shows : ∀ rect ∈ damage, ∃ p ∈ region [rect],
    core.presented.picture p ≠ drawn.working.picture p

/-- Taking the area only consumes the dirty rectangle of the ink. -/
theorem planeTaken_eq (core : DisplayCore) (intent : FrameIntent) :
    core.planeTaken intent = core ∨
      core.planeTaken intent = { core with ink := core.ink.takeDirty.2 } := by
  unfold planeTaken takePlaneRegions
  split
  · exact .inr rfl
  · exact .inl rfl

theorem blended_planeTaken (core : DisplayCore) (intent : FrameIntent) :
    (core.planeTaken intent).ink.blended = core.ink.blended := by
  rcases planeTaken_eq core intent with same | taken
  · rw [same]
  · rw [taken]
    exact LocalOverlay.blended_takeDirty core.ink

theorem planeTaken_frame (core : DisplayCore) (intent : FrameIntent) :
    ∃ ink, core.planeTaken intent = { core with ink } := by
  rcases planeTaken_eq core intent with same | taken
  · exact ⟨core.ink, same⟩
  · exact ⟨_, taken⟩

/-- Drawing a plane leaves everything but the ink and the working surface. -/
theorem drawnPlane_frame {core drawn : DisplayCore} {intent : FrameIntent}
    {damage : List Rect} (draws : core.drawnPlane intent = .ok (drawn, damage)) :
    ∃ ink working, drawn = { core with ink, working } := by
  obtain ⟨ink, taken⟩ := planeTaken_frame core intent
  unfold drawnPlane at draws
  rw [taken] at draws
  dsimp only at draws
  split at draws
  · cases draws
    exact ⟨ink, _, rfl⟩
  · obtain ⟨working, _, draws⟩ := Res.bind_eq_ok.mp draws
    obtain ⟨_, _, draws⟩ := Res.bind_eq_ok.mp draws
    cases draws
    exact ⟨ink, working, rfl⟩

section

variable (core : DisplayCore) (intent : FrameIntent)

@[simp] theorem base_planeTaken : (core.planeTaken intent).base = core.base := by
  rcases planeTaken_eq core intent with same | taken
  · rw [same]
  · rw [taken]

@[simp] theorem width_planeTaken :
    (core.planeTaken intent).width = core.width := by
  rw [width, base_planeTaken, width]

@[simp] theorem height_planeTaken :
    (core.planeTaken intent).height = core.height := by
  rw [height, base_planeTaken, height]

@[simp] theorem working_planeTaken :
    (core.planeTaken intent).working = core.working := by
  rcases planeTaken_eq core intent with same | taken
  · rw [same]
  · rw [taken]

@[simp] theorem presented_planeTaken :
    (core.planeTaken intent).presented = core.presented := by
  rcases planeTaken_eq core intent with same | taken
  · rw [same]
  · rw [taken]

end

@[simp] theorem composition_planeTaken (core : DisplayCore)
    (intent : FrameIntent) :
    (core.planeTaken intent).composition = core.composition := by
  rcases planeTaken_eq core intent with same | taken
  · rw [same]
  · rw [taken]
    rfl

section

variable {core : DisplayCore} (coherent : Coherent core)

include coherent

theorem coherent_planeTaken (intent : FrameIntent) :
    Coherent (core.planeTaken intent) := by
  rcases planeTaken_eq core intent with same | taken
  · rw [same]
    exact coherent
  · rw [taken]
    exact ⟨coherent.overlayLen, coherent.peerLen, coherent.inkLen,
      coherent.presentedShape, coherent.workingShape,
      coherent.presentedBaseShape, coherent.hint, coherent.debt, coherent.tile,
      fun _ missing => by cases missing⟩

theorem planeArea_cases (intent : FrameIntent) :
    core.planeArea intent = [] ∨
      ∃ rect, core.planeArea intent = [rect] ∧
        (rect.Inside core.width core.height ∨ region [rect] = ∅) := by
  unfold planeArea takePlaneRegions
  split
  · simp only [LocalOverlay.takeDirty]
    cases isDirty : core.ink.dirty with
    | none => exact .inl rfl
    | some rect =>
        refine .inr ⟨rect, rfl, ?_⟩
        obtain ⟨right, bottom⟩ := coherent.dirty rect isDirty
        by_cases isEmpty : rect.width = 0 ∨ rect.height = 0
        · right
          ext p
          simp only [mem_region, covered_singleton, Rect.Covers,
            Set.mem_empty_iff_false, iff_false]
          omega
        · exact .inl ⟨by omega, by omega, right, bottom⟩
  · exact .inr ⟨_, rfl, .inl (full_inside core _ List.mem_cons_self)⟩

omit coherent in
private theorem redrawPlanes_outside {taken : DisplayCore} {rect : Rect}
    (sameShape : taken.base.shape = taken.working.shape)
    (outside : ¬ rect.Inside taken.working.width taken.working.height) :
    taken.redrawPlanes [rect] = .error .badRegion := by
  have invalid : validateRect taken.working.width taken.working.height rect =
      .error .badRegion := by
    unfold validateRect
    rw [if_pos]
    by_contra fits
    exact outside ⟨by omega, by omega, by omega, by omega⟩
  simp [redrawPlanes, PixelSurface.copyRegionsFrom,
    PixelSurface.sameShape_iff.mpr sameShape, PixelSurface.copyRegion, invalid]

private theorem inside_of_redrawn {intent : FrameIntent} {rect : Rect}
    {working : PixelSurface}
    (redrawn : (core.planeTaken intent).redrawPlanes [rect] = .ok working) :
    rect.Inside core.width core.height := by
  have sameShape := (coherent_planeTaken coherent intent).workingShape
  obtain ⟨⟨sameWidth, sameHeight⟩, _⟩ := PixelSurface.shape_eq_iff.mp sameShape
  by_contra outside
  rw [redrawPlanes_outside sameShape.symm (by
    rw [sameWidth, sameHeight, base_planeTaken]
    exact outside)] at redrawn
  cases redrawn

/-- What was redrawn, and that its damage is found. -/
theorem redrawn_spec {intent : FrameIntent} {working : PixelSurface}
    (someArea : core.planeArea intent ≠ [])
    (redrawn : (core.planeTaken intent).redrawPlanes (core.planeArea intent) =
      .ok working) :
    ∃ damage,
      ({ core.planeTaken intent with working } : DisplayCore).planeDamage intent
        (core.planeArea intent) = .ok damage ∧
      Draws core intent { core.planeTaken intent with working } damage := by
  have takenCoherent := coherent_planeTaken coherent intent
  rcases planeArea_cases coherent intent with none | ⟨rect, one, _⟩
  · exact absurd none someArea
  · rw [one] at redrawn ⊢
    have isInside := inside_of_redrawn coherent redrawn
    have insideTaken : rect.Inside (core.planeTaken intent).width
        (core.planeTaken intent).height := by
      rw [width_planeTaken, height_planeTaken]
      exact isInside
    obtain ⟨sameWorking, redrawnAgain, workingShape, workingPicture⟩ :=
      redrawPlanes_spec takenCoherent insideTaken
    rw [redrawn] at redrawnAgain
    cases redrawnAgain
    have drawnCoherent : Coherent { core.planeTaken intent with working } :=
      ⟨takenCoherent.overlayLen, takenCoherent.peerLen,
        takenCoherent.inkLen, takenCoherent.presentedShape, workingShape,
        takenCoherent.presentedBaseShape, takenCoherent.hint,
        takenCoherent.debt, takenCoherent.tile, takenCoherent.dirty⟩
    obtain ⟨damage, computed, damageInside, covers, shows⟩ :=
      planeDamage_spec drawnCoherent intent insideTaken
    rw [base_planeTaken] at workingShape workingPicture
    rw [composition_planeTaken, working_planeTaken] at workingPicture
    simp only [presented_planeTaken] at covers shows
    have damageInside : ∀ part ∈ damage,
        part.Inside core.width core.height := by
      rw [← width_planeTaken core intent, ← height_planeTaken core intent]
      exact damageInside
    exact ⟨damage, computed, rfl, workingShape,
      by rw [one]; exact workingPicture, damageInside,
      by rw [one]; exact covers, shows⟩

/-- An area on the surface can be redrawn. -/
theorem drawnPlane_of_inside {intent : FrameIntent}
    (inside : ∀ rect ∈ core.planeArea intent,
      rect.Inside core.width core.height) :
    ∃ drawn damage, core.drawnPlane intent = .ok (drawn, damage) := by
  unfold drawnPlane
  dsimp only
  split
  · exact ⟨_, _, rfl⟩
  · rename_i someArea
    rcases planeArea_cases coherent intent with none | ⟨rect, one, _⟩
    · rw [none] at someArea
      exact absurd rfl someArea
    · have rectInside := inside rect
        (by rw [one]; exact List.mem_singleton_self _)
      rw [← width_planeTaken core intent,
        ← height_planeTaken core intent] at rectInside
      obtain ⟨working, redrawn, _⟩ :=
        redrawPlanes_spec (coherent_planeTaken coherent intent) rectInside
      rw [← one] at redrawn
      obtain ⟨damage, computed, _⟩ := redrawn_spec coherent
        (by rw [one]; exact List.cons_ne_nil _ _) redrawn
      exact ⟨_, damage, Res.bind_eq_ok.mpr ⟨working, redrawn,
        Res.bind_eq_ok.mpr ⟨damage, computed, rfl⟩⟩⟩

theorem drawnPlane_spec {intent : FrameIntent} {drawn : DisplayCore}
    {damage : List Rect} (draws : core.drawnPlane intent = .ok (drawn, damage)) :
    Draws core intent drawn damage := by
  unfold drawnPlane at draws
  dsimp only at draws
  split at draws
  · rename_i noArea
    rw [List.isEmpty_iff] at noArea
    cases draws
    exact ⟨rfl, by rw [working_planeTaken]; exact coherent.workingShape,
      by rw [noArea, region_nil, paint_empty, working_planeTaken], by simp,
      by rw [noArea]; simp, by simp⟩
  · rename_i someArea
    rw [List.isEmpty_iff] at someArea
    obtain ⟨working, redrawn, draws⟩ := Res.bind_eq_ok.mp draws
    obtain ⟨found, computed, spec⟩ := redrawn_spec coherent someArea redrawn
    rw [computed] at draws
    cases draws
    exact spec

end

end DisplayCore

/-- A plane is drawn and, if that changed anything, submitted. -/
inductive PlaneStep (timing : Timing) (intent : FrameIntent) :
    World → Except CoreError Unit → World → Prop where
  | failed {core : DisplayCore} {panel : Panel} {err : SurfaceError}
      (fails : core.drawnPlane intent = .error err) :
      PlaneStep timing intent ⟨core, panel⟩ (.error (.surface err))
        ⟨core.planeTaken intent, panel⟩
  | unchanged {core drawn : DisplayCore} {panel : Panel}
      (draws : core.drawnPlane intent = .ok (drawn, [])) :
      PlaneStep timing intent ⟨core, panel⟩ (.ok ()) ⟨drawn, panel⟩
  | refused {core drawn : DisplayCore} {panel : Panel} {damage : List Rect}
      (draws : core.drawnPlane intent = .ok (drawn, damage))
      (damaged : damage ≠ []) (refuses : panel.nextSubmit = none) :
      PlaneStep timing intent ⟨core, panel⟩ (.error .panel)
        ⟨drawn, panel.afterSubmit (planeOrigin intent) drawn.working
          (drawn.submittedDamage intent damage)
          (drawn.planeDecision intent damage)⟩
  | accepted {core drawn next : DisplayCore} {panel : Panel}
      {damage : List Rect} {metrics : PanelSubmissionMetrics}
      (draws : core.drawnPlane intent = .ok (drawn, damage))
      (damaged : damage ≠ []) (accepts : panel.nextSubmit = some metrics)
      (presents : drawn.planeAccepted (drawn.submittedDamage intent damage)
        (drawn.planeDecision intent damage) metrics.physicalSubmissions
        timing.now = .ok next) :
      PlaneStep timing intent ⟨core, panel⟩ (.ok ())
        ⟨next, panel.afterSubmit (planeOrigin intent) drawn.working
          (drawn.submittedDamage intent damage)
          (drawn.planeDecision intent damage)⟩

def failedCleanup : CleanupReport where
  cleanupPerformed := false
  cleanupPending := true
  backendFailed := true
  terminals := []

def performedCleanup : CleanupReport where
  cleanupPerformed := true
  cleanupPending := false
  backendFailed := false
  terminals := []

inductive CleanupStep (timing : Timing) :
    World → CleanupReport → World → Prop where
  | pumpFailed {core : DisplayCore} {panel : Panel}
      (failed : panel.nextPump = false) :
      CleanupStep timing ⟨core, panel⟩ failedCleanup
        ⟨core.markPanelFailure, panel.afterPump⟩
  | refused {core : DisplayCore} {panel : Panel}
      (pumped : panel.nextPump = true)
      (refuses : panel.afterPump.nextSubmit = none) :
      CleanupStep timing ⟨core, panel⟩ failedCleanup
        ⟨core.markPanelFailure, panel.afterPump.afterSubmit .cleanup
          core.presented (fullDamage core.width core.height)
          core.cleanupDecision⟩
  | accepted {core : DisplayCore} {panel : Panel}
      {metrics : PanelSubmissionMetrics} (pumped : panel.nextPump = true)
      (accepts : panel.afterPump.nextSubmit = some metrics) :
      CleanupStep timing ⟨core, panel⟩ performedCleanup
        ⟨core.cleanupAccepted timing.now, panel.afterPump.afterSubmit .cleanup
          core.presented (fullDamage core.width core.height)
          core.cleanupDecision⟩

section

variable {α : Type} {world after : World} {result : Except CoreError α}

@[simp] theorem getCore_bind {next : DisplayCore → CoreProc α} :
    (getCore >>= next).Runs world result after ↔
      (next world.core).Runs world result after := Iff.rfl

@[simp] theorem setCore_bind {core : DisplayCore} {next : Unit → CoreProc α} :
    (setCore core >>= next).Runs world result after ↔
      (next ()).Runs { world with core } result after := Iff.rfl

@[simp] theorem pump_bind {next : Bool → CoreProc α} :
    (pump >>= next).Runs world result after ↔
      (next world.panel.nextPump).Runs
        { world with panel := world.panel.afterPump } result after := Iff.rfl

@[simp] theorem submit_bind {origin : Origin} {pixels : PixelSurface}
    {damage : List Rect} {decision : RefreshDecision}
    {next : Option PanelSubmissionMetrics → CoreProc α} :
    (submit origin pixels damage decision >>= next).Runs world result after ↔
      (next world.panel.nextSubmit).Runs
        { world with
          panel := world.panel.afterSubmit origin pixels damage decision }
        result after := Iff.rfl

theorem ofRes_bind_of_ensures {ε' β : Type} {convert : ε' → CoreError}
    {res : Res ε' β} {post : β → Prop} {next : β → CoreProc α}
    (ensures : res.Ensures post)
    (runs : (Proc.ofRes convert res >>= next).Runs world result after) :
    ∃ value, res = .ok value ∧ post value ∧
      (next value).Runs world result after := by
  cases res with
  | ok value => exact ⟨value, rfl, ensures, runs⟩
  | error err => exact ensures.elim
  | panic => cases result <;> cases runs

end

section

variable {world after : World} {timing : Timing}
  (coherent : Coherent world.core)

include coherent

omit coherent in
theorem presentAccepted_taken (core : DisplayCore)
    (pending : PendingPresentation) (prepared : Prepared) (submissions : Nat)
    (now : Duration) :
    ({ core with pending := none } : DisplayCore).presentAccepted pending
        prepared submissions now =
      core.presentAccepted pending prepared submissions now := by
  unfold presentAccepted recordPanelDamage
  dsimp only
  cases prepared.decision.completeRefresh <;> rfl

private theorem presentFrame_runs {pending : PendingPresentation}
    {prepared : Prepared} {output : Except CoreError (List TerminalFrame)}
    (isPending : world.core.pending = some pending)
    (pumped : world.panel.nextPump = true)
    (prepares : world.core.prepareFrame pending = .ok prepared)
    (spec : world.core.Prepares pending prepared)
    (runs : (presentFrame timing pending prepared).Runs
      ⟨{ world.core with pending := none }, world.panel.afterPump⟩
      output after) :
    ∃ terminal, output = .ok [terminal] ∧
      FrameStep timing world terminal after := by
  obtain ⟨core, panel⟩ := world
  simp only at isPending pumped prepares spec coherent runs
  simp only [presentFrame, getCore_bind] at runs
  split at runs
  · rename_i nothing
    simp only [setCore_bind, Proc.runs_pure] at runs
    obtain ⟨rfl, rfl⟩ := runs
    exact ⟨_, rfl, .unchanged isPending pumped prepares
      (List.isEmpty_iff.mp nothing)⟩
  · rename_i damaged
    have damaged : prepared.damage ≠ [] :=
      fun nothing => damaged (List.isEmpty_iff.mpr nothing)
    simp only [submit_bind] at runs
    split at runs
    · rename_i refuses
      simp only [setCore_bind, Proc.runs_pure] at runs
      obtain ⟨rfl, rfl⟩ := runs
      exact ⟨_, rfl, .refused isPending pumped prepares damaged refuses⟩
    · rename_i metrics accepts
      rw [presentAccepted_taken] at runs
      obtain ⟨next, presents, _, runs⟩ := ofRes_bind_of_ensures
        (presentAccepted_ensures coherent spec metrics.physicalSubmissions
          timing.now) runs
      simp only [setCore_bind, Proc.runs_pure] at runs
      obtain ⟨rfl, rfl⟩ := runs
      exact ⟨_, rfl,
        .accepted isPending pumped prepares damaged accepts presents⟩

/-- A tick does nothing, or presents the pending frame. -/
theorem tickInner_runs {ignoreDeadline : Bool}
    {output : Except CoreError (List TerminalFrame)}
    (runs : (tickInner timing ignoreDeadline).Runs world output after) :
    (output = .ok [] ∧ after = world ∧
        (world.core.pending = none ∨ ignoreDeadline = false ∧
          ∃ pending ∈ world.core.pending,
            timing.now < world.core.deadlineOf pending)) ∨
      ∃ terminal, output = .ok [terminal] ∧
        FrameStep timing world terminal after := by
  simp only [tickInner, getCore_bind] at runs
  split at runs
  · rename_i idle
    rw [Proc.runs_pure] at runs
    exact .inl ⟨runs.1, runs.2, .inl idle⟩
  · rename_i pending isPending
    split at runs
    · rename_i early
      rw [Bool.and_eq_true, Bool.not_eq_true', decide_eq_true_iff] at early
      rw [Proc.runs_pure] at runs
      exact .inl ⟨runs.1, runs.2, .inr ⟨early.1, pending, isPending, early.2⟩⟩
    · simp only [pump_bind] at runs
      split at runs
      · rename_i failed
        simp only [setCore_bind, Proc.runs_pure] at runs
        obtain ⟨rfl, rfl⟩ := runs
        exact .inr ⟨_, rfl, .pumpFailed isPending (by simpa using failed)⟩
      · rename_i pumped
        rw [setCore_bind] at runs
        obtain ⟨prepared, prepares, spec, runs⟩ := ofRes_bind_of_ensures
          (prepareFrame_spec coherent (coherent.hint pending isPending)) runs
        exact .inr (presentFrame_runs coherent isPending (by simpa using pumped)
          prepares spec runs)

end

namespace DisplayCore

/-- Debt that was added lies on the surface and covers the old debt and the
damage. -/
theorem addsDebt_spec {core : DisplayCore} {damage : List Rect}
    {submissions : Nat} {settleDamage : List Rect} {fastUpdates : Nat}
    (coherent : Coherent core)
    (inside : ∀ rect ∈ damage, rect.Inside core.width core.height)
    (adds : AddsDebt core damage submissions settleDamage fastUpdates) :
    (∀ rect ∈ settleDamage, rect.Inside core.width core.height) ∧
      region core.settleDamage ∪ region damage ⊆ region settleDamage :=
  (mergeTiledDamage_spec core.damageTile coherent.debt inside).of_ok adds.1

theorem frameDebt_inside {core : DisplayCore} {pending : PendingPresentation}
    {prepared : Prepared} {submissions : Nat} {settleDamage : List Rect}
    {fastUpdates : Nat} (coherent : Coherent core)
    (inside : ∀ rect ∈ prepared.damage, rect.Inside core.width core.height)
    (debt : FrameDebt core pending prepared submissions settleDamage
      fastUpdates) :
    ∀ rect ∈ settleDamage, rect.Inside core.width core.height := by
  cases debt with
  | cleared => simp
  | added _ _ adds => exact (addsDebt_spec coherent inside adds).1
  | kept => exact coherent.debt

theorem planeDebt_inside {core : DisplayCore} {damage : List Rect}
    {decision : RefreshDecision} {submissions : Nat}
    {settleDamage : List Rect} {fastUpdates : Nat} (coherent : Coherent core)
    (inside : ∀ rect ∈ damage, rect.Inside core.width core.height)
    (debt : PlaneDebt core damage decision submissions settleDamage
      fastUpdates) :
    ∀ rect ∈ settleDamage, rect.Inside core.width core.height := by
  cases debt with
  | cleared => simp
  | added _ adds => exact (addsDebt_spec coherent inside adds).1

/-- The damage a drawn plane is submitted with covers the drawn damage and
lies on the surface. -/
theorem submittedDamage_spec {core : DisplayCore} (intent : FrameIntent)
    {damage : List Rect}
    (inside : ∀ rect ∈ damage, rect.Inside core.width core.height) :
    (∀ rect ∈ core.submittedDamage intent damage,
        rect.Inside core.width core.height) ∧
      region damage ⊆ region (core.submittedDamage intent damage) := by
  unfold submittedDamage RefreshPolicy.damageForDecision
  split
  · refine ⟨full_inside core, ?_⟩
    rintro p ⟨rect, member, covered⟩
    exact mem_region_fullDamage.mpr ((inside rect member).bounds covered)
  · exact ⟨inside, subset_rfl⟩

theorem coherent_drawn {core drawn : DisplayCore} {intent : FrameIntent}
    {damage : List Rect} (coherent : Coherent core)
    (draws : Draws core intent drawn damage) : Coherent drawn := by
  have taken := coherent_planeTaken coherent intent
  rw [draws.taken]
  exact ⟨taken.overlayLen, taken.peerLen, taken.inkLen, taken.presentedShape,
    by rw [base_planeTaken]; exact draws.shape, taken.presentedBaseShape,
    taken.hint, taken.debt, taken.tile, taken.dirty⟩

theorem width_drawn {core drawn : DisplayCore} {intent : FrameIntent}
    {damage : List Rect} (draws : Draws core intent drawn damage) :
    drawn.width = core.width ∧ drawn.height = core.height := by
  rw [draws.taken]
  exact ⟨width_planeTaken core intent, height_planeTaken core intent⟩

end DisplayCore

theorem presentAccepted_surfaces {core : DisplayCore} {prepared : Prepared}
    {working : PixelSurface} {pending : PendingPresentation}
    (coherent : Coherent core) (prepares : core.Prepares pending prepared)
    (copied : core.presented.copyRegionsFrom prepared.working prepared.damage =
      .ok working) :
    working.shape = core.base.shape ∧
      working.picture = paint (region prepared.damage)
        prepared.working.picture core.presented.picture := by
  obtain ⟨⟨sameWidth, sameHeight⟩, _⟩ :=
    PixelSurface.shape_eq_iff.mp coherent.presentedShape
  obtain ⟨next, copies, shape, painted⟩ :=
    PixelSurface.copyRegionsFrom_spec prepared.damage
      (coherent.presentedShape.trans prepares.shape.symm)
      (by rw [sameWidth, sameHeight]; exact prepares.inside)
  rw [copied] at copies
  cases copies
  exact ⟨shape.trans coherent.presentedShape, painted⟩

/-- What an accepted plane shows afterwards. -/
theorem planeAccepted_surfaces {core : DisplayCore} {damage : List Rect}
    {presented : PixelSurface} (coherent : Coherent core)
    (inside : ∀ rect ∈ damage, rect.Inside core.width core.height)
    (copied : core.presented.copyRegionsFrom core.working damage =
      .ok presented) :
    presented.shape = core.base.shape ∧
      presented.picture = paint (region damage) core.working.picture
        core.presented.picture := by
  obtain ⟨⟨sameWidth, sameHeight⟩, _⟩ :=
    PixelSurface.shape_eq_iff.mp coherent.presentedShape
  obtain ⟨next, copies, shape, painted⟩ :=
    PixelSurface.copyRegionsFrom_spec damage
      (coherent.presentedShape.trans coherent.workingShape.symm)
      (by rw [sameWidth, sameHeight]; exact inside)
  rw [copied] at copies
  cases copies
  exact ⟨shape.trans coherent.presentedShape, painted⟩

theorem FrameStep.coherent {timing : Timing} {world after : World}
    {terminal : TerminalFrame} (step : FrameStep timing world terminal after)
    (coherent : Coherent world.core) : Coherent after.core := by
  cases step with
  | pumpFailed isPending _ =>
      exact ⟨coherent.overlayLen, coherent.peerLen, coherent.inkLen,
        coherent.presentedShape, coherent.workingShape,
        coherent.presentedBaseShape, fun _ missing => (by cases missing),
        fun _ missing => (by cases missing), coherent.tile, coherent.dirty⟩
  | unchanged isPending _ prepares _ =>
      have spec := (prepareFrame_spec coherent
        (coherent.hint _ isPending)).of_ok prepares
      exact ⟨coherent.overlayLen, coherent.peerLen, coherent.inkLen,
        coherent.presentedShape, spec.shape, rfl,
        fun _ missing => (by cases missing), coherent.debt, coherent.tile,
        coherent.dirty⟩
  | refused isPending _ _ _ _ =>
      exact ⟨coherent.overlayLen, coherent.peerLen, coherent.inkLen,
        coherent.presentedShape, coherent.presentedShape,
        coherent.presentedBaseShape, fun _ missing => (by cases missing),
        fun _ missing => (by cases missing), coherent.tile, coherent.dirty⟩
  | accepted isPending _ prepares _ _ presents =>
      have spec := (prepareFrame_spec coherent
        (coherent.hint _ isPending)).of_ok prepares
      obtain ⟨working, settleDamage, fastUpdates, copied, debt, rfl⟩ :=
        presentAccepted_eq_ok presents
      have debtInside := frameDebt_inside coherent spec.inside debt
      obtain ⟨pixels, lastPartial, same⟩ := submitted_eq _ _ _ _ _ _ _
      rw [same]
      exact ⟨coherent.overlayLen, coherent.peerLen, coherent.inkLen, spec.shape,
        (presentAccepted_surfaces coherent spec copied).1, rfl,
        fun _ missing => (by cases missing),
        debtInside, coherent.tile, coherent.dirty⟩

theorem PlaneStep.coherent {timing : Timing} {intent : FrameIntent}
    {world after : World} {output : Except CoreError Unit}
    (step : PlaneStep timing intent world output after)
    (coherent : Coherent world.core) : Coherent after.core := by
  cases step with
  | failed _ => exact coherent_planeTaken coherent intent
  | unchanged draws =>
      exact coherent_drawn coherent (drawnPlane_spec coherent draws)
  | refused draws _ _ =>
      exact coherent_drawn coherent (drawnPlane_spec coherent draws)
  | accepted draws _ _ presents =>
      have spec := drawnPlane_spec coherent draws
      have drawn := coherent_drawn coherent spec
      obtain ⟨sameWidth, sameHeight⟩ := width_drawn spec
      have inside := (submittedDamage_spec intent
        (by rw [sameWidth, sameHeight]; exact spec.inside)).1
      obtain ⟨presented, settleDamage, fastUpdates, copied, debt, rfl⟩ :=
        planeAccepted_eq_ok presents
      have debtInside := planeDebt_inside drawn inside debt
      obtain ⟨pixels, lastPartial, same⟩ := submitted_eq _ _ _ _ _ _ _
      rw [same]
      exact ⟨drawn.overlayLen, drawn.peerLen, drawn.inkLen,
        (planeAccepted_surfaces drawn inside copied).1, drawn.workingShape,
        drawn.presentedBaseShape, drawn.hint, debtInside, drawn.tile,
        drawn.dirty⟩

end RmDisplay.Core
