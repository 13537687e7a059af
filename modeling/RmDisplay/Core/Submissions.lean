import RmDisplay.Core.OperationSteps

/-!
# What the panel is given

Every submission has damage, and its rectangles are nonempty, on the surface
and apart; a complete refresh is of the whole surface.  A core whose pixels a
32-bit word counts never fails on its own: it does not panic, and what it
returns as an error is a panel's refusal or a caller's mistake.
-/

namespace RmDisplay.Core

open Foundation Protocol DisplayCore

/-- What a backend may rely on. -/
structure Submission.WellFormed (submission : Submission) (width height : Nat)
    (format : PixelFormat) : Prop where
  someDamage : submission.damage ≠ []
  inside : ∀ rect ∈ submission.damage, rect.Inside width height
  apart : submission.damage.Pairwise Rect.Apart
  complete : submission.decision.completeRefresh = true →
    submission.damage = fullDamage width height
  shape : submission.pixels.shape = ((width, height), format)

theorem fullDamage_apart (width height : Nat) :
    (fullDamage width height).Pairwise Rect.Apart :=
  List.pairwise_singleton _ _

namespace DisplayCore

theorem prepareFrame_apart {core : DisplayCore} {pending : PendingPresentation}
    {prepared : Prepared} (prepares : core.prepareFrame pending = .ok prepared) :
    prepared.damage.Pairwise Rect.Apart := by
  obtain ⟨working, _, prepares⟩ := Res.bind_eq_ok.mp prepares
  obtain ⟨changed, isChanged, prepares⟩ := Res.bind_eq_ok.mp prepares
  obtain ⟨damage, isDamage, prepares⟩ := Res.bind_eq_ok.mp prepares
  dsimp only at prepares
  split at prepares
  · obtain ⟨_, _, stored⟩ := Res.bind_eq_ok.mp prepares
    cases stored
    exact fullDamage_apart _ _
  · cases prepares
    unfold decisionDamage at isDamage
    split at isDamage
    · exact mergeTiledDamage_apart isDamage
    · cases isDamage
      unfold changedDamage at isChanged
      split at isChanged
      · cases isChanged
        exact fullDamage_apart _ _
      · exact tileDamageRegions_apart isChanged

theorem drawnPlane_apart {core drawn : DisplayCore} (coherent : Coherent core)
    {intent : FrameIntent} {damage : List Rect}
    (draws : core.drawnPlane intent = .ok (drawn, damage)) :
    damage.Pairwise Rect.Apart := by
  unfold drawnPlane at draws
  dsimp only at draws
  split at draws
  · cases draws
    exact .nil
  · obtain ⟨working, _, draws⟩ := Res.bind_eq_ok.mp draws
    obtain ⟨found, isDamage, stored⟩ := Res.bind_eq_ok.mp draws
    cases stored
    unfold planeDamage at isDamage
    split at isDamage
    · -- The pen has one dirty rectangle.
      have single : (core.planeArea intent).Pairwise Rect.Apart := by
        rcases planeArea_cases coherent intent with none | ⟨rect, one, _⟩
        · rw [none]
          exact .nil
        · rw [one]
          exact List.pairwise_singleton _ _
      refine (Res.filterMap_pairwise single ?_ isDamage).1
      intro left right leftImage rightImage apart isLeft isRight
      obtain ⟨leftChanged, _, isLeft⟩ := Res.bind_eq_ok.mp isLeft
      obtain ⟨rightChanged, _, isRight⟩ := Res.bind_eq_ok.mp isRight
      cases leftChanged with
      | false => cases isLeft
      | true =>
          cases rightChanged with
          | false => cases isRight
          | true =>
              cases isLeft
              cases isRight
              exact apart
    · exact tileDamageRegions_apart isDamage

end DisplayCore

/-- The core of a panel it has only given good submissions. -/
structure WellDriven (width height : Nat) (format : PixelFormat)
    (world : World) : Prop where
  coherent : Coherent world.core
  shape : world.core.base.shape = ((width, height), format)
  dirty : ∀ rect ∈ world.core.ink.dirty, rect.Inside width height
  calls : ∀ submission, .submit submission ∈ world.panel.calls →
    submission.WellFormed width height format

namespace WellDriven

variable {width height : Nat} {format : PixelFormat} {before after : World}

theorem sizes (driven : WellDriven width height format before) :
    before.core.width = width ∧ before.core.height = height :=
  ⟨congrArg (·.1.1) driven.shape, congrArg (·.1.2) driven.shape⟩

/-- One more submission. -/
theorem afterSubmit {panel : Panel} {origin : Origin} {pixels : PixelSurface}
    {damage : List Rect} {decision : RefreshDecision}
    (calls : ∀ submission, .submit submission ∈ panel.calls →
      submission.WellFormed width height format)
    (wellFormed : (Submission.mk origin pixels damage decision
      panel.nextSubmit).WellFormed width height format) :
    ∀ submission,
      .submit submission ∈ (panel.afterSubmit origin pixels damage
        decision).calls → submission.WellFormed width height format := by
  intro submission member
  rcases List.mem_cons.mp member with same | earlier
  · cases same
    exact wellFormed
  · exact calls submission earlier

theorem afterPump {panel : Panel}
    (calls : ∀ submission, .submit submission ∈ panel.calls →
      submission.WellFormed width height format) :
    ∀ submission, .submit submission ∈ panel.afterPump.calls →
      submission.WellFormed width height format := by
  intro submission member
  rcases List.mem_cons.mp member with impossible | earlier
  · cases impossible
  · exact calls submission earlier

end WellDriven

theorem FrameStep.wellDriven {width height : Nat} {format : PixelFormat}
    {timing : Timing} {before after : World} {terminal : TerminalFrame}
    (step : FrameStep timing before terminal after)
    (driven : WellDriven width height format before) :
    WellDriven width height format after := by
  have coherentAfter := step.coherent driven.coherent
  obtain ⟨sameWidth, sameHeight⟩ := driven.sizes
  obtain ⟨coherent, shape, dirty, calls⟩ := driven
  have wellFormed {core : DisplayCore} {pending : PendingPresentation}
      {prepared : Prepared} {origin : Origin}
      {reply : Option PanelSubmissionMetrics} (coherent : Coherent core)
      (shape : core.base.shape = ((width, height), format))
      (sizes : core.width = width ∧ core.height = height)
      (isPending : core.pending = some pending)
      (prepares : core.prepareFrame pending = .ok prepared)
      (damaged : prepared.damage ≠ []) :
      (Submission.mk origin prepared.working prepared.damage prepared.decision
        reply).WellFormed width height format := by
    have spec := (prepareFrame_spec coherent
      (coherent.hint _ isPending)).of_ok prepares
    obtain ⟨rfl, rfl⟩ := sizes
    exact ⟨damaged, spec.inside, prepareFrame_apart prepares, spec.complete,
      spec.shape.trans shape⟩
  cases step with
  | pumpFailed isPending failed =>
      exact ⟨coherentAfter, shape, dirty, WellDriven.afterPump calls⟩
  | unchanged isPending pumped prepares nothing =>
      exact ⟨coherentAfter, shape, dirty, WellDriven.afterPump calls⟩
  | refused isPending pumped prepares damaged refuses =>
      refine ⟨coherentAfter, shape, dirty, ?_⟩
      exact WellDriven.afterSubmit (WellDriven.afterPump calls)
        (wellFormed coherent shape ⟨sameWidth, sameHeight⟩ isPending prepares
          damaged)
  | accepted isPending pumped prepares damaged accepts presents =>
      obtain ⟨_, _, _, _, _, rfl⟩ := presentAccepted_eq_ok presents
      obtain ⟨_, _, same⟩ := submitted_eq _ _ _ _ _ _ _
      rw [same] at coherentAfter ⊢
      refine ⟨coherentAfter, shape, dirty, ?_⟩
      exact WellDriven.afterSubmit (WellDriven.afterPump calls)
        (wellFormed coherent shape ⟨sameWidth, sameHeight⟩ isPending prepares
          damaged)

/-- Drawing a plane keeps the base, and what is dirty at most. -/
theorem DisplayCore.Draws.dirty {width height : Nat} {format : PixelFormat}
    {core drawn : DisplayCore} {intent : FrameIntent} {damage : List Rect}
    (draws : Draws core intent drawn damage)
    (shape : core.base.shape = ((width, height), format))
    (dirty : ∀ rect ∈ core.ink.dirty, rect.Inside width height) :
    drawn.base.shape = ((width, height), format) ∧
      ∀ rect ∈ drawn.ink.dirty, rect.Inside width height := by
  rw [draws.taken]
  refine ⟨by rw [base_planeTaken]; exact shape, ?_⟩
  rcases planeTaken_eq core intent with same | taken
  · rw [same]
    exact dirty
  · rw [taken]
    exact fun _ missing => nomatch missing

theorem PlaneStep.wellDriven {width height : Nat} {format : PixelFormat}
    {timing : Timing} {intent : FrameIntent} {before after : World}
    {output : Except CoreError Unit}
    (step : PlaneStep timing intent before output after)
    (driven : WellDriven width height format before) :
    WellDriven width height format after := by
  have coherentAfter := step.coherent driven.coherent
  obtain ⟨sameWidth, sameHeight⟩ := driven.sizes
  obtain ⟨coherent, shape, dirty, calls⟩ := driven
  have wellFormed {core drawn : DisplayCore} {damage : List Rect}
      {origin : Origin} {reply : Option PanelSubmissionMetrics}
      (coherent : Coherent core)
      (shape : core.base.shape = ((width, height), format))
      (sizes : core.width = width ∧ core.height = height)
      (draws : core.drawnPlane intent = .ok (drawn, damage))
      (damaged : damage ≠ []) :
      (Submission.mk origin drawn.working (drawn.submittedDamage intent damage)
        (drawn.planeDecision intent damage) reply).WellFormed width height
          format := by
    have spec := drawnPlane_spec coherent draws
    have drawnSizes := width_drawn spec
    rw [sizes.1, sizes.2] at drawnSizes
    have drawnInside : ∀ rect ∈ damage,
        rect.Inside drawn.width drawn.height := by
      rw [drawnSizes.1, drawnSizes.2, ← sizes.1, ← sizes.2]
      exact spec.inside
    have inside := (submittedDamage_spec intent drawnInside).1
    rw [drawnSizes.1, drawnSizes.2] at inside
    have apart : (drawn.submittedDamage intent damage).Pairwise Rect.Apart := by
      unfold submittedDamage RefreshPolicy.damageForDecision
      split
      · exact fullDamage_apart _ _
      · exact drawnPlane_apart coherent draws
    refine ⟨?_, inside, apart, ?_, spec.shape.trans shape⟩
    · simp only [submittedDamage, RefreshPolicy.damageForDecision]
      split
      · exact List.cons_ne_nil _ _
      · exact damaged
    · intro complete
      simp only at complete
      rw [← drawnSizes.1, ← drawnSizes.2]
      simp only [submittedDamage, RefreshPolicy.damageForDecision, complete,
        if_true]
  cases step with
  | failed fails =>
      rename_i core panel err
      refine ⟨coherentAfter, by rw [base_planeTaken]; exact shape, ?_, calls⟩
      rcases planeTaken_eq core intent with same | taken
      · rw [same]
        exact dirty
      · rw [taken]
        exact fun _ missing => nomatch missing
  | unchanged draws =>
      obtain ⟨drawnShape, drawnDirty⟩ :=
        (drawnPlane_spec coherent draws).dirty shape dirty
      exact ⟨coherentAfter, drawnShape, drawnDirty, calls⟩
  | refused draws damaged refuses =>
      obtain ⟨drawnShape, drawnDirty⟩ :=
        (drawnPlane_spec coherent draws).dirty shape dirty
      exact ⟨coherentAfter, drawnShape, drawnDirty, WellDriven.afterSubmit calls
        (wellFormed coherent shape ⟨sameWidth, sameHeight⟩ draws damaged)⟩
  | accepted draws damaged accepts presents =>
      obtain ⟨drawnShape, drawnDirty⟩ :=
        (drawnPlane_spec coherent draws).dirty shape dirty
      obtain ⟨_, _, _, _, _, rfl⟩ := planeAccepted_eq_ok presents
      obtain ⟨_, _, same⟩ := submitted_eq _ _ _ _ _ _ _
      rw [same] at coherentAfter ⊢
      exact ⟨coherentAfter, drawnShape, drawnDirty, WellDriven.afterSubmit calls
        (wellFormed coherent shape ⟨sameWidth, sameHeight⟩ draws damaged)⟩

theorem CleanupStep.wellDriven {width height : Nat} {format : PixelFormat}
    {timing : Timing} {before after : World} {report : CleanupReport}
    (step : CleanupStep timing before report after)
    (driven : WellDriven width height format before) :
    WellDriven width height format after := by
  have coherentAfter := step.coherent driven.coherent
  obtain ⟨sameWidth, sameHeight⟩ := driven.sizes
  obtain ⟨coherent, shape, dirty, calls⟩ := driven
  have wellFormed {core : DisplayCore}
      {reply : Option PanelSubmissionMetrics} (coherent : Coherent core)
      (shape : core.base.shape = ((width, height), format))
      (sizes : core.width = width ∧ core.height = height) :
      (Submission.mk .cleanup core.presented (fullDamage core.width core.height)
        core.cleanupDecision reply).WellFormed width height format := by
    refine ⟨List.cons_ne_nil _ _, ?_, fullDamage_apart _ _, ?_,
      coherent.presentedShape.trans shape⟩
    · rw [← sizes.1, ← sizes.2]
      exact full_inside core
    · intro _
      rw [sizes.1, sizes.2]
  cases step with
  | pumpFailed failed =>
      exact ⟨coherentAfter, shape, dirty, WellDriven.afterPump calls⟩
  | refused pumped refuses =>
      exact ⟨coherentAfter, shape, dirty, WellDriven.afterSubmit
        (WellDriven.afterPump calls)
        (wellFormed coherent shape ⟨sameWidth, sameHeight⟩)⟩
  | accepted pumped accepts =>
      rw [cleanupAccepted_eq] at coherentAfter ⊢
      exact ⟨coherentAfter, shape, dirty, WellDriven.afterSubmit
        (WellDriven.afterPump calls)
        (wellFormed coherent shape ⟨sameWidth, sameHeight⟩)⟩

/-- A pen segment of the ink plane has an end on the surface. -/
def Action.Reaches (width height : Nat) : Action → Prop
  | .edit .ink (.inkLine origin target _ _) =>
      (origin.1 < width ∧ origin.2 < height) ∨
        (target.1 < width ∧ target.2 < height)
  | _ => True

instance (width height : Nat) (action : Action) :
    Decidable (action.Reaches width height) := by
  unfold Action.Reaches
  split <;> infer_instance

private theorem dirty_of_edit {core next : DisplayCore} {plane : PlaneId}
    {change : PlaneEdit} (coherent : Coherent core)
    (coherentAfter : Coherent next)
    (edits : core.editPlane plane change = .ok next)
    (reaches : (Action.edit plane change).Reaches core.width core.height)
    (dirty : ∀ rect ∈ core.ink.dirty, rect.Inside core.width core.height) :
    ∀ rect ∈ next.ink.dirty, rect.Inside core.width core.height := by
  obtain ⟨after, applied, rfl⟩ := editPlane_eq_ok edits
  cases plane with
  | menu => exact dirty
  | peer => exact dirty
  | ink =>
      cases change with
      | replacePlanes luma alpha =>
          have same := (LocalOverlay.replacePlanes_spec applied).2
          exact fun rect isDirty => dirty rect (same ▸ isDirty)
      | patch rect luma alpha =>
          have same := (LocalOverlay.patch_spec applied).2
          exact fun rect isDirty => dirty rect (same ▸ isDirty)
      | clear =>
          cases applied
          exact fun _ missing => nomatch missing
      | inkLine origin target radius erase =>
          have rows : core.ink.len / core.width = core.height := by
            rw [coherent.inkLen, Nat.mul_comm]
            exact Nat.mul_div_cancel _ core.base.packed.wide
          have covered : ∃ rect, ∃ p : Place, after.dirty = some rect ∧
              rect.Covers p.1 p.2 := by
            rw [← rows] at reaches
            rcases reaches with onPlane | onPlane
            · obtain ⟨rect, isDirty, covers⟩ :=
                LocalOverlay.inkLine_covers applied (.inl rfl) onPlane
              exact ⟨rect, origin, isDirty, covers⟩
            · obtain ⟨rect, isDirty, covers⟩ :=
                LocalOverlay.inkLine_covers applied (.inr rfl) onPlane
              exact ⟨rect, target, isDirty, covers⟩
          obtain ⟨rect, p, isDirty, covers⟩ := covered
          intro other isOther
          have sameRect : rect = other :=
            Option.some.inj (isDirty.symm.trans isOther)
          have bounds := coherentAfter.dirty other isOther
          obtain ⟨⟨_, _⟩, _, _⟩ := covers
          rw [sameRect] at *
          exact ⟨by omega, by omega, bounds.1, bounds.2⟩

theorem CoreStep.wellDriven {width height : Nat} {format : PixelFormat}
    {before after : World} {action : Action} {terminals : List TerminalFrame}
    (step : CoreStep before action terminals after)
    (reaches : action.Reaches width height)
    (driven : WellDriven width height format before) :
    WellDriven width height format after := by
  have coherentAfter := step.coherent driven.coherent
  have sizes := driven.sizes
  have ⟨coherent, shape, dirty, calls⟩ := driven
  cases step with
  | commit commits =>
      obtain ⟨_, _, _, _, _, base, applied, rfl⟩ := commitTimed_eq_ok commits
      obtain ⟨other, appliedAgain, sameShape, _⟩ :=
        PixelSurface.applyRegionsAtomic_spec
          (PixelSurface.valid_of_applyRegionsAtomic applied)
      rw [applied] at appliedAgain
      cases appliedAgain
      exact ⟨coherentAfter, sameShape.trans shape, dirty, calls⟩
  | cancel => exact ⟨coherentAfter, shape, dirty, calls⟩
  | freeze =>
      exact ⟨coherentAfter, coherent.presentedBaseShape.trans shape, dirty,
        calls⟩
  | edit edits =>
      have editedDirty := dirty_of_edit coherent coherentAfter edits
        (by rw [sizes.1, sizes.2]; exact reaches)
        (by rw [sizes.1, sizes.2]; exact dirty)
      rw [sizes.1, sizes.2] at editedDirty
      refine ⟨coherentAfter, ?_, editedDirty, calls⟩
      obtain ⟨plane, _, rfl⟩ := editPlane_eq_ok edits
      obtain ⟨_, _, _, same⟩ := setPlane_frame _ _ plane
      rw [same]
      exact shape
  | adjust adjusts =>
      obtain ⟨_, _, _, _, _, _, rfl⟩ := adjusts.frame
      exact ⟨coherentAfter, shape, dirty, calls⟩
  | present step => exact step.wellDriven driven
  | draw step => exact step.wellDriven driven
  | resubmit idle step => exact step.wellDriven driven

/-- A pen segment of the ink plane has an end on the surface, as its caller
clamps it. -/
def CoreOp.Reaches (width height : Nat) : CoreOp → Prop
  | .edit plane change => (Action.edit plane change).Reaches width height
  | _ => True

instance (width height : Nat) (op : CoreOp) :
    Decidable (op.Reaches width height) := by
  unfold CoreOp.Reaches
  split <;> infer_instance

theorem CoreRun.wellDriven {setup : CoreSetup} {history : List CoreEvent}
    {final : World} (run : CoreRun setup history final)
    (reaches : ∀ event ∈ history,
      event.input.Reaches setup.width setup.height) :
    WellDriven setup.width setup.height setup.pixelFormat final := by
  obtain ⟨first, fresh, run⟩ := run
  obtain ⟨coherent, blank, _, ⟨sameWidth, sameHeight⟩, sameFormat⟩ :=
    newCore_spec fresh
  refine Run.keeps (fun _ world =>
    WellDriven setup.width setup.height setup.pixelFormat world) ?_ ?_ run
      reaches
  · refine ⟨coherent, ?_, ?_, fun _ missing => nomatch missing⟩
    · rw [← sameWidth, ← sameHeight, ← sameFormat]
      rfl
    · rw [blank.clean]
      exact fun _ missing => nomatch missing
  · rintro history event eventReaches stepped driven
    obtain ⟨_, steps, _⟩ := (accounts_of_coreStep driven.coherent stepped).steps
    refine steps.keeps
      (fun world => WellDriven setup.width setup.height setup.pixelFormat world)
      ?_ driven
    intro world next action given takes step driven
    refine step.wellDriven ?_ driven
    cases action with
    | edit plane change =>
        obtain ⟨_, isEdit⟩ := takes
        rw [isEdit] at eventReaches
        exact eventReaches
    | commit | cancel | freeze | adjust | present | draw | resubmit => trivial

section

variable {α : Type} {world : World} {allowed : CoreError → Prop}

@[simp] theorem returns_getCore {next : DisplayCore → CoreProc α} :
    (getCore >>= next).Returns world allowed ↔
      (next world.core).Returns world allowed := Iff.rfl

@[simp] theorem returns_setCore {core : DisplayCore}
    {next : Unit → CoreProc α} :
    (setCore core >>= next).Returns world allowed ↔
      (next ()).Returns { world with core } allowed := Iff.rfl

@[simp] theorem returns_pump {next : Bool → CoreProc α} :
    (pump >>= next).Returns world allowed ↔
      (next world.panel.nextPump).Returns
        { world with panel := world.panel.afterPump } allowed := Iff.rfl

@[simp] theorem returns_submit {origin : Origin} {pixels : PixelSurface}
    {damage : List Rect} {decision : RefreshDecision}
    {next : Option PanelSubmissionMetrics → CoreProc α} :
    (submit origin pixels damage decision >>= next).Returns world allowed ↔
      (next world.panel.nextSubmit).Returns
        { world with
          panel := world.panel.afterSubmit origin pixels damage decision }
        allowed := Iff.rfl

end

namespace DisplayCore

section

variable {core : DisplayCore} (coherent : Coherent core)
  (small : core.width * core.height ≤ u32Max)

include coherent small

theorem prepareFrame_returns {pending : PendingPresentation}
    (hint : ∀ rect ∈ pending.damageHint, rect.Inside core.width core.height) :
    ∃ prepared, core.prepareFrame pending = .ok prepared := by
  have regionsInside := composeRegions_inside coherent hint
  have fullInside := full_inside core
  obtain ⟨working, composed, workingShape, _⟩ :=
    composeWorking_spec coherent coherent.workingShape regionsInside
  obtain ⟨full, fullComposed, _⟩ :=
    composeWorking_spec coherent workingShape fullInside
  obtain ⟨⟨sameWidth, sameHeight⟩, _⟩ :=
    PixelSurface.shape_eq_iff.mp workingShape
  have changes : ∃ changed, core.changedDamage pending working = .ok changed ∧
      ∀ rect ∈ changed, rect.Inside core.width core.height := by
    unfold changedDamage
    split
    · exact ⟨_, rfl, fullInside⟩
    · obtain ⟨changed, computed, inside, _⟩ :=
        tileDamageRegions_spec (core.composeRegions pending)
          (coherent.presentedShape.trans workingShape.symm) coherent.tile
          (by rw [sameWidth, sameHeight]; exact regionsInside)
      rw [sameWidth, sameHeight] at inside
      exact ⟨changed, computed, inside⟩
  obtain ⟨changed, isChanged, changedInside⟩ := changes
  have damages : ∃ damage, core.decisionDamage pending changed = .ok damage := by
    unfold decisionDamage
    split
    · exact mergeTiledDamage_returns core.damageTile small coherent.debt
        changedInside
    · exact ⟨changed, rfl⟩
  obtain ⟨damage, isDamage⟩ := damages
  simp only [prepareFrame, composed, isChanged, isDamage, Res.ok_bind]
  split
  · rw [fullComposed]
    exact ⟨_, rfl⟩
  · exact ⟨_, rfl⟩

theorem presentAccepted_returns {pending : PendingPresentation}
    {prepared : Prepared} (prepares : core.Prepares pending prepared)
    (submissions : Nat) (now : Duration) :
    ∃ next, core.presentAccepted pending prepared submissions now =
      .ok next := by
  obtain ⟨⟨sameWidth, sameHeight⟩, _⟩ :=
    PixelSurface.shape_eq_iff.mp coherent.presentedShape
  obtain ⟨working, copied, _⟩ := PixelSurface.copyRegionsFrom_spec prepared.damage
    (coherent.presentedShape.trans prepares.shape.symm)
    (by rw [sameWidth, sameHeight]; exact prepares.inside)
  obtain ⟨pixels, lastPartial, recorded⟩ := recordPanelDamage_fields core
    prepared.decision prepared.damage now
  have adds (core : DisplayCore)
      (small : core.width * core.height ≤ u32Max)
      (debt : ∀ rect ∈ core.settleDamage, rect.Inside core.width core.height)
      (inside : ∀ rect ∈ prepared.damage,
        rect.Inside core.width core.height) :
      ∃ next, core.settleFrameDebt pending prepared submissions = .ok next := by
    obtain ⟨merged, united⟩ :=
      mergeTiledDamage_returns core.damageTile small debt inside
    have added : ∃ next, core.addSettleDebt prepared.damage submissions =
        .ok next := by
      rw [addSettleDebt, united]
      exact ⟨_, rfl⟩
    unfold settleFrameDebt
    split
    · exact ⟨_, rfl⟩
    · split
      -- A fast waveform leaves debt, the slow ones keep it.
      · exact added
      · exact added
      · exact ⟨_, rfl⟩
      · exact ⟨_, rfl⟩
  simp only [presentAccepted, recorded, copied, Res.mapError_ok, Res.ok_bind]
  exact Res.bind_returns (adds _ small coherent.debt prepares.inside)
    fun _ => ⟨_, rfl⟩

theorem planeAccepted_returns {damage : List Rect}
    (inside : ∀ rect ∈ damage, rect.Inside core.width core.height)
    (decision : RefreshDecision) (submissions : Nat) (now : Duration) :
    ∃ next, core.planeAccepted damage decision submissions now = .ok next := by
  obtain ⟨⟨sameWidth, sameHeight⟩, _⟩ :=
    PixelSurface.shape_eq_iff.mp coherent.presentedShape
  obtain ⟨presented, copied, _⟩ := PixelSurface.copyRegionsFrom_spec damage
    (coherent.presentedShape.trans coherent.workingShape.symm)
    (by rw [sameWidth, sameHeight]; exact inside)
  obtain ⟨pixels, lastPartial, recorded⟩ := recordPanelDamage_fields core
    decision damage now
  obtain ⟨merged, united⟩ :=
    mergeTiledDamage_returns core.damageTile small coherent.debt inside
  simp only [planeAccepted, recorded, copied, Res.mapError_ok, Res.ok_bind]
  split
  · exact ⟨_, rfl⟩
  · unfold disarmCleanup
    split
    · exact Res.bind_returns ⟨merged, by rw [← Res.mapError_ok, ← united]; rfl⟩
        fun _ => ⟨_, rfl⟩
    · exact Res.bind_returns ⟨merged, by rw [← Res.mapError_ok, ← united]; rfl⟩
        fun _ => ⟨_, rfl⟩

end

end DisplayCore

theorem updateRefreshConfig_returns (core : DisplayCore)
    (config : RefreshPolicyConfig) :
    core.updateRefreshConfig config ≠ .panic ∧
      ∀ err, core.updateRefreshConfig config = .error err →
        ∃ cause, err = .refreshConfig cause := by
  unfold updateRefreshConfig RefreshPolicy.reconfigure
  cases valid : config.validate with
  | ok value => simp [Res.mapError]
  | error cause => simp [Res.mapError]
  | panic =>
      unfold RefreshPolicyConfig.validate at valid
      split at valid
      · cases valid
      · split at valid
        · cases valid
        · split at valid <;> cases valid

section

variable {world : World} (coherent : Coherent world.core)
  (small : world.core.width * world.core.height ≤ u32Max) {timing : Timing}

include coherent small

/-- Presenting the pending frame returns. -/
theorem tickInner_returns (ignoreDeadline : Bool) :
    (tickInner timing ignoreDeadline).Returns world fun _ => False := by
  simp only [tickInner, returns_getCore]
  split
  · exact Proc.returns_pure
  · rename_i pending isPending
    split
    · exact Proc.returns_pure
    · simp only [returns_pump]
      split
      · simp only [returns_setCore]
        exact Proc.returns_pure
      · obtain ⟨prepared, prepares⟩ := prepareFrame_returns coherent small
          (coherent.hint pending isPending)
        have spec := (prepareFrame_spec coherent
          (coherent.hint pending isPending)).of_ok prepares
        simp only [returns_setCore]
        refine Proc.returns_ofRes_bind prepared prepares ?_
        simp only [presentFrame, returns_getCore]
        split
        · simp only [returns_setCore]
          exact Proc.returns_pure
        · simp only [returns_submit]
          split
          · simp only [returns_setCore]
            exact Proc.returns_pure
          · rename_i metrics accepts
            obtain ⟨next, presents⟩ := presentAccepted_returns coherent
              small spec metrics.physicalSubmissions timing.now
            refine Proc.returns_ofRes_bind next ?_ ?_
            · rw [presentAccepted_taken]
              exact presents
            · simp only [returns_setCore]
              exact Proc.returns_pure

theorem requestCleanup_returns :
    (requestCleanup timing).Returns world fun _ => False := by
  have armedCoherent : Coherent world.core.requireCleanup :=
    (@Adjusts.armed world.core).coherent coherent
  simp only [requestCleanup, returns_getCore, returns_setCore]
  split
  · exact Proc.returns_bind (@tickInner_returns
      ⟨world.core.requireCleanup, world.panel⟩ armedCoherent small timing true)
      fun _ _ _ => Proc.returns_pure
  · split
    · exact Proc.returns_pure
    · simp only [resubmitPresented, returns_pump]
      split
      · simp only [cleanupFailed, returns_getCore, returns_setCore]
        exact Proc.returns_pure
      · simp only [returns_getCore, returns_submit]
        split
        · simp only [cleanupFailed, returns_getCore, returns_setCore]
          exact Proc.returns_pure
        · simp only [returns_setCore]
          exact Proc.returns_pure

theorem tickInteractive_returns (idle : Bool) :
    (tickInteractive timing idle).Returns world fun _ => False := by
  simp only [tickInteractive, returns_getCore]
  split
  · refine Proc.returns_bind (requestCleanup_returns coherent small) ?_
    intro report between _
    simp only [returns_getCore, returns_setCore]
    exact Proc.returns_pure
  · exact tickInner_returns coherent small false

theorem changeRefreshProfile_returns (config : RefreshPolicyConfig) :
    (changeRefreshProfile config timing).Returns world fun err =>
      ∃ cause, err = .refreshConfig cause := by
  obtain ⟨noPanic, onlyConfig⟩ :=
    updateRefreshConfig_returns world.core config
  simp only [changeRefreshProfile, returns_getCore]
  cases updates : world.core.updateRefreshConfig config with
  | ok result =>
      obtain ⟨changed, configured⟩ := result
      have configuredCoherent : Coherent configured :=
        (Adjusts.configured updates).coherent coherent
      have configuredSmall : configured.width * configured.height ≤ u32Max := by
        obtain ⟨_, _, _, _, _, _, rfl⟩ := (Adjusts.configured updates).frame
        exact small
      refine Proc.returns_ofRes_bind (changed, configured) rfl ?_
      simp only [returns_setCore]
      split
      · exact Proc.returns_bind
          ((@requestCleanup_returns ⟨configured, world.panel⟩ configuredCoherent
            configuredSmall timing).mono
            fun _ => False.elim) fun _ _ _ => Proc.returns_pure
      · exact Proc.returns_pure
  | error err =>
      refine ⟨.error err, world, ?_, ?_⟩
      · exact Proc.runs_ofRes_bind.mpr (.inr ⟨err, rfl, rfl, rfl⟩)
      · rintro other same
        cases same
        exact onlyConfig err updates
  | panic => exact absurd updates noPanic

end

theorem WellDriven.small {width height : Nat} {format : PixelFormat}
    {world : World} (driven : WellDriven width height format world)
    (small : width * height ≤ u32Max) :
    world.core.width * world.core.height ≤ u32Max := by
  rw [driven.sizes.1, driven.sizes.2]
  exact small

section

variable {width height : Nat} {format : PixelFormat} {world : World}
  (driven : WellDriven width height format world)
  (small : width * height ≤ u32Max) {timing : Timing}

include driven small

omit small in
theorem redraws_of_wellDriven (intent : FrameIntent) :
    ∃ drawn damage, world.core.drawnPlane intent = .ok (drawn, damage) := by
  obtain ⟨sameWidth, sameHeight⟩ := driven.sizes
  refine drawnPlane_of_inside driven.coherent ?_
  unfold planeArea takePlaneRegions
  split
  · simp only [LocalOverlay.takeDirty]
    intro rect member
    rw [sameWidth, sameHeight]
    exact driven.dirty rect (by simpa using member)
  · exact full_inside world.core

/-- Drawing a plane fails only if the panel refuses it. -/
theorem drawPlane_returns (intent : FrameIntent) :
    (drawPlane timing intent).Returns world fun err => err = .panel := by
  obtain ⟨sameWidth, sameHeight⟩ := driven.sizes
  have coherent := driven.coherent
  obtain ⟨core, panel⟩ := world
  simp only [drawPlane, returns_getCore, returns_setCore]
  change Proc.Returns (if (core.planeArea intent).isEmpty = true then _ else _)
    (⟨core.planeTaken intent, panel⟩ : World) _
  split
  · exact Proc.returns_pure
  · rename_i someArea
    obtain ⟨drawn, damage, draws⟩ := redraws_of_wellDriven driven intent
    have spec := drawnPlane_spec coherent draws
    have whole := draws
    unfold drawnPlane at draws
    dsimp only at draws
    rw [if_neg someArea] at draws
    obtain ⟨working, redrawn, draws⟩ := Res.bind_eq_ok.mp draws
    obtain ⟨found, computed, stored⟩ := Res.bind_eq_ok.mp draws
    cases stored
    refine Proc.returns_ofRes_bind working redrawn ?_
    rw [returns_setCore]
    refine Proc.returns_ofRes_bind damage computed ?_
    split
    · exact Proc.returns_pure
    · have drawnCoherent := coherent_drawn coherent spec
      obtain ⟨drawnWidth, drawnHeight⟩ := width_drawn spec
      have inside := (submittedDamage_spec intent
        (by rw [drawnWidth, drawnHeight]; exact spec.inside)).1
      simp only [submitPlane, returns_getCore, returns_submit]
      split
      · exact Proc.returns_throw rfl
      · rename_i metrics accepts
        obtain ⟨next, presents⟩ := planeAccepted_returns drawnCoherent
          (by
            rw [drawnWidth, drawnHeight]
            change core.width * core.height ≤ _
            simp only at sameWidth sameHeight
            rw [sameWidth, sameHeight]
            exact small)
          inside _ metrics.physicalSubmissions timing.now
        exact Proc.returns_ofRes_bind next presents Proc.returns_modify

theorem presentPlane_returns (intent : FrameIntent) :
    (presentPlane timing intent).Returns world fun err => err = .panel := by
  have draws {between : World} {terminals : List TerminalFrame}
      (betweenDriven : WellDriven width height format between) :
      (do
        drawPlane timing intent
        pure terminals : CoreProc (List TerminalFrame)).Returns between
          fun err => err = .panel :=
    Proc.returns_bind (drawPlane_returns betweenDriven small intent)
      fun _ _ _ => Proc.returns_pure
  simp only [presentPlane, returns_getCore]
  split
  · refine Proc.returns_bind
      ((tickInner_returns driven.coherent (driven.small small) true).mono fun _ => False.elim) ?_
    intro terminals between ticked
    obtain ⟨_, _, steps⟩ := tickInner_steps driven.coherent ticked
    refine draws (steps.keeps (fun world => WellDriven width height format world)
      ?_ driven)
    intro world next action given presents step driven
    refine step.wellDriven ?_ driven
    rcases presents with ⟨rfl, _⟩ | rfl <;> trivial
  · exact draws driven

end

/-- The frame came out of the validation for a surface of this size. -/
def ValidatedFor (width height : Nat) (format : PixelFormat)
    (frame : ValidatedFrame) : Prop :=
  ∃ codecs source surface,
    (surface.width = width ∧ surface.height = height) ∧
      surface.pixelFormat = format ∧
      validateAndDecodeFrame codecs source surface = .ok frame

namespace CoreOp

/-- An operation of the core on validated frames.  Edits belong to the planes,
whose callers get their errors. -/
def Admissible (width height : Nat) (format : PixelFormat) : CoreOp → Prop
  | .commit frame _ _ _ => ValidatedFor width height format frame
  | .edit _ _ => False
  | _ => True

/-- The errors an operation may return.  None is an error of a surface. -/
def Fails : CoreOp → CoreError → Prop
  | .commit _ _ _ _, err =>
      err = .settledBarrier ∨ err = .badFrameId ∨ err = .needKeyframe
  | .presentOverlay _, err | .presentInk _, err => err = .panel
  | .changeRefreshProfile _ _, err | .updateRefreshConfig _, err
  | .restoreRefreshDebt _, err => ∃ cause, err = .refreshConfig cause
  | _, _ => False

end CoreOp

section

variable {world : World}

/-- A function on the core alone that returns. -/
theorem onCore_returns {α : Type} {reply : α → CoreReply}
    {operation : DisplayCore → Res CoreError (α × DisplayCore)}
    {allowed : CoreError → Prop}
    (noPanic : operation world.core ≠ .panic)
    (onlyAllowed : ∀ err, operation world.core = .error err → allowed err) :
    (onCore reply operation).Returns world allowed := by
  simp only [onCore, returns_getCore]
  cases computed : operation world.core with
  | ok result =>
      refine Proc.returns_ofRes_bind result rfl ?_
      simp only [returns_setCore]
      exact Proc.returns_pure
  | error err =>
      refine ⟨.error err, world, ?_, ?_⟩
      · exact Proc.runs_ofRes_bind.mpr (.inr ⟨err, rfl, rfl, rfl⟩)
      · rintro other same
        cases same
        exact onlyAllowed err computed
  | panic => exact absurd computed noPanic

end

theorem applies_of_validatedFor {core : DisplayCore} {frame : ValidatedFrame}
    (validated : ValidatedFor core.width core.height core.base.format frame) :
    frame.pixelFormat = core.base.format ∧
      ∃ base, core.base.applyRegionsAtomic frame.regions = .ok base := by
  obtain ⟨codecs, source, surface, ⟨sameWidth, sameHeight⟩, sameFormat,
    returned⟩ := validated
  have decodes := decodes_of_validate returned
  obtain ⟨bytes, supported, fits⟩ := decodes.fits
  have sameBytes : core.base.bytesPerPixel = bytes := by
    rw [PixelSurface.bytesPerPixel, ← sameFormat, supported, Option.getD_some]
  have valid : validateRegions core.base.width core.base.height
      core.base.bytesPerPixel frame.regions = .ok () := by
    refine PixelSurface.validateRegions_eq_ok.mpr ⟨?_, decodes.apart⟩
    intro region member
    obtain ⟨inside, sized⟩ := fits region member
    rw [sameWidth, sameHeight] at inside
    exact ⟨inside, by rw [sameBytes]; exact sized⟩
  obtain ⟨base, applied, _⟩ := PixelSurface.applyRegionsAtomic_spec valid
  exact ⟨decodes.pixelFormat.trans sameFormat, base, applied⟩

theorem commitTimed_returns {core : DisplayCore} {frame : ValidatedFrame}
    (validated : ValidatedFor core.width core.height core.base.format frame)
    (contentClass : ContentClass) (timing : Timing) (decodeUs : Nat) :
    core.commitTimed frame contentClass timing decodeUs ≠ .panic ∧
      ∀ err, core.commitTimed frame contentClass timing decodeUs = .error err →
        err = .settledBarrier ∨ err = .badFrameId ∨ err = .needKeyframe := by
  obtain ⟨sameFormat, base, applied⟩ := applies_of_validatedFor validated
  unfold commitTimed
  rw [applied]
  split
  · simp
  · split
    · simp
    · rw [if_neg (not_not_intro sameFormat)]
      split
      · simp
      · constructor
        · exact fun impossible => nomatch impossible
        · exact fun _ impossible => nomatch impossible

theorem restoreRefreshDebt_returns (core : DisplayCore) (debt : RefreshDebt) :
    core.restoreRefreshDebt debt ≠ .panic ∧
      ∀ err, core.restoreRefreshDebt debt = .error err →
        ∃ cause, err = .refreshConfig cause := by
  unfold restoreRefreshDebt RefreshPolicy.restoreDebt
  cases valid : debt.validate with
  | ok value => simp [Res.mapError]
  | error cause => simp [Res.mapError]
  | panic =>
      unfold RefreshDebt.validate at valid
      split at valid <;> cases valid

section

variable {width height : Nat} {format : PixelFormat} {world : World}
  (driven : WellDriven width height format world)
  (small : width * height ≤ u32Max)

include driven small

/-- No operation of a well driven core panics or fails on its own. -/
theorem returns_of_wellDriven {op : CoreOp}
    (admissible : op.Admissible width height format) :
    op.run.Returns world op.Fails := by
  obtain ⟨sameWidth, sameHeight⟩ := driven.sizes
  have sameFormat : world.core.base.format = format :=
    congrArg (·.2) driven.shape
  have fits := driven.small small
  cases op with
  | commit frame contentClass timing decodeUs =>
      have validated : ValidatedFor world.core.width world.core.height
          world.core.base.format frame := by
        rw [sameWidth, sameHeight, sameFormat]
        exact admissible
      obtain ⟨noPanic, onlyAllowed⟩ :=
        commitTimed_returns validated contentClass timing decodeUs
      exact onCore_returns noPanic onlyAllowed
  | tick timing => exact Proc.returns_map (tickInteractive_returns driven.coherent fits true)
  | tickInteractive timing idle =>
      exact Proc.returns_map (tickInteractive_returns driven.coherent fits idle)
  | tickWithoutIdleCleanup timing =>
      exact Proc.returns_map (tickInner_returns driven.coherent fits false)
  | presentOverlay timing =>
      exact Proc.returns_map (presentPlane_returns driven small .settled)
  | presentInk timing =>
      exact Proc.returns_map (presentPlane_returns driven small .latest)
  | requestCleanup timing =>
      exact Proc.returns_map (requestCleanup_returns driven.coherent fits)
  | changeRefreshProfile config timing =>
      exact Proc.returns_map (changeRefreshProfile_returns driven.coherent fits config)
  | updateRefreshConfig config =>
      obtain ⟨noPanic, onlyConfig⟩ :=
        updateRefreshConfig_returns world.core config
      exact onCore_returns noPanic onlyConfig
  | restoreRefreshDebt debt =>
      obtain ⟨noPanic, onlyConfig⟩ := restoreRefreshDebt_returns world.core debt
      refine @onCore_returns _ Unit (fun _ => .done) _ _ ?_ ?_
      · intro impossible
        cases restores : world.core.restoreRefreshDebt debt with
        | ok next => rw [restores] at impossible; cases impossible
        | error err => rw [restores] at impossible; cases impossible
        | panic => exact noPanic restores
      · intro err failed
        cases restores : world.core.restoreRefreshDebt debt with
        | ok next => rw [restores] at failed; cases failed
        | error cause =>
            rw [restores] at failed
            cases failed
            exact onlyConfig _ restores
        | panic => exact absurd restores noPanic
  | freezePresented | cancelPending =>
      exact onCore_returns (fun impossible => nomatch impossible)
        fun _ impossible => nomatch impossible
  | requireCleanup | setInkWaveform _ =>
      exact @onCore_returns _ Unit (fun _ => .done) _ _
        (fun impossible => nomatch impossible)
        fun _ impossible => nomatch impossible
  | edit plane change => exact admissible.elim

end

/-- What every state of a run guarantees to the panel and to the callers. -/
structure SubmitsWell (setup : CoreSetup) (final : World) : Prop where
  submissions : ∀ submission, .submit submission ∈ final.panel.calls →
    submission.WellFormed setup.width setup.height setup.pixelFormat
  returns : ∀ op : CoreOp,
    op.Admissible setup.width setup.height setup.pixelFormat →
      ∃ output after, coreStep final op output after ∧
        ∀ err, output = .error err → op.Fails err
  /-- A pending frame that is taken gets its terminal. -/
  taken : ∀ pending timing, final.core.pending = some pending →
    ∃ terminal after,
      (tickInner timing true).Runs final (.ok [terminal]) after ∧
        terminal.frameId = pending.frameId

theorem submitsWell_of_run {setup : CoreSetup} {history : List CoreEvent}
    {final : World} (run : CoreRun setup history final)
    (small : setup.width * setup.height < 2 ^ 32)
    (reaches : ∀ event ∈ history,
      event.input.Reaches setup.width setup.height) :
    SubmitsWell setup final := by
  have driven := run.wellDriven reaches
  have fits : setup.width * setup.height ≤ u32Max := Nat.le_pred_of_lt small
  refine ⟨driven.calls, fun op => returns_of_wellDriven driven fits, ?_⟩
  intro pending timing isPending
  obtain ⟨output, after, ran, noError⟩ :=
    @tickInner_returns _ driven.coherent (driven.small fits) timing true
  rcases tickInner_runs driven.coherent ran with
    ⟨_, _, none | ⟨impossible, _⟩⟩ | ⟨terminal, rfl, step⟩
  · rw [isPending] at none
    cases none
  · cases impossible
  · refine ⟨terminal, after, ran, ?_⟩
    cases step with
    | pumpFailed same | unchanged same | refused same | accepted same =>
        rw [isPending] at same
        cases same
        rfl

/-- A frame, a pen dot and a refused menu, then a cleanup of the surface. -/
theorem submitsWell_after_cleanup :
    ∃ history final,
      CoreRun (.gray 2 1 (fun _ => true)
        fun call => if call = 3 then none else some { }) history final ∧
      final.panel.calls.length = 6 ∧
      SubmitsWell (.gray 2 1 (fun _ => true)
        fun call => if call = 3 then none else some { }) final := by
  have replayed : ((CoreSetup.gray 2 1 (fun _ => true)
      fun call => if call = 3 then none else some { }).replay
      [.requestCleanup { now := .ofSecs 5 },
        .presentOverlay { now := .ofSecs 4 },
        .edit .menu (.replacePlanes [0, 0] [255, 0]),
        .presentInk { now := .ofSecs 3 },
        .edit .ink (.inkLine (1, 0) (1, 0) 0 false),
        .tick { now := .ofSecs 2 },
        .commit (grayFrame 1 0 .latest ⟨0, 0, 2, 1⟩ [10, 20]) .textUi
          { now := .ofSecs 1 } 0]).map (fun result =>
        (result.2.panel.calls.length, result.1.all fun event =>
          decide (event.input.Reaches 2 1))) =
      some (6, true) := by decide +kernel
  obtain ⟨⟨history, final⟩, replayed, facts⟩ :=
    Option.map_eq_some_iff.mp replayed
  simp only [Prod.mk.injEq, List.all_eq_true, decide_eq_true_eq] at facts
  have run := CoreSetup.run_of_replay replayed
  exact ⟨history, final, run, facts.1,
    submitsWell_of_run run (by decide) facts.2⟩

end RmDisplay.Core
