import RmDisplay.Core.Lineage

/-!
# Incremental rendering

On a panel that never fails the incremental updates of the surfaces refine
full rendering: the presented picture is the composition over the presented
base, except where an edit of a plane still waits to be presented.  Two dirty
regions carry this through a run: where the base is ahead of the presented
base, and where the planes are ahead of the presented picture.
-/

namespace RmDisplay.Core

open Foundation Protocol DisplayCore Foundation.Picture

namespace DisplayCore

/-- Where the pending presentation says the base may have changed. -/
def hintRegion (self : DisplayCore) : Set Place :=
  region ((self.pending.map (·.damageHint)).getD [])

/-- Where pen strokes were drawn since ink was presented. -/
def inkRegion (self : DisplayCore) : Set Place := region self.ink.dirty.toList

@[simp] theorem hintRegion_none {self : DisplayCore}
    (idle : self.pending = none) : self.hintRegion = ∅ := by
  simp [hintRegion, idle]

theorem hintRegion_some {self : DisplayCore} {pending : PendingPresentation}
    (isPending : self.pending = some pending) :
    self.hintRegion = region pending.damageHint := by
  simp [hintRegion, isPending]

theorem composition_eq {core next : DisplayCore}
    (samePlanes : next.overlay = core.overlay ∧
      next.peerOverlay = core.peerOverlay ∧ next.ink.blended = core.ink.blended)
    (sameShape : next.base.shape = core.base.shape) :
    next.composition = core.composition := by
  obtain ⟨sameOverlay, samePeer, sameInk⟩ := samePlanes
  obtain ⟨⟨sameWidth, _⟩, sameFormat⟩ := PixelSurface.shape_eq_iff.mp sameShape
  funext picture
  unfold composition
  rw [sameOverlay, samePeer, sameInk, sameFormat, width, width, sameWidth]

theorem hint_subset_composedArea {core : DisplayCore}
    {pending : PendingPresentation} {prepared : Prepared}
    (coherent : Coherent core)
    (hint : ∀ rect ∈ pending.damageHint, rect.Inside core.width core.height) :
    region pending.damageHint ⊆ core.composedArea pending prepared := by
  refine subset_trans ?_
    (subset_composedArea (composeRegions_inside coherent hint))
  rintro p ⟨rect, member, covered⟩
  unfold composeRegions
  split
  · exact mem_region.mpr (covered_append.mpr (.inl
      (mem_region_fullDamage.mpr ((hint rect member).bounds covered))))
  · exact mem_region.mpr (covered_append.mpr (.inl ⟨rect, member, covered⟩))

end DisplayCore

/-- The dirty regions of a core: what waits for `present_overlay` lies in
`menu`, and pen strokes wait only if `ink`. -/
structure Rendered (menu : Set Place) (ink : Prop) (core : DisplayCore) :
    Prop where
  coherent : Coherent core
  same : core.working = core.presented
  stale : AgreeOff core.hintRegion core.base.picture core.presentedBase.picture
  shown : AgreeOff (menu ∪ core.inkRegion) core.presented.picture
    (core.composition core.presentedBase.picture)
  clean : core.ink.dirty ≠ none → ink

namespace Rendered

variable {menu : Set Place} {ink : Prop} {core next : DisplayCore}

/-- Without anything waiting, the presented picture is the composition. -/
theorem complete (rendered : Rendered ∅ False core) :
    core.working = core.presented ∧
      core.presented.picture =
        core.composition core.presentedBase.picture ∧
      ∀ p, core.base.picture p ≠ core.presentedBase.picture p →
        ∃ pending ∈ core.pending, p ∈ region pending.damageHint := by
  have noInk : core.ink.dirty = none := by
    by_contra dirty
    exact rendered.clean dirty
  have nothing : ∅ ∪ core.inkRegion = ∅ := by
    simp [DisplayCore.inkRegion, noInk]
  refine ⟨rendered.same, (nothing ▸ rendered.shown).eq_of_empty, ?_⟩
  intro p differ
  have inHint : p ∈ core.hintRegion := by
    by_contra outside
    exact differ (rendered.stale p outside)
  cases isPending : core.pending with
  | none => simp [isPending] at inHint
  | some pending =>
      rw [hintRegion_some isPending] at inHint
      exact ⟨pending, rfl, inHint⟩

theorem mono {wider : Set Place} {wider' : Prop}
    (rendered : Rendered menu ink core) (menus : menu ⊆ wider)
    (inks : ink → wider') : Rendered wider wider' core :=
  ⟨rendered.coherent, rendered.same, rendered.stale,
    rendered.shown.mono (Set.union_subset_union_left _ menus),
    fun dirty => inks (rendered.clean dirty)⟩

/-- Whatever touches neither surfaces nor planes keeps the picture. -/
theorem transfer (rendered : Rendered menu ink core) (coherent : Coherent next)
    (sameBase : next.base = core.base)
    (samePlanes : next.overlay = core.overlay ∧
      next.peerOverlay = core.peerOverlay ∧ next.ink = core.ink)
    (sameSurfaces : next.presented = core.presented ∧
      next.working = core.working ∧ next.presentedBase = core.presentedBase)
    (samePending : next.pending = core.pending) : Rendered menu ink next := by
  obtain ⟨sameOverlay, samePeer, sameInk⟩ := samePlanes
  obtain ⟨samePresented, sameWorking, samePresentedBase⟩ := sameSurfaces
  have sameComposition := composition_eq
    ⟨sameOverlay, samePeer, congrArg LocalOverlay.blended sameInk⟩
    (congrArg PixelSurface.shape sameBase)
  refine ⟨coherent, ?_, ?_, ?_, ?_⟩
  · rw [sameWorking, samePresented]
    exact rendered.same
  · rw [hintRegion, samePending, sameBase, samePresentedBase]
    exact rendered.stale
  · rw [inkRegion, sameInk, sameComposition, samePresented, samePresentedBase]
    exact rendered.shown
  · rw [sameInk]
    exact rendered.clean

end Rendered

theorem Rendered.of_frame {menu : Set Place} {ink : Prop}
    {core : DisplayCore} {pending : PendingPresentation} {prepared : Prepared}
    (rendered : Rendered menu ink core)
    (isPending : core.pending = some pending)
    (spec : core.Prepares pending prepared) :
    AgreeOff (region prepared.damage) prepared.working.picture
        core.presented.picture ∧
      AgreeOff (menu ∪ core.inkRegion) prepared.working.picture
        (core.composition core.base.picture) := by
  have painted := spec.painted
  rw [rendered.same] at painted
  constructor
  · intro p outside
    by_cases composed : p ∈ core.composedArea pending prepared
    · by_contra differ
      exact outside (spec.covers p composed fun same => differ same.symm)
    · rw [painted, paint_of_not_mem composed]
  · intro p outside
    by_cases composed : p ∈ core.composedArea pending prepared
    · rw [painted, paint_of_mem composed]
    · rw [painted, paint_of_not_mem composed]
      refine (rendered.shown p outside).trans (composition_congr ?_)
      refine (rendered.stale p fun inHint => composed ?_).symm
      rw [hintRegion_some isPending] at inHint
      exact hint_subset_composedArea rendered.coherent
        (rendered.coherent.hint pending isPending) inHint

theorem FrameStep.rendered {menu : Set Place} {ink : Prop} {timing : Timing}
    {before after : World} {terminal : TerminalFrame}
    (step : FrameStep timing before terminal after)
    (reliable : before.panel.Reliable)
    (rendered : Rendered menu ink before.core) :
    Rendered menu ink after.core := by
  have coherent := step.coherent rendered.coherent
  cases step with
  | pumpFailed _ failed =>
      have pumps := reliable.pumped
      rw [failed] at pumps
      cases pumps
  | refused _ _ _ _ refuses =>
      exact absurd refuses reliable.afterPump.submitted
  | unchanged isPending _ prepares nothing =>
      have spec := (prepareFrame_spec rendered.coherent
        (rendered.coherent.hint _ isPending)).of_ok prepares
      obtain ⟨damaged, shown⟩ := rendered.of_frame isPending spec
      rw [nothing, region_nil] at damaged
      have same := PixelSurface.ext_picture
        (spec.shape.trans rendered.coherent.presentedShape.symm)
        damaged.eq_of_empty
      refine ⟨coherent, same, AgreeOff.refl _ _, ?_, rendered.clean⟩
      rw [same] at shown
      exact shown
  | accepted isPending _ prepares _ _ presents =>
      have spec := (prepareFrame_spec rendered.coherent
        (rendered.coherent.hint _ isPending)).of_ok prepares
      obtain ⟨damaged, shown⟩ := rendered.of_frame isPending spec
      obtain ⟨working, _, _, copied, _, rfl⟩ := presentAccepted_eq_ok presents
      obtain ⟨workingShape, workingPicture⟩ :=
        presentAccepted_surfaces rendered.coherent spec copied
      have same := PixelSurface.ext_picture
        (workingShape.trans spec.shape.symm)
        (workingPicture.trans damaged.paint_eq)
      refine ⟨coherent, same, ?_, ?_, ?_⟩
      · simp only [base_submitted]
        exact AgreeOff.refl _ _
      · simpa [inkRegion, composition, width] using shown
      · simpa using rendered.clean

theorem DisplayCore.picture_outside {core : DisplayCore}
    {surface : PixelSurface} (sameShape : surface.shape = core.base.shape)
    {p : Place} (outside : p ∉ region (fullDamage core.width core.height)) :
    surface.picture p = [] := by
  obtain ⟨⟨sameWidth, sameHeight⟩, _⟩ := PixelSurface.shape_eq_iff.mp sameShape
  refine PixelSurface.picture_outside fun inside => outside ?_
  rw [sameWidth, sameHeight] at inside
  exact mem_region_fullDamage.mpr inside

/-- What still waits after a plane was drawn: ink takes its strokes, the menu
takes everything of the menu. -/
def menuAfter (intent : FrameIntent) (menu : Set Place) : Set Place :=
  {p | intent = .latest ∧ p ∈ menu}

def inkAfter (intent : FrameIntent) (ink : Prop) : Prop :=
  intent ≠ .latest ∧ ink

namespace Rendered

variable {menu : Set Place} {ink : Prop} {core : DisplayCore}
  {intent : FrameIntent}

private theorem clean_taken (rendered : Rendered menu ink core) :
    (core.planeTaken intent).ink.dirty ≠ none → inkAfter intent ink := by
  unfold planeTaken takePlaneRegions
  split
  · exact fun dirty => absurd rfl dirty
  · rename_i notInk
    exact fun dirty => ⟨notInk, rendered.clean dirty⟩

private theorem shown_taken (rendered : Rendered menu ink core)
    {surface : PixelSurface} (sameShape : surface.shape = core.base.shape)
    (agree : AgreeOff ((menu ∪ core.inkRegion) \ region (core.planeArea intent))
      surface.picture (core.composition core.presentedBase.picture)) :
    AgreeOff (menuAfter intent menu ∪ (core.planeTaken intent).inkRegion)
      surface.picture (core.composition core.presentedBase.picture) := by
  by_cases isInk : intent = .latest
  · refine agree.mono ?_
    rintro p ⟨inMenu | inInk, notDrawn⟩
    · exact .inl ⟨isInk, inMenu⟩
    · refine absurd inInk ?_
      simpa [planeArea, takePlaneRegions, isInk, LocalOverlay.takeDirty,
        inkRegion] using notDrawn
  · intro p outside
    by_cases inside : p ∈ region (fullDamage core.width core.height)
    · refine agree p fun waits => waits.2 ?_
      simpa [planeArea, takePlaneRegions, isInk] using inside
    · simp [picture_outside sameShape inside, composition, LocalOverlay.blended,
        picture_outside rendered.coherent.presentedBaseShape inside]

private theorem of_drawn (rendered : Rendered menu ink core)
    (idle : core.pending = none) {drawn : DisplayCore} {damage : List Rect}
    (spec : Draws core intent drawn damage) :
    AgreeOff (region damage) drawn.working.picture core.presented.picture ∧
      AgreeOff (menuAfter intent menu ∪ (core.planeTaken intent).inkRegion)
        drawn.working.picture
        (core.composition core.presentedBase.picture) := by
  have painted := spec.painted
  have stale := rendered.stale
  rw [hintRegion_none idle] at stale
  rw [rendered.same, stale.eq_of_empty] at painted
  constructor
  · intro p outside
    by_cases redrawn : p ∈ region (core.planeArea intent)
    · by_contra differ
      exact outside (spec.covers p redrawn fun same => differ same.symm)
    · rw [painted, paint_of_not_mem redrawn]
  · refine rendered.shown_taken spec.shape ?_
    rw [painted]
    exact rendered.shown.paint_source

private theorem of_redrawn {next : DisplayCore}
    (rendered : Rendered menu ink core) (coherent : Coherent next)
    (frame : next.base = core.base ∧
      next.presentedBase = core.presentedBase ∧ next.pending = core.pending)
    (planes : next.overlay = core.overlay ∧
      next.peerOverlay = core.peerOverlay ∧
      next.ink = (core.planeTaken intent).ink)
    (same : next.working = next.presented)
    (shown : AgreeOff
      (menuAfter intent menu ∪ (core.planeTaken intent).inkRegion)
      next.presented.picture
      (core.composition core.presentedBase.picture)) :
    Rendered (menuAfter intent menu) (inkAfter intent ink) next := by
  obtain ⟨sameBase, samePresentedBase, samePending⟩ := frame
  obtain ⟨sameOverlay, samePeer, sameInk⟩ := planes
  have sameComposition : next.composition = core.composition :=
    composition_eq ⟨sameOverlay, samePeer, by rw [sameInk, blended_planeTaken]⟩
      (by rw [sameBase])
  refine ⟨coherent, same, ?_, ?_, ?_⟩
  · rw [hintRegion, samePending, sameBase, samePresentedBase]
    exact rendered.stale
  · rw [inkRegion, sameInk, sameComposition, samePresentedBase]
    exact shown
  · rw [sameInk]
    exact rendered.clean_taken

end Rendered

theorem drawnPlane_error {core : DisplayCore} {intent : FrameIntent}
    {err : SurfaceError} (coherent : Coherent core)
    (fails : core.drawnPlane intent = .error err) :
    region (core.planeArea intent) = ∅ := by
  rcases planeArea_cases coherent intent with none | ⟨rect, one, inside | empty⟩
  · rw [none, region_nil]
  · have insideTaken : rect.Inside (core.planeTaken intent).width
        (core.planeTaken intent).height := by simpa using inside
    obtain ⟨working, redrawn, _⟩ :=
      redrawPlanes_spec (coherent_planeTaken coherent intent) insideTaken
    rw [← one] at redrawn
    have someArea : core.planeArea intent ≠ [] := by simp [one]
    obtain ⟨damage, computed, _⟩ := redrawn_spec coherent someArea redrawn
    unfold drawnPlane at fails
    dsimp only at fails
    rw [if_neg (by simpa using someArea), redrawn, Res.ok_bind, computed]
      at fails
    cases fails
  · rw [one, empty]

theorem DisplayCore.Draws.frame {core drawn : DisplayCore}
    {intent : FrameIntent} {damage : List Rect}
    (draws : Draws core intent drawn damage) :
    (drawn.base = core.base ∧ drawn.presentedBase = core.presentedBase ∧
        drawn.pending = core.pending) ∧
      (drawn.overlay = core.overlay ∧ drawn.peerOverlay = core.peerOverlay ∧
        drawn.ink = (core.planeTaken intent).ink) ∧
      drawn.presented = core.presented := by
  rw [draws.taken]
  obtain ⟨_, taken⟩ := planeTaken_frame core intent
  rw [taken]
  exact ⟨⟨rfl, rfl, rfl⟩, ⟨rfl, rfl, rfl⟩, rfl⟩

theorem PlaneStep.rendered {menu : Set Place} {ink : Prop} {timing : Timing}
    {intent : FrameIntent} {before after : World}
    {output : Except CoreError Unit}
    (step : PlaneStep timing intent before output after)
    (reliable : before.panel.Reliable) (idle : before.core.pending = none)
    (rendered : Rendered menu ink before.core) :
    Rendered (menuAfter intent menu) (inkAfter intent ink) after.core := by
  have coherent := step.coherent rendered.coherent
  cases step with
  | @failed core panel err fails =>
      have shown := rendered.shown_taken rendered.coherent.presentedShape (by
        rw [drawnPlane_error rendered.coherent fails, Set.sdiff_empty]
        exact rendered.shown)
      have same : (core.planeTaken intent).working =
          (core.planeTaken intent).presented := by
        rw [working_planeTaken, presented_planeTaken]
        exact rendered.same
      obtain ⟨_, taken⟩ := planeTaken_frame core intent
      refine rendered.of_redrawn coherent ?_ ?_ same ?_
      · rw [taken]
        exact ⟨rfl, rfl, rfl⟩
      · rw [taken]
        exact ⟨rfl, rfl, rfl⟩
      · rw [presented_planeTaken]
        exact shown
  | @unchanged core drawn panel draws =>
      have spec := drawnPlane_spec rendered.coherent draws
      obtain ⟨damaged, shown⟩ := rendered.of_drawn idle spec
      obtain ⟨frame, planes, samePresented⟩ := spec.frame
      rw [region_nil] at damaged
      have same := PixelSurface.ext_picture
        (spec.shape.trans rendered.coherent.presentedShape.symm)
        damaged.eq_of_empty
      refine rendered.of_redrawn coherent frame planes ?_ ?_
      · rw [samePresented]
        exact same
      · rw [samePresented, ← same]
        exact shown
  | refused _ _ refuses => exact absurd refuses reliable.submitted
  | @accepted core drawn next panel damage metrics draws damaged accepts
      presents =>
      have spec := drawnPlane_spec rendered.coherent draws
      obtain ⟨changed, shown⟩ := rendered.of_drawn idle spec
      obtain ⟨frame, planes, samePresented⟩ := spec.frame
      obtain ⟨sameWidth, sameHeight⟩ := width_drawn spec
      obtain ⟨inside, covers⟩ := submittedDamage_spec intent (by
        rw [sameWidth, sameHeight]
        exact spec.inside)
      obtain ⟨presented, _, _, copied, _, rfl⟩ := planeAccepted_eq_ok presents
      obtain ⟨presentedShape, presentedPicture⟩ :=
        planeAccepted_surfaces (coherent_drawn rendered.coherent spec) inside
          copied
      rw [samePresented, (changed.mono covers).paint_eq] at presentedPicture
      have same : drawn.working = presented := PixelSurface.ext_picture
        (by rw [spec.shape, presentedShape, frame.1]) presentedPicture.symm
      refine rendered.of_redrawn coherent (by simpa using frame)
        (by simpa using planes) (by simpa using same) ?_
      rw [same] at shown
      exact shown

theorem Rendered.commit {menu : Set Place} {ink : Prop}
    {core next : DisplayCore} {frame : ValidatedFrame}
    {contentClass : ContentClass} {timing : Timing} {decodeUs : Nat}
    {report : CommitReport} (rendered : Rendered menu ink core)
    (commits : core.commitTimed frame contentClass timing decodeUs =
      .ok (report, next)) : Rendered menu ink next := by
  have coherent := coherent_commit rendered.coherent commits
  obtain ⟨_, _, _, _, _, base, applied, isNext⟩ := commitTimed_eq_ok commits
  obtain ⟨_, appliedAgain, sameShape, painted⟩ :=
    PixelSurface.applyRegionsAtomic_spec
      (PixelSurface.valid_of_applyRegionsAtomic applied)
  rw [applied] at appliedAgain
  cases appliedAgain
  have sameComposition : next.composition = core.composition :=
    composition_eq (by rw [isNext]; exact ⟨rfl, rfl, rfl⟩)
      (by rw [isNext]; exact sameShape)
  subst isNext
  refine ⟨coherent, rendered.same, ?_, ?_, rendered.clean⟩
  · intro p outside
    simp only [hintRegion, Option.map_some, Option.getD_some, nextPending,
      region_append, Set.mem_union, not_or] at outside
    simp only
    rw [painted, PixelSurface.paintRegions_of_not_covered outside.1]
    exact rendered.stale p outside.2
  · rw [sameComposition]
    exact rendered.shown

theorem Rendered.freeze {menu : Set Place} {ink : Prop} {core : DisplayCore}
    (rendered : Rendered menu ink core) :
    Rendered menu ink core.freezePresented.2 := by
  have sameComposition : core.freezePresented.2.composition =
      core.composition :=
    composition_eq ⟨rfl, rfl, rfl⟩ rendered.coherent.presentedBaseShape
  refine ⟨coherent_freeze rendered.coherent, rendered.same,
    AgreeOff.refl _ _, ?_, rendered.clean⟩
  rw [sameComposition]
  exact rendered.shown

theorem CleanupStep.rendered {menu : Set Place} {ink : Prop} {timing : Timing}
    {before after : World} {report : CleanupReport}
    (step : CleanupStep timing before report after)
    (rendered : Rendered menu ink before.core) :
    Rendered menu ink after.core := by
  have coherent := step.coherent rendered.coherent
  cases step with
  | pumpFailed _ | refused _ _ =>
      exact rendered.transfer coherent rfl ⟨rfl, rfl, rfl⟩ ⟨rfl, rfl, rfl⟩ rfl
  | accepted _ _ =>
      rw [cleanupAccepted_eq] at coherent ⊢
      exact rendered.transfer coherent rfl ⟨rfl, rfl, rfl⟩ ⟨rfl, rfl, rfl⟩ rfl

/-- A pen segment changes the composition only inside the strokes. -/
theorem Rendered.inkLine {menu : Set Place} {ink : Prop}
    {core next : DisplayCore} {origin target : Nat × Nat} {radius : Nat}
    {erase : Bool} (rendered : Rendered menu ink core)
    (edits : core.editPlane .ink (.inkLine origin target radius erase) =
      .ok next) : Rendered menu True next := by
  have coherent := coherent_edit rendered.coherent edits
  obtain ⟨plane, applied, rfl⟩ := editPlane_eq_ok edits
  obtain ⟨rect, isDirty, _, covers, _, unchanged⟩ :=
    LocalOverlay.inkLine_spec applied
  refine ⟨coherent, rendered.same, rendered.stale, ?_, fun _ => trivial⟩
  intro p outside
  simp only [Set.mem_union, not_or, inkRegion, setPlane, isDirty,
    Option.toList_some] at outside
  have notStroke : ¬ rect.Covers p.1 p.2 := by
    simpa using outside.2
  have notOld : p ∉ core.inkRegion := by
    rintro ⟨before, member, covered⟩
    have wasDirty : core.ink.dirty = some before := by simpa using member
    exact notStroke (covers before wasDirty p covered)
  have old := rendered.shown p fun isIn => isIn.elim outside.1 notOld
  simp only [setPlane]
  rw [old]
  by_cases inside : p.1 < core.width
  · exact LocalOverlay.blended_congr
      (unchanged core.base.format _ p inside notStroke).symm
  · have off : p ∉ region (fullDamage core.width core.height) :=
      fun isIn => inside (mem_region_fullDamage.mp isIn).1
    simp [composition, LocalOverlay.blended,
      picture_outside rendered.coherent.presentedBaseShape off]

theorem Rendered.editMenu {menu : Set Place} {ink : Prop}
    {core next : DisplayCore} {id : PlaneId} {change : PlaneEdit}
    (rendered : Rendered menu ink core) (notInk : id ≠ .ink)
    (edits : core.editPlane id change = .ok next) :
    Rendered Set.univ ink next := by
  have coherent := coherent_edit rendered.coherent edits
  obtain ⟨plane, applied, rfl⟩ := editPlane_eq_ok edits
  cases id with
  | ink => exact absurd rfl notInk
  | menu | peer =>
      exact ⟨coherent, rendered.same, rendered.stale,
        fun p outside => absurd (.inl trivial) outside, rendered.clean⟩

namespace CoreOp

/-- The operations of rendering: no frame is abandoned without a freeze, and
ink is only drawn. -/
def Renders : CoreOp → Prop
  | .cancelPending => False
  | .edit .ink (.inkLine _ _ _ _) => True
  | .edit .ink (.replacePlanes _ _) | .edit .ink (.patch _ _ _)
  | .edit .ink .clear => False
  | .commit _ _ _ _ | .tick _ | .tickInteractive _ _
  | .tickWithoutIdleCleanup _ | .presentOverlay _ | .presentInk _
  | .requestCleanup _ | .changeRefreshProfile _ _ | .updateRefreshConfig _
  | .freezePresented | .requireCleanup | .restoreRefreshDebt _
  | .setInkWaveform _ | .edit .menu _ | .edit .peer _ => True

instance (op : CoreOp) : Decidable op.Renders := by
  unfold Renders
  split <;> infer_instance

/-- Does an edit of the menu or the peer overlay wait after the operation? -/
def menuAwaits (op : CoreOp) (output : Except CoreError CoreReply)
    (waiting : Bool) : Bool :=
  match op, output with
  | .edit .menu _, .ok _ | .edit .peer _, .ok _ => true
  | .presentOverlay _, _ => false
  | _, _ => waiting

/-- Do pen strokes wait after the operation? -/
def inkAwaits (op : CoreOp) (output : Except CoreError CoreReply)
    (waiting : Bool) : Bool :=
  match op, output with
  | .edit .ink _, .ok _ => true
  | .presentInk _, _ => false
  | _, _ => waiting

end CoreOp

/-- A menu edit that waits may have changed every place. -/
def waits (waiting : Bool) : Set Place := {_p | waiting = true}

/-- What is known about the core and its panel. -/
structure RenderedWorld (menu ink : Bool) (world : World) : Prop where
  reliable : world.panel.Reliable
  rendered : Rendered (waits menu) (ink = true) world.core

namespace RenderedWorld

variable {menu ink : Bool} {before after : World} {op : CoreOp}
  {output : Except CoreError CoreReply}

theorem coherent (inv : RenderedWorld menu ink before) :
    Coherent before.core := inv.rendered.coherent

private theorem quiet (inv : RenderedWorld menu ink before)
    (noPlane : op.drawing before = none) (noCancel : op ≠ .cancelPending)
    (noEdit : ∀ plane change, op ≠ .edit plane change)
    (stepped : coreStep before op output after) :
    RenderedWorld menu ink after := by
  obtain ⟨_, steps, _⟩ := (accounts_of_coreStep inv.coherent stepped).steps
  refine steps.keeps (RenderedWorld menu ink) ?_ inv
  intro world next action given takes step inv
  refine ⟨step.panel_reliable inv.reliable, ?_⟩
  have coherent := step.coherent inv.coherent
  cases step with
  | commit commits => exact inv.rendered.commit commits
  | cancel => exact absurd takes.2 noCancel
  | freeze => exact inv.rendered.freeze
  | edit edits => exact absurd takes.2 (noEdit _ _)
  | adjust adjusts =>
      obtain ⟨_, _, _, _, _, _, rfl⟩ := adjusts.frame
      exact inv.rendered.transfer coherent rfl ⟨rfl, rfl, rfl⟩ ⟨rfl, rfl, rfl⟩
        rfl
  | present step => exact step.rendered inv.reliable inv.rendered
  | draw step =>
      have drawing := takes.1
      rw [noPlane] at drawing
      cases drawing
  | resubmit _ step => exact step.rendered inv.rendered

private theorem presented (inv : RenderedWorld menu ink before)
    {timing : Timing} {intent : FrameIntent}
    {result : Except CoreError (List TerminalFrame)}
    (runs : (presentPlane timing intent).Runs before result after) :
    after.panel.Reliable ∧ Rendered (menuAfter intent (waits menu))
      (inkAfter intent (ink = true)) after.core := by
  obtain ⟨_, _, flush, plane, _⟩ := presentPlane_runs inv.coherent runs
  have flushed : (flushed timing before).core.pending = none ∧
      RenderedWorld menu ink (flushed timing before) := by
    rcases flush with ⟨idle, _, same⟩ | ⟨terminal, _, step⟩
    · rw [same]
      exact ⟨idle, inv⟩
    · exact ⟨step.idle,
        (CoreStep.present step).panel_reliable inv.reliable,
        step.rendered inv.reliable inv.rendered⟩
  exact ⟨(CoreStep.draw plane).panel_reliable flushed.2.reliable,
    plane.rendered flushed.2.reliable flushed.1 flushed.2.rendered⟩

private theorem present {timing : Timing} {intent : FrameIntent}
    (inv : RenderedWorld menu ink before)
    (stepped : (CoreReply.ticked <$> presentPlane timing intent).Runs before
      output after) :
    after.panel.Reliable ∧ Rendered (menuAfter intent (waits menu))
      (inkAfter intent (ink = true)) after.core := by
  rcases Proc.runs_map.mp stepped with ⟨_, runs, _⟩ | ⟨_, _, runs⟩
  · exact inv.presented runs
  · exact inv.presented runs

/-- What one operation does to what waits. -/
theorem step (inv : RenderedWorld menu ink before) (renders : op.Renders)
    (stepped : coreStep before op output after) :
    RenderedWorld (op.menuAwaits output menu) (op.inkAwaits output ink)
      after := by
  cases op with
  | cancelPending => exact renders.elim
  | presentOverlay timing =>
      obtain ⟨reliable, rendered⟩ := inv.present stepped
      refine ⟨reliable, rendered.mono ?_ ?_⟩
      · rintro p ⟨impossible, _⟩
        cases impossible
      · exact fun waiting => waiting.2
  | presentInk timing =>
      obtain ⟨reliable, rendered⟩ := inv.present stepped
      refine ⟨reliable, rendered.mono ?_ ?_⟩
      · exact fun p waiting => waiting.2
      · exact fun waiting => absurd rfl waiting.1
  | edit plane change =>
      change (onCore (fun _ : Unit => CoreReply.done) _).Runs _ _ _ at stepped
      rcases onCore_runs stepped with ⟨_, next, edits, rfl, rfl⟩ |
        ⟨err, _, rfl, rfl⟩
      · obtain ⟨edited, edits, same⟩ := Res.bind_eq_ok.mp edits
        cases same
        rw [Res.mapError_eq_ok] at edits
        refine ⟨inv.reliable, ?_⟩
        cases plane with
        | menu =>
            exact (inv.rendered.editMenu (by simp) edits).mono
              (fun _ _ => rfl) id
        | peer =>
            exact (inv.rendered.editMenu (by simp) edits).mono
              (fun _ _ => rfl) id
        | ink =>
            cases change with
            | inkLine origin target radius erase =>
                exact (inv.rendered.inkLine edits).mono subset_rfl fun _ => rfl
            | replacePlanes | patch | clear => exact renders.elim
      · cases plane <;> exact inv
  | commit | tick | tickInteractive | tickWithoutIdleCleanup | requestCleanup
  | changeRefreshProfile | updateRefreshConfig | freezePresented
  | requireCleanup | restoreRefreshDebt | setInkWaveform =>
      exact inv.quiet rfl (by simp) (by simp) stepped

end RenderedWorld

/-- Does an edit of the menu or the peer overlay wait for `present_overlay`? -/
def menuWaits : List CoreEvent → Bool
  | [] => false
  | event :: earlier => event.input.menuAwaits event.output (menuWaits earlier)

/-- Do pen strokes wait for `present_ink`? -/
def inkWaits : List CoreEvent → Bool
  | [] => false
  | event :: earlier => event.input.inkAwaits event.output (inkWaits earlier)

/-- Everything rendered at once: the menu over the ink over the peer overlay
over the presented base. -/
def DisplayCore.fullRendering (self : DisplayCore) :
    SurfaceRes PixelSurface := do
  let withPeer ← self.presentedBase.compose self.peerOverlay
  let withInk ← withPeer.compose self.ink
  withInk.compose self.overlay

theorem fullRendering_spec {core : DisplayCore} (coherent : Coherent core) :
    ∃ surface, core.fullRendering = .ok surface ∧
      surface.shape = core.base.shape ∧
      surface.picture = core.composition core.presentedBase.picture := by
  have composes (surface : PixelSurface) (plane : LocalOverlay)
      (sameShape : surface.shape = core.base.shape)
      (sameLen : plane.len = core.width * core.height) :
      ∃ next, surface.compose plane = .ok next ∧
        next.shape = core.base.shape ∧ next.picture =
          plane.blended core.width core.base.format surface.picture := by
    obtain ⟨⟨sameWidth, sameHeight⟩, sameFormat⟩ :=
      PixelSurface.shape_eq_iff.mp sameShape
    obtain ⟨next, composed, nextShape, picture⟩ :=
      PixelSurface.compose_spec surface plane
        (by rw [sameWidth, sameHeight]; exact sameLen)
    rw [sameWidth, sameFormat] at picture
    exact ⟨next, composed, nextShape.trans sameShape, picture⟩
  obtain ⟨withPeer, peerDone, peerShape, peerPicture⟩ :=
    composes core.presentedBase core.peerOverlay coherent.presentedBaseShape
      coherent.peerLen
  obtain ⟨withInk, inkDone, inkShape, inkPicture⟩ :=
    composes withPeer core.ink peerShape coherent.inkLen
  obtain ⟨withMenu, menuDone, menuShape, menuPicture⟩ :=
    composes withInk core.overlay inkShape coherent.overlayLen
  refine ⟨withMenu, by simp [fullRendering, peerDone, inkDone, menuDone],
    menuShape, ?_⟩
  rw [menuPicture, inkPicture, peerPicture]
  rfl

/-- What is presented is rendered fully, over the base of the frame presented
last, and the pending frame knows where the base went on. -/
structure RendersFully (blank : PixelSurface) (history : List CoreEvent)
    (core : DisplayCore) : Prop where
  working : core.working = core.presented
  rendered : core.fullRendering = .ok core.presented
  base : BaseOf blank history core.presentedFrameId core.presentedBase
  ids : (acceptedFrames history).Pairwise fun newer older =>
    older.frameId < newer.frameId
  stale : ∀ p, core.base.picture p ≠ core.presentedBase.picture p →
    ∃ pending ∈ core.pending, p ∈ region pending.damageHint

/-- On a panel that never fails incremental rendering refines full rendering
whenever no edit waits to be presented. -/
theorem rendersFully_of_run {setup : CoreSetup} {history : List CoreEvent}
    {final : World} {first : DisplayCore} (fresh : setup.newCore = .ok first)
    (run : CoreRun setup history final) (reliable : setup.panel.Reliable)
    (renders : ∀ event ∈ history, event.input.Renders)
    (menuDone : menuWaits history = false)
    (inkDone : inkWaits history = false) :
    RendersFully first.base history final.core := by
  have lineage := lineage_of_run run fresh
  have grow := idsGrow_of_run run reliable
  obtain ⟨start, isStart, run⟩ := run
  rw [fresh] at isStart
  cases isStart
  obtain ⟨coherent, blank, _⟩ := newCore_spec fresh
  have atStart : RenderedWorld false false ⟨first, setup.panel⟩ := by
    refine ⟨reliable, coherent, ?_, ?_, ?_, ?_⟩
    · rw [blank.working, blank.presented]
    · simp only [blank.presentedBase]
      exact AgreeOff.refl _ _
    · rw [blank.presented, blank.presentedBase]
      unfold composition
      rw [LocalOverlay.blended_of_transparent blank.peer,
        LocalOverlay.blended_of_transparent blank.ink,
        LocalOverlay.blended_of_transparent blank.overlay]
      exact AgreeOff.refl _ _
    · exact fun dirty => absurd blank.clean dirty
  have inv := Run.keeps (fun history world =>
    RenderedWorld (menuWaits history) (inkWaits history) world) atStart
    (fun _ _ renders stepped inv => inv.step renders stepped) run renders
  rw [menuDone, inkDone] at inv
  have nothing : waits false = ∅ := by simp [waits]
  obtain ⟨same, composed, stale⟩ := (inv.rendered.mono
    (nothing ▸ subset_rfl) (by simp)).complete
  refine ⟨same, ?_, lineage.presented, grow.increasing, stale⟩
  obtain ⟨surface, rendered, sameShape, picture⟩ :=
    fullRendering_spec inv.coherent
  rw [rendered, PixelSurface.ext_picture
    (sameShape.trans inv.coherent.presentedShape.symm)
    (picture.trans composed.symm)]

/-- A menu over the first pixel, a pen stroke on the second, and a frame that
is frozen away. -/
theorem rendersFully_after_freeze :
    ∃ first history final,
      CoreRun (.gray 2 1 (fun _ => true) fun _ => some { }) history final ∧
      final.core.presented.pixels = [40, 0] ∧
      RendersFully first history final.core := by
  have replayed : ((CoreSetup.gray 2 1 (fun _ => true)
      fun _ => some { }).replay
      [.freezePresented,
        .commit (grayFrame 3 2 .latest ⟨0, 0, 2, 1⟩ [30, 30]) .textUi
          { now := .ofSecs 7 } 0,
        .presentInk { now := .ofSecs 6 },
        .edit .ink (.inkLine (1, 0) (1, 0) 0 false),
        .presentOverlay { now := .ofSecs 4 },
        .commit (grayFrame 2 1 .latest ⟨1, 0, 1, 1⟩ [20]) .textUi
          { now := .ofSecs 3 } 0,
        .edit .menu (.patch ⟨0, 0, 1, 1⟩ [40] [255]),
        .tick { now := .ofSecs 2 },
        .commit (grayFrame 1 0 .latest ⟨0, 0, 2, 1⟩ [10, 10]) .textUi
          { now := .ofSecs 1 } 0]).map (fun result =>
        ((result.2.core.presented.pixels, result.1.all fun event =>
          decide event.input.Renders),
          menuWaits result.1, inkWaits result.1)) =
      some (([40, 0], true), false, false) := by decide +kernel
  obtain ⟨⟨history, final⟩, replayed, facts⟩ :=
    Option.map_eq_some_iff.mp replayed
  simp only [Prod.mk.injEq, List.all_eq_true, decide_eq_true_eq] at facts
  obtain ⟨⟨pixels, renders⟩, menuDone, inkDone⟩ := facts
  have run := CoreSetup.run_of_replay replayed
  obtain ⟨first, fresh, _⟩ := id run
  exact ⟨first.base, history, final, run, pixels,
    rendersFully_of_run fresh run ⟨fun _ => rfl, fun _ => rfl⟩ renders
      menuDone inkDone⟩

end RmDisplay.Core
