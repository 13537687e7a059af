import RmDisplay.Core.Operations
import RmDisplay.Core.OverlaySpec

/-!
# What the core composes

`Coherent` says that the surfaces, planes and rectangles of a core fit
together.  In a coherent core nothing that prepares or records a presentation
returns an error, and the pictures are what the planes make of the base:
`composition` is the menu over the ink over the peer overlay over a picture.
-/

namespace RmDisplay.Core

open Foundation Protocol Foundation.Picture

/-- The surfaces have one shape, the planes its size, and all rectangles lie on
it.  A dirty rectangle may be empty, if a segment only touched the edge. -/
structure Coherent (core : DisplayCore) : Prop where
  overlayLen : core.overlay.len = core.width * core.height
  peerLen : core.peerOverlay.len = core.width * core.height
  inkLen : core.ink.len = core.width * core.height
  presentedShape : core.presented.shape = core.base.shape
  workingShape : core.working.shape = core.base.shape
  presentedBaseShape : core.presentedBase.shape = core.base.shape
  hint : ∀ pending ∈ core.pending, ∀ rect ∈ pending.damageHint,
    rect.Inside core.width core.height
  debt : ∀ rect ∈ core.settleDamage, rect.Inside core.width core.height
  tile : 0 < core.damageTile
  dirty : ∀ rect ∈ core.ink.dirty, rect.x + rect.width ≤ core.width ∧
    rect.y + rect.height ≤ core.height

/-- Coherence only depends on the surfaces, planes and rectangles. -/
theorem Coherent.transfer {core next : DisplayCore} (coherent : Coherent core)
    (sameBase : next.base = core.base)
    (samePlanes : next.overlay = core.overlay ∧
      next.peerOverlay = core.peerOverlay ∧ next.ink = core.ink)
    (sameSurfaces : next.presented = core.presented ∧
      next.working = core.working ∧ next.presentedBase = core.presentedBase)
    (samePending : next.pending = core.pending ∨ next.pending = none)
    (sameDebt : next.settleDamage = core.settleDamage ∨ next.settleDamage = [])
    (someTile : 0 < next.damageTile) : Coherent next := by
  obtain ⟨sameOverlay, samePeer, sameInk⟩ := samePlanes
  obtain ⟨samePresented, sameWorking, samePresentedBase⟩ := sameSurfaces
  have sameWidth : next.width = core.width :=
    congrArg PixelSurface.width sameBase
  have sameHeight : next.height = core.height :=
    congrArg PixelSurface.height sameBase
  refine ⟨?_, ?_, ?_, ?_, ?_, ?_, ?_, ?_, someTile, ?_⟩
  · rw [sameOverlay, sameWidth, sameHeight]
    exact coherent.overlayLen
  · rw [samePeer, sameWidth, sameHeight]
    exact coherent.peerLen
  · rw [sameInk, sameWidth, sameHeight]
    exact coherent.inkLen
  · rw [samePresented, sameBase]
    exact coherent.presentedShape
  · rw [sameWorking, sameBase]
    exact coherent.workingShape
  · rw [samePresentedBase, sameBase]
    exact coherent.presentedBaseShape
  · rw [sameWidth, sameHeight]
    rcases samePending with same | none
    · rw [same]
      exact coherent.hint
    · simp [none]
  · rw [sameWidth, sameHeight]
    rcases sameDebt with same | none
    · rw [same]
      exact coherent.debt
    · simp [none]
  · rw [sameInk, sameWidth, sameHeight]
    exact coherent.dirty

namespace DisplayCore

/-- The menu over the ink over the peer overlay over a picture. -/
def composition (self : DisplayCore) (picture : Pixels) : Pixels :=
  self.overlay.blended self.width self.base.format
    (self.ink.blended self.width self.base.format
      (self.peerOverlay.blended self.width self.base.format picture))

theorem composition_congr {self : DisplayCore} {left right : Pixels} {p : Place}
    (same : left p = right p) :
    self.composition left p = self.composition right p :=
  LocalOverlay.blended_congr (LocalOverlay.blended_congr
    (LocalOverlay.blended_congr same))

private theorem paint_over {region : Set Place} {plane : LocalOverlay}
    {width : Nat} {format : PixelFormat} {source target : Pixels} :
    paint region (plane.blended width format (paint region source target))
        (paint region source target) =
      paint region (plane.blended width format source) target := by
  funext p
  by_cases inside : p ∈ region
  · rw [paint_of_mem inside, paint_of_mem inside]
    exact LocalOverlay.blended_congr (paint_of_mem inside)
  · rw [paint_of_not_mem inside, paint_of_not_mem inside,
      paint_of_not_mem inside]

section

variable {core : DisplayCore} (coherent : Coherent core)

include coherent

theorem composeBase_spec :
    ∃ composed, core.composeBase = .ok composed ∧
      composed.shape = core.base.shape ∧
      composed.picture = core.ink.blended core.width core.base.format
        (core.peerOverlay.blended core.width core.base.format
          core.base.picture) := by
  unfold composeBase
  split
  · rename_i bothClear
    rw [Bool.and_eq_true] at bothClear
    exact ⟨core.base, rfl, rfl, by
      rw [LocalOverlay.blended_of_transparent bothClear.2,
        LocalOverlay.blended_of_transparent bothClear.1]⟩
  · obtain ⟨withPeer, peerComposed, peerShape, peerPicture⟩ :=
      PixelSurface.compose_spec core.base core.peerOverlay coherent.peerLen
    obtain ⟨⟨sameWidth, sameHeight⟩, sameFormat⟩ :=
      PixelSurface.shape_eq_iff.mp peerShape
    obtain ⟨composed, inkComposed, inkShape, inkPicture⟩ :=
      PixelSurface.compose_spec withPeer core.ink
        (by rw [sameWidth, sameHeight]; exact coherent.inkLen)
    refine ⟨composed, by simp [peerComposed, inkComposed],
      inkShape.trans peerShape, ?_⟩
    rw [inkPicture, peerPicture, sameWidth, sameFormat]
    rfl

theorem composeWorking_spec {working : PixelSurface} {rects : List Rect}
    (sameShape : working.shape = core.base.shape)
    (inside : ∀ rect ∈ rects, rect.Inside core.width core.height) :
    ∃ next, core.composeWorking working rects = .ok next ∧
      next.shape = core.base.shape ∧
      next.picture = paint (region rects)
        (core.composition core.base.picture) working.picture := by
  obtain ⟨composed, baseComposed, composedShape, composedPicture⟩ :=
    composeBase_spec coherent
  obtain ⟨⟨sameWidth, sameHeight⟩, sameFormat⟩ :=
    PixelSurface.shape_eq_iff.mp composedShape
  obtain ⟨next, intoWorking, nextShape, painted⟩ :=
    PixelSurface.composeRegionsInto_spec composed core.overlay rects
      (sameShape.trans composedShape.symm)
      (by rw [sameWidth, sameHeight]; exact coherent.overlayLen)
      (by rw [sameWidth, sameHeight]; exact inside)
  refine ⟨next, by simp [composeWorking, baseComposed, intoWorking],
    nextShape.trans sameShape, ?_⟩
  rw [painted, composedPicture, sameWidth, sameFormat]
  rfl

theorem redrawPlanes_spec {rect : Rect}
    (inside : rect.Inside core.width core.height) :
    ∃ next, core.redrawPlanes [rect] = .ok next ∧
      next.shape = core.base.shape ∧
      next.picture = paint (region [rect])
        (core.composition core.base.picture) core.working.picture := by
  obtain ⟨⟨workingWidth, workingHeight⟩, _⟩ :=
    PixelSurface.shape_eq_iff.mp coherent.workingShape
  obtain ⟨copied, copyDone, copyShape, copyPicture⟩ :=
    PixelSurface.copyRegionsFrom_spec [rect] coherent.workingShape
      (by
        intro other member
        rw [List.mem_singleton.mp member, workingWidth, workingHeight]
        exact inside)
  have blended (surface : PixelSurface) (plane : LocalOverlay)
      (sameShape : surface.shape = core.base.shape)
      (sameLen : plane.len = core.width * core.height) :
      ∃ next, surface.blendRegions plane [rect] = .ok next ∧
        next.shape = core.base.shape ∧
        next.picture = paint (region [rect])
          (plane.blended core.width core.base.format surface.picture)
          surface.picture := by
    obtain ⟨⟨sameWidth, sameHeight⟩, sameFormat⟩ :=
      PixelSurface.shape_eq_iff.mp sameShape
    obtain ⟨next, done, nextShape, painted⟩ :=
      PixelSurface.blendRegions_spec surface plane rect
        (by rw [sameWidth, sameHeight]; exact sameLen)
        (by rw [sameWidth, sameHeight]; exact inside)
    rw [sameWidth, sameFormat] at painted
    exact ⟨next, done, nextShape.trans sameShape, painted⟩
  obtain ⟨withPeer, peerDone, peerShape, peerPicture⟩ :=
    blended copied core.peerOverlay (copyShape.trans coherent.workingShape)
      coherent.peerLen
  obtain ⟨withInk, inkDone, inkShape, inkPicture⟩ :=
    blended withPeer core.ink peerShape coherent.inkLen
  obtain ⟨withMenu, menuDone, menuShape, menuPicture⟩ :=
    blended withInk core.overlay inkShape coherent.overlayLen
  refine ⟨withMenu, by
    simp [redrawPlanes, copyDone, peerDone, inkDone, menuDone], menuShape, ?_⟩
  rw [menuPicture, inkPicture, peerPicture, copyPicture]
  simp only [paint_over]
  rfl

end

/-- The area a prepared frame was composed on. -/
def composedArea (core : DisplayCore) (pending : PendingPresentation)
    (prepared : Prepared) : Set Place :=
  if prepared.decision.completeRefresh then
    region (fullDamage core.width core.height)
  else region (core.composeRegions pending)

/-- What a frame presentation is prepared to show. -/
structure Prepares (core : DisplayCore) (pending : PendingPresentation)
    (prepared : Prepared) : Prop where
  shape : prepared.working.shape = core.base.shape
  painted : prepared.working.picture = paint (core.composedArea pending prepared)
    (core.composition core.base.picture) core.working.picture
  inside : ∀ rect ∈ prepared.damage, rect.Inside core.width core.height
  covers : ∀ p ∈ core.composedArea pending prepared,
    core.presented.picture p ≠ prepared.working.picture p →
      p ∈ region prepared.damage
  complete : prepared.decision.completeRefresh = true →
    prepared.damage = fullDamage core.width core.height
  cleanup : pending.forceCleanup = true ∨ core.forceCleanupNext = true →
    prepared.decision.completeRefresh = true
  wholeSurface : pending.forceFullDamage = true →
    region (fullDamage core.width core.height) ⊆ region prepared.damage
  debt : pending.intent = .settled →
    region core.settleDamage ⊆ region prepared.damage

theorem frameDecision_complete (core : DisplayCore)
    (pending : PendingPresentation) (damage : List Rect)
    (forced : pending.forceCleanup = true ∨ core.forceCleanupNext = true) :
    (core.frameDecision pending damage).completeRefresh = true := by
  have force : (pending.forceCleanup || core.forceCleanupNext) = true :=
    Bool.or_eq_true_iff.mpr forced
  unfold frameDecision
  simp only [force, Bool.true_or]
  split <;> exact RefreshPolicy.decide_forced _ _ _ _ _

theorem subset_composedArea {core : DisplayCore} {pending : PendingPresentation}
    {prepared : Prepared}
    (inside : ∀ rect ∈ core.composeRegions pending,
      rect.Inside core.width core.height) :
    region (core.composeRegions pending) ⊆
      core.composedArea pending prepared := by
  unfold composedArea
  split
  · rintro p ⟨rect, member, covered⟩
    exact mem_region_fullDamage.mpr ((inside rect member).bounds covered)
  · exact subset_rfl

theorem full_inside (core : DisplayCore) :
    ∀ rect ∈ fullDamage core.width core.height,
      rect.Inside core.width core.height :=
  fullDamage_inside core.base.packed.wide core.base.packed.high

section

variable {core : DisplayCore} (coherent : Coherent core)

include coherent

theorem composeRegions_inside {pending : PendingPresentation}
    (hint : ∀ rect ∈ pending.damageHint, rect.Inside core.width core.height) :
    ∀ rect ∈ core.composeRegions pending,
      rect.Inside core.width core.height := by
  intro rect member
  rcases List.mem_append.mp member with remote | debt
  · split at remote
    · exact full_inside core rect remote
    · exact hint rect remote
  · split at debt
    · exact coherent.debt rect debt
    · cases debt

/-- Preparing a frame of a coherent core returns no error. -/
theorem prepareFrame_spec {pending : PendingPresentation}
    (hint : ∀ rect ∈ pending.damageHint, rect.Inside core.width core.height) :
    (core.prepareFrame pending).Ensures (core.Prepares pending) := by
  have regionsInside := composeRegions_inside coherent hint
  have fullInside := full_inside core
  obtain ⟨working, composed, workingShape, workingPicture⟩ :=
    composeWorking_spec coherent coherent.workingShape regionsInside
  obtain ⟨⟨sameWidth, sameHeight⟩, _⟩ :=
    PixelSurface.shape_eq_iff.mp workingShape
  rw [prepareFrame, composed]
  refine Res.Ensures.bind (fun changed : List Rect =>
    (∀ rect ∈ changed, rect.Inside core.width core.height) ∧
      (∀ p ∈ region (core.composeRegions pending),
        core.presented.picture p ≠ working.picture p → p ∈ region changed) ∧
      (pending.forceFullDamage = true →
        region (fullDamage core.width core.height) ⊆ region changed)) ?_ ?_
  · unfold changedDamage
    split
    · refine ⟨fullInside, ?_, fun _ => subset_rfl⟩
      rintro p ⟨rect, member, covered⟩ _
      exact mem_region_fullDamage.mpr
        ((regionsInside rect member).bounds covered)
    · rename_i partialDamage
      obtain ⟨changed, computed, inside, covers, _⟩ :=
        tileDamageRegions_spec (core.composeRegions pending)
          (coherent.presentedShape.trans workingShape.symm) coherent.tile
          (by rw [sameWidth, sameHeight]; exact regionsInside)
      rw [computed]
      rw [sameWidth, sameHeight] at inside
      exact Res.Ensures.ok
        ⟨inside, covers, fun forced => absurd forced partialDamage⟩
  rintro changed ⟨changedInside, changedCovers, changedFull⟩
  refine Res.Ensures.bind (fun damage : List Rect =>
    (∀ rect ∈ damage, rect.Inside core.width core.height) ∧
      region changed ⊆ region damage ∧
      (pending.intent = .settled →
        region core.settleDamage ⊆ region damage)) ?_ ?_
  · unfold decisionDamage
    split
    · have merged := mergeTiledDamage_spec core.damageTile
        coherent.debt changedInside
      generalize mergeTiledDamage core.width core.height core.damageTile
        core.settleDamage changed = result at merged
      cases result with
      | ok damage =>
          exact ⟨merged.1, (Set.union_subset_iff.mp merged.2).2,
            fun _ => (Set.union_subset_iff.mp merged.2).1⟩
      | error err => exact merged.elim
      | panic => trivial
    · rename_i notSettled
      exact Res.Ensures.ok ⟨changedInside, subset_rfl,
        fun settled => absurd settled notSettled⟩
  rintro damage ⟨damageInside, damageCovers, damageDebt⟩
  have forces := frameDecision_complete core pending damage
  dsimp only
  split
  · rename_i complete
    obtain ⟨full, fullComposed, fullShape, fullPicture⟩ :=
      composeWorking_spec coherent workingShape fullInside
    rw [fullComposed]
    refine Res.Ensures.ok ⟨fullShape, ?_, fullInside, ?_, fun _ => rfl,
      fun _ => complete, fun _ => subset_rfl, ?_⟩
    · simp only [composedArea, complete, if_true]
      rw [fullPicture, workingPicture, paint_paint_of_subset]
      rintro p ⟨rect, member, covered⟩
      exact mem_region_fullDamage.mpr
        ((regionsInside rect member).bounds covered)
    · intro p member _
      simpa only [composedArea, complete, if_true] using member
    · rintro _ p ⟨rect, member, covered⟩
      exact mem_region_fullDamage.mpr
        ((coherent.debt rect member).bounds covered)
  · rename_i notComplete
    refine Res.Ensures.ok ⟨workingShape, ?_, damageInside, ?_,
      fun complete => absurd complete notComplete,
      fun forced => absurd (forces forced) notComplete, ?_, damageDebt⟩
    · simp only [composedArea, notComplete]
      exact workingPicture
    · intro p member differ
      simp only [composedArea, notComplete] at member
      exact damageCovers (changedCovers p member differ)
    · intro forced
      exact (changedFull forced).trans damageCovers

/-- The drawn damage lies on the surface and covers every difference on the
redrawn area. -/
theorem planeDamage_spec (intent : FrameIntent) {rect : Rect}
    (inside : rect.Inside core.width core.height) :
    ∃ damage, core.planeDamage intent [rect] = .ok damage ∧
      (∀ part ∈ damage, part.Inside core.width core.height) ∧
      (∀ p ∈ region [rect], core.presented.picture p ≠ core.working.picture p →
        p ∈ region damage) ∧
      ∀ part ∈ damage, ∃ p ∈ region [part],
        core.presented.picture p ≠ core.working.picture p := by
  have sameShape := coherent.presentedShape.trans coherent.workingShape.symm
  obtain ⟨⟨sameWidth, sameHeight⟩, _⟩ :=
    PixelSurface.shape_eq_iff.mp coherent.workingShape
  have insideWorking :
      rect.Inside core.working.width core.working.height := by
    rw [sameWidth, sameHeight]
    exact inside
  unfold planeDamage
  split
  · obtain ⟨changed, computed, spec⟩ := changedIn_spec sameShape insideWorking
    cases changed with
    | true =>
        refine ⟨[rect], by simp [Res.filterMap, computed], ?_, ?_, ?_⟩
        · intro part member
          rw [List.mem_singleton.mp member]
          exact inside
        · intro p member _
          exact member
        · intro part member
          rw [List.mem_singleton.mp member]
          exact spec.mp rfl
    | false =>
        refine ⟨[], by simp [Res.filterMap, computed], by simp, ?_, by simp⟩
        intro p member differ
        exact absurd (spec.mpr ⟨p, member, differ⟩) (by simp)
  · obtain ⟨damage, computed, damageInside, covers, shows, _⟩ :=
      tileDamageRegions_spec [rect] sameShape coherent.tile (by
        intro other member
        rw [List.mem_singleton.mp member]
        exact insideWorking)
    rw [sameWidth, sameHeight] at damageInside
    exact ⟨damage, computed, damageInside, covers, shows⟩

end

end DisplayCore

end RmDisplay.Core
