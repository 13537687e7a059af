import RmDisplay.Core.OperationSteps

/-!
# What is shown after an overlay was presented

On a panel that does not fail, presenting an overlay first completes the
pending frame and then shows all planes over the base.
-/

namespace RmDisplay.Core

open Foundation Protocol Foundation.Picture DisplayCore

/-- The base, its id and the planes are kept. -/
structure KeepsPlanes (before after : DisplayCore) : Prop where
  base : after.base = before.base
  logical : after.logicalFrameId = before.logicalFrameId
  overlay : after.overlay = before.overlay
  peer : after.peerOverlay = before.peerOverlay
  ink : after.ink = before.ink

theorem KeepsPlanes.trans {first second third : DisplayCore}
    (earlier : KeepsPlanes first second) (later : KeepsPlanes second third) :
    KeepsPlanes first third where
  base := later.base.trans earlier.base
  logical := later.logical.trans earlier.logical
  overlay := later.overlay.trans earlier.overlay
  peer := later.peer.trans earlier.peer
  ink := later.ink.trans earlier.ink

theorem FrameStep.presents {timing : Timing} {world after : World}
    {terminal : TerminalFrame} (step : FrameStep timing world terminal after)
    (willing : world.panel.Willing) :
    (∃ pending, world.core.pending = some pending ∧
        terminal.frameId = pending.frameId) ∧
      terminal.outcome = .presented ∧
      KeepsPlanes world.core after.core ∧ after.panel.Willing := by
  cases step with
  | pumpFailed isPending failed =>
      rw [willing.pumped] at failed
      cases failed
  | unchanged isPending pumped prepares nothing =>
      exact ⟨⟨_, isPending, rfl⟩, rfl, ⟨rfl, rfl, rfl, rfl, rfl⟩,
        willing.afterPump⟩
  | refused isPending pumped prepares damaged refuses =>
      exact absurd refuses willing.afterPump.submitted
  | accepted isPending pumped prepares damaged accepts presents =>
      obtain ⟨working, settleDamage, fastUpdates, _, _, rfl⟩ :=
        presentAccepted_eq_ok presents
      obtain ⟨pixels, lastPartial, same⟩ := submitted_eq _ _ _ _ _ _ _
      rw [same]
      exact ⟨⟨_, isPending, rfl⟩, rfl, ⟨rfl, rfl, rfl, rfl, rfl⟩,
        willing.afterPump.afterSubmit _ _ _ _⟩

/-- Everything the core presents is shown. -/
def Shows (core : DisplayCore) : Prop :=
  ∀ p : Place, p.1 < core.width → p.2 < core.height →
    core.presented.picture p = core.composition core.base.picture p

theorem DisplayCore.Draws.composed {core drawn : DisplayCore}
    {intent : FrameIntent} {damage : List Rect}
    (draws : Draws core intent drawn damage) {p : Place}
    (isDrawn : p ∈ region (core.planeArea intent)) :
    drawn.working.picture p = core.composition core.base.picture p ∧
      (p ∉ region damage →
        core.presented.picture p = core.composition core.base.picture p) := by
  have isComposed : drawn.working.picture p =
      core.composition core.base.picture p := by
    rw [draws.painted, paint_of_mem isDrawn]
  refine ⟨isComposed, fun undamaged => ?_⟩
  rw [← isComposed]
  by_contra differ
  exact undamaged (draws.covers p isDrawn differ)

/-- After a plane was presented, both surfaces show it where it was redrawn. -/
theorem PlaneStep.redrawn {timing : Timing} {intent : FrameIntent}
    {world after : World}
    (step : PlaneStep timing intent world (.ok ()) after)
    (coherent : Coherent world.core) {p : Place}
    (isDrawn : p ∈ region (world.core.planeArea intent)) :
    after.core.working.picture p =
        world.core.composition world.core.base.picture p ∧
      after.core.presented.picture p =
        world.core.composition world.core.base.picture p := by
  cases step with
  | @unchanged core drawn panel draws =>
      have spec := drawnPlane_spec coherent draws
      obtain ⟨composed, undamaged⟩ := spec.composed isDrawn
      obtain ⟨_, _, taken⟩ := drawnPlane_frame draws
      have samePresented : drawn.presented = core.presented := by rw [taken]
      rw [samePresented]
      exact ⟨composed, undamaged (by simp)⟩
  | @accepted core drawn next panel damage metrics draws damaged accepts
      presents =>
      have spec := drawnPlane_spec coherent draws
      obtain ⟨sameWidth, sameHeight⟩ := width_drawn spec
      obtain ⟨inside, covers⟩ := @submittedDamage_spec drawn intent damage
        (by rw [sameWidth, sameHeight]; exact spec.inside)
      obtain ⟨presented, _, _, copied, _, rfl⟩ := planeAccepted_eq_ok presents
      have shown := (planeAccepted_surfaces (coherent_drawn coherent spec)
        inside copied).2
      obtain ⟨composed, undamaged⟩ := spec.composed isDrawn
      obtain ⟨_, _, taken⟩ := drawnPlane_frame draws
      have samePresented : drawn.presented = core.presented := by rw [taken]
      refine ⟨by simpa using composed, ?_⟩
      by_cases isIn : p ∈ region (drawn.submittedDamage intent damage)
      · rw [shown, paint_of_mem isIn]
        exact composed
      · rw [shown, samePresented, paint_of_not_mem isIn]
        exact undamaged fun isDamaged => isIn (covers isDamaged)

/-- A plane that is redrawn on the whole surface is shown by a willing
panel. -/
theorem PlaneStep.shows {timing : Timing} {world after : World}
    {output : Except CoreError Unit}
    (step : PlaneStep timing .settled world output after)
    (coherent : Coherent world.core) (willing : world.panel.Willing) :
    output = .ok () ∧ KeepsPlanes world.core after.core ∧ Shows after.core ∧
      after.core.pending = world.core.pending := by
  have redrawn (isOk : output = .ok ()) (p : Place)
      (column : p.1 < world.core.width) (row : p.2 < world.core.height) :
      after.core.presented.picture p =
        world.core.composition world.core.base.picture p := by
    subst isOk
    exact (step.redrawn coherent
      (mem_region_fullDamage.mpr ⟨column, row⟩)).2
  cases step with
  | @failed core panel err fails =>
      obtain ⟨drawn, damage, draws⟩ :=
        @drawnPlane_of_inside core coherent .settled (full_inside core)
      rw [draws] at fails
      cases fails
  | @unchanged core drawn panel draws =>
      have isDrawn : drawn = { core with working := drawn.working } :=
        (drawnPlane_spec coherent draws).taken
      rw [isDrawn] at redrawn ⊢
      exact ⟨rfl, ⟨rfl, rfl, rfl, rfl, rfl⟩, redrawn rfl, rfl⟩
  | refused draws damaged refuses => exact absurd refuses willing.submitted
  | @accepted core drawn next panel damage metrics draws damaged accepts
      presents =>
      have isDrawn : drawn = { core with working := drawn.working } :=
        (drawnPlane_spec coherent draws).taken
      obtain ⟨presented, settleDamage, fastUpdates, _, _, rfl⟩ :=
        planeAccepted_eq_ok presents
      obtain ⟨pixels, lastPartial, same⟩ := submitted_eq drawn
        (drawn.planeDecision .settled damage)
        (drawn.submittedDamage .settled damage) timing.now
        metrics.physicalSubmissions settleDamage fastUpdates
      rw [same, isDrawn] at redrawn ⊢
      exact ⟨rfl, ⟨rfl, rfl, rfl, rfl, rfl⟩, redrawn rfl, rfl⟩

end RmDisplay.Core
