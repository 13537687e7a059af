import RmDisplay.Core.OverlayShown
import RmDisplay.Core.PanelUse

/-!
# What is shown after the ink was cleared

Clearing the ink forgets its dirty rectangle, so presenting the cleared ink
draws nothing by itself.  What the panel shows afterwards is what completing
the pending frame leaves.
-/

namespace RmDisplay.Core

open Foundation Protocol Foundation.Picture DisplayCore

namespace DisplayCore

/-- The core after its ink was cleared. -/
def inkCleared (self : DisplayCore) : DisplayCore :=
  self.setPlane .ink self.ink.clear

/-- The menu over the peer overlay over the base. -/
def inkless (self : DisplayCore) : Pixels :=
  self.overlay.blended self.width self.base.format
    (self.peerOverlay.blended self.width self.base.format self.base.picture)

theorem composition_inkCleared (core : DisplayCore) :
    core.inkCleared.composition core.inkCleared.base.picture =
      core.inkless := by
  unfold composition
  rw [@LocalOverlay.blended_of_transparent core.inkCleared.ink rfl]
  rfl

theorem inkless_keeps {before after : DisplayCore}
    (kept : KeepsPlanes before after) : after.inkless = before.inkless := by
  unfold inkless width
  rw [kept.base, kept.overlay, kept.peer]

/-- The surface that keeps its pixels where a flushed frame is not composed:
a frame that changes nothing is not submitted. -/
def leftSurface (self : DisplayCore) (prepared : Prepared) : PixelSurface :=
  if prepared.damage = [] then self.presented else self.working

/-- No ink is left where completing the pending frame draws nothing. -/
structure InkCovered (core : DisplayCore) : Prop where
  idle : core.pending = none →
    ∀ p : Place, p.1 < core.width → p.2 < core.height →
      core.presented.picture p = core.inkless p
  flushed : ∀ pending prepared, core.pending = some pending →
    core.inkCleared.prepareFrame pending = .ok prepared →
    ∀ p : Place, p.1 < core.width → p.2 < core.height →
      p ∉ core.inkCleared.composedArea pending prepared →
      (core.leftSurface prepared).picture p = core.inkless p

end DisplayCore

/-- Nothing but the other planes over the base is shown, and a cleanup submits
nothing else. -/
structure InkErased (world : World) : Prop where
  shown : ∀ p : Place, p.1 < world.core.width → p.2 < world.core.height →
    world.core.presented.picture p = world.core.inkless p
  resubmitted : ∀ timing output later newer,
    (requestCleanup timing).Runs world output later →
    later.panel.calls = newer ++ world.panel.calls →
    ∀ submission, PanelCall.submit submission ∈ newer →
      ∀ p : Place, p.1 < world.core.width → p.2 < world.core.height →
        submission.pixels.picture p = world.core.inkless p

/-- A frame that a willing panel completes shows the composition where it was
composed, and leaves the rest. -/
theorem FrameStep.leaves {timing : Timing} {world after : World}
    {terminal : TerminalFrame} (step : FrameStep timing world terminal after)
    (coherent : Coherent world.core) (willing : world.panel.Willing) :
    ∃ pending prepared, world.core.pending = some pending ∧
      world.core.prepareFrame pending = .ok prepared ∧
      after.core.presented.picture =
        paint (world.core.composedArea pending prepared)
          (world.core.composition world.core.base.picture)
          (world.core.leftSurface prepared).picture := by
  cases step with
  | pumpFailed isPending failed =>
      rw [willing.pumped] at failed
      cases failed
  | @unchanged core panel pending prepared isPending pumped prepares nothing =>
      have spec := (prepareFrame_spec coherent
        (coherent.hint pending isPending)).of_ok prepares
      refine ⟨pending, prepared, isPending, prepares, ?_⟩
      rw [leftSurface, if_pos nothing]
      funext p
      change core.presented.picture p = _
      by_cases composed : p ∈ core.composedArea pending prepared
      · rw [paint_of_mem composed]
        have same : core.presented.picture p = prepared.working.picture p := by
          by_contra differ
          have damaged := spec.covers p composed differ
          rw [nothing, region_nil] at damaged
          exact damaged
        rw [same, spec.painted, paint_of_mem composed]
      · rw [paint_of_not_mem composed]
  | refused isPending pumped prepares damaged refuses =>
      exact absurd refuses willing.afterPump.submitted
  | @accepted core next panel pending prepared metrics isPending pumped
      prepares damaged accepts presents =>
      have spec := (prepareFrame_spec coherent
        (coherent.hint pending isPending)).of_ok prepares
      refine ⟨pending, prepared, isPending, prepares, ?_⟩
      rw [leftSurface, if_neg damaged]
      obtain ⟨working, settleDamage, fastUpdates, _, _, rfl⟩ :=
        presentAccepted_eq_ok presents
      exact spec.painted

theorem PlaneStep.rests {timing : Timing} {world after : World}
    {output : Except CoreError Unit}
    (step : PlaneStep timing .latest world output after)
    (clean : world.core.ink.dirty = none) :
    output = .ok () ∧ after.panel = world.panel ∧
      after.core.presented = world.core.presented ∧
      after.core.pending = world.core.pending ∧
      KeepsPlanes world.core after.core := by
  obtain ⟨core, panel⟩ := world
  have noArea : core.planeArea .latest = [] := by
    simp only at clean
    simp [planeArea, takePlaneRegions, LocalOverlay.takeDirty, clean]
  have takes : core.planeTaken .latest = core := by
    have kept : core.ink.takeDirty.2 = core.ink := by
      simp only at clean
      rw [LocalOverlay.takeDirty, ← clean]
    rcases planeTaken_eq core .latest with same | taken
    · exact same
    · rw [taken, kept]
  have draws : core.drawnPlane .latest = .ok (core, []) := by
    simp [drawnPlane, noArea, takes]
  cases step with
  | failed fails =>
      rw [draws] at fails
      cases fails
  | unchanged drawn =>
      rw [draws] at drawn
      cases drawn
      exact ⟨rfl, rfl, rfl, rfl, ⟨rfl, rfl, rfl, rfl, rfl⟩⟩
  | refused drawn damaged =>
      rw [draws] at drawn
      cases drawn
      exact absurd rfl damaged
  | accepted drawn damaged =>
      rw [draws] at drawn
      cases drawn
      exact absurd rfl damaged

/-- What a willing panel shows after cleared ink was presented. -/
structure InkPresented (before after : World) (terminals : List TerminalFrame) :
    Prop where
  presented : ∀ terminal ∈ terminals, terminal.outcome = .presented
  planes : KeepsPlanes before.core.inkCleared after.core
  idle : after.core.pending = none
  willing : after.panel.Willing
  erased : (∀ p : Place, p.1 < before.core.width → p.2 < before.core.height →
      after.core.presented.picture p = before.core.inkless p) ↔
    before.core.InkCovered

theorem presentInk_cleared {timing : Timing} {world after : World}
    {output : Except CoreError (List TerminalFrame)}
    (coherent : Coherent world.core.inkCleared)
    (willing : world.panel.Willing)
    (runs : (presentInk timing).Runs ⟨world.core.inkCleared, world.panel⟩
      output after) :
    ∃ terminals, output = .ok terminals ∧
      InkPresented world after terminals := by
  obtain ⟨terminals, drawn, flushes, step, _, isOutput⟩ :=
    presentPlane_runs coherent runs
  have blank := composition_inkCleared world.core
  rcases flushes with ⟨idle, rfl, same⟩ | ⟨terminal, rfl, flush⟩
  · rw [same] at step
    obtain ⟨rfl, samePanel, shown, pending, planes⟩ := step.rests rfl
    refine ⟨[], isOutput, List.forall_mem_nil _, planes, pending.trans idle,
      by rw [samePanel]; exact willing, ?_⟩
    rw [shown]
    have notPending : world.core.pending = none := idle
    constructor
    · intro erased
      refine ⟨fun _ => erased, fun pending prepared isPending => ?_⟩
      rw [notPending] at isPending
      cases isPending
    · intro covered
      exact covered.idle notPending
  · obtain ⟨_, outcome, kept, stillWilling⟩ := flush.presents willing
    obtain ⟨pending, prepared, isPending, prepares, left⟩ :=
      flush.leaves coherent willing
    obtain ⟨rfl, samePanel, shown, stays, planes⟩ :=
      step.rests (by rw [kept.ink]; rfl)
    refine ⟨[terminal], isOutput, by simpa using outcome, kept.trans planes,
      stays.trans flush.idle, by rw [samePanel]; exact stillWilling, ?_⟩
    simp only at left
    rw [shown, left, blank]
    have isShown : world.core.pending = some pending := isPending
    constructor
    · intro erased
      refine ⟨fun idle => ?_, ?_⟩
      · rw [idle] at isShown
        cases isShown
      · intro other otherPrepared otherPending otherPrepares p column row outside
        rw [isShown] at otherPending
        cases otherPending
        rw [prepares] at otherPrepares
        cases otherPrepares
        have shows := erased p column row
        rw [paint_of_not_mem outside] at shows
        exact shows
    · intro covered p column row
      by_cases composed :
          p ∈ world.core.inkCleared.composedArea pending prepared
      · rw [paint_of_mem composed]
      · rw [paint_of_not_mem composed]
        exact covered.flushed pending prepared isShown prepares p column row
          composed

theorem resubmits_presented {timing : Timing} {world later : World}
    {output : Except CoreError CleanupReport} {newer : List PanelCall}
    (idle : world.core.pending = none)
    (runs : (requestCleanup timing).Runs world output later)
    (calls : later.panel.calls = newer ++ world.panel.calls)
    {submission : Submission}
    (member : PanelCall.submit submission ∈ newer) :
    submission.pixels = world.core.presented := by
  obtain ⟨core, panel⟩ := world
  simp only at idle
  simp only [requestCleanup, getCore_bind, setCore_bind, idle,
    Option.isSome_none, Bool.false_eq_true, if_false] at runs
  split at runs
  · obtain ⟨rfl, rfl⟩ := Proc.runs_pure.mp runs
    have none : newer = [] := List.append_left_eq_self.mp calls.symm
    rw [none] at member
    cases member
  · obtain ⟨report, rfl, _, step⟩ := resubmitPresented_runs runs
    cases step with
    | pumpFailed failed =>
        have one : newer = [.pump panel.nextPump] :=
          List.append_cancel_right calls.symm
        rw [one] at member
        cases List.mem_singleton.mp member
    | refused pumped refuses | accepted pumped accepts =>
        have two := @List.append_cancel_right _ newer _ [_, _] calls.symm
        rw [two] at member
        rcases List.mem_cons.mp member with submitted | pumps
        · cases submitted
          rfl
        · cases List.mem_singleton.mp pumps

theorem inkErased_iff {world : World} (idle : world.core.pending = none) :
    InkErased world ↔
      ∀ p : Place, p.1 < world.core.width → p.2 < world.core.height →
        world.core.presented.picture p = world.core.inkless p := by
  constructor
  · exact InkErased.shown
  · intro shown
    refine ⟨shown, ?_⟩
    intro timing output later newer runs calls submission member
    rw [resubmits_presented idle runs calls member]
    exact shown

end RmDisplay.Core
