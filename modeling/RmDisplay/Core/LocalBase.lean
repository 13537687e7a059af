import RmDisplay.Core.OverlayShown
import RmDisplay.Core.Rendering

/-!
# What local presentations show

A local presentation draws over the base, and promises to show the presented
base.  After a failure the base may hold pixels that were rejected; as long as
no plane is drawn where that makes a difference, every pixel of the presented
and the working surface is the composition over the presented base of planes in
force since the pixel was last redrawn, and so is everything the local
presentations submit.
-/

namespace RmDisplay.Core

open Foundation Protocol DisplayCore Foundation.Picture

/-- Accepted submissions of local planes and of cleanups. -/
def PanelCall.localPixels : PanelCall → Option PixelSurface
  | .pump _ => none
  | .submit submission =>
      match submission.origin with
      | .frame _ _ => none
      | .overlay | .ink | .cleanup | .fallback =>
          if submission.reply.isSome then some submission.pixels else none

/-- The pixel shows the planes of one of the cores over the picture. -/
def ShowsOver (cores : Set DisplayCore) (picture : Pixels) (p : Place)
    (pixel : Bytes) : Prop :=
  ∃ core ∈ cores, pixel = core.composition picture p

/-- Where the operation redraws its plane, if it does not fail: an overlay on
the whole surface, the ink where it is dirty. -/
def CoreEvent.redrawn (event : CoreEvent) : Set Place :=
  {p | (∃ reply, event.output = .ok reply) ∧
    match event.input with
    | .presentOverlay _ =>
        p.1 < event.before.core.width ∧ p.2 < event.before.core.height
    | .presentInk _ => ∃ rect ∈ event.before.core.ink.dirty, rect.Covers p.1 p.2
    | _ => False}

/-- The cores the operations started in, back to the one that redrew the
pixel last. -/
def drawnFrom : List CoreEvent → Place → Set DisplayCore
  | [], _ => ∅
  | event :: earlier, p => {core | core = event.before.core ∨
      p ∉ event.redrawn ∧ core ∈ drawnFrom earlier p}

theorem mem_drawnFrom {history : List CoreEvent} {p : Place}
    {core : DisplayCore} (member : core ∈ drawnFrom history p) :
    ∃ event ∈ history, core = event.before.core := by
  induction history with
  | nil => cases member
  | cons event earlier induction =>
      rcases member with same | ⟨_, older⟩
      · exact ⟨event, List.mem_cons_self, same⟩
      · obtain ⟨other, isOther, same⟩ := induction older
        exact ⟨other, List.mem_cons_of_mem _ isOther, same⟩

/-- Every local presentation shows the planes in force since the pixel was last
redrawn, and where it redraws it those in force, over the presented base; that
is the base of the last frame reported presented. -/
def LocalFromPresented (blank : PixelSurface) (history : List CoreEvent) :
    Prop :=
  ∀ (event : CoreEvent) (earlier : List CoreEvent),
    event :: earlier <:+ history →
    ∀ call ∈ event.calls, ∀ pixels ∈ call.localPixels,
      BaseOf blank (event :: earlier) event.after.core.presentedFrameId
          event.after.core.presentedBase ∧
        ∀ p, ShowsOver (drawnFrom (event :: earlier) p)
          event.after.core.presentedBase.picture p (pixels.picture p)

/-- Where the plane is redrawn, composing over the base shows the same as
composing over the presented base. -/
def DrawKeepsBase (intent : FrameIntent) (world : World) : Prop :=
  ∀ p ∈ region (world.core.planeArea intent),
    world.core.composition world.core.base.picture p =
      world.core.composition world.core.presentedBase.picture p

/-- The condition on one operation. -/
def CoreEvent.KeepsBase (event : CoreEvent) : Prop :=
  event.input ≠ .cancelPending ∧
    ∀ drawing ∈ event.input.drawing event.before,
      DrawKeepsBase drawing.1 drawing.2

/-- Where every pixel comes from.  The base may be ahead of the presented base
where the pending frame will be composed, or until a keyframe is accepted. -/
structure Sourced (cores : Place → Set DisplayCore) (core : DisplayCore) :
    Prop where
  coherent : Coherent core
  now : ∀ p, ∃ visited ∈ cores p, visited.composition = core.composition
  presented : ∀ p, ShowsOver (cores p) core.presentedBase.picture p
    (core.presented.picture p)
  working : ∀ p, ShowsOver (cores p) core.presentedBase.picture p
    (core.working.picture p)
  stale : core.baseValid = false ∨
    (∃ pending ∈ core.pending, pending.forceFullDamage = true) ∨
    AgreeOff core.hintRegion core.base.picture core.presentedBase.picture
  valid : core.pending.isSome = true → core.baseValid = true

theorem ShowsOver.congr {cores : Place → Set DisplayCore} {left right : Pixels}
    {p : Place} {pixel : Bytes} (shows : ShowsOver (cores p) left p pixel)
    (same : left p = right p) : ShowsOver (cores p) right p pixel := by
  obtain ⟨core, member, rfl⟩ := shows
  exact ⟨core, member, composition_congr same⟩

namespace Sourced

variable {cores : Place → Set DisplayCore} {core next : DisplayCore}

theorem mono {wider : Place → Set DisplayCore} (sourced : Sourced cores core)
    (covered : ∀ p, cores p ⊆ wider p) : Sourced wider core := by
  have widen {picture : Pixels} {p : Place} {pixel : Bytes}
      (shows : ShowsOver (cores p) picture p pixel) :
      ShowsOver (wider p) picture p pixel := by
    obtain ⟨visited, member, same⟩ := shows
    exact ⟨visited, covered p member, same⟩
  refine ⟨sourced.coherent, fun p => ?_, fun p => widen (sourced.presented p),
    fun p => widen (sourced.working p), sourced.stale, sourced.valid⟩
  obtain ⟨visited, member, same⟩ := sourced.now p
  exact ⟨visited, covered p member, same⟩

/-- Where both surfaces show the planes now, no earlier ones are needed. -/
theorem narrow {narrower : Place → Set DisplayCore}
    (sourced : Sourced cores core) (visited : DisplayCore) (redrawn : Set Place)
    (same : visited.composition = core.composition)
    (isLeft : ∀ p, visited ∈ narrower p)
    (kept : ∀ p ∉ redrawn, cores p ⊆ narrower p)
    (shows : ∀ p ∈ redrawn, core.working.picture p =
        core.composition core.presentedBase.picture p ∧
      core.presented.picture p =
        core.composition core.presentedBase.picture p) :
    Sourced narrower core := by
  have wider {p : Place} {pixel : Bytes} (outside : p ∉ redrawn)
      (shows : ShowsOver (cores p) core.presentedBase.picture p pixel) :
      ShowsOver (narrower p) core.presentedBase.picture p pixel := by
    obtain ⟨earlier, member, same⟩ := shows
    exact ⟨earlier, kept p outside member, same⟩
  refine ⟨sourced.coherent, fun p => ⟨visited, isLeft p, same⟩, fun p => ?_,
    fun p => ?_, sourced.stale, sourced.valid⟩
  · by_cases inside : p ∈ redrawn
    · exact ⟨visited, isLeft p, by rw [(shows p inside).2, same]⟩
    · exact wider inside (sourced.presented p)
  · by_cases inside : p ∈ redrawn
    · exact ⟨visited, isLeft p, by rw [(shows p inside).1, same]⟩
    · exact wider inside (sourced.working p)

theorem showsNow (sourced : Sourced cores core) (picture : Pixels)
    (p : Place) :
    ShowsOver (cores p) picture p (core.composition picture p) := by
  obtain ⟨visited, member, same⟩ := sourced.now p
  exact ⟨visited, member, by rw [same]⟩

/-- Whatever leaves base and planes and shows no other pixels. -/
theorem update (sourced : Sourced cores core) (coherent : Coherent next)
    (sameBases : next.base = core.base ∧
      next.presentedBase = core.presentedBase)
    (samePlanes : next.overlay = core.overlay ∧
      next.peerOverlay = core.peerOverlay ∧ next.ink.blended = core.ink.blended)
    (presented : ∀ p, ShowsOver (cores p) core.presentedBase.picture p
      (next.presented.picture p))
    (working : ∀ p, ShowsOver (cores p) core.presentedBase.picture p
      (next.working.picture p))
    (stale : next.pending = core.pending ∧ next.baseValid = core.baseValid ∨
      next.pending = none ∧ next.baseValid = false) :
    Sourced cores next := by
  obtain ⟨sameBase, samePresentedBase⟩ := sameBases
  have sameComposition := composition_eq samePlanes
    (congrArg PixelSurface.shape sameBase)
  refine ⟨coherent, ?_, ?_, ?_, ?_, ?_⟩
  · rw [sameComposition]
    exact sourced.now
  · rw [samePresentedBase]
    exact presented
  · rw [samePresentedBase]
    exact working
  · rcases stale with ⟨samePending, sameValid⟩ | ⟨_, invalid⟩
    · rw [hintRegion, samePending, sameValid, sameBase, samePresentedBase]
      exact sourced.stale
    · exact .inl invalid
  · rcases stale with ⟨samePending, sameValid⟩ | ⟨idle, _⟩
    · rw [samePending, sameValid]
      exact sourced.valid
    · simp [idle]

theorem transfer (sourced : Sourced cores core) (coherent : Coherent next)
    (sameBases : next.base = core.base ∧
      next.presentedBase = core.presentedBase)
    (samePlanes : next.overlay = core.overlay ∧
      next.peerOverlay = core.peerOverlay ∧ next.ink.blended = core.ink.blended)
    (sameSurfaces : next.presented = core.presented ∧
      next.working = core.working)
    (stale : next.pending = core.pending ∧ next.baseValid = core.baseValid ∨
      next.pending = none ∧ next.baseValid = false) :
    Sourced cores next :=
  sourced.update coherent sameBases samePlanes
    (by rw [sameSurfaces.1]; exact sourced.presented)
    (by rw [sameSurfaces.2]; exact sourced.working) stale

theorem agree_composed {pending : PendingPresentation} {prepared : Prepared}
    (sourced : Sourced cores core) (isPending : core.pending = some pending)
    {p : Place} (outside : p ∉ core.composedArea pending prepared) :
    core.presentedBase.picture p = core.base.picture p := by
  have hint := sourced.coherent.hint pending isPending
  rcases sourced.stale with invalid | ⟨other, isOther, forced⟩ | agree
  · rw [sourced.valid (by rw [isPending]; rfl)] at invalid
    cases invalid
  · rw [isPending] at isOther
    cases isOther
    have off : p ∉ region (fullDamage core.width core.height) := by
      intro inside
      refine outside (subset_composedArea
        (composeRegions_inside sourced.coherent hint) ?_)
      unfold composeRegions
      rw [if_pos forced, region_append]
      exact .inl inside
    rw [picture_outside sourced.coherent.presentedBaseShape off,
      picture_outside rfl off]
  · refine (agree p fun inHint => outside ?_).symm
    rw [hintRegion_some isPending] at inHint
    exact hint_subset_composedArea sourced.coherent hint inHint

/-- A prepared frame shows planes over the base, and so does the presented
surface where it was not damaged. -/
theorem of_frame {pending : PendingPresentation} {prepared : Prepared}
    (sourced : Sourced cores core) (isPending : core.pending = some pending)
    (spec : core.Prepares pending prepared) (p : Place) :
    ShowsOver (cores p) core.base.picture p (prepared.working.picture p) ∧
      (p ∉ region prepared.damage → ShowsOver (cores p) core.base.picture p
        (core.presented.picture p)) := by
  by_cases composed : p ∈ core.composedArea pending prepared
  · have shows : ShowsOver (cores p) core.base.picture p
        (prepared.working.picture p) := by
      rw [spec.painted, paint_of_mem composed]
      exact sourced.showsNow _ p
    refine ⟨shows, fun outside => ?_⟩
    have same : core.presented.picture p = prepared.working.picture p := by
      by_contra differ
      exact outside (spec.covers p composed differ)
    rw [same]
    exact shows
  · have same := sourced.agree_composed isPending composed
    refine ⟨?_, fun _ => (sourced.presented p).congr same⟩
    rw [spec.painted, paint_of_not_mem composed]
    exact (sourced.working p).congr same

theorem of_drawn {intent : FrameIntent} {drawn : DisplayCore}
    {damage : List Rect} (sourced : Sourced cores core)
    (keeps : ∀ p ∈ region (core.planeArea intent),
      core.composition core.base.picture p =
        core.composition core.presentedBase.picture p)
    (spec : Draws core intent drawn damage) (p : Place) :
    ShowsOver (cores p) core.presentedBase.picture p
      (drawn.working.picture p) := by
  rw [spec.painted]
  by_cases redrawn : p ∈ region (core.planeArea intent)
  · rw [paint_of_mem redrawn, keeps p redrawn]
    exact sourced.showsNow _ p
  · rw [paint_of_not_mem redrawn]
    exact sourced.working p

end Sourced

theorem FrameStep.sourced {cores : Place → Set DisplayCore} {timing : Timing}
    {before after : World} {terminal : TerminalFrame}
    (step : FrameStep timing before terminal after)
    (sourced : Sourced cores before.core) : Sourced cores after.core := by
  have coherent := step.coherent sourced.coherent
  cases step with
  | pumpFailed _ _ =>
      exact sourced.transfer coherent ⟨rfl, rfl⟩ ⟨rfl, rfl, rfl⟩ ⟨rfl, rfl⟩
        (.inr ⟨rfl, rfl⟩)
  | refused _ _ _ _ _ =>
      exact ⟨coherent, sourced.now, sourced.presented, sourced.presented,
        .inl rfl, fun impossible => nomatch impossible⟩
  | unchanged isPending _ prepares nothing =>
      have spec := (prepareFrame_spec sourced.coherent
        (sourced.coherent.hint _ isPending)).of_ok prepares
      have shows := sourced.of_frame isPending spec
      refine ⟨coherent, sourced.now, fun p => (shows p).2 ?_,
        fun p => (shows p).1, .inr (.inr (AgreeOff.refl _ _)),
        fun impossible => nomatch impossible⟩
      rw [nothing, region_nil]
      exact Set.notMem_empty p
  | @accepted core next panel pending prepared metrics isPending _ prepares _
      _ presents =>
      have spec := (prepareFrame_spec sourced.coherent
        (sourced.coherent.hint _ isPending)).of_ok prepares
      have shows := sourced.of_frame isPending spec
      obtain ⟨working, _, _, copied, _, rfl⟩ := presentAccepted_eq_ok presents
      have picture :=
        (presentAccepted_surfaces sourced.coherent spec copied).2
      refine ⟨coherent, ?_, fun p => (shows p).1, fun p => ?_, ?_,
        fun impossible => nomatch impossible⟩
      · intro p
        obtain ⟨visited, member, same⟩ := sourced.now p
        exact ⟨visited, member, same.trans (composition_eq (by simp)
          (by simp)).symm⟩
      · by_cases damaged : p ∈ region prepared.damage
        · rw [picture, paint_of_mem damaged]
          exact (shows p).1
        · rw [picture, paint_of_not_mem damaged]
          exact (shows p).2 damaged
      · refine .inr (.inr ?_)
        simp only [base_submitted]
        exact AgreeOff.refl _ _

theorem Sourced.drawn {cores : Place → Set DisplayCore} {core drawn : DisplayCore}
    {intent : FrameIntent} {damage : List Rect} (sourced : Sourced cores core)
    (keeps : ∀ p ∈ region (core.planeArea intent),
      core.composition core.base.picture p =
        core.composition core.presentedBase.picture p)
    (draws : core.drawnPlane intent = .ok (drawn, damage)) :
    Sourced cores drawn := by
  have spec := drawnPlane_spec sourced.coherent draws
  obtain ⟨⟨sameBase, samePresentedBase, samePending⟩,
    ⟨sameOverlay, samePeer, sameInk⟩, samePresented⟩ := spec.frame
  have sameValid : drawn.baseValid = core.baseValid := by
    obtain ⟨_, _, rfl⟩ := drawnPlane_frame draws
    rfl
  refine sourced.update (coherent_drawn sourced.coherent spec)
    ⟨sameBase, samePresentedBase⟩
    ⟨sameOverlay, samePeer, by rw [sameInk, blended_planeTaken]⟩ ?_
    (sourced.of_drawn keeps spec) (.inl ⟨samePending, sameValid⟩)
  rw [samePresented]
  exact sourced.presented

theorem PlaneStep.sourced {cores : Place → Set DisplayCore} {timing : Timing}
    {intent : FrameIntent} {before after : World}
    {output : Except CoreError Unit}
    (step : PlaneStep timing intent before output after)
    (keeps : DrawKeepsBase intent before)
    (sourced : Sourced cores before.core) : Sourced cores after.core := by
  have coherent := step.coherent sourced.coherent
  cases step with
  | @failed core panel err fails =>
      have sameOver := blended_planeTaken core intent
      obtain ⟨ink, taken⟩ := planeTaken_frame core intent
      rw [taken] at coherent sameOver ⊢
      exact sourced.transfer coherent ⟨rfl, rfl⟩ ⟨rfl, rfl, sameOver⟩
        ⟨rfl, rfl⟩ (.inl ⟨rfl, rfl⟩)
  | unchanged draws => exact sourced.drawn keeps draws
  | refused draws _ _ => exact sourced.drawn keeps draws
  | @accepted core drawn next panel damage metrics draws damaged accepts
      presents =>
      have drawnSourced := sourced.drawn keeps draws
      have inside : ∀ rect ∈ drawn.submittedDamage intent damage,
          rect.Inside drawn.width drawn.height := (submittedDamage_spec intent (by
        obtain ⟨sameWidth, sameHeight⟩ :=
          width_drawn (drawnPlane_spec sourced.coherent draws)
        rw [sameWidth, sameHeight]
        exact (drawnPlane_spec sourced.coherent draws).inside)).1
      obtain ⟨presented, _, _, copied, _, rfl⟩ := planeAccepted_eq_ok presents
      have picture :=
        (planeAccepted_surfaces drawnSourced.coherent inside copied).2
      refine drawnSourced.update coherent (by simp) (by simp) (fun p => ?_)
        (by simpa using drawnSourced.working) (.inl (by simp))
      by_cases damaged : p ∈ region (drawn.submittedDamage intent damage)
      · rw [picture, paint_of_mem damaged]
        exact drawnSourced.working p
      · rw [picture, paint_of_not_mem damaged]
        exact drawnSourced.presented p

theorem CleanupStep.sourced {cores : Place → Set DisplayCore} {timing : Timing}
    {before after : World} {report : CleanupReport}
    (step : CleanupStep timing before report after)
    (idle : before.core.pending = none)
    (sourced : Sourced cores before.core) : Sourced cores after.core := by
  have coherent := step.coherent sourced.coherent
  cases step with
  | pumpFailed _ | refused _ _ =>
      exact sourced.transfer coherent ⟨rfl, rfl⟩ ⟨rfl, rfl, rfl⟩ ⟨rfl, rfl⟩
        (.inr ⟨idle, rfl⟩)
  | accepted _ _ =>
      rw [cleanupAccepted_eq] at coherent ⊢
      exact sourced.transfer coherent ⟨rfl, rfl⟩ ⟨rfl, rfl, rfl⟩ ⟨rfl, rfl⟩
        (.inl ⟨rfl, rfl⟩)

theorem Sourced.commit {cores : Place → Set DisplayCore} {core next : DisplayCore}
    {frame : ValidatedFrame} {contentClass : ContentClass} {timing : Timing}
    {decodeUs : Nat} {report : CommitReport} (sourced : Sourced cores core)
    (commits : core.commitTimed frame contentClass timing decodeUs =
      .ok (report, next)) : Sourced cores next := by
  have coherent := coherent_commit sourced.coherent commits
  obtain ⟨_, _, _, onBase, _, base, applied, isNext⟩ :=
    commitTimed_eq_ok commits
  obtain ⟨_, appliedAgain, sameShape, painted⟩ :=
    PixelSurface.applyRegionsAtomic_spec
      (PixelSurface.valid_of_applyRegionsAtomic applied)
  rw [applied] at appliedAgain
  cases appliedAgain
  have sameComposition : next.composition = core.composition :=
    composition_eq (by rw [isNext]; exact ⟨rfl, rfl, rfl⟩)
      (by rw [isNext]; exact sameShape)
  subst isNext
  refine ⟨coherent, by rw [sameComposition]; exact sourced.now,
    sourced.presented, sourced.working, ?_, fun _ => rfl⟩
  rcases sourced.stale with invalid | ⟨pending, isPending, forced⟩ | agree
  · -- only a keyframe is accepted then, and it is shown everywhere
    have keyframe : frame.baseFrameId = 0 := by
      rcases onBase with keyframe | ⟨valid, _⟩
      · exact keyframe
      · rw [invalid] at valid
        cases valid
    refine .inr (.inl ⟨_, rfl, ?_⟩)
    simp [nextPending, keyframe, invalid]
  · refine .inr (.inl ⟨_, rfl, ?_⟩)
    have carried : core.pending.any (·.forceFullDamage) = true := by
      rw [Option.mem_def.mp isPending]
      exact forced
    simp [nextPending, carried]
  · refine .inr (.inr ?_)
    intro p outside
    simp only [hintRegion, Option.map_some, Option.getD_some, nextPending,
      region_append, Set.mem_union, not_or] at outside
    simp only
    rw [painted, PixelSurface.paintRegions_of_not_covered outside.1]
    exact agree p outside.2

theorem Sourced.freeze {cores : Place → Set DisplayCore} {core : DisplayCore}
    (sourced : Sourced cores core) :
    Sourced cores core.freezePresented.2 := by
  have sameComposition : core.freezePresented.2.composition =
      core.composition :=
    composition_eq ⟨rfl, rfl, rfl⟩ sourced.coherent.presentedBaseShape
  exact ⟨coherent_freeze sourced.coherent,
    by rw [sameComposition]; exact sourced.now, sourced.presented,
    sourced.working, .inl rfl, fun impossible => nomatch impossible⟩

theorem FrameStep.planes {timing : Timing} {before after : World}
    {terminal : TerminalFrame}
    (step : FrameStep timing before terminal after) :
    after.core.composition = before.core.composition ∧
      after.core.ink = before.core.ink ∧ after.core.base = before.core.base := by
  cases step with
  | pumpFailed _ _ | unchanged _ _ _ _ | refused _ _ _ _ _ =>
      exact ⟨rfl, rfl, rfl⟩
  | accepted _ _ _ _ _ presents =>
      obtain ⟨_, _, _, _, _, rfl⟩ := presentAccepted_eq_ok presents
      exact ⟨composition_eq (by simp) (by simp), by simp, by simp⟩

theorem CoreEvent.mem_planeArea {event : CoreEvent}
    {drawing : FrameIntent × World}
    (isDrawing : event.input.drawing event.before = some drawing)
    (sameInk : drawing.2.core.ink = event.before.core.ink)
    (sameBase : drawing.2.core.base = event.before.core.base) {p : Place}
    (isRedrawn : p ∈ event.redrawn) :
    p ∈ region (drawing.2.core.planeArea drawing.1) := by
  obtain ⟨before, input, output, after⟩ := event
  obtain ⟨_, inside⟩ := isRedrawn
  cases input with
  | presentOverlay timing =>
      cases isDrawing
      refine mem_region_fullDamage.mpr ?_
      simp only at sameBase
      simp only [DisplayCore.width, DisplayCore.height, sameBase]
      exact inside
  | presentInk timing =>
      cases isDrawing
      obtain ⟨rect, isDirty, covers⟩ := inside
      simp only [planeArea, takePlaneRegions, LocalOverlay.takeDirty] at sameInk ⊢
      rw [sameInk, Option.mem_def.mp isDirty]
      simpa [mem_region] using covers
  | _ => exact inside.elim

theorem CoreEvent.drawing_of_redrawn {event : CoreEvent} {p : Place}
    (isRedrawn : p ∈ event.redrawn) :
    event.input.drawing event.before ≠ none := by
  obtain ⟨before, input, output, after⟩ := event
  obtain ⟨_, inside⟩ := isRedrawn
  cases input with
  | presentOverlay | presentInk => exact fun impossible => nomatch impossible
  | _ => exact inside.elim

/-- Presenting a plane changes neither the planes nor what was presented
below. -/
theorem PlaneStep.frame {timing : Timing} {intent : FrameIntent}
    {before after : World} {output : Except CoreError Unit}
    (step : PlaneStep timing intent before output after)
    (coherent : Coherent before.core) :
    after.core.composition = before.core.composition ∧
      after.core.presentedBase = before.core.presentedBase := by
  have ofDrawn {core drawn : DisplayCore} {damage : List Rect}
      (coherent : Coherent core)
      (draws : core.drawnPlane intent = .ok (drawn, damage)) :
      drawn.composition = core.composition ∧
        drawn.presentedBase = core.presentedBase := by
    obtain ⟨⟨sameBase, samePresentedBase, _⟩,
      ⟨sameOverlay, samePeer, sameInk⟩, _⟩ :=
      (drawnPlane_spec coherent draws).frame
    exact ⟨composition_eq ⟨sameOverlay, samePeer,
      by rw [sameInk, blended_planeTaken]⟩
      (congrArg PixelSurface.shape sameBase), samePresentedBase⟩
  cases step with
  | failed _ =>
      refine ⟨composition_planeTaken _ intent, ?_⟩
      obtain ⟨_, taken⟩ := planeTaken_frame _ intent
      rw [taken]
  | unchanged draws | refused draws _ _ => exact ofDrawn coherent draws
  | accepted draws _ _ presents =>
      obtain ⟨same, samePresentedBase⟩ := ofDrawn coherent draws
      obtain ⟨_, _, _, _, _, rfl⟩ := planeAccepted_eq_ok presents
      exact ⟨(composition_eq (by simp) (by simp)).trans same,
        by simpa using samePresentedBase⟩

/-- The local presentations among the calls show a surface of the core, and
after one of them nothing is pending. -/
def LocalShown (calls : List PanelCall) (core : DisplayCore) : Prop :=
  ∀ call ∈ calls, ∀ pixels ∈ call.localPixels, core.pending = none ∧
    (pixels = core.working ∨ pixels = core.presented)

namespace LocalShown

variable {calls newer : List PanelCall} {core next : DisplayCore}

theorem transfer (shown : LocalShown calls core)
    (samePending : next.pending = core.pending)
    (sameSurfaces : next.working = core.working ∧
      next.presented = core.presented) : LocalShown calls next := by
  unfold LocalShown
  rw [samePending, sameSurfaces.1, sameSurfaces.2]
  exact shown

theorem vacuous (shown : LocalShown calls core)
    (isPending : core.pending ≠ none) : LocalShown calls next :=
  fun call member pixels isLocal =>
    absurd (shown call member pixels isLocal).1 isPending

theorem append (newerShown : LocalShown newer core)
    (shown : LocalShown calls core) : LocalShown (newer ++ calls) core := by
  intro call member
  rcases List.mem_append.mp member with new | older
  · exact newerShown call new
  · exact shown call older

theorem of_others (others : ∀ call ∈ calls, call.localPixels = none) :
    LocalShown calls core := by
  intro call member pixels isLocal
  rw [others call member] at isLocal
  cases isLocal

end LocalShown

theorem PanelCall.localPixels_eq {submission : Submission}
    {pixels : PixelSurface}
    (isLocal : pixels ∈ (PanelCall.submit submission).localPixels) :
    pixels = submission.pixels := by
  simp only [localPixels] at isLocal
  split at isLocal
  · cases isLocal
  all_goals
    split at isLocal
    · cases isLocal
      rfl
    · cases isLocal

theorem FrameStep.others {timing : Timing} {before after : World}
    {terminal : TerminalFrame}
    (step : FrameStep timing before terminal after) :
    ∃ new, after.panel.calls = new ++ before.panel.calls ∧
      ∀ call ∈ new, call.localPixels = none := by
  cases step with
  | pumpFailed _ _ | unchanged _ _ _ _ =>
      exact ⟨[_], rfl, by simp [PanelCall.localPixels]⟩
  | refused _ _ _ _ _ | accepted _ _ _ _ _ _ =>
      exact ⟨[_, _], rfl, by simp [PanelCall.localPixels]⟩

theorem PlaneStep.localShown {timing : Timing} {intent : FrameIntent}
    {before after : World} {output : Except CoreError Unit}
    (step : PlaneStep timing intent before output after)
    (idle : before.core.pending = none) :
    ∃ new, after.panel.calls = new ++ before.panel.calls ∧
      LocalShown new after.core := by
  cases step with
  | failed _ | unchanged _ => exact ⟨[], rfl, .of_others (by simp)⟩
  | refused _ _ refuses =>
      refine ⟨[_], rfl, .of_others ?_⟩
      unfold planeOrigin
      split <;> simp [PanelCall.localPixels, refuses]
  | accepted draws _ accepts presents =>
      obtain ⟨_, _, _, _, _, rfl⟩ := planeAccepted_eq_ok presents
      obtain ⟨_, _, rfl⟩ := drawnPlane_frame draws
      refine ⟨[_], rfl, fun call member pixels isLocal => ?_⟩
      rw [List.mem_singleton.mp member] at isLocal
      exact ⟨by simpa using idle,
        .inl (by simpa using PanelCall.localPixels_eq isLocal)⟩

theorem CleanupStep.localShown {timing : Timing} {before after : World}
    {report : CleanupReport}
    (step : CleanupStep timing before report after)
    (idle : before.core.pending = none) {calls : List PanelCall}
    (shown : LocalShown calls before.core) :
    ∃ new, after.panel.calls = new ++ before.panel.calls ∧
      LocalShown (new ++ calls) after.core := by
  cases step with
  | @pumpFailed core panel failed =>
      have shown : LocalShown calls core.markPanelFailure :=
        shown.transfer rfl ⟨rfl, rfl⟩
      exact ⟨[_], rfl, .append (.of_others (by simp [PanelCall.localPixels]))
        shown⟩
  | @refused core panel _ refuses =>
      have shown : LocalShown calls core.markPanelFailure :=
        shown.transfer rfl ⟨rfl, rfl⟩
      exact ⟨[_, _], rfl, .append
        (.of_others (by simp [PanelCall.localPixels, refuses])) shown⟩
  | @accepted core panel metrics _ accepts =>
      rw [cleanupAccepted_eq]
      refine ⟨[_, _], rfl, .append ?_ (shown.transfer rfl ⟨rfl, rfl⟩)⟩
      intro call member pixels isLocal
      rcases List.mem_cons.mp member with rfl | pumped
      · exact ⟨idle, .inr (PanelCall.localPixels_eq isLocal)⟩
      · rw [List.mem_singleton.mp pumped] at isLocal
        cases isLocal

/-- What is known while an operation runs that draws no plane. -/
structure LocalOp (cores : Place → Set DisplayCore) (start world : World) :
    Prop where
  sourced : Sourced cores world.core
  shown : ∃ calls, world.panel.calls = calls ++ start.panel.calls ∧
    LocalShown calls world.core

namespace LocalOp

variable {cores : Place → Set DisplayCore} {start before after : World}

theorem extend (inv : LocalOp cores start before)
    (sourced : Sourced cores after.core)
    (shown : ∀ calls, LocalShown calls before.core →
      ∃ new, after.panel.calls = new ++ before.panel.calls ∧
        LocalShown (new ++ calls) after.core) :
    LocalOp cores start after := by
  obtain ⟨calls, added, localShown⟩ := inv.shown
  obtain ⟨new, addedNow, shownNow⟩ := shown calls localShown
  exact ⟨sourced, new ++ calls, by rw [addedNow, added, List.append_assoc],
    shownNow⟩

theorem first {next : DisplayCore} (sourced : Sourced cores next) :
    LocalOp cores start ⟨next, start.panel⟩ :=
  ⟨sourced, [], rfl, fun _ impossible => nomatch impossible⟩

theorem step {op : CoreOp} {action : Action} {terminals : List TerminalFrame}
    (inv : LocalOp cores start before) (noCancel : op ≠ .cancelPending)
    (noEdit : ∀ plane change, op ≠ .edit plane change)
    (noPlane : op.drawing start = none)
    (takes : op.Takes start before action)
    (step : CoreStep before action terminals after) :
    LocalOp cores start after := by
  cases step with
  | commit commits =>
      rw [← takes.1]
      exact .first (inv.sourced.commit commits)
  | cancel => exact absurd takes.2 noCancel
  | freeze =>
      rw [← takes.1]
      exact .first inv.sourced.freeze
  | edit _ => exact absurd takes.2 (noEdit _ _)
  | adjust adjusts =>
      have coherent := adjusts.coherent inv.sourced.coherent
      obtain ⟨_, _, _, _, _, _, rfl⟩ := adjusts.frame
      exact inv.extend (inv.sourced.transfer coherent ⟨rfl, rfl⟩
        ⟨rfl, rfl, rfl⟩ ⟨rfl, rfl⟩ (.inl ⟨rfl, rfl⟩))
        fun _ shown => ⟨[], rfl, shown.transfer rfl ⟨rfl, rfl⟩⟩
  | present step =>
      have isPending := Option.isSome_iff_ne_none.mp step.isPending
      obtain ⟨new, added, others⟩ := step.others
      exact inv.extend (step.sourced inv.sourced) fun _ shown =>
        ⟨new, added, .append (.of_others others) (shown.vacuous isPending)⟩
  | draw step =>
      obtain ⟨isDrawing, _⟩ := takes
      rw [noPlane] at isDrawing
      cases isDrawing
  | resubmit idle step =>
      exact inv.extend (step.sourced idle inv.sourced) fun _ =>
        step.localShown idle

end LocalOp

/-- An edit only changes what is composed from now on. -/
theorem Sourced.edit {cores : Place → Set DisplayCore}
    {core next : DisplayCore} {id : PlaneId} {change : PlaneEdit}
    (sourced : Sourced cores core) (edits : core.editPlane id change = .ok next) :
    Sourced (fun p => insert next (cores p)) next := by
  have coherent := coherent_edit sourced.coherent edits
  have wider : Sourced (fun p => insert next (cores p)) core :=
    sourced.mono fun p => Set.subset_insert next (cores p)
  obtain ⟨_, _, isNext⟩ := editPlane_eq_ok edits
  obtain ⟨overlay, peer, ink, same⟩ := setPlane_frame core id _
  rw [same] at isNext
  have sameSurfaces : next.presented = core.presented ∧
      next.working = core.working ∧
      next.presentedBase = core.presentedBase := by
    rw [isNext]
    exact ⟨rfl, rfl, rfl⟩
  obtain ⟨samePresented, sameWorking, samePresentedBase⟩ := sameSurfaces
  refine ⟨coherent, fun p => ⟨next, Set.mem_insert _ _, rfl⟩, ?_, ?_, ?_, ?_⟩
  · rw [samePresented, samePresentedBase]
    exact wider.presented
  · rw [sameWorking, samePresentedBase]
    exact wider.working
  · rw [isNext]
    exact wider.stale
  · rw [isNext]
    exact wider.valid

section

variable {history : List CoreEvent} {event : CoreEvent}
  (stepped : coreStep event.before event.input event.output event.after)
  (sourced : Sourced
    (fun p => insert event.before.core (drawnFrom history p)) event.before.core)

include stepped sourced

private theorem local_of_plane (keeps : event.KeepsBase)
    {drawing : FrameIntent × World}
    (isDrawing : event.input.drawing event.before = some drawing) :
    Sourced (drawnFrom (event :: history)) event.after.core ∧
      LocalShown event.calls event.after.core := by
  obtain ⟨timing, drawn, flush, plane, errors⟩ :=
    (accounts_of_coreStep sourced.coherent stepped).draws drawing isDrawing
  have keepsBase := keeps.2 drawing isDrawing
  obtain ⟨flushSourced, idle, ⟨sameFlush, sameInk, sameBase⟩, flushCalls,
      flushAdded, others⟩ :
      Sourced (fun p => insert event.before.core (drawnFrom history p))
          drawing.2.core ∧ drawing.2.core.pending = none ∧
        (drawing.2.core.composition = event.before.core.composition ∧
          drawing.2.core.ink = event.before.core.ink ∧
          drawing.2.core.base = event.before.core.base) ∧
        ∃ new, drawing.2.panel.calls = new ++ event.before.panel.calls ∧
          ∀ call ∈ new, call.localPixels = none := by
    rcases flush with ⟨idle, same⟩ | ⟨terminal, step⟩
    · rw [same]
      exact ⟨sourced, idle, ⟨rfl, rfl, rfl⟩, [], rfl, by simp⟩
    · exact ⟨step.sourced sourced, step.idle, step.planes, step.others⟩
  obtain ⟨same, samePresentedBase⟩ := plane.frame flushSourced.coherent
  refine ⟨(plane.sourced keepsBase flushSourced).narrow event.before.core
    event.redrawn (same.trans sameFlush).symm (fun p => .inl rfl) ?_ ?_, ?_⟩
  · rintro p outside core (rfl | older)
    · exact .inl rfl
    · exact .inr ⟨outside, older⟩
  · intro p isRedrawn
    have inside := CoreEvent.mem_planeArea isDrawing sameInk sameBase isRedrawn
    obtain ⟨⟨reply, isOk⟩, _⟩ := isRedrawn
    cases drawn with
    | error err =>
        obtain ⟨_, impossible⟩ := errors.mp ⟨err, rfl⟩
        rw [isOk] at impossible
        cases impossible
    | ok =>
        rw [same, samePresentedBase, ← keepsBase p inside]
        exact plane.redrawn flushSourced.coherent inside
  · obtain ⟨new, added, shown⟩ := plane.localShown idle
    rw [event.calls_eq (by rw [added, flushAdded, List.append_assoc])]
    exact shown.append (.of_others others)

private theorem local_of_other (keeps : event.KeepsBase)
    (noEdit : ∀ plane change, event.input ≠ .edit plane change)
    (noPlane : event.input.drawing event.before = none) :
    Sourced (drawnFrom (event :: history)) event.after.core ∧
      LocalShown event.calls event.after.core := by
  obtain ⟨_, steps, _⟩ := (accounts_of_coreStep sourced.coherent stepped).steps
  have inv := steps.keeps (LocalOp _ event.before)
    (fun takes step inv => inv.step keeps.1 noEdit noPlane takes step)
    (.first sourced)
  obtain ⟨calls, added, shown⟩ := inv.shown
  rw [CoreEvent.calls_eq added]
  refine ⟨inv.sourced.mono ?_, shown⟩
  rintro p core (rfl | older)
  · exact .inl rfl
  · exact .inr ⟨fun isRedrawn => CoreEvent.drawing_of_redrawn isRedrawn noPlane,
      older⟩

private theorem local_of_coreStep (keeps : event.KeepsBase) :
    Sourced (fun p => insert event.after.core (drawnFrom (event :: history) p))
        event.after.core ∧
      ∀ call ∈ event.calls, ∀ pixels ∈ call.localPixels, ∀ p,
        ShowsOver (drawnFrom (event :: history) p)
          event.after.core.presentedBase.picture p (pixels.picture p) := by
  have shows (isShown : Sourced (drawnFrom (event :: history)) event.after.core ∧
      LocalShown event.calls event.after.core) :
      Sourced (fun p =>
        insert event.after.core (drawnFrom (event :: history) p))
          event.after.core ∧
        ∀ call ∈ event.calls, ∀ pixels ∈ call.localPixels, ∀ p,
          ShowsOver (drawnFrom (event :: history) p)
            event.after.core.presentedBase.picture p (pixels.picture p) := by
    refine ⟨isShown.1.mono fun p => Set.subset_insert _ _, ?_⟩
    intro call member pixels isLocal p
    rcases (isShown.2 call member pixels isLocal).2 with rfl | rfl
    · exact isShown.1.working p
    · exact isShown.1.presented p
  by_cases isEdit : ∃ plane change, event.input = .edit plane change
  · obtain ⟨plane, change, isEdit⟩ := isEdit
    have noPlane : event.input.drawing event.before = none := by
      rw [isEdit]
      rfl
    rw [isEdit] at stepped
    change (onCore (fun _ : Unit => CoreReply.done) _).Runs _ _ _ at stepped
    have noCalls (same : event.after.panel = event.before.panel) :
        event.calls = [] := CoreEvent.calls_eq (by rw [same]; rfl)
    have older (p : Place) :
        insert event.before.core (drawnFrom history p) ⊆
          drawnFrom (event :: history) p := by
      rintro core (rfl | older)
      · exact .inl rfl
      · exact .inr ⟨fun isRedrawn =>
          CoreEvent.drawing_of_redrawn isRedrawn noPlane, older⟩
    rcases onCore_runs stepped with ⟨_, next, edits, _, isAfter⟩ |
      ⟨err, _, _, isAfter⟩
    · obtain ⟨edited, edits, same⟩ := Res.bind_eq_ok.mp edits
      cases same
      rw [Res.mapError_eq_ok] at edits
      refine ⟨?_, by rw [noCalls (by rw [isAfter])]; simp⟩
      rw [isAfter]
      exact (sourced.edit edits).mono fun p =>
        Set.insert_subset_insert (older p)
    · refine ⟨?_, by rw [noCalls (by rw [isAfter])]; simp⟩
      rw [isAfter]
      exact sourced.mono fun p => (older p).trans (Set.subset_insert _ _)
  · cases isDrawing : event.input.drawing event.before with
    | some drawing => exact shows (local_of_plane stepped sourced keeps isDrawing)
    | none =>
        exact shows (local_of_other stepped sourced keeps
          (fun plane change same => isEdit ⟨plane, change, same⟩) isDrawing)

end

theorem composition_of_transparent {core : DisplayCore}
    (clear : core.overlay.transparent = true ∧
      core.peerOverlay.transparent = true ∧ core.ink.transparent = true)
    (picture : Pixels) : core.composition picture = picture := by
  unfold composition
  rw [LocalOverlay.blended_of_transparent clear.2.1,
    LocalOverlay.blended_of_transparent clear.2.2,
    LocalOverlay.blended_of_transparent clear.1]

private structure LocalInv (history : List CoreEvent) (final : World) :
    Prop where
  sourced : Sourced (fun p => insert final.core (drawnFrom history p)) final.core
  shown : ∀ (event : CoreEvent) (earlier : List CoreEvent),
    event :: earlier <:+ history →
    ∀ call ∈ event.calls, ∀ pixels ∈ call.localPixels, ∀ p,
      ShowsOver (drawnFrom (event :: earlier) p)
        event.after.core.presentedBase.picture p (pixels.picture p)

private theorem localInv_snoc {history : List CoreEvent} {event : CoreEvent}
    (keeps : event.KeepsBase)
    (stepped : coreStep event.before event.input event.output event.after)
    (inv : LocalInv history event.before) :
    LocalInv (event :: history) event.after := by
  obtain ⟨sourced, shown⟩ := local_of_coreStep stepped inv.sourced keeps
  refine ⟨sourced, fun other earlier suffix => ?_⟩
  rcases List.suffix_cons_iff.mp suffix with same | older
  · cases same
    exact shown
  · exact inv.shown other earlier older

/-- Local presentations show the presented base in every run whose planes are
drawn where that makes no difference to the base. -/
theorem localFromPresented_of_run {setup : CoreSetup}
    {history : List CoreEvent} {final : World} {first : DisplayCore}
    (fresh : setup.newCore = .ok first) (run : CoreRun setup history final)
    (keeps : ∀ event ∈ history, event.KeepsBase) :
    LocalFromPresented first.base history := by
  obtain ⟨start, isStart, whole⟩ := run
  have sameStart := isStart
  rw [fresh] at sameStart
  cases sameStart
  obtain ⟨coherent, blank, invalid, _⟩ := newCore_spec fresh
  have blankComposition := composition_of_transparent
    ⟨blank.overlay, blank.peer, blank.ink⟩ first.base.picture
  have shows (p : Place) : ShowsOver {first} first.base.picture p
      (first.base.picture p) :=
    ⟨first, rfl, by rw [blankComposition]⟩
  have sourced : Sourced (fun _ => {first}) first := by
    refine ⟨coherent, fun _ => ⟨first, rfl, rfl⟩, ?_, ?_, .inl invalid, ?_⟩
    · rw [blank.presented, blank.presentedBase]
      exact shows
    · rw [blank.working, blank.presentedBase]
      exact shows
    · simp [blank.idle]
  have atStart : LocalInv [] ⟨first, setup.panel⟩ :=
    ⟨sourced.mono (by simp), fun event earlier suffix => by simp at suffix⟩
  have inv := Run.keeps LocalInv atStart (fun _ _ => localInv_snoc) whole keeps
  intro event earlier suffix call member pixels isLocal
  obtain ⟨later, split⟩ := suffix
  obtain ⟨before, stepped⟩ := whole.prefix_of_split split.symm
  have upToEvent : CoreRun setup (event :: earlier) event.after :=
    ⟨first, fresh, .snoc before stepped⟩
  exact ⟨(lineage_of_run upToEvent fresh).presented,
    inv.shown event earlier ⟨later, split⟩ call member pixels isLocal⟩

theorem drawKeepsBase_of_eq {intent : FrameIntent} {world : World}
    (same : world.core.base = world.core.presentedBase) :
    DrawKeepsBase intent world := by
  intro p _
  rw [same]

/-- The panel refuses a frame, and the menu is presented after the keyframe
that recovers from it. -/
theorem localFromPresented_after_keyframe :
    ∃ first history final,
      CoreRun (.gray 2 1 (fun _ => true)
        fun call => if call = 3 then none else some { }) history final ∧
      final.core.presented.pixels = [40, 30] ∧
      LocalFromPresented first history := by
  have replayed : ((CoreSetup.gray 2 1 (fun _ => true)
      fun call => if call = 3 then none else some { }).replay
      [.presentOverlay { now := .ofSecs 6 },
        .edit .menu (.patch ⟨0, 0, 1, 1⟩ [40] [255]),
        .tick { now := .ofSecs 5 },
        .commit (grayFrame 3 0 .latest ⟨0, 0, 2, 1⟩ [30, 30]) .textUi
          { now := .ofSecs 4 } 0,
        .tick { now := .ofSecs 3 },
        .commit (grayFrame 2 1 .latest ⟨0, 0, 1, 1⟩ [20]) .textUi
          { now := .ofSecs 2 } 0,
        .tick { now := .ofSecs 1 },
        .commit (grayFrame 1 0 .latest ⟨0, 0, 2, 1⟩ [10, 10]) .textUi
          { now := .ofSecs 1 } 0]).map (fun result =>
        (result.2.core.presented.pixels, result.1.all fun event =>
          decide (event.input ≠ .cancelPending ∧
            ∀ drawing ∈ event.input.drawing event.before,
              drawing.2.core.base = drawing.2.core.presentedBase))) =
      some ([40, 30], true) := by decide +kernel
  obtain ⟨⟨history, final⟩, replayed, facts⟩ :=
    Option.map_eq_some_iff.mp replayed
  simp only [Prod.mk.injEq, List.all_eq_true, decide_eq_true_eq] at facts
  have run := CoreSetup.run_of_replay replayed
  obtain ⟨first, fresh, _⟩ := id run
  exact ⟨first.base, history, final, run, facts.1,
    localFromPresented_of_run fresh run fun event member =>
      ⟨(facts.2 event member).1, fun drawing isDrawing =>
        drawKeepsBase_of_eq ((facts.2 event member).2 drawing isDrawing)⟩⟩

/-- The panel refuses a frame and then takes the menu: it shows the pixel of
the refused frame. -/
theorem rejected_pixels_shown :
    ∃ first history final,
      (CoreSetup.gray 1 1 (fun _ => true)
        fun call => if call = 3 then none else some { }).newCore = .ok first ∧
      (CoreSetup.gray 1 1 (fun _ => true)
        fun call => if call = 3 then none else some { }).replay
        [.presentOverlay { now := .ofSecs 4 },
          .commit (grayFrame 2 1 .latest ⟨0, 0, 1, 1⟩ [20]) .textUi
            { now := .ofSecs 3 } 0,
          .tick { now := .ofSecs 2 },
          .commit (grayFrame 1 0 .latest ⟨0, 0, 1, 1⟩ [10]) .textUi
            { now := .ofSecs 1 } 0] = some (history, final) ∧
      CoreRun (.gray 1 1 (fun _ => true)
        fun call => if call = 3 then none else some { }) history final ∧
      (final.core.presented.pixels = [20] ∧
        final.core.presentedBase.pixels = [10]) ∧
      ¬ LocalFromPresented first.base history := by
  have replayed : ((CoreSetup.gray 1 1 (fun _ => true)
      fun call => if call = 3 then none else some { }).replay
      [.presentOverlay { now := .ofSecs 4 },
        .commit (grayFrame 2 1 .latest ⟨0, 0, 1, 1⟩ [20]) .textUi
          { now := .ofSecs 3 } 0,
        .tick { now := .ofSecs 2 },
        .commit (grayFrame 1 0 .latest ⟨0, 0, 1, 1⟩ [10]) .textUi
          { now := .ofSecs 1 } 0]).map (fun result =>
        ((result.2.core.presented.pixels, result.2.core.presentedBase.pixels),
          result.1.all (fun event => event.before.core.overlay.transparent &&
            event.before.core.peerOverlay.transparent &&
            event.before.core.ink.transparent),
          result.1.head?.any fun event =>
            decide (∃ call ∈ CoreEvent.calls event,
              ∃ pixels ∈ call.localPixels, pixels.picture (0, 0) = [20] ∧
                event.after.core.presentedBase.picture (0, 0) = [10]))) =
      some (([20], [10]), true, true) := by decide +kernel
  obtain ⟨⟨history, final⟩, replayed, facts⟩ :=
    Option.map_eq_some_iff.mp replayed
  simp only [Prod.mk.injEq, List.all_eq_true, Bool.and_eq_true] at facts
  obtain ⟨pixels, transparent, shown⟩ := facts
  have run := CoreSetup.run_of_replay replayed
  obtain ⟨first, fresh, _⟩ := id run
  refine ⟨first, history, final, fresh, replayed, run, pixels, ?_⟩
  intro promised
  cases history with
  | nil => cases shown
  | cons event earlier =>
      simp only [List.head?_cons, Option.any_some, decide_eq_true_eq] at shown
      obtain ⟨call, member, surface, isLocal, shows, base⟩ := shown
      obtain ⟨core, isDrawn, same⟩ :=
        (promised event earlier (List.suffix_refl _) call member surface
          isLocal).2 (0, 0)
      obtain ⟨visited, isVisited, rfl⟩ := mem_drawnFrom isDrawn
      obtain ⟨⟨menu, peer⟩, ink⟩ := transparent visited isVisited
      rw [composition_of_transparent ⟨menu, peer, ink⟩, shows, base] at same
      cases same

end RmDisplay.Core
