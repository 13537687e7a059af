import RmDisplay.Link.Dialogue
import RmDisplay.Producer.DecodedRegions
import RmDisplay.Receiver.FrameSteps

/-!
# The base of a delta

A delta is computed from the pixels that were passed for an earlier frame, and
the receiver applies it to its own base.  As long as the application passes what
it passed before, the two are the same picture: a base that is valid shows the
pixels of its frame, and so does every picture that is presented.
-/

namespace RmDisplay.Link

open Foundation Protocol RmDisplay.Core Core.DisplayCore Producer Receiver

theorem base_of_change {failed : Bool} {state next : FrameState}
    (change : FrameChange failed state next) : next.base = state.base := by
  cases change with
  | kept | dropped | failed | presented _ => rfl

theorem sameShape_of_moves {view next : Option FrameView}
    {entries : List JournalEntry} {calls : List PanelCall}
    (moves : FaceMove view entries calls next)
    (stays : ∀ entry ∈ entries, entry.opens = false)
    (coherent : ∀ shown ∈ view,
      shown.state.presentedBase.shape = shown.state.base.shape) :
    ∀ shown ∈ next, ∃ was ∈ view,
      shown.state.base.shape = was.state.base.shape := by
  intro shown isShown
  cases moves with
  | quiet _ _ => exact ⟨shown, isShown, rfl⟩
  | core wasShown change =>
      cases isShown
      exact ⟨_, wasShown, congrArg PixelSurface.shape (base_of_change change)⟩
  | froze wasShown _ _ =>
      cases isShown
      exact ⟨_, wasShown, coherent _ wasShown⟩
  | released wasShown _ =>
      cases isShown
      exact ⟨_, wasShown, rfl⟩
  | accepted wasShown accepts _ =>
      cases isShown
      refine ⟨_, wasShown, ?_⟩
      obtain ⟨after, applied, kept, _⟩ := PixelSurface.applyRegionsAtomic_spec
        (PixelSurface.valid_of_applyRegionsAtomic accepts.applied)
      rw [accepts.applied] at applied
      cases applied
      exact kept
  | opened _ _ _ _ _ _ => cases stays _ (List.mem_singleton_self _)
  | closed => cases isShown

/-- The base has a pixel for each place of the surface. -/
def Spans (surface : Surface) (view : Option FrameView) : Prop :=
  ∀ shown ∈ view, shown.state.base.width * shown.state.base.height =
    surface.width * surface.height

/-- A surface was opened with planes of its size. -/
def OpensSpanning (surface : Surface) : JournalEntry → Prop
  | .opened _ _ planes _ =>
      planes.luma.length = surface.width * surface.height
  | _ => True

theorem spans_of_opens {surface : Surface} {before after : Station}
    {entries : List JournalEntry} (step : FaceStep before entries after)
    (told : ∀ entry ∈ entries, OpensSpanning surface entry)
    (opens : entries.any (·.opens) = true) :
    Spans surface after.face.frameView := by
  cases step with
  | opened _ _ _ _ _ fresh =>
      intro shown isShown
      cases isShown
      exact fresh.coherent.inkLen.symm.trans
        (told _ (List.mem_singleton_self _))
  | inked _ step => cases step <;> simp [JournalEntry.opens] at opens
  | _ => simp [JournalEntry.opens] at opens

theorem spans_of_step {surface : Surface} {before after : Station}
    {entries : List JournalEntry} (step : FaceStep before entries after)
    (sound : before.face.Sound)
    (told : ∀ entry ∈ entries, OpensSpanning surface entry)
    (spans : Spans surface before.face.frameView) :
    Spans surface after.face.frameView := by
  by_cases opens : entries.any (·.opens) = true
  · exact spans_of_opens step told opens
  · have stays : ∀ entry ∈ entries, entry.opens = false := by
      simpa using opens
    obtain ⟨_, _, moves⟩ := step.frames
    intro shown isShown
    obtain ⟨was, wasShown, sameShape⟩ := sameShape_of_moves moves stays (by
      intro other isOther
      obtain ⟨screen, isScreen, rfl⟩ := Option.map_eq_some_iff.mp isOther
      exact (sound.coherent screen isScreen).presentedBaseShape) shown isShown
    obtain ⟨⟨sameWidth, sameHeight⟩, _⟩ := PixelSurface.shape_eq_iff.mp sameShape
    rw [sameWidth, sameHeight]
    exact spans was wasShown

/-- The picture has the pixels that were passed for a frame. -/
structure Shows (made : List ClientEvent) (surface : Surface) (frameId : Nat)
    (picture : PixelSurface) : Prop where
  pixels : passed made frameId = some picture.pixels
  width : picture.width = surface.width
  height : picture.height = surface.height

/-- A valid base and a presented picture show the pixels of their frames. -/
structure ShowsPassed (made : List ClientEvent) (surface : Surface)
    (state : FrameState) : Prop where
  base : state.baseValid = true →
    Shows made surface state.logicalFrameId state.base
  /-- What is pending is the base. -/
  pending : ∀ pending ∈ state.pending,
    state.baseValid = true ∧ pending.frameId = state.logicalFrameId
  presented : state.presentedFrameId ≠ 0 →
    Shows made surface state.presentedFrameId state.presentedBase

/-- What a frame is decoded to: pixels that were passed for it, wherever they
are not those of its base. -/
structure Carries (made : List ClientEvent) (surface : Surface)
    (validated : ValidatedFrame) : Prop where
  someRegion : validated.regions ≠ []
  pixels : ∃ pixels, passed made validated.frameId = some pixels ∧
    pixels.length = surface.width * surface.height ∧
    Drawn pixels surface.width surface.height validated.regions ∧
    ∀ previous, passed made validated.baseFrameId = some previous →
      validated.baseFrameId ≠ 0 → CoversChange previous pixels surface.width
        surface.height validated.regions

private theorem size_of_keyframe {surface : Surface} {base : PixelSurface}
    {validated : ValidatedFrame}
    (spans : base.width * base.height = surface.width * surface.height)
    (inside : ∀ region ∈ validated.regions,
      region.rect.Inside surface.width surface.height)
    (full : validated.regions.map (·.rect) =
      [⟨0, 0, base.width, base.height⟩]) :
    base.width = surface.width ∧ base.height = surface.height := by
  have isRect : (⟨0, 0, base.width, base.height⟩ : Rect) ∈
      validated.regions.map (·.rect) := by
    rw [full]
    exact List.mem_singleton_self _
  obtain ⟨region, member, same⟩ := List.mem_map.mp isRect
  have fits := inside region member
  rw [same] at fits
  have narrow : base.width ≤ surface.width := by simpa using fits.right
  have low : base.height ≤ surface.height := by simpa using fits.bottom
  have wide := base.packed.wide
  have high := base.packed.high
  constructor
  · by_contra differ
    have less : base.width < surface.width := by omega
    have smaller := Nat.mul_lt_mul_of_lt_of_le less low (by omega)
    omega
  · by_contra differ
    have less : base.height < surface.height := by omega
    have smaller := Nat.mul_lt_mul_of_le_of_lt narrow less (by omega)
    omega

theorem shows_of_accepts {made : List ClientEvent} {surface : Surface}
    {view : FrameView} {frame : Frame} {validated : ValidatedFrame}
    {base : PixelSurface} (accepts : view.Accepts frame validated base)
    (spans : view.state.base.width * view.state.base.height =
      surface.width * surface.height)
    (carries : Carries made surface validated)
    (shows : view.state.baseValid = true →
      Shows made surface view.state.logicalFrameId view.state.base) :
    Shows made surface validated.frameId base := by
  obtain ⟨pixels, isPassed, sized, drawn, covers⟩ := carries.pixels
  suffices sameSize : (view.state.base.width = surface.width ∧
      view.state.base.height = surface.height) ∧
        CoversChange view.state.base.pixels pixels view.state.base.width
          view.state.base.height validated.regions by
    obtain ⟨⟨sameWidth, sameHeight⟩, covered⟩ := sameSize
    obtain ⟨sameShape, isShown⟩ := shows_of_applied accepts.applied
      carries.someRegion (by rw [sized, spans])
      (by rw [sameWidth]; exact drawn.extracted) covered
    obtain ⟨⟨baseWidth, baseHeight⟩, _⟩ := PixelSurface.shape_eq_iff.mp sameShape
    exact ⟨by rw [isShown, isPassed], baseWidth.trans sameWidth,
      baseHeight.trans sameHeight⟩
  by_cases keyframe : validated.baseFrameId = 0
  · have full := accepts.full keyframe
    refine ⟨size_of_keyframe spans drawn.inside full, ?_⟩
    rintro column row ⟨onSurface, _⟩
    rw [full, covered_singleton]
    exact ⟨⟨Nat.zero_le _, by simpa using onSurface.1⟩, Nat.zero_le _,
      by simpa using onSurface.2⟩
  · obtain ⟨valid, onBase⟩ := accepts.onBase.resolve_left keyframe
    obtain ⟨wasPassed, sameWidth, sameHeight⟩ := shows valid
    refine ⟨⟨sameWidth, sameHeight⟩, ?_⟩
    rw [sameWidth, sameHeight]
    rw [← onBase] at wasPassed
    exact covers _ wasPassed keyframe

theorem ShowsPassed.changed {made : List ClientEvent} {surface : Surface}
    {failed : Bool} {state next : FrameState}
    (shows : ShowsPassed made surface state)
    (change : FrameChange failed state next) :
    ShowsPassed made surface next := by
  have idle : ∀ pending ∈ (none : Option PendingPresentation),
      next.baseValid = true ∧ pending.frameId = next.logicalFrameId :=
    fun _ missing => absurd missing (Option.not_mem_none _)
  cases change with
  | kept => exact shows
  | dropped => exact ⟨shows.base, idle, shows.presented⟩
  | failed =>
      refine ⟨fun valid => ?_, idle, shows.presented⟩
      cases valid
  | presented isPending =>
      refine ⟨shows.base, idle, fun _ => ?_⟩
      obtain ⟨valid, isLogical⟩ := shows.pending _ isPending
      have onBase := shows.base valid
      rw [← isLogical] at onBase
      exact onBase

theorem showsPassed_of_moves {made : List ClientEvent} {surface : Surface}
    {view next : Option FrameView} {entries : List JournalEntry}
    {calls : List PanelCall} (moves : FaceMove view entries calls next)
    (spans : Spans surface view)
    (carries : ∀ frame validated, .accepted frame validated ∈ entries →
      Carries made surface validated)
    (shows : ∀ shown ∈ view, ShowsPassed made surface shown.state) :
    ∀ shown ∈ next, ShowsPassed made surface shown.state := by
  intro shown isShown
  cases moves with
  | quiet _ _ => exact shows shown isShown
  | core wasShown change =>
      cases isShown
      exact (shows _ wasShown).changed change
  | froze wasShown _ _ =>
      cases isShown
      refine ⟨fun valid => ?_, fun pending missing => ?_,
        (shows _ wasShown).presented⟩
      · cases valid
      · cases missing
  | released wasShown _ =>
      cases isShown
      have was := shows _ wasShown
      exact ⟨was.base, was.pending, was.presented⟩
  | accepted wasShown accepts isPending =>
      cases isShown
      have was := shows _ wasShown
      refine ⟨fun _ => ?_, fun pending same => ?_, was.presented⟩
      · exact shows_of_accepts accepts (spans _ wasShown)
          (carries _ _ (List.mem_singleton_self _)) was.base
      · cases same
        exact ⟨rfl, isPending⟩
  | opened _ _ _ _ _ blank =>
      cases isShown
      obtain ⟨invalid, _, unpresented, idle⟩ := blank
      refine ⟨fun valid => ?_, fun pending same => ?_, fun presented => ?_⟩
      · rw [invalid] at valid
        cases valid
      · rw [idle] at same
        cases same
      · exact absurd unpresented presented
  | closed => cases isShown

theorem showsPassed_of_opened {made : List ClientEvent} {surface : Surface}
    {view next : Option FrameView} {entries : List JournalEntry}
    {calls : List PanelCall} (moves : FaceMove view entries calls next)
    (opens : entries.any (·.opens) = true) :
    ∀ shown ∈ next, ShowsPassed made surface shown.state := by
  cases moves with
  | quiet _ plain =>
      obtain ⟨entry, member, isOpening⟩ := List.any_eq_true.mp opens
      have quiet := plain entry member
      cases entry with
      | opened => exact quiet.elim
      | _ => cases isOpening
  | opened surfaceId generation ink stale live blank =>
      refine showsPassed_of_moves (.opened surfaceId generation ink stale live
        blank : FaceMove none _ _ _) ?_ ?_ ?_
      · exact fun _ missing => absurd missing (Option.not_mem_none _)
      · exact fun _ _ impossible => by simp at impossible
      · exact fun _ missing => absurd missing (Option.not_mem_none _)
  | _ => simp [JournalEntry.opens] at opens

/-- The frames taken since the surface was opened carry what was passed. -/
def AllCarry (made : List ClientEvent) (surface : Surface)
    (entries : List JournalEntry) : Prop :=
  ∀ frame validated, .accepted frame validated ∈ chronicle entries →
    Carries made surface validated

/-- What is shown after the entries so far. -/
structure Showing (made : List ClientEvent) (surface : Surface)
    (entries : List JournalEntry) (view : Option FrameView) : Prop where
  spans : Spans surface view
  shows : AllCarry made surface entries →
    ∀ shown ∈ view, ShowsPassed made surface shown.state

theorem Showing.step {made : List ClientEvent} {surface : Surface}
    {before after : Station} {entries older : List JournalEntry}
    (showing : Showing made surface older before.face.frameView)
    (step : FaceStep before entries after) (sound : before.face.Sound)
    (told : ∀ entry ∈ entries, OpensSpanning surface entry) :
    Showing made surface (entries.reverse ++ older) after.face.frameView := by
  refine ⟨spans_of_step step sound told showing.spans, fun carry => ?_⟩
  obtain ⟨calls, _, moves⟩ := step.frames
  by_cases opens : entries.any (·.opens) = true
  · exact showsPassed_of_opened moves opens
  · have stays : ∀ entry ∈ entries, entry.opens = false := by
      simpa using opens
    unfold AllCarry at carry
    rw [chronicle_append stays] at carry
    refine showsPassed_of_moves moves showing.spans ?_ (showing.shows ?_)
    · exact fun frame validated member =>
        carry frame validated (List.mem_append_right _ member)
    · exact fun frame validated member =>
        carry frame validated (List.mem_append_left _ member)

theorem Showing.steps {made : List ClientEvent} {surface : Surface}
    {before after : Station} {entries older : List JournalEntry}
    (showing : Showing made surface older before.face.frameView)
    (steps : Steps before entries after) (sound : before.face.Sound)
    (told : ∀ entry ∈ entries, OpensSpanning surface entry) :
    Showing made surface (entries.reverse ++ older) after.face.frameView := by
  induction steps generalizing older with
  | nil => exact showing
  | cons step rest induction =>
      rw [List.reverse_append, List.append_assoc]
      refine induction (showing.step step sound fun entry member =>
        told entry (List.mem_append_left _ member)) (step.sound sound) ?_
      exact fun entry member => told entry (List.mem_append_right _ member)

theorem showing_of_run {made : List ClientEvent} {surface : Surface}
    {setup : SessionSetup} {history : List SessionEvent} {session : Session}
    (run : SessionRun setup history session)
    (told : ∀ entry ∈ entriesOf history, OpensSpanning surface entry) :
    Showing made surface (entriesOf history) session.face.frameView := by
  have isTold : ∀ event ∈ history, ∀ entry ∈ event.written,
      OpensSpanning surface entry := by
    intro event isEvent entry member
    exact told entry (List.mem_flatMap.mpr
      ⟨event, isEvent, List.mem_reverse.mpr member⟩)
  refine (run.keeps (fun history face => Showing made surface
    (entriesOf history) face.frameView) ?_ ?_ isTold).2
  · exact ⟨fun _ missing => absurd missing (Option.not_mem_none _),
      fun _ _ missing => absurd missing (Option.not_mem_none _)⟩
  · intro history event left isTold acts showing
    exact showing.steps acts.steps acts.sound isTold

theorem carries_of_backed {made : List ClientEvent} {surface : Surface}
    {coding : Coding} {frame : Frame} {call : Call} {codecs : Codecs}
    {state : SurfaceState} {validated : ValidatedFrame}
    (positive : 0 < surface.width ∧ 0 < surface.height)
    (inverts : Inverts codecs coding.compress)
    (backed : Backed made surface coding frame call)
    (valid : validateAndDecodeFrame codecs frame state = .ok validated) :
    Carries made surface validated := by
  have decodes := decodes_of_validate valid
  obtain ⟨bytesPerPixel, supported, _⟩ := decodes.fits
  have checked := (valid_of_validate supported valid).1
  have sized := backed.sized.pixels
  rw [backed.isOn] at sized
  refine ⟨?_, call.pixels, by rw [decodes.frameId, backed.pixels], sized, ?_⟩
  · have some := checked.someRegion
    rw [checked.decodes.length_eq] at some
    exact List.ne_nil_of_length_pos some
  · have decoded := checked.decodes
    rcases backed.regions with whole | ⟨before, tile, wasSized, delta, based⟩
    · rw [whole, Call.whole, backed.isOn] at decoded
      obtain ⟨drawn, covers⟩ := drawn_of_whole inverts positive.1 positive.2
        sized decoded
      exact ⟨drawn, fun previous _ _ => covers previous⟩
    · obtain ⟨drawn, covers⟩ := drawn_of_delta inverts positive.1 positive.2
        wasSized sized delta decoded
      refine ⟨drawn, fun previous wasPassed isDelta => ?_⟩
      rw [decodes.baseFrameId] at wasPassed isDelta
      have same := (based.resolve_left isDelta).symm.trans wasPassed
      cases same
      exact covers

namespace Linked

variable {setup : SessionSetup} {start client : ProducerClient}
  {surface : Surface} {made : List ClientEvent} {history : List SessionEvent}
  {session : Session}

theorem carries
    (linked : Linked setup start surface made client history session)
    (inverts : Inverts setup.codecs start.compress)
    (disciplined : Disciplined made) (onSurface : OnSurface surface made)
    {frame : Frame} (sent : frame ∈ sentFrames client.journal)
    {state : SurfaceState} {validated : ValidatedFrame}
    (valid : validateAndDecodeFrame setup.codecs frame state = .ok validated) :
    Carries made surface validated := by
  obtain ⟨ready, run⟩ := linked.clientRun
  have passes := run.passes linked.sequenced disciplined onSurface
  obtain ⟨call, backed⟩ := passes.backed frame sent
  rw [linked.coding] at backed
  exact carries_of_backed linked.sized.1 inverts backed valid

theorem allCarry
    (linked : Linked setup start surface made client history session)
    (inverts : Inverts setup.codecs start.compress)
    (disciplined : Disciplined made) (onSurface : OnSurface surface made) :
    AllCarry made surface (entriesOf history) := by
  intro frame validated member
  obtain ⟨⟨sameCodecs, _⟩, told⟩ := linked.serves.terms
  obtain ⟨state, valid⟩ := told _ (mem_of_chronicle member)
  rw [sameCodecs] at valid
  refine linked.carries inverts disciplined onSurface ?_ valid
  exact linked.handled.subset (List.mem_filterMap.mpr ⟨_, member, rfl⟩)

theorem opensSpanning
    (linked : Linked setup start surface made client history session) :
    ∀ entry ∈ entriesOf history, OpensSpanning surface entry := by
  intro entry member
  have told := linked.serves.terms.2 entry member
  obtain ⟨_, sameWidth, sameHeight⟩ := linked.sized
  cases entry with
  | opened surfaceId generation planes stale =>
      change planes.luma.length = surface.width * surface.height
      rw [sameWidth, sameHeight]
      exact told
  | _ => trivial

/-- However the two sides take turns, a base that is valid is what was passed
for its frame, and the presented base what was passed for the frame that is
presented. -/
theorem showsPassed
    (linked : Linked setup start surface made client history session)
    (inverts : Inverts setup.codecs start.compress)
    (disciplined : Disciplined made) (onSurface : OnSurface surface made) :
    ∀ shown ∈ session.face.frameView,
      ShowsPassed made surface shown.state :=
  (showing_of_run linked.serves linked.opensSpanning).shows
    (linked.allCarry inverts disciplined onSurface)

end Linked

/-- While the session is open and no operation of it failed: however the two
sides take turns, a base that is valid has the pixels that the application
passed for its frame, and so does the presented base. -/
theorem showsPassed_of_linked {setup : SessionSetup}
    {start client : ProducerClient} {surface : Surface}
    {made : List ClientEvent} {history : List SessionEvent} {session : Session}
    (linked : Linked setup start surface made client history session)
    (inverts : Inverts setup.codecs start.compress)
    (disciplined : Disciplined made) (onSurface : OnSurface surface made) :
    ∀ shown ∈ session.face.frameView,
      ShowsPassed made surface shown.state :=
  linked.showsPassed inverts disciplined onSurface

/-- A keyframe and a delta are shown as they were passed. -/
theorem showsPassed_of_smallRuns :
    ∃ surface made client history session,
      Linked smallReceiver (smallProducer (resultsOf smallReceiver smallOps))
        surface made client history session ∧
      passed made 2 = some [10, 30] ∧
      (∃ shown ∈ session.face.frameView, shown.state.baseValid = true ∧
        shown.state.logicalFrameId = 2) ∧
      ∀ shown ∈ session.face.frameView,
        ShowsPassed made surface shown.state := by
  have runs : smallRuns (fun surface made _ _ session =>
      decide (Disciplined made) && decide (OnSurface surface made) &&
        passed made 2 == some [10, 30] &&
        session.face.frameView.any fun shown =>
          shown.state.baseValid && shown.state.logicalFrameId == 2) = true := by
    decide +kernel
  obtain ⟨surface, made, client, history, session, linked, checked⟩ :=
    Linked.ran runs
  simp only [Bool.and_eq_true, decide_eq_true_eq, beq_iff_eq,
    Option.any_eq_true_iff_get] at checked
  obtain ⟨⟨⟨disciplined, onSurface⟩, isPassed⟩, isSome, valid, isLogical⟩ :=
    checked
  exact ⟨surface, made, client, history, session, linked, isPassed,
    ⟨_, Option.get_mem isSome, valid, isLogical⟩,
    showsPassed_of_linked linked storedCodecs_inverts disciplined onSurface⟩

end RmDisplay.Link
