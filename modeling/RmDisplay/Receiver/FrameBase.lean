import RmDisplay.Receiver.FrameSteps
import RmDisplay.Receiver.NumberingSteps

/-!
# The base of a session

The base is the replay of the frames accepted since the last keyframe: whatever
the planes, the panel and the application did in between leaves no trace in it.
A frame is applied as a whole or changes nothing, and the core has nothing to
object to what the validation accepted but its place in the sequence.
-/

namespace RmDisplay.Receiver

open Foundation Protocol RmDisplay.Core Core.DisplayCore Foundation.Picture

/-- The frames accepted on the present surface, the latest first. -/
def acceptedHere : List JournalEntry → List ValidatedFrame
  | [] => []
  | .accepted _ validated :: older => validated :: acceptedHere older
  | .opened .. :: _ => []
  | _ :: older => acceptedHere older

/-- The last keyframe with all later deltas applied in order.  The latest frame
comes first. -/
def replayBase (blank : PixelSurface) :
    List ValidatedFrame → SurfaceRes PixelSurface
  | [] => .ok blank
  | frame :: older => do
      let base ←
        if frame.baseFrameId = 0 then .ok blank else replayBase blank older
      base.applyRegionsAtomic frame.regions

theorem acceptedHere_quiet {view : Option FrameView}
    {entries older : List JournalEntry}
    (plain : ∀ entry ∈ entries, FrameView.Quiet view entry) :
    acceptedHere (entries ++ older) = acceptedHere older := by
  induction entries with
  | nil => rfl
  | cons entry entries induction =>
      obtain ⟨quiet, others⟩ := List.forall_mem_cons.mp plain
      rw [← induction others]
      cases entry with
      | accepted _ _ | opened _ _ _ _ => exact quiet.elim
      | _ => rfl

/-- A keyframe covers whatever was there before. -/
theorem applyRegionsAtomic_full {blank base after : PixelSurface}
    {regions : List DecodedRegion} (sameShape : blank.shape = base.shape)
    (full : regions.map (·.rect) = [⟨0, 0, base.width, base.height⟩])
    (applied : base.applyRegionsAtomic regions = .ok after) :
    blank.applyRegionsAtomic regions = .ok after := by
  obtain ⟨⟨sameWidth, sameHeight⟩, _⟩ := PixelSurface.shape_eq_iff.mp sameShape
  have sameBytes := PixelSurface.bytesPerPixel_congr sameShape
  have valid := PixelSurface.valid_of_applyRegionsAtomic applied
  obtain ⟨same, appliedAgain, shape, painted⟩ :=
    PixelSurface.applyRegionsAtomic_spec valid
  rw [applied] at appliedAgain
  cases appliedAgain
  rw [← sameWidth, ← sameHeight, ← sameBytes] at valid
  obtain ⟨other, appliedOther, otherShape, otherPainted⟩ :=
    PixelSurface.applyRegionsAtomic_spec valid
  have same : other = after := by
    refine PixelSurface.ext_picture
      (otherShape.trans (sameShape.trans shape.symm)) ?_
    funext p
    by_cases onSurface : p.1 < base.width ∧ p.2 < base.height
    · obtain ⟨whole, rfl⟩ : ∃ whole, regions = [whole] := by
        apply List.length_eq_one_iff.mp
        simpa using congrArg List.length full
      have isFull : whole.rect = ⟨0, 0, base.width, base.height⟩ :=
        List.singleton_inj.mp full
      have covered : p ∈ region [whole.rect] := by
        rw [isFull, mem_region, covered_singleton]
        exact ⟨⟨by simp, by simpa using onSurface.1⟩, by simp,
          by simpa using onSurface.2⟩
      rw [painted, otherPainted, sameBytes]
      exact (paint_of_mem covered).trans (paint_of_mem covered).symm
    · obtain ⟨⟨afterWidth, afterHeight⟩, _⟩ :=
        PixelSurface.shape_eq_iff.mp shape
      obtain ⟨⟨otherWidth, otherHeight⟩, _⟩ :=
        PixelSurface.shape_eq_iff.mp (otherShape.trans sameShape)
      rw [PixelSurface.picture_outside, PixelSurface.picture_outside]
      · rw [afterWidth, afterHeight]
        exact onSurface
      · rw [otherWidth, otherHeight]
        exact onSurface
  rw [← same]
  exact appliedOther

/-- A valid base is the replay of the accepted frames, on any surface of its
shape. -/
def Replayed (view : Option FrameView) (entries : List JournalEntry) : Prop :=
  ∀ shown, view = some shown → shown.state.baseValid = true →
    ∀ blank : PixelSurface, blank.shape = shown.state.base.shape →
      replayBase blank (acceptedHere entries) = .ok shown.state.base

theorem FaceMove.replayed {view next : Option FrameView}
    {entries older : List JournalEntry} {made : List PanelCall}
    (moves : FaceMove view entries made next) (holds : Replayed view older) :
    Replayed next (entries.reverse ++ older) := by
  rintro shown isShown valid blank sameShape
  cases moves with
  | quiet _ plain =>
      rw [acceptedHere_quiet fun entry member =>
        plain entry (List.mem_reverse.mp member)]
      exact holds shown isShown valid blank sameShape
  | core wasShown change =>
      cases isShown
      obtain ⟨wasValid, same⟩ := change.keepsBase valid
      rw [same] at sameShape ⊢
      exact holds _ wasShown wasValid blank sameShape
  | froze _ _ _ =>
      cases isShown
      cases valid
  | released wasShown _ =>
      cases isShown
      exact holds _ wasShown valid blank sameShape
  | @accepted was frame validated base pending wasShown accepts _ =>
      cases isShown
      have shape : base.shape = was.state.base.shape := by
        obtain ⟨after, applied, kept, _⟩ := PixelSurface.applyRegionsAtomic_spec
          (PixelSurface.valid_of_applyRegionsAtomic accepts.applied)
        rw [accepts.applied] at applied
        cases applied
        exact kept
      have onShape : blank.shape = was.state.base.shape :=
        sameShape.trans shape
      change replayBase blank (validated :: acceptedHere older) = .ok base
      rw [replayBase]
      split
      · rename_i keyframe
        rw [Res.ok_bind]
        exact applyRegionsAtomic_full onShape (accepts.full keyframe)
          accepts.applied
      · rename_i delta
        obtain ⟨wasValid, _⟩ := accepts.onBase.resolve_left delta
        rw [holds was wasShown wasValid blank onShape, Res.ok_bind]
        exact accepts.applied
  | opened _ _ _ _ _ invalid =>
      cases isShown
      rw [invalid.1] at valid
      cases valid
  | closed => cases isShown

end RmDisplay.Receiver
