import RmDisplay.Protocol.SemanticSpec
import RmDisplay.Core.OperationSteps
import RmDisplay.Receiver.Face

/-!
# Admitted frames

What the checks before the core promise about an admitted frame.  The core
checks most of it again; the second checks never fail.
-/

namespace RmDisplay.Receiver

open Foundation Protocol RmDisplay.Core Core.DisplayCore

namespace Session

theorem decodedCost_eq {frame : Frame} {cost : Nat}
    (computed : decodedCost frame = some cost) :
    cost = (frame.regions.map (·.decodedLen)).sum := by
  have sums (regions : List FrameRegion) (start : Nat)
      (summed : regions.foldlM (fun total region =>
        Bounded.checkedAdd u64Max total region.decodedLen) start =
          some cost) :
      cost = start + (regions.map (·.decodedLen)).sum := by
    induction regions generalizing start with
    | nil =>
        cases summed
        rfl
    | cons region regions induction =>
        rw [List.foldlM_cons] at summed
        obtain ⟨middle, added, rest⟩ := Option.bind_eq_some_iff.mp summed
        rw [Bounded.checkedAdd_eq_some] at added
        rw [induction middle rest, added.1, List.map_cons, List.sum_cons]
        omega
  have total := sums frame.regions 0 computed
  omega

/-- What is known of an admitted frame. -/
structure Admits (session : Session) (frame : Frame) (surface : ActiveSurface)
    (validated : ValidatedFrame) : Prop where
  active : session.surface = some surface
  live : surface.inkFrozen = false
  credit : session.credits ≠ 0
  affordable : session.byteCreditsEnabled = true →
    validated.decodedBytes ≤ session.byteCredits
  decodes : Decodes frame (session.surfaceState surface) validated

theorem admits_of_admitFrame {session : Session} {frame : Frame}
    {surface : ActiveSurface} {validated : ValidatedFrame}
    (admitted : session.admitFrame frame = .ok (surface, validated)) :
    session.Admits frame surface validated := by
  have active := surface_of_admits admitted
  unfold admitFrame at admitted
  split at admitted
  · cases admitted
  · rename_i notFrozen
    split at admitted
    · cases admitted
    · split at admitted
      · cases admitted
      · rename_i credit
        split at admitted
        · cases admitted
        · rename_i cost computed
          split at admitted
          · cases admitted
          · rename_i affordable
            rw [active] at admitted notFrozen
            dsimp only at admitted
            split at admitted
            · cases admitted
            · rename_i decoded valid
              cases admitted
              have decodes := decodes_of_validate valid
              refine ⟨active, by simpa using notFrozen, credit, ?_, decodes⟩
              intro enabled
              rw [decodes.decodedBytes, ← decodedCost_eq computed]
              exact not_lt.mp fun exceeds => affordable ⟨enabled, exceeds⟩

theorem validRegions_of_decodes {session : Session} {frame : Frame}
    {surface : ActiveSurface} {validated : ValidatedFrame}
    (decodes : Decodes frame (session.surfaceState surface) validated) :
    validateRegions surface.core.base.width surface.core.base.height
      surface.core.base.bytesPerPixel validated.regions = .ok () := by
  obtain ⟨bytesPerPixel, supported, fits⟩ := decodes.fits
  have sameBytes : surface.core.base.bytesPerPixel = bytesPerPixel := by
    rw [PixelSurface.bytesPerPixel, show pixelFormatBytes
      surface.core.base.format = some bytesPerPixel from supported]
    rfl
  rw [sameBytes]
  exact PixelSurface.validateRegions_eq_ok.mpr
    ⟨fun region member => ⟨(fits region member).inside,
      (fits region member).sized⟩, decodes.apart⟩

/-- The core takes a decoded frame, or refuses it for a pending SETTLED frame
or for its base. -/
theorem commitTimed_of_decodes {session : Session} {frame : Frame}
    {surface : ActiveSurface} {validated : ValidatedFrame}
    (decodes : Decodes frame (session.surfaceState surface) validated)
    (contentClass : ContentClass) (timing : Timing) (decodeUs : Nat) :
    (∃ report next, surface.core.commitTimed validated contentClass timing
        decodeUs = .ok (report, next)) ∨
      surface.core.commitTimed validated contentClass timing decodeUs =
          .error .settledBarrier ∧ surface.core.pendingIsSettled = true ∨
      surface.core.commitTimed validated contentClass timing decodeUs =
          .error .needKeyframe ∧ frame.baseFrameId ≠ 0 ∧
        surface.core.baseValid = false := by
  have newer : surface.core.logicalFrameId < validated.frameId := by
    rw [decodes.frameId]
    exact decodes.newer
  have sameFormat : validated.pixelFormat = surface.core.base.format :=
    decodes.pixelFormat
  unfold commitTimed
  split
  · rename_i settled
    exact .inr (.inl ⟨rfl, settled⟩)
  · rw [if_neg (by omega), if_neg (not_not.mpr sameFormat)]
    split
    · rename_i offBase
      rw [decodes.baseFrameId] at offBase
      refine .inr (.inr ⟨rfl, offBase.1, ?_⟩)
      rcases offBase.2 with invalid | other
      · simpa using invalid
      · exact absurd (decodes.onBase.resolve_left offBase.1) other
    · obtain ⟨after, applied, _⟩ := PixelSurface.applyRegionsAtomic_spec
        (validRegions_of_decodes decodes)
      rw [applied]
      exact .inl ⟨_, _, rfl⟩

end Session

end RmDisplay.Receiver
