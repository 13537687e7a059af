import RmDisplay.Core.SurfaceSpec
import RmDisplay.Protocol.SemanticSpec

/-!
# Validated frames and the two appliers

The protocol's applier copies the regions of a validated frame into a flat
buffer, the core's writes them to a surface.  The rows of both loops are the
same writes, so they agree; the regions are apart, so their order is free.
-/

namespace RmDisplay.Core

open Foundation Protocol Foundation.Picture

namespace PixelSurface

theorem orPanic_eq_ok {α ε : Type} {value : Option α} {present : α} :
    (Res.orPanic value : Res ε α) = .ok present ↔ value = some present := by
  cases value with
  | none => simp
  | some found => simp

theorem storePixels_eq_some {self next : PixelSurface} {index : Nat}
    {source : Bytes} (stored : self.storePixels index source = some next) :
    Buffer.overwrite self.pixels (index * self.bytesPerPixel) source =
        some next.pixels ∧ next.shape = self.shape := by
  unfold storePixels write at stored
  split at stored
  · cases stored
  · rename_i pixels written
    cases stored
    exact ⟨written, rfl⟩

/-- The rows of a region are the same writes in both appliers. -/
theorem applyValidatedRegion_of_applyRegion {self start after : PixelSurface}
    {next : DecodedRegion} (sameShape : start.shape = self.shape)
    (applied : start.applyRegion next = .ok after) :
    applyValidatedRegion self.width self.bytesPerPixel start.pixels next =
        some after.pixels ∧ after.shape = self.shape := by
  have startBytes := bytesPerPixel_congr sameShape
  have startWidth := (shape_eq_iff.mp sameShape).1.1
  refine Res.foldlM_follows PixelSurface.pixels
    (fun state => state.shape = self.shape) sameShape ?_ applied
  intro state row stored _ stateShape stepped
  obtain ⟨source, read, stepped⟩ := Res.bind_eq_ok.mp stepped
  rw [orPanic_eq_ok] at read stepped
  obtain ⟨written, storedShape⟩ := storePixels_eq_some stepped
  refine ⟨?_, storedShape.trans stateShape⟩
  rw [startBytes] at read
  rw [startWidth, bytesPerPixel_congr stateShape, Nat.add_mul, Nat.mul_assoc]
    at written
  rw [read]
  exact written

theorem applyValidatedFrame_of_atomic {self after : PixelSurface}
    {frame : ValidatedFrame} (sameFormat : frame.pixelFormat = self.format)
    (applied : self.applyRegionsAtomic frame.regions = .ok after) :
    applyValidatedFrame self.pixels self.width frame = some after.pixels := by
  obtain ⟨bytes, supported, _⟩ := self.packed.length
  have isBytes : bytes = self.bytesPerPixel := by
    rw [bytesPerPixel, supported, Option.getD_some]
  rw [applyRegionsAtomic, Res.bind_eq_ok] at applied
  obtain ⟨_, _, looped⟩ := applied
  rw [applyValidatedFrame, sameFormat, supported, isBytes]
  refine (Res.foldlM_follows PixelSurface.pixels
    (fun state => state.shape = self.shape) rfl ?_ looped).1
  intro state next stored _ stateShape stepped
  exact applyValidatedRegion_of_applyRegion stateShape stepped

theorem paintRegions_of_covered {bytes : Nat} {regions : List DecodedRegion}
    {picture : Pixels} {next : DecodedRegion} {p : Place}
    (apart : regions.Pairwise fun left right => left.rect.Apart right.rect)
    (member : next ∈ regions) (covers : next.rect.Covers p.1 p.2) :
    paintRegions bytes regions picture p = regionPixels bytes next p := by
  induction regions generalizing picture with
  | nil => cases member
  | cons first rest induction =>
      obtain ⟨firstApart, restApart⟩ := List.pairwise_cons.mp apart
      rcases List.mem_cons.mp member with rfl | later
      · rw [paintRegions, List.foldl_cons]
        refine (paintRegions_of_not_covered ?_).trans
          (paint_of_mem (covered_singleton.mpr covers))
        rintro ⟨rect, isRect, alsoCovers⟩
        obtain ⟨other, isOther, rfl⟩ := List.mem_map.mp isRect
        exact firstApart other isOther p.1 p.2 ⟨covers, alsoCovers⟩
      · exact induction restApart later

/-- The result of applying a frame, by either applier. -/
structure FrameApplied (target after : PixelSurface) (frame : ValidatedFrame) :
    Prop where
  atomic : target.applyRegionsAtomic frame.regions = .ok after
  plain : applyValidatedFrame target.pixels target.width frame =
    some after.pixels
  shape : after.shape = target.shape
  shown : ∀ next ∈ frame.regions, ∀ p : Place, next.rect.Covers p.1 p.2 →
    after.picture p = regionPixels target.bytesPerPixel next p
  kept : ∀ p ∉ region (frame.regions.map DecodedRegion.rect),
    after.picture p = target.picture p

theorem frameApplied_of_valid {target : PixelSurface} {frame : ValidatedFrame}
    (sameFormat : frame.pixelFormat = target.format)
    (fits : ∀ next ∈ frame.regions,
      next.rect.Inside target.width target.height ∧
        (Bounded.checkedMul u64Max next.rect.width next.rect.height).bind
          (Bounded.checkedMul u64Max · target.bytesPerPixel) =
            some next.pixels.length)
    (apart : frame.regions.Pairwise fun left right =>
      left.rect.Apart right.rect) :
    ∃ after, FrameApplied target after frame := by
  have noOverlap := (anyOverlap_of_inside fun next member =>
    (fits next member).1).mpr apart
  obtain ⟨after, applied, sameShape, painted⟩ :=
    applyRegionsAtomic_spec (validateRegions_eq_ok.mpr ⟨fits, noOverlap⟩)
  refine ⟨after, applied, applyValidatedFrame_of_atomic sameFormat applied,
    sameShape, ?_, ?_⟩
  · intro next member p covers
    rw [painted]
    exact paintRegions_of_covered apart member covers
  · intro p outside
    rw [painted]
    exact paintRegions_of_not_covered outside

/-- A surface after a frame is determined by the regions, not their order. -/
theorem FrameApplied.unique {target left right : PixelSurface}
    {frame other : ValidatedFrame} (leftApplied : FrameApplied target left frame)
    (rightApplied : FrameApplied target right other)
    (sameRegions : frame.regions.Perm other.regions) : left = right := by
  refine ext_picture (leftApplied.shape.trans rightApplied.shape.symm) ?_
  funext p
  by_cases covered : p ∈ region (frame.regions.map DecodedRegion.rect)
  · obtain ⟨rect, isRect, covers⟩ := covered
    obtain ⟨next, isNext, rfl⟩ := List.mem_map.mp isRect
    rw [leftApplied.shown next isNext p covers,
      rightApplied.shown next (sameRegions.mem_iff.mp isNext) p covers]
  · rw [leftApplied.kept p covered, rightApplied.kept p]
    rintro ⟨rect, isRect, covers⟩
    obtain ⟨next, isNext, rfl⟩ := List.mem_map.mp isRect
    exact covered ⟨next.rect,
      List.mem_map_of_mem (sameRegions.mem_iff.mpr isNext), covers⟩

end PixelSurface

open PixelSurface

/-- What the validation accepts and returns, and what both appliers then do to
every buffer of the surface. -/
structure FrameValidation (codecs : Codecs) (frame : Frame)
    (surface : SurfaceState) (bytesPerPixel : Nat) : Prop where
  accepts : (∃ validated,
      validateAndDecodeFrame codecs frame surface = .ok validated) ↔
    ∃ decoded, ValidFrame codecs frame surface bytesPerPixel decoded
  returns : ∀ validated,
    validateAndDecodeFrame codecs frame surface = .ok validated →
      ValidFrame codecs frame surface bytesPerPixel validated.regions ∧
        validated.decodedBytes =
          (validated.regions.map (·.pixels.length)).sum ∧
        (validated.frameId = frame.frameId ∧
          validated.baseFrameId = frame.baseFrameId) ∧
        tryFrom FrameIntent frame.intent = some validated.intent ∧
        validated.pixelFormat = surface.pixelFormat
  applies : ∀ validated,
    validateAndDecodeFrame codecs frame surface = .ok validated →
      ∀ buffer : Bytes,
        buffer.length = surface.width * surface.height * bytesPerPixel →
        ∃ target after : PixelSurface,
          target.shape =
            ((surface.width, surface.height), surface.pixelFormat) ∧
          target.pixels = buffer ∧
          ∀ regions : List DecodedRegion, regions.Perm validated.regions →
            FrameApplied target after { validated with regions }

private theorem sum_sized {codecs : Codecs} {surface : SurfaceState}
    {bytesPerPixel : Nat} {regions : List FrameRegion}
    {decoded : List DecodedRegion}
    (decodes : List.Forall₂ (RegionDecodes codecs surface bytesPerPixel)
      regions decoded) :
    decodedSize regions = (decoded.map (·.pixels.length)).sum := by
  unfold decodedSize
  induction decodes with
  | nil => rfl
  | cons first _ induction =>
      rw [List.map_cons, List.map_cons, List.sum_cons, List.sum_cons,
        induction, first.sized]

private theorem exists_surface {surface : SurfaceState} {bytesPerPixel : Nat}
    {buffer : Bytes} (addressable : surface.Addressable)
    (supported : pixelFormatBytes surface.pixelFormat = some bytesPerPixel)
    (wide : 0 < surface.width) (high : 0 < surface.height)
    (sized : buffer.length = surface.width * surface.height * bytesPerPixel) :
    ∃ target : PixelSurface,
      target.shape = ((surface.width, surface.height), surface.pixelFormat) ∧
        target.pixels = buffer := by
  have fits : surface.width * surface.height ≤ u64Max := by
    have product := Nat.mul_le_mul addressable.width addressable.height
    have wordSquared : u32Max * u32Max ≤ u64Max := by decide
    omega
  exact ⟨⟨surface.width, surface.height, surface.pixelFormat, buffer,
    wide, high, fits, bytesPerPixel, supported, sized⟩, rfl, rfl⟩

theorem frameValidation_of_addressable (codecs : Codecs) (frame : Frame)
    (surface : SurfaceState) (bytesPerPixel : Nat)
    (addressable : surface.Addressable)
    (supported : pixelFormatBytes surface.pixelFormat = some bytesPerPixel) :
    FrameValidation codecs frame surface bytesPerPixel := by
  refine ⟨⟨?_, ?_⟩, ?_, ?_⟩
  · rintro ⟨validated, returned⟩
    exact ⟨validated.regions, (valid_of_validate supported returned).1⟩
  · rintro ⟨decoded, valid⟩
    obtain ⟨validated, returned, _⟩ :=
      validate_of_valid addressable supported valid
    exact ⟨validated, returned⟩
  · intro validated returned
    obtain ⟨valid, decodes, isIntent⟩ := valid_of_validate supported returned
    exact ⟨valid, decodes.decodedBytes.trans (sum_sized valid.decodes),
      ⟨decodes.frameId, decodes.baseFrameId⟩, isIntent, decodes.pixelFormat⟩
  · intro validated returned buffer sized
    obtain ⟨valid, decodes, _⟩ := valid_of_validate supported returned
    have someRegion : validated.regions ≠ [] := by
      have sameLength := valid.decodes.length_eq
      have counted := valid.someRegion
      exact List.length_pos_iff.mp (by omega)
    obtain ⟨first, isFirst⟩ := List.exists_mem_of_ne_nil _ someRegion
    have inside := valid.inside first isFirst
    obtain ⟨_, _, right, bottom⟩ := inside
    obtain ⟨target, shape, pixels⟩ := exists_surface addressable supported
      (by omega) (by omega) sized
    have sameWidth : target.width = surface.width := congrArg (·.1.1) shape
    have sameHeight : target.height = surface.height := congrArg (·.1.2) shape
    have sameFormat : target.format = surface.pixelFormat := congrArg (·.2) shape
    have sameBytes : target.bytesPerPixel = bytesPerPixel := by
      rw [PixelSurface.bytesPerPixel, sameFormat, supported, Option.getD_some]
    obtain ⟨_, fitBytes, fits⟩ := decodes.fits
    rw [supported] at fitBytes
    cases fitBytes
    have applied (regions : List DecodedRegion)
        (reordered : regions.Perm validated.regions) :
        ∃ after, FrameApplied target after { validated with regions } := by
      refine frameApplied_of_valid (decodes.pixelFormat.trans sameFormat.symm)
        ?_ ((reordered.pairwise_iff Rect.Apart.symm).mpr valid.apart)
      intro next member
      rw [sameWidth, sameHeight, sameBytes]
      have nextFits := fits next (reordered.mem_iff.mp member)
      exact ⟨nextFits.inside, nextFits.sized⟩
    obtain ⟨after, inOrder⟩ := applied validated.regions (.refl _)
    refine ⟨target, after, shape, pixels, ?_⟩
    intro regions reordered
    obtain ⟨other, otherApplied⟩ := applied regions reordered
    rwa [inOrder.unique otherApplied reordered.symm]

def twoPixelSurface : SurfaceState where
  surfaceId := 1
  generation := 1
  width := 2
  height := 1
  pixelFormat := .rgb565Le
  logicalFrameId := 3
  maxRegions := 4
  maxFrameBytes := 4

def pixelRegion (x : Nat) (low high : UInt8) : FrameRegion where
  rect := some ⟨x, 0, 1, 1⟩
  encoding := wire Encoding.raw
  decodedLen := 2
  decodedCrc32 := crc32 [low, high]
  data := [low, high]

def twoPixelFrame : Frame where
  surfaceId := 1
  generation := 1
  frameId := 5
  baseFrameId := 3
  intent := wire FrameIntent.settled
  contentClass := 0
  regions := [pixelRegion 1 3 4, pixelRegion 0 1 2]

def rawCodecs : Codecs where
  crc32 := crc32
  zlib := fun _ _ => none
  zstd := fun _ _ => none

theorem frameValidation_twoPixels :
    (validateAndDecodeFrame rawCodecs twoPixelFrame twoPixelSurface).toOption.map
        (·.decodedBytes) = some 4 ∧
      FrameValidation rawCodecs twoPixelFrame twoPixelSurface 2 :=
  ⟨by decide +kernel, frameValidation_of_addressable rawCodecs twoPixelFrame
    twoPixelSurface 2 ⟨by decide, by decide, by decide⟩ rfl⟩

end RmDisplay.Core
