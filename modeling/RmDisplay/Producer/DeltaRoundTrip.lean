import Mathlib.Data.Finset.Prod
import Mathlib.Order.Interval.Finset.Nat
import RmDisplay.Core.FrameAppliers
import RmDisplay.Producer.DeltaEncoder

/-!
# A delta brings the receiver up to date

The regions of a delta are accepted by the validation of the receiver, and
applying them to the previous surface gives the current one.  Disjoint regions
hold no more bytes than the surface, so the frame limit of the surface is
enough.
-/

namespace RmDisplay.Producer

open Foundation Protocol RmDisplay.Core Foundation.Picture

/-- The pixels of a rectangle. -/
def cells (rect : Rect) : Finset (Nat × Nat) :=
  Finset.Ico rect.x (rect.x + rect.width) ×ˢ
    Finset.Ico rect.y (rect.y + rect.height)

theorem mem_cells {rect : Rect} {p : Nat × Nat} :
    p ∈ cells rect ↔ rect.Covers p.1 p.2 := by
  simp only [cells, Finset.mem_product, Finset.mem_Ico, Rect.Covers]

theorem card_cells (rect : Rect) :
    (cells rect).card = rect.width * rect.height := by
  simp [cells]

theorem area_le {rects : List Rect} {width height : Nat}
    (inside : ∀ rect ∈ rects, rect.Inside width height)
    (apart : rects.Pairwise Rect.Apart) :
    (rects.map fun rect => rect.width * rect.height).sum ≤ width * height := by
  have counted : ∃ places : Finset (Nat × Nat),
      places.card = (rects.map fun rect => rect.width * rect.height).sum ∧
        ∀ p, p ∈ places ↔ Covered rects p.1 p.2 := by
    clear inside
    induction rects with
    | nil => exact ⟨∅, rfl, by simp⟩
    | cons rect rest induction =>
        obtain ⟨rectApart, restApart⟩ := List.pairwise_cons.mp apart
        obtain ⟨places, card, mem⟩ := induction restApart
        have disjoint : Disjoint (cells rect) places := by
          rw [Finset.disjoint_left]
          intro p inRect inRest
          obtain ⟨other, isOther, covers⟩ := (mem p).mp inRest
          exact rectApart other isOther p.1 p.2 ⟨mem_cells.mp inRect, covers⟩
        refine ⟨cells rect ∪ places, ?_, ?_⟩
        · rw [Finset.card_union_of_disjoint disjoint, card, card_cells,
            List.map_cons, List.sum_cons]
        · intro p
          rw [Finset.mem_union, mem_cells, mem p]
          simp [Covered]
  obtain ⟨places, card, mem⟩ := counted
  have within : places ⊆ Finset.range width ×ˢ Finset.range height := by
    intro p isPlace
    obtain ⟨rect, member, covers⟩ := (mem p).mp isPlace
    have bounds := (inside rect member).bounds covers
    exact Finset.mem_product.mpr
      ⟨Finset.mem_range.mpr bounds.1, Finset.mem_range.mpr bounds.2⟩
  have most := Finset.card_le_card within
  rwa [card, Finset.card_product, Finset.card_range, Finset.card_range] at most

/-- Decompression inverts compression, as far as the reader takes bytes. -/
def Inverts (codecs : Codecs) (compress : Compressor) : Prop :=
  ∀ pixels compressed limit, compress pixels = some compressed →
    codecs.zstd compressed limit = some (pixels.take limit)

theorem data_encodeRegion (crc32 : Bytes → Nat) (compress : Compressor)
    (rect : Rect) (pixels : Bytes) (allowZstd : Bool) :
    (encodeRegion crc32 compress rect pixels allowZstd).data.length ≤
      pixels.length := by
  unfold encodeRegion
  simp only
  split
  · split
    · split
      · simp only
        omega
      · exact Nat.le_refl _
    · exact Nat.le_refl _
  · exact Nat.le_refl _

theorem encodeRegion_decodes {codecs : Codecs} {compress : Compressor}
    (inverts : Inverts codecs compress) {surface : SurfaceState} {rect : Rect}
    {pixels : Bytes} (allowZstd : Bool)
    (inside : rect.Inside surface.width surface.height)
    (sized : pixels.length = rect.width * rect.height)
    (counted : pixels.length < 2 ^ 32) :
    RegionDecodes codecs surface 1
      (encodeRegion codecs.crc32 compress rect pixels allowZstd)
      ⟨rect, pixels⟩ := by
  have length : pixels.length % 2 ^ 32 = pixels.length := Nat.mod_eq_of_lt counted
  have raw : RegionDecodes codecs surface 1 (rawRegion codecs.crc32 rect pixels)
      ⟨rect, pixels⟩ :=
    ⟨rfl, inside, by rw [Nat.mul_one]; exact length.trans sized, rfl,
      length.symm, rfl⟩
  unfold encodeRegion
  simp only
  split
  · split
    · rename_i compressed isCompressed
      split
      · refine ⟨rfl, inside, raw.declared, ?_, raw.sized, rfl⟩
        have read := inverts pixels compressed (pixels.length + 1) isCompressed
        rw [List.take_of_length_le (Nat.le_succ _)] at read
        exact read
      · exact raw
    · exact raw
  · exact raw

/-- What was extracted for a rectangle. -/
structure Extracted (current : Bytes) (width : Nat) (region : DecodedRegion) :
    Prop where
  length : region.pixels.length = region.rect.width * region.rect.height
  holds : ∀ column row, region.rect.Covers column row →
    region.pixels[(row - region.rect.y) * region.rect.width +
        (column - region.rect.x)]? = current[row * width + column]?

theorem mapM_encodes {codecs : Codecs} {compress : Compressor}
    (inverts : Inverts codecs compress) {surface : SurfaceState}
    {current : Bytes} (allowZstd : Bool)
    (sized : current.length = surface.width * surface.height)
    (counted : surface.width * surface.height < 2 ^ 32) {rects : List Rect}
    (inside : ∀ rect ∈ rects, rect.Inside surface.width surface.height) :
    ∃ regions decoded,
      rects.mapM (fun rect => do
        let pixels ← extractRegion current surface.width rect
        return encodeRegion codecs.crc32 compress rect pixels allowZstd) =
          some regions ∧
      List.Forall₂ (RegionDecodes codecs surface 1) regions decoded ∧
      decoded.map (·.rect) = rects ∧
      (∀ region ∈ decoded, Extracted current surface.width region) ∧
      decodedSize regions = (rects.map fun rect => rect.width * rect.height).sum ∧
      encodedSize regions ≤ decodedSize regions := by
  induction rects with
  | nil =>
      exact ⟨[], [], rfl, .nil, rfl, fun _ missing => (nomatch missing), rfl,
        Nat.le_refl 0⟩
  | cons rect rest induction =>
      obtain ⟨rectInside, restInside⟩ := List.forall_mem_cons.mp inside
      obtain ⟨part, read, length, holds⟩ := extractRegion_spec sized rectInside
      obtain ⟨regions, decoded, mapped, decodes, sameRects, extracted,
        decodedSum, encodedSum⟩ := induction restInside
      have area := @area_le [rect] surface.width surface.height
        (fun other member => List.mem_singleton.mp member ▸ rectInside)
        (List.pairwise_singleton _ _)
      rw [List.map_singleton, List.sum_singleton, ← length] at area
      have first := encodeRegion_decodes inverts allowZstd rectInside length
        (Nat.lt_of_le_of_lt area counted)
      have shorter := data_encodeRegion codecs.crc32 compress rect part allowZstd
      refine ⟨_, ⟨rect, part⟩ :: decoded, ?_, .cons first decodes, ?_, ?_, ?_,
        ?_⟩
      · rw [List.mapM_cons, read, mapped]
        rfl
      · rw [List.map_cons, sameRects]
      · exact List.forall_mem_cons.mpr ⟨⟨length, holds⟩, extracted⟩
      · rw [decodedSize, List.map_cons, List.sum_cons, ← first.sized, length,
          List.map_cons, List.sum_cons, ← decodedSum, decodedSize]
      · rw [encodedSize, decodedSize, List.map_cons, List.sum_cons,
          List.map_cons, List.sum_cons, ← first.sized]
        exact Nat.add_le_add shorter encodedSum

/-- A frame of these regions for a surface that shows its base. -/
structure DeltaOn (frame : Frame) (surface : SurfaceState)
    (width height maxRegions : Nat) : Prop where
  surfaceId : frame.surfaceId = surface.surfaceId
  generation : frame.generation = surface.generation
  base : frame.baseFrameId ≠ 0 ∧ frame.baseFrameId = surface.logicalFrameId
  fresh : surface.logicalFrameId < frame.frameId
  intent : ∃ intent, tryFrom FrameIntent frame.intent = some intent ∧
    intent ≠ .unspecified
  size : surface.width = width ∧ surface.height = height
  format : surface.pixelFormat = .gray8
  maxRegions : max 1 maxRegions ≤ surface.maxRegions
  maxFrameBytes : width * height ≤ surface.maxFrameBytes
  addressable : surface.maxFrameBytes ≤ u64Max

/-- Regions that bring a surface from `previous` to `current`. -/
structure RoundTrips (codecs : Codecs) (previous current : Bytes)
    (width height maxRegions : Nat) (regions : List FrameRegion) : Prop where
  someRegion : 1 ≤ regions.length
  fewRegions : regions.length ≤ max 1 maxRegions
  rects : ∃ rects : List Rect, regions.map (·.rect) = rects.map some ∧
    (∀ rect ∈ rects, rect.Inside width height) ∧ rects.Pairwise Rect.Apart
  applies : ∀ frame surface, frame.regions = regions →
    DeltaOn frame surface width height maxRegions →
      ∃ validated, validateAndDecodeFrame codecs frame surface = .ok validated ∧
        applyValidatedFrame previous width validated = some current ∧
        ∀ target : PixelSurface, target.shape = ((width, height), .gray8) →
          target.pixels = previous →
          ∃ after, target.applyRegionsAtomic validated.regions = .ok after ∧
            after.shape = target.shape ∧ after.pixels = current

/-- The picture of a delta: outside the regions nothing differs, and inside
they hold the current surface. -/
theorem picture_of_delta {scan : TileScan} {maxRegions : Nat}
    {rects : List Rect} (delta : scan.Delta maxRegions rects)
    {frame : ValidatedFrame}
    (sameRects : frame.regions.map (·.rect) = rects)
    (extracted : ∀ region ∈ frame.regions,
      Extracted scan.current scan.width region)
    {target after shown : PixelSurface}
    (targetShape : target.shape = ((scan.width, scan.height), .gray8))
    (shownShape : shown.shape = target.shape)
    (isTarget : target.pixels = scan.previous)
    (isShown : shown.pixels = scan.current)
    (applied : PixelSurface.FrameApplied target after frame) :
    after = shown := by
  refine PixelSurface.ext_picture (applied.shape.trans shownShape.symm) ?_
  have sameWidth : target.width = scan.width := congrArg (·.1.1) targetShape
  have sameHeight : target.height = scan.height := congrArg (·.1.2) targetShape
  have sameFormat : target.format = .gray8 := congrArg (·.2) targetShape
  have oneByte : target.bytesPerPixel = 1 := by
    rw [PixelSurface.bytesPerPixel, sameFormat]
    rfl
  obtain ⟨⟨shownWidth, shownHeight⟩, _⟩ := PixelSurface.shape_eq_iff.mp shownShape
  funext p
  by_cases inside : p.1 < target.width ∧ p.2 < target.height
  · rw [PixelSurface.picture_inside (by
        rw [shownWidth, shownHeight]
        exact inside : p.1 < shown.width ∧ p.2 < shown.height),
      PixelSurface.bytesPerPixel_congr shownShape, oneByte, isShown, shownWidth,
      sameWidth, Buffer.chunk_one]
    by_cases covered : p ∈ region (frame.regions.map (·.rect))
    · obtain ⟨rect, isRect, covers⟩ := covered
      obtain ⟨next, isNext, rfl⟩ := List.mem_map.mp isRect
      rw [applied.shown next isNext p covers, oneByte, PixelSurface.regionPixels,
        Buffer.chunk_one, (extracted next isNext).holds p.1 p.2 covers]
    · rw [applied.kept p covered, PixelSurface.picture_inside inside, oneByte,
        isTarget, sameWidth, Buffer.chunk_one]
      by_contra differ
      refine covered (sameRects ▸ delta.covers p.1 p.2 ⟨?_, ?_⟩)
      · rw [← sameWidth, ← sameHeight]
        exact inside
      · exact fun same => differ (congrArg Option.toList same)
  · have afterSizes := PixelSurface.shape_eq_iff.mp applied.shape
    rw [PixelSurface.picture_outside (by
        rw [afterSizes.1.1, afterSizes.1.2]
        exact inside),
      PixelSurface.picture_outside (by
        rw [shownWidth, shownHeight]
        exact inside)]

private theorem accepted_of_delta {codecs : Codecs} {frame : Frame}
    {surface : SurfaceState} {scan : TileScan} {maxRegions : Nat}
    {rects : List Rect} {decoded : List DecodedRegion}
    (on : DeltaOn frame surface scan.width scan.height maxRegions)
    (small : scan.width ≤ u32Max ∧ scan.height ≤ u32Max)
    (few : maxRegions ≤ 65535) (delta : scan.Delta maxRegions rects)
    (decodes : List.Forall₂ (RegionDecodes codecs surface 1) frame.regions
      decoded)
    (sameRects : decoded.map (·.rect) = rects)
    (decodedArea : decodedSize frame.regions =
      (rects.map fun rect => rect.width * rect.height).sum)
    (encodedArea : encodedSize frame.regions ≤ decodedSize frame.regions) :
    ∃ validated, validateAndDecodeFrame codecs frame surface = .ok validated ∧
      validated.regions = decoded := by
  have sameLength : frame.regions.length = rects.length := by
    rw [decodes.length_eq, ← sameRects, List.length_map]
  have fits := area_le delta.inside delta.apart
  have someRects := delta.someRect
  have fewRects := delta.fewRects
  have mostRegions := on.maxRegions
  have mostBytes := on.maxFrameBytes
  refine @validate_of_valid codecs frame surface 1 decoded ⟨?_, ?_, on.addressable⟩
    (by rw [on.format]; rfl) ?_
  · rw [on.size.1]
    exact small.1
  · rw [on.size.2]
    exact small.2
  · exact
      { surfaceId := on.surfaceId
        generation := on.generation
        identified := Nat.ne_of_gt (Nat.zero_lt_of_lt on.fresh)
        newer := on.fresh
        intent := on.intent
        someRegion := by omega
        fewRegions := by omega
        onBase := .inr on.base.2
        decodes
        decodedFits := by omega
        encodedFits := by omega
        apart := by
          have apart := delta.apart
          rwa [← sameRects, List.pairwise_map] at apart
        keyframe := fun isKeyframe => absurd isKeyframe on.base.1 }

theorem roundTrips_of_encode {codecs : Codecs} {compress : Compressor}
    (inverts : Inverts codecs compress) {previous current : Bytes}
    {width height : Nat} (someArea : 0 < width * height)
    (area : width * height < 2 ^ 32)
    (previousSized : previous.length = width * height)
    (currentSized : current.length = width * height) (tile : Nat)
    {maxRegions : Nat} (fewRegions : maxRegions ≤ 65535) (allowZstd : Bool) :
    ∃ regions,
      encodeDeltaRegions codecs.crc32 compress previous current width height
        tile maxRegions allowZstd = some regions ∧
      RoundTrips codecs previous current width height maxRegions regions := by
  have wide : 0 < width := Nat.pos_of_mul_pos_right someArea
  have high : 0 < height := Nat.pos_of_mul_pos_left someArea
  have small : width ≤ u32Max ∧ height ≤ u32Max :=
    ⟨Nat.le_trans (Nat.le_mul_of_pos_right width high) (Nat.le_pred_of_lt area),
      Nat.le_trans (Nat.le_mul_of_pos_left height wide) (Nat.le_pred_of_lt area)⟩
  let scan : TileScan :=
    { previous, current, width, height
      tile := max tile 1
      someTile := Nat.le_max_right tile 1 }
  have sized : scan.Sized := ⟨previousSized, currentSized⟩
  obtain ⟨rects, found, delta⟩ := TileScan.rects_spec sized wide high maxRegions
  have encoded (surface : SurfaceState)
      (size : surface.width = width ∧ surface.height = height) :
      ∃ regions decoded,
        encodeDeltaRegions codecs.crc32 compress previous current width height
          tile maxRegions allowZstd = some regions ∧
        List.Forall₂ (RegionDecodes codecs surface 1) regions decoded ∧
        decoded.map (·.rect) = rects ∧
        (∀ region ∈ decoded, Extracted current width region) ∧
        decodedSize regions =
          (rects.map fun rect => rect.width * rect.height).sum ∧
        encodedSize regions ≤ decodedSize regions := by
    obtain ⟨rfl, rfl⟩ := size
    obtain ⟨regions, decoded, mapped, rest⟩ := mapM_encodes inverts allowZstd
      currentSized area delta.inside
    refine ⟨regions, decoded, ?_, rest⟩
    rw [encodeDeltaRegions, found]
    exact mapped
  obtain ⟨regions, decoded, returned, decodes, sameRects, _⟩ :=
    encoded ⟨0, 0, width, height, .gray8, 0, 0, 0⟩ ⟨rfl, rfl⟩
  have sameLength : regions.length = rects.length := by
    rw [decodes.length_eq, ← sameRects, List.length_map]
  refine ⟨regions, returned, sameLength ▸ delta.someRect,
    sameLength ▸ delta.fewRects, ⟨rects, ?_, delta.inside, delta.apart⟩, ?_⟩
  · rw [← rects_of_decodes decodes, ← sameRects, List.map_map]
    rfl
  · rintro frame surface rfl on
    obtain ⟨others, decoded, again, decodes, sameRects, extracted, decodedArea,
      encodedArea⟩ := encoded surface on.size
    cases returned.symm.trans again
    obtain ⟨validated, accepted, rfl⟩ := @accepted_of_delta codecs frame surface
      scan maxRegions rects decoded on small fewRegions delta decodes sameRects
      decodedArea encodedArea
    refine ⟨validated, accepted, ?_⟩
    have validation := frameValidation_of_addressable codecs frame surface 1
      ⟨on.size.1 ▸ small.1, on.size.2 ▸ small.2, on.addressable⟩
      (by rw [on.format]; rfl)
    obtain ⟨target, after, shape, isPrevious, applied⟩ :=
      validation.applies validated accepted previous (by
        rw [previousSized, on.size.1, on.size.2, Nat.mul_one])
    rw [on.size.1, on.size.2, on.format] at shape
    have inOrder : PixelSurface.FrameApplied target after validated :=
      applied validated.regions (.refl _)
    have packed : Packed width height .gray8 current :=
      ⟨wide, high, Nat.le_trans (Nat.le_of_lt area) (by decide), 1, rfl,
        by rw [currentSized, Nat.mul_one]⟩
    have isCurrent : after = ⟨width, height, .gray8, current, packed⟩ :=
      picture_of_delta delta sameRects extracted shape shape.symm isPrevious rfl
        inOrder
    have sameWidth : target.width = width := congrArg (·.1.1) shape
    refine ⟨?_, fun other otherShape otherPrevious => ?_⟩
    · have plain := inOrder.plain
      rwa [isPrevious, sameWidth, isCurrent] at plain
    · have same : other = target := PixelSurface.ext_pixels
        (otherShape.trans shape.symm) (otherPrevious.trans isPrevious.symm)
      rw [same]
      exact ⟨after, inOrder.atomic, inOrder.shape, by rw [isCurrent]⟩

/-- A frame of one raw block, as the compressor writes short data that does not
shrink. -/
def storeBlock : Compressor := fun pixels =>
  some ([0x28, 0xb5, 0x2f, 0xfd, 0x00, 0x58,
    UInt8.ofNat (pixels.length * 8 + 1), UInt8.ofNat (pixels.length / 32),
    UInt8.ofNat (pixels.length / 8192)] ++ pixels)

def storedCodecs : Codecs where
  crc32 := crc32
  zlib := fun _ _ => none
  zstd := fun data limit => some ((data.drop 9).take limit)

theorem storedCodecs_inverts : Inverts storedCodecs storeBlock := by
  intro pixels compressed limit stored
  cases stored
  rfl

/-- Two corners of a 3x3 surface change. -/
theorem roundTrips_corners :
    (encodeDeltaRegions crc32 storeBlock [0, 0, 0, 0, 0, 0, 0, 0, 0]
        [7, 0, 0, 0, 0, 0, 0, 0, 9] 3 3 2 64 true).map
        (·.map fun region => (region.rect, region.data)) =
      some [(some ⟨0, 0, 2, 2⟩, [7, 0, 0, 0]), (some ⟨2, 2, 1, 1⟩, [9])] ∧
    ∃ regions,
      encodeDeltaRegions storedCodecs.crc32 storeBlock
        [0, 0, 0, 0, 0, 0, 0, 0, 0] [7, 0, 0, 0, 0, 0, 0, 0, 9] 3 3 2 64 true =
          some regions ∧
      RoundTrips storedCodecs [0, 0, 0, 0, 0, 0, 0, 0, 0]
        [7, 0, 0, 0, 0, 0, 0, 0, 9] 3 3 64 regions :=
  ⟨by decide +kernel, roundTrips_of_encode storedCodecs_inverts (by decide)
    (by decide) rfl rfl 2 (by decide) true⟩

end RmDisplay.Producer
