import RmDisplay.Producer.DeltaRoundTrip

/-!
# What a receiver decodes

The regions of a producer are decoded to the pixels they were made of, or not at
all.  So a surface that takes the regions of a frame shows the pixels of the
frame, if the base of a delta shows the pixels that the delta was computed from.
-/

namespace RmDisplay.Producer

open Foundation Protocol RmDisplay.Core Foundation.Picture

section

variable {codecs : Codecs} {compress : Compressor} {crc32 : Bytes → Nat}
  {surface : SurfaceState} {bytesPerPixel : Nat} {allowZstd : Bool}

theorem decoded_encodeRegion (inverts : Inverts codecs compress) {rect : Rect}
    {pixels : Bytes} {decoded : DecodedRegion}
    (decodes : RegionDecodes codecs surface bytesPerPixel
      (encodeRegion crc32 compress rect pixels allowZstd) decoded) :
    decoded = ⟨rect, pixels⟩ := by
  have isRect := decodes.rect
  have unpacked := decodes.unpacked
  have raw (unpacked : Unpacks codecs (rawRegion crc32 rect pixels)
      decoded.pixels) : decoded.pixels = pixels := Eq.symm unpacked
  suffices same : rect = decoded.rect ∧ decoded.pixels = pixels by
    rw [same.1, ← same.2]
  unfold encodeRegion at isRect unpacked
  dsimp only at isRect unpacked
  split at unpacked
  · rename_i zstd
    rw [if_pos zstd] at isRect
    split at unpacked
    · rename_i compressed isCompressed
      rw [isCompressed] at isRect
      dsimp only at isRect
      split at unpacked
      · rename_i shorter
        rw [if_pos shorter] at isRect
        refine ⟨Option.some.inj isRect, ?_⟩
        -- The reader takes one byte more than it returns.
        have read : codecs.zstd compressed (decoded.pixels.length + 1) =
            some decoded.pixels := unpacked
        rw [inverts pixels compressed _ isCompressed] at read
        have taken := Option.some.inj read
        have length := congrArg List.length taken
        rw [List.length_take] at length
        rw [← taken]
        exact List.take_of_length_le (by omega)
      · rename_i longer
        rw [if_neg longer] at isRect
        exact ⟨Option.some.inj isRect, raw unpacked⟩
    · rename_i failed
      rw [failed] at isRect
      exact ⟨Option.some.inj isRect, raw unpacked⟩
  · rename_i plain
    rw [if_neg plain] at isRect
    exact ⟨Option.some.inj isRect, raw unpacked⟩

/-- Regions with the pixels of a picture. -/
structure Drawn (current : Bytes) (width height : Nat)
    (regions : List DecodedRegion) : Prop where
  inside : ∀ region ∈ regions, region.rect.Inside width height
  extracted : ∀ region ∈ regions, Extracted current width region

/-- Wherever the pictures differ there is a region. -/
def CoversChange (previous current : Bytes) (width height : Nat)
    (regions : List DecodedRegion) : Prop :=
  ∀ column row, (column < width ∧ row < height) ∧
      previous[row * width + column]? ≠ current[row * width + column]? →
    Covered (regions.map (·.rect)) column row

theorem drawn_of_whole (inverts : Inverts codecs compress) {current : Bytes}
    {width height : Nat} (wide : 0 < width) (high : 0 < height)
    (sized : current.length = width * height) {decoded : List DecodedRegion}
    (decodes : List.Forall₂ (RegionDecodes codecs surface bytesPerPixel)
      [encodeRegion crc32 compress ⟨0, 0, width, height⟩ current allowZstd]
      decoded) :
    Drawn current width height decoded ∧
      ∀ previous, CoversChange previous current width height decoded := by
  cases decodes with
  | cons first rest =>
      cases rest with
      | nil =>
          rw [decoded_encodeRegion inverts first]
          refine ⟨⟨?_, ?_⟩, ?_⟩
          · intro region member
            rw [List.mem_singleton.mp member]
            exact ⟨wide, high, by simp, by simp⟩
          · intro region member
            rw [List.mem_singleton.mp member]
            exact ⟨sized, fun column row _ => by simp⟩
          · rintro previous column row ⟨⟨column, row⟩, _⟩
            rw [List.map_singleton, covered_singleton]
            exact ⟨⟨Nat.zero_le _, by simpa using column⟩, Nat.zero_le _,
              by simpa using row⟩

private theorem extracted_of_mapM (inverts : Inverts codecs compress)
    {current : Bytes} {width height : Nat}
    (sized : current.length = width * height) {rects : List Rect}
    (inside : ∀ rect ∈ rects, rect.Inside width height)
    {regions : List FrameRegion} {decoded : List DecodedRegion}
    (mapped : rects.mapM (fun rect => do
      let pixels ← extractRegion current width rect
      return encodeRegion crc32 compress rect pixels allowZstd) = some regions)
    (decodes : List.Forall₂ (RegionDecodes codecs surface bytesPerPixel) regions
      decoded) :
    decoded.map (·.rect) = rects ∧
      ∀ region ∈ decoded, Extracted current width region := by
  induction rects generalizing regions decoded with
  | nil =>
      cases mapped
      cases decodes
      exact ⟨rfl, List.forall_mem_nil _⟩
  | cons rect rects induction =>
      obtain ⟨rectInside, others⟩ := List.forall_mem_cons.mp inside
      obtain ⟨part, read, length, holds⟩ := extractRegion_spec sized rectInside
      rw [List.mapM_cons, read] at mapped
      obtain ⟨first, isFirst, mapped⟩ := Option.bind_eq_some_iff.mp mapped
      obtain ⟨rest, isRest, isRegions⟩ := Option.bind_eq_some_iff.mp mapped
      cases isFirst
      cases isRegions
      cases decodes with
      | cons first decodes =>
          obtain ⟨sameRects, extracted⟩ := induction others isRest decodes
          rw [decoded_encodeRegion inverts first]
          refine ⟨by rw [List.map_cons, sameRects], ?_⟩
          exact List.forall_mem_cons.mpr ⟨⟨length, holds⟩, extracted⟩

theorem drawn_of_delta (inverts : Inverts codecs compress)
    {previous current : Bytes} {width height tile maxRegions : Nat}
    (wide : 0 < width) (high : 0 < height)
    (wasSized : previous.length = width * height)
    (sized : current.length = width * height) {regions : List FrameRegion}
    {decoded : List DecodedRegion}
    (encodes : encodeDeltaRegions crc32 compress previous current width height
      tile maxRegions allowZstd = some regions)
    (decodes : List.Forall₂ (RegionDecodes codecs surface bytesPerPixel) regions
      decoded) :
    Drawn current width height decoded ∧
      CoversChange previous current width height decoded := by
  let scan : TileScan :=
    { previous, current, width, height
      tile := max tile 1
      someTile := Nat.le_max_right tile 1 }
  obtain ⟨rects, found, delta⟩ :=
    @TileScan.rects_spec scan ⟨wasSized, sized⟩ wide high maxRegions
  unfold encodeDeltaRegions at encodes
  obtain ⟨others, same, mapped⟩ := Option.bind_eq_some_iff.mp encodes
  cases same.symm.trans found
  obtain ⟨sameRects, extracted⟩ :=
    extracted_of_mapM inverts sized delta.inside mapped decodes
  refine ⟨⟨fun region member => ?_, extracted⟩, fun column row differs => ?_⟩
  · apply delta.inside
    rw [← sameRects]
    exact List.mem_map_of_mem member
  · rw [sameRects]
    exact delta.covers column row differs

end

/-- A surface that takes the regions of a picture shows it, if they cover
whatever was different. -/
theorem shows_of_applied {base after : PixelSurface} {current : Bytes}
    {regions : List DecodedRegion}
    (applied : base.applyRegionsAtomic regions = .ok after)
    (someRegion : regions ≠ [])
    (sized : current.length = base.width * base.height)
    (extracted : ∀ region ∈ regions, Extracted current base.width region)
    (covers : CoversChange base.pixels current base.width base.height regions) :
    after.shape = base.shape ∧ after.pixels = current := by
  obtain ⟨fits, apart⟩ := PixelSurface.validateRegions_eq_ok.mp
    (PixelSurface.valid_of_applyRegionsAtomic applied)
  -- One region tells the number of bytes to a pixel.
  have oneByte : base.bytesPerPixel = 1 := by
    obtain ⟨region, member⟩ := List.exists_mem_of_ne_nil _ someRegion
    obtain ⟨inside, computed⟩ := fits region member
    have total := (area_eq_some.mp computed).1
    rw [(extracted region member).length] at total
    have area := Nat.mul_pos inside.wide inside.high
    exact (Nat.eq_of_mul_eq_mul_left area
      ((Nat.mul_one _).trans total)).symm
  have format : base.format = .gray8 := by
    unfold PixelSurface.bytesPerPixel at oneByte
    cases isFormat : base.format <;> rw [isFormat] at oneByte <;> cases oneByte
  have pairwise := (anyOverlap_of_inside fun region member =>
    (fits region member).1).mp apart
  let frame : ValidatedFrame :=
    { frameId := 0
      baseFrameId := 0
      intent := .latest
      pixelFormat := base.format
      decodedBytes := 0
      regions }
  obtain ⟨other, isApplied⟩ := PixelSurface.frameApplied_of_valid
    (show frame.pixelFormat = base.format from rfl) fits pairwise
  cases isApplied.atomic.symm.trans applied
  have packed : Packed base.width base.height .gray8 current :=
    { base.packed with
      length := ⟨1, rfl, sized.trans (Nat.mul_one _).symm⟩ }
  have shape : base.shape = ((base.width, base.height), .gray8) := by
    unfold PixelSurface.shape
    rw [format]
  let scan : TileScan :=
    { previous := base.pixels
      current
      width := base.width
      height := base.height
      tile := 1
      someTile := Nat.one_pos }
  have delta : scan.Delta regions.length (regions.map (·.rect)) :=
    { someRect := by
        rw [List.length_map]
        exact List.length_pos_iff.mpr someRegion
      fewRects := by
        rw [List.length_map]
        exact Nat.le_max_right _ _
      inside := by
        intro rect member
        obtain ⟨region, isRegion, rfl⟩ := List.mem_map.mp member
        exact (fits region isRegion).1
      apart := List.pairwise_map.mpr pairwise
      covers }
  have same : after = ⟨base.width, base.height, .gray8, current, packed⟩ :=
    picture_of_delta delta rfl extracted shape shape.symm rfl rfl isApplied
  exact ⟨isApplied.shape, by rw [same]⟩

end RmDisplay.Producer
