import Mathlib.Data.List.Forall2
import RmDisplay.Foundation.Integer
import RmDisplay.Protocol.Semantic

/-!
# What a validated frame is

A frame passes the validation exactly when it is about the surface, newer than
its last frame, and its regions decode, stay apart from each other and lie
inside.
-/

namespace RmDisplay.Protocol

open Foundation

namespace Validation

variable {α β : Type}

theorem bind_eq_ok {first : Validation α} {next : α → Validation β}
    {value : β} : (first >>= next) = .ok value ↔
      ∃ middle, first = .ok middle ∧ next middle = .ok value := by
  cases first with
  | error err =>
      constructor
      · intro impossible
        cases impossible
      · rintro ⟨_, impossible, _⟩
        cases impossible
  | ok middle =>
      constructor
      · intro returned
        exact ⟨middle, rfl, returned⟩
      · rintro ⟨_, same, returned⟩
        cases same
        exact returned

theorem require_eq_ok {condition : Prop} [Decidable condition]
    {err : SemanticError} : require condition err = .ok () ↔ condition := by
  unfold require
  split
  · simp_all
  · simp_all

theorem okOr_eq_ok {value : Option α} {err : SemanticError} {present : α} :
    okOr value err = .ok present ↔ value = some present := by
  cases value with
  | none => simp [okOr]
  | some found => simp [okOr]

theorem foldlM_inv {step : α → β → Validation α} (inv : List β → α → Prop)
    {items : List β} {start final : α}
    (extend : ∀ (done : List β) (item : β) (before after : α), inv done before →
      step before item = .ok after → inv (done ++ [item]) after)
    (ran : items.foldlM step start = .ok final) {done : List β}
    (atStart : inv done start) : inv (done ++ items) final := by
  induction items generalizing start done with
  | nil =>
      cases ran
      rw [List.append_nil]
      exact atStart
  | cons item items induction =>
      rw [List.foldlM_cons, bind_eq_ok] at ran
      obtain ⟨middle, turned, rest⟩ := ran
      have later := induction rest (extend done item _ _ atStart turned)
      rwa [List.append_assoc] at later

end Validation

open Validation

/-- The encoded data unpacks to exactly these bytes: a reader that may take one
byte more finds no more. -/
def Unpacks (codecs : Codecs) (region : FrameRegion) (pixels : Bytes) : Prop :=
  match tryFrom Encoding region.encoding with
  | some .raw => region.data = pixels
  | some .zlib => codecs.zlib region.data (pixels.length + 1) = some pixels
  | some .zstd => codecs.zstd region.data (pixels.length + 1) = some pixels
  | some .unspecified | none => False

theorem decodeExact_eq_ok {decoder : Nat → Option Bytes} {expected : Nat}
    {pixels : Bytes} : decodeExact decoder expected = .ok pixels ↔
      decoder (pixels.length + 1) = some pixels ∧ pixels.length = expected := by
  constructor
  · intro decoded
    obtain ⟨output, read, decoded⟩ := bind_eq_ok.mp decoded
    obtain ⟨_, sameLength, returned⟩ := bind_eq_ok.mp decoded
    cases returned
    rw [okOr_eq_ok] at read
    rw [require_eq_ok] at sameLength
    exact ⟨sameLength ▸ read, sameLength⟩
  · rintro ⟨read, rfl⟩
    refine bind_eq_ok.mpr ⟨pixels, okOr_eq_ok.mpr read, ?_⟩
    exact bind_eq_ok.mpr ⟨(), require_eq_ok.mpr rfl, rfl⟩

theorem decodeRegion_eq_ok {codecs : Codecs} {region : FrameRegion}
    {expected : Nat} {pixels : Bytes} :
    decodeRegion codecs region expected = .ok pixels ↔
      Unpacks codecs region pixels ∧ pixels.length = expected := by
  unfold decodeRegion Unpacks
  cases tryFrom Encoding region.encoding with
  | none => simp
  | some encoding =>
      cases encoding with
      | unspecified => simp
      | raw =>
          constructor
          · intro decoded
            obtain ⟨_, sameLength, returned⟩ := bind_eq_ok.mp decoded
            cases returned
            exact ⟨rfl, require_eq_ok.mp sameLength⟩
          · rintro ⟨rfl, sameLength⟩
            exact bind_eq_ok.mpr ⟨(), require_eq_ok.mpr sameLength, rfl⟩
      | zlib => exact decodeExact_eq_ok
      | zstd => exact decodeExact_eq_ok

theorem validatedRect_eq_ok {region : FrameRegion} {surface : SurfaceState}
    {rect : Rect} : validatedRect region surface = .ok rect ↔
      region.rect = some rect ∧ rect.Inside surface.width surface.height ∧
        rect.x + rect.width ≤ u32Max ∧ rect.y + rect.height ≤ u32Max := by
  constructor
  · intro valid
    obtain ⟨_, isRect, valid⟩ := bind_eq_ok.mp valid
    obtain ⟨_, notEmpty, valid⟩ := bind_eq_ok.mp valid
    obtain ⟨right, isRight, valid⟩ := bind_eq_ok.mp valid
    obtain ⟨bottom, isBottom, valid⟩ := bind_eq_ok.mp valid
    obtain ⟨_, fits, returned⟩ := bind_eq_ok.mp valid
    cases returned
    rw [okOr_eq_ok] at isRect isRight isBottom
    rw [require_eq_ok] at notEmpty fits
    rw [Bounded.checkedAdd_eq_some] at isRight isBottom
    refine ⟨isRect, ⟨by omega, by omega, ?_, ?_⟩, isRight.2, isBottom.2⟩
    · omega
    · omega
  · rintro ⟨isRect, inside, rightFits, bottomFits⟩
    have wide := inside.wide
    have high := inside.high
    refine bind_eq_ok.mpr ⟨rect, okOr_eq_ok.mpr isRect, ?_⟩
    refine bind_eq_ok.mpr ⟨(), require_eq_ok.mpr ⟨by omega, by omega⟩, ?_⟩
    refine bind_eq_ok.mpr ⟨rect.x + rect.width, okOr_eq_ok.mpr
      (Bounded.checkedAdd_eq_some.mpr ⟨rfl, rightFits⟩), ?_⟩
    refine bind_eq_ok.mpr ⟨rect.y + rect.height, okOr_eq_ok.mpr
      (Bounded.checkedAdd_eq_some.mpr ⟨rfl, bottomFits⟩), ?_⟩
    exact bind_eq_ok.mpr
      ⟨(), require_eq_ok.mpr ⟨inside.right, inside.bottom⟩, rfl⟩

/-- A region of a frame and what it decodes to. -/
structure RegionDecodes (codecs : Codecs) (surface : SurfaceState)
    (bytesPerPixel : Nat) (region : FrameRegion) (decoded : DecodedRegion) :
    Prop where
  rect : region.rect = some decoded.rect
  inside : decoded.rect.Inside surface.width surface.height
  declared : region.decodedLen =
    decoded.rect.width * decoded.rect.height * bytesPerPixel
  unpacked : Unpacks codecs region decoded.pixels
  sized : decoded.pixels.length = region.decodedLen
  checked : codecs.crc32 decoded.pixels = region.decodedCrc32

/-- A decoded region lies on the surface and has the bytes of its pixels. -/
structure DecodedRegion.Fits (region : DecodedRegion) (surface : SurfaceState)
    (bytesPerPixel : Nat) : Prop where
  inside : region.rect.Inside surface.width surface.height
  sized : (Bounded.checkedMul u64Max region.rect.width region.rect.height).bind
    (Bounded.checkedMul u64Max · bytesPerPixel) = some region.pixels.length

theorem area_eq_some {width height bytesPerPixel total : Nat} :
    (Bounded.checkedMul u64Max width height).bind
        (Bounded.checkedMul u64Max · bytesPerPixel) = some total ↔
      total = width * height * bytesPerPixel ∧ width * height ≤ u64Max ∧
        width * height * bytesPerPixel ≤ u64Max := by
  rw [Option.bind_eq_some_iff]
  constructor
  · rintro ⟨area, isArea, isTotal⟩
    rw [Bounded.checkedMul_eq_some] at isArea isTotal
    obtain ⟨rfl, areaFits⟩ := isArea
    exact ⟨isTotal.1, areaFits, isTotal.2⟩
  · rintro ⟨isTotal, areaFits, totalFits⟩
    exact ⟨width * height, Bounded.checkedMul_eq_some.mpr ⟨rfl, areaFits⟩,
      Bounded.checkedMul_eq_some.mpr ⟨isTotal, totalFits⟩⟩

/-- The limits of the surface are machine words. -/
structure SurfaceState.Addressable (surface : SurfaceState) : Prop where
  width : surface.width ≤ u32Max
  height : surface.height ≤ u32Max
  maxFrameBytes : surface.maxFrameBytes ≤ u64Max

/-- The progress after one more region. -/
def DecodeProgress.push (progress : DecodeProgress) (region : FrameRegion)
    (decoded : DecodedRegion) : DecodeProgress where
  decodedTotal := progress.decodedTotal + region.decodedLen
  encodedTotal := progress.encodedTotal + region.data.length
  decoded := progress.decoded ++ [decoded]

/-- The running totals stay within the limit of a frame. -/
def DecodeProgress.Within (progress : DecodeProgress) (limit : Nat) : Prop :=
  progress.decodedTotal ≤ limit ∧ progress.encodedTotal ≤ limit

theorem decodes_of_decodeNextRegion {codecs : Codecs} {surface : SurfaceState}
    {bytesPerPixel : Nat} {progress next : DecodeProgress}
    {region : FrameRegion}
    (turned : decodeNextRegion codecs surface bytesPerPixel progress region =
      .ok next) :
    ∃ decoded, RegionDecodes codecs surface bytesPerPixel region decoded ∧
      decoded.Fits surface bytesPerPixel ∧
      next = progress.push region decoded ∧
      next.Within surface.maxFrameBytes := by
  obtain ⟨rect, validRect, turned⟩ := bind_eq_ok.mp turned
  obtain ⟨expected, isExpected, turned⟩ := bind_eq_ok.mp turned
  obtain ⟨_, sameLength, turned⟩ := bind_eq_ok.mp turned
  obtain ⟨decodedTotal, isTotal, turned⟩ := bind_eq_ok.mp turned
  obtain ⟨encodedTotal, isEncoded, turned⟩ := bind_eq_ok.mp turned
  obtain ⟨_, within, turned⟩ := bind_eq_ok.mp turned
  obtain ⟨pixels, decoded, turned⟩ := bind_eq_ok.mp turned
  obtain ⟨_, checked, returned⟩ := bind_eq_ok.mp turned
  cases returned
  rw [okOr_eq_ok] at isExpected isTotal isEncoded
  rw [require_eq_ok] at sameLength within checked
  rw [Bounded.checkedAdd_eq_some] at isTotal isEncoded
  rw [decodeRegion_eq_ok] at decoded
  obtain ⟨isRect, inside, _⟩ := validatedRect_eq_ok.mp validRect
  refine ⟨⟨rect, pixels⟩, ?_, ⟨inside, decoded.2 ▸ isExpected⟩, ?_, within⟩
  · exact
      { rect := isRect
        inside
        declared := sameLength.trans (area_eq_some.mp isExpected).1
        unpacked := decoded.1
        sized := decoded.2.trans sameLength.symm
        checked }
  · rw [DecodeProgress.push, sameLength, isTotal.1, isEncoded.1]

theorem decodeNextRegion_of_decodes {codecs : Codecs} {surface : SurfaceState}
    {bytesPerPixel : Nat} {progress : DecodeProgress} {region : FrameRegion}
    {decoded : DecodedRegion} (addressable : surface.Addressable)
    (somePixel : 0 < bytesPerPixel)
    (decodes : RegionDecodes codecs surface bytesPerPixel region decoded)
    (within : (progress.push region decoded).Within surface.maxFrameBytes) :
    decodeNextRegion codecs surface bytesPerPixel progress region =
      .ok (progress.push region decoded) := by
  have right := Nat.le_trans decodes.inside.right addressable.width
  have bottom := Nat.le_trans decodes.inside.bottom addressable.height
  obtain ⟨decodedFits, encodedFits⟩ := within
  simp only [DecodeProgress.push] at decodedFits encodedFits
  have limit := addressable.maxFrameBytes
  have declared := decodes.declared
  have area : decoded.rect.width * decoded.rect.height ≤
      decoded.rect.width * decoded.rect.height * bytesPerPixel :=
    Nat.le_mul_of_pos_right _ somePixel
  refine bind_eq_ok.mpr ⟨decoded.rect, validatedRect_eq_ok.mpr
    ⟨decodes.rect, decodes.inside, right, bottom⟩, ?_⟩
  refine bind_eq_ok.mpr ⟨region.decodedLen, okOr_eq_ok.mpr
    (area_eq_some.mpr ⟨declared, by omega, by omega⟩), ?_⟩
  refine bind_eq_ok.mpr ⟨(), require_eq_ok.mpr rfl, ?_⟩
  refine bind_eq_ok.mpr ⟨progress.decodedTotal + region.decodedLen,
    okOr_eq_ok.mpr (Bounded.checkedAdd_eq_some.mpr ⟨rfl, by omega⟩), ?_⟩
  refine bind_eq_ok.mpr ⟨progress.encodedTotal + region.data.length,
    okOr_eq_ok.mpr (Bounded.checkedAdd_eq_some.mpr ⟨rfl, by omega⟩), ?_⟩
  refine bind_eq_ok.mpr
    ⟨(), require_eq_ok.mpr ⟨decodedFits, encodedFits⟩, ?_⟩
  refine bind_eq_ok.mpr ⟨decoded.pixels,
    decodeRegion_eq_ok.mpr ⟨decodes.unpacked, decodes.sized⟩, ?_⟩
  exact bind_eq_ok.mpr ⟨(), require_eq_ok.mpr decodes.checked, rfl⟩

/-- Declared and encoded lengths of all regions. -/
def decodedSize (regions : List FrameRegion) : Nat :=
  (regions.map (·.decodedLen)).sum

def encodedSize (regions : List FrameRegion) : Nat :=
  (regions.map (·.data.length)).sum

/-- The progress of the loop after some regions. -/
structure DecodeProgress.Covers (progress : DecodeProgress) (codecs : Codecs)
    (surface : SurfaceState) (bytesPerPixel : Nat) (done : List FrameRegion) :
    Prop where
  decodedTotal : progress.decodedTotal = decodedSize done
  encodedTotal : progress.encodedTotal = encodedSize done
  within : progress.Within surface.maxFrameBytes
  decoded : List.Forall₂ (RegionDecodes codecs surface bytesPerPixel) done
    progress.decoded
  fits : ∀ region ∈ progress.decoded, region.Fits surface bytesPerPixel

theorem decodeNextRegion_covers {codecs : Codecs} {surface : SurfaceState}
    {bytesPerPixel : Nat} {progress next : DecodeProgress}
    {done : List FrameRegion} {region : FrameRegion}
    (covers : progress.Covers codecs surface bytesPerPixel done)
    (turned : decodeNextRegion codecs surface bytesPerPixel progress region =
      .ok next) :
    next.Covers codecs surface bytesPerPixel (done ++ [region]) := by
  obtain ⟨decoded, decodes, fits, rfl, within⟩ :=
    decodes_of_decodeNextRegion turned
  refine ⟨?_, ?_, within, ?_, ?_⟩
  · simp [DecodeProgress.push, covers.decodedTotal, decodedSize]
  · simp [DecodeProgress.push, covers.encodedTotal, encodedSize]
  · exact List.rel_append covers.decoded (.cons decodes .nil)
  · intro other member
    rcases List.mem_append.mp member with old | new
    · exact covers.fits other old
    · rw [List.mem_singleton.mp new]
      exact fits

/-- The loop accepts regions that decode while the totals stay within the
limit.  The totals only grow, so the last ones decide. -/
theorem foldlM_decodeNextRegion {codecs : Codecs} {surface : SurfaceState}
    {bytesPerPixel : Nat} {regions : List FrameRegion}
    {decoded : List DecodedRegion} (addressable : surface.Addressable)
    (somePixel : 0 < bytesPerPixel)
    (decodes : List.Forall₂ (RegionDecodes codecs surface bytesPerPixel)
      regions decoded) (progress : DecodeProgress)
    (decodedFits : progress.decodedTotal + decodedSize regions ≤
      surface.maxFrameBytes)
    (encodedFits : progress.encodedTotal + encodedSize regions ≤
      surface.maxFrameBytes) :
    regions.foldlM (decodeNextRegion codecs surface bytesPerPixel) progress =
      .ok { decodedTotal := progress.decodedTotal + decodedSize regions
            encodedTotal := progress.encodedTotal + encodedSize regions
            decoded := progress.decoded ++ decoded } := by
  induction decodes generalizing progress with
  | nil => simp [decodedSize, encodedSize]; rfl
  | @cons region next regions decoded decodesFirst _ induction =>
      simp only [decodedSize, encodedSize, List.map_cons, List.sum_cons]
        at decodedFits encodedFits
      have within :
          (progress.push region next).Within surface.maxFrameBytes := by
        constructor
        · simp only [DecodeProgress.push]
          omega
        · simp only [DecodeProgress.push]
          omega
      have turned := decodeNextRegion_of_decodes addressable somePixel
        decodesFirst within
      rw [List.foldlM_cons, bind_eq_ok]
      refine ⟨_, turned, ?_⟩
      rw [induction]
      · simp [DecodeProgress.push, decodedSize, encodedSize, Nat.add_assoc]
      · simp only [DecodeProgress.push, decodedSize]
        omega
      · simp only [DecodeProgress.push, encodedSize]
        omega

theorem anyOverlap_eq_false {regions : List DecodedRegion} :
    anyOverlap regions = false ↔
      regions.Pairwise fun left right => overlaps left.rect right.rect = false := by
  induction regions with
  | nil => simp [anyOverlap]
  | cons first rest induction =>
      rw [anyOverlap, Bool.or_eq_false_iff, List.any_eq_false,
        List.pairwise_cons, induction]
      simp

/-- No pixel lies in both rectangles. -/
def Rect.Apart (left right : Rect) : Prop :=
  ∀ column row, ¬ (left.Covers column row ∧ right.Covers column row)

theorem Rect.Apart.symm {left right : Rect} (apart : left.Apart right) :
    right.Apart left :=
  fun column row both => apart column row both.symm

theorem overlaps_eq_false {left right : Rect}
    (leftWide : 0 < left.width) (leftHigh : 0 < left.height)
    (rightWide : 0 < right.width) (rightHigh : 0 < right.height) :
    overlaps left right = false ↔ left.Apart right := by
  constructor
  · rintro noOverlap column row ⟨inLeft, inRight⟩
    obtain ⟨⟨_, _⟩, _, _⟩ := inLeft
    obtain ⟨⟨_, _⟩, _, _⟩ := inRight
    have overlap : overlaps left right = true := by
      simp only [overlaps, Bool.and_eq_true, decide_eq_true_eq]
      omega
    rw [overlap] at noOverlap
    cases noOverlap
  · intro apart
    by_contra overlap
    rw [Bool.not_eq_false] at overlap
    simp only [overlaps, Bool.and_eq_true, decide_eq_true_eq] at overlap
    -- The larger of the two corners lies in both.
    refine apart (max left.x right.x) (max left.y right.y) ⟨?_, ?_⟩
    · refine ⟨⟨?_, ?_⟩, ?_, ?_⟩ <;> omega
    · refine ⟨⟨?_, ?_⟩, ?_, ?_⟩ <;> omega

theorem anyOverlap_of_inside {width height : Nat}
    {regions : List DecodedRegion}
    (inside : ∀ region ∈ regions, region.rect.Inside width height) :
    anyOverlap regions = false ↔
      regions.Pairwise fun left right => left.rect.Apart right.rect := by
  rw [anyOverlap_eq_false]
  apply List.Pairwise.iff_of_mem
  intro left right isLeft isRight
  exact overlaps_eq_false (inside left isLeft).wide (inside left isLeft).high
    (inside right isRight).wide (inside right isRight).high

/-- What the validation of a frame promises. -/
structure Decodes (frame : Frame) (surface : SurfaceState)
    (validated : ValidatedFrame) : Prop where
  surfaceId : frame.surfaceId = surface.surfaceId
  generation : frame.generation = surface.generation
  frameId : validated.frameId = frame.frameId
  newer : surface.logicalFrameId < frame.frameId
  baseFrameId : validated.baseFrameId = frame.baseFrameId
  onBase : frame.baseFrameId = 0 ∨ frame.baseFrameId = surface.logicalFrameId
  pixelFormat : validated.pixelFormat = surface.pixelFormat
  decodedBytes : validated.decodedBytes = (frame.regions.map (·.decodedLen)).sum
  rects : validated.regions.map (fun region => some region.rect) =
    frame.regions.map (·.rect)
  fits : ∃ bytesPerPixel, pixelFormatBytes surface.pixelFormat =
    some bytesPerPixel ∧
      ∀ region ∈ validated.regions, region.Fits surface bytesPerPixel
  apart : anyOverlap validated.regions = false
  keyframe : frame.baseFrameId = 0 →
    validated.regions.map (·.rect) = [surface.fullRect]

/-- The frames the validation is meant to accept, with the decoded regions. -/
structure ValidFrame (codecs : Codecs) (frame : Frame) (surface : SurfaceState)
    (bytesPerPixel : Nat) (decoded : List DecodedRegion) : Prop where
  surfaceId : frame.surfaceId = surface.surfaceId
  generation : frame.generation = surface.generation
  identified : frame.frameId ≠ 0
  newer : surface.logicalFrameId < frame.frameId
  intent : ∃ intent, tryFrom FrameIntent frame.intent = some intent ∧
    intent ≠ .unspecified
  someRegion : 1 ≤ frame.regions.length
  fewRegions : frame.regions.length ≤ min surface.maxRegions 65535
  onBase : frame.baseFrameId = 0 ∨ frame.baseFrameId = surface.logicalFrameId
  decodes : List.Forall₂ (RegionDecodes codecs surface bytesPerPixel)
    frame.regions decoded
  decodedFits : decodedSize frame.regions ≤ surface.maxFrameBytes
  encodedFits : encodedSize frame.regions ≤ surface.maxFrameBytes
  apart : decoded.Pairwise fun left right => left.rect.Apart right.rect
  keyframe : frame.baseFrameId = 0 →
    decoded.map DecodedRegion.rect = [surface.fullRect]

theorem rects_of_decodes {codecs : Codecs} {surface : SurfaceState}
    {bytesPerPixel : Nat} {regions : List FrameRegion}
    {decoded : List DecodedRegion}
    (decodes : List.Forall₂ (RegionDecodes codecs surface bytesPerPixel)
      regions decoded) :
    decoded.map (fun region => some region.rect) = regions.map (·.rect) := by
  induction decodes with
  | nil => rfl
  | cons first _ induction =>
      rw [List.map_cons, List.map_cons, induction, first.rect]

theorem ValidFrame.inside {codecs : Codecs} {frame : Frame}
    {surface : SurfaceState} {bytesPerPixel : Nat}
    {decoded : List DecodedRegion}
    (valid : ValidFrame codecs frame surface bytesPerPixel decoded) :
    ∀ region ∈ decoded, region.rect.Inside surface.width surface.height := by
  intro region member
  have inside {regions : List FrameRegion} {decoded : List DecodedRegion}
      (decodes : List.Forall₂ (RegionDecodes codecs surface bytesPerPixel)
        regions decoded) :
      ∀ region ∈ decoded,
        region.rect.Inside surface.width surface.height := by
    induction decodes with
    | nil => exact fun _ missing => nomatch missing
    | cons first _ induction =>
        exact List.forall_mem_cons.mpr ⟨first.inside, induction⟩
  exact inside valid.decodes region member

/-- What the validation has checked when it returns. -/
theorem valid_of_validate {codecs : Codecs} {frame : Frame}
    {surface : SurfaceState} {validated : ValidatedFrame} {bytesPerPixel : Nat}
    (supported : pixelFormatBytes surface.pixelFormat = some bytesPerPixel)
    (returned : validateAndDecodeFrame codecs frame surface = .ok validated) :
    ValidFrame codecs frame surface bytesPerPixel validated.regions ∧
      Decodes frame surface validated ∧
      tryFrom FrameIntent frame.intent = some validated.intent := by
  obtain ⟨_, addressed, returned⟩ := bind_eq_ok.mp returned
  obtain ⟨_, newer, returned⟩ := bind_eq_ok.mp returned
  obtain ⟨_, sameBytes, returned⟩ := bind_eq_ok.mp returned
  obtain ⟨intent, isIntent, returned⟩ := bind_eq_ok.mp returned
  obtain ⟨_, specified, returned⟩ := bind_eq_ok.mp returned
  obtain ⟨_, count, returned⟩ := bind_eq_ok.mp returned
  obtain ⟨_, onBase, returned⟩ := bind_eq_ok.mp returned
  obtain ⟨progress, looped, returned⟩ := bind_eq_ok.mp returned
  obtain ⟨_, apart, returned⟩ := bind_eq_ok.mp returned
  obtain ⟨_, keyframe, returned⟩ := bind_eq_ok.mp returned
  cases returned
  rw [okOr_eq_ok, supported] at sameBytes
  cases sameBytes
  rw [okOr_eq_ok] at isIntent
  rw [require_eq_ok] at addressed newer specified count onBase apart keyframe
  have covers : progress.Covers codecs surface bytesPerPixel frame.regions :=
    foldlM_inv
      (fun done progress => progress.Covers codecs surface bytesPerPixel done)
      (fun _ _ _ _ covers turned => decodeNextRegion_covers covers turned)
      looped ⟨rfl, rfl, ⟨Nat.zero_le _, Nat.zero_le _⟩, .nil,
        fun _ missing => nomatch missing⟩
  have onlyFull (isKeyframe : frame.baseFrameId = 0) :=
    keyframe.resolve_left fun isDelta => isDelta isKeyframe
  refine ⟨?_, ?_, isIntent⟩
  · exact
      { surfaceId := addressed.1
        generation := addressed.2
        identified := newer.1
        newer := newer.2
        intent := ⟨intent, isIntent, specified⟩
        someRegion := List.length_pos_iff.mpr count.1
        fewRegions := Nat.le_min.mpr count.2
        onBase
        decodes := covers.decoded
        decodedFits := covers.decodedTotal ▸ covers.within.1
        encodedFits := covers.encodedTotal ▸ covers.within.2
        apart := (anyOverlap_of_inside fun region member =>
          (covers.fits region member).inside).mp apart
        keyframe := onlyFull }
  · exact
      { surfaceId := addressed.1
        generation := addressed.2
        frameId := rfl
        newer := newer.2
        baseFrameId := rfl
        onBase
        pixelFormat := rfl
        decodedBytes := covers.decodedTotal
        rects := rects_of_decodes covers.decoded
        fits := ⟨bytesPerPixel, supported, covers.fits⟩
        apart
        keyframe := onlyFull }

theorem decodes_of_validate {codecs : Codecs} {frame : Frame}
    {surface : SurfaceState} {validated : ValidatedFrame}
    (valid : validateAndDecodeFrame codecs frame surface = .ok validated) :
    Decodes frame surface validated := by
  obtain ⟨bytesPerPixel, supported⟩ :
      ∃ bytes, pixelFormatBytes surface.pixelFormat = some bytes := by
    obtain ⟨_, _, rest⟩ := bind_eq_ok.mp valid
    obtain ⟨_, _, rest⟩ := bind_eq_ok.mp rest
    obtain ⟨bytes, supported, _⟩ := bind_eq_ok.mp rest
    exact ⟨bytes, okOr_eq_ok.mp supported⟩
  exact (valid_of_validate supported valid).2.1

/-- A delta on another base is refused for its base, if nothing else is wrong
with it. -/
theorem validate_offBase {codecs : Codecs} {frame : Frame}
    {surface : SurfaceState} {validated : ValidatedFrame}
    (newer : surface.logicalFrameId < frame.frameId)
    (delta : frame.baseFrameId ≠ 0)
    (other : frame.baseFrameId ≠ surface.logicalFrameId)
    (valid : validateAndDecodeFrame codecs frame
      { surface with logicalFrameId := frame.baseFrameId } = .ok validated) :
    validateAndDecodeFrame codecs frame surface =
      .error (.badBase surface.logicalFrameId frame.baseFrameId) := by
  have step {α β : Type} {first : Validation α} {next : α → Validation β}
      {value : α} (returned : first = .ok value) :
      (first >>= next) = next value := by
    rw [returned]
    rfl
  obtain ⟨_, addressed, valid⟩ := bind_eq_ok.mp valid
  obtain ⟨_, numbered, valid⟩ := bind_eq_ok.mp valid
  obtain ⟨_, supported, valid⟩ := bind_eq_ok.mp valid
  obtain ⟨_, isIntent, valid⟩ := bind_eq_ok.mp valid
  obtain ⟨_, specified, valid⟩ := bind_eq_ok.mp valid
  obtain ⟨_, count, _⟩ := bind_eq_ok.mp valid
  have identified := (require_eq_ok.mp numbered).1
  refine (step addressed).trans ?_
  refine (step (require_eq_ok.mpr ⟨identified, newer⟩)).trans ?_
  refine (step supported).trans ?_
  refine (step isIntent).trans ?_
  refine (step specified).trans ?_
  refine (step count).trans ?_
  unfold require
  rw [if_neg (not_or.mpr ⟨delta, other⟩)]
  rfl

/-- A frame that should be accepted is. -/
theorem validate_of_valid {codecs : Codecs} {frame : Frame}
    {surface : SurfaceState} {bytesPerPixel : Nat}
    {decoded : List DecodedRegion} (addressable : surface.Addressable)
    (supported : pixelFormatBytes surface.pixelFormat = some bytesPerPixel)
    (valid : ValidFrame codecs frame surface bytesPerPixel decoded) :
    ∃ validated,
      validateAndDecodeFrame codecs frame surface = .ok validated ∧
      validated.regions = decoded := by
  have somePixel : 0 < bytesPerPixel := by
    revert supported
    cases surface.pixelFormat <;> simp [pixelFormatBytes] <;> omega
  obtain ⟨intent, isIntent, specified⟩ := valid.intent
  have looped := foldlM_decodeNextRegion addressable somePixel valid.decodes {}
    (by simpa using valid.decodedFits) (by simpa using valid.encodedFits)
  have count := Nat.le_min.mp valid.fewRegions
  have someRegion : frame.regions ≠ [] :=
    List.length_pos_iff.mp valid.someRegion
  have apart : anyOverlap ([] ++ decoded) = false :=
    (anyOverlap_of_inside valid.inside).mpr valid.apart
  refine ⟨⟨frame.frameId, frame.baseFrameId, intent, surface.pixelFormat,
    0 + decodedSize frame.regions, [] ++ decoded⟩, ?_, rfl⟩
  have addressed := And.intro valid.surfaceId valid.generation
  refine bind_eq_ok.mpr ⟨(), require_eq_ok.mpr addressed, ?_⟩
  refine bind_eq_ok.mpr
    ⟨(), require_eq_ok.mpr ⟨valid.identified, valid.newer⟩, ?_⟩
  refine bind_eq_ok.mpr ⟨bytesPerPixel, okOr_eq_ok.mpr supported, ?_⟩
  refine bind_eq_ok.mpr ⟨intent, okOr_eq_ok.mpr isIntent, ?_⟩
  refine bind_eq_ok.mpr ⟨(), require_eq_ok.mpr specified, ?_⟩
  refine bind_eq_ok.mpr ⟨(), require_eq_ok.mpr ⟨someRegion, count⟩, ?_⟩
  refine bind_eq_ok.mpr ⟨(), require_eq_ok.mpr valid.onBase, ?_⟩
  refine bind_eq_ok.mpr ⟨_, looped, ?_⟩
  refine bind_eq_ok.mpr ⟨(), require_eq_ok.mpr apart, ?_⟩
  refine bind_eq_ok.mpr ⟨(), require_eq_ok.mpr ?_, rfl⟩
  exact (Nat.eq_zero_or_pos frame.baseFrameId).elim
    (fun isKeyframe => .inr (valid.keyframe isKeyframe))
    fun isDelta => .inl (Nat.pos_iff_ne_zero.mp isDelta)

end RmDisplay.Protocol
