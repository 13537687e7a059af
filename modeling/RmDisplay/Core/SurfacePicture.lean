import Mathlib.Tactic.IntervalCases
import RmDisplay.Core.Surface
import RmDisplay.Foundation.Grid
import RmDisplay.Foundation.Picture

/-!
# What the surface operations paint

A surface is seen as a picture: the packed pixel at each place, and nothing
outside.  Every operation that fits its surface returns, keeps the shape, and
paints: a copied region shows the source, a composed region shows the blended
source, and everything else is unchanged.
-/

namespace RmDisplay.Core

open Foundation Protocol Foundation.Picture

/-- Column and row. -/
abbrev Place := Nat × Nat

abbrev Pixels := Place → Bytes

/-- The places some rectangle covers. -/
def region (rects : List Rect) : Set Place := {p | Covered rects p.1 p.2}

@[simp] theorem mem_region {rects : List Rect} {p : Place} :
    p ∈ region rects ↔ Covered rects p.1 p.2 := Iff.rfl

@[simp] theorem region_nil : region [] = ∅ := by
  ext p
  simp

@[simp] theorem region_append (left right : List Rect) :
    region (left ++ right) = region left ∪ region right := by
  ext p
  simp

theorem blend_zero (background foreground : UInt8) :
    blend background foreground 0 = background := by
  apply UInt8.toNat_inj.mp
  have small := background.toNat_lt
  have fits : background.toNat * 255 + 127 < 65536 := by omega
  have quotient : (background.toNat * 255 + 127) / 255 = background.toNat := by
    omega
  simp [blend, Nat.mod_eq_of_lt fits, quotient]

/-- Packing the expanded channels of a pixel gives the pixel back. -/
private theorem packRgb565_expand (packed : UInt16) :
    packRgb565 (expand5 (packed >>> 11).toUInt8)
      (expand6 (packed >>> 5).toUInt8) (expand5 packed.toUInt8) = packed := by
  apply UInt16.eq_of_toBitVec_eq
  simp only [packRgb565, expand5, expand6, UInt16.toBitVec_or,
    UInt16.toBitVec_and, UInt16.toBitVec_shiftLeft,
    UInt16.toBitVec_shiftRight, UInt8.toBitVec_toUInt16, UInt8.toBitVec_or,
    UInt8.toBitVec_and, UInt8.toBitVec_shiftLeft, UInt8.toBitVec_shiftRight,
    UInt16.toBitVec_toUInt8]
  ext bit bound
  interval_cases bit <;>
    simp [-BitVec.setWidth_or, -BitVec.setWidth_and]

private theorem toUInt8_fromBytes (low high : UInt8) :
    (low.toUInt16 ||| (high.toUInt16 <<< 8)).toUInt8 = low := by
  apply UInt8.eq_of_toBitVec_eq
  ext bit bound
  interval_cases bit <;> simp

private theorem shifted_fromBytes (low high : UInt8) :
    ((low.toUInt16 ||| (high.toUInt16 <<< 8)) >>> 8).toUInt8 = high := by
  apply UInt8.eq_of_toBitVec_eq
  ext bit bound
  interval_cases bit <;> simp

theorem blendPixel_zero (format : PixelFormat) (pixel : Bytes) (luma : UInt8) :
    blendPixel format pixel luma 0 = pixel := by
  unfold blendPixel
  split
  · rw [blend_zero]
  · simp only [blend_zero, packRgb565_expand]
    rw [toUInt8_fromBytes, shifted_fromBytes]
  · rfl

theorem length_blendPixel (format : PixelFormat) (pixel : Bytes)
    (luma alpha : UInt8) :
    (blendPixel format pixel luma alpha).length = pixel.length := by
  unfold blendPixel
  split <;> rfl

@[simp] theorem blendPixel_nil (format : PixelFormat) (luma alpha : UInt8) :
    blendPixel format [] luma alpha = [] :=
  List.length_eq_zero_iff.mp (length_blendPixel format [] luma alpha)

namespace LocalOverlay

/-- The picture with the plane blended over it. -/
def blended (overlay : LocalOverlay) (width : Nat) (format : PixelFormat)
    (picture : Pixels) : Pixels := fun p =>
  blendPixel format (picture p) (overlay.luma.getD (p.2 * width + p.1) 0)
    (overlay.alpha.getD (p.2 * width + p.1) 0)

theorem length_alpha (overlay : LocalOverlay) :
    overlay.alpha.length = overlay.len := overlay.planes.sameLength.symm

theorem alpha_of_transparent {overlay : LocalOverlay}
    (isClear : overlay.transparent = true) (index : Nat) :
    overlay.alpha.getD index 0 = 0 := by
  rw [List.getD_eq_getElem?_getD]
  cases found : overlay.alpha[index]? with
  | none => rfl
  | some value =>
      exact overlay.clear_of_transparent isClear value
        (List.mem_of_getElem? found)

theorem blended_of_alpha_zero {overlay : LocalOverlay} {width : Nat}
    {format : PixelFormat} {picture : Pixels} {p : Place}
    (uncovered : overlay.alpha.getD (p.2 * width + p.1) 0 = 0) :
    overlay.blended width format picture p = picture p := by
  rw [blended, uncovered, blendPixel_zero]

theorem blended_of_transparent {overlay : LocalOverlay}
    (isClear : overlay.transparent = true) (width : Nat) (format : PixelFormat)
    (picture : Pixels) : overlay.blended width format picture = picture :=
  funext fun _ => blended_of_alpha_zero (alpha_of_transparent isClear _)

theorem blended_congr {overlay : LocalOverlay} {width : Nat} {format : PixelFormat}
    {left right : Pixels} {p : Place} (same : left p = right p) :
    overlay.blended width format left p = overlay.blended width format right p := by
  rw [blended, blended, same]

end LocalOverlay

namespace PixelSurface

/-- Dimensions and format. -/
def shape (self : PixelSurface) : (Nat × Nat) × PixelFormat :=
  ((self.width, self.height), self.format)

theorem shape_eq_iff {left right : PixelSurface} :
    left.shape = right.shape ↔
      (left.width = right.width ∧ left.height = right.height) ∧
        left.format = right.format := by
  simp [shape]

theorem sameShape_iff {left right : PixelSurface} :
    left.sameShape right = true ↔ left.shape = right.shape := by
  simp [shape_eq_iff, sameShape]

theorem bytesPerPixel_pos (self : PixelSurface) : 0 < self.bytesPerPixel := by
  obtain ⟨bytes, supported, _⟩ := self.packed.length
  rw [bytesPerPixel, supported, Option.getD_some]
  revert supported
  cases self.format <;> simp [pixelFormatBytes] <;> omega

theorem bytesPerPixel_congr {left right : PixelSurface}
    (same : left.shape = right.shape) :
    left.bytesPerPixel = right.bytesPerPixel := by
  rw [bytesPerPixel, bytesPerPixel, (shape_eq_iff.mp same).2]

theorem pixelLen_eq (self : PixelSurface) :
    pixelLen self.width self.height = .ok (self.width * self.height) :=
  pixelLen_eq_ok.mpr
    ⟨⟨self.packed.wide, self.packed.high⟩, rfl, self.packed.addressable⟩

/-- The packed pixel at each place. -/
def picture (self : PixelSurface) : Pixels := fun p =>
  if p.1 < self.width ∧ p.2 < self.height then
    Buffer.chunk self.bytesPerPixel self.pixels (p.2 * self.width + p.1)
  else []

theorem picture_inside {self : PixelSurface} {p : Place}
    (inside : p.1 < self.width ∧ p.2 < self.height) :
    self.picture p =
      Buffer.chunk self.bytesPerPixel self.pixels (p.2 * self.width + p.1) :=
  if_pos inside

theorem picture_outside {self : PixelSurface} {p : Place}
    (outside : ¬ (p.1 < self.width ∧ p.2 < self.height)) :
    self.picture p = [] := if_neg outside

theorem length_picture {self : PixelSurface} {p : Place}
    (inside : p.1 < self.width ∧ p.2 < self.height) :
    (self.picture p).length = self.bytesPerPixel := by
  rw [picture_inside inside]
  exact Buffer.length_chunk self.length_pixels
    (Grid.rowMajor_lt inside.1 inside.2)

theorem ext_pixels {left right : PixelSurface}
    (sameShape : left.shape = right.shape)
    (samePixels : left.pixels = right.pixels) : left = right := by
  obtain ⟨⟨sameWidth, sameHeight⟩, sameFormat⟩ := shape_eq_iff.mp sameShape
  cases left
  cases right
  subst sameWidth sameHeight sameFormat samePixels
  rfl

/-- A surface is its shape and its picture. -/
theorem ext_picture {left right : PixelSurface}
    (sameShape : left.shape = right.shape)
    (samePicture : left.picture = right.picture) : left = right := by
  have samePixels : left.pixels = right.pixels := by
    have sameBytes := bytesPerPixel_congr sameShape
    obtain ⟨⟨sameWidth, sameHeight⟩, _⟩ := shape_eq_iff.mp sameShape
    refine Buffer.eq_of_chunks left.bytesPerPixel_pos left.length_pixels
      (by rw [right.length_pixels, sameWidth, sameHeight, sameBytes]) ?_
    intro index inside
    have wide := left.packed.wide
    have column := Nat.mod_lt index wide
    have row : index / left.width < left.height := by
      rw [Nat.div_lt_iff_lt_mul wide, Nat.mul_comm]
      exact inside
    have same := congrFun samePicture (index % left.width, index / left.width)
    rw [picture_inside ⟨column, row⟩,
      picture_inside ⟨sameWidth ▸ column, sameHeight ▸ row⟩, ← sameWidth,
      ← sameBytes] at same
    simpa only [Nat.div_add_mod'] using same
  exact ext_pixels sameShape samePixels

/-- `count` places from `(x, y)` to the right. -/
def rowRegion (x y count : Nat) : Set Place :=
  {p | p.2 = y ∧ x ≤ p.1 ∧ p.1 < x + count}

private theorem row_fits {self : PixelSurface} {x y count : Nat}
    (row : y < self.height) (columns : x + count ≤ self.width) :
    (y * self.width + x) * self.bytesPerPixel + count * self.bytesPerPixel ≤
      self.pixels.length := by
  rw [length_pixels, ← Nat.add_mul]
  apply Nat.mul_le_mul_right
  have rows := Nat.mul_le_mul_right self.width (show y + 1 ≤ self.height from row)
  rw [Nat.add_one_mul, Nat.mul_comm self.height] at rows
  omega

/-- A row inside the surface can be read. -/
theorem loadPixels_row (self : PixelSurface) (x y count : Nat)
    (row : y < self.height) (columns : x + count ≤ self.width) :
    ∃ part, self.loadPixels (y * self.width + x) count = some part ∧
      part.length = count * self.bytesPerPixel ∧
      ∀ offset < count, Buffer.chunk self.bytesPerPixel part offset =
        self.picture (x + offset, y) := by
  have read := Buffer.slice_eq _ _ _ (row_fits row columns)
  refine ⟨_, read, Buffer.length_of_slice read, ?_⟩
  intro offset inside
  rw [Buffer.chunk_of_slice read inside, picture_inside ⟨by simp; omega, row⟩,
    Nat.add_assoc]

private theorem write_of_overwrite {self : PixelSurface} {start : Nat}
    {source pixels : Bytes}
    (written : Buffer.overwrite self.pixels start source = some pixels) :
    ∃ next, self.write start source = some next ∧ next.shape = self.shape ∧
      next.pixels = pixels := by
  unfold write
  split
  · rename_i missing
    rw [written] at missing
    cases missing
  · rename_i stored present
    rw [written] at present
    cases present
    exact ⟨_, rfl, rfl, rfl⟩

/-- A row inside the surface can be written, and nothing else changes. -/
theorem storePixels_row (self : PixelSurface) (x y count : Nat)
    (source : Bytes) (values : Pixels) (row : y < self.height)
    (columns : x + count ≤ self.width)
    (sourceLength : source.length = count * self.bytesPerPixel)
    (shown : ∀ offset < count, Buffer.chunk self.bytesPerPixel source offset =
      values (x + offset, y)) :
    ∃ next, self.storePixels (y * self.width + x) source = some next ∧
      next.shape = self.shape ∧
      next.picture = paint (rowRegion x y count) values self.picture := by
  have written := Buffer.overwrite_fits self.pixels source
    ((y * self.width + x) * self.bytesPerPixel) (by rw [sourceLength]; exact row_fits row columns)
  obtain ⟨next, stored, sameShape, nextPixels⟩ := write_of_overwrite written
  refine ⟨next, stored, sameShape, ?_⟩
  rw [← nextPixels] at written
  have sameBytes := bytesPerPixel_congr sameShape
  obtain ⟨⟨sameWidth, sameHeight⟩, _⟩ := shape_eq_iff.mp sameShape
  funext ⟨column, line⟩
  by_cases inside : column < self.width ∧ line < self.height
  · have chunks := Buffer.chunk_of_overwrite sourceLength written
      (line * self.width + column)
    rw [picture_inside (by rwa [sameWidth, sameHeight]), sameBytes, sameWidth]
    refine chunks.trans ?_
    by_cases here : (column, line) ∈ rowRegion x y count
    · rw [paint_of_mem here]
      obtain ⟨sameRow, lower, upper⟩ := here
      simp only at sameRow lower upper
      subst sameRow
      have offset : line * self.width + column - (line * self.width + x) =
          column - x := by omega
      rw [if_pos (by omega), offset,
        shown _ (by omega), Nat.add_sub_cancel' lower]
    · rw [paint_of_not_mem here, picture_inside inside, if_neg]
      rintro ⟨lower, upper⟩
      apply here
      have sameRow : line = y := by
        rcases Nat.lt_trichotomy line y with before | same | after
        · have := Nat.mul_le_mul_right self.width (show line + 1 ≤ y from before)
          rw [Nat.add_one_mul] at this
          omega
        · exact same
        · have := Nat.mul_le_mul_right self.width (show y + 1 ≤ line from after)
          rw [Nat.add_one_mul] at this
          omega
      subst sameRow
      exact ⟨rfl, Nat.add_le_add_iff_left.mp lower, by
        rw [Nat.add_assoc] at upper
        exact Nat.add_lt_add_iff_left.mp upper⟩
  · rw [picture_outside (by rwa [sameWidth, sameHeight]), paint_of_not_mem,
      picture_outside inside]
    rintro ⟨sameRow, _, upper⟩
    apply inside
    simp only at sameRow upper
    exact ⟨by omega, by omega⟩

end PixelSurface

end RmDisplay.Core
