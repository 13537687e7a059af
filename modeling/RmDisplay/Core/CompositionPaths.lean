import RmDisplay.Core.OverlaySpec
import RmDisplay.Core.SurfaceSpec
import RmDisplay.Protocol.SemanticSpec

/-!
# One composition in three loops

A plane is composed over a surface as a whole, region by region into another
surface, or in place over a copied region.  The loops take different shortcuts
where the plane covers nothing; all of them show the same blended pixels.
-/

namespace RmDisplay.Core

open Foundation Protocol Foundation.Picture

/-- The edits of a plane; a patch and a pen segment are told the width. -/
inductive OverlayEdit where
  | patch (width : Nat) (rect : Rect) (luma alpha : Bytes)
  | replacePlanes (luma alpha : Bytes)
  | clear
  | inkLine (width : Nat) (origin target : Nat × Nat) (radius : Nat)
      (erase : Bool)
  | takeDirty

namespace LocalOverlay

def edit (self : LocalOverlay) : OverlayEdit → SurfaceRes LocalOverlay
  | .patch width rect luma alpha => self.patch width rect luma alpha
  | .replacePlanes luma alpha => self.replacePlanes luma alpha
  | .clear => .ok self.clear
  | .inkLine width origin target radius erase =>
      self.inkLine width origin target radius erase
  | .takeDirty => .ok self.takeDirty.2

/-- The planes of a surface after any edits; a failed edit changes nothing. -/
inductive Reached (width height : Nat) : LocalOverlay → Prop where
  | fresh {overlay : LocalOverlay}
      (made : newTransparent width height = .ok overlay) :
      Reached width height overlay
  | edited {before after : LocalOverlay} {edit : OverlayEdit}
      (reached : Reached width height before)
      (done : before.edit edit = .ok after) : Reached width height after

theorem len_edit {before after : LocalOverlay} {edit : OverlayEdit}
    (done : before.edit edit = .ok after) : after.len = before.len := by
  cases edit with
  | patch width rect luma alpha => exact (patch_spec done).1
  | replacePlanes luma alpha => exact (replacePlanes_spec done).1
  | clear =>
      cases done
      exact len_clear before
  | inkLine width origin target radius erase =>
      obtain ⟨_, _, sameLen, _⟩ := inkLine_spec done
      exact sameLen
  | takeDirty =>
      cases done
      exact len_takeDirty before

theorem Reached.len {width height : Nat} {overlay : LocalOverlay}
    (reached : Reached width height overlay) : overlay.len = width * height := by
  induction reached with
  | fresh made =>
      obtain ⟨len, isLen, stored⟩ := Res.bind_eq_ok.mp made
      cases stored
      rw [pixelLen_eq_ok] at isLen
      exact List.length_replicate.trans isLen.2.1
  | edited _ done induction => exact (len_edit done).trans induction

/-- The same planes without the mark that lets the loops stop early. -/
def unmarked (self : LocalOverlay) : LocalOverlay where
  planes := self.planes
  transparent := false
  dirty := self.dirty
  clear_of_transparent := by simp

end LocalOverlay

/-- The weights of a blend add up to 255, so the sum stays below `2 ^ 16`. -/
private theorem blend_bounds (background foreground alpha : UInt8) :
    foreground.toNat * alpha.toNat ≤ 255 * alpha.toNat ∧
      background.toNat * (255 - alpha.toNat) ≤ 255 * (255 - alpha.toNat) := by
  have foregroundSmall := foreground.toNat_lt
  have backgroundSmall := background.toNat_lt
  constructor
  · exact Nat.mul_le_mul_right _ (by omega)
  · exact Nat.mul_le_mul_right _ (by omega)

theorem blend_toNat (background foreground alpha : UInt8) :
    (blend background foreground alpha).toNat =
      (foreground.toNat * alpha.toNat +
        background.toNat * (255 - alpha.toNat) + 127) / 255 := by
  have alphaSmall := alpha.toNat_lt
  obtain ⟨foregroundPart, backgroundPart⟩ :=
    blend_bounds background foreground alpha
  have rest : ((255 : UInt16) - alpha.toUInt16).toNat = 255 - alpha.toNat := by
    rw [UInt16.toNat_sub_of_le]
    · simp
    · simp [UInt16.le_iff_toNat_le]
      omega
  simp only [blend, UInt16.toNat_toUInt8, UInt16.toNat_div, UInt16.toNat_add,
    UInt16.toNat_mul, rest, UInt8.toNat_toUInt16]
  generalize foreground.toNat * alpha.toNat = front at foregroundPart ⊢
  generalize background.toNat * (255 - alpha.toNat) = back at backgroundPart ⊢
  simp only [UInt16.reduceToNat]
  omega

theorem blend_full (background foreground : UInt8) :
    blend background foreground 255 = foreground := by
  apply UInt8.toNat_inj.mp
  rw [blend_toNat]
  simp only [UInt8.reduceToNat]
  omega

private theorem channel_bounds (red green : UInt8) :
    (red.toNat &&& 0xf8) <<< 8 ≤ u16Max ∧
      (green.toNat &&& 0xfc) <<< 3 ≤ u16Max := by
  have redSmall : red.toNat &&& 0xf8 ≤ 0xf8 := Nat.and_le_right
  have greenSmall : green.toNat &&& 0xfc ≤ 0xfc := Nat.and_le_right
  rw [Nat.shiftLeft_eq, Nat.shiftLeft_eq, u16Max]
  omega

theorem packRgb565_toNat (red green blue : UInt8) :
    (packRgb565 red green blue).toNat =
      (red.toNat &&& 0xf8) <<< 8 ||| (green.toNat &&& 0xfc) <<< 3 |||
        blue.toNat >>> 3 := by
  obtain ⟨redFits, greenFits⟩ := channel_bounds red green
  rw [u16Max] at redFits greenFits
  simp only [packRgb565, UInt16.toNat_or, UInt16.toNat_shiftLeft,
    UInt16.toNat_shiftRight, UInt16.toNat_and, UInt8.toNat_toUInt16,
    UInt16.reduceToNat]
  simp only [Nat.reduceMod]
  congr 2
  · exact Nat.mod_eq_of_lt (by omega)
  · exact Nat.mod_eq_of_lt (by omega)

/-- Sixteen bits hold every intermediate of a blend and of packing, so machine
arithmetic computes the unbounded values. -/
structure ExactArithmetic : Prop where
  products : ∀ background foreground alpha : UInt8,
    foreground.toNat * alpha.toNat ≤ u16Max ∧
      background.toNat * (255 - alpha.toNat) ≤ u16Max ∧
      foreground.toNat * alpha.toNat +
        background.toNat * (255 - alpha.toNat) + 127 ≤ u16Max
  blended : ∀ background foreground alpha : UInt8,
    (blend background foreground alpha).toNat =
      (foreground.toNat * alpha.toNat +
        background.toNat * (255 - alpha.toNat) + 127) / 255
  channels : ∀ red green : UInt8,
    (red.toNat &&& 0xf8) <<< 8 ≤ u16Max ∧
      (green.toNat &&& 0xfc) <<< 3 ≤ u16Max
  packed : ∀ red green blue : UInt8,
    (packRgb565 red green blue).toNat =
      (red.toNat &&& 0xf8) <<< 8 ||| (green.toNat &&& 0xfc) <<< 3 |||
        blue.toNat >>> 3

theorem exactArithmetic : ExactArithmetic where
  products background foreground alpha := by
    have alphaSmall := alpha.toNat_lt
    obtain ⟨foregroundPart, backgroundPart⟩ :=
      blend_bounds background foreground alpha
    rw [u16Max]
    refine ⟨?_, ?_, ?_⟩
    · omega
    · omega
    · omega
  blended := blend_toNat
  channels := channel_bounds
  packed := packRgb565_toNat

/-- A covered pixel: the luma of the plane in the format of the surface. -/
def packedLuma (format : PixelFormat) (luma : UInt8) : Bytes :=
  match format with
  | .gray8 => [luma]
  | .rgb565Le =>
      let packed := packRgb565 luma luma luma
      [packed.toUInt8, (packed >>> 8).toUInt8]
  | .unspecified | .gray4 => []

theorem blendPixel_full {format : PixelFormat} {pixel : Bytes} {bytes : Nat}
    (supported : pixelFormatBytes format = some bytes)
    (sized : pixel.length = bytes) (luma : UInt8) :
    blendPixel format pixel luma 255 = packedLuma format luma := by
  cases format with
  | unspecified => cases supported
  | gray4 => cases supported
  | gray8 =>
      cases supported
      obtain ⟨value, rfl⟩ := List.length_eq_one_iff.mp sized
      simp [blendPixel, packedLuma, blend_full]
  | rgb565Le =>
      cases supported
      obtain ⟨low, high, rfl⟩ := List.length_eq_two.mp sized
      simp [blendPixel, packedLuma, blend_full]

namespace PixelSurface

/-- Blending in place over rectangles apart from each other blends every pixel
once. -/
theorem foldlM_blendRegion (self : PixelSurface) (overlay : LocalOverlay)
    (rects : List Rect) (sameLen : overlay.len = self.width * self.height)
    (inside : ∀ rect ∈ rects, rect.Inside self.width self.height)
    (apart : rects.Pairwise Rect.Apart) :
    ∃ next, rects.foldlM (blendRegion overlay) self = .ok next ∧
      next.shape = self.shape ∧
      next.picture = paint (region rects)
        (overlay.blended self.width self.format self.picture) self.picture := by
  have union :
      {p : Place | ∃ rect ∈ rects, p ∈ region [rect]} = region rects := by
    ext p
    simp [Covered]
  rw [← union]
  refine foldlM_paint picture (fun state => state.shape = self.shape)
    (fun rect => region [rect]) _ rects self rfl ?_
  intro done rect rest state split sameShape painted
  obtain ⟨⟨sameWidth, sameHeight⟩, sameFormat⟩ := shape_eq_iff.mp sameShape
  have rectInside := inside rect (by simp [split])
  obtain ⟨next, blended, nextShape, nextPainted⟩ :=
    blendRegion_spec state overlay rect (by rw [sameLen, sameWidth, sameHeight])
      (by rw [sameWidth, sameHeight]; exact rectInside)
  refine ⟨next, blended, nextShape.trans sameShape, ?_⟩
  rw [nextPainted, sameWidth, sameFormat]
  funext p
  by_cases here : p ∈ region [rect]
  · -- No earlier rectangle has touched this pixel.
    have untouched : state.picture p = self.picture p := by
      rw [painted]
      apply paint_of_not_mem
      rintro ⟨earlier, isDone, alsoHere⟩
      rw [split, List.pairwise_append] at apart
      exact apart.2.2 earlier isDone rect List.mem_cons_self p.1 p.2
        ⟨covered_singleton.mp alsoHere, covered_singleton.mp here⟩
    rw [paint_of_mem here, paint_of_mem here]
    exact LocalOverlay.blended_congr untouched
  · rw [paint_of_not_mem here, paint_of_not_mem here]

theorem blendRegions_apart (self : PixelSurface) (overlay : LocalOverlay)
    (rects : List Rect) (sameLen : overlay.len = self.width * self.height)
    (inside : ∀ rect ∈ rects, rect.Inside self.width self.height)
    (apart : rects.Pairwise Rect.Apart) :
    ∃ next, self.blendRegions overlay rects = .ok next ∧
      next.shape = self.shape ∧
      next.picture = paint (region rects)
        (overlay.blended self.width self.format self.picture) self.picture := by
  rw [blendRegions]
  split
  · rename_i isClear
    refine ⟨self, rfl, rfl, ?_⟩
    rw [LocalOverlay.blended_of_transparent isClear, paint_self]
  · rw [if_neg (not_not.mpr sameLen)]
    exact foldlM_blendRegion self overlay rects sameLen inside apart

/-- A row without coverage is copied, with the same result as blending it
pixel by pixel. -/
theorem composeRow_eq_loop {overlay : LocalOverlay}
    {source output : PixelSurface} {x y count : Nat}
    (sameShape : output.shape = source.shape)
    (sameLen : overlay.len = source.width * source.height)
    (row : y < source.height) (columns : x + count ≤ source.width) :
    composeRow overlay source output (y * source.width + x) count =
      (List.range' (y * source.width + x) count).foldlM
        (blendInto overlay source) output := by
  obtain ⟨next, composed, nextShape, painted⟩ :=
    composeRow_spec sameShape sameLen row columns
  obtain ⟨looped, ran, loopedShape, loopedPainted⟩ :=
    blendRow_spec sameShape sameLen row columns
  rw [composed, ran]
  congr 1
  exact ext_picture (nextShape.trans loopedShape.symm)
    (painted.trans loopedPainted.symm)

/-- `after` shows `source` inside the rectangles and `before` elsewhere. -/
structure ShowsIn (rects : List Rect) (source before after : PixelSurface) :
    Prop where
  shape : after.shape = before.shape
  inside : ∀ p ∈ region rects, after.picture p = source.picture p
  outside : ∀ p ∉ region rects, after.picture p = before.picture p

theorem showsIn_of_paint {rects : List Rect}
    {source before after : PixelSurface}
    (shape : after.shape = before.shape)
    (painted : after.picture =
      paint (region rects) source.picture before.picture) :
    ShowsIn rects source before after :=
  ⟨shape, fun p inside => by rw [painted, paint_of_mem inside],
    fun p outside => by rw [painted, paint_of_not_mem outside]⟩

end PixelSurface

open PixelSurface

/-- All ways to compose a plane over a surface give the same pixels. -/
structure CompositionsAgree (surface : PixelSurface) (overlay : LocalOverlay)
    (rects : List Rect) (composed : PixelSurface) : Prop where
  whole : surface.compose overlay = .ok composed ∧
    composed.shape = surface.shape
  into : ∀ output : PixelSurface, output.shape = surface.shape →
    ∃ after, surface.composeRegionsInto overlay output rects = .ok after ∧
      ShowsIn rects composed output after
  inPlace : rects.Pairwise Rect.Apart →
    ∀ output : PixelSurface, output.shape = surface.shape →
      ∃ copied after, output.copyRegionsFrom surface rects = .ok copied ∧
        copied.blendRegions overlay rects = .ok after ∧
        ShowsIn rects composed output after
  /-- The mark lets whole planes be skipped; nothing else depends on it. -/
  clear : overlay.transparent = true → ∀ value ∈ overlay.alpha, value = 0
  wholePlane : surface.compose overlay.unmarked = .ok composed ∧
    ∀ output : PixelSurface, output.shape = surface.shape →
      surface.composeRegionsInto overlay.unmarked output rects =
          surface.composeRegionsInto overlay output rects ∧
        (rects.Pairwise Rect.Apart →
          output.blendRegions overlay.unmarked rects =
            output.blendRegions overlay rects)
  wholeRow : ∀ (output : PixelSurface) (x y count : Nat),
    output.shape = surface.shape → y < surface.height →
      x + count ≤ surface.width →
      composeRow overlay surface output (y * surface.width + x) count =
        (List.range' (y * surface.width + x) count).foldlM
          (blendInto overlay surface) output
  uncovered : ∀ p : Place,
    overlay.alpha[p.2 * surface.width + p.1]? = some 0 →
      composed.picture p = surface.picture p
  covered : ∀ (p : Place) (luma : UInt8),
    p.1 < surface.width ∧ p.2 < surface.height →
      overlay.alpha[p.2 * surface.width + p.1]? = some 255 →
      overlay.luma[p.2 * surface.width + p.1]? = some luma →
      composed.picture p = packedLuma surface.format luma
  arithmetic : ExactArithmetic

theorem compositionsAgree_of_reached {surface : PixelSurface}
    {overlay : LocalOverlay} {rects : List Rect}
    (reached : overlay.Reached surface.width surface.height)
    (inside : ∀ rect ∈ rects, rect.Inside surface.width surface.height) :
    ∃ composed, CompositionsAgree surface overlay rects composed := by
  have sameLen := reached.len
  obtain ⟨composed, isComposed, shape, blended⟩ :=
    compose_spec surface overlay sameLen
  have insideOf {output : PixelSurface} (sameShape : output.shape = surface.shape) :
      ∀ rect ∈ rects, rect.Inside output.width output.height := by
    obtain ⟨⟨sameWidth, sameHeight⟩, _⟩ := shape_eq_iff.mp sameShape
    rw [sameWidth, sameHeight]
    exact inside
  refine ⟨composed,
    { whole := ⟨isComposed, shape⟩
      into := ?_
      inPlace := ?_
      clear := overlay.clear_of_transparent
      wholePlane := ⟨?_, ?_⟩
      wholeRow := ?_
      uncovered := ?_
      covered := ?_
      arithmetic := exactArithmetic }⟩
  · intro output sameShape
    obtain ⟨after, isAfter, afterShape, painted⟩ :=
      composeRegionsInto_spec surface overlay rects sameShape sameLen inside
    exact ⟨after, isAfter, showsIn_of_paint afterShape (blended ▸ painted)⟩
  · intro apart output sameShape
    obtain ⟨copied, isCopied, copiedShape, copiedPaint⟩ :=
      copyRegionsFrom_spec rects sameShape (insideOf sameShape)
    have toSurface := copiedShape.trans sameShape
    obtain ⟨⟨sameWidth, sameHeight⟩, sameFormat⟩ := shape_eq_iff.mp toSurface
    obtain ⟨after, isAfter, afterShape, painted⟩ :=
      blendRegions_apart copied overlay rects
        (by rw [sameLen, sameWidth, sameHeight]) (insideOf toSurface) apart
    refine ⟨copied, after, isCopied, isAfter, afterShape.trans copiedShape,
      ?_, ?_⟩
    · intro p isIn
      rw [painted, paint_of_mem isIn, blended, sameWidth, sameFormat]
      apply LocalOverlay.blended_congr
      rw [copiedPaint, paint_of_mem isIn]
    · intro p isOut
      rw [painted, paint_of_not_mem isOut, copiedPaint, paint_of_not_mem isOut]
  · obtain ⟨other, isOther, otherShape, otherBlended⟩ :=
      compose_spec surface overlay.unmarked sameLen
    rw [isOther, ext_picture (otherShape.trans shape.symm)
      (otherBlended.trans blended.symm)]
  · intro output sameShape
    constructor
    · obtain ⟨after, isAfter, afterShape, painted⟩ :=
        composeRegionsInto_spec surface overlay rects sameShape sameLen inside
      obtain ⟨other, isOther, otherShape, otherPainted⟩ :=
        composeRegionsInto_spec surface overlay.unmarked rects sameShape
          sameLen inside
      rw [isAfter, isOther, ext_picture (otherShape.trans afterShape.symm)
        (otherPainted.trans painted.symm)]
    · intro apart
      obtain ⟨⟨sameWidth, sameHeight⟩, _⟩ := shape_eq_iff.mp sameShape
      have outputLen : overlay.len = output.width * output.height := by
        rw [sameLen, sameWidth, sameHeight]
      obtain ⟨after, isAfter, afterShape, painted⟩ :=
        blendRegions_apart output overlay rects outputLen (insideOf sameShape)
          apart
      obtain ⟨other, isOther, otherShape, otherPainted⟩ :=
        blendRegions_apart output overlay.unmarked rects outputLen
          (insideOf sameShape) apart
      rw [isAfter, isOther, ext_picture (otherShape.trans afterShape.symm)
        (otherPainted.trans painted.symm)]
  · intro output x y count sameShape row columns
    exact composeRow_eq_loop sameShape sameLen row columns
  · intro p isZero
    rw [blended]
    apply LocalOverlay.blended_of_alpha_zero
    rw [List.getD_eq_getElem?_getD, isZero, Option.getD_some]
  · intro p luma within isFull isLuma
    have sized := length_picture within
    obtain ⟨bytes, supported, _⟩ := surface.packed.length
    rw [blended, LocalOverlay.blended, List.getD_eq_getElem?_getD, isLuma,
      List.getD_eq_getElem?_getD, isFull, Option.getD_some, Option.getD_some]
    apply blendPixel_full supported
    rw [sized, bytesPerPixel, supported, Option.getD_some]

def twoPixels : PixelSurface where
  width := 2
  height := 1
  format := .rgb565Le
  pixels := [1, 2, 3, 4]
  packed := ⟨by decide, by decide, by decide, 2, rfl, rfl⟩

/-- The plane of two pixels, with a dot on the second. -/
def dottedPlane : LocalOverlay where
  planes := ⟨[0, 0], [0, 255], rfl⟩
  transparent := false
  dirty := some ⟨1, 0, 1, 1⟩
  clear_of_transparent := by simp

theorem compositionsAgree_dotted :
    dottedPlane.Reached 2 1 ∧
      ∃ composed, CompositionsAgree twoPixels dottedPlane
        [⟨1, 0, 1, 1⟩, ⟨0, 0, 2, 1⟩] composed := by
  have drawn : (do
      let overlay ← LocalOverlay.newTransparent 2 1
      overlay.edit (.inkLine 2 (1, 0) (1, 0) 0 false)) = .ok dottedPlane := by
    decide +kernel
  obtain ⟨blank, made, edited⟩ := Res.bind_eq_ok.mp drawn
  have reached : dottedPlane.Reached 2 1 := .edited (.fresh made) edited
  refine ⟨reached, compositionsAgree_of_reached reached ?_⟩
  intro rect member
  rcases List.mem_cons.mp member with rfl | member
  · exact ⟨by decide, by decide, by decide, by decide⟩
  · rw [List.mem_singleton.mp member]
    exact ⟨by decide, by decide, by decide, by decide⟩

end RmDisplay.Core
