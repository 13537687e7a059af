import RmDisplay.Core.SurfacePicture

/-!
# Specifications of the surface operations

Each operation on regions that lie inside its surface returns, keeps the
shape, and paints those regions.
-/

namespace RmDisplay.Core

open Foundation Protocol Foundation.Picture

theorem validateRect_inside {width height : Nat} {rect : Rect}
    (inside : rect.Inside width height) :
    validateRect width height rect = .ok () := by
  obtain ⟨wide, high, right, bottom⟩ := inside
  exact if_neg (by omega)

theorem inside_of_validateRect {width height : Nat} {rect : Rect}
    (valid : validateRect width height rect = .ok ()) :
    rect.Inside width height := by
  unfold validateRect at valid
  split at valid
  · cases valid
  · rename_i fits
    exact ⟨by omega, by omega, by omega, by omega⟩

namespace PixelSurface

private theorem union_rows (rect : Rect) :
    {p : Place | ∃ y ∈ rowsOf rect, p ∈ rowRegion rect.x y rect.width} =
      region [rect] := by
  ext ⟨column, line⟩
  simp only [rowsOf, rowRegion, Set.mem_ofPred_eq, mem_region,
    covered_singleton, Rect.Covers, List.mem_range'_1]
  constructor
  · rintro ⟨y, rows, rfl, columns⟩
    exact ⟨columns, rows⟩
  · rintro ⟨columns, rows⟩
    exact ⟨line, rows, rfl, columns⟩

/-- A loop over the rows of a rectangle paints the rectangle.  Each row is
still untouched when its turn comes. -/
theorem rows_paint {step : PixelSurface → Nat → SurfaceRes PixelSurface}
    (rect : Rect) (source : Pixels) (start : PixelSurface)
    (turn : ∀ (y : Nat) (state : PixelSurface),
      rect.y ≤ y ∧ y < rect.y + rect.height → state.shape = start.shape →
      (∀ p ∈ rowRegion rect.x y rect.width,
        state.picture p = start.picture p) →
      ∃ next, step state y = .ok next ∧ next.shape = start.shape ∧
        next.picture =
          paint (rowRegion rect.x y rect.width) source state.picture) :
    ∃ final, (rowsOf rect).foldlM step start = .ok final ∧
      final.shape = start.shape ∧
      final.picture = paint (region [rect]) source start.picture := by
  rw [← union_rows rect]
  refine foldlM_paint picture (fun state => state.shape = start.shape)
    (fun y => rowRegion rect.x y rect.width) source (rowsOf rect) start rfl ?_
  intro done y rest state split sameShape painted
  have member : y ∈ rowsOf rect := by simp [split]
  rw [rowsOf, List.mem_range'_1] at member
  apply turn y state member sameShape
  intro p inRow
  rw [painted, paint_of_not_mem]
  rintro ⟨earlier, isDone, inEarlier⟩
  have noTwice : (rowsOf rect).Nodup := List.nodup_range'
  rw [split, List.nodup_append] at noTwice
  exact noTwice.2.2 earlier isDone y List.mem_cons_self
    (inEarlier.1.symm.trans inRow.1)

theorem regions_paint {step : PixelSurface → Rect → SurfaceRes PixelSurface}
    {rects : List Rect} {source : Pixels} (start : PixelSurface)
    (turn : ∀ rect ∈ rects, ∀ state : PixelSurface,
      state.shape = start.shape →
      ∃ next, step state rect = .ok next ∧ next.shape = state.shape ∧
        next.picture = paint (region [rect]) source state.picture) :
    ∃ final, rects.foldlM step start = .ok final ∧
      final.shape = start.shape ∧
      final.picture = paint (region rects) source start.picture := by
  have union : {p : Place | ∃ rect ∈ rects, p ∈ region [rect]} = region rects := by
    ext p
    simp [Covered]
  rw [← union]
  refine foldlM_paint picture (fun state => state.shape = start.shape)
    (fun rect => region [rect]) source rects start rfl ?_
  intro done rect rest state split sameShape _
  obtain ⟨next, stepped, nextShape, painted⟩ :=
    turn rect (by simp [split]) state sameShape
  exact ⟨next, stepped, nextShape.trans sameShape, painted⟩

theorem copyRow_spec {source output : PixelSurface} (x y count : Nat)
    (sameShape : output.shape = source.shape) (row : y < output.height)
    (columns : x + count ≤ output.width) :
    ∃ part next,
      source.loadPixels (y * output.width + x) count = some part ∧
      output.storePixels (y * output.width + x) part = some next ∧
      next.shape = output.shape ∧
      next.picture =
        paint (rowRegion x y count) source.picture output.picture := by
  have sameBytes := bytesPerPixel_congr sameShape
  obtain ⟨⟨sameWidth, sameHeight⟩, _⟩ := shape_eq_iff.mp sameShape
  obtain ⟨part, loaded, partLength, shown⟩ :=
    loadPixels_row source x y count (sameHeight ▸ row) (sameWidth ▸ columns)
  rw [← sameBytes] at partLength shown
  obtain ⟨next, stored, nextShape, painted⟩ :=
    storePixels_row output x y count part source.picture row columns partLength
      shown
  exact ⟨part, next, by rw [sameWidth, loaded], stored, nextShape, painted⟩

theorem copyRegion_spec {source output : PixelSurface} {rect : Rect}
    (sameShape : output.shape = source.shape)
    (inside : rect.Inside output.width output.height) :
    ∃ next, copyRegion source output rect = .ok next ∧
      next.shape = output.shape ∧
      next.picture = paint (region [rect]) source.picture output.picture := by
  rw [copyRegion, validateRect_inside inside]
  refine rows_paint rect _ output ?_
  intro y state rows stateShape _
  obtain ⟨⟨sameWidth, sameHeight⟩, _⟩ := shape_eq_iff.mp stateShape
  have bottom := inside.bottom
  have right := inside.right
  obtain ⟨part, next, loaded, stored, nextShape, painted⟩ :=
    copyRow_spec rect.x y rect.width (stateShape.trans sameShape) (by omega)
      (by omega)
  exact ⟨next, by simp [loaded, stored], nextShape.trans stateShape, painted⟩

theorem copyRegionsFrom_spec {self source : PixelSurface} (rects : List Rect)
    (sameShape : self.shape = source.shape)
    (inside : ∀ rect ∈ rects, rect.Inside self.width self.height) :
    ∃ next, self.copyRegionsFrom source rects = .ok next ∧
      next.shape = self.shape ∧
      next.picture = paint (region rects) source.picture self.picture := by
  rw [copyRegionsFrom, if_pos (sameShape_iff.mpr sameShape.symm)]
  refine regions_paint self ?_
  intro rect member state stateShape
  obtain ⟨⟨sameWidth, sameHeight⟩, _⟩ := shape_eq_iff.mp stateShape
  exact copyRegion_spec (stateShape.trans sameShape)
    (by rw [sameWidth, sameHeight]; exact inside rect member)

/-- A decoded region lies on the surface and has a packed pixel for each of
its places. -/
structure Fits (surface : PixelSurface) (region : DecodedRegion) : Prop where
  inside : region.rect.Inside surface.width surface.height
  length : region.pixels.length =
    region.rect.width * region.rect.height * surface.bytesPerPixel

theorem Fits.congr {left right : PixelSurface} {region : DecodedRegion}
    (sameShape : left.shape = right.shape) (fits : right.Fits region) :
    left.Fits region := by
  obtain ⟨⟨sameWidth, sameHeight⟩, _⟩ := shape_eq_iff.mp sameShape
  exact ⟨by rw [sameWidth, sameHeight]; exact fits.inside,
    by rw [bytesPerPixel_congr sameShape]; exact fits.length⟩

/-- The pixels of a decoded region, where it lies on its surface. -/
def regionPixels (bytes : Nat) (region : DecodedRegion) : Pixels := fun p =>
  Buffer.chunk bytes region.pixels
    ((p.2 - region.rect.y) * region.rect.width + (p.1 - region.rect.x))

/-- A picture with decoded regions painted one after the other. -/
noncomputable def paintRegions (bytes : Nat) (regions : List DecodedRegion)
    (picture : Pixels) : Pixels :=
  regions.foldl (fun picture next =>
    paint (region [next.rect]) (regionPixels bytes next) picture) picture

theorem applyRegion_spec {self : PixelSurface} {next : DecodedRegion}
    (fits : self.Fits next) :
    ∃ after, self.applyRegion next = .ok after ∧ after.shape = self.shape ∧
      after.picture = paint (region [next.rect])
        (regionPixels self.bytesPerPixel next) self.picture := by
  have right := fits.inside.right
  have bottom := fits.inside.bottom
  have loop : self.applyRegion next =
      (rowsOf next.rect).foldlM (fun surface y => do
        let source ← Res.orPanic (Buffer.slice next.pixels
          ((y - next.rect.y) * (next.rect.width * self.bytesPerPixel))
          (next.rect.width * self.bytesPerPixel))
        Res.orPanic (surface.storePixels (y * self.width + next.rect.x) source))
        self := by
    rw [rowsOf, List.range'_eq_map_range, List.foldlM_map, applyRegion]
    simp only [Nat.add_sub_cancel_left]
  rw [loop]
  refine rows_paint next.rect _ self ?_
  intro y state rows stateShape _
  obtain ⟨⟨sameWidth, sameHeight⟩, _⟩ := shape_eq_iff.mp stateShape
  have sameBytes := bytesPerPixel_congr stateShape
  have read := Buffer.slice_eq next.pixels
    ((y - next.rect.y) * next.rect.width * self.bytesPerPixel)
    (next.rect.width * self.bytesPerPixel) (by
      rw [fits.length, ← Nat.add_mul]
      apply Nat.mul_le_mul_right
      have step := Nat.mul_le_mul_right next.rect.width
        (show y - next.rect.y + 1 ≤ next.rect.height by omega)
      rw [Nat.add_one_mul, Nat.mul_comm next.rect.height] at step
      exact step)
  have partLength := Buffer.length_of_slice read
  obtain ⟨after, stored, afterShape, painted⟩ :=
    storePixels_row state next.rect.x y next.rect.width _
      (regionPixels self.bytesPerPixel next) (by omega) (by omega)
      (by rw [partLength, sameBytes]) (by
        intro offset inRow
        rw [sameBytes, Buffer.chunk_of_slice read inRow, regionPixels]
        congr 1
        simp)
  refine ⟨after, ?_, afterShape.trans stateShape, painted⟩
  rw [← Nat.mul_assoc, read, Res.orPanic_some, Res.ok_bind, ← sameWidth, stored,
    Res.orPanic_some]

private theorem foldlM_applyRegion (self : PixelSurface)
    {regions : List DecodedRegion}
    (fits : ∀ next ∈ regions, self.Fits next) :
    ∃ after, regions.foldlM applyRegion self = .ok after ∧
      after.shape = self.shape ∧
      after.picture =
        paintRegions self.bytesPerPixel regions self.picture := by
  induction regions generalizing self with
  | nil => exact ⟨self, rfl, rfl, rfl⟩
  | cons next regions induction =>
      obtain ⟨middle, applied, middleShape, painted⟩ :=
        applyRegion_spec (fits next List.mem_cons_self)
      obtain ⟨after, finished, afterShape, paintedRest⟩ :=
        induction middle (fun other member =>
          (fits other (List.mem_cons_of_mem _ member)).congr middleShape)
      refine ⟨after, by simp [List.foldlM_cons, applied, finished],
        afterShape.trans middleShape, ?_⟩
      rw [paintedRest, painted, bytesPerPixel_congr middleShape]
      rfl

theorem validateRegions_eq_ok {width height bytes : Nat}
    {regions : List DecodedRegion} :
    validateRegions width height bytes regions = .ok () ↔
      (∀ next ∈ regions, next.rect.Inside width height ∧
        (Bounded.checkedMul u64Max next.rect.width next.rect.height).bind
          (Bounded.checkedMul u64Max · bytes) = some next.pixels.length) ∧
      anyOverlap regions = false := by
  rw [validateRegions, Res.bind_eq_ok]
  constructor
  · rintro ⟨_, eachValid, apart⟩
    refine ⟨?_, by
      split at apart
      · cases apart
      · rename_i disjoint
        simpa using disjoint⟩
    intro next member
    have valid := Res.forM_eq_ok.mp eachValid next member
    rw [Res.bind_eq_ok] at valid
    obtain ⟨_, validRect, sized⟩ := valid
    refine ⟨inside_of_validateRect validRect, ?_⟩
    split at sized
    · cases sized
    · rename_i expected computed
      split at sized
      · cases sized
      · rename_i sameLength
        rw [computed, not_not.mp sameLength]
  · rintro ⟨eachValid, apart⟩
    refine ⟨(), Res.forM_eq_ok.mpr ?_, by simp [apart]⟩
    intro next member
    obtain ⟨inside, sized⟩ := eachValid next member
    rw [validateRect_inside inside, Res.ok_bind, sized]
    simp

/-- Regions are applied to a surface exactly when they pass validation, and
then every one of them is painted. -/
theorem applyRegionsAtomic_spec {self : PixelSurface}
    {regions : List DecodedRegion}
    (valid : validateRegions self.width self.height self.bytesPerPixel regions =
      .ok ()) :
    ∃ after, self.applyRegionsAtomic regions = .ok after ∧
      after.shape = self.shape ∧
      after.picture =
        paintRegions self.bytesPerPixel regions self.picture := by
  rw [applyRegionsAtomic, valid, Res.ok_bind]
  apply foldlM_applyRegion self
  intro next member
  obtain ⟨inside, sized⟩ := (validateRegions_eq_ok.mp valid).1 next member
  obtain ⟨area, areaComputed, total⟩ := Option.bind_eq_some_iff.mp sized
  rw [Bounded.checkedMul_eq_some] at areaComputed total
  exact ⟨inside, by rw [total.1, areaComputed.1]⟩

/-- A surface that accepted regions had validated them. -/
theorem valid_of_applyRegionsAtomic {self after : PixelSurface}
    {regions : List DecodedRegion}
    (applied : self.applyRegionsAtomic regions = .ok after) :
    validateRegions self.width self.height self.bytesPerPixel regions =
      .ok () := by
  rw [applyRegionsAtomic, Res.bind_eq_ok] at applied
  obtain ⟨_, valid, _⟩ := applied
  exact valid

/-- Outside the painted rectangles the picture is unchanged. -/
theorem paintRegions_of_not_covered {bytes : Nat}
    {regions : List DecodedRegion} {picture : Pixels} {p : Place}
    (outside : p ∉ region (regions.map DecodedRegion.rect)) :
    paintRegions bytes regions picture p = picture p := by
  induction regions generalizing picture with
  | nil => rfl
  | cons next regions induction =>
      rw [List.map_cons, ← List.singleton_append, region_append] at outside
      rw [paintRegions, List.foldl_cons]
      refine (induction fun isIn => outside (.inr isIn)).trans ?_
      exact paint_of_not_mem fun isIn => outside (.inl isIn)

private theorem getElem?_of_lt {plane : Bytes} {index : Nat}
    (inside : index < plane.length) :
    plane[index]? = some (plane.getD index 0) := by
  rw [List.getD_eq_getElem?_getD, List.getElem?_eq_getElem inside,
    Option.getD_some]

theorem blendInto_spec {overlay : LocalOverlay} (source output : PixelSurface)
    (x y : Nat) (sameShape : output.shape = source.shape)
    (sameLen : overlay.len = source.width * source.height)
    (column : x < source.width) (row : y < source.height) :
    ∃ next, blendInto overlay source output (y * source.width + x) = .ok next ∧
      next.shape = output.shape ∧
      next.picture = paint (rowRegion x y 1)
        (overlay.blended source.width source.format source.picture)
        output.picture := by
  have sameBytes := bytesPerPixel_congr sameShape
  obtain ⟨⟨sameWidth, sameHeight⟩, _⟩ := shape_eq_iff.mp sameShape
  have inPlane : y * source.width + x < overlay.len := by
    rw [sameLen]
    exact Grid.rowMajor_lt column row
  obtain ⟨part, loaded, partLength, shown⟩ :=
    loadPixels_row source x y 1 row column
  rw [Nat.one_mul] at partLength
  have whole : Buffer.chunk source.bytesPerPixel part 0 = part := by
    simp [Buffer.chunk, ← partLength]
  have pixel := shown 0 Nat.one_pos
  rw [whole, Nat.add_zero] at pixel
  have blended (index : Nat) := length_blendPixel source.format part
    (overlay.luma.getD index 0) (overlay.alpha.getD index 0)
  obtain ⟨next, stored, nextShape, painted⟩ :=
    storePixels_row output x y 1
      (blendPixel source.format part
        (overlay.luma.getD (y * source.width + x) 0)
        (overlay.alpha.getD (y * source.width + x) 0))
      (overlay.blended source.width source.format source.picture)
      (by omega) (by omega)
      (by rw [blended, partLength, sameBytes, Nat.one_mul])
      (by
        intro offset first
        obtain rfl : offset = 0 := by omega
        have sameSize : (blendPixel source.format part
            (overlay.luma.getD (y * source.width + x) 0)
            (overlay.alpha.getD (y * source.width + x) 0)).length =
              output.bytesPerPixel := by
          rw [blended, partLength, sameBytes]
        rw [Buffer.chunk, Nat.zero_mul, List.drop_zero, ← sameSize,
          List.take_length, LocalOverlay.blended, Nat.add_zero, pixel])
  refine ⟨next, ?_, nextShape, painted⟩
  rw [sameWidth] at stored
  rw [blendInto, getElem?_of_lt inPlane,
    getElem?_of_lt (by rw [overlay.length_alpha]; exact inPlane), loaded]
  simp only [Res.orPanic_some, Res.ok_bind, stored]

private theorem union_pixels (x y count : Nat) :
    {p : Place | ∃ column ∈ List.range' x count, p ∈ rowRegion column y 1} =
      rowRegion x y count := by
  ext ⟨column, line⟩
  simp only [rowRegion, Set.mem_ofPred_eq, List.mem_range'_1]
  constructor
  · rintro ⟨other, columns, rfl, lower, upper⟩
    exact ⟨rfl, by omega, by omega⟩
  · rintro ⟨rfl, columns⟩
    exact ⟨column, columns, rfl, by omega, by omega⟩

private theorem pixels_paint
    {step : PixelSurface → Nat → SurfaceRes PixelSurface} {x y count : Nat}
    {source : Pixels} (start : PixelSurface)
    (turn : ∀ (column : Nat) (state : PixelSurface),
      x ≤ column ∧ column < x + count → state.shape = start.shape →
      state.picture (column, y) = start.picture (column, y) →
      ∃ next, step state column = .ok next ∧ next.shape = start.shape ∧
        next.picture = paint (rowRegion column y 1) source state.picture) :
    ∃ final, (List.range' x count).foldlM step start = .ok final ∧
      final.shape = start.shape ∧
      final.picture = paint (rowRegion x y count) source start.picture := by
  rw [← union_pixels x y count]
  refine foldlM_paint picture (fun state => state.shape = start.shape)
    (fun column => rowRegion column y 1) source (List.range' x count) start
    rfl ?_
  intro done column rest state split sameShape painted
  have member : column ∈ List.range' x count := by simp [split]
  rw [List.mem_range'_1] at member
  apply turn column state member sameShape
  rw [painted, paint_of_not_mem]
  rintro ⟨earlier, isDone, _, lower, upper⟩
  have noTwice : (List.range' x count).Nodup := List.nodup_range'
  rw [split, List.nodup_append] at noTwice
  exact noTwice.2.2 earlier isDone column List.mem_cons_self
    (by simp only at lower upper; omega)

theorem blendRow_spec {overlay : LocalOverlay} {source output : PixelSurface}
    {x y count : Nat} (sameShape : output.shape = source.shape)
    (sameLen : overlay.len = source.width * source.height)
    (row : y < source.height) (columns : x + count ≤ source.width) :
    ∃ next, (List.range' (y * source.width + x) count).foldlM
        (blendInto overlay source) output = .ok next ∧
      next.shape = output.shape ∧
      next.picture = paint (rowRegion x y count)
        (overlay.blended source.width source.format source.picture)
        output.picture := by
  rw [← List.map_add_range', List.foldlM_map]
  refine pixels_paint output ?_
  intro column state inRow stateShape _
  obtain ⟨next, blended, nextShape, painted⟩ :=
    blendInto_spec source state column y (stateShape.trans sameShape) sameLen
      (by omega) row
  exact ⟨next, blended, nextShape.trans stateShape, painted⟩

theorem composeRow_spec {overlay : LocalOverlay} {source output : PixelSurface}
    {x y count : Nat} (sameShape : output.shape = source.shape)
    (sameLen : overlay.len = source.width * source.height)
    (row : y < source.height) (columns : x + count ≤ source.width) :
    ∃ next,
      composeRow overlay source output (y * source.width + x) count = .ok next ∧
      next.shape = output.shape ∧
      next.picture = paint (rowRegion x y count)
        (overlay.blended source.width source.format source.picture)
        output.picture := by
  have inPlane : y * source.width + x + count ≤ overlay.alpha.length := by
    rw [overlay.length_alpha, sameLen]
    have rows := Nat.mul_le_mul_right source.width
      (show y + 1 ≤ source.height from row)
    rw [Nat.add_one_mul, Nat.mul_comm source.height] at rows
    omega
  have read := Buffer.slice_eq _ _ _ inPlane
  rw [composeRow, read, Res.orPanic_some, Res.ok_bind]
  split
  · rename_i uncovered
    obtain ⟨⟨sameWidth, sameHeight⟩, _⟩ := shape_eq_iff.mp sameShape
    obtain ⟨part, next, loaded, stored, nextShape, painted⟩ :=
      copyRow_spec x y count sameShape (by omega) (by omega)
    rw [sameWidth] at loaded stored
    refine ⟨next, by simp [loaded, stored], nextShape, ?_⟩
    rw [painted]
    funext p
    by_cases inRow : p ∈ rowRegion x y count
    · rw [paint_of_mem inRow, paint_of_mem inRow,
        LocalOverlay.blended_of_alpha_zero]
      obtain ⟨sameRow, lower, upper⟩ := inRow
      have alphaAt := Buffer.getElem?_of_slice read (p.1 - x)
      have position : y * source.width + x + (p.1 - x) =
          p.2 * source.width + p.1 := by
        rw [sameRow]
        omega
      rw [if_pos (by omega), position] at alphaAt
      rw [List.getD_eq_getElem?_getD, ← alphaAt]
      cases found : ((overlay.alpha.drop (y * source.width + x)).take
          count)[p.1 - x]? with
      | none => rfl
      | some value =>
          simpa using List.all_eq_true.mp uncovered value
            (List.mem_of_getElem? found)
    · rw [paint_of_not_mem inRow, paint_of_not_mem inRow]
  · exact blendRow_spec sameShape sameLen row columns

theorem composeRegion_spec {overlay : LocalOverlay}
    {source output : PixelSurface} {rect : Rect}
    (sameShape : output.shape = source.shape)
    (sameLen : overlay.len = source.width * source.height)
    (inside : rect.Inside source.width source.height) :
    ∃ next, composeRegion overlay source output rect = .ok next ∧
      next.shape = output.shape ∧
      next.picture = paint (region [rect])
        (overlay.blended source.width source.format source.picture)
        output.picture := by
  rw [composeRegion, validateRect_inside inside]
  refine rows_paint rect _ output ?_
  intro y state rows stateShape _
  have bottom := inside.bottom
  obtain ⟨next, composed, nextShape, painted⟩ :=
    composeRow_spec (stateShape.trans sameShape) sameLen (y := y)
      (by omega) inside.right
  exact ⟨next, composed, nextShape.trans stateShape, painted⟩

/-- Composing regions paints the blended source there. -/
theorem composeRegionsInto_spec (self : PixelSurface) {output : PixelSurface}
    (overlay : LocalOverlay) (rects : List Rect)
    (sameShape : output.shape = self.shape)
    (sameLen : overlay.len = self.width * self.height)
    (inside : ∀ rect ∈ rects, rect.Inside self.width self.height) :
    ∃ next, self.composeRegionsInto overlay output rects = .ok next ∧
      next.shape = output.shape ∧
      next.picture = paint (region rects)
        (overlay.blended self.width self.format self.picture) output.picture := by
  rw [composeRegionsInto, if_pos (sameShape_iff.mpr sameShape),
    self.pixelLen_eq, Res.ok_bind, if_neg (not_not.mpr sameLen)]
  split
  · rename_i isClear
    obtain ⟨⟨sameWidth, sameHeight⟩, _⟩ := shape_eq_iff.mp sameShape
    rw [LocalOverlay.blended_of_transparent isClear]
    exact copyRegionsFrom_spec rects sameShape
      (by rw [sameWidth, sameHeight]; exact inside)
  · refine regions_paint output ?_
    intro rect member state stateShape
    exact composeRegion_spec (stateShape.trans sameShape) sameLen
      (inside rect member)

private theorem foldlM_range_rows
    {step : PixelSurface → Nat → SurfaceRes PixelSurface} (width height : Nat)
    (start : PixelSurface) :
    (List.range (width * height)).foldlM step start =
      (List.range height).foldlM (fun state y =>
        (List.range width).foldlM (fun state x => step state (y * width + x))
          state) start := by
  induction height with
  | zero => rfl
  | succ height induction =>
      rw [Nat.mul_succ, List.range_add, List.foldlM_append, induction,
        List.range_succ, List.foldlM_append]
      simp only [List.foldlM_map, List.foldlM_cons, List.foldlM_nil, bind_pure,
        Nat.mul_comm width height]

private theorem composeWholeRow {self state : PixelSurface}
    {overlay : LocalOverlay} {y : Nat}
    (sameLen : overlay.len = self.width * self.height) (row : y < self.height)
    (sameShape : state.shape = self.shape) :
    ∃ next, (List.range self.width).foldlM (fun state x =>
        blendInto overlay self state (y * self.width + x)) state = .ok next ∧
      next.shape = self.shape ∧
      next.picture = paint (rowRegion 0 y self.width)
        (overlay.blended self.width self.format self.picture) state.picture := by
  rw [List.range_eq_range', ← sameShape]
  refine pixels_paint state ?_
  intro column between columns betweenShape _
  obtain ⟨next, blended, nextShape, painted⟩ :=
    blendInto_spec self between column y (betweenShape.trans sameShape) sameLen
      (by omega) row
  exact ⟨next, blended, nextShape.trans betweenShape, painted⟩

/-- Composing the whole surface blends every pixel. -/
theorem compose_spec (self : PixelSurface) (overlay : LocalOverlay)
    (sameLen : overlay.len = self.width * self.height) :
    ∃ next, self.compose overlay = .ok next ∧ next.shape = self.shape ∧
      next.picture = overlay.blended self.width self.format self.picture := by
  rw [compose, self.pixelLen_eq, Res.ok_bind, if_neg (not_not.mpr sameLen)]
  split
  · rename_i isClear
    exact ⟨self, rfl, rfl, (LocalOverlay.blended_of_transparent isClear _ _ _).symm⟩
  · rw [foldlM_range_rows]
    obtain ⟨next, composed, nextShape, painted⟩ :=
      rows_paint ⟨0, 0, self.width, self.height⟩
        (overlay.blended self.width self.format self.picture) self
        (fun y state rows stateShape _ =>
          composeWholeRow sameLen (y := y) (by simpa using rows.2) stateShape)
    refine ⟨next, ?_, nextShape, ?_⟩
    · rw [rowsOf, ← List.range_eq_range'] at composed
      exact composed
    · rw [painted]
      apply paint_eq_source
      intro p differ
      by_contra outside
      apply differ
      rw [mem_region, covered_singleton, Rect.Covers] at outside
      simp only [Nat.zero_le, Nat.zero_add, true_and] at outside
      rw [LocalOverlay.blended, picture_outside outside, blendPixel_nil]

theorem blendRegion_spec (self : PixelSurface) (overlay : LocalOverlay)
    (rect : Rect) (sameLen : overlay.len = self.width * self.height)
    (inside : rect.Inside self.width self.height) :
    ∃ next, blendRegion overlay self rect = .ok next ∧
      next.shape = self.shape ∧
      next.picture = paint (region [rect])
        (overlay.blended self.width self.format self.picture) self.picture := by
  rw [blendRegion, validateRect_inside inside]
  refine rows_paint rect _ self ?_
  intro y state rows stateShape untouched
  have right := inside.right
  have bottom := inside.bottom
  rw [← stateShape]
  refine pixels_paint state ?_
  intro column between columns betweenShape unchanged
  have toSelf := betweenShape.trans stateShape
  obtain ⟨⟨sameWidth, sameHeight⟩, sameFormat⟩ := shape_eq_iff.mp toSelf
  have original : between.picture (column, y) = self.picture (column, y) :=
    unchanged.trans (untouched (column, y) ⟨rfl, columns.1, columns.2⟩)
  have only : ∀ p ∈ rowRegion column y 1, p = (column, y) := by
    rintro ⟨otherColumn, line⟩ ⟨sameRow, lower, upper⟩
    simp only at sameRow lower upper
    rw [Prod.mk.injEq]
    exact ⟨by omega, sameRow⟩
  have inPlane : y * between.width + column < overlay.alpha.length := by
    rw [overlay.length_alpha, sameLen, sameWidth]
    exact Grid.rowMajor_lt (by omega) (by omega)
  simp only [getElem?_of_lt inPlane, Res.orPanic_some, Res.ok_bind]
  split
  · rename_i uncovered
    refine ⟨between, rfl, betweenShape, ?_⟩
    funext p
    by_cases here : p ∈ rowRegion column y 1
    · rw [paint_of_mem here, only p here, original]
      rw [sameWidth] at uncovered
      exact (LocalOverlay.blended_of_alpha_zero uncovered).symm
    · rw [paint_of_not_mem here]
  · obtain ⟨next, blended, nextShape, painted⟩ :=
      blendInto_spec between between column y rfl
        (by rw [sameLen, sameWidth, sameHeight]) (by omega) (by omega)
    refine ⟨next, blended, nextShape.trans betweenShape, ?_⟩
    rw [painted]
    funext p
    by_cases here : p ∈ rowRegion column y 1
    · rw [paint_of_mem here, paint_of_mem here, only p here, sameWidth,
        sameFormat]
      exact LocalOverlay.blended_congr original
    · rw [paint_of_not_mem here, paint_of_not_mem here]

theorem blendRegions_spec (self : PixelSurface) (overlay : LocalOverlay)
    (rect : Rect) (sameLen : overlay.len = self.width * self.height)
    (inside : rect.Inside self.width self.height) :
    ∃ next, self.blendRegions overlay [rect] = .ok next ∧
      next.shape = self.shape ∧
      next.picture = paint (region [rect])
        (overlay.blended self.width self.format self.picture) self.picture := by
  rw [blendRegions]
  split
  · rename_i isClear
    exact ⟨self, rfl, rfl, by
      rw [LocalOverlay.blended_of_transparent isClear, paint_self]⟩
  · rw [if_neg (not_not.mpr sameLen)]
    obtain ⟨next, blended, rest⟩ := blendRegion_spec self overlay rect sameLen inside
    exact ⟨next, by simp [List.foldlM_cons, blended], rest⟩

end PixelSurface

end RmDisplay.Core
