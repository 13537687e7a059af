import RmDisplay.Foundation.Grid
import RmDisplay.Receiver.PixelColours

/-!
# What a framebuffer holds afterwards

Writing damage paints the bytes of the damaged pixels with the converted pixels
of the frame, and no others.
-/

namespace RmDisplay.Receiver

open Foundation Protocol Native

/-- Two buffers that go together. -/
structure Layout (buffer : Bytes) (stride width height : Nat)
    (format : NativePixelFormat) (sourceFormat : PixelFormat) (source : Bytes)
    (sourceBpp : Nat) : Prop where
  sourceBytes : sourceBytes sourceFormat = .ok sourceBpp
  sourceLength : source.length = width * height * sourceBpp
  wide : width * format.bytesPerPixel ≤ stride
  room : stride * height ≤ buffer.length

theorem layout_of_checked {buffer source : Bytes} {stride width height : Nat}
    {format : NativePixelFormat} {sourceFormat : PixelFormat}
    (slice : source.length ≤ isizeMax)
    (checked : checkBuffers buffer stride width height format sourceFormat
      source = .ok ()) :
    ∃ sourceBpp, Layout buffer stride width height format sourceFormat source
      sourceBpp := by
  unfold checkBuffers at checked
  split at checked
  · rename_i pixelCount counted
    obtain ⟨sourceBpp, isSource, checked⟩ := Res.bind_eq_ok.mp checked
    split at checked
    · cases checked
    · rename_i sameLength
      split at checked
      · rename_i minimumStride isMinimum
        split at checked
        · cases checked
        · rename_i wide
          split at checked
          · rename_i needed isNeeded
            split at checked
            · cases checked
            · rename_i room
              obtain ⟨rfl, _⟩ := Bounded.checkedMul_eq_some.mp counted
              obtain ⟨rfl, _⟩ := Bounded.checkedMul_eq_some.mp isMinimum
              obtain ⟨rfl, _⟩ := Bounded.checkedMul_eq_some.mp isNeeded
              refine ⟨sourceBpp, isSource, ?_, Nat.le_of_not_lt wide,
                Nat.le_of_not_lt room⟩
              have sized : source.length =
                  min (width * height * sourceBpp) u64Max :=
                Decidable.not_not.mp sameLength
              have short : isizeMax < u64Max := by decide
              omega
          · cases checked
      · cases checked
  · cases checked

section

variable {buffer source : Bytes} {stride width height sourceBpp left right x y
    offset : Nat} {format : NativePixelFormat} {sourceFormat : PixelFormat}

/-- The byte a framebuffer shows the frame with. -/
def image (stride width : Nat) (format : NativePixelFormat)
    (sourceFormat : PixelFormat) (source : Bytes) (sourceBpp index : Nat) :
    Option UInt8 :=
  let x := index % stride / format.bytesPerPixel
  (nativePixel sourceFormat format
    (Buffer.chunk sourceBpp source (index / stride * width + x)))[
      index % stride % format.bytesPerPixel]?

/-- The bytes of the pixels `left .. right` of a row. -/
def rowBytes (stride : Nat) (format : NativePixelFormat) (left right y : Nat) :
    Set Nat :=
  {index | y * stride + left * format.bytesPerPixel ≤ index ∧
    index < y * stride + right * format.bytesPerPixel}

theorem mem_rowBytes {index : Nat} (ordered : left ≤ right) :
    index ∈ rowBytes stride format left right y ↔ ∃ column offset,
      column < right - left ∧ offset < format.bytesPerPixel ∧
      index = y * stride + left * format.bytesPerPixel +
        (column * format.bytesPerPixel + offset) := by
  have some_ := format.bytesPerPixel_pos
  constructor
  · rintro ⟨lower, upper⟩
    obtain ⟨inside, rfl⟩ := Nat.exists_eq_add_of_le lower
    refine ⟨inside / format.bytesPerPixel, inside % format.bytesPerPixel, ?_,
      Nat.mod_lt _ some_, ?_⟩
    · rw [Nat.div_lt_iff_lt_mul some_, Nat.sub_mul]
      omega
    · rw [Nat.div_add_mod']
  · rintro ⟨column, offset, inRow, inPixel, rfl⟩
    refine ⟨Nat.le_add_right _ _, ?_⟩
    have next := Nat.mul_le_mul_right format.bytesPerPixel
      (show column + 1 + left ≤ right by omega)
    rw [Nat.add_mul, Nat.add_one_mul] at next
    omega

theorem image_pixel (wide : width * format.bytesPerPixel ≤ stride)
    (inRow : x < width) (inPixel : offset < format.bytesPerPixel) :
    image stride width format sourceFormat source sourceBpp
      (y * stride + (x * format.bytesPerPixel + offset)) =
      (nativePixel sourceFormat format
        (Buffer.chunk sourceBpp source (y * width + x)))[offset]? := by
  have next := Nat.mul_le_mul_right format.bytesPerPixel
    (show x + 1 ≤ width from inRow)
  rw [Nat.add_one_mul] at next
  have inStride : x * format.bytesPerPixel + offset < stride := by omega
  rw [image, Grid.rowMajor_div inStride, Grid.rowMajor_mod inStride,
    Grid.rowMajor_div inPixel, Grid.rowMajor_mod inPixel]

/-- Bytes that are the converted pixels of a row paint these pixels. -/
theorem overwrite_paints {pixels : Bytes}
    (layout : Layout buffer stride width height format sourceFormat source
      sourceBpp)
    (ordered : left ≤ right) (inRow : right ≤ width) (inColumn : y < height)
    (sized : pixels.length = (right - left) * format.bytesPerPixel)
    (shows : ∀ column < right - left, ∀ offset < format.bytesPerPixel,
      pixels[column * format.bytesPerPixel + offset]? =
        (nativePixel sourceFormat format
          (Buffer.chunk sourceBpp source
            (y * width + (left + column))))[offset]?) :
    ∃ after,
      Buffer.overwrite buffer (y * stride + left * format.bytesPerPixel)
        pixels = some after ∧ after.length = buffer.length ∧
      (after[·]?) = Picture.paint (rowBytes stride format left right y)
        (image stride width format sourceFormat source sourceBpp)
        (buffer[·]?) := by
  have widths := Nat.mul_le_mul_right format.bytesPerPixel inRow
  have lefts := Nat.mul_le_mul_right format.bytesPerPixel ordered
  have rows := Nat.mul_le_mul_right stride (show y + 1 ≤ height from inColumn)
  rw [Nat.add_one_mul, Nat.mul_comm height] at rows
  have strideWide := layout.wide
  have room := layout.room
  have written := Buffer.overwrite_fits buffer pixels
    (y * stride + left * format.bytesPerPixel) (by
      rw [sized, Nat.sub_mul]
      omega)
  refine ⟨_, written, Buffer.length_of_overwrite written, ?_⟩
  funext index
  rw [Buffer.getElem?_of_overwrite written, sized]
  by_cases inside : index ∈ rowBytes stride format left right y
  · obtain ⟨column, offset, inPart, inPixel, same⟩ :=
      (mem_rowBytes ordered).mp inside
    rw [Picture.paint_of_mem inside, if_pos (by
      rw [Nat.sub_mul]
      obtain ⟨lower, upper⟩ := inside
      omega)]
    have atPixel : index = y * stride +
        ((left + column) * format.bytesPerPixel + offset) := by
      rw [same, Nat.add_mul]
      omega
    have relative : index - (y * stride + left * format.bytesPerPixel) =
        column * format.bytesPerPixel + offset := by
      omega
    rw [relative, shows column inPart offset inPixel, atPixel,
      image_pixel strideWide (by omega) inPixel]
  · rw [Picture.paint_of_not_mem inside, if_neg]
    rintro ⟨lower, upper⟩
    rw [Nat.sub_mul] at upper
    exact inside ⟨lower, by omega⟩

/-- A loop over inputs that are converted to the pixels of a row paints these
pixels. -/
theorem writeChunks_paints {β : Type} {inputs : List β} (convert : β → Bytes)
    (layout : Layout buffer stride width height format sourceFormat source
      sourceBpp)
    (ordered : left ≤ right) (inRow : right ≤ width) (inColumn : y < height)
    (count : inputs.length = right - left)
    (sized : ∀ input ∈ inputs, (convert input).length = format.bytesPerPixel)
    (shows : ∀ column < right - left, ∃ input, inputs[column]? = some input ∧
      convert input = nativePixel sourceFormat format
        (Buffer.chunk sourceBpp source (y * width + (left + column)))) :
    ∃ native after,
      Buffer.slice buffer (y * stride + left * format.bytesPerPixel)
        (right * format.bytesPerPixel - left * format.bytesPerPixel) =
          some native ∧
      Buffer.overwrite buffer (y * stride + left * format.bytesPerPixel)
        (Buffer.writeChunks format.bytesPerPixel convert inputs native) =
          some after ∧ after.length = buffer.length ∧
      (after[·]?) = Picture.paint (rowBytes stride format left right y)
        (image stride width format sourceFormat source sourceBpp)
        (buffer[·]?) := by
  have widths := Nat.mul_le_mul_right format.bytesPerPixel inRow
  have lefts := Nat.mul_le_mul_right format.bytesPerPixel ordered
  have rows := Nat.mul_le_mul_right stride (show y + 1 ≤ height from inColumn)
  rw [Nat.add_one_mul, Nat.mul_comm height] at rows
  have strideWide := layout.wide
  have room := layout.room
  have read := Buffer.slice_eq buffer
    (y * stride + left * format.bytesPerPixel)
    (right * format.bytesPerPixel - left * format.bytesPerPixel) (by omega)
  have length := Buffer.length_of_slice read
  have fits := length.trans (by rw [count, Nat.sub_mul] :
    right * format.bytesPerPixel - left * format.bytesPerPixel =
      inputs.length * format.bytesPerPixel)
  have written := @Buffer.writeChunks_eq _ _ _ convert inputs _ fits
  obtain ⟨after, overwritten, sameLength, paints⟩ :=
    overwrite_paints layout ordered inRow inColumn
      (by rw [Buffer.length_flatMap sized, count]) (by
        intro column inPart offset inPixel
        obtain ⟨input, found, converts⟩ := shows column inPart
        rw [Buffer.getElem?_flatMap sized inPixel, found, Option.bind_some,
          converts])
  exact ⟨_, after, read, by rw [written]; exact overwritten, sameLength, paints⟩

theorem slice_gray
    (layout : Layout buffer stride width height format sourceFormat source 1)
    (ordered : left ≤ right) (inRow : right ≤ width) (inColumn : y < height) :
    ∃ gray, Buffer.slice source (y * width + left) (right - left) =
        some gray ∧ gray.length = right - left ∧
      ∀ column < right - left, ∃ luma, gray[column]? = some luma ∧
        Buffer.chunk 1 source (y * width + (left + column)) = [luma] := by
  have rows := Nat.mul_le_mul_right width (show y + 1 ≤ height from inColumn)
  rw [Nat.add_one_mul, Nat.mul_comm height] at rows
  have sourceLength := layout.sourceLength
  rw [Nat.mul_one] at sourceLength
  have read := Buffer.slice_eq source (y * width + left) (right - left)
    (by omega)
  have length := Buffer.length_of_slice read
  refine ⟨_, read, length, ?_⟩
  intro column inPart
  have bounded : column < (List.take (right - left)
      (List.drop (y * width + left) source)).length := by omega
  refine ⟨_, List.getElem?_eq_getElem bounded, ?_⟩
  have same := Buffer.getElem?_of_slice read column
  rw [if_pos inPart, List.getElem?_eq_getElem bounded] at same
  rw [Buffer.chunk_one, ← Nat.add_assoc, ← same]
  rfl

theorem slice_packed
    (layout : Layout buffer stride width height format sourceFormat source 2)
    (ordered : left ≤ right) (inRow : right ≤ width) (inColumn : y < height) :
    ∃ packed, Buffer.slice source ((y * width + left) * 2)
        ((y * width + right) * 2 - (y * width + left) * 2) = some packed ∧
      packed.length = (right - left) * 2 ∧
      ∀ column < right - left, Buffer.chunk 2 packed column =
        Buffer.chunk 2 source (y * width + (left + column)) := by
  have rows := Nat.mul_le_mul_right width (show y + 1 ≤ height from inColumn)
  rw [Nat.add_one_mul, Nat.mul_comm height] at rows
  have sourceLength := layout.sourceLength
  have count : (y * width + right) * 2 - (y * width + left) * 2 =
      (right - left) * 2 := by omega
  have read := Buffer.slice_eq source ((y * width + left) * 2)
    ((right - left) * 2) (by omega)
  rw [count]
  refine ⟨_, read, Buffer.length_of_slice read, ?_⟩
  intro column inPart
  rw [Buffer.chunk_of_slice read inPart, Nat.add_assoc]

private theorem writeRow_gray
    (layout : Layout buffer stride width height format .gray8 source
      sourceBpp)
    (ordered : left ≤ right) (inRow : right ≤ width) (inColumn : y < height) :
    ∃ after,
      writeRow buffer stride width format .gray8 source left right y =
        some after ∧ after.length = buffer.length ∧
      (after[·]?) = Picture.paint (rowBytes stride format left right y)
        (image stride width format .gray8 source sourceBpp)
        (buffer[·]?) := by
  have isSource := layout.sourceBytes
  cases isSource
  obtain ⟨gray, read, length, grays⟩ :=
    slice_gray layout ordered inRow inColumn
  unfold writeRow
  cases format with
  | gray8 =>
      have paints := overwrite_paints layout ordered inRow inColumn
        (length.trans (Nat.mul_one _).symm) (by
          intro column inPart offset inPixel
          obtain ⟨luma, found, pixel⟩ := grays column inPart
          have first : offset = 0 := Nat.lt_one_iff.mp inPixel
          rw [pixel, first]
          change gray[column * 1 + 0]? = _
          rw [Nat.mul_one, Nat.add_zero, found]
          rfl)
      change ∃ after, Buffer.overwrite buffer (y * stride + left * 1) gray =
        some after ∧ _ at paints
      rw [Nat.mul_one] at paints
      simpa only [read, Option.bind_eq_bind, Option.bind_some] using paints
  | rgb565 =>
      obtain ⟨native, after, readNative, written, paints⟩ :=
        writeChunks_paints
          (fun luma => toLeBytes (packRgb565 luma luma luma))
          layout ordered inRow inColumn length (fun _ _ => rfl) (by
            intro column inPart
            obtain ⟨luma, found, pixel⟩ := grays column inPart
            refine ⟨luma, found, ?_⟩
            rw [pixel]
            exact grayPixel_rgb565 luma)
      refine ⟨after, ?_, paints⟩
      simp only [read, Option.bind_eq_bind, Option.bind_some]
      exact Option.bind_eq_some_iff.mpr ⟨native, readNative, written⟩
  | bgra32 | rgba32 =>
      obtain ⟨native, after, readNative, written, paints⟩ :=
        writeChunks_paints (fun luma => [luma, luma, luma, 0xff])
          layout ordered inRow inColumn length (fun _ _ => rfl) (by
            intro column inPart
            obtain ⟨luma, found, pixel⟩ := grays column inPart
            refine ⟨luma, found, ?_⟩
            rw [pixel]
            exact grayPixel_opaque luma (by simp))
      refine ⟨after, ?_, paints⟩
      simp only [read, Option.bind_eq_bind, Option.bind_some]
      exact Option.bind_eq_some_iff.mpr ⟨native, readNative, written⟩

private theorem writeRow_packed
    (layout : Layout buffer stride width height format .rgb565Le source
      sourceBpp)
    (ordered : left ≤ right) (inRow : right ≤ width) (inColumn : y < height) :
    ∃ after,
      writeRow buffer stride width format .rgb565Le source left right y =
        some after ∧ after.length = buffer.length ∧
      (after[·]?) = Picture.paint (rowBytes stride format left right y)
        (image stride width format .rgb565Le source sourceBpp)
        (buffer[·]?) := by
  have isSource := layout.sourceBytes
  cases isSource
  obtain ⟨packed, read, length, pixels⟩ :=
    slice_packed layout ordered inRow inColumn
  have chunks : (Buffer.chunksExact 2 packed).length = right - left := by
    rw [Buffer.chunksExact, List.length_map, List.length_range, length,
      Nat.mul_div_cancel _ (by decide)]
  have sized (column : Nat) (inPart : column < right - left) :
      (Buffer.chunk 2 source (y * width + (left + column))).length = 2 := by
    rw [← pixels column inPart]
    exact Buffer.length_chunk length inPart
  have chunkAt (column : Nat) (inPart : column < right - left) :
      (Buffer.chunksExact 2 packed)[column]? =
        some (Buffer.chunk 2 source (y * width + (left + column))) := by
    have inChunks : column < packed.length / 2 := by omega
    rw [Buffer.chunksExact, List.getElem?_map,
      List.getElem?_range inChunks, Option.map_some, pixels column inPart]
  unfold writeRow
  cases format with
  | rgb565 =>
      obtain ⟨after, written, paints⟩ :=
        overwrite_paints layout ordered inRow inColumn length (by
          intro column inPart offset inPixel
          rw [nativePixel, ← pixels column inPart, Buffer.getElem?_chunk]
          exact (if_pos inPixel).symm)
      refine ⟨after, ?_, paints⟩
      simp only [read, Option.bind_eq_bind, Option.bind_some]
      exact written
  | gray8 =>
      have paints := writeChunks_paints
        (fun input => [rgbLuma (unpackRgb565 input).1
          (unpackRgb565 input).2.1 (unpackRgb565 input).2.2])
        layout ordered inRow inColumn chunks (fun _ _ => rfl)
        (fun column inPart =>
          ⟨_, chunkAt column inPart,
            (packedPixel_native (sized column inPart)).1⟩)
      change ∃ native after,
        Buffer.slice buffer (y * stride + left * 1) (right * 1 - left * 1) =
          some native ∧
        Buffer.overwrite buffer (y * stride + left * 1)
          (Buffer.writeChunks 1 _ _ native) = some after ∧ _ at paints
      simp only [Nat.mul_one] at paints
      obtain ⟨native, after, readNative, written, paints⟩ := paints
      refine ⟨after, ?_, paints⟩
      simp only [read, Option.bind_eq_bind, Option.bind_some]
      exact Option.bind_eq_some_iff.mpr ⟨native, readNative, written⟩
  | bgra32 =>
      obtain ⟨native, after, readNative, written, paints⟩ :=
        writeChunks_paints
          (fun input => [(unpackRgb565 input).2.2,
            (unpackRgb565 input).2.1, (unpackRgb565 input).1, 0xff])
          layout ordered inRow inColumn chunks (fun _ _ => rfl)
          (fun column inPart => ⟨_, chunkAt column inPart,
            (packedPixel_native (sized column inPart)).2.1⟩)
      refine ⟨after, ?_, paints⟩
      simp only [read, Option.bind_eq_bind, Option.bind_some]
      exact Option.bind_eq_some_iff.mpr ⟨native, readNative, written⟩
  | rgba32 =>
      obtain ⟨native, after, readNative, written, paints⟩ :=
        writeChunks_paints
          (fun input => [(unpackRgb565 input).1, (unpackRgb565 input).2.1,
            (unpackRgb565 input).2.2, 0xff])
          layout ordered inRow inColumn chunks (fun _ _ => rfl)
          (fun column inPart => ⟨_, chunkAt column inPart,
            (packedPixel_native (sized column inPart)).2.2⟩)
      refine ⟨after, ?_, paints⟩
      simp only [read, Option.bind_eq_bind, Option.bind_some]
      exact Option.bind_eq_some_iff.mpr ⟨native, readNative, written⟩

theorem writeRow_paints
    (layout : Layout buffer stride width height format sourceFormat source
      sourceBpp)
    (ordered : left ≤ right) (inRow : right ≤ width) (inColumn : y < height) :
    ∃ after,
      writeRow buffer stride width format sourceFormat source left right y =
        some after ∧ after.length = buffer.length ∧
      (after[·]?) = Picture.paint (rowBytes stride format left right y)
        (image stride width format sourceFormat source sourceBpp)
        (buffer[·]?) := by
  have isSource := layout.sourceBytes
  cases sourceFormat with
  | unspecified | gray4 => cases isSource
  | gray8 => exact writeRow_gray layout ordered inRow inColumn
  | rgb565Le => exact writeRow_packed layout ordered inRow inColumn

/-- The bytes of the pixels in a rectangle. -/
def rectBytes (stride : Nat) (format : NativePixelFormat) (rect : Rect) :
    Set Nat :=
  {index | ∃ y ∈ List.range' rect.y rect.height,
    index ∈ rowBytes stride format rect.x (rect.x + rect.width) y}

theorem Layout.of_length {after : Bytes}
    (layout : Layout buffer stride width height format sourceFormat source
      sourceBpp) (same : after.length = buffer.length) :
    Layout after stride width height format sourceFormat source sourceBpp :=
  { layout with room := same ▸ layout.room }

theorem writeRect_paints {rect : Rect}
    (layout : Layout buffer stride width height format sourceFormat source
      sourceBpp) (inside : rect.Inside width height) :
    ∃ after,
      writeRect stride width format sourceFormat source buffer rect =
        .ok after ∧ after.length = buffer.length ∧
      (after[·]?) = Picture.paint (rectBytes stride format rect)
        (image stride width format sourceFormat source sourceBpp)
        (buffer[·]?) := by
  obtain ⟨after, written, same, paints⟩ := Picture.foldlM_paint
    (fun (buffer : Bytes) => (buffer[·]?))
    (fun after => after.length = buffer.length)
    (fun y => rowBytes stride format rect.x (rect.x + rect.width) y)
    (image stride width format sourceFormat source sourceBpp)
    (List.range' rect.y rect.height) buffer rfl (by
      intro done y rest state split same _
      have member : y ∈ List.range' rect.y rect.height := by
        rw [split]
        simp
      have inColumn : y < height := by
        have bottom := inside.bottom
        have rows := List.mem_range'_1.mp member
        omega
      obtain ⟨next, written, length, paints⟩ :=
        writeRow_paints (layout.of_length same) (Nat.le_add_right _ _)
          inside.right inColumn
      have stepped : Res.orPanic (writeRow state stride width format
          sourceFormat source rect.x (rect.x + rect.width) y) =
            (.ok next : Res PanelError Bytes) := by
        rw [written]
        rfl
      exact ⟨next, stepped, length.trans same, paints⟩)
  exact ⟨after, written, same, paints⟩

theorem validateRect_inside {rect : Rect} (inside : rect.Inside width height)
    (wide : width ≤ u32Max) (high : height ≤ u32Max) :
    validateRect rect width height = .ok () := by
  obtain ⟨someWidth, someHeight, right, bottom⟩ := inside
  have rightFits : Bounded.checkedAdd u32Max rect.x rect.width =
      some (rect.x + rect.width) :=
    Bounded.checkedAdd_eq_some.mpr ⟨rfl, by omega⟩
  have bottomFits : Bounded.checkedAdd u32Max rect.y rect.height =
      some (rect.y + rect.height) :=
    Bounded.checkedAdd_eq_some.mpr ⟨rfl, by omega⟩
  rw [validateRect]
  simp only [rightFits, bottomFits, decide_eq_true_eq]
  rw [if_neg (by omega)]

/-- The bytes of the pixels in some of the rectangles. -/
def damageBytes (stride : Nat) (format : NativePixelFormat)
    (damage : List Rect) : Set Nat :=
  {index | ∃ rect ∈ damage, index ∈ rectBytes stride format rect}

theorem writeDamage_paints {damage : List Rect}
    (wide : width ≤ u32Max) (high : height ≤ u32Max)
    (layout : Layout buffer stride width height format sourceFormat source
      sourceBpp)
    (checked : checkBuffers buffer stride width height format sourceFormat
      source = .ok ())
    (inside : ∀ rect ∈ damage, rect.Inside width height) :
    ∃ after,
      writeDamage stride width height format sourceFormat source damage buffer =
        .ok () after ∧ after.length = buffer.length ∧
      (after[·]?) = Picture.paint (damageBytes stride format damage)
        (image stride width format sourceFormat source sourceBpp)
        (buffer[·]?) := by
  have loop : ∃ after,
      damage.forM (writeNext stride width height format sourceFormat source)
        buffer = .ok () after ∧
      after.length = buffer.length ∧
      (after[·]?) = Picture.paint (damageBytes stride format damage)
        (image stride width format sourceFormat source sourceBpp)
        (buffer[·]?) := by
    clear checked
    induction damage generalizing buffer with
    | nil =>
        refine ⟨buffer, rfl, rfl, ?_⟩
        have empty : damageBytes stride format [] = ∅ := by
          simp [damageBytes]
        rw [empty, Picture.paint_empty]
    | cons rect damage induction =>
        obtain ⟨first, others⟩ := List.forall_mem_cons.mp inside
        obtain ⟨middle, written, length, paints⟩ :=
          writeRect_paints layout first
        obtain ⟨after, rest, sameLength, restPaints⟩ :=
          induction (layout.of_length length) others
        refine ⟨after, ?_, sameLength.trans length, ?_⟩
        · have next : writeNext stride width height format sourceFormat source
              rect buffer = .ok () middle := by
            rw [writeNext]
            simp only [Proc.bind_apply, Proc.ofRes_ok, Proc.get_apply,
              Proc.set_apply, validateRect_inside first wide high, written]
          exact (Proc.bind_of_ok next).trans rest
        · have union : damageBytes stride format (rect :: damage) =
              rectBytes stride format rect ∪
                damageBytes stride format damage := by
            ext index
            simp [damageBytes]
          rw [restPaints, paints, Picture.paint_paint, union]
  obtain ⟨after, looped, length, paints⟩ := loop
  refine ⟨after, ?_, length, paints⟩
  rw [writeDamage]
  simp only [Proc.bind_apply, Proc.get_apply, checked, Proc.ofRes_ok, looped]

theorem mem_damageBytes {damage : List Rect} {index : Nat} :
    index ∈ damageBytes stride format damage ↔ ∃ x y offset,
      Covered damage x y ∧ offset < format.bytesPerPixel ∧
      index = y * stride + (x * format.bytesPerPixel + offset) := by
  constructor
  · rintro ⟨rect, isRect, y, inRows, inRow⟩
    obtain ⟨column, offset, inPart, inPixel, rfl⟩ :=
      (mem_rowBytes (Nat.le_add_right _ _)).mp inRow
    have rows := List.mem_range'_1.mp inRows
    refine ⟨rect.x + column, y, offset, ⟨rect, isRect, ⟨?_, ?_⟩, rows⟩, inPixel,
      ?_⟩
    · omega
    · omega
    · rw [Nat.add_mul]
      omega
  · rintro ⟨x, y, offset, ⟨rect, isRect, columns, rows⟩, inPixel, rfl⟩
    refine ⟨rect, isRect, y, List.mem_range'_1.mpr rows,
      (mem_rowBytes (Nat.le_add_right _ _)).mpr
        ⟨x - rect.x, offset, by omega, inPixel, ?_⟩⟩
    have split : x * format.bytesPerPixel = rect.x * format.bytesPerPixel +
        (x - rect.x) * format.bytesPerPixel := by
      rw [← Nat.add_mul, Nat.add_sub_cancel' columns.1]
    omega

theorem slice_painted {after : Bytes} {damage : List Rect}
    (layout : Layout buffer stride width height format sourceFormat source
      sourceBpp) (length : after.length = buffer.length)
    (paints : (after[·]?) = Picture.paint (damageBytes stride format damage)
      (image stride width format sourceFormat source sourceBpp) (buffer[·]?))
    (inside : ∀ rect ∈ damage, rect.Inside width height)
    (isCovered : Covered damage x y) :
    Buffer.slice after (y * stride + x * format.bytesPerPixel)
      format.bytesPerPixel = some (nativePixel sourceFormat format
        (Buffer.chunk sourceBpp source (y * width + x))) := by
  obtain ⟨rect, isRect, covers⟩ := isCovered
  obtain ⟨inRow, inColumn⟩ := (inside rect isRect).bounds covers
  have columns := Nat.mul_le_mul_right format.bytesPerPixel
    (show x + 1 ≤ width from inRow)
  have rows := Nat.mul_le_mul_right stride (show y + 1 ≤ height from inColumn)
  rw [Nat.add_one_mul] at columns
  rw [Nat.add_one_mul, Nat.mul_comm height] at rows
  have wide := layout.wide
  have room := layout.room
  have read := Buffer.slice_eq after (y * stride + x * format.bytesPerPixel)
    format.bytesPerPixel (by omega)
  have sized := @length_nativePixel sourceFormat format sourceBpp
    (Buffer.chunk sourceBpp source (y * width + x)) layout.sourceBytes
    (Buffer.length_chunk (layout.sourceLength.trans
      (congrArg (· * sourceBpp) (Nat.mul_comm width height)))
      (by
        rw [Nat.mul_comm height]
        exact Grid.rowMajor_lt inRow inColumn))
  rw [read]
  apply congrArg some
  apply List.ext_getElem?
  intro offset
  rw [Buffer.getElem?_of_slice read]
  split
  · rename_i inPixel
    have painted := congrFun paints
      (y * stride + (x * format.bytesPerPixel + offset))
    rw [Picture.paint_of_mem (mem_damageBytes.mpr
      ⟨x, y, offset, ⟨rect, isRect, covers⟩, inPixel, rfl⟩),
      image_pixel wide inRow inPixel] at painted
    rw [Nat.add_assoc]
    exact painted
  · rename_i beyond
    rw [List.getElem?_eq_none (by omega)]

/-- Writing damage is exact. -/
theorem writeDamage_exact {damage : List Rect} (wide : width ≤ u32Max)
    (high : height ≤ u32Max) (slice : source.length ≤ isizeMax)
    (checked : checkBuffers buffer stride width height format sourceFormat
      source = .ok ())
    (inside : ∀ rect ∈ damage, rect.Inside width height) :
    ∃ sourceBpp after, sourceBytes sourceFormat = .ok sourceBpp ∧
      writeDamage stride width height format sourceFormat source damage buffer =
        .ok () after ∧
      after.length = buffer.length ∧
      (∀ x y, Covered damage x y →
        Buffer.slice after (y * stride + x * format.bytesPerPixel)
          format.bytesPerPixel = some (nativePixel sourceFormat format
            (Buffer.chunk sourceBpp source (y * width + x)))) ∧
      (∀ index, (∀ x y offset, Covered damage x y →
          offset < format.bytesPerPixel →
          index ≠ y * stride + (x * format.bytesPerPixel + offset)) →
        after[index]? = buffer[index]?) ∧
      (∀ others : List Rect, (∀ rect ∈ others, rect.Inside width height) →
        (∀ x y, Covered others x y ↔ Covered damage x y) →
        writeDamage stride width height format sourceFormat source others
          buffer = .ok () after) ∧
      (0 < width → 0 < height →
        (∀ x < width, ∀ y < height, Covered damage x y) →
        writeDamage stride width height format sourceFormat source
          [⟨0, 0, width, height⟩] buffer = .ok () after) := by
  obtain ⟨sourceBpp, layout⟩ := layout_of_checked slice checked
  obtain ⟨after, written, length, paints⟩ :=
    writeDamage_paints wide high layout checked inside
  have sameWritten (others : List Rect)
      (othersInside : ∀ rect ∈ others, rect.Inside width height)
      (same : ∀ x y, Covered others x y ↔ Covered damage x y) :
      writeDamage stride width height format sourceFormat source others buffer =
        .ok () after := by
    obtain ⟨other, otherWritten, _, otherPaints⟩ :=
      writeDamage_paints wide high layout checked othersInside
    have sameBytes : damageBytes stride format others =
        damageBytes stride format damage := by
      ext index
      simp only [mem_damageBytes, same]
    rw [sameBytes, ← paints] at otherPaints
    have equal : other = after := by
      apply List.ext_getElem?
      intro index
      exact congrFun otherPaints index
    rw [otherWritten, equal]
  refine ⟨sourceBpp, after, layout.sourceBytes, written, length, ?_, ?_,
    sameWritten, ?_⟩
  · intro x y isCovered
    exact slice_painted layout length paints inside isCovered
  · intro index outside
    have kept := congrFun paints index
    rw [Picture.paint_of_not_mem] at kept
    · exact kept
    · intro member
      obtain ⟨x, y, offset, isCovered, inPixel, same⟩ :=
        mem_damageBytes.mp member
      exact outside x y offset isCovered inPixel same
  · intro someWidth someHeight covers
    apply sameWritten
    · intro rect member
      rw [List.mem_singleton.mp member]
      exact ⟨someWidth, someHeight, by simp, by simp⟩
    · intro x y
      rw [covered_singleton]
      constructor
      · rintro ⟨columns, rows⟩
        apply covers <;> simp at columns rows <;> omega
      · rintro ⟨rect, isRect, inRect⟩
        have bounds := (inside rect isRect).bounds inRect
        simpa [Rect.Covers] using bounds

/-- A gray and a red pixel, in rows with room for three pixels. -/
theorem writeDamage_padding :
    (∃ after, writeDamage 12 2 1 .bgra32 .gray8 [0x12, 0x80] [⟨0, 0, 2, 1⟩]
        (List.replicate 12 0xaa) = .ok () after ∧
      Buffer.slice after 4 4 = some [0x80, 0x80, 0x80, 0xff] ∧
      after[8]? = some 0xaa) ∧
    (∃ after, writeDamage 3 1 1 .gray8 .rgb565Le [0x00, 0xf8] [⟨0, 0, 1, 1⟩]
        [1, 2, 3] = .ok () after ∧ Buffer.slice after 0 1 = some [0x4d]) := by
  constructor
  · obtain ⟨sourceBpp, after, isSource, written, _, shows, keeps, _⟩ :=
      @writeDamage_exact (List.replicate 12 0xaa) [0x12, 0x80] 12 2 1 .bgra32
        .gray8 [⟨0, 0, 2, 1⟩] (by decide) (by decide) (by decide) (by decide)
        (by
          intro rect member
          rw [List.mem_singleton.mp member]
          exact ⟨by decide, by decide, by decide, by decide⟩)
    cases isSource
    refine ⟨after, written, shows 1 0 (by decide), ?_⟩
    apply keeps 8
    intro x y offset isCovered inPixel
    rw [covered_singleton] at isCovered
    obtain ⟨⟨_, inRow⟩, _, inColumn⟩ := isCovered
    simp only [NativePixelFormat.bytesPerPixel] at *
    omega
  · obtain ⟨sourceBpp, after, isSource, written, _, shows, _⟩ :=
      @writeDamage_exact [1, 2, 3] [0x00, 0xf8] 3 1 1 .gray8
        .rgb565Le [⟨0, 0, 1, 1⟩] (by decide) (by decide) (by decide) (by decide)
        (by
          intro rect member
          rw [List.mem_singleton.mp member]
          exact ⟨by decide, by decide, by decide, by decide⟩)
    cases isSource
    exact ⟨after, written, shows 0 0 (by decide)⟩

end

end RmDisplay.Receiver
