import RmDisplay.Receiver.NativePixels

/-!
# Colours of pixels

What a pixel of a frame shows, and the bytes that show it in a framebuffer,
in plain arithmetic.  The shifts and masks of the conversions compute them.
-/

namespace RmDisplay.Receiver

open Foundation Protocol Native

/-- A channel of few bits over the whole range of a byte: its bits, and the
highest of them once more below. -/
def widened (bits value : Nat) : Nat :=
  value * 2 ^ (8 - bits) + value / 2 ^ (2 * bits - 8)

/-- Red, green and blue of a pixel of a frame, from 0 to 255. -/
def sourceColour (sourceFormat : PixelFormat) (pixel : Bytes) :
    Nat × Nat × Nat :=
  match sourceFormat, pixel with
  | .gray8, [luma] => (luma.toNat, luma.toNat, luma.toNat)
  | .rgb565Le, [low, high] =>
      let packed := low.toNat + 256 * high.toNat
      (widened 5 (packed / 2048), widened 6 (packed / 32 % 64),
        widened 5 (packed % 32))
  | _, _ => (0, 0, 0)

/-- The bytes that show a colour in a framebuffer. -/
def nativeColour (format : NativePixelFormat) (colour : Nat × Nat × Nat) :
    List Nat :=
  let (red, green, blue) := colour
  match format with
  | .gray8 => [(77 * red + 150 * green + 29 * blue + 128) / 256]
  | .rgb565 =>
      let packed := red / 8 * 2048 + green / 4 * 32 + blue / 8
      [packed % 256, packed / 256]
  | .bgra32 => [blue, green, red, 255]
  | .rgba32 => [red, green, blue, 255]

/-- The pixel of a frame in the format of the framebuffer. -/
def nativePixel (sourceFormat : PixelFormat) (format : NativePixelFormat)
    (pixel : Bytes) : Bytes :=
  match sourceFormat, format with
  | .gray8, .gray8 | .rgb565Le, .rgb565 => pixel
  | _, _ => (nativeColour format (sourceColour sourceFormat pixel)).map
      UInt8.ofNat

theorem toNat_expand5 (value : UInt8) :
    (expand5 value).toNat = widened 5 (value.toNat % 32) := by
  have all : ∀ bits < 256, (expand5 (UInt8.ofNat bits)).toNat =
      widened 5 (bits % 32) := by
    decide +kernel
  simpa using all value.toNat value.toNat_lt

theorem toNat_expand6 (value : UInt8) :
    (expand6 value).toNat = widened 6 (value.toNat % 64) := by
  have all : ∀ bits < 256, (expand6 (UInt8.ofNat bits)).toNat =
      widened 6 (bits % 64) := by
    decide +kernel
  simpa using all value.toNat value.toNat_lt

private theorem toNat_word (low high : UInt8) :
    (low.toUInt16 ||| (high.toUInt16 <<< 8)).toNat =
      low.toNat + 256 * high.toNat := by
  have small := low.toNat_lt
  have fits := high.toNat_lt
  have shifted : high.toNat <<< 8 % 65536 = high.toNat <<< 8 := by
    rw [Nat.shiftLeft_eq]
    omega
  simp only [UInt16.toNat_or, UInt16.toNat_shiftLeft, UInt8.toNat_toUInt16,
    UInt16.reduceToNat, Nat.reduceMod, Nat.reducePow, shifted]
  rw [Nat.or_comm, ← Nat.shiftLeft_add_eq_or_of_lt small, Nat.shiftLeft_eq]
  omega

theorem unpackRgb565_colour (low high : UInt8) :
    ((unpackRgb565 [low, high]).1.toNat, (unpackRgb565 [low, high]).2.1.toNat,
      (unpackRgb565 [low, high]).2.2.toNat) =
      sourceColour .rgb565Le [low, high] := by
  have small := low.toNat_lt
  have fits := high.toNat_lt
  simp only [unpackRgb565, sourceColour, toNat_expand5, toNat_expand6,
    UInt16.toNat_toUInt8, UInt16.toNat_shiftRight, toNat_word,
    UInt16.reduceToNat, Nat.reduceMod, Nat.shiftRight_eq_div_pow,
    Nat.reducePow, Prod.mk.injEq]
  refine ⟨?_, ?_, ?_⟩
  · congr 1
    omega
  · congr 1
    omega
  · congr 1
    omega

theorem toNat_rgbLuma (red green blue : UInt8) :
    (rgbLuma red green blue).toNat =
      (77 * red.toNat + 150 * green.toNat + 29 * blue.toNat + 128) / 256 := by
  have reds := red.toNat_lt
  have greens := green.toNat_lt
  have blues := blue.toNat_lt
  simp only [rgbLuma, UInt32.toNat_toUInt8, UInt32.toNat_shiftRight,
    UInt32.toNat_add, UInt32.toNat_mul, UInt8.toNat_toUInt32,
    UInt32.reduceToNat, Nat.reduceMod, Nat.shiftRight_eq_div_pow]
  simp (disch := omega) only [Nat.mod_eq_of_lt]
  omega

theorem toNat_packGray (luma : UInt8) :
    (packRgb565 luma luma luma).toNat =
      luma.toNat / 8 * 2048 + luma.toNat / 4 * 32 + luma.toNat / 8 := by
  have all : ∀ bits < 256,
      (packRgb565 (UInt8.ofNat bits) (UInt8.ofNat bits)
        (UInt8.ofNat bits)).toNat =
        bits / 8 * 2048 + bits / 4 * 32 + bits / 8 := by
    decide +kernel
  simpa using all luma.toNat luma.toNat_lt

theorem toLeBytes_eq (value : UInt16) :
    toLeBytes value =
      [value.toNat % 256, value.toNat / 256].map UInt8.ofNat := by
  have fits := value.toNat_lt
  simp only [toLeBytes, List.map_cons, List.map_nil, List.cons.injEq,
    and_true, ← UInt8.toNat_inj, UInt16.toNat_toUInt8,
    UInt16.toNat_shiftRight, UInt16.reduceToNat, Nat.reduceMod,
    Nat.shiftRight_eq_div_pow, UInt8.toNat_ofNat']
  omega

theorem grayPixel_rgb565 (luma : UInt8) :
    toLeBytes (packRgb565 luma luma luma) =
      nativePixel .gray8 .rgb565 [luma] := by
  rw [toLeBytes_eq, toNat_packGray]
  rfl

theorem grayPixel_opaque {format : NativePixelFormat} (luma : UInt8)
    (wide : format = .bgra32 ∨ format = .rgba32) :
    [luma, luma, luma, 0xff] = nativePixel .gray8 format [luma] := by
  rcases wide with rfl | rfl <;>
    simp [nativePixel, nativeColour, sourceColour]

/-- Every way of writing an unpacked pixel shows the colour of the pixel. -/
theorem packedPixel_native {pixel : Bytes} (sized : pixel.length = 2) :
    [rgbLuma (unpackRgb565 pixel).1 (unpackRgb565 pixel).2.1
        (unpackRgb565 pixel).2.2] = nativePixel .rgb565Le .gray8 pixel ∧
      [(unpackRgb565 pixel).2.2, (unpackRgb565 pixel).2.1,
        (unpackRgb565 pixel).1, 0xff] = nativePixel .rgb565Le .bgra32 pixel ∧
      [(unpackRgb565 pixel).1, (unpackRgb565 pixel).2.1,
        (unpackRgb565 pixel).2.2, 0xff] =
          nativePixel .rgb565Le .rgba32 pixel := by
  obtain ⟨low, high, rfl⟩ := List.length_eq_two.mp sized
  simp only [nativePixel, ← unpackRgb565_colour]
  refine ⟨?_, ?_, ?_⟩
  · simp [nativeColour, ← toNat_rgbLuma]
  · simp [nativeColour]
  · simp [nativeColour]

/-- The native bytes of a pixel are as many as the format says. -/
theorem length_nativePixel {sourceFormat : PixelFormat}
    {format : NativePixelFormat} {sourceBpp : Nat} {pixel : Bytes}
    (isSource : sourceBytes sourceFormat = .ok sourceBpp)
    (sized : pixel.length = sourceBpp) :
    (nativePixel sourceFormat format pixel).length = format.bytesPerPixel := by
  cases sourceFormat with
  | unspecified | gray4 => cases isSource
  | gray8 =>
      cases isSource
      cases format with
      | gray8 => exact sized
      | rgb565 | bgra32 | rgba32 => rfl
  | rgb565Le =>
      cases isSource
      cases format with
      | rgb565 => exact sized
      | gray8 | bgra32 | rgba32 => rfl

end RmDisplay.Receiver
