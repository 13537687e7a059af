import RmDisplay.Foundation.Picture
import RmDisplay.Protocol.SemanticSpec

/-!
# Pixels of the native framebuffer

The framebuffer of the panel has its own pixel format, and rows that may be
longer than the panel is wide.  `writeDamage` converts the pixels of a frame
inside the damaged rectangles.
-/

namespace RmDisplay.Receiver

open Foundation Protocol

inductive PanelError where
  | unsupported (reason : String)
  | submit (reason : String)
  | pump (reason : String)
deriving DecidableEq, Repr

inductive NativePixelFormat where
  | gray8 | rgb565 | bgra32 | rgba32
deriving DecidableEq, Repr

namespace NativePixelFormat

def fromQt (format : Int) : Res PanelError NativePixelFormat :=
  if format = 24 then .ok .gray8
  else if format = 7 then .ok .rgb565
  else if 4 ≤ format ∧ format ≤ 6 then .ok .bgra32
  else if 16 ≤ format ∧ format ≤ 18 then .ok .rgba32
  else .error (.unsupported ("Qt framebuffer format " ++ toString format))

def bytesPerPixel : NativePixelFormat → Nat
  | .gray8 => 1
  | .rgb565 => 2
  | .bgra32 | .rgba32 => 4

theorem bytesPerPixel_pos (format : NativePixelFormat) :
    0 < format.bytesPerPixel := by
  cases format <;> decide

end NativePixelFormat

namespace Native

def expand5 (value : UInt8) : UInt8 :=
  let value := value &&& 0x1f
  (value <<< 3) ||| (value >>> 2)

def expand6 (value : UInt8) : UInt8 :=
  let value := value &&& 0x3f
  (value <<< 2) ||| (value >>> 4)

def packRgb565 (red green blue : UInt8) : UInt16 :=
  ((red.toUInt16 &&& 0xf8) <<< 8) ||| ((green.toUInt16 &&& 0xfc) <<< 3) |||
    (blue.toUInt16 >>> 3)

/-- Red, green and blue of a pixel of two bytes. -/
def unpackRgb565 (input : Bytes) : UInt8 × UInt8 × UInt8 :=
  match input with
  | [low, high] =>
      let packed := low.toUInt16 ||| (high.toUInt16 <<< 8)
      (expand5 (packed >>> 11).toUInt8, expand6 (packed >>> 5).toUInt8,
        expand5 packed.toUInt8)
  | _ => (0, 0, 0)

def rgbLuma (red green blue : UInt8) : UInt8 :=
  ((red.toUInt32 * 77 + green.toUInt32 * 150 + blue.toUInt32 * 29 + 128) >>>
    8).toUInt8

def toLeBytes (value : UInt16) : Bytes :=
  [value.toUInt8, (value >>> 8).toUInt8]

end Native

open Native

/-- The largest number of bytes in a slice. -/
def isizeMax : Nat := 2 ^ 63 - 1

def sourceBytes : PixelFormat → Res PanelError Nat
  | .gray8 => .ok 1
  | .rgb565Le => .ok 2
  | .unspecified | .gray4 => .error (.unsupported "source pixel format")

/-- What is asked of the two buffers before anything is written. -/
def checkBuffers (buffer : Bytes) (stride width height : Nat)
    (format : NativePixelFormat) (sourceFormat : PixelFormat)
    (source : Bytes) : Res PanelError Unit := do
  let some pixelCount := Bounded.checkedMul u64Max width height
    | .error (.unsupported "panel geometry overflow")
  let sourceBpp ← sourceBytes sourceFormat
  if source.length ≠ Bounded.saturatingMul u64Max pixelCount sourceBpp then
    .error (.unsupported "source frame length mismatch")
  else
    let some minimumStride :=
        Bounded.checkedMul u64Max width format.bytesPerPixel
      | .error (.unsupported "native stride overflow")
    if stride < minimumStride then
      .error (.unsupported "native framebuffer stride is too small")
    else
      let some needed := Bounded.checkedMul u64Max stride height
        | .error (.unsupported "native buffer length overflow")
      if buffer.length < needed then
        .error (.unsupported "native framebuffer stride is too small")
      else .ok ()

def validateRect (rect : Rect) (width height : Nat) : Res PanelError Unit :=
  let beyond (start extent limit : Nat) : Bool :=
    match Bounded.checkedAdd u32Max start extent with
    | none => true
    | some last => limit < last
  if rect.width = 0 ∨ rect.height = 0 ∨ beyond rect.x rect.width width ∨
      beyond rect.y rect.height height then
    .error (.unsupported "damage rectangle is outside panel")
  else .ok ()

/-- Convert the pixels `left .. right` of one row.  Every pair of formats has
its own way through the two buffers. -/
def writeRow (buffer : Bytes) (stride width : Nat) (format : NativePixelFormat)
    (sourceFormat : PixelFormat) (source : Bytes) (left right y : Nat) :
    Option Bytes :=
  let sourceRow := y * width
  let nativeRow := y * stride
  let sourceStart := (sourceRow + left) * 2
  let sourceEnd := (sourceRow + right) * 2
  match sourceFormat, format with
  | .gray8, .gray8 => do
      let gray ← Buffer.slice source (sourceRow + left) (right - left)
      Buffer.overwrite buffer (nativeRow + left) gray
  | .rgb565Le, .rgb565 => do
      let packed ← Buffer.slice source sourceStart (sourceEnd - sourceStart)
      Buffer.overwrite buffer (nativeRow + left * 2) packed
  | .gray8, .rgb565 => do
      let gray ← Buffer.slice source (sourceRow + left) (right - left)
      let native ← Buffer.slice buffer (nativeRow + left * 2)
        (right * 2 - left * 2)
      Buffer.overwrite buffer (nativeRow + left * 2)
        (Buffer.writeChunks 2 (fun luma => toLeBytes (packRgb565 luma luma luma))
          gray native)
  | .gray8, .bgra32 | .gray8, .rgba32 => do
      let gray ← Buffer.slice source (sourceRow + left) (right - left)
      let native ← Buffer.slice buffer (nativeRow + left * 4)
        (right * 4 - left * 4)
      Buffer.overwrite buffer (nativeRow + left * 4)
        (Buffer.writeChunks 4 (fun luma => [luma, luma, luma, 0xff]) gray native)
  | .rgb565Le, .gray8 => do
      let packed ← Buffer.slice source sourceStart (sourceEnd - sourceStart)
      let native ← Buffer.slice buffer (nativeRow + left) (right - left)
      Buffer.overwrite buffer (nativeRow + left)
        (Buffer.writeChunks 1 (fun input =>
          let (red, green, blue) := unpackRgb565 input
          [rgbLuma red green blue]) (Buffer.chunksExact 2 packed) native)
  | .rgb565Le, .bgra32 | .rgb565Le, .rgba32 => do
      let packed ← Buffer.slice source sourceStart (sourceEnd - sourceStart)
      let native ← Buffer.slice buffer (nativeRow + left * 4)
        (right * 4 - left * 4)
      Buffer.overwrite buffer (nativeRow + left * 4)
        (Buffer.writeChunks 4 (fun input =>
          let (red, green, blue) := unpackRgb565 input
          if format = .bgra32 then [blue, green, red, 0xff]
          else [red, green, blue, 0xff]) (Buffer.chunksExact 2 packed) native)
  | .unspecified, _ | .gray4, _ => none

def writeRect (stride width : Nat) (format : NativePixelFormat)
    (sourceFormat : PixelFormat) (source buffer : Bytes) (rect : Rect) :
    Res PanelError Bytes :=
  (List.range' rect.y rect.height).foldlM (fun buffer y =>
    Res.orPanic (writeRow buffer stride width format sourceFormat source rect.x
      (rect.x + rect.width) y)) buffer

/-- One turn of the loop over the damage. -/
def writeNext (stride width height : Nat) (format : NativePixelFormat)
    (sourceFormat : PixelFormat) (source : Bytes) (rect : Rect) :
    Proc Bytes PanelError Unit := do
  Proc.ofRes id (validateRect rect width height)
  let buffer ← Proc.get
  let written ← Proc.ofRes id
    (writeRect stride width format sourceFormat source buffer rect)
  Proc.set written

/-- A rectangle outside the panel stops the loop; what was written before it
stays. -/
def writeDamage (stride width height : Nat) (format : NativePixelFormat)
    (sourceFormat : PixelFormat) (source : Bytes) (damage : List Rect) :
    Proc Bytes PanelError Unit := do
  let buffer ← Proc.get
  Proc.ofRes id
    (checkBuffers buffer stride width height format sourceFormat source)
  damage.forM (writeNext stride width height format sourceFormat source)

end RmDisplay.Receiver
