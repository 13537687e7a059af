import RmDisplay.Foundation.Buffer
import RmDisplay.Foundation.Program
import RmDisplay.Protocol.Message

/-!
# Semantic validation of frames

`validateAndDecodeFrame` checks a frame against the surface it addresses and
decodes its regions.  The decompressors and the checksum are external
libraries, so they are parameters.
-/

namespace RmDisplay.Protocol

open Foundation

/-- Bytes per packed pixel of the implemented formats; Gray4 is reserved. -/
def pixelFormatBytes : PixelFormat → Option Nat
  | .gray8 => some 1
  | .rgb565Le => some 2
  | .unspecified | .gray4 => none

/-- External codecs.  A decompressor gets the data and the number of bytes the
reader may take, and gives the bytes read, or nothing if reading fails. -/
structure Codecs where
  crc32 : Bytes → Nat
  zlib : Bytes → Nat → Option Bytes
  zstd : Bytes → Nat → Option Bytes

/-- The bits of a byte in the CRC-32 of what came before. -/
def crc32Byte (crc : Nat) (byte : UInt8) : Nat :=
  (List.range 8).foldl (fun crc _ =>
    if crc % 2 = 1 then crc / 2 ^^^ 0xedb88320 else crc / 2)
    (crc ^^^ byte.toNat)

def crc32 (data : Bytes) : Nat := data.foldl crc32Byte u32Max ^^^ u32Max

structure SurfaceState where
  surfaceId : Nat
  generation : Nat
  width : Nat
  height : Nat
  pixelFormat : PixelFormat
  logicalFrameId : Nat
  maxRegions : Nat
  maxFrameBytes : Nat
deriving DecidableEq, Repr

structure DecodedRegion where
  rect : Rect
  pixels : Bytes
deriving DecidableEq, Repr

structure ValidatedFrame where
  frameId : Nat
  baseFrameId : Nat
  intent : FrameIntent
  pixelFormat : PixelFormat
  /-- Sum of all decoded region payloads: the cost in byte credits. -/
  decodedBytes : Nat
  regions : List DecodedRegion
deriving DecidableEq, Repr

inductive SemanticError where
  | wrongSurface
  | badFrameId
  | badBase (expected actual : Nat)
  | unsupported
  | badRegionCount
  | badRegion
  | regionOverlap
  | badDecodedLength
  | frameTooLarge
  | decompression
  | badCrc
  | badKeyframe
  | badIntent
deriving DecidableEq, Repr

abbrev Validation (α : Type) := Except SemanticError α

/-- Fail with `err` unless the condition holds. -/
def require (condition : Prop) [Decidable condition] (err : SemanticError) :
    Validation Unit :=
  if condition then .ok () else .error err

/-- The value of an option, or the error `err`. -/
def okOr {α : Type} (value : Option α) (err : SemanticError) : Validation α :=
  match value with
  | some present => .ok present
  | none => .error err

def overlaps (left right : Rect) : Bool :=
  left.x < right.x + right.width && right.x < left.x + left.width &&
    left.y < right.y + right.height && right.y < left.y + left.height

/-- Do two of the regions overlap? -/
def anyOverlap : List DecodedRegion → Bool
  | [] => false
  | left :: rest =>
      rest.any (fun right => overlaps left.rect right.rect) || anyOverlap rest

def validatedRect (region : FrameRegion) (surface : SurfaceState) :
    Validation Rect := do
  let rect ← okOr region.rect .badRegion
  require (rect.width ≠ 0 ∧ rect.height ≠ 0) .badRegion
  let right ← okOr (Bounded.checkedAdd u32Max rect.x rect.width) .badRegion
  let bottom ← okOr (Bounded.checkedAdd u32Max rect.y rect.height) .badRegion
  require (right ≤ surface.width ∧ bottom ≤ surface.height) .badRegion
  return rect

/-- Read at most one byte more than expected and compare the lengths. -/
def decodeExact (decoder : Nat → Option Bytes) (expected : Nat) :
    Validation Bytes := do
  let output ← okOr (decoder (expected + 1)) .decompression
  require (output.length = expected) .badDecodedLength
  return output

def decodeRegion (codecs : Codecs) (region : FrameRegion) (expected : Nat) :
    Validation Bytes :=
  match tryFrom Encoding region.encoding with
  | some .raw => do
      require (region.data.length = expected) .badDecodedLength
      return region.data
  | some .zlib => decodeExact (codecs.zlib region.data) expected
  | some .zstd => decodeExact (codecs.zstd region.data) expected
  | some .unspecified | none => .error .unsupported

/-- Running totals and the regions decoded so far. -/
structure DecodeProgress where
  decodedTotal : Nat := 0
  encodedTotal : Nat := 0
  decoded : List DecodedRegion := []
deriving DecidableEq, Repr

/-- One turn of the region loop. -/
def decodeNextRegion (codecs : Codecs) (surface : SurfaceState)
    (bytesPerPixel : Nat) (progress : DecodeProgress) (region : FrameRegion) :
    Validation DecodeProgress := do
  let rect ← validatedRect region surface
  let expected ← okOr
    ((Bounded.checkedMul u64Max rect.width rect.height).bind
      (Bounded.checkedMul u64Max · bytesPerPixel)) .frameTooLarge
  require (region.decodedLen = expected) .badDecodedLength
  let decodedTotal ← okOr
    (Bounded.checkedAdd u64Max progress.decodedTotal expected) .frameTooLarge
  let encodedTotal ← okOr
    (Bounded.checkedAdd u64Max progress.encodedTotal region.data.length)
    .frameTooLarge
  require (decodedTotal ≤ surface.maxFrameBytes ∧
    encodedTotal ≤ surface.maxFrameBytes) .frameTooLarge
  let pixels ← decodeRegion codecs region expected
  require (codecs.crc32 pixels = region.decodedCrc32) .badCrc
  return { decodedTotal, encodedTotal
           decoded := progress.decoded ++ [⟨rect, pixels⟩] }

/-- The full-surface rectangle of a keyframe. -/
def SurfaceState.fullRect (surface : SurfaceState) : Rect :=
  ⟨0, 0, surface.width, surface.height⟩

def validateAndDecodeFrame (codecs : Codecs) (frame : Frame)
    (surface : SurfaceState) : Validation ValidatedFrame := do
  require (frame.surfaceId = surface.surfaceId ∧
    frame.generation = surface.generation) .wrongSurface
  require (frame.frameId ≠ 0 ∧ surface.logicalFrameId < frame.frameId)
    .badFrameId
  let bytesPerPixel ← okOr (pixelFormatBytes surface.pixelFormat) .unsupported
  let intent ← okOr (tryFrom FrameIntent frame.intent) .badIntent
  require (intent ≠ .unspecified) .badIntent
  require (frame.regions ≠ [] ∧ frame.regions.length ≤ surface.maxRegions ∧
    frame.regions.length ≤ 65535) .badRegionCount
  require (frame.baseFrameId = 0 ∨ frame.baseFrameId = surface.logicalFrameId)
    (.badBase surface.logicalFrameId frame.baseFrameId)
  let progress ← frame.regions.foldlM
    (decodeNextRegion codecs surface bytesPerPixel) {}
  require (anyOverlap progress.decoded = false) .regionOverlap
  require (frame.baseFrameId ≠ 0 ∨
    progress.decoded.map DecodedRegion.rect = [surface.fullRect]) .badKeyframe
  return { frameId := frame.frameId
           baseFrameId := frame.baseFrameId
           intent
           pixelFormat := surface.pixelFormat
           decodedBytes := progress.decodedTotal
           regions := progress.decoded }

def applyValidatedRegion (width bytesPerPixel : Nat) (surface : Bytes)
    (region : DecodedRegion) : Option Bytes :=
  let rowWidth := width * bytesPerPixel
  let regionWidth := region.rect.width * bytesPerPixel
  (List.range region.rect.height).foldlM (fun surface row => do
    let source ← Buffer.slice region.pixels (row * regionWidth) regionWidth
    Buffer.overwrite surface
      ((region.rect.y + row) * rowWidth + region.rect.x * bytesPerPixel)
      source) surface

/-- `apply_validated_frame`; nothing where an index leaves a buffer. -/
def applyValidatedFrame (surface : Bytes) (width : Nat)
    (frame : ValidatedFrame) : Option Bytes := do
  let bytesPerPixel ← pixelFormatBytes frame.pixelFormat
  frame.regions.foldlM (applyValidatedRegion width bytesPerPixel) surface

end RmDisplay.Protocol
