import RmDisplay.Foundation.Buffer
import RmDisplay.Foundation.Program
import RmDisplay.Protocol.Semantic

/-!
# Pixel surfaces and local overlay planes

A surface stores packed pixels row by row.  That its buffer has exactly one
packed pixel of a supported format for each position is a field of the type,
and every write goes through one primitive that keeps it.  In the same way an
overlay carries that its planes agree in length and that a plane marked
transparent covers nothing.
-/

namespace RmDisplay.Core

open Foundation Protocol

inductive SurfaceError where
  | invalidGeometry
  | badRegion
  | badLength
  | overlap
  | badOverlay
deriving DecidableEq, Repr

abbrev SurfaceRes (α : Type) := Res SurfaceError α

def pixelLen (width height : Nat) : SurfaceRes Nat :=
  if width = 0 ∨ height = 0 then .error .invalidGeometry
  else
    match Bounded.checkedMul u64Max width height with
    | some len => .ok len
    | none => .error .invalidGeometry

theorem pixelLen_eq_ok {width height len : Nat} :
    pixelLen width height = .ok len ↔
      (0 < width ∧ 0 < height) ∧ len = width * height ∧
        width * height ≤ u64Max := by
  unfold pixelLen
  split
  · simp only [reduceCtorEq, false_iff]
    omega
  · split
    · rename_i total computed
      rw [Bounded.checkedMul_eq_some] at computed
      simp only [Res.ok.injEq]
      omega
    · rename_i missing
      simp only [reduceCtorEq, false_iff]
      rintro ⟨_, _, fits⟩
      rw [Bounded.checkedMul, if_pos fits] at missing
      cases missing

/-- Dimensions and buffer of a surface agree. -/
structure Packed (width height : Nat) (format : PixelFormat) (pixels : Bytes) :
    Prop where
  wide : 0 < width
  high : 0 < height
  addressable : width * height ≤ u64Max
  length : ∃ bytesPerPixel, pixelFormatBytes format = some bytesPerPixel ∧
    pixels.length = width * height * bytesPerPixel

/-- A tightly packed, top-left-origin pixel surface. -/
structure PixelSurface where
  width : Nat
  height : Nat
  format : PixelFormat
  pixels : Bytes
  packed : Packed width height format pixels
deriving DecidableEq

def blend (background foreground alpha : UInt8) : UInt8 :=
  let alpha := alpha.toUInt16
  ((foreground.toUInt16 * alpha + background.toUInt16 * (255 - alpha) + 127) /
    255).toUInt8

def expand5 (value : UInt8) : UInt8 :=
  let value := value &&& 0x1f
  (value <<< 3) ||| (value >>> 2)

def expand6 (value : UInt8) : UInt8 :=
  let value := value &&& 0x3f
  (value <<< 2) ||| (value >>> 4)

def packRgb565 (red green blue : UInt8) : UInt16 :=
  ((red.toUInt16 &&& 0xf8) <<< 8) ||| ((green.toUInt16 &&& 0xfc) <<< 3) |||
    (blue.toUInt16 >>> 3)

/-- Blend one packed pixel.  Only the two implemented formats are stored. -/
def blendPixel (format : PixelFormat) (pixel : Bytes) (luma alpha : UInt8) :
    Bytes :=
  match format, pixel with
  | .gray8, [value] => [blend value luma alpha]
  | .rgb565Le, [low, high] =>
      let packed := low.toUInt16 ||| (high.toUInt16 <<< 8)
      let composed := packRgb565
        (blend (expand5 (packed >>> 11).toUInt8) luma alpha)
        (blend (expand6 (packed >>> 5).toUInt8) luma alpha)
        (blend (expand5 packed.toUInt8) luma alpha)
      [composed.toUInt8, (composed >>> 8).toUInt8]
  | _, _ => pixel

/-- Luma and coverage of one local plane, one byte each per position. -/
structure Planes where
  luma : Bytes
  alpha : Bytes
  sameLength : luma.length = alpha.length
deriving DecidableEq

namespace Planes

/-- `luma[index] = l; alpha[index] = a`. -/
def put (self : Planes) (index : Nat) (luma alpha : UInt8) : Option Planes :=
  if index < self.luma.length then
    some { luma := self.luma.set index luma
           alpha := self.alpha.set index alpha
           sameLength := by simpa using self.sameLength }
  else none

/-- Overwrite the same part of both planes. -/
def overwrite (self : Planes) (start : Nat) (luma alpha : Bytes) :
    Option Planes :=
  match lumaWritten : Buffer.overwrite self.luma start luma,
      alphaWritten : Buffer.overwrite self.alpha start alpha with
  | some newLuma, some newAlpha =>
      some { luma := newLuma
             alpha := newAlpha
             sameLength := by
              rw [Buffer.length_of_overwrite lumaWritten,
                Buffer.length_of_overwrite alphaWritten, self.sameLength] }
  | _, _ => none

end Planes

/-- A receiver-owned plane over the whole surface. -/
structure LocalOverlay where
  planes : Planes
  transparent : Bool
  dirty : Option Rect
  clear_of_transparent : transparent = true → ∀ value ∈ planes.alpha, value = 0
deriving DecidableEq

namespace LocalOverlay

def luma (self : LocalOverlay) : Bytes := self.planes.luma

def alpha (self : LocalOverlay) : Bytes := self.planes.alpha

def len (self : LocalOverlay) : Nat := self.luma.length

/-- `LocalOverlay::transparent`. -/
def newTransparent (width height : Nat) : SurfaceRes LocalOverlay := do
  let len ← pixelLen width height
  return { planes :=
             { luma := List.replicate len 0
               alpha := List.replicate len 0
               sameLength := by simp }
           transparent := true
           dirty := none
           clear_of_transparent := fun _ _ member => List.eq_of_mem_replicate member }

/-- Continuous row-major, MSB-first coverage mask; no row padding.  One means
covered, zero means transparent. -/
def coverageBitmap (self : LocalOverlay) : SurfaceRes Bytes :=
  self.alpha.zipIdx.foldlM (fun bitmap (alpha, index) =>
    if alpha ≠ 0 then do
      let byte ← Res.orPanic bitmap[index / 8]?
      Res.orPanic (Buffer.put bitmap (index / 8)
        (byte ||| 0x80 >>> UInt8.ofNat (index % 8)))
    else .ok bitmap)
    (List.replicate ((self.alpha.length + 7) / 8) 0)

def clear (self : LocalOverlay) : LocalOverlay where
  planes :=
    { luma := self.luma
      alpha := List.replicate self.alpha.length 0
      sameLength := by
        rw [List.length_replicate]
        exact self.planes.sameLength }
  transparent := true
  dirty := none
  clear_of_transparent := fun _ _ member => List.eq_of_mem_replicate member

def takeDirty (self : LocalOverlay) : Option Rect × LocalOverlay :=
  (self.dirty, { self with dirty := none })

/-- Store new planes and find out whether they cover anything. -/
def withPlanes (self : LocalOverlay) (planes : Planes) : LocalOverlay where
  planes := planes
  transparent := !planes.alpha.any (· != 0)
  dirty := self.dirty
  clear_of_transparent := by
    intro isClear value member
    by_contra covered
    have : planes.alpha.any (· != 0) = true :=
      List.any_eq_true.mpr ⟨value, member, by simpa using covered⟩
    simp [this] at isClear

def replacePlanes (self : LocalOverlay) (luma alpha : Bytes) :
    SurfaceRes LocalOverlay :=
  if sizes : luma.length ≠ self.len ∨ alpha.length ≠ self.len then
    .error .badOverlay
  else
    .ok (self.withPlanes
      { luma, alpha
        sameLength := by
          have both := not_or.mp sizes
          rw [not_not.mp both.1, not_not.mp both.2] })

def patch (self : LocalOverlay) (width : Nat) (rect : Rect)
    (luma alpha : Bytes) : SurfaceRes LocalOverlay :=
  let count := rect.width * rect.height
  if width = 0 ∨ rect.width = 0 ∨ rect.height = 0 ∨
      width < rect.x + rect.width ∨
      self.len / width < rect.y + rect.height ∨
      luma.length ≠ count ∨ alpha.length ≠ count then
    .error .badOverlay
  else do
    let planes ← (List.range rect.height).foldlM (fun planes row => do
      let dst := (rect.y + row) * width + rect.x
      let src := row * rect.width
      let lumaRow ← Res.orPanic (Buffer.slice luma src rect.width)
      let alphaRow ← Res.orPanic (Buffer.slice alpha src rect.width)
      Res.orPanic (planes.overwrite dst lumaRow alphaRow)) self.planes
    return self.withPlanes planes

/-- The nonnegative part of the range `first ..= last`. -/
def coordinates (first last : Int) : List Nat :=
  List.range' (max first 0).toNat ((last + 1).toNat - (max first 0).toNat)

/-- Paint the disc of the given radius around `(x, y)`, clipped to the
plane. -/
def inkDisc (width height : Nat) (radius : Nat) (erase : Bool) (x y : Int)
    (planes : Planes) : SurfaceRes Planes :=
  (coordinates (y - radius) (min (y + radius) (height - 1))).foldlM
    (fun planes (py : Nat) =>
      (coordinates (x - radius) (min (x + radius) (width - 1))).foldlM
        (fun planes (px : Nat) => do
          let distance ← Res.orPanic
            (Bounded.signed ((px - x) ^ 2 + (py - y) ^ 2))
          let reach ← Res.orPanic (Bounded.signed ((radius : Int) ^ 2))
          if distance ≤ reach then
            Res.orPanic (planes.put (py * width + px) 0
              (if erase then 0 else 255))
          else .ok planes) planes) planes

/-- The area a segment may touch, together with the area `old` still to be
redrawn.  A segment beyond the edge makes the unsigned subtraction panic. -/
def inkRect (width height : Nat) (origin target : Nat × Nat) (radius : Nat)
    (old : Option Rect) : SurfaceRes Rect := do
  let left := min origin.1 target.1 - radius
  let top := min origin.2 target.2 - radius
  let endX ← Res.orPanic
    (Bounded.checkedAdd u32Max (max origin.1 target.1 + radius) 1)
  let endY ← Res.orPanic
    (Bounded.checkedAdd u32Max (max origin.2 target.2 + radius) 1)
  let right := min endX width
  let bottom := min endY height
  let spanX ← Res.orPanic (Bounded.checkedSub right left)
  let spanY ← Res.orPanic (Bounded.checkedSub bottom top)
  match old with
  | none => return ⟨left, top, spanX, spanY⟩
  | some old =>
      let right := max right (old.x + old.width)
      let bottom := max bottom (old.y + old.height)
      let x := min left old.x
      let y := min top old.y
      return ⟨x, y, right - x, bottom - y⟩

/-- Bounded raster segment for local ink; the eraser clears this plane
only. -/
def inkLine (self : LocalOverlay) (width : Nat) (origin target : Nat × Nat)
    (radius : Nat) (erase : Bool) : SurfaceRes LocalOverlay :=
  -- A plane without width divides by zero.
  if width = 0 then .panic
  else do
    let height := self.len / width
    let dx : Int := target.1 - origin.1
    let dy : Int := target.2 - origin.2
    let steps := max (max dx.natAbs dy.natAbs) 1
    let planes ← (List.range (steps + 1)).foldlM (fun planes (step : Nat) => do
      let across ← Res.orPanic (Bounded.signed (dx * step))
      let down ← Res.orPanic (Bounded.signed (dy * step))
      inkDisc width height radius erase (origin.1 + across.tdiv steps)
        (origin.2 + down.tdiv steps) planes) self.planes
    let rect ← inkRect width height origin target radius self.dirty
    -- Conservative occupancy avoids scanning the full panel per pen sample.
    return { planes
             transparent := false
             dirty := some rect
             clear_of_transparent := by simp }

end LocalOverlay

def validateRect (width height : Nat) (rect : Rect) : SurfaceRes Unit :=
  -- A sum past a machine word is past every width as well.
  if rect.width = 0 ∨ rect.height = 0 ∨ width < rect.x + rect.width ∨
      height < rect.y + rect.height then
    .error .badRegion
  else .ok ()

def validateRegions (width height bytesPerPixel : Nat)
    (regions : List DecodedRegion) : SurfaceRes Unit := do
  regions.forM fun region => do
    validateRect width height region.rect
    match (Bounded.checkedMul u64Max region.rect.width region.rect.height).bind
        (Bounded.checkedMul u64Max · bytesPerPixel) with
    | none => .error .badLength
    | some expected =>
        if region.pixels.length ≠ expected then .error .badLength else .ok ()
  if anyOverlap regions then .error .overlap else .ok ()

namespace PixelSurface

def fromPixelsWithFormat (width height : Nat) (format : PixelFormat)
    (pixels : Bytes) : SurfaceRes PixelSurface :=
  match supported : pixelFormatBytes format with
  | none => .error .badLength
  | some bytesPerPixel =>
      match geometry : pixelLen width height with
      | .ok len =>
          if u64Max < len * bytesPerPixel then .error .invalidGeometry
          else if sizes : pixels.length ≠ len * bytesPerPixel then
            .error .badLength
          else
            .ok { width, height, format, pixels
                  packed := by
                    obtain ⟨⟨wide, high⟩, rfl, fits⟩ := pixelLen_eq_ok.mp geometry
                    exact ⟨wide, high, fits, _, supported, not_not.mp sizes⟩ }
      | .error err => .error err
      | .panic => .panic

/-- A white surface: every byte of either format is `0xff`. -/
def newWithFormat (width height : Nat) (format : PixelFormat) :
    SurfaceRes PixelSurface :=
  match pixelFormatBytes format with
  | none => .error .badLength
  | some bytesPerPixel =>
      fromPixelsWithFormat width height format
        (List.replicate (width * height * bytesPerPixel) 0xff)

/-- A surface made of packed pixels holds exactly them. -/
theorem fromPixelsWithFormat_eq_ok {width height : Nat} {format : PixelFormat}
    {pixels : Bytes} {surface : PixelSurface}
    (made : fromPixelsWithFormat width height format pixels = .ok surface) :
    (surface.width = width ∧ surface.height = height) ∧
      surface.format = format ∧ surface.pixels = pixels := by
  unfold fromPixelsWithFormat at made
  split at made
  · cases made
  · split at made
    · split at made
      · cases made
      · split at made
        · cases made
        · cases made
          exact ⟨⟨rfl, rfl⟩, rfl, rfl⟩
    · cases made
    · cases made

theorem newWithFormat_eq_ok {width height : Nat} {format : PixelFormat}
    {surface : PixelSurface}
    (made : newWithFormat width height format = .ok surface) :
    (surface.width = width ∧ surface.height = height) ∧
      surface.format = format := by
  unfold newWithFormat at made
  split at made
  · cases made
  · obtain ⟨sizes, sameFormat, _⟩ := fromPixelsWithFormat_eq_ok made
    exact ⟨sizes, sameFormat⟩

/-- Only supported formats are stored. -/
def bytesPerPixel (self : PixelSurface) : Nat :=
  (pixelFormatBytes self.format).getD 0

theorem length_pixels (self : PixelSurface) :
    self.pixels.length = self.width * self.height * self.bytesPerPixel := by
  obtain ⟨bytes, supported, sameLength⟩ := self.packed.length
  rw [bytesPerPixel, supported, Option.getD_some, sameLength]

/-- Overwrite a part of the buffer. -/
def write (self : PixelSurface) (start : Nat) (source : Bytes) :
    Option PixelSurface :=
  match written : Buffer.overwrite self.pixels start source with
  | none => none
  | some pixels =>
      some { self with
        pixels := pixels
        packed :=
          { self.packed with
            length := by
              rw [Buffer.length_of_overwrite written]
              exact self.packed.length } }

/-- `count` packed pixels from number `index` on. -/
def loadPixels (self : PixelSurface) (index count : Nat) : Option Bytes :=
  Buffer.slice self.pixels (index * self.bytesPerPixel)
    (count * self.bytesPerPixel)

/-- Store packed pixels from number `index` on. -/
def storePixels (self : PixelSurface) (index : Nat) (source : Bytes) :
    Option PixelSurface :=
  self.write (index * self.bytesPerPixel) source

def sameShape (self other : PixelSurface) : Bool :=
  self.width = other.width && self.height = other.height &&
    self.format = other.format

/-- Do two surfaces hold the same pixels in a part of one row? -/
def sameRow (previous current : PixelSurface) (index count : Nat) :
    SurfaceRes Bool := do
  let old ← Res.orPanic (previous.loadPixels index count)
  let new ← Res.orPanic (current.loadPixels index count)
  return old == new

def applyRegion (self : PixelSurface) (region : DecodedRegion) :
    SurfaceRes PixelSurface :=
  let rect := region.rect
  (List.range rect.height).foldlM (fun surface row => do
    let source ← Res.orPanic (Buffer.slice region.pixels
      (row * (rect.width * self.bytesPerPixel))
      (rect.width * self.bytesPerPixel))
    Res.orPanic (surface.storePixels ((rect.y + row) * self.width + rect.x)
      source)) self

def applyRegionsAtomic (self : PixelSurface) (regions : List DecodedRegion) :
    SurfaceRes PixelSurface := do
  validateRegions self.width self.height self.bytesPerPixel regions
  regions.foldlM applyRegion self

/-- Rows `first .. first + count` of a rectangle loop. -/
def rowsOf (rect : Rect) : List Nat := List.range' rect.y rect.height

def copyRegion (source output : PixelSurface) (rect : Rect) :
    SurfaceRes PixelSurface := do
  validateRect output.width output.height rect
  (rowsOf rect).foldlM (fun output y => do
    let index := y * output.width + rect.x
    let row ← Res.orPanic (source.loadPixels index rect.width)
    Res.orPanic (output.storePixels index row)) output

def copyRegionsFrom (self source : PixelSurface) (regions : List Rect) :
    SurfaceRes PixelSurface :=
  if source.sameShape self then
    regions.foldlM (copyRegion source) self
  else .error .badLength

/-- Read the pixel number `index` of `source`, blend the plane over it and
store it in `output`. -/
def blendInto (overlay : LocalOverlay) (source output : PixelSurface)
    (index : Nat) : SurfaceRes PixelSurface := do
  let luma ← Res.orPanic overlay.luma[index]?
  let alpha ← Res.orPanic overlay.alpha[index]?
  let pixel ← Res.orPanic (source.loadPixels index 1)
  Res.orPanic (output.storePixels index
    (blendPixel source.format pixel luma alpha))

def compose (self : PixelSurface) (overlay : LocalOverlay) :
    SurfaceRes PixelSurface := do
  let len ← pixelLen self.width self.height
  if overlay.len ≠ len then .error .badOverlay
  else if overlay.transparent then .ok self
  else (List.range len).foldlM (blendInto overlay self) self

def blendRegion (overlay : LocalOverlay) (surface : PixelSurface)
    (rect : Rect) : SurfaceRes PixelSurface := do
  validateRect surface.width surface.height rect
  (rowsOf rect).foldlM (fun surface y =>
    (List.range' rect.x rect.width).foldlM (fun surface x => do
      let index := y * surface.width + x
      let alpha ← Res.orPanic overlay.alpha[index]?
      if alpha = 0 then .ok surface
      else blendInto overlay surface surface index) surface) surface

def blendRegions (self : PixelSurface) (overlay : LocalOverlay)
    (regions : List Rect) : SurfaceRes PixelSurface :=
  if overlay.transparent then .ok self
  else if overlay.len ≠ self.width * self.height then .error .badOverlay
  else regions.foldlM (blendRegion overlay) self

/-- One row of `compose_regions_into`: an uncovered row is copied whole. -/
def composeRow (overlay : LocalOverlay) (source output : PixelSurface)
    (left count : Nat) : SurfaceRes PixelSurface := do
  let covers ← Res.orPanic (Buffer.slice overlay.alpha left count)
  if covers.all (· == 0) then
    let row ← Res.orPanic (source.loadPixels left count)
    Res.orPanic (output.storePixels left row)
  else
    (List.range' left count).foldlM (blendInto overlay source) output

def composeRegion (overlay : LocalOverlay) (source output : PixelSurface)
    (rect : Rect) : SurfaceRes PixelSurface := do
  validateRect source.width source.height rect
  (rowsOf rect).foldlM (fun output y =>
    composeRow overlay source output (y * source.width + rect.x) rect.width)
    output

def composeRegionsInto (self : PixelSurface) (overlay : LocalOverlay)
    (output : PixelSurface) (regions : List Rect) : SurfaceRes PixelSurface := do
  if output.sameShape self then
    let len ← pixelLen self.width self.height
    if overlay.len ≠ len then .error .badOverlay
    else if overlay.transparent then output.copyRegionsFrom self regions
    else regions.foldlM (composeRegion overlay self) output
  else .error .badLength

end PixelSurface

end RmDisplay.Core
