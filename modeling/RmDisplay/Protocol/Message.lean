import RmDisplay.Foundation.Integer

/-!
# Messages of the display protocol

The messages a receiver and a producer exchange, with the fields some modelled
function reads or writes.  Enumerated fields travel as plain integers, so a
message may carry a value no enumeration has.
-/

namespace RmDisplay.Protocol

abbrev Bytes := List UInt8

/-- An enumeration with its numbers on the wire. -/
class WireEnum (E : Type) where
  values : List E
  wire : E → Int

export WireEnum (wire)

/-- The value with a wire number, if there is one. -/
def tryFrom (E : Type) [WireEnum E] (number : Int) : Option E :=
  (WireEnum.values (E := E)).find? fun value => wire value == number

inductive ProtocolFeature where
  | atomicMultiRegion | exactBaseDelta | latestSupersede | settledBarrier
  | pointerInput | keyInput | textInput | actions
  | epaperProfileControl | epaperRefreshControl | colorRgb565 | byteCredits
  | epaperCustomProfile | remoteOverlay | localInk
deriving DecidableEq, Repr

instance : WireEnum ProtocolFeature where
  values := [.atomicMultiRegion, .exactBaseDelta, .latestSupersede,
    .settledBarrier, .pointerInput, .keyInput, .textInput, .actions,
    .epaperProfileControl, .epaperRefreshControl, .colorRgb565, .byteCredits,
    .epaperCustomProfile, .remoteOverlay, .localInk]
  wire
    | .atomicMultiRegion => 1
    | .exactBaseDelta => 2
    | .latestSupersede => 3
    | .settledBarrier => 4
    | .pointerInput => 5
    | .keyInput => 6
    | .textInput => 7
    | .actions => 8
    | .epaperProfileControl => 9
    | .epaperRefreshControl => 10
    | .colorRgb565 => 11
    | .byteCredits => 12
    | .epaperCustomProfile => 13
    | .remoteOverlay => 14
    | .localInk => 15

inductive ProducerKind where
  | unspecified | androidCompanion | androidMirror | browser | linuxCli
  | document
deriving DecidableEq, Repr

instance : WireEnum ProducerKind where
  values := [.unspecified, .androidCompanion, .androidMirror, .browser,
    .linuxCli, .document]
  wire
    | .unspecified => 0
    | .androidCompanion => 1
    | .androidMirror => 2
    | .browser => 3
    | .linuxCli => 4
    | .document => 5

inductive PixelFormat where
  | unspecified | gray8 | gray4 | rgb565Le
deriving DecidableEq, Repr

instance : WireEnum PixelFormat where
  values := [.unspecified, .gray8, .gray4, .rgb565Le]
  wire
    | .unspecified => 0
    | .gray8 => 1
    | .gray4 => 2
    | .rgb565Le => 3

inductive Encoding where
  | unspecified | raw | zlib | zstd
deriving DecidableEq, Repr

instance : WireEnum Encoding where
  values := [.unspecified, .raw, .zlib, .zstd]
  wire
    | .unspecified => 0
    | .raw => 1
    | .zlib => 2
    | .zstd => 3

inductive Orientation where
  | unspecified | current | portrait | landscape
deriving DecidableEq, Repr

instance : WireEnum Orientation where
  values := [.unspecified, .current, .portrait, .landscape]
  wire
    | .unspecified => 0
    | .current => 1
    | .portrait => 2
    | .landscape => 3

inductive SourceKind where
  | unspecified | screenMirror | browser | linuxStream | document | testPattern
deriving DecidableEq, Repr

instance : WireEnum SourceKind where
  values := [.unspecified, .screenMirror, .browser, .linuxStream, .document,
    .testPattern]
  wire
    | .unspecified => 0
    | .screenMirror => 1
    | .browser => 2
    | .linuxStream => 3
    | .document => 4
    | .testPattern => 5

inductive InputCapability where
  | unspecified | touch | pen | mouse | key | text
deriving DecidableEq, Repr

instance : WireEnum InputCapability where
  values := [.unspecified, .touch, .pen, .mouse, .key, .text]
  wire
    | .unspecified => 0
    | .touch => 1
    | .pen => 2
    | .mouse => 3
    | .key => 4
    | .text => 5

inductive FrameIntent where
  | unspecified | latest | settled
deriving DecidableEq, Repr

instance : WireEnum FrameIntent where
  values := [.unspecified, .latest, .settled]
  wire
    | .unspecified => 0
    | .latest => 1
    | .settled => 2

inductive ContentClass where
  | unspecified | textUi | photo | video | mixed
deriving DecidableEq, Repr

instance : WireEnum ContentClass where
  values := [.unspecified, .textUi, .photo, .video, .mixed]
  wire
    | .unspecified => 0
    | .textUi => 1
    | .photo => 2
    | .video => 3
    | .mixed => 4

inductive FrameResultCode where
  | unspecified | presented | superseded | needKeyframe | rejected
deriving DecidableEq, Repr

instance : WireEnum FrameResultCode where
  values := [.unspecified, .presented, .superseded, .needKeyframe, .rejected]
  wire
    | .unspecified => 0
    | .presented => 1
    | .superseded => 2
    | .needKeyframe => 3
    | .rejected => 4

inductive FrameResultReason where
  | none | wrongSurface | badBase | badRegion | badLength | badCrc | unsupported
  | noCredit | backendFailure | protocolState | inkFrozen
deriving DecidableEq, Repr

instance : WireEnum FrameResultReason where
  values := [.none, .wrongSurface, .badBase, .badRegion, .badLength, .badCrc,
    .unsupported, .noCredit, .backendFailure, .protocolState, .inkFrozen]
  wire
    | .none => 0
    | .wrongSurface => 1
    | .badBase => 2
    | .badRegion => 3
    | .badLength => 4
    | .badCrc => 5
    | .unsupported => 6
    | .noCredit => 7
    | .backendFailure => 8
    | .protocolState => 9
    | .inkFrozen => 10

/-- Why the receiver chose a complete refresh, for the core and on the wire. -/
inductive FullRefreshReason where
  | none | partialDisabled | forced | firstFrame | periodic | largeDamage
  | staticFastDebt
deriving DecidableEq, Repr

instance : WireEnum FullRefreshReason where
  values := [.none, .partialDisabled, .forced, .firstFrame, .periodic,
    .largeDamage, .staticFastDebt]
  wire
    | .none => 0
    | .partialDisabled => 1
    | .forced => 2
    | .firstFrame => 3
    | .periodic => 4
    | .largeDamage => 5
    | .staticFastDebt => 6

inductive PointerDevice where
  | unspecified | touch | pen | mouse
deriving DecidableEq, Repr

instance : WireEnum PointerDevice where
  values := [.unspecified, .touch, .pen, .mouse]
  wire
    | .unspecified => 0
    | .touch => 1
    | .pen => 2
    | .mouse => 3

inductive PointerPhase where
  | unspecified | down | move | up | cancel | hover
deriving DecidableEq, Repr

instance : WireEnum PointerPhase where
  values := [.unspecified, .down, .move, .up, .cancel, .hover]
  wire
    | .unspecified => 0
    | .down => 1
    | .move => 2
    | .up => 3
    | .cancel => 4
    | .hover => 5

inductive EpaperProfile where
  | unspecified | animate | balanced | quality | realtime | reading | custom
deriving DecidableEq, Repr

instance : WireEnum EpaperProfile where
  values := [.unspecified, .animate, .balanced, .quality, .realtime, .reading,
    .custom]
  wire
    | .unspecified => 0
    | .animate => 1
    | .balanced => 2
    | .quality => 3
    | .realtime => 4
    | .reading => 5
    | .custom => 6

inductive EpaperWaveform where
  | unspecified | fastest | fast | quality
deriving DecidableEq, Repr

instance : WireEnum EpaperWaveform where
  values := [.unspecified, .fastest, .fast, .quality]
  wire
    | .unspecified => 0
    | .fastest => 1
    | .fast => 2
    | .quality => 3

inductive EpaperProfileOperation where
  | unspecified | query | set
deriving DecidableEq, Repr

instance : WireEnum EpaperProfileOperation where
  values := [.unspecified, .query, .set]
  wire
    | .unspecified => 0
    | .query => 1
    | .set => 2

inductive EpaperProfileResultCode where
  | unspecified | applied | unchanged | rejected | unsupported
deriving DecidableEq, Repr

instance : WireEnum EpaperProfileResultCode where
  values := [.unspecified, .applied, .unchanged, .rejected, .unsupported]
  wire
    | .unspecified => 0
    | .applied => 1
    | .unchanged => 2
    | .rejected => 3
    | .unsupported => 4

inductive EpaperRefreshOperation where
  | unspecified | query | update | cleanup
deriving DecidableEq, Repr

instance : WireEnum EpaperRefreshOperation where
  values := [.unspecified, .query, .update, .cleanup]
  wire
    | .unspecified => 0
    | .query => 1
    | .update => 2
    | .cleanup => 3

inductive EpaperRefreshResultCode where
  | unspecified | applied | unchanged | rejected | unsupported | failed
deriving DecidableEq, Repr

instance : WireEnum EpaperRefreshResultCode where
  values := [.unspecified, .applied, .unchanged, .rejected, .unsupported,
    .failed]
  wire
    | .unspecified => 0
    | .applied => 1
    | .unchanged => 2
    | .rejected => 3
    | .unsupported => 4
    | .failed => 5

structure Rect where
  x : Nat
  y : Nat
  width : Nat
  height : Nat
deriving DecidableEq, Repr

namespace Rect

/-- The pixel `(column, row)` lies in the rectangle. -/
def Covers (rect : Rect) (column row : Nat) : Prop :=
  (rect.x ≤ column ∧ column < rect.x + rect.width) ∧
    (rect.y ≤ row ∧ row < rect.y + rect.height)

instance (rect : Rect) (column row : Nat) : Decidable (rect.Covers column row) :=
  inferInstanceAs (Decidable (_ ∧ _))

/-- The rectangle is nonempty and lies on a surface of the given size. -/
structure Inside (rect : Rect) (width height : Nat) : Prop where
  wide : 0 < rect.width
  high : 0 < rect.height
  right : rect.x + rect.width ≤ width
  bottom : rect.y + rect.height ≤ height

theorem Inside.bounds {rect : Rect} {width height column row : Nat}
    (inside : rect.Inside width height) (covers : rect.Covers column row) :
    column < width ∧ row < height := by
  obtain ⟨_, _, right, bottom⟩ := inside
  obtain ⟨⟨_, _⟩, _, _⟩ := covers
  omega

end Rect

/-- Some rectangle of the list covers the pixel. -/
def Covered (rects : List Rect) (column row : Nat) : Prop :=
  ∃ rect ∈ rects, rect.Covers column row

instance (rects : List Rect) (column row : Nat) :
    Decidable (Covered rects column row) :=
  inferInstanceAs (Decidable (∃ rect ∈ rects, _))

@[simp] theorem covered_nil {column row : Nat} : ¬ Covered [] column row := by
  simp [Covered]

@[simp] theorem covered_append {left right : List Rect} {column row : Nat} :
    Covered (left ++ right) column row ↔
      Covered left column row ∨ Covered right column row := by
  simp [Covered, or_and_right, exists_or]

@[simp] theorem covered_singleton {rect : Rect} {column row : Nat} :
    Covered [rect] column row ↔ rect.Covers column row := by
  simp [Covered]

structure FrameRegion where
  rect : Option Rect
  encoding : Int
  decodedLen : Nat
  decodedCrc32 : Nat
  data : Bytes
deriving DecidableEq, Repr

structure Frame where
  surfaceId : Nat
  generation : Nat
  frameId : Nat
  baseFrameId : Nat
  intent : Int
  contentClass : Int
  regions : List FrameRegion
deriving DecidableEq, Repr

structure FrameMetrics where
  decodeUs : Nat := 0
  queueUs : Nat := 0
  presentUs : Nat := 0
  composeUs : Nat := 0
  convertUs : Nat := 0
  submitUs : Nat := 0
  damagePixels : Nat := 0
  damageRegions : Nat := 0
  waveform : Nat := 0
  completeRefresh : Bool := false
  fullRefreshReason : Int := 0
deriving DecidableEq, Repr

structure FrameResult where
  surfaceId : Nat
  generation : Nat
  frameId : Nat
  result : Int
  reason : Int
  credits : Nat
  logicalFrameId : Nat
  presentedFrameId : Nat
  metrics : Option FrameMetrics
  byteCredits : Nat
deriving DecidableEq, Repr

structure ClientHello where
  minMinor : Nat
  maxMinor : Nat
  producerKind : Int
  features : List Int
  pixelFormats : List Int
  encodings : List Int
  clientId : Bytes
  token : Bytes
  clientNonce : Bytes
  name : String
deriving DecidableEq, Repr

structure DisplayInfo where
  width : Nat
  height : Nat
  orientation : Int
  pixelFormats : List Int
  encodings : List Int
  inputCapabilities : List Int
deriving DecidableEq, Repr

structure Limits where
  maxPayload : Nat
  maxFrameBytes : Nat
  maxRegions : Nat
  maxInflight : Nat
  maxFpsX100 : Nat
  settledDeadlineMs : Nat
  maxInflightBytes : Nat
deriving DecidableEq, Repr

structure ServerHello where
  selectedMinor : Nat
  features : List Int
  serverId : Bytes
  display : Option DisplayInfo
  limits : Option Limits
  name : String
deriving DecidableEq, Repr

structure SurfaceOpen where
  surfaceId : Nat
  pixelFormat : Int
  sourceKind : Int
  inputCapabilities : List Int
deriving DecidableEq, Repr

structure SurfaceReady where
  surfaceId : Nat
  generation : Nat
  width : Nat
  height : Nat
  pixelFormat : Int
  orientation : Int
  sourceKind : Int
  inputCapabilities : List Int
  actionCapabilities : List Int
  limits : Option Limits
deriving DecidableEq, Repr

structure ProtocolError where
  code : Nat
  fatal : Bool
  relatedMessageId : Nat
  message : String
deriving DecidableEq, Repr

structure PointerRecord where
  device : Int
  phase : Int
  flags : Nat
  contactId : Nat
  x1616 : Nat
  y1616 : Nat
  pressure : Nat
  buttons : Nat
  tiltX : Int
  tiltY : Int
deriving DecidableEq, Repr

structure InputBatch where
  surfaceId : Nat
  generation : Nat
  sequence : Nat
  monotonicUs : Nat
  records : List PointerRecord
  presentedFrameId : Nat
  inkFrozen : Bool
deriving DecidableEq, Repr

structure OverlayUpdate where
  surfaceId : Nat
  generation : Nat
  sequence : Nat
  clear : Bool
  rect : Option Rect
  luma : Bytes
  alpha : Bytes
  localInk : Option Bool
deriving DecidableEq, Repr

structure OverlayResult where
  surfaceId : Nat
  generation : Nat
  sequence : Nat
  applied : Bool
  message : String
  presentedFrameId : Nat
  inkFrozen : Bool
deriving DecidableEq, Repr

structure EpaperProfileConfiguration where
  latestTextWaveform : Int
  latestPhotoWaveform : Int
  latestVideoWaveform : Int
  settledWaveform : Int
  partialRefreshEnabled : Bool
  cleanupAfterUpdates : Nat
  cleanFirstFrame : Bool
  largeUpdateThresholdPercent : Nat
  staticCleanupAfterFastUpdates : Nat
  damageTile : Nat
deriving DecidableEq, Repr

structure EpaperProfileRequest where
  requestId : Nat
  operation : Int
  requestedProfile : Int
  custom : Option EpaperProfileConfiguration
deriving DecidableEq, Repr

structure EpaperProfileState where
  profile : Int
  cleanupAfterUpdates : Nat
  largeUpdateThresholdPercent : Nat
  damageTile : Nat
  cleanFirstFrame : Bool
  staticCleanupAfterFastUpdates : Nat
  effective : Option EpaperProfileConfiguration
deriving DecidableEq, Repr

structure EpaperProfileResult where
  requestId : Nat
  operation : Int
  requestedProfile : Int
  result : Int
  active : Option EpaperProfileState
  cleanupPerformed : Bool
  cleanupPending : Bool
  message : String
deriving DecidableEq, Repr

structure EpaperRefreshRequest where
  requestId : Nat
  operation : Int
  partialRefreshEnabled : Option Bool
  cleanupAfterUpdates : Option Nat
  largeUpdateThresholdPercent : Option Nat
  staticCleanupAfterFastUpdates : Option Nat
deriving DecidableEq, Repr

structure EpaperRefreshState where
  partialRefreshEnabled : Bool
  cleanupAfterUpdates : Nat
  largeUpdateThresholdPercent : Nat
  presentedSinceFullRefresh : Nat
  cleanupPending : Bool
  staticCleanupAfterFastUpdates : Nat
  fastUpdatesSinceSettled : Nat
deriving DecidableEq, Repr

structure EpaperRefreshResult where
  requestId : Nat
  operation : Int
  result : Int
  active : Option EpaperRefreshState
  cleanupPerformed : Bool
  message : String
deriving DecidableEq, Repr

/-- The body of an envelope.  Bodies whose content no modelled function looks
at carry only the fields that are echoed. -/
inductive Body where
  | clientHello (hello : ClientHello)
  | serverHello (hello : ServerHello)
  | ping (cookie : Nat)
  | pong (cookie : Nat)
  | error (error : ProtocolError)
  | goodbye
  | surfaceOpen (request : SurfaceOpen)
  | surfaceReady (ready : SurfaceReady)
  | surfaceClose (surfaceId generation : Nat)
  | frame (frame : Frame)
  | frameResult (result : FrameResult)
  | inputBatch (batch : InputBatch)
  | keyInput
  | textInput
  | actionInvoke (surfaceId generation invocationId : Nat)
  | actionResult (surfaceId generation invocationId : Nat) (status : Int)
      (message : String)
  | epaperProfileRequest (request : EpaperProfileRequest)
  | epaperProfileResult (result : EpaperProfileResult)
  | epaperRefreshRequest (request : EpaperRefreshRequest)
  | epaperRefreshResult (result : EpaperRefreshResult)
  | overlayUpdate (update : OverlayUpdate)
  | overlayResult (result : OverlayResult)
deriving DecidableEq, Repr

structure Envelope where
  sessionId : Nat
  messageId : Nat
  body : Option Body
deriving DecidableEq, Repr

end RmDisplay.Protocol
