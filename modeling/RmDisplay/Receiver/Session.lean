import RmDisplay.Core.Operations
import RmDisplay.Receiver.LocalMenu

/-!
# The receiver session

A session owns the active surface of one connection and the panel under it.
An operation is a procedure on the session: a returned error keeps what was
changed before it.

The decoders, the stop watches and the panel are outside the program, so the
session carries their answers.  The journal is not in the source either: no
code reads it, and the theorems use it to speak about what happened.
-/

namespace RmDisplay.Receiver

open Foundation Protocol RmDisplay.Core

structure ReceiverLimits where
  maxPayload : Nat := 8 * 1024 * 1024
  maxFrameBytes : Nat := 8 * 1024 * 1024
  maxRegions : Nat := 512
  maxInflight : Nat := 2
  maxInflightBytes : Nat := 16 * 1024 * 1024
  maxFpsX100 : Nat := 400
  settledDeadlineMs : Nat := 300
deriving DecidableEq, Repr

structure ReceiverConfig where
  verifyToken : Bytes → Bytes → Bool
  serverId : Vector UInt8 16
  name : String
  limits : ReceiverLimits
  refreshPolicy : RefreshPolicyConfig
  inkWaveform : Waveform
  inputDevice : Option String

inductive ConfigError where
  | zeroServerId
  | invalidLimits
  | invalidRefreshPolicy (err : RefreshConfigError)
  | invalidInkWaveform
deriving DecidableEq, Repr

def ReceiverConfig.validate (self : ReceiverConfig) : Res ConfigError Unit := do
  if self.serverId = Vector.replicate 16 0 then .error .zeroServerId
  else if self.limits.maxInflight = 0 ∨ self.limits.maxInflightBytes = 0 ∨
      self.limits.maxPayload = 0 ∨ self.limits.maxFrameBytes = 0 ∨
      self.limits.maxRegions = 0 then
    .error .invalidLimits
  else
    Res.mapError .invalidRefreshPolicy self.refreshPolicy.validate
    if self.inkWaveform = .fullQuality then .error .invalidInkWaveform
    else .ok ()

/-- `ReservedZeroToken`: exactly 32 zero bytes. -/
def reservedZeroToken (_clientId token : Bytes) : Bool :=
  token.length == 32 && token.all (· == 0)

inductive SessionError where
  | expectedClientHello
  | missingBody
  | badMessageOrder
  | badSession
  | illegalDirection
  | noCommonVersion
  | badHello (problem : String)
  | missingCapability
  | authentication
  | badSurface (problem : String)
  | core (err : CoreError)
  | panel
  | surface (err : SurfaceError)
deriving DecidableEq, Repr

structure ActiveSurface where
  surfaceId : Nat
  generation : Nat
  touchForwardingEnabled : Bool
  penForwardingEnabled : Bool
  localInk : Bool
  inkFrozen : Bool
  penPoint : Option (Nat × Nat)
  lastPen : Option PointerRecord
  penNeedsDown : Bool
  inkPaused : Bool
  inkNeedsDown : Bool
  inkNotBefore : Duration
  core : DisplayCore

def ActiveSurface.rearmInk (self : ActiveSurface) (now : Duration) :
    ActiveSurface :=
  { self with
    penPoint := none
    inkNeedsDown := true
    inkNotBefore := max self.inkNotBefore now }

/-- What the receiver shows while no surface is open. -/
structure LocalFallback where
  base : PixelSurface
  overlay : LocalOverlay

/-- The readings of the stop watches around one call of the core. -/
structure Stopwatch where
  decodeElapsed : Duration := 0
  applyElapsed : Duration := 0
  composeElapsed : Duration := 0
  presentElapsed : Duration := 0
deriving DecidableEq, Repr

def Stopwatch.timing (self : Stopwatch) (now : Duration) : Timing where
  now
  applyElapsed := self.applyElapsed
  composeElapsed := self.composeElapsed
  presentElapsed := self.presentElapsed

/-- Why a cleanup was asked for; `offscreen` is a profile chosen in the menu
while no surface was active. -/
inductive CleanupCause where
  | request | chord | profile | offscreen | idle
deriving DecidableEq, Repr

/-- One segment of local ink. -/
structure InkSegment where
  origin : Nat × Nat
  target : Nat × Nat
  radius : Nat
  erase : Bool
deriving DecidableEq, Repr

/-- What decides whether and where a record of the pen draws. -/
structure PenContext where
  localInk : Bool
  presentedFrameId : Nat
  notBefore : Duration
  width : Nat
  height : Nat
deriving DecidableEq, Repr

def ActiveSurface.penContext (self : ActiveSurface) : PenContext where
  localInk := self.localInk
  presentedFrameId := self.core.presentedFrameId
  notBefore := self.inkNotBefore
  width := self.core.width
  height := self.core.height

/-- What the theorems remember of a session. -/
inductive JournalEntry where
  /-- A new surface, with its blank ink plane.  It is `stale` if it starts with
  a cleanup that was not pending any more. -/
  | opened (surfaceId generation : Nat) (ink : Planes) (stale : Bool)
  | closed
  /-- From when on input is current. -/
  | clocked (notBefore : Duration)
  | accepted (frame : Frame) (validated : ValidatedFrame)
  | refused (frame : Frame)
  | asked (cause : CleanupCause)
  /-- An envelope, with the frame that was pending when it was built. -/
  | sent (body : Body) (pending : Option PendingPresentation)
  /-- Ink starts anew, and is paused or not. -/
  | boundary (since : Duration) (paused : Bool)
  /-- The records of a pen report that reached the surface. -/
  | penKept (records : List PointerRecord)
  /-- A pen record, the segment it drew, what decided that, and the ink plane
  it left. -/
  | penned (captured : Duration) (physical : Bool) (record : PointerRecord)
      (segment : Option InkSegment) (context : PenContext) (ink : Planes)
  | inkCleared (ink : Planes)
  /-- The background is frozen, with the frame it shows. -/
  | froze (presentedFrameId : Nat) (background : PixelSurface)
  /-- The background is no longer frozen. -/
  | released
  /-- A touch report and what the gesture recognizer made of it. -/
  | touched (captured : Duration) (report : List PhysicalPointerEvent)
      (result : TouchGestureResult)
  /-- The contacts were detached from the producer. -/
  | detached
  | menu (visible : Bool)
  | captureLost
deriving DecidableEq

/-- An entry with the number of panel calls made before it. -/
structure JournalRecord where
  calls : Nat
  entry : JournalEntry
deriving DecidableEq

structure Session where
  config : ReceiverConfig
  panel : Panel
  sessionId : Nat
  established : Bool
  closed : Bool
  receiverExitRequested : Bool
  pairingResetRequested : Bool
  lastIncomingMessageId : Nat
  nextOutgoingMessageId : Nat
  nextGeneration : Nat
  nextInputSequence : Nat
  inputNotBefore : Duration
  lastProfileRequestId : Nat
  lastRefreshRequestId : Nat
  profileControlEnabled : Bool
  customProfileControlEnabled : Bool
  refreshControlEnabled : Bool
  selectedMinor : Nat
  penAvailable : Bool
  pointerInputEnabled : Bool
  remoteOverlayEnabled : Bool
  localInkControlEnabled : Bool
  overlaySequence : Nat
  negotiatedEncodings : List Int
  colorRgb565Enabled : Bool
  byteCreditsEnabled : Bool
  cleanupPendingWithoutSurface : Bool
  refreshDebtWithoutSurface : RefreshDebt
  touchGesture : FiveFingerCleanupGesture
  lastInteraction : Duration
  physicalPenInProximity : Bool
  freezeOnPenDown : Bool
  automaticIdleCleanup : Bool
  localMenu : LocalMenu
  lastCustomProfile : Option RefreshPolicyConfig
  surface : Option ActiveSurface
  fallback : Option LocalFallback
  codecs : Codecs
  stopwatch : Nat → Stopwatch
  readings : Nat
  journal : List JournalRecord

/-- What a session is started with. -/
structure SessionSetup where
  config : ReceiverConfig
  panel : Panel
  /-- Drawn at random in the source. -/
  sessionId : Nat
  fallback : Option PixelSurface
  codecs : Codecs
  stopwatch : Nat → Stopwatch

namespace SessionSetup

/-- A transparent plane over the fallback, whose geometry was validated. -/
def newFallback (setup : SessionSetup) :
    Res SessionError (Option LocalFallback) :=
  match setup.fallback with
  | none => .ok none
  | some base =>
      match LocalOverlay.newTransparent base.width base.height with
      | .ok overlay => .ok (some { base, overlay })
      | .error _ | .panic => .panic

/-- `Session::new_with_fallback`. -/
def newSession (setup : SessionSetup) : Res SessionError Session := do
  let fallback ← setup.newFallback
  return { config := setup.config
           panel := setup.panel
           sessionId := setup.sessionId
           established := false
           closed := false
           receiverExitRequested := false
           pairingResetRequested := false
           lastIncomingMessageId := 0
           nextOutgoingMessageId := 1
           nextGeneration := 1
           nextInputSequence := 1
           inputNotBefore := 0
           lastProfileRequestId := 0
           lastRefreshRequestId := 0
           profileControlEnabled := false
           customProfileControlEnabled := false
           refreshControlEnabled := false
           selectedMinor := 0
           penAvailable := false
           pointerInputEnabled := false
           remoteOverlayEnabled := false
           localInkControlEnabled := false
           overlaySequence := 0
           negotiatedEncodings := []
           colorRgb565Enabled := false
           byteCreditsEnabled := false
           cleanupPendingWithoutSurface := false
           refreshDebtWithoutSurface := {}
           touchGesture := {}
           lastInteraction := 0
           physicalPenInProximity := false
           freezeOnPenDown := true
           automaticIdleCleanup := true
           localMenu := {}
           lastCustomProfile := none
           surface := none
           fallback
           codecs := setup.codecs
           stopwatch := setup.stopwatch
           readings := 0
           journal := [] }

end SessionSetup

abbrev SessionProc (α : Type) := Proc Session SessionError α

/-- The next message id, generation or sequence number; zero is skipped. -/
def nextNumber (bound number : Nat) : Nat :=
  max (Bounded.wrappingSucc bound number) 1

namespace Session

/-- The frame pending on the active surface. -/
def pendingFrame (self : Session) : Option PendingPresentation :=
  self.surface.bind (·.core.pending)

def credits (self : Session) : Nat :=
  self.config.limits.maxInflight -
    if (self.surface.any (·.core.pending.isSome)) then 1 else 0

def byteCredits (self : Session) : Nat :=
  if !self.byteCreditsEnabled then 0
  else
    self.config.limits.maxInflightBytes -
      (self.surface.map (·.core.pendingBytes)).getD 0

def protocolLimits (self : Session) : Limits :=
  let limits := self.config.limits
  { maxPayload := limits.maxPayload
    maxFrameBytes := limits.maxFrameBytes
    maxRegions := limits.maxRegions
    maxInflight := limits.maxInflight
    maxFpsX100 := limits.maxFpsX100
    settledDeadlineMs := limits.settledDeadlineMs
    maxInflightBytes :=
      if self.byteCreditsEnabled then limits.maxInflightBytes else 0 }

def inputCapabilities (touch pen : Bool) : List Int :=
  (if touch then [wire InputCapability.touch] else []) ++
    (if pen then [wire InputCapability.pen] else [])

def currentCleanupPending (self : Session) : Bool :=
  match self.surface with
  | none => self.cleanupPendingWithoutSurface
  | some surface => surface.core.forceCleanupNext

/-- Write an entry into the journal. -/
def note (self : Session) (entry : JournalEntry) : Session :=
  { self with journal := ⟨self.panel.calls.length, entry⟩ :: self.journal }

/-- Write down whether the background was frozen or released. -/
def noteFrozen (self : Session) (before after : ActiveSurface) : Session :=
  match before.inkFrozen, after.inkFrozen with
  | false, true =>
      self.note (.froze after.core.presentedFrameId after.core.presentedBase)
  | true, false => self.note .released
  | true, true | false, false => self

def wrap (body : Body) : SessionProc Envelope := do
  let session ← Proc.get
  let messageId := max session.nextOutgoingMessageId 1
  Proc.set { session.note (.sent body session.pendingFrame) with
    nextOutgoingMessageId := nextNumber u32Max messageId }
  return { sessionId := session.sessionId, messageId, body := some body }

def frameMetrics (metrics : PresentationMetrics) : FrameMetrics where
  decodeUs := metrics.decodeUs
  queueUs := metrics.queueUs
  presentUs := metrics.presentUs
  composeUs := metrics.composeUs
  convertUs := metrics.convertUs
  submitUs := metrics.submitUs
  damagePixels := metrics.damagePixels
  damageRegions := metrics.damageRegions
  waveform := metrics.waveform
  completeRefresh := metrics.completeRefresh
  fullRefreshReason := wire metrics.fullRefreshReason

/-- A result code with its reason. -/
structure Verdict where
  result : FrameResultCode
  reason : FrameResultReason
deriving DecidableEq, Repr

/-- Which frame of which surface a result is about. -/
structure FrameKey where
  surfaceId : Nat
  generation : Nat
  frameId : Nat
deriving DecidableEq, Repr

def frameResult (key : FrameKey) (verdict : Verdict)
    (logicalFrameId presentedFrameId : Nat)
    (metrics : Option PresentationMetrics) : SessionProc Envelope := do
  let session ← Proc.get
  wrap (.frameResult
    { surfaceId := key.surfaceId
      generation := key.generation
      frameId := key.frameId
      result := wire verdict.result
      reason := wire verdict.reason
      credits := session.credits
      logicalFrameId
      presentedFrameId
      metrics := some ((metrics.map frameMetrics).getD {})
      byteCredits := session.byteCredits })

def outcomeVerdict (inkFrozen : Bool) : PresentationOutcome → Verdict
  | .presented => ⟨.presented, .none⟩
  | .superseded => ⟨.superseded, .none⟩
  | .cancelled =>
      ⟨.rejected, if inkFrozen then .inkFrozen else .protocolState⟩
  | .backendFailure => ⟨.rejected, .backendFailure⟩

/-- Identifiers of the active surface and its logical and presented frame. -/
def surfaceIds (self : Session) : (Nat × Nat) × Nat × Nat :=
  match self.surface with
  | none => ((0, 0), 0, 0)
  | some surface =>
      ((surface.surfaceId, surface.generation), surface.core.logicalFrameId,
        surface.core.presentedFrameId)

def terminalResult (terminal : TerminalFrame) : SessionProc Envelope := do
  let session ← Proc.get
  let ((surfaceId, generation), logical, presented) := session.surfaceIds
  frameResult ⟨surfaceId, generation, terminal.frameId⟩
    (outcomeVerdict (session.surface.any (·.inkFrozen)) terminal.outcome)
    logical presented (some terminal.metrics)

def terminalResults (terminals : List TerminalFrame) :
    SessionProc (List Envelope) :=
  Proc.gather (fun terminal => do return [← terminalResult terminal]) terminals

def immediateFrameResult (frame : Frame) (verdict : Verdict) :
    SessionProc Envelope := do
  let session ← Proc.get
  let (_, logical, presented) := session.surfaceIds
  frameResult ⟨frame.surfaceId, frame.generation, frame.frameId⟩ verdict
    logical presented none

/-- Read the stop watches. -/
def readStopwatch : SessionProc Stopwatch := do
  let session ← Proc.get
  Proc.set { session with readings := session.readings + 1 }
  return session.stopwatch session.readings

/-- Run an operation of the core on the panel.  Callers know that there is an
active surface. -/
def runCore {α : Type} (now : Duration)
    (operation : Timing → Core.DisplayCore.CoreProc α) : SessionProc α := do
  let stopwatch ← readStopwatch
  let session ← Proc.get
  match session.surface with
  | none => Proc.panic
  | some surface =>
      Proc.zoom (fun session => ⟨surface.core, session.panel⟩)
        (fun world session => { session with
          panel := world.panel
          surface := some { surface with core := world.core } })
        .core (operation (stopwatch.timing now))

/-- Run an operation that is about to ask for a cleanup, and note that. -/
def askCore {α : Type} (cause : CleanupCause) (asks : Bool) (now : Duration)
    (operation : Timing → Core.DisplayCore.CoreProc α) : SessionProc α := do
  Proc.modify fun session =>
    if asks then session.note (.asked cause) else session
  runCore now operation

/-- Give up the pending frame of the active surface. -/
def cancelPending : SessionProc (Option TerminalFrame) := do
  let session ← Proc.get
  match session.surface with
  | none => return none
  | some surface =>
      let (terminal, core) := surface.core.cancelPending
      Proc.set { session with surface := some { surface with core } }
      return terminal

def semanticResult : SemanticError → Verdict
  | .badBase _ _ => ⟨.needKeyframe, .badBase⟩
  | .wrongSurface => ⟨.rejected, .wrongSurface⟩
  | .badDecodedLength => ⟨.rejected, .badLength⟩
  | .badCrc => ⟨.rejected, .badCrc⟩
  | .unsupported => ⟨.rejected, .unsupported⟩
  | .frameTooLarge => ⟨.rejected, .badLength⟩
  | .badFrameId | .badIntent => ⟨.rejected, .protocolState⟩
  | .badRegionCount | .badRegion | .regionOverlap | .badKeyframe
  | .decompression => ⟨.rejected, .badRegion⟩

def commitResult : CoreError → Verdict
  | .needKeyframe => ⟨.needKeyframe, .badBase⟩
  | .settledBarrier => ⟨.rejected, .protocolState⟩
  | .surface _ | .refreshConfig _ | .badFrameId | .pixelFormat | .panel =>
      ⟨.rejected, .badRegion⟩

/-- What the regions claim to decode to. -/
def decodedCost (frame : Frame) : Option Nat :=
  frame.regions.foldlM (fun total region =>
    Bounded.checkedAdd u64Max total region.decodedLen) 0

def surfaceState (self : Session) (surface : ActiveSurface) : SurfaceState where
  surfaceId := surface.surfaceId
  generation := surface.generation
  width := surface.core.width
  height := surface.core.height
  pixelFormat := surface.core.base.format
  logicalFrameId := surface.core.logicalFrameId
  maxRegions := self.config.limits.maxRegions
  maxFrameBytes := self.config.limits.maxFrameBytes

/-- The checks of `accept_frame` before the core sees the frame. -/
def admitFrame (self : Session) (frame : Frame) :
    Except Verdict (ActiveSurface × ValidatedFrame) :=
  if self.surface.any (·.inkFrozen) then .error ⟨.rejected, .inkFrozen⟩
  else if frame.regions.any fun region =>
      !self.negotiatedEncodings.contains region.encoding then
    .error ⟨.rejected, .unsupported⟩
  else if self.credits = 0 then .error ⟨.rejected, .noCredit⟩
  else
    match decodedCost frame with
    | none => .error ⟨.rejected, .badLength⟩
    | some cost =>
        if self.byteCreditsEnabled ∧ self.byteCredits < cost then
          .error ⟨.rejected, .noCredit⟩
        else
          match self.surface with
          | none => .error ⟨.rejected, .protocolState⟩
          | some surface =>
              match validateAndDecodeFrame self.codecs frame
                  (self.surfaceState surface) with
              | .error err => .error (semanticResult err)
              | .ok validated => .ok (surface, validated)

def contentClass (number : Int) : ContentClass :=
  match tryFrom ContentClass number with
  | none | some .unspecified => .mixed
  | some known => known

/-- Answer a frame at once. -/
def refuseFrame (frame : Frame) (verdict : Verdict) :
    SessionProc (List Envelope) := do
  Proc.modify fun session => session.note (.refused frame)
  return [← immediateFrameResult frame verdict]

def acceptFrame (frame : Frame) (now : Duration) :
    SessionProc (List Envelope) := do
  let session ← Proc.get
  match session.admitFrame frame with
  | .error verdict => refuseFrame frame verdict
  | .ok (surface, validated) =>
      let stopwatch ← readStopwatch
      match surface.core.commitTimed validated (contentClass frame.contentClass)
          (stopwatch.timing now) (durationUs stopwatch.decodeElapsed) with
      | .ok (report, core) =>
          Proc.modify fun session =>
            { session.note (.accepted frame validated) with
              surface := some { surface with core } }
          terminalResults report.superseded.toList
      | .error err => refuseFrame frame (commitResult err)
      | .panic => Proc.panic

/-- Is a cleanup to be carried to the next surface? -/
def carryCleanup (self : Session) : Bool :=
  self.cleanupPendingWithoutSurface ||
    self.surface.any (·.core.forceCleanupNext)

/-- The debt of the active surface, or the one kept without a surface. -/
def carryDebt (self : Session) : RefreshDebt :=
  match self.surface with
  | none => self.refreshDebtWithoutSurface
  | some surface => surface.core.refreshDebt

/-- A fresh core that carries on the cleanup and the debt of the last one. -/
def newCore (self : Session) (pixelFormat : PixelFormat) :
    Res CoreError DisplayCore := do
  let core ← DisplayCore.newWithFormat self.panel.info.width
    self.panel.info.height pixelFormat self.config.limits.maxFpsX100
    (.ofMillis self.config.limits.settledDeadlineMs) self.config.refreshPolicy
  let core := core.setInkWaveform self.config.inkWaveform
  let core := if self.carryCleanup then core.requireCleanup else core
  core.restoreRefreshDebt self.carryDebt

/-- Surface transition of the touch panel, which also closes the menu. -/
def leaveSurface (self : Session) : Session :=
  { self with
    touchGesture := self.touchGesture.surfaceTransition.2
    localMenu := self.localMenu.close }

def installSurface (request : SurfaceOpen) (pixelFormat : PixelFormat)
    (sourceKind : SourceKind) : SessionProc (List Envelope) := do
  let session ← Proc.get
  let generation := max session.nextGeneration 1
  Proc.set { session with nextGeneration := nextNumber u32Max generation }
  let core ← Proc.ofRes .core (session.newCore pixelFormat)
  Proc.modify fun after => { after with
    cleanupPendingWithoutSurface := session.carryCleanup
    refreshDebtWithoutSurface := session.carryDebt }
  let cancelled ← cancelPending
  let responses ← terminalResults cancelled.toList
  let touchForwardingEnabled := session.pointerInputEnabled &&
    session.config.inputDevice.isSome &&
    request.inputCapabilities.contains (wire InputCapability.touch)
  let penForwardingEnabled := session.pointerInputEnabled &&
    session.penAvailable &&
    request.inputCapabilities.contains (wire InputCapability.pen)
  Proc.modify fun after =>
    { after.leaveSurface.note
        (.opened request.surfaceId generation core.ink.planes
          (core.forceCleanupNext && !after.currentCleanupPending)) with
      surface := some
        { surfaceId := request.surfaceId
          generation
          touchForwardingEnabled
          penForwardingEnabled
          localInk := false
          inkFrozen := false
          penPoint := none
          lastPen := none
          penNeedsDown := true
          inkPaused := false
          inkNeedsDown := true
          inkNotBefore := after.inputNotBefore
          core } }
  let ready ← wrap (.surfaceReady
    { surfaceId := request.surfaceId
      generation
      width := session.panel.info.width
      height := session.panel.info.height
      pixelFormat := wire pixelFormat
      orientation := wire Orientation.current
      sourceKind := wire sourceKind
      inputCapabilities :=
        inputCapabilities touchForwardingEnabled penForwardingEnabled
      actionCapabilities := []
      limits := some session.protocolLimits })
  return responses ++ [ready]

def openSurface (request : SurfaceOpen) : SessionProc (List Envelope) := do
  let session ← Proc.get
  if request.surfaceId = 0 then
    Proc.throw (.badSurface "surface_id must be nonzero")
  else
    match tryFrom PixelFormat request.pixelFormat with
    | none => Proc.throw (.badSurface "unknown pixel format")
    | some pixelFormat =>
        if pixelFormat ≠ .gray8 ∧
            ¬ (pixelFormat = .rgb565Le ∧ session.colorRgb565Enabled) then
          Proc.throw (.badSurface "pixel format was not negotiated")
        else
          match tryFrom SourceKind request.sourceKind with
          | none => Proc.throw (.badSurface "unknown source kind")
          | some sourceKind => installSurface request pixelFormat sourceKind

def closeSurface (surfaceId generation : Nat) : SessionProc (List Envelope) := do
  let session ← Proc.get
  if !session.surface.any fun surface =>
      surface.surfaceId == surfaceId && surface.generation == generation then
    return []
  else
    let cancelled ← cancelPending
    Proc.modify fun after => { after with
      cleanupPendingWithoutSurface :=
        after.surface.any (·.core.forceCleanupNext)
      refreshDebtWithoutSurface := after.carryDebt }
    let responses ← terminalResults cancelled.toList
    Proc.modify fun after =>
      { after.leaveSurface.note .closed with surface := none }
    return responses

end Session

end RmDisplay.Receiver
