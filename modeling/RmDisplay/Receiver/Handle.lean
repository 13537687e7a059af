import RmDisplay.Receiver.Input

/-!
# Runs of a session

The handshake, the dispatch of envelopes, and the public operations of a
session as inputs of a machine.  An operation that panics has no next state,
so a run ends there; an operation that returns an error goes on from the state
the error left.
-/

namespace RmDisplay.Receiver

open Foundation Protocol RmDisplay.Core

def maxMinor : Nat := 3

def mandatoryFeatures : List ProtocolFeature :=
  [.atomicMultiRegion, .exactBaseDelta, .latestSupersede, .settledBarrier]

/-- Does a hello offer a feature? -/
def offers (hello : ClientHello) (feature : ProtocolFeature) : Bool :=
  hello.features.contains (wire feature)

def validateHello (hello : ClientHello) (config : ReceiverConfig) :
    Res SessionError Unit :=
  if hello.maxMinor < hello.minMinor ∨ maxMinor < hello.minMinor then
    .error .noCommonVersion
  else if hello.clientId.length ≠ 16 ∨ hello.token.length ≠ 32 ∨
      hello.clientNonce.length ≠ 16 then
    .error (.badHello "invalid client id, token, or nonce length")
  else if tryFrom ProducerKind hello.producerKind = some .unspecified ∨
      tryFrom ProducerKind hello.producerKind = none then
    .error (.badHello "producer kind is unspecified")
  else if !mandatoryFeatures.all (offers hello) ∨
      !hello.pixelFormats.contains (wire PixelFormat.gray8) ∨
      !hello.encodings.contains (wire Encoding.raw) then
    .error .missingCapability
  else if !config.verifyToken hello.clientId hello.token then
    .error .authentication
  else .ok ()

def selectMinor (hello : ClientHello) : Res SessionError Nat :=
  if 3 ≤ hello.maxMinor ∧ hello.minMinor ≤ 3 ∧
      [ProtocolFeature.byteCredits, .epaperCustomProfile,
        .remoteOverlay].all (offers hello) then .ok 3
  else if 2 ≤ hello.maxMinor ∧ hello.minMinor ≤ 2 ∧
      offers hello .byteCredits ∧ offers hello .epaperCustomProfile then .ok 2
  else if 1 ≤ hello.maxMinor ∧ hello.minMinor ≤ 1 ∧
      offers hello .byteCredits then .ok 1
  else if hello.minMinor = 0 then .ok 0
  else .error .missingCapability

namespace Session

/-- The session after a hello for the selected minor version. -/
def negotiated (self : Session) (hello : ClientHello) (selectedMinor : Nat) :
    Session :=
  let remoteOverlayEnabled :=
    decide (3 ≤ selectedMinor) && offers hello .remoteOverlay
  let profileControlEnabled := offers hello .epaperProfileControl
  { self with
    selectedMinor
    remoteOverlayEnabled
    localInkControlEnabled :=
      remoteOverlayEnabled && self.penAvailable && offers hello .localInk
    pointerInputEnabled :=
      (self.config.inputDevice.isSome || self.penAvailable) &&
        offers hello .pointerInput
    byteCreditsEnabled := decide (1 ≤ selectedMinor)
    profileControlEnabled
    customProfileControlEnabled :=
      decide (2 ≤ selectedMinor) && profileControlEnabled &&
        offers hello .epaperCustomProfile
    refreshControlEnabled := offers hello .epaperRefreshControl
    colorRgb565Enabled :=
      decide (1 ≤ selectedMinor) && self.panel.info.colorRgb565 &&
        offers hello .colorRgb565 &&
        hello.pixelFormats.contains (wire PixelFormat.rgb565Le)
    negotiatedEncodings :=
      ([Encoding.raw, .zstd, .zlib].map wire).filter fun encoding =>
        hello.encodings.contains encoding
    established := true }

/-- The features a session answers a hello with. -/
def echoedFeatures (self : Session) : List ProtocolFeature :=
  mandatoryFeatures ++
    (if self.remoteOverlayEnabled then [.remoteOverlay] else []) ++
    (if self.localInkControlEnabled then [.localInk] else []) ++
    (if self.pointerInputEnabled then [.pointerInput] else []) ++
    (if self.profileControlEnabled then [.epaperProfileControl] else []) ++
    (if self.customProfileControlEnabled then [.epaperCustomProfile]
      else []) ++
    (if self.refreshControlEnabled then [.epaperRefreshControl] else []) ++
    (if self.byteCreditsEnabled then [.byteCredits] else []) ++
    (if self.colorRgb565Enabled then [.colorRgb565] else [])

def serverHello (self : Session) : ServerHello where
  selectedMinor := self.selectedMinor
  features := self.echoedFeatures.map wire
  serverId := self.config.serverId.toList
  display := some
    { width := self.panel.info.width
      height := self.panel.info.height
      orientation := wire Orientation.current
      pixelFormats := wire PixelFormat.gray8 ::
        (if self.colorRgb565Enabled then [wire PixelFormat.rgb565Le] else [])
      encodings := self.negotiatedEncodings
      inputCapabilities :=
        inputCapabilities self.config.inputDevice.isSome self.penAvailable }
  limits := some self.protocolLimits
  name := self.config.name

def acceptHello (hello : ClientHello) : SessionProc Envelope := do
  let session ← Proc.get
  Proc.ofRes id (validateHello hello session.config)
  let selectedMinor ← Proc.ofRes id (selectMinor hello)
  let session := session.negotiated hello selectedMinor
  Proc.set session
  wrap (.serverHello session.serverHello)

def validateEnvelopeHeader (envelope : Envelope) : SessionProc Unit := do
  let session ← Proc.get
  if session.lastIncomingMessageId = 0 ∧ envelope.messageId ≠ 1 ∨
      session.lastIncomingMessageId ≠ 0 ∧
        envelope.messageId ≤ session.lastIncomingMessageId then
    Proc.throw .badMessageOrder
  else if !session.established ∧ envelope.sessionId ≠ 0 ∨
      session.established ∧ envelope.sessionId ≠ session.sessionId then
    Proc.throw .badSession
  else
    Proc.set { session with lastIncomingMessageId := envelope.messageId }

/-- Is a physical interaction long enough ago for an idle cleanup? -/
def interactionIdle (self : Session) (now : Duration) : Bool :=
  !self.physicalPenInProximity && !self.touchGesture.hasActiveContacts &&
    decide (.ofSecs 5 ≤ now - self.lastInteraction)

def poll (now : Duration) : SessionProc (List Envelope) := do
  let session ← Proc.get
  match session.surface with
  | none => return []
  | some surface =>
      let idle := session.interactionIdle now
      let terminals ←
        if session.automaticIdleCleanup then
          askCore .idle (idle && surface.core.idleCleanupDue now) now
            fun timing => DisplayCore.tickInteractive timing idle
        else runCore now DisplayCore.tickWithoutIdleCleanup
      keepCarried
      terminalResults terminals

/-- What an envelope asks of an established session. -/
def handleBody (body : Body) (now : Duration) : SessionProc (List Envelope) :=
  match body with
  | .ping cookie => do return [← wrap (.pong cookie)]
  | .goodbye => do
      Proc.modify fun session => { session with closed := true }
      return []
  | .surfaceOpen request => do
      let responses ← openSurface request
      Proc.modify fun session =>
        { session.note (.clocked now) with inputNotBefore := now }
      return responses
  | .surfaceClose surfaceId generation => closeSurface surfaceId generation
  | .overlayUpdate update => overlayUpdate update now
  | .frame frame => acceptFrame frame now
  | .epaperProfileRequest request => handleEpaperProfile request now
  | .epaperRefreshRequest request => handleEpaperRefresh request now
  | .actionResult .. => return []
  | .clientHello _ | .serverHello _ | .pong _ | .error _ | .surfaceReady _
  | .frameResult _ | .inputBatch _ | .keyInput | .textInput | .actionInvoke ..
  | .epaperProfileResult _ | .epaperRefreshResult _ | .overlayResult _ =>
      Proc.throw .illegalDirection

/-- The first message must be a hello. -/
def handleFirst (body : Body) : SessionProc (List Envelope) :=
  match body with
  | .clientHello hello => do return [← acceptHello hello]
  | _ => Proc.throw .expectedClientHello

def handleInner (envelope : Envelope) (now : Duration) (pollAfter : Bool) :
    SessionProc (List Envelope) := do
  validateEnvelopeHeader envelope
  let session ← Proc.get
  match envelope.body with
  | none => Proc.throw .missingBody
  | some body =>
      let responses ←
        if session.established then handleBody body now else handleFirst body
      if pollAfter then
        let polled ← poll now
        return responses ++ polled
      else return responses

end Session

inductive SessionOp where
  | handle (envelope : Envelope) (now : Duration)
  | handleDeferred (envelope : Envelope) (now : Duration)
  | poll (now : Duration)
  | penReports (reports : List (List PointerRecord)) (now : Duration)
  | inputReports (reports : List (List PhysicalPointerEvent)) (now : Duration)
  | powerKeyPressed (now : Duration)
  | inputCaptureFailed (now : Duration)
  | closeLocalMenu (now : Duration)
  | setFrameFrozen (frozen : Bool) (now : Duration)
  | clearInk (now : Duration)
  | setLocalInk (enabled : Bool) (now : Duration)
  | setInkPaused (paused : Bool) (now : Duration)
  | requestCleanup (now : Duration)
  | setPenAvailable (available : Bool)
  | setFreezeOnPenDown (enabled : Bool)
  | setAutomaticIdleCleanup (enabled : Bool)
deriving DecidableEq, Repr

/-- An operation with the envelopes it returns; a cleanup report repeats
fields of the core and is left out. -/
def SessionOp.run : SessionOp → SessionProc (List Envelope)
  | .handle envelope now => Session.handleInner envelope now true
  | .handleDeferred envelope now => Session.handleInner envelope now false
  | .poll now => Session.poll now
  | .penReports reports now => Session.penReports reports now
  | .inputReports reports now => Session.inputReports reports now
  | .powerKeyPressed now => Session.powerKeyPressed now
  | .inputCaptureFailed now => Session.inputCaptureFailed now
  | .closeLocalMenu now => Session.closeLocalMenu now
  | .setFrameFrozen frozen now => Session.setFrameFrozen frozen now
  | .clearInk now => Session.clearInk now
  | .setLocalInk enabled now => do
      Session.setLocalInk enabled now
      return []
  | .setInkPaused paused now => do
      Session.setInkPaused paused now
      return []
  | .requestCleanup now => do
      let (_, responses) ← Session.requestCleanup now .request
      return responses
  | .setPenAvailable available => do
      Session.setPenAvailable available
      return []
  | .setFreezeOnPenDown enabled => do
      Session.setFreezeOnPenDown enabled
      return []
  | .setAutomaticIdleCleanup enabled => do
      Session.setAutomaticIdleCleanup enabled
      return []

abbrev sessionStep := procStep SessionOp.run

abbrev SessionEvent := Event Session SessionOp (Except SessionError (List Envelope))

/-- A run of operations on a new session. -/
def SessionRun (setup : SessionSetup) (history : List SessionEvent)
    (final : Session) : Prop :=
  ∃ first, setup.newSession = .ok first ∧ Run sessionStep first history final

/-- The run on a list of operations, the latest first. -/
def SessionSetup.replay (setup : SessionSetup) (ops : List SessionOp) :
    Option (List SessionEvent × Session) :=
  match setup.newSession with
  | .ok first => Foundation.replay SessionOp.run first ops
  | .error _ | .panic => none

theorem SessionSetup.run_of_replay {setup : SessionSetup}
    {ops : List SessionOp} {history : List SessionEvent} {final : Session}
    (replayed : setup.replay ops = some (history, final)) :
    SessionRun setup history final := by
  unfold SessionSetup.replay at replayed
  split at replayed
  · rename_i first fresh
    exact ⟨first, fresh, Foundation.run_of_replay replayed⟩
  · cases replayed
  · cases replayed

/-- A gray receiver on a panel that answers as given. -/
def SessionSetup.gray (width height : Nat) (pumpReply : Nat → Bool)
    (submitReply : Nat → Option PanelSubmissionMetrics) : SessionSetup where
  config :=
    { verifyToken := reservedZeroToken
      serverId := Vector.replicate 16 1
      name := "rm-display"
      limits := {}
      refreshPolicy :=
        { RefreshPolicyConfig.forProfile .balanced with damageTile := 1 }
      inkWaveform := .fastest
      inputDevice := none }
  panel := { info := ⟨width, height, false⟩, pumpReply, submitReply, calls := [] }
  sessionId := 1
  fallback := none
  codecs :=
    { crc32, zlib := fun _ _ => none, zstd := fun _ _ => none }
  stopwatch := fun _ => {}

/-- A hello for every version that offers some features beside the mandatory
ones. -/
def grayHello (features : List ProtocolFeature) : ClientHello where
  minMinor := 0
  maxMinor := maxMinor
  producerKind := wire ProducerKind.linuxCli
  features := (mandatoryFeatures ++ features).map wire
  pixelFormats := [wire PixelFormat.gray8]
  encodings := [wire Encoding.raw]
  clientId := List.replicate 16 1
  token := List.replicate 32 0
  clientNonce := List.replicate 16 2
  name := "producer"

/-- A message of the producer; the first one has no session yet. -/
def grayMessage (messageId : Nat) (body : Body) (now : Duration) : SessionOp :=
  .handle ⟨if messageId = 1 then 0 else 1, messageId, some body⟩ now

def grayOpen (surfaceId : Nat) (inputCapabilities : List Int) : Body :=
  .surfaceOpen
    { surfaceId
      pixelFormat := wire PixelFormat.gray8
      sourceKind := wire SourceKind.testPattern
      inputCapabilities }

/-- A frame of one raw region. -/
def grayFrame (surfaceId generation frameId baseFrameId : Nat)
    (intent : FrameIntent) (rect : Rect) (data : Bytes) : Body :=
  .frame
    { surfaceId
      generation
      frameId
      baseFrameId
      intent := wire intent
      contentClass := wire ContentClass.mixed
      regions :=
        [{ rect := some rect
           encoding := wire Encoding.raw
           decodedLen := data.length
           decodedCrc32 := crc32 data
           data }] }

end RmDisplay.Receiver
