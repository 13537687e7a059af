import RmDisplay.Foundation.Run
import RmDisplay.Producer.DeltaEncoder
import RmDisplay.Protocol.Wire

/-!
# The client of a producer

The calls a producer makes on an open surface.  A call may have to wait for a
message, and whatever else arrives meanwhile is handled on the way.

What the receiver will ever send and which writes fail is not up to the
program, so the client carries both.  A call that waits for a message beyond
the last one never returns, and is modelled like a panic.  The journal is not
in the source: no code reads it, and the theorems use it to speak about what
was sent and received.
-/

namespace RmDisplay.Producer

open Foundation Protocol

def surfaceId : Nat := 1

def maxDeltaRegions : Nat := 64

structure Surface where
  id : Nat
  generation : Nat
  width : Nat
  height : Nat
  maxFrameBytes : Nat
  maxRegions : Nat
  maxInflight : Nat
  maxInflightBytes : Nat
deriving DecidableEq, Repr

/-- Measured times and sizes are left out. -/
structure ProducerFrameMetrics where
  attempts : Nat := 0
deriving DecidableEq, Repr

structure FrameReport where
  result : FrameResult
  producer : ProducerFrameMetrics
deriving DecidableEq, Repr

structure PendingFrame where
  frameId : Nat
  producer : ProducerFrameMetrics
deriving DecidableEq, Repr

/-- What can go wrong with the stream to the receiver. -/
inductive StreamError where
  | io
  | wire (err : WireError)
  | closed
deriving DecidableEq, Repr

/-- The errors of the stream stand under one name. -/
inductive ProducerError where
  | stream (err : StreamError)
  | unexpectedMessage
  | messageOrder
  | wrongSession
  | badHello (problem : String)
  | badSurface (problem : String)
  | frameTooLarge (actual limit : Nat)
  | badPixelLength (actual expected : Nat)
  | noCredit
  | frameRejected (frameId : Nat) (result reason : Int)
  | remote (message : String)
  | event
deriving DecidableEq, Repr

/-- The stream to the receiver, with all that can still be read from it. -/
structure ProducerIo where
  incoming : List (Except StreamError Envelope)
  /-- Why the message with a certain id cannot be written. -/
  sendFails : Nat → Option StreamError

/-- Where events are written to. -/
structure EventOutput where
  written : List Envelope
  /-- Can the events of a message not be written? -/
  fails : Nat → Bool

/-- What the theorems remember of the frames. -/
inductive Exchange where
  | sent (frame : Frame)
  | received (result : FrameResult)
  /-- The frame is sent again as a keyframe. -/
  | retried (result : FrameResult)
deriving DecidableEq

structure ProducerClient where
  io : ProducerIo
  sessionId : Nat
  nextMessageId : Nat
  lastReceivedId : Nat
  nextFrameId : Nat
  receiverLogicalFrameId : Nat
  logicalFrameId : Nat
  needsKeyframe : Bool
  credits : Nat
  byteCredits : Nat
  creditLimit : Nat
  byteCreditLimit : Nat
  pendingFrames : List PendingFrame
  completedFrameReports : List FrameReport
  selectedMinor : Nat
  zstdEnabled : Bool
  serverHello : Option ServerHello
  eventOutput : Option EventOutput
  actionsEnabled : Bool
  crc32 : Bytes → Nat
  compress : Compressor
  /-- The earliest entry first. -/
  journal : List Exchange

/-- A client that has sent nothing yet. -/
def ProducerClient.new (io : ProducerIo) (crc32 : Bytes → Nat)
    (compress : Compressor) : ProducerClient where
  io
  sessionId := 0
  nextMessageId := 1
  lastReceivedId := 0
  nextFrameId := 1
  receiverLogicalFrameId := 0
  logicalFrameId := 0
  needsKeyframe := true
  credits := 0
  byteCredits := 0
  creditLimit := 0
  byteCreditLimit := 0
  pendingFrames := []
  completedFrameReports := []
  selectedMinor := 0
  zstdEnabled := false
  serverHello := none
  eventOutput := none
  actionsEnabled := false
  crc32
  compress
  journal := []

abbrev ClientProc (α : Type) := Proc ProducerClient ProducerError α

namespace ProducerClient

/-- Write an entry into the journal. -/
def note (self : ProducerClient) (entry : Exchange) : ProducerClient :=
  { self with journal := self.journal ++ [entry] }

/-- The client of an answered request for a surface. -/
def acceptSurface (self : ProducerClient) (ready : SurfaceReady) :
    Res ProducerError (Surface × ProducerClient) :=
  if ready.surfaceId ≠ surfaceId ∨ ready.generation = 0 then
    .error (.badSurface "wrong id or zero generation")
  else if ready.width = 0 ∨ ready.height = 0 ∨
      ready.pixelFormat ≠ wire PixelFormat.gray8 then
    .error (.badSurface "invalid geometry or pixel format")
  else
    match ready.limits with
    | none => .error (.badSurface "limits missing")
    | some limits =>
        if limits.maxFrameBytes = 0 ∨ limits.maxRegions = 0 ∨
            limits.maxInflight = 0 then
          .error (.badSurface "zero frame limit")
        else
          let byteCredits :=
            if 1 ≤ self.selectedMinor then limits.maxInflightBytes else u64Max
          .ok
            ({ id := ready.surfaceId
               generation := ready.generation
               width := ready.width
               height := ready.height
               maxFrameBytes := limits.maxFrameBytes
               maxRegions := limits.maxRegions
               maxInflight := limits.maxInflight
               maxInflightBytes := byteCredits },
              { self with
                actionsEnabled :=
                  self.actionsEnabled && !ready.actionCapabilities.isEmpty
                nextFrameId := 1
                receiverLogicalFrameId := 0
                logicalFrameId := 0
                needsKeyframe := true
                credits := limits.maxInflight
                creditLimit := limits.maxInflight
                byteCredits
                byteCreditLimit := byteCredits
                pendingFrames := []
                completedFrameReports := []
                journal := [] })

/-- The journal knows of the results among the messages. -/
def noteReceived (self : ProducerClient) (envelope : Envelope) :
    ProducerClient :=
  match envelope.body with
  | some (.frameResult result) => self.note (.received result)
  | _ => self

def receive : ClientProc Envelope := do
  let client ← Proc.get
  match client.io.incoming with
  | [] => Proc.panic
  | next :: incoming =>
      Proc.set { client with io := { client.io with incoming } }
      match next with
      | .error err => Proc.throw (.stream err)
      | .ok envelope =>
          if envelope.messageId ≤ client.lastReceivedId then
            Proc.throw .messageOrder
          else if client.sessionId ≠ 0 ∧
              envelope.sessionId ≠ client.sessionId then
            Proc.throw .wrongSession
          else
            Proc.modify fun client =>
              { client.noteReceived envelope with
                lastReceivedId := envelope.messageId }
            return envelope

/-- The journal knows of the frames among the messages. -/
def noteSent (self : ProducerClient) (body : Body) : ProducerClient :=
  match body with
  | .frame frame => self.note (.sent frame)
  | _ => self

def send (body : Body) : ClientProc Unit := do
  let client ← Proc.get
  match Bounded.checkedAdd u32Max client.nextMessageId 1 with
  | none => Proc.throw .messageOrder
  | some nextMessageId =>
      Proc.set { client with nextMessageId }
      match client.io.sendFails client.nextMessageId with
      | some err => Proc.throw (.stream err)
      | none => Proc.modify fun client => client.noteSent body

def emitEvent (body : Body) : ClientProc Unit := do
  let client ← Proc.get
  match client.eventOutput with
  | none => return ()
  | some output =>
      if output.fails client.lastReceivedId then Proc.throw .event
      else
        let envelope : Envelope :=
          { sessionId := client.sessionId
            messageId := client.lastReceivedId
            body := some body }
        Proc.set { client with
          eventOutput :=
            some { output with written := output.written ++ [envelope] } }

/-- An unknown result code counts as unspecified. -/
def resultCode (result : FrameResult) : FrameResultCode :=
  (tryFrom FrameResultCode result.result).getD .unspecified

/-- The receiver took the frame. -/
def accepts (result : FrameResult) : Bool :=
  resultCode result == .presented || resultCode result == .superseded

/-- A frame in flight has got its result. -/
def answered (self : ProducerClient) (result : FrameResult) :
    ProducerClient :=
  let pendingFrames :=
    self.pendingFrames.eraseP (·.frameId == result.frameId)
  let needsKeyframe := self.needsKeyframe || !accepts result
  { self with
    pendingFrames
    credits := result.credits
    byteCredits :=
      if 1 ≤ self.selectedMinor then result.byteCredits else self.byteCredits
    receiverLogicalFrameId := result.logicalFrameId
    needsKeyframe
    logicalFrameId :=
      if needsKeyframe then result.logicalFrameId
      else
        (pendingFrames.getLast?.map (·.frameId)).getD result.logicalFrameId }

def applyFrameResult (result : FrameResult) : ClientProc FrameReport := do
  let client ← Proc.get
  if client.creditLimit < result.credits ∨
      1 ≤ client.selectedMinor ∧ client.byteCreditLimit < result.byteCredits then
    Proc.throw .unexpectedMessage
  else
    match client.pendingFrames.find? (·.frameId == result.frameId) with
    | none => Proc.throw .unexpectedMessage
    | some pending =>
        Proc.set (client.answered result)
        return { result, producer := pending.producer }

def queueReport (report : FrameReport) : ClientProc Unit :=
  Proc.modify fun client => { client with
    completedFrameReports := client.completedFrameReports ++ [report] }

def actionOk : Int := 1

def actionUnsupported : Int := 2

def handleAuxiliary (body : Body) : ClientProc Unit :=
  match body with
  | .frameResult result => do
      let report ← applyFrameResult result
      queueReport report
  | .ping cookie => send (.pong cookie)
  | .inputBatch _ | .keyInput | .textInput => emitEvent body
  | .actionInvoke surfaceId generation invocationId => do
      let client ← Proc.get
      let handled := client.actionsEnabled && client.eventOutput.isSome
      emitEvent body
      send (.actionResult surfaceId generation invocationId
        (if handled then actionOk else actionUnsupported)
        (if handled then "action emitted to JSONL"
          else "Linux CLI has no action handler"))
  | .error err => if err.fatal then Proc.throw (.remote err.message) else pure ()
  | .goodbye => Proc.throw (.stream .closed)
  | .clientHello _ | .serverHello _ | .pong _ | .surfaceOpen _
  | .surfaceReady _ | .surfaceClose .. | .frame _ | .actionResult ..
  | .epaperProfileRequest _ | .epaperProfileResult _ | .epaperRefreshRequest _
  | .epaperRefreshResult _ | .overlayUpdate _ | .overlayResult _ => pure ()

def pumpOnce : ClientProc Unit := do
  let envelope ← receive
  match envelope.body with
  | some body => handleAuxiliary body
  | none => Proc.throw .unexpectedMessage

/-- Receive until a message is the awaited one. -/
def receiveUntil {α : Type} (awaited : Body → ClientProc (Option α)) :
    Nat → ClientProc α
  | 0 => Proc.panic
  | messages + 1 => do
      let envelope ← receive
      match envelope.body with
      | none => Proc.throw .unexpectedMessage
      | some body =>
          match ← awaited body with
          | some value => return value
          | none => receiveUntil awaited messages

/-- Every turn takes a message, so their number bounds the turns. -/
def await {α : Type} (awaited : Body → ClientProc (Option α)) :
    ClientProc α := do
  let client ← Proc.get
  receiveUntil awaited client.io.incoming.length

/-- The report of any frame. -/
def anyReport (body : Body) : ClientProc (Option FrameReport) :=
  match body with
  | .frameResult result => do return some (← applyFrameResult result)
  -- A fatal error of the receiver ends the wait.
  | body => do
      handleAuxiliary body
      return none

def receivePendingFrameReport : ClientProc FrameReport := await anyReport

/-- Receive what the frames in flight come to, as long as there are any. -/
def settleLoop : Nat → ClientProc Unit
  | 0 => Proc.panic
  | turns + 1 => do
      let client ← Proc.get
      if client.pendingFrames.isEmpty then return ()
      else
        let report ← receivePendingFrameReport
        queueReport report
        settleLoop turns

def settlePendingFrames : ClientProc Unit := do
  let client ← Proc.get
  settleLoop (client.pendingFrames.length + 1)

/-- The report of a certain frame. -/
def reportOf (frameId : Nat) (body : Body) :
    ClientProc (Option FrameReport) :=
  match body with
  | .frameResult result => do
      let report ← applyFrameResult result
      if report.result.frameId = frameId then return some report
      else
        queueReport report
        return none
  | body => do
      handleAuxiliary body
      return none

def waitForFrameReport (frameId : Nat) : ClientProc FrameReport := do
  let client ← Proc.get
  match client.completedFrameReports.find? (·.result.frameId == frameId) with
  | some report =>
      Proc.set { client with
        completedFrameReports :=
          client.completedFrameReports.eraseP (·.result.frameId == frameId) }
      return report
  | none => await (reportOf frameId)

/-- The answer to an update of the overlay. -/
def overlayAnswer (sequence : Nat) (body : Body) :
    ClientProc (Option OverlayResult) := do
  match body with
  | .overlayResult result =>
      if result.sequence = sequence then return some result else return none
  | body =>
      handleAuxiliary body
      return none

def updateOverlay (update : OverlayUpdate) : ClientProc OverlayResult := do
  let client ← Proc.get
  if !client.serverHello.any fun hello =>
      hello.features.contains (wire ProtocolFeature.remoteOverlay) then
    Proc.throw (.badHello "remote overlay unavailable")
  else
    send (.overlayUpdate update)
    let result ← await (overlayAnswer update.sequence)
    Proc.modify fun client =>
      if result.applied && update.localInk == some false then
        { client with needsKeyframe := true }
      else client
    return result

/-- A frame to send, perhaps as the difference from an earlier one. -/
structure FrameInput where
  surface : Surface
  pixels : Bytes
  /-- The earlier pixels and the size of a tile. -/
  delta : Option (Bytes × Nat)
  intent : FrameIntent
  contentClass : ContentClass

def validateFramePixels (surface : Surface) (pixels : Bytes)
    (previous : Option Bytes) : Res ProducerError Unit :=
  match Bounded.checkedMul u64Max surface.width surface.height with
  | none => .error (.frameTooLarge u64Max surface.maxFrameBytes)
  | some expected =>
      if pixels.length ≠ expected then
        .error (.badPixelLength pixels.length expected)
      else if surface.maxFrameBytes < pixels.length then
        .error (.frameTooLarge pixels.length surface.maxFrameBytes)
      else
        match previous with
        | some previous =>
            if previous.length ≠ expected then
              .error (.badPixelLength previous.length expected)
            else .ok ()
        | none => .ok ()

/-- The regions of a frame that is no delta. -/
def wholeRegions (self : ProducerClient) (input : FrameInput) :
    List FrameRegion :=
  [encodeRegion self.crc32 self.compress
    ⟨0, 0, input.surface.width, input.surface.height⟩ input.pixels
    self.zstdEnabled]

def deltaRegions (self : ProducerClient) (input : FrameInput)
    (previous : Bytes) (tile : Nat) : Res ProducerError (List FrameRegion) :=
  Res.orPanic (encodeDeltaRegions self.crc32 self.compress previous input.pixels
    input.surface.width input.surface.height tile
    (min input.surface.maxRegions maxDeltaRegions) self.zstdEnabled)

def frameRegions (self : ProducerClient) (input : FrameInput)
    (forceKeyframe : Bool) : Res ProducerError (List FrameRegion) :=
  if forceKeyframe then .ok (self.wholeRegions input)
  else
    match input.delta with
    | some (previous, tile) => self.deltaRegions input previous tile
    | none => .ok (self.wholeRegions input)

def decodedBytes (regions : List FrameRegion) : Nat :=
  (regions.map (·.decodedLen)).sum

/-- Take the credits of a frame and send it; `exhausted` tells that there is
no frame id left. -/
def postFrame (input : FrameInput) (regions : List FrameRegion)
    (baseFrameId : Nat) (exhausted : Nat → ProducerError) :
    ClientProc Nat := do
  let client ← Proc.get
  let frameId := client.nextFrameId
  match Bounded.checkedAdd u64Max frameId 1 with
  | none => Proc.throw (exhausted frameId)
  | some nextFrameId =>
      Proc.set { client with
        nextFrameId
        credits := client.credits - 1
        byteCredits := client.byteCredits - decodedBytes regions }
      send (.frame
        { surfaceId := input.surface.id
          generation := input.surface.generation
          frameId
          baseFrameId
          intent := wire input.intent
          contentClass := wire input.contentClass
          regions })
      return frameId

/-- A sent frame is in flight. -/
def launch (self : ProducerClient) (frameId : Nat)
    (producer : ProducerFrameMetrics) : ProducerClient :=
  { self with
    logicalFrameId := frameId
    pendingFrames := self.pendingFrames ++ [{ frameId, producer }] }

def rejection (report : FrameReport) (frameId : Nat) : ProducerError :=
  .frameRejected frameId report.result.result report.result.reason

/-- The report of a sent frame, and whether the frame has to be sent again as
a keyframe. -/
def concludeFrame (frameId : Nat) (forceKeyframe : Bool) :
    ClientProc (FrameReport × Bool) := do
  let report ← waitForFrameReport frameId
  if report.result.reason = wire FrameResultReason.inkFrozen then
    return (report, false)
  else
    match resultCode report.result with
    | .presented | .superseded => return (report, false)
    | .needKeyframe =>
        if forceKeyframe then Proc.throw (rejection report frameId)
        else
          Proc.modify fun client => client.note (.retried report.result)
          return (report, true)
    | .unspecified | .rejected => Proc.throw (rejection report frameId)

/-- Send the frame and wait for its result.  A delta the receiver has no base
for is sent once more as a keyframe. -/
def sendLoop (input : FrameInput) (forceKeyframe : Bool)
    (producer : ProducerFrameMetrics) : Nat → ClientProc FrameReport
  | 0 => Proc.panic
  | turns + 1 => do
      let client ← Proc.get
      let regions ← Proc.ofRes id (client.frameRegions input forceKeyframe)
      if client.credits = 0 then Proc.throw .noCredit
      else if client.byteCredits < decodedBytes regions then
        Proc.throw .noCredit
      else
        let producer : ProducerFrameMetrics :=
          { attempts := Bounded.saturatingAdd u32Max producer.attempts 1 }
        let frameId ← postFrame input regions
          (if forceKeyframe then 0 else client.logicalFrameId)
          fun frameId => .frameRejected frameId (wire FrameResultCode.rejected) 0
        Proc.modify fun client =>
          { client.launch frameId producer with
            needsKeyframe := client.needsKeyframe && !forceKeyframe }
        let (report, again) ← concludeFrame frameId forceKeyframe
        if again then sendLoop input true report.producer turns
        else return report

def sendFrameReportInner (input : FrameInput) : ClientProc FrameReport := do
  settlePendingFrames
  Proc.ofRes id (validateFramePixels input.surface input.pixels
    (input.delta.map (·.1)))
  let client ← Proc.get
  sendLoop input (client.needsKeyframe || client.receiverLogicalFrameId == 0) {}
    2

/-- Receive reports until the frame may be sent, or has to be a keyframe. -/
def creditLoop (needed : Nat) : Nat → ClientProc Bool
  | 0 => Proc.panic
  | turns + 1 => do
      let client ← Proc.get
      if 2 ≤ client.pendingFrames.length ∨ client.credits = 0 ∨
          client.byteCredits < needed then
        if client.pendingFrames.isEmpty then Proc.throw .noCredit
        else
          let report ← receivePendingFrameReport
          queueReport report
          let client ← Proc.get
          if client.needsKeyframe then return true else creditLoop needed turns
      else return false

/-- The report that has waited longest. -/
def takeReport : ClientProc (Option FrameReport) := do
  let client ← Proc.get
  match client.completedFrameReports with
  | [] => return none
  | report :: later =>
      Proc.set { client with completedFrameReports := later }
      return some report

/-- Send a keyframe in place of a delta, after all frames in flight. -/
def recover (input : FrameInput) : ClientProc (Option FrameReport) := do
  settlePendingFrames
  return some (← sendFrameReportInner input)

/-- The input is that of a latest frame without a delta. -/
def queueDeltaFrameReport (input : FrameInput) (previous : Bytes) (tile : Nat) :
    ClientProc (Option FrameReport) := do
  let client ← Proc.get
  if client.needsKeyframe ∨ client.logicalFrameId = 0 then recover input
  else
    Proc.ofRes id
      (validateFramePixels input.surface input.pixels (some previous))
    let regions ← Proc.ofRes id (client.deltaRegions input previous tile)
    if ← creditLoop (decodedBytes regions) (client.pendingFrames.length + 1) then
      recover input
    else
      let client ← Proc.get
      let frameId ← postFrame input regions client.logicalFrameId
        fun _ => .messageOrder
      Proc.modify fun client => client.launch frameId { attempts := 1 }
      takeReport

def waitForFrameCreditReport : ClientProc (Option FrameReport) := do
  match ← takeReport with
  | some report => return some report
  | none =>
      let client ← Proc.get
      if 0 < client.credits ∧ 0 < client.byteCredits ∧
          client.pendingFrames.length < 2 ∨ client.pendingFrames.isEmpty then
        return none
      else return some (← receivePendingFrameReport)

def flushFrameReports : ClientProc (List FrameReport) := do
  settlePendingFrames
  let client ← Proc.get
  Proc.set { client with completedFrameReports := [] }
  return client.completedFrameReports

end ProducerClient

inductive ClientOp where
  | queueDelta (surface : Surface) (previous pixels : Bytes) (tile : Nat)
      (contentClass : ContentClass)
  | sendFrame (surface : Surface) (pixels : Bytes) (intent : FrameIntent)
      (contentClass : ContentClass)
  | sendDelta (surface : Surface) (previous pixels : Bytes) (tile : Nat)
      (intent : FrameIntent) (contentClass : ContentClass)
  | waitForCredit
  | flush
  | updateOverlay (update : OverlayUpdate)
  | pumpOnce
deriving DecidableEq

/-- A call with the reports it hands over; what an overlay came to is left
out. -/
def ClientOp.run : ClientOp → ClientProc (List FrameReport)
  | .queueDelta surface previous pixels tile contentClass => do
      let report ← ProducerClient.queueDeltaFrameReport
        ⟨surface, pixels, none, .latest, contentClass⟩ previous tile
      return report.toList
  | .sendFrame surface pixels intent contentClass => do
      let report ← ProducerClient.sendFrameReportInner
        ⟨surface, pixels, none, intent, contentClass⟩
      return [report]
  | .sendDelta surface previous pixels tile intent contentClass => do
      let report ← ProducerClient.sendFrameReportInner
        ⟨surface, pixels, some (previous, tile), intent, contentClass⟩
      return [report]
  | .waitForCredit => do
      let report ← ProducerClient.waitForFrameCreditReport
      return report.toList
  | .flush => ProducerClient.flushFrameReports
  | .updateOverlay update => do
      let _ ← ProducerClient.updateOverlay update
      return []
  | .pumpOnce => do
      ProducerClient.pumpOnce
      return []

abbrev clientStep := procStep ClientOp.run

abbrev ClientEvent :=
  Event ProducerClient ClientOp (Except ProducerError (List FrameReport))

/-- A run of calls on a surface that was opened. -/
def ClientRun (start : ProducerClient) (ready : SurfaceReady)
    (history : List ClientEvent) (final : ProducerClient) : Prop :=
  ∃ surface opened, start.acceptSurface ready = .ok (surface, opened) ∧
    Run clientStep opened history final

/-- The run on a list of calls, the latest first. -/
def ClientRun.replay (start : ProducerClient) (ready : SurfaceReady)
    (ops : List ClientOp) : Option (List ClientEvent × ProducerClient) :=
  match start.acceptSurface ready with
  | .ok (_, opened) => Foundation.replay ClientOp.run opened ops
  | .error _ | .panic => none

theorem ClientRun.of_replay {start final : ProducerClient}
    {ready : SurfaceReady} {ops : List ClientOp} {history : List ClientEvent}
    (replayed : ClientRun.replay start ready ops = some (history, final)) :
    ClientRun start ready history final := by
  unfold ClientRun.replay at replayed
  split at replayed
  · rename_i surface opened accepted
    exact ⟨surface, opened, accepted, Foundation.run_of_replay replayed⟩
  · cases replayed
  · cases replayed

/-- A client that will receive these messages, on a stream that never fails. -/
def ProducerClient.gray (bodies : List Body) : ProducerClient :=
  .new
    { incoming := bodies.zipIdx.map fun (body, index) =>
        .ok ⟨1, index + 1, some body⟩
      sendFails := fun _ => none }
    (fun _ => 0) fun _ => none

/-- A gray surface for two frames in flight. -/
def graySurface (width height : Nat) : Surface where
  id := surfaceId
  generation := 1
  width
  height
  maxFrameBytes := 64
  maxRegions := 4
  maxInflight := 2
  maxInflightBytes := u64Max

def grayReady (width height : Nat) : SurfaceReady where
  surfaceId
  generation := 1
  width
  height
  pixelFormat := wire PixelFormat.gray8
  orientation := wire Orientation.current
  sourceKind := wire SourceKind.testPattern
  inputCapabilities := []
  actionCapabilities := []
  limits := some
    { maxPayload := 64
      maxFrameBytes := 64
      maxRegions := 4
      maxInflight := 2
      maxFpsX100 := 400
      settledDeadlineMs := 300
      maxInflightBytes := 0 }

/-- The answer to a frame, with what is left of two credits. -/
def grayResult (frameId : Nat) (code : FrameResultCode) (credits : Nat)
    (logicalFrameId : Nat) : Body :=
  .frameResult
    { surfaceId
      generation := 1
      frameId
      result := wire code
      reason := wire FrameResultReason.none
      credits
      logicalFrameId
      presentedFrameId := logicalFrameId
      metrics := none
      byteCredits := 0 }

end RmDisplay.Producer
