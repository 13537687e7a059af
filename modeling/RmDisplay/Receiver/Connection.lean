import RmDisplay.Foundation.Reader
import RmDisplay.Protocol.Wire
import RmDisplay.Receiver.Handle
import RmDisplay.Receiver.InputCapture

/-!
# Driving a connection

The receiver serves one producer at a time.  Its loop hands captured input,
presses of the power key and decoded envelopes to the session, lets the
application make its calls, presents what is due, and writes what the session
answers.  Clock, devices, socket and application form the world, which answers
when it is asked.
-/

namespace RmDisplay.Core

def SurfaceError.message : SurfaceError → String
  | .invalidGeometry =>
      "surface dimensions are zero or overflow addressable memory"
  | .badRegion => "region is empty or outside the surface"
  | .badLength => "region pixel length does not match its geometry"
  | .overlap => "regions overlap"
  | .badOverlay => "overlay plane length does not match the surface"

def RefreshConfigError.message : RefreshConfigError → String
  | .zeroDamageTile => "damage tile must be nonzero"
  | .invalidAreaThreshold =>
      "large-update threshold must be between 0 and 100 percent"
  | .configuredFullQuality =>
      "FULL_QUALITY is reserved for receiver-selected complete refreshes"
  | .debtWithoutPresentation =>
      "partial-update debt requires a previously presented panel state"

/-- The panel has its own words for its failure. -/
def CoreError.message (panelText : String) : CoreError → String
  | .surface err => err.message
  | .refreshConfig err => err.message
  | .settledBarrier => "a SETTLED presentation barrier is active"
  | .badFrameId => "frame id must be nonzero and newer than the logical frame"
  | .needKeyframe => "delta base is invalid; a keyframe is required"
  | .pixelFormat => "frame pixel format does not match the surface"
  | .panel => panelText

end RmDisplay.Core

namespace RmDisplay.Receiver

open Foundation Protocol RmDisplay.Core

inductive ServerError where
  | receiverExit
  | newPair
  | io (err : String)
  | wire (err : WireError)
  | session (err : SessionError)
deriving DecidableEq, Repr

namespace SessionError

def message (panelText : String) : SessionError → String
  | .expectedClientHello => "ClientHello must be the first message"
  | .missingBody => "envelope body is missing"
  | .badMessageOrder => "message_id is not strictly increasing from one"
  | .badSession => "session_id is invalid"
  | .illegalDirection => "message direction is illegal"
  | .noCommonVersion => "no common protocol minor version"
  | .badHello problem => "ClientHello is invalid: " ++ problem
  | .missingCapability => "mandatory protocol capability is absent"
  | .authentication => "client authentication failed"
  | .badSurface problem => "SurfaceOpen is invalid: " ++ problem
  | .core err => err.message panelText
  | .panel => panelText
  | .surface err => err.message

def code : SessionError → Nat
  | .authentication => 2
  | .noCommonVersion | .missingCapability => 3
  | .badSurface _ => 4
  | _ => 1

/-- What a producer is told of an error. -/
def body (panelText : String) (err : SessionError) (relatedMessageId : Nat) :
    Body :=
  .error
    { code := err.code
      fatal := true
      relatedMessageId
      message := err.message panelText }

end SessionError

def Session.protocolError (panelText : String) (err : SessionError)
    (relatedMessageId : Nat) : SessionProc Envelope :=
  wrap (err.body panelText relatedMessageId)

/-- The envelope an operation handles. -/
def SessionOp.heard : SessionOp → Option Envelope
  | .handle envelope _ | .handleDeferred envelope _ => some envelope
  | _ => none

/-- What the application does when it is called: it calls operations of the
session, looks at what they return and at the session they leave, and returns
envelopes or an error of its own choice. -/
inductive HookCalls (ω : Type) where
  | done (world : ω) (reply : Except SessionError (List Envelope))
  | call (op : SessionOp)
      (next : Except SessionError (List Envelope) → Session → HookCalls ω)
  | protocolError (err : SessionError) (relatedMessageId : Nat)
      (next : Envelope → Session → HookCalls ω)

/-- The application leaves the envelopes of the producer to the server, passes
on what its calls return after what was `given`, and gives up with the first
error. -/
inductive HookCalls.PassesOn {ω : Type} :
    List Envelope → HookCalls ω → Prop where
  | done {given : List Envelope} {world : ω} :
      PassesOn given (.done world (.ok given))
  | call {given : List Envelope} {op : SessionOp}
      {next : Except SessionError (List Envelope) → Session → HookCalls ω}
      (silent : op.heard = none)
      (answered : ∀ envelopes session,
        PassesOn (given ++ envelopes) (next (.ok envelopes) session))
      (failed : ∀ err session, ∃ world,
        next (.error err) session = .done world (.error err)) :
      PassesOn given (.call op next)

/-- A write that failed after some bytes. -/
structure WriteFailure where
  err : String
  written : Nat
deriving DecidableEq, Repr

structure Surroundings (ω : Type) where
  /-- `connection_elapsed`. -/
  elapsed : ω → Duration × ω
  drain : ω → List CapturedReport × ω
  drainPresses : ω → Nat × ω
  hook : Option (ω → Session → Duration → HookCalls ω)
  /-- `write_all` and `flush`. -/
  writeAll : ω → Bytes → Except WriteFailure Unit × ω
  /-- `poll` on the descriptors: is there something to read? -/
  ready : ω → Except String Bool × ω
  /-- A read that would block or times out is an interrupted one. -/
  read : Reader ω String UInt8

structure Server (ω : Type) where
  setup : SessionSetup
  penAvailable : Bool
  prost : Prost
  world : Surroundings ω
  panelText : String

/-- The application passes on what its calls return. -/
def Server.PassesOn {ω : Type} (server : Server ω) : Prop :=
  ∀ hook ∈ server.world.hook, ∀ world session now,
    (hook world session now).PassesOn []

structure Connection (ω : Type) where
  session : Session
  codec : WireCodec
  input : Bytes
  world : ω
  /-- All bytes that were read. -/
  received : Bytes
  /-- All bytes that were written. -/
  sent : Bytes

abbrev ConnectionProc (ω α : Type) := Proc (Connection ω) ServerError α

/-- The size of the buffer a read fills. -/
def readBufferLen : Nat := 64 * 1024

/-- What a captured report asks of the session. -/
def CapturedReport.op : CapturedReport → SessionOp
  | ⟨time, .touch records⟩ => .inputReports [records] time
  | ⟨time, .pen records⟩ => .penReports [records] time
  | ⟨time, .fault _⟩ => .inputCaptureFailed time

section

variable {ω α : Type}

def ask (question : ω → α × ω) : ConnectionProc ω α := fun conn =>
  .ok (question conn.world).1 { conn with world := (question conn.world).2 }

def onSession (proc : SessionProc α) : ConnectionProc ω α :=
  Proc.zoom (·.session) (fun session conn => { conn with session }) .session
    proc

/-- The envelopes the application returns. -/
def hookEnvelopes (panelText : String) :
    HookCalls ω → ConnectionProc ω (List Envelope)
  | .done world reply => do
      Proc.modify fun conn => { conn with world }
      match reply with
      | .ok envelopes => return envelopes
      | .error err => Proc.throw (.session err)
  | .call op next => do
      let reply ← onSession (Proc.attempt op.run)
      hookEnvelopes panelText (next reply (← Proc.get).session)
  | .protocolError err relatedMessageId next => do
      let answer ← onSession
        (Session.protocolError panelText err relatedMessageId)
      hookEnvelopes panelText (next answer (← Proc.get).session)

end

namespace Server

variable {ω : Type} (server : Server ω)

def writeEnvelopes (envelopes : List Envelope) : ConnectionProc ω Unit := do
  let conn ← Proc.get
  match conn.codec.encodeAll server.prost envelopes [] with
  | .error err => Proc.throw (.wire err)
  | .ok output =>
      if output = [] then return ()
      else
        match ← ask fun world => server.world.writeAll world output with
        | .error failure =>
            Proc.modify fun conn => { conn with
              sent := conn.sent ++ output.take failure.written }
            Proc.throw (.io failure.err)
        | .ok () =>
            Proc.modify fun conn => { conn with sent := conn.sent ++ output }

/-- Run an operation of the session and write what it answers. -/
def perform (op : SessionOp) : ConnectionProc ω Unit := do
  server.writeEnvelopes (← onSession op.run)

def drainCapture : ConnectionProc ω Unit := do
  (← ask server.world.drain).forM fun report => server.perform report.op

def drainPowerKey (now : Duration) : ConnectionProc ω Unit := do
  let presses ← ask server.world.drainPresses
  (List.range presses).forM fun _ => server.perform (.powerKeyPressed now)

def callHook (now : Duration) : ConnectionProc ω Unit := do
  match server.world.hook with
  | none => return ()
  | some hook =>
      let conn ← Proc.get
      server.writeEnvelopes
        (← hookEnvelopes server.panelText
          (hook conn.world conn.session now))

/-- The codec of an established session. -/
def lateCodec : WireCodec := .new server.setup.config.limits.maxPayload

/-- Why the loop ends when the session is closed. -/
def leave : ConnectionProc ω Unit := do
  let conn ← Proc.get
  if conn.session.pairingResetRequested then Proc.throw .newPair
  else if conn.session.receiverExitRequested then Proc.throw .receiverExit
  else return ()

def decodeNext : ConnectionProc ω (Option Envelope) := fun conn =>
  match conn.codec.decode server.prost conn.input with
  | (.ok envelope, input) => .ok envelope { conn with input }
  | (.error err, input) => .error (.wire err) { conn with input }

/-- Write what a session answers to an envelope; one that fails says so, and the
connection ends. -/
def answerEnvelope (messageId : Nat) :
    Except SessionError (List Envelope) → ConnectionProc ω Unit
  | .ok responses => server.writeEnvelopes responses
  | .error err => do
      let response ← onSession
        (Session.protocolError server.panelText err messageId)
      server.writeEnvelopes [response]
      Proc.throw (.session err)

def handleNext (envelope : Envelope) : ConnectionProc ω Unit := do
  let now ← ask server.world.elapsed
  server.answerEnvelope envelope.messageId
    (← onSession (Proc.attempt (Session.handleInner envelope now false)))
  Proc.modify fun conn =>
    if conn.session.established then { conn with codec := server.lateCodec }
    else conn

/-- Handle at most so many envelopes, and count them; there is no count if the
session was closed. -/
def handleUpTo : Nat → ConnectionProc ω (Option Nat)
  | 0 => return some 0
  | room + 1 => do
      match ← server.decodeNext with
      | none => return some 0
      | some envelope =>
          server.handleNext envelope
          if (← Proc.get).session.closed then
            leave
            return none
          else
            let later ← handleUpTo room
            return later.map (· + 1)

/-- Read once; the producer may have closed the stream. -/
def readMore : ConnectionProc ω Bool := do
  match ← ask fun world => server.world.read world readBufferLen with
  | .ok [] => return false
  | .ok bytes =>
      Proc.modify fun conn => { conn with
        input := conn.input ++ bytes
        received := conn.received ++ bytes }
      return true
  | .interrupted => return true
  | .failed err => Proc.throw (.io err)

/-- One turn of the loop; does it go on? -/
def turn : ConnectionProc ω Bool := do
  let now ← ask server.world.elapsed
  server.drainCapture
  server.drainPowerKey now
  let now ← ask server.world.elapsed
  server.callHook now
  -- a pen that went down is processed before a newer base is presented
  server.perform (.poll now)
  if (← Proc.get).session.closed then
    leave
    return false
  else
    match ← server.handleUpTo 8 with
    | none => return false
    | some decoded =>
        server.perform (.poll (← ask server.world.elapsed))
        if decoded = 8 then return true
        else
          match ← ask server.world.ready with
          | .error err => Proc.throw (.io err)
          | .ok false => return true
          | .ok true => server.readMore

/-- So many turns at most; there is no result if the loop is still going on. -/
def turns : Nat → ConnectionProc ω (Option Unit)
  | 0 => return none
  | count + 1 => do
      if ← server.turn then turns count
      else return some ()

/-- `drive_connection_loop`, for so many turns at most. -/
def driveConnectionLoop (count : Nat) : ConnectionProc ω (Option Unit) := do
  onSession (Session.setPenAvailable server.penAvailable)
  server.callHook 0
  server.turns count

/-- A connection with a new session. -/
def accept (world : ω) : Res SessionError (Connection ω) := do
  let session ← server.setup.newSession
  return { session, codec := .preHandshake, input := [], world, received := [],
           sent := [] }

/-- How a new connection ends, or stands after so many turns; there is nothing to
say of a panic. -/
def serve (count : Nat) (world : ω) :
    Option (Except ServerError (Option Unit) × Connection ω) :=
  match server.accept world with
  | .ok first =>
      match server.driveConnectionLoop count first with
      | .ok finished conn => some (.ok finished, conn)
      | .error err conn => some (.error err, conn)
      | .panic => none
  | .error _ | .panic => none

theorem runs_of_serve {count : Nat} {world : ω}
    {output : Except ServerError (Option Unit)} {final : Connection ω}
    (served : server.serve count world = some (output, final)) :
    ∃ first, server.accept world = .ok first ∧
      (server.driveConnectionLoop count).Runs first output final := by
  unfold serve at served
  split at served
  · rename_i first accepted
    refine ⟨first, accepted, ?_⟩
    unfold Proc.Runs
    split at served
    · rename_i ended
      cases served
      exact ended
    · rename_i ended
      cases served
      exact ended
    · cases served
  · cases served
  · cases served

end Server

end RmDisplay.Receiver
