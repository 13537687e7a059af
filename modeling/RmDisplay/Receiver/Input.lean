import RmDisplay.Receiver.Control

/-!
# Physical input of a session

Reports of the pen, the touch panel and the power key.
-/

namespace RmDisplay.Receiver

open Foundation Protocol RmDisplay.Core

namespace Session

/-- An unknown phase counts as a cancellation. -/
def penPhase (record : PointerRecord) : PointerPhase :=
  (tryFrom PointerPhase record.phase).getD .cancel

/-- Drop what belongs to a contact whose DOWN was not seen, and remember the
last record for a cancellation. -/
def filterRecord (surface : ActiveSurface) (record : PointerRecord) :
    Bool × ActiveSurface :=
  let phase := penPhase record
  if surface.penNeedsDown && (phase == .move || phase == .up) then
    (false, surface)
  else
    (true,
      { surface with
        penNeedsDown :=
          match phase with
          | .down => false
          | .up | .cancel => true
          | .move | .hover | .unspecified => surface.penNeedsDown
        lastPen := if phase = .cancel then none else some record })

def filterRecords (surface : ActiveSurface) :
    List PointerRecord → List PointerRecord × ActiveSurface
  | [] => ([], surface)
  | record :: records =>
      let (keep, surface) := filterRecord surface record
      let (kept, surface) := filterRecords surface records
      (if keep then record :: kept else kept, surface)

/-- The pixel a record points at. -/
def penPixel (core : DisplayCore) (record : PointerRecord) : Nat × Nat :=
  (min (record.x1616 / 2 ^ 16) (core.width - 1),
    min (record.y1616 / 2 ^ 16) (core.height - 1))

/-- The first DOWN may freeze the background. -/
def freezeOnDown (freezeOnPenDown : Bool) (surface : ActiveSurface)
    (phase : PointerPhase) : List TerminalFrame × ActiveSurface :=
  if surface.localInk && freezeOnPenDown && phase == .down &&
      !surface.inkFrozen && surface.core.presentedFrameId != 0 then
    let (terminal, core) := surface.core.freezePresented
    (terminal.toList, { surface with inkFrozen := true, core })
  else ([], surface)

/-- The segment up to a record. -/
def penSegment (surface : ActiveSurface) (record : PointerRecord) :
    InkSegment :=
  let target := penPixel surface.core record
  let erase := record.flags % 2 == 1
  { origin := surface.penPoint.getD target
    target
    radius := if erase then 12 else 2
    erase }

/-- Draw the segment up to a record. -/
def drawSegment (surface : ActiveSurface) (record : PointerRecord)
    (phase : PointerPhase) :
    SurfaceRes (Option InkSegment × ActiveSurface) :=
  if surface.localInk && surface.core.presentedFrameId != 0 &&
      (phase == .down || phase == .move) then do
    let segment := penSegment surface record
    let drawn ← surface.editPlane .ink (.inkLine segment.origin segment.target
      segment.radius segment.erase)
    return (some segment, { drawn with penPoint := some segment.target })
  else .ok (none, { surface with penPoint := none })

/-- Is a record not drawn: while ink is paused, from before ink started anew,
or of a stroke from before that? -/
def inkIgnores (surface : ActiveSurface) (physical : Bool) (now : Duration)
    (phase : PointerPhase) : Bool :=
  surface.inkPaused || physical && decide (now < surface.inkNotBefore) ||
    surface.inkNeedsDown && (phase == .move || phase == .up)

/-- What one record does to the ink. -/
def inkRecord (physical : Bool) (now : Duration) (record : PointerRecord) :
    SessionProc (List TerminalFrame) := do
  let session ← Proc.get
  match session.surface with
  | none => return []
  | some surface =>
      let phase := penPhase record
      if inkIgnores surface physical now phase then
        Proc.set (session.note
          (.penned now physical record none surface.penContext
            surface.core.ink.planes))
        return []
      else
        let heeded :=
          { surface with
            inkNeedsDown :=
              match phase with
              | .down => false
              | .up | .cancel => true
              | .move | .hover | .unspecified => surface.inkNeedsDown }
        let (terminals, frozen) :=
          freezeOnDown session.freezeOnPenDown heeded phase
        let (segment, drawn) ← Proc.ofRes .surface
          (drawSegment frozen record phase)
        let session := session.noteFrozen surface frozen
        Proc.set
          { session.note (.penned now physical record segment
              frozen.penContext drawn.core.ink.planes) with
            surface := some drawn }
        return terminals

/-- A report with records of the physical pen counts as an interaction. -/
def notePen (self : Session) (records : List PointerRecord) (now : Duration)
    (physical : Bool) : Session :=
  match records.getLast? with
  | some record =>
      if physical then
        { self with
          lastInteraction := max self.lastInteraction now
          physicalPenInProximity :=
            decide (record.phase ≠ wire PointerPhase.cancel) }
      else self
  | none => self

/-- The records of a report, for a surface that follows the pen. -/
def penBatch (records : List PointerRecord) (now : Duration) :
    SessionProc (List Envelope) := do
  let session ← Proc.get
  match session.surface with
  | none => return []
  | some surface =>
      if surface.penForwardingEnabled then
        return [← inputBatch surface.surfaceId surface.generation
          session.nextInputSequence records now]
      else return []

/-- One report for a surface that follows the pen. -/
def penRecords (surface : ActiveSurface) (records : List PointerRecord)
    (now : Duration) (physical : Bool) : SessionProc (List Envelope) := do
  let (kept, filtered) := filterRecords surface records
  Proc.modify fun session =>
    { session.note (.penKept kept) with surface := some filtered }
  if kept.isEmpty then return []
  else
    let terminals ← Proc.gather (inkRecord physical now) kept
    let batches ← penBatch kept now
    let responses ← terminalResults terminals
    return batches ++ responses

def penReport (now : Duration) (physical : Bool)
    (records : List PointerRecord) : SessionProc (List Envelope) := do
  Proc.modify fun session => session.notePen records now physical
  let session ← Proc.get
  if physical && decide (now < session.inputNotBefore) then return []
  else
    match session.surface with
    | none => return []
    | some surface =>
        if !session.penAvailable ||
            !(surface.penForwardingEnabled || surface.localInk) ||
            session.localMenu.visible then
          Proc.set { session.note (.boundary now surface.inkPaused) with
            surface :=
              some { surface.rearmInk now with penNeedsDown := true } }
          return []
        else penRecords surface records now physical

/-- Show the ink drawn by the reports. -/
def flushInk (now : Duration) : SessionProc (List Envelope) := do
  let session ← Proc.get
  if session.surface.any (·.localInk) then
    let terminals ← runCore now DisplayCore.presentInk
    terminalResults terminals
  else return []

def penReportsInner (reports : List (List PointerRecord)) (now : Duration)
    (physical : Bool) : SessionProc (List Envelope) := do
  let responses ← Proc.gather (penReport now physical) reports
  let flushed ← flushInk now
  return responses ++ flushed

def penReports (reports : List (List PointerRecord)) (now : Duration) :
    SessionProc (List Envelope) :=
  penReportsInner reports now true

/-- The surface a batch of reports is for, and whether it follows touch. -/
abbrev TouchTarget := Option ((Nat × Nat) × Bool)

def touchTarget (self : Session) : TouchTarget :=
  self.surface.map fun surface =>
    ((surface.surfaceId, surface.generation), surface.touchForwardingEnabled)

/-- A batch for the target, unless there is nothing to say. -/
def touchBatch (target : TouchTarget) (events : List PhysicalPointerEvent)
    (now : Duration) : SessionProc (List Envelope) :=
  match target with
  | none => pure []
  | some ((surfaceId, generation), _) =>
      if events.isEmpty then pure []
      else do return [← pointerBatch surfaceId generation events now]

/-- Feed a report to the gesture recognizer. -/
def processTouch (report : List PhysicalPointerEvent) (now : Duration)
    (forwardEnabled cleanupEnabled : Bool) :
    SessionProc TouchGestureResult := do
  let session ← Proc.get
  let (result, touchGesture) :=
    session.touchGesture.process report forwardEnabled cleanupEnabled
  Proc.set { session.note (.touched now report result) with touchGesture }
  return result

/-- Detach the forwarded contacts. -/
def detachTouch : SessionProc (List PhysicalPointerEvent) := do
  let session ← Proc.get
  let (cancelled, touchGesture) := session.touchGesture.surfaceTransition
  Proc.set { session.note .detached with touchGesture }
  return cancelled

/-- A report captured before the current page was opened: the contacts are
followed, but nothing is forwarded. -/
def staleTouch (target : TouchTarget) (report : List PhysicalPointerEvent)
    (now : Duration) : SessionProc (List Envelope) := do
  let result ← processTouch report now false false
  let detached ← detachTouch
  let session ← Proc.get
  touchBatch target (result.cancelForwarded ++ detached) session.inputNotBefore

/-- Where the menu is shown. -/
def menuGeometry (self : Session) : Option (Nat × Nat) :=
  match self.surface with
  | some surface => some (surface.core.width, surface.core.height)
  | none =>
      self.fallback.map fun fallback =>
        (fallback.base.width, fallback.base.height)

/-- The menu consumes the contacts while it is shown. -/
def menuTouch (report : List PhysicalPointerEvent) (now : Duration) :
    SessionProc (List Envelope) := do
  let _ ← processTouch report now false false
  let session ← Proc.get
  match session.menuGeometry.bind fun (width, height) =>
      session.localMenu.actionForReport report width height with
  | none => return []
  | some action =>
      let responses ← handleLocalMenuAction action now
      let _ ← detachTouch
      return responses

/-- A current report while no menu is shown. -/
def surfaceTouch (target : TouchTarget) (report : List PhysicalPointerEvent)
    (now : Duration) : SessionProc (List Envelope) := do
  let gesture ← processTouch report now (target.any (·.2)) target.isSome
  if target.isNone then return []
  else
    let cancelled ← touchBatch target gesture.cancelForwarded now
    let forwarded ← touchBatch target gesture.forward now
    let cleaned ←
      if gesture.cleanupRequested then localCleanup now .chord else pure []
    return cancelled ++ forwarded ++ cleaned

def touchReport (target : TouchTarget) (now : Duration)
    (report : List PhysicalPointerEvent) : SessionProc (List Envelope) := do
  if report.isEmpty then return []
  else
    Proc.modify fun session =>
      { session with lastInteraction := max session.lastInteraction now }
    let session ← Proc.get
    if now < session.inputNotBefore then staleTouch target report now
    else if session.localMenu.visible then menuTouch report now
    else surfaceTouch target report now

def inputReports (reports : List (List PhysicalPointerEvent))
    (now : Duration) : SessionProc (List Envelope) := do
  let session ← Proc.get
  Proc.gather (touchReport session.touchTarget now) reports

/-- The record that ends the contact of another one. -/
def cancelRecord (record : PointerRecord) : PointerRecord :=
  { record with phase := wire PointerPhase.cancel, pressure := 0, buttons := 0 }

/-- Cancel what the producer sees on the active surface. -/
def cancelInput (surface : ActiveSurface)
    (cancelled : List PhysicalPointerEvent) (pen : Option PointerRecord)
    (now : Duration) (physical : Bool) : SessionProc (List Envelope) := do
  let batches ← touchBatch
    (some ((surface.surfaceId, surface.generation), true)) cancelled now
  let responses ← match pen with
    | none => pure []
    | some record =>
        penReportsInner [[cancelRecord record]] now physical
  return batches ++ responses

/-- Cancel physical contacts after capture failure without clearing ink. -/
def inputCaptureFailed (now : Duration) : SessionProc (List Envelope) := do
  let cancelled ← detachTouch
  Proc.modify fun session => { session.note .captureLost with
    touchGesture := {}
    physicalPenInProximity := false }
  let session ← Proc.get
  let responses ← match session.surface with
    | none => pure []
    | some surface => cancelInput surface cancelled surface.lastPen now true
  setPenAvailable false
  return responses

/-- The pen contact ends when the menu is toggled. -/
def liftPen (surface : ActiveSurface) (cancelled : List PhysicalPointerEvent)
    (now : Duration) : SessionProc (List Envelope) := do
  Proc.modify fun session => { session with
    surface := some
      { surface with penPoint := none, penNeedsDown := true, lastPen := none } }
  cancelInput surface cancelled surface.lastPen now false

def powerKeyPressed (now : Duration) : SessionProc (List Envelope) := do
  Proc.modify fun session => { session with lastInteraction := now }
  let session ← Proc.get
  if session.surface.isNone && session.fallback.isNone then return []
  else
    let cancelled ← detachTouch
    let responses ← match session.surface with
      | none => pure []
      | some surface => liftPen surface cancelled now
    Proc.modify fun session => session.withMenu session.localMenu.toggle
    let drawn ← renderLocalMenu now
    return responses ++ drawn

end Session

end RmDisplay.Receiver
