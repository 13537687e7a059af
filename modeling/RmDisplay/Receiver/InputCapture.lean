import RmDisplay.Core.Scheduler
import RmDisplay.Foundation.Ordering
import RmDisplay.Foundation.Run
import RmDisplay.Receiver.Gesture

/-!
# Capturing the input

A reader merges what the pen and the touch device report, in the order of
time, into a queue that the session drains.  The reader and the session take
turns in any order; a step of either is what it does under the lock.
-/

namespace RmDisplay.Receiver

open RmDisplay.Core (Duration)
open Foundation Protocol

inductive Report where
  | touch (events : List PhysicalPointerEvent)
  | pen (records : List PointerRecord)
  | fault (message : String)
deriving DecidableEq, Repr

namespace Report

def touch? : Report → Option (List PhysicalPointerEvent)
  | .touch events => some events
  | _ => none

def pen? : Report → Option (List PointerRecord)
  | .pen records => some records
  | _ => none

def isFault : Report → Bool
  | .fault _ => true
  | _ => false

end Report

structure CapturedReport where
  time : Duration
  report : Report
deriving DecidableEq, Repr

def captureCapacity : Nat := 8192

def queueExhausted : String :=
  "input queue exhausted; input disabled, existing ink retained; " ++
    "submit via host then reconnect"

def pendingExhausted : String := "input capture ordering buffer exhausted"

structure InputCapture where
  /-- There is something to drain. -/
  wake : Bool := false
  stop : Bool := false
  failed : Bool := false
  queue : List CapturedReport := []
deriving DecidableEq, Repr

namespace InputCapture

/-- One more entry than the capacity is kept for the fault. -/
def push (self : InputCapture) (report : CapturedReport) :
    Bool × InputCapture :=
  if self.stop then (false, self)
  else if self.queue.length = captureCapacity then
    (false, { self with
      failed := true
      queue := self.queue ++ [⟨report.time, .fault queueExhausted⟩]
      stop := true
      wake := true })
  else (true, { self with queue := self.queue ++ [report], wake := true })

def drain (self : InputCapture) : List CapturedReport × InputCapture :=
  (self.queue, { self with queue := [], wake := false })

end InputCapture

/-- Where the reader is in its loop. -/
inductive CaptureReader where
  /-- At the head of the loop. -/
  | polling
  /-- In front of the reports that are ready. -/
  | pushing (ready : List CapturedReport)
  /-- The loop has failed. -/
  | failing (message : String)
  | stopped
deriving DecidableEq, Repr

/-- What the reader reads, and the reader at work. -/
structure CaptureSystem where
  capture : InputCapture
  reader : CaptureReader
  pending : List CapturedReport
  /-- The time at which the last turn began. -/
  watermark : Option Duration
  /-- The reports the devices have not returned yet. -/
  pen : List (Duration × List PointerRecord)
  touch : List (Duration × List PhysicalPointerEvent)

/-- A turn of the loop begins at a time, and the devices return that many
reports. -/
inductive CaptureInput where
  | turn (watermark : Duration) (pens touches : Nat)
  | push
  | error (message : String)
  | fault (now : Duration)
  | drain
  | stop

namespace CaptureSystem

/-- The reader has drained what came before, and begins. -/
def started (pen : Option (List (Duration × List PointerRecord)))
    (touch : Option (List (Duration × List PhysicalPointerEvent))) :
    CaptureSystem where
  capture := {}
  reader := if pen.isNone && touch.isNone then .stopped else .polling
  pending := []
  watermark := none
  pen := pen.getD []
  touch := touch.getD []

/-- The ordering buffer after both devices were read. -/
def gathered (self : CaptureSystem) (pens touches : Nat) :
    List CapturedReport :=
  self.pending ++
    (self.pen.take pens).map (fun (time, records) => ⟨time, .pen records⟩) ++
    (self.touch.take touches).map fun (time, events) => ⟨time, .touch events⟩

/-- One turn up to the reports that are ready.  Records arriving during the two
reads wait for the next turn. -/
def turn (self : CaptureSystem) (watermark : Duration) (pens touches : Nat) :
    CaptureSystem :=
  if self.capture.stop then { self with reader := .stopped }
  else
    let pending := self.gathered pens touches
    let system := { self with
      watermark := some watermark
      pen := self.pen.drop pens
      touch := self.touch.drop touches }
    if captureCapacity < pending.length then
      { system with pending, reader := .failing pendingExhausted }
    else
      let pending := sortByKey (·.time) pending
      { system with
        reader := .pushing (pending.takeWhile (·.time ≤ watermark))
        pending := pending.dropWhile (·.time ≤ watermark) }

/-- Push the first of the reports that are ready. -/
def pushReady (self : CaptureSystem) (origin : Duration)
    (report : CapturedReport) (ready : List CapturedReport) : CaptureSystem :=
  if report.time < origin then { self with reader := .pushing ready }
  else
    let (pushed, capture) :=
      self.capture.push { report with time := report.time - origin }
    { self with
      capture
      reader := if pushed then .pushing ready else .stopped }

/-- What the session gets from a step; there is none where the reader is
elsewhere. -/
def take (origin : Duration) (self : CaptureSystem) :
    CaptureInput → Option (List CapturedReport × CaptureSystem)
  | .turn watermark pens touches =>
      if self.reader = .polling then
        some ([], self.turn watermark pens touches)
      else none
  | .push =>
      match self.reader with
      | .pushing [] => some ([], { self with reader := .polling })
      | .pushing (report :: ready) =>
          some ([], self.pushReady origin report ready)
      | _ => none
  | .error message =>
      if self.reader = .polling then
        some ([], { self with reader := .failing message })
      else none
  | .fault now =>
      match self.reader with
      | .failing message =>
          let (_, capture) :=
            { self.capture with failed := true }.push
              ⟨now - origin, .fault message⟩
          some ([], { self with
            capture := { capture with stop := true }, reader := .stopped })
      | _ => none
  | .drain =>
      let (reports, capture) := self.capture.drain
      some (reports, { self with capture })
  | .stop =>
      some ([], { self with capture := { self.capture with stop := true } })

end CaptureSystem

end RmDisplay.Receiver
