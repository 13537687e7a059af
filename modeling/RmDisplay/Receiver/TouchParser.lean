import RmDisplay.Foundation.Run
import RmDisplay.Receiver.Gesture

/-!
# The Type-B touch parser

The kernel describes a touch panel by slots: an event selects a slot, starts or
ends the contact in it, or moves it, and a SYN_REPORT makes everything since the
last one visible at once.  The parser gives contacts numbers of its own.
-/

namespace RmDisplay.Receiver

open Foundation

structure LinuxInputEvent where
  eventType : Nat
  code : Nat
  value : Int
deriving DecidableEq, Repr

/-- The largest signed 32-bit number. -/
def i32Max : Int := 2 ^ 31 - 1

def evSyn : Nat := 0
def evAbs : Nat := 3
def synReport : Nat := 0
def synDropped : Nat := 3
def absMtSlot : Nat := 47
def absMtPositionX : Nat := 53
def absMtPositionY : Nat := 54
def absMtTrackingId : Nat := 57
def maxSlots : Nat := 16

theorem maxSlots_pos : 0 < maxSlots := by
  decide

/-- A slot number is cut off at the last slot. -/
theorem slotNumber_lt (value : Int) :
    min value.toNat (maxSlots - 1) < maxSlots := by
  simp only [maxSlots]
  omega

/-- What an event tells the parser. -/
inductive TouchInput where
  | dropped
  | slot (value : Int)
  | trackingId (value : Int)
  | positionX (value : Int)
  | positionY (value : Int)
  | report
  | other
deriving DecidableEq, Repr

def LinuxInputEvent.touchInput (self : LinuxInputEvent) : TouchInput :=
  if self.eventType = evSyn ∧ self.code = synDropped then .dropped
  else if self.eventType = evAbs ∧ self.code = absMtSlot then .slot self.value
  else if self.eventType = evAbs ∧ self.code = absMtTrackingId then
    .trackingId self.value
  else if self.eventType = evAbs ∧ self.code = absMtPositionX then
    .positionX self.value
  else if self.eventType = evAbs ∧ self.code = absMtPositionY then
    .positionY self.value
  else if self.eventType = evSyn ∧ self.code = synReport then .report
  else .other

structure TouchTransform where
  invertX : Bool := false
  invertY : Bool := false
deriving DecidableEq, Repr

structure Slot where
  contactId : Option Nat := none
  x : Option Int := none
  y : Option Int := none
  pendingDown : Bool := false
  pendingUp : Bool := false
  changed : Bool := false
deriving DecidableEq, Repr

structure TypeBParser where
  slots : Vector Slot maxSlots
  currentSlot : Fin maxSlots
  nextContactId : Nat
  rawMinX : Int
  rawMaxX : Int
  rawMinY : Int
  rawMaxY : Int
  panelWidth : Nat
  panelHeight : Nat
  transform : TouchTransform
  dropped : Bool
deriving DecidableEq, Repr

/-- A parser returns no errors, but the arithmetic of a coordinate may
overflow. -/
abbrev ParserProc (α : Type) := Proc TypeBParser Empty α

namespace TypeBParser

/-- The ranges of the device and the panel a parser is made for. -/
structure Setup where
  rawMinX : Int
  rawMaxX : Int
  rawMinY : Int
  rawMaxY : Int
  panelWidth : Nat
  panelHeight : Nat
  transform : TouchTransform := {}
deriving DecidableEq, Repr

def withRangesAndTransform (setup : Setup) : TypeBParser where
  slots := Vector.replicate maxSlots {}
  currentSlot := ⟨0, by decide⟩
  nextContactId := 1
  rawMinX := setup.rawMinX
  rawMaxX := max setup.rawMaxX (min (setup.rawMinX + 1) i32Max)
  rawMinY := setup.rawMinY
  rawMaxY := max setup.rawMaxY (min (setup.rawMinY + 1) i32Max)
  panelWidth := max setup.panelWidth 1
  panelHeight := max setup.panelHeight 1
  transform := setup.transform
  dropped := false

/-- A raw coordinate on an axis of the panel.  The range is a signed 32-bit
difference and a divisor, and the offset is never larger; only their product
is taken in 64 bits. -/
def mapAxis (raw rawMin rawMax : Int) (extent : Nat) (invert : Bool) :
    Res Empty Nat :=
  let range := rawMax - rawMin
  if i32Max < range ∨ range = 0 then .panic
  else
    let offset := max rawMin (min raw rawMax) - rawMin
    match Bounded.signed (offset * (extent - 1 : Nat)) with
    | none => .panic
    | some product =>
        let mapped := (product / range).toNat
        .ok (if invert then extent - 1 - mapped else mapped)

def mapEvent (self : TypeBParser) (phase : PhysicalPhase) (contactId : Nat)
    (rawX rawY : Int) : Res Empty PhysicalPointerEvent := do
  let x ← mapAxis rawX self.rawMinX self.rawMaxX self.panelWidth
    self.transform.invertX
  let y ← mapAxis rawY self.rawMinY self.rawMaxY self.panelHeight
    self.transform.invertY
  return { phase, contactId, x, y }

end TypeBParser

namespace Slot

/-- A contact and its place, once both coordinates are known. -/
def located (self : Slot) : Option (Nat × Int × Int) :=
  match self.contactId, self.x, self.y with
  | some contactId, some x, some y => some (contactId, x, y)
  | _, _, _ => none

/-- What a report says about a located contact. -/
def news (self : Slot) : Option PhysicalPhase :=
  if self.pendingDown then some .down
  else if self.pendingUp then some .up
  else if self.changed then some .move
  else none

/-- What a report announces; after an overflow everything is cancelled. -/
def announces (self : Slot) (dropped : Bool) : Option PhysicalPhase :=
  match self.located with
  | none => none
  | some _ => if dropped then some .cancel else self.news

/-- The slot after a report. -/
def reported (self : Slot) (dropped : Bool) : Slot :=
  if dropped then {}
  else
    match self.located, self.news with
    | none, _ => if self.pendingUp then {} else self
    | some _, none => self
    | some _, some _ =>
        if self.pendingUp then {}
        else { self with pendingDown := false, changed := false }

/-- The event of a slot in a report. -/
def report (self : Slot) (parser : TypeBParser) :
    Res Empty (Option PhysicalPointerEvent) :=
  match self.located, self.announces parser.dropped with
  | some (contactId, x, y), some phase => do
      return some (← parser.mapEvent phase contactId x y)
  | _, _ => .ok none

end Slot

namespace TypeBParser

/-- The selected slot. -/
def current (self : TypeBParser) : Slot := self.slots[self.currentSlot]

def setCurrent (self : TypeBParser) (slot : Slot) : TypeBParser :=
  { self with slots := self.slots.set self.currentSlot slot }

def finishReport : ParserProc (List PhysicalPointerEvent) := do
  let parser ← Proc.get
  let output ← Proc.ofRes id
    (Res.filterMap (·.report parser) parser.slots.toList)
  Proc.set { parser with
    slots := parser.slots.map (·.reported parser.dropped)
    dropped := false }
  return output

/-- The next contact number; zero is skipped. -/
def allocated (self : TypeBParser) : Nat × TypeBParser :=
  let id := max self.nextContactId 1
  (id, { self with
    nextContactId := max (Bounded.wrappingSucc u32Max id) 1 })

def push (event : LinuxInputEvent) : ParserProc (List PhysicalPointerEvent) := do
  let parser ← Proc.get
  match event.touchInput with
  | .dropped =>
      Proc.set { parser with dropped := true }
      return []
  | .slot value =>
      Proc.set { parser with
        currentSlot := ⟨min value.toNat (maxSlots - 1), by
          simp only [maxSlots]
          omega⟩ }
      return []
  | .trackingId value =>
      if 0 ≤ value then
        let (contactId, parser) := parser.allocated
        Proc.set (parser.setCurrent
          { contactId := some contactId, pendingDown := true })
      else if parser.current.contactId.isSome then
        Proc.set (parser.setCurrent { parser.current with pendingUp := true })
      return []
  | .positionX value =>
      Proc.set (parser.setCurrent
        { parser.current with x := some value, changed := true })
      return []
  | .positionY value =>
      Proc.set (parser.setCurrent
        { parser.current with y := some value, changed := true })
      return []
  | .report => finishReport
  | .other => return []

end TypeBParser

abbrev parserStep := procStep TypeBParser.push

abbrev ParserEvent :=
  Event TypeBParser LinuxInputEvent (Except Empty (List PhysicalPointerEvent))

/-- A run of events on a fresh parser. -/
def ParserRun (setup : TypeBParser.Setup) (history : List ParserEvent)
    (final : TypeBParser) : Prop :=
  Run parserStep (.withRangesAndTransform setup) history final

end RmDisplay.Receiver
