import RmDisplay.Protocol.Message
import RmDisplay.Receiver.TouchParser

/-!
# The pen device

The kernel describes a pen by its tools, its buttons and its axes.  Whenever
that has changed, a report gives a record with the phase of the stroke.
-/

namespace RmDisplay.Receiver

open Foundation Protocol

/-- The values an axis takes; there are at least two. -/
structure AxisRange where
  minimum : Int
  maximum : Int
  ordered : minimum < maximum

namespace AxisRange

def clamp (self : AxisRange) (raw : Int) : Int :=
  if raw < self.minimum then self.minimum
  else if self.maximum < raw then self.maximum
  else raw

/-- A raw value on a scale from zero to `maximum`. -/
def scaled (self : AxisRange) (raw : Int) (maximum : Nat) : Nat :=
  (self.clamp raw - self.minimum).toNat * maximum /
    (self.maximum - self.minimum).toNat

/-- Degrees of tilt.  Each side is normalized around zero. -/
def degrees (self : AxisRange) (raw : Int) : Int :=
  let value := self.clamp raw
  let extent := if value < 0 then -self.minimum else self.maximum
  if 0 < extent then max (-90) (min 90 ((value * 90).tdiv extent)) else 0

end AxisRange

/-- The side of a panel, in pixels. -/
structure PanelSide where
  pixels : Nat
  positive : 0 < pixels
  bounded : pixels ≤ 65536

/-- The largest coordinate in 16.16 format. -/
def PanelSide.last (self : PanelSide) : Nat := (self.pixels - 1) <<< 16

structure EvdevPenDevice where
  axes : Fin 3 → AxisRange
  tilt : Fin 2 → Option AxisRange
  width : PanelSide
  height : PanelSide
  rm2Transform : Bool
  /-- X, Y, pressure and the two tilts. -/
  raw : Fin 5 → Int
  pen : Bool
  eraser : Bool
  buttons : Nat
  dirty : Bool
  dropped : Bool
  last : Option PointerRecord

/-- What the kernel answers when it is asked for the state of the device.  The
query for the keys may fail, and so may that for an axis. -/
structure PenKernel where
  keys : Option (Nat → Bool)
  axis : Fin 5 → Option Int

/-- What an event tells the pen. -/
inductive PenEvent where
  | dropped
  | axis (index : Fin 5) (value : Int)
  | pen (down : Bool)
  | eraser (down : Bool)
  | button (index : Nat) (down : Bool)
  | report
  | other

def evKey : Nat := 1
def btnToolPen : Nat := 320
def btnToolRubber : Nat := 321
def btnTouch : Nat := 330
def btnStylus2 : Nat := 332

def penAxis : Nat → Option (Fin 5)
  | 0 => some 0
  | 1 => some 1
  | 24 => some 2
  | 26 => some 3
  | 27 => some 4
  | _ => none

def LinuxInputEvent.penEvent (self : LinuxInputEvent) : PenEvent :=
  if self.eventType = evSyn ∧ self.code = synDropped then .dropped
  else if self.eventType = evSyn ∧ self.code = synReport then .report
  else if self.eventType = evAbs then
    match penAxis self.code with
    | some index => .axis index self.value
    | none => .other
  else if self.eventType = evKey ∧ self.code = btnToolPen then
    .pen (self.value != 0)
  else if self.eventType = evKey ∧ self.code = btnToolRubber then
    .eraser (self.value != 0)
  else if self.eventType = evKey ∧ btnTouch ≤ self.code ∧
      self.code ≤ btnStylus2 then
    .button (self.code - btnTouch) (self.value != 0)
  else .other

/-- Do these buttons hold the tip down? -/
def tipDown (buttons : Nat) : Bool := buttons &&& 1 != 0

/-- The record that ends what another record began. -/
def cancelled (record : PointerRecord) : PointerRecord :=
  { record with phase := wire PointerPhase.cancel, pressure := 0, buttons := 0 }

namespace EvdevPenDevice

/-- A device that was just opened. -/
def opened (axes : Fin 3 → AxisRange) (tilt : Fin 2 → Option AxisRange)
    (width height : PanelSide) (rm2Transform : Bool) (raw : Fin 5 → Int) :
    EvdevPenDevice where
  axes
  tilt
  width
  height
  rm2Transform
  raw
  pen := false
  eraser := false
  buttons := 0
  dirty := false
  dropped := false
  last := none

def cancel (self : EvdevPenDevice) : List PointerRecord × EvdevPenDevice :=
  ((self.last.map cancelled).toList, { self with last := none })

/-- The position on the panel in 16.16 format.  On the RM2 the digitizer is
turned. -/
def position (self : EvdevPenDevice) : Nat × Nat :=
  if self.rm2Transform then
    ((self.axes 1).scaled (self.raw 1) self.width.last,
      self.height.last - (self.axes 0).scaled (self.raw 0) self.height.last)
  else
    ((self.axes 0).scaled (self.raw 0) self.width.last,
      (self.axes 1).scaled (self.raw 1) self.height.last)

def tilts (self : EvdevPenDevice) : Int × Int :=
  let first := ((self.tilt 0).map (·.degrees (self.raw 3))).getD 0
  let second := ((self.tilt 1).map (·.degrees (self.raw 4))).getD 0
  if self.rm2Transform then (second, -first) else (first, second)

def touching (self : EvdevPenDevice) : Bool := tipDown self.buttons

def wasTouching (self : EvdevPenDevice) : Bool :=
  self.last.any (tipDown ·.buttons)

def flags (self : EvdevPenDevice) : Nat := self.eraser.toNat

/-- The phase as the previous record suggests it. -/
def phase (self : EvdevPenDevice) : PointerPhase :=
  match self.touching, self.wasTouching with
  | true, false => .down
  | true, true => .move
  | false, true => .up
  | false, false => .hover

def record (self : EvdevPenDevice) : PointerRecord where
  device := wire PointerDevice.pen
  phase := wire self.phase
  flags := self.flags
  contactId := 1
  x1616 := self.position.1
  y1616 := self.position.2
  pressure :=
    if self.touching then (self.axes 2).scaled (self.raw 2) 65535 else 0
  buttons := self.buttons
  tiltX := self.tilts.1
  tiltY := self.tilts.2

def report (self : EvdevPenDevice) : List PointerRecord × EvdevPenDevice :=
  let device := { self with dirty := false }
  if !device.pen && !device.eraser then device.cancel
  else
    let record := device.record
    let (output, device) :=
      if device.last.any (·.flags != record.flags) then device.cancel
      else ([], device)
    let record :=
      if device.touching && device.last.isNone then
        { record with phase := wire PointerPhase.down }
      else record
    (output ++ [record], { device with last := some record })

/-- The state of the kernel after events were lost. -/
def resync (self : EvdevPenDevice) (kernel : PenKernel) (key : Nat → Bool) :
    EvdevPenDevice :=
  { self with
    pen := key btnToolPen
    eraser := key btnToolRubber
    buttons := (key btnTouch).toNat ||| ((key 331).toNat <<< 1) |||
      ((key btnStylus2).toNat <<< 2)
    raw := fun index => (kernel.axis index).getD (self.raw index)
    dropped := false
    dirty := true }

/-- One event of the kernel; there is no result where the kernel does not
answer. -/
def push (self : EvdevPenDevice) (kernel : PenKernel)
    (event : LinuxInputEvent) : Option (List PointerRecord × EvdevPenDevice) :=
  match event.penEvent, self.dropped with
  | .dropped, _ =>
      let (output, device) := self.cancel
      some (output, { device with dropped := true })
  | .report, true =>
      kernel.keys.map fun key => ([], self.resync kernel key)
  | .report, false => some (if self.dirty then self.report else ([], self))
  | _, true => some ([], self)
  | .axis index value, false =>
      some ([], { self with
        raw := Function.update self.raw index value, dirty := true })
  | .pen down, false => some ([], { self with pen := down, dirty := true })
  | .eraser down, false =>
      some ([], { self with eraser := down, dirty := true })
  | .button index down, false =>
      let bit := 1 <<< index
      some ([], { self with
        buttons :=
          if down then self.buttons ||| bit
          else self.buttons &&& (u32Max ^^^ bit)
        dirty := true })
  | .other, false => some ([], self)

end EvdevPenDevice

/-- Read one more record.  The state is the open stroke by its flags, and a
record that may not come now is not accepted. -/
def followRecord (stroke : Option Nat) (record : PointerRecord) :
    Option (Option Nat) :=
  match tryFrom PointerPhase record.phase with
  | some .down => if stroke = none then some (some record.flags) else none
  | some .move => if stroke = some record.flags then some stroke else none
  | some .up => if stroke = some record.flags then some none else none
  | some .cancel =>
      if stroke = none ∨ stroke = some record.flags then some none else none
  | some .hover => if stroke = none then some none else none
  | some .unspecified | none => none

/-- Read records in order. -/
def followRecords (stroke : Option Nat) (records : List PointerRecord) :
    Option (Option Nat) :=
  records.foldlM followRecord stroke

theorem followRecords_append {stroke : Option Nat}
    {first second : List PointerRecord} :
    followRecords stroke (first ++ second) =
      (followRecords stroke first).bind (followRecords · second) :=
  List.foldlM_append

theorem followRecords_single {stroke : Option Nat} {record : PointerRecord} :
    followRecords stroke [record] = followRecord stroke record := by
  unfold followRecords
  simp

theorem tryFrom_phase (phase : PointerPhase) :
    tryFrom PointerPhase (wire phase) = some phase := by
  cases phase <;> decide

namespace EvdevPenDevice

/-- The stroke that the last record left open. -/
def stroke (self : EvdevPenDevice) : Option Nat :=
  self.last.bind fun record =>
    if tipDown record.buttons then some record.flags else none

/-- The tip is lifted and the tool switched in one report. -/
def liftsAndSwitches (self : EvdevPenDevice) : Bool :=
  (self.pen || self.eraser) && !self.touching &&
    self.stroke.any (· != self.flags)

section

variable {device : EvdevPenDevice}

theorem cancel_follows :
    followRecords device.stroke device.cancel.1 = some none := by
  unfold cancel stroke
  cases device.last with
  | none => rfl
  | some record =>
      simp only [Option.map_some, Option.toList_some, Option.bind_some,
        followRecords_single, followRecord, cancelled, tryFrom_phase]
      cases tipDown record.buttons <;> simp

theorem flags_record (device : EvdevPenDevice) :
    device.record.flags = device.flags := rfl

theorem record_follows (same : ∀ old ∈ device.last, old.flags = device.flags) :
    followRecord device.stroke device.record =
      some (if device.touching then some device.flags else none) := by
  unfold followRecord record phase wasTouching stroke
  dsimp only
  rw [tryFrom_phase]
  cases last : device.last with
  | none => cases device.touching <;> simp
  | some old =>
      rw [← same old last]
      cases device.touching <;> cases isDown : tipDown old.buttons <;>
        simp [isDown]

theorem report_away (away : (device.pen || device.eraser) = false) :
    device.report = ((device.last.map cancelled).toList,
      { device with dirty := false, last := none }) := by
  simp only [Bool.or_eq_false_iff] at away
  unfold report cancel
  simp [away.1, away.2]

/-- The first record of a tool. -/
def firstRecord (self : EvdevPenDevice) : PointerRecord :=
  if self.touching then { self.record with phase := wire PointerPhase.down }
  else self.record

/-- A record of another tool comes after the old one was cancelled. -/
theorem report_switched (near : (device.pen || device.eraser) = true)
    {old : PointerRecord} (last : device.last = some old)
    (switched : old.flags ≠ device.flags) :
    device.report = ([cancelled old, device.firstRecord],
      { device with dirty := false, last := some device.firstRecord }) := by
  have reached : ¬ (!device.pen && !device.eraser) = true := by
    rw [← Bool.not_or, near]
    exact Bool.false_ne_true
  unfold report
  rw [if_neg reached]
  obtain ⟨axes, tilt, width, height, rm2Transform, raw, pen, eraser, buttons,
    dirty, dropped, previous⟩ := device
  cases last
  have differs : (old.flags != eraser.toNat) = true :=
    bne_iff_ne.mpr switched
  simp only [Option.any_some, flags_record, flags, differs, if_true, cancel,
    Option.isNone_none, Bool.and_true]
  rfl

theorem record_down (touches : device.touching = true)
    (first : device.last = none) :
    { device.record with phase := wire PointerPhase.down } =
      device.record := by
  have isDown : device.phase = .down := by
    unfold phase wasTouching
    rw [touches, first]
    rfl
  rw [← isDown]
  rfl

/-- A record of the same tool, or the first one, stands alone. -/
theorem report_same (near : (device.pen || device.eraser) = true)
    (same : ∀ old ∈ device.last, old.flags = device.flags) :
    device.report = ([device.record],
      { device with dirty := false, last := some device.record }) := by
  have reached : ¬ (!device.pen && !device.eraser) = true := by
    rw [← Bool.not_or, near]
    exact Bool.false_ne_true
  unfold report
  rw [if_neg reached]
  obtain ⟨axes, tilt, width, height, rm2Transform, raw, pen, eraser, buttons,
    dirty, dropped, previous⟩ := device
  cases previous with
  | none =>
      simp only [Option.any_none, Bool.false_eq_true, if_false,
        Option.isNone_none, Bool.and_true, List.nil_append]
      split
      · rename_i touches
        have same := record_down touches rfl
        exact congrArg (fun record => ([record], EvdevPenDevice.mk axes tilt
          width height rm2Transform raw pen eraser buttons false dropped
          (some record))) same
      · rfl
  | some old =>
      have differs : (old.flags != eraser.toNat) = false := by
        rw [bne_eq_false_iff_eq]
        exact same old rfl
      simp only [Option.any_some, flags_record, flags, differs,
        Bool.false_eq_true, if_false, Option.isNone_some, Bool.and_false,
        List.nil_append]
      rfl

theorem firstRecord_follows {old : PointerRecord}
    (last : device.last = some old) :
    followRecord none device.firstRecord =
      if device.touching then some (some device.flags)
      else if tipDown old.buttons then none else some none := by
  unfold firstRecord followRecord
  cases touches : device.touching with
  | true =>
      simp only [if_true, tryFrom_phase]
      rfl
  | false =>
      have isPhase : device.record.phase =
          wire (if tipDown old.buttons then PointerPhase.up else .hover) := by
        unfold record phase wasTouching
        rw [touches, last, Option.any_some]
        cases tipDown old.buttons <;> rfl
      simp only [Bool.false_eq_true, if_false, isPhase, tryFrom_phase]
      cases tipDown old.buttons <;> simp

theorem stroke_reported (device : EvdevPenDevice) (record : PointerRecord) :
    stroke { device with dirty := false, last := some record } =
      if tipDown record.buttons then some record.flags else none := rfl

/-- The records of a report go on with the stroke, unless the tip was lifted
while the tool was switched. -/
theorem report_follows :
    followRecords device.stroke device.report.1 =
      if device.liftsAndSwitches then none
      else some device.report.2.stroke := by
  cases near : device.pen || device.eraser with
  | false =>
      rw [report_away near]
      have rests : device.liftsAndSwitches = false := by
        rw [liftsAndSwitches, near]
        rfl
      rw [rests]
      exact cancel_follows
  | true =>
      by_cases same : ∀ old ∈ device.last, old.flags = device.flags
      · have rests : device.liftsAndSwitches = false := by
          rw [liftsAndSwitches, near, Bool.true_and]
          unfold stroke
          cases last : device.last with
          | none => simp
          | some old =>
              rw [Option.bind_some, same old last]
              cases tipDown old.buttons <;> simp
        rw [report_same near same, rests, followRecords_single,
          record_follows same]
        rfl
      · obtain ⟨old, last, switched⟩ : ∃ old, device.last = some old ∧
            old.flags ≠ device.flags := by
          cases last : device.last with
          | none => exact absurd (by simp [last]) same
          | some old => exact ⟨old, rfl, by simpa [last] using same⟩
        have cancels : [cancelled old] = device.cancel.1 := by
          rw [cancel, last]
          rfl
        rw [report_switched near last switched, liftsAndSwitches, near]
        change followRecords device.stroke ([cancelled old] ++
          [device.firstRecord]) = _
        rw [followRecords_append, cancels, cancel_follows, Option.bind_some,
          followRecords_single, firstRecord_follows last, stroke_reported]
        have isStroke : device.stroke =
            if tipDown old.buttons then some old.flags else none := by
          rw [stroke, last]
          rfl
        have sameFlags : device.firstRecord.flags = device.flags := by
          unfold firstRecord
          split <;> rfl
        have sameButtons : tipDown device.firstRecord.buttons =
            device.touching := by
          unfold firstRecord
          split <;> rfl
        rw [isStroke, sameFlags, sameButtons]
        cases device.touching <;> cases tipDown old.buttons <;>
          simp [switched]

end

end EvdevPenDevice

end RmDisplay.Receiver
