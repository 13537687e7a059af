import Mathlib.Data.List.Forall2
import RmDisplay.Receiver.TouchContacts

/-!
# Positions the kernel does not resend

The kernel leaves out a position that equals the last one it sent for the same
slot and axis, also when a new contact took the slot.  Two runs of the parser
are compared, one with and one without the redundant positions.  What was sent
is a log of its own; the relation between the two runs says how each slot of
either parser follows from the log.
-/

namespace RmDisplay.Receiver

open Foundation

/-- An event with a mark that says whether it is kept. -/
abbrev MarkedInput := LinuxInputEvent × Bool

/-- What was sent for one axis of a slot. -/
structure AxisLog where
  last : Option Int := none
  /-- Was a value sent since the contact appeared? -/
  explicit : Bool := false
  /-- Was such a value kept? -/
  kept : Bool := false
deriving DecidableEq, Repr

def AxisLog.send (self : AxisLog) (value : Int) (keep : Bool) : AxisLog where
  last := some value
  explicit := true
  kept := self.kept || keep

/-- A new contact in the slot. -/
def AxisLog.restart (self : AxisLog) : AxisLog := { last := self.last }

structure SlotLog where
  x : AxisLog := {}
  y : AxisLog := {}
  /-- Has the contact in the slot not been in a report yet? -/
  appearing : Bool := false
deriving DecidableEq, Repr

/-- The place of a slot in the log. -/
abbrev SlotIndex := Fin maxSlots

structure SentLog where
  slots : Vector SlotLog maxSlots
  current : Fin maxSlots

namespace SentLog

def empty : SentLog := ⟨Vector.replicate maxSlots {}, ⟨0, maxSlots_pos⟩⟩

def selected (self : SentLog) : SlotLog := self.slots[self.current]

def setSelected (self : SentLog) (slot : SlotLog) : SentLog :=
  { self with slots := self.slots.set self.current slot }

/-- The log after one more event. -/
def follow (self : SentLog) (marked : MarkedInput) : SentLog :=
  match marked.1.touchInput with
  | .slot value =>
      { self with
        current := ⟨min value.toNat (maxSlots - 1), slotNumber_lt value⟩ }
  | .trackingId value =>
      if 0 ≤ value then
        self.setSelected
          ⟨self.selected.x.restart, self.selected.y.restart, true⟩
      else self
  | .positionX value =>
      self.setSelected { self.selected with
        x := self.selected.x.send value marked.2 }
  | .positionY value =>
      self.setSelected { self.selected with
        y := self.selected.y.send value marked.2 }
  | .report =>
      { self with slots := self.slots.map ({ · with appearing := false }) }
  | .dropped | .other => self

/-- The log of a list of events, the latest first. -/
def ofInputs : List MarkedInput → SentLog
  | [] => empty
  | marked :: earlier => (ofInputs earlier).follow marked

/-- Does an event repeat the last value of its slot and axis? -/
def Repeats (self : SentLog) (input : LinuxInputEvent) : Prop :=
  match input.touchInput with
  | .positionX value => self.selected.x.last = some value
  | .positionY value => self.selected.y.last = some value
  | _ => False

/-- Both positions of every contact that appears were sent. -/
def Explicit (self : SentLog) : Prop :=
  ∀ i : SlotIndex, self.slots[i].appearing = true →
    self.slots[i].x.explicit = true ∧ self.slots[i].y.explicit = true

/-- Both positions of every contact that appears were sent and kept. -/
def Kept (self : SentLog) : Prop :=
  ∀ i : SlotIndex, self.slots[i].appearing = true →
    self.slots[i].x.kept = true ∧ self.slots[i].y.kept = true

end SentLog

/-- No overflow, only repeated positions are deleted, and the first report of
every contact carries both positions. -/
def Redundant : List MarkedInput → Prop
  | [] => True
  | marked :: earlier =>
      Redundant earlier ∧ marked.1.touchInput ≠ .dropped ∧
        (marked.2 = false → (SentLog.ofInputs earlier).Repeats marked.1) ∧
        (marked.1.touchInput = .report → (SentLog.ofInputs earlier).Explicit)

/-- In the first report of every contact some event of each axis is kept. -/
def KeepsFirst : List MarkedInput → Prop
  | [] => True
  | marked :: earlier =>
      KeepsFirst earlier ∧
        (marked.1.touchInput = .report → (SentLog.ofInputs earlier).Kept)

instance SentLog.decidableRepeats (log : SentLog) (input : LinuxInputEvent) :
    Decidable (log.Repeats input) :=
  match isInput : input.touchInput with
  | .positionX value => decidable_of_iff (log.selected.x.last = some value)
      (by rw [SentLog.Repeats, isInput])
  | .positionY value => decidable_of_iff (log.selected.y.last = some value)
      (by rw [SentLog.Repeats, isInput])
  | .dropped | .slot _ | .trackingId _ | .report | .other =>
      .isFalse (by rw [SentLog.Repeats, isInput]; exact id)

instance (log : SentLog) : Decidable log.Explicit :=
  inferInstanceAs (Decidable (∀ _, _))

instance (log : SentLog) : Decidable log.Kept :=
  inferInstanceAs (Decidable (∀ _, _))

instance Redundant.decidable : ∀ marks, Decidable (Redundant marks)
  | [] => .isTrue trivial
  | _ :: earlier =>
      have := Redundant.decidable earlier
      inferInstanceAs (Decidable (_ ∧ _))

instance KeepsFirst.decidable : ∀ marks, Decidable (KeepsFirst marks)
  | [] => .isTrue trivial
  | _ :: earlier =>
      have := KeepsFirst.decidable earlier
      inferInstanceAs (Decidable (_ ∧ _))

/-- The events that are left. -/
def thinned (marks : List MarkedInput) : List LinuxInputEvent :=
  (marks.filter (·.2)).map (·.1)

/-- The Down and Up events among others. -/
def taps (events : List PhysicalPointerEvent) : List PhysicalPointerEvent :=
  events.filter fun event => event.phase == .down || event.phase == .up

/-- The Down and Up events after each report, the latest first. -/
def tapsByReport (history : List ParserEvent) :
    List (List PhysicalPointerEvent) :=
  (history.filter (·.input.touchInput == .report)).map (taps ·.events)

/-- A coordinate of a contact, from what was sent. -/
def AxisLog.known (self : AxisLog) (sent : Bool) : Option Int :=
  if sent then self.last else none

/-- The slots of two parsers that hold the same contact, one of which heard
everything that was sent, and one only what was kept. -/
structure SlotsFollow (log : SlotLog) (full thin : Slot) : Prop where
  contact : thin.contactId = full.contactId
  flags : thin.pendingDown = full.pendingDown ∧ thin.pendingUp = full.pendingUp
  changed : thin.changed = true → full.changed = true
  fullPlace : full.contactId.isSome = true →
    full.x = log.x.known log.x.explicit ∧ full.y = log.y.known log.y.explicit
  thinPlace : full.contactId.isSome = true →
    thin.x = log.x.known log.x.kept ∧ thin.y = log.y.known log.y.kept
  explicit : (log.x.kept = true → log.x.explicit = true) ∧
    (log.y.kept = true → log.y.explicit = true)
  sent : (log.x.explicit = true → log.x.last.isSome = true) ∧
    (log.y.explicit = true → log.y.last.isSome = true)
  appears : full.contactId.isSome = true →
    full.pendingDown = log.appearing
  appearing : log.appearing = true → full.contactId.isSome = true
  settled : full.contactId.isSome = true → log.appearing = false →
    log.x.kept = true ∧ log.y.kept = true

theorem Slot.reported_eq (slot : Slot) :
    slot.reported false =
      if slot.pendingUp then {}
      else if slot.located.isSome then
        { slot with pendingDown := false, changed := false }
      else slot := by
  unfold Slot.reported
  cases slot.located with
  | none => simp
  | some place =>
      obtain ⟨contactId, x, y, pendingDown, pendingUp, changed⟩ := slot
      cases pendingDown <;> cases pendingUp <;> cases changed <;>
        simp [Slot.news]

namespace SlotsFollow

variable {log : SlotLog} {full thin : Slot}

theorem kept_of_located (follows : SlotsFollow log full thin)
    (located : thin.located.isSome = true) :
    log.x.kept = true ∧ log.y.kept = true := by
  obtain ⟨⟨contactId, x, y⟩, isLocated⟩ := Option.isSome_iff_exists.mp located
  obtain ⟨holds, isX, isY⟩ := Slot.located_eq_some.mp isLocated
  rw [follows.contact] at holds
  obtain ⟨thinX, thinY⟩ := follows.thinPlace (by rw [holds]; rfl)
  constructor
  · by_contra lost
    rw [thinX, AxisLog.known, if_neg lost] at isX
    cases isX
  · by_contra lost
    rw [thinY, AxisLog.known, if_neg lost] at isY
    cases isY

theorem located_eq (follows : SlotsFollow log full thin)
    (kept : log.appearing = true → log.x.kept = true ∧ log.y.kept = true) :
    thin.located = full.located := by
  unfold Slot.located
  rw [follows.contact]
  cases holds : full.contactId with
  | none => rfl
  | some contactId =>
      have present : full.contactId.isSome = true := by rw [holds]; rfl
      obtain ⟨keptX, keptY⟩ : log.x.kept = true ∧ log.y.kept = true := by
        cases isAppearing : log.appearing with
        | true => exact kept isAppearing
        | false => exact follows.settled present isAppearing
      obtain ⟨thinX, thinY⟩ := follows.thinPlace present
      obtain ⟨fullX, fullY⟩ := follows.fullPlace present
      rw [thinX, thinY, fullX, fullY, AxisLog.known, AxisLog.known,
        AxisLog.known, AxisLog.known, if_pos keptX, if_pos keptY,
        if_pos (follows.explicit.1 keptX), if_pos (follows.explicit.2 keptY)]

theorem located_of_held (follows : SlotsFollow log full thin)
    (sent : log.appearing = true →
      log.x.explicit = true ∧ log.y.explicit = true)
    (present : full.contactId.isSome = true) : full.located.isSome = true := by
  obtain ⟨sentX, sentY⟩ : log.x.explicit = true ∧ log.y.explicit = true := by
    cases isAppearing : log.appearing with
    | true => exact sent isAppearing
    | false =>
        obtain ⟨keptX, keptY⟩ := follows.settled present isAppearing
        exact ⟨follows.explicit.1 keptX, follows.explicit.2 keptY⟩
  obtain ⟨contactId, holds⟩ := Option.isSome_iff_exists.mp present
  obtain ⟨fullX, fullY⟩ := follows.fullPlace present
  obtain ⟨x, isX⟩ := Option.isSome_iff_exists.mp (follows.sent.1 sentX)
  obtain ⟨y, isY⟩ := Option.isSome_iff_exists.mp (follows.sent.2 sentY)
  rw [AxisLog.known, if_pos sentX, isX] at fullX
  rw [AxisLog.known, if_pos sentY, isY] at fullY
  have located : full.located = some (contactId, x, y) :=
    Slot.located_eq_some.mpr ⟨holds, fullX, fullY⟩
  rw [located]
  rfl

/-- Both runs announce the same, apart from a move that the thinned run does
not notice. -/
theorem announces_eq (follows : SlotsFollow log full thin)
    (sameLocated : thin.located = full.located) :
    thin.announces false = full.announces false ∨
      thin.announces false = none ∧ full.announces false = some .move := by
  unfold Slot.announces Slot.news
  rw [sameLocated, follows.flags.1, follows.flags.2]
  cases full.located with
  | none => exact .inl rfl
  | some place =>
      cases full.pendingDown with
      | true => exact .inl rfl
      | false =>
          cases full.pendingUp with
          | true => exact .inl rfl
          | false =>
              have moved := follows.changed
              cases isThin : thin.changed with
              | true => simp [moved isThin]
              | false => cases full.changed <;> simp

/-- The relation after a report in which the positions were kept. -/
theorem reported (follows : SlotsFollow log full thin)
    (kept : log.appearing = true → log.x.kept = true ∧ log.y.kept = true) :
    SlotsFollow { log with appearing := false } (full.reported false)
      (thin.reported false) := by
  have sameLocated := follows.located_eq kept
  have known := follows.located_of_held fun appearing =>
    ⟨follows.explicit.1 (kept appearing).1, follows.explicit.2 (kept appearing).2⟩
  rw [Slot.reported_eq, Slot.reported_eq, sameLocated, follows.flags.2]
  cases lifted : full.pendingUp with
  | true => exact ⟨rfl, ⟨rfl, rfl⟩, nofun, nofun, nofun, follows.explicit,
      follows.sent, nofun, nofun, nofun⟩
  | false =>
      simp only [Bool.false_eq_true, if_false]
      split
      · refine ⟨follows.contact, ⟨rfl, rfl⟩, nofun,
          follows.fullPlace, follows.thinPlace, follows.explicit, follows.sent,
          fun _ => rfl, nofun, fun present _ => ?_⟩
        cases isAppearing : log.appearing with
        | true => exact kept isAppearing
        | false => exact follows.settled present isAppearing
      · rename_i hidden
        have free : ¬ full.contactId.isSome = true :=
          fun present => hidden (known present)
        exact ⟨follows.contact, follows.flags, follows.changed,
          follows.fullPlace, follows.thinPlace, follows.explicit, follows.sent,
          fun present => absurd present free, nofun,
          fun present => absurd present free⟩

end SlotsFollow

/-- Does a report announce a Down or an Up? -/
def Slot.tapped (self : Slot) : Bool :=
  self.announces false == some .down || self.announces false == some .up

variable {parser : TypeBParser}

theorem Slot.located_of_tapped {slot : Slot} (tapped : slot.tapped = true) :
    slot.located.isSome = true := by
  cases isLocated : slot.located with
  | some place => rfl
  | none =>
      rw [Slot.tapped, Slot.announces, isLocated] at tapped
      cases tapped

private theorem report_cases {slot : Slot}
    {image : Option PhysicalPointerEvent} (undropped : parser.dropped = false)
    (reported : slot.report parser = .ok image) :
    (slot.announces false = none ∧ image = none) ∨
      ∃ event, slot.announces false = some event.phase ∧ image = some event := by
  unfold Slot.report at reported
  rw [undropped] at reported
  split at reported
  · rename_i isLocated isPhase
    obtain ⟨event, mapped, same⟩ := Res.bind_eq_ok.mp reported
    obtain ⟨left, _, mapped⟩ := Res.bind_eq_ok.mp mapped
    obtain ⟨top, _, mapped⟩ := Res.bind_eq_ok.mp mapped
    cases mapped
    cases same
    exact .inr ⟨_, isPhase, rfl⟩
  · rename_i silent
    cases reported
    refine .inl ⟨?_, rfl⟩
    cases isLocated : slot.located with
    | none => rw [Slot.announces, isLocated]
    | some place =>
        cases isPhase : slot.announces false with
        | none => rfl
        | some phase => exact (silent _ _ _ _ isLocated isPhase).elim

private theorem length_taps {slots : List Slot}
    {events : List PhysicalPointerEvent} (undropped : parser.dropped = false)
    (reports : Res.filterMap (·.report parser) slots = .ok events) :
    (taps events).length = slots.countP (·.tapped) := by
  induction slots generalizing events with
  | nil =>
      cases reports
      rfl
  | cons slot slots induction =>
      obtain ⟨image, isImage, reports⟩ := Res.bind_eq_ok.mp reports
      obtain ⟨rest, isRest, reports⟩ := Res.bind_eq_ok.mp reports
      rw [List.countP_cons, ← induction isRest, Slot.tapped]
      rcases report_cases undropped isImage with
        ⟨silent, rfl⟩ | ⟨event, announces, rfl⟩
      · cases reports
        rw [silent]
        simp
      · cases reports
        rw [announces, taps, List.filter_cons]
        cases event.phase <;> simp [taps]

private theorem report_follows {full thin : Slot}
    {image : Option PhysicalPointerEvent} (undropped : parser.dropped = false)
    (sameLocated : thin.located = full.located)
    (announces : thin.announces false = full.announces false ∨
      thin.announces false = none ∧ full.announces false = some .move)
    (reported : full.report parser = .ok image) :
    ∃ kept, thin.report parser = .ok kept ∧
      taps kept.toList = taps image.toList := by
  rcases announces with same | ⟨silent, moves⟩
  · refine ⟨image, ?_, rfl⟩
    rw [← reported, Slot.report, Slot.report, undropped, sameLocated, same]
  · refine ⟨none, ?_, ?_⟩
    · rw [Slot.report, undropped, silent]
      cases thin.located <;> rfl
    · rcases report_cases undropped reported with
        ⟨none, _⟩ | ⟨event, isPhase, rfl⟩
      · rw [moves] at none
        cases none
      · have isMove : event.phase = .move :=
          (Option.some.inj (moves.symm.trans isPhase)).symm
        simp [taps, isMove]

private theorem taps_follow {fulls thins : List Slot}
    {events : List PhysicalPointerEvent} (undropped : parser.dropped = false)
    (alike : List.Forall₂ (fun full thin : Slot =>
      thin.located = full.located ∧
        (thin.announces false = full.announces false ∨
          thin.announces false = none ∧ full.announces false = some .move))
      fulls thins)
    (reports : Res.filterMap (·.report parser) fulls = .ok events) :
    ∃ kept, Res.filterMap (·.report parser) thins = .ok kept ∧
      taps kept = taps events := by
  induction alike generalizing events with
  | nil =>
      cases reports
      exact ⟨[], rfl, rfl⟩
  | @cons full thin fulls thins first _ induction =>
      obtain ⟨image, isImage, reports⟩ := Res.bind_eq_ok.mp reports
      obtain ⟨rest, isRest, reports⟩ := Res.bind_eq_ok.mp reports
      obtain ⟨keptImage, thinImage, sameImage⟩ :=
        report_follows undropped first.1 first.2 isImage
      obtain ⟨keptRest, thinRest, sameRest⟩ := induction isRest
      have joined : events = image.toList ++ rest := by
        cases image <;> cases reports <;> rfl
      refine ⟨keptImage.toList ++ keptRest, ?_, ?_⟩
      · rw [Res.filterMap, thinImage, thinRest]
        cases keptImage <;> rfl
      · rw [joined, taps, List.filter_append, taps, List.filter_append]
        exact congrArg₂ (· ++ ·) sameImage sameRest

private theorem tapped_of_count {fulls thins : List Slot}
    (weaker : List.Forall₂ (fun full thin : Slot =>
      thin.tapped = true → full.tapped = true) fulls thins) :
    thins.countP (·.tapped) ≤ fulls.countP (·.tapped) ∧
      (thins.countP (·.tapped) = fulls.countP (·.tapped) →
        List.Forall₂ (fun full thin : Slot =>
          full.tapped = true → thin.tapped = true) fulls thins) := by
  induction weaker with
  | nil => exact ⟨Nat.le_refl _, fun _ => .nil⟩
  | @cons full thin fulls thins first _ induction =>
      obtain ⟨fewer, converse⟩ := induction
      simp only [List.countP_cons]
      cases isThin : thin.tapped with
      | true =>
          rw [first isThin]
          refine ⟨by simpa using fewer, fun same => .cons (fun _ => isThin) ?_⟩
          exact converse (by simpa using same)
      | false =>
          cases isFull : full.tapped with
          | true =>
              refine ⟨by simp; omega, fun same => ?_⟩
              simp at same
              omega
          | false =>
              refine ⟨by simpa using fewer, fun same => .cons ?_ ?_⟩
              · rw [isFull]
                nofun
              · exact converse (by simpa using same)

structure ParsersFollow (log : SentLog) (full thin : TypeBParser) : Prop where
  frame : ∃ slots, thin = { full with slots }
  current : full.currentSlot = log.current
  undropped : full.dropped = false
  slots : ∀ i : Fin maxSlots,
    SlotsFollow log.slots[i] full.slots[i] thin.slots[i]

namespace SlotsFollow

variable {log : SlotLog} {full thin : Slot}

theorem sendX (follows : SlotsFollow log full thin) (value : Int) :
    SlotsFollow { log with x := log.x.send value true }
      { full with x := some value, changed := true }
      { thin with x := some value, changed := true } where
  contact := follows.contact
  flags := follows.flags
  changed := fun _ => rfl
  fullPlace := fun present => ⟨rfl, (follows.fullPlace present).2⟩
  thinPlace := fun present => ⟨by simp [AxisLog.known, AxisLog.send],
    (follows.thinPlace present).2⟩
  explicit := ⟨fun _ => rfl, follows.explicit.2⟩
  sent := ⟨fun _ => rfl, follows.sent.2⟩
  appears := follows.appears
  appearing := follows.appearing
  settled := fun present settled =>
    ⟨by simp [AxisLog.send], (follows.settled present settled).2⟩

theorem sendY (follows : SlotsFollow log full thin) (value : Int) :
    SlotsFollow { log with y := log.y.send value true }
      { full with y := some value, changed := true }
      { thin with y := some value, changed := true } where
  contact := follows.contact
  flags := follows.flags
  changed := fun _ => rfl
  fullPlace := fun present => ⟨(follows.fullPlace present).1, rfl⟩
  thinPlace := fun present => ⟨(follows.thinPlace present).1,
    by simp [AxisLog.known, AxisLog.send]⟩
  explicit := ⟨follows.explicit.1, fun _ => rfl⟩
  sent := ⟨follows.sent.1, fun _ => rfl⟩
  appears := follows.appears
  appearing := follows.appearing
  settled := fun present settled =>
    ⟨(follows.settled present settled).1, by simp [AxisLog.send]⟩

/-- A position that is deleted repeats the last one, so what the thinned run
knows does not change. -/
theorem repeatX (follows : SlotsFollow log full thin) {value : Int}
    (repeats : log.x.last = some value) :
    SlotsFollow { log with x := log.x.send value false }
      { full with x := some value, changed := true } thin where
  contact := follows.contact
  flags := follows.flags
  changed := fun _ => rfl
  fullPlace := fun present => ⟨rfl, (follows.fullPlace present).2⟩
  thinPlace := fun present => by
    obtain ⟨thinX, thinY⟩ := follows.thinPlace present
    refine ⟨?_, thinY⟩
    rw [thinX, AxisLog.known, AxisLog.known, repeats]
    simp [AxisLog.send]
  explicit := ⟨fun _ => rfl, follows.explicit.2⟩
  sent := ⟨fun _ => rfl, follows.sent.2⟩
  appears := follows.appears
  appearing := follows.appearing
  settled := fun present settled => by
    simpa [AxisLog.send] using follows.settled present settled

theorem repeatY (follows : SlotsFollow log full thin) {value : Int}
    (repeats : log.y.last = some value) :
    SlotsFollow { log with y := log.y.send value false }
      { full with y := some value, changed := true } thin where
  contact := follows.contact
  flags := follows.flags
  changed := fun _ => rfl
  fullPlace := fun present => ⟨(follows.fullPlace present).1, rfl⟩
  thinPlace := fun present => by
    obtain ⟨thinX, thinY⟩ := follows.thinPlace present
    refine ⟨thinX, ?_⟩
    rw [thinY, AxisLog.known, AxisLog.known, repeats]
    simp [AxisLog.send]
  explicit := ⟨follows.explicit.1, fun _ => rfl⟩
  sent := ⟨follows.sent.1, fun _ => rfl⟩
  appears := follows.appears
  appearing := follows.appearing
  settled := fun present settled => by
    simpa [AxisLog.send] using follows.settled present settled

theorem tapped_of_thin (follows : SlotsFollow log full thin)
    (tapped : thin.tapped = true) : full.tapped = true := by
  have kept := follows.kept_of_located (Slot.located_of_tapped tapped)
  rcases follows.announces_eq (follows.located_eq fun _ => kept) with
    same | ⟨silent, _⟩
  · rwa [Slot.tapped, ← same]
  · rw [Slot.tapped, silent] at tapped
    cases tapped

theorem lift (follows : SlotsFollow log full thin) :
    SlotsFollow log { full with pendingUp := true }
      { thin with pendingUp := true } :=
  { follows with flags := ⟨follows.flags.1, rfl⟩ }

theorem restart (log : SlotLog) (contactId : Nat) :
    SlotsFollow ⟨log.x.restart, log.y.restart, true⟩
      { contactId := some contactId, pendingDown := true }
      { contactId := some contactId, pendingDown := true } where
  contact := rfl
  flags := ⟨rfl, rfl⟩
  changed := nofun
  fullPlace := fun _ => ⟨rfl, rfl⟩
  thinPlace := fun _ => ⟨rfl, rfl⟩
  explicit := ⟨nofun, nofun⟩
  sent := ⟨nofun, nofun⟩
  appears := fun _ => rfl
  appearing := fun _ => rfl
  settled := nofun

end SlotsFollow

namespace ParsersFollow

variable {log : SentLog} {full thin : TypeBParser} {input : LinuxInputEvent}

theorem slots_setSelected (slot : SlotLog) (i : SlotIndex) :
    (log.setSelected slot).slots[i] =
      if i = log.current then slot else log.slots[i] := by
  simp only [SentLog.setSelected, Fin.getElem_fin, Vector.getElem_set,
    Fin.ext_iff, eq_comm]

theorem current_thin (follows : ParsersFollow log full thin) :
    thin.currentSlot = full.currentSlot := by
  obtain ⟨slots, rfl⟩ := follows.frame
  rfl

theorem selected (follows : ParsersFollow log full thin) :
    SlotsFollow log.selected full.current thin.current := by
  have here := follows.slots log.current
  simp only [TypeBParser.current, follows.current_thin, follows.current]
  exact here

theorem update (follows : ParsersFollow log full thin) {slotLog : SlotLog}
    {fullSlot thinSlot : Slot} (slot : SlotsFollow slotLog fullSlot thinSlot) :
    ParsersFollow (log.setSelected slotLog) (full.setCurrent fullSlot)
      (thin.setCurrent thinSlot) where
  frame := by
    obtain ⟨slots, rfl⟩ := follows.frame
    exact ⟨_, rfl⟩
  current := follows.current
  undropped := follows.undropped
  slots := fun i => by
    rw [slots_setSelected, Tracks.slots_setCurrent, Tracks.slots_setCurrent,
      follows.current_thin, follows.current]
    split
    · exact slot
    · exact follows.slots i

theorem hear (follows : ParsersFollow log full thin)
    (undropped : input.touchInput ≠ .dropped)
    (silent : input.touchInput ≠ .report) :
    ParsersFollow (log.follow (input, true)) (full.hear input.touchInput)
      (thin.hear input.touchInput) := by
  have here := follows.selected
  unfold SentLog.follow
  cases isInput : input.touchInput with
  | dropped => exact absurd isInput undropped
  | report => exact absurd isInput silent
  | other => exact follows
  | slot value =>
      refine ⟨?_, rfl, follows.undropped, follows.slots⟩
      obtain ⟨slots, rfl⟩ := follows.frame
      exact ⟨slots, rfl⟩
  | positionX value => exact follows.update (here.sendX value)
  | positionY value => exact follows.update (here.sendY value)
  | trackingId value =>
      by_cases starts : 0 ≤ value
      · simp only [TypeBParser.hear, if_pos starts]
        obtain ⟨slots, rfl⟩ := follows.frame
        have counted : ParsersFollow log full.allocated.2
            { full.allocated.2 with slots } :=
          ⟨⟨slots, rfl⟩, follows.current, follows.undropped, follows.slots⟩
        exact counted.update (SlotsFollow.restart log.selected _)
      · have held : thin.current.contactId.isSome =
            full.current.contactId.isSome := by rw [here.contact]
        simp only [TypeBParser.hear, if_neg starts, held]
        split
        · have lifted := follows.update here.lift
          rwa [show log.setSelected log.selected = log by
            simp [SentLog.setSelected, SentLog.selected]] at lifted
        · exact follows

theorem skip (follows : ParsersFollow log full thin)
    (repeats : log.Repeats input) :
    ParsersFollow (log.follow (input, false)) (full.hear input.touchInput)
      thin := by
  have here := follows.selected
  have same : thin.setCurrent thin.current = thin := by
    simp [TypeBParser.setCurrent, TypeBParser.current]
  unfold SentLog.Repeats at repeats
  unfold SentLog.follow
  split at repeats
  · rename_i value isInput
    rw [isInput]
    have next := follows.update (here.repeatX repeats)
    rwa [same] at next
  · rename_i value isInput
    rw [isInput]
    have next := follows.update (here.repeatY repeats)
    rwa [same] at next
  · exact repeats.elim

theorem forall₂ {holds : Slot → Slot → Prop}
    (each : ∀ i : SlotIndex, holds full.slots[i] thin.slots[i]) :
    List.Forall₂ holds full.slots.toList thin.slots.toList := by
  refine List.forall₂_iff_get.mpr ⟨by simp, fun index bound _ => ?_⟩
  simp only [List.get_eq_getElem, Vector.getElem_toList]
  exact each ⟨index, by simpa using bound⟩

/-- A report of both runs. -/
theorem report (follows : ParsersFollow log full thin)
    (kept : log.Kept) (isReport : input.touchInput = .report)
    {events : List PhysicalPointerEvent} {next : TypeBParser}
    (runs : (TypeBParser.push input).Runs full (.ok events) next) :
    ∃ thinEvents thinNext,
      (TypeBParser.push input).Runs thin (.ok thinEvents) thinNext ∧
        taps thinEvents = taps events ∧
        ParsersFollow (log.follow (input, true)) next thinNext := by
  rw [TypeBParser.push_report isReport, TypeBParser.finishReport,
    Proc.runs_get_bind, Proc.runs_ofRes_bind] at runs
  rcases runs with ⟨events, reports, runs⟩ | ⟨err, _, _⟩
  · rw [Proc.runs_set_bind, Proc.runs_pure] at runs
    obtain ⟨same, rfl⟩ := runs
    cases same
    have undropped := follows.undropped
    obtain ⟨thinEvents, thinReports, sameTaps⟩ := taps_follow undropped
      (forall₂ fun i =>
        have located := (follows.slots i).located_eq (kept i)
        ⟨located, (follows.slots i).announces_eq located⟩) reports
    refine ⟨thinEvents, { thin with
      slots := thin.slots.map (·.reported thin.dropped)
      dropped := false }, ?_, sameTaps, ?_⟩
    · rw [TypeBParser.push_report isReport, TypeBParser.finishReport,
        Proc.runs_get_bind, Proc.runs_ofRes_bind]
      refine .inl ⟨thinEvents, ?_, ?_⟩
      · obtain ⟨slots, rfl⟩ := follows.frame
        exact thinReports
      · rw [Proc.runs_set_bind, Proc.runs_pure]
        exact ⟨rfl, rfl⟩
    · have thinUndropped : thin.dropped = false := by
        obtain ⟨slots, rfl⟩ := follows.frame
        exact undropped
      unfold SentLog.follow
      rw [isReport]
      refine ⟨?_, follows.current, rfl, fun i => ?_⟩
      · obtain ⟨slots, rfl⟩ := follows.frame
        exact ⟨_, rfl⟩
      · rw [undropped, thinUndropped]
        simpa using (follows.slots i).reported (kept i)
  · exact err.elim

/-- A report with the same taps in both runs has kept both positions of every
contact that appears. -/
theorem kept_of_report (follows : ParsersFollow log full thin)
    (sent : log.Explicit) (isReport : input.touchInput = .report)
    {events thinEvents : List PhysicalPointerEvent}
    {next thinNext : TypeBParser}
    (runs : (TypeBParser.push input).Runs full (.ok events) next)
    (thinRuns : (TypeBParser.push input).Runs thin (.ok thinEvents) thinNext)
    (sameTaps : taps thinEvents = taps events) : log.Kept := by
  have reports (parser : TypeBParser) (undropped : parser.dropped = false)
      {output : List PhysicalPointerEvent} {after : TypeBParser}
      (runs : (TypeBParser.push input).Runs parser (.ok output) after) :
      (taps output).length = parser.slots.toList.countP (·.tapped) := by
    rw [TypeBParser.push_report isReport, TypeBParser.finishReport,
      Proc.runs_get_bind, Proc.runs_ofRes_bind] at runs
    rcases runs with ⟨given, reports, runs⟩ | ⟨err, _, _⟩
    · rw [Proc.runs_set_bind, Proc.runs_pure] at runs
      cases runs.1
      exact length_taps undropped reports
    · exact err.elim
  have thinUndropped : thin.dropped = false := by
    obtain ⟨slots, rfl⟩ := follows.frame
    exact follows.undropped
  have count : thin.slots.toList.countP (·.tapped) =
      full.slots.toList.countP (·.tapped) := by
    rw [← reports full follows.undropped runs,
      ← reports thin thinUndropped thinRuns, sameTaps]
  have weaker (i : Fin maxSlots) (tapped : thin.slots[i].tapped = true) :
      full.slots[i].tapped = true :=
    (follows.slots i).tapped_of_thin tapped
  have stronger := (tapped_of_count (forall₂ weaker)).2 count
  intro i isAppearing
  have here := follows.slots i
  have present := here.appearing isAppearing
  have tapped : full.slots[i].tapped = true := by
    have located := here.located_of_held (sent i) present
    obtain ⟨place, isLocated⟩ := Option.isSome_iff_exists.mp located
    rw [Slot.tapped, Slot.announces, isLocated, Slot.news,
      here.appears present, isAppearing]
    rfl
  have thinTapped : thin.slots[i].tapped = true := by
    have both := (List.forall₂_iff_get.mp stronger).2 i (by simp) (by simp)
    simp only [List.get_eq_getElem, Vector.getElem_toList] at both
    exact both tapped
  exact here.kept_of_located (Slot.located_of_tapped thinTapped)

end ParsersFollow

/-- The run on the events that are left, if it taps as often and in the same
places after every report. -/
def SameTaps (setup : TypeBParser.Setup) (marks : List MarkedInput)
    (history : List ParserEvent) : Prop :=
  ∃ thinHistory thinFinal, ParserRun setup thinHistory thinFinal ∧
    thinHistory.map (·.input) = thinned marks ∧
    tapsByReport thinHistory = tapsByReport history

variable {setup : TypeBParser.Setup} {marks : List MarkedInput}
  {history : List ParserEvent} {final : TypeBParser}

private theorem follows_empty (setup : TypeBParser.Setup) :
    ParsersFollow SentLog.empty (.withRangesAndTransform setup)
      (.withRangesAndTransform setup) where
  frame := ⟨_, rfl⟩
  current := rfl
  undropped := rfl
  slots := fun i => by
    have empty : SlotsFollow {} {} {} :=
      ⟨rfl, ⟨rfl, rfl⟩, nofun, nofun, nofun, ⟨nofun, nofun⟩, ⟨nofun, nofun⟩,
        nofun, nofun, nofun⟩
    simpa [SentLog.empty, TypeBParser.withRangesAndTransform] using empty

private theorem tapsByReport_silent {event : ParserEvent}
    (silent : event.input.touchInput ≠ .report) :
    tapsByReport (event :: history) = tapsByReport history := by
  rw [tapsByReport, List.filter_cons_of_neg (by simpa using silent)]
  rfl

private theorem tapsByReport_report {event : ParserEvent}
    (isReport : event.input.touchInput = .report) :
    tapsByReport (event :: history) =
      taps event.events :: tapsByReport history := by
  rw [tapsByReport, List.filter_cons_of_pos (by simpa using isReport)]
  rfl

private theorem not_report_of_repeats {log : SentLog} {input : LinuxInputEvent}
    (repeats : log.Repeats input) : input.touchInput ≠ .report := by
  intro isReport
  rw [SentLog.Repeats, isReport] at repeats
  exact repeats

private theorem returned (output : Except Empty (List PhysicalPointerEvent)) :
    ∃ events, output = .ok events := by
  cases output with
  | ok events => exact ⟨events, rfl⟩
  | error err => exact err.elim

/-- If every first report is kept, the run on the events that are left exists,
taps alike, and ends in a parser that follows the other. -/
theorem thinned_run (run : ParserRun setup history final)
    (inputs : history.map (·.input) = marks.map (·.1))
    (redundant : Redundant marks) (keeps : KeepsFirst marks) :
    ∃ thinHistory thinFinal, ParserRun setup thinHistory thinFinal ∧
      thinHistory.map (·.input) = thinned marks ∧
      tapsByReport thinHistory = tapsByReport history ∧
      ParsersFollow (SentLog.ofInputs marks) final thinFinal := by
  induction marks generalizing history final with
  | nil =>
      rw [List.map_nil, List.map_eq_nil_iff] at inputs
      subst inputs
      cases run
      exact ⟨[], _, .nil, rfl, rfl, follows_empty setup⟩
  | cons marked earlier induction =>
      obtain ⟨redundantBefore, undropped, repeats, _⟩ := redundant
      obtain ⟨keepsBefore, kept⟩ := keeps
      cases run with
      | nil => cases inputs
      | @snoc older before after input output run stepped =>
          rw [List.map_cons, List.map_cons, List.cons.injEq] at inputs
          obtain ⟨isInput, inputs⟩ := inputs
          obtain ⟨thinOlder, thinBefore, thinRun, thinInputs, sameTaps,
            follows⟩ := induction run inputs redundantBefore keepsBefore
          obtain ⟨marked, keep⟩ := marked
          dsimp only at isInput undropped repeats kept
          subst isInput
          cases keep with
          | false =>
              have silent := not_report_of_repeats (repeats rfl)
              obtain ⟨_, rfl⟩ := (TypeBParser.push_silent silent).mp stepped
              exact ⟨thinOlder, thinBefore, thinRun, thinInputs,
                by rw [tapsByReport_silent silent]; exact sameTaps,
                follows.skip (repeats rfl)⟩
          | true =>
              have nextInputs : ∀ event : ParserEvent, event.input = input →
                  (event :: thinOlder).map (·.input) =
                    thinned ((input, true) :: earlier) := by
                rintro event rfl
                rw [List.map_cons, thinInputs]
                rfl
              by_cases isReport : input.touchInput = .report
              · obtain ⟨events, rfl⟩ := returned output
                obtain ⟨thinEvents, thinNext, thinRuns, alike, follows⟩ :=
                  follows.report (kept isReport) isReport stepped
                refine ⟨⟨thinBefore, input, .ok thinEvents, thinNext⟩ ::
                  thinOlder, thinNext, .snoc thinRun thinRuns,
                  nextInputs _ rfl, ?_, follows⟩
                rw [tapsByReport_report isReport, tapsByReport_report isReport,
                  sameTaps]
                exact congrArg (· :: _) alike
              · obtain ⟨_, rfl⟩ := (TypeBParser.push_silent isReport).mp stepped
                refine ⟨⟨thinBefore, input, .ok [],
                  thinBefore.hear input.touchInput⟩ :: thinOlder, _,
                  .snoc thinRun ((TypeBParser.push_silent isReport).mpr
                    ⟨rfl, rfl⟩), nextInputs _ rfl, ?_,
                  follows.hear undropped isReport⟩
                rw [tapsByReport_silent isReport, tapsByReport_silent isReport]
                exact sameTaps

private theorem run_unique {other : List ParserEvent} {otherFinal : TypeBParser}
    (run : ParserRun setup history final)
    (otherRun : ParserRun setup other otherFinal)
    (inputs : history.map (·.input) = other.map (·.input)) :
    history = other ∧ final = otherFinal := by
  have first := replay_of_run run
  rw [inputs, replay_of_run otherRun] at first
  simpa [eq_comm] using first

/-- If the run on the events that are left taps alike, every first report is
kept: at the first one that is not, a Down is missing. -/
theorem keepsFirst_of_sameTaps (run : ParserRun setup history final)
    (inputs : history.map (·.input) = marks.map (·.1))
    (redundant : Redundant marks) (same : SameTaps setup marks history) :
    KeepsFirst marks := by
  induction marks generalizing history final with
  | nil => trivial
  | cons marked earlier induction =>
      obtain ⟨redundantBefore, undropped, repeats, sent⟩ := redundant
      obtain ⟨thinHistory, thinFinal, thinRun, thinInputs, sameTaps⟩ := same
      cases run with
      | nil => cases inputs
      | @snoc older before after input output run stepped =>
          rw [List.map_cons, List.map_cons, List.cons.injEq] at inputs
          obtain ⟨isInput, inputs⟩ := inputs
          obtain ⟨marked, keep⟩ := marked
          dsimp only at isInput undropped repeats sent
          subst isInput
          cases keep with
          | false =>
              have silent := not_report_of_repeats (repeats rfl)
              rw [tapsByReport_silent silent] at sameTaps
              exact ⟨induction run inputs redundantBefore
                ⟨thinHistory, thinFinal, thinRun, thinInputs, sameTaps⟩,
                fun isReport => absurd isReport silent⟩
          | true =>
              cases thinRun with
              | nil => cases thinInputs
              | @snoc thinOlder thinBefore thinAfter thinInput thinOutput
                  thinRun thinStepped =>
                  rw [List.map_cons, thinned, List.filter_cons_of_pos rfl,
                    List.map_cons, List.cons.injEq] at thinInputs
                  obtain ⟨isInput, thinInputs⟩ := thinInputs
                  dsimp only at isInput
                  subst isInput
                  by_cases isReport : thinInput.touchInput = .report
                  · rw [tapsByReport_report isReport,
                      tapsByReport_report isReport, List.cons.injEq] at sameTaps
                    obtain ⟨alike, sameTaps⟩ := sameTaps
                    have keepsBefore := induction run inputs redundantBefore
                      ⟨thinOlder, thinBefore, thinRun, thinInputs, sameTaps⟩
                    refine ⟨keepsBefore, fun _ => ?_⟩
                    obtain ⟨other, otherFinal, otherRun, otherInputs, _,
                      follows⟩ := thinned_run run inputs redundantBefore
                        keepsBefore
                    obtain ⟨_, rfl⟩ := run_unique thinRun otherRun
                      (thinInputs.trans otherInputs.symm)
                    obtain ⟨events, rfl⟩ := returned output
                    obtain ⟨thinEvents, rfl⟩ := returned thinOutput
                    exact follows.kept_of_report (sent isReport) isReport
                      stepped thinStepped alike
                  · rw [tapsByReport_silent isReport,
                      tapsByReport_silent isReport] at sameTaps
                    exact ⟨induction run inputs redundantBefore
                      ⟨thinOlder, thinBefore, thinRun, thinInputs, sameTaps⟩,
                      fun reported => absurd reported isReport⟩

/-- Deleting repeated positions changes no Down or Up exactly if it deletes
none that the first report of a contact needs. -/
theorem sameTaps_iff (run : ParserRun setup history final)
    (inputs : history.map (·.input) = marks.map (·.1))
    (redundant : Redundant marks) :
    SameTaps setup marks history ↔ KeepsFirst marks := by
  constructor
  · exact keepsFirst_of_sameTaps run inputs redundant
  · intro keeps
    obtain ⟨thinHistory, thinFinal, thinRun, thinInputs, sameTaps, _⟩ :=
      thinned_run run inputs redundant keeps
    exact ⟨thinHistory, thinFinal, thinRun, thinInputs, sameTaps⟩

/-- All of some events kept. -/
def allKept (inputs : List LinuxInputEvent) : List MarkedInput :=
  inputs.map (·, true)

/-- A contact lifted. -/
def liftContact : List LinuxInputEvent :=
  [⟨evSyn, synReport, 0⟩, ⟨evAbs, absMtTrackingId, -1⟩]

/-- A contact that moves down only: the repeated column is deleted. -/
def strokeDown : List MarkedInput :=
  allKept liftContact ++
    [(⟨evSyn, synReport, 0⟩, true), (⟨evAbs, absMtPositionX, 10⟩, false),
      (⟨evAbs, absMtPositionY, 30⟩, true)] ++
    allKept (touchAt 10 20)

/-- A repeated column in a later report may be deleted. -/
theorem sameTaps_of_strokeDown :
    ∃ history final, ParserRun smallPanel history final ∧
      history.map (·.input) = strokeDown.map (·.1) ∧
      SameTaps smallPanel strokeDown history := by
  have replayed : (replay TypeBParser.push (.withRangesAndTransform smallPanel)
      (strokeDown.map (·.1))).map (fun result =>
        result.1.map (·.input)) = some (strokeDown.map (·.1)) := by
    decide +kernel
  obtain ⟨⟨history, final⟩, replayed, inputs⟩ :=
    Option.map_eq_some_iff.mp replayed
  have run := run_of_replay replayed
  exact ⟨history, final, run, inputs,
    (sameTaps_iff run inputs (by decide +kernel)).mpr (by decide +kernel)⟩

/-- A second tap in the column of the first: the kernel does not send the
column again. -/
def tapBelow : List MarkedInput :=
  [(⟨evSyn, synReport, 0⟩, true), (⟨evAbs, absMtPositionX, 10⟩, false),
      (⟨evAbs, absMtPositionY, 40⟩, true), (⟨evAbs, absMtTrackingId, 8⟩, true)] ++
    allKept (liftContact ++ touchAt 10 20)

/-- The second of two taps in one column is lost. -/
theorem second_tap_lost :
    ∃ history final, ParserRun smallPanel history final ∧
      history.map (·.input) = tapBelow.map (·.1) ∧ Redundant tapBelow ∧
      ¬ SameTaps smallPanel tapBelow history := by
  have replayed : (replay TypeBParser.push (.withRangesAndTransform smallPanel)
      (tapBelow.map (·.1))).map (fun result =>
        result.1.map (·.input)) = some (tapBelow.map (·.1)) := by
    decide +kernel
  obtain ⟨⟨history, final⟩, replayed, inputs⟩ :=
    Option.map_eq_some_iff.mp replayed
  have run := run_of_replay replayed
  have redundant : Redundant tapBelow := by decide +kernel
  refine ⟨history, final, run, inputs, redundant, fun same => ?_⟩
  have keeps := keepsFirst_of_sameTaps run inputs redundant same
  exact absurd keeps (by decide +kernel)

end RmDisplay.Receiver
