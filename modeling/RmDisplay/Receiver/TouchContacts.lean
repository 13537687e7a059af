import Mathlib.Data.List.Induction
import RmDisplay.Receiver.TouchParser

/-!
# The life of a touch contact

A contact goes down, moves and is lifted or cancelled, once.  The invariant
relates what was announced of each contact to the slot that holds it.  It fails
where a slot forgets a contact that is down: a new contact takes the slot, or
the contact is lifted in the report in which it appeared; and where an overflow
cancels a contact that was never announced.
-/

namespace RmDisplay.Receiver

open Foundation

/-- What was announced of a contact. -/
inductive ContactStatus where
  | unseen | down | closed
deriving DecidableEq, Repr

namespace ContactStatus

/-- The status after one more phase, if that may come next. -/
def follow : ContactStatus → PhysicalPhase → Option ContactStatus
  | .unseen, .down => some .down
  | .down, .move => some .down
  | .down, .up | .down, .cancel => some .closed
  | .unseen, _ | .down, .down | .closed, _ => none

/-- The status after a list of phases. -/
def after (phases : List PhysicalPhase) : Option ContactStatus :=
  phases.foldlM follow .unseen

theorem after_append {phases more : List PhysicalPhase} :
    after (phases ++ more) =
      (after phases).bind fun status => more.foldlM follow status := by
  rw [after, List.foldlM_append]
  rfl

end ContactStatus

/-- A beginning of one contact: down, moves, and up or cancel. -/
def OneContact (phases : List PhysicalPhase) : Prop :=
  ∃ moves closing, (closing = .up ∨ closing = .cancel) ∧
    phases <+: .down :: (List.replicate moves .move ++ [closing])

/-- A contact that is down. -/
def Open (phases : List PhysicalPhase) : Prop :=
  .down ∈ phases ∧ .up ∉ phases ∧ .cancel ∉ phases

namespace ContactStatus

variable {phases : List PhysicalPhase}

/-- What a status says about the phases that led to it. -/
def Shows (phases : List PhysicalPhase) : ContactStatus → Prop
  | .unseen => phases = []
  | .down => ∃ moves, phases = .down :: List.replicate moves .move
  | .closed => ∃ moves closing, (closing = .up ∨ closing = .cancel) ∧
      phases = .down :: (List.replicate moves .move ++ [closing])

theorem shows_of_after {status : ContactStatus}
    (follows : after phases = some status) : Shows phases status := by
  induction phases using List.reverseRecOn generalizing status with
  | nil =>
      cases follows
      rfl
  | append_singleton earlier last induction =>
      rw [after_append] at follows
      obtain ⟨middle, reached, follows⟩ := Option.bind_eq_some_iff.mp follows
      have shape := induction reached
      simp only [List.foldlM_cons, List.foldlM_nil] at follows
      cases middle <;> cases last <;> cases follows
      · exact ⟨0, by rw [shape]; rfl⟩
      · obtain ⟨moves, rfl⟩ := shape
        exact ⟨moves + 1, by rw [List.replicate_succ']; rfl⟩
      · obtain ⟨moves, rfl⟩ := shape
        exact ⟨moves, .up, .inl rfl, rfl⟩
      · obtain ⟨moves, rfl⟩ := shape
        exact ⟨moves, .cancel, .inr rfl, rfl⟩

theorem oneContact (follows : (after phases).isSome = true) :
    OneContact phases := by
  obtain ⟨status, reached⟩ := Option.isSome_iff_exists.mp follows
  have shape := shows_of_after reached
  cases status with
  | unseen =>
      rw [show phases = [] from shape]
      exact ⟨0, .up, .inl rfl, List.nil_prefix⟩
  | down =>
      obtain ⟨moves, rfl⟩ := shape
      exact ⟨moves, .up, .inl rfl, [.up], rfl⟩
  | closed =>
      obtain ⟨moves, closing, isClosing, rfl⟩ := shape
      exact ⟨moves, closing, isClosing, List.prefix_rfl⟩

theorem open_iff (follows : (after phases).isSome = true) :
    Open phases ↔ after phases = some .down := by
  obtain ⟨status, reached⟩ := Option.isSome_iff_exists.mp follows
  have shape := shows_of_after reached
  rw [reached]
  cases status with
  | unseen =>
      rw [show phases = [] from shape]
      simp [Open]
  | down =>
      obtain ⟨moves, rfl⟩ := shape
      simp [Open, List.mem_replicate]
  | closed =>
      obtain ⟨moves, closing, rfl | rfl, rfl⟩ := shape <;> simp [Open]

end ContactStatus

/-- The phases of one contact in a list of events. -/
def phasesOf (contactId : Nat) (events : List PhysicalPointerEvent) :
    List PhysicalPhase :=
  events.filterMap fun event =>
    if event.contactId = contactId then some event.phase else none

theorem phasesOf_append {contactId : Nat} {first rest : List PhysicalPointerEvent} :
    phasesOf contactId (first ++ rest) =
      phasesOf contactId first ++ phasesOf contactId rest :=
  List.filterMap_append

namespace Slot

variable {slot : Slot} {contactId : Nat} {status : Option ContactStatus}
  {dropped : Bool}

/-- The contact of a slot was announced as the slot says. -/
def Agrees (self : Slot) (status : Option ContactStatus) : Prop :=
  if self.pendingDown then status = some .unseen
  else status = some .down ∧ self.x.isSome = true ∧ self.y.isSome = true

/-- A contact that appears in this report is neither lifted in it nor lost to
an overflow. -/
def Careful (self : Slot) (dropped : Bool) : Prop :=
  self.pendingDown = true → self.located.isSome = true →
    dropped = false ∧ self.pendingUp = false

instance (slot : Slot) (dropped : Bool) : Decidable (slot.Careful dropped) :=
  inferInstanceAs (Decidable (_ → _))

theorem located_eq_some {place : Nat × Int × Int} :
    slot.located = some place ↔ slot.contactId = some place.1 ∧
      slot.x = some place.2.1 ∧ slot.y = some place.2.2 := by
  obtain ⟨contact, x, y⟩ := place
  unfold located
  cases slot.contactId <;> cases slot.x <;> cases slot.y <;> simp

theorem located_of_down (holds : slot.contactId = some contactId)
    (agrees : slot.Agrees (some .down)) : slot.located.isSome = true := by
  unfold Agrees at agrees
  split at agrees
  · cases agrees
  · obtain ⟨_, hasX, hasY⟩ := agrees
    obtain ⟨x, isX⟩ := Option.isSome_iff_exists.mp hasX
    obtain ⟨y, isY⟩ := Option.isSome_iff_exists.mp hasY
    have located : slot.located = some (contactId, x, y) :=
      located_eq_some.mpr ⟨holds, isX, isY⟩
    rw [located]
    rfl

theorem contactId_reported (slot : Slot) (dropped : Bool) :
    (slot.reported dropped).contactId = none ∨
      (slot.reported dropped).contactId = slot.contactId := by
  unfold reported
  cases dropped with
  | true => exact .inl rfl
  | false =>
      cases slot.located <;> cases slot.news <;> cases slot.pendingUp <;> simp

theorem pendingDown_of_hidden (holds : slot.contactId = some contactId)
    (agrees : slot.Agrees status) (hidden : slot.located = none) :
    slot.pendingDown = true := by
  by_contra announced
  rw [Agrees, if_neg announced] at agrees
  obtain ⟨_, hasX, hasY⟩ := agrees
  obtain ⟨x, isX⟩ := Option.isSome_iff_exists.mp hasX
  obtain ⟨y, isY⟩ := Option.isSome_iff_exists.mp hasY
  have located : slot.located = some (contactId, x, y) :=
    located_eq_some.mpr ⟨holds, isX, isY⟩
  rw [hidden] at located
  cases located

/-- After a careful report a slot still agrees with what was announced of its
contact, or it is free and the contact is not down. -/
theorem reported_agrees (holds : slot.contactId = some contactId)
    (agrees : slot.Agrees status) (careful : slot.Careful dropped) :
    ∃ next, (status.bind fun before =>
        (slot.announces dropped).toList.foldlM ContactStatus.follow before) =
          some next ∧
      ((slot.reported dropped).contactId = some contactId ∧
          (slot.reported dropped).Agrees (some next) ∧
          ((slot.reported dropped).located.isSome = true → next = .down) ∨
        (slot.reported dropped).contactId = none ∧ next ≠ .down) := by
  cases isLocated : slot.located with
  | none =>
      have waiting := pendingDown_of_hidden holds agrees isLocated
      have silent : slot.announces dropped = none := by
        rw [announces, isLocated]
      rw [Agrees, if_pos waiting] at agrees
      refine ⟨.unseen, by rw [silent, agrees]; rfl, ?_⟩
      unfold reported
      rw [isLocated]
      cases dropped with
      | true => exact .inr ⟨rfl, by simp⟩
      | false =>
          cases slot.pendingUp with
          | true => exact .inr ⟨rfl, by simp⟩
          | false =>
              refine .inl ⟨holds, ?_, fun shown => ?_⟩
              · change slot.Agrees _
                rw [Agrees, if_pos waiting]
              · change slot.located.isSome = true at shown
                rw [isLocated] at shown
                cases shown
  | some place =>
      obtain ⟨_, isX, isY⟩ := located_eq_some.mp isLocated
      by_cases waiting : slot.pendingDown = true
      · obtain ⟨rfl, kept⟩ := careful waiting (by rw [isLocated]; rfl)
        have goesDown : slot.news = some .down := by rw [news, if_pos waiting]
        rw [Agrees, if_pos waiting] at agrees
        refine ⟨.down, ?_, .inl ?_⟩
        · rw [announces, isLocated, agrees]
          simp [goesDown, ContactStatus.follow]
        · simp [reported, isLocated, goesDown, kept, Agrees, isX, isY, holds]
      · rw [Agrees, if_neg waiting] at agrees
        rw [Bool.not_eq_true] at waiting
        obtain ⟨isDown, _⟩ := agrees
        simp only [announces, isLocated, isDown, reported, Option.bind_some]
        cases dropped with
        | true => exact ⟨.closed, rfl, .inr ⟨rfl, by simp⟩⟩
        | false =>
            by_cases lifted : slot.pendingUp = true
            · refine ⟨.closed, ?_, .inr ?_⟩
              · simp [news, waiting, lifted, ContactStatus.follow]
              · simp [news, waiting, lifted]
            · refine ⟨.down, ?_, .inl ?_⟩
              · by_cases moved : slot.changed = true
                · simp [news, waiting, lifted, moved, ContactStatus.follow]
                · simp [news, waiting, lifted, moved]
              · by_cases moved : slot.changed = true
                · simp [news, waiting, lifted, moved, Agrees, isX, isY, holds]
                · simp [news, waiting, lifted, moved, Agrees, isX, isY, holds]

end Slot

namespace TypeBParser

/-- The parser after an event that is no report. -/
def hear (self : TypeBParser) : TouchInput → TypeBParser
  | .dropped => { self with dropped := true }
  | .slot value =>
      { self with
        currentSlot := ⟨min value.toNat (maxSlots - 1), slotNumber_lt value⟩ }
  | .trackingId value =>
      if 0 ≤ value then
        self.allocated.2.setCurrent
          { contactId := some self.allocated.1, pendingDown := true }
      else if self.current.contactId.isSome then
        self.setCurrent { self.current with pendingUp := true }
      else self
  | .positionX value =>
      self.setCurrent { self.current with x := some value, changed := true }
  | .positionY value =>
      self.setCurrent { self.current with y := some value, changed := true }
  | .report | .other => self

variable {parser after : TypeBParser} {input : LinuxInputEvent}
  {output : Except Empty (List PhysicalPointerEvent)}

theorem push_silent (noReport : input.touchInput ≠ .report) :
    (push input).Runs parser output after ↔
      output = .ok [] ∧ after = parser.hear input.touchInput := by
  rw [push, Proc.runs_get_bind]
  cases isInput : input.touchInput with
  | report => exact absurd isInput noReport
  | dropped | slot _ | positionX _ | positionY _ =>
      rw [Proc.runs_set_bind, Proc.runs_pure]
      rfl
  | other => exact Proc.runs_pure
  | trackingId value =>
      by_cases starts : 0 ≤ value
      · simp only [hear, if_pos starts]
        exact Proc.runs_pure
      · simp only [hear, if_neg starts]
        split
        · exact Proc.runs_pure
        · exact Proc.runs_pure

theorem push_report (isReport : input.touchInput = .report) :
    (push input).Runs parser output after ↔
      finishReport.Runs parser output after := by
  rw [push, Proc.runs_get_bind]
  simp only [isReport]

end TypeBParser

theorem filterMap_of_unique {α β : Type} {items : List α}
    {image : α → Option β} {index : Nat} (inside : index < items.length)
    (others : ∀ other (bound : other < items.length), other ≠ index →
      image items[other] = none) :
    items.filterMap image = (image items[index]).toList := by
  induction items generalizing index with
  | nil => simp at inside
  | cons item items induction =>
      cases index with
      | zero =>
          have rest : items.filterMap image = [] := by
            refine List.filterMap_eq_nil_iff.mpr fun other member => ?_
            obtain ⟨place, bound, rfl⟩ := List.getElem_of_mem member
            exact others (place + 1) (by simpa using bound) (by simp)
          cases isImage : image item <;> simp [isImage, rest]
      | succ index =>
          have first : image item = none := others 0 (by simp) (by simp)
          rw [List.filterMap_cons_none first]
          exact induction (by simpa using inside) fun other bound different =>
            others (other + 1) (by simpa using bound) (by simpa using different)

/-- What the slots announce of a contact. -/
def TypeBParser.announced (self : TypeBParser) (contactId : Nat) :
    List PhysicalPhase :=
  self.slots.toList.filterMap fun slot =>
    if slot.contactId = some contactId then slot.announces self.dropped
    else none

private theorem phasesOf_report {parser : TypeBParser} {contactId : Nat}
    {slots : List Slot} {events : List PhysicalPointerEvent}
    (reports : Res.filterMap (·.report parser) slots = .ok events) :
    phasesOf contactId events = slots.filterMap fun slot =>
      if slot.contactId = some contactId then slot.announces parser.dropped
      else none := by
  induction slots generalizing events with
  | nil =>
      cases reports
      rfl
  | cons slot slots induction =>
      obtain ⟨image, isImage, reports⟩ := Res.bind_eq_ok.mp reports
      obtain ⟨rest, isRest, reports⟩ := Res.bind_eq_ok.mp reports
      rw [List.filterMap_cons, ← induction isRest]
      change slot.report parser = .ok image at isImage
      unfold Slot.report at isImage
      split at isImage
      · rename_i contact x y phase isLocated isPhase
        obtain ⟨event, mapped, same⟩ := Res.bind_eq_ok.mp isImage
        obtain ⟨left, _, mapped⟩ := Res.bind_eq_ok.mp mapped
        obtain ⟨top, _, mapped⟩ := Res.bind_eq_ok.mp mapped
        cases mapped
        cases same
        cases reports
        rw [(Slot.located_eq_some.mp isLocated).1, isPhase, phasesOf,
          List.filterMap_cons]
        by_cases isContact : contact = contactId
        · simp [isContact, phasesOf]
        · simp [isContact, phasesOf]
      · rename_i silent
        cases isImage
        cases reports
        have nothing : slot.announces parser.dropped = none := by
          cases isLocated : slot.located with
          | none => rw [Slot.announces, isLocated]
          | some place =>
              cases isPhase : slot.announces parser.dropped with
              | none => rfl
              | some phase => exact (silent _ _ _ _ isLocated isPhase).elim
        simp [nothing]

theorem finishReport_runs {parser after : TypeBParser}
    {output : Except Empty (List PhysicalPointerEvent)}
    (runs : TypeBParser.finishReport.Runs parser output after) :
    ∃ events, output = .ok events ∧
      after = { parser with
        slots := parser.slots.map (·.reported parser.dropped)
        dropped := false } ∧
      ∀ contactId, phasesOf contactId events = parser.announced contactId := by
  rw [TypeBParser.finishReport, Proc.runs_get_bind,
    Proc.runs_ofRes_bind] at runs
  rcases runs with ⟨events, reports, runs⟩ | ⟨err, _, _⟩
  · rw [Proc.runs_set_bind, Proc.runs_pure] at runs
    exact ⟨events, runs.1, runs.2, fun contactId => phasesOf_report reports⟩
  · exact err.elim

open ContactStatus in
/-- The slots agree with the events announced so far, and every contact that
is down is held by one. -/
structure Tracks (events : List PhysicalPointerEvent) (parser : TypeBParser) :
    Prop where
  fresh : 0 < parser.nextContactId ∧ ∀ contactId,
    parser.nextContactId ≤ contactId → phasesOf contactId events = []
  below : ∀ (i : Fin maxSlots) (contactId : Nat),
    parser.slots[i].contactId = some contactId →
      contactId < parser.nextContactId
  distinct : ∀ (i j : Fin maxSlots) (contactId : Nat),
    parser.slots[i].contactId = some contactId →
      parser.slots[j].contactId = some contactId → i = j
  agrees : ∀ (i : Fin maxSlots) (contactId : Nat),
    parser.slots[i].contactId = some contactId →
      parser.slots[i].Agrees (after (phasesOf contactId events))
  held : ∀ contactId, after (phasesOf contactId events) = some .down →
    ∃ i : Fin maxSlots, parser.slots[i].contactId = some contactId
  follows : ∀ contactId, (after (phasesOf contactId events)).isSome = true

namespace Tracks

variable {events : List PhysicalPointerEvent} {parser next : TypeBParser}

theorem transfer (tracks : Tracks events parser)
    (sameSlots : next.slots = parser.slots)
    (sameNext : next.nextContactId = parser.nextContactId) :
    Tracks events next where
  fresh := by rw [sameNext]; exact tracks.fresh
  below := by rw [sameNext, sameSlots]; exact tracks.below
  distinct := by rw [sameSlots]; exact tracks.distinct
  agrees := by rw [sameSlots]; exact tracks.agrees
  held := by rw [sameSlots]; exact tracks.held
  follows := tracks.follows

theorem slots_setCurrent (slot : Slot) (i : Fin maxSlots) :
    (parser.setCurrent slot).slots[i] =
      if i = parser.currentSlot then slot else parser.slots[i] := by
  simp only [TypeBParser.setCurrent, Fin.getElem_fin, Vector.getElem_set,
    Fin.ext_iff, eq_comm]

/-- Changing what the current slot knows of its contact. -/
theorem update (tracks : Tracks events parser) {slot : Slot}
    (sameContact : slot.contactId = parser.current.contactId)
    (agrees : ∀ status, parser.current.Agrees status → slot.Agrees status) :
    Tracks events (parser.setCurrent slot) := by
  have contact (i : Fin maxSlots) :
      (parser.setCurrent slot).slots[i].contactId =
        parser.slots[i].contactId := by
    rw [slots_setCurrent]
    split
    · rename_i same
      rw [sameContact, same]
      rfl
    · rfl
  refine ⟨tracks.fresh, ?_, ?_, ?_, ?_, tracks.follows⟩
  · intro i contactId
    rw [contact]
    exact tracks.below i contactId
  · intro i j contactId
    rw [contact, contact]
    exact tracks.distinct i j contactId
  · intro i contactId holds
    rw [contact] at holds
    have known := tracks.agrees i contactId holds
    rw [slots_setCurrent]
    split
    · rename_i same
      rw [same] at known
      exact agrees _ known
    · exact known
  · intro contactId isDown
    obtain ⟨i, holds⟩ := tracks.held contactId isDown
    exact ⟨i, by rw [contact]; exact holds⟩

theorem appear (tracks : Tracks events parser)
    (careful : parser.current.contactId.isSome = true →
      parser.current.pendingDown = true) :
    Tracks events ({ parser with
      nextContactId := parser.nextContactId + 1 }.setCurrent
        { contactId := some parser.nextContactId, pendingDown := true }) := by
  obtain ⟨somePositive, fresh⟩ := tracks.fresh
  refine ⟨⟨Nat.succ_pos _, fun contactId new =>
    fresh contactId (Nat.le_of_succ_le new)⟩, ?_, ?_, ?_, ?_, tracks.follows⟩
  · intro i contactId
    rw [slots_setCurrent]
    split
    · rintro holds
      cases holds
      exact Nat.lt_succ_self _
    · intro holds
      exact Nat.lt_succ_of_lt (tracks.below i contactId holds)
  · intro i j contactId
    rw [slots_setCurrent, slots_setCurrent]
    split <;> split
    · rename_i first second
      exact fun _ _ => first.trans second.symm
    · rintro isNew old
      cases isNew
      exact absurd (tracks.below j _ old) (Nat.lt_irrefl _)
    · rintro old isNew
      cases isNew
      exact absurd (tracks.below i _ old) (Nat.lt_irrefl _)
    · exact tracks.distinct i j contactId
  · intro i contactId
    rw [slots_setCurrent]
    split
    · rintro holds
      cases holds
      rw [fresh _ (Nat.le_refl _)]
      rfl
    · exact tracks.agrees i contactId
  · intro contactId isDown
    obtain ⟨i, holds⟩ := tracks.held contactId isDown
    refine ⟨i, ?_⟩
    rw [slots_setCurrent]
    split
    · rename_i same
      change i = parser.currentSlot at same
      subst same
      have known := tracks.agrees _ contactId holds
      have waiting : parser.slots[parser.currentSlot].pendingDown = true :=
        careful (by rw [TypeBParser.current, holds]; rfl)
      rw [Slot.Agrees, if_pos waiting, isDown] at known
      cases known
    · exact holds

theorem announced_of_held (tracks : Tracks events parser) {i : Fin maxSlots}
    {contactId : Nat} (holds : parser.slots[i].contactId = some contactId) :
    parser.announced contactId =
      (parser.slots[i].announces parser.dropped).toList := by
  rw [TypeBParser.announced, @filterMap_of_unique _ _ _ _ i.val (by simp)]
  · simp only [Vector.getElem_toList]
    rw [if_pos (by simpa using holds)]
    rfl
  · intro other bound different
    rw [if_neg]
    intro alsoHolds
    rw [Vector.length_toList] at bound
    have same := tracks.distinct ⟨other, bound⟩ i contactId
      (by simpa using alsoHolds) holds
    exact different (by rw [← same])

theorem announced_of_free {contactId : Nat}
    (free : ∀ i : Fin maxSlots, parser.slots[i].contactId ≠ some contactId) :
    parser.announced contactId = [] := by
  refine List.filterMap_eq_nil_iff.mpr fun slot member => ?_
  obtain ⟨index, bound, rfl⟩ := List.getElem_of_mem member
  rw [Vector.length_toList] at bound
  exact if_neg (by simpa using free ⟨index, bound⟩)

/-- A careful report closes or keeps every contact that is down, and afterwards
exactly the located ones are down. -/
theorem report (tracks : Tracks events parser)
    (careful : ∀ i : Fin maxSlots, parser.slots[i].Careful parser.dropped)
    {output : List PhysicalPointerEvent}
    (announces : ∀ contactId,
      phasesOf contactId output = parser.announced contactId)
    (isNext : next = { parser with
      slots := parser.slots.map (·.reported parser.dropped)
      dropped := false }) :
    Tracks (events ++ output) next ∧
      ∀ contactId,
        ContactStatus.after (phasesOf contactId (events ++ output)) =
          some .down ↔
        ∃ i : Fin maxSlots, next.slots[i].contactId = some contactId ∧
          next.slots[i].located.isSome = true := by
  have slotNext (i : Fin maxSlots) :
      next.slots[i] = parser.slots[i].reported parser.dropped := by
    simp [isNext]
  have wasHeld (i : Fin maxSlots) (contactId : Nat)
      (holds : next.slots[i].contactId = some contactId) :
      parser.slots[i].contactId = some contactId := by
    rw [slotNext] at holds
    rcases Slot.contactId_reported parser.slots[i] parser.dropped with
      none | same
    · rw [none] at holds
      cases holds
    · rwa [same] at holds
  have statusHeld (i : Fin maxSlots) (contactId : Nat)
      (holds : parser.slots[i].contactId = some contactId) :
      ∃ status, ContactStatus.after (phasesOf contactId (events ++ output)) =
          some status ∧
        (next.slots[i].contactId = some contactId ∧
            next.slots[i].Agrees (some status) ∧
            (next.slots[i].located.isSome = true → status = .down) ∨
          next.slots[i].contactId = none ∧ status ≠ .down) := by
    rw [slotNext, phasesOf_append, announces, ContactStatus.after_append,
      tracks.announced_of_held holds]
    exact Slot.reported_agrees holds (tracks.agrees i contactId holds) (careful i)
  have statusFree (contactId : Nat)
      (free : ¬ ∃ i : Fin maxSlots, parser.slots[i].contactId = some contactId) :
      phasesOf contactId (events ++ output) = phasesOf contactId events := by
    rw [phasesOf_append, announces, announced_of_free (not_exists.mp free),
      List.append_nil]
  refine ⟨⟨⟨by rw [isNext]; exact tracks.fresh.1, ?_⟩, ?_, ?_, ?_, ?_, ?_⟩, ?_⟩
  · intro contactId new
    rw [isNext] at new
    rw [statusFree contactId, tracks.fresh.2 contactId new]
    rintro ⟨i, holds⟩
    exact absurd (tracks.below i contactId holds) (Nat.not_lt.mpr new)
  · intro i contactId holds
    rw [isNext]
    exact tracks.below i contactId (wasHeld i contactId holds)
  · intro i j contactId first second
    exact tracks.distinct i j contactId (wasHeld i contactId first)
      (wasHeld j contactId second)
  · intro i contactId holds
    obtain ⟨status, reached, ⟨_, agrees, _⟩ | ⟨freed, _⟩⟩ :=
      statusHeld i contactId (wasHeld i contactId holds)
    · rw [reached]
      exact agrees
    · rw [freed] at holds
      cases holds
  · intro contactId isDown
    by_cases was : ∃ i : Fin maxSlots,
        parser.slots[i].contactId = some contactId
    · obtain ⟨i, holds⟩ := was
      obtain ⟨status, reached, ⟨kept, _⟩ | ⟨_, notDown⟩⟩ :=
        statusHeld i contactId holds
      · exact ⟨i, kept⟩
      · rw [reached] at isDown
        cases isDown
        exact absurd rfl notDown
    · rw [statusFree contactId was] at isDown
      exact absurd (tracks.held contactId isDown) was
  · intro contactId
    by_cases was : ∃ i : Fin maxSlots,
        parser.slots[i].contactId = some contactId
    · obtain ⟨i, holds⟩ := was
      obtain ⟨status, reached, _⟩ := statusHeld i contactId holds
      rw [reached]
      rfl
    · rw [statusFree contactId was]
      exact tracks.follows contactId
  · intro contactId
    constructor
    · intro isDown
      by_cases was : ∃ i : Fin maxSlots,
          parser.slots[i].contactId = some contactId
      · obtain ⟨i, holds⟩ := was
        obtain ⟨status, reached, ⟨kept, agrees, _⟩ | ⟨_, notDown⟩⟩ :=
          statusHeld i contactId holds
        · rw [reached] at isDown
          cases isDown
          exact ⟨i, kept, Slot.located_of_down kept agrees⟩
        · rw [reached] at isDown
          cases isDown
          exact absurd rfl notDown
      · rw [statusFree contactId was] at isDown
        exact absurd (tracks.held contactId isDown) was
    · rintro ⟨i, holds, located⟩
      obtain ⟨status, reached, ⟨_, _, isDown⟩ | ⟨freed, _⟩⟩ :=
        statusHeld i contactId (wasHeld i contactId holds)
      · rw [reached, isDown located]
      · rw [freed] at holds
        cases holds

end Tracks

/-- Does the event bring a new contact? -/
def LinuxInputEvent.appears (self : LinuxInputEvent) : Bool :=
  match self.touchInput with
  | .trackingId value => decide (0 ≤ value)
  | _ => false

namespace ParserEvent

/-- What the parser announced. -/
def events (event : ParserEvent) : List PhysicalPointerEvent :=
  match event.output with
  | .ok events => events
  | .error err => err.elim

/-- A new contact does not take the slot of one that is down, and a report
neither lifts the contacts that appear in it nor loses them. -/
def Careful (event : ParserEvent) : Prop :=
  (event.input.appears = true → event.before.current.contactId.isSome = true →
    event.before.current.pendingDown = true) ∧
  (event.input.touchInput = .report → ∀ i : Fin maxSlots,
    event.before.slots[i].Careful event.before.dropped)

instance (event : ParserEvent) : Decidable event.Careful :=
  inferInstanceAs (Decidable (_ ∧ _))

end ParserEvent

/-- Everything announced in a run, in order. -/
def announcements : List ParserEvent → List PhysicalPointerEvent
  | [] => []
  | event :: earlier => announcements earlier ++ event.events

/-- How many contacts appeared in a run. -/
def appearances (history : List ParserEvent) : Nat :=
  history.countP (·.input.appears)

/-- Contact by contact, what was announced is the beginning of one contact, and
after every report exactly the contacts located in a slot are down. -/
structure ContactsClose (history : List ParserEvent) : Prop where
  once : ∀ contactId, OneContact (phasesOf contactId (announcements history))
  held : ∀ (event : ParserEvent) (earlier : List ParserEvent),
    event :: earlier <:+ history → event.input.touchInput = .report →
      ∀ contactId,
        Open (phasesOf contactId (announcements (event :: earlier))) ↔
          ∃ i : Fin maxSlots,
            event.after.slots[i].contactId = some contactId ∧
              event.after.slots[i].located.isSome = true

theorem TypeBParser.allocated_eq {parser : TypeBParser}
    (positive : 0 < parser.nextContactId)
    (few : parser.nextContactId < u32Max) :
    parser.allocated = (parser.nextContactId,
      { parser with nextContactId := parser.nextContactId + 1 }) := by
  have same : max parser.nextContactId 1 = parser.nextContactId := by omega
  have next : max (Bounded.wrappingSucc u32Max parser.nextContactId) 1 =
      parser.nextContactId + 1 := by
    rw [Bounded.wrappingSucc, Nat.mod_eq_of_lt (by omega)]
    omega
  rw [allocated, same, next]

theorem Tracks.hear {events : List PhysicalPointerEvent} {parser : TypeBParser}
    {input : LinuxInputEvent} (tracks : Tracks events parser)
    (few : input.appears = true → parser.nextContactId < u32Max)
    (careful : input.appears = true → parser.current.contactId.isSome = true →
      parser.current.pendingDown = true) :
    Tracks events (parser.hear input.touchInput) ∧
      (parser.hear input.touchInput).nextContactId =
        parser.nextContactId + (if input.appears then 1 else 0) := by
  unfold LinuxInputEvent.appears at few careful ⊢
  cases isInput : input.touchInput with
  | dropped | slot _ => exact ⟨tracks.transfer rfl rfl, rfl⟩
  | report | other => exact ⟨tracks, rfl⟩
  | trackingId value =>
      simp only [isInput, decide_eq_true_eq] at few careful
      by_cases starts : 0 ≤ value
      · simp only [TypeBParser.hear, if_pos starts,
          TypeBParser.allocated_eq tracks.fresh.1 (few starts)]
        exact ⟨tracks.appear (careful starts), by simp [starts,
          TypeBParser.setCurrent]⟩
      · simp only [TypeBParser.hear, if_neg starts]
        split
        · exact ⟨tracks.update rfl fun _ => id, by simp [starts,
            TypeBParser.setCurrent]⟩
        · exact ⟨tracks, by simp [starts]⟩
  | positionX value =>
      refine ⟨tracks.update rfl ?_, rfl⟩
      intro status
      simp only [Slot.Agrees]
      split
      · exact id
      · exact fun agrees => ⟨agrees.1, rfl, agrees.2.2⟩
  | positionY value =>
      refine ⟨tracks.update rfl ?_, rfl⟩
      intro status
      simp only [Slot.Agrees]
      split
      · exact id
      · exact fun agrees => ⟨agrees.1, agrees.2.1, rfl⟩

/-- One event. -/
theorem Tracks.push {events : List PhysicalPointerEvent} {event : ParserEvent}
    (tracks : Tracks events event.before)
    (few : event.input.appears = true → event.before.nextContactId < u32Max)
    (careful : event.Careful)
    (stepped : parserStep event.before event.input event.output event.after) :
    Tracks (events ++ event.events) event.after ∧
      event.after.nextContactId = event.before.nextContactId +
        (if event.input.appears then 1 else 0) ∧
      (event.input.touchInput = .report → ∀ contactId,
        ContactStatus.after (phasesOf contactId (events ++ event.events)) =
            some .down ↔
          ∃ i : Fin maxSlots,
            event.after.slots[i].contactId = some contactId ∧
              event.after.slots[i].located.isSome = true) := by
  obtain ⟨before, input, output, after⟩ := event
  obtain ⟨takes, reports⟩ := careful
  dsimp only at *
  by_cases isReport : input.touchInput = .report
  · obtain ⟨given, rfl, isNext, announces⟩ :=
      finishReport_runs ((TypeBParser.push_report isReport).mp stepped)
    obtain ⟨kept, held⟩ := tracks.report (reports isReport) announces isNext
    refine ⟨kept, ?_, fun _ => held⟩
    rw [isNext, LinuxInputEvent.appears, isReport]
    rfl
  · obtain ⟨rfl, rfl⟩ := (TypeBParser.push_silent isReport).mp stepped
    obtain ⟨kept, next⟩ := tracks.hear few takes
    refine ⟨?_, next, fun reported => absurd reported isReport⟩
    simpa [ParserEvent.events] using kept

theorem Tracks.fresh_parser (setup : TypeBParser.Setup) :
    Tracks [] (.withRangesAndTransform setup) := by
  have empty (i : Fin maxSlots) :
      (TypeBParser.withRangesAndTransform setup).slots[i] = {} := by
    simp [TypeBParser.withRangesAndTransform]
  refine ⟨⟨Nat.one_pos, fun _ _ => rfl⟩, ?_, ?_, ?_, ?_, fun _ => rfl⟩
  · intro i contactId holds
    rw [empty] at holds
    cases holds
  · intro i j contactId holds
    rw [empty] at holds
    cases holds
  · intro i contactId holds
    rw [empty] at holds
    cases holds
  · intro contactId isDown
    cases isDown

/-- In a run of careful events with fewer contacts than numbers, every contact
that is announced is closed at most once, and whenever it is open it is held. -/
theorem contactsClose_of_run {setup : TypeBParser.Setup}
    {history : List ParserEvent} {final : TypeBParser}
    (run : ParserRun setup history final)
    (few : appearances history < 2 ^ 32 - 1)
    (careful : ∀ event ∈ history, event.Careful) : ContactsClose history := by
  have inv := @Run.keeps _ _ _ _ _ _ _ ParserEvent.Careful
    (fun history parser => appearances history < u32Max →
      Tracks (announcements history) parser ∧
        parser.nextContactId = appearances history + 1 ∧
        ∀ (event : ParserEvent) (earlier : List ParserEvent),
          event :: earlier <:+ history →
            Tracks (announcements (event :: earlier)) event.after ∧
              (event.input.touchInput = .report → ∀ contactId,
                ContactStatus.after
                    (phasesOf contactId (announcements (event :: earlier))) =
                    some .down ↔
                  ∃ i : Fin maxSlots,
                    event.after.slots[i].contactId = some contactId ∧
                      event.after.slots[i].located.isSome = true))
    (fun _ => ⟨Tracks.fresh_parser setup, rfl, by simp⟩) ?_ run careful few
  · obtain ⟨tracks, _, held⟩ := inv
    refine ⟨fun contactId => ContactStatus.oneContact (tracks.follows contactId),
      ?_⟩
    intro event earlier suffix isReport contactId
    obtain ⟨kept, heldHere⟩ := held event earlier suffix
    exact (ContactStatus.open_iff (kept.follows contactId)).trans
      (heldHere isReport contactId)
  · intro history event careful stepped inv few
    have count : appearances (event :: history) =
        appearances history + if event.input.appears then 1 else 0 := by
      simp [appearances, List.countP_cons]
    obtain ⟨tracks, next, held⟩ := inv (by omega)
    obtain ⟨kept, nextAfter, heldNow⟩ := tracks.push (by
      intro appears
      rw [if_pos appears] at count
      omega) careful stepped
    refine ⟨kept, by rw [nextAfter, next, count]; omega, ?_⟩
    intro other earlier suffix
    rcases List.suffix_cons_iff.mp suffix with same | older
    · cases same
      exact ⟨kept, heldNow⟩
    · exact held other earlier older

/-- Contacts on a small panel. -/
def smallPanel : TypeBParser.Setup := ⟨0, 100, 0, 100, 101, 101, {}⟩

/-- A report that starts a contact in the selected slot, the latest event
first. -/
def touchAt (x y : Int) : List LinuxInputEvent :=
  [⟨evSyn, synReport, 0⟩, ⟨evAbs, absMtPositionY, y⟩,
    ⟨evAbs, absMtPositionX, x⟩, ⟨evAbs, absMtTrackingId, 7⟩]

/-- A contact that moves and is lifted is closed. -/
theorem contactsClose_of_stroke :
    ∃ history final, ParserRun smallPanel history final ∧
      phasesOf 1 (announcements history) = [.down, .move, .up] ∧
      ContactsClose history := by
  have replayed : (replay TypeBParser.push (.withRangesAndTransform smallPanel)
      ([⟨evSyn, synReport, 0⟩, ⟨evAbs, absMtTrackingId, -1⟩,
        ⟨evSyn, synReport, 0⟩, ⟨evAbs, absMtPositionX, 30⟩] ++
          touchAt 10 20)).map (fun result =>
      ((result.1.all fun event => decide (ParserEvent.Careful event)),
        phasesOf 1 (announcements result.1), appearances result.1)) =
      some (true, [.down, .move, .up], 1) := by decide +kernel
  obtain ⟨⟨history, final⟩, replayed, facts⟩ :=
    Option.map_eq_some_iff.mp replayed
  simp only [Prod.mk.injEq, List.all_eq_true, decide_eq_true_eq] at facts
  obtain ⟨careful, phases, count⟩ := facts
  have run := run_of_replay replayed
  exact ⟨history, final, run, phases,
    contactsClose_of_run run (by rw [count]; omega) careful⟩

/-- A second contact in the same slot, without a release of the first: nothing
ever closes the first one. -/
theorem replaced_contact_stays_open :
    ∃ history final, ParserRun smallPanel history final ∧
      appearances history < 2 ^ 32 - 1 ∧ ¬ ContactsClose history := by
  have replayed : (replay TypeBParser.push (.withRangesAndTransform smallPanel)
      (touchAt 30 40 ++ touchAt 10 20)).map (fun result =>
      (phasesOf 1 (announcements result.1), appearances result.1,
        result.1.head?.any fun event : ParserEvent =>
          event.input.touchInput == .report &&
            decide (∀ i : Fin maxSlots,
              event.after.slots[i].contactId ≠ some 1))) =
      some ([.down], 2, true) := by decide +kernel
  obtain ⟨⟨history, final⟩, replayed, facts⟩ :=
    Option.map_eq_some_iff.mp replayed
  simp only [Prod.mk.injEq] at facts
  obtain ⟨phases, count, lost⟩ := facts
  refine ⟨history, final, run_of_replay replayed, by rw [count]; omega, ?_⟩
  intro closes
  cases history with
  | nil => cases lost
  | cons event earlier =>
      simp only [List.head?_cons, Option.any_some, Bool.and_eq_true, beq_iff_eq,
        decide_eq_true_eq] at lost
      obtain ⟨isReport, free⟩ := lost
      obtain ⟨i, holds, _⟩ := (closes.held event earlier (List.suffix_refl _)
        isReport 1).mp (by rw [phases]; simp [Open])
      exact free i holds

end RmDisplay.Receiver
