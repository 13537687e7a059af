import RmDisplay.Receiver.SessionRuns
import RmDisplay.Receiver.ContactSeries

/-!
# Touch records of a producer

What a producer hears of the touch panel, told from the journal of the session
alone: the contacts on the panel, the records sent since the surface was
opened, and whether the contacts are held back.  A small machine keeps what
decides about the next record.
-/

namespace RmDisplay.Receiver

open Foundation Protocol RmDisplay.Core

/-- What a touch record announces. -/
def touchPhase (record : PointerRecord) : PhysicalPhase :=
  match Session.penPhase record with
  | .down => .down
  | .move => .move
  | .up => .up
  | .cancel | .hover | .unspecified => .cancel

/-- The phases announced for one contact. -/
def phasesIn (contactId : Nat) (records : List PointerRecord) :
    List PhysicalPhase :=
  records.filterMap fun record =>
    if record.contactId = contactId then some (touchPhase record) else none

def touchRecords (records : List PointerRecord) : List PointerRecord :=
  records.filter fun record => record.device == wire PointerDevice.touch

namespace JournalEntry

/-- The touch records that were sent. -/
def touches : JournalEntry → List PointerRecord
  | .sent (.inputBatch batch) _ => touchRecords batch.records
  | _ => []

/-- The cleanup of a chord. -/
def asksChord : JournalEntry → Bool
  | .asked .chord => true
  | _ => false

end JournalEntry

/-- All events of the touch panel, the earliest first. -/
def touchEvents : List JournalEntry → List PhysicalPointerEvent
  | [] => []
  | entry :: earlier => touchEvents earlier ++ entry.report.getD []

/-- The contacts on the panel. -/
def onPanel (entries : List JournalEntry) : List Nat :=
  contactsDown (touchEvents entries)

/-- All touch records sent, the earliest first. -/
def sentTouches : List JournalEntry → List PointerRecord
  | [] => []
  | entry :: earlier => sentTouches earlier ++ entry.touches

/-- The touch records sent since the active surface was opened. -/
def generationTouches : List JournalEntry → List PointerRecord
  | [] => []
  | entry :: earlier =>
      if entry.moves then [] else generationTouches earlier ++ entry.touches

/-- The active surface and its generation. -/
def surfaceOpen : List JournalEntry → Option (Nat × Nat)
  | [] | .closed :: _ => none
  | .opened surfaceId generation _ _ :: _ => some (surfaceId, generation)
  | _ :: earlier => surfaceOpen earlier

def menuShown : List JournalEntry → Bool
  | [] | .closed :: _ | .opened .. :: _ => false
  | .menu visible :: _ => visible
  | _ :: earlier => menuShown earlier

/-- From when on input is current. -/
def inputSince : List JournalEntry → Duration
  | [] => 0
  | .clocked notBefore :: _ => notBefore
  | _ :: earlier => inputSince earlier

def fiveDown (entries : List JournalEntry) : Bool :=
  decide (5 ≤ (onPanel entries).length)

/-- Contacts on the panel may not be forwarded any more: the surface or the
menu changed, they were detached, or there are five of them. -/
def breaks (entry : JournalEntry) (earlier : List JournalEntry) : Bool :=
  match entry with
  | .opened .. | .closed | .menu _ | .detached => true
  | .touched .. => fiveDown (entry :: earlier)
  | _ => false

/-- Such a thing happened since the panel was clear. -/
def heldBack : List JournalEntry → Bool
  | [] => false
  | entry :: earlier =>
      !(onPanel (entry :: earlier)).isEmpty &&
        (breaks entry earlier || heldBack earlier)

/-- Does the producer see the contact on its surface? -/
def forwardedTo (contactId : Nat) (entries : List JournalEntry) : Bool :=
  match (phasesIn contactId (generationTouches entries)).getLast? with
  | some .down | some .move => true
  | some .up | some .cancel | none => false

/-- A chord that asks for a cleanup. -/
def recognizes (captured : Duration) (earlier : List JournalEntry) : Bool :=
  (surfaceOpen earlier).isSome && !menuShown earlier &&
    decide (inputSince earlier ≤ captured) && !heldBack earlier

/-- Contacts were on the panel all the time. -/
def HeldSince (newer older : List JournalEntry) : Prop :=
  ∀ middle, middle <:+ newer → (onPanel (middle ++ older)).isEmpty = false

/-- What a producer hears of the touch panel. -/
structure TouchLaw (entries : List JournalEntry) : Prop where
  /-- A touch record tells of an event of the panel. -/
  events : ∀ entry ∈ entries, ∀ record ∈ entry.touches,
    ∃ event, record = Session.pointerRecord event
  /-- Touch records are sent for the active surface. -/
  named : ∀ batch pending earlier,
    .sent (.inputBatch batch) pending :: earlier <:+ entries →
    touchRecords batch.records ≠ [] →
    surfaceOpen earlier = some (batch.surfaceId, batch.generation)
  /-- Each contact goes down, moves and ends at most once on a surface. -/
  series : ∀ earlier, earlier <:+ entries → ∀ contactId,
    ContactSeries (phasesIn contactId (generationTouches earlier))
  /-- Contacts that are held back are at most cancelled. -/
  held : ∀ entry earlier, entry :: earlier <:+ entries →
    heldBack earlier = true → ∀ record ∈ entry.touches,
    touchPhase record = .cancel
  /-- As long as contacts are on the panel after five were, each one that was
  forwarded is cancelled once. -/
  cancels : ∀ newer captured report result earlier,
    entries = newer ++ .touched captured report result :: earlier →
    fiveDown (.touched captured report result :: earlier) = true →
    HeldSince newer (.touched captured report result :: earlier) →
    ∀ contactId, phasesIn contactId (sentTouches newer) =
      if forwardedTo contactId earlier then [.cancel] else []
  /-- And a cleanup is asked for once, or not at all. -/
  cleanups : ∀ newer captured report result earlier,
    entries = newer ++ .touched captured report result :: earlier →
    fiveDown (.touched captured report result :: earlier) = true →
    HeldSince newer (.touched captured report result :: earlier) →
    newer.countP (·.asksChord) = (recognizes captured earlier).toNat

theorem touchPhase_pointerRecord (event : PhysicalPointerEvent) :
    touchPhase (Session.pointerRecord event) = event.phase := by
  unfold touchPhase Session.penPhase Session.pointerRecord
  cases event.phase <;> rfl

theorem phasesIn_append {contactId : Nat} {first rest : List PointerRecord} :
    phasesIn contactId (first ++ rest) =
      phasesIn contactId first ++ phasesIn contactId rest :=
  List.filterMap_append

/-- Records announce what the events do. -/
theorem phasesIn_map (contactId : Nat) (events : List PhysicalPointerEvent) :
    phasesIn contactId (events.map Session.pointerRecord) =
      phasesOf contactId events := by
  rw [phasesIn, List.filterMap_map, phasesOf]
  refine List.filterMap_congr fun event _ => ?_
  simp only [Function.comp_apply, touchPhase_pointerRecord]
  rfl

theorem touchRecords_map (events : List PhysicalPointerEvent) :
    touchRecords (events.map Session.pointerRecord) =
      events.map Session.pointerRecord := by
  refine List.filter_eq_self.mpr fun record member => ?_
  obtain ⟨event, _, rfl⟩ := List.mem_map.mp member
  rfl

theorem onPanel_of_heldBack {entries : List JournalEntry}
    (held : heldBack entries = true) : (onPanel entries).isEmpty = false := by
  cases entries with
  | nil => cases held
  | cons entry earlier =>
      rw [heldBack, Bool.and_eq_true] at held
      simpa using held.1

theorem onPanel_silent {entry : JournalEntry} (silent : entry.report = none)
    (earlier : List JournalEntry) :
    onPanel (entry :: earlier) = onPanel earlier := by
  rw [onPanel, touchEvents, silent, Option.getD_none, List.append_nil, onPanel]

theorem heldBack_silent {entry : JournalEntry} {earlier : List JournalEntry}
    (silent : entry.report = none) (smooth : breaks entry earlier = false) :
    heldBack (entry :: earlier) = heldBack earlier := by
  rw [heldBack, onPanel_silent silent, smooth, Bool.false_or]
  cases held : heldBack earlier with
  | false => rw [Bool.and_false]
  | true => rw [onPanel_of_heldBack held]; rfl

theorem HeldSince.earlier {entry : JournalEntry}
    {newer older : List JournalEntry} (since : HeldSince (entry :: newer) older) :
    HeldSince newer older :=
  fun middle isSuffix => since middle (isSuffix.trans (List.suffix_cons _ _))

/-- After a break contacts are held back until the panel is clear. -/
theorem heldBack_of_since {entry : JournalEntry}
    {newer earlier : List JournalEntry} (broken : breaks entry earlier = true)
    (since : HeldSince newer (entry :: earlier)) :
    heldBack (newer ++ entry :: earlier) = true := by
  induction newer with
  | nil =>
      have down := since [] List.nil_suffix
      rw [List.nil_append] at down ⊢
      rw [heldBack, down, broken]
      rfl
  | cons last newer induction =>
      have down := since (last :: newer) (List.suffix_refl _)
      rw [List.cons_append] at down ⊢
      rw [heldBack, down, induction since.earlier, Bool.or_true]
      rfl

end RmDisplay.Receiver
