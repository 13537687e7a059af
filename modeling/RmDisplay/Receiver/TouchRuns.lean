import Mathlib.Data.List.Infix
import RmDisplay.Receiver.FrameIds
import RmDisplay.Receiver.TouchMachine

/-!
# Touch records in whole runs

Every step of a session is a sequence of steps of the touch machine, so what
the journal tells about touch records holds in every run whose operations
succeed.
-/

namespace RmDisplay.Receiver

open Foundation Protocol RmDisplay.Core Core.DisplayCore

/-- The part of a station that decides about touch records. -/
def Station.touch (self : Station) : TouchView where
  key := self.face.screen.map fun screen =>
    (screen.surfaceId, screen.generation)
  forwarding := self.face.forwarding
  menu := self.face.menuVisible
  since := self.face.inputNotBefore
  gesture := self.face.touchGesture
  touches := self.owed.touches
  chord := self.owed.chord
  loose := self.owed.loose

/-- Records of a pen are no touch records. -/
def JournalEntry.PenOnly : JournalEntry → Prop
  | .penKept records =>
      ∀ record ∈ records, record.device ≠ wire PointerDevice.touch
  | _ => True

/-- What the session keeps of the pen is no touch record. -/
structure Face.PenOnly (face : Face) : Prop where
  journal : ∀ record ∈ face.journal, record.entry.PenOnly
  last : ∀ screen ∈ face.screen, ∀ last ∈ screen.lastPen,
    last.device ≠ wire PointerDevice.touch

theorem touchRecords_pen {records : List PointerRecord}
    (pen : ∀ record ∈ records, record.device ≠ wire PointerDevice.touch) :
    touchRecords records = [] :=
  List.filter_eq_nil_iff.mpr fun record member => by
    simpa using pen record member

section

variable {before after : Station} {entries : List JournalEntry}

theorem InkStep.bystands {screen next : Screen} {entry : Option JournalEntry}
    (step : InkStep screen entry next) :
    ∀ written ∈ entry, written.bystands = true := by
  cases step <;> simp [JournalEntry.bystands]

theorem Truthful.bystands {face : Face} {body : Body}
    (truthful : Truthful face body) (pending : Option PendingPresentation) :
    (JournalEntry.sent body pending).bystands = true := by
  cases body with
  | inputBatch _ => cases truthful
  | _ => rfl

theorem TouchMode.view {face : Face} {captured : Duration}
    {forwards cleans loosens : Bool} {owed : Owed}
    (mode : TouchMode face captured forwards cleans loosens) :
    (Station.touch ⟨face, owed⟩).Mode captured forwards cleans loosens := by
  cases mode with
  | direct hidden current =>
      have direct := @TouchView.Mode.direct (Station.touch ⟨face, owed⟩)
        captured hidden current
      have same : (Station.touch ⟨face, owed⟩).key.isSome = face.screen.isSome :=
        Option.isSome_map
      rw [same] at direct
      exact direct
  | consumed shown current => exact .consumed shown current
  | stale old => exact .stale old

theorem Station.key_touch (station : Station) :
    station.touch.key = station.face.target.map (·.1) := by
  rw [Face.target, Option.map_map]
  rfl

theorem Station.forwarding_touch (station : Station) :
    station.touch.forwarding = station.face.target.any (·.2) := by
  rw [Face.target]
  change station.face.screen.any _ = _
  cases station.face.screen <;> rfl

theorem TouchSteps.still {view : TouchView}
    (bystand : ∀ entry ∈ entries, entry.bystands = true) :
    TouchSteps view entries view := by
  induction entries with
  | nil => exact .nil
  | cons entry entries induction =>
      obtain ⟨first, others⟩ := List.forall_mem_cons.mp bystand
      exact .cons (.rests first) (induction others)

/-- A step that changes neither the target nor the contacts. -/
theorem FaceStep.still (step : FaceStep before entries after)
    (bystand : ∀ entry ∈ entries, entry.bystands = true)
    (menu : after.face.menuVisible = before.face.menuVisible)
    (since : after.face.inputNotBefore = before.face.inputNotBefore)
    (touches : after.owed.touches = before.owed.touches)
    (chord : after.owed.chord = before.owed.chord)
    (loose : after.owed.loose = before.owed.loose) :
    TouchSteps before.touch entries after.touch := by
  have stays : ∀ entry ∈ entries, entry.moves = false := by
    intro entry member
    have quiet := bystand entry member
    cases entry with
    | opened _ _ _ _ | closed => cases quiet
    | _ => rfl
  have rests : ∀ entry ∈ entries, entry.gestures = false := by
    intro entry member
    have quiet := bystand entry member
    cases entry with
    | opened _ _ _ _ | closed | touched _ _ _ | detached | captureLost =>
        cases quiet
    | _ => rfl
  have target := step.target stays
  have gesture := step.gesture rests
  have same : after.touch = before.touch := by
    have key := after.key_touch
    rw [target, ← before.key_touch] at key
    have forwarding := after.forwarding_touch
    rw [target, ← before.forwarding_touch] at forwarding
    calc after.touch
        = { after.touch with
            key := before.touch.key
            forwarding := before.touch.forwarding } := by
          rw [← key, ← forwarding]
      _ = before.touch := by
          unfold Station.touch
          simp only [menu, since, gesture, touches, chord, loose]
  rw [same]
  exact .still bystand

/-- A step of a session is a sequence of steps of the machine. -/
theorem FaceStep.touch (step : FaceStep before entries after)
    (captured : ∀ entry ∈ entries, entry ≠ .captureLost)
    (pen : before.face.PenOnly) :
    TouchSteps before.touch entries after.touch := by
  have silent {entry : JournalEntry} (bystands : entry.bystands = true) :
      ∀ other ∈ [entry], other.bystands = true :=
    List.forall_mem_singleton.mpr bystands
  have nothing : ∀ entry ∈ ([] : List JournalEntry), entry.bystands = true :=
    List.forall_mem_nil _
  have steps := step.still
  cases step with
  | core _ _ _ | configured _ _ | noted _ _ | carried _ | fallback _ _ _ _
  | greeted _ _ | ended | forgotten _ =>
      exact steps nothing rfl rfl rfl rfl rfl
  | armed _ _ requested =>
      refine steps (silent ?_) rfl rfl rfl rfl rfl
      rcases requested with rfl | rfl <;> rfl
  | overlooked _ | frozen _ _ _ | released _ _ | accepted _ _ =>
      exact steps (silent rfl) rfl rfl rfl rfl rfl
  | refused _ _ answers =>
      subst answers
      refine steps (List.forall_mem_cons.mpr ⟨rfl, silent rfl⟩) ?_ ?_ ?_ ?_ ?_ <;>
        rfl
  | reported _ answers =>
      subst answers
      exact steps (silent rfl) rfl rfl rfl rfl rfl
  | sent truthful =>
      exact steps (silent (truthful.bystands _)) rfl rfl rfl rfl rfl
  | @inked _ _ _ entry _ _ step =>
      have quiet := step.bystands
      cases entry with
      | none => exact steps nothing rfl rfl rfl rfl rfl
      | some written =>
          exact steps (silent (quiet written rfl)) rfl rfl rfl rfl rfl
  | @asked face screen owed shown cause due =>
      by_cases chord : cause = .chord
      · subst chord
        have same : Station.touch ⟨{ face.note (.asked .chord) with
            screen := some { screen with core := screen.core.requireCleanup } },
            { owed with chord := owed.chord && CleanupCause.chord != .chord }⟩ =
            { Station.touch ⟨face, owed⟩ with chord := false } := by
          simp [Station.touch, Face.forwarding, Face.note, shown]
        rw [same]
        exact .single (.asked (due rfl))
      · refine steps (silent ?_) rfl rfl rfl ?_ rfl
        · simpa [JournalEntry.bystands] using chord
        · simp [chord]
  | @batched face batch owed left truthful source =>
      have named (shown : (Station.touch ⟨face, owed⟩).key.isSome = true) :
          (Station.touch ⟨face, owed⟩).key =
            some (batch.surfaceId, batch.generation) := by
        obtain ⟨key, isKey⟩ := Option.isSome_iff_exists.mp shown
        change face.screen.map _ = some key at isKey
        rw [truthful.1, Face.surfaceKey, isKey]
        exact isKey
      generalize isRecords : batch.records = records at source
      cases source with
      | touches due =>
          exact .single (.batched due isRecords named)
      | pen member kept =>
          have records : ∀ record ∈ records,
              record.device ≠ wire PointerDevice.touch := by
            have fine := pen.journal _ member
            rw [kept] at fine
            exact fine
          refine .single (.rests ?_)
          change (touchRecords batch.records).isEmpty = true
          rw [isRecords, touchRecords_pen records]
          rfl
      | empty =>
          refine .single (.rests ?_)
          change (touchRecords batch.records).isEmpty = true
          rw [isRecords]
          rfl
  | opened _ _ surfaceId generation forwarding _ =>
      exact .single (.opened surfaceId generation _ _ forwarding
        ⟨rfl, rfl, rfl⟩)
  | closed _ _ => exact .single (.closed ⟨rfl, rfl, rfl⟩)
  | clocked now => exact .single (.clocked now)
  | touched report mode => exact .single (.touched report mode.view ⟨rfl, rfl, rfl⟩)
  | detached ending => exact .single (.detached ending)
  | menu visible free told => exact .single (.menu visible free told)
  | captureLost => exact absurd rfl (captured _ (List.mem_singleton_self _))

theorem InkStep.penOnly {screen next : Screen} {entry : Option JournalEntry}
    (step : InkStep screen entry next)
    (fine : ∀ written ∈ entry, written.PenOnly)
    (pen : ∀ last ∈ screen.lastPen, last.device ≠ wire PointerDevice.touch) :
    ∀ last ∈ next.lastPen, last.device ≠ wire PointerDevice.touch := by
  cases step with
  | forgotten => exact fun _ missing => by cases missing
  | kept records lastPen known =>
      intro last isLast
      rcases known last isLast with member | before
      · exact fine _ rfl last member
      · exact pen last before
  | _ => exact pen

theorem FaceStep.penOnly (step : FaceStep before entries after)
    (fine : ∀ entry ∈ entries, entry.PenOnly) (pen : before.face.PenOnly) :
    after.face.PenOnly := by
  refine ⟨fun record member => ?_, ?_⟩
  · rw [step.records] at member
    rcases List.mem_append.mp member with new | old
    · obtain ⟨entry, isEntry, rfl⟩ := List.mem_map.mp new
      exact fine entry (List.mem_reverse.mp isEntry)
    · exact pen.journal record old
  · cases step with
    | core shown _ _ | configured shown _ | noted shown _ | asked shown _ _
    | frozen shown _ _ | released shown _ =>
        intro other isOther last isLast
        cases isOther
        exact pen.last _ shown last isLast
    | accepted admits _ =>
        intro other isOther last isLast
        cases isOther
        exact pen.last _ (Session.screen_of_admits admits) last isLast
    | @inked _ screen next entry _ shown step =>
        intro other isOther
        cases isOther
        refine step.penOnly ?_ (pen.last screen shown)
        exact fun written isWritten => fine written (Option.mem_toList.mpr isWritten)
    | opened _ _ _ _ _ _ =>
        intro other isOther last isLast
        cases isOther
        cases isLast
    | closed _ _ => exact fun _ missing => by cases missing
    | _ => exact pen.last

end

theorem Steps.touch {before after : Station} {entries : List JournalEntry}
    (steps : Steps before entries after) (pen : before.face.PenOnly)
    (fine : ∀ entry ∈ entries, entry.PenOnly)
    (captured : ∀ entry ∈ entries, entry ≠ .captureLost) :
    after.face.PenOnly ∧ TouchSteps before.touch entries after.touch := by
  induction steps with
  | nil => exact ⟨pen, .nil⟩
  | cons step _ induction =>
      obtain ⟨fineNow, fineLater⟩ := List.forall_mem_append.mp fine
      obtain ⟨nowCaptured, laterCaptured⟩ := List.forall_mem_append.mp captured
      obtain ⟨last, rest⟩ :=
        induction (step.penOnly fineNow pen) fineLater laterCaptured
      exact ⟨last, (step.touch nowCaptured pen).append rest⟩

/-- The touch events an operation is given. -/
def SessionEvent.touchInput (event : SessionEvent) : List PhysicalPointerEvent :=
  match event.input with
  | .inputReports reports _ => reports.flatten
  | _ => []

/-- All touch events a session was given, the earliest first. -/
def touchInputs : List SessionEvent → List PhysicalPointerEvent
  | [] => []
  | event :: earlier => touchInputs earlier ++ event.touchInput

/-- The operation succeeds, is given records of the pen only as pen reports, is
not the loss of the input devices, and does not close the menu from outside. -/
structure SessionEvent.Attended (event : SessionEvent) : Prop where
  succeeds : event.Succeeds
  pens : ∀ reports now, event.input = .penReports reports now →
    ∀ record ∈ reports.flatten, record.device ≠ wire PointerDevice.touch
  captured : ∀ now, event.input ≠ .inputCaptureFailed now
  inside : ∀ now, event.input ≠ .closeLocalMenu now

/-- What is known of the touch records after a run. -/
structure Heard (history : List SessionEvent) (face : Face) : Prop where
  inputs : touchEvents (face.journal.map (·.entry)) = touchInputs history
  pen : face.PenOnly
  mirror : WellTold (face.journal.map (·.entry)) →
    Mirror (face.journal.map (·.entry)) (Station.touch ⟨face, {}⟩) ∧
      Lawful (face.journal.map (·.entry)) (Station.touch ⟨face, {}⟩)

theorem touchEvents_append (entries older : List JournalEntry) :
    touchEvents (entries.reverse ++ older) =
      touchEvents older ++ (entries.filterMap (·.report)).flatten := by
  induction entries generalizing older with
  | nil => simp
  | cons entry entries induction =>
      rw [List.reverse_cons, List.append_assoc, induction, List.singleton_append,
        touchEvents, List.filterMap_cons]
      cases entry.report <;> simp

theorem flatten_heard (reports : List (List PhysicalPointerEvent)) :
    (reports.flatMap Session.heard).flatten = reports.flatten := by
  induction reports with
  | nil => rfl
  | cons report reports induction =>
      rw [List.flatMap_cons, List.flatten_append, induction, List.flatten_cons]
      cases report <;> simp [Session.heard]

theorem SessionEvent.Attended.reach {event : SessionEvent}
    (attended : event.Attended) (pen : event.before.face.PenOnly) :
    (event.before.opReach event.input).reports.flatten = event.touchInput ∧
      (event.before.opReach event.input).lost = false ∧
      ∀ record, (event.before.opReach event.input).pens record →
        record.device ≠ wire PointerDevice.touch := by
  unfold SessionEvent.touchInput
  cases isInput : event.input with
  | handle envelope now | handleDeferred envelope now =>
      simp only [Session.opReach, Session.envelopeReach]
      split
      · cases envelope.body with
        | none => exact ⟨rfl, rfl, fun _ missing => missing.elim⟩
        | some body =>
            cases body <;> exact ⟨rfl, rfl, fun _ missing => missing.elim⟩
      · exact ⟨rfl, rfl, fun _ missing => missing.elim⟩
  | penReports reports now =>
      exact ⟨rfl, rfl, attended.pens reports now isInput⟩
  | inputReports reports now =>
      exact ⟨flatten_heard reports, rfl, fun _ missing => missing.elim⟩
  | powerKeyPressed now =>
      refine ⟨rfl, rfl, ?_⟩
      rintro _ ⟨last, isLast, rfl⟩
      obtain ⟨screen, shown, isLast⟩ := Option.bind_eq_some_iff.mp isLast
      exact pen.last screen shown last isLast
  | inputCaptureFailed now => exact absurd isInput (attended.captured now)
  | closeLocalMenu now => exact absurd isInput (attended.inside now)
  | _ => exact ⟨rfl, rfl, fun _ missing => missing.elim⟩

theorem touch_firstFace (setup : SessionSetup) :
    Station.touch ⟨setup.firstFace, {}⟩ = .first := rfl

theorem penOnly_firstFace (setup : SessionSetup) :
    setup.firstFace.PenOnly where
  journal := fun _ missing => nomatch missing
  last := fun _ missing => nomatch missing

theorem Heard.first (setup : SessionSetup) : Heard [] setup.firstFace := by
  refine ⟨rfl, penOnly_firstFace setup, fun _ => ?_⟩
  rw [touch_firstFace]
  exact ⟨Mirror.first, Lawful.first⟩

theorem Heard.step {history : List SessionEvent} {event : SessionEvent}
    {left : Owed} (attended : event.Attended) (acts : Acts event left)
    (heard : Heard history event.before.face) :
    Heard (event :: history) event.after.face := by
  have within := acts.within attended.succeeds
  obtain ⟨reports, notLost, pens⟩ := attended.reach heard.pen
  have isLeft : left = {} := by
    obtain ⟨loose, rfl, whenLoose⟩ := acts.settled attended.succeeds
    cases loose with
    | false => rfl
    | true =>
        obtain ⟨now, closes⟩ := whenLoose rfl
        exact absurd closes (attended.inside now)
  subst isLeft
  have fine : ∀ entry ∈ event.written, entry.PenOnly := by
    intro entry member
    have allowed := within.allowed entry member
    cases entry with
    | penKept records =>
        exact fun record isRecord => pens record (allowed record isRecord)
    | _ => trivial
  have captured : ∀ entry ∈ event.written, entry ≠ .captureLost := by
    rintro _ member rfl
    have lost := within.allowed _ member
    change (event.before.opReach event.input).lost = true at lost
    rw [notLost] at lost
    cases lost
  have both : event.after.face.PenOnly ∧
      TouchSteps (Station.touch ⟨event.before.face, {}⟩) event.written
        (Station.touch ⟨event.after.face, {}⟩) :=
    acts.steps.touch heard.pen fine captured
  have journal := acts.steps.journal
  refine ⟨?_, both.1, fun well => ?_⟩
  · rw [journal, touchEvents_append, heard.inputs, within.reports, reports]
    rfl
  · rw [journal] at well ⊢
    obtain ⟨mirror, lawful⟩ := heard.mirror well.older
    exact both.2.keeps well mirror lawful

/-- The envelopes an open session returned are those it wrote down. -/
def AllReturned (history : List SessionEvent) : Prop :=
  ∀ event ∈ history, event.after.closed = false →
    bodies event.envelopes = event.written.filterMap (·.body)

/-- If the contacts of the panel go down, move and end one after the other, the
touch records of every attended run do so on each surface.  Contacts held while
the surface or the menu changed, or while five were down, are not forwarded
until the panel is clear; each one that was forwarded is cancelled once by a
chord, and a chord on a surface without a menu asks for one cleanup, unless its
contacts were held back before. -/
theorem touchLaw_of_run {setup : SessionSetup} {history : List SessionEvent}
    {final : Session} (run : SessionRun setup history final)
    (attended : ∀ event ∈ history, event.Attended)
    (series : ∀ contactId,
      ContactSeries (phasesOf contactId (touchInputs history))) :
    TouchLaw (entriesOf history) ∧ AllReturned history := by
  have heard : Heard history final.face :=
    (run.keeps Heard (.first setup)
      (fun _ _ _ attended acts heard => heard.step attended acts) attended).2
  have well : WellTold (final.face.journal.map (·.entry)) := by
    intro contactId
    rw [heard.inputs]
    exact series contactId
  refine ⟨?_, fun event member isOpen => ?_⟩
  · rw [← run.journal]
    exact (heard.mirror well).2.law rfl rfl
  · obtain ⟨left, acts⟩ := run.acts_of_mem member
    exact acts.returned (attended event member).succeeds isOpen

/-- A receiver with a touch panel. -/
def touchSetup : SessionSetup :=
  let plain := SessionSetup.gray 2 2 (fun _ => true) fun _ => some {}
  { plain with config := { plain.config with inputDevice := some "touch" } }

/-- A surface that wants touch input. -/
def touchOpen (messageId surfaceId : Nat) (now : Duration) : SessionOp :=
  grayMessage messageId (grayOpen surfaceId [wire InputCapability.touch]) now

def touchHello : SessionOp :=
  grayMessage 1 (.clientHello (grayHello [.byteCredits, .pointerInput])) 1

/-- A report about the given contacts. -/
def reportOf (phase : PhysicalPhase) (contacts : List Nat) :
    List PhysicalPointerEvent :=
  contacts.map fun contactId => ⟨phase, contactId, contactId, 0⟩

/-- The operation succeeded and is none that has to be looked at. -/
def attends (event : SessionEvent) : Bool :=
  event.output.isOk &&
    match event.input with
    | .penReports _ _ | .inputCaptureFailed _ | .closeLocalMenu _ => false
    | _ => true

theorem attended_of_attends {event : SessionEvent}
    (attends : attends event = true) : event.Attended := by
  unfold Receiver.attends at attends
  rw [Bool.and_eq_true] at attends
  obtain ⟨isOk, plain⟩ := attends
  refine ⟨?_, fun _ _ isInput => ?_, fun _ isInput => ?_, fun _ isInput => ?_⟩
  · unfold SessionEvent.Succeeds
    cases output : event.output with
    | ok envelopes => exact ⟨envelopes, rfl⟩
    | error err => simp [output, Except.isOk, Except.toBool] at isOk
  all_goals
    rw [isInput] at plain
    cases plain

/-- Only contacts that occur have to be looked at. -/
def allSeries (events : List PhysicalPointerEvent) : Bool :=
  events.all fun event =>
    (downFrom false (phasesOf event.contactId events)).isSome

theorem series_of_allSeries {events : List PhysicalPointerEvent}
    (checked : allSeries events = true) (contactId : Nat) :
    ContactSeries (phasesOf contactId events) := by
  apply contactSeries_of_follows
  by_cases occurs : ∃ event ∈ events, event.contactId = contactId
  · obtain ⟨event, member, rfl⟩ := occurs
    exact List.all_eq_true.mp checked event member
  · have none : phasesOf contactId events = [] := by
      refine List.filterMap_eq_nil_iff.mpr fun event member => if_neg fun same => ?_
      exact occurs ⟨event, member, same⟩
    rw [none]
    rfl

/-- Of five contacts the first is forwarded, so it is cancelled; one cleanup is
asked for, and the contact that stays is not forwarded. -/
theorem touchLaw_of_chord :
    ∃ setup history final, SessionRun setup history final ∧
      (∀ event ∈ history, event.Attended) ∧
      phasesIn 1 (sentTouches (entriesOf history)) = [.down, .cancel] ∧
      phasesIn 5 (sentTouches (entriesOf history)) = [] ∧
      (entriesOf history).countP (·.asksChord) = 1 ∧
      TouchLaw (entriesOf history) ∧ AllReturned history := by
  have ran := @SessionSetup.ran touchSetup
    [.inputReports [reportOf .down [2, 3, 4, 5], reportOf .move [1, 5],
        reportOf .up [1, 2, 3, 4], reportOf .move [5]] 4,
      .inputReports [reportOf .down [1]] 3, touchOpen 2 1 2, touchHello]
    (fun history _ => history.all attends && allSeries (touchInputs history) &&
      decide (phasesIn 1 (sentTouches (entriesOf history)) =
        [.down, .cancel]) &&
      decide (phasesIn 5 (sentTouches (entriesOf history)) = []) &&
      decide ((entriesOf history).countP (·.asksChord) = 1))
    (by decide +kernel)
  obtain ⟨history, final, run, checked⟩ := ran
  simp only [Bool.and_eq_true, List.all_eq_true, decide_eq_true_iff] at checked
  obtain ⟨⟨⟨⟨attended, series⟩, first⟩, last⟩, asked⟩ := checked
  have isAttended : ∀ event ∈ history, event.Attended := fun event member =>
    attended_of_attends (attended event member)
  have law := touchLaw_of_run run isAttended (series_of_allSeries series)
  exact ⟨_, history, final, run, isAttended, first, last, asked, law⟩

/-- Is the latest entry a chord on the free panel that asks for no cleanup? -/
def heldWithoutCleanup : List JournalEntry → Bool
  | .touched captured report result :: earlier =>
      fiveDown (.touched captured report result :: earlier) &&
      earlier.tails.all (fun before => !fiveDown before) &&
      (surfaceOpen earlier).isSome && !menuShown earlier &&
      decide (inputSince earlier ≤ captured) &&
      decide ((.touched captured report result :: earlier).countP
        (·.asksChord) = 0)
  | _ => false

/-- A contact is held while the surface is replaced, and four more go down: no
cleanup is asked for, although the surface is active and no menu is shown. -/
theorem no_cleanup_of_held :
    ∃ setup history final captured report result earlier,
      SessionRun setup history final ∧
      (∀ event ∈ history, event.Attended) ∧
      (∀ contactId, ContactSeries (phasesOf contactId (touchInputs history))) ∧
      entriesOf history = .touched captured report result :: earlier ∧
      fiveDown (.touched captured report result :: earlier) = true ∧
      (∀ before, before <:+ earlier → fiveDown before = false) ∧
      (surfaceOpen earlier).isSome = true ∧ menuShown earlier = false ∧
      inputSince earlier ≤ captured ∧
      (entriesOf history).countP (·.asksChord) = 0 := by
  have ran := @SessionSetup.ran touchSetup
    [.inputReports [reportOf .down [2, 3, 4, 5]] 5, touchOpen 3 2 4,
      .inputReports [reportOf .down [1]] 3, touchOpen 2 1 2, touchHello]
    (fun history _ => history.all attends && allSeries (touchInputs history) &&
      heldWithoutCleanup (entriesOf history))
    (by decide +kernel)
  obtain ⟨history, final, run, checked⟩ := ran
  rw [Bool.and_eq_true, Bool.and_eq_true] at checked
  obtain ⟨⟨attended, series⟩, checked⟩ := checked
  unfold heldWithoutCleanup at checked
  split at checked
  · rename_i captured report result earlier isEntries
    simp only [Bool.and_eq_true, List.all_eq_true, List.mem_tails,
      Bool.not_eq_true', decide_eq_true_iff] at checked
    obtain ⟨⟨⟨⟨⟨five, fresh⟩, isOpen⟩, hidden⟩, current⟩, none⟩ := checked
    exact ⟨_, history, final, captured, report, result, earlier, run,
      fun event member => attended_of_attends
        (List.all_eq_true.mp attended event member),
      series_of_allSeries series, isEntries, five, fresh, isOpen, hidden,
      current, by rw [isEntries]; exact none⟩
  · cases checked

end RmDisplay.Receiver
