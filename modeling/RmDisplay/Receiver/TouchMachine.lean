import RmDisplay.Receiver.TouchRecords

/-!
# A machine for touch records

`TouchStep` says what one entry of the journal means for the gesture
recognizer and for the events that wait to be sent.  The invariant `Mirror`
relates the state of the machine to the journal.
-/

namespace RmDisplay.Receiver

open Foundation Protocol RmDisplay.Core

/-- The part of a session that decides about touch records. -/
structure TouchView where
  key : Option (Nat × Nat)
  forwarding : Bool
  menu : Bool
  since : Duration
  gesture : FiveFingerCleanupGesture
  touches : List PhysicalPointerEvent
  chord : Bool
  loose : Bool

/-- How a report reaches the gesture recognizer. -/
inductive TouchView.Mode (view : TouchView) (captured : Duration) :
    Bool → Bool → Bool → Prop where
  | direct (hidden : view.menu = false) (current : view.since ≤ captured) :
      view.Mode captured view.forwarding view.key.isSome false
  | consumed (shown : view.menu = true) (current : view.since ≤ captured) :
      view.Mode captured false false false
  | stale (old : captured < view.since) : view.Mode captured false false true

/-- Nothing waits to be sent. -/
def TouchView.Told (view : TouchView) : Prop :=
  view.touches = [] ∧ view.chord = false ∧ view.loose = false

/-- An entry that says nothing about touch. -/
def JournalEntry.bystands : JournalEntry → Bool
  | .accepted .. | .refused _ | .boundary .. | .penKept _ | .penned ..
  | .inkCleared _ | .froze .. | .released => true
  | .asked cause => cause != .chord
  | .sent body pending => (JournalEntry.sent body pending).touches.isEmpty
  | .opened .. | .closed | .clocked _ | .touched .. | .detached | .menu _
  | .captureLost => false

/-- One entry and what it means. -/
inductive TouchStep : TouchView → JournalEntry → TouchView → Prop where
  | rests {view : TouchView} {entry : JournalEntry}
      (bystands : entry.bystands = true) : TouchStep view entry view
  | asked {view : TouchView} (due : view.chord = true) :
      TouchStep view (.asked .chord) { view with chord := false }
  | batched {view : TouchView} {batch : InputBatch}
      {pending : Option PendingPresentation}
      {events rest : List PhysicalPointerEvent}
      (due : view.touches = events ++ rest)
      (records : batch.records = events.map Session.pointerRecord)
      (named : view.key.isSome = true →
        view.key = some (batch.surfaceId, batch.generation)) :
      TouchStep view (.sent (.inputBatch batch) pending)
        { view with touches := rest }
  | opened {view : TouchView} (surfaceId generation : Nat) (ink : Planes)
      (stale forwarding : Bool) (told : view.Told) :
      TouchStep view (.opened surfaceId generation ink stale)
        { view with
          key := some (surfaceId, generation)
          forwarding
          menu := false
          gesture := view.gesture.surfaceTransition.2 }
  | closed {view : TouchView} (told : view.Told) :
      TouchStep view .closed
        { view with
          key := none
          forwarding := false
          menu := false
          gesture := view.gesture.surfaceTransition.2 }
  | clocked {view : TouchView} (now : Duration) :
      TouchStep view (.clocked now) { view with since := now }
  | touched {view : TouchView} {captured : Duration}
      {forwards cleans loosens : Bool} (report : List PhysicalPointerEvent)
      (mode : view.Mode captured forwards cleans loosens) (told : view.Told) :
      TouchStep view
        (.touched captured report
          (view.gesture.process report forwards cleans).1)
        { view with
          gesture := (view.gesture.process report forwards cleans).2
          touches :=
            (view.gesture.process report forwards cleans).1.cancelForwarded ++
              (view.gesture.process report forwards cleans).1.forward
          chord :=
            (view.gesture.process report forwards cleans).1.cleanupRequested
          loose := loosens }
  | detached {view : TouchView}
      (ending : ∀ event ∈ view.touches, event.phase = .cancel) :
      TouchStep view .detached
        { view with
          gesture := view.gesture.surfaceTransition.2
          touches := view.touches ++ view.gesture.surfaceTransition.1
          loose := false }
  | menu {view : TouchView} (visible : Bool)
      (free : view.gesture.forwarded.isEmpty = true)
      (told : view.touches = []) :
      TouchStep view (.menu visible)
        { view with
          menu := visible
          loose := view.loose || !visible && !view.gesture.settled }

/-- What the journal tells about the machine. -/
structure Mirror (entries : List JournalEntry) (view : TouchView) : Prop where
  key : surfaceOpen entries = view.key
  menu : menuShown entries = view.menu
  since : inputSince entries = view.since
  active : ∀ contactId,
    contactId ∈ view.gesture.active ↔ contactId ∈ onPanel entries
  blind : view.key = none → view.forwarding = false
  unheard : view.forwarding = false → view.gesture.forwarded.isEmpty = true
  covered : view.menu = true → view.gesture.forwarded.isEmpty = true
  suppressed : view.gesture.suppressUntilClear = true →
    heldBack entries = true
  held : heldBack entries = true → view.gesture.forwarded.isEmpty = true ∧
    (view.gesture.suppressUntilClear = true ∨ view.menu = true ∨
      view.loose = true) ∧ ∀ event ∈ view.touches, event.phase = .cancel
  /-- A contact that is neither held back nor hidden is forwarded. -/
  free : view.gesture.suppressUntilClear = false → view.loose = false →
    view.menu = false → view.forwarding = true → ∀ contactId,
    contactId ∈ view.gesture.forwarded ↔ contactId ∈ view.gesture.active
  told : ∀ contactId,
    downFrom false (phasesIn contactId (generationTouches entries) ++
      phasesOf contactId view.touches) =
    some (decide (contactId ∈ view.gesture.forwarded))
  open_ : view.touches ≠ [] → view.key.isSome = true

/-- The contacts of the panel are told in series. -/
def WellTold (entries : List JournalEntry) : Prop :=
  ∀ contactId, ContactSeries (phasesOf contactId (touchEvents entries))

theorem WellTold.earlier {entry : JournalEntry} {entries : List JournalEntry}
    (well : WellTold (entry :: entries)) : WellTold entries := by
  intro contactId
  have follows := (well contactId).follows
  rw [touchEvents, phasesOf_append] at follows
  exact contactSeries_of_follows (downFrom_front follows)

theorem WellTold.older {newer older : List JournalEntry}
    (well : WellTold (newer ++ older)) : WellTold older := by
  induction newer with
  | nil => exact well
  | cons last newer induction => exact induction well.earlier

/-- The machine before the first entry. -/
def TouchView.first : TouchView where
  key := none
  forwarding := false
  menu := false
  since := 0
  gesture := {}
  touches := []
  chord := false
  loose := false

theorem Mirror.first : Mirror [] .first where
  key := rfl
  menu := rfl
  since := rfl
  active := fun contactId => by simp [TouchView.first, onPanel, touchEvents,
    contactsDown]
  blind := fun _ => rfl
  unheard := fun _ => Std.TreeMap.isEmpty_emptyc
  covered := fun _ => Std.TreeMap.isEmpty_emptyc
  suppressed := nofun
  held := nofun
  free := fun _ _ _ _ contactId => Iff.rfl
  told := fun contactId => by
    simp [TouchView.first, generationTouches, phasesIn, phasesOf, downFrom]
  open_ := fun some => absurd rfl some

namespace Mirror

variable {entries : List JournalEntry} {view next : TouchView}
  {entry : JournalEntry}

theorem isEmpty_active (mirror : Mirror entries view) :
    view.gesture.active.isEmpty = (onPanel entries).isEmpty :=
  Contacts.isEmpty_eq mirror.active

theorem follow_active (mirror : Mirror entries view) {captured : Duration}
    {report : List PhysicalPointerEvent} {result : TouchGestureResult}
    (contactId : Nat) :
    contactId ∈ report.foldl Contacts.follow view.gesture.active ↔
      contactId ∈ onPanel (.touched captured report result :: entries) := by
  rw [onPanel, touchEvents, contactsDown_append]
  exact mem_follow_iff mirror.active report contactId

theorem unforwarded_transition (self : FiveFingerCleanupGesture)
    (contactId : Nat) : contactId ∉ self.surfaceTransition.2.forwarded :=
  Std.TreeMap.not_mem_of_isEmpty self.forwarded_surfaceTransition

theorem process_active (self : FiveFingerCleanupGesture)
    (report : List PhysicalPointerEvent) (forwards cleans : Bool) :
    (self.process report forwards cleans).2.active =
      report.foldl Contacts.follow self.active := by
  have processed := self.processed report forwards cleans
  generalize self.process report forwards cleans = outcome at processed ⊢
  cases processed <;> rfl

/-- The contacts of the recognizer are those the panel told of. -/
theorem heard (mirror : Mirror entries view) (well : WellTold entries)
    (contactId : Nat) :
    downFrom false (phasesOf contactId (touchEvents entries)) =
      some (decide (contactId ∈ view.gesture.active)) := by
  obtain ⟨now, follows⟩ :=
    Option.isSome_iff_exists.mp (well contactId).follows
  have unseen : decide (contactId ∈ ({} : Contacts)) = false := by simp
  rw [← unseen] at follows
  have isNow := downFrom_phasesOf follows
  rw [unseen] at follows
  have noneDown : ∀ other, other ∈ ({} : Contacts) ↔ other ∈ ([] : List Nat) := by
    simp
  rw [follows, isNow, decide_eq_decide.mpr]
  rw [mem_follow_iff noneDown, mirror.active]
  rfl

theorem smooth (mirror : Mirror entries view) (silent : entry.report = none)
    (stays : entry.moves = false) (unbroken : breaks entry entries = false)
    (sameKey : surfaceOpen (entry :: entries) = surfaceOpen entries)
    (sameMenu : menuShown (entry :: entries) = menuShown entries)
    {since : Duration} (isSince : inputSince (entry :: entries) = since)
    {touches : List PhysicalPointerEvent} {chord : Bool}
    (moved : ∀ contactId, phasesIn contactId entry.touches ++
      phasesOf contactId touches = phasesOf contactId view.touches)
    (fewer : touches ⊆ view.touches) :
    Mirror (entry :: entries) { view with since, touches, chord } where
  key := sameKey.trans mirror.key
  menu := sameMenu.trans mirror.menu
  since := isSince
  active := fun contactId => by
    rw [onPanel_silent silent]
    exact mirror.active contactId
  blind := mirror.blind
  unheard := mirror.unheard
  covered := mirror.covered
  suppressed := by
    rw [heldBack_silent silent unbroken]
    exact mirror.suppressed
  held := fun held => by
    rw [heldBack_silent silent unbroken] at held
    obtain ⟨none, reason, ending⟩ := mirror.held held
    exact ⟨none, reason, fun event member => ending event (fewer member)⟩
  free := mirror.free
  told := fun contactId => by
    have tells := mirror.told contactId
    rw [generationTouches, stays, if_neg Bool.false_ne_true, phasesIn_append,
      List.append_assoc, moved]
    exact tells
  open_ := fun waits => mirror.open_ fun none => by
    rw [none] at fewer
    exact waits (List.subset_nil.mp fewer)

theorem bystander (bystands : entry.bystands = true)
    (mirror : Mirror entries view) : Mirror (entry :: entries) view := by
  have quiet : entry.touches = [] := by
    cases entry with
    | sent body pending => exact List.isEmpty_iff.mp bystands
    | _ => rfl
  have moved : ∀ contactId, phasesIn contactId entry.touches ++
      phasesOf contactId view.touches = phasesOf contactId view.touches := by
    intro contactId
    rw [quiet]
    rfl
  cases entry with
  | opened _ _ _ _ | closed | clocked _ | touched _ _ _ | detached | menu _
  | captureLost => cases bystands
  | _ =>
      exact mirror.smooth rfl rfl rfl rfl rfl (by exact mirror.since) moved
        (List.Subset.refl _)

theorem suppressed_transition (mirror : Mirror entries view)
    (down : (onPanel entries).isEmpty = false) :
    view.gesture.surfaceTransition.2.suppressUntilClear = true := by
  change (view.gesture.suppressUntilClear || !view.gesture.active.isEmpty) =
    true
  rw [mirror.isEmpty_active, down, Bool.not_false, Bool.or_true]

theorem down_of_transition (mirror : Mirror entries view)
    (suppressed : view.gesture.surfaceTransition.2.suppressUntilClear = true) :
    (onPanel entries).isEmpty = false := by
  rw [← mirror.isEmpty_active]
  rcases Bool.or_eq_true_iff.mp suppressed with already | down
  · rw [mirror.isEmpty_active]
    exact onPanel_of_heldBack (mirror.suppressed already)
  · simpa using down

theorem free_transition {self : FiveFingerCleanupGesture}
    (free : self.surfaceTransition.2.suppressUntilClear = false)
    (contactId : Nat) :
    contactId ∈ self.surfaceTransition.2.forwarded ↔
      contactId ∈ self.surfaceTransition.2.active := by
  have clear : self.active.isEmpty = true := by
    obtain ⟨_, clear⟩ := Bool.or_eq_false_iff.mp free
    simpa using clear
  exact iff_of_false (unforwarded_transition _ contactId)
    (Std.TreeMap.not_mem_of_isEmpty clear)

/-- Another surface, or none, begins without touch records. -/
theorem moved (mirror : Mirror entries view) (silent : entry.report = none)
    (moves : entry.moves = true) (broken : breaks entry entries = true)
    (told : view.Told) {key : Option (Nat × Nat)} {forwarding : Bool}
    (isKey : surfaceOpen (entry :: entries) = key)
    (noMenu : menuShown (entry :: entries) = false)
    (sameSince : inputSince (entry :: entries) = inputSince entries)
    (blind : key = none → forwarding = false) :
    Mirror (entry :: entries)
      { view with
        key, forwarding
        menu := false
        gesture := view.gesture.surfaceTransition.2 } where
  key := isKey
  menu := noMenu
  since := sameSince.trans mirror.since
  active := fun contactId => by
    rw [onPanel_silent silent]
    exact mirror.active contactId
  blind := blind
  unheard := fun _ =>
    FiveFingerCleanupGesture.forwarded_surfaceTransition _
  covered := nofun
  suppressed := fun suppressed => by
    rw [heldBack, onPanel_silent silent, mirror.down_of_transition suppressed,
      broken]
    rfl
  held := fun held => by
    have down := onPanel_of_heldBack held
    rw [onPanel_silent silent] at down
    refine ⟨FiveFingerCleanupGesture.forwarded_surfaceTransition _,
      .inl (mirror.suppressed_transition down), fun event member => ?_⟩
    rw [show view.touches = [] from told.1] at member
    cases member
  free := fun free _ _ _ => free_transition free
  told := fun contactId => by
    rw [generationTouches, moves, if_pos rfl, show view.touches = [] from told.1,
      decide_eq_false (unforwarded_transition _ contactId)]
    rfl
  open_ := fun waits => absurd told.1 waits

theorem detached (mirror : Mirror entries view)
    (ending : ∀ event ∈ view.touches, event.phase = .cancel) :
    Mirror (.detached :: entries)
      { view with
        gesture := view.gesture.surfaceTransition.2
        touches := view.touches ++ view.gesture.surfaceTransition.1
        loose := false } where
  key := mirror.key
  menu := mirror.menu
  since := mirror.since
  active := fun contactId => by
    rw [onPanel_silent rfl]
    exact mirror.active contactId
  blind := mirror.blind
  unheard := fun _ =>
    FiveFingerCleanupGesture.forwarded_surfaceTransition _
  covered := fun _ =>
    FiveFingerCleanupGesture.forwarded_surfaceTransition _
  suppressed := fun suppressed => by
    rw [heldBack, onPanel_silent rfl, mirror.down_of_transition suppressed]
    rfl
  held := fun held => by
    have down := onPanel_of_heldBack held
    rw [onPanel_silent rfl] at down
    refine ⟨FiveFingerCleanupGesture.forwarded_surfaceTransition _,
      .inl (mirror.suppressed_transition down), fun event member => ?_⟩
    rcases List.mem_append.mp member with waited | cancelled
    · exact ending event waited
    · obtain ⟨_, _, rfl⟩ := List.mem_map.mp cancelled
      rfl
  free := fun free _ _ _ => free_transition free
  told := fun contactId => by
    have tells := mirror.told contactId
    change downFrom false
      (phasesIn contactId (generationTouches entries ++ []) ++ _) = _
    rw [List.append_nil, phasesOf_append, ← List.append_assoc, downFrom_append,
      tells, Option.bind_some,
      decide_eq_false (unforwarded_transition _ contactId),
      FiveFingerCleanupGesture.phasesOf_surfaceTransition]
    by_cases forwarded : contactId ∈ view.gesture.forwarded
    · rw [if_pos forwarded, decide_eq_true forwarded]
      rfl
    · rw [if_neg forwarded, decide_eq_false forwarded]
      rfl
  open_ := fun waits => by
    by_contra hidden
    have noKey : view.key = none := by simpa using hidden
    have none := mirror.unheard (mirror.blind noKey)
    refine waits ?_
    rw [FiveFingerCleanupGesture.cancels_nothing none, List.append_nil]
    by_contra waited
    exact hidden (mirror.open_ waited)

theorem menuChanged (mirror : Mirror entries view) (visible : Bool)
    (free : view.gesture.forwarded.isEmpty = true)
    (told : view.touches = []) :
    Mirror (.menu visible :: entries)
      { view with
        menu := visible
        loose := view.loose || !visible && !view.gesture.settled } where
  key := mirror.key
  menu := rfl
  since := mirror.since
  active := fun contactId => by
    rw [onPanel_silent rfl]
    exact mirror.active contactId
  blind := mirror.blind
  unheard := mirror.unheard
  covered := fun _ => free
  suppressed := fun suppressed => by
    rw [heldBack, onPanel_silent rfl,
      onPanel_of_heldBack (mirror.suppressed suppressed)]
    rfl
  held := fun held => by
    have down := onPanel_of_heldBack held
    rw [onPanel_silent rfl, ← mirror.isEmpty_active] at down
    refine ⟨free, ?_, fun event member => ?_⟩
    · unfold FiveFingerCleanupGesture.settled
      cases view.gesture.suppressUntilClear <;> cases visible <;> simp [down]
    · rw [show view.touches = [] from told] at member
      cases member
  free := fun unsuppressed tight hidden _ contactId => by
    change visible = false at hidden
    have settled : view.gesture.settled = true := by
      simpa [hidden] using (Bool.or_eq_false_iff.mp tight).2
    have clear : view.gesture.active.isEmpty = true := by
      rw [FiveFingerCleanupGesture.settled,
        show view.gesture.suppressUntilClear = false from unsuppressed] at settled
      exact settled
    exact iff_of_false (Std.TreeMap.not_mem_of_isEmpty free)
      (Std.TreeMap.not_mem_of_isEmpty clear)
  told := fun contactId => by
    have tells := mirror.told contactId
    change downFrom false
      (phasesIn contactId (generationTouches entries ++ []) ++ _) = _
    rwa [List.append_nil]
  open_ := mirror.open_

variable {captured : Duration} {report : List PhysicalPointerEvent}
  {result : TouchGestureResult} {forwards cleans loosens : Bool}

/-- What a report and its outcome have to agree on. -/
structure Outcome (entries : List JournalEntry) (view : TouchView)
    (captured : Duration) (report : List PhysicalPointerEvent)
    (loosens : Bool) (result : TouchGestureResult)
    (after : FiveFingerCleanupGesture) : Prop where
  unheard : view.forwarding = false → after.forwarded.isEmpty = true
  covered : view.menu = true → after.forwarded.isEmpty = true
  suppressed : after.suppressUntilClear = true →
    heldBack (.touched captured report result :: entries) = true
  held : heldBack (.touched captured report result :: entries) = true →
    after.forwarded.isEmpty = true ∧
      (after.suppressUntilClear = true ∨ view.menu = true ∨ loosens = true) ∧
      ∀ event ∈ result.cancelForwarded ++ result.forward,
        event.phase = .cancel
  free : after.suppressUntilClear = false → loosens = false →
    view.menu = false → view.forwarding = true → ∀ contactId,
    contactId ∈ after.forwarded ↔ contactId ∈ after.active
  told : ∀ contactId,
    downFrom (decide (contactId ∈ view.gesture.forwarded))
      (phasesOf contactId (result.cancelForwarded ++ result.forward)) =
    some (decide (contactId ∈ after.forwarded))
  open_ : result.cancelForwarded ++ result.forward ≠ [] →
    view.key.isSome = true

theorem direct_of_forwards (mode : view.Mode captured forwards cleans loosens)
    (shown : forwards = true) :
    view.menu = false ∧ view.forwarding = true ∧ loosens = false := by
  cases mode with
  | direct hidden _ => exact ⟨hidden, shown, rfl⟩
  | consumed _ _ | stale _ => cases shown

theorem heldBack_touched :
    heldBack (.touched captured report result :: entries) =
      (!(onPanel (.touched captured report result :: entries)).isEmpty &&
        (fiveDown (.touched captured report result :: entries) ||
          heldBack entries)) := rfl

theorem fiveDown_iff (mirror : Mirror entries view) :
    fiveDown (.touched captured report result :: entries) = true ↔
      5 ≤ (report.foldl Contacts.follow view.gesture.active).size := by
  rw [fiveDown, decide_eq_true_iff, Contacts.size_eq (nodup_contactsDown _)
    mirror.follow_active]
  rfl

theorem onPanel_touched (mirror : Mirror entries view) :
    (onPanel (.touched captured report result :: entries)).isEmpty =
      (report.foldl Contacts.follow view.gesture.active).isEmpty :=
  (Contacts.isEmpty_eq mirror.follow_active).symm

/-- A report that is neither a chord nor suppressed is held back only by the
menu. -/
theorem covered_of_held (mirror : Mirror entries view) (told : view.Told)
    (free : view.gesture.suppressUntilClear = false)
    (held : heldBack entries = true) : view.menu = true := by
  rcases (mirror.held held).2.1 with suppressed | shown | loose
  · rw [free] at suppressed
    cases suppressed
  · exact shown
  · rw [told.2.2] at loose
    cases loose

theorem unforwarded (mirror : Mirror entries view)
    (suppressed : view.gesture.suppressUntilClear = true) (contactId : Nat) :
    contactId ∉ view.gesture.forwarded :=
  Std.TreeMap.not_mem_of_isEmpty (mirror.held (mirror.suppressed suppressed)).1

theorem fiveDown_of_few (mirror : Mirror entries view)
    (few : (report.foldl Contacts.follow view.gesture.active).size < 5) :
    fiveDown (.touched captured report result :: entries) = false := by
  rw [Bool.eq_false_iff, Ne, mirror.fiveDown_iff]
  omega

theorem outcome_released (mirror : Mirror entries view)
    (suppressed : view.gesture.suppressUntilClear = true)
    (clear : (report.foldl Contacts.follow view.gesture.active).isEmpty = true) :
    Outcome entries view captured report loosens {}
      { active := report.foldl Contacts.follow view.gesture.active
        forwarded := {}
        suppressUntilClear := false } where
  unheard := fun _ => Std.TreeMap.isEmpty_emptyc
  covered := fun _ => Std.TreeMap.isEmpty_emptyc
  suppressed := fun impossible => by cases impossible
  held := fun held => by
    have down := onPanel_of_heldBack held
    rw [mirror.onPanel_touched, clear] at down
    cases down
  free := fun _ _ _ _ contactId =>
    iff_of_false (by simp) (Std.TreeMap.not_mem_of_isEmpty clear)
  told := fun contactId => by
    rw [decide_eq_false (mirror.unforwarded suppressed contactId)]
    simp [phasesOf, downFrom]
  open_ := fun waits => absurd rfl waits

theorem outcome_suppressed (mirror : Mirror entries view)
    (suppressed : view.gesture.suppressUntilClear = true)
    (down : (report.foldl Contacts.follow view.gesture.active).isEmpty = false) :
    Outcome entries view captured report loosens {}
      { view.gesture with
        active := report.foldl Contacts.follow view.gesture.active } where
  unheard := mirror.unheard
  covered := mirror.covered
  suppressed := fun _ => by
    rw [heldBack_touched, mirror.onPanel_touched, down,
      mirror.suppressed suppressed, Bool.or_true]
    rfl
  held := fun _ =>
    ⟨(mirror.held (mirror.suppressed suppressed)).1, .inl suppressed,
      List.forall_mem_nil _⟩
  free := fun free => by
    rw [show view.gesture.suppressUntilClear = false from free] at suppressed
    cases suppressed
  told := fun contactId => rfl
  open_ := fun waits => absurd rfl waits

theorem outcome_chord (mirror : Mirror entries view)
    (five : 5 ≤ (report.foldl Contacts.follow view.gesture.active).size) :
    Outcome entries view captured report loosens
      { cancelForwarded :=
          FiveFingerCleanupGesture.cancelledContacts view.gesture.forwarded
            (report.foldl Contacts.follow view.gesture.active)
        cleanupRequested := cleans }
      { active := report.foldl Contacts.follow view.gesture.active
        forwarded := {}
        suppressUntilClear := true } where
  unheard := fun _ => Std.TreeMap.isEmpty_emptyc
  covered := fun _ => Std.TreeMap.isEmpty_emptyc
  suppressed := fun _ => by
    have down : (report.foldl Contacts.follow
        view.gesture.active).isEmpty = false := by
      rw [Std.TreeMap.isEmpty_eq_size_eq_zero, beq_eq_false_iff_ne]
      omega
    rw [heldBack_touched, mirror.onPanel_touched, down,
      mirror.fiveDown_iff.mpr five]
    rfl
  held := fun _ => by
    refine ⟨Std.TreeMap.isEmpty_emptyc, .inl rfl, fun event member => ?_⟩
    rw [List.append_nil] at member
    obtain ⟨_, _, rfl⟩ := List.mem_map.mp member
    rfl
  free := fun impossible => by cases impossible
  told := fun contactId => by
    rw [List.append_nil, FiveFingerCleanupGesture.phasesOf_cancelledContacts,
      decide_eq_false (p := contactId ∈ ({} : Contacts)) (by simp)]
    by_cases forwarded : contactId ∈ view.gesture.forwarded
    · rw [if_pos forwarded, decide_eq_true forwarded]
      rfl
    · rw [if_neg forwarded, decide_eq_false forwarded]
      rfl
  open_ := fun waits => by
    by_contra hidden
    have noKey : view.key = none := by simpa using hidden
    have none := mirror.unheard (mirror.blind noKey)
    refine waits ?_
    rw [List.append_nil]
    exact FiveFingerCleanupGesture.cancelledContacts_nothing none

theorem outcome_unseen (mirror : Mirror entries view)
    (mode : view.Mode captured false cleans loosens) (told : view.Told)
    (free : view.gesture.suppressUntilClear = false)
    (few : (report.foldl Contacts.follow view.gesture.active).size < 5) :
    Outcome entries view captured report loosens {}
      { view.gesture with
        active := report.foldl Contacts.follow view.gesture.active } where
  unheard := mirror.unheard
  covered := mirror.covered
  suppressed := fun suppressed => by
    rw [show view.gesture.suppressUntilClear = true from suppressed] at free
    cases free
  held := fun held => by
    rw [heldBack_touched, mirror.fiveDown_of_few few, Bool.false_or,
      Bool.and_eq_true] at held
    exact ⟨(mirror.held held.2).1,
      .inr (.inl (mirror.covered_of_held told free held.2)),
      List.forall_mem_nil _⟩
  free := fun _ tight uncovered heard => by
    generalize hidden : false = forwards at mode
    cases mode with
    | direct _ _ =>
        rw [heard] at hidden
        cases hidden
    | consumed shown _ =>
        rw [uncovered] at shown
        cases shown
    | stale _ => cases tight
  told := fun contactId => rfl
  open_ := fun waits => absurd rfl waits

theorem outcome_forwarded (mirror : Mirror entries view)
    (mode : view.Mode captured true cleans loosens) (told : view.Told)
    (well : WellTold (.touched captured report result :: entries))
    (free : view.gesture.suppressUntilClear = false)
    (few : (report.foldl Contacts.follow view.gesture.active).size < 5) :
    Outcome entries view captured report loosens { forward := report }
      { view.gesture with
        active := report.foldl Contacts.follow view.gesture.active
        forwarded := report.foldl Contacts.follow view.gesture.forwarded } := by
  obtain ⟨uncovered, heard, tight⟩ := direct_of_forwards mode rfl
  have notHeld : heldBack entries = false := by
    by_contra held
    have shown := mirror.covered_of_held told free (by simpa using held)
    rw [uncovered] at shown
    cases shown
  have same := mirror.free free told.2.2 uncovered heard
  exact {
    unheard := fun blind => by
      rw [heard] at blind
      cases blind
    covered := fun shown => by
      rw [uncovered] at shown
      cases shown
    suppressed := fun suppressed => by
      rw [show view.gesture.suppressUntilClear = true from suppressed] at free
      cases free
    held := fun held => by
      rw [heldBack_touched, mirror.fiveDown_of_few few, notHeld, Bool.or_false,
        Bool.and_false] at held
      cases held
    free := fun _ _ _ _ contactId => by
      rw [mem_follow_iff fun other => (same other).trans (mirror.active other),
        mem_follow_iff mirror.active]
    told := fun contactId => by
      have follows := (well contactId).follows
      rw [touchEvents, phasesOf_append, downFrom_append,
        mirror.heard well.earlier, Option.bind_some,
        ← decide_eq_decide.mpr (same contactId)] at follows
      obtain ⟨now, reached⟩ := Option.isSome_iff_exists.mp follows
      change downFrom _ (phasesOf contactId report) = some now at reached
      have isNow := downFrom_phasesOf reached
      rw [isNow] at reached
      exact reached
    open_ := fun _ => by
      by_contra hidden
      have noKey : view.key = none := by simpa using hidden
      rw [mirror.blind noKey] at heard
      cases heard }

/-- Every report and its outcome agree. -/
theorem outcome (mirror : Mirror entries view)
    (mode : view.Mode captured forwards cleans loosens) (told : view.Told)
    (well : WellTold (.touched captured report result :: entries)) :
    Outcome entries view captured report loosens
      (view.gesture.process report forwards cleans).1
      (view.gesture.process report forwards cleans).2 := by
  have processed := view.gesture.processed report forwards cleans
  generalize view.gesture.process report forwards cleans = done at processed ⊢
  cases processed with
  | released suppressed clear => exact mirror.outcome_released suppressed clear
  | suppressed suppressed down => exact mirror.outcome_suppressed suppressed down
  | chord _ five => exact mirror.outcome_chord five
  | unseen free few hidden =>
      subst hidden
      exact mirror.outcome_unseen mode told free few
  | forwarded free few shown =>
      subst shown
      exact mirror.outcome_forwarded mode told well free few

theorem touched (mirror : Mirror entries view)
    (mode : view.Mode captured forwards cleans loosens) (told : view.Told)
    (well : WellTold (.touched captured report
      (view.gesture.process report forwards cleans).1 :: entries)) :
    Mirror (.touched captured report
        (view.gesture.process report forwards cleans).1 :: entries)
      { view with
        gesture := (view.gesture.process report forwards cleans).2
        touches :=
          (view.gesture.process report forwards cleans).1.cancelForwarded ++
            (view.gesture.process report forwards cleans).1.forward
        chord := (view.gesture.process report forwards cleans).1.cleanupRequested
        loose := loosens } where
  key := mirror.key
  menu := mirror.menu
  since := mirror.since
  active := fun contactId => by
    rw [process_active]
    exact mirror.follow_active contactId
  blind := mirror.blind
  unheard := (mirror.outcome mode told well).unheard
  covered := (mirror.outcome mode told well).covered
  suppressed := (mirror.outcome mode told well).suppressed
  held := (mirror.outcome mode told well).held
  free := (mirror.outcome mode told well).free
  told := fun contactId => by
    have tells := mirror.told contactId
    rw [show view.touches = [] from told.1] at tells
    change downFrom false (phasesIn contactId (generationTouches entries) ++ [])
      = _ at tells
    rw [List.append_nil] at tells
    change downFrom false
      (phasesIn contactId (generationTouches entries ++ []) ++ _) = _
    rw [List.append_nil, downFrom_append, tells]
    exact (mirror.outcome mode told well).told contactId
  open_ := (mirror.outcome mode told well).open_

/-- Every step keeps what the journal tells about the machine. -/
theorem step (mirror : Mirror entries view) (step : TouchStep view entry next)
    (well : WellTold (entry :: entries)) : Mirror (entry :: entries) next := by
  cases step with
  | rests bystands => exact mirror.bystander bystands
  | asked due =>
      exact mirror.smooth rfl rfl rfl rfl rfl (by exact mirror.since)
        (fun _ => rfl) (List.Subset.refl _)
  | batched due records _ =>
      refine mirror.smooth rfl rfl rfl rfl rfl (by exact mirror.since)
        (fun contactId => ?_) ?_
      · rw [due, phasesOf_append, JournalEntry.touches, records,
          touchRecords_map, phasesIn_map]
      · rw [due]
        exact List.subset_append_right _ _
  | opened _ _ _ _ _ told =>
      exact mirror.moved rfl rfl rfl told rfl rfl rfl nofun
  | closed told =>
      exact mirror.moved rfl rfl rfl told rfl rfl rfl fun _ => rfl
  | clocked now =>
      exact mirror.smooth rfl rfl rfl rfl rfl rfl (fun _ => rfl)
        (List.Subset.refl _)
  | touched report mode told => exact mirror.touched mode told well
  | detached ending => exact mirror.detached ending
  | menu visible free told => exact mirror.menuChanged visible free told

/-- While contacts are held back nothing new waits to be sent. -/
theorem quiet (mirror : Mirror entries view) (step : TouchStep view entry next)
    (held : heldBack entries = true) :
    (∀ contactId, phasesIn contactId entry.touches ++
      phasesOf contactId next.touches = phasesOf contactId view.touches) ∧
    entry.asksChord.toNat + next.chord.toNat = view.chord.toNat := by
  have none := (mirror.held held).1
  cases step with
  | rests bystands =>
      have silent : entry.touches = [] ∧ entry.asksChord = false := by
        cases entry with
        | sent body pending => exact ⟨List.isEmpty_iff.mp bystands, rfl⟩
        | asked cause =>
            cases cause with
            | chord => cases bystands
            | request | profile | offscreen | idle => exact ⟨rfl, rfl⟩
        | _ => exact ⟨rfl, rfl⟩
      rw [silent.1, silent.2]
      exact ⟨fun _ => rfl, Nat.zero_add _⟩
  | asked due => exact ⟨fun _ => rfl, by rw [due]; rfl⟩
  | batched due records _ =>
      refine ⟨fun contactId => ?_, Nat.zero_add _⟩
      rw [due, phasesOf_append, JournalEntry.touches, records,
        touchRecords_map, phasesIn_map]
  | opened _ _ _ _ _ _ | closed _ | clocked _ | menu _ _ _ =>
      exact ⟨fun _ => rfl, Nat.zero_add _⟩
  | detached _ =>
      refine ⟨fun contactId => ?_, Nat.zero_add _⟩
      rw [FiveFingerCleanupGesture.cancels_nothing none, List.append_nil]
      rfl
  | @touched _ forwards cleans loosens report mode told =>
      have processed := view.gesture.processed report forwards cleans
      generalize view.gesture.process report forwards cleans = done
        at processed ⊢
      rw [show view.touches = [] from told.1,
        show view.chord = false from told.2.1]
      cases processed with
      | released _ _ | suppressed _ _ | unseen _ _ _ => exact ⟨fun _ => rfl, rfl⟩
      | chord free _ =>
          have covered := mirror.covered_of_held told free held
          refine ⟨fun contactId => ?_, ?_⟩
          · rw [FiveFingerCleanupGesture.cancelledContacts_nothing none]
            rfl
          · cases mode with
            | direct hidden _ =>
                rw [hidden] at covered
                cases covered
            | consumed _ _ | stale _ => rfl
      | forwarded free _ shown =>
          have covered := mirror.covered_of_held told free held
          rw [(direct_of_forwards mode shown).1] at covered
          cases covered

theorem forwardedTo_iff (mirror : Mirror entries view)
    (told : view.touches = []) (contactId : Nat) :
    forwardedTo contactId entries = true ↔
      contactId ∈ view.gesture.forwarded := by
  have tells := mirror.told contactId
  rw [told] at tells
  change downFrom false (phasesIn contactId (generationTouches entries) ++ []) =
    _ at tells
  rw [List.append_nil] at tells
  rw [← decide_eq_true_iff (p := contactId ∈ view.gesture.forwarded),
    downFrom_last tells]
  unfold forwardedTo
  split <;> simp_all

/-- A chord cancels what was forwarded, and asks for a cleanup if it may. -/
theorem chord (mirror : Mirror entries view)
    (mode : view.Mode captured forwards cleans loosens) (told : view.Told)
    (five : fiveDown (.touched captured report
      (view.gesture.process report forwards cleans).1 :: entries) = true) :
    (∀ contactId, phasesOf contactId
        ((view.gesture.process report forwards cleans).1.cancelForwarded ++
          (view.gesture.process report forwards cleans).1.forward) =
      if forwardedTo contactId entries then [.cancel] else []) ∧
    (view.gesture.process report forwards cleans).1.cleanupRequested =
      recognizes captured entries := by
  rw [mirror.fiveDown_iff] at five
  have processed := view.gesture.processed report forwards cleans
  generalize view.gesture.process report forwards cleans = done at processed ⊢
  have seen (contactId : Nat) := mirror.forwardedTo_iff told.1 contactId
  have held (suppressed : view.gesture.suppressUntilClear = true) :
      (∀ contactId, forwardedTo contactId entries = false) ∧
        recognizes captured entries = false := by
    have isHeld := mirror.suppressed suppressed
    refine ⟨fun contactId => ?_, ?_⟩
    · rw [Bool.eq_false_iff, Ne, seen]
      exact Std.TreeMap.not_mem_of_isEmpty (mirror.held isHeld).1
    · rw [recognizes, isHeld, Bool.not_true, Bool.and_false]
  cases processed with
  | released suppressed _ | suppressed suppressed _ =>
      obtain ⟨unseen, unrecognized⟩ := held suppressed
      refine ⟨fun contactId => ?_, unrecognized.symm⟩
      rw [unseen, if_neg Bool.false_ne_true]
      rfl
  | unseen _ few _ | forwarded _ few _ => exact absurd five (by omega)
  | chord free _ =>
      refine ⟨fun contactId => ?_, ?_⟩
      · rw [List.append_nil,
          FiveFingerCleanupGesture.phasesOf_cancelledContacts]
        simp only [seen contactId]
      · rw [recognizes, mirror.key, mirror.menu, mirror.since]
        cases isHeld : heldBack entries with
        | true =>
            rw [Bool.not_true, Bool.and_false]
            have covered := mirror.covered_of_held told free isHeld
            cases mode with
            | direct hidden _ =>
                rw [hidden] at covered
                cases covered
            | consumed _ _ | stale _ => rfl
        | false =>
            cases mode with
            | direct hidden current => simp [hidden, current]
            | consumed shown _ => simp [shown]
            | stale old => simp [Nat.not_le_of_lt old]

end Mirror

/-- Steps with their entries, the earliest first. -/
inductive TouchSteps : TouchView → List JournalEntry → TouchView → Prop where
  | nil {view : TouchView} : TouchSteps view [] view
  | cons {before middle after : TouchView} {entry : JournalEntry}
      {entries : List JournalEntry} (step : TouchStep before entry middle)
      (rest : TouchSteps middle entries after) :
      TouchSteps before (entry :: entries) after

theorem TouchSteps.single {before after : TouchView} {entry : JournalEntry}
    (step : TouchStep before entry after) : TouchSteps before [entry] after :=
  .cons step .nil

theorem TouchSteps.append {before middle after : TouchView}
    {entries more : List JournalEntry}
    (first : TouchSteps before entries middle)
    (second : TouchSteps middle more after) :
    TouchSteps before (entries ++ more) after := by
  induction first with
  | nil => exact second
  | cons step _ induction => exact .cons step (induction second)

/-- What was sent so far, and what waits, is as the law says. -/
structure Lawful (entries : List JournalEntry) (view : TouchView) : Prop where
  events : ∀ entry ∈ entries, ∀ record ∈ entry.touches,
    ∃ event, record = Session.pointerRecord event
  named : ∀ batch pending earlier,
    .sent (.inputBatch batch) pending :: earlier <:+ entries →
    touchRecords batch.records ≠ [] →
    surfaceOpen earlier = some (batch.surfaceId, batch.generation)
  series : ∀ earlier, earlier <:+ entries → ∀ contactId,
    ContactSeries (phasesIn contactId (generationTouches earlier))
  held : ∀ entry earlier, entry :: earlier <:+ entries →
    heldBack earlier = true → ∀ record ∈ entry.touches,
    touchPhase record = .cancel
  chords : ∀ newer captured report result earlier,
    entries = newer ++ .touched captured report result :: earlier →
    fiveDown (.touched captured report result :: earlier) = true →
    HeldSince newer (.touched captured report result :: earlier) →
    (∀ contactId, phasesIn contactId (sentTouches newer) ++
        phasesOf contactId view.touches =
      if forwardedTo contactId earlier then [.cancel] else []) ∧
    newer.countP (·.asksChord) + view.chord.toNat =
      (recognizes captured earlier).toNat

namespace Lawful

variable {entries : List JournalEntry} {view next : TouchView}
  {entry : JournalEntry}

theorem first : Lawful [] .first where
  events := List.forall_mem_nil _
  named := fun _ _ _ isSuffix => by simp at isSuffix
  series := fun earlier isSuffix contactId => by
    rw [List.suffix_nil.mp isSuffix]
    exact contactSeries_of_follows rfl
  held := fun _ _ isSuffix => by simp at isSuffix
  chords := fun newer _ _ _ _ split => by simp at split

theorem touches_of_step (step : TouchStep view entry next) :
    entry.touches = [] ∨ ∃ batch pending events rest,
      entry = .sent (.inputBatch batch) pending ∧
      view.touches = events ++ rest ∧
      batch.records = events.map Session.pointerRecord ∧
      (view.key.isSome = true →
        view.key = some (batch.surfaceId, batch.generation)) := by
  cases step with
  | rests bystands =>
      cases entry with
      | sent _ _ => exact .inl (List.isEmpty_iff.mp bystands)
      | _ => exact .inl rfl
  | batched due records named =>
      exact .inr ⟨_, _, _, _, rfl, due, records, named⟩
  | _ => exact .inl rfl

/-- Only a report begins what a chord does. -/
theorem step (lawful : Lawful entries view) (mirror : Mirror entries view)
    (step : TouchStep view entry next) (after : Mirror (entry :: entries) next) :
    Lawful (entry :: entries) next := by
  have touches := touches_of_step step
  refine ⟨?_, ?_, ?_, ?_, ?_⟩
  · refine List.forall_mem_cons.mpr ⟨fun record member => ?_, lawful.events⟩
    rcases touches with none | ⟨batch, _, events, _, rfl, _, records, _⟩
    · rw [none] at member
      cases member
    · rw [JournalEntry.touches, records, touchRecords_map] at member
      obtain ⟨event, _, same⟩ := List.mem_map.mp member
      exact ⟨event, same.symm⟩
  · intro batch pending earlier isSuffix sends
    rcases List.suffix_cons_iff.mp isSuffix with same | older
    · obtain ⟨rfl, rfl⟩ := List.cons.inj same
      rcases touches with none | ⟨_, _, events, rest, same, due, records, named⟩
      · exact absurd none sends
      · cases same
        rw [mirror.key]
        refine named (mirror.open_ fun none => sends ?_)
        rw [none] at due
        rw [records, (List.append_eq_nil_iff.mp due.symm).1]
        rfl
    · exact lawful.named batch pending earlier older sends
  · intro earlier isSuffix contactId
    rcases List.suffix_cons_iff.mp isSuffix with rfl | older
    · have follows := congrArg Option.isSome (after.told contactId)
      exact contactSeries_of_follows (downFrom_front follows)
    · exact lawful.series earlier older contactId
  · intro other earlier isSuffix isHeld record member
    rcases List.suffix_cons_iff.mp isSuffix with same | older
    · obtain ⟨rfl, rfl⟩ := List.cons.inj same
      rcases touches with none | ⟨_, _, events, rest, rfl, due, records, _⟩
      · rw [none] at member
        cases member
      · rw [JournalEntry.touches, records, touchRecords_map] at member
        obtain ⟨event, isEvent, rfl⟩ := List.mem_map.mp member
        rw [touchPhase_pointerRecord]
        apply (mirror.held isHeld).2.2
        rw [due]
        exact List.mem_append_left _ isEvent
    · exact lawful.held other earlier older isHeld record member
  · intro newer captured report result earlier split five since
    cases newer with
    | nil =>
        obtain ⟨rfl, rfl⟩ := List.cons.inj split
        cases step with
        | rests bystands => cases bystands
        | touched _ mode told =>
            obtain ⟨cancels, cleans⟩ := mirror.chord mode told five
            refine ⟨cancels, ?_⟩
            rw [← cleans]
            exact Nat.zero_add _
    | cons last newer =>
        obtain ⟨rfl, rfl⟩ := List.cons.inj split
        obtain ⟨cancels, cleans⟩ :=
          lawful.chords newer captured report result earlier rfl five
            since.earlier
        have broken : breaks (.touched captured report result) earlier = true :=
          five
        have isHeld := heldBack_of_since broken since.earlier
        obtain ⟨sameTouches, sameChord⟩ := mirror.quiet step isHeld
        refine ⟨fun contactId => ?_, ?_⟩
        · rw [sentTouches, phasesIn_append, List.append_assoc, sameTouches]
          exact cancels contactId
        · rw [List.countP_cons, ← cleans, ← sameChord]
          cases entry.asksChord
          · simp
          · simp; omega

theorem law (lawful : Lawful entries view) (touches : view.touches = [])
    (chord : view.chord = false) : TouchLaw entries where
  events := lawful.events
  named := lawful.named
  series := lawful.series
  held := lawful.held
  cancels := fun newer captured report result earlier split five since
      contactId => by
    have cancels := (lawful.chords newer captured report result earlier split
      five since).1 contactId
    rw [touches] at cancels
    rw [← cancels]
    exact (List.append_nil _).symm
  cleanups := fun newer captured report result earlier split five since => by
    have cleans := (lawful.chords newer captured report result earlier split
      five since).2
    rw [chord] at cleans
    exact cleans

end Lawful

/-- Sequences of steps keep the mirror and the law. -/
theorem TouchSteps.keeps {before after : TouchView}
    {entries older : List JournalEntry} (steps : TouchSteps before entries after)
    (well : WellTold (entries.reverse ++ older)) (mirror : Mirror older before)
    (lawful : Lawful older before) :
    Mirror (entries.reverse ++ older) after ∧
      Lawful (entries.reverse ++ older) after := by
  induction steps generalizing older with
  | nil => exact ⟨mirror, lawful⟩
  | @cons _ _ _ entry entries step _ induction =>
      rw [List.reverse_cons, List.append_assoc] at well ⊢
      have next := mirror.step step well.older
      exact induction well next (lawful.step mirror step next)

end RmDisplay.Receiver
