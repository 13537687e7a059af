import RmDisplay.Receiver.HandleSteps

/-!
# Runs of a session

Every event of a run takes steps of the face, starting with nothing owed.  What
the steps keep holds in the whole run, and the entries of an event are what its
operation added to the journal.
-/

namespace RmDisplay.Receiver

open Foundation Protocol RmDisplay.Core Core.DisplayCore

/-- The face of a new session. -/
def SessionSetup.firstFace (setup : SessionSetup) : Face where
  panel := setup.panel
  screen := none
  limits := setup.config.limits
  touchGesture := {}
  menuVisible := false
  inputNotBefore := 0
  cleanupKept := false
  debtKept := {}
  byteCreditsEnabled := false
  established := false
  closed := false
  journal := []

theorem newSession_face {setup : SessionSetup} {first : Session}
    (fresh : setup.newSession = .ok first) : first.face = setup.firstFace := by
  obtain ⟨fallback, _, stored⟩ := Res.bind_eq_ok.mp fresh
  cases stored
  rfl

theorem SessionSetup.firstFace_sound (setup : SessionSetup) :
    setup.firstFace.Sound where
  coherent := fun _ missing => (nomatch missing)
  greeted := fun _ => rfl
  hidden := fun _ => Std.TreeMap.isEmpty_emptyc
  covered := fun shown => by cases shown

namespace SessionEvent

/-- The entries an event added to the journal, the earliest first. -/
def written (event : SessionEvent) : List JournalEntry :=
  ((event.after.journal.take
    (event.after.journal.length - event.before.journal.length)).map
      (·.entry)).reverse

/-- The envelopes an event returned; none if it failed. -/
def envelopes (event : SessionEvent) : List Envelope :=
  match event.output with
  | .ok envelopes => envelopes
  | .error _ => []

/-- The operation returned without an error. -/
def Succeeds (event : SessionEvent) : Prop :=
  ∃ envelopes, event.output = .ok envelopes

theorem written_of_steps {event : SessionEvent} {owed left : Owed}
    {entries : List JournalEntry}
    (steps : Steps ⟨event.before.face, owed⟩ entries
      ⟨event.after.face, left⟩) : event.written = entries := by
  have grows : event.after.journal.map (·.entry) =
      entries.reverse ++ event.before.journal.map (·.entry) := steps.journal
  have length := congrArg List.length grows
  simp only [List.length_map, List.length_append,
    List.length_reverse] at length
  unfold written
  rw [List.map_take, grows, length, Nat.add_sub_cancel,
    List.take_left' (List.length_reverse), List.reverse_reverse]

end SessionEvent

/-- An operation takes steps, and says what they are if it returns. -/
structure Acts (event : SessionEvent) (left : Owed) : Prop where
  stepped : sessionStep event.before event.input event.output event.after
  sound : event.before.face.Sound
  steps : Steps ⟨event.before.face, {}⟩ event.written ⟨event.after.face, left⟩
  replies : event.Succeeds → ∃ loose,
    Replies [] { loose } (event.before.opReach event.input) event.envelopes
        event.after left event.written ∧
      (loose = true → ∃ now, event.input = .closeLocalMenu now)

theorem acts_of_step {event : SessionEvent}
    (sound : event.before.face.Sound)
    (stepped : sessionStep event.before event.input event.output event.after) :
    ∃ left, Acts event left := by
  obtain ⟨left, entries, steps, replies⟩ :=
    Session.operation_does event.input sound _ _ stepped
  have isWritten := SessionEvent.written_of_steps steps
  subst isWritten
  refine ⟨left, stepped, sound, steps, ?_⟩
  rintro ⟨envelopes, returned⟩
  have same : event.envelopes = envelopes := by
    rw [SessionEvent.envelopes, returned]
  rw [same]
  exact replies envelopes returned

namespace Acts

variable {event : SessionEvent} {left : Owed}

theorem soundAfter (acts : Acts event left) : event.after.face.Sound :=
  acts.steps.keeps (fun station => station.face.Sound) FaceStep.sound acts.sound

theorem settled (acts : Acts event left) (succeeds : event.Succeeds) :
    ∃ loose, left = { loose } ∧
      (loose = true → ∃ now, event.input = .closeLocalMenu now) := by
  obtain ⟨loose, replies, whenLoose⟩ := acts.replies succeeds
  exact ⟨loose, replies.1, whenLoose⟩

theorem returned (acts : Acts event left) (succeeds : event.Succeeds)
    (isOpen : event.after.closed = false) :
    bodies event.envelopes = event.written.filterMap (·.body) := by
  obtain ⟨loose, replies, _⟩ := acts.replies succeeds
  exact replies.2.1 isOpen

theorem within (acts : Acts event left) (succeeds : event.Succeeds) :
    (event.before.opReach event.input).Holds event.written := by
  obtain ⟨loose, replies, _⟩ := acts.replies succeeds
  exact replies.2.2

end Acts

namespace SessionRun

variable {setup : SessionSetup} {history : List SessionEvent} {final : Session}

/-- What holds of the first face and is kept by every allowed event holds after
every run of allowed events. -/
theorem keeps {allowed : SessionEvent → Prop}
    (inv : List SessionEvent → Face → Prop) (atStart : inv [] setup.firstFace)
    (preserved : ∀ (history : List SessionEvent) (event : SessionEvent)
      (left : Owed), allowed event → Acts event left →
      inv history event.before.face → inv (event :: history) event.after.face)
    (run : SessionRun setup history final)
    (allAllowed : ∀ event ∈ history, allowed event) :
    final.face.Sound ∧ inv history final.face := by
  obtain ⟨first, fresh, run⟩ := run
  refine Run.keeps (fun history session => session.face.Sound ∧
    inv history session.face) ?_ ?_ run allAllowed
  · rw [newSession_face fresh]
    exact ⟨setup.firstFace_sound, atStart⟩
  · rintro history (event : SessionEvent) isAllowed stepped ⟨sound, holds⟩
    obtain ⟨left, acts⟩ := acts_of_step sound stepped
    exact ⟨acts.soundAfter, preserved history event left isAllowed acts holds⟩

/-- What every step keeps holds in every run. -/
theorem keepsAlways (inv : Face → Prop) (atStart : inv setup.firstFace)
    (preserved : ∀ {station next : Station} {entries : List JournalEntry},
      FaceStep station entries next → station.face.Sound →
      inv station.face → inv next.face)
    (run : SessionRun setup history final) : inv final.face := by
  refine (run.keeps (fun _ face => inv face) atStart ?_
    fun _ _ => True.intro).2
  intro history event left _ acts holds
  exact (acts.steps.keeps
    (fun station => station.face.Sound ∧ inv station.face)
    (fun step both => ⟨step.sound both.1, preserved step both.1 both.2⟩)
    ⟨acts.sound, holds⟩).2

theorem sound (run : SessionRun setup history final) : final.face.Sound :=
  run.keepsAlways Face.Sound setup.firstFace_sound
    fun step sound _ => step.sound sound

/-- A panel without failures stays so. -/
theorem reliable (run : SessionRun setup history final)
    (atStart : setup.panel.Reliable) : final.panel.Reliable := by
  refine run.keepsAlways (fun face => face.panel.Reliable) atStart ?_
  intro station next entries step _ holds
  cases step with
  | core _ _ step => exact step.panel_reliable holds
  | fallback _ _ _ _ => exact holds.afterSubmit _ _ _ _
  | @inked face screen next entry owed shown step =>
      cases entry with
      | none | some _ => exact holds
  | _ => exact holds

theorem before_of_split {newer older : List SessionEvent}
    {event : SessionEvent} (run : SessionRun setup history final)
    (split : history = newer ++ event :: older) :
    SessionRun setup older event.before := by
  obtain ⟨first, fresh, run⟩ := run
  exact ⟨first, fresh, (run.prefix_of_split split).1⟩

theorem after_of_split {newer older : List SessionEvent}
    {event : SessionEvent} (run : SessionRun setup history final)
    (split : history = newer ++ event :: older) :
    SessionRun setup (event :: older) event.after := by
  obtain ⟨first, fresh, run⟩ := run
  obtain ⟨earlier, stepped⟩ := run.prefix_of_split split
  exact ⟨first, fresh, .snoc earlier stepped⟩

theorem acts_of_mem (run : SessionRun setup history final)
    {event : SessionEvent} (member : event ∈ history) :
    ∃ left, Acts event left := by
  obtain ⟨newer, older, split⟩ := List.append_of_mem member
  have before := run.before_of_split split
  obtain ⟨first, fresh, steps⟩ := run
  exact acts_of_step before.sound (steps.step_of_mem member)

theorem open_of_mem (run : SessionRun setup history final)
    (isOpen : final.closed = false) {event : SessionEvent}
    (member : event ∈ history) : event.after.closed = false := by
  have holds := (run.keeps
    (fun history face => face.closed = false →
      ∀ event ∈ history, event.after.closed = false)
    (fun _ _ missing => nomatch missing) ?_
    fun _ _ => True.intro).2
  · exact holds isOpen event member
  · intro history event left _ acts holds isOpen other member
    rcases List.mem_cons.mp member with rfl | older
    · exact isOpen
    · exact holds (acts.steps.stillOpen isOpen) other older

end SessionRun

/-- All entries written in a run, the latest first. -/
def entriesOf (history : List SessionEvent) : List JournalEntry :=
  history.flatMap fun event => event.written.reverse

theorem SessionRun.journal {setup : SessionSetup}
    {history : List SessionEvent} {final : Session}
    (run : SessionRun setup history final) :
    final.journal.map (·.entry) = entriesOf history := by
  refine (run.keeps (fun history face =>
    face.journal.map (·.entry) = entriesOf history) rfl ?_
    fun _ _ => True.intro).2
  intro history event left _ acts holds
  rw [acts.steps.journal, holds]
  rfl

/-- The run on given operations, with what was computed about it. -/
theorem SessionSetup.ran {setup : SessionSetup} {ops : List SessionOp}
    {check : List SessionEvent → Session → Bool}
    (passes : (match setup.replay ops with
      | some (history, final) => check history final
      | none => false) = true) :
    ∃ history final, SessionRun setup history final ∧
      check history final = true := by
  split at passes
  · rename_i history final replayed
    exact ⟨history, final, run_of_replay replayed, passes⟩
  · cases passes

/-- Did every event return without an error? -/
def allSucceed (history : List SessionEvent) : Bool :=
  history.all fun event => event.output.isOk

theorem succeeds_of_allSucceed {history : List SessionEvent}
    (checked : allSucceed history = true) :
    ∀ event ∈ history, event.Succeeds := by
  intro event member
  have isOk := List.all_eq_true.mp checked event member
  unfold SessionEvent.Succeeds
  cases output : event.output with
  | ok envelopes => exact ⟨envelopes, rfl⟩
  | error err => simp [output, Except.isOk, Except.toBool] at isOk

end RmDisplay.Receiver
