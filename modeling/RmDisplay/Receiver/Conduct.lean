import RmDisplay.Receiver.Face

/-!
# Procedures as steps of the face

`Does` relates a procedure of a session to the steps its face takes, whatever
the procedure returns; a postcondition speaks about what it returns without an
error.  The rules follow the way procedures are put together.
-/

namespace RmDisplay.Receiver

open Foundation Protocol RmDisplay.Core Core.DisplayCore

/-- What may be said of a procedure that returned. -/
abbrev Post (α : Type) := α → Session → Owed → List JournalEntry → Prop

/-- Started in `before`, with something still to be reported, the procedure
takes steps. -/
def Does {α : Type} (procedure : SessionProc α) (before : Session)
    (owed : Owed) (post : Post α) : Prop :=
  before.face.Sound → ∀ output after, procedure.Runs before output after →
    ∃ left entries, Steps ⟨before.face, owed⟩ entries ⟨after.face, left⟩ ∧
      ∀ value, output = .ok value → post value after left entries

namespace Does

variable {α β : Type} {before : Session} {owed : Owed}
  {post : Post α} {later : Post β}

theorem pure {value : α} (holds : post value before owed []) :
    Does (pure value) before owed post := by
  intro _ output after runs
  obtain ⟨rfl, rfl⟩ := Proc.runs_pure.mp runs
  exact ⟨owed, [], .nil, fun _ same => by cases same; exact holds⟩

theorem throw {err : SessionError} :
    Does (Proc.throw err : SessionProc α) before owed post := by
  intro _ output after runs
  obtain ⟨rfl, rfl⟩ := Proc.runs_throw.mp runs
  exact ⟨owed, [], .nil, fun _ same => by cases same⟩

theorem panic : Does (Proc.panic : SessionProc α) before owed post := by
  intro _ output after runs
  cases output <;> cases runs

theorem bind {first : SessionProc α} {next : α → SessionProc β}
    (middle : Post α) (does : Does first before owed middle)
    (rest : ∀ value after left entries, middle value after left entries →
      Steps ⟨before.face, owed⟩ entries ⟨after.face, left⟩ →
      Does (next value) after left fun given final remaining more =>
        later given final remaining (entries ++ more)) :
    Does (first >>= next) before owed later := by
  intro sound output after runs
  rcases Proc.runs_bind.mp runs with ⟨value, between, ran, runs⟩ |
    ⟨err, rfl, failed⟩
  · obtain ⟨left, entries, steps, holds⟩ := does sound _ _ ran
    obtain ⟨remaining, more, further, holds⟩ :=
      rest value between left entries (holds value rfl) steps
        (steps.keeps (fun station => station.face.Sound) FaceStep.sound sound)
        _ _ runs
    exact ⟨remaining, entries ++ more, steps.append further, holds⟩
  · obtain ⟨left, entries, steps, _⟩ := does sound _ _ failed
    exact ⟨left, entries, steps, fun _ same => by cases same⟩

theorem mono {procedure : SessionProc α} {wider : Post α}
    (does : Does procedure before owed post)
    (widens : ∀ value after left entries,
      Steps ⟨before.face, owed⟩ entries ⟨after.face, left⟩ →
      post value after left entries → wider value after left entries) :
    Does procedure before owed wider := by
  intro sound output after runs
  obtain ⟨left, entries, steps, holds⟩ := does sound _ _ runs
  exact ⟨left, entries, steps,
    fun value same => widens _ _ _ _ steps (holds value same)⟩

/-- A procedure without a state. -/
theorem ofRes {ε : Type} {convert : ε → SessionError} {result : Res ε α}
    {next : α → SessionProc β}
    (rest : ∀ value, result = .ok value → Does (next value) before owed later) :
    Does (Proc.ofRes convert result >>= next) before owed later := by
  intro sound output after runs
  rcases Proc.runs_bind.mp runs with ⟨value, between, ran, further⟩ |
    ⟨err, rfl, failed⟩
  · obtain ⟨rfl, ⟨_, returned, same⟩ | ⟨_, _, impossible⟩⟩ :=
      Proc.runs_ofRes.mp ran
    · cases same
      exact rest value returned sound _ _ further
    · cases impossible
  · obtain ⟨rfl, _⟩ := Proc.runs_ofRes.mp failed
    exact ⟨owed, [], .nil, fun _ same => by cases same⟩

/-- A procedure whose outcome is known. -/
theorem computes {procedure : SessionProc α} {value : α} {after : Session}
    (left : Owed) (entries : List JournalEntry)
    (returned : procedure.Runs before (.ok value) after)
    (steps : Steps ⟨before.face, owed⟩ entries ⟨after.face, left⟩)
    (holds : post value after left entries) :
    Does procedure before owed post := by
  intro _ output final runs
  unfold Proc.Runs at runs returned
  rw [returned] at runs
  cases output with
  | ok given =>
      cases runs
      exact ⟨left, entries, steps, fun _ same => by cases same; exact holds⟩
  | error err => cases runs

theorem given {value : α} {next : α → SessionProc β}
    (rest : Does (next value) before owed later) :
    Does (Pure.pure value >>= next) before owed later := rest

theorem sound {procedure : SessionProc α}
    (does : before.face.Sound → Does procedure before owed post) :
    Does procedure before owed post :=
  fun isSound => does isSound isSound

theorem get {next : Session → SessionProc β}
    (rest : Does (next before) before owed later) :
    Does (Proc.get >>= next) before owed later := rest

/-- A change of the session that is a sequence of steps. -/
theorem change {next : Unit → SessionProc β} {change : Session → Session}
    (left : Owed) (entries : List JournalEntry)
    (steps : Steps ⟨before.face, owed⟩ entries ⟨(change before).face, left⟩)
    (rest : Does (next ()) (change before) left
      fun given final remaining more =>
        later given final remaining (entries ++ more)) :
    Does (Proc.modify change >>= next) before owed later := by
  intro sound output after runs
  obtain ⟨remaining, more, further, holds⟩ :=
    rest (steps.keeps (fun station => station.face.Sound) FaceStep.sound sound)
      output after runs
  exact ⟨remaining, entries ++ more, steps.append further, holds⟩

/-- A change of the session that its face does not show. -/
theorem quiet {next : Unit → SessionProc β} {change : Session → Session}
    (same : (change before).face = before.face)
    (rest : Does (next ()) (change before) owed later) :
    Does (Proc.modify change >>= next) before owed later := by
  refine Does.change owed [] ?_ ?_
  · rw [same]
    exact .nil
  · simpa using rest

/-- A procedure whose value is returned as a list. -/
theorem one {procedure : SessionProc Envelope} {given : Post (List Envelope)}
    (does : Does procedure before owed fun envelope => given [envelope]) :
    Does (do return [← procedure]) before owed given := by
  refine Does.bind _ does ?_
  intro envelope after left entries holds _
  refine Does.pure ?_
  rw [List.append_nil]
  exact holds

theorem setSteps {next : Unit → SessionProc β} {session : Session}
    (left : Owed) (entries : List JournalEntry)
    (steps : Steps ⟨before.face, owed⟩ entries ⟨session.face, left⟩)
    (rest : Does (next ()) session left fun given final remaining more =>
      later given final remaining (entries ++ more)) :
    Does (Proc.set session >>= next) before owed later := by
  change Does (Proc.modify (fun _ => session) >>= next) before owed later
  exact Does.change left entries steps rest

theorem setQuiet {next : Unit → SessionProc β} {session : Session}
    (same : session.face = before.face)
    (rest : Does (next ()) session owed later) :
    Does (Proc.set session >>= next) before owed later := by
  change Does (Proc.modify (fun _ => session) >>= next) before owed later
  exact Does.quiet same rest

theorem lastChange {change : Session → Session} {post : Post Unit}
    (left : Owed) (entries : List JournalEntry)
    (steps : Steps ⟨before.face, owed⟩ entries ⟨(change before).face, left⟩)
    (holds : post () (change before) left entries) :
    Does (Proc.modify change) before owed post := by
  intro _ output after runs
  obtain ⟨rfl, rfl⟩ := Proc.runs_modify.mp runs
  exact ⟨left, entries, steps, fun _ _ => holds⟩

theorem lastQuiet {change : Session → Session} {post : Post Unit}
    (same : (change before).face = before.face)
    (holds : post () (change before) owed []) :
    Does (Proc.modify change) before owed post := by
  refine Does.lastChange owed [] ?_ holds
  rw [same]
  exact .nil

end Does

/-- The bodies of envelopes. -/
def bodies (envelopes : List Envelope) : List Body :=
  envelopes.filterMap (·.body)

@[simp] theorem bodies_append {first rest : List Envelope} :
    bodies (first ++ rest) = bodies first ++ bodies rest :=
  List.filterMap_append

namespace JournalEntry

/-- The envelope an entry is about. -/
def body : JournalEntry → Option Body
  | .sent body _ => some body
  | _ => none

/-- The frame an entry is about. -/
def frame : JournalEntry → Option Frame
  | .accepted frame _ | .refused frame => some frame
  | _ => none

/-- The touch report an entry is about. -/
def report : JournalEntry → Option (List PhysicalPointerEvent)
  | .touched _ report _ => some report
  | _ => none

end JournalEntry

/-- How far a procedure reaches: the frames and the touch reports it handles,
when it makes ink start anew, and what else it may do. -/
structure Reach where
  frames : List Frame := []
  reports : List (List PhysicalPointerEvent) := []
  bounds : List Duration := []
  gestures : Bool := false
  menu : Bool := false
  moves : Bool := false
  lost : Bool := false
  pens : PointerRecord → Prop := fun _ => False

namespace Reach

def Allows (reach : Reach) : JournalEntry → Prop
  | .sent .. | .asked _ | .boundary .. | .inkCleared _ | .penned ..
  | .accepted .. | .refused _ | .froze .. | .released => True
  | .touched .. | .detached => reach.gestures = true
  | .menu _ => reach.menu = true
  | .opened .. | .closed | .clocked _ => reach.moves = true
  | .captureLost => reach.lost = true
  | .penKept records => ∀ record ∈ records, reach.pens record

/-- Entries that stay within reach. -/
structure Holds (reach : Reach) (entries : List JournalEntry) : Prop where
  frames : entries.filterMap (·.frame) = reach.frames
  reports : entries.filterMap (·.report) = reach.reports
  bounds : ∀ since ∈ reach.bounds, ∃ paused, .boundary since paused ∈ entries
  allowed : ∀ entry ∈ entries, reach.Allows entry

/-- Nothing has to be handled. -/
def Idle (reach : Reach) : Prop :=
  reach.frames = [] ∧ reach.reports = [] ∧ reach.bounds = []

/-- Nothing is done that the wider reach does not allow. -/
structure Within (narrow wide : Reach) : Prop where
  gestures : narrow.gestures = true → wide.gestures = true
  menu : narrow.menu = true → wide.menu = true
  moves : narrow.moves = true → wide.moves = true
  lost : narrow.lost = true → wide.lost = true
  pens : ∀ record, narrow.pens record → wide.pens record

/-- The reach of two parts in a row. -/
structure Joins (first rest whole : Reach) : Prop where
  frames : first.frames ++ rest.frames = whole.frames
  reports : first.reports ++ rest.reports = whole.reports
  bounds : whole.bounds ⊆ first.bounds ++ rest.bounds
  first : first.Within whole
  rest : rest.Within whole

variable {narrow wide first rest whole : Reach}
  {entries more : List JournalEntry}

theorem Within.refl (reach : Reach) : reach.Within reach :=
  ⟨id, id, id, id, fun _ => id⟩

theorem Within.plain (wide : Reach) : Reach.Within {} wide := by
  constructor <;> simp

theorem Within.allows (within : narrow.Within wide) {entry : JournalEntry}
    (allowed : narrow.Allows entry) : wide.Allows entry := by
  cases entry with
  | touched _ _ _ | detached => exact within.gestures allowed
  | menu _ => exact within.menu allowed
  | opened _ _ _ _ | closed | clocked _ => exact within.moves allowed
  | captureLost => exact within.lost allowed
  | penKept _ => exact fun record member => within.pens _ (allowed record member)
  | _ => trivial

namespace Joins

theorem before (within : narrow.Within wide) (idle : narrow.Idle) :
    Joins narrow wide wide where
  frames := by rw [idle.1, List.nil_append]
  reports := by rw [idle.2.1, List.nil_append]
  bounds := List.subset_append_right _ _
  first := within
  rest := .refl wide

theorem after (within : narrow.Within wide) (idle : narrow.Idle) :
    Joins wide narrow wide where
  frames := by rw [idle.1, List.append_nil]
  reports := by rw [idle.2.1, List.append_nil]
  bounds := List.subset_append_left _ _
  first := .refl wide
  rest := within

theorem plain (whole : Reach) : Joins {} whole whole :=
  before (.plain whole) ⟨rfl, rfl, rfl⟩

theorem plainAfter (whole : Reach) : Joins whole {} whole :=
  after (.plain whole) ⟨rfl, rfl, rfl⟩

end Joins

theorem Holds.nil (idle : narrow.Idle) : narrow.Holds [] where
  frames := idle.1.symm
  reports := idle.2.1.symm
  bounds := fun _ member => by
    rw [idle.2.2] at member
    cases member
  allowed := fun _ missing => nomatch missing

theorem Holds.append (joins : Joins first rest whole)
    (earlier : first.Holds entries) (later : rest.Holds more) :
    whole.Holds (entries ++ more) where
  frames := by
    rw [List.filterMap_append, earlier.frames, later.frames, joins.frames]
  reports := by
    rw [List.filterMap_append, earlier.reports, later.reports, joins.reports]
  bounds := fun since member => by
    rcases List.mem_append.mp (joins.bounds member) with old | new
    · obtain ⟨paused, written⟩ := earlier.bounds since old
      exact ⟨paused, List.mem_append_left _ written⟩
    · obtain ⟨paused, written⟩ := later.bounds since new
      exact ⟨paused, List.mem_append_right _ written⟩
  allowed := fun entry member => by
    rcases List.mem_append.mp member with old | new
    · exact joins.first.allows (earlier.allowed entry old)
    · exact joins.rest.allows (later.allowed entry new)

/-- One entry that is about no frame and no report. -/
theorem Holds.single {entry : JournalEntry} (noFrame : entry.frame = none)
    (noReport : entry.report = none) (allowed : narrow.Allows entry)
    (idle : narrow.Idle) : narrow.Holds [entry] where
  frames := by simp [noFrame, idle.1]
  reports := by simp [noReport, idle.2.1]
  bounds := fun _ member => by
    rw [idle.2.2] at member
    cases member
  allowed := fun _ member => by
    rw [List.mem_singleton.mp member]
    exact allowed

/-- Ink starts anew. -/
theorem Holds.boundary (since : Duration) (paused : Bool) :
    Reach.Holds { bounds := [since] } [.boundary since paused] where
  frames := rfl
  reports := rfl
  bounds := fun _ member => by
    rw [List.mem_singleton.mp member]
    exact ⟨paused, List.mem_singleton_self _⟩
  allowed := fun _ member => by
    rw [List.mem_singleton.mp member]
    trivial

end Reach

/-- The procedure leaves the given things to be reported and stays in reach.
Unless it closes the session it returns envelopes that say what was said before
and then all that it sent. -/
def Replies (said : List Body) (left : Owed) (reach : Reach) :
    Post (List Envelope) := fun envelopes after remaining entries =>
  remaining = left ∧
    (after.face.closed = false →
      bodies envelopes = said ++ entries.filterMap (·.body)) ∧
    reach.Holds entries

/-- The face is the same but for the journal. -/
def Unchanged (before after : Session) : Prop :=
  after.face = { before.face with journal := after.face.journal }

theorem Unchanged.refl (session : Session) : Unchanged session session := rfl

theorem Unchanged.trans {before middle after : Session}
    (first : Unchanged before middle) (second : Unchanged middle after) :
    Unchanged before after := by
  unfold Unchanged at first second ⊢
  rw [first] at second
  exact second

/-- Envelopes were built and nothing else was done. -/
def Tells (before : Session) (left : Owed) : Post (List Envelope) :=
  fun envelopes after remaining entries => Unchanged before after ∧
    Replies [] left {} envelopes after remaining entries

/-- One envelope was built and nothing else was done. -/
def Sends (before : Session) (left : Owed) : Post Envelope :=
  fun envelope => Tells before left [envelope]

namespace Does

variable {α : Type} {before : Session} {owed middle left : Owed}
  {narrower later reach : Reach} {said : List Body}

theorem reply {envelopes : List Envelope} (same : bodies envelopes = said)
    (idle : reach.Idle) :
    Does (Pure.pure envelopes) before owed (Replies said owed reach) := by
  refine Does.pure ⟨rfl, fun _ => ?_, Reach.Holds.nil idle⟩
  rw [same, List.filterMap_nil, List.append_nil]

/-- Part of a procedure that writes entries but builds no envelope. -/
theorem silently {first : SessionProc α} {next : α → SessionProc (List Envelope)}
    (post : Post α) (does : Does first before owed post)
    (joins : Reach.Joins narrower later reach)
    (rest : ∀ value after remaining entries,
      post value after remaining entries →
      Steps ⟨before.face, owed⟩ entries ⟨after.face, remaining⟩ →
      entries.filterMap (·.body) = [] ∧ narrower.Holds entries ∧
        Does (next value) after remaining (Replies said left later)) :
    Does (first >>= next) before owed (Replies said left reach) := by
  refine Does.bind post does ?_
  intro value after remaining entries holds steps
  obtain ⟨silent, within, does⟩ := rest _ _ _ _ holds steps
  refine does.mono ?_
  rintro envelopes final last more - ⟨isLast, same, further⟩
  refine ⟨isLast, fun isOpen => ?_, within.append joins further⟩
  rw [same isOpen, List.filterMap_append, silent, List.nil_append]

/-- A change of the session that builds no envelope. -/
theorem step {next : Unit → SessionProc (List Envelope)}
    {change : Session → Session} {entries : List JournalEntry}
    (steps : Steps ⟨before.face, owed⟩ entries
      ⟨(change before).face, middle⟩)
    (silent : entries.filterMap (·.body) = [])
    (joins : Reach.Joins narrower later reach)
    (within : narrower.Holds entries)
    (rest : Does (next ()) (change before) middle (Replies said left later)) :
    Does (Proc.modify change >>= next) before owed
      (Replies said left reach) := by
  refine Does.change middle entries steps (rest.mono ?_)
  rintro envelopes final last more - ⟨isLast, same, further⟩
  refine ⟨isLast, fun isOpen => ?_, within.append joins further⟩
  rw [same isOpen, List.filterMap_append, silent, List.nil_append]

theorem setStep {next : Unit → SessionProc (List Envelope)}
    {session : Session} {entries : List JournalEntry}
    (steps : Steps ⟨before.face, owed⟩ entries ⟨session.face, middle⟩)
    (silent : entries.filterMap (·.body) = [])
    (joins : Reach.Joins narrower later reach)
    (within : narrower.Holds entries)
    (rest : Does (next ()) session middle (Replies said left later)) :
    Does (Proc.set session >>= next) before owed (Replies said left reach) := by
  change Does (Proc.modify (fun _ => session) >>= next) before owed _
  exact Does.step steps silent joins within rest

theorem stepQuietly {next : Unit → SessionProc (List Envelope)}
    {change : Session → Session}
    (steps : Steps ⟨before.face, owed⟩ [] ⟨(change before).face, middle⟩)
    (rest : Does (next ()) (change before) middle (Replies said left reach)) :
    Does (Proc.modify change >>= next) before owed (Replies said left reach) :=
  Does.step steps rfl (.plain reach) (.nil ⟨rfl, rfl, rfl⟩) rest

/-- A procedure whose envelopes are part of the answer. -/
theorem call {first : SessionProc (List Envelope)}
    {next : List Envelope → SessionProc (List Envelope)}
    (does : Does first before owed (Replies [] middle narrower))
    (joins : Reach.Joins narrower later reach)
    (rest : ∀ envelopes after entries,
      Steps ⟨before.face, owed⟩ entries ⟨after.face, middle⟩ →
      narrower.Holds entries →
      Does (next envelopes) after middle
        (Replies (said ++ bodies envelopes) left later)) :
    Does (first >>= next) before owed (Replies said left reach) := by
  refine Does.bind _ does ?_
  rintro envelopes after remaining entries ⟨rfl, same, within⟩ steps
  refine (rest envelopes after entries steps within).mono ?_
  rintro given final last more further ⟨isLast, sameGiven, holds⟩
  refine ⟨isLast, fun isOpen => ?_, within.append joins holds⟩
  rw [sameGiven isOpen, same (further.stillOpen isOpen),
    List.filterMap_append, List.nil_append, List.append_assoc]

/-- Envelopes about the face as it is. -/
theorem tell {first : SessionProc (List Envelope)}
    {next : List Envelope → SessionProc (List Envelope)}
    (does : Does first before owed (Tells before middle))
    (rest : ∀ envelopes after, Unchanged before after →
      Does (next envelopes) after middle
        (Replies (said ++ bodies envelopes) left reach)) :
    Does (first >>= next) before owed (Replies said left reach) := by
  refine Does.bind _ does ?_
  rintro envelopes after remaining entries ⟨unchanged, rfl, same, within⟩ _
  refine (rest envelopes after unchanged).mono ?_
  rintro given final last more further ⟨isLast, sameGiven, holds⟩
  refine ⟨isLast, fun isOpen => ?_, within.append (.plain reach) holds⟩
  rw [sameGiven isOpen, same (further.stillOpen isOpen),
    List.filterMap_append, List.nil_append, List.append_assoc]

/-- One envelope about the face as it is. -/
theorem send {first : SessionProc Envelope}
    {next : Envelope → SessionProc (List Envelope)}
    (does : Does first before owed (Sends before middle))
    (rest : ∀ envelope after, Unchanged before after →
      Does (next envelope) after middle
        (Replies (said ++ bodies [envelope]) left reach)) :
    Does (first >>= next) before owed (Replies said left reach) := by
  refine Does.bind _ does ?_
  rintro envelope after remaining entries ⟨unchanged, rfl, same, within⟩ _
  refine (rest envelope after unchanged).mono ?_
  rintro given final last more further ⟨isLast, sameGiven, holds⟩
  refine ⟨isLast, fun isOpen => ?_, within.append (.plain reach) holds⟩
  rw [sameGiven isOpen, same (further.stillOpen isOpen),
    List.filterMap_append, List.nil_append, List.append_assoc]

/-- A loop whose turns reply and keep an invariant. -/
theorem gather {procedure : α → SessionProc (List Envelope)}
    {items : List α} (shared : Reach)
    (piece : α → List (List PhysicalPointerEvent)) (inv : Session → Prop)
    (quiet : shared.frames = [] ∧ shared.bounds = [])
    (each : ∀ item ∈ items, ∀ session, inv session →
      Does (procedure item) session owed
        (Replies [] owed { shared with reports := piece item }))
    (keeps : ∀ item (session after : Session) entries, inv session →
      Steps ⟨session.face, owed⟩ entries ⟨after.face, owed⟩ →
      Reach.Holds { shared with reports := piece item } entries → inv after)
    (start : inv before) :
    Does (Proc.gather procedure items) before owed
      (Replies [] owed { shared with reports := items.flatMap piece }) := by
  induction items generalizing before with
  | nil => exact Does.reply rfl ⟨quiet.1, rfl, quiet.2⟩
  | cons item items induction =>
      have joins : Reach.Joins { shared with reports := piece item }
          { shared with reports := items.flatMap piece }
          { shared with reports := (item :: items).flatMap piece } := by
        refine ⟨?_, ?_, ?_, ⟨id, id, id, id, fun _ => id⟩,
          ⟨id, id, id, id, fun _ => id⟩⟩
        · simp [quiet.1]
        · simp
        · simp [quiet.2]
      refine Does.call (each item List.mem_cons_self before start) joins ?_
      intro first after entries steps within
      have loops := induction (fun other member =>
        each other (List.mem_cons_of_mem _ member))
        (keeps item before after entries start steps within)
      refine Does.call loops (Reach.Joins.plainAfter _) ?_
      intro others final more _ _
      exact Does.reply (by simp) ⟨rfl, rfl, rfl⟩

theorem replies {procedure : SessionProc (List Envelope)}
    (does : Does procedure before owed (Tells before left)) :
    Does procedure before owed (Replies [] left {}) :=
  does.mono fun _ _ _ _ _ told => told.2

/-- A procedure with a narrower reach. -/
theorem widen {procedure : SessionProc (List Envelope)}
    (does : Does procedure before owed (Replies said left narrower))
    (within : narrower.Within reach)
    (same : narrower.frames = reach.frames ∧
      narrower.reports = reach.reports ∧ narrower.bounds = reach.bounds) :
    Does procedure before owed (Replies said left reach) := by
  refine does.mono ?_
  rintro envelopes final last entries - ⟨isLast, isSaid, holds⟩
  refine ⟨isLast, isSaid, holds.frames.trans same.1,
    holds.reports.trans same.2.1, ?_, ?_⟩
  · rw [← same.2.2]
    exact holds.bounds
  · exact fun entry member => within.allows (holds.allowed entry member)

end Does

namespace Owed

/-- The core gave terminals. -/
def gives (self : Owed) (terminals : List TerminalFrame) : Owed :=
  { self with terminals := self.terminals ++ terminals }

/-- A cleanup was asked for. -/
def asked (self : Owed) (cause : CleanupCause) (asks : Bool) : Owed :=
  { self with chord := self.chord && !(asks && cause == .chord) }

@[simp] theorem gives_nil {owed : Owed} : owed.gives [] = owed := by
  rw [gives, List.append_nil]

@[simp] theorem gives_gives {owed : Owed}
    {terminals more : List TerminalFrame} :
    (owed.gives terminals).gives more = owed.gives (terminals ++ more) := by
  simp [gives]

@[simp] theorem asked_not {owed : Owed} {cause : CleanupCause} :
    owed.asked cause false = owed := by
  simp [asked]

end Owed

namespace Session

section

variable {before : Session} {owed left : Owed} {entries : List JournalEntry}

theorem pendingFrame_face (session : Session) :
    session.face.pendingFrame = session.pendingFrame := by
  simp only [Face.pendingFrame, pendingFrame, face]
  cases session.surface <;> rfl

theorem credits_face (session : Session) :
    session.face.credits = session.credits := by
  rw [Face.credits, credits, pendingFrame_face, pendingFrame]
  simp only [face]
  cases session.surface <;> rfl

theorem byteCredits_face (session : Session) :
    session.face.byteCredits = session.byteCredits := by
  have sameBytes : (session.face.pendingFrame.map (·.decodedBytes)).getD 0 =
      (session.surface.map (·.core.pendingBytes)).getD 0 := by
    rw [pendingFrame_face, pendingFrame]
    cases session.surface <;> rfl
  have isEnabled : session.face.byteCreditsEnabled =
      session.byteCreditsEnabled := rfl
  rw [Face.byteCredits, byteCredits, sameBytes, isEnabled]
  cases session.byteCreditsEnabled <;> rfl

theorem inkFrozen_face (session : Session) :
    session.face.inkFrozen = session.surface.any (·.inkFrozen) := by
  simp only [Face.inkFrozen, face]
  cases session.surface <;> rfl

theorem presentedFrameId_face (session : Session) :
    session.face.presentedFrameId =
      (session.surface.map (·.core.presentedFrameId)).getD 0 := by
  simp only [Face.presentedFrameId, face]
  cases session.surface <;> rfl

theorem surfaceIds_face (session : Session) :
    session.surfaceIds = (session.face.surfaceKey,
      session.face.logicalFrameId, session.face.presentedFrameId) := by
  simp only [surfaceIds, Face.surfaceKey, Face.logicalFrameId,
    Face.presentedFrameId, face]
  cases session.surface <;> rfl

theorem wrap_does {body : Body}
    (step : FaceStep ⟨before.face, owed⟩
      [.sent body before.face.pendingFrame]
      ⟨before.face.note (.sent body before.face.pendingFrame), left⟩) :
    Does (wrap body) before owed (Sends before left) := by
  refine Does.get (Does.setSteps left
    [.sent body before.face.pendingFrame] ?_ ?_)
  · rw [pendingFrame_face] at step ⊢
    exact .single step
  · refine Does.pure ⟨rfl, rfl, fun _ => rfl, ?_⟩
    rw [List.append_nil]
    exact Reach.Holds.single rfl rfl trivial ⟨rfl, rfl, rfl⟩

theorem wrap_sends {body : Body} (truthful : Truthful before.face body) :
    Does (wrap body) before owed (Sends before owed) :=
  wrap_does (.sent truthful)

theorem terminalResult_does {terminal : TerminalFrame}
    {rest : List TerminalFrame} (due : owed.terminals = terminal :: rest) :
    Does (terminalResult terminal) before owed
      (Sends before { owed with terminals := rest }) := by
  refine Does.get ?_
  rw [surfaceIds_face, ← inkFrozen_face]
  refine Does.get ?_
  rw [← credits_face, ← byteCredits_face]
  exact wrap_does (.reported due rfl)

theorem terminalResults_does (terminals : List TerminalFrame)
    {rest : List TerminalFrame} (due : owed.terminals = terminals ++ rest) :
    Does (terminalResults terminals) before owed
      (Tells before { owed with terminals := rest }) := by
  induction terminals generalizing before owed with
  | nil =>
      rw [List.nil_append] at due
      subst due
      exact Does.pure ⟨.refl before, rfl, fun _ => rfl, .nil ⟨rfl, rfl, rfl⟩⟩
  | cons terminal terminals induction =>
      refine Does.bind _ (Does.one (terminalResult_does due)) ?_
      rintro first after left entries ⟨unchanged, rfl, same, within⟩ _
      refine Does.bind _ (induction rfl) ?_
      rintro others final left more ⟨further, rfl, sameMore, withinMore⟩ steps
      refine Does.pure ⟨unchanged.trans further, rfl, fun isOpen => ?_, ?_⟩
      · simp [same (steps.stillOpen isOpen), sameMore isOpen]
      · rw [List.append_nil]
        exact within.append (.plain _) withinMore

theorem terminalResults_all (terminals : List TerminalFrame)
    (due : owed.terminals = terminals) :
    Does (terminalResults terminals) before owed
      (Tells before { owed with terminals := [] }) :=
  terminalResults_does terminals (due.trans (List.append_nil _).symm)

/-- The terminals the core gave are reported. -/
theorem terminalResults_given (terminals : List TerminalFrame)
    (noTerminal : owed.terminals = []) :
    Does (terminalResults terminals) before (owed.gives terminals)
      (Tells before owed) := by
  have told : Does (terminalResults terminals) before (owed.gives terminals)
      (Tells before { owed.gives terminals with terminals := [] }) :=
    terminalResults_all terminals (by simp [Owed.gives, noTerminal])
  have same : { owed.gives terminals with terminals := [] } = owed := by
    rw [← noTerminal]
    rfl
  rwa [same] at told

theorem frameResult_returns (session : Session) (key : FrameKey)
    (verdict : Verdict) (metrics : Option PresentationMetrics) :
    ∃ envelope after,
      frameResult key verdict session.face.logicalFrameId
          session.face.presentedFrameId metrics session =
        .ok envelope after ∧
      envelope.body = some (session.face.resultBody key verdict metrics) ∧
      after.face = session.face.note
        (.sent (session.face.resultBody key verdict metrics)
          session.face.pendingFrame) := by
  refine ⟨_, _, rfl, ?_, ?_⟩
  · rw [Face.resultBody, credits_face, byteCredits_face]
  · rw [Face.resultBody, credits_face, byteCredits_face, pendingFrame_face]
    rfl

theorem refuseFrame_does {frame : Frame} {verdict : Verdict}
    (greeted : before.established = true)
    (refuses : before.Refuses frame verdict) :
    Does (refuseFrame frame verdict) before owed
      (Replies [] owed { frames := [frame] }) := by
  obtain ⟨envelope, after, returned, isBody, isFace⟩ := frameResult_returns
    (before.note (.refused frame))
    ⟨frame.surfaceId, frame.generation, frame.frameId⟩ verdict none
  have answers : (refuseFrame frame verdict).Runs before (.ok [envelope])
      after := by
    rw [refuseFrame, Proc.runs_modify_bind, Proc.runs_bind]
    refine .inl ⟨envelope, after, ?_, Proc.runs_pure.mpr ⟨rfl, rfl⟩⟩
    rw [immediateFrameResult, Proc.runs_get_bind, surfaceIds_face]
    exact returned
  refine Does.computes owed [.refused frame, .sent
    (before.face.resultBody ⟨frame.surfaceId, frame.generation,
      frame.frameId⟩ verdict none) before.face.pendingFrame] answers ?_ ?_
  · rw [isFace]
    exact .single (.refused greeted refuses rfl)
  · refine ⟨rfl, fun _ => ?_, rfl, rfl, nofun, ?_⟩
    · simp only [bodies, List.filterMap_cons, isBody]
      rfl
    · intro entry member
      rcases List.mem_cons.mp member with rfl | member
      · trivial
      · rw [List.mem_singleton.mp member]
        trivial

end

end Session

namespace Face

/-- The face with another core and another panel. -/
def withWorld (self : Face) (screen : Screen) (world : World) : Face :=
  { self with
    panel := world.panel
    screen := some { screen with core := world.core } }

theorem withWorld_self {face : Face} {screen : Screen}
    (shown : face.screen = some screen) :
    face.withWorld screen ⟨screen.core, face.panel⟩ = face := by
  rw [withWorld, ← shown]

/-- The face after it was noted that a cleanup is asked for. -/
def asked (self : Face) (cause : CleanupCause) (asks : Bool) : Face :=
  if asks then self.note (.asked cause) else self

@[simp] theorem asked_not {face : Face} {cause : CleanupCause} :
    face.asked cause false = face := rfl

end Face

/-- The entries of an operation that may ask for a cleanup. -/
def askEntries (cause : CleanupCause) (asks : Bool) : List JournalEntry :=
  if asks then [.asked cause] else []

@[simp] theorem askEntries_not {cause : CleanupCause} :
    askEntries cause false = [] := rfl

namespace FaceStep

variable {face : Face} {screen : Screen} {world middle : World} {owed : Owed}

theorem coreWorld {action : Action} {terminals : List TerminalFrame}
    (plain : Plain action) (step : CoreStep world action terminals middle) :
    FaceStep ⟨face.withWorld screen world, owed⟩ []
      ⟨face.withWorld screen middle, owed.gives terminals⟩ := by
  have isShown : (face.withWorld screen world).screen =
      some { screen with core := world.core } := rfl
  have taken := @FaceStep.core _ _ _ owed _ _ isShown plain step
  exact taken

theorem configuredWorld {config : RefreshPolicyConfig} {changed : Bool}
    {next : DisplayCore}
    (updates : world.core.updateRefreshConfig config = .ok (changed, next)) :
    FaceStep ⟨face.withWorld screen world, owed⟩ []
      ⟨face.withWorld screen ⟨next, world.panel⟩, owed⟩ := by
  have isShown : (face.withWorld screen world).screen =
      some { screen with core := world.core } := rfl
  have taken := @FaceStep.configured _ _ owed _ _ _ isShown updates
  exact taken

theorem notedWorld (failure : Option Duration) :
    FaceStep ⟨face.withWorld screen world, owed⟩ []
      ⟨face.withWorld screen
        ⟨{ world.core with lastIdleCleanupFailure := failure }, world.panel⟩,
        owed⟩ := by
  have isShown : (face.withWorld screen world).screen =
      some { screen with core := world.core } := rfl
  have taken := @FaceStep.noted _ _ owed isShown failure
  exact taken

end FaceStep

theorem Steps.ofCore {allowed : World → Action → Prop} {world after : World}
    {accepted : List ValidatedFrame} {terminals : List TerminalFrame}
    {owed : Owed} (face : Face) (screen : Screen)
    (plain : ∀ world action, allowed world action → Plain action)
    (steps : CoreSteps allowed world accepted terminals after) :
    Steps ⟨face.withWorld screen world, owed⟩ []
      ⟨face.withWorld screen after, owed.gives terminals⟩ := by
  induction steps generalizing owed with
  | nil =>
      rw [Owed.gives_nil]
      exact .nil
  | cons isAllowed step _ induction =>
      rw [← Owed.gives_gives]
      exact Steps.cons (.coreWorld (plain _ _ isAllowed) step) induction

theorem Presents.plain {panel : Panel} {world : World} {action : Action}
    (presents : Presents panel world action) : Plain action := by
  rcases presents with ⟨rfl, _⟩ | rfl <;> trivial

/-- An operation of the core of a screen takes the face to `noted`, with the
core and the panel it leaves; what was owed is `owed` then, and the terminals
it gives come on top. -/
def CoreDoes {α : Type} (operation : CoreProc α) (screen : Screen)
    (before : Station) (entries : List JournalEntry) (noted : Face)
    (owed : Owed) (post : α → World → List TerminalFrame → Prop) : Prop :=
  ∀ output world, operation.Runs ⟨screen.core, before.face.panel⟩ output world →
    ∃ terminals, Steps before entries
        ⟨noted.withWorld screen world, owed.gives terminals⟩ ∧
      ∀ value, output = .ok value → post value world terminals

namespace Session

section

variable {α : Type} {before : Session} {owed : Owed} {surface : ActiveSurface}

theorem screen_of_surface {session : Session}
    (shown : session.surface = some surface) :
    session.face.screen = some surface.screen := by
  rw [face, shown, Option.map_some]

/-- The session after the core left a world. -/
def ranCore (self : Session) (surface : ActiveSurface) (world : World) :
    Session :=
  { self with
    readings := self.readings + 1
    panel := world.panel
    surface := some { surface with core := world.core } }

theorem face_ranCore (session : Session) (surface : ActiveSurface)
    (world : World) :
    (session.ranCore surface world).face =
      session.face.withWorld surface.screen world := rfl

theorem runCore_runs {now : Duration} {operation : Timing → CoreProc α}
    {output : Except SessionError α} {after : Session}
    (shown : before.surface = some surface)
    (runs : (runCore now operation).Runs before output after) :
    ∃ timing given world, timing.now = now ∧
      (operation timing).Runs ⟨surface.core, before.panel⟩ given world ∧
      after = before.ranCore surface world ∧
      output = given.mapError .core := by
  simp only [runCore, readStopwatch, bind_assoc, Proc.runs_get_bind,
    Proc.runs_set_bind, pure_bind, shown] at runs
  obtain ⟨given, world, ran, rfl, isOutput⟩ := Proc.runs_zoom.mp runs
  refine ⟨_, given, world, rfl, ran, rfl, isOutput.trans ?_⟩
  cases given <;> rfl

theorem ok_of_mapError {given : Except CoreError α} {value : α}
    (same : given.mapError SessionError.core = .ok value) :
    given = .ok value := by
  cases given with
  | ok _ =>
      cases same
      rfl
  | error _ => cases same

/-- What is known after an operation of the core returned. -/
def CorePost (surface : ActiveSurface) (entries : List JournalEntry)
    (noted : Face) (owed : Owed)
    (post : α → World → List TerminalFrame → Prop) : Post α :=
  fun value after left written => written = entries ∧
    ∃ world terminals, after.face = noted.withWorld surface.screen world ∧
      left = owed.gives terminals ∧ post value world terminals

/-- An operation that first notes that it asks for a cleanup. -/
theorem askCore_does {cause : CleanupCause} {asks : Bool} {now : Duration}
    {operation : Timing → CoreProc α}
    {post : α → World → List TerminalFrame → Prop}
    (shown : before.surface = some surface)
    (spec : Coherent surface.core → ∀ timing : Timing, timing.now = now →
      CoreDoes (operation timing) surface.screen ⟨before.face, owed⟩
        (askEntries cause asks) (before.face.asked cause asks)
        (owed.asked cause asks) post) :
    Does (askCore cause asks now operation) before owed
      (CorePost surface (askEntries cause asks)
        (before.face.asked cause asks) (owed.asked cause asks) post) := by
  intro sound output after runs
  have isShown := screen_of_surface shown
  have kept : (if asks then before.note (.asked cause) else before).surface =
      some surface := by
    cases asks <;> exact shown
  obtain ⟨timing, given, world, isNow, ran, isAfter, isOutput⟩ :=
    runCore_runs kept runs
  have isFace := congrArg Session.face isAfter
  rw [face_ranCore] at isFace
  have isNoted : (if asks then before.note (.asked cause) else before).face =
      before.face.asked cause asks := by
    cases asks <;> rfl
  have samePanel : (if asks then before.note (.asked cause)
      else before).panel = before.face.panel := by
    cases asks <;> rfl
  rw [samePanel] at ran
  rw [isNoted] at isFace
  obtain ⟨terminals, steps, holds⟩ := spec (sound.coherent _ isShown) timing
    isNow given world ran
  refine ⟨_, _, isFace ▸ steps, ?_⟩
  intro value isValue
  exact ⟨rfl, world, terminals, isFace, rfl,
    holds value (ok_of_mapError (isOutput.symm.trans isValue))⟩

theorem runCore_does {now : Duration} {operation : Timing → CoreProc α}
    {post : α → World → List TerminalFrame → Prop}
    (shown : before.surface = some surface)
    (spec : Coherent surface.core → ∀ timing : Timing, timing.now = now →
      CoreDoes (operation timing) surface.screen ⟨before.face, owed⟩ []
        before.face owed post) :
    Does (runCore now operation) before owed
      (CorePost surface [] before.face owed post) := by
  have asked := @askCore_does α before owed surface .idle false now operation
    post shown
  rw [Owed.asked_not] at asked
  exact asked spec

end

end Session

section

variable {timing : Timing} {screen : Screen} {face : Face} {owed : Owed}

/-- The terminals are those that are returned. -/
abbrev Returns (value : List TerminalFrame) (_ : World)
    (terminals : List TerminalFrame) : Prop :=
  value = terminals

theorem presentPlane_core (shown : face.screen = some screen)
    (coherent : Coherent screen.core) (intent : FrameIntent) :
    CoreDoes (presentPlane timing intent) screen ⟨face, owed⟩ [] face owed
      Returns := by
  intro output world runs
  obtain ⟨terminals, drawn, flush, plane, _, rfl⟩ :=
    presentPlane_runs coherent runs
  have draws : CoreSteps (fun _ action => Plain action)
      (flushed timing ⟨screen.core, face.panel⟩) [] [] world :=
    .single (.draw intent) trivial (.draw plane)
  have steps : CoreSteps (fun _ action => Plain action)
      ⟨screen.core, face.panel⟩ [] terminals world := by
    rcases flush with ⟨_, rfl, same⟩ | ⟨terminal, rfl, step⟩
    · rw [same] at draws
      exact draws
    · have presents : CoreSteps (fun _ action => Plain action) _ [] [terminal]
          (flushed timing ⟨screen.core, face.panel⟩) :=
        .single .present trivial (.present step)
      exact presents.append draws
  refine ⟨terminals, ?_, ?_⟩
  · nth_rewrite 1 [← Face.withWorld_self shown]
    exact Steps.ofCore face screen (fun _ _ => id) steps
  · intro value same
    cases drawn <;> cases same
    rfl

theorem steps_presents {panel : Panel} {world after : World}
    {terminals : List TerminalFrame}
    (steps : CoreSteps (Presents panel) world [] terminals after) :
    Steps ⟨face.withWorld screen world, owed⟩ []
      ⟨face.withWorld screen after, owed.gives terminals⟩ :=
  Steps.ofCore face screen (fun _ _ => Presents.plain) steps

theorem steps_asked (shown : face.screen = some screen) (cause : CleanupCause)
    (due : cause = .chord → owed.chord = true) :
    Steps ⟨face, owed⟩ (askEntries cause true)
      ⟨(face.asked cause true).withWorld screen
        ⟨screen.core.requireCleanup, face.panel⟩, owed.asked cause true⟩ := by
  refine Steps.single ?_
  have step := @FaceStep.asked _ _ owed shown cause due
  have same : (cause != .chord) = !(true && cause == .chord) := by
    cases cause <;> rfl
  rw [same] at step
  exact step

theorem requestCleanup_core (shown : face.screen = some screen)
    (coherent : Coherent screen.core) {cause : CleanupCause}
    (due : cause = .chord → owed.chord = true) :
    CoreDoes (requestCleanup timing) screen ⟨face, owed⟩
      (askEntries cause true) (face.asked cause true) (owed.asked cause true)
      fun report world terminals => report.terminals = terminals ∧
        report.cleanupPending = world.core.forceCleanupNext := by
  intro output world runs
  obtain ⟨report, rfl, isPending, steps⟩ := requestCleanup_steps coherent runs
  refine ⟨report.terminals, ?_, ?_⟩
  · simpa using (steps_asked shown cause due).append (steps_presents steps)
  · intro value same
    cases same
    exact ⟨rfl, isPending⟩

theorem updateRefreshConfig_armed {core next : DisplayCore}
    {config : RefreshPolicyConfig} {changed : Bool}
    (updates : core.updateRefreshConfig config = .ok (changed, next)) :
    core.requireCleanup.updateRefreshConfig config =
      .ok (changed, next.requireCleanup) := by
  obtain ⟨policy, reconfigured, same⟩ := Res.bind_eq_ok.mp updates
  cases same
  rw [updateRefreshConfig]
  change (Res.mapError _ (core.refreshPolicy.reconfigure config) >>= _) = _
  rw [reconfigured]
  rfl

theorem changeRefreshProfile_core (shown : face.screen = some screen)
    (coherent : Coherent screen.core) {config : RefreshPolicyConfig} :
    CoreDoes (changeRefreshProfile config timing) screen ⟨face, owed⟩
      (askEntries .profile (Session.reconfigures screen.core config))
      (face.asked .profile (Session.reconfigures screen.core config))
      (owed.asked .profile (Session.reconfigures screen.core config))
      fun change world terminals => change.terminals = terminals ∧
        change.cleanupPending = world.core.forceCleanupNext := by
  intro output world runs
  rcases changeRefreshProfile_steps coherent runs with
    ⟨change, configured, rfl, updates, isPending, steps⟩ | ⟨⟨err, rfl, fails⟩, rfl⟩
  · refine ⟨change.terminals, ?_, ?_⟩
    · have isAsked : Session.reconfigures screen.core config =
          change.changed := by
        rw [Session.reconfigures, updates]
      rw [isAsked]
      cases changes : change.changed with
      | true =>
          rw [changes] at updates steps
          have reset : FaceStep
              ⟨(face.asked .profile true).withWorld screen
                ⟨screen.core.requireCleanup, face.panel⟩,
                owed.asked .profile true⟩ []
              ⟨(face.asked .profile true).withWorld screen
                ⟨configured.requireCleanup, face.panel⟩,
                owed.asked .profile true⟩ :=
            .configuredWorld (updateRefreshConfig_armed updates)
          simpa using (steps_asked shown .profile nofun).append
            (Steps.cons reset (steps_presents steps))
      | false =>
          rw [changes] at updates steps
          have reset : FaceStep ⟨face, owed⟩ []
              ⟨face.withWorld screen ⟨configured, face.panel⟩, owed⟩ :=
            .configured shown updates
          simpa using Steps.cons reset (steps_presents steps)
    · intro value same
      cases same
      exact ⟨rfl, isPending⟩
  · have isAsked : Session.reconfigures screen.core config = false := by
      rw [Session.reconfigures, fails]
    rw [isAsked]
    refine ⟨[], ?_, fun _ same => by cases same⟩
    simpa [Face.withWorld_self shown] using
      (Steps.nil : Steps ⟨face, owed⟩ [] ⟨face, owed⟩)

theorem tickWithoutIdleCleanup_core (shown : face.screen = some screen)
    (coherent : Coherent screen.core) :
    CoreDoes (tickWithoutIdleCleanup timing) screen ⟨face, owed⟩ [] face owed
      Returns := by
  intro output world runs
  obtain ⟨terminals, rfl, steps⟩ := tickInner_steps coherent runs
  refine ⟨terminals, ?_, fun _ same => by cases same; rfl⟩
  rw [← Face.withWorld_self shown]
  exact steps_presents steps

theorem tickInteractive_core (shown : face.screen = some screen)
    (coherent : Coherent screen.core) {idle : Bool} {now : Duration}
    (isNow : timing.now = now) :
    CoreDoes (tickInteractive timing idle) screen ⟨face, owed⟩
      (askEntries .idle (idle && screen.core.idleCleanupDue now))
      (face.asked .idle (idle && screen.core.idleCleanupDue now))
      (owed.asked .idle (idle && screen.core.idleCleanupDue now))
      Returns := by
  intro output world runs
  obtain ⟨terminals, rfl, steps⟩ := tickInteractive_steps coherent runs
  rw [isNow] at steps
  refine ⟨terminals, ?_, fun _ same => by cases same; rfl⟩
  cases due : idle && screen.core.idleCleanupDue now with
  | true =>
      rw [if_pos due] at steps
      obtain ⟨middle, failure, steps, rfl⟩ := steps
      simpa using ((steps_asked shown .idle nofun).append
        (steps_presents steps)).append (.single (.notedWorld failure))
  | false =>
      rw [if_neg (by simp [due])] at steps
      rw [askEntries_not, Face.asked_not, Owed.asked_not]
      nth_rewrite 1 [← Face.withWorld_self shown]
      exact steps_presents steps

theorem updateRefreshConfig_core (shown : face.screen = some screen)
    {config : RefreshPolicyConfig} :
    CoreDoes
      (onCore .configured fun core => core.updateRefreshConfig config) screen
      ⟨face, owed⟩ [] face owed fun _ _ terminals => terminals = [] := by
  intro output world runs
  rcases onCore_runs runs with ⟨changed, next, updates, rfl, rfl⟩ |
    ⟨err, _, rfl, rfl⟩
  · refine ⟨[], ?_, fun _ _ => rfl⟩
    rw [Owed.gives_nil]
    exact Steps.single (.configured shown updates)
  · refine ⟨[], ?_, fun _ same => by cases same⟩
    rw [Face.withWorld_self shown, Owed.gives_nil]
    exact .nil

end

end RmDisplay.Receiver
