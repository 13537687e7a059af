import RmDisplay.Core.InkKept
import RmDisplay.Receiver.SessionRuns

/-!
# Boundaries of the ink

Ink starts anew at a boundary: input captured before it draws nothing, a MOVE
needs a DOWN after it, and no segment reaches back to a stroke before it.
-/

namespace RmDisplay.Receiver

open Foundation Protocol RmDisplay.Core Core.DisplayCore

/-- The ink after some entries. -/
def inkAt : List JournalEntry → Option Planes
  | .penned _ _ _ _ _ ink :: _ | .inkCleared ink :: _ | .opened _ _ ink _ :: _ =>
      some ink
  | [] | .closed :: _ => none
  | _ :: older => inkAt older

/-- Was the ink paused at the last boundary? -/
def pausedAt : List JournalEntry → Bool
  | .boundary _ paused :: _ => paused
  | [] | .opened .. :: _ | .closed :: _ => false
  | _ :: older => pausedAt older

/-- The boundaries of the present surface. -/
def boundaryTimes : List JournalEntry → List Duration
  | .boundary since _ :: older => since :: boundaryTimes older
  | [] | .opened .. :: _ | .closed :: _ => []
  | _ :: older => boundaryTimes older

/-- Was a segment drawn since the last boundary? -/
def drawnSince : List JournalEntry → Bool
  | .penned _ _ _ (some _) _ _ :: _ => true
  | [] | .boundary .. :: _ | .opened .. :: _ | .closed :: _ => false
  | _ :: older => drawnSince older

/-- Does ink start anew? -/
def JournalEntry.starts : JournalEntry → Bool
  | .boundary .. | .opened .. | .closed => true
  | _ => false

/-- Does an entry concern the ink? -/
def JournalEntry.inks : JournalEntry → Bool
  | .boundary .. | .opened .. | .closed | .penned .. | .inkCleared _ => true
  | _ => false

/-- An UP or CANCEL was captured before the DOWN it came after. -/
def LiftedEarlier (down : Duration) : JournalEntry → Prop
  | .penned captured physical record _ _ _ =>
      Session.penPhase record = .up ∨ Session.penPhase record = .cancel →
        physical = true ∧ captured < down
  | _ => True

/-- The pixel of the surface a record points at. -/
def PenContext.pixel (self : PenContext) (record : PointerRecord) : Nat × Nat :=
  (min (record.x1616 / 2 ^ 16) (self.width - 1),
    min (record.y1616 / 2 ^ 16) (self.height - 1))

/-- A stroke goes on that began with a DOWN captured from some time on.  With
local ink the DOWN drew a segment, unless no frame was presented. -/
def StrokeGoesOn (since : Duration) (localInk : Bool)
    (entries : List JournalEntry) : Prop :=
  ∃ newer captured record segment context ink older,
    entries =
      newer ++ .penned captured true record segment context ink :: older ∧
    Session.penPhase record = .down ∧ since ≤ captured ∧
    context.localInk = localInk ∧
    (localInk = true → segment = none → context.presentedFrameId = 0) ∧
    ∀ entry ∈ newer, entry.starts = false ∧ LiftedEarlier captured entry

theorem StrokeGoesOn.extend {since : Duration} {localInk : Bool}
    {entries newest : List JournalEntry}
    (goesOn : StrokeGoesOn since localInk entries)
    (plain : ∀ entry ∈ newest, entry.starts = false ∧
      ∀ down, since ≤ down → LiftedEarlier down entry) :
    StrokeGoesOn since localInk (newest ++ entries) := by
  obtain ⟨newer, captured, record, segment, context, ink, older, rfl, isDown,
    late, same, draws, between⟩ := goesOn
  refine ⟨newest ++ newer, captured, record, segment, context, ink, older,
    (List.append_assoc _ _ _).symm, isDown, late, same, draws, ?_⟩
  intro entry member
  rcases List.mem_append.mp member with new | old
  · exact ⟨(plain entry new).1, (plain entry new).2 captured late⟩
  · exact between entry old

/-- A record without a segment leaves the ink as it was; a DOWN that is current
has a segment, if local ink is on and a frame is presented.  A segment is drawn
by the pen, after every boundary and while the ink is not paused, in a stroke
that began after the boundaries, and the first one starts at its own point. -/
def HeedsBoundaries (older : List JournalEntry) : JournalEntry → Prop
  | .penned captured physical record none context ink =>
      inkAt older = some ink ∧
      (physical = true → Session.penPhase record = .down →
        pausedAt older = false → context.notBefore ≤ captured →
        context.localInk = true → context.presentedFrameId = 0)
  | .penned captured physical record (some segment) context _ =>
      physical = true ∧ pausedAt older = false ∧
      (∀ since ∈ boundaryTimes older, since ≤ captured) ∧
      (Session.penPhase record = .down ∨
        Session.penPhase record = .move ∧ ∃ limit,
          (∀ since ∈ boundaryTimes older, since ≤ limit) ∧
            StrokeGoesOn limit true older) ∧
      (drawnSince older = false → segment.origin = segment.target) ∧
      segment.target = context.pixel record
  | _ => True

def AllHeedBoundaries : List JournalEntry → Prop
  | [] => True
  | entry :: older => HeedsBoundaries older entry ∧ AllHeedBoundaries older

theorem AllHeedBoundaries.of_split {entries newer older : List JournalEntry}
    {entry : JournalEntry} (all : AllHeedBoundaries entries)
    (split : entries = newer ++ entry :: older) :
    HeedsBoundaries older entry := by
  subst split
  induction newer with
  | nil => exact all.1
  | cons _ newer induction => exact induction all.2

/-- What a session knows of the pen and the ink. -/
structure PenView where
  localInk : Bool
  paused : Bool
  needsDown : Bool
  notBefore : Duration
  point : Option (Nat × Nat)
  ink : Planes

def Screen.penView (self : Screen) : PenView where
  localInk := self.localInk
  paused := self.inkPaused
  needsDown := self.inkNeedsDown
  notBefore := self.inkNotBefore
  point := self.penPoint
  ink := self.core.ink.planes

def Face.penView (self : Face) : Option PenView :=
  self.screen.map Screen.penView

/-- A change of the pen and the ink, with the entries it writes. -/
inductive PenMove (view : Option PenView) :
    List JournalEntry → Option PenView → Prop
  | quiet {entries : List JournalEntry}
      (plain : ∀ entry ∈ entries, entry.inks = false) :
      PenMove view entries view
  | inked {screen next : Screen} {entry : Option JournalEntry}
      (isShown : view = some screen.penView) (step : InkStep screen entry next) :
      PenMove view entry.toList (some next.penView)
  | opened {fresh : PenView} (surfaceId generation : Nat) (ink : Planes)
      (stale : Bool)
      (blank : fresh.ink = ink ∧ fresh.paused = false ∧
        fresh.needsDown = true ∧ fresh.point = none) :
      PenMove view [.opened surfaceId generation ink stale] (some fresh)
  | closed : PenMove view [.closed] none

theorem FaceStep.pens {before after : Station} {entries : List JournalEntry}
    (step : FaceStep before entries after) :
    PenMove before.face.penView entries after.face.penView := by
  have kept {face next : Face} {screen nextScreen : Screen}
      {entries : List JournalEntry} (shown : face.screen = some screen)
      (isNext : next.screen = some nextScreen)
      (same : nextScreen.penView = screen.penView)
      (plain : ∀ entry ∈ entries, entry.inks = false) :
      PenMove face.penView entries next.penView := by
    have sameView : next.penView = face.penView := by
      rw [Face.penView, isNext, Face.penView, shown, Option.map_some,
        Option.map_some, same]
    rw [sameView]
    exact .quiet plain
  have single {entry : JournalEntry} (plain : entry.inks = false) :
      ∀ other ∈ [entry], other.inks = false := by
    intro other member
    rw [List.mem_singleton.mp member]
    exact plain
  cases step with
  | @core face screen action _ _ world shown plain step =>
      refine kept shown rfl ?_ (List.forall_mem_nil _)
      have same := step.inkPlanes fun edit isInk => by
        subst isInk
        exact plain
      unfold Screen.penView
      rw [same]
  | configured shown updates =>
      obtain ⟨_, _, stored⟩ := Res.bind_eq_ok.mp updates
      cases stored
      exact kept shown rfl rfl (List.forall_mem_nil _)
  | noted shown _ => exact kept shown rfl rfl (List.forall_mem_nil _)
  | asked shown _ _ => exact kept shown rfl rfl (single rfl)
  | @inked face screen next entry _ shown step =>
      refine .inked ?_ step
      rw [Face.penView, shown, Option.map_some]
  | frozen shown _ _ => exact kept shown rfl rfl (single rfl)
  | released shown _ => exact kept shown rfl rfl (single rfl)
  | @accepted session surface _ _ _ _ _ _ next _ admits commits =>
      refine kept (Session.screen_of_admits admits) rfl ?_ (single rfl)
      obtain ⟨_, _, _, _, _, _, _, rfl⟩ := commitTimed_eq_ok commits
      rfl
  | opened _ _ surfaceId generation _ _ =>
      exact .opened surfaceId generation _ _ ⟨rfl, rfl, rfl, rfl⟩
  | closed _ _ => exact .closed
  | refused _ _ _ =>
      refine .quiet fun entry member => ?_
      rcases List.mem_cons.mp member with rfl | member
      · rfl
      · rw [List.mem_singleton.mp member]
        rfl
  | carried _ | greeted _ _ | ended | forgotten _ | fallback _ _ _ _ =>
      exact .quiet (List.forall_mem_nil _)
  | _ => exact .quiet (single rfl)

/-- What the boundaries mean for the pen and the ink of a session. -/
structure PenKept (view : Option PenView) (entries : List JournalEntry) :
    Prop where
  ink : ∀ pen, view = some pen → inkAt entries = some pen.ink
  paused : ∀ pen, view = some pen → pausedAt entries = pen.paused
  times : ∀ pen, view = some pen →
    ∀ since ∈ boundaryTimes entries, since ≤ pen.notBefore
  begun : ∀ pen, view = some pen → pen.needsDown = false →
    pen.paused = false ∧ StrokeGoesOn pen.notBefore pen.localInk entries
  fresh : ∀ pen, view = some pen → drawnSince entries = false →
    pen.point = none
  heeded : AllHeedBoundaries entries

namespace PenKept

variable {view : Option PenView} {entries older : List JournalEntry}
  {screen next : Screen}

/-- Entries that do not concern the ink. -/
theorem quiet (kept : PenKept view older)
    (plain : ∀ entry ∈ entries, entry.inks = false) :
    PenKept view (entries ++ older) := by
  induction entries with
  | nil => exact kept
  | cons entry entries induction =>
      obtain ⟨isPlain, others⟩ := List.forall_mem_cons.mp plain
      have before := induction others
      have same : inkAt (entry :: (entries ++ older)) =
            inkAt (entries ++ older) ∧
          pausedAt (entry :: (entries ++ older)) =
            pausedAt (entries ++ older) ∧
          boundaryTimes (entry :: (entries ++ older)) =
            boundaryTimes (entries ++ older) ∧
          drawnSince (entry :: (entries ++ older)) =
            drawnSince (entries ++ older) ∧
          entry.starts = false ∧ (∀ down, LiftedEarlier down entry) ∧
          HeedsBoundaries (entries ++ older) entry := by
        cases entry with
        | boundary _ _ | opened _ _ _ _ | closed | penned _ _ _ _ _ _
        | inkCleared _ => cases isPlain
        | _ => exact ⟨rfl, rfl, rfl, rfl, rfl, fun _ => trivial, trivial⟩
      obtain ⟨ink, paused, times, drawn, goesOn, lifts, heeds⟩ := same
      constructor
      · rw [List.cons_append, ink]
        exact before.ink
      · rw [List.cons_append, paused]
        exact before.paused
      · rw [List.cons_append, times]
        exact before.times
      · intro pen isPen down
        obtain ⟨live, began⟩ := before.begun pen isPen down
        refine ⟨live, ?_⟩
        refine @StrokeGoesOn.extend _ _ _ [entry] began fun other member => ?_
        rw [List.mem_singleton.mp member]
        exact ⟨goesOn, fun down _ => lifts down⟩
      · rw [List.cons_append, drawn]
        exact before.fresh
      · exact ⟨heeds, before.heeded⟩

/-- Another surface. -/
theorem opened (kept : PenKept view older) {fresh : PenView}
    (surfaceId generation : Nat) (stale : Bool) {ink : Planes}
    (blank : fresh.ink = ink ∧ fresh.paused = false ∧
      fresh.needsDown = true ∧ fresh.point = none) :
    PenKept (some fresh)
      (.opened surfaceId generation ink stale :: older) := by
  obtain ⟨sameInk, live, fromDown, lifted⟩ := blank
  constructor
  · rintro _ ⟨⟩
    exact congrArg some sameInk.symm
  · rintro _ ⟨⟩
    exact live.symm
  · rintro _ ⟨⟩
    exact List.forall_mem_nil _
  · rintro _ ⟨⟩ down
    rw [fromDown] at down
    cases down
  · rintro _ ⟨⟩ _
    exact lifted
  · exact ⟨trivial, kept.heeded⟩

theorem closed (kept : PenKept view older) :
    PenKept none (.closed :: older) := by
  constructor
  · rintro _ ⟨⟩
  · rintro _ ⟨⟩
  · rintro _ ⟨⟩
  · rintro _ ⟨⟩
  · rintro _ ⟨⟩
  · exact ⟨trivial, kept.heeded⟩

theorem undrawn (kept : PenKept (some screen.penView) older)
    {captured : Duration} {physical : Bool} {record : PointerRecord}
    (ink : next.core.ink.planes = screen.core.ink.planes)
    (inkOn : next.localInk = screen.localInk)
    (paused : next.inkPaused = screen.inkPaused)
    (notBefore : next.inkNotBefore = screen.inkNotBefore)
    (begun : next.inkNeedsDown = false → screen.inkPaused = false ∧
      StrokeGoesOn screen.inkNotBefore screen.localInk
        (.penned captured physical record none screen.penContext
          screen.core.ink.planes :: older))
    (point : next.penPoint = none ∨ next.penPoint = screen.penPoint)
    (unshown : physical = true → Session.penPhase record = .down →
      screen.inkPaused = false → screen.inkNotBefore ≤ captured →
      screen.localInk = true → screen.core.presentedFrameId = 0) :
    PenKept (some next.penView)
      (.penned captured physical record none screen.penContext
        screen.core.ink.planes :: older) := by
  constructor
  · rintro _ ⟨⟩
    exact congrArg some ink.symm
  · rintro _ ⟨⟩
    exact (kept.paused screen.penView rfl).trans paused.symm
  · rintro _ ⟨⟩ since member
    exact (kept.times screen.penView rfl since member).trans_eq notBefore.symm
  · rintro _ ⟨⟩ down
    obtain ⟨live, began⟩ := begun down
    refine ⟨paused.trans live, ?_⟩
    rw [show next.penView.notBefore = screen.inkNotBefore from notBefore,
      show next.penView.localInk = screen.localInk from inkOn]
    exact began
  · rintro _ ⟨⟩ undrawn
    rcases point with none | same
    · exact none
    · exact same.trans (kept.fresh screen.penView rfl undrawn)
  · refine ⟨⟨kept.ink screen.penView rfl, ?_⟩, kept.heeded⟩
    intro isPhysical isDown live
    exact unshown isPhysical isDown
      ((kept.paused screen.penView rfl).symm.trans live)

theorem goesOn (kept : PenKept (some screen.penView) older)
    (down : screen.inkNeedsDown = false) {captured : Duration}
    {physical : Bool} {record : PointerRecord} {segment : Option InkSegment}
    {context : PenContext} {ink : Planes}
    (lifts : Session.penPhase record = .up ∨
        Session.penPhase record = .cancel →
      physical = true ∧ captured < screen.inkNotBefore) :
    screen.inkPaused = false ∧ StrokeGoesOn screen.inkNotBefore screen.localInk
      (.penned captured physical record segment context ink :: older) := by
  obtain ⟨live, began⟩ := kept.begun screen.penView rfl down
  refine ⟨live, ?_⟩
  refine @StrokeGoesOn.extend _ _ _ [_] began fun other member => ?_
  rw [List.mem_singleton.mp member]
  refine ⟨rfl, fun since late isLift => ?_⟩
  obtain ⟨isPhysical, early⟩ := lifts isLift
  exact ⟨isPhysical, early.trans_le late⟩

/-- The step of a record that is heeded: it was not captured too early, ink is
not paused, and a MOVE or UP continues a stroke. -/
theorem heeds_iff {captured : Duration} {physical : Bool}
    {phase : PointerPhase}
    (heeds : screen.ignores physical captured phase = false) :
    screen.inkPaused = false ∧
      (physical = true → screen.inkNotBefore ≤ captured) ∧
      (phase = .move ∨ phase = .up → screen.inkNeedsDown = false) := by
  unfold Screen.ignores at heeds
  rw [Bool.or_eq_false_iff, Bool.or_eq_false_iff] at heeds
  obtain ⟨⟨live, early⟩, continues⟩ := heeds
  refine ⟨live, ?_, ?_⟩
  · rintro rfl
    simpa using early
  · intro isPhase
    rcases isPhase with rfl | rfl
    · simpa using continues
    · simpa using continues

theorem begunAfter (kept : PenKept (some screen.penView) older)
    {captured : Duration} {physical : Bool} {record : PointerRecord}
    {segment : Option InkSegment} {ink : Planes}
    (meant : physical = true ∨ Session.penPhase record = .cancel)
    (heeds : screen.ignores physical captured (Session.penPhase record) =
      false)
    (down : screen.needsDownAfter (Session.penPhase record) = false)
    (draws : Session.penPhase record = .down → screen.localInk = true →
      segment = none → screen.core.presentedFrameId = 0) :
    screen.inkPaused = false ∧ StrokeGoesOn screen.inkNotBefore screen.localInk
      (.penned captured physical record segment screen.penContext ink ::
        older) := by
  obtain ⟨live, late, _⟩ := heeds_iff heeds
  cases isPhase : Session.penPhase record with
  | down =>
      have isPhysical : physical = true := by
        refine meant.resolve_right fun cancelled => ?_
        rw [isPhase] at cancelled
        cases cancelled
      subst isPhysical
      exact ⟨live, [], captured, record, segment, screen.penContext, ink,
        older, rfl, isPhase, late rfl, rfl, draws isPhase,
        List.forall_mem_nil _⟩
  | up | cancel =>
      rw [isPhase] at down
      cases down
  | move | hover | unspecified =>
      rw [isPhase] at down
      refine kept.goesOn down fun lifts => ?_
      rw [isPhase] at lifts
      rcases lifts with up | cancel
      · cases up
      · cases cancel

theorem rearmed (kept : PenKept (some screen.penView) older)
    (since : Duration) (paused : Bool) {fresh : PenView}
    (ink : fresh.ink = screen.penView.ink)
    (isPaused : fresh.paused = paused) (fromDown : fresh.needsDown = true)
    (notBefore : fresh.notBefore = max screen.inkNotBefore since)
    (lifted : fresh.point = none) :
    PenKept (some fresh) (.boundary since paused :: older) := by
  constructor
  · rintro _ ⟨⟩
    exact (kept.ink screen.penView rfl).trans (congrArg some ink.symm)
  · rintro _ ⟨⟩
    exact isPaused.symm
  · rintro _ ⟨⟩
    rw [notBefore]
    refine List.forall_mem_cons.mpr ⟨le_max_right _ _, ?_⟩
    intro earlier member
    exact (kept.times screen.penView rfl earlier member).trans (le_max_left _ _)
  · rintro _ ⟨⟩ down
    rw [fromDown] at down
    cases down
  · rintro _ ⟨⟩ _
    exact lifted
  · exact ⟨trivial, kept.heeded⟩

theorem switched (kept : PenKept (some screen.penView) older) (localInk : Bool)
    (needsDown : screen.inkNeedsDown = true) :
    PenKept (some { screen.penView with localInk }) older := by
  constructor
  · rintro _ ⟨⟩
    exact kept.ink screen.penView rfl
  · rintro _ ⟨⟩
    exact kept.paused screen.penView rfl
  · rintro _ ⟨⟩
    exact kept.times screen.penView rfl
  · rintro _ ⟨⟩ down
    exact absurd (needsDown.symm.trans down) Bool.true_eq_false_eq_False
  · rintro _ ⟨⟩
    exact kept.fresh screen.penView rfl
  · exact kept.heeded

theorem lost (kept : PenKept (some screen.penView) older) :
    PenKept (some { screen.penView with point := none }) older := by
  constructor
  · rintro _ ⟨⟩
    exact kept.ink screen.penView rfl
  · rintro _ ⟨⟩
    exact kept.paused screen.penView rfl
  · rintro _ ⟨⟩
    exact kept.times screen.penView rfl
  · rintro _ ⟨⟩
    exact kept.begun screen.penView rfl
  · rintro _ ⟨⟩ _
    rfl
  · exact kept.heeded

theorem cleared (kept : PenKept (some screen.penView) older) (ink : Planes) :
    PenKept (some { screen.penView with ink }) (.inkCleared ink :: older) := by
  constructor
  · rintro _ ⟨⟩
    rfl
  · rintro _ ⟨⟩
    exact kept.paused screen.penView rfl
  · rintro _ ⟨⟩
    exact kept.times screen.penView rfl
  · rintro _ ⟨⟩ down
    obtain ⟨live, began⟩ := kept.begun screen.penView rfl down
    refine ⟨live, @StrokeGoesOn.extend _ _ _ [_] began fun entry member => ?_⟩
    rw [List.mem_singleton.mp member]
    exact ⟨rfl, fun _ _ => trivial⟩
  · rintro _ ⟨⟩
    exact kept.fresh screen.penView rfl
  · exact ⟨trivial, kept.heeded⟩

theorem ignored (kept : PenKept (some screen.penView) older)
    {captured : Duration} {physical : Bool} {record : PointerRecord}
    (ignores : screen.ignores physical captured (Session.penPhase record) =
      true) :
    PenKept (some screen.penView)
      (.penned captured physical record none screen.penContext
        screen.core.ink.planes :: older) := by
  refine kept.undrawn rfl rfl rfl rfl (fun down => ?_) (.inr rfl) ?_
  · refine kept.goesOn down fun _ => ?_
    obtain ⟨live, _⟩ := kept.begun screen.penView rfl down
    have notPaused : screen.inkPaused = false := live
    rw [Screen.ignores, notPaused, down] at ignores
    simpa using ignores
  · intro isPhysical isDown live late
    rw [Screen.ignores, live, isPhysical, isDown] at ignores
    have early : captured < screen.inkNotBefore := by
      simpa using ignores
    exact absurd late (not_le.mpr early)

/-- A segment is drawn. -/
theorem drew (kept : PenKept (some screen.penView) older)
    {captured : Duration} {record : PointerRecord} {segment : InkSegment}
    {core : DisplayCore}
    (heeds : screen.ignores true captured (Session.penPhase record) = false)
    (inkOn : screen.localInk = true)
    (draws : Session.penPhase record = .down ∨ Session.penPhase record = .move)
    (target : segment.target = Session.penPixel screen.core record)
    (origin : segment.origin = screen.penPoint.getD segment.target) :
    PenKept
      (some
        { screen.penView with
          needsDown := screen.needsDownAfter (Session.penPhase record)
          point := some segment.target
          ink := core.ink.planes })
      (.penned captured true record (some segment) screen.penContext
        core.ink.planes :: older) := by
  obtain ⟨live, late, continues⟩ := heeds_iff heeds
  constructor
  · rintro _ ⟨⟩
    rfl
  · rintro _ ⟨⟩
    exact kept.paused screen.penView rfl
  · rintro _ ⟨⟩
    exact kept.times screen.penView rfl
  · rintro _ ⟨⟩ down
    refine kept.begunAfter (.inl rfl) heeds down ?_
    rintro _ _ ⟨⟩
  · rintro _ ⟨⟩ undrawn
    cases undrawn
  · refine ⟨⟨rfl, ?_, ?_, ?_, ?_, target⟩, kept.heeded⟩
    · exact (kept.paused screen.penView rfl).trans live
    · intro since member
      exact (kept.times screen.penView rfl since member).trans (late rfl)
    · refine draws.imp id fun move => ⟨move, screen.inkNotBefore, ?_, ?_⟩
      · exact kept.times screen.penView rfl
      · have began := (kept.begun screen.penView rfl (continues (.inl move))).2
        rwa [show screen.penView.localInk = true from inkOn] at began
    · intro undrawn
      have lifted : screen.penPoint = none := kept.fresh screen.penView rfl undrawn
      rw [origin, lifted, Option.getD_none]

/-- A step of the pen. -/
theorem inked (kept : PenKept (some screen.penView) older)
    {entry : Option JournalEntry} (step : InkStep screen entry next) :
    PenKept (some next.penView) (entry.toList ++ older) := by
  cases step with
  | rearmed since paused localInk =>
      exact kept.rearmed since paused rfl rfl rfl rfl rfl
  | switched localInk needsDown => exact kept.switched localInk needsDown
  | lost | forgotten => exact kept.lost
  | kept records lastPen known =>
      exact kept.quiet fun entry member => by
        rw [List.mem_singleton.mp member]
        rfl
  | cleared => exact kept.cleared _
  | ignored ignores => exact kept.ignored ignores
  | @lifted _ _ record meant heeds undrawn =>
      have unshown (isDown : Session.penPhase record = .down)
          (inkOn : screen.localInk = true) :
          screen.core.presentedFrameId = 0 := by
        by_contra presented
        exact (undrawn inkOn presented).1 isDown
      exact kept.undrawn rfl rfl rfl rfl
        (fun down => kept.begunAfter meant heeds down
          fun isDown inkOn _ => unshown isDown inkOn)
        (.inl rfl) (fun _ isDown _ _ inkOn => unshown isDown inkOn)
  | drew heeds live draws target origin edits =>
      exact kept.drew heeds live.1 draws target origin

end PenKept

theorem PenMove.penKept {view next : Option PenView}
    {entries older : List JournalEntry} (moves : PenMove view entries next)
    (kept : PenKept view older) : PenKept next (entries.reverse ++ older) := by
  cases moves with
  | quiet plain =>
      exact kept.quiet fun entry member =>
        plain entry (List.mem_reverse.mp member)
  | @inked _ _ entry isShown step =>
      rw [isShown] at kept
      have held := kept.inked step
      cases entry with
      | none | some _ => exact held
  | opened surfaceId generation _ stale blank =>
      exact kept.opened surfaceId generation stale blank
  | closed => exact kept.closed

theorem SessionRun.penKept {setup : SessionSetup}
    {history : List SessionEvent} {final : Session}
    (run : SessionRun setup history final) :
    PenKept final.face.penView (entriesOf history) := by
  have holds := run.keepsAlways (fun face =>
      PenKept face.penView (face.journal.map (·.entry))) ?_
    fun step _ holds => by
      rw [step.journal]
      exact step.pens.penKept holds
  · rw [← run.journal]
    exact holds
  · constructor
    · rintro _ ⟨⟩
    · rintro _ ⟨⟩
    · rintro _ ⟨⟩
    · rintro _ ⟨⟩
    · rintro _ ⟨⟩
    · trivial

end RmDisplay.Receiver
