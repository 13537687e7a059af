import RmDisplay.Core.Submissions
import RmDisplay.Receiver.Handle

/-!
# The face of a session

A session as its producer, its panel and its user see it: the active surface
with its core, the panel, the contacts, and what is carried from one surface to
the next.  `FaceStep` collects what a session can do to its face in one step,
with the entries it writes into the journal.  Everything else a session keeps
is bookkeeping that leaves the face alone.
-/

namespace RmDisplay.Receiver

open Foundation Protocol RmDisplay.Core Core.DisplayCore

/-- The active surface without the bookkeeping of its pen contact. -/
structure Screen where
  surfaceId : Nat
  generation : Nat
  touchForwardingEnabled : Bool
  localInk : Bool
  inkFrozen : Bool
  penPoint : Option (Nat × Nat)
  lastPen : Option PointerRecord
  inkPaused : Bool
  inkNeedsDown : Bool
  inkNotBefore : Duration
  core : DisplayCore

structure Face where
  panel : Panel
  screen : Option Screen
  limits : ReceiverLimits
  touchGesture : FiveFingerCleanupGesture
  menuVisible : Bool
  inputNotBefore : Duration
  /-- Carried while no surface is open. -/
  cleanupKept : Bool
  debtKept : RefreshDebt
  byteCreditsEnabled : Bool
  established : Bool
  closed : Bool
  journal : List JournalRecord

def ActiveSurface.screen (self : ActiveSurface) : Screen where
  surfaceId := self.surfaceId
  generation := self.generation
  touchForwardingEnabled := self.touchForwardingEnabled
  localInk := self.localInk
  inkFrozen := self.inkFrozen
  penPoint := self.penPoint
  lastPen := self.lastPen
  inkPaused := self.inkPaused
  inkNeedsDown := self.inkNeedsDown
  inkNotBefore := self.inkNotBefore
  core := self.core

def Session.face (self : Session) : Face where
  panel := self.panel
  screen := self.surface.map ActiveSurface.screen
  limits := self.config.limits
  touchGesture := self.touchGesture
  menuVisible := self.localMenu.visible
  inputNotBefore := self.inputNotBefore
  cleanupKept := self.cleanupPendingWithoutSurface
  debtKept := self.refreshDebtWithoutSurface
  byteCreditsEnabled := self.byteCreditsEnabled
  established := self.established
  closed := self.closed
  journal := self.journal

namespace Face

def pendingFrame (self : Face) : Option PendingPresentation :=
  self.screen.bind (·.core.pending)

def credits (self : Face) : Nat :=
  self.limits.maxInflight - if self.pendingFrame.isSome then 1 else 0

def byteCredits (self : Face) : Nat :=
  if self.byteCreditsEnabled then
    self.limits.maxInflightBytes -
      (self.pendingFrame.map (·.decodedBytes)).getD 0
  else 0

def presentedFrameId (self : Face) : Nat :=
  (self.screen.map (·.core.presentedFrameId)).getD 0

def logicalFrameId (self : Face) : Nat :=
  (self.screen.map (·.core.logicalFrameId)).getD 0

def inkFrozen (self : Face) : Bool := self.screen.any (·.inkFrozen)

/-- Are contacts forwarded to the producer? -/
def forwarding (self : Face) : Bool :=
  self.screen.any (·.touchForwardingEnabled)

/-- The surface reports are for, and whether it follows touch. -/
def target (self : Face) : Session.TouchTarget :=
  self.screen.map fun screen =>
    ((screen.surfaceId, screen.generation), screen.touchForwardingEnabled)

/-- The identifiers of the surface; zeros if there is none. -/
def surfaceKey (self : Face) : Nat × Nat :=
  (self.screen.map fun screen => (screen.surfaceId, screen.generation)).getD
    (0, 0)

/-- Is a cleanup armed, in the core or for the next surface? -/
def cleanupPending (self : Face) : Bool :=
  match self.screen with
  | none => self.cleanupKept
  | some screen => screen.core.forceCleanupNext

/-- The debt of partial updates, in the core or for the next surface. -/
def debt (self : Face) : RefreshDebt :=
  match self.screen with
  | none => self.debtKept
  | some screen => screen.core.refreshDebt

def note (self : Face) (entry : JournalEntry) : Face :=
  { self with journal := ⟨self.panel.calls.length, entry⟩ :: self.journal }

/-- A frame result about a frame, with the credits left now. -/
def resultBody (self : Face) (key : Session.FrameKey)
    (verdict : Session.Verdict) (metrics : Option PresentationMetrics) : Body :=
  .frameResult
    { surfaceId := key.surfaceId
      generation := key.generation
      frameId := key.frameId
      result := wire verdict.result
      reason := wire verdict.reason
      credits := self.credits
      logicalFrameId := self.logicalFrameId
      presentedFrameId := self.presentedFrameId
      metrics := some ((metrics.map Session.frameMetrics).getD {})
      byteCredits := self.byteCredits }

/-- The frame a terminal of the core is about. -/
def terminalKey (self : Face) (terminal : TerminalFrame) : Session.FrameKey :=
  ⟨self.surfaceKey.1, self.surfaceKey.2, terminal.frameId⟩

def terminalBody (self : Face) (terminal : TerminalFrame) : Body :=
  self.resultBody (self.terminalKey terminal)
    (Session.outcomeVerdict self.inkFrozen terminal.outcome)
    (some terminal.metrics)

/-- The core of every screen is coherent, there is no screen before the
handshake, and contacts are forwarded only to a screen and past the menu. -/
structure Sound (face : Face) : Prop where
  coherent : ∀ screen ∈ face.screen, Coherent screen.core
  greeted : face.established = false → face.screen = none
  hidden : face.screen = none → face.touchGesture.forwarded.isEmpty = true
  covered : face.menuVisible = true →
    face.touchGesture.forwarded.isEmpty = true

end Face

/-- What an input batch says about the face. -/
def TruthfulBatch (face : Face) (batch : InputBatch) : Prop :=
  (batch.surfaceId, batch.generation) = face.surfaceKey ∧
    batch.presentedFrameId = face.presentedFrameId ∧
    batch.inkFrozen = face.inkFrozen

/-- What an envelope says about the face; frame results and input batches have
steps of their own. -/
def Truthful (face : Face) : Body → Prop
  | .overlayResult result =>
      result.presentedFrameId = face.presentedFrameId ∧
          result.inkFrozen = face.inkFrozen ∨
        result.applied = false ∧ result.presentedFrameId = 0 ∧
          result.inkFrozen = false
  | .epaperProfileResult result => result.cleanupPending = face.cleanupPending
  | .epaperRefreshResult result =>
      ∃ state, result.active = some state ∧
        state.cleanupPending = face.cleanupPending ∧
        state.presentedSinceFullRefresh =
          face.debt.physicalPartialUpdatesSinceCleanup
  | .frameResult _ | .inputBatch _ => False
  | .clientHello _ | .serverHello _ | .ping _ | .pong _ | .error _ | .goodbye
  | .surfaceOpen _ | .surfaceReady _ | .surfaceClose _ _ | .frame _
  | .keyInput | .textInput | .actionInvoke .. | .actionResult ..
  | .epaperProfileRequest _ | .epaperRefreshRequest _ | .overlayUpdate _ => True

/-- A frame is answered at once with a verdict. -/
def Session.Refuses (session : Session) (frame : Frame)
    (verdict : Session.Verdict) : Prop :=
  session.admitFrame frame = .error verdict ∨
    ∃ surface validated contentClass timing decodeUs err,
      session.admitFrame frame = .ok (surface, validated) ∧
      surface.core.commitTimed validated contentClass timing decodeUs =
        .error err ∧
      verdict = Session.commitResult err

theorem Session.surface_of_admits {session : Session} {frame : Frame}
    {surface : ActiveSurface} {validated : ValidatedFrame}
    (admits : session.admitFrame frame = .ok (surface, validated)) :
    session.surface = some surface := by
  unfold Session.admitFrame at admits
  grind

theorem Session.screen_of_admits {session : Session} {frame : Frame}
    {surface : ActiveSurface} {validated : ValidatedFrame}
    (admits : session.admitFrame frame = .ok (surface, validated)) :
    session.face.screen = some surface.screen := by
  rw [Session.face, Session.surface_of_admits admits, Option.map_some]

namespace Screen

def ignores (self : Screen) (physical : Bool) (captured : Duration)
    (phase : PointerPhase) : Bool :=
  self.inkPaused || physical && decide (captured < self.inkNotBefore) ||
    self.inkNeedsDown && (phase == .move || phase == .up)

/-- Does ink wait for a DOWN after a record? -/
def needsDownAfter (self : Screen) (phase : PointerPhase) : Bool :=
  match phase with
  | .down => false
  | .up | .cancel => true
  | .move | .hover | .unspecified => self.inkNeedsDown

def penContext (self : Screen) : PenContext where
  localInk := self.localInk
  presentedFrameId := self.core.presentedFrameId
  notBefore := self.inkNotBefore
  width := self.core.width
  height := self.core.height

end Screen

/-- A change of the pen state and of the ink plane. -/
inductive InkStep (screen : Screen) : Option JournalEntry → Screen → Prop where
  | rearmed (since : Duration) (paused localInk : Bool) :
      InkStep screen (some (.boundary since paused))
        { screen with
          localInk
          inkPaused := paused
          penPoint := none
          inkNeedsDown := true
          inkNotBefore := max screen.inkNotBefore since }
  | switched (localInk : Bool) (needsDown : screen.inkNeedsDown = true) :
      InkStep screen none { screen with localInk }
  | lost : InkStep screen none { screen with penPoint := none }
  | forgotten :
      InkStep screen none { screen with penPoint := none, lastPen := none }
  | kept (records : List PointerRecord) (lastPen : Option PointerRecord)
      (known : ∀ record ∈ lastPen,
        record ∈ records ∨ screen.lastPen = some record) :
      InkStep screen (some (.penKept records)) { screen with lastPen }
  | cleared :
      InkStep screen (some (.inkCleared screen.core.ink.clear.planes))
        { screen with core := screen.core.setPlane .ink screen.core.ink.clear }
  | ignored {captured : Duration} {physical : Bool} {record : PointerRecord}
      (ignores :
        screen.ignores physical captured (Session.penPhase record) = true) :
      InkStep screen
        (some (.penned captured physical record none screen.penContext
          screen.core.ink.planes))
        screen
  | lifted {captured : Duration} {physical : Bool} {record : PointerRecord}
      (meant : physical = true ∨ Session.penPhase record = .cancel)
      (heeds :
        screen.ignores physical captured (Session.penPhase record) = false)
      (undrawn : screen.localInk = true → screen.core.presentedFrameId ≠ 0 →
        Session.penPhase record ≠ .down ∧ Session.penPhase record ≠ .move) :
      InkStep screen
        (some (.penned captured physical record none screen.penContext
          screen.core.ink.planes))
        { screen with
          inkNeedsDown := screen.needsDownAfter (Session.penPhase record)
          penPoint := none }
  | drew {captured : Duration} {record : PointerRecord}
      {segment : InkSegment} {next : DisplayCore}
      (heeds :
        screen.ignores true captured (Session.penPhase record) = false)
      (live : screen.localInk = true ∧ screen.core.presentedFrameId ≠ 0)
      (draws : Session.penPhase record = .down ∨
        Session.penPhase record = .move)
      (target : segment.target = Session.penPixel screen.core record)
      (origin : segment.origin = screen.penPoint.getD segment.target)
      (edits : screen.core.editPlane .ink (.inkLine segment.origin
        segment.target segment.radius segment.erase) = .ok next) :
      InkStep screen
        (some (.penned captured true record (some segment)
          screen.penContext next.ink.planes))
        { screen with
          inkNeedsDown := screen.needsDownAfter (Session.penPhase record)
          penPoint := some segment.target
          core := next }

/-- What is still to be reported: terminal frames of the core, touch events for
the producer, and the cleanup of a chord.  Contacts may be loose: not detached
yet although the producer must not see them any more. -/
structure Owed where
  terminals : List TerminalFrame := []
  touches : List PhysicalPointerEvent := []
  chord : Bool := false
  loose : Bool := false

/-- A face with what is still to be reported. -/
structure Station where
  face : Face
  owed : Owed

/-- Steps of the core a session takes without further conditions. -/
def Plain : Action → Prop
  | .cancel | .edit .menu _ | .edit .peer _ | .present | .draw _
  | .resubmit => True
  | .commit _ | .freeze | .edit .ink _ | .adjust => False

/-- A core as it is created for a new surface. -/
structure Opens (face : Face) (core : DisplayCore) : Prop where
  coherent : Coherent core
  ids : core.logicalFrameId = 0 ∧ core.presentedFrameId = 0
  idle : core.pending = none
  invalid : core.baseValid = false
  cleanup : core.forceCleanupNext = face.cleanupKept
  debt : core.refreshDebt = face.debtKept
  kept : face.debtKept = face.debt
  pending : face.cleanupPending = true → face.cleanupKept = true

/-- What may be carried to a later surface. -/
inductive Carries (face : Face) : Bool → RefreshDebt → Prop where
  | debt : Carries face face.cleanupKept face.debt
  | cleanup : Carries face face.cleanupPending face.debtKept
  | both : Carries face (face.cleanupKept || face.cleanupPending) face.debt

/-- How a report reaches the gesture recognizer: is it forwarded, may it ask
for a cleanup, and are the contacts loose afterwards? -/
inductive TouchMode (face : Face) (captured : Duration) :
    Bool → Bool → Bool → Prop where
  | direct (hidden : face.menuVisible = false)
      (current : face.inputNotBefore ≤ captured) :
      TouchMode face captured face.forwarding face.screen.isSome false
  | consumed (shown : face.menuVisible = true)
      (current : face.inputNotBefore ≤ captured) :
      TouchMode face captured false false false
  | stale (old : captured < face.inputNotBefore) :
      TouchMode face captured false false true

/-- Contacts that are suppressed or gone cannot be loose. -/
def FiveFingerCleanupGesture.settled (self : FiveFingerCleanupGesture) : Bool :=
  self.suppressUntilClear || self.active.isEmpty

/-- Where the records of a batch come from: they are owed touch events, or
records of a pen report, or there are none. -/
inductive BatchSource (face : Face) (owed : Owed) :
    List PointerRecord → Owed → Prop where
  | touches {events rest : List PhysicalPointerEvent}
      (due : owed.touches = events ++ rest) :
      BatchSource face owed (events.map Session.pointerRecord)
        { owed with touches := rest }
  | pen {record : JournalRecord} {records : List PointerRecord}
      (member : record ∈ face.journal) (kept : record.entry = .penKept records) :
      BatchSource face owed records owed
  | empty : BatchSource face owed [] owed

/-- One step of the face, with the entries it writes. -/
inductive FaceStep : Station → List JournalEntry → Station → Prop where
  | core {face : Face} {screen : Screen} {action : Action} {owed : Owed}
      {terminals : List TerminalFrame} {world : World}
      (shown : face.screen = some screen) (plain : Plain action)
      (step : CoreStep ⟨screen.core, face.panel⟩ action terminals world) :
      FaceStep ⟨face, owed⟩ []
        ⟨{ face with
            panel := world.panel
            screen := some { screen with core := world.core } },
          { owed with terminals := owed.terminals ++ terminals }⟩
  | configured {face : Face} {screen : Screen} {owed : Owed}
      {config : RefreshPolicyConfig} {changed : Bool} {next : DisplayCore}
      (shown : face.screen = some screen)
      (updates : screen.core.updateRefreshConfig config = .ok (changed, next)) :
      FaceStep ⟨face, owed⟩ []
        ⟨{ face with screen := some { screen with core := next } }, owed⟩
  | noted {face : Face} {screen : Screen} {owed : Owed}
      (shown : face.screen = some screen) (failure : Option Duration) :
      FaceStep ⟨face, owed⟩ []
        ⟨{ face with
            screen := some { screen with
              core := { screen.core with lastIdleCleanupFailure := failure } } },
          owed⟩
  | asked {face : Face} {screen : Screen} {owed : Owed}
      (shown : face.screen = some screen) (cause : CleanupCause)
      (due : cause = .chord → owed.chord = true) :
      FaceStep ⟨face, owed⟩ [.asked cause]
        ⟨{ face.note (.asked cause) with
            screen := some { screen with core := screen.core.requireCleanup } },
          { owed with chord := owed.chord && cause != .chord }⟩
  | armed {face : Face} {owed : Owed} (hidden : face.screen = none)
      (cause : CleanupCause) (requested : cause = .request ∨ cause = .profile) :
      FaceStep ⟨face, owed⟩ [.asked cause]
        ⟨{ face.note (.asked cause) with cleanupKept := true }, owed⟩
  | overlooked {face : Face} {owed : Owed} (hidden : face.screen = none) :
      FaceStep ⟨face, owed⟩ [.asked .offscreen]
        ⟨face.note (.asked .offscreen), owed⟩
  | frozen {face : Face} {screen : Screen} {owed : Owed}
      (shown : face.screen = some screen) (live : screen.inkFrozen = false)
      (presented : screen.core.presentedFrameId ≠ 0) :
      FaceStep ⟨face, owed⟩
        [.froze screen.core.presentedFrameId screen.core.presentedBase]
        ⟨{ face.note (.froze screen.core.presentedFrameId
              screen.core.presentedBase) with
            screen := some { screen with
              inkFrozen := true
              core := screen.core.freezePresented.2 } },
          { owed with
            terminals :=
              owed.terminals ++ screen.core.freezePresented.1.toList }⟩
  | released {face : Face} {screen : Screen} {owed : Owed}
      (shown : face.screen = some screen) (frozen : screen.inkFrozen = true) :
      FaceStep ⟨face, owed⟩ [.released]
        ⟨{ face.note .released with
            screen := some { screen with inkFrozen := false } }, owed⟩
  | accepted {session : Session} {surface : ActiveSurface} {frame : Frame}
      {validated : ValidatedFrame} {contentClass : ContentClass}
      {timing : Timing} {decodeUs : Nat} {report : CommitReport}
      {next : DisplayCore} {owed : Owed}
      (admits : session.admitFrame frame = .ok (surface, validated))
      (commits : surface.core.commitTimed validated contentClass timing
        decodeUs = .ok (report, next)) :
      FaceStep ⟨session.face, owed⟩ [.accepted frame validated]
        ⟨{ session.face.note (.accepted frame validated) with
            screen := some { surface.screen with core := next } },
          { owed with
            terminals := owed.terminals ++ report.superseded.toList }⟩
  | refused {session : Session} {frame : Frame} {verdict : Session.Verdict}
      {body : Body} {owed : Owed} (greeted : session.established = true)
      (refuses : session.Refuses frame verdict)
      (answers : body = session.face.resultBody
        ⟨frame.surfaceId, frame.generation, frame.frameId⟩ verdict none) :
      FaceStep ⟨session.face, owed⟩
        [.refused frame, .sent body session.face.pendingFrame]
        ⟨(session.face.note (.refused frame)).note
          (.sent body session.face.pendingFrame), owed⟩
  | reported {face : Face} {terminal : TerminalFrame} {body : Body}
      {owed : Owed} {rest : List TerminalFrame}
      (due : owed.terminals = terminal :: rest)
      (answers : body = face.terminalBody terminal) :
      FaceStep ⟨face, owed⟩ [.sent body face.pendingFrame]
        ⟨face.note (.sent body face.pendingFrame),
          { owed with terminals := rest }⟩
  | sent {face : Face} {body : Body} {owed : Owed}
      (truthful : Truthful face body) :
      FaceStep ⟨face, owed⟩ [.sent body face.pendingFrame]
        ⟨face.note (.sent body face.pendingFrame), owed⟩
  | batched {face : Face} {batch : InputBatch} {owed left : Owed}
      (truthful : TruthfulBatch face batch)
      (source : BatchSource face owed batch.records left) :
      FaceStep ⟨face, owed⟩ [.sent (.inputBatch batch) face.pendingFrame]
        ⟨face.note (.sent (.inputBatch batch) face.pendingFrame), left⟩
  | carried {face : Face} {owed : Owed} {cleanup : Bool} {debt : RefreshDebt}
      (carries : Carries face cleanup debt) :
      FaceStep ⟨face, owed⟩ []
        ⟨{ face with cleanupKept := cleanup, debtKept := debt }, owed⟩
  | opened {face : Face} {core : DisplayCore} (greeted : face.established = true)
      (idle : face.pendingFrame = none) (surfaceId generation : Nat)
      (touchForwardingEnabled : Bool) (opens : Opens face core) :
      FaceStep ⟨face, {}⟩
        [.opened surfaceId generation core.ink.planes
          (core.forceCleanupNext && !face.cleanupPending)]
        ⟨{ face.note (.opened surfaceId generation core.ink.planes
              (core.forceCleanupNext && !face.cleanupPending)) with
            touchGesture := face.touchGesture.surfaceTransition.2
            menuVisible := false
            screen := some
              { surfaceId
                generation
                touchForwardingEnabled
                localInk := false
                inkFrozen := false
                penPoint := none
                lastPen := none
                inkPaused := false
                inkNeedsDown := true
                inkNotBefore := face.inputNotBefore
                core } }, {}⟩
  | closed {face : Face} (idle : face.pendingFrame = none)
      (kept : face.cleanupKept = face.cleanupPending ∧
        face.debtKept = face.debt) :
      FaceStep ⟨face, {}⟩ [.closed]
        ⟨{ face.note .closed with
            touchGesture := face.touchGesture.surfaceTransition.2
            menuVisible := false
            screen := none }, {}⟩
  | clocked {face : Face} {owed : Owed} (now : Duration) :
      FaceStep ⟨face, owed⟩ [.clocked now]
        ⟨{ face.note (.clocked now) with inputNotBefore := now }, owed⟩
  | inked {face : Face} {screen next : Screen} {entry : Option JournalEntry}
      {owed : Owed} (shown : face.screen = some screen)
      (step : InkStep screen entry next) :
      FaceStep ⟨face, owed⟩ entry.toList
        ⟨{ entry.elim face face.note with screen := some next }, owed⟩
  | touched {face : Face} {captured : Duration}
      {forwards cleans loosens : Bool} (report : List PhysicalPointerEvent)
      (mode : TouchMode face captured forwards cleans loosens) :
      FaceStep ⟨face, {}⟩
        [.touched captured report
          (face.touchGesture.process report forwards cleans).1]
        ⟨{ face.note (.touched captured report
              (face.touchGesture.process report forwards cleans).1) with
            touchGesture :=
              (face.touchGesture.process report forwards cleans).2 },
          { touches :=
              (face.touchGesture.process report forwards cleans).1.cancelForwarded ++
              (face.touchGesture.process report forwards cleans).1.forward
            chord :=
              (face.touchGesture.process report forwards cleans).1.cleanupRequested
            loose := loosens }⟩
  | detached {face : Face} {owed : Owed}
      (ending : ∀ event ∈ owed.touches, event.phase = .cancel) :
      FaceStep ⟨face, owed⟩ [.detached]
        ⟨{ face.note .detached with
            touchGesture := face.touchGesture.surfaceTransition.2 },
          { owed with
            touches := owed.touches ++ face.touchGesture.surfaceTransition.1
            loose := false }⟩
  | menu {face : Face} {owed : Owed} (visible : Bool)
      (free : face.touchGesture.forwarded.isEmpty = true)
      (told : owed.touches = []) :
      FaceStep ⟨face, owed⟩ [.menu visible]
        ⟨{ face.note (.menu visible) with menuVisible := visible },
          { owed with
            loose := owed.loose || !visible && !face.touchGesture.settled }⟩
  | captureLost {face : Face} {owed : Owed} :
      FaceStep ⟨face, owed⟩ [.captureLost]
        ⟨{ face.note .captureLost with touchGesture := {} }, owed⟩
  | fallback {face : Face} {owed : Owed} (hidden : face.screen = none)
      (pixels : PixelSurface) (damage : List Rect)
      (decision : RefreshDecision) :
      FaceStep ⟨face, owed⟩ []
        ⟨{ face with
            panel := face.panel.afterSubmit .fallback pixels damage decision },
          owed⟩
  | greeted {face : Face} {owed : Owed} (first : face.established = false)
      (byteCreditsEnabled : Bool) :
      FaceStep ⟨face, owed⟩ []
        ⟨{ face with byteCreditsEnabled, established := true }, owed⟩
  | ended {face : Face} {owed : Owed} :
      FaceStep ⟨face, owed⟩ [] ⟨{ face with closed := true }, owed⟩
  | forgotten {face : Face} {owed : Owed} (closed : face.closed = true) :
      FaceStep ⟨face, owed⟩ [] ⟨face, { owed with terminals := [] }⟩

/-- A sequence of steps with the entries they write, the earliest first. -/
inductive Steps : Station → List JournalEntry → Station → Prop where
  | nil {station : Station} : Steps station [] station
  | cons {before middle after : Station} {entries more : List JournalEntry}
      (step : FaceStep before entries middle) (rest : Steps middle more after) :
      Steps before (entries ++ more) after

namespace Steps

variable {before middle after : Station} {entries more : List JournalEntry}

theorem single (step : FaceStep before entries after) :
    Steps before entries after := by
  simpa using Steps.cons step .nil

theorem append (first : Steps before entries middle)
    (second : Steps middle more after) :
    Steps before (entries ++ more) after := by
  induction first with
  | nil => exact second
  | cons step _ induction =>
      rw [List.append_assoc]
      exact .cons step (induction second)

/-- What every step keeps, a sequence keeps. -/
theorem keeps (inv : Station → Prop) (steps : Steps before entries after)
    (preserved : ∀ {station next : Station} {done : List JournalEntry},
      FaceStep station done next → inv station → inv next)
    (atStart : inv before) : inv after := by
  induction steps with
  | nil => exact atStart
  | cons step _ induction => exact induction (preserved step atStart)

end Steps

theorem coherent_clearInk {core : DisplayCore} (coherent : Coherent core) :
    Coherent (core.setPlane .ink core.ink.clear) :=
  @coherent_edit _ _ .ink .clear coherent rfl

theorem InkStep.coherent {screen next : Screen} {entry : Option JournalEntry}
    (step : InkStep screen entry next) (coherent : Coherent screen.core) :
    Coherent next.core := by
  cases step with
  | cleared => exact coherent_clearInk coherent
  | drew _ _ _ _ _ edits => exact coherent_edit coherent edits
  | _ => exact coherent

namespace Face.Sound

variable {face : Face} {screen : Screen}

/-- A screen is replaced by another coherent one. -/
theorem change (sound : face.Sound) (next : Screen)
    (shown : face.screen = some screen) (coherent : Coherent next.core) {panel : Panel}
    {journal : List JournalRecord} :
    ({ face with panel, journal, screen := some next } : Face).Sound where
  coherent := fun _ same => by
    cases same
    exact coherent
  greeted := fun fresh => by
    rw [sound.greeted fresh] at shown
    cases shown
  hidden := nofun
  covered := sound.covered

theorem gestured (sound : face.Sound) {journal : List JournalRecord}
    {touchGesture : FiveFingerCleanupGesture}
    (free : face.screen = none ∨ face.menuVisible = true →
      touchGesture.forwarded.isEmpty = true) :
    ({ face with journal, touchGesture } : Face).Sound where
  coherent := sound.coherent
  greeted := sound.greeted
  hidden := fun hidden => free (.inl hidden)
  covered := fun shown => free (.inr shown)

end Face.Sound

theorem FaceStep.sound {before after : Station} {entries : List JournalEntry}
    (step : FaceStep before entries after) (sound : before.face.Sound) :
    after.face.Sound := by
  cases step with
  | core shown plain step =>
      exact sound.change _ shown (step.coherent (sound.coherent _ shown))
  | configured shown updates =>
      exact sound.change _ shown
        ((Adjusts.configured updates).coherent (sound.coherent _ shown))
  | @noted _ screen _ shown failure =>
      exact sound.change { screen with core := _ } shown
        (Adjusts.noted.coherent (sound.coherent _ shown))
  | asked shown _ _ =>
      exact sound.change _ shown
        (Adjusts.armed.coherent (sound.coherent _ shown))
  | frozen shown _ _ =>
      exact sound.change _ shown (coherent_freeze (sound.coherent _ shown))
  | @released _ screen _ shown _ =>
      exact sound.change { screen with inkFrozen := false } shown
        (sound.coherent screen shown)
  | @inked _ _ _ entry _ shown step =>
      have changed := step.coherent (sound.coherent _ shown)
      cases entry with
      | none => exact sound.change _ shown changed
      | some entry => exact sound.change _ shown changed
  | @accepted session surface _ _ _ _ _ _ _ _ admits commits =>
      have isScreen := Session.screen_of_admits admits
      exact sound.change { surface.screen with core := _ } isScreen
        (coherent_commit (sound.coherent _ isScreen) commits)
  | armed _ _ _ | overlooked _ | refused _ _ _ | reported _ _ | sent _
  | batched _ _ | carried _ | clocked _ | fallback _ _ _ _ | ended
  | forgotten _ =>
      exact ⟨sound.coherent, sound.greeted, sound.hidden, sound.covered⟩
  | opened isGreeted _ _ _ _ opens =>
      refine ⟨fun _ same => ?_, fun fresh => ?_, nofun, nofun⟩
      · cases same
        exact opens.coherent
      · change _ = false at fresh
        simp [Face.note, isGreeted] at fresh
  | closed _ _ =>
      refine ⟨fun _ missing => (nomatch missing), fun _ => rfl, fun _ => ?_,
        fun shown => ?_⟩
      · exact FiveFingerCleanupGesture.forwarded_surfaceTransition _
      · cases shown
  | @touched face _ _ _ _ report mode =>
      refine sound.gestured ?_
      rintro (hidden | shown)
      · cases mode with
        | direct _ _ =>
            have blind : face.forwarding = false := by
              rw [Face.forwarding, show face.screen = none from hidden]
              rfl
            rw [blind]
            exact FiveFingerCleanupGesture.forwarded_process
              (sound.hidden hidden)
        | consumed _ _ | stale _ =>
            exact FiveFingerCleanupGesture.forwarded_process
              (sound.hidden hidden)
      · cases mode with
        | direct covered _ =>
            rw [covered] at shown
            cases shown
        | consumed _ _ | stale _ =>
            exact FiveFingerCleanupGesture.forwarded_process
              (sound.covered shown)
  | detached _ =>
      refine sound.gestured fun _ => ?_
      exact FiveFingerCleanupGesture.forwarded_surfaceTransition _
  | captureLost =>
      refine sound.gestured fun _ => ?_
      exact Std.TreeMap.isEmpty_emptyc
  | menu _ free _ =>
      exact ⟨sound.coherent, sound.greeted, sound.hidden, fun _ => free⟩
  | greeted _ _ => exact ⟨sound.coherent, nofun, sound.hidden, sound.covered⟩

theorem FaceStep.stillClosed {before after : Station}
    {entries : List JournalEntry} (step : FaceStep before entries after)
    (closed : before.face.closed = true) : after.face.closed = true := by
  cases step with
  | ended => rfl
  | @inked _ _ _ entry _ _ _ =>
      cases entry <;> exact closed
  | _ => exact closed

theorem Steps.stillClosed {before after : Station}
    {entries : List JournalEntry} (steps : Steps before entries after)
    (closed : before.face.closed = true) : after.face.closed = true :=
  steps.keeps (fun station => station.face.closed = true) FaceStep.stillClosed
    closed

theorem Steps.stillOpen {before after : Station}
    {entries : List JournalEntry} (steps : Steps before entries after)
    (isOpen : after.face.closed = false) : before.face.closed = false := by
  rw [Bool.eq_false_iff] at isOpen ⊢
  exact fun closed => isOpen (steps.stillClosed closed)

namespace JournalEntry

/-- Does another surface or none become active? -/
def moves : JournalEntry → Bool
  | .opened .. | .closed => true
  | _ => false

/-- Does the gesture recognizer take part? -/
def gestures : JournalEntry → Bool
  | .touched .. | .detached | .captureLost | .opened .. | .closed => true
  | _ => false

end JournalEntry

theorem FaceStep.journal {before after : Station} {entries : List JournalEntry}
    (step : FaceStep before entries after) :
    after.face.journal.map (·.entry) =
      entries.reverse ++ before.face.journal.map (·.entry) := by
  cases step with
  | @inked _ _ _ entry _ _ _ => cases entry <;> rfl
  | _ => rfl

theorem InkStep.target {screen next : Screen} {entry : Option JournalEntry}
    (step : InkStep screen entry next) :
    ((next.surfaceId, next.generation), next.touchForwardingEnabled) =
      ((screen.surfaceId, screen.generation),
        screen.touchForwardingEnabled) := by
  cases step <;> rfl

/-- Only opening and closing change what is the active surface. -/
theorem FaceStep.target {before after : Station} {entries : List JournalEntry}
    (step : FaceStep before entries after)
    (stays : ∀ entry ∈ entries, entry.moves = false) :
    after.face.target = before.face.target := by
  cases step with
  | core shown _ _ | configured shown _ | noted shown _ | asked shown _ _
  | frozen shown _ _ | released shown _ =>
      simp [Face.target, shown]
  | @inked face screen next entry _ shown step =>
      have same := step.target
      have kept : (entry.elim face face.note : Face).screen = face.screen := by
        cases entry <;> rfl
      simp only [Face.target, shown, Option.map_some, same]
  | accepted admits _ =>
      simp [Face.target, Session.screen_of_admits admits, ActiveSurface.screen]
  | opened _ _ _ _ _ _ | closed _ _ =>
      cases stays _ (List.mem_singleton_self _)
  | _ => rfl

/-- Only touch, opening and closing change what is known of the contacts. -/
theorem FaceStep.gesture {before after : Station} {entries : List JournalEntry}
    (step : FaceStep before entries after)
    (rests : ∀ entry ∈ entries, entry.gestures = false) :
    after.face.touchGesture = before.face.touchGesture := by
  cases step with
  | touched _ _ | detached _ | captureLost | opened _ _ _ _ _ _ | closed _ _ =>
      cases rests _ (List.mem_singleton_self _)
  | @inked _ _ _ entry _ _ _ => cases entry <;> rfl
  | _ => rfl

namespace Steps

variable {before after : Station} {entries : List JournalEntry}

theorem journal (steps : Steps before entries after) :
    after.face.journal.map (·.entry) =
      entries.reverse ++ before.face.journal.map (·.entry) := by
  induction steps with
  | nil => rfl
  | cons step _ induction =>
      rw [induction, step.journal, List.reverse_append, List.append_assoc]

theorem target (steps : Steps before entries after)
    (stays : ∀ entry ∈ entries, entry.moves = false) :
    after.face.target = before.face.target := by
  induction steps with
  | nil => rfl
  | cons step _ induction =>
      rw [induction fun entry member =>
          stays entry (List.mem_append_right _ member),
        step.target fun entry member =>
          stays entry (List.mem_append_left _ member)]

theorem gesture (steps : Steps before entries after)
    (rests : ∀ entry ∈ entries, entry.gestures = false) :
    after.face.touchGesture = before.face.touchGesture := by
  induction steps with
  | nil => rfl
  | cons step _ induction =>
      rw [induction fun entry member =>
          rests entry (List.mem_append_right _ member),
        step.gesture fun entry member =>
          rests entry (List.mem_append_left _ member)]

end Steps

end RmDisplay.Receiver
