import RmDisplay.Receiver.FrameOutcomes
import RmDisplay.Receiver.FrameResults
import RmDisplay.Receiver.NumberingSteps
import RmDisplay.Receiver.SessionRuns

/-!
# The terms of a session

The codecs, the limits and the display of a session stay as they are, and the
handshake alone decides on byte credits.  So a surface that was announced keeps
the size and the limits of its announcement, and whatever frame was accepted was
decoded with the same codecs.
-/

namespace RmDisplay.Receiver

open Foundation Protocol RmDisplay.Core Core.DisplayCore

/-- The panel stays the same display, whatever it answers. -/
def sameDisplay : Emission World Unit :=
  .ofRelation (fun before after => after.panel.info = before.panel.info)
    (fun _ => rfl) fun earlier later => later.trans earlier

section

variable {timing : Timing}

theorem pump_sameDisplay : sameDisplay.Emits pump fun _ => [] :=
  .of_from fun _ => .get (.set rfl (.pure rfl))

theorem submit_sameDisplay {origin : Origin} {pixels : PixelSurface}
    {damage : List Rect} {decision : RefreshDecision} :
    sameDisplay.Emits (submit origin pixels damage decision) fun _ => [] :=
  .of_from fun _ => .get (.set rfl (.pure rfl))

theorem presentFrame_sameDisplay {pending : PendingPresentation}
    {prepared : Prepared} :
    sameDisplay.Emits (presentFrame timing pending prepared) fun _ => [] := by
  refine .of_from fun world => .get (.ite (fun _ => ?_) fun _ => ?_)
  · exact .modify rfl (.pure rfl)
  · refine .quiet submit_sameDisplay fun metrics between => ?_
    cases metrics with
    | none => exact .modify rfl (.pure rfl)
    | some metrics => exact .ofRes fun after _ => .modify rfl (.pure rfl)

theorem tickInner_sameDisplay {ignoreDeadline : Bool} :
    sameDisplay.Emits (tickInner timing ignoreDeadline) fun _ => [] := by
  refine .of_from fun world => .get ?_
  cases world.core.pending with
  | none => exact .pure rfl
  | some pending =>
      refine .ite (fun _ => .pure rfl) fun _ => ?_
      refine .quiet pump_sameDisplay fun pumped between => ?_
      refine .ite (fun _ => .modify rfl (.pure rfl)) fun _ => ?_
      exact .modify rfl (.ofRes fun prepared _ => .all presentFrame_sameDisplay)

theorem drawPlane_sameDisplay {intent : FrameIntent} :
    sameDisplay.Emits (drawPlane timing intent) fun _ => [] := by
  refine .of_from fun world => .get (.modify rfl ?_)
  refine .ite (fun _ => .pure rfl) fun _ => ?_
  refine .ofRes fun working _ => .modify rfl (.ofRes fun damage _ => ?_)
  refine .ite (fun _ => .pure rfl) fun _ => .get ?_
  refine .quiet submit_sameDisplay fun metrics between => ?_
  cases metrics with
  | none => exact .throw
  | some metrics => exact .ofRes fun after _ => .finish rfl rfl

theorem presentPlane_sameDisplay {intent : FrameIntent} :
    sameDisplay.Emits (presentPlane timing intent) fun _ => [] := by
  refine .of_from fun world => .get (.ite (fun _ => ?_) fun _ => ?_)
  · exact .quiet tickInner_sameDisplay fun _ _ =>
      .quiet drawPlane_sameDisplay fun _ _ => .pure rfl
  · exact .after (.quiet drawPlane_sameDisplay fun _ _ => .pure rfl)

theorem cleanupFailed_sameDisplay :
    sameDisplay.Emits cleanupFailed fun _ => [] :=
  .of_from fun _ => .get (.modify rfl (.pure rfl))

theorem requestCleanup_sameDisplay :
    sameDisplay.Emits (DisplayCore.requestCleanup timing) fun _ => [] := by
  refine .of_from fun world => .get (.modify rfl ?_)
  refine .ite (fun _ => ?_) fun _ => .ite (fun _ => .pure rfl) fun _ => ?_
  · exact .quiet tickInner_sameDisplay fun _ _ => .get (.pure rfl)
  · refine .quiet pump_sameDisplay fun pumped between => ?_
    refine .ite (fun _ => .all cleanupFailed_sameDisplay) fun _ => .get ?_
    refine .quiet submit_sameDisplay fun metrics between => ?_
    cases metrics with
    | none => exact .all cleanupFailed_sameDisplay
    | some metrics => exact .modify rfl (.pure rfl)

theorem changeRefreshProfile_sameDisplay {config : RefreshPolicyConfig} :
    sameDisplay.Emits (DisplayCore.changeRefreshProfile config timing)
      fun _ => [] := by
  refine .of_from fun world => .get (.ofRes fun updated _ => .modify rfl ?_)
  dsimp only
  split
  · exact .quiet requestCleanup_sameDisplay fun _ _ => .pure rfl
  · exact .after (.pure rfl)

theorem tickInteractive_sameDisplay {idle : Bool} :
    sameDisplay.Emits (tickInteractive timing idle) fun _ => [] := by
  refine .of_from fun world => .get (.ite (fun _ => ?_) fun _ => ?_)
  · exact .quiet requestCleanup_sameDisplay fun report between =>
      .get (.modify rfl (.pure rfl))
  · exact .all tickInner_sameDisplay

theorem onCore_sameDisplay {α : Type} {reply : α → CoreReply}
    {operation : DisplayCore → Res CoreError (α × DisplayCore)} :
    sameDisplay.Emits (onCore reply operation) fun _ => [] :=
  .of_from fun _ => .get (.ofRes fun _ _ => .modify rfl (.pure rfl))

end

namespace Session

/-- What an entry tells of the terms. -/
def Tells (self : Session) : JournalEntry → Prop
  | .accepted frame validated =>
      ∃ surface, validateAndDecodeFrame self.codecs frame surface =
        .ok validated
  | .opened _ _ planes _ =>
      planes.luma.length = self.panel.info.width * self.panel.info.height
  | .sent (.surfaceReady ready) _ =>
      self.established = true ∧ ready.limits = some self.protocolLimits ∧
        ready.width = self.panel.info.width ∧
        ready.height = self.panel.info.height
  | _ => True

def terms (self : Session) :
    Codecs × ReceiverLimits × PanelInfo × Bool × Bool :=
  (self.codecs, self.config.limits, self.panel.info, self.established,
    self.byteCreditsEnabled)

end Session

/-- The terms are kept, and the new entries tell of them. -/
structure Keeps (before after : Session) : Prop where
  codecs : after.codecs = before.codecs
  limits : after.config.limits = before.config.limits
  display : after.panel.info = before.panel.info
  credits : before.established = true → after.established = true ∧
    after.byteCreditsEnabled = before.byteCreditsEnabled
  entries : ∃ new, after.journal = new ++ before.journal ∧
    ∀ record ∈ new, after.Tells record.entry

namespace Keeps

variable {first second third : Session} {record : JournalRecord}

/-- What was told stays true. -/
theorem tells (keeps : Keeps first second) {entry : JournalEntry}
    (told : first.Tells entry) : second.Tells entry := by
  unfold Session.Tells at told ⊢
  split
  · rw [keeps.codecs]
    exact told
  · rw [keeps.display]
    exact told
  · obtain ⟨greeted, isLimits, isSize⟩ := told
    obtain ⟨stays, same⟩ := keeps.credits greeted
    refine ⟨stays, isLimits.trans ?_, ?_⟩
    · unfold Session.protocolLimits
      rw [keeps.limits, same]
    · rw [keeps.display]
      exact isSize
  · trivial

theorem trans (earlier : Keeps first second) (later : Keeps second third) :
    Keeps first third := by
  obtain ⟨new, journal, told⟩ := earlier.entries
  obtain ⟨newer, further, toldLater⟩ := later.entries
  refine ⟨later.codecs.trans earlier.codecs,
    later.limits.trans earlier.limits, later.display.trans earlier.display,
    fun greeted => ?_, newer ++ new, ?_, fun record member => ?_⟩
  · obtain ⟨stays, same⟩ := earlier.credits greeted
    obtain ⟨still, sameLater⟩ := later.credits stays
    exact ⟨still, sameLater.trans same⟩
  · rw [further, journal, List.append_assoc]
  · rcases List.mem_append.mp member with new | old
    · exact toldLater record new
    · exact later.tells (told record old)

/-- Nothing is written. -/
theorem quiet (terms : second.terms = first.terms)
    (journal : second.journal = first.journal) : Keeps first second where
  codecs := congrArg (·.1) terms
  limits := congrArg (·.2.1) terms
  display := congrArg (·.2.2.1) terms
  credits := fun greeted => ⟨(congrArg (·.2.2.2.1) terms).trans greeted,
    congrArg (·.2.2.2.2) terms⟩
  entries := ⟨[], journal, List.forall_mem_nil _⟩

/-- One entry is written. -/
theorem noted (terms : second.terms = first.terms)
    (journal : second.journal = record :: first.journal)
    (told : second.Tells record.entry) : Keeps first second where
  codecs := congrArg (·.1) terms
  limits := congrArg (·.2.1) terms
  display := congrArg (·.2.2.1) terms
  credits := fun greeted => ⟨(congrArg (·.2.2.2.1) terms).trans greeted,
    congrArg (·.2.2.2.2) terms⟩
  entries := ⟨[record], journal, fun other member => by
    rw [List.mem_singleton.mp member]
    exact told⟩

theorem refl (session : Session) : Keeps session session := .quiet rfl rfl

end Keeps

/-- What is handed out does not matter here. -/
def keeping : Emission Session Unit :=
  .ofRelation Keeps Keeps.refl Keeps.trans

namespace Session

section

variable {before after : Session} {now : Duration} {physical : Bool}

theorem wrap_keeps {body : Body}
    (told : ∀ (session : Session) (pending : Option PendingPresentation),
      session.Tells (.sent body pending)) :
    keeping.Emits (wrap body) fun _ => [] := by
  intro before output after runs
  obtain ⟨rfl, rfl⟩ := wrap_runs runs
  exact Keeps.noted rfl rfl (told _ _)

theorem terminalResult_keeps {terminal : TerminalFrame} :
    keeping.Emits (terminalResult terminal) fun _ => [] :=
  .of_from fun _ => .get (.get (.all (wrap_keeps fun _ _ => trivial)))

theorem terminalResults_keeps {terminals : List TerminalFrame} :
    keeping.Emits (terminalResults terminals) fun _ => [] := by
  refine .gatherQuiet (fun terminal => ?_) terminals
  exact .of_from fun _ => .quiet terminalResult_keeps fun _ _ => .pure rfl

theorem readStopwatch_keeps : keeping.Emits readStopwatch fun _ => [] :=
  .of_from fun _ => .get (.set (Keeps.quiet rfl rfl) (.pure rfl))

theorem runCore_keeps {α : Type} {operation : Timing → CoreProc α}
    (same : ∀ timing, sameDisplay.Emits (operation timing) fun _ => []) :
    keeping.Emits (runCore now operation) fun _ => [] := by
  refine .of_from fun session =>
    .quiet readStopwatch_keeps fun stopwatch between => .get ?_
  split
  · exact .panic
  · refine .zoom (fun world display => ?_) (same _)
    exact ⟨rfl, rfl, display, fun greeted => ⟨greeted, rfl⟩, [], rfl,
      List.forall_mem_nil _⟩

theorem noteFrozen_keeps (session : Session) (earlier later : ActiveSurface) :
    Keeps session (session.noteFrozen earlier later) := by
  unfold noteFrozen
  split
  · exact .noted rfl rfl trivial
  · exact .noted rfl rfl trivial
  · exact .refl session
  · exact .refl session

theorem askCore_keeps {α : Type} {cause : CleanupCause} {asks : Bool}
    {operation : Timing → CoreProc α}
    (same : ∀ timing, sameDisplay.Emits (operation timing) fun _ => []) :
    keeping.Emits (askCore cause asks now operation) fun _ => [] := by
  refine .of_from fun session => .modify ?_ (.all (runCore_keeps same))
  split
  · exact Keeps.noted rfl rfl trivial
  · exact Keeps.refl session

theorem cancelPending_keeps : keeping.Emits cancelPending fun _ => [] := by
  refine .of_from fun session => .get ?_
  split
  · exact .pure rfl
  · exact .set (Keeps.quiet rfl rfl) (.pure rfl)

theorem refuseFrame_keeps {frame : Frame} {verdict : Verdict} :
    keeping.Emits (refuseFrame frame verdict) fun _ => [] := by
  refine .of_from fun _ => .modify (Keeps.noted rfl rfl trivial) ?_
  refine .quiet ?_ fun _ _ => .pure rfl
  exact .of_from fun _ => .get (.get (.all (wrap_keeps fun _ _ => trivial)))

/-- A frame is accepted once it was decoded with the codecs of the session. -/
theorem acceptFrame_keeps {frame : Frame} :
    keeping.Emits (acceptFrame frame now) fun _ => [] := by
  refine .of_from fun session => .get ?_
  split
  · exact .all refuseFrame_keeps
  · rename_i surface validated admits
    have decodes : ∃ surface, validateAndDecodeFrame session.codecs frame
        surface = .ok validated := ⟨_, validates_of_admitFrame admits⟩
    refine .computes rfl (Keeps.quiet rfl rfl) ?_
    split
    · refine .modify ?_ (.all terminalResults_keeps)
      exact Keeps.noted rfl rfl decodes
    · exact .all refuseFrame_keeps
    · exact .panic

/-- The planes of a fresh core cover the display. -/
theorem planes_newCore {session : Session} {pixelFormat : PixelFormat}
    {core : DisplayCore} (fresh : session.newCore pixelFormat = .ok core) :
    core.ink.planes.luma.length =
      session.panel.info.width * session.panel.info.height := by
  obtain ⟨first, created, restored⟩ := Res.bind_eq_ok.mp fresh
  obtain ⟨_, _, isCore⟩ := Res.bind_eq_ok.mp restored
  have sameInk : core.ink = first.ink := by
    cases isCore
    cases session.carryCleanup <;> rfl
  obtain ⟨_, _, created⟩ := Res.bind_eq_ok.mp created
  obtain ⟨_, _, created⟩ := Res.bind_eq_ok.mp created
  obtain ⟨plane, made, isFirst⟩ := Res.bind_eq_ok.mp created
  rw [Res.mapError_eq_ok] at made
  obtain ⟨len, isLen, isPlane⟩ := Res.bind_eq_ok.mp made
  obtain ⟨_, rfl, _⟩ := pixelLen_eq_ok.mp isLen
  cases isPlane
  cases isFirst
  rw [sameInk]
  exact List.length_replicate

/-- A surface is announced with the size and the limits of the session. -/
theorem installSurface_keeps {session : Session} {request : SurfaceOpen}
    {pixelFormat : PixelFormat} {sourceKind : SourceKind}
    (greeted : session.established = true) :
    keeping.From session session []
      (installSurface request pixelFormat sourceKind) fun _ => [] := by
  refine .get (.set (Keeps.quiet rfl rfl) ?_)
  refine .ofRes fun core isNew => .modify (Keeps.quiet rfl rfl) ?_
  refine .quiet cancelPending_keeps fun _ between => ?_
  refine .quiet terminalResults_keeps fun responses last => .reached fun keeps =>
    .modify (Keeps.noted rfl rfl ?_) (.call (fun _ => ?_) fun _ _ => .pure rfl)
  · exact (planes_newCore isNew).trans
      (congrArg (fun info : PanelInfo => info.width * info.height)
        (Keeps.display keeps).symm)
  · intro output after runs
    obtain ⟨rfl, rfl⟩ := wrap_runs runs
    refine Keeps.noted rfl rfl ?_
    obtain ⟨stays, same⟩ := Keeps.credits keeps greeted
    refine ⟨stays, congrArg some ?_, ?_, ?_⟩
    · change session.protocolLimits = last.protocolLimits
      unfold protocolLimits
      rw [Keeps.limits keeps, same]
    · exact congrArg PanelInfo.width (Keeps.display keeps).symm
    · exact congrArg PanelInfo.height (Keeps.display keeps).symm

theorem openSurface_keeps {session : Session} {request : SurfaceOpen}
    (greeted : session.established = true) :
    keeping.From session session [] (openSurface request) fun _ => [] := by
  refine .get (.ite (fun _ => .throw) fun _ => ?_)
  split
  · exact .throw
  · refine .ite (fun _ => .throw) fun _ => ?_
    split
    · exact .throw
    · exact .whole (installSurface_keeps greeted)

theorem closeSurface_keeps {surfaceId generation : Nat} :
    keeping.Emits (closeSurface surfaceId generation) fun _ => [] := by
  refine .of_from fun session => .get (.ite (fun _ => .pure rfl) fun _ => ?_)
  refine .quiet cancelPending_keeps fun _ _ =>
    .modify (Keeps.quiet rfl rfl) ?_
  refine .quiet terminalResults_keeps fun _ _ => .modify ?_ (.pure rfl)
  exact Keeps.noted rfl rfl trivial

theorem setLocalInk_keeps {enabled : Bool} :
    keeping.Emits (setLocalInk enabled now) fun _ => [] := by
  refine .of_from fun session => .get (.ite (fun _ => .throw) fun _ => ?_)
  split
  · exact .throw
  · refine .ite (fun _ => ?_) fun _ => .pure rfl
    exact .finish (Keeps.noted rfl rfl trivial) rfl

theorem setInkPaused_keeps {paused : Bool} :
    keeping.Emits (setInkPaused paused now) fun _ => [] := by
  refine .of_from fun session => .get ?_
  split
  · exact .throw
  · refine .ite (fun _ => ?_) fun _ => .pure rfl
    exact .finish (Keeps.noted rfl rfl trivial) rfl

/-- What was noted stays in the journal below another entry. -/
theorem noted_again {middle : Session} {record : JournalRecord}
    (earlier : Keeps before middle) (terms : after.terms = middle.terms)
    (journal : after.journal = record :: middle.journal)
    (told : after.Tells record.entry) : Keeps before after :=
  earlier.trans (.noted terms journal told)

theorem clearInk_keeps : keeping.Emits (clearInk now) fun _ => [] := by
  refine .of_from fun session => .get ?_
  split
  · exact .throw
  · rename_i surface shown
    refine .set ?_ (.quiet (runCore_keeps fun _ => presentPlane_sameDisplay)
      fun _ _ => .all terminalResults_keeps)
    exact noted_again (.noted rfl rfl trivial :
      Keeps session (session.note (.inkCleared
        (surface.clearPlane .ink).core.ink.planes))) rfl rfl trivial

theorem inputBatch_keeps {surfaceId generation sequence : Nat}
    {records : List PointerRecord} :
    keeping.Emits (inputBatch surfaceId generation sequence records now)
      fun _ => [] :=
  .of_from fun _ => .get (.set (Keeps.quiet rfl rfl)
    (.all (wrap_keeps fun _ _ => trivial)))

theorem pointerBatch_keeps {surfaceId generation : Nat}
    {report : List PhysicalPointerEvent} :
    keeping.Emits (pointerBatch surfaceId generation report now) fun _ => [] :=
  .of_from fun _ => .get (.all inputBatch_keeps)

theorem setFrameFrozen_keeps {frozen : Bool} :
    keeping.Emits (setFrameFrozen frozen now) fun _ => [] := by
  refine .of_from fun session => .get ?_
  split
  · exact .throw
  · rename_i surface shown
    refine .ite (fun _ => .pure rfl) fun _ => .ite (fun _ => .throw) fun _ => ?_
    refine .set ?_ (.quiet terminalResults_keeps fun _ _ => ?_)
    · exact noted_again (noteFrozen_keeps session surface _) rfl rfl trivial
    · refine .ite (fun _ => ?_) fun _ => .pure rfl
      exact .quiet pointerBatch_keeps fun _ _ => .pure rfl

theorem keepCarried_keeps : keeping.Emits keepCarried fun _ => [] :=
  .modify fun _ => Keeps.quiet rfl rfl

theorem requestCleanup_keeps {cause : CleanupCause} :
    keeping.Emits (requestCleanup now cause) fun _ => [] := by
  have rest (start session : Session) (report : CleanupReport) :
      keeping.From start session []
        (do
          let responses ← terminalResults report.terminals
          return (report, responses)) fun _ => [] :=
    .quiet terminalResults_keeps fun _ _ => .pure rfl
  refine .of_from fun session => .get ?_
  split
  · refine .quiet (askCore_keeps fun _ => requestCleanup_sameDisplay) ?_
    exact fun report between => .modify (Keeps.quiet rfl rfl) (rest _ _ report)
  · exact .modify (Keeps.noted rfl rfl trivial) (.after (rest _ _ _))

theorem setPenAvailable_keeps {available : Bool} :
    keeping.Emits (setPenAvailable available) fun _ => [] := by
  refine .modify fun session => ?_
  dsimp only
  split
  · exact Keeps.quiet rfl rfl
  · exact Keeps.quiet rfl rfl

theorem presentFallback_keeps {completeRefresh : Bool} :
    keeping.Emits (presentFallback completeRefresh) fun _ => [] := by
  refine .of_from fun session => .get ?_
  split
  · exact .pure rfl
  · refine .ofRes fun _ _ => .set (Keeps.quiet rfl rfl) ?_
    refine .ofRes fun _ _ => .modify (Keeps.quiet rfl rfl) ?_
    exact .ite (fun _ => .pure rfl) fun _ => .throw

theorem drawMenu_keeps {session : Session} {surface : ActiveSurface} :
    keeping.From session session [] (drawMenu session surface) fun _ => [] :=
  .ofRes fun _ _ => .finish (Keeps.quiet rfl rfl) rfl

theorem renderLocalMenu_keeps :
    keeping.Emits (renderLocalMenu now) fun _ => [] := by
  refine .of_from fun session => .get ?_
  split
  · refine .call drawMenu_keeps fun _ _ => ?_
    refine .quiet (runCore_keeps fun _ => presentPlane_sameDisplay) fun _ _ => ?_
    exact .quiet keepCarried_keeps fun _ _ => .all terminalResults_keeps
  · exact .quiet presentFallback_keeps fun _ _ => .pure rfl

theorem withMenu_keeps (session : Session) (menu : LocalMenu) :
    Keeps session (session.withMenu menu) := .noted rfl rfl trivial

theorem closeLocalMenu_keeps :
    keeping.Emits (closeLocalMenu now) fun _ => [] := by
  refine .of_from fun session => .get (.ite (fun _ => .pure rfl) fun _ => ?_)
  exact .set (withMenu_keeps _ _) (.all renderLocalMenu_keeps)

theorem localCleanup_keeps {cause : CleanupCause} :
    keeping.Emits (localCleanup now cause) fun _ => [] := by
  refine .of_from fun session => .get (.ite (fun _ => ?_) fun _ => ?_)
  · exact .quiet presentFallback_keeps fun _ _ => .pure rfl
  · exact .quiet requestCleanup_keeps fun _ _ => .pure rfl

theorem changeProfile_keeps {next : RefreshPolicyConfig} :
    keeping.Emits (changeProfile next now) fun _ => [] := by
  have draws (start between : Session) (responses : List Envelope) :
      keeping.From start between [] (do
        let drawn ← renderLocalMenu now
        return responses ++ drawn) fun _ => [] :=
    .quiet renderLocalMenu_keeps fun _ _ => .pure rfl
  refine .of_from fun session => .get (.set (Keeps.quiet rfl rfl) ?_)
  split
  · refine .quiet (askCore_keeps fun _ => changeRefreshProfile_sameDisplay)
      fun change between => ?_
    exact .quiet terminalResults_keeps fun responses last => draws _ _ _
  · refine .modify ?_ (.after (draws _ _ _))
    split
    · exact Keeps.noted rfl rfl trivial
    · exact Keeps.refl _

theorem leaveMenu_keeps : keeping.Emits (leaveMenu now) fun _ => [] := by
  refine .of_from fun session => .modify (withMenu_keeps _ _) ?_
  refine .quiet (.discard (.attempt renderLocalMenu_keeps)) fun _ _ => ?_
  exact .finish (Keeps.quiet rfl rfl) rfl

theorem handleLocalMenuAction_keeps {action : LocalMenuAction} :
    keeping.Emits (handleLocalMenuAction action now) fun _ => [] := by
  refine .of_from fun session => .get ?_
  split
  · split
    · exact .all renderLocalMenu_keeps
    · exact .all changeProfile_keeps
  · exact .all changeProfile_keeps
  · dsimp only
    split
    · exact .modify (Keeps.quiet rfl rfl) (.all renderLocalMenu_keeps)
    · refine .quiet (runCore_keeps fun _ => onCore_sameDisplay) fun _ _ => ?_
      exact .modify (Keeps.quiet rfl rfl) (.all renderLocalMenu_keeps)
  · exact .all localCleanup_keeps
  · refine .quiet leaveMenu_keeps fun _ _ => ?_
    exact .modify (Keeps.quiet rfl rfl) (.pure rfl)
  · refine .quiet leaveMenu_keeps fun _ _ => ?_
    exact .modify (Keeps.quiet rfl rfl) (.pure rfl)
  · exact .set (withMenu_keeps _ _) (.all renderLocalMenu_keeps)

theorem overlayResult_keeps {update : OverlayUpdate} {applied : Bool}
    {message : String} {shown : Option ActiveSurface} :
    keeping.Emits (overlayResult update applied message shown) fun _ => [] :=
  wrap_keeps fun _ _ => trivial

theorem overlayCleared_keeps (session : Session) (surface : ActiveSurface)
    (update : OverlayUpdate) :
    Keeps session (session.overlayCleared surface update now) := by
  have bounded (paused : Bool) :
      Keeps session (session.note (.boundary now paused)) :=
    .noted rfl rfl trivial
  unfold overlayCleared
  dsimp only
  split <;> split
  · exact noted_again (bounded surface.inkPaused) rfl rfl trivial
  · exact Keeps.noted rfl rfl trivial
  · exact (bounded surface.inkPaused).trans (.quiet rfl rfl)
  · exact Keeps.quiet rfl rfl

theorem overlayInk_keeps (session : Session) (surface : ActiveSurface)
    (update : OverlayUpdate) :
    Keeps session (session.overlayInk surface update) := by
  unfold overlayInk
  split
  · exact Keeps.quiet rfl rfl
  · exact Keeps.quiet rfl rfl
  · refine Keeps.trans ?_ ((noteFrozen_keeps _ surface _).trans
      (Keeps.quiet rfl rfl))
    exact Keeps.noted rfl rfl trivial

theorem editActive_keeps {change : ActiveSurface → SurfaceRes ActiveSurface} :
    keeping.Emits (editActive change) fun _ => [] := by
  refine .of_from fun session => .get ?_
  split
  · exact .pure rfl
  · exact .ofRes fun _ _ => .finish (Keeps.quiet rfl rfl) rfl

theorem applyOverlay_keeps {surface : ActiveSurface} {update : OverlayUpdate} :
    keeping.Emits (applyOverlay surface update now) fun _ => [] := by
  refine .of_from fun session => .modify (overlayCleared_keeps _ _ _) ?_
  refine .quiet editActive_keeps fun _ between => .modify ?_ ?_
  · split
    · exact Keeps.refl between
    · exact overlayInk_keeps _ _ _
  · refine .quiet (runCore_keeps fun _ => presentPlane_sameDisplay) fun _ _ => ?_
    refine .quiet terminalResults_keeps fun _ _ => .get ?_
    exact .quiet overlayResult_keeps fun _ _ => .pure rfl

theorem overlayUpdate_keeps {update : OverlayUpdate} :
    keeping.Emits (overlayUpdate update now) fun _ => [] := by
  have refuses {start session : Session} {message : String}
      {shown : Option ActiveSurface} : keeping.From start session []
      (do return [← overlayResult update false message shown]) fun _ => [] :=
    .quiet overlayResult_keeps fun _ _ => .pure rfl
  refine .of_from fun before => .get (.set ?_ ?_)
  · split
    · exact Keeps.quiet rfl rfl
    · exact Keeps.refl before
  · refine .ite (fun _ => refuses) fun _ => .ite (fun _ => refuses) ?_
    intro isValid
    have valid : decide (update.sequence ≠ 0 ∧
        before.overlaySequence < update.sequence) = true := by
      simpa using isValid
    rw [if_pos valid]
    refine .ite (fun _ => refuses) fun _ => ?_
    split
    · exact refuses
    · split
      · exact refuses
      · exact .all applyOverlay_keeps

theorem epaperProfileResult_keeps {request : EpaperProfileRequest}
    {result : EpaperProfileResultCode} {active : RefreshPolicyConfig}
    {cleanupPerformed cleanupPending : Bool} {message : String} :
    keeping.Emits (epaperProfileResult request result active cleanupPerformed
      cleanupPending message) fun _ => [] :=
  wrap_keeps fun _ _ => trivial

theorem applyProfile_keeps {current next : RefreshPolicyConfig} :
    keeping.Emits (applyProfile current next now) fun _ => [] := by
  refine .of_from fun session => .get ?_
  split
  · refine .quiet (askCore_keeps fun _ => changeRefreshProfile_sameDisplay)
      fun _ _ => ?_
    exact .modify (Keeps.quiet rfl rfl) (.pure rfl)
  · refine .set ?_ (.pure rfl)
    dsimp only
    split
    · exact Keeps.noted rfl rfl trivial
    · exact Keeps.quiet rfl rfl

theorem setProfile_keeps {request : EpaperProfileRequest}
    {next : RefreshPolicyConfig} :
    keeping.Emits (setProfile request next now) fun _ => [] := by
  refine .of_from fun session => .get (.set (Keeps.quiet rfl rfl) ?_)
  refine .quiet applyProfile_keeps fun _ _ => ?_
  refine .quiet terminalResults_keeps fun _ _ => ?_
  exact .quiet epaperProfileResult_keeps fun _ _ => .pure rfl

theorem handleEpaperProfile_keeps {request : EpaperProfileRequest} :
    keeping.Emits (handleEpaperProfile request now) fun _ => [] := by
  refine .of_from fun session => .get ?_
  have answers (between : Session) (result : EpaperProfileResultCode)
      (message : String) : keeping.From session between []
      (do return [← epaperProfileResult request result
        session.config.refreshPolicy false session.currentCleanupPending
        message]) fun _ => [] :=
    .quiet epaperProfileResult_keeps fun _ _ => .pure rfl
  refine .ite (fun _ => answers _ _ _) fun _ =>
    .ite (fun _ => answers _ _ _) fun _ => .set (Keeps.quiet rfl rfl) ?_
  refine .ite (fun _ => answers _ _ _) fun _ =>
    .ite (fun _ => answers _ _ _) fun _ => ?_
  split
  · exact answers _ _ _
  · exact .all setProfile_keeps

theorem epaperRefreshResult_keeps {request : EpaperRefreshRequest}
    {result : EpaperRefreshResultCode} {cleanupPerformed : Bool}
    {message : String} :
    keeping.Emits (epaperRefreshResult request result cleanupPerformed message)
      fun _ => [] :=
  .of_from fun _ => .get (.all (wrap_keeps fun _ _ => trivial))

theorem updateRefresh_keeps {request : EpaperRefreshRequest} :
    keeping.Emits (updateRefresh request now) fun _ => [] := by
  have answers (start between : Session) (changed : Bool) :
      keeping.From start between [] (answerUpdate request changed)
        fun _ => [] :=
    .quiet epaperRefreshResult_keeps fun _ _ => .pure rfl
  refine .of_from fun session => .get ?_
  dsimp only
  split
  · exact .after (.modify (Keeps.quiet rfl rfl) (answers _ _ _))
  · change keeping.From session session []
      (runCore now (fun _ => onCore .configured fun core =>
          core.updateRefreshConfig
            (updatedConfig session.config.refreshPolicy request)) >>=
        fun reply => Proc.modify (fun after => { after with
            config := { after.config with
              refreshPolicy :=
                updatedConfig session.config.refreshPolicy request } }) >>=
          fun _ => answerUpdate request (reply == .configured true)) fun _ => []
    exact .quiet (runCore_keeps fun _ => onCore_sameDisplay) fun reply _ =>
      .modify (Keeps.quiet rfl rfl) (answers _ _ _)

theorem cleanupRefresh_keeps {request : EpaperRefreshRequest} :
    keeping.Emits (cleanupRefresh request now) fun _ => [] := by
  refine .of_from fun session => .quiet requestCleanup_keeps fun _ _ => ?_
  exact .quiet epaperRefreshResult_keeps fun _ _ => .pure rfl

theorem handleEpaperRefresh_keeps {request : EpaperRefreshRequest} :
    keeping.Emits (handleEpaperRefresh request now) fun _ => [] := by
  refine .of_from fun session => .get ?_
  have answers (between : Session) (result : EpaperRefreshResultCode)
      (message : String) : keeping.From session between []
      (do return [← epaperRefreshResult request result false message])
        fun _ => [] :=
    .quiet epaperRefreshResult_keeps fun _ _ => .pure rfl
  refine .ite (fun _ => answers _ _ _) fun _ =>
    .ite (fun _ => answers _ _ _) fun _ => .set (Keeps.quiet rfl rfl) ?_
  split
  · exact answers _ _ _
  · exact .ite (fun _ => answers _ _ _) fun _ => .all updateRefresh_keeps
  · exact .all cleanupRefresh_keeps
  · exact answers _ _ _

theorem inkRecord_keeps {record : PointerRecord} :
    keeping.Emits (inkRecord physical now record) fun _ => [] := by
  refine .of_from fun session => .get ?_
  split
  · exact .pure rfl
  · rename_i surface shown
    refine .ite (fun _ => .set (Keeps.noted rfl rfl trivial) (.pure rfl))
      fun _ => .ofRes fun drawn _ => .set ?_ (.pure rfl)
    exact noted_again (noteFrozen_keeps session surface _) rfl rfl trivial

theorem notePen_keeps (session : Session) (records : List PointerRecord) :
    Keeps session (session.notePen records now physical) := by
  unfold notePen
  split
  · split
    · exact Keeps.quiet rfl rfl
    · exact .refl session
  · exact .refl session

theorem penBatch_keeps {records : List PointerRecord} :
    keeping.Emits (penBatch records now) fun _ => [] := by
  refine .of_from fun session => .get ?_
  split
  · exact .pure rfl
  · refine .ite (fun _ => ?_) fun _ => .pure rfl
    exact .quiet inputBatch_keeps fun _ _ => .pure rfl

theorem penRecords_keeps {surface : ActiveSurface}
    {records : List PointerRecord} :
    keeping.Emits (penRecords surface records now physical) fun _ => [] := by
  refine .of_from fun session => .modify (Keeps.noted rfl rfl trivial) ?_
  refine .ite (fun _ => .pure rfl) fun _ => ?_
  refine .quiet (.gatherQuiet (fun record => inkRecord_keeps) _) fun _ _ => ?_
  refine .quiet penBatch_keeps fun batches _ => ?_
  exact .quiet terminalResults_keeps fun _ _ => .pure rfl

theorem penReport_keeps {records : List PointerRecord} :
    keeping.Emits (penReport now physical records) fun _ => [] := by
  refine .of_from fun session => .modify (notePen_keeps _ _) (.get ?_)
  refine .ite (fun _ => .pure rfl) fun _ => ?_
  split
  · exact .pure rfl
  · refine .ite (fun _ => ?_) fun _ => .all penRecords_keeps
    exact .set (Keeps.noted rfl rfl trivial) (.pure rfl)

theorem flushInk_keeps : keeping.Emits (flushInk now) fun _ => [] := by
  refine .of_from fun session => .get (.ite (fun _ => ?_) fun _ => .pure rfl)
  exact .quiet (runCore_keeps fun _ => presentPlane_sameDisplay) fun _ _ =>
    .all terminalResults_keeps

theorem penReportsInner_keeps {reports : List (List PointerRecord)} :
    keeping.Emits (penReportsInner reports now physical) fun _ => [] := by
  refine .of_from fun session =>
    .quiet (.gatherQuiet (fun records => penReport_keeps) reports) fun _ _ => ?_
  exact .quiet flushInk_keeps fun _ _ => .pure rfl

theorem touchBatch_keeps {target : TouchTarget}
    {events : List PhysicalPointerEvent} :
    keeping.Emits (touchBatch target events now) fun _ => [] := by
  refine .of_from fun session => ?_
  unfold touchBatch
  split
  · exact .pure rfl
  · refine .ite (fun _ => .pure rfl) fun _ => ?_
    exact .quiet pointerBatch_keeps fun _ _ => .pure rfl

theorem processTouch_keeps {report : List PhysicalPointerEvent}
    {forwardEnabled cleanupEnabled : Bool} :
    keeping.Emits (processTouch report now forwardEnabled cleanupEnabled)
      fun _ => [] :=
  .of_from fun _ => .get (.set (Keeps.noted rfl rfl trivial) (.pure rfl))

theorem detachTouch_keeps : keeping.Emits detachTouch fun _ => [] :=
  .of_from fun _ => .get (.set (Keeps.noted rfl rfl trivial) (.pure rfl))

theorem staleTouch_keeps {target : TouchTarget}
    {report : List PhysicalPointerEvent} :
    keeping.Emits (staleTouch target report now) fun _ => [] := by
  refine .of_from fun session => .quiet processTouch_keeps fun _ _ => ?_
  exact .quiet detachTouch_keeps fun _ _ => .get (.all touchBatch_keeps)

theorem menuTouch_keeps {report : List PhysicalPointerEvent} :
    keeping.Emits (menuTouch report now) fun _ => [] := by
  refine .of_from fun session =>
    .quiet processTouch_keeps fun _ _ => .get ?_
  split
  · exact .pure rfl
  · refine .quiet handleLocalMenuAction_keeps fun _ _ => ?_
    exact .quiet detachTouch_keeps fun _ _ => .pure rfl

theorem surfaceTouch_keeps {target : TouchTarget}
    {report : List PhysicalPointerEvent} :
    keeping.Emits (surfaceTouch target report now) fun _ => [] := by
  refine .of_from fun session => .quiet processTouch_keeps fun gesture _ => ?_
  refine .ite (fun _ => .pure rfl) fun _ => ?_
  refine .quiet touchBatch_keeps fun cancelled _ => ?_
  refine .quiet touchBatch_keeps fun forwarded _ => ?_
  refine .ite (fun _ => ?_) fun _ => .after (.pure rfl)
  exact .quiet localCleanup_keeps fun _ _ => .pure rfl

theorem touchReport_keeps {target : TouchTarget}
    {report : List PhysicalPointerEvent} :
    keeping.Emits (touchReport target now report) fun _ => [] := by
  refine .of_from fun session => .ite (fun _ => .pure rfl) fun _ => ?_
  refine .modify (Keeps.quiet rfl rfl) (.get ?_)
  refine .ite (fun _ => .all staleTouch_keeps) fun _ => ?_
  exact .ite (fun _ => .all menuTouch_keeps) fun _ => .all surfaceTouch_keeps

theorem inputReports_keeps {reports : List (List PhysicalPointerEvent)} :
    keeping.Emits (inputReports reports now) fun _ => [] :=
  .of_from fun _ => .get (.all (.gatherQuiet (fun _ => touchReport_keeps) _))

theorem cancelInput_keeps {surface : ActiveSurface}
    {cancelled : List PhysicalPointerEvent} {pen : Option PointerRecord} :
    keeping.Emits (cancelInput surface cancelled pen now physical)
      fun _ => [] := by
  refine .of_from fun session => .quiet touchBatch_keeps fun batches _ => ?_
  split
  · exact .after (.pure rfl)
  · exact .quiet penReportsInner_keeps fun _ _ => .pure rfl

theorem inputCaptureFailed_keeps :
    keeping.Emits (inputCaptureFailed now) fun _ => [] := by
  refine .of_from fun session => .quiet detachTouch_keeps fun _ _ =>
    .modify (Keeps.noted rfl rfl trivial) (.get ?_)
  split
  · exact .after (.quiet setPenAvailable_keeps fun _ _ => .pure rfl)
  · exact .quiet cancelInput_keeps fun _ _ =>
      .quiet setPenAvailable_keeps fun _ _ => .pure rfl

theorem liftPen_keeps {surface : ActiveSurface}
    {cancelled : List PhysicalPointerEvent} :
    keeping.Emits (liftPen surface cancelled now) fun _ => [] :=
  .of_from fun _ => .modify (Keeps.quiet rfl rfl) (.all cancelInput_keeps)

theorem powerKeyPressed_keeps :
    keeping.Emits (powerKeyPressed now) fun _ => [] := by
  refine .of_from fun session => .modify (Keeps.quiet rfl rfl) (.get ?_)
  refine .ite (fun _ => .pure rfl) fun _ => ?_
  refine .quiet detachTouch_keeps fun _ _ => ?_
  have draws (start between : Session) (responses : List Envelope) :
      keeping.From start between [] (do
        Proc.modify fun session => session.withMenu session.localMenu.toggle
        let drawn ← renderLocalMenu now
        return responses ++ drawn) fun _ => [] :=
    .modify (withMenu_keeps _ _)
      (.quiet renderLocalMenu_keeps fun _ _ => .pure rfl)
  split
  · exact .after (draws _ _ [])
  · exact .quiet liftPen_keeps fun responses last => draws _ last responses

/-- The handshake decides on byte credits, and is made once. -/
theorem acceptHello_keeps {session : Session} {hello : ClientHello}
    (fresh : session.established = false) :
    keeping.From session session [] (acceptHello hello) fun _ => [] := by
  refine .get (.ofRes fun _ _ => .ofRes fun minor _ => ?_)
  refine .set ⟨rfl, rfl, rfl, fun greeted => ?_, [], rfl, List.forall_mem_nil _⟩
    (.all (wrap_keeps fun _ _ => trivial))
  rw [fresh] at greeted
  cases greeted

theorem validateEnvelopeHeader_keeps {envelope : Envelope} :
    keeping.Emits (validateEnvelopeHeader envelope) fun _ => [] := by
  refine .of_from fun session => .get (.ite (fun _ => .throw) fun _ => ?_)
  exact .ite (fun _ => .throw) fun _ => .finish (Keeps.quiet rfl rfl) rfl

theorem poll_keeps : keeping.Emits (poll now) fun _ => [] := by
  have keeps (start between : Session) (terminals : List TerminalFrame) :
      keeping.From start between [] (do
        keepCarried
        terminalResults terminals) fun _ => [] :=
    .quiet keepCarried_keeps fun _ _ => .all terminalResults_keeps
  refine .of_from fun session => .get ?_
  split
  · exact .pure rfl
  · refine .ite (fun _ => ?_) fun _ => ?_
    · exact .quiet (askCore_keeps fun _ => tickInteractive_sameDisplay)
        fun _ _ => keeps _ _ _
    · exact .quiet (runCore_keeps fun _ => tickInner_sameDisplay)
        fun _ _ => keeps _ _ _

theorem handleBody_keeps {session : Session} {body : Body}
    (greeted : session.established = true) :
    keeping.From session session [] (handleBody body now) fun _ => [] := by
  cases body with
  | ping cookie =>
      exact .quiet (wrap_keeps fun _ _ => trivial) fun _ _ => .pure rfl
  | goodbye => exact .modify (Keeps.quiet rfl rfl) (.pure rfl)
  | surfaceOpen request =>
      exact .call (openSurface_keeps greeted) fun _ _ =>
        .modify (Keeps.noted rfl rfl trivial) (.pure rfl)
  | surfaceClose surfaceId generation => exact .all closeSurface_keeps
  | overlayUpdate update => exact .all overlayUpdate_keeps
  | frame frame => exact .all acceptFrame_keeps
  | epaperProfileRequest request => exact .all handleEpaperProfile_keeps
  | epaperRefreshRequest request => exact .all handleEpaperRefresh_keeps
  | actionResult => exact .pure rfl
  | _ => exact .throw

theorem handleFirst_keeps {session : Session} {body : Body}
    (fresh : session.established = false) :
    keeping.From session session [] (handleFirst body) fun _ => [] := by
  unfold handleFirst
  split
  · exact .call (acceptHello_keeps fresh) fun _ _ => .pure rfl
  · exact .throw

theorem handleInner_keeps {envelope : Envelope} {pollAfter : Bool} :
    keeping.Emits (handleInner envelope now pollAfter) fun _ => [] := by
  have finishes (start between : Session) (responses : List Envelope) :
      keeping.From start between [] (if pollAfter then do
          let polled ← poll now
          return responses ++ polled
        else return responses) fun _ => [] :=
    .ite (fun _ => .quiet poll_keeps fun _ _ => .pure rfl) fun _ => .pure rfl
  refine .of_from fun session => .quiet validateEnvelopeHeader_keeps
    fun _ between => .get ?_
  split
  · exact .throw
  · refine .ite (fun greeted => ?_) fun fresh => ?_
    · exact .call (handleBody_keeps greeted) fun responses last =>
        finishes _ last responses
    · exact .call (handleFirst_keeps (Bool.eq_false_iff.mpr fresh))
        fun responses last => finishes _ last responses

theorem operation_keeps (op : SessionOp) :
    keeping.Emits op.run fun _ => [] := by
  have silent {procedure : SessionProc Unit}
      (emits : keeping.Emits procedure fun _ => []) :
      keeping.Emits (do
        procedure
        return ([] : List Envelope)) fun _ => [] :=
    .of_from fun _ => .quiet emits fun _ _ => .pure rfl
  cases op with
  | handle envelope now => exact handleInner_keeps
  | handleDeferred envelope now => exact handleInner_keeps
  | poll now => exact poll_keeps
  | penReports reports now => exact penReportsInner_keeps
  | inputReports reports now => exact inputReports_keeps
  | powerKeyPressed now => exact powerKeyPressed_keeps
  | inputCaptureFailed now => exact inputCaptureFailed_keeps
  | closeLocalMenu now => exact closeLocalMenu_keeps
  | setFrameFrozen frozen now => exact setFrameFrozen_keeps
  | clearInk now => exact clearInk_keeps
  | setLocalInk enabled now => exact silent setLocalInk_keeps
  | setInkPaused paused now => exact silent setInkPaused_keeps
  | requestCleanup now =>
      exact .of_from fun _ => .quiet requestCleanup_keeps fun _ _ => .pure rfl
  | setPenAvailable available => exact silent setPenAvailable_keeps
  | setFreezeOnPenDown enabled =>
      exact silent (.modify fun _ => Keeps.quiet rfl rfl)
  | setAutomaticIdleCleanup enabled =>
      exact silent (.modify fun _ => Keeps.quiet rfl rfl)

end

end Session

/-- The codecs, the limits and the display of a run are those it was set up with,
and every entry of its journal tells of them. -/
theorem SessionRun.terms {setup : SessionSetup} {history : List SessionEvent}
    {final : Session} (run : SessionRun setup history final) :
    (final.codecs = setup.codecs ∧
        final.config.limits = setup.config.limits ∧
        final.panel.info = setup.panel.info) ∧
      ∀ entry ∈ entriesOf history, final.Tells entry := by
  have journal := run.journal
  obtain ⟨first, fresh, run⟩ := run
  have keeps : Keeps first final :=
    Emission.rel_of_run Session.operation_keeps run
  obtain ⟨fallback, _, stored⟩ := Res.bind_eq_ok.mp fresh
  cases stored
  refine ⟨⟨keeps.codecs, keeps.limits, keeps.display⟩, fun entry member => ?_⟩
  obtain ⟨new, grows, told⟩ := keeps.entries
  rw [← journal] at member
  obtain ⟨record, isRecord, rfl⟩ := List.mem_map.mp member
  rw [grows] at isRecord
  exact told record ((List.mem_append.mp isRecord).resolve_right
    (List.not_mem_nil))

/-- Without byte credits no result gives any. -/
def Face.Spares (face : Face) : Prop :=
  face.byteCreditsEnabled = false → ∀ result pending,
    .sent (.frameResult result) pending ∈ face.journal.map (·.entry) →
      result.byteCredits = 0

theorem FaceStep.spares {before after : Station} {entries : List JournalEntry}
    (step : FaceStep before entries after) (accounts : before.Accounts)
    (spares : before.face.Spares) : after.face.Spares := by
  intro disabled result pending member
  rw [step.journal] at member
  obtain ⟨_, ⟨_, sameEnabled⟩ | ⟨unborn, _, noEntry, _⟩⟩ := step.terms
  · rw [sameEnabled] at disabled
    rcases List.mem_append.mp member with new | old
    · obtain ⟨_, _, byteCredits, _⟩ := step.result (List.mem_reverse.mp new)
      rw [byteCredits, Face.byteCredits, disabled]
      rfl
    · exact spares disabled result pending old
  · rw [noEntry] at member
    exact absurd member ((accounts.silent unborn).2 result pending)

theorem SessionRun.spares {setup : SessionSetup} {history : List SessionEvent}
    {final : Session} (run : SessionRun setup history final) :
    final.face.Spares := by
  refine (run.keeps (fun _ face => Station.Accounts ⟨face, {}⟩ ∧ face.Spares)
    ?_ ?_ fun _ _ => True.intro).2.2
  · refine ⟨⟨fun _ => ⟨rfl, fun _ _ => List.not_mem_nil⟩, ?_, ?_⟩, ?_⟩
    · exact fun _ missing => absurd missing (Option.not_mem_none _)
    · exact fun _ _ missing => absurd missing List.not_mem_nil
    · exact fun _ _ _ missing => absurd missing List.not_mem_nil
  · intro history event left _ acts both
    have kept := acts.steps.keeps (fun station => station.face.Sound ∧
        station.Accounts ∧ station.face.Spares)
      (fun step holds => ⟨step.sound holds.1,
        step.accounts holds.1 holds.2.1, step.spares holds.2.1 holds.2.2⟩)
      ⟨acts.sound, both⟩
    exact ⟨kept.2.1.rest, kept.2.2⟩

/-- No result gives more credits than the session announces. -/
theorem SessionRun.credits {setup : SessionSetup} {history : List SessionEvent}
    {final : Session} (run : SessionRun setup history final)
    {result : FrameResult} {pending : Option PendingPresentation}
    (member : .sent (.frameResult result) pending ∈ entriesOf history) :
    result.credits ≤ final.config.limits.maxInflight ∧
      result.byteCredits ≤ final.protocolLimits.maxInflightBytes := by
  rw [← run.journal] at member
  have exact := run.accounts.exact result pending member
  have credits := exact.credits
  refine ⟨Nat.le_trans (Nat.le_add_right _ _) (Nat.le_of_eq credits), ?_⟩
  unfold Session.protocolLimits
  cases enabled : final.byteCreditsEnabled with
  | true =>
      have byteCredits := exact.byteCredits enabled
      exact Nat.le_trans (Nat.le_add_right _ _) (Nat.le_of_eq byteCredits)
  | false =>
      rw [run.spares enabled result pending member]
      exact Nat.zero_le _

end RmDisplay.Receiver
