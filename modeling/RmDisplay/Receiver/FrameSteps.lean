import RmDisplay.Core.Frames
import RmDisplay.Receiver.Admission
import RmDisplay.Receiver.SessionRuns

/-!
# Steps of the frames

What a session knows of the frames of its surface: the state of the core's
frames, and whether the background is frozen.  `FaceMove` says everything a
step of the face does to them, and what it reports about them.
-/

namespace RmDisplay.Receiver

open Foundation Protocol RmDisplay.Core Core.DisplayCore

structure FrameView where
  frozen : Bool
  state : FrameState

namespace FrameView

def presentedFrameId (view : Option FrameView) : Nat :=
  (view.map (·.state.presentedFrameId)).getD 0

def isFrozen (view : Option FrameView) : Bool := view.any (·.frozen)

/-- A result that names the presented frame, or knows of none. -/
structure Names (view : Option FrameView) (presentedFrameId : Nat)
    (inkFrozen : Bool) : Prop where
  presented : presentedFrameId = FrameView.presentedFrameId view
  frozen : inkFrozen = isFrozen view

/-- What an envelope tells of the frames. -/
def Reports (view : Option FrameView) : Body → Prop
  | .frameResult result =>
      result.presentedFrameId = presentedFrameId view
  | .inputBatch batch => Names view batch.presentedFrameId batch.inkFrozen
  | .overlayResult result =>
      Names view result.presentedFrameId result.inkFrozen ∨
        result.applied = false ∧ result.presentedFrameId = 0 ∧
          result.inkFrozen = false
  | _ => True

/-- An entry that leaves the frames alone. -/
def Quiet (view : Option FrameView) : JournalEntry → Prop
  | .sent body _ => Reports view body
  | .accepted .. | .froze .. | .released | .opened .. | .closed => False
  | _ => True

end FrameView

def Screen.frameView (self : Screen) : FrameView where
  frozen := self.inkFrozen
  state := self.core.frames

def Face.frameView (self : Face) : Option FrameView :=
  self.screen.map Screen.frameView

def ActiveSurface.frameView (self : ActiveSurface) : FrameView where
  frozen := self.inkFrozen
  state := self.core.frames

theorem frameView_face (session : Session) :
    session.face.frameView = session.surface.map ActiveSurface.frameView := by
  unfold Face.frameView Session.face
  rw [Option.map_map]
  rfl

/-- What is known of an accepted frame. -/
structure FrameView.Accepts (view : FrameView) (frame : Frame)
    (validated : ValidatedFrame) (base : PixelSurface) : Prop where
  live : view.frozen = false
  sameId : validated.frameId = frame.frameId
  newer : view.state.logicalFrameId < validated.frameId
  onBase : validated.baseFrameId = 0 ∨
    view.state.baseValid = true ∧
      validated.baseFrameId = view.state.logicalFrameId
  full : validated.baseFrameId = 0 → validated.regions.map (·.rect) =
    [⟨0, 0, view.state.base.width, view.state.base.height⟩]
  applied : view.state.base.applyRegionsAtomic validated.regions = .ok base

/-- A change of the frames, with the entries it writes and the calls it makes. -/
inductive FaceMove (view : Option FrameView) :
    List JournalEntry → List PanelCall → Option FrameView → Prop
  | quiet {entries : List JournalEntry} (made : List PanelCall)
      (plain : ∀ entry ∈ entries, FrameView.Quiet view entry) :
      FaceMove view entries made view
  | core {shown : FrameView} {made : List PanelCall} {state : FrameState}
      (isShown : view = some shown)
      (change : FrameChange (made.any (·.resets)) shown.state state) :
      FaceMove view [] made (some { shown with state })
  | froze {shown : FrameView} (isShown : view = some shown)
      (live : shown.frozen = false)
      (presented : shown.state.presentedFrameId ≠ 0) :
      FaceMove view
        [.froze shown.state.presentedFrameId shown.state.presentedBase] []
        (some
          { frozen := true
            state := { shown.state with
              base := shown.state.presentedBase
              baseValid := false
              pending := none } })
  | released {shown : FrameView} (isShown : view = some shown)
      (frozen : shown.frozen = true) :
      FaceMove view [.released] [] (some { shown with frozen := false })
  | accepted {shown : FrameView} {frame : Frame} {validated : ValidatedFrame}
      {base : PixelSurface} {pending : PendingPresentation}
      (isShown : view = some shown)
      (accepts : shown.Accepts frame validated base)
      (isPending : pending.frameId = validated.frameId) :
      FaceMove view [.accepted frame validated] []
        (some { shown with
          state := { shown.state with
            base
            baseValid := true
            logicalFrameId := validated.frameId
            pending := some pending } })
  | opened {fresh : FrameView} (surfaceId generation : Nat) (ink : Planes)
      (stale : Bool)
      (live : fresh.frozen = false)
      (blank : fresh.state.baseValid = false ∧
        fresh.state.logicalFrameId = 0 ∧ fresh.state.presentedFrameId = 0 ∧
        fresh.state.pending = none) :
      FaceMove view [.opened surfaceId generation ink stale] [] (some fresh)
  | closed : FaceMove view [.closed] [] none

theorem presentedFrameId_frameView (face : Face) :
    FrameView.presentedFrameId face.frameView = face.presentedFrameId := by
  unfold FrameView.presentedFrameId Face.frameView
  rw [Option.map_map]
  rfl

theorem isFrozen_frameView (face : Face) :
    FrameView.isFrozen face.frameView = face.inkFrozen := by
  unfold FrameView.isFrozen Face.frameView Face.inkFrozen
  rw [Option.any_map]
  rfl

theorem Truthful.reports {face : Face} {body : Body}
    (truthful : Truthful face body) :
    FrameView.Reports face.frameView body := by
  cases body with
  | frameResult _ | inputBatch _ => exact truthful.elim
  | overlayResult result =>
      rcases truthful with ⟨presented, frozen⟩ | refused
      · refine .inl ⟨?_, ?_⟩
        · rw [presented, presentedFrameId_frameView]
        · rw [frozen, isFrozen_frameView]
      · exact .inr refused
  | _ => trivial

theorem InkStep.frameView {screen next : Screen} {entry : Option JournalEntry}
    (step : InkStep screen entry next) :
    next.frameView = screen.frameView ∧
      ∀ view, ∀ written ∈ entry.toList, FrameView.Quiet view written := by
  cases step with
  | drew _ _ _ _ _ edits =>
      refine ⟨?_, fun view written member => ?_⟩
      · unfold Screen.frameView
        rw [frames_editPlane edits]
      · rw [List.mem_singleton.mp member]
        trivial
  | switched _ _ | lost | forgotten => exact ⟨rfl, fun _ _ member => nomatch member⟩
  | _ =>
      refine ⟨rfl, fun view written member => ?_⟩
      rw [List.mem_singleton.mp member]
      trivial

theorem accepts_of_admits {session : Session} {surface : ActiveSurface}
    {frame : Frame} {validated : ValidatedFrame} {contentClass : ContentClass}
    {timing : Timing} {decodeUs : Nat} {report : CommitReport}
    {next : DisplayCore}
    (admits : session.admitFrame frame = .ok (surface, validated))
    (commits : surface.core.commitTimed validated contentClass timing
      decodeUs = .ok (report, next)) :
    ∃ base pending, surface.frameView.Accepts frame validated base ∧
      pending.frameId = validated.frameId ∧
      next.frames = { surface.core.frames with
        base
        baseValid := true
        logicalFrameId := validated.frameId
        pending := some pending } := by
  have admitted := Session.admits_of_admitFrame admits
  have decodes := admitted.decodes
  obtain ⟨_, newer, _, onBase, _, base, applied, rfl⟩ :=
    commitTimed_eq_ok commits
  refine ⟨base, _, ⟨admitted.live, decodes.frameId, newer.2, onBase, ?_,
    applied⟩, rfl, rfl⟩
  intro keyframe
  exact decodes.keyframe (decodes.baseFrameId ▸ keyframe)

/-- Every step of the face changes the frames in one of these ways. -/
theorem FaceStep.frames {before after : Station} {entries : List JournalEntry}
    (step : FaceStep before entries after) :
    ∃ made, after.face.panel.calls = made ++ before.face.panel.calls ∧
      FaceMove before.face.frameView entries made after.face.frameView := by
  have still {face : Face} {entries : List JournalEntry}
      (plain : ∀ entry ∈ entries, FrameView.Quiet face.frameView entry) :
      FaceMove face.frameView entries [] face.frameView := .quiet [] plain
  have shownView {face : Face} {screen : Screen}
      (shown : face.screen = some screen) :
      face.frameView = some screen.frameView := by
    rw [Face.frameView, shown, Option.map_some]
  have kept {face next : Face} {screen nextScreen : Screen}
      {entries : List JournalEntry} (shown : face.screen = some screen)
      (isNext : next.screen = some nextScreen)
      (same : nextScreen.frameView = screen.frameView)
      (plain : ∀ entry ∈ entries, FrameView.Quiet face.frameView entry) :
      FaceMove face.frameView entries [] next.frameView := by
    rw [shownView isNext, same, ← shownView shown]
    exact .quiet [] plain
  cases step with
  | @core face screen action _ _ world shown plain step =>
      have notCommit : action.accepted = [] := by
        cases action with
        | commit _ => exact plain.elim
        | _ => rfl
      have notFreeze : action ≠ .freeze := by
        rintro rfl
        exact plain
      obtain ⟨made, calls, change⟩ := step.changesFrames notCommit notFreeze
      refine ⟨made, calls, ?_⟩
      rw [shownView shown]
      exact .core rfl change
  | configured shown updates =>
      obtain ⟨_, _, stored⟩ := Res.bind_eq_ok.mp updates
      cases stored
      exact ⟨[], rfl, kept shown rfl rfl (List.forall_mem_nil _)⟩
  | noted shown _ => exact ⟨[], rfl, kept shown rfl rfl (List.forall_mem_nil _)⟩
  | asked shown _ _ =>
      refine ⟨[], rfl, kept shown rfl rfl fun entry member => ?_⟩
      rw [List.mem_singleton.mp member]
      trivial
  | @inked face screen next entry _ shown step =>
      obtain ⟨same, plain⟩ := step.frameView
      refine ⟨[], ?_, kept shown rfl same (plain _)⟩
      cases entry <;> rfl
  | frozen shown live presented =>
      refine ⟨[], rfl, ?_⟩
      rw [shownView shown]
      exact .froze rfl live presented
  | released shown frozen =>
      refine ⟨[], rfl, ?_⟩
      rw [shownView shown]
      exact .released rfl frozen
  | @accepted session surface _ _ _ _ _ _ next _ admits commits =>
      obtain ⟨base, pending, accepts, isPending, isNext⟩ :=
        accepts_of_admits admits commits
      refine ⟨[], rfl, ?_⟩
      rw [shownView (Session.screen_of_admits admits)]
      change FaceMove _ _ _ (some ⟨surface.inkFrozen, next.frames⟩)
      rw [isNext]
      exact .accepted rfl accepts isPending
  | opened _ _ surfaceId generation _ opens =>
      refine ⟨[], rfl, .opened surfaceId generation _ _ rfl ?_⟩
      exact ⟨opens.invalid, opens.ids.1, opens.ids.2, opens.idle⟩
  | closed _ _ => exact ⟨[], rfl, .closed⟩
  | refused _ _ answers =>
      refine ⟨[], rfl, still fun entry member => ?_⟩
      rcases List.mem_cons.mp member with rfl | member
      · trivial
      · rw [List.mem_singleton.mp member, answers]
        exact (presentedFrameId_frameView _).symm
  | reported _ answers =>
      refine ⟨[], rfl, still fun entry member => ?_⟩
      rw [List.mem_singleton.mp member, answers]
      exact (presentedFrameId_frameView _).symm
  | sent truthful =>
      refine ⟨[], rfl, still fun entry member => ?_⟩
      rw [List.mem_singleton.mp member]
      exact truthful.reports
  | batched truthful _ =>
      refine ⟨[], rfl, still fun entry member => ?_⟩
      rw [List.mem_singleton.mp member]
      refine ⟨?_, ?_⟩
      · rw [truthful.2.1, presentedFrameId_frameView]
      · rw [truthful.2.2, isFrozen_frameView]
  | fallback _ _ _ _ => exact ⟨[.submit _], rfl, .quiet _ (List.forall_mem_nil _)⟩
  | carried _ | greeted _ _ | ended | forgotten _ =>
      exact ⟨[], rfl, still (List.forall_mem_nil _)⟩
  | _ =>
      refine ⟨[], rfl, still fun entry member => ?_⟩
      rw [List.mem_singleton.mp member]
      trivial

end RmDisplay.Receiver
