import RmDisplay.Core.Scheduler
import RmDisplay.Foundation.Run

/-!
# Runs of the display core

The public operations of the core as inputs of a machine.  An operation that
panics has no next state, so a run ends there; an operation that returns an
error goes on from the state the error left.
-/

namespace RmDisplay.Core

open Foundation Protocol DisplayCore

/-- The local planes an operation can edit. -/
inductive PlaneId where
  | menu | peer | ink
deriving DecidableEq, Repr

inductive PlaneEdit where
  | replacePlanes (luma alpha : Bytes)
  | patch (rect : Rect) (luma alpha : Bytes)
  | clear
  | inkLine (origin target : Nat × Nat) (radius : Nat) (erase : Bool)
deriving DecidableEq, Repr

def PlaneEdit.apply (edit : PlaneEdit) (width : Nat) (plane : LocalOverlay) :
    SurfaceRes LocalOverlay :=
  match edit with
  | .replacePlanes luma alpha => plane.replacePlanes luma alpha
  | .patch rect luma alpha => plane.patch width rect luma alpha
  | .clear => .ok plane.clear
  | .inkLine origin target radius erase =>
      plane.inkLine width origin target radius erase

namespace DisplayCore

def plane (self : DisplayCore) : PlaneId → LocalOverlay
  | .menu => self.overlay
  | .peer => self.peerOverlay
  | .ink => self.ink

/-- Store a plane through `overlay_mut`, `peer_overlay_mut` or `ink_mut`. -/
def setPlane (self : DisplayCore) (id : PlaneId) (plane : LocalOverlay) :
    DisplayCore :=
  match id with
  | .menu => { self with overlay := plane }
  | .peer => { self with peerOverlay := plane }
  | .ink => { self with ink := plane }

def editPlane (self : DisplayCore) (id : PlaneId) (edit : PlaneEdit) :
    SurfaceRes DisplayCore := do
  let plane ← edit.apply self.width (self.plane id)
  return self.setPlane id plane

end DisplayCore

inductive CoreOp where
  | commit (frame : ValidatedFrame) (contentClass : ContentClass)
      (timing : Timing) (decodeUs : Nat)
  | tick (timing : Timing)
  | tickInteractive (timing : Timing) (interactionIdle : Bool)
  | tickWithoutIdleCleanup (timing : Timing)
  | presentOverlay (timing : Timing)
  | presentInk (timing : Timing)
  | requestCleanup (timing : Timing)
  | changeRefreshProfile (config : RefreshPolicyConfig) (timing : Timing)
  | updateRefreshConfig (config : RefreshPolicyConfig)
  | freezePresented
  | cancelPending
  | requireCleanup
  | restoreRefreshDebt (debt : RefreshDebt)
  | setInkWaveform (waveform : Waveform)
  | edit (plane : PlaneId) (change : PlaneEdit)
deriving DecidableEq, Repr

inductive CoreReply where
  | done
  | committed (report : CommitReport)
  | ticked (terminals : List TerminalFrame)
  | cancelled (terminal : Option TerminalFrame)
  | cleanup (report : CleanupReport)
  | profile (change : RefreshProfileChange)
  | configured (changed : Bool)
deriving DecidableEq, Repr

namespace CoreReply

/-- The terminal frames handed to the caller. -/
def terminalFrames : CoreReply → List TerminalFrame
  | .done | .configured _ => []
  | .committed report => report.superseded.toList
  | .ticked terminals => terminals
  | .cancelled terminal => terminal.toList
  | .cleanup report => report.terminals
  | .profile change => change.terminals

end CoreReply

/-- A function on the core alone. -/
def onCore {α : Type} (reply : α → CoreReply)
    (operation : DisplayCore → Res CoreError (α × DisplayCore)) :
    CoreProc CoreReply := do
  let core ← getCore
  let (value, after) ← Proc.ofRes id (operation core)
  setCore after
  return reply value

/-- What an operation does. -/
def CoreOp.run : CoreOp → CoreProc CoreReply
  | .commit frame contentClass timing decodeUs =>
      onCore .committed fun core =>
        core.commitTimed frame contentClass timing decodeUs
  | .tick timing => .ticked <$> DisplayCore.tick timing
  | .tickInteractive timing idle =>
      .ticked <$> DisplayCore.tickInteractive timing idle
  | .tickWithoutIdleCleanup timing =>
      .ticked <$> DisplayCore.tickWithoutIdleCleanup timing
  | .presentOverlay timing => .ticked <$> DisplayCore.presentOverlay timing
  | .presentInk timing => .ticked <$> DisplayCore.presentInk timing
  | .requestCleanup timing => .cleanup <$> DisplayCore.requestCleanup timing
  | .changeRefreshProfile config timing =>
      .profile <$> DisplayCore.changeRefreshProfile config timing
  | .updateRefreshConfig config =>
      onCore .configured fun core => core.updateRefreshConfig config
  | .freezePresented => onCore .cancelled fun core => .ok core.freezePresented
  | .cancelPending => onCore .cancelled fun core => .ok core.cancelPending
  | .requireCleanup => onCore (fun _ => .done) fun core =>
      .ok ((), core.requireCleanup)
  | .restoreRefreshDebt debt => onCore (fun _ => .done) fun core => do
      let after ← core.restoreRefreshDebt debt
      return ((), after)
  | .setInkWaveform waveform => onCore (fun _ => .done) fun core =>
      .ok ((), core.setInkWaveform waveform)
  | .edit plane change => onCore (fun _ => .done) fun core => do
      let after ← (core.editPlane plane change).mapError CoreError.surface
      return ((), after)

/-- One operation that returns. -/
abbrev coreStep := procStep CoreOp.run

abbrev CoreEvent := Event World CoreOp (Except CoreError CoreReply)

/-- How a core and its panel are set up. -/
structure CoreSetup where
  width : Nat
  height : Nat
  pixelFormat : PixelFormat
  maxFpsX100 : Nat
  settledDeadline : Duration
  config : RefreshPolicyConfig
  info : PanelInfo
  pumpReply : Nat → Bool
  submitReply : Nat → Option PanelSubmissionMetrics

def CoreSetup.panel (setup : CoreSetup) : Panel where
  info := setup.info
  pumpReply := setup.pumpReply
  submitReply := setup.submitReply
  calls := []

def CoreSetup.newCore (setup : CoreSetup) : Res CoreError DisplayCore :=
  newWithFormat setup.width setup.height setup.pixelFormat setup.maxFpsX100
    setup.settledDeadline setup.config

/-- A run of operations on a fresh core. -/
def CoreRun (setup : CoreSetup) (history : List CoreEvent) (final : World) :
    Prop :=
  ∃ first, setup.newCore = .ok first ∧
    Run coreStep ⟨first, setup.panel⟩ history final

/-- The run on a list of operations, the latest first. -/
def CoreSetup.replay (setup : CoreSetup) (ops : List CoreOp) :
    Option (List CoreEvent × World) :=
  match setup.newCore with
  | .ok first => Foundation.replay CoreOp.run ⟨first, setup.panel⟩ ops
  | .error _ | .panic => none

theorem CoreSetup.run_of_replay {setup : CoreSetup} {ops : List CoreOp}
    {history : List CoreEvent} {final : World}
    (replayed : setup.replay ops = some (history, final)) :
    CoreRun setup history final := by
  unfold CoreSetup.replay at replayed
  split at replayed
  · rename_i first fresh
    exact ⟨first, fresh, Foundation.run_of_replay replayed⟩
  · cases replayed
  · cases replayed

theorem CoreRun.before_of_split {setup : CoreSetup}
    {history newer older : List CoreEvent} {event : CoreEvent} {final : World}
    (run : CoreRun setup history final)
    (split : history = newer ++ event :: older) :
    CoreRun setup older event.before ∧
      coreStep event.before event.input event.output event.after := by
  obtain ⟨first, fresh, run⟩ := run
  obtain ⟨earlier, stepped⟩ := run.prefix_of_split split
  exact ⟨⟨first, fresh, earlier⟩, stepped⟩

theorem CoreRun.last {setup : CoreSetup} {history : List CoreEvent}
    {event : CoreEvent} {final : World}
    (run : CoreRun setup (event :: history) final) :
    CoreRun setup history event.before ∧
      coreStep event.before event.input event.output event.after :=
  @before_of_split setup (event :: history) [] history event final run rfl

/-- What a fresh core has and every operation of a run keeps. -/
theorem CoreRun.keeps {setup : CoreSetup} (inv : List CoreEvent → World → Prop)
    (atStart : ∀ first, setup.newCore = .ok first → inv [] ⟨first, setup.panel⟩)
    (preserved : ∀ (history : List CoreEvent) (event : CoreEvent),
      CoreRun setup history event.before →
      coreStep event.before event.input event.output event.after →
      inv history event.before → inv (event :: history) event.after)
    {history : List CoreEvent} {final : World}
    (run : CoreRun setup history final) : inv history final := by
  obtain ⟨first, fresh, run⟩ := run
  induction run with
  | nil => exact atStart first fresh
  | snoc earlier stepped induction =>
      exact preserved _ ⟨_, _, _, _⟩ ⟨first, fresh, earlier⟩ stepped induction

/-- A gray core on a panel that answers as given. -/
def CoreSetup.gray (width height : Nat) (pumpReply : Nat → Bool)
    (submitReply : Nat → Option PanelSubmissionMetrics) : CoreSetup where
  width
  height
  pixelFormat := .gray8
  maxFpsX100 := 6000
  settledDeadline := .ofMillis 500
  config := { RefreshPolicyConfig.forProfile .balanced with damageTile := 1 }
  info := ⟨width, height, false⟩
  pumpReply
  submitReply

/-- A frame that sets one rectangle of a gray surface. -/
def grayFrame (frameId baseFrameId : Nat) (intent : FrameIntent) (rect : Rect)
    (pixels : Bytes) : ValidatedFrame where
  frameId
  baseFrameId
  intent
  pixelFormat := .gray8
  decodedBytes := pixels.length
  regions := [⟨rect, pixels⟩]

/-- The panel calls of one operation, the latest first. -/
def CoreEvent.calls (event : CoreEvent) : List PanelCall :=
  event.after.panel.calls.take
    (event.after.panel.calls.length - event.before.panel.calls.length)

theorem CoreEvent.calls_eq {event : CoreEvent} {new : List PanelCall}
    (added : event.after.panel.calls = new ++ event.before.panel.calls) :
    event.calls = new := by
  rw [calls, added, List.length_append, Nat.add_sub_cancel]
  exact List.take_left

end RmDisplay.Core
