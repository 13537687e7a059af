import RmDisplay.Receiver.FrameOutcomes

/-!
# The frozen background

While the background is frozen no frame is pending and none is accepted, and
the base is the presented frame, so that ink belongs to exactly this frame.
Afterwards the base has to be sent anew before a delta is accepted.
-/

namespace RmDisplay.Receiver

open Foundation Protocol RmDisplay.Core Core.DisplayCore

/-- The frame that is frozen, with its pixels. -/
def frozenAt : List JournalEntry → Option (Nat × PixelSurface)
  | [] => none
  | .froze presentedFrameId background :: _ =>
      some (presentedFrameId, background)
  | .released :: _ | .opened .. :: _ | .closed :: _ => none
  | _ :: older => frozenAt older

/-- Was a keyframe accepted since the surface was opened or last frozen? -/
def keyframeSince : List JournalEntry → Bool
  | [] => false
  | .accepted _ validated :: older =>
      decide (validated.baseFrameId = 0) || keyframeSince older
  | .froze .. :: _ | .opened .. :: _ | .closed :: _ => false
  | _ :: older => keyframeSince older

/-- The frame an envelope with the frozen flag names. -/
def flaggedFrame : Body → Option Nat
  | .inputBatch batch =>
      if batch.inkFrozen then some batch.presentedFrameId else none
  | .overlayResult result =>
      if result.inkFrozen then some result.presentedFrameId else none
  | _ => none

/-- A flag names the frozen frame, frames are accepted only while none is
frozen, and deltas only after a keyframe. -/
def HeedsFreeze (older : List JournalEntry) : JournalEntry → Prop
  | .sent body _ => ∀ frameId ∈ flaggedFrame body,
      ∃ background, frozenAt older = some (frameId, background)
  | .accepted _ validated => frozenAt older = none ∧
      (validated.baseFrameId = 0 ∨ keyframeSince older = true)
  | _ => True

/-- Every entry heeds what was frozen before it. -/
def AllHeedFreeze : List JournalEntry → Prop
  | [] => True
  | entry :: older => HeedsFreeze older entry ∧ AllHeedFreeze older

theorem AllHeedFreeze.of_split {entries newer older : List JournalEntry}
    {entry : JournalEntry} (all : AllHeedFreeze entries)
    (split : entries = newer ++ entry :: older) : HeedsFreeze older entry := by
  subst split
  induction newer with
  | nil => exact all.1
  | cons _ newer induction => exact induction all.2

/-- What freezing means for the frames of a session. -/
structure FreezeKept (view : Option FrameView) (entries : List JournalEntry) :
    Prop where
  frozen : ∀ shown, view = some shown → shown.frozen = true →
    shown.state.pending = none ∧
      shown.state.base = shown.state.presentedBase ∧
      frozenAt entries =
        some (shown.state.presentedFrameId, shown.state.presentedBase)
  live : FrameView.isFrozen view = false → frozenAt entries = none
  unkeyed : ∀ shown, view = some shown → keyframeSince entries = false →
    shown.state.baseValid = false ∧ shown.state.pending = none
  heeded : AllHeedFreeze entries

namespace FreezeKept

variable {view next : Option FrameView} {entries older : List JournalEntry}
  {made : List PanelCall} {shown : FrameView}

theorem flags (kept : FreezeKept view older) {body : Body}
    (reports : FrameView.Reports view body) :
    ∀ frameId ∈ flaggedFrame body,
      ∃ background, frozenAt older = some (frameId, background) := by
  have named {presentedFrameId : Nat} {inkFrozen : Bool}
      (names : FrameView.Names view presentedFrameId inkFrozen)
      (flag : inkFrozen = true) :
      ∃ background, frozenAt older = some (presentedFrameId, background) := by
    have isFrozen : FrameView.isFrozen view = true :=
      names.frozen.symm.trans flag
    obtain ⟨shown, isShown, frozen⟩ := (Option.any_eq_true _ _).mp isFrozen
    have isPresented : presentedFrameId = shown.state.presentedFrameId := by
      rw [names.presented, isShown]
      rfl
    rw [isPresented]
    exact ⟨_, (kept.frozen shown isShown frozen).2.2⟩
  intro frameId member
  cases body with
  | inputBatch batch =>
      obtain ⟨flag, rfl⟩ : batch.inkFrozen = true ∧
          batch.presentedFrameId = frameId := by
        simpa [flaggedFrame] using member
      exact named reports flag
  | overlayResult result =>
      obtain ⟨flag, rfl⟩ : result.inkFrozen = true ∧
          result.presentedFrameId = frameId := by
        simpa [flaggedFrame] using member
      rcases reports with names | ⟨_, _, unflagged⟩
      · exact named names flag
      · rw [unflagged] at flag
        cases flag
  | _ => cases member

theorem quiet (kept : FreezeKept view older)
    (plain : ∀ entry ∈ entries, FrameView.Quiet view entry) :
    FreezeKept view (entries ++ older) := by
  induction entries with
  | nil => exact kept
  | cons entry entries induction =>
      obtain ⟨isQuiet, others⟩ := List.forall_mem_cons.mp plain
      have before := induction others
      have sameFrozen : frozenAt (entry :: entries ++ older) =
          frozenAt (entries ++ older) := by
        cases entry with
        | froze _ _ | released | opened _ _ _ _ | closed => exact isQuiet.elim
        | _ => rfl
      have sameKeyframe : keyframeSince (entry :: entries ++ older) =
          keyframeSince (entries ++ older) := by
        cases entry with
        | accepted _ _ | froze _ _ | opened _ _ _ _ | closed =>
            exact isQuiet.elim
        | _ => rfl
      constructor
      · rw [sameFrozen]
        exact before.frozen
      · rw [sameFrozen]
        exact before.live
      · rw [sameKeyframe]
        exact before.unkeyed
      · refine ⟨?_, before.heeded⟩
        cases entry with
        | sent body pending => exact before.flags isQuiet
        | accepted _ _ => exact isQuiet.elim
        | _ => trivial

theorem change (kept : FreezeKept view older) {failed : Bool}
    {state : FrameState} (isShown : view = some shown)
    (changes : FrameChange failed shown.state state) :
    FreezeKept (some { shown with state }) older := by
  have idle {pending : PendingPresentation}
      (isPending : shown.state.pending = some pending) :
      shown.frozen = false ∧ keyframeSince older = true := by
    constructor
    · by_contra frozen
      have none := (kept.frozen shown isShown (by simpa using frozen)).1
      rw [none] at isPending
      cases isPending
    · by_contra unkeyed
      have none := (kept.unkeyed shown isShown (by simpa using unkeyed)).2
      rw [none] at isPending
      cases isPending
  constructor
  · rintro _ ⟨⟩ frozen
    obtain ⟨none, same, isFrozen⟩ := kept.frozen shown isShown frozen
    cases changes with
    | kept => exact ⟨none, same, isFrozen⟩
    | dropped | failed => exact ⟨rfl, same, isFrozen⟩
    | presented isPending =>
        rw [(idle isPending).1] at frozen
        cases frozen
  · intro live
    refine kept.live ?_
    rw [isShown]
    exact live
  · rintro _ ⟨⟩ unkeyed
    obtain ⟨invalid, none⟩ := kept.unkeyed shown isShown unkeyed
    cases changes with
    | kept => exact ⟨invalid, none⟩
    | dropped => exact ⟨invalid, rfl⟩
    | failed => exact ⟨rfl, rfl⟩
    | presented isPending =>
        rw [(idle isPending).2] at unkeyed
        cases unkeyed
  · exact kept.heeded

theorem accept (kept : FreezeKept view older) {frame : Frame}
    {validated : ValidatedFrame} {base : PixelSurface}
    {pending : PendingPresentation} (isShown : view = some shown)
    (accepts : shown.Accepts frame validated base) :
    FreezeKept
      (some { shown with
        state := { shown.state with
          base
          baseValid := true
          logicalFrameId := validated.frameId
          pending := some pending } })
      (.accepted frame validated :: older) := by
  have notFrozen : frozenAt older = none := by
    refine kept.live ?_
    rw [isShown]
    exact accepts.live
  have keyed : validated.baseFrameId = 0 ∨ keyframeSince older = true := by
    rcases accepts.onBase with keyframe | ⟨valid, _⟩
    · exact .inl keyframe
    · right
      by_contra unkeyed
      have invalid := (kept.unkeyed shown isShown (by simpa using unkeyed)).1
      rw [valid] at invalid
      cases invalid
  constructor
  · rintro _ ⟨⟩ frozen
    rw [show shown.frozen = false from accepts.live] at frozen
    cases frozen
  · exact fun _ => notFrozen
  · rintro _ ⟨⟩ unkeyed
    rcases keyed with keyframe | since
    · simp [keyframeSince, keyframe] at unkeyed
    · simp [keyframeSince, since] at unkeyed
  · exact ⟨⟨notFrozen, keyed⟩, kept.heeded⟩

end FreezeKept

theorem FaceMove.freezeKept {view next : Option FrameView}
    {entries older : List JournalEntry} {made : List PanelCall}
    (moves : FaceMove view entries made next) (kept : FreezeKept view older) :
    FreezeKept next (entries.reverse ++ older) := by
  cases moves with
  | quiet _ plain =>
      exact kept.quiet fun entry member =>
        plain entry (List.mem_reverse.mp member)
  | core isShown changes => exact kept.change isShown changes
  | froze isShown live presented =>
      constructor
      · rintro _ ⟨⟩ _
        exact ⟨rfl, rfl, rfl⟩
      · intro live
        cases live
      · rintro _ ⟨⟩ _
        exact ⟨rfl, rfl⟩
      · exact ⟨trivial, kept.heeded⟩
  | released isShown frozen =>
      constructor
      · rintro _ ⟨⟩ frozen
        cases frozen
      · exact fun _ => rfl
      · rintro _ ⟨⟩ unkeyed
        have invalid := kept.unkeyed _ isShown unkeyed
        exact invalid
      · exact ⟨trivial, kept.heeded⟩
  | accepted isShown accepts _ => exact kept.accept isShown accepts
  | opened _ _ _ _ live blank =>
      constructor
      · rintro _ ⟨⟩ frozen
        rw [live] at frozen
        cases frozen
      · exact fun _ => rfl
      · rintro _ ⟨⟩ _
        exact ⟨blank.1, blank.2.2.2⟩
      · exact ⟨trivial, kept.heeded⟩
  | closed =>
      constructor
      · rintro _ ⟨⟩
      · exact fun _ => rfl
      · rintro _ ⟨⟩
      · exact ⟨trivial, kept.heeded⟩

theorem SessionRun.freezeKept {setup : SessionSetup}
    {history : List SessionEvent} {final : Session}
    (run : SessionRun setup history final) :
    FreezeKept final.face.frameView (entriesOf history) := by
  have holds := run.keepsAlways (fun face =>
      FreezeKept face.frameView (face.journal.map (·.entry))) ?_
    fun step _ holds => by
      obtain ⟨_, _, moves⟩ := step.frames
      rw [step.journal]
      exact moves.freezeKept holds
  · rw [← run.journal]
    exact holds
  · constructor
    · rintro _ ⟨⟩
    · exact fun _ => rfl
    · rintro _ ⟨⟩
    · trivial

/-- A delta that a session could accept if it had the base. -/
structure ValidButBase (session : Session) (surface : ActiveSurface)
    (frame : Frame) : Prop where
  delta : frame.baseFrameId ≠ 0
  negotiated : ∀ region ∈ frame.regions,
    session.negotiatedEncodings.contains region.encoding = true
  credit : session.credits ≠ 0
  affordable : ∃ cost, Session.decodedCost frame = some cost ∧
    (session.byteCreditsEnabled = true → cost ≤ session.byteCredits)
  newer : surface.core.logicalFrameId < frame.frameId
  valid : ∃ validated, validateAndDecodeFrame session.codecs frame
    { session.surfaceState surface with logicalFrameId := frame.baseFrameId } =
      .ok validated

namespace Session

variable {session : Session} {surface : ActiveSurface} {frame : Frame}

theorem admitFrame_frozen (active : session.surface = some surface)
    (frozen : surface.inkFrozen = true) (frame : Frame) :
    session.admitFrame frame = .error ⟨.rejected, .inkFrozen⟩ := by
  unfold admitFrame
  rw [active, Option.any_some, if_pos frozen]

/-- What the checks before the core say about a delta that is valid but for
its base. -/
theorem admitFrame_validButBase (active : session.surface = some surface)
    (live : surface.inkFrozen = false)
    (valid : ValidButBase session surface frame) :
    session.admitFrame frame = .error ⟨.needKeyframe, .badBase⟩ ∨
      ∃ validated, session.admitFrame frame = .ok (surface, validated) := by
  obtain ⟨cost, computed, affordable⟩ := valid.affordable
  obtain ⟨validated, validates⟩ := valid.valid
  have negotiated : frame.regions.any (fun region =>
      !session.negotiatedEncodings.contains region.encoding) = false := by
    rw [List.any_eq_false]
    intro region member
    rw [valid.negotiated region member]
    exact Bool.false_ne_true
  have notExceeding : ¬ (session.byteCreditsEnabled = true ∧
      session.byteCredits < cost) := by
    rintro ⟨enabled, exceeds⟩
    have := affordable enabled
    omega
  unfold admitFrame
  rw [active, Option.any_some, if_neg (by simp [live]),
    if_neg (Bool.eq_false_iff.mp negotiated), if_neg valid.credit, computed]
  dsimp only
  rw [if_neg notExceeding]
  by_cases same : frame.baseFrameId = surface.core.logicalFrameId
  · right
    have isState : { session.surfaceState surface with
        logicalFrameId := frame.baseFrameId } =
          session.surfaceState surface := by
      rw [same]
      rfl
    rw [isState] at validates
    rw [validates]
    exact ⟨validated, rfl⟩
  · left
    rw [validate_offBase valid.newer valid.delta same validates]
    rfl

theorem acceptFrame_validButBase (active : session.surface = some surface)
    (live : surface.inkFrozen = false)
    (invalid : surface.core.baseValid = false)
    (idle : surface.core.pending = none)
    (valid : ValidButBase session surface frame) (now : Duration) :
    ∃ answers after, (acceptFrame frame now).Runs session (.ok answers)
        after ∧
      FrameRefused ⟨.needKeyframe, .badBase⟩ session frame answers after := by
  rcases admitFrame_validButBase active live valid with
    refuses | ⟨validated, admits⟩
  · exact acceptFrame_unadmitted refuses now
  · have decodes := (admits_of_admitFrame admits).decodes
    have notSettled : surface.core.pendingIsSettled = false := by
      rw [pendingIsSettled, idle]
      rfl
    rcases commitTimed_of_decodes decodes (contentClass frame.contentClass)
      ((session.stopwatch session.readings).timing now)
      (durationUs (session.stopwatch session.readings).decodeElapsed) with
      ⟨report, core, commits⟩ | ⟨_, settled⟩ | ⟨offBase, _⟩
    · obtain ⟨_, _, _, onBase, _⟩ := commitTimed_eq_ok commits
      rcases onBase with keyframe | ⟨isValid, _⟩
      · rw [decodes.baseFrameId] at keyframe
        exact absurd keyframe valid.delta
      · rw [invalid] at isValid
        cases isValid
    · rw [notSettled] at settled
      cases settled
    · exact acceptFrame_uncommitted admits offBase

end Session

/-- In every session a frozen background is the presented frame at the moment
of freezing, every frame is refused for it, flags name its frame, and deltas
have to wait for a keyframe afterwards. -/
theorem frozenBackground_of_run {setup : SessionSetup}
    {history : List SessionEvent} {final : Session}
    (run : SessionRun setup history final) :
    (∀ newer entry older, entriesOf history = newer ++ entry :: older →
      HeedsFreeze older entry) ∧
    (∀ snapshot, final.inkSnapshot = .ok snapshot → snapshot.frozen = true →
      ∃ background, frozenAt (entriesOf history) =
        some (snapshot.presentedFrameId, background)) ∧
    ∀ surface, final.surface = some surface →
      (surface.inkFrozen = true →
        surface.core.pending = none ∧
        surface.core.base = surface.core.presentedBase ∧
        frozenAt (entriesOf history) =
          some (surface.core.presentedFrameId, surface.core.presentedBase) ∧
        ∀ frame now, ∃ answers after,
          (Session.acceptFrame frame now).Runs final (.ok answers) after ∧
          FrameRefused ⟨.rejected, .inkFrozen⟩ final frame answers after) ∧
      (surface.inkFrozen = false →
        keyframeSince (entriesOf history) = false →
        ∀ frame, ValidButBase final surface frame → ∀ now,
          ∃ answers after,
            (Session.acceptFrame frame now).Runs final (.ok answers) after ∧
            FrameRefused ⟨.needKeyframe, .badBase⟩ final frame answers
              after) := by
  have kept := run.freezeKept
  have isShown {surface : ActiveSurface}
      (active : final.surface = some surface) :
      final.face.frameView = some surface.frameView := by
    rw [frameView_face, active, Option.map_some]
  refine ⟨fun newer entry older => kept.heeded.of_split, ?_, ?_⟩
  · intro snapshot given frozen
    unfold Session.inkSnapshot at given
    split at given
    · cases given
    · rename_i surface active
      obtain ⟨bitmap, _, stored⟩ := Res.bind_eq_ok.mp given
      cases stored
      exact ⟨_, (kept.frozen _ (isShown active) frozen).2.2⟩
  · intro surface active
    constructor
    · intro frozen
      obtain ⟨idle, same, isFrozen⟩ := kept.frozen _ (isShown active) frozen
      refine ⟨idle, same, isFrozen, ?_⟩
      intro frame now
      exact Session.acceptFrame_unadmitted
        (Session.admitFrame_frozen active frozen frame) now
    · intro live unkeyed frame valid now
      obtain ⟨invalid, idle⟩ := kept.unkeyed _ (isShown active) unkeyed
      exact Session.acceptFrame_validButBase active live invalid idle valid
        now

/-- A frame is presented and frozen, and the next one is refused. -/
theorem frozenBackground_of_freeze :
    ∃ setup history final surface, SessionRun setup history final ∧
      final.surface = some surface ∧ surface.inkFrozen = true ∧
      surface.core.pending = none ∧
      frozenAt (entriesOf history) =
        some (1, surface.core.presentedBase) := by
  have ran := @SessionSetup.ran (.gray 1 1 (fun _ => true)
      fun _ => some ⟨0, 0, 2⟩)
    [grayMessage 4 (grayFrame 1 1 2 1 .latest ⟨0, 0, 1, 1⟩ [7]) (.ofSecs 4),
      .setFrameFrozen true (.ofSecs 3),
      grayMessage 3 (grayFrame 1 1 1 0 .settled ⟨0, 0, 1, 1⟩ [9]) (.ofSecs 2),
      grayMessage 2 (grayOpen 1 []) (.ofSecs 1),
      grayMessage 1 (.clientHello (grayHello [.byteCredits])) 1]
    (fun _ final => final.surface.any (fun surface =>
      surface.inkFrozen && surface.core.presentedFrameId == 1))
    (by decide +kernel)
  obtain ⟨history, final, run, checked⟩ := ran
  obtain ⟨surface, active, both⟩ := (Option.any_eq_true _ _).mp checked
  rw [Bool.and_eq_true, beq_iff_eq] at both
  obtain ⟨frozen, presented⟩ := both
  obtain ⟨idle, _, isFrozen, _⟩ :=
    ((frozenBackground_of_run run).2.2 surface active).1 frozen
  rw [presented] at isFrozen
  exact ⟨_, history, final, surface, run, active, frozen, idle, isFrozen⟩

end RmDisplay.Receiver
