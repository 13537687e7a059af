import RmDisplay.Foundation.Emission
import RmDisplay.Receiver.InkBoundaries
import RmDisplay.Receiver.OverlayUpdates

/-!
# Operations that are boundaries of the ink

Pausing and resuming, switching local ink, clearing, freezing and releasing,
and the updates that clear or switch the ink are boundaries at their own time.
-/

namespace RmDisplay.Receiver

open Foundation Protocol RmDisplay.Core Core.DisplayCore

/-- An operation that is a boundary for the ink of the active surface. -/
inductive BoundaryRun (now : Duration) (before after : Session) : Prop where
  | paused {surface : ActiveSurface} {paused : Bool}
      (active : before.surface = some surface)
      (changes : surface.inkPaused ≠ paused)
      (runs : (Session.setInkPaused paused now).Runs before (.ok ()) after)
  | localInk {surface : ActiveSurface} {enabled : Bool}
      (active : before.surface = some surface)
      (changes : surface.localInk ≠ enabled)
      (runs : (Session.setLocalInk enabled now).Runs before (.ok ()) after)
  | cleared {answers : List Envelope}
      (runs : (Session.clearInk now).Runs before (.ok answers) after)
  | frozen {surface : ActiveSurface} {frozen : Bool} {answers : List Envelope}
      (active : before.surface = some surface)
      (changes : surface.inkFrozen ≠ frozen)
      (runs : (Session.setFrameFrozen frozen now).Runs before (.ok answers)
        after)
  | overlay {update : OverlayUpdate} {earlier : List Body}
      {answers : List Envelope}
      (asks : (update.clear || update.localInk.isSome) = true)
      (applied : OverlayAnswered update true earlier answers)
      (runs : (Session.overlayUpdate update now).Runs before (.ok answers)
        after)

/-- The journal has a new boundary. -/
def WritesBoundary (now : Duration) (before after : Session) : Prop :=
  ∃ calls paused older, before.journal <:+ older ∧
    ⟨calls, .boundary now paused⟩ :: older <:+ after.journal

namespace Session

variable {before after : Session} {surface : ActiveSurface}

/-- The journal only grows. -/
def growing : Emission Session Envelope :=
  .ofRelation (fun before after => before.journal <:+ after.journal)
    (fun _ => List.suffix_rfl) List.IsSuffix.trans

theorem grown {entry : JournalEntry} (session : Session) :
    session.journal <:+ (session.note entry).journal :=
  List.suffix_cons _ _

theorem wrap_grows {body : Body} : growing.Emits (wrap body) fun _ => [] := by
  intro before output after runs
  obtain ⟨rfl, rfl⟩ := wrap_runs runs
  exact grown before

theorem frameResult_grows {key : FrameKey} {verdict : Verdict}
    {logical presented : Nat} {metrics : Option PresentationMetrics} :
    growing.Emits (frameResult key verdict logical presented metrics)
      fun _ => [] :=
  .of_from fun _ => .get (.all wrap_grows)

theorem terminalResults_grows {terminals : List TerminalFrame} :
    growing.Emits (terminalResults terminals) fun _ => [] := by
  refine .gatherQuiet (fun terminal => ?_) terminals
  refine .of_from fun _ => .quiet (.of_from fun _ => .get ?_) fun _ _ =>
    .pure rfl
  exact .all frameResult_grows

theorem runCore_grows {α : Type} {now : Duration}
    {operation : Timing → CoreProc α} :
    growing.Emits (runCore now operation) fun _ => [] := by
  refine .of_from fun session => .quiet (.of_from fun _ => .get (.set
    List.suffix_rfl (.pure rfl))) fun stopwatch between => .get ?_
  split
  · exact .panic
  · have anything : (Emission.ofRelation (fun (_ _ : World) => True)
        (fun _ => trivial) fun _ _ => trivial :
          Emission World Envelope).Emits (operation (stopwatch.timing now))
        fun _ => [] := fun _ _ _ _ => trivial
    exact .zoom (fun _ _ => List.suffix_rfl) anything

theorem pointerBatch_grows {surfaceId generation : Nat}
    {report : List PhysicalPointerEvent} {now : Duration} :
    growing.Emits (pointerBatch surfaceId generation report now)
      fun _ => [] :=
  .of_from fun _ => .get (.all (.of_from fun _ => .get (.set
    List.suffix_rfl (.all wrap_grows))))

theorem editActive_grows {change : ActiveSurface → SurfaceRes ActiveSurface} :
    growing.Emits (editActive change) fun _ => [] := by
  refine .of_from fun session => .get ?_
  split
  · exact .pure rfl
  · exact .ofRes fun changed _ => .finish List.suffix_rfl rfl

theorem noteFrozen_grows (session : Session) (earlier later : ActiveSurface) :
    session.journal <:+ (session.noteFrozen earlier later).journal := by
  unfold noteFrozen
  split
  · exact grown session
  · exact grown session
  · exact List.suffix_rfl
  · exact List.suffix_rfl

theorem overlayInk_grows (session : Session) (surface : ActiveSurface)
    (update : OverlayUpdate) :
    session.journal <:+ (session.overlayInk surface update).journal := by
  unfold overlayInk
  split
  · exact List.suffix_rfl
  · exact List.suffix_rfl
  · exact (grown session).trans (noteFrozen_grows _ _ _)

theorem showUpdate_grows {update : OverlayUpdate} {now : Duration} :
    growing.Emits (do
      editActive fun surface => overlayPatched surface update
      Proc.modify fun session =>
        match session.surface with
        | none => session
        | some surface => session.overlayInk surface update
      let terminals ← runCore now DisplayCore.presentOverlay
      let responses ← terminalResults terminals
      let session ← Proc.get
      let result ← overlayResult update true "" session.surface
      return responses ++ [result]) fun _ => [] := by
  refine .of_from fun session => .quiet editActive_grows fun _ between => ?_
  refine .modify ?_ (.quiet runCore_grows fun terminals _ => ?_)
  · split
    · exact List.suffix_rfl
    · exact overlayInk_grows _ _ _
  · refine .quiet terminalResults_grows fun responses _ => .get ?_
    exact .quiet wrap_grows fun _ _ => .pure rfl

theorem writes_of_grows {now : Duration} {middle : Session}
    {older : List JournalRecord} {calls : Nat} {paused : Bool}
    (noted : middle.journal = ⟨calls, .boundary now paused⟩ :: older)
    (fresh : before.journal <:+ older)
    (grows : middle.journal <:+ after.journal) :
    WritesBoundary now before after :=
  ⟨calls, paused, older, fresh, noted ▸ grows⟩

end Session

theorem not_applied {update : OverlayUpdate} {earlier : List Body}
    {answers : List Envelope} {problem : String}
    {shown : Option ActiveSurface} {start after : Session}
    (applied : OverlayAnswered update true earlier answers)
    (runs : (do return [← Session.overlayResult update false problem
      shown]).Runs start (.ok answers) after) : False := by
  obtain ⟨envelope, rfl, built⟩ := Session.alone_runs runs
  obtain ⟨_, _, other, same, isBody, notApplied, _⟩ :=
    Session.overlayResult_answers built
  cases same
  obtain ⟨result, isLast, isApplied, _⟩ := applied.last
  have isOnly : earlier ++ [Body.overlayResult result] =
      [.overlayResult other] := by
    rw [← isLast]
    simp [bodies, isBody]
  have sameResult : result = other := by
    rcases List.append_eq_singleton_iff.mp isOnly with ⟨_, same⟩ | ⟨_, none⟩
    · cases same
      rfl
    · cases none
  rw [sameResult, notApplied] at isApplied
  cases isApplied

theorem applyOverlay_writes {surface : ActiveSurface} {update : OverlayUpdate}
    {now : Duration} {before start after : Session} {answers : List Envelope}
    (same : start.journal = before.journal)
    (asks : (update.clear || update.localInk.isSome) = true)
    (runs : (Session.applyOverlay surface update now).Runs start (.ok answers)
      after) : WritesBoundary now before after := by
  unfold Session.applyOverlay at runs
  rw [Proc.runs_modify_bind] at runs
  have grows := Session.showUpdate_grows _ _ _ runs
  have isNoted : ∃ calls, ⟨calls, .boundary now surface.inkPaused⟩ ::
      start.journal <:+ (start.overlayCleared surface update now).journal := by
    unfold Session.overlayCleared
    rw [if_pos asks]
    dsimp only
    split
    · exact ⟨_, List.suffix_cons _ _⟩
    · exact ⟨_, List.suffix_rfl⟩
  obtain ⟨calls, noted⟩ := isNoted
  exact ⟨calls, surface.inkPaused, start.journal, same ▸ List.suffix_rfl,
    noted.trans grows⟩

theorem BoundaryRun.writes {now : Duration} {before after : Session}
    (bounds : BoundaryRun now before after) :
    WritesBoundary now before after := by
  cases bounds with
  | paused active changes runs =>
      unfold Session.setInkPaused at runs
      rw [Proc.runs_get_bind, active] at runs
      dsimp only at runs
      rw [if_pos (by simpa using changes), Proc.runs_set] at runs
      rw [runs.2]
      exact Session.writes_of_grows rfl List.suffix_rfl List.suffix_rfl
  | localInk active changes runs =>
      unfold Session.setLocalInk at runs
      rw [Proc.runs_get_bind] at runs
      split at runs
      · cases runs
      · rw [active] at runs
        dsimp only at runs
        rw [if_pos (by simpa using changes), Proc.runs_set] at runs
        rw [runs.2]
        exact Session.writes_of_grows rfl List.suffix_rfl List.suffix_rfl
  | cleared runs =>
      unfold Session.clearInk at runs
      rw [Proc.runs_get_bind] at runs
      split at runs
      · cases runs
      · rw [Proc.runs_set_bind] at runs
        have tail : Session.growing.Emits (do
            let terminals ← Session.runCore now DisplayCore.presentInk
            Session.terminalResults terminals) fun _ => [] :=
          .of_from fun _ => .quiet Session.runCore_grows fun _ _ =>
            .all Session.terminalResults_grows
        exact Session.writes_of_grows rfl (Session.grown before)
          (tail _ _ _ runs)
  | @frozen surface frozen _ active changes runs =>
      unfold Session.setFrameFrozen at runs
      rw [Proc.runs_get_bind, active] at runs
      dsimp only at runs
      rw [if_neg changes] at runs
      split at runs
      · cases runs
      · rw [Proc.runs_set_bind] at runs
        have tail (terminals : List TerminalFrame) : Session.growing.Emits (do
            let responses ← Session.terminalResults terminals
            if surface.penForwardingEnabled then
              let batch ← Session.pointerBatch surface.surfaceId
                surface.generation [] now
              return responses ++ [batch]
            else return responses) fun _ => [] := by
          refine .of_from fun _ => .quiet Session.terminalResults_grows
            fun responses _ => .ite (fun _ => ?_) fun _ => .pure rfl
          exact .quiet Session.pointerBatch_grows fun _ _ => .pure rfl
        exact Session.writes_of_grows rfl (Session.noteFrozen_grows _ _ _)
          (tail _ _ _ _ runs)
  | @overlay update _ _ asks applied runs =>
      unfold Session.overlayUpdate at runs
      rw [Proc.runs_get_bind] at runs
      dsimp only at runs
      rw [Proc.runs_set_bind] at runs
      generalize isStart : (if decide (update.sequence ≠ 0 ∧
          before.overlaySequence < update.sequence) = true then
        { before with overlaySequence := update.sequence } else before) = start
        at runs
      have same : start.journal = before.journal := by
        rw [← isStart]
        split
        · rfl
        · rfl
      split at runs
      · exact (not_applied applied runs).elim
      · split at runs
        · exact (not_applied applied runs).elim
        · split at runs
          · exact (not_applied applied runs).elim
          · split at runs
            · exact (not_applied applied runs).elim
            · split at runs
              · exact (not_applied applied runs).elim
              · exact applyOverlay_writes same asks runs

/-- Does a record draw a segment? -/
def JournalEntry.draws : JournalEntry → Bool
  | .penned _ _ _ (some _) _ _ => true
  | _ => false

section

variable {between older : List JournalEntry} {since : Duration} {paused : Bool}

theorem boundaryTimes_of_split
    (stays : ∀ entry ∈ between, entry.moves = false) :
    since ∈ boundaryTimes (between ++ .boundary since paused :: older) := by
  induction between with
  | nil => exact List.mem_cons_self
  | cons entry between induction =>
      obtain ⟨isStill, others⟩ := List.forall_mem_cons.mp stays
      have member := induction others
      cases entry with
      | boundary _ _ => exact List.mem_cons_of_mem _ member
      | opened _ _ _ _ | closed => cases isStill
      | _ => exact member

theorem drawnSince_of_split
    (undrawn : ∀ entry ∈ between, entry.draws = false) :
    drawnSince (between ++ .boundary since paused :: older) = false := by
  induction between with
  | nil => rfl
  | cons entry between induction =>
      obtain ⟨isUndrawn, others⟩ := List.forall_mem_cons.mp undrawn
      cases entry with
      | penned _ _ _ segment _ _ =>
          cases segment with
          | some _ => cases isUndrawn
          | none => exact induction others
      | boundary _ _ | opened _ _ _ _ | closed => rfl
      | _ => exact induction others

theorem strokeGoesOn_of_split {limit : Duration} {localInk : Bool}
    (goesOn : StrokeGoesOn limit localInk
      (between ++ .boundary since paused :: older))
    (late : since ≤ limit) : StrokeGoesOn since localInk between := by
  obtain ⟨newer, captured, record, segment, context, ink, rest, split, isDown,
    after, same, draws, plain⟩ := goesOn
  rcases List.append_eq_append_iff.mp split with
    ⟨more, isNewer, isRest⟩ | ⟨more, isBetween, isRest⟩
  · cases more with
    | nil => cases isRest
    | cons entry more =>
        cases isRest
        have starts := (plain (.boundary since paused)
          (by rw [isNewer]; simp)).1
        cases starts
  · cases more with
    | nil => cases isRest
    | cons entry more =>
        cases isRest
        exact ⟨newer, captured, record, segment, context, ink, more, isBetween,
          isDown, late.trans after, same, draws, plain⟩

end

/-- A stroke that goes on over entries without a segment began when no frame was
presented. -/
theorem StrokeGoesOn.unpresented {since : Duration} {entries : List JournalEntry}
    (goesOn : StrokeGoesOn since true entries)
    (undrawn : ∀ entry ∈ entries, entry.draws = false) :
    ∃ captured record context ink,
      .penned captured true record none context ink ∈ entries ∧
        Session.penPhase record = .down ∧ since ≤ captured ∧
        context.presentedFrameId = 0 := by
  obtain ⟨newer, captured, record, segment, context, ink, older, rfl, isDown,
    late, _, draws, _⟩ := goesOn
  have member : JournalEntry.penned captured true record segment context ink ∈
      newer ++ .penned captured true record segment context ink :: older := by
    simp
  have isUndrawn := undrawn _ member
  cases segment with
  | some _ => cases isUndrawn
  | none =>
      exact ⟨captured, record, context, ink, member, isDown, late,
        draws rfl rfl⟩

/-- In every session, after a boundary: a record that draws nothing leaves the
ink, a segment is drawn by a record of the pen captured since the boundary and
while the ink is not paused, a MOVE continues a stroke that began since then,
and the first segment starts at its own point.  While local ink is on and a
frame is presented a DOWN draws, so the first segment is the one of a DOWN,
unless no frame was presented at the DOWN. -/
theorem inkBoundary_of_run {setup : SessionSetup}
    {history : List SessionEvent} {final : Session}
    (run : SessionRun setup history final) :
    (∀ surface, final.surface = some surface →
      inkAt (entriesOf history) = some surface.core.ink.planes ∧
      pausedAt (entriesOf history) = surface.inkPaused) ∧
    (∀ now before after, BoundaryRun now before after →
      WritesBoundary now before after) ∧
    ∀ newest between older since paused captured physical record segment
        context ink,
      entriesOf history = newest ++
        .penned captured physical record segment context ink ::
          (between ++ .boundary since paused :: older) →
      (∀ entry ∈ between, entry.moves = false) →
        (segment = none →
          inkAt (between ++ .boundary since paused :: older) = some ink) ∧
        (physical = true → Session.penPhase record = .down →
          pausedAt (between ++ .boundary since paused :: older) = false →
          context.notBefore ≤ captured → context.localInk = true →
          context.presentedFrameId ≠ 0 → segment.isSome = true) ∧
        ∀ drawn, segment = some drawn →
          physical = true ∧ since ≤ captured ∧
          pausedAt (between ++ .boundary since paused :: older) = false ∧
          (Session.penPhase record = .down ∨
            Session.penPhase record = .move ∧
              StrokeGoesOn since true between) ∧
          drawn.target = context.pixel record ∧
          ((∀ entry ∈ between, entry.draws = false) →
            drawn.origin = drawn.target ∧
            (Session.penPhase record = .down ∨
              ∃ earlier down unshown blank,
                .penned earlier true down none unshown blank ∈ between ∧
                  Session.penPhase down = .down ∧ since ≤ earlier ∧
                  unshown.presentedFrameId = 0)) := by
  have kept := run.penKept
  refine ⟨fun surface active => ?_, fun _ _ _ bounds => bounds.writes, ?_⟩
  · have isShown : final.face.penView = some surface.screen.penView := by
      rw [Face.penView, Session.face, active]
      rfl
    exact ⟨kept.ink _ isShown, kept.paused _ isShown⟩
  · intro newest between older since paused captured physical record segment
      context ink split stays
    have heeds := kept.heeded.of_split split
    have after := @boundaryTimes_of_split between older since paused stays
    cases segment with
    | none =>
        refine ⟨?_, ?_, ?_⟩
        · intro _
          exact heeds.1
        · intro isPhysical isDown live late inkOn presented
          exact absurd (heeds.2 isPhysical isDown live late inkOn) presented
        · rintro drawn ⟨⟩
    | some drawn =>
        refine ⟨?_, fun _ _ _ _ _ _ => rfl, ?_⟩
        · rintro ⟨⟩
        rintro _ ⟨⟩
        obtain ⟨isPhysical, live, times, stroke, first, ends⟩ := heeds
        have goesOn : Session.penPhase record = .down ∨
            Session.penPhase record = .move ∧
              StrokeGoesOn since true between := by
          refine stroke.imp id ?_
          rintro ⟨move, limit, late, goesOn⟩
          exact ⟨move, strokeGoesOn_of_split goesOn (late since after)⟩
        refine ⟨isPhysical, times since after, live, goesOn, ends, ?_⟩
        intro undrawn
        refine ⟨first (drawnSince_of_split undrawn), goesOn.imp id ?_⟩
        rintro ⟨_, began⟩
        exact began.unpresented undrawn

/-- A boundary, or a record of the pen with its pixel and the start of the
segment it drew. -/
inductive InkMark where
  | boundary (since : Duration)
  | penned (captured : Duration) (phase : PointerPhase) (pixel : Nat × Nat)
      (origin : Option (Nat × Nat))
deriving DecidableEq

def JournalEntry.inkMark : JournalEntry → Option InkMark
  | .boundary since _ => some (.boundary since)
  | .penned captured _ record segment _ _ =>
      some (.penned captured (Session.penPhase record)
        (record.x1616 / 2 ^ 16, record.y1616 / 2 ^ 16)
        (segment.map (·.origin)))
  | _ => none

/-- A report of the pen with one record. -/
def penAt (phase : PointerPhase) (x : Nat) (now : Duration) : SessionOp :=
  .penReports
    [[{ device := wire PointerDevice.pen
        phase := wire phase
        flags := 0
        contactId := 1
        x1616 := x * 2 ^ 16
        y1616 := 0
        pressure := 0
        buttons := 0
        tiltX := 0
        tiltY := 0 }]] now

/-- A stroke of two segments after local ink was switched on. -/
theorem inkBoundary_of_stroke :
    ∃ setup history final surface, SessionRun setup history final ∧
      final.surface = some surface ∧
      (entriesOf history).filterMap JournalEntry.inkMark =
        [.penned (.ofSecs 6) .move (1, 0) (some (0, 0)),
          .penned (.ofSecs 5) .down (0, 0) (some (0, 0)),
          .boundary (.ofSecs 4)] ∧
      inkAt (entriesOf history) = some surface.core.ink.planes ∧
      pausedAt (entriesOf history) = surface.inkPaused := by
  have ran := @SessionSetup.ran (.gray 3 1 (fun _ => true)
      fun _ => some ⟨0, 0, 2⟩)
    [penAt .move 1 (.ofSecs 6), penAt .down 0 (.ofSecs 5),
      .setLocalInk true (.ofSecs 4),
      grayMessage 3 (grayFrame 1 1 1 0 .settled ⟨0, 0, 3, 1⟩ [9, 9, 9])
        (.ofSecs 3),
      grayMessage 2 (grayOpen 1 []) (.ofSecs 2), .setPenAvailable true,
      grayMessage 1 (.clientHello (grayHello [])) 1]
    (fun history final => final.surface.isSome &&
      decide ((entriesOf history).filterMap JournalEntry.inkMark =
        [.penned (.ofSecs 6) .move (1, 0) (some (0, 0)),
          .penned (.ofSecs 5) .down (0, 0) (some (0, 0)),
          .boundary (.ofSecs 4)]))
    (by decide +kernel)
  obtain ⟨history, final, run, checked⟩ := ran
  rw [Bool.and_eq_true, Option.isSome_iff_exists] at checked
  obtain ⟨⟨surface, active⟩, marks⟩ := checked
  obtain ⟨ink, paused⟩ := (inkBoundary_of_run run).1 surface active
  exact ⟨_, history, final, surface, run, active, of_decide_eq_true marks,
    ink, paused⟩

/-- The first segment starts at a MOVE if nothing was presented at the DOWN,
and a MOVE continues an older stroke if the UP and the DOWN before it were
captured too early. -/
theorem inkBoundary_of_unpresented :
    (∃ setup history final, SessionRun setup history final ∧
      (entriesOf history).filterMap JournalEntry.inkMark =
        [.penned (.ofSecs 6) .move (1, 0) (some (1, 0)),
          .penned (.ofSecs 4) .down (0, 0) none,
          .boundary (.ofSecs 3)]) ∧
    ∃ setup history final, SessionRun setup history final ∧
      (entriesOf history).filterMap JournalEntry.inkMark =
        [.penned (.ofSecs 11) .move (2, 0) (some (0, 0)),
          .penned (.ofSecs 3) .down (1, 0) none,
          .penned (.ofSecs 3) .up (0, 0) none,
          .penned (.ofSecs 10) .down (0, 0) (some (0, 0)),
          .boundary (.ofSecs 4)] := by
  constructor
  · have ran := @SessionSetup.ran (.gray 3 1 (fun _ => true)
        fun _ => some ⟨0, 0, 2⟩)
      [penAt .move 1 (.ofSecs 6),
        grayMessage 3 (grayFrame 1 1 1 0 .settled ⟨0, 0, 3, 1⟩ [9, 9, 9])
          (.ofSecs 5),
        penAt .down 0 (.ofSecs 4), .setLocalInk true (.ofSecs 3),
        grayMessage 2 (grayOpen 1 []) (.ofSecs 2), .setPenAvailable true,
        grayMessage 1 (.clientHello (grayHello [])) 1]
      (fun history _ =>
        decide ((entriesOf history).filterMap JournalEntry.inkMark =
          [.penned (.ofSecs 6) .move (1, 0) (some (1, 0)),
            .penned (.ofSecs 4) .down (0, 0) none,
            .boundary (.ofSecs 3)]))
      (by decide +kernel)
    obtain ⟨history, final, run, marks⟩ := ran
    exact ⟨_, history, final, run, of_decide_eq_true marks⟩
  · have ran := @SessionSetup.ran (.gray 3 1 (fun _ => true)
        fun _ => some ⟨0, 0, 2⟩)
      [penAt .move 2 (.ofSecs 11), penAt .down 1 (.ofSecs 3),
        penAt .up 0 (.ofSecs 3), penAt .down 0 (.ofSecs 10),
        .setLocalInk true (.ofSecs 4),
        grayMessage 3 (grayFrame 1 1 1 0 .settled ⟨0, 0, 3, 1⟩ [9, 9, 9])
          (.ofSecs 2),
        grayMessage 2 (grayOpen 1 []) (.ofSecs 2), .setPenAvailable true,
        grayMessage 1 (.clientHello (grayHello [])) 1]
      (fun history _ =>
        decide ((entriesOf history).filterMap JournalEntry.inkMark =
          [.penned (.ofSecs 11) .move (2, 0) (some (0, 0)),
            .penned (.ofSecs 3) .down (1, 0) none,
            .penned (.ofSecs 3) .up (0, 0) none,
            .penned (.ofSecs 10) .down (0, 0) (some (0, 0)),
            .boundary (.ofSecs 4)]))
      (by decide +kernel)
    obtain ⟨history, final, run, marks⟩ := ran
    exact ⟨_, history, final, run, of_decide_eq_true marks⟩

end RmDisplay.Receiver
