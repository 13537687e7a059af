import RmDisplay.Receiver.ControlSteps

/-!
# Physical input as steps of the face

Reports of the pen, the touch panel and the power key.
-/

namespace RmDisplay.Receiver

open Foundation Protocol RmDisplay.Core Core.DisplayCore

namespace Session

section

variable {before : Session} {owed : Owed} {surface : ActiveSurface}

theorem filterRecord_spec (surface : ActiveSurface) (record : PointerRecord) :
    (filterRecord surface record).2.screen =
        { surface.screen with
          lastPen := (filterRecord surface record).2.lastPen } ∧
      ((filterRecord surface record).1 = false →
        (filterRecord surface record).2.lastPen = surface.lastPen) ∧
      ((filterRecord surface record).1 = true →
        ∀ last ∈ (filterRecord surface record).2.lastPen, last = record) := by
  unfold filterRecord
  dsimp only
  split
  · exact ⟨rfl, fun _ => rfl, nofun⟩
  · refine ⟨rfl, nofun, fun _ last known => ?_⟩
    dsimp only at known
    split at known
    · cases known
    · exact (Option.mem_some_iff.mp known).symm

theorem filterRecords_spec (surface : ActiveSurface)
    (records : List PointerRecord) :
    (∀ record ∈ (filterRecords surface records).1, record ∈ records) ∧
      (filterRecords surface records).2.screen =
        { surface.screen with
          lastPen := (filterRecords surface records).2.lastPen } ∧
      ∀ record ∈ (filterRecords surface records).2.lastPen,
        record ∈ (filterRecords surface records).1 ∨
          surface.lastPen = some record := by
  induction records generalizing surface with
  | nil => exact ⟨nofun, rfl, fun _ known => .inr known⟩
  | cons record records induction =>
      obtain ⟨within, sameScreen, known⟩ :=
        induction (filterRecord surface record).2
      obtain ⟨firstScreen, dropped, kept⟩ := filterRecord_spec surface record
      simp only [filterRecords]
      cases keep : (filterRecord surface record).1 with
      | true =>
          simp only [if_true]
          refine ⟨?_, ?_, ?_⟩
          · exact List.forall_mem_cons.mpr ⟨List.mem_cons_self,
              fun other member => List.mem_cons_of_mem _ (within other member)⟩
          · rw [sameScreen, firstScreen]
          · intro last remembered
            rcases known last remembered with old | new
            · exact .inl (List.mem_cons_of_mem _ old)
            · rw [kept keep last new]
              exact .inl List.mem_cons_self
      | false =>
          simp only [Bool.false_eq_true, if_false]
          refine ⟨?_, ?_, ?_⟩
          · exact fun other member => List.mem_cons_of_mem _ (within other member)
          · rw [sameScreen, firstScreen]
          · intro last remembered
            exact (known last remembered).imp id
              fun same => (dropped keep).symm.trans same

/-- What a step of the pen leaves to be reported. -/
def PenPost (owed : Owed) : Post (List TerminalFrame) :=
  fun terminals _ left entries => left = owed.gives terminals ∧
    entries.filterMap (·.body) = [] ∧ Reach.Holds {} entries

theorem freezeOnDown_steps (shown : before.surface = some surface)
    (freezes needsDown : Bool) (phase : PointerPhase) :
    ∃ inkFrozen core entries,
      (freezeOnDown freezes { surface with inkNeedsDown := needsDown }
        phase).2 = { surface with inkNeedsDown := needsDown, inkFrozen, core } ∧
      entries.filterMap (·.body) = [] ∧ Reach.Holds {} entries ∧
      Steps ⟨before.face, owed⟩ entries
        ⟨{ (before.noteFrozen surface (freezeOnDown freezes
              { surface with inkNeedsDown := needsDown } phase).2).face with
            screen := some { surface.screen with inkFrozen, core } },
          owed.gives (freezeOnDown freezes
            { surface with inkNeedsDown := needsDown } phase).1⟩ := by
  have isScreen := screen_of_surface shown
  unfold freezeOnDown
  split
  · rename_i freezing
    simp only [Bool.and_eq_true, Bool.not_eq_true', bne_iff_ne] at freezing
    obtain ⟨⟨_, live⟩, presented⟩ := freezing
    dsimp only
    rw [noteFrozen_froze live rfl]
    refine ⟨true, surface.core.freezePresented.2, _, rfl, ?_, ?_,
      Steps.single (@FaceStep.frozen _ _ owed isScreen live presented)⟩
    · rfl
    · exact .single rfl rfl trivial ⟨rfl, rfl, rfl⟩
  · refine ⟨surface.inkFrozen, surface.core, [], rfl, rfl,
      .nil ⟨rfl, rfl, rfl⟩, ?_⟩
    have same : { before.face with screen := some surface.screen } =
        before.face := by
      rw [← isScreen]
    have unnoted : before.noteFrozen surface
        { surface with inkNeedsDown := needsDown } = before :=
      noteFrozen_same rfl
    rw [Owed.gives_nil]
    dsimp only
    rw [unnoted]
    change Steps _ [] ⟨{ before.face with screen := some surface.screen }, owed⟩
    rw [same]
    exact .nil

/-- Only cancellations do not come from the pen. -/
def Meant (physical : Bool) (record : PointerRecord) : Prop :=
  physical = true ∨ penPhase record = .cancel

theorem drawSegment_step {record : PointerRecord} {physical : Bool}
    {now : Duration} {segment : Option InkSegment} {drawn : ActiveSurface}
    (meant : Meant physical record)
    (heeds : inkIgnores surface physical now (penPhase record) = false)
    (draws : drawSegment
        { surface with
          inkNeedsDown := surface.screen.needsDownAfter (penPhase record) }
        record (penPhase record) = .ok (segment, drawn)) :
    InkStep surface.screen
      (some (.penned now physical record segment surface.penContext
        drawn.core.ink.planes))
      drawn.screen := by
  unfold drawSegment at draws
  split at draws
  · rename_i active
    obtain ⟨edited, edit, same⟩ := Res.bind_eq_ok.mp draws
    unfold ActiveSurface.editPlane at edit
    obtain ⟨core, edits, isEdited⟩ := Res.bind_eq_ok.mp edit
    cases isEdited
    cases same
    simp only [Bool.and_eq_true, Bool.or_eq_true, beq_iff_eq,
      bne_iff_ne] at active
    obtain ⟨live, isStroke⟩ := active
    have isPhysical : physical = true := by
      refine meant.resolve_right fun cancelled => ?_
      rw [cancelled] at isStroke
      rcases isStroke with down | move
      · cases down
      · cases move
    subst isPhysical
    exact .drew heeds live isStroke rfl rfl edits
  · rename_i inactive
    cases draws
    simp only [Bool.and_eq_true, Bool.or_eq_true, beq_iff_eq,
      bne_iff_ne] at inactive
    refine .lifted meant heeds fun inkOn presented => ?_
    exact not_or.mp fun isStroke => inactive ⟨⟨inkOn, presented⟩, isStroke⟩

/-- One record is ignored, lifts the pen, or draws; a DOWN may freeze the
background first. -/
theorem inkRecord_does {physical : Bool} {now : Duration}
    {record : PointerRecord} (meant : Meant physical record) :
    Does (inkRecord physical now record) before owed (PenPost owed) := by
  have penned {segment : Option InkSegment} {context : PenContext}
      {ink : Planes} : Reach.Holds {}
      [.penned now physical record segment context ink] :=
    .single rfl rfl trivial ⟨rfl, rfl, rfl⟩
  refine Does.get ?_
  split
  · exact Does.pure ⟨Owed.gives_nil.symm, rfl, .nil ⟨rfl, rfl, rfl⟩⟩
  · rename_i surface shown
    have isScreen := screen_of_surface shown
    dsimp only
    split
    · rename_i ignores
      have ignored := Steps.single (@FaceStep.inked before.face surface.screen
        surface.screen _ owed isScreen
        (@InkStep.ignored _ now physical record ignores))
      refine Does.setSteps owed [.penned now physical record none
        surface.penContext surface.core.ink.planes] ?_
        (Does.pure ⟨Owed.gives_nil.symm, rfl, penned⟩)
      simpa [face, shown, note, Face.note, ActiveSurface.screen,
        ActiveSurface.penContext, Screen.penContext] using ignored
    · rename_i heeds
      obtain ⟨inkFrozen, core, entries, isFrozen, silent, allowed, freezes⟩ :=
        @freezeOnDown_steps before owed surface shown before.freezeOnPenDown
          (surface.screen.needsDownAfter (penPhase record)) (penPhase record)
      refine Does.ofRes fun pair draws => ?_
      obtain ⟨segment, drawn⟩ := pair
      have isDrawn : drawSegment
          { surface with
            inkFrozen
            core
            inkNeedsDown := surface.screen.needsDownAfter (penPhase record) }
          record (penPhase record) = .ok (segment, drawn) := by
        rw [← draws]
        exact congrArg (fun frozen => drawSegment frozen record
          (penPhase record)) isFrozen.symm
      have inks := @drawSegment_step { surface with inkFrozen, core } _ _ _ _ _
        meant (Bool.eq_false_iff.mpr heeds) isDrawn
      have sameContext := congrArg ActiveSurface.penContext isFrozen
      change _ = ActiveSurface.penContext { surface with inkFrozen, core }
        at sameContext
      rw [← sameContext] at inks
      have steps := freezes.append (Steps.single (.inked rfl inks))
      refine Does.setSteps _ _ steps (Does.pure ⟨rfl, ?_, ?_⟩)
      · rw [List.append_nil, List.filterMap_append, silent]
        rfl
      · rw [List.append_nil]
        exact allowed.append (.plain _) penned

theorem inkRecords_does {physical : Bool} {now : Duration}
    {records : List PointerRecord}
    (meant : ∀ record ∈ records, Meant physical record) :
    Does (Proc.gather (inkRecord physical now) records) before owed
      (PenPost owed) := by
  induction records generalizing before owed with
  | nil => exact Does.pure ⟨Owed.gives_nil.symm, rfl, .nil ⟨rfl, rfl, rfl⟩⟩
  | cons record records induction =>
      obtain ⟨isMeant, others⟩ := List.forall_mem_cons.mp meant
      refine Does.bind _ (inkRecord_does isMeant) ?_
      rintro first after _ entries ⟨rfl, silent, within⟩ _
      refine Does.bind _ (induction others) ?_
      rintro others final _ more ⟨rfl, noMore, holds⟩ _
      refine Does.pure ⟨Owed.gives_gives, ?_, ?_⟩
      · rw [List.append_nil, List.filterMap_append, silent, noMore]
        rfl
      · rw [List.append_nil]
        exact within.append (.plain _) holds

theorem penBatch_does {records : List PointerRecord} {now : Duration}
    (kept : JournalEntry.penKept records ∈ before.face.journal.map (·.entry)) :
    Does (penBatch records now) before owed (Tells before owed) := by
  have nothing : Does (Pure.pure [] : SessionProc (List Envelope)) before owed
      (Tells before owed) :=
    Does.pure ⟨.refl before, rfl, fun _ => rfl, .nil ⟨rfl, rfl, rfl⟩⟩
  refine Does.get ?_
  split
  · exact nothing
  · rename_i surface shown
    split
    · obtain ⟨record, member, isKept⟩ := List.mem_map.mp kept
      exact Does.one (inputBatch_does (surfaceKey_of_surface shown)
        (.pen member isKept))
    · exact nothing

theorem penRecords_does {records : List PointerRecord} {now : Duration}
    {physical : Bool} (meant : ∀ record ∈ records, Meant physical record)
    (shown : before.surface = some surface)
    (noTerminal : owed.terminals = []) :
    Does (penRecords surface records now physical) before owed
      (Replies [] owed { pens := fun record => record ∈ records }) := by
  obtain ⟨within, sameScreen, known⟩ := filterRecords_spec surface records
  have keeps := Steps.single (@FaceStep.inked _ _ _ _ owed
    (screen_of_surface shown) (.kept _ _ known))
  rw [← sameScreen] at keeps
  have allowed : Reach.Holds { pens := fun record => record ∈ records }
      [.penKept (filterRecords surface records).1] :=
    .single rfl rfl within ⟨rfl, rfl, rfl⟩
  refine Does.step keeps rfl (.plainAfter _) allowed ?_
  split
  · exact Does.reply rfl ⟨rfl, rfl, rfl⟩
  · have keptMeant : ∀ record ∈ (filterRecords surface records).1,
        Meant physical record := fun record member =>
      meant record (within record member)
    refine Does.silently _ (inkRecords_does keptMeant) (.plain _) ?_
    rintro terminals drawn _ entries ⟨rfl, silent, holds⟩ steps
    refine ⟨silent, holds, ?_⟩
    have kept : JournalEntry.penKept (filterRecords surface records).1 ∈
        drawn.face.journal.map (·.entry) := by
      rw [steps.journal]
      exact List.mem_append_right _ List.mem_cons_self
    refine Does.tell (penBatch_does kept) ?_
    intro batches after _
    refine Does.tell (terminalResults_given _ noTerminal) ?_
    intro responses final _
    exact Does.reply (by simp) ⟨rfl, rfl, rfl⟩

theorem face_notePen {records : List PointerRecord} {now : Duration}
    {physical : Bool} (session : Session) :
    (session.notePen records now physical).face = session.face := by
  unfold notePen
  split
  · split <;> rfl
  · rfl

theorem penReport_does {records : List PointerRecord} {now : Duration}
    {physical : Bool} (meant : ∀ record ∈ records, Meant physical record)
    (noTerminal : owed.terminals = []) :
    Does (penReport now physical records) before owed
      (Replies [] owed { pens := fun record => record ∈ records }) := by
  refine Does.quiet (face_notePen before) (Does.get ?_)
  split
  · exact Does.reply rfl ⟨rfl, rfl, rfl⟩
  · split
    · exact Does.reply rfl ⟨rfl, rfl, rfl⟩
    · rename_i surface shown
      split
      · refine Does.setStep (steps_rearmed shown now surface.inkPaused
          surface.localInk) rfl
          (.plain _) (.single rfl rfl trivial ⟨rfl, rfl, rfl⟩) ?_
        exact Does.reply rfl ⟨rfl, rfl, rfl⟩
      · exact penRecords_does meant shown noTerminal

theorem flushInk_does {now : Duration} (noTerminal : owed.terminals = []) :
    Does (flushInk now) before owed (Replies [] owed {}) := by
  refine Does.get ?_
  split
  · rename_i inks
    obtain ⟨surface, shown⟩ : ∃ surface, before.surface = some surface := by
      cases shown : before.surface with
      | none => simp [shown] at inks
      | some surface => exact ⟨surface, rfl⟩
    exact presentPlane_tells shown noTerminal
  · exact Does.reply rfl ⟨rfl, rfl, rfl⟩

theorem penReportsInner_does {reports : List (List PointerRecord)}
    {now : Duration} {physical : Bool}
    (meant : ∀ report ∈ reports, ∀ record ∈ report, Meant physical record)
    (noTerminal : owed.terminals = []) :
    Does (penReportsInner reports now physical) before owed
      (Replies [] owed { pens := fun record => record ∈ reports.flatten }) := by
  have loops : Does (Proc.gather (penReport now physical) reports) before owed
      (Replies [] owed { pens := fun record => record ∈ reports.flatten }) := by
    have gathered : Does (Proc.gather (penReport now physical) reports) before
        owed (Replies [] owed {
          reports := reports.flatMap fun _ => []
          pens := fun record => record ∈ reports.flatten }) := by
      refine Does.gather { pens := fun record => record ∈ reports.flatten }
        (fun _ => []) (fun _ => True) ⟨rfl, rfl⟩ ?_
        (fun _ _ _ _ _ _ _ => trivial) trivial
      intro report member session _
      refine (penReport_does (meant report member) noTerminal).widen ?_
        ⟨rfl, rfl, rfl⟩
      exact ⟨id, id, id, id, fun record inside =>
        List.mem_flatten.mpr ⟨report, member, inside⟩⟩
    rwa [List.flatMap_eq_nil_iff.mpr fun _ _ => rfl] at gathered
  refine Does.call loops (.plainAfter _) ?_
  intro responses after entries _ _
  refine Does.call (flushInk_does noTerminal) (.plain _) ?_
  intro flushed final more _ _
  exact Does.reply (by simp) ⟨rfl, rfl, rfl⟩

theorem touchTarget_face (session : Session) :
    session.touchTarget = session.face.target := by
  rw [touchTarget, Face.target, face, Option.map_map]
  rfl

theorem processTouch_does {report : List PhysicalPointerEvent}
    {captured : Duration} {forwards cleans loosens : Bool}
    (mode : TouchMode before.face captured forwards cleans loosens) :
    Does (processTouch report captured forwards cleans) before {}
      fun result after left entries =>
        after.face = { before.face.note (.touched captured report result) with
          touchGesture :=
            (before.touchGesture.process report forwards cleans).2 } ∧
        result = (before.touchGesture.process report forwards cleans).1 ∧
        left = { touches := result.cancelForwarded ++ result.forward
                 chord := result.cleanupRequested
                 loose := loosens } ∧
        entries = [.touched captured report result] := by
  have step := @FaceStep.touched _ _ _ _ _ report mode
  have same : before.face.touchGesture = before.touchGesture := rfl
  rw [same] at step
  refine Does.get ?_
  generalize before.touchGesture.process report forwards cleans = outcome
    at step ⊢
  obtain ⟨result, touchGesture⟩ := outcome
  refine Does.setSteps _ _ (Steps.single step)
    (Does.pure ⟨rfl, rfl, rfl, rfl⟩)

theorem detachTouch_does
    (ending : ∀ event ∈ owed.touches, event.phase = .cancel) :
    Does detachTouch before owed fun cancelled after left entries =>
      after.face = { before.face.note .detached with
        touchGesture := before.touchGesture.surfaceTransition.2 } ∧
      cancelled = before.touchGesture.surfaceTransition.1 ∧
      left = { owed with
        touches := owed.touches ++ cancelled
        loose := false } ∧
      entries = [.detached] :=
  Does.get (Does.setSteps _ _ (Steps.single (.detached ending))
    (Does.pure ⟨rfl, rfl, rfl, rfl⟩))

/-- Events for a target are owed as touch records; without a target there are
none. -/
theorem touchBatch_does {target : TouchTarget}
    {events : List PhysicalPointerEvent} {now : Duration}
    {rest : List PhysicalPointerEvent}
    (due : owed.touches = events ++ rest)
    (key : ∀ aim ∈ target, before.face.surfaceKey = aim.1)
    (nothing : target = none → events = []) :
    Does (touchBatch target events now) before owed
      (Tells before { owed with touches := rest }) := by
  have none (isEmpty : events = []) :
      Does (Pure.pure [] : SessionProc (List Envelope)) before owed
        (Tells before { owed with touches := rest }) := by
    have same : { owed with touches := rest } = owed := by
      rw [isEmpty, List.nil_append] at due
      rw [← due]
    rw [same]
    exact Does.pure ⟨.refl before, rfl, fun _ => rfl, .nil ⟨rfl, rfl, rfl⟩⟩
  unfold touchBatch
  split
  · exact none (nothing rfl)
  · rename_i surfaceId generation _
    split
    · rename_i isEmpty
      exact none (List.isEmpty_iff.mp isEmpty)
    · exact Does.one (pointerBatch_does (key _ rfl) (.touches due))

theorem surfaceKey_target {face : Face} {aim : (Nat × Nat) × Bool}
    (aimed : face.target = some aim) : face.surfaceKey = aim.1 := by
  rw [Face.target] at aimed
  obtain ⟨screen, shown, rfl⟩ := Option.map_eq_some_iff.mp aimed
  rw [Face.surfaceKey, shown]
  rfl

theorem screen_of_target {face : Face} (aimed : face.target = none) :
    face.screen = none := by
  rw [Face.target, Option.map_eq_none_iff] at aimed
  exact aimed

/-- The reach of a touch report. -/
def touchReach (reports : List (List PhysicalPointerEvent)) : Reach where
  reports := reports
  gestures := true
  menu := true

theorem holds_touched {captured : Duration} {report : List PhysicalPointerEvent}
    {result : TouchGestureResult} :
    Reach.Holds (touchReach [report]) [.touched captured report result] where
  frames := rfl
  reports := rfl
  bounds := nofun
  allowed := fun _ member => by
    rw [List.mem_singleton.mp member]
    rfl

theorem holds_detached : Reach.Holds (touchReach []) [.detached] :=
  .single rfl rfl rfl ⟨rfl, rfl, rfl⟩

theorem joins_touched {report : List PhysicalPointerEvent} :
    Reach.Joins (touchReach [report]) (touchReach []) (touchReach [report]) :=
  .after ⟨id, id, id, id, fun _ => id⟩ ⟨rfl, rfl, rfl⟩

/-- A report from before the current page: the contacts are detached. -/
theorem staleTouch_does {target : TouchTarget}
    {report : List PhysicalPointerEvent} {now : Duration}
    (aims : before.face.target = target)
    (old : now < before.face.inputNotBefore) :
    Does (staleTouch target report now) before {}
      (Replies [] {} (touchReach [report])) := by
  refine Does.sound fun sound => ?_
  refine Does.silently _ (processTouch_does (.stale old)) joins_touched ?_
  rintro result touched _ _ ⟨isTouched, isResult, rfl, rfl⟩ _
  refine ⟨rfl, holds_touched, ?_⟩
  obtain ⟨noForward, noCleanup, cancelsNone⟩ :=
    @FiveFingerCleanupGesture.process_unseen before.touchGesture report
  rw [← isResult] at noForward noCleanup cancelsNone
  have sameTarget : touched.face.target = target := by
    rw [isTouched]
    exact aims
  rw [noForward, noCleanup, List.append_nil]
  have ending : ∀ event ∈ result.cancelForwarded, event.phase = .cancel := by
    rw [isResult]
    exact FiveFingerCleanupGesture.process_cancels
  refine Does.silently _ (detachTouch_does ending) (.plainAfter _) ?_
  rintro detached after _ _ ⟨isAfter, isDetached, rfl, rfl⟩ _
  refine ⟨rfl, holds_detached, ?_⟩
  have nothing (aimless : target = none) :
      result.cancelForwarded ++ detached = [] := by
    have free : before.touchGesture.forwarded.isEmpty = true :=
      sound.hidden (screen_of_target (aims.trans aimless))
    have isGesture : touched.touchGesture =
        (before.touchGesture.process report false false).2 :=
      congrArg Face.touchGesture isTouched
    rw [cancelsNone free, isDetached, isGesture,
      FiveFingerCleanupGesture.cancels_nothing
        (FiveFingerCleanupGesture.forwarded_process free)]
    rfl
  have key (aim : (Nat × Nat) × Bool) (aimed : aim ∈ target) :
      after.face.surfaceKey = aim.1 := by
    refine surfaceKey_target ?_
    rw [isAfter]
    exact sameTarget.trans aimed
  have batches : Does (touchBatch target (result.cancelForwarded ++ detached)
      after.inputNotBefore) after
      { touches := result.cancelForwarded ++ detached } (Tells after {}) :=
    touchBatch_does (List.append_nil _).symm key nothing
  exact Does.get batches.replies

/-- The menu consumes the contacts. -/
theorem menuTouch_does {report : List PhysicalPointerEvent} {now : Duration}
    (shown : before.localMenu.visible = true)
    (current : before.inputNotBefore ≤ now) :
    Does (menuTouch report now) before {}
      (Replies [] {} (touchReach [report])) := by
  refine Does.sound fun sound => ?_
  refine Does.silently _ (processTouch_does (.consumed shown current))
    joins_touched ?_
  rintro result touched _ _ ⟨isTouched, isResult, rfl, rfl⟩ _
  refine ⟨rfl, holds_touched, ?_⟩
  have free : before.touchGesture.forwarded.isEmpty = true :=
    sound.covered shown
  obtain ⟨noForward, noCleanup, cancelsNone⟩ :=
    @FiveFingerCleanupGesture.process_unseen before.touchGesture report
  rw [← isResult] at noForward noCleanup cancelsNone
  rw [noForward, noCleanup, cancelsNone free]
  have stillFree : touched.touchGesture.forwarded.isEmpty = true := by
    have isGesture : touched.touchGesture =
        (before.touchGesture.process report false false).2 :=
      congrArg Face.touchGesture isTouched
    rw [isGesture]
    exact FiveFingerCleanupGesture.forwarded_process free
  refine Does.get ?_
  split
  · exact Does.reply rfl ⟨rfl, rfl, rfl⟩
  · rename_i action _
    have stillShown : touched.localMenu.visible = true :=
      (congrArg Face.menuVisible isTouched).trans shown
    refine Does.bind _ (handleLocalMenuAction_does stillShown rfl rfl) ?_
    rintro responses acted left entries ⟨loose, rfl, same, within⟩ steps
    have isGesture : acted.touchGesture = touched.touchGesture := by
      refine steps.gesture fun entry member => ?_
      have allowed := within.allowed entry member
      cases entry <;> first | rfl | cases allowed
    refine Does.bind _ (detachTouch_does nofun) ?_
    rintro detached after _ _ ⟨_, isDetached, rfl, rfl⟩ further
    rw [isGesture] at isDetached
    have noCancel : detached = [] :=
      isDetached.trans (FiveFingerCleanupGesture.cancels_nothing stillFree)
    refine Does.pure ⟨?_, fun isOpen => ?_, ?_⟩
    · rw [noCancel]
      rfl
    · rw [same (further.stillOpen isOpen)]
      simp [JournalEntry.body]
    · have joins : Reach.Joins { menu := true } (touchReach []) (touchReach []) :=
        .before (by constructor <;> simp [touchReach]) ⟨rfl, rfl, rfl⟩
      rw [List.append_nil]
      exact within.append joins holds_detached

theorem surfaceTouch_does {target : TouchTarget}
    {report : List PhysicalPointerEvent} {now : Duration}
    (aims : before.face.target = target)
    (hidden : before.localMenu.visible = false)
    (current : before.inputNotBefore ≤ now) :
    Does (surfaceTouch target report now) before {}
      (Replies [] {} (touchReach [report])) := by
  refine Does.sound fun sound => ?_
  have isForwarding : before.face.forwarding = target.any (·.2) := by
    rw [← aims, Face.forwarding, Face.target]
    cases before.face.screen <;> rfl
  have isAimed : before.face.screen.isSome = target.isSome := by
    rw [← aims, Face.target, Option.isSome_map]
  have mode := @TouchMode.direct before.face now hidden current
  rw [isForwarding, isAimed] at mode
  refine Does.silently _ (processTouch_does mode) joins_touched ?_
  rintro gesture touched _ _ ⟨isTouched, isGesture, rfl, rfl⟩ _
  refine ⟨rfl, holds_touched, ?_⟩
  have sameTarget : touched.face.target = target := by
    rw [isTouched]
    exact aims
  split
  · rename_i isNone
    have aimless := Option.isNone_iff_eq_none.mp isNone
    have free : before.touchGesture.forwarded.isEmpty = true :=
      sound.hidden (screen_of_target (aims.trans aimless))
    rw [aimless] at isGesture
    obtain ⟨noForward, noCleanup, cancelsNone⟩ :=
      @FiveFingerCleanupGesture.process_unseen before.touchGesture report
    have isResult : gesture =
        (before.touchGesture.process report false false).1 := isGesture
    rw [isResult, noForward, noCleanup, cancelsNone free]
    exact Does.reply rfl ⟨rfl, rfl, rfl⟩
  · rename_i isSome
    have aimed : target ≠ none := fun aimless => isSome (by simp [aimless])
    have key {session : Session} (same : session.face.target = target)
        (aim : (Nat × Nat) × Bool) (isAim : aim ∈ target) :
        session.face.surfaceKey = aim.1 :=
      surfaceKey_target (same.trans isAim)
    have targetSame {first last : Session} (unchanged : Unchanged first last)
        (same : first.face.target = target) : last.face.target = target := by
      rw [unchanged]
      exact same
    refine Does.tell (touchBatch_does rfl (key sameTarget)
      fun aimless => absurd aimless aimed) ?_
    intro cancelled middle unchanged
    have sameMiddle := targetSame unchanged sameTarget
    refine Does.tell (touchBatch_does (List.append_nil _).symm
      (key sameMiddle) fun aimless => absurd aimless aimed) ?_
    intro forwarded after unchanged
    have sameAfter := targetSame unchanged sameMiddle
    split
    · rename_i requested
      rw [requested]
      have isShown : after.surface.isSome = true := by
        have isSome : after.face.target.isSome = true := by
          rw [sameAfter]
          exact Option.isSome_iff_ne_none.mpr aimed
        rw [Face.target, Option.isSome_map] at isSome
        rwa [← isSome_screen]
      have cleans := @localCleanup_does after { chord := true } .chord now rfl
        fun _ => ⟨rfl, isShown⟩
      refine Does.call cleans (.plain _) ?_
      intro cleaned final entries _ _
      exact Does.reply (by simp) ⟨rfl, rfl, rfl⟩
    · rename_i unrequested
      rw [Bool.eq_false_iff.mpr unrequested]
      exact Does.given (Does.reply (by simp) ⟨rfl, rfl, rfl⟩)

/-- The report, if it says something. -/
def heard (report : List PhysicalPointerEvent) :
    List (List PhysicalPointerEvent) :=
  if report.isEmpty then [] else [report]

theorem touchReport_does {target : TouchTarget}
    {report : List PhysicalPointerEvent} {now : Duration}
    (aims : before.face.target = target) :
    Does (touchReport target now report) before {}
      (Replies [] {} (touchReach (heard report))) := by
  unfold touchReport heard
  split
  · exact Does.reply rfl ⟨rfl, rfl, rfl⟩
  · refine Does.quiet rfl (Does.get ?_)
    split
    · rename_i old
      exact staleTouch_does aims old
    · rename_i current
      split
      · rename_i shown
        exact menuTouch_does shown (Nat.le_of_not_lt current)
      · rename_i hidden
        exact surfaceTouch_does aims (Bool.eq_false_iff.mpr hidden)
          (Nat.le_of_not_lt current)

theorem stays_touchReach {reports : List (List PhysicalPointerEvent)}
    {entries : List JournalEntry}
    (within : Reach.Holds (touchReach reports) entries) :
    ∀ entry ∈ entries, entry.moves = false := by
  intro entry member
  have allowed := within.allowed entry member
  cases entry <;> first | rfl | cases allowed

theorem inputReports_does {reports : List (List PhysicalPointerEvent)}
    {now : Duration} :
    Does (inputReports reports now) before {}
      (Replies [] {} (touchReach (reports.flatMap heard))) := by
  refine Does.get ?_
  rw [touchTarget_face]
  refine Does.gather (touchReach []) heard
    (fun session => session.face.target = before.face.target) ⟨rfl, rfl⟩ ?_ ?_
    rfl
  · exact fun report _ session aims => touchReport_does aims
  · intro report session after entries aims steps within
    exact (steps.target (stays_touchReach within)).trans aims

theorem cancelInput_does {cancelled : List PhysicalPointerEvent}
    {pen : Option PointerRecord} {now : Duration} {physical : Bool}
    (key : before.face.surfaceKey = (surface.surfaceId, surface.generation))
    (due : owed.touches = cancelled) (noTerminal : owed.terminals = []) :
    Does (cancelInput surface cancelled pen now physical) before owed
      (Replies [] { owed with touches := [] }
        { pens := fun record => ∃ last ∈ pen, record = cancelRecord last }) := by
  refine Does.tell (touchBatch_does (due.trans (List.append_nil _).symm) ?_
    nofun) ?_
  · intro aim aimed
    cases aimed
    exact key
  · intro batches after _
    split
    · exact Does.given (Does.reply (by simp) ⟨rfl, rfl, rfl⟩)
    · rename_i last
      have lifts : Does (penReportsInner [[cancelRecord last]] now physical) after
          { owed with touches := [] }
          (Replies [] { owed with touches := [] } {
            pens := fun record => ∃ known ∈ some last,
              record = cancelRecord known }) := by
        have meant : ∀ report ∈ [[cancelRecord last]], ∀ record ∈ report,
            Meant physical record := by
          intro report inside record member
          rw [List.mem_singleton.mp inside] at member
          rw [List.mem_singleton.mp member]
          exact .inr rfl
        refine (penReportsInner_does meant (by exact noTerminal)).widen
          ⟨id, id, id, id, fun record inside => ?_⟩ ⟨rfl, rfl, rfl⟩
        have same : record = cancelRecord last := by simpa using inside
        exact ⟨last, rfl, same⟩
      refine Does.call lifts (.plainAfter _) ?_
      intro responses final entries _ _
      exact Does.reply (by simp) ⟨rfl, rfl, rfl⟩

/-- The last pen record of the active surface. -/
def lastPen (face : Face) : Option PointerRecord :=
  face.screen.bind (·.lastPen)

theorem lastPen_of_screen {face : Face}
    (shown : face.screen = some surface.screen) :
    lastPen face = surface.lastPen := by
  rw [lastPen, shown]
  rfl

/-- What cancelling the input of a session may do. -/
def cancelReach (lost : Bool) (face : Face) : Reach where
  gestures := true
  menu := true
  lost
  pens := fun record => ∃ last ∈ lastPen face, record = cancelRecord last

theorem within_cancelReach (lost : Bool) (face : Face) :
    Reach.Within { pens := fun record =>
      ∃ last ∈ lastPen face, record = cancelRecord last }
      (cancelReach lost face) := by
  constructor <;> simp [cancelReach]

/-- After the contacts were detached nothing is forwarded, and what is held is
suppressed. -/
theorem settled_surfaceTransition (gesture : FiveFingerCleanupGesture) :
    gesture.surfaceTransition.2.settled = true := by
  unfold FiveFingerCleanupGesture.settled
    FiveFingerCleanupGesture.surfaceTransition
  cases gesture.suppressUntilClear <;> cases gesture.active.isEmpty <;> rfl

theorem rests_pens {pens : PointerRecord → Prop} {entries : List JournalEntry}
    (within : Reach.Holds { pens := pens } entries) :
    ∀ entry ∈ entries, entry.gestures = false := by
  intro entry member
  have allowed := within.allowed entry member
  cases entry <;> first | rfl | cases allowed

theorem liftPen_does {cancelled : List PhysicalPointerEvent} {now : Duration}
    (shown : before.face.screen = some surface.screen)
    (due : owed.touches = cancelled) (noTerminal : owed.terminals = []) :
    Does (liftPen surface cancelled now) before owed
      (Replies [] { owed with touches := [] }
        { pens := fun record =>
            ∃ last ∈ lastPen before.face, record = cancelRecord last }) := by
  have forgets := Steps.single (@FaceStep.inked _ _ _ _ owed shown .forgotten)
  rw [lastPen_of_screen shown]
  exact Does.stepQuietly forgets (cancelInput_does rfl due noTerminal)

/-- Capture fails: every contact is cancelled. -/
theorem inputCaptureFailed_does {now : Duration} :
    Does (inputCaptureFailed now) before {}
      (Replies [] {} (cancelReach true before.face)) := by
  refine Does.sound fun sound => ?_
  have gestures : Reach.Within { gestures := true } (cancelReach true before.face) := by
    constructor <;> simp [cancelReach]
  have loses : Reach.Within { lost := true } (cancelReach true before.face) := by
    constructor <;> simp [cancelReach]
  refine Does.silently _ (detachTouch_does nofun) (.before gestures ⟨rfl, rfl, rfl⟩) ?_
  rintro cancelled detached _ _ ⟨isDetached, isCancelled, rfl, rfl⟩ _
  refine ⟨rfl, .single rfl rfl rfl ⟨rfl, rfl, rfl⟩, ?_⟩
  refine Does.step (Steps.single .captureLost) rfl
    (.before loses ⟨rfl, rfl, rfl⟩) (.single rfl rfl rfl ⟨rfl, rfl, rfl⟩) ?_
  refine Does.get ?_
  have sameScreen : detached.face.screen = before.face.screen := by
    rw [isDetached]
    rfl
  have parts (responses : List Envelope) (session : Session) :
      Does (do
          setPenAvailable false
          return responses) session {}
        (Replies (bodies responses) {} (cancelReach true before.face)) := by
    refine Does.silently _ setPenAvailable_does (.plain _) ?_
    rintro _ after _ entries ⟨rfl, silent, within⟩ _
    exact ⟨silent, within, Does.reply rfl ⟨rfl, rfl, rfl⟩⟩
  dsimp only
  split
  · rename_i hidden
    have noScreen : before.face.screen = none := by
      rw [← sameScreen]
      simp [face, show detached.surface = none from hidden]
    have noCancel : cancelled = [] :=
      isCancelled.trans
        (FiveFingerCleanupGesture.cancels_nothing (sound.hidden noScreen))
    rw [noCancel]
    exact Does.given (parts [] _)
  · rename_i surface shown
    have isShown : detached.surface = some surface := shown
    have isLast : lastPen before.face = surface.lastPen :=
      lastPen_of_screen (sameScreen.symm.trans (screen_of_surface isShown))
    have cancels := @cancelInput_does
      { detached.note .captureLost with
        touchGesture := {}
        physicalPenInProximity := false }
      { touches := cancelled, loose := false } surface cancelled surface.lastPen
      now true (surfaceKey_of_surface shown) rfl rfl
    have pens := within_cancelReach true before.face
    rw [isLast] at pens
    refine Does.call cancels (.before pens ⟨rfl, rfl, rfl⟩) ?_
    intro responses after entries _ _
    exact parts responses after

/-- The power key ends the contacts and toggles the menu. -/
theorem powerKeyPressed_does {now : Duration} :
    Does (powerKeyPressed now) before {}
      (Replies [] {} (cancelReach false before.face)) := by
  refine Does.sound fun sound => Does.quiet rfl (Does.get ?_)
  split
  · exact Does.reply rfl ⟨rfl, rfl, rfl⟩
  have gestures : Reach.Within { gestures := true } (cancelReach false before.face) := by
    constructor <;> simp [cancelReach]
  have menus : Reach.Within { menu := true } (cancelReach false before.face) := by
    constructor <;> simp [cancelReach]
  refine Does.silently _ (detachTouch_does nofun) (.before gestures ⟨rfl, rfl, rfl⟩) ?_
  rintro cancelled detached _ _ ⟨isDetached, isCancelled, rfl, rfl⟩ _
  refine ⟨rfl, .single rfl rfl rfl ⟨rfl, rfl, rfl⟩, ?_⟩
  have isGesture : detached.touchGesture =
      before.touchGesture.surfaceTransition.2 :=
    congrArg Face.touchGesture isDetached
  have toggles (responses : List Envelope) (session : Session)
      (same : session.touchGesture = detached.touchGesture) :
      Does (do
          Proc.modify fun session => session.withMenu session.localMenu.toggle
          let drawn ← renderLocalMenu now
          return responses ++ drawn) session {}
        (Replies (bodies responses) {} (cancelReach false before.face)) := by
    have free : session.face.touchGesture.forwarded.isEmpty = true := by
      change session.touchGesture.forwarded.isEmpty = true
      rw [same, isGesture]
      exact FiveFingerCleanupGesture.forwarded_surfaceTransition _
    have settled : session.face.touchGesture.settled = true := by
      change session.touchGesture.settled = true
      rw [same, isGesture]
      exact settled_surfaceTransition _
    have toggled := Steps.single (@FaceStep.menu session.face {}
      session.localMenu.toggle.visible free rfl)
    rw [settled, Bool.not_true, Bool.and_false, Bool.or_false] at toggled
    refine Does.step toggled rfl (.before menus ⟨rfl, rfl, rfl⟩)
      (.single rfl rfl rfl ⟨rfl, rfl, rfl⟩) ?_
    refine Does.call (renderLocalMenu_does rfl) (.plain _) ?_
    intro drawn after entries _ _
    exact Does.reply (by simp) ⟨rfl, rfl, rfl⟩
  have sameScreen : detached.face.screen = before.face.screen := by
    rw [isDetached]
    rfl
  dsimp only
  split
  · rename_i hidden
    have noScreen : before.face.screen = none := by
      simp [face, show before.surface = none from hidden]
    have noCancel : cancelled = [] :=
      isCancelled.trans
        (FiveFingerCleanupGesture.cancels_nothing (sound.hidden noScreen))
    rw [noCancel]
    exact Does.given (toggles [] _ rfl)
  · rename_i surface shown
    have isShown : before.face.screen = some surface.screen :=
      screen_of_surface shown
    have pens := within_cancelReach false before.face
    have lifts := @liftPen_does detached { touches := cancelled } surface
      cancelled now (sameScreen.trans isShown) rfl rfl
    have sameLast : lastPen detached.face = lastPen before.face := by
      rw [lastPen, lastPen, sameScreen]
    rw [sameLast] at lifts
    refine Does.call lifts (.before pens ⟨rfl, rfl, rfl⟩) ?_
    intro responses after entries steps within
    exact toggles responses after (steps.gesture (rests_pens within))

end

end Session

end RmDisplay.Receiver
