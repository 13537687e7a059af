import RmDisplay.Core.Terminals

/-!
# Where the presented base comes from

The presented base is the base that the last frame reported presented left when
it was accepted, or the blank one; this holds in every run, whatever fails.  On
a panel that never fails frame ids only grow, so the presented frame id names
that frame.
-/

namespace RmDisplay.Core

open Foundation Protocol DisplayCore

/-- The frames that terminals report presented. -/
def presentedIds (terminals : List TerminalFrame) : List Nat :=
  (terminals.filter (·.outcome == .presented)).map (·.frameId)

/-- The last accepted frame, and the base it left. -/
def lastBase : List CoreEvent → Option (Nat × PixelSurface)
  | [] => none
  | event :: earlier =>
      match event.accepted with
      | [] => lastBase earlier
      | frame :: _ => some (frame.frameId, event.after.core.base)

/-- The last frame reported presented, and the base it left when it was
accepted. -/
def lastPresented : List CoreEvent → Option (Nat × PixelSurface)
  | [] => none
  | event :: earlier =>
      match presentedIds event.settled with
      | [] => lastPresented earlier
      | frameId :: _ => (lastBase earlier).filter (·.1 == frameId)

/-- The surface is the base of the frame with this id, which was the last one
reported presented, or the blank surface if none was. -/
def BaseOf (blank : PixelSurface) (history : List CoreEvent) (frameId : Nat)
    (surface : PixelSurface) : Prop :=
  lastPresented history = some (frameId, surface) ∨
    (∀ event ∈ history, presentedIds event.settled = []) ∧
      frameId = 0 ∧ surface = blank

theorem presentedIds_append (first second : List TerminalFrame) :
    presentedIds (first ++ second) =
      presentedIds first ++ presentedIds second := by
  simp [presentedIds]

theorem BaseOf.cons {blank surface : PixelSurface} {history : List CoreEvent}
    {frameId : Nat} (baseOf : BaseOf blank history frameId surface)
    {event : CoreEvent} (nothing : presentedIds event.settled = []) :
    BaseOf blank (event :: history) frameId surface := by
  rcases baseOf with last | ⟨never, isBlank⟩
  · refine .inl ?_
    rw [lastPresented, nothing]
    exact last
  · refine .inr ⟨?_, isBlank⟩
    intro other member
    rcases List.mem_cons.mp member with rfl | older
    · exact nothing
    · exact never other older

/-- Where the presented base and the base of the pending frame come from. -/
structure Lineage (blank : PixelSurface) (history : List CoreEvent)
    (core : DisplayCore) : Prop where
  presented : BaseOf blank history core.presentedFrameId core.presentedBase
  pending : ∀ pending ∈ core.pending,
    lastBase history = some (pending.frameId, core.base)

/-- What steps present is the base that is due, and their terminals say so. -/
structure Follows (due : Option (Nat × PixelSurface)) (before after : DisplayCore)
    (terminals : List TerminalFrame) : Prop where
  pending : ∀ pending ∈ after.pending, due = some (pending.frameId, after.base)
  kept : presentedIds terminals = [] →
    after.presentedFrameId = before.presentedFrameId ∧
      after.presentedBase = before.presentedBase
  presented : ∀ frameId ∈ presentedIds terminals,
    due = some (frameId, after.presentedBase) ∧
      after.presentedFrameId = frameId

namespace Follows

variable {due : Option (Nat × PixelSurface)} {before middle after : DisplayCore}
  {terminals : List TerminalFrame}

/-- Nothing is presented. -/
theorem quiet (pending : ∀ pending ∈ before.pending,
      due = some (pending.frameId, before.base))
    (samePresented : after.presentedFrameId = before.presentedFrameId ∧
      after.presentedBase = before.presentedBase)
    (samePending : after.pending = before.pending ∧ after.base = before.base ∨
      after.pending = none)
    (none : presentedIds terminals = []) :
    Follows due before after terminals := by
  refine ⟨?_, fun _ => samePresented, by simp [none]⟩
  intro waiting isPending
  rcases samePending with ⟨same, sameBase⟩ | idle
  · rw [same] at isPending
    rw [sameBase]
    exact pending waiting isPending
  · rw [idle] at isPending
    cases isPending

/-- The frame that is due is presented. -/
theorem presents {terminal : TerminalFrame}
    (isPresented : terminal.outcome = .presented)
    (isDue : due = some (terminal.frameId, after.presentedBase))
    (shown : after.presentedFrameId = terminal.frameId)
    (idle : after.pending = none) :
    Follows due before after [terminal] := by
  have ids : presentedIds [terminal] = [terminal.frameId] := by
    simp [presentedIds, isPresented]
  refine ⟨?_, ?_, ?_⟩
  · intro pending isPending
    rw [idle] at isPending
    cases isPending
  · intro impossible
    rw [ids] at impossible
    cases impossible
  · intro frameId member
    rw [ids] at member
    cases List.mem_singleton.mp member
    exact ⟨isDue, shown⟩

theorem trans {more : List TerminalFrame}
    (first : Follows due before middle terminals)
    (second : Follows due middle after more) :
    Follows due before after (terminals ++ more) := by
  refine ⟨second.pending, ?_, ?_⟩
  · intro nothing
    rw [presentedIds_append, List.append_eq_nil_iff] at nothing
    obtain ⟨sameId, sameBase⟩ := second.kept nothing.2
    rw [sameId, sameBase]
    exact first.kept nothing.1
  · intro frameId member
    rw [presentedIds_append, List.mem_append] at member
    rcases member with earlier | later
    · obtain ⟨isDue, isPresented⟩ := first.presented frameId earlier
      by_cases nothing : presentedIds more = []
      · obtain ⟨sameId, sameBase⟩ := second.kept nothing
        rw [sameId, sameBase]
        exact ⟨isDue, isPresented⟩
      · -- the second presentation shows what is due as well
        obtain ⟨again, member⟩ := List.exists_mem_of_ne_nil _ nothing
        obtain ⟨isDueAgain, isPresentedAgain⟩ := second.presented again member
        have same := isDue.symm.trans isDueAgain
        simp only [Option.some.injEq, Prod.mk.injEq] at same
        rw [same.1]
        exact ⟨isDueAgain, isPresentedAgain⟩
    · exact second.presented frameId later

end Follows

/-- Every step but the acceptance of a frame presents what is due. -/
theorem CoreStep.follows {due : Option (Nat × PixelSurface)}
    {before after : World} {action : Action} {terminals : List TerminalFrame}
    (step : CoreStep before action terminals after)
    (notCommit : action.accepted = [])
    (pending : ∀ pending ∈ before.core.pending,
      due = some (pending.frameId, before.core.base)) :
    Follows due before.core after.core terminals := by
  have cancelled (core : DisplayCore) :
      presentedIds core.cancelPending.1.toList = [] := by
    cases isPending : core.pending with
    | none => simp [cancelPending, presentedIds, isPending]
    | some _ =>
        simp [cancelPending, presentedIds, isPending, cancelledTerminal]
  have unfinished {core : DisplayCore} {waiting : PendingPresentation}
      (isPending : core.pending = some waiting)
      (pending : ∀ pending ∈ core.pending,
        due = some (pending.frameId, core.base)) :
      due = some (waiting.frameId, core.base) := pending _ isPending
  cases step with
  | commit _ => cases notCommit
  | cancel => exact .quiet pending ⟨rfl, rfl⟩ (.inr rfl) (cancelled _)
  | freeze => exact .quiet pending ⟨rfl, rfl⟩ (.inr rfl) (cancelled _)
  | edit edits =>
      obtain ⟨_, _, rfl⟩ := editPlane_eq_ok edits
      obtain ⟨_, _, _, same⟩ := setPlane_frame _ _ _
      rw [same]
      exact .quiet pending ⟨rfl, rfl⟩ (.inl ⟨rfl, rfl⟩) rfl
  | adjust adjusts =>
      obtain ⟨_, _, _, _, _, _, rfl⟩ := adjusts.frame
      exact .quiet pending ⟨rfl, rfl⟩ (.inl ⟨rfl, rfl⟩) rfl
  | present step =>
      cases step with
      | pumpFailed _ _ | refused _ _ _ _ _ =>
          exact .quiet pending ⟨rfl, rfl⟩ (.inr rfl) rfl
      | unchanged isPending _ _ _ =>
          exact .presents rfl (unfinished isPending pending) rfl rfl
      | accepted isPending _ _ _ _ presents =>
          have isDue := unfinished isPending pending
          obtain ⟨_, _, _, _, _, rfl⟩ := presentAccepted_eq_ok presents
          exact .presents rfl isDue rfl rfl
  | draw step =>
      cases step with
      | failed _ =>
          obtain ⟨_, taken⟩ := planeTaken_frame _ _
          rw [taken]
          exact .quiet pending ⟨rfl, rfl⟩ (.inl ⟨rfl, rfl⟩) rfl
      | unchanged draws | refused draws _ _ =>
          obtain ⟨_, _, rfl⟩ := drawnPlane_frame draws
          exact .quiet pending ⟨rfl, rfl⟩ (.inl ⟨rfl, rfl⟩) rfl
      | accepted draws _ _ presents =>
          obtain ⟨_, _, _, _, _, rfl⟩ := planeAccepted_eq_ok presents
          obtain ⟨_, _, rfl⟩ := drawnPlane_frame draws
          exact .quiet pending (by simp) (.inl (by simp)) rfl
  | resubmit _ step =>
      cases step with
      | pumpFailed _ | refused _ _ =>
          exact .quiet pending ⟨rfl, rfl⟩ (.inl ⟨rfl, rfl⟩) rfl
      | accepted _ _ =>
          rw [cleanupAccepted_eq]
          exact .quiet pending ⟨rfl, rfl⟩ (.inl ⟨rfl, rfl⟩) rfl

theorem CoreSteps.follows {due : Option (Nat × PixelSurface)}
    {allowed : World → Action → Prop} {before after : World}
    {accepted : List ValidatedFrame} {terminals : List TerminalFrame}
    (steps : CoreSteps allowed before accepted terminals after)
    (noFrame : accepted = [])
    (pending : ∀ pending ∈ before.core.pending,
      due = some (pending.frameId, before.core.base)) :
    Follows due before.core after.core terminals := by
  induction steps with
  | nil => exact .quiet pending ⟨rfl, rfl⟩ (.inl ⟨rfl, rfl⟩) rfl
  | cons _ step _ induction =>
      rw [List.append_eq_nil_iff] at noFrame
      have first := step.follows noFrame.1 pending
      exact first.trans (induction noFrame.2 first.pending)

theorem commit_of_accepted {event : CoreEvent}
    (stepped : coreStep event.before event.input event.output event.after)
    (someFrame : event.accepted ≠ []) :
    ∃ frame contentClass timing decodeUs report next,
      event.accepted = [frame] ∧
        event.before.core.commitTimed frame contentClass timing decodeUs =
          .ok (report, next) ∧
        event.after = ⟨next, event.before.panel⟩ := by
  obtain ⟨before, input, output, after⟩ := event
  cases input with
  | commit frame contentClass timing decodeUs =>
      rcases onCore_runs stepped with ⟨report, next, commits, returned, isAfter⟩ |
        ⟨_, _, failed, _⟩
      · cases returned
        exact ⟨frame, contentClass, timing, decodeUs, report, next, rfl,
          commits, isAfter⟩
      · cases failed
        exact absurd rfl someFrame
  | _ => exact absurd rfl someFrame

private theorem presentedIds_of_accepted {event : CoreEvent}
    (stepped : coreStep event.before event.input event.output event.after)
    (someFrame : event.accepted ≠ []) : presentedIds event.settled = [] := by
  obtain ⟨before, input, output, after⟩ := event
  cases input with
  | commit frame contentClass timing decodeUs =>
      rcases onCore_runs stepped with ⟨report, next, commits, returned, _⟩ |
        ⟨_, _, failed, _⟩
      · cases returned
        obtain ⟨_, _, _, _, isReport, _⟩ := commitTimed_eq_ok commits
        change presentedIds report.superseded.toList = []
        rw [isReport]
        cases before.core.pending <;> rfl
      · cases failed
        exact absurd rfl someFrame
  | _ => exact absurd rfl someFrame

private theorem Lineage.snoc {blank : PixelSurface} {history : List CoreEvent}
    {event : CoreEvent} (lineage : Lineage blank history event.before.core)
    (noFrame : event.accepted = [])
    (follows : Follows (lastBase history) event.before.core event.after.core
      event.settled) : Lineage blank (event :: history) event.after.core := by
  refine ⟨?_, by rw [lastBase, noFrame]; exact follows.pending⟩
  cases shown : presentedIds event.settled with
  | nil =>
      obtain ⟨sameId, sameBase⟩ := follows.kept shown
      rw [sameId, sameBase]
      exact lineage.presented.cons shown
  | cons frameId _ =>
      obtain ⟨isDue, same⟩ := follows.presented frameId
        (by rw [shown]; exact List.mem_cons_self)
      refine .inl ?_
      rw [lastPresented, shown, isDue, same]
      simp

theorem lineage_of_run {setup : CoreSetup} {history : List CoreEvent}
    {final : World} (run : CoreRun setup history final) {first : DisplayCore}
    (fresh : setup.newCore = .ok first) :
    Lineage first.base history final.core := by
  obtain ⟨start, isStart, run⟩ := run
  rw [fresh] at isStart
  cases isStart
  obtain ⟨coherent, blank, _⟩ := newCore_spec fresh
  have atStart : Lineage first.base [] first :=
    ⟨.inr ⟨List.forall_mem_nil _, blank.ids.2, blank.presentedBase⟩,
      fun _ missing => by simp [blank.idle] at missing⟩
  refine (Run.keeps (fun history world => Coherent world.core ∧
    Lineage first.base history world.core) ⟨coherent, atStart⟩ ?_ run
    fun _ _ => True.intro).2
  rintro history (event : CoreEvent) - stepped ⟨coherent, lineage⟩
  obtain ⟨terminals, steps, _, _, _, settles⟩ :=
    (accounts_of_coreStep coherent stepped).steps
  refine ⟨steps.keeps (fun world => Coherent world.core)
    (fun _ step coherent => step.coherent coherent) coherent, ?_⟩
  by_cases noFrame : event.accepted = []
  · exact lineage.snoc noFrame
      (by rw [CoreEvent.settled, ← settles]
          exact steps.follows noFrame lineage.pending)
  · obtain ⟨frame, _, _, _, report, next, accepted, commits, isAfter⟩ :=
      commit_of_accepted stepped noFrame
    obtain ⟨_, _, _, _, _, base, _, rfl⟩ := commitTimed_eq_ok commits
    refine ⟨?_, ?_⟩
    · rw [isAfter]
      exact lineage.presented.cons (presentedIds_of_accepted stepped noFrame)
    · intro pending isPending
      rw [isAfter] at isPending
      cases isPending
      rw [lastBase, accepted, isAfter]
      rfl

/-- Frame ids grow, and none is beyond the logical one. -/
structure IdsGrow (history : List CoreEvent) (core : DisplayCore) : Prop where
  increasing : (acceptedFrames history).Pairwise fun newer older =>
    older.frameId < newer.frameId
  bounded : ∀ frame ∈ acceptedFrames history,
    frame.frameId ≤ core.logicalFrameId

theorem CoreStep.logical_eq {before after : World} {action : Action}
    {terminals : List TerminalFrame}
    (step : CoreStep before action terminals after)
    (reliable : before.panel.Reliable) (notCommit : action.accepted = []) :
    after.core.logicalFrameId = before.core.logicalFrameId := by
  have pumps := reliable.pumped
  cases step with
  | commit _ => cases notCommit
  | cancel | freeze => rfl
  | edit edits =>
      obtain ⟨_, _, rfl⟩ := editPlane_eq_ok edits
      obtain ⟨_, _, _, same⟩ := setPlane_frame _ _ _
      rw [same]
  | adjust adjusts =>
      obtain ⟨_, _, _, _, _, _, rfl⟩ := adjusts.frame
      rfl
  | present step =>
      cases step with
      | pumpFailed _ failed =>
          rw [failed] at pumps
          cases pumps
      | refused _ _ _ _ refuses =>
          exact absurd refuses reliable.afterPump.submitted
      | unchanged _ _ _ _ => rfl
      | accepted _ _ _ _ _ presents =>
          obtain ⟨_, _, _, _, _, rfl⟩ := presentAccepted_eq_ok presents
          simp
  | draw step =>
      cases step with
      | failed _ =>
          obtain ⟨_, taken⟩ := planeTaken_frame _ _
          rw [taken]
      | unchanged draws =>
          obtain ⟨_, _, rfl⟩ := drawnPlane_frame draws
          rfl
      | refused _ _ refuses => exact absurd refuses reliable.submitted
      | accepted draws _ _ presents =>
          obtain ⟨_, _, _, _, _, rfl⟩ := planeAccepted_eq_ok presents
          obtain ⟨_, _, rfl⟩ := drawnPlane_frame draws
          simp
  | resubmit _ step =>
      cases step with
      | pumpFailed failed =>
          rw [failed] at pumps
          cases pumps
      | refused _ refuses => exact absurd refuses reliable.afterPump.submitted
      | accepted _ _ => rw [cleanupAccepted_eq]

theorem CoreSteps.logical_eq {allowed : World → Action → Prop}
    {before after : World} {accepted : List ValidatedFrame}
    {terminals : List TerminalFrame}
    (steps : CoreSteps allowed before accepted terminals after)
    (reliable : before.panel.Reliable) (noFrame : accepted = []) :
    after.core.logicalFrameId = before.core.logicalFrameId := by
  induction steps with
  | nil => rfl
  | cons _ step _ induction =>
      rw [List.append_eq_nil_iff] at noFrame
      exact (induction (step.panel_reliable reliable) noFrame.2).trans
        (step.logical_eq reliable noFrame.1)

theorem idsGrow_of_run {setup : CoreSetup} {history : List CoreEvent}
    {final : World} (run : CoreRun setup history final)
    (reliable : setup.panel.Reliable) : IdsGrow history final.core := by
  obtain ⟨first, fresh, run⟩ := run
  refine (Run.keeps (fun history world => Coherent world.core ∧
    world.panel.Reliable ∧ IdsGrow history world.core)
    ⟨(newCore_spec fresh).1, reliable, by simp [acceptedFrames],
      by simp [acceptedFrames]⟩ ?_ run fun _ _ => True.intro).2.2
  rintro history (event : CoreEvent) - stepped ⟨coherent, reliable, grow⟩
  obtain ⟨_, steps, _⟩ := (accounts_of_coreStep coherent stepped).steps
  obtain ⟨coherentAfter, reliableAfter⟩ := steps.keeps
    (fun world => Coherent world.core ∧ world.panel.Reliable)
    (fun _ step inv => ⟨step.coherent inv.1, step.panel_reliable inv.2⟩)
    ⟨coherent, reliable⟩
  refine ⟨coherentAfter, reliableAfter, ?_⟩
  by_cases noFrame : event.accepted = []
  · have sameFrames : acceptedFrames (event :: history) =
        acceptedFrames history := by
      simp [acceptedFrames, noFrame]
    refine ⟨by rw [sameFrames]; exact grow.increasing, ?_⟩
    rw [sameFrames, steps.logical_eq reliable noFrame]
    exact grow.bounded
  · obtain ⟨frame, _, _, _, _, next, accepted, commits, isAfter⟩ :=
      commit_of_accepted stepped noFrame
    obtain ⟨_, ⟨_, newer⟩, _, _, _, base, _, rfl⟩ :=
      commitTimed_eq_ok commits
    have frames : acceptedFrames (event :: history) =
        frame :: acceptedFrames history := by
      simp [acceptedFrames, accepted]
    rw [isAfter]
    refine ⟨?_, ?_⟩
    · rw [frames, List.pairwise_cons]
      exact ⟨fun older member => (grow.bounded older member).trans_lt newer,
        grow.increasing⟩
    · rw [frames]
      intro other member
      rcases List.mem_cons.mp member with rfl | older
      · exact le_rfl
      · exact (grow.bounded other older).trans newer.le

end RmDisplay.Core
