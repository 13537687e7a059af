import RmDisplay.Core.OperationSteps

/-!
# Cleanups and complete refreshes

A core forgets that a cleanup is asked for when the panel accepts a complete
refresh, and at no other time.  Until then every frame it submits is refreshed
completely.
-/

namespace RmDisplay.Core

open Foundation Protocol DisplayCore

/-- A complete refresh of a core that the panel accepted. -/
def PanelCall.cleans : PanelCall → Bool
  | .pump _ => false
  | .submit submission =>
      submission.reply.isSome && submission.decision.completeRefresh &&
        submission.origin != .fallback

/-- The number of calls up to the last complete refresh.  The latest call
comes first. -/
def lastClean : List PanelCall → Nat
  | [] => 0
  | call :: earlier =>
      if call.cleans then earlier.length + 1 else lastClean earlier

theorem lastClean_le (calls : List PanelCall) :
    lastClean calls ≤ calls.length := by
  induction calls with
  | nil => exact Nat.le_refl 0
  | cons call earlier induction =>
      rw [lastClean, List.length_cons]
      split
      · exact Nat.le_refl _
      · exact Nat.le_succ_of_le induction

theorem lastClean_cons_of_not {call : PanelCall} (quiet : call.cleans = false)
    (earlier : List PanelCall) :
    lastClean (call :: earlier) = lastClean earlier := by
  rw [lastClean, quiet]
  rfl

theorem lastClean_cons_of_cleans {call : PanelCall} (cleans : call.cleans = true)
    (earlier : List PanelCall) :
    lastClean (call :: earlier) = earlier.length + 1 := by
  rw [lastClean, cleans]
  rfl

/-- Later calls only move the last complete refresh forward. -/
theorem lastClean_append (newer older : List PanelCall) :
    lastClean (newer ++ older) = lastClean older ∨
      older.length < lastClean (newer ++ older) := by
  induction newer with
  | nil => exact .inl rfl
  | cons call newer induction =>
      rw [List.cons_append]
      cases cleans : call.cleans with
      | true =>
          right
          rw [lastClean_cons_of_cleans cleans, List.length_append]
          omega
      | false =>
          rw [lastClean_cons_of_not cleans]
          exact induction

def PanelCall.IsPump (call : PanelCall) : Prop := ∃ accepted, call = .pump accepted

theorem PanelCall.IsPump.quiet {call : PanelCall} (isPump : call.IsPump) :
    call.cleans = false := by
  obtain ⟨accepted, rfl⟩ := isPump
  rfl

theorem lastClean_pumps {pumps : List PanelCall}
    (allPumps : ∀ call ∈ pumps, call.IsPump) (earlier : List PanelCall) :
    lastClean (pumps ++ earlier) = lastClean earlier := by
  induction pumps with
  | nil => rfl
  | cons call pumps induction =>
      obtain ⟨isPump, others⟩ := List.forall_mem_cons.mp allPumps
      rw [List.cons_append, lastClean_cons_of_not isPump.quiet, induction others]

/-- The submission presents a frame. -/
def Submission.IsFrame (self : Submission) : Prop :=
  ∃ frameId intent, self.origin = .frame frameId intent

/-- The calls of one step of a core, and what they mean for a cleanup that is
asked for: after at most some pumps it submits at most once. -/
inductive Disarms (before after : World) : Prop where
  | quiet (pumps : List PanelCall) (allPumps : ∀ call ∈ pumps, call.IsPump)
      (calls : after.panel.calls = pumps ++ before.panel.calls)
      (armed : after.core.forceCleanupNext = before.core.forceCleanupNext)
      (frame : before.core.forceCleanupNext = true →
        after.core.presentedFrameId = before.core.presentedFrameId)
  | submits (submission : Submission) (pumps : List PanelCall)
      (allPumps : ∀ call ∈ pumps, call.IsPump)
      (calls : after.panel.calls =
        .submit submission :: (pumps ++ before.panel.calls))
      (armed : after.core.forceCleanupNext =
        (before.core.forceCleanupNext &&
          !(PanelCall.submit submission).cleans))
      (complete : before.core.forceCleanupNext = true → submission.IsFrame →
        submission.decision.completeRefresh = true)
      (frame : before.core.forceCleanupNext = true →
        after.core.presentedFrameId ≠ before.core.presentedFrameId →
        (PanelCall.submit submission).cleans = true)

/-- A step without a call. -/
theorem Disarms.silent {before after : World}
    (calls : after.panel.calls = before.panel.calls)
    (armed : after.core.forceCleanupNext = before.core.forceCleanupNext)
    (frame : after.core.presentedFrameId = before.core.presentedFrameId) :
    Disarms before after :=
  .quiet [] (List.forall_mem_nil _) calls armed fun _ => frame

theorem pump_isPump (accepted : Bool) :
    ∀ call ∈ [PanelCall.pump accepted], call.IsPump := by
  intro call member
  exact ⟨accepted, List.mem_singleton.mp member⟩

theorem cleans_of_accepted {origin : Origin} {pixels : PixelSurface}
    {damage : List Rect} {decision : RefreshDecision}
    {metrics : PanelSubmissionMetrics} (ofCore : origin ≠ .fallback) :
    (PanelCall.submit ⟨origin, pixels, damage, decision,
      some metrics⟩).cleans = decision.completeRefresh := by
  simp [PanelCall.cleans, ofCore]

theorem FrameStep.disarms {timing : Timing} {before after : World}
    {terminal : TerminalFrame} (step : FrameStep timing before terminal after)
    (coherent : Coherent before.core) : Disarms before after := by
  cases step with
  | pumpFailed _ _ =>
      exact .quiet [.pump _] (pump_isPump _) rfl rfl fun _ => rfl
  | @unchanged core panel pending prepared isPending _ prepares nothing =>
      have spec := (prepareFrame_spec coherent
        (coherent.hint pending isPending)).of_ok prepares
      refine .quiet [.pump _] (pump_isPump _) rfl rfl fun forced => ?_
      have full := spec.complete (spec.cleanup (.inr forced))
      rw [nothing] at full
      cases full
  | @refused core panel pending prepared isPending _ prepares _ refuses =>
      have spec := (prepareFrame_spec coherent
        (coherent.hint pending isPending)).of_ok prepares
      refine .submits _ [.pump _] (pump_isPump _) rfl ?_
        (fun forced _ => spec.cleanup (.inr forced))
        fun _ presents => absurd rfl presents
      simp [PanelCall.cleans, refuses, presentRefused, markPanelFailure]
  | @accepted core next panel pending prepared metrics isPending _ prepares _
      accepts presents =>
      have spec := (prepareFrame_spec coherent
        (coherent.hint pending isPending)).of_ok prepares
      obtain ⟨working, settleDamage, fastUpdates, _, _, rfl⟩ :=
        presentAccepted_eq_ok presents
      refine .submits _ [.pump _] (pump_isPump _) rfl ?_
        (fun forced _ => spec.cleanup (.inr forced)) fun forced _ => ?_
      · rw [accepts, cleans_of_accepted (by simp)]
        exact Bool.and_comm _ _
      · rw [accepts, cleans_of_accepted (by simp)]
        exact spec.cleanup (.inr forced)

theorem planeOrigin_notFrame {intent : FrameIntent} {submission : Submission}
    (origin : submission.origin = planeOrigin intent) :
    ¬ submission.IsFrame := by
  rintro ⟨frameId, other, isFrame⟩
  rw [origin, planeOrigin] at isFrame
  split at isFrame <;> cases isFrame

theorem PlaneStep.disarms {timing : Timing} {intent : FrameIntent}
    {before after : World} {output : Except CoreError Unit}
    (step : PlaneStep timing intent before output after) :
    Disarms before after := by
  cases step with
  | @failed core _ _ _ =>
      obtain ⟨ink, taken⟩ := planeTaken_frame core intent
      rw [taken]
      exact .silent rfl rfl rfl
  | unchanged draws =>
      obtain ⟨ink, working, rfl⟩ := drawnPlane_frame draws
      exact .silent rfl rfl rfl
  | refused draws _ refuses =>
      obtain ⟨ink, working, rfl⟩ := drawnPlane_frame draws
      refine .submits _ [] (List.forall_mem_nil _) rfl ?_
        (fun _ isFrame => absurd isFrame (planeOrigin_notFrame rfl))
        fun _ presents => absurd rfl presents
      simp [PanelCall.cleans, refuses]
  | accepted draws _ accepts presents =>
      obtain ⟨ink, working, rfl⟩ := drawnPlane_frame draws
      obtain ⟨presented, settleDamage, fastUpdates, _, _, rfl⟩ :=
        planeAccepted_eq_ok presents
      have ofCore : planeOrigin intent ≠ .fallback := by
        cases intent <;> simp [planeOrigin]
      refine .submits _ [] (List.forall_mem_nil _) rfl ?_
        (fun _ isFrame => absurd isFrame (planeOrigin_notFrame rfl))
        fun _ presents => absurd (by simp) presents
      rw [accepts, cleans_of_accepted ofCore]
      exact Bool.and_comm _ _

theorem CleanupStep.disarms {timing : Timing} {before after : World}
    {report : CleanupReport}
    (step : CleanupStep timing before report after) :
    Disarms before after := by
  cases step with
  | pumpFailed _ =>
      exact .quiet [.pump _] (pump_isPump _) rfl rfl fun _ => rfl
  | refused _ refuses =>
      refine .submits _ [.pump _] (pump_isPump _) rfl ?_
        (fun _ ⟨_, _, isFrame⟩ => nomatch isFrame)
        fun _ presents => absurd rfl presents
      simp [PanelCall.cleans, refuses, markPanelFailure]
  | @accepted core _ _ _ accepts =>
      have complete : core.cleanupDecision.completeRefresh = true :=
        RefreshPolicy.decide_forced _ _ _ _ _
      have disarms : (core.cleanupAccepted timing.now).forceCleanupNext =
          false := by rw [cleanupAccepted_eq]
      refine .submits _ [.pump _] (pump_isPump _) rfl ?_
        (fun _ ⟨_, _, isFrame⟩ => nomatch isFrame) fun _ _ => ?_
      · rw [accepts, cleans_of_accepted (by simp), complete, disarms]
        exact (Bool.and_false _).symm
      · rw [accepts, cleans_of_accepted (by simp), complete]

/-- Every step of a core but an adjustment. -/
theorem CoreStep.disarms {before after : World} {action : Action}
    {terminals : List TerminalFrame}
    (step : CoreStep before action terminals after)
    (coherent : Coherent before.core) (notAdjust : action ≠ .adjust) :
    Disarms before after := by
  cases step with
  | adjust _ => exact absurd rfl notAdjust
  | cancel | freeze => exact .silent rfl rfl rfl
  | commit commits =>
      obtain ⟨_, _, _, _, _, base, _, rfl⟩ := commitTimed_eq_ok commits
      exact .silent rfl rfl rfl
  | @edit core _ _ plane _ edits =>
      obtain ⟨edited, _, stored⟩ := Res.bind_eq_ok.mp edits
      cases stored
      obtain ⟨overlay, peerOverlay, ink, same⟩ :=
        setPlane_frame core plane edited
      rw [same]
      exact .silent rfl rfl rfl
  | present step => exact step.disarms coherent
  | draw step => exact step.disarms
  | resubmit _ step => exact step.disarms

end RmDisplay.Core
