import RmDisplay.Receiver.NumberingRuns

/-!
# Requests about the refresh settings

A request that only asks, or that is refused, moves the numbers of the
connection and nothing else.  Whatever a request comes to, its answer reports
the settings in force after it.
-/

namespace RmDisplay.Receiver

open Foundation Protocol RmDisplay.Core Core.DisplayCore

/-- Only the numbers of the connection and the journal may differ, and no
request id goes back. -/
structure Untouched (before after : Session) : Prop where
  same : after = { before with
    lastIncomingMessageId := after.lastIncomingMessageId
    nextOutgoingMessageId := after.nextOutgoingMessageId
    lastProfileRequestId := after.lastProfileRequestId
    lastRefreshRequestId := after.lastRefreshRequestId
    journal := after.journal }
  profile : before.lastProfileRequestId ≤ after.lastProfileRequestId
  refresh : before.lastRefreshRequestId ≤ after.lastRefreshRequestId

namespace Session

section

variable {before middle after : Session} {answers : List Envelope}
  {now : Duration}

/-- A procedure that builds one envelope and returns it. -/
theorem alone_runs {procedure : SessionProc Envelope}
    (runs : (do return [← procedure]).Runs before (.ok answers) after) :
    ∃ envelope, answers = [envelope] ∧
      procedure.Runs before (.ok envelope) after := by
  rcases Proc.runs_bind.mp runs with ⟨envelope, between, ran, returned⟩ |
    ⟨err, failed, _⟩
  · obtain ⟨same, rfl⟩ := Proc.runs_pure.mp returned
    cases same
    exact ⟨envelope, rfl, ran⟩
  · cases failed

theorem added_runs {procedure : SessionProc Envelope}
    {responses : List Envelope}
    (runs : (do
      let envelope ← procedure
      return responses ++ [envelope]).Runs before (.ok answers) after) :
    ∃ envelope, answers = responses ++ [envelope] ∧
      procedure.Runs before (.ok envelope) after := by
  rcases Proc.runs_bind.mp runs with ⟨envelope, between, ran, returned⟩ |
    ⟨err, failed, _⟩
  · obtain ⟨same, rfl⟩ := Proc.runs_pure.mp returned
    cases same
    exact ⟨envelope, rfl, ran⟩
  · cases failed

theorem untouched_trans (first : Untouched before middle)
    (second : Untouched middle after) : Untouched before after := by
  refine ⟨?_, Nat.le_trans first.profile second.profile,
    Nat.le_trans first.refresh second.refresh⟩
  have isMiddle := first.same
  have isAfter := second.same
  rw [isMiddle] at isAfter
  exact isAfter

theorem untouched_wrapped {body : Body} (untouched : Untouched before middle) :
    Untouched before (middle.wrapped body) := by
  obtain ⟨same, profile, refresh⟩ := untouched
  refine ⟨?_, profile, refresh⟩
  rw [same]
  rfl

/-- What a SET request that was accepted sets, and how it is answered. -/
theorem setProfile_answers {request : EpaperProfileRequest}
    {next : RefreshPolicyConfig}
    (runs : (setProfile request next now).Runs before (.ok answers) after) :
    ∃ earlier change between,
      (applyProfile before.config.refreshPolicy next now).Runs
          { before with
            lastCustomProfile := if next.profile = .custom then some next
              else before.lastCustomProfile
            config := { before.config with refreshPolicy := next } }
          (.ok change) between ∧
        bodies answers = earlier ++ [.epaperProfileResult
          { requestId := request.requestId
            operation := request.operation
            requestedProfile := request.requestedProfile
            result := wire (if change.changed then
              EpaperProfileResultCode.applied else .unchanged)
            active := some (profileState next)
            cleanupPerformed := change.cleanupPerformed
            cleanupPending := change.cleanupPending
            message := profileMessage change }] ∧
        Steady between answers after := by
  unfold setProfile at runs
  rw [Proc.runs_get_bind, Proc.runs_set_bind] at runs
  rcases Proc.runs_bind.mp runs with ⟨change, between, applied, runs⟩ |
    ⟨err, failed, _⟩
  · rcases Proc.runs_bind.mp runs with ⟨responses, sent, told, runs⟩ |
      ⟨err, failed, _⟩
    · have first := terminalResults_steady _ _ _ told
      obtain ⟨envelope, rfl, built⟩ := added_runs runs
      have second := epaperProfileResult_steady _ _ _ built
      obtain ⟨rfl, isEnvelope⟩ := wrap_runs built
      cases isEnvelope
      refine ⟨bodies responses, change, between, applied, ?_,
        first.trans second⟩
      rw [bodies_append]
      rfl
    · cases failed
  · cases failed

/-- What a SET request that was accepted leaves set, also if it fails later. -/
theorem setProfile_sets {request : EpaperProfileRequest}
    {next : RefreshPolicyConfig}
    {output : Except SessionError (List Envelope)}
    (runs : (setProfile request next now).Runs before output after) :
    after.config.refreshPolicy = next ∧
      after.lastCustomProfile = if next.profile = .custom then some next
        else before.lastCustomProfile := by
  unfold setProfile at runs
  rw [Proc.runs_get_bind, Proc.runs_set_bind] at runs
  rcases Proc.runs_bind.mp runs with ⟨change, between, applied, runs⟩ |
    ⟨err, rfl, applied⟩
  · obtain ⟨same, _⟩ := applyProfile_sets applied
    have rest : steadily.From between between [] (do
        let responses ← terminalResults change.terminals
        let result ← epaperProfileResult request
          (if change.changed then .applied else .unchanged) next
          change.cleanupPerformed change.cleanupPending (profileMessage change)
        return responses ++ [result]) id :=
      .bind terminalResults_steady fun _ _ =>
        .bind epaperProfileResult_steady fun _ _ => .pure rfl
    have steady := rest (steadily.refl between) output after runs
    exact ⟨steady.policy.trans (congrArg (·.2.2.1) same),
      steady.custom.trans (congrArg (·.2.2.2) same)⟩
  · obtain ⟨same, _⟩ := applyProfile_sets applied
    exact ⟨congrArg (·.2.2.1) same, congrArg (·.2.2.2) same⟩

theorem validateEnvelopeHeader_runs {envelope : Envelope}
    (runs : (validateEnvelopeHeader envelope).Runs before (.ok ()) after) :
    after = { before with lastIncomingMessageId := envelope.messageId } := by
  unfold validateEnvelopeHeader at runs
  rw [Proc.runs_get_bind] at runs
  split at runs
  · cases runs
  · split at runs
    · cases runs
    · exact (Proc.runs_set.mp runs).2

theorem deferred_runs {envelope : Envelope} {body : Body}
    (isBody : envelope.body = some body)
    (isNoHello : ∀ hello, body ≠ .clientHello hello)
    (runs : (handleInner envelope now false).Runs before (.ok answers) after) :
    (handleBody body now).Runs
      { before with lastIncomingMessageId := envelope.messageId }
      (.ok answers) after := by
  unfold handleInner at runs
  rcases Proc.runs_bind.mp runs with ⟨_, between, checked, runs⟩ |
    ⟨err, failed, _⟩
  · have isBetween := validateEnvelopeHeader_runs checked
    subst isBetween
    rw [Proc.runs_get_bind, isBody] at runs
    dsimp only at runs
    simp only [Bool.false_eq_true, if_false, bind_pure] at runs
    split at runs
    · exact runs
    · unfold handleFirst at runs
      split at runs
      · exact absurd rfl (isNoHello _)
      · cases runs
  · cases failed

end

end Session

theorem untouched_header (session : Session) (messageId : Nat) :
    Untouched session { session with lastIncomingMessageId := messageId } :=
  ⟨rfl, Nat.le_refl _, Nat.le_refl _⟩

theorem SessionRun.policied {setup : SessionSetup}
    {history : List SessionEvent} {final : Session}
    (run : SessionRun setup history final)
    (valid : setup.config.refreshPolicy.validate = .ok ()) :
    final.Policied := by
  obtain ⟨first, fresh, orderly⟩ := run.orderly
  obtain ⟨_, _, _, custom, hidden, config⟩ := newSession_numbered fresh
  apply orderly.policied
  constructor
  · rw [config]
    exact valid
  · rw [custom]
    exact fun _ missing => nomatch missing
  · intro surface missing
    rw [hidden] at missing
    cases missing

/-- Ask for a named profile. -/
def namedProfile (requestId : Nat) (profile : EpaperProfile) : Body :=
  .epaperProfileRequest
    { requestId
      operation := wire EpaperProfileOperation.set
      requestedProfile := wire profile
      custom := none }

end RmDisplay.Receiver
