import RmDisplay.Receiver.RefreshSettings

/-!
# Custom profiles in a run

A custom configuration that was accepted is in force, and stays remembered
until another one is accepted.  Whenever it is in force, asking for it again
is answered as unchanged and echoes the message it was read from.
-/

namespace RmDisplay.Receiver

open Foundation Protocol RmDisplay.Core Core.DisplayCore

/-- A SET request for a custom configuration. -/
structure SetsCustom (request : EpaperProfileRequest)
    (custom : EpaperProfileConfiguration) : Prop where
  operation : request.operation = wire EpaperProfileOperation.set
  profile : request.requestedProfile = wire EpaperProfile.custom
  complete : request.custom = some custom

/-- The last answer has a result code and echoes a configuration. -/
def EchoesIn (answers : List Envelope) (code : EpaperProfileResultCode)
    (custom : EpaperProfileConfiguration) : Prop :=
  ∃ earlier result active,
    bodies answers = earlier ++ [.epaperProfileResult result] ∧
      result.result = wire code ∧ result.active = some active ∧
      active.effective = some custom

/-- The request is the only one answered, and it is refused. -/
def Declines (answers : List Envelope) : Prop :=
  ∃ result, bodies answers = [.epaperProfileResult result] ∧
    (result.result = wire EpaperProfileResultCode.rejected ∨
      result.result = wire EpaperProfileResultCode.unsupported)

/-- A custom configuration may be asked for under a new request id. -/
structure MaySetCustom (session : Session) (request : EpaperProfileRequest) :
    Prop where
  control : session.profileControlEnabled = true
  custom : session.customProfileControlEnabled = true
  newer : session.lastProfileRequestId < request.requestId

/-- A custom configuration is in force and remembered, and asking for it again
changes nothing. -/
structure Echoed (session : Session) (custom : EpaperProfileConfiguration) :
    Prop where
  effective :
    Session.profileConfiguration session.config.refreshPolicy = custom
  remembered :
    session.lastCustomProfile = some session.config.refreshPolicy
  replay : ∀ request now answers after, SetsCustom request custom →
    MaySetCustom session request →
    (Session.handleEpaperProfile request now).Runs session (.ok answers)
      after →
    EchoesIn answers .unchanged custom ∧
      after.config.refreshPolicy = session.config.refreshPolicy ∧
      after.lastCustomProfile = session.lastCustomProfile

namespace Session

section

variable {before after : Session} {now : Duration}
  {request : EpaperProfileRequest} {custom : EpaperProfileConfiguration}
  {config : RefreshPolicyConfig} {answers : List Envelope}

theorem applyProfile_changed {current next : RefreshPolicyConfig}
    {change : RefreshProfileChange}
    (agrees : ∀ surface ∈ before.surface,
      surface.core.refreshPolicy.config = current)
    (runs : (applyProfile current next now).Runs before (.ok change) after) :
    change.changed = (next != current) := by
  unfold applyProfile at runs
  rw [Proc.runs_get_bind] at runs
  split at runs
  · rename_i surface shown
    rcases Proc.runs_bind.mp runs with ⟨given, between, asks, runs⟩ |
      ⟨err, failed, _⟩
    · rw [Proc.runs_modify_bind, Proc.runs_pure] at runs
      obtain ⟨same, _⟩ := runs
      cases same
      have noted : (if reconfigures surface.core next then
          before.note (.asked .profile) else before).surface =
          some surface := by
        cases reconfigures surface.core next <;> exact shown
      obtain ⟨timing, given, world, _, ran, _, returned⟩ :=
        runCore_runs noted (Proc.runs_modify_bind.mp asks)
      have isOk := ok_of_mapError returned.symm
      subst isOk
      rw [DisplayCore.changeRefreshProfile_changed ran, agrees surface shown]
    · cases failed
  · rw [Proc.runs_set_bind, Proc.runs_pure] at runs
    obtain ⟨same, _⟩ := runs
    cases same
    rfl

theorem requestedConfig_custom (sets : SetsCustom request custom) :
    before.requestedConfig request =
      if !before.customProfileControlEnabled then
        .error (.unsupported,
          "CUSTOM requires protocol v2.2 and EPAPER_CUSTOM_PROFILE")
      else (customProfileConfig custom).mapError fun message =>
        (.rejected, message) := by
  unfold requestedConfig
  rw [sets.profile, sets.complete]
  rfl

/-- A complete configuration that may be asked for is set, and any other
request for a configuration is refused. -/
theorem handle_custom (sets : SetsCustom request custom)
    (runs : (handleEpaperProfile request now).Runs before (.ok answers)
      after) :
    (MaySetCustom before request ∧
      ∃ config, customProfileConfig custom = .ok config ∧
        (setProfile request config now).Runs
          { before with lastProfileRequestId := request.requestId }
          (.ok answers) after) ∨
      (¬ (MaySetCustom before request ∧ CompleteCustom custom) ∧
        Declines answers ∧ Untouched before after) := by
  have declined {middle : Session} {code : EpaperProfileResultCode}
      {message : String}
      (isRefusal : code = .rejected ∨ code = .unsupported)
      (untouched : Untouched before middle)
      (ran : (do return [← epaperProfileResult request code
        before.config.refreshPolicy false before.currentCleanupPending
        message]).Runs middle (.ok answers) after) :
      Declines answers ∧ Untouched before after := by
    obtain ⟨envelope, rfl, built⟩ := alone_runs ran
    obtain ⟨rfl, isEnvelope⟩ := wrap_runs built
    cases isEnvelope
    refine ⟨⟨_, rfl, ?_⟩, untouched_wrapped untouched⟩
    rcases isRefusal with rfl | rfl
    · exact .inl rfl
    · exact .inr rfl
  unfold handleEpaperProfile at runs
  rw [Proc.runs_get_bind] at runs
  dsimp only at runs
  have same : Untouched before before :=
    ⟨rfl, Nat.le_refl _, Nat.le_refl _⟩
  split at runs
  · rename_i disabled
    refine .inr ⟨fun both => ?_, declined (.inr rfl) same runs⟩
    rw [both.1.control] at disabled
    cases disabled
  · rename_i enabled
    split at runs
    · rename_i old
      refine .inr ⟨fun both => ?_, declined (.inl rfl) same runs⟩
      have newer := both.1.newer
      omega
    · rename_i fresh
      rw [Proc.runs_set_bind] at runs
      have newer : before.lastProfileRequestId < request.requestId := by omega
      have counted : Untouched before
          { before with lastProfileRequestId := request.requestId } :=
        ⟨rfl, Nat.le_of_lt newer, Nat.le_refl _⟩
      rw [sets.operation, if_neg (by simp [sets.complete]),
        if_neg (by decide)] at runs
      have asked := @requestedConfig_custom before _ _ sets
      by_cases control : before.customProfileControlEnabled = true
      · rw [control] at asked
        cases computed : customProfileConfig custom with
        | error message =>
            rw [computed] at asked
            simp only [asked] at runs
            refine .inr ⟨fun both => ?_, declined (.inl rfl) counted runs⟩
            obtain ⟨config, accepts⟩ := customProfileConfig_iff.mpr both.2
            rw [computed] at accepts
            cases accepts
        | ok config =>
            rw [computed] at asked
            change before.requestedConfig request = .ok config at asked
            simp only [asked] at runs
            refine .inl ⟨⟨?_, control, newer⟩, config, rfl, runs⟩
            simpa using enabled
      · rw [Bool.not_eq_true] at control
        rw [control] at asked
        simp only [asked] at runs
        refine .inr ⟨fun both => ?_, declined (.inr rfl) counted runs⟩
        rw [both.1.custom] at control
        cases control

theorem setProfile_echoes (accepts : customProfileConfig custom = .ok config)
    (runs : (setProfile request config now).Runs before (.ok answers) after) :
    ∃ change between,
      (applyProfile before.config.refreshPolicy config now).Runs
          { before with
            lastCustomProfile := some config
            config := { before.config with refreshPolicy := config } }
          (.ok change) between ∧
        EchoesIn answers (if change.changed then .applied else .unchanged)
          custom := by
  obtain ⟨_, isCustom, echoes⟩ := customProfileConfig_spec accepts
  obtain ⟨earlier, change, between, applied, answered, _⟩ :=
    setProfile_answers runs
  rw [if_pos isCustom] at applied
  refine ⟨change, between, applied, earlier, _, _, answered, rfl, rfl, ?_⟩
  exact congrArg some echoes

theorem echoed_of_force (accepts : customProfileConfig custom = .ok config)
    (force : before.config.refreshPolicy = config)
    (remembered : before.lastCustomProfile = some config)
    (agrees : ∀ surface ∈ before.surface,
      surface.core.refreshPolicy.config = config) : Echoed before custom := by
  obtain ⟨_, isCustom, echoes⟩ := customProfileConfig_spec accepts
  refine ⟨?_, ?_, ?_⟩
  · rw [force]
    exact echoes
  · rw [remembered, force]
  · intro request now answers after sets may runs
    rcases handle_custom sets runs with ⟨_, other, accepted, setting⟩ |
      ⟨barred, _⟩
    · rw [accepts] at accepted
      cases accepted
      obtain ⟨change, between, applied, echoed⟩ :=
        setProfile_echoes accepts setting
      obtain ⟨isPolicy, isRemembered⟩ := setProfile_sets setting
      rw [if_pos isCustom] at isRemembered
      have same : change.changed = false := by
        rw [applyProfile_changed (by rw [← force] at agrees; exact agrees)
          applied]
        change (config != before.config.refreshPolicy) = false
        rw [force]
        exact bne_self_eq_false config
      rw [same] at echoed
      exact ⟨echoed, isPolicy.trans force.symm,
        isRemembered.trans remembered.symm⟩
    · have complete := customProfileConfig_iff.mp ⟨config, accepts⟩
      exact absurd ⟨may, complete⟩ barred

theorem setProfile_agrees (valid : config.validate = .ok ())
    (runs : (setProfile request config now).Runs before (.ok answers) after) :
    ∀ surface ∈ after.surface,
      surface.core.refreshPolicy.config = config := by
  obtain ⟨_, change, between, applied, _, steady⟩ := setProfile_answers runs
  obtain ⟨same, sets⟩ := applyProfile_sets applied
  have policy : between.config.refreshPolicy = config :=
    congrArg (·.2.2.1) same
  have agreed : between.Agrees := by
    intro surface shown
    rw [policy]
    exact sets valid surface shown
  intro surface shown
  have settings := steady.agrees agreed surface shown
  rw [steady.policy, policy] at settings
  exact congrArg (·.1) settings

theorem custom_echoed (sets : SetsCustom request custom)
    (runs : (handleEpaperProfile request now).Runs before (.ok answers)
      after) :
    (MaySetCustom before request ∧ CompleteCustom custom ∧
      Echoed after custom ∧ (EchoesIn answers .applied custom ∨
        EchoesIn answers .unchanged custom)) ∨
      (¬ (MaySetCustom before request ∧ CompleteCustom custom) ∧
        Declines answers ∧ Untouched before after) := by
  rcases handle_custom sets runs with ⟨may, config, accepts, setting⟩ |
    declined
  · left
    obtain ⟨valid, isCustom, _⟩ := customProfileConfig_spec accepts
    obtain ⟨isPolicy, isRemembered⟩ := setProfile_sets setting
    rw [if_pos isCustom] at isRemembered
    obtain ⟨change, _, _, echoed⟩ := setProfile_echoes accepts setting
    refine ⟨may, customProfileConfig_iff.mp ⟨config, accepts⟩,
      echoed_of_force accepts isPolicy isRemembered
        (setProfile_agrees valid setting), ?_⟩
    cases isChanged : change.changed with
    | true =>
        rw [isChanged] at echoed
        exact .inl echoed
    | false =>
        rw [isChanged] at echoed
        exact .inr echoed
  · exact .inr declined

/-- A profile that was changed from the menu is in force, whatever the panel
says. -/
theorem changeProfile_sets {output : Except SessionError (List Envelope)}
    (valid : config.validate = .ok ())
    (runs : (changeProfile config now).Runs before output after) :
    after.config.refreshPolicy = config ∧
      after.lastCustomProfile = before.lastCustomProfile ∧
      ∀ surface ∈ after.surface,
        surface.core.refreshPolicy.config = config := by
  have ends {between : Session} {given : List Envelope}
      (policy : between.config.refreshPolicy = config)
      (custom : between.lastCustomProfile = before.lastCustomProfile)
      (sets : ∀ surface ∈ between.surface,
        surface.core.settings = (config, config.damageTile))
      (steady : Steady between given after) :
      after.config.refreshPolicy = config ∧
        after.lastCustomProfile = before.lastCustomProfile ∧
        ∀ surface ∈ after.surface,
          surface.core.refreshPolicy.config = config := by
    have isPolicy : after.config.refreshPolicy = config :=
      steady.policy.trans policy
    have agreed : between.Agrees := by
      intro surface shown
      rw [policy]
      exact sets surface shown
    refine ⟨isPolicy, steady.custom.trans custom, ?_⟩
    intro surface shown
    have settings := steady.agrees agreed surface shown
    rw [isPolicy] at settings
    exact congrArg (·.1) settings
  have draws (between : Session) (responses : List Envelope) :
      steadily.From between between responses (do
        let drawn ← renderLocalMenu now
        return responses ++ drawn) id :=
    .bind renderLocalMenu_steady fun _ _ => .pure rfl
  unfold changeProfile at runs
  rw [Proc.runs_get_bind, Proc.runs_set_bind] at runs
  dsimp only at runs
  split at runs
  · rename_i surface shown
    rcases Proc.runs_bind.mp runs with ⟨change, between, asks, runs⟩ |
      ⟨err, rfl, fails⟩
    · obtain ⟨same, sets⟩ := askCore_sets (by rw [shown]; rfl) asks
      have rest : steadily.From between between [] (do
          let responses ← terminalResults change.terminals
          let drawn ← renderLocalMenu now
          return responses ++ drawn) id :=
        .bind terminalResults_steady fun responses _ =>
          .bind renderLocalMenu_steady fun _ _ => .pure rfl
      exact ends (congrArg (·.2.2.1) same) (congrArg (·.2.2.2) same)
        (sets valid) (rest (steadily.refl between) output after runs)
    · obtain ⟨same, sets⟩ := askCore_sets (by rw [shown]; rfl) fails
      exact ends (congrArg (·.2.2.1) same) (congrArg (·.2.2.2) same)
        (sets valid) (Steady.refl after)
  · rename_i hidden
    rw [Proc.runs_modify_bind, pure_bind] at runs
    refine ends ?_ ?_ ?_ (draws _ [] (steadily.refl _) output after runs)
    · split <;> rfl
    · split <;> rfl
    · intro surface missing
      have same : surface ∈ before.surface := by
        revert missing
        split <;> exact id
      rw [hidden] at same
      cases same

theorem menu_echoes {output : Except SessionError (List Envelope)}
    (accepts : customProfileConfig custom = .ok config)
    (remembered : before.lastCustomProfile = some config)
    (runs : (handleLocalMenuAction (.setProfile .custom) now).Runs before
      output after) : Echoed after custom := by
  unfold handleLocalMenuAction at runs
  rw [Proc.runs_get_bind] at runs
  simp only [remembered] at runs
  obtain ⟨isPolicy, isRemembered, agrees⟩ :=
    changeProfile_sets (customProfileConfig_spec accepts).1 runs
  exact echoed_of_force accepts isPolicy (isRemembered.trans remembered) agrees

theorem requestedConfig_eq_ok
    (accepts : before.requestedConfig request = .ok config) :
    (∃ custom, request.requestedProfile = wire EpaperProfile.custom ∧
        request.custom = some custom ∧
        customProfileConfig custom = .ok config) ∨
      config.profile ≠ .custom := by
  unfold requestedConfig at accepts
  split at accepts
  · cases accepts
  · rename_i isCustom
    split at accepts
    · cases accepts
    · split at accepts
      · cases accepts
      · rename_i custom asked
        cases computed : customProfileConfig custom with
        | error message =>
            rw [computed] at accepts
            cases accepts
        | ok config =>
            rw [computed] at accepts
            cases accepts
            exact .inl ⟨custom, (wire_of_tryFrom isCustom).symm, asked,
              computed⟩
  · split at accepts
    · cases accepts
    · split at accepts
      · cases accepts
      · rename_i profile isProfile
        cases accepts
        refine .inr ?_
        unfold protocolProfile at isProfile
        split at isProfile <;> cases isProfile <;> nofun

/-- A custom configuration that the request asks for. -/
def AcceptedBy (request : EpaperProfileRequest)
    (config : RefreshPolicyConfig) : Prop :=
  ∃ custom, SetsCustom request custom ∧
    customProfileConfig custom = .ok config

/-- The custom profile is kept, or replaced by one that is accepted. -/
def remembering (accepted : RefreshPolicyConfig → Prop) :
    Emission Session Envelope :=
  .ofRelation (fun before after =>
      after.lastCustomProfile = before.lastCustomProfile ∨
        ∃ config, accepted config ∧ after.lastCustomProfile = some config)
    (fun _ => .inl rfl)
    (fun earlier later => by
      rcases later with same | replaced
      · rw [same]
        exact earlier
      · exact .inr replaced)

theorem handleEpaperProfile_remembers :
    (remembering (AcceptedBy request)).Emits (handleEpaperProfile request now)
      id := by
  have rememberingOf {α : Type} {proc : SessionProc α}
      {given : α → List Envelope} (emits : steadily.Emits proc given) :
      (remembering (AcceptedBy request)).Emits proc given :=
    emits.mono fun _ _ _ (steady : Steady _ _ _) => Or.inl steady.custom
  refine .of_from fun session => .get ?_
  have answers (between : Session) (result : EpaperProfileResultCode)
      (message : String) : (remembering (AcceptedBy request)).From session
      between [] (do return [← epaperProfileResult request result
        session.config.refreshPolicy false session.currentCleanupPending
        message]) id :=
    .bind (rememberingOf epaperProfileResult_steady) fun _ _ => .pure rfl
  refine .ite (fun _ => answers _ _ _) fun _ =>
    .ite (fun _ => answers _ _ _) fun _ => ?_
  refine .set (.inl rfl) (.ite (fun _ => answers _ _ _) fun _ => ?_)
  refine .ite (fun _ => answers _ _ _) fun isSet => ?_
  split
  · exact answers _ _ _
  · rename_i next accepts
    refine fun _ output after runs => ?_
    obtain ⟨_, isRemembered⟩ := setProfile_sets runs
    rcases requestedConfig_eq_ok accepts with
      ⟨custom, isCustom, asked, computed⟩ | named
    · rw [if_pos (customProfileConfig_spec computed).2.1] at isRemembered
      have operation := (wire_of_tryFrom (not_not.mp isSet)).symm
      exact .inr ⟨next, ⟨custom, ⟨operation, isCustom, asked⟩, computed⟩,
        isRemembered⟩
    · rw [if_neg named] at isRemembered
      exact .inl isRemembered

/-- An operation that hands over a request for a custom configuration. -/
def Asks (op : SessionOp) (custom : EpaperProfileConfiguration) : Prop :=
  ∃ envelope request now,
    (op = .handle envelope now ∨ op = .handleDeferred envelope now) ∧
      envelope.body = some (.epaperProfileRequest request) ∧
      SetsCustom request custom

theorem operation_remembers (op : SessionOp) :
    (remembering fun config => ∃ custom, Asks op custom ∧
      customProfileConfig custom = .ok config).Emits op.run id := by
  refine operation_emits (fun _ _ _ lively => Or.inl lively.custom) ?_
  intro envelope now isOp body isBody
  by_cases other : ∀ request, body ≠ .epaperProfileRequest request
  · exact (handleBody_lively other).mono
      fun _ _ _ (lively : Lively _ _ _) => Or.inl lively.custom
  · obtain ⟨request, isRequest⟩ := not_forall_not.mp other
    subst isRequest
    refine handleEpaperProfile_remembers.mono ?_
    rintro _ _ _ (same | ⟨config, ⟨custom, sets, computed⟩, replaced⟩)
    · exact .inl same
    · exact .inr ⟨config, ⟨custom, ⟨envelope, request, now, isOp, isBody,
        sets⟩, computed⟩, replaced⟩

end

end Session

open Session

/-- Which custom configurations a session accepts, and how it echoes them. -/
structure CustomEchoes (history : List SessionEvent) (session : Session) :
    Prop where
  accepted : ∀ custom,
    (∃ config, customProfileConfig custom = .ok config) ↔
      CompleteCustom custom
  roundTrip : ∀ custom config, customProfileConfig custom = .ok config →
    config.validate = .ok () ∧ config.profile = .custom ∧
      profileConfiguration config = custom
  /-- A request is echoed if it may be made and is complete; any other one is
  refused. -/
  set : ∀ envelope request custom now answers after,
    envelope.body = some (.epaperProfileRequest request) →
    SetsCustom request custom →
    (SessionOp.handleDeferred envelope now).run.Runs session (.ok answers)
      after →
    (MaySetCustom session request ∧ CompleteCustom custom ∧
      Echoed after custom ∧ (EchoesIn answers .applied custom ∨
        EchoesIn answers .unchanged custom)) ∨
      (¬ (MaySetCustom session request ∧ CompleteCustom custom) ∧
        Declines answers ∧ Untouched session after)
  /-- Nothing but a complete request changes what is remembered. -/
  kept : ∀ event ∈ history,
    event.after.lastCustomProfile = event.before.lastCustomProfile ∨
      ∃ custom config, Asks event.input custom ∧
        customProfileConfig custom = .ok config ∧
        event.after.lastCustomProfile = some config
  remembered : ∀ config ∈ session.lastCustomProfile, ∃ event ∈ history,
    ∃ custom, Asks event.input custom ∧
      customProfileConfig custom = .ok config
  inForce : ∀ config ∈ session.lastCustomProfile,
    session.config.refreshPolicy = config →
      Echoed session (profileConfiguration config)
  /-- The menu may be used in the middle of an operation. -/
  chosen : ∀ custom config now before output after,
    customProfileConfig custom = .ok config →
    before.lastCustomProfile = some config →
    (handleLocalMenuAction (.setProfile .custom) now).Runs before output
      after → Echoed after custom

theorem SessionRun.keptCustom {setup : SessionSetup}
    {history : List SessionEvent} {final : Session}
    (run : SessionRun setup history final) {event : SessionEvent}
    (member : event ∈ history) :
    event.after.lastCustomProfile = event.before.lastCustomProfile ∨
      ∃ custom config, Asks event.input custom ∧
        customProfileConfig custom = .ok config ∧
        event.after.lastCustomProfile = some config := by
  obtain ⟨first, fresh, run⟩ := run
  rcases operation_remembers event.input _ _ _ (run.step_of_mem member) with
    same | ⟨config, ⟨custom, asks, computed⟩, replaced⟩
  · exact .inl same
  · exact .inr ⟨custom, config, asks, computed, replaced⟩

theorem SessionRun.rememberedCustom {setup : SessionSetup}
    {history : List SessionEvent} {final : Session}
    (run : SessionRun setup history final) :
    ∀ config ∈ final.lastCustomProfile, ∃ event ∈ history,
      ∃ custom, Asks event.input custom ∧
        customProfileConfig custom = .ok config := by
  obtain ⟨first, fresh, run⟩ := run
  refine (@Run.keeps _ _ _ _ _ _ _ (fun _ => True) (fun history session =>
    ∀ config ∈ session.lastCustomProfile, ∃ event ∈ history,
      ∃ custom, Asks event.input custom ∧
        customProfileConfig custom = .ok config) ?_ ?_ run
      fun _ _ => True.intro)
  · rw [(newSession_numbered fresh).2.2.2.1]
    exact fun _ missing => nomatch missing
  · intro history event _ stepped known config isRemembered
    rcases operation_remembers event.input _ _ _ stepped with
      same | ⟨other, ⟨custom, asks, computed⟩, replaced⟩
    · rw [same] at isRemembered
      obtain ⟨older, member, rest⟩ := known config isRemembered
      exact ⟨older, List.mem_cons_of_mem _ member, rest⟩
    · rw [replaced] at isRemembered
      cases isRemembered
      exact ⟨event, List.mem_cons_self, custom, asks, computed⟩

/-- In every run from a valid configuration custom profiles are echoed. -/
theorem customEchoes_of_run {setup : SessionSetup}
    {history : List SessionEvent} {final : Session}
    (run : SessionRun setup history final)
    (valid : setup.config.refreshPolicy.validate = .ok ()) :
    CustomEchoes history final := by
  have policied := run.policied valid
  constructor
  · exact fun custom => customProfileConfig_iff
  · exact fun custom config accepts => customProfileConfig_spec accepts
  · intro envelope request custom now answers after isBody sets runs
    have handled := deferred_runs isBody nofun runs
    rcases custom_echoed sets handled with ⟨may, rest⟩ |
      ⟨barred, declines, untouched⟩
    · exact .inl ⟨⟨may.control, may.custom, may.newer⟩, rest⟩
    · refine .inr ⟨fun both => ?_, declines,
        untouched_trans (untouched_header _ _) untouched⟩
      obtain ⟨⟨control, mayCustom, newer⟩, complete⟩ := both
      exact barred ⟨⟨control, mayCustom, newer⟩, complete⟩
  · exact fun event member => run.keptCustom member
  · exact run.rememberedCustom
  · intro config isRemembered force
    obtain ⟨event, _, custom, _, accepts⟩ :=
      run.rememberedCustom config isRemembered
    rw [(customProfileConfig_spec accepts).2.2]
    refine echoed_of_force accepts force isRemembered ?_
    intro surface shown
    rw [← force]
    exact congrArg (·.1) (policied.agrees surface shown)
  · exact fun custom config now before output after accepts known runs =>
      menu_echoes accepts known runs

/-- A complete custom configuration. -/
def readingCustom : EpaperProfileConfiguration where
  latestTextWaveform := wire EpaperWaveform.quality
  latestPhotoWaveform := wire EpaperWaveform.fast
  latestVideoWaveform := wire EpaperWaveform.fastest
  settledWaveform := wire EpaperWaveform.quality
  partialRefreshEnabled := true
  cleanupAfterUpdates := 40
  cleanFirstFrame := false
  largeUpdateThresholdPercent := 75
  staticCleanupAfterFastUpdates := 3
  damageTile := 16

/-- A custom configuration is remembered under a named profile. -/
theorem customEchoes_of_reading :
    ∃ setup history final config, SessionRun setup history final ∧
      final.lastCustomProfile = some config ∧
      profileConfiguration config = readingCustom ∧
      final.config.refreshPolicy.profile = .reading ∧
      CustomEchoes history final := by
  have ran := @SessionSetup.ran (.gray 1 1 (fun _ => true)
      fun _ => some ⟨0, 0, 1⟩)
    [grayMessage 4 (namedProfile 2 .reading) 4,
      grayMessage 3 (.epaperProfileRequest
        { requestId := 1
          operation := wire EpaperProfileOperation.set
          requestedProfile := wire EpaperProfile.custom
          custom := some readingCustom }) 3,
      grayMessage 2 (grayOpen 1 []) 2,
      grayMessage 1 (.clientHello (grayHello
        [.byteCredits, .epaperProfileControl, .epaperCustomProfile])) 1]
    (fun _ final => final.config.refreshPolicy.profile == .reading &&
      final.lastCustomProfile.any fun config =>
        profileConfiguration config == readingCustom)
    (by decide +kernel)
  obtain ⟨history, final, run, checked⟩ := ran
  simp only [Bool.and_eq_true, beq_iff_eq, Option.any_eq_true] at checked
  obtain ⟨profile, config, remembered, echoes⟩ := checked
  refine ⟨_, history, final, config, run, remembered, echoes, profile, ?_⟩
  exact customEchoes_of_run run (by decide)

end RmDisplay.Receiver
