import RmDisplay.Core.OperationSteps
import RmDisplay.Foundation.Emission

/-!
# Which operations change the refresh settings

A core keeps its refresh configuration and the tile of its damage until it is
given another configuration, whatever the panel says.
-/

namespace RmDisplay.Core

open Foundation Protocol

namespace DisplayCore

/-- The configuration of a core, and the tile that was taken from it. -/
def settings (self : DisplayCore) : RefreshPolicyConfig × Nat :=
  (self.refreshPolicy.config, self.damageTile)

/-- The settings are kept, and nothing is handed out. -/
def keepsSettings {β : Type} : Emission World β :=
  .ofRelation (fun before after => after.core.settings = before.core.settings)
    (fun _ => rfl) (fun earlier later => later.trans earlier)

section

variable {β : Type} {timing : Timing} {intent : FrameIntent}

theorem pump_keeps : keepsSettings.Emits pump fun _ => ([] : List β) :=
  .of_from fun _ => .get (.set rfl (.pure rfl))

theorem submit_keeps {origin : Origin} {pixels : PixelSurface}
    {damage : List Rect} {decision : RefreshDecision} :
    keepsSettings.Emits (submit origin pixels damage decision)
      fun _ => ([] : List β) :=
  .of_from fun _ => .get (.set rfl (.pure rfl))

theorem settings_presentAccepted {core next : DisplayCore}
    {pending : PendingPresentation} {prepared : Prepared} {submissions : Nat}
    {now : Duration}
    (presents : core.presentAccepted pending prepared submissions now =
      .ok next) : next.settings = core.settings := by
  obtain ⟨_, _, _, _, _, rfl⟩ := presentAccepted_eq_ok presents
  simp [settings, RefreshPolicy.presentedSubmissions]

theorem settings_planeAccepted {core next : DisplayCore} {damage : List Rect}
    {decision : RefreshDecision} {submissions : Nat} {now : Duration}
    (presents : core.planeAccepted damage decision submissions now =
      .ok next) : next.settings = core.settings := by
  obtain ⟨_, _, _, _, _, rfl⟩ := planeAccepted_eq_ok presents
  simp [settings, RefreshPolicy.presentedSubmissions]

theorem settings_cleanupAccepted (core : DisplayCore) (now : Duration) :
    (core.cleanupAccepted now).settings = core.settings := by
  rw [cleanupAccepted_eq]
  rfl

theorem settings_planeTaken (core : DisplayCore) (intent : FrameIntent) :
    (core.takePlaneRegions intent).2.settings = core.settings := by
  obtain ⟨ink, taken⟩ := planeTaken_frame core intent
  have same : (core.takePlaneRegions intent).2 = { core with ink } := taken
  rw [same]
  rfl

theorem presentFrame_keeps {pending : PendingPresentation}
    {prepared : Prepared} :
    keepsSettings.Emits (presentFrame timing pending prepared)
      fun _ => ([] : List β) := by
  refine .of_from fun world => .get (.ite (fun _ => ?_) fun _ => ?_)
  · exact .modify rfl (.pure rfl)
  · refine .quiet submit_keeps fun metrics between => .reached fun kept => ?_
    cases metrics with
    | none => exact .modify (Eq.symm kept) (.pure rfl)
    | some metrics =>
        refine .ofRes fun after presents => .modify ?_ (.pure rfl)
        exact (settings_presentAccepted presents).trans (Eq.symm kept)

theorem tickInner_keeps {ignoreDeadline : Bool} :
    keepsSettings.Emits (tickInner timing ignoreDeadline)
      fun _ => ([] : List β) := by
  refine .of_from fun world => .get ?_
  cases world.core.pending with
  | none => exact .pure rfl
  | some pending =>
      refine .ite (fun _ => .pure rfl) fun _ => ?_
      refine .quiet pump_keeps fun pumped between => .reached fun kept => ?_
      refine .ite (fun _ => ?_) fun _ => ?_
      · exact .modify (Eq.symm kept) (.pure rfl)
      · refine .modify (Eq.symm kept) (.ofRes fun prepared _ => ?_)
        exact .all presentFrame_keeps

theorem submitPlane_keeps {damage : List Rect} :
    keepsSettings.Emits (submitPlane timing intent damage)
      fun _ => ([] : List β) := by
  refine .of_from fun world => .get ?_
  refine .quiet submit_keeps fun metrics between => .reached fun kept => ?_
  cases metrics with
  | none => exact .throw
  | some metrics =>
      refine .ofRes fun after presents => .finish ?_ rfl
      exact (settings_planeAccepted presents).trans (Eq.symm kept)

theorem drawPlane_keeps :
    keepsSettings.Emits (drawPlane timing intent)
      fun _ => ([] : List β) := by
  refine .of_from fun world => .get ?_
  refine .modify (settings_planeTaken world.core intent) ?_
  refine .ite (fun _ => .pure rfl) fun _ => ?_
  refine .ofRes fun working _ => .modify rfl (.ofRes fun damage _ => ?_)
  exact .ite (fun _ => .pure rfl) fun _ => .all submitPlane_keeps

theorem presentPlane_keeps :
    keepsSettings.Emits (presentPlane timing intent)
      fun _ => ([] : List β) := by
  refine .of_from fun world => .get (.ite (fun _ => ?_) fun _ => ?_)
  · exact .quiet tickInner_keeps fun _ _ =>
      .quiet drawPlane_keeps fun _ _ => .pure rfl
  · exact .after (.quiet drawPlane_keeps fun _ _ => .pure rfl)

theorem cleanupFailed_keeps :
    keepsSettings.Emits cleanupFailed fun _ => ([] : List β) :=
  .of_from fun _ => .get (.modify rfl (.pure rfl))

theorem resubmitPresented_keeps :
    keepsSettings.Emits (resubmitPresented timing)
      fun _ => ([] : List β) := by
  refine .of_from fun world => .quiet pump_keeps fun pumped between => ?_
  refine .ite (fun _ => .all cleanupFailed_keeps) fun _ => ?_
  · refine .reached fun keptFirst => .get (.quiet submit_keeps ?_)
    refine fun metrics submitted => .reached fun kept => ?_
    cases metrics with
    | none => exact .all cleanupFailed_keeps
    | some metrics =>
        refine .modify ?_ (.pure rfl)
        calc (between.core.cleanupAccepted timing.now).settings
          _ = between.core.settings := settings_cleanupAccepted _ _
          _ = world.core.settings := keptFirst
          _ = submitted.core.settings := Eq.symm kept

theorem requestCleanup_keeps :
    keepsSettings.Emits (requestCleanup timing) fun _ => ([] : List β) := by
  refine .of_from fun world => .get (.modify rfl ?_)
  refine .ite (fun _ => ?_) fun _ => ?_
  · exact .quiet tickInner_keeps fun terminals between => .get (.pure rfl)
  · exact .ite (fun _ => .pure rfl) fun _ => .all resubmitPresented_keeps

theorem tickInteractive_keeps {idle : Bool} :
    keepsSettings.Emits (tickInteractive timing idle)
      fun _ => ([] : List β) := by
  refine .of_from fun world => .get (.ite (fun _ => ?_) fun _ => ?_)
  · exact .quiet requestCleanup_keeps fun report between =>
      .get (.modify rfl (.pure rfl))
  · exact .all tickInner_keeps

end

theorem settings_newWithFormat {width height maxFpsX100 : Nat}
    {pixelFormat : PixelFormat} {settledDeadline : Duration}
    {config : RefreshPolicyConfig} {core : DisplayCore}
    (isNew : newWithFormat width height pixelFormat maxFpsX100 settledDeadline
      config = .ok core) : core.settings = (config, config.damageTile) := by
  obtain ⟨policy, created, isNew⟩ := Res.bind_eq_ok.mp isNew
  obtain ⟨surface, _, isNew⟩ := Res.bind_eq_ok.mp isNew
  obtain ⟨plane, _, isNew⟩ := Res.bind_eq_ok.mp isNew
  obtain ⟨_, _, isPolicy⟩ := Res.bind_eq_ok.mp (Res.mapError_eq_ok.mp created)
  cases isNew
  cases isPolicy
  rfl

theorem settings_restoreRefreshDebt {core next : DisplayCore}
    {debt : RefreshDebt} (restores : core.restoreRefreshDebt debt = .ok next) :
    next.settings = core.settings := by
  obtain ⟨policy, restored, isNext⟩ := Res.bind_eq_ok.mp restores
  obtain ⟨_, _, isPolicy⟩ := Res.bind_eq_ok.mp (Res.mapError_eq_ok.mp restored)
  cases isNext
  cases isPolicy
  rfl

theorem updateRefreshConfig_eq_ok {core next : DisplayCore}
    {config : RefreshPolicyConfig} {changed : Bool}
    (updates : core.updateRefreshConfig config = .ok (changed, next)) :
    changed = (config != core.refreshPolicy.config) ∧
      next.settings = (config, config.damageTile) := by
  obtain ⟨policy, configured, stored⟩ := Res.bind_eq_ok.mp updates
  obtain ⟨_, _, isPolicy⟩ :=
    Res.bind_eq_ok.mp (Res.mapError_eq_ok.mp configured)
  cases isPolicy
  cases stored
  exact ⟨rfl, rfl⟩

/-- A valid configuration is taken over. -/
theorem updateRefreshConfig_of_valid (core : DisplayCore)
    {config : RefreshPolicyConfig} (valid : config.validate = .ok ()) :
    ∃ changed next, core.updateRefreshConfig config = .ok (changed, next) := by
  unfold updateRefreshConfig RefreshPolicy.reconfigure
  rw [valid]
  exact ⟨_, _, rfl⟩

/-- After a change of the profile the core has the new configuration, also if
the panel refused the cleanup. -/
theorem changeRefreshProfile_sets {config : RefreshPolicyConfig}
    {timing : Timing} {world after : World}
    {output : Except CoreError RefreshProfileChange}
    (valid : config.validate = .ok ())
    (runs : (changeRefreshProfile config timing).Runs world output after) :
    after.core.settings = (config, config.damageTile) := by
  obtain ⟨changed, configured, updates⟩ :=
    updateRefreshConfig_of_valid world.core valid
  have settings := (updateRefreshConfig_eq_ok updates).2
  have rest : keepsSettings.From ⟨configured, world.panel⟩
      ⟨configured, world.panel⟩ []
      (do
        let cleanup ←
          if changed || configured.forceCleanupNext then requestCleanup timing
          else
            pure { cleanupPerformed := false
                   cleanupPending := false
                   backendFailed := false
                   terminals := [] }
        return ({ config
                  changed
                  cleanupPerformed := cleanup.cleanupPerformed
                  cleanupPending := cleanup.cleanupPending
                  backendFailed := cleanup.backendFailed
                  terminals := cleanup.terminals } : RefreshProfileChange))
      fun _ => ([] : List Unit) := by
    refine .ite (fun _ => ?_) fun _ => .after (.pure rfl)
    exact .quiet requestCleanup_keeps fun _ _ => .pure rfl
  refine (rest rfl output after ?_).trans settings
  unfold changeRefreshProfile at runs
  rcases Proc.runs_ofRes_bind.mp (Proc.runs_get_bind.mp runs) with
    ⟨value, computed, runs⟩ | ⟨err, failed, _⟩
  · rw [updates] at computed
    cases computed
    exact runs
  · rw [updates] at failed
    cases failed

/-- A change of the profile says whether the configuration is another one. -/
theorem changeRefreshProfile_changed {config : RefreshPolicyConfig}
    {timing : Timing} {world after : World} {change : RefreshProfileChange}
    (runs : (changeRefreshProfile config timing).Runs world (.ok change)
      after) :
    change.changed = (config != world.core.refreshPolicy.config) := by
  have reports {cleanup : CoreProc CleanupReport} {changed : Bool}
      {between : World}
      (ran : (do
        let cleanup ← cleanup
        return ({ config
                  changed
                  cleanupPerformed := cleanup.cleanupPerformed
                  cleanupPending := cleanup.cleanupPending
                  backendFailed := cleanup.backendFailed
                  terminals := cleanup.terminals } : RefreshProfileChange)
        ).Runs between (.ok change) after) : change.changed = changed := by
    rcases Proc.runs_bind.mp ran with ⟨report, last, _, returned⟩ |
      ⟨err, failed, _⟩
    · obtain ⟨same, _⟩ := Proc.runs_pure.mp returned
      cases same
      rfl
    · cases failed
  unfold changeRefreshProfile at runs
  rcases Proc.runs_ofRes_bind.mp (Proc.runs_get_bind.mp runs) with
    ⟨⟨changed, configured⟩, updates, runs⟩ | ⟨err, _, failed, _⟩
  · rw [← (updateRefreshConfig_eq_ok updates).1]
    have ran := Proc.runs_modify_bind.mp runs
    dsimp only at ran
    split at ran
    · exact reports ran
    · exact reports ran
  · cases failed

end DisplayCore

end RmDisplay.Core
