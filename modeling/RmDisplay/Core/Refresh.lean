import RmDisplay.Core.Damage

/-!
# Refresh policy

The policy chooses a waveform for a presentation and decides when the whole
panel is refreshed.
-/

namespace RmDisplay.Core

open Foundation Protocol

inductive Waveform where
  | fastest | fast | quality | fullQuality
deriving DecidableEq, Repr

/-- The number the metrics report. -/
def Waveform.number : Waveform → Nat
  | .fastest => 0
  | .fast => 1
  | .quality => 3
  | .fullQuality => 4

inductive RefreshProfile where
  | realtime | animate | balanced | reading | quality | custom
deriving DecidableEq, Repr

structure RefreshDecision where
  waveform : Waveform
  completeRefresh : Bool
  fullRefreshReason : FullRefreshReason
deriving DecidableEq, Repr

inductive RefreshConfigError where
  | zeroDamageTile
  | invalidAreaThreshold
  | configuredFullQuality
  | debtWithoutPresentation
deriving DecidableEq, Repr

structure RefreshDebt where
  hasPresented : Bool := false
  physicalPartialUpdatesSinceCleanup : Nat := 0
deriving DecidableEq, Repr

def RefreshDebt.validate (self : RefreshDebt) : Res RefreshConfigError Unit :=
  if !self.hasPresented && self.physicalPartialUpdatesSinceCleanup != 0 then
    .error .debtWithoutPresentation
  else .ok ()

structure RefreshPolicyConfig where
  profile : RefreshProfile
  latestTextWaveform : Waveform
  latestPhotoWaveform : Waveform
  latestVideoWaveform : Waveform
  settledWaveform : Waveform
  partialRefreshEnabled : Bool
  cleanupAfterUpdates : Nat
  cleanFirstFrame : Bool
  /-- Percentage of the panel covered by one update that triggers a complete
  refresh.  Zero disables the area trigger. -/
  largeUpdateThresholdPercent : Nat
  /-- Complete once at the next SETTLED barrier after this many fast
  submissions.  Zero disables static cleanup. -/
  staticCleanupAfterFastUpdates : Nat
  damageTile : Nat
deriving DecidableEq, Repr

namespace RefreshPolicyConfig

/-- What the five named presets have in common. -/
private def preset (profile : RefreshProfile) (text video : Waveform)
    (photo : Waveform := .quality) (cleanFirstFrame : Bool := true) :
    RefreshPolicyConfig where
  profile := profile
  latestTextWaveform := text
  latestPhotoWaveform := photo
  latestVideoWaveform := video
  settledWaveform := .quality
  partialRefreshEnabled := true
  cleanupAfterUpdates := 0
  cleanFirstFrame := cleanFirstFrame
  largeUpdateThresholdPercent := 0
  staticCleanupAfterFastUpdates := 0
  damageTile := 64

def forProfile : RefreshProfile → RefreshPolicyConfig
  | .realtime => preset .realtime .fastest .fastest .quality false
  | .animate => preset .animate .fastest .fastest
  | .balanced => preset .balanced .fast .fastest
  | .reading => preset .reading .quality .fast
  | .quality => preset .quality .quality .quality
  | .custom =>
      { preset .custom .fast .fastest with
        cleanupAfterUpdates := 90
        staticCleanupAfterFastUpdates := 6 }

def validate (self : RefreshPolicyConfig) : Res RefreshConfigError Unit :=
  if self.damageTile = 0 then .error .zeroDamageTile
  else if 100 < self.largeUpdateThresholdPercent then
    .error .invalidAreaThreshold
  else if self.latestTextWaveform = .fullQuality ∨
      self.latestPhotoWaveform = .fullQuality ∨
      self.latestVideoWaveform = .fullQuality ∨
      self.settledWaveform = .fullQuality then
    .error .configuredFullQuality
  else .ok ()

/-- Select another named preset and keep every value that no longer matches
the old one. -/
def switchedTo (self : RefreshPolicyConfig) (profile : RefreshProfile) :
    RefreshPolicyConfig :=
  let old := forProfile self.profile
  let next := forProfile profile
  { next with
    cleanupAfterUpdates :=
      if self.cleanupAfterUpdates ≠ old.cleanupAfterUpdates then
        self.cleanupAfterUpdates
      else next.cleanupAfterUpdates
    largeUpdateThresholdPercent :=
      if self.largeUpdateThresholdPercent ≠
          old.largeUpdateThresholdPercent then
        self.largeUpdateThresholdPercent
      else next.largeUpdateThresholdPercent
    staticCleanupAfterFastUpdates :=
      if self.staticCleanupAfterFastUpdates ≠
          old.staticCleanupAfterFastUpdates then
        self.staticCleanupAfterFastUpdates
      else next.staticCleanupAfterFastUpdates
    partialRefreshEnabled := self.partialRefreshEnabled
    cleanFirstFrame := self.cleanFirstFrame
    damageTile := self.damageTile }

theorem validate_eq_ok {config : RefreshPolicyConfig}
    (valid : config.validate = .ok ()) : 0 < config.damageTile := by
  unfold validate at valid
  split at valid
  · cases valid
  · omega

theorem validate_iff {config : RefreshPolicyConfig} :
    config.validate = .ok () ↔
      config.damageTile ≠ 0 ∧ config.largeUpdateThresholdPercent ≤ 100 ∧
        ¬ (config.latestTextWaveform = .fullQuality ∨
          config.latestPhotoWaveform = .fullQuality ∨
          config.latestVideoWaveform = .fullQuality ∨
          config.settledWaveform = .fullQuality) := by
  unfold validate
  split
  · rename_i noTile
    simp [noTile]
  · rename_i tile
    split
    · rename_i percent
      simp only [reduceCtorEq, false_iff, not_and]
      omega
    · rename_i percent
      split
      · rename_i full
        simp [full]
      · rename_i named
        exact ⟨fun _ => ⟨tile, Nat.not_lt.mp percent, named⟩, fun _ => rfl⟩

theorem validate_forProfile (profile : RefreshProfile) :
    (forProfile profile).validate = .ok () := by
  cases profile <;> rfl

theorem validate_switchedTo {config : RefreshPolicyConfig}
    (valid : config.validate = .ok ()) (profile : RefreshProfile) :
    (config.switchedTo profile).validate = .ok () := by
  have tile := validate_eq_ok valid
  have percent : config.largeUpdateThresholdPercent ≤ 100 := by
    unfold validate at valid
    split at valid
    · cases valid
    · split at valid
      · cases valid
      · omega
  have kept : (config.switchedTo profile).largeUpdateThresholdPercent ≤ 100 := by
    simp only [switchedTo]
    split
    · exact percent
    · cases profile <;> exact Nat.zero_le _
  unfold validate
  rw [if_neg (by simp only [switchedTo]; omega), if_neg (by omega), if_neg]
  cases profile <;> simp [switchedTo, forProfile, preset]

end RefreshPolicyConfig

structure RefreshPolicy where
  config : RefreshPolicyConfig
  presentedSinceCleanup : Nat
  hasPresented : Bool
deriving DecidableEq, Repr

namespace RefreshPolicy

def new (config : RefreshPolicyConfig) : Res RefreshConfigError RefreshPolicy := do
  config.validate
  return { config, presentedSinceCleanup := 0, hasPresented := false }

/-- Why the whole panel is refreshed, if it is. -/
def refreshReason (self : RefreshPolicy) (intent : FrameIntent)
    (damagePixels panelPixels : Nat) (forceCleanup : Bool) :
    FullRefreshReason :=
  let percent := self.config.largeUpdateThresholdPercent
  if !self.config.partialRefreshEnabled then .partialDisabled
  else if forceCleanup then .forced
  else if !self.hasPresented && self.config.cleanFirstFrame then .firstFrame
  else if 0 < self.config.cleanupAfterUpdates ∧
      self.config.cleanupAfterUpdates ≤ self.presentedSinceCleanup then
    .periodic
  else if intent = .settled ∧ 0 < percent ∧
      Bounded.saturatingMul u64Max panelPixels percent ≤
        Bounded.saturatingMul u64Max damagePixels 100 then
    .largeDamage
  else .none

def decide (self : RefreshPolicy) (intent : FrameIntent)
    (contentClass : ContentClass) (damagePixels panelPixels : Nat)
    (forceCleanup : Bool) : RefreshDecision :=
  let reason := self.refreshReason intent damagePixels panelPixels forceCleanup
  if reason ≠ .none then
    { waveform :=
        match self.config.profile with
        | .quality => .fullQuality
        | .realtime | .animate | .balanced | .reading | .custom => .quality
      completeRefresh := true
      fullRefreshReason := reason }
  else
    { waveform :=
        if intent = .settled then self.config.settledWaveform
        else
          match contentClass with
          | .photo => self.config.latestPhotoWaveform
          | .video => self.config.latestVideoWaveform
          | .textUi | .mixed | .unspecified => self.config.latestTextWaveform
      completeRefresh := false
      fullRefreshReason := .none }

/-- Record successful physical submissions. -/
def presentedSubmissions (self : RefreshPolicy) (decision : RefreshDecision)
    (physicalSubmissions : Nat) : RefreshPolicy :=
  { self with
    hasPresented := true
    presentedSinceCleanup :=
      if decision.completeRefresh then 0
      else
        Bounded.saturatingAdd u32Max self.presentedSinceCleanup
          physicalSubmissions }

def presented (self : RefreshPolicy) (decision : RefreshDecision) :
    RefreshPolicy :=
  self.presentedSubmissions decision 1

def debt (self : RefreshPolicy) : RefreshDebt :=
  ⟨self.hasPresented, self.presentedSinceCleanup⟩

def restoreDebt (self : RefreshPolicy) (debt : RefreshDebt) :
    Res RefreshConfigError RefreshPolicy := do
  debt.validate
  return { self with
    hasPresented := debt.hasPresented
    presentedSinceCleanup := debt.physicalPartialUpdatesSinceCleanup }

def reconfigure (self : RefreshPolicy) (config : RefreshPolicyConfig) :
    Res RefreshConfigError RefreshPolicy := do
  config.validate
  return { self with config := config }

def damageForDecision (decision : RefreshDecision) (width height : Nat)
    (damage : List Rect) : List Rect :=
  if decision.completeRefresh then fullDamage width height else damage

/-- A forced cleanup is a complete refresh whatever the configuration. -/
theorem decide_forced (self : RefreshPolicy) (intent : FrameIntent)
    (contentClass : ContentClass) (damagePixels panelPixels : Nat) :
    (self.decide intent contentClass damagePixels panelPixels true
      ).completeRefresh = true := by
  have reason : self.refreshReason intent damagePixels panelPixels true ≠
      .none := by
    unfold refreshReason
    split <;> simp
  unfold RefreshPolicy.decide
  rw [if_pos reason]

end RefreshPolicy

end RmDisplay.Core
