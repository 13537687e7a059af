import RmDisplay.Receiver.Control

/-!
# The grammar of custom profiles

A custom configuration is checked by one function, validated by another and
written back by a third.  What is accepted is exactly what the first one lets
through, and writing it back gives the message that was read.
-/

namespace RmDisplay.Receiver

open Foundation Protocol RmDisplay.Core

namespace Session

theorem wire_of_tryFrom {E : Type} [WireEnum E] {number : Int} {value : E}
    (found : tryFrom E number = some value) : wire value = number := by
  have holds := @List.find?_some _ (fun value => wire value == number) _ _ found
  exact eq_of_beq holds

/-- A waveform a producer may ask for. -/
def NamedWaveform (number : Int) : Prop :=
  number = wire EpaperWaveform.fastest ∨ number = wire EpaperWaveform.fast ∨
    number = wire EpaperWaveform.quality

/-- What the protocol says of a complete custom configuration. -/
structure CompleteCustom (custom : EpaperProfileConfiguration) : Prop where
  text : NamedWaveform custom.latestTextWaveform
  photo : NamedWaveform custom.latestPhotoWaveform
  video : NamedWaveform custom.latestVideoWaveform
  settled : NamedWaveform custom.settledWaveform
  tile : 8 ≤ custom.damageTile ∧ custom.damageTile ≤ 512 ∧
    ∃ exponent, custom.damageTile = 2 ^ exponent
  threshold : custom.largeUpdateThresholdPercent ≤ 100

variable {custom : EpaperProfileConfiguration} {config : RefreshPolicyConfig}
  {number : Int} {waveform : Waveform}

/-- A waveform is read exactly if it is named, it is no full-quality waveform,
and it is written back as it was read. -/
theorem customWaveform_spec (read : customWaveform number = .ok waveform) :
    waveform ≠ .fullQuality ∧ wire (protocolWaveform waveform) = number := by
  unfold customWaveform at read
  split at read
  all_goals cases read
  all_goals
    rename_i found
    exact ⟨by decide, wire_of_tryFrom found⟩

theorem customWaveform_iff :
    (∃ waveform, customWaveform number = .ok waveform) ↔
      NamedWaveform number := by
  constructor
  · rintro ⟨waveform, read⟩
    obtain ⟨notFull, same⟩ := customWaveform_spec read
    rw [← same]
    cases waveform with
    | fastest => exact .inl rfl
    | fast => exact .inr (.inl rfl)
    | quality => exact .inr (.inr rfl)
    | fullQuality => exact absurd rfl notFull
  · rintro (rfl | rfl | rfl)
    · exact ⟨.fastest, rfl⟩
    · exact ⟨.fast, rfl⟩
    · exact ⟨.quality, rfl⟩

theorem powerOfTwo_iff {value : Nat} :
    2 ^ value.log2 = value ↔ ∃ exponent, value = 2 ^ exponent := by
  constructor
  · intro same
    exact ⟨value.log2, same.symm⟩
  · rintro ⟨exponent, rfl⟩
    rw [Nat.log2_two_pow]

private theorem except_bind_eq_ok {ε α β : Type} {result : Except ε α}
    {next : α → Except ε β} {value : β} :
    (result >>= next) = .ok value ↔
      ∃ middle, result = .ok middle ∧ next middle = .ok value := by
  cases result <;> simp [bind, Except.bind]

/-- The configuration with the fields of a message and given waveforms. -/
def customConfig (custom : EpaperProfileConfiguration)
    (text photo video settled : Waveform) : RefreshPolicyConfig where
  profile := .custom
  latestTextWaveform := text
  latestPhotoWaveform := photo
  latestVideoWaveform := video
  settledWaveform := settled
  partialRefreshEnabled := custom.partialRefreshEnabled
  cleanupAfterUpdates := custom.cleanupAfterUpdates
  cleanFirstFrame := custom.cleanFirstFrame
  largeUpdateThresholdPercent := custom.largeUpdateThresholdPercent
  staticCleanupAfterFastUpdates := custom.staticCleanupAfterFastUpdates
  damageTile := custom.damageTile

theorem customProfileConfig_eq_ok
    (accepts : customProfileConfig custom = .ok config) :
    ((8 ≤ custom.damageTile ∧ custom.damageTile ≤ 512) ∧
        2 ^ custom.damageTile.log2 = custom.damageTile) ∧
      custom.largeUpdateThresholdPercent ≤ 100 ∧
      config.validate = .ok () ∧
      ∃ text photo video settled,
        customWaveform custom.latestTextWaveform = .ok text ∧
        customWaveform custom.latestPhotoWaveform = .ok photo ∧
        customWaveform custom.latestVideoWaveform = .ok video ∧
        customWaveform custom.settledWaveform = .ok settled ∧
        config = customConfig custom text photo video settled := by
  unfold customProfileConfig at accepts
  split at accepts
  · cases accepts
  · rename_i tile
    split at accepts
    · cases accepts
    · rename_i threshold
      obtain ⟨text, isText, accepts⟩ := except_bind_eq_ok.mp accepts
      obtain ⟨photo, isPhoto, accepts⟩ := except_bind_eq_ok.mp accepts
      obtain ⟨video, isVideo, accepts⟩ := except_bind_eq_ok.mp accepts
      obtain ⟨settled, isSettled, accepts⟩ := except_bind_eq_ok.mp accepts
      dsimp only at accepts
      split at accepts
      · rename_i valid
        cases accepts
        refine ⟨by tauto, by omega, valid, text, photo, video, settled, isText,
          isPhoto, isVideo, isSettled, rfl⟩
      all_goals cases accepts

theorem validate_customConfig {text photo video settled : Waveform}
    (tile : custom.damageTile ≠ 0)
    (threshold : custom.largeUpdateThresholdPercent ≤ 100)
    (named : text ≠ .fullQuality ∧ photo ≠ .fullQuality ∧
      video ≠ .fullQuality ∧ settled ≠ .fullQuality) :
    (customConfig custom text photo video settled).validate = .ok () := by
  refine RefreshPolicyConfig.validate_iff.mpr ⟨tile, threshold, ?_⟩
  simpa [customConfig] using named

theorem customProfileConfig_of_complete (complete : CompleteCustom custom) :
    ∃ config, customProfileConfig custom = .ok config := by
  obtain ⟨text, isText⟩ := customWaveform_iff.mpr complete.text
  obtain ⟨photo, isPhoto⟩ := customWaveform_iff.mpr complete.photo
  obtain ⟨video, isVideo⟩ := customWaveform_iff.mpr complete.video
  obtain ⟨settled, isSettled⟩ := customWaveform_iff.mpr complete.settled
  obtain ⟨low, high, power⟩ := complete.tile
  have named := And.intro (customWaveform_spec isText).1
    (And.intro (customWaveform_spec isPhoto).1
      (And.intro (customWaveform_spec isVideo).1
        (customWaveform_spec isSettled).1))
  have valid := validate_customConfig (by omega) complete.threshold named
  have isPower := powerOfTwo_iff.mpr power
  refine ⟨customConfig custom text photo video settled, ?_⟩
  unfold customProfileConfig
  rw [if_neg (by tauto), if_neg (Nat.not_lt.mpr complete.threshold)]
  simp only [isText, isPhoto, isVideo, isSettled, bind, Except.bind]
  unfold customConfig at valid ⊢
  simp only [valid]
  rfl

theorem customProfileConfig_iff :
    (∃ config, customProfileConfig custom = .ok config) ↔
      CompleteCustom custom := by
  constructor
  · rintro ⟨config, accepts⟩
    obtain ⟨⟨range, power⟩, threshold, _, text, photo, video, settled, isText,
      isPhoto, isVideo, isSettled, _⟩ := customProfileConfig_eq_ok accepts
    exact ⟨customWaveform_iff.mp ⟨text, isText⟩,
      customWaveform_iff.mp ⟨photo, isPhoto⟩,
      customWaveform_iff.mp ⟨video, isVideo⟩,
      customWaveform_iff.mp ⟨settled, isSettled⟩,
      ⟨range.1, range.2, powerOfTwo_iff.mp power⟩, threshold⟩
  · exact customProfileConfig_of_complete

/-- What was accepted is a valid custom profile, and is written back as the
message it was read from. -/
theorem customProfileConfig_spec
    (accepts : customProfileConfig custom = .ok config) :
    config.validate = .ok () ∧ config.profile = .custom ∧
      profileConfiguration config = custom := by
  obtain ⟨_, _, valid, text, photo, video, settled, isText, isPhoto, isVideo,
    isSettled, rfl⟩ := customProfileConfig_eq_ok accepts
  refine ⟨valid, rfl, ?_⟩
  unfold profileConfiguration customConfig
  simp only [(customWaveform_spec isText).2, (customWaveform_spec isPhoto).2,
    (customWaveform_spec isVideo).2, (customWaveform_spec isSettled).2]

end Session

end RmDisplay.Receiver
