import RmDisplay.Producer.Client
import RmDisplay.Receiver.Handle

/-!
# The two ends of a handshake

The producer checks the answer to its hello with rules of its own.  The
receiver selects a minor version from the offered features, enables features
one by one, and answers with those it enabled.
-/

namespace RmDisplay.Producer

open Foundation Protocol RmDisplay.Core Receiver

def maxMinor : Nat := 3

/-- Is a feature in an answer? -/
def echoes (server : ServerHello) (feature : ProtocolFeature) : Bool :=
  server.features.contains (wire feature)

def validateServerHello (server : ServerHello) : Res ProducerError Unit :=
  if maxMinor < server.selectedMinor then
    .error (.badHello "unsupported minor version")
  else if server.serverId.length ≠ 16 then
    .error (.badHello "server id must be 16 bytes")
  else
    match server.display with
    | none => .error (.badHello "display info missing")
    | some display =>
        if display.width = 0 ∨ display.height = 0 ∨
            !display.pixelFormats.contains (wire PixelFormat.gray8) ∨
            !display.encodings.contains (wire Encoding.raw) then
          .error (.badHello "mandatory Gray8/Raw or geometry missing")
        else
          match server.limits with
          | none => .error (.badHello "limits missing")
          | some limits =>
              if limits.maxPayload = 0 ∨ limits.maxFrameBytes = 0 ∨
                  limits.maxRegions = 0 ∨ limits.maxInflight = 0 ∨
                  1 ≤ server.selectedMinor ∧ limits.maxInflightBytes = 0 then
                .error (.badHello "invalid zero limit")
              else if 1 ≤ server.selectedMinor ∧
                  !echoes server .byteCredits then
                .error (.badHello "v2.1 byte credits missing")
              else if 2 ≤ server.selectedMinor ∧
                  !echoes server .epaperCustomProfile then
                .error (.badHello "v2.2 custom profile capability missing")
              else if 3 ≤ server.selectedMinor ∧
                  !echoes server .remoteOverlay then
                .error (.badHello "v2.3 remote overlay missing")
              else if !mandatoryFeatures.all (echoes server) then
                .error (.badHello "mandatory feature missing")
              else .ok ()

/-- What the two ends of a handshake agree on. -/
structure Agrees (hello : ClientHello) (server : ServerHello) : Prop where
  version : hello.minMinor ≤ server.selectedMinor ∧
    server.selectedMinor ≤ hello.maxMinor
  offered : ∀ feature ∈ server.features,
    feature ∉ mandatoryFeatures.map wire → feature ∈ hello.features
  credits : 1 ≤ server.selectedMinor → echoes server .byteCredits = true
  profiles : 2 ≤ server.selectedMinor →
    echoes server .epaperCustomProfile = true
  overlays : 3 ≤ server.selectedMinor → echoes server .remoteOverlay = true
  accepted : validateServerHello server = .ok ()

/-- A hello that offers what minor version 2 or 3 takes. -/
def OffersCustom (hello : ClientHello) : Prop :=
  offers hello .byteCredits = true ∧ offers hello .epaperCustomProfile = true ∧
    (hello.minMinor ≤ 2 ∧ 2 ≤ hello.maxMinor ∨
      hello.minMinor ≤ 3 ∧ 3 ≤ hello.maxMinor ∧
        offers hello .remoteOverlay = true)

instance (hello : ClientHello) : Decidable (OffersCustom hello) :=
  inferInstanceAs (Decidable (_ ∧ _))

/-- What a selected version takes. -/
structure Selected (hello : ClientHello) (minor : Nat) : Prop where
  atLeast : hello.minMinor ≤ minor
  atMost : minor ≤ hello.maxMinor
  known : minor ≤ 3
  credits : 1 ≤ minor → offers hello .byteCredits = true
  custom : 2 ≤ minor ↔ OffersCustom hello
  overlays : 3 ≤ minor → offers hello .remoteOverlay = true

theorem selected_of_selectMinor {hello : ClientHello} {minor : Nat}
    (returned : selectMinor hello = .ok minor) : Selected hello minor := by
  unfold selectMinor at returned
  simp only [List.all_cons, List.all_nil, Bool.and_true,
    Bool.and_eq_true] at returned
  split at returned
  · rename_i third
    obtain ⟨atMost, atLeast, credits, custom, overlay⟩ := third
    cases returned
    exact ⟨atLeast, atMost, Nat.le_refl _, fun _ => credits,
      ⟨fun _ => ⟨credits, custom, .inr ⟨atLeast, atMost, overlay⟩⟩,
        fun _ => by omega⟩, fun _ => overlay⟩
  · rename_i noThird
    split at returned
    · rename_i second
      obtain ⟨atMost, atLeast, credits, custom⟩ := second
      cases returned
      exact ⟨atLeast, atMost, by omega, fun _ => credits,
        ⟨fun _ => ⟨credits, custom, .inl ⟨atLeast, atMost⟩⟩,
          fun _ => Nat.le_refl _⟩, nofun⟩
    · rename_i noSecond
      have plain : ¬ OffersCustom hello := by
        rintro ⟨credits, custom, ⟨atLeast, atMost⟩ |
          ⟨atLeast, atMost, overlay⟩⟩
        · exact noSecond ⟨atMost, atLeast, credits, custom⟩
        · exact noThird ⟨atMost, atLeast, credits, custom, overlay⟩
      split at returned
      · rename_i first
        obtain ⟨atMost, atLeast, credits⟩ := first
        cases returned
        exact ⟨atLeast, atMost, by omega, fun _ => credits,
          ⟨nofun, fun custom => absurd custom plain⟩, nofun⟩
      · split at returned
        · rename_i zero
          cases returned
          exact ⟨by omega, by omega, by omega, nofun,
            ⟨nofun, fun custom => absurd custom plain⟩, nofun⟩
        · cases returned

theorem wire_injective {first second : ProtocolFeature}
    (same : wire first = wire second) : first = second := by
  cases first <;> cases second <;> first | rfl | cases same

theorem echoes_iff {session : Session} {feature : ProtocolFeature} :
    echoes session.serverHello feature = true ↔
      feature ∈ session.echoedFeatures := by
  rw [echoes, List.contains_iff_mem]
  constructor
  · intro echoed
    obtain ⟨other, member, same⟩ := List.mem_map.mp echoed
    rwa [← wire_injective same]
  · exact fun member => List.mem_map_of_mem member

theorem mem_echoedFeatures {session : Session} {feature : ProtocolFeature} :
    feature ∈ session.echoedFeatures ↔
      feature ∈ mandatoryFeatures ∨
        feature = .remoteOverlay ∧ session.remoteOverlayEnabled = true ∨
        feature = .localInk ∧ session.localInkControlEnabled = true ∨
        feature = .pointerInput ∧ session.pointerInputEnabled = true ∨
        feature = .epaperProfileControl ∧ session.profileControlEnabled = true ∨
        feature = .epaperCustomProfile ∧
          session.customProfileControlEnabled = true ∨
        feature = .epaperRefreshControl ∧ session.refreshControlEnabled = true ∨
        feature = .byteCredits ∧ session.byteCreditsEnabled = true ∨
        feature = .colorRgb565 ∧ session.colorRgb565Enabled = true := by
  have single (enabled : Bool) (only : ProtocolFeature) :
      feature ∈ (if enabled then [only] else []) ↔
        feature = only ∧ enabled = true := by
    cases enabled <;> simp
  simp only [Session.echoedFeatures, List.mem_append, single, or_assoc]

theorem offers_iff {hello : ClientHello} {feature : ProtocolFeature} :
    offers hello feature = true ↔ wire feature ∈ hello.features :=
  List.contains_iff_mem

theorem offered_of_echoed {session : Session} {hello : ClientHello}
    {minor : Nat} {feature : ProtocolFeature}
    (selected : Selected hello minor)
    (echoed : feature ∈ (session.negotiated hello minor).echoedFeatures) :
    feature ∈ mandatoryFeatures ∨ offers hello feature = true := by
  rcases mem_echoedFeatures.mp echoed with mandatory | ⟨rfl, enabled⟩ |
    ⟨rfl, enabled⟩ | ⟨rfl, enabled⟩ | ⟨rfl, enabled⟩ | ⟨rfl, enabled⟩ |
    ⟨rfl, enabled⟩ | ⟨rfl, enabled⟩ | ⟨rfl, enabled⟩
  · exact .inl mandatory
  · exact .inr (Bool.and_eq_true_iff.mp enabled).2
  · exact .inr (Bool.and_eq_true_iff.mp enabled).2
  · exact .inr (Bool.and_eq_true_iff.mp enabled).2
  · exact .inr enabled
  · exact .inr (Bool.and_eq_true_iff.mp enabled).2
  · exact .inr enabled
  · exact .inr (selected.credits (of_decide_eq_true enabled))
  · exact .inr (Bool.and_eq_true_iff.mp (Bool.and_eq_true_iff.mp enabled).1).2

theorem custom_echoed_iff {session : Session} {hello : ClientHello}
    {minor : Nat} (selected : Selected hello minor) (second : 2 ≤ minor) :
    echoes (session.negotiated hello minor).serverHello .epaperCustomProfile =
        true ↔
      offers hello .epaperProfileControl = true := by
  obtain ⟨_, custom, _⟩ := selected.custom.mp second
  rw [echoes_iff, mem_echoedFeatures]
  simp [mandatoryFeatures, Session.negotiated, second, custom]

theorem validateHello_eq_ok {hello : ClientHello} {config : ReceiverConfig}
    (valid : validateHello hello config = .ok ()) :
    hello.minMinor ≤ hello.maxMinor ∧
      wire Encoding.raw ∈ hello.encodings := by
  unfold validateHello at valid
  split at valid
  · cases valid
  · rename_i version
    split at valid
    · cases valid
    · split at valid
      · cases valid
      · split at valid
        · cases valid
        · rename_i capable
          simp only [not_or, Bool.not_eq_true, Bool.not_eq_false',
            List.contains_iff_mem] at capable
          exact ⟨by omega, capable.2.2⟩

theorem validate_eq_ok {config : ReceiverConfig}
    (valid : config.validate = .ok ()) :
    config.limits.maxInflight ≠ 0 ∧ config.limits.maxInflightBytes ≠ 0 ∧
      config.limits.maxPayload ≠ 0 ∧ config.limits.maxFrameBytes ≠ 0 ∧
      config.limits.maxRegions ≠ 0 := by
  unfold ReceiverConfig.validate at valid
  split at valid
  · cases valid
  · split at valid
    · cases valid
    · rename_i limits
      simpa only [not_or] using limits

theorem acceptHello_runs {hello : ClientHello} {session after : Session}
    {envelope : Envelope}
    (runs : (Session.acceptHello hello).Runs session (.ok envelope) after) :
    ∃ minor, Selected hello minor ∧ wire Encoding.raw ∈ hello.encodings ∧
      envelope.body =
        some (.serverHello (session.negotiated hello minor).serverHello) := by
  rw [Session.acceptHello, Proc.runs_get_bind, Proc.runs_ofRes_bind] at runs
  rcases runs with ⟨_, valid, runs⟩ | ⟨_, _, failed, _⟩
  · obtain ⟨_, raw⟩ := validateHello_eq_ok valid
    rw [Proc.runs_ofRes_bind] at runs
    rcases runs with ⟨minor, selects, runs⟩ | ⟨_, _, failed, _⟩
    · rw [Proc.runs_set_bind] at runs
      refine ⟨minor, selected_of_selectMinor selects, raw, ?_⟩
      rw [Session.wrap, Proc.runs_get_bind, Proc.runs_set_bind,
        Proc.runs_pure] at runs
      cases runs.1
      rfl
    · cases failed
  · cases failed

theorem validateServerHello_of {server : ServerHello} {display : DisplayInfo}
    {limits : Limits} (version : server.selectedMinor ≤ maxMinor)
    (serverId : server.serverId.length = 16)
    (isDisplay : server.display = some display)
    (size : display.width ≠ 0 ∧ display.height ≠ 0)
    (formats : wire PixelFormat.gray8 ∈ display.pixelFormats ∧
      wire Encoding.raw ∈ display.encodings)
    (isLimits : server.limits = some limits)
    (positive : limits.maxPayload ≠ 0 ∧ limits.maxFrameBytes ≠ 0 ∧
      limits.maxRegions ≠ 0 ∧ limits.maxInflight ≠ 0)
    (bytes : 1 ≤ server.selectedMinor → limits.maxInflightBytes ≠ 0)
    (credits : 1 ≤ server.selectedMinor → echoes server .byteCredits = true)
    (profiles : 2 ≤ server.selectedMinor →
      echoes server .epaperCustomProfile = true)
    (overlays : 3 ≤ server.selectedMinor → echoes server .remoteOverlay = true)
    (mandatory : mandatoryFeatures.all (echoes server) = true) :
    validateServerHello server = .ok () := by
  obtain ⟨gray, raw⟩ := formats
  obtain ⟨payload, frameBytes, regions, inflight⟩ := positive
  have usable : ¬ (display.width = 0 ∨ display.height = 0 ∨
      (!display.pixelFormats.contains (wire PixelFormat.gray8)) = true ∨
      (!display.encodings.contains (wire Encoding.raw)) = true) := by
    simp [size, gray, raw]
  have limited : ¬ (limits.maxPayload = 0 ∨ limits.maxFrameBytes = 0 ∨
      limits.maxRegions = 0 ∨ limits.maxInflight = 0 ∨
      1 ≤ server.selectedMinor ∧ limits.maxInflightBytes = 0) := by
    simpa [payload, frameBytes, regions, inflight] using bytes
  have echoed {minor : Nat} {feature : ProtocolFeature}
      (needed : minor ≤ server.selectedMinor → echoes server feature = true) :
      ¬ (minor ≤ server.selectedMinor ∧ (!echoes server feature) = true) := by
    rintro ⟨reached, missing⟩
    rw [needed reached] at missing
    cases missing
  rw [validateServerHello, if_neg (Nat.not_lt.mpr version),
    if_neg (not_not.mpr serverId), isDisplay]
  dsimp only
  rw [if_neg usable, isLimits]
  dsimp only
  rw [if_neg limited, if_neg (echoed credits), if_neg (echoed profiles),
    if_neg (echoed overlays), if_neg (by rw [mandatory]; nofun)]

/-- The receiver echoes every feature its version takes, apart from the custom
profile, and the producer accepts if that one is echoed too. -/
theorem agrees_of_custom {session : Session} {hello : ClientHello}
    {minor : Nat} (selected : Selected hello minor)
    (raw : wire Encoding.raw ∈ hello.encodings)
    (valid : session.config.validate = .ok ())
    (width : 0 < session.panel.info.width)
    (height : 0 < session.panel.info.height)
    (profiles : 2 ≤ minor → echoes
      (session.negotiated hello minor).serverHello .epaperCustomProfile = true) :
    Agrees hello (session.negotiated hello minor).serverHello := by
  obtain ⟨inflight, inflightBytes, payload, frameBytes, regions⟩ :=
    validate_eq_ok valid
  have credits (first : 1 ≤ minor) : echoes
      (session.negotiated hello minor).serverHello .byteCredits = true := by
    rw [echoes_iff, mem_echoedFeatures]
    simp [Session.negotiated, first]
  have overlays (third : 3 ≤ minor) : echoes
      (session.negotiated hello minor).serverHello .remoteOverlay = true := by
    rw [echoes_iff, mem_echoedFeatures]
    simp [Session.negotiated, third, selected.overlays third]
  have rawEchoed : wire Encoding.raw ∈
      (session.negotiated hello minor).negotiatedEncodings := by
    simp only [Session.negotiated, List.mem_filter, List.contains_iff_mem]
    exact ⟨by simp, raw⟩
  refine ⟨⟨selected.atLeast, selected.atMost⟩, ?_, credits, profiles, overlays,
    ?_⟩
  · intro number echoed optional
    obtain ⟨feature, enabled, rfl⟩ := List.mem_map.mp echoed
    rcases offered_of_echoed selected enabled with mandatory | offered
    · exact absurd (List.mem_map_of_mem mandatory) optional
    · exact offers_iff.mp offered
  · refine validateServerHello_of (selected.known) (by simp [Session.serverHello])
      rfl ⟨by exact width.ne', by exact height.ne'⟩
      ⟨List.mem_cons_self, rawEchoed⟩ rfl
      ⟨payload, frameBytes, regions, inflight⟩ ?_ credits profiles overlays ?_
    · intro first none
      change 1 ≤ minor at first
      simp only [Session.protocolLimits, Session.negotiated, first, decide_true,
        if_true] at none
      exact inflightBytes none
    · rw [List.all_eq_true]
      exact fun feature member =>
        echoes_iff.mpr (mem_echoedFeatures.mpr (.inl member))

/-- An accepted hello and its answer agree exactly if a hello that offers what
custom profiles take offers profile control as well. -/
theorem agrees_iff {hello : ClientHello} {session after : Session}
    {envelope : Envelope} (valid : session.config.validate = .ok ())
    (width : 0 < session.panel.info.width)
    (height : 0 < session.panel.info.height)
    (accepted : (Session.acceptHello hello).Runs session (.ok envelope) after) :
    (∃ server, envelope.body = some (.serverHello server) ∧
        Agrees hello server) ↔
      (OffersCustom hello → offers hello .epaperProfileControl = true) := by
  obtain ⟨minor, selected, raw, isBody⟩ := acceptHello_runs accepted
  rw [isBody]
  constructor
  · rintro ⟨server, same, agrees⟩ custom
    cases same
    have second := selected.custom.mpr custom
    exact (custom_echoed_iff selected second).mp (agrees.profiles second)
  · intro controls
    refine ⟨_, rfl, agrees_of_custom selected raw valid width height ?_⟩
    intro second
    exact (custom_echoed_iff selected second).mpr
      (controls (selected.custom.mp second))

private theorem answers (setup : SessionSetup) (hello : ClientHello)
    (answered : (match setup.newSession with
      | .ok first =>
          match Session.acceptHello hello first with
          | .ok _ _ => true
          | .error _ _ | .panic => false
      | .error _ | .panic => false) = true) :
    ∃ session after envelope, setup.newSession = .ok session ∧
      (Session.acceptHello hello).Runs session (.ok envelope) after := by
  split at answered
  · rename_i first fresh
    split at answered
    · rename_i envelope after returned
      exact ⟨first, after, envelope, fresh, returned⟩
    · cases answered
    · cases answered
  · cases answered
  · cases answered

private theorem fresh_session {setup : SessionSetup} {session : Session}
    (fresh : setup.newSession = .ok session) :
    session.config = setup.config ∧ session.panel = setup.panel := by
  obtain ⟨fallback, _, same⟩ := Res.bind_eq_ok.mp fresh
  cases same
  exact ⟨rfl, rfl⟩

/-- A hello that offers profile control and all that minor version 3 takes. -/
theorem agrees_of_full_hello :
    ∃ session after envelope server,
      (Session.acceptHello (grayHello [.byteCredits, .epaperProfileControl,
        .epaperCustomProfile, .remoteOverlay])).Runs session (.ok envelope)
        after ∧
      envelope.body = some (.serverHello server) ∧
      Agrees (grayHello [.byteCredits, .epaperProfileControl,
        .epaperCustomProfile, .remoteOverlay]) server := by
  obtain ⟨session, after, envelope, fresh, accepted⟩ := answers
    (.gray 2 2 (fun _ => true) (fun _ => some {}))
    (grayHello [.byteCredits, .epaperProfileControl, .epaperCustomProfile,
      .remoteOverlay]) (by decide +kernel)
  obtain ⟨sameConfig, samePanel⟩ := fresh_session fresh
  obtain ⟨server, isBody, agrees⟩ := (agrees_iff
    (by rw [sameConfig]; decide +kernel) (by rw [samePanel]; decide)
    (by rw [samePanel]; decide) accepted).mpr fun _ => by decide
  exact ⟨session, after, envelope, server, accepted, isBody, agrees⟩

/-- A hello with custom profiles but without profile control: the receiver
selects a version whose feature it does not echo. -/
theorem custom_without_control :
    ∃ session after envelope, session.config.validate = .ok () ∧
      0 < session.panel.info.width ∧ 0 < session.panel.info.height ∧
      (Session.acceptHello (grayHello [.byteCredits, .epaperCustomProfile])).Runs
        session (.ok envelope) after ∧
      ¬ ∃ server, envelope.body = some (.serverHello server) ∧
        Agrees (grayHello [.byteCredits, .epaperCustomProfile]) server := by
  obtain ⟨session, after, envelope, fresh, accepted⟩ := answers
    (.gray 2 2 (fun _ => true) (fun _ => some {}))
    (grayHello [.byteCredits, .epaperCustomProfile]) (by decide +kernel)
  obtain ⟨sameConfig, samePanel⟩ := fresh_session fresh
  refine ⟨session, after, envelope, by rw [sameConfig]; decide +kernel,
    by rw [samePanel]; decide, by rw [samePanel]; decide, accepted, ?_⟩
  rintro ⟨server, isBody, agrees⟩
  obtain ⟨minor, selected, _, isAnswer⟩ := acceptHello_runs accepted
  rw [isBody] at isAnswer
  cases isAnswer
  have second : 2 ≤ minor := selected.custom.mpr (by decide)
  have controls := (custom_echoed_iff selected second).mp (agrees.profiles second)
  exact absurd controls (by decide)

end RmDisplay.Producer
