import RmDisplay.Receiver.Session

/-!
# Controlling a session

Operations of the embedding application, requests about refresh settings, the
local menu and the overlay of the producer.
-/

namespace RmDisplay.Receiver

open Foundation Protocol RmDisplay.Core

namespace ActiveSurface

/-- Edit a plane of the core. -/
def editPlane (self : ActiveSurface) (plane : PlaneId) (edit : PlaneEdit) :
    SurfaceRes ActiveSurface := do
  let core ← self.core.editPlane plane edit
  return { self with core }

/-- Clearing a plane cannot fail. -/
def clearPlane (self : ActiveSurface) (plane : PlaneId) : ActiveSurface :=
  { self with core := self.core.setPlane plane (self.core.plane plane).clear }

end ActiveSurface

/-- The ink on the frame it was drawn on. -/
structure InkSnapshot where
  surfaceId : Nat
  generation : Nat
  presentedFrameId : Nat
  width : Nat
  height : Nat
  frozen : Bool
  bitmap : Bytes
deriving DecidableEq, Repr

namespace Session

/-- The menu changes. -/
def withMenu (self : Session) (menu : LocalMenu) : Session :=
  { self.note (.menu menu.visible) with localMenu := menu }

/-- Change the active surface, if there is one. -/
def withSurface (self : Session) (change : ActiveSurface → ActiveSurface) :
    Session :=
  { self with surface := self.surface.map change }

def inkSnapshot (self : Session) : Res SessionError InkSnapshot :=
  match self.surface with
  | none => .error (.badSurface "no active surface")
  | some surface => do
      let bitmap ← surface.core.ink.coverageBitmap.mapError .surface
      return { surfaceId := surface.surfaceId
               generation := surface.generation
               presentedFrameId := surface.core.presentedFrameId
               width := surface.core.width
               height := surface.core.height
               frozen := surface.inkFrozen
               bitmap }

def setFreezeOnPenDown (enabled : Bool) : SessionProc Unit :=
  Proc.modify fun session => { session with freezeOnPenDown := enabled }

def setAutomaticIdleCleanup (enabled : Bool) : SessionProc Unit :=
  Proc.modify fun session => { session with automaticIdleCleanup := enabled }

def setLocalInk (enabled : Bool) (now : Duration) : SessionProc Unit := do
  let session ← Proc.get
  if enabled && !session.penAvailable then
    Proc.throw (.badSurface "local ink requires an available pen")
  else
    match session.surface with
    | none => Proc.throw (.badSurface "no active surface")
    | some surface =>
        if surface.localInk != enabled then
          Proc.set { session.note (.boundary now surface.inkPaused) with
            surface := some { surface.rearmInk now with localInk := enabled } }
        else return ()

def setInkPaused (paused : Bool) (now : Duration) : SessionProc Unit := do
  let session ← Proc.get
  match session.surface with
  | none => Proc.throw (.badSurface "no active surface")
  | some surface =>
      if surface.inkPaused != paused then
        Proc.set { session.note (.boundary now paused) with
          surface := some { surface.rearmInk now with inkPaused := paused } }
      else return ()

def clearInk (now : Duration) : SessionProc (List Envelope) := do
  let session ← Proc.get
  match session.surface with
  | none => Proc.throw (.badSurface "no active surface")
  | some surface =>
      let cleared := surface.clearPlane .ink
      Proc.set
        { (session.note (.inkCleared cleared.core.ink.planes)).note
            (.boundary now surface.inkPaused) with
          surface := some (cleared.rearmInk now) }
      let terminals ← runCore now DisplayCore.presentInk
      terminalResults terminals

/-- An input batch with the frame its records were drawn on. -/
def inputBatch (surfaceId generation sequence : Nat)
    (records : List PointerRecord) (now : Duration) :
    SessionProc Envelope := do
  let session ← Proc.get
  Proc.set { session with nextInputSequence := nextNumber u64Max sequence }
  wrap (.inputBatch
    { surfaceId
      generation
      sequence
      monotonicUs := min (now / 10 ^ 3) u64Max
      records
      presentedFrameId :=
        (session.surface.map (·.core.presentedFrameId)).getD 0
      inkFrozen := session.surface.any (·.inkFrozen) })

def fixed1616 (value : Nat) : Nat :=
  Bounded.saturatingMul u32Max value (2 ^ 16)

def pointerRecord (event : PhysicalPointerEvent) : PointerRecord where
  device := wire PointerDevice.touch
  phase := wire <| match event.phase with
    | .down => PointerPhase.down
    | .move => PointerPhase.move
    | .up => PointerPhase.up
    | .cancel => PointerPhase.cancel
  flags := 0
  contactId := event.contactId
  x1616 := fixed1616 event.x
  y1616 := fixed1616 event.y
  pressure := 0
  buttons := 0
  tiltX := 0
  tiltY := 0

def pointerBatch (surfaceId generation : Nat)
    (report : List PhysicalPointerEvent) (now : Duration) :
    SessionProc Envelope := do
  let session ← Proc.get
  inputBatch surfaceId generation (max session.nextInputSequence 1)
    (report.map pointerRecord) now

def setFrameFrozen (frozen : Bool) (now : Duration) :
    SessionProc (List Envelope) := do
  let session ← Proc.get
  match session.surface with
  | none => Proc.throw (.badSurface "no active surface")
  | some surface =>
      if surface.inkFrozen = frozen then return []
      else if frozen ∧ surface.core.presentedFrameId = 0 then
        Proc.throw (.badSurface "no presented frame to freeze")
      else
        let (terminal, core) :=
          if frozen then surface.core.freezePresented
          else (none, surface.core)
        let next := { surface.rearmInk now with inkFrozen := frozen, core }
        let session := session.noteFrozen surface next
        Proc.set { session.note (.boundary now surface.inkPaused) with
          surface := some next }
        let responses ← terminalResults terminal.toList
        if surface.penForwardingEnabled then
          let batch ← pointerBatch surface.surfaceId surface.generation [] now
          return responses ++ [batch]
        else return responses

def requestCleanup (now : Duration) (cause : CleanupCause) :
    SessionProc (CleanupReport × List Envelope) := do
  let session ← Proc.get
  let report ← match session.surface with
    | some _ => do
        let report ← askCore cause true now DisplayCore.requestCleanup
        Proc.modify fun after => { after with
          refreshDebtWithoutSurface := after.carryDebt
          cleanupPendingWithoutSurface := report.cleanupPending }
        pure report
    | none => do
        -- Armed for the next frame.
        Proc.modify fun after => { after.note (.asked cause) with
          cleanupPendingWithoutSurface := true }
        pure
          { cleanupPerformed := false
            cleanupPending := true
            backendFailed := false
            terminals := [] }
  let responses ← terminalResults report.terminals
  return (report, responses)

def setPenAvailable (available : Bool) : SessionProc Unit :=
  Proc.modify fun session =>
    let session := { session with penAvailable := available }
    if available then session
    else
      { session with physicalPenInProximity := false }.withSurface
        fun surface =>
          { surface with penForwardingEnabled := false, penPoint := none }

/-- Show or hide the menu where no surface is open. -/
def presentFallback (completeRefresh : Bool) : SessionProc Unit := do
  let session ← Proc.get
  match session.fallback with
  | none => return ()
  | some fallback =>
      let width := fallback.base.width
      let height := fallback.base.height
      let policy := session.config.refreshPolicy
      let (overlay, menu) ← Proc.ofRes .surface
        (session.localMenu.render fallback.overlay width height policy.profile
          policy.partialRefreshEnabled session.lastCustomProfile.isSome)
      Proc.set { session with
        localMenu := menu
        fallback := some { fallback with overlay } }
      let composed ← Proc.ofRes .surface (fallback.base.compose overlay)
      let damage : Rect :=
        ⟨0, 0, width, if completeRefresh then height else menuHeight height⟩
      let decision : RefreshDecision :=
        { waveform := if completeRefresh then .fullQuality else .quality
          completeRefresh
          fullRefreshReason := if completeRefresh then .forced else .none }
      Proc.modify fun session => { session with
        panel := session.panel.afterSubmit .fallback composed [damage] decision }
      if session.panel.nextSubmit.isSome then return ()
      else Proc.throw .panel

/-- Draw the menu into its plane of the core. -/
def drawMenu (session : Session) (surface : ActiveSurface) :
    SessionProc Unit := do
  let policy := session.config.refreshPolicy
  let (overlay, menu) ← Proc.ofRes .surface
    (session.localMenu.render surface.core.overlay surface.core.width
      surface.core.height policy.profile policy.partialRefreshEnabled
      session.lastCustomProfile.isSome)
  Proc.set { session with
    localMenu := menu
    surface := some { surface with core := surface.core.setPlane .menu overlay } }

/-- Copy what a later surface has to carry on. -/
def keepCarried : SessionProc Unit :=
  Proc.modify fun session => { session with
    cleanupPendingWithoutSurface := session.surface.any
      (·.core.forceCleanupNext)
    refreshDebtWithoutSurface := session.carryDebt }

def renderLocalMenu (now : Duration) : SessionProc (List Envelope) := do
  let session ← Proc.get
  match session.surface with
  | some surface =>
      drawMenu session surface
      let terminals ← runCore now DisplayCore.presentOverlay
      keepCarried
      terminalResults terminals
  | none =>
      presentFallback false
      return []

def closeLocalMenu (now : Duration) : SessionProc (List Envelope) := do
  let session ← Proc.get
  if !session.localMenu.visible then return []
  else
    Proc.set (session.withMenu session.localMenu.close)
    renderLocalMenu now

def localCleanup (now : Duration) (cause : CleanupCause) :
    SessionProc (List Envelope) := do
  let session ← Proc.get
  if session.surface.isNone then
    presentFallback true
    return []
  else
    let (_, responses) ← requestCleanup now cause
    return responses

/-- Does a configuration change the policy of a core? -/
def reconfigures (core : DisplayCore) (next : RefreshPolicyConfig) : Bool :=
  match core.updateRefreshConfig next with
  | .ok (changed, _) => changed
  | .error _ | .panic => false

/-- Make the policy the one of the session and of the active surface. -/
def changeProfile (next : RefreshPolicyConfig) (now : Duration) :
    SessionProc (List Envelope) := do
  let session ← Proc.get
  Proc.set { session with
    config := { session.config with refreshPolicy := next } }
  let responses ← match session.surface with
    | some surface => do
        let change ← askCore .profile (reconfigures surface.core next) now
          (DisplayCore.changeRefreshProfile next)
        terminalResults change.terminals
    | none => do
        Proc.modify fun after =>
          if next != session.config.refreshPolicy then
            after.note (.asked .offscreen)
          else after
        pure []
  let drawn ← renderLocalMenu now
  return responses ++ drawn

/-- Close the menu, whatever the panel says to it, and end the session. -/
def leaveMenu (now : Duration) : SessionProc Unit := do
  Proc.modify fun session => session.withMenu session.localMenu.close
  let _ ← (Proc.attempt (renderLocalMenu now) :
    SessionProc (Except SessionError (List Envelope)))
  Proc.modify fun session => { session with closed := true }

def handleLocalMenuAction (action : LocalMenuAction) (now : Duration) :
    SessionProc (List Envelope) := do
  let session ← Proc.get
  match action with
  | .setProfile .custom =>
      match session.lastCustomProfile with
      | none => renderLocalMenu now
      | some custom => changeProfile custom now
  | .setProfile profile =>
      changeProfile (session.config.refreshPolicy.switchedTo profile) now
  | .togglePartialRefresh =>
      let policy := session.config.refreshPolicy
      let next :=
        { policy with partialRefreshEnabled := !policy.partialRefreshEnabled }
      match session.surface with
      | none => pure ()
      | some _ => do
          let _ ← runCore now fun _ =>
            onCore .configured fun core => core.updateRefreshConfig next
      Proc.modify fun after => { after with
        config := { after.config with refreshPolicy := next } }
      renderLocalMenu now
  | .fullRefresh => localCleanup now .request
  | .newPair =>
      leaveMenu now
      Proc.modify fun after => { after with pairingResetRequested := true }
      return []
  | .closeApp =>
      leaveMenu now
      Proc.modify fun after => { after with receiverExitRequested := true }
      return []
  | .close =>
      Proc.set (session.withMenu session.localMenu.close)
      renderLocalMenu now

/-- Does a rectangle lie on the surface, with one byte of each plane for each
of its pixels? -/
def validOverlayRect (update : OverlayUpdate) (width height : Nat) : Bool :=
  update.rect.any fun rect =>
    0 < rect.width && 0 < rect.height &&
      (Bounded.checkedAdd u32Max rect.x rect.width).any (· ≤ width) &&
      (Bounded.checkedAdd u32Max rect.y rect.height).any (· ≤ height) &&
      rect.width * rect.height == update.luma.length &&
      update.luma.length == update.alpha.length

/-- Why an update for an active surface is refused. -/
def overlayProblem (self : Session) (surface : ActiveSurface)
    (update : OverlayUpdate) : Option String :=
  if surface.surfaceId ≠ update.surfaceId ∨
      surface.generation ≠ update.generation then
    some "wrong surface or generation"
  else if self.config.limits.maxFrameBytes <
      Bounded.saturatingAdd u64Max update.luma.length update.alpha.length then
    some "overlay exceeds decoded byte limit"
  else if !(validOverlayRect update surface.core.width surface.core.height ||
      update.rect.isNone && update.luma.isEmpty && update.alpha.isEmpty &&
        (update.clear || update.localInk.isSome)) then
    some "invalid overlay rectangle or payload"
  else none

def overlayResult (update : OverlayUpdate) (applied : Bool) (message : String)
    (shown : Option ActiveSurface) : SessionProc Envelope :=
  wrap (.overlayResult
    { surfaceId := update.surfaceId
      generation := update.generation
      sequence := update.sequence
      applied
      message
      presentedFrameId := (shown.map (·.core.presentedFrameId)).getD 0
      inkFrozen := shown.any (·.inkFrozen) })

/-- What an update does to the session before its rectangle is patched. -/
def overlayCleared (self : Session) (surface : ActiveSurface)
    (update : OverlayUpdate) (now : Duration) : Session :=
  let (session, surface) :=
    if update.clear || update.localInk.isSome then
      (self.note (.boundary now surface.inkPaused), surface.rearmInk now)
    else (self, surface)
  if update.clear then
    let cleared := (surface.clearPlane .peer).clearPlane .ink
    { session.note (.inkCleared cleared.core.ink.planes) with
      surface := some { cleared with penPoint := none } }
  else { session with surface := some surface }

/-- The patch of an update. -/
def overlayPatched (surface : ActiveSurface) (update : OverlayUpdate) :
    SurfaceRes ActiveSurface :=
  match update.rect with
  | none => .ok surface
  | some rect => surface.editPlane .peer (.patch rect update.luma update.alpha)

/-- What an update does to the session after its rectangle was patched. -/
def overlayInk (self : Session) (surface : ActiveSurface)
    (update : OverlayUpdate) : Session :=
  match update.localInk with
  | none => { self with surface := some surface }
  | some true => { self with surface := some { surface with localInk := true } }
  | some false =>
      let cleared := surface.clearPlane .ink
      let next :=
        { cleared with
          localInk := false
          inkFrozen := false
          penPoint := none }
      let session := self.note (.inkCleared cleared.core.ink.planes)
      { session.noteFrozen surface next with surface := some next }

/-- Change the active surface where the change may fail. -/
def editActive (change : ActiveSurface → SurfaceRes ActiveSurface) :
    SessionProc Unit := do
  let session ← Proc.get
  match session.surface with
  | none => return ()
  | some surface =>
      let changed ← Proc.ofRes .surface (change surface)
      Proc.set { session with surface := some changed }

def applyOverlay (surface : ActiveSurface) (update : OverlayUpdate)
    (now : Duration) : SessionProc (List Envelope) := do
  Proc.modify fun session => session.overlayCleared surface update now
  editActive fun surface => overlayPatched surface update
  Proc.modify fun session =>
    match session.surface with
    | none => session
    | some surface => session.overlayInk surface update
  let terminals ← runCore now DisplayCore.presentOverlay
  let responses ← terminalResults terminals
  let session ← Proc.get
  let result ← overlayResult update true "" session.surface
  return responses ++ [result]

def overlayUpdate (update : OverlayUpdate) (now : Duration) :
    SessionProc (List Envelope) := do
  let before ← Proc.get
  let validSequence :=
    decide (update.sequence ≠ 0 ∧ before.overlaySequence < update.sequence)
  let session :=
    if validSequence then { before with overlaySequence := update.sequence }
    else before
  Proc.set session
  let refuse (problem : String) (shown : Option ActiveSurface) :
      SessionProc (List Envelope) := do
    return [← overlayResult update false problem shown]
  if !session.remoteOverlayEnabled then
    refuse "remote overlay was not negotiated" none
  else if !validSequence then refuse "overlay sequence must increase" none
  else if update.localInk.isSome && !session.localInkControlEnabled then
    refuse "local ink was not negotiated" none
  else
    match session.surface with
    | none => refuse "no active surface" none
    | some surface =>
        match session.overlayProblem surface update with
        | some problem => refuse problem (some surface)
        | none => applyOverlay surface update now

def protocolProfile (number : Int) : Option RefreshProfile :=
  match tryFrom EpaperProfile number with
  | some .realtime => some .realtime
  | some .animate => some .animate
  | some .balanced => some .balanced
  | some .reading => some .reading
  | some .quality => some .quality
  | some .unspecified | some .custom | none => none

def epaperProfile : RefreshProfile → EpaperProfile
  | .realtime => .realtime
  | .animate => .animate
  | .balanced => .balanced
  | .reading => .reading
  | .quality => .quality
  | .custom => .custom

def protocolWaveform : Waveform → EpaperWaveform
  | .fastest => .fastest
  | .fast => .fast
  | .quality | .fullQuality => .quality

def profileConfiguration (config : RefreshPolicyConfig) :
    EpaperProfileConfiguration where
  latestTextWaveform := wire (protocolWaveform config.latestTextWaveform)
  latestPhotoWaveform := wire (protocolWaveform config.latestPhotoWaveform)
  latestVideoWaveform := wire (protocolWaveform config.latestVideoWaveform)
  settledWaveform := wire (protocolWaveform config.settledWaveform)
  partialRefreshEnabled := config.partialRefreshEnabled
  cleanupAfterUpdates := config.cleanupAfterUpdates
  cleanFirstFrame := config.cleanFirstFrame
  largeUpdateThresholdPercent := config.largeUpdateThresholdPercent
  staticCleanupAfterFastUpdates := config.staticCleanupAfterFastUpdates
  damageTile := config.damageTile

def profileState (config : RefreshPolicyConfig) : EpaperProfileState where
  profile := wire (epaperProfile config.profile)
  cleanupAfterUpdates := config.cleanupAfterUpdates
  largeUpdateThresholdPercent := config.largeUpdateThresholdPercent
  damageTile := config.damageTile
  cleanFirstFrame := config.cleanFirstFrame
  staticCleanupAfterFastUpdates := config.staticCleanupAfterFastUpdates
  effective := some (profileConfiguration config)

def customWaveform (number : Int) : Except String Waveform :=
  match tryFrom EpaperWaveform number with
  | some .fastest => .ok .fastest
  | some .fast => .ok .fast
  | some .quality => .ok .quality
  | some .unspecified | none =>
      .error "all CUSTOM waveforms must be FASTEST, FAST, or QUALITY"

def customProfileConfig (custom : EpaperProfileConfiguration) :
    Except String RefreshPolicyConfig :=
  if ¬ (8 ≤ custom.damageTile ∧ custom.damageTile ≤ 512) ∨
      2 ^ custom.damageTile.log2 ≠ custom.damageTile then
    .error "CUSTOM damage_tile must be a power of two between 8 and 512"
  else if 100 < custom.largeUpdateThresholdPercent then
    .error
      "CUSTOM large_update_threshold_percent must be between 0 and 100"
  else do
    let config : RefreshPolicyConfig :=
      { profile := .custom
        latestTextWaveform := ← customWaveform custom.latestTextWaveform
        latestPhotoWaveform := ← customWaveform custom.latestPhotoWaveform
        latestVideoWaveform := ← customWaveform custom.latestVideoWaveform
        settledWaveform := ← customWaveform custom.settledWaveform
        partialRefreshEnabled := custom.partialRefreshEnabled
        cleanupAfterUpdates := custom.cleanupAfterUpdates
        cleanFirstFrame := custom.cleanFirstFrame
        largeUpdateThresholdPercent := custom.largeUpdateThresholdPercent
        staticCleanupAfterFastUpdates := custom.staticCleanupAfterFastUpdates
        damageTile := custom.damageTile }
    match config.validate with
    | .ok () => return config
    | .error _ | .panic => .error "CUSTOM refresh configuration is invalid"

def epaperProfileResult (request : EpaperProfileRequest)
    (result : EpaperProfileResultCode) (active : RefreshPolicyConfig)
    (cleanupPerformed cleanupPending : Bool) (message : String) :
    SessionProc Envelope :=
  wrap (.epaperProfileResult
    { requestId := request.requestId
      operation := request.operation
      requestedProfile := request.requestedProfile
      result := wire result
      active := some (profileState active)
      cleanupPerformed
      cleanupPending
      message })

/-- The configuration a SET request asks for, or why it is refused. -/
def requestedConfig (self : Session) (request : EpaperProfileRequest) :
    Except (EpaperProfileResultCode × String) RefreshPolicyConfig :=
  match tryFrom EpaperProfile request.requestedProfile with
  | none => .error (.rejected, "requested profile is invalid")
  | some .custom =>
      if !self.customProfileControlEnabled then
        .error (.unsupported,
          "CUSTOM requires protocol v2.2 and EPAPER_CUSTOM_PROFILE")
      else
        match request.custom with
        | none =>
            .error (.rejected,
              "CUSTOM requires a complete custom configuration")
        | some custom =>
            (customProfileConfig custom).mapError fun message =>
              (.rejected, message)
  | some _ =>
      if request.custom.isSome then
        .error (.rejected, "custom configuration is valid only with CUSTOM")
      else
        match protocolProfile request.requestedProfile with
        | none => .error (.rejected, "requested profile is invalid")
        | some profile => .ok (self.config.refreshPolicy.switchedTo profile)

/-- What a SET request came to. -/
def profileMessage (change : RefreshProfileChange) : String :=
  if change.backendFailed then
    "policy applied; cleanup failed and remains pending"
  else if change.cleanupPerformed then
    "policy applied and full-panel cleanup completed"
  else if change.cleanupPending then
    "policy applied; cleanup is armed for the next presentation"
  else if change.changed then "policy applied"
  else "requested policy is already active"

/-- Change the policy of the active surface, or arm a cleanup for the next. -/
def applyProfile (current next : RefreshPolicyConfig) (now : Duration) :
    SessionProc RefreshProfileChange := do
  let session ← Proc.get
  match session.surface with
  | some surface => do
      let change ← askCore .profile (reconfigures surface.core next) now
        (DisplayCore.changeRefreshProfile next)
      Proc.modify fun after => { after with
        cleanupPendingWithoutSurface := change.cleanupPending }
      return change
  | none =>
      let changed := next != current
      let cleanupPending := session.cleanupPendingWithoutSurface || changed
      Proc.set
        { if changed then session.note (.asked .profile) else session with
          cleanupPendingWithoutSurface := cleanupPending }
      return { config := next
               changed
               cleanupPerformed := false
               cleanupPending
               backendFailed := false
               terminals := [] }

def setProfile (request : EpaperProfileRequest) (next : RefreshPolicyConfig)
    (now : Duration) : SessionProc (List Envelope) := do
  let session ← Proc.get
  Proc.set { session with
    lastCustomProfile :=
      if next.profile = .custom then some next else session.lastCustomProfile
    config := { session.config with refreshPolicy := next } }
  let change ← applyProfile session.config.refreshPolicy next now
  let responses ← terminalResults change.terminals
  let result ← epaperProfileResult request
    (if change.changed then .applied else .unchanged) next
    change.cleanupPerformed change.cleanupPending (profileMessage change)
  return responses ++ [result]

def handleEpaperProfile (request : EpaperProfileRequest) (now : Duration) :
    SessionProc (List Envelope) := do
  let session ← Proc.get
  let answer (result : EpaperProfileResultCode) (message : String) :
      SessionProc (List Envelope) := do
    return [← epaperProfileResult request result session.config.refreshPolicy
      false session.currentCleanupPending message]
  if !session.profileControlEnabled then
    answer .unsupported "EPAPER_PROFILE_CONTROL was not negotiated"
  else if request.requestId = 0 ∨
      request.requestId ≤ session.lastProfileRequestId then
    answer .rejected "request_id must be nonzero and strictly increasing"
  else
    Proc.set { session with lastProfileRequestId := request.requestId }
    let operation := tryFrom EpaperProfileOperation request.operation
    if operation = some .query ∧
        request.requestedProfile = wire EpaperProfile.unspecified ∧
        request.custom = none then
      answer .unchanged "active receiver refresh policy"
    else if operation ≠ some .set then
      answer .rejected "operation/profile combination is invalid"
    else
      match session.requestedConfig request with
      | .error (result, message) => answer result message
      | .ok next => setProfile request next now

def currentRefreshState (self : Session) : EpaperRefreshState :=
  match self.surface with
  | none =>
      let config := self.config.refreshPolicy
      { partialRefreshEnabled := config.partialRefreshEnabled
        cleanupAfterUpdates := config.cleanupAfterUpdates
        largeUpdateThresholdPercent := config.largeUpdateThresholdPercent
        presentedSinceFullRefresh :=
          self.refreshDebtWithoutSurface.physicalPartialUpdatesSinceCleanup
        cleanupPending := self.cleanupPendingWithoutSurface
        staticCleanupAfterFastUpdates := config.staticCleanupAfterFastUpdates
        fastUpdatesSinceSettled := 0 }
  | some surface =>
      let config := surface.core.refreshPolicy.config
      { partialRefreshEnabled := config.partialRefreshEnabled
        cleanupAfterUpdates := config.cleanupAfterUpdates
        largeUpdateThresholdPercent := config.largeUpdateThresholdPercent
        presentedSinceFullRefresh :=
          surface.core.refreshPolicy.presentedSinceCleanup
        cleanupPending := surface.core.forceCleanupNext
        staticCleanupAfterFastUpdates := config.staticCleanupAfterFastUpdates
        fastUpdatesSinceSettled := surface.core.fastUpdatesSinceSettled }

/-- A refresh result with the settings active now. -/
def epaperRefreshResult (request : EpaperRefreshRequest)
    (result : EpaperRefreshResultCode) (cleanupPerformed : Bool)
    (message : String) : SessionProc Envelope := do
  let session ← Proc.get
  wrap (.epaperRefreshResult
    { requestId := request.requestId
      operation := request.operation
      result := wire result
      active := some session.currentRefreshState
      cleanupPerformed
      message })

def hasParameters (request : EpaperRefreshRequest) : Bool :=
  request.partialRefreshEnabled.isSome ||
    request.cleanupAfterUpdates.isSome ||
    request.largeUpdateThresholdPercent.isSome ||
    request.staticCleanupAfterFastUpdates.isSome

def updatedConfig (config : RefreshPolicyConfig)
    (request : EpaperRefreshRequest) : RefreshPolicyConfig :=
  { config with
    partialRefreshEnabled :=
      request.partialRefreshEnabled.getD config.partialRefreshEnabled
    cleanupAfterUpdates :=
      request.cleanupAfterUpdates.getD config.cleanupAfterUpdates
    largeUpdateThresholdPercent :=
      request.largeUpdateThresholdPercent.getD
        config.largeUpdateThresholdPercent
    staticCleanupAfterFastUpdates :=
      request.staticCleanupAfterFastUpdates.getD
        config.staticCleanupAfterFastUpdates }

def updateRefresh (request : EpaperRefreshRequest) (now : Duration) :
    SessionProc (List Envelope) := do
  let session ← Proc.get
  let next := updatedConfig session.config.refreshPolicy request
  let changed ← match session.surface with
    | none => pure (next != session.config.refreshPolicy)
    | some _ => do
        let reply ← runCore now fun _ =>
          onCore .configured fun core => core.updateRefreshConfig next
        pure (reply == .configured true)
  Proc.modify fun after => { after with
    config := { after.config with refreshPolicy := next } }
  return [← epaperRefreshResult request
    (if changed then .applied else .unchanged) false
    (if changed then "receiver refresh parameters applied"
      else "requested refresh parameters are already active")]

def cleanupRefresh (request : EpaperRefreshRequest) (now : Duration) :
    SessionProc (List Envelope) := do
  let (report, responses) ← requestCleanup now .request
  let result ← epaperRefreshResult request
    (if report.backendFailed then .failed else .applied)
    report.cleanupPerformed
    (if report.backendFailed then "full cleanup failed and remains armed"
      else if report.cleanupPerformed then "full cleanup completed"
      else "full cleanup is armed for the next presentation")
  return responses ++ [result]

def handleEpaperRefresh (request : EpaperRefreshRequest) (now : Duration) :
    SessionProc (List Envelope) := do
  let session ← Proc.get
  let answer (result : EpaperRefreshResultCode) (message : String) :
      SessionProc (List Envelope) := do
    return [← epaperRefreshResult request result false message]
  if !session.refreshControlEnabled then
    answer .unsupported "EPAPER_REFRESH_CONTROL was not negotiated"
  else if request.requestId = 0 ∨
      request.requestId ≤ session.lastRefreshRequestId then
    answer .rejected "request_id must be nonzero and strictly increasing"
  else
    Proc.set { session with lastRefreshRequestId := request.requestId }
    match tryFrom EpaperRefreshOperation request.operation,
        hasParameters request with
    | some .query, false =>
        answer .unchanged "active receiver refresh parameters"
    | some .update, true =>
        if request.largeUpdateThresholdPercent.any (100 < ·) then
          answer .rejected
            "large_update_threshold_percent must be between 0 and 100"
        else updateRefresh request now
    | some .cleanup, false => cleanupRefresh request now
    | _, _ =>
        answer .rejected
          "operation and optional parameter combination is invalid"

end Session

end RmDisplay.Receiver
