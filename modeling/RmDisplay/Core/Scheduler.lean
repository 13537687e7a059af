import RmDisplay.Core.Panel

/-!
# The display core

`DisplayCore` owns the logical remote base, the local planes, one pending
presentation, and the picture known to have been submitted to the panel.  An
operation that calls the panel is a procedure on the core and the panel; a
returned error keeps what was changed before it.

The clock of a call is part of its input, and so are the readings of the stop
watches that only fill in the metrics.
-/

namespace RmDisplay.Core

open Foundation Protocol

/-- Durations are counted in nanoseconds. -/
abbrev Duration := Nat

def Duration.ofSecs (seconds : Nat) : Duration := seconds * 10 ^ 9

def Duration.ofMillis (milliseconds : Nat) : Duration := milliseconds * 10 ^ 6

def Duration.ofMicros (microseconds : Nat) : Duration := microseconds * 10 ^ 3

/-- The longest duration. -/
def durationMax : Duration := Duration.ofSecs u64Max + (10 ^ 9 - 1)

def durationUs (duration : Duration) : Nat := min (duration / 10 ^ 3) u32Max

/-- What the clocks say during one call. -/
structure Timing where
  now : Duration
  applyElapsed : Duration := 0
  composeElapsed : Duration := 0
  presentElapsed : Duration := 0
deriving DecidableEq, Repr

/-- Screen equivalents of partial damage and idle time after which a profile
asks for a cleanup. -/
def adaptiveCleanup : RefreshProfile → Option (Nat × Duration)
  | .realtime => some (8, .ofSecs 10)
  | .animate => some (6, .ofSecs 8)
  | .balanced => some (4, .ofSecs 6)
  | .reading => some (3, .ofSecs 5)
  | .quality => some (2, .ofSecs 4)
  | .custom => none

inductive PresentationOutcome where
  | presented | superseded | cancelled | backendFailure
deriving DecidableEq, Repr

structure PresentationMetrics where
  decodeUs : Nat := 0
  queueUs : Nat := 0
  presentUs : Nat := 0
  composeUs : Nat := 0
  convertUs : Nat := 0
  submitUs : Nat := 0
  damagePixels : Nat := 0
  damageRegions : Nat := 0
  waveform : Nat := 0
  completeRefresh : Bool := false
  fullRefreshReason : FullRefreshReason := .none
deriving DecidableEq, Repr

structure TerminalFrame where
  frameId : Nat
  outcome : PresentationOutcome
  metrics : PresentationMetrics
deriving DecidableEq, Repr

structure CommitReport where
  logicalFrameId : Nat
  superseded : Option TerminalFrame
deriving DecidableEq, Repr

structure CleanupReport where
  cleanupPerformed : Bool
  cleanupPending : Bool
  backendFailed : Bool
  terminals : List TerminalFrame
deriving DecidableEq, Repr

structure RefreshProfileChange where
  config : RefreshPolicyConfig
  changed : Bool
  cleanupPerformed : Bool
  cleanupPending : Bool
  backendFailed : Bool
  terminals : List TerminalFrame
deriving DecidableEq, Repr

inductive CoreError where
  | surface (err : SurfaceError)
  | refreshConfig (err : RefreshConfigError)
  | settledBarrier
  | badFrameId
  | needKeyframe
  | pixelFormat
  | panel
deriving DecidableEq, Repr

structure PendingPresentation where
  frameId : Nat
  intent : FrameIntent
  contentClass : ContentClass
  acceptedAt : Duration
  forceFullDamage : Bool
  forceCleanup : Bool
  decodeUs : Nat
  decodedBytes : Nat
  damageHint : List Rect
deriving DecidableEq, Repr

structure DisplayCore where
  base : PixelSurface
  overlay : LocalOverlay
  peerOverlay : LocalOverlay
  ink : LocalOverlay
  inkWaveform : Waveform
  presentedBase : PixelSurface
  presented : PixelSurface
  working : PixelSurface
  logicalFrameId : Nat
  presentedFrameId : Nat
  baseValid : Bool
  pending : Option PendingPresentation
  lastPresentAt : Option Duration
  frameInterval : Duration
  settledDeadline : Duration
  refreshPolicy : RefreshPolicy
  damageTile : Nat
  panelStateUncertain : Bool
  /-- Armed until a complete refresh has succeeded. -/
  forceCleanupNext : Bool
  /-- Damage refreshed with a fast waveform since the last quality or complete
  presentation. -/
  settleDamage : List Rect
  fastUpdatesSinceSettled : Nat
  partialDamagePixelsSinceCleanup : Nat
  lastPartialAt : Option Duration
  lastIdleCleanupFailure : Option Duration
deriving DecidableEq

namespace DisplayCore

def newWithFormat (width height : Nat) (pixelFormat : PixelFormat)
    (maxFpsX100 : Nat) (settledDeadline : Duration)
    (refreshConfig : RefreshPolicyConfig) : Res CoreError DisplayCore := do
  let fpsX100 := max maxFpsX100 100
  let intervalUs := (100000000 + fpsX100 - 1) / fpsX100
  let refreshPolicy ←
    (RefreshPolicy.new refreshConfig).mapError CoreError.refreshConfig
  let surface ←
    (PixelSurface.newWithFormat width height pixelFormat).mapError
      CoreError.surface
  let plane ←
    (LocalOverlay.newTransparent width height).mapError CoreError.surface
  return { base := surface
           overlay := plane
           peerOverlay := plane
           ink := plane
           inkWaveform := .fastest
           presentedBase := surface
           presented := surface
           working := surface
           logicalFrameId := 0
           presentedFrameId := 0
           baseValid := false
           pending := none
           lastPresentAt := none
           frameInterval := .ofMicros intervalUs
           settledDeadline
           refreshPolicy
           damageTile := refreshConfig.damageTile
           panelStateUncertain := false
           forceCleanupNext := false
           settleDamage := []
           fastUpdatesSinceSettled := 0
           partialDamagePixelsSinceCleanup := 0
           lastPartialAt := none
           lastIdleCleanupFailure := none }

def width (self : DisplayCore) : Nat := self.base.width

def height (self : DisplayCore) : Nat := self.base.height

def pendingIsSettled (self : DisplayCore) : Bool :=
  self.pending.any (·.intent == .settled)

def pendingBytes (self : DisplayCore) : Nat :=
  (self.pending.map (·.decodedBytes)).getD 0

def requireCleanup (self : DisplayCore) : DisplayCore :=
  { self with forceCleanupNext := true }

def refreshDebt (self : DisplayCore) : RefreshDebt := self.refreshPolicy.debt

def restoreRefreshDebt (self : DisplayCore) (debt : RefreshDebt) :
    Res CoreError DisplayCore := do
  let refreshPolicy ←
    (self.refreshPolicy.restoreDebt debt).mapError CoreError.refreshConfig
  return { self with refreshPolicy }

def updateRefreshConfig (self : DisplayCore) (config : RefreshPolicyConfig) :
    Res CoreError (Bool × DisplayCore) := do
  let changed := config != self.refreshPolicy.config
  let refreshPolicy ←
    (self.refreshPolicy.reconfigure config).mapError CoreError.refreshConfig
  return (changed, { self with refreshPolicy, damageTile := config.damageTile })

def setInkWaveform (self : DisplayCore) (waveform : Waveform) : DisplayCore :=
  { self with inkWaveform := waveform }

def supersededTerminal (now : Duration) (old : PendingPresentation) :
    TerminalFrame where
  frameId := old.frameId
  outcome := .superseded
  metrics :=
    { decodeUs := old.decodeUs
      queueUs := durationUs (now - old.acceptedAt) }

/-- The presentation of a frame just applied to the base, carrying on what the
presentation it replaces still had to do. -/
def nextPending (self : DisplayCore) (frame : ValidatedFrame)
    (contentClass : ContentClass) (timing : Timing) (decodeUs : Nat) :
    PendingPresentation :=
  let keyframe := frame.baseFrameId == 0
  let recoveringBase := !self.baseValid
  { frameId := frame.frameId
    intent := frame.intent
    contentClass
    acceptedAt := timing.now
    forceFullDamage := self.pending.any (·.forceFullDamage) ||
      keyframe && (self.presentedFrameId == 0 || recoveringBase)
    forceCleanup := self.pending.any (·.forceCleanup) ||
      keyframe && self.panelStateUncertain
    decodeUs := Bounded.saturatingAdd u32Max decodeUs
      (durationUs timing.applyElapsed)
    decodedBytes := frame.decodedBytes
    damageHint := frame.regions.map (·.rect) ++
      (self.pending.map (·.damageHint)).getD [] }

def commitTimed (self : DisplayCore) (frame : ValidatedFrame)
    (contentClass : ContentClass) (timing : Timing) (decodeUs : Nat) :
    Res CoreError (CommitReport × DisplayCore) :=
  if self.pendingIsSettled then .error .settledBarrier
  else if frame.frameId = 0 ∨ frame.frameId ≤ self.logicalFrameId then
    .error .badFrameId
  else if frame.pixelFormat ≠ self.base.format then .error .pixelFormat
  else if frame.baseFrameId ≠ 0 ∧
      (!self.baseValid ∨ frame.baseFrameId ≠ self.logicalFrameId) then
    .error .needKeyframe
  else do
    let base ←
      (self.base.applyRegionsAtomic frame.regions).mapError CoreError.surface
    let pending := self.nextPending frame contentClass timing decodeUs
    return ({ logicalFrameId := frame.frameId
              superseded :=
                self.pending.map (supersededTerminal timing.now) },
            { self with
              base
              logicalFrameId := frame.frameId
              baseValid := true
              pending := some pending })

def cancelledTerminal (pending : PendingPresentation) : TerminalFrame where
  frameId := pending.frameId
  outcome := .cancelled
  metrics := { decodeUs := pending.decodeUs }

def cancelPending (self : DisplayCore) : Option TerminalFrame × DisplayCore :=
  (self.pending.map cancelledTerminal, { self with pending := none })

/-- Preserve monotonic frame ids; only a fresh keyframe may resume. -/
def freezePresented (self : DisplayCore) : Option TerminalFrame × DisplayCore :=
  let (terminal, core) := self.cancelPending
  (terminal, { core with base := core.presentedBase, baseValid := false })

def deadlineOf (self : DisplayCore) (pending : PendingPresentation) : Duration :=
  let fpsDue :=
    match self.lastPresentAt with
    | none => pending.acceptedAt
    | some last => min (last + self.frameInterval) durationMax
  if pending.intent = .settled then
    min fpsDue (min (pending.acceptedAt + self.settledDeadline) durationMax)
  else fpsDue

def nextDeadline (self : DisplayCore) : Option Duration :=
  self.pending.map self.deadlineOf

def adaptiveCleanupDue (self : DisplayCore) (now : Duration) : Bool :=
  match adaptiveCleanup self.refreshPolicy.config.profile with
  | none => false
  | some (screenEquivalents, idle) =>
      self.presentedFrameId != 0 &&
        Bounded.saturatingMul u64Max
          (Bounded.saturatingMul u64Max self.width self.height)
          screenEquivalents ≤ self.partialDamagePixelsSinceCleanup &&
        self.lastPartialAt.any fun last => idle ≤ now - last

def recordPanelDamage (self : DisplayCore) (decision : RefreshDecision)
    (damage : List Rect) (now : Duration) : DisplayCore :=
  if decision.completeRefresh then
    { self with partialDamagePixelsSinceCleanup := 0, lastPartialAt := none }
  else
    { self with
      partialDamagePixelsSinceCleanup :=
        Bounded.saturatingAdd u64Max self.partialDamagePixelsSinceCleanup
          (Core.damagePixels damage)
      lastPartialAt := some now }

def markPanelFailure (self : DisplayCore) : DisplayCore :=
  { self with
    baseValid := false
    logicalFrameId := 0
    panelStateUncertain := true
    settleDamage := []
    fastUpdatesSinceSettled := 0 }

/-- Add damage to the settle debt. -/
def addSettleDebt (self : DisplayCore) (damage : List Rect)
    (physicalSubmissions : Nat) : Res CoreError DisplayCore := do
  let settleDamage ←
    (mergeTiledDamage self.width self.height self.damageTile self.settleDamage
      damage).mapError CoreError.surface
  return { self with
    settleDamage
    fastUpdatesSinceSettled :=
      Bounded.saturatingAdd u32Max self.fastUpdatesSinceSettled
        physicalSubmissions }

def clearSettleDebt (self : DisplayCore) : DisplayCore :=
  { self with settleDamage := [], fastUpdatesSinceSettled := 0 }

/-- A complete refresh succeeded. -/
def disarmCleanup (self : DisplayCore) (decision : RefreshDecision) :
    DisplayCore :=
  if decision.completeRefresh then { self with forceCleanupNext := false }
  else self

/-- The base under the peer overlay and the ink.  The copy that the source
avoids when both are transparent has the same pixels. -/
def composeBase (self : DisplayCore) : SurfaceRes PixelSurface :=
  if self.peerOverlay.transparent && self.ink.transparent then .ok self.base
  else do
    let withPeer ← self.base.compose self.peerOverlay
    withPeer.compose self.ink

/-- Compose all planes into the working surface. -/
def composeWorking (self : DisplayCore) (working : PixelSurface)
    (regions : List Rect) : SurfaceRes PixelSurface := do
  let composed ← self.composeBase
  composed.composeRegionsInto self.overlay working regions

/-- A presentation ready for the panel: the new working surface, what changed
on it, and how to refresh. -/
structure Prepared where
  working : PixelSurface
  damage : List Rect
  decision : RefreshDecision
deriving DecidableEq

/-- The regions a frame has to compose. -/
def composeRegions (self : DisplayCore) (pending : PendingPresentation) :
    List Rect :=
  (if pending.forceFullDamage then fullDamage self.width self.height
    else pending.damageHint) ++
  (if pending.intent = .settled then self.settleDamage else [])

/-- Is the fast debt a reason to refresh everything at this frame? -/
def staticCleanupDue (self : DisplayCore) (pending : PendingPresentation) :
    Bool :=
  let threshold := self.refreshPolicy.config.staticCleanupAfterFastUpdates
  !(pending.forceCleanup || self.forceCleanupNext) &&
    pending.intent == .settled && !self.settleDamage.isEmpty &&
    0 < threshold && threshold ≤ self.fastUpdatesSinceSettled

def frameDecision (self : DisplayCore) (pending : PendingPresentation)
    (damage : List Rect) : RefreshDecision :=
  let forceCleanup := pending.forceCleanup || self.forceCleanupNext
  let staticDue := self.staticCleanupDue pending
  let decision := self.refreshPolicy.decide pending.intent pending.contentClass
    (Core.damagePixels damage) (self.width * self.height)
    (forceCleanup || staticDue)
  if staticDue && decision.fullRefreshReason == .forced then
    { decision with fullRefreshReason := .staticFastDebt }
  else decision

/-- What a frame changed on the composed regions. -/
def changedDamage (self : DisplayCore) (pending : PendingPresentation)
    (working : PixelSurface) : SurfaceRes (List Rect) :=
  if pending.forceFullDamage then .ok (fullDamage self.width self.height)
  else
    tileDamageRegions self.presented working self.damageTile
      (self.composeRegions pending)

/-- A SETTLED frame also repaints the settle debt. -/
def decisionDamage (self : DisplayCore) (pending : PendingPresentation)
    (changed : List Rect) : SurfaceRes (List Rect) :=
  if pending.intent = .settled then
    mergeTiledDamage self.width self.height self.damageTile self.settleDamage
      changed
  else .ok changed

/-- Everything a frame presentation computes before it calls the panel. -/
def prepareFrame (self : DisplayCore) (pending : PendingPresentation) :
    SurfaceRes Prepared := do
  let working ← self.composeWorking self.working (self.composeRegions pending)
  let changed ← self.changedDamage pending working
  let damage ← self.decisionDamage pending changed
  let decision := self.frameDecision pending damage
  if decision.completeRefresh then
    let full := fullDamage self.width self.height
    let working ← self.composeWorking working full
    return { working, damage := full, decision }
  else return { working, damage, decision }

/-- The core and the panel it drives. -/
structure World where
  core : DisplayCore
  panel : Panel

abbrev CoreProc (α : Type) := Proc World CoreError α

def getCore : CoreProc DisplayCore := do
  let world ← Proc.get
  return world.core

def setCore (core : DisplayCore) : CoreProc Unit :=
  Proc.modify fun world => { world with core }

/-- Pump the panel and say whether that succeeded. -/
def pump : CoreProc Bool := do
  let world ← Proc.get
  Proc.set { world with panel := world.panel.afterPump }
  return world.panel.nextPump

/-- Submit to the panel; there are metrics exactly if that succeeded. -/
def submit (origin : Origin) (pixels : PixelSurface) (damage : List Rect)
    (decision : RefreshDecision) : CoreProc (Option PanelSubmissionMetrics) := do
  let world ← Proc.get
  Proc.set { world with
    panel := world.panel.afterSubmit origin pixels damage decision }
  return world.panel.nextSubmit

/-- Metrics of a frame whose presentation was prepared. -/
def frameMetrics (pending : PendingPresentation) (prepared : Prepared)
    (timing : Timing) : PresentationMetrics where
  decodeUs := pending.decodeUs
  queueUs := durationUs (timing.now - pending.acceptedAt)
  presentUs := durationUs timing.presentElapsed
  composeUs := durationUs timing.composeElapsed
  damagePixels := min (Core.damagePixels prepared.damage) u32Max
  damageRegions := min prepared.damage.length u32Max
  waveform := prepared.decision.waveform.number
  completeRefresh := prepared.decision.completeRefresh
  fullRefreshReason := prepared.decision.fullRefreshReason

/-- The pump before a frame failed. -/
def pumpFailedTerminal (pending : PendingPresentation) (now : Duration) :
    TerminalFrame where
  frameId := pending.frameId
  outcome := .backendFailure
  metrics :=
    { decodeUs := pending.decodeUs
      queueUs := durationUs (now - pending.acceptedAt) }

/-- The composed pixels already match the panel. -/
def presentedUnchanged (self : DisplayCore) (pending : PendingPresentation)
    (prepared : Prepared) (now : Duration) : DisplayCore :=
  { self with
    pending := none
    working := prepared.working
    presentedFrameId := pending.frameId
    presentedBase := self.base
    lastPresentAt := some now }

/-- The panel refused the frame. -/
def presentRefused (self : DisplayCore) : DisplayCore :=
  { self with pending := none, working := self.presented }.markPanelFailure

/-- Which debt a presented frame leaves. -/
def settleFrameDebt (self : DisplayCore) (pending : PendingPresentation)
    (prepared : Prepared) (physicalSubmissions : Nat) :
    Res CoreError DisplayCore :=
  if prepared.decision.completeRefresh || pending.intent == .settled then
    .ok self.clearSettleDebt
  else
    match prepared.decision.waveform with
    | .fastest | .fast => self.addSettleDebt prepared.damage physicalSubmissions
    | .quality | .fullQuality => .ok self

/-- The panel accepted the frame: the surfaces are swapped, and the damage is
copied so that both agree again. -/
def presentAccepted (self : DisplayCore) (pending : PendingPresentation)
    (prepared : Prepared) (physicalSubmissions : Nat) (now : Duration) :
    Res CoreError DisplayCore := do
  let recorded :=
    self.recordPanelDamage prepared.decision prepared.damage now
  let working ← (self.presented.copyRegionsFrom prepared.working
    prepared.damage).mapError CoreError.surface
  let core := { recorded with
    pending := none
    presented := prepared.working
    working
    presentedFrameId := pending.frameId
    presentedBase := self.base
    lastPresentAt := some now
    panelStateUncertain := false
    refreshPolicy := self.refreshPolicy.presentedSubmissions prepared.decision
      physicalSubmissions }
  let settled ← core.settleFrameDebt pending prepared physicalSubmissions
  return settled.disarmCleanup prepared.decision

/-- Present a prepared frame. -/
def presentFrame (timing : Timing) (pending : PendingPresentation)
    (prepared : Prepared) : CoreProc (List TerminalFrame) := do
  let core ← getCore
  let metrics := frameMetrics pending prepared timing
  if prepared.damage.isEmpty then
    setCore (core.presentedUnchanged pending prepared timing.now)
    return [{ frameId := pending.frameId, outcome := .presented, metrics }]
  else
    match ← submit (.frame pending.frameId pending.intent) prepared.working
        prepared.damage prepared.decision with
    | none =>
        setCore core.presentRefused
        return [{ frameId := pending.frameId
                  outcome := .backendFailure
                  metrics }]
    | some panelMetrics =>
        let after ← Proc.ofRes id (core.presentAccepted pending prepared
          panelMetrics.physicalSubmissions timing.now)
        setCore after
        return [{ frameId := pending.frameId
                  outcome := .presented
                  metrics := { metrics with
                    convertUs := panelMetrics.convertUs
                    submitUs := panelMetrics.submitUs } }]

/-- Advance the pending frame, if it is due or the deadline is ignored. -/
def tickInner (timing : Timing) (ignoreDeadline : Bool) :
    CoreProc (List TerminalFrame) := do
  let core ← getCore
  match core.pending with
  | none => return []
  | some pending =>
      if !ignoreDeadline && timing.now < core.deadlineOf pending then return []
      else if !(← pump) then
        setCore { core.markPanelFailure with pending := none }
        return [pumpFailedTerminal pending timing.now]
      else
        setCore { core with pending := none }
        let prepared ← Proc.ofRes CoreError.surface (core.prepareFrame pending)
        presentFrame timing pending prepared

/-- The area a plane presentation redraws: for ink its dirty rectangle, which
is consumed. -/
def takePlaneRegions (self : DisplayCore) (intent : FrameIntent) :
    List Rect × DisplayCore :=
  if intent = .latest then
    let (dirty, ink) := self.ink.takeDirty
    (dirty.toList, { self with ink })
  else (fullDamage self.width self.height, self)

/-- Redraw an area from the base and the planes. -/
def redrawPlanes (self : DisplayCore) (regions : List Rect) :
    SurfaceRes PixelSurface := do
  let working ← self.working.copyRegionsFrom self.base regions
  let working ← working.blendRegions self.peerOverlay regions
  let working ← working.blendRegions self.ink regions
  working.blendRegions self.overlay regions

/-- Does the working surface differ from the presented one in a rectangle?
Pen damage keeps its exact bounds. -/
def planeDamage (self : DisplayCore) (intent : FrameIntent)
    (regions : List Rect) : SurfaceRes (List Rect) :=
  if intent = .latest then
    Res.filterMap (fun rect => do
      let changed ← changedIn self.presented self.working rect
      return if changed then some rect else none) regions
  else
    tileDamageRegions self.presented self.working self.damageTile regions

def planeDecision (self : DisplayCore) (intent : FrameIntent)
    (damage : List Rect) : RefreshDecision :=
  if intent = .latest then
    { waveform := self.inkWaveform
      completeRefresh := false
      fullRefreshReason := .none }
  else
    self.refreshPolicy.decide intent .textUi (Core.damagePixels damage)
      (self.width * self.height) false

def planeOrigin (intent : FrameIntent) : Origin :=
  if intent = .latest then .ink else .overlay

/-- The panel accepted a local plane. -/
def planeAccepted (self : DisplayCore) (damage : List Rect)
    (decision : RefreshDecision) (physicalSubmissions : Nat) (now : Duration) :
    Res CoreError DisplayCore := do
  let recorded := self.recordPanelDamage decision damage now
  let presented ← (self.presented.copyRegionsFrom self.working damage).mapError
    CoreError.surface
  let core := { recorded with
    presented
    lastPresentAt := some now
    panelStateUncertain := false
    refreshPolicy :=
      self.refreshPolicy.presentedSubmissions decision physicalSubmissions
    }.disarmCleanup decision
  if decision.completeRefresh || decision.waveform != .fastest then
    return core.clearSettleDebt
  else core.addSettleDebt damage physicalSubmissions

/-- Submit a redrawn plane.  A refusal is returned as an error. -/
def submitPlane (timing : Timing) (intent : FrameIntent) (damage : List Rect) :
    CoreProc Unit := do
  let core ← getCore
  let decision := core.planeDecision intent damage
  let damage := RefreshPolicy.damageForDecision decision core.width core.height
    damage
  match ← submit (planeOrigin intent) core.working damage decision with
  | none => Proc.throw .panel
  | some panelMetrics => do
      let after ← Proc.ofRes id (core.planeAccepted damage decision
        panelMetrics.physicalSubmissions timing.now)
      setCore after

/-- Draw and present a local plane, after the pending frame was flushed. -/
def drawPlane (timing : Timing) (intent : FrameIntent) : CoreProc Unit := do
  let core ← getCore
  let (regions, taken) := core.takePlaneRegions intent
  setCore taken
  if regions.isEmpty then return ()
  else
    let working ← Proc.ofRes CoreError.surface (taken.redrawPlanes regions)
    let drawn := { taken with working }
    setCore drawn
    let damage ← Proc.ofRes CoreError.surface (drawn.planeDamage intent regions)
    if damage.isEmpty then return ()
    else submitPlane timing intent damage

/-- Present a local plane.  Pending remote work is completed first. -/
def presentPlane (timing : Timing) (intent : FrameIntent) :
    CoreProc (List TerminalFrame) := do
  let core ← getCore
  let terminals ←
    if core.pending.isSome then tickInner timing true else pure []
  drawPlane timing intent
  return terminals

def presentOverlay (timing : Timing) : CoreProc (List TerminalFrame) :=
  presentPlane timing .settled

def presentInk (timing : Timing) : CoreProc (List TerminalFrame) :=
  presentPlane timing .latest

/-- How a maintenance refresh of the presented image is submitted. -/
def cleanupDecision (self : DisplayCore) : RefreshDecision :=
  self.refreshPolicy.decide .settled .mixed (self.width * self.height)
    (self.width * self.height) true

/-- The panel accepted the maintenance refresh. -/
def cleanupAccepted (self : DisplayCore) (now : Duration) : DisplayCore :=
  let decision := self.cleanupDecision
  { ({ self with
        lastPresentAt := some now
        panelStateUncertain := false
        refreshPolicy := self.refreshPolicy.presented decision
        }.recordPanelDamage decision (fullDamage self.width self.height) now)
    with forceCleanupNext := false }.clearSettleDebt

def cleanupFailed : CoreProc CleanupReport := do
  let core ← getCore
  setCore core.markPanelFailure
  return { cleanupPerformed := false
           cleanupPending := true
           backendFailed := true
           terminals := [] }

/-- Resubmit the presented image. -/
def resubmitPresented (timing : Timing) : CoreProc CleanupReport := do
  if !(← pump) then cleanupFailed
  else
    let core ← getCore
    match ← submit .cleanup core.presented (fullDamage core.width core.height)
        core.cleanupDecision with
    | none => cleanupFailed
    | some _ =>
        setCore (core.cleanupAccepted timing.now)
        return { cleanupPerformed := true
                 cleanupPending := false
                 backendFailed := false
                 terminals := [] }

/-- Request one complete refresh.  A pending frame is completed at once;
otherwise the presented image is resubmitted, if there is one. -/
def requestCleanup (timing : Timing) : CoreProc CleanupReport := do
  let core ← getCore
  setCore core.requireCleanup
  if core.pending.isSome then
    let terminals ← tickInner timing true
    let after ← getCore
    return { cleanupPerformed := terminals.any fun terminal =>
               terminal.outcome == .presented && terminal.metrics.completeRefresh
             cleanupPending := after.forceCleanupNext
             backendFailed := terminals.any (·.outcome == .backendFailure)
             terminals }
  else if core.presentedFrameId = 0 then
    return { cleanupPerformed := false
             cleanupPending := true
             backendFailed := false
             terminals := [] }
  else resubmitPresented timing

def changeRefreshProfile (config : RefreshPolicyConfig) (timing : Timing) :
    CoreProc RefreshProfileChange := do
  let core ← getCore
  let (changed, configured) ← Proc.ofRes id (core.updateRefreshConfig config)
  setCore configured
  let cleanup ←
    if changed || configured.forceCleanupNext then requestCleanup timing
    else
      pure { cleanupPerformed := false
             cleanupPending := false
             backendFailed := false
             terminals := [] }
  return { config
           changed
           cleanupPerformed := cleanup.cleanupPerformed
           cleanupPending := cleanup.cleanupPending
           backendFailed := cleanup.backendFailed
           terminals := cleanup.terminals }

def tickWithoutIdleCleanup (timing : Timing) : CoreProc (List TerminalFrame) :=
  tickInner timing false

/-- Is an automatic cleanup due that has not just failed? -/
def idleCleanupDue (self : DisplayCore) (now : Duration) : Bool :=
  self.pending.isNone && self.adaptiveCleanupDue now &&
    self.lastIdleCleanupFailure.all fun last => Duration.ofSecs 5 ≤ now - last

def tickInteractive (timing : Timing) (interactionIdle : Bool) :
    CoreProc (List TerminalFrame) := do
  let core ← getCore
  if interactionIdle && core.idleCleanupDue timing.now then
    let report ← requestCleanup timing
    let after ← getCore
    setCore { after with
      lastIdleCleanupFailure :=
        if report.backendFailed then some timing.now else none }
    return report.terminals
  else tickInner timing false

def tick (timing : Timing) : CoreProc (List TerminalFrame) :=
  tickInteractive timing true

end DisplayCore

end RmDisplay.Core
