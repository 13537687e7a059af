import RmDisplay.Core.Refresh

/-!
# The panel

The panel is outside the program.  It answers each call with success or
failure, so a panel is a reply for every call, and the calls made so far are
recorded.
-/

namespace RmDisplay.Core

open Foundation Protocol

structure PanelInfo where
  width : Nat
  height : Nat
  /-- True only when the backend can preserve RGB565 colour. -/
  colorRgb565 : Bool
deriving DecidableEq, Repr

structure PanelSubmissionMetrics where
  convertUs : Nat := 0
  submitUs : Nat := 0
  /-- Number of physical updates accepted by the backend. -/
  physicalSubmissions : Nat := 0
deriving DecidableEq, Repr

/-- Which presentation a submission belongs to.  The record of calls keeps it
for the theorems; the panel does not see it. -/
inductive Origin where
  | frame (frameId : Nat) (intent : FrameIntent)
  | overlay
  | ink
  | cleanup
  | fallback
deriving DecidableEq, Repr

structure Submission where
  origin : Origin
  pixels : PixelSurface
  damage : List Rect
  decision : RefreshDecision
  reply : Option PanelSubmissionMetrics
deriving DecidableEq

inductive PanelCall where
  | pump (accepted : Bool)
  | submit (submission : Submission)
deriving DecidableEq

structure Panel where
  info : PanelInfo
  /-- Does the call with this number succeed, if it is a pump? -/
  pumpReply : Nat → Bool
  /-- The metrics of the call with this number, if it is a submission and
  succeeds. -/
  submitReply : Nat → Option PanelSubmissionMetrics
  /-- All calls so far, the latest first. -/
  calls : List PanelCall

namespace Panel

def nextPump (self : Panel) : Bool := self.pumpReply self.calls.length

def nextSubmit (self : Panel) : Option PanelSubmissionMetrics :=
  self.submitReply self.calls.length

def afterPump (self : Panel) : Panel :=
  { self with calls := .pump self.nextPump :: self.calls }

def afterSubmit (self : Panel) (origin : Origin) (pixels : PixelSurface)
    (damage : List Rect) (decision : RefreshDecision) : Panel :=
  { self with
    calls := .submit ⟨origin, pixels, damage, decision, self.nextSubmit⟩ ::
      self.calls }

/-- A panel whose calls always succeed. -/
structure Reliable (panel : Panel) : Prop where
  pumps : ∀ call, panel.pumpReply call = true
  submits : ∀ call, (panel.submitReply call).isSome = true

namespace Reliable

variable {panel : Panel} (reliable : panel.Reliable)

include reliable

theorem pumped : panel.nextPump = true := reliable.pumps _

theorem submitted : panel.nextSubmit ≠ none :=
  Option.isSome_iff_ne_none.mp (reliable.submits _)

theorem afterPump : panel.afterPump.Reliable :=
  ⟨reliable.pumps, reliable.submits⟩

theorem afterSubmit (origin : Origin) (pixels : PixelSurface)
    (damage : List Rect) (decision : RefreshDecision) :
    (panel.afterSubmit origin pixels damage decision).Reliable :=
  ⟨reliable.pumps, reliable.submits⟩

end Reliable

/-- From now on all calls succeed. -/
def Willing (panel : Panel) : Prop :=
  ∀ call, panel.calls.length ≤ call →
    panel.pumpReply call = true ∧ (panel.submitReply call).isSome = true

theorem Reliable.willing {panel : Panel} (reliable : panel.Reliable) :
    panel.Willing :=
  fun call _ => ⟨reliable.pumps call, reliable.submits call⟩

namespace Willing

variable {panel : Panel} (willing : panel.Willing)

include willing

theorem pumped : panel.nextPump = true := (willing _ (Nat.le_refl _)).1

theorem submitted : panel.nextSubmit ≠ none :=
  Option.isSome_iff_ne_none.mp (willing _ (Nat.le_refl _)).2

theorem afterPump : panel.afterPump.Willing :=
  fun call later => willing call (Nat.le_of_succ_le later)

theorem afterSubmit (origin : Origin) (pixels : PixelSurface)
    (damage : List Rect) (decision : RefreshDecision) :
    (panel.afterSubmit origin pixels damage decision).Willing :=
  fun call later => willing call (Nat.le_of_succ_le later)

end Willing

end Panel

end RmDisplay.Core
