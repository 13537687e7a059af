import RmDisplay.Core.Settings
import RmDisplay.Receiver.Conduct

/-!
# Numbers and settings of a session

An envelope takes its message id when it is built, an input batch its sequence
number, and an overlay update its own when it is applied.  The numbers of the
envelopes a procedure returns climb from what the session had counted before
to what it has counted afterwards.

Most procedures also keep the refresh settings: those of the session, and
their copy in the core of the active surface.
-/

namespace RmDisplay.Receiver

open Foundation Protocol RmDisplay.Core Core.DisplayCore

def inputNumber : Body → Option Nat
  | .inputBatch batch => some batch.sequence
  | _ => none

/-- The sequence number of an update that was applied. -/
def appliedNumber : Body → Option Nat
  | .overlayResult result =>
      if result.applied then some result.sequence else none
  | _ => none

/-- Numbers that increase strictly from `low` on and stay below `high`. -/
structure Climbs (low high : Nat) (numbers : List Nat) : Prop where
  ordered : low ≤ high
  increasing : numbers.Pairwise (· < ·)
  within : ∀ number ∈ numbers, low ≤ number ∧ number < high

namespace Climbs

variable {low middle high : Nat} {numbers more : List Nat}

theorem nil (ordered : low ≤ high) : Climbs low high [] :=
  ⟨ordered, .nil, fun _ missing => nomatch missing⟩

theorem single (number : Nat) : Climbs number (number + 1) [number] where
  ordered := Nat.le_succ number
  increasing := List.pairwise_singleton _ _
  within := fun other member => by
    rw [List.mem_singleton.mp member]
    omega

theorem append (earlier : Climbs low middle numbers)
    (later : Climbs middle high more) : Climbs low high (numbers ++ more) where
  ordered := Nat.le_trans earlier.ordered later.ordered
  increasing := by
    refine List.pairwise_append.mpr
      ⟨earlier.increasing, later.increasing, ?_⟩
    intro left isLeft right isRight
    have below := (earlier.within left isLeft).2
    have above := (later.within right isRight).1
    omega
  within := fun number member => by
    have first := earlier.ordered
    have second := later.ordered
    rcases List.mem_append.mp member with old | new
    · have bounds := earlier.within number old
      omega
    · have bounds := later.within number new
      omega

theorem sublist (climbs : Climbs low high numbers)
    (kept : more.Sublist numbers) : Climbs low high more where
  ordered := climbs.ordered
  increasing := climbs.increasing.sublist kept
  within := fun number member => climbs.within number (kept.subset member)

end Climbs

def messageIds (envelopes : List Envelope) : List Nat :=
  envelopes.map (·.messageId)

def inputNumbers (envelopes : List Envelope) : List Nat :=
  (bodies envelopes).filterMap inputNumber

def appliedNumbers (envelopes : List Envelope) : List Nat :=
  (bodies envelopes).filterMap appliedNumber

section

variable {first rest kept envelopes : List Envelope}

theorem messageIds_append :
    messageIds (first ++ rest) = messageIds first ++ messageIds rest :=
  List.map_append

theorem inputNumbers_append :
    inputNumbers (first ++ rest) = inputNumbers first ++ inputNumbers rest := by
  unfold inputNumbers
  rw [bodies_append, List.filterMap_append]

theorem appliedNumbers_append :
    appliedNumbers (first ++ rest) =
      appliedNumbers first ++ appliedNumbers rest := by
  unfold appliedNumbers
  rw [bodies_append, List.filterMap_append]

theorem bodies_sublist (sub : kept.Sublist envelopes) :
    (bodies kept).Sublist (bodies envelopes) := sub.filterMap _

end

namespace Session

/-- How many envelopes were built, whether or not they were returned. -/
def built (self : Session) : Nat :=
  (self.journal.filterMap (·.entry.body)).length

/-- The message ids follow the envelopes, and there is at most one input batch
to an envelope. -/
structure Numbered (session : Session) : Prop where
  message : session.nextOutgoingMessageId = session.built + 1
  first : 1 ≤ session.nextInputSequence
  input : session.nextInputSequence ≤ session.built + 1

/-- The core of the active surface has the settings of the session. -/
def Agrees (self : Session) : Prop :=
  ∀ surface ∈ self.surface, surface.core.settings =
    (self.config.refreshPolicy, self.config.refreshPolicy.damageTile)

/-- Refresh settings that are valid and the same everywhere. -/
structure Policied (session : Session) : Prop where
  valid : session.config.refreshPolicy.validate = .ok ()
  custom : ∀ custom ∈ session.lastCustomProfile, custom.validate = .ok ()
  agrees : session.Agrees

def counters (self : Session) : Nat × Nat × Nat :=
  (self.built, self.nextOutgoingMessageId, self.nextInputSequence)

/-- What counts and sets, apart from the surface. -/
def ledger (self : Session) :
    (Nat × Nat × Nat) × Nat × RefreshPolicyConfig × Option RefreshPolicyConfig :=
  (self.counters, self.overlaySequence, self.config.refreshPolicy,
    self.lastCustomProfile)

end Session

/-- As long as fewer than `2 ^ 32 - 1` envelopes were built, the numbers of the
envelopes climb. -/
structure Counts (before : Session) (envelopes : List Envelope)
    (after : Session) : Prop where
  built : before.built ≤ after.built
  numbered : after.built < u32Max → before.Numbered → after.Numbered
  messages : after.built < u32Max → before.Numbered →
    Climbs before.nextOutgoingMessageId after.nextOutgoingMessageId
      (messageIds envelopes)
  inputs : after.built < u32Max → before.Numbered →
    Climbs before.nextInputSequence after.nextInputSequence
      (inputNumbers envelopes)

/-- The session counts, applies no overlay update, and keeps its settings. -/
structure Steady (before : Session) (envelopes : List Envelope)
    (after : Session) : Prop where
  counts : Counts before envelopes after
  overlay : after.overlaySequence = before.overlaySequence
  applied : appliedNumbers envelopes = []
  policy : after.config.refreshPolicy = before.config.refreshPolicy
  custom : after.lastCustomProfile = before.lastCustomProfile
  agrees : before.Agrees → after.Agrees

/-- The session counts, and its settings stay valid. -/
structure Orderly (before : Session) (envelopes : List Envelope)
    (after : Session) : Prop where
  counts : Counts before envelopes after
  applied : Climbs (before.overlaySequence + 1) (after.overlaySequence + 1)
    (appliedNumbers envelopes)
  policied : before.Policied → after.Policied

/-- The session also remembers the same custom profile. -/
structure Lively (before : Session) (envelopes : List Envelope)
    (after : Session) : Prop extends Orderly before envelopes after where
  custom : after.lastCustomProfile = before.lastCustomProfile

namespace Counts

variable {first second third : Session} {envelopes more kept : List Envelope}

theorem trans (earlier : Counts first envelopes second)
    (later : Counts second more third) :
    Counts first (envelopes ++ more) third := by
  have few (small : third.built < u32Max) : second.built < u32Max :=
    Nat.lt_of_le_of_lt later.built small
  refine ⟨Nat.le_trans earlier.built later.built, ?_, ?_, ?_⟩
  · intro small numbered
    exact later.numbered small (earlier.numbered (few small) numbered)
  · intro small numbered
    rw [messageIds_append]
    exact (earlier.messages (few small) numbered).append
      (later.messages small (earlier.numbered (few small) numbered))
  · intro small numbered
    rw [inputNumbers_append]
    exact (earlier.inputs (few small) numbered).append
      (later.inputs small (earlier.numbered (few small) numbered))

theorem drop (counts : Counts first envelopes second)
    (sub : kept.Sublist envelopes) : Counts first kept second where
  built := counts.built
  numbered := counts.numbered
  messages := fun small numbered =>
    (counts.messages small numbered).sublist (sub.map _)
  inputs := fun small numbered =>
    (counts.inputs small numbered).sublist ((bodies_sublist sub).filterMap _)

/-- Nothing is counted. -/
theorem quiet (same : second.counters = first.counters) :
    Counts first [] second := by
  simp only [Session.counters, Prod.mk.injEq] at same
  obtain ⟨built, message, input⟩ := same
  refine ⟨Nat.le_of_eq built.symm, ?_, ?_, ?_⟩
  · rintro _ ⟨isMessage, isFirst, isInput⟩
    rw [← built, ← message, ← input] at *
    exact ⟨isMessage, isFirst, isInput⟩
  · exact fun _ _ => .nil (Nat.le_of_eq message.symm)
  · exact fun _ _ => .nil (Nat.le_of_eq input.symm)

end Counts

namespace Steady

variable {first second third : Session} {envelopes more kept : List Envelope}

/-- Nothing is counted, and the settings stay. -/
theorem quiet (same : second.ledger = first.ledger)
    (agrees : first.Agrees → second.Agrees) : Steady first [] second where
  counts := .quiet (congrArg (·.1) same)
  overlay := congrArg (·.2.1) same
  applied := rfl
  policy := congrArg (·.2.2.1) same
  custom := congrArg (·.2.2.2) same
  agrees

/-- The active surface stays, or there is none any more. -/
theorem still (same : second.ledger = first.ledger)
    (shown : ∀ surface ∈ second.surface, ∃ earlier ∈ first.surface,
      surface.core.settings = earlier.core.settings) :
    Steady first [] second := by
  refine quiet same fun agrees surface isShown => ?_
  obtain ⟨earlier, wasShown, settings⟩ := shown surface isShown
  have policy : second.config.refreshPolicy = first.config.refreshPolicy :=
    congrArg (·.2.2.1) same
  rw [settings, policy]
  exact agrees earlier wasShown

theorem refl (session : Session) : Steady session [] session :=
  still rfl fun surface shown => ⟨surface, shown, rfl⟩

theorem trans (earlier : Steady first envelopes second)
    (later : Steady second more third) :
    Steady first (envelopes ++ more) third where
  counts := earlier.counts.trans later.counts
  overlay := later.overlay.trans earlier.overlay
  applied := by
    rw [appliedNumbers_append, earlier.applied, later.applied, List.nil_append]
  policy := later.policy.trans earlier.policy
  custom := later.custom.trans earlier.custom
  agrees := fun agrees => later.agrees (earlier.agrees agrees)

theorem drop (steady : Steady first envelopes second)
    (sub : kept.Sublist envelopes) : Steady first kept second where
  counts := steady.counts.drop sub
  overlay := steady.overlay
  applied := by
    have applied := steady.applied
    have none := (bodies_sublist sub).filterMap appliedNumber
    unfold appliedNumbers at applied ⊢
    rw [applied] at none
    exact List.sublist_nil.mp none
  policy := steady.policy
  custom := steady.custom
  agrees := steady.agrees

theorem lively (steady : Steady first envelopes second) :
    Lively first envelopes second where
  counts := steady.counts
  applied := by
    rw [steady.applied, steady.overlay]
    exact .nil (Nat.le_refl _)
  policied := fun policied => by
    refine ⟨?_, ?_, steady.agrees policied.agrees⟩
    · rw [steady.policy]
      exact policied.valid
    · rw [steady.custom]
      exact policied.custom
  custom := steady.custom

end Steady

namespace Orderly

variable {first second third : Session} {envelopes more kept : List Envelope}

theorem trans (earlier : Orderly first envelopes second)
    (later : Orderly second more third) :
    Orderly first (envelopes ++ more) third where
  counts := earlier.counts.trans later.counts
  applied := by
    rw [appliedNumbers_append]
    exact earlier.applied.append later.applied
  policied := fun policied => later.policied (earlier.policied policied)

theorem drop (orderly : Orderly first envelopes second)
    (sub : kept.Sublist envelopes) : Orderly first kept second where
  counts := orderly.counts.drop sub
  applied := orderly.applied.sublist ((bodies_sublist sub).filterMap _)
  policied := orderly.policied

/-- The settings change, and nothing is counted. -/
theorem resets (same : second.counters = first.counters)
    (overlay : second.overlaySequence = first.overlaySequence)
    (policied : first.Policied → second.Policied) :
    Orderly first [] second where
  counts := .quiet same
  applied := by
    rw [overlay]
    exact .nil (Nat.le_refl _)
  policied

end Orderly

namespace Lively

variable {first second third : Session} {envelopes more kept : List Envelope}

theorem trans (earlier : Lively first envelopes second)
    (later : Lively second more third) :
    Lively first (envelopes ++ more) third :=
  ⟨earlier.toOrderly.trans later.toOrderly, later.custom.trans earlier.custom⟩

theorem drop (lively : Lively first envelopes second)
    (sub : kept.Sublist envelopes) : Lively first kept second :=
  ⟨lively.toOrderly.drop sub, lively.custom⟩

end Lively

/-- What steady procedures do with the envelopes they return. -/
def steadily : Emission Session Envelope where
  rel := Steady
  refl := Steady.refl
  trans := Steady.trans
  drop := Steady.drop

/-- What procedures do that remember the custom profile. -/
def lively : Emission Session Envelope where
  rel := Lively
  refl := fun session => (Steady.refl session).lively
  trans := Lively.trans
  drop := Lively.drop

/-- What every procedure does with the envelopes it returns. -/
def orderly : Emission Session Envelope where
  rel := Orderly
  refl := fun session => (Steady.refl session).lively.toOrderly
  trans := Orderly.trans
  drop := Orderly.drop

section

variable {α : Type} {proc : SessionProc α} {given : α → List Envelope}

theorem livelyOf (emits : steadily.Emits proc given) :
    lively.Emits proc given :=
  emits.mono fun _ _ _ steady => Steady.lively steady

theorem orderlyOf (emits : lively.Emits proc given) :
    orderly.Emits proc given :=
  emits.mono fun _ _ _ lively => Lively.toOrderly lively

end

end RmDisplay.Receiver
