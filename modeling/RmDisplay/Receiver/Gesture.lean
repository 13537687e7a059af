import RmDisplay.Protocol.Message

/-!
# Touch contacts and the five-finger gesture

Reports of a touch panel, and the recognizer of the receiver-local chord that
asks for a cleanup.
-/

namespace RmDisplay.Receiver

open Foundation

/-- `evdev::PointerPhase`. -/
inductive PhysicalPhase where
  | down | move | up | cancel
deriving DecidableEq, Repr

structure PhysicalPointerEvent where
  phase : PhysicalPhase
  contactId : Nat
  x : Nat
  y : Nat
deriving DecidableEq, Repr

structure TouchGestureResult where
  forward : List PhysicalPointerEvent := []
  cancelForwarded : List PhysicalPointerEvent := []
  cleanupRequested : Bool := false
deriving DecidableEq, Repr

/-- Where each contact is, by its number. -/
abbrev Contacts := Std.TreeMap Nat (Nat × Nat)

/-- Contacts after one event. -/
def Contacts.follow (contacts : Contacts) (event : PhysicalPointerEvent) :
    Contacts :=
  match event.phase with
  | .down | .move => contacts.insert event.contactId (event.x, event.y)
  | .up | .cancel => contacts.erase event.contactId

structure FiveFingerCleanupGesture where
  active : Contacts := {}
  forwarded : Contacts := {}
  suppressUntilClear : Bool := false

namespace FiveFingerCleanupGesture

def hasActiveContacts (self : FiveFingerCleanupGesture) : Bool :=
  !self.active.isEmpty

/-- Detach the contacts a producer saw without losing the physical ones. -/
def surfaceTransition (self : FiveFingerCleanupGesture) :
    List PhysicalPointerEvent × FiveFingerCleanupGesture :=
  (self.forwarded.toList.map fun (contactId, x, y) =>
      ⟨.cancel, contactId, x, y⟩,
    { self with
      forwarded := {}
      suppressUntilClear :=
        self.suppressUntilClear || !self.active.isEmpty })

/-- Cancellations of the forwarded contacts, at the newest known places. -/
def cancelledContacts (forwarded active : Contacts) :
    List PhysicalPointerEvent :=
  forwarded.toList.map fun (contactId, old) =>
    let (x, y) := (active[contactId]?).getD old
    ⟨.cancel, contactId, x, y⟩

def process (self : FiveFingerCleanupGesture)
    (report : List PhysicalPointerEvent)
    (forwardEnabled cleanupEnabled : Bool) :
    TouchGestureResult × FiveFingerCleanupGesture :=
  let active := report.foldl Contacts.follow self.active
  if self.suppressUntilClear then
    if active.isEmpty then
      ({}, { active, forwarded := {}, suppressUntilClear := false })
    else ({}, { self with active })
  else if 5 ≤ active.size then
    ({ cancelForwarded := cancelledContacts self.forwarded active
       cleanupRequested := cleanupEnabled },
      { active, forwarded := {}, suppressUntilClear := true })
  else if !forwardEnabled then ({}, { self with active })
  else
    ({ forward := report },
      { self with
        active
        forwarded := report.foldl Contacts.follow self.forwarded })

/-- What a report may do. -/
inductive Processed (self : FiveFingerCleanupGesture)
    (report : List PhysicalPointerEvent) (forwards cleans : Bool) :
    TouchGestureResult × FiveFingerCleanupGesture → Prop where
  | released (suppressed : self.suppressUntilClear = true)
      (clear : (report.foldl Contacts.follow self.active).isEmpty = true) :
      Processed self report forwards cleans
        ({}, { active := report.foldl Contacts.follow self.active
               forwarded := {}
               suppressUntilClear := false })
  | suppressed (suppressed : self.suppressUntilClear = true)
      (held : (report.foldl Contacts.follow self.active).isEmpty = false) :
      Processed self report forwards cleans
        ({}, { self with active := report.foldl Contacts.follow self.active })
  | chord (free : self.suppressUntilClear = false)
      (five : 5 ≤ (report.foldl Contacts.follow self.active).size) :
      Processed self report forwards cleans
        ({ cancelForwarded := cancelledContacts self.forwarded
             (report.foldl Contacts.follow self.active)
           cleanupRequested := cleans },
          { active := report.foldl Contacts.follow self.active
            forwarded := {}
            suppressUntilClear := true })
  | unseen (free : self.suppressUntilClear = false)
      (few : (report.foldl Contacts.follow self.active).size < 5)
      (hidden : forwards = false) :
      Processed self report forwards cleans
        ({}, { self with active := report.foldl Contacts.follow self.active })
  | forwarded (free : self.suppressUntilClear = false)
      (few : (report.foldl Contacts.follow self.active).size < 5)
      (shown : forwards = true) :
      Processed self report forwards cleans
        ({ forward := report },
          { self with
            active := report.foldl Contacts.follow self.active
            forwarded := report.foldl Contacts.follow self.forwarded })

theorem processed (self : FiveFingerCleanupGesture)
    (report : List PhysicalPointerEvent) (forwards cleans : Bool) :
    Processed self report forwards cleans
      (self.process report forwards cleans) := by
  simp only [process]
  split
  · rename_i suppressed
    split
    · rename_i clear
      exact .released suppressed clear
    · rename_i held
      exact .suppressed suppressed (Bool.eq_false_iff.mpr held)
  · rename_i free
    rw [Bool.not_eq_true] at free
    split
    · rename_i five
      exact .chord free five
    · rename_i few
      cases forwards with
      | false => exact .unseen free (by omega) rfl
      | true => exact .forwarded free (by omega) rfl

/-- A transition forwards nothing any more. -/
theorem forwarded_surfaceTransition (self : FiveFingerCleanupGesture) :
    self.surfaceTransition.2.forwarded.isEmpty = true :=
  Std.TreeMap.isEmpty_emptyc

theorem forwarded_process {self : FiveFingerCleanupGesture}
    {report : List PhysicalPointerEvent} {cleans : Bool}
    (free : self.forwarded.isEmpty = true) :
    (self.process report false cleans).2.forwarded.isEmpty = true := by
  have processed := self.processed report false cleans
  generalize self.process report false cleans = outcome at processed ⊢
  cases processed with
  | released _ _ | chord _ _ => exact Std.TreeMap.isEmpty_emptyc
  | suppressed _ _ | unseen _ _ _ => exact free
  | forwarded _ _ shown => cases shown

theorem cancels_nothing {self : FiveFingerCleanupGesture}
    (free : self.forwarded.isEmpty = true) : self.surfaceTransition.1 = [] := by
  have none : self.forwarded.toList = [] := by
    rw [← List.isEmpty_iff, Std.TreeMap.isEmpty_toList, free]
  rw [surfaceTransition, none]
  rfl

theorem cancelledContacts_nothing {forwarded active : Contacts}
    (free : forwarded.isEmpty = true) :
    cancelledContacts forwarded active = [] := by
  have none : forwarded.toList = [] := by
    rw [← List.isEmpty_iff, Std.TreeMap.isEmpty_toList, free]
  rw [cancelledContacts, none]
  rfl

theorem process_cancels {self : FiveFingerCleanupGesture}
    {report : List PhysicalPointerEvent} {forwards cleans : Bool} :
    ∀ event ∈ (self.process report forwards cleans).1.cancelForwarded,
      event.phase = .cancel := by
  have processed := self.processed report forwards cleans
  generalize self.process report forwards cleans = outcome at processed ⊢
  cases processed with
  | chord _ _ =>
      intro event member
      obtain ⟨_, _, rfl⟩ := List.mem_map.mp member
      rfl
  | released _ _ | suppressed _ _ | unseen _ _ _ | forwarded _ _ _ =>
      exact List.forall_mem_nil _

theorem process_unseen {self : FiveFingerCleanupGesture}
    {report : List PhysicalPointerEvent} :
    (self.process report false false).1.forward = [] ∧
      (self.process report false false).1.cleanupRequested = false ∧
      (self.forwarded.isEmpty = true →
        (self.process report false false).1.cancelForwarded = []) := by
  have processed := self.processed report false false
  generalize self.process report false false = outcome at processed ⊢
  cases processed with
  | chord _ _ => exact ⟨rfl, rfl, cancelledContacts_nothing⟩
  | released _ _ | suppressed _ _ | unseen _ _ _ =>
      exact ⟨rfl, rfl, fun _ => rfl⟩
  | forwarded _ _ shown => cases shown

end FiveFingerCleanupGesture

end RmDisplay.Receiver
