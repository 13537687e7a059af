import RmDisplay.Receiver.Gesture
import RmDisplay.Receiver.TouchContacts

/-!
# Series of contacts

The number of a contact may be used again after the contact has ended, so what
is announced under one number is a sequence of contacts.  The contacts the
gesture recognizer knows are those whose latest contact has not ended.
-/

namespace RmDisplay.Receiver

/-- Contacts one after the other: each goes down, moves and ends once, and only
the last of them may not have ended yet. -/
inductive ContactSeries : List PhysicalPhase → Prop where
  | last {phases : List PhysicalPhase} (one : OneContact phases) :
      ContactSeries phases
  | next {moves : Nat} {closing : PhysicalPhase} {later : List PhysicalPhase}
      (closes : closing = .up ∨ closing = .cancel) (rest : ContactSeries later) :
      ContactSeries (.down :: (List.replicate moves .move ++ closing :: later))

/-- Whether a contact is down after one more phase, if that may come next. -/
def followContact : Bool → PhysicalPhase → Option Bool
  | false, .down => some true
  | true, .move => some true
  | true, .up | true, .cancel => some false
  | true, .down | false, _ => none

/-- Whether a contact is down after more phases. -/
def downFrom (down : Bool) (phases : List PhysicalPhase) : Option Bool :=
  phases.foldlM followContact down

theorem downFrom_append (down : Bool) (phases more : List PhysicalPhase) :
    downFrom down (phases ++ more) =
      (downFrom down phases).bind fun now => downFrom now more := by
  rw [downFrom, List.foldlM_append]
  rfl

theorem downFrom_cons (down : Bool) (phase : PhysicalPhase)
    (phases : List PhysicalPhase) :
    downFrom down (phase :: phases) =
      (followContact down phase).bind fun now => downFrom now phases := by
  rw [downFrom, List.foldlM_cons]
  rfl

theorem downFrom_front {down : Bool} {phases more : List PhysicalPhase}
    (follows : (downFrom down (phases ++ more)).isSome = true) :
    (downFrom down phases).isSome = true := by
  rw [downFrom_append] at follows
  cases reached : downFrom down phases with
  | none =>
      rw [reached] at follows
      cases follows
  | some _ => rfl

theorem downFrom_moves (moves : Nat) :
    downFrom true (List.replicate moves .move) = some true := by
  induction moves with
  | zero => rfl
  | succ moves induction =>
      rw [List.replicate_succ, downFrom_cons]
      exact induction

theorem downFrom_contact {closing : PhysicalPhase}
    (closes : closing = .up ∨ closing = .cancel) (moves : Nat)
    (later : List PhysicalPhase) :
    downFrom false
        (.down :: (List.replicate moves .move ++ closing :: later)) =
      downFrom false later := by
  rw [downFrom_cons]
  change downFrom true _ = _
  rw [downFrom_append, downFrom_moves, Option.bind_some, downFrom_cons]
  rcases closes with rfl | rfl <;> rfl

theorem ContactSeries.follows {phases : List PhysicalPhase}
    (series : ContactSeries phases) : (downFrom false phases).isSome = true := by
  induction series with
  | last one =>
      obtain ⟨moves, closing, closes, more, whole⟩ := one
      apply downFrom_front
      rw [whole, downFrom_contact closes]
      rfl
  | next closes _ induction =>
      rw [downFrom_contact closes]
      exact induction

theorem moves_of_follows {phases : List PhysicalPhase}
    (follows : (downFrom true phases).isSome = true) :
    ∃ moves, phases = List.replicate moves .move ∨
      ∃ closing later, (closing = .up ∨ closing = .cancel) ∧
        phases = List.replicate moves .move ++ closing :: later ∧
        (downFrom false later).isSome = true := by
  induction phases with
  | nil => exact ⟨0, .inl rfl⟩
  | cons phase phases induction =>
      rw [downFrom_cons] at follows
      cases phase with
      | down => cases follows
      | move =>
          obtain ⟨moves, rfl | ⟨closing, later, closes, rfl, rest⟩⟩ :=
            induction follows
          · exact ⟨moves + 1, .inl rfl⟩
          · exact ⟨moves + 1, .inr ⟨closing, later, closes, rfl, rest⟩⟩
      | up => exact ⟨0, .inr ⟨.up, phases, .inl rfl, rfl, follows⟩⟩
      | cancel => exact ⟨0, .inr ⟨.cancel, phases, .inr rfl, rfl, follows⟩⟩

theorem oneContact_of_moves (moves : Nat) :
    OneContact (.down :: List.replicate moves .move) :=
  ⟨moves, .up, .inl rfl, [.up], rfl⟩

theorem contactSeries_of_follows {phases : List PhysicalPhase}
    (follows : (downFrom false phases).isSome = true) : ContactSeries phases := by
  induction length : phases.length using Nat.strongRecOn generalizing phases with
  | ind count induction =>
      cases phases with
      | nil => exact .last ⟨0, .up, .inl rfl, List.nil_prefix⟩
      | cons phase phases =>
          rw [downFrom_cons] at follows
          cases phase with
          | down =>
              obtain ⟨moves, rfl | ⟨closing, later, closes, rfl, rest⟩⟩ :=
                moves_of_follows follows
              · exact .last (oneContact_of_moves moves)
              · refine .next closes (induction later.length ?_ rest rfl)
                rw [← length]
                simp only [List.length_cons, List.length_append]
                omega
          | move | up | cancel => cases follows

/-- A contact is down if the latest phase does not end it. -/
theorem downFrom_last {phases : List PhysicalPhase} {down : Bool}
    (follows : downFrom false phases = some down) :
    down = true ↔ phases.getLast? = some .down ∨ phases.getLast? = some .move := by
  induction phases using List.reverseRecOn with
  | nil =>
      cases follows
      simp
  | append_singleton phases last _ =>
      rw [downFrom_append] at follows
      obtain ⟨before, _, steps⟩ := Option.bind_eq_some_iff.mp follows
      rw [downFrom_cons] at steps
      rw [List.getLast?_concat]
      cases before <;> cases last <;> cases steps <;> simp

/-- The contacts on the panel after one more event. -/
def followDown (down : List Nat) (event : PhysicalPointerEvent) : List Nat :=
  let others := down.filter (· != event.contactId)
  match event.phase with
  | .down | .move => event.contactId :: others
  | .up | .cancel => others

/-- The contacts on the panel after some events. -/
def contactsDown (events : List PhysicalPointerEvent) : List Nat :=
  events.foldl followDown []

theorem contactsDown_append (events more : List PhysicalPointerEvent) :
    contactsDown (events ++ more) = more.foldl followDown (contactsDown events) :=
  List.foldl_append

/-- Is the contact down after the event, if it was as given before? -/
def downAfter (contactId : Nat) (before : Bool)
    (event : PhysicalPointerEvent) : Bool :=
  if event.contactId = contactId then
    match event.phase with
    | .down | .move => true
    | .up | .cancel => false
  else before

theorem mem_followDown {down : List Nat} {event : PhysicalPointerEvent}
    {contactId : Nat} :
    contactId ∈ followDown down event ↔
      downAfter contactId (decide (contactId ∈ down)) event = true := by
  unfold followDown downAfter
  by_cases same : event.contactId = contactId
  · subst same
    cases event.phase <;> simp
  · have other : contactId ≠ event.contactId := fun equal => same equal.symm
    cases event.phase <;> simp [same, other]

theorem Contacts.mem_follow {contacts : Contacts}
    {event : PhysicalPointerEvent} {contactId : Nat} :
    contactId ∈ contacts.follow event ↔
      downAfter contactId (decide (contactId ∈ contacts)) event = true := by
  unfold Contacts.follow downAfter
  by_cases same : event.contactId = contactId
  · subst same
    cases event.phase <;> simp
  · cases event.phase <;> simp [same]

theorem nodup_followDown {down : List Nat} (event : PhysicalPointerEvent)
    (nodup : down.Nodup) : (followDown down event).Nodup := by
  have others := nodup.filter (· != event.contactId)
  unfold followDown
  cases event.phase with
  | down | move =>
      refine List.nodup_cons.mpr ⟨fun member => ?_, others⟩
      simp at member
  | up | cancel => exact others

theorem nodup_contactsDown (events : List PhysicalPointerEvent) :
    (contactsDown events).Nodup := by
  induction events using List.reverseRecOn with
  | nil => exact List.nodup_nil
  | append_singleton events event induction =>
      rw [contactsDown_append]
      exact nodup_followDown event induction

/-- Both ways to keep the contacts that are down agree. -/
theorem mem_follow_iff {contacts : Contacts} {down : List Nat}
    (same : ∀ contactId, contactId ∈ contacts ↔ contactId ∈ down)
    (events : List PhysicalPointerEvent) (contactId : Nat) :
    contactId ∈ events.foldl Contacts.follow contacts ↔
      contactId ∈ events.foldl followDown down := by
  induction events generalizing contacts down with
  | nil => exact same contactId
  | cons event events induction =>
      refine induction fun other => ?_
      rw [Contacts.mem_follow, mem_followDown, decide_eq_decide.mpr (same other)]

theorem Contacts.size_eq {contacts : Contacts} {down : List Nat}
    (nodup : down.Nodup)
    (same : ∀ contactId, contactId ∈ contacts ↔ contactId ∈ down) :
    contacts.size = down.length := by
  have members : ∀ contactId, contactId ∈ contacts.keys ↔ contactId ∈ down :=
    fun contactId => Std.TreeMap.mem_keys.trans (same contactId)
  have perm := (List.perm_ext_iff_of_nodup Std.TreeMap.nodup_keys nodup).mpr
    members
  rw [← perm.length_eq, Std.TreeMap.length_keys]

theorem Contacts.isEmpty_eq {contacts : Contacts} {down : List Nat}
    (same : ∀ contactId, contactId ∈ contacts ↔ contactId ∈ down) :
    contacts.isEmpty = down.isEmpty := by
  rw [Bool.eq_iff_iff, Std.TreeMap.isEmpty_iff_forall_not_mem,
    List.isEmpty_iff, List.eq_nil_iff_forall_not_mem]
  exact forall_congr' fun contactId => not_congr (same contactId)

/-- Series that can be followed tell which contacts are down. -/
theorem downFrom_phasesOf {contacts : Contacts} {contactId : Nat}
    {events : List PhysicalPointerEvent} {now : Bool}
    (follows : downFrom (decide (contactId ∈ contacts))
      (phasesOf contactId events) = some now) :
    now = decide (contactId ∈ events.foldl Contacts.follow contacts) := by
  induction events generalizing contacts with
  | nil => exact (Option.some.inj follows).symm
  | cons event events induction =>
      refine induction ?_
      have after : decide (contactId ∈ contacts.follow event) =
          downAfter contactId (decide (contactId ∈ contacts)) event := by
        rw [Bool.eq_iff_iff, decide_eq_true_iff]
        exact Contacts.mem_follow
      rw [after]
      unfold downAfter
      split
      · rename_i same
        have isHead : phasesOf contactId (event :: events) =
            event.phase :: phasesOf contactId events := by
          simp [phasesOf, same]
        rw [isHead, downFrom_cons] at follows
        obtain ⟨next, moved, rest⟩ := Option.bind_eq_some_iff.mp follows
        generalize decide (contactId ∈ contacts) = before at moved
        revert moved
        cases event.phase <;> cases before <;> rintro moved <;> cases moved <;>
          exact rest
      · rename_i other
        have isTail : phasesOf contactId (event :: events) =
            phasesOf contactId events := by
          simp [phasesOf, other]
        rwa [isTail] at follows

/-- Every contact of a map is announced once. -/
theorem phasesOf_toList (contacts : Contacts) (contactId : Nat)
    (place : Nat → Nat × Nat → Nat × Nat) :
    phasesOf contactId (contacts.toList.map fun (contactId, old) =>
      ⟨.cancel, contactId, (place contactId old).1, (place contactId old).2⟩) =
      if contactId ∈ contacts then [.cancel] else [] := by
  have keys : phasesOf contactId (contacts.toList.map fun (contactId, old) =>
      ⟨.cancel, contactId, (place contactId old).1, (place contactId old).2⟩) =
      contacts.keys.filterMap fun key =>
        if key = contactId then some .cancel else none := by
    rw [← Std.TreeMap.map_fst_toList_eq_keys, phasesOf, List.filterMap_map,
      List.filterMap_map]
    rfl
  have unique := Std.TreeMap.nodup_keys (t := contacts)
  have member : contactId ∈ contacts ↔ contactId ∈ contacts.keys :=
    Std.TreeMap.mem_keys.symm
  rw [keys]
  simp only [member]
  generalize contacts.keys = keys at unique ⊢
  induction keys with
  | nil => rfl
  | cons key keys induction =>
      obtain ⟨fresh, unique⟩ := List.nodup_cons.mp unique
      rw [List.filterMap_cons, induction unique]
      by_cases same : key = contactId
      · subst same
        simp [fresh]
      · have other : contactId ≠ key := fun equal => same equal.symm
        simp [same, other]

namespace FiveFingerCleanupGesture

theorem phasesOf_surfaceTransition (self : FiveFingerCleanupGesture)
    (contactId : Nat) :
    phasesOf contactId self.surfaceTransition.1 =
      if contactId ∈ self.forwarded then [.cancel] else [] :=
  phasesOf_toList self.forwarded contactId fun _ old => old

theorem phasesOf_cancelledContacts (forwarded active : Contacts)
    (contactId : Nat) :
    phasesOf contactId (cancelledContacts forwarded active) =
      if contactId ∈ forwarded then [.cancel] else [] :=
  phasesOf_toList forwarded contactId fun contactId old =>
    (active[contactId]?).getD old

end FiveFingerCleanupGesture

end RmDisplay.Receiver
