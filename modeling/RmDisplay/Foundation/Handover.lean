import RmDisplay.Foundation.Framing

/-!
# A decoder for the first item and one for the others

A reader of a stream may learn from the first item how to decode the rest.
What it has taken after any number of chunks is still a front of what the
whole stream gives.
-/

namespace RmDisplay.Foundation

namespace Decoder

variable {β ε α : Type} (first later : Decoder β ε α)

/-- The decoder for the next item after those that were taken. -/
def active : List α → Decoder β ε α
  | [] => first
  | _ :: _ => later

/-- Take the first item with one decoder and all others with the other. -/
def drainThen (buffer : List β) : Drained β ε α :=
  match first.next buffer with
  | .needMore => { buffer }
  | .item value rest => (later.drain rest).cons value
  | .failed err rest => { failure := some err, buffer := rest }

/-- What is still to be taken from `buffer` completes what the bytes received
so far give. -/
def Reading (received : List β) (items : List α) (buffer : List β) : Prop :=
  match items with
  | [] => buffer = received
  | _ :: _ => first.drainThen later received = (later.drain buffer).after items

variable {first later} {received buffer rest : List β} {items : List α}

theorem drainThen_append (started : (first.drainThen later buffer).items ≠ [])
    (more : List β) : first.drainThen later (buffer ++ more) =
      later.feed (first.drainThen later buffer) more := by
  unfold drainThen at started ⊢
  cases isNext : first.next buffer with
  | needMore =>
      rw [isNext] at started
      exact absurd rfl started
  | failed err rest =>
      rw [isNext] at started
      exact absurd rfl started
  | item value rest =>
      simp only [first.item_append more isNext, drain_append]
      exact (feed_after (later.drain rest) [value] more).symm

namespace Reading

theorem start : Reading first later [] [] [] := rfl

theorem receive (reading : Reading first later received items buffer)
    (more : List β) :
    Reading first later (received ++ more) items (buffer ++ more) := by
  cases items with
  | nil => exact congrArg (· ++ more) reading
  | cons value items =>
      have same : first.drainThen later received =
          (later.drain buffer).after (value :: items) := reading
      change first.drainThen later (received ++ more) =
        (later.drain (buffer ++ more)).after (value :: items)
      rw [drainThen_append (by rw [same]; simp [Drained.after]), same,
        drain_append, feed_after]

/-- An item is taken from the front. -/
theorem take {value : α} (reading : Reading first later received items buffer)
    (takes : (active first later items).next buffer = .item value rest) :
    Reading first later received (items ++ [value]) rest := by
  cases items with
  | nil =>
      have same : buffer = received := reading
      subst same
      change first.drainThen later buffer = (later.drain rest).after [value]
      simp only [drainThen, show first.next buffer = _ from takes]
      rfl
  | cons head items =>
      have same : first.drainThen later received =
          (later.drain buffer).after (head :: items) := reading
      change first.drainThen later received =
        (later.drain rest).after (head :: (items ++ [value]))
      rw [same, drain_item (show later.next buffer = _ from takes)]
      simp [Drained.after, Drained.cons]

theorem complete (reading : Reading first later received items buffer)
    (waits : (active first later items).next buffer = .needMore) :
    first.drainThen later received = { items, buffer } := by
  cases items with
  | nil =>
      have same : buffer = received := reading
      subst same
      simp only [drainThen, show first.next buffer = _ from waits]
  | cons head items =>
      have same : first.drainThen later received =
          (later.drain buffer).after (head :: items) := reading
      rw [same, drain_needMore (show later.next buffer = _ from waits)]
      simp [Drained.after]

theorem front (reading : Reading first later received items buffer) :
    items <+: (first.drainThen later received).items := by
  cases items with
  | nil => exact List.nil_prefix
  | cons head items =>
      have same : first.drainThen later received =
          (later.drain buffer).after (head :: items) := reading
      rw [same]
      exact List.prefix_append _ _

end Reading

end Decoder

end RmDisplay.Foundation
