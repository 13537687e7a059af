import Mathlib.Data.List.Basic

/-!
# Decoding a stream in chunks

A decoder looks at a buffer and takes one item from its front, asks for more, or
fails.  If it never changes its mind when more data arrives, then reading a
stream in chunks gives what reading it at once gives.
-/

namespace RmDisplay.Foundation

/-- What a decoder makes of a buffer. -/
inductive Decoded (β ε α : Type) where
  | needMore
  | item (value : α) (rest : List β)
  | failed (err : ε) (rest : List β)

/-- A decoder that does not change its mind when more data arrives. -/
structure Decoder (β ε α : Type) where
  next : List β → Decoded β ε α
  empty : next [] = .needMore
  shrinks : ∀ {buffer rest : List β} {value : α},
    next buffer = .item value rest → rest.length < buffer.length
  item_append : ∀ {buffer rest : List β} {value : α} (more : List β),
    next buffer = .item value rest →
      next (buffer ++ more) = .item value (rest ++ more)
  failed_append : ∀ {buffer rest : List β} {err : ε} (more : List β),
    next buffer = .failed err rest →
      next (buffer ++ more) = .failed err (rest ++ more)

/-- The items read from a stream, the failure that ended it, and what is left
in the buffer. -/
structure Drained (β ε α : Type) where
  items : List α := []
  failure : Option ε := none
  buffer : List β := []

namespace Drained

variable {β ε α : Type}

/-- One more item was read before. -/
def cons (value : α) (later : Drained β ε α) : Drained β ε α :=
  { later with items := value :: later.items }

/-- What was read before goes first. -/
def after (later : Drained β ε α) (items : List α) : Drained β ε α :=
  { later with items := items ++ later.items }

/-- A longer stream gives more items; a failure is final. -/
structure Extends (longer shorter : Drained β ε α) : Prop where
  items : shorter.items <+: longer.items
  failed : ∀ err, shorter.failure = some err →
    longer.failure = some err ∧ longer.items = shorter.items

end Drained

namespace Decoder

variable {β ε α : Type} (decoder : Decoder β ε α)

/-- Take items until there is none or one fails. -/
def drain (buffer : List β) : Drained β ε α :=
  match _ : decoder.next buffer with
  | .needMore => { buffer }
  | .item value rest => (drain rest).cons value
  | .failed err rest => { failure := some err, buffer := rest }
termination_by buffer.length
decreasing_by exact decoder.shrinks ‹_›

/-- A chunk arrives and the items it completes are taken; after a failure
nothing is read any more. -/
def feed (state : Drained β ε α) (chunk : List β) : Drained β ε α :=
  match state.failure with
  | some _ => { state with buffer := state.buffer ++ chunk }
  | none => (decoder.drain (state.buffer ++ chunk)).after state.items

/-- Read a stream in chunks. -/
def feedAll (chunks : List (List β)) : Drained β ε α :=
  chunks.foldl decoder.feed {}

variable {decoder} {buffer rest : List β}

theorem drain_needMore (waits : decoder.next buffer = .needMore) :
    decoder.drain buffer = { buffer } := by
  rw [drain]
  split
  · rfl
  · rename_i taken
    rw [waits] at taken
    cases taken
  · rename_i taken
    rw [waits] at taken
    cases taken

theorem drain_item {value : α} (takes : decoder.next buffer = .item value rest) :
    decoder.drain buffer = (decoder.drain rest).cons value := by
  rw [drain]
  split
  · rename_i taken
    rw [takes] at taken
    cases taken
  · rename_i taken
    rw [takes] at taken
    cases taken
    rfl
  · rename_i taken
    rw [takes] at taken
    cases taken

theorem drain_failed {err : ε} (fails : decoder.next buffer = .failed err rest) :
    decoder.drain buffer = { failure := some err, buffer := rest } := by
  rw [drain]
  split
  · rename_i taken
    rw [fails] at taken
    cases taken
  · rename_i taken
    rw [fails] at taken
    cases taken
  · rename_i taken
    rw [fails] at taken
    cases taken
    rfl

/-- Items are taken one by one, so a property of buffers that hold after the
rest also holds. -/
theorem drain_induction {holds : List β → Prop}
    (waits : ∀ buffer, decoder.next buffer = .needMore → holds buffer)
    (takes : ∀ buffer value rest, decoder.next buffer = .item value rest →
      holds rest → holds buffer)
    (fails : ∀ buffer err rest, decoder.next buffer = .failed err rest →
      holds buffer) (buffer : List β) : holds buffer := by
  induction size : buffer.length using Nat.strongRecOn generalizing buffer with
  | ind size induction =>
      cases step : decoder.next buffer with
      | needMore => exact waits buffer step
      | failed err rest => exact fails buffer err rest step
      | item value rest =>
          have shorter := decoder.shrinks step
          rw [size] at shorter
          exact takes buffer value rest step (induction _ shorter rest rfl)

/-- Reading on after a part of the stream is reading the whole. -/
theorem drain_append (buffer more : List β) :
    decoder.drain (buffer ++ more) =
      decoder.feed (decoder.drain buffer) more := by
  induction buffer using decoder.drain_induction with
  | waits buffer waits =>
      rw [drain_needMore waits]
      rfl
  | takes buffer value rest takes induction =>
      rw [drain_item takes, drain_item (decoder.item_append more takes),
        induction]
      unfold feed Drained.cons Drained.after
      cases (decoder.drain rest).failure <;> rfl
  | fails buffer err rest fails =>
      rw [drain_failed fails, drain_failed (decoder.failed_append more fails)]
      rfl

theorem feed_after (state : Drained β ε α) (items : List α) (more : List β) :
    decoder.feed (state.after items) more =
      (decoder.feed state more).after items := by
  unfold feed Drained.after
  cases state.failure with
  | none => simp
  | some err => rfl

theorem feed_feed (state : Drained β ε α) (chunk more : List β) :
    decoder.feed (decoder.feed state chunk) more =
      decoder.feed state (chunk ++ more) := by
  cases isFailed : state.failure with
  | some err => simp [feed, isFailed]
  | none =>
      have fed (piece : List β) : decoder.feed state piece =
          (decoder.drain (state.buffer ++ piece)).after state.items := by
        rw [feed, isFailed]
      rw [fed, fed, feed_after, ← List.append_assoc,
        drain_append (state.buffer ++ chunk) more]

theorem feedAll_eq (chunks : List (List β)) :
    decoder.feedAll chunks = decoder.drain chunks.flatten := by
  have started (state : Drained β ε α) (chunk : List β)
      (chunks : List (List β)) :
      chunks.foldl decoder.feed (decoder.feed state chunk) =
        decoder.feed state (chunk ++ chunks.flatten) := by
    induction chunks generalizing chunk with
    | nil => rw [List.foldl_nil, List.flatten_nil, List.append_nil]
    | cons next chunks induction =>
        rw [List.foldl_cons, feed_feed, induction, List.flatten_cons,
          List.append_assoc]
  have fresh (chunk : List β) : decoder.feed {} chunk = decoder.drain chunk := by
    rfl
  cases chunks with
  | nil => exact (drain_needMore decoder.empty).symm
  | cons chunk chunks =>
      rw [feedAll, List.foldl_cons, started, fresh, List.flatten_cons]

theorem drain_extends (buffer more : List β) :
    (decoder.drain (buffer ++ more)).Extends (decoder.drain buffer) := by
  rw [drain_append]
  unfold feed
  cases isFailed : (decoder.drain buffer).failure with
  | none =>
      refine ⟨List.prefix_append _ _, fun err failed => ?_⟩
      rw [isFailed] at failed
      cases failed
  | some err =>
      refine ⟨List.prefix_rfl, fun other failed => ⟨?_, rfl⟩⟩
      rw [isFailed] at failed
      exact failed

theorem drain_flatMap {write : α → List β} {values : List α}
    (takes : ∀ value ∈ values, ∀ rest,
      decoder.next (write value ++ rest) = .item value rest) :
    decoder.drain (values.flatMap write) = { items := values } := by
  induction values with
  | nil => exact drain_needMore decoder.empty
  | cons value values induction =>
      rw [List.flatMap_cons,
        drain_item (takes value List.mem_cons_self _),
        induction fun other member => takes other (List.mem_cons_of_mem _ member)]
      rfl

end Decoder

end RmDisplay.Foundation
