import RmDisplay.Foundation.Buffer

/-!
# Readers with short reads

A reader gives as many items as it likes of those it was asked for, and it may
be interrupted.  What it delivers does not depend on how it cuts them.
-/

namespace RmDisplay.Foundation

variable {σ ε α : Type}

inductive ReadResult (ε α : Type) where
  | ok (items : List α)
  | interrupted
  | failed (err : ε)

/-- A reader is asked for some items; it writes nothing but those it gives. -/
abbrev Reader (σ ε α : Type) := σ → Nat → ReadResult ε α × σ

/-- The answer gives a part of the items, and `rest` is still to come.  No items
are the end. -/
def ReadResult.Gives (room : Nat) (items rest : List α) :
    ReadResult ε α → Prop
  | .ok given => given.length ≤ room ∧ items = given ++ rest ∧
      (given = [] → items = [])
  | .interrupted => rest = items
  | .failed _ => False

/-- The reader gives the items in the end, however it is asked for them. -/
inductive Delivers (read : Reader σ ε α) : σ → List α → Prop where
  | reads {state : σ} {items : List α} (rest : Nat → List α)
      (gives : ∀ room, 0 < room →
        (read state room).1.Gives room items (rest room))
      (later : ∀ room, 0 < room → (read state room).1 ≠ .ok [] →
        Delivers read (read state room).2 (rest room)) :
      Delivers read state items

/-- The reader still has these items, and it is interrupted or gives at most one
more than the number in turn. -/
structure Script (α : Type) where
  items : List α
  turns : List (Option Nat)

def Script.read : Reader (Script α) ε α := fun script room =>
  match script.turns with
  | [] => (.ok (script.items.take room),
      { script with items := script.items.drop room })
  | none :: turns => (.interrupted, { script with turns })
  | some count :: turns =>
      (.ok (script.items.take (min room (count + 1))),
        ⟨script.items.drop (min room (count + 1)), turns⟩)

/-- Reading a positive number of items gives a part of them. -/
private theorem gives_take {room count : Nat} {items : List α}
    (fits : count ≤ room) (some_ : 0 < count) :
    ReadResult.Gives (ε := ε) room items (items.drop count)
      (.ok (items.take count)) := by
  refine ⟨?_, (List.take_append_drop count items).symm, ?_⟩
  · rw [List.length_take]
    omega
  · intro none
    rcases List.take_eq_nil_iff.mp none with zero | empty
    · omega
    · exact empty

theorem Script.delivers (script : Script α) :
    Delivers (Script.read (ε := ε)) script script.items := by
  obtain ⟨items, turns⟩ := script
  induction turns generalizing items with
  | nil =>
      induction count : items.length using Nat.strongRecOn
        generalizing items with
      | ind count induction =>
          apply Delivers.reads fun room => items.drop room
          · intro room some_
            exact gives_take (Nat.le_refl room) some_
          · intro room some_ more
            apply induction (items.drop room).length _ _ rfl
            have nonempty : items ≠ [] := by
              rintro rfl
              exact more (congrArg ReadResult.ok List.take_nil)
            have positive := List.length_pos_iff.mpr nonempty
            rw [List.length_drop]
            omega
  | cons turn turns induction =>
      cases turn with
      | none =>
          apply Delivers.reads fun _ => items
          · intro room _
            rfl
          · intro room _ _
            exact induction items
      | some count =>
          apply Delivers.reads fun room => items.drop (min room (count + 1))
          · intro room some_
            exact gives_take (Nat.min_le_left _ _) (by omega)
          · intro room _ _
            exact induction _

end RmDisplay.Foundation
