import Mathlib.Data.List.Infix

/-!
# Two parties and two channels

Two parties write down what they do, the earliest entry first.  An entry may
send a message or take the next one that the other party sent and that was not
taken yet.  Nothing is said about when a party goes on, so every interleaving
that keeps the order of the messages is allowed.
-/

namespace RmDisplay.Foundation

variable {α β μ ν : Type}

/-- What the entries of the parties say about messages: those of the left party
are of type `μ`, those of the right one of type `ν`. -/
structure Wiring (α β μ ν : Type) where
  leftSends : α → Option μ
  leftTakes : α → Option ν
  rightSends : β → Option ν
  rightTakes : β → Option μ

namespace Wiring

variable (wiring : Wiring α β μ ν)

/-- The entries of two parties that talk over the channels. -/
inductive Interleaved : List α → List β → Prop
  | nil : Interleaved [] []
  | left {left : List α} {right : List β} {entry : α}
      (earlier : Interleaved left right)
      (takes : ∀ message ∈ wiring.leftTakes entry,
        left.filterMap wiring.leftTakes ++ [message] <+:
          right.filterMap wiring.rightSends) :
      Interleaved (left ++ [entry]) right
  | right {left : List α} {right : List β} {entry : β}
      (earlier : Interleaved left right)
      (takes : ∀ message ∈ wiring.rightTakes entry,
        right.filterMap wiring.rightTakes ++ [message] <+:
          left.filterMap wiring.leftSends) :
      Interleaved left (right ++ [entry])

/-- The parties change places. -/
def flip : Wiring β α ν μ where
  leftSends := wiring.rightSends
  leftTakes := wiring.rightTakes
  rightSends := wiring.leftSends
  rightTakes := wiring.leftTakes

variable {wiring} {left : List α} {right : List β}

private theorem prefix_snoc {γ δ : Type} {function : γ → Option δ}
    {items : List γ} {item : γ} {sent : List δ}
    (earlier : items.filterMap function <+: sent)
    (next : ∀ message ∈ function item,
      items.filterMap function ++ [message] <+: sent) :
    (items ++ [item]).filterMap function <+: sent := by
  rw [List.filterMap_append]
  cases isNext : function item with
  | none => simpa [isNext] using earlier
  | some message => simpa [isNext] using next message isNext

private theorem prefix_grown {γ δ : Type} {function : γ → Option δ}
    {items : List γ} {item : γ} {taken : List δ}
    (earlier : taken <+: items.filterMap function) :
    taken <+: (items ++ [item]).filterMap function := by
  rw [List.filterMap_append]
  exact earlier.trans (List.prefix_append _ _)

namespace Interleaved

/-- Nothing is taken that was not sent, and the order is kept. -/
theorem delivered (run : wiring.Interleaved left right) :
    right.filterMap wiring.rightTakes <+: left.filterMap wiring.leftSends ∧
      left.filterMap wiring.leftTakes <+:
        right.filterMap wiring.rightSends := by
  induction run with
  | nil => exact ⟨List.prefix_refl _, List.prefix_refl _⟩
  | left earlier takes induction =>
      exact ⟨prefix_grown induction.1, prefix_snoc induction.2 takes⟩
  | right earlier takes induction =>
      exact ⟨prefix_snoc induction.1 takes, prefix_grown induction.2⟩

theorem left_of_split (run : wiring.Interleaved left right)
    {earlier later : List α} {entry : α} {message : ν}
    (split : left = earlier ++ entry :: later)
    (takes : wiring.leftTakes entry = some message) :
    ∃ sofar, sofar <+: right ∧ wiring.Interleaved earlier sofar ∧
      earlier.filterMap wiring.leftTakes ++ [message] <+:
        sofar.filterMap wiring.rightSends := by
  induction run generalizing later with
  | nil => simp at split
  | @left done right last run wasTaken induction =>
      rcases List.eq_nil_or_concat later with rfl | ⟨between, final, rfl⟩
      · obtain ⟨rfl, same⟩ := List.append_inj' split rfl
        cases same
        exact ⟨right, List.prefix_refl _, run, wasTaken message takes⟩
      · rw [List.concat_eq_append, ← List.cons_append,
          ← List.append_assoc] at split
        obtain ⟨same, _⟩ := List.append_inj' split rfl
        exact induction same
  | @right left done last run _ induction =>
      obtain ⟨sofar, isPrefix, rest⟩ := induction split
      exact ⟨sofar, isPrefix.trans (List.prefix_append _ _), rest⟩

/-- The same run, seen from the other side. -/
theorem flip (run : wiring.Interleaved left right) :
    wiring.flip.Interleaved right left := by
  induction run with
  | nil => exact .nil
  | left _ takes induction => exact .right induction takes
  | right _ takes induction => exact .left induction takes

theorem right_of_split (run : wiring.Interleaved left right)
    {earlier later : List β} {entry : β} {message : μ}
    (split : right = earlier ++ entry :: later)
    (takes : wiring.rightTakes entry = some message) :
    ∃ sofar, sofar <+: left ∧ wiring.Interleaved sofar earlier ∧
      earlier.filterMap wiring.rightTakes ++ [message] <+:
        sofar.filterMap wiring.leftSends := by
  obtain ⟨sofar, isPrefix, flipped, sent⟩ := run.flip.left_of_split split takes
  exact ⟨sofar, isPrefix, flipped.flip, sent⟩

end Interleaved

/-- Does an entry take nothing, or the next message that was sent? -/
def inTurn {γ δ : Type} [DecidableEq δ] (takes : γ → Option δ)
    (done : List γ) (entry : γ) (sent : List δ) : Bool :=
  match takes entry with
  | none => true
  | some message => (done.filterMap takes ++ [message]).isPrefixOf sent

theorem takes_of_inTurn {γ δ : Type} [DecidableEq δ] {takes : γ → Option δ}
    {done : List γ} {entry : γ} {sent : List δ}
    (checked : inTurn takes done entry sent = true) :
    ∀ message ∈ takes entry, done.filterMap takes ++ [message] <+: sent := by
  intro message isTaken
  unfold inTurn at checked
  rw [Option.mem_def.mp isTaken] at checked
  exact List.isPrefixOf_iff_prefix.mp checked

variable [DecidableEq μ] [DecidableEq ν]

variable (wiring) in
/-- Do the parties go on in these turns, the left one at `true`? -/
def takeTurns : List Bool → List α → List β → List α → List β → Bool
  | [], _, _, [], [] => true
  | true :: turns, left, right, entry :: later, coming =>
      inTurn wiring.leftTakes left entry
          (right.filterMap wiring.rightSends) &&
        takeTurns turns (left ++ [entry]) right later coming
  | false :: turns, left, right, coming, entry :: later =>
      inTurn wiring.rightTakes right entry
          (left.filterMap wiring.leftSends) &&
        takeTurns turns left (right ++ [entry]) coming later
  | _, _, _, _, _ => false

theorem Interleaved.of_takeTurns {turns : List Bool} {later : List α}
    {coming : List β} (sofar : wiring.Interleaved left right)
    (checked : wiring.takeTurns turns left right later coming = true) :
    wiring.Interleaved (left ++ later) (right ++ coming) := by
  induction turns generalizing left right later coming with
  | nil =>
      cases later <;> cases coming <;> simp [takeTurns] at checked
      simpa using sofar
  | cons turn turns induction =>
      cases turn with
      | true =>
          cases later with
          | nil => simp [takeTurns] at checked
          | cons entry later =>
              obtain ⟨takes, rest⟩ := Bool.and_eq_true_iff.mp checked
              rw [List.append_cons]
              exact induction (sofar.left (takes_of_inTurn takes)) rest
      | false =>
          cases coming with
          | nil => simp [takeTurns] at checked
          | cons entry coming =>
              obtain ⟨takes, rest⟩ := Bool.and_eq_true_iff.mp checked
              rw [List.append_cons right]
              exact induction (sofar.right (takes_of_inTurn takes)) rest

omit [DecidableEq μ] [DecidableEq ν] in
theorem sender_of_prefix {γ δ : Type} {function : γ → Option δ}
    {items : List γ} {before : List δ} {message : δ}
    (sent : before ++ [message] <+: items.filterMap function) :
    ∃ earlier entry later, items = earlier ++ entry :: later ∧
      function entry = some message ∧ earlier.filterMap function = before := by
  induction items generalizing before with
  | nil => simp at sent
  | cons item items induction =>
      cases isMessage : function item with
      | none =>
          rw [List.filterMap_cons_none isMessage] at sent
          obtain ⟨earlier, entry, later, rfl, isEntry, same⟩ := induction sent
          refine ⟨item :: earlier, entry, later, rfl, isEntry, ?_⟩
          rw [List.filterMap_cons_none isMessage, same]
      | some first =>
          rw [List.filterMap_cons_some isMessage] at sent
          cases before with
          | nil =>
              rw [List.nil_append, List.cons_prefix_cons] at sent
              obtain ⟨rfl, _⟩ := sent
              exact ⟨[], item, items, rfl, isMessage, rfl⟩
          | cons head before =>
              rw [List.cons_append, List.cons_prefix_cons] at sent
              obtain ⟨rfl, sent⟩ := sent
              obtain ⟨earlier, entry, later, rfl, isEntry, same⟩ :=
                induction sent
              refine ⟨item :: earlier, entry, later, rfl, isEntry, ?_⟩
              rw [List.filterMap_cons_some isMessage, same]

end Wiring

end RmDisplay.Foundation
