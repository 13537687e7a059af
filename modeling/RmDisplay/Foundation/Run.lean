import RmDisplay.Foundation.Program

/-!
# Finite runs with a history

A machine takes inputs, gives outputs and changes its state.  A run remembers
every step, the latest first, so a property of a run can speak about all that
happened before.
-/

namespace RmDisplay.Foundation

structure Event (σ ι ο : Type) where
  before : σ
  input : ι
  output : ο
  after : σ

/-- A run from `start` with its history and its final state. -/
inductive Run {σ ι ο : Type} (step : σ → ι → ο → σ → Prop) (start : σ) :
    List (Event σ ι ο) → σ → Prop where
  | nil : Run step start [] start
  | snoc {history : List (Event σ ι ο)} {before after : σ} {input : ι}
      {output : ο} :
      Run step start history before → step before input output after →
      Run step start (⟨before, input, output, after⟩ :: history) after

namespace Run

variable {σ ι ο : Type} {step : σ → ι → ο → σ → Prop} {start final : σ}
  {history : List (Event σ ι ο)}

/-- What holds at the start and is kept by every step whose event satisfies
`allowed` holds after every run of allowed events.  The property may look at
the history. -/
theorem keeps {allowed : Event σ ι ο → Prop}
    (inv : List (Event σ ι ο) → σ → Prop) (atStart : inv [] start)
    (preserved : ∀ (history : List (Event σ ι ο)) (event : Event σ ι ο),
      allowed event → step event.before event.input event.output event.after →
      inv history event.before → inv (event :: history) event.after)
    (run : Run step start history final)
    (allAllowed : ∀ event ∈ history, allowed event) : inv history final := by
  induction run with
  | nil => exact atStart
  | snoc earlier stepped induction =>
      exact preserved _ _ (allAllowed _ List.mem_cons_self) stepped
        (induction fun event member =>
          allAllowed event (List.mem_cons_of_mem _ member))

theorem step_of_mem (run : Run step start history final)
    {event : Event σ ι ο} (member : event ∈ history) :
    step event.before event.input event.output event.after := by
  induction run with
  | nil => cases member
  | snoc earlier stepped induction =>
      rcases List.mem_cons.mp member with rfl | older
      · exact stepped
      · exact induction older

theorem prefix_of_split {newer older : List (Event σ ι ο)} {event : Event σ ι ο}
    (run : Run step start history final)
    (split : history = newer ++ event :: older) :
    Run step start older event.before ∧
      step event.before event.input event.output event.after := by
  induction run generalizing newer with
  | nil => simp at split
  | snoc earlier stepped induction =>
      cases newer with
      | nil =>
          cases split
          exact ⟨earlier, stepped⟩
      | cons _ newer =>
          cases split
          exact induction rfl

end Run

section

variable {σ ε ι ο : Type}

/-- One procedure per input. -/
def procStep (proc : ι → Proc σ ε ο) (before : σ) (input : ι)
    (output : Except ε ο) (after : σ) : Prop :=
  (proc input).Runs before output after

/-- The run on a list of inputs, the latest first, unless one of them panics. -/
def replay (proc : ι → Proc σ ε ο) (start : σ) :
    List ι → Option (List (Event σ ι (Except ε ο)) × σ)
  | [] => some ([], start)
  | input :: earlier =>
      match replay proc start earlier with
      | none => none
      | some (history, before) =>
          match proc input before with
          | .ok value after =>
              some (⟨before, input, .ok value, after⟩ :: history, after)
          | .error err after =>
              some (⟨before, input, .error err, after⟩ :: history, after)
          | .panic => none

theorem replay_of_run {proc : ι → Proc σ ε ο} {start final : σ}
    {history : List (Event σ ι (Except ε ο))}
    (run : Run (procStep proc) start history final) :
    replay proc start (history.map (·.input)) = some (history, final) := by
  induction run with
  | nil => rfl
  | @snoc history before after input output _ stepped induction =>
      rw [List.map_cons, replay, induction]
      unfold procStep Proc.Runs at stepped
      cases output <;> simp [stepped]

theorem run_of_replay {proc : ι → Proc σ ε ο} {start final : σ}
    {inputs : List ι} {history : List (Event σ ι (Except ε ο))}
    (replayed : replay proc start inputs = some (history, final)) :
    Run (procStep proc) start history final := by
  induction inputs generalizing history final with
  | nil =>
      cases replayed
      exact .nil
  | cons input earlier induction =>
      unfold replay at replayed
      split at replayed
      · cases replayed
      · rename_i older before isOlder
        split at replayed
        · rename_i value after returned
          cases replayed
          exact .snoc (induction isOlder) returned
        · rename_i err after returned
          cases replayed
          exact .snoc (induction isOlder) returned
        · cases replayed

end

end RmDisplay.Foundation
