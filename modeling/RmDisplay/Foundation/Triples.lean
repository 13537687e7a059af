import RmDisplay.Foundation.Program

/-!
# Pre- and postconditions of procedures

A procedure started where the precondition holds satisfies the postcondition
if it returns a value, and what is said of failures if it returns an error.  A
panic has no state, so nothing is said about it.
-/

namespace RmDisplay.Foundation

variable {σ τ ε ε' α β ι : Type}

/-- Partial correctness for both ways to return. -/
def Triple (pre : σ → Prop) (proc : Proc σ ε α) (post : α → σ → Prop)
    (fails : ε → σ → Prop) : Prop :=
  ∀ before output after, pre before → proc.Runs before output after →
    match output with
    | .ok value => post value after
    | .error err => fails err after

namespace Triple

variable {pre : σ → Prop} {post : α → σ → Prop} {fails : ε → σ → Prop}
  {proc : Proc σ ε α}

theorem pure {value : α} (holds : ∀ state, pre state → post value state) :
    Triple pre (Pure.pure value : Proc σ ε α) post fails := by
  intro before output after held runs
  obtain ⟨rfl, rfl⟩ := Proc.runs_pure.mp runs
  exact holds _ held

theorem throw {err : ε} (holds : ∀ state, pre state → fails err state) :
    Triple pre (Proc.throw err : Proc σ ε α) post fails := by
  intro before output after held runs
  obtain ⟨rfl, rfl⟩ := Proc.runs_throw.mp runs
  exact holds _ held

theorem modify {change : σ → σ} {post : Unit → σ → Prop}
    (holds : ∀ state, pre state → post () (change state)) :
    Triple pre (Proc.modify change : Proc σ ε Unit) post fails := by
  intro before output after held runs
  obtain ⟨rfl, rfl⟩ := Proc.runs_modify.mp runs
  exact holds _ held

theorem bind {next : α → Proc σ ε β} {middle : α → σ → Prop}
    {post : β → σ → Prop} (first : Triple pre proc middle fails)
    (rest : ∀ value, Triple (middle value) (next value) post fails) :
    Triple pre (proc >>= next) post fails := by
  intro before output after held runs
  rcases Proc.runs_bind.mp runs with
    ⟨value, between, ran, later⟩ | ⟨err, rfl, failed⟩
  · exact rest value between output after (first _ _ _ held ran) later
  · exact first before (.error err) after held failed

theorem get {next : σ → Proc σ ε β} {post : β → σ → Prop}
    (rest : ∀ state, pre state →
      Triple (· = state) (next state) post fails) :
    Triple pre (Proc.get >>= next) post fails := by
  intro before output after held runs
  exact rest before held before output after rfl runs

theorem given {fact : Prop} (rest : fact → Triple pre proc post fails) :
    Triple (fun state => fact ∧ pre state) proc post fails :=
  fun before output after held => rest held.1 before output after held.2

theorem exists_ {pre : ι → σ → Prop}
    (rest : ∀ index, Triple (pre index) proc post fails) :
    Triple (fun state => ∃ index, pre index state) proc post fails := by
  rintro before output after ⟨index, held⟩
  exact rest index before output after held

theorem mono {stronger : σ → Prop} {weaker : α → σ → Prop}
    (triple : Triple pre proc post fails)
    (before : ∀ state, stronger state → pre state)
    (after : ∀ value state, post value state → weaker value state) :
    Triple stronger proc weaker fails := by
  intro start output final held runs
  have holds := triple start output final (before start held) runs
  cases output with
  | ok value => exact after value final holds
  | error err => exact holds

/-- What a procedure keeps however it ends may be added. -/
theorem frame {kept : σ → Prop} (triple : Triple pre proc post fails)
    (keeps : ∀ before output after, proc.Runs before output after →
      kept before → kept after) :
    Triple (fun state => pre state ∧ kept state) proc
      (fun value state => post value state ∧ kept state) fails := by
  intro before output after held runs
  have holds := triple before output after held.1 runs
  cases output with
  | ok value => exact ⟨holds, keeps before _ after runs held.2⟩
  | error err => exact holds

/-- A loop keeps what each of its turns keeps. -/
theorem forM {step : ι → Proc σ ε PUnit} {items : List ι}
    (turn : ∀ item ∈ items, Triple pre (step item) (fun _ => pre) fails) :
    Triple pre (items.forM step) (fun _ => pre) fails := by
  induction items with
  | nil => exact pure fun _ held => held
  | cons item items induction =>
      exact bind (turn item List.mem_cons_self) fun _ =>
        induction fun other member => turn other (List.mem_cons_of_mem _ member)

end Triple

end RmDisplay.Foundation
