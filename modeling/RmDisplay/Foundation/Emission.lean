import RmDisplay.Foundation.Run

/-!
# Procedures that hand out items

An emission relates two states and the items handed out between them, some of
which may be dropped on the way.  A procedure emits what it returns: the rules
below follow its text, with the items that it already has in hand.
-/

namespace RmDisplay.Foundation

structure Emission (σ β : Type) where
  rel : σ → List β → σ → Prop
  refl : ∀ state, rel state [] state
  trans : ∀ {first second third : σ} {given more : List β},
    rel first given second → rel second more third →
      rel first (given ++ more) third
  drop : ∀ {first second : σ} {given kept : List β},
    rel first given second → kept.Sublist given → rel first kept second

namespace Emission

variable {σ τ ε ε' α γ β : Type}

/-- A change of the state that hands nothing out. -/
def ofRelation (rel : σ → σ → Prop) (refl : ∀ state, rel state state)
    (trans : ∀ {first second third : σ}, rel first second →
      rel second third → rel first third) : Emission σ β where
  rel := fun before _ after => rel before after
  refl := refl
  trans := trans
  drop := fun related _ => related

/-- The items of an outcome; an error hands nothing out. -/
def handed (given : α → List β) : Except ε α → List β
  | .ok value => given value
  | .error _ => []

variable (emission : Emission σ β)

/-- Wherever it starts, the procedure hands out the items of its outcome. -/
def Emits (proc : Proc σ ε α) (given : α → List β) : Prop :=
  ∀ before output after, proc.Runs before output after →
    emission.rel before (handed given output) after

/-- The rest of a procedure: `before` was reached from `start`, with items in
hand. -/
def From (start before : σ) (inHand : List β) (proc : Proc σ ε α)
    (given : α → List β) : Prop :=
  emission.rel start inHand before →
    ∀ output after, proc.Runs before output after →
      emission.rel start (handed given output) after

variable {emission} {start before : σ} {inHand : List β} {proc : Proc σ ε α}
  {given : α → List β}

theorem Emits.of_from
    (rest : ∀ before, emission.From before before [] proc given) :
    emission.Emits proc given :=
  fun before output after runs =>
    rest before (emission.refl before) output after runs

theorem Emits.mono {wider : Emission σ β}
    (widens : ∀ before items after, emission.rel before items after →
      wider.rel before items after)
    (emits : emission.Emits proc given) : wider.Emits proc given :=
  fun before output after runs => widens _ _ _ (emits before output after runs)

theorem From.reached
    (rest : emission.rel start inHand before →
      emission.From start before inHand proc given) :
    emission.From start before inHand proc given :=
  fun related => rest related related

/-- A part of which only this start is known. -/
theorem From.call {next : α → Proc σ ε γ} {later : γ → List β}
    (part : emission.From before before [] proc given)
    (rest : ∀ value between, emission.From start between
      (inHand ++ given value) (next value) later) :
    emission.From start before inHand (proc >>= next) later := by
  intro related output after runs
  have parted := part (emission.refl before)
  rcases Proc.runs_bind.mp runs with ⟨value, between, ran, continued⟩ |
    ⟨err, rfl, failed⟩
  · exact rest value between (emission.trans related (parted _ _ ran)) _ _
      continued
  · exact emission.drop (emission.trans related (parted _ _ failed))
      (List.nil_sublist _)

theorem From.bind {next : α → Proc σ ε γ} {later : γ → List β}
    (emits : emission.Emits proc given)
    (rest : ∀ value between, emission.From start between
      (inHand ++ given value) (next value) later) :
    emission.From start before inHand (proc >>= next) later :=
  From.call (fun _ => emits before) rest

theorem From.quiet {next : α → Proc σ ε γ} {later : γ → List β}
    (emits : emission.Emits proc fun _ => [])
    (rest : ∀ value between,
      emission.From start between inHand (next value) later) :
    emission.From start before inHand (proc >>= next) later := by
  refine From.bind emits fun value between => ?_
  rw [List.append_nil]
  exact rest value between

/-- A part that hands nothing out and is known to have returned. -/
theorem From.known {next : α → Proc σ ε γ} {later : γ → List β}
    (emits : emission.Emits proc fun _ => [])
    (rest : ∀ value between, proc.Runs before (.ok value) between →
      emission.From start between inHand (next value) later) :
    emission.From start before inHand (proc >>= next) later := by
  intro related output after runs
  rcases Proc.runs_bind.mp runs with ⟨value, between, ran, continued⟩ |
    ⟨err, rfl, failed⟩
  · have further := emission.trans related (emits _ _ _ ran)
    rw [show handed (fun _ => []) (.ok value : Except ε α) = ([] : List β)
      from rfl, List.append_nil] at further
    exact rest value between ran further _ _ continued
  · exact emission.drop (emission.trans related (emits _ _ _ failed))
      (List.nil_sublist _)

theorem From.last (emits : emission.Emits proc given) :
    emission.From start before inHand proc fun value => inHand ++ given value := by
  intro related output after runs
  have whole := emission.trans related (emits _ _ _ runs)
  cases output with
  | ok value => exact whole
  | error err => exact emission.drop whole (List.nil_sublist _)

theorem From.whole (part : emission.From before before [] proc given) :
    emission.From start before [] proc given := by
  intro related output after runs
  have rest := part (emission.refl before) output after runs
  exact emission.trans related rest

theorem From.all (emits : emission.Emits proc given) :
    emission.From start before [] proc given := From.last emits

theorem From.pure {value : α} (same : given value = inHand) :
    emission.From start before inHand (Pure.pure value : Proc σ ε α) given := by
  intro related output after runs
  obtain ⟨rfl, rfl⟩ := Proc.runs_pure.mp runs
  rw [← same] at related
  exact related

theorem From.throw {err : ε} :
    emission.From start before inHand (Proc.throw err : Proc σ ε α) given := by
  intro related output after runs
  obtain ⟨rfl, rfl⟩ := Proc.runs_throw.mp runs
  exact emission.drop related (List.nil_sublist _)

theorem From.panic :
    emission.From start before inHand (Proc.panic : Proc σ ε α) given := by
  intro _ output after runs
  cases output <;> cases runs

theorem From.get {next : σ → Proc σ ε α}
    (rest : emission.From start before inHand (next before) given) :
    emission.From start before inHand (Proc.get >>= next) given := rest

theorem From.after {value : γ} {next : γ → Proc σ ε α}
    (rest : emission.From start before inHand (next value) given) :
    emission.From start before inHand (Pure.pure value >>= next) given := rest

theorem From.set {state : σ} {next : Unit → Proc σ ε α}
    (related : emission.rel before [] state)
    (rest : emission.From start state inHand (next ()) given) :
    emission.From start before inHand (Proc.set state >>= next) given := by
  intro reached output after runs
  have further := emission.trans reached related
  rw [List.append_nil] at further
  exact rest further output after runs

theorem From.modify {change : σ → σ} {next : Unit → Proc σ ε α}
    (related : emission.rel before [] (change before))
    (rest : emission.From start (change before) inHand (next ()) given) :
    emission.From start before inHand (Proc.modify change >>= next) given :=
  From.set related rest

theorem From.ofRes {convert : ε' → ε} {result : Res ε' γ}
    {next : γ → Proc σ ε α}
    (rest : ∀ value, result = .ok value →
      emission.From start before inHand (next value) given) :
    emission.From start before inHand (Proc.ofRes convert result >>= next)
      given := by
  intro related output after runs
  rcases Proc.runs_ofRes_bind.mp runs with ⟨value, computed, runs⟩ |
    ⟨err, _, rfl, rfl⟩
  · exact rest value computed related output after runs
  · exact emission.drop related (List.nil_sublist _)

/-- A part whose outcome is known. -/
theorem From.computes {next : α → Proc σ ε γ} {later : γ → List β}
    {value : α} {between : σ} (returned : proc before = .ok value between)
    (related : emission.rel before [] between)
    (rest : emission.From start between inHand (next value) later) :
    emission.From start before inHand (proc >>= next) later := by
  intro reached output after runs
  have further := emission.trans reached related
  rw [List.append_nil] at further
  unfold Proc.Runs at runs
  rw [Proc.bind_of_ok returned] at runs
  exact rest further output after runs

theorem From.ahead {state : σ} {next : α → Proc σ ε γ} {later : γ → List β}
    (leads : ∀ output after, proc.Runs state output after →
      emission.rel before [] after)
    (rest : ∀ value between,
      emission.From start between inHand (next value) later) :
    emission.From start before inHand
      (Proc.set state >>= fun _ => proc >>= next) later := by
  intro reached output after runs
  have onward (given : Except ε α) (between : σ)
      (ran : proc.Runs state given between) :
      emission.rel start inHand between := by
    have further := emission.trans reached (leads given between ran)
    rw [List.append_nil] at further
    exact further
  rcases Proc.runs_bind.mp (Proc.runs_set_bind.mp runs) with
    ⟨value, between, ran, continued⟩ | ⟨err, rfl, failed⟩
  · exact rest value between (onward _ _ ran) _ _ continued
  · exact emission.drop (onward _ _ failed) (List.nil_sublist _)

/-- A part that is in order only with the change after it. -/
theorem From.backed {change : α → σ → σ} {next : α → Proc σ ε γ}
    {later : γ → List β}
    (ran : ∀ value after, proc.Runs before (.ok value) after →
      emission.rel before [] (change value after))
    (failed : ∀ err after, proc.Runs before (.error err) after →
      emission.rel before [] after)
    (rest : ∀ value between, proc.Runs before (.ok value) between →
      emission.From start (change value between) inHand (next value) later) :
    emission.From start before inHand
      (proc >>= fun value => Proc.modify (change value) >>= fun _ => next value)
      later := by
  intro reached output after runs
  rcases Proc.runs_bind.mp runs with ⟨value, between, returns, continued⟩ |
    ⟨err, rfl, fails⟩
  · have further := emission.trans reached (ran _ _ returns)
    rw [List.append_nil] at further
    exact rest value between returns further _ _
      (Proc.runs_modify_bind.mp continued)
  · exact emission.drop (emission.trans reached (failed _ _ fails))
      (List.nil_sublist _)

/-- A change of the state at the end. -/
theorem From.finish {change : σ → σ} {last : Unit → List β}
    (related : emission.rel before [] (change before))
    (same : last () = inHand) :
    emission.From start before inHand
      (Proc.modify change : Proc σ ε Unit) last := by
  intro reached output after runs
  obtain ⟨rfl, rfl⟩ := Proc.runs_modify.mp runs
  have further := emission.trans reached related
  rw [List.append_nil, ← same] at further
  exact further

theorem From.ite {condition : Prop} [Decidable condition]
    {other : Proc σ ε α}
    (holds : condition → emission.From start before inHand proc given)
    (fails : ¬ condition → emission.From start before inHand other given) :
    emission.From start before inHand (if condition then proc else other)
      given := by
  split
  · exact holds ‹_›
  · exact fails ‹_›

/-- A procedure on a part of the state that hands nothing out. -/
theorem From.zoom {inner : Emission τ γ} {part : σ → τ} {store : τ → σ → σ}
    {convert : ε' → ε} {proc : Proc τ ε' α}
    (lifts : ∀ after, inner.rel (part before) [] after →
      emission.rel before [] (store after before))
    (emits : inner.Emits proc fun _ => []) :
    emission.From start before inHand (Proc.zoom part store convert proc)
      fun _ => inHand := by
  intro reached output after runs
  obtain ⟨innerOutput, innerAfter, ran, rfl, rfl⟩ := Proc.runs_zoom.mp runs
  have related := emits _ _ _ ran
  cases innerOutput with
  | ok value =>
      have further := emission.trans reached (lifts _ related)
      rw [List.append_nil] at further
      exact further
  | error err =>
      exact emission.drop (emission.trans reached (lifts _ related))
        (List.nil_sublist _)

theorem Emits.modify {change : σ → σ}
    (related : ∀ before, emission.rel before [] (change before)) :
    emission.Emits (Proc.modify change : Proc σ ε Unit) fun _ => [] := by
  intro before output after runs
  obtain ⟨rfl, rfl⟩ := Proc.runs_modify.mp runs
  exact related before

theorem Emits.pure {value : α} (none : given value = []) :
    emission.Emits (Pure.pure value : Proc σ ε α) given :=
  .of_from fun _ => .pure none

theorem Emits.gather {procedure : α → Proc σ ε (List β)}
    (each : ∀ item, emission.Emits (procedure item) id) (items : List α) :
    emission.Emits (Proc.gather procedure items) id := by
  induction items with
  | nil => exact .pure rfl
  | cons item items induction =>
      refine .of_from fun before => .bind (each item) fun first between => ?_
      exact .bind induction fun rest between => .pure rfl

/-- A loop whose turns hand nothing out. -/
theorem Emits.gatherQuiet {procedure : α → Proc σ ε (List γ)}
    (each : ∀ item, emission.Emits (procedure item) fun _ => [])
    (items : List α) :
    emission.Emits (Proc.gather procedure items) fun _ => [] := by
  induction items with
  | nil => exact .pure rfl
  | cons item items induction =>
      refine .of_from fun before => .quiet (each item) fun first between => ?_
      exact .quiet induction fun rest between => .pure rfl

theorem Emits.discard (emits : emission.Emits proc given) :
    emission.Emits proc fun _ => [] := by
  intro before output after runs
  have related := emission.drop (emits before output after runs)
    (List.nil_sublist _)
  cases output <;> exact related

theorem Emits.attempt {inner : Proc σ ε' α}
    (emits : emission.Emits inner given) :
    emission.Emits (Proc.attempt inner : Proc σ ε (Except ε' α))
      (handed given) := by
  intro before output after runs
  obtain ⟨innerOutput, ran, rfl⟩ := Proc.runs_attempt.mp runs
  exact emits before innerOutput after ran

theorem rel_of_run {ι : Type} {procs : ι → Proc σ ε α}
    (emits : ∀ input, emission.Emits (procs input) given) {first last : σ}
    {history : List (Event σ ι (Except ε α))}
    (run : Run (procStep procs) first history last) :
    emission.rel first
      (history.reverse.flatMap fun event => handed given event.output) last := by
  induction run with
  | nil => exact emission.refl first
  | snoc earlier stepped induction =>
      rw [List.reverse_cons, List.flatMap_append, List.flatMap_singleton]
      exact emission.trans induction (emits _ _ _ _ stepped)

end Emission

end RmDisplay.Foundation
