import Mathlib.Tactic.Common

/-!
# Results with panics and stateful procedures

`Res` is the outcome of a pure imperative function: a value, a returned error,
or a panic.  `Proc` adds a state that survives a returned error, as the state
behind a mutable reference does.  A panic has no state: the run is over.

The rules below peel a sequence apart without unfolding the monad, carry an
invariant through a loop, and reason about procedures by pre- and
postconditions.
-/

namespace RmDisplay.Foundation

/-- Outcome of a function without state. -/
inductive Res (ε α : Type) where
  | ok (value : α)
  | error (err : ε)
  | panic
deriving DecidableEq, Repr

namespace Res

variable {ε ε' α β σ : Type}

protected def bind (result : Res ε α) (next : α → Res ε β) : Res ε β :=
  match result with
  | .ok value => next value
  | .error err => .error err
  | .panic => .panic

instance : Monad (Res ε) where
  pure := .ok
  bind := Res.bind

instance : LawfulMonad (Res ε) := LawfulMonad.mk' (Res ε)
  (fun result => by cases result <;> rfl) (fun _ _ => rfl)
  (fun result _ _ => by cases result <;> rfl)

@[simp] theorem pure_eq (value : α) : (pure value : Res ε α) = .ok value := rfl

@[simp] theorem ok_bind (value : α) (next : α → Res ε β) :
    (Res.ok value >>= next) = next value := rfl

@[simp] theorem error_bind (err : ε) (next : α → Res ε β) :
    (Res.error err >>= next) = .error err := rfl

@[simp] theorem panic_bind (next : α → Res ε β) :
    ((Res.panic : Res ε α) >>= next) = .panic := rfl

@[simp] theorem map_ok (function : α → β) (value : α) :
    (function <$> (Res.ok value : Res ε α)) = .ok (function value) := rfl

/-- A missing value is a failed index or an overflow: a panic. -/
def orPanic (value : Option α) : Res ε α :=
  match value with
  | some present => .ok present
  | none => .panic

@[simp] theorem orPanic_some (value : α) :
    (orPanic (some value) : Res ε α) = .ok value := rfl

@[simp] theorem orPanic_none : (orPanic (none : Option α) : Res ε α) = .panic :=
  rfl

theorem orPanic_eq_ok {value : Option α} {present : α} :
    (orPanic value : Res ε α) = .ok present ↔ value = some present := by
  cases value <;> simp [orPanic]

/-- Convert the error of a callee into the error of its caller. -/
def mapError (convert : ε → ε') : Res ε α → Res ε' α
  | .ok value => .ok value
  | .error err => .error (convert err)
  | .panic => .panic

@[simp] theorem mapError_ok (convert : ε → ε') (value : α) :
    mapError convert (.ok value) = .ok value := rfl

theorem mapError_eq_ok {convert : ε → ε'} {result : Res ε α} {value : α} :
    mapError convert result = .ok value ↔ result = .ok value := by
  cases result <;> simp [mapError]

theorem bind_eq_ok {result : Res ε α} {next : α → Res ε β} {value : β} :
    (result >>= next) = .ok value ↔
      ∃ middle, result = .ok middle ∧ next middle = .ok value := by
  cases result with
  | ok middle =>
      constructor
      · intro rest
        exact ⟨middle, rfl, rest⟩
      · rintro ⟨_, same, rest⟩
        cases same
        exact rest
  | error err => simp
  | panic => simp

/-- A sequence of functions that return returns. -/
theorem bind_returns {result : Res ε α} {next : α → Res ε β}
    (first : ∃ value, result = .ok value)
    (rest : ∀ value, ∃ output, next value = .ok output) :
    ∃ output, (result >>= next) = .ok output := by
  obtain ⟨value, rfl⟩ := first
  exact rest value

/-- A loop without state returns exactly when every turn does. -/
theorem forM_eq_ok {step : β → Res ε PUnit} {items : List β} :
    items.forM step = .ok () ↔ ∀ item ∈ items, step item = .ok () := by
  induction items with
  | nil => simp
  | cons item items induction =>
      rw [List.forall_mem_cons, ← induction]
      refine bind_eq_ok.trans ?_
      constructor
      · rintro ⟨_, first, rest⟩
        exact ⟨first, rest⟩
      · rintro ⟨first, rest⟩
        exact ⟨(), first, rest⟩

/-- A loop over rows of items is one loop over all the items. -/
theorem foldlM_flatMap {rows : List α} {row : α → List β}
    (step : σ → β → Res ε σ) (start : σ) :
    (rows.flatMap row).foldlM step start =
      rows.foldlM (fun state item => (row item).foldlM step state) start := by
  induction rows generalizing start with
  | nil => rfl
  | cons item rows induction =>
      rw [List.flatMap_cons, List.foldlM_append, List.foldlM_cons]
      apply congrArg
      funext state
      exact induction state

/-- A loop over a list keeps an invariant that may name the items already
done.  Every step returns, so the loop returns. -/
theorem foldlM_ok {step : σ → β → Res ε σ} (inv : List β → σ → Prop)
    (items : List β) (start : σ) (atStart : inv [] start)
    (preserved : ∀ (done : List β) (item : β) (rest : List β) (state : σ),
      items = done ++ item :: rest → inv done state →
        ∃ next, step state item = .ok next ∧ inv (done ++ [item]) next) :
    ∃ final, items.foldlM step start = .ok final ∧ inv items final := by
  suffices general : ∀ (rest done : List β) (state : σ),
      items = done ++ rest → inv done state →
        ∃ final, rest.foldlM step state = .ok final ∧ inv items final by
    exact general items [] start rfl atStart
  intro rest
  induction rest with
  | nil =>
      intro done state split held
      refine ⟨state, rfl, ?_⟩
      simpa [split] using held
  | cons item rest induction =>
      intro done state split held
      obtain ⟨next, stepped, kept⟩ :=
        preserved done item rest state split held
      obtain ⟨final, finished, holds⟩ :=
        induction (done ++ [item]) next (by simp [split]) kept
      exact ⟨final, by simp [List.foldlM_cons, stepped, finished], holds⟩

/-- A loop whose steps return keeps a property of the state that every step
keeps. -/
theorem foldlM_preserves {step : σ → β → Res ε σ} (holds : σ → Prop)
    {items : List β} {start final : σ} (atStart : holds start)
    (preserved : ∀ state item next, item ∈ items → holds state →
      step state item = .ok next → holds next)
    (finished : items.foldlM step start = .ok final) : holds final := by
  induction items generalizing start with
  | nil =>
      cases finished
      exact atStart
  | cons item items induction =>
      rw [List.foldlM_cons] at finished
      obtain ⟨next, stepped, rest⟩ := bind_eq_ok.mp finished
      exact induction
        (preserved start item next List.mem_cons_self atStart stepped)
        (fun state other after member =>
          preserved state other after (List.mem_cons_of_mem _ member)) rest

/-- A loop over another view of the state takes the turns of the first. -/
theorem foldlM_follows {τ : Type} {step : σ → β → Res ε σ}
    {other : τ → β → Option τ} (view : σ → τ) (holds : σ → Prop)
    {items : List β} {start final : σ} (atStart : holds start)
    (follows : ∀ state item next, item ∈ items → holds state →
      step state item = .ok next →
        other (view state) item = some (view next) ∧ holds next)
    (finished : items.foldlM step start = .ok final) :
    items.foldlM other (view start) = some (view final) ∧ holds final := by
  induction items generalizing start with
  | nil =>
      cases finished
      exact ⟨rfl, atStart⟩
  | cons item items induction =>
      rw [List.foldlM_cons] at finished
      obtain ⟨next, stepped, rest⟩ := bind_eq_ok.mp finished
      obtain ⟨turned, kept⟩ :=
        follows start item next List.mem_cons_self atStart stepped
      have later := induction kept
        (fun state other after member =>
          follows state other after (List.mem_cons_of_mem _ member)) rest
      refine ⟨?_, later.2⟩
      rw [List.foldlM_cons, turned]
      exact later.1

/-- Does some item satisfy a test that may itself fail?  Later items are not
looked at. -/
def any (test : β → Res ε Bool) : List β → Res ε Bool
  | [] => .ok false
  | item :: items => do
      let found ← test item
      if found then .ok true else any test items

theorem any_ok {test : β → Res ε Bool} {holds : β → Bool} {items : List β}
    (tested : ∀ item ∈ items, test item = .ok (holds item)) :
    any test items = .ok (items.any holds) := by
  induction items with
  | nil => rfl
  | cons item items induction =>
      have rest := induction (fun other member =>
        tested other (List.mem_cons_of_mem _ member))
      rw [any, tested item List.mem_cons_self, List.any_cons]
      cases holds item with
      | true => simp
      | false => simpa using rest

/-- Keep the images of the items that have one. -/
def filterMap (function : α → Res ε (Option β)) : List α → Res ε (List β)
  | [] => .ok []
  | item :: items => do
      let image ← function item
      let rest ← filterMap function items
      match image with
      | some value => .ok (value :: rest)
      | none => .ok rest

theorem filterMap_ok {function : α → Res ε (Option β)} {image : α → Option β}
    {items : List α} (computed : ∀ item ∈ items, function item = .ok (image item)) :
    filterMap function items = .ok (items.filterMap image) := by
  induction items with
  | nil => rfl
  | cons item items induction =>
      have rest := induction (fun other member =>
        computed other (List.mem_cons_of_mem _ member))
      rw [filterMap, computed item List.mem_cons_self, rest]
      cases same : image item <;> simp [same]

/-- Kept images come from items, and images of items that are related pair by
pair are related. -/
theorem filterMap_pairwise {function : α → Res ε (Option β)}
    {related : α → α → Prop} {images : β → β → Prop} {items : List α}
    {output : List β} (pairs : items.Pairwise related)
    (carried : ∀ left right leftImage rightImage, related left right →
      function left = .ok (some leftImage) →
      function right = .ok (some rightImage) → images leftImage rightImage)
    (computed : filterMap function items = .ok output) :
    output.Pairwise images ∧
      ∀ image ∈ output, ∃ item ∈ items, function item = .ok (some image) := by
  induction items generalizing output with
  | nil =>
      cases computed
      exact ⟨.nil, fun _ missing => nomatch missing⟩
  | cons item items induction =>
      obtain ⟨first, rest⟩ := List.pairwise_cons.mp pairs
      obtain ⟨image, isImage, computed⟩ := bind_eq_ok.mp computed
      obtain ⟨images, isImages, stored⟩ := bind_eq_ok.mp computed
      obtain ⟨pairwise, sources⟩ := induction rest isImages
      have later : ∀ other ∈ images, ∃ source ∈ item :: items,
          function source = .ok (some other) := by
        intro other member
        obtain ⟨source, isSource, found⟩ := sources other member
        exact ⟨source, List.mem_cons_of_mem _ isSource, found⟩
      cases image with
      | none =>
          cases stored
          exact ⟨pairwise, later⟩
      | some image =>
          cases stored
          refine ⟨List.pairwise_cons.mpr ⟨?_, pairwise⟩, ?_⟩
          · intro other member
            obtain ⟨source, isSource, found⟩ := sources other member
            exact carried item source image other (first source isSource)
              isImage found
          · exact List.forall_mem_cons.mpr
              ⟨⟨item, List.mem_cons_self, isImage⟩, later⟩

/-- The function returns no error, and a value it returns satisfies the
postcondition.  It may panic. -/
def Ensures (result : Res ε α) (post : α → Prop) : Prop :=
  match result with
  | .ok value => post value
  | .error _ => False
  | .panic => True

theorem Ensures.ok {value : α} {post : α → Prop} (holds : post value) :
    (Res.ok value : Res ε α).Ensures post := holds

theorem Ensures.of_returns {result : Res ε α} {post : α → Prop}
    (returns : ∃ value, result = .ok value ∧ post value) :
    result.Ensures post := by
  obtain ⟨value, rfl, holds⟩ := returns
  exact holds

theorem Ensures.bind {result : Res ε α} {next : α → Res ε β}
    (middle : α → Prop) {post : β → Prop} (first : result.Ensures middle)
    (rest : ∀ value, middle value → (next value).Ensures post) :
    (result >>= next).Ensures post := by
  cases result with
  | ok value => exact rest value first
  | error err => exact first.elim
  | panic => trivial

theorem Ensures.mapError {convert : ε → ε'} {result : Res ε α}
    {post : α → Prop} (first : result.Ensures post) :
    (result.mapError convert).Ensures post := by
  cases result with
  | ok value => exact first
  | error err => exact first.elim
  | panic => trivial

theorem Ensures.of_ok {result : Res ε α} {post : α → Prop} {value : α}
    (ensures : result.Ensures post) (returned : result = .ok value) :
    post value := by
  rw [returned] at ensures
  exact ensures

end Res

/-- Outcome of a procedure: it returns a value or an error together with the
state it leaves behind, or it panics. -/
inductive Outcome (σ ε α : Type) where
  | ok (value : α) (state : σ)
  | error (err : ε) (state : σ)
  | panic

/-- A procedure on a mutable state. -/
def Proc (σ ε α : Type) := σ → Outcome σ ε α

namespace Proc

variable {σ τ ε ε' α β : Type}

protected def bind (first : Proc σ ε α) (next : α → Proc σ ε β) :
    Proc σ ε β := fun state =>
  match first state with
  | .ok value after => next value after
  | .error err after => .error err after
  | .panic => .panic

instance : Monad (Proc σ ε) where
  pure value := fun state => .ok value state
  bind := Proc.bind

instance : LawfulMonad (Proc σ ε) := LawfulMonad.mk' (Proc σ ε)
  (fun proc => funext fun state => by
    show Proc.bind proc _ state = proc state
    unfold Proc.bind
    cases proc state <;> rfl)
  (fun _ _ => rfl)
  (fun proc _ _ => funext fun state => by
    show Proc.bind (Proc.bind proc _) _ state = Proc.bind proc _ state
    unfold Proc.bind
    cases proc state <;> rfl)

/-- Read the state. -/
def get : Proc σ ε σ := fun state => .ok state state

/-- Replace the state. -/
def set (state : σ) : Proc σ ε Unit := fun _ => .ok () state

/-- Change the state. -/
def modify (change : σ → σ) : Proc σ ε Unit := fun state =>
  .ok () (change state)

/-- Return an error and keep the state. -/
def throw (err : ε) : Proc σ ε α := fun state => .error err state

/-- Run a function without state, converting its error. -/
def ofRes (convert : ε' → ε) (result : Res ε' α) : Proc σ ε α := fun state =>
  match result with
  | .ok value => .ok value state
  | .error err => .error (convert err) state
  | .panic => .panic

/-- Run a procedure on a part of the state. -/
def zoom (part : σ → τ) (store : τ → σ → σ) (convert : ε' → ε)
    (inner : Proc τ ε' α) : Proc σ ε α := fun state =>
  match inner (part state) with
  | .ok value after => .ok value (store after state)
  | .error err after => .error (convert err) (store after state)
  | .panic => .panic

/-- Run a procedure and hand its returned error to the caller as a value. -/
def attempt (inner : Proc σ ε' α) : Proc σ ε (Except ε' α) := fun state =>
  match inner state with
  | .ok value after => .ok (.ok value) after
  | .error err after => .ok (.error err) after
  | .panic => .panic

/-- Stop without a result and without a state. -/
def panic : Proc σ ε α := fun _ => .panic

/-- Run a procedure for each item and collect everything it gives. -/
def gather (procedure : α → Proc σ ε (List β)) : List α → Proc σ ε (List β)
  | [] => pure []
  | item :: items => do
      let first ← procedure item
      let rest ← gather procedure items
      return first ++ rest

@[simp] theorem pure_apply (value : α) (state : σ) :
    (pure value : Proc σ ε α) state = .ok value state := rfl

theorem bind_apply (first : Proc σ ε α) (next : α → Proc σ ε β) (state : σ) :
    (first >>= next) state =
      match first state with
      | .ok value after => next value after
      | .error err after => .error err after
      | .panic => .panic := rfl

@[simp] theorem get_apply (state : σ) :
    (get : Proc σ ε σ) state = .ok state state := rfl

@[simp] theorem set_apply (state before : σ) :
    (set state : Proc σ ε Unit) before = .ok () state := rfl

@[simp] theorem modify_apply (change : σ → σ) (state : σ) :
    (modify change : Proc σ ε Unit) state = .ok () (change state) := rfl

@[simp] theorem throw_apply (err : ε) (state : σ) :
    (throw err : Proc σ ε α) state = .error err state := rfl

@[simp] theorem ofRes_ok (convert : ε' → ε) (value : α) (state : σ) :
    (ofRes convert (.ok value) : Proc σ ε α) state = .ok value state := rfl

@[simp] theorem ofRes_panic (convert : ε' → ε) (state : σ) :
    (ofRes convert .panic : Proc σ ε α) state = .panic := rfl

@[simp] theorem ofRes_error (convert : ε' → ε) (err : ε') (state : σ) :
    (ofRes convert (.error err) : Proc σ ε α) state =
      .error (convert err) state := rfl

theorem bind_of_ok {first : Proc σ ε α} {next : α → Proc σ ε β}
    {state after : σ} {value : α} (returned : first state = .ok value after) :
    (first >>= next) state = next value after := by
  rw [bind_apply, returned]

/-- Started in `before`, the procedure returns the value or error `output` and
leaves `after`. -/
def Runs (proc : Proc σ ε α) (before : σ) (output : Except ε α) (after : σ) :
    Prop :=
  proc before =
    match output with
    | .ok value => .ok value after
    | .error err => .error err after

variable {before after : σ} {output : Except ε α} {result : Except ε β}

@[simp] theorem runs_pure {value : α} :
    (pure value : Proc σ ε α).Runs before output after ↔
      output = .ok value ∧ after = before := by
  cases output <;> simp [Runs, eq_comm]

@[simp] theorem runs_get {output : Except ε σ} :
    (get : Proc σ ε σ).Runs before output after ↔
      output = .ok before ∧ after = before := by
  cases output <;> simp [Runs, eq_comm]

@[simp] theorem runs_set {state : σ} {output : Except ε Unit} :
    (set state : Proc σ ε Unit).Runs before output after ↔
      output = .ok () ∧ after = state := by
  cases output <;> simp [Runs, eq_comm]

@[simp] theorem runs_modify {change : σ → σ} {output : Except ε Unit} :
    (modify change : Proc σ ε Unit).Runs before output after ↔
      output = .ok () ∧ after = change before := by
  cases output <;> simp [Runs, eq_comm]

@[simp] theorem runs_throw {err : ε} :
    (throw err : Proc σ ε α).Runs before output after ↔
      output = .error err ∧ after = before := by
  cases output <;> simp [Runs, eq_comm]

theorem runs_ofRes {convert : ε' → ε} {res : Res ε' α} :
    (ofRes convert res : Proc σ ε α).Runs before output after ↔
      after = before ∧ ((∃ value, res = .ok value ∧ output = .ok value) ∨
        ∃ err, res = .error err ∧ output = .error (convert err)) := by
  cases res <;> cases output <;> simp [Runs, eq_comm, and_comm]

/-- A sequence returns what its second part returns, or the error of its
first. -/
theorem runs_bind {first : Proc σ ε α} {next : α → Proc σ ε β} :
    (first >>= next).Runs before result after ↔
      (∃ value between, first.Runs before (.ok value) between ∧
        (next value).Runs between result after) ∨
      ∃ err, result = .error err ∧ first.Runs before (.error err) after := by
  unfold Runs
  rw [bind_apply]
  cases first before <;> cases result <;> simp [eq_comm]

theorem runs_get_bind {next : σ → Proc σ ε β} :
    (get >>= next).Runs before result after ↔
      (next before).Runs before result after := Iff.rfl

theorem runs_set_bind {state : σ} {next : Unit → Proc σ ε β} :
    (set state >>= next).Runs before result after ↔
      (next ()).Runs state result after := Iff.rfl

theorem runs_modify_bind {change : σ → σ} {next : Unit → Proc σ ε β} :
    (modify change >>= next).Runs before result after ↔
      (next ()).Runs (change before) result after := Iff.rfl

/-- A function without a state, and what follows it. -/
theorem runs_ofRes_bind {convert : ε' → ε} {res : Res ε' α}
    {next : α → Proc σ ε β} :
    (ofRes convert res >>= next).Runs before result after ↔
      (∃ value, res = .ok value ∧ (next value).Runs before result after) ∨
      ∃ err, res = .error err ∧ result = .error (convert err) ∧
        after = before := by
  unfold Runs
  rw [bind_apply]
  cases res <;> cases result <;> simp [ofRes, eq_comm, and_comm]

theorem runs_map {first : Proc σ ε α} {function : α → β} :
    (function <$> first).Runs before result after ↔
      (∃ value, first.Runs before (.ok value) after ∧
        result = .ok (function value)) ∨
      ∃ err, result = .error err ∧ first.Runs before (.error err) after := by
  change (first >>= fun value => pure (function value)).Runs _ _ _ ↔ _
  simp only [runs_bind, runs_pure]
  constructor
  · rintro (⟨value, between, returned, sameResult, rfl⟩ | failed)
    · exact .inl ⟨value, returned, sameResult⟩
    · exact .inr failed
  · rintro (⟨value, returned, sameResult⟩ | failed)
    · exact .inl ⟨value, after, returned, sameResult, rfl⟩
    · exact .inr failed

theorem runs_zoom {part : σ → τ} {store : τ → σ → σ} {convert : ε' → ε}
    {inner : Proc τ ε' α} :
    (zoom part store convert inner : Proc σ ε α).Runs before output after ↔
      ∃ innerOutput innerAfter, inner.Runs (part before) innerOutput innerAfter ∧
        after = store innerAfter before ∧
        output =
          match innerOutput with
          | .ok value => .ok value
          | .error err => .error (convert err) := by
  unfold Runs zoom
  constructor
  · intro returned
    generalize inner (part before) = outcome at returned
    cases outcome with
    | ok value innerAfter =>
        refine ⟨.ok value, innerAfter, rfl, ?_⟩
        cases output with
        | ok _ => simp_all
        | error _ => simp_all
    | error err innerAfter =>
        refine ⟨.error err, innerAfter, rfl, ?_⟩
        cases output with
        | ok _ => simp_all
        | error _ => simp_all
    | panic => cases output <;> simp at returned
  · rintro ⟨innerOutput, innerAfter, returned, rfl, rfl⟩
    cases innerOutput <;> simp [returned]

theorem runs_attempt {inner : Proc σ ε' α} {output : Except ε (Except ε' α)} :
    (attempt inner : Proc σ ε (Except ε' α)).Runs before output after ↔
      ∃ innerOutput, inner.Runs before innerOutput after ∧
        output = .ok innerOutput := by
  unfold Runs attempt
  constructor
  · intro returned
    generalize inner before = outcome at returned
    cases outcome with
    | ok value innerAfter =>
        refine ⟨.ok value, ?_⟩
        cases output <;> simp at returned
        simp [returned]
    | error err innerAfter =>
        refine ⟨.error err, ?_⟩
        cases output <;> simp at returned
        simp [returned]
    | panic => cases output <;> simp at returned
  · rintro ⟨innerOutput, returned, rfl⟩
    cases innerOutput <;> simp [returned]

/-- Started in `before`, the procedure does not panic, and it returns no error
but allowed ones. -/
def Returns (proc : Proc σ ε α) (before : σ) (allowed : ε → Prop) : Prop :=
  ∃ output after, proc.Runs before output after ∧
    ∀ err, output = .error err → allowed err

variable {allowed : ε → Prop}

theorem returns_pure {value : α} :
    (pure value : Proc σ ε α).Returns before allowed :=
  ⟨.ok value, before, runs_pure.mpr ⟨rfl, rfl⟩, by simp⟩

theorem returns_modify {change : σ → σ} :
    (modify change : Proc σ ε Unit).Returns before allowed :=
  ⟨.ok (), change before, runs_modify.mpr ⟨rfl, rfl⟩, by simp⟩

theorem returns_throw {err : ε} (isAllowed : allowed err) :
    (throw err : Proc σ ε α).Returns before allowed :=
  ⟨.error err, before, runs_throw.mpr ⟨rfl, rfl⟩, by
    rintro other same
    cases same
    exact isAllowed⟩

theorem returns_bind {first : Proc σ ε α} {next : α → Proc σ ε β}
    (firstReturns : first.Returns before allowed)
    (rest : ∀ value between, first.Runs before (.ok value) between →
      (next value).Returns between allowed) :
    (first >>= next).Returns before allowed := by
  obtain ⟨output, between, ran, onlyAllowed⟩ := firstReturns
  cases output with
  | ok value =>
      obtain ⟨result, after, continued, resultAllowed⟩ := rest value between ran
      exact ⟨result, after, runs_bind.mpr (.inl ⟨value, between, ran, continued⟩),
        resultAllowed⟩
  | error err =>
      refine ⟨.error err, between, runs_bind.mpr (.inr ⟨err, rfl, ran⟩), ?_⟩
      rintro other same
      cases same
      exact onlyAllowed err rfl

theorem returns_map {first : Proc σ ε α} {function : α → β}
    (firstReturns : first.Returns before allowed) :
    (function <$> first).Returns before allowed :=
  returns_bind firstReturns fun _ _ _ => returns_pure

/-- A function without state that returns lets the procedure go on. -/
theorem returns_ofRes_bind {convert : ε' → ε} {res : Res ε' α}
    {next : α → Proc σ ε β} (value : α) (computed : res = .ok value)
    (rest : (next value).Returns before allowed) :
    (ofRes convert res >>= next).Returns before allowed := by
  rw [computed]
  exact rest

theorem Returns.mono {proc : Proc σ ε α} {wider : ε → Prop}
    (returns : proc.Returns before allowed)
    (widens : ∀ err, allowed err → wider err) :
    proc.Returns before wider := by
  obtain ⟨output, after, ran, onlyAllowed⟩ := returns
  exact ⟨output, after, ran, fun err failed => widens err (onlyAllowed err failed)⟩

/-- A loop over procedures that return no error returns none. -/
theorem gather_safe {procedure : α → Proc σ ε (List β)} {items : List α}
    {err : ε}
    (safe : ∀ item (state next : σ),
      ¬ (procedure item).Runs state (.error err) next) :
    ¬ (gather procedure items).Runs before (.error err) after := by
  induction items generalizing before with
  | nil => simp [gather]
  | cons item items induction =>
      simp only [gather, runs_bind, runs_pure]
      rintro (⟨_, _, _, ⟨_, _, _, same, _⟩ | ⟨_, same, failed⟩⟩ |
        ⟨_, same, failed⟩)
      · cases same
      · cases same
        exact induction failed
      · cases same
        exact safe _ _ _ failed

end Proc

end RmDisplay.Foundation
