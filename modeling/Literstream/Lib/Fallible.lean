import Mathlib.Data.List.Basic

/-!
# Stateful procedures that may fail

A failed procedure keeps the state it had reached.  `Holds` is the triple for
such procedures: what is known after a success and what is known after a
failure.  The rules follow the way procedures are put together.
-/

/-- A procedure that changes a state and returns a value or an error. -/
def Fallible (σ ε α : Type) : Type := σ → Except ε α × σ

namespace Fallible

variable {σ ε α β : Type}

def andThen (first : Fallible σ ε α) (next : α → Fallible σ ε β) :
    Fallible σ ε β := fun state =>
  match first state with
  | (.ok value, middle) => next value middle
  | (.error error, middle) => (.error error, middle)

instance : Monad (Fallible σ ε) where
  pure value := fun state => (.ok value, state)
  bind := andThen

/-- Lift a result that does not depend on the state. -/
def ofExcept (result : Except ε α) : Fallible σ ε α :=
  fun state => (result, state)

def current : Fallible σ ε σ := fun state => (.ok state, state)

def change (update : σ → σ) : Fallible σ ε Unit :=
  fun state => (.ok (), update state)

def forEach (body : α → Fallible σ ε Unit) : List α → Fallible σ ε Unit
  | [] => pure ()
  | item :: rest => do
      body item
      forEach body rest

def collect (body : α → Fallible σ ε β) : List α → Fallible σ ε (List β)
  | [] => pure []
  | item :: rest => do
      let value ← body item
      let values ← collect body rest
      return value :: values

/-- From `pre`, a success leads to `post` and a failure to `failed`. -/
def Holds (pre : σ → Prop) (program : Fallible σ ε α) (post : α → σ → Prop)
    (failed : σ → Prop) : Prop :=
  ∀ state, pre state →
    match program state with
    | (.ok value, final) => post value final
    | (.error _, final) => failed final

variable {pre : σ → Prop} {post : α → σ → Prop} {failed : σ → Prop}

theorem holds_pure {value : α} (holds : ∀ state, pre state → post value state) :
    Holds pre (pure value : Fallible σ ε α) post failed :=
  fun state initial => holds state initial

theorem holds_ofExcept {result : Except ε α}
    (success : ∀ value state, result = .ok value → pre state →
      post value state)
    (failure : ∀ state, pre state → failed state) :
    Holds pre (ofExcept result) post failed := by
  intro state initial
  cases result with
  | error error => exact failure state initial
  | ok value => exact success value state rfl initial

theorem holds_current :
    Holds pre (current : Fallible σ ε σ)
      (fun value final => value = final ∧ pre final) failed :=
  fun _ initial => ⟨rfl, initial⟩

theorem holds_change {update : σ → σ} {post : Unit → σ → Prop}
    (holds : ∀ state, pre state → post () (update state)) :
    Holds pre (change update : Fallible σ ε Unit) post failed :=
  fun state initial => holds state initial

theorem Holds.bind {first : Fallible σ ε α} {next : α → Fallible σ ε β}
    {middle : α → σ → Prop} {post : β → σ → Prop}
    (head : Holds pre first middle failed)
    (tail : ∀ value, Holds (middle value) (next value) post failed) :
    Holds pre (first >>= next) post failed := by
  intro state initial
  have reached := head state initial
  change match andThen first next state with
    | (.ok value, final) => post value final
    | (.error _, final) => failed final
  unfold andThen
  cases ran : first state with
  | mk result between =>
      rw [ran] at reached
      cases result with
      | error error => exact reached
      | ok value => exact tail value between reached

theorem Holds.weaken {program : Fallible σ ε α} {weakPost : α → σ → Prop}
    {weakFailed : σ → Prop} {strongPre : σ → Prop}
    (holds : Holds pre program post failed)
    (before : ∀ state, strongPre state → pre state)
    (after : ∀ value state, post value state → weakPost value state)
    (otherwise : ∀ state, failed state → weakFailed state) :
    Holds strongPre program weakPost weakFailed := by
  intro state initial
  have reached := holds state (before state initial)
  cases ran : program state with
  | mk result final =>
      rw [ran] at reached
      cases result with
      | error error => exact otherwise final reached
      | ok value => exact after value final reached

/-- A procedure that goes on after a success. -/
theorem bind_of_ok {first : Fallible σ ε α} {next : α → Fallible σ ε β}
    {state middle : σ} {value : α} (ran : first state = (.ok value, middle)) :
    (first >>= next) state = next value middle := by
  change andThen first next state = _
  rw [andThen, ran]

/-- A procedure that stops after a failure. -/
theorem bind_of_error {first : Fallible σ ε α} {next : α → Fallible σ ε β}
    {state middle : σ} {error : ε} (ran : first state = (.error error, middle)) :
    (first >>= next) state = (.error error, middle) := by
  change andThen first next state = _
  rw [andThen, ran]

/-- Values that are all found without changing the state are collected. -/
theorem collect_of_ok {body : α → Fallible σ ε β} {state : σ} {items : List α}
    {values : List β} (each : List.Forall₂ (fun item value =>
      body item state = (.ok value, state)) items values) :
    collect body items state = (.ok values, state) := by
  induction each with
  | nil => rfl
  | cons found _ ih =>
      rw [collect, bind_of_ok found, bind_of_ok ih]
      rfl

/-- Two facts about one procedure. -/
theorem Holds.and {program : Fallible σ ε α} {post' : α → σ → Prop}
    {failed' : σ → Prop} (left : Holds pre program post failed)
    (right : Holds pre program post' failed') :
    Holds pre program (fun value final => post value final ∧ post' value final)
      (fun final => failed final ∧ failed' final) := by
  intro state initial
  have first := left state initial
  have second := right state initial
  cases ran : program state with
  | mk result final =>
      rw [ran] at first second
      cases result with
      | error error => exact ⟨first, second⟩
      | ok value => exact ⟨first, second⟩

/-- What holds after success and failure alike holds of the final state. -/
theorem Holds.final {program : Fallible σ ε α} {always : σ → Prop}
    (holds : Holds pre program (fun _ => always) always) {state : σ}
    (initial : pre state) : always (program state).2 := by
  have reached := holds state initial
  cases ran : program state with
  | mk result final =>
      rw [ran] at reached
      cases result with
      | error error => exact reached
      | ok value => exact reached

/-- Start from a known state, up to a reflexive relation. -/
theorem holds_of_start {program : Fallible σ ε α} {near : σ → σ → Prop}
    (refl : ∀ state, near state state)
    (each : ∀ start, pre start → Holds (near start) program post failed) :
    Holds pre program post failed :=
  fun state initial => each state initial state (refl state)

/-- Use a fact that does not depend on the state. -/
theorem holds_of_fact {program : Fallible σ ε α} {fact : Prop}
    (holds : fact → Holds pre program post failed) :
    Holds (fun state => fact ∧ pre state) program post failed :=
  fun state initial => holds initial.1 state initial.2

/-- A fact that does not depend on the state survives a procedure. -/
theorem Holds.frame {program : Fallible σ ε α} (fact : Prop)
    (holds : Holds pre program post failed) :
    Holds (fun state => fact ∧ pre state) program
      (fun value final => fact ∧ post value final) failed := by
  intro state initial
  have reached := holds state initial.2
  cases ran : program state with
  | mk result final =>
      rw [ran] at reached
      cases result with
      | error error => exact reached
      | ok value => exact ⟨initial.1, reached⟩

/-- A fact that does not depend on the state may be assumed afterwards. -/
theorem holds_of_imp {program : Fallible σ ε α} {fact : Prop}
    (holds : fact → Holds pre program post failed) :
    Holds pre program (fun value final => fact → post value final)
      (fun final => fact → failed final) := by
  intro state initial
  cases ran : program state with
  | mk result final =>
      cases result with
      | error error =>
          intro given
          have reached := holds given state initial
          rw [ran] at reached
          exact reached
      | ok value =>
          intro given
          have reached := holds given state initial
          rw [ran] at reached
          exact reached

/-- The loop rule: the invariant knows which items are left. -/
theorem holds_forEach {body : α → Fallible σ ε Unit}
    (inv : List α → σ → Prop)
    (step : ∀ item rest, Holds (inv (item :: rest)) (body item)
      (fun _ => inv rest) failed) (items : List α) :
    Holds (inv items) (forEach body items) (fun _ => inv []) failed := by
  induction items with
  | nil => exact holds_pure fun _ initial => initial
  | cons item rest ih => exact (step item rest).bind fun _ => ih

/-- Collecting values keeps an invariant and relates every value to its
item. -/
theorem holds_collect {body : α → Fallible σ ε β} {inv : σ → Prop}
    (related : α → β → Prop)
    (step : ∀ item, Holds inv (body item)
      (fun value final => related item value ∧ inv final) failed)
    (items : List α) :
    Holds inv (collect body items)
      (fun values final => List.Forall₂ related items values ∧ inv final)
      failed := by
  induction items with
  | nil => exact holds_pure fun _ initial => ⟨.nil, initial⟩
  | cons item rest ih =>
      apply (step item).bind
      intro value
      apply (ih.frame (related item value)).bind
      intro values
      exact holds_pure fun _ reached => ⟨.cons reached.1 reached.2.1, reached.2.2⟩

end Fallible
