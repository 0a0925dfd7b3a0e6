import Mathlib.Data.List.Basic

/-!
# Scripts of operations

A script lists the operations that a fallible procedure performs on some
device, and its result when none of them fails.  A procedure that is stopped
half-way has performed a prefix of its operations, so what can be on the device
is read off the list.
-/

/-- The operations of a procedure and the result it returns after them. -/
structure Script (ω ε α : Type) where
  ops : List ω
  result : Except ε α

namespace Script

variable {ω ε α β : Type}

/-- A computation without operations. -/
def lift (result : Except ε α) : Script ω ε α where
  ops := []
  result := result

/-- A single operation. -/
def emit (op : ω) : Script ω ε Unit where
  ops := [op]
  result := .ok ()

/-- Go on with the result of a procedure; an error ends the script. -/
def andThen (first : Script ω ε α) (next : α → Script ω ε β) :
    Script ω ε β :=
  match first.result with
  | .error error => { ops := first.ops, result := .error error }
  | .ok value =>
      { ops := first.ops ++ (next value).ops, result := (next value).result }

instance : Monad (Script ω ε) where
  pure value := lift (.ok value)
  bind := andThen

@[simp] theorem ops_pure (value : α) :
    (pure value : Script ω ε α).ops = [] := rfl

@[simp] theorem result_pure (value : α) :
    (pure value : Script ω ε α).result = .ok value := rfl

@[simp] theorem ops_lift (result : Except ε α) :
    (lift result : Script ω ε α).ops = [] := rfl

@[simp] theorem result_lift (result : Except ε α) :
    (lift result : Script ω ε α).result = result := rfl

theorem bind_of_ok {first : Script ω ε α} {next : α → Script ω ε β}
    {value : α} (done : first.result = .ok value) :
    first >>= next =
      { ops := first.ops ++ (next value).ops, result := (next value).result } := by
  change andThen first next = _
  simp only [andThen, done]

theorem bind_of_error {first : Script ω ε α} {next : α → Script ω ε β}
    {error : ε} (failed : first.result = .error error) :
    first >>= next = { ops := first.ops, result := .error error } := by
  change andThen first next = _
  simp only [andThen, failed]

@[simp] theorem emit_bind (op : ω) (next : Unit → Script ω ε β) :
    emit op >>= next =
      { ops := op :: (next ()).ops, result := (next ()).result } := rfl

@[simp] theorem lift_ok_bind (value : α) (next : α → Script ω ε β) :
    lift (.ok value) >>= next = next value := rfl

@[simp] theorem lift_error_bind (error : ε) (next : α → Script ω ε β) :
    lift (.error error) >>= next = lift (.error error) := rfl

/-- A successful script splits into its two successful halves. -/
theorem result_bind_eq_ok {first : Script ω ε α} {next : α → Script ω ε β}
    {value : β} (done : (first >>= next).result = .ok value) :
    ∃ middle, first.result = .ok middle ∧ (next middle).result = .ok value ∧
      (first >>= next).ops = first.ops ++ (next middle).ops := by
  cases finished : first.result with
  | error error =>
      rw [bind_of_error finished] at done
      cases done
  | ok middle =>
      rw [bind_of_ok finished] at done ⊢
      exact ⟨middle, rfl, done, rfl⟩

/-- Every operation of a sequence satisfies what all operations of its halves
satisfy. -/
theorem forall_ops_bind {motive : ω → Prop} {first : Script ω ε α}
    {next : α → Script ω ε β} (head : ∀ op ∈ first.ops, motive op)
    (tail : ∀ value, ∀ op ∈ (next value).ops, motive op) :
    ∀ op ∈ (first >>= next).ops, motive op := by
  cases finished : first.result with
  | error error =>
      rw [bind_of_error finished]
      exact head
  | ok value =>
      rw [bind_of_ok finished]
      intro op member
      rcases List.mem_append.mp member with early | late
      · exact head op early
      · exact tail value op late

/-- The same operations with errors of another kind. -/
def mapError {ε' : Type} (wrap : ε → ε') (script : Script ω ε α) :
    Script ω ε' α where
  ops := script.ops
  result := script.result.mapError wrap

section MapError

variable {ε' : Type} {wrap : ε → ε'}

@[simp] theorem mapError_pure (value : α) :
    (pure value : Script ω ε α).mapError wrap = pure value := rfl

@[simp] theorem mapError_lift (result : Except ε α) :
    (lift result : Script ω ε α).mapError wrap =
      lift (result.mapError wrap) := rfl

@[simp] theorem mapError_emit (op : ω) :
    (emit op : Script ω ε Unit).mapError wrap = emit op := rfl

theorem mapError_bind (first : Script ω ε α) (next : α → Script ω ε β) :
    (first >>= next).mapError wrap =
      first.mapError wrap >>= fun value => (next value).mapError wrap := by
  cases finished : first.result with
  | error error =>
      have wrapped : (first.mapError wrap).result = .error (wrap error) := by
        rw [mapError, finished]
        rfl
      rw [bind_of_error finished, bind_of_error wrapped]
      rfl
  | ok value =>
      have wrapped : (first.mapError wrap).result = .ok value := by
        rw [mapError, finished]
        rfl
      rw [bind_of_ok finished, bind_of_ok wrapped]
      rfl

theorem mapError_result_eq_ok {script : Script ω ε α} {value : α} :
    (script.mapError wrap).result = .ok value ↔ script.result = .ok value := by
  rw [mapError]
  cases script.result <;> simp [Except.mapError]

end MapError

end Script
