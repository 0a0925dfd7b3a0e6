import Literstream.Lib.Asking
import Literstream.Lib.Script

/-!
# Programs that ask and perform

A program that asks may also perform operations on a device of its own.  When
some query fails it has performed a part of the script that it would have
performed had all its queries been answered.
-/

namespace Script

variable {ω ε α β : Type}

/-- All of a script, or a part of it that ends with an error. -/
inductive Cut (whole : Script ω ε α) : Script ω ε α → Prop where
  | whole : Cut whole whole
  | stopped {ops : List ω} {error : ε} :
      ops <+: whole.ops → Cut whole { ops := ops, result := .error error }

theorem ops_isPrefix_bind (first : Script ω ε α)
    (next : α → Script ω ε β) : first.ops <+: (first >>= next).ops := by
  cases finished : first.result with
  | error error =>
      have stopped : (first >>= next).ops = first.ops := by
        rw [bind_of_error finished]
      exact ⟨[], by rw [stopped, List.append_nil]⟩
  | ok value =>
      rw [bind_of_ok finished]
      exact List.prefix_append _ _

theorem lift_bind (first : Except ε α) (next : α → Except ε β) :
    (lift (first >>= next) : Script ω ε β) =
      lift first >>= fun value => lift (next value) := by
  cases first <;> rfl

theorem Cut.of_ok {whole script : Script ω ε α} {value : α}
    (cut : whole.Cut script) (done : script.result = .ok value) :
    script = whole := by
  cases cut with
  | whole => rfl
  | stopped _ => cases done

/-- The operations of a part are the first ones of the script. -/
theorem Cut.isPrefix {whole script : Script ω ε α} (cut : whole.Cut script) :
    script.ops <+: whole.ops := by
  cases cut with
  | whole => exact List.prefix_rfl
  | stopped isPrefix => exact isPrefix

end Script

namespace Asking

variable {κ : Type} {ρ : κ → Type} {ω ε α β : Type}

/-- A program that performs a script. -/
abbrev Performer (κ : Type) (ρ : κ → Type) (ω ε α : Type) :=
  Asking κ ρ (Script ω ε α)

namespace Performer

/-- Perform one script after the other, unless the first one fails. -/
def chain (first : Performer κ ρ ω ε α) (next : α → Performer κ ρ ω ε β) :
    Performer κ ρ ω ε β :=
  Asking.andThen first fun script =>
    match script.result with
    | .error error =>
        .returns { ops := script.ops, result := .error error }
    | .ok value =>
        Asking.andThen (next value) fun rest =>
          .returns { ops := script.ops ++ rest.ops, result := rest.result }

/-- Whichever queries fail, a part of the script is performed. -/
def Performs (oracle : (query : κ) → Option (ρ query))
    (program : Performer κ ρ ω ε α) (whole : Script ω ε α) : Prop :=
  Asking.Yields oracle program whole.Cut

variable {oracle : (query : κ) → Option (ρ query)}

theorem performs_returns (script : Script ω ε α) :
    Performs (κ := κ) (ρ := ρ) oracle (.returns script) script :=
  .whole

theorem Performs.bind {first : Performer κ ρ ω ε α}
    {next : α → Performer κ ρ ω ε β} {whole : Script ω ε α}
    {rest : α → Script ω ε β} (head : first.Performs oracle whole)
    (tail : ∀ value, whole.result = .ok value →
      (next value).Performs oracle (rest value)) :
    (first.chain next).Performs oracle (whole >>= rest) := by
  apply Asking.Yields.bind head
  intro script cut
  cases cut with
  | stopped isPrefix =>
      exact .stopped (isPrefix.trans (whole.ops_isPrefix_bind rest))
  | whole =>
      cases finished : whole.result with
      | error error =>
          rw [Script.bind_of_error finished]
          exact .whole
      | ok value =>
          dsimp only
          apply Asking.Yields.bind (tail value finished)
          intro later laterCut
          rw [Script.bind_of_ok finished]
          cases laterCut with
          | whole => exact .whole
          | stopped isPrefix =>
              exact .stopped ((List.prefix_append_right_inj _).mpr isPrefix)

/-- Whatever is replied, only `allowed` queries are asked. -/
def Only (allowed : κ → Prop) (program : Performer κ ρ ω ε α) : Prop :=
  Asking.Always allowed program fun _ => True

variable {allowed : κ → Prop}

theorem only_returns (script : Script ω ε α) :
    Only (κ := κ) (ρ := ρ) allowed (.returns script) :=
  trivial

theorem Only.chain {first : Performer κ ρ ω ε α}
    {next : α → Performer κ ρ ω ε β} (head : first.Only allowed)
    (tail : ∀ value, (next value).Only allowed) :
    (first.chain next).Only allowed := by
  apply Asking.Always.bind head
  intro script _
  split
  · trivial
  · exact Asking.Always.bind (tail _) fun _ _ => trivial

theorem only_returns_chain {script : Script ω ε α}
    {next : α → Performer κ ρ ω ε β}
    (tail : ∀ value, script.result = .ok value → (next value).Only allowed) :
    Only allowed (chain (.returns script) next) := by
  change Asking.Always allowed (match script.result with
    | .error error => _
    | .ok value => _) _
  split
  · trivial
  · rename_i value finished
    exact Asking.Always.bind (tail value finished) fun _ _ => trivial

end Performer

end Asking
