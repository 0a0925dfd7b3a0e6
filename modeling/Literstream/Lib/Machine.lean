import Mathlib.Data.List.Basic

/-!
# Guarded runs of a partial step function

A machine is a partial step function: `none` means that the action is not
enabled.  `Reaches` collects the states reached by steps that all meet a
guard, and `Reaches.invariant` is the only induction over runs the
development needs.
-/

namespace Machine

variable {σ α : Type*}

/-- States reached from `start` by enabled steps that all meet `guard`. -/
inductive Reaches (step : σ → α → Option σ) (guard : σ → α → Prop)
    (start : σ) : σ → Prop where
  | refl : Reaches step guard start start
  | tail {middle final : σ} {action : α} :
      Reaches step guard start middle →
      guard middle action →
      step middle action = some final →
      Reaches step guard start final

variable {step : σ → α → Option σ} {guard : σ → α → Prop}

theorem Reaches.invariant {inv : σ → Prop} {start final : σ}
    (run : Reaches step guard start final) (initial : inv start)
    (preserved : ∀ state action next, inv state → guard state action →
      step state action = some next → inv next) :
    inv final := by
  induction run with
  | refl => exact initial
  | tail _ allowed stepped ih => exact preserved _ _ _ ih allowed stepped

theorem Reaches.trans {start middle final : σ}
    (first : Reaches step guard start middle)
    (second : Reaches step guard middle final) :
    Reaches step guard start final := by
  induction second with
  | refl => exact first
  | tail _ allowed stepped ih => exact .tail ih allowed stepped

/-- Execute a list of actions, checking the guard before every step. -/
def execGuarded (step : σ → α → Option σ) (guard : σ → α → Prop)
    [∀ state action, Decidable (guard state action)] :
    σ → List α → Option σ
  | state, [] => some state
  | state, action :: rest =>
      if guard state action then
        (step state action).bind (execGuarded step guard · rest)
      else none

theorem reaches_of_execGuarded
    [∀ state action, Decidable (guard state action)]
    {start final : σ} {actions : List α}
    (executed : execGuarded step guard start actions = some final) :
    Reaches step guard start final := by
  induction actions generalizing start with
  | nil =>
      cases executed
      exact .refl
  | cons action rest ih =>
      rw [execGuarded] at executed
      split at executed
      · rename_i allowed
        cases stepped : step start action with
        | none => simp [stepped] at executed
        | some next =>
            simp only [stepped, Option.bind_some] at executed
            exact (Reaches.tail .refl allowed stepped).trans (ih executed)
      · cases executed

/-- Execute actions that look at the state they start from. -/
def play (step : σ → α → Option σ) : σ → List (σ → α) → Option σ
  | state, [] => some state
  | state, choose :: rest =>
      (step state (choose state)).bind (play step · rest)

theorem reaches_of_play {start final : σ} {choices : List (σ → α)}
    (allowed : ∀ choose ∈ choices, ∀ state, guard state (choose state))
    (played : play step start choices = some final) :
    Reaches step guard start final := by
  induction choices generalizing start with
  | nil =>
      cases played
      exact .refl
  | cons choose rest ih =>
      obtain ⟨next, stepped, later⟩ := Option.bind_eq_some_iff.mp played
      have first := allowed choose (by simp) start
      exact (Reaches.tail .refl first stepped).trans
        (ih (fun other member => allowed other (by simp [member])) later)

end Machine
