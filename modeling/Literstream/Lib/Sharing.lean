import Mathlib.Data.List.Basic

/-!
# Shared machines

Several actors use one machine, and every action gets a reply.  When the machine
stands in a simulation with a private machine of one actor, which the actions of
the others keep, that actor gets the replies of its private machine.
-/

namespace Sharing

variable {ι σ τ α β γ : Type} [DecidableEq ι]

/-- The replies to actions in turn, each with the actor that gets it. -/
def replies (step : ι → σ → α → β × σ) : σ → List (ι × α) → List (ι × β)
  | _, [] => []
  | state, (actor, action) :: rest =>
      (actor, (step actor state action).1) ::
        replies step (step actor state action).2 rest

/-- The replies of a machine that one actor has for itself. -/
def answers (step : τ → α → β × τ) : τ → List α → List β
  | _, [] => []
  | state, action :: rest =>
      (step state action).1 :: answers step (step state action).2 rest

/-- What concerns one actor. -/
def concerning (actor : ι) (entries : List (ι × γ)) : List γ :=
  (entries.filter fun entry => entry.1 = actor).map Prod.snd

/-- The actions of one actor are those of its private machine, and those of the
others do nothing to it. -/
structure Simulates (shared : ι → σ → α → β × σ) (own : τ → α → β × τ)
    (actor : ι) (related : σ → τ → Prop) : Prop where
  own : ∀ {state mine} action, related state mine →
    (shared actor state action).1 = (own mine action).1 ∧
      related (shared actor state action).2 (own mine action).2
  others : ∀ {state mine} other action, other ≠ actor → related state mine →
    related (shared other state action).2 mine

theorem concerning_self (actor : ι) (entry : γ) (rest : List (ι × γ)) :
    concerning actor ((actor, entry) :: rest) =
      entry :: concerning actor rest := by
  simp [concerning]

theorem concerning_other {actor other : ι} (different : other ≠ actor)
    (entry : γ) (rest : List (ι × γ)) :
    concerning actor ((other, entry) :: rest) = concerning actor rest := by
  simp [concerning, different]

/-- An actor cannot tell the shared machine from its private one. -/
theorem Simulates.replies_eq {shared : ι → σ → α → β × σ}
    {own : τ → α → β × τ} {actor : ι} {related : σ → τ → Prop}
    (simulates : Simulates shared own actor related) {state : σ} {mine : τ}
    (start : related state mine) (script : List (ι × α)) :
    concerning actor (replies shared state script) =
      answers own mine (concerning actor script) := by
  induction script generalizing state mine with
  | nil => rfl
  | cons entry rest ih =>
      obtain ⟨caller, action⟩ := entry
      rw [replies]
      rcases Decidable.eq_or_ne caller actor with rfl | different
      · obtain ⟨reply, next⟩ := simulates.own action start
        rw [concerning_self, concerning_self, answers, reply, ih next]
      · rw [concerning_other different, concerning_other different]
        exact ih (simulates.others caller action different start)

end Sharing
