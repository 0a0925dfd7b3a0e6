import Mathlib.Data.List.Basic

/-!
# Programs that ask

A program asks queries one by one and goes on with the replies; a query may
also fail.  What a program returns is judged against an oracle that knows the
true replies, however many queries fail.
-/

/-- A program over queries. -/
inductive Asking (κ : Type) (ρ : κ → Type) (α : Type) : Type where
  | returns (value : α)
  | asks (query : κ) (next : Option (ρ query) → Asking κ ρ α)

namespace Asking

variable {κ : Type} {ρ : κ → Type} {α β : Type}

def andThen (first : Asking κ ρ α) (next : α → Asking κ ρ β) : Asking κ ρ β :=
  match first with
  | .returns value => next value
  | .asks query rest => .asks query fun reply => (rest reply).andThen next

/-- A query and how it was answered. -/
abbrev Event (κ : Type) (ρ : κ → Type) := (query : κ) × Option (ρ query)

/-- A program after the replies that it got, the earliest first. -/
inductive After : Asking κ ρ α → List (Event κ ρ) → Asking κ ρ α → Prop where
  | nil {program : Asking κ ρ α} : After program [] program
  | cons {query : κ} {next : Option (ρ query) → Asking κ ρ α}
      {reply : Option (ρ query)} {events : List (Event κ ρ)}
      {final : Asking κ ρ α} :
      After (next reply) events final →
      After (.asks query next) (⟨query, reply⟩ :: events) final

/-- Whichever queries fail, what the program returns satisfies `post`. -/
def Yields (oracle : (query : κ) → Option (ρ query)) :
    Asking κ ρ α → (α → Prop) → Prop
  | .returns value, post => post value
  | .asks query next, post =>
      Yields oracle (next none) post ∧
        ∀ reply, oracle query = some reply →
          Yields oracle (next (some reply)) post

variable {oracle : (query : κ) → Option (ρ query)} {post : α → Prop}

theorem After.snoc {program : Asking κ ρ α} {events : List (Event κ ρ)}
    {query : κ} {next : Option (ρ query) → Asking κ ρ α}
    (after : After program events (.asks query next))
    (reply : Option (ρ query)) :
    After program (events ++ [⟨query, reply⟩]) (next reply) := by
  generalize reached : Asking.asks query next = final at after
  induction after with
  | nil =>
      subst reached
      exact .cons .nil
  | cons _ ih => exact .cons (ih reached)

/-- The replies were true or missing, so the result is as promised. -/
theorem Yields.after {program : Asking κ ρ α} {events : List (Event κ ρ)}
    {value : α} (yields : Yields oracle program post)
    (after : After program events (.returns value))
    (truthful : ∀ event ∈ events,
      event.2 = none ∨ event.2 = oracle event.1) : post value := by
  generalize reached : Asking.returns value = final at after
  induction after with
  | nil =>
      subst reached
      exact yields
  | @cons query next reply events final _ ih =>
      have rest : ∀ event ∈ events,
          event.2 = none ∨ event.2 = oracle event.1 :=
        fun event member => truthful event (List.mem_cons_of_mem _ member)
      cases reply with
      | none => exact ih yields.1 rest reached
      | some reply =>
          rcases truthful ⟨query, some reply⟩ List.mem_cons_self with
            impossible | same
          · cases impossible
          · exact ih (yields.2 reply same.symm) rest reached

theorem Yields.weaken {program : Asking κ ρ α} {weaker : α → Prop}
    (yields : Yields oracle program post)
    (implies : ∀ value, post value → weaker value) :
    Yields oracle program weaker := by
  induction program with
  | returns value => exact implies value yields
  | asks query next ih =>
      exact ⟨ih none yields.1, fun reply found =>
        ih (some reply) (yields.2 reply found)⟩

theorem Yields.bind {first : Asking κ ρ α} {next : α → Asking κ ρ β}
    {middle : α → Prop} {post : β → Prop}
    (head : Yields oracle first middle)
    (tail : ∀ value, middle value → Yields oracle (next value) post) :
    Yields oracle (first.andThen next) post := by
  induction first with
  | returns value => exact tail value head
  | asks query rest ih =>
      exact ⟨ih none head.1, fun reply found =>
        ih (some reply) (head.2 reply found)⟩

/-! ## What holds whatever is replied -/

section Always

variable {allowed : κ → Prop}

/-- Whatever is replied, only `allowed` queries are asked and what is returned
satisfies `post`. -/
def Always (allowed : κ → Prop) : Asking κ ρ α → (α → Prop) → Prop
  | .returns value, post => post value
  | .asks query next, post =>
      allowed query ∧ ∀ reply, Always allowed (next reply) post

theorem Always.bind {first : Asking κ ρ α} {next : α → Asking κ ρ β}
    {middle : α → Prop} {post : β → Prop}
    (head : Always allowed first middle)
    (tail : ∀ value, middle value → Always allowed (next value) post) :
    Always allowed (first.andThen next) post := by
  induction first with
  | returns value => exact tail value head
  | asks query rest ih => exact ⟨head.1, fun reply => ih reply (head.2 reply)⟩

end Always

end Asking
