import Literstream.Lib.Fallible

/-!
# Programs that mimic each other

The model of a program runs on a device that can be armed with a schedule of
faults.  It mimics the program when some schedule makes it end as the program
does: in a related state, with a related value where the program succeeds and
with some error where it fails.
-/

namespace Fallible

variable {σ τ φ ε ε' α β α' β' : Type}

/-- Under some schedule a program ends with a result, and what is scheduled
behind it is left. -/
def Ends (arm : List φ → τ → τ) (program : Fallible τ ε α) (start : τ)
    (result : Except ε α) (final : τ) : Prop :=
  ∃ faults, ∀ later,
    program (arm (faults ++ later) start) = (result, arm later final)

/-- Both results are related values, or both are errors. -/
inductive Alike (answers : α → α' → Prop) :
    Except ε α → Except ε' α' → Prop where
  | ok {value : α} {value' : α'} :
      answers value value' → Alike answers (.ok value) (.ok value')
  | error {error : ε} {error' : ε'} :
      Alike answers (.error error) (.error error')

/-- From a state of each, the model can end as the program does. -/
def Mimics (arm : List φ → τ → τ) (related : σ → τ → Prop)
    (answers : α → α' → Prop) (program : Fallible σ ε α)
    (model : Fallible τ ε' α') (state : σ) (start : τ) : Prop :=
  ∃ result final, Ends arm model start result final ∧
    Alike answers (program state).1 result ∧ related (program state).2 final

section Ends

variable {arm : List φ → τ → τ}

theorem ends_of_eq {program : Fallible τ ε α} {start final : τ}
    {result : Except ε α}
    (ran : ∀ later, program (arm later start) = (result, arm later final)) :
    Ends arm program start result final :=
  ⟨[], fun later => ran later⟩

theorem Ends.bind {first : Fallible τ ε α} {next : α → Fallible τ ε β}
    {start middle final : τ} {value : α} {result : Except ε β}
    (head : Ends arm first start (.ok value) middle)
    (tail : Ends arm (next value) middle result final) :
    Ends arm (first >>= next) start result final := by
  obtain ⟨before, headRuns⟩ := head
  obtain ⟨after, tailRuns⟩ := tail
  refine ⟨before ++ after, ?_⟩
  intro later
  rw [List.append_assoc, bind_of_ok (headRuns (after ++ later))]
  exact tailRuns later

theorem Ends.bind_error {first : Fallible τ ε α} {next : α → Fallible τ ε β}
    {start final : τ} {error : ε}
    (head : Ends arm first start (.error error) final) :
    Ends arm (first >>= next) start (.error error) final := by
  obtain ⟨faults, runs⟩ := head
  exact ⟨faults, fun later => bind_of_error (runs later)⟩

end Ends

section Mimics

variable {arm : List φ → τ → τ} {related : σ → τ → Prop}
  {answers : α → α' → Prop} {state : σ} {start : τ}

theorem mimics_of_ok {program : Fallible σ ε α} {model : Fallible τ ε' α'}
    {final : σ} {modelFinal : τ} {value : α} {value' : α'}
    (ran : program state = (.ok value, final))
    (ends : Ends arm model start (.ok value') modelFinal)
    (same : answers value value') (still : related final modelFinal) :
    Mimics arm related answers program model state start := by
  refine ⟨_, _, ends, ?_, ?_⟩
  · rw [ran]
    exact .ok same
  · rw [ran]
    exact still

theorem mimics_of_error {program : Fallible σ ε α} {model : Fallible τ ε' α'}
    {final : σ} {modelFinal : τ} {error : ε} {error' : ε'}
    (ran : program state = (.error error, final))
    (ends : Ends arm model start (.error error') modelFinal)
    (still : related final modelFinal) :
    Mimics arm related answers program model state start := by
  refine ⟨_, _, ends, ?_, ?_⟩
  · rw [ran]
    exact .error
  · rw [ran]
    exact still

/-- The two ways in which a program and its model end. -/
theorem Mimics.cases {program : Fallible σ ε α} {model : Fallible τ ε' α'}
    (mimics : Mimics arm related answers program model state start) :
    (∃ value value' final modelFinal, program state = (.ok value, final) ∧
      Ends arm model start (.ok value') modelFinal ∧ answers value value' ∧
      related final modelFinal) ∨
    ∃ error error' final modelFinal, program state = (.error error, final) ∧
      Ends arm model start (.error error') modelFinal ∧
      related final modelFinal := by
  obtain ⟨result, modelFinal, ends, alike, still⟩ := mimics
  generalize finished : program state = outcome at alike still
  obtain ⟨own, final⟩ := outcome
  cases alike with
  | ok same => exact .inl ⟨_, _, _, _, rfl, ends, same, still⟩
  | error => exact .inr ⟨_, _, _, _, rfl, ends, still⟩

theorem mimics_pure {value : α} {value' : α'} (same : answers value value')
    (still : related state start) :
    Mimics arm related answers (pure value : Fallible σ ε α)
      (pure value' : Fallible τ ε' α') state start :=
  mimics_of_ok rfl (ends_of_eq fun _ => rfl) same still

theorem mimics_ofExcept {result : Except ε α} {result' : Except ε' α'}
    (alike : Alike answers result result') (still : related state start) :
    Mimics arm related answers (ofExcept result) (ofExcept result') state
      start :=
  ⟨result', start, ends_of_eq fun _ => rfl, alike, still⟩

theorem mimics_change {answers : Unit → Unit → Prop} {update : σ → σ}
    {update' : τ → τ} (same : answers () ())
    (armed : ∀ faults, update' (arm faults start) = arm faults (update' start))
    (still : related (update state) (update' start)) :
    Mimics arm related answers (change update : Fallible σ ε Unit)
      (change update' : Fallible τ ε' Unit) state start :=
  mimics_of_ok rfl
    (ends_of_eq fun faults => congrArg (Prod.mk _) (armed faults)) same still

/-- A procedure that looks at the state goes on from it. -/
theorem mimics_current {next : σ → Fallible σ ε α}
    {next' : τ → Fallible τ ε' α'}
    (unarmed : ∀ faults, next' (arm faults start) = next' start)
    (mimics : Mimics arm related answers (next state) (next' start) state
      start) :
    Mimics arm related answers (current >>= next) (current >>= next') state
      start := by
  obtain ⟨result, final, ⟨faults, runs⟩, alike, still⟩ := mimics
  refine ⟨result, final, ⟨faults, ?_⟩, alike, still⟩
  intro later
  change next' (arm (faults ++ later) start) _ = _
  rw [unarmed]
  exact runs later

theorem Mimics.bind {outcomes : β → β' → Prop} {middle : σ → τ → Prop}
    {first : Fallible σ ε α} {first' : Fallible τ ε' α'}
    {next : α → Fallible σ ε β} {next' : α' → Fallible τ ε' β'}
    (head : Mimics arm middle answers first first' state start)
    (kept : ∀ state start, middle state start → related state start)
    (tail : ∀ value value' state start, answers value value' →
      middle state start →
        Mimics arm related outcomes (next value) (next' value') state start) :
    Mimics arm related outcomes (first >>= next) (first' >>= next') state
      start := by
  rcases head.cases with
    ⟨value, value', between, modelBetween, ran, ends, same, still⟩ |
      ⟨error, error', final, modelFinal, ran, ends, still⟩
  · obtain ⟨result, final, lastEnds, alike, stays⟩ :=
      tail value value' between modelBetween same still
    refine ⟨result, final, ends.bind lastEnds, ?_, ?_⟩
    · rw [bind_of_ok ran]
      exact alike
    · rw [bind_of_ok ran]
      exact stays
  · exact mimics_of_error (bind_of_error ran) ends.bind_error
      (kept final modelFinal still)

theorem Mimics.weaken {wider : σ → τ → Prop} {looser : α → α' → Prop}
    {program : Fallible σ ε α} {model : Fallible τ ε' α'}
    (mimics : Mimics arm related answers program model state start)
    (states : ∀ state start, related state start → wider state start)
    (values : ∀ value value', answers value value' → looser value value') :
    Mimics arm wider looser program model state start := by
  rcases mimics.cases with ⟨_, _, _, _, ran, ends, same, still⟩ |
    ⟨_, _, _, _, ran, ends, still⟩
  · exact mimics_of_ok ran ends (values _ _ same) (states _ _ still)
  · exact mimics_of_error ran ends (states _ _ still)

/-- Loops over the same items mimic each other when their bodies do. -/
theorem mimics_forEach {body : α → Fallible σ ε Unit}
    {body' : α → Fallible τ ε' Unit}
    (each : ∀ item state start, related state start →
      Mimics arm related (fun _ _ => True) (body item) (body' item) state
        start)
    (items : List α) (initial : related state start) :
    Mimics arm related (fun _ _ => True) (forEach body items)
      (forEach body' items) state start := by
  induction items generalizing state start with
  | nil => exact mimics_pure trivial initial
  | cons item rest ih =>
      apply (each item state start initial).bind fun _ _ still => still
      intro _ _ state start _ still
      exact ih still

theorem mimics_collect {body : α → Fallible σ ε β}
    {body' : α → Fallible τ ε' β'} {answers : β → β' → Prop}
    (each : ∀ item state start, related state start →
      Mimics arm related answers (body item) (body' item) state start)
    (items : List α) (initial : related state start) :
    Mimics arm related (fun values values' =>
        List.Forall₂ answers values values' ∧ values.length = items.length)
      (collect body items) (collect body' items) state start := by
  induction items generalizing state start with
  | nil => exact mimics_pure ⟨.nil, rfl⟩ initial
  | cons item rest ih =>
      apply (each item state start initial).bind fun _ _ still => still
      intro value value' state start first still
      apply (ih still).bind fun _ _ still => still
      rintro values values' state start ⟨others, count⟩ still
      exact mimics_pure ⟨.cons first others, congrArg Nat.succ count⟩ still

end Mimics

end Fallible
