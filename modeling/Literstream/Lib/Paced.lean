import Literstream.Lib.Fallible

/-!
# Procedures seen operation by operation

The operations of a procedure succeed or fail by a schedule that its state
carries, and a failed operation ends the procedure.  What an observer sees just
before an operation is then what the procedure leaves when that operation is
the one that fails.  `Paced` follows a procedure from one such state to the
next, and its rules follow the way procedures are put together.
-/

namespace Fallible

variable {σ ε α β : Type}

/-- How a state carries a schedule, and what may become of it between two
operations. -/
structure Pace (σ : Type) where
  under : σ → List Bool → σ
  keeps : σ → σ → Prop
  trans : ∀ {first second third}, keeps first second → keeps second third →
    keeps first third
  forgets : ∀ state schedule, keeps state (under state schedule)
  recalls : ∀ state schedule, keeps (under state schedule) state

/-- A procedure from a state, under the schedules that the state may carry. -/
def Pace.run (pace : Pace σ) (program : Fallible σ ε α) (state : σ) :
    List Bool → Except ε α × σ :=
  fun schedule => program (pace.under state schedule)

/-- What an observer sees after operations that went as listed. -/
def seen (run : List Bool → Except ε α × σ) (outcomes : List Bool) : σ :=
  (run (outcomes ++ [true])).2

/-- The procedure ends, or it waits for an operation that ends it on failure.
The state between two operations is kept. -/
inductive Paced (pace : Pace σ) (post : α → σ → Prop) :
    (List Bool → Except ε α × σ) → σ → Prop where
  | returns {run : List Bool → Except ε α × σ} {last final : σ} {value : α} :
      (∀ later, run later = (.ok value, pace.under final later)) →
      pace.keeps last final →
      post value final →
      Paced pace post run last
  | fails {run : List Bool → Except ε α × σ} {last final : σ} {error : ε} :
      (∀ later, run later = (.error error, pace.under final later)) →
      pace.keeps last final →
      Paced pace post run last
  | waits {run : List Bool → Except ε α × σ} {last middle : σ} {error : ε} :
      (∀ later, run (true :: later) = (.error error,
        pace.under middle later)) →
      pace.keeps last middle →
      Paced pace post (fun later => run (false :: later)) middle →
      Paced pace post run last

variable {pace : Pace σ} {post : α → σ → Prop}

theorem Pace.refl (pace : Pace σ) (state : σ) : pace.keeps state state :=
  pace.trans (pace.forgets state []) (pace.recalls state [])

theorem Pace.congr (pace : Pace σ) {first second : σ}
    (kept : pace.keeps first second) (before after : List Bool) :
    pace.keeps (pace.under first before) (pace.under second after) :=
  pace.trans (pace.recalls first before)
    (pace.trans kept (pace.forgets second after))

theorem Paced.earlier {run : List Bool → Except ε α × σ} {first last : σ}
    (kept : pace.keeps first last) (paced : Paced pace post run last) :
    Paced pace post run first := by
  cases paced with
  | returns ran held reached =>
      exact .returns ran (pace.trans kept held) reached
  | fails ran held => exact .fails ran (pace.trans kept held)
  | waits stops held goes => exact .waits stops (pace.trans kept held) goes

/-! ## What an observer sees -/

/-- Nothing is lost before the first operation. -/
theorem Paced.seen_nil {run : List Bool → Except ε α × σ} {last : σ}
    (paced : Paced pace post run last) : pace.keeps last (seen run []) := by
  cases paced with
  | returns ran held _ =>
      change pace.keeps last (run [true]).2
      rw [ran]
      exact pace.trans held (pace.forgets _ _)
  | fails ran held =>
      change pace.keeps last (run [true]).2
      rw [ran]
      exact pace.trans held (pace.forgets _ _)
  | waits stops held _ =>
      change pace.keeps last (run [true]).2
      rw [stops]
      exact pace.trans held (pace.forgets _ _)

/-- Nothing is lost by one operation, however it goes. -/
theorem Paced.seen_next {run : List Bool → Except ε α × σ} {last : σ}
    (paced : Paced pace post run last) (outcomes : List Bool)
    (outcome : Bool) :
    pace.keeps (seen run outcomes) (seen run (outcomes ++ [outcome])) := by
  induction paced generalizing outcomes with
  | returns ran _ _ =>
      simp only [seen, ran]
      exact pace.congr (pace.refl _) _ _
  | fails ran _ =>
      simp only [seen, ran]
      exact pace.congr (pace.refl _) _ _
  | @waits run last middle error stops _ goes ih =>
      cases outcomes with
      | nil =>
          have first : seen run [] = pace.under middle [] :=
            congrArg Prod.snd (stops [])
          rw [first]
          cases outcome with
          | true =>
              have failed : seen run ([] ++ [true]) =
                  pace.under middle [true] :=
                congrArg Prod.snd (stops [true])
              rw [failed]
              exact pace.congr (pace.refl _) _ _
          | false => exact pace.trans (pace.recalls _ _) goes.seen_nil
      | cons first rest =>
          cases first with
          | true =>
              have stopped (later : List Bool) :
                  (run (true :: later)).2 = pace.under middle later :=
                congrArg Prod.snd (stops later)
              simp only [seen, List.cons_append, stopped]
              exact pace.congr (pace.refl _) _ _
          | false => exact ih rest

/-! ## Rules -/

theorem paced_pure {state : σ} {value : α} (reached : post value state) :
    Paced pace post (pace.run (pure value : Fallible σ ε α) state) state :=
  .returns (fun _ => rfl) (pace.refl state) reached

theorem paced_ofExcept {state : σ} {result : Except ε α}
    (reached : ∀ value, result = .ok value → post value state) :
    Paced pace post (pace.run (ofExcept result) state) state := by
  cases result with
  | ok value =>
      exact .returns (fun _ => rfl) (pace.refl state) (reached value rfl)
  | error error => exact .fails (fun _ => rfl) (pace.refl state)

/-- An update that does not look at the schedule. -/
theorem paced_change {state : σ} {update : σ → σ} {post : Unit → σ → Prop}
    (commutes : ∀ later,
      update (pace.under state later) = pace.under (update state) later)
    (kept : pace.keeps state (update state))
    (reached : post () (update state)) :
    Paced pace post (pace.run (change update : Fallible σ ε Unit) state)
      state := by
  apply Paced.returns _ kept reached
  intro later
  change (Except.ok (), update (pace.under state later)) = _
  rw [commutes]

/-- Reading the state, when what follows does not look at the schedule. -/
theorem paced_current {state : σ} {next : σ → Fallible σ ε α}
    (blind : ∀ later, next (pace.under state later) = next state)
    (paced : Paced pace post (pace.run (next state) state) state) :
    Paced pace post (pace.run (current >>= next) state) state := by
  have same : pace.run (current >>= next) state = pace.run (next state) state := by
    funext later
    change next (pace.under state later) (pace.under state later) = _
    rw [blind]
    rfl
  rw [same]
  exact paced

theorem Paced.bind {first : Fallible σ ε α} {next : α → Fallible σ ε β}
    {post : β → σ → Prop} {middle : α → σ → Prop} {state : σ}
    (head : Paced pace middle (pace.run first state) state)
    (tail : ∀ value reached, middle value reached →
      Paced pace post (pace.run (next value) reached) reached) :
    Paced pace post (pace.run (first >>= next) state) state := by
  have chained : ∀ (run : List Bool → Except ε α × σ) (last : σ),
      Paced pace middle run last →
      Paced pace post (fun later => andThen (fun _ => run later) next
        (run later).2) last := by
    intro run last paced
    induction paced with
    | @returns run last final value ran held reached =>
        have same : (fun later => andThen (fun _ => run later) next
            (run later).2) = pace.run (next value) final := by
          funext later
          simp only [andThen, ran]
          rfl
        rw [same]
        exact (tail value final reached).earlier held
    | @fails run last final error ran held =>
        have ended : ∀ later, andThen (fun _ => run later) next (run later).2 =
            (.error error, pace.under final later) := by
          intro later
          simp only [andThen, ran]
        exact .fails ended held
    | @waits run last middle error stops held _ ih =>
        have stopped : ∀ later, andThen (fun _ => run (true :: later)) next
            (run (true :: later)).2 =
            (.error error, pace.under middle later) := by
          intro later
          simp only [andThen, stops]
        exact .waits stopped held ih
  exact chained _ _ head

/-- Going on with a result that does not depend on the state. -/
theorem paced_bind_ofExcept {state : σ} {result : Except ε α}
    {next : α → Fallible σ ε β} {post : β → σ → Prop}
    (tail : ∀ value, result = .ok value →
      Paced pace post (pace.run (next value) state) state) :
    Paced pace post (pace.run (ofExcept result >>= next) state) state := by
  have head : Paced pace (fun value final => result = .ok value ∧ state = final)
      (pace.run (ofExcept result) state) state :=
    paced_ofExcept fun _ found => ⟨found, rfl⟩
  apply head.bind
  rintro value _ ⟨found, rfl⟩
  exact tail value found

/-- A loop whose body keeps an invariant of the states between its rounds. -/
theorem paced_forEach {body : α → Fallible σ ε Unit} {inv : σ → Prop}
    (items : List α)
    (step : ∀ item ∈ items, ∀ state, inv state →
      Paced pace (fun _ => inv) (pace.run (body item) state) state)
    {state : σ} (initial : inv state) :
    Paced pace (fun _ => inv) (pace.run (forEach body items) state) state := by
  induction items generalizing state with
  | nil => exact paced_pure initial
  | cons item rest ih =>
      apply (step item (by simp) state initial).bind
      intro _ reached kept
      exact ih (fun other member => step other (by simp [member])) kept

theorem paced_collect {body : α → Fallible σ ε β} {inv : σ → Prop}
    (items : List α)
    (step : ∀ item ∈ items, ∀ state, inv state →
      Paced pace (fun _ => inv) (pace.run (body item) state) state)
    {state : σ} (initial : inv state) :
    Paced pace (fun _ => inv) (pace.run (collect body items) state) state := by
  induction items generalizing state with
  | nil => exact paced_pure initial
  | cons item rest ih =>
      apply (step item (by simp) state initial).bind
      intro value reached kept
      apply (ih (fun other member => step other (by simp [member])) kept).bind
      exact fun _ _ still => paced_pure still

end Fallible
