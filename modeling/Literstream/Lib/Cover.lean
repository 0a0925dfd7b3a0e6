import Mathlib.Data.List.Basic
import Mathlib.Order.Basic

/-!
# Covering a range of positions by overlapping intervals

An item spans the positions `lo item ..= hi item`.  A chain walks from a
position to a later one, each item beginning no later than the next position
and ending beyond the current one.  `run` follows a picker until it is stuck;
the theorems below say that a picker which never gets stuck while some item
extends the walk reaches as far as any chain can.
-/

namespace Cover

variable {ι : Type*} (lo hi : ι → Nat)

/-- The item begins no later than the next position and ends beyond `pos`. -/
def Extends (pos : Nat) (item : ι) : Prop :=
  lo item ≤ pos + 1 ∧ pos < hi item

/-- A list of items leading from one position to another. -/
inductive Chain : Nat → List ι → Nat → Prop where
  | nil (pos : Nat) : Chain pos [] pos
  | cons {pos finish : Nat} {item : ι} {rest : List ι} :
      Extends lo hi pos item →
      Chain (hi item) rest finish →
      Chain pos (item :: rest) finish

/-- Every position after `start` up to `finish` lies inside some item. -/
def Covers (items : List ι) (start finish : Nat) : Prop :=
  ∀ pos, start < pos → pos ≤ finish →
    ∃ item ∈ items, lo item ≤ pos ∧ pos ≤ hi item

/-- Follow a picker from `pos`, for at most `fuel` items. -/
def run (pick : Nat → Option ι) : Nat → Nat → List ι × Nat
  | 0, pos => ([], pos)
  | fuel + 1, pos =>
      match pick pos with
      | none => ([], pos)
      | some item =>
          let rest := run pick fuel (hi item)
          (item :: rest.1, rest.2)

/-- A picker that returns an extending item of the list whenever there is
one. -/
structure Picks (items : List ι) (pick : Nat → Option ι) : Prop where
  sound : ∀ pos item, pick pos = some item →
    item ∈ items ∧ Extends lo hi pos item
  complete : ∀ pos, pick pos = none →
    ∀ item ∈ items, ¬ Extends lo hi pos item

/-- A picker that returns an item reaching furthest among those that extend. -/
structure PicksFurthest (items : List ι) (pick : Nat → Option ι) : Prop extends
    Picks lo hi items pick where
  furthest : ∀ pos item, pick pos = some item →
    ∀ other ∈ items, Extends lo hi pos other → hi other ≤ hi item

/-- The walk without a bound: as long as the picker returns an item. -/
inductive Walk (pick : Nat → Option ι) : Nat → List ι → Nat → Prop where
  | stop {pos : Nat} : pick pos = none → Walk pick pos [] pos
  | step {pos finish : Nat} {item : ι} {rest : List ι} :
      pick pos = some item →
      Walk pick (hi item) rest finish →
      Walk pick pos (item :: rest) finish

variable {lo hi}

theorem Chain.le {start finish : Nat} {items : List ι}
    (chain : Chain lo hi start items finish) : start ≤ finish := by
  induction chain with
  | nil => exact Nat.le_refl _
  | cons extends_ _ ih => exact Nat.le_trans (Nat.le_of_lt extends_.2) ih

/-- Every item of a chain ends no later than the chain does. -/
theorem Chain.hi_le {start finish : Nat} {items : List ι}
    (chain : Chain lo hi start items finish) :
    ∀ item ∈ items, hi item ≤ finish := by
  induction chain with
  | nil => simp
  | cons extends_ tail ih =>
      intro item member
      rcases List.mem_cons.mp member with rfl | later
      · exact tail.le
      · exact ih item later

theorem Chain.eq_of_nil {start finish : Nat}
    (chain : Chain lo hi start ([] : List ι) finish) : start = finish := by
  cases chain
  rfl

theorem Chain.head_extends {start finish : Nat} {item : ι} {rest : List ι}
    (chain : Chain lo hi start (item :: rest) finish) :
    Extends lo hi start item := by
  cases chain with
  | cons extends_ _ => exact extends_

/-- A chain that passes a position contains an item extending it. -/
theorem Chain.exists_extends {start finish : Nat} {items : List ι}
    (chain : Chain lo hi start items finish) (pos : Nat)
    (behind : start ≤ pos) (ahead : pos < finish) :
    ∃ item ∈ items, Extends lo hi pos item := by
  induction chain with
  | nil => omega
  | @cons current finish item rest extends_ _ ih =>
      by_cases passes : pos < hi item
      · have begins := extends_.1
        exact ⟨item, by simp, by omega, passes⟩
      · obtain ⟨later, member, laterExtends⟩ := ih (by omega) ahead
        exact ⟨later, by simp [member], laterExtends⟩

theorem Chain.covers {start finish : Nat} {items : List ι}
    (chain : Chain lo hi start items finish) :
    Covers lo hi items start finish := by
  intro pos after before
  obtain ⟨item, member, extends_⟩ :=
    chain.exists_extends (pos - 1) (by omega) (by omega)
  have ends := extends_.2
  have begins := extends_.1
  exact ⟨item, member, by omega, by omega⟩

section Run

variable {items : List ι} {pick : Nat → Option ι}

theorem run_chain (picks : Picks lo hi items pick) (fuel pos : Nat) :
    Chain lo hi pos (run hi pick fuel pos).1 (run hi pick fuel pos).2 := by
  induction fuel generalizing pos with
  | zero => exact .nil _
  | succ fuel ih =>
      rw [run]
      cases picked : pick pos with
      | none => exact .nil _
      | some item => exact .cons (picks.sound pos item picked).2 (ih _)

theorem run_subset (picks : Picks lo hi items pick) (fuel pos : Nat) :
    ∀ item ∈ (run hi pick fuel pos).1, item ∈ items := by
  induction fuel generalizing pos with
  | zero => simp [run]
  | succ fuel ih =>
      rw [run]
      cases picked : pick pos with
      | none => simp
      | some item =>
          intro other member
          rcases List.mem_cons.mp member with rfl | later
          · exact (picks.sound pos other picked).1
          · exact ih _ other later

/-- As much fuel as there are items ahead is enough to get stuck. -/
theorem run_stuck (picks : Picks lo hi items pick) (fuel pos : Nat)
    (enough : (items.filter fun item => pos < hi item).length ≤ fuel) :
    pick (run hi pick fuel pos).2 = none := by
  induction fuel generalizing pos with
  | zero =>
      rw [run]
      cases picked : pick pos with
      | none => rfl
      | some item =>
          obtain ⟨member, extends_⟩ := picks.sound pos item picked
          have filtered : item ∈ items.filter fun item => pos < hi item := by
            simp [member, extends_.2]
          have nonempty := List.length_pos_of_mem filtered
          omega
  | succ fuel ih =>
      rw [run]
      cases picked : pick pos with
      | none => exact picked
      | some item =>
          obtain ⟨member, extends_⟩ := picks.sound pos item picked
          apply ih
          have fewer : (items.filter fun other => hi item < hi other).length <
              (items.filter fun other => pos < hi other).length := by
            have split : items.filter (fun other => hi item < hi other) =
                (items.filter fun other => pos < hi other).filter
                  fun other => hi item < hi other := by
              rw [List.filter_filter]
              apply List.filter_congr
              intro other _
              have ends := extends_.2
              by_cases later : hi item < hi other
              · simp [later, show pos < hi other by omega]
              · simp [later]
            rw [split]
            apply List.length_filter_lt_length_iff_exists.mpr
            exact ⟨item, by simp [member, extends_.2], by simp⟩
          omega

/-- A stuck walk has passed every position that the items cover without a
gap. -/
theorem run_reaches (picks : Picks lo hi items pick) {fuel start finish : Nat}
    (enough : items.length ≤ fuel)
    (covered : Covers lo hi items start finish) :
    finish ≤ (run hi pick fuel start).2 := by
  have stuck := run_stuck picks fuel start
    (Nat.le_trans (List.length_filter_le _ _) enough)
  have forward := (run_chain picks fuel start).le
  by_contra short
  obtain ⟨item, member, begins, ends⟩ :=
    covered ((run hi pick fuel start).2 + 1) (by omega) (by omega)
  exact picks.complete _ stuck item member ⟨begins, by omega⟩

/-- A run that gets stuck is the whole walk. -/
theorem run_walk (pick : Nat → Option ι) {fuel pos : Nat}
    (stuck : pick (run hi pick fuel pos).2 = none) :
    Walk hi pick pos (run hi pick fuel pos).1 (run hi pick fuel pos).2 := by
  induction fuel generalizing pos with
  | zero => exact .stop stuck
  | succ fuel ih =>
      rw [run] at stuck ⊢
      cases picked : pick pos with
      | none => exact .stop picked
      | some item =>
          rw [picked] at stuck
          exact .step picked (ih stuck)

/-- More fuel leads as far or further. -/
theorem run_mono (picks : Picks lo hi items pick) {fuel fuel' : Nat}
    (more : fuel ≤ fuel') (pos : Nat) :
    (run hi pick fuel pos).2 ≤ (run hi pick fuel' pos).2 := by
  induction fuel generalizing pos fuel' with
  | zero => exact (run_chain picks fuel' pos).le
  | succ fuel ih =>
      cases fuel' with
      | zero => omega
      | succ fuel' =>
          rw [run, run]
          cases pick pos with
          | none => exact Nat.le_refl _
          | some item => exact ih (by omega) (hi item)

/-- A run that is cut short has not got as far. -/
theorem run_lt (picks : Picks lo hi items pick) {count fuel pos : Nat}
    (short : count < (run hi pick fuel pos).1.length) :
    (run hi pick count pos).2 < (run hi pick fuel pos).2 := by
  induction fuel generalizing pos count with
  | zero => simp [run] at short
  | succ fuel ih =>
      rw [run] at short ⊢
      cases picked : pick pos with
      | none => simp [picked] at short
      | some item =>
          rw [picked] at short
          have forward := (picks.sound pos item picked).2.2
          cases count with
          | zero =>
              exact Nat.lt_of_lt_of_le forward (run_chain picks fuel _).le
          | succ count =>
              rw [run, picked]
              exact ih (by simpa using short)

/-- Taking the item that reaches furthest stays ahead of every chain: from no
earlier a position and with as many items it gets as far. -/
theorem run_ahead (picks : PicksFurthest lo hi items pick)
    {start finish pos : Nat} {plan : List ι}
    (chain : Chain lo hi start plan finish)
    (inside : ∀ item ∈ plan, item ∈ items) (behind : start ≤ pos) :
    finish ≤ (run hi pick plan.length pos).2 := by
  induction chain generalizing pos with
  | nil => exact behind
  | @cons start finish item rest extends_ tail ih =>
      have restInside : ∀ other ∈ rest, other ∈ items :=
        fun other member => inside other (List.mem_cons_of_mem _ member)
      by_cases passed : hi item ≤ pos
      · have reached := ih restInside passed
        exact Nat.le_trans reached
          (run_mono picks.toPicks (Nat.le_succ _) pos)
      · have begins := extends_.1
        have offered : Extends lo hi pos item := ⟨by omega, by omega⟩
        have member := inside item List.mem_cons_self
        rw [List.length_cons, run]
        cases picked : pick pos with
        | none => exact absurd offered (picks.complete pos picked item member)
        | some best =>
            exact ih restInside
              (picks.furthest pos best picked item member offered)

/-- No chain that gets as far has fewer items. -/
theorem run_fewest (picks : PicksFurthest lo hi items pick)
    {start finish fuel : Nat} {plan : List ι}
    (chain : Chain lo hi start plan finish)
    (inside : ∀ item ∈ plan, item ∈ items)
    (reaches : (run hi pick fuel start).2 ≤ finish) :
    (run hi pick fuel start).1.length ≤ plan.length := by
  by_contra fewer
  have behind := run_lt picks.toPicks (Nat.not_le.mp fewer)
  have ahead := run_ahead picks chain inside (Nat.le_refl start)
  omega

/-- No chain gets further than a stuck run. -/
theorem run_furthest (picks : Picks lo hi items pick)
    {start finish fuel : Nat} {plan : List ι}
    (chain : Chain lo hi start plan finish)
    (inside : ∀ item ∈ plan, item ∈ items) (enough : items.length ≤ fuel) :
    finish ≤ (run hi pick fuel start).2 := by
  apply run_reaches picks enough
  intro pos after before
  obtain ⟨item, member, holds⟩ := chain.covers pos after before
  exact ⟨item, inside item member, holds⟩

theorem run_length_le (pick : Nat → Option ι) (fuel pos : Nat) :
    (run hi pick fuel pos).1.length ≤ fuel := by
  induction fuel generalizing pos with
  | zero => simp [run]
  | succ fuel ih =>
      rw [run]
      cases pick pos with
      | none => simp
      | some item => simpa using ih (hi item)

/-- A picker that differs only at the end of a stuck walk, where it offers one
more item, walks the same way and then takes that item. -/
theorem run_extend {pick extended : Nat → Option ι} {fuel pos finish : Nat}
    {plan : List ι} {last : ι}
    (walked : run hi pick fuel pos = (plan, finish))
    (stuck : pick finish = none)
    (same : ∀ other, other ≠ finish → other < hi last →
      extended other = pick other)
    (offered : extended finish = some last)
    (final : extended (hi last) = none)
    (ends : ∀ item ∈ plan, hi item < hi last) (begins : pos < hi last)
    {fuel' : Nat} (enough : plan.length < fuel') :
    run hi extended fuel' pos = (plan ++ [last], hi last) := by
  induction fuel' generalizing fuel pos plan with
  | zero => omega
  | succ fuel' ih =>
      cases plan with
      | nil =>
          have arrived : pos = finish := by
            cases fuel with
            | zero => simpa [run] using walked
            | succ fuel =>
                rw [run] at walked
                cases picked : pick pos with
                | none => simpa [picked] using walked
                | some item => simp [picked] at walked
          subst arrived
          rw [run, offered]
          cases fuel' with
          | zero => simp [run]
          | succ fuel' => simp [run, final]
      | cons item rest =>
          cases fuel with
          | zero => simp [run] at walked
          | succ fuel =>
              rw [run] at walked
              cases picked : pick pos with
              | none => simp [picked] at walked
              | some first =>
                  simp only [picked, Prod.mk.injEq, List.cons.injEq] at walked
                  obtain ⟨⟨rfl, tail⟩, arrived⟩ := walked
                  have moving : pos ≠ finish := by
                    rintro rfl
                    rw [stuck] at picked
                    cases picked
                  have later := ih (Prod.ext tail arrived)
                    (fun other member => ends other (by simp [member]))
                    (ends first (by simp)) (by simpa using enough)
                  rw [run, same pos moving begins, picked]
                  simp [later]

/-- Items that all end by `bound` lead no further than `bound`. -/
theorem Chain.le_of_forall {start finish bound : Nat} {plan : List ι}
    (chain : Chain lo hi start plan finish) (initial : start ≤ bound)
    (ends : ∀ item ∈ plan, hi item ≤ bound) : finish ≤ bound := by
  induction chain with
  | nil => exact initial
  | @cons pos finish item rest _ _ ih =>
      exact ih (ends item (by simp)) fun other member =>
        ends other (by simp [member])

/-- The last item of a nonempty chain ends where the chain ends. -/
theorem Chain.getLast?_eq {start finish : Nat} {plan : List ι}
    (chain : Chain lo hi start plan finish) {last : ι}
    (isLast : plan.getLast? = some last) : hi last = finish := by
  induction chain with
  | nil => simp at isLast
  | @cons pos finish item rest _ tail ih =>
      cases rest with
      | nil =>
          cases tail
          simp at isLast
          rw [isLast]
      | cons next rest =>
          rw [List.getLast?_cons_cons] at isLast
          exact ih isLast

end Run

end Cover
