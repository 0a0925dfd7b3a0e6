import Mathlib.Data.List.Sort
import Mathlib.Algebra.Order.BigOperators.Group.List
import Mathlib.Algebra.Order.Group.Nat
import Mathlib.Algebra.Order.Ring.Nat

/-!
# Merging lists through a heap of their heads

Every list keeps a cursor, and a heap holds the key of the element at each
cursor with the number of its list.  All lists at the smallest key are advanced
together, and the last of them wins.
-/

namespace KWay

/-- By key, then by the number of the list. -/
def Before (left right : Nat × Nat) : Prop :=
  left.1 < right.1 ∨ left.1 = right.1 ∧ left.2 ≤ right.2

instance : DecidableRel Before := fun left right =>
  inferInstanceAs (Decidable
    (left.1 < right.1 ∨ left.1 = right.1 ∧ left.2 ≤ right.2))

instance : Std.Total Before := ⟨by
  intro left right
  unfold Before
  omega⟩

instance : IsTrans (Nat × Nat) Before := ⟨by
  intro first second third
  unfold Before
  omega⟩

/-- A heap is the sorted list of its entries. -/
def push (heap : List (Nat × Nat)) (entry : Nat × Nat) : List (Nat × Nat) :=
  heap.orderedInsert Before entry

structure State where
  heap : List (Nat × Nat)
  cursor : List Nat
deriving DecidableEq, Repr

section Merge

variable {α : Type} (key : α → Nat) (lists : List (List α))

/-- What a list has left behind its cursor. -/
def rest (cursor : List Nat) (number : Nat) : List α :=
  (lists[number]?.getD []).drop (cursor[number]?.getD 0)

/-- The number of elements that are left. -/
def unread (cursor : List Nat) : Nat :=
  ((List.range lists.length).map fun number =>
    (rest lists cursor number).length).sum

/-- The heads of lists that are numbered from `number` on. -/
def pushHeads : Nat → List (List α) → List (Nat × Nat) → List (Nat × Nat)
  | _, [], heap => heap
  | number, list :: others, heap =>
      match list.head? with
      | none => pushHeads (number + 1) others heap
      | some element =>
          pushHeads (number + 1) others (push heap (key element, number))

def start : State where
  heap := pushHeads key 0 lists []
  cursor := List.replicate lists.length 0

/-- Move one cursor, and push what it points at now. -/
def advance (state : State) (number : Nat) : State :=
  let cursor := state.cursor.modify number (· + 1)
  match (rest lists cursor number).head? with
  | none => { heap := state.heap, cursor := cursor }
  | some element =>
      { heap := push state.heap (key element, number), cursor := cursor }

/-- Advance every list at the key `first`; the highest number wins.  `fuel`
bounds the elements that are left. -/
def drain (first : Nat) : Nat → State → Nat → Bool → State × Nat
  | 0, state, winner, _ => (state, winner)
  | fuel + 1, state, winner, found =>
      match state.heap with
      | [] => (state, winner)
      | (smallest, number) :: heap =>
          if smallest ≠ first then (state, winner)
          else
            drain first fuel
              (advance key lists { state with heap := heap } number)
              (if found = false ∨ winner < number then number else winner) true

/-- The element that a list has just left. -/
def taken (cursor : List Nat) (number : Nat) : Option α :=
  match cursor[number]?.getD 0 with
  | 0 => none
  | count + 1 => (lists[number]?.getD [])[count]?

/-- The keys in the order of the heap, each with the list that won it and with
the element there. -/
def winners : Nat → State → List (Nat × Nat × Option α)
  | 0, _ => []
  | fuel + 1, state =>
      match state.heap with
      | [] => []
      | (first, _) :: _ =>
          let drained :=
            drain key lists first (unread lists state.cursor) state 0 false
          (first, drained.2, taken lists drained.1.cursor drained.2) ::
            winners fuel drained.1

end Merge

-- Of two lists with the key 2 the second wins.
example :
    winners id [[1, 2], [2, 4], []] 4 (start id [[1, 2], [2, 4], []]) =
      [(1, 0, some 1), (2, 1, some 2), (4, 1, some 4)] := by
  decide

variable {α : Type} {key : α → Nat} {lists : List (List α)}

/-- The heap holds exactly the heads. -/
structure Consistent (key : α → Nat) (lists : List (List α)) (state : State) :
    Prop where
  length : state.cursor.length = lists.length
  sorted : state.heap.Pairwise Before
  nodup : state.heap.Nodup
  heads : ∀ smallest number, (smallest, number) ∈ state.heap ↔
    ∃ element, (rest lists state.cursor number).head? = some element ∧
      key element = smallest

theorem rest_of_le {cursor : List Nat} {number : Nat}
    (outside : lists.length ≤ number) : rest lists cursor number = [] := by
  rw [rest, List.getElem?_eq_none outside, Option.getD_none, List.drop_nil]

theorem rest_modify_self {cursor : List Nat} {number : Nat}
    (inside : number < cursor.length) :
    rest lists (cursor.modify number (· + 1)) number =
      (rest lists cursor number).tail := by
  rw [rest, rest, List.getElem?_modify, List.getElem?_eq_getElem inside]
  simp

theorem rest_modify_ne {cursor : List Nat} {number other : Nat}
    (different : number ≠ other) :
    rest lists (cursor.modify number (· + 1)) other =
      rest lists cursor other := by
  rw [rest, rest, List.getElem?_modify]
  simp [different]

theorem mem_rest_of_modify {cursor : List Nat} {number list : Nat} {element : α}
    (inside : number < cursor.length)
    (member : element ∈ rest lists (cursor.modify number (· + 1)) list) :
    element ∈ rest lists cursor list := by
  by_cases own : number = list
  · subst own
    rw [rest_modify_self inside] at member
    exact List.mem_of_mem_tail member
  · rwa [rest_modify_ne own] at member

/-! ## One step -/

theorem Consistent.head_rest {state : State} {smallest number : Nat}
    {heap : List (Nat × Nat)}
    (consistent : Consistent key lists state)
    (top : state.heap = (smallest, number) :: heap) :
    ∃ element behind, rest lists state.cursor number = element :: behind ∧
      key element = smallest := by
  have member : (smallest, number) ∈ state.heap := by
    rw [top]
    exact List.mem_cons_self
  obtain ⟨element, head, same⟩ := (consistent.heads _ _).mp member
  obtain ⟨behind, whole⟩ := List.head?_eq_some_iff.mp head
  exact ⟨element, behind, whole, same⟩

theorem Consistent.inside {state : State} {number : Nat}
    (consistent : Consistent key lists state)
    (left : rest lists state.cursor number ≠ []) :
    number < state.cursor.length := by
  rw [consistent.length]
  by_contra outside
  exact left (rest_of_le (Nat.not_lt.mp outside))

theorem Consistent.top_inside {state : State} {smallest number : Nat}
    {heap : List (Nat × Nat)}
    (consistent : Consistent key lists state)
    (top : state.heap = (smallest, number) :: heap) :
    number < state.cursor.length := by
  apply consistent.inside
  obtain ⟨element, behind, whole, _⟩ := consistent.head_rest top
  rw [whole]
  exact List.cons_ne_nil _ _

theorem mem_push {heap : List (Nat × Nat)} {entry other : Nat × Nat} :
    other ∈ push heap entry ↔ other = entry ∨ other ∈ heap :=
  List.mem_orderedInsert _

@[simp] theorem advance_cursor (state : State) (number : Nat) :
    (advance key lists state number).cursor =
      state.cursor.modify number (· + 1) := by
  unfold advance
  dsimp only
  split <;> rfl

/-- Below the top of the heap is no other entry of its list. -/
theorem Consistent.mem_tail {state : State} {smallest number : Nat}
    {heap : List (Nat × Nat)}
    (consistent : Consistent key lists state)
    (top : state.heap = (smallest, number) :: heap) (other list : Nat) :
    (other, list) ∈ heap ↔ list ≠ number ∧ (other, list) ∈ state.heap := by
  have nodup := consistent.nodup
  rw [top, List.nodup_cons] at nodup
  constructor
  · intro member
    have held : (other, list) ∈ state.heap := by
      rw [top]
      exact List.mem_cons_of_mem _ member
    refine ⟨?_, held⟩
    rintro rfl
    obtain ⟨element, behind, whole, same⟩ := consistent.head_rest top
    obtain ⟨first, head, equal⟩ := (consistent.heads _ _).mp held
    rw [whole, List.head?_cons] at head
    cases head
    rw [← equal, same] at member
    exact nodup.1 member
  · rintro ⟨different, member⟩
    rw [top, List.mem_cons] at member
    rcases member with first | later
    · cases first
      exact absurd rfl different
    · exact later

/-- Advancing the list on top of the heap keeps the heap of the heads. -/
theorem Consistent.advance {state : State} {smallest number : Nat}
    {heap : List (Nat × Nat)}
    (consistent : Consistent key lists state)
    (top : state.heap = (smallest, number) :: heap) :
    Consistent key lists
      (advance key lists { state with heap := heap } number) := by
  have sorted := consistent.sorted
  have nodup := consistent.nodup
  rw [top, List.pairwise_cons] at sorted
  rw [top, List.nodup_cons] at nodup
  have inside := consistent.top_inside top
  have own := @rest_modify_self _ lists _ _ inside
  have length : (state.cursor.modify number (· + 1)).length = lists.length := by
    rw [List.length_modify, consistent.length]
  have others (smaller list : Nat) : (smaller, list) ∈ heap ↔
      list ≠ number ∧ ∃ element,
        (rest lists (state.cursor.modify number (· + 1)) list).head? =
            some element ∧ key element = smaller := by
    rw [consistent.mem_tail top, consistent.heads]
    constructor
    · rintro ⟨different, held⟩
      rw [rest_modify_ne (Ne.symm different)]
      exact ⟨different, held⟩
    · rintro ⟨different, held⟩
      rw [rest_modify_ne (Ne.symm different)] at held
      exact ⟨different, held⟩
  unfold KWay.advance
  dsimp only
  cases next :
      (rest lists (state.cursor.modify number (· + 1)) number).head? with
  | none =>
      refine ⟨length, sorted.2, nodup.2, ?_⟩
      intro smaller list
      rw [others]
      constructor
      · exact fun held => held.2
      · rintro ⟨first, head, same⟩
        refine ⟨?_, first, head, same⟩
        rintro rfl
        rw [next] at head
        cases head
  | some following =>
      have fresh : (key following, number) ∉ heap := by
        rw [others]
        exact fun held => held.1 rfl
      refine ⟨length, sorted.2.orderedInsert _ _, ?_, ?_⟩
      · exact (List.perm_orderedInsert _ _ _).nodup_iff.mpr
          (List.nodup_cons.mpr ⟨fresh, nodup.2⟩)
      · intro smaller list
        dsimp only
        rw [mem_push, others]
        constructor
        · rintro (new | held)
          · cases new
            exact ⟨following, next, rfl⟩
          · exact held.2
        · rintro ⟨first, head, same⟩
          by_cases own : list = number
          · rw [own, next] at head
            cases head
            rw [own, same]
            exact .inl rfl
          · exact .inr ⟨own, first, head, same⟩

/-- One element fewer is left. -/
theorem unread_advance {state : State} {smallest number : Nat}
    {heap : List (Nat × Nat)}
    (consistent : Consistent key lists state)
    (top : state.heap = (smallest, number) :: heap) :
    unread lists (state.cursor.modify number (· + 1)) <
      unread lists state.cursor := by
  obtain ⟨element, behind, whole, _⟩ := consistent.head_rest top
  have inside := consistent.top_inside top
  have shorter :
      (rest lists (state.cursor.modify number (· + 1)) number).length <
        (rest lists state.cursor number).length := by
    rw [rest_modify_self inside, whole]
    simp
  apply List.sum_lt_sum
  · intro list _
    by_cases own : number = list
    · rw [← own]
      exact Nat.le_of_lt shorter
    · rw [rest_modify_ne own]
  · refine ⟨number, ?_, shorter⟩
    rw [List.mem_range, ← consistent.length]
    exact inside

theorem unread_advance_le {fuel : Nat} {state : State} {smallest number : Nat}
    {heap : List (Nat × Nat)}
    (consistent : Consistent key lists state)
    (top : state.heap = (smallest, number) :: heap)
    (enough : unread lists state.cursor ≤ fuel + 1) :
    unread lists
      (advance key lists { state with heap := heap } number).cursor ≤ fuel := by
  have less := unread_advance consistent top
  rw [advance_cursor]
  exact Nat.le_of_lt_succ (Nat.lt_of_lt_of_le less enough)

/-- Elements are left as long as the heap holds one. -/
theorem Consistent.unread_pos {state : State}
    (consistent : Consistent key lists state) (some_ : state.heap ≠ []) :
    0 < unread lists state.cursor := by
  cases top : state.heap with
  | nil => exact absurd top some_
  | cons entry heap => exact Nat.zero_lt_of_lt (unread_advance consistent top)

theorem Consistent.rest_eq_nil {state : State}
    (consistent : Consistent key lists state) (empty : state.heap = [])
    (number : Nat) : rest lists state.cursor number = [] := by
  cases whole : rest lists state.cursor number with
  | nil => rfl
  | cons element behind =>
      have member : (key element, number) ∈ state.heap :=
        (consistent.heads _ _).mpr
          ⟨element, by rw [whole, List.head?_cons], rfl⟩
      rw [empty] at member
      cases member

theorem Consistent.heap_eq_nil {state : State}
    (consistent : Consistent key lists state)
    (nothing : unread lists state.cursor ≤ 0) : state.heap = [] := by
  by_contra some_
  exact Nat.not_lt.mpr nothing (consistent.unread_pos some_)

/-! ## One key -/

/-- Every list went on by some elements of one key. -/
def Drained (key : α → Nat) (lists : List (List α)) (first : Nat)
    (before after : List Nat) : Prop :=
  ∀ number, ∃ count,
    after[number]?.getD 0 = before[number]?.getD 0 + count ∧
      count ≤ (rest lists before number).length ∧
      ∀ element ∈ (rest lists before number).take count, key element = first

theorem Drained.refl (first : Nat) (cursor : List Nat) :
    Drained key lists first cursor cursor := by
  intro number
  exact ⟨0, rfl, Nat.zero_le _, by simp⟩

theorem Drained.rest_eq {number count : Nat} {before after : List Nat}
    (moved : after[number]?.getD 0 = before[number]?.getD 0 + count) :
    rest lists after number = (rest lists before number).drop count := by
  rw [rest, rest, List.drop_drop, moved]

/-- The list on top goes first, then the others. -/
theorem Drained.step {first number : Nat} {element : α} {behind : List α}
    {before after : List Nat}
    (inside : number < before.length)
    (whole : rest lists before number = element :: behind)
    (same : key element = first)
    (later : Drained key lists first (before.modify number (· + 1)) after) :
    Drained key lists first before after := by
  intro other
  obtain ⟨count, moved, bounded, keys⟩ := later other
  by_cases own : number = other
  · subst own
    rw [rest_modify_self inside, whole, List.tail_cons] at bounded keys
    rw [List.getElem?_modify, List.getElem?_eq_getElem inside] at moved
    refine ⟨count + 1, ?_, ?_, ?_⟩
    · rw [moved, List.getElem?_eq_getElem inside]
      simp
      omega
    · rw [whole, List.length_cons]
      omega
    · rw [whole, List.take_succ_cons]
      intro first member
      rcases List.mem_cons.mp member with rfl | member
      · exact same
      · exact keys first member
  · rw [rest_modify_ne own] at bounded keys
    rw [List.getElem?_modify] at moved
    exact ⟨count, by simpa [own] using moved, bounded, keys⟩

/-- Draining a key keeps the heap, and stops at another key. -/
theorem drain_spec {first fuel winner : Nat} {found : Bool} {state : State}
    (consistent : Consistent key lists state)
    (enough : unread lists state.cursor ≤ fuel) :
    Consistent key lists (drain key lists first fuel state winner found).1 ∧
      Drained key lists first state.cursor
        (drain key lists first fuel state winner found).1.cursor ∧
      (∀ number heap, (drain key lists first fuel state winner found).1.heap ≠
        (first, number) :: heap) ∧
      unread lists (drain key lists first fuel state winner found).1.cursor ≤
        unread lists state.cursor := by
  induction fuel generalizing state winner found with
  | zero =>
      refine ⟨consistent, .refl _ _, ?_, Nat.le_refl _⟩
      intro number heap top
      change state.heap = _ at top
      rw [consistent.heap_eq_nil enough] at top
      cases top
  | succ fuel ih =>
      rw [drain]
      split
      · rename_i top
        refine ⟨consistent, .refl _ _, ?_, Nat.le_refl _⟩
        intro number heap other
        rw [top] at other
        cases other
      · rename_i smallest number heap top
        split
        · rename_i different
          refine ⟨consistent, .refl _ _, ?_, Nat.le_refl _⟩
          intro other behind equal
          rw [top] at equal
          cases equal
          exact different rfl
        · rename_i same
          have less := unread_advance consistent top
          obtain ⟨element, behind, whole, keyed⟩ := consistent.head_rest top
          have inside := consistent.top_inside top
          have fits := unread_advance_le consistent top enough
          obtain ⟨kept, moved, stopped, fewer⟩ := @ih
            (if found = false ∨ winner < number then number else winner) true _
            (consistent.advance top) fits
          rw [advance_cursor] at moved fewer
          exact ⟨kept, moved.step inside whole (keyed.trans (not_not.mp same)),
            stopped, Nat.le_trans fewer (Nat.le_of_lt less)⟩

/-- Draining the key on top takes an element. -/
theorem drain_lt {first number winner : Nat} {found : Bool} {state : State}
    {heap : List (Nat × Nat)}
    (consistent : Consistent key lists state)
    (top : state.heap = (first, number) :: heap) :
    unread lists (drain key lists first (unread lists state.cursor) state winner
        found).1.cursor <
      unread lists state.cursor := by
  have less := unread_advance consistent top
  obtain ⟨fuel, enough⟩ := Nat.exists_eq_succ_of_ne_zero
    (Nat.ne_of_gt (Nat.zero_lt_of_lt less))
  rw [enough, drain, top]
  simp only [ne_eq, not_true_eq_false, if_false]
  have fits := unread_advance_le consistent top (Nat.le_of_eq enough)
  obtain ⟨_, _, _, fewer⟩ := @drain_spec _ key lists first fuel
    (if found = false ∨ winner < number then number else winner) true _
    (consistent.advance top) fits
  exact Nat.lt_succ_of_le (Nat.le_trans fewer fits)

/-- An element of a list is drained or still there. -/
theorem Drained.mem_rest {first number : Nat} {before after : List Nat}
    (drained : Drained key lists first before after) {element : α}
    (member : element ∈ rest lists before number) :
    key element = first ∨ element ∈ rest lists after number := by
  obtain ⟨count, moved, _, keys⟩ := drained number
  rw [Drained.rest_eq moved]
  rw [← List.take_append_drop count (rest lists before number),
    List.mem_append] at member
  rcases member with taken | left
  · exact .inl (keys element taken)
  · exact .inr left

theorem Drained.of_mem_rest {first number : Nat} {before after : List Nat}
    (drained : Drained key lists first before after) {element : α}
    (member : element ∈ rest lists after number) :
    element ∈ rest lists before number := by
  obtain ⟨count, moved, _, _⟩ := drained number
  rw [Drained.rest_eq moved] at member
  exact List.mem_of_mem_drop member

/-- The keys that come out are those of the elements that were left. -/
theorem mem_keys_winners {fuel : Nat} {state : State}
    (consistent : Consistent key lists state)
    (enough : unread lists state.cursor ≤ fuel) (value : Nat) :
    value ∈ (winners key lists fuel state).map Prod.fst ↔
      ∃ number, ∃ element ∈ rest lists state.cursor number,
        key element = value := by
  induction fuel generalizing state with
  | zero =>
      simp [winners, consistent.rest_eq_nil (consistent.heap_eq_nil enough)]
  | succ fuel ih =>
      rw [winners]
      split
      · rename_i empty
        simp [consistent.rest_eq_nil empty]
      · rename_i first number heap top
        obtain ⟨kept, drained, _, _⟩ := @drain_spec _ key lists first _ 0 false
          state consistent (Nat.le_refl _)
        have less := @drain_lt _ key lists first number 0 false _ heap
          consistent top
        rw [List.map_cons, List.mem_cons, ih kept (by omega)]
        constructor
        · rintro (rfl | ⟨list, element, member, same⟩)
          · obtain ⟨element, behind, whole, same⟩ := consistent.head_rest top
            exact ⟨number, element, by rw [whole]; exact List.mem_cons_self,
              same⟩
          · exact ⟨list, element, drained.of_mem_rest member, same⟩
        · rintro ⟨list, element, member, same⟩
          rcases drained.mem_rest member with keyed | left
          · exact .inl (same.symm.trans keyed)
          · exact .inr ⟨list, element, left, same⟩

/-! ## Ascending lists -/

/-- Keys strictly increase along every list. -/
def Ascending (key : α → Nat) (lists : List (List α)) : Prop :=
  ∀ list ∈ lists, list.Pairwise fun left right => key left < key right

theorem Ascending.rest (ascending : Ascending key lists) (cursor : List Nat)
    (number : Nat) :
    (rest lists cursor number).Pairwise fun left right =>
      key left < key right := by
  apply List.Pairwise.sublist (List.drop_sublist _ _)
  cases held : lists[number]? with
  | none => exact .nil
  | some list => exact ascending list (List.mem_of_getElem? held)

/-- The top of the heap has the smallest key that is left. -/
theorem Consistent.top_le {state : State} {smallest number : Nat}
    {heap : List (Nat × Nat)}
    (consistent : Consistent key lists state)
    (ascending : Ascending key lists)
    (top : state.heap = (smallest, number) :: heap) {list : Nat} {element : α}
    (member : element ∈ rest lists state.cursor list) :
    smallest ≤ key element := by
  cases whole : rest lists state.cursor list with
  | nil =>
      rw [whole] at member
      cases member
  | cons head behind =>
      have headMember : (key head, list) ∈ state.heap :=
        (consistent.heads _ _).mpr ⟨head, by rw [whole, List.head?_cons], rfl⟩
      have sorted := consistent.sorted
      rw [top] at headMember sorted
      have below : smallest ≤ key head := by
        rcases List.mem_cons.mp headMember with same | later
        · cases same
          exact Nat.le_refl _
        · have before := (List.pairwise_cons.mp sorted).1 _ later
          unfold Before at before
          omega
      have rising := ascending.rest state.cursor list
      rw [whole] at member rising
      rcases List.mem_cons.mp member with rfl | later
      · exact below
      · have above := (List.pairwise_cons.mp rising).1 _ later
        omega

/-- A smallest key that is not on top is not left. -/
theorem Consistent.key_ne {state : State} {first : Nat}
    (consistent : Consistent key lists state)
    (ascending : Ascending key lists)
    (least : ∀ number, ∀ element ∈ rest lists state.cursor number,
      first ≤ key element)
    (stopped : ∀ number heap, state.heap ≠ (first, number) :: heap)
    {number : Nat} {element : α}
    (member : element ∈ rest lists state.cursor number) :
    key element ≠ first := by
  intro same
  cases top : state.heap with
  | nil =>
      rw [consistent.rest_eq_nil top] at member
      cases member
  | cons entry heap =>
      obtain ⟨smallest, list⟩ := entry
      have below := consistent.top_le ascending top member
      obtain ⟨head, behind, whole, keyed⟩ := consistent.head_rest top
      have above := least list head (by rw [whole]; exact List.mem_cons_self)
      have equal : smallest = first := by omega
      rw [equal] at top
      exact stopped list heap top

/-- The winner among the lists at a key, when `winner` was found before. -/
structure Wins (key : α → Nat) (lists : List (List α)) (first : Nat)
    (cursor : List Nat) (winner : Nat) (found : Bool) (final : Nat) : Prop where
  highest : ∀ number, ∀ element ∈ rest lists cursor number,
    key element = first → number ≤ final
  kept : found = true → winner ≤ final
  among : (∃ element ∈ rest lists cursor final, key element = first) ∨
    final = winner ∧ (found = false → ∀ number,
      ∀ element ∈ rest lists cursor number, key element ≠ first)

theorem Wins.of_absent {first winner : Nat} {cursor : List Nat} {found : Bool}
    (absent : ∀ number, ∀ element ∈ rest lists cursor number,
      key element ≠ first) :
    Wins key lists first cursor winner found winner where
  highest := fun number element member same =>
    absurd same (absent number element member)
  kept := fun _ => Nat.le_refl _
  among := .inr ⟨rfl, fun _ => absent⟩

/-- The winner so far is compared with the list that is taken next. -/
theorem Wins.step {first number winner final : Nat} {cursor : List Nat}
    {found : Bool} {element : α} {behind : List α}
    (inside : number < cursor.length)
    (whole : rest lists cursor number = element :: behind)
    (same : key element = first)
    (later : Wins key lists first (cursor.modify number (· + 1))
      (if found = false ∨ winner < number then number else winner) true final) :
    Wins key lists first cursor winner found final := by
  have reached := later.kept rfl
  refine ⟨?_, ?_, ?_⟩
  · intro list other member equal
    by_cases own : number = list
    · subst own
      split at reached
      · exact reached
      · omega
    · exact later.highest list other (by rwa [rest_modify_ne own]) equal
  · intro before
    split at reached
    · rename_i replaced
      rcases replaced with fresh | below
      · rw [before] at fresh
        cases fresh
      · omega
    · exact reached
  · rcases later.among with ⟨other, member, equal⟩ | ⟨final_, _⟩
    · exact .inl ⟨other, mem_rest_of_modify inside member, equal⟩
    · split at final_
      · rw [final_]
        exact .inl ⟨element, by rw [whole]; exact List.mem_cons_self, same⟩
      · rename_i kept
        refine .inr ⟨final_, ?_⟩
        intro fresh
        exact absurd (.inl fresh) kept

/-- The list with the highest number among those at the key wins. -/
theorem drain_wins {first fuel winner : Nat} {found : Bool} {state : State}
    (consistent : Consistent key lists state)
    (ascending : Ascending key lists)
    (least : ∀ number, ∀ element ∈ rest lists state.cursor number,
      first ≤ key element)
    (enough : unread lists state.cursor ≤ fuel) :
    Wins key lists first state.cursor winner found
      (drain key lists first fuel state winner found).2 := by
  induction fuel generalizing state winner found with
  | zero =>
      apply Wins.of_absent
      intro number element member
      rw [consistent.rest_eq_nil (consistent.heap_eq_nil enough)] at member
      cases member
  | succ fuel ih =>
      have absent (stopped : ∀ number heap,
          state.heap ≠ (first, number) :: heap) :
          ∀ number, ∀ element ∈ rest lists state.cursor number,
            key element ≠ first := fun _ _ =>
        consistent.key_ne ascending least stopped
      rw [drain]
      split
      · rename_i empty
        apply Wins.of_absent
        apply absent
        intro number heap top
        rw [empty] at top
        cases top
      · rename_i smallest number heap top
        split
        · rename_i different
          apply Wins.of_absent
          apply absent
          intro other behind equal
          rw [top] at equal
          cases equal
          exact different rfl
        · rename_i same
          obtain ⟨element, behind, whole, keyed⟩ := consistent.head_rest top
          have inside := consistent.top_inside top
          have fits := unread_advance_le consistent top enough
          have later := @ih
            (if found = false ∨ winner < number then number else winner) true _
            (consistent.advance top) (by
              intro list other member
              rw [advance_cursor] at member
              exact least list other (mem_rest_of_modify inside member)) fits
          rw [advance_cursor] at later
          exact later.step inside whole (keyed.trans (not_not.mp same))

/-- Behind a drained smallest key everything else is left. -/
theorem Drained.mem_iff {first : Nat} {before : List Nat} {after : State}
    (drained : Drained key lists first before after.cursor)
    (consistent : Consistent key lists after)
    (ascending : Ascending key lists)
    (least : ∀ number, ∀ element ∈ rest lists before number,
      first ≤ key element)
    (stopped : ∀ number heap, after.heap ≠ (first, number) :: heap)
    {number : Nat} {element : α} :
    element ∈ rest lists after.cursor number ↔
      element ∈ rest lists before number ∧ key element ≠ first := by
  constructor
  · intro member
    refine ⟨drained.of_mem_rest member, ?_⟩
    apply consistent.key_ne ascending _ stopped member
    intro list other held
    exact least list other (drained.of_mem_rest held)
  · rintro ⟨member, different⟩
    exact (drained.mem_rest member).resolve_left different

/-- The element of a list that was drained is the one it has just left. -/
theorem Drained.taken_eq {first number : Nat} {before after : List Nat}
    {element : α}
    (drained : Drained key lists first before after)
    (ascending : Ascending key lists)
    (member : element ∈ rest lists before number)
    (gone : element ∉ rest lists after number) :
    taken lists after number = some element := by
  obtain ⟨count, moved, bounded, keys⟩ := drained number
  have rising := ascending.rest before number
  rw [Drained.rest_eq moved] at gone
  have inFront : element ∈ (rest lists before number).take count := by
    rw [← List.take_append_drop count (rest lists before number),
      List.mem_append] at member
    exact member.resolve_right gone
  cases whole : rest lists before number with
  | nil =>
      rw [whole] at member
      cases member
  | cons head behind =>
      rw [whole] at inFront keys rising bounded
      -- Two drained elements of one list would have the same key.
      obtain rfl | ⟨more, rfl⟩ : count = 1 ∨ ∃ more, count = more + 2 := by
        match count, inFront with
        | 0, inFront => cases inFront
        | 1, _ => exact .inl rfl
        | more + 2, _ => exact .inr ⟨more, rfl⟩
      · have first_ : element = head := by simpa using inFront
        have read : (lists[number]?.getD [])[before[number]?.getD 0]? =
            some head := by
          have front := congrArg List.head? whole
          rw [rest, List.head?_drop, List.head?_cons] at front
          exact front
        rw [taken, moved, first_]
        exact read
      · cases behind with
        | nil => simp at bounded
        | cons second others =>
            have headKey := keys head (by simp)
            have secondKey := keys second (by simp)
            have above := (List.pairwise_cons.mp rising).1 second
              List.mem_cons_self
            omega

/-- What the draining of the key on top leaves, and which list won. -/
structure Emits (key : α → Nat) (lists : List (List α)) (first : Nat)
    (before : State) (after : State × Nat) : Prop where
  kept : Consistent key lists after.1
  fewer : unread lists after.1.cursor < unread lists before.cursor
  least : ∀ number, ∀ element ∈ rest lists before.cursor number,
    first ≤ key element
  left : ∀ number element, element ∈ rest lists after.1.cursor number ↔
    element ∈ rest lists before.cursor number ∧ key element ≠ first
  held : ∃ element ∈ rest lists before.cursor after.2, key element = first
  won : ∀ element ∈ rest lists before.cursor after.2, key element = first →
    taken lists after.1.cursor after.2 = some element
  highest : ∀ number, ∀ element ∈ rest lists before.cursor number,
    key element = first → number ≤ after.2

theorem Consistent.emits {state : State} {first number : Nat}
    {heap : List (Nat × Nat)}
    (consistent : Consistent key lists state)
    (ascending : Ascending key lists)
    (top : state.heap = (first, number) :: heap) :
    Emits key lists first state
      (drain key lists first (unread lists state.cursor) state 0 false) := by
  have least (list : Nat) (element : α)
      (member : element ∈ rest lists state.cursor list) :
      first ≤ key element := consistent.top_le ascending top member
  obtain ⟨kept, drained, stopped, _⟩ := @drain_spec _ key lists first _ 0
    false state consistent (Nat.le_refl _)
  have wins := @drain_wins _ key lists first _ 0 false state consistent
    ascending least (Nat.le_refl _)
  have left {list : Nat} {element : α} := @Drained.mem_iff _ key lists
    first _ _ drained kept ascending least stopped list element
  refine ⟨kept, drain_lt consistent top, least, fun _ _ => left, ?_, ?_,
    wins.highest⟩
  · rcases wins.among with held | ⟨_, absent⟩
    · exact held
    · obtain ⟨element, behind, whole, same⟩ := consistent.head_rest top
      exact absurd same (absent rfl number element
        (by rw [whole]; exact List.mem_cons_self))
  · intro element member same
    exact drained.taken_eq ascending member fun there =>
      (left.mp there).2 same

/-- The keys come out in ascending order. -/
theorem winners_rising {fuel : Nat} {state : State}
    (consistent : Consistent key lists state)
    (ascending : Ascending key lists)
    (enough : unread lists state.cursor ≤ fuel) :
    ((winners key lists fuel state).map Prod.fst).Pairwise (· < ·) := by
  induction fuel generalizing state with
  | zero =>
      rw [winners]
      exact .nil
  | succ fuel ih =>
      rw [winners]
      split
      · exact .nil
      · rename_i first number heap top
        have emits := consistent.emits ascending top
        have below := Nat.le_of_lt_succ (Nat.lt_of_lt_of_le emits.fewer enough)
        rw [List.map_cons, List.pairwise_cons]
        refine ⟨?_, ih emits.kept below⟩
        intro value member
        obtain ⟨list, element, there, rfl⟩ :=
          (mem_keys_winners emits.kept below value).mp member
        obtain ⟨before, different⟩ := (emits.left _ _).mp there
        exact Nat.lt_of_le_of_ne (emits.least list element before)
          (Ne.symm different)

/-- Every key comes out with its element in the last list that holds it. -/
theorem mem_winners {fuel : Nat} {state : State}
    (consistent : Consistent key lists state)
    (ascending : Ascending key lists)
    (enough : unread lists state.cursor ≤ fuel)
    (value list : Nat) (found : Option α) :
    (value, list, found) ∈ winners key lists fuel state ↔
      ∃ element ∈ rest lists state.cursor list,
        found = some element ∧ key element = value ∧
          ∀ later, list < later →
            ∀ other ∈ rest lists state.cursor later, key other ≠ value := by
  induction fuel generalizing state with
  | zero =>
      have empty := consistent.rest_eq_nil (consistent.heap_eq_nil enough)
      simp [winners, empty]
  | succ fuel ih =>
      rw [winners]
      split
      · rename_i top
        simp [consistent.rest_eq_nil top]
      · rename_i first number heap top
        have emits := consistent.emits ascending top
        have below := Nat.le_of_lt_succ (Nat.lt_of_lt_of_le emits.fewer enough)
        rw [List.mem_cons, ih emits.kept below]
        constructor
        · rintro (same | ⟨element, member, rfl, keyed, last⟩)
          · obtain ⟨element, member, keyed⟩ := emits.held
            rw [emits.won element member keyed] at same
            cases same
            refine ⟨element, member, rfl, keyed, ?_⟩
            intro later above other there equal
            have reached := emits.highest later other there equal
            omega
          · obtain ⟨before, different⟩ := (emits.left _ _).mp member
            refine ⟨element, before, rfl, keyed, ?_⟩
            intro later above other there equal
            rw [← keyed] at equal
            exact last later above other
              ((emits.left _ _).mpr ⟨there, by rw [equal]; exact different⟩)
              (equal.trans keyed)
        · rintro ⟨element, member, rfl, keyed, last⟩
          by_cases smallest : value = first
          · subst smallest
            obtain ⟨other, there, equal⟩ := emits.held
            have reached := emits.highest list element member keyed
            rcases Nat.lt_or_eq_of_le reached with above | same
            · exact absurd equal (last _ above other there)
            · subst same
              rw [emits.won element member keyed]
              exact .inl rfl
          · refine .inr ⟨element, ?_, rfl, keyed, ?_⟩
            · exact (emits.left _ _).mpr
                ⟨member, by rw [keyed]; exact smallest⟩
            · intro later above other there
              exact last later above other ((emits.left _ _).mp there).1

/-- The keys come out in ascending order, each with its element in the last list
that holds it. -/
theorem winners_ascending {fuel : Nat} {state : State}
    (consistent : Consistent key lists state)
    (ascending : Ascending key lists)
    (enough : unread lists state.cursor ≤ fuel) :
    ((winners key lists fuel state).map Prod.fst).Pairwise (· < ·) ∧
      ∀ value number found,
        (value, number, found) ∈ winners key lists fuel state ↔
          ∃ element ∈ rest lists state.cursor number,
            found = some element ∧ key element = value ∧
              ∀ later, number < later →
                ∀ other ∈ rest lists state.cursor later, key other ≠ value :=
  ⟨winners_rising consistent ascending enough,
    mem_winners consistent ascending enough⟩

/-! ## The start -/

theorem mem_pushHeads {number : Nat} {others : List (List α)}
    {heap : List (Nat × Nat)} {smallest list : Nat} :
    (smallest, list) ∈ pushHeads key number others heap ↔
      (smallest, list) ∈ heap ∨ ∃ index element,
        (others[index]?.getD []).head? = some element ∧
          key element = smallest ∧ list = number + index := by
  induction others generalizing number heap with
  | nil => simp [pushHeads]
  | cons first others ih =>
      have split : (∃ index element,
          ((first :: others)[index]?.getD []).head? = some element ∧
            key element = smallest ∧ list = number + index) ↔
          (∃ element, first.head? = some element ∧ key element = smallest ∧
            list = number) ∨
          ∃ index element, (others[index]?.getD []).head? = some element ∧
            key element = smallest ∧ list = number + 1 + index := by
        constructor
        · rintro ⟨index, element, head, same, place⟩
          cases index with
          | zero => exact .inl ⟨element, head, same, place⟩
          | succ index =>
              rw [List.getElem?_cons_succ] at head
              exact .inr ⟨index, element, head, same, by omega⟩
        · rintro (⟨element, head, same, place⟩ |
            ⟨index, element, head, same, place⟩)
          · exact ⟨0, element, head, same, place⟩
          · refine ⟨index + 1, element, ?_, same, by omega⟩
            rw [List.getElem?_cons_succ]
            exact head
      rw [split, pushHeads]
      cases head : first.head? with
      | none => simp [ih]
      | some element =>
          simp only
          rw [ih, mem_push, Prod.mk.injEq]
          simp only [Option.some.injEq, exists_eq_left', @eq_comm _ smallest]
          rw [@or_comm (_ ∧ _), or_assoc]

theorem pushHeads_sorted {number : Nat} {others : List (List α)}
    {heap : List (Nat × Nat)} (sorted : heap.Pairwise Before) :
    (pushHeads key number others heap).Pairwise Before := by
  induction others generalizing number heap with
  | nil => exact sorted
  | cons first others ih =>
      rw [pushHeads]
      split
      · exact ih sorted
      · exact ih (sorted.orderedInsert _ _)

theorem pushHeads_nodup {number : Nat} {others : List (List α)}
    {heap : List (Nat × Nat)} (nodup : heap.Nodup)
    (below : ∀ entry ∈ heap, entry.2 < number) :
    (pushHeads key number others heap).Nodup := by
  induction others generalizing number heap with
  | nil => exact nodup
  | cons first others ih =>
      rw [pushHeads]
      split
      · exact ih nodup fun entry member =>
          Nat.lt_succ_of_lt (below entry member)
      · rename_i element _
        have fresh : (key element, number) ∉ heap := fun member =>
          Nat.lt_irrefl _ (below _ member)
        apply ih
        · exact (List.perm_orderedInsert _ _ _).nodup_iff.mpr
            (List.nodup_cons.mpr ⟨fresh, nodup⟩)
        · intro entry member
          rcases mem_push.mp member with rfl | old
          · exact Nat.lt_succ_self _
          · exact Nat.lt_succ_of_lt (below entry old)

@[simp] theorem rest_start (key : α → Nat) (number : Nat) :
    rest lists (start key lists).cursor number = lists[number]?.getD [] := by
  have zero : (List.replicate lists.length 0)[number]?.getD 0 = 0 := by
    rw [List.getElem?_replicate]
    split <;> rfl
  rw [rest, start, zero, List.drop_zero]

theorem start_consistent (key : α → Nat) (lists : List (List α)) :
    Consistent key lists (start key lists) where
  length := List.length_replicate
  sorted := pushHeads_sorted .nil
  nodup := pushHeads_nodup List.nodup_nil (by simp)
  heads := by
    intro smallest number
    rw [rest_start]
    refine mem_pushHeads.trans ?_
    constructor
    · rintro (impossible | ⟨index, element, head, same, place⟩)
      · cases impossible
      · rw [Nat.zero_add] at place
        rw [place]
        exact ⟨element, head, same⟩
    · rintro ⟨element, head, same⟩
      exact .inr ⟨number, element, head, same, (Nat.zero_add _).symm⟩

end KWay
