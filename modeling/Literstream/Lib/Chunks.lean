import Mathlib.Data.List.Basic

/-!
# Data cut into pieces of one size

A cut lists consecutive pieces.  All of them have the size of the cut, but the
last one may be shorter as long as it is not empty.
-/

namespace Chunks

variable {α : Type*} {size : Nat} {data : List α} {parts : List (List α)}

/-- `parts` are the pieces of `data`.  After a short piece nothing is left. -/
inductive Cut (size : Nat) : List α → List (List α) → Prop where
  | done : Cut size [] []
  | short {part : List α} :
      part ≠ [] → part.length < size → Cut size part [part]
  | full {part rest : List α} {parts : List (List α)} :
      part.length = size → Cut size rest parts →
      Cut size (part ++ rest) (part :: parts)

namespace Cut

theorem take_cons (long : size ≤ data.length)
    (tail : Cut size (data.drop size) parts) :
    Cut size data (data.take size :: parts) := by
  have pieces := full (List.length_take_of_le long) tail
  rw [List.take_append_drop] at pieces
  exact pieces

theorem exists_parts (positive : 0 < size) (data : List α) :
    ∃ parts, Cut size data parts := by
  induction total : data.length using Nat.strongRecOn
      generalizing data with
  | ind count ih =>
      by_cases empty : data = []
      · rw [empty]
        exact ⟨[], done⟩
      by_cases fits : data.length < size
      · exact ⟨[data], short empty fits⟩
      · have long := Nat.le_of_not_lt fits
        have less : (data.drop size).length < count := by
          rw [List.length_drop]
          omega
        obtain ⟨parts, tail⟩ := ih _ less (data.drop size) rfl
        exact ⟨data.take size :: parts, tail.take_cons long⟩

theorem flatten (cut : Cut size data parts) : parts.flatten = data := by
  induction cut with
  | done => rfl
  | short _ _ => simp
  | full _ _ ih => rw [List.flatten_cons, ih]

theorem ne_nil (cut : Cut size data parts) (positive : 0 < size) :
    ∀ part ∈ parts, part ≠ [] := by
  induction cut with
  | done =>
      intro part member
      cases member
  | short nonempty _ =>
      intro part member
      rw [List.mem_singleton.mp member]
      exact nonempty
  | full whole _ ih =>
      intro part member
      rcases List.mem_cons.mp member with first | later
      · rw [first]
        exact List.ne_nil_of_length_pos (by omega)
      · exact ih part later

theorem length_of_mem_dropLast (cut : Cut size data parts) :
    ∀ part ∈ parts.dropLast, part.length = size := by
  induction cut with
  | done =>
      intro part member
      cases member
  | short _ _ =>
      intro part member
      cases member
  | @full first rest parts whole tail ih =>
      intro part member
      cases parts with
      | nil => cases member
      | cons second others =>
          rw [List.dropLast_cons_cons] at member
          rcases List.mem_cons.mp member with same | later
          · rw [same]
            exact whole
          · exact ih part later

/-- The number of pieces is the length divided by the size, rounded up. -/
theorem length_parts (cut : Cut size data parts) (positive : 0 < size) :
    parts.length = (data.length + size - 1) / size := by
  induction cut with
  | done => exact (Nat.div_eq_of_lt (by simp; omega)).symm
  | @short part nonempty small =>
      have some := List.length_pos_of_ne_nil nonempty
      have one : part.length + size - 1 = part.length - 1 + size := by omega
      rw [one, Nat.add_div_right _ positive, Nat.div_eq_of_lt (by omega)]
      rfl
  | @full part rest parts whole _ ih =>
      have more :
          (part ++ rest).length + size - 1 = rest.length + size - 1 + size := by
        rw [List.length_append, whole]
        omega
      rw [more, Nat.add_div_right _ positive, ← ih]
      rfl

end Cut

end Chunks
