import Mathlib.Data.List.Basic
import Mathlib.Tactic.Ring

/-!
# Hexadecimal numbers

Lower-case numbers padded with zeros to a width, and a reader of digits of
either case under a limit.  Numbers of one width are ordered as strings as they
are as numbers.
-/

namespace Hex

/-- The byte of a digit. -/
def digit (value : Nat) : UInt8 := UInt8.ofNat value.digitChar.toNat

/-- The digits of a number without leading zeros. -/
def string (value : Nat) : List UInt8 :=
  (Nat.toDigits 16 value).map fun character => UInt8.ofNat character.toNat

/-- At least `width` digits, with zeros in front. -/
def padded (width value : Nat) : List UInt8 :=
  List.replicate (width - (string value).length) (digit 0) ++ string value

/-- The lowest `width` digits of a number. -/
def fixed : Nat → Nat → List UInt8
  | 0, _ => []
  | width + 1, value => digit (value / 16 ^ width % 16) :: fixed width value

/-- The value of a digit of either case. -/
def toDigit (byte : UInt8) : Option Nat :=
  if 48 ≤ byte ∧ byte ≤ 57 then some (byte.toNat - 48)
  else if 97 ≤ byte ∧ byte ≤ 102 then some (byte.toNat - 87)
  else if 65 ≤ byte ∧ byte ≤ 70 then some (byte.toNat - 55)
  else none

/-- Read digits behind a number, as long as the result is below the limit. -/
def read (limit : Nat) : Nat → List UInt8 → Option Nat
  | result, [] => some result
  | result, byte :: rest =>
      if limit ≤ result * 16 then none
      else
        match toDigit byte with
        | none => none
        | some value =>
            if limit ≤ result * 16 + value then none
            else read limit (result * 16 + value) rest

/-! ## Digits -/

theorem toDigit_digit {value : Nat} (small : value < 16) :
    toDigit (digit value) = some value := by
  have all : ∀ digits : Fin 16,
      toDigit (digit digits.val) = some digits.val := by
    decide
  exact all ⟨value, small⟩

theorem digit_lt_digit {left right : Nat} (leftSmall : left < 16)
    (rightSmall : right < 16) : digit left < digit right ↔ left < right := by
  have all : ∀ left right : Fin 16,
      digit left.val < digit right.val ↔ left.val < right.val := by
    decide
  exact all ⟨left, leftSmall⟩ ⟨right, rightSmall⟩

/-- A digit that is not upper-case is the one that is written. -/
theorem toDigit_eq_some {byte : UInt8} {value : Nat}
    (found : toDigit byte = some value) :
    value < 16 ∧ (¬(65 ≤ byte ∧ byte ≤ 70) → digit value = byte) := by
  have all : ∀ byte : Fin 256, ∀ value ∈ toDigit (UInt8.ofFin byte),
      value < 16 ∧ (¬(65 ≤ UInt8.ofFin byte ∧ UInt8.ofFin byte ≤ 70) →
        digit value = UInt8.ofFin byte) := by
    decide +kernel
  exact all byte.toFin value found

/-! ## A fixed width -/

@[simp] theorem length_fixed (width value : Nat) :
    (fixed width value).length = width := by
  induction width with
  | zero => rfl
  | succ width ih => rw [fixed, List.length_cons, ih]

theorem mem_fixed {width value : Nat} {byte : UInt8}
    (member : byte ∈ fixed width value) :
    ∃ small < 16, byte = digit small := by
  induction width with
  | zero => cases member
  | succ width ih =>
      rcases List.mem_cons.mp member with first | later
      · exact ⟨_, Nat.mod_lt _ (by decide), first⟩
      · exact ih later

theorem fixed_succ_last (width value : Nat) :
    fixed (width + 1) value =
      fixed width (value / 16) ++ [digit (value % 16)] := by
  induction width with
  | zero => simp [fixed]
  | succ width ih =>
      have shifted : value / 16 ^ (width + 1) = value / 16 / 16 ^ width := by
        rw [Nat.pow_succ, Nat.mul_comm, Nat.div_div_eq_div_mul]
      rw [fixed, ih, fixed, shifted, List.cons_append]

theorem string_of_lt {value : Nat} (small : value < 16) :
    string value = [digit value] := by
  rw [string, Nat.toDigits_of_lt_base small]
  rfl

theorem string_of_le {value : Nat} (large : 16 ≤ value) :
    string value = string (value / 16) ++ [digit (value % 16)] := by
  rw [string, Nat.toDigits_of_base_le (by decide) large, List.map_append]
  rfl

/-- A number that fits is padded to exactly the width. -/
theorem padded_eq_fixed {width value : Nat} (fits : value < 16 ^ (width + 1)) :
    padded (width + 1) value = fixed (width + 1) value := by
  induction width generalizing value with
  | zero =>
      rw [Nat.zero_add, Nat.pow_one] at fits
      rw [padded, string_of_lt fits, fixed_succ_last, Nat.mod_eq_of_lt fits]
      rfl
  | succ width ih =>
      rw [fixed_succ_last]
      rcases Nat.lt_or_ge value 16 with small | large
      · have zeros := @ih 0 (Nat.pow_pos (by decide))
        rw [padded, string_of_lt (by decide)] at zeros
        rw [Nat.div_eq_of_lt small, ← zeros, padded, string_of_lt small,
          Nat.mod_eq_of_lt small]
        simp [List.replicate_succ']
      · have shorter : value / 16 < 16 ^ (width + 1) := by
          rw [Nat.div_lt_iff_lt_mul (by decide), ← Nat.pow_succ]
          exact fits
        rw [← ih shorter, padded, padded, string_of_le large]
        simp

/-! ## Reading back -/

theorem read_fixed {limit width value result : Nat}
    (fits : result * 16 ^ width + value % 16 ^ width < limit) :
    read limit result (fixed width value) =
      some (result * 16 ^ width + value % 16 ^ width) := by
  induction width generalizing result with
  | zero => simp [fixed, read, Nat.mod_one]
  | succ width ih =>
      have bound : value / 16 ^ width % 16 < 16 := Nat.mod_lt _ (by decide)
      have split :
          result * 16 ^ (width + 1) + value % 16 ^ (width + 1) =
            (result * 16 + value / 16 ^ width % 16) * 16 ^ width +
              value % 16 ^ width := by
        rw [Nat.pow_succ, Nat.mod_mul]
        ring
      have positive : 1 ≤ 16 ^ width := Nat.pow_pos (by decide)
      rw [split] at fits ⊢
      have room : result * 16 + value / 16 ^ width % 16 < limit := by
        have grown := Nat.le_mul_of_pos_right
          (result * 16 + value / 16 ^ width % 16) positive
        omega
      rw [fixed, read, if_neg (by omega), toDigit_digit bound]
      simp only
      rw [if_neg (by omega)]
      exact ih fits

/-- Reading goes on behind a digit that leaves room. -/
theorem read_cons_eq_some {limit result final : Nat} {byte : UInt8}
    {rest : List UInt8} (done : read limit result (byte :: rest) = some final) :
    ∃ value, toDigit byte = some value ∧ result * 16 + value < limit ∧
      read limit (result * 16 + value) rest = some final := by
  rw [read] at done
  split at done
  · cases done
  · split at done
    · cases done
    · rename_i value found
      split at done
      · cases done
      · rename_i room
        exact ⟨value, found, Nat.not_le.mp room, done⟩

/-- What was read ends with the digits. -/
theorem div_of_read {limit result final : Nat} {digits : List UInt8}
    (done : read limit result digits = some final) :
    final / 16 ^ digits.length = result := by
  induction digits generalizing result with
  | nil =>
      cases done
      simp
  | cons byte rest ih =>
      obtain ⟨value, found, _, later⟩ := read_cons_eq_some done
      have small := (toDigit_eq_some found).1
      rw [List.length_cons, Nat.pow_succ, ← Nat.div_div_eq_div_mul, ih later]
      omega

theorem lt_of_read {limit result final : Nat} {digits : List UInt8}
    (small : result < limit) (done : read limit result digits = some final) :
    final < limit := by
  induction digits generalizing result with
  | nil =>
      cases done
      exact small
  | cons byte rest ih =>
      obtain ⟨_, _, room, later⟩ := read_cons_eq_some done
      exact ih room later

theorem toDigit_of_read {limit result final : Nat} {digits : List UInt8}
    (done : read limit result digits = some final) :
    ∀ byte ∈ digits, ∃ value, toDigit byte = some value := by
  induction digits generalizing result with
  | nil => simp
  | cons byte rest ih =>
      obtain ⟨value, found, _, later⟩ := read_cons_eq_some done
      intro other member
      rcases List.mem_cons.mp member with same | behind
      · rw [same]
        exact ⟨value, found⟩
      · exact ih later other behind

/-- Digits without an upper-case one are the ones that are written. -/
theorem fixed_of_read {limit result final : Nat} {digits : List UInt8}
    (lower : ∀ byte ∈ digits, ¬(65 ≤ byte ∧ byte ≤ 70))
    (done : read limit result digits = some final) :
    fixed digits.length final = digits := by
  induction digits generalizing result with
  | nil => rfl
  | cons byte rest ih =>
      obtain ⟨value, found, _, later⟩ := read_cons_eq_some done
      obtain ⟨small, written⟩ := toDigit_eq_some found
      have last : final / 16 ^ rest.length % 16 = value := by
        rw [div_of_read later]
        omega
      rw [List.length_cons, fixed, last,
        written (lower byte List.mem_cons_self),
        ih (fun other member =>
          lower other (List.mem_cons_of_mem _ member)) later]

/-! ## Order -/

theorem append_lt_append_iff {front front' back back' : List UInt8}
    (length : front.length = front'.length) :
    front ++ back < front' ++ back' ↔
      front < front' ∨ front = front' ∧ back < back' := by
  induction front generalizing front' with
  | nil =>
      cases front' with
      | nil => simp
      | cons byte rest => cases length
  | cons byte rest ih =>
      cases front' with
      | nil => cases length
      | cons byte' rest' =>
          rw [List.cons_append, List.cons_append, List.cons_lt_cons_iff,
            List.cons_lt_cons_iff, ih (Nat.succ.inj length), List.cons.injEq,
            and_or_left, or_assoc, and_assoc]

theorem fixed_inj {width left right : Nat}
    (leftFits : left < 16 ^ width) (rightFits : right < 16 ^ width)
    (same : fixed width left = fixed width right) : left = right := by
  have read (value : Nat) (fits : value < 16 ^ width) :
      read (16 ^ width) 0 (fixed width value) = some value := by
    have whole := Nat.mod_eq_of_lt fits
    rw [read_fixed (by omega), Nat.zero_mul, Nat.zero_add, whole]
  have leftRead := read left leftFits
  rw [same, read right rightFits] at leftRead
  exact (Option.some.inj leftRead).symm

/-- Numbers of one width compare as their strings do. -/
theorem fixed_lt_fixed {width left right : Nat}
    (leftFits : left < 16 ^ width) (rightFits : right < 16 ^ width) :
    fixed width left < fixed width right ↔ left < right := by
  induction width generalizing left right with
  | zero =>
      rw [Nat.pow_zero, Nat.lt_one_iff] at leftFits rightFits
      rw [leftFits, rightFits]
      simp [fixed]
  | succ width ih =>
      have leftShorter : left / 16 < 16 ^ width := by
        rw [Nat.div_lt_iff_lt_mul (by decide), ← Nat.pow_succ]
        exact leftFits
      have rightShorter : right / 16 < 16 ^ width := by
        rw [Nat.div_lt_iff_lt_mul (by decide), ← Nat.pow_succ]
        exact rightFits
      have sameFront :
          fixed width (left / 16) = fixed width (right / 16) ↔
            left / 16 = right / 16 :=
        ⟨fixed_inj leftShorter rightShorter, congrArg (fixed width)⟩
      have last :
          [digit (left % 16)] < [digit (right % 16)] ↔
            left % 16 < right % 16 := by
        rw [← digit_lt_digit (Nat.mod_lt _ (by decide))
          (Nat.mod_lt _ (by decide)), List.cons_lt_cons_iff]
        simp
      rw [fixed_succ_last, fixed_succ_last,
        append_lt_append_iff (by rw [length_fixed, length_fixed]),
        ih leftShorter rightShorter, sameFront, last]
      omega

/-! ## Any width -/

theorem lt_pow_length_string (value : Nat) :
    value < 16 ^ (string value).length := by
  induction value using Nat.strongRecOn with
  | ind value ih =>
      rcases Nat.lt_or_ge value 16 with small | large
      · rw [string_of_lt small]
        simpa using small
      · have shorter := ih (value / 16)
          (Nat.div_lt_self (by omega) (by decide))
        rw [string_of_le large, List.length_append, List.length_singleton,
          Nat.pow_succ]
        omega

/-- A padded number has a fixed width, which may be more than it is padded to. -/
theorem exists_fixed_padded (width value : Nat) :
    ∃ digits, value < 16 ^ digits ∧ padded width value = fixed digits value := by
  have fits := lt_pow_length_string value
  rcases Nat.lt_or_ge (string value).length width with inside | beyond
  · obtain ⟨room, rfl⟩ : ∃ room, width = room + 1 := ⟨width - 1, by omega⟩
    have more := Nat.lt_of_lt_of_le fits
      (Nat.pow_le_pow_right (by decide) (Nat.le_of_lt inside))
    exact ⟨room + 1, more, padded_eq_fixed more⟩
  · refine ⟨_, fits, ?_⟩
    have whole : padded width value = padded (string value).length value := by
      rw [padded, padded, Nat.sub_eq_zero_of_le beyond, Nat.sub_self]
    cases digits : (string value).length with
    | zero =>
        rw [digits] at beyond
        rw [List.length_eq_zero_iff] at digits
        simp [padded, digits, fixed, Nat.le_zero.mp beyond]
    | succ room =>
        rw [digits] at fits whole
        rw [whole, padded_eq_fixed fits]

theorem padded_injective {width left right : Nat}
    (same : padded width left = padded width right) : left = right := by
  obtain ⟨digits, leftFits, leftFixed⟩ := exists_fixed_padded width left
  obtain ⟨others, rightFits, rightFixed⟩ := exists_fixed_padded width right
  have lengths := congrArg List.length same
  rw [leftFixed, rightFixed, length_fixed, length_fixed] at lengths
  subst lengths
  rw [leftFixed, rightFixed] at same
  exact fixed_inj leftFits rightFits same

end Hex
