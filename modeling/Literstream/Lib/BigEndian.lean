import Mathlib.Data.List.Basic
import Mathlib.Tactic.Ring

/-!
# Big-endian numbers

Fixed-width numbers with the most significant byte first, and fields of such
numbers read at an offset of a longer string.
-/

namespace BigEndian

/-- The lowest `count` bytes of a number, the highest of them first. -/
def bytes : Nat → Nat → List UInt8
  | 0, _ => []
  | count + 1, value => UInt8.ofNat (value / 256 ^ count) :: bytes count value

/-- The number that a string of bytes spells. -/
def value (string : List UInt8) : Nat :=
  string.foldl (fun high byte => high * 256 + byte.toNat) 0

/-- The field of `count` bytes at an offset. -/
def at_ (count : Nat) (string : List UInt8) (offset : Nat) : Nat :=
  value ((string.drop offset).take count)

@[simp] theorem length_bytes (count number : Nat) :
    (bytes count number).length = count := by
  induction count with
  | zero => rfl
  | succ count ih => rw [bytes, List.length_cons, ih]

theorem foldl_bytes (count number high : Nat) :
    (bytes count number).foldl
        (fun high byte => high * 256 + byte.toNat) high =
      high * 256 ^ count + number % 256 ^ count := by
  induction count generalizing high with
  | zero => simp [bytes, Nat.mod_one]
  | succ count ih =>
      have digit :
          (UInt8.ofNat (number / 256 ^ count)).toNat =
            number / 256 ^ count % 256 := by
        simp
      have split :
          number % 256 ^ (count + 1) =
            number % 256 ^ count +
              256 ^ count * (number / 256 ^ count % 256) := by
        rw [Nat.pow_succ, Nat.mod_mul]
      rw [bytes, List.foldl_cons, ih, digit, split, Nat.pow_succ]
      ring

@[simp] theorem value_bytes (count number : Nat) :
    value (bytes count number) = number % 256 ^ count := by
  rw [value, foldl_bytes]
  simp

/-- A field behind a longer start of the string. -/
theorem at_append {count offset : Nat} {start rest : List UInt8}
    (behind : start.length ≤ offset) :
    at_ count (start ++ rest) offset =
      at_ count rest (offset - start.length) := by
  rw [at_, at_, List.drop_append, List.drop_eq_nil_of_le behind,
    List.nil_append]

/-- A field inside the start of a longer string. -/
theorem at_append_left {count offset : Nat} {start : List UInt8}
    (rest : List UInt8) (inside : offset + count ≤ start.length) :
    at_ count (start ++ rest) offset = at_ count start offset := by
  rw [at_, at_, List.drop_append_of_le_length (by omega),
    List.take_append_of_le_length (by rw [List.length_drop]; omega)]

/-- A field inside the part of a string that is kept. -/
theorem at_take {count offset length : Nat} (string : List UInt8)
    (inside : offset + count ≤ length) :
    at_ count (string.take length) offset = at_ count string offset := by
  rw [at_, at_, List.drop_take, List.take_take, Nat.min_eq_left (by omega)]

@[simp] theorem at_bytes_zero (count number : Nat) (rest : List UInt8) :
    at_ count (bytes count number ++ rest) 0 = number % 256 ^ count := by
  have whole :
      (bytes count number ++ rest).take count = bytes count number := by
    exact List.take_left' (length_bytes count number)
  rw [at_, List.drop_zero, whole, value_bytes]

end BigEndian
