import Mathlib.Data.List.Basic

/-!
# Cyclic redundancy checks

A reflected check of any width, one bit at a time, and the same check one byte
at a time from a table.  One bit is linear in exclusive or, and a remainder
whose low bits are clear only moves down.  A polynomial with its top bit keeps
remainders apart, so no single byte changes unnoticed.
-/

namespace Crc

variable {width : Nat}

/-- Shift one bit out; a set bit subtracts the polynomial. -/
def bit (polynomial remainder : BitVec width) : BitVec width :=
  if remainder.getLsbD 0 then (remainder >>> 1) ^^^ polynomial
  else remainder >>> 1

def bits (polynomial : BitVec width) : Nat → BitVec width → BitVec width
  | 0, remainder => remainder
  | count + 1, remainder => bit polynomial (bits polynomial count remainder)

/-- Eight bits of input. -/
def byte (polynomial remainder : BitVec width) (input : UInt8) : BitVec width :=
  bits polynomial 8 (remainder ^^^ input.toBitVec.setWidth width)

def run (polynomial remainder : BitVec width) (input : List UInt8) :
    BitVec width :=
  input.foldl (byte polynomial) remainder

/-- The mask of the lowest byte. -/
def lowByte : BitVec width := BitVec.ofNat width 0xff

/-- The table entry of a byte, and the step that looks it up. -/
def entry (polynomial index : BitVec width) : BitVec width :=
  bits polynomial 8 index

def tableByte (polynomial remainder : BitVec width) (input : UInt8) :
    BitVec width :=
  entry polynomial
      ((remainder ^^^ input.toBitVec.setWidth width) &&& lowByte) ^^^
    (remainder >>> 8)

def tableRun (polynomial remainder : BitVec width) (input : List UInt8) :
    BitVec width :=
  input.foldl (tableByte polynomial) remainder

/-! ## One bit of the message at a time -/

/-- Shift one bit of the message in. -/
def feed (polynomial remainder : BitVec width) (input : Bool) : BitVec width :=
  if remainder.getLsbD 0 ^^ input then (remainder >>> 1) ^^^ polynomial
  else remainder >>> 1

def stream (polynomial remainder : BitVec width) (message : List Bool) :
    BitVec width :=
  message.foldl (feed polynomial) remainder

/-- The bits of a byte, the lowest first. -/
def byteBits (input : UInt8) : List Bool :=
  (List.range 8).map input.toBitVec.getLsbD

def message (input : List UInt8) : List Bool := input.flatMap byteBits

/-! ## The table and the eight bits -/

theorem run_append (polynomial remainder : BitVec width)
    (front back : List UInt8) :
    run polynomial remainder (front ++ back) =
      run polynomial (run polynomial remainder front) back :=
  List.foldl_append

theorem bit_xor (polynomial left right : BitVec width) :
    bit polynomial (left ^^^ right) =
      bit polynomial left ^^^ bit polynomial right := by
  have cancel (a b : BitVec width) :
      a ^^^ polynomial ^^^ (b ^^^ polynomial) = a ^^^ b := by
    rw [BitVec.xor_assoc, BitVec.xor_comm b, ← BitVec.xor_assoc polynomial,
      BitVec.xor_self, BitVec.zero_xor]
  unfold bit
  rw [BitVec.getLsbD_xor, BitVec.ushiftRight_xor_distrib]
  cases left.getLsbD 0 <;> cases right.getLsbD 0
  case false.false => rfl
  case false.true => exact BitVec.xor_assoc _ _ _
  case true.false =>
      exact (BitVec.xor_assoc _ _ _).trans
        ((congrArg _ (BitVec.xor_comm _ _)).trans (BitVec.xor_assoc _ _ _).symm)
  case true.true => exact (cancel _ _).symm

theorem bits_xor (polynomial : BitVec width) (count : Nat)
    (left right : BitVec width) :
    bits polynomial count (left ^^^ right) =
      bits polynomial count left ^^^ bits polynomial count right := by
  induction count with
  | zero => rfl
  | succ count ih => rw [bits, bits, bits, ih, bit_xor]

/-- Clear low bits leave the remainder without a subtraction. -/
theorem bits_of_clear {polynomial remainder : BitVec width} {count : Nat}
    (clear : ∀ index < count, remainder.getLsbD index = false) :
    bits polynomial count remainder = remainder >>> count := by
  induction count with
  | zero => rw [bits, BitVec.ushiftRight_zero]
  | succ count ih =>
      have lowest : (remainder >>> count).getLsbD 0 = false := by
        rw [BitVec.getLsbD_ushiftRight]
        exact clear count (Nat.lt_succ_self count)
      rw [bits, ih fun index inside => clear index (Nat.lt_succ_of_lt inside),
        bit, lowest, if_neg (by decide), ← BitVec.shiftRight_add]

theorem getLsbD_lowByte (index : Nat) :
    (@lowByte width).getLsbD index = decide (index < width ∧ index < 8) := by
  have mask : (0xff : Nat).testBit index = decide (index < 8) :=
    @Nat.testBit_two_pow_sub_one 8 index
  rw [lowByte, BitVec.getLsbD_ofNat, mask, Bool.decide_and]

/-- The byte of the table is the low byte of the remainder, and the rest only
moves down. -/
theorem bits_eight (polynomial remainder : BitVec width) :
    bits polynomial 8 remainder =
      bits polynomial 8 (remainder &&& lowByte) ^^^ (remainder >>> 8) := by
  have split :
      remainder = (remainder &&& lowByte) ^^^ (remainder &&& ~~~lowByte) := by
    apply BitVec.eq_of_getLsbD_eq
    intro index inside
    rw [BitVec.getLsbD_xor, BitVec.getLsbD_and, BitVec.getLsbD_and,
      BitVec.getLsbD_not]
    cases remainder.getLsbD index <;> cases (@lowByte width).getLsbD index <;>
      simp [inside]
  have clear :
      ∀ index < 8, (remainder &&& ~~~lowByte).getLsbD index = false := by
    intro index inside
    rw [BitVec.getLsbD_and, BitVec.getLsbD_not, getLsbD_lowByte]
    simp [inside]
  have moved : (remainder &&& ~~~lowByte) >>> 8 = remainder >>> 8 := by
    apply BitVec.eq_of_getLsbD_eq
    intro index _
    rw [BitVec.getLsbD_ushiftRight, BitVec.getLsbD_ushiftRight,
      BitVec.getLsbD_and, BitVec.getLsbD_not, getLsbD_lowByte]
    by_cases inside : 8 + index < width
    · simp [inside]
    · have outside := Nat.le_of_not_lt inside
      simp [BitVec.getLsbD_of_ge remainder (8 + index) outside]
  conv => lhs; rw [split]
  rw [bits_xor, bits_of_clear clear, moved]

theorem setWidth_ushiftRight_eight (input : UInt8) :
    (input.toBitVec.setWidth width) >>> 8 = BitVec.ofNat width 0 := by
  apply BitVec.eq_of_getLsbD_eq
  intro index _
  rw [BitVec.getLsbD_ushiftRight, BitVec.getLsbD_setWidth,
    BitVec.getLsbD_of_ge _ _ (Nat.le_add_right 8 index)]
  simp

/-- The table steps like the eight bits. -/
theorem tableByte_eq_byte (polynomial remainder : BitVec width)
    (input : UInt8) :
    tableByte polynomial remainder input = byte polynomial remainder input := by
  rw [byte, bits_eight, tableByte, entry, BitVec.ushiftRight_xor_distrib,
    setWidth_ushiftRight_eight, BitVec.xor_zero]

theorem tableRun_eq_run (polynomial remainder : BitVec width)
    (input : List UInt8) :
    tableRun polynomial remainder input = run polynomial remainder input := by
  induction input generalizing remainder with
  | nil => rfl
  | cons head tail ih =>
      rw [tableRun, List.foldl_cons, tableByte_eq_byte]
      exact ih _

/-! ## The eight bits and the message -/

/-- The bits that wait in the remainder can come in one by one instead. -/
theorem bit_xor_eq_feed (polynomial remainder value : BitVec width) :
    bit polynomial (remainder ^^^ value) =
      feed polynomial remainder (value.getLsbD 0) ^^^ (value >>> 1) := by
  unfold bit feed
  rw [BitVec.getLsbD_xor, BitVec.ushiftRight_xor_distrib]
  cases remainder.getLsbD 0 ^^ value.getLsbD 0 with
  | false => rfl
  | true =>
      rw [if_pos rfl, if_pos rfl, BitVec.xor_assoc, BitVec.xor_assoc,
        BitVec.xor_comm polynomial]

theorem bits_xor_eq_stream (polynomial remainder value : BitVec width)
    (count : Nat) :
    bits polynomial count (remainder ^^^ value) =
      stream polynomial remainder ((List.range count).map value.getLsbD) ^^^
        (value >>> count) := by
  induction count with
  | zero => rw [bits, BitVec.ushiftRight_zero]; rfl
  | succ count ih =>
      have lowest : (value >>> count).getLsbD 0 = value.getLsbD count := by
        rw [BitVec.getLsbD_ushiftRight, Nat.add_zero]
      have later :
          stream polynomial remainder
              ((List.range (count + 1)).map value.getLsbD) =
            feed polynomial
              (stream polynomial remainder
                ((List.range count).map value.getLsbD))
              (value.getLsbD count) := by
        rw [List.range_succ, List.map_append, stream, List.foldl_append]
        rfl
      rw [bits, ih, bit_xor_eq_feed, lowest, later, ← BitVec.shiftRight_add]

theorem stream_byteBits (wide : 8 ≤ width)
    (polynomial remainder : BitVec width) (input : UInt8) :
    stream polynomial remainder (byteBits input) =
      byte polynomial remainder input := by
  have same :
      (List.range 8).map (input.toBitVec.setWidth width).getLsbD =
        byteBits input := by
    apply List.map_congr_left
    intro index member
    have inside : index < width :=
      Nat.lt_of_lt_of_le (List.mem_range.mp member) wide
    rw [BitVec.getLsbD_setWidth, decide_eq_true inside, Bool.true_and]
  rw [byte, bits_xor_eq_stream, same, setWidth_ushiftRight_eight,
    BitVec.xor_zero]

theorem stream_message (wide : 8 ≤ width)
    (polynomial remainder : BitVec width) (input : List UInt8) :
    stream polynomial remainder (message input) =
      run polynomial remainder input := by
  induction input generalizing remainder with
  | nil => rfl
  | cons head tail ih =>
      rw [message, List.flatMap_cons, stream, List.foldl_append]
      change stream polynomial (stream polynomial remainder (byteBits head))
        (message tail) = _
      rw [stream_byteBits wide, ih]
      rfl

/-! ## Remainders stay apart -/

section Apart

variable {polynomial : BitVec width}

/-- The bit that is shifted out can be read off the top. -/
theorem getLsbD_bit_top (top : polynomial.getLsbD (width - 1) = true)
    (remainder : BitVec width) :
    (bit polynomial remainder).getLsbD (width - 1) = remainder.getLsbD 0 := by
  have positive : 0 < width := by
    cases width with
    | zero => simp at top
    | succ width => exact Nat.succ_pos width
  have shifted : (remainder >>> 1).getLsbD (width - 1) = false := by
    rw [BitVec.getLsbD_ushiftRight]
    exact BitVec.getLsbD_of_ge remainder _ (by omega)
  unfold bit
  cases remainder.getLsbD 0 with
  | false => exact shifted
  | true =>
      rw [if_pos rfl, BitVec.getLsbD_xor, shifted, top]
      rfl

theorem bit_injective (top : polynomial.getLsbD (width - 1) = true) :
    Function.Injective (bit polynomial) := by
  intro left right equal
  have lowest : left.getLsbD 0 = right.getLsbD 0 := by
    rw [← getLsbD_bit_top top left, equal, getLsbD_bit_top top right]
  have moved : left >>> 1 = right >>> 1 := by
    unfold bit at equal
    rw [lowest] at equal
    cases lowBit : right.getLsbD 0 with
    | false => simpa [lowBit] using equal
    | true =>
        rw [lowBit, if_pos rfl, if_pos rfl] at equal
        exact (BitVec.xor_left_inj _).mp equal
  apply BitVec.eq_of_getLsbD_eq
  intro index _
  cases index with
  | zero => exact lowest
  | succ index =>
      have same := congrArg (fun value => value.getLsbD index) moved
      simpa [BitVec.getLsbD_ushiftRight, Nat.add_comm] using same

theorem bits_injective (top : polynomial.getLsbD (width - 1) = true)
    (count : Nat) : Function.Injective (bits polynomial count) := by
  induction count with
  | zero => exact Function.injective_id
  | succ count ih => exact (bit_injective top).comp ih

theorem run_injective (top : polynomial.getLsbD (width - 1) = true)
    (input : List UInt8) :
    Function.Injective fun remainder => run polynomial remainder input := by
  induction input with
  | nil => exact Function.injective_id
  | cons head tail ih =>
      intro left right equal
      have stepped :
          byte polynomial left head = byte polynomial right head := ih equal
      exact (BitVec.xor_left_inj _).mp (bits_injective top 8 stepped)

/-- Another byte leaves another remainder. -/
theorem byte_injective (top : polynomial.getLsbD (width - 1) = true)
    (wide : 8 ≤ width) (remainder : BitVec width) :
    Function.Injective (byte polynomial remainder) := by
  intro left right equal
  have widened :
      left.toBitVec.setWidth width = right.toBitVec.setWidth width :=
    (BitVec.xor_right_inj _).mp (bits_injective top 8 equal)
  have narrowed := congrArg (BitVec.setWidth 8) widened
  rw [BitVec.setWidth_setWidth_of_le _ wide,
    BitVec.setWidth_setWidth_of_le _ wide, BitVec.setWidth_eq,
    BitVec.setWidth_eq] at narrowed
  exact UInt8.toBitVec_inj.mp narrowed

/-- A single changed byte, wherever it is, shows in the remainder. -/
theorem run_modify_ne (top : polynomial.getLsbD (width - 1) = true)
    (wide : 8 ≤ width) {change : UInt8 → UInt8}
    (changes : ∀ input, change input ≠ input) (remainder : BitVec width)
    {input : List UInt8} {index : Nat} (inside : index < input.length) :
    run polynomial remainder (input.modify index change) ≠
      run polynomial remainder input := by
  induction input generalizing remainder index with
  | nil => exact absurd inside (Nat.not_lt_zero index)
  | cons head tail ih =>
      cases index with
      | zero =>
          intro equal
          have stepped :
              byte polynomial remainder (change head) =
                byte polynomial remainder head :=
            run_injective top tail equal
          exact changes head (byte_injective top wide remainder stepped)
      | succ index =>
          exact ih (byte polynomial remainder head)
            (Nat.lt_of_succ_lt_succ inside)

end Apart

end Crc
