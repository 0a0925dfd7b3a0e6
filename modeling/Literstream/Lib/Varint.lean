import Mathlib.Data.Nat.Bitwise
import Mathlib.Tactic.Ring

/-!
# Variable-length numbers

A 64-bit number in groups of seven bits, the lowest group first; every byte but
the last has its high bit set.
-/

namespace Varint

/-- At most `groups` bytes with the high bit set, then the last byte.  Ten
bytes hold every 64-bit number. -/
def encodeGroups : Nat → UInt64 → List UInt8
  | 0, number => [number.toUInt8]
  | groups + 1, number =>
      if number < 0x80 then [number.toUInt8]
      else (number.toUInt8 ||| 0x80) :: encodeGroups groups (number >>> 7)

def encode (number : UInt64) : List UInt8 := encodeGroups 9 number

/-- Read on with the groups so far in `number`.  A shift of 64 and more is
taken modulo 64, as the machine does it. -/
def decodeFrom (number : UInt64) (shift : UInt32) :
    List UInt8 → Option (UInt64 × List UInt8)
  | [] => none
  | byte :: rest =>
      if byte < 0x80 then
        some (number ||| byte.toUInt64 <<< shift.toUInt64, rest)
      else
        decodeFrom (number ||| (byte &&& 0x7f).toUInt64 <<< shift.toUInt64)
          (shift + 7) rest

def decode (string : List UInt8) : Option (UInt64 × List UInt8) :=
  decodeFrom 0 0 string

/-- Reading takes at least one byte. -/
theorem decodeFrom_shorter {string rest : List UInt8} {number value : UInt64}
    {shift : UInt32}
    (decoded : decodeFrom number shift string = some (value, rest)) :
    rest.length < string.length := by
  induction string generalizing number shift with
  | nil => cases decoded
  | cons byte tail ih =>
      rw [decodeFrom] at decoded
      split at decoded
      · cases decoded
        exact Nat.lt_succ_self _
      · exact Nat.lt_succ_of_lt (ih decoded)

theorem decode_shorter {string rest : List UInt8} {value : UInt64}
    (decoded : decode string = some (value, rest)) :
    rest.length < string.length :=
  decodeFrom_shorter decoded

/-- The shifts that a read performs. -/
def shifts (shift : UInt32) : List UInt8 → List UInt32
  | [] => []
  | byte :: rest =>
      shift :: if byte < 0x80 then [] else shifts (shift + 7) rest

/-- The number of bytes that a read looks at. -/
def width : List UInt8 → Nat
  | [] => 0
  | byte :: rest => if byte < 0x80 then 1 else width rest + 1

theorem shifts_lt_of_width {string : List UInt8} {shift : UInt32}
    {groups : Nat} (placed : shift.toNat = 7 * groups)
    (short : groups + width string ≤ 10) :
    ∀ performed ∈ shifts shift string, performed < 64 := by
  induction string generalizing shift groups with
  | nil => simp [shifts]
  | cons byte rest ih =>
      have small : shift < 64 := by
        rw [UInt32.lt_iff_toNat_lt, placed]
        change 7 * groups < 64
        rw [width] at short
        split at short
        · omega
        · omega
      intro performed member
      rw [shifts] at member
      rcases List.mem_cons.mp member with rfl | later
      · exact small
      · split at later
        case isTrue last => cases later
        case isFalse more =>
            rw [width, if_neg more] at short
            apply ih _ (by omega : groups + 1 + width rest ≤ 10) performed later
            rw [UInt32.toNat_add, placed]
            change (7 * groups + 7) % 4294967296 = 7 * (groups + 1)
            omega

theorem width_le_of_shifts {string : List UInt8} {shift : UInt32}
    {groups : Nat} (placed : shift.toNat = 7 * groups) (begun : groups ≤ 10)
    (small : ∀ performed ∈ shifts shift string, performed < 64) :
    groups + width string ≤ 10 := by
  induction string generalizing shift groups with
  | nil => exact begun
  | cons byte rest ih =>
      have first : shift < 64 := small shift (by simp [shifts])
      rw [UInt32.lt_iff_toNat_lt, placed] at first
      replace first : 7 * groups < 64 := first
      rw [width]
      split
      case isTrue last => omega
      case isFalse more =>
          have next : groups + 1 + width rest ≤ 10 := by
            apply @ih (shift + 7) (groups + 1) _ (by omega)
            · intro performed later
              exact small performed (by simp [shifts, more, later])
            · rw [UInt32.toNat_add, placed]
              change (7 * groups + 7) % 4294967296 = 7 * (groups + 1)
              omega
          omega

/-- A read of at most ten bytes never shifts by 64 or more, and only such a
read does not. -/
theorem shifts_lt_iff (string : List UInt8) :
    (∀ performed ∈ shifts 0 string, performed < 64) ↔ width string ≤ 10 := by
  constructor
  · intro small
    simpa using @width_le_of_shifts string 0 0 rfl (Nat.zero_le _) small
  · intro short
    exact @shifts_lt_of_width string 0 0 rfl (by omega)

/-- The byte of a group that is not the last. -/
theorem toNat_continued (number : UInt64) :
    (number.toUInt8 ||| 0x80).toNat = number.toNat % 128 + 128 := by
  have high : (number.toNat % 256 ||| 128) / 2 ^ 7 = 1 := by
    have bit :
        number.toNat % 256 / 2 ^ 7 = 0 ∨ number.toNat % 256 / 2 ^ 7 = 1 := by
      omega
    rw [Nat.or_div_two_pow]
    rcases bit with clear | set
    · rw [clear]
      rfl
    · rw [set]
      rfl
  have low : (number.toNat % 256 ||| 128) % 2 ^ 7 = number.toNat % 128 := by
    rw [Nat.or_mod_two_pow, Nat.mod_mod_of_dvd _ (by decide)]
    exact Nat.or_zero _
  have whole := Nat.div_add_mod (number.toNat % 256 ||| 128) (2 ^ 7)
  rw [high, low] at whole
  rw [UInt8.toNat_or, UInt64.toNat_toUInt8]
  exact whole.symm.trans (Nat.add_comm _ _)

theorem toNat_group (number : UInt64) :
    ((number.toUInt8 ||| 0x80) &&& 0x7f).toNat = number.toNat % 128 := by
  have masked :=
    Nat.and_two_pow_sub_one_eq_mod (number.toUInt8 ||| 0x80).toNat 7
  rw [toNat_continued] at masked
  rw [UInt8.toNat_and, toNat_continued]
  refine masked.trans ?_
  omega

/-- A group is set above the bits that are there already. -/
theorem toNat_or_shift {number : UInt64} {group : UInt8} {shift : UInt32}
    (small : shift.toNat < 64)
    (below : number.toNat < 2 ^ shift.toNat)
    (fits : group.toNat * 2 ^ shift.toNat < 2 ^ 64) :
    (number ||| group.toUInt64 <<< shift.toUInt64).toNat =
      number.toNat + group.toNat * 2 ^ shift.toNat := by
  have placed :
      (group.toUInt64 <<< shift.toUInt64).toNat =
        2 ^ shift.toNat * group.toNat := by
    rw [UInt64.toNat_shiftLeft, UInt8.toNat_toUInt64, UInt32.toNat_toUInt64,
      Nat.mod_eq_of_lt small, Nat.shiftLeft_eq, Nat.mod_eq_of_lt fits,
      Nat.mul_comm]
  rw [UInt64.toNat_or, placed, Nat.or_comm,
    ← Nat.two_pow_add_eq_or_of_lt below, Nat.add_comm, Nat.mul_comm]

theorem decodeFrom_last {value number : UInt64} {shift : UInt32}
    (rest : List UInt8)
    (last : value.toNat < 128)
    (small : shift.toNat < 64)
    (below : number.toNat < 2 ^ shift.toNat)
    (fits : value.toNat * 2 ^ shift.toNat < 2 ^ 64) :
    decodeFrom number shift ([value.toUInt8] ++ rest) =
      some (UInt64.ofNat (number.toNat + value.toNat * 2 ^ shift.toNat),
        rest) := by
  have group : value.toUInt8.toNat = value.toNat := by
    rw [UInt64.toNat_toUInt8]
    omega
  have ends : value.toUInt8 < 0x80 := by
    rw [UInt8.lt_iff_toNat_lt, group]
    exact last
  have set := toNat_or_shift small below (by rwa [group])
  rw [group] at set
  rw [List.cons_append, List.nil_append, decodeFrom, if_pos ends, ← set,
    UInt64.ofNat_toNat]

/-- The invariant of reading what was written: `number` holds the groups below
`shift`, and what is left of the value still fits above it. -/
theorem decodeFrom_encodeGroups {groups : Nat} {value number : UInt64}
    {shift : UInt32} (rest : List UInt8)
    (left : shift.toNat + 7 * groups = 63)
    (below : number.toNat < 2 ^ shift.toNat)
    (fits : value.toNat * 2 ^ shift.toNat < 2 ^ 64) :
    decodeFrom number shift (encodeGroups groups value ++ rest) =
      some (UInt64.ofNat (number.toNat + value.toNat * 2 ^ shift.toNat),
        rest) := by
  induction groups generalizing value number shift with
  | zero =>
      have one : value.toNat < 128 := by
        rw [show shift.toNat = 63 by omega] at fits
        omega
      exact decodeFrom_last rest one (by omega) below fits
  | succ groups ih =>
      rw [encodeGroups]
      split
      case isTrue last =>
          have small := UInt64.lt_iff_toNat_lt.mp last
          exact decodeFrom_last rest small (by omega) below fits
      case isFalse more =>
          have continues : ¬(value.toUInt8 ||| 0x80) < 0x80 := by
            rw [UInt8.lt_iff_toNat_lt, toNat_continued]
            exact Nat.not_lt.mpr (Nat.le_add_left 128 _)
          have shifted : (shift + 7).toNat = shift.toNat + 7 := by
            rw [UInt32.toNat_add]
            exact Nat.mod_eq_of_lt
              (by change shift.toNat + 7 < 4294967296; omega)
          have higher : (value >>> 7).toNat = value.toNat / 128 := by
            rw [UInt64.toNat_shiftRight]
            exact Nat.shiftRight_eq_div_pow _ 7
          have power : 2 ^ (shift.toNat + 7) = 2 ^ shift.toNat * 128 :=
            Nat.pow_add 2 shift.toNat 7
          have parts :
              value.toNat % 128 * 2 ^ shift.toNat +
                  value.toNat / 128 * (2 ^ shift.toNat * 128) =
                value.toNat * 2 ^ shift.toNat := by
            calc
              _ = (128 * (value.toNat / 128) + value.toNat % 128) *
                    2 ^ shift.toNat := by ring
              _ = value.toNat * 2 ^ shift.toNat := by rw [Nat.div_add_mod]
          have set :=
            @toNat_or_shift number ((value.toUInt8 ||| 0x80) &&& 0x7f) shift
              (by omega) below (by rw [toNat_group]; omega)
          rw [toNat_group] at set
          have groupBelow :
              value.toNat % 128 * 2 ^ shift.toNat ≤ 127 * 2 ^ shift.toNat :=
            Nat.mul_le_mul_right _ (by omega)
          rw [List.cons_append, decodeFrom, if_neg continues,
            ih (by omega) (by rw [set, shifted, power]; omega)
              (by rw [higher, shifted, power]; omega),
            set, higher, shifted, power, Nat.add_assoc, parts]

theorem decode_encode (value : UInt64) (rest : List UInt8) :
    decode (encode value ++ rest) = some (value, rest) := by
  have decoded :=
    @decodeFrom_encodeGroups 9 value 0 0 rest rfl (by decide)
      (by simpa using value.toNat_lt)
  simpa [decode, encode] using decoded

end Varint
