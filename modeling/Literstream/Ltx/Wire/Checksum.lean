import Literstream.Ltx.Wire.Format

/-!
# The running checksum

The lookup table and the loop over it, the CRC64 as it is defined on the bits
of a message, and what the hasher makes of a string that comes in pieces.
-/

namespace Literstream

namespace Wire

/-- The entry of a byte is what eight shifts leave of it. -/
def buildTable : Vector (BitVec 64) 256 :=
  Vector.ofFn fun i => Crc.bits polyReflected 8 (BitVec.ofNat 64 i)

/-- The low byte of the register, as an index into the table. -/
def lowByte (crc : BitVec 64) : Fin 256 :=
  ⟨(crc &&& 0xff#64).toNat, by
    rw [BitVec.toNat_and]
    exact Nat.lt_of_le_of_lt Nat.and_le_right (by decide)⟩

/-- One byte of the loop of `update`. -/
def tableStep (crc : BitVec 64) (b : UInt8) : BitVec 64 :=
  buildTable[lowByte (crc ^^^ b.toBitVec.setWidth 64)] ^^^ (crc >>> 8)

/-- The CRC64 of the bits of a string, the lowest bit of a byte first: the
register starts with all ones and is inverted at the end. -/
def bitwiseCrc64 (data : Bytes) : UInt64 :=
  UInt64.ofBitVec
    (Crc.stream polyReflected (BitVec.allOnes 64) (Crc.message data) ^^^
      BitVec.allOnes 64)

/-- Change one bit of a byte. -/
def flipBit (place : Fin 8) (byte : UInt8) : UInt8 :=
  byte ^^^ (1 <<< UInt8.ofNat place)

theorem flipBit_ne (place : Fin 8) (byte : UInt8) :
    flipBit place byte ≠ byte := by
  have set : ∀ place : Fin 8, (1 : UInt8) <<< UInt8.ofNat place ≠ 0 := by
    decide
  intro same
  apply set place
  apply (UInt8.xor_right_inj byte).mp
  rw [UInt8.xor_zero]
  exact same

theorem getElem_buildTable (i : Fin 256) :
    buildTable[i] = Crc.entry polyReflected (BitVec.ofNat 64 i) := by
  unfold buildTable
  rw [Fin.getElem_fin, Vector.getElem_ofFn]
  rfl

theorem ofNat_lowByte (crc : BitVec 64) :
    BitVec.ofNat 64 (lowByte crc) = crc &&& Crc.lowByte := by
  change BitVec.ofNat 64 (crc &&& 0xff#64).toNat = crc &&& 0xff#64
  rw [BitVec.ofNat_toNat, BitVec.setWidth_eq]

theorem tableStep_eq_tableByte (crc : BitVec 64) (b : UInt8) :
    tableStep crc b = Crc.tableByte polyReflected crc b := by
  rw [tableStep, getElem_buildTable, ofNat_lowByte, Crc.tableByte]

namespace Hasher

/-- The hasher runs the loop of the source over its table. -/
theorem update_eq_foldl (hasher : Hasher) (data : Bytes) :
    hasher.update data = ⟨data.foldl tableStep hasher.crc⟩ := by
  have step : tableStep = Crc.tableByte polyReflected := by
    funext crc b
    exact tableStep_eq_tableByte crc b
  rw [step]
  rfl

theorem sum64_inj {left right : Hasher} :
    left.sum64 = right.sum64 ↔ left.crc = right.crc := by
  constructor
  · intro same
    exact (BitVec.xor_left_inj _).mp (congrArg UInt64.toBitVec same)
  · intro same
    rw [sum64, sum64, same]

/-- Where a string is cut does not matter. -/
theorem foldl_update (hasher : Hasher) (chunks : List Bytes) :
    chunks.foldl update hasher = hasher.update chunks.flatten := by
  induction chunks generalizing hasher with
  | nil => rfl
  | cons chunk chunks ih =>
      rw [List.foldl_cons, ih, update_append, List.flatten_cons]

theorem sum64_update_new (data : Bytes) :
    (new.update data).sum64 = bitwiseCrc64 data := by
  unfold sum64 update new bitwiseCrc64
  rw [Crc.tableRun_eq_run, Crc.stream_message (by decide)]

/-- From any register, a flipped bit shows in the sum. -/
theorem sum64_flipBit_ne (hasher : Hasher) (data : Bytes)
    (index : Fin data.length) (place : Fin 8) :
    (hasher.update (data.modify index (flipBit place))).sum64 ≠
      (hasher.update data).sum64 := by
  intro same
  have registers := sum64_inj.mp same
  unfold update at registers
  rw [Crc.tableRun_eq_run, Crc.tableRun_eq_run] at registers
  exact Crc.run_modify_ne (by decide) (by decide) (flipBit_ne place) hasher.crc
    index.isLt registers

theorem sum64_of_chunks (data : Bytes) :
    (∀ (hasher : Hasher) (chunk : Bytes),
      hasher.update chunk = ⟨chunk.foldl tableStep hasher.crc⟩) ∧
    (∀ chunks : List Bytes, chunks.flatten = data →
      (chunks.foldl update new).sum64 = bitwiseCrc64 data) ∧
    ∀ (index : Fin data.length) (place : Fin 8) (chunks flipped : List Bytes),
      chunks.flatten = data →
      flipped.flatten = data.modify index (flipBit place) →
      (flipped.foldl update new).sum64 ≠ (chunks.foldl update new).sum64 := by
  constructor
  · exact update_eq_foldl
  constructor
  · intro chunks pieces
    rw [foldl_update, pieces, sum64_update_new]
  · intro index place chunks flipped pieces changed
    rw [foldl_update, foldl_update, pieces, changed]
    exact sum64_flipBit_ne new data index place

theorem sum64_of_two_chunks :
    ([[1], [2]].foldl update new).sum64 = bitwiseCrc64 [1, 2] ∧
      ([[1, 6]].foldl update new).sum64 ≠
        ([[1], [2]].foldl update new).sum64 :=
  ⟨(sum64_of_chunks [1, 2]).2.1 [[1], [2]] rfl,
    (sum64_of_chunks [1, 2]).2.2 ⟨1, by decide⟩ 2 [[1], [2]] [[1, 6]] rfl
      (by decide)⟩

end Hasher

end Wire

end Literstream
