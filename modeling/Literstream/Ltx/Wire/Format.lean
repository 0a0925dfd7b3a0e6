import Literstream.Lib.BigEndian
import Literstream.Lib.Crc
import Literstream.Lib.Varint
import Literstream.Ltx.Format

/-!
# The bytes of the LTX frames

The header, the page header and the trailer with the machine words that the
file holds, in big-endian order, and the running CRC64 of a file.
-/

namespace Literstream

namespace Wire

/-- Errors met on the bytes of a file.  A slice out of bounds or a difference
below zero is a `panic`. -/
inductive WireError where
  | ltx (error : LtxError)
  | invalidMagic (magic : Bytes)
  | lz4
  | fileChecksumMismatch (expected actual : UInt64)
  | postApplyChecksumMismatch (expected actual : UInt64)
  | notASnapshot
  | panic
deriving DecidableEq, Repr

abbrev Checksum := UInt64

/-! ## The checksum -/

/-- The high bit of every checksum. -/
def checksumFlag : UInt64 := 0x8000000000000000

/-- The reflected ISO 3309 polynomial. -/
def polyReflected : BitVec 64 := 0xD800000000000000#64

/-- The running CRC64: all ones at the start and once more at the end. -/
structure Hasher where
  crc : BitVec 64
deriving DecidableEq, Repr

namespace Hasher

def new : Hasher := ⟨BitVec.allOnes 64⟩

/-- Feed bytes through the table of the polynomial. -/
def update (hasher : Hasher) (data : Bytes) : Hasher :=
  ⟨Crc.tableRun polyReflected hasher.crc data⟩

def sum64 (hasher : Hasher) : UInt64 :=
  UInt64.ofBitVec (hasher.crc ^^^ BitVec.allOnes 64)

def checksum (hasher : Hasher) : Checksum := checksumFlag ||| hasher.sum64

end Hasher

/-- The CRC64 of a string, bit by bit. -/
def crc64 (input : Bytes) : UInt64 :=
  UInt64.ofBitVec
    (Crc.run polyReflected (BitVec.allOnes 64) input ^^^ BitVec.allOnes 64)

theorem Hasher.update_append (hasher : Hasher) (front back : Bytes) :
    (hasher.update front).update back = hasher.update (front ++ back) := by
  unfold Hasher.update
  rw [Crc.tableRun_eq_run, Crc.tableRun_eq_run, Crc.tableRun_eq_run,
    Crc.run_append]

theorem Hasher.checksum_eq_crc64 (input : Bytes) :
    (Hasher.new.update input).checksum = checksumFlag ||| crc64 input := by
  unfold Hasher.checksum Hasher.sum64 Hasher.update crc64
  rw [Crc.tableRun_eq_run]
  rfl

-- The check value of the source's test, for "123456789".
example :
    (Hasher.new.update
      [0x31, 0x32, 0x33, 0x34, 0x35, 0x36, 0x37, 0x38, 0x39]).sum64 =
      0xb90956c775a41001 := by
  decide +kernel

/-! ## Machine words -/

def beU16 (b : Bytes) (offset : Nat) : UInt16 :=
  UInt16.ofNat (BigEndian.at_ 2 b offset)

def beU32 (b : Bytes) (offset : Nat) : UInt32 :=
  UInt32.ofNat (BigEndian.at_ 4 b offset)

def beU64 (b : Bytes) (offset : Nat) : UInt64 :=
  UInt64.ofNat (BigEndian.at_ 8 b offset)

def u16ToBe (word : UInt16) : Bytes := BigEndian.bytes 2 word.toNat

def u32ToBe (word : UInt32) : Bytes := BigEndian.bytes 4 word.toNat

def u64ToBe (word : UInt64) : Bytes := BigEndian.bytes 8 word.toNat

/-- The checksum of one page, over its number and its data. -/
def checksumPage (pgno : UInt32) (data : Bytes) : Checksum :=
  ((Hasher.new.update (u32ToBe pgno)).update data).checksum

@[simp] theorem length_u16ToBe (word : UInt16) : (u16ToBe word).length = 2 :=
  BigEndian.length_bytes 2 _

@[simp] theorem length_u32ToBe (word : UInt32) : (u32ToBe word).length = 4 :=
  BigEndian.length_bytes 4 _

@[simp] theorem length_u64ToBe (word : UInt64) : (u64ToBe word).length = 8 :=
  BigEndian.length_bytes 8 _

theorem beU16_append (word : UInt16) (rest : Bytes) :
    beU16 (u16ToBe word ++ rest) 0 = word := by
  have fits : word.toNat < 256 ^ 2 := word.toNat_lt
  rw [beU16, u16ToBe, BigEndian.at_bytes_zero, Nat.mod_eq_of_lt fits,
    UInt16.ofNat_toNat]

theorem beU32_append (word : UInt32) (rest : Bytes) :
    beU32 (u32ToBe word ++ rest) 0 = word := by
  have fits : word.toNat < 256 ^ 4 := word.toNat_lt
  rw [beU32, u32ToBe, BigEndian.at_bytes_zero, Nat.mod_eq_of_lt fits,
    UInt32.ofNat_toNat]

theorem beU64_append (word : UInt64) (rest : Bytes) :
    beU64 (u64ToBe word ++ rest) 0 = word := by
  have fits : word.toNat < 256 ^ 8 := word.toNat_lt
  rw [beU64, u64ToBe, BigEndian.at_bytes_zero, Nat.mod_eq_of_lt fits,
    UInt64.ofNat_toNat]

theorem beU16_skip {front rest : Bytes} {offset : Nat}
    (behind : front.length ≤ offset) :
    beU16 (front ++ rest) offset = beU16 rest (offset - front.length) := by
  rw [beU16, beU16, BigEndian.at_append behind]

theorem beU32_skip {front rest : Bytes} {offset : Nat}
    (behind : front.length ≤ offset) :
    beU32 (front ++ rest) offset = beU32 rest (offset - front.length) := by
  rw [beU32, beU32, BigEndian.at_append behind]

theorem beU64_skip {front rest : Bytes} {offset : Nat}
    (behind : front.length ≤ offset) :
    beU64 (front ++ rest) offset = beU64 rest (offset - front.length) := by
  rw [beU64, beU64, BigEndian.at_append behind]

/-! ## The header -/

/-- `"LTX1"`. -/
def magic : Bytes := [0x4c, 0x54, 0x58, 0x31]

@[simp] theorem length_magic : magic.length = 4 := by
  simp [magic]

def headerSize : Nat := 100

def pageHeaderSize : Nat := 6

def trailerSize : Nat := 16

/-- The header with the words of its 100 bytes. -/
structure Header where
  flags : UInt32
  pageSize : UInt32
  commit : UInt32
  minTxid : UInt64
  maxTxid : UInt64
  timestamp : Int64
  preApplyChecksum : Checksum
  walOffset : Int64
  walSize : Int64
  walSalt1 : UInt32
  walSalt2 : UInt32
  nodeId : UInt64
deriving DecidableEq

namespace Header

def isSnapshot (header : Header) : Bool := header.minTxid == 1

/-- Checksum tracking is disabled. -/
def noChecksum (header : Header) : Bool :=
  header.flags &&& UInt32.ofNat headerFlagNoChecksum != 0

def lockPgno (header : Header) : UInt32 :=
  UInt32.ofNat (Literstream.lockPgno header.pageSize.toNat)

def encode (header : Header) : Bytes :=
  magic ++ (u32ToBe header.flags ++ (u32ToBe header.pageSize ++
    (u32ToBe header.commit ++ (u64ToBe header.minTxid ++
      (u64ToBe header.maxTxid ++ (u64ToBe header.timestamp.toUInt64 ++
        (u64ToBe header.preApplyChecksum ++
          (u64ToBe header.walOffset.toUInt64 ++
            (u64ToBe header.walSize.toUInt64 ++ (u32ToBe header.walSalt1 ++
              (u32ToBe header.walSalt2 ++ (u64ToBe header.nodeId ++
                List.replicate 20 0))))))))))))

def decode (b : Bytes) : Except WireError Header :=
  if b.length < headerSize then
    .error (.ltx (.shortBuffer headerSize b.length))
  else if b.take 4 ≠ magic then .error (.invalidMagic (b.take 4))
  else
    let header : Header :=
      { flags := beU32 b 4
        pageSize := beU32 b 8
        commit := beU32 b 12
        minTxid := beU64 b 16
        maxTxid := beU64 b 24
        timestamp := (beU64 b 32).toInt64
        preApplyChecksum := beU64 b 40
        walOffset := (beU64 b 48).toInt64
        walSize := (beU64 b 56).toInt64
        walSalt1 := beU32 b 64
        walSalt2 := beU32 b 68
        nodeId := beU64 b 72 }
    if isValidPageSize header.pageSize.toNat = false then
      .error (.ltx (.invalidPageSize header.pageSize.toNat))
    else .ok header

theorem decode_eq_ok {b : Bytes} {header : Header}
    (decoded : decode b = .ok header) :
    isValidPageSize header.pageSize.toNat = true ∧
      header.pageSize = beU32 b 8 := by
  unfold decode at decoded
  split at decoded
  · cases decoded
  · split at decoded
    · cases decoded
    · dsimp only at decoded
      split at decoded
      · cases decoded
      · rename_i sized
        cases decoded
        exact ⟨by simpa using sized, rfl⟩

/-- The checks made before a header is encoded. -/
def validate (header : Header) : Except WireError Unit :=
  if isValidPageSize header.pageSize.toNat = false then
    .error (.ltx (.invalidPageSize header.pageSize.toNat))
  else if header.minTxid = 0 ∨ header.maxTxid = 0 ∨
      header.minTxid > header.maxTxid then
    .error
      (.ltx (.invalidTxidRange header.minTxid.toNat header.maxTxid.toNat))
  else if header.isSnapshot ∧ header.preApplyChecksum ≠ 0 then
    .error (.ltx .snapshotPreApplyChecksum)
  else .ok ()

theorem sized_of_validate {header : Header}
    (valid : header.validate = .ok ()) :
    isValidPageSize header.pageSize.toNat = true := by
  unfold validate at valid
  split at valid
  · cases valid
  · rename_i sized
    simpa using sized

@[simp] theorem length_encode (header : Header) :
    header.encode.length = headerSize := by
  simp [encode, headerSize]

theorem decode_encode {header : Header} (rest : Bytes)
    (sized : isValidPageSize header.pageSize.toNat = true) :
    decode (header.encode ++ rest) = .ok header := by
  have long : ¬(header.encode ++ rest).length < headerSize := by
    rw [List.length_append, length_encode]
    omega
  have start : (header.encode ++ rest).take 4 = magic := rfl
  rw [decode, if_neg long, if_neg (not_not.mpr start)]
  simp [encode, beU32_append, beU64_append, beU32_skip, beU64_skip, sized,
    -List.reduceReplicate]

end Header

/-! ## The page header and the trailer -/

/-- The flag of a page that is an LZ4 block behind its size. -/
def pageHeaderFlagSize : UInt16 := 1

structure PageHeader where
  pgno : UInt32
  flags : UInt16
deriving DecidableEq, Repr

namespace PageHeader

def encode (header : PageHeader) : Bytes :=
  u32ToBe header.pgno ++ u16ToBe header.flags

def decode (b : Bytes) : Except WireError PageHeader :=
  if b.length < pageHeaderSize then
    .error (.ltx (.shortBuffer pageHeaderSize b.length))
  else .ok { pgno := beU32 b 0, flags := beU16 b 4 }

/-- An all-zero page header ends the pages. -/
def isZero (header : PageHeader) : Bool :=
  header.pgno == 0 && header.flags == 0

def isBlockCompressed (header : PageHeader) : Bool :=
  header.flags &&& pageHeaderFlagSize != 0

@[simp] theorem length_encode (header : PageHeader) :
    header.encode.length = pageHeaderSize := by
  simp [encode, pageHeaderSize]

theorem decode_encode (header : PageHeader) (rest : Bytes) :
    decode (header.encode ++ rest) = .ok header := by
  have long : ¬(header.encode ++ rest).length < pageHeaderSize := by
    rw [List.length_append, length_encode]
    omega
  rw [decode, if_neg long]
  simp [encode, beU32_append, beU16_append, beU16_skip]

end PageHeader

structure Trailer where
  postApplyChecksum : Checksum
  fileChecksum : Checksum
deriving DecidableEq, Repr

namespace Trailer

def encode (trailer : Trailer) : Bytes :=
  u64ToBe trailer.postApplyChecksum ++ u64ToBe trailer.fileChecksum

def decode (b : Bytes) : Except WireError Trailer :=
  if b.length < trailerSize then
    .error (.ltx (.shortBuffer trailerSize b.length))
  else .ok { postApplyChecksum := beU64 b 0, fileChecksum := beU64 b 8 }

@[simp] theorem length_encode (trailer : Trailer) :
    trailer.encode.length = trailerSize := by
  simp [encode, trailerSize]

theorem decode_encode (trailer : Trailer) :
    decode trailer.encode = .ok trailer := by
  have long : ¬trailer.encode.length < trailerSize := by
    rw [length_encode]
    exact Nat.lt_irrefl _
  have last :
      beU64 (u64ToBe trailer.fileChecksum) 0 = trailer.fileChecksum := by
    simpa using beU64_append trailer.fileChecksum []
  rw [decode, if_neg long]
  simp [encode, beU64_append, beU64_skip, last]

end Trailer

end Wire

end Literstream
