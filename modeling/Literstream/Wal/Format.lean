import Literstream.Lib.BigEndian
import Literstream.Wal.PageMap

/-!
# The bytes of a write-ahead log

The header, the frame headers and the running checksum.  Integers are
big-endian; only the words of the checksum follow the byte order that the magic
of the header selects.
-/

namespace Literstream

open BigEndian

def walMagicLe : Nat := 0x377f0682

def walMagicBe : Nat := 0x377f0683

def walVersion : Nat := 3007000

/-- The byte order of the checksum's words. -/
inductive ByteOrder where
  | little
  | big
deriving DecidableEq, Repr

def ByteOrder.readU32 (order : ByteOrder) (word : Bytes) : Nat :=
  match order with
  | .little => value word.reverse
  | .big => value word

/-- The running checksum over 8-byte words; additions wrap. -/
def walChecksum (order : ByteOrder) (s0 s1 : Nat) : Bytes → Nat × Nat
  | b0 :: b1 :: b2 :: b3 :: b4 :: b5 :: b6 :: b7 :: rest =>
      let s0 := (s0 + (order.readU32 [b0, b1, b2, b3] + s1)) % 2 ^ 32
      let s1 := (s1 + (order.readU32 [b4, b5, b6, b7] + s0)) % 2 ^ 32
      walChecksum order s0 s1 rest
  | _ => (s0, s1)

/-- The 32-byte WAL header. -/
structure WalHeader where
  byteOrder : ByteOrder
  pageSize : Nat
  /-- Checkpoint sequence number. -/
  seq : Nat
  salt1 : Nat
  salt2 : Nat
  checksum1 : Nat
  checksum2 : Nat
deriving DecidableEq, Repr

def WalHeader.parse (bytes : Bytes) : Except WalError WalHeader :=
  if bytes.length < walHeaderSize then
    .error (.incomplete walHeaderSize bytes.length)
  else do
    let magic := at_ 4 bytes 0
    let byteOrder ←
      if magic = walMagicLe then .ok .little
      else if magic = walMagicBe then .ok .big
      else .error (.invalidMagic magic)
    let version := at_ 4 bytes 4
    let pageSize := at_ 4 bytes 8
    let checksum1 := at_ 4 bytes 24
    let checksum2 := at_ 4 bytes 28
    if version ≠ walVersion then .error (.unsupportedVersion version)
    else if isValidPageSize pageSize = false then
      .error (.invalidPageSize pageSize)
    else if walChecksum byteOrder 0 0 (bytes.take 24) ≠
        (checksum1, checksum2) then .error .headerChecksumMismatch
    else return {
      byteOrder := byteOrder
      pageSize := pageSize
      seq := at_ 4 bytes 12
      salt1 := at_ 4 bytes 16
      salt2 := at_ 4 bytes 20
      checksum1 := checksum1
      checksum2 := checksum2 }

/-- The 24 bytes before the page of a frame. -/
structure WalFrameHeader where
  pgno : Nat
  commit : Nat
  salt1 : Nat
  salt2 : Nat
  checksum1 : Nat
  checksum2 : Nat
deriving DecidableEq, Repr

def WalFrameHeader.parse (bytes : Bytes) : WalFrameHeader where
  pgno := at_ 4 bytes 0
  commit := at_ 4 bytes 4
  salt1 := at_ 4 bytes 8
  salt2 := at_ 4 bytes 12
  checksum1 := at_ 4 bytes 16
  checksum2 := at_ 4 bytes 20

theorem isValidPageSize.lt {size : Nat} (valid : isValidPageSize size = true) :
    size < 2 ^ 32 := by
  simp [isValidPageSize] at valid
  omega

theorem walChecksum_lt {order : ByteOrder} {s0 s1 : Nat} (bytes : Bytes)
    (small0 : s0 < 2 ^ 32) (small1 : s1 < 2 ^ 32) :
    (walChecksum order s0 s1 bytes).1 < 2 ^ 32 ∧
      (walChecksum order s0 s1 bytes).2 < 2 ^ 32 := by
  induction s0, s1, bytes using walChecksum.induct order with
  | case1 s0 s1 b0 b1 b2 b3 b4 b5 b6 b7 rest first second ih =>
      rw [walChecksum]
      exact ih (Nat.mod_lt _ (by decide)) (Nat.mod_lt _ (by decide))
  | case2 s0 s1 bytes short =>
      rw [walChecksum]
      · exact ⟨small0, small1⟩
      · exact short

end Literstream
