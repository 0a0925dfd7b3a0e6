import Literstream.Error
import Literstream.Lib.PagedFile
import Mathlib.Data.UInt

/-!
# The LTX file format

The header, the page list and the constants that frame the format.  An
`LtxFile` is what the encoder can produce: its pages are in ascending order,
inside the database size of the header, never the lock page, and one page long.
The trailer is determined by the rest of the file and is not repeated here.
-/

namespace Literstream

/-- Raw bytes. -/
abbrev Bytes := List UInt8

/-- Header flag: no rolling database checksum. -/
def headerFlagNoChecksum : Nat := 2

/-- SQLite's lock byte lives at the 1 GiB boundary. -/
def pendingByte : Nat := 0x40000000

/-- The 1-based page that contains the lock byte. -/
def lockPgno (pageSize : Nat) : Nat := pendingByte / pageSize + 1

theorem lockPgno_pos (pageSize : Nat) : 1 ≤ lockPgno pageSize :=
  Nat.le_add_left 1 _

/-- The page sizes of SQLite: the powers of two in `512..=65536`. -/
def isValidPageSize (size : Nat) : Bool :=
  [512, 1024, 2048, 4096, 8192, 16384, 32768, 65536].contains size

theorem isValidPageSize.pos {size : Nat} (valid : isValidPageSize size = true) :
    0 < size := by
  rcases Nat.eq_zero_or_pos size with zero | positive
  · subst zero
    exact absurd valid (by decide)
  · exact positive

/-- The 100-byte header of an LTX file. -/
structure Header where
  flags : Nat
  pageSize : Nat
  /-- Database size in pages after this file. -/
  commit : Nat
  minTxid : Nat
  maxTxid : Nat
  timestamp : Int
  preApplyChecksum : Nat
  walOffset : Nat
  walSize : Nat
  walSalt1 : Nat
  walSalt2 : Nat
  nodeId : Nat
deriving DecidableEq, Repr

namespace Header

/-- A snapshot contains every page: its minimum TXID is 1. -/
def isSnapshot (header : Header) : Bool := header.minTxid == 1

/-- The checks made before a header is encoded. -/
def validate (header : Header) : Except LtxError Unit :=
  if isValidPageSize header.pageSize = false then
    .error (.invalidPageSize header.pageSize)
  else if header.minTxid = 0 ∨ header.maxTxid = 0 ∨
      header.minTxid > header.maxTxid then
    .error (.invalidTxidRange header.minTxid header.maxTxid)
  else if header.isSnapshot ∧ header.preApplyChecksum ≠ 0 then
    .error .snapshotPreApplyChecksum
  else .ok ()

theorem validate_eq_ok {header : Header} (valid : header.validate = .ok ()) :
    isValidPageSize header.pageSize = true ∧ 1 ≤ header.minTxid ∧
      header.minTxid ≤ header.maxTxid := by
  unfold validate at valid
  split at valid
  · cases valid
  · rename_i sizeOk
    split at valid
    · cases valid
    · rename_i rangeOk
      refine ⟨by simpa using sizeOk, by omega, by omega⟩

end Header

/-- The header that the sync engine and the compactor write: no checksum
tracking. -/
def noChecksumHeader (pageSize commit minTxid maxTxid : Nat) (timestamp : Int)
    (walOffset walSize salt1 salt2 : Nat) : Header where
  flags := headerFlagNoChecksum
  pageSize := pageSize
  commit := commit
  minTxid := minTxid
  maxTxid := maxTxid
  timestamp := timestamp
  preApplyChecksum := 0
  walOffset := walOffset
  walSize := walSize
  walSalt1 := salt1
  walSalt2 := salt2
  nodeId := 0

/-- One page of an LTX file: its number and its contents. -/
abbrev Page := Nat × Bytes

/-- What the encoder accepts as one page under a header. -/
def PageOk (header : Header) (page : Page) : Prop :=
  1 ≤ page.1 ∧ page.1 ≤ header.commit ∧
    page.1 ≠ lockPgno header.pageSize ∧ page.2.length = header.pageSize

/-- A finished LTX file. -/
structure LtxFile where
  header : Header
  /-- The pages in the order of the page index. -/
  pages : List Page
  valid : header.validate = .ok ()
  ascending : pages.Pairwise fun left right => left.1 < right.1
  pagesOk : ∀ page ∈ pages, PageOk header page
deriving DecidableEq

namespace LtxFile

theorem pageSize_pos (file : LtxFile) : 0 < file.header.pageSize :=
  (Header.validate_eq_ok file.valid).1 |> isValidPageSize.pos

/-- The contents that the file holds for a page, if any. -/
def page? (file : LtxFile) (pgno : Nat) : Option Bytes :=
  (file.pages.find? fun page => page.1 = pgno).map Prod.snd

end LtxFile

/-- Look a page up in an ascending page list. -/
theorem find?_eq_some_of_mem {pages : List Page}
    (ascending : pages.Pairwise fun left right => left.1 < right.1)
    {pgno : Nat} {data : Bytes} (member : (pgno, data) ∈ pages) :
    (pages.find? fun page => page.1 = pgno) = some (pgno, data) := by
  induction pages with
  | nil => cases member
  | cons head tail ih =>
      rcases List.pairwise_cons.mp ascending with ⟨headLess, tailAscending⟩
      rcases List.mem_cons.mp member with same | later
      · subst same
        simp
      · have different : head.1 ≠ pgno := Nat.ne_of_lt (headLess _ later)
        rw [List.find?_cons_of_neg (by simpa using different)]
        exact ih tailAscending later

theorem LtxFile.page?_eq_some_iff (file : LtxFile) {pgno : Nat} {data : Bytes} :
    file.page? pgno = some data ↔ (pgno, data) ∈ file.pages := by
  unfold LtxFile.page?
  constructor
  · intro found
    cases searched : file.pages.find? fun page => page.1 = pgno with
    | none => simp [searched] at found
    | some page =>
        have member := List.mem_of_find?_eq_some searched
        have number := List.find?_some searched
        simp only [searched, Option.map_some, Option.some.injEq] at found
        simp only [decide_eq_true_eq] at number
        rw [← number, ← found]
        exact member
  · intro member
    rw [find?_eq_some_of_mem file.ascending member]
    rfl

theorem LtxFile.page?_eq_none_iff (file : LtxFile) {pgno : Nat} :
    file.page? pgno = none ↔ ∀ data, (pgno, data) ∉ file.pages := by
  constructor
  · intro absent data member
    rw [← LtxFile.page?_eq_some_iff, absent] at member
    cases member
  · intro absent
    cases found : file.page? pgno with
    | none => rfl
    | some data =>
        exact absurd (file.page?_eq_some_iff.mp found) (absent data)

/-- Decode one page frame into a buffer of `pageSize` bytes: a longer page is
cut, a shorter one is refused. -/
def decodePageFrame (data : Bytes) (pageSize : Nat) : Except LtxError Bytes :=
  if data.length < pageSize then .error .frameFormatUnsupported
  else .ok (data.take pageSize)

theorem decodePageFrame_of_length {data : Bytes} {pageSize : Nat}
    (whole : data.length = pageSize) :
    decodePageFrame data pageSize = .ok data := by
  simp [decodePageFrame, whole, List.take_of_length_le]

end Literstream
