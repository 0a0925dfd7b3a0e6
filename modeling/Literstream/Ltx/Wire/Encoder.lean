import Literstream.Ltx.Encoder
import Literstream.Ltx.Wire.Format
import Mathlib.Data.List.Sort

/-!
# The bytes that the encoder writes

The encoder over a byte vector.  The compressed page goes into the vector only,
the running checksum sees the page itself, and the running offset counts what
went into the vector.
-/

namespace Literstream

namespace Wire

/-- The frame encoder, the frame decoder and the block decoder of LZ4. -/
structure Lz4 where
  compress : Bytes → Option Bytes
  /-- Fill a buffer of a length from the start of a frame. -/
  readExact : Bytes → Nat → Option Bytes
  decompressInto : Bytes → Bytes → Option Bytes

/-- Decoding the frame that encodes a page gives that page back. -/
def Lz4.GivesBack (lz4 : Lz4) : Prop :=
  ∀ data frame, lz4.compress data = some frame →
    lz4.readExact frame data.length = some data

/-- Where the frame of a page lies in the file. -/
structure PageIndexElem where
  pgno : UInt32
  offset : UInt64
  size : UInt64
deriving DecidableEq, Repr

inductive State where
  | header
  | page
  | closed
deriving DecidableEq, Repr

structure Encoder where
  w : Bytes
  state : State
  hash : Hasher
  n : UInt64
  header : Option Header
  postApply : Checksum
  index : List PageIndexElem
  prevPgno : UInt32
deriving DecidableEq

namespace Encoder

def new : Encoder where
  w := []
  state := .header
  hash := Hasher.new
  n := 0
  header := none
  postApply := 0
  index := []
  prevPgno := 0

/-- A vector cannot hold `2^63` bytes. -/
def writeAll (encoder : Encoder) (b : Bytes) : Except WireError Encoder :=
  if encoder.w.length + b.length < 2 ^ 63 then
    .ok { encoder with w := encoder.w ++ b }
  else .error (.ltx .io)

def writeHashed (encoder : Encoder) (b : Bytes) : Except WireError Encoder := do
  let written ← encoder.writeAll b
  return { written with
    hash := written.hash.update b
    n := written.n + UInt64.ofNat b.length }

def encodeHeader (encoder : Encoder) (header : Header) :
    Except WireError Encoder := do
  if encoder.state ≠ .header then .error .panic else
  header.validate
  let written ← encoder.writeHashed header.encode
  return { written with header := some header, state := .page }

def setPostApplyChecksum (encoder : Encoder) (checksum : Checksum) : Encoder :=
  { encoder with postApply := checksum }

/-- A snapshot starts at page 1 and is contiguous except for the lock page, any
other file is ascending. -/
def inOrder (encoder : Encoder) (header : Header) (pgno : UInt32) : Bool :=
  let lock := header.lockPgno
  if header.isSnapshot then
    if encoder.prevPgno = 0 then pgno == 1
    else if encoder.prevPgno = lock - 1 then pgno == encoder.prevPgno + 2
    else pgno == encoder.prevPgno + 1
  else decide (¬pgno ≤ encoder.prevPgno)

/-- The checks on a page before it is written. -/
def checkPage (encoder : Encoder) (header : Header) (pgno : UInt32)
    (data : Bytes) : Except WireError Unit :=
  if data.length ≠ header.pageSize.toNat then
    .error (.ltx (.wrongPageLength header.pageSize.toNat data.length))
  else if pgno = 0 then .error (.ltx .zeroPageNumber)
  else if pgno > header.commit then
    .error (.ltx (.pageBeyondCommit pgno.toNat header.commit.toNat))
  else if pgno = header.lockPgno then
    .error (.ltx (.lockPageEncoded pgno.toNat))
  else if encoder.inOrder header pgno then .ok ()
  else .error (.ltx (.pageOutOfOrder encoder.prevPgno.toNat pgno.toNat))

def compressPage (lz4 : Lz4) (data : Bytes) : Except WireError Bytes :=
  match lz4.compress data with
  | none => .error (.ltx .io)
  | some compressed => .ok compressed

def encodePage (lz4 : Lz4) (encoder : Encoder) (pgno : UInt32) (data : Bytes) :
    Except WireError Encoder :=
  match encoder.header with
  | none => .error .panic
  | some header => do
      if encoder.state ≠ .page then .error .panic else
      encoder.checkPage header pgno data
      let offset := encoder.n
      let compressed ← compressPage lz4 data
      let headed ← encoder.writeHashed (PageHeader.encode ⟨pgno, 0⟩)
      let framed ← headed.writeAll compressed
      let n := framed.n + UInt64.ofNat compressed.length
      return { framed with
        n := n
        hash := framed.hash.update data
        index := framed.index ++ [⟨pgno, offset, n - offset⟩]
        prevPgno := pgno }

end Encoder

/-- The three numbers of an entry of the page index. -/
def PageIndexElem.encode (elem : PageIndexElem) : Bytes :=
  Varint.encode elem.pgno.toUInt64 ++ Varint.encode elem.offset ++
    Varint.encode elem.size

namespace Encoder

def writeEntries (encoder : Encoder) :
    List PageIndexElem → Except WireError Encoder
  | [] => .ok encoder
  | elem :: rest => do
      let next ← encoder.writeHashed elem.encode
      next.writeEntries rest

/-- The encoder with its index taken out. -/
def takeIndex (encoder : Encoder) : Encoder := { encoder with index := [] }

/-- The sorted index, the end marker, and the length of both. -/
def encodePageIndex (encoder : Encoder) : Except WireError Encoder := do
  let index := encoder.index.insertionSort fun left right =>
    left.pgno ≤ right.pgno
  let indexStart := encoder.n
  let listed ← encoder.takeIndex.writeEntries index
  let marked ← listed.writeHashed (Varint.encode 0)
  let indexLen := marked.n - indexStart
  marked.writeHashed (u64ToBe indexLen)

/-- The end of the pages, the index and the trailer.  The checksum of the
trailer covers everything before it. -/
def finish (encoder : Encoder) : Except WireError (Trailer × Encoder) := do
  if encoder.state ≠ .page then .error .panic else
  let ended ← encoder.writeHashed (List.replicate pageHeaderSize 0)
  let indexed ← ended.encodePageIndex
  let hash := indexed.hash.update (u64ToBe indexed.postApply)
  let trailer : Trailer :=
    { postApplyChecksum := indexed.postApply, fileChecksum := hash.checksum }
  let written ← { indexed with hash := hash }.writeAll trailer.encode
  return (trailer,
    { written with
      n := written.n + UInt64.ofNat trailerSize
      state := .closed })

end Encoder

/-- What is called between the header and `finish`. -/
inductive Call where
  | encodePage (pgno : UInt32) (data : Bytes)
  | setPostApplyChecksum (checksum : Checksum)
deriving DecidableEq, Repr

def Encoder.call (lz4 : Lz4) (encoder : Encoder) :
    Call → Except WireError Encoder
  | .encodePage pgno data => encoder.encodePage lz4 pgno data
  | .setPostApplyChecksum checksum =>
      .ok (encoder.setPostApplyChecksum checksum)

def Encoder.calls (lz4 : Lz4) (encoder : Encoder) :
    List Call → Except WireError Encoder
  | [] => .ok encoder
  | call :: rest => do
      let next ← encoder.call lz4 call
      next.calls lz4 rest

/-- Write a whole file: its bytes, and the trailer that `finish` returned. -/
def encodeFile (lz4 : Lz4) (header : Header) (calls : List Call) :
    Except WireError (Bytes × Trailer) := do
  let opened ← Encoder.new.encodeHeader header
  let paged ← opened.calls lz4 calls
  let (trailer, closed) ← paged.finish
  return (closed.w, trailer)

/-- A page with the words of the file. -/
abbrev WirePage := UInt32 × Bytes

def Call.page? : Call → Option WirePage
  | .encodePage pgno data => some (pgno, data)
  | .setPostApplyChecksum _ => none

/-- The pages of the calls. -/
def pagesOf (calls : List Call) : List WirePage := calls.filterMap Call.page?

end Wire

end Literstream
