import Literstream.Ltx.Wire.Reader

/-!
# The streaming reader

The decoder takes the pages one after the other from the front of the bytes and
feeds its checksum as it goes.  Only pages that are an LZ4 block are decoded.
-/

namespace Literstream

namespace Wire

inductive Decoder.State where
  | header
  | page
  | close
  | closed
deriving DecidableEq, Repr

structure Decoder where
  r : Bytes
  state : Decoder.State
  hash : Hasher
  header : Option Header
  /-- The post-apply checksum of the pages so far. -/
  rolling : Checksum
  pageIndex : List PageIndexElem
  trailer : Option Trailer
deriving DecidableEq

namespace Decoder

def new (r : Bytes) : Decoder where
  r := r
  state := .header
  hash := Hasher.new
  header := none
  rolling := 0
  pageIndex := []
  trailer := none

/-- Fill a buffer from the front of the bytes. -/
def readExact (decoder : Decoder) (count : Nat) :
    Except WireError (Bytes × Decoder) :=
  if count ≤ decoder.r.length then
    .ok (decoder.r.take count, { decoder with r := decoder.r.drop count })
  else .error (.ltx .io)

def update (decoder : Decoder) (b : Bytes) : Decoder :=
  { decoder with hash := decoder.hash.update b }

def decodeHeader (decoder : Decoder) : Except WireError (Header × Decoder) := do
  if decoder.state ≠ .header then .error .panic else
  let (b, read) ← decoder.readExact headerSize
  let header ← Header.decode b
  return (header,
    { read.update b with
      rolling := if header.noChecksum then read.rolling else checksumFlag
      header := some header
      state := .page })

/-- The rolling checksum behind one more page. -/
def accumulate (decoder : Decoder) (header : Header) (pgno : UInt32)
    (data : Bytes) : Decoder :=
  if header.isSnapshot ∧ header.noChecksum = false ∧ pgno ≠ header.lockPgno then
    { decoder with
      rolling := checksumFlag ||| (decoder.rolling ^^^ checksumPage pgno data) }
  else decoder

/-- The next page in the buffer `data`, or `none` behind the last one. -/
def decodePage (lz4 : Lz4) (decoder : Decoder) (data : Bytes) :
    Except WireError (Option PageHeader × Bytes × Decoder) :=
  match decoder.header with
  | none => .error .panic
  | some header =>
      if data.length ≠ header.pageSize.toNat then .error .panic
      else if decoder.state ≠ .page then .ok (none, data, decoder)
      else do
        let (hb, read) ← decoder.readExact pageHeaderSize
        let ph ← PageHeader.decode hb
        if ph.isZero then
          .ok (none, data, { read.update hb with state := .close })
        else if ph.pgno = 0 then .error (.ltx .zeroPageNumber)
        else if ph.isBlockCompressed then do
          let (sb, sized) ← (read.update hb).readExact 4
          let n := (beU32 sb 0).toNat
          let (compressed, body) ← (sized.update sb).readExact n
          match lz4.decompressInto compressed data with
          | none => .error .lz4
          | some page =>
              .ok (some ph, page,
                (body.update page).accumulate header ph.pgno page)
        else .error (.ltx .frameFormatUnsupported)

/-- The index and the trailer; both checksums are compared. -/
def finish (decoder : Decoder) : Except WireError (Trailer × Decoder) :=
  match decoder.header with
  | none => .error .panic
  | some header =>
      if decoder.state = .closed then
        match decoder.trailer with
        | none => .error .panic
        | some trailer => .ok (trailer, decoder)
      else if decoder.state ≠ .close then .error .panic
      else
        let rest := decoder.r
        if rest.length < trailerSize then
          .error (.ltx (.shortBuffer trailerSize rest.length))
        else do
          let trailerAt := rest.length - trailerSize
          let hash := decoder.hash.update (rest.take (rest.length - 8))
          let pageIndex ← decodePageIndex (rest.take trailerAt)
          let trailer ← Trailer.decode (rest.drop trailerAt)
          let computed := hash.checksum
          if computed ≠ trailer.fileChecksum then
            .error (.fileChecksumMismatch trailer.fileChecksum computed)
          else if header.isSnapshot ∧ header.noChecksum = false ∧
              trailer.postApplyChecksum ≠ decoder.rolling then
            .error (.postApplyChecksumMismatch trailer.postApplyChecksum
              decoder.rolling)
          else
            .ok (trailer,
              { decoder with
                r := []
                hash := hash
                pageIndex := pageIndex
                trailer := some trailer
                state := .closed })

end Decoder

/-! ## A whole snapshot -/

structure Snapshot where
  header : Header
  db : Bytes
  trailer : Trailer
deriving DecidableEq

/-- Copy a page into the image. -/
def copyPage (db : Bytes) (start : Nat) (page : Bytes) : Bytes :=
  db.take start ++ (page ++ db.drop (start + page.length))

/-- Read the pages of a list of numbers into an image; `buf` holds the page
that was read last. -/
def readSnapshotPages (lz4 : Lz4) (header : Header) :
    List Nat → Decoder → Bytes → Bytes →
      Except WireError (Decoder × Bytes × Bytes)
  | [], decoder, db, buf => .ok (decoder, db, buf)
  | pgno :: rest, decoder, db, buf =>
      if pgno = header.lockPgno.toNat then
        readSnapshotPages lz4 header rest decoder db buf
      else do
        let (read, page, next) ← decoder.decodePage lz4 buf
        match read with
        | none => .error (.ltx (.unexpectedPage pgno 0))
        | some ph =>
            if ph.pgno.toNat = pgno then
              readSnapshotPages lz4 header rest next
                (copyPage db ((pgno - 1) * header.pageSize.toNat) page) page
            else .error (.ltx (.unexpectedPage pgno ph.pgno.toNat))

def readSnapshot (lz4 : Lz4) (r : Bytes) : Except WireError Snapshot := do
  let (header, opened) ← (Decoder.new r).decodeHeader
  if header.isSnapshot = false then .error .notASnapshot else
  let pageSize := header.pageSize.toNat
  let (paged, db, buf) ←
    readSnapshotPages lz4 header (List.range' 1 header.commit.toNat) opened
      (List.replicate (pageSize * header.commit.toNat) 0)
      (List.replicate pageSize 0)
  let (read, _, ended) ← paged.decodePage lz4 buf
  if read.isSome then .error .notASnapshot else
  let (trailer, _) ← ended.finish
  return { header := header, db := db, trailer := trailer }

end Wire

end Literstream
