import Literstream.Ltx.Wire.Encoder

/-!
# Reading a file through its page index

The index is found from the end of the file: the trailer is preceded by the
length of the index.  Every entry then names the bytes of one frame.
-/

namespace Literstream

namespace Wire

/-- A slice of the bytes; one that does not lie inside them panics. -/
def slice (bytes : Bytes) (start stop : Nat) : Except WireError Bytes :=
  if start ≤ stop ∧ stop ≤ bytes.length then
    .ok ((bytes.drop start).take (stop - start))
  else .error .panic

/-- The length of the index and the trailer behind it. -/
def indexFooterSize : Nat := 8 + trailerSize

def readUvarint (b : Bytes) : Except WireError (UInt64 × Bytes) :=
  match Varint.decode b with
  | none => .error (.ltx (.shortBuffer (b.length + 1) b.length))
  | some read => .ok read

theorem readUvarint_shorter {b rest : Bytes} {value : UInt64}
    (read : readUvarint b = .ok (value, rest)) : rest.length < b.length := by
  unfold readUvarint at read
  split at read
  · cases read
  · rename_i decoded
    cases read
    exact Varint.decode_shorter decoded

/-- The entries up to the end marker. -/
def decodePageIndex (b : Bytes) : Except WireError (List PageIndexElem) :=
  match _pgnoRead : readUvarint b with
  | .error error => .error error
  | .ok (pgno, afterPgno) =>
      if pgno = 0 then .ok []
      else
        match _offsetRead : readUvarint afterPgno with
        | .error error => .error error
        | .ok (offset, afterOffset) =>
            match _sizeRead : readUvarint afterOffset with
            | .error error => .error error
            | .ok (size, afterSize) => do
                let rest ← decodePageIndex afterSize
                return ⟨pgno.toUInt32, offset, size⟩ :: rest
termination_by b.length
decreasing_by
  have first := readUvarint_shorter _pgnoRead
  have second := readUvarint_shorter _offsetRead
  have third := readUvarint_shorter _sizeRead
  omega

/-- Locate the page index from the end of the file and decode it. -/
def pageIndex (bytes : Bytes) : Except WireError (List PageIndexElem) :=
  if bytes.length < headerSize + indexFooterSize then
    .error (.ltx (.shortBuffer (headerSize + indexFooterSize) bytes.length))
  else do
    let indexSizeAt := bytes.length - indexFooterSize
    let indexLen := (beU64 bytes indexSizeAt).toNat
    if indexSizeAt < indexLen then .error .panic else
    let index ← slice bytes (indexSizeAt - indexLen) indexSizeAt
    decodePageIndex index

/-- A block behind its size, or one LZ4 frame. -/
def decodePageFrame (lz4 : Lz4) (frame : Bytes) (pageSize : Nat) :
    Except WireError (PageHeader × Bytes) := do
  let header ← PageHeader.decode frame
  if header.isZero then .error (.ltx .zeroPageNumber)
  else if header.isBlockCompressed then
    if frame.length < pageHeaderSize + 4 then
      .error (.ltx (.shortBuffer (pageHeaderSize + 4) frame.length))
    else do
      let n := (beU32 frame pageHeaderSize).toNat
      let compressed ←
        slice frame (pageHeaderSize + 4) (pageHeaderSize + 4 + n)
      match lz4.decompressInto compressed (List.replicate pageSize 0) with
      | none => .error .lz4
      | some data => .ok (header, data)
  else
    match lz4.readExact (frame.drop pageHeaderSize) pageSize with
    | none => .error (.ltx .frameFormatUnsupported)
    | some data => .ok (header, data)

/-- The page that an entry of the index names. -/
def decodeEntry (lz4 : Lz4) (bytes : Bytes) (pageSize : Nat)
    (elem : PageIndexElem) : Except WireError (PageHeader × Bytes) :=
  let start := elem.offset.toNat
  let stop := start + elem.size.toNat
  if 2 ^ 64 ≤ stop then .error .panic
  else if bytes.length < stop then
    .error (.ltx (.shortBuffer stop bytes.length))
  else do
    let frame ← slice bytes start stop
    decodePageFrame lz4 frame pageSize

structure DecodedFile where
  header : Header
  pages : List WirePage
  trailer : Trailer
deriving DecidableEq

def readPages (lz4 : Lz4) (bytes : Bytes) (pageSize : Nat) :
    List PageIndexElem → Except WireError (List WirePage)
  | [] => .ok []
  | elem :: index => do
      let (header, data) ← decodeEntry lz4 bytes pageSize elem
      let pages ← readPages lz4 bytes pageSize index
      return (header.pgno, data) :: pages

/-- Decode a whole file; the pages come out sorted. -/
def readFile (lz4 : Lz4) (bytes : Bytes) : Except WireError DecodedFile := do
  let header ← Header.decode bytes
  let index ← pageIndex bytes
  let trailer ← Trailer.decode (bytes.drop (bytes.length - trailerSize))
  let pages ← readPages lz4 bytes header.pageSize.toNat index
  .ok
    { header := header
      pages := pages.insertionSort fun left right => left.1 ≤ right.1
      trailer := trailer }

section ForEach

variable {ε σ : Type}

/-- Call `f` on the pages of the entries, one at a time. -/
def forEachEntry (wrap : WireError → ε) (lz4 : Lz4) (bytes : Bytes)
    (pageSize : Nat) (f : σ → WirePage → Except ε σ) :
    σ → List PageIndexElem → Except ε σ
  | state, [] => .ok state
  | state, elem :: index =>
      match decodeEntry lz4 bytes pageSize elem with
      | .error error => .error (wrap error)
      | .ok (header, data) => do
          let next ← f state (header.pgno, data)
          forEachEntry wrap lz4 bytes pageSize f next index

/-- Call `f` on the pages of a file in the order of its index.  Only one page is
decoded at a time, and `f` sees the error of a page before the next one is
read. -/
def forEachIndexedPage (wrap : WireError → ε) (lz4 : Lz4) (bytes : Bytes)
    (pageSize : Nat) (f : σ → WirePage → Except ε σ) (state : σ) :
    Except ε σ :=
  match pageIndex bytes with
  | .error error => .error (wrap error)
  | .ok index => forEachEntry wrap lz4 bytes pageSize f state index

end ForEach

end Wire

end Literstream
