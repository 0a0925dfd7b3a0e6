import Literstream.Wal.Format

/-!
# The reader of a write-ahead log

The reader verifies the salts and the running checksum of every frame and stops
at the first that fails, or that is not there in full.  Its buffer holds the
whole log, or the part behind an offset.
-/

namespace Literstream

structure WalReader where
  data : Bytes
  /-- The offset in the log of the buffer's first byte. -/
  base : Nat
  header : WalHeader
  frameN : Nat
  /-- The running checksum of the frame before. -/
  chksum : Nat × Nat

namespace WalReader

/-- A reader of the whole log. -/
def new (data : Bytes) : Except WalError WalReader := do
  let header ← WalHeader.parse data
  return {
    data := data
    base := 0
    header := header
    frameN := 0
    chksum := (header.checksum1, header.checksum2) }

/-- A reader of the bytes from `base` on. -/
def fromTail (header : WalHeader) (data : Bytes) (base : Nat)
    (seed : Nat × Nat) : Except WalError WalReader :=
  if base < walHeaderSize ∨
      (base - walHeaderSize) % frameSize header.pageSize ≠ 0 then
    .error (.unalignedOffset base)
  else .ok
    { data := data
      base := base
      header := header
      frameN := (base - walHeaderSize) / frameSize header.pageSize
      chksum := seed }

/-- A reader of the whole log that starts at an offset.  The frame before must
belong to the log's generation. -/
def newAtOffset (data : Bytes) (offset : Nat) : Except WalError WalReader := do
  let header ← WalHeader.parse data
  if offset < walHeaderSize ∨
      (offset - walHeaderSize) % frameSize header.pageSize ≠ 0 then
    .error (.unalignedOffset offset)
  else do
    let frameN := (offset - walHeaderSize) / frameSize header.pageSize
    let chksum ←
      if frameN = 0 then .ok (header.checksum1, header.checksum2)
      else
        let prev := walHeaderSize + (frameN - 1) * frameSize header.pageSize
        if prev + walFrameHeaderSize > data.length then
          .error (.incomplete (prev + walFrameHeaderSize) data.length)
        else
          let before := WalFrameHeader.parse
            ((data.drop prev).take walFrameHeaderSize)
          if before.salt1 ≠ header.salt1 ∨ before.salt2 ≠ header.salt2 then
            .error .prevFrameMismatch
          else .ok (before.checksum1, before.checksum2)
    return {
      data := data
      base := 0
      header := header
      frameN := frameN
      chksum := chksum }

theorem newAtOffset_start {data : Bytes} {header : WalHeader}
    (parsed : WalHeader.parse data = .ok header) :
    newAtOffset data walHeaderSize = .ok
      { data := data
        base := 0
        header := header
        frameN := 0
        chksum := (header.checksum1, header.checksum2) } := by
  simp [newAtOffset, parsed, bind, Except.bind, pure, Except.pure]

theorem fromTail_frame (header : WalHeader) (data : Bytes) (index : Nat)
    (seed : Nat × Nat) :
    fromTail header data (frameOffset header.pageSize index) seed = .ok
      { data := data
        base := frameOffset header.pageSize index
        header := header
        frameN := index
        chksum := seed } := by
  rw [fromTail, frameOffset_index, if_neg]
  simp [frameOffset]

/-- The page of the frame at an offset of the log. -/
def pageDataAt (reader : WalReader) (offset : Nat) : Bytes :=
  (reader.data.drop (offset - reader.base + walFrameHeaderSize)).take
    reader.header.pageSize

/-- The next frame and its offset; `none` at the end of the valid log. -/
def readFrame (reader : WalReader) : Option ((Nat × Frame) × WalReader) :=
  let size := frameSize reader.header.pageSize
  let absolute := walHeaderSize + reader.frameN * size
  let offset := absolute - reader.base
  if offset + size > reader.data.length then none
  else
    let frame := (reader.data.drop offset).take size
    let header := WalFrameHeader.parse (frame.take walFrameHeaderSize)
    let page := frame.drop walFrameHeaderSize
    if header.salt1 ≠ reader.header.salt1 ∨
        header.salt2 ≠ reader.header.salt2 then none
    else
      let order := reader.header.byteOrder
      let half := walChecksum order reader.chksum.1 reader.chksum.2
        (frame.take 8)
      let whole := walChecksum order half.1 half.2 page
      if whole ≠ (header.checksum1, header.checksum2) then none
      else some ((absolute,
          { pgno := header.pgno
            commit := header.commit
            data := page }),
        { reader with
          chksum := whole
          frameN := reader.frameN + 1 })

/-- Read at most so many frames. -/
def readFrames : Nat → WalReader → List (Nat × Frame)
  | 0, _ => []
  | count + 1, reader =>
      match reader.readFrame with
      | none => []
      | some (entry, next) => entry :: next.readFrames count

/-- All frames: none is shorter than a byte. -/
def frames (reader : WalReader) : List (Nat × Frame) :=
  reader.readFrames reader.data.length

/-- Walk all frames. -/
def pageMap (reader : WalReader) : PageMap :=
  Literstream.pageMap reader.header.pageSize reader.frames

end WalReader

end Literstream
