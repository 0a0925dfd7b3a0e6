import Literstream.Ltx.Total
import Literstream.Ltx.Wire.Decoder
import Literstream.Ltx.Wire.RoundTrip

/-!
# A snapshot through the writer and the streaming reader

The writer makes LZ4 frames, which the streaming reader refuses.  Without a page
they differ in where the rolling checksum starts.
-/

namespace Literstream

namespace Wire

/-- The header of a snapshot of an image. -/
def snapshotHeader (pageSize commit : UInt32) (maxTxid : UInt64)
    (timestamp : Int64) : Header where
  flags := 0
  pageSize := pageSize
  commit := commit
  minTxid := 1
  maxTxid := maxTxid
  timestamp := timestamp
  preApplyChecksum := 0
  walOffset := 0
  walSize := 0
  walSalt1 := 0
  walSalt2 := 0
  nodeId := 0

/-- The pages of the image, as the writer counts them. -/
def snapshotCommit (pageSize : UInt32) (db : Bytes) : UInt32 :=
  UInt32.ofNat (db.length / pageSize.toNat)

/-- Encode the pages of a list of numbers, with the checksum of all of them. -/
def writeSnapshotPages (lz4 : Lz4) (header : Header) (db : Bytes) :
    List Nat → Encoder → Checksum → Except WireError (Encoder × Checksum)
  | [], encoder, post => .ok (encoder, post)
  | pgno :: rest, encoder, post =>
      if pgno = header.lockPgno.toNat then
        writeSnapshotPages lz4 header db rest encoder post
      else do
        let start := (pgno - 1) * header.pageSize.toNat
        let data ← slice db start (start + header.pageSize.toNat)
        let next ← encoder.encodePage lz4 (UInt32.ofNat pgno) data
        writeSnapshotPages lz4 header db rest next
          (checksumFlag ||| (post ^^^ checksumPage (UInt32.ofNat pgno) data))

/-- Write an image as one snapshot. -/
def writeSnapshot (lz4 : Lz4) (pageSize : UInt32) (db : Bytes)
    (maxTxid : UInt64) (timestamp : Int64) :
    Except WireError (Bytes × Trailer) :=
  if pageSize = 0 ∨ db.length % pageSize.toNat ≠ 0 then
    .error (.ltx (.wrongPageLength pageSize.toNat db.length))
  else do
    let commit := snapshotCommit pageSize db
    let header := snapshotHeader pageSize commit maxTxid timestamp
    let opened ← Encoder.new.encodeHeader header
    let (paged, post) ←
      writeSnapshotPages lz4 header db (List.range' 1 commit.toNat) opened 0
    let (trailer, closed) ← (paged.setPostApplyChecksum post).finish
    return (closed.w, trailer)

/-- Writing pages appends to what was written. -/
theorem writeSnapshotPages_wrote {lz4 : Lz4} {header : Header} {db : Bytes}
    {pgnos : List Nat} {encoder next : Encoder} {post final : Checksum}
    {pages : List WirePage}
    (wrote : encoder.Wrote lz4 header pages)
    (written : writeSnapshotPages lz4 header db pgnos encoder post =
      .ok (next, final)) :
    (∃ more, next.Wrote lz4 header more) ∧ encoder.w <+: next.w := by
  induction pgnos generalizing encoder post pages with
  | nil =>
      cases written
      exact ⟨⟨pages, wrote⟩, List.prefix_rfl⟩
  | cons pgno rest ih =>
      rw [writeSnapshotPages] at written
      split at written
      · exact ih wrote written
      · obtain ⟨data, _, written⟩ := bind_eq_ok.mp written
        obtain ⟨middle, encoded, written⟩ := bind_eq_ok.mp written
        obtain ⟨frame, _, _, _, appended⟩ :=
          Encoder.encodePage_eq_ok wrote.headerIs encoded
        obtain ⟨more, kept⟩ :=
          ih (Encoder.encodePage_wrote wrote encoded) written
        refine ⟨more, List.IsPrefix.trans ?_ kept⟩
        rw [appended]
        exact List.prefix_append _ _

namespace Decoder

/-- The decoder behind a header. -/
def opened (header : Header) (r : Bytes) : Decoder where
  r := r
  state := .page
  hash := Hasher.new.update header.encode
  header := some header
  rolling := if header.noChecksum then 0 else checksumFlag
  pageIndex := []
  trailer := none

theorem readExact_append {decoder : Decoder} {front back : Bytes}
    (whole : decoder.r = front ++ back) :
    decoder.readExact front.length =
      .ok (front, { decoder with r := back }) := by
  rw [readExact, if_pos (by rw [whole, List.length_append]; omega), whole,
    List.take_left, List.drop_left]

theorem decodeHeader_encode {header : Header} (rest : Bytes)
    (sized : isValidPageSize header.pageSize.toNat = true) :
    (new (header.encode ++ rest)).decodeHeader =
      .ok (header, opened header rest) := by
  have read := @readExact_append (new (header.encode ++ rest)) _ _ rfl
  have decoded := Header.decode_encode [] sized
  rw [List.append_nil] at decoded
  rw [Header.length_encode] at read
  rw [decodeHeader, if_neg (by simp [new]), read]
  change (Header.decode header.encode >>= _) = _
  rw [decoded]
  rfl

/-- A page that is a frame is refused. -/
theorem decodePage_frame {lz4 : Lz4} {header : Header} {decoder : Decoder}
    {pgno : UInt32} {rest data : Bytes}
    (headerIs : decoder.header = some header)
    (open_ : decoder.state = .page)
    (length : data.length = header.pageSize.toNat)
    (starts : decoder.r = PageHeader.encode ⟨pgno, 0⟩ ++ rest)
    (positive : pgno ≠ 0) :
    decoder.decodePage lz4 data = .error (.ltx .frameFormatUnsupported) := by
  have read := readExact_append starts
  have decoded := PageHeader.decode_encode ⟨pgno, 0⟩ []
  rw [List.append_nil] at decoded
  rw [PageHeader.length_encode] at read
  have present : ¬PageHeader.isZero ⟨pgno, 0⟩ = true := by
    simp [PageHeader.isZero, positive]
  have framed : ¬PageHeader.isBlockCompressed ⟨pgno, 0⟩ = true := by
    simp [PageHeader.isBlockCompressed]
  rw [decodePage, headerIs]
  simp only
  rw [if_neg (not_not.mpr length), if_neg (not_not.mpr open_), read]
  simp only [bind, Except.bind, decoded]
  rw [if_neg present, if_neg positive, if_neg framed]

/-- The decoder behind the zero page header of a file without pages. -/
def ended (header : Header) (r : Bytes) : Decoder :=
  { (opened header r).update (List.replicate pageHeaderSize 0) with
    state := .close }

/-- The zero page header ends the pages. -/
theorem decodePage_end {lz4 : Lz4} {header : Header} {rest data : Bytes}
    (length : data.length = header.pageSize.toNat) :
    (opened header (List.replicate pageHeaderSize 0 ++ rest)).decodePage lz4
        data =
      .ok (none, data, ended header rest) := by
  have read := @readExact_append
    (opened header (List.replicate pageHeaderSize 0 ++ rest)) _ _ rfl
  have decoded := PageHeader.decode_encode ⟨0, 0⟩ []
  have zeros :
      PageHeader.encode ⟨0, 0⟩ ++ [] = List.replicate pageHeaderSize 0 := by
    decide
  rw [zeros] at decoded
  rw [List.length_replicate] at read
  rw [decodePage]
  change (if _ then _ else if _ then _ else _) = _
  rw [if_neg (not_not.mpr length), if_neg (by simp [opened]), read]
  simp only [bind, Except.bind, decoded]
  rfl

/-- What stands behind the pages, when there are none: the checksum of the file
is right, the one of the image is compared. -/
theorem finish_empty {header : Header} {decoder : Decoder} {trailer : Trailer}
    {body : Bytes}
    (headerIs : decoder.header = some header)
    (ended : decoder.state = .close)
    (rest : decoder.r = body ++ trailer.encode)
    (empty : decodePageIndex body = .ok [])
    (checksum : trailer.fileChecksum =
      (decoder.hash.update
        (body ++ u64ToBe trailer.postApplyChecksum)).checksum)
    (tracked : header.isSnapshot = true ∧ header.noChecksum = false)
    (differs : trailer.postApplyChecksum ≠ decoder.rolling) :
    decoder.finish =
      .error (.postApplyChecksumMismatch trailer.postApplyChecksum
        decoder.rolling) := by
  have length : decoder.r.length = body.length + trailerSize := by
    rw [rest, List.length_append, Trailer.length_encode]
  have hashed : decoder.r.take (body.length + trailerSize - 8) =
      body ++ u64ToBe trailer.postApplyChecksum := by
    rw [rest, Trailer.encode, ← List.append_assoc]
    exact List.take_left' (by
      rw [List.length_append, length_u64ToBe]
      rfl)
  have front : decoder.r.take body.length = body := by
    rw [rest, List.take_left]
  have back : decoder.r.drop body.length = trailer.encode := by
    rw [rest, List.drop_left]
  rw [finish, headerIs]
  simp only
  rw [if_neg (by rw [ended]; decide), if_neg (not_not.mpr ended), length,
    if_neg (by omega), Nat.add_sub_cancel, hashed, front, back, empty,
    Trailer.decode_encode]
  simp only [bind, Except.bind]
  rw [if_neg (not_not.mpr checksum.symm),
    if_pos ⟨tracked.1, tracked.2, differs⟩]

end Decoder

theorem noChecksum_snapshotHeader (pageSize commit : UInt32)
    (maxTxid : UInt64) (timestamp : Int64) :
    (snapshotHeader pageSize commit maxTxid timestamp).noChecksum = false := by
  change ((0 : UInt32) &&& UInt32.ofNat headerFlagNoChecksum != 0) = false
  decide

theorem range'_one {count : Nat} (positive : count ≠ 0) :
    List.range' 1 count = 1 :: List.range' 2 (count - 1) := by
  obtain ⟨rest, rfl⟩ := Nat.exists_eq_succ_of_ne_zero positive
  rfl

theorem one_ne_lockPgno {header : Header}
    (sized : isValidPageSize header.pageSize.toNat = true) :
    1 ≠ header.lockPgno.toNat := by
  rw [Encoder.toNat_lockPgno]
  have large := two_le_lockPgno sized
  omega

/-- A written snapshot starts with its header and the header of page 1, or ends
behind its header. -/
theorem writeSnapshot_eq_ok {lz4 : Lz4} {pageSize : UInt32} {db bytes : Bytes}
    {maxTxid : UInt64} {timestamp : Int64} {trailer : Trailer}
    (written : writeSnapshot lz4 pageSize db maxTxid timestamp =
      .ok (bytes, trailer)) :
    ∃ header, header = snapshotHeader pageSize (snapshotCommit pageSize db)
        maxTxid timestamp ∧
      isValidPageSize header.pageSize.toNat = true ∧
      ((snapshotCommit pageSize db).toNat ≠ 0 ∧
          (∃ rest, bytes =
            header.encode ++ (PageHeader.encode ⟨1, 0⟩ ++ rest)) ∨
        (snapshotCommit pageSize db).toNat = 0 ∧
          bytes = header.encode ++ (tailBytes [] ++ trailer.encode) ∧
          trailer.postApplyChecksum = 0 ∧
          trailer.fileChecksum =
            ((Hasher.new.update header.encode).update
              (tailBytes [] ++ u64ToBe 0)).checksum) := by
  unfold writeSnapshot at written
  split at written
  · cases written
  · obtain ⟨opened, headed, written⟩ := bind_eq_ok.mp written
    obtain ⟨⟨paged, post⟩, paging, written⟩ := bind_eq_ok.mp written
    obtain ⟨⟨last, closed⟩, finished, returned⟩ := bind_eq_ok.mp written
    cases returned
    have wrote := @Encoder.encodeHeader_wrote lz4 _ _ headed
    obtain ⟨_, openedIs⟩ := Encoder.encodeHeader_eq_ok headed
    obtain ⟨header, headerIs⟩ : ∃ header, header = snapshotHeader pageSize
      (snapshotCommit pageSize db) maxTxid timestamp := ⟨_, rfl⟩
    rw [← headerIs] at wrote openedIs
    refine ⟨header, headerIs, wrote.sized, ?_⟩
    by_cases none : (snapshotCommit pageSize db).toNat = 0
    · rw [← headerIs, none] at paging
      cases paging
      obtain ⟨whole, _, post, checksum⟩ :=
        Encoder.finish_eq_ok (by rw [openedIs]; exact .nil) finished
      rw [openedIs] at whole checksum
      exact .inr ⟨none, whole, post, checksum⟩
    · rw [← headerIs, range'_one none, writeSnapshotPages,
        if_neg (one_ne_lockPgno wrote.sized)] at paging
      obtain ⟨data, _, paging⟩ := bind_eq_ok.mp paging
      obtain ⟨next, encoded, paging⟩ := bind_eq_ok.mp paging
      obtain ⟨frame, _, _, _, appended⟩ :=
        Encoder.encodePage_eq_ok wrote.headerIs encoded
      obtain ⟨⟨pages, pagedWrote⟩, rest, kept⟩ :=
        writeSnapshotPages_wrote (Encoder.encodePage_wrote wrote encoded) paging
      have listed := Encoder.call_wrote pagedWrote
        (rfl : paged.call lz4 (.setPostApplyChecksum post) = .ok _)
      obtain ⟨whole, _⟩ := Encoder.finish_eq_ok listed.index_ascending finished
      refine .inl ⟨none, frame ++ (rest ++ (tailBytes paged.index ++
        trailer.encode)), ?_⟩
      have start : paged.w = header.encode ++
          (PageHeader.encode ⟨1, 0⟩ ++ (frame ++ rest)) := by
        rw [← kept, appended, openedIs]
        exact (List.append_assoc _ _ _).trans
          (congrArg _ (List.append_assoc _ _ _))
      rw [whole]
      change paged.w ++ _ = _
      rw [start]
      simp only [List.append_assoc]
      rfl

/-- Reading stops at page 1 when it is a frame. -/
theorem readSnapshot_frame {lz4 : Lz4} {header : Header} {rest : Bytes}
    (sized : isValidPageSize header.pageSize.toNat = true)
    (snapshot : header.isSnapshot = true)
    (pages : header.commit.toNat ≠ 0) :
    readSnapshot lz4
        (header.encode ++ (PageHeader.encode ⟨1, 0⟩ ++ rest)) =
      .error (.ltx .frameFormatUnsupported) := by
  have refused := @Decoder.decodePage_frame lz4 header
    (Decoder.opened header (PageHeader.encode ⟨1, 0⟩ ++ rest)) 1 rest
    (List.replicate header.pageSize.toNat 0) rfl rfl List.length_replicate rfl
    (by decide)
  rw [readSnapshot, Decoder.decodeHeader_encode _ sized]
  simp only [bind, Except.bind]
  rw [if_neg (by rw [snapshot]; decide), range'_one pages, readSnapshotPages,
    if_neg (one_ne_lockPgno sized), refused]
  rfl

/-- Without pages the rolling checksum is still the one at the start. -/
theorem readSnapshot_empty {lz4 : Lz4} {header : Header} {trailer : Trailer}
    (sized : isValidPageSize header.pageSize.toNat = true)
    (snapshot : header.isSnapshot = true)
    (tracked : header.noChecksum = false)
    (none : header.commit.toNat = 0)
    (checksum : trailer.fileChecksum =
      ((Hasher.new.update header.encode).update
        (tailBytes [] ++ u64ToBe trailer.postApplyChecksum)).checksum)
    (differs : trailer.postApplyChecksum ≠ checksumFlag) :
    readSnapshot lz4 (header.encode ++ (tailBytes [] ++ trailer.encode)) =
      .error (.postApplyChecksumMismatch trailer.postApplyChecksum
        checksumFlag) := by
  obtain ⟨body, bodyIs⟩ : ∃ body, body = pageIndexBytes [] ++
    u64ToBe (UInt64.ofNat (pageIndexBytes []).length) := ⟨_, rfl⟩
  have tail : tailBytes [] = List.replicate pageHeaderSize 0 ++ body := by
    rw [tailBytes, bodyIs]
  have empty : decodePageIndex body = .ok [] := by
    rw [bodyIs]
    exact decodePageIndex_marker (readUvarint_encode 0 _)
  rw [tail, List.append_assoc] at checksum ⊢
  rw [← Hasher.update_append] at checksum
  have ended := @Decoder.decodePage_end lz4 header (body ++ trailer.encode)
    (List.replicate header.pageSize.toNat 0) List.length_replicate
  have rolling : (Decoder.ended header (body ++ trailer.encode)).rolling =
      checksumFlag := by
    change (if header.noChecksum then _ else _) = _
    rw [tracked]
    rfl
  have finished := @Decoder.finish_empty header
    (Decoder.ended header (body ++ trailer.encode)) trailer body rfl rfl rfl
    empty checksum ⟨snapshot, tracked⟩ (by rw [rolling]; exact differs)
  rw [readSnapshot, Decoder.decodeHeader_encode _ sized]
  simp only [bind, Except.bind]
  rw [if_neg (by rw [snapshot]; decide), none]
  simp only [List.range'_zero, readSnapshotPages]
  rw [ended]
  simp only
  rw [if_neg (by simp), finished, rolling]

/-- No snapshot that was written is read back: the first page is refused, and a
file without pages fails in its post-apply checksum. -/
theorem readSnapshot_writeSnapshot {lz4 : Lz4} {pageSize : UInt32}
    {db bytes : Bytes} {maxTxid : UInt64} {timestamp : Int64}
    {trailer : Trailer}
    (written : writeSnapshot lz4 pageSize db maxTxid timestamp =
      .ok (bytes, trailer)) :
    readSnapshot lz4 bytes =
      .error (if snapshotCommit pageSize db = 0 then
          .postApplyChecksumMismatch 0 checksumFlag
        else .ltx .frameFormatUnsupported) := by
  obtain ⟨header, headerIs, sized, found⟩ := writeSnapshot_eq_ok written
  have snapshot : header.isSnapshot = true := by
    rw [headerIs]
    rfl
  have tracked : header.noChecksum = false := by
    rw [headerIs]
    exact noChecksum_snapshotHeader _ _ _ _
  have commit : header.commit = snapshotCommit pageSize db := by
    rw [headerIs]
    rfl
  rw [← commit] at found ⊢
  rcases found with ⟨pages, rest, rfl⟩ | ⟨none, rfl, post, checksum⟩
  · have present : header.commit ≠ 0 := by
      intro zero
      rw [zero] at pages
      exact pages rfl
    rw [if_neg present, readSnapshot_frame sized snapshot pages]
  · have absent : header.commit = 0 := UInt32.toNat_inj.mp none
    rw [← post] at checksum
    rw [if_pos absent, readSnapshot_empty sized snapshot tracked none checksum
      (by rw [post]; decide), post]

/-- An image of one page is written and not read back. -/
theorem writeSnapshot_one_page :
    ∃ bytes trailer,
      writeSnapshot storedLz4 512 countingPage 1 0 = .ok (bytes, trailer) ∧
        ∀ snapshot, readSnapshot storedLz4 bytes ≠ .ok snapshot := by
  have accepted :
      (writeSnapshot storedLz4 512 countingPage 1 0).isOk = true := by
    decide +kernel
  have refused :
      ((writeSnapshot storedLz4 512 countingPage 1 0).bind fun written =>
        readSnapshot storedLz4 written.1).isOk = false := by
    decide +kernel
  obtain ⟨⟨bytes, trailer⟩, ran⟩ := exists_of_isOk accepted
  refine ⟨bytes, trailer, ran, ?_⟩
  intro snapshot read
  rw [ran] at refused
  change (readSnapshot storedLz4 bytes).isOk = false at refused
  rw [read] at refused
  cases refused

theorem readSnapshot_writeSnapshot_small :
    (∃ bytes trailer,
      writeSnapshot storedLz4 512 [] 1 0 = .ok (bytes, trailer) ∧
        readSnapshot storedLz4 bytes =
          .error (.postApplyChecksumMismatch 0 checksumFlag)) ∧
      ∃ bytes trailer,
        writeSnapshot storedLz4 512 countingPage 1 0 = .ok (bytes, trailer) ∧
          readSnapshot storedLz4 bytes =
            .error (.ltx .frameFormatUnsupported) := by
  have noPage : (writeSnapshot storedLz4 512 [] 1 0).isOk = true := by
    decide +kernel
  have onePage : (writeSnapshot storedLz4 512 countingPage 1 0).isOk =
      true := by
    decide +kernel
  obtain ⟨⟨bytes, trailer⟩, ran⟩ := exists_of_isOk noPage
  obtain ⟨⟨others, last⟩, wrote⟩ := exists_of_isOk onePage
  have pages : snapshotCommit 512 countingPage ≠ 0 := by decide +kernel
  have refused := readSnapshot_writeSnapshot wrote
  rw [if_neg pages] at refused
  exact ⟨⟨bytes, trailer, ran, readSnapshot_writeSnapshot ran⟩,
    others, last, wrote, refused⟩

end Wire

end Literstream
