import Literstream.Sync.Build
import Literstream.Restore.Apply

/-!
# What a built file captures

A replica is aligned with the database when the frames from the recorded
position on, put on top of the replica's image, give the committed image.  The
next file built from an aligned position carries the replica to that image.
-/

namespace Literstream

open PagedFile

/-- The first frame of the WAL that the next incremental file reads. -/
def Wal.captured (pageSize : Nat) (wal : Wal) (pos : Position) : Nat :=
  if wal.salt1 = pos.salt1 ∧ wal.salt2 = pos.salt2 then
    (pos.walOffset - walHeaderSize) / frameSize pageSize
  else 0

/-- The position is at the end of the WAL. -/
def AtEnd (pageSize : Nat) (pos : Position) (db : Sqlite) : Prop :=
  ∀ wal, db.wal = some wal →
    wal.captured pageSize pos = wal.frames.length

/-- The position names a frame of the WAL. -/
structure OnFrame (pageSize : Nat) (pos : Position) (wal : Wal) : Prop where
  inside : wal.captured pageSize pos ≤ wal.frames.length
  offset : wal.salt1 = pos.salt1 ∧ wal.salt2 = pos.salt2 →
    pos.walOffset = frameOffset pageSize (wal.captured pageSize pos)

/-- The replica's image and the frames not captured yet give the committed
image. -/
def Aligned (pageSize : Nat) (image : Bytes) (pos : Position) (db : Sqlite) :
    Prop :=
  match db.wal with
  | none => image = db.main
  | some wal => OnFrame pageSize pos wal ∧
      overlay pageSize image
          (wal.frames.drop (wal.captured pageSize pos)) =
        db.committedImage pageSize

/-- What a staged file records of itself. -/
structure StagedOk (pageSize : Nat) (pos : Position) (staged : StagedFile)
    (file : LtxFile) : Prop where
  key : staged.key = ⟨level0, pos.txid + 1, pos.txid + 1⟩
  txid : staged.newPos.txid = pos.txid + 1
  pageSize : file.header.pageSize = pageSize
  offset : file.header.walOffset + file.header.walSize =
    staged.newPos.walOffset
  salt1 : file.header.walSalt1 = staged.newPos.salt1
  salt2 : file.header.walSalt2 = staged.newPos.salt2

section Applying

variable {pageSize : Nat} {image : Bytes} {file : LtxFile}

theorem pageOf_applyFile (positive : 0 < pageSize)
    (ok : ImageOk pageSize image) (sized : file.header.pageSize = pageSize)
    {pgno : Nat} (inFile : 1 ≤ pgno) (inside : pgno ≤ file.header.commit) :
    pageOf pageSize (applyFile image file) pgno =
      (file.page? pgno).getD (pageOf pageSize image pgno) := by
  have length := length_applyFile image file
  rw [sized] at length
  rw [pageOf, pageCount_of_length positive length, if_pos ⟨inFile, inside⟩]
  subst sized
  cases found : file.page? pgno with
  | some data => exact pageAt_applyFile_of_some image found
  | none =>
      rw [pageAt_applyFile_of_none image inFile inside found,
        pageAt_setLen ok.whole inFile inside, Option.getD_none, pageOf]
      by_cases old : pgno ≤ pageCount file.header.pageSize image
      · rw [if_pos old, if_pos ⟨inFile, old⟩]
      · rw [if_neg old, if_neg (by omega)]

theorem pageCount_applyFile (positive : 0 < pageSize)
    (sized : file.header.pageSize = pageSize) :
    pageCount pageSize (applyFile image file) = file.header.commit := by
  have length := length_applyFile image file
  rw [sized] at length
  exact pageCount_of_length positive length

theorem LtxFile.page?_lock (sized : file.header.pageSize = pageSize) :
    file.page? (lockPgno pageSize) = none := by
  rw [file.page?_eq_none_iff]
  intro data member
  apply (file.pagesOk _ member).2.2.1
  rw [sized]

theorem ImageOk.applyFile (positive : 0 < pageSize)
    (ok : ImageOk pageSize image) (sized : file.header.pageSize = pageSize) :
    ImageOk pageSize (applyFile image file) := by
  have count := @pageCount_applyFile pageSize image file positive sized
  have length := length_applyFile image file
  rw [sized] at length
  constructor
  · rw [count]
    exact length
  · intro inside
    rw [count] at inside
    have page := pageOf_applyFile positive ok sized (lockPgno_pos pageSize)
      inside
    rw [LtxFile.page?_lock sized, Option.getD_none, ok.pageOf_lock] at page
    rw [← page, pageOf, count, if_pos ⟨lockPgno_pos pageSize, inside⟩]

/-- A file that holds what frames hold acts like them. -/
theorem applyFile_eq_overlay (positive : 0 < pageSize)
    (ok : ImageOk pageSize image) (sized : file.header.pageSize = pageSize)
    {frames : List Frame} (framesOk : FramesOk pageSize frames)
    (nonempty : frames ≠ []) (commit : file.header.commit = commitOf frames)
    (pages : ∀ pgno, pgno ≤ commitOf frames →
      file.page? pgno = newest frames pgno) :
    applyFile image file = overlay pageSize image frames := by
  have count := @pageCount_applyFile pageSize image file positive sized
  apply (ok.applyFile positive sized).ext (ok.overlay positive framesOk)
  · rw [count, pageCount_overlay positive ok framesOk nonempty, commit]
  · intro pgno inFile inside
    rw [count] at inside
    rw [pageOf_applyFile positive ok sized inFile inside]
    rw [commit] at inside
    rw [pageOf_overlay positive ok framesOk nonempty inFile inside,
      pages pgno inside]

end Applying

section Building

variable {pageSize : Nat} {now : Int} {pos : Position} {db : Sqlite}

theorem readTail_eq_ok {wal : Wal} {offset : Nat}
    {entries : List (Nat × Frame)}
    (read : readTail pageSize wal offset = .ok entries) :
    ∃ index, offset = frameOffset pageSize index ∧
      index ≤ wal.frames.length ∧
      entries = locate pageSize index (wal.frames.drop index) := by
  unfold readTail at read
  dsimp only at read
  split at read
  · cases read
  · rename_i aligned
    split at read
    · cases read
    · rename_i inside
      cases read
      refine ⟨_, ?_, Nat.le_of_not_lt inside, rfl⟩
      rw [not_or, not_lt, not_not] at aligned
      have whole := Nat.div_add_mod (offset - walHeaderSize)
        (frameSize pageSize)
      rw [aligned.2, Nat.add_zero, Nat.mul_comm] at whole
      rw [frameOffset, whole]
      omega

theorem frameOffset_injective {left right : Nat}
    (same : frameOffset pageSize left = frameOffset pageSize right) :
    left = right := by
  rw [← frameOffset_index pageSize left, same, frameOffset_index]

theorem pageMap_isEmpty {index : Nat} {frames : List Frame}
    (ok : FramesOk pageSize frames) :
    (pageMap pageSize (locate pageSize index frames)).pages.isEmpty = true ↔
      frames = [] := by
  constructor
  · intro empty
    by_contra nonempty
    obtain ⟨last, isLast⟩ : ∃ last, frames.getLast? = some last :=
      ⟨_, List.getLast?_eq_some_getLast nonempty⟩
    obtain ⟨_, _, pages⟩ := @pageMap_committed pageSize index _ ok nonempty
    have none_ := pages last.pgno
    have size : commitOf frames = last.commit := by simp [commitOf, isLast]
    rw [Std.ExtTreeMap.isEmpty_iff.mp empty, size,
      if_pos (ok.commits last isLast).2] at none_
    have absent := newestEntry_data pageSize index frames last.pgno
    rw [Std.ExtTreeMap.getElem?_empty, eq_comm, Option.map_eq_none_iff] at none_
    rw [none_, Option.map_none, eq_comm, newest_eq_none] at absent
    exact absent last (List.mem_of_getLast? isLast) rfl
  · rintro rfl
    rfl

/-- An incremental file from a frame on: nothing when there is no further frame,
else exactly the further frames. -/
theorem buildIncremental_spec {wal : Wal} {salt1 salt2 index : Nat}
    {result : Option (StagedFile × LtxFile)}
    (framesOk : FramesOk pageSize wal.frames)
    (built : buildIncremental pageSize now pos wal (frameOffset pageSize index)
      salt1 salt2 = .ok result) :
    match result with
    | none => wal.frames.drop index = []
    | some (staged, file) =>
        wal.frames.drop index ≠ [] ∧
        staged.newPos.salt1 = salt1 ∧ staged.newPos.salt2 = salt2 ∧
        staged.newPos.walOffset =
          frameOffset pageSize wal.frames.length ∧
        file.header.commit = commitOf (wal.frames.drop index) ∧
        ∀ pgno, pgno ≤ commitOf (wal.frames.drop index) →
          file.page? pgno = newest (wal.frames.drop index) pgno := by
  rw [buildIncremental, bind_eq_ok] at built
  obtain ⟨entries, read, built⟩ := built
  obtain ⟨found, same, inside, rfl⟩ := readTail_eq_ok read
  obtain rfl := frameOffset_injective same
  have tailOk := framesOk.drop index
  dsimp only at built
  split at built
  · rename_i empty
    cases built
    exact (pageMap_isEmpty tailOk).mp empty
  · rename_i nonempty
    have tailNonempty : wal.frames.drop index ≠ [] := by
      intro empty
      exact nonempty ((pageMap_isEmpty tailOk).mpr empty)
    obtain ⟨commit, endOffset, _⟩ :=
      @pageMap_committed pageSize index _ tailOk tailNonempty
    have ends : frameOffset pageSize index +
        ((pageMap pageSize (locate pageSize index
          (wal.frames.drop index))).endOffset -
            frameOffset pageSize index) =
        frameOffset pageSize wal.frames.length := by
      rw [endOffset, List.length_drop, Nat.add_sub_cancel' inside]
      apply Nat.add_sub_cancel'
      exact Nat.add_le_add_left (Nat.mul_le_mul_right _ inside) _
    rw [bind_eq_ok] at built
    obtain ⟨file, encoded, built⟩ := built
    cases built
    obtain ⟨header, pages⟩ := encodeFile_eq_ok (liftLtx_eq_ok.mp encoded)
    refine ⟨tailNonempty, rfl, rfl, ends, by rw [header]; exact commit, ?_⟩
    intro pgno inFile
    have members := mem_mapPages tailOk tailNonempty pgno
    rw [← pages] at members
    cases held : newest (wal.frames.drop index) pgno with
    | some data =>
        exact file.page?_eq_some_iff.mpr ((members data).mpr ⟨inFile, held⟩)
    | none =>
        rw [file.page?_eq_none_iff]
        intro data member
        rw [((members data).mp member).2] at held
        cases held

theorem encodeSnapshot_eq_ok {map : PageMap} {pgnos : List Nat}
    {encoder written : Encoder}
    (encoded : encodeSnapshot pageSize db map pgnos encoder = .ok written) :
    written.header = encoder.header ∧
      ∃ pages, written.pages = encoder.pages ++ pages ∧
        (∀ page ∈ pages, page.1 ∈ pgnos ∧
          snapshotPage pageSize db map page.1 = .ok page.2) ∧
        ∀ pgno ∈ pgnos, ∃ data, (pgno, data) ∈ pages := by
  induction pgnos generalizing encoder with
  | nil =>
      cases encoded
      exact ⟨rfl, [], by simp, by simp, by simp⟩
  | cons pgno rest ih =>
      rw [encodeSnapshot, bind_eq_ok] at encoded
      obtain ⟨data, read, encoded⟩ := encoded
      rw [bind_eq_ok] at encoded
      obtain ⟨next, first, encoded⟩ := encoded
      obtain ⟨nextHeader, nextPages⟩ :=
        Encoder.encodePage_eq_ok (liftLtx_eq_ok.mp first)
      obtain ⟨header, pages, all, sound, complete⟩ := ih encoded
      refine ⟨header.trans nextHeader, (pgno, data) :: pages, ?_, ?_, ?_⟩
      · rw [all, nextPages, List.append_assoc]
        rfl
      · intro page member
        rcases List.mem_cons.mp member with rfl | later
        · exact ⟨List.mem_cons_self, read⟩
        · exact ⟨List.mem_cons_of_mem _ (sound page later).1,
            (sound page later).2⟩
      · intro other member
        rcases List.mem_cons.mp member with rfl | later
        · exact ⟨data, List.mem_cons_self⟩
        · obtain ⟨found, inside⟩ := complete other later
          exact ⟨found, List.mem_cons_of_mem _ inside⟩

theorem mem_snapshotPgnos {commit pgno : Nat} :
    pgno ∈ snapshotPgnos pageSize commit ↔
      1 ≤ pgno ∧ pgno ≤ commit ∧ pgno ≠ lockPgno pageSize := by
  simp only [snapshotPgnos, List.mem_filter, List.mem_map, List.mem_range,
    decide_eq_true_eq]
  constructor
  · rintro ⟨⟨index, below, rfl⟩, notLock⟩
    exact ⟨Nat.le_add_left 1 _, below, notLock⟩
  · rintro ⟨inFile, inside, notLock⟩
    exact ⟨⟨pgno - 1, by omega, by omega⟩, notLock⟩

/-- The frames that a snapshot reads are all frames of the WAL. -/
theorem snapshotEntries {entries : List (Nat × Frame)}
    (read : walEntries pageSize db walHeaderSize = .ok entries) :
    entries = locate pageSize 0 db.frames := by
  unfold walEntries at read
  unfold Sqlite.frames
  cases present : db.wal with
  | none =>
      rw [present] at read
      cases read
      rfl
  | some wal =>
      rw [present] at read
      obtain ⟨index, start, _, rfl⟩ := readTail_eq_ok read
      have first : index = 0 := by
        apply @frameOffset_injective pageSize
        rw [← start, frameOffset, Nat.zero_mul, Nat.add_zero]
      subst first
      rfl

/-- The contents that a snapshot gives to a page. -/
theorem snapshotPage_eq_ok {pgno : Nat} {data : Bytes}
    (positive : 0 < pageSize) (ok : Readable pageSize db) (inFile : 1 ≤ pgno)
    (inside : db.frames ≠ [] → pgno ≤ commitOf db.frames)
    (read : snapshotPage pageSize db
      (pageMap pageSize (locate pageSize 0 db.frames)) pgno = .ok data) :
    data = (newest db.frames pgno).getD (pageOf pageSize db.main pgno) := by
  have members : ∀ data, (pgno, data) ∈ mapPages pageSize db.frames
      (pageMap pageSize (locate pageSize 0 db.frames)) ↔
        newest db.frames pgno = some data := by
    intro data
    by_cases empty : db.frames = []
    · simp [empty, locate, pageMap_nil, mem_mapPages_iff, newest]
    · have drop := @mem_mapPages pageSize 0 db.frames ok.frames empty pgno data
      rw [List.drop_zero] at drop
      rw [drop]
      exact ⟨fun both => both.2, fun found => ⟨inside empty, found⟩⟩
  unfold snapshotPage at read
  split at read
  · rename_i offset mapped
    cases read
    rw [(members _).mp (mem_mapPages_iff.mpr ⟨offset, mapped, rfl⟩)]
    rfl
  · rename_i unmapped
    have absent : newest db.frames pgno = none := by
      cases found : newest db.frames pgno with
      | none => rfl
      | some other =>
          obtain ⟨offset, mapped, _⟩ :=
            mem_mapPages_iff.mp ((members other).mpr found)
          rw [unmapped] at mapped
          cases mapped
    split at read
    · rename_i whole
      cases read
      have below : pgno ≤ pageCount pageSize db.main :=
        (Nat.le_div_iff_mul_le positive).mpr whole
      rw [absent, Option.getD_none, pageOf, if_pos ⟨inFile, below⟩]
    · cases read

theorem buildSnapshot_eq_ok {offset : Nat} {staged : StagedFile}
    {file : LtxFile}
    (built : buildSnapshot pageSize now pos db offset = .ok (staged, file)) :
    ∃ entries commit encoder written,
      walEntries pageSize db offset = .ok entries ∧
      commit = (if (pageMap pageSize entries).commit > 0 then
        (pageMap pageSize entries).commit else db.main.length / pageSize) ∧
      Encoder.encodeHeader (noChecksumHeader pageSize commit (pos.txid + 1)
        (pos.txid + 1) now offset
        ((pageMap pageSize entries).endOffset - offset)
        ((db.wal.map Wal.salt1).getD 0) ((db.wal.map Wal.salt2).getD 0)) =
          .ok encoder ∧
      encodeSnapshot pageSize db (pageMap pageSize entries)
        (snapshotPgnos pageSize commit) encoder = .ok written ∧
      file = written.finish ∧
      staged =
        { outcome := .snapshot (pos.txid + 1) commit
          key := ⟨level0, pos.txid + 1, pos.txid + 1⟩
          newPos :=
            { txid := pos.txid + 1
              walOffset := offset +
                ((pageMap pageSize entries).endOffset - offset)
              salt1 := (db.wal.map Wal.salt1).getD 0
              salt2 := (db.wal.map Wal.salt2).getD 0
              syncedToWalEnd := offset +
                ((pageMap pageSize entries).endOffset - offset) ≥
                  (db.wal.map (Wal.size pageSize)).getD 0 } } := by
  rw [buildSnapshot, bind_eq_ok] at built
  obtain ⟨entries, read, built⟩ := built
  dsimp only at built
  rw [bind_eq_ok] at built
  obtain ⟨encoder, opened, built⟩ := built
  rw [bind_eq_ok] at built
  obtain ⟨written, encoded, built⟩ := built
  cases built
  exact ⟨entries, _, encoder, written, read, rfl, liftLtx_eq_ok.mp opened,
    encoded, rfl, rfl⟩

theorem buildSnapshot_staged {offset : Nat} {staged : StagedFile}
    {file : LtxFile}
    (built : buildSnapshot pageSize now pos db offset = .ok (staged, file)) :
    StagedOk pageSize pos staged file := by
  obtain ⟨entries, commit, encoder, written, _, _, opened, encoded, rfl, rfl⟩ :=
    buildSnapshot_eq_ok built
  have header : written.finish.header = _ :=
    (encodeSnapshot_eq_ok encoded).1.trans (Encoder.encodeHeader_eq_ok opened).1
  exact ⟨rfl, rfl, by rw [header]; rfl, by rw [header]; rfl,
    by rw [header]; rfl, by rw [header]; rfl⟩

theorem buildIncremental_eq_ok {wal : Wal} {offset salt1 salt2 : Nat}
    {staged : StagedFile} {file : LtxFile}
    (built : buildIncremental pageSize now pos wal offset salt1 salt2 =
      .ok (some (staged, file))) :
    ∃ entries walSize,
      readTail pageSize wal offset = .ok entries ∧
        walSize = (pageMap pageSize entries).endOffset - offset ∧
        encodeFile
          (noChecksumHeader pageSize (pageMap pageSize entries).commit
            (pos.txid + 1) (pos.txid + 1) now offset walSize salt1 salt2)
          (mapPages pageSize wal.frames (pageMap pageSize entries)) =
            .ok file ∧
        staged =
          { outcome := .incremental (pos.txid + 1)
              (mapPages pageSize wal.frames (pageMap pageSize entries)).length
            key := ⟨level0, pos.txid + 1, pos.txid + 1⟩
            newPos :=
              { txid := pos.txid + 1
                walOffset := offset + walSize
                salt1 := salt1
                salt2 := salt2
                syncedToWalEnd := offset + walSize ≥ wal.size pageSize } } := by
  rw [buildIncremental, bind_eq_ok] at built
  obtain ⟨entries, read, built⟩ := built
  dsimp only at built
  split at built
  · cases built
  · rw [bind_eq_ok] at built
    obtain ⟨_, encoded, built⟩ := built
    cases built
    exact ⟨entries, _, read, rfl, liftLtx_eq_ok.mp encoded, rfl⟩

theorem buildIncremental_staged {wal : Wal} {offset salt1 salt2 : Nat}
    {staged : StagedFile} {file : LtxFile}
    (built : buildIncremental pageSize now pos wal offset salt1 salt2 =
      .ok (some (staged, file))) :
    StagedOk pageSize pos staged file := by
  obtain ⟨_, _, _, _, encoded, rfl⟩ := buildIncremental_eq_ok built
  have header := (encodeFile_eq_ok encoded).1
  exact ⟨rfl, rfl, by rw [header]; rfl, by rw [header]; rfl,
    by rw [header]; rfl, by rw [header]; rfl⟩

theorem buildUnderLock_cases {staged : StagedFile} {file : LtxFile}
    (built : buildUnderLock pageSize now pos db = .ok (some (staged, file))) :
    (∃ offset, buildSnapshot pageSize now pos db offset =
        .ok (staged, file)) ∨
      ∃ wal offset salt1 salt2, buildIncremental pageSize now pos wal offset
        salt1 salt2 = .ok (some (staged, file)) := by
  unfold buildUnderLock at built
  split at built
  · cases built
  · rename_i offset _
    cases snapshot : buildSnapshot pageSize now pos db offset with
    | error error =>
        rw [snapshot] at built
        cases built
    | ok result =>
        rw [snapshot] at built
        cases built
        exact .inl ⟨offset, snapshot⟩
  · exact .inr ⟨_, _, _, _, built⟩
  · cases built

theorem buildUnderLock_staged {staged : StagedFile} {file : LtxFile}
    (built : buildUnderLock pageSize now pos db = .ok (some (staged, file))) :
    StagedOk pageSize pos staged file := by
  rcases buildUnderLock_cases built with
    ⟨_, snapshot⟩ | ⟨_, _, _, _, incremental⟩
  · exact buildSnapshot_staged snapshot
  · exact buildIncremental_staged incremental

/-- What holds of a file that captures the whole database. -/
structure Capturing (pageSize : Nat) (db : Sqlite) (image : Bytes)
    (staged : StagedFile) (file : LtxFile) : Prop where
  image : applyFile image file = db.committedImage pageSize
  salt1 : staged.newPos.salt1 = (db.wal.map Wal.salt1).getD 0
  salt2 : staged.newPos.salt2 = (db.wal.map Wal.salt2).getD 0
  offset : staged.newPos.walOffset =
    frameOffset pageSize db.frames.length

/-- A snapshot carries any image to the committed one. -/
theorem buildSnapshot_spec {staged : StagedFile} {file : LtxFile}
    {image : Bytes} (positive : 0 < pageSize) (ok : Readable pageSize db)
    (imageOk : ImageOk pageSize image)
    (built : buildSnapshot pageSize now pos db walHeaderSize =
      .ok (staged, file)) :
    Capturing pageSize db image staged file := by
  have sized := (buildSnapshot_staged built).pageSize
  obtain ⟨entries, commit, encoder, written, read, size, opened, encoded, rfl,
    rfl⟩ := buildSnapshot_eq_ok built
  obtain rfl := snapshotEntries read
  obtain ⟨openedHeader, openedPages⟩ := Encoder.encodeHeader_eq_ok opened
  obtain ⟨header, pages, all, sound, complete⟩ := encodeSnapshot_eq_ok encoded
  rw [openedPages, List.nil_append] at all
  have total : commit = pageCount pageSize (db.committedImage pageSize) ∧
      walHeaderSize + ((pageMap pageSize
        (locate pageSize 0 db.frames)).endOffset - walHeaderSize) =
        frameOffset pageSize db.frames.length := by
    by_cases empty : db.frames = []
    · simp [size, empty, locate, pageMap_nil, Sqlite.committedImage, overlay,
        pageCount, frameOffset]
    · obtain ⟨lastCommit, endOffset, _⟩ :=
        @pageMap_committed pageSize 0 _ ok.frames empty
      have committed : commitOf db.frames > 0 := commitOf_pos ok.frames empty
      rw [size, lastCommit, if_pos committed, endOffset, Nat.zero_add,
        Sqlite.committedImage,
        pageCount_overlay positive ok.main ok.frames empty]
      exact ⟨rfl, Nat.add_sub_cancel' (Nat.le_add_right _ _)⟩
  have committedOk : ImageOk pageSize (db.committedImage pageSize) :=
    ok.main.overlay positive ok.frames
  have commitSize : written.finish.header.commit = commit := by
    change written.header.commit = commit
    rw [header, openedHeader]
    rfl
  have count := @pageCount_applyFile pageSize image written.finish positive
    sized
  rw [commitSize] at count
  refine ⟨?_, rfl, rfl, total.2⟩
  apply (imageOk.applyFile positive sized).ext committedOk
  · rw [count, total.1]
  · intro pgno inFile inside
    rw [count] at inside
    by_cases lock : pgno = lockPgno pageSize
    · subst lock
      rw [(imageOk.applyFile positive sized).pageOf_lock,
        committedOk.pageOf_lock]
    · rw [pageOf_applyFile positive imageOk sized inFile
        (by rw [commitSize]; exact inside)]
      obtain ⟨data, member⟩ :=
        complete pgno (mem_snapshotPgnos.mpr ⟨inFile, inside, lock⟩)
      have held : written.finish.page? pgno = some data := by
        rw [LtxFile.page?_eq_some_iff]
        change (pgno, data) ∈ written.pages
        rw [all]
        exact member
      have within : db.frames ≠ [] → pgno ≤ commitOf db.frames := by
        intro nonempty
        rw [total.1, Sqlite.committedImage,
          pageCount_overlay positive ok.main ok.frames nonempty] at inside
        exact inside
      have same : data =
          (newest db.frames pgno).getD (pageOf pageSize db.main pgno) :=
        snapshotPage_eq_ok positive ok inFile within (sound _ member).2
      rw [held, Option.getD_some, same]
      by_cases empty : db.frames = []
      · rw [Sqlite.committedImage, empty]
        rfl
      · rw [Sqlite.committedImage, pageOf_overlay positive ok.main ok.frames
          empty inFile (within empty)]

/-- The place where `plan` lets an incremental file start is the first frame
that is not captured. -/
theorem plan_incremental {wal : Wal} {offset salt1 salt2 : Nat}
    (onFrame : OnFrame pageSize pos wal)
    (planned : plan pageSize pos (some wal) =
      .incremental offset salt1 salt2) :
    offset = frameOffset pageSize (wal.captured pageSize pos) ∧
      salt1 = wal.salt1 ∧ salt2 = wal.salt2 := by
  simp only [plan] at planned
  split at planned
  · cases planned
  · split at planned
    · rename_i restarted
      cases planned
      have changed : ¬ (wal.salt1 = pos.salt1 ∧ wal.salt2 = pos.salt2) := by
        intro same
        rcases restarted with beyond | changed
        · rw [onFrame.offset same] at beyond
          have inside : frameOffset pageSize (wal.captured pageSize pos) ≤
              wal.size pageSize :=
            Nat.add_le_add_left (Nat.mul_le_mul_right _
              (Nat.le_trans onFrame.inside (Nat.le_add_right _ _))) _
          omega
        · exact changed same
      rw [Wal.captured, if_neg changed, frameOffset, Nat.zero_mul]
      exact ⟨rfl, rfl, rfl⟩
    · rename_i same
      cases planned
      rw [not_or, not_not] at same
      exact ⟨onFrame.offset same.2, same.2.1.symm, same.2.2.symm⟩

/-- From an aligned position, or without any position yet, the next file
captures the whole database; no file means that there is nothing to capture. -/
theorem buildUnderLock_spec {image : Bytes}
    {result : Option (StagedFile × LtxFile)} (positive : 0 < pageSize)
    (ok : DbOk pageSize db) (imageOk : ImageOk pageSize image)
    (start : pos.txid = 0 ∨ Aligned pageSize image pos db)
    (built : buildUnderLock pageSize now pos db = .ok result) :
    match result with
    | none => pos.txid ≠ 0 ∧ image = db.committedImage pageSize ∧
        AtEnd pageSize pos db
    | some (staged, file) => Capturing pageSize db image staged file := by
  have snapshots : ∀ staged file,
      buildSnapshot pageSize now pos db walHeaderSize = .ok (staged, file) →
      Capturing pageSize db image staged file :=
    fun _ _ => buildSnapshot_spec positive ok.readable imageOk
  have snapshot : (buildSnapshot pageSize now pos db walHeaderSize).map some =
      .ok result →
      ∃ staged file, result = some (staged, file) ∧
        Capturing pageSize db image staged file := by
    intro mapped
    cases snapshot : buildSnapshot pageSize now pos db walHeaderSize with
    | error error =>
        rw [snapshot] at mapped
        cases mapped
    | ok pair =>
        rw [snapshot] at mapped
        cases mapped
        exact ⟨pair.1, pair.2, rfl, snapshots _ _ snapshot⟩
  unfold buildUnderLock at built
  cases present : db.wal with
  | none =>
      rw [present] at built
      by_cases first : pos.txid = 0
      · simp only [plan, first, if_true] at built
        obtain ⟨staged, file, rfl, capturing⟩ := snapshot built
        exact capturing
      · by_cases synced : pos.syncedToWalEnd = true
        · simp only [plan, first, synced, if_false, if_true] at built
          cases built
          have aligned := start.resolve_left first
          simp only [Aligned, present] at aligned
          refine ⟨first, ?_, ?_⟩
          · rw [aligned, Sqlite.committedImage,
              Sqlite.frames_of_none present]
            rfl
          · intro wal impossible
            rw [present] at impossible
            cases impossible
        · simp only [plan, first, synced, if_false] at built
          obtain ⟨staged, file, rfl, capturing⟩ := snapshot built
          exact capturing
  | some wal =>
      rw [present] at built
      by_cases first : pos.txid = 0
      · simp only [plan, first, if_true] at built
        obtain ⟨staged, file, rfl, capturing⟩ := snapshot built
        exact capturing
      · have aligned := start.resolve_left first
        simp only [Aligned, present] at aligned
        obtain ⟨onFrame, onTop⟩ := aligned
        have framesOk := ok.frames
        rw [Sqlite.frames_of_wal present] at framesOk
        cases planned : plan pageSize pos (some wal) with
        | skip =>
            simp only [plan, first, if_false] at planned
            split at planned <;> cases planned
        | snapshot offset =>
            simp only [plan, first, if_false] at planned
            split at planned <;> cases planned
        | incremental offset salt1 salt2 =>
            rw [planned] at built
            obtain ⟨rfl, rfl, rfl⟩ := plan_incremental onFrame planned
            have spec := buildIncremental_spec framesOk built
            cases result with
            | none =>
                rw [spec] at onTop
                refine ⟨first, onTop, ?_⟩
                intro other otherWal
                rw [present] at otherWal
                cases otherWal
                have bound := onFrame.inside
                rw [List.drop_eq_nil_iff] at spec
                omega
            | some pair =>
                obtain ⟨nonempty, salt1, salt2, offset, commit, pages⟩ := spec
                have sized := (buildIncremental_staged built).pageSize
                refine ⟨?_, ?_, ?_, ?_⟩
                · rw [← onTop]
                  exact applyFile_eq_overlay positive imageOk sized
                    (framesOk.drop _) nonempty commit pages
                · rw [salt1, present]
                  rfl
                · rw [salt2, present]
                  rfl
                · rw [offset, Sqlite.frames_of_wal present]

/-- After uploading a file that captures the database, the replica is aligned
with it. -/
theorem Capturing.aligned {image : Bytes} {staged : StagedFile}
    {file : LtxFile} (capturing : Capturing pageSize db image staged file) :
    Aligned pageSize (applyFile image file) staged.newPos db ∧
      AtEnd pageSize staged.newPos db := by
  have ending : ∀ wal, db.wal = some wal →
      wal.captured pageSize staged.newPos = wal.frames.length := by
    intro wal present
    have salt1 := capturing.salt1
    have salt2 := capturing.salt2
    rw [present] at salt1 salt2
    rw [Wal.captured, if_pos ⟨salt1.symm, salt2.symm⟩, capturing.offset,
      frameOffset_index, Sqlite.frames_of_wal present]
  refine ⟨?_, ending⟩
  unfold Aligned
  split
  · rename_i absent
    rw [capturing.image, Sqlite.committedImage, Sqlite.frames_of_none absent]
    rfl
  · rename_i wal present
    have atEnd := ending wal present
    rw [atEnd, List.drop_length, capturing.image]
    refine ⟨⟨Nat.le_of_eq atEnd, ?_⟩, rfl⟩
    intro _
    rw [atEnd, capturing.offset, Sqlite.frames_of_wal present]

end Building

end Literstream
