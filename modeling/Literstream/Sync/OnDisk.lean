import Literstream.Db.Transactions
import Literstream.Sync.Total
import Literstream.Wal.Written

/-!
# Building from the bytes of the log

The builders as they work on files: they parse the header of the log, seed the
running checksum, and take every page from where it stands in the log or in the
main file.  On a cut log they do what the builders over frames do with its
committed frames.
-/

namespace Literstream

open PagedFile Std

/-- Wrap a WAL failure the way `?` does in the sync engine. -/
def liftWal {α : Type} : Except WalError α → Except SyncError α
  | .ok value => .ok value
  | .error error => .error (.wal error)

def PageMap.default : PageMap where
  pages := ∅
  commit := 0
  endOffset := 0

/-- The end of the log as it was seen by the build. -/
def StagedFile.seen (staged : StagedFile) (walLen : Nat) : StagedFile :=
  { staged with
    newPos :=
      { staged.newPos with
        syncedToWalEnd := staged.newPos.walOffset ≥ walLen } }

namespace OnDisk

/-- Exactly so many bytes of a file. -/
def readExactAt (file : Bytes) (offset count : Nat) : Except SyncError Bytes :=
  if offset + count ≤ file.length then .ok ((file.drop offset).take count)
  else .error .io

def walPage (wal : Bytes) (frameOffset pageSize : Nat) : Bytes :=
  (wal.drop (frameOffset + walFrameHeaderSize)).take pageSize

/-- The header of a log, unless the log is too short to have one. -/
def walHeader (wal : Bytes) : Except SyncError (Option WalHeader) :=
  if wal.length ≥ walHeaderSize then
    liftWal (WalHeader.parse wal) >>= fun header => return some header
  else .ok none

/-- The pages that a snapshot takes from the log. -/
def snapshotMap (wal : Bytes) (offset : Nat) :
    Option WalHeader → Except SyncError PageMap
  | some _ => do
      let reader ← liftWal (WalReader.newAtOffset wal offset)
      return reader.pageMap
  | none => .ok .default

/-- One page of a snapshot: from the log, or else from the main file. -/
def snapshotPage (pageSize : Nat) (main wal : Bytes) (map : PageMap)
    (pgno : Nat) : Except SyncError Bytes :=
  match map.pages[pgno]? with
  | some offset => .ok (walPage wal offset pageSize)
  | none => readExactAt main ((pgno - 1) * pageSize) pageSize

def encodeSnapshot (pageSize : Nat) (main wal : Bytes) (map : PageMap) :
    List Nat → Encoder → Except SyncError Encoder
  | [], encoder => .ok encoder
  | pgno :: rest, encoder => do
      let data ← snapshotPage pageSize main wal map pgno
      let next ← liftLtx (encoder.encodePage pgno data)
      encodeSnapshot pageSize main wal map rest next

def buildSnapshot (pageSize : Nat) (now : Int) (pos : Position)
    (main wal : Bytes) (offset : Nat) :
    Except SyncError (StagedFile × LtxFile) := do
  let header ← walHeader wal
  let map ← snapshotMap wal offset header
  let salt1 := (header.map WalHeader.salt1).getD 0
  let salt2 := (header.map WalHeader.salt2).getD 0
  let commit :=
    if map.commit > 0 then map.commit else main.length / pageSize % 2 ^ 32
  let walSize := map.endOffset - offset
  let txid := pos.txid + 1
  let encoder ← liftLtx (Encoder.encodeHeader
    (noChecksumHeader pageSize commit txid txid now offset walSize salt1 salt2))
  let written ← encodeSnapshot pageSize main wal map
    (snapshotPgnos pageSize commit) encoder
  return (
    { outcome := .snapshot txid commit
      key := ⟨level0, txid, txid⟩
      newPos :=
        { txid := txid
          walOffset := offset + walSize
          salt1 := salt1
          salt2 := salt2
          syncedToWalEnd := offset + walSize ≥ wal.length } }, written.finish)

/-- The running checksum at an offset. -/
def walSeed (pageSize : Nat) (wal : Bytes) (header : WalHeader)
    (offset : Nat) : Except SyncError (Nat × Nat) :=
  if offset ≤ walHeaderSize then .ok (header.checksum1, header.checksum2)
  else do
    let before := WalFrameHeader.parse
      (← readExactAt wal (offset - frameSize pageSize) walFrameHeaderSize)
    if before.salt1 ≠ header.salt1 ∨ before.salt2 ≠ header.salt2 then
      .error (.wal .prevFrameMismatch)
    else .ok (before.checksum1, before.checksum2)

def buildIncremental (pageSize : Nat) (now : Int) (pos : Position)
    (wal : Bytes) (header : WalHeader) (offset salt1 salt2 : Nat) :
    Except SyncError (Option (StagedFile × LtxFile)) := do
  let seed ← walSeed pageSize wal header offset
  let tail := wal.drop offset
  let reader ← liftWal (WalReader.fromTail header tail offset seed)
  let map := reader.pageMap
  if map.pages.isEmpty then return none
  else do
    let walSize := map.endOffset - offset
    let txid := pos.txid + 1
    let pages := map.pages.toList.map fun entry =>
      (entry.1, reader.pageDataAt entry.2)
    let file ← liftLtx (encodeFile
      (noChecksumHeader pageSize map.commit txid txid now offset walSize salt1
        salt2) pages)
    return some (
      { outcome := .incremental txid pages.length
        key := ⟨level0, txid, txid⟩
        newPos :=
          { txid := txid
            walOffset := offset + walSize
            salt1 := salt1
            salt2 := salt2
            syncedToWalEnd := offset + walSize ≥ wal.length } }, file)

/-- The whole pages of a main file, without the lock page, which no build
reads. -/
def mainPages (pageSize : Nat) (main : Bytes) : Bytes :=
  ofPages (pageCount pageSize main) fun pgno =>
    if pgno = lockPgno pageSize then zeroPage pageSize
    else pageOf pageSize main pgno

end OnDisk

/-- The database that the first `length` bytes of a log describe. -/
def WalLog.database (log : WalLog) (main : Bytes) (length : Nat) : Sqlite where
  main := OnDisk.mainPages log.pageSize main
  wal :=
    if length < walHeaderSize then none
    else some
      { salt1 := log.salt1
        salt2 := log.salt2
        frames := committed (log.frames.take (log.whole length))
        stale := 0 }
  backfill := 0
  lastSalt1 := log.salt1

namespace OnDisk

section Main

variable {pageSize : Nat} {main : Bytes}

theorem inside_iff (positive : 0 < pageSize) {pgno : Nat} :
    pgno ≤ pageCount pageSize main ↔ pgno * pageSize ≤ main.length :=
  Nat.le_div_iff_mul_le positive

theorem length_kept (positive : 0 < pageSize) (pgno : Nat) :
    (if pgno = lockPgno pageSize then zeroPage pageSize
      else pageOf pageSize main pgno).length = pageSize := by
  split
  · exact length_zeroPage _
  · unfold pageOf
    split
    · rename_i inside
      exact length_pageAt inside.1 ((inside_iff positive).mp inside.2)
    · exact length_zeroPage _

theorem pageCount_mainPages (positive : 0 < pageSize) :
    pageCount pageSize (mainPages pageSize main) = pageCount pageSize main :=
  pageCount_of_length positive (length_ofPages _ (length_kept positive))

theorem pageAt_mainPages (positive : 0 < pageSize) {pgno : Nat}
    (inFile : 1 ≤ pgno) (inside : pgno ≤ pageCount pageSize main) :
    pageAt pageSize pgno (mainPages pageSize main) =
      if pgno = lockPgno pageSize then zeroPage pageSize
      else pageAt pageSize pgno main := by
  rw [mainPages, pageAt_ofPages (length_kept positive) inFile inside]
  split
  · rfl
  · exact if_pos ⟨inFile, inside⟩

theorem imageOk_mainPages (positive : 0 < pageSize) :
    ImageOk pageSize (mainPages pageSize main) where
  whole := by
    rw [pageCount_mainPages positive]
    exact length_ofPages _ (length_kept positive)
  lock := by
    intro inside
    rw [pageCount_mainPages positive] at inside
    rw [pageAt_mainPages positive (lockPgno_pos pageSize) inside, if_pos rfl]

theorem readExactAt_main (positive : 0 < pageSize) {pgno : Nat}
    (inFile : 1 ≤ pgno) (notLock : pgno ≠ lockPgno pageSize) :
    readExactAt main ((pgno - 1) * pageSize) pageSize =
      if pgno * pageSize ≤ (mainPages pageSize main).length then
        .ok (pageAt pageSize pgno (mainPages pageSize main))
      else .error .io := by
  have next : (pgno - 1) * pageSize + pageSize = pgno * pageSize := by
    rw [← Nat.succ_mul, Nat.succ_eq_add_one, Nat.sub_add_cancel inFile]
  have same := @inside_iff pageSize (mainPages pageSize main) positive pgno
  rw [pageCount_mainPages positive] at same
  rw [readExactAt, next]
  by_cases inside : pgno ≤ pageCount pageSize main
  · rw [if_pos ((inside_iff positive).mp inside), if_pos (same.mp inside),
      pageAt_mainPages positive inFile inside, if_neg notLock]
    rfl
  · rw [if_neg fun whole => inside ((inside_iff positive).mpr whole),
      if_neg fun whole => inside (same.mpr whole)]

end Main

section Refines

variable {log : WalLog} {main : Bytes} {length : Nat}

theorem frames_database :
    (log.database main length).frames =
      committed (log.frames.take (log.whole length)) := by
  unfold WalLog.database Sqlite.frames
  split
  · rename_i short
    rw [WalLog.whole, Nat.sub_eq_zero_of_le (Nat.le_of_lt short),
      Nat.zero_div]
    rfl
  · rfl

theorem walHeader_take (ok : log.Ok) (length : Nat) :
    walHeader (log.content.take length) =
      .ok (if length < walHeaderSize then none else some log.header) := by
  have long : walHeaderSize ≤ log.content.length := by
    rw [ok.length_content, frameOffset, Nat.add_assoc]
    exact Nat.le_add_right _ _
  unfold walHeader
  rw [List.length_take]
  by_cases short : length < walHeaderSize
  · rw [if_pos short, if_neg (by omega)]
  · rw [if_neg short, if_pos (by omega),
      ok.parse_header (Nat.not_lt.mp short)]
    rfl

theorem snapshotMap_take (ok : log.Ok)
    (after : OpenAfter (log.database main length).frames
      (log.frames.take (log.whole length))) :
    snapshotMap (log.content.take length) walHeaderSize
        (if length < walHeaderSize then none else some log.header) =
      .ok (pageMap log.pageSize (locate log.pageSize 0
        (log.database main length).frames)) := by
  by_cases short : length < walHeaderSize
  · rw [if_pos short, WalLog.database, Sqlite.frames, if_pos short]
    rfl
  · rw [if_neg short]
    have same := @OpenAfter.pageMap log.pageSize _ _ 0 after (Nat.zero_le _)
    rw [List.drop_zero, List.drop_zero] at same
    have frames := @WalLog.Ok.frames_eq log 0 length ok (Nat.zero_le _)
      { data := log.content.take length
        base := 0
        header := log.header
        frameN := 0
        chksum := log.headerSum } rfl rfl rfl (Nat.zero_le _) rfl
    rw [List.drop_zero] at frames
    rw [← same, ← frames, snapshotMap,
      WalReader.newAtOffset_start (ok.parse_header (Nat.not_lt.mp short))]
    rfl

theorem mapped_frame {pageSize index pgno offset : Nat} {frames : List Frame}
    (framesOk : FramesOk pageSize (frames.drop index))
    (mapped : (pageMap pageSize (locate pageSize index
      (frames.drop index))).pages[pgno]? = some offset) :
    ∃ position frame, frames[position]? = some frame ∧ index ≤ position ∧
      offset = frameOffset pageSize position := by
  by_cases empty : frames.drop index = []
  · rw [empty] at mapped
    simp [locate, pageMap_nil] at mapped
  · obtain ⟨_, _, pages⟩ := @pageMap_committed pageSize index _ framesOk empty
    rw [pages] at mapped
    split at mapped
    · obtain ⟨entry, found, rfl⟩ := Option.map_eq_some_iff.mp mapped
      obtain ⟨position, framed, offset⟩ := mem_locate (newestEntry_mem found).1
      rw [List.getElem?_drop] at framed
      exact ⟨_, _, framed, Nat.le_add_right _ _, offset⟩
    · cases mapped

/-- A mapped page stands in the log where the map says. -/
theorem walPage_take (ok : log.Ok) {index pgno offset : Nat}
    {done : List Frame}
    (after : OpenAfter done (log.frames.take (log.whole length)))
    (framesOk : FramesOk log.pageSize (done.drop index))
    (mapped : (pageMap log.pageSize (locate log.pageSize index
      (done.drop index))).pages[pgno]? = some offset) :
    walPage (log.content.take length) offset log.pageSize =
        pageDataAt log.pageSize done offset ∧
      frameOffset log.pageSize index ≤ offset := by
  obtain ⟨position, frame, framed, behind, rfl⟩ := mapped_frame framesOk mapped
  obtain ⟨place, same⟩ := List.getElem?_eq_some_iff.mp framed
  have placed := after.getElem? place
  rw [same] at placed
  refine ⟨?_, Nat.add_le_add_left (Nat.mul_le_mul_right _ behind) _⟩
  rw [walPage, ok.page_eq placed, pageDataAt, frameOffset_index, framed]
  rfl

theorem snapshotPage_take (ok : log.Ok)
    (after : OpenAfter (log.database main length).frames
      (log.frames.take (log.whole length)))
    (framesOk : FramesOk log.pageSize (log.database main length).frames)
    {pgno : Nat} (inFile : 1 ≤ pgno) (notLock : pgno ≠ lockPgno log.pageSize) :
    snapshotPage log.pageSize main (log.content.take length)
        (pageMap log.pageSize (locate log.pageSize 0
          (log.database main length).frames)) pgno =
      Literstream.snapshotPage log.pageSize (log.database main length)
        (pageMap log.pageSize (locate log.pageSize 0
          (log.database main length).frames)) pgno := by
  have positive := isValidPageSize.pos ok.sized
  unfold snapshotPage Literstream.snapshotPage
  cases mapped : (pageMap log.pageSize (locate log.pageSize 0
      (log.database main length).frames)).pages[pgno]? with
  | some offset =>
      have page := @walPage_take log length ok 0 pgno offset _ after framesOk
      rw [List.drop_zero] at page
      dsimp only
      rw [(page mapped).1]
  | none => exact readExactAt_main positive inFile notLock

theorem encodeSnapshot_congr {pageSize : Nat} {wal : Bytes} {db : Sqlite}
    {map : PageMap} {pgnos : List Nat}
    (same : ∀ pgno ∈ pgnos, snapshotPage pageSize main wal map pgno =
      Literstream.snapshotPage pageSize db map pgno) (encoder : Encoder) :
    encodeSnapshot pageSize main wal map pgnos encoder =
      Literstream.encodeSnapshot pageSize db map pgnos encoder := by
  induction pgnos generalizing encoder with
  | nil => rfl
  | cons pgno rest ih =>
      have rests := ih fun other member =>
        same other (List.mem_cons_of_mem _ member)
      simp only [encodeSnapshot, Literstream.encodeSnapshot,
        same pgno List.mem_cons_self, rests]

/-- A snapshot of a cut log is a snapshot of its committed frames. -/
theorem buildSnapshot_refines (ok : log.Ok) (now : Int) (pos : Position)
    (small : pageCount log.pageSize main < 2 ^ 32)
    (after : OpenAfter (log.database main length).frames
      (log.frames.take (log.whole length)))
    (framesOk : FramesOk log.pageSize (log.database main length).frames) :
    buildSnapshot log.pageSize now pos main (log.content.take length)
        walHeaderSize =
      (Literstream.buildSnapshot log.pageSize now pos
        (log.database main length) walHeaderSize).map fun built =>
          (built.1.seen (log.content.take length).length, built.2) := by
  have positive := isValidPageSize.pos ok.sized
  have salts : ((if length < walHeaderSize then none
        else some log.header).map WalHeader.salt1).getD 0 =
        ((log.database main length).wal.map Wal.salt1).getD 0 ∧
      ((if length < walHeaderSize then none
        else some log.header).map WalHeader.salt2).getD 0 =
        ((log.database main length).wal.map Wal.salt2).getD 0 := by
    unfold WalLog.database
    split <;> exact ⟨rfl, rfl⟩
  have size : main.length / log.pageSize % 2 ^ 32 =
      (log.database main length).main.length / log.pageSize := by
    change pageCount log.pageSize main % 2 ^ 32 = _
    rw [Nat.mod_eq_of_lt small]
    exact (pageCount_mainPages positive).symm
  have pages := fun commit encoder => @encodeSnapshot_congr main log.pageSize
    (log.content.take length) (log.database main length)
    (pageMap log.pageSize (locate log.pageSize 0
      (log.database main length).frames))
    (snapshotPgnos log.pageSize commit)
    (fun pgno member =>
      snapshotPage_take ok after framesOk (mem_snapshotPgnos.mp member).1
        (mem_snapshotPgnos.mp member).2.2) encoder
  unfold buildSnapshot Literstream.buildSnapshot
  rw [walHeader_take ok, walEntries_total]
  simp only [bind, Except.bind]
  rw [snapshotMap_take ok after]
  simp only [salts, size, pages]
  split
  · rfl
  · split <;> rfl

section Incremental

variable {index : Nat} {done : List Frame}

theorem walSeed_take (ok : log.Ok)
    (after : OpenAfter done (log.frames.take (log.whole length)))
    (inside : index ≤ done.length) :
    walSeed log.pageSize (log.content.take length) log.header
        (frameOffset log.pageSize index) =
      .ok (log.sumAfter index) := by
  unfold walSeed
  cases index with
  | zero =>
      rw [if_pos (by simp [frameOffset])]
      rfl
  | succ index =>
      have positive := frameSize_pos log.pageSize
      have found := after.getElem? inside
      obtain ⟨long, parsed⟩ := ok.seed_eq found
      rw [frameOffset_succ, if_neg (by rw [frameOffset]; omega),
        Nat.add_sub_cancel, readExactAt, if_pos long]
      change (if _ then _ else _) = _
      rw [parsed, if_neg (by simp [WalLog.header])]

/-- An incremental build on a cut log is one on its committed frames. -/
theorem buildIncremental_refines (ok : log.Ok) (now : Int) (pos : Position)
    (after : OpenAfter done (log.frames.take (log.whole length)))
    (inside : index ≤ done.length)
    (framesOk : FramesOk log.pageSize done) (salt1 salt2 : Nat) :
    buildIncremental log.pageSize now pos (log.content.take length) log.header
        (frameOffset log.pageSize index) salt1 salt2 =
      (Literstream.buildIncremental log.pageSize now pos
        { salt1 := log.salt1
          salt2 := log.salt2
          frames := done
          stale := 0 } (frameOffset log.pageSize index) salt1 salt2).map
        (Option.map fun built =>
          (built.1.seen (log.content.take length).length, built.2)) := by
  let reader : WalReader :=
    { data := (log.content.take length).drop (frameOffset log.pageSize index)
      base := frameOffset log.pageSize index
      header := log.header
      frameN := index
      chksum := log.sumAfter index }
  have opened : WalReader.fromTail log.header
      ((log.content.take length).drop (frameOffset log.pageSize index))
      (frameOffset log.pageSize index) (log.sumAfter index) = .ok reader :=
    WalReader.fromTail_frame log.header _ index _
  have mapped : reader.pageMap =
      pageMap log.pageSize (locate log.pageSize index (done.drop index)) := by
    have frames := @WalLog.Ok.frames_eq log index length ok
      (Nat.le_trans inside after.length_le.2) reader rfl rfl rfl
      (Nat.le_refl _) (by
        change List.drop (frameOffset log.pageSize index -
          frameOffset log.pageSize index) _ = _
        rw [Nat.sub_self, List.drop_zero])
    rw [WalReader.pageMap, frames, ← after.pageMap inside]
    rfl
  have pages : (reader.pageMap.pages.toList.map fun entry =>
      (entry.1, reader.pageDataAt entry.2)) =
        mapPages log.pageSize done reader.pageMap := by
    unfold mapPages
    apply List.map_congr_left
    intro entry member
    rw [ExtTreeMap.mem_toList_iff_getElem?_eq_some, mapped] at member
    obtain ⟨page, behind⟩ := walPage_take ok after (framesOk.drop index) member
    rw [← page, walPage, WalReader.pageDataAt, List.drop_drop]
    change (entry.1, (List.drop (frameOffset log.pageSize index +
      (entry.2 - frameOffset log.pageSize index + walFrameHeaderSize)) _).take
        _) = _
    rw [← Nat.add_assoc, Nat.add_sub_cancel' behind]
    rfl
  unfold buildIncremental Literstream.buildIncremental
  rw [walSeed_take ok after inside, readTail_total inside]
  simp only [bind, Except.bind]
  rw [opened]
  simp only [liftWal]
  rw [pages, mapped]
  split
  · rfl
  · split <;> rfl

end Incremental

end Refines

end OnDisk

end Literstream
