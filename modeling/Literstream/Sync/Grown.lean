import Literstream.Levels.Extend
import Literstream.Sync.Retries

/-!
# Pages that the database gains

A page that the database gains is in the file that brings it to the replica.
A snapshot holds every page anyway; an incremental file holds the frames that
were not captured before, so they have to hold every page that they add to the
image of the replica.
-/

namespace Literstream

open PagedFile

/-- Every page that the frames not captured yet add to an image is among
them. -/
def Spanning (pageSize : Nat) (image : Bytes) (pos : Position) (db : Sqlite) :
    Prop :=
  ∀ wal, db.wal = some wal → ∀ pgno, pageCount pageSize image < pgno →
    pgno ≤ commitOf (wal.frames.drop (wal.captured pageSize pos)) →
    pgno ≠ lockPgno pageSize →
    newest (wal.frames.drop (wal.captured pageSize pos)) pgno ≠ none

/-- An image and a position from which the next file can be built. -/
structure InStep (pageSize : Nat) (image : Bytes) (pos : Position)
    (db : Sqlite) : Prop where
  aligned : Aligned pageSize image pos db
  spanning : Spanning pageSize image pos db

section Databases

variable {pageSize : Nat} {image : Bytes} {pos : Position} {db next : Sqlite}
  {op : SqliteOp}

/-- A generation that begins on top of the image. -/
theorem spanning_new {wal : Wal} (present : db.wal = some wal)
    (salts : pos.salt1 < wal.salt1)
    (grown : ∀ pgno, pageCount pageSize image < pgno →
      pgno ≤ commitOf wal.frames → pgno ≠ lockPgno pageSize →
      newest wal.frames pgno ≠ none) : Spanning pageSize image pos db := by
  intro other otherWal
  rw [present] at otherWal
  cases otherWal
  rw [captured_new salts, List.drop_zero]
  exact grown

theorem Spanning.of_wal (same : next.wal = db.wal)
    (spanning : Spanning pageSize image pos db) :
    Spanning pageSize image pos next := by
  intro wal present
  rw [same] at present
  exact spanning wal present

/-- What a transaction adds to the committed image and what the frames before
it add to the image of the replica is all there. -/
theorem InStep.append {txn : List Frame} (positive : 0 < pageSize)
    (ok : DbOk pageSize db) (imageOk : ImageOk pageSize image)
    (salts : pos.salt1 ≤ db.lastSalt1) (salt2 : Nat)
    (txnOk : TxnOk pageSize
      (pageCount pageSize (db.committedImage pageSize)) txn)
    (inStep : InStep pageSize image pos db) :
    Spanning pageSize image pos (db.append salt2 txn) := by
  obtain ⟨aligned, spanning⟩ := inStep
  cases present : db.wal with
  | none =>
      have started : (db.append salt2 txn).wal = some
          { salt1 := db.lastSalt1 + 1
            salt2 := salt2
            frames := txn
            stale := 0 } := by
        simp [Sqlite.append, present]
      have same : image = db.committedImage pageSize := by
        rw [Sqlite.committedImage, Sqlite.frames_of_none present]
        simp only [Aligned, present] at aligned
        exact aligned
      apply spanning_new started (Nat.lt_succ_of_le salts)
      rw [same]
      exact txnOk.grown
  | some wal =>
      have grown : (db.append salt2 txn).wal = some
          { wal with
            frames := wal.frames ++ txn
            stale := wal.stale - txn.length } := by
        simp [Sqlite.append, present]
      simp only [Aligned, present] at aligned
      obtain ⟨onFrame, onTop⟩ := aligned
      have framesOk := ok.frames
      rw [Sqlite.frames_of_wal present] at framesOk
      have before := spanning wal present
      intro other otherWal pgno beyond inside notLock absent
      rw [grown] at otherWal
      cases otherWal
      change pgno ≤ commitOf ((wal.frames ++ txn).drop
        (wal.captured pageSize pos)) at inside
      change newest ((wal.frames ++ txn).drop (wal.captured pageSize pos))
        pgno = none at absent
      rw [List.drop_append_of_le_length onFrame.inside] at inside absent
      rw [commitOf_append txnOk.nonempty] at inside
      rw [newest_append, Option.or_eq_none_iff] at absent
      -- the transaction does not hold the page, so that the frames before it do
      have old : pgno ≤ pageCount pageSize (db.committedImage pageSize) := by
        by_contra added
        exact txnOk.grown pgno (by omega) inside notLock absent.1
      rw [← onTop] at old
      by_cases empty : wal.frames.drop (wal.captured pageSize pos) = []
      · rw [empty] at old
        exact absurd old (Nat.not_le_of_lt beyond)
      · rw [pageCount_overlay positive imageOk (framesOk.drop _) empty] at old
        exact before pgno beyond old notLock absent.2

/-- Only discarding frames can hurt, and only frames that are not captured. -/
theorem InStep.apply (positive : 0 < pageSize) (ok : DbOk pageSize db)
    (imageOk : ImageOk pageSize image) (salts : pos.salt1 ≤ db.lastSalt1)
    (fits : op.Fits pageSize db) (applied : db.apply pageSize op = some next)
    (safe : op.discards = true → AtEnd pageSize pos db)
    (inStep : InStep pageSize image pos db) :
    InStep pageSize image pos next where
  aligned :=
    inStep.aligned.apply positive ok imageOk salts fits applied safe
  spanning := by
    cases op with
    | append salt2 txn =>
        cases applied
        exact inStep.append positive ok imageOk salts salt2 (fits txn rfl)
    | restart salt2 txn =>
        obtain ⟨_, _, _, _, _, _, _, _, started⟩ :=
          Sqlite.restart_eq_some applied
        apply spanning_new started (Nat.lt_succ_of_le salts)
        rw [inStep.aligned.image_of_atEnd (safe rfl)]
        exact (fits txn rfl).grown
    | checkpoint frames =>
        simp only [Sqlite.apply] at applied
        split at applied
        · cases applied
          exact inStep.spanning.of_wal rfl
        · cases applied
    | truncate =>
        cases applied
        intro wal impossible
        cases impossible

/-- At the end of the WAL nothing is left to add. -/
theorem AtEnd.spanning (atEnd : AtEnd pageSize pos db) :
    Spanning pageSize image pos db := by
  intro wal present pgno beyond inside
  rw [atEnd wal present, List.drop_length] at inside
  exact absurd (Nat.lt_of_lt_of_le beyond inside) (Nat.not_lt_zero _)

/-- Two positions that name the same frame of the WAL. -/
theorem InStep.congr {other : Position}
    (offset : other.walOffset = pos.walOffset) (salt1 : other.salt1 = pos.salt1)
    (salt2 : other.salt2 = pos.salt2) (inStep : InStep pageSize image pos db) :
    InStep pageSize image other db := by
  have captured : ∀ wal : Wal, wal.captured pageSize other =
      wal.captured pageSize pos := by
    intro wal
    rw [Wal.captured, Wal.captured, offset, salt1, salt2]
  obtain ⟨aligned, spanning⟩ := inStep
  constructor
  · unfold Aligned at aligned ⊢
    split
    · rename_i absent
      rw [absent] at aligned
      exact aligned
    · rename_i wal present
      rw [present] at aligned
      obtain ⟨⟨inside, onFrame⟩, onTop⟩ := aligned
      refine ⟨⟨by rw [captured]; exact inside, ?_⟩, by rwa [captured]⟩
      rw [captured, offset, salt1, salt2]
      exact onFrame
  · intro wal present
    rw [captured]
    exact spanning wal present

end Databases

section Building

variable {pageSize : Nat} {now : Int} {pos : Position} {db : Sqlite}
  {staged : StagedFile} {file : LtxFile} {image : Bytes}

/-- What the replica needs of the next file. -/
structure Follower (pageSize txid : Nat) (image : Bytes) (file : LtxFile) :
    Prop where
  pageSize : file.header.pageSize = pageSize
  minTxid : file.header.minTxid = txid + 1
  maxTxid : file.header.maxTxid = txid + 1
  grows : file.Grows image

/-- A snapshot holds every page. -/
theorem buildSnapshot_follower {offset : Nat}
    (built : buildSnapshot pageSize now pos db offset = .ok (staged, file)) :
    Follower pageSize pos.txid image file := by
  obtain ⟨entries, commit, encoder, written, _, _, opened, encoded, rfl, rfl⟩ :=
    buildSnapshot_eq_ok built
  obtain ⟨header, pages, all, _, complete⟩ := encodeSnapshot_eq_ok encoded
  obtain ⟨openedHeader, openedPages⟩ := Encoder.encodeHeader_eq_ok opened
  rw [openedPages, List.nil_append] at all
  have same : written.finish.header = _ := header.trans openedHeader
  refine ⟨by rw [same]; rfl, by rw [same]; rfl, by rw [same]; rfl, ?_⟩
  intro pgno beyond inside notLock absent
  rw [same] at inside notLock
  obtain ⟨data, member⟩ := complete pgno (mem_snapshotPgnos.mpr
    ⟨Nat.lt_of_le_of_lt (Nat.zero_le _) beyond, inside, notLock⟩)
  rw [← all] at member
  exact LtxFile.page?_eq_none_iff _ |>.mp absent data member

/-- An incremental file holds the pages that its frames add. -/
theorem buildIncremental_follower {wal : Wal} {salt1 salt2 index : Nat}
    (framesOk : FramesOk pageSize wal.frames)
    (spanning : ∀ pgno, pageCount pageSize image < pgno →
      pgno ≤ commitOf (wal.frames.drop index) → pgno ≠ lockPgno pageSize →
      newest (wal.frames.drop index) pgno ≠ none)
    (built : buildIncremental pageSize now pos wal (frameOffset pageSize index)
      salt1 salt2 = .ok (some (staged, file))) :
    Follower pageSize pos.txid image file := by
  obtain ⟨_, _, _, _, commit, pages⟩ := buildIncremental_spec framesOk built
  obtain ⟨_, _, _, _, encoded, _⟩ := buildIncremental_eq_ok built
  have header := (encodeFile_eq_ok encoded).1
  have sized : file.header.pageSize = pageSize := by rw [header]; rfl
  refine ⟨sized, by rw [header]; rfl, by rw [header]; rfl, ?_⟩
  intro pgno beyond inside notLock
  rw [sized] at beyond notLock
  rw [commit] at inside
  rw [pages pgno inside]
  exact spanning pgno beyond inside notLock

/-- The next file leads on from any image that the position is in step with. -/
theorem buildUnderLock_follower (ok : DbOk pageSize db)
    (start : pos.txid = 0 ∨ InStep pageSize image pos db)
    (built : buildUnderLock pageSize now pos db = .ok (some (staged, file))) :
    Follower pageSize pos.txid image file := by
  unfold buildUnderLock at built
  split at built
  · cases built
  · rename_i offset _
    cases snapshot : buildSnapshot pageSize now pos db offset with
    | error error =>
        rw [snapshot] at built
        cases built
    | ok result =>
        rw [snapshot] at built
        cases built
        exact buildSnapshot_follower snapshot
  · rename_i offset salt1 salt2 wal planned present
    have later : pos.txid ≠ 0 := by
      intro first
      rw [present] at planned
      simp [plan, first] at planned
    obtain ⟨aligned, spanning⟩ := start.resolve_left later
    simp only [Aligned, present] at aligned
    rw [present] at planned
    obtain ⟨rfl, rfl, rfl⟩ := plan_incremental aligned.1 planned
    have framesOk := ok.frames
    rw [Sqlite.frames_of_wal present] at framesOk
    exact buildIncremental_follower framesOk (spanning wal present) built
  · cases built

/-- A file that captures the whole database leaves the position in step. -/
theorem Capturing.inStep
    (capturing : Capturing pageSize db image staged file) :
    InStep pageSize (applyFile image file) staged.newPos db :=
  ⟨capturing.aligned.1, capturing.aligned.2.spanning⟩

end Building

theorem Follower.continues {history : History} {pageSize top : Nat}
    {file : LtxFile}
    (follower : Follower pageSize top (history.image top) file)
    (sized : ∀ txid, history.pageSize txid = pageSize) :
    history.Continues top file where
  sized := by
    intro txid
    rw [sized, follower.pageSize]
  grows := follower.grows

end Literstream
