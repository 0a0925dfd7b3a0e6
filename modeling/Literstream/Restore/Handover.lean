import Literstream.Db.Operations
import Literstream.Restore.CatchUp
import Literstream.Sync.Machine

/-!
# A path with a log beside it

A restore writes the main file and leaves the log at the path alone.  What a
connection then opens is the main file with the committed frames of that log on
top, which hide the restored pages unless they agree with them.
-/

namespace Literstream

open PagedFile Machine

/-- The marker that a process writes for a file it replicated itself. -/
def recordPosition (disk : Disk) (txid : Nat) :
    Script FileOp SyncError Unit :=
  match disk.file with
  | none => Script.lift (.error (.ltx (.invalidPageSize 0)))
  | some file =>
      match localPageSize file with
      | none => Script.lift (.error (.ltx (.invalidPageSize 0)))
      | some pageSize =>
          Script.emit (.mark (.clean txid pageSize
            (file.length / pageSize % 2 ^ 32) file.length))

/-- A checkpoint that copies every frame.  Only `truncate` empties the log. -/
def Sqlite.fold (pageSize : Nat) (mode : CheckpointMode) (db : Sqlite) :
    Sqlite :=
  match mode with
  | .truncate => db.truncate pageSize
  | _ => db.checkpoint pageSize db.frames.length

/-- The last connection closes; it deletes the log unless that is to
persist. -/
def Sqlite.close (persist : Bool) (db : Sqlite) : Sqlite :=
  if persist then db else { db with wal := none, backfill := 0 }

/-- What a connection opens at a path: the main file with the committed frames
of the log on top. -/
def openedImage (pageSize : Nat) (disk : Disk) (frames : List Frame) :
    Option Bytes :=
  disk.file.map fun main => overlay pageSize main frames

/-! ## A log that changes nothing -/

section Overlays

variable {pageSize : Nat} {image : Bytes} {frames : List Frame}

theorem length_pageOf_any (pgno : Nat) :
    (pageOf pageSize image pgno).length = pageSize := by
  unfold pageOf
  split
  · rename_i inside
    apply length_pageAt inside.1
    have bound := Nat.mul_le_mul_right pageSize inside.2
    have whole := Nat.div_mul_le_self image.length pageSize
    unfold pageCount at bound
    omega
  · exact length_zeroPage _

/-- The frames of a log that a main file already holds. -/
def Agrees (pageSize : Nat) (frames : List Frame) (image : Bytes) : Prop :=
  image.length = commitOf frames * pageSize ∧
    ∀ pgno data, newest frames pgno = some data → pgno ≤ commitOf frames →
      pageAt pageSize pgno image = data

/-- A log leaves an image alone if it is empty or agrees with it. -/
theorem overlay_eq_self_iff (positive : 0 < pageSize)
    (framesOk : FramesOk pageSize frames) :
    overlay pageSize image frames = image ↔
      frames = [] ∨ Agrees pageSize frames image := by
  by_cases empty : frames = []
  · subst empty
    exact ⟨fun _ => .inl rfl, fun _ => rfl⟩
  · have length : ∀ pgno, ((newest frames pgno).getD
        (pageOf pageSize image pgno)).length = pageSize := by
      intro pgno
      cases found : newest frames pgno with
      | some data => exact framesOk.length_newest found
      | none => exact length_pageOf_any pgno
    rw [overlay_eq empty]
    constructor
    · intro same
      right
      constructor
      · rw [← length_ofPages (commitOf frames) length, same]
      · intro pgno data found inside
        obtain ⟨frame, member, rfl, _⟩ := newest_eq_some found
        have inFile := (framesOk.each frame member).positive
        have page := pageAt_ofPages length inFile inside
        rw [same, found] at page
        exact page
    · intro agrees
      obtain ⟨whole, pages⟩ := agrees.resolve_left empty
      apply ext_pageAt (length_ofPages (commitOf frames) length) whole
      intro pgno inFile inside
      rw [pageAt_ofPages length inFile inside]
      cases found : newest frames pgno with
      | some data => exact (pages pgno data found inside).symm
      | none =>
          rw [Option.getD_none, pageOf, if_pos]
          exact ⟨inFile, by rw [pageCount_of_length positive whole]; exact
            inside⟩

end Overlays

/-! ## A session and what it leaves behind -/

/-- A process opens a database, writes to it, replicates everything, copies all
frames into the main file and closes it. -/
structure Session (history : History) where
  pageSize : Nat
  positive : 0 < pageSize
  start : Sqlite
  startOk : DbOk pageSize start
  written : Sqlite
  run : Reaches (Sqlite.apply pageSize) (fun db op => op.Fits pageSize db) start
    written
  txid : Nat
  flushed : written.committedImage pageSize = history.image txid
  mode : CheckpointMode
  persist : Bool

namespace Session

variable {history : History} (session : Session history)

def left : Sqlite :=
  (session.written.fold session.pageSize session.mode).close session.persist

theorem writtenOk : DbOk session.pageSize session.written :=
  session.startOk.reaches session.positive session.run

theorem main_left : session.left.main = history.image session.txid := by
  rw [← session.flushed]
  have kept : ∀ db : Sqlite, (db.close session.persist).main = db.main := by
    intro db
    unfold Sqlite.close
    split <;> rfl
  rw [left, kept]
  unfold Sqlite.fold
  split
  · rfl
  · simp [Sqlite.checkpoint]

/-- The log that is left is empty, or holds the frames of the session. -/
theorem frames_left :
    session.left.frames = [] ∨
      session.left.frames = session.written.frames := by
  unfold left Sqlite.close Sqlite.fold
  split
  · split
    · exact .inl rfl
    · exact .inr rfl
  · exact .inl rfl

theorem framesOk_left : FramesOk session.pageSize session.left.frames := by
  rcases session.frames_left with empty | same
  · rw [empty]
    exact .nil
  · rw [same]
    exact session.writtenOk.frames

/-- The frames left behind agree with the main file they were copied to. -/
theorem agrees_left (nonempty : session.left.frames ≠ []) :
    Agrees session.pageSize session.left.frames
      (history.image session.txid) := by
  have same := session.frames_left.resolve_left nonempty
  have whole := (session.writtenOk.checkpoint session.positive
    (Nat.le_refl session.written.frames.length)).2
  have main : (session.written.checkpoint session.pageSize
      session.written.frames.length).main = history.image session.txid := by
    rw [← session.flushed]
    simp [Sqlite.checkpoint]
  rw [session.flushed] at whole
  change overlay session.pageSize _ session.written.frames = _ at whole
  rw [main, ← same] at whole
  exact ((overlay_eq_self_iff session.positive session.framesOk_left).mp
    whole).resolve_left nonempty

/-- The log that is left is empty, or the database has kept its size and every
page of which the log holds a frame. -/
def Undisturbed (head : Nat) : Prop :=
  session.left.frames = [] ∨
    ((history.image head).length = (history.image session.txid).length ∧
      ∀ pgno ≤ commitOf session.left.frames,
        newest session.left.frames pgno ≠ none →
          pageAt session.pageSize pgno (history.image head) =
            pageAt session.pageSize pgno (history.image session.txid))

theorem overlay_eq_iff (head : Nat) :
    overlay session.pageSize (history.image head) session.left.frames =
        history.image head ↔ session.Undisturbed head := by
  rw [overlay_eq_self_iff session.positive session.framesOk_left, Undisturbed]
  by_cases empty : session.left.frames = []
  · exact ⟨fun _ => .inl empty, fun _ => .inl empty⟩
  · obtain ⟨whole, pages⟩ := session.agrees_left empty
    constructor
    · intro agrees
      obtain ⟨headWhole, headPages⟩ := agrees.resolve_left empty
      refine .inr ⟨headWhole.trans whole.symm, ?_⟩
      intro pgno inside framed
      obtain ⟨data, found⟩ := Option.ne_none_iff_exists'.mp framed
      rw [headPages pgno data found inside, pages pgno data found inside]
    · intro undisturbed
      obtain ⟨sameLength, samePages⟩ := undisturbed.resolve_left empty
      refine .inr ⟨sameLength.trans whole, ?_⟩
      intro pgno data found inside
      rw [samePages pgno inside (by rw [found]; exact Option.some_ne_none _)]
      exact pages pgno data found inside

end Session

/-! ## After a restore -/

section Restores

variable {history : History}

/-- A recorded position describes the file. -/
theorem recordPosition_described {disk : Disk} {txid : Nat}
    (present : disk.file = some (history.image txid))
    (recorded : (recordPosition disk txid).result = .ok ()) :
    (disk.run (recordPosition disk txid).ops).file = disk.file ∧
      history.Described (disk.run (recordPosition disk txid).ops) := by
  cases stated : localPageSize (history.image txid) with
  | none =>
      simp only [recordPosition, present, stated] at recorded
      cases recorded
  | some pageSize =>
      simp only [recordPosition, present, stated]
      refine ⟨present, ?_⟩
      intro other otherSize commit fileLen marked _
      cases marked
      exact present

/-- What a connection opens after a successful `catchUp` on the path of a
session, or after a restore on a path with any log, is the image at the highest
TXID if and only if the log holds nothing that differs from it. -/
theorem opened_after_restore_iff {store : Store} {disk : Disk}
    {outcome : CatchUp} (session : Session history)
    (present : disk.file = some session.left.main)
    (recorded : (recordPosition disk session.txid).result = .ok ())
    (replica : history.Replica store)
    (caught : (catchUp store (disk.run
      (recordPosition disk session.txid).ops)).result = .ok outcome) :
    (openedImage session.pageSize
        ((disk.run (recordPosition disk session.txid).ops).run
          (catchUp store (disk.run
            (recordPosition disk session.txid).ops)).ops)
        session.left.frames =
      some (history.image (headTxid (listAllLtx store))) ↔
        session.Undisturbed (headTxid (listAllLtx store))) ∧
    ∀ (pageSize : Nat) (frames : List Frame) (path : Disk) (reached : Nat),
      0 < pageSize → FramesOk pageSize frames →
      (restoreToPath store).result = .ok reached →
      (openedImage pageSize (path.run (restoreToPath store).ops) frames =
        some (history.image (headTxid (listAllLtx store))) ↔
          frames = [] ∨ Agrees pageSize frames
            (history.image (headTxid (listAllLtx store)))) := by
  constructor
  · rw [session.main_left] at present
    obtain ⟨same, described⟩ := recordPosition_described present recorded
    have main : ((disk.run (recordPosition disk session.txid).ops).run
        (catchUp store (disk.run
          (recordPosition disk session.txid).ops)).ops).file =
        some (history.image (headTxid (listAllLtx store))) := by
      rcases replica.catchUp_described described outcome caught with
        rebuilt | ⟨unchanged, found, _⟩
      · rw [rebuilt]
        rfl
      · rw [unchanged]
        exact found
    rw [openedImage, main, Option.map_some, Option.some.injEq]
    exact session.overlay_eq_iff _
  · intro pageSize frames path reached positive framesOk done
    have main : (path.run (restoreToPath store).ops).file =
        some (history.image (headTxid (listAllLtx store))) := by
      rw [replica.restoreToPath path reached done]
      rfl
    rw [openedImage, main, Option.map_some, Option.some.injEq]
    exact overlay_eq_self_iff positive framesOk

end Restores

/-! ## A log that hides what was restored -/

/-- A database of one page of 512 bytes that every step rewrites; its header
states the page size. -/
def onePage : History where
  pageSize _ := 512
  size txid := min txid 1
  content txid pgno :=
    if pgno = lockPgno 512 then zeroPage 512
    else List.replicate 16 txid.toUInt8 ++
      (2 :: 0 :: List.replicate 494 txid.toUInt8)
  written _ _ := True
  pageSize_pos _ := by decide
  content_length := by
    intro txid pgno
    split
    · exact length_zeroPage 512
    · rw [List.length_append, List.length_replicate, List.length_cons,
        List.length_cons, List.length_replicate]
  lock_zero _ := if_pos rfl
  empty := History.single_empty
  kept := fun _ _ _ _ _ unwritten => absurd trivial unwritten
  honest _ _ _ := rfl

instance (txid pgno : Nat) : Decidable (onePage.written txid pgno) :=
  inferInstanceAs (Decidable True)

/-- The process commits the first version, checkpoints it in full, and keeps the
log. -/
def firstFrame : Frame where
  pgno := 1
  commit := 1
  data := onePage.content 1 1

def Sqlite.fresh : Sqlite where
  main := []
  wal := none
  backfill := 0
  lastSalt1 := 0

theorem freshOk : DbOk 512 Sqlite.fresh where
  main := imageOk_nil
  frames := .nil
  spans := fun _ inside _ _ => Nat.le_trans inside (Nat.zero_le _)
  backfill := Nat.le_refl _
  folded := fun _ => rfl
  salts := fun _ impossible => by cases impossible

def firstSession : Session onePage where
  pageSize := 512
  positive := History.sector_pos
  start := Sqlite.fresh
  startOk := freshOk
  written := Sqlite.fresh.append 7 [firstFrame]
  run := @reaches_of_execGuarded _ _ _ _ _ _ _ [.append 7 [firstFrame]]
    (by decide +kernel)
  txid := 1
  flushed := by decide +kernel
  mode := .full
  persist := true

def firstDisk : Disk where
  file := some firstSession.left.main
  durable := some firstSession.left.main
  pending := []
  marker := none

/-- Another writer adds the second version. -/
def twoVersions : Store :=
  ((∅ : Store).insert ⟨0, 1, 1⟩
    (onePage.file 1 1 0 rfl History.range_one)).insert ⟨0, 2, 2⟩
      (onePage.file 2 2 0 rfl History.range_two)

theorem twoVersions_replica : onePage.Replica twoVersions where
  faithful := by
    apply History.FaithfulStore.insert
    · apply History.faithfulStore_empty.insert
      exact History.faithful_file onePage rfl History.range_one
    · exact History.faithful_file onePage rfl History.range_two
  covers := covers_of_greedyCover (by decide +kernel)

/-- The path once the position is recorded. -/
def recordedDisk : Disk := firstDisk.run (recordPosition firstDisk 1).ops

/-- `catchUp` applies the second version, and the log still shows the first. -/
theorem stale_log_hides :
    onePage.Replica twoVersions ∧
    firstDisk.file = some firstSession.left.main ∧
    (recordPosition firstDisk firstSession.txid).result = .ok () ∧
    (catchUp twoVersions recordedDisk).result = .ok (.incremental 1 2 1) ∧
    (recordedDisk.run (catchUp twoVersions recordedDisk).ops).file =
      some (onePage.image 2) ∧
    openedImage 512 (recordedDisk.run (catchUp twoVersions recordedDisk).ops)
      firstSession.left.frames = some (onePage.image 1) ∧
    onePage.image 1 ≠ onePage.image 2 := by
  refine ⟨twoVersions_replica, rfl, ?_, ?_, ?_, ?_, ?_⟩
  · decide +kernel
  · decide +kernel
  · decide +kernel
  · decide +kernel
  · decide +kernel

/-- The same session with a log that does not persist. -/
def closedSession : Session onePage := { firstSession with persist := false }

def closedDisk : Disk where
  file := some closedSession.left.main
  durable := some closedSession.left.main
  pending := []
  marker := none

theorem opened_after_restore_iff_closed :
    (openedImage 512
        ((closedDisk.run (recordPosition closedDisk 1).ops).run
          (catchUp twoVersions (closedDisk.run
            (recordPosition closedDisk 1).ops)).ops)
        closedSession.left.frames =
      some (onePage.image (headTxid (listAllLtx twoVersions))) ↔
        closedSession.Undisturbed (headTxid (listAllLtx twoVersions))) ∧
    ∀ (pageSize : Nat) (frames : List Frame) (path : Disk) (reached : Nat),
      0 < pageSize → FramesOk pageSize frames →
      (restoreToPath twoVersions).result = .ok reached →
      (openedImage pageSize (path.run (restoreToPath twoVersions).ops)
          frames =
        some (onePage.image (headTxid (listAllLtx twoVersions))) ↔
          frames = [] ∨ Agrees pageSize frames
            (onePage.image (headTxid (listAllLtx twoVersions)))) :=
  @opened_after_restore_iff onePage twoVersions closedDisk
    (.incremental 1 2 1) closedSession rfl (by decide +kernel)
    twoVersions_replica (by decide +kernel)

end Literstream
