import Literstream.Sync.Machine
import Literstream.Sync.Total

/-!
# What a file is built from

A draft is what goes into a staged file besides the position: whether the call
takes a catch-up snapshot, the clock and the database.  From one position, equal
clocks, logs and committed images give equal files.
-/

namespace Literstream

open PagedFile

structure Draft where
  catchUp : Bool
  now : Int
  db : Sqlite
deriving DecidableEq, Repr

def Draft.build (pageSize : Nat) (pos : Position) (draft : Draft) :
    Except SyncError (Option (StagedFile × LtxFile)) :=
  if draft.catchUp then
    (buildSnapshotNow pageSize draft.now pos draft.db).map some
  else buildUnderLock pageSize draft.now pos draft.db

/-- The same call, in the same millisecond, and no commit, restart or truncation
in between. -/
def Draft.Repeats (pageSize : Nat) (draft earlier : Draft) : Prop :=
  draft.catchUp = earlier.catchUp ∧ draft.now = earlier.now ∧
    draft.db.wal = earlier.db.wal ∧
    draft.db.committedImage pageSize = earlier.db.committedImage pageSize

instance (pageSize : Nat) (draft earlier : Draft) :
    Decidable (draft.Repeats pageSize earlier) :=
  inferInstanceAs (Decidable (_ ∧ _))

section Rebuilding

variable {pageSize : Nat} {now : Int} {pos : Position} {left right : Sqlite}

theorem encodeSnapshot_congr {map : PageMap} {pgnos : List Nat}
    {encoder : Encoder}
    (same : ∀ pgno ∈ pgnos, snapshotPage pageSize left map pgno =
      snapshotPage pageSize right map pgno) :
    encodeSnapshot pageSize left map pgnos encoder =
      encodeSnapshot pageSize right map pgnos encoder := by
  induction pgnos generalizing encoder with
  | nil => rfl
  | cons pgno rest ih =>
      have rests : ∀ next, encodeSnapshot pageSize left map rest next =
          encodeSnapshot pageSize right map rest next :=
        fun _ => ih fun other member =>
          same other (List.mem_cons_of_mem _ member)
      simp only [encodeSnapshot, same pgno List.mem_cons_self, rests]

/-- A snapshot reads the pages of the committed image. -/
theorem snapshotPage_eq_image {db : Sqlite} {pgno : Nat}
    (positive : 0 < pageSize) (ok : DbOk pageSize db) (inFile : 1 ≤ pgno)
    (notLock : pgno ≠ lockPgno pageSize)
    (inside : if db.frames = [] then pgno ≤ pageCount pageSize db.main
      else pgno ≤ commitOf db.frames) :
    snapshotPage pageSize db
        (pageMap pageSize (locate pageSize 0 db.frames)) pgno =
      .ok (pageOf pageSize (db.committedImage pageSize) pgno) := by
  obtain ⟨data, read, _⟩ := snapshotPage_total ok.readable inFile notLock inside
  have below (nonempty : db.frames ≠ []) : pgno ≤ commitOf db.frames := by
    rw [if_neg nonempty] at inside
    exact inside
  rw [read, snapshotPage_eq_ok positive ok.readable inFile below read]
  congr 1
  by_cases empty : db.frames = []
  · rw [Sqlite.committedImage, empty]
    rfl
  · rw [Sqlite.committedImage,
      pageOf_overlay positive ok.main ok.frames empty inFile (below empty)]

theorem frames_congr (wal : left.wal = right.wal) :
    left.frames = right.frames := by
  rw [Sqlite.frames, Sqlite.frames, wal]

/-- The size that a snapshot records. -/
def snapshotCommit (pageSize : Nat) (map : PageMap) (db : Sqlite) : Nat :=
  if map.commit > 0 then map.commit else db.main.length / pageSize

theorem snapshotCommit_eq {db : Sqlite} (framesOk : FramesOk pageSize db.frames) :
    snapshotCommit pageSize (pageMap pageSize (locate pageSize 0 db.frames)) db =
      if db.frames = [] then pageCount pageSize db.main
      else commitOf db.frames := by
  unfold snapshotCommit
  by_cases empty : db.frames = []
  · simp [empty, locate, pageMap_nil, pageCount]
  · have committed : commitOf db.frames > 0 := commitOf_pos framesOk empty
    rw [(@pageMap_committed pageSize 0 _ framesOk empty).1, if_pos committed,
      if_neg empty]

theorem le_snapshotCommit {db : Sqlite} {pgno : Nat}
    (framesOk : FramesOk pageSize db.frames)
    (below : pgno ≤ snapshotCommit pageSize
      (pageMap pageSize (locate pageSize 0 db.frames)) db) :
    if db.frames = [] then pgno ≤ pageCount pageSize db.main
    else pgno ≤ commitOf db.frames := by
  rw [snapshotCommit_eq framesOk] at below
  split
  · rename_i empty
    rw [if_pos empty] at below
    exact below
  · rename_i nonempty
    rw [if_neg nonempty] at below
    exact below

theorem buildSnapshot_congr (positive : 0 < pageSize)
    (leftOk : DbOk pageSize left) (rightOk : DbOk pageSize right)
    (wal : left.wal = right.wal)
    (image : left.committedImage pageSize = right.committedImage pageSize) :
    buildSnapshot pageSize now pos left walHeaderSize =
      buildSnapshot pageSize now pos right walHeaderSize := by
  have frames := frames_congr wal
  have leftCommit := snapshotCommit_eq leftOk.frames
  have rightCommit := snapshotCommit_eq rightOk.frames
  -- without frames the images are the main files
  have commit : snapshotCommit pageSize
        (pageMap pageSize (locate pageSize 0 left.frames)) left =
      snapshotCommit pageSize
        (pageMap pageSize (locate pageSize 0 right.frames)) right := by
    rw [leftCommit, rightCommit, frames]
    by_cases empty : right.frames = []
    · rw [if_pos empty, if_pos empty]
      rw [Sqlite.committedImage, Sqlite.committedImage, frames, empty] at image
      exact congrArg (pageCount pageSize) image
    · rw [if_neg empty, if_neg empty]
  have pages : ∀ encoder, encodeSnapshot pageSize left
        (pageMap pageSize (locate pageSize 0 left.frames))
        (snapshotPgnos pageSize (snapshotCommit pageSize
          (pageMap pageSize (locate pageSize 0 left.frames)) left)) encoder =
      encodeSnapshot pageSize right
        (pageMap pageSize (locate pageSize 0 right.frames))
        (snapshotPgnos pageSize (snapshotCommit pageSize
          (pageMap pageSize (locate pageSize 0 right.frames)) right))
        encoder := by
    intro encoder
    rw [← commit, frames]
    apply encodeSnapshot_congr
    intro pgno member
    obtain ⟨inFile, below, notLock⟩ := mem_snapshotPgnos.mp member
    rw [← frames] at below
    have leftPage := snapshotPage_eq_image positive leftOk inFile notLock
      (le_snapshotCommit leftOk.frames below)
    rw [commit] at below
    have rightPage := snapshotPage_eq_image positive rightOk inFile notLock
      (le_snapshotCommit rightOk.frames below)
    rw [frames] at leftPage
    rw [leftPage, rightPage, image]
  unfold buildSnapshot
  rw [walEntries_total, walEntries_total, wal]
  dsimp only [bind, Except.bind]
  have folded : ∀ map db, (if map.commit > 0 then map.commit
      else db.main.length / pageSize) = snapshotCommit pageSize map db :=
    fun _ _ => rfl
  simp only [folded, pages]
  rw [commit, frames]

theorem buildUnderLock_congr (positive : 0 < pageSize)
    (leftOk : DbOk pageSize left) (rightOk : DbOk pageSize right)
    (wal : left.wal = right.wal)
    (image : left.committedImage pageSize = right.committedImage pageSize) :
    buildUnderLock pageSize now pos left =
      buildUnderLock pageSize now pos right := by
  unfold buildUnderLock
  rw [wal]
  split
  · rfl
  · rename_i offset _ planned
    obtain rfl := plan_snapshot planned
    rw [buildSnapshot_congr positive leftOk rightOk wal image]
  · rfl
  · rfl

/-- A repeated draft gives the same file. -/
theorem Draft.Repeats.build {draft earlier : Draft} (positive : 0 < pageSize)
    (ok : DbOk pageSize draft.db) (earlierOk : DbOk pageSize earlier.db)
    (repeats : draft.Repeats pageSize earlier) :
    draft.build pageSize pos = earlier.build pageSize pos := by
  obtain ⟨catchUp, now, wal, image⟩ := repeats
  unfold Draft.build buildSnapshotNow
  rw [catchUp, now, buildSnapshot_congr positive ok earlierOk wal image,
    buildUnderLock_congr positive ok earlierOk wal image]

theorem Draft.build_cases {draft : Draft} {staged : StagedFile}
    {file : LtxFile}
    (built : draft.build pageSize pos = .ok (some (staged, file))) :
    draft.catchUp = false ∧ buildUnderLock pageSize draft.now pos draft.db =
        .ok (some (staged, file)) ∨
      buildSnapshotNow pageSize draft.now pos draft.db =
        .ok (staged, file) := by
  unfold Draft.build at built
  cases kind : draft.catchUp with
  | false =>
      rw [kind, if_neg Bool.false_ne_true] at built
      exact .inl ⟨rfl, built⟩
  | true =>
      rw [kind, if_pos rfl] at built
      cases snapshot : buildSnapshotNow pageSize draft.now pos draft.db with
      | error error =>
          rw [snapshot] at built
          cases built
      | ok result =>
          rw [snapshot] at built
          cases built
          exact .inr rfl

theorem Draft.build_staged {draft : Draft} {staged : StagedFile}
    {file : LtxFile}
    (built : draft.build pageSize pos = .ok (some (staged, file))) :
    StagedOk pageSize pos staged file := by
  rcases Draft.build_cases built with ⟨_, under⟩ | snapshot
  · exact buildUnderLock_staged under
  · exact buildSnapshot_staged snapshot

theorem buildSnapshot_timestamp {db : Sqlite} {offset : Nat}
    {staged : StagedFile} {file : LtxFile}
    (built : buildSnapshot pageSize now pos db offset = .ok (staged, file)) :
    file.header.timestamp = now := by
  obtain ⟨_, _, encoder, written, _, _, opened, encoded, rfl, _⟩ :=
    buildSnapshot_eq_ok built
  have header : written.finish.header = _ :=
    (encodeSnapshot_eq_ok encoded).1.trans (Encoder.encodeHeader_eq_ok opened).1
  rw [header]
  rfl

theorem buildIncremental_timestamp {wal : Wal} {offset salt1 salt2 : Nat}
    {staged : StagedFile} {file : LtxFile}
    (built : buildIncremental pageSize now pos wal offset salt1 salt2 =
      .ok (some (staged, file))) :
    file.header.timestamp = now := by
  obtain ⟨_, _, _, _, encoded, rfl⟩ := buildIncremental_eq_ok built
  rw [(encodeFile_eq_ok encoded).1]
  rfl

/-- A file carries the clock of its draft. -/
theorem Draft.build_timestamp {draft : Draft} {staged : StagedFile}
    {file : LtxFile}
    (built : draft.build pageSize pos = .ok (some (staged, file))) :
    file.header.timestamp = draft.now := by
  rcases Draft.build_cases built with ⟨_, under⟩ | snapshot
  · rcases buildUnderLock_cases under with
      ⟨_, snapshot⟩ | ⟨_, _, _, _, incremental⟩
    · exact buildSnapshot_timestamp snapshot
    · exact buildIncremental_timestamp incremental
  · exact buildSnapshot_timestamp snapshot

/-! ## Errors of a build -/

/-- Whatever the result is, it is not an equivocation. -/
def Harmless {α : Type} (result : Except SyncError α) : Prop :=
  ∀ txid, result ≠ .error (.equivocation txid)

theorem Harmless.bind {α β : Type} {first : Except SyncError α}
    {rest : α → Except SyncError β} (firstHarmless : Harmless first)
    (restHarmless : ∀ value, Harmless (rest value)) :
    Harmless (first >>= rest) := by
  cases first with
  | error error => exact fun txid same => firstHarmless txid (by cases same; rfl)
  | ok value => exact restHarmless value

theorem Harmless.map {α β : Type} {result : Except SyncError α}
    (harmless : Harmless result) (next : α → β) :
    Harmless (result.map next) := by
  cases result with
  | error error => exact fun txid same => harmless txid (by cases same; rfl)
  | ok value => exact fun _ impossible => by cases impossible

theorem Harmless.ok {α : Type} (value : α) :
    Harmless (.ok value : Except SyncError α) :=
  fun _ impossible => by cases impossible

theorem harmless_liftLtx {α : Type} (result : Except LtxError α) :
    Harmless (liftLtx result) := by
  cases result with
  | error error => exact fun _ impossible => by cases impossible
  | ok value => exact .ok value

theorem harmless_readTail (wal : Wal) (offset : Nat) :
    Harmless (readTail pageSize wal offset) := by
  unfold readTail
  dsimp only
  split
  · exact fun _ impossible => by cases impossible
  · split
    · exact fun _ impossible => by cases impossible
    · exact .ok _

theorem harmless_walEntries (db : Sqlite) (offset : Nat) :
    Harmless (walEntries pageSize db offset) := by
  unfold walEntries
  split
  · exact harmless_readTail _ _
  · exact .ok _

theorem harmless_snapshotPage (db : Sqlite) (map : PageMap) (pgno : Nat) :
    Harmless (snapshotPage pageSize db map pgno) := by
  unfold snapshotPage
  split
  · exact .ok _
  · split
    · exact .ok _
    · exact fun _ impossible => by cases impossible

theorem harmless_encodeSnapshot (db : Sqlite) (map : PageMap)
    (pgnos : List Nat) (encoder : Encoder) :
    Harmless (encodeSnapshot pageSize db map pgnos encoder) := by
  induction pgnos generalizing encoder with
  | nil => exact .ok _
  | cons pgno rest ih =>
      apply (harmless_snapshotPage db map pgno).bind
      intro data
      exact (harmless_liftLtx _).bind ih

theorem harmless_buildSnapshot (db : Sqlite) (offset : Nat) :
    Harmless (buildSnapshot pageSize now pos db offset) := by
  apply (harmless_walEntries db offset).bind
  intro entries
  apply (harmless_liftLtx _).bind
  intro encoder
  exact (harmless_encodeSnapshot db _ _ _).bind fun _ => .ok _

theorem harmless_buildIncremental (wal : Wal) (offset salt1 salt2 : Nat) :
    Harmless
      (buildIncremental pageSize now pos wal offset salt1 salt2) := by
  apply (harmless_readTail wal offset).bind
  intro entries
  dsimp only
  split
  · exact .ok _
  · exact (harmless_liftLtx _).bind fun _ => .ok _

theorem harmless_buildUnderLock (db : Sqlite) :
    Harmless (buildUnderLock pageSize now pos db) := by
  unfold buildUnderLock
  split
  · exact .ok _
  · exact (harmless_buildSnapshot _ _).map _
  · exact harmless_buildIncremental _ _ _ _
  · exact .ok _

theorem Draft.harmless_build (draft : Draft) :
    Harmless (draft.build pageSize pos) := by
  unfold Draft.build
  split
  · exact (harmless_buildSnapshot _ _).map _
  · exact harmless_buildUnderLock _

end Rebuilding

end Literstream
