import Literstream.Levels.Effects
import Literstream.Sync.Grown
import Literstream.Sync.Index
import Literstream.Sync.Recovery

/-!
# A record of what was committed

A chronicle keeps, beside the life of a writer, every image that its database
had.  What the replica holds and what waits in the staging directory are then
images of that record, in its order, whether or not a process runs.
-/

namespace Literstream

open Std PagedFile Machine

structure Chronicle where
  life : Lifetime
  /-- The committed image after every step, the oldest first. -/
  commits : List Bytes

def Chronicle.step (setup : Setup) (chronicle : Chronicle)
    (event : WriterEvent) : Option Chronicle :=
  (chronicle.life.writerStep setup event).map fun life =>
    { life := life
      commits := chronicle.commits ++
        [life.syncer.db.committedImage setup.pageSize] }

/-- A replica that was never written, and no process. -/
structure Chronicle.Fresh (setup : Setup) (chronicle : Chronicle) : Prop where
  closed : chronicle.life.phase = .closed
  db : DbOk setup.pageSize chronicle.life.syncer.db
  store : chronicle.life.syncer.store = ∅
  staging : chronicle.life.syncer.staging = ∅

/-! ## Orderly runs -/

/-- The position at the end of a file. -/
def LtxFile.ends (file : LtxFile) : Position where
  txid := file.header.maxTxid
  walOffset := file.header.walOffset + file.header.walSize
  salt1 := file.header.walSalt1
  salt2 := file.header.walSalt2
  syncedToWalEnd := false

def SqliteOp.appends : SqliteOp → Bool
  | .append _ _ => true
  | _ => false

/-- The address of the newest L0 file. -/
def newestKey (store : Store) : FileKey :=
  ⟨level0, headTxid (listAllLtx store), headTxid (listAllLtx store)⟩

/-- While no syncer is open, frames are folded or discarded only when the
replica has them all. -/
def Lifetime.Undisturbed (setup : Setup) (life : Lifetime) (action : Action) :
    Prop :=
  ∀ op, action.dbOp = some op → op.appends = false →
    life.syncer.staging = ∅ ∧
      ∀ file, life.syncer.store[newestKey life.syncer.store]? = some file →
        AtEnd setup.pageSize file.ends life.syncer.db

/-- The calls that every level of the replica survives. -/
def Upkeep.cascades : Upkeep → Bool
  | .compact _ => false
  | .enforceRetentionByTxid _ _ => false
  | _ => true

/-- A failed store operation has no effect unless the process dies with it,
uploads precede the loss of the frames they hold, and the single-base compaction
is not used. -/
def Lifetime.Orderly (setup : Setup) (life : Lifetime) : WriterEvent → Prop
  | .life (.step action) =>
      if life.phase = .running then
        life.syncer.RetryCalls setup action ∧ life.syncer.Shipped action
      else life.syncer.Fits setup action ∧ life.Undisturbed setup action
  | .life (.lost dies) => dies = true
  | .life _ => True
  | .upkeep _ call => call.cascades = true

def Chronicle.Orderly (setup : Setup) (chronicle : Chronicle)
    (event : WriterEvent) : Prop :=
  chronicle.life.Orderly setup event

/-! ## What the replica holds -/

/-- The images up to a TXID. -/
def History.images (history : History) (top : Nat) : List Bytes :=
  (List.range top).map fun index => history.image (index + 1)

/-- Files of a replica in order, whoever lists them. -/
def Archived (history : History) (top : Nat) (store : Store) : Prop :=
  ∃ files anchor, LevelsOk history anchor
    { store := store
      files := files
      txid := top
      faults := [] }

namespace History

variable {history other : History}

theorem images_succ (history : History) (top : Nat) :
    history.images (top + 1) =
      history.images top ++ [history.image (top + 1)] := by
  rw [images, images, List.range_succ, List.map_append]
  rfl

theorem length_images (history : History) (top : Nat) :
    (history.images top).length = top := by
  rw [images, List.length_map, List.length_range]

theorem Agree.images {top : Nat} (agree : Agree history other top) :
    history.images top = other.images top := by
  apply List.map_congr_left
  intro index below
  exact agree.image (List.mem_range.mp below)

theorem getElem?_images {top txid : Nat} (positive : 1 ≤ txid)
    (within : txid ≤ top) :
    (history.images top)[txid - 1]? = some (history.image txid) := by
  obtain ⟨index, rfl⟩ : ∃ index, txid = index + 1 :=
    Nat.exists_eq_succ_of_ne_zero (by omega)
  rw [History.images, List.getElem?_map, Nat.add_sub_cancel,
    List.getElem?_range (by omega)]
  rfl

theorem Agree.refl (history : History) (top : Nat) :
    Agree history history top :=
  ⟨fun _ _ => rfl, fun _ _ => rfl, fun _ _ => rfl, fun _ _ => rfl⟩

theorem Agree.trans {third : History} {top later : Nat} (ordered : top ≤ later)
    (first : Agree history other top) (second : Agree other third later) :
    Agree history third top where
  pageSize := fun txid within => (first.pageSize txid within).trans
    (second.pageSize txid (Nat.le_trans within ordered))
  size := fun txid within => (first.size txid within).trans
    (second.size txid (Nat.le_trans within ordered))
  content := fun txid within => (first.content txid within).trans
    (second.content txid (Nat.le_trans within ordered))
  written := fun txid within => (first.written txid within).trans
    (second.written txid (Nat.le_trans within ordered))

end History

section Archives

variable {history : History} {top : Nat} {store : Store}

theorem LevelsOk.archived {anchor : Nat} {state : Levels}
    (ok : LevelsOk history anchor state) :
    Archived history state.txid state.store :=
  ⟨state.files, anchor, ok.files, ok.indexed, ok.newest, ok.anchored,
    ok.anchorTop, ok.tail, ok.folded⟩

/-- An index that lists the same files serves as well. -/
theorem Archived.levelsOk (archived : Archived history top store)
    {files : FileIndex} (indexed : ∀ key, key ∈ files ↔ key ∈ store)
    (faults : List Bool) :
    ∃ anchor, LevelsOk history anchor
      { store := store
        files := files
        txid := top
        faults := faults } := by
  obtain ⟨_, anchor, ok⟩ := archived
  exact ⟨anchor, ok.files, indexed, ok.newest, ok.anchored, ok.anchorTop,
    ok.tail, ok.folded⟩

theorem Archived.head (archived : Archived history top store) :
    headTxid (listAllLtx store) = top := by
  obtain ⟨_, _, ok⟩ := archived
  exact ok.headTxid_eq ok.mem_listAllLtx

theorem Archived.fresh (archived : Archived history top store) {key : FileKey}
    (beyond : top < key.maxTxid) : store[key]? = none := by
  obtain ⟨_, _, ok⟩ := archived
  by_contra present
  obtain ⟨file, held⟩ := Option.ne_none_iff_exists'.mp present
  exact absurd (ok.files key file held).synced (Nat.not_le_of_lt beyond)

theorem Archived.newest (archived : Archived history top store)
    (synced : 0 < top) :
    ∃ file, store[(⟨level0, top, top⟩ : FileKey)]? = some file ∧
      file.header.maxTxid = top := by
  obtain ⟨_, _, ok⟩ := archived
  have member := ok.newest.resolve_left (Nat.pos_iff_ne_zero.mp synced)
  obtain ⟨file, held⟩ := (OrderedMap.mem_iff_exists _ _).mp member
  exact ⟨file, held, (ok.files _ file held).headerMax⟩

theorem Archived.not_zero (archived : Archived history 0 store) :
    store = ∅ := by
  apply ExtTreeMap.ext_getElem?
  intro key
  rw [ExtTreeMap.getElem?_empty]
  obtain ⟨_, _, ok⟩ := archived
  by_contra present
  obtain ⟨file, held⟩ := Option.ne_none_iff_exists'.mp present
  have fileOk := ok.files key file held
  have := fileOk.positive
  have := fileOk.ordered
  have := fileOk.synced
  simp only at this
  omega

theorem archived_empty (history : History) : Archived history 0 ∅ :=
  (levelsOk_empty history).archived

/-- What a syncer may rely on when it goes on from the replica. -/
theorem Archived.restores {pageSize : Nat}
    (archived : Archived history top store)
    (sized : ∀ txid, history.pageSize txid = pageSize) :
    Restores pageSize store top (history.image top) := by
  have head := archived.head
  obtain ⟨_, _, ok⟩ := archived
  have reaches : (greedyCover (listAllLtx store) 0).2 = top := by
    apply Nat.le_antisymm
    · rw [← head]
      exact greedyCover_le_headTxid (Nat.zero_le _)
    · exact greedyCover_reaches (ok.covers ok.mem_listAllLtx)
  have chain := greedyCover_chain (listAllLtx store) 0
  rw [reaches] at chain
  have held : ∀ key ∈ (greedyCover (listAllLtx store) 0).1, key ∈ store :=
    fun key member => (ok.mem_listAllLtx key).mp
      (greedyCover_subset _ 0 key member)
  have applied := History.applyPlan_chain ok.faithful chain held
    fun left right _ _ => .inl ((sized right).trans (sized left).symm)
  rw [history.image_zero] at applied
  refine ⟨?_, reaches, applied, ?_⟩
  · intro key member
    obtain ⟨file, _, fileOk⟩ := ok.key_ok member
    exact ⟨fileOk.positive, fileOk.synced⟩
  · have imageOk := history.imageOk top
    rw [sized] at imageOk
    exact imageOk

/-- The next file takes its place at the end of the replica. -/
theorem Archived.extend {pageSize : Nat} {file : LtxFile}
    (archived : Archived history top store)
    (sized : ∀ txid, history.pageSize txid = pageSize)
    (follower : Follower pageSize top (history.image top) file) :
    Archived (history.extend top file (follower.continues sized)) (top + 1)
      (store.insert ⟨level0, top + 1, top + 1⟩ file) := by
  obtain ⟨files, anchor, ok⟩ := archived
  have continues := follower.continues sized
  have agreed := (History.agree_extend continues).levelsOk (Nat.le_refl _) ok
  have synced := History.syncedFile_extend continues follower.minTxid
    follower.maxTxid
  exact (agreed.next 0 synced.fileOk).archived

end Archives

/-- The same replica restores one image only. -/
theorem Restores.unique {pageSize txid txid' : Nat} {store : Store}
    {image image' : Bytes} (first : Restores pageSize store txid image)
    (second : Restores pageSize store txid' image') : image = image' := by
  have same := first.applies
  rw [second.applies] at same
  exact (Except.ok.inj same).symm

/-! ## Where a sync goes on -/

/-- The next sync can go on from an image and a position. -/
structure Ready (pageSize : Nat) (image : Bytes) (pos : Position)
    (db : Sqlite) : Prop where
  salts : pos.salt1 ≤ db.lastSalt1
  inStep : InStep pageSize image pos db
  folded : FoldedBelow pageSize pos db

/-- A position captures no more of the WAL than another one. -/
def Behind (pageSize : Nat) (pos later : Position) (db : Sqlite) : Prop :=
  ∀ wal, db.wal = some wal →
    wal.captured pageSize pos ≤ wal.captured pageSize later

section Positions

variable {pageSize : Nat} {image : Bytes} {pos later : Position}
  {db next : Sqlite} {op : SqliteOp}

theorem SqliteOp.not_appends (discards : op.discards = true) :
    op.appends = false := by
  cases op with
  | append salt2 txn => cases discards
  | restart salt2 txn => rfl
  | checkpoint frames => rfl
  | truncate => rfl

theorem AtEnd.congr (offset : later.walOffset = pos.walOffset)
    (salt1 : later.salt1 = pos.salt1) (salt2 : later.salt2 = pos.salt2)
    (atEnd : AtEnd pageSize pos db) : AtEnd pageSize later db := by
  intro wal present
  rw [← atEnd wal present, Wal.captured, Wal.captured, offset, salt1, salt2]

theorem FoldedBelow.congr (offset : later.walOffset = pos.walOffset)
    (salt1 : later.salt1 = pos.salt1) (salt2 : later.salt2 = pos.salt2)
    (folded : FoldedBelow pageSize pos db) :
    FoldedBelow pageSize later db := by
  intro wal present
  have below := folded wal present
  rwa [Wal.captured, ← offset, ← salt1, ← salt2] at below

theorem Ready.congr (offset : later.walOffset = pos.walOffset)
    (salt1 : later.salt1 = pos.salt1) (salt2 : later.salt2 = pos.salt2)
    (ready : Ready pageSize image pos db) : Ready pageSize image later db where
  salts := by
    rw [salt1]
    exact ready.salts
  inStep := ready.inStep.congr offset salt1 salt2
  folded := ready.folded.congr offset salt1 salt2

/-- Frames are folded and discarded behind the position only. -/
theorem Ready.apply (positive : 0 < pageSize) (ok : DbOk pageSize db)
    (imageOk : ImageOk pageSize image) (fits : op.Fits pageSize db)
    (applied : db.apply pageSize op = some next)
    (safe : op.appends = false → AtEnd pageSize pos db)
    (ready : Ready pageSize image pos db) : Ready pageSize image pos next where
  salts := Nat.le_trans ready.salts (Sqlite.lastSalt1_apply applied)
  inStep := ready.inStep.apply positive ok imageOk ready.salts fits applied
    fun discards => safe (SqliteOp.not_appends discards)
  folded := by
    have nextOk := ok.apply positive fits applied
    cases op with
    | checkpoint frames =>
        exact ((safe rfl).checkpoint applied).foldedBelow nextOk
    | _ =>
        exact ready.folded.apply (fun _ impossible => by cases impossible)
          applied

theorem Behind.apply (salts : pos.salt1 ≤ db.lastSalt1)
    (applied : db.apply pageSize op = some next)
    (behind : Behind pageSize pos later db) :
    Behind pageSize pos later next := by
  intro wal present
  rcases Sqlite.wal_of_apply applied present with
    ⟨_, before, more, stale, old, rfl⟩ | ⟨_, started⟩
  · exact behind before old
  · rw [captured_new (by omega)]
    exact Nat.zero_le _

/-- What is at the end of the WAL is not behind anything else there. -/
theorem Behind.atEnd (behind : Behind pageSize pos later db)
    (ready : Ready pageSize image later db)
    (atEnd : AtEnd pageSize pos db) : AtEnd pageSize later db := by
  intro wal present
  have ends := atEnd wal present
  have below := behind wal present
  have aligned := ready.inStep.aligned
  simp only [Aligned, present] at aligned
  have inside := aligned.1.inside
  omega

/-- No position is behind one at the end of the WAL. -/
theorem AtEnd.behind (atEnd : AtEnd pageSize later db)
    (inside : ∀ wal, db.wal = some wal →
      wal.captured pageSize pos ≤ wal.frames.length) :
    Behind pageSize pos later db := by
  intro wal present
  rw [atEnd wal present]
  exact inside wal present

theorem InStep.inside (inStep : InStep pageSize image pos db) :
    ∀ wal, db.wal = some wal →
      wal.captured pageSize pos ≤ wal.frames.length := by
  intro wal present
  have aligned := inStep.aligned
  simp only [Aligned, present] at aligned
  exact aligned.1.inside

end Positions

/-! ## The invariant -/

/-- A staged file whose image was committed after all images of the replica, and
from whose end the next sync can go on. -/
structure Leads (setup : Setup) (db : Sqlite) (commits : List Bytes)
    (history : History) (top : Nat) (file : LtxFile) : Prop where
  follower : Follower setup.pageSize top (history.image top) file
  ready : Ready setup.pageSize (applyFile (history.image top) file) file.ends
    db
  recorded : (history.images top ++
    [applyFile (history.image top) file]).Sublist commits

/-- An open syncer, whose position is at the end of the replica. -/
structure Running (setup : Setup) (state : State) (image : Bytes) (top : Nat) :
    Prop where
  txid : state.pos.txid = top
  mirrors : Mirrors state.files state.store
  retries : ∃ target, Retries setup state image target
  fallback : state.pos.txid = 0 ∨
    InStep setup.pageSize image state.pos state.db ∨
    ∃ staged, state.pending = some staged ∧
      Superseded staged.newPos.salt1 state.db
  unsynced : state.pos.txid = 0 → state.pos.salt1 = 0
  newest : ∀ file, state.store[(⟨level0, top, top⟩ : FileKey)]? = some file →
    state.pos.EndOf file
  behind : ∀ file,
    state.staging[(⟨level0, top + 1, top + 1⟩ : FileKey)]? = some file →
    Behind setup.pageSize state.pos file.ends state.db

/-- The replica holds the first images of the record up to `top`.  What is
staged leads to the next one, or was taken by the store just before a process
died. -/
structure Chronicled (setup : Setup) (chronicle : Chronicle)
    (history : History) (top : Nat) : Prop where
  db : DbOk setup.pageSize chronicle.life.syncer.db
  sized : ∀ txid, history.pageSize txid = setup.pageSize
  archived : Archived history top chronicle.life.syncer.store
  recorded : (history.images top).Sublist chronicle.commits
  staged : ∀ (key : FileKey) (file : LtxFile),
    chronicle.life.syncer.staging[key]? = some file →
    key = ⟨level0, top + 1, top + 1⟩ ∧
      Leads setup chronicle.life.syncer.db chronicle.commits history top
        file ∨
    chronicle.life.phase ≠ .running ∧ key = ⟨level0, top, top⟩ ∧
      chronicle.life.syncer.store[key]? = some file
  single : ∀ left ∈ chronicle.life.syncer.staging,
    ∀ right ∈ chronicle.life.syncer.staging, left = right
  resting : chronicle.life.phase ≠ .running →
    (⟨level0, top + 1, top + 1⟩ : FileKey) ∉
      chronicle.life.syncer.staging →
    ∀ file, chronicle.life.syncer.store[
      (⟨level0, top, top⟩ : FileKey)]? = some file →
    Ready setup.pageSize (history.image top) file.ends
      chronicle.life.syncer.db
  recovering : ∀ remaining, chronicle.life.phase = .recovering remaining →
    ∀ key ∈ chronicle.life.syncer.staging, key ∈ remaining
  running : chronicle.life.phase = .running →
    Running setup chronicle.life.syncer (history.image top) top

/-- Later images are those of a longer history. -/
def Continued (setup : Setup) (history : History) (top : Nat)
    (next : Chronicle) : Prop :=
  ∃ history' top', top ≤ top' ∧ History.Agree history history' top ∧
    Chronicled setup next history' top'

theorem Chronicle.Fresh.chronicled {setup : Setup} {chronicle : Chronicle}
    (fresh : chronicle.Fresh setup) (history : History)
    (sized : ∀ txid, history.pageSize txid = setup.pageSize) :
    Chronicled setup chronicle history 0 where
  db := fresh.db
  sized := sized
  archived := by
    rw [fresh.store]
    exact archived_empty history
  recorded := List.nil_sublist _
  staged := by simp [fresh.staging]
  single := by simp [fresh.staging]
  resting := by simp [fresh.store]
  recovering := by
    intro remaining phase
    rw [fresh.closed] at phase
    cases phase
  running := by
    intro phase
    rw [fresh.closed] at phase
    cases phase

end Literstream
