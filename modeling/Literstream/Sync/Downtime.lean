import Literstream.Sync.Positions
import Literstream.Sync.Recovery

/-!
# What happens while no syncer is open

Other connections go on committing, checkpointing and restarting the WAL after
a syncer stops, and nothing pins its frames.  The next syncer resumes at the
position in the replica; a WAL of another generation tells it to start at the
first frame of that generation.
-/

namespace Literstream

open Std PagedFile Machine

/-- The replica once everything staged is uploaded. -/
def State.shipped (state : State) : Store := state.store ∪ state.staging

/-- A replica restores an image, and a syncer that opens it begins at a
position. -/
structure Recorded (pageSize : Nat) (store : Store) (image : Bytes)
    (pos : Position) : Prop where
  restores : Restores pageSize store pos.txid image
  derives : ∀ modified, derivePosition
    (listedFiles modified (listAllLtx store)) store = .ok pos

/-- A syncer that stopped with its replica in step with the database. -/
structure Stopped (setup : Setup) (life : Lifetime) (image : Bytes)
    (pos : Position) : Prop where
  closed : life.phase = .closed
  db : DbOk setup.pageSize life.syncer.db
  written : life.syncer.db.Written
  recorded : Recorded setup.pageSize life.syncer.shipped image pos
  salts : pos.salt1 ≤ life.syncer.db.lastSalt1
  inStep : pos.txid = 0 ∨ Aligned setup.pageSize image pos life.syncer.db

/-- Events before the next syncer is open. -/
def Down (setup : Setup) (life : Lifetime) (event : Event) : Prop :=
  life.phase ≠ .running ∧
    ∀ action, event = .step action → life.syncer.Fits setup action

/-- When resuming at a position misses nothing: a snapshot is taken, or the WAL
is still the recorded generation, or the pages outside the new generation read
the same in the replica and in the main file. -/
def Resumes (pageSize : Nat) (image : Bytes) (pos : Position) (db : Sqlite) :
    Prop :=
  pos.txid = 0 ∨ ∀ wal, db.wal = some wal →
    wal.salt1 = pos.salt1 ∧ wal.salt2 = pos.salt2 ∨
      ∀ pgno, 1 ≤ pgno → pgno ≤ commitOf wal.frames →
        newest wal.frames pgno = none →
        pageOf pageSize image pgno = pageOf pageSize db.main pgno

/-- As long as the recorded generation lives, the replica is aligned with it. -/
def StillAligned (pageSize : Nat) (image : Bytes) (pos : Position)
    (db : Sqlite) : Prop :=
  ∀ wal, db.wal = some wal → wal.salt1 = pos.salt1 ∧ wal.salt2 = pos.salt2 →
    Aligned pageSize image pos db

section Databases

variable {pageSize : Nat} {image : Bytes} {pos : Position} {db next : Sqlite}
  {op : SqliteOp}

/-- A new generation has a salt that was never recorded. -/
theorem StillAligned.of_new {wal : Wal} (present : db.wal = some wal)
    (salts : pos.salt1 < wal.salt1) : StillAligned pageSize image pos db := by
  intro other otherWal same
  rw [present] at otherWal
  cases otherWal
  omega

theorem StillAligned.apply (positive : 0 < pageSize) (ok : DbOk pageSize db)
    (imageOk : ImageOk pageSize image) (salts : pos.salt1 ≤ db.lastSalt1)
    (fits : op.Fits pageSize db) (applied : db.apply pageSize op = some next)
    (still : StillAligned pageSize image pos db) :
    StillAligned pageSize image pos next := by
  cases op with
  | append salt2 txn =>
      have step := applied
      cases applied
      cases present : db.wal with
      | none =>
          have started : (db.append salt2 txn).wal = some
              { salt1 := db.lastSalt1 + 1
                salt2 := salt2
                frames := txn
                stale := 0 } := by
            simp [Sqlite.append, present]
          exact .of_new started (Nat.lt_succ_of_le salts)
      | some wal =>
          have grown : (db.append salt2 txn).wal = some
              { wal with
                frames := wal.frames ++ txn
                stale := wal.stale - txn.length } := by
            simp [Sqlite.append, present]
          intro other otherWal same
          rw [grown] at otherWal
          cases otherWal
          exact (still wal present same).apply positive ok imageOk salts fits
            step fun impossible => by cases impossible
  | restart salt2 txn =>
      obtain ⟨_, _, _, _, _, _, _, _, started⟩ :=
        Sqlite.restart_eq_some applied
      exact .of_new started (Nat.lt_succ_of_le salts)
  | checkpoint frames =>
      have kept : next.wal = db.wal := by
        simp only [Sqlite.apply] at applied
        split at applied
        · cases applied
          rfl
        · cases applied
      intro wal present same
      rw [kept] at present
      exact (still wal present same).apply positive ok imageOk salts fits
        applied fun impossible => by cases impossible
  | truncate =>
      cases applied
      intro wal impossible
      cases impossible

/-- Frames on two images give the same when the images agree on the pages that
the frames do not hold. -/
theorem overlay_eq_iff {left right : Bytes} {frames : List Frame}
    (positive : 0 < pageSize) (leftOk : ImageOk pageSize left)
    (rightOk : ImageOk pageSize right) (framesOk : FramesOk pageSize frames)
    (nonempty : frames ≠ []) :
    overlay pageSize left frames = overlay pageSize right frames ↔
      ∀ pgno, 1 ≤ pgno → pgno ≤ commitOf frames →
        newest frames pgno = none →
        pageOf pageSize left pgno = pageOf pageSize right pgno := by
  constructor
  · intro same pgno inFile inside absent
    have leftPage := pageOf_overlay positive leftOk framesOk nonempty inFile
      inside
    have rightPage := pageOf_overlay positive rightOk framesOk nonempty inFile
      inside
    rw [absent, Option.getD_none] at leftPage rightPage
    rw [← leftPage, same, rightPage]
  · intro same
    have leftSize := pageCount_overlay positive leftOk framesOk nonempty
    apply (leftOk.overlay positive framesOk).ext
      (rightOk.overlay positive framesOk)
    · rw [leftSize, pageCount_overlay positive rightOk framesOk nonempty]
    · intro pgno inFile inside
      rw [leftSize] at inside
      rw [pageOf_overlay positive leftOk framesOk nonempty inFile inside,
        pageOf_overlay positive rightOk framesOk nonempty inFile inside]
      cases found : newest frames pgno with
      | some data => rfl
      | none => exact same pgno inFile inside found

end Databases

/-! ## From the stop to the next open -/

/-- While no syncer is open. -/
structure Dormant (setup : Setup) (life : Lifetime) (image : Bytes)
    (pos : Position) : Prop where
  db : DbOk setup.pageSize life.syncer.db
  written : life.syncer.db.Written
  recorded : Recorded setup.pageSize life.syncer.shipped image pos
  salts : pos.salt1 ≤ life.syncer.db.lastSalt1
  still : pos.txid = 0 ∨
    StillAligned setup.pageSize image pos life.syncer.db
  /-- A recovery goes through all that is staged. -/
  remaining : ∀ remaining, life.phase = .recovering remaining →
    ∀ key ∈ life.syncer.staging, key ∈ remaining

/-- A syncer that has just resumed. -/
structure Awake (setup : Setup) (state : State) (image : Bytes)
    (pos : Position) : Prop where
  idle : state.pc = .idle
  staging : state.staging = ∅
  db : DbOk setup.pageSize state.db
  written : state.db.Written
  recorded : Recorded setup.pageSize state.store image pos
  position : state.pos = pos
  salts : pos.salt1 ≤ state.db.lastSalt1
  still : pos.txid = 0 ∨ StillAligned setup.pageSize image pos state.db

section Opening

variable {setup : Setup} {life next : Lifetime} {event : Event}
  {image : Bytes} {pos : Position}

theorem Stopped.dormant (stopped : Stopped setup life image pos) :
    Dormant setup life image pos where
  db := stopped.db
  written := stopped.written
  recorded := stopped.recorded
  salts := stopped.salts
  still := stopped.inStep.imp id fun aligned _ _ _ => aligned
  remaining := by
    intro remaining recovering
    rw [stopped.closed] at recovering
    cases recovering

theorem State.shipped_recovered {state : State} {key : FileKey}
    {file : LtxFile} (held : state.staging[key]? = some file) :
    State.shipped { state with
      store := state.store.insert key file
      staging := state.staging.erase key } = state.shipped := by
  apply ExtTreeMap.ext_getElem?
  intro other
  simp only [State.shipped, ExtTreeMap.getElem?_union,
    OrderedMap.getElem?_insert, OrderedMap.getElem?_erase]
  by_cases same : other = key
  · subst same
    simp [held]
  · simp [same]

theorem State.shipped_taken {state : State} {key : FileKey} {file : LtxFile}
    (held : state.staging[key]? = some file) :
    State.shipped { state with store := state.taken setup key file } =
      state.shipped := by
  apply ExtTreeMap.ext_getElem?
  intro other
  have stored : (state.taken setup key file)[other]? = state.store[other]? ∨
      other = key := by
    unfold State.taken
    split
    · rename_i store put
      rw [uploadLtxFile_eq_ok put, OrderedMap.getElem?_insert]
      by_cases same : other = key
      · exact .inr same
      · rw [if_neg same]
        exact .inl rfl
    · exact .inl rfl
  simp only [State.shipped, ExtTreeMap.getElem?_union]
  rcases stored with kept | rfl
  · rw [kept]
  · rw [held]
    rfl

/-- The staged files are all in the replica once none is left. -/
theorem Dormant.shipped (dormant : Dormant setup life image pos)
    (recovered : life.phase = .recovering []) :
    life.syncer.staging = ∅ ∧
      life.syncer.shipped = life.syncer.store := by
  have empty : life.syncer.staging = ∅ := by
    apply ExtTreeMap.ext_getElem?
    intro key
    rw [ExtTreeMap.getElem?_empty]
    by_contra present
    obtain ⟨file, held⟩ := Option.ne_none_iff_exists'.mp present
    have inside := dormant.remaining [] recovered key
      ((OrderedMap.mem_iff_exists _ _).mpr ⟨file, held⟩)
    exact absurd inside List.not_mem_nil
  refine ⟨empty, ?_⟩
  apply ExtTreeMap.ext_getElem?
  intro key
  rw [State.shipped, empty, ExtTreeMap.getElem?_union,
    ExtTreeMap.getElem?_empty, Option.none_or]

/-- Another connection changes the database. -/
theorem Dormant.foreign {action : Action}
    (dormant : Dormant setup life image pos)
    (fits : life.syncer.Fits setup action)
    (stepped : life.syncer.step setup action = some next.syncer)
    (same : ∃ db, next.syncer = { life.syncer with db := db })
    (phase : next.phase = life.phase) : Dormant setup next image pos := by
  obtain ⟨db, changed⟩ := same
  have after : next.syncer.db = db := by rw [changed]
  obtain ⟨dbOk, salts⟩ := dormant.db.step fits stepped
  have done := State.step_db stepped
  have kept : next.syncer.db.Written ∧ (pos.txid = 0 ∨
      StillAligned setup.pageSize image pos next.syncer.db) := by
    cases touched : action.dbOp with
    | none =>
        rw [touched] at done
        rw [done]
        exact ⟨dormant.written, dormant.still⟩
    | some op =>
        rw [touched] at done
        refine ⟨dormant.written.apply (fits op touched) done, ?_⟩
        exact dormant.still.imp id fun still =>
          still.apply setup.positive dormant.db
            dormant.recorded.restores.image dormant.salts (fits op touched)
            done
  refine ⟨dbOk, kept.1, ?_, Nat.le_trans dormant.salts salts, kept.2, ?_⟩
  · rw [changed]
    exact dormant.recorded
  · rw [phase, changed]
    exact dormant.remaining

/-- The process ends, with the same files in its replica and staging directory
as before. -/
theorem Dormant.halted (dormant : Dormant setup life image pos)
    (db : next.syncer.db = life.syncer.db)
    (shipped : next.syncer.shipped = life.syncer.shipped)
    (phase : next.phase = .closed) : Dormant setup next image pos where
  db := by
    rw [db]
    exact dormant.db
  written := by
    rw [db]
    exact dormant.written
  recorded := by
    rw [shipped]
    exact dormant.recorded
  salts := by
    rw [db]
    exact dormant.salts
  still := by
    rw [db]
    exact dormant.still
  remaining := by
    intro remaining recovering
    rw [phase] at recovering
    cases recovering

theorem Dormant.step (dormant : Dormant setup life image pos)
    (down : Down setup life event)
    (stepped : life.step setup event = some next) :
    next.phase ≠ .running ∧ Dormant setup next image pos ∨
      next.phase = .running ∧ Awake setup next.syncer image pos := by
  obtain ⟨notRunning, fits⟩ := down
  cases step_lifeMove stepped with
  | outside action happened _ stepped same phase =>
      exact .inl ⟨phase ▸ notRunning,
        dormant.foreign (fits action happened) stepped same phase⟩
  | inside action happened isRunning => exact absurd isRunning notRunning
  | lost dies key file happened isRunning => exact absurd isRunning notRunning
  | closed _ _ same phase =>
      refine .inl ⟨by simp [phase], dormant.halted ?_ ?_ phase⟩
      · rw [same]
        rfl
      · rw [same]
        rfl
  | opened _ _ _ same phase =>
      refine .inl ⟨by simp [phase], ?_⟩
      refine ⟨same ▸ dormant.db, same ▸ dormant.written,
        same ▸ dormant.recorded, same ▸ dormant.salts, same ▸ dormant.still, ?_⟩
      intro remaining recovering key staged
      rw [phase] at recovering
      cases recovering
      rw [same] at staged
      exact mem_recoverOrder.mpr staged
  | recovered key rest file store _ _ wasRecovering held put same phase =>
      have shipped : next.syncer.shipped = life.syncer.shipped := by
        rw [same, uploadLtxFile_eq_ok put]
        exact State.shipped_recovered held
      have db : next.syncer.db = life.syncer.db := by rw [same]
      refine .inl ⟨by simp [phase], ?_⟩
      refine ⟨db ▸ dormant.db, db ▸ dormant.written,
        shipped ▸ dormant.recorded, db ▸ dormant.salts, db ▸ dormant.still, ?_⟩
      intro remaining recovering other staged
      rw [phase] at recovering
      cases recovering
      rw [same] at staged
      obtain ⟨apart, staged⟩ := (OrderedMap.mem_erase _ _ _).mp staged
      exact (List.mem_cons.mp (dormant.remaining _ wasRecovering other
        staged)).resolve_left apart
  | recoverLost key rest file _ _ _ held same phase =>
      refine .inl ⟨by simp [phase], dormant.halted ?_ ?_ phase⟩
      · rw [same]
        rfl
      · rw [same]
        exact State.shipped_taken held
  | refused key rest file error _ _ _ same phase =>
      refine .inl ⟨by simp [phase], dormant.halted ?_ ?_ phase⟩
      · rw [same]
        rfl
      · rw [same]
        rfl
  | resumed modified position _ recovering derived store staging db placed idle
      phase =>
      obtain ⟨empty, shipped⟩ := dormant.shipped recovering
      have recorded := dormant.recorded
      rw [shipped] at recorded
      rw [recorded.derives modified] at derived
      cases derived
      exact .inr ⟨phase, idle, staging.trans empty, db ▸ dormant.db,
        db ▸ dormant.written, store ▸ recorded, placed, db ▸ dormant.salts,
        db ▸ dormant.still⟩

/-- Whatever happened in between, the next syncer resumes on the recorded
replica. -/
theorem Stopped.reopened {final : Lifetime}
    (stopped : Stopped setup life image pos)
    (run : Reaches (Lifetime.step setup) (Down setup) life final)
    (running : final.phase = .running) :
    Awake setup final.syncer image pos := by
  have invariant : final.phase ≠ .running ∧ Dormant setup final image pos ∨
      final.phase = .running ∧ Awake setup final.syncer image pos := by
    apply run.invariant
    · refine .inl ⟨?_, stopped.dormant⟩
      rw [stopped.closed]
      exact fun impossible => by cases impossible
    · intro state event after now down stepped
      rcases now with ⟨_, dormant⟩ | ⟨isRunning, _⟩
      · exact dormant.step down stepped
      · exact absurd isRunning down.1
  exact (invariant.resolve_left fun still => still.1 running).2

end Opening

/-! ## The next flush -/

theorem derivePosition_unseen {files : FileIndex} {store : Store}
    {pos : Position} (derived : derivePosition files store = .ok pos) :
    pos.syncedToWalEnd = false := by
  unfold derivePosition at derived
  split at derived
  · cases derived
    rfl
  · split at derived
    · cases derived
      rfl
    · obtain ⟨file, _, done⟩ := bind_eq_ok.mp derived
      cases done
      rfl

/-- A file after all others gives the position. -/
theorem derivePosition_insert {store : Store} {txid : Nat}
    (bounded : ∀ key ∈ store, key.maxTxid ≤ txid) (file : LtxFile)
    (modified : FileKey → Int) :
    derivePosition (listedFiles modified
        (listAllLtx (store.insert ⟨level0, txid + 1, txid + 1⟩ file)))
        (store.insert ⟨level0, txid + 1, txid + 1⟩ file) =
      .ok
        { txid := txid + 1
          walOffset := file.header.walOffset + file.header.walSize
          salt1 := file.header.walSalt1
          salt2 := file.header.walSalt2
          syncedToWalEnd := false } := by
  generalize newStore : store.insert ⟨level0, txid + 1, txid + 1⟩ file = after
  have held : after[(⟨level0, txid + 1, txid + 1⟩ : FileKey)]? = some file := by
    rw [← newStore, ExtTreeMap.getElem?_insert_self]
  have old : ∀ key ∈ after, key = ⟨level0, txid + 1, txid + 1⟩ ∨
      key.maxTxid ≤ txid := by
    intro key member
    rw [← newStore] at member
    exact ((OrderedMap.mem_insert _ _ _ _).mp member).imp id (bounded key)
  have inside : ∀ key, key ∈ listedFiles modified (listAllLtx after) →
      key ∈ after := by
    intro key listed
    rw [mem_listedFiles, mem_listAllLtx, ← OrderedMap.mem_iff_exists] at listed
    exact listed.1
  have listed : (⟨level0, txid + 1, txid + 1⟩ : FileKey) ∈
      listedFiles modified (listAllLtx after) :=
    mem_listedFiles.mpr (mem_listAllLtx.mpr ⟨⟨file, held⟩, Nat.zero_le _⟩)
  have member := ExtTreeMap.mem_keys.mpr listed
  have head : headTxid
      (listedFiles modified (listAllLtx after)).allLevels = txid + 1 := by
    apply Nat.le_antisymm
    · apply headTxid_le
      intro key present
      rcases old key (inside key (ExtTreeMap.mem_keys.mp present)) with
        rfl | earlier
      · exact Nat.le_refl _
      · exact Nat.le_succ_of_le earlier
    · exact maxTxid_le_headTxid member
  have nonempty : (listedFiles modified (listAllLtx after)).allLevels ≠ [] :=
    List.ne_nil_of_mem member
  obtain ⟨info, inLevel, address⟩ := FileIndex.exists_listed listed
  unfold derivePosition
  rw [if_neg nonempty]
  split
  · rename_i absent
    rw [newestFile_eq_none absent] at inLevel
    cases inLevel
  · rename_i newest found
    obtain ⟨newestIn, greatest⟩ := newestFile_eq_some found
    have key : newest.toFileKey = ⟨level0, txid + 1, txid + 1⟩ := by
      have above := greatest info inLevel
      rw [show info.maxTxid = txid + 1 from congrArg FileKey.maxTxid address]
        at above
      refine (old _ (inside _ (FileIndex.mem_of_list newestIn))).resolve_right ?_
      exact Nat.not_le.mpr above
    rw [key, getLtx_eq_ok.mpr held, head]
    rfl

theorem Aligned.unseen {pageSize : Nat} {image : Bytes} {pos other : Position}
    {db : Sqlite} (aligned : Aligned pageSize image pos db)
    (offset : other.walOffset = pos.walOffset) (salt1 : other.salt1 = pos.salt1)
    (salt2 : other.salt2 = pos.salt2) : Aligned pageSize image other db := by
  have captured : ∀ wal : Wal, wal.captured pageSize other =
      wal.captured pageSize pos := by
    intro wal
    rw [Wal.captured, Wal.captured, offset, salt1, salt2]
  unfold Aligned at aligned ⊢
  cases present : db.wal with
  | none =>
      rw [present] at aligned
      exact aligned
  | some wal =>
      rw [present] at aligned
      obtain ⟨onFrame, onTop⟩ := aligned
      refine ⟨⟨?_, ?_⟩, ?_⟩
      · rw [captured]
        exact onFrame.inside
      · rw [captured, offset, salt1, salt2]
        exact onFrame.offset
      · rw [captured]
        exact onTop

section Flushing

variable {setup : Setup} {state final : State} {image : Bytes}
  {pos : Position}

/-- A replica at the end of the WAL that restores the committed image is in
step. -/
theorem AtWalEnd.aligned {pageSize : Nat} {db : Sqlite}
    (atEnd : AtWalEnd pageSize pos db) :
    Aligned pageSize (db.committedImage pageSize) pos db := by
  have salt1 := atEnd.salt1
  have salt2 := atEnd.salt2
  have offset := atEnd.offset
  unfold Aligned
  cases present : db.wal with
  | none =>
      dsimp only
      rw [Sqlite.committedImage, Sqlite.frames_of_none present]
      rfl
  | some wal =>
      rw [present] at salt1 salt2
      rw [Sqlite.frames_of_wal present] at offset
      have captured : wal.captured pageSize pos = wal.frames.length := by
        rw [Wal.captured, if_pos ⟨salt1.symm, salt2.symm⟩, offset,
          frameOffset_index]
      dsimp only
      refine ⟨⟨Nat.le_of_eq captured, fun _ => ?_⟩, ?_⟩
      · rw [captured, offset]
      · rw [captured, List.drop_length]
        rfl

/-- A flush with nothing left to sync does nothing. -/
theorem State.flush_upToDate {times : List Int}
    (ok : DbOk setup.pageSize state.db)
    (upToDate : UpToDate setup.pageSize state.pos state.db)
    (flushed : state.flush setup times = some final) :
    final = state.acquireReadLock := by
  cases times with
  | nil => cases flushed
  | cons now rest =>
      have nothing := (@buildUnderLock_eq_none _ now _ _ ok).mpr upToDate
      unfold State.flush at flushed
      rcases State.buildNext_cases setup state now with
        ⟨error, built, under⟩ | ⟨built, _⟩ | ⟨staged, file, built, under⟩
      · rw [nothing] at under
        cases under
      · rw [built] at flushed
        cases flushed
        rfl
      · rw [nothing] at under
        cases under

/-- What a flush leaves: the replica restores `after`, which is the committed
image exactly when resuming missed nothing. -/
structure Flushed (setup : Setup) (state final : State) (image : Bytes)
    (pos : Position) (after : Bytes) (next : Position) : Prop where
  staging : final.staging = ∅
  db : final.db = state.db
  recorded : Recorded setup.pageSize final.store after next
  replicated : next.txid ≠ 0
  salts : next.salt1 ≤ state.db.lastSalt1
  right : after = state.db.committedImage setup.pageSize ↔
    Resumes setup.pageSize image pos state.db
  inStep : after = state.db.committedImage setup.pageSize →
    Aligned setup.pageSize after next state.db

theorem plan_restarted {pageSize : Nat} {wal : Wal}
    (replicated : pos.txid ≠ 0)
    (restarted : ¬ (wal.salt1 = pos.salt1 ∧ wal.salt2 = pos.salt2)) :
    plan pageSize pos (some wal) =
      .incremental walHeaderSize wal.salt1 wal.salt2 := by
  simp only [plan, if_neg replicated]
  rw [if_pos (.inr restarted)]

/-- The image after the file that the first sync builds. -/
theorem Awake.built (awake : Awake setup state image pos) {now : Int}
    {staged : StagedFile} {file : LtxFile}
    (built : buildUnderLock setup.pageSize now pos state.db =
      .ok (some (staged, file))) :
    applyFile image file = state.db.committedImage setup.pageSize ↔
      Resumes setup.pageSize image pos state.db := by
  have imageOk := awake.recorded.restores.image
  have captures (start : pos.txid = 0 ∨
      Aligned setup.pageSize image pos state.db) :
      applyFile image file = state.db.committedImage setup.pageSize :=
    Capturing.image (buildUnderLock_spec setup.positive awake.db imageOk start
      built)
  by_cases first : pos.txid = 0
  · exact iff_of_true (captures (.inl first)) (.inl first)
  · cases present : state.db.wal with
    | none =>
        have snapshot := (buildUnderLock_planned built).resolve_right fun
          ⟨_, _, _, _, other, _⟩ => by
            rw [present] at other
            cases other
        refine iff_of_true ?_ (.inr fun wal other => ?_)
        · exact (buildSnapshot_spec setup.positive awake.db.readable imageOk
            snapshot).image
        · rw [present] at other
          cases other
    | some wal =>
        by_cases same : wal.salt1 = pos.salt1 ∧ wal.salt2 = pos.salt2
        · refine iff_of_true (captures (.inr ?_)) (.inr fun other otherWal => ?_)
          · exact awake.still.resolve_left first wal present same
          · rw [present] at otherWal
            cases otherWal
            exact .inl same
        · have framesOk := awake.db.frames
          rw [Sqlite.frames_of_wal present] at framesOk
          have nonempty := awake.written wal present
          have sized := (buildUnderLock_staged built).pageSize
          have incremental : buildIncremental setup.pageSize now pos wal
              (frameOffset setup.pageSize 0) wal.salt1 wal.salt2 =
                .ok (some (staged, file)) := by
            rw [buildUnderLock, present, plan_restarted first same] at built
            rw [frameOffset, Nat.zero_mul]
            exact built
          obtain ⟨_, _, _, _, commit, pages⟩ :=
            buildIncremental_spec framesOk incremental
          rw [List.drop_zero] at commit pages
          have onTop := applyFile_eq_overlay setup.positive imageOk sized
            framesOk nonempty commit pages
          rw [onTop, Sqlite.committedImage, Sqlite.frames_of_wal present,
            overlay_eq_iff setup.positive imageOk awake.db.main framesOk
              nonempty]
          constructor
          · intro agree
            refine .inr fun other otherWal => .inr ?_
            rw [present] at otherWal
            cases otherWal
            exact agree
          · intro resumes
            exact ((resumes.resolve_left first) wal present).resolve_left same

/-- A file that was just staged is uploaded. -/
theorem State.uploadStaged_staged {staged : StagedFile} {file : LtxFile}
    {now : Int} {uploaded : State}
    (done : (state.acquireReadLock.stage staged file).uploadStaged setup staged
      now = .ok uploaded) :
    uploaded.db = state.db ∧ uploaded.pos = staged.newPos ∧
      uploaded.store = state.store.insert staged.key file ∧
      uploaded.staging = state.staging.erase staged.key := by
  obtain ⟨mark, held⟩ := State.acquireReadLock_eq state
  rw [held] at done
  obtain ⟨other, found, rfl⟩ := State.uploadStaged_eq_ok done
  have same : other = file := by
    simp only [State.stage, OrderedMap.getElem?_insert, if_true,
      Option.some.injEq] at found
    exact found.symm
  subst same
  refine ⟨rfl, rfl, rfl, ?_⟩
  apply ExtTreeMap.ext_getElem?
  intro key
  simp only [State.stage, OrderedMap.getElem?_erase,
    OrderedMap.getElem?_insert]
  by_cases here : key = staged.key
  · simp [here]
  · simp [here]

/-- Nothing is built: the recorded generation has no further frame. -/
theorem Awake.unbuilt (awake : Awake setup state image pos) {now : Int}
    (built : buildUnderLock setup.pageSize now pos state.db = .ok none) :
    pos.txid ≠ 0 ∧ image = state.db.committedImage setup.pageSize ∧
      Aligned setup.pageSize image pos state.db ∧
      Resumes setup.pageSize image pos state.db := by
  have upToDate := (buildUnderLock_eq_none awake.db).mp built
  have unseen := derivePosition_unseen
    (awake.recorded.derives fun _ => 0)
  cases present : state.db.wal with
  | none =>
      have seen := upToDate.emptied present
      rw [unseen] at seen
      cases seen
  | some wal =>
      have same := (upToDate.frames present).resolve_left
        (awake.written wal present)
      have aligned := awake.still.resolve_left upToDate.txid wal present
        ⟨same.1, same.2.1⟩
      have spec := buildUnderLock_spec setup.positive awake.db
        awake.recorded.restores.image (.inr aligned) built
      refine ⟨upToDate.txid, spec.2.1, aligned, .inr fun other otherWal => ?_⟩
      rw [present] at otherWal
      cases otherWal
      exact .inl ⟨same.1, same.2.1⟩

theorem Awake.flushed (awake : Awake setup state image pos) {times : List Int}
    (flushed : state.flush setup times = some final) :
    ∃ after next, Flushed setup state final image pos after next := by
  have position := awake.position
  cases times with
  | nil => cases flushed
  | cons now rest =>
      obtain ⟨mark, held⟩ := State.acquireReadLock_eq state
      unfold State.flush at flushed
      rcases State.buildNext_cases setup state now with
        ⟨error, built, _⟩ | ⟨built, under⟩ | ⟨staged, file, built, under⟩
      · rw [built] at flushed
        cases flushed
      · rw [built] at flushed
        cases flushed
        rw [position] at under
        obtain ⟨replicated, image_, aligned, resumes⟩ := awake.unbuilt under
        rw [held]
        exact ⟨image, pos, awake.staging, rfl, awake.recorded, replicated,
          awake.salts, iff_of_true image_ resumes, fun _ => aligned⟩
      · rw [built] at flushed
        rw [position] at under
        dsimp only at flushed
        split at flushed
        · cases flushed
        · rename_i uploaded done
          obtain ⟨db, newPos, store, staging⟩ := State.uploadStaged_staged done
          have atEnd := buildUnderLock_atWalEnd setup.positive awake.db under
          have stagedOk := buildUnderLock_staged under
          have right := awake.built under
          have restores := awake.recorded.restores
          rw [stagedOk.key] at store
          have ended : final = uploaded.acquireReadLock := by
            apply State.flush_upToDate _ _ flushed
            · rw [db]
              exact awake.db
            · rw [db, newPos]
              exact atEnd.upToDate
          obtain ⟨laterMark, laterHeld⟩ := State.acquireReadLock_eq uploaded
          rw [ended, laterHeld]
          refine ⟨applyFile image file,
            { txid := pos.txid + 1
              walOffset := file.header.walOffset + file.header.walSize
              salt1 := file.header.walSalt1
              salt2 := file.header.walSalt2
              syncedToWalEnd := false }, ?_, db, ⟨?_, ?_⟩, Nat.succ_ne_zero _,
            ?_, right, ?_⟩
          · dsimp only
            rw [staging, awake.staging]
            apply ExtTreeMap.ext_getElem?
            intro key
            simp
          · dsimp only
            rw [store]
            exact restores.next setup.positive stagedOk.pageSize
          · intro modified
            dsimp only
            rw [store]
            exact derivePosition_insert
              (fun key member => (restores.bounded key member).2) file modified
          · change file.header.walSalt1 ≤ _
            rw [stagedOk.salt1, atEnd.salt1]
            cases present : state.db.wal with
            | none => exact Nat.zero_le _
            | some wal => exact (awake.db.salts wal present).2
          · intro same
            rw [same]
            exact atEnd.aligned.unseen stagedOk.offset stagedOk.salt1
              stagedOk.salt2

/-- After a stop and any downtime, a flush of the next syncer brings the replica
to the committed image exactly when resuming misses nothing. -/
theorem reopen_restores_iff {life reopened : Lifetime}
    (stopped : Stopped setup life image pos)
    (run : Reaches (Lifetime.step setup) (Down setup) life reopened)
    (running : reopened.phase = .running) {times : List Int}
    (flushed : reopened.syncer.flush setup times = some final) :
    restore final.store = .ok (final.db.committedImage setup.pageSize) ↔
      Resumes setup.pageSize image pos reopened.syncer.db := by
  have awake := stopped.reopened run running
  obtain ⟨after, next, outcome⟩ := awake.flushed flushed
  have restored := outcome.recorded.restores.restore
    (Nat.pos_of_ne_zero outcome.replicated)
  rw [restored, outcome.db, ← outcome.right]
  exact ⟨fun same => Except.ok.inj same, congrArg Except.ok⟩

/-- A syncer that stops after such a flush has its replica in step again. -/
theorem Flushed.stopped {life : Lifetime} {after : Bytes} {next : Position}
    (awake : Awake setup state image pos)
    (outcome : Flushed setup state final image pos after next)
    (resumes : Resumes setup.pageSize image pos state.db)
    (halted : life.syncer = final.halt) (closed : life.phase = .closed) :
    Stopped setup life after next where
  closed := closed
  db := by
    rw [halted]
    change DbOk setup.pageSize final.db
    rw [outcome.db]
    exact awake.db
  written := by
    rw [halted]
    change final.db.Written
    rw [outcome.db]
    exact awake.written
  recorded := by
    have shipped : life.syncer.shipped = final.store := by
      rw [halted]
      change final.store ∪ final.staging = _
      rw [outcome.staging]
      apply ExtTreeMap.ext_getElem?
      intro key
      rw [ExtTreeMap.getElem?_union, ExtTreeMap.getElem?_empty,
        Option.none_or]
    rw [shipped]
    exact outcome.recorded
  salts := by
    rw [halted]
    change _ ≤ final.db.lastSalt1
    rw [outcome.db]
    exact outcome.salts
  inStep := by
    rw [halted]
    change _ ∨ Aligned _ _ _ final.db
    rw [outcome.db]
    exact .inr (outcome.inStep (outcome.right.mpr resumes))

end Flushing

/-! ## A restart during the downtime -/

instance (setup : Setup) (life : Lifetime) (event : Event) :
    Decidable (Down setup life event) := by
  unfold Down
  rcases event with action | _ | _ | _ | _ | _
  · exact decidable_of_iff
      (life.phase ≠ .running ∧ life.syncer.Fits setup action)
      ⟨fun ⟨down, fits⟩ => ⟨down, fun _ same => by cases same; exact fits⟩,
        fun ⟨down, fits⟩ => ⟨down, fits action rfl⟩⟩
  all_goals
    exact decidable_of_iff (life.phase ≠ .running)
      ⟨fun down => ⟨down, fun _ impossible => by cases impossible⟩, And.left⟩

theorem newLife_stopped : Stopped smallSetup newLife [] .default where
  closed := rfl
  db := quietState_opened.db
  written := fun _ impossible => by cases impossible
  recorded := ⟨restores_empty 512, fun _ => rfl⟩
  salts := Nat.le_refl _
  inStep := .inl rfl

/-- What other connections do while no syncer is open, the next open, and a
flush. -/
def reopen (life : Lifetime) (events : List Event) (times : List Int) :
    Option (Lifetime × State) :=
  (execGuarded (Lifetime.step smallSetup) (Down smallSetup) life
    (events ++ [.openSyncer, .resume true fun _ => 0])).bind fun reopened =>
      if reopened.phase = .running then
        (reopened.syncer.flush smallSetup times).map fun final =>
          (reopened, final)
      else none

theorem reopen_eq_some {life reopened : Lifetime} {final : State}
    {events : List Event} {times : List Int}
    (ran : reopen life events times = some (reopened, final)) :
    Reaches (Lifetime.step smallSetup) (Down smallSetup) life reopened ∧
      reopened.phase = .running ∧
      reopened.syncer.flush smallSetup times = some final := by
  obtain ⟨middle, executed, ran⟩ := Option.bind_eq_some_iff.mp ran
  split at ran
  · rename_i running
    obtain ⟨drained, flushed, same⟩ := Option.map_eq_some_iff.mp ran
    cases same
    exact ⟨reaches_of_execGuarded executed, running, flushed⟩
  · cases ran

/-- One syncer replicates a commit and stops. -/
def replicatedLife : Option Lifetime :=
  (reopen newLife [.step (commitPage 1 1)] [0, 0]).map fun (reopened, final) =>
    { reopened with
      syncer := final.halt
      phase := .closed }

theorem replicatedLife_stopped {life : Lifetime}
    (replicated : replicatedLife = some life) :
    ∃ image pos, Stopped smallSetup life image pos := by
  obtain ⟨⟨reopened, final⟩, ran, rfl⟩ := Option.map_eq_some_iff.mp replicated
  obtain ⟨run, running, flushed⟩ := reopen_eq_some ran
  have awake := newLife_stopped.reopened run running
  obtain ⟨after, next, outcome⟩ := awake.flushed flushed
  exact ⟨after, next, outcome.stopped awake (.inl rfl) rfl rfl⟩

/-- Page 2 is committed and folded, and a commit of page 1 restarts the WAL. -/
def restartedReopen : Option (Lifetime × Lifetime × State) :=
  replicatedLife.bind fun life =>
    (reopen life
      [.step (commitPage 2 2), .step (.appCheckpoint 2),
        .step (.commit true 7 [⟨1, 2, List.replicate 512 3⟩])] [0, 0]).map
      fun result => (life, result)

theorem downtime_restart_loses_commit :
    ∃ setup life image pos reopened times final,
      Stopped setup life image pos ∧
      Reaches (Lifetime.step setup) (Down setup) life reopened ∧
      reopened.phase = .running ∧
      reopened.syncer.flush setup times = some final ∧
      restore final.store ≠ .ok (final.db.committedImage setup.pageSize) := by
  have lost : ∃ result ∈ restartedReopen, restore result.2.2.store ≠
      .ok (result.2.2.db.committedImage smallSetup.pageSize) := by
    decide +kernel
  obtain ⟨⟨life, reopened, final⟩, ran, lost⟩ := lost
  obtain ⟨replicated, isReplicated, ran⟩ := Option.bind_eq_some_iff.mp ran
  obtain ⟨result, again, same⟩ := Option.map_eq_some_iff.mp ran
  cases same
  obtain ⟨image, pos, stopped⟩ := replicatedLife_stopped isReplicated
  obtain ⟨run, running, flushed⟩ := reopen_eq_some again
  exact ⟨smallSetup, life, image, pos, reopened, _, final, stopped, run,
    running, flushed, lost⟩

/-- Page 2 is committed, and a TRUNCATE checkpoint empties the WAL. -/
def truncatedReopen : Option (Lifetime × Lifetime × State) :=
  replicatedLife.bind fun life =>
    (reopen life [.step (commitPage 2 2), .step .appTruncate] [0, 0]).map
      fun result => (life, result)

theorem reopen_restores_iff_truncated :
    ∃ result ∈ truncatedReopen, restore result.2.2.store =
      .ok (result.2.2.db.committedImage smallSetup.pageSize) := by
  have runs : ∃ result ∈ truncatedReopen,
      result.2.1.syncer.db.wal = none := by
    decide +kernel
  obtain ⟨⟨life, reopened, final⟩, ran, emptied⟩ := runs
  obtain ⟨replicated, isReplicated, again⟩ := Option.bind_eq_some_iff.mp ran
  obtain ⟨result, again, same⟩ := Option.map_eq_some_iff.mp again
  cases same
  obtain ⟨image, pos, stopped⟩ := replicatedLife_stopped isReplicated
  obtain ⟨run, running, flushed⟩ := reopen_eq_some again
  refine ⟨_, ran, (reopen_restores_iff stopped run running flushed).mpr ?_⟩
  refine .inr fun wal present => ?_
  rw [emptied] at present
  cases present

end Literstream
