import Literstream.Sync.Effects

/-!
# Following the database

The invariant of a syncer whose uploads all succeed: the replica, with the
pending file on top, is aligned with the database, unless nothing was synced yet
or the running call is going to take a snapshot.  Only discarding WAL frames
that are not captured can break it.
-/

namespace Literstream

open Std PagedFile Machine

section Tracking

variable {setup : Setup} {state next : State} {image target : Bytes}

theorem Tracks.kept (tracks : Tracks setup state image target)
    (dbOk : DbOk setup.pageSize next.db)
    (salts : state.db.lastSalt1 ≤ next.db.lastSalt1)
    (store : next.store = state.store) (staging : next.staging = state.staging)
    (pos : next.pos = state.pos) (pending : next.pending = state.pending) :
    Tracks setup next image target := by
  have ahead : next.ahead = state.ahead := by
    rw [State.ahead, State.ahead, pending, pos]
  constructor
  · exact dbOk
  · rw [store, pos]
    exact tracks.replica
  · rw [pending]
    exact tracks.free
  · rw [pending, staging, pos]
    exact tracks.waiting
  · rw [pos]
    exact Nat.le_trans tracks.salts salts
  · rw [ahead]
    exact Nat.le_trans tracks.aheadSalts salts

/-- A new staged file captures the whole database. -/
theorem Tracks.staged (tracks : Tracks setup state image target)
    {staged : StagedFile} {file : LtxFile} {now : Int} (db : next.db = state.db)
    (built : (state.pos.txid = 0 ∨
          Aligned setup.pageSize image state.pos state.db) ∧
        buildUnderLock setup.pageSize now state.pos state.db =
          .ok (some (staged, file)) ∨
      buildSnapshotNow setup.pageSize now state.pos state.db =
        .ok (staged, file))
    (store : next.store = state.store)
    (staging : next.staging = state.staging.insert staged.key file)
    (pos : next.pos = state.pos) (pending : next.pending = some staged) :
    Tracks setup next image (applyFile image file) ∧
      Aligned setup.pageSize (applyFile image file) next.ahead next.db ∧
      AtEnd setup.pageSize next.ahead next.db := by
  have ahead : next.ahead = staged.newPos := by rw [State.ahead, pending]; rfl
  have stagedOk : StagedOk setup.pageSize state.pos staged file := by
    rcases built with ⟨_, built⟩ | built
    · exact buildUnderLock_staged built
    · exact buildSnapshot_staged built
  have capturing : Capturing setup.pageSize state.db image staged file := by
    rcases built with ⟨start, built⟩ | built
    · exact buildUnderLock_spec setup.positive tracks.db tracks.replica.image
        start built
    · exact buildSnapshot_spec setup.positive tracks.db.readable
        tracks.replica.image built
  rw [ahead, db]
  refine ⟨?_, capturing.aligned⟩
  constructor
  · rw [db]
    exact tracks.db
  · rw [store, pos]
    exact tracks.replica
  · rw [pending]
    exact fun impossible => by cases impossible
  · rw [pending, staging, pos]
    rintro _ ⟨⟩
    exact ⟨file, ExtTreeMap.getElem?_insert_self, stagedOk, rfl⟩
  · rw [pos, db]
    exact tracks.salts
  · rw [ahead, db, capturing.salt1]
    cases present : state.db.wal with
    | none => exact Nat.zero_le _
    | some wal => exact (tracks.db.salts wal present).2

theorem Tracks.uploaded (tracks : Tracks setup state image target)
    {staged : StagedFile} {file : LtxFile} (pending : state.pending = some staged)
    (held : state.staging[staged.key]? = some file)
    (db : next.db = state.db)
    (store : next.store = state.store.insert staged.key file)
    (pos : next.pos = staged.newPos) (free : next.pending = none) :
    Tracks setup next target target := by
  obtain ⟨other, same, stagedOk, targetImage⟩ := tracks.waiting staged pending
  rw [held] at same
  cases same
  have ahead : state.ahead = staged.newPos := by rw [State.ahead, pending]; rfl
  have aheadSalts := tracks.aheadSalts
  rw [ahead] at aheadSalts
  constructor
  · rw [db]
    exact tracks.db
  · rw [store, pos, stagedOk.key, stagedOk.txid, targetImage]
    exact tracks.replica.next setup.positive stagedOk.pageSize
  · exact fun _ => rfl
  · rw [free]
    exact fun _ impossible => by cases impossible
  · rw [pos, db]
    exact aheadSalts
  · rw [State.ahead, free, Option.map_none, Option.getD_none, pos, db]
    exact aheadSalts

theorem Tracks.dropped (tracks : Tracks setup state image target)
    (db : next.db = state.db) (store : next.store = state.store)
    (pos : next.pos = state.pos) (free : next.pending = none) :
    Tracks setup next image image := by
  constructor
  · rw [db]
    exact tracks.db
  · rw [store, pos]
    exact tracks.replica
  · exact fun _ => rfl
  · rw [free]
    exact fun _ impossible => by cases impossible
  · rw [pos, db]
    exact tracks.salts
  · rw [State.ahead, free, Option.map_none, Option.getD_none, pos, db]
    exact tracks.salts

end Tracking

/-- Discarding the frames in the WAL loses nothing: all of them are captured, or
a snapshot is to come anyway. -/
def State.DiscardSafe (setup : Setup) (state : State) : Prop :=
  state.ahead.txid = 0 ∨ state.Noticed ∨
    AtEnd setup.pageSize state.ahead state.db

/-- Every commit that an action makes is one of whole transactions. -/
def State.Fits (setup : Setup) (state : State) (action : Action) : Prop :=
  ∀ op, action.dbOp = some op → op.Fits setup.pageSize state.db

/-- An action discards a WAL generation only when that is safe. -/
def State.Careful (setup : Setup) (state : State) (action : Action) : Prop :=
  ∀ op, action.dbOp = some op → op.discards = true → state.DiscardSafe setup

/-- A syncer just opened on a replica that fits the database. -/
structure Opened (setup : Setup) (state : State) (image : Bytes) : Prop where
  idle : state.pc = .idle
  db : DbOk setup.pageSize state.db
  replica : Restores setup.pageSize state.store state.pos.txid image
  salts : state.pos.salt1 ≤ state.db.lastSalt1
  resumes : state.pos.txid = 0 ∨
    Aligned setup.pageSize image state.pos state.db

structure Follows (setup : Setup) (state : State) (image target : Bytes) :
    Prop extends Tracks setup state image target where
  reach : state.ahead.txid = 0 ∨ state.Noticed ∨
    Aligned setup.pageSize target state.ahead state.db

/-- Some images make the invariant hold. -/
def Followed (setup : Setup) (state : State) : Prop :=
  ∃ image target, Follows setup state image target

section Following

variable {setup : Setup} {state next : State} {action : Action}
  {image target : Bytes}

theorem State.pending_idle (idle : state.pc = .idle) : state.pending = none := by
  rw [State.pending, idle]

theorem State.unnoticed_idle (idle : state.pc = .idle) : ¬ state.Noticed := by
  rw [State.Noticed, idle]
  exact id

theorem State.ahead_free (free : state.pending = none) :
    state.ahead = state.pos := by
  rw [State.ahead, free]
  rfl

theorem Opened.tracks (opened : Opened setup state image) :
    Tracks setup state image image where
  db := opened.db
  replica := opened.replica
  free := fun _ => rfl
  waiting := fun _ impossible => by
    rw [State.pending_idle opened.idle] at impossible
    cases impossible
  salts := opened.salts
  aheadSalts := by
    rw [State.ahead_free (State.pending_idle opened.idle)]
    exact opened.salts

theorem Opened.follows (opened : Opened setup state image) :
    Follows setup state image image where
  toTracks := opened.tracks
  reach := by
    rw [State.ahead_free (State.pending_idle opened.idle)]
    exact opened.resumes.imp id .inr

/-- The database after a step is well formed and its salts only grow. -/
theorem DbOk.step (ok : DbOk setup.pageSize state.db)
    (fits : state.Fits setup action)
    (stepped : state.step setup action = some next) :
    DbOk setup.pageSize next.db ∧
      state.db.lastSalt1 ≤ next.db.lastSalt1 := by
  have done := State.step_db stepped
  cases touched : action.dbOp with
  | none =>
      rw [touched] at done
      rw [done]
      exact ⟨ok, Nat.le_refl _⟩
  | some op =>
      rw [touched] at done
      exact ⟨ok.apply setup.positive (fits op touched) done,
        Sqlite.lastSalt1_apply done⟩

theorem Tracks.step_db (tracks : Tracks setup state image target)
    (fits : state.Fits setup action)
    (stepped : state.step setup action = some next) :
    DbOk setup.pageSize next.db ∧
      state.db.lastSalt1 ≤ next.db.lastSalt1 :=
  tracks.db.step fits stepped

/-- A position stays aligned in a step that discards nothing but captured
frames. -/
theorem Tracks.step_aligned (tracks : Tracks setup state image target)
    (fits : state.Fits setup action)
    (stepped : state.step setup action = some next) {current : Bytes}
    {pos : Position} (currentOk : ImageOk setup.pageSize current)
    (salts : pos.salt1 ≤ state.db.lastSalt1)
    (safe : ∀ op, action.dbOp = some op → op.discards = true →
      AtEnd setup.pageSize pos state.db)
    (aligned : Aligned setup.pageSize current pos state.db) :
    Aligned setup.pageSize current pos next.db := by
  have done := State.step_db stepped
  cases touched : action.dbOp with
  | none =>
      rw [touched] at done
      rw [done]
      exact aligned
  | some op =>
      rw [touched] at done
      exact aligned.apply setup.positive tracks.db currentOk salts
        (fits op touched) done (safe op touched)

theorem Tracks.targetOk (tracks : Tracks setup state image target) :
    ImageOk setup.pageSize target := by
  cases waiting : state.pending with
  | none =>
      rw [tracks.free waiting]
      exact tracks.replica.image
  | some staged =>
      obtain ⟨file, _, stagedOk, rfl⟩ := tracks.waiting staged waiting
      exact tracks.replica.image.applyFile setup.positive stagedOk.pageSize

theorem Follows.step (follows : Follows setup state image target)
    (fits : state.Fits setup action) (careful : state.Careful setup action)
    (succeeds : action.fails = false)
    (stepped : state.step setup action = some next) :
    Followed setup next := by
  have tracks := follows.toTracks
  obtain ⟨dbOk, salts⟩ := tracks.step_db fits stepped
  cases step_effect tracks stepped with
  | kept store staging pos pending noticed =>
      have ahead : next.ahead = state.ahead := by
        rw [State.ahead, State.ahead, pending, pos]
      refine ⟨image, target, tracks.kept dbOk salts store staging pos pending,
        ?_⟩
      rw [ahead]
      rcases follows.reach with first | already | aligned
      · exact .inl first
      · exact .inr (.inl (noticed already))
      · by_cases first : state.ahead.txid = 0
        · exact .inl first
        · by_cases already : state.Noticed
          · exact .inr (.inl (noticed already))
          · refine .inr (.inr ?_)
            apply tracks.step_aligned fits stepped tracks.targetOk
              tracks.aheadSalts _ aligned
            intro op touched discards
            exact ((careful op touched discards).resolve_left first).resolve_left
              already
  | staged staged file now free db built store staging pos pending =>
      have ahead := State.ahead_free free
      have same := tracks.free free
      have start : (state.pos.txid = 0 ∨
            Aligned setup.pageSize image state.pos state.db) ∧
          buildUnderLock setup.pageSize now state.pos state.db =
            .ok (some (staged, file)) ∨
          buildSnapshotNow setup.pageSize now state.pos state.db =
            .ok (staged, file) := by
        rcases built with ⟨unnoticed, built⟩ | built
        · have reach := follows.reach
          rw [ahead, same] at reach
          rcases reach with first | already | aligned
          · exact .inl ⟨.inl first, built⟩
          · exact absurd already unnoticed
          · exact .inl ⟨.inr aligned, built⟩
        · exact .inr built
      obtain ⟨nextTracks, aligned, _⟩ :=
        tracks.staged db start store staging pos pending
      exact ⟨image, _, nextTracks, .inr (.inr aligned)⟩
  | uploaded staged file pending held db store staging pos free noticed =>
      have ahead : next.ahead = state.ahead := by
        rw [State.ahead_free free, State.ahead, pending, pos]
        rfl
      refine ⟨target, target,
        tracks.uploaded pending held db store pos free, ?_⟩
      rw [ahead, db]
      exact follows.reach.imp id fun later => later.imp noticed id
  | dropped failed db store staging pos free =>
      rw [succeeds] at failed
      cases failed

/-! ## Draining -/

/-- A successful sync, in two steps. -/
def Action.drains : Action → Prop
  | .sync _ => True
  | .upload ok _ => ok = true
  | _ => False

theorem Action.drains_dbOp (drains : action.drains) : action.dbOp = none := by
  cases action with
  | sync now => rfl
  | upload ok now => rfl
  | _ => exact drains.elim

theorem Action.drains_fails (drains : action.drains) :
    action.fails = false := by
  cases action with
  | sync now => rfl
  | upload ok now =>
      have succeeds : ok = true := drains
      rw [succeeds]
      rfl
  | _ => exact drains.elim

/-- What an upload makes of the state does not depend on the running call. -/
theorem State.finish_syncUpload {staged : StagedFile} {now : Int}
    {uploaded : State}
    (done : state.uploadStaged setup staged now = .ok uploaded) :
    State.finish setup { state with pc := .syncUpload staged } true now staged
        (fun uploaded => { uploaded with pc := .idle }) =
      { uploaded with pc := .idle } := by
  rw [State.uploadStaged, bind_eq_ok] at done
  obtain ⟨read, readOk, done⟩ := done
  rw [bind_eq_ok] at done
  obtain ⟨store, put, done⟩ := done
  cases done
  simp only [State.finish, State.uploadStaged, readOk, put, bind, Except.bind,
    pure, Except.pure]

/-- A flush is a run of successful syncs up to a state with nothing to sync. -/
theorem State.flush_reaches {times : List Int} {final : State}
    (idle : state.pc = .idle) (flushed : state.flush setup times = some final) :
    ∃ middle now, Reaches (State.step setup) (fun _ action => action.drains)
        state middle ∧
      middle.pc = .idle ∧ middle.buildNext setup now = (final, .ok none) := by
  induction times generalizing state with
  | nil => cases flushed
  | cons now rest ih =>
      unfold State.flush at flushed
      split at flushed
      · cases flushed
      · rename_i held built
        cases flushed
        exact ⟨state, now, .refl, idle, built⟩
      · rename_i held staged built
        split at flushed
        · cases flushed
        · rename_i uploaded done
          have sync : state.step setup (.sync now) =
              some { held with pc := .syncUpload staged } := by
            simp only [State.step]
            rw [if_pos idle, State.sync, built]
          have heldIdle : held.pc = .idle := by
            obtain ⟨mark, locked⟩ := State.acquireReadLock_eq state
            rcases State.buildNext_cases setup state now with
              ⟨_, other, _⟩ | ⟨other, _⟩ | ⟨_, _, other, _⟩
            · rw [built] at other
              cases other
            · rw [built] at other
              cases other
            · rw [built] at other
              cases other
              rw [locked]
              exact idle
          obtain ⟨file, found, same⟩ := State.uploadStaged_eq_ok done
          have uploadedIdle : uploaded.pc = .idle := by
            rw [same]
            exact heldIdle
          have upload : State.step setup { held with pc := .syncUpload staged }
              (.upload true now) = some uploaded := by
            change some (State.finish setup _ true now staged _) = _
            rw [State.finish_syncUpload done, ← uploadedIdle]
          obtain ⟨middle, last, run, ends⟩ := ih uploadedIdle flushed
          refine ⟨middle, last, ?_, ends⟩
          exact (Reaches.tail (.tail .refl trivial sync) rfl upload).trans run

theorem State.fits_of_drains (drains : action.drains) :
    state.Fits setup action := by
  intro op touched
  rw [Action.drains_dbOp drains] at touched
  cases touched

theorem State.careful_of_drains (drains : action.drains) :
    state.Careful setup action := by
  intro op touched
  rw [Action.drains_dbOp drains] at touched
  cases touched

theorem State.drains_db {middle : State}
    (run : Reaches (State.step setup) (fun _ action => action.drains)
      state middle) : middle.db = state.db := by
  induction run with
  | refl => rfl
  | tail _ drains stepped ih =>
      have done := State.step_db stepped
      rw [Action.drains_dbOp drains] at done
      rw [done, ih]

theorem State.buildNext_none {now : Int} {final : State}
    (ends : state.buildNext setup now = (final, .ok none)) :
    final.db = state.db ∧ final.store = state.store ∧
      buildUnderLock setup.pageSize now state.pos state.db = .ok none := by
  obtain ⟨mark, held⟩ := State.acquireReadLock_eq state
  rcases State.buildNext_cases setup state now with
    ⟨_, other, _⟩ | ⟨other, under⟩ | ⟨_, _, other, _⟩
  · rw [ends] at other
    cases other
  · rw [ends] at other
    cases other
    rw [held]
    exact ⟨rfl, rfl, under⟩
  · rw [ends] at other
    cases other

/-- When there is nothing to sync, the replica restores the committed image. -/
theorem Tracks.drained (tracks : Tracks setup state image target)
    (start : state.pos.txid = 0 ∨
      Aligned setup.pageSize image state.pos state.db) {now : Int}
    {final : State} (ends : state.buildNext setup now = (final, .ok none)) :
    restore final.store = .ok (state.db.committedImage setup.pageSize) := by
  obtain ⟨_, store, built⟩ := State.buildNext_none ends
  obtain ⟨synced, same, _⟩ := buildUnderLock_spec setup.positive tracks.db
    tracks.replica.image start built
  rw [store, ← same]
  exact tracks.replica.restore (Nat.pos_of_ne_zero synced)

/-- A flush brings the replica to the committed image. -/
theorem Follows.flush (follows : Follows setup state image target)
    {times : List Int} {final : State} (idle : state.pc = .idle)
    (flushed : state.flush setup times = some final) :
    restore final.store = .ok (state.db.committedImage setup.pageSize) := by
  obtain ⟨middle, now, run, stopped, ends⟩ := State.flush_reaches idle flushed
  have still := State.drains_db run
  have followed : Followed setup state := ⟨image, target, follows⟩
  obtain ⟨image, target, reached⟩ := run.invariant followed
    fun _ _ _ ⟨_, _, now⟩ drains stepped =>
      now.step (State.fits_of_drains drains)
        (State.careful_of_drains drains) (Action.drains_fails drains) stepped
  have free := State.pending_idle stopped
  have reach := reached.reach
  rw [State.ahead_free free, reached.free free] at reach
  have start : middle.pos.txid = 0 ∨
      Aligned setup.pageSize image middle.pos middle.db := by
    rcases reach with first | noticed | aligned
    · exact .inl first
    · exact absurd noticed (State.unnoticed_idle stopped)
    · exact .inr aligned
  rw [← still]
  exact reached.drained start ends

end Following

end Literstream
