import Literstream.Sync.Chronicle

/-!
# Replicas that tell what was committed

Commits, syncs, checkpoints, level compactions, snapshots, retention, failed
uploads, crashes and recoveries in any order keep the replica consistent: it
restores committed images only, in the order of their commits, and no TXID ever
changes its meaning.
-/

namespace Literstream

open Std PagedFile Machine

section Uploads

variable {setup : Setup} {chronicle : Chronicle} {history : History}
  {top : Nat} {key : FileKey} {file : LtxFile}

/-- What the store holds once it took a staged file. -/
structure Took (setup : Setup) (chronicle : Chronicle) (key : FileKey)
    (file : LtxFile) (history : History) (top : Nat) : Prop where
  address : key = ⟨level0, top, top⟩
  synced : 0 < top
  sized : ∀ txid, history.pageSize txid = setup.pageSize
  archived : Archived history top (chronicle.life.syncer.store.insert key file)
  recorded : (history.images top).Sublist chronicle.commits
  ready : Ready setup.pageSize (history.image top) file.ends
    chronicle.life.syncer.db

/-- An insertion of what is already there. -/
theorem insert_held {store : Store} (held : store[key]? = some file) :
    store.insert key file = store := by
  apply ExtTreeMap.ext_getElem?
  intro other
  rw [OrderedMap.getElem?_insert]
  split
  · rename_i same
    rw [same, held]
  · rfl

/-- A staged file that leads on takes the next TXID. -/
theorem Chronicled.take_next
    (chronicled : Chronicled setup chronicle history top)
    (leads : Leads setup chronicle.life.syncer.db chronicle.commits history top
      file) :
    ∃ history', History.Agree history history' top ∧
      history'.image (top + 1) = applyFile (history.image top) file ∧
      Took setup chronicle ⟨level0, top + 1, top + 1⟩ file history'
        (top + 1) := by
  have continues := leads.follower.continues chronicled.sized
  have image := History.image_extend continues
  have agree := History.agree_extend continues
  refine ⟨history.extend top file continues, agree, image, rfl,
    Nat.succ_pos top, fun _ => leads.follower.pageSize,
    chronicled.archived.extend chronicled.sized leads.follower, ?_, ?_⟩
  · rw [History.images_succ, ← agree.images, image]
    exact leads.recorded
  · rw [image]
    exact leads.ready

/-- Whatever is staged, the replica is in order once the store took it. -/
theorem Chronicled.take (chronicled : Chronicled setup chronicle history top)
    (held : chronicle.life.syncer.staging[key]? = some file) :
    ∃ history' top', top ≤ top' ∧ History.Agree history history' top ∧
      Took setup chronicle key file history' top' := by
  rcases chronicled.staged key file held with
    ⟨rfl, leads⟩ | ⟨down, rfl, stored⟩
  · obtain ⟨history', agree, _, took⟩ := chronicled.take_next leads
    exact ⟨history', top + 1, Nat.le_succ top, agree, took⟩
  · have member := (OrderedMap.mem_iff_exists _ _).mpr ⟨file, held⟩
    have alone : (⟨level0, top + 1, top + 1⟩ : FileKey) ∉
        chronicle.life.syncer.staging := by
      intro next
      have same := chronicled.single _ member _ next
      simp at same
    refine ⟨history, top, Nat.le_refl top, .refl history top, rfl, ?_,
      chronicled.sized, ?_, chronicled.recorded,
      chronicled.resting down alone file stored⟩
    · rcases Nat.eq_zero_or_pos top with rfl | positive
      · rw [chronicled.archived.not_zero, ExtTreeMap.getElem?_empty] at stored
        cases stored
      · exact positive
    · rw [insert_held stored]
      exact chronicled.archived

/-- The store takes whatever is staged. -/
theorem Chronicled.accepts (chronicled : Chronicled setup chronicle history top)
    (held : chronicle.life.syncer.staging[key]? = some file) :
    chronicle.life.syncer.store[key]? = none ∨
      chronicle.life.syncer.store[key]? = some file := by
  rcases chronicled.staged key file held with ⟨rfl, _⟩ | ⟨_, rfl, stored⟩
  · exact .inl (chronicled.archived.fresh (Nat.lt_succ_self top))
  · exact .inr stored

end Uploads

/-! ## Steps of an open syncer -/

section Steps

variable {setup : Setup} {state next : State} {action : Action}

/-- What holds of the database before a step and after its operation holds
after the step. -/
theorem State.db_cases {motive : Sqlite → Prop}
    (stepped : state.step setup action = some next) (still : motive state.db)
    (changed : ∀ op, action.dbOp = some op →
      state.db.apply setup.pageSize op = some next.db → motive next.db) :
    motive next.db := by
  have done := State.step_db stepped
  cases touched : action.dbOp with
  | none =>
      rw [touched] at done
      rw [done]
      exact still
  | some op =>
      rw [touched] at done
      exact changed op touched done

variable {image : Bytes} {top : Nat}

/-- Without a pending file the next sync goes on from the position. -/
theorem Running.resumes (running : Running setup state image top)
    (free : state.pending = none) :
    state.pos.txid = 0 ∨ InStep setup.pageSize image state.pos state.db := by
  rcases running.fallback with first | inStep | ⟨staged, pending, _⟩
  · exact .inl first
  · exact .inr inStep
  · rw [free] at pending
    cases pending

/-- Nothing is staged without a reason: a pending file is there. -/
theorem Running.pending_staged (running : Running setup state image top)
    {staged : StagedFile} (pending : state.pending = some staged) :
    ∃ file, state.staging[staged.key]? = some file ∧
      staged.key = ⟨level0, top + 1, top + 1⟩ ∧
      staged.newPos.txid = top + 1 ∧ staged.newPos.EndOf file := by
  obtain ⟨target, retries⟩ := running.retries
  obtain ⟨file, held, stagedOk, _⟩ := retries.waiting staged pending
  refine ⟨file, held, ?_, ?_, stagedOk.offset.symm, stagedOk.salt1.symm,
    stagedOk.salt2.symm⟩
  · rw [stagedOk.key, running.txid]
  · rw [stagedOk.txid, running.txid]

theorem Running.free (running : Running setup state image top)
    (empty : state.staging = ∅) : state.pending = none := by
  cases pending : state.pending with
  | none => rfl
  | some staged =>
      obtain ⟨file, held, _⟩ := running.pending_staged pending
      rw [empty, ExtTreeMap.getElem?_empty] at held
      cases held

theorem Running.raw (running : Running setup state image top) :
    state.PendingRaw := by
  intro staged pending
  obtain ⟨_, _, key, _⟩ := running.pending_staged pending
  rw [key]

/-- With nothing staged, the next sync can go on from the newest file. -/
theorem Running.ready (running : Running setup state image top)
    (empty : state.staging = ∅) (synced : 0 < top) {file : LtxFile}
    (held : state.store[(⟨level0, top, top⟩ : FileKey)]? = some file) :
    Ready setup.pageSize image file.ends state.db := by
  have free := running.free empty
  obtain ⟨target, retries⟩ := running.retries
  have ends := running.newest file held
  have later : state.pos.txid ≠ 0 := by
    rw [running.txid]
    exact Nat.pos_iff_ne_zero.mp synced
  have folded := retries.folded fun _ => empty
  rw [State.ahead_free free] at folded
  have ready : Ready setup.pageSize image state.pos state.db :=
    ⟨retries.salts, (running.resumes free).resolve_left later,
      folded.resolve_left later⟩
  exact ready.congr ends.1.symm ends.2.1.symm ends.2.2.symm

/-- A position before the first sync, or in step with the database, is inside
the WAL. -/
theorem Running.inside (running : Running setup state image top)
    (ok : DbOk setup.pageSize state.db) (free : state.pending = none) :
    ∀ wal, state.db.wal = some wal →
      wal.captured setup.pageSize state.pos ≤ wal.frames.length := by
  rcases running.resumes free with first | inStep
  · intro wal present
    have positive := (ok.salts wal present).1
    rw [captured_new (by rw [running.unsynced first]; omega)]
    exact Nat.zero_le _
  · exact inStep.inside

/-- What a step does to the position that a lost upload falls back on. -/
theorem Running.step_fallback (running : Running setup state image top)
    (calls : state.RetryCalls setup action) (shipped : state.Shipped action)
    (stepped : state.step setup action = some next) :
    state.pos.txid = 0 ∨ InStep setup.pageSize image state.pos next.db ∨
      ∃ staged, state.pending = some staged ∧
        Superseded staged.newPos.salt1 next.db := by
  obtain ⟨target, retries⟩ := running.retries
  have tracks := retries.toTracks
  apply State.db_cases (motive := fun db => state.pos.txid = 0 ∨
    InStep setup.pageSize image state.pos db ∨
      ∃ staged, state.pending = some staged ∧
        Superseded staged.newPos.salt1 db) stepped running.fallback
  intro op touched done
  rcases running.fallback with first | inStep | ⟨staged, pending, gone⟩
  · exact .inl first
  · have keeps (safe : op.discards = true →
        AtEnd setup.pageSize state.pos state.db) :
        InStep setup.pageSize image state.pos next.db :=
      inStep.apply setup.positive tracks.db tracks.replica.image tracks.salts
        (calls.1 op touched) done safe
    by_cases discards : op.discards = true
    · cases pending : state.pending with
      | none =>
          have ended :=
            retries.discard_atEnd calls shipped stepped touched discards
          rw [State.ahead_free pending] at ended
          exact ended.imp id fun atEnd => .inl (keeps fun _ => atEnd)
      | some staged =>
          have inside : state.InWindow := by
            rcases State.discards_where calls stepped touched discards with
              inside | ⟨idle, _⟩
            · exact inside
            · rw [State.pending_idle idle] at pending
              cases pending
          have ahead : state.ahead = staged.newPos := by
            rw [State.ahead, pending]
            rfl
          -- either everything was captured before, or the staged file did it
          rcases (retries.window inside).generation tracks.db inStep.aligned
            with atEnd | ⟨wal, present, salt1, _⟩
          · exact .inr (.inl (keeps fun _ => atEnd))
          · refine .inr (.inr ⟨staged, rfl, ?_⟩)
            rw [← ahead, ← salt1]
            exact superseded_of_discards tracks.db present discards done
    · exact .inr (.inl (keeps fun impossible => absurd impossible discards))
  · refine .inr (.inr ⟨staged, pending, gone.apply ?_ done⟩)
    have salts := tracks.aheadSalts
    rw [State.ahead, pending] at salts
    exact salts

/-- Frames are folded or discarded behind the end of the staged file only. -/
theorem Running.staged_atEnd (running : Running setup state image top)
    (calls : state.RetryCalls setup action) (shipped : state.Shipped action)
    (stepped : state.step setup action = some next) {op : SqliteOp}
    (touched : action.dbOp = some op) (other : op.appends = false)
    {file : LtxFile} {later : Bytes}
    (held : state.staging[(⟨level0, top + 1, top + 1⟩ : FileKey)]? = some file)
    (ready : Ready setup.pageSize later file.ends state.db) :
    AtEnd setup.pageSize file.ends state.db := by
  obtain ⟨target, retries⟩ := running.retries
  have nonempty : state.staging ≠ ∅ := by
    intro empty
    rw [empty, ExtTreeMap.getElem?_empty] at held
    cases held
  have inside : state.InWindow := by
    cases op with
    | append salt2 txn => cases other
    | checkpoint frames => exact State.checkpoints_where calls stepped touched
    | _ =>
        rcases State.discards_where calls stepped touched rfl with
          inside | ⟨idle, _⟩
        · exact inside
        · exact absurd (shipped.1 _ touched rfl (State.pending_idle idle))
            nonempty
  have atEnd := retries.window inside
  cases pending : state.pending with
  | none =>
      rw [State.ahead_free pending] at atEnd
      exact (running.behind file held).atEnd ready atEnd
  | some staged =>
      obtain ⟨found, foundHeld, key, _, ends⟩ := running.pending_staged pending
      rw [key, held] at foundHeld
      cases foundHeld
      have ahead : state.ahead = staged.newPos := by
        rw [State.ahead, pending]
        rfl
      rw [ahead] at atEnd
      exact atEnd.congr ends.1.symm ends.2.1.symm ends.2.2.symm

end Steps

/-! ## The record after a step -/

section Acting

variable {setup : Setup} {chronicle after : Chronicle} {action : Action}
  {history : History} {top : Nat}

/-- An open syncer stages nothing but the next file. -/
theorem Chronicled.leads (chronicled : Chronicled setup chronicle history top)
    (up : chronicle.life.phase = .running) {key : FileKey} {file : LtxFile}
    (held : chronicle.life.syncer.staging[key]? = some file) :
    key = ⟨level0, top + 1, top + 1⟩ ∧
      Leads setup chronicle.life.syncer.db chronicle.commits history top
        file := by
  rcases chronicled.staged key file held with leads | ⟨down, _⟩
  · exact leads
  · exact absurd up down

theorem Leads.imageOk {db : Sqlite} {commits : List Bytes} {file : LtxFile}
    (leads : Leads setup db commits history top file)
    (sized : ∀ txid, history.pageSize txid = setup.pageSize) :
    ImageOk setup.pageSize (applyFile (history.image top) file) := by
  have imageOk := history.imageOk top
  rw [sized] at imageOk
  exact imageOk.applyFile setup.positive leads.follower.pageSize

/-- A staged file stays good in a later database. -/
theorem Leads.later {db next : Sqlite} {commits : List Bytes} {file : LtxFile}
    (leads : Leads setup db commits history top file)
    (ready : Ready setup.pageSize (applyFile (history.image top) file)
      file.ends next) (more : List Bytes) :
    Leads setup next (commits ++ more) history top file :=
  ⟨leads.follower, ready,
    leads.recorded.trans (List.sublist_append_left _ _)⟩

/-- A step of the syncer, as the record sees it. -/
structure Acts (setup : Setup) (chronicle : Chronicle) (action : Action)
    (after : Chronicle) : Prop where
  up : chronicle.life.phase = .running
  stepped : chronicle.life.syncer.step setup action = some after.life.syncer
  phase : after.life.phase = .running
  commits : after.commits = chronicle.commits ++
    [after.life.syncer.db.committedImage setup.pageSize]
  calls : chronicle.life.syncer.RetryCalls setup action
  shipped : chronicle.life.syncer.Shipped action

theorem Acts.recorded (acts : Acts setup chronicle action after)
    {images : List Bytes} (recorded : images.Sublist chronicle.commits) :
    images.Sublist after.commits := by
  rw [acts.commits]
  exact recorded.trans (List.sublist_append_left _ _)

/-- What is staged stays good whatever the step does to the database. -/
theorem Chronicled.act_leads
    (chronicled : Chronicled setup chronicle history top)
    (acts : Acts setup chronicle action after) {key : FileKey} {file : LtxFile}
    (held : chronicle.life.syncer.staging[key]? = some file) :
    key = ⟨level0, top + 1, top + 1⟩ ∧
      Leads setup after.life.syncer.db after.commits history top file := by
  obtain ⟨rfl, leads⟩ := chronicled.leads acts.up held
  have running := chronicled.running acts.up
  have ready : Ready setup.pageSize (applyFile (history.image top) file)
      file.ends after.life.syncer.db := by
    apply State.db_cases (motive := fun db => Ready setup.pageSize
      (applyFile (history.image top) file) file.ends db) acts.stepped
      leads.ready
    intro op touched done
    exact leads.ready.apply setup.positive chronicled.db
      (leads.imageOk chronicled.sized) (acts.calls.1 op touched) done
      fun other => running.staged_atEnd acts.calls acts.shipped acts.stepped
        touched other held leads.ready
  refine ⟨rfl, ?_⟩
  rw [acts.commits]
  exact leads.later ready _

/-- The mirror of the store after a step. -/
theorem Chronicled.act_mirrors
    (chronicled : Chronicled setup chronicle history top)
    (acts : Acts setup chronicle action after) :
    Mirrors after.life.syncer.files after.life.syncer.store :=
  (chronicled.running acts.up).mirrors.step (chronicled.running acts.up).raw
    acts.stepped

/-- What a step leaves of the invariant when the replica stays as it is. -/
theorem Chronicled.of_replica
    (chronicled : Chronicled setup chronicle history top)
    (acts : Acts setup chronicle action after)
    (store : after.life.syncer.store = chronicle.life.syncer.store)
    (staged : ∀ (key : FileKey) (file : LtxFile),
      after.life.syncer.staging[key]? = some file →
      key = ⟨level0, top + 1, top + 1⟩ ∧
        Leads setup after.life.syncer.db after.commits history top file)
    (running : Running setup after.life.syncer (history.image top) top) :
    Chronicled setup after history top where
  db := (chronicled.db.step acts.calls.1 acts.stepped).1
  sized := chronicled.sized
  archived := by
    rw [store]
    exact chronicled.archived
  recorded := acts.recorded chronicled.recorded
  staged := fun key file held => .inl (staged key file held)
  single := by
    intro left leftMember right rightMember
    obtain ⟨leftFile, leftHeld⟩ := (OrderedMap.mem_iff_exists _ _).mp leftMember
    obtain ⟨rightFile, rightHeld⟩ :=
      (OrderedMap.mem_iff_exists _ _).mp rightMember
    rw [(staged left leftFile leftHeld).1, (staged right rightFile rightHeld).1]
  resting := fun down => absurd acts.phase down
  recovering := by
    intro remaining recovering
    rw [acts.phase] at recovering
    cases recovering
  running := fun _ => running

/-- The step keeps what is staged. -/
theorem Chronicled.act_kept
    (chronicled : Chronicled setup chronicle history top)
    (acts : Acts setup chronicle action after)
    (store : after.life.syncer.store = chronicle.life.syncer.store)
    (staging : after.life.syncer.staging = chronicle.life.syncer.staging)
    (pos : after.life.syncer.pos = chronicle.life.syncer.pos)
    (pending : after.life.syncer.pending = chronicle.life.syncer.pending) :
    Chronicled setup after history top := by
  have running := chronicled.running acts.up
  obtain ⟨target, retries⟩ := running.retries
  have fallback := running.step_fallback acts.calls acts.shipped acts.stepped
  apply chronicled.of_replica acts store
  · intro key file held
    rw [staging] at held
    exact chronicled.act_leads acts held
  · refine ⟨by rw [pos, running.txid], chronicled.act_mirrors acts, ⟨target,
      retries.kept acts.calls acts.shipped acts.stepped store staging pos
        pending⟩, ?_, ?_, ?_, ?_⟩
    · rw [pos, pending]
      exact fallback
    · rw [pos]
      exact running.unsynced
    · rw [store, pos]
      exact running.newest
    · rw [staging, pos]
      intro file held
      apply State.db_cases (motive := fun db => Behind setup.pageSize
        chronicle.life.syncer.pos file.ends db) acts.stepped
        (running.behind file held)
      intro op touched done
      exact (running.behind file held).apply retries.salts done

/-- The step gives up the pending file, which stays in the staging
directory. -/
theorem Chronicled.act_dropped
    (chronicled : Chronicled setup chronicle history top)
    (acts : Acts setup chronicle action after) (failed : action.fails = true)
    (db : after.life.syncer.db = chronicle.life.syncer.db)
    (store : after.life.syncer.store = chronicle.life.syncer.store)
    (staging : after.life.syncer.staging = chronicle.life.syncer.staging)
    (pos : after.life.syncer.pos = chronicle.life.syncer.pos) :
    Chronicled setup after history top := by
  have running := chronicled.running acts.up
  obtain ⟨target, retries⟩ := running.retries
  obtain ⟨image, target', later⟩ :=
    retries.step acts.calls acts.shipped acts.stepped
  have same : image = history.image top := by
    have restores := later.replica
    rw [store, pos] at restores
    exact restores.unique retries.replica
  subst same
  apply chronicled.of_replica acts store
  · intro key file held
    rw [staging] at held
    exact chronicled.act_leads acts held
  · refine ⟨by rw [pos, running.txid], chronicled.act_mirrors acts,
      ⟨target', later⟩, ?_, ?_, ?_, ?_⟩
    · rw [pos, db]
      rcases running.fallback with first | inStep | ⟨staged, pending, gone⟩
      · exact .inl first
      · exact .inr (.inl inStep)
      · exact absurd gone (acts.shipped.2 failed staged pending)
    · rw [pos]
      exact running.unsynced
    · rw [store, pos]
      exact running.newest
    · rw [staging, pos, db]
      exact running.behind

/-- The file that a step stages captures the whole database. -/
theorem Chronicled.act_staged
    (chronicled : Chronicled setup chronicle history top)
    (acts : Acts setup chronicle action after) {staged : StagedFile}
    {file : LtxFile} {now : Int}
    (free : chronicle.life.syncer.pending = none)
    (db : after.life.syncer.db = chronicle.life.syncer.db)
    (built : buildUnderLock setup.pageSize now chronicle.life.syncer.pos
          chronicle.life.syncer.db = .ok (some (staged, file)) ∨
      buildSnapshotNow setup.pageSize now chronicle.life.syncer.pos
        chronicle.life.syncer.db = .ok (staged, file))
    (store : after.life.syncer.store = chronicle.life.syncer.store)
    (staging : after.life.syncer.staging =
      chronicle.life.syncer.staging.insert staged.key file)
    (pos : after.life.syncer.pos = chronicle.life.syncer.pos) :
    Chronicled setup after history top := by
  have running := chronicled.running acts.up
  have start := running.resumes free
  obtain ⟨target, retries⟩ := running.retries
  have imageOk := retries.replica.image
  obtain ⟨image, target', later⟩ :=
    retries.step acts.calls acts.shipped acts.stepped
  have same : image = history.image top := by
    have restores := later.replica
    rw [store, pos] at restores
    exact restores.unique retries.replica
  subst same
  have stagedOk : StagedOk setup.pageSize chronicle.life.syncer.pos staged
      file := by
    rcases built with under | snapshot
    · exact buildUnderLock_staged under
    · exact buildSnapshot_staged snapshot
  have address := stagedOk.key
  rw [running.txid] at address
  have follower : Follower setup.pageSize chronicle.life.syncer.pos.txid
      (history.image top) file := by
    rcases built with under | snapshot
    · exact buildUnderLock_follower chronicled.db start under
    · exact buildSnapshot_follower snapshot
  rw [running.txid] at follower
  have capturing : Capturing setup.pageSize chronicle.life.syncer.db
      (history.image top) staged file := by
    rcases built with under | snapshot
    · exact buildUnderLock_spec setup.positive chronicled.db imageOk
        (start.imp id InStep.aligned) under
    · exact buildSnapshot_spec setup.positive chronicled.db.readable imageOk
        snapshot
  have atEnd := capturing.aligned.2
  have ready : Ready setup.pageSize (applyFile (history.image top) file)
      staged.newPos chronicle.life.syncer.db := by
    refine ⟨?_, capturing.inStep, atEnd.foldedBelow chronicled.db⟩
    rw [capturing.salt1]
    cases present : chronicle.life.syncer.db.wal with
    | none => exact Nat.zero_le _
    | some wal => exact (chronicled.db.salts wal present).2
  have ends : Ready setup.pageSize (applyFile (history.image top) file)
      file.ends chronicle.life.syncer.db :=
    ready.congr stagedOk.offset stagedOk.salt1 stagedOk.salt2
  have leads : Leads setup after.life.syncer.db after.commits history top
      file := by
    refine ⟨follower, by rw [db]; exact ends, ?_⟩
    rw [acts.commits, db, capturing.image]
    exact chronicled.recorded.append (List.Sublist.refl _)
  apply chronicled.of_replica acts store
  · intro key other held
    rw [staging, OrderedMap.getElem?_insert] at held
    split at held
    · rename_i same
      cases held
      exact ⟨same.trans address, leads⟩
    · exact chronicled.act_leads acts held
  · refine ⟨by rw [pos, running.txid], chronicled.act_mirrors acts,
      ⟨target', later⟩, ?_, ?_, ?_, ?_⟩
    · rw [pos, db]
      exact start.imp id .inl
    · rw [pos]
      exact running.unsynced
    · rw [store, pos]
      exact running.newest
    · rw [staging, pos, db, ← address]
      intro other held
      rw [ExtTreeMap.getElem?_insert_self] at held
      cases held
      exact (atEnd.congr stagedOk.offset stagedOk.salt1 stagedOk.salt2).behind
        (running.inside chronicled.db free)

/-- The store takes the pending file. -/
theorem Chronicled.act_uploaded
    (chronicled : Chronicled setup chronicle history top)
    (acts : Acts setup chronicle action after) {staged : StagedFile}
    {file : LtxFile} (pending : chronicle.life.syncer.pending = some staged)
    (held : chronicle.life.syncer.staging[staged.key]? = some file)
    (db : after.life.syncer.db = chronicle.life.syncer.db)
    (store : after.life.syncer.store =
      chronicle.life.syncer.store.insert staged.key file)
    (staging : after.life.syncer.staging =
      chronicle.life.syncer.staging.erase staged.key)
    (pos : after.life.syncer.pos = staged.newPos) :
    Continued setup history top after := by
  have running := chronicled.running acts.up
  obtain ⟨address, leads⟩ := chronicled.leads acts.up held
  obtain ⟨history', agree, image, took⟩ := chronicled.take_next leads
  obtain ⟨other, otherHeld, _, txid, ends⟩ := running.pending_staged pending
  rw [held] at otherHeld
  cases otherHeld
  obtain ⟨target, retries⟩ := running.retries
  obtain ⟨image', target', later⟩ :=
    retries.step acts.calls acts.shipped acts.stepped
  have archived := took.archived
  rw [← address, ← store] at archived
  have same : image' = history'.image (top + 1) := by
    have restores := later.replica
    rw [pos, txid] at restores
    exact restores.unique (archived.restores took.sized)
  subst same
  have empty : after.life.syncer.staging = ∅ := by
    rw [staging]
    apply OrderedMap.erase_eq_empty
    intro key other found
    rw [address]
    exact (chronicled.leads acts.up found).1
  have ready := took.ready
  refine ⟨history', top + 1, Nat.le_succ top, agree, ?_⟩
  constructor
  · rw [db]
    exact chronicled.db
  · exact took.sized
  · exact archived
  · exact acts.recorded took.recorded
  · simp [empty]
  · simp [empty]
  · exact fun down => absurd acts.phase down
  · intro remaining recovering
    rw [acts.phase] at recovering
    cases recovering
  · intro _
    refine ⟨by rw [pos, txid], chronicled.act_mirrors acts, ⟨target', later⟩,
      ?_, ?_, ?_, by simp [empty]⟩
    · rw [pos, db]
      exact .inr (.inl (ready.inStep.congr ends.1 ends.2.1 ends.2.2))
    · rw [pos, txid]
      exact fun impossible => absurd impossible (Nat.succ_ne_zero top)
    · rw [store, pos, ← address, ExtTreeMap.getElem?_insert_self]
      rintro _ ⟨⟩
      exact ends

/-- A step of an open syncer. -/
theorem Chronicled.act (chronicled : Chronicled setup chronicle history top)
    (acts : Acts setup chronicle action after) :
    Continued setup history top after := by
  have still : Chronicled setup after history top →
      Continued setup history top after :=
    fun same => ⟨history, top, Nat.le_refl top, .refl history top, same⟩
  obtain ⟨target, retries⟩ := (chronicled.running acts.up).retries
  cases step_effect retries.toTracks acts.stepped with
  | kept store staging pos pending _ =>
      exact still (chronicled.act_kept acts store staging pos pending)
  | staged staged file now free db built store staging pos _ =>
      exact still (chronicled.act_staged acts free db
        (built.imp (fun both => both.2) id) store staging pos)
  | uploaded staged file pending held db store staging pos _ _ =>
      exact chronicled.act_uploaded acts pending held db store staging pos
  | dropped failed db store staging pos _ =>
      exact still (chronicled.act_dropped acts failed db store staging pos)

end Acting

end Literstream
