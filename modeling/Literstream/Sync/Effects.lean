import Literstream.Sync.Aligned
import Literstream.Sync.Drafts

/-!
# What a step does

A step runs at most one operation on the database, and it keeps, stages, uploads
or drops the file that the running call is about to upload.  Every invariant of
the syncer is derived from these two facts.
-/

namespace Literstream

open Std PagedFile

/-- The PRAGMA reported more frames than were captured. -/
def Cycle.Overfolded (cycle : Cycle) (result : CheckpointResult) : Prop :=
  asU64 result.checkpointedFrames > cycle.syncedFrames

instance (cycle : Cycle) (result : CheckpointResult) :
    Decidable (cycle.Overfolded result) :=
  inferInstanceAs (Decidable (_ > _))

def commitOp (restart : Bool) (salt2 : Nat) (txn : List Frame) : SqliteOp :=
  if restart then .restart salt2 txn else .append salt2 txn

namespace Action

/-- What an action does to the database, if anything. -/
def dbOp : Action → Option SqliteOp
  | .commit restart salt2 txn => some (commitOp restart salt2 txn)
  | .appCheckpoint frames => some (.checkpoint frames)
  | .appTruncate => some .truncate
  | .pragma (.copied frames) => some (.checkpoint frames)
  | .pragma .truncated => some .truncate
  | .pragma (.blocked frames) => some (.checkpoint frames)
  | .bump true restart salt2 txn => some (commitOp restart salt2 txn)
  | _ => none

/-- An upload or a seq bump fails. -/
def fails : Action → Bool
  | .bump ok _ _ _ => !ok
  | .upload ok _ => !ok
  | _ => false

end Action

namespace State

/-- The staged file that the running call is going to upload. -/
def pending (state : State) : Option StagedFile :=
  match state.pc with
  | .idle => none
  | .syncUpload staged => some staged
  | .release cycle => cycle.staged
  | .pragma cycle => cycle.staged
  | .bump cycle _ => cycle.staged
  | .acquire cycle _ => cycle.staged
  | .upload _ staged _ => some staged
  | .fold _ _ => none
  | .catchUp staged => some staged

/-- The position after the pending upload. -/
def ahead (state : State) : Position :=
  (state.pending.map StagedFile.newPos).getD state.pos

/-- The running call will take a catch-up snapshot. -/
def Noticed (state : State) : Prop :=
  match state.pc with
  | .bump cycle result => cycle.Overfolded result
  | .acquire cycle result => cycle.Overfolded result
  | .upload cycle _ result => cycle.Overfolded result
  | .fold cycle result => cycle.Overfolded result
  | _ => False

end State

instance (state : State) : Decidable state.Noticed := by
  unfold State.Noticed
  split <;> infer_instance

/-- What a step builds a file from, if it gets to build one. -/
def State.draft (setup : Setup) (state : State) : Action → Option Draft
  | .sync now => some ⟨false, now, state.db⟩
  | .checkpointIfNeeded now =>
      if liveWalFrames setup state.pos ≥ state.truncateFrames ∨
          liveWalFrames setup state.pos ≥ state.minCheckpointFrames then
        some ⟨false, now, state.db⟩
      else none
  | .checkpointNow now _ => some ⟨false, now, state.db⟩
  | .overFold now =>
      match state.pc with
      | .fold cycle result =>
          if cycle.Overfolded result then some ⟨true, now, state.db⟩ else none
      | _ => none
  | _ => none

/-- The draft of a step that gives a file. -/
def State.stages (setup : Setup) (state : State) (action : Action) :
    Option Draft :=
  (state.draft setup action).filter fun draft =>
    match draft.build setup.pageSize state.pos with
    | .ok (some _) => true
    | _ => false

/-- What an upload step leaves in the replica, if it succeeds. -/
def State.puts (setup : Setup) (state : State) :
    Action → Option (FileKey × LtxFile)
  | .upload true now =>
      state.pending.bind fun staged =>
        match state.uploadStaged setup staged now with
        | .ok _ => state.staging[staged.key]?.map fun file => (staged.key, file)
        | .error _ => none
  | _ => none

namespace State

variable {setup : Setup} {state next : State} {action : Action}

theorem stages_of_built {drafted : Draft} {staged : StagedFile}
    {file : LtxFile} (same : state.draft setup action = some drafted)
    (built : drafted.build setup.pageSize state.pos =
      .ok (some (staged, file))) :
    state.stages setup action = some drafted := by
  rw [stages, same, Option.filter_some, built]
  rfl

theorem stages_eq_none {drafted : Draft}
    (same : state.draft setup action = some drafted)
    (unbuilt : ∀ staged file, drafted.build setup.pageSize state.pos ≠
      .ok (some (staged, file))) : state.stages setup action = none := by
  rw [stages, same, Option.filter_some]
  split
  · rename_i built
    exact absurd built (unbuilt _ _)
  · rfl

theorem draft_db {drafted : Draft}
    (same : state.draft setup action = some drafted) :
    drafted.db = state.db := by
  unfold draft at same
  split at same
  · cases same
    rfl
  · split at same
    · cases same
      rfl
    · cases same
  · cases same
    rfl
  · split at same
    · split at same
      · cases same
        rfl
      · cases same
    · cases same
  · cases same

/-- Taking the read mark changes nothing else. -/
theorem acquireReadLock_eq (state : State) :
    ∃ mark, state.acquireReadLock = { state with mark := mark } := by
  unfold acquireReadLock
  split
  · exact ⟨_, rfl⟩
  · exact ⟨state.mark, rfl⟩

theorem commitFrames_apply {restart : Bool} {salt2 : Nat} {txn : List Frame}
    {db : Sqlite} (done : state.commitFrames restart salt2 txn = some db) :
    state.db.apply setup.pageSize (commitOp restart salt2 txn) = some db := by
  unfold commitFrames at done
  cases restart with
  | false => exact done
  | true =>
      cases marked : state.mark with
      | released =>
          rw [marked] at done
          exact done
      | mainOnly =>
          rw [marked] at done
          exact done
      | upTo frames =>
          rw [marked] at done
          cases done

/-- A PRAGMA that is not locked out checkpoints. -/
theorem runPragma_apply {mode : CheckpointMode} {outcome : PragmaOutcome}
    {db : Sqlite} {result : CheckpointResult}
    (done : state.runPragma setup.pageSize mode outcome = some (db, result)) :
    match (Action.pragma outcome).dbOp with
    | none => db = state.db
    | some op => state.db.apply setup.pageSize op = some db := by
  cases outcome with
  | locked =>
      cases done
      rfl
  | copied frames =>
      simp only [runPragma] at done
      split at done
      · rename_i bounds
        cases done
        exact if_pos ⟨bounds.1, bounds.2.1⟩
      · cases done
  | truncated =>
      simp only [runPragma] at done
      split at done
      · cases done
        rfl
      · cases done
  | blocked frames =>
      simp only [runPragma] at done
      split at done
      · rename_i bounds
        cases done
        exact if_pos ⟨bounds.1, bounds.2.1⟩
      · cases done

theorem buildNext_cases (setup : Setup) (state : State) (now : Int) :
    (∃ error, state.buildNext setup now =
          (state.acquireReadLock, .error error) ∧
        buildUnderLock setup.pageSize now state.pos state.db =
          .error error) ∨
      (state.buildNext setup now = (state.acquireReadLock, .ok none) ∧
        buildUnderLock setup.pageSize now state.pos state.db = .ok none) ∨
      ∃ staged file,
        state.buildNext setup now =
          (state.acquireReadLock.stage staged file, .ok (some staged)) ∧
        buildUnderLock setup.pageSize now state.pos state.db =
          .ok (some (staged, file)) := by
  obtain ⟨mark, held⟩ := acquireReadLock_eq state
  unfold buildNext
  dsimp only
  rw [held]
  split
  · rename_i error built
    exact .inl ⟨error, rfl, built⟩
  · rename_i built
    exact .inr (.inl ⟨rfl, built⟩)
  · rename_i staged file built
    exact .inr (.inr ⟨staged, file, rfl, built⟩)

theorem buildNext_db (setup : Setup) (state : State) (now : Int) :
    (state.buildNext setup now).1.db = state.db := by
  obtain ⟨mark, held⟩ := acquireReadLock_eq state
  rcases buildNext_cases setup state now with
    ⟨error, built, _⟩ | ⟨built, _⟩ | ⟨staged, file, built, _⟩
  · rw [built, held]
  · rw [built, held]
  · rw [built, held]
    rfl

theorem sync_db (setup : Setup) (state : State) (now : Int) :
    (state.sync setup now).db = state.db := by
  rw [← buildNext_db setup state now]
  unfold sync
  split
  · rename_i built
    rw [built]
  · rename_i built
    rw [built]

theorem runCheckpoint_db (setup : Setup) (state : State) (now : Int)
    (mode : CheckpointMode) (restartWal : Bool) :
    (state.runCheckpoint setup now mode restartWal).db = state.db := by
  rw [← buildNext_db setup state now]
  unfold runCheckpoint
  split
  · rename_i built
    rw [built]
  · rename_i built
    rw [built]

theorem readStaged_eq_ok {staging : Store} {key : FileKey} {file : LtxFile} :
    readStaged staging key = .ok file ↔ staging[key]? = some file := by
  unfold readStaged
  cases staging[key]? <;> simp

/-- What a finished upload changes. -/
theorem uploadStaged_eq_ok {staged : StagedFile} {now : Int}
    (done : state.uploadStaged setup staged now = .ok next) :
    ∃ file, state.staging[staged.key]? = some file ∧
      next =
        { state with
          store := state.store.insert staged.key file
          staging := state.staging.erase staged.key
          files := state.files.insert staged.key (some now)
          pos := staged.newPos } := by
  rw [uploadStaged, bind_eq_ok] at done
  obtain ⟨file, read, done⟩ := done
  rw [bind_eq_ok] at done
  obtain ⟨store, put, done⟩ := done
  cases done
  rw [uploadLtxFile_eq_ok put]
  exact ⟨file, readStaged_eq_ok.mp read, rfl⟩

/-- A staged file whose address is free in the replica can be uploaded. -/
theorem uploadStaged_total {staged : StagedFile} {file : LtxFile} (now : Int)
    (held : state.staging[staged.key]? = some file)
    (fresh : state.store[staged.key]? = none) :
    ∃ uploaded, state.uploadStaged setup staged now = .ok uploaded :=
  ⟨_, bind_eq_ok.mpr ⟨file, readStaged_eq_ok.mpr held,
    bind_eq_ok.mpr ⟨_, uploadLtxFile_of_fresh fresh, rfl⟩⟩⟩

theorem finish_cases (setup : Setup) (state : State) (ok : Bool) (now : Int)
    (staged : StagedFile) (then_ : State → State) :
    (state.finish setup ok now staged then_ = { state with pc := .idle } ∧
        (ok = false ∨ ∃ error,
          state.uploadStaged setup staged now = .error error)) ∨
      ok = true ∧ ∃ uploaded,
        state.uploadStaged setup staged now = .ok uploaded ∧
        state.finish setup ok now staged then_ = then_ uploaded := by
  unfold finish
  cases ok with
  | false => exact .inl ⟨rfl, .inl rfl⟩
  | true =>
      cases done : state.uploadStaged setup staged now with
      | error error => exact .inl ⟨rfl, .inr ⟨error, rfl⟩⟩
      | ok uploaded => exact .inr ⟨rfl, uploaded, rfl, rfl⟩

/-- The possible ends of an upload step. -/
theorem upload_cases {ok : Bool} {now : Int}
    (stepped : state.upload setup ok now = some next) :
    ∃ staged after resnapshots, state.pending = some staged ∧
      (after = .idle ∧ ¬ state.Noticed ∨ ∃ cycle result,
        state.pc = .upload cycle staged result ∧ after = .fold cycle result) ∧
      ((next = { state with pc := .idle } ∧
          (ok = false ∨ ∃ error,
            state.uploadStaged setup staged now = .error error)) ∨
        ok = true ∧ ∃ uploaded,
          state.uploadStaged setup staged now = .ok uploaded ∧
          next =
            { uploaded with pc := after, resnapshots := resnapshots }) := by
  have kept : ∀ staged uploaded,
      state.uploadStaged setup staged now = .ok uploaded →
      uploaded.resnapshots = state.resnapshots := by
    intro staged uploaded done
    obtain ⟨file, _, rfl⟩ := uploadStaged_eq_ok done
    rfl
  unfold upload at stepped
  cases running : state.pc with
  | syncUpload staged =>
      rw [running] at stepped
      refine ⟨staged, .idle, state.resnapshots, by rw [pending, running],
        .inl ⟨rfl, by rw [Noticed, running]; exact id⟩, ?_⟩
      cases stepped
      rcases finish_cases setup state ok now staged _ with
        failed | ⟨succeeds, uploaded, done, ended⟩
      · exact .inl failed
      · exact .inr ⟨succeeds, uploaded, done, by
          rw [ended, kept _ _ done]⟩
  | upload cycle staged result =>
      rw [running] at stepped
      refine ⟨staged, .fold cycle result, state.resnapshots,
        by rw [pending, running], .inr ⟨cycle, result, rfl, rfl⟩, ?_⟩
      cases stepped
      rcases finish_cases setup state ok now staged _ with
        failed | ⟨succeeds, uploaded, done, ended⟩
      · exact .inl failed
      · exact .inr ⟨succeeds, uploaded, done, by
          rw [ended, kept _ _ done]⟩
  | catchUp staged =>
      rw [running] at stepped
      refine ⟨staged, .idle, state.resnapshots + 1, by rw [pending, running],
        .inl ⟨rfl, by rw [Noticed, running]; exact id⟩, ?_⟩
      cases stepped
      rcases finish_cases setup state ok now staged _ with
        failed | ⟨succeeds, uploaded, done, ended⟩
      · exact .inl failed
      · exact .inr ⟨succeeds, uploaded, done, by
          rw [ended, kept _ _ done]⟩
  | _ =>
      rw [running] at stepped
      cases stepped

/-- The possible ends of the over-fold test. -/
theorem overFold_cases (setup : Setup) (state : State) (cycle : Cycle)
    (result : CheckpointResult) (now : Int) :
    (¬ cycle.Overfolded result ∧
        state.overFold setup cycle result now = { state with pc := .idle }) ∨
      cycle.Overfolded result ∧
        ((∃ error,
            buildSnapshotNow setup.pageSize now state.pos state.db =
              .error error ∧
            state.overFold setup cycle result now =
              { state with pc := .idle }) ∨
          ∃ staged file,
            buildSnapshotNow setup.pageSize now state.pos state.db =
              .ok (staged, file) ∧
            state.overFold setup cycle result now =
              { state.stage staged file with pc := .catchUp staged }) := by
  unfold overFold
  split
  · rename_i overfolded
    refine .inr ⟨overfolded, ?_⟩
    split
    · rename_i error failed
      exact .inl ⟨error, failed, rfl⟩
    · rename_i staged file built
      exact .inr ⟨staged, file, built, rfl⟩
  · rename_i below
    exact .inl ⟨below, rfl⟩

/-- The database after a step. -/
theorem step_db (stepped : state.step setup action = some next) :
    match action.dbOp with
    | none => next.db = state.db
    | some op => state.db.apply setup.pageSize op = some next.db := by
  cases action with
  | commit restart salt2 txn =>
      obtain ⟨db, done, rfl⟩ := Option.map_eq_some_iff.mp stepped
      exact commitFrames_apply done
  | appCheckpoint frames =>
      simp only [step] at stepped
      split at stepped
      · rename_i bounds
        cases stepped
        refine if_pos ⟨bounds.1, Nat.le_trans bounds.2 ?_⟩
        unfold copyable
        split
        · exact Nat.min_le_right _ _
        · exact Nat.le_refl _
      · cases stepped
  | appTruncate =>
      simp only [step] at stepped
      split at stepped
      · cases stepped
      · cases stepped
        rfl
  | tune minCheckpointFrames truncateFrames =>
      cases stepped
      rfl
  | sync now =>
      simp only [step] at stepped
      split at stepped
      · cases stepped
        exact sync_db setup state now
      · cases stepped
  | checkpointIfNeeded now =>
      simp only [step] at stepped
      split at stepped
      · cases stepped
        change (checkpointIfNeeded setup state now).db = state.db
        unfold checkpointIfNeeded
        split
        · exact runCheckpoint_db setup state now _ _
        · split
          · exact runCheckpoint_db setup state now _ _
          · rfl
      · cases stepped
  | checkpointNow now mode =>
      simp only [step] at stepped
      split at stepped
      · cases stepped
        exact runCheckpoint_db setup state now _ _
      · cases stepped
  | release =>
      simp only [step] at stepped
      split at stepped
      · cases stepped
        rfl
      · cases stepped
  | pragma outcome =>
      simp only [step] at stepped
      split at stepped
      · obtain ⟨⟨db, result⟩, done, rfl⟩ := Option.map_eq_some_iff.mp stepped
        exact runPragma_apply done
      · cases stepped
  | bump ok restart salt2 txn =>
      simp only [step] at stepped
      split at stepped
      · cases ok with
        | false =>
            cases stepped
            rfl
        | true =>
            obtain ⟨db, done, rfl⟩ := Option.map_eq_some_iff.mp stepped
            exact commitFrames_apply done
      · cases stepped
  | acquire =>
      simp only [step] at stepped
      split at stepped
      · cases stepped
        obtain ⟨mark, held⟩ := acquireReadLock_eq state
        rw [held]
        rfl
      · cases stepped
  | upload ok now =>
      obtain ⟨staged, after, resnapshots, _, _, ended⟩ := upload_cases stepped
      rcases ended with ⟨rfl, _⟩ | ⟨_, uploaded, done, rfl⟩
      · rfl
      · obtain ⟨file, _, rfl⟩ := uploadStaged_eq_ok done
        rfl
  | overFold now =>
      simp only [step] at stepped
      split at stepped
      · rename_i cycle result _
        cases stepped
        rcases overFold_cases setup state cycle result now with
          ⟨_, ended⟩ | ⟨_, ⟨_, _, ended⟩ | ⟨_, _, _, ended⟩⟩
        · rw [ended]
          rfl
        · rw [ended]
          rfl
        · rw [ended]
          rfl
      · cases stepped

end State

/-- How a step treats the file that the running call is about to upload,
whatever the replica holds. -/
inductive Move (setup : Setup) (state : State) (action : Action)
    (next : State) : Prop where
  | kept (store : next.store = state.store)
      (staging : next.staging = state.staging)
      (pos : next.pos = state.pos)
      (pending : next.pending = state.pending)
      (noticed : state.Noticed → next.Noticed)
      (stages : state.stages setup action = none)
      (puts : state.puts setup action = none)
  | staged (draft : Draft) (staged : StagedFile) (file : LtxFile)
      (drafted : state.draft setup action = some draft)
      (stages : state.stages setup action = some draft)
      (puts : state.puts setup action = none)
      (built : draft.build setup.pageSize state.pos = .ok (some (staged, file)))
      (quiet : draft.catchUp = false → ¬ state.Noticed)
      (free : state.pending = none)
      (db : next.db = state.db)
      (store : next.store = state.store)
      (staging : next.staging = state.staging.insert staged.key file)
      (pos : next.pos = state.pos)
      (pending : next.pending = some staged)
  | uploaded (staged : StagedFile) (file : LtxFile)
      (pending : state.pending = some staged)
      (held : state.staging[staged.key]? = some file)
      (db : next.db = state.db)
      (store : next.store = state.store.insert staged.key file)
      (staging : next.staging = state.staging.erase staged.key)
      (pos : next.pos = staged.newPos)
      (free : next.pending = none)
      (noticed : state.Noticed → next.Noticed)
      (stages : state.stages setup action = none)
      (puts : state.puts setup action = some (staged.key, file))
  | dropped (failed : action.fails = true ∨
        (∃ staged now error, state.pending = some staged ∧
          state.uploadStaged setup staged now = .error error) ∨
        ∃ now error, state.pending = none ∧
          buildSnapshotNow setup.pageSize now state.pos state.db =
            .error error)
      (db : next.db = state.db)
      (store : next.store = state.store)
      (staging : next.staging = state.staging)
      (pos : next.pos = state.pos)
      (free : next.pending = none)
      (stages : state.stages setup action = none)
      (puts : state.puts setup action = none)

section Moves

variable {setup : Setup} {state next : State} {action : Action}

theorem sync_move (now : Int) (idle : state.pc = .idle) :
    Move setup state (.sync now) (state.sync setup now) := by
  have free : state.pending = none := by rw [State.pending, idle]
  have unnoticed : ¬ state.Noticed := by rw [State.Noticed, idle]; exact id
  obtain ⟨mark, held⟩ := State.acquireReadLock_eq state
  have unstaged (unbuilt : ∀ staged file,
      buildUnderLock setup.pageSize now state.pos state.db ≠
        .ok (some (staged, file))) :
      state.stages setup (.sync now) = none :=
    State.stages_eq_none rfl unbuilt
  unfold State.sync
  rcases State.buildNext_cases setup state now with
    ⟨error, built, under⟩ | ⟨built, under⟩ | ⟨staged, file, built, under⟩
  · rw [built, held]
    exact .kept rfl rfl rfl rfl (fun impossible => absurd impossible unnoticed)
      (unstaged (by rw [under]; simp)) rfl
  · rw [built, held]
    exact .kept rfl rfl rfl rfl (fun impossible => absurd impossible unnoticed)
      (unstaged (by rw [under]; simp)) rfl
  · rw [built, held]
    exact .staged ⟨false, now, state.db⟩ staged file rfl
      (State.stages_of_built rfl under) rfl under (fun _ => unnoticed) free rfl
      rfl rfl rfl rfl

theorem runCheckpoint_move {now : Int} (mode : CheckpointMode)
    (restartWal : Bool) (idle : state.pc = .idle)
    (drafted : state.draft setup action = some ⟨false, now, state.db⟩)
    (puts : state.puts setup action = none) :
    Move setup state action
      (state.runCheckpoint setup now mode restartWal) := by
  have free : state.pending = none := by rw [State.pending, idle]
  have unnoticed : ¬ state.Noticed := by rw [State.Noticed, idle]; exact id
  obtain ⟨mark, held⟩ := State.acquireReadLock_eq state
  have unstaged (unbuilt : ∀ staged file,
      buildUnderLock setup.pageSize now state.pos state.db ≠
        .ok (some (staged, file))) :
      state.stages setup action = none :=
    State.stages_eq_none drafted unbuilt
  unfold State.runCheckpoint
  rcases State.buildNext_cases setup state now with
    ⟨error, built, under⟩ | ⟨built, under⟩ | ⟨staged, file, built, under⟩
  · rw [built, held]
    exact .kept rfl rfl rfl rfl (fun impossible => absurd impossible unnoticed)
      (unstaged (by rw [under]; simp)) puts
  · rw [built, held]
    exact .kept rfl rfl rfl free.symm
      (fun impossible => absurd impossible unnoticed)
      (unstaged (by rw [under]; simp)) puts
  · rw [built, held]
    exact .staged _ staged file drafted (State.stages_of_built drafted under)
      puts under (fun _ => unnoticed) free rfl rfl rfl rfl rfl

theorem upload_move {ok : Bool} {now : Int}
    (stepped : state.upload setup ok now = some next) :
    Move setup state (.upload ok now) next := by
  obtain ⟨staged, after, resnapshots, pending, ending, ended⟩ :=
    State.upload_cases stepped
  rcases ended with ⟨rfl, failed | ⟨error, failed⟩⟩ | ⟨rfl, uploaded, done, rfl⟩
  · subst failed
    exact .dropped (.inl rfl) rfl rfl rfl rfl rfl rfl rfl
  · have puts : state.puts setup (.upload ok now) = none := by
      cases ok with
      | false => rfl
      | true => simp only [State.puts, pending, Option.bind_some, failed]
    exact .dropped (.inr (.inl ⟨staged, now, error, pending, failed⟩)) rfl rfl
      rfl rfl rfl rfl puts
  · have puts : ∀ other, state.staging[staged.key]? = some other →
        state.puts setup (.upload true now) = some (staged.key, other) := by
      intro other same
      simp only [State.puts, pending, Option.bind_some, done, same,
        Option.map_some]
    obtain ⟨other, same, rfl⟩ := State.uploadStaged_eq_ok done
    rcases ending with ⟨rfl, unnoticed⟩ | ⟨cycle, result, running, rfl⟩
    · exact .uploaded staged other pending same rfl rfl rfl rfl rfl
        (fun impossible => absurd impossible unnoticed) rfl (puts other same)
    · refine .uploaded staged other pending same rfl rfl rfl rfl rfl ?_ rfl
        (puts other same)
      rw [State.Noticed, running]
      exact id

/-- Every step keeps, stages, uploads or drops the pending file. -/
theorem step_move (stepped : state.step setup action = some next) :
    Move setup state action next := by
  cases action with
  | commit restart salt2 txn =>
      obtain ⟨db, _, rfl⟩ := Option.map_eq_some_iff.mp stepped
      exact .kept rfl rfl rfl rfl id rfl rfl
  | appCheckpoint frames =>
      simp only [State.step] at stepped
      split at stepped
      · cases stepped
        exact .kept rfl rfl rfl rfl id rfl rfl
      · cases stepped
  | appTruncate =>
      simp only [State.step] at stepped
      split at stepped
      · cases stepped
      · cases stepped
        exact .kept rfl rfl rfl rfl id rfl rfl
  | tune minCheckpointFrames truncateFrames =>
      cases stepped
      exact .kept rfl rfl rfl rfl id rfl rfl
  | sync now =>
      simp only [State.step] at stepped
      split at stepped
      · rename_i idle
        cases stepped
        exact sync_move now idle
      · cases stepped
  | checkpointIfNeeded now =>
      simp only [State.step] at stepped
      split at stepped
      · rename_i idle
        cases stepped
        unfold State.checkpointIfNeeded
        split
        · rename_i enough
          exact runCheckpoint_move _ _ idle (if_pos (.inl enough)) rfl
        · rename_i below
          split
          · rename_i enough
            exact runCheckpoint_move _ _ idle (if_pos (.inr enough)) rfl
          · rename_i few
            refine .kept rfl rfl rfl rfl id ?_ rfl
            rw [State.stages, State.draft, if_neg (not_or.mpr ⟨below, few⟩)]
            rfl
      · cases stepped
  | checkpointNow now mode =>
      simp only [State.step] at stepped
      split at stepped
      · rename_i idle
        cases stepped
        exact runCheckpoint_move _ _ idle rfl rfl
      · cases stepped
  | release =>
      simp only [State.step] at stepped
      split at stepped
      · rename_i cycle running
        cases stepped
        refine .kept rfl rfl rfl (by rw [State.pending, State.pending, running])
          ?_ rfl rfl
        rw [State.Noticed, running]
        exact False.elim
      · cases stepped
  | pragma outcome =>
      simp only [State.step] at stepped
      split at stepped
      · rename_i cycle running
        obtain ⟨⟨db, result⟩, _, rfl⟩ := Option.map_eq_some_iff.mp stepped
        refine .kept rfl rfl rfl ?_ ?_ rfl rfl
        · rw [State.pending, State.pending, running]
          dsimp only
          by_cases bumps : cycle.restartWal = true ∧
              cycle.mode = .passive ∧ ¬ result.busy = true
          · rw [if_pos bumps]
          · rw [if_neg bumps]
        · rw [State.Noticed, running]
          exact False.elim
      · cases stepped
  | bump ok restart salt2 txn =>
      simp only [State.step] at stepped
      split at stepped
      · rename_i cycle result running
        cases ok with
        | false =>
            cases stepped
            exact .dropped (.inl rfl) rfl rfl rfl rfl rfl rfl rfl
        | true =>
            obtain ⟨db, _, rfl⟩ := Option.map_eq_some_iff.mp stepped
            refine .kept rfl rfl rfl
              (by rw [State.pending, State.pending, running]) ?_ rfl rfl
            rw [State.Noticed, running]
            exact id
      · cases stepped
  | acquire =>
      simp only [State.step] at stepped
      split at stepped
      · rename_i cycle result running
        cases stepped
        obtain ⟨mark, held⟩ := State.acquireReadLock_eq state
        rw [held]
        refine .kept rfl rfl rfl ?_ ?_ rfl rfl
        · rw [State.pending, State.pending, running]
          change _ = cycle.staged
          cases cycle.staged with
          | none => rfl
          | some staged => rfl
        · rw [State.Noticed, running, State.Noticed]
          cases cycle.staged with
          | none => exact id
          | some staged => exact id
      · cases stepped
  | upload ok now => exact upload_move stepped
  | overFold now =>
      simp only [State.step] at stepped
      split at stepped
      · rename_i cycle result running
        cases stepped
        have free : state.pending = none := by rw [State.pending, running]
        have draft : state.draft setup (.overFold now) =
            if cycle.Overfolded result then some ⟨true, now, state.db⟩
            else none := by
          simp only [State.draft, running]
        rcases State.overFold_cases setup state cycle result now with
          ⟨below, ended⟩ |
            ⟨beyond, ⟨error, failed, ended⟩ | ⟨staged, file, snapshot, ended⟩⟩
        · rw [ended]
          refine .kept rfl rfl rfl free.symm ?_ ?_ rfl
          · rw [State.Noticed, running]
            exact fun overfolded => absurd overfolded below
          · rw [State.stages, draft, if_neg below]
            rfl
        · rw [if_pos beyond] at draft
          rw [ended]
          refine .dropped (.inr (.inr ⟨now, error, free, failed⟩)) rfl rfl rfl
            rfl rfl (State.stages_eq_none draft ?_) rfl
          rw [Draft.build, if_pos rfl, failed]
          exact fun _ _ impossible => by cases impossible
        · rw [if_pos beyond] at draft
          have built : Draft.build setup.pageSize state.pos
              ⟨true, now, state.db⟩ = .ok (some (staged, file)) := by
            rw [Draft.build, if_pos rfl, snapshot]
            rfl
          rw [ended]
          exact .staged _ staged file draft
            (State.stages_of_built draft built) rfl built
            (fun impossible => by cases impossible) free rfl rfl rfl rfl rfl
      · cases stepped

end Moves

/-- What holds of the syncer and its replica in every run: the replica restores
`image`, and `target` once the pending file is uploaded. -/
structure Tracks (setup : Setup) (state : State) (image target : Bytes) :
    Prop where
  db : DbOk setup.pageSize state.db
  replica : Restores setup.pageSize state.store state.pos.txid image
  free : state.pending = none → target = image
  waiting : ∀ staged, state.pending = some staged →
    ∃ file, state.staging[staged.key]? = some file ∧
      StagedOk setup.pageSize state.pos staged file ∧
      target = applyFile image file
  salts : state.pos.salt1 ≤ state.db.lastSalt1
  aheadSalts : state.ahead.salt1 ≤ state.db.lastSalt1

/-- How a step treats the pending file. -/
inductive Effect (setup : Setup) (state : State) (action : Action)
    (next : State) : Prop where
  | kept (store : next.store = state.store)
      (staging : next.staging = state.staging)
      (pos : next.pos = state.pos)
      (pending : next.pending = state.pending)
      (noticed : state.Noticed → next.Noticed)
  | staged (staged : StagedFile) (file : LtxFile) (now : Int)
      (free : state.pending = none)
      (db : next.db = state.db)
      (built : ¬ state.Noticed ∧
          buildUnderLock setup.pageSize now state.pos state.db =
            .ok (some (staged, file)) ∨
        buildSnapshotNow setup.pageSize now state.pos state.db =
          .ok (staged, file))
      (store : next.store = state.store)
      (staging : next.staging = state.staging.insert staged.key file)
      (pos : next.pos = state.pos)
      (pending : next.pending = some staged)
  | uploaded (staged : StagedFile) (file : LtxFile)
      (pending : state.pending = some staged)
      (held : state.staging[staged.key]? = some file)
      (db : next.db = state.db)
      (store : next.store = state.store.insert staged.key file)
      (staging : next.staging = state.staging.erase staged.key)
      (pos : next.pos = staged.newPos)
      (free : next.pending = none)
      (noticed : state.Noticed → next.Noticed)
  | dropped (failed : action.fails = true)
      (db : next.db = state.db)
      (store : next.store = state.store)
      (staging : next.staging = state.staging)
      (pos : next.pos = state.pos)
      (free : next.pending = none)

section Effects

variable {setup : Setup} {state next : State} {action : Action}
  {image target : Bytes}

/-- The pending file has a free address in the replica. -/
theorem Tracks.fresh (tracks : Tracks setup state image target)
    {staged : StagedFile} (pending : state.pending = some staged) :
    state.store[staged.key]? = none := by
  obtain ⟨file, _, stagedOk, _⟩ := tracks.waiting staged pending
  by_contra present
  obtain ⟨other, held⟩ := Option.ne_none_iff_exists'.mp present
  have member := (OrderedMap.mem_iff_exists _ _).mpr ⟨other, held⟩
  have bound := (tracks.replica.bounded _ member).2
  rw [stagedOk.key] at bound
  simp only at bound
  omega

/-- Where the syncer tracks its replica, only an injected failure drops the
pending file. -/
theorem step_effect (tracks : Tracks setup state image target)
    (stepped : state.step setup action = some next) :
    Effect setup state action next := by
  cases step_move stepped with
  | kept store staging pos pending noticed _ _ =>
      exact .kept store staging pos pending noticed
  | staged draft staged file drafted _ _ built quiet free db store staging pos
      pending =>
      have same := State.draft_db drafted
      rcases Draft.build_cases built with ⟨kind, under⟩ | snapshot
      · rw [same] at under
        exact .staged staged file draft.now free db (.inl ⟨quiet kind, under⟩)
          store staging pos pending
      · rw [same] at snapshot
        exact .staged staged file draft.now free db (.inr snapshot) store
          staging pos pending
  | uploaded staged file pending held db store staging pos free noticed _ _ =>
      exact .uploaded staged file pending held db store staging pos free noticed
  | dropped failed db store staging pos free _ _ =>
      rcases failed with failed | ⟨staged, now, error, pending, failed⟩ |
        ⟨now, error, _, failed⟩
      · exact .dropped failed db store staging pos free
      · obtain ⟨file, held, _⟩ := tracks.waiting staged pending
        obtain ⟨uploaded, done⟩ :=
          @State.uploadStaged_total setup state staged file now held
            (tracks.fresh pending)
        rw [done] at failed
        cases failed
      · obtain ⟨staged, file, built⟩ :=
          @buildSnapshot_total setup.pageSize now state.pos state.db
            setup.sized tracks.db.readable
        rw [buildSnapshotNow, built] at failed
        cases failed

end Effects

end Literstream
