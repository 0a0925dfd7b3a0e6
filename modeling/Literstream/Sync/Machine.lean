import Literstream.Sync.Build
import Literstream.Levels.Calls
import Literstream.Lib.Machine

/-!
# One syncer and its surroundings

A state holds the database, the staging directory, the replica and the syncer.
The calls of the syncer run in steps, cut where the source leaves the database
to other connections or may fail: staging, releasing the read mark, the PRAGMA,
the seq bump, taking the mark again, the upload and the over-fold test.  Commits
and checkpoints of other connections come in between.
-/

namespace Literstream

/-- What a machine is about: the page size of the database and the encoded size
of LTX files. -/
structure Setup where
  pageSize : Nat
  sized : isValidPageSize pageSize = true
  encodedSize : LtxFile → Nat

theorem Setup.positive (setup : Setup) : 0 < setup.pageSize :=
  isValidPageSize.pos setup.sized

/-- The pinned read transaction.  One that began when every frame was in the main
file reads only that file. -/
inductive ReadMark where
  | released
  | mainOnly
  | upTo (frames : Nat)
deriving DecidableEq, Repr

inductive CheckpointMode where
  | passive
  | full
  | restart
  | truncate
deriving DecidableEq, Repr

/-- The row that the PRAGMA returns. -/
structure CheckpointResult where
  busy : Bool
  logFrames : Int
  checkpointedFrames : Int
deriving DecidableEq, Repr

/-- How the PRAGMA may end: another connection is checkpointing; some frames were
copied; the WAL was truncated; readers or writers blocked it after some
frames. -/
inductive PragmaOutcome where
  | locked
  | copied (frames : Nat)
  | truncated
  | blocked (frames : Nat)
deriving DecidableEq, Repr

/-- Cast a signed count to `u64`. -/
def asU64 (count : Int) : Nat := (count % 2 ^ 64).toNat

/-- The local variables of a checkpoint cycle. -/
structure Cycle where
  mode : CheckpointMode
  restartWal : Bool
  staged : Option StagedFile
  syncedFrames : Nat
deriving DecidableEq, Repr

/-- Where the running call is. -/
inductive Pc where
  | idle
  | syncUpload (staged : StagedFile)
  | release (cycle : Cycle)
  | pragma (cycle : Cycle)
  | bump (cycle : Cycle) (result : CheckpointResult)
  | acquire (cycle : Cycle) (result : CheckpointResult)
  | upload (cycle : Cycle) (staged : StagedFile) (result : CheckpointResult)
  | fold (cycle : Cycle) (result : CheckpointResult)
  | catchUp (staged : StagedFile)
deriving DecidableEq, Repr

structure State where
  db : Sqlite
  mark : ReadMark
  staging : Store
  store : Store
  files : FileIndex
  pos : Position
  minCheckpointFrames : Nat
  truncateFrames : Nat
  resnapshots : Nat
  pc : Pc

inductive Action where
  /-- Another connection commits. -/
  | commit (restart : Bool) (salt2 : Nat) (txn : List Frame)
  /-- Another connection checkpoints. -/
  | appCheckpoint (frames : Nat)
  | appTruncate
  | tune (minCheckpointFrames truncateFrames : Nat)
  | sync (now : Int)
  | checkpointIfNeeded (now : Int)
  | checkpointNow (now : Int) (mode : CheckpointMode)
  | release
  | pragma (outcome : PragmaOutcome)
  | bump (ok restart : Bool) (salt2 : Nat) (txn : List Frame)
  | acquire
  | upload (ok : Bool) (now : Int)
  | overFold (now : Int)

namespace State

/-! ## The database connection -/

/-- Take the read mark; the call is idempotent. -/
def acquireReadLock (state : State) : State :=
  if state.mark = .released then
    { state with
      mark :=
        if state.db.backfill = state.db.frames.length then .mainOnly
        else .upTo state.db.frames.length }
  else state

/-- A commit; only a WAL that no read mark pins can be restarted. -/
def commitFrames (state : State) (restart : Bool) (salt2 : Nat)
    (txn : List Frame) : Option Sqlite :=
  match restart, state.mark with
  | false, _ => some (state.db.append salt2 txn)
  | true, .upTo _ => none
  | true, _ => state.db.restart salt2 txn

/-- The frames that another connection's checkpoint may copy. -/
def copyable (state : State) : Nat :=
  match state.mark with
  | .upTo frames => min frames state.db.frames.length
  | _ => state.db.frames.length

/-- Run the PRAGMA of a cycle, with the outcomes that SQLite allows for its
mode. -/
def runPragma (pageSize : Nat) (state : State) (mode : CheckpointMode) :
    PragmaOutcome → Option (Sqlite × CheckpointResult)
  | .locked => some (state.db,
      { busy := true, logFrames := -1, checkpointedFrames := -1 })
  | .copied frames =>
      if state.db.backfill ≤ frames ∧ frames ≤ state.db.frames.length ∧
          mode ≠ .truncate ∧
          (mode ≠ .passive → frames = state.db.frames.length) then
        some (state.db.checkpoint pageSize frames,
          { busy := false
            logFrames := state.db.frames.length
            checkpointedFrames := frames })
      else none
  | .truncated =>
      if mode = .truncate then
        some (state.db.truncate pageSize,
          { busy := false, logFrames := 0, checkpointedFrames := 0 })
      else none
  | .blocked frames =>
      if state.db.backfill ≤ frames ∧ frames ≤ state.db.frames.length ∧
          mode ≠ .passive then
        some (state.db.checkpoint pageSize frames,
          { busy := true
            logFrames := state.db.frames.length
            checkpointedFrames := frames })
      else none

/-! ## The syncer -/

/-- Put an encoded file into the staging directory, replacing what lies
there. -/
def stage (state : State) (staged : StagedFile) (file : LtxFile) : State :=
  { state with staging := state.staging.insert staged.key file }

def buildNext (setup : Setup) (state : State) (now : Int) :
    State × Except SyncError (Option StagedFile) :=
  let held := state.acquireReadLock
  match buildUnderLock setup.pageSize now held.pos held.db with
  | .error error => (held, .error error)
  | .ok none => (held, .ok none)
  | .ok (some (staged, file)) => (held.stage staged file, .ok (some staged))

def readStaged (staging : Store) (key : FileKey) : Except SyncError LtxFile :=
  match staging[key]? with
  | some file => .ok file
  | none => .error .io

/-- Upload a staged file, remove it and advance the position. -/
def uploadStaged (setup : Setup) (state : State) (staged : StagedFile)
    (now : Int) : Except SyncError State := do
  let file ← readStaged state.staging staged.key
  let store ← uploadLtxFile setup.encodedSize state.store staged.key file
  return { state with
    store := store
    staging := state.staging.erase staged.key
    files := state.files.insert staged.key (some now)
    pos := staged.newPos }

/-- The frames synced in the current generation, as the position counts
them. -/
def liveWalFrames (setup : Setup) (pos : Position) : Nat :=
  (pos.walOffset - walHeaderSize) / frameSize setup.pageSize

/-- Start a checkpoint cycle: stage what is committed so far. -/
def runCheckpoint (setup : Setup) (state : State) (now : Int)
    (mode : CheckpointMode) (restartWal : Bool) : State :=
  match state.buildNext setup now with
  | (held, .error _) => held
  | (held, .ok staged) =>
      { held with
        pc := .release
          { mode := mode
            restartWal := restartWal
            staged := staged
            syncedFrames := liveWalFrames setup
              ((staged.map StagedFile.newPos).getD held.pos) } }

def checkpointIfNeeded (setup : Setup) (state : State) (now : Int) : State :=
  if liveWalFrames setup state.pos ≥ state.truncateFrames then
    state.runCheckpoint setup now .truncate true
  else if liveWalFrames setup state.pos ≥ state.minCheckpointFrames then
    state.runCheckpoint setup now .passive true
  else state

def sync (setup : Setup) (state : State) (now : Int) : State :=
  match state.buildNext setup now with
  | (held, .ok (some staged)) => { held with pc := .syncUpload staged }
  | (held, _) => held

/-- Go on after an upload; a failed one ends the call. -/
def finish (setup : Setup) (state : State) (ok : Bool) (now : Int)
    (staged : StagedFile) (next : State → State) : State :=
  match ok, state.uploadStaged setup staged now with
  | true, .ok uploaded => next uploaded
  | _, _ => { state with pc := .idle }

/-- The upload step of the running call. -/
def upload (setup : Setup) (state : State) (ok : Bool) (now : Int) :
    Option State :=
  match state.pc with
  | .syncUpload staged =>
      some (state.finish setup ok now staged fun uploaded =>
        { uploaded with pc := .idle })
  | .upload cycle staged result =>
      some (state.finish setup ok now staged fun uploaded =>
        { uploaded with pc := .fold cycle result })
  | .catchUp staged =>
      some (state.finish setup ok now staged fun uploaded =>
        { uploaded with
          pc := .idle
          resnapshots := uploaded.resnapshots + 1 })
  | _ => none

/-- The over-fold test. -/
def overFold (setup : Setup) (state : State) (cycle : Cycle)
    (result : CheckpointResult) (now : Int) : State :=
  if asU64 result.checkpointedFrames > cycle.syncedFrames then
    match buildSnapshotNow setup.pageSize now state.pos state.db with
    | .error _ => { state with pc := .idle }
    | .ok (staged, file) =>
        { state.stage staged file with pc := .catchUp staged }
  else { state with pc := .idle }

/-- One step; `none` when the action is not possible in the state. -/
def step (setup : Setup) (state : State) : Action → Option State
  | .commit restart salt2 txn =>
      (state.commitFrames restart salt2 txn).map fun db =>
        { state with db := db }
  | .appCheckpoint frames =>
      if state.db.backfill ≤ frames ∧ frames ≤ state.copyable then
        some { state with db := state.db.checkpoint setup.pageSize frames }
      else none
  | .appTruncate =>
      match state.mark with
      | .upTo _ => none
      | _ => some { state with db := state.db.truncate setup.pageSize }
  | .tune minCheckpointFrames truncateFrames =>
      some
        { state with
          minCheckpointFrames := minCheckpointFrames
          truncateFrames := truncateFrames }
  | .sync now =>
      if state.pc = .idle then some (state.sync setup now) else none
  | .checkpointIfNeeded now =>
      if state.pc = .idle then some (state.checkpointIfNeeded setup now)
      else none
  | .checkpointNow now mode =>
      if state.pc = .idle then some (state.runCheckpoint setup now mode false)
      else none
  | .release =>
      match state.pc with
      | .release cycle =>
          some { state with mark := .released, pc := .pragma cycle }
      | _ => none
  | .pragma outcome =>
      match state.pc with
      | .pragma cycle =>
          (state.runPragma setup.pageSize cycle.mode outcome).map
            fun (db, result) =>
              { state with
                db := db
                pc :=
                  if cycle.restartWal ∧ cycle.mode = .passive ∧ ¬ result.busy
                  then .bump cycle result else .acquire cycle result }
      | _ => none
  | .bump ok restart salt2 txn =>
      match state.pc with
      | .bump cycle result =>
          if ok then
            (state.commitFrames restart salt2 txn).map fun db =>
              { state with db := db, pc := .acquire cycle result }
          else some { state with pc := .idle }
      | _ => none
  | .acquire =>
      match state.pc with
      | .acquire cycle result =>
          some
            { state.acquireReadLock with
              pc :=
                match cycle.staged with
                | some staged => .upload cycle staged result
                | none => .fold cycle result }
      | _ => none
  | .upload ok now => state.upload setup ok now
  | .overFold now =>
      match state.pc with
      | .fold cycle result => some (state.overFold setup cycle result now)
      | _ => none

/-- Sync until nothing is left; one time for each sync. -/
def flush (setup : Setup) : List Int → State → Option State
  | [], _ => none
  | now :: rest, state =>
      match state.buildNext setup now with
      | (_, .error _) => none
      | (held, .ok none) => some held
      | (held, .ok (some staged)) =>
          match held.uploadStaged setup staged now with
          | .error _ => none
          | .ok uploaded => flush setup rest uploaded

end State

end Literstream
