import Literstream.Levels.Calls
import Literstream.Sync.Machine

/-!
# The driver

One tick syncs, checkpoints, compacts every level whose interval boundary has
passed, and takes snapshots and enforces retention on boundaries of their own.
The syncer appears by its calls, which may fail.  Instants are nanoseconds since
the Unix epoch, durations are nanoseconds.
-/

namespace Literstream

open Fallible

/-! ## Levels and boundaries -/

/-- One tier of the cascade. -/
structure CompactionLevel where
  level : Nat
  interval : Nat
deriving DecidableEq, Repr

/-- The levels below the snapshots: dense, in order, and with an interval
except for level 0. -/
structure CompactionLevels where
  levels : List CompactionLevel
  nonempty : levels ≠ []
  dense : levels.map CompactionLevel.level = List.range levels.length
  below : levels.length ≤ snapshotLevel
  timed : ∀ level ∈ levels, level.interval = 0 ↔ level.level = 0

def second : Nat := 10 ^ 9

def CompactionLevels.defaultLevels : CompactionLevels where
  levels := [⟨0, 0⟩, ⟨1, 30 * second⟩, ⟨2, 5 * 60 * second⟩,
    ⟨3, 60 * 60 * second⟩]
  nonempty := by decide
  dense := by decide
  below := by decide
  timed := by decide

/-- The highest configured level. -/
def CompactionLevels.maxLevel (levels : CompactionLevels) : Nat :=
  levels.levels.length - 1

/-- Floor an instant to a multiple of an interval since the Unix epoch; the
nanoseconds are cast to 64 bits. -/
def truncate (now : Int) (interval : Nat) : Int :=
  if interval = 0 then now
  else ((now.toNat / interval * interval % 2 ^ 64 : Nat) : Int)

def CompactionLevel.prevCompactionAt (level : CompactionLevel) (now : Int) :
    Int :=
  truncate now level.interval

def intervalBoundary (now : Int) (interval : Nat) : Int := truncate now interval

/-! ## The syncer and the driver -/

/-- The calls of a syncer that a tick makes, and the figures it reads. -/
structure SyncerCalls (σ ε : Type) where
  sync : Fallible σ ε SyncOutcome
  checkpointIfNeeded :
    Fallible σ ε (Option (CheckpointMode × CheckpointResult))
  checkpointNow :
    CheckpointMode → Fallible σ ε (CheckpointMode × CheckpointResult)
  walFrameCount : σ → Nat
  compactLevel : Nat → Fallible σ ε (Option CompactionInfo)
  snapshot : Fallible σ ε (Option CompactionInfo)
  enforceSnapshotRetention : Int → Nat → Nat → Fallible σ ε Nat
  enforceL0Retention : Int → Nat → Fallible σ ε Nat
  resnapshotCount : σ → Nat
  stagedBacklogBytes : σ → Nat

/-- The fields of a driver that no tick changes. -/
structure DriverConfig where
  levels : CompactionLevels
  snapshotInterval : Nat
  snapshotRetention : Nat
  l0Retention : Nat
  l0RetentionInterval : Nat
  checkpointInterval : Nat

/-- The windows of `Driver::new`. -/
def DriverConfig.new (levels : CompactionLevels) : DriverConfig where
  levels := levels
  snapshotInterval := 24 * 60 * 60 * second
  snapshotRetention := 24 * 60 * 60 * second
  l0Retention := 5 * 60 * second
  l0RetentionInterval := 15 * second
  checkpointInterval := 60 * second

/-- A piece of work with boundaries of its own. -/
inductive Stage where
  | compaction (level : Nat)
  | snapshot
  | l0Retention
deriving DecidableEq, Repr

/-- Work that was due, when, and whether it succeeded. -/
structure Attempt where
  stage : Stage
  time : Int
  ok : Bool
deriving DecidableEq, Repr

/-- A driver.  `lastBoundary` holds the last boundaries of all stages; no
function reads `attempts`, which records the work done, the newest first. -/
structure Driver (σ : Type) where
  syncer : σ
  lastBoundary : Stage → Int
  lastCheckpointAt : Int
  syncedSinceCheckpoint : Bool
  prevResnapshots : Nat
  attempts : List Attempt

structure TickReport where
  synced : SyncOutcome
  checkpoint : Option (CheckpointMode × CheckpointResult)
  compactions : List (Nat × CompactionInfo)
  snapshot : Option CompactionInfo
  l0Pruned : Nat
  resnapshotFired : Bool
  stagedBacklogBytes : Nat
deriving DecidableEq, Repr

namespace Driver

variable {σ ε α : Type}

def new (syncer : σ) : Driver σ where
  syncer := syncer
  lastBoundary _ := 0
  lastCheckpointAt := 0
  syncedSinceCheckpoint := false
  prevResnapshots := 0
  attempts := []

/-- A call of the syncer. -/
def onSyncer (call : Fallible σ ε α) : Fallible (Driver σ) ε α := fun driver =>
  ((call driver.syncer).1, { driver with syncer := (call driver.syncer).2 })

/-- Record how work ended. -/
def recorded (stage : Stage) (now : Int) (work : Fallible (Driver σ) ε α) :
    Fallible (Driver σ) ε α := fun driver =>
  ((work driver).1,
    { (work driver).2 with
      attempts := ⟨stage, now, (work driver).1.isOk⟩ ::
        (work driver).2.attempts })

/-- Do the work of a stage when its boundary is new.  The boundary is stored
before the work. -/
def whenDue (stage : Stage) (now boundary : Int)
    (work : Fallible (Driver σ) ε α) : Fallible (Driver σ) ε (Option α) := do
  let driver ← current
  if boundary > driver.lastBoundary stage then
    change fun driver =>
      { driver with
        lastBoundary := Function.update driver.lastBoundary stage boundary }
    let value ← recorded stage now work
    return some value
  else return none

/-- The time-based checkpoint is due. -/
def checkpointDue (config : DriverConfig) (now : Int) (walFrameCount : Nat)
    (driver : Driver σ) : Bool :=
  config.checkpointInterval ≠ 0 && driver.syncedSinceCheckpoint &&
    walFrameCount > 0 &&
    (driver.lastCheckpointAt ≤ now &&
      now - driver.lastCheckpointAt ≥ config.checkpointInterval)

/-- Remember a sync that found something. -/
def afterSync (skipped : Bool) (driver : Driver σ) : Driver σ :=
  if skipped then driver else { driver with syncedSinceCheckpoint := true }

/-- Remember a checkpoint. -/
def afterCheckpoint (now : Int) (driver : Driver σ) : Driver σ :=
  { driver with lastCheckpointAt := now, syncedSinceCheckpoint := false }

section Tick

variable (calls : SyncerCalls σ ε) (config : DriverConfig) (now : Int)

/-- Replicate new frames. -/
def syncStage : Fallible (Driver σ) ε SyncOutcome := do
  let synced ← onSyncer calls.sync
  change (afterSync (synced = .skipped))
  return synced

def timedCheckpoint (found : Option (CheckpointMode × CheckpointResult)) :
    Fallible (Driver σ) ε (Option (CheckpointMode × CheckpointResult)) := do
  let driver ← current
  if found = none ∧ checkpointDue config now
      (calls.walFrameCount driver.syncer) driver = true then
    let ran ← onSyncer (calls.checkpointNow .passive)
    return some ran
  else return found

/-- Checkpoint on the frame thresholds or on time. -/
def checkpointStage :
    Fallible (Driver σ) ε (Option (CheckpointMode × CheckpointResult)) := do
  let needed ← onSyncer calls.checkpointIfNeeded
  let checkpoint ← timedCheckpoint calls config now needed
  if checkpoint ≠ none then
    change (afterCheckpoint now)
    return checkpoint
  else return checkpoint

/-- Compact into every level whose boundary has passed. -/
def compactLevels :
    List CompactionLevel → Fallible (Driver σ) ε (List (Nat × CompactionInfo))
  | [] => return []
  | level :: rest =>
      if level.level = 0 then compactLevels rest
      else do
        let compacted ← whenDue (.compaction level.level) now
          (level.prevCompactionAt now) (onSyncer (calls.compactLevel level.level))
        let later ← compactLevels rest
        return (compacted.join.map (level.level, ·)).toList ++ later

def snapshotWork : Fallible (Driver σ) ε (Option CompactionInfo) := do
  let snapshot ← onSyncer calls.snapshot
  let _ ← onSyncer (calls.enforceSnapshotRetention now config.snapshotRetention
    config.levels.maxLevel)
  return snapshot

def snapshotStage : Fallible (Driver σ) ε (Option CompactionInfo) :=
  if config.snapshotInterval = 0 then return none
  else do
    let taken ← whenDue .snapshot now
      (intervalBoundary now config.snapshotInterval)
      (snapshotWork calls config now)
    return taken.join

def l0RetentionStage : Fallible (Driver σ) ε Nat :=
  if config.l0Retention = 0 ∨ config.l0RetentionInterval = 0 then return 0
  else do
    let pruned ← whenDue .l0Retention now
      (intervalBoundary now config.l0RetentionInterval)
      (onSyncer (calls.enforceL0Retention now config.l0Retention))
    return pruned.getD 0

/-- One scheduler step. -/
def tick : Fallible (Driver σ) ε TickReport := do
  let synced ← syncStage calls
  let checkpoint ← checkpointStage calls config now
  let compactions ← compactLevels calls now config.levels.levels
  let snapshot ← snapshotStage calls config now
  let l0Pruned ← l0RetentionStage calls config now
  let driver ← current
  change fun driver =>
    { driver with prevResnapshots := calls.resnapshotCount driver.syncer }
  return {
    synced := synced
    checkpoint := checkpoint
    compactions := compactions
    snapshot := snapshot
    l0Pruned := l0Pruned
    resnapshotFired :=
      calls.resnapshotCount driver.syncer > driver.prevResnapshots
    stagedBacklogBytes := calls.stagedBacklogBytes driver.syncer }

end Tick

end Driver

end Literstream
