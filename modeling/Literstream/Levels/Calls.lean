import Literstream.Levels.Retention
import Literstream.Ltx.Compactor
import Literstream.Restore.Plan
import Literstream.Lib.Fallible

/-!
# Compaction, snapshots and retention

The calls of the syncer that rearrange the replica.  They plan on the local
file index and change the store and the index together; every store operation
may fail, leaving what was done before it.
-/

namespace Literstream

open Std

/-- The local mirror of the replica's file set, with creation times. -/
abbrev FileIndex := ExtTreeMap FileKey (Option Int) FileKey.cmp

/-- Files at a level, ascending by their range. -/
def FileIndex.list (files : FileIndex) (level : Nat) : List LtxFileInfo :=
  (files.toList.filter fun entry => entry.1.level = level).map fun entry =>
    { toFileKey := entry.1, createdAt := entry.2 }

/-- Every file across all levels. -/
def FileIndex.allLevels (files : FileIndex) : List FileKey := files.keys

/-- The replica as its only writer sees it.  Times are in nanoseconds since the
Unix epoch.  `faults` schedules the store operations of the current call that
fail. -/
structure Levels where
  store : Store
  files : FileIndex
  /-- The last synced TXID. -/
  txid : Nat
  faults : List Bool

/-- The calls of the syncer. -/
abbrev Call := Fallible Levels SyncError

open Fallible

/-- A store operation fails when its turn of the schedule says so. -/
def attempt : Call Unit := fun state =>
  match state.faults with
  | [] => (.ok (), state)
  | false :: rest => (.ok (), { state with faults := rest })
  | true :: rest => (.error .storage, { state with faults := rest })

def fetchLtx (key : FileKey) : Call LtxFile := do
  attempt
  let state ← current
  ofExcept (getLtx state.store key)

def deleteLtx (key : FileKey) : Call Unit := do
  attempt
  change fun state => { state with store := state.store.erase key }

def forgetFile (key : FileKey) : Call Unit :=
  change fun state => { state with files := state.files.erase key }

/-- The body of every deletion loop. -/
def deleteFile (file : LtxFileInfo) : Call Unit := do
  deleteLtx file.toFileKey
  forgetFile file.toFileKey

/-- Upload a merge output; the plain put and the multipart upload both
overwrite. -/
def uploadMerged (clock : Int) (key : FileKey) (file : LtxFile) :
    Call Unit := do
  attempt
  change fun state => { state with store := putLtx state.store key file }
  change fun state =>
    { state with files := state.files.insert key (some clock) }

def compactAndUpload (clock : Int) (key : FileKey) (inputs : List LtxFile) :
    Call Unit := do
  let merged ← ofExcept (liftLtx (compactToWriter inputs))
  uploadMerged clock key merged

structure CompactionInfo where
  minTxid : Nat
  maxTxid : Nat
  inputs : Nat
  pruned : Nat
deriving DecidableEq, Repr

/-- The largest `maxTxid` of a list of files, 0 for none. -/
def maxOf (files : List LtxFileInfo) : Nat :=
  headTxid (files.map LtxFileInfo.toFileKey)

/-- Merge the files of the level below that the destination does not hold yet.
The list of a level is ascending, so sorting it again changes nothing. -/
def compactLevel (clock : Int) (dstLevel : Nat) :
    Call (Option CompactionInfo) :=
  if dstLevel = 0 ∨ dstLevel ≥ snapshotLevel then
    ofExcept (.error .invalidCompactionLevels)
  else do
    let state ← current
    let dstMax := maxOf (state.files.list dstLevel)
    let src := (state.files.list (dstLevel - 1)).filter fun file =>
      file.minTxid > dstMax
    match src.head?, src.getLast? with
    | some first, some last => do
        let inputs ← collect (fun file : LtxFileInfo =>
          fetchLtx file.toFileKey) src
        compactAndUpload clock ⟨dstLevel, first.minTxid, last.maxTxid⟩ inputs
        return some
          { minTxid := first.minTxid
            maxTxid := last.maxTxid
            inputs := inputs.length
            pruned := 0 }
    | _, _ => return none

/-- `now_ms`: a clock reading in milliseconds, 0 before the Unix epoch. -/
def nowMs (clock : Int) : Int := if clock < 0 then 0 else clock / 1000000

/-- Write a full snapshot for the highest TXID in the index. -/
def snapshot (clock : Int) : Call (Option CompactionInfo) := do
  let state ← current
  if state.files.allLevels = [] then return none
  else
    let maxTxid := headTxid state.files.allLevels
    if (state.files.list snapshotLevel).any fun file =>
        file.minTxid = 1 ∧ file.maxTxid = maxTxid then return none
    else do
      let plan ← ofExcept (planRestore state.files.allLevels)
      let inputs ← collect fetchLtx plan
      match inputs.getLast? with
      | none => return none
      | some newest => do
          let merged ← ofExcept (liftLtx (mergeToWriter inputs
            (noChecksumHeader newest.header.pageSize newest.header.commit 1
              maxTxid (nowMs clock) 0 0 0 0)))
          uploadMerged clock ⟨snapshotLevel, 1, maxTxid⟩ merged
          return some
            { minTxid := 1
              maxTxid := maxTxid
              inputs := plan.length
              pruned := 0 }

/-- The earliest time that the clock can represent, in nanoseconds. -/
def earliestTime : Int := -(2 ^ 63) * 10 ^ 9

/-- `now.checked_sub(retention).unwrap_or(now)`. -/
def cutoffTime (now : Int) (retention : Nat) : Int :=
  if now - retention < earliestTime then now else now - retention

def enforceRetentionByTxid (level txid : Nat) : Call Nat := do
  let state ← current
  let deleted := belowTxid (state.files.list level) txid
  forEach deleteFile deleted
  return deleted.length

/-- Prune every level `0..=maxLevel` below a TXID. -/
def cascadeRetention (maxLevel txid : Nat) : Call Unit :=
  forEach (fun level => do
    let _ ← enforceRetentionByTxid level txid
    return ()) (List.range (maxLevel + 1))

def enforceSnapshotRetention (now : Int) (retention maxLevel : Nat) :
    Call Nat := do
  let state ← current
  let found := snapshotExpired (state.files.list snapshotLevel)
    (cutoffTime now retention)
  forEach deleteFile found.1
  if found.2 > 0 then do
    cascadeRetention maxLevel found.2
    return found.2
  else return found.2

def enforceL0Retention (now : Int) (retention : Nat) : Call Nat :=
  if retention = 0 then return 0
  else do
    let state ← current
    let deleted := l0Expired (state.files.list level0)
      (maxOf (state.files.list 1)) (cutoffTime now retention)
    forEach deleteFile deleted
    return deleted.length

/-- The base that `compact` extends. -/
def compactBase (files : FileIndex) : Option LtxFileInfo :=
  (files.list snapshotLevel).find? fun file => file.minTxid = 1

/-- The L0 files that `compact` finds beyond its base. -/
def compactFresh (files : FileIndex) : List LtxFileInfo :=
  (files.list level0).filter fun file =>
    file.minTxid > ((compactBase files).map fun base => base.maxTxid).getD 0

/-- Fold the L0 chain, except its newest file, into one base. -/
def compact (clock : Int) : Call (Option CompactionInfo) := do
  let state ← current
  let base := compactBase state.files
  let newL0 := compactFresh state.files
  let toMerge := newL0.dropLast
  match toMerge.getLast? with
  | none => return none
  | some newest => do
      let inputs ← collect (fun file : LtxFileInfo => fetchLtx file.toFileKey)
        (base.toList ++ toMerge)
      compactAndUpload clock ⟨snapshotLevel, 1, newest.maxTxid⟩ inputs
      forEach deleteFile base.toList
      forEach deleteFile toMerge
      return some
        { minTxid := 1
          maxTxid := newest.maxTxid
          inputs := inputs.length
          pruned := base.toList.length + toMerge.length }

/-- Upload the next L0 file and advance the position. -/
def syncFile (encodedSize : LtxFile → Nat) (clock : Int) (file : LtxFile) :
    Call Unit := do
  attempt
  let state ← current
  let key : FileKey := ⟨level0, state.txid + 1, state.txid + 1⟩
  let store ← ofExcept (uploadLtxFile encodedSize state.store key file)
  change fun state =>
    { state with
      store := store
      files := state.files.insert key (some clock)
      txid := state.txid + 1 }

end Literstream
