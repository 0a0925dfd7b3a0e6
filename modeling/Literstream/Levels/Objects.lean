import Literstream.Levels.Calls
import Literstream.Ltx.Wire.Objects

/-!
# The level calls on objects

The calls of the syncer as they work on the bytes that the store holds: inputs
are byte strings, merges run on them, and what comes out is uploaded as it is.
-/

namespace Literstream

open Fallible

/-- An error of the calls, or one that reading or writing an object ends
with. -/
inductive ObjectError where
  | sync (error : SyncError)
  | wire (error : Wire.WireError)
deriving DecidableEq

/-- The objects of a replica as the store holds them. -/
abbrev ObjectMap := Std.ExtTreeMap FileKey Bytes FileKey.cmp

/-- The replica as its only writer sees it, with objects in place of files. -/
structure Objects where
  store : ObjectMap
  files : FileIndex
  txid : Nat
  faults : List Bool

namespace Objects

abbrev Call := Fallible Objects ObjectError

def liftSync {α : Type} : Except SyncError α → Except ObjectError α
  | .ok value => .ok value
  | .error error => .error (.sync error)

def liftWire {α : Type} : Except Wire.WireError α → Except ObjectError α
  | .ok value => .ok value
  | .error error => .error (.wire error)

def attempt : Call Unit := fun state =>
  match state.faults with
  | [] => (.ok (), state)
  | false :: rest => (.ok (), { state with faults := rest })
  | true :: rest => (.error (.sync .storage), { state with faults := rest })

def getLtx (store : ObjectMap) (key : FileKey) : Except SyncError Bytes :=
  match store[key]? with
  | some bytes => .ok bytes
  | none => .error .storage

def fetchLtx (key : FileKey) : Call Bytes := do
  attempt
  let state ← current
  ofExcept (liftSync (getLtx state.store key))

def deleteLtx (key : FileKey) : Call Unit := do
  attempt
  change fun state => { state with store := state.store.erase key }

def forgetFile (key : FileKey) : Call Unit :=
  change fun state => { state with files := state.files.erase key }

def deleteFile (file : LtxFileInfo) : Call Unit := do
  deleteLtx file.toFileKey
  forgetFile file.toFileKey

def putLtx (store : ObjectMap) (key : FileKey) (bytes : Bytes) : ObjectMap :=
  store.insert key bytes

/-- Upload with an if-not-exists guard; an existing object is read back and
compared. -/
def putLtxCas (store : ObjectMap) (key : FileKey) (bytes : Bytes) :
    PutOutcome × ObjectMap :=
  match store[key]? with
  | none => (.created, store.insert key bytes)
  | some existing =>
      if existing = bytes then (.alreadyIdentical, store)
      else (.conflict, store)

def uploadLtxFile (store : ObjectMap) (key : FileKey) (bytes : Bytes) :
    Except SyncError ObjectMap :=
  if multipartThreshold ≤ bytes.length then .ok (putLtx store key bytes)
  else
    match putLtxCas store key bytes with
    | (.conflict, _) => .error (.equivocation key.maxTxid)
    | (_, uploaded) => .ok uploaded

/-- Both ways of uploading a merge overwrite. -/
def uploadMerged (clock : Int) (key : FileKey) (bytes : Bytes) :
    Call Unit := do
  attempt
  change fun state => { state with store := putLtx state.store key bytes }
  change fun state =>
    { state with files := state.files.insert key (some clock) }

def compactAndUpload (lz4 : Wire.Lz4) (clock : Int) (key : FileKey)
    (inputs : List Bytes) : Call Unit := do
  let merged ← ofExcept (liftWire (Wire.compactToWriter lz4 inputs))
  uploadMerged clock key merged

def compactLevel (lz4 : Wire.Lz4) (clock : Int) (dstLevel : Nat) :
    Call (Option CompactionInfo) :=
  if dstLevel = 0 ∨ dstLevel ≥ snapshotLevel then
    ofExcept (.error (.sync .invalidCompactionLevels))
  else do
    let state ← current
    let dstMax := maxOf (state.files.list dstLevel)
    let src := (state.files.list (dstLevel - 1)).filter fun file =>
      file.minTxid > dstMax
    match src.head?, src.getLast? with
    | some first, some last => do
        let inputs ← collect (fun file : LtxFileInfo =>
          fetchLtx file.toFileKey) src
        compactAndUpload lz4 clock ⟨dstLevel, first.minTxid, last.maxTxid⟩
          inputs
        return some
          { minTxid := first.minTxid
            maxTxid := last.maxTxid
            inputs := inputs.length
            pruned := 0 }
    | _, _ => return none

/-- Merge the objects of a plan under the header of a snapshot; the size comes
from the newest of them. -/
def mergeSnapshot (lz4 : Wire.Lz4) (clock : Int) (maxTxid : Nat)
    (inputs : List Bytes) : Except Wire.WireError Bytes :=
  match inputs.getLast? with
  | none => .error .panic
  | some newest => do
      let header ← Wire.Header.decode newest
      Wire.mergeToWriter lz4 inputs
        (Wire.mergedHeader header.pageSize header.commit 1
          (UInt64.ofNat maxTxid) (Int64.ofInt (nowMs clock)))

def snapshot (lz4 : Wire.Lz4) (clock : Int) :
    Call (Option CompactionInfo) := do
  let state ← current
  if state.files.allLevels = [] then return none
  else
    let maxTxid := headTxid state.files.allLevels
    if (state.files.list snapshotLevel).any fun file =>
        file.minTxid = 1 ∧ file.maxTxid = maxTxid then return none
    else do
      let plan ← ofExcept (liftSync (planRestore state.files.allLevels))
      let inputs ← collect fetchLtx plan
      let merged ← ofExcept (liftWire
        (mergeSnapshot lz4 clock maxTxid inputs))
      uploadMerged clock ⟨snapshotLevel, 1, maxTxid⟩ merged
      return some
        { minTxid := 1
          maxTxid := maxTxid
          inputs := plan.length
          pruned := 0 }

def enforceRetentionByTxid (level txid : Nat) : Call Nat := do
  let state ← current
  let deleted := belowTxid (state.files.list level) txid
  forEach deleteFile deleted
  return deleted.length

def cascadeRetention (maxLevel txid : Nat) : Call Unit :=
  forEach (fun level => do
    let _ ← enforceRetentionByTxid level txid
    return ()) (List.range (maxLevel + 1))

def enforceSnapshotRetention (now : Int) (retention maxLevel : Nat) :
    Call Nat := do
  let state ← current
  let found := snapshotExpired (state.files.list snapshotLevel)
    (cutoffTime now retention)
  forEach deleteFile found.1
  if found.2 > 0 then do
    cascadeRetention maxLevel found.2
    return found.2
  else return found.2

def enforceL0Retention (now : Int) (retention : Nat) : Call Nat :=
  if retention = 0 then return 0
  else do
    let state ← current
    let deleted := l0Expired (state.files.list level0)
      (maxOf (state.files.list 1)) (cutoffTime now retention)
    forEach deleteFile deleted
    return deleted.length

/-- Upload what the encoder wrote for the next TXID. -/
def syncFile (clock : Int) (bytes : Bytes) : Call Unit := do
  attempt
  let state ← current
  let key : FileKey := ⟨level0, state.txid + 1, state.txid + 1⟩
  let store ← ofExcept (liftSync (uploadLtxFile state.store key bytes))
  change fun state =>
    { state with
      store := store
      files := state.files.insert key (some clock)
      txid := state.txid + 1 }

end Objects

end Literstream
