import Literstream.Db.Sqlite
import Literstream.Storage

/-!
# Building the next LTX file

`plan` decides from the recorded position and the WAL header where the next file
starts; a snapshot reads the whole database, an incremental file only the tail
of the WAL.
-/

namespace Literstream

open PagedFile

/-- How far the database is replicated. -/
structure Position where
  txid : Nat
  walOffset : Nat
  salt1 : Nat
  salt2 : Nat
  syncedToWalEnd : Bool
deriving DecidableEq, Repr

def Position.default : Position where
  txid := 0
  walOffset := 0
  salt1 := 0
  salt2 := 0
  syncedToWalEnd := false

inductive Plan where
  | skip
  | snapshot (offset : Nat)
  | incremental (offset salt1 salt2 : Nat)
deriving DecidableEq, Repr

/-- A changed salt or a shrunk WAL is taken for a restart after everything was
replicated. -/
def plan (pageSize : Nat) (pos : Position) : Option Wal → Plan
  | none =>
      if pos.txid = 0 then .snapshot walHeaderSize
      else if pos.syncedToWalEnd then .skip
      else .snapshot walHeaderSize
  | some wal =>
      if pos.txid = 0 then .snapshot walHeaderSize
      else if pos.walOffset > wal.size pageSize ∨
          ¬ (wal.salt1 = pos.salt1 ∧ wal.salt2 = pos.salt2) then
        .incremental walHeaderSize wal.salt1 wal.salt2
      else .incremental pos.walOffset pos.salt1 pos.salt2

/-- What a single sync produced. -/
inductive SyncOutcome where
  | skipped
  | snapshot (txid pages : Nat)
  | incremental (txid pages : Nat)
deriving DecidableEq, Repr

/-- A file in the staging directory, and the position to record once it is
uploaded. -/
structure StagedFile where
  outcome : SyncOutcome
  key : FileKey
  newPos : Position
deriving DecidableEq, Repr

/-- The frames from an offset on.  The frame before the offset must belong to
the current generation. -/
def readTail (pageSize : Nat) (wal : Wal) (offset : Nat) :
    Except SyncError (List (Nat × Frame)) :=
  let index := (offset - walHeaderSize) / frameSize pageSize
  if offset < walHeaderSize ∨
      (offset - walHeaderSize) % frameSize pageSize ≠ 0 then
    .error (.wal (.unalignedOffset offset))
  else if wal.frames.length < index then .error (.wal .prevFrameMismatch)
  else .ok (locate pageSize index (wal.frames.drop index))

/-- The frames that a snapshot reads; a missing or empty WAL has none. -/
def walEntries (pageSize : Nat) (db : Sqlite) (offset : Nat) :
    Except SyncError (List (Nat × Frame)) :=
  match db.wal with
  | some wal => readTail pageSize wal offset
  | none => .ok []

/-- One page of a snapshot: from the WAL, or else from the main file. -/
def snapshotPage (pageSize : Nat) (db : Sqlite) (map : PageMap) (pgno : Nat) :
    Except SyncError Bytes :=
  match map.pages[pgno]? with
  | some offset => .ok (pageDataAt pageSize db.frames offset)
  | none =>
      if pgno * pageSize ≤ db.main.length then
        .ok (pageAt pageSize pgno db.main)
      else .error .io

def encodeSnapshot (pageSize : Nat) (db : Sqlite) (map : PageMap) :
    List Nat → Encoder → Except SyncError Encoder
  | [], encoder => .ok encoder
  | pgno :: rest, encoder => do
      let data ← snapshotPage pageSize db map pgno
      let next ← liftLtx (encoder.encodePage pgno data)
      encodeSnapshot pageSize db map rest next

/-- The pages of a snapshot: all but the lock page. -/
def snapshotPgnos (pageSize commit : Nat) : List Nat :=
  ((List.range commit).map (· + 1)).filter fun pgno =>
    pgno ≠ lockPgno pageSize

def buildSnapshot (pageSize : Nat) (now : Int) (pos : Position) (db : Sqlite)
    (offset : Nat) : Except SyncError (StagedFile × LtxFile) := do
  let entries ← walEntries pageSize db offset
  let map := pageMap pageSize entries
  let salt1 := (db.wal.map Wal.salt1).getD 0
  let salt2 := (db.wal.map Wal.salt2).getD 0
  let walLen := (db.wal.map (Wal.size pageSize)).getD 0
  let commit :=
    if map.commit > 0 then map.commit else db.main.length / pageSize
  let walSize := map.endOffset - offset
  let txid := pos.txid + 1
  let encoder ← liftLtx (Encoder.encodeHeader
    (noChecksumHeader pageSize commit txid txid now offset walSize salt1 salt2))
  let written ← encodeSnapshot pageSize db map (snapshotPgnos pageSize commit)
    encoder
  return (
    { outcome := .snapshot txid commit
      key := ⟨level0, txid, txid⟩
      newPos :=
        { txid := txid
          walOffset := offset + walSize
          salt1 := salt1
          salt2 := salt2
          syncedToWalEnd := offset + walSize ≥ walLen } }, written.finish)

def buildIncremental (pageSize : Nat) (now : Int) (pos : Position) (wal : Wal)
    (offset salt1 salt2 : Nat) :
    Except SyncError (Option (StagedFile × LtxFile)) := do
  let entries ← readTail pageSize wal offset
  let map := pageMap pageSize entries
  if map.pages.isEmpty then return none
  else do
    let walSize := map.endOffset - offset
    let txid := pos.txid + 1
    let pages := mapPages pageSize wal.frames map
    let file ← liftLtx (encodeFile
      (noChecksumHeader pageSize map.commit txid txid now offset walSize salt1
        salt2) pages)
    return some (
      { outcome := .incremental txid pages.length
        key := ⟨level0, txid, txid⟩
        newPos :=
          { txid := txid
            walOffset := offset + walSize
            salt1 := salt1
            salt2 := salt2
            syncedToWalEnd := offset + walSize ≥ wal.size pageSize } }, file)

def buildUnderLock (pageSize : Nat) (now : Int) (pos : Position) (db : Sqlite) :
    Except SyncError (Option (StagedFile × LtxFile)) :=
  match plan pageSize pos db.wal, db.wal with
  | .skip, _ => .ok none
  | .snapshot offset, _ =>
      (buildSnapshot pageSize now pos db offset).map some
  | .incremental offset salt1 salt2, some wal =>
      buildIncremental pageSize now pos wal offset salt1 salt2
  | .incremental _ _ _, none => .ok none

/-- A snapshot whatever the position says. -/
def buildSnapshotNow (pageSize : Nat) (now : Int) (pos : Position)
    (db : Sqlite) : Except SyncError (StagedFile × LtxFile) :=
  buildSnapshot pageSize now pos db walHeaderSize

end Literstream
