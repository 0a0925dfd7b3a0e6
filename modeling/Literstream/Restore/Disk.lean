import Literstream.Restore.Apply
import Literstream.Lib.Script

/-!
# The restored file, its marker and crashes

A restore works on one database file and the position marker beside it.  The
marker is replaced atomically and durably; writes and resizes of the file
become durable at the next `syncAll`, and a crash keeps any part of those that
are still pending.
-/

namespace Literstream

open PagedFile

/-- What a local database image is, as recorded beside it. -/
inductive Marker where
  | clean (txid pageSize commit fileLen : Nat)
  | applying (from_ to_ : Nat)
deriving DecidableEq, Repr

/-- A change of the file that is not durable yet. -/
inductive Mutation where
  /-- `File::create`: an empty file, whatever was there. -/
  | create
  | setLen (size : Nat)
  | writeAt (offset : Nat) (data : Bytes)
deriving DecidableEq

def Mutation.apply : Mutation → Option Bytes → Option Bytes
  | .create, _ => some []
  | .setLen size, file => file.map (PagedFile.setLen size)
  | .writeAt offset data, file => file.map (PagedFile.writeAt offset data)

inductive FileOp where
  | mark (marker : Marker)
  | mutate (mutation : Mutation)
  | syncAll
deriving DecidableEq

/-- The operation leaves the marker alone. -/
def FileOp.unmarked : FileOp → Bool
  | .mark _ => false
  | _ => true

/-- The file as a process reads it, what of it is durable, the changes in
between, and the marker. -/
structure Disk where
  file : Option Bytes
  durable : Option Bytes
  pending : List Mutation
  marker : Option Marker
deriving DecidableEq

namespace Disk

def exec (disk : Disk) : FileOp → Disk
  | .mark marker => { disk with marker := some marker }
  | .mutate mutation =>
      { disk with
        file := mutation.apply disk.file
        pending := disk.pending ++ [mutation] }
  | .syncAll => { disk with durable := disk.file, pending := [] }

def run (disk : Disk) (ops : List FileOp) : Disk := ops.foldl exec disk

/-- A crash after which exactly the changes `kept` turn out to be durable. -/
def crash (disk : Disk) (kept : List Mutation) : Disk where
  file := kept.foldl (fun file mutation => mutation.apply file) disk.durable
  durable := kept.foldl (fun file mutation => mutation.apply file) disk.durable
  pending := []
  marker := disk.marker

@[simp] theorem run_nil (disk : Disk) : disk.run [] = disk := rfl

@[simp] theorem run_cons (disk : Disk) (op : FileOp) (rest : List FileOp) :
    disk.run (op :: rest) = (disk.exec op).run rest := rfl

theorem run_append (disk : Disk) (first second : List FileOp) :
    disk.run (first ++ second) = (disk.run first).run second :=
  List.foldl_append

/-- Syncing and then replacing the marker makes everything durable. -/
theorem run_publish (disk : Disk) (ops : List FileOp) (marker : Marker) :
    disk.run (ops ++ [.syncAll, .mark marker]) =
      { file := (disk.run ops).file
        durable := (disk.run ops).file
        pending := []
        marker := some marker } := by
  rw [run_append]
  rfl

theorem run_marker {disk : Disk} {ops : List FileOp}
    (unmarked : ∀ op ∈ ops, op.unmarked = true) :
    (disk.run ops).marker = disk.marker := by
  induction ops generalizing disk with
  | nil => rfl
  | cons op rest ih =>
      rw [run_cons, ih fun other member => unmarked other (by simp [member])]
      cases op with
      | mark marker =>
          have impossible := unmarked (.mark marker) (by simp)
          cases impossible
      | mutate mutation => rfl
      | syncAll => rfl

end Disk

/-- The operation that writes one page. -/
def writePage (pageSize : Nat) (page : Page) : FileOp :=
  .mutate (.writeAt ((page.1 - 1) * pageSize) page.2)

theorem Disk.run_writePages (disk : Disk) (pageSize : Nat) (pages : List Page)
    {file : Bytes} (present : disk.file = some file) :
    (disk.run (pages.map (writePage pageSize))).file =
        some (writePages pageSize pages file) := by
  induction pages generalizing disk file with
  | nil => exact present
  | cons page rest ih =>
      rw [List.map_cons, Disk.run_cons]
      exact ih _ (by simp [writePage, Disk.exec, Mutation.apply, present])

end Literstream
