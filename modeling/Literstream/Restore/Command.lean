import Literstream.Restore.CatchUp

/-!
# The restore command

The four forms of `literstream restore` on one output path.  The plain and the
incremental form maintain the position marker; the point-in-time forms write
the file and leave the marker of an earlier restore in place.
-/

namespace Literstream

open PagedFile

/-- `fs::write`: create the file and write its contents. -/
def writeFile (contents : Bytes) : Script FileOp SyncError Unit := do
  Script.emit (.mutate .create)
  Script.emit (.mutate (.writeAt 0 contents))

/-- The forms of the command. -/
inductive RestoreForm where
  | plain
  | txid (target : Nat)
  | timestamp (milliseconds : Int)
  | incremental
deriving DecidableEq, Repr

def restoreCmd (store : Store) (disk : Disk) :
    RestoreForm → Script FileOp SyncError Unit
  | .plain => do
      let _ ← restoreToPath store
      return ()
  | .txid target => do
      let result ← Script.lift (restoreToTxid store target)
      writeFile result.image
  | .timestamp milliseconds => do
      let result ← Script.lift (restoreToTimestamp store milliseconds)
      writeFile result.image
  | .incremental => do
      let _ ← catchUp store disk
      return ()

inductive CommandAction where
  /-- Growth of the replica. -/
  | replica (store : Store)
  | restore (form : RestoreForm)

def Copy.command (copy : Copy) : CommandAction → Option Copy
  | .replica store => some { copy with store := store }
  | .restore form =>
      some { copy with
        disk := copy.disk.run (restoreCmd copy.store copy.disk form).ops }

/-- An output path that does not exist yet. -/
def freshDisk : Disk where
  file := none
  durable := none
  pending := []
  marker := none

/-- The replica stays consistent. -/
def History.admits (history : History) (_ : Copy) : CommandAction → Prop
  | .replica store => history.Replica store
  | .restore _ => True

/-! ## A stale marker -/

/-- Two versions of a one-page database. -/
def rewritten : History :=
  History.filled 512 History.sector_pos (fun txid => min txid 1)
    History.single_empty fun txid _ => txid.toUInt8

instance (txid pgno : Nat) : Decidable (rewritten.written txid pgno) :=
  inferInstanceAs (Decidable (_ ∨ _))

def rewrittenStore : Store :=
  ((∅ : Store).insert ⟨0, 1, 1⟩
    (rewritten.file 1 1 0 rfl History.range_one)).insert ⟨0, 2, 2⟩
      (rewritten.file 2 2 0 rfl History.range_two)

theorem rewrittenStore_replica : rewritten.Replica rewrittenStore where
  faithful := by
    apply History.FaithfulStore.insert
    · apply History.faithfulStore_empty.insert
      exact History.faithful_file rewritten rfl History.range_one
    · exact History.faithful_file rewritten rfl History.range_two
  covers := covers_of_greedyCover (by decide +kernel)

/-- The copy after a command. -/
def Copy.after (copy : Copy) (form : RestoreForm) : Copy where
  store := copy.store
  disk := copy.disk.run (restoreCmd copy.store copy.disk form).ops

/-- A plain restore followed by `--txid 1`. -/
def staleCopy : Copy :=
  (Copy.after { store := rewrittenStore, disk := freshDisk } .plain).after
    (.txid 1)

/-- The marker of the plain restore survives `--txid 1`, and the incremental
restore believes it. -/
theorem incremental_after_txid :
    rewritten.Replica rewrittenStore ∧
    Machine.Reaches Copy.command rewritten.admits
      { store := rewrittenStore, disk := freshDisk } staleCopy ∧
    (catchUp staleCopy.store staleCopy.disk).result = .ok (.upToDate 2) ∧
    (staleCopy.disk.run
      (restoreCmd staleCopy.store staleCopy.disk .incremental).ops).file =
        some (rewritten.image 1) ∧
    (freshDisk.run (restoreToPath staleCopy.store).ops).file =
      some (rewritten.image 2) ∧
    rewritten.image 1 ≠ rewritten.image 2 := by
  have plain : Copy.command { store := rewrittenStore, disk := freshDisk }
      (.restore .plain) =
      some (Copy.after { store := rewrittenStore, disk := freshDisk }
        .plain) := rfl
  have earlier : Copy.command
      (Copy.after { store := rewrittenStore, disk := freshDisk } .plain)
      (.restore (.txid 1)) = some staleCopy := rfl
  refine ⟨rewrittenStore_replica,
    .tail (.tail .refl (by exact trivial) plain) (by exact trivial) earlier,
    ?_, ?_, ?_, ?_⟩
  · decide +kernel
  · decide +kernel
  · decide +kernel
  · decide +kernel

namespace History

variable {history : History}

/-! ## Keeping apart from the marker -/

/-- A point-in-time restore up to `target` cannot be mistaken for the image that
the marker names: there is no plan, or no clean marker, or the image it reaches
has another length than the marker records, or it is the image of the
marker. -/
def PointApart (history : History) (copy : Copy) (target : Nat) : Prop :=
  ∀ plan last, planRestoreTo (listAllLtx copy.store) target = .ok plan →
    plan.getLast? = some last →
    ∀ txid pageSize commit fileLen,
      copy.disk.marker = some (.clean txid pageSize commit fileLen) →
      (history.image last.maxTxid).length = fileLen →
      history.image last.maxTxid = history.image txid ∧
        ∀ left right, left ≤ right → right ≤ last.maxTxid →
          history.LockSafe left right

/-- Every point-in-time restore keeps apart from the marker. -/
def keepsApart (history : History) (copy : Copy) : CommandAction → Prop
  | .replica store => history.Replica store
  | .restore (.txid target) => history.PointApart copy target
  | .restore (.timestamp milliseconds) =>
      ∀ target, timestampTarget copy.store milliseconds
          (listAllLtx copy.store) 0 = .ok target →
        history.PointApart copy target
  | .restore _ => True

/-! ## Runs of commands -/

/-- The replica is consistent and the marker is believable. -/
def CommandOk (history : History) (copy : Copy) : Prop :=
  history.Replica copy.store ∧ history.Believable copy.disk

theorem CommandOk.written {copy : Copy} {contents : Bytes}
    (ok : history.CommandOk copy)
    (apart : ∀ txid pageSize commit fileLen,
      copy.disk.marker = some (.clean txid pageSize commit fileLen) →
      contents.length = fileLen → contents = history.image txid) :
    history.Believable (copy.disk.run (writeFile contents).ops) := by
  intro txid pageSize commit fileLen marked
  have written : (copy.disk.run (Literstream.writeFile contents).ops).file =
      some contents := by
    have whole : PagedFile.writeAt 0 contents [] = contents := by
      simp [PagedFile.writeAt]
    change some (PagedFile.writeAt 0 contents []) = some contents
    rw [whole]
  refine ⟨(ok.2 txid pageSize commit fileLen marked).1, ?_⟩
  rw [written]
  intro sameLength
  rw [apart txid pageSize commit fileLen marked (by simpa using sameLength)]

/-- A point-in-time restore that keeps apart keeps the marker believable. -/
theorem CommandOk.pointInTime {copy : Copy} {target : Nat}
    (ok : history.CommandOk copy) (apart : history.PointApart copy target) :
    ∀ result, restoreToTxid copy.store target = .ok result →
      history.Believable
        (copy.disk.run (Literstream.writeFile result.image).ops) := by
  intro result done
  obtain ⟨plan, last, planned, isLast, _, length, exact_⟩ :=
    restoreToTxid_eq_ok ok.1.faithful done
  apply ok.written
  intro txid pageSize commit fileLen marked sameLength
  obtain ⟨sameImage, safe⟩ := apart plan last planned isLast txid pageSize
    commit fileLen marked (length.symm.trans sameLength)
  rw [exact_ safe, sameImage]

/-- A script of which only the successful runs are known to keep the marker,
and which does nothing when it fails early. -/
theorem believable_of_shielded {α : Type} {disk : Disk}
    {script : Script FileOp SyncError α} (believable : history.Believable disk)
    (shielded : Shielded script)
    (ensures : Ensures script disk fun final => history.Believable final) :
    history.Believable (disk.run script.ops) := by
  cases shielded with
  | idle ops => simpa [ops] using believable
  | failed ops unmarked =>
      rw [ops]
      exact (trusted_of_applying unmarked).believable
  | published ops unmarked done => exact ensures _ done

theorem CommandOk.step {copy next : Copy} {action : CommandAction}
    (ok : history.CommandOk copy) (allowed : history.keepsApart copy action)
    (stepped : copy.command action = some next) : history.CommandOk next := by
  cases action with
  | replica store =>
      cases stepped
      exact ⟨allowed, ok.2⟩
  | restore form =>
      cases stepped
      refine ⟨ok.1, ?_⟩
      cases form with
      | plain =>
          apply believable_of_shielded ok.2
            ((shielded_restoreToPath copy.store).map fun _ => ())
          refine ((ok.1.restoreToPath copy.disk).map _).weaken ?_
          intro final same
          rw [same]
          exact (trusted_restored _).believable
      | incremental =>
          apply believable_of_shielded ok.2
            ((shielded_catchUp copy.store copy.disk).map fun _ => ())
          refine ((ok.1.catchUp ok.2).map _).weaken ?_
          rintro final (same | ⟨same, _⟩)
          · rw [same]
            exact (trusted_restored _).believable
          · rw [same]
            exact ok.2
      | txid target =>
          simp only [restoreCmd]
          cases restored : restoreToTxid copy.store target with
          | error error => exact ok.2
          | ok result => exact ok.pointInTime allowed result restored
      | timestamp milliseconds =>
          simp only [restoreCmd]
          cases restored : restoreToTimestamp copy.store milliseconds with
          | error error => exact ok.2
          | ok result =>
              rw [restoreToTimestamp, bind_eq_ok] at restored
              obtain ⟨target, found, restored⟩ := restored
              split at restored
              · cases restored
              · exact ok.pointInTime (allowed target found) result restored

/-- As long as every point-in-time restore keeps apart from the marker, a
successful incremental restore leaves the image at the highest TXID, which is
what a fresh full restore gives. -/
theorem incremental_restores_latest {start copy : Copy}
    (replica : history.Replica start.store)
    (unmarked : start.disk.marker = none)
    (run : Machine.Reaches Copy.command history.keepsApart start copy) :
    ∀ outcome, (catchUp copy.store copy.disk).result = .ok outcome →
      (copy.disk.run (restoreCmd copy.store copy.disk .incremental).ops).file =
        some (history.image (headTxid (listAllLtx copy.store))) ∧
      ∀ reached, (restoreToPath copy.store).result = .ok reached →
        (copy.disk.run
          (restoreCmd copy.store copy.disk .incremental).ops).file =
        (freshDisk.run (restoreToPath copy.store).ops).file := by
  have initial : history.CommandOk start := by
    refine ⟨replica, ?_⟩
    intro txid pageSize commit fileLen marked
    rw [unmarked] at marked
    cases marked
  have ok : history.CommandOk copy :=
    run.invariant initial fun _ _ _ ok allowed stepped =>
      ok.step allowed stepped
  intro outcome done
  have ops : (restoreCmd copy.store copy.disk .incremental).ops =
      (catchUp copy.store copy.disk).ops := by
    rw [restoreCmd, Script.bind_of_ok done, Script.ops_pure, List.append_nil]
  have latest : (copy.disk.run (catchUp copy.store copy.disk).ops).file =
      some (history.image (headTxid (listAllLtx copy.store))) := by
    rcases ok.1.catchUp ok.2 outcome done with same | ⟨same, present, _⟩
    · rw [same]
      rfl
    · rw [same, present]
  rw [ops]
  refine ⟨latest, ?_⟩
  intro reached fresh
  rw [latest, ok.1.restoreToPath freshDisk reached fresh]
  rfl

/-- Restores of the shrinking database: the image at TXID 2 is longer than the
marked one. -/
def plainCopy : Copy :=
  Copy.after { store := shrinkingStore, disk := freshDisk } .plain

theorem plainCopy_apart : shrinking.PointApart plainCopy 2 := by
  intro plan last planned isLast txid pageSize commit fileLen marked sameLength
  have onlyPlan : planRestoreTo (listAllLtx plainCopy.store) 2 =
      .ok [⟨1, 1, 2⟩] := by decide +kernel
  have onlyMarker : plainCopy.disk.marker = some (.clean 4 512 2 1024) := by
    decide +kernel
  rw [onlyPlan] at planned
  cases planned
  cases isLast
  rw [onlyMarker] at marked
  cases marked
  rw [shrinking.length_image] at sameLength
  exact absurd sameLength (by decide)

theorem incremental_restores_latest_apart :
    ((plainCopy.after (.txid 2)).disk.run
        (restoreCmd (plainCopy.after (.txid 2)).store
          (plainCopy.after (.txid 2)).disk .incremental).ops).file =
      some (shrinking.image
        (headTxid (listAllLtx (plainCopy.after (.txid 2)).store))) := by
  have plain : Copy.command { store := shrinkingStore, disk := freshDisk }
      (.restore .plain) = some plainCopy := rfl
  have earlier : Copy.command plainCopy (.restore (.txid 2)) =
      some (plainCopy.after (.txid 2)) := rfl
  have succeeds : (catchUp (plainCopy.after (.txid 2)).store
      (plainCopy.after (.txid 2)).disk).result.toOption.isSome = true := by
    decide +kernel
  cases caught : (catchUp (plainCopy.after (.txid 2)).store
      (plainCopy.after (.txid 2)).disk).result with
  | error error =>
      rw [caught] at succeeds
      cases succeeds
  | ok outcome =>
      exact (incremental_restores_latest shrinkingStore_replica rfl
        (.tail (.tail .refl (by exact trivial) plain)
          (by exact plainCopy_apart) earlier) outcome caught).1

end History

end Literstream
