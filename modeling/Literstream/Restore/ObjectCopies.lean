import Literstream.Restore.Agreement
import Literstream.Restore.CatchUp
import Literstream.Restore.Objects

/-!
# Local copies restored from objects

The restores that write a file, as they read the bytes that the store holds: one
page at a time through the index of each object.  On objects that encode files
they perform the operations that the restores from files perform.
-/

namespace Literstream

open PagedFile

namespace Objects

section Apply

variable {σ : Type} [PageSet σ]

/-- `forEachIndexedPage` with the writer of a newest-first apply. -/
def applyEntries (lz4 : Wire.Lz4) (bytes : Bytes) (pageSize commit : Nat) :
    List Wire.PageIndexElem → σ → Script FileOp ObjectError σ
  | [], written => pure written
  | elem :: rest, written => do
      let page ← Script.lift (liftWire
        (Wire.decodeEntry lz4 bytes pageSize elem))
      if 1 ≤ page.1.pgno.toNat ∧ page.1.pgno.toNat ≤ commit then
        if (PageSet.claim page.1.pgno.toNat written).1 then do
          Script.emit (writePage pageSize (page.1.pgno.toNat, page.2))
          applyEntries lz4 bytes pageSize commit rest
            (PageSet.claim page.1.pgno.toNat written).2
        else
          applyEntries lz4 bytes pageSize commit rest
            (PageSet.claim page.1.pgno.toNat written).2
      else applyEntries lz4 bytes pageSize commit rest written

/-- Walk the objects, given newest first. -/
def applyNewestFirst (lz4 : Wire.Lz4) (store : ObjectMap)
    (pageSize commit : Nat) :
    List FileKey → σ → Script FileOp ObjectError σ
  | [], written => pure written
  | key :: older, written => do
      let bytes ← Script.lift (liftSync (getLtx store key))
      let index ← Script.lift (liftWire (Wire.pageIndex bytes))
      let next ← applyEntries lz4 bytes pageSize commit index written
      applyNewestFirst lz4 store pageSize commit older next

end Apply

def applyPlanToPath (lz4 : Wire.Lz4) (store : ObjectMap)
    (plan : List FileKey) : Script FileOp ObjectError Nat :=
  match plan.getLast? with
  | none => Script.lift (.error (.sync .noSnapshot))
  | some newest => do
      let head ← Script.lift (getHeader store newest)
      let pageSize := head.pageSize.toNat
      let commit := head.commit.toNat
      let fileLen := commit * pageSize
      Script.emit (.mark (.applying 0 newest.maxTxid))
      Script.emit (.mutate .create)
      Script.emit (.mutate (.setLen fileLen))
      let written :=
        PageSet.claim (lockPgno pageSize) (DenseSet.empty (commit + 1))
      let _ ← applyNewestFirst lz4 store pageSize commit plan.reverse written.2
      Script.emit .syncAll
      Script.emit (.mark (.clean newest.maxTxid pageSize commit fileLen))
      return newest.maxTxid

def restoreToPath (lz4 : Wire.Lz4) (store : ObjectMap) :
    Script FileOp ObjectError Nat := do
  let plan ← Script.lift (liftSync (planRestore (listAllLtx store)))
  applyPlanToPath lz4 store plan

/-- The loop of `deltaShape`; page size 0 means that no header was seen yet. -/
def deltaShapeLoop (store : ObjectMap) :
    List FileKey → DeltaShape → Except ObjectError DeltaShape
  | [], shape => .ok shape
  | key :: rest, shape => do
      let header ← getHeader store key
      let pageSize := header.pageSize.toNat
      let commit := header.commit.toNat
      if shape.pageSize ≠ 0 ∧ pageSize ≠ shape.pageSize then
        .error (.sync (.ltx (.invalidPageSize pageSize)))
      else
        deltaShapeLoop store rest
          { pageSize := pageSize
            finalCommit := commit
            minCommit :=
              if shape.pageSize = 0 then commit
              else min shape.minCommit commit }

def deltaShape (store : ObjectMap) (plan : List FileKey) :
    Except ObjectError DeltaShape :=
  deltaShapeLoop store plan
    { pageSize := 0, finalCommit := 0, minCommit := 0 }

def applyDeltaToPath (lz4 : Wire.Lz4) (store : ObjectMap)
    (plan : List FileKey) (fromTxid : Nat) (shape : DeltaShape) :
    Script FileOp ObjectError Nat :=
  match plan.getLast? with
  | none => pure fromTxid
  | some newest => do
      let fileLen := shape.finalCommit * shape.pageSize
      Script.emit (.mark (.applying fromTxid newest.maxTxid))
      Script.emit (.mutate (.setLen (shape.minCommit * shape.pageSize)))
      Script.emit (.mutate (.setLen fileLen))
      let written := PageSet.claim (lockPgno shape.pageSize) (SparseSet.mk [])
      let _ ← applyNewestFirst lz4 store shape.pageSize shape.finalCommit
        plan.reverse written.2
      Script.emit .syncAll
      Script.emit (.mark
        (.clean newest.maxTxid shape.pageSize shape.finalCommit fileLen))
      return newest.maxTxid

def restoreIncremental (lz4 : Wire.Lz4) (store : ObjectMap) (disk : Disk)
    (fromTxid : Nat) : Script FileOp ObjectError Nat := do
  let plan ← Script.lift (liftSync
    (planRestoreFrom (listAllLtx store) fromTxid))
  if plan = [] then return fromTxid
  else do
    let shape ← Script.lift (deltaShape store plan)
    match disk.file.bind localPageSize with
    | none => Script.lift (.error (.sync (.ltx (.invalidPageSize 0))))
    | some localSize =>
        if localSize ≠ shape.pageSize then
          Script.lift (.error (.sync (.ltx (.invalidPageSize shape.pageSize))))
        else applyDeltaToPath lz4 store plan fromTxid shape

def fullRestore (lz4 : Wire.Lz4) (store : ObjectMap)
    (reason : FallbackReason) : Script FileOp ObjectError CatchUp := do
  let reached ← restoreToPath lz4 store
  return .fullRestore reached reason

def catchUp (lz4 : Wire.Lz4) (store : ObjectMap) (disk : Disk) :
    Script FileOp ObjectError CatchUp :=
  match disk.marker with
  | none => fullRestore lz4 store .noMarker
  | some (.applying _ _) => fullRestore lz4 store .dirtyMarker
  | some (.clean txid pageSize _ fileLen) =>
      if disk.file.map List.length ≠ some fileLen then
        fullRestore lz4 store .lengthMismatch
      else if txid > headTxid (listAllLtx store) then
        fullRestore lz4 store .localAhead
      else if txid = headTxid (listAllLtx store) then
        return .upToDate txid
      else
        match planRestoreFrom (listAllLtx store) txid with
        | .error (.chainGap _) => fullRestore lz4 store .chainGap
        | .error error => Script.lift (.error (.sync error))
        | .ok plan =>
            if plan = [] then return .upToDate txid
            else do
              let shape ← Script.lift (deltaShape store plan)
              if shape.pageSize ≠ pageSize ∨
                  disk.file.bind localPageSize ≠ some pageSize then
                fullRestore lz4 store .pageSizeChanged
              else do
                let reached ← applyDeltaToPath lz4 store plan txid shape
                return .incremental txid reached plan.length

end Objects

/-! ## The same operations -/

theorem liftSync_eq_mapError {α : Type} (result : Except SyncError α) :
    Objects.liftSync result = result.mapError ObjectError.sync := by
  cases result <;> rfl

section Holds

variable {lz4 : Wire.Lz4} {pageSize : Nat} {objects : ObjectMap}
  {store : Store}

theorem applyEntries_eq {σ : Type} [PageSet σ] {commit : Nat} {bytes : Bytes}
    {index : List Wire.PageIndexElem} {pages : List Wire.WirePage}
    (entries : List.Forall₂ (Wire.Leads lz4 pageSize bytes) index pages)
    (written : σ) :
    Objects.applyEntries lz4 bytes pageSize commit index written =
      (applyPages pageSize commit (pages.map Wire.plainPage)
        written).mapError ObjectError.sync := by
  induction entries generalizing written with
  | nil => rfl
  | @cons elem page index pages leads _ ih =>
      obtain ⟨flags, decoded⟩ := leads.decoded
      have whole : decodePageFrame page.2 pageSize = .ok page.2 :=
        decodePageFrame_of_length leads.length
      rw [Objects.applyEntries, decoded, List.map_cons, Wire.plainPage,
        applyPages, whole]
      change (if 1 ≤ page.1.toNat ∧ page.1.toNat ≤ commit then _ else _) =
        (if 1 ≤ page.1.toNat ∧ page.1.toNat ≤ commit then _ else _ :
          Script FileOp SyncError σ).mapError ObjectError.sync
      split
      · split
        · rw [Script.mapError_bind]
          congr 1
          funext _
          exact ih _
        · exact ih _
      · exact ih _

theorem HoldsFiles.applyNewestFirst {σ : Type} [PageSet σ] {commit : Nat}
    (givesBack : lz4.GivesBack)
    (holds : HoldsFiles lz4 pageSize objects store) (plan : List FileKey)
    (written : σ) :
    Objects.applyNewestFirst lz4 objects pageSize commit plan written =
      (applyNewestFirst store pageSize commit plan written).mapError
        ObjectError.sync := by
  induction plan generalizing written with
  | nil => rfl
  | cons key older ih =>
      rw [Objects.applyNewestFirst, Literstream.applyNewestFirst]
      rcases holds.getLtx key with ⟨own, model⟩ |
        ⟨bytes, file, own, model, ⟨encodes, sized⟩⟩
      · rw [own, model]
        rfl
      · obtain ⟨header, pages, reads⟩ := encodes.reads givesBack
        obtain ⟨index, indexed, entries⟩ := reads.indexed.entries
        have same : header.pageSize.toNat = pageSize := by
          rw [← sized, reads.headerIs]
          rfl
        rw [same] at entries
        rw [own, model, Objects.liftSync_ok, Script.lift_ok_bind,
          Script.lift_ok_bind, indexed, Objects.liftWire_ok,
          Script.lift_ok_bind, applyEntries_eq entries, Script.mapError_bind,
          reads.pagesAre]
        congr 1
        funext next
        exact ih next

theorem HoldsFiles.applyPlanToPath (givesBack : lz4.GivesBack)
    (holds : HoldsFiles lz4 pageSize objects store) (plan : List FileKey) :
    Objects.applyPlanToPath lz4 objects plan =
      (applyPlanToPath store plan).mapError ObjectError.sync := by
  unfold Objects.applyPlanToPath Literstream.applyPlanToPath
  cases plan.getLast? with
  | none => rfl
  | some newest =>
      dsimp only
      rcases holds.getHeader newest with ⟨own, model⟩ |
        ⟨header, file, own, model, headerIs, sized⟩
      · rw [own, model]
        rfl
      · have same : header.pageSize.toNat = pageSize := by
          rw [← sized, headerIs]
          rfl
        have commit : file.header.commit = header.commit.toNat := by
          rw [headerIs]
          rfl
        rw [own, model, Script.lift_ok_bind, Script.lift_ok_bind, same, sized,
          commit]
        simp only [Script.mapError_bind, Script.mapError_emit,
          Script.mapError_pure]
        rw [holds.applyNewestFirst givesBack]

theorem HoldsFiles.restoreToPath (givesBack : lz4.GivesBack)
    (holds : HoldsFiles lz4 pageSize objects store) :
    Objects.restoreToPath lz4 objects =
      (restoreToPath store).mapError ObjectError.sync := by
  rw [Objects.restoreToPath, Literstream.restoreToPath, holds.list_eq,
    Script.mapError_bind, Script.mapError_lift, liftSync_eq_mapError]
  congr 1
  funext plan
  exact holds.applyPlanToPath givesBack plan

theorem HoldsFiles.deltaShapeLoop
    (holds : HoldsFiles lz4 pageSize objects store) (plan : List FileKey)
    (shape : DeltaShape) :
    Objects.deltaShapeLoop objects plan shape =
      (deltaShapeLoop store plan shape).mapError ObjectError.sync := by
  induction plan generalizing shape with
  | nil => rfl
  | cons key rest ih =>
      rw [Objects.deltaShapeLoop, Literstream.deltaShapeLoop]
      rcases holds.getHeader key with ⟨own, model⟩ |
        ⟨header, file, own, model, headerIs, _⟩
      · rw [own, model]
        rfl
      · have size : file.header.pageSize = header.pageSize.toNat := by
          rw [headerIs]
          rfl
        have commit : file.header.commit = header.commit.toNat := by
          rw [headerIs]
          rfl
        rw [own, model]
        change (if shape.pageSize ≠ 0 ∧
            header.pageSize.toNat ≠ shape.pageSize then _ else _) =
          Except.mapError _ (if shape.pageSize ≠ 0 ∧
            file.header.pageSize ≠ shape.pageSize then _ else _)
        rw [size, commit]
        split
        · rfl
        · exact ih _

/-- A scan of some files finds their page size. -/
theorem HoldsFiles.deltaShape_pageSize
    (holds : HoldsFiles lz4 pageSize objects store) {plan : List FileKey}
    {shape found : DeltaShape} (seen : plan ≠ [] ∨ shape.pageSize = pageSize)
    (scanned : Literstream.deltaShapeLoop store plan shape = .ok found) :
    found.pageSize = pageSize := by
  induction plan generalizing shape with
  | nil =>
      cases scanned
      exact seen.resolve_left fun some_ => some_ rfl
  | cons key rest ih =>
      rw [Literstream.deltaShapeLoop] at scanned
      rcases holds.getLtx key with ⟨_, model⟩ |
        ⟨bytes, file, _, model, ⟨_, sized⟩⟩
      · rw [model] at scanned
        cases scanned
      · rw [model] at scanned
        change (if _ then _ else _) = _ at scanned
        split at scanned
        · cases scanned
        · exact ih (.inr sized) scanned

theorem HoldsFiles.applyDeltaToPath (givesBack : lz4.GivesBack)
    (holds : HoldsFiles lz4 pageSize objects store) (plan : List FileKey)
    (fromTxid : Nat) {shape : DeltaShape} (sized : shape.pageSize = pageSize) :
    Objects.applyDeltaToPath lz4 objects plan fromTxid shape =
      (applyDeltaToPath store plan fromTxid shape).mapError
        ObjectError.sync := by
  unfold Objects.applyDeltaToPath Literstream.applyDeltaToPath
  cases plan.getLast? with
  | none => rfl
  | some newest =>
      simp only [Script.mapError_bind, Script.mapError_emit,
        Script.mapError_pure]
      rw [sized, holds.applyNewestFirst givesBack]

/-- Scan the headers of a delta and go on. -/
theorem HoldsFiles.scan_bind {α : Type}
    (holds : HoldsFiles lz4 pageSize objects store) {plan : List FileKey}
    (nonempty : plan ≠ []) {own : DeltaShape → Script FileOp ObjectError α}
    {model : DeltaShape → Script FileOp SyncError α}
    (next : ∀ shape, shape.pageSize = pageSize →
      own shape = (model shape).mapError ObjectError.sync) :
    Script.lift (Objects.deltaShape objects plan) >>= own =
      (Script.lift (deltaShape store plan) >>= model).mapError
        ObjectError.sync := by
  rw [Script.mapError_bind, Script.mapError_lift, Objects.deltaShape,
    holds.deltaShapeLoop]
  change Script.lift ((deltaShape store plan).mapError _) >>= _ = _
  cases scanned : deltaShape store plan with
  | error error => rfl
  | ok shape => exact next shape (holds.deltaShape_pageSize (.inl nonempty) scanned)

theorem HoldsFiles.restoreIncremental (givesBack : lz4.GivesBack)
    (holds : HoldsFiles lz4 pageSize objects store) (disk : Disk)
    (fromTxid : Nat) :
    Objects.restoreIncremental lz4 objects disk fromTxid =
      (restoreIncremental store disk fromTxid).mapError ObjectError.sync := by
  rw [Objects.restoreIncremental, Literstream.restoreIncremental,
    holds.list_eq, Script.mapError_bind, Script.mapError_lift,
    liftSync_eq_mapError]
  congr 1
  funext plan
  split
  · rfl
  · rename_i nonempty
    apply holds.scan_bind nonempty
    intro shape sized
    cases disk.file.bind localPageSize with
    | none => rfl
    | some localSize =>
        dsimp only
        split
        · rfl
        · exact holds.applyDeltaToPath givesBack plan fromTxid sized

theorem HoldsFiles.fullRestore (givesBack : lz4.GivesBack)
    (holds : HoldsFiles lz4 pageSize objects store)
    (reason : FallbackReason) :
    Objects.fullRestore lz4 objects reason =
      (fullRestore store reason).mapError ObjectError.sync := by
  rw [Objects.fullRestore, Literstream.fullRestore, Script.mapError_bind,
    holds.restoreToPath givesBack]
  rfl

theorem HoldsFiles.catchUp (givesBack : lz4.GivesBack)
    (holds : HoldsFiles lz4 pageSize objects store) (disk : Disk) :
    Objects.catchUp lz4 objects disk =
      (catchUp store disk).mapError ObjectError.sync := by
  unfold Objects.catchUp Literstream.catchUp
  rw [holds.list_eq]
  have rebuilt := holds.fullRestore givesBack
  cases disk.marker with
  | none => exact rebuilt _
  | some marker =>
      cases marker with
      | applying from_ to_ => exact rebuilt _
      | clean txid size commit fileLen =>
          dsimp only
          split
          · exact rebuilt _
          · split
            · exact rebuilt _
            · split
              · rfl
              · cases planRestoreFrom (listAllLtx store) txid with
                | error error =>
                    cases error with
                    | chainGap from_ => exact rebuilt _
                    | _ => rfl
                | ok plan =>
                    dsimp only
                    split
                    · rfl
                    · rename_i nonempty
                      apply holds.scan_bind nonempty
                      intro shape sized
                      split
                      · exact rebuilt _
                      · rw [Script.mapError_bind,
                          holds.applyDeltaToPath givesBack plan txid sized]
                        rfl

end Holds

/-! ## Calls that are not stopped succeed -/

theorem planRestoreFrom_error {files : List FileKey} {fromTxid : Nat}
    {error : SyncError} (failed : planRestoreFrom files fromTxid =
      .error error) : error = .chainGap fromTxid := by
  unfold planRestoreFrom at failed
  split at failed
  · cases failed
  · split at failed
    · cases failed
      rfl
    · cases failed

namespace History

variable {history : History}

theorem Replica.fullRestore_total {store : Store} {plan : List FileKey}
    (reason : FallbackReason)
    (oneSize : ∀ left right, history.pageSize left = history.pageSize right)
    (replica : history.Replica store)
    (planned : planRestore (listAllLtx store) = .ok plan) :
    (∃ reached, (Literstream.restoreToPath store).result = .ok reached) ∧
      ∃ outcome, (Literstream.fullRestore store reason).result =
        .ok outcome := by
  have nonempty := planRestore_ne_nil planned
  obtain ⟨cover, _⟩ := planRestore_eq_ok planned
  have listed := greedyCover_subset (listAllLtx store) 0
  rw [← cover] at listed
  obtain ⟨files, keys, loaded, faithful⟩ :=
    exists_planned replica.faithful listed
  subst keys
  obtain ⟨reached, applied⟩ := applyPlanToPath_total loaded
    (fun empty => nonempty (by rw [empty]; rfl))
    (fun file member => (faithful file member).pageSize.trans (oneSize _ 0))
  have done : (Literstream.restoreToPath store).result = .ok reached := by
    rw [Literstream.restoreToPath, planned]
    exact applied
  refine ⟨⟨reached, done⟩, .fullRestore reached reason, ?_⟩
  rw [Literstream.fullRestore, Script.bind_of_ok done]
  rfl

/-- A `catchUp` that is not stopped succeeds, whatever the marker says. -/
theorem Replica.catchUp_total {store : Store} {disk : Disk}
    {plan : List FileKey}
    (oneSize : ∀ left right, history.pageSize left = history.pageSize right)
    (replica : history.Replica store) (trusted : history.Trusted disk)
    (planned : planRestore (listAllLtx store) = .ok plan) :
    ∃ outcome, (Literstream.catchUp store disk).result = .ok outcome := by
  have rebuilt : ∀ reason, ∃ outcome,
      (Literstream.fullRestore store reason).result = .ok outcome :=
    fun reason => (replica.fullRestore_total reason oneSize planned).2
  unfold Literstream.catchUp
  split
  · exact rebuilt _
  · exact rebuilt _
  · rename_i txid pageSize commit fileLen marked
    have present := trusted txid pageSize commit fileLen marked
    split
    · exact rebuilt _
    · split
      · exact rebuilt _
      · split
        · exact ⟨_, rfl⟩
        · have behind : txid < headTxid (listAllLtx store) := by omega
          split
          · exact rebuilt _
          · rename_i error notGap failed
            exact absurd (planRestoreFrom_error failed) (notGap txid)
          · rename_i delta deltaPlanned
            split
            · exact ⟨_, rfl⟩
            · rename_i nonempty
              obtain ⟨chain, listed⟩ :=
                planRestoreFrom_eq_ok behind deltaPlanned
              obtain ⟨files, keys, loaded, faithful⟩ :=
                exists_planned replica.faithful listed
              subst keys
              obtain ⟨shape, scanned⟩ := deltaShape_total loaded
                fun file member =>
                  (faithful file member).pageSize.trans (oneSize _ 0)
              rw [scanned, Script.lift_ok_bind]
              split
              · exact rebuilt _
              · have sized := replica.deltaShape_pageSize behind deltaPlanned
                  nonempty scanned
                obtain ⟨applied, _⟩ := applyDeltaToPath_image loaded faithful
                  chain (fun empty => nonempty (by rw [empty]; rfl)) scanned
                  (sized.trans (oneSize _ _)) (congrArg Disk.file present)
                rw [Script.bind_of_ok applied]
                exact ⟨_, rfl⟩

end History

/-! ## Runs -/

/-- A replica of objects and a local copy restored from it. -/
structure ObjectCopy where
  objects : Objects
  disk : Disk

inductive ObjectCopyAction where
  /-- Synchronisation, compaction and retention. -/
  | write (action : ObjectAction)
  | restoreToPath (ending : Ending)
  | catchUp (ending : Ending)
  /-- With the TXID that the marker records. -/
  | restoreIncremental (ending : Ending)

/-- Run one call on the local copy. -/
def ObjectCopy.call {α : Type} (copy : ObjectCopy) (ending : Ending)
    (script : Script FileOp ObjectError α) : Option ObjectCopy :=
  (ending.apply script.ops copy.disk).map fun disk =>
    { objects := copy.objects, disk := disk }

def ObjectCopy.step (lz4 : Wire.Lz4) (copy : ObjectCopy) :
    ObjectCopyAction → Option ObjectCopy
  | .write action =>
      (copy.objects.step lz4 action).map fun objects =>
        { objects := objects, disk := copy.disk }
  | .restoreToPath ending =>
      copy.call ending (Objects.restoreToPath lz4 copy.objects.store)
  | .catchUp ending =>
      copy.call ending (Objects.catchUp lz4 copy.objects.store copy.disk)
  | .restoreIncremental ending =>
      match copy.disk.marker with
      | some (.clean txid _ _ _) =>
          copy.call ending
            (Objects.restoreIncremental lz4 copy.objects.store copy.disk txid)
      | _ => none

/-- What is written follows the history. -/
def History.copiesObjects (history : History) (lz4 : Wire.Lz4)
    (copy : ObjectCopy) : ObjectCopyAction → Prop
  | .write action => history.cascadesObjects lz4 copy.objects action
  | _ => True

/-- The call succeeds and leaves the disk so. -/
def Completes {α : Type} (script : Script FileOp ObjectError α)
    (disk final : Disk) : Prop :=
  (∃ value, script.result = .ok value) ∧ disk.run script.ops = final

section Runs

variable {lz4 : Wire.Lz4} {history : History}

theorem ReplicaOk.replica {state : Levels} (ok : ReplicaOk history state) :
    history.Replica state.store ∧
      headTxid (listAllLtx state.store) = state.txid := by
  obtain ⟨anchor, ok⟩ := ok
  have head := ok.headTxid_eq ok.mem_listAllLtx
  refine ⟨⟨ok.faithful, ?_⟩, head⟩
  rw [head]
  exact ok.covers ok.mem_listAllLtx

/-- The objects encode the files of a run, and a clean marker describes the
local copy. -/
def ObjectCopyOk (history : History) (lz4 : Wire.Lz4) (copy : ObjectCopy) :
    Prop :=
  Represents history (fun _ => 0) lz4 (history.pageSize 0) copy.objects ∧
    history.Trusted copy.disk

theorem ObjectCopyOk.call {α : Type} {copy next : ObjectCopy}
    {ending : Ending} {script : Script FileOp ObjectError α}
    {model : Script FileOp SyncError α} (ok : ObjectCopyOk history lz4 copy)
    (same : script = model.mapError ObjectError.sync)
    (shielded : Shielded model) (restores : history.Restores model copy.disk)
    (stepped : copy.call ending script = some next) :
    ObjectCopyOk history lz4 next := by
  simp only [ObjectCopy.call, Option.map_eq_some_iff] at stepped
  obtain ⟨disk, ended, rfl⟩ := stepped
  rw [same] at ended
  exact ⟨ok.1, ok.2.ending shielded restores ended⟩

theorem ObjectCopyOk.step {copy next : ObjectCopy}
    {action : ObjectCopyAction} (givesBack : lz4.GivesBack)
    (oneSize : ∀ left right, history.pageSize left = history.pageSize right)
    (ok : ObjectCopyOk history lz4 copy)
    (allowed : history.copiesObjects lz4 copy action)
    (stepped : copy.step lz4 action = some next) :
    ObjectCopyOk history lz4 next := by
  obtain ⟨state, reached, carries⟩ := ok.1
  have levelsOk := ReplicaOk.of_reaches reached
  obtain ⟨replica, _⟩ := levelsOk.replica
  cases action with
  | write action =>
      simp only [ObjectCopy.step, Option.map_eq_some_iff] at stepped
      obtain ⟨objects, moved, rfl⟩ := stepped
      obtain ⟨other, final, guarded, modelled, still⟩ := objects_step givesBack
        (fun txid => oneSize txid 0) carries levelsOk allowed moved
      exact ⟨⟨final, reached.tail guarded modelled, still⟩, ok.2⟩
  | restoreToPath ending =>
      refine ok.call (carries.store.restoreToPath givesBack)
        (shielded_restoreToPath _) ?_ stepped
      exact (replica.restoreToPath copy.disk).weaken fun _ same => ⟨_, same⟩
  | catchUp ending =>
      refine ok.call (carries.store.catchUp givesBack copy.disk)
        (shielded_catchUp _ _) ?_ stepped
      exact (replica.catchUp_trusted ok.2).weaken fun _ same => ⟨_, same⟩
  | restoreIncremental ending =>
      simp only [ObjectCopy.step] at stepped
      split at stepped
      · rename_i txid pageSize commit fileLen marked
        have same := ok.2 txid pageSize commit fileLen marked
        refine ok.call
          (carries.store.restoreIncremental givesBack copy.disk txid)
          (shielded_restoreIncremental _ _ _) ?_ stepped
        rw [same]
        exact replica.restoreIncremental txid
      · cases stepped

/-- Whatever was written to the replica and wherever earlier restores of the
local copy were stopped or crashed, a clean marker describes the whole file,
and the next full restore or catch-up that is not stopped ends at the last
synced image. -/
theorem objects_copied {start copy : ObjectCopy} (givesBack : lz4.GivesBack)
    (oneSize : ∀ left right, history.pageSize left = history.pageSize right)
    (empty : start.objects = Objects.empty)
    (unmarked : start.disk.marker = none)
    (run : Machine.Reaches (ObjectCopy.step lz4) (history.copiesObjects lz4)
      start copy) :
    (∀ txid pageSize commit fileLen,
      copy.disk.marker = some (.clean txid pageSize commit fileLen) →
        copy.disk = history.restored txid) ∧
    (0 < copy.objects.txid →
      Completes (Objects.restoreToPath lz4 copy.objects.store) copy.disk
          (history.restored copy.objects.txid) ∧
        Completes (Objects.catchUp lz4 copy.objects.store copy.disk) copy.disk
          (history.restored copy.objects.txid)) := by
  have initial : ObjectCopyOk history lz4 start := by
    refine ⟨⟨_, .refl, ?_⟩, ?_⟩
    · rw [empty]
      exact carries_empty lz4 _
    · intro txid pageSize commit fileLen marked
      rw [unmarked] at marked
      cases marked
  obtain ⟨⟨state, reached, carries⟩, trusted⟩ := run.invariant initial
    fun _ _ _ ok allowed stepped => ok.step givesBack oneSize allowed stepped
  refine ⟨trusted, ?_⟩
  intro synced
  have levelsOk := ReplicaOk.of_reaches reached
  obtain ⟨replica, head⟩ := levelsOk.replica
  rw [carries.txid] at synced ⊢
  obtain ⟨_, restored, _⟩ := levelsOk.restores synced oneSize
  obtain ⟨plan, planned, _⟩ := bind_eq_ok.mp restored
  obtain ⟨reached, full⟩ :=
    (replica.fullRestore_total .noMarker oneSize planned).1
  obtain ⟨outcome, caught⟩ := replica.catchUp_total oneSize trusted planned
  rw [carries.store.restoreToPath givesBack,
    carries.store.catchUp givesBack copy.disk, ← head]
  exact ⟨⟨⟨reached, Script.mapError_result_eq_ok.mpr full⟩,
      replica.restoreToPath copy.disk reached full⟩,
    ⟨outcome, Script.mapError_result_eq_ok.mpr caught⟩,
    replica.catchUp_trusted trusted outcome caught⟩

end Runs

/-! ## A sample run -/

/-- The copy after a `catchUp` that crashed and kept no pending change. -/
def ObjectCopy.torn (copy : ObjectCopy) (count : Nat) : ObjectCopy where
  objects := copy.objects
  disk := (copy.disk.run (interrupted (Objects.catchUp Wire.storedLz4
    copy.objects.store copy.disk).ops count none)).crash []

def ObjectCopy.after (copy : ObjectCopy) (action : ObjectAction) :
    ObjectCopy where
  objects := copy.objects.after action
  disk := copy.disk

def uncopied : ObjectCopy where
  objects := Objects.empty
  disk := ⟨none, none, [], none⟩

/-- A step is synchronised, a `catchUp` crashes once the file has its size,
another step is synchronised. -/
def tornObjects : ObjectCopy :=
  ((uncopied.after ⟨[], .sync 0 (hotBytes 1 History.range_one)⟩).torn 3).after
    ⟨[], .sync 0 (hotBytes 2 History.range_two)⟩

section Sample

variable {start copy : ObjectCopy}

theorem reaches_write {action : ObjectAction}
    (reached : Machine.Reaches (ObjectCopy.step Wire.storedLz4)
      (hotPage.copiesObjects Wire.storedLz4) start copy)
    (allowed : hotPage.cascadesObjects Wire.storedLz4 copy.objects action) :
    Machine.Reaches (ObjectCopy.step Wire.storedLz4)
      (hotPage.copiesObjects Wire.storedLz4) start (copy.after action) := by
  have written : hotPage.copiesObjects Wire.storedLz4 copy (.write action) :=
    allowed
  exact reached.tail written rfl

theorem reaches_torn (count : Nat)
    (reached : Machine.Reaches (ObjectCopy.step Wire.storedLz4)
      (hotPage.copiesObjects Wire.storedLz4) start copy) :
    Machine.Reaches (ObjectCopy.step Wire.storedLz4)
      (hotPage.copiesObjects Wire.storedLz4) start (copy.torn count) := by
  have crashed : copy.step Wire.storedLz4 (.catchUp (.crashed count none [])) =
      some (copy.torn count) := by
    simp only [ObjectCopy.step, ObjectCopy.call, Ending.apply,
      if_pos List.nil_subperm]
    rfl
  have allowed : hotPage.copiesObjects Wire.storedLz4 copy
      (.catchUp (.crashed count none [])) := trivial
  exact reached.tail allowed crashed

end Sample

theorem tornObjects_reached :
    Machine.Reaches (ObjectCopy.step Wire.storedLz4)
      (hotPage.copiesObjects Wire.storedLz4) uncopied tornObjects := by
  have second : ((uncopied.after
      ⟨[], .sync 0 (hotBytes 1 History.range_one)⟩).torn 3).objects.txid + 1 =
        2 := by
    decide +kernel
  exact reaches_write (reaches_torn 3
    (reaches_write .refl (syncs_allowed rfl hotBytes_one)))
    (syncs_allowed second hotBytes_two)

theorem objects_copied_torn :
    (∀ txid pageSize commit fileLen,
      tornObjects.disk.marker = some (.clean txid pageSize commit fileLen) →
        tornObjects.disk = hotPage.restored txid) ∧
    Completes (Objects.restoreToPath Wire.storedLz4
        tornObjects.objects.store) tornObjects.disk
      (hotPage.restored tornObjects.objects.txid) ∧
    Completes (Objects.catchUp Wire.storedLz4 tornObjects.objects.store
        tornObjects.disk) tornObjects.disk
      (hotPage.restored tornObjects.objects.txid) := by
  obtain ⟨trusted, completes⟩ := objects_copied Wire.storedLz4_givesBack
    (fun _ _ => rfl) rfl rfl tornObjects_reached
  exact ⟨trusted, completes (by decide +kernel)⟩

end Literstream
