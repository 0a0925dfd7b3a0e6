import Literstream.Lib.Performing
import Literstream.Restore.Browsing
import Literstream.Restore.CatchUp

/-!
# Local copies request by request

`restoreToPath`, `restoreIncremental` and `catchUp` as programs whose requests
are answered one by one.  Against a frozen replica they perform what the calls
perform there, up to the first request that fails.
-/

namespace Literstream

open Asking.Performer

/-- A program that reads the replica and performs file operations. -/
abbrev Copier (α : Type) :=
  Asking.Performer Query Query.Reply FileOp SyncError α

namespace Copier

/-- A GET of a file, or of its header. -/
def getting (key : FileKey) : Copier LtxFile :=
  (fetching key).andThen fun got => .returns (Script.lift got)

def performing {α : Type} (script : Script FileOp SyncError α) : Copier α :=
  .returns script

def emitting (op : FileOp) : Copier Unit := performing (Script.emit op)

/-- `applyNewestFirst` file by file. -/
def applyingNewestFirst {σ : Type} [PageSet σ] (pageSize commit : Nat) :
    List FileKey → σ → Copier σ
  | [], written => performing (pure written)
  | key :: older, written =>
      (getting key).chain fun file =>
        (performing (applyPages pageSize commit file.pages written)).chain
          fun next => applyingNewestFirst pageSize commit older next

/-- `applyPlanToPath` request by request. -/
def applyingPlan (plan : List FileKey) : Copier Nat :=
  match plan.getLast? with
  | none => performing (Script.lift (.error .noSnapshot))
  | some newest =>
      (getting newest).chain fun head =>
        let pageSize := head.header.pageSize
        let commit := head.header.commit
        let fileLen := commit * pageSize
        (emitting (.mark (.applying 0 newest.maxTxid))).chain fun _ =>
        (emitting (.mutate .create)).chain fun _ =>
        (emitting (.mutate (.setLen fileLen))).chain fun _ =>
        let written :=
          PageSet.claim (lockPgno pageSize) (DenseSet.empty (commit + 1))
        (applyingNewestFirst pageSize commit plan.reverse written.2).chain
          fun _ =>
        (emitting .syncAll).chain fun _ =>
        (emitting
          (.mark (.clean newest.maxTxid pageSize commit fileLen))).chain
          fun _ => performing (pure newest.maxTxid)

def restoringToPath (files : List FileKey) : Copier Nat :=
  (performing (Script.lift (planRestore files))).chain applyingPlan

/-- The loop of `deltaShaping`. -/
def deltaShapingLoop : List FileKey → DeltaShape → Copier DeltaShape
  | [], shape => performing (Script.lift (.ok shape))
  | key :: rest, shape =>
      (getting key).chain fun file =>
        if shape.pageSize ≠ 0 ∧ file.header.pageSize ≠ shape.pageSize then
          performing
            (Script.lift (.error (.ltx (.invalidPageSize file.header.pageSize))))
        else
          deltaShapingLoop rest
            { pageSize := file.header.pageSize
              finalCommit := file.header.commit
              minCommit :=
                if shape.pageSize = 0 then file.header.commit
                else min shape.minCommit file.header.commit }

/-- `deltaShape` header by header. -/
def deltaShaping (plan : List FileKey) : Copier DeltaShape :=
  deltaShapingLoop plan { pageSize := 0, finalCommit := 0, minCommit := 0 }

/-- `applyDeltaToPath` request by request. -/
def applyingDelta (plan : List FileKey) (fromTxid : Nat) (shape : DeltaShape) :
    Copier Nat :=
  match plan.getLast? with
  | none => performing (pure fromTxid)
  | some newest =>
      let fileLen := shape.finalCommit * shape.pageSize
      (emitting (.mark (.applying fromTxid newest.maxTxid))).chain fun _ =>
      (emitting
        (.mutate (.setLen (shape.minCommit * shape.pageSize)))).chain fun _ =>
      (emitting (.mutate (.setLen fileLen))).chain fun _ =>
      let written := PageSet.claim (lockPgno shape.pageSize) (SparseSet.mk [])
      (applyingNewestFirst shape.pageSize shape.finalCommit plan.reverse
        written.2).chain fun _ =>
      (emitting .syncAll).chain fun _ =>
      (emitting (.mark
        (.clean newest.maxTxid shape.pageSize shape.finalCommit
          fileLen))).chain fun _ => performing (pure newest.maxTxid)

/-- `restoreIncremental` with the listing in hand. -/
def restoringIncremental (files : List FileKey) (disk : Disk)
    (fromTxid : Nat) : Copier Nat :=
  (performing (Script.lift (planRestoreFrom files fromTxid))).chain fun plan =>
    if plan = [] then performing (pure fromTxid)
    else
      (deltaShaping plan).chain fun shape =>
        match disk.file.bind localPageSize with
        | none => performing (Script.lift (.error (.ltx (.invalidPageSize 0))))
        | some localSize =>
            if localSize ≠ shape.pageSize then
              performing
                (Script.lift (.error (.ltx (.invalidPageSize shape.pageSize))))
            else applyingDelta plan fromTxid shape

def fullRestoring (files : List FileKey) (reason : FallbackReason) :
    Copier CatchUp :=
  (restoringToPath files).chain fun reached =>
    performing (pure (.fullRestore reached reason))

/-- `catchUp` with the listing in hand. -/
def catchingUp (files : List FileKey) (disk : Disk) : Copier CatchUp :=
  match disk.marker with
  | none => fullRestoring files .noMarker
  | some (.applying _ _) => fullRestoring files .dirtyMarker
  | some (.clean txid pageSize _ fileLen) =>
      if disk.file.map List.length ≠ some fileLen then
        fullRestoring files .lengthMismatch
      else if txid > headTxid files then fullRestoring files .localAhead
      else if txid = headTxid files then performing (pure (.upToDate txid))
      else
        match planRestoreFrom files txid with
        | .error (.chainGap _) => fullRestoring files .chainGap
        | .error error => performing (Script.lift (.error error))
        | .ok plan =>
            if plan = [] then performing (pure (.upToDate txid))
            else
              (deltaShaping plan).chain fun shape =>
                if shape.pageSize ≠ pageSize ∨
                    disk.file.bind localPageSize ≠ some pageSize then
                  fullRestoring files .pageSizeChanged
                else
                  (applyingDelta plan txid shape).chain fun reached =>
                    performing
                      (pure (.incremental txid reached plan.length))

/-! ## Only listed files are fetched -/

section Polite

variable {files : List FileKey}

theorem only_getting {key : FileKey} (listed : key ∈ files) :
    (getting key).Only (Query.Fetches files) :=
  (fetching_fetches listed).bind fun _ _ => trivial

theorem only_applyingNewestFirst {σ : Type} [PageSet σ] {pageSize commit : Nat}
    {plan : List FileKey} {written : σ}
    (listed : ∀ key ∈ plan, key ∈ files) :
    (applyingNewestFirst pageSize commit plan written).Only
      (Query.Fetches files) := by
  induction plan generalizing written with
  | nil => exact only_returns _
  | cons key older ih =>
      apply (only_getting (listed key (by simp))).chain
      intro file
      apply (only_returns _).chain
      intro next
      exact ih fun other member => listed other (by simp [member])

theorem only_applyingPlan {plan : List FileKey}
    (listed : ∀ key ∈ plan, key ∈ files) :
    (applyingPlan plan).Only (Query.Fetches files) := by
  unfold applyingPlan
  split
  · exact only_returns _
  · rename_i newest isLast
    have reversed : ∀ key ∈ plan.reverse, key ∈ files :=
      fun key member => listed key (List.mem_reverse.mp member)
    apply (only_getting (listed newest (List.mem_of_getLast? isLast))).chain
    intro head
    iterate 3
      apply (only_returns _).chain
      intro _
    apply (only_applyingNewestFirst reversed).chain
    intro _
    iterate 2
      apply (only_returns _).chain
      intro _
    exact only_returns _

theorem only_deltaShapingLoop {plan : List FileKey} {shape : DeltaShape}
    (listed : ∀ key ∈ plan, key ∈ files) :
    (deltaShapingLoop plan shape).Only (Query.Fetches files) := by
  induction plan generalizing shape with
  | nil => exact only_returns _
  | cons key rest ih =>
      apply (only_getting (listed key (by simp))).chain
      intro file
      split
      · exact only_returns _
      · exact ih fun other member => listed other (by simp [member])

theorem only_applyingDelta {plan : List FileKey} {fromTxid : Nat}
    {shape : DeltaShape} (listed : ∀ key ∈ plan, key ∈ files) :
    (applyingDelta plan fromTxid shape).Only (Query.Fetches files) := by
  unfold applyingDelta
  split
  · exact only_returns _
  · have reversed : ∀ key ∈ plan.reverse, key ∈ files :=
      fun key member => listed key (List.mem_reverse.mp member)
    iterate 3
      apply (only_returns _).chain
      intro _
    apply (only_applyingNewestFirst reversed).chain
    intro _
    iterate 2
      apply (only_returns _).chain
      intro _
    exact only_returns _

theorem only_restoringToPath :
    (restoringToPath files).Only (Query.Fetches files) := by
  apply only_returns_chain
  intro plan planned
  obtain ⟨cover, _⟩ := planRestore_eq_ok planned
  rw [cover]
  exact only_applyingPlan (greedyCover_subset files 0)

theorem only_fullRestoring (reason : FallbackReason) :
    (fullRestoring files reason).Only (Query.Fetches files) :=
  only_restoringToPath.chain fun _ => only_returns _

theorem planRestoreFrom_subset {plan : List FileKey} {start : Nat}
    (planned : planRestoreFrom files start = .ok plan) :
    ∀ key ∈ plan, key ∈ files := by
  by_cases behind : start < headTxid files
  · exact (planRestoreFrom_eq_ok behind planned).2
  · rw [planRestoreFrom, if_pos (by omega)] at planned
    cases planned
    rintro _ ⟨⟩

theorem only_restoringIncremental {disk : Disk} {fromTxid : Nat} :
    (restoringIncremental files disk fromTxid).Only
      (Query.Fetches files) := by
  apply only_returns_chain
  intro plan planned
  have listed := planRestoreFrom_subset planned
  split
  · exact only_returns _
  · apply (only_deltaShapingLoop listed).chain
    intro shape
    split
    · exact only_returns _
    · split
      · exact only_returns _
      · exact only_applyingDelta listed

theorem only_catchingUp {disk : Disk} :
    (catchingUp files disk).Only (Query.Fetches files) := by
  unfold catchingUp
  split
  · exact only_fullRestoring _
  · exact only_fullRestoring _
  · split
    · exact only_fullRestoring _
    · split
      · exact only_fullRestoring _
      · split
        · exact only_returns _
        · split
          · exact only_fullRestoring _
          · exact only_returns _
          · rename_i plan planned
            have listed := planRestoreFrom_subset planned
            split
            · exact only_returns _
            · apply (only_deltaShapingLoop listed).chain
              intro shape
              split
              · exact only_fullRestoring _
              · apply (only_applyingDelta listed).chain
                intro reached
                exact only_returns _

end Polite

/-! ## Against a frozen replica -/

section Frozen

variable {frozen : Store}

theorem performs_getting {key : FileKey} :
    (getting key).Performs (replies frozen) (Script.lift (getLtx frozen key)) := by
  apply fetching_yields.bind
  rintro (error | file) got
  · exact .stopped List.nil_prefix
  · rw [getLtx_eq_ok.mpr (got file rfl)]
    exact .whole

theorem performs_applyingNewestFirst {σ : Type} [PageSet σ]
    {pageSize commit : Nat} {plan : List FileKey} {written : σ} :
    (applyingNewestFirst pageSize commit plan written).Performs
      (replies frozen) (applyNewestFirst frozen pageSize commit plan written) := by
  induction plan generalizing written with
  | nil => exact performs_returns _
  | cons key older ih =>
      apply performs_getting.bind
      intro file _
      apply (performs_returns _).bind
      intro next _
      exact ih

theorem performs_applyingPlan {plan : List FileKey} :
    (applyingPlan plan).Performs (replies frozen)
      (applyPlanToPath frozen plan) := by
  unfold applyingPlan applyPlanToPath
  cases plan.getLast? with
  | none => exact performs_returns _
  | some newest =>
      apply performs_getting.bind
      intro head _
      iterate 3
        apply (performs_returns _).bind
        intro _ _
      apply performs_applyingNewestFirst.bind
      intro _ _
      iterate 2
        apply (performs_returns _).bind
        intro _ _
      exact performs_returns _

theorem performs_deltaShapingLoop {plan : List FileKey} {shape : DeltaShape} :
    (deltaShapingLoop plan shape).Performs (replies frozen)
      (Script.lift (deltaShapeLoop frozen plan shape)) := by
  induction plan generalizing shape with
  | nil => exact performs_returns _
  | cons key rest ih =>
      rw [deltaShapeLoop, Script.lift_bind]
      apply performs_getting.bind
      intro file _
      split
      · exact performs_returns _
      · exact ih

theorem performs_deltaShaping {plan : List FileKey} :
    (deltaShaping plan).Performs (replies frozen)
      (Script.lift (deltaShape frozen plan)) :=
  performs_deltaShapingLoop

theorem performs_applyingDelta {plan : List FileKey} {fromTxid : Nat}
    {shape : DeltaShape} :
    (applyingDelta plan fromTxid shape).Performs (replies frozen)
      (applyDeltaToPath frozen plan fromTxid shape) := by
  unfold applyingDelta applyDeltaToPath
  cases plan.getLast? with
  | none => exact performs_returns _
  | some newest =>
      iterate 3
        apply (performs_returns _).bind
        intro _ _
      apply performs_applyingNewestFirst.bind
      intro _ _
      iterate 2
        apply (performs_returns _).bind
        intro _ _
      exact performs_returns _

theorem performs_restoringToPath :
    (restoringToPath (listAllLtx frozen)).Performs (replies frozen)
      (restoreToPath frozen) := by
  apply (performs_returns _).bind
  intro plan _
  exact performs_applyingPlan

theorem performs_fullRestoring (reason : FallbackReason) :
    (fullRestoring (listAllLtx frozen) reason).Performs (replies frozen)
      (fullRestore frozen reason) := by
  apply performs_restoringToPath.bind
  intro reached _
  exact performs_returns _

theorem performs_restoringIncremental {disk : Disk} {fromTxid : Nat} :
    (restoringIncremental (listAllLtx frozen) disk fromTxid).Performs
      (replies frozen) (restoreIncremental frozen disk fromTxid) := by
  apply (performs_returns _).bind
  intro plan _
  split
  · exact performs_returns _
  · apply performs_deltaShaping.bind
    intro shape _
    cases disk.file.bind localPageSize with
    | none => exact performs_returns _
    | some localSize =>
        dsimp only
        split
        · exact performs_returns _
        · exact performs_applyingDelta

theorem performs_catchingUp {disk : Disk} :
    (catchingUp (listAllLtx frozen) disk).Performs (replies frozen)
      (catchUp frozen disk) := by
  unfold catchingUp catchUp
  cases disk.marker with
  | none => exact performs_fullRestoring _
  | some marker =>
      cases marker with
      | applying from_ to_ => exact performs_fullRestoring _
      | clean txid pageSize commit fileLen =>
          dsimp only
          split
          · exact performs_fullRestoring _
          · split
            · exact performs_fullRestoring _
            · split
              · exact performs_returns _
              · cases planRestoreFrom (listAllLtx frozen) txid with
                | error error =>
                    cases error with
                    | chainGap from_ => exact performs_fullRestoring _
                    | _ => exact performs_returns _
                | ok plan =>
                    dsimp only
                    split
                    · exact performs_returns _
                    · apply performs_deltaShaping.bind
                      intro shape _
                      split
                      · exact performs_fullRestoring _
                      · apply performs_applyingDelta.bind
                        intro reached _
                        exact performs_returns _

end Frozen

end Copier

end Literstream
