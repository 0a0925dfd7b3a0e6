import Literstream.Restore.Delta
import Literstream.Lib.Machine
import Mathlib.Data.List.Perm.Subperm

/-!
# Catching up a local copy

`catchUp` trusts the marker it wrote itself and falls back to a full restore.
Every call first replaces the marker by `applying`, and only a complete call
replaces that by `clean`; so a clean marker always describes the file, wherever
earlier calls were stopped.
-/

namespace Literstream

open PagedFile

/-- Why `catchUp` rebuilt the image. -/
inductive FallbackReason where
  | noMarker
  | dirtyMarker
  | lengthMismatch
  | chainGap
  | pageSizeChanged
  | localAhead
deriving DecidableEq, Repr

/-- What `catchUp` did. -/
inductive CatchUp where
  | upToDate (txid : Nat)
  | incremental (from_ to_ files : Nat)
  | fullRestore (to_ : Nat) (reason : FallbackReason)
deriving DecidableEq, Repr

def restoreIncremental (store : Store) (disk : Disk) (fromTxid : Nat) :
    Script FileOp SyncError Nat := do
  let plan ← Script.lift (planRestoreFrom (listAllLtx store) fromTxid)
  if plan = [] then return fromTxid
  else do
    let shape ← Script.lift (deltaShape store plan)
    match disk.file.bind localPageSize with
    | none => Script.lift (.error (.ltx (.invalidPageSize 0)))
    | some localSize =>
        if localSize ≠ shape.pageSize then
          Script.lift (.error (.ltx (.invalidPageSize shape.pageSize)))
        else applyDeltaToPath store plan fromTxid shape

/-- The fallback arm of `catchUp`. -/
def fullRestore (store : Store) (reason : FallbackReason) :
    Script FileOp SyncError CatchUp := do
  let reached ← restoreToPath store
  return .fullRestore reached reason

def catchUp (store : Store) (disk : Disk) : Script FileOp SyncError CatchUp :=
  match disk.marker with
  | none => fullRestore store .noMarker
  | some (.applying _ _) => fullRestore store .dirtyMarker
  | some (.clean txid pageSize _ fileLen) =>
      if disk.file.map List.length ≠ some fileLen then
        fullRestore store .lengthMismatch
      else if txid > headTxid (listAllLtx store) then
        fullRestore store .localAhead
      else if txid = headTxid (listAllLtx store) then
        return .upToDate txid
      else
        match planRestoreFrom (listAllLtx store) txid with
        | .error (.chainGap _) => fullRestore store .chainGap
        | .error error => Script.lift (.error error)
        | .ok plan =>
            if plan = [] then return .upToDate txid
            else do
              let shape ← Script.lift (deltaShape store plan)
              if shape.pageSize ≠ pageSize ∨
                  disk.file.bind localPageSize ≠ some pageSize then
                fullRestore store .pageSizeChanged
              else do
                let reached ← applyDeltaToPath store plan txid shape
                return .incremental txid reached plan.length

/-! ## Calls that may stop anywhere -/

/-- The operations performed by a call that stops after `count` of them; `cut`
is how much of the next page write still happened. -/
def interrupted (ops : List FileOp) (count : Nat) (cut : Option Nat) :
    List FileOp :=
  ops.take count ++
    match ops[count]?, cut with
    | some (.mutate (.writeAt offset data)), some length =>
        [.mutate (.writeAt offset (data.take length))]
    | _, _ => []

/-- How a call ends: with its own result, with an error of the store or the
operating system, or with a crash. -/
inductive Ending where
  | complete
  | stopped (count : Nat) (cut : Option Nat)
  | crashed (count : Nat) (cut : Option Nat) (kept : List Mutation)

/-- The disk after a call; a crash keeps some of the pending changes, in any
order. -/
def Ending.apply (ops : List FileOp) (disk : Disk) : Ending → Option Disk
  | .complete => some (disk.run ops)
  | .stopped count cut => some (disk.run (interrupted ops count cut))
  | .crashed count cut kept =>
      if kept.Subperm (disk.run (interrupted ops count cut)).pending then
        some ((disk.run (interrupted ops count cut)).crash kept)
      else none

/-- A replica and a local copy restored from it. -/
structure Copy where
  store : Store
  disk : Disk

inductive CopyAction where
  /-- Growth, compaction and retention of the replica. -/
  | replica (store : Store)
  | restoreToPath (ending : Ending)
  | catchUp (ending : Ending)
  /-- With the TXID that the marker records. -/
  | restoreIncremental (ending : Ending)

/-- Run one call on the local copy. -/
def Copy.call {α : Type} (copy : Copy) (ending : Ending)
    (script : Script FileOp SyncError α) : Option Copy :=
  (ending.apply script.ops copy.disk).map fun disk =>
    { store := copy.store, disk := disk }

def Copy.step (copy : Copy) : CopyAction → Option Copy
  | .replica store => some { copy with store := store }
  | .restoreToPath ending =>
      copy.call ending (Literstream.restoreToPath copy.store)
  | .catchUp ending =>
      copy.call ending (Literstream.catchUp copy.store copy.disk)
  | .restoreIncremental ending =>
      match copy.disk.marker with
      | some (.clean txid _ _ _) =>
          copy.call ending
            (Literstream.restoreIncremental copy.store copy.disk txid)
      | _ => none

/-- The replica describes the history and reaches its highest TXID without a
gap. -/
structure History.Replica (history : History) (store : Store) : Prop where
  faithful : history.FaithfulStore store
  covers : FilesCover (listAllLtx store) 0 (headTxid (listAllLtx store))

/-- The replica may change in any way that keeps it a replica. -/
def History.allows (history : History) (_ : Copy) : CopyAction → Prop
  | .replica store => history.Replica store
  | _ => True

/-! ## The shape of a call -/

theorem unmarked_applyPages {σ : Type} [PageSet σ] {pageSize commit : Nat}
    (pages : List Page) (written : σ) :
    ∀ op ∈ (applyPages pageSize commit pages written).ops,
      op.unmarked = true := by
  induction pages generalizing written with
  | nil => simp [applyPages]
  | cons page rest ih =>
      rw [applyPages]
      apply Script.forall_ops_bind
      · simp
      · intro data
        split
        · split
          · apply Script.forall_ops_bind
            · simp [Script.emit, writePage, FileOp.unmarked]
            · exact fun _ => ih _
          · exact ih _
        · exact ih _

theorem unmarked_applyNewestFirst {σ : Type} [PageSet σ] {store : Store}
    {pageSize commit : Nat} (plan : List FileKey) (written : σ) :
    ∀ op ∈ (applyNewestFirst store pageSize commit plan written).ops,
      op.unmarked = true := by
  induction plan generalizing written with
  | nil => simp [applyNewestFirst]
  | cons key older ih =>
      rw [applyNewestFirst]
      apply Script.forall_ops_bind
      · simp
      · intro file
        apply Script.forall_ops_bind
        · exact unmarked_applyPages _ _
        · exact fun next => ih next

/-- A call that touches the disk starts by marking it as being applied; it
replaces that marker with its last operation, and only when it succeeds. -/
inductive Shielded {α : Type} (script : Script FileOp SyncError α) : Prop where
  | idle (none_ : script.ops = [])
  | failed {from_ to_ : Nat} {body : List FileOp}
      (ops : script.ops = .mark (.applying from_ to_) :: body)
      (unmarked : ∀ op ∈ body, op.unmarked = true)
  | published {from_ to_ : Nat} {body : List FileOp} {marker : Marker}
      {value : α}
      (ops : script.ops =
        .mark (.applying from_ to_) :: (body ++ [.mark marker]))
      (unmarked : ∀ op ∈ body, op.unmarked = true)
      (done : script.result = .ok value)

theorem Shielded.map {α β : Type} {script : Script FileOp SyncError α}
    (shielded : Shielded script) (wrap : α → β) :
    Shielded (script >>= fun value => pure (wrap value)) := by
  cases finished : script.result with
  | error error =>
      rw [Script.bind_of_error finished]
      cases shielded with
      | idle none_ => exact .idle none_
      | failed ops unmarked => exact .failed ops unmarked
      | published ops unmarked done =>
          rw [finished] at done
          cases done
  | ok value =>
      rw [Script.bind_of_ok finished]
      simp only [Script.ops_pure, Script.result_pure, List.append_nil]
      cases shielded with
      | idle none_ => exact .idle none_
      | failed ops unmarked => exact .failed ops unmarked
      | published ops unmarked _ => exact .published ops unmarked rfl

theorem shielded_lift {α : Type} (result : Except SyncError α) :
    Shielded (Script.lift result) :=
  .idle rfl

/-- Reading something first does not change the shape. -/
theorem Shielded.after_lift {α β : Type} {result : Except SyncError α}
    {next : α → Script FileOp SyncError β}
    (shielded : ∀ value, result = .ok value → Shielded (next value)) :
    Shielded (Script.lift result >>= next) := by
  cases result with
  | error error => exact .idle rfl
  | ok value => exact shielded value rfl

/-- A newest-first apply between its markers. -/
theorem shielded_apply {σ : Type} [PageSet σ] {store : Store}
    {pageSize commit from_ to_ : Nat} {plan : List FileKey} {written : σ}
    {marker : Marker} {value : Nat} (before : List FileOp)
    (unmarked : ∀ op ∈ before, op.unmarked = true) :
    Shielded
      ({ ops := .mark (.applying from_ to_) :: (before ++
          (applyNewestFirst store pageSize commit plan written >>= fun _ =>
            ({ ops := [.syncAll, .mark marker], result := .ok value } :
              Script FileOp SyncError Nat)).ops)
         result :=
          (applyNewestFirst store pageSize commit plan written >>= fun _ =>
            ({ ops := [.syncAll, .mark marker], result := .ok value } :
              Script FileOp SyncError Nat)).result } :
        Script FileOp SyncError Nat) := by
  have inner := @unmarked_applyNewestFirst σ _ store pageSize commit plan
    written
  have all : ∀ op ∈ before ++
      (applyNewestFirst store pageSize commit plan written).ops,
      op.unmarked = true := by
    intro op member
    rcases List.mem_append.mp member with early | late
    · exact unmarked op early
    · exact inner op late
  cases finished :
      (applyNewestFirst store pageSize commit plan written).result with
  | error error =>
      rw [Script.bind_of_error finished]
      exact .failed rfl all
  | ok next =>
      rw [Script.bind_of_ok finished]
      have synced : ∀ op ∈ before ++
          (applyNewestFirst store pageSize commit plan written).ops ++
            [.syncAll], op.unmarked = true := by
        intro op member
        rcases List.mem_append.mp member with early | late
        · exact all op early
        · rw [List.mem_singleton.mp late]
          rfl
      exact .published (by simp only [List.append_assoc]; rfl) synced rfl

theorem shielded_applyPlanToPath (store : Store) (plan : List FileKey) :
    Shielded (applyPlanToPath store plan) := by
  unfold applyPlanToPath
  split
  · exact shielded_lift _
  · apply Shielded.after_lift
    intro head _
    simp only [Script.emit_bind]
    apply shielded_apply [.mutate .create, .mutate (.setLen _)]
    simp [FileOp.unmarked]

theorem shielded_applyDeltaToPath (store : Store) (plan : List FileKey)
    (fromTxid : Nat) (shape : DeltaShape) :
    Shielded (applyDeltaToPath store plan fromTxid shape) := by
  unfold applyDeltaToPath
  split
  · exact shielded_lift _
  · simp only [Script.emit_bind]
    apply shielded_apply [.mutate (.setLen _), .mutate (.setLen _)]
    simp [FileOp.unmarked]

theorem shielded_restoreToPath (store : Store) :
    Shielded (restoreToPath store) :=
  .after_lift fun plan _ => shielded_applyPlanToPath store plan

theorem shielded_fullRestore (store : Store) (reason : FallbackReason) :
    Shielded (fullRestore store reason) :=
  (shielded_restoreToPath store).map fun reached =>
    CatchUp.fullRestore reached reason

theorem shielded_restoreIncremental (store : Store) (disk : Disk)
    (fromTxid : Nat) : Shielded (restoreIncremental store disk fromTxid) := by
  apply Shielded.after_lift
  intro plan _
  split
  · exact .idle rfl
  · apply Shielded.after_lift
    intro shape _
    split
    · exact shielded_lift _
    · split
      · exact shielded_lift _
      · exact shielded_applyDeltaToPath _ _ _ _

theorem shielded_catchUp (store : Store) (disk : Disk) :
    Shielded (catchUp store disk) := by
  unfold catchUp
  split
  · exact shielded_fullRestore _ _
  · exact shielded_fullRestore _ _
  · split
    · exact shielded_fullRestore _ _
    · split
      · exact shielded_fullRestore _ _
      · split
        · exact .idle rfl
        · split
          · exact shielded_fullRestore _ _
          · exact shielded_lift _
          · split
            · exact .idle rfl
            · apply Shielded.after_lift
              intro shape _
              split
              · exact shielded_fullRestore _ _
              · exact (shielded_applyDeltaToPath _ _ _ _).map _

/-! ## Stopping a call -/

theorem interrupted_cons (op : FileOp) (ops : List FileOp) (count : Nat)
    (cut : Option Nat) :
    interrupted (op :: ops) (count + 1) cut =
      op :: interrupted ops count cut := by
  simp [interrupted]

theorem interrupted_length (ops : List FileOp) :
    interrupted ops ops.length none = ops := by
  simp [interrupted]

theorem unmarked_interrupted {ops : List FileOp} (count : Nat)
    (cut : Option Nat) (unmarked : ∀ op ∈ ops, op.unmarked = true) :
    ∀ op ∈ interrupted ops count cut, op.unmarked = true := by
  intro op member
  rcases List.mem_append.mp member with early | late
  · exact unmarked op (List.mem_of_mem_take early)
  · split at late
    · rw [List.mem_singleton.mp late]
      rfl
    · cases late

/-- A marker is written whole or not at all. -/
theorem interrupted_append_mark (body : List FileOp) (marker : Marker)
    (count : Nat) (cut : Option Nat) :
    interrupted (body ++ [.mark marker]) count cut =
        interrupted body count cut ∨
      interrupted (body ++ [.mark marker]) count cut =
        body ++ [.mark marker] := by
  rcases Nat.lt_trichotomy count body.length with inside | last | beyond
  · left
    simp only [interrupted]
    rw [List.take_append_of_le_length (Nat.le_of_lt inside),
      List.getElem?_append_left inside]
  · left
    subst last
    simp [interrupted]
  · right
    simp only [interrupted]
    rw [List.take_of_length_le (by simp; omega),
      List.getElem?_eq_none (by simp; omega)]
    simp

/-- A call that succeeds leaves the disk in a state that meets `post`. -/
def Ensures {α : Type} (script : Script FileOp SyncError α) (disk : Disk)
    (post : Disk → Prop) : Prop :=
  ∀ value, script.result = .ok value → post (disk.run script.ops)

theorem Ensures.weaken {α : Type} {script : Script FileOp SyncError α}
    {disk : Disk} {post other : Disk → Prop} (ensures : Ensures script disk post)
    (implies : ∀ final, post final → other final) :
    Ensures script disk other :=
  fun value done => implies _ (ensures value done)

theorem ensures_error {α : Type} {disk : Disk} {post : Disk → Prop}
    (error : SyncError) :
    Ensures (Script.lift (.error error) : Script FileOp SyncError α) disk
      post := by
  intro value done
  cases done

theorem ensures_pure {α : Type} {disk : Disk} {post : Disk → Prop} {value : α}
    (holds : post disk) :
    Ensures (pure value : Script FileOp SyncError α) disk post :=
  fun _ _ => holds

theorem ensures_after_lift {α β : Type} {disk : Disk} {post : Disk → Prop}
    {result : Except SyncError α} {next : α → Script FileOp SyncError β}
    (ensures : ∀ value, result = .ok value → Ensures (next value) disk post) :
    Ensures (Script.lift result >>= next) disk post := by
  cases result with
  | error error => exact ensures_error error
  | ok value => exact ensures value rfl

theorem Ensures.map {α β : Type} {script : Script FileOp SyncError α}
    {disk : Disk} {post : Disk → Prop} (ensures : Ensures script disk post)
    (wrap : α → β) :
    Ensures (script >>= fun value => pure (wrap value)) disk post := by
  intro result done
  obtain ⟨value, first, _, ops⟩ := Script.result_bind_eq_ok done
  rw [ops, Script.ops_pure, List.append_nil]
  exact ensures value first

namespace History

variable {history : History}

/-- A clean marker describes the file, and nothing of it is pending. -/
def Trusted (history : History) (disk : Disk) : Prop :=
  ∀ txid pageSize commit fileLen,
    disk.marker = some (.clean txid pageSize commit fileLen) →
    disk = history.restored txid

/-- A script that leaves a restored image whenever it succeeds. -/
def Restores {α : Type} (history : History)
    (script : Script FileOp SyncError α) (disk : Disk) : Prop :=
  Ensures script disk fun final => ∃ txid, final = history.restored txid

theorem trusted_restored (txid : Nat) :
    history.Trusted (history.restored txid) := by
  intro other pageSize commit fileLen marked
  simp only [restored, Option.some.injEq, Marker.clean.injEq] at marked
  rw [marked.1]

theorem trusted_of_applying {disk : Disk} {ops : List FileOp}
    {from_ to_ : Nat} (unmarked : ∀ op ∈ ops, op.unmarked = true) :
    history.Trusted (disk.run (.mark (.applying from_ to_) :: ops)) := by
  intro txid pageSize commit fileLen marked
  rw [Disk.run_cons, Disk.run_marker unmarked] at marked
  cases marked

/-- Wherever a shielded call stops, a clean marker still describes the file. -/
theorem Trusted.interrupted {α : Type} {script : Script FileOp SyncError α}
    {disk : Disk} (trusted : history.Trusted disk)
    (shielded : Shielded script) (restores : history.Restores script disk)
    (count : Nat) (cut : Option Nat) :
    history.Trusted (disk.run (interrupted script.ops count cut)) := by
  cases count with
  | zero =>
      cases shielded with
      | idle ops => simpa [ops, Literstream.interrupted] using trusted
      | failed ops _ => simpa [ops, Literstream.interrupted] using trusted
      | published ops _ _ => simpa [ops, Literstream.interrupted] using trusted
  | succ count =>
      cases shielded with
      | idle ops => simpa [ops, Literstream.interrupted] using trusted
      | failed ops unmarked =>
          rw [ops, interrupted_cons]
          exact trusted_of_applying (unmarked_interrupted count cut unmarked)
      | @published from_ to_ body marker value ops unmarked done =>
          rw [ops, interrupted_cons]
          rcases interrupted_append_mark body marker count cut with torn | whole
          · rw [torn]
            exact trusted_of_applying
              (unmarked_interrupted count cut unmarked)
          · obtain ⟨txid, image⟩ := restores value done
            rw [whole, ← ops, image]
            exact trusted_restored txid

theorem Trusted.crash {disk : Disk} (trusted : history.Trusted disk)
    {kept : List Mutation} (some_ : kept.Subperm disk.pending) :
    history.Trusted (disk.crash kept) := by
  intro txid pageSize commit fileLen marked
  have same := trusted txid pageSize commit fileLen marked
  rw [same] at some_ ⊢
  have nothing : kept = [] := List.subperm_nil.mp some_
  rw [nothing]
  rfl

theorem Trusted.ending {α : Type} {script : Script FileOp SyncError α}
    {disk next : Disk} {ending : Ending} (trusted : history.Trusted disk)
    (shielded : Shielded script) (restores : history.Restores script disk)
    (ended : ending.apply script.ops disk = some next) :
    history.Trusted next := by
  cases ending with
  | complete =>
      cases ended
      rw [← interrupted_length script.ops]
      exact trusted.interrupted shielded restores _ _
  | stopped count cut =>
      cases ended
      exact trusted.interrupted shielded restores _ _
  | crashed count cut kept =>
      simp only [Ending.apply] at ended
      split at ended
      · cases ended
        exact (trusted.interrupted shielded restores _ _).crash (by assumption)
      · cases ended

/-! ## What the calls restore -/

theorem exists_planned {store : Store} {plan : List FileKey}
    (faithful : history.FaithfulStore store)
    (listed : ∀ key ∈ plan, key ∈ listAllLtx store) :
    ∃ files : List KeyedFile, files.map Prod.fst = plan ∧
      Loaded store files ∧ history.FaithfulFiles files := by
  obtain ⟨files, keys, loaded⟩ := exists_loaded fun key member => by
    obtain ⟨stored, _⟩ := mem_listAllLtx.mp (listed key member)
    exact (OrderedMap.mem_iff_exists store key).mpr stored
  exact ⟨files, keys, loaded, faithful.loaded loaded⟩

/-- The image at the highest TXID listed, with its marker. -/
abbrev AtHead (history : History) (store : Store) (disk : Disk) : Prop :=
  disk = history.restored (headTxid (listAllLtx store))

/-- A full restore that succeeds reaches the highest TXID listed. -/
theorem Replica.restoreToPath {store : Store}
    (replica : history.Replica store) (disk : Disk) :
    Ensures (restoreToPath store) disk (history.AtHead store) := by
  apply ensures_after_lift
  intro plan planned
  obtain ⟨same, _⟩ := planRestore_eq_ok planned
  have chain := greedyCover_chain (listAllLtx store) 0
  have listed := greedyCover_subset (listAllLtx store) 0
  have head : (greedyCover (listAllLtx store) 0).2 =
      headTxid (listAllLtx store) :=
    Nat.le_antisymm (greedyCover_le_headTxid (Nat.zero_le _))
      (greedyCover_reaches replica.covers)
  rw [← same, head] at chain
  rw [← same] at listed
  obtain ⟨files, keys, loaded, faithful⟩ :=
    exists_planned replica.faithful listed
  subst keys
  intro reached done
  exact (applyPlanToPath_image disk loaded faithful chain done).2

theorem Replica.fullRestore {store : Store} (reason : FallbackReason)
    (replica : history.Replica store) (disk : Disk) :
    Ensures (fullRestore store reason) disk (history.AtHead store) :=
  (replica.restoreToPath disk).map fun reached =>
    CatchUp.fullRestore reached reason

/-- A delta restore of the right image reaches the highest TXID. -/
theorem Replica.applyDelta {store : Store} {plan : List FileKey}
    {shape : DeltaShape} {start : Nat} {disk : Disk}
    (replica : history.Replica store)
    (present : disk.file = some (history.image start))
    (behind : start < headTxid (listAllLtx store))
    (planned : planRestoreFrom (listAllLtx store) start = .ok plan)
    (nonempty : plan ≠ []) (scanned : deltaShape store plan = .ok shape)
    (sameSize : shape.pageSize = history.pageSize start) :
    Ensures (applyDeltaToPath store plan start shape) disk
      (history.AtHead store) := by
  obtain ⟨chain, listed⟩ := planRestoreFrom_eq_ok behind planned
  obtain ⟨files, keys, loaded, faithful⟩ :=
    exists_planned replica.faithful listed
  subst keys
  have some_ : files ≠ [] := fun empty => nonempty (by simp [empty])
  intro reached _
  exact (applyDeltaToPath_image loaded faithful chain some_ scanned sameSize
    present).2

/-- The page size that the scan of a delta reports belongs to the image that
the delta leads to. -/
theorem Replica.deltaShape_pageSize {store : Store} {plan : List FileKey}
    {shape : DeltaShape} {start : Nat} (replica : history.Replica store)
    (behind : start < headTxid (listAllLtx store))
    (planned : planRestoreFrom (listAllLtx store) start = .ok plan)
    (nonempty : plan ≠ []) (scanned : deltaShape store plan = .ok shape) :
    shape.pageSize = history.pageSize (headTxid (listAllLtx store)) := by
  obtain ⟨chain, listed⟩ := planRestoreFrom_eq_ok behind planned
  obtain ⟨files, keys, loaded, faithful⟩ :=
    exists_planned replica.faithful listed
  subst keys
  have some_ : files ≠ [] := fun empty => nonempty (by simp [empty])
  obtain ⟨oneSize, _, _⟩ := deltaShape_eq_ok loaded some_ scanned
  obtain ⟨newest, last⟩ : ∃ newest, files.getLast? = some newest :=
    ⟨_, List.getLast?_eq_some_getLast some_⟩
  obtain ⟨_, finalSize, _⟩ := faithful.last chain last
  rw [← oneSize newest (List.mem_of_getLast? last), finalSize]

theorem headTxid_le_of_nil {files : List FileKey} {start : Nat}
    (planned : planRestoreFrom files start = .ok []) :
    headTxid files ≤ start := by
  by_contra behind
  obtain ⟨chain, _⟩ := planRestoreFrom_eq_ok (by omega) planned
  have still := chain.eq_of_nil
  omega

/-- A clean marker names the page size of its image, and a file of the recorded
length is that image. -/
def Believable (history : History) (disk : Disk) : Prop :=
  ∀ txid pageSize commit fileLen,
    disk.marker = some (.clean txid pageSize commit fileLen) →
    pageSize = history.pageSize txid ∧
      (disk.file.map List.length = some fileLen →
        disk.file = some (history.image txid))

theorem Trusted.believable {disk : Disk} (trusted : history.Trusted disk) :
    history.Believable disk := by
  intro txid pageSize commit fileLen marked
  have same := trusted txid pageSize commit fileLen marked
  rw [same] at marked ⊢
  simp only [restored, Option.some.injEq, Marker.clean.injEq, true_and]
    at marked
  exact ⟨marked.1.symm, fun _ => rfl⟩

/-- A file of the length that a clean marker records is the image at its
TXID. -/
def Described (history : History) (disk : Disk) : Prop :=
  ∀ txid pageSize commit fileLen,
    disk.marker = some (.clean txid pageSize commit fileLen) →
      disk.file.map List.length = some fileLen →
        disk.file = some (history.image txid)

/-- Every successful `catchUp` leaves the image at the highest TXID listed: it
restores it, or finds it there under a marker for that TXID. -/
theorem Replica.catchUp_described {store : Store} {disk : Disk}
    (replica : history.Replica store)
    (described : history.Described disk) :
    Ensures (Literstream.catchUp store disk) disk fun final =>
      history.AtHead store final ∨
        (final = disk ∧
          disk.file = some (history.image (headTxid (listAllLtx store))) ∧
          ∃ pageSize commit fileLen, disk.marker = some
            (.clean (headTxid (listAllLtx store)) pageSize commit fileLen)) := by
  have rebuilt : ∀ reason, Ensures (Literstream.fullRestore store reason) disk
      fun final => history.AtHead store final ∨
        (final = disk ∧
          disk.file = some (history.image (headTxid (listAllLtx store))) ∧
          ∃ pageSize commit fileLen, disk.marker = some
            (.clean (headTxid (listAllLtx store)) pageSize commit fileLen)) :=
    fun reason => (replica.fullRestore reason disk).weaken fun _ => .inl
  unfold Literstream.catchUp
  split
  · exact rebuilt _
  · exact rebuilt _
  · rename_i txid pageSize commit fileLen marked
    have image := described txid pageSize commit fileLen marked
    split
    · exact rebuilt _
    · rename_i sameLength
      have present := image (not_not.mp sameLength)
      split
      · exact rebuilt _
      · split
        · rename_i current
          apply ensures_pure
          rw [current] at present marked
          exact .inr ⟨rfl, present, _, _, _, marked⟩
        · split
          · exact rebuilt _
          · exact ensures_error _
          · rename_i plan planned
            split
            · rename_i empty
              subst empty
              have reached := headTxid_le_of_nil planned
              omega
            · rename_i nonempty
              have behind : txid < headTxid (listAllLtx store) := by omega
              apply ensures_after_lift
              intro shape scanned
              split
              · exact rebuilt _
              · rename_i sameGeometry
                obtain ⟨sameShape, stated⟩ := not_or.mp sameGeometry
                have shapeSize := replica.deltaShape_pageSize behind planned
                  nonempty scanned
                have honest := history.honest txid
                  (headTxid (listAllLtx store)) (by
                    rw [← shapeSize, not_not.mp sameShape,
                      ← not_not.mp stated, present]
                    rfl)
                have delta := replica.applyDelta present behind planned
                  nonempty scanned (shapeSize.trans honest.symm)
                exact (delta.map _).weaken fun _ => .inl

theorem Replica.catchUp {store : Store} {disk : Disk}
    (replica : history.Replica store)
    (believable : history.Believable disk) :
    Ensures (catchUp store disk) disk fun final =>
      history.AtHead store final ∨
        (final = disk ∧
          disk.file = some (history.image (headTxid (listAllLtx store))) ∧
          ∃ pageSize commit fileLen, disk.marker = some
            (.clean (headTxid (listAllLtx store)) pageSize commit fileLen)) :=
  replica.catchUp_described fun txid pageSize commit fileLen marked =>
    (believable txid pageSize commit fileLen marked).2

/-- With a trusted marker nothing is left pending either. -/
theorem Replica.catchUp_trusted {store : Store} {disk : Disk}
    (replica : history.Replica store) (trusted : history.Trusted disk) :
    Ensures (Literstream.catchUp store disk) disk (history.AtHead store) := by
  refine (replica.catchUp trusted.believable).weaken ?_
  rintro final (rebuilt | ⟨same, _, _, _, _, marked⟩)
  · exact rebuilt
  · rw [same]
    exact trusted _ _ _ _ marked

/-- A successful `restoreIncremental` from the TXID of a trusted marker. -/
theorem Replica.restoreIncremental {store : Store} (start : Nat)
    (replica : history.Replica store) :
    history.Restores
      (restoreIncremental store (history.restored start) start)
      (history.restored start) := by
  apply ensures_after_lift
  intro plan planned
  split
  · exact ensures_pure ⟨start, rfl⟩
  · rename_i nonempty
    have behind : start < headTxid (listAllLtx store) := by
      by_contra ahead
      rw [planRestoreFrom, if_pos (by omega)] at planned
      cases planned
      exact nonempty rfl
    apply ensures_after_lift
    intro shape scanned
    split
    · exact ensures_error _
    · rename_i localSize stated
      split
      · exact ensures_error _
      · rename_i sameGeometry
        have shapeSize := replica.deltaShape_pageSize behind planned nonempty
          scanned
        have honest := history.honest start (headTxid (listAllLtx store)) (by
          rw [← shapeSize, ← not_not.mp sameGeometry]
          exact stated)
        have delta := @Replica.applyDelta history store plan shape start
          (history.restored start) replica rfl behind planned nonempty scanned
          (shapeSize.trans honest.symm)
        exact delta.weaken fun final same => ⟨_, same⟩

/-- The replica is consistent and the marker can be trusted. -/
def CopyOk (history : History) (copy : Copy) : Prop :=
  history.Replica copy.store ∧ history.Trusted copy.disk

theorem CopyOk.call {α : Type} {copy next : Copy} {ending : Ending}
    {script : Script FileOp SyncError α} (ok : history.CopyOk copy)
    (shielded : Shielded script)
    (restores : history.Restores script copy.disk)
    (stepped : copy.call ending script = some next) :
    history.CopyOk next := by
  simp only [Copy.call, Option.map_eq_some_iff] at stepped
  obtain ⟨disk, ended, rfl⟩ := stepped
  exact ⟨ok.1, ok.2.ending shielded restores ended⟩

theorem CopyOk.step {copy next : Copy} {action : CopyAction}
    (ok : history.CopyOk copy) (allowed : history.allows copy action)
    (stepped : copy.step action = some next) : history.CopyOk next := by
  cases action with
  | replica store =>
      cases stepped
      exact ⟨allowed, ok.2⟩
  | restoreToPath ending =>
      refine ok.call (shielded_restoreToPath _) ?_ stepped
      exact (ok.1.restoreToPath copy.disk).weaken fun _ same => ⟨_, same⟩
  | catchUp ending =>
      refine ok.call (shielded_catchUp _ _) ?_ stepped
      exact (ok.1.catchUp_trusted ok.2).weaken fun _ same => ⟨_, same⟩
  | restoreIncremental ending =>
      simp only [Copy.step] at stepped
      split at stepped
      · rename_i txid pageSize commit fileLen marked
        have same := ok.2 txid pageSize commit fileLen marked
        refine ok.call (shielded_restoreIncremental _ _ _) ?_ stepped
        rw [same]
        exact ok.1.restoreIncremental txid
      · cases stepped

/-- In every state reached by restores that may stop anywhere, a clean marker
whose length matches describes exactly the file; so a `catchUp` that succeeds
leaves the image at the highest TXID listed. -/
theorem clean_marker_trusted {start copy : Copy}
    (replica : history.Replica start.store)
    (unmarked : start.disk.marker = none)
    (run : Machine.Reaches Copy.step history.allows start copy) :
    (∀ txid pageSize commit fileLen,
      copy.disk.marker = some (.clean txid pageSize commit fileLen) →
      copy.disk.file.map List.length = some fileLen →
      copy.disk.file = some (history.image txid)) ∧
    ∀ outcome, (Literstream.catchUp copy.store copy.disk).result = .ok outcome →
      (copy.disk.run (Literstream.catchUp copy.store copy.disk).ops).file =
        some (history.image (headTxid (listAllLtx copy.store))) := by
  have initial : history.CopyOk start := by
    refine ⟨replica, ?_⟩
    intro txid pageSize commit fileLen marked
    rw [unmarked] at marked
    cases marked
  have ok : history.CopyOk copy :=
    run.invariant initial fun _ _ _ ok allowed stepped =>
      ok.step allowed stepped
  constructor
  · intro txid pageSize commit fileLen marked _
    rw [ok.2 txid pageSize commit fileLen marked]
    rfl
  · intro outcome done
    rw [ok.1.catchUp_trusted ok.2 outcome done]
    rfl

theorem shrinkingStore_replica : shrinking.Replica shrinkingStore where
  faithful := shrinkingStore_faithful
  covers := covers_of_greedyCover (by decide +kernel)

/-- The copy after a `catchUp` that crashed once its file was resized, losing
the resize. -/
def tornCopy : Copy where
  store := shrinkingStore
  disk := (shrunkDisk.run (interrupted
    (Literstream.catchUp shrinkingStore shrunkDisk).ops 3 none)).crash []

/-- The same copy after another, complete `catchUp`. -/
def resumedCopy : Copy where
  store := shrinkingStore
  disk := tornCopy.disk.run
    (Literstream.catchUp shrinkingStore tornCopy.disk).ops

theorem clean_marker_trusted_resumed :
    (∀ txid pageSize commit fileLen,
      resumedCopy.disk.marker = some (.clean txid pageSize commit fileLen) →
      resumedCopy.disk.file.map List.length = some fileLen →
      resumedCopy.disk.file = some (shrinking.image txid)) ∧
    ∀ outcome, (Literstream.catchUp resumedCopy.store
        resumedCopy.disk).result = .ok outcome →
      (resumedCopy.disk.run (Literstream.catchUp resumedCopy.store
        resumedCopy.disk).ops).file =
        some (shrinking.image (headTxid (listAllLtx resumedCopy.store))) := by
  have crashed : Copy.step { store := shrinkingStore, disk := shrunkDisk }
      (.catchUp (.crashed 3 none [])) = some tornCopy := by
    simp only [Copy.step, Copy.call, Ending.apply, if_pos List.nil_subperm]
    rfl
  have completed : tornCopy.step (.catchUp .complete) = some resumedCopy := rfl
  have torn : Machine.Reaches Copy.step shrinking.allows
      { store := shrinkingStore, disk := shrunkDisk } tornCopy :=
    .tail .refl (by exact trivial) crashed
  exact clean_marker_trusted shrinkingStore_replica rfl
    (.tail torn (by exact trivial) completed)

end History

end Literstream
