import Literstream.Sync.Lifetime

/-!
# Uploads that the store took and reported as failed

A lost upload leaves its file at the next address of the replica, and the
position where it was.  The next call builds a file for the same address.  The
guarded upload takes it for a retry only if it is the same file; with a later
header timestamp it is not, and then every call and every reopen conflicts.
-/

namespace Literstream

open Std Machine

/-- The address of the next file. -/
def Position.nextKey (pos : Position) : FileKey :=
  ⟨level0, pos.txid + 1, pos.txid + 1⟩

/-- What the file in the staging directory was built from, and the one whose
upload was lost. -/
structure Provenance where
  staged : Option Draft
  lost : Option Draft
deriving DecidableEq, Repr

def Provenance.none : Provenance where
  staged := .none
  lost := .none

def Provenance.after (setup : Setup) (life : Lifetime) (prov : Provenance) :
    Event → Provenance
  | .step action =>
      { prov with staged := (life.syncer.stages setup action).or prov.staged }
  | .lost _ =>
      if life.syncer.took setup then { prov with lost := prov.staged } else prov
  | _ => prov

def watchedStep (setup : Setup) :
    Lifetime × Provenance → Event → Option (Lifetime × Provenance)
  | (life, prov), event =>
      (life.step setup event).map fun next =>
        (next, prov.after setup life event)

/-- The draft gives a file that goes through the guarded upload. -/
def Draft.guarded (setup : Setup) (pos : Position) (draft : Draft) : Bool :=
  match draft.build setup.pageSize pos with
  | .ok (some (_, file)) => setup.encodedSize file < multipartThreshold
  | _ => false

/-- Nothing is at the next address, or the draft repeats the one whose upload
was lost there, or it gives no file that goes through the guarded upload. -/
def State.Unopposed (setup : Setup) (state : State) (lost : Option Draft)
    (draft : Draft) : Prop :=
  state.store[state.pos.nextKey]? = none ∨
    (∃ earlier ∈ lost, draft.Repeats setup.pageSize earlier) ∨
    draft.guarded setup state.pos = false

/-- Commits are whole transactions, and files are built unopposed. -/
def Steady (setup : Setup) : Lifetime × Provenance → Event → Prop
  | (life, prov), .step action =>
      life.syncer.Fits setup action ∧
        ∀ draft, life.syncer.draft setup action = some draft →
          life.syncer.Unopposed setup prov.lost draft
  | _, _ => True

/-- No process runs and nothing is staged. -/
structure Fresh (setup : Setup) (life : Lifetime) : Prop where
  db : DbOk setup.pageSize life.syncer.db
  closed : life.phase = .closed
  staging : life.syncer.staging = ∅
  returned : life.returned = none

/-- The file comes from this draft. -/
def FromDraft (setup : Setup) (pos : Position) (origin : Option Draft)
    (file : LtxFile) : Prop :=
  ∃ draft staged, origin = some draft ∧ DbOk setup.pageSize draft.db ∧
    draft.build setup.pageSize pos = .ok (some (staged, file))

/-- `head` is the TXID that the next upload follows. -/
structure Rewrites (setup : Setup) (life : Lifetime) (prov : Provenance)
    (head : Nat) : Prop where
  db : DbOk setup.pageSize life.syncer.db
  bounded : ∀ key ∈ life.syncer.store, key.level ≤ maxLevel →
    key.maxTxid ≤ head + 1
  staged : ∀ (key : FileKey) (file : LtxFile),
    life.syncer.staging[key]? = some file →
    key = ⟨level0, head + 1, head + 1⟩ ∧
      (life.syncer.store[key]? = none ∨
        life.syncer.store[key]? = some file ∨
        multipartThreshold ≤ setup.encodedSize file)
  recovering : ∀ remaining, life.phase = .recovering remaining →
    ∀ key ∈ life.syncer.staging, key ∈ remaining
  running : life.phase = .running → life.syncer.pos.txid = head
  pending : life.phase = .running → ∀ staged,
    life.syncer.pending = some staged →
    staged.key = ⟨level0, head + 1, head + 1⟩ ∧ staged.newPos.txid = head + 1
  fromStaged : life.phase = .running → ∀ file,
    life.syncer.staging[life.syncer.pos.nextKey]? = some file →
    FromDraft setup life.syncer.pos prov.staged file
  fromLost : life.phase = .running → ∀ file,
    life.syncer.store[life.syncer.pos.nextKey]? = some file →
    FromDraft setup life.syncer.pos prov.lost file
  harmless : ∀ txid, life.returned ≠ some (.equivocation txid)

def Rewritten (setup : Setup) (watched : Lifetime × Provenance) : Prop :=
  ∃ head, Rewrites setup watched.1 watched.2 head

section Uploads

variable {setup : Setup}

/-- Only an upload that conflicts makes a call return an equivocation. -/
theorem State.raises_equivocation {state : State} {action : Action} {txid : Nat}
    (raised : state.raises setup action = some (.equivocation txid)) :
    ∃ staged file, state.pending = some staged ∧
      state.staging[staged.key]? = some file ∧
      uploadLtxFile setup.encodedSize state.store staged.key file =
        .error (.equivocation txid) := by
  unfold State.raises at raised
  split at raised
  · split at raised
    · obtain ⟨staged, pending, failed⟩ := Option.bind_eq_some_iff.mp raised
      unfold State.uploadStaged at failed
      cases read : State.readStaged state.staging staged.key with
      | error error =>
          rw [read, State.readStaged_error read] at failed
          cases failed
      | ok file =>
          cases put : uploadLtxFile setup.encodedSize state.store staged.key
              file with
          | ok store =>
              rw [read] at failed
              change errorOf (uploadLtxFile setup.encodedSize state.store
                staged.key file >>= _) = _ at failed
              rw [put] at failed
              cases failed
          | error error =>
              rw [read] at failed
              change errorOf (uploadLtxFile setup.encodedSize state.store
                staged.key file >>= _) = _ at failed
              rw [put] at failed
              cases failed
              exact ⟨staged, file, pending, State.readStaged_eq_ok.mp read, put⟩
    · cases raised
  · split at raised
    · cases raised
    · cases raised
  · obtain ⟨draft, _, failed⟩ := Option.bind_eq_some_iff.mp raised
    have harmless := @Draft.harmless_build setup.pageSize state.pos draft
    cases built : draft.build setup.pageSize state.pos with
    | ok result =>
        rw [built] at failed
        cases failed
    | error error =>
        rw [built] at failed
        cases failed
        exact absurd built (harmless txid)

end Uploads

/-! ## Runs -/

section Runs

variable {setup : Setup} {life next : Lifetime} {prov : Provenance}
  {event : Event} {head : Nat}

/-- The address after the head is free once the head has moved. -/
theorem Rewrites.free (rewrites : Rewrites setup life prov head)
    {txid : Nat} (beyond : head + 1 < txid) :
    life.syncer.store[(⟨level0, txid, txid⟩ : FileKey)]? = none := by
  by_contra present
  obtain ⟨file, held⟩ := Option.ne_none_iff_exists'.mp present
  have bound := rewrites.bounded _
    ((OrderedMap.mem_iff_exists _ _).mpr ⟨file, held⟩) (Nat.zero_le _)
  simp only at bound
  omega

theorem Rewrites.nextKey (rewrites : Rewrites setup life prov head)
    (isRunning : life.phase = .running) :
    life.syncer.pos.nextKey = ⟨level0, head + 1, head + 1⟩ := by
  rw [Position.nextKey, rewrites.running isRunning]

/-- What lies in the staging directory can be uploaded. -/
theorem Rewrites.put (rewrites : Rewrites setup life prov head)
    {key : FileKey} {file : LtxFile}
    (held : life.syncer.staging[key]? = some file) :
    uploadLtxFile setup.encodedSize life.syncer.store key file =
      .ok (life.syncer.store.insert key file) :=
  uploadLtxFile_harmless (rewrites.staged key file held).2

/-- Nothing else is in the staging directory. -/
theorem Rewrites.erased (rewrites : Rewrites setup life prov head)
    {key : FileKey} {file : LtxFile}
    (held : life.syncer.staging[key]? = some file) :
    life.syncer.staging.erase key = ∅ := by
  apply OrderedMap.erase_eq_empty
  intro other found inside
  rw [(rewrites.staged other found inside).1,
    (rewrites.staged key file held).1]

/-- After an upload the replica still ends at the address after the head. -/
theorem Rewrites.bounded_insert (rewrites : Rewrites setup life prov head)
    {key : FileKey} {file : LtxFile}
    (held : life.syncer.staging[key]? = some file) :
    ∀ other ∈ life.syncer.store.insert key file, other.level ≤ maxLevel →
      other.maxTxid ≤ head + 1 := by
  intro other member low
  rcases (OrderedMap.mem_insert _ _ _ _).mp member with same | old
  · rw [same, (rewrites.staged key file held).1]
  · exact rewrites.bounded other old low

/-- A lost upload leaves a staged file that the replica has, too. -/
theorem Rewrites.staged_insert (rewrites : Rewrites setup life prov head)
    {key : FileKey} {file : LtxFile}
    (held : life.syncer.staging[key]? = some file) :
    ∀ (other : FileKey) (found : LtxFile),
      life.syncer.staging[other]? = some found →
      other = ⟨level0, head + 1, head + 1⟩ ∧
        ((life.syncer.store.insert key file)[other]? = none ∨
          (life.syncer.store.insert key file)[other]? = some found ∨
          multipartThreshold ≤ setup.encodedSize found) := by
  intro other found inside
  have address := (rewrites.staged other found inside).1
  refine ⟨address, .inr (.inl ?_)⟩
  have same : other = key := by
    rw [address, (rewrites.staged key file held).1]
  subst same
  rw [held] at inside
  cases inside
  rw [ExtTreeMap.getElem?_insert_self]

/-- A step that touches neither the staging directory nor the replica. -/
theorem Rewrites.idle (rewrites : Rewrites setup life prov head)
    (db : DbOk setup.pageSize next.syncer.db)
    (store : next.syncer.store = life.syncer.store)
    (staging : next.syncer.staging = life.syncer.staging)
    (position : next.syncer.pos = life.syncer.pos)
    (phase : next.phase = life.phase ∨ next.phase = .closed)
    (pending : next.phase = .running →
      next.syncer.pending = life.syncer.pending ∨
        next.syncer.pending = none)
    (harmless : ∀ txid, next.returned ≠ some (.equivocation txid)) :
    Rewrites setup next prov head := by
  have before (isRunning : next.phase = .running) : life.phase = .running := by
    rcases phase with same | isClosed
    · rw [← same, isRunning]
    · rw [isClosed] at isRunning
      cases isRunning
  constructor
  · exact db
  · rw [store]
    exact rewrites.bounded
  · rw [store, staging]
    exact rewrites.staged
  · rw [staging]
    intro remaining isRecovering
    rcases phase with same | isClosed
    · exact rewrites.recovering remaining (same ▸ isRecovering)
    · rw [isClosed] at isRecovering
      cases isRecovering
  · rw [position]
    exact fun isRunning => rewrites.running (before isRunning)
  · intro isRunning staged waits
    rcases pending isRunning with same | free
    · exact rewrites.pending (before isRunning) staged (same ▸ waits)
    · rw [free] at waits
      cases waits
  · rw [staging, position]
    exact fun isRunning => rewrites.fromStaged (before isRunning)
  · rw [store, position]
    exact fun isRunning => rewrites.fromLost (before isRunning)
  · exact harmless

/-- The file that is staged is the one whose upload was lost, or nothing is in
its place, or it is uploaded without the guard. -/
theorem Rewrites.stage (rewrites : Rewrites setup life prov head)
    (isRunning : life.phase = .running) {draft : Draft}
    (draftOk : DbOk setup.pageSize draft.db)
    (unopposed : life.syncer.Unopposed setup prov.lost draft)
    {staged : StagedFile} {file : LtxFile}
    (built : draft.build setup.pageSize life.syncer.pos =
      .ok (some (staged, file))) :
    life.syncer.store[staged.key]? = none ∨
      life.syncer.store[staged.key]? = some file ∨
      multipartThreshold ≤ setup.encodedSize file := by
  have key : staged.key = life.syncer.pos.nextKey :=
    (Draft.build_staged built).key
  rw [key]
  rcases unopposed with free | ⟨earlier, wasLost, repeats⟩ | large
  · exact .inl free
  · cases present : life.syncer.store[life.syncer.pos.nextKey]? with
    | none => exact .inl rfl
    | some other =>
        obtain ⟨origin, before, same, originOk, firstBuilt⟩ :=
          rewrites.fromLost isRunning other present
        rw [wasLost] at same
        cases same
        rw [repeats.build setup.positive draftOk originOk, firstBuilt] at built
        cases built
        exact .inr (.inl rfl)
  · simp only [Draft.guarded, built, decide_eq_false_iff_not,
      Nat.not_lt] at large
    exact .inr (.inr large)

theorem Rewrites.inside {action : Action}
    (rewrites : Rewrites setup life prov head)
    (steady : Steady setup (life, prov) (.step action))
    (isRunning : life.phase = .running)
    (stepped : life.syncer.step setup action = some next.syncer)
    (phase : next.phase = .running)
    (returned : next.returned = life.syncer.raises setup action) :
    Rewritten setup (next, prov.after setup life (.step action)) := by
  obtain ⟨fits, unopposed⟩ := steady
  have db := (rewrites.db.step fits stepped).1
  have harmless : ∀ txid, next.returned ≠ some (.equivocation txid) := by
    intro txid raised
    rw [returned] at raised
    obtain ⟨staged, file, _, held, failed⟩ := State.raises_equivocation raised
    rw [rewrites.put held] at failed
    cases failed
  cases step_move stepped with
  | kept store staging position pending _ stages _ =>
      refine ⟨head, ?_⟩
      simp only [Provenance.after, stages, Option.none_or]
      exact rewrites.idle db store staging position
        (.inl (phase.trans isRunning.symm)) (fun _ => .inl pending) harmless
  | dropped _ _ store staging position free stages _ =>
      refine ⟨head, ?_⟩
      simp only [Provenance.after, stages, Option.none_or]
      exact rewrites.idle db store staging position
        (.inl (phase.trans isRunning.symm)) (fun _ => .inr free) harmless
  | staged draft staged file drafted stages _ built _ _ sameDb store staging
      position pending =>
      have draftOk : DbOk setup.pageSize draft.db := by
        rw [State.draft_db drafted]
        exact rewrites.db
      have stagedOk := Draft.build_staged built
      have address : staged.key = ⟨level0, head + 1, head + 1⟩ :=
        stagedOk.key.trans (rewrites.nextKey isRunning)
      refine ⟨head, ?_⟩
      simp only [Provenance.after, stages, Option.some_or]
      constructor
      · exact db
      · rw [store]
        exact rewrites.bounded
      · rw [store, staging]
        exact OrderedMap.forall_insert _ _ _
          ⟨address, rewrites.stage isRunning draftOk
            (unopposed draft drafted) built⟩ rewrites.staged
      · intro remaining isRecovering
        simp only [phase] at isRecovering
        cases isRecovering
      · rw [position]
        exact fun _ => rewrites.running isRunning
      · intro _ other waits
        rw [pending] at waits
        cases waits
        exact ⟨address, by
          rw [stagedOk.txid, rewrites.running isRunning]⟩
      · rw [staging, position]
        intro _ found held
        rw [rewrites.nextKey isRunning, ← address, OrderedMap.getElem?_insert,
          if_pos rfl] at held
        cases held
        exact ⟨draft, staged, rfl, draftOk, built⟩
      · rw [store, position]
        exact fun _ => rewrites.fromLost isRunning
      · exact harmless
  | uploaded staged file pending held sameDb store staging position free _
      stages _ =>
      obtain ⟨address, txid⟩ := rewrites.pending isRunning staged pending
      have empty := rewrites.erased held
      refine ⟨head + 1, ?_⟩
      simp only [Provenance.after, stages, Option.none_or]
      constructor
      · exact db
      · rw [store]
        exact fun other member low =>
          Nat.le_succ_of_le (rewrites.bounded_insert held other member low)
      · rw [staging, empty]
        exact fun _ _ impossible => by simp at impossible
      · rw [staging, empty]
        exact fun _ _ _ impossible => by simp at impossible
      · rw [position]
        exact fun _ => txid
      · intro _ other waits
        rw [free] at waits
        cases waits
      · rw [staging, empty]
        exact fun _ _ impossible => by simp at impossible
      · intro _ found present
        rw [store, position, Position.nextKey, txid,
          OrderedMap.getElem?_insert, if_neg, rewrites.free (by omega)]
          at present
        · cases present
        · rw [address]
          simp
      · exact harmless

theorem Rewrites.lost {key : FileKey} {file : LtxFile} {dies : Bool}
    (rewrites : Rewrites setup life prov head)
    (isRunning : life.phase = .running)
    (uploading : life.syncer.uploading = some (key, file))
    (same : ∃ mark, next.syncer =
      { life.syncer with
        store := life.syncer.taken setup key file
        mark := mark
        pc := .idle })
    (phase : next.phase = if dies then .closed else .running)
    (returned : next.returned = if dies then none else some .storage) :
    Rewrites setup next (prov.after setup life (.lost dies)) head := by
  obtain ⟨held, _⟩ := State.uploading_eq_some uploading
  have put := rewrites.put held
  have took : life.syncer.took setup = true := by
    simp only [State.took, uploading, put]
  have taken : life.syncer.taken setup key file =
      life.syncer.store.insert key file :=
    State.taken_eq (rewrites.staged key file held).2
  have address : key = life.syncer.pos.nextKey :=
    (rewrites.staged key file held).1.trans (rewrites.nextKey isRunning).symm
  obtain ⟨mark, same⟩ := same
  rw [taken] at same
  simp only [Provenance.after, took, if_true]
  constructor
  · rw [same]
    exact rewrites.db
  · rw [same]
    exact rewrites.bounded_insert held
  · rw [same]
    exact rewrites.staged_insert held
  · intro remaining isRecovering
    rw [phase] at isRecovering
    cases dies with
    | false => cases isRecovering
    | true => cases isRecovering
  · rw [same]
    exact fun _ => rewrites.running isRunning
  · rw [same]
    exact fun _ _ impossible => by cases impossible
  · rw [same]
    exact fun _ => rewrites.fromStaged isRunning
  · rw [same]
    intro _ found present
    simp only [address] at present
    rw [ExtTreeMap.getElem?_insert_self] at present
    cases present
    rw [address] at held
    exact rewrites.fromStaged isRunning file held
  · rw [returned]
    intro txid impossible
    cases dies with
    | false => cases impossible
    | true => cases impossible

/-- While no syncer is open the provenance does not matter. -/
theorem Rewrites.forget {later : Provenance}
    (rewrites : Rewrites setup life prov head)
    (stopped : life.phase ≠ .running) : Rewrites setup life later head :=
  { rewrites with
    fromStaged := fun isRunning => absurd isRunning stopped
    fromLost := fun isRunning => absurd isRunning stopped }

theorem Rewrites.of_stopped (stopped : next.phase ≠ .running)
    (db : DbOk setup.pageSize next.syncer.db)
    (bounded : ∀ key ∈ next.syncer.store, key.level ≤ maxLevel →
      key.maxTxid ≤ head + 1)
    (staged : ∀ (key : FileKey) (file : LtxFile),
      next.syncer.staging[key]? = some file →
      key = ⟨level0, head + 1, head + 1⟩ ∧
        (next.syncer.store[key]? = none ∨
          next.syncer.store[key]? = some file ∨
          multipartThreshold ≤ setup.encodedSize file))
    (recovering : ∀ remaining, next.phase = .recovering remaining →
      ∀ key ∈ next.syncer.staging, key ∈ remaining)
    (harmless : ∀ txid, next.returned ≠ some (.equivocation txid)) :
    Rewrites setup next prov head where
  db := db
  bounded := bounded
  staged := staged
  recovering := recovering
  running isRunning := absurd isRunning stopped
  pending isRunning := absurd isRunning stopped
  fromStaged isRunning := absurd isRunning stopped
  fromLost isRunning := absurd isRunning stopped
  harmless := harmless

theorem Rewrites.opened {later : Provenance}
    (rewrites : Rewrites setup life prov head)
    (same : next.syncer = life.syncer)
    (phase : next.phase = .recovering (recoverOrder life.entries))
    (returned : next.returned = none) :
    Rewrites setup next later head := by
  apply Rewrites.of_stopped
  · rw [phase]
    exact fun impossible => by cases impossible
  · rw [same]
    exact rewrites.db
  · rw [same]
    exact rewrites.bounded
  · rw [same]
    exact rewrites.staged
  · rw [same]
    intro remaining isRecovering key inside
    rw [phase] at isRecovering
    cases isRecovering
    exact mem_recoverOrder.mpr inside
  · rw [returned]
    exact fun _ impossible => by cases impossible

theorem Rewrites.recovered {key : FileKey} {rest : List FileKey}
    {file : LtxFile} {store : Store}
    {later : Provenance} (rewrites : Rewrites setup life prov head)
    (held : life.syncer.staging[key]? = some file)
    (put : uploadLtxFile setup.encodedSize life.syncer.store key file =
      .ok store)
    (same : next.syncer =
      { life.syncer with
        store := store
        staging := life.syncer.staging.erase key })
    (phase : next.phase = .recovering rest) (returned : next.returned = none) :
    Rewrites setup next later head := by
  rw [rewrites.put held] at put
  cases put
  rw [rewrites.erased held] at same
  apply Rewrites.of_stopped
  · rw [phase]
    exact fun impossible => by cases impossible
  · rw [same]
    exact rewrites.db
  · rw [same]
    exact rewrites.bounded_insert held
  · rw [same]
    exact fun _ _ impossible => by simp at impossible
  · rw [same]
    exact fun _ _ _ impossible => by simp at impossible
  · rw [returned]
    exact fun _ impossible => by cases impossible

theorem Rewrites.recoverLost {key : FileKey} {file : LtxFile}
    {later : Provenance} (rewrites : Rewrites setup life prov head)
    (held : life.syncer.staging[key]? = some file)
    (same : next.syncer = State.halt
      { life.syncer with store := life.syncer.taken setup key file })
    (phase : next.phase = .closed)
    (returned : next.returned = some .storage) :
    Rewrites setup next later head := by
  rw [State.taken_eq (rewrites.staged key file held).2] at same
  apply Rewrites.of_stopped
  · rw [phase]
    exact fun impossible => by cases impossible
  · rw [same]
    exact rewrites.db
  · rw [same]
    exact rewrites.bounded_insert held
  · rw [same]
    exact rewrites.staged_insert held
  · intro remaining isRecovering
    rw [phase] at isRecovering
    cases isRecovering
  · rw [returned]
    exact fun _ impossible => by cases impossible

/-- An open syncer starts where the listing ends, with nothing staged. -/
theorem Rewrites.resumed {modified : FileKey → Int} {pos : Position}
    {later : Provenance} (rewrites : Rewrites setup life prov head)
    (wasRecovering : life.phase = .recovering [])
    (derived : derivePosition
      (listedFiles modified (listAllLtx life.syncer.store))
      life.syncer.store = .ok pos)
    (store : next.syncer.store = life.syncer.store)
    (staging : next.syncer.staging = life.syncer.staging)
    (db : next.syncer.db = life.syncer.db)
    (position : next.syncer.pos = pos)
    (idle : next.syncer.pc = .idle)
    (phase : next.phase = .running)
    (returned : next.returned = none) :
    Rewrites setup next later pos.txid := by
  have bounds := derivePosition_bounds derived
  have unstaged (key : FileKey) : next.syncer.staging[key]? = none := by
    by_contra present
    obtain ⟨file, held⟩ := Option.ne_none_iff_exists'.mp present
    rw [staging] at held
    exact absurd (rewrites.recovering [] wasRecovering key
      ((OrderedMap.mem_iff_exists _ _).mpr ⟨file, held⟩)) List.not_mem_nil
  constructor
  · rw [db]
    exact rewrites.db
  · rw [store]
    exact fun key member low => Nat.le_succ_of_le (bounds key member low)
  · intro key file held
    rw [unstaged key] at held
    cases held
  · intro remaining isRecovering
    rw [phase] at isRecovering
    cases isRecovering
  · rw [position]
    exact fun _ => rfl
  · intro _ staged waits
    rw [State.pending_idle idle] at waits
    cases waits
  · intro _ file held
    rw [unstaged] at held
    cases held
  · intro _ file present
    rw [store, position] at present
    have bound := bounds _ ((OrderedMap.mem_iff_exists _ _).mpr ⟨file, present⟩)
      (Nat.zero_le _)
    simp only [Position.nextKey] at bound
    omega
  · rw [returned]
    exact fun _ impossible => by cases impossible

theorem Rewrites.outside {action : Action}
    (rewrites : Rewrites setup life prov head)
    (steady : Steady setup (life, prov) (.step action))
    (foreign : action.foreign = true)
    (stepped : life.syncer.step setup action = some next.syncer)
    (same : ∃ db, next.syncer = { life.syncer with db := db })
    (phase : next.phase = life.phase) (returned : next.returned = none) :
    Rewrites setup next (prov.after setup life (.step action)) head := by
  have db := (rewrites.db.step steady.1 stepped).1
  obtain ⟨image, same⟩ := same
  have stages : life.syncer.stages setup action = none := by
    cases action with
    | commit restart salt2 txn => rfl
    | appCheckpoint frames => rfl
    | appTruncate => rfl
    | _ => cases foreign
  simp only [Provenance.after, stages, Option.none_or]
  apply rewrites.idle db
  · rw [same]
  · rw [same]
  · rw [same]
  · exact .inl phase
  · rw [same]
    exact fun _ => .inl rfl
  · rw [returned]
    exact fun _ impossible => by cases impossible

theorem Rewrites.step (rewrites : Rewrites setup life prov head)
    (steady : Steady setup (life, prov) event)
    (stepped : life.step setup event = some next) :
    Rewritten setup (next, prov.after setup life event) := by
  cases step_lifeMove stepped with
  | outside action happened foreign done same phase returned =>
      subst happened
      exact ⟨head, rewrites.outside steady foreign done same phase returned⟩
  | inside action happened isRunning done phase returned =>
      subst happened
      exact rewrites.inside steady isRunning done phase returned
  | lost dies key file happened isRunning uploading same phase returned =>
      subst happened
      exact ⟨head, rewrites.lost isRunning uploading same phase returned⟩
  | closed _ _ same phase harmless =>
      have stopped : next.phase ≠ .running := by
        rw [phase]
        exact fun impossible => by cases impossible
      have kept : Rewrites setup next prov head := by
        apply rewrites.idle _ _ _ _ (.inr phase)
          (fun isRunning => absurd isRunning stopped) harmless
        · rw [same]
          exact rewrites.db
        · rw [same]
          rfl
        · rw [same]
          rfl
        · rw [same]
          rfl
      exact ⟨head, kept.forget stopped⟩
  | opened _ _ _ same phase returned =>
      exact ⟨head, rewrites.opened same phase returned⟩
  | recovered key rest file store _ _ wasRecovering held put same phase
      returned =>
      exact ⟨head, rewrites.recovered held put same phase returned⟩
  | recoverLost key rest file _ _ wasRecovering held same phase returned =>
      exact ⟨head, rewrites.recoverLost held same phase returned⟩
  | refused key rest file error wasRecovering held put same phase returned =>
      rw [rewrites.put held] at put
      cases put
  | resumed modified pos _ wasRecovering derived store staging db position
      idle phase returned =>
      exact ⟨pos.txid, rewrites.resumed wasRecovering derived store staging db
        position idle phase returned⟩

theorem Fresh.rewrites (fresh : Fresh setup life) :
    Rewrites setup life prov (headTxid (listAllLtx life.syncer.store)) := by
  apply Rewrites.of_stopped
  · rw [fresh.closed]
    exact fun impossible => by cases impossible
  · exact fresh.db
  · exact fun key member low => Nat.le_succ_of_le (maxTxid_le_headTxid
      (mem_listAllLtx.mpr ⟨(OrderedMap.mem_iff_exists _ _).mp member, low⟩))
  · rw [fresh.staging]
    exact fun _ _ impossible => by simp at impossible
  · rw [fresh.staging]
    exact fun _ _ _ impossible => by simp at impossible
  · rw [fresh.returned]
    exact fun _ impossible => by cases impossible

/-- A writer that only repeats its lost uploads never meets an equivocation. -/
theorem retries_never_equivocate (fresh : Fresh setup life)
    {final : Lifetime × Provenance}
    (run : Reaches (watchedStep setup) (Steady setup) (life, .none) final)
    (txid : Nat) : final.1.returned ≠ some (.equivocation txid) := by
  have rewritten : Rewritten setup final := by
    apply run.invariant ⟨_, fresh.rewrites⟩
    rintro ⟨state, origin⟩ event next ⟨head, rewrites⟩ steady stepped
    obtain ⟨after, done, rfl⟩ := Option.map_eq_some_iff.mp stepped
    exact rewrites.step steady done
  obtain ⟨head, rewrites⟩ := rewritten
  exact rewrites.harmless txid

/-- A small file from another millisecond conflicts with the one whose upload
was lost. -/
theorem late_draft_conflicts {pos : Position} {draft earlier : Draft}
    {staged first : StagedFile} {file other : LtxFile} {store : Store}
    (built : draft.build setup.pageSize pos = .ok (some (staged, file)))
    (before : earlier.build setup.pageSize pos = .ok (some (first, other)))
    (late : draft.now ≠ earlier.now)
    (small : setup.encodedSize file < multipartThreshold)
    (present : store[pos.nextKey]? = some other) :
    uploadLtxFile setup.encodedSize store staged.key file =
      .error (.equivocation (pos.txid + 1)) := by
  have different : other ≠ file := by
    intro same
    apply late
    rw [← Draft.build_timestamp built, ← Draft.build_timestamp before, same]
  have key : staged.key = pos.nextKey := (Draft.build_staged built).key
  rw [key]
  simp only [uploadLtxFile, if_neg (Nat.not_le.mpr small), putLtxCas, present,
    if_neg different]
  rfl

end Runs

/-! ## A retry in a later millisecond -/

/-- Commits are whole transactions. -/
def Lifetime.Fits (setup : Setup) (life : Lifetime) : Event → Prop
  | .step action => life.syncer.Fits setup action
  | _ => True

section Decisions

variable {setup : Setup}

instance (life : Lifetime) (event : Event) :
    Decidable (life.Fits setup event) := by
  unfold Lifetime.Fits
  split
  · infer_instance
  · infer_instance

instance (state : State) (lost : Option Draft) (draft : Draft) :
    Decidable (state.Unopposed setup lost draft) :=
  decidable_of_iff (state.store[state.pos.nextKey]?.isNone = true ∨
      (∃ earlier ∈ lost, draft.Repeats setup.pageSize earlier) ∨
      draft.guarded setup state.pos = false)
    (or_congr Option.isNone_iff_eq_none Iff.rfl)

instance (watched : Lifetime × Provenance) (event : Event) :
    Decidable (Steady setup watched event) :=
  match watched, event with
  | (life, prov), .step action =>
      inferInstanceAs (Decidable (life.syncer.Fits setup action ∧
        ∀ draft ∈ life.syncer.draft setup action,
          life.syncer.Unopposed setup prov.lost draft))
  | (_, _), .lost _ => .isTrue trivial
  | (_, _), .crash _ => .isTrue trivial
  | (_, _), .openSyncer => .isTrue trivial
  | (_, _), .recover _ => .isTrue trivial
  | (_, _), .resume _ _ => .isTrue trivial

end Decisions

theorem newLife_fresh : Fresh smallSetup newLife where
  db := quietState_opened.db
  closed := rfl
  staging := rfl
  returned := rfl

/-- The upload of a sync is lost; the retry comes a millisecond later. -/
def lateRetry : List Event :=
  [.step (commitPage 1 1), .openSyncer, .resume true (fun _ => 0),
    .step (.sync 1), .lost false, .step (.sync 2), .step (.upload true 2)]

def reopening : List Event :=
  [.crash none, .openSyncer, .recover .done]

theorem late_retry_equivocates :
    ∃ setup start retried reopened, Fresh setup start ∧
      Reaches (Lifetime.step setup) (Lifetime.Fits setup) start retried ∧
      retried.returned = some (.equivocation 1) ∧
      Reaches (Lifetime.step setup) (Lifetime.Fits setup) retried reopened ∧
      reopened.returned = some (.equivocation 1) := by
  have ran : ∃ retried ∈ execGuarded (Lifetime.step smallSetup)
        (Lifetime.Fits smallSetup) newLife lateRetry,
      retried.returned = some (.equivocation 1) ∧
      ∃ reopened ∈ execGuarded (Lifetime.step smallSetup)
          (Lifetime.Fits smallSetup) retried reopening,
        reopened.returned = some (.equivocation 1) := by
    decide +kernel
  obtain ⟨retried, first, raised, reopened, second, again⟩ := ran
  exact ⟨smallSetup, newLife, retried, reopened, newLife_fresh,
    reaches_of_execGuarded first, raised, reaches_of_execGuarded second, again⟩

/-- A retry in the same millisecond, a reopen that finds its file in the replica,
and more commits. -/
def promptRetry : List Event :=
  [.step (commitPage 1 1), .openSyncer, .resume true (fun _ => 0),
    .step (.sync 1), .lost false, .step (.sync 1), .lost true, .openSyncer,
    .recover .lost, .openSyncer, .recover .done, .resume true (fun _ => 0),
    .step (commitPage 2 2), .step (.sync 3), .step (.upload true 3)]

theorem retries_never_equivocate_prompt :
    ∃ final ∈ execGuarded (watchedStep smallSetup) (Steady smallSetup)
        (newLife, .none) promptRetry,
      ∀ txid, final.1.returned ≠ some (.equivocation txid) := by
  have runs : ∃ final, execGuarded (watchedStep smallSetup) (Steady smallSetup)
      (newLife, .none) promptRetry = some final :=
    Option.isSome_iff_exists.mp (by decide +kernel)
  obtain ⟨final, ran⟩ := runs
  exact ⟨final, ran,
    retries_never_equivocate newLife_fresh (reaches_of_execGuarded ran)⟩

end Literstream
