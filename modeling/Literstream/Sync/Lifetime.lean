import Mathlib.Data.List.Sort
import Literstream.Levels.Listing
import Literstream.Storage.Writers
import Literstream.Sync.Checkpoints

/-!
# Runs with crashes and reopens

A lifetime holds what the steps of an open syncer work on, and where the process
is.  Opening uploads what lies in the staging directory, lists the replica,
derives the position and takes the read mark; the process may die at any step,
and other connections go on while it is down.
-/

namespace Literstream

open Std

/-- A name in the staging directory. -/
inductive StagingEntry where
  | ltx (key : FileKey)
  | tmp (key : FileKey)
deriving DecidableEq, Repr

def StagingEntry.ltx? : StagingEntry → Option FileKey
  | .ltx key => some key
  | .tmp _ => none

/-- The order of recovery: ascending by TXID. -/
def FileKey.RecoversBefore (left right : FileKey) : Prop :=
  left.minTxid < right.minTxid ∨ left.minTxid = right.minTxid ∧
    (left.maxTxid < right.maxTxid ∨ left.maxTxid = right.maxTxid ∧
      left.level ≤ right.level)

instance : DecidableRel FileKey.RecoversBefore :=
  fun _ _ => inferInstanceAs (Decidable (_ ∨ _))

/-- What `recover_staging` uploads: the finished files. -/
def recoverOrder (entries : List StagingEntry) : List FileKey :=
  (entries.filterMap StagingEntry.ltx?).insertionSort FileKey.RecoversBefore

/-- The file index of a listing with modification times. -/
def listedFiles (modified : FileKey → Int) (keys : List FileKey) : FileIndex :=
  keys.foldl (fun files key => files.insert key (some (modified key))) ∅

/-- The last of the files with the largest `maxTxid`. -/
def newestFile (files : List LtxFileInfo) : Option LtxFileInfo :=
  files.foldl (fun newest file =>
    match newest with
    | none => some file
    | some best =>
        if best.maxTxid ≤ file.maxTxid then some file else some best) none

/-- The TXID is the largest of all levels; the rest of the position comes from
the newest L0 file. -/
def derivePosition (files : FileIndex) (store : Store) :
    Except SyncError Position :=
  if files.allLevels = [] then .ok .default
  else
    match newestFile (files.list level0) with
    | none => .ok
        { txid := headTxid files.allLevels
          walOffset := 0
          salt1 := 0
          salt2 := 0
          syncedToWalEnd := false }
    | some newest => do
        let file ← getLtx store newest.toFileKey
        return {
          txid := headTxid files.allLevels
          walOffset := file.header.walOffset + file.header.walSize
          salt1 := file.header.walSalt1
          salt2 := file.header.walSalt2
          syncedToWalEnd := false }

def defaultMinCheckpointFrames : Nat := 1000

def defaultTruncateFrames : Nat := 121359

/-- No process runs, or `Syncer::open` has these staged files still to upload,
or the syncer is open. -/
inductive Phase where
  | closed
  | recovering (remaining : List FileKey)
  | running
deriving DecidableEq, Repr

structure Lifetime where
  syncer : State
  phase : Phase
  /-- The half-written files in the staging directory. -/
  drafts : List FileKey
  /-- The error that the last step made its call return. -/
  returned : Option SyncError

inductive Event where
  /-- A step of the open syncer, or of another connection. -/
  | step (action : Action)
  /-- The store takes the upload of the running call and reports an error, or
  the process dies before it removes the staged file. -/
  | lost (dies : Bool)
  /-- The process dies, maybe in the middle of writing a file to stage. -/
  | crash (draft : Option FileKey)
  | openSyncer
  | recover (reply : Reply)
  | resume (ok : Bool) (modified : FileKey → Int)

/-- Other connections take these steps. -/
def Action.foreign : Action → Bool
  | .commit _ _ _ => true
  | .appCheckpoint _ => true
  | .appTruncate => true
  | _ => false

def errorOf {α : Type} : Except SyncError α → Option SyncError
  | .ok _ => none
  | .error error => some error

namespace State

/-- The error with which a step ends the running call, if it does. -/
def raises (setup : Setup) (state : State) : Action → Option SyncError
  | .upload ok now =>
      if ok then
        state.pending.bind fun staged =>
          errorOf (state.uploadStaged setup staged now)
      else some .storage
  | .bump ok _ _ _ => if ok then none else some .db
  | action =>
      (state.draft setup action).bind fun draft =>
        errorOf (draft.build setup.pageSize state.pos)

def read (state : State) (key : FileKey) : Option (FileKey × LtxFile) :=
  state.staging[key]?.map fun file => (key, file)

/-- The file that the running call is uploading. -/
def uploading (state : State) : Option (FileKey × LtxFile) :=
  match state.pc with
  | .syncUpload staged => state.read staged.key
  | .upload _ staged _ => state.read staged.key
  | .catchUp staged => state.read staged.key
  | _ => none

/-- The store accepts what the running call uploads. -/
def took (setup : Setup) (state : State) : Bool :=
  match state.uploading with
  | some (key, file) =>
      match uploadLtxFile setup.encodedSize state.store key file with
      | .ok _ => true
      | .error _ => false
  | none => false

/-- The replica once the store has handled an upload. -/
def taken (setup : Setup) (state : State) (key : FileKey) (file : LtxFile) :
    Store :=
  match uploadLtxFile setup.encodedSize state.store key file with
  | .ok store => store
  | .error _ => state.store

/-- The process ends: its read mark and its variables are gone. -/
def halt (state : State) : State :=
  { state with mark := .released, pc := .idle }

end State

namespace Lifetime

def entries (life : Lifetime) : List StagingEntry :=
  life.syncer.staging.keys.map .ltx ++ life.drafts.map .tmp

/-- What a step adds to the replica. -/
def puts (setup : Setup) (life : Lifetime) :
    Event → Option (FileKey × LtxFile)
  | .step action => life.syncer.puts setup action
  | .lost _ => if life.syncer.took setup then life.syncer.uploading else none
  | .recover .failed => none
  | .recover _ =>
      match life.phase with
      | .recovering (key :: _) =>
          (life.syncer.read key).filter fun entry =>
            match uploadLtxFile setup.encodedSize life.syncer.store entry.1
                entry.2 with
            | .ok _ => true
            | .error _ => false
      | _ => none
  | _ => none

/-- No process runs any more. -/
def close (life : Lifetime) (returned : Option SyncError) : Lifetime :=
  { life with
    syncer := life.syncer.halt
    phase := .closed
    returned := returned }

/-- Upload the next staged file of a recovery. -/
def recoverNext (setup : Setup) (life : Lifetime) (key : FileKey)
    (rest : List FileKey) (reply : Reply) : Lifetime :=
  match State.readStaged life.syncer.staging key with
  | .error error => life.close (some error)
  | .ok file =>
      match reply with
      | .failed => life.close (some .storage)
      | .lost =>
          { life with
            syncer :=
              { life.syncer with store := life.syncer.taken setup key file }
            }.close (some .storage)
      | _ =>
          match uploadLtxFile setup.encodedSize life.syncer.store key file with
          | .error error => life.close (some error)
          | .ok store =>
              { life with
                syncer :=
                  { life.syncer with
                    store := store
                    staging := life.syncer.staging.erase key }
                phase := .recovering rest
                returned := none }

/-- List the replica, derive the position and take the read mark. -/
def resume (life : Lifetime) (modified : FileKey → Int) : Lifetime :=
  match derivePosition
      (listedFiles modified (listAllLtx life.syncer.store))
      life.syncer.store with
  | .error error => life.close (some error)
  | .ok pos =>
      { life with
        syncer := State.acquireReadLock
          { life.syncer with
            mark := .released
            files := listedFiles modified (listAllLtx life.syncer.store)
            pos := pos
            minCheckpointFrames := defaultMinCheckpointFrames
            truncateFrames := defaultTruncateFrames
            resnapshots := 0
            pc := .idle }
        phase := .running
        returned := none }

/-- One step; a renamed file is no draft any more. -/
def step (setup : Setup) (life : Lifetime) : Event → Option Lifetime
  | .step action =>
      if action.foreign ∨ life.phase = .running then
        (life.syncer.step setup action).map fun syncer =>
          { life with
            syncer := syncer
            drafts := life.drafts.filter fun key =>
              (syncer.pending.map StagedFile.key) ≠ some key
            returned := life.syncer.raises setup action }
      else none
  | .lost dies =>
      match life.phase, life.syncer.uploading with
      | .running, some (key, file) =>
          let syncer :=
            { life.syncer with
              store := life.syncer.taken setup key file
              pc := .idle }
          if dies then some ({ life with syncer := syncer }.close none)
          else some { life with syncer := syncer, returned := some .storage }
      | _, _ => none
  | .crash draft =>
      if life.phase = .running ∨ life.phase ≠ .closed ∧ draft = none then
        some ({ life with drafts := draft.toList ++ life.drafts }.close none)
      else none
  | .openSyncer =>
      if life.phase = .closed then
        some
          { life with
            phase := .recovering (recoverOrder life.entries)
            drafts := []
            returned := none }
      else none
  | .recover reply =>
      match life.phase with
      | .recovering (key :: rest) =>
          some (life.recoverNext setup key rest reply)
      | _ => none
  | .resume ok modified =>
      match life.phase with
      | .recovering [] =>
          if ok then some (life.resume modified)
          else some (life.close (some .storage))
      | _ => none

end Lifetime

section Uploads

variable {setup : Setup} {store : Store} {key : FileKey} {file : LtxFile}

/-- Only another small file at the address makes an upload fail. -/
theorem uploadLtxFile_harmless
    (kept : store[key]? = none ∨ store[key]? = some file ∨
      multipartThreshold ≤ setup.encodedSize file) :
    uploadLtxFile setup.encodedSize store key file =
      .ok (store.insert key file) := by
  rcases kept with fresh | same | large
  · exact uploadLtxFile_of_fresh fresh
  · have done := @uploadLtxFile_of_same setup.encodedSize store key file same
    exact done.trans (congrArg Except.ok (uploadLtxFile_eq_ok done))
  · unfold uploadLtxFile
    rw [if_pos large]
    rfl

/-- Once it is in the store, an upload repeats itself. -/
theorem State.taken_eq {state : State}
    (kept : state.store[key]? = none ∨ state.store[key]? = some file ∨
      multipartThreshold ≤ setup.encodedSize file) :
    state.taken setup key file = state.store.insert key file := by
  unfold State.taken
  rw [uploadLtxFile_harmless kept]

theorem State.uploading_eq_some {state : State}
    (uploading : state.uploading = some (key, file)) :
    state.staging[key]? = some file ∧
      ∃ staged, state.pending = some staged ∧ staged.key = key := by
  have read : ∀ staged : StagedFile,
      state.read staged.key = some (key, file) →
      state.staging[key]? = some file ∧ staged.key = key := by
    intro staged found
    obtain ⟨held, present, same⟩ := Option.map_eq_some_iff.mp found
    cases same
    exact ⟨present, rfl⟩
  unfold State.uploading at uploading
  split at uploading
  · rename_i staged running
    obtain ⟨held, rfl⟩ := read staged uploading
    exact ⟨held, staged, by rw [State.pending, running], rfl⟩
  · rename_i cycle staged result running
    obtain ⟨held, rfl⟩ := read staged uploading
    exact ⟨held, staged, by rw [State.pending, running], rfl⟩
  · rename_i staged running
    obtain ⟨held, rfl⟩ := read staged uploading
    exact ⟨held, staged, by rw [State.pending, running], rfl⟩
  · cases uploading

end Uploads

/-! ## The listing after a recovery -/

section Listings

theorem mem_recoverOrder {life : Lifetime} {key : FileKey} :
    key ∈ recoverOrder life.entries ↔ key ∈ life.syncer.staging := by
  unfold recoverOrder Lifetime.entries
  rw [List.mem_insertionSort, List.mem_filterMap]
  constructor
  · rintro ⟨entry, member, finished⟩
    rcases List.mem_append.mp member with staged | draft
    · obtain ⟨other, inside, rfl⟩ := List.mem_map.mp staged
      cases finished
      exact ExtTreeMap.mem_keys.mp inside
    · obtain ⟨other, _, rfl⟩ := List.mem_map.mp draft
      cases finished
  · intro inside
    exact ⟨.ltx key, List.mem_append_left _
      (List.mem_map_of_mem (ExtTreeMap.mem_keys.mpr inside)), rfl⟩

theorem mem_listedFiles {modified : FileKey → Int} {keys : List FileKey}
    {key : FileKey} : key ∈ listedFiles modified keys ↔ key ∈ keys := by
  have loop : ∀ files : FileIndex,
      key ∈ keys.foldl (fun files key =>
        files.insert key (some (modified key))) files ↔
        key ∈ keys ∨ key ∈ files := by
    induction keys with
    | nil => simp
    | cons head rest ih =>
        intro files
        rw [List.foldl_cons, ih, OrderedMap.mem_insert, List.mem_cons,
          or_left_comm, or_assoc]
  rw [listedFiles, loop]
  simp

theorem derivePosition_txid {files : FileIndex} {store : Store}
    {pos : Position} (derived : derivePosition files store = .ok pos) :
    pos.txid = headTxid files.allLevels := by
  unfold derivePosition at derived
  split at derived
  · rename_i empty
    cases derived
    rw [empty]
    rfl
  · split at derived
    · cases derived
      rfl
    · obtain ⟨file, _, done⟩ := bind_eq_ok.mp derived
      cases done
      rfl

/-- No listed file ends beyond the derived position. -/
theorem derivePosition_bounds {modified : FileKey → Int} {store : Store}
    {pos : Position}
    (derived : derivePosition (listedFiles modified (listAllLtx store)) store =
      .ok pos) :
    ∀ key ∈ store, key.level ≤ maxLevel → key.maxTxid ≤ pos.txid := by
  intro key member low
  rw [derivePosition_txid derived]
  apply maxTxid_le_headTxid
  apply ExtTreeMap.mem_keys.mpr
  exact mem_listedFiles.mpr (mem_listAllLtx.mpr
    ⟨(OrderedMap.mem_iff_exists _ _).mp member, low⟩)

end Listings

/-- A database that was never replicated, and no process. -/
def newLife : Lifetime where
  syncer := (quietState 2).halt
  phase := .closed
  drafts := []
  returned := none

/-! ## What a step does -/

section Lives

variable {setup : Setup} {life next : Lifetime} {event : Event}

/-- How a step treats the staging directory, the replica and the process. -/
inductive LifeMove (setup : Setup) (life : Lifetime) (event : Event)
    (next : Lifetime) : Prop where
  | outside (action : Action) (happened : event = .step action)
      (foreign : action.foreign = true)
      (stepped : life.syncer.step setup action = some next.syncer)
      (same : ∃ db, next.syncer = { life.syncer with db := db })
      (phase : next.phase = life.phase)
      (returned : next.returned = none)
  | inside (action : Action) (happened : event = .step action)
      (isRunning : life.phase = .running)
      (stepped : life.syncer.step setup action = some next.syncer)
      (phase : next.phase = .running)
      (returned : next.returned = life.syncer.raises setup action)
  | lost (dies : Bool) (key : FileKey) (file : LtxFile)
      (happened : event = .lost dies)
      (isRunning : life.phase = .running)
      (uploading : life.syncer.uploading = some (key, file))
      (same : ∃ mark, next.syncer =
        { life.syncer with
          store := life.syncer.taken setup key file
          mark := mark
          pc := .idle })
      (phase : next.phase = if dies then .closed else .running)
      (returned : next.returned = if dies then none else some .storage)
  | closed (calm : ∀ action, event ≠ .step action)
      (puts : life.puts setup event = none)
      (same : next.syncer = life.syncer.halt)
      (phase : next.phase = .closed)
      (harmless : ∀ txid, next.returned ≠ some (.equivocation txid))
  | opened (calm : ∀ action, event ≠ .step action)
      (puts : life.puts setup event = none)
      (wasClosed : life.phase = .closed)
      (same : next.syncer = life.syncer)
      (phase : next.phase = .recovering (recoverOrder life.entries))
      (returned : next.returned = none)
  | recovered (key : FileKey) (rest : List FileKey) (file : LtxFile)
      (store : Store)
      (calm : ∀ action, event ≠ .step action)
      (puts : life.puts setup event = some (key, file))
      (wasRecovering : life.phase = .recovering (key :: rest))
      (held : life.syncer.staging[key]? = some file)
      (put : uploadLtxFile setup.encodedSize life.syncer.store key file =
        .ok store)
      (same : next.syncer =
        { life.syncer with
          store := store
          staging := life.syncer.staging.erase key })
      (phase : next.phase = .recovering rest)
      (returned : next.returned = none)
  | recoverLost (key : FileKey) (rest : List FileKey) (file : LtxFile)
      (calm : ∀ action, event ≠ .step action)
      (puts : ∀ store,
        uploadLtxFile setup.encodedSize life.syncer.store key file =
          .ok store → life.puts setup event = some (key, file))
      (wasRecovering : life.phase = .recovering (key :: rest))
      (held : life.syncer.staging[key]? = some file)
      (same : next.syncer = State.halt
        { life.syncer with store := life.syncer.taken setup key file })
      (phase : next.phase = .closed)
      (returned : next.returned = some .storage)
  | refused (key : FileKey) (rest : List FileKey) (file : LtxFile)
      (error : SyncError)
      (wasRecovering : life.phase = .recovering (key :: rest))
      (held : life.syncer.staging[key]? = some file)
      (put : uploadLtxFile setup.encodedSize life.syncer.store key file =
        .error error)
      (same : next.syncer = life.syncer.halt)
      (phase : next.phase = .closed)
      (returned : next.returned = some error)
  | resumed (modified : FileKey → Int) (pos : Position)
      (happened : event = .resume true modified)
      (wasRecovering : life.phase = .recovering [])
      (derived : derivePosition
        (listedFiles modified (listAllLtx life.syncer.store))
        life.syncer.store = .ok pos)
      (store : next.syncer.store = life.syncer.store)
      (staging : next.syncer.staging = life.syncer.staging)
      (db : next.syncer.db = life.syncer.db)
      (position : next.syncer.pos = pos)
      (idle : next.syncer.pc = .idle)
      (phase : next.phase = .running)
      (returned : next.returned = none)

theorem State.step_foreign {state after : State} {action : Action}
    (foreign : action.foreign = true)
    (stepped : state.step setup action = some after) :
    (∃ db, after = { state with db := db }) ∧
      state.raises setup action = none := by
  cases action with
  | commit restart salt2 txn =>
      obtain ⟨db, _, rfl⟩ := Option.map_eq_some_iff.mp stepped
      exact ⟨⟨db, rfl⟩, rfl⟩
  | appCheckpoint frames =>
      simp only [State.step] at stepped
      split at stepped
      · cases stepped
        exact ⟨⟨_, rfl⟩, rfl⟩
      · cases stepped
  | appTruncate =>
      simp only [State.step] at stepped
      split at stepped
      · cases stepped
      · cases stepped
        exact ⟨⟨_, rfl⟩, rfl⟩
  | _ => cases foreign

theorem State.readStaged_error {staging : Store} {key : FileKey}
    {error : SyncError}
    (missing : State.readStaged staging key = .error error) : error = .io := by
  unfold State.readStaged at missing
  split at missing
  · cases missing
  · cases missing
    rfl

theorem derivePosition_cases (files : FileIndex) (store : Store) :
    (∃ pos, derivePosition files store = .ok pos) ∨
      derivePosition files store = .error .storage := by
  unfold derivePosition
  split
  · exact .inl ⟨_, rfl⟩
  · split
    · exact .inl ⟨_, rfl⟩
    · rename_i newest _
      unfold getLtx
      cases store[newest.toFileKey]? with
      | none => exact .inr rfl
      | some file => exact .inl ⟨_, rfl⟩

theorem recoverNext_move {key : FileKey} {rest : List FileKey}
    (reply : Reply) (wasRecovering : life.phase = .recovering (key :: rest)) :
    LifeMove setup life (.recover reply)
      (life.recoverNext setup key rest reply) := by
  have calm : ∀ action, Event.recover reply ≠ .step action :=
    fun _ impossible => by cases impossible
  unfold Lifetime.recoverNext
  cases read : State.readStaged life.syncer.staging key with
  | error error =>
      obtain rfl := State.readStaged_error read
      have missing : life.syncer.staging[key]? = none := by
        by_contra present
        obtain ⟨file, held⟩ := Option.ne_none_iff_exists'.mp present
        rw [State.readStaged_eq_ok.mpr held] at read
        cases read
      have puts : life.puts setup (.recover reply) = none := by
        cases reply with
        | failed => rfl
        | _ => simp [Lifetime.puts, wasRecovering, State.read, missing]
      exact .closed calm puts rfl rfl fun _ impossible => by cases impossible
  | ok file =>
      have held := State.readStaged_eq_ok.mp read
      have puts (took : reply ≠ .failed) : ∀ store,
          uploadLtxFile setup.encodedSize life.syncer.store key file =
            .ok store →
          life.puts setup (.recover reply) = some (key, file) := by
        intro store put
        cases reply with
        | failed => exact absurd rfl took
        | _ => simp [Lifetime.puts, wasRecovering, State.read, held, put]
      have put (took : reply ≠ .failed) : LifeMove setup life (.recover reply)
          (match uploadLtxFile setup.encodedSize life.syncer.store key file with
          | .error error => life.close (some error)
          | .ok store =>
              { life with
                syncer :=
                  { life.syncer with
                    store := store
                    staging := life.syncer.staging.erase key }
                phase := .recovering rest
                returned := none }) := by
        cases put : uploadLtxFile setup.encodedSize life.syncer.store key
            file with
        | error error =>
            exact .refused key rest file error wasRecovering held put rfl rfl
              rfl
        | ok store =>
            exact .recovered key rest file store calm (puts took store put)
              wasRecovering held put rfl rfl rfl
      cases reply with
      | failed =>
          exact .closed calm rfl rfl rfl fun _ impossible => by cases impossible
      | lost =>
          exact .recoverLost key rest file calm
            (puts fun impossible => by cases impossible) wasRecovering held rfl
            rfl rfl
      | done => exact put fun impossible => by cases impossible
      | repeated => exact put fun impossible => by cases impossible

theorem resume_move (modified : FileKey → Int)
    (wasRecovering : life.phase = .recovering []) :
    LifeMove setup life (.resume true modified) (life.resume modified) := by
  unfold Lifetime.resume
  rcases derivePosition_cases
      (listedFiles modified (listAllLtx life.syncer.store))
      life.syncer.store with ⟨pos, derived⟩ | failed
  · rw [derived]
    dsimp only
    obtain ⟨mark, held⟩ := State.acquireReadLock_eq
      { life.syncer with
        mark := .released
        files := listedFiles modified (listAllLtx life.syncer.store)
        pos := pos
        minCheckpointFrames := defaultMinCheckpointFrames
        truncateFrames := defaultTruncateFrames
        resnapshots := 0
        pc := .idle }
    rw [held]
    exact .resumed modified pos rfl wasRecovering derived rfl rfl rfl rfl rfl
      rfl rfl
  · rw [failed]
    exact .closed (fun _ impossible => by cases impossible) rfl rfl rfl
      fun _ impossible => by cases impossible

theorem step_lifeMove (stepped : life.step setup event = some next) :
    LifeMove setup life event next := by
  cases event with
  | step action =>
      simp only [Lifetime.step] at stepped
      split at stepped
      · rename_i allowed
        obtain ⟨syncer, done, rfl⟩ := Option.map_eq_some_iff.mp stepped
        by_cases foreign : action.foreign = true
        · obtain ⟨same, returned⟩ := State.step_foreign foreign done
          exact .outside action rfl foreign done same rfl returned
        · exact .inside action rfl (allowed.resolve_left foreign) done
            (allowed.resolve_left foreign) rfl
      · cases stepped
  | lost dies =>
      simp only [Lifetime.step] at stepped
      split at stepped
      · rename_i key file isRunning uploading
        cases dies with
        | false =>
            cases stepped
            exact .lost false key file rfl isRunning uploading ⟨_, rfl⟩
              isRunning rfl
        | true =>
            cases stepped
            exact .lost true key file rfl isRunning uploading ⟨_, rfl⟩ rfl rfl
      · cases stepped
  | crash draft =>
      simp only [Lifetime.step] at stepped
      split at stepped
      · cases stepped
        exact .closed (fun _ impossible => by cases impossible) rfl rfl rfl
          fun _ impossible => by cases impossible
      · cases stepped
  | openSyncer =>
      simp only [Lifetime.step] at stepped
      split at stepped
      · rename_i wasClosed
        cases stepped
        exact .opened (fun _ impossible => by cases impossible) rfl wasClosed
          rfl rfl rfl
      · cases stepped
  | recover reply =>
      simp only [Lifetime.step] at stepped
      split at stepped
      · rename_i key rest wasRecovering
        cases stepped
        exact recoverNext_move reply wasRecovering
      · cases stepped
  | resume ok modified =>
      simp only [Lifetime.step] at stepped
      split at stepped
      · rename_i wasRecovering
        cases ok with
        | true =>
            cases stepped
            exact resume_move modified wasRecovering
        | false =>
            cases stepped
            exact .closed (fun _ impossible => by cases impossible) rfl rfl rfl
              fun _ impossible => by cases impossible
      · cases stepped

end Lives

end Literstream
