import Literstream.Levels.Replication
import Literstream.Sync.Keeps
import Literstream.Sync.Lifetime

/-!
# The file index mirrors the store

Nothing lists the store again once a syncer is open.  Every upload and every
deletion changes the index with the store, also in a call that fails later.
-/

namespace Literstream

open Fallible

/-! ## Calls that rearrange the replica -/

/-- The index holds the addresses of the objects of the levels `0..=9`. -/
def Mirrors (files : FileIndex) (store : Store) : Prop :=
  ∀ key, key ∈ files ↔ key ∈ store ∧ key.level ≤ maxLevel

def Levels.Mirrored (state : Levels) : Prop := Mirrors state.files state.store

theorem Mirrors.insert {files : FileIndex} {store : Store} {key : FileKey}
    (mirrors : Mirrors files store) (low : key.level ≤ maxLevel)
    (createdAt : Option Int) (file : LtxFile) :
    Mirrors (files.insert key createdAt) (store.insert key file) := by
  intro other
  rw [OrderedMap.mem_insert, OrderedMap.mem_insert, mirrors other]
  constructor
  · rintro (rfl | ⟨held, level⟩)
    · exact ⟨.inl rfl, low⟩
    · exact ⟨.inr held, level⟩
  · rintro ⟨rfl | held, level⟩
    · exact .inl rfl
    · exact .inr ⟨held, level⟩

theorem Mirrors.erase {files : FileIndex} {store : Store}
    (mirrors : Mirrors files store) (key : FileKey) :
    Mirrors (files.erase key) (store.erase key) := by
  intro other
  rw [OrderedMap.mem_erase, OrderedMap.mem_erase, mirrors other]
  exact and_assoc.symm

/-- An opened syncer indexes what it lists. -/
theorem mirrors_listed (modified : FileKey → Int) (store : Store) :
    Mirrors (listedFiles modified (listAllLtx store)) store := by
  intro key
  rw [mem_listedFiles, mem_listAllLtx, OrderedMap.mem_iff_exists]

theorem Same.mirrored {start state : Levels} (same : Same start state)
    (mirrored : start.Mirrored) : state.Mirrored := by
  unfold Levels.Mirrored
  rw [same.files, same.store]
  exact mirrored

/-- A call after which the index still mirrors the store. -/
def KeepsMirror {α : Type} (call : Call α) : Prop :=
  Holds Levels.Mirrored call (fun _ => Levels.Mirrored) Levels.Mirrored

section Calls

variable {α β : Type}

/-- A call that is described from a known start keeps the mirror if each of its
ends does. -/
theorem keepsMirror_of_spec {call : Call α} {post : Levels → α → Levels → Prop}
    {failed : Levels → Levels → Prop}
    (spec : ∀ start, Holds (Same start) call (post start) (failed start))
    (success : ∀ start value final, start.Mirrored → post start value final →
      final.Mirrored)
    (failure : ∀ start final, start.Mirrored → failed start final →
      final.Mirrored) : KeepsMirror call :=
  holds_of_start Same.refl fun start mirrored =>
    (spec start).weaken (fun _ same => same)
      (fun value final => success start value final mirrored)
      (fun final => failure start final mirrored)

theorem KeepsMirror.bind {first : Call α} {next : α → Call β}
    (head : KeepsMirror first) (tail : ∀ value, KeepsMirror (next value)) :
    KeepsMirror (first >>= next) :=
  Holds.bind head tail

theorem keepsMirror_pure (value : α) : KeepsMirror (pure value : Call α) :=
  holds_pure fun _ mirrored => mirrored

theorem keepsMirror_ofExcept (result : Except SyncError α) :
    KeepsMirror (ofExcept result : Call α) :=
  holds_ofExcept (fun _ _ _ mirrored => mirrored) fun _ mirrored => mirrored

theorem keepsMirror_current : KeepsMirror (current : Call Levels) :=
  holds_current.weaken (fun _ mirrored => mirrored)
    (fun _ _ reached => reached.2) fun _ mirrored => mirrored

theorem keepsMirror_fetchLtx (key : FileKey) : KeepsMirror (fetchLtx key) :=
  keepsMirror_of_spec (fun start => fetchLtx_spec start key)
    (fun _ _ _ mirrored reached => reached.2.mirrored mirrored)
    fun _ _ mirrored same => same.mirrored mirrored

theorem keepsMirror_collect {body : α → Call β}
    (each : ∀ item, KeepsMirror (body item)) (items : List α) :
    KeepsMirror (collect body items) := by
  induction items with
  | nil => exact keepsMirror_pure []
  | cons item rest ih =>
      apply (each item).bind
      intro value
      exact ih.bind fun values => keepsMirror_pure (value :: values)

theorem keepsMirror_forEach {body : α → Call Unit}
    (each : ∀ item, KeepsMirror (body item)) (items : List α) :
    KeepsMirror (forEach body items) :=
  holds_forEach (fun _ => Levels.Mirrored) (fun item _ => each item) items

/-- A deletion that fails leaves the object and its entry. -/
theorem keepsMirror_deleteFile (file : LtxFileInfo) :
    KeepsMirror (deleteFile file) :=
  keepsMirror_of_spec (fun start => deleteFile_spec start file)
    (fun _ _ _ mirrored same =>
      same.mirrored (Mirrors.erase mirrored file.toFileKey))
    fun _ _ mirrored same => same.mirrored mirrored

theorem keepsMirror_uploadMerged (clock : Int) {key : FileKey} (file : LtxFile)
    (low : key.level ≤ maxLevel) : KeepsMirror (uploadMerged clock key file) :=
  keepsMirror_of_spec (fun start => uploadMerged_spec start clock key file)
    (fun _ _ _ mirrored same =>
      same.mirrored (Mirrors.insert mirrored low (some clock) file))
    fun _ _ mirrored same => same.mirrored mirrored

theorem keepsMirror_compactAndUpload (clock : Int) {key : FileKey}
    (inputs : List LtxFile) (low : key.level ≤ maxLevel) :
    KeepsMirror (compactAndUpload clock key inputs) :=
  (keepsMirror_ofExcept _).bind fun merged =>
    keepsMirror_uploadMerged clock merged low

theorem keepsMirror_compactLevel (clock : Int) (dstLevel : Nat) :
    KeepsMirror (compactLevel clock dstLevel) := by
  unfold compactLevel
  split
  · exact keepsMirror_ofExcept _
  · rename_i cascade
    have low : dstLevel ≤ maxLevel := by
      unfold snapshotLevel at cascade
      unfold maxLevel
      omega
    apply keepsMirror_current.bind
    intro state
    dsimp only
    split
    · apply (keepsMirror_collect (fun _ => keepsMirror_fetchLtx _) _).bind
      intro inputs
      exact (keepsMirror_compactAndUpload clock inputs low).bind
        fun _ => keepsMirror_pure _
    · exact keepsMirror_pure none

theorem keepsMirror_snapshot (clock : Int) : KeepsMirror (snapshot clock) := by
  apply keepsMirror_current.bind
  intro state
  split
  · exact keepsMirror_pure none
  · dsimp only
    split
    · exact keepsMirror_pure none
    · apply (keepsMirror_ofExcept _).bind
      intro plan
      apply (keepsMirror_collect keepsMirror_fetchLtx plan).bind
      intro inputs
      split
      · exact keepsMirror_pure none
      · apply (keepsMirror_ofExcept _).bind
        intro merged
        exact (keepsMirror_uploadMerged clock merged (Nat.le_refl _)).bind
          fun _ => keepsMirror_pure _

theorem keepsMirror_compact (clock : Int) : KeepsMirror (compact clock) := by
  apply keepsMirror_current.bind
  intro state
  dsimp only
  split
  · exact keepsMirror_pure none
  · apply (keepsMirror_collect (fun _ => keepsMirror_fetchLtx _) _).bind
    intro inputs
    apply (keepsMirror_compactAndUpload clock inputs (Nat.le_refl _)).bind
    intro _
    apply (keepsMirror_forEach keepsMirror_deleteFile _).bind
    intro _
    exact (keepsMirror_forEach keepsMirror_deleteFile _).bind
      fun _ => keepsMirror_pure _

theorem keepsMirror_enforceRetentionByTxid (level txid : Nat) :
    KeepsMirror (enforceRetentionByTxid level txid) := by
  apply keepsMirror_current.bind
  intro state
  exact (keepsMirror_forEach keepsMirror_deleteFile _).bind
    fun _ => keepsMirror_pure _

theorem keepsMirror_enforceSnapshotRetention (now : Int)
    (retention highest : Nat) :
    KeepsMirror (enforceSnapshotRetention now retention highest) := by
  apply keepsMirror_current.bind
  intro state
  apply (keepsMirror_forEach keepsMirror_deleteFile _).bind
  intro _
  split
  · apply Holds.bind _ fun _ => keepsMirror_pure _
    apply keepsMirror_forEach
    exact fun level => (keepsMirror_enforceRetentionByTxid level _).bind
      fun _ => keepsMirror_pure ()
  · exact keepsMirror_pure _

theorem keepsMirror_enforceL0Retention (now : Int) (retention : Nat) :
    KeepsMirror (enforceL0Retention now retention) := by
  unfold enforceL0Retention
  split
  · exact keepsMirror_pure 0
  · apply keepsMirror_current.bind
    intro state
    exact (keepsMirror_forEach keepsMirror_deleteFile _).bind
      fun _ => keepsMirror_pure _

end Calls

/-! ## Steps of a syncer -/

/-- A step changes the index only with the store, by the file it uploads. -/
inductive IndexMove (state next : State) : Prop where
  | kept (same : SameReplica state next)
  | uploaded (staged : StagedFile) (file : LtxFile) (now : Int)
      (pending : state.pending = some staged)
      (files : next.files = state.files.insert staged.key (some now))
      (store : next.store = state.store.insert staged.key file)

namespace State

variable {setup : Setup} {state next : State} {action : Action}

theorem step_index (stepped : state.step setup action = some next) :
    IndexMove state next := by
  cases step_touches stepped with
  | nothing keeps => exact .kept keeps.toSameReplica
  | limits _ _ _ replica => exact .kept replica
  | replica staged file now pending files store =>
      exact .uploaded staged file now pending files store

/-- The file to upload is an L0 file. -/
def PendingRaw (state : State) : Prop :=
  ∀ staged, state.pending = some staged → staged.key.level = level0

theorem PendingRaw.step (raw : state.PendingRaw)
    (stepped : state.step setup action = some next) : next.PendingRaw := by
  intro staged later
  cases step_move stepped with
  | kept _ _ _ pending => exact raw staged (pending ▸ later)
  | staged draft built file _ _ _ done _ _ _ _ _ _ pending =>
      rw [pending] at later
      cases later
      rw [(Draft.build_staged done).key]
  | uploaded _ _ _ _ _ _ _ _ free =>
      rw [free] at later
      cases later
  | dropped _ _ _ _ _ free =>
      rw [free] at later
      cases later

end State

/-! ## Runs of a writer -/

/-- The calls of an open syncer that rearrange the replica. -/
inductive Upkeep where
  | compact (clock : Int)
  | compactLevel (clock : Int) (dstLevel : Nat)
  | snapshot (clock : Int)
  | enforceSnapshotRetention (now : Int) (retention maxLevel : Nat)
  | enforceRetentionByTxid (level txid : Nat)
  | enforceL0Retention (now : Int) (retention : Nat)

def Upkeep.run : Upkeep → Call Unit
  | .compact clock => effect (Literstream.compact clock)
  | .compactLevel clock dstLevel =>
      effect (Literstream.compactLevel clock dstLevel)
  | .snapshot clock => effect (Literstream.snapshot clock)
  | .enforceSnapshotRetention now retention maxLevel =>
      effect (Literstream.enforceSnapshotRetention now retention maxLevel)
  | .enforceRetentionByTxid level txid =>
      effect (Literstream.enforceRetentionByTxid level txid)
  | .enforceL0Retention now retention =>
      effect (Literstream.enforceL0Retention now retention)

inductive WriterEvent where
  | life (event : Event)
  /-- A call that rearranges the replica, and which of its store operations
  fail. -/
  | upkeep (faults : List Bool) (call : Upkeep)

/-- A failed store operation had no effect. -/
def WriterEvent.failsCleanly : WriterEvent → Bool
  | .life (.lost dies) => dies
  | _ => true

namespace Lifetime

/-- What the rearranging calls work on. -/
def levels (life : Lifetime) (faults : List Bool) : Levels where
  store := life.syncer.store
  files := life.syncer.files
  txid := life.syncer.pos.txid
  faults := faults

def upkeep (life : Lifetime) (faults : List Bool) (call : Upkeep) :
    Lifetime :=
  let ended := call.run (life.levels faults)
  { life with
    syncer :=
      { life.syncer with
        store := ended.2.store
        files := ended.2.files }
    returned := errorOf ended.1 }

def writerStep (setup : Setup) (life : Lifetime) :
    WriterEvent → Option Lifetime
  | .life event => life.step setup event
  | .upkeep faults call =>
      if life.phase = .running ∧ life.syncer.pc = .idle then
        some (life.upkeep faults call)
      else none

/-- An open syncer mirrors the store, and only L0 files are on their way. -/
structure Indexed (life : Lifetime) : Prop where
  mirrors : life.phase = .running →
    Mirrors life.syncer.files life.syncer.store
  raw : life.phase = .running → life.syncer.PendingRaw

theorem indexed_of_not_running {life : Lifetime}
    (down : life.phase ≠ .running) : life.Indexed :=
  ⟨fun up => absurd up down, fun up => absurd up down⟩

end Lifetime

theorem keepsMirror_effect {α : Type} {call : Call α}
    (keeps : KeepsMirror call) : KeepsMirror (effect call) :=
  keeps.bind fun _ => keepsMirror_pure ()

theorem keepsMirror_upkeep (call : Upkeep) : KeepsMirror call.run := by
  cases call with
  | compact clock => exact keepsMirror_effect (keepsMirror_compact clock)
  | compactLevel clock dstLevel =>
      exact keepsMirror_effect (keepsMirror_compactLevel clock dstLevel)
  | snapshot clock => exact keepsMirror_effect (keepsMirror_snapshot clock)
  | enforceSnapshotRetention now retention highest =>
      exact keepsMirror_effect
        (keepsMirror_enforceSnapshotRetention now retention highest)
  | enforceRetentionByTxid level txid =>
      exact keepsMirror_effect (keepsMirror_enforceRetentionByTxid level txid)
  | enforceL0Retention now retention =>
      exact keepsMirror_effect (keepsMirror_enforceL0Retention now retention)

section Runs

variable {setup : Setup} {life next : Lifetime}

theorem Lifetime.Indexed.upkeep (indexed : life.Indexed)
    (isOpen : life.phase = .running) (faults : List Bool) (call : Upkeep) :
    (life.upkeep faults call).Indexed where
  mirrors _ := (keepsMirror_upkeep call).final (indexed.mirrors isOpen)
  raw _ := indexed.raw isOpen

theorem Lifetime.indexed_resume (modified : FileKey → Int) :
    (life.resume modified).Indexed := by
  unfold Lifetime.resume
  split
  · exact indexed_of_not_running (fun up => by cases up)
  · rename_i pos _
    obtain ⟨mark, held⟩ := State.acquireReadLock_eq
      { life.syncer with
        mark := .released
        files := listedFiles modified (listAllLtx life.syncer.store)
        pos := pos
        minCheckpointFrames := defaultMinCheckpointFrames
        truncateFrames := defaultTruncateFrames
        resnapshots := 0
        pc := .idle }
    rw [held]
    exact ⟨fun _ => mirrors_listed modified life.syncer.store,
      fun _ _ idle => by cases idle⟩

theorem Mirrors.step {state after : State} {action : Action}
    (mirrors : Mirrors state.files state.store) (raw : state.PendingRaw)
    (stepped : state.step setup action = some after) :
    Mirrors after.files after.store := by
  cases State.step_index stepped with
  | kept same =>
      rw [same.files, same.store]
      exact mirrors
  | uploaded staged file now pending files store =>
      rw [files, store]
      apply mirrors.insert _ (some now) file
      rw [raw staged pending]
      exact Nat.zero_le _

theorem Lifetime.Indexed.of_step {action : Action} (indexed : life.Indexed)
    (stepped : life.syncer.step setup action = some next.syncer)
    (phase : next.phase = life.phase) : next.Indexed where
  mirrors up :=
    (indexed.mirrors (phase ▸ up)).step (indexed.raw (phase ▸ up)) stepped
  raw up := (indexed.raw (phase ▸ up)).step stepped

theorem Lifetime.Indexed.step {event : Event} (indexed : life.Indexed)
    (clean : (WriterEvent.life event).failsCleanly = true)
    (stepped : life.step setup event = some next) : next.Indexed := by
  cases step_lifeMove stepped with
  | outside _ _ _ done _ phase _ => exact indexed.of_step done phase
  | inside _ _ isRunning done phase _ =>
      exact indexed.of_step done (phase.trans isRunning.symm)
  | lost dies key file happened _ _ _ phase _ =>
      cases dies with
      | false =>
          subst happened
          cases clean
      | true => exact indexed_of_not_running (by rw [phase]; simp)
  | closed _ _ _ phase _ => exact indexed_of_not_running (by rw [phase]; simp)
  | opened _ _ _ _ phase _ => exact indexed_of_not_running (by rw [phase]; simp)
  | recovered _ _ _ _ _ _ _ _ _ _ phase _ =>
      exact indexed_of_not_running (by rw [phase]; simp)
  | recoverLost _ _ _ _ _ _ _ _ phase _ =>
      exact indexed_of_not_running (by rw [phase]; simp)
  | refused _ _ _ _ _ _ _ _ phase _ =>
      exact indexed_of_not_running (by rw [phase]; simp)
  | resumed modified pos happened wasRecovering _ _ _ _ _ _ _ _ =>
      subst happened
      rw [Lifetime.step, wasRecovering] at stepped
      cases stepped
      exact indexed_resume modified

theorem Lifetime.Indexed.writerStep {event : WriterEvent}
    (indexed : life.Indexed) (clean : event.failsCleanly = true)
    (stepped : life.writerStep setup event = some next) : next.Indexed := by
  cases event with
  | life event => exact indexed.step clean stepped
  | upkeep faults call =>
      simp only [Lifetime.writerStep] at stepped
      split at stepped
      · rename_i isOpen
        cases stepped
        exact indexed.upkeep isOpen.1 faults call
      · cases stepped

/-- As long as failed store operations have no effect, the index of an open
syncer holds exactly the objects of the levels `0..=9`. -/
theorem index_matches_store {start : Lifetime}
    (closed : start.phase = .closed)
    (run : Machine.Reaches (Lifetime.writerStep setup)
      (fun _ event => event.failsCleanly = true) start life)
    (isOpen : life.phase = .running) :
    ∀ key, key ∈ life.syncer.files ↔
      key ∈ life.syncer.store ∧ key.level ≤ maxLevel := by
  have indexed : life.Indexed := by
    apply run.invariant
    · exact Lifetime.indexed_of_not_running (by rw [closed]; simp)
    · exact fun _ _ _ indexed clean stepped => indexed.writerStep clean stepped
  exact indexed.mirrors isOpen

end Runs

/-! ## A retention that stops half-way -/

/-- Three L0 files, of which one is uploaded at the second try, a compaction,
and a retention whose second deletion fails. -/
def halfPruned : List WriterEvent :=
  [.life .openSyncer, .life (.resume true fun _ => 0),
    .life (.step (commitPage 1 1)), .life (.step (.sync 0)),
    .life (.step (.upload true 0)), .life (.step (commitPage 2 2)),
    .life (.step (.sync 0)), .life (.step (.upload false 0)),
    .life (.step (.sync 0)), .life (.step (.upload true 0)),
    .life (.step (commitPage 1 3)), .life (.step (.sync 0)),
    .life (.step (.upload true 0)), .upkeep [] (.compactLevel 0 1),
    .upkeep [false, true] (.enforceL0Retention 10 1)]

theorem index_matches_store_halfPruned :
    ∃ final ∈ Machine.execGuarded (Lifetime.writerStep smallSetup)
        (fun _ event => event.failsCleanly = true) newLife halfPruned,
      final.phase = .running ∧ final.returned = some .storage ∧
      ∀ key, key ∈ final.syncer.files ↔
        key ∈ final.syncer.store ∧ key.level ≤ maxLevel := by
  have runs : ∃ final ∈ Machine.execGuarded (Lifetime.writerStep smallSetup)
        (fun _ event => event.failsCleanly = true) newLife halfPruned,
      final.phase = .running ∧ final.returned = some .storage := by
    decide +kernel
  obtain ⟨final, ran, isOpen, failed⟩ := runs
  exact ⟨final, ran, isOpen, failed,
    index_matches_store rfl (Machine.reaches_of_execGuarded ran) isOpen⟩

end Literstream
