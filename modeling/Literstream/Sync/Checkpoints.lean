import Literstream.Sync.Follows

/-!
# Checkpoints without failures

The read mark is released around a PRAGMA, and what other connections do there
is noticed only through the number of frames that the PRAGMA reports.  A run
whose WAL generations are only discarded when that is safe keeps the replica
complete; a write that slips in before the PRAGMA may be lost.
-/

namespace Literstream

open Std PagedFile Machine

namespace State

/-- Syncs and PASSIVE checkpoints, commits and checkpoints of other
connections, and no failures. -/
def PassiveCalls (setup : Setup) (state : State) (action : Action) : Prop :=
  state.Fits setup action ∧ action.fails = false ∧
    match action with
    | .checkpointIfNeeded _ =>
        liveWalFrames setup state.pos < state.truncateFrames
    | .checkpointNow _ mode => mode = .passive
    | _ => True

/-- Syncs and TRUNCATE checkpoints, commits of other connections, and no
failures. -/
def TruncateCalls (setup : Setup) (state : State) (action : Action) : Prop :=
  state.Fits setup action ∧ action.fails = false ∧
    match action with
    | .checkpointIfNeeded _ =>
        liveWalFrames setup state.pos ≥ state.truncateFrames ∨
          liveWalFrames setup state.pos < state.minCheckpointFrames
    | .checkpointNow _ _ => False
    | .appCheckpoint _ => False
    | .appTruncate => False
    | _ => True

instance (setup : Setup) (state : State) (action : Action) :
    Decidable (state.Fits setup action) :=
  inferInstanceAs (Decidable (∀ op ∈ action.dbOp,
    op.Fits setup.pageSize state.db))

instance (pageSize : Nat) (pos : Position) (db : Sqlite) :
    Decidable (AtEnd pageSize pos db) :=
  inferInstanceAs (Decidable (∀ wal ∈ db.wal,
    wal.captured pageSize pos = wal.frames.length))

instance (setup : Setup) (state : State) :
    Decidable (state.DiscardSafe setup) :=
  inferInstanceAs (Decidable (_ ∨ _ ∨ _))

instance (setup : Setup) (state : State) (action : Action) :
    Decidable (state.Careful setup action) :=
  inferInstanceAs (Decidable (∀ op ∈ action.dbOp,
    op.discards = true → state.DiscardSafe setup))

instance (setup : Setup) (state : State) (action : Action) :
    Decidable (state.PassiveCalls setup action) := by
  unfold PassiveCalls
  cases action <;> infer_instance

instance (setup : Setup) (state : State) (action : Action) :
    Decidable (state.TruncateCalls setup action) := by
  unfold TruncateCalls
  cases action <;> infer_instance

end State

section Runs

variable {setup : Setup} {start state final : State} {image : Bytes}

/-- A run that discards WAL frames only when that is safe stays on the
database. -/
theorem Opened.careful_run {guard : State → Action → Prop}
    (opened : Opened setup start image)
    (allowed : ∀ state action, guard state action →
      state.Fits setup action ∧ action.fails = false)
    (run : Reaches (State.step setup)
      (fun state action => guard state action ∧ state.Careful setup action)
      start state) :
    Followed setup state := by
  have followed : Followed setup start := ⟨image, image, opened.follows⟩
  apply run.invariant followed
  rintro state action next ⟨image, target, follows⟩ ⟨guarded, careful⟩ stepped
  obtain ⟨fits, succeeds⟩ := allowed state action guarded
  exact follows.step fits careful succeeds stepped

/-- A run of single steps, as far as it goes. -/
def drainedRun (setup : Setup) (guard : State → Action → Prop)
    [∀ state action, Decidable (guard state action)] (start : State)
    (actions : List Action) (times : List Int) : Option (State × State) :=
  (execGuarded (State.step setup) guard start actions).bind fun state =>
    if state.pc = .idle then
      (state.flush setup times).map fun final => (state, final)
    else none

theorem drainedRun_eq_some {guard : State → Action → Prop}
    [∀ state action, Decidable (guard state action)] {actions : List Action}
    {times : List Int}
    (ran : drainedRun setup guard start actions times = some (state, final)) :
    Reaches (State.step setup) guard start state ∧ state.pc = .idle ∧
      state.flush setup times = some final := by
  obtain ⟨middle, executed, ran⟩ := Option.bind_eq_some_iff.mp ran
  split at ran
  · rename_i idle
    obtain ⟨drained, flushed, same⟩ := Option.map_eq_some_iff.mp ran
    cases same
    exact ⟨reaches_of_execGuarded executed, idle, flushed⟩
  · cases ran

theorem passive_run_restores (opened : Opened setup start image)
    (run : Reaches (State.step setup) (fun state action =>
      state.PassiveCalls setup action ∧ state.Careful setup action)
      start state)
    (idle : state.pc = .idle) {times : List Int}
    (flushed : state.flush setup times = some final) :
    restore final.store =
      .ok (state.db.committedImage setup.pageSize) := by
  obtain ⟨_, _, follows⟩ := opened.careful_run
    (fun _ _ calls => ⟨calls.1, calls.2.1⟩) run
  exact follows.flush idle flushed

theorem truncate_run_restores (opened : Opened setup start image)
    (run : Reaches (State.step setup) (fun state action =>
      state.TruncateCalls setup action ∧ state.Careful setup action)
      start state)
    (idle : state.pc = .idle) {times : List Int}
    (flushed : state.flush setup times = some final) :
    restore final.store =
      .ok (state.db.committedImage setup.pageSize) := by
  obtain ⟨_, _, follows⟩ := opened.careful_run
    (fun _ _ calls => ⟨calls.1, calls.2.1⟩) run
  exact follows.flush idle flushed

end Runs

/-! ## A write before the PRAGMA -/

def smallSetup : Setup where
  pageSize := 512
  sized := by decide
  encodedSize := fun file => 100 + 520 * file.pages.length

/-- A new database of zero pages and a syncer on an empty replica. -/
def quietState (pages : Nat) : State where
  db :=
    { main := List.replicate (pages * 512) 0
      wal := none
      backfill := 0
      lastSalt1 := 0 }
  mark := .mainOnly
  staging := ∅
  store := ∅
  files := ∅
  pos := .default
  minCheckpointFrames := 1
  truncateFrames := 2
  resnapshots := 0
  pc := .idle

/-- A commit of one page to a database of two pages. -/
def commitPage (pgno : Nat) (byte : UInt8) : Action :=
  .commit false 7 [⟨pgno, 2, List.replicate 512 byte⟩]

theorem quietState_opened : Opened smallSetup (quietState 2) [] where
  idle := rfl
  db :=
    { main := ⟨by decide +kernel, by decide +kernel⟩
      frames := .nil
      spans := by
        intro pgno inside
        have none_ : pgno ≤ 0 := inside
        intro _ _
        exact Nat.le_trans none_ (Nat.zero_le _)
      backfill := Nat.le_refl _
      folded := fun _ => rfl
      salts := fun _ impossible => by cases impossible }
  replica := restores_empty 512
  salts := Nat.le_refl _
  resumes := .inl rfl

/-- The run that `truncate_loses_commit` is about: a commit lands after the mark
is released, and the TRUNCATE checkpoint drops its frame. -/
def racedTruncate : Option (State × State) :=
  drainedRun smallSetup (State.TruncateCalls smallSetup) (quietState 2)
    [commitPage 1 1, commitPage 1 2, .sync 0, .upload true 0, .checkpointIfNeeded 0,
      .release, commitPage 1 3, .pragma .truncated, .acquire, .overFold 0] [0]

theorem truncate_loses_commit :
    ∃ setup start image state times final,
      Opened setup start image ∧
      Reaches (State.step setup) (State.TruncateCalls setup) start state ∧
      state.pc = .idle ∧ state.flush setup times = some final ∧
      restore final.store ≠
        .ok (state.db.committedImage setup.pageSize) := by
  have lost : ∃ result ∈ racedTruncate, restore result.2.store ≠
      .ok (result.1.db.committedImage smallSetup.pageSize) := by
    decide +kernel
  obtain ⟨⟨state, final⟩, ran, lost⟩ := lost
  obtain ⟨run, idle, flushed⟩ := drainedRun_eq_some ran
  exact ⟨smallSetup, quietState 2, [], state, _, final, quietState_opened, run,
    idle, flushed, lost⟩

/-- The same calls without the commit in the gap. -/
def carefulTruncate : Option (State × State) :=
  drainedRun smallSetup
    (fun state action => state.TruncateCalls smallSetup action ∧
      state.Careful smallSetup action) (quietState 2)
    [commitPage 1 1, commitPage 1 2, .sync 0, .upload true 0,
      .checkpointIfNeeded 0, .release, .pragma .truncated, .acquire,
      .overFold 0, commitPage 2 3] [0, 0]

theorem truncate_run_restores_careful :
    ∃ result ∈ carefulTruncate, restore result.2.store =
      .ok (result.1.db.committedImage smallSetup.pageSize) := by
  have runs : ∃ result, carefulTruncate = some result :=
    Option.isSome_iff_exists.mp (by decide +kernel)
  obtain ⟨⟨state, final⟩, ran⟩ := runs
  obtain ⟨run, idle, flushed⟩ := drainedRun_eq_some ran
  exact ⟨(state, final), ran,
    truncate_run_restores quietState_opened run idle flushed⟩

/-- The run that `passive_loses_commit` is about: another connection folds a
fresh frame and restarts the WAL before the PRAGMA, whose count belongs to the
new generation. -/
def racedPassive : Option (State × State) :=
  drainedRun smallSetup (State.PassiveCalls smallSetup) (quietState 2)
    [commitPage 1 1, .sync 0, .upload true 0, .checkpointNow 0 .passive,
      .release, commitPage 2 2, .appCheckpoint 2,
      .commit true 7 [⟨1, 2, List.replicate 512 3⟩], .pragma (.copied 1),
      .acquire, .overFold 0] [0, 0]

theorem passive_loses_commit :
    ∃ setup start image state times final,
      Opened setup start image ∧
      Reaches (State.step setup) (State.PassiveCalls setup) start state ∧
      state.pc = .idle ∧ state.flush setup times = some final ∧
      restore final.store ≠
        .ok (state.db.committedImage setup.pageSize) := by
  have lost : ∃ result ∈ racedPassive, restore result.2.store ≠
      .ok (result.1.db.committedImage smallSetup.pageSize) := by
    decide +kernel
  obtain ⟨⟨state, final⟩, ran, lost⟩ := lost
  obtain ⟨run, idle, flushed⟩ := drainedRun_eq_some ran
  exact ⟨smallSetup, quietState 2, [], state, _, final, quietState_opened, run,
    idle, flushed, lost⟩

/-- A frame folded in the gap is noticed as long as its generation lives. -/
def noticedPassive : Option (State × State) :=
  drainedRun smallSetup
    (fun state action => state.PassiveCalls smallSetup action ∧
      state.Careful smallSetup action) (quietState 2)
    [commitPage 1 1, .sync 0, .upload true 0, .checkpointNow 0 .passive,
      .release, commitPage 2 2, .appCheckpoint 2, .pragma (.copied 2),
      .commit true 7 [⟨1, 2, List.replicate 512 3⟩], .acquire, .overFold 0,
      .upload true 0] [0, 0]

theorem passive_run_restores_noticed :
    ∃ result ∈ noticedPassive, restore result.2.store =
      .ok (result.1.db.committedImage smallSetup.pageSize) := by
  have runs : ∃ result, noticedPassive = some result :=
    Option.isSome_iff_exists.mp (by decide +kernel)
  obtain ⟨⟨state, final⟩, ran⟩ := runs
  obtain ⟨run, idle, flushed⟩ := drainedRun_eq_some ran
  exact ⟨(state, final), ran,
    passive_run_restores quietState_opened run idle flushed⟩

end Literstream
