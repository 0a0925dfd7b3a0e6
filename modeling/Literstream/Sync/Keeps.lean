import Literstream.Sync.Effects

/-!
# What a step leaves alone

Only an upload changes the replica, and only tuning sets the thresholds.
-/

namespace Literstream

structure SameReplica (state next : State) : Prop where
  files : next.files = state.files
  store : next.store = state.store

/-- The thresholds are those of the start. -/
structure SameLimits (state next : State) : Prop where
  min : next.minCheckpointFrames = state.minCheckpointFrames
  truncate : next.truncateFrames = state.truncateFrames

/-- What a call keeps between its uploads. -/
structure Keeps (state next : State) : Prop extends
  SameReplica state next, SameLimits state next

/-- What a step changes of the replica and the thresholds. -/
inductive Touches (state : State) (action : Action) (next : State) : Prop where
  | nothing (keeps : Keeps state next)
  | limits (minCheckpointFrames truncateFrames : Nat)
      (tunes : action = .tune minCheckpointFrames truncateFrames)
      (replica : SameReplica state next)
  | replica (staged : StagedFile) (file : LtxFile) (now : Int)
      (pending : state.pending = some staged)
      (files : next.files = state.files.insert staged.key (some now))
      (store : next.store = state.store.insert staged.key file)
      (limits : SameLimits state next)

namespace State

variable {setup : Setup} {state next : State} {action : Action}

theorem acquireReadLock_keeps (state : State) :
    Keeps state state.acquireReadLock := by
  obtain ⟨mark, held⟩ := acquireReadLock_eq state
  rw [held]
  exact ⟨⟨rfl, rfl⟩, ⟨rfl, rfl⟩⟩

theorem buildNext_keeps (setup : Setup) (state : State) (now : Int) :
    Keeps state (state.buildNext setup now).1 := by
  have held := acquireReadLock_keeps state
  rcases buildNext_cases setup state now with
    ⟨error, built, _⟩ | ⟨built, _⟩ | ⟨staged, file, built, _⟩
  · rw [built]
    exact held
  · rw [built]
    exact held
  · rw [built]
    exact ⟨⟨held.files, held.store⟩, ⟨held.min, held.truncate⟩⟩

theorem sync_keeps (setup : Setup) (state : State) (now : Int) :
    Keeps state (state.sync setup now) := by
  have kept := buildNext_keeps setup state now
  unfold sync
  split
  · rename_i built
    rw [built] at kept
    exact ⟨⟨kept.files, kept.store⟩, ⟨kept.min, kept.truncate⟩⟩
  · rename_i built
    rw [built] at kept
    exact kept

theorem runCheckpoint_keeps (setup : Setup) (state : State) (now : Int)
    (mode : CheckpointMode) (restartWal : Bool) :
    Keeps state (state.runCheckpoint setup now mode restartWal) := by
  have kept := buildNext_keeps setup state now
  unfold runCheckpoint
  split
  · rename_i built
    rw [built] at kept
    exact kept
  · rename_i built
    rw [built] at kept
    exact ⟨⟨kept.files, kept.store⟩, ⟨kept.min, kept.truncate⟩⟩

theorem checkpointIfNeeded_keeps (setup : Setup) (state : State) (now : Int) :
    Keeps state (state.checkpointIfNeeded setup now) := by
  unfold checkpointIfNeeded
  split
  · exact runCheckpoint_keeps setup state now _ _
  · split
    · exact runCheckpoint_keeps setup state now _ _
    · exact ⟨⟨rfl, rfl⟩, ⟨rfl, rfl⟩⟩

theorem overFold_keeps (setup : Setup) (state : State) (cycle : Cycle)
    (result : CheckpointResult) (now : Int) :
    Keeps state (state.overFold setup cycle result now) := by
  rcases overFold_cases setup state cycle result now with
    ⟨_, ended⟩ | ⟨_, ⟨_, _, ended⟩ | ⟨_, _, _, ended⟩⟩
  · rw [ended]
    exact ⟨⟨rfl, rfl⟩, ⟨rfl, rfl⟩⟩
  · rw [ended]
    exact ⟨⟨rfl, rfl⟩, ⟨rfl, rfl⟩⟩
  · rw [ended]
    exact ⟨⟨rfl, rfl⟩, ⟨rfl, rfl⟩⟩

theorem step_touches (stepped : state.step setup action = some next) :
    Touches state action next := by
  cases action with
  | commit restart salt2 txn =>
      obtain ⟨db, _, rfl⟩ := Option.map_eq_some_iff.mp stepped
      exact .nothing ⟨⟨rfl, rfl⟩, ⟨rfl, rfl⟩⟩
  | appCheckpoint frames =>
      simp only [step] at stepped
      split at stepped
      · cases stepped
        exact .nothing ⟨⟨rfl, rfl⟩, ⟨rfl, rfl⟩⟩
      · cases stepped
  | appTruncate =>
      simp only [step] at stepped
      split at stepped
      · cases stepped
      · cases stepped
        exact .nothing ⟨⟨rfl, rfl⟩, ⟨rfl, rfl⟩⟩
  | tune minCheckpointFrames truncateFrames =>
      cases stepped
      exact .limits minCheckpointFrames truncateFrames rfl ⟨rfl, rfl⟩
  | sync now =>
      simp only [step] at stepped
      split at stepped
      · cases stepped
        exact .nothing (sync_keeps setup state now)
      · cases stepped
  | checkpointIfNeeded now =>
      simp only [step] at stepped
      split at stepped
      · cases stepped
        exact .nothing (checkpointIfNeeded_keeps setup state now)
      · cases stepped
  | checkpointNow now mode =>
      simp only [step] at stepped
      split at stepped
      · cases stepped
        exact .nothing (runCheckpoint_keeps setup state now _ _)
      · cases stepped
  | release =>
      simp only [step] at stepped
      split at stepped
      · cases stepped
        exact .nothing ⟨⟨rfl, rfl⟩, ⟨rfl, rfl⟩⟩
      · cases stepped
  | pragma outcome =>
      simp only [step] at stepped
      split at stepped
      · obtain ⟨_, _, rfl⟩ := Option.map_eq_some_iff.mp stepped
        exact .nothing ⟨⟨rfl, rfl⟩, ⟨rfl, rfl⟩⟩
      · cases stepped
  | bump ok restart salt2 txn =>
      simp only [step] at stepped
      split at stepped
      · cases ok with
        | false =>
            cases stepped
            exact .nothing ⟨⟨rfl, rfl⟩, ⟨rfl, rfl⟩⟩
        | true =>
            obtain ⟨db, _, rfl⟩ := Option.map_eq_some_iff.mp stepped
            exact .nothing ⟨⟨rfl, rfl⟩, ⟨rfl, rfl⟩⟩
      · cases stepped
  | acquire =>
      simp only [step] at stepped
      split at stepped
      · cases stepped
        have held := acquireReadLock_keeps state
        exact .nothing ⟨⟨held.files, held.store⟩, ⟨held.min, held.truncate⟩⟩
      · cases stepped
  | upload ok now =>
      obtain ⟨staged, after, resnapshots, pending, _, ended⟩ :=
        upload_cases stepped
      rcases ended with ⟨rfl, _⟩ | ⟨_, uploaded, done, rfl⟩
      · exact .nothing ⟨⟨rfl, rfl⟩, ⟨rfl, rfl⟩⟩
      · obtain ⟨file, _, rfl⟩ := uploadStaged_eq_ok done
        exact .replica staged file now pending rfl rfl ⟨rfl, rfl⟩
  | overFold now =>
      simp only [step] at stepped
      split at stepped
      · cases stepped
        exact .nothing (overFold_keeps setup state _ _ now)
      · cases stepped

end State

end Literstream
