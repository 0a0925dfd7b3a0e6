import Literstream.Driver.Owes

/-!
# An idle database settles

Once other connections only read, at most three more files are uploaded, unless
a reader pins the WAL: then every seq bump adds a frame that the next sync
ships, and the counted frames keep the gate open.
-/

namespace Literstream

open Machine State

/-! ## Ticks without other writers -/

namespace Ticker

variable {setup : Setup} {config : DriverConfig} {ticker next : Ticker}
  {action : TickerAction} {files : Nat}

/-- The history is over: other connections only read. -/
def ReadersOnly (setup : Setup) (ticker : Ticker) : TickerAction → Prop
  | .outside _ => False
  | .call action => ticker.syncer.Reading setup action
  | _ => True

instance decidableReadersOnly (setup : Setup) (ticker : Ticker)
    (action : TickerAction) : Decidable (ticker.ReadersOnly setup action) := by
  unfold ReadersOnly
  rcases action <;> infer_instance

/-- Nor does a reader pin the WAL at a frame-threshold PASSIVE checkpoint. -/
def Undisturbed (setup : Setup) (ticker : Ticker) (action : TickerAction) :
    Prop :=
  ticker.ReadersOnly setup action ∧
    match action with
    | .call action => ticker.syncer.Unpinned action
    | _ => True

instance decidableUndisturbed (setup : Setup) (ticker : Ticker)
    (action : TickerAction) : Decidable (ticker.Undisturbed setup action) := by
  unfold Undisturbed
  rcases action <;> infer_instance

theorem ReadersOnly.fits (alone : ticker.ReadersOnly setup action) :
    ticker.Fits setup action := by
  cases action with
  | outside action => exact alone.elim
  | call action => exact alone.1
  | _ => trivial

/-- What holds of a driver at any time. -/
structure Runs (setup : Setup) (ticker : Ticker) : Prop where
  consistent : ticker.Consistent
  db : DbOk setup.pageSize ticker.syncer.db
  limit : 2 ≤ ticker.syncer.minCheckpointFrames

theorem Owes.of_syncer (owes : ticker.syncer.Owes setup files)
    (past : ticker.stage.pastSync = true) : ticker.Owes setup files := by
  obtain ⟨notSyncing, notSynced⟩ := TickStage.ne_of_pastSync past
  unfold Ticker.Owes
  split
  · exact absurd (by assumption) (notSyncing _ _)
  · exact absurd (by assumption) (notSynced _)
  · exact owes

theorem owes_of_synced
    (running : (∃ now skipped, ticker.stage = .syncing now skipped) ∨
      ∃ now, ticker.stage = .synced now)
    (idle : ticker.Waits)
    (owes : SyncedOwes setup ticker.syncer.minCheckpointFrames
      ticker.syncer.truncateFrames ticker.syncer.db ticker.syncer.pos files) :
    ticker.Owes setup files := by
  have pending : ticker.syncer.pending = none := by
    rw [State.pending, idle]
  unfold Ticker.Owes
  rw [pending]
  rcases running with ⟨_, _, stage⟩ | ⟨_, stage⟩
  · rw [stage]
    exact owes
  · rw [stage]
    exact owes

/-- The sync of a tick leaves a reset at most. -/
theorem begin_owes {now : Int} (ok : DbOk setup.pageSize ticker.syncer.db)
    (resting : ticker.stage = .resting) (idle : ticker.Waits)
    (owes : ticker.Owes setup files) :
    (ticker.begin_ setup now).Owes setup files := by
  unfold Ticker.Owes at owes
  rw [resting] at owes
  replace owes := State.Owes.idle owes idle
  obtain ⟨mark, held⟩ := State.acquireReadLock_eq ticker.syncer
  cases under : buildUnderLock setup.pageSize now ticker.syncer.pos
      ticker.syncer.db with
  | error error =>
      rw [begin_of_error under, State.sync_of_error under, held]
      apply Owes.of_syncer
      · exact State.owes_of_idle idle owes
      · change ticker.stage.pastSync = true
        rw [resting]
        rfl
  | ok result =>
      rw [begin_of_ok under]
      cases result with
      | none =>
          have upToDate := (buildUnderLock_eq_none ok).mp under
          rw [State.sync_of_none under, held]
          refine owes_of_synced (.inl ⟨_, _, rfl⟩) ?_ (.inl ⟨upToDate, ?_⟩)
          · exact idle
          · rcases owes with captured | due
            · exact captured.2
            · exact (resets_le_one _).trans (Nat.le_of_add_left_le due)
      | some pair =>
          obtain ⟨staged, file⟩ := pair
          have atEnd := buildUnderLock_atWalEnd setup.positive ok under
          rw [State.sync_of_some under, held]
          have behind : ¬UpToDate setup.pageSize ticker.syncer.pos
              ticker.syncer.db := by
            intro upToDate
            rw [(buildUnderLock_eq_none ok).mpr upToDate] at under
            cases under
          have due := owes.resolve_left fun captured => behind captured.1
          exact ⟨Nat.le_of_add_left_le due,
            .inl (atEnd.owes (Nat.le_sub_one_of_lt due))⟩

/-- The upload of a tick's sync. -/
theorem syncing_owes {action : Action} {after : State} {staged : StagedFile}
    {now : Int} {skipped : Bool} (stage : ticker.stage = .syncing now skipped)
    (limit : 2 ≤ ticker.syncer.minCheckpointFrames)
    (running : ticker.syncer.pc = .syncUpload staged)
    (goes : action.continues = true)
    (done : ticker.syncer.step setup action = some after)
    (owes : ticker.Owes setup files) :
    ∃ due,
      Ticker.Owes setup
        { ticker.withSyncer after with
          stage :=
            if ticker.syncer.raises setup action = none then ticker.stage
            else .resting } due ∧
      ticker.syncer.paid setup action + due ≤ files := by
  have pending : ticker.syncer.pending = some staged := by
    rw [State.pending, running]
  unfold Ticker.Owes at owes
  rw [stage, pending] at owes
  obtain ⟨pays, due⟩ := owes
  obtain ⟨ok, at_, rfl, idle⟩ := State.continues_of_syncUpload running goes done
  obtain ⟨other, same, ⟨rfl, puts, raised⟩ |
    ⟨returned, db, pos, limits, _⟩⟩ := State.upload_ends done
  · refine ⟨files, ?_, by simp [State.paid, puts]⟩
    rw [if_neg raised]
    apply Owes.of_syncer
    · apply State.owes_of_idle rfl
      exact due.rest.failed (Nat.le_of_succ_le limit) pays
    · rfl
  · rw [pending] at same
    cases same
    refine ⟨files - 1, ?_, State.paid_add pays⟩
    rw [if_pos returned, stage]
    refine owes_of_synced (.inl ⟨_, _, rfl⟩) idle ?_
    change SyncedOwes setup after.minCheckpointFrames after.truncateFrames
      after.db after.pos (files - 1)
    rw [limits.min, limits.truncate, db, pos]
    exact due

/-- A step of the running call. -/
theorem Owes.call {action : Action} (runs : ticker.Runs setup)
    (owes : ticker.Owes setup files)
    (reading : ticker.syncer.Reading setup action)
    (unpinned : ticker.syncer.Unpinned action)
    (goes : action.continues = true)
    (stepped : ticker.call setup action = some next) :
    ∃ due, next.Owes setup due ∧
      next.uploads + due ≤ ticker.uploads + files := by
  obtain ⟨consistent, db, limit⟩ := runs
  obtain ⟨after, done, rfl⟩ := Option.map_eq_some_iff.mp stepped
  have stuck : ¬ticker.Waits := by
    intro idle
    rw [State.continues_of_idle idle goes] at done
    cases done
  suffices due : ∃ due,
      Ticker.Owes setup
        { ticker.withSyncer after with
          stage :=
            if ticker.syncer.raises setup action = none then ticker.stage
            else .resting } due ∧
      ticker.syncer.paid setup action + due ≤ files by
    obtain ⟨due, owes, pays⟩ := due
    refine ⟨due, owes, ?_⟩
    change ticker.uploads + ticker.syncer.paid setup action + due ≤ _
    omega
  have elsewhere (past : ticker.stage.pastSync = true)
      (owes : ticker.syncer.Owes setup files) : ∃ due,
      Ticker.Owes setup
        { ticker.withSyncer after with
          stage :=
            if ticker.syncer.raises setup action = none then ticker.stage
            else .resting } due ∧
      ticker.syncer.paid setup action + due ≤ files := by
    obtain ⟨due, later, pays⟩ := owes.continues db limit reading unpinned
      goes done
    refine ⟨due, Owes.of_syncer later ?_, pays⟩
    dsimp only
    split
    · exact past
    · rfl
  unfold Ticker.Owes at owes
  cases stage : ticker.stage with
  | syncing now skipped =>
      obtain ⟨staged, running⟩ :=
        (consistent.syncing now skipped stage).resolve_left stuck
      have all := @syncing_owes setup ticker files _ _ _ _ _ stage limit
        running goes done
      rw [stage] at all
      apply all
      unfold Ticker.Owes
      rw [stage] at owes ⊢
      exact owes
  | synced now => exact absurd (consistent.synced now stage) stuck
  | _ =>
      rw [stage] at owes elsewhere
      exact elsewhere rfl owes

/-- The tick goes on after a call. -/
theorem Owes.proceed (runs : ticker.Runs setup)
    (owes : ticker.Owes setup files) (idle : ticker.Waits)
    (stepped : ticker.proceed setup config = some next) :
    next.Owes setup files ∧ next.uploads = ticker.uploads := by
  unfold Ticker.proceed at stepped
  unfold Ticker.Owes at owes
  cases stage : ticker.stage with
  | resting =>
      rw [stage] at stepped
      cases stepped
  | syncing now skipped =>
      rw [stage, State.pending_idle idle] at owes
      rw [stage] at stepped
      cases stepped
      have same : Ticker.syncer
          { ticker with
            driver := Driver.afterSync skipped ticker.driver
            stage := .synced now } = ticker.syncer :=
        Driver.syncer_afterSync skipped ticker.driver
      refine ⟨owes_of_synced (.inr ⟨_, rfl⟩) ?_ ?_, rfl⟩
      · rw [Waits, same]
        exact idle
      · rw [same]
        exact owes
  | synced now =>
      rw [stage, State.pending_idle idle] at owes
      rw [stage] at stepped
      cases stepped
      unfold gate
      split
      · rename_i isOpen
        refine ⟨Owes.of_syncer ?_ ?_, rfl⟩
        · exact State.gate_owes runs.db runs.limit idle isOpen owes
        · dsimp only
          split <;> rfl
      · refine ⟨Owes.of_syncer ?_ rfl, rfl⟩
        exact State.owes_of_idle idle (SyncedOwes.rest owes)
  | gating now =>
      rw [stage] at stepped owes
      cases stepped
      exact ⟨owes, rfl⟩
  | gated now =>
      rw [stage] at stepped owes
      cases stepped
      unfold time
      split
      · refine ⟨Owes.of_syncer ?_ ?_, rfl⟩
        · exact State.timed_owes runs.db idle owes
        · dsimp only
          split <;> rfl
      · exact ⟨owes, rfl⟩
  | timing now =>
      rw [stage] at stepped owes
      cases stepped
      exact ⟨owes, rfl⟩

/-- Every step pays for what it uploads. -/
theorem Owes.step (runs : ticker.Runs setup) (owes : ticker.Owes setup files)
    (undisturbed : ticker.Undisturbed setup action)
    (stepped : ticker.step setup config action = some next) :
    ∃ due, next.Owes setup due ∧
      next.uploads + due ≤ ticker.uploads + files := by
  cases action with
  | outside action => exact undisturbed.1.elim
  | tick now =>
      simp only [Ticker.step] at stepped
      split at stepped
      · rename_i rests
        cases stepped
        exact ⟨files, begin_owes runs.db rests.1 rests.2.1 owes,
          by rw [uploads_begin]⟩
      · cases stepped
  | call action =>
      simp only [Ticker.step] at stepped
      split at stepped
      · rename_i allowed
        exact owes.call runs undisturbed.1 undisturbed.2 allowed.2 stepped
      · cases stepped
  | proceed =>
      simp only [Ticker.step] at stepped
      split at stepped
      · rename_i idle
        obtain ⟨later, uploads⟩ := owes.proceed runs idle stepped
        exact ⟨files, later, by rw [uploads]⟩
      · cases stepped

/-- Whatever runs, three files are enough. -/
theorem owes_three : ticker.Owes setup 3 := by
  have pending : ∀ staged pos (owes : Position → Nat → Prop),
      (∀ pos files, 2 ≤ files → owes pos files) →
      AfterUpload staged pos 3 owes := by
    intro staged pos owes enough
    cases staged with
    | none => exact enough _ _ (by omega)
    | some file => exact ⟨by omega, enough _ _ (by omega)⟩
  have syncer : ticker.syncer.Owes setup 3 := by
    unfold State.Owes
    cases ticker.syncer.pc with
    | idle => exact .of_two (by omega)
    | syncUpload staged => exact pending _ _ _ fun _ _ => .of_two
    | catchUp staged => exact pending _ _ _ fun _ _ => .of_two
    | release cycle => exact pending _ _ _ fun _ _ => .inr
    | pragma cycle => exact pending _ _ _ fun _ _ => .inr
    | bump cycle result => exact pending _ _ _ fun _ _ => .inr
    | acquire cycle result => exact pending _ _ _ fun _ _ => .of_two
    | upload cycle staged result => exact pending _ _ _ fun _ _ => .of_two
    | fold cycle result => exact .of_two (by omega)
  unfold Ticker.Owes
  split
  · exact pending _ _ _ fun _ _ => .inr
  · exact pending _ _ _ fun _ _ => .inr
  · exact syncer

theorem Runs.step (runs : ticker.Runs setup) (fits : ticker.Fits setup action)
    (stepped : ticker.step setup config action = some next) :
    next.Runs setup := by
  obtain ⟨limits, touched⟩ := step_syncer stepped
  refine ⟨runs.consistent.step stepped, ?_, limits.min ▸ runs.limit⟩
  rcases touched with same | ⟨taken, rfl | rfl, done⟩
  · exact same ▸ runs.db
  · exact (runs.db.step fits done).1
  · exact (runs.db.step fits done).1

/-- A driver before its first tick. -/
structure Begins (setup : Setup) (ticker : Ticker) : Prop where
  db : DbOk setup.pageSize ticker.syncer.db
  limit : 2 ≤ ticker.syncer.minCheckpointFrames
  resting : ticker.stage = .resting

/-- After a history, while no reader pins the WAL, at most three more files are
uploaded. -/
theorem idle_uploads_at_most_three {start ended : Ticker}
    (begins : start.Begins setup)
    (history : Reaches (Ticker.step setup config) (Ticker.Fits setup) start
      ended)
    (idle : Reaches (Ticker.step setup config) (Undisturbed setup) ended
      ticker) :
    ticker.uploads ≤ ended.uploads + 3 := by
  have runs : ended.Runs setup := by
    refine history.invariant ⟨?_, begins.db, begins.limit⟩
      fun _ _ _ runs fits stepped => runs.step fits stepped
    exact consistent_of_pastSync (by rw [begins.resting]; rfl)
  have settled : ticker.Runs setup ∧ ∃ due, ticker.Owes setup due ∧
      ticker.uploads + due ≤ ended.uploads + 3 := by
    refine @Reaches.invariant _ _ _ _ (fun ticker => ticker.Runs setup ∧
      ∃ due, ticker.Owes setup due ∧
        ticker.uploads + due ≤ ended.uploads + 3) _ _ idle
      ⟨runs, 3, owes_three, Nat.le_refl _⟩ ?_
    rintro before action after ⟨runs, due, owes, paid⟩ undisturbed stepped
    obtain ⟨later, owes, pays⟩ := owes.step runs undisturbed stepped
    exact ⟨runs.step (ReadersOnly.fits undisturbed.1) stepped, later, owes,
      by omega⟩
  obtain ⟨_, due, _, paid⟩ := settled
  omega

/-! ## A reader that pins the WAL -/

/-- A new database whose gate opens at two frames, or truncates at ten. -/
def pinnedStart : Ticker :=
  .new { quietState 2 with minCheckpointFrames := 2, truncateFrames := 10 }

theorem pinnedStart_begins : pinnedStart.Begins smallSetup where
  db := quietState_opened.db
  limit := Nat.le_refl _
  resting := rfl

def twoCommits : List TickerAction :=
  [.outside (commitPage 1 1), .outside (commitPage 2 2)]

/-- A tick whose sync ships a file and whose gate opens. -/
def gatedTick (now : Int) (copied : Nat) (restart : Bool) :
    List TickerAction :=
  [.tick now, .call (.upload true now), .proceed, .proceed, .call .release,
    .call (.pragma (.copied copied)),
    .call (.bump true restart 7 [⟨1, 2, List.replicate 512 3⟩]),
    .call .acquire, .call (.overFold now), .proceed]

/-- A reader that began after the commits keeps every tick shipping the frame of
the bump before it. -/
theorem pinned_reader_keeps_uploading :
    ∃ setup config start ended ticker, Begins setup start ∧
      Reaches (Ticker.step setup config) (Ticker.Fits setup) start ended ∧
      Reaches (Ticker.step setup config) (ReadersOnly setup) ended ticker ∧
      ended.uploads + 3 < ticker.uploads := by
  have runs : ∃ ended ∈ execGuarded
        (Ticker.step smallSetup (.new .defaultLevels)) (Fits smallSetup)
        pinnedStart twoCommits,
      ∃ ticker ∈ execGuarded (Ticker.step smallSetup (.new .defaultLevels))
          (ReadersOnly smallSetup) ended
          (gatedTick 0 2 false ++ gatedTick 1 2 false ++ gatedTick 2 2 false ++
            gatedTick 3 2 false),
        ended.uploads + 3 < ticker.uploads := by
    decide +kernel
  obtain ⟨ended, history, ticker, idle, more⟩ := runs
  exact ⟨smallSetup, _, pinnedStart, ended, ticker, pinnedStart_begins,
    reaches_of_execGuarded history, reaches_of_execGuarded idle, more⟩

/-- Without the reader the bump restarts the WAL. -/
theorem idle_uploads_at_most_three_unpinned :
    ∃ ended ∈ execGuarded (Ticker.step smallSetup (.new .defaultLevels))
        (Fits smallSetup) pinnedStart twoCommits,
      ∃ ticker ∈ execGuarded (Ticker.step smallSetup (.new .defaultLevels))
          (Undisturbed smallSetup) ended
          (gatedTick 0 2 true ++ [.tick 1, .call (.upload true 1), .proceed,
            .proceed, .proceed, .tick 2, .proceed, .proceed, .proceed]),
        ticker.uploads ≤ ended.uploads + 3 := by
  have runs : ∃ ended ∈ execGuarded
        (Ticker.step smallSetup (.new .defaultLevels)) (Fits smallSetup)
        pinnedStart twoCommits,
      (execGuarded (Ticker.step smallSetup (.new .defaultLevels))
        (Undisturbed smallSetup) ended
        (gatedTick 0 2 true ++ [.tick 1, .call (.upload true 1), .proceed,
          .proceed, .proceed, .tick 2, .proceed, .proceed,
          .proceed])).isSome = true := by
    decide +kernel
  obtain ⟨ended, history, some_⟩ := runs
  obtain ⟨ticker, idle⟩ := Option.isSome_iff_exists.mp some_
  exact ⟨ended, history, ticker, idle,
    idle_uploads_at_most_three pinnedStart_begins
      (reaches_of_execGuarded history) (reaches_of_execGuarded idle)⟩

end Ticker

end Literstream
