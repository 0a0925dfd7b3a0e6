import Literstream.Driver.Tick
import Literstream.Sync.Keeps
import Literstream.Sync.Lifetime

/-!
# Ticks in steps

The part of a tick that works on the WAL, cut like the calls of the syncer, so
that commits and checkpoints of other connections come in between.  What a tick
does after its checkpoint touches neither the WAL nor the position.
-/

namespace Literstream

/-- Where the running tick is, and its time. -/
inductive TickStage where
  | resting
  | syncing (now : Int) (skipped : Bool)
  | synced (now : Int)
  | gating (now : Int)
  | gated (now : Int)
  | timing (now : Int)
deriving DecidableEq, Repr

/-- A driver, the time of its newest tick, and the number of files that it has
uploaded. -/
structure Ticker where
  driver : Driver State
  stage : TickStage
  clock : Int
  uploads : Nat

inductive TickerAction where
  /-- A step of another connection. -/
  | outside (action : Action)
  /-- A tick begins with its sync. -/
  | tick (now : Int)
  /-- The running call of the syncer goes on. -/
  | call (action : Action)
  /-- The running call has returned, and the tick goes on. -/
  | proceed

/-- A call of the syncer goes on with these steps. -/
def Action.continues : Action → Bool
  | .release => true
  | .pragma _ => true
  | .bump _ _ _ _ => true
  | .acquire => true
  | .upload _ _ => true
  | .overFold _ => true
  | _ => false

/-- `wal_frame_count`: by the size of the file. -/
def Sqlite.walFrameCount (pageSize : Nat) (db : Sqlite) : Nat :=
  match db.wal with
  | none => 0
  | some wal => (wal.size pageSize - walHeaderSize) / frameSize pageSize

/-- The frame thresholds call for a checkpoint. -/
def State.GateOpen (setup : Setup) (state : State) : Prop :=
  state.truncateFrames ≤ liveWalFrames setup state.pos ∨
    state.minCheckpointFrames ≤ liveWalFrames setup state.pos

instance (setup : Setup) (state : State) : Decidable (state.GateOpen setup) :=
  inferInstanceAs (Decidable (_ ∨ _))

namespace Ticker

def syncer (ticker : Ticker) : State := ticker.driver.syncer

def withSyncer (ticker : Ticker) (syncer : State) : Ticker :=
  { ticker with driver := { ticker.driver with syncer := syncer } }

/-- No call runs in the syncer. -/
def Waits (ticker : Ticker) : Prop := ticker.syncer.pc = .idle

instance (ticker : Ticker) : Decidable ticker.Waits :=
  inferInstanceAs (Decidable (_ = _))

/-- The tick begins. -/
def begin_ (setup : Setup) (ticker : Ticker) (now : Int) : Ticker :=
  let after := ticker.syncer.sync setup now
  match ticker.syncer.raises setup (.sync now) with
  | some _ => { ticker.withSyncer after with clock := now }
  | none =>
      { ticker.withSyncer after with
        stage := .syncing now (after.pc = .idle)
        clock := now }

/-- A step of the running call; an error ends the tick. -/
def call (setup : Setup) (ticker : Ticker) (action : Action) :
    Option Ticker :=
  (ticker.syncer.step setup action).map fun after =>
    { ticker.withSyncer after with
      stage :=
        if ticker.syncer.raises setup action = none then ticker.stage
        else .resting
      uploads :=
        ticker.uploads + if ticker.syncer.puts setup action = none then 0 else 1 }

/-- The frame thresholds are tested. -/
def gate (setup : Setup) (ticker : Ticker) (now : Int) : Ticker :=
  if ticker.syncer.GateOpen setup then
    let after := ticker.syncer.checkpointIfNeeded setup now
    { ticker.withSyncer after with
      stage := if after.pc = .idle then .resting else .gating now }
  else { ticker with stage := .gated now }

/-- The time-based checkpoint is tested. -/
def time (setup : Setup) (config : DriverConfig) (ticker : Ticker)
    (now : Int) : Ticker :=
  if Driver.checkpointDue config now
      (ticker.syncer.db.walFrameCount setup.pageSize) ticker.driver = true then
    let after := ticker.syncer.runCheckpoint setup now .passive false
    { ticker.withSyncer after with
      stage := if after.pc = .idle then .resting else .timing now }
  else { ticker with stage := .resting }

/-- The tick is over: a checkpoint ran. -/
def checkpointed (ticker : Ticker) (now : Int) : Ticker :=
  { ticker with
    driver := Driver.afterCheckpoint now ticker.driver
    stage := .resting }

/-- The tick goes on after a call that returned. -/
def proceed (setup : Setup) (config : DriverConfig) (ticker : Ticker) :
    Option Ticker :=
  match ticker.stage with
  | .resting => none
  | .syncing now skipped =>
      some { ticker with
        driver := Driver.afterSync skipped ticker.driver
        stage := .synced now }
  | .synced now => some (ticker.gate setup now)
  | .gating now => some (ticker.checkpointed now)
  | .gated now => some (ticker.time setup config now)
  | .timing now => some (ticker.checkpointed now)

/-- One step; `none` when the action is not possible. -/
def step (setup : Setup) (config : DriverConfig) (ticker : Ticker) :
    TickerAction → Option Ticker
  | .outside action =>
      if action.foreign then
        (ticker.syncer.step setup action).map ticker.withSyncer
      else none
  | .tick now =>
      if ticker.stage = .resting ∧ ticker.Waits ∧ ticker.clock ≤ now then
        some (ticker.begin_ setup now)
      else none
  | .call action =>
      if ticker.stage ≠ .resting ∧ action.continues = true then
        ticker.call setup action
      else none
  | .proceed => if ticker.Waits then ticker.proceed setup config else none

/-- A driver on a syncer at rest. -/
def new (syncer : State) : Ticker where
  driver := Driver.new syncer
  stage := .resting
  clock := 0
  uploads := 0

end Ticker

/-! ## What steps keep -/

namespace State

variable {setup : Setup} {state next : State} {action : Action}

theorem checkpointIfNeeded_db (setup : Setup) (state : State) (now : Int) :
    (state.checkpointIfNeeded setup now).db = state.db := by
  unfold checkpointIfNeeded
  split
  · exact runCheckpoint_db setup state now _ _
  · split
    · exact runCheckpoint_db setup state now _ _
    · rfl

/-- The steps of a running call. -/
theorem continues_limits (goes : action.continues = true)
    (stepped : state.step setup action = some next) :
    SameLimits state next := by
  cases step_touches stepped with
  | nothing keeps => exact keeps.toSameLimits
  | limits _ _ tunes =>
      rw [tunes] at goes
      cases goes
  | replica _ _ _ _ _ _ limits => exact limits

end State

/-- No call goes on without one that runs. -/
theorem State.continues_of_idle {setup : Setup} {state : State}
    {action : Action} (idle : state.pc = .idle)
    (goes : action.continues = true) : state.step setup action = none := by
  cases action with
  | release => simp only [step, idle]
  | pragma outcome => simp only [step, idle]
  | bump ok restart salt2 txn => simp only [step, idle]
  | acquire => simp only [step, idle]
  | upload ok now => simp only [step, upload, idle]
  | overFold now => simp only [step, idle]
  | _ => cases goes

/-! ## How a tick begins and goes on -/

@[simp] theorem Driver.syncer_afterSync {σ : Type} (skipped : Bool)
    (driver : Driver σ) :
    (Driver.afterSync skipped driver).syncer = driver.syncer := by
  unfold Driver.afterSync
  split
  · rfl
  · rfl

namespace Ticker

variable {setup : Setup} {ticker : Ticker} {now : Int}

theorem begin_of_error {error : SyncError}
    (under : buildUnderLock setup.pageSize now ticker.syncer.pos
      ticker.syncer.db = .error error) :
    ticker.begin_ setup now =
      { ticker.withSyncer (ticker.syncer.sync setup now) with clock := now } := by
  have raised : ticker.syncer.raises setup (.sync now) = some error := by
    change errorOf (buildUnderLock setup.pageSize now ticker.syncer.pos
      ticker.syncer.db) = _
    rw [under]
    rfl
  simp only [begin_, raised]

theorem begin_of_ok {result : Option (StagedFile × LtxFile)}
    (under : buildUnderLock setup.pageSize now ticker.syncer.pos
      ticker.syncer.db = .ok result) :
    ticker.begin_ setup now =
      { ticker.withSyncer (ticker.syncer.sync setup now) with
        stage := .syncing now ((ticker.syncer.sync setup now).pc = .idle)
        clock := now } := by
  have raised : ticker.syncer.raises setup (.sync now) = none := by
    change errorOf (buildUnderLock setup.pageSize now ticker.syncer.pos
      ticker.syncer.db) = _
    rw [under]
    rfl
  simp only [begin_, raised]

end Ticker

namespace State

variable {setup : Setup} {state : State} {now : Int}

/-- A sync that finds nothing takes the read mark at most. -/
theorem sync_of_none
    (under : buildUnderLock setup.pageSize now state.pos state.db = .ok none) :
    state.sync setup now = state.acquireReadLock := by
  unfold sync
  rcases buildNext_cases setup state now with
    ⟨error, built, other⟩ | ⟨built, _⟩ | ⟨staged, file, built, other⟩
  · rw [built]
  · rw [built]
  · rw [under] at other
    cases other

theorem sync_of_error {error : SyncError}
    (under : buildUnderLock setup.pageSize now state.pos state.db =
      .error error) : state.sync setup now = state.acquireReadLock := by
  unfold sync
  rcases buildNext_cases setup state now with
    ⟨_, built, _⟩ | ⟨built, other⟩ | ⟨staged, file, built, other⟩
  · rw [built]
  · rw [under] at other
    cases other
  · rw [under] at other
    cases other

theorem sync_of_some {staged : StagedFile} {file : LtxFile}
    (under : buildUnderLock setup.pageSize now state.pos state.db =
      .ok (some (staged, file))) :
    state.sync setup now =
      { state.acquireReadLock.stage staged file with
        pc := .syncUpload staged } := by
  unfold sync
  rcases buildNext_cases setup state now with
    ⟨error, built, other⟩ | ⟨built, other⟩ | ⟨_, _, built, other⟩
  · rw [under] at other
    cases other
  · rw [under] at other
    cases other
  · rw [under] at other
    cases other
    rw [built]

end State

/-! ## The call of a stage -/

/-- No sync runs, and none has just run. -/
def TickStage.pastSync : TickStage → Bool
  | .syncing _ _ | .synced _ => false
  | _ => true

theorem TickStage.ne_of_pastSync {stage : TickStage}
    (past : stage.pastSync = true) :
    (∀ now skipped, stage ≠ .syncing now skipped) ∧
      ∀ now, stage ≠ .synced now := by
  constructor
  · rintro now skipped rfl
    cases past
  · rintro now rfl
    cases past

/-- A sync that found something is uploading; after it no call runs. -/
structure Ticker.Consistent (ticker : Ticker) : Prop where
  syncing : ∀ now skipped, ticker.stage = .syncing now skipped →
    ticker.Waits ∨ ∃ staged, ticker.syncer.pc = .syncUpload staged
  synced : ∀ now, ticker.stage = .synced now → ticker.Waits

namespace State

variable {setup : Setup} {state next : State}

/-- How an upload ends the running call, or brings it to the over-fold
test. -/
theorem upload_ends {ok : Bool} {now : Int}
    (stepped : state.upload setup ok now = some next) :
    ∃ staged, state.pending = some staged ∧
      (next = { state with pc := .idle } ∧
          state.puts setup (.upload ok now) = none ∧
          state.raises setup (.upload ok now) ≠ none ∨
        state.raises setup (.upload ok now) = none ∧
          next.db = state.db ∧ next.pos = staged.newPos ∧
          SameLimits state next ∧
          (next.pc = .idle ∧ ¬state.Noticed ∨
            ∃ cycle result, state.pc = .upload cycle staged result ∧
              next.pc = .fold cycle result)) := by
  obtain ⟨staged, after, _, pending, ending, ended⟩ := upload_cases stepped
  refine ⟨staged, pending, ?_⟩
  rcases ended with ⟨rfl, failed | ⟨error, failed⟩⟩ | ⟨rfl, uploaded, done, rfl⟩
  · subst failed
    exact .inl ⟨rfl, rfl, by simp [raises]⟩
  · left
    cases ok with
    | false => exact ⟨rfl, rfl, by simp [raises]⟩
    | true =>
        refine ⟨rfl, ?_, ?_⟩
        · simp only [puts, pending, Option.bind_some, failed]
        · simp [raises, pending, failed, errorOf]
  · right
    have returned : state.raises setup (.upload true now) = none := by
      simp [raises, pending, done, errorOf]
    obtain ⟨file, _, rfl⟩ := uploadStaged_eq_ok done
    refine ⟨returned, rfl, rfl, ⟨rfl, rfl⟩, ?_⟩
    rcases ending with ⟨rfl, unnoticed⟩ | ⟨cycle, result, running, rfl⟩
    · exact .inl ⟨rfl, unnoticed⟩
    · exact .inr ⟨cycle, result, running, rfl⟩

end State

/-- Only its upload goes on with a sync, and ends it. -/
theorem State.continues_of_syncUpload {setup : Setup} {state after : State}
    {staged : StagedFile} {action : Action}
    (running : state.pc = .syncUpload staged)
    (goes : action.continues = true)
    (stepped : state.step setup action = some after) :
    ∃ ok now, action = .upload ok now ∧ after.pc = .idle := by
  cases action with
  | upload ok now =>
      refine ⟨ok, now, rfl, ?_⟩
      obtain ⟨_, _, ⟨rfl, _⟩ |
        ⟨_, _, _, _, ⟨idle, _⟩ | ⟨_, _, impossible, _⟩⟩⟩ := upload_ends stepped
      · rfl
      · exact idle
      · rw [running] at impossible
        cases impossible
  | release => simp [step, running] at stepped
  | pragma outcome => simp [step, running] at stepped
  | bump ok restart salt2 txn => simp [step, running] at stepped
  | acquire => simp [step, running] at stepped
  | overFold now => simp [step, running] at stepped
  | _ => cases goes

namespace Ticker

variable {setup : Setup} {config : DriverConfig} {ticker next : Ticker}
  {action : TickerAction}

theorem consistent_of_pastSync (past : ticker.stage.pastSync = true) :
    ticker.Consistent where
  syncing now skipped impossible :=
    absurd impossible ((TickStage.ne_of_pastSync past).1 now skipped)
  synced now impossible :=
    absurd impossible ((TickStage.ne_of_pastSync past).2 now)

theorem begin_consistent {now : Int} (resting : ticker.stage = .resting)
    (idle : ticker.Waits) : (ticker.begin_ setup now).Consistent := by
  cases under : buildUnderLock setup.pageSize now ticker.syncer.pos
      ticker.syncer.db with
  | error error =>
      rw [begin_of_error under]
      apply consistent_of_pastSync
      change ticker.stage.pastSync = true
      rw [resting]
      rfl
  | ok result =>
      rw [begin_of_ok under]
      refine ⟨?_, fun _ impossible => by cases impossible⟩
      intro _ _ _
      change (ticker.syncer.sync setup now).pc = .idle ∨ ∃ staged,
        (ticker.syncer.sync setup now).pc = .syncUpload staged
      cases result with
      | none =>
          obtain ⟨mark, held⟩ := State.acquireReadLock_eq ticker.syncer
          rw [State.sync_of_none under, held]
          exact .inl idle
      | some pair =>
          obtain ⟨staged, file⟩ := pair
          rw [State.sync_of_some under]
          exact .inr ⟨staged, rfl⟩

theorem Consistent.call {action : Action} (consistent : ticker.Consistent)
    (goes : action.continues = true)
    (stepped : ticker.call setup action = some next) : next.Consistent := by
  obtain ⟨after, done, rfl⟩ := Option.map_eq_some_iff.mp stepped
  have stuck : ¬ticker.Waits := by
    intro idle
    rw [State.continues_of_idle idle goes] at done
    cases done
  constructor
  · intro now skipped running
    change (if ticker.syncer.raises setup action = none then ticker.stage
      else .resting) = _ at running
    split at running
    · obtain ⟨staged, uploading⟩ :=
        (consistent.syncing now skipped running).resolve_left stuck
      obtain ⟨_, _, _, idle⟩ :=
        State.continues_of_syncUpload uploading goes done
      exact .inl idle
    · cases running
  · intro now running
    change (if ticker.syncer.raises setup action = none then ticker.stage
      else .resting) = _ at running
    split at running
    · exact absurd (consistent.synced now running) stuck
    · cases running

theorem proceed_consistent (idle : ticker.Waits)
    (stepped : ticker.proceed setup config = some next) :
    next.Consistent := by
  unfold proceed at stepped
  split at stepped
  · cases stepped
  · rename_i now skipped _
    cases stepped
    refine ⟨fun _ _ impossible => (by cases impossible), fun _ _ => ?_⟩
    change (Driver.afterSync skipped ticker.driver).syncer.pc = .idle
    rw [Driver.syncer_afterSync]
    exact idle
  · cases stepped
    unfold gate
    dsimp only
    split
    · split <;> exact consistent_of_pastSync rfl
    · exact consistent_of_pastSync rfl
  · cases stepped
    exact consistent_of_pastSync rfl
  · cases stepped
    unfold time
    dsimp only
    split
    · split <;> exact consistent_of_pastSync rfl
    · exact consistent_of_pastSync rfl
  · cases stepped
    exact consistent_of_pastSync rfl

theorem Consistent.step (consistent : ticker.Consistent)
    (stepped : ticker.step setup config action = some next) :
    next.Consistent := by
  cases action with
  | outside action =>
      simp only [Ticker.step] at stepped
      split at stepped
      · rename_i foreign
        obtain ⟨after, done, rfl⟩ := Option.map_eq_some_iff.mp stepped
        obtain ⟨⟨db, rfl⟩, _⟩ := State.step_foreign foreign done
        exact ⟨consistent.syncing, consistent.synced⟩
      · cases stepped
  | tick now =>
      simp only [Ticker.step] at stepped
      split at stepped
      · rename_i rests
        cases stepped
        exact begin_consistent rests.1 rests.2.1
      · cases stepped
  | call action =>
      simp only [Ticker.step] at stepped
      split at stepped
      · rename_i allowed
        exact consistent.call allowed.2 stepped
      · cases stepped
  | proceed =>
      simp only [Ticker.step] at stepped
      split at stepped
      · rename_i idle
        exact proceed_consistent idle stepped
      · cases stepped

theorem syncer_begin (setup : Setup) (ticker : Ticker) (now : Int) :
    (ticker.begin_ setup now).syncer = ticker.syncer.sync setup now := by
  unfold begin_
  split
  · rfl
  · rfl

theorem uploads_begin (setup : Setup) (ticker : Ticker) (now : Int) :
    (ticker.begin_ setup now).uploads = ticker.uploads := by
  unfold begin_
  split
  · rfl
  · rfl

/-- Only other connections and the running call touch the database. -/
theorem proceed_syncer (stepped : ticker.proceed setup config = some next) :
    SameLimits ticker.syncer next.syncer ∧
      next.syncer.db = ticker.syncer.db := by
  unfold proceed at stepped
  split at stepped
  · cases stepped
  · rename_i skipped _
    cases stepped
    change SameLimits _ (Driver.afterSync skipped ticker.driver).syncer ∧
      (Driver.afterSync skipped ticker.driver).syncer.db = _
    rw [Driver.syncer_afterSync]
    exact ⟨⟨rfl, rfl⟩, rfl⟩
  · rename_i now _
    cases stepped
    unfold gate
    split
    · exact ⟨(State.checkpointIfNeeded_keeps setup
          ticker.syncer now).toSameLimits,
        State.checkpointIfNeeded_db setup ticker.syncer now⟩
    · exact ⟨⟨rfl, rfl⟩, rfl⟩
  · cases stepped
    exact ⟨⟨rfl, rfl⟩, rfl⟩
  · rename_i now _
    cases stepped
    unfold time
    split
    · exact ⟨(State.runCheckpoint_keeps setup
          ticker.syncer now _ _).toSameLimits,
        State.runCheckpoint_db setup ticker.syncer now _ _⟩
    · exact ⟨⟨rfl, rfl⟩, rfl⟩
  · cases stepped
    exact ⟨⟨rfl, rfl⟩, rfl⟩

theorem step_syncer (stepped : ticker.step setup config action = some next) :
    SameLimits ticker.syncer next.syncer ∧
      (next.syncer.db = ticker.syncer.db ∨
        ∃ taken, (action = .outside taken ∨ action = .call taken) ∧
          ticker.syncer.step setup taken = some next.syncer) := by
  cases action with
  | outside action =>
      simp only [Ticker.step] at stepped
      split at stepped
      · rename_i foreign
        obtain ⟨after, done, rfl⟩ := Option.map_eq_some_iff.mp stepped
        refine ⟨?_, .inr ⟨action, .inl rfl, done⟩⟩
        obtain ⟨⟨db, rfl⟩, _⟩ := State.step_foreign foreign done
        exact ⟨rfl, rfl⟩
      · cases stepped
  | tick now =>
      simp only [Ticker.step] at stepped
      split at stepped
      · cases stepped
        rw [syncer_begin]
        exact ⟨(State.sync_keeps setup ticker.syncer now).toSameLimits,
          .inl (State.sync_db setup ticker.syncer now)⟩
      · cases stepped
  | call action =>
      simp only [Ticker.step] at stepped
      split at stepped
      · rename_i allowed
        obtain ⟨after, done, rfl⟩ := Option.map_eq_some_iff.mp stepped
        exact ⟨State.continues_limits allowed.2 done,
          .inr ⟨action, .inr rfl, done⟩⟩
      · cases stepped
  | proceed =>
      simp only [Ticker.step] at stepped
      split at stepped
      · obtain ⟨limits, db⟩ := proceed_syncer stepped
        exact ⟨limits, .inl db⟩
      · cases stepped

end Ticker

end Literstream
