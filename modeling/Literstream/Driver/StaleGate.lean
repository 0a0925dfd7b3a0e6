import Literstream.Driver.Machine
import Literstream.Sync.Positions
import Literstream.Sync.Checkpoints

/-!
# The frame gate after the WAL is reset

The gate counts the frames behind the recorded position, and only a sync moves
the position.  A sync that finds the WAL empty and everything captured moves
nothing, so the gate stays open after a TRUNCATE checkpoint.
-/

namespace Literstream

open Machine State

/-! ## Generations -/

/-- The WAL, if there is one, is newer than a generation. -/
structure Sqlite.Above (generation : Nat) (db : Sqlite) : Prop where
  last : generation ≤ db.lastSalt1
  wal : ∀ wal, db.wal = some wal → generation < wal.salt1

section Generations

variable {pageSize generation : Nat} {db next : Sqlite} {op : SqliteOp}

theorem Sqlite.Above.apply (above : db.Above generation)
    (applied : db.apply pageSize op = some next) : next.Above generation := by
  refine ⟨above.last.trans (Sqlite.lastSalt1_apply applied), ?_⟩
  intro wal present
  rcases Sqlite.wal_of_apply applied present with
    ⟨_, before, more, stale, old, rfl⟩ | ⟨_, salt1⟩
  · exact above.wal before old
  · rw [salt1]
    exact Nat.lt_succ_of_le above.last

/-- An operation that empties or restarts the WAL ends every generation so
far. -/
theorem Sqlite.above_of_reset (applied : db.apply pageSize op = some next)
    (reset : next.wal = none ∨ next.lastSalt1 ≠ db.lastSalt1) :
    next.Above db.lastSalt1 := by
  refine ⟨Sqlite.lastSalt1_apply applied, ?_⟩
  intro wal present
  have changed : next.lastSalt1 ≠ db.lastSalt1 := by
    rcases reset with absent | changed
    · rw [absent] at present
      cases present
    · exact changed
  rcases Sqlite.wal_of_apply applied present with ⟨same, _⟩ | ⟨_, salt1⟩
  · exact absurd same changed
  · rw [salt1]
    exact Nat.lt_succ_self _

end Generations

/-! ## Watched ticks -/

/-- A ticker, and the newest generation that a frame-threshold checkpoint has
ended. -/
structure Watched where
  ticker : Ticker
  ended : Option Nat

/-- The step of a frame-threshold checkpoint leaves the WAL empty or in a new
generation. -/
def Ticker.resets (ticker : Ticker) (action : TickerAction) (next : Ticker) :
    Bool :=
  match ticker.stage, action with
  | .gating _, .call (.pragma _) => next.syncer.db.wal.isNone
  | .gating _, .call (.bump _ _ _ _) =>
      next.syncer.db.lastSalt1 ≠ ticker.syncer.db.lastSalt1
  | _, _ => false

/-- Every commit is one of whole transactions. -/
def Ticker.Fits (setup : Setup) (ticker : Ticker) : TickerAction → Prop
  | .outside action => ticker.syncer.Fits setup action
  | .call action => ticker.syncer.Fits setup action
  | _ => True

instance Ticker.decidableFits (setup : Setup) (ticker : Ticker)
    (action : TickerAction) : Decidable (ticker.Fits setup action) := by
  unfold Ticker.Fits
  split <;> infer_instance

namespace Watched

def state (watched : Watched) : State := watched.ticker.syncer

def step (setup : Setup) (config : DriverConfig) (watched : Watched)
    (action : TickerAction) : Option Watched :=
  (watched.ticker.step setup config action).map fun next =>
    { ticker := next
      ended :=
        if watched.ticker.resets action next then
          some watched.state.db.lastSalt1
        else watched.ended }

/-- The position counts enough frames, of a generation that has ended. -/
def Spent (setup : Setup) (ended : Option Nat) (pos : Position)
    (threshold : Nat) : Prop :=
  threshold ≤ liveWalFrames setup pos ∧
    ∃ generation ∈ ended, pos.salt1 ≤ generation

instance (setup : Setup) (ended : Option Nat) (pos : Position)
    (threshold : Nat) : Decidable (Spent setup ended pos threshold) := by
  unfold Spent
  cases ended with
  | none => exact .isFalse (by simp)
  | some generation =>
      exact decidable_of_iff (threshold ≤ liveWalFrames setup pos ∧
        pos.salt1 ≤ generation) (by simp)

/-- The WAL is empty, everything in it was captured, and the position still
counts its frames. -/
def Stale (setup : Setup) (watched : Watched) : Prop :=
  watched.state.db.wal = none ∧ watched.state.pos.txid ≠ 0 ∧
    watched.state.pos.syncedToWalEnd = true ∧
    Spent setup watched.ended watched.state.pos
      watched.state.minCheckpointFrames

instance (setup : Setup) (watched : Watched) :
    Decidable (watched.Stale setup) := inferInstanceAs (Decidable (_ ∧ _))

/-- The tick has synced, and is about to test the frame thresholds. -/
def AtGate (watched : Watched) : Prop :=
  ∃ now, watched.ticker.stage = .synced now

/-- A gate that opens counts frames of a generation that goes on. -/
def Counts (setup : Setup) (watched : Watched) : Prop :=
  watched.state.GateOpen setup →
    ∀ generation ∈ watched.ended, generation < watched.state.pos.salt1 ∧
      watched.state.minCheckpointFrames ≤
        liveWalFrames setup watched.state.pos

/-- No tick begins while the gate is stale. -/
def Sound (setup : Setup) (watched : Watched) (action : TickerAction) : Prop :=
  watched.ticker.Fits setup action ∧
    match action with
    | .tick _ => ¬watched.Stale setup
    | _ => True

instance (setup : Setup) (watched : Watched) (action : TickerAction) :
    Decidable (watched.Sound setup action) := by
  unfold Sound
  cases action <;> infer_instance

/-- A driver before its first tick. -/
structure Starts (setup : Setup) (watched : Watched) : Prop where
  db : DbOk setup.pageSize watched.state.db
  written : watched.state.db.Written
  resting : watched.ticker.stage = .resting
  ended : watched.ended = none
  limits : 2 ≤ watched.state.minCheckpointFrames ∧
    watched.state.minCheckpointFrames ≤ watched.state.truncateFrames

/-- What holds of the database and the thresholds at any time. -/
structure Base (setup : Setup) (ended : Option Nat) (state : State) :
    Prop where
  db : DbOk setup.pageSize state.db
  written : state.db.Written
  limits : 1 ≤ state.minCheckpointFrames ∧
    state.minCheckpointFrames ≤ state.truncateFrames
  above : ∀ generation ∈ ended, state.db.Above generation

/-- What a sync has left of an ended generation. -/
structure Invariant (setup : Setup) (watched : Watched) : Prop where
  base : Base setup watched.ended watched.state
  /-- The position that the running sync leaves is not spent. -/
  syncing : ∀ now skipped, watched.ticker.stage = .syncing now skipped →
    (watched.state.pc = .idle ∨
      ∃ staged, watched.state.pc = .syncUpload staged) ∧
    ¬Spent setup watched.ended watched.state.ahead
      watched.state.minCheckpointFrames
  synced : ∀ now, watched.ticker.stage = .synced now →
    watched.state.pc = .idle ∧
    ¬Spent setup watched.ended watched.state.pos
      watched.state.minCheckpointFrames

/-- Nothing more is known while no sync has just run. -/
theorem Base.invariant {setup : Setup} {watched : Watched}
    (base : Base setup watched.ended watched.state)
    (past : watched.ticker.stage.pastSync = true) :
    Invariant setup watched where
  base := base
  syncing now skipped impossible :=
    absurd impossible ((TickStage.ne_of_pastSync past).1 now skipped)
  synced now impossible :=
    absurd impossible ((TickStage.ne_of_pastSync past).2 now)

section Bases

variable {setup : Setup} {ended : Option Nat} {state next : State}
  {action : Action}

theorem Base.of_same (base : Base setup ended state) (db : next.db = state.db)
    (limits : SameLimits state next) : Base setup ended next where
  db := by
    rw [db]
    exact base.db
  written := by
    rw [db]
    exact base.written
  limits := by
    rw [limits.min, limits.truncate]
    exact base.limits
  above := by
    rw [db]
    exact base.above

theorem Base.step (base : Base setup ended state)
    (fits : state.Fits setup action) (limits : SameLimits state next)
    (stepped : state.step setup action = some next) :
    Base setup ended next := by
  have applied := State.step_db stepped
  cases touched : action.dbOp with
  | none =>
      rw [touched] at applied
      exact base.of_same applied limits
  | some op =>
      rw [touched] at applied
      refine ⟨base.db.apply setup.positive (fits op touched) applied,
        base.written.apply (fits op touched) applied, ?_, ?_⟩
      · rw [limits.min, limits.truncate]
        exact base.limits
      · exact fun generation isEnded =>
          (base.above generation isEnded).apply applied

/-- A step that resets the WAL ends the generations so far. -/
theorem above_of_step (stepped : state.step setup action = some next)
    (reset : next.db.wal = none ∨
      next.db.lastSalt1 ≠ state.db.lastSalt1) :
    next.db.Above state.db.lastSalt1 := by
  have applied := State.step_db stepped
  cases touched : action.dbOp with
  | none =>
      rw [touched] at applied
      rw [applied] at reset ⊢
      refine ⟨Nat.le_refl _, ?_⟩
      intro wal present
      rcases reset with absent | changed
      · rw [absent] at present
        cases present
      · exact absurd rfl changed
  | some op =>
      rw [touched] at applied
      exact Sqlite.above_of_reset applied reset

end Bases

section Positions

variable {setup : Setup} {ended : Option Nat} {pos : Position} {db : Sqlite}
  {threshold : Nat}

/-- A position at the end of a WAL is not spent. -/
theorem unspent_of_atWalEnd (positive : 1 ≤ threshold)
    (above : ∀ generation ∈ ended, db.Above generation)
    (atEnd : AtWalEnd setup.pageSize pos db) :
    ¬Spent setup ended pos threshold := by
  rintro ⟨enough, generation, isEnded, old⟩
  rw [liveWalFrames, atEnd.index] at enough
  cases present : db.wal with
  | none =>
      rw [Sqlite.frames_of_none present, List.length_nil] at enough
      omega
  | some wal =>
      have newer := (above generation isEnded).wal wal present
      have salt1 := atEnd.salt1
      rw [present] at salt1
      change pos.salt1 = wal.salt1 at salt1
      omega

/-- Nor is one from which nothing is left to sync, unless the WAL is empty. -/
theorem unspent_of_upToDate (written : db.Written)
    (above : ∀ generation ∈ ended, db.Above generation)
    (upToDate : UpToDate setup.pageSize pos db)
    (unspent : db.wal = none → ¬Spent setup ended pos threshold) :
    ¬Spent setup ended pos threshold := by
  cases present : db.wal with
  | none => exact unspent present
  | some wal =>
      rintro ⟨_, generation, isEnded, old⟩
      have newer := (above generation isEnded).wal wal present
      rcases upToDate.frames present with empty | ⟨salt1, _, _⟩
      · exact written wal present empty
      · omega

end Positions

section Steps

variable {setup : Setup} {config : DriverConfig} {watched next : Watched}

theorem Invariant.tick (invariant : Invariant setup watched) (now : Int)
    (resting : watched.ticker.stage = .resting) (idle : watched.state.pc = .idle)
    (fresh : ¬watched.Stale setup) :
    Invariant setup ⟨watched.ticker.begin_ setup now, watched.ended⟩ := by
  have base : Base setup watched.ended (watched.state.sync setup now) :=
    invariant.base.of_same (State.sync_db setup watched.state now)
      (State.sync_keeps setup watched.state now).toSameLimits
  cases under : buildUnderLock setup.pageSize now watched.state.pos
      watched.state.db with
  | error error =>
      rw [Ticker.begin_of_error under]
      apply base.invariant
      change watched.ticker.stage.pastSync = true
      rw [resting]
      rfl
  | ok result =>
      rw [Ticker.begin_of_ok under]
      have kept : (watched.state.sync setup now).minCheckpointFrames =
          watched.state.minCheckpointFrames :=
        (State.sync_keeps setup watched.state now).min
      refine ⟨base, ?_, fun _ impossible => by cases impossible⟩
      intro _ _ _
      change ((watched.state.sync setup now).pc = .idle ∨ ∃ staged,
          (watched.state.sync setup now).pc = .syncUpload staged) ∧
        ¬Spent setup watched.ended (watched.state.sync setup now).ahead
          (watched.state.sync setup now).minCheckpointFrames
      rw [kept]
      cases result with
      | none =>
          obtain ⟨mark, held⟩ := acquireReadLock_eq watched.state
          have ahead : watched.state.acquireReadLock.ahead =
              watched.state.pos := by
            rw [held, State.ahead, State.pending, idle]
            rfl
          rw [State.sync_of_none under, ahead]
          refine ⟨.inl (by rw [held]; exact idle), ?_⟩
          have upToDate := (buildUnderLock_eq_none invariant.base.db).mp under
          apply unspent_of_upToDate invariant.base.written
            invariant.base.above upToDate
          intro absent spent
          exact fresh ⟨absent, upToDate.txid, upToDate.emptied absent, spent⟩
      | some pair =>
          obtain ⟨staged, file⟩ := pair
          rw [State.sync_of_some under]
          refine ⟨.inr ⟨staged, rfl⟩, ?_⟩
          exact unspent_of_atWalEnd invariant.base.limits.1
            invariant.base.above
            (buildUnderLock_atWalEnd setup.positive invariant.base.db under)

/-- The steps of another connection leave the position alone. -/
theorem Invariant.outside {action : Action} {after : State}
    (invariant : Invariant setup watched)
    (fits : watched.state.Fits setup action) (foreign : action.foreign = true)
    (stepped : watched.state.step setup action = some after) :
    Invariant setup ⟨watched.ticker.withSyncer after, watched.ended⟩ := by
  have same := State.step_foreign foreign stepped
  have limits : SameLimits watched.state after := by
    obtain ⟨⟨db, rfl⟩, _⟩ := same
    exact ⟨rfl, rfl⟩
  have pc : after.pc = watched.state.pc := by
    obtain ⟨⟨db, rfl⟩, _⟩ := same
    rfl
  have pos : after.pos = watched.state.pos := by
    obtain ⟨⟨db, rfl⟩, _⟩ := same
    rfl
  have ahead : after.ahead = watched.state.ahead := by
    rw [State.ahead, State.ahead, State.pending, State.pending, pc, pos]
  refine ⟨invariant.base.step fits limits stepped, ?_, ?_⟩
  · intro now skipped running
    change (after.pc = .idle ∨ ∃ staged, after.pc = .syncUpload staged) ∧
      ¬Spent setup watched.ended after.ahead after.minCheckpointFrames
    rw [pc, ahead, limits.min]
    exact invariant.syncing now skipped running
  · intro now running
    change after.pc = .idle ∧
      ¬Spent setup watched.ended after.pos after.minCheckpointFrames
    rw [pc, pos, limits.min]
    exact invariant.synced now running

/-- The upload of a sync that returns. -/
theorem sync_uploaded {state after : State} {staged : StagedFile}
    {action : Action} (running : state.pc = .syncUpload staged)
    (goes : action.continues = true)
    (stepped : state.step setup action = some after)
    (returned : state.raises setup action = none) :
    after.pc = .idle ∧ after.pos = staged.newPos := by
  obtain ⟨ok, now, rfl, idle⟩ :=
    State.continues_of_syncUpload running goes stepped
  obtain ⟨other, pending, ⟨_, _, raised⟩ | ⟨_, _, pos, _⟩⟩ :=
    State.upload_ends stepped
  · exact absurd returned raised
  · rw [State.pending, running] at pending
    cases pending
    exact ⟨idle, pos⟩

/-- A step of the running call. -/
theorem Invariant.call {action : Action} {after : State} {stage : TickStage}
    {uploads : Nat} (invariant : Invariant setup watched)
    (fits : watched.state.Fits setup action) (goes : action.continues = true)
    (stepped : watched.state.step setup action = some after)
    (stages : stage = if watched.state.raises setup action = none then
      watched.ticker.stage else .resting)
    {ended : Option Nat}
    (endings : ended = watched.ended ∨
      (∀ now skipped, watched.ticker.stage ≠ .syncing now skipped) ∧
        ended = some watched.state.db.lastSalt1 ∧
        (after.db.wal = none ∨
          after.db.lastSalt1 ≠ watched.state.db.lastSalt1)) :
    Invariant setup
      ⟨{ watched.ticker.withSyncer after with
          stage := stage
          uploads := uploads }, ended⟩ := by
  have limits := State.continues_limits goes stepped
  have stuck : watched.state.pc ≠ .idle := by
    intro idle
    rw [State.continues_of_idle idle goes] at stepped
    cases stepped
  have base := invariant.base.step fits limits stepped
  refine ⟨?_, ?_, ?_⟩
  · rcases endings with rfl | ⟨_, rfl, reset⟩
    · exact base
    · refine ⟨base.db, base.written, base.limits, ?_⟩
      intro generation isEnded
      cases isEnded
      exact above_of_step stepped reset
  · intro now skipped running
    change stage = .syncing now skipped at running
    split at stages
    · rename_i returned
      rw [stages] at running
      obtain ⟨pc, unspent⟩ := invariant.syncing now skipped running
      obtain ⟨staged, uploading⟩ := pc.resolve_left stuck
      obtain ⟨idle, pos⟩ := sync_uploaded uploading goes stepped returned
      obtain rfl := endings.resolve_right fun reset =>
        reset.1 now skipped running
      have before : watched.state.ahead = staged.newPos := by
        rw [State.ahead, State.pending, uploading]
        rfl
      have ahead : after.ahead = staged.newPos := by
        rw [State.ahead, State.pending, idle, ← pos]
        rfl
      rw [before] at unspent
      change (after.pc = .idle ∨ ∃ staged, after.pc = .syncUpload staged) ∧
        ¬Spent setup watched.ended after.ahead after.minCheckpointFrames
      rw [ahead, limits.min]
      exact ⟨.inl idle, unspent⟩
    · rw [stages] at running
      cases running
  · intro now running
    change stage = .synced now at running
    split at stages
    · rw [stages] at running
      exact absurd (invariant.synced now running).1 stuck
    · rw [stages] at running
      cases running

/-- The tick goes on after a call. -/
theorem Invariant.proceed {after : Ticker} (invariant : Invariant setup watched)
    (idle : watched.state.pc = .idle)
    (stepped : watched.ticker.proceed setup config = some after) :
    Invariant setup ⟨after, watched.ended⟩ := by
  have base := invariant.base
  unfold Ticker.proceed at stepped
  split at stepped
  · cases stepped
  · rename_i now skipped running
    cases stepped
    have same : (Driver.afterSync skipped watched.ticker.driver).syncer =
        watched.state := Driver.syncer_afterSync skipped watched.ticker.driver
    refine ⟨?_, fun _ _ impossible => (by cases impossible), ?_⟩
    · change Base setup watched.ended
        (Driver.afterSync skipped watched.ticker.driver).syncer
      rw [same]
      exact base
    · intro _ _
      change (Driver.afterSync skipped watched.ticker.driver).syncer.pc =
          .idle ∧ ¬Spent setup watched.ended
            (Driver.afterSync skipped watched.ticker.driver).syncer.pos
            (Driver.afterSync skipped
              watched.ticker.driver).syncer.minCheckpointFrames
      rw [same]
      have unspent := (invariant.syncing now skipped running).2
      rw [State.ahead, State.pending, idle] at unspent
      exact ⟨idle, unspent⟩
  · rename_i now running
    cases stepped
    unfold Ticker.gate
    split
    · have kept := base.of_same
        (State.checkpointIfNeeded_db setup watched.state now)
        (State.checkpointIfNeeded_keeps setup watched.state now).toSameLimits
      dsimp only
      split
      · exact Base.invariant kept rfl
      · exact Base.invariant kept rfl
    · exact Base.invariant base rfl
  · cases stepped
    exact Base.invariant base rfl
  · rename_i now running
    cases stepped
    unfold Ticker.time
    split
    · have kept := base.of_same
        (State.runCheckpoint_db setup watched.state now .passive false)
        (State.runCheckpoint_keeps setup watched.state now
          .passive false).toSameLimits
      dsimp only
      split
      · exact Base.invariant kept rfl
      · exact Base.invariant kept rfl
    · exact Base.invariant base rfl
  · cases stepped
    exact Base.invariant base rfl

theorem resets_of_calm {ticker after : Ticker} {action : TickerAction}
    (calm : ∀ step, action ≠ .call step) :
    ticker.resets action after = false := by
  unfold Ticker.resets
  split
  · exact absurd rfl (calm _)
  · exact absurd rfl (calm _)
  · rfl

theorem resets_eq_true {ticker after : Ticker} {action : TickerAction}
    (reset : ticker.resets action after = true) :
    (∀ now skipped, ticker.stage ≠ .syncing now skipped) ∧
      (after.syncer.db.wal = none ∨
        after.syncer.db.lastSalt1 ≠ ticker.syncer.db.lastSalt1) := by
  unfold Ticker.resets at reset
  split at reset
  · rename_i running
    exact ⟨by simp [running], .inl (Option.isNone_iff_eq_none.mp reset)⟩
  · rename_i running
    exact ⟨by simp [running], .inr (of_decide_eq_true reset)⟩
  · cases reset

theorem Invariant.step {action : TickerAction}
    (invariant : Invariant setup watched) (sound : watched.Sound setup action)
    (stepped : watched.step setup config action = some next) :
    Invariant setup next := by
  obtain ⟨after, moved, rfl⟩ := Option.map_eq_some_iff.mp stepped
  obtain ⟨fits, fresh⟩ := sound
  cases action with
  | outside action =>
      simp only [Ticker.step] at moved
      split at moved
      · rename_i foreign
        obtain ⟨state, done, rfl⟩ := Option.map_eq_some_iff.mp moved
        rw [resets_of_calm fun _ impossible => by cases impossible]
        exact invariant.outside fits foreign done
      · cases moved
  | tick now =>
      simp only [Ticker.step] at moved
      split at moved
      · rename_i rests
        cases moved
        rw [resets_of_calm fun _ impossible => by cases impossible]
        exact invariant.tick now rests.1 rests.2.1 fresh
      · cases moved
  | call action =>
      simp only [Ticker.step] at moved
      split at moved
      · rename_i allowed
        obtain ⟨state, done, rfl⟩ := Option.map_eq_some_iff.mp moved
        apply invariant.call fits allowed.2 done rfl
        generalize remembered : watched.ticker.resets _ _ = reset
        cases reset with
        | false => exact .inl rfl
        | true =>
            obtain ⟨calm, ends⟩ := resets_eq_true remembered
            exact .inr ⟨calm, rfl, ends⟩
      · cases moved
  | proceed =>
      simp only [Ticker.step] at moved
      split at moved
      · rename_i idle
        rw [resets_of_calm fun _ impossible => by cases impossible]
        exact invariant.proceed idle moved
      · cases moved

theorem Starts.invariant (starts : watched.Starts setup) :
    Invariant setup watched := by
  apply Base.invariant
  · refine ⟨starts.db, starts.written,
      ⟨Nat.le_of_succ_le starts.limits.1, starts.limits.2⟩, ?_⟩
    intro generation isEnded
    rw [starts.ended] at isEnded
    cases isEnded
  · rw [starts.resting]
    rfl

theorem Invariant.counts (invariant : Invariant setup watched)
    (atGate : watched.AtGate) : watched.Counts setup := by
  intro isOpen generation isEnded
  obtain ⟨now, synced⟩ := atGate
  have unspent := (invariant.synced now synced).2
  have enough : watched.state.minCheckpointFrames ≤
      liveWalFrames setup watched.state.pos := by
    rcases isOpen with truncate | min
    · exact invariant.base.limits.2.trans truncate
    · exact min
  refine ⟨?_, enough⟩
  by_contra old
  exact unspent ⟨enough, generation, isEnded, not_lt.mp old⟩

/-- If no tick begins while the gate is stale, a gate that opens counts frames
of a generation that no frame-threshold checkpoint has ended. -/
theorem open_gate_counts_new_frames {start : Watched}
    (starts : start.Starts setup)
    (run : Reaches (Watched.step setup config) (Watched.Sound setup) start
      watched)
    (atGate : watched.AtGate) : watched.Counts setup := by
  have invariant : Invariant setup watched :=
    run.invariant starts.invariant fun _ _ _ invariant sound stepped =>
      invariant.step sound stepped
  exact invariant.counts atGate

theorem step_of_calm {action : TickerAction} {after : Ticker}
    (calm : ∀ step, action ≠ .call step)
    (moved : watched.ticker.step setup config action = some after) :
    watched.step setup config action = some ⟨after, watched.ended⟩ := by
  rw [Watched.step, moved, Option.map_some, resets_of_calm calm]
  rfl

/-- A tick that begins while the gate is stale opens it again. -/
theorem stale_gate_opens_again {now : Int}
    (resting : watched.ticker.stage = .resting)
    (idle : watched.state.pc = .idle) (ordered : watched.ticker.clock ≤ now)
    (stale : watched.Stale setup) :
    ∃ gated, Reaches (Watched.step setup config) (fun _ _ => True) watched
      gated ∧ gated.AtGate ∧ ¬gated.Counts setup := by
  obtain ⟨absent, txid, synced, enough, generation, isEnded, old⟩ := stale
  have under : buildUnderLock setup.pageSize now watched.ticker.syncer.pos
      watched.ticker.syncer.db = .ok none := by
    change buildUnderLock setup.pageSize now watched.state.pos
      watched.state.db = .ok none
    unfold buildUnderLock
    simp only [absent, plan, if_neg txid, if_pos synced]
  obtain ⟨mark, held⟩ := acquireReadLock_eq watched.state
  have found : watched.ticker.syncer.sync setup now =
      { watched.state with mark := mark } :=
    (State.sync_of_none under).trans held
  obtain ⟨begun, begins, skips, state⟩ : ∃ begun,
      watched.ticker.step setup config (.tick now) = some begun ∧
      begun.stage = .syncing now true ∧
      begun.syncer = { watched.state with mark := mark } := by
    refine ⟨_, if_pos ⟨resting, idle, ordered⟩, ?_, ?_⟩
    · rw [Ticker.begin_of_ok under, found]
      simp only [idle, decide_true]
    · rw [Ticker.begin_of_ok under, found]
      rfl
  have waits : begun.Waits := by
    rw [Ticker.Waits, state]
    exact idle
  have goesOn : begun.step setup config .proceed = some
      { begun with
        driver := Driver.afterSync true begun.driver
        stage := .synced now } := by
    rw [Ticker.step, if_pos waits, Ticker.proceed, skips]
  refine ⟨_, .tail (.tail .refl trivial (step_of_calm (by simp) begins)) trivial
    (step_of_calm (by simp) goesOn), ⟨now, rfl⟩, ?_⟩
  intro counts
  have gated : (⟨{ begun with
      driver := Driver.afterSync true begun.driver
      stage := .synced now }, watched.ended⟩ : Watched).state =
        { watched.state with mark := mark } := state
  unfold Counts at counts
  rw [gated] at counts
  have newer := (counts (.inr enough) generation isEnded).1
  change generation < watched.state.pos.salt1 at newer
  omega

end Steps

/-! ## A TRUNCATE checkpoint at every tick -/

/-- A new database whose gate opens at two frames. -/
def gatedStart : Watched where
  ticker := .new
    { quietState 2 with minCheckpointFrames := 2, truncateFrames := 2 }
  ended := none

theorem gatedStart_starts : gatedStart.Starts smallSetup where
  db := quietState_opened.db
  written := fun _ impossible => by cases impossible
  resting := rfl
  ended := rfl
  limits := by decide

/-- Two commits, and a tick whose checkpoint truncates the WAL. -/
def truncatedRun : List TickerAction :=
  [.outside (commitPage 1 1), .outside (commitPage 2 2), .tick 0,
    .call (.upload true 0), .proceed, .proceed, .call .release,
    .call (.pragma .truncated), .call .acquire, .call (.overFold 0), .proceed]

/-- In the next tick the gate is open although no frame was written since. -/
theorem truncate_repeats :
    ∃ setup config start gated, Watched.Starts setup start ∧
      Reaches (Watched.step setup config)
        (fun watched action => watched.ticker.Fits setup action) start gated ∧
      gated.AtGate ∧ ¬gated.Counts setup := by
  have runs : ∃ gated ∈ execGuarded
        (Watched.step smallSetup (.new .defaultLevels))
        (fun watched action => watched.ticker.Fits smallSetup action)
        gatedStart (truncatedRun ++ [.tick 1, .proceed]),
      gated.ticker.stage = .synced 1 ∧ gated.state.GateOpen smallSetup ∧
        gated.ended = some 1 ∧ gated.state.pos.salt1 = 1 := by
    decide +kernel
  obtain ⟨gated, ran, stage, isOpen, isEnded, salt1⟩ := runs
  refine ⟨smallSetup, _, gatedStart, gated, gatedStart_starts,
    reaches_of_execGuarded ran, ⟨1, stage⟩, ?_⟩
  intro counts
  have newer := (counts isOpen 1 isEnded).1
  omega

/-- A commit between the ticks makes the sync move the position. -/
theorem open_gate_counts_new_frames_committed :
    ∃ gated ∈ execGuarded (Watched.step smallSetup (.new .defaultLevels))
        (Watched.Sound smallSetup) gatedStart
        (truncatedRun ++ [.outside (commitPage 1 3),
          .outside (commitPage 1 4), .tick 1, .call (.upload true 1),
          .proceed]),
      gated.state.GateOpen smallSetup ∧ gated.ended = some 1 ∧
        gated.Counts smallSetup := by
  have runs : ∃ gated ∈ execGuarded
        (Watched.step smallSetup (.new .defaultLevels))
        (Watched.Sound smallSetup) gatedStart
        (truncatedRun ++ [.outside (commitPage 1 3),
          .outside (commitPage 1 4), .tick 1, .call (.upload true 1),
          .proceed]),
      gated.ticker.stage = .synced 1 ∧ gated.state.GateOpen smallSetup ∧
        gated.ended = some 1 := by
    decide +kernel
  obtain ⟨gated, ran, stage, isOpen, isEnded⟩ := runs
  exact ⟨gated, ran, isOpen, isEnded, open_gate_counts_new_frames
    gatedStart_starts (reaches_of_execGuarded ran) ⟨1, stage⟩⟩

end Watched

end Literstream
