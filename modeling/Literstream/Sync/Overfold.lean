import Literstream.Sync.Covered
import Literstream.Sync.Checkpoints
import Literstream.Sync.Lifetime

/-!
# When the over-fold test is right

The test compares the PRAGMA's count with the frames that the position counts.
It is right as long as both are about one generation of the WAL.
-/

namespace Literstream

open Machine State

/-! ## Observed checkpoints -/

/-- A syncer, what its newest checkpoint cycle began with, and the database
before and after the PRAGMA. -/
structure Observed where
  state : State
  begun : Sqlite
  begunPos : Position
  before : Sqlite
  after : Sqlite

/-- The frames that the position counts after a sync of the WAL. -/
def countedFrames (setup : Setup) (pos : Position) (db : Sqlite) : Nat :=
  match db.wal with
  | some wal => wal.frames.length
  | none =>
      if plan setup.pageSize pos none = .skip then liveWalFrames setup pos
      else 0

namespace Observed

/-- What is remembered of a step. -/
def observe (observed : Observed) (action : Action) (next : State) :
    Observed :=
  match action with
  | .checkpointIfNeeded _ =>
      { observed with
        state := next
        begun := observed.state.db
        begunPos := observed.state.pos }
  | .checkpointNow _ _ =>
      { observed with
        state := next
        begun := observed.state.db
        begunPos := observed.state.pos }
  | .pragma _ =>
      { observed with
        state := next
        before := observed.state.db
        after := next.db }
  | _ => { observed with state := next }

def step (setup : Setup) (observed : Observed) (action : Action) :
    Option Observed :=
  (observed.state.step setup action).map (observed.observe action)

/-- Other connections only commit; SQLite numbers frames with 32 bits. -/
def CommitsOnly (setup : Setup) (observed : Observed) (action : Action) :
    Prop :=
  observed.state.Fits setup action ∧
    match action with
    | .appCheckpoint _ => False
    | .appTruncate => False
    | .commit _ _ txn => observed.state.db.frames.length + txn.length < 2 ^ 32
    | .bump _ _ _ txn => observed.state.db.frames.length + txn.length < 2 ^ 32
    | _ => True

instance (setup : Setup) (observed : Observed) (action : Action) :
    Decidable (observed.CommitsOnly setup action) := by
  unfold CommitsOnly
  rcases action <;> infer_instance

/-- The PRAGMA copied a frame that the chain does not contain. -/
def CopiedUncovered (setup : Setup) (observed : Observed) : Prop :=
  ∃ wal, observed.before.wal = some wal ∧
    ∃ index, observed.before.backfill ≤ index ∧
      index < observed.after.backfill ∧
      ¬HoldsFrame setup.pageSize observed.state.store wal.salt1 wal.salt2 index

instance (setup : Setup) (observed : Observed) :
    Decidable (observed.CopiedUncovered setup) := by
  unfold CopiedUncovered
  cases observed.before.wal with
  | none => exact .isFalse (by simp)
  | some wal =>
      exact decidable_of_iff (∃ index < observed.after.backfill,
          observed.before.backfill ≤ index ∧
            ¬HoldsFrame setup.pageSize observed.state.store wal.salt1
              wal.salt2 index)
        (by simp only [Option.some.injEq, exists_eq_left', and_left_comm])

/-- The WAL is still the one that the cycle began with. -/
def SameGeneration (observed : Observed) : Prop :=
  ∃ old wal, observed.begun.wal = some old ∧ observed.before.wal = some wal ∧
    old.salt1 = wal.salt1

/-- SQLite's count can be compared: it got the lock, and the WAL was kept, or
the count is zero or larger than any that the position may hold. -/
def Comparable (setup : Setup) (observed : Observed)
    (result : CheckpointResult) : Prop :=
  result.busy = false ∧
    (observed.SameGeneration ∨ result.checkpointedFrames = 0 ∨
      countedFrames setup observed.begunPos observed.begun <
        result.checkpointedFrames)

/-- A syncer at rest whose chain covers what its position counts. -/
structure Starts (setup : Setup) (observed : Observed) : Prop where
  idle : observed.state.pc = .idle
  db : DbOk setup.pageSize observed.state.db
  written : observed.state.db.Written
  covered : Covered setup.pageSize observed.state.store observed.state.pos
    observed.state.db
  counts : liveWalFrames setup observed.state.pos < 2 ^ 32 ∧
    observed.state.db.frames.length < 2 ^ 32

end Observed

/-! ## Databases to which only commits came -/

/-- The WAL is the same, or began later. -/
structure Sqlite.Since (begun db : Sqlite) : Prop where
  last : begun.lastSalt1 ≤ db.lastSalt1
  wal : ∀ wal, db.wal = some wal →
    (∃ old, begun.wal = some old ∧ old.salt1 = wal.salt1 ∧
        old.salt2 = wal.salt2 ∧ db.backfill = begun.backfill) ∨
      begun.lastSalt1 < wal.salt1 ∧ db.backfill = 0

theorem Sqlite.Since.refl (db : Sqlite) : db.Since db where
  last := Nat.le_refl _
  wal wal present := .inl ⟨wal, present, rfl, rfl, rfl⟩

theorem Sqlite.Since.commit {pageSize salt2 : Nat} {begun db next : Sqlite}
    {restart : Bool} {txn : List Frame} (since : begun.Since db)
    (applied : db.apply pageSize (commitOp restart salt2 txn) = some next) :
    begun.Since next := by
  have last := since.last
  refine ⟨last.trans (Sqlite.lastSalt1_apply applied), ?_⟩
  intro wal present
  cases restart with
  | true =>
      obtain ⟨_, _, _, _, _, backfill, _, _, started⟩ :=
        Sqlite.restart_eq_some applied
      rw [started] at present
      cases present
      exact .inr ⟨Nat.lt_succ_of_le last, backfill⟩
  | false =>
      cases applied
      unfold Sqlite.append at present ⊢
      cases old : db.wal with
      | none =>
          rw [old] at present
          cases present
          exact .inr ⟨Nat.lt_succ_of_le last, rfl⟩
      | some before =>
          rw [old] at present
          cases present
          exact since.wal before old

/-! ## What the chain covers during a call -/

/-- The chain covers what the position counts, now and after the pending
upload. -/
structure State.Held (setup : Setup) (state : State) (db : Sqlite) :
    Prop where
  now : Covered setup.pageSize state.store state.pos db
  later : ∀ staged, state.pending = some staged → ∃ file,
    state.staging[staged.key]? = some file ∧
      Covered setup.pageSize (state.store.insert staged.key file)
        staged.newPos db
  counts : liveWalFrames setup state.pos < 2 ^ 32
  laterCounts : ∀ staged, state.pending = some staged →
    liveWalFrames setup staged.newPos < 2 ^ 32

section Held

variable {setup : Setup} {state next : State} {action : Action} {db : Sqlite}

theorem State.Held.apply {op : SqliteOp} {after : Sqlite}
    (held : state.Held setup db)
    (applied : db.apply setup.pageSize op = some after) :
    state.Held setup after where
  now := held.now.apply applied
  later staged pending := by
    obtain ⟨file, found, covered⟩ := held.later staged pending
    exact ⟨file, found, covered.apply applied⟩
  counts := held.counts
  laterCounts := held.laterCounts

/-- A step keeps this of a database, unless it builds from another one. -/
theorem State.Held.step (held : state.Held setup db)
    (fresh : state.stages setup action = none ∨
      state.db = db ∧ DbOk setup.pageSize db ∧ db.frames.length < 2 ^ 32)
    (stepped : state.step setup action = some next) :
    next.Held setup db := by
  cases step_move stepped with
  | kept store staging pos pending _ _ _ =>
      refine ⟨?_, ?_, ?_, ?_⟩
      · rw [store, pos]
        exact held.now
      · rw [store, staging, pending]
        exact held.later
      · rw [pos]
        exact held.counts
      · rw [pending]
        exact held.laterCounts
  | staged draft staged file drafted stages _ built _ _ _ store staging pos
      pending =>
      rcases fresh with none_ | ⟨same, ok, short⟩
      · rw [none_] at stages
        cases stages
      · have drawn : draft.db = db := (State.draft_db drafted).trans same
        have build := held.now.build setup.positive ok (by
          rcases Draft.build_cases built with ⟨_, under⟩ | snapshot
          · rw [drawn] at under
            exact .inl under
          · rw [drawn] at snapshot
            exact .inr snapshot)
        obtain ⟨atEnd, covered⟩ := build
        refine ⟨?_, ?_, ?_, ?_⟩
        · rw [store, pos]
          exact held.now
        · rw [store, staging, pending]
          intro other found
          cases found
          exact ⟨file, Std.ExtTreeMap.getElem?_insert_self, covered⟩
        · rw [pos]
          exact held.counts
        · rw [pending]
          intro other found
          cases found
          rw [liveWalFrames, atEnd.index]
          exact short
  | uploaded staged file pending found _ store _ pos free _ _ _ =>
      obtain ⟨other, same, covered⟩ := held.later staged pending
      rw [found] at same
      cases same
      have nothing : ∀ staged, next.pending ≠ some staged := by
        rw [free]
        exact fun _ impossible => by cases impossible
      refine ⟨?_, fun staged impossible => absurd impossible (nothing staged),
        ?_, fun staged impossible => absurd impossible (nothing staged)⟩
      · rw [store, pos]
        exact covered
      · rw [pos]
        exact held.laterCounts staged pending
  | dropped _ _ store _ pos free _ _ =>
      have nothing : ∀ staged, next.pending ≠ some staged := by
        rw [free]
        exact fun _ impossible => by cases impossible
      refine ⟨?_, fun staged impossible => absurd impossible (nothing staged),
        ?_, fun staged impossible => absurd impossible (nothing staged)⟩
      · rw [store, pos]
        exact held.now
      · rw [pos]
        exact held.counts

end Held

/-! ## What a cycle knows -/

/-- What a cycle has captured. -/
structure Cycle.Started (setup : Setup) (cycle : Cycle) (begun : Sqlite)
    (begunPos ahead : Position) : Prop where
  synced : cycle.syncedFrames = liveWalFrames setup ahead
  counted : cycle.syncedFrames = countedFrames setup begunPos begun
  small : cycle.syncedFrames < 2 ^ 32
  salts : ahead.salt1 ≤ begun.lastSalt1
  wal : ∀ old, begun.wal = some old →
    old.salt1 = ahead.salt1 ∧ old.salt2 = ahead.salt2
  db : DbOk setup.pageSize begun

/-- What SQLite replied to a PASSIVE checkpoint. -/
def PassiveReply (before after : Sqlite) (result : CheckpointResult) : Prop :=
  result.busy = true ∧ result.checkpointedFrames = -1 ∧
      after.backfill = before.backfill ∨
    result.busy = false ∧ result.checkpointedFrames = after.backfill ∧
      after.backfill ≤ before.frames.length

namespace Observed

/-- After the PRAGMA. -/
structure Replied (setup : Setup) (observed : Observed) (cycle : Cycle)
    (result : CheckpointResult) : Prop where
  started : cycle.Started setup observed.begun observed.begunPos
    observed.state.ahead
  since : observed.begun.Since observed.before
  held : observed.state.Held setup observed.before
  short : observed.before.frames.length < 2 ^ 32
  reply : cycle.mode = .passive →
    PassiveReply observed.before observed.after result

def InCycle (setup : Setup) (observed : Observed) : Prop :=
  match observed.state.pc with
  | .release cycle | .pragma cycle =>
      cycle.Started setup observed.begun observed.begunPos
          observed.state.ahead ∧
        observed.begun.Since observed.state.db
  | .bump cycle result | .acquire cycle result | .upload cycle _ result
  | .fold cycle result => observed.Replied setup cycle result
  | _ => True

structure Invariant (setup : Setup) (observed : Observed) : Prop where
  db : DbOk setup.pageSize observed.state.db
  written : observed.state.db.Written
  short : observed.state.db.frames.length < 2 ^ 32
  held : observed.state.Held setup observed.state.db
  cycle : observed.InCycle setup

end Observed

section Cycles

variable {setup : Setup} {state : State}

/-- A cycle starts with what the database holds. -/
theorem State.runCheckpoint_started (ok : DbOk setup.pageSize state.db)
    (written : state.db.Written)
    (covered : Covered setup.pageSize state.store state.pos state.db)
    (counts : liveWalFrames setup state.pos < 2 ^ 32)
    (short : state.db.frames.length < 2 ^ 32) (now : Int)
    (mode : CheckpointMode) (restartWal : Bool) :
    state.runCheckpoint setup now mode restartWal = state.acquireReadLock ∨
      ∃ cycle,
        (state.runCheckpoint setup now mode restartWal).pc = .release cycle ∧
        cycle.Started setup state.db state.pos
          (state.runCheckpoint setup now mode restartWal).ahead := by
  rcases runCheckpoint_cases ok now mode restartWal with
    failed | ⟨cycle, running, pos, _, _, found⟩
  · exact .inl failed
  right
  refine ⟨cycle, running, ?_⟩
  have ahead : (state.runCheckpoint setup now mode restartWal).ahead =
      (cycle.staged.map StagedFile.newPos).getD state.pos := by
    rw [State.ahead, State.pending, running, pos]
  rw [ahead]
  rcases found with ⟨staged, synced, upToDate⟩ |
    ⟨file, staged, synced, atEnd, behind⟩
  · rw [staged]
    have salts : ∀ old, state.db.wal = some old →
        old.salt1 = state.pos.salt1 ∧ old.salt2 = state.pos.salt2 := by
      intro old present
      rcases upToDate.frames present with empty | ⟨salt1, salt2, _⟩
      · exact absurd empty (written old present)
      · exact ⟨salt1, salt2⟩
    refine ⟨synced, ?_, synced ▸ counts, covered.salts, salts, ok⟩
    rw [synced, countedFrames]
    cases present : state.db.wal with
    | none =>
        dsimp only
        rw [if_pos (plan_eq_skip.mpr ⟨upToDate.txid,
          upToDate.emptied present⟩)]
    | some wal =>
        have inside := (covered.wal wal present).1.inside
        rw [Wal.captured, if_pos (salts wal present)] at inside
        have all := upToDate.counts
        rw [Sqlite.frames_of_wal present] at all
        exact Nat.le_antisymm inside all
  · rw [staged]
    have length := atEnd.index
    refine ⟨synced, ?_, ?_, ?_, ?_, ok⟩
    · rw [synced, liveWalFrames, length, countedFrames]
      cases present : state.db.wal with
      | none =>
          rw [Sqlite.frames_of_none present]
          dsimp only
          rw [if_neg]
          · rfl
          · intro skips
            obtain ⟨txid, emptied⟩ := plan_eq_skip.mp skips
            refine behind ⟨txid, fun _ => emptied, fun wal impossible => ?_⟩
            rw [present] at impossible
            cases impossible
      | some wal =>
          rw [Sqlite.frames_of_wal present]
    · rw [synced, liveWalFrames, length]
      exact short
    · change file.newPos.salt1 ≤ _
      rw [atEnd.salt1]
      cases present : state.db.wal with
      | none => exact Nat.zero_le _
      | some wal => exact (ok.salts wal present).2
    · intro old present
      have salt1 := atEnd.salt1
      have salt2 := atEnd.salt2
      rw [present] at salt1 salt2
      exact ⟨salt1.symm, salt2.symm⟩

end Cycles

namespace Observed

variable {setup : Setup} {observed next : Observed} {action : Action}

@[simp] theorem state_observe (observed : Observed) (action : Action)
    (next : State) : (observed.observe action next).state = next := by
  unfold observe
  split
  · rfl
  · rfl
  · rfl
  · rfl

theorem Replied.goesOn {cycle : Cycle} {result : CheckpointResult}
    {after : State} (replied : observed.Replied setup cycle result)
    (ahead : after.ahead = observed.state.ahead)
    (held : after.Held setup observed.before) :
    Replied setup { observed with state := after } cycle result where
  started := by
    rw [ahead]
    exact replied.started
  since := replied.since
  held := held
  short := replied.short
  reply := replied.reply

/-- The steps beside the running call. -/
theorem InCycle.beside {after : State} (cycle : observed.InCycle setup)
    (same : after.pc = observed.state.pc) (pos : after.pos = observed.state.pos)
    (held : ∀ db, observed.state.Held setup db → after.Held setup db)
    (since : observed.begun.Since observed.state.db →
      observed.begun.Since after.db) :
    InCycle setup { observed with state := after } := by
  have ahead : after.ahead = observed.state.ahead := by
    rw [State.ahead, State.ahead, State.pending, State.pending, same, pos]
  unfold InCycle at cycle ⊢
  dsimp only
  rw [same, ahead]
  cases running : observed.state.pc with
  | release cycle_ | pragma cycle_ =>
      rw [running] at cycle
      exact ⟨cycle.1, since cycle.2⟩
  | bump cycle_ result | acquire cycle_ result | upload cycle_ _ result
  | fold cycle_ result =>
      rw [running] at cycle
      exact Replied.goesOn cycle ahead (held _ cycle.held)
  | _ => trivial

/-- A call that begins or ends is in no cycle. -/
theorem InCycle.of_outside {after : Observed}
    (outside : after.state.pc = .idle ∨
      ∃ staged, after.state.pc = .syncUpload staged ∨
        after.state.pc = .catchUp staged) : after.InCycle setup := by
  unfold InCycle
  rcases outside with running | ⟨staged, running | running⟩
  · rw [running]
    trivial
  · rw [running]
    trivial
  · rw [running]
    trivial

/-- The reply to a PASSIVE checkpoint. -/
theorem passiveReply_of_runPragma {state : State} {outcome : PragmaOutcome}
    {db : Sqlite} {result : CheckpointResult}
    (done : state.runPragma setup.pageSize .passive outcome =
      some (db, result)) : PassiveReply state.db db result := by
  cases outcome with
  | locked =>
      cases done
      exact .inl ⟨rfl, rfl, rfl⟩
  | copied frames =>
      simp only [State.runPragma] at done
      split at done
      · rename_i bounds
        cases done
        exact .inr ⟨rfl, rfl, bounds.2.1⟩
      · cases done
  | truncated => simp [State.runPragma] at done
  | blocked frames => simp [State.runPragma] at done

theorem InCycle.checkpoint {now : Int} {mode : CheckpointMode}
    {restartWal : Bool} (invariant : observed.Invariant setup)
    (idle : observed.state.pc = .idle) :
    InCycle setup
      { observed with
        state := observed.state.runCheckpoint setup now mode restartWal
        begun := observed.state.db
        begunPos := observed.state.pos } := by
  rcases State.runCheckpoint_started invariant.db invariant.written
      invariant.held.now invariant.held.counts invariant.short now mode
      restartWal with failed | ⟨cycle, running, started⟩
  · obtain ⟨mark, held⟩ := acquireReadLock_eq observed.state
    apply InCycle.of_outside
    left
    rw [failed, held]
    exact idle
  · unfold InCycle
    dsimp only
    rw [running]
    refine ⟨started, ?_⟩
    rw [State.runCheckpoint_db]
    exact .refl _

/-- What a cycle knows stays true. -/
theorem InCycle.step (invariant : observed.Invariant setup)
    (commits : observed.CommitsOnly setup action)
    (stepped : observed.step setup action = some next) :
    next.InCycle setup := by
  obtain ⟨after, done, rfl⟩ := Option.map_eq_some_iff.mp stepped
  have cycle := invariant.cycle
  have held : observed.state.stages setup action = none → ∀ db,
      observed.state.Held setup db → after.Held setup db :=
    fun unstaged db held => held.step (.inl unstaged) done
  cases action with
  | commit restart salt2 txn =>
      obtain ⟨db, committed, rfl⟩ := Option.map_eq_some_iff.mp done
      have applied : observed.state.db.apply setup.pageSize
          (commitOp restart salt2 txn) = some db := commitFrames_apply committed
      exact cycle.beside rfl rfl (held rfl) fun since => since.commit applied
  | appCheckpoint frames => exact commits.2.elim
  | appTruncate => exact commits.2.elim
  | tune minCheckpointFrames truncateFrames =>
      cases done
      exact cycle.beside rfl rfl (held rfl) id
  | sync now =>
      simp only [State.step] at done
      split at done
      · rename_i idle
        cases done
        apply InCycle.of_outside
        rw [state_observe]
        obtain ⟨mark, kept⟩ := acquireReadLock_eq observed.state
        unfold State.sync
        rcases buildNext_cases setup observed.state now with
          ⟨_, built, _⟩ | ⟨built, _⟩ | ⟨staged, _, built, _⟩
        · rw [built, kept]
          exact .inl idle
        · rw [built, kept]
          exact .inl idle
        · rw [built]
          exact .inr ⟨staged, .inl rfl⟩
      · cases done
  | checkpointIfNeeded now =>
      simp only [State.step] at done
      split at done
      · rename_i idle
        cases done
        unfold State.checkpointIfNeeded
        split
        · exact .checkpoint invariant idle
        · split
          · exact .checkpoint invariant idle
          · exact .of_outside (.inl idle)
      · cases done
  | checkpointNow now mode =>
      simp only [State.step] at done
      split at done
      · rename_i idle
        cases done
        exact .checkpoint invariant idle
      · cases done
  | release =>
      simp only [State.step] at done
      split at done
      · rename_i cycle_ running
        cases done
        rw [InCycle, running] at cycle
        obtain ⟨started, since⟩ := cycle
        rw [State.ahead, State.pending, running] at started
        exact ⟨started, since⟩
      · cases done
  | pragma outcome =>
      simp only [State.step] at done
      split at done
      · rename_i cycle_ running
        obtain ⟨⟨db, result⟩, checkpointed, rfl⟩ :=
          Option.map_eq_some_iff.mp done
        rw [InCycle, running] at cycle
        obtain ⟨started, since⟩ := cycle
        rw [State.ahead, State.pending, running] at started
        have reply : cycle_.mode = .passive →
            PassiveReply observed.state.db db result := by
          intro passive
          rw [passive] at checkpointed
          exact passiveReply_of_runPragma checkpointed
        have kept := held rfl _ invariant.held
        by_cases bumps : cycle_.restartWal ∧ cycle_.mode = .passive ∧
            ¬result.busy
        · simp only [if_pos bumps] at kept ⊢
          exact ⟨started, since, kept, invariant.short, reply⟩
        · simp only [if_neg bumps] at kept ⊢
          exact ⟨started, since, kept, invariant.short, reply⟩
      · cases done
  | bump succeeds restart salt2 txn =>
      simp only [State.step] at done
      split at done
      · rename_i cycle_ result running
        rw [InCycle, running] at cycle
        cases succeeds with
        | false =>
            cases done
            exact .of_outside (.inl rfl)
        | true =>
            obtain ⟨db, committed, rfl⟩ := Option.map_eq_some_iff.mp done
            refine Replied.goesOn cycle ?_ (held rfl _ cycle.held)
            rw [State.ahead, State.ahead, State.pending, State.pending, running]
      · cases done
  | acquire =>
      simp only [State.step] at done
      split at done
      · rename_i cycle_ result running
        cases done
        rw [InCycle, running] at cycle
        have kept := held rfl _ cycle.held
        obtain ⟨mark, same⟩ := acquireReadLock_eq observed.state
        rw [same] at kept ⊢
        have ahead : observed.state.ahead =
            (cycle_.staged.map StagedFile.newPos).getD observed.state.pos := by
          rw [State.ahead, State.pending, running]
        cases staged : cycle_.staged with
        | none =>
            rw [staged] at kept ahead
            exact Replied.goesOn cycle ahead.symm kept
        | some file =>
            rw [staged] at kept ahead
            exact Replied.goesOn cycle ahead.symm kept
      · cases done
  | upload succeeds now =>
      obtain ⟨staged, pc, _, pending, ending, ended⟩ := upload_cases done
      rcases ended with ⟨rfl, _⟩ | ⟨_, uploaded, put, rfl⟩
      · exact .of_outside (.inl rfl)
      · obtain ⟨file, _, rfl⟩ := uploadStaged_eq_ok put
        rcases ending with ⟨rfl, _⟩ | ⟨cycle_, result, running, rfl⟩
        · exact .of_outside (.inl rfl)
        · rw [InCycle, running] at cycle
          refine Replied.goesOn cycle ?_ (held rfl _ cycle.held)
          change staged.newPos = observed.state.ahead
          rw [State.ahead, pending]
          rfl
  | overFold now =>
      simp only [State.step] at done
      split at done
      · rename_i cycle_ result running
        cases done
        apply InCycle.of_outside
        rw [state_observe]
        rcases overFold_cases setup observed.state cycle_ result now with
          ⟨_, ended⟩ | ⟨_, ⟨_, _, ended⟩ | ⟨staged, _, _, ended⟩⟩
        · exact .inl (by rw [ended])
        · exact .inl (by rw [ended])
        · exact .inr ⟨staged, .inr (by rw [ended])⟩
      · cases done

theorem txn_commitOp (restart : Bool) (salt2 : Nat) (txn : List Frame) :
    (commitOp restart salt2 txn).txn = some txn := by
  cases restart with
  | false => rfl
  | true => rfl

theorem Invariant.short_step (invariant : observed.Invariant setup)
    {after : State} (commits : observed.CommitsOnly setup action)
    (stepped : observed.state.step setup action = some after) :
    after.db.frames.length < 2 ^ 32 := by
  have applied := State.step_db stepped
  cases touched : action.dbOp with
  | none =>
      rw [touched] at applied
      rw [applied]
      exact invariant.short
  | some op =>
      rw [touched] at applied
      refine (Sqlite.length_apply applied).trans_lt ?_
      have brings : op.txn = none →
          observed.state.db.frames.length + (op.txn.getD []).length <
            2 ^ 32 := by
        intro nothing
        rw [nothing]
        exact invariant.short
      cases action with
      | commit restart salt2 txn =>
          cases touched
          rw [txn_commitOp]
          exact commits.2
      | bump succeeds restart salt2 txn =>
          cases succeeds with
          | false => cases touched
          | true =>
              cases touched
              rw [txn_commitOp]
              exact commits.2
      | appCheckpoint frames => exact commits.2.elim
      | appTruncate => exact commits.2.elim
      | pragma outcome =>
          cases outcome with
          | locked => cases touched
          | copied frames | truncated | blocked frames =>
              cases touched
              exact brings rfl
      | _ => cases touched

theorem Invariant.step (invariant : observed.Invariant setup)
    (commits : observed.CommitsOnly setup action)
    (stepped : observed.step setup action = some next) :
    next.Invariant setup := by
  have cycle := InCycle.step invariant commits stepped
  obtain ⟨after, done, rfl⟩ := Option.map_eq_some_iff.mp stepped
  have applied := State.step_db done
  have held : after.Held setup observed.state.db :=
    invariant.held.step (.inr ⟨rfl, invariant.db, invariant.short⟩) done
  refine ⟨?_, ?_, ?_, ?_, cycle⟩
  · rw [state_observe]
    exact (invariant.db.step commits.1 done).1
  · rw [state_observe]
    cases touched : action.dbOp with
    | none =>
        rw [touched] at applied
        rw [applied]
        exact invariant.written
    | some op =>
        rw [touched] at applied
        exact invariant.written.apply (commits.1 op touched) applied
  · rw [state_observe]
    exact invariant.short_step commits done
  · rw [state_observe]
    cases touched : action.dbOp with
    | none =>
        rw [touched] at applied
        rw [applied]
        exact held
    | some op =>
        rw [touched] at applied
        exact held.apply applied

theorem Starts.invariant (starts : observed.Starts setup) :
    observed.Invariant setup where
  db := starts.db
  written := starts.written
  short := starts.counts.2
  held :=
    { now := starts.covered
      later := by
        rw [State.pending, starts.idle]
        exact fun _ impossible => by cases impossible
      counts := starts.counts.1
      laterCounts := by
        rw [State.pending, starts.idle]
        exact fun _ impossible => by cases impossible }
  cycle := .of_outside (.inl starts.idle)

/-! ## The test -/

theorem asU64_of_lt {count : Nat} (small : count < 2 ^ 32) :
    asU64 count = count := by
  unfold asU64
  omega

/-- The frames that were copied and are not covered. -/
theorem copiedUncovered_iff {wal : Wal}
    (held : observed.state.Held setup observed.before)
    (present : observed.before.wal = some wal) :
    observed.CopiedUncovered setup ↔
      max observed.before.backfill
        (wal.captured setup.pageSize observed.state.pos) <
          observed.after.backfill := by
  have covers := (held.now.wal wal present).2
  constructor
  · rintro ⟨other, same, index, copied, inside, uncovered⟩
    rw [present] at same
    cases same
    rw [covers index, not_lt] at uncovered
    omega
  · intro some_
    refine ⟨wal, present, max observed.before.backfill
      (wal.captured setup.pageSize observed.state.pos),
      Nat.le_max_left _ _, some_, ?_⟩
    rw [covers, not_lt]
    exact Nat.le_max_right _ _

/-- What the over-fold test decides, and what it stands for. -/
theorem Replied.agrees {cycle : Cycle} {result : CheckpointResult}
    (replied : observed.Replied setup cycle result)
    (running : observed.state.pc = .fold cycle result)
    (passive : cycle.mode = .passive) :
    (cycle.Overfolded result ↔ observed.CopiedUncovered setup) ↔
      observed.Comparable setup result := by
  obtain ⟨started, since, held, short, reply⟩ := replied
  have ahead : observed.state.ahead = observed.state.pos := by
    rw [State.ahead, State.pending, running]
    rfl
  rw [ahead] at started
  have small := started.small
  rcases reply passive with ⟨busy, locked, kept⟩ | ⟨free, copied, bound⟩
  · -- nothing was copied, and -1 is the largest count
    have over_ : cycle.Overfolded result := by
      have largest : asU64 (-1) = 2 ^ 64 - 1 := rfl
      rw [Cycle.Overfolded, locked, largest]
      omega
    have nothing : ¬observed.CopiedUncovered setup := by
      rintro ⟨_, _, index, first, last, _⟩
      omega
    have incomparable : ¬observed.Comparable setup result := by
      rintro ⟨impossible, _⟩
      rw [busy] at impossible
      cases impossible
    exact iff_of_false (fun same => nothing (same.mp over_)) incomparable
  · have over_ : cycle.Overfolded result ↔
        cycle.syncedFrames < observed.after.backfill := by
      rw [Cycle.Overfolded, copied, asU64_of_lt (by omega)]
    rw [over_, Comparable, copied]
    cases present : observed.before.wal with
    | none =>
        have none_ : observed.after.backfill = 0 := by
          rw [Sqlite.frames_of_none present] at bound
          exact Nat.le_zero.mp bound
        have nothing : ¬observed.CopiedUncovered setup := by
          rintro ⟨_, impossible, _⟩
          rw [present] at impossible
          cases impossible
        rw [none_]
        exact iff_of_true (iff_of_false (Nat.not_lt_zero _) nothing)
          ⟨free, .inr (.inl rfl)⟩
    | some wal =>
        rw [copiedUncovered_iff held present]
        rcases since.wal wal present with
          ⟨old, begun, salt1, salt2, backfill⟩ | ⟨newer, backfill⟩
        · have salts := started.wal old begun
          rw [salt1, salt2] at salts
          have captured : wal.captured setup.pageSize observed.state.pos =
              cycle.syncedFrames := by
            rw [Wal.captured, if_pos salts, started.synced, liveWalFrames]
          have copiedBefore : observed.before.backfill ≤
              cycle.syncedFrames := by
            have counted := started.counted
            have inside := started.db.backfill
            rw [countedFrames, begun] at counted
            rw [Sqlite.frames_of_wal begun] at inside
            rw [counted, backfill]
            exact inside
          rw [captured, Nat.max_eq_right copiedBefore]
          exact iff_of_true Iff.rfl
            ⟨free, .inl ⟨old, wal, begun, present, salt1⟩⟩
        · have other : ¬(wal.salt1 = observed.state.pos.salt1 ∧
              wal.salt2 = observed.state.pos.salt2) := by
            have older := started.salts
            omega
          have restarted : ¬observed.SameGeneration := by
            rintro ⟨old, found, begun, same, salt1⟩
            rw [present] at same
            cases same
            have older := (started.db.salts old begun).2
            omega
          rw [Wal.captured, if_neg other, backfill, ← started.counted]
          constructor
          · intro agrees
            refine ⟨free, .inr ?_⟩
            omega
          · rintro ⟨_, same | rest⟩
            · exact absurd same restarted
            · omega

/-- A PASSIVE cycle that returns takes the catch-up snapshot exactly when its
PRAGMA copied a frame that the chain does not contain, if and only if the
PRAGMA's count is comparable. -/
theorem catch_up_iff {start : Observed} {now : Int} {cycle : Cycle}
    {result : CheckpointResult} {after : State}
    (starts : start.Starts setup)
    (run : Reaches (Observed.step setup) (CommitsOnly setup) start observed)
    (running : observed.state.pc = .fold cycle result)
    (passive : cycle.mode = .passive)
    (stepped : observed.state.step setup (.overFold now) = some after) :
    ((∃ staged, after.pc = .catchUp staged) ↔
        observed.CopiedUncovered setup) ↔
      observed.Comparable setup result := by
  have invariant : observed.Invariant setup :=
    run.invariant starts.invariant fun _ _ _ invariant commits stepped =>
      invariant.step commits stepped
  have replied := invariant.cycle
  rw [InCycle, running] at replied
  rw [← Replied.agrees replied running passive]
  simp only [State.step, running] at stepped
  cases stepped
  rcases overFold_cases setup observed.state cycle result now with
    ⟨notOver, ended⟩ | ⟨over_, ⟨error, failed, _⟩ | ⟨staged, _, _, ended⟩⟩
  · have none_ : ¬∃ staged, (observed.state.overFold setup cycle result
        now).pc = .catchUp staged := by
      rw [ended]
      rintro ⟨_, impossible⟩
      cases impossible
    rw [iff_false_intro none_, iff_false_intro notOver]
  · obtain ⟨staged, file, built⟩ :=
      @buildSnapshot_total setup.pageSize now observed.state.pos
        observed.state.db setup.sized invariant.db.readable
    rw [buildSnapshotNow, built] at failed
    cases failed
  · have some_ : ∃ staged, (observed.state.overFold setup cycle result
        now).pc = .catchUp staged := ⟨staged, by rw [ended]⟩
    rw [iff_true_intro some_, iff_true_intro over_]

/-! ## A race that is not noticed -/

/-- A new syncer on an empty replica. -/
def unobserved : Observed where
  state := quietState 2
  begun := (quietState 2).db
  begunPos := .default
  before := (quietState 2).db
  after := (quietState 2).db

theorem unobserved_starts : unobserved.Starts smallSetup where
  idle := rfl
  db := quietState_opened.db
  written := fun _ impossible => by cases impossible
  covered := covered_new quietState_opened.db
  counts := by decide

/-- A commit that is captured and copied. -/
def copiedOnce : List Action :=
  [commitPage 1 1, .sync 0, .upload true 0, .checkpointNow 0 .passive,
    .release, .pragma (.copied 1), .acquire, .overFold 0]

/-- The WAL restarts after the read mark is released, and the PRAGMA copies the
first frame of the new generation: no more than the old one had. -/
theorem restart_hides_copied_frame :
    ∃ setup start observed now cycle result after, Starts setup start ∧
      Reaches (Observed.step setup) (CommitsOnly setup) start observed ∧
      observed.state.pc = .fold cycle result ∧ cycle.mode = .passive ∧
      observed.state.step setup (.overFold now) = some after ∧
      ¬((∃ staged, after.pc = .catchUp staged) ↔
        observed.CopiedUncovered setup) := by
  have runs : ∃ observed ∈ execGuarded (Observed.step smallSetup)
        (CommitsOnly smallSetup) unobserved
        (copiedOnce ++ [.checkpointNow 1 .passive, .release,
          .commit true 7 [⟨2, 2, List.replicate 512 2⟩],
          .pragma (.copied 1), .acquire]),
      observed.state.pc = .fold ⟨.passive, false, none, 1⟩ ⟨false, 1, 1⟩ ∧
        (∃ after ∈ observed.state.step smallSetup (.overFold 1),
          after.pc = .idle) ∧
        observed.CopiedUncovered smallSetup := by
    decide +kernel
  obtain ⟨observed, ran, running, ⟨after, stepped, idle⟩, copied⟩ := runs
  refine ⟨smallSetup, unobserved, observed, 1, _, _, after, unobserved_starts,
    reaches_of_execGuarded ran, running, rfl, stepped, ?_⟩
  intro same
  obtain ⟨_, impossible⟩ := same.mpr copied
  rw [idle] at impossible
  cases impossible

/-- Another connection holds the checkpoint lock. -/
example :
    ∃ observed ∈ execGuarded (Observed.step smallSetup)
        (CommitsOnly smallSetup) unobserved
        [commitPage 1 1, .checkpointNow 0 .passive, .release, .pragma .locked,
          .acquire, .upload true 0],
      observed.state.Noticed ∧ ¬observed.CopiedUncovered smallSetup := by
  decide +kernel

/-- A commit to the same generation after the read mark is released. -/
theorem catch_up_iff_raced :
    ∃ observed ∈ execGuarded (Observed.step smallSetup)
        (CommitsOnly smallSetup) unobserved
        (copiedOnce ++ [.checkpointNow 1 .passive, .release, commitPage 2 2,
          .pragma (.copied 2), .acquire]),
      ∃ after ∈ observed.state.step smallSetup (.overFold 1),
        ((∃ staged, after.pc = .catchUp staged) ↔
            observed.CopiedUncovered smallSetup) ↔
          observed.Comparable smallSetup ⟨false, 2, 2⟩ := by
  have runs : ∃ observed ∈ execGuarded (Observed.step smallSetup)
        (CommitsOnly smallSetup) unobserved
        (copiedOnce ++ [.checkpointNow 1 .passive, .release, commitPage 2 2,
          .pragma (.copied 2), .acquire]),
      observed.state.pc = .fold ⟨.passive, false, none, 1⟩ ⟨false, 2, 2⟩ ∧
        (observed.state.step smallSetup (.overFold 1)).isSome = true := by
    decide +kernel
  obtain ⟨observed, ran, running, some_⟩ := runs
  obtain ⟨after, stepped⟩ := Option.isSome_iff_exists.mp some_
  exact ⟨observed, ran, after, stepped, catch_up_iff unobserved_starts
    (reaches_of_execGuarded ran) running rfl stepped⟩

end Observed

end Literstream
