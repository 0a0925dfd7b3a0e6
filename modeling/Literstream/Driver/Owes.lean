import Literstream.Driver.Skipped
import Literstream.Driver.StaleGate

/-!
# How many files an idle database still costs

`Owes` bounds the files that a driver can still upload once other connections
only read.  A sync pays one, and only a reset of the WAL makes a new one due;
after a reset a single frame is left, which opens no gate.
-/

namespace Literstream

open Machine State

/-! ## What is due -/

section Bounds

variable (setup : Setup) (minFrames truncateFrames : Nat) (db : Sqlite)

/-- The reset of the WAL that a gate can still cause. -/
def resets (counted : Nat) : Nat :=
  match db.wal with
  | some _ => if minFrames ≤ counted ∨ truncateFrames ≤ counted then 1 else 0
  | none => if minFrames ≤ counted ∧ counted < truncateFrames then 1 else 0

/-- While no call runs: a sync, and a reset. -/
def RestOwes (pos : Position) (files : Nat) : Prop :=
  UpToDate setup.pageSize pos db ∧
      resets minFrames truncateFrames db (liveWalFrames setup pos) ≤ files ∨
    resets minFrames truncateFrames db db.frames.length + 1 ≤ files

/-- Between the sync of a tick and its gate. -/
def SyncedOwes (pos : Position) (files : Nat) : Prop :=
  UpToDate setup.pageSize pos db ∧
      resets minFrames truncateFrames db (liveWalFrames setup pos) ≤ files ∨
    2 ≤ files

/-- Before the over-fold test. -/
def FoldOwes (cycle : Cycle) (result : CheckpointResult) (pos : Position)
    (files : Nat) : Prop :=
  if cycle.Overfolded result then
    resets minFrames truncateFrames db db.frames.length + 1 ≤ files
  else RestOwes setup minFrames truncateFrames db pos files

/-- Before the seq bump: everything was captured and copied, or anything may
have happened. -/
def BumpOwes (cycle : Cycle) (result : CheckpointResult) (pos : Position)
    (files : Nat) : Prop :=
  UpToDate setup.pageSize pos db ∧ ¬cycle.Overfolded result ∧
      db.backfill = db.frames.length ∧ 2 ≤ truncateFrames ∧ 1 ≤ files ∨
    2 ≤ files

/-- Before the PRAGMA. -/
def CycleOwes (cycle : Cycle) (pos : Position) (files : Nat) : Prop :=
  UpToDate setup.pageSize pos db ∧ db.frames.length ≤ cycle.syncedFrames ∧
      (match cycle.mode with
      | .passive =>
          if cycle.restartWal then 2 ≤ truncateFrames ∧ 1 ≤ files
          else RestOwes setup minFrames truncateFrames db pos files
      | .truncate =>
          RestOwes setup minFrames truncateFrames db pos files ∧
            (db.wal ≠ none → 1 ≤ files)
      | _ => False) ∨
    2 ≤ files

end Bounds

/-- A file that is still to upload, and what is due after it. -/
def AfterUpload (staged : Option StagedFile) (pos : Position) (files : Nat)
    (owes : Position → Nat → Prop) : Prop :=
  match staged with
  | none => owes pos files
  | some file => 1 ≤ files ∧ owes file.newPos (files - 1)

/-- The syncer uploads at most so many files. -/
def State.Owes (setup : Setup) (state : State) (files : Nat) : Prop :=
  let rest := RestOwes setup state.minCheckpointFrames state.truncateFrames
    state.db
  match state.pc with
  | .idle => rest state.pos files
  | .syncUpload staged => AfterUpload (some staged) state.pos files rest
  | .catchUp staged => AfterUpload (some staged) state.pos files rest
  | .release cycle => AfterUpload cycle.staged state.pos files
      (CycleOwes setup state.minCheckpointFrames state.truncateFrames state.db
        cycle)
  | .pragma cycle => AfterUpload cycle.staged state.pos files
      (CycleOwes setup state.minCheckpointFrames state.truncateFrames state.db
        cycle)
  | .bump cycle result => AfterUpload cycle.staged state.pos files
      (BumpOwes setup state.truncateFrames state.db cycle result)
  | .acquire cycle result => AfterUpload cycle.staged state.pos files
      (FoldOwes setup state.minCheckpointFrames state.truncateFrames state.db
        cycle result)
  | .upload cycle staged result => AfterUpload (some staged) state.pos files
      (FoldOwes setup state.minCheckpointFrames state.truncateFrames state.db
        cycle result)
  | .fold cycle result =>
      FoldOwes setup state.minCheckpointFrames state.truncateFrames state.db
        cycle result state.pos files

/-- So does a driver; its own sync comes before its gate. -/
def Ticker.Owes (setup : Setup) (ticker : Ticker) (files : Nat) : Prop :=
  match ticker.stage with
  | .syncing _ _ | .synced _ =>
      AfterUpload ticker.syncer.pending ticker.syncer.pos files
        (SyncedOwes setup ticker.syncer.minCheckpointFrames
          ticker.syncer.truncateFrames ticker.syncer.db)
  | _ => ticker.syncer.Owes setup files

/-! ## Comparing what is due -/

section Bounds

variable {setup : Setup} {minFrames truncateFrames : Nat} {db other : Sqlite}
  {pos : Position} {files : Nat}

theorem resets_le_one (counted : Nat) :
    resets minFrames truncateFrames db counted ≤ 1 := by
  unfold resets
  split <;> split <;> omega

theorem resets_of_wal (same : other.wal = db.wal) (counted : Nat) :
    resets minFrames truncateFrames other counted =
      resets minFrames truncateFrames db counted := by
  unfold resets
  rw [same]

theorem resets_of_wal_open {counted : Nat} (present : db.wal ≠ none)
    (isOpen : minFrames ≤ counted ∨ truncateFrames ≤ counted) :
    resets minFrames truncateFrames db counted = 1 := by
  unfold resets
  cases here : db.wal with
  | none => exact absurd here present
  | some wal => exact if_pos isOpen

theorem resets_of_passive {counted : Nat} (enough : minFrames ≤ counted)
    (below : counted < truncateFrames) :
    resets minFrames truncateFrames db counted = 1 := by
  unfold resets
  cases db.wal with
  | none => exact if_pos ⟨enough, below⟩
  | some wal => exact if_pos (.inl enough)

theorem UpToDate.resets_le (upToDate : UpToDate setup.pageSize pos db)
    (positive : 1 ≤ minFrames) :
    resets minFrames truncateFrames db db.frames.length ≤
      resets minFrames truncateFrames db (liveWalFrames setup pos) := by
  have counted := upToDate.counts
  unfold resets
  cases present : db.wal with
  | none =>
      rw [Sqlite.frames_of_none present]
      dsimp only [List.length_nil]
      rw [if_neg (by omega)]
      exact Nat.zero_le _
  | some wal =>
      dsimp only
      split <;> split <;> omega

theorem RestOwes.of_two (enough : 2 ≤ files) :
    RestOwes setup minFrames truncateFrames db pos files :=
  .inr (Nat.le_trans (Nat.succ_le_succ (resets_le_one _)) enough)

/-- A file that is not uploaded leaves one more to upload. -/
theorem RestOwes.failed {newPos : Position} (positive : 1 ≤ minFrames)
    (owes : RestOwes setup minFrames truncateFrames db newPos (files - 1))
    (pays : 1 ≤ files) :
    RestOwes setup minFrames truncateFrames db pos files := by
  right
  rcases owes with ⟨upToDate, due⟩ | due
  · have fewer := @UpToDate.resets_le _ minFrames truncateFrames _ _ upToDate
      positive
    omega
  · omega

theorem RestOwes.of_wal (same : other.wal = db.wal)
    (owes : RestOwes setup minFrames truncateFrames db pos files) :
    RestOwes setup minFrames truncateFrames other pos files := by
  have frames : other.frames = db.frames := frames_congr same
  unfold RestOwes
  rw [frames, resets_of_wal same, resets_of_wal same]
  exact owes.imp (fun captured => ⟨captured.1.of_wal same, captured.2⟩) id

theorem SyncedOwes.rest
    (owes : SyncedOwes setup minFrames truncateFrames db pos files) :
    RestOwes setup minFrames truncateFrames db pos files :=
  owes.elim .inl .of_two

theorem FoldOwes.of_two {cycle : Cycle} {result : CheckpointResult}
    (enough : 2 ≤ files) :
    FoldOwes setup minFrames truncateFrames db cycle result pos files := by
  unfold FoldOwes
  split
  · exact Nat.le_trans (Nat.succ_le_succ (resets_le_one _)) enough
  · exact .of_two enough

theorem CycleOwes.rest {cycle : Cycle}
    (owes : CycleOwes setup minFrames truncateFrames db cycle pos files) :
    RestOwes setup minFrames truncateFrames db pos files := by
  rcases owes with ⟨upToDate, _, due⟩ | enough
  · split at due
    · split at due
      · exact .inl ⟨upToDate, (resets_le_one _).trans due.2⟩
      · exact due
    · exact due.1
    · exact due.elim
  · exact .of_two enough

theorem BumpOwes.rest {cycle : Cycle} {result : CheckpointResult}
    (owes : BumpOwes setup truncateFrames db cycle result pos files) :
    RestOwes setup minFrames truncateFrames db pos files := by
  rcases owes with ⟨upToDate, _, _, _, pays⟩ | enough
  · exact .inl ⟨upToDate, (resets_le_one _).trans pays⟩
  · exact .of_two enough

theorem FoldOwes.rest {cycle : Cycle} {result : CheckpointResult}
    (owes : FoldOwes setup minFrames truncateFrames db cycle result pos
      files) : RestOwes setup minFrames truncateFrames db pos files := by
  unfold FoldOwes at owes
  split at owes
  · exact .inr owes
  · exact owes

theorem RestOwes.of_none (positive : 1 ≤ minFrames) (absent : db.wal = none)
    (pays : 1 ≤ files) :
    RestOwes setup minFrames truncateFrames db pos files := by
  right
  unfold resets
  rw [absent, Sqlite.frames_of_none absent]
  dsimp only [List.length_nil]
  rw [if_neg (by omega)]
  exact pays

/-- One frame opens no gate. -/
theorem RestOwes.of_single (limits : 2 ≤ minFrames ∧ 2 ≤ truncateFrames)
    (single : db.frames.length = 1) (pays : 1 ≤ files) :
    RestOwes setup minFrames truncateFrames db pos files := by
  right
  unfold resets
  rw [single]
  cases db.wal with
  | none => dsimp only; rw [if_neg (by omega)]; exact pays
  | some wal => dsimp only; rw [if_neg (by omega)]; exact pays

theorem AtWalEnd.owes (atEnd : AtWalEnd setup.pageSize pos db)
    (due : resets minFrames truncateFrames db db.frames.length ≤ files) :
    UpToDate setup.pageSize pos db ∧
      resets minFrames truncateFrames db (liveWalFrames setup pos) ≤ files :=
  ⟨atEnd.upToDate, by rw [atEnd.counts]; exact due⟩

end Bounds

theorem AfterUpload.imp {staged : Option StagedFile} {pos : Position}
    {files : Nat} {owes later : Position → Nat → Prop}
    (after : AfterUpload staged pos files owes)
    (weaker : ∀ pos files, owes pos files → later pos files) :
    AfterUpload staged pos files later := by
  cases staged with
  | none => exact weaker _ _ after
  | some file => exact ⟨after.1, weaker _ _ after.2⟩

/-- A file that is dropped leaves at most itself to pay. -/
theorem AfterUpload.rest {setup : Setup} {minFrames truncateFrames : Nat}
    {db : Sqlite} {staged : Option StagedFile} {pos : Position} {files : Nat}
    {owes : Position → Nat → Prop} (positive : 1 ≤ minFrames)
    (after : AfterUpload staged pos files owes)
    (rest : ∀ pos files, owes pos files →
      RestOwes setup minFrames truncateFrames db pos files) :
    RestOwes setup minFrames truncateFrames db pos files := by
  cases staged with
  | none => exact rest _ _ after
  | some file => exact (rest _ _ after.2).failed positive after.1

theorem asU64_le (count : Nat) : asU64 count ≤ count := by
  unfold asU64
  omega

/-! ## The calls of the syncer -/

namespace State

variable {setup : Setup} {state next : State} {action : Action}

/-- Other connections only read, so none holds the checkpoint lock; the seq bump
writes one frame. -/
def Reading (setup : Setup) (state : State) (action : Action) : Prop :=
  state.Fits setup action ∧
    match action with
    | .pragma outcome => outcome ≠ .locked
    | .bump _ _ _ txn => txn.length = 1
    | _ => True

instance (setup : Setup) (state : State) (action : Action) :
    Decidable (state.Reading setup action) := by
  unfold Reading
  rcases action <;> infer_instance

/-- No reader pins the WAL: a frame-threshold PASSIVE checkpoint copies all of
it, and the seq bump restarts it. -/
def Unpinned (state : State) (action : Action) : Prop :=
  match state.pc, action with
  | .pragma cycle, .pragma outcome =>
      cycle.restartWal = true → cycle.mode = .passive →
        outcome = .copied state.db.frames.length
  | .bump _ _, .bump _ restart salt2 txn =>
      (state.db.restart salt2 txn).isSome = true → restart = true
  | _, _ => True

instance (state : State) (action : Action) :
    Decidable (state.Unpinned action) := by
  unfold Unpinned
  generalize state.pc = pc
  rcases pc <;> first | infer_instance | rcases action <;> infer_instance

variable {files : Nat}

/-- The files that a step puts in the replica. -/
def paid (setup : Setup) (state : State) (action : Action) : Nat :=
  if state.puts setup action = none then 0 else 1

theorem pragma_owes {cycle : Cycle} {outcome : PragmaOutcome} {db : Sqlite}
    {result : CheckpointResult} {pos : Position}
    (limit : 2 ≤ state.minCheckpointFrames)
    (alone : outcome ≠ .locked)
    (unpinned : cycle.restartWal = true → cycle.mode = .passive →
      outcome = .copied state.db.frames.length)
    (done : state.runPragma setup.pageSize cycle.mode outcome =
      some (db, result))
    (owes : CycleOwes setup state.minCheckpointFrames state.truncateFrames
      state.db cycle pos files) :
    if cycle.restartWal ∧ cycle.mode = .passive ∧ ¬result.busy then
      BumpOwes setup state.truncateFrames db cycle result pos files
    else FoldOwes setup state.minCheckpointFrames state.truncateFrames db cycle
      result pos files := by
  rcases owes with ⟨upToDate, counted, due⟩ | enough
  · have notOver : ∀ copied : Nat, copied ≤ state.db.frames.length →
        result.checkpointedFrames = copied → ¬cycle.Overfolded result := by
      intro copied bound same
      rw [Cycle.Overfolded, same, not_lt]
      exact ((asU64_le copied).trans bound).trans counted
    cases outcome with
    | locked => exact absurd rfl alone
    | copied frames =>
        simp only [runPragma] at done
        split at done
        · rename_i bounds
          cases done
          have below := notOver frames bounds.2.1 rfl
          have same : (state.db.checkpoint setup.pageSize frames).wal =
              state.db.wal := rfl
          split
          · rename_i bumps
            obtain ⟨restarts, passive, _⟩ := bumps
            cases unpinned restarts passive
            rw [passive] at due
            dsimp only at due
            rw [if_pos restarts] at due
            exact .inl ⟨upToDate.of_wal same, below, rfl, due⟩
          · rename_i kept
            rw [FoldOwes, if_neg below]
            apply RestOwes.of_wal same
            cases mode : cycle.mode with
            | passive =>
                rw [mode] at due
                dsimp only at due
                rw [if_neg fun restarts => kept ⟨restarts, mode, by simp⟩] at due
                exact due
            | truncate => exact absurd mode bounds.2.2.1
            | full =>
                rw [mode] at due
                exact due.elim
            | restart =>
                rw [mode] at due
                exact due.elim
        · cases done
    | truncated =>
        simp only [runPragma] at done
        split at done
        · rename_i mode
          cases done
          rw [if_neg (by simp [mode]), FoldOwes,
            if_neg (notOver 0 (Nat.zero_le _) rfl)]
          rw [mode] at due
          obtain ⟨rest, pays⟩ := due
          cases present : state.db.wal with
          | none =>
              exact RestOwes.of_wal present.symm rest
          | some wal =>
              exact .of_none (Nat.le_of_succ_le limit) rfl
                (pays (by simp [present]))
        · cases done
    | blocked frames =>
        simp only [runPragma] at done
        split at done
        · rename_i bounds
          cases done
          have same : (state.db.checkpoint setup.pageSize frames).wal =
              state.db.wal := rfl
          rw [if_neg (by simp), FoldOwes, if_neg (notOver frames bounds.2.1 rfl)]
          apply RestOwes.of_wal same
          cases mode : cycle.mode with
          | truncate =>
              rw [mode] at due
              exact due.1
          | passive => exact absurd mode bounds.2.2
          | full =>
              rw [mode] at due
              exact due.elim
          | restart =>
              rw [mode] at due
              exact due.elim
        · cases done
  · split
    · exact .inr enough
    · exact .of_two enough

theorem bump_owes {cycle : Cycle} {result : CheckpointResult}
    {restart : Bool} {salt2 : Nat} {txn : List Frame} {db : Sqlite}
    {pos : Position} (limit : 2 ≤ state.minCheckpointFrames)
    (single : txn.length = 1)
    (restarts : (state.db.restart salt2 txn).isSome = true → restart = true)
    (done : state.commitFrames restart salt2 txn = some db)
    (owes : BumpOwes setup state.truncateFrames state.db cycle result pos
      files) :
    FoldOwes setup state.minCheckpointFrames state.truncateFrames db cycle
      result pos files := by
  rcases owes with ⟨_, notOver, copied, limit', pays⟩ | enough
  · rw [FoldOwes, if_neg notOver]
    apply RestOwes.of_single ⟨limit, limit'⟩ _ pays
    have applied : state.db.apply setup.pageSize
        (commitOp restart salt2 txn) = some db := commitFrames_apply done
    cases restart with
    | true =>
        obtain ⟨_, _, _, _, _, _, _, _, started⟩ :=
          Sqlite.restart_eq_some applied
        rw [Sqlite.frames_of_wal started]
        exact single
    | false =>
        cases applied
        rw [Sqlite.frames_append, List.length_append, single]
        have empty : state.db.frames.length = 0 := by
          by_contra some_
          have possible : (state.db.restart salt2 txn).isSome = true := by
            unfold Sqlite.restart
            cases present : state.db.wal with
            | none =>
                rw [Sqlite.frames_of_none present] at some_
                exact absurd rfl some_
            | some wal =>
                rw [Sqlite.frames_of_wal present] at copied some_
                dsimp only
                rw [if_pos ⟨by omega, copied⟩]
                rfl
          cases restarts possible
        omega
  · exact .of_two enough

theorem owes_of_idle (idle : state.pc = .idle)
    (rest : RestOwes setup state.minCheckpointFrames state.truncateFrames
      state.db state.pos files) : state.Owes setup files := by
  rw [Owes, idle]
  exact rest

theorem Owes.idle (owes : state.Owes setup files) (idle : state.pc = .idle) :
    RestOwes setup state.minCheckpointFrames state.truncateFrames state.db
      state.pos files := by
  rw [Owes, idle] at owes
  exact owes

theorem paid_add (pays : 1 ≤ files) :
    state.paid setup action + (files - 1) ≤ files := by
  unfold paid
  split
  · omega
  · omega

theorem Owes.after (owes : state.Owes setup files) :
    AfterUpload state.pending state.pos files
      (RestOwes setup state.minCheckpointFrames state.truncateFrames
        state.db) := by
  unfold Owes at owes
  unfold pending
  cases running : state.pc with
  | release cycle =>
      rw [running] at owes
      exact owes.imp fun _ _ => CycleOwes.rest
  | pragma cycle =>
      rw [running] at owes
      exact owes.imp fun _ _ => CycleOwes.rest
  | bump cycle result =>
      rw [running] at owes
      exact owes.imp fun _ _ => BumpOwes.rest
  | acquire cycle result =>
      rw [running] at owes
      exact owes.imp fun _ _ => FoldOwes.rest
  | upload cycle staged result =>
      rw [running] at owes
      exact AfterUpload.imp owes fun _ _ => FoldOwes.rest
  | fold cycle result =>
      rw [running] at owes
      exact FoldOwes.rest owes
  | _ =>
      rw [running] at owes
      exact owes

theorem fold_owes {cycle : Cycle} {result : CheckpointResult}
    (ok : DbOk setup.pageSize state.db) (now : Int)
    (owes : FoldOwes setup state.minCheckpointFrames state.truncateFrames
      state.db cycle result state.pos files) :
    (state.overFold setup cycle result now).Owes setup files := by
  unfold FoldOwes at owes
  rcases overFold_cases setup state cycle result now with
    ⟨notOver, ended⟩ | ⟨over_, ⟨_, _, ended⟩ | ⟨staged, file, built, ended⟩⟩
  · rw [if_neg notOver] at owes
    rw [ended]
    exact owes
  · rw [if_pos over_] at owes
    rw [ended]
    exact .inr owes
  · rw [if_pos over_] at owes
    rw [ended]
    have atEnd := buildSnapshot_atWalEnd setup.positive ok built
    refine ⟨by omega, .inl (atEnd.owes ?_)⟩
    exact Nat.le_sub_one_of_lt owes

/-- What a step of a running call pays, and what is due after it. -/
theorem Owes.continues (ok : DbOk setup.pageSize state.db)
    (limit : 2 ≤ state.minCheckpointFrames)
    (reading : state.Reading setup action)
    (unpinned : state.Unpinned action)
    (goes : action.continues = true)
    (stepped : state.step setup action = some next)
    (owes : state.Owes setup files) :
    ∃ due, next.Owes setup due ∧ state.paid setup action + due ≤ files := by
  cases action with
  | release =>
      refine ⟨files, ?_, by simp [paid, puts]⟩
      simp only [step] at stepped
      split at stepped
      · rename_i cycle running
        cases stepped
        rw [Owes, running] at owes
        exact owes
      · cases stepped
  | pragma outcome =>
      refine ⟨files, ?_, by simp [paid, puts]⟩
      simp only [step] at stepped
      split at stepped
      · rename_i cycle running
        obtain ⟨⟨db, result⟩, done, rfl⟩ := Option.map_eq_some_iff.mp stepped
        simp only [Unpinned, running] at unpinned
        rw [Owes, running] at owes
        by_cases bumps : cycle.restartWal ∧ cycle.mode = .passive ∧
            ¬result.busy
        · simp only [if_pos bumps]
          refine owes.imp fun pos files due => ?_
          have kept := pragma_owes limit reading.2 unpinned done due
          rw [if_pos bumps] at kept
          exact kept
        · simp only [if_neg bumps]
          refine owes.imp fun pos files due => ?_
          have kept := pragma_owes limit reading.2 unpinned done due
          rw [if_neg bumps] at kept
          exact kept
      · cases stepped
  | bump succeeds restart salt2 txn =>
      refine ⟨files, ?_, by simp [paid, puts]⟩
      simp only [step] at stepped
      split at stepped
      · rename_i cycle result running
        simp only [Unpinned, running] at unpinned
        rw [Owes, running] at owes
        cases succeeds with
        | false =>
            cases stepped
            exact AfterUpload.rest (Nat.le_of_succ_le limit) owes
              fun pos files due => due.rest
        | true =>
            obtain ⟨db, done, rfl⟩ := Option.map_eq_some_iff.mp stepped
            exact owes.imp fun pos files =>
              bump_owes limit reading.2 unpinned done
      · cases stepped
  | acquire =>
      refine ⟨files, ?_, by simp [paid, puts]⟩
      simp only [step] at stepped
      split at stepped
      · rename_i cycle result running
        cases stepped
        obtain ⟨mark, held⟩ := acquireReadLock_eq state
        rw [Owes, running] at owes
        rw [held]
        unfold Owes
        dsimp only at owes ⊢
        cases staged : cycle.staged with
        | none =>
            rw [staged] at owes
            exact owes
        | some file =>
            rw [staged] at owes
            exact owes
      · cases stepped
  | upload succeeds now =>
      have after := owes.after
      obtain ⟨staged, pending, ⟨rfl, puts, _⟩ |
        ⟨_, db, pos, limits, ⟨idle, _⟩ | ⟨cycle, result, running, folds⟩⟩⟩ :=
          upload_ends stepped
      · refine ⟨files, ?_, by simp [paid, puts]⟩
        exact after.rest (Nat.le_of_succ_le limit) fun _ _ => id
      · rw [pending] at after
        obtain ⟨pays, rest⟩ := after
        refine ⟨files - 1, ?_, paid_add pays⟩
        rw [Owes, idle, db, pos, limits.min, limits.truncate]
        exact rest
      · rw [Owes, running] at owes
        obtain ⟨pays, rest⟩ := owes
        refine ⟨files - 1, ?_, paid_add pays⟩
        rw [Owes, folds, db, pos, limits.min, limits.truncate]
        exact rest
  | overFold now =>
      refine ⟨files, ?_, by simp [paid, puts]⟩
      simp only [step] at stepped
      split at stepped
      · rename_i cycle result running
        cases stepped
        rw [Owes, running] at owes
        exact fold_owes ok now owes
      · cases stepped
  | _ => cases goes

/-- A checkpoint cycle starts with everything captured. -/
theorem runCheckpoint_owes {now : Int} {mode : CheckpointMode}
    {restartWal : Bool} (ok : DbOk setup.pageSize state.db)
    (idle : state.pc = .idle)
    (rest : RestOwes setup state.minCheckpointFrames state.truncateFrames
      state.db state.pos files)
    (found : ∀ cycle, cycle.mode = mode → cycle.restartWal = restartWal →
      state.db.frames.length ≤ cycle.syncedFrames →
      UpToDate setup.pageSize state.pos state.db →
      CycleOwes setup state.minCheckpointFrames state.truncateFrames state.db
        cycle state.pos files)
    (staged : ∀ cycle pos, cycle.mode = mode → cycle.restartWal = restartWal →
      state.db.frames.length ≤ cycle.syncedFrames →
      ¬UpToDate setup.pageSize state.pos state.db →
      AtWalEnd setup.pageSize pos state.db →
      1 ≤ files ∧ CycleOwes setup state.minCheckpointFrames
        state.truncateFrames state.db cycle pos (files - 1)) :
    (state.runCheckpoint setup now mode restartWal).Owes setup files := by
  have db := runCheckpoint_db setup state now mode restartWal
  have limits := runCheckpoint_keeps setup state now mode restartWal
  rcases runCheckpoint_cases ok now mode restartWal with
    failed | ⟨cycle, running, pos, sameMode, sameRestart,
      ⟨none_, counted, upToDate⟩ | ⟨file, some_, counted, atEnd, behind⟩⟩
  · obtain ⟨mark, held⟩ := acquireReadLock_eq state
    rw [failed, held]
    exact owes_of_idle idle rest
  · rw [Owes, running, pos, db, limits.min, limits.truncate]
    dsimp only
    rw [none_]
    exact found cycle sameMode sameRestart (counted ▸ upToDate.counts) upToDate
  · rw [Owes, running, pos, db, limits.min, limits.truncate]
    dsimp only
    rw [some_]
    apply staged cycle file.newPos sameMode sameRestart _ behind atEnd
    rw [counted, atEnd.counts]

/-- The time-based checkpoint restarts nothing. -/
theorem timed_owes {now : Int} (ok : DbOk setup.pageSize state.db)
    (idle : state.pc = .idle) (owes : state.Owes setup files) :
    (state.runCheckpoint setup now .passive false).Owes setup files := by
  unfold Owes at owes
  rw [idle] at owes
  apply runCheckpoint_owes ok idle owes
  · rintro cycle passive keeps counted upToDate
    refine .inl ⟨upToDate, counted, ?_⟩
    rw [passive, keeps]
    exact owes
  · rintro cycle pos passive keeps counted behind atEnd
    rcases owes with captured | due
    · exact absurd captured.1 behind
    · refine ⟨by omega, .inl ⟨atEnd.upToDate, counted, ?_⟩⟩
      rw [passive, keeps]
      exact .inl (atEnd.owes (Nat.le_sub_one_of_lt due))

/-- An open gate resets the WAL at most once. -/
theorem gate_owes {now : Int} (ok : DbOk setup.pageSize state.db)
    (limit : 2 ≤ state.minCheckpointFrames) (idle : state.pc = .idle)
    (isOpen : state.GateOpen setup)
    (owes : SyncedOwes setup state.minCheckpointFrames state.truncateFrames
      state.db state.pos files) :
    (state.checkpointIfNeeded setup now).Owes setup files := by
  have rest := owes.rest
  unfold checkpointIfNeeded
  by_cases truncates : state.truncateFrames ≤ liveWalFrames setup state.pos
  · rw [if_pos truncates]
    apply runCheckpoint_owes ok idle rest
    · intro cycle truncate _ counted upToDate
      rcases owes with ⟨_, due⟩ | enough
      · refine .inl ⟨upToDate, counted, ?_⟩
        rw [truncate]
        refine ⟨rest, fun present => ?_⟩
        rw [resets_of_wal_open present (.inr truncates)] at due
        exact due
      · exact .inr enough
    · intro cycle pos truncate _ counted behind atEnd
      have enough := owes.resolve_left fun captured => behind captured.1
      have pays : 1 ≤ files - 1 := Nat.le_sub_one_of_lt enough
      refine ⟨Nat.le_of_succ_le enough, .inl ⟨atEnd.upToDate, counted, ?_⟩⟩
      rw [truncate]
      exact ⟨.inl (atEnd.owes ((resets_le_one _).trans pays)), fun _ => pays⟩
  · have counts := isOpen.resolve_left truncates
    rw [if_neg truncates, if_pos counts]
    have two : 2 ≤ state.truncateFrames := by omega
    apply runCheckpoint_owes ok idle rest
    · intro cycle passive restarts counted upToDate
      rcases owes with ⟨_, due⟩ | enough
      · refine .inl ⟨upToDate, counted, ?_⟩
        rw [resets_of_passive counts (not_le.mp truncates)] at due
        rw [passive, restarts]
        exact ⟨two, due⟩
      · exact .inr enough
    · intro cycle pos passive restarts counted behind atEnd
      have enough := owes.resolve_left fun captured => behind captured.1
      refine ⟨Nat.le_of_succ_le enough, .inl ⟨atEnd.upToDate, counted, ?_⟩⟩
      rw [passive, restarts]
      exact ⟨two, Nat.le_sub_one_of_lt enough⟩

end State

end Literstream
