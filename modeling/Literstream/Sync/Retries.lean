import Literstream.Sync.Checkpoints

/-!
# Uploads that fail

A failed upload leaves its file in the staging directory and the position where
it was, so that the next sync builds the file again from the WAL.  That works as
long as the WAL still has the frames; once their generation is discarded, only
the staged file has them.
-/

namespace Literstream

open Std PagedFile Machine

/-- The generation of a first salt is gone from the WAL; salt 0 stands for no
generation. -/
def Superseded (salt1 : Nat) (db : Sqlite) : Prop :=
  salt1 ≠ 0 ∧ ∀ wal, db.wal = some wal → wal.salt1 ≠ salt1

/-- No frame beyond the position is in the main file. -/
def FoldedBelow (pageSize : Nat) (pos : Position) (db : Sqlite) : Prop :=
  ∀ wal, db.wal = some wal → db.backfill ≤ wal.captured pageSize pos

namespace State

/-- Syncs, PASSIVE checkpoints and `checkpointIfNeeded`, commits between the
calls, uploads and seq bumps that may fail. -/
def RetryCalls (setup : Setup) (state : State) (action : Action) : Prop :=
  state.Fits setup action ∧
    match action with
    | .commit _ _ _ => state.pc = .idle
    | .checkpointNow _ mode => mode = .passive
    | .appCheckpoint _ => False
    | .appTruncate => False
    | _ => True

/-- A WAL generation is discarded only when the staging directory holds nothing
but the file of the running call, and that file is then uploaded. -/
def Shipped (state : State) (action : Action) : Prop :=
  (∀ op, action.dbOp = some op → op.discards = true → state.pending = none →
    state.staging = ∅) ∧
  (action.fails = true → ∀ staged, state.pending = some staged →
    ¬ Superseded staged.newPos.salt1 state.db)

/-- Between staging and the end of `Db::checkpoint`. -/
def InWindow (state : State) : Prop :=
  match state.pc with
  | .release _ => True
  | .pragma _ => True
  | .bump _ _ => True
  | _ => False

end State

section Generations

variable {pageSize salt1 : Nat} {db next : Sqlite} {op : SqliteOp}
  {image : Bytes} {pos : Position}

theorem Superseded.apply (salts : salt1 ≤ db.lastSalt1)
    (applied : db.apply pageSize op = some next)
    (superseded : Superseded salt1 db) : Superseded salt1 next := by
  refine ⟨superseded.1, ?_⟩
  cases op with
  | append salt2 txn =>
      cases applied
      intro wal present
      cases old : db.wal with
      | none =>
          simp only [Sqlite.append, old] at present
          cases present
          exact fun same => by simp only at same; omega
      | some before =>
          simp only [Sqlite.append, old] at present
          cases present
          exact superseded.2 before old
  | restart salt2 txn =>
      obtain ⟨_, _, _, _, _, _, _, _, started⟩ := Sqlite.restart_eq_some applied
      intro wal present
      rw [started] at present
      cases present
      exact fun same => by simp only at same; omega
  | checkpoint frames =>
      simp only [Sqlite.apply] at applied
      split at applied
      · cases applied
        exact superseded.2
      · cases applied
  | truncate =>
      cases applied
      exact fun _ impossible => by cases impossible

/-- Only a discarding operation supersedes a generation. -/
theorem Superseded.of_apply (keeps : op.discards = false)
    (applied : db.apply pageSize op = some next)
    (superseded : Superseded salt1 next) : Superseded salt1 db := by
  refine ⟨superseded.1, ?_⟩
  intro wal present
  cases op with
  | append salt2 txn =>
      cases applied
      refine superseded.2 { wal with
        frames := wal.frames ++ txn
        stale := wal.stale - txn.length } ?_
      simp [Sqlite.append, present]
  | restart salt2 txn => cases keeps
  | checkpoint frames =>
      simp only [Sqlite.apply] at applied
      split at applied
      · cases applied
        exact superseded.2 wal present
      · cases applied
  | truncate => cases keeps

/-- Appending and discarding never fold a frame. -/
theorem FoldedBelow.apply (notCheckpoint : ∀ frames, op ≠ .checkpoint frames)
    (applied : db.apply pageSize op = some next)
    (folded : FoldedBelow pageSize pos db) : FoldedBelow pageSize pos next := by
  cases op with
  | append salt2 txn =>
      cases applied
      intro wal present
      cases old : db.wal with
      | none =>
          simp only [Sqlite.append, old] at present ⊢
          exact Nat.zero_le _
      | some before =>
          simp only [Sqlite.append, old] at present ⊢
          cases present
          exact folded before old
  | restart salt2 txn =>
      obtain ⟨_, _, _, _, _, backfill, _⟩ := Sqlite.restart_eq_some applied
      intro wal _
      rw [backfill]
      exact Nat.zero_le _
  | checkpoint frames => exact absurd rfl (notCheckpoint frames)
  | truncate =>
      cases applied
      exact fun _ impossible => by cases impossible

theorem AtEnd.foldedBelow (ok : DbOk pageSize db)
    (atEnd : AtEnd pageSize pos db) : FoldedBelow pageSize pos db := by
  intro wal present
  rw [atEnd wal present, ← Sqlite.frames_of_wal present]
  exact ok.backfill

/-- A checkpoint moves nothing in the WAL. -/
theorem AtEnd.checkpoint {frames : Nat}
    (applied : db.apply pageSize (.checkpoint frames) = some next)
    (atEnd : AtEnd pageSize pos db) : AtEnd pageSize pos next := by
  simp only [Sqlite.apply] at applied
  split at applied
  · cases applied
    exact atEnd
  · cases applied

/-- The WAL can only be restarted when everything is folded, which then is
captured. -/
theorem FoldedBelow.atEnd (folded : FoldedBelow pageSize pos db)
    (aligned : Aligned pageSize image pos db) {salt2 : Nat} {txn : List Frame}
    (applied : db.restart salt2 txn = some next) : AtEnd pageSize pos db := by
  intro wal present
  obtain ⟨other, same, _, all, _⟩ := Sqlite.restart_eq_some applied
  rw [present] at same
  cases same
  have below := folded wal present
  simp only [Aligned, present] at aligned
  have inside := aligned.1.inside
  omega

/-- At the end of the WAL either the position names its generation or there is
nothing in it. -/
theorem AtEnd.generation (ok : DbOk pageSize db) {other : Position}
    (atEnd : AtEnd pageSize other db)
    (aligned : Aligned pageSize image pos db) :
    AtEnd pageSize pos db ∨
      ∃ wal, db.wal = some wal ∧ wal.salt1 = other.salt1 ∧ 1 ≤ wal.salt1 := by
  cases present : db.wal with
  | none =>
      left
      intro _ impossible
      rw [present] at impossible
      cases impossible
  | some wal =>
      by_cases same : wal.salt1 = other.salt1 ∧ wal.salt2 = other.salt2
      · exact .inr ⟨wal, rfl, same.1, (ok.salts wal present).1⟩
      · have ends := atEnd wal present
        rw [Wal.captured, if_neg same] at ends
        refine .inl ?_
        intro found foundWal
        rw [present] at foundWal
        cases foundWal
        simp only [Aligned, present] at aligned
        have inside := aligned.1.inside
        omega

/-- Discarding a generation supersedes it. -/
theorem superseded_of_discards {wal : Wal} (ok : DbOk pageSize db)
    (present : db.wal = some wal) (discards : op.discards = true)
    (applied : db.apply pageSize op = some next) :
    Superseded wal.salt1 next := by
  obtain ⟨positive, bound⟩ := ok.salts wal present
  refine ⟨by omega, ?_⟩
  cases op with
  | append salt2 txn => cases discards
  | restart salt2 txn =>
      obtain ⟨_, _, _, _, _, _, _, _, started⟩ := Sqlite.restart_eq_some applied
      intro later laterWal
      rw [started] at laterWal
      cases laterWal
      exact fun same => by simp only at same; omega
  | checkpoint frames => cases discards
  | truncate =>
      cases applied
      exact fun _ impossible => by cases impossible

end Generations

/-- The invariant of a syncer that retries.  The recorded position stays good
until the pending file is the only one to know the frames of a discarded
generation. -/
structure Retries (setup : Setup) (state : State) (image target : Bytes) :
    Prop extends Tracks setup state image target where
  reach : state.ahead.txid = 0 ∨
    Aligned setup.pageSize target state.ahead state.db
  fallback : state.pos.txid = 0 ∨
    Aligned setup.pageSize image state.pos state.db ∨
    ∃ staged, state.pending = some staged ∧
      Superseded staged.newPos.salt1 state.db
  keys : ∀ key ∈ state.staging,
    key = ⟨level0, state.pos.txid + 1, state.pos.txid + 1⟩
  current : state.pending = none → ∀ (key : FileKey) (file : LtxFile),
    state.staging[key]? = some file → ¬ Superseded file.header.walSalt1 state.db
  folded : (state.pending = none → state.staging = ∅) →
    state.ahead.txid = 0 ∨ FoldedBelow setup.pageSize state.ahead state.db
  window : state.InWindow → AtEnd setup.pageSize state.ahead state.db

section Retrying

variable {setup : Setup} {state next : State} {action : Action}
  {image target : Bytes}

theorem State.not_inWindow_idle (idle : state.pc = .idle) :
    ¬ state.InWindow := by
  rw [State.InWindow, idle]
  exact id

theorem State.runCheckpoint_window {now : Int} {mode : CheckpointMode}
    {restartWal : Bool} (idle : state.pc = .idle)
    (inside : (state.runCheckpoint setup now mode restartWal).InWindow) :
    (state.runCheckpoint setup now mode restartWal).pending = none →
      buildUnderLock setup.pageSize now state.pos state.db = .ok none := by
  obtain ⟨mark, held⟩ := State.acquireReadLock_eq state
  intro free
  unfold State.runCheckpoint at inside free
  rcases State.buildNext_cases setup state now with
    ⟨error, built, _⟩ | ⟨_, under⟩ | ⟨staged, file, built, _⟩
  · rw [built, held] at inside
    exact absurd inside (State.not_inWindow_idle idle)
  · exact under
  · rw [built] at free
    cases free

/-- How a step gets into the window between staging and the end of the
PRAGMA, or stays there. -/
theorem State.window_step (calls : state.RetryCalls setup action)
    (stepped : state.step setup action = some next) (inside : next.InWindow) :
    (state.InWindow ∧ action.fails = false ∧ ∀ op, action.dbOp = some op →
        ∃ frames, op = .checkpoint frames) ∨
      state.pc = .idle ∧ action.dbOp = none ∧ (next.pending = none → ∃ now,
        buildUnderLock setup.pageSize now state.pos state.db = .ok none) := by
  cases action with
  | commit restart salt2 txn =>
      obtain ⟨_, idle⟩ := calls
      obtain ⟨db, _, rfl⟩ := Option.map_eq_some_iff.mp stepped
      exact absurd inside (State.not_inWindow_idle idle)
  | appCheckpoint frames => exact calls.2.elim
  | appTruncate => exact calls.2.elim
  | tune minCheckpointFrames truncateFrames =>
      cases stepped
      exact .inl ⟨inside, rfl, fun _ impossible => by cases impossible⟩
  | sync now =>
      simp only [State.step] at stepped
      split at stepped
      · rename_i idle
        cases stepped
        obtain ⟨mark, held⟩ := State.acquireReadLock_eq state
        unfold State.sync at inside
        rcases State.buildNext_cases setup state now with
          ⟨error, built, _⟩ | ⟨built, _⟩ | ⟨staged, file, built, _⟩
        · rw [built, held] at inside
          exact absurd inside (State.not_inWindow_idle idle)
        · rw [built, held] at inside
          exact absurd inside (State.not_inWindow_idle idle)
        · rw [built] at inside
          exact inside.elim
      · cases stepped
  | checkpointIfNeeded now =>
      simp only [State.step] at stepped
      split at stepped
      · rename_i idle
        cases stepped
        refine .inr ⟨idle, rfl, ?_⟩
        unfold State.checkpointIfNeeded at inside ⊢
        split at inside
        · rename_i enough
          rw [if_pos enough]
          exact fun free => ⟨now, State.runCheckpoint_window idle inside free⟩
        · rename_i below
          rw [if_neg below]
          split at inside
          · rename_i enough
            rw [if_pos enough]
            exact fun free => ⟨now, State.runCheckpoint_window idle inside free⟩
          · exact absurd inside (State.not_inWindow_idle idle)
      · cases stepped
  | checkpointNow now mode =>
      simp only [State.step] at stepped
      split at stepped
      · rename_i idle
        cases stepped
        exact .inr ⟨idle, rfl, fun free =>
          ⟨now, State.runCheckpoint_window idle inside free⟩⟩
      · cases stepped
  | release =>
      simp only [State.step] at stepped
      split at stepped
      · rename_i cycle running
        refine .inl ⟨?_, rfl, fun _ impossible => by cases impossible⟩
        rw [State.InWindow, running]
        trivial
      · cases stepped
  | pragma outcome =>
      simp only [State.step] at stepped
      split at stepped
      · rename_i cycle running
        obtain ⟨⟨db, result⟩, done, rfl⟩ := Option.map_eq_some_iff.mp stepped
        refine .inl ⟨by rw [State.InWindow, running]; trivial, rfl, ?_⟩
        rw [State.InWindow] at inside
        dsimp only at inside
        by_cases bumps : cycle.restartWal = true ∧
            cycle.mode = .passive ∧ ¬ result.busy = true
        · cases outcome with
          | locked => exact fun _ impossible => by cases impossible
          | copied frames =>
              rintro _ ⟨⟩
              exact ⟨frames, rfl⟩
          | truncated =>
              simp [State.runPragma, bumps.2.1] at done
          | blocked frames =>
              rintro _ ⟨⟩
              exact ⟨frames, rfl⟩
        · rw [if_neg bumps] at inside
          exact inside.elim
      · cases stepped
  | bump ok restart salt2 txn =>
      simp only [State.step] at stepped
      split at stepped
      · cases ok with
        | false =>
            cases stepped
            exact inside.elim
        | true =>
            obtain ⟨db, _, rfl⟩ := Option.map_eq_some_iff.mp stepped
            exact inside.elim
      · cases stepped
  | acquire =>
      simp only [State.step] at stepped
      split at stepped
      · rename_i cycle result running
        cases stepped
        rw [State.InWindow] at inside
        dsimp only at inside
        cases staged : cycle.staged with
        | none =>
            rw [staged] at inside
            exact inside.elim
        | some file =>
            rw [staged] at inside
            exact inside.elim
      · cases stepped
  | upload ok now =>
      obtain ⟨staged, after, resnapshots, _, ending, ended⟩ :=
        State.upload_cases stepped
      rcases ended with ⟨rfl, _⟩ | ⟨_, uploaded, _, rfl⟩
      · exact inside.elim
      · rcases ending with ⟨rfl, _⟩ | ⟨_, _, _, rfl⟩
        · exact inside.elim
        · exact inside.elim
  | overFold now =>
      simp only [State.step] at stepped
      split at stepped
      · rename_i cycle result _
        cases stepped
        rcases State.overFold_cases setup state cycle result now with
          ⟨_, ended⟩ | ⟨_, ⟨_, _, ended⟩ | ⟨_, _, _, ended⟩⟩
        · rw [ended] at inside
          exact inside.elim
        · rw [ended] at inside
          exact inside.elim
        · rw [ended] at inside
          exact inside.elim
      · cases stepped

/-- Where a WAL generation is discarded. -/
theorem State.discards_where {op : SqliteOp}
    (calls : state.RetryCalls setup action)
    (stepped : state.step setup action = some next)
    (touched : action.dbOp = some op) (discards : op.discards = true) :
    state.InWindow ∨ state.pc = .idle ∧ ∃ salt2 txn, op = .restart salt2 txn := by
  have restarts : ∀ {restart salt2 txn}, commitOp restart salt2 txn = op →
      ∃ salt2 txn, op = .restart salt2 txn := by
    intro restart salt2 txn same
    cases restart with
    | false =>
        rw [← same] at discards
        cases discards
    | true => exact ⟨salt2, txn, same.symm⟩
  cases action with
  | commit restart salt2 txn =>
      exact .inr ⟨calls.2, restarts (Option.some.inj touched)⟩
  | appCheckpoint frames => exact calls.2.elim
  | appTruncate => exact calls.2.elim
  | pragma outcome =>
      simp only [State.step] at stepped
      split at stepped
      · rename_i cycle running
        refine .inl ?_
        rw [State.InWindow, running]
        trivial
      · cases stepped
  | bump ok restart salt2 txn =>
      simp only [State.step] at stepped
      split at stepped
      · rename_i cycle result running
        refine .inl ?_
        rw [State.InWindow, running]
        trivial
      · cases stepped
  | _ => cases touched

/-- Frames are folded by the PRAGMA only. -/
theorem State.checkpoints_where {frames : Nat}
    (calls : state.RetryCalls setup action)
    (stepped : state.step setup action = some next)
    (touched : action.dbOp = some (.checkpoint frames)) : state.InWindow := by
  have commits : ∀ {restart salt2 txn},
      commitOp restart salt2 txn ≠ .checkpoint frames := by
    intro restart salt2 txn same
    cases restart <;> cases same
  cases action with
  | commit restart salt2 txn =>
      exact absurd (Option.some.inj touched) commits
  | appCheckpoint frames => exact calls.2.elim
  | appTruncate => exact calls.2.elim
  | pragma outcome =>
      simp only [State.step] at stepped
      split at stepped
      · rename_i cycle running
        rw [State.InWindow, running]
        trivial
      · cases stepped
  | bump ok restart salt2 txn =>
      cases ok with
      | false => cases touched
      | true => exact absurd (Option.some.inj touched) commits
  | _ => cases touched

/-- Whatever is discarded was captured, if anything was synced at all. -/
theorem Retries.discard_atEnd {op : SqliteOp}
    (retries : Retries setup state image target)
    (calls : state.RetryCalls setup action) (shipped : state.Shipped action)
    (stepped : state.step setup action = some next)
    (touched : action.dbOp = some op) (discards : op.discards = true) :
    state.ahead.txid = 0 ∨ AtEnd setup.pageSize state.ahead state.db := by
  rcases State.discards_where calls stepped touched discards with
    inside | ⟨idle, salt2, txn, rfl⟩
  · exact .inr (retries.window inside)
  · have free := State.pending_idle idle
    have done := State.step_db stepped
    rw [touched] at done
    have empty := shipped.1 _ touched discards free
    rcases retries.folded (fun _ => empty) with first | folded
    · exact .inl first
    · rcases retries.reach with first | aligned
      · exact .inl first
      · exact .inr (folded.atEnd aligned done)

/-- Without a pending file the recorded position is good. -/
theorem Retries.resumes (retries : Retries setup state image target)
    (free : state.pending = none) :
    state.pos.txid = 0 ∨
      Aligned setup.pageSize image state.pos state.db := by
  rcases retries.fallback with first | aligned | ⟨staged, pending, _⟩
  · exact .inl first
  · exact .inr aligned
  · rw [free] at pending
    cases pending

/-- What a step does to the position that a lost upload falls back on. -/
theorem Retries.step_fallback (retries : Retries setup state image target)
    (calls : state.RetryCalls setup action) (shipped : state.Shipped action)
    (stepped : state.step setup action = some next) :
    state.pos.txid = 0 ∨ Aligned setup.pageSize image state.pos next.db ∨
      ∃ staged, state.pending = some staged ∧
        Superseded staged.newPos.salt1 next.db := by
  have tracks := retries.toTracks
  have done := State.step_db stepped
  cases touched : action.dbOp with
  | none =>
      rw [touched] at done
      rw [done]
      exact retries.fallback
  | some op =>
      rw [touched] at done
      rcases retries.fallback with first | aligned | ⟨staged, pending, gone⟩
      · exact .inl first
      · have keeps (safe : op.discards = true →
            AtEnd setup.pageSize state.pos state.db) :
            Aligned setup.pageSize image state.pos next.db :=
          aligned.apply setup.positive tracks.db tracks.replica.image
            tracks.salts (calls.1 op touched) done safe
        by_cases discards : op.discards = true
        · cases pending : state.pending with
          | none =>
              have ended := retries.discard_atEnd calls shipped stepped touched
                discards
              rw [State.ahead_free pending] at ended
              exact ended.imp id fun atEnd => .inl (keeps fun _ => atEnd)
          | some staged =>
              have inside : state.InWindow := by
                rcases State.discards_where calls stepped touched discards with
                  inside | ⟨idle, _⟩
                · exact inside
                · rw [State.pending_idle idle] at pending
                  cases pending
              have ahead : state.ahead = staged.newPos := by
                rw [State.ahead, pending]
                rfl
              rcases (retries.window inside).generation tracks.db aligned with
                atEnd | ⟨wal, present, salt1, _⟩
              · exact .inr (.inl (keeps fun _ => atEnd))
              · refine .inr (.inr ⟨staged, rfl, ?_⟩)
                rw [← ahead, ← salt1]
                exact superseded_of_discards tracks.db present discards done
        · exact .inr (.inl (keeps fun impossible =>
            absurd impossible discards))
      · refine .inr (.inr ⟨staged, pending, gone.apply ?_ done⟩)
        have salts := tracks.aheadSalts
        rw [State.ahead, pending] at salts
        exact salts

/-- A step that keeps the pending file. -/
theorem Retries.kept (retries : Retries setup state image target)
    (calls : state.RetryCalls setup action) (shipped : state.Shipped action)
    (stepped : state.step setup action = some next)
    (store : next.store = state.store) (staging : next.staging = state.staging)
    (pos : next.pos = state.pos) (pending : next.pending = state.pending) :
    Retries setup next image target := by
  have tracks := retries.toTracks
  obtain ⟨dbOk, salts⟩ := tracks.step_db calls.1 stepped
  have done := State.step_db stepped
  have ahead : next.ahead = state.ahead := by
    rw [State.ahead, State.ahead, pending, pos]
  have fallback := retries.step_fallback calls shipped stepped
  refine ⟨tracks.kept dbOk salts store staging pos pending, ?_, ?_, ?_, ?_, ?_,
    ?_⟩
  · rw [ahead]
    rcases retries.reach with first | aligned
    · exact .inl first
    · by_cases first : state.ahead.txid = 0
      · exact .inl first
      · refine .inr (tracks.step_aligned calls.1 stepped tracks.targetOk
          tracks.aheadSalts ?_ aligned)
        exact fun op touched discards => (retries.discard_atEnd calls shipped
          stepped touched discards).resolve_left first
  · rw [pos, pending]
    exact fallback
  · rw [staging, pos]
    exact retries.keys
  · rw [pending, staging]
    intro free key file held
    cases touched : action.dbOp with
    | none =>
        rw [touched] at done
        rw [done]
        exact retries.current free key file held
    | some op =>
        rw [touched] at done
        cases discards : op.discards with
        | true =>
            have empty := shipped.1 op touched discards free
            rw [empty, ExtTreeMap.getElem?_empty] at held
            cases held
        | false =>
            intro gone
            exact retries.current free key file held
              (gone.of_apply discards done)
  · rw [pending, staging, ahead]
    intro owned
    cases touched : action.dbOp with
    | none =>
        rw [touched] at done
        rw [done]
        exact retries.folded owned
    | some op =>
        rw [touched] at done
        cases op with
        | checkpoint frames =>
            have inside := State.checkpoints_where calls stepped touched
            exact .inr (((retries.window inside).checkpoint done).foldedBelow
              dbOk)
        | _ =>
            exact (retries.folded owned).imp id fun below =>
              below.apply (fun _ impossible => by cases impossible) done
  · intro inside
    rw [ahead]
    rcases State.window_step calls stepped inside with
      ⟨before, _, only⟩ | ⟨idle, untouched, nothing⟩
    · have atEnd := retries.window before
      cases touched : action.dbOp with
      | none =>
          rw [touched] at done
          rw [done]
          exact atEnd
      | some op =>
          rw [touched] at done
          obtain ⟨frames, rfl⟩ := only op touched
          exact atEnd.checkpoint done
    · have free := State.pending_idle idle
      obtain ⟨now, built⟩ := nothing (pending.trans free)
      rw [untouched] at done
      rw [done, State.ahead_free free]
      exact (buildUnderLock_spec setup.positive tracks.db tracks.replica.image
        (retries.resumes free) built).2.2

theorem Retries.step (retries : Retries setup state image target)
    (calls : state.RetryCalls setup action) (shipped : state.Shipped action)
    (stepped : state.step setup action = some next) :
    ∃ image target, Retries setup next image target := by
  have tracks := retries.toTracks
  cases step_effect tracks stepped with
  | kept store staging pos pending noticed =>
      exact ⟨image, target,
        retries.kept calls shipped stepped store staging pos pending⟩
  | staged staged file now free db built store staging pos pending =>
      have start := retries.resumes free
      obtain ⟨nextTracks, aligned, atEnd⟩ := tracks.staged db
        (built.imp (fun both => ⟨start, both.2⟩) id) store staging pos pending
      obtain ⟨other, held, stagedOk, _⟩ := nextTracks.waiting staged pending
      rw [pos] at stagedOk
      refine ⟨image, _, nextTracks, .inr aligned, ?_, ?_, ?_,
        fun _ => .inr (atEnd.foldedBelow nextTracks.db), fun _ => atEnd⟩
      · rw [pos, db]
        exact start.imp id .inl
      · rw [staging, pos]
        intro key member
        rcases (OrderedMap.mem_insert _ _ _ _).mp member with rfl | old
        · exact stagedOk.key
        · exact retries.keys key old
      · rw [pending]
        exact fun impossible => by cases impossible
  | uploaded staged file pending held db store staging pos free noticed =>
      have nextTracks := tracks.uploaded pending held db store pos free
      obtain ⟨_, _, stagedOk, _⟩ := tracks.waiting staged pending
      have ahead : next.ahead = state.ahead := by
        rw [State.ahead_free free, State.ahead, pending, pos]
        rfl
      have empty : ∀ key, key ∉ next.staging := by
        intro key member
        rw [staging] at member
        obtain ⟨apart, old⟩ := (OrderedMap.mem_erase _ _ _).mp member
        exact apart ((retries.keys key old).trans stagedOk.key.symm)
      have reach := retries.reach
      rw [← ahead, ← db] at reach
      refine ⟨target, target, nextTracks, reach, ?_, ?_, ?_, ?_, ?_⟩
      · rw [State.ahead_free free] at reach
        exact reach.imp id .inl
      · exact fun key member => absurd member (empty key)
      · intro _ key other found
        exact absurd ((OrderedMap.mem_iff_exists _ _).mpr ⟨other, found⟩)
          (empty key)
      · intro _
        rw [ahead, db]
        apply retries.folded
        rw [pending]
        exact fun impossible => by cases impossible
      · intro inside
        rcases State.window_step calls stepped inside with
          ⟨before, _, _⟩ | ⟨idle, _⟩
        · rw [ahead, db]
          exact retries.window before
        · rw [State.pending_idle idle] at pending
          cases pending
  | dropped failed db store staging pos free =>
      have nextTracks := tracks.dropped db store pos free
      have resumes : state.pos.txid = 0 ∨
          Aligned setup.pageSize image state.pos state.db := by
        rcases retries.fallback with first | aligned | ⟨staged, pending, gone⟩
        · exact .inl first
        · exact .inr aligned
        · exact absurd gone (shipped.2 failed staged pending)
      have ahead : next.ahead = state.pos := by
        rw [State.ahead_free free, pos]
      refine ⟨image, image, nextTracks, ?_, ?_, ?_, ?_, ?_, ?_⟩
      · rw [ahead, db]
        exact resumes
      · rw [pos, db]
        exact resumes.imp id .inl
      · rw [staging, pos]
        exact retries.keys
      · intro _ key file held
        rw [staging] at held
        rw [db]
        cases pending : state.pending with
        | none => exact retries.current pending key file held
        | some staged =>
            obtain ⟨other, found, stagedOk, _⟩ := tracks.waiting staged pending
            have same := retries.keys key
              ((OrderedMap.mem_iff_exists _ _).mpr ⟨file, held⟩)
            rw [← stagedOk.key] at same
            rw [same, found] at held
            cases held
            rw [stagedOk.salt1]
            exact shipped.2 failed staged pending
      · intro owned
        rw [ahead, db]
        cases pending : state.pending with
        | none =>
            rw [← State.ahead_free pending]
            apply retries.folded
            intro _
            rw [← staging]
            exact owned free
        | some staged =>
            obtain ⟨other, found, _⟩ := tracks.waiting staged pending
            have empty := owned free
            rw [staging] at empty
            rw [empty, ExtTreeMap.getElem?_empty] at found
            cases found
      · intro inside
        rcases State.window_step calls stepped inside with
          ⟨_, succeeds, _⟩ | ⟨idle, untouched, nothing⟩
        · rw [failed] at succeeds
          cases succeeds
        · obtain ⟨now, built⟩ := nothing free
          rw [ahead, db]
          exact (buildUnderLock_spec setup.positive tracks.db
            tracks.replica.image resumes built).2.2

/-- A staged file whose generation is gone stays until the replica has it. -/
theorem Retries.keeps_superseded (retries : Retries setup state image target)
    (stepped : state.step setup action = some next) {key : FileKey}
    {file : LtxFile} (held : state.staging[key]? = some file)
    (gone : Superseded file.header.walSalt1 state.db) :
    next.staging[key]? = some file ∨ next.store[key]? = some file := by
  have tracks := retries.toTracks
  cases step_effect tracks stepped with
  | kept store staging pos pending noticed =>
      rw [staging]
      exact .inl held
  | staged staged file now free db built store staging pos pending =>
      exact absurd gone (retries.current free key _ held)
  | uploaded staged other pending found db store staging pos free noticed =>
      obtain ⟨_, _, stagedOk, _⟩ := tracks.waiting staged pending
      have same := retries.keys key
        ((OrderedMap.mem_iff_exists _ _).mpr ⟨file, held⟩)
      rw [← stagedOk.key] at same
      subst same
      rw [found] at held
      cases held
      rw [store, ExtTreeMap.getElem?_insert_self]
      exact .inr rfl
  | dropped failed db store staging pos free =>
      rw [staging]
      exact .inl held

end Retrying

/-- Some images make the invariant hold. -/
def Retried (setup : Setup) (state : State) : Prop :=
  ∃ image target, Retries setup state image target

section Runs

variable {setup : Setup} {start state : State} {image : Bytes}

theorem Opened.retries (opened : Opened setup start image)
    (empty : start.staging = ∅) (unfolded : start.pos.txid = 0 ∨
      FoldedBelow setup.pageSize start.pos start.db) :
    Retries setup start image image where
  toTracks := opened.tracks
  reach := by
    rw [State.ahead_free (State.pending_idle opened.idle)]
    exact opened.resumes
  fallback := opened.resumes.imp id .inl
  keys := by simp [empty]
  current := by simp [empty]
  folded := by
    rw [State.ahead_free (State.pending_idle opened.idle)]
    exact fun _ => unfolded
  window := fun inside =>
    absurd inside (State.not_inWindow_idle opened.idle)

theorem Retried.reaches {guard : State → Action → Prop}
    (allowed : ∀ state action, guard state action →
      state.RetryCalls setup action ∧ state.Shipped action)
    (retried : Retried setup start)
    (run : Reaches (State.step setup) guard start state) :
    Retried setup state := by
  apply run.invariant retried
  rintro state action next ⟨image, target, retries⟩ guarded stepped
  obtain ⟨calls, shipped⟩ := allowed state action guarded
  exact retries.step calls shipped stepped

theorem State.drains_allowed {action : Action} (drains : action.drains) :
    state.RetryCalls setup action ∧ state.Shipped action := by
  refine ⟨⟨State.fits_of_drains drains, ?_⟩, ?_, ?_⟩
  · cases action with
    | sync now => trivial
    | upload ok now => trivial
    | _ => exact drains.elim
  · intro op touched
    rw [Action.drains_dbOp drains] at touched
    cases touched
  · intro failed
    rw [Action.drains_fails drains] at failed
    cases failed

theorem Retried.flush (retried : Retried setup state) (idle : state.pc = .idle)
    {times : List Int} {final : State}
    (flushed : state.flush setup times = some final) :
    restore final.store = .ok (state.db.committedImage setup.pageSize) := by
  obtain ⟨middle, now, run, stopped, ends⟩ := State.flush_reaches idle flushed
  obtain ⟨image, target, retries⟩ :=
    retried.reaches (fun _ _ drains => State.drains_allowed drains) run
  rw [← State.drains_db run]
  exact retries.drained (retries.resumes (State.pending_idle stopped)) ends

theorem shipped_run_restores (opened : Opened setup start image)
    (empty : start.staging = ∅) (unfolded : start.pos.txid = 0 ∨
      FoldedBelow setup.pageSize start.pos start.db)
    (run : Reaches (State.step setup) (fun state action =>
      state.RetryCalls setup action ∧ state.Shipped action) start state) :
    (∀ times final, state.pc = .idle →
        state.flush setup times = some final →
        restore final.store =
          .ok (state.db.committedImage setup.pageSize)) ∧
      ∀ (action : Action) (next : State) (key : FileKey) (file : LtxFile),
        state.step setup action = some next →
        state.staging[key]? = some file →
        Superseded file.header.walSalt1 state.db →
        next.staging[key]? = some file ∨ next.store[key]? = some file := by
  have retried : Retried setup start :=
    ⟨image, image, opened.retries empty unfolded⟩
  have reached := retried.reaches (fun _ _ both => both) run
  obtain ⟨_, _, retries⟩ := reached
  exact ⟨fun _ _ idle flushed => Retried.flush ⟨_, _, retries⟩ idle flushed,
    fun _ _ _ _ stepped held gone =>
      retries.keeps_superseded stepped held gone⟩

end Runs

/-! ## An upload that fails after the restart -/

instance (salt1 : Nat) (db : Sqlite) : Decidable (Superseded salt1 db) :=
  inferInstanceAs (Decidable (_ ∧ ∀ wal ∈ db.wal, wal.salt1 ≠ salt1))

instance (store : Store) : Decidable (store = ∅) :=
  decidable_of_iff (store.isEmpty = true) ExtTreeMap.isEmpty_iff

instance (setup : Setup) (state : State) (action : Action) :
    Decidable (state.RetryCalls setup action) := by
  unfold State.RetryCalls
  rcases action <;> infer_instance

instance (state : State) (action : Action) : Decidable (state.Shipped action) :=
  inferInstanceAs (Decidable ((∀ op ∈ action.dbOp, op.discards = true →
    state.pending = none → state.staging = ∅) ∧
    (action.fails = true → ∀ staged ∈ state.pending,
      ¬ Superseded staged.newPos.salt1 state.db)))

/-- A commit of the first page of two that restarts the WAL, if need be. -/
def bumpPage (restart : Bool) : Action :=
  .bump true restart 7 [⟨1, 2, List.replicate 512 3⟩]

/-- The run that `failed_upload_loses_commit` is about. -/
def failedUpload : Option (State × State) :=
  drainedRun smallSetup (State.RetryCalls smallSetup) (quietState 2)
    [commitPage 1 1, .sync 0, .upload true 0, commitPage 2 2,
      .checkpointIfNeeded 0, .release, .pragma (.copied 2), bumpPage true,
      .acquire, .upload false 0] [0, 0]

theorem failed_upload_loses_commit :
    ∃ setup start image state times final,
      Opened setup start image ∧ start.staging = ∅ ∧ start.pos.txid = 0 ∧
      Reaches (State.step setup) (State.RetryCalls setup) start state ∧
      state.pc = .idle ∧ state.flush setup times = some final ∧
      restore final.store ≠
        .ok (state.db.committedImage setup.pageSize) := by
  have lost : ∃ result ∈ failedUpload, restore result.2.store ≠
      .ok (result.1.db.committedImage smallSetup.pageSize) := by
    decide +kernel
  obtain ⟨⟨state, final⟩, ran, lost⟩ := lost
  obtain ⟨run, idle, flushed⟩ := drainedRun_eq_some ran
  exact ⟨smallSetup, quietState 2, [], state, _, final, quietState_opened, rfl,
    rfl, run, idle, flushed, lost⟩

/-- An upload that fails before the restart. -/
def retriedUpload : Option (State × State) :=
  drainedRun smallSetup (fun state action =>
      state.RetryCalls smallSetup action ∧ state.Shipped action) (quietState 2)
    [commitPage 1 1, .sync 0, .upload true 0, commitPage 2 2, .sync 0,
      .upload false 0, .checkpointIfNeeded 0, .release, .pragma (.copied 2),
      bumpPage true, .acquire, .upload true 0, .overFold 0] [0, 0]

theorem shipped_run_restores_retried :
    ∃ result ∈ retriedUpload, restore result.2.store =
      .ok (result.1.db.committedImage smallSetup.pageSize) := by
  have runs : ∃ result, retriedUpload = some result :=
    Option.isSome_iff_exists.mp (by decide +kernel)
  obtain ⟨⟨state, final⟩, ran⟩ := runs
  obtain ⟨run, idle, flushed⟩ := drainedRun_eq_some ran
  exact ⟨(state, final), ran,
    (shipped_run_restores quietState_opened rfl (.inl rfl) run).1 _ _ idle
      flushed⟩

end Literstream
