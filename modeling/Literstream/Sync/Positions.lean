import Literstream.Sync.Effects

/-!
# Where a sync leaves the position

A file that is built captures the whole WAL, whatever position it started from.
When nothing is built, the position counts at least the frames of the WAL.
-/

namespace Literstream

open PagedFile

section Positions

variable {pageSize : Nat} {now : Int} {pos : Position} {db : Sqlite}

/-- The position after a file that captures the whole WAL. -/
structure AtWalEnd (pageSize : Nat) (pos : Position) (db : Sqlite) : Prop where
  txid : pos.txid ≠ 0
  salt1 : pos.salt1 = (db.wal.map Wal.salt1).getD 0
  salt2 : pos.salt2 = (db.wal.map Wal.salt2).getD 0
  offset : pos.walOffset = frameOffset pageSize db.frames.length
  emptied : db.wal = none → pos.syncedToWalEnd = true

theorem buildSnapshot_atWalEnd (positive : 0 < pageSize)
    (ok : DbOk pageSize db) {staged : StagedFile} {file : LtxFile}
    (built : buildSnapshot pageSize now pos db walHeaderSize =
      .ok (staged, file)) : AtWalEnd pageSize staged.newPos db where
  txid := by
    rw [(buildSnapshot_staged built).txid]
    exact Nat.succ_ne_zero _
  salt1 := (buildSnapshot_spec positive ok.readable imageOk_nil built).salt1
  salt2 := (buildSnapshot_spec positive ok.readable imageOk_nil built).salt2
  offset := (buildSnapshot_spec positive ok.readable imageOk_nil built).offset
  emptied := by
    intro absent
    obtain ⟨_, _, _, _, _, _, _, _, _, rfl⟩ := buildSnapshot_eq_ok built
    simp [absent]

/-- A plan for a WAL names the WAL's generation. -/
theorem plan_salts {wal : Wal} {offset salt1 salt2 : Nat}
    (planned : plan pageSize pos (some wal) =
      .incremental offset salt1 salt2) :
    salt1 = wal.salt1 ∧ salt2 = wal.salt2 ∧
      (offset = walHeaderSize ∨ offset = pos.walOffset ∧
        wal.salt1 = pos.salt1 ∧ wal.salt2 = pos.salt2) := by
  simp only [plan] at planned
  split at planned
  · cases planned
  · split at planned
    · cases planned
      exact ⟨rfl, rfl, .inl rfl⟩
    · rename_i same
      cases planned
      rw [not_or, not_not] at same
      exact ⟨same.2.1.symm, same.2.2.symm, .inr ⟨rfl, same.2⟩⟩

theorem plan_txid {wal : Wal} (replicated : pos.txid ≠ 0) :
    ∃ offset salt1 salt2, plan pageSize pos (some wal) =
      .incremental offset salt1 salt2 := by
  simp only [plan, if_neg replicated]
  split
  · exact ⟨_, _, _, rfl⟩
  · exact ⟨_, _, _, rfl⟩

/-- A file is a snapshot, or what the plan says of the WAL. -/
theorem buildUnderLock_planned {staged : StagedFile} {file : LtxFile}
    (built : buildUnderLock pageSize now pos db = .ok (some (staged, file))) :
    buildSnapshot pageSize now pos db walHeaderSize = .ok (staged, file) ∨
      ∃ wal offset salt1 salt2, db.wal = some wal ∧
        plan pageSize pos (some wal) = .incremental offset salt1 salt2 ∧
        buildIncremental pageSize now pos wal offset salt1 salt2 =
          .ok (some (staged, file)) := by
  unfold buildUnderLock at built
  split at built
  · cases built
  · rename_i offset _ planned
    obtain rfl := plan_snapshot planned
    cases snapshot : buildSnapshot pageSize now pos db walHeaderSize with
    | error error =>
        rw [snapshot] at built
        cases built
    | ok result =>
        rw [snapshot] at built
        cases built
        exact .inl rfl
  · rename_i offset salt1 salt2 wal planned present
    rw [present] at planned
    exact .inr ⟨wal, offset, salt1, salt2, present, planned, built⟩
  · cases built

/-- A file that is built captures the whole WAL. -/
theorem buildUnderLock_atWalEnd (positive : 0 < pageSize)
    (ok : DbOk pageSize db) {staged : StagedFile} {file : LtxFile}
    (built : buildUnderLock pageSize now pos db = .ok (some (staged, file))) :
    AtWalEnd pageSize staged.newPos db := by
  have txid : staged.newPos.txid ≠ 0 := by
    rw [(buildUnderLock_staged built).txid]
    exact Nat.succ_ne_zero _
  rcases buildUnderLock_planned built with
    snapshot | ⟨wal, offset, salt1, salt2, present, planned, incremental⟩
  · exact buildSnapshot_atWalEnd positive ok snapshot
  · have framesOk := ok.frames
    rw [Sqlite.frames_of_wal present] at framesOk
    obtain ⟨rfl, rfl, _⟩ := plan_salts planned
    obtain ⟨_, _, read, _⟩ := buildIncremental_eq_ok incremental
    obtain ⟨index, rfl, _, _⟩ := readTail_eq_ok read
    obtain ⟨_, first, second, offset, _⟩ :=
      buildIncremental_spec framesOk incremental
    refine ⟨txid, ?_, ?_, ?_, ?_⟩
    · rw [first, present]
      rfl
    · rw [second, present]
      rfl
    · rw [offset, Sqlite.frames_of_wal present]
    · intro absent
      rw [present] at absent
      cases absent

/-- Nothing is left to sync. -/
structure UpToDate (pageSize : Nat) (pos : Position) (db : Sqlite) : Prop where
  txid : pos.txid ≠ 0
  emptied : db.wal = none → pos.syncedToWalEnd = true
  read : ∀ wal, db.wal = some wal →
    ∃ offset salt1 salt2, plan pageSize pos (some wal) =
        .incremental offset salt1 salt2 ∧
      readTail pageSize wal offset = .ok []

theorem pageMap_nil_isEmpty : (pageMap pageSize []).pages.isEmpty = true := by
  rw [pageMap_nil]
  rfl

theorem buildIncremental_eq_none {wal : Wal} {offset salt1 salt2 : Nat}
    (framesOk : FramesOk pageSize wal.frames) :
    buildIncremental pageSize now pos wal offset salt1 salt2 = .ok none ↔
      readTail pageSize wal offset = .ok [] := by
  constructor
  · intro built
    have spec := built
    rw [buildIncremental, bind_eq_ok] at spec
    obtain ⟨entries, read, _⟩ := spec
    obtain ⟨index, rfl, _, rfl⟩ := readTail_eq_ok read
    have empty := buildIncremental_spec framesOk built
    dsimp only at empty
    rw [read, empty]
    rfl
  · intro read
    rw [buildIncremental, bind_eq_ok]
    refine ⟨[], read, ?_⟩
    dsimp only
    rw [if_pos pageMap_nil_isEmpty]
    rfl

theorem buildUnderLock_eq_none (ok : DbOk pageSize db) :
    buildUnderLock pageSize now pos db = .ok none ↔
      UpToDate pageSize pos db := by
  have unbuilt : ∀ offset, (buildSnapshot pageSize now pos db offset).map some ≠
      .ok none := by
    intro offset
    cases buildSnapshot pageSize now pos db offset with
    | error error => exact fun impossible => by cases impossible
    | ok result => exact fun impossible => by cases impossible
  cases present : db.wal with
  | none =>
      unfold buildUnderLock
      rw [present]
      constructor
      · intro built
        by_cases first : pos.txid = 0
        · simp only [plan, first, if_true] at built
          exact absurd built (unbuilt _)
        · by_cases synced : pos.syncedToWalEnd = true
          · refine ⟨first, fun _ => synced, ?_⟩
            intro wal impossible
            rw [present] at impossible
            cases impossible
          · simp only [plan, first, synced, if_false] at built
            exact absurd built (unbuilt _)
      · intro upToDate
        simp only [plan, if_neg upToDate.txid,
          if_pos (upToDate.emptied present)]
  | some wal =>
      have framesOk := ok.frames
      rw [Sqlite.frames_of_wal present] at framesOk
      unfold buildUnderLock
      rw [present]
      constructor
      · intro built
        by_cases first : pos.txid = 0
        · simp only [plan, first, if_true] at built
          exact absurd built (unbuilt _)
        · obtain ⟨offset, salt1, salt2, planned⟩ :=
            @plan_txid pageSize pos wal first
          rw [planned] at built
          refine ⟨first, ?_, ?_⟩
          · intro absent
            rw [present] at absent
            cases absent
          · intro other same
            rw [present] at same
            cases same
            exact ⟨offset, salt1, salt2, planned,
              (buildIncremental_eq_none framesOk).mp built⟩
      · intro upToDate
        obtain ⟨offset, salt1, salt2, planned, read⟩ :=
          upToDate.read wal present
        rw [planned]
        exact (buildIncremental_eq_none framesOk).mpr read

/-- What nothing to sync says about the frames of the WAL. -/
theorem UpToDate.frames {wal : Wal} (upToDate : UpToDate pageSize pos db)
    (present : db.wal = some wal) :
    wal.frames = [] ∨ wal.salt1 = pos.salt1 ∧ wal.salt2 = pos.salt2 ∧
      wal.frames.length ≤
        (pos.walOffset - walHeaderSize) / frameSize pageSize := by
  obtain ⟨offset, salt1, salt2, planned, read⟩ := upToDate.read wal present
  obtain ⟨_, _, started⟩ := plan_salts planned
  obtain ⟨index, aligned, _, entries⟩ := readTail_eq_ok read
  have passed : wal.frames.length ≤ index := by
    have none_ := congrArg List.length entries
    rw [length_locate, List.length_nil, List.length_drop] at none_
    omega
  rcases started with first | ⟨kept, salts⟩
  · left
    have start : index = 0 := by
      apply @frameOffset_injective pageSize
      rw [← aligned, first, frameOffset, Nat.zero_mul, Nat.add_zero]
    rw [start] at passed
    exact List.length_eq_zero_iff.mp (Nat.le_zero.mp passed)
  · right
    refine ⟨salts.1, salts.2, ?_⟩
    rw [← kept, aligned, frameOffset_index]
    exact passed

theorem UpToDate.of_wal {other : Sqlite} (upToDate : UpToDate pageSize pos db)
    (same : other.wal = db.wal) : UpToDate pageSize pos other where
  txid := upToDate.txid
  emptied absent := upToDate.emptied (same ▸ absent)
  read wal present := upToDate.read wal (same ▸ present)

theorem AtWalEnd.index (ended : AtWalEnd pageSize pos db) :
    (pos.walOffset - walHeaderSize) / frameSize pageSize =
      db.frames.length := by
  rw [ended.offset, frameOffset_index]

theorem AtWalEnd.upToDate (ended : AtWalEnd pageSize pos db) :
    UpToDate pageSize pos db where
  txid := ended.txid
  emptied := ended.emptied
  read := by
    intro wal present
    have salt1 := ended.salt1
    have salt2 := ended.salt2
    have offset := ended.offset
    rw [present] at salt1 salt2
    rw [Sqlite.frames_of_wal present] at offset
    have inside : ¬(pos.walOffset > wal.size pageSize ∨
        ¬(wal.salt1 = pos.salt1 ∧ wal.salt2 = pos.salt2)) := by
      rw [not_or, not_not, offset, not_lt]
      refine ⟨?_, salt1.symm, salt2.symm⟩
      exact Nat.add_le_add_left
        (Nat.mul_le_mul_right _ (Nat.le_add_right _ _)) _
    refine ⟨pos.walOffset, pos.salt1, pos.salt2, ?_, ?_⟩
    · simp only [plan, if_neg ended.txid, if_neg inside]
    · rw [offset]
      unfold readTail
      dsimp only
      rw [frameOffset_index, if_neg, if_neg (lt_irrefl _), List.drop_length]
      · rfl
      · rw [frameOffset, Nat.add_sub_cancel_left, Nat.mul_mod_left]
        omega

/-- Every frame is counted by a position that leaves nothing to sync. -/
theorem UpToDate.counts {setup : Setup}
    (upToDate : UpToDate setup.pageSize pos db) :
    db.frames.length ≤ State.liveWalFrames setup pos := by
  cases present : db.wal with
  | none =>
      rw [Sqlite.frames_of_none present]
      exact Nat.zero_le _
  | some wal =>
      rw [Sqlite.frames_of_wal present]
      rcases upToDate.frames present with empty | ⟨_, _, counted⟩
      · rw [empty]
        exact Nat.zero_le _
      · exact counted

theorem AtWalEnd.counts {setup : Setup}
    (atEnd : AtWalEnd setup.pageSize pos db) :
    State.liveWalFrames setup pos = db.frames.length := atEnd.index

/-- When the plan for an empty WAL does nothing. -/
theorem plan_eq_skip :
    plan pageSize pos none = .skip ↔
      pos.txid ≠ 0 ∧ pos.syncedToWalEnd = true := by
  unfold plan
  by_cases first : pos.txid = 0
  · simp [first]
  · simp [first]

end Positions

/-- How a checkpoint cycle starts: with everything captured. -/
theorem State.runCheckpoint_cases {setup : Setup} {state : State}
    (ok : DbOk setup.pageSize state.db) (now : Int) (mode : CheckpointMode)
    (restartWal : Bool) :
    state.runCheckpoint setup now mode restartWal = state.acquireReadLock ∨
      ∃ cycle,
        (state.runCheckpoint setup now mode restartWal).pc = .release cycle ∧
        (state.runCheckpoint setup now mode restartWal).pos = state.pos ∧
        cycle.mode = mode ∧ cycle.restartWal = restartWal ∧
        (cycle.staged = none ∧
            cycle.syncedFrames = liveWalFrames setup state.pos ∧
            UpToDate setup.pageSize state.pos state.db ∨
          ∃ staged, cycle.staged = some staged ∧
            cycle.syncedFrames = liveWalFrames setup staged.newPos ∧
            AtWalEnd setup.pageSize staged.newPos state.db ∧
            ¬UpToDate setup.pageSize state.pos state.db) := by
  obtain ⟨mark, held⟩ := State.acquireReadLock_eq state
  unfold State.runCheckpoint
  rcases State.buildNext_cases setup state now with
    ⟨error, built, _⟩ | ⟨built, under⟩ | ⟨staged, file, built, under⟩
  · rw [built]
    exact .inl rfl
  · rw [built, held]
    refine .inr ⟨_, rfl, rfl, rfl, rfl, .inl ⟨rfl, rfl, ?_⟩⟩
    exact (buildUnderLock_eq_none ok).mp under
  · rw [built, held]
    refine .inr ⟨_, rfl, rfl, rfl, rfl, .inr ⟨staged, rfl, rfl,
      buildUnderLock_atWalEnd setup.positive ok under, ?_⟩⟩
    intro upToDate
    rw [(buildUnderLock_eq_none ok).mpr upToDate] at under
    cases under

end Literstream
