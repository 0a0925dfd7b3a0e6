import Mathlib.Logic.Function.Basic
import Mathlib.Order.Bounds.Basic
import Literstream.Levels.Targets

/-!
# Timestamps of a replica in use

Every L0 file is stamped when its transaction is built, and compaction keeps
the stamp of the newest input.  A snapshot is stamped when it is taken, so that
it can carry a later time than the transaction it ends at.
-/

namespace Literstream

open Fallible

/-- A replica with its clock.  `committed` remembers the timestamp with which
the L0 file of a TXID was written. -/
structure Clocked where
  levels : Levels
  now : Int
  committed : Nat → Int

/-- The clock reading of a call. -/
def LevelsCall.reading : LevelsCall → Option Int
  | .sync clock _ => some clock
  | .compactLevel clock _ => some clock
  | .snapshot clock => some clock
  | .compact clock => some clock
  | .enforceSnapshotRetention .. => none
  | .enforceL0Retention .. => none
  | .restamp .. => none

/-- The timestamps after a call that led to `next`. -/
def Clocked.record (state : Clocked) (next : Levels) : LevelsCall → Nat → Int
  | .sync _ file =>
      if next.txid = state.levels.txid then state.committed
      else Function.update state.committed next.txid file.header.timestamp
  | _ => state.committed

def Clocked.step (encodedSize : LtxFile → Nat) (state : Clocked)
    (action : LevelsAction) : Option Clocked :=
  (state.levels.step encodedSize action).map fun next =>
    { levels := next
      now := action.call.reading.getD state.now
      committed := state.record next action.call }

/-- The clock never goes back: neither between two calls nor between the
timestamp of an L0 file and its upload. -/
structure History.Ticks (history : History) (state : Clocked)
    (action : LevelsAction) : Prop where
  cascades : history.cascades state.levels action
  forward : ∀ clock, action.call.reading = some clock → state.now ≤ clock
  stamped : ∀ clock file, action.call = .sync clock file →
    file.header.timestamp ≤ nowMs clock
  ascending : ∀ clock file, action.call = .sync clock file →
    1 ≤ state.levels.txid →
      state.committed state.levels.txid ≤ file.header.timestamp

/-- An empty replica at some time. -/
def Clocked.start (now : Int) : Clocked where
  levels := Levels.empty
  now := now
  committed := fun _ => 0

theorem nowMs_mono {earlier later : Int} (ordered : earlier ≤ later) :
    nowMs earlier ≤ nowMs later := by
  unfold nowMs
  split <;> split <;> omega

/-- Every file is stamped with the time of the transaction it ends at, except
snapshots, which may be stamped later. -/
structure Timed (history : History) (state : Clocked) : Prop where
  ok : ReplicaOk history state.levels
  rising : ∀ early late, 1 ≤ early → early ≤ late → late ≤ state.levels.txid →
    state.committed early ≤ state.committed late
  bounded : ∀ txid, 1 ≤ txid → txid ≤ state.levels.txid →
    state.committed txid ≤ nowMs state.now
  plain : ∀ (key : FileKey) (file : LtxFile),
    state.levels.store[key]? = some file → key.level ≠ snapshotLevel →
      file.header.timestamp = state.committed key.maxTxid
  atLeast : ∀ (key : FileKey) (file : LtxFile),
    state.levels.store[key]? = some file →
      state.committed key.maxTxid ≤ file.header.timestamp

variable {history : History}

theorem timed_start (history : History) (now : Int) :
    Timed history (Clocked.start now) where
  ok := ⟨0, levelsOk_empty history⟩
  rising := by
    intro early late positive ordered synced
    simp only [Clocked.start, Levels.empty] at synced
    omega
  bounded := by
    intro txid positive synced
    simp only [Clocked.start, Levels.empty] at synced
    omega
  plain := by
    intro key file held
    simp [Clocked.start, Levels.empty] at held
  atLeast := by
    intro key file held
    simp [Clocked.start, Levels.empty] at held

theorem ReplicaOk.file {state : Levels} {key : FileKey} {file : LtxFile}
    (ok : ReplicaOk history state) (held : state.store[key]? = some file) :
    FileOk history state.txid key file := by
  obtain ⟨anchor, ok⟩ := ok
  exact ok.files key file held

/-! ## One step -/

/-- What a compaction stamps on its output. -/
theorem compactToWriter_timestamp {inputs : List LtxFile} {output : LtxFile}
    (done : compactToWriter inputs = .ok output) :
    ∃ last, inputs.getLast? = some last ∧
      output.header.timestamp = last.header.timestamp := by
  unfold compactToWriter at done
  split at done
  · rename_i first last _ isLast
    rw [bind_eq_ok] at done
    obtain ⟨_, _, merged⟩ := done
    refine ⟨last, isLast, ?_⟩
    rw [(mergeToWriter_eq_ok merged).1]
    rfl
  · cases done

/-- A compacted window is stamped with the time of the transaction it ends
at. -/
theorem CompactsInto.timestamp {state : Clocked} {dstLevel : Nat}
    {first last : LtxFileInfo} {merged : LtxFile} (timed : Timed history state)
    (compacts : CompactsInto state.levels dstLevel first last merged) :
    merged.header.timestamp = state.committed last.maxTxid := by
  obtain ⟨files, keys, loaded, done⟩ := compacts.inputs
  obtain ⟨newest, isNewest, stamped⟩ := compactToWriter_timestamp done
  rw [List.getLast?_map, Option.map_eq_some_iff] at isNewest
  obtain ⟨keyed, isKeyed, rfl⟩ := isNewest
  have sameKey : keyed.1 = last.toFileKey := by
    have both := congrArg List.getLast? keys
    rw [List.getLast?_map, List.getLast?_map, isKeyed, compacts.last] at both
    exact Option.some.inj both
  have listed : last ∈ state.levels.files.list (dstLevel - 1) :=
    (List.mem_filter.mp (List.mem_of_getLast? compacts.last)).1
  have level := (FileIndex.mem_list.mp listed).2
  have inside := compacts.level
  have held := loaded keyed (List.mem_of_getLast? isKeyed)
  rw [sameKey] at held
  rw [stamped]
  exact timed.plain _ _ held (by omega)

/-- A file is added that is stamped with the time of the transaction it ends
at, or is a snapshot stamped no earlier. -/
theorem Timed.put {state : Clocked} {next : Levels} {now clock : Int}
    {key : FileKey} {file : LtxFile} (timed : Timed history state)
    (ok : ReplicaOk history next)
    (same : Same (state.levels.put clock key file) next)
    (forward : state.now ≤ now)
    (plain : key.level ≠ snapshotLevel →
      file.header.timestamp = state.committed key.maxTxid)
    (atLeast : state.committed key.maxTxid ≤ file.header.timestamp) :
    Timed history { levels := next, now := now, committed := state.committed }
    where
  ok := ok
  rising := by
    intro early late positive ordered synced
    rw [same.txid] at synced
    exact timed.rising early late positive ordered synced
  bounded := by
    intro txid positive synced
    rw [same.txid] at synced
    exact Int.le_trans (timed.bounded txid positive synced)
      (nowMs_mono forward)
  plain := by
    rw [same.store]
    exact OrderedMap.forall_insert _ key file plain timed.plain
  atLeast := by
    rw [same.store]
    exact OrderedMap.forall_insert _ key file atLeast timed.atLeast

/-- Deleting files changes no timestamp. -/
theorem Timed.shrunk {state : Clocked} {next : Levels} {now : Int}
    (timed : Timed history state) (ok : ReplicaOk history next)
    (shrunk : Shrunk state.levels next) (forward : state.now ≤ now) :
    Timed history { levels := next, now := now, committed := state.committed }
    where
  ok := ok
  rising := by
    intro early late positive ordered synced
    rw [shrunk.txid] at synced
    exact timed.rising early late positive ordered synced
  bounded := by
    intro txid positive synced
    rw [shrunk.txid] at synced
    exact Int.le_trans (timed.bounded txid positive synced)
      (nowMs_mono forward)
  plain := fun key file held =>
    timed.plain key file (shrunk.store key file held)
  atLeast := fun key file held =>
    timed.atLeast key file (shrunk.store key file held)

/-- The next transaction is recorded with the timestamp of its file. -/
theorem Timed.next {state : Clocked} {next : Levels} {clock : Int}
    {file : LtxFile} (timed : Timed history state)
    (ok : ReplicaOk history next)
    (synced : SyncedNext state.levels clock file next)
    (forward : state.now ≤ clock)
    (stamped : file.header.timestamp ≤ nowMs clock)
    (ascending : 1 ≤ state.levels.txid →
      state.committed state.levels.txid ≤ file.header.timestamp) :
    Timed history
      { levels := next
        now := clock
        committed := Function.update state.committed next.txid
          file.header.timestamp } := by
  have newest : ∀ txid, txid ≤ state.levels.txid →
      Function.update state.committed next.txid file.header.timestamp txid =
        state.committed txid := by
    intro txid old
    apply Function.update_of_ne
    rw [synced.txid]
    omega
  have before : ∀ txid, 1 ≤ txid → txid ≤ state.levels.txid →
      state.committed txid ≤ file.header.timestamp := by
    intro txid positive old
    exact Int.le_trans
      (timed.rising txid state.levels.txid positive old (Nat.le_refl _))
      (ascending (Nat.le_trans positive old))
  have files : ∀ (key : FileKey) (other : LtxFile),
      next.store[key]? = some other →
      (key.maxTxid = next.txid ∧ other = file) ∨
        (key.maxTxid ≤ state.levels.txid ∧
          state.levels.store[key]? = some other) := by
    intro key other held
    rw [synced.store, OrderedMap.getElem?_insert] at held
    split at held
    · rename_i sameKey
      subst sameKey
      cases held
      exact .inl ⟨synced.txid.symm, rfl⟩
    · exact .inr ⟨(timed.ok.file held).synced, held⟩
  constructor
  case ok => exact ok
  case rising =>
      intro early late positive ordered upper
      dsimp only at upper ⊢
      rw [synced.txid] at upper
      rcases Nat.lt_or_ge state.levels.txid late with last | old
      · have isNext : late = next.txid := by
          rw [synced.txid]
          omega
        rw [isNext, Function.update_self]
        rcases Nat.lt_or_ge state.levels.txid early with both | first
        · have alsoNext : early = next.txid := by omega
          rw [alsoNext, Function.update_self]
        · rw [newest early first]
          exact before early positive first
      · rw [newest late old, newest early (Nat.le_trans ordered old)]
        exact timed.rising early late positive ordered old
  case bounded =>
      intro txid positive upper
      dsimp only at upper ⊢
      rw [synced.txid] at upper
      rcases Nat.lt_or_ge state.levels.txid txid with last | old
      · have isNext : txid = next.txid := by
          rw [synced.txid]
          omega
        rw [isNext, Function.update_self]
        exact stamped
      · rw [newest txid old]
        exact Int.le_trans (timed.bounded txid positive old)
          (nowMs_mono forward)
  case plain =>
      intro key other held level
      dsimp only at held ⊢
      rcases files key other held with ⟨ends, rfl⟩ | ⟨old, earlier⟩
      · rw [ends, Function.update_self]
      · rw [newest _ old]
        exact timed.plain key other earlier level
  case atLeast =>
      intro key other held
      dsimp only at held ⊢
      rcases files key other held with ⟨ends, rfl⟩ | ⟨old, earlier⟩
      · rw [ends, Function.update_self]
      · rw [newest _ old]
        exact timed.atLeast key other earlier

theorem Timed.step {encodedSize : LtxFile → Nat} {state next : Clocked}
    {action : LevelsAction} (timed : Timed history state)
    (allowed : history.Ticks state action)
    (stepped : state.step encodedSize action = some next) :
    Timed history next := by
  obtain ⟨levels, moved, rfl⟩ := Option.map_eq_some_iff.mp stepped
  have ok := timed.ok.cascade allowed.cascades moved
  have reached := levels_step_effect allowed.cascades moved
  obtain ⟨faults, call⟩ := action
  have forward : state.now ≤ call.reading.getD state.now := by
    cases read : call.reading with
    | none => exact Int.le_refl _
    | some clock => exact allowed.forward clock read
  cases reached with
  | @synced clock file _ synced =>
      have moves : levels.txid ≠ state.levels.txid := by
        rw [synced.txid]
        omega
      have recorded := timed.next ok synced forward
        (allowed.stamped clock file rfl) (allowed.ascending clock file rfl)
      rwa [← show state.record levels (.sync clock file) = _ from
        if_neg moves] at recorded
  | @compacted clock dstLevel first last merged _ compacts same =>
      have stamped := compacts.timestamp timed
      exact timed.put ok same forward (fun _ => stamped)
        (Int.le_of_eq stamped.symm)
  | @snapshotted clock merged _ snapshots same =>
      obtain ⟨files, newest, _, _, _, done⟩ := snapshots.inputs
      have header := (mergeToWriter_eq_ok done).1
      have stamped : merged.header.timestamp = nowMs clock := by
        rw [header]
        rfl
      obtain ⟨anchor, levelsOk⟩ := timed.ok
      have head := levelsOk.headTxid_eq levelsOk.mem_allLevels
      apply timed.put ok same forward
      · exact fun impossible => absurd rfl impossible
      · dsimp only
        rw [head, stamped]
        have synced : 1 ≤ state.levels.txid := by
          obtain ⟨key, member⟩ :=
            List.exists_mem_of_ne_nil _ snapshots.nonempty
          obtain ⟨_, _, fileOk⟩ :=
            levelsOk.key_ok ((levelsOk.mem_allLevels key).mp member)
          have := fileOk.positive
          have := fileOk.ordered
          have := fileOk.synced
          omega
        exact Int.le_trans (timed.bounded _ synced (Nat.le_refl _))
          (nowMs_mono (allowed.forward clock rfl))
  | shrunk shrunk =>
      have unchanged : state.record levels call = state.committed := by
        cases call with
        | sync clock file => exact if_pos shrunk.txid
        | _ => rfl
      rw [unchanged]
      exact timed.shrunk ok shrunk forward

theorem Timed.of_reaches {encodedSize : LtxFile → Nat} {now : Int}
    {state : Clocked} (run : Machine.Reaches (Clocked.step encodedSize)
      history.Ticks (Clocked.start now) state) : Timed history state :=
  run.invariant (timed_start history now) fun _ _ _ timed allowed stepped =>
    timed.step allowed stepped

/-! ## Restoring to a timestamp -/

/-- A restore to the timestamp snaps to the newest restorable transaction
committed by then, and fails only when there is none. -/
def Snaps (state : Clocked) (timestamp : Int) : Prop :=
  match restoreToTimestamp state.levels.store timestamp with
  | .ok result =>
      IsGreatest {txid | Restorable state.levels.store txid ∧
        state.committed txid ≤ timestamp} result.txid
  | .error error =>
      (∃ requested, error = .txidTooOld requested) ∧
        ∀ txid, Restorable state.levels.store txid →
          timestamp < state.committed txid

/-- Every snapshot whose transaction was committed by then is outreached by a
file stamped by then; its own stamp may be later. -/
def SnapshotsStamped (state : Clocked) (timestamp : Int) : Prop :=
  ∀ key ∈ state.levels.store, key.level = snapshotLevel →
    state.committed key.maxTxid ≤ timestamp →
      ∃ (other : FileKey) (file : LtxFile),
        state.levels.store[other]? = some file ∧
        key.maxTxid ≤ other.maxTxid ∧ file.header.timestamp ≤ timestamp

/-- A TXID that restores is the end of some file. -/
theorem ReplicaOk.exists_end {state : Levels} {txid : Nat}
    (ok : ReplicaOk history state) (restorable : Restorable state.store txid) :
    ∃ key ∈ state.store, key.maxTxid = txid := by
  obtain ⟨positive, covered⟩ :=
    (History.restorable_iff ok.faithful ok.positive).mp restorable
  obtain ⟨key, member, _, upper⟩ := covered txid positive (Nat.le_refl _)
  obtain ⟨listed, ends⟩ := List.mem_filter.mp member
  simp only [decide_eq_true_eq] at ends
  exact ⟨key, (ok.mem_listAllLtx key).mp listed, by omega⟩

/-- A snapshot makes the TXID it ends at restorable. -/
theorem ReplicaOk.snapshot_restorable {state : Levels} {key : FileKey}
    (ok : ReplicaOk history state) (member : key ∈ state.store)
    (level : key.level = snapshotLevel) :
    Restorable state.store key.maxTxid := by
  obtain ⟨file, held⟩ := (OrderedMap.mem_iff_exists _ _).mp member
  have fileOk := ok.file held
  have begins := fileOk.snapshot level
  rw [History.restorable_iff ok.faithful ok.positive]
  refine ⟨Nat.le_trans fileOk.positive fileOk.ordered, ?_⟩
  intro txid positive until_
  exact ⟨key, List.mem_filter.mpr ⟨(ok.mem_listAllLtx key).mpr member,
    decide_eq_true (Nat.le_refl _)⟩, by omega, until_⟩

theorem Timed.snaps_iff {state : Clocked} (timed : Timed history state)
    (timestamp : Int) :
    Snaps state timestamp ↔ SnapshotsStamped state timestamp := by
  have ok := timed.ok
  obtain ⟨target, restored, attained, bounds⟩ :=
    restoreToTimestamp_eq state.levels.store timestamp
  have reaches : target = 0 ∨ (target ≤ state.levels.txid ∧
      state.committed target ≤ timestamp ∧
      ∃ (other : FileKey) (file : LtxFile),
        state.levels.store[other]? = some file ∧ other.maxTxid = target ∧
          file.header.timestamp ≤ timestamp) := by
    rcases attained with none_ | ⟨other, _, file, held, rfl, early⟩
    · exact .inl none_
    · exact .inr ⟨(ok.file held).synced,
        Int.le_trans (timed.atLeast other file held) early,
        other, file, held, rfl, early⟩
  unfold Snaps
  rw [restored]
  constructor
  · intro snaps key member level committed
    have restorable := ok.snapshot_restorable member level
    by_cases nothing : target = 0
    · rw [if_pos nothing] at snaps
      have := snaps.2 _ restorable
      omega
    · rw [if_neg nothing] at snaps
      obtain ⟨_, _, other, file, held, ends, early⟩ :=
        reaches.resolve_left nothing
      refine ⟨other, file, held, ?_, early⟩
      rcases History.restoreToTxid_cases ok.faithful ok.positive target with
        ⟨result, done, _, within, _, _⟩ | ⟨done, _⟩
      · rw [done] at snaps
        have greatest := snaps.2 ⟨restorable, committed⟩
        omega
      · rw [done] at snaps
        have := snaps.2 _ restorable
        omega
  · intro stamped
    -- No restorable transaction of that time lies beyond the target.
    have within : ∀ txid, Restorable state.levels.store txid →
        state.committed txid ≤ timestamp → txid ≤ target := by
      intro txid restorable committed
      obtain ⟨key, member, rfl⟩ := ok.exists_end restorable
      obtain ⟨file, held⟩ := (OrderedMap.mem_iff_exists _ _).mp member
      have listed := (ok.mem_listAllLtx key).mpr member
      by_cases level : key.level = snapshotLevel
      · obtain ⟨other, otherFile, otherHeld, outreaches, early⟩ :=
          stamped key member level committed
        have otherListed := (ok.mem_listAllLtx other).mpr
          ((OrderedMap.mem_iff_exists _ _).mpr ⟨_, otherHeld⟩)
        exact Nat.le_trans outreaches
          (bounds other otherListed otherFile otherHeld early)
      · apply bounds key listed file held
        rw [timed.plain key file held level]
        exact committed
    by_cases nothing : target = 0
    · rw [if_pos nothing]
      refine ⟨⟨0, rfl⟩, ?_⟩
      intro txid restorable
      by_contra early
      have bounded := within txid restorable (by omega)
      have positive := (History.restorable_iff ok.faithful ok.positive).mp
        restorable
      omega
    · rw [if_neg nothing]
      obtain ⟨synced, committed, _⟩ := reaches.resolve_left nothing
      rcases History.restoreToTxid_cases ok.faithful ok.positive target with
        ⟨result, done, positive, below, covered, greatest⟩ | ⟨done, none_⟩
      · rw [done]
        have restorable : Restorable state.levels.store result.txid :=
          (History.restorable_iff ok.faithful ok.positive).mpr
            ⟨positive, covered⟩
        refine ⟨⟨restorable, ?_⟩, ?_⟩
        · exact Int.le_trans
            (timed.rising result.txid target positive below synced) committed
        · intro txid both
          exact greatest txid (within txid both.1 both.2)
            ((History.restorable_iff ok.faithful ok.positive).mp both.1).2
      · rw [done]
        refine ⟨⟨target, rfl⟩, ?_⟩
        intro txid restorable
        by_contra early
        have reach := (History.restorable_iff ok.faithful ok.positive).mp
          restorable
        have := none_ txid (within txid restorable (by omega)) reach.2
        omega

/-- In every reachable state, a restore to a timestamp snaps to the newest
restorable transaction committed by then, if and only if no snapshot of that
time is hidden behind its own later stamp. -/
theorem timestamp_snaps_iff {encodedSize : LtxFile → Nat} {now : Int}
    {state : Clocked} (run : Machine.Reaches (Clocked.step encodedSize)
      history.Ticks (Clocked.start now) state) (timestamp : Int) :
    Snaps state timestamp ↔ SnapshotsStamped state timestamp :=
  (Timed.of_reaches run).snaps_iff timestamp

/-! ## A snapshot that is stamped too late -/

/-- The state after an action. -/
def Clocked.after (encodedSize : LtxFile → Nat) (state : Clocked)
    (action : LevelsAction) : Clocked where
  levels := state.levels.after encodedSize action
  now := action.call.reading.getD state.now
  committed := state.record (state.levels.after encodedSize action) action.call

theorem Clocked.reaches_after {encodedSize : LtxFile → Nat}
    {start state : Clocked} {action : LevelsAction}
    (run : Machine.Reaches (Clocked.step encodedSize) history.Ticks start state)
    (allowed : history.Ticks state action) :
    Machine.Reaches (Clocked.step encodedSize) history.Ticks start
      (state.after encodedSize action) :=
  .tail run allowed rfl

theorem hotSyncAt_ticks (state : Clocked) {clock : Int}
    (forward : state.now ≤ clock)
    (ascending : 1 ≤ state.levels.txid →
      state.committed state.levels.txid ≤ nowMs clock) :
    hotPage.Ticks state (hotSyncAt clock state.levels) where
  cascades := hotSyncAt_cascades clock state.levels
  forward := by
    rintro _ ⟨rfl⟩
    exact forward
  stamped := by
    rintro _ _ ⟨rfl, rfl⟩
    exact Int.le_refl _
  ascending := by
    rintro _ _ ⟨rfl, rfl⟩
    exact ascending

/-- A call that neither synchronises nor folds everything into one base. -/
theorem quiet_ticks (state : Clocked) {call : LevelsCall}
    (cascades : history.cascades state.levels ⟨[], call⟩)
    (quiet : ∀ clock file, call ≠ .sync clock file)
    (forward : ∀ clock, call.reading = some clock → state.now ≤ clock) :
    history.Ticks state ⟨[], call⟩ where
  cascades := cascades
  forward := forward
  stamped := fun clock file same => absurd same (quiet clock file)
  ascending := fun clock file same => absurd same (quiet clock file)

/-- A transaction at second 1 and its snapshot at second 5. -/
def snapshotted : Clocked :=
  ((Clocked.start 0).after (fun _ => 0)
    (hotSyncAt 1000000000 Levels.empty)).after (fun _ => 0)
      ⟨[], .snapshot 5000000000⟩

theorem snapshotted_reached :
    Machine.Reaches (Clocked.step fun _ => 0) hotPage.Ticks (Clocked.start 0)
      snapshotted := by
  apply Clocked.reaches_after
  · apply Clocked.reaches_after .refl
    apply hotSyncAt_ticks (Clocked.start 0)
    · decide
    · intro impossible
      cases impossible
  · apply quiet_ticks
    · exact trivial
    · exact fun _ _ impossible => by cases impossible
    · rintro _ ⟨rfl⟩
      decide

theorem timestamp_snaps_iff_snapshotted :
    Snaps snapshotted 5000 ↔ SnapshotsStamped snapshotted 5000 :=
  timestamp_snaps_iff snapshotted_reached 5000

/-- A second transaction at second 6, a level compaction, and an L0 retention
that prunes the first L0 file. -/
def lateSnapshot : Clocked :=
  ((snapshotted.after (fun _ => 0)
    (hotSyncAt 6000000000 snapshotted.levels)).after (fun _ => 0)
      ⟨[], .compactLevel 7000000000 1⟩).after (fun _ => 0)
        ⟨[], .enforceL0Retention 8000000000 1⟩

theorem lateSnapshot_reached :
    Machine.Reaches (Clocked.step fun _ => 0) hotPage.Ticks (Clocked.start 0)
      lateSnapshot := by
  apply Clocked.reaches_after
  · apply Clocked.reaches_after
    · apply Clocked.reaches_after snapshotted_reached
      apply hotSyncAt_ticks snapshotted
      · decide
      · intro _
        decide +kernel
    · apply quiet_ticks
      · exact trivial
      · exact fun _ _ impossible => by cases impossible
      · rintro _ ⟨rfl⟩
        decide
  · apply quiet_ticks
    · exact trivial
    · exact fun _ _ impossible => by cases impossible
    · exact fun _ impossible => by cases impossible

/-- TXID 1 was committed at second 1 and restores, but a restore to second 2
finds nothing: its only file is the snapshot of second 5. -/
theorem late_snapshot_hides :
    Machine.Reaches (Clocked.step fun _ => 0) hotPage.Ticks (Clocked.start 0)
      lateSnapshot ∧
    restoreToTimestamp lateSnapshot.levels.store 2000 =
      .error (.txidTooOld 0) ∧
    Restorable lateSnapshot.levels.store 1 ∧
    lateSnapshot.committed 1 = 1000 :=
  ⟨lateSnapshot_reached, by decide +kernel,
    ⟨hotPage.image 1, by decide +kernel⟩, by decide +kernel⟩

end Literstream
