import Literstream.Levels.Replication

/-!
# What a step can do

A step uploads at most one file, or deletes some.  Which file it uploads is
settled by the call; the invariants about points in time need no more than
that.
-/

namespace Literstream

open Fallible

/-- Files were deleted, and nothing else changed. -/
structure Shrunk (start state : Levels) : Prop where
  txid : state.txid = start.txid
  store : ∀ (key : FileKey) (file : LtxFile), state.store[key]? = some file →
    start.store[key]? = some file

theorem Same.shrunk {start state : Levels} (same : Same start state) :
    Shrunk start state where
  txid := same.txid
  store := by
    intro key file held
    rw [same.store] at held
    exact held

theorem Shrunk.trans {start middle state : Levels}
    (first : Shrunk start middle) (second : Shrunk middle state) :
    Shrunk start state where
  txid := second.txid.trans first.txid
  store := fun key file held => first.store key file (second.store key file held)

theorem shrunk_drop (state : Levels) (key : FileKey) :
    Shrunk state (state.drop key) where
  txid := rfl
  store := by
    intro other file held
    change (state.store.erase key)[other]? = some file at held
    rw [OrderedMap.getElem?_erase] at held
    split at held
    · cases held
    · exact held

/-- Whatever a procedure does, it only deletes files. -/
abbrev Shrinks {α : Type} (start : Levels) (call : Call α) : Prop :=
  Holds (Shrunk start) call (fun _ => Shrunk start) (Shrunk start)

theorem deleteFiles_shrinks (start : Levels) (files : List LtxFileInfo) :
    Shrinks start (forEach deleteFile files) := by
  apply holds_forEach fun _ => Shrunk start
  intro file rest
  apply holds_of_start Same.refl
  intro state shrunk
  apply (deleteFile_spec state file).weaken
  · exact fun _ same => same
  · intro _ final same
    exact shrunk.trans ((shrunk_drop state file.toFileKey).trans same.shrunk)
  · exact fun _ same => shrunk.trans same.shrunk

theorem current_shrinks (start : Levels) :
    Shrinks start (current : Call Levels) :=
  fun _ shrunk => shrunk

theorem enforceRetentionByTxid_shrinks (start : Levels) (level txid : Nat) :
    Shrinks start (enforceRetentionByTxid level txid) := by
  apply (current_shrinks start).bind
  intro value
  apply (deleteFiles_shrinks start _).bind
  exact fun _ => holds_pure fun _ shrunk => shrunk

theorem cascadeRetention_shrinks (start : Levels) (maxLevel txid : Nat) :
    Shrinks start (cascadeRetention maxLevel txid) := by
  apply holds_forEach fun _ => Shrunk start
  intro level rest
  apply (enforceRetentionByTxid_shrinks start level txid).bind
  exact fun _ => holds_pure fun _ shrunk => shrunk

theorem enforceSnapshotRetention_shrinks (start : Levels) (now : Int)
    (retention maxLevel : Nat) :
    Shrinks start (enforceSnapshotRetention now retention maxLevel) := by
  apply (current_shrinks start).bind
  intro value
  apply (deleteFiles_shrinks start _).bind
  intro _
  split
  · apply (cascadeRetention_shrinks start maxLevel _).bind
    exact fun _ => holds_pure fun _ shrunk => shrunk
  · exact holds_pure fun _ shrunk => shrunk

theorem enforceL0Retention_shrinks (start : Levels) (now : Int)
    (retention : Nat) :
    Shrinks start (enforceL0Retention now retention) := by
  unfold enforceL0Retention
  split
  · exact holds_pure fun _ shrunk => shrunk
  · apply (current_shrinks start).bind
    intro value
    apply (deleteFiles_shrinks start _).bind
    exact fun _ => holds_pure fun _ shrunk => shrunk

/-- A file was uploaded as the next L0 file. -/
structure SyncedNext (start : Levels) (clock : Int) (file : LtxFile)
    (state : Levels) : Prop where
  txid : state.txid = start.txid + 1
  store : state.store = start.store.insert
    ⟨level0, start.txid + 1, start.txid + 1⟩ file
  files : state.files = start.files.insert
    ⟨level0, start.txid + 1, start.txid + 1⟩ (some clock)

theorem syncFile_effect (start : Levels) (encodedSize : LtxFile → Nat)
    (clock : Int) (file : LtxFile) :
    Holds (Same start) (syncFile encodedSize clock file)
      (fun _ => SyncedNext start clock file) (Same start) := by
  apply (attempt_spec start).bind
  intro _
  apply (current_spec start).bind
  intro value
  apply holds_of_fact
  intro same
  dsimp only
  rw [same.txid, same.store]
  apply (ofExcept_spec start _).bind
  intro store
  apply holds_of_fact
  intro uploaded
  apply holds_change
  intro state reached
  exact ⟨by dsimp only; rw [reached.txid], uploadLtxFile_eq_ok uploaded,
    by dsimp only; rw [reached.files]⟩

/-- What a step can do to the replica. -/
inductive LevelsEffect (start : Levels) : LevelsCall → Levels → Prop where
  | synced {clock : Int} {file : LtxFile} {state : Levels} :
      SyncedNext start clock file state →
      LevelsEffect start (.sync clock file) state
  | compacted {clock : Int} {dstLevel : Nat} {first last : LtxFileInfo}
      {merged : LtxFile} {state : Levels} :
      CompactsInto start dstLevel first last merged →
      Same (start.put clock ⟨dstLevel, first.minTxid, last.maxTxid⟩ merged)
        state →
      LevelsEffect start (.compactLevel clock dstLevel) state
  | snapshotted {clock : Int} {merged : LtxFile} {state : Levels} :
      Snapshots start clock merged →
      Same (start.put clock
        ⟨snapshotLevel, 1, headTxid start.files.allLevels⟩ merged) state →
      LevelsEffect start (.snapshot clock) state
  | shrunk {call : LevelsCall} {state : Levels} :
      Shrunk start state → LevelsEffect start call state

theorem call_effect {encodedSize : LtxFile → Nat} {start : Levels}
    {call : LevelsCall} (cascades : ∀ clock, call ≠ .compact clock) :
    Holds (Same start) (call.run encodedSize)
      (fun _ => LevelsEffect start call) (LevelsEffect start call) := by
  have kept : ∀ state, Same start state → LevelsEffect start call state :=
    fun _ same => .shrunk same.shrunk
  have shrinks {α : Type} {program : Call α} (holds : Shrinks start program) :
      Holds (Same start) (effect program) (fun _ => LevelsEffect start call)
        (LevelsEffect start call) := by
    apply effect_ok
    apply holds.weaken
    · exact fun _ same => same.shrunk
    · exact fun _ _ shrunk => .shrunk shrunk
    · exact fun _ shrunk => .shrunk shrunk
  cases call with
  | sync clock file =>
      exact (syncFile_effect start encodedSize clock file).weaken
        (fun _ same => same) (fun _ _ next => .synced next) kept
  | compactLevel clock dstLevel =>
      apply effect_ok
      apply (compactLevel_effect start clock dstLevel).weaken
      · exact fun _ same => same
      · rintro _ final (same | ⟨first, last, merged, compacts, same⟩)
        · exact kept final same
        · exact .compacted compacts same
      · exact kept
  | snapshot clock =>
      apply effect_ok
      apply (snapshot_effect start clock).weaken
      · exact fun _ same => same
      · rintro _ final (same | ⟨merged, snapshots, same⟩)
        · exact kept final same
        · exact .snapshotted snapshots same
      · exact kept
  | enforceSnapshotRetention now retention maxLevel =>
      exact shrinks
        (enforceSnapshotRetention_shrinks start now retention maxLevel)
  | enforceL0Retention now retention =>
      exact shrinks (enforceL0Retention_shrinks start now retention)
  | compact clock => exact absurd rfl (cascades clock)
  | restamp key createdAt =>
      apply holds_change
      intro state same
      apply LevelsEffect.shrunk
      split
      · exact ⟨same.txid, same.shrunk.store⟩
      · exact same.shrunk

theorem Same.trans {start middle state : Levels} (first : Same start middle)
    (second : Same middle state) : Same start state :=
  ⟨second.store.trans first.store, second.files.trans first.files,
    second.txid.trans first.txid⟩

theorem LevelsEffect.same {start state final : Levels} {call : LevelsCall}
    (reached : LevelsEffect start call state) (same : Same state final) :
    LevelsEffect start call final := by
  cases reached with
  | synced next =>
      exact .synced ⟨same.txid.trans next.txid, same.store.trans next.store,
        same.files.trans next.files⟩
  | compacted compacts put => exact .compacted compacts (put.trans same)
  | snapshotted snapshots put => exact .snapshotted snapshots (put.trans same)
  | shrunk shrunk => exact .shrunk (shrunk.trans same.shrunk)

theorem levels_step_effect {history : History} {encodedSize : LtxFile → Nat}
    {state next : Levels} {action : LevelsAction}
    (allowed : history.cascades state action)
    (stepped : state.step encodedSize action = some next) :
    LevelsEffect state action.call next := by
  obtain ⟨faults, call⟩ := action
  cases stepped
  have cascades : ∀ clock, call ≠ .compact clock := by
    rintro clock rfl
    exact allowed
  have started : Same state { state with faults := faults } := ⟨rfl, rfl, rfl⟩
  have reached := (@call_effect encodedSize _ _ cascades).final started
  exact reached.same ⟨rfl, rfl, rfl⟩

end Literstream
