import Literstream.Levels.Invariant
import Literstream.Levels.Listing

/-!
# What each call does to the replica

Every call is described by the files it adds and deletes; a failed store
operation ends it with what was done before.
-/

namespace Literstream

open Fallible

theorem attempt_spec (start : Levels) :
    Holds (Same start) attempt (fun _ => Same start) (Same start) := by
  rintro ⟨store, files, txid, faults⟩ ⟨rfl, rfl, rfl⟩
  cases faults with
  | nil => exact ⟨rfl, rfl, rfl⟩
  | cons fault rest => cases fault <;> exact ⟨rfl, rfl, rfl⟩

theorem current_spec (start : Levels) {failed : Levels → Prop} :
    Holds (Same start) (current : Call Levels)
      (fun value final => Same start value ∧ Same start final) failed := by
  apply holds_current.weaken
  · exact fun _ same => same
  · rintro value final ⟨rfl, same⟩
    exact ⟨same, same⟩
  · exact fun _ holds => holds

/-- Lift a result without touching the state. -/
theorem ofExcept_spec {α : Type} (start : Levels) (result : Except SyncError α) :
    Holds (Same start) (ofExcept result)
      (fun value final => result = .ok value ∧ Same start final)
      (Same start) :=
  holds_ofExcept (fun _ _ done same => ⟨done, same⟩) fun _ same => same

theorem fetchLtx_spec (start : Levels) (key : FileKey) :
    Holds (Same start) (fetchLtx key)
      (fun file final => start.store[key]? = some file ∧ Same start final)
      (Same start) := by
  apply (attempt_spec start).bind
  intro _
  apply (current_spec start).bind
  intro value
  apply holds_of_fact
  intro same
  rw [same.store]
  apply (ofExcept_spec start _).weaken
  · exact fun _ same => same
  · exact fun file final reached => ⟨getLtx_eq_ok.mp reached.1, reached.2⟩
  · exact fun _ same => same

theorem deleteFile_spec (start : Levels) (file : LtxFileInfo) :
    Holds (Same start) (deleteFile file)
      (fun _ => Same (start.drop file.toFileKey)) (Same start) := by
  have removed : Holds (Same start) (deleteLtx file.toFileKey)
      (fun _ final =>
        final.store = start.store.erase file.toFileKey ∧
          final.files = start.files ∧ final.txid = start.txid)
      (Same start) := by
    apply (attempt_spec start).bind
    intro _
    apply holds_change
    intro state same
    exact ⟨by rw [same.store], same.files, same.txid⟩
  apply removed.bind
  intro _
  apply holds_change
  rintro state ⟨store, files, txid⟩
  refine ⟨store, ?_, txid⟩
  change state.files.erase _ = start.files.erase _
  rw [files]

theorem uploadMerged_spec (start : Levels) (clock : Int) (key : FileKey)
    (file : LtxFile) :
    Holds (Same start) (uploadMerged clock key file)
      (fun _ => Same (start.put clock key file)) (Same start) := by
  apply (attempt_spec start).bind
  intro _
  have stored : Holds (Same start)
      (change fun state =>
        { state with store := putLtx state.store key file } : Call Unit)
      (fun _ final => final.store = start.store.insert key file ∧
        final.files = start.files ∧ final.txid = start.txid)
      (Same start) := by
    apply holds_change
    intro state same
    exact ⟨by rw [← same.store]; rfl, same.files, same.txid⟩
  apply stored.bind
  intro _
  apply holds_change
  rintro state ⟨store, files, txid⟩
  refine ⟨store, ?_, txid⟩
  change state.files.insert _ _ = start.files.insert _ _
  rw [files]

theorem compactAndUpload_spec (start : Levels) (clock : Int) (key : FileKey)
    (inputs : List LtxFile) :
    Holds (Same start) (compactAndUpload clock key inputs)
      (fun _ final => ∃ merged, compactToWriter inputs = .ok merged ∧
        Same (start.put clock key merged) final) (Same start) := by
  apply (ofExcept_spec start _).bind
  intro merged
  apply holds_of_fact
  intro done
  apply (uploadMerged_spec start clock key merged).weaken
  · exact fun _ same => same
  · exact fun _ final same => ⟨merged, liftLtx_eq_ok.mp done, same⟩
  · exact fun _ same => same

/-- What fetching a list of addresses returns. -/
theorem exists_fetched {α : Type} {store : Store} (key : α → FileKey)
    {items : List α} {inputs : List LtxFile}
    (fetched : List.Forall₂ (fun item file => store[key item]? = some file)
      items inputs) :
    ∃ files : List KeyedFile, files.map Prod.fst = items.map key ∧
      files.map Prod.snd = inputs ∧ Loaded store files := by
  induction fetched with
  | nil => exact ⟨[], rfl, rfl, by simp [Loaded]⟩
  | @cons item file items inputs held _ ih =>
      obtain ⟨files, keys, contents, loaded⟩ := ih
      refine ⟨(key item, file) :: files, by simp [keys], by simp [contents],
        ?_⟩
      intro other member
      rcases List.mem_cons.mp member with rfl | later
      · exact held
      · exact loaded other later

/-- The files of a level that a compaction into the next one still has to
merge. -/
def compactSource (files : FileIndex) (dstLevel : Nat) : List LtxFileInfo :=
  (files.list (dstLevel - 1)).filter fun file =>
    file.minTxid > maxOf (files.list dstLevel)

/-- What a level compaction uploads, from the files it found. -/
structure CompactsInto (start : Levels) (dstLevel : Nat)
    (first last : LtxFileInfo) (merged : LtxFile) : Prop where
  level : 1 ≤ dstLevel ∧ dstLevel < snapshotLevel
  first : (compactSource start.files dstLevel).head? = some first
  last : (compactSource start.files dstLevel).getLast? = some last
  inputs : ∃ files : List KeyedFile,
    files.map Prod.fst =
      (compactSource start.files dstLevel).map LtxFileInfo.toFileKey ∧
    Loaded start.store files ∧
    compactToWriter (files.map Prod.snd) = .ok merged

/-- A level compaction changes nothing, or adds one file. -/
theorem compactLevel_effect (start : Levels) (clock : Int) (dstLevel : Nat) :
    Holds (Same start) (compactLevel clock dstLevel)
      (fun _ final => Same start final ∨
        ∃ first last merged, CompactsInto start dstLevel first last merged ∧
          Same (start.put clock ⟨dstLevel, first.minTxid, last.maxTxid⟩ merged)
            final)
      (Same start) := by
  unfold compactLevel
  split
  · exact holds_ofExcept (fun _ _ impossible _ => by cases impossible)
      fun _ same => same
  · rename_i inside
    apply (current_spec start).bind
    intro value
    apply holds_of_fact
    intro same
    simp only [same.files]
    split
    · rename_i first last isFirst isLast
      have fetches := holds_collect (fun (item : LtxFileInfo) file =>
        start.store[item.toFileKey]? = some file)
        (fun item => fetchLtx_spec start item.toFileKey)
        (compactSource start.files dstLevel)
      apply Holds.bind fetches
      intro inputs
      apply holds_of_fact
      intro fetched
      obtain ⟨files, keys, contents, loaded⟩ := exists_fetched _ fetched
      subst contents
      apply (compactAndUpload_spec start clock
        ⟨dstLevel, first.minTxid, last.maxTxid⟩ (files.map Prod.snd)).bind
      intro _
      apply holds_pure
      rintro final ⟨merged, done, same⟩
      exact .inr ⟨first, last, merged, ⟨by omega, isFirst, isLast, files, keys,
        loaded, done⟩, same⟩
    · exact holds_pure fun _ same => .inl same

/-- What a snapshot uploads. -/
structure Snapshots (start : Levels) (clock : Int) (merged : LtxFile) :
    Prop where
  nonempty : start.files.allLevels ≠ []
  inputs : ∃ (files : List KeyedFile) (newest : KeyedFile),
    planRestore start.files.allLevels = .ok (files.map Prod.fst) ∧
    Loaded start.store files ∧ files.getLast? = some newest ∧
    mergeToWriter (files.map Prod.snd)
      (noChecksumHeader newest.2.header.pageSize newest.2.header.commit 1
        (headTxid start.files.allLevels) (nowMs clock) 0 0 0 0) = .ok merged

/-- A snapshot changes nothing, or adds the file that it reports. -/
theorem snapshot_outcome (start : Levels) (clock : Int) :
    Holds (Same start) (snapshot clock)
      (fun outcome final => (outcome = none ∧ Same start final) ∨
        ∃ inputs merged, outcome = some
          { minTxid := 1
            maxTxid := headTxid start.files.allLevels
            inputs := inputs
            pruned := 0 } ∧
          Snapshots start clock merged ∧
          Same (start.put clock
            ⟨snapshotLevel, 1, headTxid start.files.allLevels⟩ merged) final)
      (Same start) := by
  apply (current_spec start).bind
  intro value
  apply holds_of_fact
  intro same
  simp only [same.files]
  split
  · exact holds_pure fun _ same => .inl ⟨rfl, same⟩
  · rename_i nonempty
    split
    · exact holds_pure fun _ same => .inl ⟨rfl, same⟩
    · apply (ofExcept_spec start _).bind
      intro plan
      apply holds_of_fact
      intro planned
      apply Holds.bind (holds_collect (fun (key : FileKey) file =>
        start.store[key]? = some file) (fetchLtx_spec start) plan)
      intro inputs
      apply holds_of_fact
      intro fetched
      obtain ⟨files, keys, contents, loaded⟩ := exists_fetched id fetched
      rw [List.map_id] at keys
      subst contents
      split
      · exact holds_pure fun _ same => .inl ⟨rfl, same⟩
      · rename_i newest isLast
        rw [List.getLast?_map, Option.map_eq_some_iff] at isLast
        obtain ⟨last, isLast, rfl⟩ := isLast
        apply (ofExcept_spec start _).bind
        intro merged
        apply holds_of_fact
        intro done
        apply (uploadMerged_spec start clock
          ⟨snapshotLevel, 1, headTxid start.files.allLevels⟩ merged).bind
        intro _
        apply holds_pure
        intro final same
        rw [← keys] at planned
        exact .inr ⟨_, merged, rfl, ⟨nonempty, files, last, planned, loaded,
          isLast, liftLtx_eq_ok.mp done⟩, same⟩

/-- A snapshot changes nothing, or adds one file. -/
theorem snapshot_effect (start : Levels) (clock : Int) :
    Holds (Same start) (snapshot clock)
      (fun _ final => Same start final ∨
        ∃ merged, Snapshots start clock merged ∧
          Same (start.put clock
            ⟨snapshotLevel, 1, headTxid start.files.allLevels⟩ merged) final)
      (Same start) := by
  apply (snapshot_outcome start clock).weaken
  · exact fun _ same => same
  · rintro _ final (⟨_, same⟩ | ⟨_, merged, _, published⟩)
    · exact .inl same
    · exact .inr ⟨merged, published⟩
  · exact fun _ same => same

/-- Some anchor makes the invariant hold. -/
def ReplicaOk (history : History) (state : Levels) : Prop :=
  ∃ anchor, LevelsOk history anchor state

section Deletions

variable {history : History} {anchor : Nat}

/-- A loop that deletes files the invariant does not need. -/
theorem deleteFiles_ok {start : Levels} {files : List LtxFileInfo}
    (ok : LevelsOk history anchor start)
    (deletable : ∀ file ∈ files, Deletable anchor start file.toFileKey) :
    Holds (Same start) (forEach deleteFile files)
      (fun _ => LevelsOk history anchor) (LevelsOk history anchor) := by
  have loop : Holds
      (fun state => LevelsOk history anchor state ∧
        ∀ file ∈ files, Deletable anchor state file.toFileKey)
      (forEach deleteFile files)
      (fun _ state => LevelsOk history anchor state ∧
        ∀ file ∈ ([] : List LtxFileInfo),
          Deletable anchor state file.toFileKey)
      (LevelsOk history anchor) := by
    apply holds_forEach fun (rest : List LtxFileInfo) state =>
      LevelsOk history anchor state ∧
        ∀ file ∈ rest, Deletable anchor state file.toFileKey
    intro file rest
    apply holds_of_start Same.refl
    rintro state ⟨stateOk, each⟩
    apply (deleteFile_spec state file).weaken
    · exact fun _ same => same
    · intro _ final same
      have first := each file (by simp)
      refine ⟨same.ok (stateOk.drop first), ?_⟩
      intro other member
      have still := (each other (by simp [member])).drop first
      exact
        { newest := by rw [same.txid]; exact still.newest
          raw := by
            intro level
            rcases still.raw level with below | folded
            · exact .inl below
            · right
              unfold Levels.Folded
              rw [same.store]
              exact folded
          window := still.window
          snapshot := still.snapshot }
    · exact fun final same => same.ok stateOk
  apply loop.weaken
  · intro state same
    refine ⟨same.ok ok, ?_⟩
    intro file member
    have each := deletable file member
    exact
      { newest := by rw [same.txid]; exact each.newest
        raw := by
          intro level
          unfold Levels.Folded
          rw [same.store]
          exact each.raw level
        window := each.window
        snapshot := each.snapshot }
  · exact fun _ state reached => reached.1
  · exact fun _ reached => reached

/-- The newest L0 file is the last one listed. -/
theorem LevelsOk.getLast?_l0 {state : Levels} {file : LtxFileInfo}
    (ok : LevelsOk history anchor state)
    (member : file ∈ state.files.list level0)
    (newest : file.toFileKey = ⟨level0, state.txid, state.txid⟩) :
    (state.files.list level0).getLast? = some file := by
  apply getLast?_of_greatest (state.files.ordered_list level0) member
  intro other otherMember
  obtain ⟨_, _, otherOk⟩ :=
    ok.key_ok ((ok.indexed _).mp (FileIndex.mem_of_list otherMember))
  have single := otherOk.single (FileIndex.mem_list.mp otherMember).2
  have synced := otherOk.synced
  have fileMin : file.minTxid = state.txid := congrArg FileKey.minTxid newest
  have fileMax : file.maxTxid = state.txid := congrArg FileKey.maxTxid newest
  omega

/-- The anchor is the last snapshot listed. -/
theorem LevelsOk.getLast?_snapshot {state : Levels} {file : LtxFileInfo}
    (ok : LevelsOk history anchor state)
    (member : file ∈ state.files.list snapshotLevel)
    (newest : anchor ≤ file.maxTxid) :
    (state.files.list snapshotLevel).getLast? = some file := by
  apply getLast?_of_greatest (state.files.ordered_list snapshotLevel) member
  intro other otherMember
  have held := (ok.indexed _).mp (FileIndex.mem_of_list otherMember)
  have level := (FileIndex.mem_list.mp otherMember).2
  obtain ⟨_, _, otherOk⟩ := ok.key_ok held
  have fileHeld := (ok.indexed _).mp (FileIndex.mem_of_list member)
  obtain ⟨_, _, fileOk⟩ := ok.key_ok fileHeld
  have otherMin := otherOk.snapshot level
  have fileMin := fileOk.snapshot (FileIndex.mem_list.mp member).2
  have below := ok.anchorTop _ held level
  omega

/-- A listed file that is not the newest of its level, and lies below the
anchor, can be deleted. -/
theorem LevelsOk.deletable {state : Levels} {level : Nat} {file : LtxFileInfo}
    (ok : LevelsOk history anchor state)
    (member : file ∈ state.files.list level)
    (notLast : (state.files.list level).getLast? ≠ some file)
    (below : file.maxTxid ≤ anchor) :
    Deletable anchor state file.toFileKey where
  newest := by
    intro newest
    have sameLevel : level = level0 := by
      rw [← (FileIndex.mem_list.mp member).2, newest]
    subst sameLevel
    exact notLast (ok.getLast?_l0 member newest)
  raw := fun _ => .inl below
  window := fun _ => below
  snapshot := by
    intro isSnapshot
    have sameLevel : level = snapshotLevel := by
      rw [← (FileIndex.mem_list.mp member).2, isSnapshot]
    subst sameLevel
    by_contra above
    exact notLast (ok.getLast?_snapshot member (by omega))

theorem enforceRetentionByTxid_ok {start : Levels} (level : Nat) {txid : Nat}
    (ok : LevelsOk history anchor start) (below : txid ≤ anchor) :
    Holds (Same start) (enforceRetentionByTxid level txid)
      (fun _ => LevelsOk history anchor) (LevelsOk history anchor) := by
  apply (current_spec start).bind
  intro value
  apply holds_of_fact
  intro same
  rw [same.files]
  apply (deleteFiles_ok ok _).bind
  · exact fun _ => holds_pure fun _ reached => reached
  · intro file member
    obtain ⟨listed, notLast, less⟩ :=
      belowTxid_spec txid (start.files.nodup_list level) file member
    exact ok.deletable listed notLast (by omega)

theorem cascadeRetention_ok (maxLevel : Nat) {txid : Nat}
    (below : txid ≤ anchor) :
    Holds (LevelsOk history anchor) (cascadeRetention maxLevel txid)
      (fun _ => LevelsOk history anchor) (LevelsOk history anchor) := by
  apply holds_forEach fun _ => LevelsOk history anchor
  intro level rest
  apply holds_of_start Same.refl
  intro state stateOk
  apply (enforceRetentionByTxid_ok level stateOk below).bind
  exact fun _ => holds_pure fun _ reached => reached

theorem enforceSnapshotRetention_ok {start : Levels} (now : Int)
    (retention maxLevel : Nat) (ok : LevelsOk history anchor start) :
    Holds (Same start) (enforceSnapshotRetention now retention maxLevel)
      (fun _ => LevelsOk history anchor) (LevelsOk history anchor) := by
  apply (current_spec start).bind
  intro value
  apply holds_of_fact
  intro same
  simp only [same.files]
  obtain ⟨deletes, retains⟩ := snapshotExpired_spec
    (cutoffTime now retention) (start.files.nodup_list snapshotLevel)
  have listedBelow : ∀ file ∈ start.files.list snapshotLevel,
      file.maxTxid ≤ anchor := by
    intro file member
    exact ok.anchorTop _ ((ok.indexed _).mp (FileIndex.mem_of_list member))
      (FileIndex.mem_list.mp member).2
  have retainedBelow : (snapshotExpired (start.files.list snapshotLevel)
      (cutoffTime now retention)).2 ≤ anchor := by
    rcases retains with zero | ⟨file, member, same⟩
    · omega
    · rw [same]
      exact listedBelow file member
  apply (deleteFiles_ok ok _).bind
  · intro _
    split
    · apply (cascadeRetention_ok maxLevel retainedBelow).bind
      exact fun _ => holds_pure fun _ reached => reached
    · exact holds_pure fun _ reached => reached
  · intro file member
    obtain ⟨listed, notLast⟩ := deletes file member
    exact ok.deletable listed notLast (listedBelow file listed)

theorem enforceL0Retention_ok {start : Levels} (now : Int) (retention : Nat)
    (ok : LevelsOk history anchor start) :
    Holds (Same start) (enforceL0Retention now retention)
      (fun _ => LevelsOk history anchor) (LevelsOk history anchor) := by
  unfold enforceL0Retention
  split
  · exact holds_pure fun _ same => same.ok ok
  · apply (current_spec start).bind
    intro value
    apply holds_of_fact
    intro same
    simp only [same.files]
    apply (deleteFiles_ok ok _).bind
    · exact fun _ => holds_pure fun _ reached => reached
    · intro file member
      obtain ⟨listed, notLast, below⟩ := l0Expired_spec
        (maxOf (start.files.list 1)) (cutoffTime now retention)
        (start.files.nodup_list level0) file member
      have level := (FileIndex.mem_list.mp listed).2
      exact
        { newest := fun newest => notLast (ok.getLast?_l0 listed newest)
          raw := by
            intro _
            rcases exists_maxOf (start.files.list 1) with
              zero | ⟨window, windowListed, ends⟩
            · left
              omega
            · exact ok.folded window.toFileKey
                ((ok.indexed _).mp (FileIndex.mem_of_list windowListed))
                (FileIndex.mem_list.mp windowListed).2 _ (by omega)
          window := by
            intro impossible
            rw [level] at impossible
            cases impossible
          snapshot := by
            intro impossible
            rw [level] at impossible
            cases impossible }

end Deletions

end Literstream
