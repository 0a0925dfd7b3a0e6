import Literstream.Levels.Paced
import Literstream.Levels.Effects

/-!
# Objects are written once

Merges overwrite what they find at their address.  They find nothing: every
level has a frontier, the highest TXID that it ever held, no rule deletes the
file at the frontier, and every upload ends beyond it.
-/

namespace Literstream

open Fallible

/-- The frontier of every level. -/
structure Fronted (state : Levels) (front : Nat → Nat) : Prop where
  indexed : ∀ key, key ∈ state.files ↔ key ∈ state.store
  bound : ∀ key ∈ state.store, key.maxTxid ≤ front key.level
  attained : ∀ level, front level = 0 ∨
    ∃ key ∈ state.store, key.level = level ∧ key.maxTxid = front level
  ascends : ∀ left ∈ state.store, ∀ right ∈ state.store,
    left.level = right.level → left.minTxid < right.minTxid →
      left.maxTxid ≤ right.maxTxid

theorem fronted_empty : Fronted Levels.empty fun _ => 0 where
  indexed := by simp [Levels.empty]
  bound := by simp [Levels.empty]
  attained := fun _ => .inl rfl
  ascends := by simp [Levels.empty]

section Frontiers

variable {state : Levels} {front : Nat → Nat}

theorem Fronted.same {final : Levels} (fronted : Fronted state front)
    (same : Same state final) : Fronted final front := by
  obtain ⟨store, files, txid, faults⟩ := final
  obtain ⟨rfl, rfl, rfl⟩ := same
  exact ⟨fronted.indexed, fronted.bound, fronted.attained, fronted.ascends⟩

theorem Fronted.maxOf_eq (fronted : Fronted state front) (level : Nat) :
    maxOf (state.files.list level) = front level := by
  apply Nat.le_antisymm
  · rcases exists_maxOf (state.files.list level) with zero | ⟨file, member, ends⟩
    · omega
    · have inside := (FileIndex.mem_list.mp member).2
      have bound := fronted.bound file.toFileKey
        ((fronted.indexed _).mp (FileIndex.mem_of_list member))
      rw [inside] at bound
      omega
  · rcases fronted.attained level with zero | ⟨key, member, rfl, ends⟩
    · omega
    · obtain ⟨file, listed, same⟩ :=
        FileIndex.exists_listed ((fronted.indexed key).mpr member)
      have below := le_maxOf listed
      rw [same] at below
      omega

/-- The last file that a level lists is at its frontier. -/
theorem Fronted.last (fronted : Fronted state front) {level : Nat}
    {last : LtxFileInfo}
    (isLast : (state.files.list level).getLast? = some last) :
    last.maxTxid = front level := by
  have member := List.mem_of_getLast? isLast
  have inside := (FileIndex.mem_list.mp member).2
  have held := (fronted.indexed _).mp (FileIndex.mem_of_list member)
  apply Nat.le_antisymm
  · have bound := fronted.bound last.toFileKey held
    rw [inside] at bound
    exact bound
  · rw [← fronted.maxOf_eq]
    rcases exists_maxOf (state.files.list level) with zero | ⟨file, listed, ends⟩
    · omega
    · rw [← ends]
      obtain ⟨initial, split_⟩ := List.getLast?_eq_some_iff.mp isLast
      have ordered := state.files.ordered_list level
      rw [split_] at ordered listed
      rcases List.mem_append.mp listed with earlier | same
      · have less := (List.pairwise_append.mp ordered).2.2 file earlier last
          (by simp)
        have fileMember : file ∈ state.files.list level := by
          rw [split_]
          exact List.mem_append_left _ earlier
        have fileInside := (FileIndex.mem_list.mp fileMember).2
        rcases less with lower | ⟨_, lower⟩
        · exact fronted.ascends file.toFileKey
            ((fronted.indexed _).mp (FileIndex.mem_of_list fileMember))
            last.toFileKey held (fileInside.trans inside.symm) lower
        · exact Nat.le_of_lt lower
      · rw [List.mem_singleton.mp same]

/-! ## Deletions -/

/-- Deleting a file while another one stays at the frontier. -/
theorem Fronted.drop (fronted : Fronted state front) {key pin : FileKey}
    (held : pin ∈ state.store) (inside : pin.level = key.level)
    (ends : pin.maxTxid = front pin.level) (other : pin ≠ key) :
    Fronted (state.drop key) front where
  indexed := by
    intro file
    change file ∈ state.files.erase key ↔ file ∈ state.store.erase key
    rw [OrderedMap.mem_erase, OrderedMap.mem_erase, fronted.indexed]
  bound := by
    intro file member
    exact fronted.bound file ((Levels.mem_drop state key file).mp member).2
  attained := by
    intro level
    rcases fronted.attained level with zero | ⟨file, member, here, top⟩
    · exact .inl zero
    · right
      by_cases same : file = key
      · subst same
        refine ⟨pin, (Levels.mem_drop state file pin).mpr ⟨other, held⟩,
          inside.trans here, ?_⟩
        rw [ends, inside, here]
      · exact ⟨file, (Levels.mem_drop state key file).mpr ⟨same, member⟩, here,
          top⟩
  ascends := by
    intro left leftMember right rightMember
    exact fronted.ascends left ((Levels.mem_drop state key left).mp leftMember).2
      right ((Levels.mem_drop state key right).mp rightMember).2

/-- The frontiers and the addresses that are out of use. -/
structure Pruned (start : Levels) (front : Nat → Nat) (state : Levels) :
    Prop where
  fronted : Fronted state front
  shrunk : Shrunk start state

theorem Pruned.same {start final : Levels} (pruned : Pruned start front state)
    (same : Same state final) : Pruned start front final where
  fronted := pruned.fronted.same same
  shrunk := pruned.shrunk.trans same.shrunk

/-- A deletion loop over files of one level that spares the last one. -/
theorem deleteFiles_pruned {start : Levels} {level : Nat}
    {files : List LtxFileInfo} (pruned : Pruned start front state)
    (deletable : ∀ file ∈ files, file ∈ state.files.list level ∧
      (state.files.list level).getLast? ≠ some file) :
    Holds (Same state) (forEach deleteFile files)
      (fun _ => Pruned start front) (Pruned start front) := by
  cases isLast : (state.files.list level).getLast? with
  | none =>
      rw [List.getLast?_eq_none_iff] at isLast
      have empty : files = [] := by
        apply List.eq_nil_iff_forall_not_mem.mpr
        intro file member
        have listed := (deletable file member).1
        rw [isLast] at listed
        cases listed
      subst empty
      exact holds_pure fun _ same => pruned.same same
  | some last =>
      have member := List.mem_of_getLast? isLast
      have inside := (FileIndex.mem_list.mp member).2
      have held := (pruned.fronted.indexed _).mp (FileIndex.mem_of_list member)
      have ends := pruned.fronted.last isLast
      have loop : Holds
          (fun final => Pruned start front final ∧
            last.toFileKey ∈ final.store ∧ ∀ file ∈ files,
              file.level = level ∧ last.toFileKey ≠ file.toFileKey)
          (forEach deleteFile files)
          (fun _ final => Pruned start front final ∧
            last.toFileKey ∈ final.store ∧ ∀ file ∈ ([] : List LtxFileInfo),
              file.level = level ∧ last.toFileKey ≠ file.toFileKey)
          (Pruned start front) := by
        apply holds_forEach fun (rest : List LtxFileInfo) final =>
          Pruned start front final ∧ last.toFileKey ∈ final.store ∧
            ∀ file ∈ rest, file.level = level ∧
              last.toFileKey ≠ file.toFileKey
        intro file rest
        apply holds_of_start Same.refl
        rintro middle ⟨middlePruned, pinned, each⟩
        apply (deleteFile_spec middle file).weaken
        · exact fun _ same => same
        · intro _ final same
          obtain ⟨here, other⟩ := each file (by simp)
          have dropped : Pruned start front (middle.drop file.toFileKey) := by
            refine ⟨middlePruned.fronted.drop pinned (inside.trans here.symm) ?_
              other, middlePruned.shrunk.trans (shrunk_drop _ _)⟩
            rw [ends, inside]
          refine ⟨dropped.same same, ?_, fun later member =>
            each later (List.mem_cons_of_mem _ member)⟩
          rw [same.store]
          exact (Levels.mem_drop _ _ _).mpr ⟨other, pinned⟩
        · exact fun final same => middlePruned.same same
      apply loop.weaken
      · intro final same
        refine ⟨pruned.same same, ?_, ?_⟩
        · rw [same.store]
          exact held
        · intro file listed
          obtain ⟨listedHere, notLast⟩ := deletable file listed
          refine ⟨(FileIndex.mem_list.mp listedHere).2, ?_⟩
          intro same
          have equal := FileIndex.list_ext member listedHere same
          rw [equal] at isLast
          exact notLast isLast
      · exact fun _ _ reached => reached.1
      · exact fun _ reached => reached

theorem Pruned.refl (fronted : Fronted state front) :
    Pruned state front state :=
  ⟨fronted, (Same.refl state).shrunk⟩

theorem enforceRetentionByTxid_pruned {start : Levels} (level txid : Nat) :
    Holds (Pruned start front) (enforceRetentionByTxid level txid)
      (fun _ => Pruned start front) (Pruned start front) := by
  apply holds_of_start Same.refl
  intro state pruned
  apply (current_spec state).bind
  intro value
  apply holds_of_fact
  intro same
  dsimp only
  rw [same.files]
  have spared := belowTxid_spec txid (state.files.nodup_list level)
  apply (deleteFiles_pruned pruned fun file member =>
    ⟨(spared file member).1, (spared file member).2.1⟩).bind
  exact fun _ => holds_pure fun _ reached => reached

theorem enforceSnapshotRetention_pruned {start : Levels} (now : Int)
    (retention maxLevel : Nat) :
    Holds (Pruned start front) (enforceSnapshotRetention now retention maxLevel)
      (fun _ => Pruned start front) (Pruned start front) := by
  apply holds_of_start Same.refl
  intro state pruned
  apply (current_spec state).bind
  intro value
  apply holds_of_fact
  intro same
  dsimp only
  rw [same.files]
  have spared := (snapshotExpired_spec (cutoffTime now retention)
    (state.files.nodup_list snapshotLevel)).1
  apply (deleteFiles_pruned pruned spared).bind
  intro _
  split
  · have cascaded : Holds (Pruned start front)
        (cascadeRetention maxLevel (snapshotExpired
          (state.files.list snapshotLevel) (cutoffTime now retention)).2)
        (fun _ => Pruned start front) (Pruned start front) := by
      apply holds_forEach fun _ => Pruned start front
      intro level rest
      apply (enforceRetentionByTxid_pruned level _).bind
      exact fun _ => holds_pure fun _ reached => reached
    apply cascaded.bind
    exact fun _ => holds_pure fun _ reached => reached
  · exact holds_pure fun _ reached => reached

theorem enforceL0Retention_pruned {start : Levels} (now : Int)
    (retention : Nat) :
    Holds (Pruned start front) (enforceL0Retention now retention)
      (fun _ => Pruned start front) (Pruned start front) := by
  unfold enforceL0Retention
  split
  · exact holds_pure fun _ reached => reached
  · apply holds_of_start Same.refl
    intro state pruned
    apply (current_spec state).bind
    intro value
    apply holds_of_fact
    intro same
    dsimp only
    rw [same.files]
    have spared := l0Expired_spec (maxOf (state.files.list 1))
      (cutoffTime now retention) (state.files.nodup_list level0)
    apply (deleteFiles_pruned pruned fun file member =>
      ⟨(spared file member).1, (spared file member).2.1⟩).bind
    exact fun _ => holds_pure fun _ reached => reached

/-! ## Uploads -/

/-- The frontiers after a file arrived. -/
def arrived (front : Nat → Nat) (key : FileKey) (level : Nat) : Nat :=
  if level = key.level then key.maxTxid else front level

/-- The replica moves on: what is behind a frontier only ever disappears. -/
structure MovesOn (state : Levels) (front : Nat → Nat) (next : Levels)
    (later : Nat → Nat) : Prop where
  fronted : Fronted next later
  grown : ∀ level, front level ≤ later level
  kept : ∀ key : FileKey, key.maxTxid ≤ front key.level →
    next.store[key]? = state.store[key]? ∨ next.store[key]? = none

theorem Pruned.movesOn {next : Levels} (pruned : Pruned state front next) :
    MovesOn state front next front where
  fronted := pruned.fronted
  grown := fun _ => Nat.le_refl _
  kept := by
    intro key _
    cases held : next.store[key]? with
    | none => exact .inr rfl
    | some file => exact .inl (pruned.shrunk.store key file held).symm

/-- A file that ends beyond the frontier of its level and begins no earlier than
the others there is new. -/
theorem Fronted.put (fronted : Fronted state front) {next : Levels}
    {clock : Int} {key : FileKey} {file : LtxFile}
    (beyond : front key.level < key.maxTxid)
    (latest : ∀ other ∈ state.store, other.level = key.level →
      other.minTxid ≤ key.minTxid)
    (store : next.store = state.store.insert key file)
    (files : next.files = state.files.insert key (some clock)) :
    MovesOn state front next (arrived front key) := by
  have grown (level : Nat) : front level ≤ arrived front key level := by
    unfold arrived
    split
    · rename_i here
      rw [here]
      exact Nat.le_of_lt beyond
    · exact Nat.le_refl _
  have mem_next (other : FileKey) :
      other ∈ next.store ↔ other = key ∨ other ∈ state.store := by
    rw [store]
    exact OrderedMap.mem_insert _ _ _ _
  have put : Fronted next (arrived front key) := by
    constructor
    · intro other
      rw [mem_next, files, ← fronted.indexed]
      exact OrderedMap.mem_insert _ _ _ _
    · intro other member
      rcases (mem_next other).mp member with rfl | held
      · rw [arrived, if_pos rfl]
      · exact Nat.le_trans (fronted.bound other held) (grown _)
    · intro level
      by_cases here : level = key.level
      · refine .inr ⟨key, (mem_next key).mpr (.inl rfl), here.symm, ?_⟩
        rw [arrived, if_pos here]
      · rw [arrived, if_neg here]
        rcases fronted.attained level with zero | ⟨other, held, inside, ends⟩
        · exact .inl zero
        · exact .inr ⟨other, (mem_next other).mpr (.inr held), inside, ends⟩
    · intro left leftMember right rightMember inside lower
      rcases (mem_next left).mp leftMember with rfl | leftHeld
      · rcases (mem_next right).mp rightMember with rfl | rightHeld
        · omega
        · have begins := latest right rightHeld inside.symm
          omega
      · rcases (mem_next right).mp rightMember with rfl | rightHeld
        · have bound := fronted.bound left leftHeld
          rw [inside] at bound
          omega
        · exact fronted.ascends left leftHeld right rightHeld inside lower
  refine ⟨put, grown, ?_⟩
  intro other behind
  left
  rw [store, OrderedMap.getElem?_insert, if_neg]
  rintro rfl
  omega

end Frontiers

/-! ## One call -/

section Calls

variable {history : History} {start : Levels} {front : Nat → Nat}

/-- With a snapshot of the head there is nothing to write. -/
theorem snapshot_of_present (clock : Int)
    (present : ∃ file ∈ start.files.list snapshotLevel, file.minTxid = 1 ∧
      file.maxTxid = headTxid start.files.allLevels) :
    Holds (Same start) (snapshot clock) (fun _ => Same start)
      (Same start) := by
  obtain ⟨file, listed, here⟩ := present
  apply (current_spec start).bind
  intro value
  apply holds_of_fact
  intro same
  simp only [same.files]
  split
  · exact holds_pure fun _ same => same
  · rw [if_pos]
    · exact holds_pure fun _ same => same
    · rw [List.any_eq_true]
      exact ⟨file, listed, decide_eq_true here⟩

/-- No level has passed more than what was synced. -/
theorem Fronted.le_txid (fronted : Fronted start front)
    (ok : ReplicaOk history start) (level : Nat) :
    front level ≤ start.txid := by
  obtain ⟨anchor, ok⟩ := ok
  rcases fronted.attained level with zero | ⟨key, member, _, ends⟩
  · omega
  · obtain ⟨_, _, fileOk⟩ := ok.key_ok member
    rw [← ends]
    exact fileOk.synced

theorem Fronted.snapshot (fronted : Fronted start front)
    (ok : ReplicaOk history start) (clock : Int) :
    Holds (Same start) (snapshot clock)
      (fun _ next => ∃ later, MovesOn start front next later)
      (fun next => ∃ later, MovesOn start front next later) := by
  have unchanged : ∀ next, Same start next →
      ∃ later, MovesOn start front next later := fun next same =>
    ⟨front, ((Pruned.refl fronted).same same).movesOn⟩
  have bounded := fronted.le_txid ok snapshotLevel
  obtain ⟨anchor, ok⟩ := ok
  have head := ok.headTxid_eq ok.mem_allLevels
  by_cases reached : front snapshotLevel = start.txid
  · rcases fronted.attained snapshotLevel with zero | ⟨key, held, inside, ends⟩
    · apply (snapshot_effect start clock).weaken
      · exact fun _ same => same
      · rintro _ next (same | ⟨merged, snapshots, _⟩)
        · exact unchanged next same
        · obtain ⟨key, member⟩ :=
            List.exists_mem_of_ne_nil _ snapshots.nonempty
          obtain ⟨_, _, fileOk⟩ := ok.key_ok ((ok.mem_allLevels key).mp member)
          have positive := fileOk.positive
          have ordered := fileOk.ordered
          have synced := fileOk.synced
          omega
      · exact unchanged
    · obtain ⟨_, _, fileOk⟩ := ok.key_ok held
      obtain ⟨file, listed, same⟩ :=
        FileIndex.exists_listed ((fronted.indexed key).mpr held)
      rw [inside] at listed
      apply (snapshot_of_present clock ⟨file, listed, ?_, ?_⟩).weaken
      · exact fun _ same => same
      · exact fun _ next same => unchanged next same
      · exact unchanged
      · rw [same]
        exact fileOk.snapshot inside
      · rw [same, ends, head]
        exact reached
  · apply (snapshot_effect start clock).weaken
    · exact fun _ same => same
    · rintro _ next (same | ⟨merged, _, published⟩)
      · exact unchanged next same
      · refine ⟨_, fronted.put ?_ ?_ published.store published.files⟩
        · change front snapshotLevel < headTxid start.files.allLevels
          omega
        · intro other held inside
          obtain ⟨_, _, fileOk⟩ := ok.key_ok held
          exact Nat.le_of_eq (fileOk.snapshot inside)
    · exact unchanged

theorem Fronted.compactLevel (fronted : Fronted start front)
    (ok : ReplicaOk history start) (clock : Int) (dstLevel : Nat) :
    Holds (Same start) (compactLevel clock dstLevel)
      (fun _ next => ∃ later, MovesOn start front next later)
      (fun next => ∃ later, MovesOn start front next later) := by
  have unchanged : ∀ next, Same start next →
      ∃ later, MovesOn start front next later := fun next same =>
    ⟨front, ((Pruned.refl fronted).same same).movesOn⟩
  obtain ⟨anchor, ok⟩ := ok
  apply (compactLevel_effect start clock dstLevel).weaken
  · exact fun _ same => same
  · rintro _ next (same | ⟨first, last, merged, compacts, published⟩)
    · exact unchanged next same
    · have firstFresh := List.mem_filter.mp (List.mem_of_head? compacts.first)
      have lastFresh := List.mem_filter.mp (List.mem_of_getLast? compacts.last)
      have firstBeyond := of_decide_eq_true firstFresh.2
      have lastBeyond := of_decide_eq_true lastFresh.2
      rw [fronted.maxOf_eq] at firstBeyond lastBeyond
      obtain ⟨_, _, lastOk⟩ := ok.key_ok
        ((fronted.indexed _).mp (FileIndex.mem_of_list lastFresh.1))
      have ordered := lastOk.ordered
      refine ⟨_, fronted.put ?_ ?_ published.store published.files⟩
      · dsimp only
        omega
      · intro other held inside
        obtain ⟨_, _, otherOk⟩ := ok.key_ok held
        have bound := fronted.bound other held
        have otherOrdered := otherOk.ordered
        rw [inside] at bound
        dsimp only at bound ⊢
        omega
  · exact unchanged

theorem Fronted.syncFile (fronted : Fronted start front)
    (ok : ReplicaOk history start) (encodedSize : LtxFile → Nat) (clock : Int)
    (file : LtxFile) :
    Holds (Same start) (syncFile encodedSize clock file)
      (fun _ next => ∃ later, MovesOn start front next later)
      (fun next => ∃ later, MovesOn start front next later) := by
  have bounded := fronted.le_txid ok level0
  obtain ⟨anchor, ok⟩ := ok
  apply (syncFile_effect start encodedSize clock file).weaken
  · exact fun _ same => same
  · intro _ next synced
    refine ⟨_, fronted.put ?_ ?_ synced.store synced.files⟩
    · dsimp only
      omega
    · intro other held inside
      obtain ⟨_, _, otherOk⟩ := ok.key_ok held
      have otherOrdered := otherOk.ordered
      have otherSynced := otherOk.synced
      dsimp only
      omega
  · exact fun next same => ⟨front, ((Pruned.refl fronted).same same).movesOn⟩

theorem Fronted.restampFile (fronted : Fronted start front) (key : FileKey)
    (createdAt : Option Int) :
    Holds (Same start) (restampFile key createdAt)
      (fun _ next => ∃ later, MovesOn start front next later)
      (fun next => ∃ later, MovesOn start front next later) := by
  apply holds_change
  intro state same
  have fronted := fronted.same same
  have shrunk := same.shrunk
  refine ⟨front, Pruned.movesOn ⟨?_, ?_⟩⟩
  · split
    · rename_i present
      refine ⟨?_, fronted.bound, fronted.attained, fronted.ascends⟩
      intro other
      rw [← fronted.indexed]
      change other ∈ state.files.insert key createdAt ↔ _
      rw [OrderedMap.mem_insert]
      constructor
      · rintro (rfl | member)
        · exact Std.ExtTreeMap.contains_iff_mem.mp present
        · exact member
      · exact .inr
    · exact fronted
  · split
    · exact ⟨shrunk.txid, shrunk.store⟩
    · exact shrunk

/-- One step of the replica, whichever operations fail in it. -/
theorem Fronted.step {encodedSize : LtxFile → Nat} {next : Levels}
    {action : LevelsAction} (fronted : Fronted start front)
    (ok : ReplicaOk history start) (allowed : history.cascades start action)
    (stepped : start.step encodedSize action = some next) :
    ∃ later, MovesOn start front next later := by
  obtain ⟨faults, call⟩ := action
  cases stepped
  have started : Same start { start with faults := faults } := ⟨rfl, rfl, rfl⟩
  have deletes {α : Type} {program : Call α}
      (holds : Holds (Pruned start front) program
        (fun _ => Pruned start front) (Pruned start front)) :
      Holds (Same start) (effect program)
        (fun _ next => ∃ later, MovesOn start front next later)
        (fun next => ∃ later, MovesOn start front next later) := by
    apply effect_ok
    apply holds.weaken
    · exact fun _ same => (Pruned.refl fronted).same same
    · exact fun _ _ pruned => ⟨front, pruned.movesOn⟩
    · exact fun _ pruned => ⟨front, pruned.movesOn⟩
  have reached : Holds (Same start) (call.run encodedSize)
      (fun _ next => ∃ later, MovesOn start front next later)
      (fun next => ∃ later, MovesOn start front next later) := by
    cases call with
    | sync clock file => exact fronted.syncFile ok encodedSize clock file
    | compactLevel clock dstLevel =>
        exact effect_ok (fronted.compactLevel ok clock dstLevel)
    | snapshot clock => exact effect_ok (fronted.snapshot ok clock)
    | enforceSnapshotRetention now retention maxLevel =>
        exact deletes (enforceSnapshotRetention_pruned now retention maxLevel)
    | enforceL0Retention now retention =>
        exact deletes (enforceL0Retention_pruned now retention)
    | compact clock => exact allowed.elim
    | restamp key createdAt => exact fronted.restampFile key createdAt
  obtain ⟨later, moves⟩ := reached.final started
  refine ⟨later, moves.fronted.same ⟨rfl, rfl, rfl⟩, moves.grown, ?_⟩
  exact moves.kept

end Calls

/-! ## Whole runs -/

section Runs

variable {history : History} {encodedSize : LtxFile → Nat}

theorem MovesOn.trans {first second third : Levels}
    {front later last : Nat → Nat}
    (early : MovesOn first front second later)
    (late : MovesOn second later third last) :
    MovesOn first front third last where
  fronted := late.fronted
  grown := fun level => Nat.le_trans (early.grown level) (late.grown level)
  kept := by
    intro key behind
    have passed := Nat.le_trans behind (early.grown key.level)
    rcases late.kept key passed with same | gone
    · rw [same]
      exact early.kept key behind
    · exact .inr gone

/-- A replica in order with its frontiers. -/
theorem exists_fronted {state : Levels}
    (run : Machine.Reaches (Levels.step encodedSize) history.cascades
      Levels.empty state) :
    ReplicaOk history state ∧ ∃ front, Fronted state front := by
  apply run.invariant
  · exact ⟨⟨0, levelsOk_empty history⟩, _, fronted_empty⟩
  · rintro state action next ⟨ok, front, fronted⟩ allowed stepped
    obtain ⟨later, moves⟩ := fronted.step ok allowed stepped
    exact ⟨ok.cascade allowed stepped, later, moves.fronted⟩

theorem Fronted.run {start final : Levels} {front : Nat → Nat}
    (ok : ReplicaOk history start) (fronted : Fronted start front)
    (run : Machine.Reaches (Levels.step encodedSize) history.cascades start
      final) :
    ∃ later, MovesOn start front final later := by
  have moved : ReplicaOk history final ∧
      ∃ later, MovesOn start front final later := by
    apply run.invariant
    · exact ⟨ok, front, (Pruned.refl fronted).movesOn⟩
    · rintro state action next ⟨ok, later, moves⟩ allowed stepped
      obtain ⟨last, further⟩ := moves.fronted.step ok allowed stepped
      exact ⟨ok.cascade allowed stepped, last, moves.trans further⟩
  exact moved.2

/-- An object is written once: whatever synchronisation, compaction, snapshots
and retention do later, and whichever of their operations fail, the object
stays as it is until it is deleted, and its address is never used again. -/
theorem objects_written_once {start middle final : Levels} {key : FileKey}
    {file : LtxFile}
    (run : Machine.Reaches (Levels.step encodedSize) history.cascades
      Levels.empty start)
    (early : Machine.Reaches (Levels.step encodedSize) history.cascades start
      middle)
    (late : Machine.Reaches (Levels.step encodedSize) history.cascades middle
      final)
    (held : start.store[key]? = some file) :
    (middle.store[key]? = some file ∨ middle.store[key]? = none) ∧
    (middle.store[key]? = none → final.store[key]? = none) := by
  obtain ⟨ok, front, fronted⟩ := exists_fronted run
  have behind := fronted.bound key
    ((OrderedMap.mem_iff_exists _ _).mpr ⟨file, held⟩)
  obtain ⟨later, moves⟩ := Fronted.run ok fronted early
  obtain ⟨middleOk, _⟩ := exists_fronted (run.trans early)
  obtain ⟨last, further⟩ := Fronted.run middleOk moves.fronted late
  have kept := moves.kept key behind
  rw [held] at kept
  refine ⟨kept, ?_⟩
  intro gone
  have still := further.kept key
    (Nat.le_trans behind (moves.grown key.level))
  rw [gone] at still
  rcases still with same | absent
  · exact same
  · exact absent

end Runs

/-- Three steps are synchronised. -/
def shippedChoices : List (Levels → LevelsAction) :=
  [hotSync, hotSync, hotSync]

def shippedLevels : Levels := Levels.empty.play (fun _ => 0) shippedChoices

/-- They are merged, the first two are deleted, and a fourth one follows. -/
def mergedChoices : List (Levels → LevelsAction) :=
  [fun _ => { faults := [], call := .compactLevel 0 1 },
    fun _ => { faults := [], call := .enforceL0Retention 10 1 }]

def mergedLevels : Levels := shippedLevels.play (fun _ => 0) mergedChoices

def resumedLevels : Levels := mergedLevels.play (fun _ => 0) [hotSync]

theorem objects_written_once_merged : ∃ file,
    shippedLevels.store[rawKey 1]? = some file ∧
    mergedLevels.store[rawKey 1]? = none ∧
    resumedLevels.store[rawKey 1]? = none := by
  have synced : ∀ choose ∈ shippedChoices, ∀ state,
      hotPage.cascades state (choose state) := by
    intro choose member state
    simp only [shippedChoices, List.mem_cons, List.not_mem_nil,
      or_false] at member
    rcases member with rfl | rfl | rfl <;> exact hotSync_synced state
  have merged : ∀ choose ∈ mergedChoices, ∀ state,
      hotPage.cascades state (choose state) := by
    intro choose member state
    simp only [mergedChoices, List.mem_cons, List.not_mem_nil,
      or_false] at member
    rcases member with rfl | rfl <;> exact trivial
  have resumed : ∀ choose ∈ [hotSync], ∀ state,
      hotPage.cascades state (choose state) := by
    intro choose member state
    obtain rfl := List.mem_singleton.mp member
    exact hotSync_synced state
  have present : (shippedLevels.store[rawKey 1]?).isSome = true := by
    decide +kernel
  have gone : mergedLevels.store[rawKey 1]?.isNone = true := by
    decide +kernel
  obtain ⟨file, held⟩ := Option.isSome_iff_exists.mp present
  rw [Option.isNone_iff_eq_none] at gone
  exact ⟨file, held, gone, (objects_written_once (reaches_play synced)
    (reaches_play merged) (reaches_play resumed) held).2 gone⟩

end Literstream
