import Literstream.Levels.Merge
import Literstream.Levels.Specs
import Literstream.Restore.Gaps

/-!
# What a snapshot publishes

A snapshot is named after the highest TXID of the index, and holds what the
greedy plan reaches.  The two agree unless the index has a gap behind which the
image is another one.
-/

namespace Literstream

open Fallible Std

namespace History

/-- The file holds exactly the pages of the image at a TXID. -/
structure HoldsImage (history : History) (txid : Nat) (file : LtxFile) :
    Prop where
  pageSize : file.header.pageSize = history.pageSize txid
  commit : file.header.commit = history.size txid
  pages : ∀ pgno data, (pgno, data) ∈ file.pages ↔
    history.Stored txid pgno ∧ data = history.content txid pgno

/-- The images at two TXIDs are the same. -/
structure SameImage (history : History) (left right : Nat) : Prop where
  pageSize : history.pageSize left = history.pageSize right
  size : history.size left = history.size right
  content : ∀ pgno, history.Stored right pgno →
    history.content left pgno = history.content right pgno

/-- The image where the index first has a gap is the one at its highest TXID; so
it is in particular when it has none. -/
def GaplessImage (history : History) (files : List FileKey) : Prop :=
  ∃ reached, FilesCover files 0 reached ∧ reached ≤ headTxid files ∧
    (reached < headTxid files → ¬ FilesCover files 0 (reached + 1)) ∧
    history.SameImage reached (headTxid files)

variable {history : History}

theorem SameImage.stored {left right pgno : Nat}
    (same : history.SameImage left right) :
    history.Stored left pgno ↔ history.Stored right pgno := by
  unfold Stored
  rw [same.size, same.pageSize]

theorem HoldsImage.iff_same {reached txid : Nat} {file : LtxFile}
    (holds : history.HoldsImage reached file) :
    history.HoldsImage txid file ↔ history.SameImage reached txid := by
  constructor
  · intro there
    refine ⟨holds.pageSize.symm.trans there.pageSize,
      holds.commit.symm.trans there.commit, ?_⟩
    intro pgno stored
    have member := (there.pages pgno _).mpr ⟨stored, rfl⟩
    exact ((holds.pages pgno _).mp member).2.symm
  · intro same
    refine ⟨holds.pageSize.trans same.pageSize, holds.commit.trans same.size,
      ?_⟩
    intro pgno data
    rw [holds.pages, same.stored]
    constructor
    · rintro ⟨stored, rfl⟩
      exact ⟨stored, same.content pgno stored⟩
    · rintro ⟨stored, rfl⟩
      exact ⟨stored, (same.content pgno stored).symm⟩

/-- Only one TXID is the first in front of a gap: the one the walk reaches. -/
theorem gaplessImage_iff (files : List FileKey) :
    history.GaplessImage files ↔
      history.SameImage (greedyCover files 0).2 (headTxid files) := by
  have bounded := greedyCover_le_headTxid (Nat.zero_le (headTxid files))
  constructor
  · rintro ⟨reached, covered, inside, gap, same⟩
    have ahead := greedyCover_reaches covered
    rcases Nat.lt_or_ge reached (greedyCover files 0).2 with behind | there
    · have further : FilesCover files 0 (reached + 1) :=
        covers_of_greedyCover behind
      exact absurd further (gap (Nat.lt_of_lt_of_le behind bounded))
    · rw [Nat.le_antisymm ahead there] at same
      exact same
  · intro same
    refine ⟨(greedyCover files 0).2, covers_of_greedyCover (Nat.le_refl _),
      bounded, ?_, same⟩
    intro _ covered
    have ahead := greedyCover_reaches covered
    omega

/-- The merge of a plan from the start holds the image that the plan reaches. -/
theorem mergeToWriter_holds {files : List KeyedFile} {finish : Nat}
    {header : Header} {output : LtxFile}
    (merged : mergeToWriter (files.map Prod.snd) header = .ok output)
    (chain : PlanChain 0 files finish)
    (faithful : history.FaithfulFiles files)
    (pageSize : header.pageSize = history.pageSize finish)
    (commit : header.commit = history.size finish) :
    history.HoldsImage finish output := by
  have members := mem_pages_of_chain merged chain faithful pageSize commit
  have sameHeader := (mergeToWriter_eq_ok merged).1
  refine ⟨by rw [sameHeader, pageSize], by rw [sameHeader, commit], ?_⟩
  intro pgno data
  rw [members]
  constructor
  · rintro ⟨stored, _, same⟩
    exact ⟨stored, same⟩
  · rintro ⟨stored, same⟩
    refine ⟨stored, ?_, same⟩
    cases found : newestPage pgno (files.map Prod.snd) with
    | none =>
        have absent := (newestPage_chain chain faithful stored).2 found
        exact absurd stored.writtenIn absent
    | some raw => exact ⟨raw, rfl⟩

/-- What a call of `snapshot` may do: publish nothing, or a file under the
highest TXID that holds the image there. -/
def SnapshotRight (history : History) (state : Levels) (clock : Int) : Prop :=
  match snapshot clock state with
  | (.ok (some info), final) =>
      info.minTxid = 1 ∧ info.maxTxid = headTxid state.files.allLevels ∧
        ∃ file, final.store = state.store.insert
            ⟨snapshotLevel, 1, headTxid state.files.allLevels⟩ file ∧
          history.HoldsImage (headTxid state.files.allLevels) file
  | (_, final) => final.store = state.store

/-- What was published holds the image that the plan reaches. -/
theorem snapshots_hold {state : Levels} {clock : Int} {merged : LtxFile}
    (snapshots : Snapshots state clock merged)
    (faithful : history.FaithfulStore state.store) :
    history.HoldsImage (greedyCover state.files.allLevels 0).2 merged := by
  obtain ⟨files, newest, planned, loaded, isLast, done⟩ := snapshots.inputs
  have chain := greedyCover_chain state.files.allLevels 0
  rw [← (planRestore_eq_ok planned).1] at chain
  have inputs : history.FaithfulFiles files := fun file member =>
    faithful file.1 file.2 (loaded file member)
  obtain ⟨_, pageSize, commit⟩ := inputs.last chain isLast
  exact mergeToWriter_holds done chain inputs pageSize commit

/-- A snapshot that publishes a file is right exactly when the image in front of
the first gap of the index is the image at its highest TXID; any other outcome
leaves the replica as it is. -/
theorem snapshot_right_iff {state : Levels}
    (faithful : history.FaithfulStore state.store) (clock : Int) :
    (∀ info final, snapshot clock state = (.ok (some info), final) →
      (history.SnapshotRight state clock ↔
        history.GaplessImage state.files.allLevels)) ∧
    ((∀ info final, snapshot clock state ≠ (.ok (some info), final)) →
      history.SnapshotRight state clock) := by
  have outcome := snapshot_outcome state clock state (Same.refl state)
  unfold SnapshotRight
  cases ran : snapshot clock state with
  | mk result final =>
      rw [ran] at outcome
      cases result with
      | error error =>
          refine ⟨?_, fun _ => outcome.store⟩
          rintro _ _ impossible
          cases impossible
      | ok value =>
          rcases outcome with ⟨rfl, same⟩ | ⟨inputs, merged, rfl, published,
            same⟩
          · refine ⟨?_, fun _ => same.store⟩
            rintro _ _ impossible
            cases impossible
          · refine ⟨?_, fun never => absurd rfl (never _ _)⟩
            rintro _ _ _
            have holds := snapshots_hold published faithful
            rw [gaplessImage_iff, ← holds.iff_same]
            constructor
            · rintro ⟨_, _, file, stored, right⟩
              rw [same.store] at stored
              have found := congrArg (fun store : Store => store[(⟨snapshotLevel,
                1, headTxid state.files.allLevels⟩ : FileKey)]?) stored
              simp only [Levels.put, ExtTreeMap.getElem?_insert_self,
                Option.some.injEq] at found
              rw [found]
              exact right
            · intro right
              exact ⟨rfl, rfl, merged, same.store, right⟩

/-- The replica that lost the file of TXID 2, and an index that lists it. -/
def gappedLevels : Levels where
  store := gappedStore
  files := ExtTreeMap.ofList [(⟨0, 1, 1⟩, none), (⟨0, 3, 3⟩, none)] FileKey.cmp
  txid := 3
  faults := []

/-- The image of TXID 1 is published as the one of TXID 3. -/
theorem snapshot_mislabels :
    (turning 3).FaithfulStore gappedLevels.store ∧
      (snapshot 0 gappedLevels).1 = .ok (some (CompactionInfo.mk 1 3 1 0)) ∧
      ¬ (turning 3).SnapshotRight gappedLevels 0 := by
  have published : (snapshot 0 gappedLevels).1 =
      .ok (some (CompactionInfo.mk 1 3 1 0)) := by decide +kernel
  refine ⟨gappedStore_faithful, published, ?_⟩
  have older : (snapshot 0 gappedLevels).2.store[
      (⟨snapshotLevel, 1, 3⟩ : FileKey)]?.bind (fun file => file.page? 1) =
        some ((turning 3).content 1 1) := by decide +kernel
  have changed : (turning 3).content 1 1 ≠ (turning 3).content 3 1 := by
    decide +kernel
  have head : headTxid gappedLevels.files.allLevels = 3 := by decide +kernel
  have stored : (turning 3).Stored 3 1 := by
    refine ⟨Nat.le_refl 1, ?_, ?_⟩
    · change 1 ≤ min 3 1
      omega
    · change 1 ≠ lockPgno 512
      decide
  unfold SnapshotRight
  cases ran : snapshot 0 gappedLevels with
  | mk result final =>
      rw [ran] at published older
      cases published
      rintro ⟨_, _, file, there, right⟩
      rw [head] at there right
      have held := (right.pages 1 _).mpr ⟨stored, rfl⟩
      have found := file.page?_eq_some_iff.mpr held
      rw [there, ExtTreeMap.getElem?_insert_self] at older
      exact changed (Option.some.inj (older.symm.trans found))

theorem snapshot_right_gapped :
    (∀ info final, snapshot 0 gappedLevels = (.ok (some info), final) →
      ((turning 3).SnapshotRight gappedLevels 0 ↔
        (turning 3).GaplessImage gappedLevels.files.allLevels)) ∧
    ((∀ info final, snapshot 0 gappedLevels ≠ (.ok (some info), final)) →
      (turning 3).SnapshotRight gappedLevels 0) :=
  snapshot_right_iff gappedStore_faithful 0

end History

end Literstream
