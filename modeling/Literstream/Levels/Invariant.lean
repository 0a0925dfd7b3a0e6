import Literstream.Levels.Calls
import Literstream.Levels.Merge
import Literstream.Restore.Apply

/-!
# What all deletion rules preserve

The rules delete by age, by the highest L1 TXID, by the smallest retained
snapshot and by position in a listing.  One invariant covers them all: below the
newest snapshot (the anchor) nothing else is needed; above it every TXID is in
its own L0 file or in an L1 window; and whatever L1 has passed is either below
the anchor or inside a window, so that L0 files up to there can go.
-/

namespace Literstream

open Std

/-- Some L1 window holds the TXID. -/
def Levels.Folded (state : Levels) (txid : Nat) : Prop :=
  ∃ key ∈ state.store, key.level = 1 ∧ key.minTxid ≤ txid ∧
    txid ≤ key.maxTxid

/-- One file of the replica: faithful, inside what was synced, and with a
header that agrees with its address. -/
structure FileOk (history : History) (top : Nat) (key : FileKey)
    (file : LtxFile) : Prop where
  faithful : history.Faithful key.minTxid key.maxTxid file
  positive : 1 ≤ key.minTxid
  ordered : key.minTxid ≤ key.maxTxid
  synced : key.maxTxid ≤ top
  level : key.level ≤ maxLevel
  single : key.level = level0 → key.minTxid = key.maxTxid
  snapshot : key.level = snapshotLevel → key.minTxid = 1
  headerMax : file.header.maxTxid = key.maxTxid
  /-- A base without predecessor keeps the start of its first input. -/
  headerMin : key.level ≠ snapshotLevel → file.header.minTxid = key.minTxid

structure LevelsOk (history : History) (anchor : Nat) (state : Levels) :
    Prop where
  files : ∀ key file, state.store[key]? = some file →
    FileOk history state.txid key file
  indexed : ∀ key, key ∈ state.files ↔ key ∈ state.store
  newest : state.txid = 0 ∨
    (⟨level0, state.txid, state.txid⟩ : FileKey) ∈ state.store
  anchored : anchor = 0 ∨ (⟨snapshotLevel, 1, anchor⟩ : FileKey) ∈ state.store
  anchorTop : ∀ key ∈ state.store, key.level = snapshotLevel →
    key.maxTxid ≤ anchor
  tail : ∀ txid, anchor < txid → txid ≤ state.txid →
    (⟨level0, txid, txid⟩ : FileKey) ∈ state.store ∨ state.Folded txid
  folded : ∀ key ∈ state.store, key.level = 1 →
    ∀ txid, txid ≤ key.maxTxid → txid ≤ anchor ∨ state.Folded txid

/-- The same replica; only the schedule of faults differs. -/
structure Same (start state : Levels) : Prop where
  store : state.store = start.store
  files : state.files = start.files
  txid : state.txid = start.txid

theorem Same.refl (state : Levels) : Same state state := ⟨rfl, rfl, rfl⟩

theorem Same.ok {history : History} {anchor : Nat} {start state : Levels}
    (same : Same start state) (ok : LevelsOk history anchor start) :
    LevelsOk history anchor state := by
  obtain ⟨store, files, txid, faults⟩ := state
  obtain ⟨rfl, rfl, rfl⟩ := same
  exact ⟨ok.files, ok.indexed, ok.newest, ok.anchored, ok.anchorTop, ok.tail,
    ok.folded⟩

namespace LevelsOk

variable {history : History} {anchor : Nat} {state : Levels}

theorem key_ok (ok : LevelsOk history anchor state) {key : FileKey}
    (member : key ∈ state.store) :
    ∃ file, state.store[key]? = some file ∧
      FileOk history state.txid key file := by
  obtain ⟨file, held⟩ := (OrderedMap.mem_iff_exists _ _).mp member
  exact ⟨file, held, ok.files key file held⟩

/-! ## The replica restores -/

/-- Any list of all files covers everything that was synced. -/
theorem covers (ok : LevelsOk history anchor state) {keys : List FileKey}
    (all : ∀ key, key ∈ keys ↔ key ∈ state.store) :
    FilesCover keys 0 state.txid := by
  intro txid after until_
  rcases Nat.lt_or_ge anchor txid with above | below
  · rcases ok.tail txid above until_ with raw | ⟨key, member, _, lower, upper⟩
    · exact ⟨_, (all _).mpr raw, Nat.le_refl _, Nat.le_refl _⟩
    · exact ⟨key, (all key).mpr member, lower, upper⟩
  · rcases ok.anchored with none_ | snapshot
    · omega
    · exact ⟨_, (all _).mpr snapshot, after, below⟩

theorem headTxid_eq (ok : LevelsOk history anchor state) {keys : List FileKey}
    (all : ∀ key, key ∈ keys ↔ key ∈ state.store) :
    headTxid keys = state.txid := by
  apply Nat.le_antisymm
  · apply headTxid_le
    intro key member
    obtain ⟨file, _, fileOk⟩ := ok.key_ok ((all key).mp member)
    exact fileOk.synced
  · rcases ok.newest with empty | newest
    · rw [empty]
      exact Nat.zero_le _
    · exact maxTxid_le_headTxid ((all _).mpr newest)

theorem mem_listAllLtx (ok : LevelsOk history anchor state) (key : FileKey) :
    key ∈ listAllLtx state.store ↔ key ∈ state.store := by
  rw [Literstream.mem_listAllLtx, ← OrderedMap.mem_iff_exists]
  constructor
  · exact fun listed => listed.1
  · intro member
    obtain ⟨file, _, fileOk⟩ := ok.key_ok member
    exact ⟨member, fileOk.level⟩

theorem mem_allLevels (ok : LevelsOk history anchor state) (key : FileKey) :
    key ∈ state.files.allLevels ↔ key ∈ state.store := by
  rw [FileIndex.allLevels, ExtTreeMap.mem_keys]
  exact ok.indexed key

theorem faithful (ok : LevelsOk history anchor state) :
    history.FaithfulStore state.store :=
  fun key file held => (ok.files key file held).faithful

/-- Any list of all files has a restore plan that leads to the last synced
TXID. -/
theorem plan (ok : LevelsOk history anchor state) (synced : 0 < state.txid)
    {keys : List FileKey} (all : ∀ key, key ∈ keys ↔ key ∈ state.store) :
    ∃ plan, planRestore keys = .ok plan ∧ FileChain 0 plan state.txid ∧
      ∀ key ∈ plan, key ∈ state.store := by
  have head := ok.headTxid_eq all
  have positive : ∀ key ∈ keys, 1 ≤ key.minTxid := by
    intro key member
    obtain ⟨file, _, fileOk⟩ := ok.key_ok ((all key).mp member)
    exact fileOk.positive
  have covered := ok.covers all
  rw [← head] at covered
  obtain ⟨plan, planned, chain, listed⟩ :=
    planRestore_of_covers positive (by omega) covered
  rw [head] at chain
  exact ⟨plan, planned, chain, fun key member =>
    (all key).mp (listed key member)⟩

theorem restore (ok : LevelsOk history anchor state)
    (synced : 0 < state.txid)
    (oneSize : ∀ left right, history.pageSize left = history.pageSize right) :
    restore state.store = .ok (history.image state.txid) := by
  obtain ⟨plan, planned, chain, held⟩ := ok.plan synced ok.mem_listAllLtx
  have applied := History.applyPlan_chain ok.faithful chain held
    fun left right _ _ => .inl (oneSize right left)
  rw [history.image_zero] at applied
  unfold Literstream.restore
  rw [planned]
  exact applied

/-! ## Deleting a file -/

end LevelsOk

def Levels.drop (state : Levels) (key : FileKey) : Levels :=
  { state with
    store := state.store.erase key
    files := state.files.erase key }

/-- A file that the invariant does not need. -/
structure Deletable (anchor : Nat) (state : Levels) (key : FileKey) :
    Prop where
  newest : key ≠ ⟨level0, state.txid, state.txid⟩
  raw : key.level = level0 → key.maxTxid ≤ anchor ∨ state.Folded key.maxTxid
  window : key.level = 1 → key.maxTxid ≤ anchor
  snapshot : key.level = snapshotLevel → key.maxTxid < anchor

@[simp] theorem Levels.mem_drop (state : Levels) (key other : FileKey) :
    other ∈ (state.drop key).store ↔ other ≠ key ∧ other ∈ state.store :=
  OrderedMap.mem_erase _ _ _

/-- Windows above the anchor survive a deletion. -/
theorem Levels.Folded.drop {anchor txid : Nat} {state : Levels} {key : FileKey}
    (folded : state.Folded txid) (above : anchor < txid)
    (deletable : Deletable anchor state key) :
    (state.drop key).Folded txid := by
  obtain ⟨window, member, level, lower, upper⟩ := folded
  refine ⟨window, (state.mem_drop key window).mpr ⟨?_, member⟩, level, lower,
    upper⟩
  rintro rfl
  have below := deletable.window level
  omega

theorem LevelsOk.drop {history : History} {anchor : Nat} {state : Levels}
    {key : FileKey} (ok : LevelsOk history anchor state)
    (deletable : Deletable anchor state key) :
    LevelsOk history anchor (state.drop key) where
  files := by
    intro other file held
    change (state.store.erase key)[other]? = some file at held
    rw [OrderedMap.getElem?_erase] at held
    split at held
    · cases held
    · exact ok.files other file held
  indexed := by
    intro other
    change other ∈ state.files.erase key ↔ other ∈ state.store.erase key
    rw [OrderedMap.mem_erase, OrderedMap.mem_erase, ok.indexed]
  newest := by
    rcases ok.newest with empty | newest
    · exact .inl empty
    · exact .inr ((state.mem_drop key _).mpr
        ⟨Ne.symm deletable.newest, newest⟩)
  anchored := by
    rcases ok.anchored with none_ | snapshot
    · exact .inl none_
    · refine .inr ((state.mem_drop key _).mpr ⟨?_, snapshot⟩)
      rintro rfl
      have below := deletable.snapshot rfl
      simp at below
  anchorTop := by
    intro other member level
    exact ok.anchorTop other ((state.mem_drop key other).mp member).2 level
  tail := by
    intro txid above until_
    rcases ok.tail txid above until_ with raw | folded
    · by_cases same : (⟨level0, txid, txid⟩ : FileKey) = key
      · subst same
        rcases deletable.raw rfl with below | folded
        · simp only at below
          omega
        · exact .inr (folded.drop above deletable)
      · exact .inl ((state.mem_drop key _).mpr ⟨same, raw⟩)
    · exact .inr (folded.drop above deletable)
  folded := by
    intro window member level txid below
    rcases Nat.lt_or_ge anchor txid with above | under
    · rcases ok.folded window ((state.mem_drop key window).mp member).2 level
        txid below with under | folded
      · exact .inl under
      · exact .inr (folded.drop above deletable)
    · exact .inl under

/-- What could be deleted before can still be deleted after. -/
theorem Deletable.drop {anchor : Nat} {state : Levels} {key other : FileKey}
    (deletable : Deletable anchor state other)
    (dropped : Deletable anchor state key) :
    Deletable anchor (state.drop key) other where
  newest := deletable.newest
  raw := by
    intro level
    rcases Nat.lt_or_ge anchor other.maxTxid with above | under
    · rcases deletable.raw level with under | folded
      · exact .inl under
      · exact .inr (folded.drop above dropped)
    · exact .inl under
  window := deletable.window
  snapshot := deletable.snapshot

/-! ## Adding a file -/

def Levels.put (state : Levels) (clock : Int) (key : FileKey) (file : LtxFile) :
    Levels :=
  { state with
    store := state.store.insert key file
    files := state.files.insert key (some clock) }

@[simp] theorem Levels.mem_put (state : Levels) (clock : Int)
    (key other : FileKey) (file : LtxFile) :
    other ∈ (state.put clock key file).store ↔
      other = key ∨ other ∈ state.store :=
  OrderedMap.mem_insert _ _ _ _

/-- A file that is put is in the store and in the index. -/
theorem Levels.indexed_put {state : Levels}
    (indexed : ∀ key, key ∈ state.files ↔ key ∈ state.store) (clock : Int)
    (key : FileKey) (file : LtxFile) (other : FileKey) :
    other ∈ (state.put clock key file).files ↔
      other ∈ (state.put clock key file).store := by
  change other ∈ state.files.insert key _ ↔ other ∈ state.store.insert key _
  rw [OrderedMap.mem_insert, OrderedMap.mem_insert, indexed]

theorem Levels.Folded.put {txid : Nat} {state : Levels} {clock : Int}
    {key : FileKey} {file : LtxFile} (folded : state.Folded txid) :
    (state.put clock key file).Folded txid := by
  obtain ⟨window, member, level, lower, upper⟩ := folded
  exact ⟨window, (state.mem_put clock key window file).mpr (.inr member),
    level, lower, upper⟩

/-- A file may be added when the windows stay gapless above the anchor; a
snapshot moves the anchor. -/
theorem LevelsOk.put {history : History} {anchor : Nat} {state : Levels}
    (clock : Int) {key : FileKey} {file : LtxFile}
    (ok : LevelsOk history anchor state)
    (fileOk : FileOk history state.txid key file)
    (gapless : key.level = 1 → ∀ txid, txid < key.minTxid →
      txid ≤ anchor ∨ state.Folded txid) :
    LevelsOk history
      (if key.level = snapshotLevel then max anchor key.maxTxid else anchor)
      (state.put clock key file) where
  files := OrderedMap.forall_insert _ key file fileOk ok.files
  indexed := Levels.indexed_put ok.indexed clock key file
  newest := by
    rcases ok.newest with empty | newest
    · exact .inl empty
    · exact .inr ((state.mem_put clock key _ file).mpr (.inr newest))
  anchored := by
    split
    · rename_i level
      have begins := fileOk.snapshot level
      rcases Nat.le_total key.maxTxid anchor with below | above
      · rw [Nat.max_eq_left below]
        rcases ok.anchored with none_ | snapshot
        · exact .inl none_
        · exact .inr ((state.mem_put clock key _ file).mpr (.inr snapshot))
      · rw [Nat.max_eq_right above]
        refine .inr ((state.mem_put clock key _ file).mpr (.inl ?_))
        rw [← level, ← begins]
    · rcases ok.anchored with none_ | snapshot
      · exact .inl none_
      · exact .inr ((state.mem_put clock key _ file).mpr (.inr snapshot))
  anchorTop := by
    intro other member level
    rcases (state.mem_put clock key other file).mp member with rfl | old
    · rw [if_pos level]
      exact Nat.le_max_right _ _
    · have below := ok.anchorTop other old level
      split
      · exact Nat.le_trans below (Nat.le_max_left _ _)
      · exact below
  tail := by
    intro txid above until_
    have aboveOld : anchor < txid := by
      split at above
      · exact Nat.lt_of_le_of_lt (Nat.le_max_left _ _) above
      · exact above
    rcases ok.tail txid aboveOld until_ with raw | folded
    · exact .inl ((state.mem_put clock key _ file).mpr (.inr raw))
    · exact .inr folded.put
  folded := by
    intro window member level txid below
    have still : txid ≤ anchor ∨ state.Folded txid →
        txid ≤ (if key.level = snapshotLevel then max anchor key.maxTxid
          else anchor) ∨ (state.put clock key file).Folded txid := by
      rintro (under | folded)
      · left
        split
        · exact Nat.le_trans under (Nat.le_max_left _ _)
        · exact under
      · exact .inr folded.put
    rcases (state.mem_put clock key window file).mp member with rfl | old
    · rcases Nat.lt_or_ge txid window.minTxid with before | inside
      · exact still (gapless level txid before)
      · exact .inr ⟨window, member, level, inside, below⟩
    · exact still (ok.folded window old level txid below)

/-- The next synced file extends the L0 tail. -/
theorem LevelsOk.next {history : History} {anchor : Nat} {state : Levels}
    (clock : Int) {file : LtxFile} (ok : LevelsOk history anchor state)
    (fileOk : FileOk history (state.txid + 1)
      ⟨level0, state.txid + 1, state.txid + 1⟩ file) :
    LevelsOk history anchor
      { state.put clock ⟨level0, state.txid + 1, state.txid + 1⟩ file with
        txid := state.txid + 1 } where
  files := by
    apply OrderedMap.forall_insert _ _ file fileOk
    intro other otherFile held
    have old := ok.files other otherFile held
    exact { old with synced := Nat.le_succ_of_le old.synced }
  indexed := Levels.indexed_put ok.indexed _ _ _
  newest := .inr ((state.mem_put clock _ _ file).mpr (.inl rfl))
  anchored := by
    rcases ok.anchored with none_ | snapshot
    · exact .inl none_
    · exact .inr ((state.mem_put clock _ _ file).mpr (.inr snapshot))
  anchorTop := by
    intro other member level
    rcases (state.mem_put clock _ other file).mp member with rfl | old
    · cases level
    · exact ok.anchorTop other old level
  tail := by
    intro txid above until_
    rcases Nat.lt_or_eq_of_le until_ with earlier | same
    · rcases ok.tail txid above (Nat.le_of_lt_succ earlier) with raw | folded
      · exact .inl ((state.mem_put clock _ _ file).mpr (.inr raw))
      · exact .inr (@Levels.Folded.put txid state clock _ file folded)
    · simp only at same
      subst same
      exact .inl ((state.mem_put clock _ _ file).mpr (.inl rfl))
  folded := by
    intro window member level txid below
    rcases (state.mem_put clock _ window file).mp member with rfl | old
    · cases level
    · rcases ok.folded window old level txid below with under | folded
      · exact .inl under
      · exact .inr (@Levels.Folded.put txid state clock _ file folded)

/-- An empty replica. -/
def Levels.empty : Levels where
  store := ∅
  files := ∅
  txid := 0
  faults := []

theorem levelsOk_empty (history : History) :
    LevelsOk history 0 Levels.empty where
  files := by
    intro key file held
    simp [Levels.empty] at held
  indexed := by simp [Levels.empty]
  newest := .inl rfl
  anchored := .inl rfl
  anchorTop := by simp [Levels.empty]
  tail := by
    intro txid above until_
    simp only [Levels.empty] at until_
    omega
  folded := by simp [Levels.empty]

end Literstream
