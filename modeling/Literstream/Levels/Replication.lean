import Literstream.Levels.Specs
import Literstream.Lib.Machine

/-!
# Runs of the level calls

Synchronisation, compaction, snapshots and retention in any order keep the
replica restorable, whatever fails in between.
-/

namespace Literstream

open Fallible

section Merges

variable {history : History} {anchor : Nat}

/-- The inputs of a merge are faithful, and their headers agree with their
addresses where the contiguity check looks. -/
theorem LevelsOk.inputs {state : Levels} {files : List KeyedFile}
    (ok : LevelsOk history anchor state) (loaded : Loaded state.store files)
    (raw : ∀ file ∈ files.tail, file.1.level ≠ snapshotLevel) :
    history.FaithfulFiles files ∧ HeadersAgree files := by
  refine ⟨?_, ?_, ?_⟩
  · intro file member
    exact (ok.files file.1 file.2 (loaded file member)).faithful
  · intro file member
    exact (ok.files file.1 file.2 (loaded file member)).headerMax
  · intro file member
    exact (ok.files file.1 file.2
      (loaded file (List.mem_of_mem_tail member))).headerMin (raw file member)

theorem exists_keyed {src : List LtxFileInfo} {files : List KeyedFile}
    (keys : files.map Prod.fst = src.map LtxFileInfo.toFileKey) :
    ∀ file ∈ files, ∃ info ∈ src, info.toFileKey = file.1 := by
  intro file member
  have inside : file.1 ∈ files.map Prod.fst := List.mem_map_of_mem member
  rw [keys] at inside
  exact List.mem_map.mp inside

/-- A merge of stored files, of which only the first may be a base, holds what
was written from the start of the first file to the end of the last one. -/
theorem LevelsOk.merged {state : Levels} {src : List LtxFileInfo}
    {first last : LtxFileInfo} {files : List KeyedFile} {merged : LtxFile}
    (ok : LevelsOk history anchor state)
    (lower : ∀ file ∈ src, first.minTxid ≤ file.minTxid)
    (raw : ∀ file ∈ src.tail, file.level ≠ snapshotLevel)
    (isFirst : src.head? = some first) (isLast : src.getLast? = some last)
    (keys : files.map Prod.fst = src.map LtxFileInfo.toFileKey)
    (loaded : Loaded state.store files)
    (done : compactToWriter (files.map Prod.snd) = .ok merged) :
    history.Faithful first.minTxid last.maxTxid merged ∧
      merged.header.maxTxid = last.maxTxid ∧
      (first.level ≠ snapshotLevel →
        merged.header.minTxid = first.minTxid) := by
  obtain ⟨faithful, agree⟩ := ok.inputs loaded fun file member => by
    have tails := congrArg List.tail keys
    rw [← List.map_tail, ← List.map_tail] at tails
    obtain ⟨info, infoMember, same⟩ := exists_keyed tails file member
    rw [← same]
    exact raw info infoMember
  obtain ⟨firstFile, rest, split_⟩ : ∃ firstFile rest,
      files = firstFile :: rest := by
    cases files with
    | nil =>
        cases src with
        | nil => cases isFirst
        | cons => simp at keys
    | cons firstFile rest => exact ⟨firstFile, rest, rfl⟩
  have firstKey : firstFile.1 = first.toFileKey := by
    have heads := congrArg List.head? keys
    rw [split_, List.head?_map, List.head?_map, isFirst] at heads
    simpa using heads
  have firstOk := ok.files _ _ (loaded firstFile (by simp [split_]))
  have lowerFiles : ∀ file ∈ files, firstFile.1.minTxid ≤ file.1.minTxid := by
    intro file member
    obtain ⟨info, infoMember, same⟩ := exists_keyed keys file member
    rw [← same, firstKey]
    exact lower info infoMember
  obtain ⟨finish, chain, range, headerMin, headerMax⟩ :=
    History.compactToWriter_faithful split_ done faithful agree
      firstOk.positive firstOk.ordered lowerFiles
  obtain ⟨newest, newestLast⟩ : ∃ newest, files.getLast? = some newest :=
    ⟨_, List.getLast?_eq_some_getLast (by simp [split_])⟩
  have newestKey : newest.1 = last.toFileKey := by
    have lasts := congrArg List.getLast? keys
    rw [List.getLast?_map, List.getLast?_map, isLast, newestLast] at lasts
    simpa using lasts
  have ends := (faithful.last chain newestLast).1
  rw [newestKey] at ends
  rw [firstKey] at range
  rw [← ends] at range headerMax
  refine ⟨range, headerMax, ?_⟩
  intro notSnapshot
  rw [headerMin]
  have agreeMin := firstOk.headerMin (by rw [firstKey]; exact notSnapshot)
  rw [firstKey] at agreeMin
  exact agreeMin

/-- The window that a level compaction publishes. -/
theorem LevelsOk.window {state : Levels} {level : Nat}
    {src : List LtxFileInfo} {first last : LtxFileInfo}
    {files : List KeyedFile} {merged : LtxFile}
    (ok : LevelsOk history anchor state) (cascade : level + 1 < snapshotLevel)
    (listed : ∀ file ∈ src, file ∈ state.files.list level)
    (lower : ∀ file ∈ src, first.minTxid ≤ file.minTxid)
    (isFirst : src.head? = some first) (isLast : src.getLast? = some last)
    (keys : files.map Prod.fst = src.map LtxFileInfo.toFileKey)
    (loaded : Loaded state.store files)
    (done : compactToWriter (files.map Prod.snd) = .ok merged) :
    FileOk history state.txid ⟨level + 1, first.minTxid, last.maxTxid⟩
      merged := by
  have notSnapshot : ∀ file ∈ src, file.level ≠ snapshotLevel := by
    intro file member
    have sameLevel := (FileIndex.mem_list.mp (listed file member)).2
    omega
  have listedOk : ∀ file ∈ src, ∃ stored,
      FileOk history state.txid file.toFileKey stored := by
    intro file member
    obtain ⟨stored, _, fileOk⟩ := ok.key_ok
      ((ok.indexed _).mp (FileIndex.mem_of_list (listed file member)))
    exact ⟨stored, fileOk⟩
  have firstMember := List.mem_of_head? isFirst
  have lastMember := List.mem_of_getLast? isLast
  obtain ⟨_, firstOk⟩ := listedOk first firstMember
  obtain ⟨_, lastOk⟩ := listedOk last lastMember
  obtain ⟨faithful, headerMax, headerMin⟩ := ok.merged lower
    (fun file member => notSnapshot file (List.mem_of_mem_tail member))
    isFirst isLast keys loaded done
  exact
    { faithful := faithful
      positive := firstOk.positive
      ordered := Nat.le_trans (lower last lastMember) lastOk.ordered
      synced := lastOk.synced
      level := by
        simp only [maxLevel, snapshotLevel] at cascade ⊢
        omega
      single := fun impossible => by cases impossible
      snapshot := by
        intro impossible
        simp only at impossible
        omega
      headerMax := headerMax
      headerMin := fun _ => headerMin (notSnapshot first firstMember) }

/-- Below the first L0 file that L1 does not hold yet, nothing is missing. -/
theorem LevelsOk.gapless {state : Levels} {first : LtxFileInfo}
    (ok : LevelsOk history anchor state)
    (listed : first ∈ state.files.list level0)
    (lower : ∀ file ∈ state.files.list level0,
      maxOf (state.files.list 1) < file.minTxid →
      first.minTxid ≤ file.minTxid) :
    ∀ txid, txid < first.minTxid → txid ≤ anchor ∨ state.Folded txid := by
  intro txid before
  obtain ⟨_, _, firstOk⟩ :=
    ok.key_ok ((ok.indexed _).mp (FileIndex.mem_of_list listed))
  have synced := firstOk.synced
  have ordered := firstOk.ordered
  rcases Nat.lt_or_ge anchor txid with above | below
  · rcases Nat.lt_or_ge (maxOf (state.files.list 1)) txid with beyond | inside
    · rcases ok.tail txid above (by omega) with raw | folded
      · obtain ⟨file, member, same⟩ :=
          FileIndex.exists_listed ((ok.indexed _).mpr raw)
        have fileMin : file.minTxid = txid := by rw [same]
        have bound := lower file member (by omega)
        omega
      · exact .inr folded
    · rcases exists_maxOf (state.files.list 1) with
        zero | ⟨window, member, ends⟩
      · omega
      · exact ok.folded window.toFileKey
          ((ok.indexed _).mp (FileIndex.mem_of_list member))
          (FileIndex.mem_list.mp member).2 txid (by omega)
  · exact .inl below

theorem compactLevel_ok {start : Levels} (clock : Int) (dstLevel : Nat)
    (ok : LevelsOk history anchor start) :
    Holds (Same start) (compactLevel clock dstLevel)
      (fun _ => LevelsOk history anchor) (LevelsOk history anchor) := by
  apply (compactLevel_effect start clock dstLevel).weaken
  · exact fun _ same => same
  · rintro _ final (same | ⟨first, last, merged, compacts, same⟩)
    · exact same.ok ok
    · obtain ⟨⟨positive, cascade⟩, isFirst, isLast, files, keys, loaded,
        done⟩ := compacts
      obtain ⟨level, rfl⟩ : ∃ level, dstLevel = level + 1 :=
        Nat.exists_eq_succ_of_ne_zero (by omega)
      rw [compactSource, Nat.add_sub_cancel] at isFirst isLast keys
      have lower := head?_min_le
        ((start.files.ordered_list level).filter fun file =>
          decide (file.minTxid > maxOf (start.files.list (level + 1)))) isFirst
      apply same.ok
      have fileOk := ok.window cascade
        (fun file member => (List.mem_filter.mp member).1) lower isFirst isLast
        keys loaded done
      have placed := ok.put clock fileOk (by
        intro isWindow
        have zero : level = level0 := by simpa [level0] using isWindow
        subst zero
        apply ok.gapless
          (List.mem_filter.mp (List.mem_of_head? isFirst)).1
        intro file member beyond
        exact lower file (List.mem_filter.mpr ⟨member, decide_eq_true beyond⟩))
      rw [if_neg (by simp only; omega)] at placed
      exact placed
  · exact fun _ same => same.ok ok

theorem snapshot_ok {start : Levels} (clock : Int)
    (ok : LevelsOk history anchor start) :
    Holds (Same start) (snapshot clock) (fun _ => ReplicaOk history)
      (ReplicaOk history) := by
  apply (snapshot_effect start clock).weaken
  · exact fun _ same => same
  · rintro _ final (same | ⟨merged, ⟨nonempty, files, last, planned, loaded,
      isLast, mergedOk⟩, same⟩)
    · exact ⟨anchor, same.ok ok⟩
    · have synced : 0 < start.txid := by
        obtain ⟨key, member⟩ := List.exists_mem_of_ne_nil _ nonempty
        obtain ⟨_, _, fileOk⟩ := ok.key_ok ((ok.mem_allLevels key).mp member)
        have := fileOk.positive
        have := fileOk.ordered
        have := fileOk.synced
        omega
      have head := ok.headTxid_eq ok.mem_allLevels
      rw [head] at mergedOk same
      obtain ⟨plan, samePlan, chain, _⟩ := ok.plan synced ok.mem_allLevels
      rw [planned] at samePlan
      cases samePlan
      have faithful : history.FaithfulFiles files := fun file member =>
        (ok.files file.1 file.2 (loaded file member)).faithful
      obtain ⟨_, lastSize, lastCommit⟩ := faithful.last chain isLast
      have lower : ∀ file ∈ files, 1 ≤ file.1.minTxid :=
        fun file member =>
          (ok.files file.1 file.2 (loaded file member)).positive
      have inputs : files ≠ [] := by
        rintro rfl
        cases isLast
      have range := History.mergeToWriter_faithful mergedOk chain faithful
        lower (History.chain_attains chain (Nat.le_refl 1) inputs lower)
        lastSize lastCommit
      have header := (mergeToWriter_eq_ok mergedOk).1
      have fileOk : FileOk history start.txid
          ⟨snapshotLevel, 1, start.txid⟩ merged :=
        { faithful := range
          positive := Nat.le_refl 1
          ordered := synced
          synced := Nat.le_refl _
          level := Nat.le_refl _
          single := fun impossible => by cases impossible
          snapshot := fun _ => rfl
          headerMax := by rw [header]; rfl
          headerMin := fun impossible => absurd rfl impossible }
      exact ⟨_, same.ok (ok.put clock fileOk fun impossible => by
        cases impossible)⟩
  · exact fun _ same => ⟨anchor, same.ok ok⟩

theorem syncFile_ok {start : Levels} (encodedSize : LtxFile → Nat)
    (clock : Int) {file : LtxFile} (ok : LevelsOk history anchor start)
    (fileOk : FileOk history (start.txid + 1)
      ⟨level0, start.txid + 1, start.txid + 1⟩ file) :
    Holds (Same start) (syncFile encodedSize clock file)
      (fun _ => LevelsOk history anchor) (LevelsOk history anchor) := by
  have fresh : start.store[(⟨level0, start.txid + 1, start.txid + 1⟩ :
      FileKey)]? = none := by
    cases held : start.store[(⟨level0, start.txid + 1, start.txid + 1⟩ :
        FileKey)]? with
    | none => rfl
    | some other =>
        have synced := (ok.files _ other held).synced
        simp only at synced
        omega
  apply ((attempt_spec start).weaken (fun _ same => same)
    (fun _ _ same => same) fun _ same => same.ok ok).bind
  intro _
  apply (current_spec start).bind
  intro value
  apply holds_of_fact
  intro same
  dsimp only
  rw [same.txid, same.store, uploadLtxFile_of_fresh fresh]
  apply ((ofExcept_spec start _).weaken (fun _ same => same)
    (fun _ _ same => same) fun _ same => same.ok ok).bind
  intro store
  apply holds_of_fact
  intro uploaded
  cases uploaded
  apply holds_change
  rintro ⟨store, files, txid, faults⟩ ⟨rfl, rfl, rfl⟩
  have extended := ok.next clock fileOk
  exact ⟨extended.files, extended.indexed, extended.newest, extended.anchored,
    extended.anchorTop, extended.tail, extended.folded⟩

end Merges

/-! ## Runs -/

inductive LevelsCall where
  | sync (clock : Int) (file : LtxFile)
  | compactLevel (clock : Int) (dstLevel : Nat)
  | snapshot (clock : Int)
  | enforceSnapshotRetention (now : Int) (retention maxLevel : Nat)
  | enforceL0Retention (now : Int) (retention : Nat)
  | compact (clock : Int)
  /-- The store reports another creation time for a file. -/
  | restamp (key : FileKey) (createdAt : Option Int)

/-- Run a call for its effect. -/
def effect {α : Type} (call : Call α) : Call Unit := do
  let _ ← call
  return ()

def restampFile (key : FileKey) (createdAt : Option Int) : Call Unit :=
  change fun state =>
    if state.files.contains key then
      { state with files := state.files.insert key createdAt }
    else state

def LevelsCall.run (encodedSize : LtxFile → Nat) : LevelsCall → Call Unit
  | .sync clock file => syncFile encodedSize clock file
  | .compactLevel clock dstLevel =>
      effect (Literstream.compactLevel clock dstLevel)
  | .snapshot clock => effect (Literstream.snapshot clock)
  | .enforceSnapshotRetention now retention maxLevel =>
      effect (Literstream.enforceSnapshotRetention now retention maxLevel)
  | .enforceL0Retention now retention =>
      effect (Literstream.enforceL0Retention now retention)
  | .compact clock => effect (Literstream.compact clock)
  | .restamp key createdAt => restampFile key createdAt

/-- A call together with the store operations that fail during it. -/
structure LevelsAction where
  faults : List Bool
  call : LevelsCall

def Levels.step (encodedSize : LtxFile → Nat) (state : Levels)
    (action : LevelsAction) : Option Levels :=
  some
    { (action.call.run encodedSize { state with faults := action.faults }).2 with
      faults := [] }

/-- A synced file holds every page written in its step. -/
structure History.SyncedFile (history : History) (txid : Nat) (file : LtxFile) :
    Prop where
  faithful : history.Faithful txid txid file
  minTxid : file.header.minTxid = txid
  maxTxid : file.header.maxTxid = txid

/-- Synced files follow the history, and the single-base compaction is not
used. -/
def History.cascades (history : History) (state : Levels)
    (action : LevelsAction) : Prop :=
  match action.call with
  | .sync _ file => history.SyncedFile (state.txid + 1) file
  | .compact _ => False
  | _ => True

section Runs

variable {history : History}

theorem History.SyncedFile.fileOk {txid : Nat} {file : LtxFile}
    (synced : history.SyncedFile (txid + 1) file) :
    FileOk history (txid + 1) ⟨level0, txid + 1, txid + 1⟩ file where
  faithful := synced.faithful
  positive := Nat.le_add_left 1 _
  ordered := Nat.le_refl _
  synced := Nat.le_refl _
  level := Nat.zero_le _
  single := fun _ => rfl
  snapshot := fun impossible => by cases impossible
  headerMax := synced.maxTxid
  headerMin := fun _ => synced.minTxid

theorem effect_ok {α : Type} {call : Call α} {pre always : Levels → Prop}
    (holds : Holds pre call (fun _ => always) always) :
    Holds pre (effect call) (fun _ => always) always := by
  apply holds.bind
  exact fun _ => holds_pure fun _ reached => reached

theorem restampFile_ok {start : Levels} {anchor : Nat} (key : FileKey)
    (createdAt : Option Int) (ok : LevelsOk history anchor start) :
    Holds (Same start) (restampFile key createdAt)
      (fun _ => LevelsOk history anchor) (LevelsOk history anchor) := by
  apply holds_change
  intro state same
  have stateOk := same.ok ok
  split
  · rename_i present
    refine { stateOk with indexed := ?_ }
    intro other
    change other ∈ state.files.insert key createdAt ↔ other ∈ state.store
    rw [OrderedMap.mem_insert, ← stateOk.indexed]
    constructor
    · rintro (rfl | member)
      · exact Std.ExtTreeMap.contains_iff_mem.mp present
      · exact member
    · exact .inr
  · exact stateOk

/-- Every call that does not build a single base keeps the replica in order,
whichever store operations fail. -/
theorem ReplicaOk.cascade {encodedSize : LtxFile → Nat}
    {state next : Levels} {action : LevelsAction}
    (ok : ReplicaOk history state) (allowed : history.cascades state action)
    (stepped : state.step encodedSize action = some next) :
    ReplicaOk history next := by
  obtain ⟨anchor, ok⟩ := ok
  obtain ⟨faults, call⟩ := action
  cases stepped
  have started : Same state { state with faults := faults } := ⟨rfl, rfl, rfl⟩
  have finished : ∀ {program : Call Unit},
      Holds (Same state) program (fun _ => ReplicaOk history)
        (ReplicaOk history) →
      ReplicaOk history
        { (program { state with faults := faults }).2 with faults := [] } := by
    intro program holds
    obtain ⟨final, finalOk⟩ := holds.final started
    have same : Same (program { state with faults := faults }).2
        { (program { state with faults := faults }).2 with faults := [] } :=
      ⟨rfl, rfl, rfl⟩
    exact ⟨final, same.ok finalOk⟩
  have found : ∀ final, LevelsOk history anchor final →
      ReplicaOk history final := fun _ finalOk => ⟨anchor, finalOk⟩
  apply finished
  cases call with
  | sync clock file =>
      exact (syncFile_ok encodedSize clock ok allowed.fileOk).weaken
        (fun _ same => same) (fun _ => found) found
  | compactLevel clock dstLevel =>
      exact (effect_ok (compactLevel_ok clock dstLevel ok)).weaken
        (fun _ same => same) (fun _ => found) found
  | snapshot clock => exact effect_ok (snapshot_ok clock ok)
  | enforceSnapshotRetention now retention maxLevel =>
      exact (effect_ok
        (enforceSnapshotRetention_ok now retention maxLevel ok)).weaken
        (fun _ same => same) (fun _ => found) found
  | enforceL0Retention now retention =>
      exact (effect_ok (enforceL0Retention_ok now retention ok)).weaken
        (fun _ same => same) (fun _ => found) found
  | compact clock => exact allowed.elim
  | restamp key createdAt =>
      exact (restampFile_ok key createdAt ok).weaken
        (fun _ same => same) (fun _ => found) found

/-- What a replica in order restores: the last synced image, and at every
target either nothing or an exact earlier image. -/
theorem ReplicaOk.restores {state : Levels} (ok : ReplicaOk history state)
    (synced : 0 < state.txid)
    (oneSize : ∀ left right,
      history.pageSize left = history.pageSize right) :
    (∃ plan, FileChain 0 plan state.txid ∧
      ∀ key ∈ plan, key ∈ listAllLtx state.store) ∧
    restore state.store = .ok (history.image state.txid) ∧
    ∀ target result, restoreToTxid state.store target = .ok result →
      result.txid ≤ target ∧ result.image = history.image result.txid := by
  obtain ⟨anchor, ok⟩ := ok
  refine ⟨?_, ok.restore synced oneSize, ?_⟩
  · obtain ⟨plan, _, chain, held⟩ := ok.plan synced ok.mem_listAllLtx
    exact ⟨plan, chain, fun key member =>
      (ok.mem_listAllLtx key).mpr (held key member)⟩
  · intro target result done
    obtain ⟨plan, last, planned, isLast, reached, _, image⟩ :=
      History.restoreToTxid_eq_ok ok.faithful done
    have exact_ := image fun left right _ _ => .inl (oneSize right left)
    obtain ⟨cover, _⟩ := planRestore_eq_ok planned
    have member := List.mem_of_getLast? isLast
    rw [cover] at member
    have bounded := (List.mem_filter.mp
      (greedyCover_subset _ 0 last member)).2
    simp only [decide_eq_true_eq] at bounded
    rw [reached]
    exact ⟨bounded, exact_⟩

/-- In every state reached by synchronisation, level compaction, snapshots and
retention, the replica restores the last synced image and every point in time
exactly. -/
theorem levels_restore {encodedSize : LtxFile → Nat} {state : Levels}
    (oneSize : ∀ left right, history.pageSize left = history.pageSize right)
    (run : Machine.Reaches (Levels.step encodedSize) history.cascades
      Levels.empty state) (synced : 0 < state.txid) :
    (∃ plan, FileChain 0 plan state.txid ∧
      ∀ key ∈ plan, key ∈ listAllLtx state.store) ∧
    restore state.store = .ok (history.image state.txid) ∧
    ∀ target result, restoreToTxid state.store target = .ok result →
      result.txid ≤ target ∧ result.image = history.image result.txid := by
  have ok : ReplicaOk history state :=
    run.invariant ⟨0, levelsOk_empty history⟩ fun _ _ _ ok allowed stepped =>
      ok.cascade allowed stepped
  exact ok.restores synced oneSize

end Runs

/-! ## A sample run -/

/-- The state after an action. -/
def Levels.after (encodedSize : LtxFile → Nat) (state : Levels)
    (action : LevelsAction) : Levels :=
  { (action.call.run encodedSize { state with faults := action.faults }).2 with
    faults := [] }

/-- The state after actions that may look at the state they start from. -/
def Levels.play (encodedSize : LtxFile → Nat) (state : Levels) :
    List (Levels → LevelsAction) → Levels
  | [] => state
  | choose :: rest => (state.after encodedSize (choose state)).play encodedSize rest

theorem reaches_play {encodedSize : LtxFile → Nat} {state : Levels}
    {guard : Levels → LevelsAction → Prop}
    {choices : List (Levels → LevelsAction)}
    (allowed : ∀ choose ∈ choices, ∀ state, guard state (choose state)) :
    Machine.Reaches (Levels.step encodedSize) guard state
      (state.play encodedSize choices) := by
  induction choices generalizing state with
  | nil => exact .refl
  | cons choose rest ih =>
      have first : Machine.Reaches (Levels.step encodedSize) guard state
          (state.after encodedSize (choose state)) :=
        .tail .refl (allowed choose (by simp) state) rfl
      exact first.trans (ih fun other member =>
        allowed other (by simp [member]))

/-- A database of two pages; only the first one is ever rewritten. -/
def hotPage : History :=
  History.filled 512 History.sector_pos (fun txid => 2 * min txid 1) rfl
    fun txid pgno => if pgno = 1 then txid.toUInt8 else 7

instance (txid pgno : Nat) : Decidable (hotPage.written txid pgno) :=
  inferInstanceAs (Decidable (_ ∨ _))

theorem hotPage_sized (state : Levels) :
    isValidPageSize (hotPage.pageSize (state.txid + 1)) = true := by
  change isValidPageSize 512 = true
  decide

theorem hotSync_range (state : Levels) :
    1 ≤ state.txid + 1 ∧ state.txid + 1 ≤ state.txid + 1 :=
  ⟨Nat.le_add_left 1 _, Nat.le_refl _⟩

/-- Synchronise the next step of it. -/
def hotSync (state : Levels) : LevelsAction where
  faults := []
  call := .sync 0 (hotPage.file (state.txid + 1) (state.txid + 1) 0
    (hotPage_sized state) (hotSync_range state))

theorem hotSync_synced (state : Levels) :
    hotPage.SyncedFile (state.txid + 1)
      (hotPage.file (state.txid + 1) (state.txid + 1) 0 rfl
        ⟨Nat.le_add_left 1 _, Nat.le_refl _⟩) where
  faithful := hotPage.faithful_file rfl ⟨Nat.le_add_left 1 _, Nat.le_refl _⟩
  minTxid := rfl
  maxTxid := rfl

/-- Three steps, a level compaction, and an L0 retention that removes the first
file and then fails. -/
def prunedChoices : List (Levels → LevelsAction) :=
  [hotSync, hotSync, hotSync,
    fun _ => { faults := [], call := .compactLevel 0 1 },
    fun _ => { faults := [false, true], call := .enforceL0Retention 10 1 }]

def prunedLevels : Levels := Levels.empty.play (fun _ => 0) prunedChoices

theorem prunedLevels_reached :
    Machine.Reaches (Levels.step fun _ => 0) hotPage.cascades Levels.empty
      prunedLevels := by
  apply reaches_play
  intro choose member state
  simp only [prunedChoices, List.mem_cons, List.not_mem_nil, or_false] at member
  rcases member with rfl | rfl | rfl | rfl | rfl
  · exact hotSync_synced state
  · exact hotSync_synced state
  · exact hotSync_synced state
  · exact trivial
  · exact trivial

theorem prunedLevels_txid : prunedLevels.txid = 3 := by decide +kernel

theorem levels_restore_pruned :
    (∃ plan, FileChain 0 plan prunedLevels.txid ∧
      ∀ key ∈ plan, key ∈ listAllLtx prunedLevels.store) ∧
    restore prunedLevels.store = .ok (hotPage.image prunedLevels.txid) ∧
    ∀ target result, restoreToTxid prunedLevels.store target = .ok result →
      result.txid ≤ target ∧ result.image = hotPage.image result.txid :=
  levels_restore (fun _ _ => rfl) prunedLevels_reached
    (by rw [prunedLevels_txid]; exact Nat.zero_lt_succ 2)

end Literstream
