import Mathlib.Data.List.Infix
import Literstream.Levels.Replication

/-!
# The single-base compaction

`compact` always publishes its result as a file from TXID 1.  That is right when
its first input, the base or else the oldest L0 file, starts at TXID 1, and when
its inputs happen to hold every page.  After L0 retention has pruned the start
of the L0 chain it may be neither.
-/

namespace Literstream

open Fallible

/-- What `compact` merges: its base and the L0 run beyond it without the newest
file. -/
def compactInputs (files : FileIndex) : List LtxFileInfo :=
  (compactBase files).toList ++ (compactFresh files).dropLast

/-- The inputs start at TXID 1, or hold every page of the database at their
end. -/
def History.CompactComplete (history : History) (state : Levels) : Prop :=
  ∀ first newest, (compactInputs state.files).head? = some first →
    (compactInputs state.files).getLast? = some newest →
    first.minTxid = 1 ∨
      ∀ pgno, history.Stored newest.maxTxid pgno →
        ∃ info ∈ compactInputs state.files, ∃ file,
          state.store[info.toFileKey]? = some file ∧
            (file.page? pgno).isSome = true

/-- The base published for a TXID holds every page of the database there. -/
def History.HoldsAll (history : History) (store : Store) (txid : Nat) : Prop :=
  ∃ file, store[(⟨snapshotLevel, 1, txid⟩ : FileKey)]? = some file ∧
    ∀ pgno, history.Stored txid pgno →
      (pgno, history.content txid pgno) ∈ file.pages

section Deletions

variable {history : History} {anchor : Nat}

/-- The same position and the same files, apart from some addresses. -/
structure SameApart (start : Levels) (files : List LtxFileInfo)
    (state : Levels) : Prop where
  txid : state.txid = start.txid
  others : ∀ key, (∀ file ∈ files, file.toFileKey ≠ key) →
    state.store[key]? = start.store[key]?

theorem deleteFiles_frame (start : Levels) (files : List LtxFileInfo) :
    Holds (Same start) (forEach deleteFile files)
      (fun _ => SameApart start files) (fun _ => True) := by
  have loop : Holds
      (fun state => (∀ file ∈ files, file ∈ files) ∧
        SameApart start files state)
      (forEach deleteFile files)
      (fun _ state => (∀ file ∈ ([] : List LtxFileInfo), file ∈ files) ∧
        SameApart start files state)
      (fun _ => True) := by
    apply holds_forEach fun (rest : List LtxFileInfo) (state : Levels) =>
      (∀ file ∈ rest, file ∈ files) ∧ SameApart start files state
    intro file rest
    apply holds_of_start Same.refl
    rintro state ⟨inside, reached⟩
    apply (deleteFile_spec state file).weaken (fun _ same => same)
    · intro _ final same
      refine ⟨fun other member => inside other (by simp [member]),
        same.txid.trans reached.txid, ?_⟩
      intro key apart
      have differs : key ≠ file.toFileKey :=
        Ne.symm (apart file (inside file (by simp)))
      rw [same.store]
      change (state.store.erase file.toFileKey)[key]? = _
      rw [OrderedMap.getElem?_erase, if_neg differs]
      exact reached.others key apart
    · exact fun _ _ => trivial
  apply loop.weaken
  · intro state same
    refine ⟨fun _ member => member, same.txid, ?_⟩
    intro key _
    rw [same.store]
  · exact fun _ _ reached => reached.2
  · exact fun _ reached => reached

end Deletions

section Inputs

variable {history : History} {anchor : Nat} {state : Levels}

theorem compactBase_spec {files : FileIndex} {base : LtxFileInfo}
    (found : compactBase files = some base) :
    base ∈ files.list snapshotLevel ∧ base.minTxid = 1 :=
  ⟨List.mem_of_find?_eq_some found, by simpa using List.find?_some found⟩

theorem ordered_compactFresh (files : FileIndex) :
    (compactFresh files).Pairwise fun left right =>
      left.minTxid < right.minTxid ∨
        (left.minTxid = right.minTxid ∧ left.maxTxid < right.maxTxid) :=
  (files.ordered_list level0).filter _

theorem compactBase_lt {files : FileIndex} {base file : LtxFileInfo}
    (found : compactBase files = some base) (fresh : file ∈ compactFresh files) :
    base.maxTxid < file.minTxid := by
  have beyond := (List.mem_filter.mp fresh).2
  rw [found] at beyond
  simpa using beyond

/-- A fresh file is listed at L0 and holds a single TXID. -/
theorem LevelsOk.fresh_single {file : LtxFileInfo}
    (ok : LevelsOk history anchor state)
    (fresh : file ∈ compactFresh state.files) :
    file.level = level0 ∧ file.minTxid = file.maxTxid ∧
      file.maxTxid ≤ state.txid := by
  have listed := (List.mem_filter.mp fresh).1
  have level := (FileIndex.mem_list.mp listed).2
  obtain ⟨_, _, fileOk⟩ :=
    ok.key_ok ((ok.indexed _).mp (FileIndex.mem_of_list listed))
  exact ⟨level, fileOk.single level, fileOk.synced⟩

/-- The run that is merged stops before the newest L0 file. -/
theorem LevelsOk.run_lt {file : LtxFileInfo}
    (ok : LevelsOk history anchor state)
    (member : file ∈ (compactFresh state.files).dropLast) :
    file.maxTxid < state.txid := by
  have nonempty : compactFresh state.files ≠ [] := by
    intro empty
    simp [empty] at member
  have ordered := ordered_compactFresh state.files
  rw [← List.dropLast_append_getLast nonempty] at ordered
  have less := (List.pairwise_append.mp ordered).2.2 file member _
    (List.mem_singleton.mpr rfl)
  have single := ok.fresh_single (List.mem_of_mem_dropLast member)
  have newest := ok.fresh_single (List.getLast_mem nonempty)
  omega

/-- The run that is merged ascends to its last file. -/
theorem LevelsOk.run_le {file newest : LtxFileInfo}
    (ok : LevelsOk history anchor state)
    (isLast : (compactFresh state.files).dropLast.getLast? = some newest)
    (member : file ∈ (compactFresh state.files).dropLast) :
    file.maxTxid ≤ newest.maxTxid := by
  obtain ⟨before, run⟩ := List.getLast?_eq_some_iff.mp isLast
  have ordered := (ordered_compactFresh state.files).sublist
    (List.dropLast_sublist _)
  have single := ok.fresh_single (List.mem_of_mem_dropLast member)
  have last := ok.fresh_single
    (List.mem_of_mem_dropLast (List.mem_of_getLast? isLast))
  rw [run] at ordered member
  rcases List.mem_append.mp member with earlier | same
  · have less := (List.pairwise_append.mp ordered).2.2 file earlier newest
      (by simp)
    omega
  · rw [List.mem_singleton.mp same]

theorem LevelsOk.base_lt {base newest : LtxFileInfo}
    (ok : LevelsOk history anchor state)
    (found : compactBase state.files = some base)
    (isLast : (compactFresh state.files).dropLast.getLast? = some newest) :
    base.maxTxid < newest.maxTxid := by
  have fresh := List.mem_of_mem_dropLast (List.mem_of_getLast? isLast)
  have single := ok.fresh_single fresh
  have beyond := compactBase_lt found fresh
  omega

/-- Every input is listed, is not the newest L0 file, and lies below the end of
the merge; the base lies strictly below. -/
theorem LevelsOk.inputs_spec {newest : LtxFileInfo}
    (ok : LevelsOk history anchor state)
    (isLast : (compactFresh state.files).dropLast.getLast? = some newest) :
    ∀ file ∈ compactInputs state.files,
      file ∈ state.files.list file.level ∧
      (file.level = level0 ∧ file.maxTxid < state.txid ∧
          file.maxTxid ≤ newest.maxTxid ∨
        file.level = snapshotLevel ∧ file.maxTxid < newest.maxTxid) := by
  intro file member
  rcases List.mem_append.mp member with isBase | inRun
  · rw [Option.mem_toList] at isBase
    obtain ⟨listed, _⟩ := compactBase_spec isBase
    have level := (FileIndex.mem_list.mp listed).2
    rw [level]
    exact ⟨listed, .inr ⟨rfl, ok.base_lt isBase isLast⟩⟩
  · have fresh := List.mem_of_mem_dropLast inRun
    have level := (ok.fresh_single fresh).1
    rw [level]
    exact ⟨(List.mem_filter.mp fresh).1,
      .inl ⟨rfl, ok.run_lt inRun, ok.run_le isLast inRun⟩⟩

/-- Once a base up to `newest` is published, every input can go. -/
theorem LevelsOk.inputs_deletable {newest : LtxFileInfo} {later : Levels}
    (ok : LevelsOk history anchor state)
    (isLast : (compactFresh state.files).dropLast.getLast? = some newest)
    (position : later.txid = state.txid) :
    ∀ file ∈ compactInputs state.files,
      Deletable (max anchor newest.maxTxid) later file.toFileKey ∧
        file.toFileKey ≠ ⟨snapshotLevel, 1, newest.maxTxid⟩ := by
  intro file member
  have upper := Nat.le_max_right anchor newest.maxTxid
  obtain ⟨_, ⟨level, before, below⟩ | ⟨level, below⟩⟩ :=
    ok.inputs_spec isLast file member
  · refine ⟨⟨?_, fun _ => .inl (by omega), ?_, ?_⟩, ?_⟩
    · intro newestL0
      rw [newestL0, position] at before
      exact Nat.lt_irrefl _ before
    · intro isWindow
      rw [level] at isWindow
      cases isWindow
    · intro isSnapshot
      rw [level] at isSnapshot
      cases isSnapshot
    · intro published
      rw [published] at level
      cases level
  · refine ⟨⟨?_, ?_, ?_, fun _ => by omega⟩, ?_⟩
    · intro newestL0
      rw [newestL0] at level
      cases level
    · intro isRaw
      rw [level] at isRaw
      cases isRaw
    · intro isWindow
      rw [level] at isWindow
      cases isWindow
    · intro published
      rw [published] at below
      exact Nat.lt_irrefl _ below

/-- The first input starts first. -/
theorem compactInputs_lower {files : FileIndex} {first : LtxFileInfo}
    (isFirst : (compactInputs files).head? = some first) :
    ∀ file ∈ compactInputs files, first.minTxid ≤ file.minTxid := by
  unfold compactInputs at isFirst ⊢
  cases found : compactBase files with
  | none =>
      rw [found] at isFirst
      exact head?_min_le ((ordered_compactFresh files).sublist
        (List.dropLast_sublist _)) isFirst
  | some base =>
      rw [found] at isFirst
      cases isFirst
      intro file member
      obtain ⟨_, begins⟩ := compactBase_spec found
      rw [begins]
      rcases List.mem_append.mp member with isBase | inRun
      · simp only [Option.toList_some, List.mem_singleton] at isBase
        rw [isBase, begins]
      · have beyond := compactBase_lt found (List.mem_of_mem_dropLast inRun)
        omega

/-- Only the first input may be a base. -/
theorem LevelsOk.inputs_tail (ok : LevelsOk history anchor state) :
    ∀ file ∈ (compactInputs state.files).tail,
      file.level ≠ snapshotLevel := by
  have raw : ∀ file ∈ (compactFresh state.files).dropLast,
      file.level ≠ snapshotLevel := by
    intro file member isSnapshot
    have level := (ok.fresh_single (List.mem_of_mem_dropLast member)).1
    rw [level] at isSnapshot
    cases isSnapshot
  unfold compactInputs
  cases compactBase state.files with
  | none => exact fun file member => raw file (List.mem_of_mem_tail member)
  | some base => exact raw

/-- A complete merge is faithful from TXID 1 on. -/
theorem LevelsOk.base {first newest : LtxFileInfo} {merged : LtxFile}
    (ok : LevelsOk history anchor state)
    (complete : history.CompactComplete state)
    (isFirst : (compactInputs state.files).head? = some first)
    (newestRun : (compactFresh state.files).dropLast.getLast? = some newest)
    (faithful : history.Faithful first.minTxid newest.maxTxid merged)
    (headerMax : merged.header.maxTxid = newest.maxTxid) :
    FileOk history state.txid ⟨snapshotLevel, 1, newest.maxTxid⟩ merged := by
  have isLast : (compactInputs state.files).getLast? = some newest := by
    rw [compactInputs, List.getLast?_append, newestRun]
    rfl
  have held : ∀ file ∈ compactInputs state.files, ∃ stored,
      state.store[file.toFileKey]? = some stored ∧
        FileOk history state.txid file.toFileKey stored := by
    intro file member
    exact ok.key_ok ((ok.indexed _).mp
      (FileIndex.mem_of_list (ok.inputs_spec newestRun file member).1))
  obtain ⟨_, _, firstOk⟩ := held first (List.mem_of_head? isFirst)
  obtain ⟨_, _, newestOk⟩ := held newest (List.mem_of_getLast? isLast)
  have upper : ∀ file ∈ compactInputs state.files,
      file.maxTxid ≤ newest.maxTxid := by
    intro file member
    have spec := (ok.inputs_spec newestRun file member).2
    omega
  refine
    { faithful := ?_
      positive := Nat.le_refl 1
      ordered := Nat.le_trans newestOk.positive newestOk.ordered
      synced := newestOk.synced
      level := Nat.le_refl _
      single := fun impossible => by cases impossible
      snapshot := fun _ => rfl
      headerMax := headerMax
      headerMin := fun impossible => absurd rfl impossible }
  rcases complete first newest isFirst isLast with starts | holds
  · rw [starts] at faithful
    exact faithful
  · refine ⟨faithful.pageSize, faithful.commit, ?_⟩
    intro pgno data
    rw [faithful.pages]
    constructor
    · rintro ⟨stored, written, same⟩
      exact ⟨stored, written.mono firstOk.positive (Nat.le_refl _), same⟩
    · rintro ⟨stored, _, same⟩
      obtain ⟨info, member, file, found, present⟩ := holds pgno stored
      obtain ⟨old, present⟩ := Option.isSome_iff_exists.mp present
      have fileFaithful := (ok.files _ _ found).faithful
      obtain ⟨_, written, _⟩ := fileFaithful.page?_eq_some present
      exact ⟨stored, written.mono (compactInputs_lower isFirst info member)
        (upper info member), same⟩

end Inputs

section Call

variable {history : History} {anchor : Nat}

/-- Deleting inputs once the new base is published. -/
theorem deleteFiles_spec {start : Levels} {files : List LtxFileInfo}
    {complete : Prop} (ok : complete → LevelsOk history anchor start)
    (deletable : ∀ file ∈ files, Deletable anchor start file.toFileKey) :
    Holds (Same start) (forEach deleteFile files)
      (fun _ final => (complete → LevelsOk history anchor final) ∧
        SameApart start files final)
      (fun final => complete → LevelsOk history anchor final) := by
  apply ((holds_of_imp fun given =>
    deleteFiles_ok (ok given) deletable).and (deleteFiles_frame start files)).weaken
  · exact fun _ same => same
  · exact fun _ _ reached => reached
  · exact fun _ reached => reached.1

/-- A merge of the inputs of `compact`. -/
structure History.Compacted (history : History) (start : Levels)
    (newest : LtxFileInfo) (merged : LtxFile) : Prop where
  isLast : (compactInputs start.files).getLast? = some newest
  held : ∀ page ∈ merged.pages, ∃ info ∈ compactInputs start.files, ∃ file,
    start.store[info.toFileKey]? = some file ∧
      (file.page? page.1).isSome = true
  base : history.CompactComplete start → FileOk history start.txid
    ⟨snapshotLevel, 1, newest.maxTxid⟩ merged

theorem LevelsOk.compacted {start : Levels} {files : List KeyedFile}
    {newest : LtxFileInfo} {merged : LtxFile}
    (ok : LevelsOk history anchor start)
    (newestRun : (compactFresh start.files).dropLast.getLast? = some newest)
    (keys : files.map Prod.fst =
      (compactInputs start.files).map LtxFileInfo.toFileKey)
    (loaded : Loaded start.store files)
    (done : compactToWriter (files.map Prod.snd) = .ok merged) :
    history.Compacted start newest merged := by
  have isLast : (compactInputs start.files).getLast? = some newest := by
    rw [compactInputs, List.getLast?_append, newestRun]
    rfl
  obtain ⟨first, isFirst⟩ : ∃ first,
      (compactInputs start.files).head? = some first := by
    cases inputs : compactInputs start.files with
    | nil => simp [inputs] at isLast
    | cons first rest => exact ⟨first, rfl⟩
  obtain ⟨faithful, headerMax, _⟩ := ok.merged (compactInputs_lower isFirst)
    ok.inputs_tail isFirst isLast keys loaded done
  refine ⟨isLast, ?_, fun complete =>
    ok.base complete isFirst newestRun faithful headerMax⟩
  intro page member
  obtain ⟨file, inside, present⟩ := compactToWriter_holds done page member
  obtain ⟨keyed, keyedMember, rfl⟩ := List.mem_map.mp inside
  obtain ⟨info, infoMember, same⟩ := exists_keyed keys keyed keyedMember
  refine ⟨info, infoMember, keyed.2, ?_, present⟩
  rw [same]
  exact loaded keyed keyedMember

/-- What `compact` does: nothing, or it publishes the merge of its inputs.  If
that merge is complete, the replica stays in order. -/
theorem compact_spec {start : Levels} (clock : Int)
    (ok : LevelsOk history anchor start) :
    Holds (Same start) (compact clock)
      (fun outcome final =>
        (history.CompactComplete start →
          ReplicaOk history final ∧ final.txid = start.txid) ∧
        match outcome with
        | none => (compactFresh start.files).dropLast = [] ∧
            final.store = start.store
        | some info => ∃ newest merged,
            history.Compacted start newest merged ∧
            info.maxTxid = newest.maxTxid ∧
            final.store[(⟨snapshotLevel, 1, newest.maxTxid⟩ : FileKey)]? =
              some merged)
      (fun final => history.CompactComplete start →
        ReplicaOk history final) := by
  have unchanged : ∀ state, Same start state →
      history.CompactComplete start → ReplicaOk history state :=
    fun _ same _ => ⟨anchor, same.ok ok⟩
  apply (current_spec start).bind
  intro value
  apply holds_of_fact
  intro same
  simp only [same.files]
  split
  · rename_i nothing
    apply holds_pure
    intro state same
    exact ⟨fun complete => ⟨unchanged state same complete, same.txid⟩,
      List.getLast?_eq_none_iff.mp nothing, same.store⟩
  · rename_i newest newestRun
    have fetches := holds_collect (fun (item : LtxFileInfo) file =>
      start.store[item.toFileKey]? = some file)
      (fun item => fetchLtx_spec start item.toFileKey)
      (compactInputs start.files)
    apply (fetches.weaken (fun _ same => same) (fun _ _ same => same)
      unchanged).bind
    intro inputs
    apply holds_of_fact
    intro fetched
    obtain ⟨files, keys, contents, loaded⟩ := exists_fetched _ fetched
    subst contents
    apply ((compactAndUpload_spec start clock
      ⟨snapshotLevel, 1, newest.maxTxid⟩ (files.map Prod.snd)).weaken
      (fun _ same => same) (fun _ _ same => same) unchanged).bind
    intro _
    rintro state ⟨merged, done, same⟩
    revert state
    have compacted := ok.compacted newestRun keys loaded done
    have published : history.CompactComplete start →
        LevelsOk history (max anchor newest.maxTxid)
          (start.put clock ⟨snapshotLevel, 1, newest.maxTxid⟩ merged) := by
      intro complete
      exact ok.put clock (compacted.base complete)
        fun isWindow => by cases isWindow
    have inOrder : ∀ final, (history.CompactComplete start →
        LevelsOk history (max anchor newest.maxTxid) final) →
        history.CompactComplete start → ReplicaOk history final :=
      fun _ reached complete => ⟨_, reached complete⟩
    have position : (start.put clock
        ⟨snapshotLevel, 1, newest.maxTxid⟩ merged).txid = start.txid := rfl
    have superseded := deleteFiles_spec published
      fun file member => (ok.inputs_deletable newestRun position file
        (List.mem_append_left _ member)).1
    apply (superseded.weaken (fun _ same => same) (fun _ _ reached => reached)
      inOrder).bind
    intro _
    apply holds_of_start Same.refl
    rintro middle ⟨middleOk, middleFrame⟩
    have folded := deleteFiles_spec middleOk
      fun file member => (ok.inputs_deletable newestRun middleFrame.txid file
        (List.mem_append_right _ member)).1
    apply (folded.weaken (fun _ same => same) (fun _ _ reached => reached)
      inOrder).bind
    intro _
    apply holds_pure
    rintro final ⟨finalOk, finalFrame⟩
    refine ⟨fun complete => ⟨⟨_, finalOk complete⟩,
      finalFrame.txid.trans middleFrame.txid⟩, newest, merged, compacted, rfl,
      ?_⟩
    rw [finalFrame.others, middleFrame.others]
    · change (start.store.insert _ merged)[_]? = _
      rw [Std.ExtTreeMap.getElem?_insert_self]
    · intro file member
      exact (ok.inputs_deletable newestRun rfl file
        (List.mem_append_left _ member)).2
    · intro file member
      exact (ok.inputs_deletable newestRun rfl file
        (List.mem_append_right _ member)).2

end Call

/-! ## Runs -/

/-- Synced files follow the history, and every single-base compaction is
complete. -/
def History.compactsComplete (history : History) (state : Levels)
    (action : LevelsAction) : Prop :=
  match action.call with
  | .sync _ file => history.SyncedFile (state.txid + 1) file
  | .compact _ => history.CompactComplete state
  | _ => True

section Runs

variable {history : History}

theorem ReplicaOk.compacts {encodedSize : LtxFile → Nat}
    {state next : Levels} {action : LevelsAction}
    (ok : ReplicaOk history state)
    (allowed : history.compactsComplete state action)
    (stepped : state.step encodedSize action = some next) :
    ReplicaOk history next := by
  obtain ⟨faults, call⟩ := action
  have plain : history.cascades state { faults := faults, call := call } →
      ReplicaOk history next :=
    fun cascades => ok.cascade cascades stepped
  cases call with
  | compact clock =>
      obtain ⟨anchor, ok⟩ := ok
      have started : Same state { state with faults := faults } :=
        ⟨rfl, rfl, rfl⟩
      have holds := effect_ok ((compact_spec clock ok).weaken
        (fun _ same => same) (fun _ _ reached => (reached.1 allowed).1)
        fun _ failed => failed allowed)
      cases stepped
      obtain ⟨final, finalOk⟩ := holds.final started
      have same : Same (effect (compact clock)
          { state with faults := faults }).2
          { (effect (compact clock) { state with faults := faults }).2 with
            faults := [] } := ⟨rfl, rfl, rfl⟩
      exact ⟨final, same.ok finalOk⟩
  | sync clock file => exact plain allowed
  | compactLevel clock dstLevel => exact plain trivial
  | snapshot clock => exact plain trivial
  | enforceSnapshotRetention now retention maxLevel => exact plain trivial
  | enforceL0Retention now retention => exact plain trivial
  | restamp key createdAt => exact plain trivial

/-- A base that is faithful from TXID 1 on holds everything. -/
theorem FileOk.holdsAll {top txid : Nat} {file : LtxFile} {store : Store}
    (fileOk : FileOk history top ⟨snapshotLevel, 1, txid⟩ file)
    (held : store[(⟨snapshotLevel, 1, txid⟩ : FileKey)]? = some file) :
    history.HoldsAll store txid := by
  refine ⟨file, held, ?_⟩
  intro pgno stored
  exact (fileOk.faithful.pages pgno _).mpr ⟨stored, stored.writtenIn, rfl⟩

/-- A compaction that succeeds keeps the restored image and publishes the whole
database exactly when its inputs were complete, in every state reached by
complete compactions and the other calls. -/
theorem compact_keeps_image {encodedSize : LtxFile → Nat}
    {state final : Levels} {outcome : Option CompactionInfo}
    (oneSize : ∀ left right, history.pageSize left = history.pageSize right)
    (run : Machine.Reaches (Levels.step encodedSize) history.compactsComplete
      Levels.empty state)
    (faults : List Bool) (clock : Int)
    (done : compact clock { state with faults := faults } =
      (.ok outcome, final)) :
    history.CompactComplete state ↔
      restore final.store = restore state.store ∧
      ∀ info, outcome = some info →
        history.HoldsAll final.store info.maxTxid := by
  have reached : ReplicaOk history state :=
    run.invariant ⟨0, levelsOk_empty history⟩ fun _ _ _ ok allowed stepped =>
      ok.compacts allowed stepped
  obtain ⟨anchor, ok⟩ := reached
  have started : Same state { state with faults := faults } := ⟨rfl, rfl, rfl⟩
  have spec := compact_spec clock ok _ started
  rw [done] at spec
  obtain ⟨keeps, published⟩ := spec
  constructor
  · intro complete
    obtain ⟨⟨_, finalOk⟩, position⟩ := keeps complete
    cases outcome with
    | none =>
        rw [published.2]
        exact ⟨rfl, fun _ impossible => by cases impossible⟩
    | some info =>
        obtain ⟨newest, merged, compacted, ends, held⟩ := published
        have fileOk := compacted.base complete
        have synced : 0 < state.txid :=
          Nat.lt_of_lt_of_le fileOk.ordered fileOk.synced
        constructor
        · rw [finalOk.restore (by omega) oneSize, ok.restore synced oneSize,
            position]
        · rintro _ ⟨rfl⟩
          rw [ends]
          exact fileOk.holdsAll held
  · rintro ⟨_, whole⟩ first newest isFirst isLast
    cases outcome with
    | none =>
        left
        unfold compactInputs at isFirst
        rw [published.1, List.append_nil] at isFirst
        have isBase := List.mem_of_head? isFirst
        exact (compactBase_spec (Option.mem_toList.mp isBase)).2
    | some info =>
        right
        obtain ⟨last, merged, compacted, ends, held⟩ := published
        have same : last = newest := by
          have both := compacted.isLast
          rw [isLast] at both
          exact (Option.some.inj both).symm
        subst same
        intro pgno stored
        obtain ⟨file, found, all⟩ := whole info rfl
        rw [ends, held] at found
        cases found
        rw [ends] at all
        exact compacted.held _ (all pgno stored)

end Runs

/-! ## A base without its start -/

/-- Three steps, a level compaction, an L0 retention that removes the first two
files, and two more steps. -/
def orphanedChoices : List (Levels → LevelsAction) :=
  [hotSync, hotSync, hotSync,
    fun _ => { faults := [], call := .compactLevel 0 1 },
    fun _ => { faults := [], call := .enforceL0Retention 10 1 },
    hotSync, hotSync]

def orphanedLevels : Levels := Levels.empty.play (fun _ => 0) orphanedChoices

theorem orphanedLevels_reached :
    Machine.Reaches (Levels.step fun _ => 0) hotPage.compactsComplete
      Levels.empty orphanedLevels := by
  apply reaches_play
  intro choose member state
  simp only [orphanedChoices, List.mem_cons, List.not_mem_nil,
    or_false] at member
  rcases member with rfl | rfl | rfl | rfl | rfl | rfl | rfl
  · exact hotSync_synced state
  · exact hotSync_synced state
  · exact hotSync_synced state
  · exact trivial
  · exact trivial
  · exact hotSync_synced state
  · exact hotSync_synced state

/-- `compact` publishes TXIDs 3 and 4 as a base from TXID 1, without the second
page, and restores prefer it. -/
theorem compact_loses_page :
    Machine.Reaches (Levels.step fun _ => 0) hotPage.compactsComplete
      Levels.empty orphanedLevels ∧
    (compact 0 orphanedLevels).1 = .ok (some
      { minTxid := 1, maxTxid := 4, inputs := 2, pruned := 2 }) ∧
    restore orphanedLevels.store = .ok (hotPage.image 5) ∧
    restore (compact 0 orphanedLevels).2.store ≠ .ok (hotPage.image 5) ∧
    ¬ hotPage.HoldsAll (compact 0 orphanedLevels).2.store 4 := by
  refine ⟨orphanedLevels_reached, by decide +kernel, by decide +kernel,
    by decide +kernel, ?_⟩
  rintro ⟨file, held, whole⟩
  have stored : hotPage.Stored 4 2 := by
    unfold History.Stored
    decide
  have absent : ((compact 0 orphanedLevels).2.store[
      (⟨snapshotLevel, 1, 4⟩ : FileKey)]?.bind (·.page? 2)) = none := by
    decide +kernel
  rw [held] at absent
  exact file.page?_eq_none_iff.mp absent _ (whole 2 stored)

/-- Three steps, none of them pruned. -/
def threeSteps : Levels :=
  Levels.empty.play (fun _ => 0) [hotSync, hotSync, hotSync]

theorem threeSteps_reached :
    Machine.Reaches (Levels.step fun _ => 0) hotPage.compactsComplete
      Levels.empty threeSteps := by
  apply reaches_play
  intro choose member state
  simp only [List.mem_cons, List.not_mem_nil, or_false, or_self] at member
  subst member
  exact hotSync_synced state

def threeFolded : Levels := (compact 0 { threeSteps with faults := [] }).2

theorem threeFolded_done :
    compact 0 { threeSteps with faults := [] } =
      (.ok (some (CompactionInfo.mk 1 2 2 2)), threeFolded) := by
  apply Prod.ext
  · decide +kernel
  · rw [threeFolded]

theorem compact_keeps_image_folded :
    hotPage.CompactComplete threeSteps ↔
      restore threeFolded.store = restore threeSteps.store ∧
      ∀ info, some (CompactionInfo.mk 1 2 2 2) = some info →
        hotPage.HoldsAll threeFolded.store info.maxTxid :=
  compact_keeps_image (fun _ _ => rfl) threeSteps_reached [] 0 threeFolded_done

end Literstream
