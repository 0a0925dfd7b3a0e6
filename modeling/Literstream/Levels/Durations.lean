import Literstream.Levels.Invariant
import Literstream.Levels.Listing

/-!
# Keeping files longer

Retention computes its cutoff by a subtraction that fails when the duration
reaches back past the earliest time of the clock.  The cutoff is then the
present, and a longer duration deletes what a shorter one keeps.
-/

namespace Literstream

open Fallible Std

/-- A store that answers every operation. -/
def Levels.answering (state : Levels) : Levels := { state with faults := [] }

/-- The call deletes the listed file when the store answers. -/
def Deletes {α : Type} (call : Call α) (state : Levels) (key : FileKey) :
    Prop :=
  key ∈ state.files ∧ key ∉ (call state.answering).2.files

/-- `now.checked_sub(retention)`. -/
def checkedSub (now : Int) (retention : Nat) : Option Int :=
  if now - retention < earliestTime then none else some (now - retention)

/-- A longer duration deletes at a level what a shorter one deletes, or less. -/
def DeletesNoMore {α : Type} (call : Nat → Call α) (state : Levels)
    (level shorter longer : Nat) : Prop :=
  ∀ key : FileKey, key.level = level → Deletes (call longer) state key →
    Deletes (call shorter) state key

/-- No file is younger than the cutoff but for those that retention keeps at any
age: the newest of its level, and an L0 file that is not folded into L1 or
lies behind one from the future. -/
structure AllOlder (state : Levels) (now cutoff : Int) : Prop where
  l0 : maxOf (state.files.list 1) ≠ 0 → ∀ file,
    (state.files.list level0).getLast? ≠ some file →
    file.maxTxid ≤ maxOf (state.files.list 1) →
    file ∈ (state.files.list level0).takeWhile
      (fun other => !tooNew now other) →
    file ∈ (state.files.list level0).takeWhile
      fun other => !tooNew cutoff other
  snapshots : ∀ file ∈ state.files.list snapshotLevel,
    (state.files.list snapshotLevel).getLast? ≠ some file →
    expired file now = true → expired file cutoff = true

theorem cutoffTime_eq (now : Int) (retention : Nat) :
    cutoffTime now retention = (checkedSub now retention).getD now := by
  unfold cutoffTime checkedSub
  split <;> rfl

/-! ## What the calls delete -/

/-- The snapshots that are too old, and the bound that the others leave. -/
abbrev Levels.oldSnapshots (state : Levels) (cutoff : Int) :
    List LtxFileInfo × Nat :=
  snapshotExpired (state.files.list snapshotLevel) cutoff

/-- The L0 files that are folded and too old. -/
abbrev Levels.oldL0 (state : Levels) (cutoff : Int) : List LtxFileInfo :=
  l0Expired (state.files.list level0) (maxOf (state.files.list 1)) cutoff

/-- The files are deleted one after the other. -/
def Levels.dropAll (state : Levels) : List LtxFileInfo → Levels
  | [] => state
  | file :: rest => (state.drop file.toFileKey).dropAll rest

theorem Levels.files_dropAll (state : Levels) (files : List LtxFileInfo)
    (key : FileKey) :
    (key ∈ (state.dropAll files).files ↔
      key ∈ state.files ∧ ∀ file ∈ files, file.toFileKey ≠ key) ∧
    ((∀ file ∈ files, file.toFileKey ≠ key) →
      (state.dropAll files).files[key]? = state.files[key]?) := by
  induction files generalizing state with
  | nil => simp [Levels.dropAll]
  | cons file rest ih =>
      obtain ⟨members, kept⟩ := ih (state.drop file.toFileKey)
      rw [Levels.dropAll]
      constructor
      · rw [members]
        change key ∈ state.files.erase file.toFileKey ∧ _ ↔ _
        rw [OrderedMap.mem_erase, List.forall_mem_cons, ne_comm]
        constructor
        · rintro ⟨⟨differs, member⟩, others⟩
          exact ⟨member, differs, others⟩
        · rintro ⟨member, differs, others⟩
          exact ⟨⟨differs, member⟩, others⟩
      · intro absent
        obtain ⟨differs, others⟩ := List.forall_mem_cons.mp absent
        rw [kept others]
        change (state.files.erase file.toFileKey)[key]? = _
        rw [OrderedMap.getElem?_erase, if_neg (Ne.symm differs)]

section Answering

variable {state : Levels}

theorem Levels.faults_dropAll (clean : state.faults = [])
    (files : List LtxFileInfo) : (state.dropAll files).faults = [] := by
  induction files generalizing state with
  | nil => exact clean
  | cons file rest ih => exact ih clean

theorem deleteFiles_answering (clean : state.faults = [])
    (files : List LtxFileInfo) :
    forEach deleteFile files state = (.ok (), state.dropAll files) := by
  induction files generalizing state with
  | nil => rfl
  | cons file rest ih =>
      have attempted : attempt state = (.ok (), state) := by
        rw [attempt, clean]
      have removed : deleteLtx file.toFileKey state =
          (.ok (), { state with store := state.store.erase file.toFileKey }) :=
        bind_of_ok attempted
      have deleted : deleteFile file state =
          (.ok (), state.drop file.toFileKey) := bind_of_ok removed
      rw [forEach, bind_of_ok deleted]
      exact ih clean

theorem enforceRetentionByTxid_answering (clean : state.faults = [])
    (level txid : Nat) :
    enforceRetentionByTxid level txid state =
      (.ok (belowTxid (state.files.list level) txid).length,
        state.dropAll (belowTxid (state.files.list level) txid)) := by
  have deleted := deleteFiles_answering clean
    (belowTxid (state.files.list level) txid)
  exact bind_of_ok deleted

/-- Pruning other levels, or one that has nothing to prune, leaves the files of
a level as they are. -/
theorem cascade_keeps {kept txid : Nat} {levels : List Nat}
    (clean : state.faults = [])
    (nothing : kept ∈ levels → belowTxid (state.files.list kept) txid = []) :
    ∃ final, forEach (fun level => do
        let _ ← enforceRetentionByTxid level txid
        return ()) levels state = (.ok (), final) ∧
      ∀ key : FileKey, key.level = kept →
        final.files[key]? = state.files[key]? := by
  induction levels generalizing state with
  | nil => exact ⟨state, rfl, fun _ _ => rfl⟩
  | cons level rest ih =>
      have pruned := @bind_of_ok _ _ _ _ _ (fun _ => (pure () : Call Unit)) _ _
        _ (enforceRetentionByTxid_answering clean level txid)
      have same : ∀ key : FileKey, key.level = kept →
          (state.dropAll (belowTxid (state.files.list level) txid)).files[key]?
            = state.files[key]? := by
        intro key inside
        apply (Levels.files_dropAll state _ key).2
        rintro file member rfl
        have listed := (belowTxid_spec txid (state.files.nodup_list level) file
          member).1
        have sameLevel := (FileIndex.mem_list.mp listed).2
        have here : level = kept := sameLevel.symm.trans inside
        subst here
        rw [nothing List.mem_cons_self] at member
        cases member
      have listing := FileIndex.list_congr same
      obtain ⟨final, ran, keeps⟩ := ih (Levels.faults_dropAll clean _) (by
        intro member
        rw [listing]
        exact nothing (List.mem_cons_of_mem _ member))
      refine ⟨final, ?_, fun key inside => (keeps key inside).trans
        (same key inside)⟩
      rw [forEach, bind_of_ok pruned]
      exact ran

theorem enforceL0Retention_answering (clean : state.faults = []) (now : Int)
    {retention : Nat} (positive : 0 < retention) :
    (enforceL0Retention now retention state).2 =
      state.dropAll (state.oldL0 (cutoffTime now retention)) := by
  have deleted := deleteFiles_answering clean
    (state.oldL0 (cutoffTime now retention))
  rw [enforceL0Retention, if_neg (by omega)]
  have ran := @bind_of_ok _ _ _ _ _ (fun _ =>
    (pure (state.oldL0 (cutoffTime now retention)).length : Call Nat)) _ _ _
    deleted
  exact congrArg Prod.snd ran

/-- Behind the deletion of the old snapshots none is left below the bound but
the newest. -/
theorem belowTxid_retained (cutoff : Int)
    (counted : ∀ key ∈ state.files, 1 ≤ key.maxTxid) :
    belowTxid ((state.dropAll (state.oldSnapshots cutoff).1).files.list
      snapshotLevel) (state.oldSnapshots cutoff).2 = [] := by
  have distinct := state.files.nodup_list snapshotLevel
  have before : ∀ file ∈ (state.dropAll
        (state.oldSnapshots cutoff).1).files.list snapshotLevel,
      file ∈ state.files.list snapshotLevel ∧
        file ∉ (state.oldSnapshots cutoff).1 := by
    intro file member
    obtain ⟨held, level⟩ := FileIndex.mem_list.mp member
    have kept := ((Levels.files_dropAll state _ file.toFileKey).1.mp
      (FileIndex.mem_of_list member)).2
    rw [(Levels.files_dropAll state _ file.toFileKey).2 kept] at held
    exact ⟨FileIndex.mem_list.mpr ⟨held, level⟩,
      fun deleted => kept file deleted rfl⟩
  rw [List.eq_nil_iff_forall_not_mem]
  intro file member
  obtain ⟨left_, notLast, below⟩ := belowTxid_spec _
    (FileIndex.nodup_list _ snapshotLevel) file member
  obtain ⟨listed, kept⟩ := before file left_
  have listedCounted : ∀ other ∈ state.files.list snapshotLevel,
      1 ≤ other.maxTxid :=
    fun other inside => counted _ (FileIndex.mem_of_list inside)
  cases old : expired file cutoff with
  | false =>
      have above := (snapshotScan_le cutoff [] 0 listedCounted).2 file listed old
      exact absurd below (Nat.not_lt.mpr above)
  | true =>
      have isLast : (state.files.list snapshotLevel).getLast? = some file := by
        by_contra other
        exact kept ((mem_snapshotExpired distinct).mpr ⟨listed, old, other⟩)
      apply notLast
      apply getLast?_of_greatest (FileIndex.ordered_list _ _) left_
      intro other otherMember
      obtain ⟨body, whole⟩ := List.getLast?_eq_some_iff.mp isLast
      have otherListed := (before other otherMember).1
      have ordered := state.files.ordered_list snapshotLevel
      rw [whole] at ordered otherListed
      rcases List.mem_append.mp otherListed with earlier | same
      · have less := (List.pairwise_append.mp ordered).2.2 other earlier file
          (by simp)
        omega
      · rw [List.mem_singleton.mp same]
        omega

theorem enforceSnapshotRetention_answering (clean : state.faults = [])
    (now : Int) (retention maxLevel : Nat)
    (counted : maxLevel < snapshotLevel ∨
      ∀ key ∈ state.files, 1 ≤ key.maxTxid)
    {key : FileKey} (inside : key.level = snapshotLevel) :
    key ∈ (enforceSnapshotRetention now retention maxLevel state).2.files ↔
      key ∈ (state.dropAll
        (state.oldSnapshots (cutoffTime now retention)).1).files := by
  have deleted := deleteFiles_answering clean
    (state.oldSnapshots (cutoffTime now retention)).1
  have ran := @bind_of_ok _ _ _ _ _ (fun _ =>
    if (state.oldSnapshots (cutoffTime now retention)).2 > 0 then do
      cascadeRetention maxLevel
        (state.oldSnapshots (cutoffTime now retention)).2
      return (state.oldSnapshots (cutoffTime now retention)).2
    else return (state.oldSnapshots (cutoffTime now retention)).2) _ _ _ deleted
  have whole : enforceSnapshotRetention now retention maxLevel state = _ := ran
  rw [whole]
  split
  · have nothing : snapshotLevel ∈ List.range (maxLevel + 1) →
        belowTxid ((state.dropAll (state.oldSnapshots
            (cutoffTime now retention)).1).files.list snapshotLevel)
          (state.oldSnapshots (cutoffTime now retention)).2 = [] := by
      intro reached
      rw [List.mem_range] at reached
      rcases counted with below | counted
      · omega
      · exact belowTxid_retained _ counted
    obtain ⟨final, cascaded, keeps⟩ :=
      cascade_keeps (Levels.faults_dropAll clean _) nothing
    have ended := @bind_of_ok _ _ _ _ _ (fun _ => (pure
      (state.oldSnapshots (cutoffTime now retention)).2 : Call Nat)) _ _ _
      cascaded
    have finished : (cascadeRetention maxLevel
        (state.oldSnapshots (cutoffTime now retention)).2 >>= fun _ =>
          (pure (state.oldSnapshots (cutoffTime now retention)).2 : Call Nat))
        (state.dropAll
          (state.oldSnapshots (cutoffTime now retention)).1) = _ := ended
    rw [finished]
    change key ∈ final.files ↔ _
    rw [OrderedMap.mem_iff_exists, OrderedMap.mem_iff_exists, keeps key inside]
  · exact Iff.rfl

/-- A listed file of a level is dropped with a list of files of that level
exactly when it is one of them. -/
theorem dropped_iff {level : Nat} {files : List LtxFileInfo} {key : FileKey}
    (inside : key.level = level)
    (part : ∀ file ∈ files, file ∈ state.files.list level) :
    (key ∈ state.files ∧ key ∉ (state.dropAll files).files) ↔
      ∃ file ∈ files, file.toFileKey = key := by
  rw [(Levels.files_dropAll state files key).1]
  constructor
  · rintro ⟨held, dropped⟩
    by_contra others
    push Not at others
    exact dropped ⟨held, others⟩
  · rintro ⟨file, member, rfl⟩
    exact ⟨FileIndex.mem_of_list (part file member), fun still =>
      still.2 file member rfl⟩

end Answering

section Durations

variable {state : Levels} {now : Int} {retention shorter longer maxLevel : Nat}

theorem deletes_l0 {key : FileKey} (inside : key.level = level0)
    (positive : 0 < retention) :
    Deletes (enforceL0Retention now retention) state key ↔
      ∃ file ∈ state.oldL0 (cutoffTime now retention), file.toFileKey = key := by
  rw [Deletes, enforceL0Retention_answering rfl now positive]
  exact @dropped_iff state.answering _ _ _ inside
    fun file member => (l0Expired_sublist _ _ _).subset member

theorem deletes_snapshots {key : FileKey} (inside : key.level = snapshotLevel)
    (counted : maxLevel < snapshotLevel ∨
      ∀ key ∈ state.files, 1 ≤ key.maxTxid) :
    Deletes (enforceSnapshotRetention now retention maxLevel) state key ↔
      ∃ file ∈ (state.oldSnapshots (cutoffTime now retention)).1,
        file.toFileKey = key := by
  have left_ := @enforceSnapshotRetention_answering state.answering rfl now
    retention maxLevel counted key inside
  rw [Deletes, left_]
  exact @dropped_iff state.answering _ _ _ inside
    fun file member => (snapshotExpired_sublist _ _).subset member

/-- Addresses may stand for the files of a level. -/
theorem keys_subset_iff {level : Nat} {fewer more : List LtxFileInfo}
    (fewerPart : ∀ file ∈ fewer, file ∈ state.files.list level)
    (morePart : ∀ file ∈ more, file ∈ state.files.list level) :
    (∀ key : FileKey, key.level = level →
      (∃ file ∈ fewer, file.toFileKey = key) →
        ∃ file ∈ more, file.toFileKey = key) ↔ fewer ⊆ more := by
  constructor
  · intro each file member
    have listed := fewerPart file member
    obtain ⟨other, inside, same⟩ := each file.toFileKey
      (FileIndex.mem_list.mp listed).2 ⟨file, member, rfl⟩
    rw [← FileIndex.list_ext (morePart other inside) listed same]
    exact inside
  · rintro part key _ ⟨file, member, same⟩
    exact ⟨file, part member, same⟩

theorem deletesNoMore_l0 (positive : 0 < shorter) (ordered : shorter ≤ longer) :
    DeletesNoMore (enforceL0Retention now) state level0 shorter longer ↔
      state.oldL0 (cutoffTime now longer) ⊆
        state.oldL0 (cutoffTime now shorter) := by
  rw [← keys_subset_iff
    (fun file member => (l0Expired_sublist _ _ _).subset member)
    (fun file member => (l0Expired_sublist _ _ _).subset member)]
  constructor
  · intro each key inside
    rw [← deletes_l0 inside positive,
      ← deletes_l0 inside (Nat.lt_of_lt_of_le positive ordered)]
    exact each key inside
  · intro each key inside
    rw [deletes_l0 inside positive,
      deletes_l0 inside (Nat.lt_of_lt_of_le positive ordered)]
    exact each key inside

theorem deletesNoMore_snapshots
    (counted : maxLevel < snapshotLevel ∨
      ∀ key ∈ state.files, 1 ≤ key.maxTxid) :
    DeletesNoMore (fun retention =>
        enforceSnapshotRetention now retention maxLevel) state snapshotLevel
        shorter longer ↔
      (state.oldSnapshots (cutoffTime now longer)).1 ⊆
        (state.oldSnapshots (cutoffTime now shorter)).1 := by
  rw [← keys_subset_iff
    (fun file member => (snapshotExpired_sublist _ _).subset member)
    (fun file member => (snapshotExpired_sublist _ _).subset member)]
  constructor
  · intro each key inside
    rw [← deletes_snapshots inside counted, ← deletes_snapshots inside counted]
    exact each key inside
  · intro each key inside deleted
    rw [deletes_snapshots inside counted] at deleted ⊢
    exact each key inside deleted

/-- What is too new for a cutoff is too new for an earlier one. -/
theorem mem_takeWhile_later {files : List LtxFileInfo} {file : LtxFileInfo}
    {earlier later : Int} (ordered : earlier ≤ later)
    (member : file ∈ files.takeWhile fun other => !tooNew earlier other) :
    file ∈ files.takeWhile fun other => !tooNew later other := by
  have weaker : ∀ other : LtxFileInfo, tooNew earlier other = false →
      tooNew later other = false := by
    intro other young
    unfold tooNew at young ⊢
    cases created : other.createdAt with
    | none => rfl
    | some time =>
        rw [created] at young
        simp at young ⊢
        omega
  induction files with
  | nil => cases member
  | cons first rest ih =>
      cases newer : tooNew earlier first with
      | true => simp [newer] at member
      | false =>
          rw [List.takeWhile_cons_of_pos (by simp [newer])] at member
          rw [List.takeWhile_cons_of_pos (by simp [weaker first newer])]
          rcases List.mem_cons.mp member with rfl | inRest
          · exact List.mem_cons_self
          · exact List.mem_cons_of_mem _ (ih inRest)

theorem expired_later {file : LtxFileInfo} {earlier later : Int}
    (ordered : earlier ≤ later) (old : expired file earlier = true) :
    expired file later = true := by
  unfold expired at old ⊢
  cases created : file.createdAt with
  | none =>
      rw [created] at old
      cases old
  | some time =>
      rw [created] at old
      simp at old ⊢
      omega

/-- An earlier cutoff deletes less. -/
theorem old_subset {earlier later : Int} (ordered : earlier ≤ later) :
    state.oldL0 earlier ⊆ state.oldL0 later ∧
      (state.oldSnapshots earlier).1 ⊆ (state.oldSnapshots later).1 := by
  constructor
  · intro file member
    rw [mem_l0Expired (state.files.nodup_list level0)] at member ⊢
    obtain ⟨some_, folded, early, notLast⟩ := member
    exact ⟨some_, folded, mem_takeWhile_later ordered early, notLast⟩
  · intro file member
    rw [mem_snapshotExpired (state.files.nodup_list snapshotLevel)]
      at member ⊢
    obtain ⟨listed, old, notLast⟩ := member
    exact ⟨listed, expired_later ordered old, notLast⟩

/-- A cutoff deletes what the present as cutoff deletes when nothing is younger
than it. -/
theorem old_subset_iff {cutoff : Int} :
    (state.oldL0 now ⊆ state.oldL0 cutoff ∧
      (state.oldSnapshots now).1 ⊆ (state.oldSnapshots cutoff).1) ↔
      AllOlder state now cutoff := by
  have l0 := state.files.nodup_list level0
  have snapshots := state.files.nodup_list snapshotLevel
  constructor
  · rintro ⟨raw, full⟩
    constructor
    · intro some_ file notLast folded early
      have member := raw ((mem_l0Expired l0).mpr
        ⟨some_, folded, early, notLast⟩)
      exact ((mem_l0Expired l0).mp member).2.2.1
    · intro file listed notLast old
      have member := full ((mem_snapshotExpired snapshots).mpr
        ⟨listed, old, notLast⟩)
      exact ((mem_snapshotExpired snapshots).mp member).2.1
  · intro older
    constructor
    · intro file member
      rw [mem_l0Expired l0] at member ⊢
      obtain ⟨some_, folded, early, notLast⟩ := member
      exact ⟨some_, folded, older.l0 some_ file notLast folded early, notLast⟩
    · intro file member
      rw [mem_snapshotExpired snapshots] at member ⊢
      obtain ⟨listed, old, notLast⟩ := member
      exact ⟨listed, older.snapshots file listed notLast old, notLast⟩

/-- A longer duration deletes no more exactly when it can be subtracted, or the
shorter one cannot be either, or no file is young enough to tell. -/
theorem longer_deletes_no_more_iff (positive : 0 < shorter)
    (ordered : shorter ≤ longer)
    (counted : maxLevel < snapshotLevel ∨
      ∀ key ∈ state.files, 1 ≤ key.maxTxid) :
    (DeletesNoMore (enforceL0Retention now) state level0 shorter longer ∧
      DeletesNoMore (fun retention =>
        enforceSnapshotRetention now retention maxLevel) state snapshotLevel
        shorter longer) ↔
      checkedSub now longer ≠ none ∨ checkedSub now shorter = none ∨
        ∀ cutoff, checkedSub now shorter = some cutoff →
          AllOlder state now cutoff := by
  rw [deletesNoMore_l0 positive ordered, deletesNoMore_snapshots counted,
    cutoffTime_eq, cutoffTime_eq]
  cases far : checkedSub now longer with
  | some earlier =>
      have near_ : ∃ later, checkedSub now shorter = some later ∧
          earlier ≤ later := by
        unfold checkedSub at far ⊢
        split at far
        · cases far
        · cases far
          rw [if_neg (by omega)]
          exact ⟨_, rfl, by omega⟩
      obtain ⟨later, near_, before⟩ := near_
      rw [near_]
      simp only [Option.getD_some, ne_eq, reduceCtorEq, not_false_eq_true,
        true_or, iff_true]
      exact old_subset before
  | none =>
      cases near_ : checkedSub now shorter with
      | none => simp
      | some cutoff =>
          rw [Option.getD_none, Option.getD_some, old_subset_iff]
          simp

end Durations

/-- Two L0 files folded into L1 and two snapshots, created half a minute in. -/
def recentLevels : Levels where
  store := ∅
  files := ExtTreeMap.ofList
    [(⟨0, 1, 1⟩, some (30 * 10 ^ 9)), (⟨0, 2, 2⟩, some (30 * 10 ^ 9)),
      (⟨1, 1, 2⟩, some (30 * 10 ^ 9)), (⟨9, 1, 1⟩, some (30 * 10 ^ 9)),
      (⟨9, 1, 2⟩, some (30 * 10 ^ 9))] FileKey.cmp
  txid := 2
  faults := []

/-- `Duration::MAX` in nanoseconds. -/
def durationMax : Nat := (2 ^ 64 - 1) * 10 ^ 9 + 999999999

/-- One minute in, a retention of 40 seconds keeps everything, the longest one
deletes. -/
theorem durationMax_deletes_more :
    40 * 10 ^ 9 ≤ durationMax ∧
      ¬ (DeletesNoMore (enforceL0Retention (60 * 10 ^ 9)) recentLevels level0
        (40 * 10 ^ 9) durationMax ∧
      DeletesNoMore (fun retention =>
        enforceSnapshotRetention (60 * 10 ^ 9) retention 3) recentLevels
        snapshotLevel (40 * 10 ^ 9) durationMax) := by
  refine ⟨by decide, ?_⟩
  rintro ⟨l0, _⟩
  have kept := l0 ⟨0, 1, 1⟩ rfl ⟨by decide +kernel, by decide +kernel⟩
  exact kept.2 (by decide +kernel)

theorem longer_deletes_no_more_recent :
    (DeletesNoMore (enforceL0Retention (60 * 10 ^ 9)) recentLevels level0
        (20 * 10 ^ 9) (40 * 10 ^ 9) ∧
      DeletesNoMore (fun retention =>
        enforceSnapshotRetention (60 * 10 ^ 9) retention 3) recentLevels
        snapshotLevel (20 * 10 ^ 9) (40 * 10 ^ 9)) ↔
      checkedSub (60 * 10 ^ 9) (40 * 10 ^ 9) ≠ none ∨
        checkedSub (60 * 10 ^ 9) (20 * 10 ^ 9) = none ∨
        ∀ cutoff, checkedSub (60 * 10 ^ 9) (20 * 10 ^ 9) = some cutoff →
          AllOlder recentLevels (60 * 10 ^ 9) cutoff :=
  longer_deletes_no_more_iff (by decide) (by decide) (.inl (by decide))

end Literstream
