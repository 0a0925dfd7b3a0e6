import Literstream.Levels.Progress
import Literstream.Levels.Replication

/-!
# Retention that stalls a level

Only snapshot retention can break the order of the waiting files.  It does so
when it cuts off a file that still waits, while files of a coarser level wait
in front of it.
-/

namespace Literstream

open Fallible

/-- Cutting every level below a TXID takes away a waiting file only where no
coarser level has anything waiting. -/
def Levels.Spares (state : Levels) (maxLevel txid : Nat) : Prop :=
  ∀ level ≤ maxLevel, level ≤ lastSource →
    (∃ file ∈ belowTxid (state.files.list level) txid,
      file ∈ state.pending level) →
    ∀ above ≤ lastSource, level < above → state.pending above = []

instance (state : Levels) (maxLevel txid : Nat) :
    Decidable (state.Spares maxLevel txid) := by
  unfold Levels.Spares
  infer_instance

/-- Some frontiers fit the replica. -/
def Levels.Tidy (state : Levels) : Prop :=
  ∃ front next, Tiled state front next

theorem Levels.Tidy.same {start state : Levels} (tidy : start.Tidy)
    (same : Same start state) : state.Tidy := by
  obtain ⟨front, next, tiled⟩ := tidy
  exact ⟨front, next, tiled.same same⟩

section Deleting

variable {front next : Nat → Nat} {start state : Levels}

/-- Files were deleted, but the frontiers are the same, nothing starts or stops
waiting, and the levels that are left to be cut are untouched. -/
structure Trimmed (start : Levels) (front next : Nat → Nat) (rest : List Nat)
    (state : Levels) : Prop where
  tiled : ∃ next', Tiled state front next' ∧
    ∀ level ≤ lastSource, Idle front next' level ↔ Idle front next level
  lists : ∀ level ∈ rest, level ≤ lastSource →
    state.files.list level = start.files.list level

theorem Trimmed.same {rest : List Nat} {final : Levels}
    (trimmed : Trimmed start front next rest state) (same : Same state final) :
    Trimmed start front next rest final where
  tiled := by
    obtain ⟨next', tiled, idle⟩ := trimmed.tiled
    exact ⟨next', tiled.same same, idle⟩
  lists := by
    rw [same.files]
    exact trimmed.lists

theorem Trimmed.tidy {rest : List Nat}
    (trimmed : Trimmed start front next rest state) : state.Tidy := by
  obtain ⟨next', tiled, _⟩ := trimmed.tiled
  exact ⟨front, next', tiled⟩

/-- Files of one level that may be deleted one after the other: none of them is
the newest, and if they still wait, all that wait before them go as well. -/
structure Doomed (front next : Nat → Nat) (level : Nat)
    (files : List LtxFileInfo) (state : Levels) : Prop where
  ascending : files.Pairwise fun left right =>
    left.minTxid < right.minTxid ∨
      (left.minTxid = right.minTxid ∧ left.maxTxid < right.maxTxid)
  placed : ∀ file ∈ files, file.level = level
  held : ∀ file ∈ files, file.toFileKey ∈ state.store
  newest : level < snapshotLevel → ∀ file ∈ files, file.maxTxid < front level
  waits : level ≤ lastSource → ∀ file ∈ files,
    file.maxTxid ≤ front (level + 1) ∨
      ((∀ key ∈ state.store, key.level = level →
        key.minTxid < file.minTxid → ∃ other ∈ files, other.toFileKey = key) ∧
      ∀ above, level < above → above ≤ lastSource → Idle front next above)

theorem Doomed.same {level : Nat} {files : List LtxFileInfo} {final : Levels}
    (doomed : Doomed front next level files state) (same : Same state final) :
    Doomed front next level files final where
  ascending := doomed.ascending
  placed := doomed.placed
  held := by
    rw [same.store]
    exact doomed.held
  newest := doomed.newest
  waits := by
    rw [same.store]
    exact doomed.waits

/-- A waiting file with no other before it is where the coarser level goes
on. -/
theorem Tiled.first_eq (tiled : Tiled state front next) {key : FileKey}
    (member : key ∈ state.store) (source : key.level ≤ lastSource)
    (waits : next (key.level + 1) ≤ key.minTxid)
    (least : ∀ other ∈ state.store, other.level = key.level →
      ¬ other.minTxid < key.minTxid) :
    key.minTxid = next (key.level + 1) := by
  have ordered := (tiled.ordered key member).2
  have bound := tiled.bound key member
    (Nat.lt_of_le_of_lt source (by decide))
  obtain ⟨other, held, sameLevel, starts, lower, _⟩ :=
    tiled.tiles key.level source (next (key.level + 1)) (Nat.le_refl _)
      (by omega)
  have after := least other held sameLevel
  omega

/-- The first doomed file can be deleted. -/
theorem Doomed.droppable {level : Nat} {file : LtxFileInfo}
    {others : List LtxFileInfo} {next' : Nat → Nat}
    (doomed : Doomed front next level (file :: others) state)
    (tiled : Tiled state front next')
    (idle : ∀ level ≤ lastSource,
      Idle front next' level ↔ Idle front next level) :
    Tiled.Droppable front next' file.toFileKey := by
  have sameLevel := doomed.placed file (by simp)
  have held := doomed.held file (by simp)
  constructor
  case newest =>
      rw [sameLevel]
      exact fun below => doomed.newest below file (by simp)
  case waits =>
      intro source
      rcases tiled.waits _ held source with taken | waits
      · exact .inl taken
      · rw [sameLevel] at source waits ⊢
        rcases doomed.waits source file (by simp) with taken | ⟨before, quiet⟩
        · exact .inl taken
        · right
          constructor
          · have first := tiled.first_eq held (by omega)
              (by rw [sameLevel]; exact waits) (by
                intro other otherHeld otherLevel less
                obtain ⟨earlier, member, rfl⟩ :=
                  before other otherHeld (by omega) less
                rcases List.mem_cons.mp member with rfl | later
                · omega
                · have ascending :=
                    (List.pairwise_cons.mp doomed.ascending).1 earlier later
                  omega)
            rw [sameLevel] at first
            exact first
          · intro above coarser inside
            exact (idle above inside).mpr (quiet above coarser inside)

theorem Doomed.drop {level : Nat} {file : LtxFileInfo}
    {others : List LtxFileInfo}
    (doomed : Doomed front next level (file :: others) state) :
    Doomed front next level others (state.drop file.toFileKey) := by
  obtain ⟨before, ascending⟩ := List.pairwise_cons.mp doomed.ascending
  have differs : ∀ other ∈ others, other.toFileKey ≠ file.toFileKey := by
    intro other member same
    have less := before other member
    rw [same] at less
    omega
  constructor
  case ascending => exact ascending
  case placed => exact fun other member => doomed.placed other (by simp [member])
  case held =>
      intro other member
      exact (state.mem_drop _ _).mpr
        ⟨differs other member, doomed.held other (by simp [member])⟩
  case newest =>
      exact fun below other member =>
        doomed.newest below other (by simp [member])
  case waits =>
      intro source other member
      rcases doomed.waits source other (by simp [member]) with
        taken | ⟨earlier, quiet⟩
      · exact .inl taken
      · refine .inr ⟨?_, quiet⟩
        intro key inside sameLevel less
        obtain ⟨apart, old⟩ := (state.mem_drop _ _).mp inside
        obtain ⟨found, listed, rfl⟩ := earlier key old sameLevel less
        rcases List.mem_cons.mp listed with rfl | later
        · exact absurd rfl apart
        · exact ⟨found, later, rfl⟩

/-- Deleting doomed files only trims the replica. -/
theorem deleteFiles_trims {level : Nat} {rest : List Nat}
    {files : List LtxFileInfo} {base : Levels}
    (trimmed : Trimmed start front next rest base)
    (doomed : Doomed front next level files base)
    (fresh : level ∈ rest → lastSource < level) :
    Holds (Same base) (forEach deleteFile files)
      (fun _ => Trimmed start front next rest) Levels.Tidy := by
  have loop : Holds
      (fun state => Trimmed start front next rest state ∧
        Doomed front next level files state)
      (forEach deleteFile files)
      (fun _ state => Trimmed start front next rest state ∧
        Doomed front next level [] state)
      Levels.Tidy := by
    apply holds_forEach fun files state =>
      Trimmed start front next rest state ∧
        Doomed front next level files state
    intro file others
    apply holds_of_start Same.refl
    intro state both
    obtain ⟨reached, each⟩ := both
    obtain ⟨next', tiled, idle⟩ := reached.tiled
    have sameLevel := each.placed file (by simp)
    apply (deleteFile_spec state file).weaken
    · exact fun _ same => same
    · intro _ final same
      refine ⟨Trimmed.same ?_ same, each.drop.same same⟩
      obtain ⟨later, laterTiled, still⟩ := tiled.drop
        (each.held file (by simp)) (each.droppable tiled idle)
      constructor
      · exact ⟨later, laterTiled, fun level source =>
          (still level source).trans (idle level source)⟩
      · intro other member source
        rw [← reached.lists other member source]
        apply FileIndex.list_erase_of_ne
        intro isLevel
        have isFresh := fresh (by rwa [← sameLevel, isLevel])
        omega
    · exact fun final same => (reached.same same).tidy
  apply loop.weaken
  · exact fun state same => ⟨trimmed.same same, doomed.same same⟩
  · exact fun _ _ reached => reached.1
  · exact fun _ tidy => tidy

/-! ## The retention rules -/

/-- A listed file that is not the last one ends before the frontier. -/
theorem Tiled.lt_front (tiled : Tiled state front next) {level : Nat}
    {file : LtxFileInfo} (below : level < snapshotLevel)
    (member : file ∈ state.files.list level)
    (notLast : (state.files.list level).getLast? ≠ some file) :
    file.maxTxid < front level := by
  obtain ⟨held, sameLevel⟩ := tiled.listed member
  have bound := tiled.bound _ held (by omega)
  rw [sameLevel] at bound
  by_contra reaches
  apply notLast
  apply getLast?_of_greatest (state.files.ordered_list level) member
  intro other otherMember
  obtain ⟨otherHeld, otherLevel⟩ := tiled.listed otherMember
  have otherBound := tiled.bound _ otherHeld (by omega)
  rw [otherLevel] at otherBound
  have otherOrdered := (tiled.ordered _ otherHeld).2
  rcases tiled.apart _ otherHeld _ held (by omega) (by omega) with
    before | after | same
  · omega
  · omega
  · have sameMin : other.minTxid = file.minTxid := congrArg FileKey.minTxid same
    have sameMax : other.maxTxid = file.maxTxid := congrArg FileKey.maxTxid same
    omega

/-- Cutting below a TXID takes the oldest files of a level. -/
theorem Tiled.belowTxid_doomed (tiled : Tiled state front next) {level : Nat}
    (txid : Nat)
    (spared : level ≤ lastSource →
      (∃ file ∈ belowTxid (state.files.list level) txid,
        file ∈ state.pending level) →
      ∀ above, level < above → above ≤ lastSource → Idle front next above) :
    Doomed front next level (belowTxid (state.files.list level) txid) state := by
  have ordered := state.files.ordered_list level
  have specs := belowTxid_spec txid (state.files.nodup_list level)
  have listed : ∀ file ∈ belowTxid (state.files.list level) txid,
      file.toFileKey ∈ state.store ∧ file.level = level :=
    fun file member => tiled.listed (specs file member).1
  constructor
  case ascending =>
      unfold belowTxid keepNewest
      split
      · split
        · exact (ordered.filter _).sublist (List.dropLast_sublist _)
        · exact ordered.filter _
      · exact ordered.filter _
  case placed => exact fun file member => (listed file member).2
  case held => exact fun file member => (listed file member).1
  case newest =>
      intro below file member
      obtain ⟨inside, notLast, _⟩ := specs file member
      exact tiled.lt_front below inside notLast
  case waits =>
      intro source file member
      obtain ⟨held, sameLevel⟩ := listed file member
      obtain ⟨inside, notLast, less⟩ := specs file member
      have fileOrdered := (tiled.ordered _ held).2
      rcases tiled.waits _ held (by omega) with taken | waits
      · rw [sameLevel] at taken
        exact .inl taken
      · rw [sameLevel] at waits
        have past := tiled.past level source
        right
        constructor
        · intro key keyHeld keyLevel before
          subst keyLevel
          obtain ⟨other, otherListed, rfl⟩ := tiled.exists_listed keyHeld
          refine ⟨other, ?_, rfl⟩
          have otherLess : other.maxTxid < txid := by
            rcases tiled.apart _ keyHeld _ held (by omega)
              (Nat.lt_of_le_of_lt source (by decide)) with
              apart | apart | same
            · omega
            · have otherOrdered := (tiled.ordered _ keyHeld).2
              omega
            · rw [same] at before
              omega
          apply mem_keepNewest
          · exact List.mem_filter.mpr
              ⟨otherListed, decide_eq_true otherLess⟩
          · intro isLast
            have greatest := min_le_getLast? ordered isLast file inside
            omega
        · exact spared source ⟨file, member, (tiled.mem_pending source).mpr
            ⟨inside, by omega⟩⟩

theorem enforceRetentionByTxid_trims {level : Nat} {rest : List Nat}
    {base : Levels} (txid : Nat) (tiled : Tiled start front next)
    (trimmed : Trimmed start front next (level :: rest) base)
    (fresh : level ∉ rest)
    (spared : level ≤ lastSource →
      (∃ file ∈ belowTxid (start.files.list level) txid,
        file ∈ start.pending level) →
      ∀ above ≤ lastSource, level < above → start.pending above = []) :
    Holds (Same base) (enforceRetentionByTxid level txid)
      (fun _ => Trimmed start front next rest) Levels.Tidy := by
  apply ((current_spec base).weaken (fun _ same => same)
    (fun _ _ reached => reached) fun _ same => (trimmed.same same).tidy).bind
  intro value
  apply holds_of_fact
  intro same
  rw [same.files]
  obtain ⟨next', baseTiled, idle⟩ := trimmed.tiled
  have doomed := @Tiled.belowTxid_doomed _ _ _ baseTiled level txid (by
    intro source found above coarser inside
    rw [trimmed.lists level (by simp) source] at found
    obtain ⟨file, member, waiting⟩ := found
    have quiet := spared source ⟨file, member, by
      obtain ⟨listed, beyond⟩ := (baseTiled.mem_pending source).mp waiting
      rw [trimmed.lists level (by simp) source] at listed
      exact (tiled.mem_pending source).mpr ⟨listed, beyond⟩⟩ above inside
      coarser
    exact (idle above inside).mpr ((tiled.pending_eq_nil inside).mp quiet))
  have relative : Doomed front next level
      (belowTxid (base.files.list level) txid) base :=
    { doomed with
      waits := by
        intro source file member
        rcases doomed.waits source file member with taken | ⟨before, quiet⟩
        · exact .inl taken
        · exact .inr ⟨before, fun above coarser inside =>
            (idle above inside).mp (quiet above coarser inside)⟩ }
  have kept : Trimmed start front next rest base :=
    ⟨trimmed.tiled, fun other member => trimmed.lists other (by simp [member])⟩
  apply (deleteFiles_trims kept relative fun member =>
    absurd member fresh).bind
  exact fun _ => holds_pure fun _ reached => reached

theorem cascadeRetention_trims {maxLevel txid : Nat} {base : Levels}
    (tiled : Tiled start front next) (spares : start.Spares maxLevel txid)
    (trimmed : Trimmed start front next (List.range (maxLevel + 1)) base) :
    Holds (Same base) (cascadeRetention maxLevel txid)
      (fun _ => Levels.Tidy) Levels.Tidy := by
  have loop : Holds
      (fun state => Trimmed start front next (List.range (maxLevel + 1)) state ∧
        (List.range (maxLevel + 1)).Nodup ∧
        ∀ level ∈ List.range (maxLevel + 1), level ≤ maxLevel)
      (cascadeRetention maxLevel txid)
      (fun _ state => Trimmed start front next [] state ∧
        ([] : List Nat).Nodup ∧ ∀ level ∈ ([] : List Nat), level ≤ maxLevel)
      Levels.Tidy := by
    apply holds_forEach fun (rest : List Nat) state =>
      Trimmed start front next rest state ∧ rest.Nodup ∧
        ∀ level ∈ rest, level ≤ maxLevel
    intro level rest
    apply holds_of_start Same.refl
    intro state reached
    obtain ⟨reached, distinct, within⟩ := reached
    obtain ⟨fresh, others⟩ := List.nodup_cons.mp distinct
    apply (enforceRetentionByTxid_trims txid tiled reached fresh
      (spares level (within level (by simp)))).bind
    intro _
    apply holds_pure
    exact fun _ final => ⟨final, others, fun other member =>
      within other (by simp [member])⟩
  apply loop.weaken
  · intro state same
    refine ⟨trimmed.same same, List.nodup_range, ?_⟩
    intro level member
    exact Nat.le_of_lt_succ (List.mem_range.mp member)
  · exact fun _ _ reached => reached.1.tidy
  · exact fun _ tidy => tidy

theorem enforceSnapshotRetention_tidy {now : Int} {retention maxLevel : Nat}
    (tiled : Tiled start front next)
    (spares : start.Spares maxLevel
      (snapshotExpired (start.files.list snapshotLevel)
        (cutoffTime now retention)).2) :
    Holds (Same start) (enforceSnapshotRetention now retention maxLevel)
      (fun _ => Levels.Tidy) Levels.Tidy := by
  have tidy : start.Tidy := ⟨front, next, tiled⟩
  apply ((current_spec start).weaken (fun _ same => same)
    (fun _ _ reached => reached) fun _ same => tidy.same same).bind
  intro value
  apply holds_of_fact
  intro same
  simp only [same.files]
  have trimmed : Trimmed start front next (List.range (maxLevel + 1)) start :=
    ⟨⟨next, tiled, fun _ _ => Iff.rfl⟩, fun _ _ _ => rfl⟩
  have specs := (snapshotExpired_spec (cutoffTime now retention)
    (start.files.nodup_list snapshotLevel)).1
  have doomed : Doomed front next snapshotLevel
      (snapshotExpired (start.files.list snapshotLevel)
        (cutoffTime now retention)).1 start := by
    have listed := fun file member => tiled.listed (specs file member).1
    constructor
    case ascending =>
        exact (start.files.ordered_list snapshotLevel).sublist
          (snapshotExpired_sublist _ _)
    case placed => exact fun file member => (listed file member).2
    case held => exact fun file member => (listed file member).1
    case newest => exact fun impossible => absurd impossible (Nat.lt_irrefl _)
    case waits =>
        exact fun impossible => absurd impossible (by decide)
  apply (deleteFiles_trims trimmed doomed fun _ => by decide).bind
  intro _
  split
  · apply holds_of_start Same.refl
    intro state reached
    apply (cascadeRetention_trims tiled spares reached).bind
    exact fun _ => holds_pure fun _ final => final
  · exact holds_pure fun _ reached => reached.tidy

/-- L0 retention deletes only what the first level has taken. -/
theorem enforceL0Retention_tidy (now : Int) (retention : Nat)
    (tiled : Tiled start front next) :
    Holds (Same start) (enforceL0Retention now retention)
      (fun _ => Levels.Tidy) Levels.Tidy := by
  have tidy : start.Tidy := ⟨front, next, tiled⟩
  unfold enforceL0Retention
  split
  · exact holds_pure fun _ same => tidy.same same
  · apply ((current_spec start).weaken (fun _ same => same)
      (fun _ _ reached => reached) fun _ same => tidy.same same).bind
    intro value
    apply holds_of_fact
    intro same
    simp only [same.files]
    have specs := l0Expired_spec (maxOf (start.files.list 1))
      (cutoffTime now retention) (start.files.nodup_list level0)
    rw [show maxOf (start.files.list 1) = front 1 from
      tiled.maxOf_eq (by decide)] at specs ⊢
    have trimmed : Trimmed start front next [] start :=
      ⟨⟨next, tiled, fun _ _ => Iff.rfl⟩, fun _ _ _ => rfl⟩
    have doomed : Doomed front next level0 (l0Expired
        (start.files.list level0) (front 1) (cutoffTime now retention))
        start := by
      have listed := fun file member => tiled.listed (specs file member).1
      constructor
      case ascending =>
          exact (start.files.ordered_list level0).sublist
            (l0Expired_sublist _ _ _)
      case placed => exact fun file member => (listed file member).2
      case held => exact fun file member => (listed file member).1
      case newest =>
          intro below file member
          obtain ⟨inside, notLast, _⟩ := specs file member
          exact tiled.lt_front below inside notLast
      case waits =>
          exact fun _ file member => .inl (specs file member).2.2
    apply (deleteFiles_trims trimmed doomed (by simp)).bind
    exact fun _ => holds_pure fun _ reached => reached.tidy

end Deleting

/-! ## Runs -/

section Runs

variable {history : History}

/-- What a level compaction merges goes on where the level ended and reaches
the frontier of its source. -/
theorem Tiled.compacts {start : Levels} {front next : Nat → Nat}
    {dstLevel : Nat} {first last : LtxFileInfo} {merged : LtxFile}
    (tiled : Tiled start front next) (clock : Int)
    (compacts : CompactsInto start dstLevel first last merged) :
    (start.put clock ⟨dstLevel, first.minTxid, last.maxTxid⟩ merged).Tidy := by
  obtain ⟨positive, coarsest⟩ := compacts.level
  obtain ⟨level, rfl⟩ : ∃ level, dstLevel = level + 1 :=
    Nat.exists_eq_succ_of_ne_zero (by omega)
  have source : level ≤ lastSource :=
    Nat.le_of_lt_succ (Nat.lt_of_succ_lt_succ coarsest)
  obtain ⟨_, heads, lasts⟩ := tiled.pending_chain source
  have begins := heads first compacts.first
  have ends := lasts last compacts.last
  have waiting : next (level + 1) ≤ front level := by
    have member : last ∈ start.pending level :=
      List.mem_of_getLast? compacts.last
    have starts := tiled.le_pending source member
    have listed := tiled.listed ((tiled.mem_pending source).mp member).1
    have ordered := (tiled.ordered _ listed.1).2
    omega
  rw [begins, ends]
  exact ⟨_, _, tiled.compacted clock merged source waiting⟩

theorem call_tidy {encodedSize : LtxFile → Nat} {start : Levels}
    {call : LevelsCall} (tidy : start.Tidy)
    (cascades : ∀ clock, call ≠ .compact clock)
    (spares : ∀ now retention maxLevel,
      call = .enforceSnapshotRetention now retention maxLevel →
        start.Spares maxLevel
          (snapshotExpired (start.files.list snapshotLevel)
            (cutoffTime now retention)).2) :
    Holds (Same start) (call.run encodedSize) (fun _ => Levels.Tidy)
      Levels.Tidy := by
  have kept : ∀ state, Same start state → state.Tidy :=
    fun _ same => tidy.same same
  obtain ⟨front, next, tiled⟩ := tidy
  cases call with
  | sync clock file =>
      apply (syncFile_effect start encodedSize clock file).weaken
        (fun _ same => same) _ kept
      intro _ final synced
      exact ⟨_, _, (tiled.sync clock file).same
        ⟨synced.store, synced.files, synced.txid⟩⟩
  | compactLevel clock dstLevel =>
      apply effect_ok
      apply (compactLevel_effect start clock dstLevel).weaken
        (fun _ same => same) _ kept
      intro _ final changed
      rcases changed with same | ⟨first, last, merged, compacts, same⟩
      · exact kept final same
      · exact (tiled.compacts clock compacts).same same
  | snapshot clock =>
      apply effect_ok
      apply (snapshot_effect start clock).weaken (fun _ same => same) _ kept
      intro _ final changed
      rcases changed with same | ⟨merged, snapshots, same⟩
      · exact kept final same
      · have synced : 1 ≤ headTxid start.files.allLevels := by
          obtain ⟨key, member⟩ :=
            List.exists_mem_of_ne_nil _ snapshots.nonempty
          have held := (tiled.indexed key).mp
            (Std.ExtTreeMap.mem_keys.mp member)
          have ordered := tiled.ordered key held
          have below := maxTxid_le_headTxid member
          omega
        exact ⟨front, next, (tiled.snapshot clock merged synced).same same⟩
  | enforceSnapshotRetention now retention maxLevel =>
      exact effect_ok (enforceSnapshotRetention_tidy tiled
        (spares now retention maxLevel rfl))
  | enforceL0Retention now retention =>
      exact effect_ok (enforceL0Retention_tidy now retention tiled)
  | compact clock => exact absurd rfl (cascades clock)
  | restamp key createdAt =>
      apply holds_change
      intro state same
      have stateTiled := tiled.same same
      split
      · rename_i present
        refine ⟨front, next, { stateTiled with indexed := ?_ }⟩
        intro other
        change other ∈ state.files.insert key createdAt ↔ other ∈ state.store
        rw [OrderedMap.mem_insert, ← stateTiled.indexed]
        constructor
        · intro found
          rcases found with rfl | member
          · exact Std.ExtTreeMap.contains_iff_mem.mp present
          · exact member
        · exact .inr
      · exact ⟨front, next, stateTiled⟩

/-- Synced files follow the history, the single-base compaction is not used,
and snapshot retention takes away a waiting file only where no coarser level
has anything waiting. -/
def History.keepsChain (history : History) (state : Levels)
    (action : LevelsAction) : Prop :=
  history.cascades state action ∧
    match action.call with
    | .enforceSnapshotRetention now retention maxLevel =>
        state.Spares maxLevel
          (snapshotExpired (state.files.list snapshotLevel)
            (cutoffTime now retention)).2
    | _ => True

theorem Levels.Tidy.step {encodedSize : LtxFile → Nat} {state next : Levels}
    {action : LevelsAction} (tidy : state.Tidy)
    (allowed : history.keepsChain state action)
    (stepped : state.step encodedSize action = some next) : next.Tidy := by
  obtain ⟨faults, call⟩ := action
  cases stepped
  obtain ⟨cascades, spares⟩ := allowed
  have started : Same state { state with faults := faults } := ⟨rfl, rfl, rfl⟩
  have reached := (@call_tidy encodedSize state call tidy
    (by
      rintro clock rfl
      exact cascades)
    (by
      rintro now retention maxLevel rfl
      exact spares)).final started
  exact reached.same ⟨rfl, rfl, rfl⟩

/-- After any run in which snapshot retention keeps to that, no level
compaction fails while the store is intact. -/
theorem compactLevel_never_stalls {encodedSize : LtxFile → Nat}
    {state : Levels} {dstLevel : Nat}
    (oneSize : ∀ left right, history.pageSize left = history.pageSize right)
    (run : Machine.Reaches (Levels.step encodedSize) history.keepsChain
      Levels.empty state) (clock : Int)
    (configured : 1 ≤ dstLevel ∧ dstLevel < snapshotLevel) :
    ∃ outcome final, compactLevel clock dstLevel { state with faults := [] } =
      (.ok outcome, final) := by
  have tidy : state.Tidy :=
    run.invariant ⟨_, _, tiled_empty⟩ fun _ _ _ tidy allowed stepped =>
      tidy.step allowed stepped
  have replicaOk : ReplicaOk history state :=
    run.invariant ⟨0, levelsOk_empty history⟩ fun _ _ _ ok allowed stepped =>
      ok.cascade allowed.1 stepped
  obtain ⟨anchor, ok⟩ := replicaOk
  obtain ⟨front, next, tiled⟩ := tidy
  have same : Same state { state with faults := [] } := ⟨rfl, rfl, rfl⟩
  exact compactLevel_succeeds clock (same.ok ok) (tiled.same same) oneSize rfl
    configured

end Runs

/-! ## A stalled level -/

/-- Two steps folded into L1, a third one, and a snapshot. -/
def waitingChoices : List (Levels → LevelsAction) :=
  [hotSync, hotSync,
    fun _ => { faults := [], call := .compactLevel 0 1 },
    hotSync,
    fun _ => { faults := [], call := .snapshot 0 }]

def waitingLevels : Levels := Levels.empty.play (fun _ => 0) waitingChoices

/-- Snapshot retention cuts the first two L0 files, which L1 has taken. -/
def cutBelow : LevelsAction where
  faults := []
  call := .enforceSnapshotRetention 10 100 3

def sparedLevels : Levels := waitingLevels.after (fun _ => 0) cutBelow

theorem sparedLevels_reached :
    Machine.Reaches (Levels.step fun _ => 0) hotPage.keepsChain Levels.empty
      sparedLevels := by
  have waiting : Machine.Reaches (Levels.step fun _ => 0) hotPage.keepsChain
      Levels.empty waitingLevels := by
    apply reaches_play
    intro choose member state
    simp only [waitingChoices, List.mem_cons, List.not_mem_nil,
      or_false] at member
    rcases member with rfl | rfl | rfl | rfl | rfl
    · exact ⟨hotSync_synced state, trivial⟩
    · exact ⟨hotSync_synced state, trivial⟩
    · exact ⟨trivial, trivial⟩
    · exact ⟨hotSync_synced state, trivial⟩
    · exact ⟨trivial, trivial⟩
  have spares : waitingLevels.Spares 3
      (snapshotExpired (waitingLevels.files.list snapshotLevel)
        (cutoffTime 10 100)).2 := by
    decide +kernel
  have allowed : hotPage.keepsChain waitingLevels cutBelow :=
    ⟨trivial, spares⟩
  exact .tail waiting allowed rfl

theorem compactLevel_never_stalls_spared :
    ∃ outcome final, compactLevel 20 1 { sparedLevels with faults := [] } =
      (.ok outcome, final) :=
  compactLevel_never_stalls (fun _ _ => rfl) sparedLevels_reached 20
    (by decide)

/-- One step folded into L1, two more, a snapshot, a retention that cuts L0 2
although L1 does not hold it yet, and another level compaction. -/
def stalledChoices : List (Levels → LevelsAction) :=
  [hotSync,
    fun _ => { faults := [], call := .compactLevel 0 1 },
    hotSync, hotSync,
    fun _ => { faults := [], call := .snapshot 0 },
    fun _ => cutBelow,
    fun _ => { faults := [], call := .compactLevel 0 1 }]

def stalledLevels : Levels := Levels.empty.play (fun _ => 0) stalledChoices

/-- L1 holds TXIDs 1 and 3 but not 2, and L2 rejects them for good. -/
theorem cut_level_stalls :
    Machine.Reaches (Levels.step fun _ => 0)
      (fun state action => hotPage.cascades state action ∧ action.faults = [])
      Levels.empty stalledLevels ∧
    (compactLevel 20 2 stalledLevels).1 =
      .error (.ltx (.unexpectedPage 1 3)) := by
  refine ⟨?_, by decide +kernel⟩
  apply reaches_play
  intro choose member state
  simp only [stalledChoices, List.mem_cons, List.not_mem_nil,
    or_false] at member
  rcases member with rfl | rfl | rfl | rfl | rfl | rfl | rfl
  · exact ⟨hotSync_synced state, rfl⟩
  · exact ⟨trivial, rfl⟩
  · exact ⟨hotSync_synced state, rfl⟩
  · exact ⟨hotSync_synced state, rfl⟩
  · exact ⟨trivial, rfl⟩
  · exact ⟨trivial, rfl⟩
  · exact ⟨trivial, rfl⟩

end Literstream
