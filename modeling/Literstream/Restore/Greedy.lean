import Literstream.Restore.Plan

/-!
# The greedy cover is the best there is

Taking the file that reaches furthest leads as far as any chain of files does,
with as few files.  The planners inherit this: a delta plan fails exactly on a
gap, and a later target never restores less.
-/

namespace Literstream

theorem betterFile_max (best next : FileKey) :
    best.maxTxid ≤ (betterFile best next).maxTxid ∧
      next.maxTxid ≤ (betterFile best next).maxTxid := by
  unfold betterFile
  split <;> constructor <;> omega

theorem foldl_betterFile_max (files : List FileKey) (first : FileKey) :
    first.maxTxid ≤ (files.foldl betterFile first).maxTxid ∧
      ∀ key ∈ files, key.maxTxid ≤ (files.foldl betterFile first).maxTxid := by
  induction files generalizing first with
  | nil => exact ⟨Nat.le_refl _, by simp⟩
  | cons next rest ih =>
      obtain ⟨best, later⟩ := ih (betterFile first next)
      obtain ⟨left, right⟩ := betterFile_max first next
      rw [List.foldl_cons]
      refine ⟨Nat.le_trans left best, ?_⟩
      intro key member
      rcases List.mem_cons.mp member with rfl | inRest
      · exact Nat.le_trans right best
      · exact later key inRest

/-- No candidate reaches further than the one that is taken. -/
theorem maxTxid_le_furthest {files : List FileKey} {best key : FileKey}
    (found : furthest files = some best) (member : key ∈ files) :
    key.maxTxid ≤ best.maxTxid := by
  cases files with
  | nil => cases member
  | cons first rest =>
      obtain ⟨initial, later⟩ := foldl_betterFile_max rest first
      cases found
      rcases List.mem_cons.mp member with rfl | inRest
      · exact initial
      · exact later key inRest

theorem nextFile_picksFurthest (files : List FileKey) :
    Cover.PicksFurthest FileKey.minTxid FileKey.maxTxid files (nextFile files)
    where
  toPicks := nextFile_picks files
  furthest := by
    intro pos best picked key member extends_
    apply maxTxid_le_furthest picked
    simp [member, extends_]

/-- A plan is a chain of listed files. -/
structure ListedChain (files : List FileKey) (start : Nat)
    (plan : List FileKey) (finish : Nat) : Prop where
  listed : ∀ key ∈ plan, key ∈ files
  chain : FileChain start plan finish

/-- What the greedy cover returns: the whole walk, a chain that leads as far as
any other, and no chain that leads there has fewer files. -/
structure BestCover (files : List FileKey) (start : Nat)
    (cover : List FileKey × Nat) : Prop where
  walk : Cover.Walk FileKey.maxTxid (nextFile files) start cover.1 cover.2
  chain : ListedChain files start cover.1 cover.2
  furthest : ∀ plan finish, ListedChain files start plan finish →
    finish ≤ cover.2
  fewest : ∀ plan, ListedChain files start plan cover.2 →
    cover.1.length ≤ plan.length

theorem greedyCover_best (files : List FileKey) (start : Nat) :
    BestCover files start (greedyCover files start) where
  walk := Cover.run_walk _ (Cover.run_stuck (nextFile_picks files) _ _
    (List.length_filter_le _ _))
  chain := ⟨greedyCover_subset files start, greedyCover_chain files start⟩
  furthest := fun _ _ other =>
    Cover.run_furthest (nextFile_picks files) other.chain other.listed
      (Nat.le_refl _)
  fewest := fun _ other =>
    Cover.run_fewest (nextFile_picksFurthest files) other.chain other.listed
      (Nat.le_refl _)

/-- A delta plan fails on a gap and on nothing else. -/
theorem planRestoreFrom_gap_iff {files : List FileKey} {fromTxid : Nat}
    (behind : fromTxid < headTxid files) :
    planRestoreFrom files fromTxid = .error (.chainGap fromTxid) ↔
      ¬ ∃ plan, ListedChain files fromTxid plan (headTxid files) := by
  have best := greedyCover_best files fromTxid
  have bounded := greedyCover_le_headTxid (Nat.le_of_lt behind)
  rw [planRestoreFrom, if_neg (Nat.not_le.mpr behind)]
  constructor
  · rintro failed ⟨plan, chain⟩
    have reached := best.furthest plan _ chain
    rw [if_neg (Nat.not_lt.mpr reached)] at failed
    cases failed
  · intro gap
    apply if_pos
    by_contra reached
    have same : (greedyCover files fromTxid).2 = headTxid files := by omega
    have chain := best.chain
    rw [same] at chain
    exact gap ⟨_, chain⟩

/-- The last file of a plan ends where the walk does. -/
theorem planRestore_getLast? {files plan : List FileKey}
    (planned : planRestore files = .ok plan) :
    ∃ last, plan.getLast? = some last ∧
      last.maxTxid = (greedyCover files 0).2 := by
  obtain ⟨rfl, starts⟩ := planRestore_eq_ok planned
  have nonempty : (greedyCover files 0).1 ≠ [] := by
    intro empty
    rw [empty] at starts
    cases starts
  have isLast := List.getLast?_eq_some_getLast nonempty
  exact ⟨_, isLast, (greedyCover_chain files 0).getLast?_eq isLast⟩

/-- Where TXIDs count from 1, a restore plan exists as soon as some file begins
the chain. -/
theorem planRestore_succeeds {files : List FileKey}
    (counted : ∀ key ∈ files, 1 ≤ key.minTxid)
    (begins : ∃ key ∈ files, key.candidate 0 = true) :
    planRestore files = .ok (greedyCover files 0).1 := by
  obtain ⟨key, member, first⟩ := begins
  apply planRestore_of_head
  cases picked : nextFile files 0 with
  | none =>
      exact absurd (FileKey.candidate_iff.mp first)
        ((nextFile_picks files).complete 0 picked key member)
  | some best =>
      obtain ⟨listed, extends_⟩ := (nextFile_picks files).sound 0 best picked
      have positive := counted best listed
      have starts := extends_.1
      rw [Option.map_some, Option.some.injEq]
      omega

/-- A later target restores at least as much. -/
theorem planRestoreTo_mono {files plan : List FileKey} {target later : Nat}
    (counted : ∀ key ∈ files, 1 ≤ key.minTxid) (ordered : target ≤ later)
    (planned : planRestoreTo files target = .ok plan) :
    ∃ laterPlan last laterLast, planRestoreTo files later = .ok laterPlan ∧
      plan.getLast? = some last ∧ laterPlan.getLast? = some laterLast ∧
      last.maxTxid ≤ laterLast.maxTxid := by
  have wider : ∀ key ∈ files.filter (fun key => key.maxTxid ≤ target),
      key ∈ files.filter fun key => key.maxTxid ≤ later := by
    intro key member
    obtain ⟨listed, ends⟩ := List.mem_filter.mp member
    have below := of_decide_eq_true ends
    exact List.mem_filter.mpr ⟨listed, decide_eq_true (by omega)⟩
  obtain ⟨last, isLast, ends⟩ := planRestore_getLast? planned
  have chain := (greedyCover_best
    (files.filter fun key => key.maxTxid ≤ target) 0).chain
  have begins : ∃ key ∈ files.filter (fun key => key.maxTxid ≤ later),
      key.candidate 0 = true := by
    obtain ⟨same, starts⟩ := planRestore_eq_ok planned
    rw [same] at starts
    cases cover : (greedyCover
        (files.filter fun key => key.maxTxid ≤ target) 0).1 with
    | nil =>
        rw [cover] at starts
        cases starts
    | cons first rest =>
        rw [cover] at chain
        exact ⟨first, wider first (chain.listed first List.mem_cons_self),
          FileKey.candidate_iff.mpr chain.chain.head_extends⟩
  have laterPlanned := planRestore_succeeds
    (fun key member => counted key (List.mem_of_mem_filter member)) begins
  obtain ⟨laterLast, laterIsLast, laterEnds⟩ :=
    planRestore_getLast? laterPlanned
  refine ⟨_, last, laterLast, laterPlanned, isLast, laterIsLast, ?_⟩
  rw [ends, laterEnds]
  exact (greedyCover_best _ 0).furthest _ _
    ⟨fun key member => wider key (chain.listed key member), chain.chain⟩

/-- The planners over every listing. -/
theorem planners_best (files : List FileKey)
    (counted : ∀ key ∈ files, 1 ≤ key.minTxid) :
    (∀ start, BestCover files start (greedyCover files start)) ∧
      (∀ fromTxid, fromTxid < headTxid files →
        (planRestoreFrom files fromTxid = .error (.chainGap fromTxid) ↔
          ¬ ∃ plan, ListedChain files fromTxid plan (headTxid files))) ∧
      ∀ target later plan, target ≤ later →
        planRestoreTo files target = .ok plan →
        ∃ laterPlan last laterLast,
          planRestoreTo files later = .ok laterPlan ∧
            plan.getLast? = some last ∧
            laterPlan.getLast? = some laterLast ∧
            last.maxTxid ≤ laterLast.maxTxid :=
  ⟨greedyCover_best files, fun _ behind => planRestoreFrom_gap_iff behind,
    fun _ _ _ ordered planned => planRestoreTo_mono counted ordered planned⟩

theorem planners_best_chain :
    BestCover [⟨0, 1, 1⟩, ⟨0, 2, 2⟩, ⟨1, 1, 2⟩] 0
      (greedyCover [⟨0, 1, 1⟩, ⟨0, 2, 2⟩, ⟨1, 1, 2⟩] 0) :=
  (planners_best [⟨0, 1, 1⟩, ⟨0, 2, 2⟩, ⟨1, 1, 2⟩] (by decide)).1 0

end Literstream
