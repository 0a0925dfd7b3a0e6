import Literstream.Restore.CatchUp

/-!
# Full restores of a listing with a gap

The delta planner compares what its walk reached with the highest TXID listed;
`planRestore` only looks at the file its walk starts with.  On a listing that
starts at TXID 1 and breaks off later, a full restore therefore returns the
image in front of the gap.
-/

namespace Literstream

open PagedFile Std

namespace History

/-- An image at a TXID, up to the lock page, which no file holds. -/
def Shows (history : History) (txid : Nat) (image : Bytes) : Prop :=
  image.length = history.size txid * history.pageSize txid ∧
    ∀ pgno, history.Stored txid pgno →
      pageAt (history.pageSize txid) pgno image = history.content txid pgno

/-- Every full restore of the replica that succeeds is one of the highest TXID
listed. -/
structure RestoresHead (history : History) (store : Store) : Prop where
  restore : ∀ image, Literstream.restore store = .ok image →
    history.Shows (headTxid (listAllLtx store)) image ∧
      ((∀ left right, left ≤ right → history.LockSafe left right) →
        image = history.image (headTxid (listAllLtx store)))
  restoreToPath : ∀ (disk : Disk) (txid : Nat),
    (Literstream.restoreToPath store).result = .ok txid →
      txid = headTxid (listAllLtx store) ∧
        (disk.run (Literstream.restoreToPath store).ops).file =
          some (history.image (headTxid (listAllLtx store)))
  catchUp : ∀ (disk : Disk) (txid : Nat) (reason : FallbackReason),
    (Literstream.catchUp store disk).result =
        .ok (.fullRestore txid reason) →
      txid = headTxid (listAllLtx store) ∧
        (disk.run (Literstream.catchUp store disk).ops).file =
          some (history.image (headTxid (listAllLtx store)))

variable {history : History}

/-- A script that reports a full restore did nothing else. -/
def OnlyRestores (store : Store) (script : Script FileOp SyncError CatchUp) :
    Prop :=
  ∀ txid reason, script.result = .ok (.fullRestore txid reason) →
    (Literstream.restoreToPath store).result = .ok txid ∧
      script.ops = (Literstream.restoreToPath store).ops

theorem onlyRestores_fullRestore (store : Store) (reason : FallbackReason) :
    OnlyRestores store (Literstream.fullRestore store reason) := by
  intro txid stated done
  obtain ⟨reached, restored, same, ops⟩ := Script.result_bind_eq_ok done
  cases same
  refine ⟨restored, ?_⟩
  rw [Literstream.fullRestore, ops]
  exact List.append_nil _

theorem onlyRestores_catchUp (store : Store) (disk : Disk) :
    OnlyRestores store (Literstream.catchUp store disk) := by
  unfold Literstream.catchUp
  split
  · exact onlyRestores_fullRestore store _
  · exact onlyRestores_fullRestore store _
  · split
    · exact onlyRestores_fullRestore store _
    · split
      · exact onlyRestores_fullRestore store _
      · split
        · rintro txid reason ⟨⟩
        · split
          · exact onlyRestores_fullRestore store _
          · rintro txid reason ⟨⟩
          · split
            · rintro txid reason ⟨⟩
            · rename_i plan planned nonempty
              cases scanned : deltaShape store plan with
              | error error =>
                  rintro txid reason ⟨⟩
              | ok shape =>
                  rw [Script.lift_ok_bind]
                  split
                  · exact onlyRestores_fullRestore store _
                  · intro txid reason done
                    obtain ⟨reached, applied, stated, ops⟩ :=
                      Script.result_bind_eq_ok done
                    cases stated

/-! ## Without a gap -/

/-- A plan in memory shows the image that it reaches. -/
theorem applyPlan_shows {store : Store} {plan : List FileKey} {finish : Nat}
    (faithful : history.FaithfulStore store)
    (listed : ∀ key ∈ plan, key ∈ listAllLtx store)
    (chain : FileChain 0 plan finish) :
    ∃ image, applyPlan store plan [] = .ok image ∧
      history.Shows finish image := by
  obtain ⟨files, keys, loaded, filesFaithful⟩ := exists_planned faithful listed
  subst keys
  apply applyPlan_stored loaded filesFaithful chain
  · simp [history.empty]
  · intro pgno stored
    have inside := stored.2.1
    have positive := stored.1
    rw [history.empty] at inside
    omega

/-- Where the walk of `planRestore` gets through, every full restore that
succeeds is one of the highest TXID. -/
theorem RestoresHead.of_reached {store : Store}
    (faithful : history.FaithfulStore store)
    (reached : ∀ plan, planRestore (listAllLtx store) = .ok plan →
      FileChain 0 plan (headTxid (listAllLtx store))) :
    history.RestoresHead store := by
  have onDisk : ∀ (disk : Disk) (txid : Nat),
      (Literstream.restoreToPath store).result = .ok txid →
        txid = headTxid (listAllLtx store) ∧
          (disk.run (Literstream.restoreToPath store).ops).file =
            some (history.image (headTxid (listAllLtx store))) := by
    intro disk txid done
    cases planned : planRestore (listAllLtx store) with
    | error error =>
        rw [Literstream.restoreToPath, planned] at done
        cases done
    | ok plan =>
        have chain := reached plan planned
        obtain ⟨same, _⟩ := planRestore_eq_ok planned
        obtain ⟨files, keys, loaded, filesFaithful⟩ :=
          exists_planned faithful (same ▸ greedyCover_subset _ 0)
        subst keys
        rw [Literstream.restoreToPath, planned, Script.lift_ok_bind] at done ⊢
        obtain ⟨ends, image⟩ :=
          applyPlanToPath_image disk loaded filesFaithful chain done
        exact ⟨ends, by rw [image]; rfl⟩
  refine ⟨?_, onDisk, ?_⟩
  · intro image done
    rw [Literstream.restore, bind_eq_ok] at done
    obtain ⟨plan, planned, applied⟩ := done
    have chain := reached plan planned
    obtain ⟨same, _⟩ := planRestore_eq_ok planned
    have listed : ∀ key ∈ plan, key ∈ listAllLtx store :=
      same ▸ greedyCover_subset _ 0
    constructor
    · obtain ⟨other, overlaid, shows_⟩ := applyPlan_shows faithful listed chain
      rw [overlaid] at applied
      cases applied
      exact shows_
    · intro safe
      obtain ⟨files, keys, loaded, filesFaithful⟩ :=
        exists_planned faithful listed
      subst keys
      have exact_ := applyPlan_files loaded filesFaithful chain
        fun left right ordered _ => safe left right ordered
      rw [history.image_zero, applied] at exact_
      cases exact_
      rfl
  · intro disk txid reason done
    obtain ⟨restored, ops⟩ := onlyRestores_catchUp store disk txid reason done
    rw [ops]
    exact onDisk disk txid restored

/-! ## In front of a gap -/

/-- Every range of a history has a faithful file. -/
theorem exists_faithful (history : History) (first last : Nat)
    (sized : isValidPageSize (history.pageSize last) = true) :
    ∃ file, history.Faithful first last file := by
  classical
  by_cases ordered : max 1 first ≤ last
  · refine ⟨history.file (max 1 first) last 0 sized (by omega), rfl, rfl, ?_⟩
    intro pgno data
    have range : 1 ≤ max 1 first ∧ max 1 first ≤ last := by omega
    have faithful : history.Faithful (max 1 first) last
        (history.file (max 1 first) last 0 sized range) :=
      faithful_file history sized range
    rw [faithful.pages pgno data]
    constructor
    · rintro ⟨stored, written, same⟩
      exact ⟨stored, written.mono (by omega) (Nat.le_refl _), same⟩
    · rintro ⟨stored, written, same⟩
      refine ⟨stored, ?_, same⟩
      rcases Nat.eq_zero_or_pos first with rfl | positive
      · exact stored.writtenIn
      · exact written.mono (by omega) (Nat.le_refl _)
  · refine ⟨{
      header := noChecksumHeader (history.pageSize last) (history.size last)
        1 1 0 0 0 0 0
      pages := []
      valid := by simp [Header.validate, noChecksumHeader, sized]
      ascending := List.Pairwise.nil
      pagesOk := by simp }, rfl, rfl, ?_⟩
    intro pgno data
    simp only [List.not_mem_nil, false_iff, not_and]
    rintro ⟨positive, inside, _⟩ ⟨txid, after, before, _⟩
    obtain rfl : last = 0 := by omega
    rw [history.empty] at inside
    omega

/-- The same listing, with files that are faithful to a given history. -/
theorem exists_listing (history : History)
    (sized : ∀ txid, isValidPageSize (history.pageSize txid) = true)
    (replica : Store) :
    ∃ store, history.FaithfulStore store ∧
      listAllLtx store = listAllLtx replica := by
  choose file faithful using fun key : FileKey =>
    exists_faithful history key.minTxid key.maxTxid (sized key.maxTxid)
  refine ⟨replica.map fun key _ => file key, ?_, ?_⟩
  · intro key held stored
    rw [ExtTreeMap.getElem?_map, Option.map_eq_some_iff] at stored
    obtain ⟨_, _, same⟩ := stored
    rw [← same]
    exact faithful key
  · rw [listAllLtx, ExtTreeMap.keys_map, listAllLtx]

/-- One page that changes at one TXID only. -/
def turning (turn : Nat) : History :=
  filled 512 sector_pos (fun txid => min txid 1) single_empty fun txid _ =>
    if txid < turn then 0 else 1

/-- The page tells the two sides of the change apart. -/
theorem turning_shows {turn txid : Nat} {image : Bytes} (positive : 1 ≤ txid)
    (earlier : txid < turn) (shows_ : (turning turn).Shows txid image) :
    ¬ (turning turn).Shows turn image := by
  intro later
  have stored : ∀ reached, 1 ≤ reached → (turning turn).Stored reached 1 := by
    intro reached begun
    refine ⟨Nat.le_refl 1, ?_, ?_⟩
    · change 1 ≤ min reached 1
      omega
    · change 1 ≠ lockPgno 512
      decide
  have before := shows_.2 1 (stored txid positive)
  have after := later.2 1 (stored turn (by omega))
  have same : (turning turn).content txid 1 = (turning turn).content turn 1 :=
    before.symm.trans after
  have notLock : ¬ 1 = lockPgno 512 := by decide
  simp only [turning, filled, notLock, if_false, earlier, if_true,
    Nat.lt_irrefl] at same
  exact absurd (List.replicate_right_injective (by decide) same) (by decide)

/-- Every full restore of a listing reaches its highest TXID, whatever the
files hold, exactly when the listing has no gap behind the file that the plan
starts with, or there is no such file. -/
theorem full_restores_gapless_iff (replica : Store) :
    (∀ (history : History) (store : Store), history.FaithfulStore store →
      listAllLtx store = listAllLtx replica → history.RestoresHead store) ↔
    FilesCover (listAllLtx replica) 0 (headTxid (listAllLtx replica)) ∨
      ∀ first, nextFile (listAllLtx replica) 0 = some first →
        first.minTxid ≠ 1 := by
  constructor
  · intro always
    by_contra! gap
    obtain ⟨broken, first, picked, begins⟩ := gap
    have chain := greedyCover_chain (listAllLtx replica) 0
    have short : (greedyCover (listAllLtx replica) 0).2 <
        headTxid (listAllLtx replica) := by
      by_contra reached
      exact broken (covers_of_greedyCover (by omega))
    have begun : 1 ≤ (greedyCover (listAllLtx replica) 0).2 := by
      have ends := ((nextFile_picks _).sound 0 first picked).2.2
      have inPlan : first ∈ (greedyCover (listAllLtx replica) 0).1 :=
        List.mem_of_mem_head? (by rw [greedyCover_head, picked]; rfl)
      have within := chain.hi_le first inPlan
      omega
    obtain ⟨store, faithful, listed⟩ := exists_listing
      (turning (headTxid (listAllLtx replica))) (fun _ => rfl) replica
    obtain ⟨image, applied, before⟩ := applyPlan_shows faithful
      (by rw [listed]; exact greedyCover_subset _ 0) chain
    have planned : planRestore (listAllLtx replica) =
        .ok (greedyCover (listAllLtx replica) 0).1 :=
      planRestore_of_head (by rw [picked, Option.map_some, begins])
    have restored : Literstream.restore store = .ok image := by
      rw [Literstream.restore, listed, planned]
      exact applied
    obtain ⟨after, _⟩ := (always _ store faithful listed).restore image restored
    rw [listed] at after
    exact turning_shows begun short before after
  · intro gapless history store faithful listed
    apply RestoresHead.of_reached faithful
    intro plan planned
    rw [listed] at planned ⊢
    obtain ⟨same, starts⟩ := planRestore_eq_ok planned
    rcases gapless with covered | unstarted
    · have chain := greedyCover_chain (listAllLtx replica) 0
      have reached : (greedyCover (listAllLtx replica) 0).2 =
          headTxid (listAllLtx replica) :=
        Nat.le_antisymm (greedyCover_le_headTxid (Nat.zero_le _))
          (greedyCover_reaches covered)
      rw [reached, ← same] at chain
      exact chain
    · rw [same, greedyCover_head, Option.map_eq_some_iff] at starts
      obtain ⟨first, picked, begins⟩ := starts
      exact absurd begins (unstarted first picked)

instance (turn txid pgno : Nat) :
    Decidable ((turning turn).written txid pgno) :=
  inferInstanceAs (Decidable (_ ∨ _))

/-- A replica that lost the file of TXID 2. -/
def gappedStore : Store :=
  ((∅ : Store).insert ⟨0, 1, 1⟩
    ((turning 3).file 1 1 0 rfl range_one)).insert ⟨0, 3, 3⟩
      ((turning 3).file 3 3 0 rfl (by decide))

theorem gappedStore_faithful : (turning 3).FaithfulStore gappedStore := by
  apply FaithfulStore.insert
  · apply faithfulStore_empty.insert
    exact faithful_file (turning 3) rfl range_one
  · exact faithful_file (turning 3) rfl (by decide)

/-- The full restores stop in front of the hole and report success; only the
delta planner refuses. -/
theorem gappedStore_restores_older :
    (turning 3).FaithfulStore gappedStore ∧
      headTxid (listAllLtx gappedStore) = 3 ∧
      restore gappedStore = .ok ((turning 3).image 1) ∧
      (turning 3).image 1 ≠ (turning 3).image 3 ∧
      (restoreToPath gappedStore).result = .ok 1 ∧
      (catchUp gappedStore shrunkDisk).result =
        .ok (.fullRestore 1 .noMarker) ∧
      planRestoreFrom (listAllLtx gappedStore) 1 = .error (.chainGap 1) ∧
      ¬ (turning 3).RestoresHead gappedStore := by
  have head : headTxid (listAllLtx gappedStore) = 3 := by decide +kernel
  have onDisk : (restoreToPath gappedStore).result = .ok 1 := by
    decide +kernel
  refine ⟨gappedStore_faithful, head, by decide +kernel, by decide +kernel,
    onDisk, by decide +kernel, by decide +kernel, ?_⟩
  intro always
  obtain ⟨ends, _⟩ := always.restoreToPath shrunkDisk 1 onDisk
  rw [head] at ends
  cases ends

end History

end Literstream
