import Literstream.Restore.Delta

/-!
# The two full restores agree

`applyPlan` overlays a plan from its oldest file and resizes at every step;
`applyPlanToPath` walks it from the newest file and writes each page once.  On
the plans that `planRestore` returns, both give the image at the TXID where the
plan ends.
-/

namespace Literstream

open PagedFile

namespace History

variable {history : History}

/-- Files of one page size never fail to restore to a path. -/
theorem applyPlanToPath_total {store : Store} {files : List KeyedFile}
    {pageSize : Nat} (loaded : Loaded store files) (nonempty : files ≠ [])
    (sized : ∀ file ∈ files, file.2.header.pageSize = pageSize) :
    ∃ txid, (applyPlanToPath store (files.map Prod.fst)).result =
      .ok txid := by
  unfold applyPlanToPath
  cases isLast : (files.map Prod.fst).getLast? with
  | none =>
      rw [List.getLast?_eq_none_iff, List.map_eq_nil_iff] at isLast
      exact absurd isLast nonempty
  | some newestKey =>
      obtain ⟨newest, member, rfl, _⟩ := getLast?_map_fst isLast
      have held := getLtx_eq_ok.mpr (loaded newest member)
      simp only [held, Script.lift_ok_bind, Script.emit_bind,
        sized newest member]
      obtain ⟨after, applied⟩ := applyNewestFirst_total
        newest.2.header.commit
        (fun file inside => loaded file (List.mem_reverse.mp inside))
        (fun file inside => sized file (List.mem_reverse.mp inside))
        (PageSet.claim (lockPgno pageSize)
          (DenseSet.empty (newest.2.header.commit + 1))).2
      rw [List.map_reverse] at applied
      rw [Script.bind_of_ok applied]
      exact ⟨newest.1.maxTxid, rfl⟩

/-- The plans of `planRestore` are chains from the empty database to the TXID
of their last file. -/
theorem planRestore_chain {listed plan : List FileKey} {newest : FileKey}
    (planned : planRestore listed = .ok plan)
    (last : plan.getLast? = some newest) :
    FileChain 0 plan newest.maxTxid := by
  obtain ⟨cover, _⟩ := planRestore_eq_ok planned
  have chain := greedyCover_chain listed 0
  rw [← cover] at chain
  rw [← Cover.Chain.getLast?_eq chain last] at chain
  exact chain

/-- Oldest first in memory and newest first on disk, a plan of faithful files
restores the image at its last TXID, whose lock page is zero. -/
theorem apply_plans_agree {store : Store} {listed plan : List FileKey}
    {newest : FileKey} (disk : Disk)
    (oneSize : ∀ left right, history.pageSize left = history.pageSize right)
    (planned : planRestore listed = .ok plan)
    (last : plan.getLast? = some newest)
    (faithful : ∀ key ∈ plan, ∃ file, store[key]? = some file ∧
      history.Faithful key.minTxid key.maxTxid file) :
    applyPlan store plan [] = .ok (history.image newest.maxTxid) ∧
      (applyPlanToPath store plan).result = .ok newest.maxTxid ∧
      (disk.run (applyPlanToPath store plan).ops).file =
        some (history.image newest.maxTxid) ∧
      (lockPgno (history.pageSize newest.maxTxid) ≤
          history.size newest.maxTxid →
        pageAt (history.pageSize newest.maxTxid)
          (lockPgno (history.pageSize newest.maxTxid))
          (history.image newest.maxTxid) =
            zeroPage (history.pageSize newest.maxTxid)) := by
  have chain := planRestore_chain planned last
  have held : ∀ key ∈ plan, key ∈ store := by
    intro key member
    obtain ⟨file, stored, _⟩ := faithful key member
    exact (OrderedMap.mem_iff_exists store key).mpr ⟨file, stored⟩
  obtain ⟨files, keys, loaded⟩ := exists_loaded held
  have filesFaithful : history.FaithfulFiles files := by
    intro file member
    have inPlan : file.1 ∈ plan := by
      rw [← keys]
      exact List.mem_map_of_mem member
    obtain ⟨other, stored, same⟩ := faithful file.1 inPlan
    have equal := (loaded file member).symm.trans stored
    cases equal
    exact same
  subst keys
  have nonempty : files ≠ [] := by
    intro empty
    rw [empty] at last
    cases last
  have sized : ∀ file ∈ files,
      file.2.header.pageSize = history.pageSize 0 := by
    intro file member
    rw [(filesFaithful file member).pageSize]
    exact oneSize _ _
  have inMemory := applyPlan_files loaded filesFaithful chain
    fun left right _ _ => .inl (oneSize right left)
  rw [history.image_zero] at inMemory
  obtain ⟨txid, done⟩ := applyPlanToPath_total loaded nonempty sized
  obtain ⟨reached, image⟩ :=
    applyPlanToPath_image disk loaded filesFaithful chain done
  rw [reached] at done
  refine ⟨inMemory, done, by rw [image]; rfl, ?_⟩
  intro inside
  rw [history.pageAt_image (lockPgno_pos _) inside, history.lock_zero]

theorem apply_plans_agree_shrinking :
    applyPlan shrinkingStore [⟨1, 1, 2⟩, ⟨2, 2, 4⟩] [] =
        .ok (shrinking.image 4) ∧
      (applyPlanToPath shrinkingStore [⟨1, 1, 2⟩, ⟨2, 2, 4⟩]).result =
        .ok 4 ∧
      (shrunkDisk.run (applyPlanToPath shrinkingStore
        [⟨1, 1, 2⟩, ⟨2, 2, 4⟩]).ops).file = some (shrinking.image 4) ∧
      (lockPgno 512 ≤ 2 →
        pageAt 512 (lockPgno 512) (shrinking.image 4) = zeroPage 512) := by
  apply @apply_plans_agree shrinking shrinkingStore
    (listAllLtx shrinkingStore) [⟨1, 1, 2⟩, ⟨2, 2, 4⟩] ⟨2, 2, 4⟩ shrunkDisk
  · exact fun _ _ => rfl
  · decide +kernel
  · rfl
  · intro key member
    have held : key ∈ shrinkingStore := by
      rcases List.mem_cons.mp member with rfl | member
      · decide +kernel
      · rcases List.mem_cons.mp member with rfl | member
        · decide +kernel
        · cases member
    obtain ⟨file, stored⟩ :=
      (OrderedMap.mem_iff_exists shrinkingStore key).mp held
    exact ⟨file, stored, shrinkingStore_faithful key file stored⟩

end History

end Literstream
