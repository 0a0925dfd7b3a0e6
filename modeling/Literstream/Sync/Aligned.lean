import Mathlib.Data.List.Perm.Subperm
import Literstream.Db.Operations
import Literstream.Sync.Captured

/-!
# Staying aligned

What commits, checkpoints and uploads do to a replica that is aligned with its
database.  Commits and checkpoints keep it aligned; discarding a WAL generation
does so when everything in it was captured.
-/

namespace Literstream

open Std PagedFile

/-- The replica reaches a TXID and restores an image there. -/
structure Restores (pageSize : Nat) (store : Store) (txid : Nat)
    (image : Bytes) : Prop where
  bounded : ∀ key ∈ store, 1 ≤ key.minTxid ∧ key.maxTxid ≤ txid
  reaches : (greedyCover (listAllLtx store) 0).2 = txid
  applies : applyPlan store (greedyCover (listAllLtx store) 0).1 [] =
    .ok image
  image : ImageOk pageSize image

section Replicas

variable {pageSize : Nat} {store : Store} {txid : Nat} {image : Bytes}

theorem restores_empty (pageSize : Nat) : Restores pageSize ∅ 0 [] where
  bounded := by simp
  reaches := rfl
  applies := rfl
  image := imageOk_nil

theorem Restores.restore (restores : Restores pageSize store txid image)
    (synced : 0 < txid) : restore store = .ok image := by
  have chain := greedyCover_chain (listAllLtx store) 0
  rw [restores.reaches] at chain
  have starts : (greedyCover (listAllLtx store) 0).1.head?.map
      FileKey.minTxid = some 1 := by
    cases plan : (greedyCover (listAllLtx store) 0).1 with
    | nil =>
        rw [plan] at chain
        have still := chain.eq_of_nil
        omega
    | cons first rest =>
        rw [plan] at chain
        have begins := chain.head_extends.1
        have listed := greedyCover_subset (listAllLtx store) 0 first
          (by simp [plan])
        have member := (OrderedMap.mem_iff_exists _ _).mpr
          (mem_listAllLtx.mp listed).1
        have atLeast := (restores.bounded first member).1
        have one : first.minTxid = 1 := by omega
        simp [one]
  unfold Literstream.restore
  rw [planRestore, if_pos starts]
  exact restores.applies

theorem applyPlan_congr {left right : Store} {plan : List FileKey}
    (same : ∀ key ∈ plan, left[key]? = right[key]?) (initial : Bytes) :
    applyPlan left plan initial = applyPlan right plan initial := by
  induction plan generalizing initial with
  | nil => rfl
  | cons key rest ih =>
      have first : getLtx left key = getLtx right key := by
        rw [getLtx, getLtx, same key (by simp)]
      rw [applyPlan, applyPlan, first]
      cases getLtx right key with
      | error error => rfl
      | ok file =>
          exact ih (fun other member => same other (by simp [member])) _

theorem applyPlan_append {plan : List FileKey} {key : FileKey}
    {file : LtxFile} {initial image : Bytes}
    (applied : applyPlan store plan initial = .ok image)
    (held : store[key]? = some file) :
    applyPlan store (plan ++ [key]) initial = .ok (applyFile image file) := by
  induction plan generalizing initial with
  | nil =>
      cases applied
      rw [List.nil_append, applyPlan, getLtx_eq_ok.mpr held]
      rfl
  | cons first rest ih =>
      rw [applyPlan, bind_eq_ok] at applied
      obtain ⟨found, stored, applied⟩ := applied
      rw [List.cons_append, applyPlan, stored]
      exact ih applied

theorem nextFile_listAllLtx (store : Store) (pos : Nat) :
    nextFile (listAllLtx store) pos = furthest (store.keys.filter
      fun key => key.candidate pos && decide (key.level ≤ maxLevel)) := by
  rw [nextFile, listAllLtx, List.filter_filter]

/-- The next L0 file extends the restore plan and the restored image. -/
theorem Restores.next (restores : Restores pageSize store txid image)
    (positive : 0 < pageSize) {file : LtxFile}
    (sized : file.header.pageSize = pageSize) :
    Restores pageSize (store.insert ⟨level0, txid + 1, txid + 1⟩ file)
      (txid + 1) (applyFile image file) := by
  have upper : ∀ key ∈ listAllLtx store, key.maxTxid ≤ txid := by
    intro key listed
    exact (restores.bounded key ((OrderedMap.mem_iff_exists _ _).mpr
      (mem_listAllLtx.mp listed).1)).2
  have absent : (⟨level0, txid + 1, txid + 1⟩ : FileKey) ∉ listAllLtx store := by
    intro listed
    have bound := upper _ listed
    simp only at bound
    omega
  have same : ∀ pos, pos ≠ txid →
      nextFile (listAllLtx (store.insert ⟨level0, txid + 1, txid + 1⟩ file))
        pos = nextFile (listAllLtx store) pos := by
    intro pos apart
    rw [nextFile_listAllLtx, nextFile_listAllLtx,
      OrderedMap.keys_filter_insert_of_not]
    simp [FileKey.candidate]
    omega
  have stuck : ∀ pos, txid ≤ pos → nextFile (listAllLtx store) pos = none := by
    intro pos beyond
    rw [nextFile, furthest_eq_none, List.filter_eq_nil_iff]
    intro key listed
    have bound := upper key listed
    simp [FileKey.candidate]
    omega
  have offered :
      nextFile (listAllLtx (store.insert ⟨level0, txid + 1, txid + 1⟩ file))
        txid = some ⟨level0, txid + 1, txid + 1⟩ := by
    rw [nextFile_listAllLtx, OrderedMap.keys_filter_eq_singleton _
      (⟨level0, txid + 1, txid + 1⟩ : FileKey)]
    · rfl
    · exact (OrderedMap.mem_insert _ _ _ _).mpr (.inl rfl)
    · simp [FileKey.candidate, level0]
    · intro other member passes
      rcases (OrderedMap.mem_insert _ _ _ _).mp member with new | old
      · exact new
      · have bound := (restores.bounded other old).2
        simp [FileKey.candidate] at passes
        omega
  have longer : (greedyCover (listAllLtx store) 0).1.length <
      (listAllLtx
        (store.insert ⟨level0, txid + 1, txid + 1⟩ file)).length := by
    have bound : (greedyCover (listAllLtx store) 0).1.length ≤
        (listAllLtx store).length :=
      Cover.run_length_le (nextFile (listAllLtx store)) _ 0
    have nodup : ((⟨level0, txid + 1, txid + 1⟩ : FileKey) ::
        listAllLtx store).Nodup :=
      List.nodup_cons.mpr ⟨absent, store.nodup_keys.filter _⟩
    have inside : ∀ key ∈ (⟨level0, txid + 1, txid + 1⟩ : FileKey) ::
        listAllLtx store, key ∈ listAllLtx
          (store.insert ⟨level0, txid + 1, txid + 1⟩ file) := by
      intro key member
      rw [mem_listAllLtx, ← OrderedMap.mem_iff_exists, OrderedMap.mem_insert]
      rcases List.mem_cons.mp member with rfl | listed
      · exact ⟨.inl rfl, Nat.zero_le _⟩
      · rw [mem_listAllLtx, ← OrderedMap.mem_iff_exists] at listed
        exact ⟨.inr listed.1, listed.2⟩
    have total := (nodup.subperm inside).length_le
    rw [List.length_cons] at total
    exact Nat.lt_of_le_of_lt bound total
  have walked : greedyCover
      (listAllLtx (store.insert ⟨level0, txid + 1, txid + 1⟩ file)) 0 =
      ((greedyCover (listAllLtx store) 0).1 ++
        [⟨level0, txid + 1, txid + 1⟩], txid + 1) := by
    have reached : greedyCover (listAllLtx store) 0 =
        ((greedyCover (listAllLtx store) 0).1, txid) :=
      Prod.ext rfl restores.reaches
    apply Cover.run_extend reached (stuck txid (Nat.le_refl _))
      (fun pos apart _ => same pos apart) offered
    · rw [same _ (by simp)]
      exact stuck _ (Nat.le_succ _)
    · intro key member
      exact Nat.lt_succ_of_le (upper key (greedyCover_subset _ 0 key member))
    · exact Nat.succ_pos _
    · exact longer
  constructor
  · intro key member
    rcases (OrderedMap.mem_insert _ _ _ _).mp member with rfl | old
    · exact ⟨Nat.le_add_left 1 _, Nat.le_refl _⟩
    · have bound := restores.bounded key old
      exact ⟨bound.1, Nat.le_succ_of_le bound.2⟩
  · rw [walked]
  · rw [walked]
    apply applyPlan_append
    · rw [← restores.applies]
      apply applyPlan_congr
      intro key member
      rw [OrderedMap.getElem?_insert, if_neg]
      rintro rfl
      exact absent (greedyCover_subset _ 0 _ member)
    · rw [ExtTreeMap.getElem?_insert_self]
  · exact restores.image.applyFile positive sized

end Replicas

section Databases

variable {pageSize : Nat} {image : Bytes} {pos : Position} {db : Sqlite}

theorem Aligned.image_of_atEnd (aligned : Aligned pageSize image pos db)
    (atEnd : AtEnd pageSize pos db) : image = db.committedImage pageSize := by
  unfold Aligned at aligned
  split at aligned
  · rename_i absent
    rw [aligned, Sqlite.committedImage, Sqlite.frames_of_none absent]
    rfl
  · rename_i wal present
    obtain ⟨_, onTop⟩ := aligned
    rw [atEnd wal present, List.drop_length] at onTop
    exact onTop

/-- Salts of an earlier generation never match a new one. -/
theorem captured_new {wal : Wal} (salts : pos.salt1 < wal.salt1) :
    wal.captured pageSize pos = 0 := by
  rw [Wal.captured, if_neg]
  rintro ⟨same, _⟩
  omega

/-- A new generation on top of a captured image. -/
theorem aligned_new {wal : Wal} (present : db.wal = some wal)
    (salts : pos.salt1 < wal.salt1)
    (onTop : overlay pageSize image wal.frames =
      db.committedImage pageSize) : Aligned pageSize image pos db := by
  have start := @captured_new pageSize pos wal salts
  simp only [Aligned, present]
  refine ⟨⟨by rw [start]; exact Nat.zero_le _, ?_⟩, ?_⟩
  · rintro ⟨same, _⟩
    omega
  · rw [start]
    exact onTop

theorem Aligned.append {txn : List Frame} (positive : 0 < pageSize)
    (ok : DbOk pageSize db) (imageOk : ImageOk pageSize image)
    (salts : pos.salt1 ≤ db.lastSalt1) (salt2 : Nat)
    (txnOk : TxnOk pageSize
      (pageCount pageSize (db.committedImage pageSize)) txn)
    (aligned : Aligned pageSize image pos db) :
    Aligned pageSize image pos (db.append salt2 txn) := by
  have committed := ok.committedImage_append positive salt2 txnOk
  cases present : db.wal with
  | none =>
      have image_ : image = db.main := by
        simpa only [Aligned, present] using aligned
      have base : db.committedImage pageSize = db.main := by
        rw [Sqlite.committedImage, Sqlite.frames_of_none present]
        rfl
      have started : (db.append salt2 txn).wal = some
          { salt1 := db.lastSalt1 + 1
            salt2 := salt2
            frames := txn
            stale := 0 } := by
        simp [Sqlite.append, present]
      apply aligned_new started (Nat.lt_succ_of_le salts)
      rw [committed, base, image_]
  | some wal =>
      have grown : (db.append salt2 txn).wal = some
          { wal with
            frames := wal.frames ++ txn
            stale := wal.stale - txn.length } := by
        simp [Sqlite.append, present]
      simp only [Aligned, present] at aligned
      obtain ⟨onFrame, onTop⟩ := aligned
      have framesOk := ok.frames
      rw [Sqlite.frames_of_wal present] at framesOk
      simp only [Aligned, grown]
      change OnFrame pageSize pos { wal with
          frames := wal.frames ++ txn
          stale := wal.stale - txn.length } ∧
        overlay pageSize image ((wal.frames ++ txn).drop
          (wal.captured pageSize pos)) = _
      constructor
      · refine ⟨?_, onFrame.offset⟩
        change wal.captured pageSize pos ≤ (wal.frames ++ txn).length
        rw [List.length_append]
        exact Nat.le_trans onFrame.inside (Nat.le_add_right _ _)
      · rw [List.drop_append_of_le_length onFrame.inside, committed, ← onTop]
        apply overlay_append positive imageOk (framesOk.drop _) txnOk.frames
          txnOk.nonempty
        rw [onTop]
        exact txnOk.grown

theorem Aligned.restart {next : Sqlite} {salt2 : Nat} {txn : List Frame}
    (ok : DbOk pageSize db) (salts : pos.salt1 ≤ db.lastSalt1)
    (txnOk : TxnOk pageSize
      (pageCount pageSize (db.committedImage pageSize)) txn)
    (done : db.restart salt2 txn = some next)
    (aligned : Aligned pageSize image pos db)
    (atEnd : AtEnd pageSize pos db) : Aligned pageSize image pos next := by
  obtain ⟨_, _, committed⟩ := ok.restart txnOk done
  obtain ⟨_, _, _, _, _, _, _, _, started⟩ := Sqlite.restart_eq_some done
  apply aligned_new started (Nat.lt_succ_of_le salts)
  rw [committed, aligned.image_of_atEnd atEnd]

theorem Aligned.checkpoint {count : Nat} (positive : 0 < pageSize)
    (ok : DbOk pageSize db) (bound : count ≤ db.frames.length)
    (aligned : Aligned pageSize image pos db) :
    Aligned pageSize image pos (db.checkpoint pageSize count) := by
  obtain ⟨_, committed⟩ := ok.checkpoint positive bound
  cases present : db.wal with
  | none =>
      have empty := Sqlite.frames_of_none present
      rw [empty, List.length_nil] at bound
      obtain rfl : count = 0 := by omega
      have same : (db.checkpoint pageSize 0).main = db.main := by
        simp [Sqlite.checkpoint, empty, Sqlite.committedImage, overlay]
      have still : (db.checkpoint pageSize 0).wal = none := present
      simp only [Aligned, present] at aligned
      simp only [Aligned, still, same]
      exact aligned
  | some wal =>
      have still : (db.checkpoint pageSize count).wal = some wal := present
      simp only [Aligned, present] at aligned
      simp only [Aligned, still, committed]
      exact aligned

theorem Aligned.truncate (aligned : Aligned pageSize image pos db)
    (atEnd : AtEnd pageSize pos db) :
    Aligned pageSize image pos (db.truncate pageSize) :=
  aligned.image_of_atEnd atEnd

/-- Only discarding frames can hurt, and only frames that are not captured. -/
theorem Aligned.apply {next : Sqlite} {op : SqliteOp} (positive : 0 < pageSize)
    (ok : DbOk pageSize db) (imageOk : ImageOk pageSize image)
    (salts : pos.salt1 ≤ db.lastSalt1) (fits : op.Fits pageSize db)
    (applied : db.apply pageSize op = some next)
    (safe : op.discards = true → AtEnd pageSize pos db)
    (aligned : Aligned pageSize image pos db) :
    Aligned pageSize image pos next := by
  cases op with
  | append salt2 txn =>
      cases applied
      exact aligned.append positive ok imageOk salts salt2 (fits txn rfl)
  | restart salt2 txn =>
      exact aligned.restart ok salts (fits txn rfl) applied (safe rfl)
  | checkpoint frames =>
      simp only [Sqlite.apply] at applied
      split at applied
      · rename_i bounds
        cases applied
        exact aligned.checkpoint positive ok bounds.2
      · cases applied
  | truncate =>
      cases applied
      exact aligned.truncate (safe rfl)

end Databases

end Literstream
