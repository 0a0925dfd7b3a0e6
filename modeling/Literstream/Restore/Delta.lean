import Literstream.Restore.NewestFirst

/-!
# Full and delta restores of a file

A full restore builds the file anew; a delta restore resizes an existing file
and overwrites the pages of its plan.  On a replica whose files are faithful to
a history both end at the image of the TXID that the plan reaches.
-/

namespace Literstream

open PagedFile

/-- A full restore of a plan, straight into the file. -/
def applyPlanToPath (store : Store) (plan : List FileKey) :
    Script FileOp SyncError Nat :=
  match plan.getLast? with
  | none => Script.lift (.error .noSnapshot)
  | some newest => do
      let head ← Script.lift (getLtx store newest)
      let pageSize := head.header.pageSize
      let commit := head.header.commit
      let fileLen := commit * pageSize
      Script.emit (.mark (.applying 0 newest.maxTxid))
      Script.emit (.mutate .create)
      Script.emit (.mutate (.setLen fileLen))
      let written :=
        PageSet.claim (lockPgno pageSize) (DenseSet.empty (commit + 1))
      let _ ← applyNewestFirst store pageSize commit plan.reverse written.2
      Script.emit .syncAll
      Script.emit (.mark (.clean newest.maxTxid pageSize commit fileLen))
      return newest.maxTxid

def restoreToPath (store : Store) : Script FileOp SyncError Nat := do
  let plan ← Script.lift (planRestore (listAllLtx store))
  applyPlanToPath store plan

/-- The shape that a delta leaves the file in, from its headers alone. -/
structure DeltaShape where
  pageSize : Nat
  finalCommit : Nat
  minCommit : Nat
deriving DecidableEq, Repr

/-- The loop of `deltaShape`; page size 0 means that no file was seen yet.  The
source starts the minimum at the top of its integer type; here the first file
sets it. -/
def deltaShapeLoop (store : Store) :
    List FileKey → DeltaShape → Except SyncError DeltaShape
  | [], shape => .ok shape
  | key :: rest, shape => do
      let file ← getLtx store key
      if shape.pageSize ≠ 0 ∧ file.header.pageSize ≠ shape.pageSize then
        .error (.ltx (.invalidPageSize file.header.pageSize))
      else
        deltaShapeLoop store rest
          { pageSize := file.header.pageSize
            finalCommit := file.header.commit
            minCommit :=
              if shape.pageSize = 0 then file.header.commit
              else min shape.minCommit file.header.commit }

def deltaShape (store : Store) (plan : List FileKey) :
    Except SyncError DeltaShape :=
  deltaShapeLoop store plan
    { pageSize := 0, finalCommit := 0, minCommit := 0 }

/-- Apply a delta plan onto the existing file. -/
def applyDeltaToPath (store : Store) (plan : List FileKey) (fromTxid : Nat)
    (shape : DeltaShape) : Script FileOp SyncError Nat :=
  match plan.getLast? with
  | none => pure fromTxid
  | some newest => do
      let fileLen := shape.finalCommit * shape.pageSize
      Script.emit (.mark (.applying fromTxid newest.maxTxid))
      Script.emit (.mutate (.setLen (shape.minCommit * shape.pageSize)))
      Script.emit (.mutate (.setLen fileLen))
      let written := PageSet.claim (lockPgno shape.pageSize) (SparseSet.mk [])
      let _ ← applyNewestFirst store shape.pageSize shape.finalCommit
        plan.reverse written.2
      Script.emit .syncAll
      Script.emit (.mark
        (.clean newest.maxTxid shape.pageSize shape.finalCommit fileLen))
      return newest.maxTxid

/-! ## Full restores -/

theorem getLast?_map_fst {files : List KeyedFile} {newest : FileKey}
    (last : (files.map Prod.fst).getLast? = some newest) :
    ∃ file ∈ files, file.1 = newest ∧ files.getLast? = some file := by
  rw [List.getLast?_map, Option.map_eq_some_iff] at last
  obtain ⟨file, isLast, same⟩ := last
  exact ⟨file, List.mem_of_getLast? isLast, same, isLast⟩

namespace History

variable {history : History}

/-- The disk after a restore that reached a TXID. -/
def restored (history : History) (txid : Nat) : Disk where
  file := some (history.image txid)
  durable := some (history.image txid)
  pending := []
  marker := some (.clean txid (history.pageSize txid) (history.size txid)
    (history.size txid * history.pageSize txid))

/-- The newest pages of a chain turn a file that agrees with the start of the
chain on unwritten pages into the image at its end. -/
theorem writePages_chain {σ : Type} [PageSet σ] {before after : σ}
    {files : List KeyedFile} {start finish : Nat} {out : List Page}
    {file : Bytes} (faithful : history.FaithfulFiles files)
    (chain : PlanChain start files finish)
    (writes : Writes (history.pageSize finish) (history.size finish) before
      after (fun pgno => newestPage pgno (files.map Prod.snd)) out)
    (free : ∀ pgno, 1 ≤ pgno → pgno ≤ history.size finish →
      (PageSet.claimed before pgno = true ↔
        pgno = lockPgno (history.pageSize finish)))
    (whole : file.length = history.size finish * history.pageSize finish)
    (lock : lockPgno (history.pageSize finish) ≤ history.size finish →
      pageAt (history.pageSize finish) (lockPgno (history.pageSize finish))
        file = zeroPage (history.pageSize finish))
    (unwritten : ∀ pgno, history.Stored finish pgno →
      ¬ history.WrittenIn (start + 1) finish pgno →
      pageAt (history.pageSize finish) pgno file =
        history.content finish pgno) :
    writePages (history.pageSize finish) out file = history.image finish := by
  apply ext_pageAt (length_writePages writes.fit whole)
    (history.length_image finish)
  intro pgno positive inside
  rw [history.pageAt_image positive inside]
  by_cases isLock : pgno = lockPgno (history.pageSize finish)
  · have claimed := (free pgno positive inside).mpr isLock
    rw [writes.pageAt_of_none whole positive inside (.inl claimed), isLock,
      history.lock_zero]
    exact lock (isLock ▸ inside)
  · have unclaimed : PageSet.claimed before pgno = false := by
      rw [← Bool.not_eq_true]
      exact fun claimed => isLock ((free pgno positive inside).mp claimed)
    have stored : history.Stored finish pgno := ⟨positive, inside, isLock⟩
    obtain ⟨newest, absent⟩ := newestPage_chain chain faithful stored
    cases found : newestPage pgno (files.map Prod.snd) with
    | some raw =>
        obtain ⟨same, length⟩ := newest raw found
        rw [writes.pageAt_of_some whole positive inside unclaimed found
          (decodePageFrame_of_length length), same]
    | none =>
        rw [writes.pageAt_of_none whole positive inside (.inr found)]
        exact unwritten pgno stored (absent found)

/-- A full restore that succeeds leaves the image its plan reaches. -/
theorem applyPlanToPath_image {store : Store} {files : List KeyedFile}
    {finish result : Nat} (disk : Disk) (loaded : Loaded store files)
    (faithful : history.FaithfulFiles files)
    (chain : PlanChain 0 files finish)
    (done : (applyPlanToPath store (files.map Prod.fst)).result =
      .ok result) :
    result = finish ∧
      disk.run (applyPlanToPath store (files.map Prod.fst)).ops =
        history.restored finish := by
  unfold applyPlanToPath at done ⊢
  cases isLast : (files.map Prod.fst).getLast? with
  | none => simp [isLast] at done
  | some newestKey =>
      obtain ⟨newest, member, rfl, last⟩ := getLast?_map_fst isLast
      obtain ⟨ends, sameSize, sameCommit⟩ := faithful.last chain last
      have held := getLtx_eq_ok.mpr (loaded newest member)
      simp only [isLast, held, Script.lift_ok_bind, Script.emit_bind, sameSize,
        sameCommit, ends] at done ⊢
      obtain ⟨after, applied, rest, ops⟩ := Script.result_bind_eq_ok done
      have reversedLoaded : Loaded store files.reverse :=
        fun file inside => loaded file (List.mem_reverse.mp inside)
      rw [← List.map_reverse] at applied
      obtain ⟨out, outOps, writes⟩ :=
        applyNewestFirst_writes reversedLoaded applied
      simp only [firstPage_reverse] at writes
      rw [← List.map_reverse] at ops ⊢
      rw [ops, outOps]
      simp only [Script.result_pure, Script.ops_pure, Except.ok.injEq] at rest ⊢
      refine ⟨rest.symm, ?_⟩
      have image : writePages (history.pageSize finish) out
          (setLen (history.size finish * history.pageSize finish) []) =
          history.image finish := by
        apply writePages_chain faithful chain writes _ (length_setLen _ _)
        · exact pageAt_setLen_nil (lockPgno_pos _)
        · intro pgno stored unwritten
          obtain ⟨before, _, _⟩ := stored.kept (Nat.zero_le _) unwritten
          have inside := before.2.1
          have positive := before.1
          rw [history.empty] at inside
          omega
        · intro pgno positive inside
          rw [PageSet.claimed_claim,
            DenseSet.claimed_empty (Nat.lt_succ_of_le inside)]
          simp
      have written := Disk.run_writePages
        (disk.run [.mark (.applying 0 finish), .mutate .create,
          .mutate (.setLen
            (history.size finish * history.pageSize finish))])
        (history.pageSize finish) out rfl
      rw [image, ← Disk.run_append] at written
      have published := disk.run_publish
        ([.mark (.applying 0 finish), .mutate .create, .mutate (.setLen
          (history.size finish * history.pageSize finish))] ++
            out.map (writePage (history.pageSize finish)))
        (.clean finish (history.pageSize finish) (history.size finish)
          (history.size finish * history.pageSize finish))
      rw [written, List.append_assoc] at published
      exact published

end History

/-! ## Delta restores -/

/-- What the header scan establishes: one page size throughout, the size of the
last file, and a minimum that some file attains. -/
structure ShapeOf (files : List KeyedFile) (initial shape : DeltaShape) :
    Prop where
  pageSize : ∀ file ∈ files, file.2.header.pageSize = shape.pageSize
  seeded : initial.pageSize ≠ 0 → shape.pageSize = initial.pageSize
  finalCommit : shape.finalCommit =
    (files.getLast?.map fun file => file.2.header.commit).getD
      initial.finalCommit
  minCommit : (initial.pageSize ≠ 0 ∧ shape.minCommit = initial.minCommit) ∨
    (∃ file ∈ files, shape.minCommit = file.2.header.commit) ∨ files = []

theorem deltaShapeLoop_eq_ok {store : Store} {files : List KeyedFile}
    {initial shape : DeltaShape} (loaded : Loaded store files)
    (scanned : deltaShapeLoop store (files.map Prod.fst) initial =
      .ok shape) : ShapeOf files initial shape := by
  induction files generalizing initial with
  | nil =>
      cases scanned
      exact ⟨by simp, fun _ => rfl, rfl, .inr (.inr rfl)⟩
  | cons file rest ih =>
      have held := getLtx_eq_ok.mpr (loaded file (by simp))
      rw [List.map_cons, deltaShapeLoop, held, bind_eq_ok] at scanned
      obtain ⟨same, equality, scanned⟩ := scanned
      cases equality
      split at scanned
      · cases scanned
      · rename_i agrees
        have sized := file.2.pageSize_pos
        obtain ⟨pageSize, seeded, finalCommit, minCommit⟩ :=
          ih (fun other member => loaded other (by simp [member])) scanned
        have attained : (initial.pageSize ≠ 0 ∧
              (if initial.pageSize = 0 then file.2.header.commit
                else min initial.minCommit file.2.header.commit) =
                  initial.minCommit) ∨
            (∃ other ∈ file :: rest,
              (if initial.pageSize = 0 then file.2.header.commit
                else min initial.minCommit file.2.header.commit) =
                  other.2.header.commit) ∨ file :: rest = [] := by
          split
          · exact .inr (.inl ⟨file, by simp, rfl⟩)
          · rename_i nonzero
            rcases Nat.le_total initial.minCommit file.2.header.commit with
              lower | upper
            · exact .inl ⟨nonzero, Nat.min_eq_left lower⟩
            · exact .inr (.inl ⟨file, by simp, Nat.min_eq_right upper⟩)
        have first := seeded (by simpa using Nat.ne_of_gt sized)
        simp only at first finalCommit minCommit
        refine ⟨?_, ?_, ?_, ?_⟩
        · intro other member
          rcases List.mem_cons.mp member with rfl | later
          · exact first.symm
          · exact pageSize other later
        · intro nonzero
          rw [first]
          by_contra different
          exact agrees ⟨nonzero, different⟩
        · rw [finalCommit, List.getLast?_cons]
          cases rest.getLast? <;> rfl
        · rcases minCommit with ⟨_, same⟩ | ⟨other, member, same⟩ | empty
          · rw [same]
            exact attained
          · exact .inr (.inl ⟨other, by simp [member], same⟩)
          · subst empty
            cases scanned
            exact attained

theorem deltaShape_eq_ok {store : Store} {files : List KeyedFile}
    {shape : DeltaShape} (loaded : Loaded store files) (nonempty : files ≠ [])
    (scanned : deltaShape store (files.map Prod.fst) = .ok shape) :
    (∀ file ∈ files, file.2.header.pageSize = shape.pageSize) ∧
      (∃ file ∈ files, shape.minCommit = file.2.header.commit) ∧
      ∀ last, files.getLast? = some last →
        shape.finalCommit = last.2.header.commit := by
  obtain ⟨pageSize, _, finalCommit, minCommit⟩ :=
    deltaShapeLoop_eq_ok loaded scanned
  refine ⟨pageSize, ?_, ?_⟩
  · rcases minCommit with ⟨impossible, _⟩ | attained | empty
    · exact absurd rfl impossible
    · exact attained
    · exact absurd empty nonempty
  · intro last isLast
    rw [finalCommit, isLast]
    rfl

/-- Files of one page size have a shape. -/
theorem deltaShape_total {store : Store} {files : List KeyedFile}
    {pageSize : Nat} (loaded : Loaded store files)
    (sized : ∀ file ∈ files, file.2.header.pageSize = pageSize) :
    ∃ shape, deltaShape store (files.map Prod.fst) = .ok shape := by
  have loop : ∀ initial : DeltaShape,
      initial.pageSize = 0 ∨ initial.pageSize = pageSize →
      ∃ shape, deltaShapeLoop store (files.map Prod.fst) initial =
        .ok shape := by
    induction files with
    | nil => exact fun initial _ => ⟨initial, rfl⟩
    | cons file rest ih =>
        intro initial known
        have held := getLtx_eq_ok.mpr (loaded file (by simp))
        have same := sized file (by simp)
        have agrees : ¬ (initial.pageSize ≠ 0 ∧
            file.2.header.pageSize ≠ initial.pageSize) := by
          rintro ⟨nonzero, different⟩
          rcases known with zero | equal
          · exact nonzero zero
          · exact different (same.trans equal.symm)
        obtain ⟨shape, scanned⟩ :=
          ih (fun other member => loaded other (by simp [member]))
            (fun other member => sized other (by simp [member]))
            { pageSize := file.2.header.pageSize
              finalCommit := file.2.header.commit
              minCommit :=
                if initial.pageSize = 0 then file.2.header.commit
                else min initial.minCommit file.2.header.commit }
            (.inr same)
        refine ⟨shape, ?_⟩
        rw [List.map_cons, deltaShapeLoop, held]
        change (if _ then _ else _) = _
        rw [if_neg agrees]
        exact scanned
  exact loop _ (.inl rfl)

namespace History

variable {history : History}

/-- Resizing the starting image to the low-water mark and then to the final
size keeps every page that the delta does not write. -/
theorem pageAt_resized {files : List KeyedFile} {start finish pgno : Nat}
    {file : KeyedFile} (faithful : history.FaithfulFiles files)
    (chain : PlanChain start files finish) (member : file ∈ files)
    (stored : history.Stored finish pgno)
    (unwritten : ¬ history.WrittenIn (start + 1) finish pgno) :
    pageAt (history.pageSize finish) pgno
      (setLen (history.size finish * history.pageSize finish)
        (setLen (file.2.header.commit * history.pageSize finish)
          (history.image start))) = history.content finish pgno := by
  obtain ⟨above, below⟩ := chain_bounds chain file member
  obtain ⟨before, sameSize, sameContent⟩ :=
    stored.kept chain.le unwritten
  obtain ⟨between, _, _⟩ := stored.kept below fun written =>
    unwritten (written.mono (by omega) (Nat.le_refl _))
  have low : pgno ≤ file.2.header.commit := by
    rw [(faithful file member).commit]
    exact between.2.1
  have startLength := history.length_image start
  rw [← sameSize] at startLength
  rw [pageAt_setLen (length_setLen _ _) stored.1 stored.2.1, if_pos low,
    pageAt_setLen startLength stored.1 low, if_pos before.2.1, sameContent,
    sameSize]
  exact history.pageAt_image before.1 before.2.1

/-- The lock page reads as zeros after the same two steps. -/
theorem lock_resized {start finish low : Nat}
    (sameSize : history.pageSize finish = history.pageSize start)
    (inside : lockPgno (history.pageSize finish) ≤ history.size finish) :
    pageAt (history.pageSize finish) (lockPgno (history.pageSize finish))
      (setLen (history.size finish * history.pageSize finish)
        (setLen (low * history.pageSize finish) (history.image start))) =
      zeroPage (history.pageSize finish) := by
  have startLength := history.length_image start
  rw [← sameSize] at startLength
  rw [pageAt_setLen (length_setLen _ _) (lockPgno_pos _) inside]
  split
  · rename_i low
    rw [pageAt_setLen startLength (lockPgno_pos _) low]
    split
    · rename_i old
      rw [sameSize, history.pageAt_image (lockPgno_pos _)
        (by rw [← sameSize]; exact old), history.lock_zero]
    · rfl
  · rfl

/-- A delta restore of the image it starts from succeeds and leaves the image
its plan reaches. -/
theorem applyDeltaToPath_image {store : Store} {files : List KeyedFile}
    {start finish : Nat} {disk : Disk} {shape : DeltaShape}
    (loaded : Loaded store files) (faithful : history.FaithfulFiles files)
    (chain : PlanChain start files finish) (nonempty : files ≠ [])
    (scanned : deltaShape store (files.map Prod.fst) = .ok shape)
    (sameSize : shape.pageSize = history.pageSize start)
    (present : disk.file = some (history.image start)) :
    (applyDeltaToPath store (files.map Prod.fst) start shape).result =
        .ok finish ∧
      disk.run (applyDeltaToPath store (files.map Prod.fst) start shape).ops =
        history.restored finish := by
  obtain ⟨oneSize, ⟨lowFile, lowMember, low⟩, final⟩ :=
    deltaShape_eq_ok loaded nonempty scanned
  unfold applyDeltaToPath
  cases isLast : (files.map Prod.fst).getLast? with
  | none =>
      rw [List.getLast?_eq_none_iff, List.map_eq_nil_iff] at isLast
      exact absurd isLast nonempty
  | some newestKey =>
      obtain ⟨newest, member, rfl, last⟩ := getLast?_map_fst isLast
      obtain ⟨ends, finalSize, finalCommit⟩ := faithful.last chain last
      have shapeSize : shape.pageSize = history.pageSize finish := by
        rw [← oneSize newest member, finalSize]
      have shapeCommit : shape.finalCommit = history.size finish := by
        rw [final newest last, finalCommit]
      have reversedLoaded : Loaded store files.reverse :=
        fun file inside => loaded file (List.mem_reverse.mp inside)
      have reversedSized : ∀ file ∈ files.reverse,
          file.2.header.pageSize = history.pageSize finish :=
        fun file inside =>
          (oneSize file (List.mem_reverse.mp inside)).trans shapeSize
      obtain ⟨after, applied⟩ := applyNewestFirst_total (history.size finish)
        reversedLoaded reversedSized
        (PageSet.claim (lockPgno (history.pageSize finish))
          (SparseSet.mk [])).2
      obtain ⟨out, outOps, writes⟩ :=
        applyNewestFirst_writes reversedLoaded applied
      simp only [firstPage_reverse] at writes
      simp only [shapeSize, shapeCommit, low, ends, Script.emit_bind]
      rw [← List.map_reverse, Script.bind_of_ok applied, outOps]
      refine ⟨rfl, ?_⟩
      have image : writePages (history.pageSize finish) out
          (setLen (history.size finish * history.pageSize finish)
            (setLen (lowFile.2.header.commit * history.pageSize finish)
              (history.image start))) = history.image finish := by
        apply writePages_chain faithful chain writes _ (length_setLen _ _)
        · exact lock_resized (shapeSize.symm.trans sameSize)
        · intro pgno stored unwritten
          exact pageAt_resized faithful chain lowMember stored unwritten
        · intro pgno positive inside
          rw [PageSet.claimed_claim]
          simp [PageSet.claimed, SparseSet.claimed]
      have resized : (disk.run [.mark (.applying start finish),
          .mutate (.setLen
            (lowFile.2.header.commit * history.pageSize finish)),
          .mutate (.setLen
            (history.size finish * history.pageSize finish))]).file =
          some (setLen (history.size finish * history.pageSize finish)
            (setLen (lowFile.2.header.commit * history.pageSize finish)
              (history.image start))) := by
        change Option.map _ (Option.map _ disk.file) = _
        rw [present]
        rfl
      have written := Disk.run_writePages _ (history.pageSize finish) out
        resized
      rw [image, ← Disk.run_append] at written
      have published := disk.run_publish
        ([.mark (.applying start finish),
          .mutate (.setLen
            (lowFile.2.header.commit * history.pageSize finish)),
          .mutate (.setLen
            (history.size finish * history.pageSize finish))] ++
            out.map (writePage (history.pageSize finish)))
        (.clean finish (history.pageSize finish) (history.size finish)
          (history.size finish * history.pageSize finish))
      rw [written, List.append_assoc] at published
      exact published

theorem FaithfulStore.loaded {store : Store} {files : List KeyedFile}
    (faithful : history.FaithfulStore store) (loaded : Loaded store files) :
    history.FaithfulFiles files :=
  fun file member => faithful file.1 file.2 (loaded file member)

/-- For a history of one page size, a delta plan applied to the image at its
start yields the image at the highest TXID listed. -/
theorem applyDelta_exact {store : Store} {plan : List FileKey} {start : Nat}
    {disk : Disk} (oneSize : ∀ left right,
      history.pageSize left = history.pageSize right)
    (faithful : history.FaithfulStore store)
    (behind : start < headTxid (listAllLtx store))
    (planned : planRestoreFrom (listAllLtx store) start = .ok plan)
    (present : disk.file = some (history.image start)) :
    ∃ shape, deltaShape store plan = .ok shape ∧
      (applyDeltaToPath store plan start shape).result =
        .ok (headTxid (listAllLtx store)) ∧
      (disk.run (applyDeltaToPath store plan start shape).ops).file =
        some (history.image (headTxid (listAllLtx store))) := by
  obtain ⟨chain, listed⟩ := planRestoreFrom_eq_ok behind planned
  obtain ⟨files, keys, loaded⟩ := exists_loaded fun key member => by
    obtain ⟨stored, _⟩ := mem_listAllLtx.mp (listed key member)
    exact (OrderedMap.mem_iff_exists store key).mpr stored
  subst keys
  have filesFaithful := faithful.loaded loaded
  have nonempty : files ≠ [] := by
    rintro rfl
    have still := chain.eq_of_nil
    omega
  have sized : ∀ file ∈ files,
      file.2.header.pageSize = history.pageSize start := by
    intro file member
    rw [(filesFaithful file member).pageSize]
    exact oneSize _ _
  obtain ⟨shape, scanned⟩ := deltaShape_total loaded sized
  obtain ⟨first, rest, split⟩ := List.exists_cons_of_ne_nil nonempty
  have firstMember : first ∈ files := by simp [split]
  have shapeSize : shape.pageSize = history.pageSize start := by
    rw [← (deltaShape_eq_ok loaded nonempty scanned).1 first firstMember]
    exact sized first firstMember
  obtain ⟨result, image⟩ := applyDeltaToPath_image loaded filesFaithful chain
    nonempty scanned shapeSize present
  refine ⟨shape, scanned, result, ?_⟩
  rw [image]
  rfl

/-- A database that grows to three pages, shrinks to one and regrows. -/
def shrinking : History :=
  filled 512 sector_pos (fun txid => [0, 1, 3, 1, 2].getD txid 2) rfl
    fun txid _ => txid.toUInt8

theorem shrinking_sized (txid : Nat) :
    isValidPageSize (shrinking.pageSize txid) = true := by
  change isValidPageSize 512 = true
  decide

instance (txid pgno : Nat) : Decidable (shrinking.written txid pgno) :=
  inferInstanceAs (Decidable (_ ∨ _))

/-- Two compacted files of it; the second one straddles TXID 3. -/
def shrinkingStore : Store :=
  ((∅ : Store).insert ⟨1, 1, 2⟩
    (shrinking.file 1 2 0 rfl (by decide))).insert ⟨2, 2, 4⟩
      (shrinking.file 2 4 0 rfl (by decide))

theorem shrinkingStore_faithful : shrinking.FaithfulStore shrinkingStore := by
  apply FaithfulStore.insert
  · apply faithfulStore_empty.insert
    exact faithful_file shrinking rfl (by decide)
  · exact faithful_file shrinking rfl (by decide)

/-- A file that holds the image at TXID 3. -/
def shrunkDisk : Disk where
  file := some (shrinking.image 3)
  durable := none
  pending := []
  marker := none

theorem applyDelta_exact_shrinking :
    ∃ shape, deltaShape shrinkingStore [⟨2, 2, 4⟩] = .ok shape ∧
      (applyDeltaToPath shrinkingStore [⟨2, 2, 4⟩] 3 shape).result =
        .ok (headTxid (listAllLtx shrinkingStore)) ∧
      (shrunkDisk.run
        (applyDeltaToPath shrinkingStore [⟨2, 2, 4⟩] 3 shape).ops).file =
        some (shrinking.image (headTxid (listAllLtx shrinkingStore))) :=
  applyDelta_exact (fun _ _ => rfl) shrinkingStore_faithful
    (by decide +kernel) (by decide +kernel) rfl

end History

end Literstream
