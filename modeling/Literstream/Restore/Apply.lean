import Literstream.History

/-!
# Restoring an image in memory

`applyPlan` overlays the files of a plan from the oldest to the newest.  On
files that are faithful to a history every prefix of the plan yields the image
at the TXID the prefix reaches.
-/

namespace Literstream

open PagedFile

/-- Resize the image to the file's size and copy the file's pages. -/
def applyFile (image : Bytes) (file : LtxFile) : Bytes :=
  writePages file.header.pageSize file.pages
    (setLen (file.header.commit * file.header.pageSize) image)

/-- Apply a plan, files in TXID order. -/
def applyPlan (store : Store) : List FileKey → Bytes → Except SyncError Bytes
  | [], image => .ok image
  | key :: rest, image => do
      let file ← getLtx store key
      applyPlan store rest (applyFile image file)

def restore (store : Store) : Except SyncError Bytes := do
  let plan ← planRestore (listAllLtx store)
  applyPlan store plan []

/-- A point-in-time image and the TXID it reflects. -/
structure RestoreResult where
  image : Bytes
  txid : Nat
deriving DecidableEq

def restoreToTxid (store : Store) (target : Nat) :
    Except SyncError RestoreResult :=
  match planRestoreTo (listAllLtx store) target with
  | .error .noSnapshot => .error (.txidTooOld target)
  | .error error => .error error
  | .ok plan =>
      match plan.getLast? with
      | none => .error (.txidTooOld target)
      | some last => do
          let image ← applyPlan store plan []
          return { image := image, txid := last.maxTxid }

/-- The largest `maxTxid` among the files stamped at or before `timestamp`. -/
def timestampTarget (store : Store) (timestamp : Int) :
    List FileKey → Nat → Except SyncError Nat
  | [], target => .ok target
  | key :: rest, target =>
      if key.maxTxid ≤ target then timestampTarget store timestamp rest target
      else do
        let file ← getLtx store key
        if file.header.timestamp ≤ timestamp then
          timestampTarget store timestamp rest key.maxTxid
        else timestampTarget store timestamp rest target

def restoreToTimestamp (store : Store) (timestamp : Int) :
    Except SyncError RestoreResult := do
  let target ← timestampTarget store timestamp (listAllLtx store) 0
  if target = 0 then .error (.txidTooOld 0) else restoreToTxid store target

theorem LtxFile.fits (file : LtxFile) :
    ∀ page ∈ file.pages,
      Fits file.header.pageSize file.header.commit page := by
  intro page member
  obtain ⟨positive, inside, _, length⟩ := file.pagesOk page member
  exact ⟨positive, inside, length⟩

theorem LtxFile.distinct (file : LtxFile) :
    file.pages.Pairwise fun left right => left.1 ≠ right.1 :=
  file.ascending.imp Nat.ne_of_lt

@[simp] theorem length_applyFile (image : Bytes) (file : LtxFile) :
    (applyFile image file).length =
      file.header.commit * file.header.pageSize :=
  length_writePages file.fits (length_setLen _ _)

/-- A page held by the file reads back as the file's copy. -/
theorem pageAt_applyFile_of_some (image : Bytes) {data : Bytes}
    {file : LtxFile} {pgno : Nat} (found : file.page? pgno = some data) :
    pageAt file.header.pageSize pgno (applyFile image file) = data :=
  pageAt_writePages_of_mem file.fits file.distinct (length_setLen _ _)
    (file.page?_eq_some_iff.mp found)

/-- Any other page reads as it does in the resized image. -/
theorem pageAt_applyFile_of_none (image : Bytes) {file : LtxFile} {pgno : Nat}
    (positive : 1 ≤ pgno) (inside : pgno ≤ file.header.commit)
    (absent : file.page? pgno = none) :
    pageAt file.header.pageSize pgno (applyFile image file) =
      pageAt file.header.pageSize pgno
        (setLen (file.header.commit * file.header.pageSize) image) := by
  apply pageAt_writePages_of_not_mem file.fits (length_setLen _ _) positive
    inside
  rintro ⟨number, data⟩ member rfl
  exact file.page?_eq_none_iff.mp absent data member

namespace History

variable {history : History}

/-- Either the page size did not change, or the database ends below the lock
page.  The in-memory restore resizes by bytes, so a page of an older geometry
could otherwise show through at the lock page. -/
def LockSafe (history : History) (start finish : Nat) : Prop :=
  history.pageSize finish = history.pageSize start ∨
    history.size finish < lockPgno (history.pageSize finish)

/-- Applying a faithful file to an image inside its range, or just before it,
gives the image at the end of the range. -/
theorem Faithful.applyFile {first last start : Nat} {file : LtxFile}
    (faithful : history.Faithful first last file) (begins : first ≤ start + 1)
    (ends : start ≤ last) (safe : history.LockSafe start last) :
    applyFile (history.image start) file = history.image last := by
  have fileSize := faithful.pageSize
  have fileCommit := faithful.commit
  have length := length_applyFile (history.image start) file
  rw [fileSize, fileCommit] at length
  apply ext_pageAt length (history.length_image last)
  intro pgno positive inside
  rw [history.pageAt_image positive inside]
  cases found : file.page? pgno with
  | some data =>
      obtain ⟨_, _, same⟩ := faithful.page?_eq_some found
      have read := pageAt_applyFile_of_some (history.image start) found
      rw [fileSize] at read
      rw [read, same]
  | none =>
      have read := pageAt_applyFile_of_none (history.image start) positive
        (by omega) found
      rw [fileSize, fileCommit] at read
      rw [read]
      by_cases lock : pgno = lockPgno (history.pageSize last)
      · subst lock
        rw [history.lock_zero last]
        have sameSize : history.pageSize last = history.pageSize start := by
          rcases safe with same | below
          · exact same
          · omega
        rw [sameSize] at inside positive ⊢
        rw [pageAt_setLen (history.length_image start) positive inside]
        split
        · rw [history.pageAt_image positive (by assumption), history.lock_zero]
        · rfl
      · obtain ⟨before, sameSize, sameContent⟩ :=
          Stored.kept ⟨positive, inside, lock⟩ ends fun written =>
            faithful.page?_eq_none found ⟨positive, inside, lock⟩
              (written.mono begins (Nat.le_refl _))
        rw [sameSize, pageAt_setLen (history.length_image start) positive
          inside, if_pos before.2.1, sameContent]
        exact history.pageAt_image positive before.2.1

/-- Every object of the replica is faithful to the range of its address. -/
def FaithfulStore (history : History) (store : Store) : Prop :=
  ∀ (key : FileKey) (file : LtxFile), store[key]? = some file →
    history.Faithful key.minTxid key.maxTxid file

theorem faithfulStore_empty : history.FaithfulStore ∅ := by
  intro key file held
  simp at held

theorem FaithfulStore.insert {store : Store} {key : FileKey} {file : LtxFile}
    (others : history.FaithfulStore store)
    (own : history.Faithful key.minTxid key.maxTxid file) :
    history.FaithfulStore (store.insert key file) :=
  OrderedMap.forall_insert store key file own others

/-- Applying faithful files to the image they start from gives the image they
reach. -/
theorem applyPlan_files {store : Store} {files : List KeyedFile}
    {start finish : Nat} (loaded : Loaded store files)
    (faithful : history.FaithfulFiles files)
    (chain : PlanChain start files finish)
    (safe : ∀ left right, left ≤ right → right ≤ finish →
      history.LockSafe left right) :
    applyPlan store (files.map Prod.fst) (history.image start) =
      .ok (history.image finish) := by
  induction files generalizing start with
  | nil =>
      have still := chain.eq_of_nil
      subst still
      rfl
  | cons file rest ih =>
      cases chain with
      | cons extends_ tail =>
          have held := getLtx_eq_ok.mpr (loaded file (by simp))
          have step := (faithful file (by simp)).applyFile extends_.1
            (Nat.le_of_lt extends_.2)
            (safe _ _ (Nat.le_of_lt extends_.2) tail.le)
          rw [List.map_cons, applyPlan, held]
          change applyPlan store _ (Literstream.applyFile _ file.2) = _
          rw [step]
          exact ih (fun other member => loaded other (by simp [member]))
            (fun other member => faithful other (by simp [member])) tail

/-- Applying a plan to the image it starts from gives the image it reaches. -/
theorem applyPlan_chain {store : Store} {plan : List FileKey}
    {start finish : Nat} (faithful : history.FaithfulStore store)
    (chain : FileChain start plan finish) (held : ∀ key ∈ plan, key ∈ store)
    (safe : ∀ left right, left ≤ right → right ≤ finish →
      history.LockSafe left right) :
    applyPlan store plan (history.image start) =
      .ok (history.image finish) := by
  obtain ⟨files, keys, loaded⟩ := exists_loaded held
  subst keys
  exact applyPlan_files loaded
    (fun file member => faithful file.1 file.2 (loaded file member)) chain safe

/-- Applying faithful files in memory restores every stored page; nothing is
assumed of the lock page when the page size changes. -/
theorem applyPlan_stored {store : Store} {files : List KeyedFile} {start finish : Nat}
    {initial : Bytes} (loaded : Loaded store files)
    (faithful : history.FaithfulFiles files)
    (chain : PlanChain start files finish)
    (whole : initial.length = history.size start * history.pageSize start)
    (pages : ∀ pgno, history.Stored start pgno →
      pageAt (history.pageSize start) pgno initial =
        history.content start pgno) :
    ∃ image, applyPlan store (files.map Prod.fst) initial = .ok image ∧
      image.length = history.size finish * history.pageSize finish ∧
      ∀ pgno, history.Stored finish pgno →
        pageAt (history.pageSize finish) pgno image =
          history.content finish pgno := by
  induction files generalizing start initial with
  | nil =>
      have still := chain.eq_of_nil
      subst still
      exact ⟨initial, rfl, whole, pages⟩
  | cons file rest ih =>
      cases chain with
      | cons extends_ tail =>
          have held := getLtx_eq_ok.mpr (loaded file (by simp))
          have fileFaithful := faithful file (by simp)
          have fileSize := fileFaithful.pageSize
          have fileCommit := fileFaithful.commit
          have length := length_applyFile initial file.2
          rw [fileSize, fileCommit] at length
          rw [List.map_cons, applyPlan, held]
          apply ih (fun other member => loaded other (by simp [member]))
            (fun other member => faithful other (by simp [member])) tail length
          intro pgno stored
          cases found : file.2.page? pgno with
          | some data =>
              obtain ⟨_, _, same⟩ := fileFaithful.page?_eq_some found
              have read := pageAt_applyFile_of_some initial found
              rw [fileSize] at read
              rw [read, same]
          | none =>
              have inside := stored.2.1
              have read := pageAt_applyFile_of_none initial stored.1
                (by omega) found
              obtain ⟨before, sameSize, sameContent⟩ :=
                stored.kept (Nat.le_of_lt extends_.2) fun written =>
                  fileFaithful.page?_eq_none found stored
                    (written.mono extends_.1 (Nat.le_refl _))
              rw [fileSize, fileCommit, sameSize] at read
              rw [sameSize, read, pageAt_setLen whole stored.1 inside,
                if_pos before.2.1, sameContent]
              exact pages pgno before

/-! ## Point-in-time images -/

/-- The last file of a plan fixes the length of the restored image. -/
theorem length_applyPlan {store : Store} {plan : List FileKey}
    {last : FileKey} {initial image : Bytes}
    (faithful : history.FaithfulStore store)
    (applied : applyPlan store plan initial = .ok image)
    (isLast : plan.getLast? = some last) :
    image.length = (history.image last.maxTxid).length := by
  induction plan generalizing initial with
  | nil => cases isLast
  | cons key rest ih =>
      rw [applyPlan, bind_eq_ok] at applied
      obtain ⟨file, held, applied⟩ := applied
      cases rest with
      | nil =>
          cases applied
          obtain rfl : key = last := by simpa using isLast
          have fileFaithful := faithful _ file (getLtx_eq_ok.mp held)
          rw [length_applyFile, fileFaithful.commit, fileFaithful.pageSize,
            history.length_image]
      | cons next rest =>
          rw [List.getLast?_cons_cons] at isLast
          exact ih applied isLast

/-- What a successful point-in-time restore returns. -/
theorem restoreToTxid_eq_ok {store : Store} {target : Nat}
    {result : RestoreResult} (faithful : history.FaithfulStore store)
    (done : restoreToTxid store target = .ok result) :
    ∃ plan last, planRestoreTo (listAllLtx store) target = .ok plan ∧
      plan.getLast? = some last ∧ result.txid = last.maxTxid ∧
      result.image.length = (history.image last.maxTxid).length ∧
      ((∀ left right, left ≤ right → right ≤ last.maxTxid →
        history.LockSafe left right) →
        result.image = history.image last.maxTxid) := by
  unfold restoreToTxid at done
  split at done
  · cases done
  · cases done
  · rename_i plan planned
    split at done
    · cases done
    · rename_i last isLast
      rw [bind_eq_ok] at done
      obtain ⟨image, applied, same⟩ := done
      cases same
      refine ⟨plan, last, planned, isLast, rfl,
        length_applyPlan faithful applied isLast, ?_⟩
      intro safe
      obtain ⟨cover, _⟩ := planRestore_eq_ok planned
      have chain := greedyCover_chain
        ((listAllLtx store).filter fun key => key.maxTxid ≤ target) 0
      have listed := greedyCover_subset
        ((listAllLtx store).filter fun key => key.maxTxid ≤ target) 0
      rw [← cover] at chain listed
      have finish := Cover.Chain.getLast?_eq chain isLast
      rw [← finish] at chain
      have held : ∀ key ∈ plan, key ∈ store := by
        intro key member
        obtain ⟨inside, _⟩ := List.mem_filter.mp (listed key member)
        exact (OrderedMap.mem_iff_exists store key).mpr
          (mem_listAllLtx.mp inside).1
      have exact_ := applyPlan_chain faithful chain held safe
      rw [history.image_zero] at exact_
      rw [exact_] at applied
      cases applied
      rfl

end History

end Literstream
