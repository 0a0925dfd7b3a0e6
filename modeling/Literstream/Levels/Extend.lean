import Literstream.Levels.Replication
import Literstream.Sync.Captured

/-!
# Histories that go on

A writer at work does not know the images to come.  Its history so far is
extended by one file at a time: the file that leads from the last image to the
next one.  Whatever was said of the replica up to there stays true.
-/

namespace Literstream

open PagedFile

/-- A file holds every page that it adds to an image. -/
def LtxFile.Grows (file : LtxFile) (image : Bytes) : Prop :=
  ∀ pgno, pageCount file.header.pageSize image < pgno →
    pgno ≤ file.header.commit → pgno ≠ lockPgno file.header.pageSize →
    file.page? pgno ≠ none

namespace History

variable {history : History}

theorem imageOk (history : History) (txid : Nat) :
    ImageOk (history.pageSize txid) (history.image txid) := by
  have positive := history.pageSize_pos txid
  have count := pageCount_of_length positive (history.length_image txid)
  constructor
  · rw [count]
    exact history.length_image txid
  · intro inside
    rw [count] at inside
    rw [history.pageAt_image (lockPgno_pos _) inside, history.lock_zero]

theorem pageCount_image (history : History) (txid : Nat) :
    pageCount (history.pageSize txid) (history.image txid) =
      history.size txid :=
  pageCount_of_length (history.pageSize_pos txid) (history.length_image txid)

theorem pageOf_image {txid pgno : Nat} (inFile : 1 ≤ pgno)
    (inside : pgno ≤ history.size txid) :
    pageOf (history.pageSize txid) (history.image txid) pgno =
      history.content txid pgno := by
  rw [pageOf, if_pos ⟨inFile, by rwa [history.pageCount_image]⟩]
  exact history.pageAt_image inFile inside

/-! ## Agreement up to a TXID -/

/-- The histories are the same up to a TXID. -/
structure Agree (left right : History) (top : Nat) : Prop where
  pageSize : ∀ txid ≤ top, left.pageSize txid = right.pageSize txid
  size : ∀ txid ≤ top, left.size txid = right.size txid
  content : ∀ txid ≤ top, left.content txid = right.content txid
  written : ∀ txid ≤ top, left.written txid = right.written txid

section Agreement

variable {left right : History} {top : Nat}

theorem Agree.image (agree : Agree left right top) {txid : Nat}
    (within : txid ≤ top) : left.image txid = right.image txid := by
  rw [History.image, History.image, agree.size txid within,
    agree.content txid within]

theorem Agree.stored_iff (agree : Agree left right top) {txid pgno : Nat}
    (within : txid ≤ top) :
    left.Stored txid pgno ↔ right.Stored txid pgno := by
  rw [Stored, Stored, agree.size txid within, agree.pageSize txid within]

theorem Agree.writtenIn_iff (agree : Agree left right top)
    {first last pgno : Nat} (within : last ≤ top) :
    left.WrittenIn first last pgno ↔ right.WrittenIn first last pgno := by
  constructor
  · rintro ⟨txid, after, until_, written⟩
    rw [agree.written txid (by omega)] at written
    exact ⟨txid, after, until_, written⟩
  · rintro ⟨txid, after, until_, written⟩
    rw [← agree.written txid (by omega)] at written
    exact ⟨txid, after, until_, written⟩

theorem Agree.faithful (agree : Agree left right top) {first last : Nat}
    {file : LtxFile} (within : last ≤ top)
    (faithful : left.Faithful first last file) :
    right.Faithful first last file where
  pageSize := faithful.pageSize.trans (agree.pageSize last within)
  commit := faithful.commit.trans (agree.size last within)
  pages := by
    intro pgno data
    rw [faithful.pages, agree.stored_iff within, agree.writtenIn_iff within,
      agree.content last within]

/-- A replica in order knows nothing of the history past its last TXID. -/
theorem Agree.levelsOk (agree : Agree left right top) {anchor : Nat}
    {state : Levels} (within : state.txid ≤ top)
    (ok : LevelsOk left anchor state) : LevelsOk right anchor state where
  files := by
    intro key file held
    have fileOk := ok.files key file held
    exact { fileOk with
      faithful := agree.faithful (Nat.le_trans fileOk.synced within)
        fileOk.faithful }
  indexed := ok.indexed
  newest := ok.newest
  anchored := ok.anchored
  anchorTop := ok.anchorTop
  tail := ok.tail
  folded := ok.folded

end Agreement

/-! ## One more file -/

/-- A file that can lead a history on from a TXID. -/
structure Continues (history : History) (top : Nat) (file : LtxFile) :
    Prop where
  sized : ∀ txid, history.pageSize txid = file.header.pageSize
  grows : file.Grows (history.image top)

section Extending

variable {top : Nat} {file : LtxFile}

theorem Continues.positive (continues : history.Continues top file) :
    0 < file.header.pageSize := by
  rw [← continues.sized top]
  exact history.pageSize_pos top

theorem Continues.imageOk (continues : history.Continues top file) :
    ImageOk file.header.pageSize (history.image top) := by
  rw [← continues.sized top]
  exact history.imageOk top

theorem Continues.appliedOk (continues : history.Continues top file) :
    ImageOk file.header.pageSize (applyFile (history.image top) file) :=
  continues.imageOk.applyFile continues.positive rfl

/-- A page of the next image that the file does not hold was there before. -/
theorem Continues.kept (continues : history.Continues top file) {pgno : Nat}
    (inFile : 1 ≤ pgno) (inside : pgno ≤ file.header.commit)
    (notLock : pgno ≠ lockPgno file.header.pageSize)
    (absent : file.page? pgno = none) :
    pgno ≤ history.size top ∧
      pageOf file.header.pageSize (applyFile (history.image top) file) pgno =
        history.content top pgno := by
  have count := history.pageCount_image top
  rw [continues.sized top] at count
  have before : pgno ≤ history.size top := by
    by_contra beyond
    exact continues.grows pgno (by omega) inside notLock absent
  refine ⟨before, ?_⟩
  have page := history.pageOf_image inFile before
  rw [continues.sized top] at page
  rw [pageOf_applyFile continues.positive continues.imageOk rfl inFile inside,
    absent, Option.getD_none, page]

/-- The history goes on with one file, and nothing happens after it. -/
def extend (history : History) (top : Nat) (file : LtxFile)
    (continues : history.Continues top file) : History where
  pageSize _ := file.header.pageSize
  size txid := if txid ≤ top then history.size txid else file.header.commit
  content txid pgno :=
    if txid ≤ top then history.content txid pgno
    else pageOf file.header.pageSize (applyFile (history.image top) file) pgno
  written txid pgno :=
    if txid ≤ top then history.written txid pgno
    else txid = top + 1 ∧ file.page? pgno ≠ none
  pageSize_pos _ := continues.positive
  content_length := by
    intro txid pgno
    split
    · rw [history.content_length, continues.sized]
    · exact length_pageOf continues.appliedOk pgno
  lock_zero := by
    intro txid
    split
    · rw [← continues.sized txid]
      exact history.lock_zero txid
    · exact continues.appliedOk.pageOf_lock
  empty := by rw [if_pos (Nat.zero_le _), history.empty]
  kept := by
    intro txid pgno inFile inside notLock unwritten
    rcases Nat.lt_trichotomy txid top with before | rfl | later
    · have next : txid + 1 ≤ top := before
      rw [if_pos next] at inside unwritten
      rw [if_pos next, if_pos (Nat.le_of_lt before)]
      rw [← continues.sized (txid + 1)] at notLock
      obtain ⟨within, _, same⟩ :=
        history.kept txid pgno inFile inside notLock unwritten
      exact ⟨within, rfl, same.trans (if_pos (Nat.le_of_lt before)).symm⟩
    · have last := Nat.not_succ_le_self txid
      rw [if_neg last] at inside unwritten
      rw [if_neg last, if_pos (Nat.le_refl txid)]
      have absent : file.page? pgno = none := by simpa using unwritten
      obtain ⟨within, same⟩ := continues.kept inFile inside notLock absent
      exact ⟨within, rfl, same.trans (if_pos (Nat.le_refl txid)).symm⟩
    · rw [if_neg (by omega)] at inside
      rw [if_neg (by omega), if_neg (by omega)]
      exact ⟨inside, rfl, (if_neg (Nat.not_le_of_lt later)).symm⟩
  honest _ _ _ := rfl

theorem agree_extend (continues : history.Continues top file) :
    Agree history (history.extend top file continues) top where
  pageSize := fun txid _ => continues.sized txid
  size := fun _ within => (if_pos within).symm
  content := by
    intro txid within
    funext pgno
    exact (if_pos within).symm
  written := by
    intro txid within
    funext pgno
    exact (if_pos within).symm

theorem image_extend (continues : history.Continues top file) :
    (history.extend top file continues).image (top + 1) =
      applyFile (history.image top) file := by
  have whole := continues.appliedOk.whole
  rw [pageCount_applyFile continues.positive rfl] at whole
  apply ext_pageAt ((history.extend top file continues).length_image _)
  · simp only [extend, if_neg (Nat.not_succ_le_self top)]
    exact whole
  · intro pgno inFile inside
    rw [pageAt_image _ inFile inside]
    simp only [extend, if_neg (Nat.not_succ_le_self top)] at inside ⊢
    rw [pageOf, if_pos ⟨inFile, by
      rwa [pageCount_applyFile continues.positive rfl]⟩]

/-- The file holds what the added step writes. -/
theorem faithful_extend (continues : history.Continues top file) :
    (history.extend top file continues).Faithful (top + 1) (top + 1) file where
  pageSize := rfl
  commit := (if_neg (Nat.not_succ_le_self top)).symm
  pages := by
    intro pgno data
    have content : (history.extend top file continues).content (top + 1) pgno =
        pageOf file.header.pageSize (applyFile (history.image top) file)
          pgno := if_neg (Nat.not_succ_le_self top)
    have written : ∀ txid, top + 1 ≤ txid → txid ≤ top + 1 →
        ((history.extend top file continues).written txid pgno ↔
          file.page? pgno ≠ none) := by
      intro txid after until_
      obtain rfl : txid = top + 1 := by omega
      change (if top + 1 ≤ top then history.written (top + 1) pgno
        else top + 1 = top + 1 ∧ file.page? pgno ≠ none) ↔ _
      rw [if_neg (Nat.not_succ_le_self top)]
      exact and_iff_right rfl
    have inRange : (history.extend top file continues).WrittenIn (top + 1)
        (top + 1) pgno ↔ file.page? pgno ≠ none := by
      constructor
      · rintro ⟨txid, after, until_, wrote⟩
        exact (written txid after until_).mp wrote
      · intro held
        exact ⟨top + 1, Nat.le_refl _, Nat.le_refl _,
          (written _ (Nat.le_refl _) (Nat.le_refl _)).mpr held⟩
    have page : ∀ raw, 1 ≤ pgno → pgno ≤ file.header.commit →
        file.page? pgno = some raw →
        pageOf file.header.pageSize (applyFile (history.image top) file) pgno =
          raw := by
      intro raw inFile inside held
      rw [pageOf_applyFile continues.positive continues.imageOk rfl inFile
        inside, held, Option.getD_some]
    rw [inRange, content, Stored]
    change _ ↔ (1 ≤ pgno ∧ pgno ≤ (if top + 1 ≤ top then
      history.size (top + 1) else file.header.commit) ∧
        pgno ≠ lockPgno file.header.pageSize) ∧ _
    rw [if_neg (Nat.not_succ_le_self top)]
    constructor
    · intro member
      obtain ⟨inFile, inside, notLock, _⟩ := file.pagesOk _ member
      have held := file.page?_eq_some_iff.mpr member
      exact ⟨⟨inFile, inside, notLock⟩, by simp [held],
        (page data inFile inside held).symm⟩
    · rintro ⟨⟨inFile, inside, _⟩, held, rfl⟩
      obtain ⟨raw, found⟩ := Option.ne_none_iff_exists'.mp held
      rw [page raw inFile inside found]
      exact file.page?_eq_some_iff.mp found

end Extending

/-- A file that is stamped with the TXID that it leads to is a synced file of
the extended history. -/
theorem syncedFile_extend {top : Nat} {file : LtxFile}
    (continues : history.Continues top file)
    (minTxid : file.header.minTxid = top + 1)
    (maxTxid : file.header.maxTxid = top + 1) :
    (history.extend top file continues).SyncedFile (top + 1) file :=
  ⟨faithful_extend continues, minTxid, maxTxid⟩

end History

end Literstream
