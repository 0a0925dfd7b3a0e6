import Literstream.Wal.PageMap

/-!
# A database file under its log

`overlay` is the database that a reader of SQLite sees: the main file with the
newest frame of every page on top, cut or grown to the size at the last commit.
The page map of whole transactions has exactly these pages.
-/

namespace Literstream

open PagedFile Std

structure FrameOk (pageSize : Nat) (frame : Frame) : Prop where
  positive : 1 ≤ frame.pgno
  /-- SQLite never writes the lock page. -/
  notLock : frame.pgno ≠ lockPgno pageSize
  length : frame.data.length = pageSize

/-- Frames of whole transactions.  A frame that commits lies inside the database
it commits. -/
structure FramesOk (pageSize : Nat) (frames : List Frame) : Prop where
  each : ∀ frame ∈ frames, FrameOk pageSize frame
  commits : ∀ frame, frames.getLast? = some frame →
    1 ≤ frame.commit ∧ frame.pgno ≤ frame.commit

/-- Database size in pages. -/
def pageCount (pageSize : Nat) (image : Bytes) : Nat := image.length / pageSize

/-- Whole pages, the lock page being zero. -/
structure ImageOk (pageSize : Nat) (image : Bytes) : Prop where
  whole : image.length = pageCount pageSize image * pageSize
  lock : lockPgno pageSize ≤ pageCount pageSize image →
    pageAt pageSize (lockPgno pageSize) image = zeroPage pageSize

/-- A page of an image, zero past its end. -/
def pageOf (pageSize : Nat) (image : Bytes) (pgno : Nat) : Bytes :=
  if 1 ≤ pgno ∧ pgno ≤ pageCount pageSize image then
    pageAt pageSize pgno image
  else zeroPage pageSize

/-- An image with committed frames on top. -/
def overlay (pageSize : Nat) (image : Bytes) : List Frame → Bytes
  | [] => image
  | frame :: rest =>
      ofPages (commitOf (frame :: rest)) fun pgno =>
        (newest (frame :: rest) pgno).getD (pageOf pageSize image pgno)

/-- The page data of the frame at an offset. -/
def pageDataAt (pageSize : Nat) (frames : List Frame) (offset : Nat) : Bytes :=
  (frames[(offset - walHeaderSize) / frameSize pageSize]?.map
    Frame.data).getD []

/-- The pages of a page map in ascending order. -/
def mapPages (pageSize : Nat) (frames : List Frame) (map : PageMap) :
    List Page :=
  map.pages.toList.map fun entry =>
    (entry.1, pageDataAt pageSize frames entry.2)

section Frames

variable {pageSize : Nat}

theorem FramesOk.nil : FramesOk pageSize [] where
  each := by simp
  commits := by simp

theorem FramesOk.drop {frames : List Frame} (ok : FramesOk pageSize frames)
    (count : Nat) : FramesOk pageSize (frames.drop count) where
  each := fun frame member => ok.each frame (List.mem_of_mem_drop member)
  commits := by
    intro frame isLast
    apply ok.commits frame
    rw [List.getLast?_drop] at isLast
    split at isLast
    · cases isLast
    · exact isLast

theorem FramesOk.append {left right : List Frame}
    (leftOk : FramesOk pageSize left) (rightOk : FramesOk pageSize right) :
    FramesOk pageSize (left ++ right) where
  each := by
    intro frame member
    rcases List.mem_append.mp member with first | second
    · exact leftOk.each frame first
    · exact rightOk.each frame second
  commits := by
    intro frame isLast
    rw [List.getLast?_append] at isLast
    cases rightLast : right.getLast? with
    | none =>
        rw [rightLast, Option.none_or] at isLast
        exact leftOk.commits frame isLast
    | some last =>
        rw [rightLast, Option.some_or] at isLast
        cases isLast
        exact rightOk.commits _ rightLast

theorem FramesOk.length_newest {frames : List Frame} {pgno : Nat}
    {data : Bytes} (ok : FramesOk pageSize frames)
    (found : newest frames pgno = some data) : data.length = pageSize := by
  obtain ⟨frame, member, _, rfl⟩ := newest_eq_some found
  exact (ok.each frame member).length

theorem FramesOk.newest_lock {frames : List Frame}
    (ok : FramesOk pageSize frames) :
    newest frames (lockPgno pageSize) = none :=
  newest_eq_none.mpr fun frame member => (ok.each frame member).notLock

theorem commitOf_pos {frames : List Frame} (ok : FramesOk pageSize frames)
    (nonempty : frames ≠ []) : 1 ≤ commitOf frames := by
  obtain ⟨last, isLast⟩ : ∃ last, frames.getLast? = some last :=
    ⟨_, List.getLast?_eq_some_getLast nonempty⟩
  rw [commitOf, isLast]
  exact (ok.commits last isLast).1

theorem commitOf_append {left right : List Frame} (nonempty : right ≠ []) :
    commitOf (left ++ right) = commitOf right := by
  obtain ⟨last, isLast⟩ : ∃ last, right.getLast? = some last :=
    ⟨_, List.getLast?_eq_some_getLast nonempty⟩
  rw [commitOf, commitOf, List.getLast?_append, isLast]
  rfl

end Frames

section Images

variable {pageSize : Nat}

theorem imageOk_nil : ImageOk pageSize [] where
  whole := by simp [pageCount]
  lock := by
    intro inside
    have positive := lockPgno_pos pageSize
    simp [pageCount] at inside
    omega

theorem length_pageOf {image : Bytes} (ok : ImageOk pageSize image)
    (pgno : Nat) : (pageOf pageSize image pgno).length = pageSize := by
  unfold pageOf
  split
  · rename_i inside
    apply length_pageAt inside.1
    rw [ok.whole]
    exact Nat.mul_le_mul_right _ inside.2
  · exact length_zeroPage _

theorem ImageOk.pageOf_lock {image : Bytes} (ok : ImageOk pageSize image) :
    pageOf pageSize image (lockPgno pageSize) = zeroPage pageSize := by
  unfold pageOf
  split
  · rename_i inside
    exact ok.lock inside.2
  · rfl

/-- Images of one size with the same pages are the same. -/
theorem ImageOk.ext {left right : Bytes} (leftOk : ImageOk pageSize left)
    (rightOk : ImageOk pageSize right)
    (sameSize : pageCount pageSize left = pageCount pageSize right)
    (samePages : ∀ pgno, 1 ≤ pgno → pgno ≤ pageCount pageSize left →
      pageOf pageSize left pgno = pageOf pageSize right pgno) :
    left = right := by
  have rightWhole := rightOk.whole
  rw [← sameSize] at rightWhole
  apply ext_pageAt leftOk.whole rightWhole
  intro pgno positive inside
  have same := samePages pgno positive inside
  unfold pageOf at same
  rw [if_pos ⟨positive, inside⟩, if_pos ⟨positive, sameSize ▸ inside⟩] at same
  exact same

theorem pageCount_of_length {image : Bytes} {count : Nat}
    (positive : 0 < pageSize) (whole : image.length = count * pageSize) :
    pageCount pageSize image = count := by
  rw [pageCount, whole, Nat.mul_div_cancel _ positive]

variable {image : Bytes} {frames : List Frame}

theorem length_content (imageOk : ImageOk pageSize image)
    (framesOk : FramesOk pageSize frames) (pgno : Nat) :
    ((newest frames pgno).getD (pageOf pageSize image pgno)).length =
      pageSize := by
  cases found : newest frames pgno with
  | some data => exact framesOk.length_newest found
  | none => exact length_pageOf imageOk pgno

theorem overlay_eq (nonempty : frames ≠ []) :
    overlay pageSize image frames =
      ofPages (commitOf frames) fun pgno =>
        (newest frames pgno).getD (pageOf pageSize image pgno) := by
  cases frames with
  | nil => exact absurd rfl nonempty
  | cons frame rest => rfl

theorem length_overlay (imageOk : ImageOk pageSize image)
    (framesOk : FramesOk pageSize frames) (nonempty : frames ≠ []) :
    (overlay pageSize image frames).length = commitOf frames * pageSize := by
  rw [overlay_eq nonempty]
  exact length_ofPages _ (length_content imageOk framesOk)

theorem pageCount_overlay (positive : 0 < pageSize)
    (imageOk : ImageOk pageSize image) (framesOk : FramesOk pageSize frames)
    (nonempty : frames ≠ []) :
    pageCount pageSize (overlay pageSize image frames) = commitOf frames :=
  pageCount_of_length positive (length_overlay imageOk framesOk nonempty)

/-- A page of the overlay: its newest frame, or else the page below. -/
theorem pageOf_overlay (positive : 0 < pageSize)
    (imageOk : ImageOk pageSize image) (framesOk : FramesOk pageSize frames)
    (nonempty : frames ≠ []) {pgno : Nat} (inFile : 1 ≤ pgno)
    (inside : pgno ≤ commitOf frames) :
    pageOf pageSize (overlay pageSize image frames) pgno =
      (newest frames pgno).getD (pageOf pageSize image pgno) := by
  rw [pageOf, pageCount_overlay positive imageOk framesOk nonempty,
    if_pos ⟨inFile, inside⟩, overlay_eq nonempty]
  exact pageAt_ofPages (length_content imageOk framesOk) inFile inside

theorem ImageOk.overlay (positive : 0 < pageSize)
    (imageOk : ImageOk pageSize image) (framesOk : FramesOk pageSize frames) :
    ImageOk pageSize (overlay pageSize image frames) := by
  by_cases empty : frames = []
  · subst empty
    exact imageOk
  · have count := pageCount_overlay positive imageOk framesOk empty
    constructor
    · rw [count]
      exact length_overlay imageOk framesOk empty
    · intro inside
      have page := pageOf_overlay positive imageOk framesOk empty
        (lockPgno_pos pageSize) (by rw [← count]; exact inside)
      rw [framesOk.newest_lock, Option.getD_none, imageOk.pageOf_lock] at page
      rw [← page, pageOf, if_pos ⟨lockPgno_pos pageSize, inside⟩]

/-- A transaction on top of an overlay may be folded into its frames, when it
writes every page that it adds. -/
theorem overlay_append {txn : List Frame} (positive : 0 < pageSize)
    (imageOk : ImageOk pageSize image) (framesOk : FramesOk pageSize frames)
    (txnOk : FramesOk pageSize txn) (nonempty : txn ≠ [])
    (grown : ∀ pgno,
      pageCount pageSize (overlay pageSize image frames) < pgno →
      pgno ≤ commitOf txn → pgno ≠ lockPgno pageSize →
      newest txn pgno ≠ none) :
    overlay pageSize image (frames ++ txn) =
      overlay pageSize (overlay pageSize image frames) txn := by
  have overlayOk := imageOk.overlay positive framesOk
  have bothOk := framesOk.append txnOk
  have bothNonempty : frames ++ txn ≠ [] := by simp [nonempty]
  have size := @commitOf_append frames txn nonempty
  have left := pageCount_overlay positive imageOk bothOk bothNonempty
  have right := pageCount_overlay positive overlayOk txnOk nonempty
  apply (imageOk.overlay positive bothOk).ext (overlayOk.overlay positive txnOk)
  · rw [left, right, size]
  · intro pgno inFile inside
    rw [left] at inside
    rw [pageOf_overlay positive imageOk bothOk bothNonempty inFile inside]
    rw [size] at inside
    rw [pageOf_overlay positive overlayOk txnOk nonempty inFile inside,
      newest_append]
    cases later : newest txn pgno with
    | some data => rfl
    | none =>
        rw [Option.none_or, Option.getD_none]
        by_cases empty : frames = []
        · subst empty
          rfl
        · have count := pageCount_overlay positive imageOk framesOk empty
          by_cases old : pgno ≤ commitOf frames
          · rw [pageOf_overlay positive imageOk framesOk empty inFile old]
          · have lock : pgno = lockPgno pageSize := by
              by_contra notLock
              exact grown pgno (by rw [count]; omega) inside notLock later
            subst lock
            rw [framesOk.newest_lock, Option.getD_none, imageOk.pageOf_lock,
              overlayOk.pageOf_lock]

end Images

section Maps

variable {pageSize index : Nat} {frames : List Frame}

theorem length_locate (pageSize index : Nat) (frames : List Frame) :
    (locate pageSize index frames).length = frames.length := by
  induction frames generalizing index with
  | nil => rfl
  | cons frame rest ih => simp [locate, ih]

theorem pageMap_nil : pageMap pageSize [] =
    { pages := ∅, commit := 0, endOffset := 0 } := rfl

/-- The page map of frames that end with a commit. -/
theorem pageMap_of_commit {body : List Frame} {last : Frame}
    (commits : last.commit ≠ 0) :
    (pageMap pageSize (locate pageSize index (body ++ [last]))).commit =
        last.commit ∧
      ∀ pgno,
        (pageMap pageSize (locate pageSize index (body ++ [last]))).pages[pgno]? =
          if pgno ≤ last.commit then
            (newestEntry (locate pageSize index (body ++ [last])) pgno).map
              Prod.fst
          else none := by
  obtain ⟨commit, promoted⟩ := @PageWalk.finish_committed
    (locate pageSize index body)
    (frameOffset pageSize (index + body.length), last) commits
  rw [← locate_singleton, ← locate_append] at commit promoted
  refine ⟨commit, ?_⟩
  intro pgno
  unfold pageMap
  dsimp only
  rw [ExtTreeMap.getElem?_filter', promoted, commit]
  split
  · rename_i inside
    cases newestEntry (locate pageSize index (body ++ [last])) pgno with
    | none => rfl
    | some entry => simp [inside]
  · rename_i outside
    cases newestEntry (locate pageSize index (body ++ [last])) pgno with
    | none => rfl
    | some entry => simp [outside]

/-- The map ends with its last commit frame when that frame's page lies inside
the database it commits. -/
theorem endOffset_of_commit {body : List Frame} {last : Frame}
    (commits : last.commit ≠ 0) (inside : last.pgno ≤ last.commit) :
    (pageMap pageSize (locate pageSize index (body ++ [last]))).endOffset =
      frameOffset pageSize (index + (body.length + 1)) := by
  obtain ⟨_, pages⟩ := @pageMap_of_commit pageSize index body last commits
  have highest : ((pageMap pageSize
      (locate pageSize index (body ++ [last]))).pages.toList.map
        Prod.snd).max? = some (frameOffset pageSize (index + body.length)) := by
    rw [List.max?_eq_some_iff]
    constructor
    · rw [List.mem_map]
      refine ⟨(last.pgno, _), ?_, rfl⟩
      rw [ExtTreeMap.mem_toList_iff_getElem?_eq_some, pages, if_pos inside,
        locate_append, locate_singleton, newestEntry_append, newestEntry,
        newestEntry, Option.none_or, if_pos rfl, Option.some_or]
      rfl
    · intro offset member
      obtain ⟨⟨pgno, _⟩, listed, rfl⟩ := List.mem_map.mp member
      rw [ExtTreeMap.mem_toList_iff_getElem?_eq_some, pages] at listed
      split at listed
      · obtain ⟨entry, found, rfl⟩ := Option.map_eq_some_iff.mp listed
        obtain ⟨position, framed, offset⟩ :=
          mem_locate (newestEntry_mem found).1
        have bound := (List.getElem?_eq_some_iff.mp framed).1
        rw [List.length_append, List.length_singleton] at bound
        rw [offset]
        exact Nat.add_le_add_left (Nat.mul_le_mul_right _ (by omega)) _
      · cases listed
  rw [pageMap_endOffset highest, ← Nat.add_assoc, frameOffset_succ]

/-- The page map of whole transactions. -/
theorem pageMap_committed (ok : FramesOk pageSize frames)
    (nonempty : frames ≠ []) :
    (pageMap pageSize (locate pageSize index frames)).commit =
        commitOf frames ∧
      (pageMap pageSize (locate pageSize index frames)).endOffset =
        frameOffset pageSize (index + frames.length) ∧
      ∀ pgno, (pageMap pageSize (locate pageSize index frames)).pages[pgno]? =
        if pgno ≤ commitOf frames then
          (newestEntry (locate pageSize index frames) pgno).map Prod.fst
        else none := by
  obtain ⟨body, last, rfl⟩ : ∃ body last, frames = body ++ [last] :=
    ⟨_, _, (List.dropLast_append_getLast nonempty).symm⟩
  have size : commitOf (body ++ [last]) = last.commit := by
    simp [commitOf]
  obtain ⟨positive, inside⟩ := ok.commits last (by simp)
  have commits : last.commit ≠ 0 := Nat.ne_of_gt positive
  obtain ⟨commit, pages⟩ := @pageMap_of_commit pageSize index body last commits
  have ends := @endOffset_of_commit pageSize index body last commits inside
  rw [size, List.length_append, List.length_singleton]
  exact ⟨commit, ends, pages⟩

theorem mem_mapPages_iff {map : PageMap} {pgno : Nat} {data : Bytes} :
    (pgno, data) ∈ mapPages pageSize frames map ↔
      ∃ offset, map.pages[pgno]? = some offset ∧
        pageDataAt pageSize frames offset = data := by
  unfold mapPages
  rw [List.mem_map]
  constructor
  · rintro ⟨⟨number, offset⟩, listed, same⟩
    simp only [Prod.mk.injEq] at same
    obtain ⟨rfl, same⟩ := same
    exact ⟨offset, ExtTreeMap.mem_toList_iff_getElem?_eq_some.mp listed, same⟩
  · rintro ⟨offset, found, same⟩
    exact ⟨(pgno, offset),
      ExtTreeMap.mem_toList_iff_getElem?_eq_some.mpr found, by rw [same]⟩

/-- The pages behind the map of the frames from `index` on are the newest ones
inside the final size. -/
theorem mem_mapPages (ok : FramesOk pageSize (frames.drop index))
    (nonempty : frames.drop index ≠ []) (pgno : Nat) (data : Bytes) :
    (pgno, data) ∈ mapPages pageSize frames
        (pageMap pageSize (locate pageSize index (frames.drop index))) ↔
      pgno ≤ commitOf (frames.drop index) ∧
        newest (frames.drop index) pgno = some data := by
  obtain ⟨_, _, pages⟩ := @pageMap_committed pageSize index _ ok nonempty
  have framed : ∀ entry, entry ∈ locate pageSize index (frames.drop index) →
      pageDataAt pageSize frames entry.1 = entry.2.data := by
    intro entry member
    obtain ⟨position, found, offset⟩ := mem_locate member
    rw [pageDataAt, offset, frameOffset_index, ← List.getElem?_drop, found]
    rfl
  rw [← newestEntry_data pageSize index, mem_mapPages_iff]
  constructor
  · rintro ⟨offset, listed, same⟩
    rw [pages] at listed
    split at listed
    · rename_i inside
      obtain ⟨entry, found, rfl⟩ := Option.map_eq_some_iff.mp listed
      rw [framed entry (newestEntry_mem found).1] at same
      rw [found, ← same]
      exact ⟨inside, rfl⟩
    · cases listed
  · rintro ⟨inside, found⟩
    obtain ⟨entry, placed, rfl⟩ := Option.map_eq_some_iff.mp found
    refine ⟨entry.1, ?_, framed entry (newestEntry_mem placed).1⟩
    rw [pages, if_pos inside, placed]
    rfl

end Maps

end Literstream
