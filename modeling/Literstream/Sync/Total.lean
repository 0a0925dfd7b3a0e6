import Literstream.Sync.Captured
import Literstream.Ltx.Total

/-!
# Building never fails

Over a well-formed database the encoder accepts every page it is given, so a
snapshot can always be built, and from a position on a frame an incremental file
as well.
-/

namespace Literstream

open Std PagedFile

theorem validate_noChecksumHeader {pageSize : Nat}
    (sized : isValidPageSize pageSize = true) (commit txid : Nat)
    (timestamp : Int) (walOffset walSize salt1 salt2 : Nat) :
    (noChecksumHeader pageSize commit (txid + 1) (txid + 1) timestamp walOffset
      walSize salt1 salt2).validate = .ok () := by
  simp [Header.validate, noChecksumHeader, sized]

section Building

variable {pageSize : Nat} {now : Int} {pos : Position} {db : Sqlite}

theorem encodeSnapshot_append {map : PageMap} {left right : List Nat}
    {encoder middle : Encoder}
    (first : encodeSnapshot pageSize db map left encoder = .ok middle) :
    encodeSnapshot pageSize db map (left ++ right) encoder =
      encodeSnapshot pageSize db map right middle := by
  induction left generalizing encoder with
  | nil =>
      cases first
      rfl
  | cons pgno rest ih =>
      rw [encodeSnapshot, bind_eq_ok] at first
      obtain ⟨data, read, first⟩ := first
      rw [bind_eq_ok] at first
      obtain ⟨next, encoded, first⟩ := first
      rw [List.cons_append, encodeSnapshot, read]
      change (liftLtx (encoder.encodePage pgno data) >>= _) = _
      rw [encoded]
      exact ih first

theorem snapshotPgnos_succ (pageSize count : Nat) :
    snapshotPgnos pageSize (count + 1) = snapshotPgnos pageSize count ++
      if count + 1 = lockPgno pageSize then [] else [count + 1] := by
  rw [snapshotPgnos, List.range_succ, List.map_append, List.filter_append]
  congr 1
  by_cases lock : count + 1 = lockPgno pageSize
  · simp [lock]
  · simp [lock]

/-- The pages of a snapshot are written in the order that the encoder
demands. -/
theorem encodeSnapshot_total {map : PageMap} {encoder : Encoder}
    (sized : isValidPageSize pageSize = true)
    (headerSize : encoder.header.pageSize = pageSize)
    (fresh : encoder.prevPgno = 0) {count : Nat}
    (bound : count ≤ encoder.header.commit)
    (readable : ∀ pgno, 1 ≤ pgno → pgno ≤ encoder.header.commit →
      pgno ≠ lockPgno pageSize →
      ∃ data, snapshotPage pageSize db map pgno = .ok data ∧
        data.length = pageSize) :
    ∃ written,
      encodeSnapshot pageSize db map (snapshotPgnos pageSize count) encoder =
        .ok written ∧
      written.header = encoder.header ∧
      written.prevPgno =
        if count = lockPgno pageSize then count - 1 else count := by
  have lockAbove := two_le_lockPgno sized
  induction count with
  | zero =>
      refine ⟨encoder, rfl, rfl, ?_⟩
      rw [if_neg (by omega)]
      exact fresh
  | succ count ih =>
      obtain ⟨middle, done, header, prev⟩ := ih (by omega)
      rw [snapshotPgnos_succ, encodeSnapshot_append done]
      by_cases lock : count + 1 = lockPgno pageSize
      · rw [if_pos lock, if_pos lock]
        refine ⟨middle, rfl, header, ?_⟩
        rw [prev, if_neg (by omega), Nat.add_sub_cancel]
      · rw [if_neg lock, if_neg lock]
        obtain ⟨data, read, length⟩ :=
          readable (count + 1) (Nat.le_add_left 1 _) bound lock
        have pageOk : PageOk middle.header (count + 1, data) := by
          rw [header]
          exact ⟨Nat.le_add_left 1 _, bound, by rw [headerSize]; exact lock,
            by rw [headerSize]; exact length⟩
        have ordered : middle.inOrder (count + 1) = true := by
          apply Encoder.inOrder_succ <;> rw [header, headerSize]
          · exact lockAbove
          · exact prev
          · exact lock
        obtain ⟨next, encoded, nextHeader, nextPrev⟩ :=
          Encoder.encodePage_total pageOk ordered
        refine ⟨next, ?_, nextHeader.trans header, nextPrev⟩
        exact bind_eq_ok.mpr ⟨data, read,
          bind_eq_ok.mpr ⟨next, liftLtx_eq_ok.mpr encoded, rfl⟩⟩

/-- Every page of the committed database is in the WAL or in the main file. -/
theorem snapshotPage_total {pgno : Nat} (ok : Readable pageSize db)
    (inFile : 1 ≤ pgno) (notLock : pgno ≠ lockPgno pageSize)
    (inside : if db.frames = [] then pgno ≤ pageCount pageSize db.main
      else pgno ≤ commitOf db.frames) :
    ∃ data, snapshotPage pageSize db
        (pageMap pageSize (locate pageSize 0 db.frames)) pgno = .ok data ∧
      data.length = pageSize := by
  have fromMain (below : pgno ≤ pageCount pageSize db.main) :
      pgno * pageSize ≤ db.main.length :=
    Nat.le_trans (Nat.mul_le_mul_right _ below) (Nat.div_mul_le_self _ _)
  unfold snapshotPage
  by_cases empty : db.frames = []
  · rw [if_pos empty] at inside
    rw [empty]
    simp only [locate, pageMap_nil, Std.ExtTreeMap.getElem?_empty]
    rw [if_pos (fromMain inside)]
    exact ⟨_, rfl, length_pageAt inFile (fromMain inside)⟩
  · rw [if_neg empty] at inside
    have members := @mem_mapPages pageSize 0 db.frames ok.frames empty pgno
    rw [List.drop_zero] at members
    split
    · rename_i offset mapped
      have member := (@mem_mapPages_iff pageSize db.frames _ pgno _).mpr
        ⟨offset, mapped, rfl⟩
      exact ⟨_, rfl, ok.frames.length_newest ((members _).mp member).2⟩
    · rename_i unmapped
      have absent : newest db.frames pgno = none := by
        cases found : newest db.frames pgno with
        | none => rfl
        | some data =>
            obtain ⟨offset, mapped, _⟩ :=
              mem_mapPages_iff.mp ((members data).mpr ⟨inside, found⟩)
            rw [unmapped] at mapped
            cases mapped
      have whole := fromMain (ok.spans pgno inside notLock absent)
      rw [if_pos whole]
      exact ⟨_, rfl, length_pageAt inFile whole⟩

theorem readTail_total {wal : Wal} {index : Nat}
    (inside : index ≤ wal.frames.length) :
    readTail pageSize wal (frameOffset pageSize index) =
      .ok (locate pageSize index (wal.frames.drop index)) := by
  have position := frameOffset_index pageSize index
  unfold readTail
  dsimp only
  rw [position, if_neg, if_neg (Nat.not_lt.mpr inside)]
  simp [frameOffset]

theorem walEntries_total (pageSize : Nat) (db : Sqlite) :
    walEntries pageSize db walHeaderSize =
      .ok (locate pageSize 0 db.frames) := by
  have start : walHeaderSize = frameOffset pageSize 0 := by simp [frameOffset]
  unfold walEntries Sqlite.frames
  cases db.wal with
  | none => rfl
  | some wal =>
      dsimp only
      rw [start]
      exact readTail_total (Nat.zero_le _)

theorem buildSnapshot_total (sized : isValidPageSize pageSize = true)
    (ok : Readable pageSize db) :
    ∃ staged file, buildSnapshot pageSize now pos db walHeaderSize =
      .ok (staged, file) := by
  obtain ⟨encoder, opened, header, fresh⟩ := Encoder.encodeHeader_total
    (validate_noChecksumHeader sized
      (if (pageMap pageSize (locate pageSize 0 db.frames)).commit > 0 then
        (pageMap pageSize (locate pageSize 0 db.frames)).commit
      else db.main.length / pageSize) pos.txid now walHeaderSize
      ((pageMap pageSize (locate pageSize 0 db.frames)).endOffset -
        walHeaderSize) ((db.wal.map Wal.salt1).getD 0)
      ((db.wal.map Wal.salt2).getD 0))
  have inside : ∀ pgno, pgno ≤ encoder.header.commit →
      if db.frames = [] then pgno ≤ pageCount pageSize db.main
      else pgno ≤ commitOf db.frames := by
    intro pgno below
    rw [header] at below
    split
    · rename_i empty
      simpa [noChecksumHeader, empty, locate, pageMap_nil, pageCount] using
        below
    · rename_i nonempty
      obtain ⟨commit, _⟩ := @pageMap_committed pageSize 0 _ ok.frames nonempty
      have committed : commitOf db.frames > 0 :=
        commitOf_pos ok.frames nonempty
      rw [commit, if_pos committed] at below
      exact below
  obtain ⟨written, encoded, _⟩ := encodeSnapshot_total sized
    (by rw [header]; rfl) fresh (Nat.le_refl _)
    fun pgno inFile below notLock =>
      snapshotPage_total ok inFile notLock (inside pgno below)
  refine ⟨_, _, bind_eq_ok.mpr ⟨_, walEntries_total pageSize db,
    bind_eq_ok.mpr ⟨encoder, liftLtx_eq_ok.mpr opened,
      bind_eq_ok.mpr ⟨written, ?_, rfl⟩⟩⟩⟩
  rw [← encoded, header]
  rfl

theorem mapPages_ascending (frames : List Frame) (map : PageMap) :
    (mapPages pageSize frames map).Pairwise fun left right =>
      left.1 < right.1 := by
  unfold mapPages
  rw [List.pairwise_map]
  refine (ExtTreeMap.ordered_keys_toList (t := map.pages)).imp ?_
  intro left right less
  exact Nat.compare_eq_lt.mp less

theorem buildIncremental_total (sized : isValidPageSize pageSize = true)
    {wal : Wal} {index : Nat} (framesOk : FramesOk pageSize wal.frames)
    (inside : index ≤ wal.frames.length) (synced : 1 ≤ pos.txid)
    (salt1 salt2 : Nat) :
    ∃ result, buildIncremental pageSize now pos wal (frameOffset pageSize index)
      salt1 salt2 = .ok result := by
  have tailOk := framesOk.drop index
  have read := @readTail_total pageSize wal index inside
  by_cases empty : (pageMap pageSize
      (locate pageSize index (wal.frames.drop index))).pages.isEmpty = true
  · refine ⟨none, bind_eq_ok.mpr ⟨_, read, ?_⟩⟩
    exact if_pos empty
  · have tailNonempty : wal.frames.drop index ≠ [] := by
      intro noFrames
      exact empty ((pageMap_isEmpty tailOk).mpr noFrames)
    obtain ⟨commit, _⟩ :=
      @pageMap_committed pageSize index _ tailOk tailNonempty
    obtain ⟨encoder, opened, header, fresh⟩ := Encoder.encodeHeader_total
      (validate_noChecksumHeader sized
        (pageMap pageSize (locate pageSize index
          (wal.frames.drop index))).commit pos.txid now
        (frameOffset pageSize index)
        ((pageMap pageSize (locate pageSize index
          (wal.frames.drop index))).endOffset - frameOffset pageSize index)
        salt1 salt2)
    have pagesOk : ∀ page ∈ mapPages pageSize wal.frames (pageMap pageSize
        (locate pageSize index (wal.frames.drop index))),
        PageOk encoder.header page := by
      intro page member
      obtain ⟨below, found⟩ :=
        (mem_mapPages tailOk tailNonempty page.1 page.2).mp member
      obtain ⟨frame, framed, number, data⟩ := newest_eq_some found
      have frameOk := tailOk.each frame framed
      rw [header]
      refine ⟨?_, ?_, ?_, ?_⟩
      · rw [← number]
        exact frameOk.positive
      · rw [← commit] at below
        exact below
      · rw [← number]
        exact frameOk.notLock
      · rw [← data]
        exact frameOk.length
    obtain ⟨written, encoded⟩ := Encoder.encodePages_total
      (by rw [header]; simp [Header.isSnapshot, noChecksumHeader]; omega)
      (mapPages_ascending _ _)
      (by rw [fresh]; exact fun page member => (pagesOk page member).1) pagesOk
    have whole : encodeFile encoder.header (mapPages pageSize wal.frames
        (pageMap pageSize (locate pageSize index
          (wal.frames.drop index)))) = .ok written.finish := by
      rw [← header] at opened
      exact bind_eq_ok.mpr ⟨encoder, opened,
        bind_eq_ok.mpr ⟨written, encoded, rfl⟩⟩
    rw [header] at whole
    unfold buildIncremental
    rw [read]
    dsimp only [bind, Except.bind]
    rw [if_neg empty, whole]
    exact ⟨_, rfl⟩

theorem plan_snapshot {wal : Option Wal} {offset : Nat}
    (planned : plan pageSize pos wal = .snapshot offset) :
    offset = walHeaderSize := by
  unfold plan at planned
  split at planned
  · split at planned
    · cases planned
      rfl
    · split at planned
      · cases planned
      · cases planned
        rfl
  · split at planned
    · cases planned
      rfl
    · split at planned
      · cases planned
      · cases planned

end Building

end Literstream
