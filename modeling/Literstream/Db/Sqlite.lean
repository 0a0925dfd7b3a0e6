import Literstream.Wal.Overlay

/-!
# The database behind a replica

What the replicator may assume of SQLite: a commit appends frames to the current
generation of the WAL, or first restarts it with new salts when every frame is
already in the main file; a checkpoint copies frames into the main file and
leaves the committed image alone.
-/

namespace Literstream

open PagedFile

/-- A WAL with a header.  `stale` counts the frames of an older generation that
still lie behind the current ones in the file. -/
structure Wal where
  salt1 : Nat
  salt2 : Nat
  frames : List Frame
  stale : Nat
deriving DecidableEq, Repr

/-- The length of the WAL file. -/
def Wal.size (pageSize : Nat) (wal : Wal) : Nat :=
  frameOffset pageSize (wal.frames.length + wal.stale)

/-- A database: the main file, the WAL unless it is missing or empty, the number
of its frames already in the main file, and the first salt of the last
generation, which each new generation increments. -/
structure Sqlite where
  main : Bytes
  wal : Option Wal
  backfill : Nat
  lastSalt1 : Nat
deriving DecidableEq, Repr

namespace Sqlite

def frames (db : Sqlite) : List Frame := (db.wal.map Wal.frames).getD []

/-- The main file overlaid with the committed frames of the WAL. -/
def committedImage (pageSize : Nat) (db : Sqlite) : Bytes :=
  overlay pageSize db.main db.frames

/-- A commit that continues the current generation, or starts one in an empty
WAL. -/
def append (db : Sqlite) (salt2 : Nat) (txn : List Frame) : Sqlite :=
  match db.wal with
  | none =>
      { db with
        wal := some
          { salt1 := db.lastSalt1 + 1
            salt2 := salt2
            frames := txn
            stale := 0 }
        backfill := 0
        lastSalt1 := db.lastSalt1 + 1 }
  | some wal =>
      { db with
        wal := some
          { wal with
            frames := wal.frames ++ txn
            stale := wal.stale - txn.length } }

/-- A commit that starts a new generation over a WAL whose frames are all in the
main file. -/
def restart (db : Sqlite) (salt2 : Nat) (txn : List Frame) : Option Sqlite :=
  match db.wal with
  | none => none
  | some wal =>
      if 0 < db.backfill ∧ db.backfill = wal.frames.length then
        some
          { db with
            wal := some
              { salt1 := db.lastSalt1 + 1
                salt2 := salt2
                frames := txn
                stale := wal.frames.length + wal.stale - txn.length }
            backfill := 0
            lastSalt1 := db.lastSalt1 + 1 }
      else none

/-- The highest page among the first `count` frames that the database keeps. -/
def highestPage (db : Sqlite) (count : Nat) : Nat :=
  ((db.frames.take count).filter fun frame =>
    frame.pgno ≤ commitOf db.frames).foldl
      (fun highest frame => max highest frame.pgno) 0

/-- Copy the first `count` frames into the main file.  Only a checkpoint of all
frames sets its length. -/
def checkpoint (pageSize : Nat) (db : Sqlite) (count : Nat) : Sqlite :=
  { db with
    main :=
      if count = db.frames.length then db.committedImage pageSize
      else
        ofPages (max (pageCount pageSize db.main) (db.highestPage count))
          fun pgno =>
            if pgno ≤ commitOf db.frames then
              (newest (db.frames.take count) pgno).getD
                (pageOf pageSize db.main pgno)
            else pageOf pageSize db.main pgno
    backfill := count }

/-- A TRUNCATE checkpoint that gets through. -/
def truncate (pageSize : Nat) (db : Sqlite) : Sqlite :=
  { db with
    main := db.committedImage pageSize
    wal := none
    backfill := 0 }

end Sqlite

/-- One or more whole transactions on a database of `size` pages: every page
that they add is among their frames. -/
structure TxnOk (pageSize size : Nat) (txn : List Frame) : Prop where
  frames : FramesOk pageSize txn
  nonempty : txn ≠ []
  grown : ∀ pgno, size < pgno → pgno ≤ commitOf txn →
    pgno ≠ lockPgno pageSize → newest txn pgno ≠ none

structure DbOk (pageSize : Nat) (db : Sqlite) : Prop where
  main : ImageOk pageSize db.main
  frames : FramesOk pageSize db.frames
  /-- A page without a frame is in the main file. -/
  spans : ∀ pgno, pgno ≤ commitOf db.frames → pgno ≠ lockPgno pageSize →
    newest db.frames pgno = none → pgno ≤ pageCount pageSize db.main
  backfill : db.backfill ≤ db.frames.length
  folded : db.backfill = db.frames.length →
    db.committedImage pageSize = db.main
  salts : ∀ wal, db.wal = some wal →
    1 ≤ wal.salt1 ∧ wal.salt1 ≤ db.lastSalt1

/-- What a reader of the database relies on. -/
structure Readable (pageSize : Nat) (db : Sqlite) : Prop where
  main : ImageOk pageSize db.main
  frames : FramesOk pageSize db.frames
  spans : ∀ pgno, pgno ≤ commitOf db.frames → pgno ≠ lockPgno pageSize →
    newest db.frames pgno = none → pgno ≤ pageCount pageSize db.main

section Operations

variable {pageSize : Nat} {db : Sqlite}

theorem DbOk.readable (ok : DbOk pageSize db) : Readable pageSize db :=
  ⟨ok.main, ok.frames, ok.spans⟩

theorem Sqlite.frames_of_wal {wal : Wal} (present : db.wal = some wal) :
    db.frames = wal.frames := by
  simp [Sqlite.frames, present]

theorem Sqlite.frames_of_none (absent : db.wal = none) : db.frames = [] := by
  simp [Sqlite.frames, absent]

theorem DbOk.committed (positive : 0 < pageSize) (ok : DbOk pageSize db) :
    ImageOk pageSize (db.committedImage pageSize) :=
  ok.main.overlay positive ok.frames

theorem Sqlite.frames_append (salt2 : Nat) (txn : List Frame) :
    (db.append salt2 txn).frames = db.frames ++ txn := by
  unfold append frames
  cases db.wal <;> rfl

theorem Sqlite.main_append (salt2 : Nat) (txn : List Frame) :
    (db.append salt2 txn).main = db.main := by
  unfold append
  cases db.wal <;> rfl

/-- A commit puts its transaction on top of the committed image. -/
theorem DbOk.committedImage_append {txn : List Frame} (positive : 0 < pageSize)
    (ok : DbOk pageSize db) (salt2 : Nat)
    (txnOk : TxnOk pageSize
      (pageCount pageSize (db.committedImage pageSize)) txn) :
    (db.append salt2 txn).committedImage pageSize =
      overlay pageSize (db.committedImage pageSize) txn := by
  rw [Sqlite.committedImage, Sqlite.frames_append, Sqlite.main_append]
  exact overlay_append positive ok.main ok.frames txnOk.frames txnOk.nonempty
    txnOk.grown

theorem DbOk.append {txn : List Frame} (positive : 0 < pageSize)
    (ok : DbOk pageSize db) (salt2 : Nat) (txnOk : TxnOk pageSize
      (pageCount pageSize (db.committedImage pageSize)) txn) :
    DbOk pageSize (db.append salt2 txn) := by
  have longer : 0 < txn.length := List.length_pos_iff.mpr txnOk.nonempty
  have backfill : (db.append salt2 txn).backfill ≤ db.frames.length := by
    unfold Sqlite.append
    cases db.wal with
    | none => exact Nat.zero_le _
    | some wal => exact ok.backfill
  have length := congrArg List.length (@Sqlite.frames_append db salt2 txn)
  rw [List.length_append] at length
  constructor
  · rw [Sqlite.main_append]
    exact ok.main
  · rw [Sqlite.frames_append]
    exact ok.frames.append txnOk.frames
  · intro pgno
    rw [Sqlite.frames_append, Sqlite.main_append,
      commitOf_append txnOk.nonempty, newest_append, Option.or_eq_none_iff]
    rintro inside notLock ⟨absent, before⟩
    have old : pgno ≤ pageCount pageSize (db.committedImage pageSize) := by
      by_contra beyond
      exact txnOk.grown pgno (by omega) inside notLock absent
    by_cases empty : db.frames = []
    · rw [Sqlite.committedImage, empty] at old
      exact old
    · rw [Sqlite.committedImage,
        pageCount_overlay positive ok.main ok.frames empty] at old
      exact ok.spans pgno old notLock before
  · omega
  · omega
  · intro wal present
    unfold Sqlite.append at present ⊢
    cases old : db.wal with
    | none =>
        rw [old] at present
        cases present
        exact ⟨Nat.le_add_left 1 _, Nat.le_refl _⟩
    | some before =>
        rw [old] at present
        cases present
        exact ok.salts before old

theorem Sqlite.restart_eq_some {next : Sqlite} {salt2 : Nat}
    {txn : List Frame} (done : db.restart salt2 txn = some next) :
    ∃ wal, db.wal = some wal ∧ 0 < db.backfill ∧
      db.backfill = wal.frames.length ∧
      next.main = db.main ∧ next.backfill = 0 ∧
      next.lastSalt1 = db.lastSalt1 + 1 ∧
      ∃ stale, next.wal = some
        { salt1 := db.lastSalt1 + 1
          salt2 := salt2
          frames := txn
          stale := stale } := by
  unfold restart at done
  split at done
  · cases done
  · rename_i wal present
    split at done
    · rename_i folded
      cases done
      exact ⟨wal, present, folded.1, folded.2, rfl, rfl, rfl, _, rfl⟩
    · cases done

/-- A restart keeps what the main file holds. -/
theorem DbOk.restart {next : Sqlite} {salt2 : Nat} {txn : List Frame}
    (ok : DbOk pageSize db)
    (txnOk : TxnOk pageSize
      (pageCount pageSize (db.committedImage pageSize)) txn)
    (done : db.restart salt2 txn = some next) :
    DbOk pageSize next ∧ db.committedImage pageSize = db.main ∧
      next.committedImage pageSize =
        overlay pageSize (db.committedImage pageSize) txn := by
  obtain ⟨wal, present, _, all, main, backfill, last, stale, started⟩ :=
    Sqlite.restart_eq_some done
  have folded := ok.folded (by rw [Sqlite.frames_of_wal present]; exact all)
  have frames := Sqlite.frames_of_wal started
  have longer : 0 < txn.length := List.length_pos_iff.mpr txnOk.nonempty
  refine ⟨?_, folded, ?_⟩
  · constructor
    · rw [main]
      exact ok.main
    · rw [frames]
      exact txnOk.frames
    · rw [frames, main]
      intro pgno inside notLock absent
      by_contra beyond
      exact txnOk.grown pgno (by rw [folded]; omega) inside notLock absent
    · omega
    · rw [frames, backfill]
      intro impossible
      simp only at impossible
      omega
    · intro later laterWal
      rw [started] at laterWal
      cases laterWal
      rw [last]
      exact ⟨Nat.le_add_left 1 _, Nat.le_refl _⟩
  · rw [folded, Sqlite.committedImage, frames, main]

theorem newest_take {frames : List Frame} {pgno : Nat}
    (absent : newest frames pgno = none) (count : Nat) :
    newest (frames.take count) pgno = none :=
  newest_eq_none.mpr fun frame member =>
    newest_eq_none.mp absent frame (List.mem_of_mem_take member)

/-- The pages of the main file after a checkpoint of some of the frames. -/
theorem DbOk.checkpoint_pages (positive : 0 < pageSize) (ok : DbOk pageSize db)
    {count : Nat} (partial_ : count ≠ db.frames.length) :
    ImageOk pageSize (db.checkpoint pageSize count).main ∧
      pageCount pageSize db.main ≤
        pageCount pageSize (db.checkpoint pageSize count).main ∧
      ∀ pgno, newest db.frames pgno = none →
        pageOf pageSize (db.checkpoint pageSize count).main pgno =
          pageOf pageSize db.main pgno := by
  have taken : FramesOk pageSize db.frames := ok.frames
  have length : ∀ pgno, (if pgno ≤ commitOf db.frames then
      (newest (db.frames.take count) pgno).getD (pageOf pageSize db.main pgno)
      else pageOf pageSize db.main pgno).length = pageSize := by
    intro pgno
    split
    · cases found : newest (db.frames.take count) pgno with
      | some data =>
          obtain ⟨frame, member, _, rfl⟩ := newest_eq_some found
          exact (taken.each frame (List.mem_of_mem_take member)).length
      | none => exact length_pageOf ok.main pgno
    · exact length_pageOf ok.main pgno
  have main : (db.checkpoint pageSize count).main =
      ofPages (max (pageCount pageSize db.main) (db.highestPage count))
        fun pgno =>
          if pgno ≤ commitOf db.frames then
            (newest (db.frames.take count) pgno).getD
              (pageOf pageSize db.main pgno)
          else pageOf pageSize db.main pgno := by
    simp [Sqlite.checkpoint, partial_]
  have whole := length_ofPages
    (max (pageCount pageSize db.main) (db.highestPage count)) length
  rw [← main] at whole
  have size := pageCount_of_length positive whole
  have kept : ∀ pgno, newest db.frames pgno = none →
      pageOf pageSize (db.checkpoint pageSize count).main pgno =
        pageOf pageSize db.main pgno := by
    intro pgno absent
    rw [pageOf, size]
    split
    · rename_i inside
      rw [main, pageAt_ofPages length inside.1 inside.2,
        newest_take absent, Option.getD_none, ite_self]
    · rename_i outside
      rw [pageOf, if_neg (by omega)]
  refine ⟨⟨by rw [size]; exact whole, ?_⟩,
    by rw [size]; exact Nat.le_max_left _ _, kept⟩
  intro inside
  have page := kept _ taken.newest_lock
  rw [ok.main.pageOf_lock] at page
  rw [← page, pageOf, if_pos ⟨lockPgno_pos pageSize, inside⟩]

/-- A checkpoint leaves the committed image alone. -/
theorem DbOk.checkpoint (positive : 0 < pageSize) (ok : DbOk pageSize db)
    {count : Nat} (bound : count ≤ db.frames.length) :
    DbOk pageSize (db.checkpoint pageSize count) ∧
      (db.checkpoint pageSize count).committedImage pageSize =
        db.committedImage pageSize := by
  have committedOk := ok.committed positive
  by_cases all : count = db.frames.length
  · have main : (db.checkpoint pageSize count).main =
        db.committedImage pageSize := by
      simp [Sqlite.checkpoint, all]
    have same : (db.checkpoint pageSize count).committedImage pageSize =
        db.committedImage pageSize := by
      change overlay pageSize (db.checkpoint pageSize count).main db.frames = _
      rw [main]
      by_cases empty : db.frames = []
      · rw [empty]
        rfl
      · apply (committedOk.overlay positive ok.frames).ext committedOk
        · rw [pageCount_overlay positive committedOk ok.frames empty,
            Sqlite.committedImage,
            pageCount_overlay positive ok.main ok.frames empty]
        · intro pgno inFile inside
          rw [pageCount_overlay positive committedOk ok.frames empty] at inside
          rw [pageOf_overlay positive committedOk ok.frames empty inFile
            inside]
          cases found : newest db.frames pgno with
          | none => rfl
          | some data =>
              rw [Sqlite.committedImage,
                pageOf_overlay positive ok.main ok.frames empty inFile inside,
                found]
              rfl
    refine ⟨⟨by rw [main]; exact committedOk, ok.frames, ?_, bound, ?_,
      ok.salts⟩, same⟩
    · intro pgno inside _ _
      change pgno ≤ commitOf db.frames at inside
      rw [main]
      by_cases empty : db.frames = []
      · rw [empty] at inside
        exact Nat.le_trans inside (Nat.zero_le _)
      · rw [Sqlite.committedImage,
          pageCount_overlay positive ok.main ok.frames empty]
        exact inside
    · intro _
      rw [same, main]
  · obtain ⟨mainOk, larger, kept⟩ := ok.checkpoint_pages positive all
    have nonempty : db.frames ≠ [] := by
      intro empty
      rw [empty, List.length_nil] at bound all
      omega
    refine ⟨⟨mainOk, ok.frames, ?_, bound, fun impossible =>
      absurd impossible all, ok.salts⟩, ?_⟩
    · exact fun pgno inside notLock absent =>
        Nat.le_trans (ok.spans pgno inside notLock absent) larger
    change overlay pageSize (db.checkpoint pageSize count).main db.frames =
      overlay pageSize db.main db.frames
    apply (mainOk.overlay positive ok.frames).ext committedOk
    · rw [pageCount_overlay positive mainOk ok.frames nonempty,
        Sqlite.committedImage,
        pageCount_overlay positive ok.main ok.frames nonempty]
    · intro pgno inFile inside
      rw [pageCount_overlay positive mainOk ok.frames nonempty] at inside
      rw [pageOf_overlay positive mainOk ok.frames nonempty inFile inside,
        Sqlite.committedImage,
        pageOf_overlay positive ok.main ok.frames nonempty inFile inside]
      cases found : newest db.frames pgno with
      | some data => rfl
      | none => exact kept pgno found

theorem DbOk.truncate (positive : 0 < pageSize) (ok : DbOk pageSize db) :
    DbOk pageSize (db.truncate pageSize) where
  main := ok.committed positive
  frames := .nil
  spans := fun _ inside _ _ => Nat.le_trans inside (Nat.zero_le _)
  backfill := Nat.zero_le _
  folded := fun _ => rfl
  salts := fun _ impossible => by cases impossible

end Operations

end Literstream
