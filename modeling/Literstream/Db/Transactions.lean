import Mathlib.Data.List.DropRight
import Literstream.Db.Sqlite

/-!
# Transactions in a log

The frames of a generation are whole transactions, each ending with the one
frame that commits it, and perhaps the first frames of one more.  Any cut of
them keeps whole transactions and an open tail that no reader counts.
-/

namespace Literstream

/-- The frames up to the last commit. -/
def committed (frames : List Frame) : List Frame :=
  frames.rdropWhile fun frame => frame.commit = 0

/-- Database size after frames on top of a database of `size` pages. -/
def sizeAfter (size : Nat) (frames : List Frame) : Nat :=
  (frames.getLast?.map Frame.commit).getD size

/-- The frames that follow on a database of `size` pages. -/
inductive Transactions (pageSize : Nat) : Nat → List Frame → Prop where
  | openTail {size : Nat} {frames : List Frame}
      (each : ∀ frame ∈ frames, FrameOk pageSize frame)
      (uncommitted : ∀ frame ∈ frames, frame.commit = 0) :
      Transactions pageSize size frames
  | transaction {size : Nat} {body rest : List Frame} {last : Frame}
      (uncommitted : ∀ frame ∈ body, frame.commit = 0)
      (ok : TxnOk pageSize size (body ++ [last]))
      (later : Transactions pageSize last.commit rest) :
      Transactions pageSize size (body ++ last :: rest)

/-- Whole transactions and the frames of one that is still open. -/
def OpenAfter (done frames : List Frame) : Prop :=
  ∃ tail, frames = done ++ tail ∧ ∀ frame ∈ tail, frame.commit = 0

/-- What a cut after `count` frames leaves. -/
structure Cut (pageSize size : Nat) (frames : List Frame) (count : Nat)
    (done : List Frame) : Prop where
  whole : FramesOk pageSize done
  txn : done ≠ [] → TxnOk pageSize size done
  tail : OpenAfter done (frames.take count)
  rest : Transactions pageSize (sizeAfter size done)
    (frames.drop done.length)

section Committed

variable {pageSize : Nat} {frames tail : List Frame}

theorem committed_append (uncommitted : ∀ frame ∈ tail, frame.commit = 0) :
    committed (frames ++ tail) = committed frames := by
  induction tail using List.reverseRecOn with
  | nil => rw [List.append_nil]
  | append_singleton tail frame ih =>
      rw [← List.append_assoc, committed, List.rdropWhile_concat_pos]
      · exact ih fun other member => uncommitted other (by simp [member])
      · simp [uncommitted frame]

theorem FramesOk.committed (ok : FramesOk pageSize frames) :
    committed frames = frames := by
  rw [Literstream.committed, List.rdropWhile_eq_self_iff]
  intro nonempty
  have commits := (ok.commits _ (List.getLast?_eq_some_getLast nonempty)).1
  simp
  omega

/-- The walk over the frames forgets what no frame commits. -/
theorem pageMap_append {entries open_ : List (Nat × Frame)}
    (uncommitted : ∀ entry ∈ open_, entry.2.commit = 0) :
    pageMap pageSize (entries ++ open_) = pageMap pageSize entries := by
  have walk : (PageWalk.finish (entries ++ open_)).pages =
        (PageWalk.finish entries).pages ∧
      (PageWalk.finish (entries ++ open_)).commit =
        (PageWalk.finish entries).commit := by
    induction open_ using List.reverseRecOn with
    | nil => rw [List.append_nil]; exact ⟨rfl, rfl⟩
    | append_singleton open_ entry ih =>
        rw [← List.append_assoc, PageWalk.finish_append, PageWalk.next,
          if_pos (uncommitted entry (by simp))]
        exact ih fun other member => uncommitted other (by simp [member])
  unfold pageMap
  dsimp only
  rw [walk.1, walk.2]

theorem pageMap_locate (index : Nat)
    (uncommitted : ∀ frame ∈ tail, frame.commit = 0) :
    pageMap pageSize (locate pageSize index (frames ++ tail)) =
      pageMap pageSize (locate pageSize index frames) := by
  rw [locate_append]
  apply pageMap_append
  intro entry member
  obtain ⟨position, found, _⟩ := mem_locate member
  exact uncommitted _ (List.mem_of_getElem? found)

end Committed

section Sizes

variable {pageSize size : Nat}

theorem sizeAfter_append (left right : List Frame) :
    sizeAfter size (left ++ right) =
      sizeAfter (sizeAfter size left) right := by
  unfold sizeAfter
  rw [List.getLast?_append]
  cases right.getLast? <;> rfl

theorem sizeAfter_eq_commitOf {frames : List Frame} (nonempty : frames ≠ []) :
    sizeAfter size frames = commitOf frames := by
  rw [sizeAfter, commitOf, List.getLast?_eq_some_getLast nonempty]
  rfl

theorem pageCount_overlay_eq {image : Bytes} {frames : List Frame}
    (positive : 0 < pageSize) (imageOk : ImageOk pageSize image)
    (framesOk : FramesOk pageSize frames) :
    pageCount pageSize (overlay pageSize image frames) =
      sizeAfter (pageCount pageSize image) frames := by
  by_cases empty : frames = []
  · subst empty
    rfl
  · rw [pageCount_overlay positive imageOk framesOk empty,
      sizeAfter_eq_commitOf empty]

/-- Transactions one after the other. -/
theorem TxnOk.append {first later : List Frame}
    (firstOk : TxnOk pageSize size first)
    (laterOk : TxnOk pageSize (sizeAfter size first) later) :
    TxnOk pageSize size (first ++ later) where
  frames := firstOk.frames.append laterOk.frames
  nonempty := by simp [firstOk.nonempty]
  grown := by
    intro pgno beyond inside notLock
    rw [commitOf_append laterOk.nonempty] at inside
    rw [newest_append, Ne, Option.or_eq_none_iff, not_and_or]
    by_cases old : pgno ≤ sizeAfter size first
    · rw [sizeAfter_eq_commitOf firstOk.nonempty] at old
      exact .inr (firstOk.grown pgno beyond old notLock)
    · exact .inl (laterOk.grown pgno (by omega) inside notLock)

end Sizes

/-- A cut anywhere leaves whole transactions, an open tail, and the rest behind
the transactions. -/
theorem Transactions.cut {pageSize size : Nat} {frames : List Frame}
    (transactions : Transactions pageSize size frames) (count : Nat) :
    ∃ done, Cut pageSize size frames count done := by
  induction transactions generalizing count with
  | openTail each uncommitted =>
      refine ⟨[], .nil, fun absurd_ => absurd rfl absurd_, ⟨_, rfl, ?_⟩, ?_⟩
      · exact fun frame member =>
          uncommitted frame (List.mem_of_mem_take member)
      · exact .openTail each uncommitted
  | @transaction size body rest last uncommitted ok later ih =>
      by_cases inside : count ≤ body.length
      · refine ⟨[], .nil, fun absurd_ => absurd rfl absurd_, ⟨_, rfl, ?_⟩, ?_⟩
        · intro frame member
          rw [List.take_append_of_le_length inside] at member
          exact uncommitted frame (List.mem_of_mem_take member)
        · exact .transaction uncommitted ok later
      · obtain ⟨more, rfl⟩ : ∃ more, count = (body ++ [last]).length + more :=
          Nat.exists_eq_add_of_le (by simp; omega)
        obtain ⟨done, cut⟩ := ih more
        obtain ⟨tail, taken, open_⟩ := cut.tail
        have split : body ++ last :: rest = (body ++ [last]) ++ rest := by simp
        have size_ : sizeAfter size (body ++ [last]) = last.commit := by
          simp [sizeAfter]
        refine ⟨(body ++ [last]) ++ done, ok.frames.append cut.whole, ?_,
          ⟨tail, ?_, open_⟩, ?_⟩
        · intro _
          by_cases none_ : done = []
          · subst none_
            rw [List.append_nil]
            exact ok
          · exact ok.append (by rw [size_]; exact cut.txn none_)
        · rw [split, List.take_length_add_append, taken, ← List.append_assoc]
        · rw [split, sizeAfter_append, size_, List.length_append,
            ← List.drop_drop, List.drop_left]
          exact cut.rest

section Cuts

variable {pageSize size count : Nat} {frames done : List Frame}

theorem OpenAfter.committed (after : OpenAfter done frames)
    (framesOk : FramesOk pageSize done) : committed frames = done := by
  obtain ⟨tail, rfl, uncommitted⟩ := after
  rw [committed_append uncommitted, framesOk.committed]

theorem OpenAfter.length_le (after : OpenAfter done (frames.take count)) :
    done.length ≤ count ∧ done.length ≤ frames.length := by
  obtain ⟨tail, taken, _⟩ := after
  have lengths := congrArg List.length taken
  rw [List.length_take, List.length_append] at lengths
  omega

theorem OpenAfter.getElem? {index : Nat} (after : OpenAfter done frames)
    (inside : index < done.length) : frames[index]? = some done[index] := by
  obtain ⟨tail, rfl, _⟩ := after
  rw [List.getElem?_append_left inside, List.getElem?_eq_getElem inside]

/-- What the open tail holds does not count. -/
theorem OpenAfter.pageMap {index : Nat} (after : OpenAfter done frames)
    (inside : index ≤ done.length) :
    pageMap pageSize (locate pageSize index (frames.drop index)) =
      Literstream.pageMap pageSize (locate pageSize index (done.drop index)) := by
  obtain ⟨tail, rfl, uncommitted⟩ := after
  rw [List.drop_append_of_le_length inside, pageMap_locate index uncommitted]

/-- The committed frames of a cut are its whole transactions. -/
theorem Transactions.committed
    (transactions : Transactions pageSize size frames) (count : Nat) :
    Cut pageSize size frames count (committed (frames.take count)) := by
  obtain ⟨done, cut⟩ := transactions.cut count
  rw [cut.tail.committed cut.whole]
  exact cut

/-- A later cut adds transactions to those of an earlier one. -/
theorem Transactions.committed_append
    (transactions : Transactions pageSize size frames) {later : Nat}
    (ordered : count ≤ later) :
    ∃ next, Literstream.committed (frames.take later) =
        Literstream.committed (frames.take count) ++ next ∧
      FramesOk pageSize next ∧
      (next ≠ [] → TxnOk pageSize
        (sizeAfter size (Literstream.committed (frames.take count))) next) := by
  have cut := transactions.committed count
  have short := cut.tail.length_le.1
  generalize Literstream.committed (frames.take count) = done at cut short ⊢
  obtain ⟨next, nextCut⟩ := cut.rest.cut (later - done.length)
  refine ⟨next, ?_, nextCut.whole, nextCut.txn⟩
  have start : frames.take done.length = done := by
    obtain ⟨tail, taken, _⟩ := cut.tail
    have first := congrArg (List.take done.length) taken
    rw [List.take_take, Nat.min_eq_left short, List.take_left] at first
    exact first
  obtain ⟨tail, taken, uncommitted⟩ := nextCut.tail
  have split : frames.take later = (done ++ next) ++ tail := by
    have parts := @List.take_add _ frames done.length (later - done.length)
    rw [Nat.add_sub_cancel' (Nat.le_trans short ordered), start, taken,
      ← List.append_assoc] at parts
    exact parts
  exact OpenAfter.committed ⟨tail, split, uncommitted⟩
    (cut.whole.append nextCut.whole)

end Cuts

end Literstream
