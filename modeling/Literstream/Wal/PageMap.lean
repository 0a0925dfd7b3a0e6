import Mathlib.Data.List.Induction
import Literstream.Ltx.Format
import Literstream.Lib.OrderedMap

/-!
# The committed pages of a write-ahead log

The reader of a WAL walks over the frames of the current generation and maps
every page to the offset of its newest committed frame.  Frames are numbered
from 0; salts and checksums decide where a generation ends and are not repeated
in its frames.
-/

namespace Literstream

open Std

def walHeaderSize : Nat := 32

def walFrameHeaderSize : Nat := 24

/-- A frame header and one page. -/
def frameSize (pageSize : Nat) : Nat := walFrameHeaderSize + pageSize

/-- The offset of a frame. -/
def frameOffset (pageSize index : Nat) : Nat :=
  walHeaderSize + index * frameSize pageSize

structure Frame where
  pgno : Nat
  /-- Database size in pages after the frame's transaction, 0 if the frame does
  not commit. -/
  commit : Nat
  data : Bytes
deriving DecidableEq, Repr

/-- Frames with their offsets, the first one being the frame `index`. -/
def locate (pageSize : Nat) : Nat → List Frame → List (Nat × Frame)
  | _, [] => []
  | index, frame :: rest =>
      (frameOffset pageSize index, frame) :: locate pageSize (index + 1) rest

/-- The latest committed frame offset of each page. -/
structure PageMap where
  pages : ExtTreeMap Nat Nat
  /-- Database size at the last commit. -/
  commit : Nat
  /-- The end of the highest frame in the map. -/
  endOffset : Nat

/-- The state of the walk: the offsets seen so far, those promoted by a commit,
and the size at the last commit. -/
structure PageWalk where
  tx : ExtTreeMap Nat Nat
  pages : ExtTreeMap Nat Nat
  commit : Nat

namespace PageWalk

def start : PageWalk where
  tx := ∅
  pages := ∅
  commit := 0

/-- A commit promotes all offsets seen so far; `tx` is never cleared. -/
def next (walk : PageWalk) (entry : Nat × Frame) : PageWalk :=
  let tx := walk.tx.insert entry.2.pgno entry.1
  if entry.2.commit = 0 then { walk with tx := tx }
  else
    { tx := tx
      pages := walk.pages ∪ tx
      commit := entry.2.commit }

def finish (entries : List (Nat × Frame)) : PageWalk := entries.foldl next start

end PageWalk

/-- The committed page map of located frames; pages past the final database
size are dropped. -/
def pageMap (pageSize : Nat) (entries : List (Nat × Frame)) : PageMap :=
  let walk := PageWalk.finish entries
  let pages := walk.pages.filter fun pgno _ => pgno ≤ walk.commit
  { pages := pages
    commit := walk.commit
    endOffset :=
      match (pages.toList.map Prod.snd).max? with
      | some highest => highest + frameSize pageSize
      | none => 0 }

theorem pageMap_endOffset {pageSize highest : Nat}
    {entries : List (Nat × Frame)}
    (found : ((pageMap pageSize entries).pages.toList.map Prod.snd).max? =
      some highest) :
    (pageMap pageSize entries).endOffset = highest + frameSize pageSize := by
  simp only [pageMap] at found ⊢
  rw [found]

/-- The last entry of a page. -/
def newestEntry : List (Nat × Frame) → Nat → Option (Nat × Frame)
  | [], _ => none
  | entry :: rest, pgno =>
      (newestEntry rest pgno).or
        (if entry.2.pgno = pgno then some entry else none)

/-- The contents of a page in its last frame. -/
def newest : List Frame → Nat → Option Bytes
  | [], _ => none
  | frame :: rest, pgno =>
      (newest rest pgno).or
        (if frame.pgno = pgno then some frame.data else none)

/-- Database size after the last frame. -/
def commitOf (frames : List Frame) : Nat :=
  (frames.getLast?.map Frame.commit).getD 0

theorem frameSize_pos (pageSize : Nat) : 0 < frameSize pageSize :=
  Nat.lt_of_lt_of_le (by decide) (Nat.le_add_right walFrameHeaderSize pageSize)

theorem frameOffset_index (pageSize index : Nat) :
    (frameOffset pageSize index - walHeaderSize) / frameSize pageSize =
      index := by
  rw [frameOffset, Nat.add_sub_cancel_left,
    Nat.mul_div_cancel _ (frameSize_pos pageSize)]

theorem frameOffset_succ (pageSize index : Nat) :
    frameOffset pageSize (index + 1) =
      frameOffset pageSize index + frameSize pageSize := by
  rw [frameOffset, frameOffset, Nat.succ_mul, Nat.add_assoc]

theorem mem_locate {pageSize index : Nat} {frames : List Frame}
    {entry : Nat × Frame} (member : entry ∈ locate pageSize index frames) :
    ∃ position, frames[position]? = some entry.2 ∧
      entry.1 = frameOffset pageSize (index + position) := by
  induction frames generalizing index with
  | nil => cases member
  | cons frame rest ih =>
      rcases List.mem_cons.mp member with rfl | later
      · exact ⟨0, rfl, rfl⟩
      · obtain ⟨position, found, offset⟩ := ih later
        refine ⟨position + 1, by simpa using found, ?_⟩
        rw [offset, Nat.add_assoc, Nat.add_comm 1 position]

theorem locate_append (pageSize index : Nat) (left right : List Frame) :
    locate pageSize index (left ++ right) =
      locate pageSize index left ++
        locate pageSize (index + left.length) right := by
  induction left generalizing index with
  | nil => rfl
  | cons frame rest ih =>
      simp only [List.cons_append, locate, ih, List.length_cons,
        Nat.add_comm rest.length 1, Nat.add_assoc]

theorem locate_singleton (pageSize index : Nat) (frame : Frame) :
    locate pageSize index [frame] = [(frameOffset pageSize index, frame)] := rfl

theorem newestEntry_mem {entries : List (Nat × Frame)} {pgno : Nat}
    {entry : Nat × Frame} (found : newestEntry entries pgno = some entry) :
    entry ∈ entries ∧ entry.2.pgno = pgno := by
  induction entries with
  | nil => cases found
  | cons first rest ih =>
      simp only [newestEntry] at found
      cases later : newestEntry rest pgno with
      | some other =>
          simp only [later, Option.some_or, Option.some.injEq] at found
          subst found
          obtain ⟨member, same⟩ := ih later
          exact ⟨List.mem_cons_of_mem _ member, same⟩
      | none =>
          simp only [later, Option.none_or] at found
          split at found
          · cases found
            exact ⟨List.mem_cons_self, by assumption⟩
          · cases found

theorem newestEntry_append (left right : List (Nat × Frame)) (pgno : Nat) :
    newestEntry (left ++ right) pgno =
      (newestEntry right pgno).or (newestEntry left pgno) := by
  induction left with
  | nil => simp [newestEntry]
  | cons entry rest ih =>
      simp only [List.cons_append, newestEntry, ih, Option.or_assoc]

theorem newest_append (left right : List Frame) (pgno : Nat) :
    newest (left ++ right) pgno =
      (newest right pgno).or (newest left pgno) := by
  induction left with
  | nil => simp [newest]
  | cons frame rest ih =>
      simp only [List.cons_append, newest, ih, Option.or_assoc]

theorem newest_eq_some {frames : List Frame} {pgno : Nat} {data : Bytes}
    (found : newest frames pgno = some data) :
    ∃ frame ∈ frames, frame.pgno = pgno ∧ frame.data = data := by
  induction frames with
  | nil => cases found
  | cons first rest ih =>
      simp only [newest] at found
      cases later : newest rest pgno with
      | some other =>
          simp only [later, Option.some_or, Option.some.injEq] at found
          subst found
          obtain ⟨frame, member, same⟩ := ih later
          exact ⟨frame, List.mem_cons_of_mem _ member, same⟩
      | none =>
          simp only [later, Option.none_or] at found
          split at found
          · cases found
            exact ⟨first, List.mem_cons_self, by assumption, rfl⟩
          · cases found

theorem newest_eq_none {frames : List Frame} {pgno : Nat} :
    newest frames pgno = none ↔ ∀ frame ∈ frames, frame.pgno ≠ pgno := by
  induction frames with
  | nil => simp [newest]
  | cons first rest ih =>
      simp only [newest, Option.or_eq_none_iff, ih, List.mem_cons,
        forall_eq_or_imp]
      constructor
      · rintro ⟨others, absent⟩
        refine ⟨?_, others⟩
        intro same
        rw [if_pos same] at absent
        cases absent
      · rintro ⟨differs, others⟩
        exact ⟨others, if_neg differs⟩

theorem newestEntry_data (pageSize index : Nat) (frames : List Frame)
    (pgno : Nat) :
    (newestEntry (locate pageSize index frames) pgno).map (·.2.data) =
      newest frames pgno := by
  induction frames generalizing index with
  | nil => rfl
  | cons frame rest ih =>
      simp only [locate, newestEntry, newest, ← ih (index + 1)]
      cases newestEntry (locate pageSize (index + 1) rest) pgno with
      | some other => rfl
      | none =>
          simp only [Option.none_or, Option.map_none]
          split <;> rfl

namespace PageWalk

theorem finish_append (entries : List (Nat × Frame)) (entry : Nat × Frame) :
    finish (entries ++ [entry]) = (finish entries).next entry := by
  simp [finish]

theorem next_tx (walk : PageWalk) (entry : Nat × Frame) :
    (walk.next entry).tx = walk.tx.insert entry.2.pgno entry.1 := by
  unfold next
  split <;> rfl

theorem tx_finish (entries : List (Nat × Frame)) (pgno : Nat) :
    (finish entries).tx[pgno]? = (newestEntry entries pgno).map Prod.fst := by
  induction entries using List.reverseRecOn with
  | nil => simp [finish, start, newestEntry]
  | append_singleton entries entry ih =>
      rw [finish_append, next_tx, OrderedMap.getElem?_insert, ih,
        newestEntry_append]
      by_cases same : pgno = entry.2.pgno
      · simp [newestEntry, same]
      · simp [newestEntry, same, Ne.symm same]

/-- Whatever was promoted was seen. -/
theorem pages_finish {entries : List (Nat × Frame)} {pgno : Nat}
    (unseen : (finish entries).tx[pgno]? = none) :
    (finish entries).pages[pgno]? = none := by
  induction entries using List.reverseRecOn with
  | nil => simp [finish, start]
  | append_singleton entries entry ih =>
      rw [finish_append, next_tx] at unseen
      rw [finish_append]
      have before : (finish entries).tx[pgno]? = none := by
        rw [OrderedMap.getElem?_insert] at unseen
        split at unseen
        · cases unseen
        · exact unseen
      unfold next
      dsimp only
      split
      · exact ih before
      · dsimp only
        rw [ExtTreeMap.getElem?_union, unseen, ih before]
        rfl

/-- What was promoted is the offset of some entry. -/
theorem pages_finish_mem {entries : List (Nat × Frame)} {pgno offset : Nat}
    (mapped : (finish entries).pages[pgno]? = some offset) :
    ∃ entry ∈ entries, entry.1 = offset := by
  induction entries using List.reverseRecOn with
  | nil => simp [finish, start] at mapped
  | append_singleton entries entry ih =>
      have earlier : (finish entries).pages[pgno]? = some offset →
          ∃ other ∈ entries ++ [entry], other.1 = offset := by
        intro before
        obtain ⟨other, member, same⟩ := ih before
        exact ⟨other, List.mem_append_left _ member, same⟩
      have seen := tx_finish (entries ++ [entry]) pgno
      rw [finish_append, next_tx] at seen
      rw [finish_append] at mapped
      unfold next at mapped
      dsimp only at mapped
      split at mapped
      · exact earlier mapped
      · dsimp only at mapped
        rw [ExtTreeMap.getElem?_union, seen] at mapped
        cases found : newestEntry (entries ++ [entry]) pgno with
        | none =>
            rw [found, Option.map_none, Option.none_or] at mapped
            exact earlier mapped
        | some other =>
            rw [found, Option.map_some, Option.some_or] at mapped
            cases mapped
            exact ⟨other, (newestEntry_mem found).1, rfl⟩

/-- A final commit promotes everything. -/
theorem finish_committed (entries : List (Nat × Frame)) {entry : Nat × Frame}
    (commits : entry.2.commit ≠ 0) :
    (finish (entries ++ [entry])).commit = entry.2.commit ∧
      ∀ pgno, (finish (entries ++ [entry])).pages[pgno]? =
        (newestEntry (entries ++ [entry]) pgno).map Prod.fst := by
  have seen := tx_finish (entries ++ [entry])
  rw [finish_append] at seen ⊢
  rw [next_tx] at seen
  unfold next
  dsimp only
  rw [if_neg commits]
  refine ⟨rfl, ?_⟩
  intro pgno
  dsimp only
  rw [ExtTreeMap.getElem?_union, seen]
  cases found : newestEntry (entries ++ [entry]) pgno with
  | some other => rfl
  | none =>
      rw [Option.map_none, Option.none_or]
      apply pages_finish
      rw [tx_finish]
      rw [newestEntry_append, Option.or_eq_none_iff] at found
      rw [found.2]
      rfl

end PageWalk

end Literstream
