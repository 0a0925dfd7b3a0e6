import Literstream.Sync.OnDisk
import Literstream.Wal.Generation

/-!
# Reading only the tail of the log

An incremental build reads the log from its offset on and takes the running
checksum from the frame before.  It sees what a reader of the whole log sees
from there.
-/

namespace Literstream

open Std

namespace WalReader

/-- The frame that stands ahead, if it continues the checksum, and the checksum
behind it. -/
def nextFrame (header : WalHeader) (number : Nat) (sum : Nat × Nat)
    (ahead : Bytes) : Option ((Nat × Frame) × (Nat × Nat)) :=
  let slot := ahead.take (frameSize header.pageSize)
  if ahead.length < frameSize header.pageSize then none
  else if (slotHeader slot).salt1 ≠ header.salt1 ∨
      (slotHeader slot).salt2 ≠ header.salt2 then none
  else if slotSum header.byteOrder sum slot ≠
      ((slotHeader slot).checksum1, (slotHeader slot).checksum2) then none
  else some ((frameOffset header.pageSize number, slotFrame slot),
    slotSum header.byteOrder sum slot)

/-- Readers of one log that stand before the same frame. -/
structure SameView (left right : WalReader) : Prop where
  header : left.header = right.header
  frameN : left.frameN = right.frameN
  chksum : left.chksum = right.chksum
  ahead : left.ahead = right.ahead
  leftBased : left.base ≤ frameOffset left.header.pageSize left.frameN
  rightBased : right.base ≤ frameOffset right.header.pageSize right.frameN

/-- The reader one frame further. -/
def advance (reader : WalReader) (sum : Nat × Nat) : WalReader :=
  { reader with chksum := sum, frameN := reader.frameN + 1 }

/-- A reader sees nothing of its buffer but what lies ahead. -/
theorem readFrame_eq (reader : WalReader) :
    reader.readFrame =
      (nextFrame reader.header reader.frameN reader.chksum reader.ahead).map
        fun found => (found.1, reader.advance found.2) := by
  have positive := frameSize_pos reader.header.pageSize
  have short : (frameOffset reader.header.pageSize reader.frameN - reader.base +
        frameSize reader.header.pageSize > reader.data.length) ↔
      reader.ahead.length < frameSize reader.header.pageSize := by
    rw [ahead, List.length_drop]
    omega
  unfold readFrame nextFrame
  dsimp only
  rw [← frameOffset, ← ahead, ← slotHeader]
  by_cases absent : reader.ahead.length < frameSize reader.header.pageSize
  · rw [if_pos absent, if_pos (short.mpr absent)]
    rfl
  · rw [if_neg absent, if_neg fun there => absent (short.mp there)]
    split
    · rfl
    · change (if slotSum reader.header.byteOrder reader.chksum
          (reader.ahead.take (frameSize reader.header.pageSize)) ≠ _
        then none else _) = _
      split <;> rfl

theorem nextFrame_eq_some {header : WalHeader} {number : Nat} {sum : Nat × Nat}
    {ahead : Bytes} {found : (Nat × Frame) × (Nat × Nat)}
    (read : nextFrame header number sum ahead = some found) :
    frameSize header.pageSize ≤ ahead.length ∧
      found.1.1 = frameOffset header.pageSize number := by
  unfold nextFrame at read
  dsimp only at read
  split at read
  · cases read
  · rename_i whole
    split at read
    · cases read
    · split at read
      · cases read
      · cases read
        exact ⟨Nat.not_lt.mp whole, rfl⟩

theorem SameView.advance {left right : WalReader} (view : SameView left right)
    (sum : Nat × Nat) : SameView (left.advance sum) (right.advance sum) where
  header := view.header
  frameN := congrArg (· + 1) view.frameN
  chksum := rfl
  ahead := by
    have leftNext := @ahead_next left sum view.leftBased
    have rightNext := @ahead_next right sum view.rightBased
    rw [WalReader.advance, WalReader.advance, leftNext, rightNext, view.ahead,
      view.header]
  leftBased := by
    change left.base ≤ frameOffset left.header.pageSize (left.frameN + 1)
    rw [frameOffset_succ]
    exact Nat.le_add_right_of_le view.leftBased
  rightBased := by
    change right.base ≤ frameOffset right.header.pageSize (right.frameN + 1)
    rw [frameOffset_succ]
    exact Nat.le_add_right_of_le view.rightBased

/-- Every frame read makes what lies ahead shorter. -/
theorem length_ahead_advance {reader : WalReader} {sum : Nat × Nat}
    (based : reader.base ≤ frameOffset reader.header.pageSize reader.frameN)
    (whole : frameSize reader.header.pageSize ≤ reader.ahead.length) :
    (reader.advance sum).ahead.length < reader.ahead.length := by
  have positive := frameSize_pos reader.header.pageSize
  rw [advance, ahead_next based, List.length_drop]
  omega

/-- Readers with one view read the same frames, however long their buffers
are. -/
theorem SameView.readFrames {left right : WalReader}
    (view : SameView left right) {fuel fuel' : Nat}
    (enough : left.ahead.length ≤ fuel) (enough' : right.ahead.length ≤ fuel') :
    left.readFrames fuel = right.readFrames fuel' := by
  induction fuel generalizing left right fuel' with
  | zero =>
      have stops : right.readFrame = none := by
        rw [readFrame_eq, Option.map_eq_none_iff,
          Option.eq_none_iff_forall_ne_some]
        intro found read
        have whole := (nextFrame_eq_some read).1
        have positive := frameSize_pos right.header.pageSize
        rw [← view.ahead] at whole
        omega
      rw [readFrames_stop stops]
      rfl
  | succ fuel ih =>
      have leftRead := readFrame_eq left
      have rightRead := readFrame_eq right
      rw [← view.header, ← view.frameN, ← view.chksum, ← view.ahead]
        at rightRead
      cases read : nextFrame left.header left.frameN left.chksum left.ahead with
      | none =>
          rw [read, Option.map_none] at leftRead rightRead
          rw [readFrames_stop leftRead, readFrames_stop rightRead]
      | some found =>
          rw [read, Option.map_some] at leftRead rightRead
          have whole := (nextFrame_eq_some read).1
          have positive := frameSize_pos left.header.pageSize
          have leftLess := @length_ahead_advance left found.2 view.leftBased
            whole
          have rightLess := @length_ahead_advance right found.2 view.rightBased
            (by rw [← view.ahead, ← view.header]; exact whole)
          cases fuel' with
          | zero => omega
          | succ fuel' =>
              rw [WalReader.readFrames, WalReader.readFrames, leftRead,
                rightRead]
              dsimp only
              congr 1
              exact ih (view.advance found.2) (by omega) (by omega)

/-- Every frame that a reader returns stands at its number or behind. -/
theorem readFrames_offset {reader : WalReader} {fuel : Nat} :
    ∀ entry ∈ reader.readFrames fuel,
      frameOffset reader.header.pageSize reader.frameN ≤ entry.1 := by
  induction fuel generalizing reader with
  | zero => simp [WalReader.readFrames]
  | succ fuel ih =>
      intro entry member
      have read := readFrame_eq reader
      cases next : nextFrame reader.header reader.frameN reader.chksum
          reader.ahead with
      | none =>
          rw [next, Option.map_none] at read
          rw [readFrames_stop read] at member
          cases member
      | some found =>
          rw [next, Option.map_some] at read
          rw [WalReader.readFrames, read] at member
          rcases List.mem_cons.mp member with rfl | later
          · exact Nat.le_of_eq (nextFrame_eq_some next).2.symm
          · have behind := ih entry later
            change frameOffset reader.header.pageSize (reader.frameN + 1) ≤ _
              at behind
            rw [frameOffset_succ] at behind
            omega

/-- Every mapped offset lies at the reader's first frame or behind. -/
theorem pageMap_offset {reader : WalReader} {pgno offset : Nat}
    (mapped : reader.pageMap.pages[pgno]? = some offset) :
    frameOffset reader.header.pageSize reader.frameN ≤ offset := by
  unfold WalReader.pageMap Literstream.pageMap at mapped
  dsimp only at mapped
  rw [ExtTreeMap.getElem?_filter', Option.filter_eq_some_iff] at mapped
  obtain ⟨entry, member, rfl⟩ := PageWalk.pages_finish_mem mapped.1
  exact readFrames_offset entry member

end WalReader

namespace OnDisk

/-- The reader of an incremental build: seeded from the frame before the offset,
over the bytes from there on. -/
def tailReader (pageSize : Nat) (wal : Bytes) (header : WalHeader)
    (offset : Nat) : Except SyncError WalReader := do
  let seed ← walSeed pageSize wal header offset
  liftWal (WalReader.fromTail header (wal.drop offset) offset seed)

/-- The readers agree: one fails where the other does, or both return the same
frames, the same map and the same pages. -/
structure SameReading (tail : Except SyncError WalReader)
    (whole : Except WalError WalReader) : Prop where
  mismatch : tail = .error (.wal .prevFrameMismatch) ↔
    whole = .error .prevFrameMismatch
  reading : whole ≠ .error .prevFrameMismatch →
    ∃ left right : WalReader, tail = .ok left ∧ whole = .ok right ∧
      left.frames = right.frames ∧ left.pageMap = right.pageMap ∧
      ∀ pgno offset : Nat, right.pageMap.pages[pgno]? = some offset →
        left.pageDataAt offset = right.pageDataAt offset

section Tail

variable {wal : Bytes} {header : WalHeader} {index : Nat}

/-- An incremental build is made with that reader. -/
theorem buildIncremental_reader (pageSize : Nat) (now : Int) (pos : Position)
    (wal : Bytes) (header : WalHeader) (offset salt1 salt2 : Nat) :
    buildIncremental pageSize now pos wal header offset salt1 salt2 = do
      let reader ← tailReader pageSize wal header offset
      let map := reader.pageMap
      if map.pages.isEmpty then return none
      else do
        let walSize := map.endOffset - offset
        let txid := pos.txid + 1
        let pages := map.pages.toList.map fun entry =>
          (entry.1, reader.pageDataAt entry.2)
        let file ← liftLtx (encodeFile
          (noChecksumHeader pageSize map.commit txid txid now offset walSize
            salt1 salt2) pages)
        return some (
          { outcome := .incremental txid pages.length
            key := ⟨level0, txid, txid⟩
            newPos :=
              { txid := txid
                walOffset := offset + walSize
                salt1 := salt1
                salt2 := salt2
                syncedToWalEnd := offset + walSize ≥ wal.length } }, file) := by
  unfold buildIncremental tailReader
  cases walSeed pageSize wal header offset <;> rfl

/-- Readers at one frame with one checksum read the same, over the tail and over
the whole log. -/
theorem reading_of_seed (sum : Nat × Nat) :
    SameReading
      (.ok
        { data := wal.drop (frameOffset header.pageSize index)
          base := frameOffset header.pageSize index
          header := header
          frameN := index
          chksum := sum })
      (.ok
        { data := wal
          base := 0
          header := header
          frameN := index
          chksum := sum }) := by
  have view : WalReader.SameView
      { data := wal.drop (frameOffset header.pageSize index)
        base := frameOffset header.pageSize index
        header := header
        frameN := index
        chksum := sum }
      { data := wal
        base := 0
        header := header
        frameN := index
        chksum := sum } :=
    { header := rfl
      frameN := rfl
      chksum := rfl
      ahead := by simp [WalReader.ahead]
      leftBased := Nat.le_refl _
      rightBased := Nat.zero_le _ }
  have enough : ((wal.drop (frameOffset header.pageSize index)).drop
      (frameOffset header.pageSize index -
        frameOffset header.pageSize index)).length ≤
        (wal.drop (frameOffset header.pageSize index)).length := by
    rw [Nat.sub_self, List.drop_zero]
  have enough' : (wal.drop (frameOffset header.pageSize index - 0)).length ≤
      wal.length := by
    rw [List.length_drop]
    exact Nat.sub_le _ _
  have frames := view.readFrames enough enough'
  refine ⟨by simp, fun _ => ⟨_, _, rfl, rfl, frames, ?_, ?_⟩⟩
  · exact congrArg (pageMap header.pageSize) frames
  · intro pgno offset mapped
    have behind := WalReader.pageMap_offset mapped
    change frameOffset header.pageSize index ≤ offset at behind
    unfold WalReader.pageDataAt
    dsimp only
    rw [List.drop_drop, Nat.sub_zero, ← Nat.add_assoc,
      Nat.add_sub_cancel' behind]

/-- Reading the tail is reading the whole log from there. -/
theorem tailReader_agrees (parsed : WalHeader.parse wal = .ok header)
    (before : index = 0 ∨ frameOffset header.pageSize index ≤ wal.length) :
    SameReading
      (tailReader header.pageSize wal header
        (frameOffset header.pageSize index))
      (WalReader.newAtOffset wal (frameOffset header.pageSize index)) := by
  have aligned : ¬ (frameOffset header.pageSize index < walHeaderSize ∨
      (frameOffset header.pageSize index - walHeaderSize) %
        frameSize header.pageSize ≠ 0) := by
    simp [frameOffset]
  unfold tailReader walSeed WalReader.newAtOffset
  rw [parsed]
  change SameReading _ (if _ then _ else _)
  rw [if_neg aligned, frameOffset_index]
  cases index with
  | zero =>
      rw [if_pos (Nat.le_of_eq (by simp [frameOffset]))]
      change SameReading (liftWal (WalReader.fromTail _ _ _ _)) _
      rw [WalReader.fromTail_frame]
      exact reading_of_seed _
  | succ index =>
      have inside : frameOffset header.pageSize (index + 1) ≤ wal.length := by
        rcases before with absurd_ | inside
        · cases absurd_
        · exact inside
      have positive := frameSize_pos header.pageSize
      have back : frameOffset header.pageSize (index + 1) -
          frameSize header.pageSize = frameOffset header.pageSize index := by
        rw [frameOffset_succ, Nat.add_sub_cancel]
      have beyond : ¬ frameOffset header.pageSize (index + 1) ≤
          walHeaderSize := by
        rw [frameOffset_succ, frameOffset]
        omega
      have there : frameOffset header.pageSize index + walFrameHeaderSize ≤
          wal.length := by
        rw [frameOffset_succ, frameSize] at inside
        omega
      rw [if_neg beyond, back, readExactAt, if_pos there, if_neg (by simp),
        Nat.add_sub_cancel, ← frameOffset, if_neg (Nat.not_lt.mpr there)]
      dsimp only
      by_cases foreign :
          (WalFrameHeader.parse ((wal.drop (frameOffset header.pageSize
            index)).take walFrameHeaderSize)).salt1 ≠ header.salt1 ∨
          (WalFrameHeader.parse ((wal.drop (frameOffset header.pageSize
            index)).take walFrameHeaderSize)).salt2 ≠ header.salt2
      · simp only [bind, Except.bind, if_pos foreign]
        constructor
        · exact ⟨fun _ => rfl, fun _ => rfl⟩
        · exact fun absurd_ => absurd rfl absurd_
      · simp only [bind, Except.bind, if_neg foreign, WalReader.fromTail_frame]
        exact reading_of_seed _

/-- The tail behind the first transaction: another one, a frame without a
commit and a torn one. -/
theorem tailReader_agrees_torn :
    SameReading
      (tailReader tornLog.header.pageSize tornLog.content tornLog.header
        (frameOffset tornLog.header.pageSize 1))
      (WalReader.newAtOffset tornLog.content
        (frameOffset tornLog.header.pageSize 1)) := by
  refine tailReader_agrees tornLog_parsed (.inr ?_)
  rw [tornLog_ok.length_content]
  decide

end Tail

end OnDisk

end Literstream
