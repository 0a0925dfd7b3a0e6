import Literstream.Wal.Overlay
import Literstream.Wal.Reader

/-!
# The log that SQLite writes

One generation of a log: a header, frames under one running checksum, and
whatever an undone transaction left behind them.  From any frame on, the reader
of a cut log returns the frames that the cut leaves whole.
-/

namespace Literstream

open BigEndian

def ByteOrder.magic : ByteOrder → Nat
  | .little => walMagicLe
  | .big => walMagicBe

structure WalLog where
  byteOrder : ByteOrder
  pageSize : Nat
  seq : Nat
  salt1 : Nat
  salt2 : Nat
  frames : List Frame
  /-- Bytes behind the last frame. -/
  leftover : Bytes
deriving DecidableEq, Repr

/-- The running checksum after one more frame. -/
def nextSum (order : ByteOrder) (sum : Nat × Nat) (frame : Frame) : Nat × Nat :=
  let half := walChecksum order sum.1 sum.2
    (bytes 4 frame.pgno ++ bytes 4 frame.commit)
  walChecksum order half.1 half.2 frame.data

/-- The bytes behind the running checksum cannot be read as a frame. -/
def Unreadable (header : WalHeader) (sum : Nat × Nat) (ahead : Bytes) : Prop :=
  let size := frameSize header.pageSize
  let frame := ahead.take size
  let read := WalFrameHeader.parse (frame.take walFrameHeaderSize)
  let half := walChecksum header.byteOrder sum.1 sum.2 (frame.take 8)
  ahead.length < size ∨
    (read.salt1 ≠ header.salt1 ∨ read.salt2 ≠ header.salt2) ∨
    walChecksum header.byteOrder half.1 half.2
      (frame.drop walFrameHeaderSize) ≠ (read.checksum1, read.checksum2)

theorem Unreadable.of_short {header : WalHeader} {sum : Nat × Nat}
    {ahead : Bytes} (short : ahead.length < frameSize header.pageSize) :
    Unreadable header sum ahead :=
  .inl short

theorem Unreadable.take {header : WalHeader} {sum : Nat × Nat} {ahead : Bytes}
    (unreadable : Unreadable header sum ahead) (length : Nat) :
    Unreadable header sum (ahead.take length) := by
  by_cases short : (ahead.take length).length < frameSize header.pageSize
  · exact .of_short short
  · rw [List.length_take] at short
    have same : (ahead.take length).take (frameSize header.pageSize) =
        ahead.take (frameSize header.pageSize) := by
      rw [List.take_take, Nat.min_eq_left (by omega)]
    rcases unreadable with absent | unread
    · omega
    · unfold Unreadable
      dsimp only
      rw [same]
      exact .inr unread

namespace WalLog

variable (log : WalLog)

def headerStart : Bytes :=
  bytes 4 log.byteOrder.magic ++ (bytes 4 walVersion ++
    (bytes 4 log.pageSize ++ (bytes 4 log.seq ++
      (bytes 4 log.salt1 ++ bytes 4 log.salt2))))

def headerSum : Nat × Nat := walChecksum log.byteOrder 0 0 log.headerStart

def header : WalHeader where
  byteOrder := log.byteOrder
  pageSize := log.pageSize
  seq := log.seq
  salt1 := log.salt1
  salt2 := log.salt2
  checksum1 := log.headerSum.1
  checksum2 := log.headerSum.2

def frameBytes (sum : Nat × Nat) (frame : Frame) : Bytes :=
  bytes 4 frame.pgno ++ (bytes 4 frame.commit ++
    (bytes 4 log.salt1 ++ (bytes 4 log.salt2 ++
      (bytes 4 (nextSum log.byteOrder sum frame).1 ++
        (bytes 4 (nextSum log.byteOrder sum frame).2 ++ frame.data)))))

def framesBytes : Nat × Nat → List Frame → Bytes
  | _, [] => []
  | sum, frame :: rest =>
      log.frameBytes sum frame ++
        framesBytes (nextSum log.byteOrder sum frame) rest

/-- The running checksum after the first frames. -/
def sumAfter (count : Nat) : Nat × Nat :=
  (log.frames.take count).foldl (nextSum log.byteOrder) log.headerSum

/-- The bytes of the file. -/
def content : Bytes :=
  log.headerStart ++ (bytes 4 log.headerSum.1 ++ (bytes 4 log.headerSum.2 ++
    (log.framesBytes log.headerSum log.frames ++ log.leftover)))

/-- The number of frames that lie whole in the first `length` bytes. -/
def whole (length : Nat) : Nat :=
  (length - walHeaderSize) / frameSize log.pageSize

/-- The frame fits the format. -/
structure Fits (frame : Frame) : Prop where
  length : frame.data.length = log.pageSize
  pgno : frame.pgno < 2 ^ 32
  commit : frame.commit < 2 ^ 32

/-- The fields fit the format, and the log ends behind its frames. -/
structure Ok : Prop where
  sized : isValidPageSize log.pageSize = true
  seq : log.seq < 2 ^ 32
  salt1 : log.salt1 < 2 ^ 32
  salt2 : log.salt2 < 2 ^ 32
  frames : ∀ frame ∈ log.frames, log.Fits frame
  ends : Unreadable log.header (log.sumAfter log.frames.length) log.leftover

variable {log}

@[simp] theorem length_headerStart : log.headerStart.length = 24 := by
  simp [headerStart]

theorem headerSum_lt : log.headerSum.1 < 2 ^ 32 ∧ log.headerSum.2 < 2 ^ 32 :=
  walChecksum_lt _ (by decide) (by decide)

theorem magic_mod (order : ByteOrder) :
    order.magic % 256 ^ 4 = order.magic := by
  cases order <;> decide

/-- What stands in the first bytes of the file. -/
theorem Ok.fields (ok : log.Ok) :
    at_ 4 log.content 0 = log.byteOrder.magic ∧
      at_ 4 log.content 4 = walVersion ∧
      at_ 4 log.content 8 = log.pageSize ∧
      at_ 4 log.content 12 = log.seq ∧
      at_ 4 log.content 16 = log.salt1 ∧
      at_ 4 log.content 20 = log.salt2 ∧
      at_ 4 log.content 24 = log.headerSum.1 ∧
      at_ 4 log.content 28 = log.headerSum.2 := by
  have pageSize : log.pageSize % 256 ^ 4 = log.pageSize :=
    Nat.mod_eq_of_lt (isValidPageSize.lt ok.sized)
  have seq : log.seq % 256 ^ 4 = log.seq := Nat.mod_eq_of_lt ok.seq
  have salt1 : log.salt1 % 256 ^ 4 = log.salt1 := Nat.mod_eq_of_lt ok.salt1
  have sum1 : log.headerSum.1 % 256 ^ 4 = log.headerSum.1 :=
    Nat.mod_eq_of_lt headerSum_lt.1
  have sum2 : log.headerSum.2 % 256 ^ 4 = log.headerSum.2 :=
    Nat.mod_eq_of_lt headerSum_lt.2
  have salt2 : ∀ rest, at_ 4 (bytes 4 log.salt2 ++ rest) 0 = log.salt2 :=
    fun rest => (at_bytes_zero 4 _ rest).trans (Nat.mod_eq_of_lt ok.salt2)
  simp only [content, headerStart, List.append_assoc]
  refine ⟨?_, ?_, ?_, ?_, ?_, ?_, ?_, ?_⟩ <;>
    simp only [at_append, length_bytes, Nat.reduceLeDiff, Nat.reduceSub,
      at_bytes_zero, magic_mod, pageSize, seq, salt1, salt2, sum1, sum2]
  rfl

/-- The header of the file, or of a part that has it. -/
theorem Ok.parse_header (ok : log.Ok) {length : Nat}
    (inside : walHeaderSize ≤ length) :
    WalHeader.parse (log.content.take length) = .ok log.header := by
  have long : ¬ (log.content.take length).length < walHeaderSize := by
    simp [content, walHeaderSize] at inside ⊢
    omega
  have field : ∀ offset, offset + 4 ≤ walHeaderSize →
      at_ 4 (log.content.take length) offset = at_ 4 log.content offset :=
    fun offset below => at_take _ (Nat.le_trans below inside)
  have start : (log.content.take length).take 24 = log.headerStart := by
    rw [List.take_take, Nat.min_eq_left (Nat.le_trans (by decide) inside),
      content]
    exact List.take_left' length_headerStart
  obtain ⟨magic, version, pageSize, seq, salt1, salt2, sum1, sum2⟩ := ok.fields
  unfold WalHeader.parse
  rw [if_neg long, field 0 (by decide), field 4 (by decide),
    field 8 (by decide), field 12 (by decide), field 16 (by decide),
    field 20 (by decide), field 24 (by decide), field 28 (by decide), start,
    magic, version, pageSize, seq, salt1, salt2, sum1, sum2]
  have sum : walChecksum log.byteOrder 0 0 log.headerStart =
      (log.headerSum.1, log.headerSum.2) := rfl
  have sized : ¬ isValidPageSize log.pageSize = false := by simp [ok.sized]
  dsimp only
  cases order : log.byteOrder with
  | little =>
      rw [order] at sum
      rw [if_pos (show ByteOrder.little.magic = walMagicLe from rfl)]
      change (if _ then _ else _) = _
      rw [if_neg sized, if_neg (not_not.mpr sum), header, order]
      rfl
  | big =>
      rw [order] at sum
      rw [if_neg (by decide),
        if_pos (show ByteOrder.big.magic = walMagicBe from rfl)]
      change (if _ then _ else _) = _
      rw [if_neg sized, if_neg (not_not.mpr sum), header, order]
      rfl

section Frames

variable {sum : Nat × Nat} {frame : Frame}

theorem Fits.length_frameBytes (fits : log.Fits frame) :
    (log.frameBytes sum frame).length = frameSize log.pageSize := by
  simp [frameBytes, fits.length, frameSize, walFrameHeaderSize]
  omega

theorem nextSum_lt (order : ByteOrder) (sum : Nat × Nat) (frame : Frame)
    (small : sum.1 < 2 ^ 32 ∧ sum.2 < 2 ^ 32) :
    (nextSum order sum frame).1 < 2 ^ 32 ∧
      (nextSum order sum frame).2 < 2 ^ 32 := by
  have half := @walChecksum_lt order sum.1 sum.2
    (bytes 4 frame.pgno ++ bytes 4 frame.commit) small.1 small.2
  exact walChecksum_lt _ half.1 half.2

theorem parse_take {length : Nat} (string : Bytes)
    (inside : walFrameHeaderSize ≤ length) :
    WalFrameHeader.parse (string.take length) =
      WalFrameHeader.parse string := by
  have field : ∀ offset, offset + 4 ≤ walFrameHeaderSize →
      at_ 4 (string.take length) offset = at_ 4 string offset :=
    fun offset below => at_take _ (Nat.le_trans below inside)
  unfold WalFrameHeader.parse
  rw [field 0 (by decide), field 4 (by decide), field 8 (by decide),
    field 12 (by decide), field 16 (by decide), field 20 (by decide)]

/-- The header of a frame that stands at the start of a string. -/
theorem Fits.parse_frame (ok : log.Ok) (fits : log.Fits frame)
    (small : sum.1 < 2 ^ 32 ∧ sum.2 < 2 ^ 32) (rest : Bytes) :
    WalFrameHeader.parse (log.frameBytes sum frame ++ rest) =
      { pgno := frame.pgno
        commit := frame.commit
        salt1 := log.salt1
        salt2 := log.salt2
        checksum1 := (nextSum log.byteOrder sum frame).1
        checksum2 := (nextSum log.byteOrder sum frame).2 } := by
  have next := nextSum_lt log.byteOrder sum frame small
  have pgno : frame.pgno % 256 ^ 4 = frame.pgno := Nat.mod_eq_of_lt fits.pgno
  have commit : frame.commit % 256 ^ 4 = frame.commit :=
    Nat.mod_eq_of_lt fits.commit
  have salt1 : log.salt1 % 256 ^ 4 = log.salt1 := Nat.mod_eq_of_lt ok.salt1
  have salt2 : log.salt2 % 256 ^ 4 = log.salt2 := Nat.mod_eq_of_lt ok.salt2
  have sum1 := Nat.mod_eq_of_lt next.1
  have sum2 := Nat.mod_eq_of_lt next.2
  change _ % 256 ^ 4 = _ at sum1 sum2
  simp only [WalFrameHeader.parse, frameBytes, List.append_assoc]
  simp only [at_append, length_bytes, Nat.reduceLeDiff, Nat.reduceSub,
    at_bytes_zero, pgno, commit, salt1, salt2, sum1, sum2]

end Frames

end WalLog

namespace WalReader

/-- What lies ahead of the reader in its buffer. -/
def ahead (reader : WalReader) : Bytes :=
  reader.data.drop (frameOffset reader.header.pageSize reader.frameN -
    reader.base)

variable {reader : WalReader}

theorem readFrame_unreadable
    (unreadable : Unreadable reader.header reader.chksum reader.ahead) :
    reader.readFrame = none := by
  have positive := frameSize_pos reader.header.pageSize
  unfold Unreadable ahead frameOffset at unreadable
  unfold readFrame
  dsimp only at unreadable ⊢
  rcases unreadable with short | foreign | broken
  · rw [List.length_drop] at short
    rw [if_pos (by omega)]
  · rw [if_pos foreign, ite_self]
  · rw [if_pos broken, ite_self, ite_self]

theorem readFrames_stop (stopped : reader.readFrame = none) (fuel : Nat) :
    reader.readFrames fuel = [] := by
  cases fuel with
  | zero => rfl
  | succ fuel => rw [readFrames, stopped]

variable {log : WalLog} {frame : Frame} {rest : Bytes}

/-- A frame ahead of the reader that continues the running checksum. -/
theorem readFrame_frame (ok : log.Ok) (fits : log.Fits frame)
    (header : reader.header = log.header)
    (small : reader.chksum.1 < 2 ^ 32 ∧ reader.chksum.2 < 2 ^ 32)
    (next : reader.ahead = log.frameBytes reader.chksum frame ++ rest) :
    reader.readFrame = some ((frameOffset log.pageSize reader.frameN, frame),
      { reader with
        chksum := nextSum log.byteOrder reader.chksum frame
        frameN := reader.frameN + 1 }) := by
  have positive := frameSize_pos log.pageSize
  have length := @WalLog.Fits.length_frameBytes log reader.chksum frame fits
  have pageSize : reader.header.pageSize = log.pageSize := by
    rw [header]
    rfl
  unfold ahead frameOffset at next
  rw [pageSize] at next
  have size := congrArg List.length next
  rw [List.length_drop, List.length_append, length] at size
  have whole : (log.frameBytes reader.chksum frame ++ rest).take
      (frameSize log.pageSize) = log.frameBytes reader.chksum frame :=
    List.take_left' length
  have parsed := @WalLog.Fits.parse_frame log reader.chksum frame ok fits small
    []
  rw [List.append_nil] at parsed
  have start : (log.frameBytes reader.chksum frame).take 8 =
      BigEndian.bytes 4 frame.pgno ++ BigEndian.bytes 4 frame.commit := by
    rw [WalLog.frameBytes, ← List.append_assoc]
    exact List.take_left' (by simp)
  have page : (log.frameBytes reader.chksum frame).drop walFrameHeaderSize =
      frame.data := by
    simp only [WalLog.frameBytes, ← List.append_assoc]
    exact List.drop_left' (by simp [walFrameHeaderSize])
  unfold readFrame
  dsimp only
  rw [pageSize, if_neg (by omega), next, whole,
    WalLog.parse_take _ (Nat.le_refl _), parsed, start, page, header,
    if_neg (by simp [WalLog.header])]
  exact if_neg (not_not.mpr rfl)

/-- Behind a frame lies what lies behind it in the buffer. -/
theorem ahead_next {sum : Nat × Nat}
    (based : reader.base ≤ frameOffset reader.header.pageSize reader.frameN) :
    ahead { reader with chksum := sum, frameN := reader.frameN + 1 } =
      reader.ahead.drop (frameSize reader.header.pageSize) := by
  rw [ahead, ahead, List.drop_drop]
  dsimp only
  rw [frameOffset_succ]
  congr 1
  omega

/-- The reader of a cut log returns the frames that the cut leaves whole. -/
theorem readFrames_eq (ok : log.Ok) {frames : List Frame} {fuel length : Nat}
    (fits : ∀ frame ∈ frames, log.Fits frame)
    (header : reader.header = log.header)
    (based : reader.base ≤ frameOffset log.pageSize reader.frameN)
    (small : reader.chksum.1 < 2 ^ 32 ∧ reader.chksum.2 < 2 ^ 32)
    (ends : Unreadable log.header
      (frames.foldl (nextSum log.byteOrder) reader.chksum) rest)
    (next : reader.ahead =
      (log.framesBytes reader.chksum frames ++ rest).take length)
    (fuelled : (frames.take (length / frameSize log.pageSize)).length ≤ fuel) :
    reader.readFrames fuel = locate log.pageSize reader.frameN
      (frames.take (length / frameSize log.pageSize)) := by
  induction frames generalizing reader fuel length with
  | nil =>
      rw [List.take_nil]
      apply readFrames_stop
      apply readFrame_unreadable
      rw [next, header]
      exact ends.take length
  | cons frame later ih =>
      have pageSize : reader.header.pageSize = log.pageSize := by
        rw [header]
        rfl
      have positive := frameSize_pos log.pageSize
      have frameFits := fits frame List.mem_cons_self
      by_cases short : length < frameSize log.pageSize
      · rw [Nat.div_eq_of_lt short]
        apply readFrames_stop
        apply readFrame_unreadable
        apply Unreadable.of_short
        rw [next, pageSize]
        exact Nat.lt_of_le_of_lt (List.length_take_le _ _) short
      · obtain ⟨more, rfl⟩ := Nat.exists_eq_add_of_le (Nat.not_lt.mp short)
        have frameLength := @WalLog.Fits.length_frameBytes log reader.chksum
          frame frameFits
        rw [Nat.add_comm, Nat.add_div_right _ positive, List.take_succ_cons]
          at fuelled ⊢
        rw [WalLog.framesBytes, List.append_assoc, ← frameLength,
          List.take_length_add_append] at next
        have read := readFrame_frame ok frameFits header small next
        cases fuel with
        | zero => simp at fuelled
        | succ fuel =>
            rw [readFrames, read]
            dsimp only
            rw [locate]
            congr 1
            apply ih
            · exact fun other member =>
                fits other (List.mem_cons_of_mem _ member)
            · exact header
            · dsimp only
              rw [frameOffset_succ]
              omega
            · exact WalLog.nextSum_lt _ _ _ small
            · exact ends
            · rw [ahead_next (by rw [pageSize]; exact based), next, pageSize]
              exact List.drop_left' frameLength
            · simpa using fuelled

end WalReader

namespace WalLog

variable {log : WalLog}

theorem length_framesBytes {frames : List Frame} {sum : Nat × Nat}
    (fits : ∀ frame ∈ frames, log.Fits frame) :
    (log.framesBytes sum frames).length =
      frames.length * frameSize log.pageSize := by
  induction frames generalizing sum with
  | nil => simp [framesBytes]
  | cons frame later ih =>
      rw [framesBytes, List.length_append,
        (fits frame List.mem_cons_self).length_frameBytes,
        ih fun other member => fits other (List.mem_cons_of_mem _ member),
        List.length_cons, Nat.succ_mul, Nat.add_comm]

theorem drop_framesBytes {frames : List Frame} {sum : Nat × Nat} {index : Nat}
    (fits : ∀ frame ∈ frames, log.Fits frame) (inside : index ≤ frames.length)
    (rest : Bytes) :
    (log.framesBytes sum frames ++ rest).drop
        (index * frameSize log.pageSize) =
      log.framesBytes ((frames.take index).foldl (nextSum log.byteOrder) sum)
        (frames.drop index) ++ rest := by
  induction index generalizing frames sum with
  | zero => simp
  | succ index ih =>
      cases frames with
      | nil => simp at inside
      | cons frame later =>
          have length := @Fits.length_frameBytes log sum frame
            (fits frame List.mem_cons_self)
          rw [framesBytes, List.append_assoc, Nat.succ_mul, Nat.add_comm,
            ← List.drop_drop, List.drop_left' length]
          exact ih (fun other member =>
            fits other (List.mem_cons_of_mem _ member)) (by simpa using inside)

theorem sumAfter_lt (log : WalLog) (index : Nat) :
    (log.sumAfter index).1 < 2 ^ 32 ∧ (log.sumAfter index).2 < 2 ^ 32 := by
  have each : ∀ (frames : List Frame) (sum : Nat × Nat),
      sum.1 < 2 ^ 32 ∧ sum.2 < 2 ^ 32 →
      (frames.foldl (nextSum log.byteOrder) sum).1 < 2 ^ 32 ∧
        (frames.foldl (nextSum log.byteOrder) sum).2 < 2 ^ 32 := by
    intro frames
    induction frames with
    | nil => exact fun _ small => small
    | cons frame later ih =>
        exact fun sum small => ih _ (nextSum_lt log.byteOrder sum frame small)
  exact each _ _ headerSum_lt

namespace Ok

variable {index length : Nat}

theorem length_content (ok : log.Ok) :
    log.content.length = frameOffset log.pageSize log.frames.length +
      log.leftover.length := by
  simp [content, length_framesBytes ok.frames, frameOffset, walHeaderSize]
  omega

/-- The file from a frame on. -/
theorem drop_content (ok : log.Ok) (inside : index ≤ log.frames.length) :
    log.content.drop (frameOffset log.pageSize index) =
      log.framesBytes (log.sumAfter index) (log.frames.drop index) ++
        log.leftover := by
  have header : log.content.drop walHeaderSize =
      log.framesBytes log.headerSum log.frames ++ log.leftover := by
    simp only [content, ← List.append_assoc]
    rw [List.append_assoc _ _ log.leftover]
    exact List.drop_left' (by simp [walHeaderSize])
  rw [frameOffset, ← List.drop_drop, header]
  exact drop_framesBytes ok.frames inside log.leftover

/-- The first bytes of the file, from a frame on. -/
theorem drop_take (ok : log.Ok) (inside : index ≤ log.frames.length)
    (length : Nat) :
    (log.content.take length).drop (frameOffset log.pageSize index) =
      (log.framesBytes (log.sumAfter index) (log.frames.drop index) ++
        log.leftover).take (length - frameOffset log.pageSize index) := by
  rw [List.drop_take, ok.drop_content inside]

theorem whole_sub (log : WalLog) (index length : Nat) :
    (length - frameOffset log.pageSize index) / frameSize log.pageSize =
      log.whole length - index := by
  rw [whole, frameOffset, ← Nat.sub_sub, Nat.mul_comm, Nat.sub_mul_div]

/-- A reader at a frame of the cut file returns the whole frames from there
on. -/
theorem frames_eq (ok : log.Ok) (inside : index ≤ log.frames.length)
    {reader : WalReader} (header : reader.header = log.header)
    (number : reader.frameN = index)
    (chksum : reader.chksum = log.sumAfter index)
    (based : reader.base ≤ frameOffset log.pageSize index)
    (next : reader.ahead =
      (log.content.take length).drop (frameOffset log.pageSize index)) :
    reader.frames = locate log.pageSize index
      ((log.frames.take (log.whole length)).drop index) := by
  have fits : ∀ frame ∈ log.frames.drop index, log.Fits frame :=
    fun frame member => ok.frames frame (List.mem_of_mem_drop member)
  have ends : (log.frames.drop index).foldl (nextSum log.byteOrder)
      (log.sumAfter index) = log.sumAfter log.frames.length := by
    rw [sumAfter, ← List.foldl_append, List.take_append_drop, sumAfter,
      List.take_length]
  have count := whole_sub log index length
  have bounded := congrArg List.length next
  rw [ok.drop_take inside, List.length_take, List.length_append,
    length_framesBytes fits, WalReader.ahead, List.length_drop] at bounded
  rw [ok.drop_take inside, ← chksum] at next
  rw [← chksum] at ends
  rw [List.drop_take, ← count, ← number]
  subst number
  apply WalReader.readFrames_eq ok fits header based
    (by rw [chksum]; exact sumAfter_lt log _) (by rw [ends]; exact ok.ends) next
  have positive := frameSize_pos log.pageSize
  rw [List.length_take]
  have byLength := Nat.div_mul_le_self
    (length - frameOffset log.pageSize reader.frameN) (frameSize log.pageSize)
  -- Every frame takes at least one byte of the buffer.
  have bytesRead : min ((length - frameOffset log.pageSize reader.frameN) /
      frameSize log.pageSize) (log.frames.drop reader.frameN).length *
        frameSize log.pageSize ≤ reader.data.length := by
    rw [← Nat.mul_min_mul_right]
    omega
  exact Nat.le_trans (Nat.le_mul_of_pos_right _ positive) bytesRead

section Whole

variable {frame : Frame}

theorem whole_frame
    (found : (log.frames.take (log.whole length))[index]? = some frame) :
    index < log.whole length ∧ log.frames[index]? = some frame := by
  rw [List.getElem?_take] at found
  split at found
  · exact ⟨by assumption, found⟩
  · cases found

/-- What stands at the place of a whole frame of the cut file. -/
theorem drop_frame (ok : log.Ok)
    (found : (log.frames.take (log.whole length))[index]? = some frame) :
    ∃ rest, (log.content.take length).drop (frameOffset log.pageSize index) =
      log.frameBytes (log.sumAfter index) frame ++ rest := by
  obtain ⟨whole, placed⟩ := whole_frame found
  obtain ⟨inside, rfl⟩ := List.getElem?_eq_some_iff.mp placed
  have size := @Fits.length_frameBytes log (log.sumAfter index) _
    (ok.frames _ (List.getElem_mem inside))
  have room : frameSize log.pageSize ≤
      length - frameOffset log.pageSize index := by
    have count := whole_sub log index length
    by_contra short
    rw [Nat.div_eq_of_lt (Nat.not_le.mp short)] at count
    omega
  obtain ⟨more, enough⟩ := Nat.exists_eq_add_of_le room
  rw [ok.drop_take (Nat.le_of_lt inside), List.drop_eq_getElem_cons inside,
    framesBytes, List.append_assoc, enough, ← size,
    List.take_length_add_append]
  exact ⟨_, rfl⟩

/-- The page of a whole frame of the cut file. -/
theorem page_eq (ok : log.Ok)
    (found : (log.frames.take (log.whole length))[index]? = some frame) :
    ((log.content.take length).drop
      (frameOffset log.pageSize index + walFrameHeaderSize)).take
        log.pageSize = frame.data := by
  obtain ⟨rest, there⟩ := ok.drop_frame found
  have fits := ok.frames frame
    (List.mem_of_getElem? (whole_frame found).2)
  rw [← List.drop_drop, there, frameBytes]
  simp only [← List.append_assoc]
  rw [List.append_assoc _ _ rest, List.drop_left' (by
    simp [walFrameHeaderSize]), List.take_left' fits.length]

theorem sumAfter_succ (placed : log.frames[index]? = some frame) :
    log.sumAfter (index + 1) =
      nextSum log.byteOrder (log.sumAfter index) frame := by
  rw [sumAfter, List.take_add_one, placed, List.foldl_append]
  rfl

/-- The running checksum stands in the frame before. -/
theorem seed_eq (ok : log.Ok)
    (found : (log.frames.take (log.whole length))[index]? = some frame) :
    frameOffset log.pageSize index + walFrameHeaderSize ≤
        (log.content.take length).length ∧
      WalFrameHeader.parse (((log.content.take length).drop
          (frameOffset log.pageSize index)).take walFrameHeaderSize) =
        { pgno := frame.pgno
          commit := frame.commit
          salt1 := log.salt1
          salt2 := log.salt2
          checksum1 := (log.sumAfter (index + 1)).1
          checksum2 := (log.sumAfter (index + 1)).2 } := by
  obtain ⟨rest, there⟩ := ok.drop_frame found
  obtain ⟨_, placed⟩ := whole_frame found
  have fits := ok.frames frame (List.mem_of_getElem? placed)
  constructor
  · have size := congrArg List.length there
    rw [List.length_append, fits.length_frameBytes, List.length_drop,
      frameSize] at size
    have header : 0 < walFrameHeaderSize := by decide
    omega
  · rw [parse_take _ (Nat.le_refl _), there,
      fits.parse_frame ok (sumAfter_lt log index), sumAfter_succ placed]

end Whole

end Ok

end WalLog

end Literstream
