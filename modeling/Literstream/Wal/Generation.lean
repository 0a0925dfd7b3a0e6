import Literstream.Db.Transactions
import Literstream.Wal.Written

/-!
# The generation that a log holds

What the bytes of a log say without a reader: the frames of the header's
generation are the longest run of complete frames with its salts that continue
its checksum, and the database is what their last commit leaves.  The reader
finds exactly this.
-/

namespace Literstream

open Std

/-- The bytes at the place of a frame. -/
def frameSlot (pageSize : Nat) (data : Bytes) (index : Nat) : Bytes :=
  (data.drop (frameOffset pageSize index)).take (frameSize pageSize)

def slotHeader (slot : Bytes) : WalFrameHeader :=
  WalFrameHeader.parse (slot.take walFrameHeaderSize)

def slotFrame (slot : Bytes) : Frame where
  pgno := (slotHeader slot).pgno
  commit := (slotHeader slot).commit
  data := slot.drop walFrameHeaderSize

/-- The running checksum behind a frame. -/
def slotSum (order : ByteOrder) (sum : Nat × Nat) (slot : Bytes) : Nat × Nat :=
  let half := walChecksum order sum.1 sum.2 (slot.take 8)
  walChecksum order half.1 half.2 (slot.drop walFrameHeaderSize)

/-- The running checksum of the first frames. -/
def runningSum (header : WalHeader) (data : Bytes) : Nat → Nat × Nat
  | 0 => (header.checksum1, header.checksum2)
  | count + 1 =>
      slotSum header.byteOrder (runningSum header data count)
        (frameSlot header.pageSize data count)

/-- The frame is there in full, carries the salts of the header and continues
the checksum of the frames before it. -/
structure Belongs (header : WalHeader) (data : Bytes) (index : Nat) : Prop where
  complete : frameOffset header.pageSize (index + 1) ≤ data.length
  salt1 : (slotHeader (frameSlot header.pageSize data index)).salt1 =
    header.salt1
  salt2 : (slotHeader (frameSlot header.pageSize data index)).salt2 =
    header.salt2
  checksum : runningSum header data (index + 1) =
    ((slotHeader (frameSlot header.pageSize data index)).checksum1,
      (slotHeader (frameSlot header.pageSize data index)).checksum2)

/-- So many frames belong, and the next one does not. -/
structure IsGeneration (header : WalHeader) (data : Bytes) (count : Nat) :
    Prop where
  belongs : ∀ index < count, Belongs header data index
  ends : ¬ Belongs header data count

/-- The frames at the places from one number up to another. -/
def framesBetween (pageSize : Nat) (data : Bytes) (first count : Nat) :
    List Frame :=
  (List.range' first count).map fun index =>
    slotFrame (frameSlot pageSize data index)

/-- The frames of the generation. -/
def generation (pageSize : Nat) (data : Bytes) (count : Nat) : List Frame :=
  framesBetween pageSize data 0 count

/-- The last of the frames that holds the page stands at the offset. -/
def LastOccurrence (pageSize : Nat) (frames : List Frame) (pgno offset : Nat) :
    Prop :=
  ∃ index, (frames[index]?.map Frame.pgno = some pgno) ∧
    offset = frameOffset pageSize index ∧
    ∀ later, index < later → frames[later]?.map Frame.pgno ≠ some pgno

/-- A map that says what the frames up to the last commit say: the database size
of that commit, and the last offset of every page inside it. -/
structure Reads (pageSize : Nat) (frames : List Frame) (map : PageMap) :
    Prop where
  commit : map.commit = commitOf (committed frames)
  pages : ∀ pgno offset, map.pages[pgno]? = some offset ↔
    pgno ≤ commitOf (committed frames) ∧
      LastOccurrence pageSize (committed frames) pgno offset

section Generations

variable {header : WalHeader} {data other : Bytes} {count otherCount : Nat}

theorem IsGeneration.unique (first : IsGeneration header data count)
    (second : IsGeneration header data otherCount) : count = otherCount := by
  rcases Nat.lt_trichotomy count otherCount with less | same | more
  · exact absurd (second.belongs count less) first.ends
  · exact same
  · exact absurd (first.belongs otherCount more) second.ends

theorem frameSlot_take {pageSize length index : Nat}
    (inside : frameOffset pageSize (index + 1) ≤ length) :
    frameSlot pageSize (data.take length) index =
      frameSlot pageSize data index := by
  rw [frameOffset_succ] at inside
  rw [frameSlot, frameSlot, List.drop_take, List.take_take,
    Nat.min_eq_left (by omega)]

/-- The bytes up to the end of a frame decide whether it belongs. -/
theorem runningSum_take {length : Nat}
    (inside : frameOffset header.pageSize count ≤ length) :
    runningSum header (data.take length) count =
      runningSum header data count := by
  induction count with
  | zero => rfl
  | succ count ih =>
      have before : frameOffset header.pageSize count ≤ length := by
        rw [frameOffset_succ] at inside
        omega
      rw [runningSum, runningSum, ih before, frameSlot_take inside]

theorem Belongs.take {length index : Nat} (belongs : Belongs header data index)
    (inside : frameOffset header.pageSize (index + 1) ≤ length) :
    Belongs header (data.take length) index where
  complete := by
    rw [List.length_take]
    exact Nat.le_min.mpr ⟨inside, belongs.complete⟩
  salt1 := by
    rw [frameSlot_take inside]
    exact belongs.salt1
  salt2 := by
    rw [frameSlot_take inside]
    exact belongs.salt2
  checksum := by
    rw [runningSum_take inside, frameSlot_take inside]
    exact belongs.checksum

theorem Belongs.of_take {length index : Nat}
    (belongs : Belongs header (data.take length) index) :
    Belongs header data index := by
  have complete := belongs.complete
  rw [List.length_take, Nat.le_min] at complete
  obtain ⟨inside, whole⟩ := complete
  have slot := @frameSlot_take data _ _ _ inside
  exact
    { complete := whole
      salt1 := by
        rw [← slot]
        exact belongs.salt1
      salt2 := by
        rw [← slot]
        exact belongs.salt2
      checksum := by
        rw [← runningSum_take inside, ← slot]
        exact belongs.checksum }

theorem framesBetween_append (pageSize : Nat) (data : Bytes)
    (first count more : Nat) :
    framesBetween pageSize data first (count + more) =
      framesBetween pageSize data first count ++
        framesBetween pageSize data (first + count) more := by
  rw [framesBetween, framesBetween, framesBetween, ← List.map_append,
    List.range'_append_1]

theorem generation_append (pageSize : Nat) (data : Bytes) (count more : Nat) :
    generation pageSize data (count + more) =
      generation pageSize data count ++
        framesBetween pageSize data count more := by
  rw [generation, framesBetween_append, Nat.zero_add, generation]

theorem length_generation (pageSize : Nat) (data : Bytes) (count : Nat) :
    (generation pageSize data count).length = count := by
  simp [generation, framesBetween]

end Generations

namespace WalReader

variable {header : WalHeader} {data : Bytes} {index count : Nat}

/-- The reader of a whole log before one of its frames. -/
def atFrame (header : WalHeader) (data : Bytes) (index : Nat) : WalReader where
  data := data
  base := 0
  header := header
  frameN := index
  chksum := runningSum header data index

theorem new_eq_ok (parsed : WalHeader.parse data = .ok header) :
    new data = .ok (atFrame header data 0) := by
  rw [new, parsed]
  rfl

theorem readFrame_belongs (belongs : Belongs header data index) :
    (atFrame header data index).readFrame = some
      ((frameOffset header.pageSize index,
        slotFrame (frameSlot header.pageSize data index)),
      atFrame header data (index + 1)) := by
  have complete := belongs.complete
  rw [frameOffset_succ] at complete
  unfold readFrame atFrame
  dsimp only
  rw [Nat.sub_zero, ← frameOffset, if_neg (Nat.not_lt.mpr complete),
    ← frameSlot, ← slotHeader, if_neg (by
      simp [belongs.salt1, belongs.salt2])]
  exact if_neg (not_not.mpr belongs.checksum)

theorem readFrame_ends (ends : ¬ Belongs header data index) :
    (atFrame header data index).readFrame = none := by
  unfold readFrame atFrame
  dsimp only
  rw [Nat.sub_zero, ← frameOffset]
  split
  · rfl
  · rename_i complete
    rw [← frameSlot, ← slotHeader]
    split
    · rfl
    · rename_i salts
      rw [not_or, not_not, not_not] at salts
      split
      · rfl
      · rename_i checksum
        have belongs : Belongs header data index :=
          { complete := by
              rw [frameOffset_succ]
              exact Nat.not_lt.mp complete
            salt1 := salts.1
            salt2 := salts.2
            checksum := not_not.mp checksum }
        exact absurd belongs ends

theorem readFrames_atFrame {fuel remaining : Nat}
    (belongs : ∀ other < index + remaining, Belongs header data other)
    (ends : ¬ Belongs header data (index + remaining))
    (fuelled : remaining ≤ fuel) :
    (atFrame header data index).readFrames fuel =
      locate header.pageSize index
        (framesBetween header.pageSize data index remaining) := by
  induction remaining generalizing index fuel with
  | zero => exact readFrames_stop (readFrame_ends ends) fuel
  | succ remaining ih =>
      cases fuel with
      | zero => omega
      | succ fuel =>
          have follows : index + 1 + remaining = index + (remaining + 1) := by
            omega
          rw [readFrames, readFrame_belongs (belongs index (by omega)),
            framesBetween, List.range'_succ, List.map_cons, locate]
          dsimp only
          congr 1
          apply ih
          · rw [follows]
            exact belongs
          · rw [follows]
            exact ends
          · omega

/-- The reader of a whole log returns its generation. -/
theorem frames_generation (isGeneration : IsGeneration header data count) :
    (atFrame header data 0).frames =
      locate header.pageSize 0 (generation header.pageSize data count) := by
  apply readFrames_atFrame
  · rw [Nat.zero_add]
    exact isGeneration.belongs
  · rw [Nat.zero_add]
    exact isGeneration.ends
  · cases count with
    | zero => exact Nat.zero_le _
    | succ count =>
        have complete := (isGeneration.belongs count (by omega)).complete
        have positive := frameSize_pos header.pageSize
        have wide := Nat.le_mul_of_pos_right (count + 1) positive
        rw [frameOffset] at complete
        exact Nat.le_trans (by omega) complete

/-- Every log holds a generation: each of its frames takes some of its bytes. -/
theorem exists_generation (header : WalHeader) (data : Bytes) :
    ∃ count, IsGeneration header data count := by
  classical
  have short : ∃ count, ¬ Belongs header data count := by
    refine ⟨data.length, ?_⟩
    intro belongs
    have complete := belongs.complete
    have wide := Nat.le_mul_of_pos_right (data.length + 1)
      (frameSize_pos header.pageSize)
    rw [frameOffset] at complete
    omega
  refine ⟨Nat.find short, ?_, Nat.find_spec short⟩
  intro index before
  exact not_not.mp (Nat.find_min short before)

end WalReader

section Maps

variable {pageSize : Nat} {frames body : List Frame} {last : Frame}

/-- Only frames that do not commit lie behind the last commit. -/
theorem openAfter_committed (frames : List Frame) :
    OpenAfter (committed frames) frames := by
  refine ⟨frames.rtakeWhile fun frame => frame.commit = 0, ?_, ?_⟩
  · exact List.rdropWhile_append_rtakeWhile.symm
  · intro frame member
    simpa using List.mem_rtakeWhile_imp member

theorem committed_getLast?
    (isLast : (committed frames).getLast? = some last) : last.commit ≠ 0 := by
  have nonempty : committed frames ≠ [] := by
    intro empty
    rw [empty] at isLast
    cases isLast
  have kept := List.rdropWhile_last_not
    (fun frame : Frame => decide (frame.commit = 0)) frames nonempty
  have same := List.getLast?_eq_some_getLast nonempty
  rw [isLast, Option.some.injEq] at same
  rw [same]
  exact of_decide_eq_false (Bool.not_eq_true _ ▸ kept)

/-- Whether a page stands at a place of frames with one more behind them. -/
theorem pgno_append_singleton {pgno position : Nat} :
    (frames ++ [last])[position]?.map Frame.pgno = some pgno ↔
      frames[position]?.map Frame.pgno = some pgno ∨
        (position = frames.length ∧ last.pgno = pgno) := by
  rcases Nat.lt_trichotomy position frames.length with inside | end_ | beyond
  · rw [List.getElem?_append_left inside]
    constructor
    · exact .inl
    · rintro (there | ⟨rfl, _⟩)
      · exact there
      · omega
  · subst end_
    simp
  · rw [List.getElem?_eq_none (by simp; omega),
      List.getElem?_eq_none (Nat.le_of_lt beyond)]
    constructor
    · exact .inl
    · rintro (there | ⟨rfl, _⟩)
      · exact there
      · omega

theorem newestEntry_lastOccurrence {pgno offset : Nat} :
    (newestEntry (locate pageSize 0 frames) pgno).map Prod.fst =
        some offset ↔ LastOccurrence pageSize frames pgno offset := by
  unfold LastOccurrence
  induction frames using List.reverseRecOn with
  | nil => simp [locate, newestEntry]
  | append_singleton frames last ih =>
      rw [locate_append, locate_singleton, newestEntry_append, newestEntry,
        newestEntry, Option.none_or, Nat.zero_add]
      simp only [Ne, pgno_append_singleton]
      by_cases same : last.pgno = pgno
      · rw [if_pos same, Option.some_or, Option.map_some, Option.some.injEq]
        constructor
        · rintro rfl
          refine ⟨frames.length, .inr ⟨rfl, same⟩, rfl, ?_⟩
          rintro later after (there | ⟨rfl, _⟩)
          · rw [List.getElem?_eq_none (Nat.le_of_lt after)] at there
            cases there
          · omega
        · rintro ⟨position, there, rfl, newest⟩
          have last_ : ¬ position < frames.length := fun before =>
            newest frames.length before (.inr ⟨rfl, same⟩)
          rcases there with there | ⟨rfl, _⟩
          · rw [List.getElem?_eq_none (Nat.not_lt.mp last_)] at there
            cases there
          · rfl
      · rw [if_neg same, Option.none_or, ih]
        simp only [same, and_false, or_false]

/-- The map of located frames says what the frames up to the last commit say. -/
theorem pageMap_reads (pageSize : Nat) (frames : List Frame) :
    Reads pageSize frames (pageMap pageSize (locate pageSize 0 frames)) := by
  have forgets := @OpenAfter.pageMap pageSize _ _ 0 (openAfter_committed frames)
    (Nat.zero_le _)
  rw [List.drop_zero, List.drop_zero] at forgets
  rw [forgets]
  cases isLast : (committed frames).getLast? with
  | none =>
      have nothing := List.getLast?_eq_none_iff.mp isLast
      constructor
      · rw [nothing]
        rfl
      · intro pgno offset
        rw [nothing]
        simp [locate, pageMap_nil, LastOccurrence]
  | some last =>
      have commits := committed_getLast? isLast
      obtain ⟨body, whole⟩ := List.getLast?_eq_some_iff.mp isLast
      have size : commitOf (committed frames) = last.commit := by
        rw [commitOf, isLast]
        rfl
      obtain ⟨commit, pages⟩ := @pageMap_of_commit pageSize 0 body last commits
      rw [← whole] at commit pages
      constructor
      · rw [commit, size]
      · intro pgno offset
        rw [pages, size, ← newestEntry_lastOccurrence]
        split
        · rename_i inside
          simp [inside]
        · rename_i outside
          simp [outside]

/-- Nothing changes what whole transactions have committed. -/
theorem committed_append_done {done rest : List Frame}
    (whole : committed done = done) :
    committed (done ++ rest) = done ++ committed rest := by
  induction rest using List.reverseRecOn with
  | nil => rw [List.append_nil, whole]; exact (List.append_nil _).symm
  | append_singleton rest frame ih =>
      rw [← List.append_assoc]
      by_cases uncommitted : frame.commit = 0
      · have single : ∀ other ∈ [frame], other.commit = 0 := by
          simpa using uncommitted
        rw [committed_append single, committed_append single, ih]
      · have kept : ¬ decide (frame.commit = 0) = true := by
          simpa using uncommitted
        have last_ : ∀ frames : List Frame,
            committed (frames ++ [frame]) = frames ++ [frame] :=
          fun frames => List.rdropWhile_concat_neg _ frames frame kept
        rw [last_, last_, List.append_assoc]

end Maps

section Endings

variable {header : WalHeader} {data other : Bytes} {count otherCount : Nat}

/-- The first 32 bytes decide the header. -/
theorem WalHeader.parse_take {length : Nat} (data : Bytes)
    (inside : walHeaderSize ≤ length) :
    WalHeader.parse (data.take length) = WalHeader.parse data := by
  have field : ∀ offset, offset + 4 ≤ walHeaderSize →
      BigEndian.at_ 4 (data.take length) offset =
        BigEndian.at_ 4 data offset :=
    fun offset below => BigEndian.at_take _ (Nat.le_trans below inside)
  have start : (data.take length).take 24 = data.take 24 := by
    rw [List.take_take, Nat.min_eq_left (Nat.le_trans (by decide) inside)]
  by_cases short : data.length < walHeaderSize
  · rw [List.take_of_length_le (by omega)]
  · have long : ¬ (data.take length).length < walHeaderSize := by
      rw [List.length_take]
      omega
    unfold WalHeader.parse
    rw [if_neg short, if_neg long, field 0 (by decide), field 4 (by decide),
      field 8 (by decide), field 12 (by decide), field 16 (by decide),
      field 20 (by decide), field 24 (by decide), field 28 (by decide), start]

/-- The committed frames are the first ones of the generation. -/
theorem committed_generation (pageSize : Nat) (data : Bytes) (count : Nat) :
    (committed (generation pageSize data count)).length ≤ count ∧
      committed (generation pageSize data count) = generation pageSize data
        (committed (generation pageSize data count)).length := by
  obtain ⟨tail, whole, _⟩ :=
    openAfter_committed (generation pageSize data count)
  have lengths := congrArg List.length whole
  rw [length_generation, List.length_append] at lengths
  have inside : (committed (generation pageSize data count)).length ≤ count :=
    by omega
  refine ⟨inside, ?_⟩
  obtain ⟨more, total⟩ := Nat.exists_eq_add_of_le inside
  have first := generation_append pageSize data
    (committed (generation pageSize data count)).length more
  rw [← total] at first
  have both := whole.symm.trans first
  exact (List.append_inj both (length_generation _ _ _).symm).1

/-- A log with the same bytes up to the last commit commits the same frames, and
perhaps more behind them. -/
theorem committed_extends
    (isGeneration : IsGeneration header data count)
    (otherGeneration : IsGeneration header other otherCount)
    (same : other.take (frameOffset header.pageSize
        (committed (generation header.pageSize data count)).length) =
      data.take (frameOffset header.pageSize
        (committed (generation header.pageSize data count)).length)) :
    ∃ more, committed (generation header.pageSize other otherCount) =
      committed (generation header.pageSize data count) ++ more := by
  obtain ⟨inside, first⟩ :=
    committed_generation header.pageSize data count
  have whole : committed (committed (generation header.pageSize data count)) =
      committed (generation header.pageSize data count) :=
    List.rdropWhile_idempotent _ _
  generalize committed (generation header.pageSize data count) = done
    at same inside first whole ⊢
  have fits : ∀ index < done.length, frameOffset header.pageSize (index + 1) ≤
      frameOffset header.pageSize done.length := by
    intro index before
    exact Nat.add_le_add_left (Nat.mul_le_mul_right _ before) _
  have belongs : ∀ index < done.length, Belongs header other index := by
    intro index before
    have there := (isGeneration.belongs index (by omega)).take
      (fits index before)
    rw [← same] at there
    exact there.of_take
  have enough : done.length ≤ otherCount := by
    by_contra fewer
    exact otherGeneration.ends (belongs otherCount (by omega))
  obtain ⟨more, rfl⟩ := Nat.exists_eq_add_of_le enough
  have start : generation header.pageSize other done.length = done := by
    refine Eq.trans ?_ first.symm
    apply List.map_congr_left
    intro index member
    have before : index < done.length := by
      rw [List.mem_range'_1] at member
      omega
    rw [← @frameSlot_take other _ _ _ (fits index before), same,
      frameSlot_take (fits index before)]
  rw [generation_append, start, committed_append_done whole]
  exact ⟨_, rfl⟩

/-- The end of the last commit frame, or of the header when there is none. -/
def commitEnd (pageSize : Nat) (frames : List Frame) : Nat :=
  frameOffset pageSize (committed frames).length

/-- The reader maps exactly the committed part of the generation, and other
bytes behind the last commit make a difference only when they continue the
generation up to another commit. -/
theorem pageMap_generation (parsed : WalHeader.parse data = .ok header) :
    ∃ reader count, WalReader.new data = .ok reader ∧
      IsGeneration header data count ∧
      Reads header.pageSize (generation header.pageSize data count)
        reader.pageMap ∧
      (∀ last, (committed (generation header.pageSize data count)).getLast? =
          some last → last.pgno ≤ last.commit →
        reader.pageMap.endOffset = commitEnd header.pageSize
          (generation header.pageSize data count)) ∧
      ∀ other, other.take (commitEnd header.pageSize
            (generation header.pageSize data count)) =
          data.take (commitEnd header.pageSize
            (generation header.pageSize data count)) →
        ∃ otherReader otherCount, WalReader.new other = .ok otherReader ∧
          IsGeneration header other otherCount ∧
          (otherReader.pageMap = reader.pageMap ∨
            ∃ more, more ≠ [] ∧
              committed (generation header.pageSize other otherCount) =
                committed (generation header.pageSize data count) ++ more) := by
  obtain ⟨count, isGeneration⟩ := WalReader.exists_generation header data
  have mapped : ∀ {bytes number}, IsGeneration header bytes number →
      (WalReader.atFrame header bytes 0).pageMap =
        pageMap header.pageSize (locate header.pageSize 0
          (committed (generation header.pageSize bytes number))) := by
    intro bytes number there
    have forgets := @OpenAfter.pageMap header.pageSize _ _ 0
      (openAfter_committed (generation header.pageSize bytes number))
      (Nat.zero_le _)
    rw [List.drop_zero, List.drop_zero] at forgets
    rw [← forgets, ← WalReader.frames_generation there]
    rfl
  refine ⟨_, count, WalReader.new_eq_ok parsed, isGeneration, ?_, ?_, ?_⟩
  · rw [WalReader.pageMap, WalReader.frames_generation isGeneration]
    exact pageMap_reads _ _
  · intro last isLast inside
    obtain ⟨body, whole⟩ := List.getLast?_eq_some_iff.mp isLast
    rw [mapped isGeneration, commitEnd, whole,
      endOffset_of_commit (committed_getLast? isLast) inside,
      List.length_append, List.length_singleton, Nat.zero_add]
  · intro other same
    have headed : walHeaderSize ≤ commitEnd header.pageSize
        (generation header.pageSize data count) := Nat.le_add_right _ _
    have otherParsed : WalHeader.parse other = .ok header := by
      rw [← WalHeader.parse_take other headed, same,
        WalHeader.parse_take data headed, parsed]
    obtain ⟨otherCount, otherGeneration⟩ :=
      WalReader.exists_generation header other
    obtain ⟨more, extended⟩ :=
      committed_extends isGeneration otherGeneration same
    refine ⟨_, otherCount, WalReader.new_eq_ok otherParsed, otherGeneration, ?_⟩
    cases more with
    | nil =>
        rw [List.append_nil] at extended
        left
        rw [mapped otherGeneration, mapped isGeneration, extended]
    | cons frame more => exact .inr ⟨_, by simp, extended⟩

/-- Two transactions, and behind them a frame that no commit follows and a torn
one. -/
def tornLog : WalLog where
  byteOrder := .little
  pageSize := 512
  seq := 0
  salt1 := 1
  salt2 := 2
  frames := [⟨2, 2, List.replicate 512 7⟩, ⟨1, 2, List.replicate 512 9⟩,
    ⟨2, 0, List.replicate 512 3⟩]
  leftover := [0, 0]

theorem tornLog_ok : tornLog.Ok where
  sized := by decide
  seq := by decide
  salt1 := by decide
  salt2 := by decide
  frames := by
    intro frame member
    simp only [tornLog, List.mem_cons, List.not_mem_nil, or_false] at member
    rcases member with rfl | rfl | rfl <;>
      exact ⟨List.length_replicate, by decide, by decide⟩
  ends := .of_short (by decide : 2 < 536)

theorem tornLog_parsed :
    WalHeader.parse tornLog.content = .ok tornLog.header := by
  have headed : walHeaderSize ≤ tornLog.content.length := by
    rw [tornLog_ok.length_content]
    decide
  have parsed := tornLog_ok.parse_header headed
  rw [List.take_length] at parsed
  exact parsed

theorem pageMap_generation_torn :
    ∃ reader count,
      WalReader.new tornLog.content = .ok reader ∧
      IsGeneration tornLog.header tornLog.content count ∧
      Reads 512 (generation 512 tornLog.content count) reader.pageMap ∧
      (∀ last, (committed (generation 512 tornLog.content count)).getLast? =
          some last → last.pgno ≤ last.commit →
        reader.pageMap.endOffset =
          commitEnd 512 (generation 512 tornLog.content count)) ∧
      ∀ other, other.take (commitEnd 512
            (generation 512 tornLog.content count)) =
          tornLog.content.take (commitEnd 512
            (generation 512 tornLog.content count)) →
        ∃ otherReader otherCount, WalReader.new other = .ok otherReader ∧
          IsGeneration tornLog.header other otherCount ∧
          (otherReader.pageMap = reader.pageMap ∨
            ∃ more, more ≠ [] ∧
              committed (generation 512 other otherCount) =
                committed (generation 512 tornLog.content count) ++ more) :=
  pageMap_generation tornLog_parsed

end Endings

end Literstream
