import Literstream.Sync.Positions

/-!
# The frames that a chain covers

The header of an L0 file names the generation and the range of the WAL that the
file was built from.  In the current generation the files of a replica together
hold the frames that the position counts, and no others.
-/

namespace Literstream

open PagedFile

/-! ## Frames in files -/

/-- The file was built from a frame. -/
def LtxFile.HoldsFrame (pageSize : Nat) (file : LtxFile)
    (salt1 salt2 index : Nat) : Prop :=
  file.header.walSalt1 = salt1 ∧ file.header.walSalt2 = salt2 ∧
    file.header.walOffset ≤ frameOffset pageSize index ∧
    frameOffset pageSize index <
      file.header.walOffset + file.header.walSize

instance (pageSize : Nat) (file : LtxFile) (salt1 salt2 index : Nat) :
    Decidable (file.HoldsFrame pageSize salt1 salt2 index) :=
  inferInstanceAs (Decidable (_ ∧ _))

/-- A frame is contained in the chain. -/
def HoldsFrame (pageSize : Nat) (store : Store) (salt1 salt2 index : Nat) :
    Prop :=
  ∃ (key : FileKey) (file : LtxFile), store[key]? = some file ∧
    file.HoldsFrame pageSize salt1 salt2 index

instance (pageSize : Nat) (store : Store) (salt1 salt2 index : Nat) :
    Decidable (HoldsFrame pageSize store salt1 salt2 index) :=
  decidable_of_iff (∃ key ∈ store.keys, ∃ file ∈ store[key]?.toList,
      file.HoldsFrame pageSize salt1 salt2 index) <| by
    constructor
    · rintro ⟨key, _, file, stored, holds⟩
      exact ⟨key, file, Option.mem_toList.mp stored, holds⟩
    · rintro ⟨key, file, stored, holds⟩
      refine ⟨key, ?_, file, Option.mem_toList.mpr stored, holds⟩
      exact Std.ExtTreeMap.mem_keys.mpr
        ((OrderedMap.mem_iff_exists _ _).mpr ⟨file, stored⟩)

/-- Of a generation, the chain contains what the position counts. -/
def Covers (pageSize : Nat) (store : Store) (pos : Position) (wal : Wal) :
    Prop :=
  ∀ index, HoldsFrame pageSize store wal.salt1 wal.salt2 index ↔
    index < wal.captured pageSize pos

/-- The chain of a position, next to the database. -/
structure Covered (pageSize : Nat) (store : Store) (pos : Position)
    (db : Sqlite) : Prop where
  keys : ∀ (key : FileKey) (file : LtxFile), store[key]? = some file →
    key.maxTxid ≤ pos.txid
  files : ∀ (key : FileKey) (file : LtxFile), store[key]? = some file →
    file.header.walSalt1 ≤ db.lastSalt1
  salts : pos.salt1 ≤ db.lastSalt1
  wal : ∀ wal, db.wal = some wal →
    OnFrame pageSize pos wal ∧ Covers pageSize store pos wal

section Files

variable {pageSize : Nat} {now : Int} {store : Store} {pos : Position}
  {db : Sqlite} {staged : StagedFile} {file : LtxFile}

theorem frameOffset_le (left right : Nat) :
    frameOffset pageSize left ≤ frameOffset pageSize right ↔ left ≤ right := by
  rw [frameOffset, frameOffset, Nat.add_le_add_iff_left]
  exact Nat.mul_le_mul_right_iff (frameSize_pos pageSize)

theorem frameOffset_lt (left right : Nat) :
    frameOffset pageSize left < frameOffset pageSize right ↔ left < right := by
  rw [← not_le, frameOffset_le, not_le]

/-- Which frames a file holds, where it begins and ends on frames. -/
theorem LtxFile.holdsFrame_iff {salt1 salt2 first last index : Nat}
    (begins : file.header.walOffset = frameOffset pageSize first)
    (ends : file.header.walOffset + file.header.walSize =
      frameOffset pageSize last) :
    file.HoldsFrame pageSize salt1 salt2 index ↔
      file.header.walSalt1 = salt1 ∧ file.header.walSalt2 = salt2 ∧
        first ≤ index ∧ index < last := by
  rw [LtxFile.HoldsFrame, ends, begins, frameOffset_le, frameOffset_lt]

theorem buildSnapshot_begins {offset : Nat}
    (built : buildSnapshot pageSize now pos db offset = .ok (staged, file)) :
    file.header.walOffset = offset := by
  obtain ⟨entries, commit, encoder, written, _, _, opened, encoded, rfl, rfl⟩ :=
    buildSnapshot_eq_ok built
  have header : written.finish.header = _ :=
    (encodeSnapshot_eq_ok encoded).1.trans (Encoder.encodeHeader_eq_ok opened).1
  rw [header]
  rfl

theorem buildIncremental_begins {wal : Wal} {offset salt1 salt2 : Nat}
    (built : buildIncremental pageSize now pos wal offset salt1 salt2 =
      .ok (some (staged, file))) : file.header.walOffset = offset := by
  obtain ⟨_, _, _, _, encoded, rfl⟩ := buildIncremental_eq_ok built
  rw [(encodeFile_eq_ok encoded).1]
  rfl

/-- A file whose key is new adds what it holds. -/
theorem holdsFrame_insert {key : FileKey} {salt1 salt2 index : Nat}
    (fresh : store[key]? = none) :
    HoldsFrame pageSize (store.insert key file) salt1 salt2 index ↔
      file.HoldsFrame pageSize salt1 salt2 index ∨
        HoldsFrame pageSize store salt1 salt2 index := by
  constructor
  · rintro ⟨other, found, stored, holds⟩
    rw [OrderedMap.getElem?_insert] at stored
    split at stored
    · cases stored
      exact .inl holds
    · exact .inr ⟨other, found, stored, holds⟩
  · rintro (holds | ⟨other, found, stored, holds⟩)
    · exact ⟨key, file, Std.ExtTreeMap.getElem?_insert_self, holds⟩
    · refine ⟨other, found, ?_, holds⟩
      rw [OrderedMap.getElem?_insert, if_neg, stored]
      rintro rfl
      rw [fresh] at stored
      cases stored

/-- A new replica covers nothing. -/
theorem covered_new (ok : DbOk pageSize db) :
    Covered pageSize ∅ .default db where
  keys _ _ impossible := by simp at impossible
  files _ _ impossible := by simp at impossible
  salts := Nat.zero_le _
  wal := by
    intro wal present
    have other : ¬(wal.salt1 = 0 ∧ wal.salt2 = 0) := by
      have first := (ok.salts wal present).1
      omega
    have none_ : wal.captured pageSize .default = 0 := if_neg other
    refine ⟨⟨by rw [none_]; exact Nat.zero_le _, fun same =>
      absurd same other⟩, ?_⟩
    intro index
    rw [none_]
    exact iff_of_false (by rintro ⟨_, _, impossible, _⟩; simp at impossible)
      (Nat.not_lt_zero _)

/-- A file that starts at or before the first frame that is not covered, and
ends with the WAL, covers all of it. -/
theorem Covered.insert {first : Nat} (ok : DbOk pageSize db)
    (covered : Covered pageSize store pos db)
    (stagedOk : StagedOk pageSize pos staged file)
    (atEnd : AtWalEnd pageSize staged.newPos db)
    (begins : file.header.walOffset = frameOffset pageSize first)
    (reaches : ∀ wal, db.wal = some wal → first ≤ wal.captured pageSize pos) :
    Covered pageSize (store.insert staged.key file) staged.newPos db := by
  have fresh : store[staged.key]? = none := by
    by_contra present
    obtain ⟨other, held⟩ := Option.ne_none_iff_exists'.mp present
    have bound := covered.keys _ _ held
    rw [stagedOk.key] at bound
    dsimp only at bound
    omega
  have salts : staged.newPos.salt1 ≤ db.lastSalt1 := by
    rw [atEnd.salt1]
    cases present : db.wal with
    | none => exact Nat.zero_le _
    | some wal => exact (ok.salts wal present).2
  refine ⟨?_, ?_, salts, ?_⟩
  · apply OrderedMap.forall_insert
    · rw [stagedOk.txid, stagedOk.key]
    · intro key found stored
      rw [stagedOk.txid]
      exact (covered.keys key found stored).trans (Nat.le_succ _)
  · apply OrderedMap.forall_insert _ _ _ _ covered.files
    rw [stagedOk.salt1]
    exact salts
  · intro wal present
    have salt1 := atEnd.salt1
    have salt2 := atEnd.salt2
    have offset := atEnd.offset
    rw [present] at salt1 salt2
    rw [Sqlite.frames_of_wal present] at offset
    have all : wal.captured pageSize staged.newPos = wal.frames.length := by
      rw [Wal.captured, if_pos ⟨salt1.symm, salt2.symm⟩, offset,
        frameOffset_index]
    have inside := (covered.wal wal present).1.inside
    have start := reaches wal present
    refine ⟨⟨Nat.le_of_eq all, fun _ => by rw [all, offset]⟩, ?_⟩
    intro index
    rw [holdsFrame_insert fresh, (covered.wal wal present).2 index, all,
      LtxFile.holdsFrame_iff begins (stagedOk.offset.trans offset),
      stagedOk.salt1, stagedOk.salt2]
    constructor
    · rintro (⟨_, _, _, before⟩ | before)
      · exact before
      · omega
    · intro before
      by_cases old : index < wal.captured pageSize pos
      · exact .inr old
      · exact .inl ⟨salt1, salt2, by omega, before⟩

/-- Whatever is built next covers the WAL once it is uploaded. -/
theorem Covered.build (positive : 0 < pageSize) (ok : DbOk pageSize db)
    (covered : Covered pageSize store pos db)
    (built : buildUnderLock pageSize now pos db = .ok (some (staged, file)) ∨
      buildSnapshotNow pageSize now pos db = .ok (staged, file)) :
    AtWalEnd pageSize staged.newPos db ∧
      Covered pageSize (store.insert staged.key file) staged.newPos db := by
  have snapshot : buildSnapshot pageSize now pos db walHeaderSize =
      .ok (staged, file) →
      AtWalEnd pageSize staged.newPos db ∧
        Covered pageSize (store.insert staged.key file) staged.newPos db := by
    intro built
    have atEnd := buildSnapshot_atWalEnd positive ok built
    have begins : file.header.walOffset = frameOffset pageSize 0 := by
      rw [buildSnapshot_begins built, frameOffset, Nat.zero_mul, Nat.add_zero]
    exact ⟨atEnd, covered.insert ok (buildSnapshot_staged built) atEnd begins
      fun _ _ => Nat.zero_le _⟩
  rcases built with under | now_
  · have atEnd := buildUnderLock_atWalEnd positive ok under
    rcases buildUnderLock_planned under with
      built | ⟨wal, offset, salt1, salt2, present, planned, built⟩
    · exact snapshot built
    · obtain ⟨rfl, _, _⟩ :=
        plan_incremental (covered.wal wal present).1 planned
      refine ⟨atEnd, covered.insert ok (buildIncremental_staged built) atEnd
        (buildIncremental_begins built) ?_⟩
      intro other same
      rw [present] at same
      cases same
      exact Nat.le_refl _
  · exact snapshot now_

end Files

/-! ## Commits and checkpoints -/

section Operations

variable {pageSize : Nat} {store : Store} {pos : Position}
  {db next : Sqlite} {op : SqliteOp}

/-- Nothing of a new generation is covered. -/
theorem Covered.of_new (covered : Covered pageSize store pos db) {wal : Wal}
    (newer : db.lastSalt1 < wal.salt1) :
    OnFrame pageSize pos wal ∧ Covers pageSize store pos wal := by
  have other : ¬(wal.salt1 = pos.salt1 ∧ wal.salt2 = pos.salt2) := by
    intro same
    have bound := covered.salts
    omega
  have none_ : wal.captured pageSize pos = 0 := if_neg other
  refine ⟨⟨by rw [none_]; exact Nat.zero_le _, fun same => absurd same other⟩, ?_⟩
  intro index
  rw [none_]
  constructor
  · rintro ⟨key, file, stored, salt1, _⟩
    have bound := covered.files key file stored
    omega
  · intro impossible
    exact absurd impossible (Nat.not_lt_zero _)

theorem Covered.apply (covered : Covered pageSize store pos db)
    (applied : db.apply pageSize op = some next) :
    Covered pageSize store pos next := by
  have grown := Sqlite.lastSalt1_apply applied
  refine ⟨covered.keys,
    fun key file stored => (covered.files key file stored).trans grown,
    covered.salts.trans grown, ?_⟩
  intro wal present
  rcases Sqlite.wal_of_apply applied present with
    ⟨_, before, more, stale, old, rfl⟩ | ⟨_, salt1⟩
  · obtain ⟨onFrame, covers⟩ := covered.wal before old
    refine ⟨⟨?_, onFrame.offset⟩, covers⟩
    exact onFrame.inside.trans (by simp)
  · exact covered.of_new (by rw [salt1]; exact Nat.lt_succ_self _)

end Operations

end Literstream
