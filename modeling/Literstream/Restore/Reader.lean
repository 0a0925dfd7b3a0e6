import Literstream.Restore.Agreement
import Literstream.Ltx.Total

/-!
# Direct page reads

A reader resolves a single page: it walks its restore plan from the newest file
back, looks the page up in each file's index, and fetches one page frame.  The
indexes it has loaded are kept for later reads.
-/

namespace Literstream

open Std PagedFile

/-- The page index of a file: where the frame of each page is found. -/
abbrev PageIndex := List (Nat × Nat)

def pageIndex (file : LtxFile) : PageIndex :=
  file.pages.zipIdx.map fun entry => (entry.1.1, entry.2)

/-- A ranged read of one page frame. -/
def getFrame (store : Store) (key : FileKey) (position : Nat) :
    Except SyncError Page := do
  let file ← getLtx store key
  match file.pages[position]? with
  | some frame => .ok frame
  | none => .error .storage

structure ReplicaReader where
  /-- Earliest first; a page resolves from the newest file back. -/
  plan : List FileKey
  pageSize : Nat
  /-- The indexes loaded so far. -/
  indexes : ExtTreeMap FileKey PageIndex FileKey.cmp

/-- The plan of a reader as of a TXID, or of the latest one. -/
def readerPlan (store : Store) : Option Nat → Except SyncError (List FileKey)
  | none => planRestore (listAllLtx store)
  | some target =>
      match planRestoreTo (listAllLtx store) target with
      | .ok (first :: rest) => .ok (first :: rest)
      | .ok [] => .error (.txidTooOld target)
      | .error .noSnapshot => .error (.txidTooOld target)
      | .error error => .error error

/-- The page size is the one of the base file. -/
def openReader (store : Store) (atTxid : Option Nat) :
    Except SyncError ReplicaReader := do
  let plan ← readerPlan store atTxid
  match plan with
  -- `planRestore` never returns an empty plan.
  | [] => .error .noSnapshot
  | base :: rest =>
      let head ← getLtx store base
      return { plan := base :: rest, pageSize := head.header.pageSize,
               indexes := ∅ }

namespace ReplicaReader

/-- The index of a file, from the cache or else from the file. -/
def loadIndex (store : Store) (reader : ReplicaReader) (key : FileKey) :
    Except SyncError (PageIndex × ReplicaReader) :=
  match reader.indexes[key]? with
  | some index => .ok (index, reader)
  | none => do
      let file ← getLtx store key
      return (pageIndex file,
        { reader with indexes := reader.indexes.insert key (pageIndex file) })

/-- The loop of `readPage`, over the files that are left. -/
def readFrom (store : Store) (pgno : Nat) :
    List FileKey → ReplicaReader →
      Except SyncError (Option Bytes) × ReplicaReader
  | [], reader => (.ok none, reader)
  | key :: older, reader =>
      match reader.loadIndex store key with
      | .error error => (.error error, reader)
      | .ok (index, next) =>
          match index.lookup pgno with
          | none => readFrom store pgno older next
          | some position =>
              (do let frame ← getFrame store key position
                  let data ← liftLtx (decodePageFrame frame.2 next.pageSize)
                  return some data, next)

/-- The newest version of a page in the reader's window. -/
def readPage (store : Store) (reader : ReplicaReader) (pgno : Nat) :
    Except SyncError (Option Bytes) × ReplicaReader :=
  reader.readFrom store pgno reader.plan.reverse

/-- The answers to a sequence of reads. -/
def readPages (store : Store) :
    ReplicaReader → List Nat → List (Except SyncError (Option Bytes))
  | _, [] => []
  | reader, pgno :: rest =>
      (reader.readPage store pgno).1 ::
        readPages store (reader.readPage store pgno).2 rest

end ReplicaReader

/-- The image that a full restore at the same point returns. -/
def imageAt (store : Store) : Option Nat → Except SyncError Bytes
  | none => restore store
  | some target => (restoreToTxid store target).map RestoreResult.image

/-- A page of an image, unless it lies outside or is the lock page. -/
def pageOfImage (pageSize : Nat) (image : Bytes) (pgno : Nat) : Option Bytes :=
  if 1 ≤ pgno ∧ pgno ≤ image.length / pageSize ∧ pgno ≠ lockPgno pageSize then
    some (pageAt pageSize pgno image)
  else none

/-! ## The index and its cache -/

theorem lookup_zipIdx {pages : List Page} {pgno : Nat} (start : Nat) :
    match ((pages.zipIdx start).map fun entry =>
        (entry.1.1, entry.2)).lookup pgno with
    | some position => start ≤ position ∧
        pages[position - start]? =
          pages.find? (fun page => page.1 = pgno) ∧
        (pages.find? fun page => page.1 = pgno).isSome = true
    | none => (pages.find? fun page => page.1 = pgno) = none := by
  induction pages generalizing start with
  | nil => rfl
  | cons page rest ih =>
      rw [List.zipIdx_cons, List.map_cons, List.lookup_cons]
      by_cases same : page.1 = pgno
      · subst same
        simp
      · have different : (pgno == page.1) = false := by
          simpa using Ne.symm same
        rw [different, List.find?_cons_of_neg (by simpa using same)]
        have later := ih (start + 1)
        dsimp only
        split at later
        · rename_i position found
          rw [found]
          obtain ⟨above, frame, present⟩ := later
          refine ⟨by omega, ?_, present⟩
          have shift : position - start = (position - (start + 1)) + 1 := by
            omega
          rw [shift, List.getElem?_cons_succ]
          exact frame
        · rename_i missing
          rw [missing]
          exact later

/-- The index leads to the frame of a page, if the file holds it. -/
theorem pageIndex_lookup (file : LtxFile) (pgno : Nat) :
    match (pageIndex file).lookup pgno with
    | some position => ∃ raw, file.pages[position]? = some (pgno, raw) ∧
        file.page? pgno = some raw
    | none => file.page? pgno = none := by
  have searched := @lookup_zipIdx file.pages pgno 0
  unfold pageIndex LtxFile.page?
  split at searched
  · obtain ⟨_, frame, present⟩ := searched
    obtain ⟨page, held⟩ := Option.isSome_iff_exists.mp present
    have number := List.find?_some held
    simp only [decide_eq_true_eq] at number
    rw [held] at frame ⊢
    refine ⟨page.2, ?_, rfl⟩
    rw [← number]
    exact frame
  · rw [searched]
    rfl

namespace ReplicaReader

/-- Whatever is cached is the index of the file. -/
def CacheOk (store : Store) (reader : ReplicaReader) : Prop :=
  ∀ (key : FileKey) (index : PageIndex), reader.indexes[key]? = some index →
    ∃ file, store[key]? = some file ∧ index = pageIndex file

/-- The reader after some reads. -/
structure Extends (store : Store) (reader next : ReplicaReader) : Prop where
  plan : next.plan = reader.plan
  pageSize : next.pageSize = reader.pageSize
  cache : CacheOk store next

variable {store : Store} {reader : ReplicaReader}

theorem loadIndex_spec {key : FileKey} {file : LtxFile}
    (cache : CacheOk store reader) (held : store[key]? = some file) :
    ∃ next, reader.loadIndex store key = .ok (pageIndex file, next) ∧
      Extends store reader next := by
  unfold loadIndex
  cases cached : reader.indexes[key]? with
  | some index =>
      obtain ⟨other, otherHeld, same⟩ := cache key index cached
      rw [held] at otherHeld
      cases otherHeld
      exact ⟨reader, by rw [same], rfl, rfl, cache⟩
  | none =>
      refine ⟨{ reader with
        indexes := reader.indexes.insert key (pageIndex file) }, ?_, rfl, rfl,
        ?_⟩
      · rw [getLtx_eq_ok.mpr held]
        rfl
      exact OrderedMap.forall_insert _ key _ ⟨file, held, rfl⟩ cache

/-- What a read answers, given the newest copy of the page. -/
def answer (pageSize : Nat) : Option Bytes → Except SyncError (Option Bytes)
  | none => .ok none
  | some raw => (liftLtx (decodePageFrame raw pageSize)).map some

theorem readFrom_spec {files : List KeyedFile} {pgno : Nat}
    (cache : CacheOk store reader) (loaded : Loaded store files) :
    ∃ next, reader.readFrom store pgno (files.map Prod.fst) =
        (answer reader.pageSize (firstPage pgno files), next) ∧
      Extends store reader next := by
  induction files generalizing reader with
  | nil => exact ⟨reader, rfl, rfl, rfl, cache⟩
  | cons file older ih =>
      have held := loaded file (by simp)
      obtain ⟨middle, indexed, plan, pageSize, middleCache⟩ :=
        loadIndex_spec cache held
      have searched := pageIndex_lookup file.2 pgno
      rw [List.map_cons, readFrom, indexed]
      dsimp only
      split at searched
      · rename_i position found
        obtain ⟨raw, frame, present⟩ := searched
        refine ⟨middle, ?_, plan, pageSize, middleCache⟩
        have fetched : getFrame store file.1 position = .ok (pgno, raw) := by
          unfold getFrame
          rw [getLtx_eq_ok.mpr held]
          change (match file.2.pages[position]? with
            | some frame => _
            | none => _) = _
          rw [frame]
        have newest : firstPage pgno (file :: older) = some raw := by
          simp [firstPage, present]
        rw [found, newest, ← pageSize]
        dsimp only
        rw [fetched]
        change (liftLtx (decodePageFrame raw middle.pageSize) >>=
          fun data => pure (some data), middle) =
            ((liftLtx (decodePageFrame raw middle.pageSize)).map some, middle)
        cases decodePageFrame raw middle.pageSize <;> rfl
      · rename_i missing
        obtain ⟨next, rest, restPlan, restSize, restCache⟩ :=
          ih middleCache fun other member => loaded other (by simp [member])
        refine ⟨next, ?_, restPlan.trans plan, restSize.trans pageSize,
          restCache⟩
        have newest : firstPage pgno (file :: older) = firstPage pgno older := by
          simp [firstPage, searched]
        rw [missing, newest, ← pageSize]
        exact rest

/-- Reads do not depend on what was read before. -/
theorem readPages_eq {files : List KeyedFile} (pgnos : List Nat)
    (cache : CacheOk store reader) (loaded : Loaded store files)
    (keys : files.map Prod.fst = reader.plan) :
    reader.readPages store pgnos = pgnos.map fun pgno =>
      answer reader.pageSize (newestPage pgno (files.map Prod.snd)) := by
  induction pgnos generalizing reader with
  | nil => rfl
  | cons pgno rest ih =>
      obtain ⟨next, read, plan, pageSize, nextCache⟩ :=
        @readFrom_spec store reader files.reverse pgno cache
          fun file member => loaded file (List.mem_reverse.mp member)
      rw [List.map_reverse, keys, firstPage_reverse] at read
      have later := ih nextCache (keys.trans plan.symm)
      rw [readPages, readPage, read, List.map_cons]
      dsimp only
      rw [later, pageSize]

end ReplicaReader

/-! ## Agreement with the restored image -/

namespace History

variable {history : History} {store : Store}

/-- What an opened reader has planned, and that a restore to the same point
applies the same plan. -/
theorem openReader_eq_ok {atTxid : Option Nat} {reader : ReplicaReader}
    (opened : openReader store atTxid = .ok reader) :
    ∃ listed, planRestore listed = .ok reader.plan ∧
      (∀ key ∈ listed, key ∈ listAllLtx store) ∧
      imageAt store atTxid = applyPlan store reader.plan [] ∧
      (∃ base head, reader.plan.head? = some base ∧
        getLtx store base = .ok head ∧
        reader.pageSize = head.header.pageSize) ∧
      reader.indexes = ∅ := by
  rw [openReader, bind_eq_ok] at opened
  obtain ⟨plan, planned, opened⟩ := opened
  cases plan with
  | nil => cases opened
  | cons base rest =>
      dsimp only at opened
      rw [bind_eq_ok] at opened
      obtain ⟨head, held, same⟩ := opened
      cases same
      have started : ∃ listed, planRestore listed = .ok (base :: rest) ∧
          (∀ key ∈ listed, key ∈ listAllLtx store) ∧
          imageAt store atTxid = applyPlan store (base :: rest) [] := by
        cases atTxid with
        | none =>
            have same : planRestore (listAllLtx store) = .ok (base :: rest) :=
              planned
            refine ⟨listAllLtx store, same, fun _ member => member, ?_⟩
            rw [imageAt, restore, same]
            rfl
        | some target =>
            simp only [readerPlan] at planned
            split at planned
            · rename_i first others same
              cases planned
              refine ⟨_, same, ?_, ?_⟩
              · exact fun key member => (List.mem_filter.mp member).1
              · rw [imageAt, restoreToTxid, same]
                dsimp only
                rw [List.getLast?_cons]
                dsimp only
                cases applyPlan store (base :: rest) [] <;> rfl
            · cases planned
            · cases planned
            · cases planned
      obtain ⟨listed, same, subset, image⟩ := started
      exact ⟨listed, same, subset, image, ⟨base, head, rfl, held, rfl⟩, rfl⟩

end History

/-- The base file has the page size of the newest file, and no file of the plan
holds a page that lies outside the newest file's database. -/
def ReplicaReader.Unshrunk (store : Store) (reader : ReplicaReader)
    (newest : LtxFile) : Prop :=
  (newest.header.commit ≠ 0 →
    reader.pageSize = newest.header.pageSize) ∧
  ∀ key ∈ reader.plan, ∀ file, store[key]? = some file →
    ∀ page ∈ file.pages, page.1 ≤ newest.header.commit ∧
      page.1 ≠ lockPgno newest.header.pageSize

namespace History

variable {history : History} {store : Store}

/-- A chain of faithful files holds a copy of exactly the stored pages, unless
some file holds a page that is no longer stored. -/
theorem newestPage_stored {files : List KeyedFile} {finish pgno : Nat}
    (chain : PlanChain 0 files finish)
    (faithful : history.FaithfulFiles files)
    (stored : history.Stored finish pgno) :
    newestPage pgno (files.map Prod.snd) =
      some (history.content finish pgno) := by
  obtain ⟨copies, absent⟩ := newestPage_chain chain faithful stored
  cases found : newestPage pgno (files.map Prod.snd) with
  | some raw => rw [(copies raw found).1]
  | none => exact absurd stored.writtenIn (absent found)

/-- The files of a reader's plan, and the last of them. -/
structure Planned (history : History) (store : Store) (reader : ReplicaReader)
    (files : List KeyedFile) (last : KeyedFile) : Prop where
  keys : files.map Prod.fst = reader.plan
  loaded : Loaded store files
  faithful : history.FaithfulFiles files
  chain : PlanChain 0 files last.1.maxTxid
  member : last ∈ files
  newest : reader.plan.getLast? = some last.1
  pageSize : last.2.header.pageSize = history.pageSize last.1.maxTxid
  commit : last.2.header.commit = history.size last.1.maxTxid

/-- A page number that the newest file has room for. -/
def InDatabase (last : KeyedFile) (pgno : Nat) : Prop :=
  1 ≤ pgno ∧ pgno ≤ last.2.header.commit ∧
    pgno ≠ lockPgno last.2.header.pageSize

instance (last : KeyedFile) (pgno : Nat) : Decidable (InDatabase last pgno) :=
  inferInstanceAs (Decidable (_ ∧ _ ∧ _))

/-- The page of the image at the end of the plan. -/
def expectedPage (history : History) (last : KeyedFile) (pgno : Nat) :
    Option Bytes :=
  if InDatabase last pgno then some (history.content last.1.maxTxid pgno)
  else none

theorem planned_of_openReader {atTxid : Option Nat} {reader : ReplicaReader}
    (faithful : history.FaithfulStore store)
    (opened : openReader store atTxid = .ok reader) :
    ∃ files last, Planned history store reader files last ∧
      imageAt store atTxid = applyPlan store (files.map Prod.fst) [] ∧
      reader.CacheOk store := by
  obtain ⟨listed, planned, subset, sameImage, ⟨base, baseFile, isBase, baseHeld,
    pageSize⟩, empty⟩ := openReader_eq_ok opened
  obtain ⟨newest, isNewest⟩ : ∃ newest, reader.plan.getLast? = some newest := by
    cases plan : reader.plan with
    | nil =>
        rw [plan] at isBase
        cases isBase
    | cons first rest => exact ⟨_, List.getLast?_cons⟩
  have chain := planRestore_chain planned isNewest
  obtain ⟨cover, _⟩ := planRestore_eq_ok planned
  have listedPlan := greedyCover_subset listed 0
  rw [← cover] at listedPlan
  obtain ⟨files, keys, loaded⟩ := @exists_loaded store reader.plan
    fun key member => by
      obtain ⟨stored, _⟩ :=
        mem_listAllLtx.mp (subset key (listedPlan key member))
      exact (OrderedMap.mem_iff_exists store key).mpr stored
  have filesFaithful := faithful.loaded loaded
  have ends := isNewest
  rw [← keys] at chain ends sameImage
  obtain ⟨last, member, rfl, isLast⟩ := getLast?_map_fst ends
  obtain ⟨_, headSize, headCommit⟩ := filesFaithful.last chain isLast
  refine ⟨files, last, ?_, sameImage, ?_⟩
  · exact
      { keys := keys
        loaded := loaded
        faithful := filesFaithful
        chain := chain
        member := member
        newest := isNewest
        pageSize := headSize
        commit := headCommit }
  · intro key index found
    rw [empty] at found
    simp at found

section Planned

variable {reader : ReplicaReader} {files : List KeyedFile} {last : KeyedFile}

theorem Planned.stored_iff (planned : Planned history store reader files last)
    (pgno : Nat) :
    InDatabase last pgno ↔ history.Stored last.1.maxTxid pgno := by
  unfold InDatabase
  rw [planned.commit, planned.pageSize]
  exact Iff.rfl

/-- The image that a restore to the end of the plan gives. -/
theorem Planned.image (planned : Planned history store reader files last) :
    ∃ image, applyPlan store (files.map Prod.fst) [] = .ok image ∧
      ∀ pgno, pageOfImage last.2.header.pageSize image pgno =
        expectedPage history last pgno := by
  obtain ⟨image, applied, length, pages⟩ := applyPlan_stored planned.loaded
    planned.faithful planned.chain
    (show ([] : Bytes).length = _ by simp [history.empty])
    (by
      rintro pgno ⟨positive, inside, _⟩
      rw [history.empty] at inside
      omega)
  have count : image.length / last.2.header.pageSize =
      last.2.header.commit := by
    rw [length, planned.pageSize, planned.commit,
      Nat.mul_div_cancel _ (history.pageSize_pos _)]
  refine ⟨image, applied, ?_⟩
  intro pgno
  rw [pageOfImage, count, expectedPage]
  by_cases room : InDatabase last pgno
  · have stored := (planned.stored_iff pgno).mp room
    rw [if_pos room, ← pages pgno stored, ← planned.pageSize]
    exact if_pos room
  · rw [if_neg room]
    exact if_neg room

/-- What the reader answers for one page. -/
def answerOf (reader : ReplicaReader) (files : List KeyedFile) (pgno : Nat) :
    Except SyncError (Option Bytes) :=
  ReplicaReader.answer reader.pageSize (newestPage pgno (files.map Prod.snd))

theorem answerOf_eq_ok {pgno : Nat} {raw : Bytes} {page : Option Bytes}
    (found : newestPage pgno (files.map Prod.snd) = some raw)
    (read : answerOf reader files pgno = .ok page) :
    ∃ data, decodePageFrame raw reader.pageSize = .ok data ∧
      page = some data := by
  unfold answerOf at read
  rw [found] at read
  simp only [ReplicaReader.answer] at read
  cases decoded : decodePageFrame raw reader.pageSize with
  | error error =>
      rw [decoded] at read
      cases read
  | ok data =>
      rw [decoded] at read
      cases read
      exact ⟨data, rfl, rfl⟩

/-- Page 1 is read in the page size of the base file. -/
theorem Planned.pageSize_of_answers
    (planned : Planned history store reader files last)
    (agrees : answerOf reader files 1 = .ok (expectedPage history last 1))
    (nonempty : last.2.header.commit ≠ 0) :
    reader.pageSize = last.2.header.pageSize := by
  have lockAbove := two_le_lockPgno (Header.validate_eq_ok last.2.valid).1
  have first : InDatabase last 1 :=
    ⟨Nat.le_refl 1, Nat.one_le_iff_ne_zero.mpr nonempty, by omega⟩
  have stored := (planned.stored_iff 1).mp first
  obtain ⟨data, decoded, same⟩ := answerOf_eq_ok
    (newestPage_stored planned.chain planned.faithful stored) agrees
  rw [expectedPage, if_pos first] at same
  cases same
  have decodedLength := length_decodePageFrame decoded
  rw [history.content_length] at decodedLength
  rw [planned.pageSize]
  exact decodedLength.symm

/-- A page that a file of the plan holds is answered, so it is expected. -/
theorem inside_of_answers
    (agrees : ∀ pgno,
      answerOf reader files pgno = .ok (expectedPage history last pgno))
    {keyed : KeyedFile} (member : keyed ∈ files) {page : Page}
    (holds : page ∈ keyed.2.pages) : InDatabase last page.1 := by
  have copy := keyed.2.page?_eq_some_iff.mpr holds
  have present := newestPage_isSome (List.mem_map_of_mem member) copy
  obtain ⟨raw, found⟩ := Option.isSome_iff_exists.mp present
  obtain ⟨data, _, expected⟩ := answerOf_eq_ok found (agrees page.1)
  by_contra outside
  rw [expectedPage, if_neg outside] at expected
  cases expected

theorem Planned.answers_of_unshrunk
    (planned : Planned history store reader files last)
    (unshrunk : reader.Unshrunk store last.2) (pgno : Nat) :
    answerOf reader files pgno = .ok (expectedPage history last pgno) := by
  obtain ⟨sized, inside⟩ := unshrunk
  unfold answerOf expectedPage
  by_cases room : InDatabase last pgno
  · have nonempty : last.2.header.commit ≠ 0 :=
      Nat.one_le_iff_ne_zero.mp (Nat.le_trans room.1 room.2.1)
    have decoded := decodePageFrame_of_length
      (show (history.content last.1.maxTxid pgno).length = reader.pageSize by
        rw [history.content_length, sized nonempty, planned.pageSize])
    rw [if_pos room, newestPage_stored planned.chain planned.faithful
      ((planned.stored_iff pgno).mp room)]
    simp only [ReplicaReader.answer, decoded]
    rfl
  · rw [if_neg room]
    cases found : newestPage pgno (files.map Prod.snd) with
    | none => rfl
    | some raw =>
        obtain ⟨holder, holderMember, copy⟩ := newestPage_eq_some found
        obtain ⟨keyed, keyedMember, rfl⟩ := List.mem_map.mp holderMember
        have holds := keyed.2.page?_eq_some_iff.mp copy
        have inPlan : keyed.1 ∈ reader.plan := by
          rw [← planned.keys]
          exact List.mem_map_of_mem keyedMember
        exact absurd ⟨(keyed.2.pagesOk _ holds).1, inside keyed.1 inPlan
          keyed.2 (planned.loaded keyed keyedMember) _ holds⟩ room

theorem Planned.answers_iff
    (planned : Planned history store reader files last) :
    (∀ pgno, answerOf reader files pgno =
      .ok (expectedPage history last pgno)) ↔
        reader.Unshrunk store last.2 := by
  constructor
  · intro agrees
    refine ⟨planned.pageSize_of_answers (agrees 1), ?_⟩
    intro key inPlan file held page holds
    rw [← planned.keys] at inPlan
    obtain ⟨keyed, keyedMember, rfl⟩ := List.mem_map.mp inPlan
    have same := (planned.loaded keyed keyedMember).symm.trans held
    cases same
    exact (inside_of_answers agrees keyedMember holds).2
  · exact planned.answers_of_unshrunk

end Planned

/-- The answers of a reader are the pages of the restored image exactly when
the newest file still has the base file's page size and no file of the plan
holds a page outside the newest file's database. -/
theorem reader_agrees_iff {atTxid : Option Nat} {reader : ReplicaReader}
    (faithful : history.FaithfulStore store)
    (opened : openReader store atTxid = .ok reader) :
    ∃ image newest head, imageAt store atTxid = .ok image ∧
      reader.plan.getLast? = some newest ∧ store[newest]? = some head ∧
      ((∀ pgnos, reader.readPages store pgnos = pgnos.map fun pgno =>
          .ok (pageOfImage head.header.pageSize image pgno)) ↔
        reader.Unshrunk store head) := by
  obtain ⟨files, last, planned, sameImage, cache⟩ :=
    planned_of_openReader faithful opened
  obtain ⟨image, applied, expected⟩ := planned.image
  refine ⟨image, last.1, last.2, sameImage.trans applied, planned.newest,
    planned.loaded last planned.member, ?_⟩
  have reads (pgnos : List Nat) :
      reader.readPages store pgnos = pgnos.map (answerOf reader files) :=
    ReplicaReader.readPages_eq pgnos cache planned.loaded planned.keys
  rw [← planned.answers_iff]
  simp only [reads, expected]
  constructor
  · intro agree pgno
    exact List.singleton_inj.mp (agree [pgno])
  · intro agree pgnos
    exact List.map_congr_left fun pgno _ => agree pgno

/-- A reader of the database that shrank to one page and regrew to two. -/
def shrunkReader : ReplicaReader where
  plan := [⟨1, 1, 2⟩, ⟨2, 2, 4⟩]
  pageSize := 512
  indexes := ∅

theorem shrunkReader_opened :
    openReader shrinkingStore none = .ok shrunkReader := by
  have planned : readerPlan shrinkingStore none =
      .ok [⟨1, 1, 2⟩, ⟨2, 2, 4⟩] := by decide +kernel
  have held : getLtx shrinkingStore ⟨1, 1, 2⟩ =
      .ok (shrinking.file 1 2 0 rfl (by decide)) := by
    apply getLtx_eq_ok.mpr
    rw [shrinkingStore, OrderedMap.getElem?_insert, if_neg (by decide),
      ExtTreeMap.getElem?_insert_self]
  exact bind_eq_ok.mpr ⟨_, planned, bind_eq_ok.mpr ⟨_, held, rfl⟩⟩

theorem reader_agrees_iff_shrinking :
    ∃ image newest head, imageAt shrinkingStore none = .ok image ∧
      shrunkReader.plan.getLast? = some newest ∧
      shrinkingStore[newest]? = some head ∧
      ((∀ pgnos, shrunkReader.readPages shrinkingStore pgnos =
          pgnos.map fun pgno =>
            .ok (pageOfImage head.header.pageSize image pgno)) ↔
        shrunkReader.Unshrunk shrinkingStore head) :=
  reader_agrees_iff shrinkingStore_faithful shrunkReader_opened

/-- The restored image has two pages, and the reader still serves a third. -/
theorem dropped_page_served :
    shrinking.FaithfulStore shrinkingStore ∧
      openReader shrinkingStore none = .ok shrunkReader ∧
      (imageAt shrinkingStore none).map List.length = .ok (2 * 512) ∧
      (shrunkReader.readPage shrinkingStore 3).1 =
        .ok (some (shrinking.content 2 3)) :=
  ⟨shrinkingStore_faithful, shrunkReader_opened, by decide +kernel,
    by decide +kernel⟩

end History

end Literstream
