import Literstream.Storage
import Literstream.Ltx.Compactor
import Literstream.Restore.Plan

/-!
# Histories of database images

What the replica's files are about: a database whose image moves from one TXID
to the next, each step writing some of its pages.  A file is faithful to a range
of TXIDs when it holds exactly the pages written there, each with its final
content.  Nothing here refers to an order of operations of the replicator.
-/

namespace Literstream

open PagedFile

/-- The page size that a database file states in bytes 16..18 of its header
(the value 1 stands for 65536). -/
def localPageSize (file : Bytes) : Option Nat :=
  match file[16]?, file[17]? with
  | some high, some low =>
      if high.toNat * 256 + low.toNat = 1 then some 65536
      else some (high.toNat * 256 + low.toNat)
  | _, _ => none

/-- A database over all TXIDs. -/
structure History where
  pageSize : Nat → Nat
  /-- Database size in pages. -/
  size : Nat → Nat
  content : Nat → Nat → Bytes
  /-- The pages written by the step that leads to a TXID. -/
  written : Nat → Nat → Prop
  pageSize_pos : ∀ txid, 0 < pageSize txid
  content_length : ∀ txid pgno, (content txid pgno).length = pageSize txid
  /-- The lock page is never stored. -/
  lock_zero : ∀ txid,
    content txid (lockPgno (pageSize txid)) = zeroPage (pageSize txid)
  empty : size 0 = 0
  /-- A page that a step does not write was there before, with the same
  content; in particular growth and a new page size write every page. -/
  kept : ∀ txid pgno, 1 ≤ pgno → pgno ≤ size (txid + 1) →
    pgno ≠ lockPgno (pageSize (txid + 1)) → ¬ written (txid + 1) pgno →
    pgno ≤ size txid ∧ pageSize (txid + 1) = pageSize txid ∧
      content (txid + 1) pgno = content txid pgno
  /-- The header of an image never names the page size of a different
  geometry. -/
  honest : ∀ left right,
    localPageSize (ofPages (size left) (content left)) =
      some (pageSize right) → pageSize left = pageSize right

namespace History

variable (history : History)

/-- The database file at a TXID. -/
def image (txid : Nat) : Bytes :=
  ofPages (history.size txid) (history.content txid)

/-- A page that a restore has to write at a TXID. -/
def Stored (txid pgno : Nat) : Prop :=
  1 ≤ pgno ∧ pgno ≤ history.size txid ∧
    pgno ≠ lockPgno (history.pageSize txid)

/-- Some step in the range writes the page. -/
def WrittenIn (first last pgno : Nat) : Prop :=
  ∃ txid, first ≤ txid ∧ txid ≤ last ∧ history.written txid pgno

/-- An LTX file that holds exactly the pages written in `first..=last`, as they
are at `last`. -/
structure Faithful (first last : Nat) (file : LtxFile) : Prop where
  pageSize : file.header.pageSize = history.pageSize last
  commit : file.header.commit = history.size last
  pages : ∀ pgno data, (pgno, data) ∈ file.pages ↔
    history.Stored last pgno ∧ history.WrittenIn first last pgno ∧
      data = history.content last pgno

theorem length_image (txid : Nat) :
    (history.image txid).length =
      history.size txid * history.pageSize txid :=
  length_ofPages _ (history.content_length txid)

theorem pageAt_image {txid pgno : Nat} (positive : 1 ≤ pgno)
    (inside : pgno ≤ history.size txid) :
    pageAt (history.pageSize txid) pgno (history.image txid) =
      history.content txid pgno :=
  pageAt_ofPages (history.content_length txid) positive inside

theorem image_zero : history.image 0 = [] := by
  simp [image, ofPages, history.empty]

variable {history}

/-- A page that no step of a range writes is the same at both ends. -/
theorem Stored.kept {pgno : Nat} {start finish : Nat}
    (stored : history.Stored finish pgno) (ordered : start ≤ finish)
    (unwritten : ¬ history.WrittenIn (start + 1) finish pgno) :
    history.Stored start pgno ∧
      history.pageSize finish = history.pageSize start ∧
      history.content finish pgno = history.content start pgno := by
  induction finish, ordered using Nat.le_induction with
  | base => exact ⟨stored, rfl, rfl⟩
  | succ finish ordered ih =>
      obtain ⟨positive, inside, notLock⟩ := stored
      have last : ¬ history.written (finish + 1) pgno := by
        intro written
        exact unwritten ⟨finish + 1, by omega, by omega, written⟩
      obtain ⟨before, sameSize, sameContent⟩ :=
        history.kept finish pgno positive inside notLock last
      have earlier : ¬ history.WrittenIn (start + 1) finish pgno := by
        rintro ⟨txid, after, until_, written⟩
        exact unwritten ⟨txid, after, by omega, written⟩
      rw [sameSize] at notLock
      obtain ⟨stored, startSize, startContent⟩ :=
        ih ⟨positive, before, notLock⟩ earlier
      exact ⟨stored, sameSize.trans startSize, sameContent.trans startContent⟩

/-- Every stored page was written by some step. -/
theorem Stored.writtenIn {txid pgno : Nat} (stored : history.Stored txid pgno) :
    history.WrittenIn 1 txid pgno := by
  by_contra unwritten
  obtain ⟨⟨positive, inside, _⟩, _⟩ := stored.kept (Nat.zero_le txid) unwritten
  rw [history.empty] at inside
  omega

/-- What a faithful file says about a page of its final image. -/
theorem Faithful.page?_eq_some {first last pgno : Nat} {file : LtxFile}
    {data : Bytes} (faithful : history.Faithful first last file)
    (found : file.page? pgno = some data) :
    history.Stored last pgno ∧ history.WrittenIn first last pgno ∧
      data = history.content last pgno :=
  (faithful.pages pgno data).mp (file.page?_eq_some_iff.mp found)

theorem Faithful.page?_eq_none {first last pgno : Nat} {file : LtxFile}
    (faithful : history.Faithful first last file)
    (absent : file.page? pgno = none) (stored : history.Stored last pgno) :
    ¬ history.WrittenIn first last pgno := by
  intro written
  apply file.page?_eq_none_iff.mp absent (history.content last pgno)
  exact (faithful.pages _ _).mpr ⟨stored, written, rfl⟩

end History

/-- A file together with its address. -/
abbrev KeyedFile := FileKey × LtxFile

/-- Files that are faithful to the ranges of their addresses. -/
def History.FaithfulFiles (history : History) (files : List KeyedFile) : Prop :=
  ∀ file ∈ files, history.Faithful file.1.minTxid file.1.maxTxid file.2

/-- The files of a plan as the replica holds them. -/
def Loaded (store : Store) (files : List KeyedFile) : Prop :=
  ∀ file ∈ files, store[file.1]? = some file.2

theorem exists_loaded {store : Store} {plan : List FileKey}
    (held : ∀ key ∈ plan, key ∈ store) :
    ∃ files : List KeyedFile, files.map Prod.fst = plan ∧
      Loaded store files := by
  induction plan with
  | nil => exact ⟨[], rfl, by simp [Loaded]⟩
  | cons key rest ih =>
      obtain ⟨file, stored⟩ :=
        (OrderedMap.mem_iff_exists store key).mp (held key (by simp))
      obtain ⟨files, keys, loaded⟩ := ih fun other member =>
        held other (by simp [member])
      refine ⟨(key, file) :: files, by simp [keys], ?_⟩
      intro other member
      rcases List.mem_cons.mp member with rfl | later
      · exact stored
      · exact loaded other later

/-- The files of a plan lead from one TXID to another. -/
abbrev PlanChain (start : Nat) (files : List KeyedFile) (finish : Nat) : Prop :=
  FileChain start (files.map Prod.fst) finish

namespace History

variable {history : History}

theorem WrittenIn.mono {first last first' last' pgno : Nat}
    (written : history.WrittenIn first last pgno) (lower : first' ≤ first)
    (upper : last ≤ last') : history.WrittenIn first' last' pgno := by
  obtain ⟨txid, after, until_, written⟩ := written
  exact ⟨txid, by omega, by omega, written⟩

/-- Along a chain of faithful files, the newest copy of a page is its final
content, and a page without a copy was not written at all. -/
theorem newestPage_chain {files : List KeyedFile} {start finish pgno : Nat}
    (chain : PlanChain start files finish)
    (faithful : history.FaithfulFiles files)
    (stored : history.Stored finish pgno) :
    (∀ data, newestPage pgno (files.map Prod.snd) = some data →
      data = history.content finish pgno ∧
        data.length = history.pageSize finish) ∧
    (newestPage pgno (files.map Prod.snd) = none →
      ¬ history.WrittenIn (start + 1) finish pgno) := by
  induction files generalizing start with
  | nil =>
      have still := chain.eq_of_nil
      subst still
      refine ⟨by simp [newestPage], ?_⟩
      rintro - ⟨txid, after, until_, _⟩
      omega
  | cons file rest ih =>
      cases chain with
      | cons extends_ tail =>
          have fileFaithful := faithful file (by simp)
          obtain ⟨newest, unwritten⟩ := ih tail
            fun other member => faithful other (by simp [member])
          simp only [List.map_cons, newestPage]
          cases later : newestPage pgno (rest.map Prod.snd) with
          | some found =>
              refine ⟨?_, by simp⟩
              intro data same
              simp only [Option.some_or, Option.some.injEq] at same
              subst same
              exact newest found later
          | none =>
              simp only [Option.none_or]
              obtain ⟨before, sameSize, sameContent⟩ :=
                stored.kept tail.le (unwritten later)
              constructor
              · intro data found
                obtain ⟨_, _, same⟩ := fileFaithful.page?_eq_some found
                rw [same, sameContent, sameSize]
                exact ⟨rfl, history.content_length _ _⟩
              · intro absent written
                obtain ⟨txid, after, until_, written⟩ := written
                rcases Nat.lt_or_ge file.1.maxTxid txid with beyond | within
                · exact unwritten later ⟨txid, beyond, until_, written⟩
                · have begins := extends_.1
                  exact fileFaithful.page?_eq_none absent before
                    ⟨txid, by omega, within, written⟩

/-- Every TXID where a file of a chain ends lies between its two ends. -/
theorem chain_bounds {files : List KeyedFile} {start finish : Nat}
    (chain : PlanChain start files finish) :
    ∀ file ∈ files, start ≤ file.1.maxTxid ∧ file.1.maxTxid ≤ finish := by
  induction files generalizing start with
  | nil => simp
  | cons first rest ih =>
      cases chain with
      | cons extends_ tail =>
          intro file member
          have ends := extends_.2
          rcases List.mem_cons.mp member with rfl | later
          · exact ⟨by omega, tail.le⟩
          · have bounds := ih tail file later
            exact ⟨by omega, bounds.2⟩

/-- The header of the last file of a chain is that of the final image. -/
theorem FaithfulFiles.last {files : List KeyedFile} {start finish : Nat}
    {newest : KeyedFile} (faithful : history.FaithfulFiles files)
    (chain : PlanChain start files finish)
    (last : files.getLast? = some newest) :
    newest.1.maxTxid = finish ∧
      newest.2.header.pageSize = history.pageSize finish ∧
      newest.2.header.commit = history.size finish := by
  have member := List.mem_of_getLast? last
  have ends : newest.1.maxTxid = finish := by
    apply Cover.Chain.getLast?_eq chain
    rw [List.getLast?_map, last]
    rfl
  rw [← ends]
  exact ⟨rfl, (faithful newest member).pageSize,
    (faithful newest member).commit⟩

/-- A page held by some file of the plan was written in that file's range. -/
theorem newestPage_written {files : List KeyedFile} {pgno first last : Nat}
    {data : Bytes} (faithful : history.FaithfulFiles files)
    (lower : ∀ file ∈ files, first ≤ file.1.minTxid)
    (upper : ∀ file ∈ files, file.1.maxTxid ≤ last)
    (found : newestPage pgno (files.map Prod.snd) = some data) :
    history.WrittenIn first last pgno := by
  obtain ⟨holder, member, holds⟩ := newestPage_eq_some found
  obtain ⟨file, fileMember, rfl⟩ := List.mem_map.mp member
  obtain ⟨_, written, _⟩ := (faithful file fileMember).page?_eq_some holds
  exact written.mono (lower file fileMember) (upper file fileMember)

/-- The numbers of the pages that a faithful file holds. -/
def storedPages (history : History)
    [∀ txid pgno, Decidable (history.written txid pgno)]
    (first last : Nat) : List Nat :=
  ((List.range (history.size last)).map (· + 1)).filter fun pgno =>
    pgno != lockPgno (history.pageSize last) &&
      (List.range (last + 1)).any fun txid =>
        decide (first ≤ txid ∧ history.written txid pgno)

/-- The faithful file of a range. -/
def file (history : History)
    [∀ txid pgno, Decidable (history.written txid pgno)] (first last : Nat)
    (timestamp : Int)
    (sized : isValidPageSize (history.pageSize last) = true)
    (ordered : 1 ≤ first ∧ first ≤ last) : LtxFile where
  header := noChecksumHeader (history.pageSize last) (history.size last) first
    last timestamp 0 0 0 0
  pages := (history.storedPages first last).map fun pgno =>
    (pgno, history.content last pgno)
  valid := by
    have nonzero : ¬ (first = 0 ∨ last = 0 ∨ first > last) := by omega
    simp [Header.validate, noChecksumHeader, sized, nonzero]
  ascending := by
    apply List.Pairwise.map
    · intro left right less
      exact less
    · apply List.Pairwise.filter
      apply List.Pairwise.map
      · intro left right less
        exact Nat.succ_lt_succ less
      · exact List.pairwise_lt_range
  pagesOk := by
    intro page member
    obtain ⟨pgno, inside, rfl⟩ := List.mem_map.mp member
    obtain ⟨ranged, chosen⟩ := List.mem_filter.mp inside
    obtain ⟨index, below, rfl⟩ := List.mem_map.mp ranged
    simp only [Bool.and_eq_true, bne_iff_ne] at chosen
    exact ⟨Nat.le_add_left 1 _, List.mem_range.mp below, chosen.1,
      history.content_length _ _⟩

theorem faithful_file (history : History)
    [∀ txid pgno, Decidable (history.written txid pgno)] {first last : Nat}
    {timestamp : Int} (sized : isValidPageSize (history.pageSize last) = true)
    (ordered : 1 ≤ first ∧ first ≤ last) :
    history.Faithful first last
      (history.file first last timestamp sized ordered) where
  pageSize := rfl
  commit := rfl
  pages := by
    intro pgno data
    simp only [file, storedPages, List.mem_map, List.mem_filter, List.mem_range,
      Prod.mk.injEq, Bool.and_eq_true, bne_iff_ne, List.any_eq_true,
      decide_eq_true_eq]
    constructor
    · rintro ⟨_, ⟨⟨index, below, rfl⟩, notLock, txid, until_, after, written⟩,
        rfl, rfl⟩
      exact ⟨⟨Nat.le_add_left 1 _, below, notLock⟩,
        ⟨txid, after, Nat.le_of_lt_succ until_, written⟩, rfl⟩
    · rintro ⟨⟨positive, below, notLock⟩, ⟨txid, after, until_, written⟩, rfl⟩
      exact ⟨pgno, ⟨⟨pgno - 1, by omega, by omega⟩, notLock, txid,
        Nat.lt_succ_of_le until_, after, written⟩, rfl, rfl⟩

/-! ## Small histories -/

-- the sizes and TXID ranges that several small histories share
theorem sector_pos : 0 < 512 := by decide

theorem single_empty : min 0 1 = 0 := rfl

theorem range_one : 1 ≤ 1 ∧ 1 ≤ 1 := by decide

theorem range_two : 1 ≤ 2 ∧ 2 ≤ 2 := by decide

/-- A history in which every page repeats one byte; a step writes the pages
that it adds or changes. -/
def filled (pages : Nat) (positive : 0 < pages) (size : Nat → Nat)
    (empty : size 0 = 0) (value : Nat → Nat → UInt8) : History where
  pageSize _ := pages
  size := size
  content txid pgno :=
    if pgno = lockPgno pages then zeroPage pages
    else List.replicate pages (value txid pgno)
  written txid pgno :=
    size (txid - 1) < pgno ∨ value txid pgno ≠ value (txid - 1) pgno
  pageSize_pos _ := positive
  content_length := by
    intro txid pgno
    split <;> simp
  lock_zero := by
    intro txid
    simp
  empty := empty
  kept := by
    intro txid pgno _ _ notLock unwritten
    simp only [Nat.add_sub_cancel, not_or, Nat.not_lt, not_not] at unwritten
    exact ⟨unwritten.1, rfl, by simp [unwritten.2]⟩
  honest _ _ _ := rfl

instance (pages : Nat) (positive : 0 < pages) (size : Nat → Nat)
    (empty : size 0 = 0) (value : Nat → Nat → UInt8) (txid pgno : Nat) :
    Decidable ((filled pages positive size empty value).written txid pgno) :=
  inferInstanceAs (Decidable (_ ∨ _))

end History

end Literstream
