import Literstream.Ltx.Wire.Newest
import Literstream.Ltx.Wire.Refines

/-!
# Files as objects

The bytes of an object determine the file that they encode.  What is merged from
bytes is the encoding of what is merged from files.
-/

namespace Literstream

namespace Wire

/-- The bytes that the encoder writes for a file. -/
def Encodes (lz4 : Lz4) (file : LtxFile) (bytes : Bytes) : Prop :=
  ∃ header pages trailer index,
    Finished lz4 header pages bytes trailer index ∧
      file.header = header.plain ∧ file.pages = pages.map plainPage

/-- What the file holds, next to the words of its header and pages. -/
structure Reads (lz4 : Lz4) (file : LtxFile) (bytes : Bytes) (header : Header)
    (pages : List WirePage) : Prop where
  decoded : Header.decode bytes = .ok header
  indexed : Indexed lz4 header.pageSize.toNat bytes pages
  headerIs : file.header = header.plain
  pagesAre : file.pages = pages.map plainPage

section Encodes

variable {lz4 : Lz4} {file : LtxFile} {bytes : Bytes}

theorem encodes_of_encodeFile {header : Header} {calls : List Call}
    {trailer : Trailer}
    (encoded : encodeFile lz4 header calls = .ok (bytes, trailer))
    (built : Literstream.encodeFile header.plain
      ((pagesOf calls).map plainPage) = .ok file) :
    Encodes lz4 file bytes := by
  obtain ⟨index, finished⟩ := encodeFile_finished encoded
  obtain ⟨headerIs, pagesAre⟩ := encodeFile_eq_ok built
  exact ⟨header, _, trailer, index, finished, headerIs, pagesAre⟩

theorem Finished.decode_eq {header : Header} {pages : List WirePage}
    {trailer : Trailer} {index : List PageIndexElem}
    (finished : Finished lz4 header pages bytes trailer index) :
    Header.decode bytes = .ok header := by
  obtain ⟨rest, start⟩ := finished.starts
  rw [start]
  exact Header.decode_encode rest finished.sized

theorem Encodes.reads (givesBack : lz4.GivesBack)
    (encodes : Encodes lz4 file bytes) :
    ∃ header pages, Reads lz4 file bytes header pages := by
  obtain ⟨header, pages, trailer, index, finished, headerIs, pagesAre⟩ :=
    encodes
  exact ⟨header, pages, finished.decode_eq, finished.indexed givesBack,
    headerIs, pagesAre⟩

/-- Reading the whole object gives the pages of the file. -/
theorem Encodes.readFile (givesBack : lz4.GivesBack)
    (encodes : Encodes lz4 file bytes) :
    ∃ decoded, Wire.readFile lz4 bytes = .ok decoded ∧
      file.header = decoded.header.plain ∧
      file.pages = decoded.pages.map plainPage := by
  obtain ⟨header, pages, trailer, index, finished, headerIs, pagesAre⟩ :=
    encodes
  exact ⟨_, finished.readFile_eq givesBack, headerIs, pagesAre⟩

end Encodes

/-! ## Merges -/

section Merge

variable {lz4 : Lz4} {files : List LtxFile} {inputs : List Bytes}

theorem mem_map_plainPage {pages : List WirePage} {pgno : UInt32}
    {data : Bytes} :
    (pgno.toNat, data) ∈ pages.map plainPage ↔ (pgno, data) ∈ pages := by
  constructor
  · intro member
    obtain ⟨⟨other, held⟩, inside, same⟩ := List.mem_map.mp member
    simp only [plainPage, Prod.mk.injEq] at same
    rw [← UInt32.toNat_inj.mp same.1, ← same.2]
    exact inside
  · exact fun member => List.mem_map.mpr ⟨_, member, rfl⟩

theorem newestPage_eq_none_iff {pgno : Nat} :
    newestPage pgno files = none ↔
      ∀ file ∈ files, ∀ data, (pgno, data) ∉ file.pages := by
  constructor
  · intro absent file member data held
    have present := newestPage_isSome member
      (file.page?_eq_some_iff.mpr held)
    rw [absent] at present
    cases present
  · intro absent
    cases found : newestPage pgno files with
    | none => rfl
    | some data =>
        obtain ⟨file, member, held⟩ := newestPage_eq_some found
        exact absurd (file.page?_eq_some_iff.mp held) (absent file member data)

theorem heldLast_cons {pages : List WirePage} {rest : List (List WirePage)}
    {pgno : UInt32} {data : Bytes} :
    HeldLast (pages :: rest) pgno data ↔
      HeldLast rest pgno data ∨ (pgno, data) ∈ pages ∧
        ∀ others ∈ rest, ∀ other, (pgno, other) ∉ others := by
  constructor
  · rintro ⟨number, holder, there, member, last⟩
    cases number with
    | zero =>
        cases there
        refine .inr ⟨member, ?_⟩
        intro others inside
        obtain ⟨later, found⟩ := List.mem_iff_getElem?.mp inside
        exact last (later + 1) others (Nat.succ_pos _) found
    | succ number =>
        refine .inl ⟨number, holder, there, member, ?_⟩
        intro later others above found
        exact last (later + 1) others (by omega) found
  · rintro (⟨number, holder, there, member, last⟩ | ⟨member, absent⟩)
    · refine ⟨number + 1, holder, there, member, ?_⟩
      intro later others above found
      obtain ⟨before, rfl⟩ : ∃ before, later = before + 1 :=
        ⟨later - 1, by omega⟩
      exact last before others (by omega) found
    · refine ⟨0, pages, rfl, member, ?_⟩
      intro later others above found
      obtain ⟨before, rfl⟩ : ∃ before, later = before + 1 :=
        ⟨later - 1, by omega⟩
      exact absent others (List.mem_of_getElem? found)

/-- The newest page is the same in the words and in plain numbers. -/
theorem heldLast_iff_newestPage {held : List (List WirePage)}
    (same : List.Forall₂ (fun (file : LtxFile) pages =>
      file.pages = pages.map plainPage) files held)
    (pgno : UInt32) (data : Bytes) :
    HeldLast held pgno data ↔ newestPage pgno.toNat files = some data := by
  induction same with
  | nil =>
      constructor
      · rintro ⟨number, pages, there, _⟩
        cases there
      · intro found
        cases found
  | @cons file pages files held first rest ih =>
      have absent : (∀ others ∈ held, ∀ other, (pgno, other) ∉ others) ↔
          newestPage pgno.toNat files = none := by
        rw [newestPage_eq_none_iff]
        constructor
        · intro absent file member data inside
          obtain ⟨others, there, pagesAre⟩ := exists_of_mem_left rest member
          rw [pagesAre] at inside
          exact absent others there data (mem_map_plainPage.mp inside)
        · intro absent others there other inside
          obtain ⟨file, member, pagesAre⟩ := exists_of_mem_right rest there
          apply absent file member other
          rw [pagesAre]
          exact mem_map_plainPage.mpr inside
      have own : (pgno, data) ∈ pages ↔
          file.page? pgno.toNat = some data := by
        rw [file.page?_eq_some_iff, first]
        exact mem_map_plainPage.symm
      rw [heldLast_cons, absent, own, ih, newestPage]
      cases found : newestPage pgno.toNat files <;> simp

theorem ascending_map_plainPage {pages : List WirePage}
    (rising : pages.Pairwise fun left right => left.1 < right.1) :
    Ascending (pages.map plainPage) := by
  rw [Ascending, List.pairwise_map]
  exact rising.imp UInt32.lt_iff_toNat_lt.mp

theorem exists_reads (givesBack : lz4.GivesBack) {pageSize : Nat}
    (encoded : List.Forall₂ (Encodes lz4) files inputs)
    (sized : ∀ file ∈ files, file.header.pageSize = pageSize) :
    ∃ held : List (List WirePage),
      List.Forall₂ (Indexed lz4 pageSize) inputs held ∧
      List.Forall₂ (fun (file : LtxFile) pages =>
        file.pages = pages.map plainPage) files held := by
  induction encoded with
  | nil => exact ⟨[], .nil, .nil⟩
  | @cons file bytes files inputs first _ ih =>
      obtain ⟨held, indexed, same⟩ := ih fun other member =>
        sized other (List.mem_cons_of_mem _ member)
      obtain ⟨header, pages, reads⟩ := first.reads givesBack
      have ownSize := sized file List.mem_cons_self
      rw [reads.headerIs] at ownSize
      have own := reads.indexed
      rw [show header.pageSize.toNat = pageSize from ownSize] at own
      exact ⟨pages :: held, .cons own indexed, .cons reads.pagesAre same⟩

/-- The merge of the bytes is the bytes of the merge. -/
theorem merge_encodes (givesBack : lz4.GivesBack) {header : Header}
    {output : Bytes} (encoded : List.Forall₂ (Encodes lz4) files inputs)
    (merged : mergeToWriter lz4 inputs header = .ok output)
    (sized : ∀ file ∈ files,
      file.header.pageSize = header.pageSize.toNat) :
    ∃ file, Literstream.mergeToWriter files header.plain = .ok file ∧
      Encodes lz4 file output := by
  obtain ⟨held, indexed, same⟩ := exists_reads givesBack encoded sized
  obtain ⟨indexes, read, paired⟩ := paired_of_files indexed
  obtain ⟨pages, decoded, rising, members⟩ := @Paired.pages lz4 inputs indexes
    held header paired
  obtain ⟨others, again, trailer, opened, won, written⟩ :=
    mergeToWriter_eq_ok merged
  rw [read] at opened
  cases opened
  rw [decoded] at won
  cases won
  obtain ⟨file, built⟩ := encodeFile_refines written
  refine ⟨file, ?_, encodes_of_encodeFile written built⟩
  rw [pagesOf_map_ofPage] at built
  rw [← built]
  apply mergeToWriter_eq_encodeFile sized (ascending_map_plainPage rising)
  intro pgno data
  constructor
  · intro member
    obtain ⟨⟨number, contents⟩, inside, plain⟩ := List.mem_map.mp member
    cases plain
    obtain ⟨below, newest⟩ := (members number contents).mp inside
    exact ⟨UInt32.le_iff_toNat_le.mp below,
      (heldLast_iff_newestPage same number contents).mp newest⟩
  · rintro ⟨below, newest⟩
    have number : (UInt32.ofNat pgno).toNat = pgno := toNat_ofNat_of_le below
    rw [← number] at below newest ⊢
    exact mem_map_plainPage.mpr ((members _ data).mpr
      ⟨UInt32.le_iff_toNat_le.mpr below,
        (heldLast_iff_newestPage same _ data).mpr newest⟩)

end Merge

/-! ## Compaction -/

/-- The header of every input. -/
def decodeHeaders : List Bytes → Except WireError (List Header)
  | [] => .ok []
  | bytes :: rest => do
      let header ← Header.decode bytes
      let headers ← decodeHeaders rest
      return header :: headers

/-- The check between neighbouring inputs of a compaction.  The end of a range
must have a successor. -/
def checkContiguous (pageSize : UInt32) :
    List Header → Except WireError Unit
  | prev :: cur :: rest =>
      if cur.pageSize ≠ pageSize then
        .error (.ltx (.invalidPageSize cur.pageSize.toNat))
      else if prev.maxTxid + 1 = 0 then .error .panic
      else if cur.minTxid > prev.maxTxid + 1 ∨ cur.maxTxid ≤ prev.maxTxid then
        .error (.ltx (.unexpectedPage prev.maxTxid.toUInt32.toNat
          cur.minTxid.toUInt32.toNat))
      else checkContiguous pageSize (cur :: rest)
  | _ => .ok ()

/-- The header of a merge: no checksum tracking, no WAL position. -/
def mergedHeader (pageSize commit : UInt32) (minTxid maxTxid : UInt64)
    (timestamp : Int64) : Header where
  flags := UInt32.ofNat headerFlagNoChecksum
  pageSize := pageSize
  commit := commit
  minTxid := minTxid
  maxTxid := maxTxid
  timestamp := timestamp
  preApplyChecksum := 0
  walOffset := 0
  walSize := 0
  walSalt1 := 0
  walSalt2 := 0
  nodeId := 0

/-- Compact a contiguous run of objects. -/
def compactToWriter (lz4 : Lz4) (inputs : List Bytes) :
    Except WireError Bytes :=
  if inputs = [] then .error (.ltx (.shortBuffer 1 0))
  else do
    let headers ← decodeHeaders inputs
    match headers.head?, headers.getLast? with
    | some first, some last => do
        checkContiguous first.pageSize headers
        mergeToWriter lz4 inputs
          (mergedHeader first.pageSize last.commit first.minTxid last.maxTxid
            last.timestamp)
    | _, _ => .error .panic

section Compact

variable {lz4 : Lz4} {files : List LtxFile} {inputs : List Bytes}

theorem mergedHeader_plain (pageSize commit : UInt32)
    (minTxid maxTxid : UInt64) (timestamp : Int64) :
    (mergedHeader pageSize commit minTxid maxTxid timestamp).plain =
      noChecksumHeader pageSize.toNat commit.toNat minTxid.toNat maxTxid.toNat
        timestamp.toInt 0 0 0 0 :=
  rfl

theorem decodeHeaders_eq (givesBack : lz4.GivesBack)
    (encoded : List.Forall₂ (Encodes lz4) files inputs) :
    ∃ headers, decodeHeaders inputs = .ok headers ∧
      files.map LtxFile.header = headers.map Header.plain := by
  induction encoded with
  | nil => exact ⟨[], rfl, rfl⟩
  | @cons file bytes files inputs first _ ih =>
      obtain ⟨headers, decoded, same⟩ := ih
      obtain ⟨header, pages, reads⟩ := first.reads givesBack
      refine ⟨header :: headers, ?_, ?_⟩
      · rw [decodeHeaders, reads.decoded, decoded]
        rfl
      · rw [List.map_cons, List.map_cons, reads.headerIs, same]

/-- Words that pass the check are contiguous as numbers, with one page size. -/
theorem checkContiguous_plain {pageSize : UInt32} {headers : List Header}
    (checked : checkContiguous pageSize headers = .ok ()) :
    Literstream.checkContiguous pageSize.toNat (headers.map Header.plain) =
        .ok () ∧
      ∀ header ∈ headers.tail, header.pageSize = pageSize := by
  induction headers with
  | nil => exact ⟨rfl, fun _ member => by cases member⟩
  | cons prev rest ih =>
      cases rest with
      | nil => exact ⟨rfl, fun _ member => by cases member⟩
      | cons cur rest =>
          rw [checkContiguous] at checked
          split at checked
          · cases checked
          · rename_i sized
            split at checked
            · cases checked
            · rename_i room
              split at checked
              · cases checked
              · rename_i contiguous
                obtain ⟨later, sizes⟩ := ih checked
                have same : cur.pageSize = pageSize := not_not.mp sized
                have successor : (prev.maxTxid + 1).toNat =
                    prev.maxTxid.toNat + 1 := by
                  have bound := prev.maxTxid.toNat_lt
                  have nonzero : (prev.maxTxid + 1).toNat ≠ 0 := by
                    intro zero
                    exact room (UInt64.toNat_inj.mp zero)
                  rw [UInt64.toNat_add] at nonzero ⊢
                  have one : (1 : UInt64).toNat = 1 := rfl
                  omega
                obtain ⟨meets, grows⟩ := not_or.mp contiguous
                rw [gt_iff_lt, UInt64.lt_iff_toNat_lt, successor] at meets
                rw [UInt64.le_iff_toNat_le] at grows
                have plainSize : ¬cur.plain.pageSize ≠ pageSize.toNat :=
                  not_not.mpr (congrArg UInt32.toNat same)
                have plainRange :
                    ¬(cur.plain.minTxid > prev.plain.maxTxid + 1 ∨
                      cur.plain.maxTxid ≤ prev.plain.maxTxid) :=
                  not_or.mpr ⟨meets, grows⟩
                refine ⟨?_, ?_⟩
                · rw [List.map_cons, List.map_cons,
                    Literstream.checkContiguous, if_neg plainSize,
                    if_neg plainRange]
                  exact later
                · intro header member
                  rcases List.mem_cons.mp member with first | behind
                  · rw [first]
                    exact same
                  · exact sizes header behind

/-- The compaction of the bytes is the bytes of the compaction. -/
theorem compact_encodes (givesBack : lz4.GivesBack) {output : Bytes}
    (encoded : List.Forall₂ (Encodes lz4) files inputs)
    (compacted : compactToWriter lz4 inputs = .ok output) :
    ∃ file, Literstream.compactToWriter files = .ok file ∧
      Encodes lz4 file output ∧
      ∃ first ∈ files, file.header.pageSize = first.header.pageSize := by
  obtain ⟨headers, decoded, same⟩ := decodeHeaders_eq givesBack encoded
  rw [compactToWriter] at compacted
  split at compacted
  · cases compacted
  · obtain ⟨others, again, compacted⟩ := bind_eq_ok.mp compacted
    rw [decoded] at again
    cases again
    split at compacted
    · rename_i first last isFirst isLast
      obtain ⟨⟨⟩, checked, merged⟩ := bind_eq_ok.mp compacted
      obtain ⟨contiguous, sizes⟩ := checkContiguous_plain checked
      have fileFirst : files.head?.map LtxFile.header = some first.plain := by
        rw [← List.head?_map, same, List.head?_map, isFirst]
        rfl
      have fileLast : files.getLast?.map LtxFile.header = some last.plain := by
        rw [← List.getLast?_map, same, List.getLast?_map, isLast]
        rfl
      obtain ⟨firstFile, firstIs, firstHeader⟩ :=
        Option.map_eq_some_iff.mp fileFirst
      obtain ⟨lastFile, lastIs, lastHeader⟩ :=
        Option.map_eq_some_iff.mp fileLast
      have sized : ∀ file ∈ files,
          file.header.pageSize = first.pageSize.toNat := by
        intro file member
        have inside : file.header ∈ headers.map Header.plain := by
          rw [← same]
          exact List.mem_map_of_mem member
        obtain ⟨header, there, plain⟩ := List.mem_map.mp inside
        rw [← plain]
        obtain ⟨rest, rfl⟩ := List.head?_eq_some_iff.mp isFirst
        rcases List.mem_cons.mp there with own | behind
        · rw [own]
          rfl
        · exact congrArg UInt32.toNat (sizes header behind)
      obtain ⟨file, built, encodes⟩ :=
        merge_encodes givesBack encoded merged sized
      have headed := (Literstream.mergeToWriter_eq_ok built).1
      refine ⟨file, ?_, encodes, firstFile, List.mem_of_head? firstIs, ?_⟩
      · rw [mergedHeader_plain] at built
        rw [Literstream.compactToWriter, firstIs, lastIs]
        simp only [firstHeader, lastHeader, same]
        exact bind_eq_ok.mpr ⟨(), contiguous, built⟩
      · rw [headed, firstHeader]
        rfl
    · cases compacted

end Compact

end Wire

end Literstream
