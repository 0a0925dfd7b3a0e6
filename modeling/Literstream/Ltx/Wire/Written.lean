import Literstream.Ltx.Wire.Encoder

/-!
# What an encoder has written

Each call appends to the vector; what was hashed is kept apart from what was
written.  An index entry stays good while the vector grows behind its frame.
-/

namespace Literstream

namespace Wire

theorem toNat_add_length {n : UInt64} {length : Nat}
    (small : n.toNat + length < 2 ^ 63) :
    (n + UInt64.ofNat length).toNat = n.toNat + length := by
  rw [UInt64.toNat_add, UInt64.toNat_ofNat']
  omega

namespace Encoder

/-- The encoder after it wrote and hashed a string. -/
def hashed (encoder : Encoder) (b : Bytes) : Encoder :=
  { encoder with
    w := encoder.w ++ b
    hash := encoder.hash.update b
    n := encoder.n + UInt64.ofNat b.length }

theorem hashed_hashed (encoder : Encoder) (front back : Bytes) :
    (encoder.hashed front).hashed back = encoder.hashed (front ++ back) := by
  simp [hashed, Hasher.update_append, UInt64.add_assoc, UInt64.ofNat_add]

theorem writeAll_eq_ok {encoder next : Encoder} {b : Bytes}
    (written : encoder.writeAll b = .ok next) :
    encoder.w.length + b.length < 2 ^ 63 ∧
      next = { encoder with w := encoder.w ++ b } := by
  unfold writeAll at written
  split at written
  case isTrue small =>
      cases written
      exact ⟨small, rfl⟩
  case isFalse =>
      cases written

theorem writeHashed_eq_ok {encoder next : Encoder} {b : Bytes}
    (written : encoder.writeHashed b = .ok next) :
    encoder.w.length + b.length < 2 ^ 63 ∧ next = encoder.hashed b := by
  rw [writeHashed, bind_eq_ok] at written
  obtain ⟨middle, appended, finished⟩ := written
  obtain ⟨small, rfl⟩ := writeAll_eq_ok appended
  cases finished
  exact ⟨small, rfl⟩

/-- The entries of the page index as they stand in the file. -/
def entryBytes (index : List PageIndexElem) : Bytes :=
  index.flatMap PageIndexElem.encode

theorem writeEntries_eq_ok {index : List PageIndexElem} {encoder next : Encoder}
    (small : encoder.w.length < 2 ^ 63)
    (written : encoder.writeEntries index = .ok next) :
    next.w.length < 2 ^ 63 ∧ next = encoder.hashed (entryBytes index) := by
  induction index generalizing encoder with
  | nil =>
      cases written
      refine ⟨small, ?_⟩
      simp [hashed, entryBytes, Hasher.update, Crc.tableRun]
  | cons elem rest ih =>
      rw [writeEntries, bind_eq_ok] at written
      obtain ⟨middle, first, later⟩ := written
      obtain ⟨room, rfl⟩ := writeHashed_eq_ok first
      have grown : (encoder.hashed elem.encode).w.length < 2 ^ 63 := by
        simpa [hashed] using room
      obtain ⟨done, rfl⟩ := ih grown later
      refine ⟨done, ?_⟩
      rw [hashed_hashed, entryBytes, entryBytes, List.flatMap_cons]

end Encoder

/-- The page index with its end marker. -/
def pageIndexBytes (index : List PageIndexElem) : Bytes :=
  Encoder.entryBytes index ++ Varint.encode 0

/-- What is written and hashed between the pages and the trailer. -/
def tailBytes (index : List PageIndexElem) : Bytes :=
  List.replicate pageHeaderSize 0 ++ (pageIndexBytes index ++
    u64ToBe (UInt64.ofNat (pageIndexBytes index).length))

namespace Encoder

theorem encodePageIndex_eq_ok {encoder next : Encoder}
    (small : encoder.w.length < 2 ^ 63)
    (ascending : encoder.index.Pairwise fun left right =>
      left.pgno ≤ right.pgno)
    (written : encoder.encodePageIndex = .ok next) :
    next.w.length < 2 ^ 63 ∧
      next = encoder.takeIndex.hashed
        (pageIndexBytes encoder.index ++
          u64ToBe (UInt64.ofNat (pageIndexBytes encoder.index).length)) := by
  rw [encodePageIndex, ascending.insertionSort_eq, bind_eq_ok] at written
  obtain ⟨listed, entries, written⟩ := written
  rw [bind_eq_ok] at written
  obtain ⟨marked, marker, length⟩ := written
  obtain ⟨-, rfl⟩ := @writeEntries_eq_ok _ encoder.takeIndex _ small entries
  obtain ⟨-, rfl⟩ := writeHashed_eq_ok marker
  rw [hashed_hashed, ← pageIndexBytes] at length
  have counted :
      (encoder.takeIndex.hashed (pageIndexBytes encoder.index)).n - encoder.n =
        UInt64.ofNat (pageIndexBytes encoder.index).length := by
    change encoder.n + UInt64.ofNat _ - encoder.n = _
    rw [UInt64.add_comm, UInt64.add_sub_cancel]
  rw [counted] at length
  obtain ⟨room, rfl⟩ := writeHashed_eq_ok length
  rw [hashed_hashed]
  refine ⟨?_, rfl⟩
  simpa [hashed, Nat.add_assoc] using room

/-- The bytes and the trailer of a finished file. -/
theorem finish_eq_ok {encoder closed : Encoder} {trailer : Trailer}
    (ascending : encoder.index.Pairwise fun left right =>
      left.pgno ≤ right.pgno)
    (finished : encoder.finish = .ok (trailer, closed)) :
    closed.w = encoder.w ++ (tailBytes encoder.index ++ trailer.encode) ∧
      closed.w.length < 2 ^ 63 ∧
      trailer.postApplyChecksum = encoder.postApply ∧
      trailer.fileChecksum =
        (encoder.hash.update
          (tailBytes encoder.index ++ u64ToBe encoder.postApply)).checksum := by
  unfold finish at finished
  split at finished
  case isTrue => cases finished
  case isFalse =>
      rw [bind_eq_ok] at finished
      obtain ⟨ended, terminator, finished⟩ := finished
      rw [bind_eq_ok] at finished
      obtain ⟨indexed, listed, finished⟩ := finished
      obtain ⟨room, rfl⟩ := writeHashed_eq_ok terminator
      have small :
          (encoder.hashed (List.replicate pageHeaderSize 0)).w.length <
            2 ^ 63 := by
        simpa [hashed] using room
      obtain ⟨-, indexedIs⟩ := encodePageIndex_eq_ok small ascending listed
      have tail :
          indexed = encoder.takeIndex.hashed (tailBytes encoder.index) :=
        indexedIs.trans (hashed_hashed encoder.takeIndex _ _)
      subst tail
      dsimp only at finished
      rw [bind_eq_ok] at finished
      obtain ⟨written, last, returned⟩ := finished
      obtain ⟨whole, rfl⟩ := writeAll_eq_ok last
      cases returned
      refine ⟨?_, ?_, rfl, ?_⟩
      · exact List.append_assoc _ _ _
      · rw [List.length_append]
        exact whole
      · exact congrArg Hasher.checksum (Hasher.update_append _ _ _)

end Encoder

/-! ## Pages -/

/-- What the checksum sees of a page. -/
def hashedPage (page : WirePage) : Bytes :=
  PageHeader.encode ⟨page.1, 0⟩ ++ page.2

/-- An entry finds the frame of its page in the bytes. -/
structure Locates (lz4 : Lz4) (pageSize : Nat) (bytes : Bytes)
    (elem : PageIndexElem) (page : WirePage) : Prop where
  pgno : elem.pgno = page.1
  positive : page.1 ≠ 0
  length : page.2.length = pageSize
  inside : elem.offset.toNat + elem.size.toNat ≤ bytes.length
  framed : ∃ frame, lz4.compress page.2 = some frame ∧
    (bytes.drop elem.offset.toNat).take elem.size.toNat =
      PageHeader.encode ⟨page.1, 0⟩ ++ frame

theorem Locates.append {lz4 : Lz4} {pageSize : Nat} {bytes : Bytes}
    {elem : PageIndexElem} {page : WirePage}
    (located : Locates lz4 pageSize bytes elem page) (more : Bytes) :
    Locates lz4 pageSize (bytes ++ more) elem page where
  pgno := located.pgno
  positive := located.positive
  length := located.length
  inside := by
    rw [List.length_append]
    exact Nat.le_add_right_of_le located.inside
  framed := by
    obtain ⟨frame, compressed, found⟩ := located.framed
    have inside := located.inside
    refine ⟨frame, compressed, ?_⟩
    rw [List.drop_append_of_le_length (by omega),
      List.take_append_of_le_length (by rw [List.length_drop]; omega), found]

/-- The encoder between its header and `finish`, with the pages so far. -/
structure Encoder.Wrote (lz4 : Lz4) (encoder : Encoder) (header : Header)
    (pages : List WirePage) : Prop where
  headerIs : encoder.header = some header
  sized : isValidPageSize header.pageSize.toNat = true
  starts : ∃ rest, encoder.w = header.encode ++ rest
  counted : encoder.n.toNat = encoder.w.length
  small : encoder.w.length < 2 ^ 63
  hashes : encoder.hash =
    Hasher.new.update (header.encode ++ pages.flatMap hashedPage)
  entries : List.Forall₂ (Locates lz4 header.pageSize.toNat encoder.w)
    encoder.index pages
  ascending : pages.Pairwise fun left right => left.1 < right.1
  below : ∀ page ∈ pages, page.1 ≤ encoder.prevPgno

namespace Encoder

theorem encodeHeader_eq_ok {header : Header} {encoder : Encoder}
    (encoded : new.encodeHeader header = .ok encoder) :
    header.validate = .ok () ∧
      encoder =
        { new.hashed header.encode with
          header := some header
          state := .page } := by
  rw [encodeHeader, if_neg (by decide), bind_eq_ok] at encoded
  obtain ⟨_, valid, encoded⟩ := encoded
  rw [bind_eq_ok] at encoded
  obtain ⟨written, room, encoded⟩ := encoded
  obtain ⟨_, rfl⟩ := writeHashed_eq_ok room
  cases encoded
  exact ⟨valid, rfl⟩

theorem encodeHeader_wrote {lz4 : Lz4} {header : Header} {encoder : Encoder}
    (encoded : new.encodeHeader header = .ok encoder) :
    encoder.Wrote lz4 header [] := by
  obtain ⟨valid, rfl⟩ := encodeHeader_eq_ok encoded
  exact
    { headerIs := rfl
      sized := Header.sized_of_validate valid
      starts := ⟨[], (List.append_nil _).symm⟩
      counted := by simp [hashed, new, headerSize]
      small := by simp [hashed, new, headerSize]
      hashes := by simp [hashed, new]
      entries := .nil
      ascending := .nil
      below := by simp }

theorem checkPage_eq_ok {encoder : Encoder} {header : Header} {pgno : UInt32}
    {data : Bytes} (checked : encoder.checkPage header pgno data = .ok ()) :
    data.length = header.pageSize.toNat ∧ pgno ≠ 0 ∧
      pgno ≤ header.commit ∧ pgno ≠ header.lockPgno ∧
      encoder.inOrder header pgno = true := by
  unfold checkPage at checked
  split at checked
  · cases checked
  · rename_i length
    split at checked
    · cases checked
    · rename_i positive
      split at checked
      · cases checked
      · rename_i inside
        split at checked
        · cases checked
        · rename_i notLock
          split at checked
          · rename_i ordered
            exact ⟨not_not.mp length, positive, UInt32.not_lt.mp inside,
              notLock, ordered⟩
          · cases checked

theorem toNat_lockPgno (header : Header) :
    header.lockPgno.toNat = Literstream.lockPgno header.pageSize.toNat := by
  have bound := Nat.div_le_self pendingByte header.pageSize.toNat
  have fits : Literstream.lockPgno header.pageSize.toNat < 2 ^ 32 :=
    Nat.lt_of_le_of_lt (Nat.succ_le_succ bound) (by decide)
  rw [Header.lockPgno, UInt32.toNat_ofNat', Nat.mod_eq_of_lt fits]

/-- The ordering check in numbers: nothing that it lets through wraps around. -/
theorem inOrder_toNat {encoder : Encoder} {header : Header} {pgno : UInt32}
    (positive : pgno ≠ 0)
    (ordered : encoder.inOrder header pgno = true) :
    (header.isSnapshot = true ∧
      (encoder.prevPgno.toNat = 0 ∧ pgno.toNat = 1 ∨
        encoder.prevPgno.toNat ≠ 0 ∧
          encoder.prevPgno.toNat = header.lockPgno.toNat - 1 ∧
          pgno.toNat = encoder.prevPgno.toNat + 2 ∨
        encoder.prevPgno.toNat ≠ 0 ∧
          encoder.prevPgno.toNat ≠ header.lockPgno.toNat - 1 ∧
          pgno.toNat = encoder.prevPgno.toNat + 1)) ∨
      header.isSnapshot = false ∧
        encoder.prevPgno.toNat < pgno.toNat := by
  have nonzero : pgno.toNat ≠ 0 := by
    intro zero
    exact positive (UInt32.toNat_inj.mp zero)
  have lockBound : header.lockPgno.toNat ≤ 0x40000001 := by
    have bound := Nat.div_le_self pendingByte header.pageSize.toNat
    rw [toNat_lockPgno]
    exact Nat.succ_le_succ bound
  have oneBelow : (1 : UInt32) ≤ header.lockPgno := by
    rw [UInt32.le_iff_toNat_le, toNat_lockPgno]
    exact lockPgno_pos _
  have lockPred :
      (header.lockPgno - 1).toNat = header.lockPgno.toNat - 1 :=
    UInt32.toNat_sub_of_le _ _ oneBelow
  have room := encoder.prevPgno.toNat_lt
  unfold inOrder at ordered
  dsimp only at ordered
  split at ordered
  case isTrue snapshot =>
      refine .inl ⟨snapshot, ?_⟩
      split at ordered
      case isTrue first =>
          rw [beq_iff_eq] at ordered
          have number := congrArg UInt32.toNat ordered
          exact .inl ⟨congrArg UInt32.toNat first, number⟩
      case isFalse later =>
          have laterNumber : encoder.prevPgno.toNat ≠ 0 := by
            intro zero
            exact later (UInt32.toNat_inj.mp zero)
          split at ordered
          case isTrue beforeLock =>
              rw [beq_iff_eq] at ordered
              have number := congrArg UInt32.toNat beforeLock
              rw [lockPred] at number
              have next := congrArg UInt32.toNat ordered
              rw [UInt32.toNat_add] at next
              simp only [UInt32.reduceToNat] at next
              exact .inr (.inl ⟨laterNumber, number, by omega⟩)
          case isFalse elsewhere =>
              rw [beq_iff_eq] at ordered
              have number :
                  encoder.prevPgno.toNat ≠ header.lockPgno.toNat - 1 := by
                intro same
                rw [← lockPred] at same
                exact elsewhere (UInt32.toNat_inj.mp same)
              have next := congrArg UInt32.toNat ordered
              rw [UInt32.toNat_add] at next
              simp only [UInt32.reduceToNat] at next
              exact .inr (.inr ⟨laterNumber, number, by omega⟩)
  case isFalse later =>
      refine .inr ⟨by simpa using later, ?_⟩
      exact UInt32.lt_iff_toNat_lt.mp (by simpa using ordered)

theorem inOrder_lt {encoder : Encoder} {header : Header} {pgno : UInt32}
    (positive : pgno ≠ 0)
    (ordered : encoder.inOrder header pgno = true) :
    encoder.prevPgno < pgno := by
  rw [UInt32.lt_iff_toNat_lt]
  rcases inOrder_toNat positive ordered with ⟨-, snapshot⟩ | ⟨-, later⟩
  · omega
  · exact later

/-- One page: its header and its frame are appended, its data is hashed. -/
theorem encodePage_eq_ok {lz4 : Lz4} {encoder next : Encoder} {header : Header}
    {pgno : UInt32} {data : Bytes}
    (headerIs : encoder.header = some header)
    (encoded : encoder.encodePage lz4 pgno data = .ok next) :
    ∃ frame,
      encoder.checkPage header pgno data = .ok () ∧
        lz4.compress data = some frame ∧
        encoder.w.length + pageHeaderSize + frame.length < 2 ^ 63 ∧
        next =
          { encoder with
            w := encoder.w ++ (PageHeader.encode ⟨pgno, 0⟩ ++ frame)
            n := encoder.n + UInt64.ofNat (pageHeaderSize + frame.length)
            hash := encoder.hash.update (hashedPage (pgno, data))
            index := encoder.index ++
              [⟨pgno, encoder.n,
                UInt64.ofNat (pageHeaderSize + frame.length)⟩]
            prevPgno := pgno } := by
  rw [encodePage, headerIs] at encoded
  dsimp only at encoded
  split at encoded
  case isTrue => cases encoded
  case isFalse =>
      rw [bind_eq_ok] at encoded
      obtain ⟨_, checked, encoded⟩ := encoded
      rw [bind_eq_ok] at encoded
      obtain ⟨frame, compressed, encoded⟩ := encoded
      rw [bind_eq_ok] at encoded
      obtain ⟨headed, first, encoded⟩ := encoded
      obtain ⟨-, rfl⟩ := writeHashed_eq_ok first
      rw [bind_eq_ok] at encoded
      obtain ⟨framed, second, returned⟩ := encoded
      obtain ⟨room, rfl⟩ := writeAll_eq_ok second
      have found : lz4.compress data = some frame := by
        unfold compressPage at compressed
        split at compressed
        · cases compressed
        · rename_i same
          cases compressed
          exact same
      refine ⟨frame, checked, found, ?_, ?_⟩
      · simpa [hashed] using room
      · cases returned
        have counted :
            encoder.n + UInt64.ofNat pageHeaderSize +
                UInt64.ofNat frame.length =
              encoder.n + UInt64.ofNat (pageHeaderSize + frame.length) := by
          rw [UInt64.ofNat_add, UInt64.add_assoc]
        have size :
            encoder.n + UInt64.ofNat (pageHeaderSize + frame.length) -
                encoder.n =
              UInt64.ofNat (pageHeaderSize + frame.length) := by
          rw [UInt64.add_comm, UInt64.add_sub_cancel]
        simp only [hashed, PageHeader.length_encode, counted, size,
          List.append_assoc, Hasher.update_append, hashedPage]

theorem encodePage_wrote {lz4 : Lz4} {encoder next : Encoder} {header : Header}
    {pages : List WirePage} {pgno : UInt32} {data : Bytes}
    (wrote : encoder.Wrote lz4 header pages)
    (encoded : encoder.encodePage lz4 pgno data = .ok next) :
    next.Wrote lz4 header (pages ++ [(pgno, data)]) := by
  obtain ⟨frame, checked, compressed, room, rfl⟩ :=
    encodePage_eq_ok wrote.headerIs encoded
  obtain ⟨length, positive, -, -, ordered⟩ := checkPage_eq_ok checked
  have later := inOrder_lt positive ordered
  have counted := wrote.counted
  have frameSize :
      (UInt64.ofNat (pageHeaderSize + frame.length)).toNat =
        pageHeaderSize + frame.length := by
    rw [UInt64.toNat_ofNat']
    exact Nat.mod_eq_of_lt (by omega)
  have located :
      Locates lz4 header.pageSize.toNat
        (encoder.w ++ (PageHeader.encode ⟨pgno, 0⟩ ++ frame))
        ⟨pgno, encoder.n, UInt64.ofNat (pageHeaderSize + frame.length)⟩
        (pgno, data) :=
    { pgno := rfl
      positive := positive
      length := length
      inside := by
        dsimp only
        rw [frameSize, counted]
        simp
      framed := by
        refine ⟨frame, compressed, ?_⟩
        dsimp only
        rw [frameSize, counted, List.drop_left]
        exact List.take_of_length_le (by simp) }
  exact
    { headerIs := wrote.headerIs
      sized := wrote.sized
      starts := by
        obtain ⟨rest, start⟩ := wrote.starts
        exact ⟨rest ++ (PageHeader.encode ⟨pgno, 0⟩ ++ frame), by
          rw [start, List.append_assoc]⟩
      counted := by
        dsimp only
        rw [toNat_add_length (by omega), counted]
        simp
      small := by
        simpa [Nat.add_assoc] using room
      hashes := by
        dsimp only
        rw [wrote.hashes, Hasher.update_append, List.flatMap_append,
          List.append_assoc]
        simp
      entries := by
        refine List.rel_append ?_ (.cons located .nil)
        exact wrote.entries.imp fun _ _ old => old.append _
      ascending := by
        rw [List.pairwise_append]
        refine ⟨wrote.ascending, List.pairwise_singleton _ _, ?_⟩
        intro page member last lastMember
        rw [List.mem_singleton] at lastMember
        rw [lastMember]
        exact UInt32.lt_of_le_of_lt (wrote.below page member) later
      below := by
        intro page member
        rcases List.mem_append.mp member with old | new
        · exact UInt32.le_of_lt
            (UInt32.lt_of_le_of_lt (wrote.below page old) later)
        · rw [List.mem_singleton] at new
          rw [new]
          exact UInt32.le_refl _ }

theorem pagesOf_cons (call : Call) (rest : List Call) :
    pagesOf (call :: rest) = call.page?.toList ++ pagesOf rest := by
  rw [pagesOf, pagesOf]
  cases paged : call.page? with
  | none => rw [List.filterMap_cons_none paged, Option.toList_none,
      List.nil_append]
  | some page => rw [List.filterMap_cons_some paged, Option.toList_some,
      List.singleton_append]

theorem call_wrote {lz4 : Lz4} {encoder next : Encoder} {header : Header}
    {pages : List WirePage} {call : Call}
    (wrote : encoder.Wrote lz4 header pages)
    (called : encoder.call lz4 call = .ok next) :
    next.Wrote lz4 header (pages ++ call.page?.toList) := by
  cases call with
  | encodePage pgno data => exact encodePage_wrote wrote called
  | setPostApplyChecksum checksum =>
      cases called
      have same : pages ++ (Call.setPostApplyChecksum checksum).page?.toList =
          pages := List.append_nil _
      rw [same]
      exact
        { headerIs := wrote.headerIs
          sized := wrote.sized
          starts := wrote.starts
          counted := wrote.counted
          small := wrote.small
          hashes := wrote.hashes
          entries := wrote.entries
          ascending := wrote.ascending
          below := wrote.below }

theorem calls_wrote {lz4 : Lz4} {calls : List Call} {encoder next : Encoder}
    {header : Header} {pages : List WirePage}
    (wrote : encoder.Wrote lz4 header pages)
    (called : encoder.calls lz4 calls = .ok next) :
    next.Wrote lz4 header (pages ++ pagesOf calls) := by
  induction calls generalizing encoder pages with
  | nil =>
      cases called
      rw [pagesOf, List.filterMap_nil, List.append_nil]
      exact wrote
  | cons call rest ih =>
      rw [Encoder.calls, bind_eq_ok] at called
      obtain ⟨middle, first, later⟩ := called
      have done := ih (call_wrote wrote first) later
      rwa [List.append_assoc, ← pagesOf_cons] at done

end Encoder

/-- The entries name the pages in order. -/
theorem map_pgno_of_locates {lz4 : Lz4} {pageSize : Nat} {bytes : Bytes}
    {index : List PageIndexElem} {pages : List WirePage}
    (entries : List.Forall₂ (Locates lz4 pageSize bytes) index pages) :
    index.map PageIndexElem.pgno = pages.map Prod.fst := by
  induction entries with
  | nil => rfl
  | cons located _ ih =>
      rw [List.map_cons, List.map_cons, located.pgno, ih]

theorem Encoder.Wrote.index_ascending {lz4 : Lz4} {encoder : Encoder}
    {header : Header} {pages : List WirePage}
    (wrote : encoder.Wrote lz4 header pages) :
    encoder.index.Pairwise fun left right => left.pgno ≤ right.pgno := by
  have numbers : (encoder.index.map PageIndexElem.pgno).Pairwise (· < ·) := by
    rw [map_pgno_of_locates wrote.entries, List.pairwise_map]
    exact wrote.ascending
  rw [List.pairwise_map] at numbers
  exact numbers.imp UInt32.le_of_lt

/-- A finished file: the header in front, the index and the trailer at the end,
and a frame for every entry. -/
structure Finished (lz4 : Lz4) (header : Header) (pages : List WirePage)
    (bytes : Bytes) (trailer : Trailer) (index : List PageIndexElem) :
    Prop where
  sized : isValidPageSize header.pageSize.toNat = true
  starts : ∃ rest, bytes = header.encode ++ rest
  ends : ∃ front, bytes = front ++ (tailBytes index ++ trailer.encode) ∧
    headerSize ≤ front.length
  small : bytes.length < 2 ^ 63
  entries : List.Forall₂ (Locates lz4 header.pageSize.toNat bytes) index pages
  ascending : pages.Pairwise fun left right => left.1 < right.1
  checksum : trailer.fileChecksum = checksumFlag ||| crc64
    (header.encode ++ pages.flatMap hashedPage ++
      (tailBytes index ++ u64ToBe trailer.postApplyChecksum))

theorem encodeFile_finished {lz4 : Lz4} {header : Header} {calls : List Call}
    {bytes : Bytes} {trailer : Trailer}
    (encoded : encodeFile lz4 header calls = .ok (bytes, trailer)) :
    ∃ index, Finished lz4 header (pagesOf calls) bytes trailer index := by
  rw [encodeFile, bind_eq_ok] at encoded
  obtain ⟨opened, headed, encoded⟩ := encoded
  rw [bind_eq_ok] at encoded
  obtain ⟨paged, called, encoded⟩ := encoded
  rw [bind_eq_ok] at encoded
  obtain ⟨⟨returned, closed⟩, finished, same⟩ := encoded
  cases same
  have wrote := Encoder.calls_wrote (Encoder.encodeHeader_wrote headed) called
  rw [List.nil_append] at wrote
  obtain ⟨whole, small, postApply, checksum⟩ :=
    Encoder.finish_eq_ok wrote.index_ascending finished
  obtain ⟨rest, start⟩ := wrote.starts
  refine ⟨paged.index, ?_⟩
  exact
    { sized := wrote.sized
      starts := ⟨rest ++ (tailBytes paged.index ++ trailer.encode), by
        rw [whole, start, List.append_assoc]⟩
      ends := ⟨paged.w, whole, by
        rw [start, List.length_append, Header.length_encode]
        omega⟩
      small := small
      entries := by
        rw [whole]
        exact wrote.entries.imp fun _ _ old => old.append _
      ascending := wrote.ascending
      checksum := by
        rw [checksum, wrote.hashes, Hasher.update_append,
          Hasher.checksum_eq_crc64, postApply] }

end Wire

end Literstream
