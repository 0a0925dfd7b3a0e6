import Literstream.Ltx.Wire.Reader
import Literstream.Ltx.Wire.Written

/-!
# Reading back what was written

The index of a finished file is found from its end, every entry leads to the
frame of its page, and the trailer covers what was hashed.
-/

namespace Literstream

namespace Wire

theorem slice_middle (front middle back : Bytes) :
    slice (front ++ (middle ++ back)) front.length
        (front.length + middle.length) = .ok middle := by
  have inside :
      front.length ≤ front.length + middle.length ∧
        front.length + middle.length ≤
          (front ++ (middle ++ back)).length := by
    rw [List.length_append, List.length_append]
    omega
  rw [slice, if_pos inside, List.drop_left, Nat.add_sub_cancel_left,
    List.take_left]

theorem readUvarint_encode (value : UInt64) (rest : Bytes) :
    readUvarint (Varint.encode value ++ rest) = .ok (value, rest) := by
  rw [readUvarint, Varint.decode_encode]

theorem decodePageIndex_marker {b rest : Bytes}
    (marker : readUvarint b = .ok (0, rest)) : decodePageIndex b = .ok [] := by
  rw [decodePageIndex]
  split
  · rename_i failed
    rw [marker] at failed
    cases failed
  · rename_i pgno afterPgno read
    rw [marker] at read
    cases read
    exact if_pos rfl

theorem decodePageIndex_entry {b afterPgno afterOffset afterSize : Bytes}
    {pgno offset size : UInt64}
    (pgnoRead : readUvarint b = .ok (pgno, afterPgno))
    (offsetRead : readUvarint afterPgno = .ok (offset, afterOffset))
    (sizeRead : readUvarint afterOffset = .ok (size, afterSize))
    (positive : pgno ≠ 0) :
    decodePageIndex b = do
      let rest ← decodePageIndex afterSize
      return ⟨pgno.toUInt32, offset, size⟩ :: rest := by
  rw [decodePageIndex]
  split
  · rename_i failed
    rw [pgnoRead] at failed
    cases failed
  · rename_i number middle read
    rw [pgnoRead] at read
    cases read
    rw [if_neg positive]
    split
    · rename_i failed
      rw [offsetRead] at failed
      cases failed
    · rename_i place middle read
      rw [offsetRead] at read
      cases read
      split
      · rename_i failed
        rw [sizeRead] at failed
        cases failed
      · rename_i length middle read
        rw [sizeRead] at read
        cases read
        rfl

theorem decodePageIndex_pageIndexBytes {index : List PageIndexElem}
    (positive : ∀ elem ∈ index, elem.pgno ≠ 0) :
    decodePageIndex (pageIndexBytes index) = .ok index := by
  induction index with
  | nil =>
      have marker := readUvarint_encode 0 []
      rw [List.append_nil] at marker
      exact decodePageIndex_marker marker
  | cons elem rest ih =>
      have restPositive : ∀ elem ∈ rest, elem.pgno ≠ 0 := by
        intro other member
        exact positive other (List.mem_cons_of_mem _ member)
      have layout :
          pageIndexBytes (elem :: rest) =
            Varint.encode elem.pgno.toUInt64 ++ (Varint.encode elem.offset ++
              (Varint.encode elem.size ++ pageIndexBytes rest)) := by
        simp [pageIndexBytes, Encoder.entryBytes, PageIndexElem.encode]
      have nonzero : elem.pgno.toUInt64 ≠ 0 := by
        intro zero
        apply positive elem List.mem_cons_self
        apply UInt32.toNat_inj.mp
        exact congrArg UInt64.toNat zero
      rw [layout,
        decodePageIndex_entry (readUvarint_encode _ _) (readUvarint_encode _ _)
          (readUvarint_encode _ _) nonzero,
        ih restPositive]
      simp

namespace Finished

variable {lz4 : Lz4} {header : Header} {pages : List WirePage} {bytes : Bytes}
  {trailer : Trailer} {index : List PageIndexElem}

theorem entries_positive
    (entries : List.Forall₂ (Locates lz4 header.pageSize.toNat bytes)
      index pages) :
    ∀ elem ∈ index, elem.pgno ≠ 0 := by
  induction entries with
  | nil => simp
  | cons located _ ih =>
      intro elem member
      rcases List.mem_cons.mp member with same | later
      · rw [same, located.pgno]
        exact located.positive
      · exact ih elem later

theorem pageIndex_eq
    (finished : Finished lz4 header pages bytes trailer index) :
    pageIndex bytes = .ok index := by
  obtain ⟨front, whole, headed⟩ := finished.ends
  have small := finished.small
  obtain ⟨start, startIs⟩ :
      ∃ start, start = front ++ List.replicate pageHeaderSize 0 := ⟨_, rfl⟩
  obtain ⟨listed, listedIs⟩ : ∃ listed, listed = pageIndexBytes index :=
    ⟨_, rfl⟩
  have startLength : headerSize ≤ start.length := by
    rw [startIs, List.length_append]
    exact Nat.le_add_right_of_le headed
  have layout :
      bytes = start ++ (listed ++
        (u64ToBe (UInt64.ofNat listed.length) ++ trailer.encode)) := by
    rw [whole, startIs, listedIs, tailBytes]
    simp only [List.append_assoc]
  have length :
      bytes.length = start.length + listed.length + indexFooterSize := by
    rw [layout]
    simp only [List.length_append, length_u64ToBe, Trailer.length_encode,
      indexFooterSize, Nat.add_assoc]
  have lengthAt :
      beU64 bytes (start.length + listed.length) =
        UInt64.ofNat listed.length := by
    have regrouped :
        bytes = (start ++ listed) ++
          (u64ToBe (UInt64.ofNat listed.length) ++ trailer.encode) := by
      rw [layout, List.append_assoc]
    rw [regrouped, beU64_skip (by rw [List.length_append]),
      List.length_append, Nat.sub_self, beU64_append]
  have fits : (UInt64.ofNat listed.length).toNat = listed.length := by
    rw [UInt64.toNat_ofNat']
    exact Nat.mod_eq_of_lt (by omega)
  have found :
      slice bytes start.length (start.length + listed.length) = .ok listed := by
    rw [layout]
    exact slice_middle _ _ _
  rw [pageIndex, if_neg (by omega)]
  dsimp only
  rw [length, Nat.add_sub_cancel, lengthAt, fits, if_neg (by omega),
    Nat.add_sub_cancel, found, listedIs]
  exact decodePageIndex_pageIndexBytes (entries_positive finished.entries)

theorem trailer_eq
    (finished : Finished lz4 header pages bytes trailer index) :
    Trailer.decode (bytes.drop (bytes.length - trailerSize)) = .ok trailer := by
  obtain ⟨front, whole, -⟩ := finished.ends
  have last :
      bytes = (front ++ tailBytes index) ++ trailer.encode := by
    rw [whole, List.append_assoc]
  have length :
      bytes.length - trailerSize = (front ++ tailBytes index).length := by
    rw [last, List.length_append, Trailer.length_encode, Nat.add_sub_cancel]
  rw [length, last, List.drop_left, Trailer.decode_encode]

end Finished

theorem Locates.decodeEntry_eq {lz4 : Lz4} {pageSize : Nat} {bytes : Bytes}
    {elem : PageIndexElem} {page : WirePage}
    (givesBack : lz4.GivesBack)
    (small : bytes.length < 2 ^ 63)
    (located : Locates lz4 pageSize bytes elem page) :
    decodeEntry lz4 bytes pageSize elem = .ok (⟨page.1, 0⟩, page.2) := by
  obtain ⟨frame, compressed, framed⟩ := located.framed
  have inside := located.inside
  have found :
      slice bytes elem.offset.toNat
          (elem.offset.toNat + elem.size.toNat) =
        .ok (PageHeader.encode ⟨page.1, 0⟩ ++ frame) := by
    rw [slice, if_pos ⟨by omega, inside⟩, Nat.add_sub_cancel_left, framed]
  have decoded :
      decodePageFrame lz4 (PageHeader.encode ⟨page.1, 0⟩ ++ frame) pageSize =
        .ok (⟨page.1, 0⟩, page.2) := by
    have number : ¬PageHeader.isZero ⟨page.1, 0⟩ = true := by
      simp [PageHeader.isZero, located.positive]
    have framed : ¬PageHeader.isBlockCompressed ⟨page.1, 0⟩ = true := by
      simp [PageHeader.isBlockCompressed]
    have body :
        (PageHeader.encode ⟨page.1, 0⟩ ++ frame).drop pageHeaderSize =
          frame :=
      List.drop_left' (PageHeader.length_encode _)
    have back := givesBack page.2 frame compressed
    rw [located.length] at back
    rw [decodePageFrame, PageHeader.decode_encode]
    change (if _ then _ else _) = _
    rw [if_neg number, if_neg framed, body, back]
  rw [decodeEntry, if_neg (by omega), if_neg (by omega), found]
  exact decoded

theorem readPages_eq {lz4 : Lz4} {pageSize : Nat} {bytes : Bytes}
    {index : List PageIndexElem} {pages : List WirePage}
    (givesBack : lz4.GivesBack)
    (small : bytes.length < 2 ^ 63)
    (entries : List.Forall₂ (Locates lz4 pageSize bytes) index pages) :
    readPages lz4 bytes pageSize index = .ok pages := by
  induction entries with
  | nil => rfl
  | cons located _ ih =>
      rw [readPages, located.decodeEntry_eq givesBack small, ih]
      rfl

theorem forEachEntry_eq {ε σ : Type} {wrap : WireError → ε} {lz4 : Lz4}
    {pageSize : Nat} {bytes : Bytes} {index : List PageIndexElem}
    {pages : List WirePage} (f : σ → WirePage → Except ε σ) (state : σ)
    (givesBack : lz4.GivesBack)
    (small : bytes.length < 2 ^ 63)
    (entries : List.Forall₂ (Locates lz4 pageSize bytes) index pages) :
    forEachEntry wrap lz4 bytes pageSize f state index =
      pages.foldlM f state := by
  induction entries generalizing state with
  | nil => rfl
  | cons located _ ih =>
      rw [forEachEntry, located.decodeEntry_eq givesBack small,
        List.foldlM_cons]
      exact congrArg (f state _ >>= ·) (funext ih)

theorem map_decodeEntry_eq {lz4 : Lz4} {pageSize : Nat} {bytes : Bytes}
    {index : List PageIndexElem} {pages : List WirePage}
    (givesBack : lz4.GivesBack)
    (small : bytes.length < 2 ^ 63)
    (entries : List.Forall₂ (Locates lz4 pageSize bytes) index pages) :
    index.map (decodeEntry lz4 bytes pageSize) =
      pages.map fun page => .ok (⟨page.1, 0⟩, page.2) := by
  induction entries with
  | nil => rfl
  | cons located _ ih =>
      rw [List.map_cons, List.map_cons, ih,
        located.decodeEntry_eq givesBack small]

theorem Finished.readFile_eq {lz4 : Lz4} {header : Header}
    {pages : List WirePage} {bytes : Bytes} {trailer : Trailer}
    {index : List PageIndexElem}
    (givesBack : lz4.GivesBack)
    (finished : Finished lz4 header pages bytes trailer index) :
    readFile lz4 bytes = .ok ⟨header, pages, trailer⟩ := by
  have headed : Header.decode bytes = .ok header := by
    obtain ⟨rest, start⟩ := finished.starts
    rw [start]
    exact Header.decode_encode rest finished.sized
  have sorted :
      (pages.insertionSort fun left right => left.1 ≤ right.1) = pages :=
    (finished.ascending.imp UInt32.le_of_lt).insertionSort_eq
  rw [readFile, headed]
  change (pageIndex bytes >>= _) = _
  rw [finished.pageIndex_eq]
  change (Trailer.decode _ >>= _) = _
  rw [finished.trailer_eq]
  change (readPages lz4 bytes _ index >>= _) = _
  rw [readPages_eq givesBack finished.small finished.entries]
  change Except.ok _ = _
  rw [sorted]

/-- Everything that the encoder wrote comes back, through every way of reading
the index, and the checksum of the trailer covers the uncompressed file. -/
theorem encoded_file_reads_back {lz4 : Lz4} {header : Header}
    {calls : List Call} {bytes : Bytes} {trailer : Trailer}
    (givesBack : lz4.GivesBack)
    (encoded : encodeFile lz4 header calls = .ok (bytes, trailer)) :
    readFile lz4 bytes = .ok ⟨header, pagesOf calls, trailer⟩ ∧
      ∃ index,
        pageIndex bytes = .ok index ∧
        index.map PageIndexElem.pgno = (pagesOf calls).map Prod.fst ∧
        (index.map PageIndexElem.pgno).Pairwise (· < ·) ∧
        index.map (decodeEntry lz4 bytes header.pageSize.toNat) =
          (pagesOf calls).map (fun page => .ok (⟨page.1, 0⟩, page.2)) ∧
        (∀ (ε σ : Type) (wrap : WireError → ε)
            (f : σ → WirePage → Except ε σ) (state : σ),
          forEachIndexedPage wrap lz4 bytes header.pageSize.toNat f state =
            (pagesOf calls).foldlM f state) ∧
        trailer.fileChecksum = checksumFlag ||| crc64
          (header.encode ++ (pagesOf calls).flatMap hashedPage ++
            (tailBytes index ++ u64ToBe trailer.postApplyChecksum)) := by
  obtain ⟨index, finished⟩ := encodeFile_finished encoded
  have numbers := map_pgno_of_locates finished.entries
  refine ⟨finished.readFile_eq givesBack, index, finished.pageIndex_eq,
    numbers, ?_, map_decodeEntry_eq givesBack finished.small finished.entries,
    ?_, finished.checksum⟩
  · rw [numbers, List.pairwise_map]
    exact finished.ascending
  · intro ε σ wrap f state
    rw [forEachIndexedPage, finished.pageIndex_eq]
    exact forEachEntry_eq f state givesBack finished.small finished.entries

/-! A page without repetitions is stored as it is: the start of the frame, one
raw block behind its size, and the end mark. -/

def storedStart : Bytes := [0x04, 0x22, 0x4d, 0x18, 0x60, 0x40, 0x82]

def storedFrame (data : Bytes) : Bytes :=
  storedStart ++ ((BigEndian.bytes 4 (0x80000000 + data.length)).reverse ++
    (data ++ [0, 0, 0, 0]))

def storedLz4 : Lz4 where
  compress data := if data.length ≤ 65536 then some (storedFrame data) else none
  readExact frame length :=
    if frame.take 7 = storedStart then some ((frame.drop 11).take length)
    else none
  decompressInto _ _ := none

theorem storedLz4_givesBack : storedLz4.GivesBack := by
  intro data frame compressed
  obtain ⟨-, rfl⟩ := (Option.ite_some_none_eq_some).mp compressed
  have behind :
      (storedFrame data).drop 11 = data ++ [0, 0, 0, 0] := by
    rw [storedFrame, ← List.append_assoc]
    exact List.drop_left' (by simp [storedStart])
  have start : (storedFrame data).take 7 = storedStart := rfl
  unfold storedLz4
  dsimp only
  rw [if_pos start, behind, List.take_left]

/-- 512 bytes in which no four bytes repeat. -/
def countingPage : Bytes :=
  (List.range 256).flatMap fun count => [0, UInt8.ofNat count]

def twoPageHeader : Header where
  flags := 2
  pageSize := 512
  commit := 300
  minTxid := 7
  maxTxid := 9
  timestamp := -1
  preApplyChecksum := 0
  walOffset := 32
  walSize := 1072
  walSalt1 := 5
  walSalt2 := 6
  nodeId := 0

def twoPageCalls : List Call :=
  [.encodePage 3 countingPage, .setPostApplyChecksum checksumFlag,
    .encodePage 300 countingPage]

theorem encoded_file_reads_back_stored :
    ∃ bytes trailer,
      encodeFile storedLz4 twoPageHeader twoPageCalls = .ok (bytes, trailer) ∧
        readFile storedLz4 bytes =
          .ok ⟨twoPageHeader, [(3, countingPage), (300, countingPage)],
            trailer⟩ := by
  have accepted :
      (encodeFile storedLz4 twoPageHeader twoPageCalls).isOk = true := by
    decide +kernel
  obtain ⟨⟨bytes, trailer⟩, encoded⟩ := exists_of_isOk accepted
  exact ⟨bytes, trailer, encoded,
    (encoded_file_reads_back storedLz4_givesBack encoded).1⟩

end Wire

end Literstream
