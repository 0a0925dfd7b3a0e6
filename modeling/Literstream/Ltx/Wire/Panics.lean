import Literstream.Ltx.Wire.RoundTrip
import Literstream.Lib.PagedFile

/-!
# Byte strings that a reader panics on

The length of the index, the size of a block and the number of a page come from
the file and are used before they are checked.  What a byte string has to
satisfy so that none of its readers panics is a statement about these fields.
-/

namespace Literstream

open PagedFile

namespace Wire

/-- The index of an object, by ranged reads of its end.  An empty range is
refused by the store, an empty index by the decoder. -/
def loadIndex (bytes : Bytes) : Except WireError (List PageIndexElem) :=
  let size := bytes.length
  if size < indexFooterSize then .error .panic
  else
    let indexLen := (beU64 bytes (size - indexFooterSize)).toNat
    if size - indexFooterSize < indexLen then .error .panic
    else
      let indexStart := size - indexFooterSize - indexLen
      decodePageIndex ((bytes.drop indexStart).take indexLen)

/-- Copy pages into an image. -/
def placePages (pageSize : Nat) :
    List WirePage → Bytes → Except WireError Bytes
  | [], image => .ok image
  | (pgno, data) :: pages, image =>
      if pgno.toNat = 0 then .error .panic
      else
        let start := (pgno.toNat - 1) * pageSize
        if image.length < start + pageSize ∨ data.length ≠ pageSize then
          .error .panic
        else placePages pageSize pages (writeAt start data image)

/-- One file of a plan: resize the image and copy the pages. -/
def applyObject (lz4 : Lz4) (bytes image : Bytes) : Except WireError Bytes := do
  let file ← readFile lz4 bytes
  let pageSize := file.header.pageSize.toNat
  placePages pageSize file.pages
    (setLen (file.header.commit.toNat * pageSize) image)

/-- The strings at which the decoder of an index reads a number. -/
def varintReads (b : Bytes) : List Bytes :=
  b :: match _pgnoRead : readUvarint b with
  | .error _ => []
  | .ok (pgno, afterPgno) =>
      if pgno = 0 then []
      else afterPgno :: match _offsetRead : readUvarint afterPgno with
      | .error _ => []
      | .ok (_, afterOffset) =>
          afterOffset :: match _sizeRead : readUvarint afterOffset with
          | .error _ => []
          | .ok (_, afterSize) => varintReads afterSize
termination_by b.length
decreasing_by
  have first := readUvarint_shorter _pgnoRead
  have second := readUvarint_shorter _offsetRead
  have third := readUvarint_shorter _sizeRead
  omega

/-- Both decoders fill the buffer that they are given. -/
structure Lz4.Fills (lz4 : Lz4) : Prop where
  frame : ∀ frame length data, lz4.readExact frame length = some data →
    data.length = length
  block : ∀ block buffer data, lz4.decompressInto block buffer = some data →
    data.length = buffer.length

/-! ## What is asked of the bytes -/

/-- What the footer says of the length of the index. -/
def indexLength (bytes : Bytes) : Nat :=
  (beU64 bytes (bytes.length - indexFooterSize)).toNat

/-- The index in front of the footer. -/
def storedIndex (bytes : Bytes) : Bytes :=
  (bytes.drop (bytes.length - indexFooterSize - indexLength bytes)).take
    (indexLength bytes)

/-- The bytes that an entry of the index names. -/
def frameOf (bytes : Bytes) (elem : PageIndexElem) : Bytes :=
  (bytes.drop elem.offset.toNat).take elem.size.toNat

/-- A block lies inside its frame. -/
def FrameFits (frame : Bytes) : Prop :=
  pageHeaderSize + 4 ≤ frame.length →
    beU16 frame 4 &&& pageHeaderFlagSize ≠ 0 →
    pageHeaderSize + 4 + (beU32 frame pageHeaderSize).toNat ≤ frame.length

/-- The end of a frame is a machine word, and the block of a frame inside the
file fits. -/
def EntryFits (bytes : Bytes) (elem : PageIndexElem) : Prop :=
  elem.offset.toNat + elem.size.toNat < 2 ^ 64 ∧
    (elem.offset.toNat + elem.size.toNat ≤ bytes.length →
      FrameFits (frameOf bytes elem))

/-- The entries in front of another one decode. -/
def AllDecode (lz4 : Lz4) (bytes : Bytes) (pageSize : Nat)
    (index : List PageIndexElem) : Prop :=
  ∀ elem ∈ index, ∃ page, decodeEntry lz4 bytes pageSize elem = .ok page

/-- Every field that a reader gets to is in range. -/
structure WellFramed (lz4 : Lz4) (bytes : Bytes) : Prop where
  footer : indexFooterSize ≤ bytes.length
  index : indexLength bytes ≤ bytes.length - indexFooterSize
  varints : ∀ string ∈ varintReads (storedIndex bytes),
    Varint.width string ≤ 10
  frames : headerSize + indexFooterSize ≤ bytes.length →
    ∀ index, decodePageIndex (storedIndex bytes) = .ok index →
    ∀ (pageSize : Nat) before elem after, index = before ++ elem :: after →
      AllDecode lz4 bytes pageSize before → EntryFits bytes elem
  numbers : headerSize + indexFooterSize ≤ bytes.length →
    ∀ header, Header.decode bytes = .ok header →
    ∀ index, decodePageIndex (storedIndex bytes) = .ok index →
      AllDecode lz4 bytes header.pageSize.toNat index →
    ∀ elem ∈ index, 1 ≤ (beU32 (frameOf bytes elem) 0).toNat ∧
      (beU32 (frameOf bytes elem) 0).toNat ≤ header.commit.toNat

/-- No reader of the bytes panics or shifts too far. -/
structure ReadsSafely (lz4 : Lz4) (bytes : Bytes) : Prop where
  readFile : Wire.readFile lz4 bytes ≠ .error .panic
  pageIndex : Wire.pageIndex bytes ≠ .error .panic
  forEachIndexedPage : ∀ (σ : Type) (f : σ → WirePage → Except WireError σ),
    (∀ state page, f state page ≠ .error .panic) →
    ∀ (pageSize : Nat) (state : σ),
      Wire.forEachIndexedPage id lz4 bytes pageSize f state ≠ .error .panic
  applyObject : ∀ image, Wire.applyObject lz4 bytes image ≠ .error .panic
  loadIndex : Wire.loadIndex bytes ≠ .error .panic
  shifts : indexFooterSize ≤ bytes.length →
    indexLength bytes ≤ bytes.length - indexFooterSize →
    ∀ string ∈ varintReads (storedIndex bytes),
      ∀ performed ∈ Varint.shifts 0 string, performed < 64

/-! ## Frames and entries -/

variable {lz4 : Lz4}

theorem decodePageFrame_eq_panic_iff {frame : Bytes} {pageSize : Nat} :
    decodePageFrame lz4 frame pageSize = .error .panic ↔ ¬FrameFits frame := by
  by_cases short : frame.length < pageHeaderSize
  · have tiny : ¬pageHeaderSize + 4 ≤ frame.length := by omega
    have refused : decodePageFrame lz4 frame pageSize =
        .error (.ltx (.shortBuffer pageHeaderSize frame.length)) := by
      rw [decodePageFrame, PageHeader.decode, if_pos short]
      rfl
    simp [refused, FrameFits, tiny]
  · have decoded : PageHeader.decode frame =
        .ok ⟨beU32 frame 0, beU16 frame 4⟩ := by
      rw [PageHeader.decode, if_neg short]
    unfold decodePageFrame
    rw [decoded]
    change (if _ then _ else _) = _ ↔ _
    by_cases zero : PageHeader.isZero ⟨beU32 frame 0, beU16 frame 4⟩ = true
    · have noFlags : beU16 frame 4 = 0 := by
        simp only [PageHeader.isZero, Bool.and_eq_true, beq_iff_eq] at zero
        exact zero.2
      rw [if_pos zero]
      simp [FrameFits, noFlags]
    · rw [if_neg zero]
      by_cases block :
          PageHeader.isBlockCompressed ⟨beU32 frame 0, beU16 frame 4⟩ = true
      · have flagged : beU16 frame 4 &&& pageHeaderFlagSize ≠ 0 := by
          simpa [PageHeader.isBlockCompressed] using block
        rw [if_pos block]
        by_cases sized : frame.length < pageHeaderSize + 4
        · have tiny : ¬pageHeaderSize + 4 ≤ frame.length := by omega
          rw [if_pos sized]
          simp [FrameFits, tiny]
        · rw [if_neg sized]
          dsimp only
          have same : FrameFits frame ↔ pageHeaderSize + 4 +
              (beU32 frame pageHeaderSize).toNat ≤ frame.length :=
            ⟨fun fits => fits (by omega) flagged, fun inside _ _ => inside⟩
          rw [same]
          by_cases inside : pageHeaderSize + 4 +
              (beU32 frame pageHeaderSize).toNat ≤ frame.length
          · rw [slice, if_pos ⟨by omega, inside⟩]
            simp only [bind, Except.bind]
            split
            · simp [inside]
            · simp [inside]
          · rw [slice, if_neg fun found => inside found.2]
            simp [inside, bind, Except.bind]
      · have unflagged : ¬beU16 frame 4 &&& pageHeaderFlagSize ≠ 0 := by
          simpa [PageHeader.isBlockCompressed] using block
        rw [if_neg block]
        have fits : FrameFits frame :=
          fun _ flagged => absurd flagged unflagged
        split
        · simp [fits]
        · simp [fits]

theorem decodeEntry_eq_panic_iff {bytes : Bytes} {pageSize : Nat}
    {elem : PageIndexElem} :
    decodeEntry lz4 bytes pageSize elem = .error .panic ↔
      ¬EntryFits bytes elem := by
  unfold decodeEntry EntryFits
  dsimp only
  split
  case isTrue past =>
      simp only [true_iff]
      intro fits
      omega
  case isFalse word =>
      split
      case isTrue beyond =>
          have fits : elem.offset.toNat + elem.size.toNat < 2 ^ 64 ∧
              (elem.offset.toNat + elem.size.toNat ≤ bytes.length →
                FrameFits (frameOf bytes elem)) :=
            ⟨by omega, fun inside => by omega⟩
          constructor
          · rintro ⟨⟩
          · exact fun misfit => absurd fits misfit
      case isFalse inside =>
          have found : slice bytes elem.offset.toNat
              (elem.offset.toNat + elem.size.toNat) =
                .ok (frameOf bytes elem) := by
            rw [slice, if_pos ⟨by omega, by omega⟩, Nat.add_sub_cancel_left]
            rfl
          rw [found]
          change decodePageFrame lz4 _ pageSize = _ ↔ _
          rw [decodePageFrame_eq_panic_iff]
          constructor
          · intro misfit fits
            exact misfit (fits.2 (by omega))
          · intro misfit fits
            exact misfit ⟨by omega, fun _ => fits⟩

/-- Pages are read up to the first entry that does not decode. -/
theorem readPages_eq_error_iff {bytes : Bytes} {pageSize : Nat}
    {index : List PageIndexElem} {error : WireError} :
    readPages lz4 bytes pageSize index = .error error ↔
      ∃ before elem after, index = before ++ elem :: after ∧
        AllDecode lz4 bytes pageSize before ∧
        decodeEntry lz4 bytes pageSize elem = .error error := by
  induction index with
  | nil => simp [readPages]
  | cons first index ih =>
      rw [readPages]
      cases decoded : decodeEntry lz4 bytes pageSize first with
      | error other =>
          constructor
          · intro failed
            cases failed
            exact ⟨[], first, index, rfl, by simp [AllDecode], decoded⟩
          · rintro ⟨before, elem, after, same, all, failed⟩
            cases before with
            | nil =>
                cases same
                rw [decoded] at failed
                cases failed
                rfl
            | cons head before =>
                cases same
                obtain ⟨page, found⟩ := all first (by simp)
                rw [decoded] at found
                cases found
      | ok page =>
          constructor
          · intro failed
            have later : readPages lz4 bytes pageSize index =
                .error error := by
              cases read : readPages lz4 bytes pageSize index with
              | error other =>
                  rw [read] at failed
                  cases failed
                  rfl
              | ok pages =>
                  rw [read] at failed
                  cases failed
            obtain ⟨before, elem, after, same, all, failed⟩ := ih.mp later
            refine ⟨first :: before, elem, after, by rw [same]; rfl, ?_, failed⟩
            intro other member
            rcases List.mem_cons.mp member with rfl | earlier
            · exact ⟨page, decoded⟩
            · exact all other earlier
          · rintro ⟨before, elem, after, same, all, failed⟩
            cases before with
            | nil =>
                cases same
                rw [decoded] at failed
                cases failed
            | cons head before =>
                cases same
                have later := ih.mpr ⟨before, elem, after, rfl,
                  fun other member => all other (by simp [member]), failed⟩
                rw [later]
                rfl

/-- What a decoded frame says. -/
theorem decodePageFrame_eq_ok {frame : Bytes} {pageSize : Nat}
    {header : PageHeader} {data : Bytes} (fills : lz4.Fills)
    (decoded : decodePageFrame lz4 frame pageSize = .ok (header, data)) :
    header.pgno = beU32 frame 0 ∧ data.length = pageSize := by
  unfold decodePageFrame at decoded
  rw [bind_eq_ok] at decoded
  obtain ⟨read, headed, decoded⟩ := decoded
  have number : read.pgno = beU32 frame 0 := by
    unfold PageHeader.decode at headed
    split at headed
    · cases headed
    · cases headed
      rfl
  split at decoded
  · cases decoded
  · split at decoded
    · split at decoded
      · cases decoded
      · rw [bind_eq_ok] at decoded
        obtain ⟨compressed, _, decoded⟩ := decoded
        split at decoded
        · cases decoded
        · rename_i whole
          cases decoded
          exact ⟨number, by simpa using fills.block _ _ _ whole⟩
    · split at decoded
      · cases decoded
      · rename_i whole
        cases decoded
        exact ⟨number, fills.frame _ _ _ whole⟩

theorem decodeEntry_eq_ok {bytes : Bytes} {pageSize : Nat}
    {elem : PageIndexElem} {header : PageHeader} {data : Bytes}
    (fills : lz4.Fills)
    (decoded : decodeEntry lz4 bytes pageSize elem = .ok (header, data)) :
    header.pgno = beU32 (frameOf bytes elem) 0 ∧ data.length = pageSize := by
  unfold decodeEntry at decoded
  dsimp only at decoded
  split at decoded
  · cases decoded
  · split at decoded
    · cases decoded
    · rw [bind_eq_ok] at decoded
      obtain ⟨frame, found, decoded⟩ := decoded
      rw [slice, if_pos ⟨by omega, by omega⟩, Nat.add_sub_cancel_left]
        at found
      cases found
      exact decodePageFrame_eq_ok fills decoded

theorem allDecode_of_readPages {bytes : Bytes} {pageSize : Nat}
    {index : List PageIndexElem} {pages : List WirePage}
    (read : readPages lz4 bytes pageSize index = .ok pages) :
    AllDecode lz4 bytes pageSize index := by
  induction index generalizing pages with
  | nil => simp [AllDecode]
  | cons first index ih =>
      rw [readPages, bind_eq_ok] at read
      obtain ⟨page, decoded, read⟩ := read
      rw [bind_eq_ok] at read
      obtain ⟨later, tail, _⟩ := read
      intro elem member
      rcases List.mem_cons.mp member with rfl | further
      · exact ⟨page, decoded⟩
      · exact ih tail elem further

/-- The pages of an index that decodes are those that its frames name. -/
theorem readPages_eq_ok {bytes : Bytes} {pageSize : Nat}
    {index : List PageIndexElem} {pages : List WirePage} (fills : lz4.Fills)
    (read : readPages lz4 bytes pageSize index = .ok pages) :
    pages.map Prod.fst =
        (index.map fun elem => beU32 (frameOf bytes elem) 0) ∧
      ∀ page ∈ pages, page.2.length = pageSize := by
  induction index generalizing pages with
  | nil =>
      cases read
      exact ⟨rfl, by simp⟩
  | cons first index ih =>
      rw [readPages, bind_eq_ok] at read
      obtain ⟨⟨header, data⟩, decoded, read⟩ := read
      rw [bind_eq_ok] at read
      obtain ⟨later, tail, same⟩ := read
      cases same
      obtain ⟨numbers, lengths⟩ := ih tail
      obtain ⟨number, length⟩ := decodeEntry_eq_ok fills decoded
      refine ⟨by rw [List.map_cons, List.map_cons, numbers, number], ?_⟩
      intro page member
      rcases List.mem_cons.mp member with rfl | further
      · exact length
      · exact lengths page further

theorem readPages_of_allDecode {bytes : Bytes} {pageSize : Nat}
    {index : List PageIndexElem} (all : AllDecode lz4 bytes pageSize index) :
    ∃ pages, readPages lz4 bytes pageSize index = .ok pages := by
  cases read : readPages lz4 bytes pageSize index with
  | ok pages => exact ⟨pages, rfl⟩
  | error error =>
      obtain ⟨before, elem, after, same, _, failed⟩ :=
        readPages_eq_error_iff.mp read
      obtain ⟨page, decoded⟩ := all elem (by simp [same])
      rw [failed] at decoded
      cases decoded

theorem readPages_eq_panic_iff {bytes : Bytes} {pageSize : Nat}
    {index : List PageIndexElem} :
    readPages lz4 bytes pageSize index = .error .panic ↔
      ∃ before elem after, index = before ++ elem :: after ∧
        AllDecode lz4 bytes pageSize before ∧ ¬EntryFits bytes elem := by
  rw [readPages_eq_error_iff]
  simp only [decodeEntry_eq_panic_iff]

/-- A callback that does not panic sees pages up to the first entry that does
not decode, or fewer. -/
theorem readPages_of_forEachEntry {σ : Type} {bytes : Bytes} {pageSize : Nat}
    {index : List PageIndexElem} {f : σ → WirePage → Except WireError σ}
    {state : σ} (calm : ∀ state page, f state page ≠ .error .panic)
    (panicked : forEachEntry id lz4 bytes pageSize f state index =
      .error .panic) :
    readPages lz4 bytes pageSize index = .error .panic := by
  induction index generalizing state with
  | nil => cases panicked
  | cons first index ih =>
      rw [forEachEntry] at panicked
      rw [readPages]
      cases decoded : decodeEntry lz4 bytes pageSize first with
      | error error =>
          rw [decoded] at panicked
          cases panicked
          rfl
      | ok page =>
          rw [decoded] at panicked
          dsimp only at panicked
          cases called : f state (page.1.pgno, page.2) with
          | error error =>
              rw [called] at panicked
              cases panicked
              exact absurd called (calm _ _)
          | ok next =>
              rw [called] at panicked
              have later := ih panicked
              change (readPages lz4 bytes pageSize index >>= _) = _
              rw [later]
              rfl

/-- With a callback that does nothing the walk fails where reading fails. -/
theorem forEachEntry_unit {bytes : Bytes} {pageSize : Nat}
    {index : List PageIndexElem} :
    forEachEntry id lz4 bytes pageSize (fun _ _ => .ok ()) () index =
      (readPages lz4 bytes pageSize index).map fun _ => () := by
  induction index with
  | nil => rfl
  | cons first index ih =>
      rw [forEachEntry, readPages]
      cases decodeEntry lz4 bytes pageSize first with
      | error error => rfl
      | ok page =>
          change forEachEntry id lz4 bytes pageSize _ () index =
            Except.map _ (readPages lz4 bytes pageSize index >>= _)
          rw [ih]
          cases readPages lz4 bytes pageSize index with
          | error error => rfl
          | ok pages => rfl

/-! ## The index -/

theorem readUvarint_ne_panic (b : Bytes) : readUvarint b ≠ .error .panic := by
  unfold readUvarint
  split
  · rintro ⟨⟩
  · rintro ⟨⟩

theorem decodePageIndex_ne_panic (b : Bytes) :
    decodePageIndex b ≠ .error .panic := by
  fun_induction decodePageIndex b with
  | case1 b error failed =>
      rintro ⟨⟩
      exact readUvarint_ne_panic _ failed
  | case2 => rintro ⟨⟩
  | case3 b pgno afterPgno read _ error failed =>
      rintro ⟨⟩
      exact readUvarint_ne_panic _ failed
  | case4 b pgno afterPgno read _ offset afterOffset offsetRead error failed =>
      rintro ⟨⟩
      exact readUvarint_ne_panic _ failed
  | case5 b pgno afterPgno read _ offset afterOffset offsetRead size afterSize
      sizeRead ih =>
      cases later : decodePageIndex afterSize with
      | error error =>
          rintro ⟨⟩
          exact ih later
      | ok rest => rintro ⟨⟩

theorem loadIndex_eq_panic_iff {bytes : Bytes} :
    loadIndex bytes = .error .panic ↔
      ¬(indexFooterSize ≤ bytes.length ∧
        indexLength bytes ≤ bytes.length - indexFooterSize) := by
  unfold loadIndex
  dsimp only
  split
  case isTrue short => simp [Nat.not_le.mpr short]
  case isFalse long =>
      split
      case isTrue past =>
          simp only [true_iff]
          exact fun fits => Nat.not_le.mpr past fits.2
      case isFalse fits =>
          constructor
          · exact fun panicked =>
              absurd panicked (decodePageIndex_ne_panic _)
          · exact fun misfit =>
              absurd ⟨Nat.not_lt.mp long, Nat.not_lt.mp fits⟩ misfit

theorem loadIndex_of_fits {bytes : Bytes}
    (footer : indexFooterSize ≤ bytes.length)
    (fits : indexLength bytes ≤ bytes.length - indexFooterSize) :
    loadIndex bytes = decodePageIndex (storedIndex bytes) := by
  unfold indexLength at fits
  unfold loadIndex
  dsimp only
  rw [if_neg (by omega), if_neg (Nat.not_lt.mpr fits)]
  rfl

/-- Long enough for a header, both ways to the index are the same. -/
theorem pageIndex_eq_loadIndex {bytes : Bytes}
    (long : headerSize + indexFooterSize ≤ bytes.length) :
    pageIndex bytes = loadIndex bytes := by
  have footer : ¬bytes.length < indexFooterSize := by omega
  unfold pageIndex loadIndex
  dsimp only
  rw [if_neg (by omega), if_neg footer]
  split
  · rfl
  · rw [slice, if_pos ⟨by omega, by omega⟩, Nat.sub_sub_self (by omega)]
    rfl

theorem pageIndex_of_short {bytes : Bytes}
    (short : bytes.length < headerSize + indexFooterSize) :
    pageIndex bytes = .error
      (.ltx (.shortBuffer (headerSize + indexFooterSize) bytes.length)) := by
  rw [pageIndex, if_pos short]

/-! ## Whole files -/

theorem headerDecode_ne_panic (bytes : Bytes) :
    Header.decode bytes ≠ .error .panic := by
  unfold Header.decode
  split
  · rintro ⟨⟩
  · split
    · rintro ⟨⟩
    · dsimp only
      split
      · rintro ⟨⟩
      · rintro ⟨⟩

theorem pageSize_pos_of_decode {bytes : Bytes} {header : Header}
    (headed : Header.decode bytes = .ok header) :
    0 < header.pageSize.toNat :=
  isValidPageSize.pos (Header.decode_eq_ok headed).1

theorem trailerDecode_of_long {bytes : Bytes}
    (long : headerSize + indexFooterSize ≤ bytes.length) :
    ∃ trailer, Trailer.decode (bytes.drop (bytes.length - trailerSize)) =
      .ok trailer := by
  have whole : ¬(bytes.drop (bytes.length - trailerSize)).length <
      trailerSize := by
    rw [indexFooterSize] at long
    rw [List.length_drop]
    omega
  rw [Trailer.decode, if_neg whole]
  exact ⟨_, rfl⟩

theorem readFile_of_index {bytes : Bytes} {header : Header}
    {index : List PageIndexElem}
    (long : headerSize + indexFooterSize ≤ bytes.length)
    (headed : Header.decode bytes = .ok header)
    (indexed : pageIndex bytes = .ok index) :
    ∃ trailer, readFile lz4 bytes =
      (readPages lz4 bytes header.pageSize.toNat index).map fun pages =>
        { header := header
          pages := pages.insertionSort fun left right => left.1 ≤ right.1
          trailer := trailer } := by
  obtain ⟨trailer, ended⟩ := trailerDecode_of_long long
  refine ⟨trailer, ?_⟩
  rw [readFile, headed, indexed, ended]
  rfl

theorem placePages_ne_panic_iff {pageSize commit : Nat}
    {pages : List WirePage} {image : Bytes} (positive : 0 < pageSize)
    (whole : image.length = commit * pageSize)
    (lengths : ∀ page ∈ pages, page.2.length = pageSize) :
    placePages pageSize pages image ≠ .error .panic ↔
      ∀ page ∈ pages, 1 ≤ page.1.toNat ∧ page.1.toNat ≤ commit := by
  induction pages generalizing image with
  | nil =>
      refine ⟨by simp, ?_⟩
      rintro - ⟨⟩
  | cons page pages ih =>
      obtain ⟨pgno, data⟩ := page
      have length : data.length = pageSize := lengths (pgno, data) (by simp)
      rw [placePages, List.forall_mem_cons]
      by_cases zero : pgno.toNat = 0
      · simp [zero]
      · have behind : (pgno.toNat - 1) * pageSize + pageSize =
            pgno.toNat * pageSize := by
          rw [← Nat.succ_mul, Nat.succ_eq_add_one, Nat.sub_add_cancel (by omega)]
        rw [if_neg zero]
        dsimp only
        by_cases inside : pgno.toNat ≤ commit
        · have bound : pgno.toNat * pageSize ≤ commit * pageSize :=
            Nat.mul_le_mul_right _ inside
          have fits : ¬(image.length < (pgno.toNat - 1) * pageSize + pageSize ∨
              data.length ≠ pageSize) := by
            omega
          have written :
              (writeAt ((pgno.toNat - 1) * pageSize) data image).length =
                commit * pageSize := by
            rw [length_writeAt]
            omega
          rw [if_neg fits, ih written fun other member =>
            lengths other (by simp [member])]
          constructor
          · exact fun later => ⟨⟨by omega, inside⟩, later⟩
          · exact fun all => all.2
        · have bound : (commit + 1) * pageSize ≤ pgno.toNat * pageSize :=
            Nat.mul_le_mul_right _ (by omega)
          rw [Nat.succ_mul] at bound
          have past : image.length < (pgno.toNat - 1) * pageSize + pageSize := by
            omega
          rw [if_pos (.inl past)]
          simp [inside]

/-- Copying the pages of a decoded file panics on a page number out of
range only. -/
theorem applyObject_ne_panic_iff {bytes image : Bytes} {header : Header}
    {index : List PageIndexElem} {pages : List WirePage} (fills : lz4.Fills)
    (long : headerSize + indexFooterSize ≤ bytes.length)
    (headed : Header.decode bytes = .ok header)
    (indexed : pageIndex bytes = .ok index)
    (read : readPages lz4 bytes header.pageSize.toNat index = .ok pages) :
    applyObject lz4 bytes image ≠ .error .panic ↔
      ∀ elem ∈ index, 1 ≤ (beU32 (frameOf bytes elem) 0).toNat ∧
        (beU32 (frameOf bytes elem) 0).toNat ≤ header.commit.toNat := by
  obtain ⟨trailer, whole⟩ := @readFile_of_index lz4 _ _ _ long headed indexed
  obtain ⟨numbers, lengths⟩ := readPages_eq_ok fills read
  have placed : applyObject lz4 bytes image =
      placePages header.pageSize.toNat
        (pages.insertionSort fun left right => left.1 ≤ right.1)
        (setLen (header.commit.toNat * header.pageSize.toNat) image) := by
    rw [applyObject, whole, read]
    rfl
  have sameNumbers : (∀ page ∈ pages,
      1 ≤ page.1.toNat ∧ page.1.toNat ≤ header.commit.toNat) ↔
      ∀ pgno ∈ pages.map Prod.fst,
        1 ≤ pgno.toNat ∧ pgno.toNat ≤ header.commit.toNat := by
    rw [List.forall_mem_map]
  rw [placed, placePages_ne_panic_iff (pageSize_pos_of_decode headed)
    (length_setLen _ _)]
  · simp only [List.mem_insertionSort]
    rw [sameNumbers, numbers, List.forall_mem_map]
  · intro page member
    exact lengths page ((List.mem_insertionSort _).mp member)

/-- The index is read without a panic, and then entries up to the first one
that does not decode. -/
theorem readFile_ne_panic {bytes : Bytes} (indexCalm :
      pageIndex bytes ≠ .error .panic)
    (pagesCalm : ∀ pageSize index, pageIndex bytes = .ok index →
      readPages lz4 bytes pageSize index ≠ .error .panic) :
    readFile lz4 bytes ≠ .error .panic := by
  cases headed : Header.decode bytes with
  | error error =>
      rw [readFile, headed]
      rintro ⟨⟩
      exact headerDecode_ne_panic bytes headed
  | ok header =>
      cases indexed : pageIndex bytes with
      | error error =>
          rw [readFile, headed, indexed]
          rintro ⟨⟩
          exact indexCalm indexed
      | ok index =>
          rcases Nat.lt_or_ge bytes.length (headerSize + indexFooterSize) with
            short | long
          · rw [pageIndex_of_short short] at indexed
            cases indexed
          · obtain ⟨trailer, whole⟩ :=
              @readFile_of_index lz4 _ _ _ long headed indexed
            rw [whole]
            cases read : readPages lz4 bytes header.pageSize.toNat index with
            | error error =>
                rintro ⟨⟩
                exact pagesCalm _ index indexed read
            | ok pages => rintro ⟨⟩

/-- Frames and blocks that a reader gets to lie inside the file, and a decoded
page is one of the image. -/
theorem WellFramed.readsSafely {bytes : Bytes} (fills : lz4.Fills)
    (framed : WellFramed lz4 bytes) : ReadsSafely lz4 bytes := by
  have loaded := loadIndex_of_fits framed.footer framed.index
  have located : ∀ index, pageIndex bytes = .ok index →
      headerSize + indexFooterSize ≤ bytes.length ∧
        decodePageIndex (storedIndex bytes) = .ok index := by
    intro index indexed
    rcases Nat.lt_or_ge bytes.length (headerSize + indexFooterSize) with
      short | long
    · rw [pageIndex_of_short short] at indexed
      cases indexed
    · rw [pageIndex_eq_loadIndex long, loaded] at indexed
      exact ⟨long, indexed⟩
  have indexCalm : pageIndex bytes ≠ .error .panic := by
    rcases Nat.lt_or_ge bytes.length (headerSize + indexFooterSize) with
      short | long
    · rw [pageIndex_of_short short]
      rintro ⟨⟩
    · rw [pageIndex_eq_loadIndex long, loaded]
      exact decodePageIndex_ne_panic _
  have pagesCalm : ∀ pageSize index, pageIndex bytes = .ok index →
      readPages lz4 bytes pageSize index ≠ .error .panic := by
    intro pageSize index indexed panicked
    obtain ⟨long, decoded⟩ := located index indexed
    obtain ⟨before, elem, after, same, all, misfit⟩ :=
      readPages_eq_panic_iff.mp panicked
    exact misfit
      (framed.frames long index decoded pageSize before elem after same all)
  refine ⟨readFile_ne_panic indexCalm pagesCalm, indexCalm, ?_, ?_, ?_, ?_⟩
  · intro σ f calm pageSize state
    unfold Wire.forEachIndexedPage
    split
    · rename_i error failed
      rintro ⟨⟩
      exact indexCalm failed
    · rename_i index indexed
      exact fun panicked => pagesCalm pageSize index indexed
        (readPages_of_forEachEntry calm panicked)
  · intro image
    cases read : Wire.readFile lz4 bytes with
    | error error =>
        rw [Wire.applyObject, read]
        rintro ⟨⟩
        exact readFile_ne_panic indexCalm pagesCalm read
    | ok file =>
        simp only [Wire.readFile, bind_eq_ok] at read
        obtain ⟨header, headed, index, indexed, _, _, pages, pagesRead, _⟩ :=
          read
        obtain ⟨long, decoded⟩ := located index indexed
        rw [applyObject_ne_panic_iff fills long headed indexed pagesRead]
        exact framed.numbers long header headed index decoded
          (allDecode_of_readPages pagesRead)
  · rw [loaded]
    exact decodePageIndex_ne_panic _
  · intro _ _ string member
    exact (Varint.shifts_lt_iff string).mpr (framed.varints string member)

/-- A field out of range makes some reader panic. -/
theorem wellFramed_of_readsSafely {bytes : Bytes} (fills : lz4.Fills)
    (safe : ReadsSafely lz4 bytes) : WellFramed lz4 bytes := by
  have fits := not_not.mp (mt loadIndex_eq_panic_iff.mpr safe.loadIndex)
  have located : headerSize + indexFooterSize ≤ bytes.length →
      pageIndex bytes = decodePageIndex (storedIndex bytes) := by
    intro long
    rw [pageIndex_eq_loadIndex long, loadIndex_of_fits fits.1 fits.2]
  refine ⟨fits.1, fits.2, ?_, ?_, ?_⟩
  · intro string member
    exact (Varint.shifts_lt_iff string).mp
      (safe.shifts fits.1 fits.2 string member)
  · intro long index decoded pageSize before elem after same all
    by_contra misfit
    have panicked : readPages lz4 bytes pageSize index = .error .panic :=
      readPages_eq_panic_iff.mpr ⟨before, elem, after, same, all, misfit⟩
    apply safe.forEachIndexedPage Unit (fun _ _ => .ok ())
      (by rintro _ _ ⟨⟩) pageSize ()
    rw [Wire.forEachIndexedPage, located long, decoded]
    dsimp only
    rw [forEachEntry_unit, panicked]
    rfl
  · intro long header headed index decoded all
    obtain ⟨pages, read⟩ := readPages_of_allDecode all
    exact (applyObject_ne_panic_iff fills long headed
      (by rw [located long, decoded]) read).mp (safe.applyObject [])

/-- Bytes read as a frame, as an index or as a whole object never make a
reader panic, exactly when their fields are in range. -/
theorem reads_without_panic_iff (fills : lz4.Fills) (bytes : Bytes) :
    ((∀ pageSize, decodePageFrame lz4 bytes pageSize ≠ .error .panic) ↔
        FrameFits bytes) ∧
      ((decodePageIndex bytes ≠ .error .panic ∧
          ∀ string ∈ varintReads bytes,
            ∀ performed ∈ Varint.shifts 0 string, performed < 64) ↔
        ∀ string ∈ varintReads bytes, Varint.width string ≤ 10) ∧
      (ReadsSafely lz4 bytes ↔ WellFramed lz4 bytes) := by
  refine ⟨?_, ?_, wellFramed_of_readsSafely fills,
    fun framed => framed.readsSafely fills⟩
  · simp only [ne_eq, decodePageFrame_eq_panic_iff, not_not, forall_const]
  · simp only [Varint.shifts_lt_iff, ne_eq, decodePageIndex_ne_panic,
      not_false_eq_true, true_and]

/-- The reader of stored frames, with buffers that are filled or refused. -/
def fillingLz4 : Lz4 where
  compress := storedLz4.compress
  readExact frame length :=
    (storedLz4.readExact frame length).filter fun data => data.length = length
  decompressInto _ _ := none

theorem fillingLz4_fills : fillingLz4.Fills where
  frame := by
    intro frame length data filled
    simpa using (Option.filter_eq_some_iff.mp filled).2
  block := by
    rintro _ _ _ ⟨⟩

/-- An object with one stored page, and what its index, its page header and its
footer say. -/
def onePageObject (commit pgno : UInt32) (flags : UInt16)
    (indexLen : UInt64) : Bytes :=
  let frame := PageHeader.encode ⟨pgno, flags⟩ ++
    storedFrame (List.replicate 512 0)
  let index := Varint.encode 1 ++ (Varint.encode 100 ++
    (Varint.encode (UInt64.ofNat frame.length) ++ [0]))
  { twoPageHeader with commit := commit }.encode ++ (frame ++
    (List.replicate 6 0 ++
      (index ++ (u64ToBe indexLen ++ Trailer.encode ⟨0, 0⟩))))

/-- The entry of its page. -/
def onePageEntry : PageIndexElem where
  pgno := 1
  offset := 100
  size := UInt64.ofNat
    (pageHeaderSize + (storedFrame (List.replicate 512 0)).length)

theorem onePageObject_framed :
    WellFramed fillingLz4 (onePageObject 1 1 0 5) := by
  have stored : decodePageIndex (storedIndex (onePageObject 1 1 0 5)) =
      .ok [onePageEntry] := by
    decide +kernel
  have headed : Header.decode (onePageObject 1 1 0 5) =
      .ok { twoPageHeader with commit := 1 } := by
    decide +kernel
  have varints : (varintReads (storedIndex (onePageObject 1 1 0 5))).all
      fun string => decide (Varint.width string ≤ 10) := by
    decide +kernel
  have pgno : (beU32 (frameOf (onePageObject 1 1 0 5) onePageEntry) 0).toNat =
      1 := by
    decide +kernel
  have flags : beU16 (frameOf (onePageObject 1 1 0 5) onePageEntry) 4 &&&
      pageHeaderFlagSize = 0 := by
    decide +kernel
  refine ⟨by decide +kernel, by decide +kernel, ?_, ?_, ?_⟩
  · intro string member
    exact of_decide_eq_true (List.all_eq_true.mp varints string member)
  · intro _ index decoded pageSize before elem after same _
    rw [stored] at decoded
    cases decoded
    have only : elem = onePageEntry := by
      have member : elem ∈ [onePageEntry] := by
        rw [same]
        exact List.mem_append_right _ List.mem_cons_self
      exact List.mem_singleton.mp member
    rw [only]
    exact ⟨by decide +kernel, fun _ _ present => absurd flags present⟩
  · intro _ header decodedHeader index decoded _ elem member
    rw [stored] at decoded
    rw [headed] at decodedHeader
    cases decoded
    cases decodedHeader
    rw [List.mem_singleton.mp member, pgno]
    decide

theorem reads_without_panic_iff_one_page :
    ReadsSafely fillingLz4 (onePageObject 1 1 0 5) :=
  (reads_without_panic_iff fillingLz4_fills _).2.2.mpr onePageObject_framed

/-- A field at a time: the object reads well, then with an index longer than
the file, a page past the end, a page 0, and a block longer than its frame. -/
theorem onePageObject_panics :
    (readFile fillingLz4 (onePageObject 1 1 0 5)).isOk = true ∧
      readFile fillingLz4 (onePageObject 1 1 0 5000) = .error .panic ∧
      pageIndex (onePageObject 1 1 0 5000) = .error .panic ∧
      loadIndex (onePageObject 1 1 0 5000) = .error .panic ∧
      applyObject fillingLz4 (onePageObject 1 2 0 5) [] = .error .panic ∧
      applyObject fillingLz4 (onePageObject 1 0 2 5) [] = .error .panic ∧
      readFile fillingLz4 (onePageObject 1 1 1 5) = .error .panic ∧
      loadIndex [] = .error .panic ∧
      70 ∈ Varint.shifts 0 (List.replicate 10 0x80 ++ [0]) ∧
      ¬∀ bytes, ReadsSafely fillingLz4 bytes := by
  refine ⟨by decide +kernel, by decide +kernel, by decide +kernel,
    by decide +kernel, by decide +kernel, by decide +kernel, by decide +kernel,
    by decide +kernel, by decide +kernel, ?_⟩
  intro safe
  exact (safe []).loadIndex (by decide +kernel)

end Wire

end Literstream
