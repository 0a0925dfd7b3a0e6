import Literstream.Ltx.Wire.Panics

/-!
# The file checksum that no reader compares

The encoder closes a file with a checksum over everything in front of it.
`readFile` decodes the trailer and the page walk does not even look at it, so
neither tells a damaged file from a good one.
-/

namespace Literstream

namespace Wire

variable {lz4 : Lz4}

/-- The last eight bytes. -/
def fileChecksum (bytes : Bytes) : Checksum := beU64 bytes (bytes.length - 8)

/-- Hash the page headers and the uncompressed pages of the entries. -/
def hashPages (lz4 : Lz4) (bytes : Bytes) (pageSize : Nat) (hasher : Hasher) :
    List PageIndexElem → Option Hasher
  | [] => some hasher
  | elem :: index =>
      match decodeEntry lz4 bytes pageSize elem with
      | .error _ => none
      | .ok (header, data) =>
          hashPages lz4 bytes pageSize
            ((hasher.update header.encode).update data) index

/-- The checksum that the encoder would have closed the file with: of the
header, the pages, their terminator, the index with its length, and the first
half of the trailer. -/
def encoderChecksum (lz4 : Lz4) (bytes : Bytes) : Option Checksum :=
  match decodePageIndex (storedIndex bytes) with
  | .error _ => none
  | .ok index =>
      let opened := Hasher.new.update (bytes.take headerSize)
      (hashPages lz4 bytes (beU32 bytes 8).toNat opened index).map fun paged =>
        (((paged.update (List.replicate pageHeaderSize 0)).update
          (storedIndex bytes)).update
            ((bytes.drop (bytes.length - indexFooterSize)).take 16)).checksum

/-- Reading succeeds only under the right checksum. -/
structure VerifiesChecksum (lz4 : Lz4) (bytes : Bytes) : Prop where
  readFile : ∀ file, Wire.readFile lz4 bytes = .ok file →
    encoderChecksum lz4 bytes = some (fileChecksum bytes)
  forEachIndexedPage : ∀ (σ : Type) (f : σ → WirePage → Except WireError σ)
    (pageSize : Nat) (state final : σ),
    Wire.forEachIndexedPage id lz4 bytes pageSize f state = .ok final →
      encoderChecksum lz4 bytes = some (fileChecksum bytes)

/-- The index lies in the file and all of its entries decode. -/
def Readable (lz4 : Lz4) (bytes : Bytes) : Prop :=
  headerSize + indexFooterSize ≤ bytes.length ∧
    indexLength bytes ≤ bytes.length - indexFooterSize ∧
    ∃ pageSize index, decodePageIndex (storedIndex bytes) = .ok index ∧
      AllDecode lz4 bytes pageSize index

/-! ## The checksum of a written file -/

/-- An index behind which stand its length and the trailer. -/
theorem storedIndex_layout {start listed : Bytes} {trailer : Trailer}
    (small : listed.length < 2 ^ 63) :
    storedIndex (start ++ (listed ++
      (u64ToBe (UInt64.ofNat listed.length) ++ trailer.encode))) = listed := by
  have length : (start ++ (listed ++
      (u64ToBe (UInt64.ofNat listed.length) ++ trailer.encode))).length -
        indexFooterSize = start.length + listed.length := by
    simp only [List.length_append, length_u64ToBe, Trailer.length_encode,
      indexFooterSize]
    omega
  have fits : (UInt64.ofNat listed.length).toNat = listed.length := by
    rw [UInt64.toNat_ofNat']
    exact Nat.mod_eq_of_lt (by omega)
  have stated : indexLength (start ++ (listed ++
      (u64ToBe (UInt64.ofNat listed.length) ++ trailer.encode))) =
        listed.length := by
    rw [indexLength, length, ← List.append_assoc,
      beU64_skip (by rw [List.length_append]), List.length_append,
      Nat.sub_self, beU64_append, fits]
  rw [storedIndex, stated, length, Nat.add_sub_cancel, List.drop_left,
    List.take_left]

theorem hashPages_located {pageSize : Nat} {bytes : Bytes}
    {index : List PageIndexElem} {pages : List WirePage} (hasher : Hasher)
    (givesBack : lz4.GivesBack) (small : bytes.length < 2 ^ 63)
    (entries : List.Forall₂ (Locates lz4 pageSize bytes) index pages) :
    hashPages lz4 bytes pageSize hasher index =
      some (hasher.update (pages.flatMap hashedPage)) := by
  induction entries generalizing hasher with
  | nil => simp [hashPages, Hasher.update, Crc.tableRun]
  | cons located _ ih =>
      rw [hashPages, located.decodeEntry_eq givesBack small]
      dsimp only
      rw [ih, Hasher.update_append, Hasher.update_append, List.flatMap_cons,
        hashedPage, List.append_assoc]

theorem fileChecksum_append (front : Bytes) (checksum : Checksum) :
    fileChecksum (front ++ u64ToBe checksum) = checksum := by
  rw [fileChecksum, List.length_append, length_u64ToBe, Nat.add_sub_cancel,
    beU64_skip (Nat.le_refl _), Nat.sub_self]
  simpa using beU64_append checksum []

section Encoded

variable {header : Header} {pages : List WirePage} {bytes : Bytes}
  {trailer : Trailer} {index : List PageIndexElem}

theorem Finished.exists_front
    (finished : Finished lz4 header pages bytes trailer index) :
    ∃ front, bytes = front ++ u64ToBe trailer.fileChecksum := by
  obtain ⟨front, ends, -⟩ := finished.ends
  refine ⟨front ++ (tailBytes index ++ u64ToBe trailer.postApplyChecksum), ?_⟩
  rw [ends, Trailer.encode]
  simp only [List.append_assoc]

theorem Finished.fileChecksum_ne_zero
    (finished : Finished lz4 header pages bytes trailer index) :
    trailer.fileChecksum ≠ 0 := by
  rw [finished.checksum]
  intro zero
  have flag := (UInt64.or_eq_zero_iff.mp zero).1
  exact absurd flag (by decide)

/-- An encoded file holds the checksum that its bytes ask for. -/
theorem Finished.encoderChecksum_eq (givesBack : lz4.GivesBack)
    (finished : Finished lz4 header pages bytes trailer index) :
    encoderChecksum lz4 bytes = some trailer.fileChecksum ∧
      fileChecksum bytes = trailer.fileChecksum := by
  have small := finished.small
  obtain ⟨rest, starts⟩ := finished.starts
  obtain ⟨front, ends, -⟩ := finished.ends
  obtain ⟨start, startIs⟩ :
      ∃ start, start = front ++ List.replicate pageHeaderSize 0 := ⟨_, rfl⟩
  obtain ⟨listed, listedIs⟩ : ∃ listed, listed = pageIndexBytes index :=
    ⟨_, rfl⟩
  have whole : bytes = start ++ (listed ++
      (u64ToBe (UInt64.ofNat listed.length) ++ trailer.encode)) := by
    rw [ends, startIs, listedIs, tailBytes]
    simp only [List.append_assoc]
  have stored : storedIndex bytes = listed := by
    rw [whole]
    apply storedIndex_layout
    rw [whole, List.length_append, List.length_append] at small
    omega
  have opened : bytes.take headerSize = header.encode := by
    rw [starts]
    exact List.take_left' header.length_encode
  have sized : beU32 bytes 8 = header.pageSize := by
    rw [starts]
    exact (Header.decode_eq_ok
      (Header.decode_encode rest finished.sized)).2.symm
  have closing : (bytes.drop (bytes.length - indexFooterSize)).take 16 =
      u64ToBe (UInt64.ofNat listed.length) ++
        u64ToBe trailer.postApplyChecksum := by
    have behind : bytes.length - indexFooterSize =
        (start ++ listed).length := by
      rw [whole]
      simp only [List.length_append, length_u64ToBe, Trailer.length_encode,
        indexFooterSize]
      omega
    rw [behind, whole, ← List.append_assoc, List.drop_left, Trailer.encode,
      ← List.append_assoc]
    exact List.take_left' (by simp)
  have decoded : decodePageIndex listed = .ok index := by
    rw [listedIs]
    exact decodePageIndex_pageIndexBytes (entries_positive finished.entries)
  constructor
  · rw [encoderChecksum, stored, decoded]
    dsimp only
    rw [sized, hashPages_located _ givesBack small finished.entries, opened,
      closing, Option.map_some, Hasher.update_append, Hasher.update_append,
      Hasher.update_append, Hasher.update_append, Hasher.checksum_eq_crc64,
      finished.checksum, tailBytes, listedIs]
    simp only [List.append_assoc]
  · obtain ⟨front, rfl⟩ := finished.exists_front
    exact fileChecksum_append front _

end Encoded

/-! ## Readers accept every checksum -/

theorem pageIndex_eq_ok_iff {bytes : Bytes} {index : List PageIndexElem} :
    pageIndex bytes = .ok index ↔
      headerSize + indexFooterSize ≤ bytes.length ∧
        indexLength bytes ≤ bytes.length - indexFooterSize ∧
        decodePageIndex (storedIndex bytes) = .ok index := by
  rcases Nat.lt_or_ge bytes.length (headerSize + indexFooterSize) with
    short | long
  · rw [pageIndex_of_short short]
    constructor
    · rintro ⟨⟩
    · exact fun found => absurd found.1 (Nat.not_le.mpr short)
  · rw [pageIndex_eq_loadIndex long]
    by_cases fits : indexLength bytes ≤ bytes.length - indexFooterSize
    · rw [loadIndex_of_fits (by omega) fits]
      simp [long, fits]
    · rw [loadIndex_eq_panic_iff.mpr fun both => fits both.2]
      simp [fits]

theorem allDecode_of_forEachEntry {σ : Type} {bytes : Bytes} {pageSize : Nat}
    {index : List PageIndexElem} {f : σ → WirePage → Except WireError σ}
    {state final : σ}
    (walked : forEachEntry id lz4 bytes pageSize f state index = .ok final) :
    AllDecode lz4 bytes pageSize index := by
  induction index generalizing state with
  | nil => simp [AllDecode]
  | cons first index ih =>
      rw [forEachEntry] at walked
      split at walked
      · cases walked
      · rename_i header data decoded
        rw [bind_eq_ok] at walked
        obtain ⟨next, _, later⟩ := walked
        intro elem member
        rcases List.mem_cons.mp member with rfl | further
        · exact ⟨_, decoded⟩
        · exact ih later elem further

theorem readable_of_forEachIndexedPage {σ : Type} {bytes : Bytes}
    {pageSize : Nat} {f : σ → WirePage → Except WireError σ} {state final : σ}
    (walked : forEachIndexedPage id lz4 bytes pageSize f state = .ok final) :
    Readable lz4 bytes := by
  unfold forEachIndexedPage at walked
  split at walked
  · cases walked
  · rename_i index indexed
    obtain ⟨long, fits, decoded⟩ := pageIndex_eq_ok_iff.mp indexed
    exact ⟨long, fits, pageSize, index, decoded, allDecode_of_forEachEntry walked⟩

theorem readable_of_readFile {bytes : Bytes} {file : DecodedFile}
    (read : readFile lz4 bytes = .ok file) : Readable lz4 bytes := by
  simp only [readFile, bind_eq_ok] at read
  obtain ⟨header, _, index, indexed, _, _, pages, pagesRead, _⟩ := read
  obtain ⟨long, fits, decoded⟩ := pageIndex_eq_ok_iff.mp indexed
  exact ⟨long, fits, _, index, decoded, allDecode_of_readPages pagesRead⟩

/-- A walk through a readable file ends well, whatever its checksum. -/
theorem Readable.encoderChecksum_eq {bytes : Bytes}
    (readable : Readable lz4 bytes) (verifies : VerifiesChecksum lz4 bytes) :
    encoderChecksum lz4 bytes = some (fileChecksum bytes) := by
  obtain ⟨long, fits, pageSize, index, decoded, all⟩ := readable
  apply verifies.forEachIndexedPage Unit (fun _ _ => .ok ()) pageSize () ()
  obtain ⟨pages, read⟩ := readPages_of_allDecode all
  rw [forEachIndexedPage, pageIndex_eq_ok_iff.mpr ⟨long, fits, decoded⟩]
  dsimp only
  rw [forEachEntry_unit, read]
  rfl

theorem verifiesChecksum_of_right {bytes : Bytes}
    (right : Readable lz4 bytes →
      encoderChecksum lz4 bytes = some (fileChecksum bytes)) :
    VerifiesChecksum lz4 bytes where
  readFile := fun _ read => right (readable_of_readFile read)
  forEachIndexedPage := fun _ _ _ _ _ walked =>
    right (readable_of_forEachIndexedPage walked)

/-- A written file is verified as it is. -/
theorem Finished.verifiesChecksum {header : Header} {pages : List WirePage}
    {bytes : Bytes} {trailer : Trailer} {index : List PageIndexElem}
    (givesBack : lz4.GivesBack)
    (finished : Finished lz4 header pages bytes trailer index) :
    VerifiesChecksum lz4 bytes := by
  obtain ⟨recomputed, stored⟩ := finished.encoderChecksum_eq givesBack
  apply verifiesChecksum_of_right
  intro _
  rw [recomputed, stored]

/-- No reader compares the checksum: what they accept is verified only where
the checksum happens to be right. -/
theorem verifies_checksum_iff (lz4 : Lz4) (bytes : Bytes) :
    VerifiesChecksum lz4 bytes ↔
      (Readable lz4 bytes →
        encoderChecksum lz4 bytes = some (fileChecksum bytes)) := by
  constructor
  · intro verifies readable
    exact readable.encoderChecksum_eq verifies
  · intro right
    exact verifiesChecksum_of_right right

/-! ## One front, many checksums -/

section Front

variable {front last other : Bytes}

theorem drop_take_front {offset count : Nat}
    (inside : offset + count ≤ front.length) :
    ((front ++ last).drop offset).take count =
      (front.drop offset).take count := by
  rw [List.drop_append_of_le_length (by omega),
    List.take_append_of_le_length (by rw [List.length_drop]; omega)]

theorem indexLength_front (eight : last.length = 8)
    (long : 16 ≤ front.length) :
    indexLength (front ++ last) =
      BigEndian.at_ 8 front (front.length - 16) % 2 ^ 64 := by
  have place : (front ++ last).length - indexFooterSize =
      front.length - 16 := by
    rw [List.length_append, eight, indexFooterSize, trailerSize]
    omega
  rw [indexLength, place, beU64,
    BigEndian.at_append_left _ (by omega), UInt64.toNat_ofNat']

theorem storedIndex_front (eight : last.length = 8) (still : other.length = 8)
    (long : 16 ≤ front.length)
    (fits : indexLength (front ++ last) ≤
      (front ++ last).length - indexFooterSize) :
    storedIndex (front ++ other) = storedIndex (front ++ last) := by
  have sameLength : indexLength (front ++ other) =
      indexLength (front ++ last) := by
    rw [indexLength_front eight long, indexLength_front still long]
  rw [List.length_append, eight, indexFooterSize, trailerSize] at fits
  unfold storedIndex
  rw [sameLength, List.length_append, List.length_append, eight, still,
    indexFooterSize, trailerSize, drop_take_front (by omega),
    drop_take_front (by omega)]

theorem decodeEntry_front {pageSize : Nat} {elem : PageIndexElem}
    (same : last.length = other.length)
    (inside : elem.offset.toNat + elem.size.toNat ≤ front.length) :
    decodeEntry lz4 (front ++ other) pageSize elem =
      decodeEntry lz4 (front ++ last) pageSize elem := by
  have sliced : slice (front ++ other) elem.offset.toNat
      (elem.offset.toNat + elem.size.toNat) =
        slice (front ++ last) elem.offset.toNat
          (elem.offset.toNat + elem.size.toNat) := by
    simp only [slice, Nat.add_sub_cancel_left, drop_take_front inside,
      List.length_append, same]
  unfold decodeEntry
  dsimp only
  rw [sliced, List.length_append, List.length_append, same]

theorem hashPages_front {pageSize : Nat} {index : List PageIndexElem}
    (hasher : Hasher) (same : last.length = other.length)
    (inside : ∀ elem ∈ index,
      elem.offset.toNat + elem.size.toNat ≤ front.length) :
    hashPages lz4 (front ++ other) pageSize hasher index =
      hashPages lz4 (front ++ last) pageSize hasher index := by
  induction index generalizing hasher with
  | nil => rfl
  | cons first index ih =>
      rw [hashPages, hashPages,
        decodeEntry_front same (inside first (by simp))]
      split
      · rfl
      · exact ih _ fun elem member => inside elem (by simp [member])

end Front

/-- A readable file whose frames end in front of the checksum stays readable
under any other checksum, and at most one of them is the right one. -/
theorem at_most_one_checksum {front : Bytes} {checksum other : Checksum}
    (readable : Readable lz4 (front ++ u64ToBe checksum))
    (inside : ∀ index,
      decodePageIndex (storedIndex (front ++ u64ToBe checksum)) = .ok index →
      ∀ elem ∈ index, elem.offset.toNat + elem.size.toNat ≤ front.length)
    (verifies : VerifiesChecksum lz4 (front ++ u64ToBe checksum))
    (differs : other ≠ checksum) :
    ¬VerifiesChecksum lz4 (front ++ u64ToBe other) := by
  have right := readable.encoderChecksum_eq verifies
  obtain ⟨long, fits, pageSize, index, decoded, all⟩ := readable
  have eight := length_u64ToBe checksum
  have still := length_u64ToBe other
  have room : headerSize + 16 ≤ front.length := by
    rw [List.length_append, eight, indexFooterSize, trailerSize] at long
    omega
  have sameIndex := storedIndex_front eight still (by omega) fits
  have within := inside index decoded
  have readable' : Readable lz4 (front ++ u64ToBe other) := by
    refine ⟨?_, ?_, pageSize, index, by rw [sameIndex, decoded], ?_⟩
    · rw [List.length_append, eight] at long
      rw [List.length_append, still]
      exact long
    · rw [indexLength_front still (by omega)]
      rw [indexLength_front eight (by omega), List.length_append, eight]
        at fits
      rw [List.length_append, still]
      exact fits
    · intro elem member
      rw [decodeEntry_front (by rw [eight, still]) (within elem member)]
      exact all elem member
  have sameSum : encoderChecksum lz4 (front ++ u64ToBe other) =
      encoderChecksum lz4 (front ++ u64ToBe checksum) := by
    have sized : ∀ last : Bytes, beU32 (front ++ last) 8 = beU32 front 8 := by
      intro last
      rw [headerSize] at room
      rw [beU32, beU32, BigEndian.at_append_left _ (by omega)]
    have place : ∀ last : Bytes, last.length = 8 →
        (front ++ last).length - indexFooterSize = front.length - 16 := by
      intro last length
      rw [List.length_append, length, indexFooterSize, trailerSize]
      omega
    unfold encoderChecksum
    rw [sameIndex, decoded]
    dsimp only
    rw [sized, sized, place _ eight, place _ still,
      drop_take_front (by omega), drop_take_front (by omega),
      List.take_append_of_le_length (by omega),
      List.take_append_of_le_length (by omega),
      hashPages_front _ (by rw [eight, still]) within]
  intro verifies'
  have wrong := readable'.encoderChecksum_eq verifies'
  rw [sameSum, right, fileChecksum_append, fileChecksum_append] at wrong
  exact differs (Option.some.inj wrong).symm

/-- The file of two pages, and the same file with its checksum wiped. -/
def writtenObject : Bytes :=
  match encodeFile storedLz4 twoPageHeader twoPageCalls with
  | .ok (bytes, _) => bytes
  | .error _ => []

def damagedObject : Bytes :=
  writtenObject.take (writtenObject.length - 8) ++ List.replicate 8 0

/-- The written file is verified, so no other checksum would do. -/
theorem damagedObject_unverified :
    ¬VerifiesChecksum storedLz4 damagedObject := by
  have accepted :
      (encodeFile storedLz4 twoPageHeader twoPageCalls).isOk = true := by
    decide +kernel
  have walked : forEachIndexedPage id storedLz4 writtenObject 512
      (fun count _ => .ok (count + 1)) 0 = .ok 2 := by
    decide +kernel
  have within :
      ∀ index ∈ (decodePageIndex (storedIndex writtenObject)).toOption,
        ∀ elem ∈ index, elem.offset.toNat + elem.size.toNat ≤
          writtenObject.length - 8 := by
    decide +kernel
  obtain ⟨⟨bytes, trailer⟩, encoded⟩ := exists_of_isOk accepted
  have written : writtenObject = bytes := by
    unfold writtenObject
    rw [encoded]
  obtain ⟨index, finished⟩ := encodeFile_finished encoded
  have verified := finished.verifiesChecksum storedLz4_givesBack
  rw [written] at walked within
  have nonzero := finished.fileChecksum_ne_zero
  obtain ⟨front, whole⟩ := finished.exists_front
  have wiped : damagedObject = front ++ u64ToBe 0 := by
    rw [damagedObject, written, whole, List.length_append, length_u64ToBe,
      Nat.add_sub_cancel, List.take_left' rfl]
    rfl
  rw [whole] at walked within verified
  rw [List.length_append, length_u64ToBe, Nat.add_sub_cancel] at within
  rw [wiped]
  apply at_most_one_checksum _ _ verified nonzero.symm
  · exact readable_of_forEachIndexedPage walked
  · intro index decoded
    exact within index (by rw [decoded]; rfl)

/-- Both ways of reading accept the damaged file. -/
theorem damagedObject_is_read :
    (readFile storedLz4 damagedObject).map DecodedFile.pages =
        .ok [(3, countingPage), (300, countingPage)] ∧
      forEachIndexedPage id storedLz4 damagedObject 512
        (fun count _ => .ok (count + 1)) 0 = .ok 2 ∧
      encoderChecksum storedLz4 damagedObject ≠
        some (fileChecksum damagedObject) ∧
      ¬∀ bytes, VerifiesChecksum storedLz4 bytes := by
  have walked : forEachIndexedPage id storedLz4 damagedObject 512
      (fun count _ => .ok (count + 1)) 0 = .ok 2 := by
    decide +kernel
  have wrong : encoderChecksum storedLz4 damagedObject ≠
      some (fileChecksum damagedObject) := by
    intro same
    exact damagedObject_unverified (verifiesChecksum_of_right fun _ => same)
  refine ⟨by decide +kernel, walked, wrong, ?_⟩
  intro verifies
  exact damagedObject_unverified (verifies damagedObject)

end Wire

end Literstream
