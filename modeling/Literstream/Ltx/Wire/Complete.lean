import Literstream.Ltx.Total
import Literstream.Ltx.Wire.Newest
import Literstream.Ltx.Wire.Snapshot

/-!
# When a snapshot file holds every page

The encoder of a snapshot skips nothing but the lock page.  It does not look at
the commit again when it finishes, so the pages end where the calls end.
-/

namespace Literstream

namespace Wire

/-- The index lists the pages of the image. -/
def Complete (header : Header) (index : List PageIndexElem) : Prop :=
  ∀ pgno, pgno ∈ index.map PageIndexElem.pgno ↔
    pgno ≠ 0 ∧ pgno ≤ header.commit ∧ pgno ≠ header.lockPgno

/-- The last page of the image. -/
def lastPage (header : Header) : UInt32 :=
  if header.commit = header.lockPgno then header.commit - 1 else header.commit

/-- The pages of a snapshot so far are those up to the last one, without the
lock page. -/
structure Contiguous (header : Header) (prevPgno : Nat)
    (pages : List WirePage) : Prop where
  members : ∀ pgno : UInt32, pgno ∈ pages.map Prod.fst ↔
    1 ≤ pgno.toNat ∧ pgno.toNat ≤ prevPgno ∧
      pgno.toNat ≠ header.lockPgno.toNat
  inside : prevPgno ≤ header.commit.toNat
  unlocked : prevPgno ≠ header.lockPgno.toNat

theorem two_le_lockPgno_toNat {header : Header}
    (sized : isValidPageSize header.pageSize.toNat = true) :
    2 ≤ header.lockPgno.toNat := by
  rw [Encoder.toNat_lockPgno]
  exact two_le_lockPgno sized

namespace Encoder

variable {lz4 : Lz4} {header : Header}

theorem call_contiguous {encoder next : Encoder} {pages : List WirePage}
    {call : Call}
    (headerIs : encoder.header = some header)
    (sized : isValidPageSize header.pageSize.toNat = true)
    (snapshot : header.isSnapshot = true)
    (contiguous : Contiguous header encoder.prevPgno.toNat pages)
    (called : encoder.call lz4 call = .ok next) :
    Contiguous header next.prevPgno.toNat (pages ++ call.page?.toList) := by
  cases call with
  | setPostApplyChecksum checksum =>
      cases called
      have same : pages ++ (Call.setPostApplyChecksum checksum).page?.toList =
          pages := List.append_nil _
      rw [same]
      exact contiguous
  | encodePage pgno data =>
      obtain ⟨_, checked, _, _, rfl⟩ := encodePage_eq_ok headerIs called
      obtain ⟨_, positive, inside, unlocked, ordered⟩ := checkPage_eq_ok checked
      have bound := UInt32.le_iff_toNat_le.mp inside
      have notLock : pgno.toNat ≠ header.lockPgno.toNat := fun same =>
        unlocked (UInt32.toNat_inj.mp same)
      have lock := two_le_lockPgno_toNat sized
      have before := contiguous.unlocked
      -- The page follows the last one, or the lock page between them.
      have step : ∀ number, (1 ≤ number ∧ number ≤ encoder.prevPgno.toNat ∧
          number ≠ header.lockPgno.toNat) ∨ number = pgno.toNat ↔
          1 ≤ number ∧ number ≤ pgno.toNat ∧
            number ≠ header.lockPgno.toNat := by
        intro number
        rcases inOrder_toNat positive ordered with ⟨_, order⟩ | ⟨later, _⟩
        · omega
        · rw [later] at snapshot
          cases snapshot
      refine ⟨?_, bound, notLock⟩
      intro other
      dsimp only
      rw [← step, ← contiguous.members, List.map_append, List.mem_append]
      refine or_congr_right ?_
      change other ∈ [pgno] ↔ _
      rw [List.mem_singleton, UInt32.toNat_inj]

theorem calls_contiguous {calls : List Call} {encoder next : Encoder}
    {pages : List WirePage}
    (wrote : encoder.Wrote lz4 header pages)
    (snapshot : header.isSnapshot = true)
    (contiguous : Contiguous header encoder.prevPgno.toNat pages)
    (called : encoder.calls lz4 calls = .ok next) :
    Contiguous header next.prevPgno.toNat (pages ++ pagesOf calls) := by
  induction calls generalizing encoder pages with
  | nil =>
      cases called
      rw [pagesOf, List.filterMap_nil, List.append_nil]
      exact contiguous
  | cons call rest ih =>
      rw [Encoder.calls, bind_eq_ok] at called
      obtain ⟨middle, first, later⟩ := called
      have done := ih (call_wrote wrote first)
        (call_contiguous wrote.headerIs wrote.sized snapshot contiguous first)
        later
      rwa [List.append_assoc, ← pagesOf_cons] at done

end Encoder

theorem toNat_lastPage {header : Header}
    (sized : isValidPageSize header.pageSize.toNat = true) :
    header.commit.toNat = header.lockPgno.toNat ∧
        (lastPage header).toNat = header.commit.toNat - 1 ∨
      header.commit.toNat ≠ header.lockPgno.toNat ∧
        (lastPage header).toNat = header.commit.toNat := by
  unfold lastPage
  by_cases locked : header.commit = header.lockPgno
  · have lock := two_le_lockPgno_toNat sized
    have below : (1 : UInt32) ≤ header.commit := by
      rw [UInt32.le_iff_toNat_le, locked]
      exact Nat.le_of_succ_le lock
    rw [if_pos locked]
    exact .inl ⟨congrArg UInt32.toNat locked,
      UInt32.toNat_sub_of_le _ _ below⟩
  · rw [if_neg locked]
    exact .inr ⟨fun same => locked (UInt32.toNat_inj.mp same), rfl⟩

theorem lastPage_le {header : Header}
    (sized : isValidPageSize header.pageSize.toNat = true) :
    lastPage header ≤ header.commit := by
  rw [UInt32.le_iff_toNat_le]
  rcases toNat_lastPage sized with ⟨_, last⟩ | ⟨_, last⟩ <;> omega

theorem complete_iff_toNat {header : Header} {index : List PageIndexElem} :
    Complete header index ↔ ∀ pgno, pgno ∈ index.map PageIndexElem.pgno ↔
      1 ≤ pgno.toNat ∧ pgno.toNat ≤ header.commit.toNat ∧
        pgno.toNat ≠ header.lockPgno.toNat := by
  refine forall_congr' fun pgno => iff_congr Iff.rfl ?_
  rw [UInt32.le_iff_toNat_le, Nat.one_le_iff_ne_zero,
    ← UInt32.toNat_inj.ne, ← UInt32.toNat_inj.ne]
  rfl

/-- Contiguous pages are complete when the last one is among them. -/
theorem Contiguous.complete_iff {header : Header} {prevPgno : Nat}
    {pages : List WirePage} {index : List PageIndexElem}
    (contiguous : Contiguous header prevPgno pages)
    (sized : isValidPageSize header.pageSize.toNat = true)
    (numbers : index.map PageIndexElem.pgno = pages.map Prod.fst) :
    Complete header index ↔
      header.commit = 0 ∨ lastPage header ∈ pages.map Prod.fst := by
  have inside := contiguous.inside
  have unlocked := contiguous.unlocked
  have lock := two_le_lockPgno_toNat sized
  have last := toNat_lastPage sized
  rw [complete_iff_toNat, numbers, contiguous.members, ← UInt32.toNat_inj]
  change _ ↔ header.commit.toNat = 0 ∨ _
  constructor
  · intro complete
    by_cases empty : header.commit.toNat = 0
    · exact .inl empty
    · have listed := (complete (lastPage header)).mpr (by omega)
      exact .inr ((contiguous.members _).mp listed)
  · intro reached pgno
    rw [contiguous.members]
    omega

/-! ## The files -/

/-- A snapshot of the encoder is complete when its last page was encoded. -/
theorem encodeFile_complete_iff {lz4 : Lz4} {header : Header}
    {calls : List Call} {bytes : Bytes} {trailer : Trailer}
    (snapshot : header.isSnapshot = true)
    (encoded : encodeFile lz4 header calls = .ok (bytes, trailer)) :
    ∃ index, pageIndex bytes = .ok index ∧
      (Complete header index ↔
        header.commit = 0 ∨
          lastPage header ∈ (pagesOf calls).map Prod.fst) := by
  obtain ⟨index, finished⟩ := encodeFile_finished encoded
  refine ⟨index, finished.pageIndex_eq, ?_⟩
  obtain ⟨opened, headed, encoded⟩ := bind_eq_ok.mp encoded
  obtain ⟨paged, called, _⟩ := bind_eq_ok.mp encoded
  obtain ⟨_, openedIs⟩ := Encoder.encodeHeader_eq_ok headed
  have lock := two_le_lockPgno_toNat finished.sized
  have start : Contiguous header opened.prevPgno.toNat [] := by
    rw [openedIs]
    change Contiguous header 0 []
    refine ⟨?_, Nat.zero_le _, by omega⟩
    intro pgno
    rw [List.map_nil]
    constructor
    · intro impossible
      cases impossible
    · omega
  have contiguous := Encoder.calls_contiguous
    (Encoder.encodeHeader_wrote headed) snapshot start called
  exact contiguous.complete_iff finished.sized
    (map_pgno_of_locates finished.entries)

/-- The entries of all inputs. -/
theorem exists_mem_pageIndexes {inputs : List Bytes}
    {indexes : List (List PageIndexElem)}
    (indexed : pageIndexes inputs = .ok indexes) (elem : PageIndexElem) :
    (∃ number : Nat, elem ∈ indexes[number]?.getD []) ↔
      ∃ input ∈ inputs, ∃ index, pageIndex input = .ok index ∧
        elem ∈ index := by
  induction inputs generalizing indexes with
  | nil =>
      cases indexed
      simp
  | cons input rest ih =>
      obtain ⟨own, read, indexed⟩ := bind_eq_ok.mp indexed
      obtain ⟨others, later, returned⟩ := bind_eq_ok.mp indexed
      cases returned
      constructor
      · rintro ⟨number, member⟩
        cases number with
        | zero => exact ⟨input, List.mem_cons_self, own, read, member⟩
        | succ number =>
            obtain ⟨other, there, held⟩ := (ih later).mp ⟨number, member⟩
            exact ⟨other, List.mem_cons_of_mem _ there, held⟩
      · rintro ⟨other, there, index, found, member⟩
        rcases List.mem_cons.mp there with rfl | there
        · rw [read] at found
          cases found
          exact ⟨0, member⟩
        · obtain ⟨number, held⟩ :=
            (ih later).mpr ⟨other, there, index, found, member⟩
          exact ⟨number + 1, held⟩

/-- A merge writes a page up to the commit when an input lists it. -/
theorem mem_wonPages_iff_listed {lz4 : Lz4} {inputs : List Bytes}
    {header : Header} {indexes : List (List PageIndexElem)}
    {pages : List WirePage} {pgno : UInt32}
    (indexed : pageIndexes inputs = .ok indexes)
    (won : wonPages lz4 inputs header (wonEntries indexes) = .ok pages)
    (inside : pgno ≤ header.commit) :
    pgno ∈ pages.map Prod.fst ↔
      ∃ input ∈ inputs, ∃ index, pageIndex input = .ok index ∧
        pgno ∈ index.map PageIndexElem.pgno := by
  have keys := KWay.mem_keys_winners
    (KWay.start_consistent PageIndexElem.key indexes) (Nat.le_refl _)
    pgno.toNat
  simp only [KWay.rest_start] at keys
  rw [pgno_mem_wonPages won, wonEntries, keys]
  constructor
  · rintro ⟨_, number, elem, member, same⟩
    obtain ⟨input, there, index, read, listed⟩ :=
      (exists_mem_pageIndexes indexed elem).mp ⟨number, member⟩
    refine ⟨input, there, index, read, ?_⟩
    rw [← UInt32.toNat_inj.mp same]
    exact List.mem_map_of_mem listed
  · rintro ⟨input, there, index, read, listed⟩
    obtain ⟨elem, member, rfl⟩ := List.mem_map.mp listed
    obtain ⟨number, held⟩ := (exists_mem_pageIndexes indexed elem).mpr
      ⟨input, there, index, read, member⟩
    exact ⟨inside, number, elem, held, rfl⟩

theorem mergeToWriter_complete_iff {lz4 : Lz4} {inputs : List Bytes}
    {header : Header} {output : Bytes}
    (snapshot : header.isSnapshot = true)
    (merged : mergeToWriter lz4 inputs header = .ok output) :
    ∃ index, pageIndex output = .ok index ∧
      (Complete header index ↔
        header.commit = 0 ∨ ∃ input ∈ inputs, ∃ entries,
          pageIndex input = .ok entries ∧
            lastPage header ∈ entries.map PageIndexElem.pgno) := by
  obtain ⟨indexes, pages, trailer, indexed, won, encoded⟩ :=
    mergeToWriter_eq_ok merged
  obtain ⟨_, finished⟩ := encodeFile_finished encoded
  obtain ⟨index, read, complete⟩ := encodeFile_complete_iff snapshot encoded
  refine ⟨index, read, complete.trans (or_congr_right ?_)⟩
  rw [pagesOf_map_ofPage]
  exact mem_wonPages_iff_listed indexed won (lastPage_le finished.sized)

/-- A snapshot is complete exactly when its last page was encoded, or was
listed by an input of the merge. -/
theorem snapshot_complete_iff {lz4 : Lz4} {header : Header}
    (snapshot : header.isSnapshot = true) :
    (∀ calls bytes trailer,
      encodeFile lz4 header calls = .ok (bytes, trailer) →
        ∃ index, pageIndex bytes = .ok index ∧
          (Complete header index ↔
            header.commit = 0 ∨
              lastPage header ∈ (pagesOf calls).map Prod.fst)) ∧
    ∀ inputs output, mergeToWriter lz4 inputs header = .ok output →
      ∃ index, pageIndex output = .ok index ∧
        (Complete header index ↔
          header.commit = 0 ∨ ∃ input ∈ inputs, ∃ entries,
            pageIndex input = .ok entries ∧
              lastPage header ∈ entries.map PageIndexElem.pgno) :=
  ⟨fun _ _ _ encoded => encodeFile_complete_iff snapshot encoded,
    fun _ _ merged => mergeToWriter_complete_iff snapshot merged⟩

/-- The header of a snapshot of two pages. -/
def shortHeader : Header := snapshotHeader 512 2 1 0

/-- The second page is missing, in the file and in the merge of no file. -/
theorem encodeFile_short_incomplete :
    shortHeader.isSnapshot = true ∧
      (∃ bytes trailer,
        encodeFile storedLz4 shortHeader [.encodePage 1 countingPage] =
            .ok (bytes, trailer) ∧
          ∃ index, pageIndex bytes = .ok index ∧
            ¬Complete shortHeader index) ∧
      ∃ output, mergeToWriter storedLz4 [] shortHeader = .ok output ∧
        ∃ index, pageIndex output = .ok index ∧
          ¬Complete shortHeader index := by
  have snapshot : shortHeader.isSnapshot = true := by decide
  refine ⟨snapshot, ?_, ?_⟩
  · have accepted :
        (encodeFile storedLz4 shortHeader
          [.encodePage 1 countingPage]).isOk = true := by
      decide +kernel
    have absent : ¬(shortHeader.commit = 0 ∨ lastPage shortHeader ∈
        (pagesOf [.encodePage 1 countingPage]).map Prod.fst) := by
      decide +kernel
    obtain ⟨⟨bytes, trailer⟩, encoded⟩ := exists_of_isOk accepted
    obtain ⟨index, read, complete⟩ := encodeFile_complete_iff snapshot encoded
    exact ⟨bytes, trailer, encoded, index, read,
      fun every => absent (complete.mp every)⟩
  · have accepted : (mergeToWriter storedLz4 [] shortHeader).isOk = true := by
      decide +kernel
    have nonempty : shortHeader.commit ≠ 0 := by decide
    obtain ⟨output, merged⟩ := exists_of_isOk accepted
    obtain ⟨index, read, complete⟩ :=
      mergeToWriter_complete_iff snapshot merged
    refine ⟨output, merged, index, read, fun every => ?_⟩
    rcases complete.mp every with empty | ⟨input, there, _⟩
    · exact nonempty empty
    · cases there

theorem snapshot_complete_iff_both :
    ∃ bytes trailer,
      encodeFile storedLz4 shortHeader
          [.encodePage 1 countingPage, .encodePage 2 countingPage] =
          .ok (bytes, trailer) ∧
        ∃ index, pageIndex bytes = .ok index ∧
          Complete shortHeader index := by
  have accepted :
      (encodeFile storedLz4 shortHeader
        [.encodePage 1 countingPage, .encodePage 2 countingPage]).isOk =
        true := by
    decide +kernel
  obtain ⟨⟨bytes, trailer⟩, encoded⟩ := exists_of_isOk accepted
  obtain ⟨index, read, complete⟩ :=
    (snapshot_complete_iff (by decide)).1 _ bytes trailer encoded
  exact ⟨bytes, trailer, encoded, index, read,
    complete.mpr (.inr (by decide +kernel))⟩

end Wire

end Literstream
