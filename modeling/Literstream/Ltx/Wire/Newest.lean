import Literstream.Ltx.Wire.Merge

/-!
# What a merge of files holds

Every file has an ascending index that leads to the frames of its pages.  The
merge then holds the newest contents of every page, and only its writer can
fail.
-/

namespace Literstream

namespace Wire

/-- An entry leads to the frame of its page. -/
structure Leads (lz4 : Lz4) (pageSize : Nat) (bytes : Bytes)
    (elem : PageIndexElem) (page : WirePage) : Prop where
  pgno : elem.pgno = page.1
  positive : page.1 ≠ 0
  length : page.2.length = pageSize
  decoded : ∃ flags, decodeEntry lz4 bytes pageSize elem =
    .ok (⟨page.1, flags⟩, page.2)

/-- The page index is ascending and leads to the pages. -/
structure Indexed (lz4 : Lz4) (pageSize : Nat) (bytes : Bytes)
    (pages : List WirePage) : Prop where
  entries : ∃ index, pageIndex bytes = .ok index ∧
    List.Forall₂ (Leads lz4 pageSize bytes) index pages
  ascending : pages.Pairwise fun left right => left.1 < right.1

/-- The contents of a page in the last list that holds it. -/
def HeldLast (held : List (List WirePage)) (pgno : UInt32) (data : Bytes) :
    Prop :=
  ∃ (number : Nat) (pages : _),
    held[number]? = some pages ∧ (pgno, data) ∈ pages ∧
    ∀ (later : Nat) others, number < later → held[later]? = some others →
      ∀ other, (pgno, other) ∉ others

section Indexed

variable {lz4 : Lz4} {pageSize : Nat}

theorem Locates.leads {bytes : Bytes} {elem : PageIndexElem} {page : WirePage}
    (givesBack : lz4.GivesBack) (small : bytes.length < 2 ^ 63)
    (located : Locates lz4 pageSize bytes elem page) :
    Leads lz4 pageSize bytes elem page :=
  ⟨located.pgno, located.positive, located.length,
    ⟨0, located.decodeEntry_eq givesBack small⟩⟩

/-- A file of the encoder is such a file. -/
theorem Finished.indexed {header : Header} {pages : List WirePage}
    {bytes : Bytes} {trailer : Trailer} {index : List PageIndexElem}
    (givesBack : lz4.GivesBack)
    (finished : Finished lz4 header pages bytes trailer index) :
    Indexed lz4 header.pageSize.toNat bytes pages :=
  ⟨⟨index, finished.pageIndex_eq, finished.entries.imp fun _ _ located =>
    located.leads givesBack finished.small⟩, finished.ascending⟩

theorem exists_of_mem_left {α β : Type} {related : α → β → Prop}
    {left : List α} {right : List β} (pairs : List.Forall₂ related left right)
    {element : α} (member : element ∈ left) :
    ∃ other ∈ right, related element other := by
  induction pairs with
  | nil => cases member
  | cons first _ ih =>
      rcases List.mem_cons.mp member with rfl | later
      · exact ⟨_, List.mem_cons_self, first⟩
      · obtain ⟨other, there, same⟩ := ih later
        exact ⟨other, List.mem_cons_of_mem _ there, same⟩

theorem exists_of_mem_right {α β : Type} {related : α → β → Prop}
    {left : List α} {right : List β} (pairs : List.Forall₂ related left right)
    {element : β} (member : element ∈ right) :
    ∃ other ∈ left, related other element :=
  exists_of_mem_left pairs.flip member

/-- The entries of a file and the pages that they lead to. -/
structure Opened (lz4 : Lz4) (pageSize : Nat) (bytes : Bytes)
    (index : List PageIndexElem) (pages : List WirePage) : Prop where
  read : pageIndex bytes = .ok index
  entries : List.Forall₂ (Leads lz4 pageSize bytes) index pages
  ascending : pages.Pairwise fun left right => left.1 < right.1

theorem Opened.keys_ascending {bytes : Bytes} {index : List PageIndexElem}
    {pages : List WirePage} (opened : Opened lz4 pageSize bytes index pages) :
    index.Pairwise fun left right => left.key < right.key := by
  have numbers : index.map PageIndexElem.pgno = pages.map Prod.fst := by
    have entries := opened.entries
    clear opened
    induction entries with
    | nil => rfl
    | cons leads _ ih => rw [List.map_cons, List.map_cons, leads.pgno, ih]
  have rising : (index.map PageIndexElem.pgno).Pairwise (· < ·) := by
    rw [numbers, List.pairwise_map]
    exact opened.ascending
  rw [List.pairwise_map] at rising
  exact rising.imp UInt32.lt_iff_toNat_lt.mp

/-- The indexes of all inputs, input by input. -/
theorem pageIndexes_eq_ok {inputs : List Bytes} {held : List (List WirePage)}
    (files : List.Forall₂ (Indexed lz4 pageSize) inputs held) :
    ∃ indexes, pageIndexes inputs = .ok indexes ∧
      ∀ number : Nat,
        (∃ bytes index pages, inputs[number]? = some bytes ∧
          indexes[number]? = some index ∧ held[number]? = some pages ∧
          Opened lz4 pageSize bytes index pages) ∨
        indexes[number]? = none ∧ held[number]? = none := by
  induction files with
  | nil => exact ⟨[], rfl, fun _ => .inr ⟨rfl, rfl⟩⟩
  | @cons bytes pages inputs held first _ ih =>
      obtain ⟨indexes, read, rest⟩ := ih
      obtain ⟨index, own, entries⟩ := first.entries
      refine ⟨index :: indexes, ?_, ?_⟩
      · simp only [pageIndexes, own, read, bind, Except.bind]
        rfl
      · intro number
        cases number with
        | zero =>
            exact .inl ⟨bytes, index, pages, rfl, rfl, rfl, own, entries,
              first.ascending⟩
        | succ number => exact rest number

end Indexed

/-! ## The merge -/

/-- The entries and the pages of all inputs lead to each other. -/
structure Paired (lz4 : Lz4) (pageSize : Nat) (inputs : List Bytes)
    (indexes : List (List PageIndexElem)) (held : List (List WirePage)) :
    Prop where
  ascending : KWay.Ascending PageIndexElem.key indexes
  page : ∀ (number : Nat) elem, elem ∈ indexes[number]?.getD [] →
    ∃ bytes pages page, inputs[number]? = some bytes ∧
      held[number]? = some pages ∧ page ∈ pages ∧
      Leads lz4 pageSize bytes elem page
  entry : ∀ (number : Nat) pages page, held[number]? = some pages →
    page ∈ pages → ∃ bytes elem, inputs[number]? = some bytes ∧
      elem ∈ indexes[number]?.getD [] ∧ Leads lz4 pageSize bytes elem page

section Merge

variable {lz4 : Lz4} {pageSize : Nat} {inputs : List Bytes}
  {indexes : List (List PageIndexElem)} {held : List (List WirePage)}

theorem paired_of_files
    (files : List.Forall₂ (Indexed lz4 pageSize) inputs held) :
    ∃ indexes, pageIndexes inputs = .ok indexes ∧
      Paired lz4 pageSize inputs indexes held := by
  obtain ⟨indexes, read, opened⟩ := pageIndexes_eq_ok files
  refine ⟨indexes, read, ?_, ?_, ?_⟩
  · intro index member
    obtain ⟨number, there⟩ := List.mem_iff_getElem?.mp member
    rcases opened number with ⟨_, own, _, _, same, _, file⟩ | ⟨none_, _⟩
    · rw [there] at same
      cases same
      exact file.keys_ascending
    · rw [there] at none_
      cases none_
  · intro number elem member
    rcases opened number with ⟨bytes, index, pages, input, there, holds, file⟩ |
      ⟨none_, _⟩
    · rw [there] at member
      obtain ⟨page, inPages, led⟩ := exists_of_mem_left file.entries member
      exact ⟨bytes, pages, page, input, holds, inPages, led⟩
    · rw [none_] at member
      cases member
  · intro number pages page holds member
    rcases opened number with ⟨bytes, index, others, input, there, same, file⟩ |
      ⟨_, none_⟩
    · rw [holds] at same
      cases same
      obtain ⟨elem, inIndex, led⟩ := exists_of_mem_right file.entries member
      exact ⟨bytes, elem, input, by rw [there]; exact inIndex, led⟩
    · rw [holds] at none_
      cases none_

/-- A winner is an entry of the last index that lists its page. -/
theorem mem_wonEntries (ascending : KWay.Ascending PageIndexElem.key indexes) :
    ((wonEntries indexes).map Prod.fst).Pairwise (· < ·) ∧
      ∀ value number found, (value, number, found) ∈ wonEntries indexes ↔
        ∃ elem ∈ indexes[number]?.getD [], found = some elem ∧
          elem.key = value ∧ ∀ later, number < later →
            ∀ other ∈ indexes[later]?.getD [], other.key ≠ value := by
  have spec := KWay.winners_ascending
    (KWay.start_consistent PageIndexElem.key indexes) ascending (Nat.le_refl _)
  simp only [KWay.rest_start] at spec
  exact spec

theorem Leads.key_eq {bytes : Bytes} {elem : PageIndexElem} {page : WirePage}
    (led : Leads lz4 pageSize bytes elem page) : elem.key = page.1.toNat :=
  congrArg UInt32.toNat led.pgno

/-- What a winner decodes to is what the last file holds. -/
theorem Paired.heldLast_iff (paired : Paired lz4 pageSize inputs indexes held)
    (pgno : UInt32) (data : Bytes) :
    (∃ winner elem bytes ph,
      (pgno.toNat, winner, some elem) ∈ wonEntries indexes ∧
        inputs[winner]? = some bytes ∧
        decodeEntry lz4 bytes pageSize elem = .ok (ph, data)) ↔
      HeldLast held pgno data := by
  have members := (mem_wonEntries paired.ascending).2
  constructor
  · rintro ⟨winner, elem, bytes, ph, member, input, read⟩
    obtain ⟨own, there, same, keyed, last⟩ := (members _ _ _).mp member
    cases same
    obtain ⟨file, pages, page, sameInput, holds, inPages, led⟩ :=
      paired.page winner elem there
    rw [input] at sameInput
    cases sameInput
    obtain ⟨flags, decoded⟩ := led.decoded
    rw [decoded] at read
    cases read
    have number : page.1 = pgno :=
      UInt32.toNat_inj.mp (led.key_eq.symm.trans keyed)
    rw [← number]
    refine ⟨winner, pages, holds, inPages, ?_⟩
    intro later others above othersHeld other member
    obtain ⟨_, entry, _, inIndex, otherLed⟩ :=
      paired.entry later others _ othersHeld member
    exact last later above entry inIndex
      (otherLed.key_eq.trans (congrArg UInt32.toNat number))
  · rintro ⟨number, pages, holds, member, last⟩
    obtain ⟨bytes, elem, input, inIndex, led⟩ :=
      paired.entry number pages _ holds member
    obtain ⟨flags, read⟩ := led.decoded
    refine ⟨number, elem, bytes, _, ?_, input, read⟩
    refine (members _ _ _).mpr ⟨elem, inIndex, rfl, led.key_eq, ?_⟩
    intro later above other there same
    obtain ⟨_, others, page, _, othersHeld, inPages, otherLed⟩ :=
      paired.page later other there
    have number : page.1 = pgno :=
      UInt32.toNat_inj.mp (otherLed.key_eq.symm.trans same)
    apply last later others above othersHeld page.2
    rw [← number]
    exact inPages

variable {header : Header}

/-- The pages of the winners are the newest ones, in ascending order. -/
theorem Paired.pages
    (paired : Paired lz4 header.pageSize.toNat inputs indexes held) :
    ∃ pages, wonPages lz4 inputs header (wonEntries indexes) = .ok pages ∧
      (pages.Pairwise fun left right => left.1 < right.1) ∧
      ∀ pgno data, (pgno, data) ∈ pages ↔
        pgno ≤ header.commit ∧ HeldLast held pgno data := by
  obtain ⟨rising, members⟩ := mem_wonEntries paired.ascending
  obtain ⟨pages, decoded⟩ := @wonPages_total lz4 inputs header
    (wonEntries indexes) (by
      intro value winner found member
      obtain ⟨elem, there, same, _⟩ := (members value winner found).mp member
      obtain ⟨bytes, _, page, input, _, _, led⟩ := paired.page winner elem there
      obtain ⟨flags, read⟩ := led.decoded
      exact ⟨elem, bytes, _, _, same, input, read⟩)
  refine ⟨pages, decoded, wonPages_ascending decoded rising, ?_⟩
  intro pgno data
  rw [mem_wonPages decoded, paired.heldLast_iff]

end Merge

/-! ## Failures of the writer -/

/-- Only the writer fails. -/
def OnlyIo {α : Type} (result : Except WireError α) : Prop :=
  ∀ error, result = .error error → error = .ltx .io

theorem onlyIo_ok {α : Type} (value : α) :
    OnlyIo (.ok value : Except WireError α) := by
  intro error impossible
  cases impossible

theorem OnlyIo.bind {α β : Type} {first : Except WireError α}
    {next : α → Except WireError β} (io : OnlyIo first)
    (rest : ∀ value, first = .ok value → OnlyIo (next value)) :
    OnlyIo (first >>= next) := by
  intro error failed
  cases ran : first with
  | error other =>
      rw [ran] at failed
      cases failed
      exact io _ ran
  | ok value =>
      rw [ran] at failed
      exact rest value ran error failed

namespace Encoder

theorem writeAll_onlyIo (encoder : Encoder) (b : Bytes) :
    OnlyIo (encoder.writeAll b) := by
  intro error failed
  unfold writeAll at failed
  split at failed
  · cases failed
  · cases failed
    rfl

theorem writeHashed_onlyIo (encoder : Encoder) (b : Bytes) :
    OnlyIo (encoder.writeHashed b) :=
  (encoder.writeAll_onlyIo b).bind fun _ _ => onlyIo_ok _

theorem writeEntries_onlyIo (encoder : Encoder) (index : List PageIndexElem) :
    OnlyIo (encoder.writeEntries index) := by
  induction index generalizing encoder with
  | nil => exact onlyIo_ok _
  | cons elem rest ih =>
      exact (encoder.writeHashed_onlyIo _).bind fun next _ => ih next

theorem encodeHeader_onlyIo {header : Header}
    (valid : header.validate = .ok ()) : OnlyIo (new.encodeHeader header) := by
  rw [encodeHeader, if_neg (by decide), valid]
  exact (onlyIo_ok ()).bind fun _ _ =>
    (writeHashed_onlyIo _ _).bind fun _ _ => onlyIo_ok _

theorem finish_onlyIo {encoder : Encoder} (paging : encoder.state = .page) :
    OnlyIo encoder.finish := by
  rw [finish, if_neg (not_not.mpr paging)]
  refine (writeHashed_onlyIo _ _).bind fun ended _ => ?_
  refine OnlyIo.bind ?_ fun indexed _ =>
    (writeAll_onlyIo _ _).bind fun _ _ => onlyIo_ok _
  refine (writeEntries_onlyIo _ _).bind fun listed _ => ?_
  exact (writeHashed_onlyIo _ _).bind fun marked _ => writeHashed_onlyIo _ _

theorem compressPage_onlyIo (lz4 : Lz4) (data : Bytes) :
    OnlyIo (compressPage lz4 data) := by
  intro error failed
  unfold compressPage at failed
  split at failed
  · cases failed
    rfl
  · cases failed

theorem encodePage_onlyIo {lz4 : Lz4} {encoder : Encoder} {header : Header}
    {pgno : UInt32} {data : Bytes}
    (headerIs : encoder.header = some header)
    (paging : encoder.state = .page)
    (checked : encoder.checkPage header pgno data = .ok ()) :
    OnlyIo (encoder.encodePage lz4 pgno data) := by
  rw [encodePage, headerIs]
  dsimp only
  rw [if_neg (not_not.mpr paging), checked]
  exact (onlyIo_ok ()).bind fun _ _ =>
    (compressPage_onlyIo lz4 data).bind fun compressed _ =>
      (writeHashed_onlyIo _ _).bind fun headed _ =>
        (writeAll_onlyIo _ _).bind fun framed _ => onlyIo_ok _

/-- Ascending pages of a file that is no snapshot pass the checks. -/
theorem calls_onlyIo {lz4 : Lz4} {encoder : Encoder} {header : Header}
    {pages : List WirePage}
    (headerIs : encoder.header = some header)
    (paging : encoder.state = .page)
    (later : header.isSnapshot = false)
    (above : ∀ page ∈ pages, encoder.prevPgno < page.1)
    (ascending : pages.Pairwise fun left right => left.1 < right.1)
    (fits : ∀ page ∈ pages, page.2.length = header.pageSize.toNat ∧
      page.1 ≠ 0 ∧ page.1 ≤ header.commit ∧ page.1 ≠ header.lockPgno) :
    OnlyIo (encoder.calls lz4 (pages.map Call.ofPage)) ∧
      ∀ paged, encoder.calls lz4 (pages.map Call.ofPage) = .ok paged →
        paged.state = .page := by
  induction pages generalizing encoder with
  | nil =>
      refine ⟨onlyIo_ok _, ?_⟩
      intro paged same
      cases same
      exact paging
  | cons page rest ih =>
      obtain ⟨first, rising⟩ := List.pairwise_cons.mp ascending
      obtain ⟨length, positive, inside, unlocked⟩ :=
        fits page List.mem_cons_self
      have checked : encoder.checkPage header page.1 page.2 = .ok () := by
        have ordered : encoder.inOrder header page.1 = true := by
          have higher := above page List.mem_cons_self
          unfold inOrder
          dsimp only
          rw [if_neg (by rw [later]; decide), decide_eq_true_eq]
          exact UInt32.not_le.mpr higher
        rw [checkPage, if_neg (not_not.mpr length), if_neg positive,
          if_neg (UInt32.not_lt.mpr inside), if_neg unlocked, if_pos ordered]
      have restFits : ∀ page ∈ rest, page.2.length = header.pageSize.toNat ∧
          page.1 ≠ 0 ∧ page.1 ≤ header.commit ∧
          page.1 ≠ header.lockPgno := fun other member =>
        fits other (List.mem_cons_of_mem _ member)
      rw [List.map_cons, calls]
      have next {middle : Encoder}
          (encoded : encoder.encodePage lz4 page.1 page.2 = .ok middle) :=
        @ih middle (by
          obtain ⟨_, _, _, _, rfl⟩ := encodePage_eq_ok headerIs encoded
          exact headerIs) (by
          obtain ⟨_, _, _, _, rfl⟩ := encodePage_eq_ok headerIs encoded
          exact paging) (by
          obtain ⟨_, _, _, _, rfl⟩ := encodePage_eq_ok headerIs encoded
          exact first) rising restFits
      constructor
      · exact (encodePage_onlyIo headerIs paging checked).bind
          fun middle encoded => (next encoded).1
      · intro paged done
        obtain ⟨middle, encoded, done⟩ := bind_eq_ok.mp done
        exact (next encoded).2 paged done

end Encoder

section Merge

variable {lz4 : Lz4} {inputs : List Bytes} {header : Header}
  {held : List (List WirePage)}

theorem Paired.fits {indexes : List (List PageIndexElem)}
    (paired : Paired lz4 header.pageSize.toNat inputs indexes held)
    (unlocked : ∀ pages ∈ held, ∀ page ∈ pages, page.1 ≠ header.lockPgno)
    {page : WirePage} (newest : HeldLast held page.1 page.2) :
    page.2.length = header.pageSize.toNat ∧ page.1 ≠ 0 ∧
      page.1 ≠ header.lockPgno := by
  obtain ⟨number, pages, holds, member, _⟩ := newest
  obtain ⟨_, _, _, _, led⟩ := paired.entry number pages _ holds member
  exact ⟨led.length, led.positive,
    unlocked pages (List.mem_of_getElem? holds) _ member⟩

/-- A merge that succeeds holds, in ascending order, the newest contents of
every page up to the commit, and unless a snapshot is asked for only its writer
can fail. -/
theorem mergeToWriter_newest (givesBack : lz4.GivesBack)
    (files : List.Forall₂ (Indexed lz4 header.pageSize.toNat) inputs held) :
    (∀ output, mergeToWriter lz4 inputs header = .ok output →
      ∃ pages trailer,
        readFile lz4 output = .ok ⟨header, pages, trailer⟩ ∧
          (pages.Pairwise fun left right => left.1 < right.1) ∧
          ∀ pgno data, (pgno, data) ∈ pages ↔
            pgno ≤ header.commit ∧ HeldLast held pgno data) ∧
    (1 < header.minTxid → header.validate = .ok () →
      (∀ pages ∈ held, ∀ page ∈ pages, page.1 ≠ header.lockPgno) →
        OnlyIo (mergeToWriter lz4 inputs header)) := by
  obtain ⟨indexes, read, paired⟩ := paired_of_files files
  obtain ⟨pages, decoded, ascending, members⟩ := paired.pages
  constructor
  · intro output merged
    obtain ⟨others, same, trailer, indexed, won, encoded⟩ :=
      mergeToWriter_eq_ok merged
    rw [read] at indexed
    cases indexed
    rw [decoded] at won
    cases won
    obtain ⟨index, finished⟩ := encodeFile_finished encoded
    have back := finished.readFile_eq givesBack
    rw [pagesOf_map_ofPage] at back
    exact ⟨pages, trailer, back, ascending, members⟩
  · intro later valid unlocked
    have incremental : header.isSnapshot = false := by
      unfold Header.isSnapshot
      rw [beq_eq_false_iff_ne]
      rintro first
      rw [first] at later
      exact absurd later (by decide)
    rw [mergeToWriter, read]
    have fits : ∀ page ∈ pages, page.2.length = header.pageSize.toNat ∧
        page.1 ≠ 0 ∧ page.1 ≤ header.commit ∧ page.1 ≠ header.lockPgno := by
      intro page member
      obtain ⟨inside, newest⟩ := (members page.1 page.2).mp member
      obtain ⟨length, positive, free⟩ := paired.fits unlocked newest
      exact ⟨length, positive, inside, free⟩
    refine (onlyIo_ok indexes).bind fun value same => ?_
    cases same
    refine (Encoder.encodeHeader_onlyIo valid).bind fun opened headed => ?_
    obtain ⟨_, openedIs⟩ := Encoder.encodeHeader_eq_ok headed
    have fresh : ∀ page ∈ pages, opened.prevPgno < page.1 := by
      intro page member
      rw [openedIs]
      exact UInt32.pos_iff_ne_zero.mpr (fits page member).2.1
    obtain ⟨io, paging⟩ := @Encoder.calls_onlyIo lz4 opened header pages
      (by rw [openedIs]) (by rw [openedIs]) incremental fresh ascending fits
    rw [← mergeLoop_eq_calls decoded] at io paging
    exact io.bind fun paged done =>
      (Encoder.finish_onlyIo (paging paged done)).bind fun _ _ => onlyIo_ok _

end Merge

theorem mergeToWriter_newest_twice :
    ∃ bytes trailer output pages last,
      encodeFile storedLz4 twoPageHeader twoPageCalls = .ok (bytes, trailer) ∧
        OnlyIo (mergeToWriter storedLz4 [bytes, bytes] twoPageHeader) ∧
        mergeToWriter storedLz4 [bytes, bytes] twoPageHeader = .ok output ∧
        readFile storedLz4 output = .ok ⟨twoPageHeader, pages, last⟩ ∧
        (300, countingPage) ∈ pages := by
  have accepted : (encodeFile storedLz4 twoPageHeader twoPageCalls >>=
      fun written => mergeToWriter storedLz4 [written.1, written.1]
        twoPageHeader).isOk = true := by
    decide +kernel
  obtain ⟨output, both⟩ := exists_of_isOk accepted
  obtain ⟨⟨bytes, trailer⟩, encoded, merged⟩ := bind_eq_ok.mp both
  obtain ⟨index, finished⟩ := encodeFile_finished encoded
  have file := finished.indexed storedLz4_givesBack
  have merges := mergeToWriter_newest storedLz4_givesBack
    (.cons file (.cons file .nil))
  obtain ⟨pages, last, back, _, members⟩ := merges.1 output merged
  refine ⟨bytes, trailer, output, pages, last, encoded, ?_, merged, back, ?_⟩
  · apply merges.2 (by decide) (by decide)
    have unlocked : ∀ page ∈ pagesOf twoPageCalls,
        page.1 ≠ twoPageHeader.lockPgno := by
      decide +kernel
    intro pages member
    simp only [List.mem_cons, List.not_mem_nil, or_false, or_self] at member
    rw [member]
    exact unlocked
  · refine (members _ _).mpr ⟨by decide, 1, _, rfl,
      List.mem_cons_of_mem _ List.mem_cons_self, ?_⟩
    intro later others above held
    rw [List.getElem?_eq_none above] at held
    cases held

end Wire

end Literstream
