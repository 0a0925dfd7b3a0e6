import Literstream.Ltx.Compactor

/-!
# When encoding cannot fail

The encoder refuses pages that are out of order, and a file from TXID 1 may not
skip any page but the lock page.  A merge of well-formed inputs meets these
checks as soon as its inputs hold every page that such a file needs.
-/

namespace Literstream

theorem two_le_lockPgno {pageSize : Nat}
    (sized : isValidPageSize pageSize = true) : 2 ≤ lockPgno pageSize := by
  have bound : pageSize ≤ pendingByte := by
    simp only [isValidPageSize, List.contains_iff_mem, List.mem_cons,
      List.not_mem_nil, or_false] at sized
    unfold pendingByte
    omega
  have positive := isValidPageSize.pos sized
  exact Nat.succ_le_succ ((Nat.one_le_div_iff positive).mpr bound)

namespace Encoder

theorem encodeHeader_total {header : Header}
    (valid : header.validate = .ok ()) :
    ∃ encoder, encodeHeader header = .ok encoder ∧ encoder.header = header ∧
      encoder.prevPgno = 0 := by
  unfold encodeHeader
  split
  · rename_i error invalid
    rw [valid] at invalid
    cases invalid
  · exact ⟨_, rfl, rfl, rfl⟩

theorem encodePage_total {encoder : Encoder} {pgno : Nat} {data : Bytes}
    (pageOk : PageOk encoder.header (pgno, data))
    (ordered : encoder.inOrder pgno = true) :
    ∃ next, encoder.encodePage pgno data = .ok next ∧
      next.header = encoder.header ∧ next.prevPgno = pgno := by
  obtain ⟨inFile, inside, notLock, length⟩ := pageOk
  dsimp only at inFile inside notLock length
  unfold encodePage
  rw [dif_neg (not_not.mpr length), dif_neg (by omega), dif_neg (by omega),
    dif_neg notLock, dif_pos ordered]
  exact ⟨_, rfl, rfl, rfl⟩

/-- After the lock page the encoder expects a gap of one page. -/
theorem inOrder_succ {encoder : Encoder} {count : Nat}
    (lockAbove : 2 ≤ lockPgno encoder.header.pageSize)
    (prev : encoder.prevPgno =
      if count = lockPgno encoder.header.pageSize then count - 1 else count)
    (notLock : count + 1 ≠ lockPgno encoder.header.pageSize) :
    encoder.inOrder (count + 1) = true := by
  unfold inOrder
  dsimp only
  rw [prev]
  by_cases snapshot : encoder.header.isSnapshot = true
  · rw [if_pos snapshot]
    by_cases atLock : count = lockPgno encoder.header.pageSize
    · rw [if_pos atLock, if_neg (by omega), if_pos (by omega), beq_iff_eq]
      omega
    · rw [if_neg atLock]
      by_cases first : count = 0
      · rw [if_pos first, beq_iff_eq, first]
      · rw [if_neg first, if_neg (by omega), beq_iff_eq]
  · rw [if_neg snapshot, decide_eq_true_eq]
    split <;> omega

/-- Ascending pages of a file that is not a snapshot. -/
theorem encodePages_total {pages : List Page} {encoder : Encoder}
    (later : encoder.header.isSnapshot = false)
    (ascending : pages.Pairwise fun left right => left.1 < right.1)
    (above : ∀ page ∈ pages, encoder.prevPgno < page.1)
    (pagesOk : ∀ page ∈ pages, PageOk encoder.header page) :
    ∃ written, encoder.encodePages pages = .ok written := by
  induction pages generalizing encoder with
  | nil => exact ⟨encoder, rfl⟩
  | cons page rest ih =>
      obtain ⟨first, restAscending⟩ := List.pairwise_cons.mp ascending
      have ordered : encoder.inOrder page.1 = true := by
        simp [inOrder, later, above page (by simp)]
      obtain ⟨next, encoded, header, prev⟩ :=
        encodePage_total (pagesOk page (by simp)) ordered
      obtain ⟨written, done⟩ := @ih next (by rw [header]; exact later)
        restAscending (by rw [prev]; exact first) (by
          intro other member
          rw [header]
          exact pagesOk other (by simp [member]))
      exact ⟨written, bind_eq_ok.mpr ⟨next, encoded, done⟩⟩

end Encoder

/-! ## Merges -/

/-- The pages still to be merged suit an encoder that wrote up to `prevPgno`. -/
structure Mergeable (header : Header) (prevPgno : Nat)
    (candidates : Nat → Option Bytes) : Prop where
  above : ∀ pgno raw, candidates pgno = some raw → prevPgno < pgno
  whole : ∀ pgno raw, candidates pgno = some raw →
    raw.length = header.pageSize
  unlocked : ∀ pgno raw, candidates pgno = some raw →
    pgno ≤ header.commit → pgno ≠ lockPgno header.pageSize
  complete : header.isSnapshot = true → ∀ pgno, prevPgno < pgno →
    pgno ≤ header.commit → pgno ≠ lockPgno header.pageSize →
    (candidates pgno).isSome = true

/-- The smallest page left to merge is the one that the encoder expects. -/
theorem Mergeable.inOrder {encoder : Encoder} {pgno : Nat} {raw : Bytes}
    {candidates : Nat → Option Bytes}
    (mergeable : Mergeable encoder.header encoder.prevPgno candidates)
    (found : candidates pgno = some raw)
    (least : ∀ other, (candidates other).isSome = true → pgno ≤ other)
    (inside : pgno ≤ encoder.header.commit) :
    encoder.inOrder pgno = true := by
  have above := mergeable.above pgno raw found
  have notLock := mergeable.unlocked pgno raw found inside
  have lockAbove := two_le_lockPgno
    (Header.validate_eq_ok encoder.valid).1
  unfold Encoder.inOrder
  dsimp only
  by_cases snapshot : encoder.header.isSnapshot = true
  · rw [if_pos snapshot]
    have reaches (other : Nat) (after : encoder.prevPgno < other)
        (unlocked : other ≠ lockPgno encoder.header.pageSize) :
        pgno ≤ other := by
      by_cases within : other ≤ encoder.header.commit
      · exact least other (mergeable.complete snapshot other after within
          unlocked)
      · omega
    by_cases first : encoder.prevPgno = 0
    · have next := reaches 1 (by omega) (by omega)
      rw [if_pos first, beq_iff_eq]
      omega
    · rw [if_neg first]
      by_cases beforeLock :
          encoder.prevPgno = lockPgno encoder.header.pageSize - 1
      · have next := reaches (encoder.prevPgno + 2) (by omega) (by omega)
        rw [if_pos beforeLock, beq_iff_eq]
        omega
      · have next := reaches (encoder.prevPgno + 1) (by omega) (by omega)
        rw [if_neg beforeLock, beq_iff_eq]
        omega
  · rw [if_neg snapshot, decide_eq_true_eq]
    exact above

/-- Taking the smallest page out leaves a mergeable rest. -/
theorem Mergeable.tail {header : Header} {prevPgno pgno next : Nat}
    {candidates rest : Nat → Option Bytes}
    (mergeable : Mergeable header prevPgno candidates)
    (least : ∀ other, (candidates other).isSome = true → pgno ≤ other)
    (removed : ∀ other, rest other =
      if other = pgno then none else candidates other)
    (reached : prevPgno ≤ next) (bounded : next ≤ pgno)
    (passed : pgno ≤ header.commit → next = pgno) :
    Mergeable header next rest where
  above := by
    intro other raw found
    rw [removed] at found
    split at found
    · cases found
    · rename_i different
      have below := least other (by rw [found]; rfl)
      omega
  whole := by
    intro other raw found
    rw [removed] at found
    split at found
    · cases found
    · exact mergeable.whole other raw found
  unlocked := by
    intro other raw found
    rw [removed] at found
    split at found
    · cases found
    · exact mergeable.unlocked other raw found
  complete := by
    intro snapshot other after within unlocked
    have present := mergeable.complete snapshot other (by omega) within
      unlocked
    have below := least other present
    rw [removed, if_neg]
    · exact present
    · intro same
      have := passed (by omega)
      omega

theorem newestIn_eq_some {pgno : Nat} {cursors : List (List Page)}
    {raw : Bytes} (found : newestIn pgno cursors = some raw) :
    ∃ cursor ∈ cursors, ∃ page ∈ cursor, page.1 = pgno := by
  induction cursors with
  | nil => cases found
  | cons first rest ih =>
      simp only [newestIn] at found
      cases later : newestIn pgno rest with
      | some other =>
          simp only [later, Option.some_or, Option.some.injEq] at found
          subst found
          obtain ⟨cursor, member, held⟩ := ih later
          exact ⟨cursor, by simp [member], held⟩
      | none =>
          simp only [later, Option.none_or, Option.map_eq_some_iff] at found
          obtain ⟨page, searched, _⟩ := found
          exact ⟨first, by simp, page, List.mem_of_find?_eq_some searched,
            by simpa using List.find?_some searched⟩

theorem mergeLoop_total {header : Header} {fuel : Nat}
    {cursors : List (List Page)} {encoder : Encoder}
    (ascending : ∀ cursor ∈ cursors, Ascending cursor)
    (sameHeader : encoder.header = header)
    (mergeable : Mergeable header encoder.prevPgno fun pgno =>
      newestIn pgno cursors) :
    ∃ final, mergeLoop header fuel cursors encoder = .ok final := by
  induction fuel generalizing cursors encoder with
  | zero => exact ⟨encoder, rfl⟩
  | succ fuel ih =>
      rw [mergeLoop]
      cases peeked : peek cursors with
      | none => exact ⟨encoder, rfl⟩
      | some pgno =>
          have smallest := peek_le ascending peeked
          have winner := consume_winner ascending smallest
          have nextAscending := @consume_ascending pgno cursors ascending
          have removed := newestIn_consume ascending smallest
          have least : ∀ other, (newestIn other cursors).isSome = true →
              pgno ≤ other := by
            intro other present
            obtain ⟨raw, found⟩ := Option.isSome_iff_exists.mp present
            obtain ⟨cursor, member, page, held, rfl⟩ := newestIn_eq_some found
            exact smallest cursor member page held
          dsimp only
          rw [winner]
          cases found : newestIn pgno cursors with
          | none =>
              apply ih nextAscending sameHeader
              have same : ∀ other, newestIn other (consume pgno cursors).2 =
                  newestIn other cursors := by
                intro other
                rw [removed]
                split
                · rename_i equal
                  rw [equal, found]
                · rfl
              simpa only [same] using mergeable
          | some raw =>
              have above := mergeable.above pgno raw found
              dsimp only
              by_cases inside : pgno ≤ header.commit
              · have length := mergeable.whole pgno raw found
                have notLock := mergeable.unlocked pgno raw found inside
                subst sameHeader
                obtain ⟨next, encoded, nextHeader, nextPrev⟩ :=
                  Encoder.encodePage_total
                    (⟨by dsimp only; omega, inside, notLock, length⟩ :
                      PageOk encoder.header (pgno, raw))
                    (mergeable.inOrder found least inside)
                rw [if_pos inside, decodePageFrame_of_length length]
                obtain ⟨final, done⟩ := @ih _ next nextAscending nextHeader
                  (by
                    apply mergeable.tail least removed <;> rw [nextPrev]
                    · exact Nat.le_of_lt above
                    · exact fun _ => rfl)
                exact ⟨final, bind_eq_ok.mpr ⟨raw, rfl,
                  bind_eq_ok.mpr ⟨next, encoded, done⟩⟩⟩
              · rw [if_neg inside]
                apply ih nextAscending sameHeader
                apply mergeable.tail least removed (Nat.le_refl _)
                  (Nat.le_of_lt above)
                intro within
                exact absurd within inside

/-- A merge succeeds when its header is valid and its inputs hold what the
encoder needs. -/
theorem mergeToWriter_total {inputs : List LtxFile} {header : Header}
    (valid : header.validate = .ok ())
    (mergeable : Mergeable header 0 fun pgno => newestPage pgno inputs) :
    ∃ output, mergeToWriter inputs header = .ok output := by
  obtain ⟨encoder, opened, sameHeader, fresh⟩ :=
    Encoder.encodeHeader_total valid
  have ascending : ∀ cursor ∈ inputs.map LtxFile.pages, Ascending cursor := by
    intro cursor member
    obtain ⟨file, _, rfl⟩ := List.mem_map.mp member
    exact file.ascending
  simp only [← newestIn_map_pages] at mergeable
  rw [← fresh] at mergeable
  obtain ⟨final, merged⟩ := @mergeLoop_total header
    (remaining (inputs.map LtxFile.pages)) _ _ ascending sameHeader mergeable
  exact ⟨final.finish, bind_eq_ok.mpr ⟨encoder, opened,
    bind_eq_ok.mpr ⟨final, merged, rfl⟩⟩⟩

/-- The least page of an ascending list stands in front. -/
theorem exists_rest_of_least {pages : List Page} {pgno : Nat} {data : Bytes}
    (rising : Ascending pages) (member : (pgno, data) ∈ pages)
    (least : ∀ page ∈ pages, pgno ≤ page.1) :
    ∃ rest, pages = (pgno, data) :: rest ∧ ∀ page,
      page ∈ rest ↔ page ∈ pages ∧ page.1 ≠ pgno := by
  cases pages with
  | nil => cases member
  | cons head rest =>
      obtain ⟨above, _⟩ := List.pairwise_cons.mp rising
      have same : head = (pgno, data) := by
        rcases List.mem_cons.mp member with first | later
        · exact first.symm
        · have low := least head List.mem_cons_self
          have high := above _ later
          simp only at high
          omega
      subst same
      refine ⟨rest, rfl, ?_⟩
      intro page
      constructor
      · intro inside
        have high := above page inside
        exact ⟨List.mem_cons_of_mem _ inside, by simp only at high; omega⟩
      · rintro ⟨inside, other⟩
        rcases List.mem_cons.mp inside with first | later
        · rw [first] at other
          exact absurd rfl other
        · exact later

theorem eq_nil_of_cursors_empty {commit : Nat} {cursors : List (List Page)}
    {pages : List Page} (empty : ∀ cursor ∈ cursors, cursor = [])
    (members : ∀ pgno data, (pgno, data) ∈ pages ↔
      pgno ≤ commit ∧ newestIn pgno cursors = some data) : pages = [] := by
  apply List.eq_nil_iff_forall_not_mem.mpr
  rintro ⟨pgno, data⟩ member
  have found := ((members pgno data).mp member).2
  rw [newestIn_eq_none empty] at found
  cases found

/-- A merge encodes the newest pages in ascending order. -/
theorem mergeLoop_eq_encodePages {header : Header} {fuel : Nat}
    {cursors : List (List Page)} {encoder : Encoder} {pages : List Page}
    (ascending : ∀ cursor ∈ cursors, Ascending cursor)
    (enough : remaining cursors ≤ fuel)
    (whole : ∀ pgno raw, newestIn pgno cursors = some raw →
      raw.length = header.pageSize)
    (rising : Ascending pages)
    (members : ∀ pgno data, (pgno, data) ∈ pages ↔
      pgno ≤ header.commit ∧ newestIn pgno cursors = some data) :
    mergeLoop header fuel cursors encoder = encoder.encodePages pages := by
  induction fuel generalizing cursors encoder pages with
  | zero =>
      have empty : ∀ cursor ∈ cursors, cursor = [] := by
        apply peek_eq_none
        cases peeked : peek cursors with
        | none => rfl
        | some found =>
            have := consume_remaining_lt peeked
            omega
      rw [eq_nil_of_cursors_empty empty members]
      rfl
  | succ fuel ih =>
      rw [mergeLoop]
      cases peeked : peek cursors with
      | none =>
          rw [eq_nil_of_cursors_empty (peek_eq_none peeked) members]
          rfl
      | some pgno =>
          have smallest := peek_le ascending peeked
          have winner := consume_winner ascending smallest
          have nextAscending := @consume_ascending pgno cursors ascending
          have removed := newestIn_consume ascending smallest
          have nextEnough : remaining (consume pgno cursors).2 ≤ fuel := by
            have := consume_remaining_lt peeked
            omega
          have nextWhole : ∀ other raw,
              newestIn other (consume pgno cursors).2 = some raw →
                raw.length = header.pageSize := by
            intro other raw found
            rw [removed] at found
            split at found
            · cases found
            · exact whole other raw found
          have least : ∀ page ∈ pages, pgno ≤ page.1 := by
            rintro ⟨other, data⟩ member
            obtain ⟨cursor, inside, page, held, rfl⟩ :=
              newestIn_eq_some ((members other data).mp member).2
            exact smallest cursor inside page held
          have goesOn {next : Encoder} {rest : List Page}
              (restRising : Ascending rest)
              (restMembers : ∀ other data, (other, data) ∈ rest ↔
                (other, data) ∈ pages ∧ other ≠ pgno) :
              mergeLoop header fuel (consume pgno cursors).2 next =
                next.encodePages rest := by
            apply ih nextAscending nextEnough nextWhole restRising
            intro other data
            rw [restMembers, members, removed]
            by_cases same : other = pgno <;> simp [same]
          dsimp only
          rw [winner]
          cases found : newestIn pgno cursors with
          | none =>
              apply goesOn rising
              intro other data
              constructor
              · intro member
                refine ⟨member, ?_⟩
                rintro rfl
                rw [members, found] at member
                cases member.2
              · exact And.left
          | some raw =>
              dsimp only
              by_cases inside : pgno ≤ header.commit
              · obtain ⟨rest, rfl, restMembers⟩ := exists_rest_of_least rising
                  ((members pgno raw).mpr ⟨inside, found⟩) least
                rw [if_pos inside,
                  decodePageFrame_of_length (whole pgno raw found),
                  Encoder.encodePages]
                change (encoder.encodePage pgno raw >>= _) = _
                congr 1
                funext next
                exact goesOn (List.pairwise_cons.mp rising).2
                  fun other data => restMembers (other, data)
              · rw [if_neg inside]
                apply goesOn rising
                intro other data
                constructor
                · intro member
                  refine ⟨member, ?_⟩
                  rintro rfl
                  exact inside ((members _ _).mp member).1
                · exact And.left

/-- A merge is the encoding of the newest pages. -/
theorem mergeToWriter_eq_encodeFile {inputs : List LtxFile} {header : Header}
    {pages : List Page}
    (whole : ∀ file ∈ inputs, file.header.pageSize = header.pageSize)
    (rising : Ascending pages)
    (members : ∀ pgno data, (pgno, data) ∈ pages ↔
      pgno ≤ header.commit ∧ newestPage pgno inputs = some data) :
    mergeToWriter inputs header = encodeFile header pages := by
  have ascending : ∀ cursor ∈ inputs.map LtxFile.pages, Ascending cursor := by
    intro cursor member
    obtain ⟨file, _, rfl⟩ := List.mem_map.mp member
    exact file.ascending
  simp only [← newestIn_map_pages] at members
  have lengths : ∀ pgno raw,
      newestIn pgno (inputs.map LtxFile.pages) = some raw →
        raw.length = header.pageSize := by
    intro pgno raw found
    rw [newestIn_map_pages] at found
    obtain ⟨file, member, held⟩ := newestPage_eq_some found
    have fits := file.pagesOk _ (file.page?_eq_some_iff.mp held)
    rw [← whole file member]
    exact fits.2.2.2
  rw [mergeToWriter, encodeFile]
  congr 1
  funext encoder
  dsimp only
  rw [mergeLoop_eq_encodePages ascending (Nat.le_refl _) lengths rising members]

end Literstream
