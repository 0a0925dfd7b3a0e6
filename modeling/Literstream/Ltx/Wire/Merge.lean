import Literstream.Lib.KWay
import Literstream.Ltx.Wire.RoundTrip

/-!
# The merge of the bytes of several files

The page indexes are merged through a heap; the winner of a page number is
decoded and goes to the encoder.  Only the winners are decoded.
-/

namespace Literstream

namespace Wire

/-- The page number of an entry. -/
def PageIndexElem.key (elem : PageIndexElem) : Nat := elem.pgno.toNat

/-- The page index of every input. -/
def pageIndexes : List Bytes → Except WireError (List (List PageIndexElem))
  | [] => .ok []
  | bytes :: rest => do
      let index ← pageIndex bytes
      let indexes ← pageIndexes rest
      return index :: indexes

/-- The loop over the page numbers.  `fuel` bounds the entries that are left. -/
def mergeLoop (lz4 : Lz4) (inputs : List Bytes)
    (indexes : List (List PageIndexElem)) (header : Header) :
    Nat → KWay.State → Encoder → Except WireError Encoder
  | 0, _, encoder => .ok encoder
  | fuel + 1, state, encoder =>
      match state.heap with
      | [] => .ok encoder
      | (pgno, _) :: _ =>
          let (next, winner) :=
            KWay.drain PageIndexElem.key indexes pgno
              (KWay.unread indexes state.cursor) state 0 false
          if pgno ≤ header.commit.toNat then
            match KWay.taken indexes next.cursor winner, inputs[winner]? with
            | some elem, some bytes => do
                let (_, data) ←
                  decodeEntry lz4 bytes header.pageSize.toNat elem
                let paged ← encoder.encodePage lz4 (UInt32.ofNat pgno) data
                mergeLoop lz4 inputs indexes header fuel next paged
            | _, _ => .error .panic
          else mergeLoop lz4 inputs indexes header fuel next encoder

/-- Merge files under a given header.  A later input wins, and pages beyond the
commit of the header are dropped. -/
def mergeToWriter (lz4 : Lz4) (inputs : List Bytes) (header : Header) :
    Except WireError Bytes := do
  let indexes ← pageIndexes inputs
  let start := KWay.start PageIndexElem.key indexes
  let opened ← Encoder.new.encodeHeader header
  let merged ← mergeLoop lz4 inputs indexes header
    (KWay.unread indexes start.cursor) start opened
  let (_, closed) ← merged.finish
  return closed.w

/-! ## The pages that go to the encoder -/

def Call.ofPage (page : WirePage) : Call := .encodePage page.1 page.2

@[simp] theorem pagesOf_map_ofPage (pages : List WirePage) :
    pagesOf (pages.map Call.ofPage) = pages := by
  rw [pagesOf, List.filterMap_map]
  exact List.filterMap_some

/-- The pages of the winners up to the commit. -/
def wonPages (lz4 : Lz4) (inputs : List Bytes) (header : Header) :
    List (Nat × Nat × Option PageIndexElem) → Except WireError (List WirePage)
  | [] => .ok []
  | (pgno, winner, found) :: rest =>
      if pgno ≤ header.commit.toNat then
        match found, inputs[winner]? with
        | some elem, some bytes => do
            let (_, data) ← decodeEntry lz4 bytes header.pageSize.toNat elem
            let pages ← wonPages lz4 inputs header rest
            return (UInt32.ofNat pgno, data) :: pages
        | _, _ => .error .panic
      else wonPages lz4 inputs header rest

variable {lz4 : Lz4} {inputs : List Bytes}
  {indexes : List (List PageIndexElem)} {header : Header}

/-- When all winners decode, the loop is a sequence of calls. -/
theorem mergeLoop_eq_calls {fuel : Nat} {state : KWay.State}
    {encoder : Encoder} {pages : List WirePage}
    (won : wonPages lz4 inputs header
      (KWay.winners PageIndexElem.key indexes fuel state) = .ok pages) :
    mergeLoop lz4 inputs indexes header fuel state encoder =
      encoder.calls lz4 (pages.map Call.ofPage) := by
  induction fuel generalizing state encoder pages with
  | zero =>
      cases won
      rfl
  | succ fuel ih =>
      rw [mergeLoop]
      rw [KWay.winners] at won
      cases top : state.heap with
      | nil =>
          rw [top] at won
          cases won
          rfl
      | cons entry heap =>
          obtain ⟨pgno, number⟩ := entry
          simp only [top, wonPages] at won ⊢
          by_cases inside : pgno ≤ header.commit.toNat
          · rw [if_pos inside] at won ⊢
            split at won
            · obtain ⟨⟨ph, data⟩, decoded, won⟩ := bind_eq_ok.mp won
              obtain ⟨others, rest, returned⟩ := bind_eq_ok.mp won
              cases returned
              simp only [decoded, bind, Except.bind, List.map_cons,
                Encoder.calls, Call.ofPage, Encoder.call]
              cases encoder.encodePage lz4 (UInt32.ofNat pgno) data with
              | error error => rfl
              | ok paged => exact ih rest
            · cases won
          · rw [if_neg inside] at won ⊢
            exact ih won

/-- When the loop succeeds, all winners have decoded. -/
theorem wonPages_of_mergeLoop {fuel : Nat} {state : KWay.State}
    {encoder merged : Encoder}
    (done : mergeLoop lz4 inputs indexes header fuel state encoder =
      .ok merged) :
    ∃ pages, wonPages lz4 inputs header
      (KWay.winners PageIndexElem.key indexes fuel state) = .ok pages := by
  induction fuel generalizing state encoder with
  | zero => exact ⟨[], rfl⟩
  | succ fuel ih =>
      rw [mergeLoop] at done
      rw [KWay.winners]
      cases top : state.heap with
      | nil => exact ⟨[], rfl⟩
      | cons entry heap =>
          obtain ⟨pgno, number⟩ := entry
          simp only [top, wonPages] at done ⊢
          by_cases inside : pgno ≤ header.commit.toNat
          · rw [if_pos inside] at done ⊢
            split at done
            · obtain ⟨⟨ph, data⟩, decoded, done⟩ := bind_eq_ok.mp done
              obtain ⟨paged, _, done⟩ := bind_eq_ok.mp done
              obtain ⟨pages, rest⟩ := ih done
              simp only [decoded, rest, bind, Except.bind]
              exact ⟨_, rfl⟩
            · cases done
          · rw [if_neg inside] at done ⊢
            exact ih done

/-- The winners of the indexes. -/
def wonEntries (indexes : List (List PageIndexElem)) :
    List (Nat × Nat × Option PageIndexElem) :=
  KWay.winners PageIndexElem.key indexes
    (KWay.unread indexes (KWay.start PageIndexElem.key indexes).cursor)
    (KWay.start PageIndexElem.key indexes)

/-- A merge writes the pages of the winners. -/
theorem mergeToWriter_eq_ok {output : Bytes}
    (merged : mergeToWriter lz4 inputs header = .ok output) :
    ∃ indexes pages trailer, pageIndexes inputs = .ok indexes ∧
      wonPages lz4 inputs header (wonEntries indexes) = .ok pages ∧
      encodeFile lz4 header (pages.map Call.ofPage) =
        .ok (output, trailer) := by
  obtain ⟨indexes, indexed, merged⟩ := bind_eq_ok.mp merged
  obtain ⟨opened, headed, merged⟩ := bind_eq_ok.mp merged
  obtain ⟨paged, looped, merged⟩ := bind_eq_ok.mp merged
  obtain ⟨⟨trailer, closed⟩, finished, returned⟩ := bind_eq_ok.mp merged
  cases returned
  obtain ⟨pages, won⟩ := wonPages_of_mergeLoop looped
  rw [mergeLoop_eq_calls won] at looped
  refine ⟨indexes, pages, trailer, indexed, won, ?_⟩
  rw [encodeFile]
  exact bind_eq_ok.mpr ⟨opened, headed, bind_eq_ok.mpr ⟨paged, looped,
    bind_eq_ok.mpr ⟨(trailer, closed), finished, rfl⟩⟩⟩

section Won

variable {won : List (Nat × Nat × Option PageIndexElem)}
  {pages : List WirePage}

theorem wonPages_cons_eq_ok {value winner : Nat}
    {found : Option PageIndexElem}
    (decoded : wonPages lz4 inputs header ((value, winner, found) :: won) =
      .ok pages) :
    (value ≤ header.commit.toNat ∧ ∃ elem bytes ph data others,
      found = some elem ∧ inputs[winner]? = some bytes ∧
        decodeEntry lz4 bytes header.pageSize.toNat elem = .ok (ph, data) ∧
        wonPages lz4 inputs header won = .ok others ∧
        pages = (UInt32.ofNat value, data) :: others) ∨
      ¬value ≤ header.commit.toNat ∧
        wonPages lz4 inputs header won = .ok pages := by
  simp only [wonPages] at decoded
  split at decoded
  · rename_i inside
    split at decoded
    · rename_i elem bytes input
      obtain ⟨⟨ph, data⟩, entry, decoded⟩ := bind_eq_ok.mp decoded
      obtain ⟨others, later, returned⟩ := bind_eq_ok.mp decoded
      cases returned
      exact .inl ⟨inside, elem, bytes, ph, data, others, rfl, input, entry,
        later, rfl⟩
    · cases decoded
  · rename_i beyond
    exact .inr ⟨beyond, decoded⟩

theorem toNat_ofNat_of_le {value : Nat} (inside : value ≤ header.commit.toNat) :
    (UInt32.ofNat value).toNat = value := by
  rw [UInt32.toNat_ofNat']
  exact Nat.mod_eq_of_lt (Nat.lt_of_le_of_lt inside header.commit.toNat_lt)

/-- The numbers of the pages are those of the winners up to the commit. -/
theorem pgno_mem_wonPages
    (decoded : wonPages lz4 inputs header won = .ok pages) (pgno : UInt32) :
    pgno ∈ pages.map Prod.fst ↔
      pgno ≤ header.commit ∧ pgno.toNat ∈ won.map Prod.fst := by
  induction won generalizing pages with
  | nil =>
      cases decoded
      simp
  | cons entry rest ih =>
      obtain ⟨value, winner, found⟩ := entry
      rw [List.map_cons, List.mem_cons]
      rcases wonPages_cons_eq_ok decoded with
        ⟨inside, _, _, _, data, others, _, _, _, later, rfl⟩ | ⟨beyond, later⟩
      · have number := toNat_ofNat_of_le inside
        rw [List.map_cons, List.mem_cons, ih later]
        constructor
        · rintro (rfl | ⟨below, member⟩)
          · exact ⟨UInt32.le_iff_toNat_le.mpr (by rw [number]; exact inside),
              .inl number⟩
          · exact ⟨below, .inr member⟩
        · rintro ⟨below, same | member⟩
          · exact .inl (UInt32.toNat_inj.mp (same.trans number.symm))
          · exact .inr ⟨below, member⟩
      · rw [ih later]
        constructor
        · rintro ⟨below, member⟩
          exact ⟨below, .inr member⟩
        · rintro ⟨below, same | member⟩
          · rw [UInt32.le_iff_toNat_le, same] at below
            exact absurd below beyond
          · exact ⟨below, member⟩

/-- Every page comes from a winner. -/
theorem mem_wonPages
    (decoded : wonPages lz4 inputs header won = .ok pages) (pgno : UInt32)
    (data : Bytes) :
    (pgno, data) ∈ pages ↔ pgno ≤ header.commit ∧
      ∃ winner elem bytes ph, (pgno.toNat, winner, some elem) ∈ won ∧
        inputs[winner]? = some bytes ∧
        decodeEntry lz4 bytes header.pageSize.toNat elem = .ok (ph, data) := by
  induction won generalizing pages with
  | nil =>
      cases decoded
      simp
  | cons entry rest ih =>
      obtain ⟨value, winner, found⟩ := entry
      rcases wonPages_cons_eq_ok decoded with
        ⟨inside, elem, bytes, ph, page, others, rfl, input, read, later, rfl⟩ |
          ⟨beyond, later⟩
      · have number := toNat_ofNat_of_le inside
        rw [List.mem_cons, ih later]
        constructor
        · rintro (same | ⟨below, list, other, file, head, member, held⟩)
          · cases same
            refine ⟨UInt32.le_iff_toNat_le.mpr (by rw [number]; exact inside),
              winner, elem, bytes, ph, ?_, input, read⟩
            rw [number]
            exact List.mem_cons_self
          · exact ⟨below, list, other, file, head,
              List.mem_cons_of_mem _ member, held⟩
        · rintro ⟨below, list, other, file, head, member, held, decoded⟩
          rcases List.mem_cons.mp member with same | member
          · cases same
            rw [input] at held
            cases held
            rw [read] at decoded
            cases decoded
            rw [UInt32.ofNat_toNat]
            exact .inl rfl
          · exact .inr ⟨below, list, other, file, head, member, held, decoded⟩
      · rw [ih later]
        constructor
        · rintro ⟨below, list, other, file, head, member, held⟩
          exact ⟨below, list, other, file, head,
            List.mem_cons_of_mem _ member, held⟩
        · rintro ⟨below, list, other, file, head, member, held⟩
          refine ⟨below, list, other, file, head, ?_, held⟩
          rcases List.mem_cons.mp member with same | member
          · cases same
            exact absurd (UInt32.le_iff_toNat_le.mp below) beyond
          · exact member

/-- The pages come out in the order of the winners. -/
theorem wonPages_ascending
    (decoded : wonPages lz4 inputs header won = .ok pages)
    (ascending : (won.map Prod.fst).Pairwise (· < ·)) :
    pages.Pairwise fun left right => left.1 < right.1 := by
  induction won generalizing pages with
  | nil =>
      cases decoded
      exact .nil
  | cons entry rest ih =>
      obtain ⟨value, winner, found⟩ := entry
      obtain ⟨first, rising⟩ := List.pairwise_cons.mp ascending
      rcases wonPages_cons_eq_ok decoded with
        ⟨inside, _, _, _, data, others, _, _, _, later, rfl⟩ | ⟨_, later⟩
      · refine List.pairwise_cons.mpr ⟨?_, ih later rising⟩
        intro page member
        obtain ⟨_, there⟩ := (pgno_mem_wonPages later page.1).mp
          (List.mem_map_of_mem member)
        rw [UInt32.lt_iff_toNat_lt, toNat_ofNat_of_le inside]
        exact first _ there
      · exact ih later rising

/-- Nothing stops the merge when every winner decodes. -/
theorem wonPages_total
    (decodes : ∀ value winner found, (value, winner, found) ∈ won →
      ∃ elem bytes ph data, found = some elem ∧ inputs[winner]? = some bytes ∧
        decodeEntry lz4 bytes header.pageSize.toNat elem = .ok (ph, data)) :
    ∃ pages, wonPages lz4 inputs header won = .ok pages := by
  induction won with
  | nil => exact ⟨[], rfl⟩
  | cons entry rest ih =>
      obtain ⟨value, winner, found⟩ := entry
      obtain ⟨pages, later⟩ := ih fun value winner found member =>
        decodes value winner found (List.mem_cons_of_mem _ member)
      obtain ⟨elem, bytes, ph, data, rfl, input, read⟩ :=
        decodes value winner found List.mem_cons_self
      simp only [wonPages]
      split
      · simp only [input, read, later, bind, Except.bind]
        exact ⟨_, rfl⟩
      · exact ⟨pages, later⟩

end Won

end Wire

end Literstream
