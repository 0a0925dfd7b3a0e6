import Literstream.Ltx.Format

/-!
# The streaming encoder

The encoder checks every page before it writes it.  Its state carries what
those checks have established so far, so that `finish` is total.
-/

namespace Literstream

/-- An encoder in its page state: the header is written, `pages` are the
pages written so far. -/
structure Encoder where
  header : Header
  pages : List Page
  prevPgno : Nat
  valid : header.validate = .ok ()
  ascending : pages.Pairwise fun left right => left.1 < right.1
  pagesOk : ∀ page ∈ pages, PageOk header page
  bounded : ∀ page ∈ pages, page.1 ≤ prevPgno

namespace Encoder

/-- Write the header; it is validated first. -/
def encodeHeader (header : Header) : Except LtxError Encoder :=
  match valid : header.validate with
  | .error error => .error error
  | .ok () =>
      .ok
        { header := header
          pages := []
          prevPgno := 0
          valid := valid
          ascending := .nil
          pagesOk := by simp
          bounded := by simp }

/-- The ordering check: a snapshot starts at page 1 and is contiguous except
for the lock page, any other file is ascending. -/
def inOrder (encoder : Encoder) (pgno : Nat) : Bool :=
  let lock := lockPgno encoder.header.pageSize
  if encoder.header.isSnapshot then
    if encoder.prevPgno = 0 then pgno == 1
    else if encoder.prevPgno = lock - 1 then pgno == encoder.prevPgno + 2
    else pgno == encoder.prevPgno + 1
  else encoder.prevPgno < pgno

theorem inOrder_lt {encoder : Encoder} {pgno : Nat}
    (ordered : encoder.inOrder pgno = true) : encoder.prevPgno < pgno := by
  unfold inOrder at ordered
  simp only at ordered
  split at ordered
  · split at ordered
    · simp only [beq_iff_eq] at ordered
      omega
    · split at ordered <;> simp only [beq_iff_eq] at ordered <;> omega
  · simpa using ordered

/-- Write one page. -/
def encodePage (encoder : Encoder) (pgno : Nat) (data : Bytes) :
    Except LtxError Encoder :=
  if wrong : data.length ≠ encoder.header.pageSize then
    .error (.wrongPageLength encoder.header.pageSize data.length)
  else if zero : pgno = 0 then .error .zeroPageNumber
  else if beyond : pgno > encoder.header.commit then
    .error (.pageBeyondCommit pgno encoder.header.commit)
  else if lock : pgno = lockPgno encoder.header.pageSize then
    .error (.lockPageEncoded pgno)
  else if ordered : encoder.inOrder pgno = true then
    .ok
      { header := encoder.header
        pages := encoder.pages ++ [(pgno, data)]
        prevPgno := pgno
        valid := encoder.valid
        ascending := by
          rw [List.pairwise_append]
          refine ⟨encoder.ascending, by simp, ?_⟩
          intro page member last lastMember
          have below := encoder.bounded page member
          have next := inOrder_lt ordered
          simp only [List.mem_singleton] at lastMember
          subst lastMember
          exact Nat.lt_of_le_of_lt below next
        pagesOk := by
          intro page member
          rcases List.mem_append.mp member with old | new
          · exact encoder.pagesOk page old
          · simp only [List.mem_singleton] at new
            subst new
            exact ⟨by dsimp only; omega, by dsimp only; omega, lock,
              by simpa using wrong⟩
        bounded := by
          intro page member
          rcases List.mem_append.mp member with old | new
          · have below := encoder.bounded page old
            have next := inOrder_lt ordered
            omega
          · simp only [List.mem_singleton] at new
            subst new
            exact Nat.le_refl _ }
  else .error (.pageOutOfOrder encoder.prevPgno pgno)

/-- Write pages one after the other. -/
def encodePages (encoder : Encoder) : List Page → Except LtxError Encoder
  | [] => .ok encoder
  | (pgno, data) :: rest => do
      let next ← encoder.encodePage pgno data
      next.encodePages rest

/-- Write the index and the trailer. -/
def finish (encoder : Encoder) : LtxFile where
  header := encoder.header
  pages := encoder.pages
  valid := encoder.valid
  ascending := encoder.ascending
  pagesOk := encoder.pagesOk

theorem encodeHeader_eq_ok {header : Header} {encoder : Encoder}
    (encoded : encodeHeader header = .ok encoder) :
    encoder.header = header ∧ encoder.pages = [] := by
  unfold encodeHeader at encoded
  split at encoded
  · cases encoded
  · cases encoded
    exact ⟨rfl, rfl⟩

theorem encodePage_eq_ok {encoder next : Encoder} {pgno : Nat} {data : Bytes}
    (encoded : encoder.encodePage pgno data = .ok next) :
    next.header = encoder.header ∧
      next.pages = encoder.pages ++ [(pgno, data)] := by
  unfold encodePage at encoded
  split at encoded
  · cases encoded
  · split at encoded
    · cases encoded
    · split at encoded
      · cases encoded
      · split at encoded
        · cases encoded
        · split at encoded
          · cases encoded
            exact ⟨rfl, rfl⟩
          · cases encoded

theorem encodePages_eq_ok {encoder next : Encoder} {pages : List Page}
    (encoded : encoder.encodePages pages = .ok next) :
    next.header = encoder.header ∧ next.pages = encoder.pages ++ pages := by
  induction pages generalizing encoder with
  | nil =>
      cases encoded
      simp
  | cons page rest ih =>
      rw [encodePages, bind_eq_ok] at encoded
      obtain ⟨middle, first, later⟩ := encoded
      obtain ⟨firstHeader, firstPages⟩ := encodePage_eq_ok first
      obtain ⟨laterHeader, laterPages⟩ := ih later
      refine ⟨laterHeader.trans firstHeader, ?_⟩
      rw [laterPages, firstPages, List.append_assoc]
      rfl

end Encoder

/-- Encode a whole file: the header, then the pages in order. -/
def encodeFile (header : Header) (pages : List Page) :
    Except LtxError LtxFile := do
  let encoder ← Encoder.encodeHeader header
  let written ← encoder.encodePages pages
  return written.finish

theorem encodeFile_eq_ok {header : Header} {pages : List Page} {file : LtxFile}
    (encoded : encodeFile header pages = .ok file) :
    file.header = header ∧ file.pages = pages := by
  rw [encodeFile, bind_eq_ok] at encoded
  obtain ⟨encoder, opened, encoded⟩ := encoded
  rw [bind_eq_ok] at encoded
  obtain ⟨written, paged, finished⟩ := encoded
  obtain ⟨openedHeader, openedPages⟩ := Encoder.encodeHeader_eq_ok opened
  obtain ⟨pagedHeader, pagedPages⟩ := Encoder.encodePages_eq_ok paged
  cases finished
  refine ⟨pagedHeader.trans openedHeader, ?_⟩
  simp [Encoder.finish, pagedPages, openedPages]

end Literstream
