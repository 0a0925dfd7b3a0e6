import Literstream.Ltx.Encoder

/-!
# Compaction: the streaming k-way merge

Every input keeps a cursor into its page index.  A heap of the cursors' heads
yields the smallest page number next; all inputs sitting at that page are
consumed together and the last of them wins.  Pages beyond the final database
size are consumed without being written.
-/

namespace Literstream

/-- Page numbers strictly increase along the list. -/
abbrev Ascending (pages : List Page) : Prop :=
  pages.Pairwise fun left right => left.1 < right.1

/-- The smallest page number at the head of a cursor, as the heap shows it. -/
def peek : List (List Page) → Option Nat
  | [] => none
  | [] :: rest => peek rest
  | ((pgno, _) :: _) :: rest =>
      match peek rest with
      | none => some pgno
      | some other => some (min pgno other)

/-- Consume every input sitting at `pgno`; the highest input wins. -/
def consume (pgno : Nat) : List (List Page) → Option Bytes × List (List Page)
  | [] => (none, [])
  | [] :: rest => ((consume pgno rest).1, [] :: (consume pgno rest).2)
  | ((head, data) :: tail) :: rest =>
      if head = pgno then
        ((consume pgno rest).1.or (some data), tail :: (consume pgno rest).2)
      else
        ((consume pgno rest).1, ((head, data) :: tail) :: (consume pgno rest).2)

/-- The loop of `mergeToWriter`; `fuel` bounds the number of index entries
left. -/
def mergeLoop (header : Header) :
    Nat → List (List Page) → Encoder → Except LtxError Encoder
  | 0, _, encoder => .ok encoder
  | fuel + 1, cursors, encoder =>
      match peek cursors with
      | none => .ok encoder
      | some pgno =>
          match (consume pgno cursors).1 with
          | none => mergeLoop header fuel (consume pgno cursors).2 encoder
          | some raw =>
              if pgno ≤ header.commit then do
                let data ← decodePageFrame raw header.pageSize
                let next ← encoder.encodePage pgno data
                mergeLoop header fuel (consume pgno cursors).2 next
              else mergeLoop header fuel (consume pgno cursors).2 encoder

/-- Number of index entries the cursors still have to read. -/
def remaining (cursors : List (List Page)) : Nat :=
  (cursors.map List.length).sum

/-- Merge `inputs` into one file with the given header: a later input wins,
pages beyond the header's commit are dropped.  Contiguity is not checked. -/
def mergeToWriter (inputs : List LtxFile) (header : Header) :
    Except LtxError LtxFile := do
  let encoder ← Encoder.encodeHeader header
  let cursors := inputs.map LtxFile.pages
  let merged ← mergeLoop header (remaining cursors) cursors encoder
  return merged.finish

/-- The check between neighbouring inputs of a compaction. -/
def checkContiguous (pageSize : Nat) : List Header → Except LtxError Unit
  | prev :: cur :: rest =>
      if cur.pageSize ≠ pageSize then .error (.invalidPageSize cur.pageSize)
      else if cur.minTxid > prev.maxTxid + 1 ∨ cur.maxTxid ≤ prev.maxTxid then
        .error (.unexpectedPage (prev.maxTxid % 2 ^ 32) (cur.minTxid % 2 ^ 32))
      else checkContiguous pageSize (cur :: rest)
  | _ => .ok ()

/-- Compact a contiguous run: range start from the first input; range end,
size and timestamp from the last. -/
def compactToWriter (inputs : List LtxFile) : Except LtxError LtxFile :=
  match inputs.head?, inputs.getLast? with
  | some first, some last => do
      checkContiguous first.header.pageSize (inputs.map LtxFile.header)
      mergeToWriter inputs
        (noChecksumHeader first.header.pageSize last.header.commit
          first.header.minTxid last.header.maxTxid last.header.timestamp
          0 0 0 0)
  | _, _ => .error (.shortBuffer 1 0)

/-! ## What the merge computes -/

/-- The contents of a page in the last list that holds it. -/
def newestIn (pgno : Nat) : List (List Page) → Option Bytes
  | [] => none
  | pages :: rest =>
      (newestIn pgno rest).or
        ((pages.find? fun page => page.1 = pgno).map Prod.snd)

theorem find?_eq_none_of_lt {pages : List Page} {pgno : Nat}
    (above : ∀ page ∈ pages, pgno < page.1) :
    (pages.find? fun page => page.1 = pgno) = none := by
  apply List.find?_eq_none.mpr
  intro page member
  have := above page member
  simp
  omega

theorem peek_eq_none {cursors : List (List Page)} (empty : peek cursors = none) :
    ∀ cursor ∈ cursors, cursor = [] := by
  induction cursors with
  | nil => simp
  | cons cursor rest ih =>
      cases cursor with
      | nil => simpa using ih (by simpa [peek] using empty)
      | cons page tail =>
          cases later : peek rest <;> simp [peek, later] at empty

theorem newestIn_eq_none {cursors : List (List Page)}
    (empty : ∀ cursor ∈ cursors, cursor = []) (pgno : Nat) :
    newestIn pgno cursors = none := by
  induction cursors with
  | nil => rfl
  | cons cursor rest ih =>
      have restNone := ih fun later member => empty later (by simp [member])
      simp [newestIn, restNone, empty cursor (by simp)]

/-- The peeked page is the smallest one left. -/
theorem peek_le {cursors : List (List Page)} {pgno : Nat}
    (ascending : ∀ cursor ∈ cursors, Ascending cursor)
    (peeked : peek cursors = some pgno) :
    ∀ cursor ∈ cursors, ∀ page ∈ cursor, pgno ≤ page.1 := by
  induction cursors generalizing pgno with
  | nil => simp
  | cons first rest ih =>
      have restAscending : ∀ cursor ∈ rest, Ascending cursor :=
        fun cursor member => ascending cursor (by simp [member])
      have restBound : ∀ other, peek rest = some other → pgno ≤ other →
          ∀ cursor ∈ rest, ∀ page ∈ cursor, pgno ≤ page.1 := by
        intro other peekedRest below cursor member page pageMember
        exact Nat.le_trans below
          (ih restAscending peekedRest cursor member page pageMember)
      cases first with
      | nil =>
          have peekedRest : peek rest = some pgno := by simpa [peek] using peeked
          intro cursor member page pageMember
          rcases List.mem_cons.mp member with rfl | later
          · cases pageMember
          · exact restBound pgno peekedRest (Nat.le_refl _) cursor later page
              pageMember
      | cons head tail =>
          have headBound : pgno ≤ head.1 → ∀ page ∈ head :: tail,
              pgno ≤ page.1 := by
            intro below page member
            rcases List.mem_cons.mp member with rfl | later
            · exact below
            · have firstAscending := ascending (head :: tail) (by simp)
              have less := (List.pairwise_cons.mp firstAscending).1 page later
              omega
          cases peekedRest : peek rest with
          | none =>
              have same : head.1 = pgno := by
                simpa [peek, peekedRest] using peeked
              intro cursor member page pageMember
              rcases List.mem_cons.mp member with rfl | later
              · exact headBound (Nat.le_of_eq same.symm) page pageMember
              · rw [peek_eq_none peekedRest cursor later] at pageMember
                cases pageMember
          | some other =>
              have same : min head.1 other = pgno := by
                simpa [peek, peekedRest] using peeked
              intro cursor member page pageMember
              rcases List.mem_cons.mp member with rfl | later
              · exact headBound (by omega) page pageMember
              · exact restBound other peekedRest (by omega) cursor later page
                  pageMember

theorem consume_ascending {pgno : Nat} {cursors : List (List Page)}
    (ascending : ∀ cursor ∈ cursors, Ascending cursor) :
    ∀ cursor ∈ (consume pgno cursors).2, Ascending cursor := by
  induction cursors with
  | nil => simp [consume]
  | cons first rest ih =>
      have restAscending : ∀ cursor ∈ rest, Ascending cursor :=
        fun cursor member => ascending cursor (by simp [member])
      have firstAscending := ascending first (by simp)
      have restOk := ih restAscending
      cases first with
      | nil => simpa [consume] using restOk
      | cons head tail =>
          have tailAscending : Ascending tail :=
            (List.pairwise_cons.mp firstAscending).2
          intro cursor member
          by_cases same : head.1 = pgno
          · simp only [consume, same, if_true, List.mem_cons] at member
            rcases member with rfl | later
            · exact tailAscending
            · exact restOk cursor later
          · simp only [consume, same, if_false, List.mem_cons] at member
            rcases member with rfl | later
            · exact firstAscending
            · exact restOk cursor later

/-- Consuming the smallest page yields its newest contents. -/
theorem consume_winner {pgno : Nat} {cursors : List (List Page)}
    (ascending : ∀ cursor ∈ cursors, Ascending cursor)
    (least : ∀ cursor ∈ cursors, ∀ page ∈ cursor, pgno ≤ page.1) :
    (consume pgno cursors).1 = newestIn pgno cursors := by
  induction cursors with
  | nil => rfl
  | cons first rest ih =>
      have restWinner := ih
        (fun cursor member => ascending cursor (by simp [member]))
        (fun cursor member => least cursor (by simp [member]))
      have firstAscending := ascending first (by simp)
      cases first with
      | nil => simp [consume, newestIn, restWinner]
      | cons head tail =>
          by_cases same : head.1 = pgno
          · simp [consume, newestIn, same, restWinner]
          · have headLess : pgno < head.1 := by
              have := least (head :: tail) (by simp) head (by simp)
              omega
            have absent : (tail.find? fun page => page.1 = pgno) = none := by
              apply find?_eq_none_of_lt
              intro page member
              exact Nat.lt_trans headLess
                ((List.pairwise_cons.mp firstAscending).1 page member)
            simp [consume, newestIn, same, restWinner, absent]

/-- Consuming one page leaves the others alone and none of its own. -/
theorem newestIn_consume {pgno : Nat} {cursors : List (List Page)}
    (ascending : ∀ cursor ∈ cursors, Ascending cursor)
    (least : ∀ cursor ∈ cursors, ∀ page ∈ cursor, pgno ≤ page.1)
    (other : Nat) :
    newestIn other (consume pgno cursors).2 =
      if other = pgno then none else newestIn other cursors := by
  induction cursors with
  | nil => simp [consume, newestIn]
  | cons first rest ih =>
      have restNewest := ih
        (fun cursor member => ascending cursor (by simp [member]))
        (fun cursor member => least cursor (by simp [member]))
      have firstAscending := ascending first (by simp)
      cases first with
      | nil =>
          simp only [consume, newestIn, restNewest]
          split <;> simp
      | cons head tail =>
          have tailAbove := (List.pairwise_cons.mp firstAscending).1
          have headLeast := least (head :: tail) (by simp) head (by simp)
          by_cases same : head.1 = pgno
          · subst same
            by_cases equal : other = head.1
            · subst equal
              have absent := find?_eq_none_of_lt tailAbove
              simp [consume, newestIn, restNewest, absent]
            · have different : head.1 ≠ other := fun equality =>
                equal equality.symm
              simp [consume, newestIn, restNewest, equal,
                List.find?_cons_of_neg, different]
          · by_cases equal : other = pgno
            · subst equal
              have absent : (tail.find? fun page => page.1 = other) = none := by
                apply find?_eq_none_of_lt
                intro page member
                have := tailAbove page member
                omega
              simp [consume, newestIn, restNewest, same, absent]
            · simp [consume, newestIn, restNewest, same, equal]

theorem consume_remaining_le (pgno : Nat) (cursors : List (List Page)) :
    remaining (consume pgno cursors).2 ≤ remaining cursors := by
  induction cursors with
  | nil => simp [consume]
  | cons first rest ih =>
      cases first with
      | nil => simpa [consume, remaining] using ih
      | cons head tail =>
          by_cases same : head.1 = pgno <;>
            simp [consume, remaining, same] at ih ⊢ <;> omega

theorem consume_remaining_lt {pgno : Nat} {cursors : List (List Page)}
    (peeked : peek cursors = some pgno) :
    remaining (consume pgno cursors).2 < remaining cursors := by
  induction cursors with
  | nil => simp [peek] at peeked
  | cons first rest ih =>
      have bound := consume_remaining_le pgno rest
      cases first with
      | nil =>
          simpa [consume, remaining] using ih (by simpa [peek] using peeked)
      | cons head tail =>
          by_cases same : head.1 = pgno
          · simp [consume, remaining, same] at bound ⊢
            omega
          · have peekedRest : peek rest = some pgno := by
              cases found : peek rest with
              | none => simp [peek, found, same] at peeked
              | some other =>
                  simp only [peek, found, Option.some.injEq] at peeked
                  simp only [Option.some.injEq]
                  omega
            have less := ih peekedRest
            simp [consume, remaining, same] at less ⊢
            omega

/-- The merge writes, next to what was already written, exactly the newest
contents of every page up to the commit. -/
theorem mem_mergeLoop {header : Header} {fuel : Nat}
    {cursors : List (List Page)} {encoder final : Encoder}
    (ascending : ∀ cursor ∈ cursors, Ascending cursor)
    (enough : remaining cursors ≤ fuel)
    (merged : mergeLoop header fuel cursors encoder = .ok final)
    (pgno : Nat) (data : Bytes) :
    (pgno, data) ∈ final.pages ↔
      (pgno, data) ∈ encoder.pages ∨
        (pgno ≤ header.commit ∧ ∃ raw, newestIn pgno cursors = some raw ∧
          decodePageFrame raw header.pageSize = .ok data) := by
  induction fuel generalizing cursors encoder with
  | zero =>
      cases merged
      have nothing : newestIn pgno cursors = none := by
        apply newestIn_eq_none
        apply peek_eq_none
        cases peeked : peek cursors with
        | none => rfl
        | some found =>
            have := consume_remaining_lt peeked
            omega
      simp [nothing]
  | succ fuel ih =>
      rw [mergeLoop] at merged
      cases peeked : peek cursors with
      | none =>
          simp only [peeked] at merged
          cases merged
          simp [newestIn_eq_none (peek_eq_none peeked)]
      | some found =>
          have least := peek_le ascending peeked
          have winner := consume_winner ascending least
          have nextAscending := @consume_ascending found cursors ascending
          have nextEnough : remaining (consume found cursors).2 ≤ fuel := by
            have := consume_remaining_lt peeked
            omega
          have newest := newestIn_consume ascending least pgno
          simp only [peeked] at merged
          cases consumed : (consume found cursors).1 with
          | none =>
              simp only [consumed] at merged
              rw [ih nextAscending nextEnough merged, newest]
              by_cases same : pgno = found
              · subst same
                rw [winner] at consumed
                simp [consumed]
              · simp [same]
          | some raw =>
              simp only [consumed] at merged
              rw [winner] at consumed
              by_cases within : found ≤ header.commit
              · rw [if_pos within, bind_eq_ok] at merged
                obtain ⟨decoded, decodedOk, merged⟩ := merged
                rw [bind_eq_ok] at merged
                obtain ⟨next, encodedOk, merged⟩ := merged
                rw [ih nextAscending nextEnough merged, newest,
                  (Encoder.encodePage_eq_ok encodedOk).2]
                by_cases same : pgno = found
                · subst same
                  simp [consumed, within, decodedOk, eq_comm]
                · simp [same]
              · rw [if_neg within] at merged
                rw [ih nextAscending nextEnough merged, newest]
                by_cases same : pgno = found
                · subst same
                  simp [within]
                · simp [same]

theorem mergeLoop_header {header : Header} {fuel : Nat}
    {cursors : List (List Page)} {encoder final : Encoder}
    (merged : mergeLoop header fuel cursors encoder = .ok final) :
    final.header = encoder.header := by
  induction fuel generalizing cursors encoder with
  | zero =>
      cases merged
      rfl
  | succ fuel ih =>
      rw [mergeLoop] at merged
      split at merged
      · cases merged
        rfl
      · split at merged
        · exact ih merged
        · split at merged
          · rw [bind_eq_ok] at merged
            obtain ⟨decoded, _, merged⟩ := merged
            rw [bind_eq_ok] at merged
            obtain ⟨next, encodedOk, merged⟩ := merged
            exact (ih merged).trans (Encoder.encodePage_eq_ok encodedOk).1
          · exact ih merged

/-- The contents of a page in the last file that holds it. -/
def newestPage (pgno : Nat) : List LtxFile → Option Bytes
  | [] => none
  | file :: rest => (newestPage pgno rest).or (file.page? pgno)

theorem newestIn_map_pages (pgno : Nat) (inputs : List LtxFile) :
    newestIn pgno (inputs.map LtxFile.pages) = newestPage pgno inputs := by
  induction inputs with
  | nil => rfl
  | cons file rest ih => simp [newestIn, newestPage, ih, LtxFile.page?]

theorem newestPage_eq_some {pgno : Nat} {files : List LtxFile} {data : Bytes}
    (found : newestPage pgno files = some data) :
    ∃ file ∈ files, file.page? pgno = some data := by
  induction files with
  | nil => cases found
  | cons file rest ih =>
      simp only [newestPage] at found
      cases later : newestPage pgno rest with
      | none =>
          simp only [later, Option.none_or] at found
          exact ⟨file, by simp, found⟩
      | some other =>
          simp only [later, Option.some_or, Option.some.injEq] at found
          subst found
          obtain ⟨holder, member, holds⟩ := ih later
          exact ⟨holder, by simp [member], holds⟩

theorem newestPage_isSome {pgno : Nat} {files : List LtxFile} {file : LtxFile}
    {data : Bytes} (member : file ∈ files)
    (held : file.page? pgno = some data) :
    (newestPage pgno files).isSome = true := by
  induction files with
  | nil => cases member
  | cons first rest ih =>
      rw [newestPage, Option.isSome_or]
      rcases List.mem_cons.mp member with rfl | later
      · simp [held]
      · simp [ih later]

theorem mergeToWriter_eq_ok {inputs : List LtxFile} {header : Header}
    {output : LtxFile} (merged : mergeToWriter inputs header = .ok output) :
    output.header = header ∧ ∀ pgno data,
      (pgno, data) ∈ output.pages ↔
        pgno ≤ header.commit ∧ ∃ raw, newestPage pgno inputs = some raw ∧
          decodePageFrame raw header.pageSize = .ok data := by
  rw [mergeToWriter, bind_eq_ok] at merged
  obtain ⟨encoder, opened, merged⟩ := merged
  rw [bind_eq_ok] at merged
  obtain ⟨written, looped, finished⟩ := merged
  obtain ⟨openedHeader, openedPages⟩ := Encoder.encodeHeader_eq_ok opened
  have ascending : ∀ cursor ∈ inputs.map LtxFile.pages, Ascending cursor := by
    intro cursor member
    obtain ⟨file, _, rfl⟩ := List.mem_map.mp member
    exact file.ascending
  cases finished
  refine ⟨(mergeLoop_header looped).trans openedHeader, ?_⟩
  intro pgno data
  have exact_ := mem_mergeLoop ascending (Nat.le_refl _) looped pgno data
  rw [openedPages, newestIn_map_pages] at exact_
  simpa [Encoder.finish] using exact_

/-- Every page of a compaction comes from one of its inputs. -/
theorem compactToWriter_holds {inputs : List LtxFile} {output : LtxFile}
    (done : compactToWriter inputs = .ok output) :
    ∀ page ∈ output.pages, ∃ file ∈ inputs,
      (file.page? page.1).isSome = true := by
  unfold compactToWriter at done
  split at done
  · rw [bind_eq_ok] at done
    obtain ⟨_, _, merged⟩ := done
    rintro ⟨pgno, data⟩ member
    obtain ⟨_, raw, found, _⟩ :=
      ((mergeToWriter_eq_ok merged).2 pgno data).mp member
    obtain ⟨file, inside, holds⟩ := newestPage_eq_some found
    exact ⟨file, inside, Option.isSome_iff_exists.mpr ⟨raw, holds⟩⟩
  · cases done

end Literstream
