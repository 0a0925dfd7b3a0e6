import Literstream.Restore.Disk

/-!
# The newest-first apply

Both the full restore and the delta restore walk their plan from the newest
file to the oldest and write each page the first time it is seen.  What they
write is one copy of each page, the newest of the plan.
-/

namespace Literstream

open PagedFile

/-- The pages already written by a newest-first apply. -/
class PageSet (σ : Type) where
  /-- Mark a page written; true for the first claim only. -/
  claim : Nat → σ → Bool × σ
  claimed : σ → Nat → Bool
  claim_fst : ∀ pgno set, (claim pgno set).1 = !claimed set pgno
  claimed_claim : ∀ pgno other set,
    claimed (claim pgno set).2 other = (claimed set other || other == pgno)

/-- One cell per page, for a full restore. -/
structure DenseSet where
  cells : List Bool

namespace DenseSet

def empty (size : Nat) : DenseSet := ⟨List.replicate size false⟩

def claim (pgno : Nat) (set : DenseSet) : Bool × DenseSet :=
  match set.cells[pgno]? with
  | some false => (true, ⟨set.cells.set pgno true⟩)
  | _ => (false, set)

/-- A page without a cell can never be claimed. -/
def claimed (set : DenseSet) (pgno : Nat) : Bool := set.cells[pgno]?.getD true

instance : PageSet DenseSet where
  claim := claim
  claimed := claimed
  claim_fst := by
    intro pgno set
    unfold claim claimed
    split
    · simp [*]
    · rename_i other
      cases found : set.cells[pgno]? with
      | none => rfl
      | some cell =>
          cases cell with
          | false => exact absurd found other
          | true => rfl
  claimed_claim := by
    intro pgno other set
    unfold claim
    split
    · rename_i free
      simp only [claimed, List.getElem?_set]
      by_cases same : other = pgno
      · subst same
        have inside : other < set.cells.length := by
          rw [List.getElem?_eq_some_iff] at free
          exact free.1
        simp [inside]
      · simp [same, Ne.symm same]
    · rename_i taken
      by_cases same : other = pgno
      · subst same
        cases found : set.cells[other]? with
        | none => simp [claimed, found]
        | some cell =>
            cases cell with
            | false => exact absurd found taken
            | true => simp [claimed, found]
      · simp [same]

theorem claimed_empty {size pgno : Nat} (inside : pgno < size) :
    PageSet.claimed (empty size) pgno = false := by
  change (empty size).cells[pgno]?.getD true = false
  simp [empty, inside]

end DenseSet

/-- Only the pages claimed, for a delta. -/
structure SparseSet where
  pages : List Nat

namespace SparseSet

def claim (pgno : Nat) (set : SparseSet) : Bool × SparseSet :=
  if set.pages.contains pgno then (false, set)
  else (true, ⟨pgno :: set.pages⟩)

def claimed (set : SparseSet) (pgno : Nat) : Bool := set.pages.contains pgno

instance : PageSet SparseSet where
  claim := claim
  claimed := claimed
  claim_fst := by
    intro pgno set
    unfold claim claimed
    split <;> simp_all
  claimed_claim := by
    intro pgno other set
    unfold claim claimed
    split
    · rename_i member
      by_cases same : other = pgno
      · subst same
        simpa using member
      · simp [same]
    · simp only [List.contains_cons]
      exact Bool.or_comm _ _

end SparseSet

section Apply

variable {σ : Type} [PageSet σ]

/-- `forEachIndexedPage` with the writer of a newest-first apply: decode every
page, write those inside the database that are claimed for the first time. -/
def applyPages (pageSize commit : Nat) :
    List Page → σ → Script FileOp SyncError σ
  | [], written => pure written
  | (pgno, raw) :: rest, written => do
      let data ← Script.lift (liftLtx (decodePageFrame raw pageSize))
      if 1 ≤ pgno ∧ pgno ≤ commit then
        if (PageSet.claim pgno written).1 then do
          Script.emit (writePage pageSize (pgno, data))
          applyPages pageSize commit rest (PageSet.claim pgno written).2
        else applyPages pageSize commit rest (PageSet.claim pgno written).2
      else applyPages pageSize commit rest written

/-- Walk the files, given newest first. -/
def applyNewestFirst (store : Store) (pageSize commit : Nat) :
    List FileKey → σ → Script FileOp SyncError σ
  | [], written => pure written
  | key :: older, written => do
      let file ← Script.lift (getLtx store key)
      let next ← applyPages pageSize commit file.pages written
      applyNewestFirst store pageSize commit older next

end Apply

/-! ## What a newest-first apply writes -/

section Writes

variable {σ : Type} [PageSet σ]

/-- The pages written are whole, inside the database and written once; they
are the pages of `candidates` that were not claimed before. -/
structure Writes (pageSize commit : Nat) (before after : σ)
    (candidates : Nat → Option Bytes) (out : List Page) : Prop where
  fit : ∀ page ∈ out, Fits pageSize commit page
  distinct : out.Pairwise fun left right => left.1 ≠ right.1
  mem_iff : ∀ pgno data, (pgno, data) ∈ out ↔
    1 ≤ pgno ∧ pgno ≤ commit ∧ PageSet.claimed before pgno = false ∧
      ∃ raw, candidates pgno = some raw ∧
        decodePageFrame raw pageSize = .ok data
  claimed : ∀ pgno, 1 ≤ pgno → pgno ≤ commit →
    PageSet.claimed after pgno =
      (PageSet.claimed before pgno || (candidates pgno).isSome)

theorem length_decodePageFrame {raw data : Bytes} {pageSize : Nat}
    (decoded : decodePageFrame raw pageSize = .ok data) :
    data.length = pageSize := by
  unfold decodePageFrame at decoded
  split at decoded
  · cases decoded
  · cases decoded
    simp
    omega

/-- The pages of one file, each once. -/
theorem applyPages_writes {pageSize commit : Nat} {pages : List Page}
    {before after : σ}
    (ascending : pages.Pairwise fun left right => left.1 < right.1)
    (done : (applyPages pageSize commit pages before).result = .ok after) :
    ∃ out, (applyPages pageSize commit pages before).ops =
        out.map (writePage pageSize) ∧
      Writes pageSize commit before after
        (fun pgno => (pages.find? fun page => page.1 = pgno).map Prod.snd)
        out := by
  induction pages generalizing before with
  | nil =>
      simp only [applyPages, Script.result_pure, Except.ok.injEq] at done
      subst done
      exact ⟨[], rfl, by simp, .nil, by simp, by simp⟩
  | cons page rest ih =>
      obtain ⟨pgno, raw⟩ := page
      obtain ⟨above, restAscending⟩ := List.pairwise_cons.mp ascending
      have found : ∀ other, ((((pgno, raw) :: rest).find? fun page =>
          page.1 = other).map Prod.snd) =
          if other = pgno then some raw
          else (rest.find? fun page => page.1 = other).map Prod.snd := by
        intro other
        by_cases same : other = pgno
        · subst same
          simp
        · rw [if_neg same, List.find?_cons_of_neg]
          simpa using Ne.symm same
      rw [applyPages] at done ⊢
      cases decoded : decodePageFrame raw pageSize with
      | error error => simp [decoded, liftLtx] at done
      | ok data =>
          simp only [decoded, liftLtx, Script.lift_ok_bind] at done ⊢
          by_cases inside : 1 ≤ pgno ∧ pgno ≤ commit
          · simp only [if_pos inside] at done ⊢
            have fresh := PageSet.claim_fst pgno before
            have marks : ∀ other,
                PageSet.claimed (PageSet.claim pgno before).2 other =
                  (PageSet.claimed before other || other == pgno) :=
              fun other => PageSet.claimed_claim pgno other before
            have merged : ∀ other,
                (PageSet.claimed (PageSet.claim pgno before).2 other ||
                    ((rest.find? fun page => page.1 = other).map
                      Prod.snd).isSome) =
                  (PageSet.claimed before other ||
                    ((((pgno, raw) :: rest).find? fun page =>
                      page.1 = other).map Prod.snd).isSome) := by
              intro other
              rw [found, marks]
              by_cases same : other = pgno
              · simp [same]
              · have apart : (other == pgno) = false := by simpa using same
                simp [same, apart]
            by_cases first : (PageSet.claim pgno before).1 = true
            · simp only [if_pos first, Script.emit_bind] at done ⊢
              obtain ⟨out, ops, writes⟩ := ih restAscending done
              have free : PageSet.claimed before pgno = false := by
                rw [first] at fresh
                simpa using fresh
              have skipped : ∀ later ∈ out, later.1 ≠ pgno := by
                rintro ⟨later, laterData⟩ member rfl
                obtain ⟨_, _, unclaimed, _⟩ :=
                  (writes.mem_iff later laterData).mp member
                rw [marks] at unclaimed
                simp at unclaimed
              refine ⟨(pgno, data) :: out, by rw [ops]; rfl, ?_, ?_, ?_, ?_⟩
              · intro written member
                rcases List.mem_cons.mp member with rfl | later
                · exact ⟨inside.1, inside.2, length_decodePageFrame decoded⟩
                · exact writes.fit written later
              · exact .cons (fun later member => Ne.symm (skipped later member))
                  writes.distinct
              · intro other otherData
                rw [List.mem_cons, writes.mem_iff, found, marks]
                by_cases same : other = pgno
                · subst same
                  simp [inside, free, decoded, eq_comm]
                · simp [same]
              · intro other positive bounded
                rw [writes.claimed other positive bounded, merged]
            · simp only [if_neg first] at done ⊢
              obtain ⟨out, ops, writes⟩ := ih restAscending done
              have taken : PageSet.claimed before pgno = true := by
                cases claimed : PageSet.claimed before pgno with
                | true => rfl
                | false =>
                    rw [claimed] at fresh
                    exact absurd fresh first
              refine ⟨out, ops, writes.fit, writes.distinct, ?_, ?_⟩
              · intro other otherData
                rw [writes.mem_iff, found, marks]
                by_cases same : other = pgno
                · simp [same, taken]
                · simp [same]
              · intro other positive bounded
                rw [writes.claimed other positive bounded, merged]
          · simp only [if_neg inside] at done ⊢
            obtain ⟨out, ops, writes⟩ := ih restAscending done
            refine ⟨out, ops, writes.fit, writes.distinct, ?_, ?_⟩
            · intro other otherData
              rw [writes.mem_iff, found]
              by_cases same : other = pgno
              · subst same
                constructor
                · rintro ⟨positive, bounded, _⟩
                  exact absurd ⟨positive, bounded⟩ inside
                · rintro ⟨positive, bounded, _⟩
                  exact absurd ⟨positive, bounded⟩ inside
              · simp [same]
            · intro other positive bounded
              have different : other ≠ pgno := by
                rintro rfl
                exact inside ⟨positive, bounded⟩
              rw [writes.claimed other positive bounded, found,
                if_neg different]

theorem Writes.append {pageSize commit : Nat} {before middle after : σ}
    {newer older : Nat → Option Bytes} {first second : List Page}
    (left : Writes pageSize commit before middle newer first)
    (right : Writes pageSize commit middle after older second) :
    Writes pageSize commit before after
      (fun pgno => (newer pgno).or (older pgno)) (first ++ second) where
  fit := by
    intro page member
    rcases List.mem_append.mp member with early | late
    · exact left.fit page early
    · exact right.fit page late
  distinct := by
    rw [List.pairwise_append]
    refine ⟨left.distinct, right.distinct, ?_⟩
    rintro ⟨pgno, data⟩ early ⟨other, otherData⟩ late same
    obtain ⟨positive, inside, _, raw, found, _⟩ :=
      (left.mem_iff pgno data).mp early
    obtain ⟨_, _, unclaimed, _⟩ := (right.mem_iff other otherData).mp late
    have marked := left.claimed pgno positive inside
    simp only at same
    subst same
    rw [unclaimed, found] at marked
    simp at marked
  mem_iff := by
    intro pgno data
    rw [List.mem_append, left.mem_iff, right.mem_iff]
    constructor
    · rintro (⟨positive, inside, free, raw, found, decoded⟩ |
        ⟨positive, inside, free, raw, found, decoded⟩)
      · exact ⟨positive, inside, free, raw, by simp [found], decoded⟩
      · rw [left.claimed pgno positive inside] at free
        simp only [Bool.or_eq_false_iff, Option.isSome_eq_false_iff,
          Option.isNone_iff_eq_none] at free
        exact ⟨positive, inside, free.1, raw, by simp [free.2, found], decoded⟩
    · rintro ⟨positive, inside, free, raw, found, decoded⟩
      cases early : newer pgno with
      | some other =>
          simp only [early, Option.some_or, Option.some.injEq] at found
          subst found
          exact .inl ⟨positive, inside, free, other, rfl, decoded⟩
      | none =>
          simp only [early, Option.none_or] at found
          refine .inr ⟨positive, inside, ?_, raw, found, decoded⟩
          rw [left.claimed pgno positive inside, free, early]
          rfl
  claimed := by
    intro pgno positive inside
    rw [right.claimed pgno positive inside, left.claimed pgno positive inside]
    cases newer pgno <;> simp

/-- A fresh candidate reads back as its decoded contents. -/
theorem Writes.pageAt_of_some {pageSize commit pgno : Nat} {before after : σ}
    {candidates : Nat → Option Bytes} {out : List Page} {raw data file : Bytes}
    (writes : Writes pageSize commit before after candidates out)
    (whole : file.length = commit * pageSize) (positive : 1 ≤ pgno)
    (inside : pgno ≤ commit) (free : PageSet.claimed before pgno = false)
    (found : candidates pgno = some raw)
    (decoded : decodePageFrame raw pageSize = .ok data) :
    pageAt pageSize pgno (writePages pageSize out file) = data :=
  pageAt_writePages_of_mem writes.fit writes.distinct whole
    ((writes.mem_iff pgno data).mpr
      ⟨positive, inside, free, raw, found, decoded⟩)

/-- A page without a fresh candidate is left alone. -/
theorem Writes.pageAt_of_none {pageSize commit pgno : Nat} {before after : σ}
    {candidates : Nat → Option Bytes} {out : List Page} {file : Bytes}
    (writes : Writes pageSize commit before after candidates out)
    (whole : file.length = commit * pageSize) (positive : 1 ≤ pgno)
    (inside : pgno ≤ commit)
    (skipped : PageSet.claimed before pgno = true ∨ candidates pgno = none) :
    pageAt pageSize pgno (writePages pageSize out file) =
      pageAt pageSize pgno file := by
  apply pageAt_writePages_of_not_mem writes.fit whole positive inside
  rintro ⟨number, data⟩ member rfl
  obtain ⟨_, _, free, raw, found, _⟩ := (writes.mem_iff number data).mp member
  rcases skipped with taken | absent
  · rw [free] at taken
    cases taken
  · rw [absent] at found
    cases found

end Writes

section NewestFirst

variable {σ : Type} [PageSet σ]

/-- The newest copy of a page, for files given newest first. -/
def firstPage (pgno : Nat) (files : List KeyedFile) : Option Bytes :=
  files.findSome? fun file => file.2.page? pgno

theorem firstPage_reverse (pgno : Nat) (files : List KeyedFile) :
    firstPage pgno files.reverse = newestPage pgno (files.map Prod.snd) := by
  induction files with
  | nil => rfl
  | cons file rest ih =>
      rw [List.reverse_cons, firstPage, List.findSome?_append]
      change (firstPage pgno rest.reverse).or _ = _
      rw [ih]
      simp [newestPage]

theorem applyNewestFirst_writes {store : Store} {pageSize commit : Nat}
    {files : List KeyedFile} {before after : σ} (loaded : Loaded store files)
    (done : (applyNewestFirst store pageSize commit (files.map Prod.fst)
      before).result = .ok after) :
    ∃ out, (applyNewestFirst store pageSize commit (files.map Prod.fst)
        before).ops = out.map (writePage pageSize) ∧
      Writes pageSize commit before after (fun pgno => firstPage pgno files)
        out := by
  induction files generalizing before with
  | nil =>
      simp only [List.map_nil, applyNewestFirst, Script.result_pure,
        Except.ok.injEq] at done
      subst done
      exact ⟨[], rfl, by simp, .nil, by simp [firstPage], by simp [firstPage]⟩
  | cons file older ih =>
      have held := getLtx_eq_ok.mpr (loaded file (by simp))
      simp only [List.map_cons, applyNewestFirst, held,
        Script.lift_ok_bind] at done ⊢
      obtain ⟨middle, first, second, ops⟩ := Script.result_bind_eq_ok done
      obtain ⟨newer, newerOps, newerWrites⟩ :=
        applyPages_writes file.2.ascending first
      obtain ⟨rest, restOps, restWrites⟩ :=
        ih (fun other member => loaded other (by simp [member])) second
      refine ⟨newer ++ rest, by rw [ops, newerOps, restOps, List.map_append],
        ?_⟩
      have both := newerWrites.append restWrites
      have same : (fun pgno => firstPage pgno (file :: older)) = fun pgno =>
          ((file.2.pages.find? fun page => page.1 = pgno).map Prod.snd).or
            (firstPage pgno older) := by
        funext pgno
        simp only [firstPage, List.findSome?_cons, LtxFile.page?]
        cases (file.2.pages.find? fun page => page.1 = pgno).map Prod.snd <;>
          rfl
      rw [same]
      exact both

theorem applyPages_total {pageSize : Nat} (commit : Nat) {pages : List Page}
    (whole : ∀ page ∈ pages, page.2.length = pageSize) (before : σ) :
    ∃ after, (applyPages pageSize commit pages before).result = .ok after := by
  induction pages generalizing before with
  | nil => exact ⟨before, rfl⟩
  | cons page rest ih =>
      have restWhole : ∀ other ∈ rest, other.2.length = pageSize :=
        fun other member => whole other (by simp [member])
      rw [applyPages, decodePageFrame_of_length (whole page (by simp))]
      simp only [liftLtx, Script.lift_ok_bind]
      split
      · split
        · simpa using ih restWhole _
        · exact ih restWhole _
      · exact ih restWhole _

/-- Files of the right page size never fail to apply. -/
theorem applyNewestFirst_total {store : Store} {pageSize : Nat}
    (commit : Nat) {files : List KeyedFile} (loaded : Loaded store files)
    (sized : ∀ file ∈ files, file.2.header.pageSize = pageSize) (before : σ) :
    ∃ after, (applyNewestFirst store pageSize commit (files.map Prod.fst)
      before).result = .ok after := by
  induction files generalizing before with
  | nil => exact ⟨before, rfl⟩
  | cons file older ih =>
      have held := getLtx_eq_ok.mpr (loaded file (by simp))
      have whole : ∀ page ∈ file.2.pages, page.2.length = pageSize := by
        intro page member
        rw [(file.2.pagesOk page member).2.2.2]
        exact sized file (by simp)
      obtain ⟨middle, first⟩ :=
        applyPages_total commit whole before
      obtain ⟨after, second⟩ :=
        ih (fun other member => loaded other (by simp [member]))
          (fun other member => sized other (by simp [member])) middle
      refine ⟨after, ?_⟩
      simp only [List.map_cons, applyNewestFirst, held, Script.lift_ok_bind]
      rw [Script.bind_of_ok first]
      exact second

end NewestFirst

end Literstream
