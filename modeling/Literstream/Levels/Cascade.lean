import Mathlib.Data.List.Chain
import Mathlib.Data.List.Sort
import Literstream.Ltx.Total
import Literstream.Levels.Merge
import Literstream.Restore.Delta

/-!
# Compactions of compactions

Compacting faithful files never fails, and the output is faithful from the
lowest TXID that any input begins at.  A cascade of compactions over adjacent
groups therefore ends at the same pages as a single compaction.
-/

namespace Literstream

/-- What the contiguity check demands of neighbouring inputs. -/
def Adjacent (pageSize : Nat) (prev cur : Header) : Prop :=
  cur.pageSize = pageSize ∧ cur.minTxid ≤ prev.maxTxid + 1 ∧
    prev.maxTxid < cur.maxTxid

theorem checkContiguous_iff {pageSize : Nat} {headers : List Header} :
    checkContiguous pageSize headers = .ok () ↔
      headers.IsChain (Adjacent pageSize) := by
  induction headers with
  | nil => simp [checkContiguous]
  | cons prev rest ih =>
      cases rest with
      | nil => simp [checkContiguous]
      | cons cur rest =>
          rw [List.isChain_cons_cons, ← ih, checkContiguous, Adjacent]
          by_cases sized : cur.pageSize = pageSize
          · rw [if_neg (not_not.mpr sized)]
            by_cases gap : cur.minTxid > prev.maxTxid + 1 ∨
                cur.maxTxid ≤ prev.maxTxid
            · rw [if_pos gap]
              constructor
              · intro impossible
                cases impossible
              · rintro ⟨⟨_, begins, ends⟩, _⟩
                omega
            · rw [if_neg gap]
              constructor
              · exact fun checked => ⟨⟨sized, by omega, by omega⟩, checked⟩
              · exact fun both => both.2
          · rw [if_pos sized]
            constructor
            · intro impossible
              cases impossible
            · exact fun both => absurd both.1.1 sized

/-- The ends of a contiguous run ascend. -/
theorem chained_ends {pageSize : Nat} {file last : LtxFile}
    {rest : List LtxFile}
    (chained : ((file :: rest).map LtxFile.header).IsChain (Adjacent pageSize))
    (isLast : (file :: rest).getLast? = some last) :
    file.header.maxTxid ≤ last.header.maxTxid := by
  induction rest generalizing file with
  | nil =>
      cases isLast
      exact Nat.le_refl _
  | cons next rest ih =>
      rw [List.map_cons, List.map_cons, List.isChain_cons_cons] at chained
      have step := chained.1.2.2
      have later := ih chained.2 (by rwa [List.getLast?_cons_cons] at isLast)
      omega

/-- The lowest TXID that some input begins at. -/
def lowestTxid (inputs : List LtxFile) : Nat :=
  (inputs.map fun file => file.header.minTxid).min?.getD 0

theorem lowestTxid_spec {inputs : List LtxFile} (nonempty : inputs ≠ []) :
    (∃ file ∈ inputs, file.header.minTxid = lowestTxid inputs) ∧
      ∀ file ∈ inputs, lowestTxid inputs ≤ file.header.minTxid := by
  unfold lowestTxid
  cases found : (inputs.map fun file => file.header.minTxid).min? with
  | none =>
      rw [List.min?_eq_none_iff, List.map_eq_nil_iff] at found
      exact absurd found nonempty
  | some low =>
      obtain ⟨member, below⟩ := List.min?_eq_some_iff.mp found
      refine ⟨List.mem_map.mp member, ?_⟩
      intro file inside
      exact below _ (List.mem_map_of_mem inside)

theorem lowestTxid_eq {inputs : List LtxFile} {low : Nat}
    (attained : ∃ file ∈ inputs, file.header.minTxid = low)
    (below : ∀ file ∈ inputs, low ≤ file.header.minTxid) :
    lowestTxid inputs = low := by
  obtain ⟨file, member, same⟩ := attained
  obtain ⟨⟨other, otherMember, otherSame⟩, least⟩ :=
    lowestTxid_spec (List.ne_nil_of_mem member)
  have upper := least file member
  have lower := below other otherMember
  omega

namespace History

variable {history : History} {pageSize : Nat}

/-- A file stands for the inputs it was compacted from. -/
structure Merged (history : History) (pageSize : Nat) (inputs : List LtxFile)
    (output : LtxFile) : Prop where
  faithful : history.Faithful (lowestTxid inputs) output.header.maxTxid output
  sized : output.header.pageSize = pageSize
  first : inputs.head?.map (fun file => file.header.minTxid) =
    some output.header.minTxid
  last : inputs.getLast?.map (fun file => file.header.maxTxid) =
    some output.header.maxTxid
  stamped : inputs.getLast?.map (fun file => file.header.timestamp) =
    some output.header.timestamp

/-- The outputs of one level, each standing for a group of adjacent inputs. -/
inductive Layer (history : History) (pageSize : Nat) :
    List LtxFile → List LtxFile → Prop where
  | nil : Layer history pageSize [] []
  | cons {inputs rest outputs : List LtxFile} {output : LtxFile} :
      Merged history pageSize inputs output →
      Layer history pageSize rest outputs →
      Layer history pageSize (inputs ++ rest) (output :: outputs)

theorem Merged.nonempty {inputs : List LtxFile} {output : LtxFile}
    (merged : Merged history pageSize inputs output) : inputs ≠ [] := by
  rintro rfl
  cases merged.first

theorem merged_single {file : LtxFile}
    (faithful : history.Faithful file.header.minTxid file.header.maxTxid file)
    (sized : file.header.pageSize = pageSize) :
    Merged history pageSize [file] file where
  faithful := by
    rw [@lowestTxid_eq [file] file.header.minTxid ⟨file, by simp, rfl⟩
      (by simp)]
    exact faithful
  sized := sized
  first := rfl
  last := rfl
  stamped := rfl

theorem layer_single {inputs : List LtxFile}
    (faithful : ∀ file ∈ inputs,
      history.Faithful file.header.minTxid file.header.maxTxid file)
    (sized : ∀ file ∈ inputs, file.header.pageSize = pageSize) :
    Layer history pageSize inputs inputs := by
  induction inputs with
  | nil => exact .nil
  | cons file rest ih =>
      exact @Layer.cons _ _ [file] _ _ _
        (merged_single (faithful file (by simp)) (sized file (by simp)))
        (ih (fun other member => faithful other (by simp [member]))
          (fun other member => sized other (by simp [member])))

/-- A layer begins and ends as its inputs do. -/
theorem Layer.ends {inputs outputs : List LtxFile}
    (layer : Layer history pageSize inputs outputs) :
    inputs.head?.map (fun file => file.header.minTxid) =
        outputs.head?.map (fun file => file.header.minTxid) ∧
      inputs.getLast?.map (fun file => file.header.maxTxid) =
        outputs.getLast?.map (fun file => file.header.maxTxid) ∧
      inputs.getLast?.map (fun file => file.header.timestamp) =
        outputs.getLast?.map (fun file => file.header.timestamp) := by
  induction layer with
  | nil => exact ⟨rfl, rfl, rfl⟩
  | @cons inputs rest outputs output merged layer ih =>
      obtain ⟨_, lasts, stamps⟩ := ih
      have split_ : output :: outputs = [output] ++ outputs := rfl
      rw [split_]
      simp only [List.head?_append, List.getLast?_append, Option.map_or,
        merged.first, merged.last, merged.stamped, lasts, stamps]
      simp

/-- The outputs of a layer pass the contiguity check when its inputs do. -/
theorem Layer.chained {inputs outputs : List LtxFile}
    (layer : Layer history pageSize inputs outputs)
    (chained : (inputs.map LtxFile.header).IsChain (Adjacent pageSize)) :
    (outputs.map LtxFile.header).IsChain (Adjacent pageSize) := by
  induction layer with
  | nil => exact .nil
  | @cons inputs rest outputs output merged layer ih =>
      rw [List.map_append, List.isChain_append] at chained
      obtain ⟨inner, later, joint⟩ := chained
      have split_ : (output :: outputs).map LtxFile.header =
          [output.header] ++ outputs.map LtxFile.header := rfl
      rw [split_, List.isChain_append]
      refine ⟨.singleton _, ih later, ?_⟩
      intro prev isPrev cur isCur
      simp only [List.getLast?_singleton, Option.mem_def,
        Option.some.injEq] at isPrev
      subst isPrev
      cases layer with
      | nil => cases isCur
      | @cons group others outputs next nextMerged layer =>
          cases isCur
          cases group with
          | nil => cases nextMerged.first
          | cons oldest newer =>
              obtain ⟨lastInput, isLast, lastMax⟩ :=
                Option.map_eq_some_iff.mp merged.last
              obtain ⟨lastNext, isLastNext, nextMax⟩ :=
                Option.map_eq_some_iff.mp nextMerged.last
              have nextMin := nextMerged.first
              simp only [List.head?_cons, Option.map_some,
                Option.some.injEq] at nextMin
              obtain ⟨_, begins, ends⟩ := joint lastInput.header
                (by rw [List.getLast?_map, isLast]; rfl) oldest.header rfl
              rw [List.map_append, List.isChain_append] at later
              have ascends := chained_ends later.1 isLastNext
              exact ⟨nextMerged.sized, by omega, by omega⟩

/-- The outputs of a layer with the ranges that they really hold. -/
theorem Layer.keyed {inputs outputs : List LtxFile}
    (layer : Layer history pageSize inputs outputs) :
    ∃ files : List KeyedFile, files.map Prod.snd = outputs ∧
      history.FaithfulFiles files ∧
      (∀ file ∈ files, file.2.header.maxTxid = file.1.maxTxid ∧
        file.1.minTxid ≤ file.2.header.minTxid ∧
        ∃ input ∈ inputs, input.header.minTxid = file.1.minTxid) ∧
      ∀ input ∈ inputs, ∃ file ∈ files,
        file.1.minTxid ≤ input.header.minTxid := by
  induction layer with
  | nil => exact ⟨[], rfl, by simp [FaithfulFiles], by simp, by simp⟩
  | @cons inputs rest outputs output merged layer ih =>
      obtain ⟨files, keys, faithful, ranged, covered⟩ := ih
      obtain ⟨attained, below⟩ := lowestTxid_spec merged.nonempty
      obtain ⟨oldest, isFirst, firstMin⟩ :=
        Option.map_eq_some_iff.mp merged.first
      refine ⟨(⟨0, lowestTxid inputs, output.header.maxTxid⟩, output) :: files,
        by simp [keys], ?_, ?_, ?_⟩
      · intro file member
        rcases List.mem_cons.mp member with rfl | later
        · exact merged.faithful
        · exact faithful file later
      · intro file member
        rcases List.mem_cons.mp member with rfl | later
        · obtain ⟨input, inside, same⟩ := attained
          refine ⟨rfl, ?_, input, List.mem_append_left _ inside, same⟩
          dsimp only
          rw [← firstMin]
          exact below oldest (List.mem_of_head? isFirst)
        · obtain ⟨ends, starts, input, inside, same⟩ := ranged file later
          exact ⟨ends, starts, input, List.mem_append_right _ inside, same⟩
      · intro input member
        rcases List.mem_append.mp member with early | late
        · exact ⟨_, List.mem_cons_self, below input early⟩
        · obtain ⟨file, inside, lower⟩ := covered input late
          exact ⟨file, List.mem_cons_of_mem _ inside, lower⟩

theorem Layer.sized {inputs outputs : List LtxFile}
    (layer : Layer history pageSize inputs outputs) :
    ∀ file ∈ outputs, file.header.pageSize = pageSize := by
  induction layer with
  | nil => simp
  | cons merged _ ih =>
      intro file member
      rcases List.mem_cons.mp member with rfl | later
      · exact merged.sized
      · exact ih file later

/-- The pages of a chain of one page size suit the encoder: a file from TXID 1
on finds every page of the database. -/
theorem mergeable_chain {files : List KeyedFile} {first : KeyedFile}
    {rest : List KeyedFile} {start finish : Nat} {header : Header}
    (split_ : files = first :: rest) (chain : PlanChain start files finish)
    (faithful : history.FaithfulFiles files)
    (sized : ∀ file ∈ files, file.2.header.pageSize = header.pageSize)
    (starts : first.1.minTxid ≤ header.minTxid)
    (pageSize : header.pageSize = history.pageSize finish)
    (commit : header.commit = history.size finish) :
    Mergeable header 0 fun pgno => newestPage pgno (files.map Prod.snd) := by
  have holder (pgno : Nat) (raw : Bytes)
      (found : newestPage pgno (files.map Prod.snd) = some raw) :
      1 ≤ pgno ∧ pgno ≠ lockPgno header.pageSize ∧
        raw.length = header.pageSize := by
    obtain ⟨file, member, held⟩ := newestPage_eq_some found
    obtain ⟨keyed, inside, rfl⟩ := List.mem_map.mp member
    obtain ⟨positive, _, notLock, length⟩ :=
      keyed.2.pagesOk _ (keyed.2.page?_eq_some_iff.mp held)
    rw [sized keyed inside] at notLock length
    exact ⟨positive, notLock, length⟩
  constructor
  · exact fun pgno raw found => (holder pgno raw found).1
  · exact fun pgno raw found => (holder pgno raw found).2.2
  · exact fun pgno raw found _ => (holder pgno raw found).2.1
  · intro snapshot pgno positive inside notLock
    rw [commit] at inside
    rw [pageSize] at notLock
    have stored : history.Stored finish pgno := ⟨positive, inside, notLock⟩
    have one : header.minTxid = 1 := by simpa [Header.isSnapshot] using snapshot
    cases found : newestPage pgno (files.map Prod.snd) with
    | some raw => rfl
    | none =>
        have unwritten := newestPage_unwritten chain faithful stored found first
          (by simp [split_])
        exact absurd (stored.writtenIn.mono (by omega) (Nat.le_refl _))
          unwritten

/-- Compacting a layer succeeds, and the output stands for all its inputs. -/
theorem Layer.compact {inputs outputs : List LtxFile}
    (layer : Layer history pageSize inputs outputs) (nonempty : inputs ≠ [])
    (chained : (inputs.map LtxFile.header).IsChain (Adjacent pageSize)) :
    ∃ output, compactToWriter outputs = .ok output ∧
      Merged history pageSize inputs output := by
  obtain ⟨files, keys, faithful, ranged, covered⟩ := layer.keyed
  have outputsChained := layer.chained chained
  have outputsSized := layer.sized
  obtain ⟨heads, lasts, stamps⟩ := layer.ends
  obtain ⟨⟨lowInput, lowMember, lowSame⟩, below⟩ := lowestTxid_spec nonempty
  obtain ⟨lowFile, lowInside, lowLe⟩ := covered lowInput lowMember
  subst keys
  have sized : ∀ file ∈ files, file.2.header.pageSize = pageSize :=
    fun file member => outputsSized file.2 (List.mem_map_of_mem member)
  have lower : ∀ file ∈ files, lowestTxid inputs ≤ file.1.minTxid := by
    intro file member
    obtain ⟨_, _, input, inside, same⟩ := ranged file member
    rw [← same]
    exact below input inside
  have attained : ∃ file ∈ files, file.1.minTxid = lowestTxid inputs := by
    have above := lower lowFile lowInside
    exact ⟨lowFile, lowInside, by omega⟩
  cases files with
  | nil => cases lowInside
  | cons first rest =>
      obtain ⟨last, isLast⟩ : ∃ last, (first :: rest).getLast? = some last :=
        ⟨_, List.getLast?_eq_some_getLast (by simp)⟩
      have lastMember := List.mem_of_getLast? isLast
      obtain ⟨firstEnds, firstStarts, firstInput, firstInside, firstSame⟩ :=
        ranged first (by simp)
      have firstValid := Header.validate_eq_ok first.2.valid
      have inputValid := Header.validate_eq_ok firstInput.valid
      have checked := checkContiguous_iff.mpr outputsChained
      have headers : ((first :: rest).map Prod.snd).map LtxFile.header =
          (first :: rest).map fun file => file.2.header := by
        rw [List.map_map]
        rfl
      have keyedChecked := checked
      rw [headers] at keyedChecked
      obtain ⟨⟨finish, chain⟩, _⟩ := chain_of_checkContiguous
        (fun file member => (ranged file member).1)
        (fun file member => (ranged file (List.mem_cons_of_mem _ member)).2.1)
        keyedChecked
        (show first.1.minTxid ≤ first.1.minTxid - 1 + 1 by omega)
        (show first.1.minTxid - 1 < first.1.maxTxid by omega)
      obtain ⟨ends, lastSize, lastCommit⟩ := faithful.last chain isLast
      have between := (chain_bounds chain first (by simp)).2
      have lastEnds := (ranged last lastMember).1
      rw [sized last lastMember] at lastSize
      let header := noChecksumHeader first.2.header.pageSize
        last.2.header.commit first.2.header.minTxid last.2.header.maxTxid
        last.2.header.timestamp 0 0 0 0
      have firstSize := sized first (by simp)
      have headerSize : header.pageSize = pageSize := firstSize
      have valid : header.validate = .ok () := by
        have ordered : ¬ (first.2.header.minTxid = 0 ∨
            last.2.header.maxTxid = 0 ∨
            first.2.header.minTxid > last.2.header.maxTxid) := by omega
        simp [header, Header.validate, noChecksumHeader, firstValid.1, ordered]
      have mergeable := @mergeable_chain _ _ _ _ _ _ header rfl chain faithful
        (fun file member => (sized file member).trans headerSize.symm)
        firstStarts (headerSize.trans lastSize) lastCommit
      obtain ⟨output, merged⟩ := mergeToWriter_total valid mergeable
      have sameHeader := (mergeToWriter_eq_ok merged).1
      have lastOutput : ((first :: rest).map Prod.snd).getLast? =
          some last.2 := by
        rw [List.getLast?_map, isLast]
        rfl
      have firstOutput : ((first :: rest).map Prod.snd).head? =
          some first.2 := rfl
      refine ⟨output, ?_, ?_⟩
      · unfold compactToWriter
        simp only [firstOutput, lastOutput, firstSize]
        rw [checked]
        simp only [header, firstSize] at merged
        exact merged
      · rw [firstOutput] at heads
        rw [lastOutput] at lasts stamps
        have range := mergeToWriter_faithful merged chain faithful lower
          attained (headerSize.trans lastSize) lastCommit
        constructor
        · rw [sameHeader]
          change history.Faithful _ last.2.header.maxTxid output
          rw [lastEnds, ends]
          exact range
        · rw [sameHeader]
          exact headerSize
        · rw [sameHeader, heads]
          rfl
        · rw [sameHeader, lasts]
          rfl
        · rw [sameHeader, stamps]
          rfl

end History

/-- A compaction, of files or of what other compactions produced. -/
inductive Cascade where
  | input (file : LtxFile)
  | merge (first : Cascade) (rest : List Cascade)

mutual

/-- The files that a cascade starts from, oldest first. -/
def Cascade.inputs : Cascade → List LtxFile
  | .input file => [file]
  | .merge first rest => first.inputs ++ Cascade.inputsAll rest

def Cascade.inputsAll : List Cascade → List LtxFile
  | [] => []
  | part :: rest => part.inputs ++ Cascade.inputsAll rest

end

mutual

/-- Run a cascade, from its leaves up. -/
def Cascade.run : Cascade → Except LtxError LtxFile
  | .input file => .ok file
  | .merge first rest => do
      let oldest ← first.run
      let newer ← Cascade.runAll rest
      compactToWriter (oldest :: newer)

def Cascade.runAll : List Cascade → Except LtxError (List LtxFile)
  | [] => .ok []
  | part :: rest => do
      let output ← part.run
      let outputs ← Cascade.runAll rest
      return output :: outputs

end

namespace History

variable {history : History} {pageSize : Nat}

mutual

theorem cascade_run (cascade : Cascade)
    (faithful : ∀ file ∈ cascade.inputs,
      history.Faithful file.header.minTxid file.header.maxTxid file)
    (sized : ∀ file ∈ cascade.inputs, file.header.pageSize = pageSize)
    (chained : (cascade.inputs.map LtxFile.header).IsChain
      (Adjacent pageSize)) :
    ∃ output, cascade.run = .ok output ∧
      Merged history pageSize cascade.inputs output := by
  cases cascade with
  | input file =>
      rw [Cascade.inputs] at faithful sized ⊢
      exact ⟨file, rfl, merged_single (faithful file (by simp))
        (sized file (by simp))⟩
  | merge first rest =>
      rw [Cascade.inputs] at faithful sized chained ⊢
      have whole := chained
      rw [List.map_append, List.isChain_append] at chained
      obtain ⟨oldest, firstRun, firstMerged⟩ := cascade_run first
        (fun file member => faithful file (List.mem_append_left _ member))
        (fun file member => sized file (List.mem_append_left _ member))
        chained.1
      obtain ⟨newer, restRun, layer⟩ := cascade_runAll rest
        (fun file member => faithful file (List.mem_append_right _ member))
        (fun file member => sized file (List.mem_append_right _ member))
        chained.2.1
      have both := Layer.cons firstMerged layer
      obtain ⟨output, compacted, merged⟩ := both.compact
        (List.append_ne_nil_of_left_ne_nil firstMerged.nonempty _) whole
      refine ⟨output, ?_, merged⟩
      rw [Cascade.run, firstRun, restRun]
      exact compacted

theorem cascade_runAll (parts : List Cascade)
    (faithful : ∀ file ∈ Cascade.inputsAll parts,
      history.Faithful file.header.minTxid file.header.maxTxid file)
    (sized : ∀ file ∈ Cascade.inputsAll parts,
      file.header.pageSize = pageSize)
    (chained : ((Cascade.inputsAll parts).map LtxFile.header).IsChain
      (Adjacent pageSize)) :
    ∃ outputs, Cascade.runAll parts = .ok outputs ∧
      Layer history pageSize (Cascade.inputsAll parts) outputs := by
  cases parts with
  | nil =>
      rw [Cascade.inputsAll]
      exact ⟨[], by rw [Cascade.runAll], .nil⟩
  | cons part rest =>
      rw [Cascade.inputsAll] at faithful sized chained ⊢
      rw [List.map_append, List.isChain_append] at chained
      obtain ⟨output, partRun, partMerged⟩ := cascade_run part
        (fun file member => faithful file (List.mem_append_left _ member))
        (fun file member => sized file (List.mem_append_left _ member))
        chained.1
      obtain ⟨outputs, restRun, layer⟩ := cascade_runAll rest
        (fun file member => faithful file (List.mem_append_right _ member))
        (fun file member => sized file (List.mem_append_right _ member))
        chained.2.1
      refine ⟨output :: outputs, ?_, .cons partMerged layer⟩
      rw [Cascade.runAll, partRun, restRun]
      rfl

end

/-- Files that are faithful to the same range hold the same pages. -/
theorem Faithful.pages_eq {first last : Nat} {left right : LtxFile}
    (leftFaithful : history.Faithful first last left)
    (rightFaithful : history.Faithful first last right) :
    left.pages = right.pages := by
  have irreflexive : Std.Irrefl fun left right : Page => left.1 < right.1 :=
    ⟨fun page => Nat.lt_irrefl page.1⟩
  apply List.Pairwise.eq_of_mem_iff left.ascending right.ascending
  rintro ⟨pgno, data⟩
  rw [leftFaithful.pages, rightFaithful.pages]

/-- Compacting faithful files of one page size whose ranges pass the contiguity
check succeeds; the output is faithful from the lowest TXID that an input begins
at, and every cascade over the same files ends at the same pages. -/
theorem compact_faithful {inputs : List LtxFile} {first last : LtxFile}
    (isFirst : inputs.head? = some first)
    (isLast : inputs.getLast? = some last)
    (faithful : ∀ file ∈ inputs,
      history.Faithful file.header.minTxid file.header.maxTxid file)
    (sized : ∀ file ∈ inputs, file.header.pageSize = pageSize)
    (checked : checkContiguous pageSize (inputs.map LtxFile.header) =
      .ok ()) :
    ∃ output, compactToWriter inputs = .ok output ∧
      output.header.minTxid = first.header.minTxid ∧
      output.header.maxTxid = last.header.maxTxid ∧
      output.header.timestamp = last.header.timestamp ∧
      history.Faithful (lowestTxid inputs) last.header.maxTxid output ∧
      ((∀ file ∈ inputs, first.header.minTxid ≤ file.header.minTxid) →
        history.Faithful first.header.minTxid last.header.maxTxid output) ∧
      ∀ cascade : Cascade, cascade.inputs = inputs →
        ∃ other, cascade.run = .ok other ∧ other.pages = output.pages ∧
          other.header.commit = output.header.commit := by
  have chained := checkContiguous_iff.mp checked
  have firstMember := List.mem_of_head? isFirst
  obtain ⟨output, compacted, merged⟩ := (layer_single faithful sized).compact
    (List.ne_nil_of_mem firstMember) chained
  have headerMin := merged.first
  have headerMax := merged.last
  have stamped := merged.stamped
  simp only [isFirst, isLast, Option.map_some,
    Option.some.injEq] at headerMin headerMax stamped
  have range := merged.faithful
  rw [← headerMax] at range
  refine ⟨output, compacted, headerMin.symm, headerMax.symm, stamped.symm,
    range, ?_, ?_⟩
  · intro begins
    rw [lowestTxid_eq ⟨first, firstMember, rfl⟩ begins] at range
    exact range
  · rintro cascade rfl
    obtain ⟨other, run, otherMerged⟩ :=
      cascade_run cascade faithful sized chained
    have otherMax := otherMerged.last
    simp only [isLast, Option.map_some, Option.some.injEq] at otherMax
    have otherRange := otherMerged.faithful
    rw [← otherMax] at otherRange
    exact ⟨other, run, otherRange.pages_eq range,
      otherRange.commit.trans range.commit.symm⟩

/-- The raw files of the database that grows, shrinks and regrows, with the
shrink and the regrowth already merged. -/
def shrinkingInputs : List LtxFile :=
  [shrinking.file 1 1 5 (shrinking_sized 1) range_one,
    shrinking.file 2 2 6 (shrinking_sized 2) range_two,
    shrinking.file 3 4 7 (shrinking_sized 4) (by decide)]

theorem compact_faithful_shrinking :
    ∃ output, compactToWriter shrinkingInputs = .ok output ∧
      output.header.timestamp = 7 ∧ shrinking.Faithful 1 4 output := by
  obtain ⟨output, compacted, _, _, stamped, _, faithful, _⟩ :=
    @compact_faithful shrinking 512 shrinkingInputs _ _ rfl rfl
      (by
        intro file member
        simp only [shrinkingInputs, List.mem_cons, List.not_mem_nil,
          or_false] at member
        rcases member with rfl | rfl | rfl <;>
          exact faithful_file shrinking rfl (by decide))
      (by decide +kernel) (by decide +kernel)
  exact ⟨output, compacted, stamped, faithful (by decide +kernel)⟩

/-- A database that gains one page with every TXID and rewrites none. -/
def growing : History :=
  filled 512 sector_pos id rfl fun _ pgno => pgno.toUInt8

instance (txid pgno : Nat) : Decidable (growing.written txid pgno) :=
  inferInstanceAs (Decidable (_ ∨ _))

/-- Two overlapping files of it; the second one begins before the first. -/
def earlyInputs : List LtxFile :=
  [growing.file 2 2 0 rfl range_two, growing.file 1 3 0 rfl (by decide)]

/-- An input that begins before the first one brings in pages that were
written before the range of the output. -/
theorem early_input_leaks :
    (∀ file ∈ earlyInputs, file.header.pageSize = 512 ∧
      growing.Faithful file.header.minTxid file.header.maxTxid file) ∧
    checkContiguous 512 (earlyInputs.map LtxFile.header) = .ok () ∧
    ∃ output, compactToWriter earlyInputs = .ok output ∧
      output.header.minTxid = 2 ∧ output.header.maxTxid = 3 ∧
      ¬ growing.Faithful 2 3 output := by
  have faithful : ∀ file ∈ earlyInputs,
      growing.Faithful file.header.minTxid file.header.maxTxid file := by
    intro file member
    simp only [earlyInputs, List.mem_cons, List.not_mem_nil,
      or_false] at member
    rcases member with rfl | rfl <;>
      exact faithful_file growing rfl (by decide)
  have sized : ∀ file ∈ earlyInputs, file.header.pageSize = 512 := by
    decide +kernel
  have checked : checkContiguous 512 (earlyInputs.map LtxFile.header) =
      .ok () := by decide +kernel
  obtain ⟨output, compacted, merged⟩ := (layer_single faithful sized).compact
    (by simp [earlyInputs]) (checkContiguous_iff.mp checked)
  have headerMin : output.header.minTxid = 2 :=
    (Option.some.inj merged.first).symm
  have headerMax : output.header.maxTxid = 3 :=
    (Option.some.inj merged.last).symm
  refine ⟨fun file member => ⟨sized file member, faithful file member⟩,
    checked, output, compacted, headerMin, headerMax, ?_⟩
  intro wrong
  have range := merged.faithful
  have low : lowestTxid earlyInputs = 1 := by decide +kernel
  rw [low, headerMax] at range
  have held := (range.pages 1 (growing.content 3 1)).mpr
    ⟨⟨by decide, by decide, by decide⟩, ⟨1, by decide⟩, rfl⟩
  obtain ⟨_, ⟨txid, after, until_, written⟩, _⟩ := (wrong.pages _ _).mp held
  rcases written with grown | changed
  · change txid - 1 < 1 at grown
    omega
  · exact changed rfl

end History

end Literstream
