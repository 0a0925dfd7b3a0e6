import Literstream.History

/-!
# Merging faithful files

Merging a chain of faithful files gives the faithful file of the whole range.
The check between neighbouring inputs of a compaction establishes the chain.
-/

namespace Literstream

/-- The headers that the contiguity check looks at agree with the addresses:
every end, and every start but the first. -/
structure HeadersAgree (files : List KeyedFile) : Prop where
  maxTxid : ∀ file ∈ files, file.2.header.maxTxid = file.1.maxTxid
  minTxid : ∀ file ∈ files.tail, file.2.header.minTxid = file.1.minTxid

/-- Inputs that pass the contiguity check form a chain of one page size, also
when their addresses begin before their headers do. -/
theorem chain_of_checkContiguous {pageSize start : Nat} {first : KeyedFile}
    {rest : List KeyedFile}
    (headerEnds : ∀ file ∈ first :: rest,
      file.2.header.maxTxid = file.1.maxTxid)
    (headerStarts : ∀ file ∈ rest, file.1.minTxid ≤ file.2.header.minTxid)
    (checked : checkContiguous pageSize
      ((first :: rest).map fun file => file.2.header) = .ok ())
    (begins : first.1.minTxid ≤ start + 1) (ends : start < first.1.maxTxid) :
    (∃ finish, PlanChain start (first :: rest) finish) ∧
      ∀ file ∈ rest, file.2.header.pageSize = pageSize := by
  induction rest generalizing start first with
  | nil =>
      exact ⟨⟨_, .cons ⟨begins, ends⟩ (.nil _)⟩, by simp⟩
  | cons next rest ih =>
      simp only [List.map_cons, checkContiguous] at checked
      split at checked
      · cases checked
      · rename_i sameSize
        split at checked
        · cases checked
        · rename_i contiguous
          have firstMax := headerEnds first (by simp)
          have nextMax := headerEnds next (by simp)
          have nextMin := headerStarts next (by simp)
          rw [firstMax, nextMax] at contiguous
          obtain ⟨⟨finish, chain⟩, sizes⟩ :=
            ih (fun file member => headerEnds file
                (List.mem_cons_of_mem _ member))
              (fun file member => headerStarts file
                (List.mem_cons_of_mem _ member)) checked
              (show next.1.minTxid ≤ first.1.maxTxid + 1 by omega)
              (show first.1.maxTxid < next.1.maxTxid by omega)
          refine ⟨⟨finish, .cons ⟨begins, ends⟩ chain⟩, ?_⟩
          intro file member
          rcases List.mem_cons.mp member with rfl | later
          · exact not_not.mp sameSize
          · exact sizes file later

namespace History

variable {history : History}

/-- A page without a copy along a chain was not written from the start of any
of its files on. -/
theorem newestPage_unwritten {files : List KeyedFile} {start finish pgno : Nat}
    (chain : PlanChain start files finish)
    (faithful : history.FaithfulFiles files)
    (stored : history.Stored finish pgno)
    (absent : newestPage pgno (files.map Prod.snd) = none) :
    ∀ file ∈ files, ¬ history.WrittenIn file.1.minTxid finish pgno := by
  induction files generalizing start with
  | nil => simp
  | cons file rest ih =>
      cases chain with
      | cons extends_ tail =>
          have restFaithful : history.FaithfulFiles rest :=
            fun other member => faithful other (by simp [member])
          simp only [List.map_cons, newestPage, Option.or_eq_none_iff] at absent
          intro other member
          rcases List.mem_cons.mp member with rfl | later
          · have after := (newestPage_chain tail restFaithful stored).2 absent.1
            obtain ⟨before, _, _⟩ := stored.kept tail.le after
            have within := (faithful other (by simp)).page?_eq_none absent.2
              before
            rintro ⟨txid, starts, ends, written⟩
            rcases Nat.lt_or_ge other.1.maxTxid txid with beyond | inside
            · exact after ⟨txid, beyond, ends, written⟩
            · exact within ⟨txid, starts, inside, written⟩
          · exact ih tail restFaithful absent.1 other later

/-- The merge of a chain holds the image at its end, as far as one of its files
holds a page. -/
theorem mem_pages_of_chain {files : List KeyedFile} {start finish : Nat}
    {header : Header} {output : LtxFile}
    (merged : mergeToWriter (files.map Prod.snd) header = .ok output)
    (chain : PlanChain start files finish)
    (faithful : history.FaithfulFiles files)
    (pageSize : header.pageSize = history.pageSize finish)
    (commit : header.commit = history.size finish) (pgno : Nat)
    (data : Bytes) :
    (pgno, data) ∈ output.pages ↔
      history.Stored finish pgno ∧
        (∃ raw, newestPage pgno (files.map Prod.snd) = some raw) ∧
        data = history.content finish pgno := by
  obtain ⟨sameHeader, members⟩ := mergeToWriter_eq_ok merged
  rw [pageSize, commit] at members
  constructor
  · intro member
    obtain ⟨positive, inside, notLock, _⟩ := output.pagesOk _ member
    rw [sameHeader, commit] at inside
    rw [sameHeader, pageSize] at notLock
    have stored : history.Stored finish pgno := ⟨positive, inside, notLock⟩
    obtain ⟨_, raw, found, decoded⟩ := (members pgno data).mp member
    obtain ⟨same, length⟩ :=
      (newestPage_chain chain faithful stored).1 raw found
    rw [decodePageFrame_of_length length] at decoded
    cases decoded
    exact ⟨stored, ⟨_, found⟩, same⟩
  · rintro ⟨stored, ⟨raw, found⟩, rfl⟩
    obtain ⟨same, length⟩ :=
      (newestPage_chain chain faithful stored).1 raw found
    rw [members]
    refine ⟨stored.2.1, raw, found, ?_⟩
    rw [decodePageFrame_of_length length, same]

/-- The merge of a chain is faithful to the range from the first TXID that any
of its files may write. -/
theorem mergeToWriter_faithful {files : List KeyedFile}
    {start first finish : Nat} {header : Header} {output : LtxFile}
    (merged : mergeToWriter (files.map Prod.snd) header = .ok output)
    (chain : PlanChain start files finish)
    (faithful : history.FaithfulFiles files)
    (lower : ∀ file ∈ files, first ≤ file.1.minTxid)
    (attained : ∃ file ∈ files, file.1.minTxid = first)
    (pageSize : header.pageSize = history.pageSize finish)
    (commit : header.commit = history.size finish) :
    history.Faithful first finish output := by
  have members := mem_pages_of_chain merged chain faithful pageSize commit
  have sameHeader := (mergeToWriter_eq_ok merged).1
  have upper : ∀ file ∈ files, file.1.maxTxid ≤ finish :=
    fun file member => (chain_bounds chain file member).2
  refine ⟨by rw [sameHeader, pageSize], by rw [sameHeader, commit], ?_⟩
  intro pgno data
  rw [members]
  constructor
  · rintro ⟨stored, ⟨raw, found⟩, same⟩
    exact ⟨stored, newestPage_written faithful lower upper found, same⟩
  · rintro ⟨stored, written, same⟩
    refine ⟨stored, ?_, same⟩
    cases found : newestPage pgno (files.map Prod.snd) with
    | none =>
        obtain ⟨file, member, begins⟩ := attained
        rw [← begins] at written
        exact absurd written
          (newestPage_unwritten chain faithful stored found file member)
    | some raw => exact ⟨raw, rfl⟩

/-- The first file of a chain from just before some TXID begins there, when no
file begins earlier. -/
theorem chain_attains {files : List KeyedFile} {first finish : Nat}
    (chain : PlanChain (first - 1) files finish) (positive : 1 ≤ first)
    (nonempty : files ≠ [])
    (lower : ∀ file ∈ files, first ≤ file.1.minTxid) :
    ∃ file ∈ files, file.1.minTxid = first := by
  cases files with
  | nil => exact absurd rfl nonempty
  | cons file rest =>
      have begins := chain.head_extends.1
      have above := lower file (by simp)
      exact ⟨file, by simp, by omega⟩

/-- A compaction that succeeds is faithful to the range of its inputs, and its
header spans theirs. -/
theorem compactToWriter_faithful {files : List KeyedFile}
    {first : KeyedFile} {rest : List KeyedFile} {output : LtxFile}
    (split_ : files = first :: rest)
    (merged : compactToWriter (files.map Prod.snd) = .ok output)
    (faithful : history.FaithfulFiles files) (agree : HeadersAgree files)
    (positive : 1 ≤ first.1.minTxid)
    (ordered : first.1.minTxid ≤ first.1.maxTxid)
    (lower : ∀ file ∈ files, first.1.minTxid ≤ file.1.minTxid) :
    ∃ finish, PlanChain (first.1.minTxid - 1) files finish ∧
      history.Faithful first.1.minTxid finish output ∧
      output.header.minTxid = first.2.header.minTxid ∧
      output.header.maxTxid = finish := by
  unfold compactToWriter at merged
  cases isLast : (files.map Prod.snd).getLast? with
  | none => simp [split_] at isLast
  | some lastFile =>
      have isFirst : (files.map Prod.snd).head? = some first.2 := by
        rw [split_]
        rfl
      simp only [isFirst, isLast, bind_eq_ok] at merged
      obtain ⟨_, checked, merged⟩ := merged
      rw [List.getLast?_map, Option.map_eq_some_iff] at isLast
      obtain ⟨last, isLast, rfl⟩ := isLast
      have headers : (files.map Prod.snd).map LtxFile.header =
          (first :: rest).map fun file => file.2.header := by
        rw [split_, List.map_map]
        rfl
      rw [headers] at checked
      obtain ⟨⟨finish, chain⟩, sizes⟩ := chain_of_checkContiguous
        (split_ ▸ agree.maxTxid)
        (fun file member => Nat.le_of_eq
          (agree.minTxid file (by rw [split_]; exact member)).symm) checked
        (show first.1.minTxid ≤ first.1.minTxid - 1 + 1 by omega)
        (show first.1.minTxid - 1 < first.1.maxTxid by omega)
      rw [← split_] at chain
      obtain ⟨ends, lastSize, lastCommit⟩ := faithful.last chain isLast
      have member := List.mem_of_getLast? isLast
      have oneSize : first.2.header.pageSize = last.2.header.pageSize := by
        rw [split_] at member
        rcases List.mem_cons.mp member with rfl | later
        · rfl
        · exact (sizes last later).symm
      have header := (mergeToWriter_eq_ok merged).1
      refine ⟨finish, chain, ?_, ?_, ?_⟩
      · apply mergeToWriter_faithful merged chain faithful lower
        · exact ⟨first, by simp [split_], rfl⟩
        · exact oneSize.trans lastSize
        · exact lastCommit
      · rw [header]
        rfl
      · rw [header, ← ends, ← agree.maxTxid last member]
        rfl

end History

end Literstream
