import Literstream.Restore.Reader
import Literstream.Restore.Visits

/-!
# Page reads beside a live writer

A page reader keeps its plan and its indexes for as long as it is open, and
asks for every index and every frame when it needs it.  The pages that it serves
are those of one image, however far the writer has gone by then.
-/

namespace Literstream

open Std

/-- The plan of a reader over listed files. -/
def readerPlanOf (files : List FileKey) : Option Nat →
    Except SyncError (List FileKey)
  | none => planRestore files
  | some target =>
      match planRestoreTo files target with
      | .ok (first :: rest) => .ok (first :: rest)
      | .ok [] => .error (.txidTooOld target)
      | .error .noSnapshot => .error (.txidTooOld target)
      | .error error => .error error

/-- A ranged GET: what a file holds, or a storage error. -/
def fetching (key : FileKey) : Visitor (Except SyncError LtxFile) :=
  .asks (.file key) fun reply =>
    .returns <| match reply with
      | none => .error .storage
      | some file => .ok file

/-- The LISTs of the levels in some order, and what is done with them. -/
def listing {α : Type} (failed : α) (next : Listings → Visitor α) :
    List Nat → Listings → Visitor α
  | [], answers => next answers
  | level :: rest, answers =>
      .asks (.level level) fun
        | none => .returns failed
        | some keys => listing failed next rest ((level, keys) :: answers)

/-- Plan, and take the page size from the base file's header. -/
def opening (atTxid : Option Nat) (answers : Listings) :
    Visitor (Except SyncError ReplicaReader) :=
  match readerPlanOf answers.files atTxid with
  | .error error => .returns (.error error)
  -- `planRestore` never returns an empty plan.
  | .ok [] => .returns (.error .noSnapshot)
  | .ok (base :: rest) =>
      (fetching base).andThen fun
        | .error error => .returns (.error error)
        | .ok head =>
            .returns <| .ok
              { plan := base :: rest, pageSize := head.header.pageSize,
                indexes := ∅ }

namespace ReplicaReader

/-- The index of a file from the cache, or else by a HEAD for the size, a GET of
the footer and a GET of the index.  The size and the footer only say where in the
object the index lies.  An object is never replaced by another one, so the three
replies are about one file, and a file has one index. -/
def indexing (reader : ReplicaReader) (key : FileKey) :
    Visitor (Except SyncError (PageIndex × ReplicaReader)) :=
  match reader.indexes[key]? with
  | some index => .returns (.ok (index, reader))
  | none =>
      (fetching key).andThen fun
        | .error error => .returns (.error error)
        | .ok _ =>
            (fetching key).andThen fun
              | .error error => .returns (.error error)
              | .ok _ =>
                  (fetching key).andThen fun
                    | .error error => .returns (.error error)
                    | .ok file =>
                        .returns <| .ok (pageIndex file,
                          { reader with
                            indexes :=
                              reader.indexes.insert key (pageIndex file) })

/-- One frame of a file, decoded. -/
def frameOf (pageSize position : Nat) (file : LtxFile) :
    Except SyncError (Option Bytes) :=
  match file.pages[position]? with
  | none => .error .storage
  | some frame => do
      let data ← liftLtx (decodePageFrame frame.2 pageSize)
      return some data

/-- `readFrom` query by query. -/
def reading (pgno : Nat) : List FileKey → ReplicaReader →
    Visitor (Except SyncError (Option Bytes) × ReplicaReader)
  | [], reader => .returns (.ok none, reader)
  | key :: older, reader =>
      (reader.indexing key).andThen fun
        | .error error => .returns (.error error, reader)
        | .ok (index, next) =>
            match index.lookup pgno with
            | none => reading pgno older next
            | some position =>
                (fetching key).andThen fun
                  | .error error => .returns (.error error, next)
                  | .ok file =>
                      .returns (frameOf next.pageSize position file, next)

/-- `readPages` query by query. -/
def readings : List Nat → ReplicaReader →
    Visitor (List (Nat × Except SyncError (Option Bytes)))
  | [], _ => .returns []
  | pgno :: rest, reader =>
      (reading pgno reader.plan.reverse reader).andThen fun
        | (answer, next) =>
            (readings rest next).andThen fun answers =>
              .returns ((pgno, answer) :: answers)

end ReplicaReader

/-- Open a reader and read some pages. -/
def browsing (order : List Nat) (atTxid : Option Nat) (pgnos : List Nat) :
    Visitor (Except SyncError
      (ReplicaReader × List (Nat × Except SyncError (Option Bytes)))) :=
  listing (.error .storage) (fun answers =>
    (opening atTxid answers).andThen fun
      | .error error => .returns (.error error)
      | .ok reader =>
          (reader.readings pgnos).andThen fun answers =>
            .returns (.ok (reader, answers))) order []

theorem readerPlan_eq (store : Store) (atTxid : Option Nat) :
    readerPlan store atTxid = readerPlanOf (listAllLtx store) atTxid := by
  cases atTxid <;> rfl

theorem readerPlanOf_subset {files plan : List FileKey} {atTxid : Option Nat}
    (planned : readerPlanOf files atTxid = .ok plan) :
    ∀ key ∈ plan, key ∈ files := by
  cases atTxid with
  | none =>
      obtain ⟨cover, _⟩ := planRestore_eq_ok planned
      rw [cover]
      exact greedyCover_subset files 0
  | some target =>
      simp only [readerPlanOf] at planned
      split at planned
      · rename_i first rest covers
        cases planned
        obtain ⟨cover, _⟩ := planRestore_eq_ok covers
        rw [cover]
        intro key member
        exact List.mem_of_mem_filter (greedyCover_subset _ 0 key member)
      all_goals cases planned

/-! ## Only listed files are fetched -/

section Polite

variable {files : List FileKey}

theorem fetching_fetches {key : FileKey} (listed : key ∈ files) :
    (fetching key).Always (Query.Fetches files) fun _ => True :=
  ⟨listed, fun _ => trivial⟩

namespace ReplicaReader

theorem indexing_fetches {reader : ReplicaReader} {key : FileKey}
    (listed : key ∈ files) :
    (reader.indexing key).Always (Query.Fetches files) fun result =>
      ∀ index next, result = .ok (index, next) → next.plan = reader.plan := by
  unfold indexing
  split
  · rintro _ _ ⟨⟩
    rfl
  · apply (fetching_fetches listed).bind
    rintro (error | _) _
    · rintro _ _ ⟨⟩
    · apply (fetching_fetches listed).bind
      rintro (error | _) _
      · rintro _ _ ⟨⟩
      · apply (fetching_fetches listed).bind
        rintro (error | file) _
        · rintro _ _ ⟨⟩
        · rintro _ _ ⟨⟩
          rfl

theorem reading_fetches {pgno : Nat} {keys : List FileKey}
    {reader : ReplicaReader} (listed : ∀ key ∈ keys, key ∈ files) :
    (reading pgno keys reader).Always (Query.Fetches files) fun result =>
      result.2.plan = reader.plan := by
  induction keys generalizing reader with
  | nil => rfl
  | cons key older ih =>
      have here := listed key (by simp)
      apply (indexing_fetches here).bind
      rintro (error | ⟨index, next⟩) kept
      · rfl
      · have plan := kept index next rfl
        dsimp only
        split
        · rw [← plan]
          exact ih fun key member => listed key (by simp [member])
        · apply (fetching_fetches here).bind
          rintro (error | file) _
          · exact plan
          · exact plan

theorem readings_fetches {pgnos : List Nat} {reader : ReplicaReader}
    (listed : ∀ key ∈ reader.plan, key ∈ files) :
    (reader.readings pgnos).Always (Query.Fetches files) fun _ => True := by
  induction pgnos generalizing reader with
  | nil => trivial
  | cons pgno rest ih =>
      apply (reading_fetches fun key member =>
        listed key (List.mem_reverse.mp member)).bind
      rintro ⟨answer, next⟩ plan
      exact (@ih next (by rwa [plan])).bind fun _ _ => trivial

end ReplicaReader

theorem opening_fetches {atTxid : Option Nat} {answers : Listings} :
    (opening atTxid answers).Always (Query.Fetches answers.files) fun result =>
      ∀ reader, result = .ok reader →
        ∀ key ∈ reader.plan, key ∈ answers.files := by
  unfold opening
  split
  · rintro _ ⟨⟩
  · rintro _ ⟨⟩
  · rename_i base rest planned
    have listed := readerPlanOf_subset planned
    apply (fetching_fetches (listed base (by simp))).bind
    rintro (error | head) _
    · rintro _ ⟨⟩
    · rintro _ ⟨⟩
      exact listed

theorem listing_polite {α : Type} {failed : α} {next : Listings → Visitor α}
    (polite : ∀ answers, Polite answers (next answers)) {order : List Nat}
    (once : order.Nodup) (inside : ∀ level ∈ order, level ≤ maxLevel)
    {answers : Listings}
    (fresh : ∀ level ∈ order, answers.answered level = false) :
    Polite answers (listing failed next order answers) := by
  induction order generalizing answers with
  | nil => exact polite answers
  | cons level rest ih =>
      obtain ⟨unrepeated, restOnce⟩ := List.nodup_cons.mp once
      refine ⟨⟨inside level (by simp), fresh level (by simp)⟩, trivial, ?_⟩
      intro keys
      apply ih restOnce fun other member => inside other (by simp [member])
      intro other member
      rw [Listings.answered_cons, fresh other (by simp [member]),
        Bool.or_false, decide_eq_false_iff_not]
      rintro rfl
      exact unrepeated member

theorem polite_of_listing {α : Type} {failed : α}
    {next : Listings → Visitor α} {order : List Nat}
    (everyLevel : order.Perm (List.range (maxLevel + 1)))
    (polite : ∀ answers, Polite answers (next answers)) :
    Polite [] (listing failed next order []) := by
  apply listing_polite polite
  · exact everyLevel.nodup_iff.mpr List.nodup_range
  · intro level member
    exact Nat.le_of_lt_succ (List.mem_range.mp (everyLevel.mem_iff.mp member))
  · intro level _
    rfl

theorem browsing_polite {order : List Nat} {atTxid : Option Nat}
    {pgnos : List Nat} (everyLevel : order.Perm (List.range (maxLevel + 1))) :
    Polite [] (browsing order atTxid pgnos) := by
  apply polite_of_listing everyLevel
  intro answers
  apply @Polite.of_fetches _ _ _ fun _ => True
  apply opening_fetches.bind
  rintro (error | reader) listed
  · exact trivial
  · exact (ReplicaReader.readings_fetches (listed reader rfl)).bind
      fun _ _ => trivial

end Polite

/-! ## Against a frozen replica -/

section Frozen

variable {frozen : Store}

theorem fetching_yields {key : FileKey} :
    (fetching key).Yields (replies frozen) fun result =>
      ∀ file, result = .ok file → frozen[key]? = some file := by
  constructor
  · rintro _ ⟨⟩
  · rintro file held _ ⟨⟩
    exact held

namespace ReplicaReader

theorem indexing_yields {reader : ReplicaReader} {key : FileKey}
    {held : LtxFile} (cache : CacheOk frozen reader)
    (stored : frozen[key]? = some held) :
    (reader.indexing key).Yields (replies frozen) fun result =>
      ∀ index next, result = .ok (index, next) →
        index = pageIndex held ∧ Extends frozen reader next := by
  unfold indexing
  split
  · rename_i index found
    rintro _ _ ⟨⟩
    obtain ⟨other, otherStored, same⟩ := cache key index found
    rw [stored] at otherStored
    cases otherStored
    exact ⟨same, rfl, rfl, cache⟩
  · apply fetching_yields.bind
    rintro (error | _) _
    · rintro _ _ ⟨⟩
    · apply fetching_yields.bind
      rintro (error | _) _
      · rintro _ _ ⟨⟩
      · apply fetching_yields.bind
        rintro (error | file) got
        · rintro _ _ ⟨⟩
        · rintro _ _ ⟨⟩
          have same := got file rfl
          rw [stored] at same
          cases same
          exact ⟨rfl, rfl, rfl,
            OrderedMap.forall_insert _ key _ ⟨held, stored, rfl⟩ cache⟩

/-- A read fails, or it answers as one of the frozen files would. -/
theorem reading_yields {files : List KeyedFile} {pgno : Nat}
    {reader : ReplicaReader} (cache : CacheOk frozen reader)
    (loaded : Loaded frozen files) :
    (reading pgno (files.map Prod.fst) reader).Yields (replies frozen)
      fun result => Extends frozen reader result.2 ∧ ∀ page,
        result.1 = .ok page →
          answer reader.pageSize (firstPage pgno files) = .ok page := by
  induction files generalizing reader with
  | nil => exact ⟨⟨rfl, rfl, cache⟩, fun _ same => same⟩
  | cons file older ih =>
      have stored := loaded file (by simp)
      apply (indexing_yields cache stored).bind
      rintro (error | ⟨index, next⟩) indexed
      · refine ⟨⟨rfl, rfl, cache⟩, ?_⟩
        rintro _ ⟨⟩
      · obtain ⟨rfl, extended⟩ := indexed index next rfl
        have searched := pageIndex_lookup file.2 pgno
        dsimp only
        split at searched
        · rename_i position found
          obtain ⟨raw, frame, present⟩ := searched
          have newest : firstPage pgno (file :: older) = some raw := by
            simp [firstPage, present]
          rw [found]
          apply fetching_yields.bind
          rintro (error | fetched) got
          · refine ⟨extended, ?_⟩
            rintro _ ⟨⟩
          · refine ⟨extended, ?_⟩
            intro page read
            have same := got fetched rfl
            rw [stored] at same
            cases same
            rw [newest, ← extended.pageSize]
            unfold frameOf at read
            rw [frame] at read
            simp only [answer]
            dsimp only at read
            cases decoded : decodePageFrame raw next.pageSize with
            | error error =>
                rw [decoded] at read
                cases read
            | ok data =>
                rw [decoded] at read
                exact read
        · rename_i missing
          have newest : firstPage pgno (file :: older) =
              firstPage pgno older := by
            simp [firstPage, searched]
          rw [missing, newest]
          apply (ih extended.cache fun other member =>
            loaded other (by simp [member])).weaken
          rintro ⟨result, final⟩ ⟨further, read⟩
          refine ⟨⟨further.plan.trans extended.plan,
            further.pageSize.trans extended.pageSize, further.cache⟩, ?_⟩
          rw [← extended.pageSize]
          exact read

theorem readings_yields {files : List KeyedFile} {pgnos : List Nat}
    {reader : ReplicaReader} (cache : CacheOk frozen reader)
    (loaded : Loaded frozen files)
    (keys : files.map Prod.fst = reader.plan) :
    (reader.readings pgnos).Yields (replies frozen) fun answers =>
      answers.map Prod.fst = pgnos ∧ ∀ pgno page,
        (pgno, .ok page) ∈ answers →
          answer reader.pageSize (newestPage pgno (files.map Prod.snd)) =
            .ok page := by
  induction pgnos generalizing reader with
  | nil =>
      refine ⟨rfl, ?_⟩
      rintro _ _ ⟨⟩
  | cons pgno rest ih =>
      unfold readings
      rw [← keys, ← List.map_reverse]
      apply (reading_yields cache fun file member =>
        loaded file (List.mem_reverse.mp member)).bind
      rintro ⟨result, next⟩ ⟨further, read⟩
      apply (ih further.cache (keys.trans further.plan.symm)).bind
      rintro answers ⟨numbers, others⟩
      refine ⟨by simp [numbers], ?_⟩
      intro other page member
      rcases List.mem_cons.mp member with same | later
      · cases same
        rw [← firstPage_reverse]
        exact read page rfl
      · rw [← further.pageSize]
        exact others other page later

end ReplicaReader

theorem opening_yields {atTxid : Option Nat} {answers : Listings}
    (listed : answers.files = listAllLtx frozen) :
    (opening atTxid answers).Yields (replies frozen) fun result =>
      ∀ reader, result = .ok reader →
        openReader frozen atTxid = .ok reader := by
  unfold opening
  rw [listed, ← readerPlan_eq]
  split
  · rintro _ ⟨⟩
  · rintro _ ⟨⟩
  · rename_i base rest planned
    apply fetching_yields.bind
    rintro (error | head) got
    · rintro _ ⟨⟩
    · rintro _ ⟨⟩
      exact bind_eq_ok.mpr ⟨_, planned,
        bind_eq_ok.mpr ⟨head, getLtx_eq_ok.mpr (got head rfl), rfl⟩⟩

theorem listing_yields {α : Type} {failed : α} {next : Listings → Visitor α}
    {post : α → Prop} (excused : post failed)
    (yields : ∀ answers : Listings, answers.files = listAllLtx frozen →
      (next answers).Yields (replies frozen) post)
    {order : List Nat} {answers : Listings}
    (truthful : ∀ level keys, answers.lookup level = some keys →
      keys = listLevel frozen level)
    (rest : ∀ level ≤ maxLevel,
      answers.answered level = true ∨ level ∈ order) :
    (listing failed next order answers).Yields (replies frozen) post := by
  induction order generalizing answers with
  | nil =>
      apply yields answers
      apply @RestorePhase.Steady.files_eq frozen none answers truthful
      apply List.all_eq_true.mpr
      intro level member
      have below := Nat.le_of_lt_succ (List.mem_range.mp member)
      exact (rest level below).resolve_right (by simp)
  | cons level later ih =>
      refine ⟨excused, ?_⟩
      rintro keys ⟨⟩
      apply ih
      · intro other keys found
        rw [Listings.lookup_cons] at found
        split at found
        · rename_i same
          cases found
          rw [same]
        · exact truthful other keys found
      · intro other below
        rw [Listings.answered_cons]
        rcases rest other below with asked | member
        · exact .inl (by simp [asked])
        · rcases List.mem_cons.mp member with same | member
          · exact .inl (by simp [same])
          · exact .inr member

theorem yields_of_listing {α : Type} {failed : α} {next : Listings → Visitor α}
    {post : α → Prop} {order : List Nat}
    (everyLevel : order.Perm (List.range (maxLevel + 1)))
    (excused : post failed)
    (yields : ∀ answers : Listings, answers.files = listAllLtx frozen →
      (next answers).Yields (replies frozen) post) :
    (listing failed next order []).Yields (replies frozen) post := by
  apply listing_yields excused yields
  · rintro _ _ ⟨⟩
  · intro level below
    right
    exact everyLevel.mem_iff.mpr (List.mem_range.mpr (by omega))

end Frozen

/-! ## Beside the writer -/

section Isolated

variable {history : History} {frozen : Store}

theorem planFor_of_readerPlanOf {files plan : List FileKey}
    {atTxid : Option Nat} {last : FileKey}
    (planned : readerPlanOf files atTxid = .ok plan)
    (isLast : plan.getLast? = some last) :
    planFor files atTxid = .ok (plan, last.maxTxid) := by
  cases atTxid with
  | none =>
      apply bind_eq_ok.mpr
      refine ⟨plan, planned, ?_⟩
      rw [isLast]
      rfl
  | some target =>
      simp only [readerPlanOf] at planned
      split at planned
      · rename_i first rest covers
        cases planned
        simp only [planFor, covers, isLast]
      all_goals cases planned

/-- An opened reader has planned for a TXID that a restore may report. -/
theorem History.Planned.attainable {reader : ReplicaReader}
    {files : List KeyedFile} {last : KeyedFile} {atTxid : Option Nat}
    {head : Nat} (planned : history.Planned frozen reader files last)
    (opened : openReader frozen atTxid = .ok reader)
    (synced : Synced head frozen.keys) :
    Attainable atTxid head last.1.maxTxid := by
  rw [openReader, bind_eq_ok] at opened
  obtain ⟨plan, found, opened⟩ := opened
  have same : plan = reader.plan := by
    cases plan with
    | nil => cases opened
    | cons base rest =>
        obtain ⟨head, _, same⟩ := bind_eq_ok.mp opened
        cases same
        rfl
  rw [same, readerPlan_eq] at found
  have listed : Synced head (listAllLtx frozen) := by
    intro key member
    obtain ⟨stored, _⟩ := mem_listAllLtx.mp member
    exact synced key (ExtTreeMap.mem_keys.mpr
      ((OrderedMap.mem_iff_exists _ _).mpr stored))
  exact (planFor_eq_ok listed (planFor_of_readerPlanOf found planned.newest)).2

/-- In a history of one page size, an opened reader has it. -/
theorem pageSize_of_openReader {reader : ReplicaReader} {atTxid : Option Nat}
    (faithful : history.FaithfulStore frozen)
    (oneSize : ∀ txid other, history.pageSize txid = history.pageSize other)
    (opened : openReader frozen atTxid = .ok reader) (txid : Nat) :
    reader.pageSize = history.pageSize txid := by
  obtain ⟨_, _, _, _, ⟨base, head, _, held, sized⟩, _⟩ :=
    History.openReader_eq_ok opened
  rw [sized, (faithful base head (getLtx_eq_ok.mp held)).pageSize]
  exact oneSize _ _

/-- Whatever the writer does between the requests of a reader, every read that
succeeds serves the page of one TXID, which was synced and is no later than
asked for. -/
theorem page_reads_isolated {encodedSize : LtxFile → Nat} {order : List Nat}
    {atTxid : Option Nat} {pgnos : List Nat}
    (everyLevel : order.Perm (List.range (maxLevel + 1)))
    (oneSize : ∀ txid other, history.pageSize txid = history.pageSize other)
    {visit : Visit (Except SyncError
      (ReplicaReader × List (Nat × Except SyncError (Option Bytes))))}
    {reader : ReplicaReader}
    {answers : List (Nat × Except SyncError (Option Bytes))}
    (run : Machine.Reaches (Visit.step encodedSize) history.visits
      (Visit.start (browsing order atTxid pgnos)) visit)
    (done : visit.visitor = .returns (.ok (reader, answers))) :
    answers.map Prod.fst = pgnos ∧
      ∃ txid, Attainable atTxid (visit.writer.visible encodedSize).txid txid ∧
        ∀ pgno page, (pgno, .ok page) ∈ answers → history.Stored txid pgno →
          page = some (history.content txid pgno) := by
  obtain ⟨frozen, faithful, synced, sees⟩ :=
    visitor_sees_frozen (browsing_polite everyLevel) run done
  have seen := sees (fun result => ∀ reader answers,
    result = .ok (reader, answers) →
      openReader frozen atTxid = .ok reader ∧ answers.map Prod.fst = pgnos ∧
      ∀ files last, history.Planned frozen reader files last →
        ∀ pgno page, (pgno, .ok page) ∈ answers →
          History.answerOf reader files pgno = .ok page)
  obtain ⟨opened, numbers, reads⟩ := seen (by
    apply yields_of_listing everyLevel
    · rintro _ _ ⟨⟩
    · intro listings listed
      apply (opening_yields listed).bind
      rintro (error | opened) isOpen
      · rintro _ _ ⟨⟩
      · have isOpen := isOpen opened rfl
        obtain ⟨files, last, planned, _, cache⟩ :=
          History.planned_of_openReader faithful isOpen
        apply (ReplicaReader.readings_yields cache planned.loaded
          planned.keys).bind
        rintro answers ⟨numbers, reads⟩ _ _ ⟨⟩
        refine ⟨isOpen, numbers, ?_⟩
        intro others _ otherPlanned pgno page member
        have same := otherPlanned.loaded.unique planned.loaded
          (otherPlanned.keys.trans planned.keys.symm)
        rw [History.answerOf, same]
        exact reads pgno page member)
    reader answers rfl
  obtain ⟨files, last, planned, _⟩ :=
    History.planned_of_openReader faithful opened
  refine ⟨numbers, last.1.maxTxid, planned.attainable opened synced, ?_⟩
  intro pgno page member stored
  obtain ⟨data, decoded, same⟩ := History.answerOf_eq_ok
    (History.newestPage_stored planned.chain planned.faithful stored)
    (reads files last planned pgno page member)
  rw [decodePageFrame_of_length] at decoded
  · cases decoded
    exact same
  · rw [history.content_length]
    exact (pageSize_of_openReader faithful oneSize opened _).symm

end Isolated

/-! ## A sample reader -/

abbrev Browser := Visit (Except SyncError
  (ReplicaReader × List (Nat × Except SyncError (Option Bytes))))

def browserStart : Browser :=
  Visit.start (browsing (List.range 10) none [1, 2])

/-- One step is synchronised. -/
def browserSync : List (Browser → VisitAction) :=
  [fun visit => .writes (.begins (hotSync visit.writer.replica).call),
    fun _ => .writes (.operates false), fun _ => .writes .returns]

/-- Two steps are synchronised and the reader is opened; then comes a third
step, and both pages are read. -/
def browserChoices : List (Browser → VisitAction) :=
  browserSync ++ browserSync ++
    List.replicate 11 (fun _ => .replies false) ++ browserSync ++
    List.replicate 8 fun _ => .replies false

/-- The newest TXID, and the first bytes of the pages that were read. -/
def Browser.seen (visit : Browser) :
    Option (Nat × List (Nat × Option (Option UInt8))) :=
  match visit.visitor with
  | .returns (.ok (_, answers)) =>
      some ((visit.writer.visible fun _ => 0).txid, answers.map fun answer =>
        (answer.1, match answer.2 with
          | .ok (some page) => some page.head?
          | _ => none))
  | _ => none

theorem browser_seen :
    (Machine.play (Visit.step fun _ => 0) browserStart browserChoices).bind
      Browser.seen = some (3, [(1, some (some 2)), (2, some (some 7))]) := by
  decide +kernel

theorem browserSync_allowed :
    ∀ choose ∈ browserSync, ∀ visit, hotPage.visits visit (choose visit) := by
  intro choose member visit
  simp only [browserSync, List.mem_cons, List.not_mem_nil, or_false] at member
  rcases member with rfl | rfl | rfl
  · exact hotSync_synced visit.writer.replica
  · exact trivial
  · exact trivial

theorem browserChoices_allowed :
    ∀ choose ∈ browserChoices, ∀ visit, hotPage.visits visit (choose visit) := by
  intro choose member visit
  simp only [browserChoices, List.mem_append, List.mem_replicate] at member
  rcases member with (((sync | sync) | ⟨_, rfl⟩) | sync) | ⟨_, rfl⟩
  · exact browserSync_allowed choose sync visit
  · exact browserSync_allowed choose sync visit
  · exact trivial
  · exact browserSync_allowed choose sync visit
  · exact trivial

theorem page_reads_isolated_browsed : ∃ (visit : Browser)
    (reader : ReplicaReader)
    (answers : List (Nat × Except SyncError (Option Bytes))),
    visit.visitor = .returns (.ok (reader, answers)) ∧
    (visit.writer.visible fun _ => 0).txid = 3 ∧
    answers.map Prod.fst = [1, 2] ∧
    ∃ txid, Attainable none (visit.writer.visible fun _ => 0).txid txid ∧
      ∀ pgno page, (pgno, .ok page) ∈ answers → hotPage.Stored txid pgno →
        page = some (hotPage.content txid pgno) := by
  obtain ⟨visit, played, seen⟩ := Option.bind_eq_some_iff.mp browser_seen
  unfold Browser.seen at seen
  split at seen
  · rename_i reader answers done
    have newest := congrArg Prod.fst (Option.some.inj seen)
    exact ⟨visit, reader, answers, done, newest,
      page_reads_isolated (List.Perm.refl _) (fun _ _ => rfl)
        (Machine.reaches_of_play browserChoices_allowed played) done⟩
  · cases seen

end Literstream
