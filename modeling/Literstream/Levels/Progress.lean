import Literstream.Levels.Cascade
import Literstream.Levels.Frontiers

/-!
# Level compactions that succeed

The files that wait at a level follow each other, so that a compaction accepts
them.  Retention by TXID is what can break this: it looks at positions only,
and may delete a waiting file in front of which coarser levels still wait.
-/

namespace Literstream

open Fallible

/-- What a level holds past the frontier of the next one. -/
def Levels.pending (state : Levels) (level : Nat) : List LtxFileInfo :=
  compactSource state.files (level + 1)

namespace Tiled

variable {state : Levels} {front next : Nat → Nat}

theorem listed (tiled : Tiled state front next) {level : Nat}
    {file : LtxFileInfo} (member : file ∈ state.files.list level) :
    file.toFileKey ∈ state.store ∧ file.level = level :=
  ⟨(tiled.indexed _).mp (FileIndex.mem_of_list member),
    (FileIndex.mem_list.mp member).2⟩

theorem exists_listed (tiled : Tiled state front next) {key : FileKey}
    (member : key ∈ state.store) :
    ∃ file ∈ state.files.list key.level, file.toFileKey = key :=
  FileIndex.exists_listed ((tiled.indexed key).mpr member)

theorem maxOf_eq (tiled : Tiled state front next) {level : Nat}
    (below : level < snapshotLevel) :
    maxOf (state.files.list level) = front level := by
  apply Nat.le_antisymm
  · rcases exists_maxOf (state.files.list level) with zero |
      ⟨file, member, ends⟩
    · omega
    · obtain ⟨held, sameLevel⟩ := tiled.listed member
      have bound := tiled.bound _ held (by omega)
      rw [sameLevel] at bound
      omega
  · rcases tiled.attained level below with zero | ⟨key, held, rfl, ends⟩
    · omega
    · obtain ⟨file, member, rfl⟩ := tiled.exists_listed held
      rw [← ends]
      exact le_maxOf member

theorem mem_pending (tiled : Tiled state front next) {level : Nat}
    (source : level ≤ lastSource) {file : LtxFileInfo} :
    file ∈ state.pending level ↔
      file ∈ state.files.list level ∧ front (level + 1) < file.minTxid := by
  have coarser : level + 1 < snapshotLevel :=
    Nat.lt_of_le_of_lt (Nat.succ_le_succ source) (by decide)
  rw [Levels.pending, compactSource, Nat.add_sub_cancel, List.mem_filter,
    tiled.maxOf_eq coarser, decide_eq_true_eq]

/-- Waiting files begin at or after the next arrival of the coarser level. -/
theorem le_pending (tiled : Tiled state front next) {level : Nat}
    (source : level ≤ lastSource) {file : LtxFileInfo}
    (member : file ∈ state.pending level) :
    next (level + 1) ≤ file.minTxid := by
  obtain ⟨inside, beyond⟩ := (tiled.mem_pending source).mp member
  obtain ⟨held, sameLevel⟩ := tiled.listed inside
  have ordered := (tiled.ordered _ held).2
  subst sameLevel
  rcases tiled.waits _ held source with taken | waits
  · omega
  · exact waits

theorem pending_eq_nil (tiled : Tiled state front next) {level : Nat}
    (source : level ≤ lastSource) :
    state.pending level = [] ↔ Idle front next level := by
  have past := tiled.past level source
  constructor
  · intro nothing
    by_contra waiting
    unfold Idle at waiting
    obtain ⟨key, held, rfl, starts, _, _⟩ :=
      tiled.tiles level source (next (level + 1)) (Nat.le_refl _) (by omega)
    obtain ⟨file, member, rfl⟩ := tiled.exists_listed held
    have inside := (tiled.mem_pending source).mpr ⟨member, by omega⟩
    rw [nothing] at inside
    cases inside
  · intro idle
    unfold Idle at idle
    apply List.eq_nil_iff_forall_not_mem.mpr
    intro file member
    have starts := tiled.le_pending source member
    obtain ⟨inside, _⟩ := (tiled.mem_pending source).mp member
    obtain ⟨held, sameLevel⟩ := tiled.listed inside
    have ordered := (tiled.ordered _ held).2
    have below : level < snapshotLevel :=
      Nat.lt_of_le_of_lt source (by decide)
    have bound := tiled.bound _ held (by omega)
    rw [sameLevel] at bound
    omega

end Tiled

/-- Disjoint ranges in ascending order that cover an interval follow each
other without a gap. -/
theorem chain_of_tiles {files : List LtxFileInfo} {low high : Nat}
    (ordered : files.Pairwise fun left right =>
      left.minTxid < right.minTxid ∨
        (left.minTxid = right.minTxid ∧ left.maxTxid < right.maxTxid))
    (apart : ∀ left ∈ files, ∀ right ∈ files, left.maxTxid < right.minTxid ∨
      right.maxTxid < left.minTxid ∨ left = right)
    (inside : ∀ file ∈ files, low ≤ file.minTxid ∧
      file.minTxid ≤ file.maxTxid ∧ file.maxTxid ≤ high)
    (tiles : ∀ txid, low ≤ txid → txid ≤ high → ∃ file ∈ files,
      file.minTxid ≤ txid ∧ txid ≤ file.maxTxid) :
    (files.IsChain fun prev cur => cur.minTxid = prev.maxTxid + 1) ∧
      (∀ first, files.head? = some first → first.minTxid = low) ∧
      (∀ last, files.getLast? = some last → last.maxTxid = high) := by
  induction files generalizing low with
  | nil =>
      refine ⟨.nil, ?_, ?_⟩
      · intro first impossible
        cases impossible
      · intro last impossible
        cases impossible
  | cons file rest ih =>
      obtain ⟨before, restOrdered⟩ := List.pairwise_cons.mp ordered
      obtain ⟨fileLow, fileOrdered, fileHigh⟩ := inside file (by simp)
      have begins : file.minTxid = low := by
        obtain ⟨other, member, lower, _⟩ :=
          tiles low (Nat.le_refl low) (by omega)
        rcases List.mem_cons.mp member with rfl | later
        · omega
        · have ascending := before other later
          omega
      have after : ∀ other ∈ rest, file.maxTxid < other.minTxid := by
        intro other member
        have ascending := before other member
        have otherOrdered := (inside other (by simp [member])).2.1
        rcases apart file (by simp) other (by simp [member]) with
          less | greater | same
        · exact less
        · omega
        · rw [same] at ascending
          omega
      obtain ⟨chain, heads, lasts⟩ := @ih (file.maxTxid + 1) restOrdered
        (fun left leftMember right rightMember =>
          apart left (by simp [leftMember]) right (by simp [rightMember]))
        (fun other member =>
          ⟨after other member, (inside other (by simp [member])).2⟩)
        (by
          intro txid starts ends
          obtain ⟨other, member, lower, upper⟩ := tiles txid (by omega) ends
          rcases List.mem_cons.mp member with rfl | later
          · omega
          · exact ⟨other, later, lower, upper⟩)
      refine ⟨chain.cons heads, ?_, ?_⟩
      · rintro _ ⟨rfl⟩
        exact begins
      · intro last isLast
        cases rest with
        | nil =>
            rw [List.getLast?_singleton] at isLast
            cases isLast
            by_contra short
            obtain ⟨other, member, lower, upper⟩ :=
              tiles (file.maxTxid + 1) (by omega) (by omega)
            rcases List.mem_cons.mp member with rfl | impossible
            · omega
            · cases impossible
        | cons second others =>
            rw [List.getLast?_cons_cons] at isLast
            exact lasts last isLast

/-- What waits at a level leads from the next arrival of the coarser level to
its own frontier. -/
theorem Tiled.pending_chain {state : Levels} {front next : Nat → Nat}
    (tiled : Tiled state front next) {level : Nat}
    (source : level ≤ lastSource) :
    ((state.pending level).IsChain fun prev cur =>
        cur.minTxid = prev.maxTxid + 1) ∧
      (∀ first, (state.pending level).head? = some first →
        first.minTxid = next (level + 1)) ∧
      (∀ last, (state.pending level).getLast? = some last →
        last.maxTxid = front level) := by
  have below : level < snapshotLevel := Nat.lt_of_le_of_lt source (by decide)
  have held : ∀ file ∈ state.pending level,
      file.toFileKey ∈ state.store ∧ file.level = level := by
    intro file member
    exact tiled.listed ((tiled.mem_pending source).mp member).1
  have ordered := (state.files.ordered_list level).filter fun file =>
    decide (file.minTxid > maxOf (state.files.list (level + 1)))
  apply chain_of_tiles ordered
  · intro left leftMember right rightMember
    obtain ⟨leftHeld, leftLevel⟩ := held left leftMember
    obtain ⟨rightHeld, rightLevel⟩ := held right rightMember
    rcases tiled.apart _ leftHeld _ rightHeld (by omega) (by omega) with
      before | after | same
    · exact .inl before
    · exact .inr (.inl after)
    · have leftListed := ((tiled.mem_pending source).mp leftMember).1
      have rightListed := ((tiled.mem_pending source).mp rightMember).1
      exact .inr (.inr (FileIndex.list_ext leftListed rightListed same))
  · intro file member
    obtain ⟨fileHeld, sameLevel⟩ := held file member
    have bound := tiled.bound _ fileHeld (by omega)
    rw [sameLevel] at bound
    exact ⟨tiled.le_pending source member, (tiled.ordered _ fileHeld).2, bound⟩
  · intro txid starts ends
    obtain ⟨key, keyHeld, rfl, begins, lower, upper⟩ :=
      tiled.tiles level source txid starts ends
    obtain ⟨file, listed, rfl⟩ := tiled.exists_listed keyHeld
    have past := tiled.past file.level source
    exact ⟨file, (tiled.mem_pending source).mpr ⟨listed, by omega⟩, lower,
      upper⟩

/-! ## A compaction succeeds -/

theorem exists_inputs {store : Store} {items : List LtxFileInfo}
    (held : ∀ item ∈ items, item.toFileKey ∈ store) :
    ∃ inputs : List LtxFile, List.Forall₂ (fun item file =>
      store[item.toFileKey]? = some file) items inputs := by
  induction items with
  | nil => exact ⟨[], .nil⟩
  | cons item rest ih =>
      obtain ⟨file, stored⟩ :=
        (OrderedMap.mem_iff_exists _ _).mp (held item (by simp))
      obtain ⟨files, others⟩ :=
        ih fun other member => held other (by simp [member])
      exact ⟨file :: files, .cons stored others⟩

theorem fetchLtx_of_held {state : Levels} {key : FileKey} {file : LtxFile}
    (clean : state.faults = []) (held : state.store[key]? = some file) :
    fetchLtx key state = (.ok file, state) := by
  have attempted : attempt state = (.ok (), state) := by
    rw [attempt, clean]
  rw [fetchLtx, bind_of_ok attempted]
  have found := getLtx_eq_ok.mpr held
  change (getLtx state.store key, state) = _
  rw [found]

variable {history : History}

/-- Files that follow each other are accepted by a compaction. -/
theorem LevelsOk.compacts {state : Levels} {anchor level : Nat}
    {items : List LtxFileInfo} {inputs : List LtxFile}
    (ok : LevelsOk history anchor state)
    (oneSize : ∀ left right, history.pageSize left = history.pageSize right)
    (raw : level ≠ snapshotLevel)
    (sameLevel : ∀ item ∈ items, item.level = level)
    (held : List.Forall₂ (fun item file =>
      state.store[item.toFileKey]? = some file) items inputs)
    (nonempty : items ≠ [])
    (chain : items.IsChain fun prev cur => cur.minTxid = prev.maxTxid + 1) :
    ∃ merged, compactToWriter inputs = .ok merged := by
  have each : List.Forall₂ (fun (item : LtxFileInfo) (file : LtxFile) =>
      (history.Faithful file.header.minTxid file.header.maxTxid file ∧
        file.header.pageSize = history.pageSize 0) ∧
      file.header.minTxid = item.minTxid ∧
      file.header.maxTxid = item.maxTxid ∧
      item.minTxid ≤ item.maxTxid) items inputs := by
    clear nonempty chain
    induction held with
    | nil => exact .nil
    | @cons item file items inputs stored _ ih =>
        have fileOk := ok.files _ file stored
        have agreeMin := fileOk.headerMin (by
          rw [sameLevel item (by simp)]
          exact raw)
        have agreeMax := fileOk.headerMax
        refine .cons ⟨⟨?_, ?_⟩, agreeMin, agreeMax, fileOk.ordered⟩
          (ih fun other member => sameLevel other (by simp [member]))
        · rw [agreeMin, agreeMax]
          exact fileOk.faithful
        · rw [fileOk.faithful.pageSize]
          exact oneSize _ _
  have layered : ∀ file ∈ inputs,
      history.Faithful file.header.minTxid file.header.maxTxid file ∧
        file.header.pageSize = history.pageSize 0 := by
    clear nonempty chain held sameLevel
    induction each with
    | nil => simp
    | cons found _ ih =>
        intro file member
        rcases List.mem_cons.mp member with rfl | later
        · exact found.1
        · exact ih file later
  have adjacent : (inputs.map LtxFile.header).IsChain
      (Adjacent (history.pageSize 0)) := by
    clear nonempty held sameLevel layered
    induction each with
    | nil => exact .nil
    | @cons item file items inputs found others ih =>
        cases others with
        | nil => exact .singleton _
        | cons nextFound _ =>
            have follows := (List.isChain_cons_cons.mp chain).1
            refine .cons_cons ⟨nextFound.1.2, ?_, ?_⟩ (ih chain.tail)
            · rw [nextFound.2.1, found.2.2.1]
              omega
            · have ordered := nextFound.2.2.2
              rw [nextFound.2.2.1, found.2.2.1]
              omega
  have some_ : inputs ≠ [] := by
    rintro rfl
    cases held
    exact nonempty rfl
  obtain ⟨merged, done, _⟩ := (History.layer_single
    (fun file member => (layered file member).1)
    (fun file member => (layered file member).2)).compact some_ adjacent
  exact ⟨merged, done⟩

theorem compactAndUpload_succeeds {state : Levels} {inputs : List LtxFile}
    {merged : LtxFile} (clean : state.faults = []) (clock : Int)
    (key : FileKey) (done : compactToWriter inputs = .ok merged) :
    ∃ final, compactAndUpload clock key inputs state = (.ok (), final) := by
  have attempted : attempt state = (.ok (), state) := by
    rw [attempt, clean]
  have lifted : (ofExcept (liftLtx (compactToWriter inputs)) :
      Call LtxFile) state = (.ok merged, state) := by
    rw [done]
    rfl
  rw [compactAndUpload, bind_of_ok lifted, uploadMerged, bind_of_ok attempted]
  exact ⟨_, rfl⟩

/-- A compaction without new files in the source level does nothing. -/
theorem compactLevel_of_empty {state : Levels} {level : Nat} (clock : Int)
    (inside : level + 1 < snapshotLevel)
    (nothing : state.pending level = []) :
    compactLevel clock (level + 1) state = (.ok none, state) := by
  unfold compactLevel
  rw [if_neg (by omega),
    bind_of_ok (show current state = (.ok state, state) from rfl)]
  rw [Levels.pending, compactSource] at nothing
  rw [nothing]
  rfl

/-- What a compaction does with the new files of the source level. -/
theorem compactLevel_of_source {state : Levels} {level : Nat}
    {first last : LtxFileInfo} (clock : Int)
    (inside : level + 1 < snapshotLevel)
    (isFirst : (state.pending level).head? = some first)
    (isLast : (state.pending level).getLast? = some last) :
    compactLevel clock (level + 1) state =
      (collect (fun file : LtxFileInfo => fetchLtx file.toFileKey)
          (state.pending level) >>= fun inputs =>
        compactAndUpload clock ⟨level + 1, first.minTxid, last.maxTxid⟩
            inputs >>= fun _ =>
          pure (some
            { minTxid := first.minTxid
              maxTxid := last.maxTxid
              inputs := inputs.length
              pruned := 0 })) state := by
  unfold compactLevel
  rw [if_neg (by omega),
    bind_of_ok (show current state = (.ok state, state) from rfl)]
  rw [Levels.pending, compactSource] at isFirst isLast ⊢
  rw [isFirst, isLast]

/-- With an intact store, a compaction of a tiled replica succeeds. -/
theorem compactLevel_succeeds {state : Levels} {anchor dstLevel : Nat}
    {front next : Nat → Nat} (clock : Int)
    (ok : LevelsOk history anchor state) (tiled : Tiled state front next)
    (oneSize : ∀ left right, history.pageSize left = history.pageSize right)
    (clean : state.faults = [])
    (inside : 1 ≤ dstLevel ∧ dstLevel < snapshotLevel) :
    ∃ outcome final, compactLevel clock dstLevel state =
      (.ok outcome, final) := by
  obtain ⟨level, rfl⟩ : ∃ level, dstLevel = level + 1 :=
    Nat.exists_eq_succ_of_ne_zero (by omega)
  have source : level ≤ lastSource :=
    Nat.le_of_lt_succ (Nat.lt_of_succ_lt_succ inside.2)
  obtain ⟨chain, _, _⟩ := tiled.pending_chain source
  have held : ∀ item ∈ state.pending level,
      item.toFileKey ∈ state.store ∧ item.level = level := by
    intro item member
    exact tiled.listed ((tiled.mem_pending source).mp member).1
  obtain ⟨inputs, fetched⟩ := @exists_inputs state.store
    (state.pending level) fun item member => (held item member).1
  have collected : collect (fun file : LtxFileInfo => fetchLtx file.toFileKey)
      (state.pending level) state = (.ok inputs, state) := by
    apply collect_of_ok
    exact fetched.imp fun _ _ stored => fetchLtx_of_held clean stored
  cases isFirst : (state.pending level).head? with
  | none =>
      have nothing := List.head?_eq_none_iff.mp isFirst
      exact ⟨none, state, compactLevel_of_empty clock inside.2 nothing⟩
  | some first =>
      have nonempty : state.pending level ≠ [] := by
        intro nothing
        rw [nothing] at isFirst
        cases isFirst
      obtain ⟨merged, done⟩ := ok.compacts oneSize (by omega)
        (fun item member => (held item member).2) fetched nonempty chain
      obtain ⟨final, uploaded⟩ := compactAndUpload_succeeds clean clock
        ⟨level + 1, first.minTxid,
          ((state.pending level).getLast nonempty).maxTxid⟩ done
      have isLast := List.getLast?_eq_some_getLast nonempty
      rw [compactLevel_of_source clock inside.2 isFirst isLast,
        bind_of_ok collected, bind_of_ok uploaded]
      exact ⟨_, final, rfl⟩

end Literstream
