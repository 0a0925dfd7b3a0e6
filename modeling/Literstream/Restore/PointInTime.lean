import Literstream.Restore.Apply

/-!
# Which points in time can be restored

A restore to a TXID reaches the highest TXID at or below it that the files
ending there cover from the start.  A restore to a timestamp first picks the
highest TXID at which some file stamped early enough ends.
-/

namespace Literstream

/-- The files of a replica that end at or before a TXID cover everything up to
it. -/
def CoveredTo (store : Store) (txid : Nat) : Prop :=
  FilesCover ((listAllLtx store).filter fun key => key.maxTxid ≤ txid) 0 txid

/-- A restore to the TXID reports exactly that TXID. -/
def Restorable (store : Store) (txid : Nat) : Prop :=
  ∃ image, restoreToTxid store txid = .ok { image := image, txid := txid }

/-- No file of the replica starts before TXID 1. -/
def Positive (store : Store) : Prop :=
  ∀ key ∈ listAllLtx store, 1 ≤ key.minTxid

variable {store : Store}

/-- More files still cover a range. -/
theorem covers_mono {files more : List FileKey} {start finish : Nat}
    (covered : FilesCover files start finish)
    (subset : ∀ key ∈ files, key ∈ more) : FilesCover more start finish := by
  intro txid after until_
  obtain ⟨key, member, inside⟩ := covered txid after until_
  exact ⟨key, subset key member, inside⟩

namespace History

variable {history : History}

/-- A restore to a TXID either reaches the highest covered TXID at or below it,
or finds none. -/
theorem restoreToTxid_cases (faithful : history.FaithfulStore store)
    (positive : Positive store) (target : Nat) :
    (∃ result, restoreToTxid store target = .ok result ∧
      1 ≤ result.txid ∧ result.txid ≤ target ∧
      CoveredTo store result.txid ∧
      ∀ txid ≤ target, CoveredTo store txid → txid ≤ result.txid) ∨
    (restoreToTxid store target = .error (.txidTooOld target) ∧
      ∀ txid ≤ target, CoveredTo store txid → txid = 0) := by
  let listed := (listAllLtx store).filter fun key => key.maxTxid ≤ target
  have chain := greedyCover_chain listed 0
  have subset := greedyCover_subset listed 0
  have bounded : ∀ key ∈ listed, key ∈ listAllLtx store ∧
      key.maxTxid ≤ target := by
    intro key member
    obtain ⟨inside, below⟩ := List.mem_filter.mp member
    exact ⟨inside, by simpa using below⟩
  have greatest : ∀ txid ≤ target, CoveredTo store txid →
      txid ≤ (greedyCover listed 0).2 := by
    intro txid within covered
    apply greedyCover_reaches (covers_mono covered _)
    intro key member
    obtain ⟨inside, below⟩ := List.mem_filter.mp member
    simp only [decide_eq_true_eq] at below
    exact List.mem_filter.mpr ⟨inside, decide_eq_true (by omega)⟩
  cases walked : (greedyCover listed 0).1 with
  | nil =>
      rw [walked] at chain
      have still := chain.eq_of_nil
      right
      constructor
      · have planned : planRestoreTo (listAllLtx store) target =
            .error .noSnapshot := by
          unfold planRestoreTo planRestore
          rw [walked]
          rfl
        rw [restoreToTxid, planned]
      · intro txid within covered
        have := greatest txid within covered
        omega
  | cons first rest =>
      left
      rw [walked] at chain subset
      have begins := chain.head_extends.1
      have starts := positive first (bounded first (subset first (by simp))).1
      have planned : planRestoreTo (listAllLtx store) target =
          .ok (first :: rest) := by
        have one : first.minTxid = 1 := by omega
        unfold planRestoreTo planRestore
        rw [walked, if_pos (by simp [one])]
      obtain ⟨files, keys, loaded⟩ := @exists_loaded store (first :: rest)
        fun key member => by
          obtain ⟨stored, _⟩ :=
            mem_listAllLtx.mp (bounded key (subset key member)).1
          exact (OrderedMap.mem_iff_exists store key).mpr stored
      have chained := chain
      rw [← keys] at chained
      obtain ⟨image, applied, _, _⟩ := applyPlan_stored loaded
        (fun file member => faithful file.1 file.2 (loaded file member))
        chained (show ([] : Bytes).length = _ by simp [history.empty])
        (by
          rintro pgno ⟨positive, inside, _⟩
          rw [history.empty] at inside
          omega)
      rw [keys] at applied
      obtain ⟨last, isLast⟩ : ∃ last, (first :: rest).getLast? = some last :=
        ⟨_, List.getLast?_cons⟩
      have reached := Cover.Chain.getLast?_eq chain isLast
      have lastMember := List.mem_of_getLast? isLast
      have lastBelow := (bounded last (subset last lastMember)).2
      have firstAhead := chain.head_extends.2
      have firstBelow := chain.hi_le first (by simp)
      refine ⟨{ image := image, txid := last.maxTxid }, ?_, ?_, lastBelow, ?_,
        ?_⟩
      · rw [restoreToTxid, planned]
        simp only [isLast]
        rw [applied]
        rfl
      · dsimp only
        omega
      · dsimp only
        rw [reached]
        apply covers_mono chain.covers
        intro key member
        exact List.mem_filter.mpr ⟨(bounded key (subset key member)).1,
          decide_eq_true (chain.hi_le key member)⟩
      · dsimp only
        rw [reached]
        exact greatest

theorem restorable_iff (faithful : history.FaithfulStore store)
    (positive : Positive store) {txid : Nat} :
    Restorable store txid ↔ 1 ≤ txid ∧ CoveredTo store txid := by
  rcases restoreToTxid_cases faithful positive txid with
    ⟨result, restored, atLeast, atMost, covered, greatest⟩ |
    ⟨restored, none_⟩
  · constructor
    · rintro ⟨image, same⟩
      rw [restored] at same
      cases same
      exact ⟨atLeast, covered⟩
    · rintro ⟨_, reaches⟩
      have same : result.txid = txid :=
        Nat.le_antisymm atMost (greatest txid (Nat.le_refl _) reaches)
      refine ⟨result.image, ?_⟩
      rw [restored]
      cases result
      cases same
      rfl
  · constructor
    · rintro ⟨image, same⟩
      rw [restored] at same
      cases same
    · rintro ⟨atLeast, reaches⟩
      have := none_ txid (Nat.le_refl _) reaches
      omega

end History

/-! ## Targets of a timestamp -/

/-- The scan of the headers ends at the highest TXID at which a file stamped
early enough ends. -/
theorem timestampTarget_spec {timestamp : Int} {keys : List FileKey}
    (held : ∀ key ∈ keys, key ∈ store) (target : Nat) :
    ∃ reached, timestampTarget store timestamp keys target = .ok reached ∧
      target ≤ reached ∧
      (reached = target ∨ ∃ key ∈ keys, ∃ file, store[key]? = some file ∧
        key.maxTxid = reached ∧ file.header.timestamp ≤ timestamp) ∧
      ∀ key ∈ keys, ∀ file, store[key]? = some file →
        file.header.timestamp ≤ timestamp → key.maxTxid ≤ reached := by
  induction keys generalizing target with
  | nil => exact ⟨target, rfl, Nat.le_refl _, .inl rfl, by simp⟩
  | cons key rest ih =>
      have restHeld : ∀ other ∈ rest, other ∈ store :=
        fun other member => held other (by simp [member])
      obtain ⟨file, stored⟩ :=
        (OrderedMap.mem_iff_exists store key).mp (held key (by simp))
      rw [timestampTarget]
      by_cases passed : key.maxTxid ≤ target
      · rw [if_pos passed]
        obtain ⟨reached, scanned, above, attained, bounds⟩ :=
          ih restHeld target
        refine ⟨reached, scanned, above, ?_, ?_⟩
        · rcases attained with same | ⟨other, member, found⟩
          · exact .inl same
          · exact .inr ⟨other, by simp [member], found⟩
        · intro other member otherFile otherStored early
          rcases List.mem_cons.mp member with rfl | later
          · omega
          · exact bounds other later otherFile otherStored early
      · rw [if_neg passed, getLtx_eq_ok.mpr stored]
        change ∃ reached, (if file.header.timestamp ≤ timestamp then _
          else _) = _ ∧ _
        by_cases early : file.header.timestamp ≤ timestamp
        · rw [if_pos early]
          obtain ⟨reached, scanned, above, attained, bounds⟩ :=
            ih restHeld key.maxTxid
          refine ⟨reached, scanned, by omega, ?_, ?_⟩
          · rcases attained with same | ⟨other, member, found⟩
            · exact .inr ⟨key, by simp, file, stored, same.symm, early⟩
            · exact .inr ⟨other, by simp [member], found⟩
          · intro other member otherFile otherStored otherEarly
            rcases List.mem_cons.mp member with rfl | later
            · exact above
            · exact bounds other later otherFile otherStored otherEarly
        · rw [if_neg early]
          obtain ⟨reached, scanned, above, attained, bounds⟩ :=
            ih restHeld target
          refine ⟨reached, scanned, above, ?_, ?_⟩
          · rcases attained with same | ⟨other, member, found⟩
            · exact .inl same
            · exact .inr ⟨other, by simp [member], found⟩
          · intro other member otherFile otherStored otherEarly
            rcases List.mem_cons.mp member with rfl | later
            · rw [stored] at otherStored
              cases otherStored
              exact absurd otherEarly early
            · exact bounds other later otherFile otherStored otherEarly

/-- Every file stamped early enough ends at or before the target of a restore
to a timestamp, and the restore goes to that target. -/
theorem restoreToTimestamp_eq (store : Store) (timestamp : Int) :
    ∃ target,
      restoreToTimestamp store timestamp =
        (if target = 0 then .error (.txidTooOld 0)
          else restoreToTxid store target) ∧
      (target = 0 ∨ ∃ key ∈ listAllLtx store, ∃ file,
        store[key]? = some file ∧ key.maxTxid = target ∧
          file.header.timestamp ≤ timestamp) ∧
      ∀ key ∈ listAllLtx store, ∀ file, store[key]? = some file →
        file.header.timestamp ≤ timestamp → key.maxTxid ≤ target := by
  obtain ⟨target, scanned, _, attained, bounds⟩ :=
    @timestampTarget_spec store timestamp (listAllLtx store)
      (fun key member => (OrderedMap.mem_iff_exists store key).mpr
        (mem_listAllLtx.mp member).1) 0
  refine ⟨target, ?_, attained, bounds⟩
  rw [restoreToTimestamp, scanned]
  rfl

end Literstream
