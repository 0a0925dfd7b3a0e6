import Literstream.Levels.Effects
import Literstream.Restore.PointInTime

/-!
# Points in time of a replica in use

Retention cuts the L0 chain where it likes and snapshots are stamped when they
are taken.  The theorems below say which TXIDs and timestamps such a replica
still restores.
-/

namespace Literstream

open Fallible

variable {history : History}

/-- Every earlier TXID is in its own L0 file, or in a coarser file that does
not reach beyond the target. -/
def Uncut (state : Levels) (target : Nat) : Prop :=
  ∀ txid, 1 ≤ txid → txid < target →
    (⟨level0, txid, txid⟩ : FileKey) ∈ state.store ∨
      ∃ key ∈ state.store, key.level ≠ level0 ∧ key.minTxid ≤ txid ∧
        txid ≤ key.maxTxid ∧ key.maxTxid ≤ target

theorem ReplicaOk.positive {state : Levels} (ok : ReplicaOk history state) :
    Positive state.store := by
  obtain ⟨anchor, ok⟩ := ok
  intro key member
  obtain ⟨file, _, fileOk⟩ := ok.key_ok ((ok.mem_listAllLtx key).mp member)
  exact fileOk.positive

theorem ReplicaOk.faithful {state : Levels} (ok : ReplicaOk history state) :
    history.FaithfulStore state.store := by
  obtain ⟨anchor, ok⟩ := ok
  exact ok.faithful

theorem ReplicaOk.mem_listAllLtx {state : Levels}
    (ok : ReplicaOk history state) (key : FileKey) :
    key ∈ listAllLtx state.store ↔ key ∈ state.store := by
  obtain ⟨anchor, ok⟩ := ok
  exact ok.mem_listAllLtx key

/-- With its own L0 file present, a TXID is covered as far as the earlier ones
are. -/
theorem ReplicaOk.coveredTo_iff {state : Levels} {target : Nat}
    (ok : ReplicaOk history state)
    (raw : (⟨level0, target, target⟩ : FileKey) ∈ state.store) :
    CoveredTo state.store target ↔ Uncut state target := by
  have listed := ok.mem_listAllLtx
  obtain ⟨anchor, ok⟩ := ok
  constructor
  · intro covered txid positive before
    obtain ⟨key, member, lower, upper⟩ := covered txid positive (by omega)
    obtain ⟨inside, ends⟩ := List.mem_filter.mp member
    simp only [decide_eq_true_eq] at ends
    have held := (listed key).mp inside
    by_cases level : key.level = level0
    · obtain ⟨_, _, fileOk⟩ := ok.key_ok held
      have single := fileOk.single level
      have same : key = ⟨level0, txid, txid⟩ := by
        obtain ⟨keyLevel, minTxid, maxTxid⟩ := key
        simp only at level lower upper single
        subst level
        congr 1 <;> omega
      rw [same] at held
      exact .inl held
    · exact .inr ⟨key, held, level, lower, upper, ends⟩
  · intro uncut txid positive until_
    rcases Nat.lt_or_ge txid target with before | last
    · rcases uncut txid positive before with held |
        ⟨key, held, _, lower, upper, ends⟩
      · exact ⟨_, List.mem_filter.mpr ⟨(listed _).mpr held,
          decide_eq_true until_⟩, Nat.le_refl _, Nat.le_refl _⟩
      · exact ⟨key, List.mem_filter.mpr ⟨(listed key).mpr held,
          decide_eq_true ends⟩, lower, upper⟩
    · have same : txid = target := by omega
      subst same
      exact ⟨_, List.mem_filter.mpr ⟨(listed _).mpr raw,
        decide_eq_true (Nat.le_refl _)⟩, Nat.le_refl _, Nat.le_refl _⟩

theorem ReplicaOk.of_reaches {encodedSize : LtxFile → Nat} {state : Levels}
    (run : Machine.Reaches (Levels.step encodedSize) history.cascades
      Levels.empty state) : ReplicaOk history state :=
  run.invariant ⟨0, levelsOk_empty history⟩ fun _ _ _ ok allowed stepped =>
    ok.cascade allowed stepped

/-- In every reachable state, a TXID whose L0 file is still there restores
exactly if and only if no earlier TXID was cut off: each has its own L0 file or
lies in a coarser file that ends in time. -/
theorem raw_txid_restores_iff {encodedSize : LtxFile → Nat} {state : Levels}
    {target : Nat} (run : Machine.Reaches (Levels.step encodedSize)
      history.cascades Levels.empty state)
    (raw : (⟨level0, target, target⟩ : FileKey) ∈ state.store) :
    Restorable state.store target ↔ Uncut state target := by
  have ok := ReplicaOk.of_reaches run
  have positive := ok.positive _ ((ok.mem_listAllLtx _).mpr raw)
  rw [History.restorable_iff ok.faithful ok.positive, ok.coveredTo_iff raw]
  exact ⟨fun both => both.2, fun uncut => ⟨positive, uncut⟩⟩

theorem raw_txid_restores_iff_pruned :
    Restorable prunedLevels.store 3 ↔ Uncut prunedLevels 3 :=
  raw_txid_restores_iff prunedLevels_reached (by decide +kernel)

/-- Synchronise the next step of the sample database at some time. -/
def hotSyncAt (clock : Int) (state : Levels) : LevelsAction where
  faults := []
  call := .sync clock (hotPage.file (state.txid + 1) (state.txid + 1)
    (nowMs clock) (hotPage_sized state) (hotSync_range state))

theorem hotSyncAt_cascades (clock : Int) (state : Levels) :
    hotPage.cascades state (hotSyncAt clock state) where
  faithful := hotPage.faithful_file rfl ⟨Nat.le_add_left 1 _, Nat.le_refl _⟩
  minTxid := rfl
  maxTxid := rfl

/-- Three steps folded into one L1 window, of which L0 retention prunes the
first. -/
def cutChoices : List (Levels → LevelsAction) :=
  [hotSyncAt 0, hotSyncAt 100, hotSyncAt 100,
    fun _ => { faults := [], call := .compactLevel 100 1 },
    fun _ => { faults := [], call := .enforceL0Retention 110 50 }]

def cutLevels : Levels := Levels.empty.play (fun _ => 0) cutChoices

/-- The L0 file of TXID 2 is kept, but nothing leads to it. -/
theorem cut_txid_too_old :
    Machine.Reaches (Levels.step fun _ => 0) hotPage.cascades Levels.empty
      cutLevels ∧
    (⟨level0, 2, 2⟩ : FileKey) ∈ cutLevels.store ∧
    restoreToTxid cutLevels.store 2 = .error (.txidTooOld 2) := by
  refine ⟨?_, by decide +kernel, by decide +kernel⟩
  apply reaches_play
  intro choose member state
  simp only [cutChoices, List.mem_cons, List.not_mem_nil, or_false] at member
  rcases member with rfl | rfl | rfl | rfl | rfl
  · exact hotSyncAt_cascades _ state
  · exact hotSyncAt_cascades _ state
  · exact hotSyncAt_cascades _ state
  · exact trivial
  · exact trivial

end Literstream
