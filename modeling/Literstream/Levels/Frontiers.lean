import Literstream.Levels.Effects

/-!
# Frontiers of the levels

The frontier of a level is the highest TXID it holds.  What a level holds past
the frontier of the next one is still waiting to be compacted.  As long as the
waiting files of a level follow each other, and whatever arrives next follows
the frontier, every compaction finds contiguous inputs.
-/

namespace Literstream

/-- The highest level that a compaction reads from. -/
def lastSource : Nat := snapshotLevel - 2

/-- The frontier of every level below the snapshots, and the TXID at which the
next file to arrive there will begin. -/
structure Tiled (state : Levels) (front next : Nat → Nat) : Prop where
  indexed : ∀ key, key ∈ state.files ↔ key ∈ state.store
  ordered : ∀ key ∈ state.store, 1 ≤ key.minTxid ∧ key.minTxid ≤ key.maxTxid
  newest : front level0 = state.txid
  arrival : next level0 = state.txid + 1
  bound : ∀ key ∈ state.store, key.level < snapshotLevel →
    key.maxTxid ≤ front key.level
  attained : ∀ level < snapshotLevel, front level = 0 ∨
    ∃ key ∈ state.store, key.level = level ∧ key.maxTxid = front level
  apart : ∀ left ∈ state.store, ∀ right ∈ state.store,
    left.level = right.level → left.level < snapshotLevel →
      left.maxTxid < right.minTxid ∨ right.maxTxid < left.minTxid ∨
        left = right
  waits : ∀ key ∈ state.store, key.level ≤ lastSource →
    key.maxTxid ≤ front (key.level + 1) ∨
      next (key.level + 1) ≤ key.minTxid
  past : ∀ level ≤ lastSource, front (level + 1) < next (level + 1)
  tiles : ∀ level ≤ lastSource, ∀ txid, next (level + 1) ≤ txid →
    txid ≤ front level → ∃ key ∈ state.store, key.level = level ∧
      next (level + 1) ≤ key.minTxid ∧ key.minTxid ≤ txid ∧
        txid ≤ key.maxTxid
  /-- With nothing waiting, the level passes on what arrives; otherwise the
  arrival follows what is waiting. -/
  joined : ∀ level ≤ lastSource,
    (next (level + 1) = next level ∧ front level < next (level + 1)) ∨
      (next (level + 1) ≤ front level ∧ next level = front level + 1)

/-- Nothing waits at the level. -/
def Idle (front next : Nat → Nat) (level : Nat) : Prop :=
  front level < next (level + 1)

theorem tiled_empty : Tiled Levels.empty (fun _ => 0) (fun _ => 1) where
  indexed := by simp [Levels.empty]
  ordered := by simp [Levels.empty]
  newest := rfl
  arrival := rfl
  bound := by simp [Levels.empty]
  attained := fun _ _ => .inl rfl
  apart := by simp [Levels.empty]
  waits := by simp [Levels.empty]
  past := fun _ _ => Nat.zero_lt_one
  tiles := by
    intro level _ txid begins ends
    omega
  joined := fun _ _ => .inl ⟨rfl, Nat.zero_lt_one⟩

namespace Tiled

variable {state : Levels} {front next : Nat → Nat}

/-- The next arrival of a coarser level begins no later. -/
theorem next_le (tiled : Tiled state front next) {level : Nat}
    (source : level ≤ lastSource) : next (level + 1) ≤ next level := by
  rcases tiled.joined level source with ⟨same, _⟩ | ⟨within, follows⟩
  · omega
  · omega

theorem same {final : Levels} (tiled : Tiled state front next)
    (same : Same state final) : Tiled final front next := by
  obtain ⟨store, files, txid, faults⟩ := final
  obtain ⟨rfl, rfl, rfl⟩ := same
  exact ⟨tiled.indexed, tiled.ordered, tiled.newest, tiled.arrival,
    tiled.bound, tiled.attained, tiled.apart, tiled.waits, tiled.past,
    tiled.tiles, tiled.joined⟩

/-! ## Adding files -/

/-- The next synced file waits at L0. -/
theorem sync (tiled : Tiled state front next) (clock : Int) (file : LtxFile) :
    Tiled
      { state.put clock ⟨level0, state.txid + 1, state.txid + 1⟩ file with
        txid := state.txid + 1 }
      (fun level => if level = level0 then state.txid + 1 else front level)
      (fun level => if level = level0 then state.txid + 2 else next level) := by
  have member : ∀ key : FileKey, key ∈ (state.put clock
      ⟨level0, state.txid + 1, state.txid + 1⟩ file).store ↔
        key = ⟨level0, state.txid + 1, state.txid + 1⟩ ∨ key ∈ state.store :=
    fun key => state.mem_put clock _ key file
  have coarse : ∀ level, level + 1 ≠ level0 := fun _ => Nat.succ_ne_zero _
  have newest := tiled.newest
  have arrival := tiled.arrival
  have nextOne := tiled.next_le (Nat.zero_le lastSource)
  constructor
  case indexed => exact Levels.indexed_put tiled.indexed clock _ file
  case ordered =>
      intro key inside
      rcases (member key).mp inside with rfl | old
      · exact ⟨Nat.le_add_left 1 _, Nat.le_refl _⟩
      · exact tiled.ordered key old
  case newest => rfl
  case arrival => rfl
  case bound =>
      intro key inside below
      rcases (member key).mp inside with rfl | old
      · exact Nat.le_refl _
      · have bound := tiled.bound key old below
        split
        · rename_i isRaw
          rw [isRaw] at bound
          omega
        · exact bound
  case attained =>
      intro level below
      by_cases isRaw : level = level0
      · right
        exact ⟨_, (member _).mpr (.inl rfl), isRaw.symm, (if_pos isRaw).symm⟩
      · rcases tiled.attained level below with zero |
          ⟨key, old, sameLevel, ends⟩
        · exact .inl ((if_neg isRaw).trans zero)
        · exact .inr ⟨key, (member key).mpr (.inr old), sameLevel,
            ends.trans (if_neg isRaw).symm⟩
  case apart =>
      have later : ∀ key ∈ state.store, key.level = level0 →
          key.maxTxid < state.txid + 1 := by
        intro key old isRaw
        have bound := tiled.bound key old (by rw [isRaw]; decide)
        rw [isRaw, newest] at bound
        omega
      intro left leftInside right rightInside sameLevel below
      rcases (member left).mp leftInside with rfl | leftOld
      · rcases (member right).mp rightInside with rfl | rightOld
        · exact .inr (.inr rfl)
        · exact .inr (.inl (later right rightOld sameLevel.symm))
      · rcases (member right).mp rightInside with rfl | rightOld
        · exact .inl (later left leftOld sameLevel)
        · exact tiled.apart left leftOld right rightOld sameLevel below
  case waits =>
      intro key inside source
      rw [if_neg (coarse _), if_neg (coarse _)]
      rcases (member key).mp inside with rfl | old
      · exact .inr (by dsimp only [level0] at *; omega)
      · exact tiled.waits key old source
  case past => exact tiled.past
  case tiles =>
      intro level source txid begins ends
      rw [if_neg (coarse _)] at begins ⊢
      by_cases isRaw : level = level0
      · subst isRaw
        rw [if_pos rfl] at ends
        rcases Nat.lt_or_ge state.txid txid with last | earlier
        · refine ⟨_, (member _).mpr (.inl rfl), rfl, ?_, ?_, ?_⟩
          · dsimp only [level0] at *
            omega
          · exact last
          · exact ends
        · obtain ⟨key, old, found⟩ :=
            tiled.tiles level0 source txid begins (by omega)
          exact ⟨key, (member key).mpr (.inr old), found⟩
      · rw [if_neg isRaw] at ends
        obtain ⟨key, old, found⟩ := tiled.tiles level source txid begins ends
        exact ⟨key, (member key).mpr (.inr old), found⟩
  case joined =>
      intro level source
      rw [if_neg (coarse _)]
      by_cases isRaw : level = level0
      · subst isRaw
        rw [if_pos rfl, if_pos rfl]
        dsimp only [level0] at *
        omega
      · rw [if_neg isRaw, if_neg isRaw]
        exact tiled.joined level source

/-- A snapshot does not concern the levels below it. -/
theorem snapshot (tiled : Tiled state front next) (clock : Int)
    (file : LtxFile) {txid : Nat} (synced : 1 ≤ txid) :
    Tiled (state.put clock ⟨snapshotLevel, 1, txid⟩ file) front next := by
  have member : ∀ key : FileKey, key ∈ (state.put clock
      ⟨snapshotLevel, 1, txid⟩ file).store ↔
        key = ⟨snapshotLevel, 1, txid⟩ ∨ key ∈ state.store :=
    fun key => state.mem_put clock _ key file
  have lower : ∀ key : FileKey, key.level < snapshotLevel →
      key ∈ (state.put clock ⟨snapshotLevel, 1, txid⟩ file).store →
        key ∈ state.store := by
    intro key below inside
    rcases (member key).mp inside with rfl | old
    · exact absurd below (Nat.lt_irrefl _)
    · exact old
  constructor
  case indexed => exact Levels.indexed_put tiled.indexed clock _ file
  case ordered =>
      intro key inside
      rcases (member key).mp inside with rfl | old
      · exact ⟨Nat.le_refl _, synced⟩
      · exact tiled.ordered key old
  case newest => exact tiled.newest
  case arrival => exact tiled.arrival
  case bound =>
      intro key inside below
      exact tiled.bound key (lower key below inside) below
  case attained =>
      intro level below
      rcases tiled.attained level below with zero | ⟨key, old, found⟩
      · exact .inl zero
      · exact .inr ⟨key, (member key).mpr (.inr old), found⟩
  case apart =>
      intro left leftInside right rightInside sameLevel below
      exact tiled.apart left (lower left below leftInside) right
        (lower right (sameLevel ▸ below) rightInside) sameLevel below
  case waits =>
      intro key inside source
      have below : key.level < snapshotLevel :=
        Nat.lt_of_le_of_lt source (by decide)
      exact tiled.waits key (lower key below inside) source
  case past => exact tiled.past
  case tiles =>
      intro level source txid begins ends
      obtain ⟨key, old, found⟩ := tiled.tiles level source txid begins ends
      exact ⟨key, (member key).mpr (.inr old), found⟩
  case joined => exact tiled.joined

/-- A compaction moves everything that waits at a level to the next one, in one
window. -/
theorem compacted (tiled : Tiled state front next) (clock : Int)
    (file : LtxFile) {level : Nat} (source : level ≤ lastSource)
    (waiting : next (level + 1) ≤ front level) :
    Tiled
      (state.put clock ⟨level + 1, next (level + 1), front level⟩ file)
      (fun other => if other = level + 1 then front level else front other)
      (fun other => if other = level + 1 then next level else next other) := by
  have member : ∀ key : FileKey, key ∈ (state.put clock
      ⟨level + 1, next (level + 1), front level⟩ file).store ↔
        key = ⟨level + 1, next (level + 1), front level⟩ ∨
          key ∈ state.store :=
    fun key => state.mem_put clock _ key file
  have raw : level0 ≠ level + 1 := (Nat.succ_ne_zero level).symm
  have self : ∀ other, ¬ other = other + 1 := by
    intro other
    omega
  have past := tiled.past level source
  have follows : next level = front level + 1 := by
    rcases tiled.joined level source with ⟨_, idle⟩ | ⟨_, follows⟩
    · omega
    · exact follows
  have positive : 1 ≤ next (level + 1) := by omega
  have coarser : level + 1 < snapshotLevel :=
    Nat.lt_of_le_of_lt (Nat.succ_le_succ source) (by decide)
  constructor
  case indexed => exact Levels.indexed_put tiled.indexed clock _ file
  case ordered =>
      intro key inside
      rcases (member key).mp inside with rfl | old
      · exact ⟨positive, waiting⟩
      · exact tiled.ordered key old
  case newest =>
      rw [if_neg raw]
      exact tiled.newest
  case arrival =>
      rw [if_neg raw]
      exact tiled.arrival
  case bound =>
      intro key inside below
      rcases (member key).mp inside with rfl | old
      · rw [if_pos rfl]
      · have bound := tiled.bound key old below
        split
        · rename_i isNext
          rw [isNext] at bound
          omega
        · exact bound
  case attained =>
      intro other below
      by_cases isNext : other = level + 1
      · right
        exact ⟨_, (member _).mpr (.inl rfl), isNext.symm,
          (if_pos isNext).symm⟩
      · rcases tiled.attained other below with zero |
          ⟨key, old, sameLevel, ends⟩
        · exact .inl ((if_neg isNext).trans zero)
        · exact .inr ⟨key, (member key).mpr (.inr old), sameLevel,
            ends.trans (if_neg isNext).symm⟩
  case apart =>
      have earlier : ∀ key ∈ state.store, key.level = level + 1 →
          key.maxTxid < next (level + 1) := by
        intro key old isNext
        have bound := tiled.bound key old (by rw [isNext]; exact coarser)
        rw [isNext] at bound
        omega
      intro left leftInside right rightInside sameLevel below
      rcases (member left).mp leftInside with rfl | leftOld
      · rcases (member right).mp rightInside with rfl | rightOld
        · exact .inr (.inr rfl)
        · exact .inr (.inl (earlier right rightOld sameLevel.symm))
      · rcases (member right).mp rightInside with rfl | rightOld
        · exact .inl (earlier left leftOld sameLevel)
        · exact tiled.apart left leftOld right rightOld sameLevel below
  case waits =>
      intro key inside other
      by_cases isLevel : key.level = level
      · left
        rcases (member key).mp inside with rfl | old
        · simp at isLevel
        · rw [if_pos (by rw [isLevel]), ← isLevel]
          exact tiled.bound key old (by omega)
      · have notNext : key.level + 1 ≠ level + 1 := by omega
        rw [if_neg notNext, if_neg notNext]
        rcases (member key).mp inside with rfl | old
        · exact .inr (tiled.next_le other)
        · exact tiled.waits key old other
  case past =>
      intro other otherSource
      by_cases isLevel : other = level
      · subst isLevel
        rw [if_pos rfl, if_pos rfl]
        omega
      · have notNext : other + 1 ≠ level + 1 := by omega
        rw [if_neg notNext, if_neg notNext]
        exact tiled.past other otherSource
  case tiles =>
      intro other otherSource txid begins ends
      by_cases isLevel : other = level
      · subst isLevel
        rw [if_pos rfl] at begins
        rw [if_neg (self other)] at ends
        omega
      · have notNext : other + 1 ≠ level + 1 := by omega
        rw [if_neg notNext] at begins ⊢
        by_cases isNext : other = level + 1
        · subst isNext
          rw [if_pos rfl] at ends
          rcases Nat.lt_or_ge txid (next (level + 1)) with before | inside
          · have old : txid ≤ front (level + 1) := by
              rcases tiled.joined (level + 1) otherSource with
                ⟨passes, _⟩ | ⟨_, joins⟩
              · omega
              · omega
            obtain ⟨key, oldKey, found⟩ :=
              tiled.tiles (level + 1) otherSource txid begins old
            exact ⟨key, (member key).mpr (.inr oldKey), found⟩
          · exact ⟨_, (member _).mpr (.inl rfl), rfl,
              tiled.next_le otherSource, inside, ends⟩
        · rw [if_neg isNext] at ends
          obtain ⟨key, old, found⟩ :=
            tiled.tiles other otherSource txid begins ends
          exact ⟨key, (member key).mpr (.inr old), found⟩
  case joined =>
      intro other otherSource
      by_cases isLevel : other = level
      · subst isLevel
        left
        rw [if_pos rfl, if_neg (self other),
          if_neg (self other)]
        exact ⟨rfl, by omega⟩
      · have notNext : other + 1 ≠ level + 1 := by omega
        rw [if_neg notNext]
        by_cases isNext : other = level + 1
        · subst isNext
          right
          rw [if_pos rfl, if_pos rfl]
          have upper := tiled.next_le otherSource
          exact ⟨by omega, follows⟩
        · rw [if_neg isNext, if_neg isNext]
          exact tiled.joined other otherSource

/-! ## Deleting files -/

/-- A file that may go: not the newest of its level, and if it still waits,
the first of those that do, with nothing waiting at any coarser level. -/
structure Droppable (front next : Nat → Nat) (key : FileKey) : Prop where
  newest : key.level < snapshotLevel → key.maxTxid < front key.level
  waits : key.level ≤ lastSource →
    key.maxTxid ≤ front (key.level + 1) ∨
      (key.minTxid = next (key.level + 1) ∧
        ∀ above, key.level < above → above ≤ lastSource →
          Idle front next above)

/-- A deleted file that nothing waits for. -/
theorem drop_taken (tiled : Tiled state front next) {key : FileKey}
    (newest : key.level < snapshotLevel → key.maxTxid < front key.level)
    (taken : key.level ≤ lastSource → key.maxTxid ≤ front (key.level + 1)) :
    Tiled (state.drop key) front next where
  indexed := by
    intro other
    change other ∈ state.files.erase key ↔ other ∈ state.store.erase key
    rw [OrderedMap.mem_erase, OrderedMap.mem_erase, tiled.indexed]
  ordered := fun other inside =>
    tiled.ordered other ((state.mem_drop key other).mp inside).2
  newest := tiled.newest
  arrival := tiled.arrival
  bound := fun other inside =>
    tiled.bound other ((state.mem_drop key other).mp inside).2
  attained := by
    intro level below
    rcases tiled.attained level below with zero | ⟨other, old, sameLevel, ends⟩
    · exact .inl zero
    · refine .inr ⟨other, (state.mem_drop key other).mpr ⟨?_, old⟩, sameLevel,
        ends⟩
      rintro rfl
      have before := newest (by omega)
      rw [sameLevel] at before
      omega
  apart := fun left leftInside right rightInside =>
    tiled.apart left ((state.mem_drop key left).mp leftInside).2
      right ((state.mem_drop key right).mp rightInside).2
  waits := fun other inside =>
    tiled.waits other ((state.mem_drop key other).mp inside).2
  past := tiled.past
  tiles := by
    intro level source txid begins ends
    obtain ⟨other, old, sameLevel, starts, lower, upper⟩ :=
      tiled.tiles level source txid begins ends
    refine ⟨other, (state.mem_drop key other).mpr ⟨?_, old⟩, sameLevel, starts,
      lower, upper⟩
    rintro rfl
    have before := taken (by omega)
    have past := tiled.past level source
    rw [sameLevel] at before
    omega
  joined := tiled.joined

/-- With nothing waiting from some level on, all of them pass on the same
arrival. -/
theorem next_eq_of_idle (tiled : Tiled state front next) {level : Nat}
    (idle : ∀ above, level < above → above ≤ lastSource →
      Idle front next above) :
    ∀ above, level < above → above ≤ lastSource + 1 →
      next above = next (level + 1) := by
  intro above later
  induction above with
  | zero => omega
  | succ below ih =>
      intro inside
      rcases Nat.lt_or_ge level below with between | first
      · have passes := idle below between (Nat.le_of_succ_le_succ inside)
        unfold Idle at passes
        rcases tiled.joined below (Nat.le_of_succ_le_succ inside) with
          ⟨same, _⟩ | ⟨waiting, _⟩
        · rw [same]
          exact ih between (by omega)
        · omega
      · have same : below = level := by omega
        rw [same]

/-- Deleting the first waiting file moves the arrivals of the coarser levels
behind it. -/
theorem drop_first (tiled : Tiled state front next) {key : FileKey}
    (member : key ∈ state.store) (source : key.level ≤ lastSource)
    (newest : key.maxTxid < front key.level)
    (first : key.minTxid = next (key.level + 1))
    (idle : ∀ above, key.level < above → above ≤ lastSource →
      Idle front next above) :
    Tiled (state.drop key) front
      (fun level => if level ≤ key.level then next level
        else key.maxTxid + 1) := by
  have same := tiled.next_eq_of_idle idle
  have ordered := (tiled.ordered key member).2
  have past := tiled.past key.level source
  have below : key.level < snapshotLevel :=
    Nat.lt_of_le_of_lt source (by decide)
  have beyond : ∀ level, ¬ level + 1 ≤ key.level ↔ key.level ≤ level := by
    intro level
    omega
  have waiting : next key.level = front key.level + 1 := by
    rcases tiled.joined key.level source with ⟨_, passes⟩ | ⟨_, follows⟩
    · omega
    · exact follows
  constructor
  case indexed =>
      intro other
      change other ∈ state.files.erase key ↔ other ∈ state.store.erase key
      rw [OrderedMap.mem_erase, OrderedMap.mem_erase, tiled.indexed]
  case ordered =>
      exact fun other inside =>
        tiled.ordered other ((state.mem_drop key other).mp inside).2
  case newest => exact tiled.newest
  case arrival =>
      rw [if_pos (show level0 ≤ key.level from Nat.zero_le _)]
      exact tiled.arrival
  case bound =>
      exact fun other inside =>
        tiled.bound other ((state.mem_drop key other).mp inside).2
  case attained =>
      intro level inside
      rcases tiled.attained level inside with zero |
        ⟨other, old, sameLevel, ends⟩
      · exact .inl zero
      · refine .inr ⟨other, (state.mem_drop key other).mpr ⟨?_, old⟩,
          sameLevel, ends⟩
        rintro rfl
        rw [sameLevel] at newest
        omega
  case apart =>
      exact fun left leftInside right rightInside =>
        tiled.apart left ((state.mem_drop key left).mp leftInside).2
          right ((state.mem_drop key right).mp rightInside).2
  case waits =>
      intro other inside otherSource
      obtain ⟨differs, old⟩ := (state.mem_drop key other).mp inside
      rcases tiled.waits other old otherSource with taken | waits
      · exact .inl taken
      · by_cases finer : other.level + 1 ≤ key.level
        · rw [if_pos finer]
          exact .inr waits
        · rw [if_neg finer]
          have coarser := (beyond other.level).mp finer
          rcases Nat.lt_or_ge key.level other.level with above | level
          · left
            have passes := idle other.level above otherSource
            unfold Idle at passes
            have bound := tiled.bound other old
              (Nat.lt_of_le_of_lt otherSource (by decide))
            have otherOrdered := (tiled.ordered other old).2
            omega
          · have sameLevel : other.level = key.level := by omega
            rw [sameLevel] at waits ⊢
            have otherOrdered := (tiled.ordered other old).2
            rcases tiled.apart other old key member sameLevel
              (by omega) with before | after | equal
            · omega
            · exact .inr after
            · exact absurd equal differs
  case past =>
      intro level levelSource
      have passed := tiled.past level levelSource
      by_cases finer : level + 1 ≤ key.level
      · rw [if_pos finer]
        exact passed
      · rw [if_neg finer]
        have coarser := (beyond level).mp finer
        rw [same (level + 1) (by omega) (by omega)] at passed
        omega
  case tiles =>
      intro level levelSource txid begins ends
      by_cases finer : level + 1 ≤ key.level
      · rw [if_pos finer] at begins ⊢
        obtain ⟨other, old, sameLevel, found⟩ :=
          tiled.tiles level levelSource txid begins ends
        refine ⟨other, (state.mem_drop key other).mpr ⟨?_, old⟩, sameLevel,
          found⟩
        rintro rfl
        omega
      · rw [if_neg finer] at begins ⊢
        have coarser := (beyond level).mp finer
        rcases Nat.lt_or_ge key.level level with above | levelLe
        · have passes := idle level above levelSource
          unfold Idle at passes
          rw [same (level + 1) (by omega) (by omega)] at passes
          omega
        · have sameLevel : level = key.level := by omega
          subst sameLevel
          obtain ⟨other, old, otherLevel, starts, lower, upper⟩ :=
            tiled.tiles key.level source txid (by omega) ends
          have otherOrdered := (tiled.ordered other old).2
          have differs : other ≠ key := by
            rintro rfl
            omega
          refine ⟨other, (state.mem_drop key other).mpr ⟨differs, old⟩,
            otherLevel, ?_, lower, upper⟩
          rcases tiled.apart other old key member otherLevel (by omega) with
            before | after | equal
          · omega
          · exact after
          · exact absurd equal differs
  case joined =>
      intro level levelSource
      by_cases finer : level + 1 ≤ key.level
      · rw [if_pos finer, if_pos (Nat.le_of_succ_le finer)]
        exact tiled.joined level levelSource
      · rw [if_neg finer]
        have coarser := (beyond level).mp finer
        rcases Nat.lt_or_ge key.level level with above | levelLe
        · left
          have passes := idle level above levelSource
          unfold Idle at passes
          rw [same (level + 1) (by omega) (by omega)] at passes
          rw [if_neg (by omega)]
          exact ⟨rfl, by omega⟩
        · right
          have sameLevel : level = key.level := by omega
          subst sameLevel
          rw [if_pos (Nat.le_refl _)]
          exact ⟨newest, waiting⟩

/-- A deletion keeps the frontiers, and nothing starts or stops waiting
anywhere. -/
theorem drop (tiled : Tiled state front next) {key : FileKey}
    (member : key ∈ state.store) (droppable : Droppable front next key) :
    ∃ next', Tiled (state.drop key) front next' ∧
      ∀ level ≤ lastSource, Idle front next' level ↔ Idle front next level := by
  by_cases taken : key.level ≤ lastSource → key.maxTxid ≤ front (key.level + 1)
  · exact ⟨next, tiled.drop_taken droppable.newest taken, fun _ _ => Iff.rfl⟩
  · obtain ⟨source, beyond⟩ := Classical.not_imp.mp taken
    obtain ⟨first, idle⟩ := (droppable.waits source).resolve_left beyond
    have newest := droppable.newest (Nat.lt_of_le_of_lt source (by decide))
    refine ⟨_, tiled.drop_first member source newest first idle, ?_⟩
    intro level levelSource
    have ordered := (tiled.ordered key member).2
    unfold Idle
    dsimp only
    by_cases finer : level + 1 ≤ key.level
    · rw [if_pos finer]
    · rw [if_neg finer]
      rcases Nat.lt_or_ge key.level level with above | levelLe
      · have passes := idle level above levelSource
        unfold Idle at passes
        rw [tiled.next_eq_of_idle idle (level + 1) (by omega) (by omega)] at *
        constructor
        · exact fun _ => passes
        · intro _
          omega
      · have sameLevel : level = key.level := by omega
        subst sameLevel
        omega

end Tiled

end Literstream
