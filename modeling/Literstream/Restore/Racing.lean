import Literstream.Levels.Paced
import Literstream.Restore.Requests

/-!
# A restore beside a live writer

Any store operation of the writer may fall between any two requests of a
restore.  What the restore returns is an image that was committed; it is no
older than the start of the restore when the levels answer in order.
-/

namespace Literstream

open Std

/-- The writer: the replica when the running call began, and how the store
operations of that call went so far. -/
structure Writer where
  replica : Levels
  running : Option (LevelsCall × List Bool)

/-- The replica as others see it now. -/
def Writer.visible (encodedSize : LtxFile → Nat) (writer : Writer) : Levels :=
  match writer.running with
  | none => writer.replica
  | some (call, outcomes) => call.visible encodedSize writer.replica outcomes

/-- The call still has an operation to perform after the listed ones. -/
def LevelsCall.waiting (encodedSize : LtxFile → Nat) (state : Levels)
    (call : LevelsCall) (outcomes : List Bool) : Bool :=
  (call.run encodedSize
    { state with faults := outcomes ++ [true] }).2.faults.isEmpty

inductive CallProgress where
  | begins (call : LevelsCall)
  | operates (failed : Bool)
  | returns

def Writer.step (encodedSize : LtxFile → Nat) (writer : Writer) :
    CallProgress → Option Writer
  | .begins call =>
      match writer.running with
      | some _ => none
      | none => some { writer with running := some (call, []) }
  | .operates failed =>
      match writer.running with
      | none => none
      | some (call, outcomes) =>
          if call.waiting encodedSize writer.replica outcomes then
            some { writer with running := some (call, outcomes ++ [failed]) }
          else none
  | .returns =>
      match writer.running with
      | none => none
      | some (call, outcomes) =>
          if call.waiting encodedSize writer.replica outcomes then none
          else some
            { replica := call.visible encodedSize writer.replica outcomes
              running := none }

/-- A writer and a restore beside it. -/
structure Race where
  writer : Writer
  reader : Option Restoring

inductive RaceAction where
  | writes (progress : CallProgress)
  /-- A restore begins, also in the place of another. -/
  | restores (target : Option Nat)
  | reads (request : Request)

def Race.step (encodedSize : LtxFile → Nat) (race : Race) :
    RaceAction → Option Race
  | .writes progress => do
      let writer ← race.writer.step encodedSize progress
      return { race with writer := writer }
  | .restores target =>
      some
        { race with
          reader := some
            { target := target
              began := (race.writer.visible encodedSize).txid
              phase := .listing [] } }
  | .reads request => do
      let restoring ← race.reader
      let phase ← restoring.phase.step (race.writer.visible encodedSize).store
        restoring.target request
      return { race with reader := some { restoring with phase := phase } }

def Race.start : Race where
  writer := { replica := Levels.empty, running := none }
  reader := none

/-- The writer cascades. -/
def History.races (history : History) (race : Race) : RaceAction → Prop
  | .writes (.begins call) =>
      history.cascades race.writer.replica { faults := [], call := call }
  | _ => True

/-! ## The writer's side -/

section Writer

variable {history : History} {encodedSize : LtxFile → Nat}

/-- The replica is in order, and the running call is one that keeps it so. -/
structure Writer.InOrder (history : History) (writer : Writer) : Prop where
  ok : ReplicaOk history writer.replica
  allowed : ∀ call outcomes, writer.running = some (call, outcomes) →
    history.cascades writer.replica { faults := [], call := call }

theorem Writer.InOrder.visible {writer : Writer}
    (inOrder : writer.InOrder history) :
    ReplicaOk history (writer.visible encodedSize) := by
  unfold Writer.visible
  split
  · exact inOrder.ok
  · rename_i call outcomes running
    exact inOrder.ok.visible (inOrder.allowed call outcomes running) outcomes

/-- The writer stays in order, and a reader loses nothing. -/
theorem Writer.InOrder.step {writer next : Writer} {progress : CallProgress}
    (inOrder : writer.InOrder history)
    (allowed : ∀ call, progress = .begins call →
      history.cascades writer.replica { faults := [], call := call })
    (stepped : writer.step encodedSize progress = some next) :
    next.InOrder history ∧
      Onward (writer.visible encodedSize) (next.visible encodedSize) := by
  cases progress with
  | begins call =>
      simp only [Writer.step] at stepped
      split at stepped
      · cases stepped
      · rename_i quiet
        cases stepped
        have cascades := allowed call rfl
        constructor
        · refine ⟨inOrder.ok, ?_⟩
          rintro _ _ ⟨⟩
          exact cascades
        · have first := (@ReplicaOk.visible_onward history encodedSize
            writer.replica call [] inOrder.ok cascades [] true).1
          simp only [Writer.visible, quiet]
          exact first
  | operates failed =>
      simp only [Writer.step] at stepped
      split at stepped
      · cases stepped
      · rename_i call outcomes running
        split at stepped
        · cases stepped
          have cascades := inOrder.allowed call outcomes running
          constructor
          · refine ⟨inOrder.ok, ?_⟩
            rintro _ _ ⟨⟩
            exact cascades
          · have following := (@ReplicaOk.visible_onward history encodedSize
              writer.replica call [] inOrder.ok cascades outcomes failed).2
            simp only [Writer.visible, running]
            exact following
        · cases stepped
  | returns =>
      simp only [Writer.step] at stepped
      split at stepped
      · cases stepped
      · rename_i call outcomes running
        split at stepped
        · cases stepped
        · cases stepped
          have cascades := inOrder.allowed call outcomes running
          constructor
          · refine ⟨inOrder.ok.visible cascades outcomes, ?_⟩
            rintro _ _ ⟨⟩
          · simp only [Writer.visible, running]
            exact Onward.refl _

end Writer

/-! ## Nothing is missed -/

/-- Some listed file holds the TXID. -/
def Listings.Holds (answers : Listings) (txid : Nat) : Prop :=
  ∃ key ∈ answers.files, key.minTxid ≤ txid ∧ txid ≤ key.maxTxid

/-- What a TXID that leaves L0 is found in later: L1, and what leaves L1 in a
snapshot. -/
structure Listings.Fresh (state : Levels) (began : Nat) (answers : Listings) :
    Prop where
  before1 : answers.answered 1 = true → answers.answered level0 = true
  before9 : answers.answered snapshotLevel = true → answers.answered 1 = true
  raw : answers.answered level0 = true → ∀ txid, 1 ≤ txid → txid ≤ began →
    answers.Holds txid ∨ rawKey txid ∉ state.store
  window : answers.answered 1 = true → ∀ txid, 1 ≤ txid → txid ≤ began →
    answers.Holds txid ∨ state.Based txid
  base : answers.answered snapshotLevel = true → ∀ txid, 1 ≤ txid →
    txid ≤ began → answers.Holds txid

/-- A restore of everything finds what the replica held when it began. -/
def Restoring.Fresh (state : Levels) (restoring : Restoring) : Prop :=
  restoring.began ≤ state.txid ∧
  match restoring.phase with
  | .listing answers => answers.Fresh state restoring.began
  | .fetching _ _ txid =>
      restoring.target = none → restoring.began ≤ txid
  | .done (.ok result) =>
      restoring.target = none → restoring.began ≤ result.txid
  | .done (.error error) =>
      restoring.target = none → 1 ≤ restoring.began → error ≠ .noSnapshot

/-- L0 is listed before L1, and L1 before the snapshots. -/
def RestorePhase.inOrder : RestorePhase → Request → Prop
  | .listing answers, .lists level =>
      (level = 1 → answers.answered level0 = true) ∧
        (level = snapshotLevel → answers.answered 1 = true)
  | _, _ => True

theorem Listings.Fresh.later {state next : Levels} {began : Nat}
    {answers : Listings} (fresh : answers.Fresh state began)
    (onward : Onward state next) (bound : began ≤ state.txid) :
    answers.Fresh next began where
  before1 := fresh.before1
  before9 := fresh.before9
  raw := by
    intro asked txid positive within
    rcases fresh.raw asked txid positive within with held | gone
    · exact .inl held
    · exact .inr fun back =>
        gone (onward.gone txid (Nat.le_trans within bound) back)
  window := by
    intro asked txid positive within
    rcases fresh.window asked txid positive within with held | based
    · exact .inl held
    · exact .inr (onward.based txid based)
  base := fresh.base

theorem Restoring.Fresh.later {state next : Levels} {restoring : Restoring}
    (fresh : restoring.Fresh state) (onward : Onward state next) :
    restoring.Fresh next := by
  obtain ⟨target, began, phase⟩ := restoring
  obtain ⟨bound, fresh⟩ := fresh
  refine ⟨Nat.le_trans bound onward.txid, ?_⟩
  cases phase with
  | listing answers => exact fresh.later onward bound
  | fetching plan image txid => exact fresh
  | done result => cases result <;> exact fresh

section Answering

variable {history : History} {state : Levels} {began level : Nat}
  {answers : Listings}

/-- One more level answers. -/
theorem Listings.Fresh.answer (ok : ReplicaOk history state)
    (bound : began ≤ state.txid) (fresh : answers.Fresh state began)
    (inside : level ≤ maxLevel) (unanswered : answers.answered level = false)
    (inOrder : (level = 1 → answers.answered level0 = true) ∧
      (level = snapshotLevel → answers.answered 1 = true)) :
    Listings.Fresh state began
      ((level, listLevel state.store level) :: answers) := by
  obtain ⟨anchor, ok⟩ := ok
  have grows {txid : Nat} (held : answers.Holds txid) :
      Listings.Holds ((level, listLevel state.store level) :: answers) txid := by
    obtain ⟨key, member, within⟩ := held
    exact ⟨key, (Listings.mem_files_cons inside unanswered).mpr (.inr member),
      within⟩
  have finds {key : FileKey} {txid : Nat} (member : key ∈ state.store)
      (same : key.level = level) (lower : key.minTxid ≤ txid)
      (upper : txid ≤ key.maxTxid) :
      Listings.Holds ((level, listLevel state.store level) :: answers) txid :=
    ⟨key, (Listings.mem_files_cons inside unanswered).mpr
      (.inl (mem_listLevel.mpr ⟨member, same⟩)), lower, upper⟩
  have asked {other : Nat}
      (answered : Listings.answered
        ((level, listLevel state.store level) :: answers) other = true) :
      other = level ∨ answers.answered other = true := by
    simpa using answered
  have keeps {other : Nat} (answered : answers.answered other = true) :
      Listings.answered
        ((level, listLevel state.store level) :: answers) other = true := by
    simp [answered]
  constructor
  · intro answered
    rcases asked answered with here | earlier
    · exact keeps (inOrder.1 here.symm)
    · exact keeps (fresh.before1 earlier)
  · intro answered
    rcases asked answered with here | earlier
    · exact keeps (inOrder.2 here.symm)
    · exact keeps (fresh.before9 earlier)
  · intro answered txid positive within
    rcases asked answered with here | earlier
    · by_cases held : rawKey txid ∈ state.store
      · exact .inl (finds held here (Nat.le_refl _) (Nat.le_refl _))
      · exact .inr held
    · rcases fresh.raw earlier txid positive within with held | gone
      · exact .inl (grows held)
      · exact .inr gone
  · intro answered txid positive within
    rcases asked answered with here | earlier
    · rcases fresh.raw (inOrder.1 here.symm) txid positive within with
        held | gone
      · exact .inl (grows held)
      · rcases Nat.lt_or_ge anchor txid with above | below
        · rcases ok.tail txid above (Nat.le_trans within bound) with
            back | ⟨key, member, window, lower, upper⟩
          · exact absurd back gone
          · exact .inl (finds member (window.trans here) lower upper)
        · exact .inr ((ok.based_iff positive).mpr below)
    · rcases fresh.window earlier txid positive within with held | based
      · exact .inl (grows held)
      · exact .inr based
  · intro answered txid positive within
    rcases asked answered with here | earlier
    · rcases fresh.window (inOrder.2 here.symm) txid positive within with
        held | ⟨key, member, snapshot, lower, upper⟩
      · exact grows held
      · exact finds member (snapshot.trans here) lower upper
    · exact grows (fresh.base earlier txid positive within)

/-- With every level answered, the plan reaches what the replica held when the
restore began. -/
theorem Listings.Fresh.planned (fresh : answers.Fresh state began)
    (synced : Synced state.txid answers.files)
    (complete : answers.complete = true) :
    (∀ plan txid, planFor answers.files none = .ok (plan, txid) →
      began ≤ txid) ∧
    (1 ≤ began → planFor answers.files none ≠ .error .noSnapshot) := by
  have all : answers.answered snapshotLevel = true := by
    rw [Listings.complete, List.all_eq_true] at complete
    exact complete snapshotLevel (by decide)
  have covered : FilesCover answers.files 0 began := by
    intro txid positive within
    obtain ⟨key, member, lower, upper⟩ := fresh.base all txid positive within
    exact ⟨key, member, lower, upper⟩
  have reached := greedyCover_reaches covered
  constructor
  · intro plan txid planned
    simp only [planFor, bind_eq_ok] at planned
    obtain ⟨found, covers, same⟩ := planned
    cases same
    obtain ⟨last, isLast, ends⟩ := planRestore_getLast? covers
    rw [isLast]
    change began ≤ last.maxTxid
    rw [ends]
    exact reached
  · intro nonempty
    obtain ⟨key, member, lower, upper⟩ :=
      fresh.base all 1 (Nat.le_refl 1) nonempty
    have begins : key.candidate 0 = true :=
      FileKey.candidate_iff.mpr ⟨lower, upper⟩
    have planned := planRestore_succeeds
      (fun key member => (synced key member).1) ⟨key, member, begins⟩
    rw [planFor, planned]
    intro impossible
    cases impossible

/-- One answer from a replica in order keeps a restore fresh. -/
theorem Restoring.Fresh.step {restoring : Restoring} {request : Request}
    {next : RestorePhase} (ok : ReplicaOk history state)
    (follows : history.Follows restoring.target state.txid restoring.phase)
    (fresh : restoring.Fresh state)
    (inOrder : restoring.phase.inOrder request)
    (stepped : restoring.phase.step state.store restoring.target request =
      some next) :
    Restoring.Fresh state { restoring with phase := next } := by
  obtain ⟨target, began, phase⟩ := restoring
  obtain ⟨bound, fresh⟩ := fresh
  refine ⟨bound, ?_⟩
  cases RestorePhase.steps stepped with
  | listed inside unanswered =>
      exact fresh.answer ok bound inside unanswered inOrder
  | unplanned complete found =>
      rintro rfl nonempty rfl
      exact (fresh.planned follows complete).2 nonempty found
  | @planned answers plan txid complete found =>
      rintro rfl
      exact (fresh.planned follows complete).1 plan txid found
  | finished => exact fresh
  | @missing key rest image txid error missing =>
      rintro _ _ rfl
      unfold getLtx at missing
      split at missing
      · cases missing
      · cases missing
  | fetched held => exact fresh
  | broken =>
      intro _ _ impossible
      cases impossible

end Answering

/-! ## Every interleaving -/

instance (phase : RestorePhase) (request : Request) :
    Decidable (phase.inOrder request) := by
  cases phase <;> cases request <;>
    unfold RestorePhase.inOrder <;> infer_instance

/-- The levels answer in order. -/
def Race.inOrder (race : Race) (action : RaceAction) : Bool :=
  match action, race.reader with
  | .reads request, some restoring => restoring.phase.inOrder request
  | _, _ => true

/-- The writer cascades, and the levels answer in order. -/
def History.racesInOrder (history : History) (race : Race)
    (action : RaceAction) : Prop :=
  history.races race action ∧ race.inOrder action = true

section Interleavings

variable {history : History} {encodedSize : LtxFile → Nat}

/-- The two sides, with what holds of the restore in the replica that it sees
now. -/
structure Race.Keeps (history : History) (encodedSize : LtxFile → Nat)
    (known : Levels → Restoring → Prop) (race : Race) : Prop where
  writer : race.writer.InOrder history
  reader : ∀ restoring, race.reader = some restoring →
    known (race.writer.visible encodedSize) restoring

/-- What survives the writer's steps, holds when a restore begins and is kept by
every answer holds in every interleaving. -/
theorem Race.Keeps.step {known : Levels → Restoring → Prop} {race next : Race}
    {action : RaceAction} (keeps : race.Keeps history encodedSize known)
    (later : ∀ state after restoring, Onward state after →
      known state restoring → known after restoring)
    (begins : ∀ state target, ReplicaOk history state →
      known state { target := target, began := state.txid, phase := .listing [] })
    (answers : ∀ state restoring request phase, ReplicaOk history state →
      action = .reads request → race.reader = some restoring →
      known state restoring →
      restoring.phase.step state.store restoring.target request = some phase →
      known state { restoring with phase := phase })
    (allowed : history.races race action)
    (stepped : race.step encodedSize action = some next) :
    next.Keeps history encodedSize known := by
  cases action with
  | writes progress =>
      simp only [Race.step, Option.bind_eq_bind, Option.pure_def,
        Option.bind_eq_some_iff] at stepped
      obtain ⟨writer, written, same⟩ := stepped
      cases same
      obtain ⟨inOrder, onward⟩ := keeps.writer.step (by
        rintro call rfl
        exact allowed) written
      exact ⟨inOrder, fun restoring found =>
        later _ _ _ onward (keeps.reader restoring found)⟩
  | restores target =>
      cases stepped
      refine ⟨keeps.writer, ?_⟩
      rintro _ ⟨⟩
      exact begins _ target keeps.writer.visible
  | reads request =>
      simp only [Race.step, Option.bind_eq_bind, Option.pure_def,
        Option.bind_eq_some_iff] at stepped
      obtain ⟨restoring, found, phase, answered, same⟩ := stepped
      cases same
      refine ⟨keeps.writer, ?_⟩
      rintro _ ⟨⟩
      exact answers _ restoring request phase keeps.writer.visible rfl found
        (keeps.reader restoring found) answered

theorem Race.start_keeps (known : Levels → Restoring → Prop) :
    Race.start.Keeps history encodedSize known where
  writer :=
    { ok := ⟨0, levelsOk_empty history⟩
      allowed := by rintro _ _ ⟨⟩ }
  reader := by rintro _ ⟨⟩

end Interleavings

/-! ## Main results -/

section Interleaved

variable {history : History} {encodedSize : LtxFile → Nat} {race : Race}
  {restoring : Restoring}

/-- However a restore is interleaved with the writer's store operations, an image
that it returns is exactly the one at the TXID it reports. -/
theorem racing_restore_exact {result : RestoreResult}
    (oneSize : ∀ left right, history.pageSize left = history.pageSize right)
    (run : Machine.Reaches (Race.step encodedSize) history.races Race.start
      race)
    (reader : race.reader = some restoring)
    (done : restoring.phase = .done (.ok result)) :
    1 ≤ result.txid ∧
    result.txid ≤ (race.writer.visible encodedSize).txid ∧
    (∀ limit, restoring.target = some limit → result.txid ≤ limit) ∧
    result.image = history.image result.txid := by
  have keeps : race.Keeps history encodedSize fun state restoring =>
      history.Follows restoring.target state.txid restoring.phase := by
    apply run.invariant (Race.start_keeps _)
    intro state action next before allowed stepped
    apply before.step _ _ _ allowed stepped
    · exact fun state after restoring onward follows =>
        follows.later onward.txid
    · intro state target _ key member
      simp [Listings.mem_files] at member
    · intro state restoring request phase ok _ _ follows answered
      exact follows.step oneSize ok answered
  have follows := keeps.reader restoring reader
  rw [done] at follows
  obtain ⟨⟨positive, synced, within⟩, image⟩ := follows
  exact ⟨positive, synced, within, image⟩

/-- When the levels answer in order, a restore finds everything that the
replica held as it began, whatever is compacted and deleted meanwhile. -/
theorem racing_restore_fresh
    (oneSize : ∀ left right, history.pageSize left = history.pageSize right)
    (run : Machine.Reaches (Race.step encodedSize) history.racesInOrder
      Race.start race)
    (reader : race.reader = some restoring)
    (everything : restoring.target = none) :
    (∀ result, restoring.phase = .done (.ok result) →
      restoring.began ≤ result.txid ∧
        result.image = history.image result.txid) ∧
    (1 ≤ restoring.began → restoring.phase ≠ .done (.error .noSnapshot)) := by
  have keeps : race.Keeps history encodedSize fun state restoring =>
      history.Follows restoring.target state.txid restoring.phase ∧
        restoring.Fresh state := by
    apply run.invariant (Race.start_keeps _)
    intro state action next before allowed stepped
    apply before.step _ _ _ allowed.1 stepped
    · intro state after restoring onward known
      exact ⟨known.1.later onward.txid, known.2.later onward⟩
    · intro state target _
      refine ⟨?_, Nat.le_refl _, ?_⟩
      · intro key member
        simp [Listings.mem_files] at member
      · constructor <;> (intro impossible; cases impossible)
    · rintro state restoring request phase ok rfl found known answered
      have inOrder := allowed.2
      simp only [Race.inOrder, found] at inOrder
      exact ⟨known.1.step oneSize ok answered,
        known.2.step ok known.1 (of_decide_eq_true inOrder) answered⟩
  obtain ⟨follows, _, fresh⟩ := keeps.reader restoring reader
  constructor
  · intro result done
    rw [done] at follows fresh
    exact ⟨fresh everything, follows.2⟩
  · intro nonempty done
    rw [done] at fresh
    exact fresh everything nonempty rfl

end Interleaved

/-! ## Sample interleavings -/

/-- The state after actions that may look at the state they start from. -/
def Race.play (encodedSize : LtxFile → Nat)
    (check : Race → RaceAction → Bool) :
    Race → List (Race → RaceAction) → Option Race
  | race, [] => some race
  | race, choose :: rest =>
      if check race (choose race) then
        (race.step encodedSize (choose race)).bind (play encodedSize check · rest)
      else none

theorem reaches_race {encodedSize : LtxFile → Nat} {race final : Race}
    {guard : Race → RaceAction → Prop} {check : Race → RaceAction → Bool}
    {choices : List (Race → RaceAction)}
    (allowed : ∀ choose ∈ choices, ∀ race, check race (choose race) = true →
      guard race (choose race))
    (played : race.play encodedSize check choices = some final) :
    Machine.Reaches (Race.step encodedSize) guard race final := by
  induction choices generalizing race with
  | nil =>
      cases played
      exact .refl
  | cons choose rest ih =>
      rw [Race.play] at played
      split at played
      · rename_i checked
        obtain ⟨next, stepped, later⟩ := Option.bind_eq_some_iff.mp played
        have first := allowed choose (by simp) race checked
        exact (Machine.Reaches.tail .refl first stepped).trans
          (ih (fun other member => allowed other (by simp [member])) later)
      · cases played

/-- What a finished restore returned. -/
def Race.result (race : Race) : Option (Restoring × RestoreResult) :=
  match race.reader with
  | some ⟨target, began, .done (.ok result)⟩ =>
      some (⟨target, began, .done (.ok result)⟩, result)
  | _ => none

theorem Race.result_eq_some {race : Race} {restoring : Restoring}
    {result : RestoreResult} (found : race.result = some (restoring, result)) :
    race.reader = some restoring ∧ restoring.phase = .done (.ok result) := by
  unfold Race.result at found
  split at found
  · rename_i reader
    cases found
    exact ⟨reader, rfl⟩
  · cases found

/-- A call whose next operations all succeed. -/
def whole (call : Race → LevelsCall) (operations : Nat) :
    List (Race → RaceAction) :=
  (fun race => .writes (.begins (call race))) ::
    (List.replicate operations (fun _ => .writes (.operates false)) ++
      [fun _ => .writes .returns])

def hotCall (race : Race) : LevelsCall := (hotSync race.writer.replica).call

def lists (levels : List Nat) : List (Race → RaceAction) :=
  levels.map fun level _ => .reads (.lists level)

theorem races_whole {operations : Nat} {call : Race → LevelsCall}
    (cascades : ∀ race, hotPage.cascades race.writer.replica
      { faults := [], call := call race }) :
    ∀ choose ∈ whole call operations, ∀ race,
      hotPage.races race (choose race) := by
  intro choose member race
  simp only [whole, List.mem_cons, List.mem_append, List.mem_replicate,
    List.not_mem_nil, or_false] at member
  rcases member with rfl | ⟨_, rfl⟩ | rfl
  · exact cascades race
  · exact trivial
  · exact trivial

theorem races_hotCall (operations : Nat) :
    ∀ choose ∈ whole hotCall operations, ∀ race,
      hotPage.races race (choose race) :=
  races_whole fun race => hotSync_synced race.writer.replica

theorem races_lists (levels : List Nat) :
    ∀ choose ∈ lists levels, ∀ race, hotPage.races race (choose race) := by
  intro choose member race
  obtain ⟨level, _, rfl⟩ := List.mem_map.mp member
  exact trivial

/-- Two steps are synchronised; a restore lists L0; both files are merged into
L1, and the first one is deleted, before the other levels answer. -/
def racedChoices : List (Race → RaceAction) :=
  whole hotCall 1 ++ whole hotCall 1 ++
    (fun _ => .restores none) :: lists [0] ++
    whole (fun _ => .compactLevel 0 1) 3 ++
    whole (fun _ => .enforceL0Retention 10 1) 1 ++
    lists [1, 2, 3, 4, 5, 6, 7, 8, 9] ++
    [fun _ => .reads .plans, fun _ => .reads .fetches,
      fun _ => .reads .fetches]

def raced : Option Race :=
  Race.start.play (fun _ => 0) Race.inOrder racedChoices

theorem raced_txid :
    (raced.bind Race.result).map (fun found =>
      (found.1.target, found.1.began, found.2.txid)) =
      some (none, 2, 2) := by decide +kernel

theorem raced_allowed :
    ∀ choose ∈ racedChoices, ∀ race, hotPage.races race (choose race) := by
  intro choose member race
  simp only [racedChoices, List.append_assoc, List.cons_append,
    List.mem_append, List.mem_cons, List.not_mem_nil, or_false] at member
  rcases member with sync | sync | rfl | listed | merged | deleted | listed |
    rfl | rfl | rfl
  · exact races_hotCall 1 choose sync race
  · exact races_hotCall 1 choose sync race
  · exact trivial
  · exact races_lists _ choose listed race
  · exact @races_whole 3 (fun _ => .compactLevel 0 1) (fun _ => trivial)
      choose merged race
  · exact @races_whole 1 (fun _ => .enforceL0Retention 10 1)
      (fun _ => trivial) choose deleted race
  · exact races_lists _ choose listed race
  · exact trivial
  · exact trivial
  · exact trivial

theorem exists_raced : ∃ race restoring result,
    raced = some race ∧ race.reader = some restoring ∧
    restoring.phase = .done (.ok result) ∧ restoring.target = none ∧
    restoring.began = 2 := by
  have found := raced_txid
  rw [Option.map_eq_some_iff] at found
  obtain ⟨⟨restoring, result⟩, found, same⟩ := found
  obtain ⟨race, played, finished⟩ := Option.bind_eq_some_iff.mp found
  obtain ⟨reader, done⟩ := Race.result_eq_some finished
  simp only [Prod.mk.injEq] at same
  exact ⟨race, restoring, result, played, reader, done, same.1, same.2.1⟩

theorem racing_restore_exact_raced : ∃ race restoring result,
    raced = some race ∧ race.reader = some restoring ∧
    restoring.phase = .done (.ok result) ∧ 1 ≤ result.txid ∧
    result.image = hotPage.image result.txid := by
  obtain ⟨race, restoring, result, played, reader, done, _, _⟩ := exists_raced
  have run : Machine.Reaches (Race.step fun _ => 0) hotPage.races Race.start
      race :=
    reaches_race (fun choose member race _ => raced_allowed choose member race)
      played
  obtain ⟨positive, _, _, image⟩ :=
    racing_restore_exact (fun _ _ => rfl) run reader done
  exact ⟨race, restoring, result, played, reader, done, positive, image⟩

theorem racing_restore_fresh_raced : ∃ race restoring result,
    raced = some race ∧ race.reader = some restoring ∧
    restoring.phase = .done (.ok result) ∧ 2 ≤ result.txid := by
  obtain ⟨race, restoring, result, played, reader, done, everything, began⟩ :=
    exists_raced
  have run : Machine.Reaches (Race.step fun _ => 0) hotPage.racesInOrder
      Race.start race :=
    reaches_race (fun choose member race checked =>
      ⟨raced_allowed choose member race, checked⟩) played
  have reached := ((racing_restore_fresh (fun _ _ => rfl) run reader
    everything).1 result done).1
  rw [began] at reached
  exact ⟨race, restoring, result, played, reader, done, reached⟩

/-- The same, but L1 answers before the merge and L0 after the deletion. -/
def missedChoices : List (Race → RaceAction) :=
  whole hotCall 1 ++ whole hotCall 1 ++
    (fun _ => .restores none) :: lists [1] ++
    whole (fun _ => .compactLevel 0 1) 3 ++
    whole (fun _ => .enforceL0Retention 10 1) 1 ++
    lists [0, 2, 3, 4, 5, 6, 7, 8, 9] ++ [fun _ => .reads .plans]

theorem missed_allowed :
    ∀ choose ∈ missedChoices, ∀ race, hotPage.races race (choose race) := by
  intro choose member race
  simp only [missedChoices, List.append_assoc, List.cons_append,
    List.mem_append, List.mem_cons, List.not_mem_nil, or_false] at member
  rcases member with sync | sync | rfl | listed | merged | deleted | listed |
    rfl
  · exact races_hotCall 1 choose sync race
  · exact races_hotCall 1 choose sync race
  · exact trivial
  · exact races_lists _ choose listed race
  · exact @races_whole 3 (fun _ => .compactLevel 0 1) (fun _ => trivial)
      choose merged race
  · exact @races_whole 1 (fun _ => .enforceL0Retention 10 1)
      (fun _ => trivial) choose deleted race
  · exact races_lists _ choose listed race
  · exact trivial

def Race.failure (race : Race) : Option (Nat × SyncError) :=
  match race.reader with
  | some ⟨_, began, .done (.error error)⟩ => some (began, error)
  | _ => none

/-- Without that order a restore can miss everything: it reports that there is
no snapshot in a replica that holds both steps all the time. -/
theorem racing_restore_misses : ∃ race,
    Machine.Reaches (Race.step fun _ => 0) hotPage.races Race.start race ∧
    race.failure = some (2, .noSnapshot) := by
  have found : (Race.start.play (fun _ => 0) (fun _ _ => true)
      missedChoices).bind Race.failure = some (2, .noSnapshot) := by
    decide +kernel
  obtain ⟨race, played, failed⟩ := Option.bind_eq_some_iff.mp found
  exact ⟨race, reaches_race (fun choose member race _ =>
    missed_allowed choose member race) played, failed⟩

end Literstream
