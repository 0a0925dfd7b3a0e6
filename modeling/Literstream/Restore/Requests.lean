import Literstream.Lib.Machine
import Literstream.Levels.Specs
import Literstream.Restore.Agreement
import Literstream.Restore.Greedy

/-!
# A restore request by request

A restore lists the levels one by one, in whatever order the answers come, and
then fetches the files of its plan one by one.
-/

namespace Literstream

open Std

/-- The answer to listing one level. -/
def listLevel (store : Store) (level : Nat) : List FileKey :=
  store.keys.filter fun key => key.level = level

/-- The answers so far, the latest first. -/
abbrev Listings := List (Nat × List FileKey)

/-- `levels.into_iter().flatten()`: the answers in level order. -/
def Listings.files (answers : Listings) : List FileKey :=
  (List.range (maxLevel + 1)).flatMap fun level =>
    (answers.lookup level).getD []

def Listings.answered (answers : Listings) (level : Nat) : Bool :=
  (answers.lookup level).isSome

def Listings.complete (answers : Listings) : Bool :=
  (List.range (maxLevel + 1)).all answers.answered

inductive RestorePhase where
  | listing (answers : Listings)
  | fetching (plan : List FileKey) (image : Bytes) (txid : Nat)
  | done (result : Except SyncError RestoreResult)

/-- A restore in flight.  Without a target it is `restore`, with one
`restore_to_txid`. -/
structure Restoring where
  target : Option Nat
  /-- The highest TXID of the replica when the restore began. -/
  began : Nat
  phase : RestorePhase

/-- The files to apply, and the TXID they lead to. -/
def planFor (files : List FileKey) :
    Option Nat → Except SyncError (List FileKey × Nat)
  | none => do
      let plan ← planRestore files
      return (plan, (plan.getLast?.map FileKey.maxTxid).getD 0)
  | some target =>
      match planRestoreTo files target with
      | .error .noSnapshot => .error (.txidTooOld target)
      | .error error => .error error
      | .ok plan =>
          match plan.getLast? with
          | none => .error (.txidTooOld target)
          | some last => .ok (plan, last.maxTxid)

inductive Request where
  /-- A level answers, the plan is made, a file arrives. -/
  | lists (level : Nat)
  | plans
  | fetches
  /-- A request fails. -/
  | breaks

/-- The phase after a request that the store answers. -/
def RestorePhase.step (store : Store) (target : Option Nat) :
    RestorePhase → Request → Option RestorePhase
  | .listing answers, .lists level =>
      if level ≤ maxLevel ∧ answers.answered level = false then
        some (.listing ((level, listLevel store level) :: answers))
      else none
  | .listing answers, .plans =>
      if answers.complete then
        match planFor answers.files target with
        | .error error => some (.done (.error error))
        | .ok (plan, txid) => some (.fetching plan [] txid)
      else none
  | .fetching [] image txid, .fetches =>
      some (.done (.ok { image := image, txid := txid }))
  | .fetching (key :: rest) image txid, .fetches =>
      match getLtx store key with
      | .error error => some (.done (.error error))
      | .ok file => some (.fetching rest (applyFile image file) txid)
  | .listing _, .breaks => some (.done (.error .storage))
  | .fetching _ _ _, .breaks => some (.done (.error .storage))
  | _, _ => none

/-- All that a request can do. -/
inductive RestorePhase.Steps (store : Store) (target : Option Nat) :
    RestorePhase → Request → RestorePhase → Prop where
  | listed {answers : Listings} {level : Nat} :
      level ≤ maxLevel →
      answers.answered level = false →
      Steps store target (.listing answers) (.lists level)
        (.listing ((level, listLevel store level) :: answers))
  | unplanned {answers : Listings} {error : SyncError} :
      answers.complete = true →
      planFor answers.files target = .error error →
      Steps store target (.listing answers) .plans (.done (.error error))
  | planned {answers : Listings} {plan : List FileKey} {txid : Nat} :
      answers.complete = true →
      planFor answers.files target = .ok (plan, txid) →
      Steps store target (.listing answers) .plans (.fetching plan [] txid)
  | finished {image : Bytes} {txid : Nat} :
      Steps store target (.fetching [] image txid) .fetches
        (.done (.ok { image := image, txid := txid }))
  | missing {key : FileKey} {rest : List FileKey} {image : Bytes} {txid : Nat}
      {error : SyncError} :
      getLtx store key = .error error →
      Steps store target (.fetching (key :: rest) image txid) .fetches
        (.done (.error error))
  | fetched {key : FileKey} {rest : List FileKey} {image : Bytes} {txid : Nat}
      {file : LtxFile} :
      getLtx store key = .ok file →
      Steps store target (.fetching (key :: rest) image txid) .fetches
        (.fetching rest (applyFile image file) txid)
  | broken {phase : RestorePhase} :
      Steps store target phase .breaks (.done (.error .storage))

theorem RestorePhase.steps {store : Store} {target : Option Nat}
    {phase next : RestorePhase} {request : Request}
    (stepped : phase.step store target request = some next) :
    Steps store target phase request next := by
  cases phase with
  | listing answers =>
      cases request with
      | lists level =>
          simp only [RestorePhase.step] at stepped
          split at stepped
          · rename_i asked
            cases stepped
            exact .listed asked.1 asked.2
          · cases stepped
      | plans =>
          simp only [RestorePhase.step] at stepped
          split at stepped
          · rename_i complete
            split at stepped
            · rename_i error found
              cases stepped
              exact .unplanned complete found
            · rename_i plan txid found
              cases stepped
              exact .planned complete found
          · cases stepped
      | fetches => cases stepped
      | breaks =>
          cases stepped
          exact .broken
  | fetching plan image txid =>
      cases request with
      | lists level => cases plan <;> cases stepped
      | plans => cases plan <;> cases stepped
      | fetches =>
          cases plan with
          | nil =>
              cases stepped
              exact .finished
          | cons key rest =>
              simp only [RestorePhase.step] at stepped
              split at stepped
              · rename_i error found
                cases stepped
                exact .missing found
              · rename_i file held
                cases stepped
                exact .fetched held
      | breaks =>
          cases plan with
          | nil =>
              cases stepped
              exact .broken
          | cons key rest =>
              cases stepped
              exact .broken
  | done result => cases request <;> cases stepped

/-! ## The listing -/

section Listing

variable {answers : Listings} {level : Nat}

@[simp] theorem mem_listLevel {store : Store} {key : FileKey} :
    key ∈ listLevel store level ↔ key ∈ store ∧ key.level = level := by
  simp [listLevel]

theorem Listings.mem_files {key : FileKey} :
    key ∈ answers.files ↔ ∃ level ≤ maxLevel, ∃ keys,
      answers.lookup level = some keys ∧ key ∈ keys := by
  simp only [Listings.files, List.mem_flatMap, List.mem_range]
  constructor
  · rintro ⟨level, inside, member⟩
    cases found : answers.lookup level with
    | none => simp [found] at member
    | some keys =>
        rw [found] at member
        exact ⟨level, Nat.le_of_lt_succ inside, keys, found, member⟩
  · rintro ⟨level, inside, keys, found, member⟩
    refine ⟨level, Nat.lt_succ_of_le inside, ?_⟩
    rw [found]
    exact member

theorem Listings.lookup_cons (other : Nat) (keys : List FileKey) :
    List.lookup other ((level, keys) :: answers) =
      if other = level then some keys else answers.lookup other := by
  by_cases same : other = level
  · subst same
    rw [if_pos rfl, List.lookup_cons_self]
  · rw [if_neg same, List.lookup_cons, beq_false_of_ne same]

@[simp] theorem Listings.answered_cons (other : Nat) (keys : List FileKey) :
    Listings.answered ((level, keys) :: answers) other =
      (other = level || answers.answered other) := by
  rw [Listings.answered, Listings.lookup_cons]
  by_cases same : other = level
  · simp [same]
  · simp [same, Listings.answered]

theorem Listings.mem_files_cons {keys : List FileKey} {key : FileKey}
    (inside : level ≤ maxLevel) (fresh : answers.answered level = false) :
    key ∈ Listings.files ((level, keys) :: answers) ↔
      key ∈ keys ∨ key ∈ answers.files := by
  have unanswered : answers.lookup level = none := by
    simpa [Listings.answered] using fresh
  simp only [Listings.mem_files, Listings.lookup_cons]
  constructor
  · rintro ⟨other, bound, found, same, member⟩
    split at same
    · cases same
      exact .inl member
    · exact .inr ⟨other, bound, found, same, member⟩
  · rintro (member | ⟨other, bound, found, same, member⟩)
    · exact ⟨level, inside, keys, by rw [if_pos rfl], member⟩
    · refine ⟨other, bound, found, ?_, member⟩
      rw [if_neg]
      · exact same
      · rintro rfl
        rw [unanswered] at same
        cases same

end Listing

/-! ## What is restored -/

/-- A TXID that a restore may report. -/
structure Attainable (target : Option Nat) (head txid : Nat) : Prop where
  positive : 1 ≤ txid
  synced : txid ≤ head
  within : ∀ limit, target = some limit → txid ≤ limit

/-- Listed files hold synced TXIDs only. -/
def Synced (head : Nat) (files : List FileKey) : Prop :=
  ∀ key ∈ files, 1 ≤ key.minTxid ∧ key.maxTxid ≤ head

/-- A plan leads from the empty database to a TXID that may be reported. -/
theorem planFor_eq_ok {files plan : List FileKey} {target : Option Nat}
    {head txid : Nat} (synced : Synced head files)
    (planned : planFor files target = .ok (plan, txid)) :
    FileChain 0 plan txid ∧ Attainable target head txid := by
  have attained {listed : List FileKey} {last : FileKey}
      (subset : ∀ key ∈ listed, key ∈ files)
      (covers : planRestore listed = .ok plan)
      (isLast : plan.getLast? = some last) :
      FileChain 0 plan last.maxTxid ∧ 1 ≤ last.maxTxid ∧
        last.maxTxid ≤ head ∧ last ∈ listed := by
    have chain := History.planRestore_chain covers isLast
    obtain ⟨cover, _⟩ := planRestore_eq_ok covers
    have member := List.mem_of_getLast? isLast
    rw [cover] at member
    have member := greedyCover_subset listed 0 last member
    refine ⟨chain, ?_, (synced last (subset last member)).2, member⟩
    cases plan with
    | nil => cases isLast
    | cons first rest =>
        have ahead := chain.head_extends.2
        have below := chain.hi_le first (by simp)
        omega
  cases target with
  | none =>
      simp only [planFor, bind_eq_ok] at planned
      obtain ⟨found, covers, same⟩ := planned
      cases same
      obtain ⟨last, isLast, _⟩ := planRestore_getLast? covers
      obtain ⟨chain, positive, below, _⟩ :=
        attained (fun _ member => member) covers isLast
      rw [isLast]
      exact ⟨chain, positive, below, fun _ impossible => by cases impossible⟩
  | some target =>
      simp only [planFor] at planned
      split at planned
      · cases planned
      · cases planned
      · rename_i found covers
        split at planned
        · cases planned
        · rename_i last isLast
          cases planned
          obtain ⟨chain, positive, below, member⟩ := attained
            (fun key inside => List.mem_of_mem_filter inside) covers isLast
          refine ⟨chain, positive, below, ?_⟩
          rintro _ ⟨⟩
          exact of_decide_eq_true (List.mem_filter.mp member).2

namespace History

variable (history : History)

/-- What is known of a restore while the replica may move on: the image is the
one at the TXID reached so far, and the rest of the plan leads on from it. -/
def Follows (target : Option Nat) (head : Nat) : RestorePhase → Prop
  | .listing answers => Synced head answers.files
  | .fetching plan image txid =>
      Attainable target head txid ∧
        ∃ reached, image = history.image reached ∧ FileChain reached plan txid
  | .done (.ok result) =>
      Attainable target head result.txid ∧
        result.image = history.image result.txid
  | .done (.error _) => True

variable {history} {target : Option Nat} {head : Nat}

theorem Follows.later {phase : RestorePhase} {later : Nat}
    (follows : history.Follows target head phase) (grown : head ≤ later) :
    history.Follows target later phase := by
  have attainable {txid : Nat} (before : Attainable target head txid) :
      Attainable target later txid :=
    { before with synced := Nat.le_trans before.synced grown }
  cases phase with
  | listing answers =>
      intro key member
      obtain ⟨positive, below⟩ := follows key member
      exact ⟨positive, Nat.le_trans below grown⟩
  | fetching plan image txid => exact ⟨attainable follows.1, follows.2⟩
  | done result =>
      cases result with
      | ok result => exact ⟨attainable follows.1, follows.2⟩
      | error error => trivial

/-- One answer from a replica in order. -/
theorem Follows.step {state : Levels} {phase next : RestorePhase}
    {request : Request}
    (oneSize : ∀ left right, history.pageSize left = history.pageSize right)
    (ok : ReplicaOk history state)
    (follows : history.Follows target state.txid phase)
    (stepped : phase.step state.store target request = some next) :
    history.Follows target state.txid next := by
  obtain ⟨anchor, ok⟩ := ok
  cases RestorePhase.steps stepped with
  | listed inside unanswered =>
      intro key member
      rcases (Listings.mem_files_cons inside unanswered).mp member with
        listed | earlier
      · obtain ⟨_, _, fileOk⟩ := ok.key_ok (mem_listLevel.mp listed).1
        exact ⟨fileOk.positive, fileOk.synced⟩
      · exact follows key earlier
  | unplanned _ _ => trivial
  | planned _ found =>
      obtain ⟨chain, attainable⟩ := planFor_eq_ok follows found
      exact ⟨attainable, 0, history.image_zero.symm, chain⟩
  | finished =>
      obtain ⟨attainable, reached, same, chain⟩ := follows
      have still := chain.eq_of_nil
      rw [still] at same
      exact ⟨attainable, same⟩
  | missing _ => trivial
  | @fetched key rest image txid file held =>
      obtain ⟨attainable, reached, same, chain⟩ := follows
      have fileOk := ok.files key file (getLtx_eq_ok.mp held)
      cases chain with
      | cons extends_ tail =>
          refine ⟨attainable, key.maxTxid, ?_, tail⟩
          rw [same]
          exact fileOk.faithful.applyFile extends_.1
            (Nat.le_of_lt extends_.2) (.inl (oneSize _ _))
  | broken => trivial

end History

/-! ## Undisturbed -/

section Undisturbed

variable {store : Store}

/-- A file of a lower level is listed first. -/
theorem cmp_of_level_lt {left right : FileKey} (lower : left.level < right.level) :
    FileKey.cmp left right = .lt := by
  have first : compare left.level right.level = .lt := compare_lt_iff_lt.mpr lower
  rw [FileKey.cmp, compareLex, compareOn, first]
  rfl

/-- Two ascending listings of the same files are the same. -/
theorem listing_ext {left right : List FileKey}
    (leftOrdered : left.Pairwise fun first second =>
      FileKey.cmp first second = .lt)
    (rightOrdered : right.Pairwise fun first second =>
      FileKey.cmp first second = .lt)
    (same : ∀ key, key ∈ left ↔ key ∈ right) : left = right := by
  have irreflexive : Std.Irrefl fun first second : FileKey =>
      FileKey.cmp first second = .lt := by
    constructor
    intro key impossible
    have equal : FileKey.cmp key key = .eq := ReflCmp.compare_self
    rw [equal] at impossible
    cases impossible
  have antisymmetric : Std.Antisymm fun first second : FileKey =>
      FileKey.cmp first second = .lt := by
    constructor
    intro first second less greater
    have swapped : FileKey.cmp first second =
        (FileKey.cmp second first).swap := OrientedCmp.eq_swap
    rw [less, greater] at swapped
    cases swapped
  exact List.Pairwise.eq_of_mem_iff leftOrdered rightOrdered same

theorem ordered_filter (store : Store) (keep : FileKey → Bool) :
    (store.keys.filter keep).Pairwise fun first second =>
      FileKey.cmp first second = .lt := by
  have ordered := @ExtTreeMap.ordered_keys _ _ FileKey.cmp store _
  exact ordered.filter keep

/-- One answer for every level, all from one store, are the whole listing. -/
theorem Listings.files_eq {answers : Listings}
    (same : ∀ level ≤ maxLevel,
      answers.lookup level = some (listLevel store level)) :
    answers.files = listAllLtx store := by
  have answer {level : Nat} (member : level ∈ List.range (maxLevel + 1)) :
      (answers.lookup level).getD [] = listLevel store level := by
    rw [same level (Nat.le_of_lt_succ (List.mem_range.mp member))]
    rfl
  apply listing_ext
  · rw [Listings.files, List.pairwise_flatMap]
    constructor
    · intro level member
      rw [answer member]
      exact ordered_filter store _
    · apply List.Pairwise.imp_of_mem _ List.pairwise_lt_range
      intro level above levelMember aboveMember lower left leftMember right
        rightMember
      rw [answer levelMember, mem_listLevel] at leftMember
      rw [answer aboveMember, mem_listLevel] at rightMember
      apply cmp_of_level_lt
      omega
  · exact ordered_filter store _
  · intro key
    rw [Listings.mem_files, mem_listAllLtx, ← OrderedMap.mem_iff_exists]
    constructor
    · rintro ⟨level, inside, keys, found, member⟩
      rw [same level inside] at found
      cases found
      obtain ⟨held, here⟩ := mem_listLevel.mp member
      exact ⟨held, by omega⟩
    · rintro ⟨held, inside⟩
      exact ⟨key.level, inside, _, same key.level inside,
        mem_listLevel.mpr ⟨held, rfl⟩⟩

/-- What an undisturbed restore will return. -/
def finishing (store : Store) (plan : List FileKey) (image : Bytes)
    (txid : Nat) : Except SyncError RestoreResult := do
  let image ← applyPlan store plan image
  return { image := image, txid := txid }

/-- A restore of everything also reports the TXID that its plan leads to. -/
def restored (store : Store) (target : Option Nat) :
    Except SyncError RestoreResult := do
  let planned ← planFor (listAllLtx store) target
  finishing store planned.1 [] planned.2

theorem restored_to (target : Nat) :
    restored store (some target) = restoreToTxid store target := by
  unfold restored restoreToTxid planFor
  dsimp only
  cases planRestoreTo (listAllLtx store) target with
  | error error => cases error <;> rfl
  | ok plan =>
      dsimp only
      cases plan.getLast? <;> rfl

theorem restored_all :
    (restored store none).map RestoreResult.image = restore store := by
  unfold restored restore planFor
  cases planRestore (listAllLtx store) with
  | error error => rfl
  | ok plan =>
      change Except.map _ (finishing store plan [] _) = applyPlan store plan []
      unfold finishing
      cases applyPlan store plan [] <;> rfl

/-- Answers from one store. -/
def RestorePhase.Steady (store : Store) (target : Option Nat) :
    RestorePhase → Prop
  | .listing answers => ∀ level keys, answers.lookup level = some keys →
      keys = listLevel store level
  | .fetching plan image txid =>
      finishing store plan image txid = restored store target
  | .done result => result = restored store target

theorem RestorePhase.Steady.files_eq {target : Option Nat}
    {answers : Listings}
    (steady : RestorePhase.Steady store target (.listing answers))
    (complete : answers.complete = true) :
    answers.files = listAllLtx store := by
  apply Listings.files_eq
  intro level inside
  rw [Listings.complete, List.all_eq_true] at complete
  have asked := complete level
    (List.mem_range.mpr (Nat.lt_succ_of_le inside))
  obtain ⟨keys, found⟩ := Option.isSome_iff_exists.mp asked
  rw [found, steady level keys found]

theorem RestorePhase.Steady.step {target : Option Nat}
    {phase next : RestorePhase} {request : Request}
    (steady : phase.Steady store target) (answered : request ≠ .breaks)
    (stepped : phase.step store target request = some next) :
    next.Steady store target := by
  cases RestorePhase.steps stepped with
  | @listed answers level _ _ =>
      intro other keys found
      rw [Listings.lookup_cons] at found
      split at found
      · rename_i same
        cases found
        rw [same]
      · exact steady other keys found
  | @unplanned answers error complete found =>
      change _ = restored store target
      rw [restored, ← steady.files_eq complete, found]
      rfl
  | @planned answers plan txid complete found =>
      change _ = restored store target
      rw [restored, ← steady.files_eq complete, found]
      rfl
  | finished => exact steady
  | @missing key rest image txid error missing =>
      change _ = restored store target at steady
      rw [finishing, applyPlan, missing] at steady
      exact steady
  | @fetched key rest image txid file held =>
      change _ = restored store target at steady
      rw [finishing, applyPlan, held] at steady
      exact steady
  | broken => exact absurd rfl answered

/-- A restore whose requests are all answered from one store returns what
`restore_to_txid` computes from it, whichever order the levels answer in. -/
theorem undisturbed_restore {target : Option Nat}
    {result : Except SyncError RestoreResult}
    (run : Machine.Reaches
      (fun phase request => RestorePhase.step store target phase request)
      (fun _ request => request ≠ .breaks) (.listing []) (.done result)) :
    result = restored store target := by
  have steady : RestorePhase.Steady store target (.done result) := by
    apply run.invariant
    · rintro _ _ ⟨⟩
    · exact fun _ _ _ steady answered stepped => steady.step answered stepped
  exact steady

end Undisturbed

end Literstream
