import Literstream.Levels.WriteOnce
import Literstream.Restore.Racing

/-!
# What any reader sees of a live replica

A reader lists the levels and then fetches files that were listed.  Objects are
written once, so all that it is ever told agrees with one frozen replica, from
which files may be missing by the time it asks for them.
-/

namespace Literstream

open Std

/-- What a reader was told. -/
structure Observations where
  answers : Listings
  /-- The files asked for, with what the store held there. -/
  responses : List (FileKey × Option LtxFile)

/-- A writer and a reader beside it. -/
structure Watch where
  writer : Writer
  told : Observations

inductive WatchAction where
  | writes (progress : CallProgress)
  | lists (level : Nat)
  | gets (key : FileKey)

def Watch.step (encodedSize : LtxFile → Nat) (watch : Watch) :
    WatchAction → Option Watch
  | .writes progress => do
      let writer ← watch.writer.step encodedSize progress
      return { watch with writer := writer }
  | .lists level =>
      if level ≤ maxLevel ∧ watch.told.answers.answered level = false then
        some
          { watch with
            told.answers :=
              (level, listLevel (watch.writer.visible encodedSize).store level)
                :: watch.told.answers }
      else none
  | .gets key =>
      if key ∈ watch.told.answers.files then
        some
          { watch with
            told.responses :=
              (key, (watch.writer.visible encodedSize).store[key]?) ::
                watch.told.responses }
      else none

/-- A reader that comes to a replica in any state. -/
def Watch.begins (writer : Writer) : Watch where
  writer := writer
  told := { answers := [], responses := [] }

def Watch.start : Watch := .begins { replica := Levels.empty, running := none }

/-- The writer cascades. -/
def History.watches (history : History) (watch : Watch) : WatchAction → Prop
  | .writes (.begins call) =>
      history.cascades watch.writer.replica { faults := [], call := call }
  | _ => True

/-! ## One call uploads one object -/

section Uploads

/-- Files that were fetched from one store under the same addresses. -/
theorem Loaded.unique {store : Store} {left right : List KeyedFile}
    (leftLoaded : Loaded store left) (rightLoaded : Loaded store right)
    (same : left.map Prod.fst = right.map Prod.fst) : left = right := by
  induction left generalizing right with
  | nil =>
      cases right with
      | nil => rfl
      | cons file rest => cases same
  | cons file rest ih =>
      cases right with
      | nil => cases same
      | cons other others =>
          obtain ⟨key, content⟩ := file
          obtain ⟨otherKey, otherContent⟩ := other
          simp only [List.map_cons, List.cons.injEq] at same
          obtain ⟨rfl, tails⟩ := same
          have held := leftLoaded (key, content) (by simp)
          have otherHeld := rightLoaded (key, otherContent) (by simp)
          rw [held] at otherHeld
          cases otherHeld
          rw [ih (fun file member => leftLoaded file (by simp [member]))
            (fun file member => rightLoaded file (by simp [member])) tails]

theorem CompactsInto.unique {start : Levels} {dstLevel : Nat}
    {first last otherFirst otherLast : LtxFileInfo} {merged other : LtxFile}
    (left : CompactsInto start dstLevel first last merged)
    (right : CompactsInto start dstLevel otherFirst otherLast other) :
    merged = other := by
  obtain ⟨files, keys, loaded, done⟩ := left.inputs
  obtain ⟨otherFiles, otherKeys, otherLoaded, otherDone⟩ := right.inputs
  have same := loaded.unique otherLoaded (keys.trans otherKeys.symm)
  subst same
  rw [done] at otherDone
  cases otherDone
  rfl

theorem Snapshots.unique {start : Levels} {clock : Int} {merged other : LtxFile}
    (left : Snapshots start clock merged)
    (right : Snapshots start clock other) : merged = other := by
  obtain ⟨files, newest, planned, loaded, isLast, done⟩ := left.inputs
  obtain ⟨otherFiles, otherNewest, otherPlanned, otherLoaded, otherLast,
    otherDone⟩ := right.inputs
  rw [planned] at otherPlanned
  have same := loaded.unique otherLoaded (Except.ok.inj otherPlanned)
  subst same
  rw [isLast] at otherLast
  cases otherLast
  rw [done] at otherDone
  cases otherDone
  rfl

/-- Whatever fails, a call puts the same content under a new address. -/
theorem LevelsEffect.unique {start left right : Levels} {call : LevelsCall}
    {key : FileKey} {file other : LtxFile}
    (leftReached : LevelsEffect start call left)
    (rightReached : LevelsEffect start call right)
    (fresh : start.store[key]? = none)
    (leftHeld : left.store[key]? = some file)
    (rightHeld : right.store[key]? = some other) : file = other := by
  have put {store : Store} {address : FileKey} {content found : LtxFile}
      (inserted : store = start.store.insert address content)
      (held : store[key]? = some found) : found = content := by
    rw [inserted, OrderedMap.getElem?_insert] at held
    split at held
    · exact (Option.some.inj held).symm
    · rw [fresh] at held
      cases held
  have shrunk {state : Levels} {found : LtxFile} {claim : Prop}
      (shrunk : Shrunk start state) (held : state.store[key]? = some found) :
      claim := by
    have before := shrunk.store key found held
    rw [fresh] at before
    cases before
  cases leftReached with
  | synced leftNext =>
      cases rightReached with
      | synced rightNext =>
          rw [put leftNext.store leftHeld, put rightNext.store rightHeld]
      | shrunk rightShrunk => exact shrunk rightShrunk rightHeld
  | compacted leftCompacts leftPut =>
      cases rightReached with
      | compacted rightCompacts rightPut =>
          rw [put leftPut.store leftHeld, put rightPut.store rightHeld]
          exact leftCompacts.unique rightCompacts
      | shrunk rightShrunk => exact shrunk rightShrunk rightHeld
  | snapshotted leftSnapshots leftPut =>
      cases rightReached with
      | snapshotted rightSnapshots rightPut =>
          rw [put leftPut.store leftHeld, put rightPut.store rightHeld]
          exact leftSnapshots.unique rightSnapshots
      | shrunk rightShrunk => exact shrunk rightShrunk rightHeld
  | shrunk leftShrunk => exact shrunk leftShrunk leftHeld

end Uploads

/-! ## An object that was seen -/

section Seen

variable {history : History} {encodedSize : LtxFile → Nat}
  {front : Nat → Nat} {key : FileKey} {file : LtxFile}

/-- The object was there when the running call began, or is behind a frontier
and gone; otherwise the running call has just uploaded it. -/
def Writer.Saw (encodedSize : LtxFile → Nat) (front : Nat → Nat)
    (writer : Writer) (key : FileKey) (file : LtxFile) : Prop :=
  (key.maxTxid ≤ front key.level ∧
    (writer.replica.store[key]? = some file ∨
      writer.replica.store[key]? = none)) ∨
  (writer.visible encodedSize).store[key]? = some file

/-- What the replica looks like while a call runs. -/
theorem Writer.InOrder.moves {writer : Writer}
    (inOrder : writer.InOrder history)
    (fronted : Fronted writer.replica front) :
    ∃ later, MovesOn writer.replica front (writer.visible encodedSize) later := by
  unfold Writer.visible
  split
  · exact ⟨front, (Pruned.refl fronted).movesOn⟩
  · rename_i call outcomes running
    have allowed := inOrder.allowed call outcomes running
    exact @Fronted.step history writer.replica front encodedSize _
      { faults := outcomes ++ [true], call := call } fronted inOrder.ok
      (by cases call <;> exact allowed) rfl

/-- The object is still there, or it is gone. -/
theorem Writer.Saw.visible {writer : Writer} (inOrder : writer.InOrder history)
    (fronted : Fronted writer.replica front)
    (saw : writer.Saw encodedSize front key file) :
    (writer.visible encodedSize).store[key]? = some file ∨
      (writer.visible encodedSize).store[key]? = none := by
  rcases saw with ⟨behind, before⟩ | held
  · obtain ⟨later, moves⟩ :=
      @Writer.InOrder.moves history encodedSize front writer inOrder fronted
    rcases moves.kept key behind with same | gone
    · rw [same]
      exact before
    · exact .inr gone
  · exact .inl held

theorem LevelsCall.visible_effect {state : Levels} {call : LevelsCall}
    (allowed : history.cascades state { faults := [], call := call })
    (outcomes : List Bool) :
    LevelsEffect state call (call.visible encodedSize state outcomes) :=
  @levels_step_effect history encodedSize state _
    { faults := outcomes ++ [true], call := call }
    (by cases call <;> exact allowed) rfl

/-- What a running call has uploaded stays there while it runs. -/
theorem LevelsCall.visible_kept {state : Levels} {call : LevelsCall}
    (allowed : history.cascades state { faults := [], call := call })
    (outcomes : List Bool) (outcome : Bool)
    (fresh : state.store[key]? = none)
    (held : (call.visible encodedSize state outcomes).store[key]? = some file) :
    (call.visible encodedSize state (outcomes ++ [outcome])).store[key]? =
      some file := by
  have reached := @LevelsCall.visible_effect history encodedSize state call
    allowed outcomes
  have further := @LevelsCall.visible_effect history encodedSize state call
    allowed (outcomes ++ [outcome])
  have stays (uploads : call.uploads) :
      (call.visible encodedSize state (outcomes ++ [outcome])).store[key]? =
        some file := by
    have gathers := (@visible_gathers encodedSize state call uploads outcomes
      outcome).2
    obtain ⟨other, otherHeld⟩ := (OrderedMap.mem_iff_exists _ _).mp
      (gathers.kept key ((OrderedMap.mem_iff_exists _ _).mpr ⟨file, held⟩))
    rw [otherHeld, reached.unique further fresh held otherHeld]
  have absent (shrunk : Shrunk state (call.visible encodedSize state outcomes)) :
      (call.visible encodedSize state (outcomes ++ [outcome])).store[key]? =
        some file := by
    have before := shrunk.store key file held
    rw [fresh] at before
    cases before
  cases reached with
  | synced _ => exact stays trivial
  | compacted _ _ => exact stays trivial
  | snapshotted _ _ => exact stays trivial
  | shrunk shrunk => exact absent shrunk

/-- The writer's steps keep what a reader saw, and move the frontiers on. -/
theorem Writer.InOrder.saw {writer next : Writer} {progress : CallProgress}
    (inOrder : writer.InOrder history)
    (fronted : Fronted writer.replica front)
    (stepped : writer.step encodedSize progress = some next) :
    ∃ later, Fronted next.replica later ∧ ∀ key file,
      writer.Saw encodedSize front key file →
      next.Saw encodedSize later key file := by
  obtain ⟨later, moves⟩ :=
    @Writer.InOrder.moves history encodedSize front writer inOrder fronted
  have settled {key : FileKey} {file : LtxFile}
      (held : writer.replica.store[key]? = some file) :
      key.maxTxid ≤ front key.level ∧
        (writer.replica.store[key]? = some file ∨
          writer.replica.store[key]? = none) :=
    ⟨fronted.bound key ((OrderedMap.mem_iff_exists _ _).mpr ⟨file, held⟩),
      .inl held⟩
  cases progress with
  | begins call =>
      simp only [Writer.step] at stepped
      split at stepped
      · cases stepped
      · rename_i quiet
        cases stepped
        refine ⟨front, fronted, ?_⟩
        rintro key file (behind | held)
        · exact .inl behind
        · simp only [Writer.visible, quiet] at held
          exact .inl (settled held)
  | operates failed =>
      simp only [Writer.step] at stepped
      split at stepped
      · cases stepped
      · rename_i call outcomes running
        split at stepped
        · cases stepped
          refine ⟨front, fronted, ?_⟩
          rintro key file (behind | held)
          · exact .inl behind
          · cases before : writer.replica.store[key]? with
            | some other =>
                obtain ⟨behind, _⟩ := settled before
                rcases moves.kept key behind with same | gone
                · rw [same] at held
                  exact .inl (settled held)
                · rw [gone] at held
                  cases held
            | none =>
                right
                simp only [Writer.visible, running] at held
                exact LevelsCall.visible_kept
                  (inOrder.allowed call outcomes running) outcomes failed before
                  held
        · cases stepped
  | returns =>
      simp only [Writer.step] at stepped
      split at stepped
      · cases stepped
      · rename_i call outcomes running
        split at stepped
        · cases stepped
        · cases stepped
          simp only [Writer.visible, running] at moves
          refine ⟨later, moves.fronted, ?_⟩
          rintro key file (⟨behind, before⟩ | held)
          · refine .inl ⟨Nat.le_trans behind (moves.grown _), ?_⟩
            rcases moves.kept key behind with same | gone
            · dsimp only
              rw [same]
              exact before
            · exact .inr gone
          · simp only [Writer.visible, running] at held
            exact .inl ⟨moves.fronted.bound key
              ((OrderedMap.mem_iff_exists _ _).mpr ⟨file, held⟩), .inl held⟩

end Seen

/-! ## The frozen replica -/

/-- Add what the replica holds at a level. -/
def freezing (frozen visible : Store) (level : Nat) : Store :=
  frozen ∪ visible.filter fun key _ => key.level = level

theorem getElem?_freezing (frozen visible : Store) (level : Nat)
    (key : FileKey) :
    (freezing frozen visible level)[key]? =
      if key.level = level then (visible[key]?).or frozen[key]?
      else frozen[key]? := by
  rw [freezing, ExtTreeMap.getElem?_union, ExtTreeMap.getElem?_filter']
  by_cases here : key.level = level
  · rw [if_pos here]
    cases visible[key]? <;> simp [here]
  · rw [if_neg here]
    cases visible[key]? <;> simp [here]

theorem listLevel_congr {left right : Store} {level : Nat}
    (same : ∀ key : FileKey, key.level = level → left[key]? = right[key]?) :
    listLevel left level = listLevel right level := by
  apply listing_ext (ordered_filter left _) (ordered_filter right _)
  intro key
  change key ∈ listLevel left level ↔ key ∈ listLevel right level
  rw [mem_listLevel, mem_listLevel, OrderedMap.mem_iff_exists,
    OrderedMap.mem_iff_exists]
  constructor
  · rintro ⟨held, here⟩
    rw [same key here] at held
    exact ⟨held, here⟩
  · rintro ⟨held, here⟩
    rw [← same key here] at held
    exact ⟨held, here⟩

/-- All that the reader was told agrees with a frozen replica, every object of
which was seen. -/
structure ToldBy (history : History) (encodedSize : LtxFile → Nat)
    (watch : Watch) (front : Nat → Nat) (frozen : Store) : Prop where
  faithful : history.FaithfulStore frozen
  listed : ∀ level keys, watch.told.answers.lookup level = some keys →
    keys = listLevel frozen level
  levels : ∀ (key : FileKey) file, frozen[key]? = some file →
    key.level ≤ maxLevel ∧ watch.told.answers.answered key.level = true
  synced : ∀ (key : FileKey) file, frozen[key]? = some file →
    1 ≤ key.minTxid ∧
      key.maxTxid ≤ (watch.writer.visible encodedSize).txid
  saw : ∀ (key : FileKey) file, frozen[key]? = some file →
    watch.writer.Saw encodedSize front key file
  told : ∀ (key : FileKey) response, (key, response) ∈ watch.told.responses →
    response = none ∨ response = frozen[key]?

/-- The writer's side, and a frozen replica for the reader's. -/
structure Watch.Sound (history : History) (encodedSize : LtxFile → Nat)
    (watch : Watch) : Prop where
  inOrder : watch.writer.InOrder history
  agrees : ∃ front frozen, Fronted watch.writer.replica front ∧
    ToldBy history encodedSize watch front frozen

section Frozen

variable {history : History} {encodedSize : LtxFile → Nat}

/-- A reader that has been told nothing. -/
theorem Watch.begins_sound {writer : Writer} {front : Nat → Nat}
    (inOrder : writer.InOrder history)
    (fronted : Fronted writer.replica front) :
    (Watch.begins writer).Sound history encodedSize where
  inOrder := inOrder
  agrees := by
    refine ⟨front, ∅, fronted, History.faithfulStore_empty, ?_, ?_, ?_, ?_, ?_⟩
    · rintro level keys ⟨⟩
    · intro key file held
      simp at held
    · intro key file held
      simp at held
    · intro key file held
      simp at held
    · rintro key response ⟨⟩

theorem Watch.start_sound : Watch.start.Sound history encodedSize := by
  apply Watch.begins_sound _ fronted_empty
  exact
    { ok := ⟨0, levelsOk_empty history⟩
      allowed := by rintro _ _ ⟨⟩ }

theorem Watch.Sound.forgets {watch : Watch}
    (sound : watch.Sound history encodedSize) :
    (Watch.begins watch.writer).Sound history encodedSize := by
  obtain ⟨_, _, fronted, _⟩ := sound.agrees
  exact Watch.begins_sound sound.inOrder fronted

/-- A listing freezes what it shows. -/
theorem ToldBy.lists {watch : Watch} {front : Nat → Nat} {frozen : Store}
    {level : Nat} (inOrder : watch.writer.InOrder history)
    (agrees : ToldBy history encodedSize watch front frozen)
    (inside : level ≤ maxLevel)
    (unanswered : watch.told.answers.answered level = false) :
    ToldBy history encodedSize
      { watch with
        told.answers :=
          (level, listLevel (watch.writer.visible encodedSize).store level)
            :: watch.told.answers }
      front
      (freezing frozen (watch.writer.visible encodedSize).store level) := by
  obtain ⟨anchor, visibleOk⟩ :=
    @Writer.InOrder.visible history encodedSize watch.writer inOrder
  have apart {key : FileKey} (here : key.level = level) :
      frozen[key]? = none := by
    cases held : frozen[key]? with
    | none => rfl
    | some file =>
        have asked := (agrees.levels key file held).2
        rw [here, unanswered] at asked
        cases asked
  have taken {key : FileKey} {file : LtxFile}
      (held : (freezing frozen (watch.writer.visible encodedSize).store
        level)[key]? = some file) :
      (key.level = level ∧
        (watch.writer.visible encodedSize).store[key]? = some file) ∨
      (key.level ≠ level ∧ frozen[key]? = some file) := by
    rw [getElem?_freezing] at held
    split at held
    · rename_i here
      rw [apart here, Option.or_none] at held
      exact .inl ⟨here, held⟩
    · rename_i elsewhere
      exact .inr ⟨elsewhere, held⟩
  constructor
  · intro key file held
    rcases taken held with ⟨_, shown⟩ | ⟨_, before⟩
    · exact (visibleOk.files key file shown).faithful
    · exact agrees.faithful key file before
  · intro other keys found
    rw [Listings.lookup_cons] at found
    split at found
    · rename_i same
      cases found
      subst same
      apply listLevel_congr
      intro key here
      rw [getElem?_freezing, if_pos here, apart here, Option.or_none]
    · rename_i different
      rw [agrees.listed other keys found]
      apply listLevel_congr
      intro key here
      rw [getElem?_freezing, if_neg (by omega)]
  · intro key file held
    rcases taken held with ⟨here, _⟩ | ⟨_, before⟩
    · rw [here]
      exact ⟨inside, by simp⟩
    · obtain ⟨below, asked⟩ := agrees.levels key file before
      exact ⟨below, by simp [asked]⟩
  · intro key file held
    rcases taken held with ⟨_, shown⟩ | ⟨_, before⟩
    · have fileOk := visibleOk.files key file shown
      exact ⟨fileOk.positive, fileOk.synced⟩
    · exact agrees.synced key file before
  · intro key file held
    rcases taken held with ⟨_, shown⟩ | ⟨_, before⟩
    · exact .inr shown
    · exact agrees.saw key file before
  · intro key response answered
    rcases agrees.told key response answered with missing | same
    · exact .inl missing
    · cases held : frozen[key]? with
      | none =>
          left
          rw [same, held]
      | some file =>
          right
          have elsewhere : key.level ≠ level := by
            intro here
            rw [apart here] at held
            cases held
          rw [same, getElem?_freezing, if_neg elsewhere]

theorem Watch.Sound.step {watch next : Watch} {action : WatchAction}
    (sound : watch.Sound history encodedSize)
    (allowed : history.watches watch action)
    (stepped : watch.step encodedSize action = some next) :
    next.Sound history encodedSize := by
  obtain ⟨inOrder, front, frozen, fronted, agrees⟩ := sound
  cases action with
  | writes progress =>
      simp only [Watch.step, Option.bind_eq_bind, Option.pure_def,
        Option.bind_eq_some_iff] at stepped
      obtain ⟨writer, written, same⟩ := stepped
      cases same
      obtain ⟨later, laterFronted, kept⟩ := inOrder.saw fronted written
      obtain ⟨nextInOrder, onward⟩ := inOrder.step (by
        rintro call rfl
        exact allowed) written
      refine ⟨nextInOrder, later, frozen, laterFronted, ?_⟩
      refine { agrees with
        synced := ?_
        saw := fun key file held => kept key file (agrees.saw key file held) }
      intro key file held
      obtain ⟨positive, below⟩ := agrees.synced key file held
      exact ⟨positive, Nat.le_trans below onward.txid⟩
  | lists level =>
      simp only [Watch.step] at stepped
      split at stepped
      · rename_i asked
        cases stepped
        exact ⟨inOrder, front, _, fronted,
          agrees.lists inOrder asked.1 asked.2⟩
      · cases stepped
  | gets key =>
      simp only [Watch.step] at stepped
      split at stepped
      · rename_i listed
        cases stepped
        refine ⟨inOrder, front, frozen, fronted, ?_⟩
        refine { agrees with told := ?_ }
        intro other response answered
        rcases List.mem_cons.mp answered with same | earlier
        · cases same
          obtain ⟨level, _, keys, found, member⟩ := Listings.mem_files.mp listed
          rw [agrees.listed level keys found] at member
          obtain ⟨file, held⟩ := (OrderedMap.mem_iff_exists _ _).mp
            (mem_listLevel.mp member).1
          rw [held]
          exact ((agrees.saw key file held).visible inOrder fronted).symm
        · exact agrees.told other response earlier
      · cases stepped

theorem ToldBy.keys_synced {watch : Watch} {front : Nat → Nat} {frozen : Store}
    (agrees : ToldBy history encodedSize watch front frozen) :
    Synced (watch.writer.visible encodedSize).txid frozen.keys := by
  intro key member
  obtain ⟨file, held⟩ := (OrderedMap.mem_iff_exists _ _).mp
    (ExtTreeMap.mem_keys.mp member)
  exact agrees.synced key file held

/-- Whatever a reader lists and fetches beside the writer, and whenever, could
have come from one frozen replica with exact files, of which some may be missing
when they are asked for. -/
theorem reader_sees_frozen {watch : Watch}
    (run : Machine.Reaches (Watch.step encodedSize) history.watches Watch.start
      watch) :
    ∃ frozen, history.FaithfulStore frozen ∧
      Synced (watch.writer.visible encodedSize).txid frozen.keys ∧
      (∀ level keys, watch.told.answers.lookup level = some keys →
        keys = listLevel frozen level) ∧
      (watch.told.answers.complete = true →
        watch.told.answers.files = listAllLtx frozen) ∧
      ∀ (key : FileKey) response, (key, response) ∈ watch.told.responses →
        response = none ∨ response = frozen[key]? := by
  have sound : watch.Sound history encodedSize :=
    run.invariant Watch.start_sound fun _ _ _ sound allowed stepped =>
      sound.step allowed stepped
  obtain ⟨_, front, frozen, _, agrees⟩ := sound
  refine ⟨frozen, agrees.faithful, agrees.keys_synced, agrees.listed, ?_,
    agrees.told⟩
  exact @RestorePhase.Steady.files_eq frozen none watch.told.answers
    agrees.listed

end Frozen

/-! ## A sample reader -/

/-- Two steps are synchronised and L0 is listed; the steps are merged and the
first one is deleted; then both are asked for. -/
def watchedChoices : List (Watch → WatchAction) :=
  [fun watch => .writes (.begins (hotSync watch.writer.replica).call),
    fun _ => .writes (.operates false), fun _ => .writes .returns,
    fun watch => .writes (.begins (hotSync watch.writer.replica).call),
    fun _ => .writes (.operates false), fun _ => .writes .returns,
    fun _ => .lists 0,
    fun _ => .writes (.begins (.compactLevel 0 1)),
    fun _ => .writes (.operates false), fun _ => .writes (.operates false),
    fun _ => .writes (.operates false), fun _ => .writes .returns,
    fun _ => .writes (.begins (.enforceL0Retention 10 1)),
    fun _ => .writes (.operates false),
    fun _ => .gets (rawKey 1), fun _ => .gets (rawKey 2)]

theorem watched_told :
    ((Machine.play (Watch.step fun _ => 0) Watch.start watchedChoices).map
      fun watch =>
        watch.told.responses.map fun response =>
          (response.1, response.2.isSome)) =
      some [(rawKey 2, true), (rawKey 1, false)] := by decide +kernel

theorem reader_sees_frozen_watched : ∃ watch : Watch,
    (watch.told.responses.map fun response =>
      (response.1, response.2.isSome)) =
      [(rawKey 2, true), (rawKey 1, false)] ∧
    ∃ frozen, hotPage.FaithfulStore frozen ∧
      ∀ (key : FileKey) response, (key, response) ∈ watch.told.responses →
        response = none ∨ response = frozen[key]? := by
  obtain ⟨watch, played, told⟩ := Option.map_eq_some_iff.mp watched_told
  have allowed : ∀ choose ∈ watchedChoices, ∀ watch,
      hotPage.watches watch (choose watch) := by
    intro choose member watch
    simp only [watchedChoices, List.mem_cons, List.not_mem_nil,
      or_false] at member
    rcases member with rfl | rfl | rfl | rfl | rfl | rfl | rfl | rfl | rfl |
      rfl | rfl | rfl | rfl | rfl | rfl | rfl
    case inl => exact hotSync_synced watch.writer.replica
    case inr.inr.inr.inl => exact hotSync_synced watch.writer.replica
    all_goals exact trivial
  obtain ⟨frozen, faithful, _, _, _, agrees⟩ :=
    reader_sees_frozen (Machine.reaches_of_play allowed played)
  exact ⟨watch, told, frozen, faithful, agrees⟩

end Literstream
