import Literstream.Lib.Paced
import Literstream.Levels.Replication

/-!
# A call seen by others while it runs

Other processes see the replica between two store operations of a running call.
No call brings a deleted L0 file back, and every TXID inside a snapshot stays
inside one.
-/

namespace Literstream

open Fallible

/-- The L0 file of a TXID. -/
def rawKey (txid : Nat) : FileKey := ⟨level0, txid, txid⟩

/-- Some snapshot holds the TXID. -/
def Levels.Based (state : Levels) (txid : Nat) : Prop :=
  ∃ key ∈ state.store, key.level = snapshotLevel ∧ key.minTxid ≤ txid ∧
    txid ≤ key.maxTxid

def Levels.under (state : Levels) (schedule : List Bool) : Levels :=
  { state with faults := schedule }

/-- A preorder that does not look at the schedule. -/
structure Unscheduled (keeps : Levels → Levels → Prop) : Prop where
  trans : ∀ {first second third}, keeps first second → keeps second third →
    keeps first third
  forgets : ∀ state schedule, keeps state (Levels.under state schedule)
  recalls : ∀ state schedule, keeps (Levels.under state schedule) state

def Levels.pace (keeps : Levels → Levels → Prop)
    (lawful : Unscheduled keeps) : Pace Levels where
  under := Levels.under
  keeps := keeps
  trans := lawful.trans
  forgets := lawful.forgets
  recalls := lawful.recalls

/-- The position does not go back, and no L0 file up to it comes back. -/
structure Advances (state next : Levels) : Prop where
  txid : state.txid ≤ next.txid
  gone : ∀ txid ≤ state.txid, rawKey txid ∈ next.store →
    rawKey txid ∈ state.store

/-- Moreover no file is deleted. -/
structure Gathers (state next : Levels) : Prop extends
    Advances state next where
  kept : ∀ key ∈ state.store, key ∈ next.store

theorem advances_unscheduled : Unscheduled Advances where
  trans := by
    intro first second third early late
    refine ⟨Nat.le_trans early.txid late.txid, ?_⟩
    intro txid within held
    exact early.gone txid within
      (late.gone txid (Nat.le_trans within early.txid) held)
  forgets := fun _ _ => ⟨Nat.le_refl _, fun _ _ held => held⟩
  recalls := fun _ _ => ⟨Nat.le_refl _, fun _ _ held => held⟩

theorem gathers_unscheduled : Unscheduled Gathers where
  trans := by
    intro first second third early late
    exact ⟨advances_unscheduled.trans early.toAdvances late.toAdvances,
      fun key held => late.kept key (early.kept key held)⟩
  forgets := fun state schedule =>
    ⟨advances_unscheduled.forgets state schedule, fun _ held => held⟩
  recalls := fun state schedule =>
    ⟨advances_unscheduled.recalls state schedule, fun _ held => held⟩

def advancing : Pace Levels := Levels.pace Advances advances_unscheduled

def gathering : Pace Levels := Levels.pace Gathers gathers_unscheduled

section Reads

variable {keeps : Levels → Levels → Prop} {lawful : Unscheduled keeps}

theorem paced_attempt (state : Levels) :
    Paced (Levels.pace keeps lawful) (fun _ final => state = final)
      ((Levels.pace keeps lawful).run attempt state) state := by
  have stops : ∀ later,
      (Levels.pace keeps lawful).run attempt state (true :: later) =
        (.error .storage, Levels.under state later) := fun _ => rfl
  apply Paced.waits stops ((Levels.pace keeps lawful).refl state)
  exact .returns (fun _ => rfl) ((Levels.pace keeps lawful).refl state) rfl

theorem paced_fetchLtx (key : FileKey) (state : Levels) :
    Paced (Levels.pace keeps lawful) (fun _ _ => True)
      ((Levels.pace keeps lawful).run (fetchLtx key) state) state := by
  apply (paced_attempt state).bind
  rintro _ _ rfl
  apply paced_current (fun _ => rfl)
  exact paced_ofExcept fun _ _ => trivial

end Reads

section Deletions

/-- Deleting a file brings nothing back. -/
theorem paced_deleteFile (file : LtxFileInfo) (state : Levels) :
    Paced advancing (fun _ _ => True)
      (advancing.run (deleteFile file) state) state := by
  have removed : Paced advancing (fun _ _ => True)
      (advancing.run (deleteLtx file.toFileKey) state) state := by
    apply (paced_attempt state).bind
    rintro _ _ rfl
    apply paced_change (fun _ => rfl) _ trivial
    refine ⟨Nat.le_refl _, ?_⟩
    intro txid _ held
    exact ((OrderedMap.mem_erase _ _ _).mp held).2
  apply removed.bind
  intro _ reached _
  apply paced_change (fun _ => rfl) _ trivial
  exact ⟨Nat.le_refl _, fun _ _ held => held⟩

theorem paced_deleteFiles (files : List LtxFileInfo) (state : Levels) :
    Paced advancing (fun _ _ => True)
      (advancing.run (forEach deleteFile files) state) state :=
  paced_forEach files (fun file _ state _ => paced_deleteFile file state)
    trivial

theorem paced_enforceRetentionByTxid (level txid : Nat) (state : Levels) :
    Paced advancing (fun _ _ => True)
      (advancing.run (enforceRetentionByTxid level txid) state) state := by
  apply paced_current (fun _ => rfl)
  apply (paced_deleteFiles _ state).bind
  exact fun _ _ _ => paced_pure trivial

theorem paced_enforceSnapshotRetention (now : Int) (retention maxLevel : Nat)
    (state : Levels) :
    Paced advancing (fun _ _ => True)
      (advancing.run (enforceSnapshotRetention now retention maxLevel) state)
      state := by
  apply paced_current (fun _ => rfl)
  apply (paced_deleteFiles _ state).bind
  intro _ reached _
  split
  · have cascaded : Paced advancing (fun _ _ => True)
        (advancing.run (cascadeRetention maxLevel
          (snapshotExpired (state.files.list snapshotLevel)
            (cutoffTime now retention)).2) reached) reached := by
      apply paced_forEach _ _ trivial
      intro level _ between _
      apply (paced_enforceRetentionByTxid level _ between).bind
      exact fun _ _ _ => paced_pure trivial
    apply cascaded.bind
    exact fun _ _ _ => paced_pure trivial
  · exact paced_pure trivial

theorem paced_enforceL0Retention (now : Int) (retention : Nat)
    (state : Levels) :
    Paced advancing (fun _ _ => True)
      (advancing.run (enforceL0Retention now retention) state) state := by
  unfold enforceL0Retention
  split
  · exact paced_pure trivial
  · apply paced_current (fun _ => rfl)
    apply (paced_deleteFiles _ state).bind
    exact fun _ _ _ => paced_pure trivial

end Deletions

section Uploads

theorem gathers_index (state : Levels) (files : FileIndex) :
    Gathers state { state with files := files } where
  txid := Nat.le_refl _
  gone := fun _ _ held => held
  kept := fun _ held => held

/-- An upload brings no L0 file back, if it is not the one of an L0 file that
was passed. -/
theorem gathers_upload {state : Levels} {key : FileKey} (file : LtxFile)
    (later : ∀ txid ≤ state.txid, rawKey txid ≠ key) :
    Gathers state { state with store := putLtx state.store key file } where
  txid := Nat.le_refl _
  gone := by
    intro txid within held
    rcases (OrderedMap.mem_insert _ _ _ _).mp held with same | held
    · exact absurd same (later txid within)
    · exact held
  kept := fun _ held => (OrderedMap.mem_insert _ _ _ _).mpr (.inr held)

theorem paced_uploadMerged (clock : Int) {key : FileKey} (file : LtxFile)
    (merged : key.level ≠ level0) (state : Levels) :
    Paced gathering (fun _ _ => True)
      (gathering.run (uploadMerged clock key file) state) state := by
  apply (paced_attempt state).bind
  rintro _ _ rfl
  have stored : Paced gathering (fun _ _ => True)
      (gathering.run (change fun state =>
        { state with store := putLtx state.store key file } : Call Unit)
        state) state := by
    apply paced_change (fun _ => rfl) _ trivial
    apply gathers_upload
    rintro txid _ rfl
    exact merged rfl
  apply stored.bind
  intro _ reached _
  exact paced_change (fun _ => rfl) (gathers_index reached _) trivial

theorem paced_fetches {α : Type} (key : α → FileKey) (items : List α)
    (state : Levels) :
    Paced gathering (fun _ _ => True)
      (gathering.run (collect (fun item => fetchLtx (key item)) items) state)
      state :=
  paced_collect items (fun item _ state _ => paced_fetchLtx (key item) state)
    trivial

theorem paced_compactLevel (clock : Int) (dstLevel : Nat) (state : Levels) :
    Paced gathering (fun _ _ => True)
      (gathering.run (compactLevel clock dstLevel) state) state := by
  unfold compactLevel
  split
  · exact paced_ofExcept fun _ _ => trivial
  · rename_i inside
    apply paced_current (fun _ => rfl)
    dsimp only
    split
    · rename_i first last _ _
      apply (paced_fetches LtxFileInfo.toFileKey _ state).bind
      intro inputs fetched _
      have uploaded : Paced gathering (fun _ _ => True)
          (gathering.run (compactAndUpload clock
            ⟨dstLevel, first.minTxid, last.maxTxid⟩ inputs) fetched)
          fetched := by
        apply paced_bind_ofExcept
        intro merged _
        apply paced_uploadMerged
        intro zero
        exact inside (.inl zero)
      apply uploaded.bind
      exact fun _ _ _ => paced_pure trivial
    · exact paced_pure trivial

theorem snapshot_not_raw : snapshotLevel ≠ level0 := by decide

theorem paced_snapshot (clock : Int) (state : Levels) :
    Paced gathering (fun _ _ => True)
      (gathering.run (snapshot clock) state) state := by
  apply paced_current (fun _ => rfl)
  split
  · exact paced_pure trivial
  · dsimp only
    split
    · exact paced_pure trivial
    · apply paced_bind_ofExcept
      intro plan _
      apply (paced_fetches id plan state).bind
      intro inputs fetched _
      split
      · exact paced_pure trivial
      · apply paced_bind_ofExcept
        intro merged _
        apply (paced_uploadMerged clock merged snapshot_not_raw fetched).bind
        exact fun _ _ _ => paced_pure trivial

/-- An upload of the next L0 file. -/
theorem paced_syncFile (encodedSize : LtxFile → Nat) (clock : Int)
    (file : LtxFile) (state : Levels) :
    Paced gathering (fun _ _ => True)
      (gathering.run (syncFile encodedSize clock file) state) state := by
  apply (paced_attempt state).bind
  rintro _ _ rfl
  apply paced_current (fun _ => rfl)
  dsimp only
  apply paced_bind_ofExcept
  intro store uploaded
  have added := uploadLtxFile_eq_ok uploaded
  subst added
  apply paced_change (fun _ => rfl) _ trivial
  have later : ∀ txid ≤ state.txid,
      rawKey txid ≠ ⟨level0, state.txid + 1, state.txid + 1⟩ := by
    intro txid within same
    injection same
    omega
  have gathered := gathers_upload file later
  exact ⟨⟨Nat.le_succ _, gathered.gone⟩, gathered.kept⟩

theorem paced_restampFile (key : FileKey) (createdAt : Option Int)
    (state : Levels) :
    Paced gathering (fun _ _ => True)
      (gathering.run (restampFile key createdAt) state) state := by
  apply paced_change _ _ trivial
  · intro later
    change (if state.files.contains key then _ else _) = _
    split
    · rfl
    · rfl
  · split
    · exact gathers_index state _
    · exact gathering.refl state

theorem paced_effect {α : Type} {pace : Pace Levels} {call : Call α}
    {state : Levels}
    (paced : Paced pace (fun _ _ => True) (pace.run call state) state) :
    Paced pace (fun _ _ => True) (pace.run (effect call) state) state :=
  paced.bind fun _ _ _ => paced_pure trivial

end Uploads

/-! ## What another process sees -/

/-- The replica between two operations of a running call: what the call leaves
when the next operation is the one that fails. -/
def LevelsCall.visible (encodedSize : LtxFile → Nat) (state : Levels)
    (call : LevelsCall) (outcomes : List Bool) : Levels :=
  state.after encodedSize { faults := outcomes ++ [true], call := call }

/-- Nothing that a later reader relies on is lost. -/
structure Onward (state next : Levels) : Prop extends
    Advances state next where
  based : ∀ txid, state.Based txid → next.Based txid

theorem Gathers.onward {state next : Levels} (gathers : Gathers state next) :
    Onward state next where
  toAdvances := gathers.toAdvances
  based := by
    rintro txid ⟨key, member, inside⟩
    exact ⟨key, gathers.kept key member, inside⟩

theorem Onward.refl (state : Levels) : Onward state state :=
  (gathering.refl state).onward

section Visible

variable {history : History} {anchor : Nat} {encodedSize : LtxFile → Nat}
  {state : Levels}

/-- A replica in order has everything up to its anchor in a snapshot. -/
theorem LevelsOk.based_iff (ok : LevelsOk history anchor state) {txid : Nat}
    (positive : 1 ≤ txid) : state.Based txid ↔ txid ≤ anchor := by
  constructor
  · rintro ⟨key, member, level, _, inside⟩
    exact Nat.le_trans inside (ok.anchorTop key member level)
  · intro within
    rcases ok.anchored with zero | held
    · omega
    · exact ⟨_, held, rfl, positive, within⟩

theorem LevelsOk.not_based_zero (ok : LevelsOk history anchor state) :
    ¬ state.Based 0 := by
  rintro ⟨key, member, _, below, _⟩
  obtain ⟨_, _, fileOk⟩ := ok.key_ok member
  have positive := fileOk.positive
  omega

/-- The calls that delete nothing. -/
def LevelsCall.uploads : LevelsCall → Prop
  | .sync _ _ | .compactLevel _ _ | .snapshot _ | .restamp _ _ => True
  | _ => False

theorem paced_of_uploads {call : LevelsCall} (uploads : call.uploads)
    (encodedSize : LtxFile → Nat) (state : Levels) :
    Paced gathering (fun _ _ => True)
      (gathering.run (call.run encodedSize) state) state := by
  cases call with
  | sync clock file => exact paced_syncFile encodedSize clock file state
  | compactLevel clock dstLevel =>
      exact paced_effect (paced_compactLevel clock dstLevel state)
  | snapshot clock => exact paced_effect (paced_snapshot clock state)
  | enforceSnapshotRetention now retention maxLevel => exact uploads.elim
  | enforceL0Retention now retention => exact uploads.elim
  | compact clock => exact uploads.elim
  | restamp key createdAt => exact paced_restampFile key createdAt state

/-- What a call that only uploads shows. -/
theorem visible_gathers {call : LevelsCall} (uploads : call.uploads)
    (outcomes : List Bool) (outcome : Bool) :
    Gathers state (call.visible encodedSize state []) ∧
      Gathers (call.visible encodedSize state outcomes)
        (call.visible encodedSize state (outcomes ++ [outcome])) := by
  have paced := paced_of_uploads uploads encodedSize state
  constructor
  · exact gathering.trans paced.seen_nil (gathering.forgets _ [])
  · exact gathering.congr (paced.seen_next outcomes outcome) [] []

/-- What a call that only deletes shows: it keeps one anchor. -/
theorem visible_of_deleting {call : LevelsCall}
    (ok : LevelsOk history anchor state)
    (paced : Paced advancing (fun _ _ => True)
      (advancing.run (call.run encodedSize) state) state)
    (holds : Holds (Same state) (call.run encodedSize)
      (fun _ => LevelsOk history anchor) (LevelsOk history anchor))
    (outcomes : List Bool) (outcome : Bool) :
    Onward state (call.visible encodedSize state []) ∧
      Onward (call.visible encodedSize state outcomes)
        (call.visible encodedSize state (outcomes ++ [outcome])) := by
  have visibleOk : ∀ outcomes,
      LevelsOk history anchor (call.visible encodedSize state outcomes) := by
    intro outcomes
    have started : Same state
        { state with faults := outcomes ++ [true] } := ⟨rfl, rfl, rfl⟩
    have reached := holds.final started
    have same : Same
        (call.run encodedSize { state with faults := outcomes ++ [true] }).2
        (call.visible encodedSize state outcomes) := ⟨rfl, rfl, rfl⟩
    exact same.ok reached
  have based {early late : Levels} (earlyOk : LevelsOk history anchor early)
      (lateOk : LevelsOk history anchor late) (txid : Nat)
      (held : early.Based txid) : late.Based txid := by
    rcases Nat.eq_zero_or_pos txid with rfl | positive
    · exact absurd held earlyOk.not_based_zero
    · exact (lateOk.based_iff positive).mpr ((earlyOk.based_iff positive).mp held)
  constructor
  · exact ⟨advancing.trans paced.seen_nil (advancing.forgets _ []),
      based ok (visibleOk [])⟩
  · exact ⟨advancing.congr (paced.seen_next outcomes outcome) [] [],
      based (visibleOk _) (visibleOk _)⟩

/-- Whatever runs, and however its operations go, a reader loses nothing from
one operation to the next. -/
theorem ReplicaOk.visible_onward {call : LevelsCall} {faults : List Bool}
    (ok : ReplicaOk history state)
    (allowed : history.cascades state { faults := faults, call := call })
    (outcomes : List Bool) (outcome : Bool) :
    Onward state (call.visible encodedSize state []) ∧
      Onward (call.visible encodedSize state outcomes)
        (call.visible encodedSize state (outcomes ++ [outcome])) := by
  obtain ⟨anchor, ok⟩ := ok
  have gathered (uploads : call.uploads) :
      Onward state (call.visible encodedSize state []) ∧
        Onward (call.visible encodedSize state outcomes)
          (call.visible encodedSize state (outcomes ++ [outcome])) := by
    obtain ⟨first, next⟩ := @visible_gathers encodedSize state call uploads
      outcomes outcome
    exact ⟨first.onward, next.onward⟩
  cases call with
  | sync clock file => exact gathered trivial
  | compactLevel clock dstLevel => exact gathered trivial
  | snapshot clock => exact gathered trivial
  | enforceSnapshotRetention now retention maxLevel =>
      apply visible_of_deleting ok
      · exact paced_effect
          (paced_enforceSnapshotRetention now retention maxLevel state)
      · exact effect_ok
          (enforceSnapshotRetention_ok now retention maxLevel ok)
  | enforceL0Retention now retention =>
      apply visible_of_deleting ok
      · exact paced_effect (paced_enforceL0Retention now retention state)
      · exact effect_ok (enforceL0Retention_ok now retention ok)
  | compact clock => exact allowed.elim
  | restamp key createdAt => exact gathered trivial

/-- A reader always sees a replica in order. -/
theorem ReplicaOk.visible {call : LevelsCall} {faults : List Bool}
    (ok : ReplicaOk history state)
    (allowed : history.cascades state { faults := faults, call := call })
    (outcomes : List Bool) :
    ReplicaOk history (call.visible encodedSize state outcomes) :=
  @ReplicaOk.cascade history encodedSize state _
    { faults := outcomes ++ [true], call := call } ok
    (by cases call <;> exact allowed) rfl

end Visible

end Literstream
