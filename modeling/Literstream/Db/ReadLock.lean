import Literstream.Lib.Fallible
import Literstream.Sync.Machine

/-!
# The pinned read transaction

The managed connection holds a read transaction open between calls, and a flag
says so.  Each of the statements behind it may fail, and an error that a
function returns in the middle leaves the flag, the transaction or the lock
where they are.
-/

namespace Literstream

namespace ReadLock

open Fallible

inductive Statement where
  | begin_
  | selectCount
  | rollback
  | walCheckpoint
  | bumpSeq
deriving DecidableEq, Repr

/-- How SQLite answers a statement; some errors roll an open transaction
back. -/
inductive Answer where
  | done
  | failed (rolledBack : Bool)
deriving DecidableEq, Repr

/-- The answers that one call gets, and whether its checkpoint is busy. -/
structure Answers where
  answer : Statement → Answer
  busy : Bool

/-- The connection and its flag.  No function reads `nested`: it records that
some `BEGIN` was issued inside an open transaction. -/
structure Db where
  inTransaction : Bool
  readLockHeld : Bool
  nested : Bool
deriving DecidableEq, Repr

/-- The connection as it is opened. -/
def Db.opened : Db where
  inTransaction := false
  readLockHeld := false
  nested := false

/-- SQLite refuses a `BEGIN` inside a transaction and a `ROLLBACK` outside. -/
def execute (answers : Answers) (statement : Statement) :
    Fallible Db Statement Unit := fun db =>
  match statement with
  | .begin_ =>
      if db.inTransaction then (.error .begin_, { db with nested := true })
      else
        match answers.answer .begin_ with
        | .done => (.ok (), { db with inTransaction := true })
        | .failed _ => (.error .begin_, db)
  | .rollback =>
      if db.inTransaction then
        match answers.answer .rollback with
        | .done => (.ok (), { db with inTransaction := false })
        | .failed rolledBack =>
            (.error .rollback, { db with inTransaction := !rolledBack })
      else (.error .rollback, db)
  | other =>
      match answers.answer other with
      | .done => (.ok (), db)
      | .failed rolledBack =>
          (.error other,
            { db with inTransaction := db.inTransaction && !rolledBack })

def setHeld (held : Bool) : Fallible Db Statement Unit :=
  change fun db => { db with readLockHeld := held }

def acquireReadLock (answers : Answers) : Fallible Db Statement Unit := do
  let db ← current
  if db.readLockHeld then return ()
  else
    execute answers .begin_
    execute answers .selectCount
    setHeld true

def releaseReadLock (answers : Answers) : Fallible Db Statement Unit := do
  let db ← current
  if db.readLockHeld then
    execute answers .rollback
    setHeld false
  else return ()

/-- The seq bump that makes a copied WAL restart. -/
def bumpAfter (answers : Answers) (mode : CheckpointMode) (restartWal : Bool) :
    Bool :=
  restartWal && mode == .passive && !answers.busy

/-- The two statements of a checkpoint that run without the lock. -/
def checkpointReleased (answers : Answers) (mode : CheckpointMode)
    (restartWal : Bool) : Fallible Db Statement Unit := do
  execute answers .walCheckpoint
  if bumpAfter answers mode restartWal then execute answers .bumpSeq
  else return ()

def checkpoint (answers : Answers) (mode : CheckpointMode)
    (restartWal : Bool) : Fallible Db Statement Unit := do
  let db ← current
  if db.readLockHeld then
    releaseReadLock answers
    checkpointReleased answers mode restartWal
    acquireReadLock answers
  else checkpointReleased answers mode restartWal

inductive Call where
  | acquireReadLock
  | releaseReadLock
  | checkpoint (mode : CheckpointMode) (restartWal : Bool)
deriving DecidableEq, Repr

structure Step where
  call : Call
  answers : Answers

def Step.run (step : Step) : Fallible Db Statement Unit :=
  match step.call with
  | .acquireReadLock => ReadLock.acquireReadLock step.answers
  | .releaseReadLock => ReadLock.releaseReadLock step.answers
  | .checkpoint mode restartWal =>
      ReadLock.checkpoint step.answers mode restartWal

/-- The statements that take the lock or give it up. -/
def Statement.locks : Statement → Bool
  | .begin_ => true
  | .selectCount => true
  | .rollback => true
  | .walCheckpoint => false
  | .bumpSeq => false

/-! ## What a call should keep -/

/-- The flag tells the truth and no `BEGIN` was nested. -/
structure Db.Sound (db : Db) : Prop where
  flag : db.readLockHeld = db.inTransaction
  flat : db.nested = false

structure Step.Keeps (db : Db) (step : Step) : Prop where
  sound : (step.run db).2.Sound
  /-- A checkpoint gives back the lock that it found. -/
  returned : ∀ mode restartWal, step.call = .checkpoint mode restartWal →
    (∀ statement, (step.run db).1 = .error statement →
      statement.locks = false) →
    (step.run db).2.readLockHeld = db.readLockHeld

/-- The read after a `BEGIN` does not fail, or takes the transaction with
it. -/
def Answers.Pins (answers : Answers) : Prop :=
  answers.answer .begin_ = .done → answers.answer .selectCount ≠ .failed false

/-- The checkpoint and the seq bump get through. -/
def Answers.Copies (answers : Answers) (mode : CheckpointMode)
    (restartWal : Bool) : Prop :=
  answers.answer .walCheckpoint = .done ∧
    (bumpAfter answers mode restartWal = true →
      answers.answer .bumpSeq = .done)

/-- What a call asks of its answers. -/
def Step.Fits (db : Db) (step : Step) : Prop :=
  match step.call with
  | .acquireReadLock => db.readLockHeld = false → step.answers.Pins
  | .releaseReadLock =>
      db.readLockHeld = true → step.answers.answer .rollback ≠ .failed true
  | .checkpoint mode restartWal =>
      db.readLockHeld = true →
        step.answers.answer .rollback ≠ .failed true ∧
          (step.answers.answer .rollback = .done →
            step.answers.Copies mode restartWal ∧ step.answers.Pins)

/-! ## Calls on a sound connection -/

/-- A sound connection, with its lock held or not. -/
def Db.holding (held : Bool) : Db where
  inTransaction := held
  readLockHeld := held
  nested := false

/-- A connection whose flag is down. -/
def Db.unflagged (inTransaction : Bool) : Db where
  inTransaction := inTransaction
  readLockHeld := false
  nested := false

theorem Db.sound_holding (held : Bool) : (Db.holding held).Sound := ⟨rfl, rfl⟩

theorem Db.Sound.eq_holding {db : Db} (sound : db.Sound) :
    db = Db.holding db.readLockHeld := by
  obtain ⟨inTransaction, readLockHeld, nested⟩ := db
  obtain ⟨flag, flat⟩ := sound
  cases flag
  cases flat
  rfl

theorem acquireReadLock_refused {answers : Answers} {rolledBack : Bool}
    (refused : answers.answer .begin_ = .failed rolledBack) :
    acquireReadLock answers (Db.holding false) =
      (.error .begin_, Db.holding false) := by
  have begun : execute answers .begin_ (Db.holding false) =
      (.error .begin_, Db.holding false) := by
    simp [execute, Db.holding, refused]
  change (execute answers .begin_ >>= _) (Db.holding false) = _
  exact bind_of_error begun

theorem acquireReadLock_begun {answers : Answers}
    (begun : answers.answer .begin_ = .done) :
    acquireReadLock answers (Db.holding false) =
      match answers.answer .selectCount with
      | .done => (.ok (), Db.holding true)
      | .failed rolledBack =>
          (.error .selectCount, Db.unflagged (!rolledBack)) := by
  have opened : execute answers .begin_ (Db.holding false) =
      (.ok (), Db.unflagged true) := by
    simp [execute, Db.holding, Db.unflagged, begun]
  refine (bind_of_ok opened).trans ?_
  cases read : answers.answer .selectCount with
  | done =>
      have counted : execute answers .selectCount (Db.unflagged true) =
          (.ok (), Db.unflagged true) := by
        simp [execute, read]
      exact bind_of_ok counted
  | failed rolledBack =>
      have failed : execute answers .selectCount (Db.unflagged true) =
          (.error .selectCount, Db.unflagged (!rolledBack)) := by
        simp [execute, Db.unflagged, read]
      exact bind_of_error failed

theorem releaseReadLock_held (answers : Answers) :
    releaseReadLock answers (Db.holding true) =
      match answers.answer .rollback with
      | .done => (.ok (), Db.holding false)
      | .failed rolledBack =>
          (.error .rollback,
            { Db.holding true with inTransaction := !rolledBack }) := by
  change (execute answers .rollback >>= _) (Db.holding true) = _
  cases ended : answers.answer .rollback with
  | done =>
      have rolled : execute answers .rollback (Db.holding true) =
          (.ok (), { Db.holding true with inTransaction := false }) := by
        simp [execute, Db.holding, ended]
      exact bind_of_ok rolled
  | failed rolledBack =>
      have failed : execute answers .rollback (Db.holding true) =
          (.error .rollback,
            { Db.holding true with inTransaction := !rolledBack }) := by
        simp [execute, Db.holding, ended]
      exact bind_of_error failed

theorem execute_walCheckpoint (answers : Answers) :
    execute answers .walCheckpoint (Db.holding false) =
      match answers.answer .walCheckpoint with
      | .done => (.ok (), Db.holding false)
      | .failed _ => (.error .walCheckpoint, Db.holding false) := by
  cases ran : answers.answer .walCheckpoint with
  | done => simp [execute, ran]
  | failed rolledBack => simp [execute, Db.holding, ran]

theorem execute_bumpSeq (answers : Answers) :
    execute answers .bumpSeq (Db.holding false) =
      match answers.answer .bumpSeq with
      | .done => (.ok (), Db.holding false)
      | .failed _ => (.error .bumpSeq, Db.holding false) := by
  cases ran : answers.answer .bumpSeq with
  | done => simp [execute, ran]
  | failed rolledBack => simp [execute, Db.holding, ran]

theorem checkpointReleased_copies {answers : Answers} {mode : CheckpointMode}
    {restartWal : Bool} (copies : answers.Copies mode restartWal) :
    checkpointReleased answers mode restartWal (Db.holding false) =
      (.ok (), Db.holding false) := by
  obtain ⟨copied, bumped⟩ := copies
  have first := execute_walCheckpoint answers
  rw [copied] at first
  refine (bind_of_ok first).trans ?_
  split
  · rename_i bumps
    rw [execute_bumpSeq, bumped bumps]
  · rfl

/-- Without the lock a checkpoint may fail, but changes nothing. -/
theorem checkpointReleased_stops {answers : Answers} {mode : CheckpointMode}
    {restartWal : Bool} (stops : ¬answers.Copies mode restartWal) :
    ∃ statement, statement.locks = false ∧
      checkpointReleased answers mode restartWal (Db.holding false) =
        (.error statement, Db.holding false) := by
  have first := execute_walCheckpoint answers
  cases copied : answers.answer .walCheckpoint with
  | failed rolledBack =>
      rw [copied] at first
      exact ⟨.walCheckpoint, rfl, bind_of_error first⟩
  | done =>
      rw [copied] at first
      obtain ⟨bumps, failed⟩ : bumpAfter answers mode restartWal = true ∧
          answers.answer .bumpSeq ≠ .done := by
        by_contra fine
        exact stops ⟨copied, fun bumps => by
          by_contra failed
          exact fine ⟨bumps, failed⟩⟩
      refine ⟨.bumpSeq, rfl, (bind_of_ok first).trans ?_⟩
      rw [if_pos bumps, execute_bumpSeq]
      cases bumped : answers.answer .bumpSeq with
      | done => exact absurd bumped failed
      | failed rolledBack => rfl

/-! ## One call -/

theorem sound_unflagged_iff (inTransaction : Bool) :
    (Db.unflagged inTransaction).Sound ↔ inTransaction = false :=
  ⟨fun sound => sound.flag.symm, fun closed => ⟨closed.symm, rfl⟩⟩

/-- Taking the lock keeps the flag true exactly when the read gets through or
ends the transaction. -/
theorem acquireReadLock_sound_iff (answers : Answers) :
    (acquireReadLock answers (Db.holding false)).2.Sound ↔ answers.Pins := by
  unfold Answers.Pins
  cases begun : answers.answer .begin_ with
  | failed rolledBack =>
      rw [acquireReadLock_refused begun]
      simp [Db.sound_holding]
  | done =>
      rw [acquireReadLock_begun begun]
      cases answers.answer .selectCount with
      | done => simp [Db.sound_holding]
      | failed rolledBack => simp [sound_unflagged_iff]

/-- Taking the lock succeeds, or one of its own statements failed. -/
theorem acquireReadLock_result (answers : Answers) :
    acquireReadLock answers (Db.holding false) = (.ok (), Db.holding true) ∨
      ∃ statement, statement.locks = true ∧
        (acquireReadLock answers (Db.holding false)).1 = .error statement := by
  cases begun : answers.answer .begin_ with
  | failed rolledBack =>
      rw [acquireReadLock_refused begun]
      exact .inr ⟨.begin_, rfl, rfl⟩
  | done =>
      rw [acquireReadLock_begun begun]
      cases answers.answer .selectCount with
      | done => exact .inl rfl
      | failed rolledBack => exact .inr ⟨.selectCount, rfl, rfl⟩

theorem releaseReadLock_sound_iff (answers : Answers) :
    (releaseReadLock answers (Db.holding true)).2.Sound ↔
      answers.answer .rollback ≠ .failed true := by
  rw [releaseReadLock_held]
  cases answers.answer .rollback with
  | done => simp [Db.sound_holding]
  | failed rolledBack =>
      cases rolledBack with
      | false => exact ⟨by rintro _ ⟨⟩, fun _ => Db.sound_holding true⟩
      | true =>
          constructor
          · intro sound
            cases sound.flag
          · exact fun differs => absurd rfl differs

theorem keeps_acquire_iff {held : Bool} {answers : Answers} :
    Step.Keeps (Db.holding held) ⟨.acquireReadLock, answers⟩ ↔
      Step.Fits (Db.holding held) ⟨.acquireReadLock, answers⟩ := by
  have onlySound : Step.Keeps (Db.holding held) ⟨.acquireReadLock, answers⟩ ↔
      (acquireReadLock answers (Db.holding held)).2.Sound :=
    ⟨fun keeps => keeps.sound, fun sound => ⟨sound, by rintro _ _ ⟨⟩⟩⟩
  rw [onlySound]
  cases held with
  | false =>
      rw [acquireReadLock_sound_iff]
      exact ⟨fun pins _ => pins, fun fits => fits rfl⟩
  | true =>
      constructor
      · rintro _ ⟨⟩
      · exact fun _ => Db.sound_holding true

theorem keeps_release_iff {held : Bool} {answers : Answers} :
    Step.Keeps (Db.holding held) ⟨.releaseReadLock, answers⟩ ↔
      Step.Fits (Db.holding held) ⟨.releaseReadLock, answers⟩ := by
  have onlySound : Step.Keeps (Db.holding held) ⟨.releaseReadLock, answers⟩ ↔
      (releaseReadLock answers (Db.holding held)).2.Sound :=
    ⟨fun keeps => keeps.sound, fun sound => ⟨sound, by rintro _ _ ⟨⟩⟩⟩
  rw [onlySound]
  cases held with
  | false =>
      constructor
      · rintro _ ⟨⟩
      · exact fun _ => Db.sound_holding false
  | true =>
      rw [releaseReadLock_sound_iff]
      exact ⟨fun kept _ => kept, fun fits => fits rfl⟩

theorem checkpoint_held (answers : Answers) (mode : CheckpointMode)
    (restartWal : Bool) :
    checkpoint answers mode restartWal (Db.holding true) =
      (releaseReadLock answers >>= fun _ =>
        checkpointReleased answers mode restartWal >>= fun _ =>
          acquireReadLock answers) (Db.holding true) := rfl

theorem keeps_checkpoint_iff {held : Bool} {answers : Answers}
    {mode : CheckpointMode} {restartWal : Bool} :
    Step.Keeps (Db.holding held) ⟨.checkpoint mode restartWal, answers⟩ ↔
      Step.Fits (Db.holding held) ⟨.checkpoint mode restartWal, answers⟩ := by
  cases held with
  | false =>
      have still : (Step.run ⟨.checkpoint mode restartWal, answers⟩
          (Db.holding false)).2 = Db.holding false := by
        change (checkpointReleased answers mode restartWal
          (Db.holding false)).2 = _
        by_cases copies : answers.Copies mode restartWal
        · rw [checkpointReleased_copies copies]
        · obtain ⟨statement, _, ran⟩ := checkpointReleased_stops copies
          rw [ran]
      constructor
      · rintro _ ⟨⟩
      · intro _
        exact ⟨by rw [still]; exact Db.sound_holding false,
          fun _ _ _ _ => by rw [still]⟩
  | true =>
      cases ended : answers.answer .rollback with
      | failed rolledBack =>
          have released := releaseReadLock_held answers
          rw [ended] at released
          have ran : Step.run ⟨.checkpoint mode restartWal, answers⟩
              (Db.holding true) = (.error .rollback,
                { Db.holding true with inTransaction := !rolledBack }) :=
            (checkpoint_held answers mode restartWal).trans
              (bind_of_error released)
          have sound := releaseReadLock_sound_iff answers
          rw [released, ended] at sound
          constructor
          · intro keeps _
            have kept := keeps.sound
            rw [ran] at kept
            refine ⟨fun same => sound.mp kept (ended.symm.trans same), ?_⟩
            intro done
            rw [ended] at done
            cases done
          · intro fits
            obtain ⟨kept, _⟩ := fits rfl
            refine ⟨?_, ?_⟩
            · rw [ran]
              exact sound.mpr fun same => kept (ended.trans same)
            · intro _ _ _ others
              rw [ran] at others
              cases others .rollback rfl
      | done =>
          have released := releaseReadLock_held answers
          rw [ended] at released
          by_cases copies : answers.Copies mode restartWal
          · have ran : Step.run ⟨.checkpoint mode restartWal, answers⟩
                (Db.holding true) =
                  acquireReadLock answers (Db.holding false) := by
              refine (checkpoint_held answers mode restartWal).trans ?_
              rw [bind_of_ok released,
                bind_of_ok (checkpointReleased_copies copies)]
            constructor
            · intro keeps _
              have kept := keeps.sound
              rw [ran, acquireReadLock_sound_iff] at kept
              exact ⟨by rw [ended]; rintro ⟨⟩, fun _ => ⟨copies, kept⟩⟩
            · intro fits
              obtain ⟨_, fits⟩ := fits rfl
              refine ⟨?_, ?_⟩
              · rw [ran, acquireReadLock_sound_iff]
                exact (fits ended).2
              · intro _ _ _ others
                rw [ran] at others ⊢
                rcases acquireReadLock_result answers with
                  taken | ⟨statement, locks, failed⟩
                · rw [taken]
                · rw [others statement failed] at locks
                  cases locks
          · obtain ⟨statement, other, stopped⟩ :=
              checkpointReleased_stops copies
            have ran : Step.run ⟨.checkpoint mode restartWal, answers⟩
                (Db.holding true) = (.error statement, Db.holding false) := by
              refine (checkpoint_held answers mode restartWal).trans ?_
              rw [bind_of_ok released, bind_of_error stopped]
            constructor
            · intro keeps
              have lost := keeps.returned mode restartWal rfl
              rw [ran] at lost
              have still := lost (by rintro _ ⟨⟩; exact other)
              cases still
            · intro fits
              obtain ⟨_, fits⟩ := fits rfl
              exact absurd (fits ended).1 copies

/-- On a sound connection a call keeps what it should exactly when its answers
fit. -/
theorem keeps_iff_fits {db : Db} (sound : db.Sound) (step : Step) :
    step.Keeps db ↔ step.Fits db := by
  rw [sound.eq_holding]
  obtain ⟨call, answers⟩ := step
  cases call with
  | acquireReadLock => exact keeps_acquire_iff
  | releaseReadLock => exact keeps_release_iff
  | checkpoint mode restartWal => exact keeps_checkpoint_iff

/-! ## Runs -/

/-- Every call of a run keeps what it should. -/
def RunKeeps (db : Db) : List Step → Prop
  | [] => True
  | step :: rest => step.Keeps db ∧ RunKeeps (step.run db).2 rest

/-- The answers of every call fit. -/
def RunFits (db : Db) : List Step → Prop
  | [] => True
  | step :: rest => step.Fits db ∧ RunFits (step.run db).2 rest

theorem runKeeps_iff_runFits {db : Db} (sound : db.Sound)
    (steps : List Step) : RunKeeps db steps ↔ RunFits db steps := by
  induction steps generalizing db with
  | nil => exact Iff.rfl
  | cons step rest ih =>
      constructor
      · rintro ⟨keeps, later⟩
        exact ⟨(keeps_iff_fits sound step).mp keeps, (ih keeps.sound).mp later⟩
      · rintro ⟨fits, later⟩
        have keeps := (keeps_iff_fits sound step).mpr fits
        exact ⟨keeps, (ih keeps.sound).mpr later⟩

/-- From the connection as it is opened, a run keeps the flag, the lock and
flat transactions exactly when the answers of all its calls fit. -/
theorem read_lock_kept_iff (steps : List Step) :
    RunKeeps Db.opened steps ↔ RunFits Db.opened steps :=
  runKeeps_iff_runFits ⟨rfl, rfl⟩ steps

/-- One statement fails and all others get through. -/
def failing (statement : Statement) : Answers where
  answer other := if other = statement then .failed false else .done
  busy := false

def allDone : Answers where
  answer _ := .done
  busy := false

/-- A failed read leaves the transaction open, so that the next attempt nests
a `BEGIN`; a failed checkpoint loses the lock. -/
theorem failed_statements_lose_lock :
    (Step.run ⟨.acquireReadLock, failing .selectCount⟩ Db.opened).2 =
        { inTransaction := true, readLockHeld := false, nested := false } ∧
      ¬RunKeeps Db.opened [⟨.acquireReadLock, failing .selectCount⟩] ∧
      (Step.run ⟨.acquireReadLock, allDone⟩
          { inTransaction := true, readLockHeld := false, nested := false }).2 =
        { inTransaction := true, readLockHeld := false, nested := true } ∧
      Step.run ⟨.checkpoint .truncate false, failing .walCheckpoint⟩
          (Db.holding true) = (.error .walCheckpoint, Db.holding false) ∧
      ¬RunKeeps Db.opened [⟨.acquireReadLock, allDone⟩,
        ⟨.checkpoint .truncate false, failing .walCheckpoint⟩] ∧
      ¬RunKeeps Db.opened [⟨.acquireReadLock, allDone⟩,
        ⟨.checkpoint .passive true, failing .bumpSeq⟩] := by
  refine ⟨rfl, ?_, rfl, rfl, ?_, ?_⟩
  · rintro ⟨keeps, _⟩
    cases keeps.sound.flag
  · rintro ⟨_, keeps, _⟩
    cases keeps.returned .truncate false rfl (by rintro _ ⟨⟩; rfl)
  · rintro ⟨_, keeps, _⟩
    cases keeps.returned .passive true rfl (by rintro _ ⟨⟩; rfl)

end ReadLock

end Literstream
