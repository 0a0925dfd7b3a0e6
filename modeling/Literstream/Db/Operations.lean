import Literstream.Db.Sqlite
import Literstream.Lib.Machine

/-!
# The database as a machine

What connections may do to a database: commit, with or without a new WAL
generation, and checkpoint.  Two of the operations discard the frames of the
current generation.
-/

namespace Literstream

open Machine

inductive SqliteOp where
  | append (salt2 : Nat) (txn : List Frame)
  | restart (salt2 : Nat) (txn : List Frame)
  | checkpoint (frames : Nat)
  | truncate
deriving DecidableEq, Repr

/-- The frames that an operation commits. -/
def SqliteOp.txn : SqliteOp → Option (List Frame)
  | .append _ txn => some txn
  | .restart _ txn => some txn
  | .checkpoint _ => none
  | .truncate => none

/-- The operation drops the current frames from the WAL. -/
def SqliteOp.discards : SqliteOp → Bool
  | .append _ _ => false
  | .restart _ _ => true
  | .checkpoint _ => false
  | .truncate => true

/-- A commit is one of whole transactions on the database. -/
def SqliteOp.Fits (pageSize : Nat) (db : Sqlite) (op : SqliteOp) : Prop :=
  ∀ txn, op.txn = some txn →
    TxnOk pageSize (pageCount pageSize (db.committedImage pageSize)) txn

/-- Run an operation; a checkpoint goes on from where the last one ended. -/
def Sqlite.apply (pageSize : Nat) (db : Sqlite) : SqliteOp → Option Sqlite
  | .append salt2 txn => some (db.append salt2 txn)
  | .restart salt2 txn => db.restart salt2 txn
  | .checkpoint frames =>
      if db.backfill ≤ frames ∧ frames ≤ db.frames.length then
        some (db.checkpoint pageSize frames)
      else none
  | .truncate => some (db.truncate pageSize)

section Decisions

variable {pageSize : Nat}

instance (frame : Frame) : Decidable (FrameOk pageSize frame) :=
  decidable_of_iff (1 ≤ frame.pgno ∧ frame.pgno ≠ lockPgno pageSize ∧
      frame.data.length = pageSize)
    ⟨fun ⟨positive, notLock, length⟩ => ⟨positive, notLock, length⟩,
      fun ok => ⟨ok.positive, ok.notLock, ok.length⟩⟩

instance (frames : List Frame) : Decidable (FramesOk pageSize frames) :=
  decidable_of_iff ((∀ frame ∈ frames, FrameOk pageSize frame) ∧
      ∀ frame ∈ frames.getLast?, 1 ≤ frame.commit ∧ frame.pgno ≤ frame.commit)
    ⟨fun ⟨each, commits⟩ => ⟨each, commits⟩, fun ok => ⟨ok.each, ok.commits⟩⟩

instance (size : Nat) (txn : List Frame) : Decidable (TxnOk pageSize size txn) :=
  decidable_of_iff (FramesOk pageSize txn ∧ txn ≠ [] ∧
      ∀ pgno < commitOf txn + 1, size < pgno → pgno ≠ lockPgno pageSize →
        newest txn pgno ≠ none)
    ⟨fun ⟨frames, nonempty, grown⟩ => ⟨frames, nonempty,
        fun pgno beyond inside notLock =>
          grown pgno (Nat.lt_succ_of_le inside) beyond notLock⟩,
      fun ok => ⟨ok.frames, ok.nonempty, fun pgno inside beyond notLock =>
        ok.grown pgno beyond (Nat.le_of_lt_succ inside) notLock⟩⟩

instance (db : Sqlite) (op : SqliteOp) : Decidable (op.Fits pageSize db) :=
  inferInstanceAs (Decidable (∀ txn ∈ op.txn, TxnOk pageSize
    (pageCount pageSize (db.committedImage pageSize)) txn))

end Decisions

/-- Every generation begins with a commit. -/
def Sqlite.Written (db : Sqlite) : Prop :=
  ∀ wal, db.wal = some wal → wal.frames ≠ []

section Applying

variable {pageSize : Nat} {db next : Sqlite} {op : SqliteOp}

theorem Sqlite.lastSalt1_apply (applied : db.apply pageSize op = some next) :
    db.lastSalt1 ≤ next.lastSalt1 := by
  cases op with
  | append salt2 txn =>
      cases applied
      unfold Sqlite.append
      cases db.wal with
      | none => exact Nat.le_succ _
      | some wal => exact Nat.le_refl _
  | restart salt2 txn =>
      obtain ⟨_, _, _, _, _, _, last, _⟩ := Sqlite.restart_eq_some applied
      omega
  | checkpoint frames =>
      simp only [Sqlite.apply] at applied
      split at applied
      · cases applied
        exact Nat.le_refl _
      · cases applied
  | truncate =>
      cases applied
      exact Nat.le_refl _

/-- The WAL behind an operation goes on with the one before it, or starts a
generation. -/
theorem Sqlite.wal_of_apply {wal : Wal}
    (applied : db.apply pageSize op = some next)
    (present : next.wal = some wal) :
    (next.lastSalt1 = db.lastSalt1 ∧ ∃ before more stale,
        db.wal = some before ∧
          wal = { before with
            frames := before.frames ++ more
            stale := stale }) ∨
      next.lastSalt1 = db.lastSalt1 + 1 ∧ wal.salt1 = db.lastSalt1 + 1 := by
  cases op with
  | append salt2 txn =>
      cases applied
      unfold Sqlite.append at present ⊢
      cases old : db.wal with
      | none =>
          rw [old] at present
          cases present
          exact .inr ⟨rfl, rfl⟩
      | some before =>
          rw [old] at present
          cases present
          exact .inl ⟨rfl, before, txn, _, rfl, rfl⟩
  | restart salt2 txn =>
      obtain ⟨_, _, _, _, _, _, last, _, started⟩ :=
        Sqlite.restart_eq_some applied
      rw [started] at present
      cases present
      exact .inr ⟨last, rfl⟩
  | checkpoint frames =>
      simp only [Sqlite.apply] at applied
      split at applied
      · cases applied
        exact .inl ⟨rfl, wal, [], wal.stale, present, by simp⟩
      · cases applied
  | truncate =>
      cases applied
      cases present

theorem DbOk.apply (positive : 0 < pageSize) (ok : DbOk pageSize db)
    (fits : op.Fits pageSize db) (applied : db.apply pageSize op = some next) :
    DbOk pageSize next := by
  cases op with
  | append salt2 txn =>
      cases applied
      exact ok.append positive salt2 (fits txn rfl)
  | restart salt2 txn => exact (ok.restart (fits txn rfl) applied).1
  | checkpoint frames =>
      simp only [Sqlite.apply] at applied
      split at applied
      · rename_i bounds
        cases applied
        exact (ok.checkpoint positive bounds.2).1
      · cases applied
  | truncate =>
      cases applied
      exact ok.truncate positive

theorem Sqlite.Written.apply (written : db.Written) (fits : op.Fits pageSize db)
    (applied : db.apply pageSize op = some next) : next.Written := by
  intro wal present
  cases op with
  | append salt2 txn =>
      have nonempty := (fits txn rfl).nonempty
      cases applied
      unfold Sqlite.append at present
      cases old : db.wal with
      | none =>
          rw [old] at present
          cases present
          exact nonempty
      | some before =>
          rw [old] at present
          cases present
          exact fun empty => nonempty (List.append_eq_nil_iff.mp empty).2
  | restart salt2 txn =>
      obtain ⟨_, _, _, _, _, _, _, _, started⟩ :=
        Sqlite.restart_eq_some applied
      rw [started] at present
      cases present
      exact (fits txn rfl).nonempty
  | checkpoint frames =>
      simp only [Sqlite.apply] at applied
      split at applied
      · cases applied
        exact written wal present
      · cases applied
  | truncate =>
      cases applied
      cases present

/-- A commit adds at most the frames that it brings. -/
theorem Sqlite.length_apply (applied : db.apply pageSize op = some next) :
    next.frames.length ≤ db.frames.length + (op.txn.getD []).length := by
  cases op with
  | append salt2 txn =>
      cases applied
      rw [Sqlite.frames_append, List.length_append]
      exact Nat.le_refl _
  | restart salt2 txn =>
      obtain ⟨_, _, _, _, _, _, _, _, started⟩ :=
        Sqlite.restart_eq_some applied
      rw [Sqlite.frames_of_wal started]
      exact Nat.le_add_left _ _
  | checkpoint frames =>
      simp only [Sqlite.apply] at applied
      split at applied
      · cases applied
        exact Nat.le_add_right _ _
      · cases applied
  | truncate =>
      cases applied
      exact Nat.zero_le _

end Applying

/-- A well-formed database stays so in every run. -/
theorem DbOk.reaches {pageSize : Nat} {start final : Sqlite}
    (positive : 0 < pageSize) (ok : DbOk pageSize start)
    (run : Reaches (Sqlite.apply pageSize) (fun db op => op.Fits pageSize db)
      start final) : DbOk pageSize final :=
  run.invariant ok fun _ _ _ now fits applied =>
    DbOk.apply positive now fits applied

end Literstream
