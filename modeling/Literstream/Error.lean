import Mathlib.Data.List.Basic

/-!
# Errors of the replicator

The constructors and their payloads are those of the source.  Payloads which
only carry text for a person (an operating system message, a SQLite message)
are dropped.
-/

namespace Literstream

/-- Errors of the LTX reader and writer. -/
inductive LtxError where
  | io
  | shortBuffer (need got : Nat)
  | invalidPageSize (size : Nat)
  | zeroPageNumber
  | frameFormatUnsupported
  | unexpectedPage (expected got : Nat)
  | invalidTxidRange (min max : Nat)
  | snapshotPreApplyChecksum
  | pageOutOfOrder (prev pgno : Nat)
  | pageBeyondCommit (pgno commit : Nat)
  | lockPageEncoded (pgno : Nat)
  | wrongPageLength (expected got : Nat)
deriving DecidableEq, Repr

/-- Errors of the WAL reader. -/
inductive WalError where
  | incomplete (need got : Nat)
  | invalidMagic (magic : Nat)
  | unsupportedVersion (version : Nat)
  | invalidPageSize (size : Nat)
  | headerChecksumMismatch
  | unalignedOffset (offset : Nat)
  | prevFrameMismatch
deriving DecidableEq, Repr

/-- Errors of the sync engine. -/
inductive SyncError where
  | io
  | db
  | ltx (error : LtxError)
  | wal (error : WalError)
  | storage
  | noSnapshot
  | equivocation (txid : Nat)
  | txidTooOld (requested : Nat)
  | chainGap (from_ : Nat)
  | invalidCompactionLevels
deriving DecidableEq, Repr

/-- Wrap an LTX failure the way `?` does in the sync engine. -/
def liftLtx {α : Type} : Except LtxError α → Except SyncError α
  | .ok value => .ok value
  | .error error => .error (.ltx error)

@[simp] theorem liftLtx_eq_ok {α : Type} {result : Except LtxError α}
    {value : α} :
    liftLtx result = .ok value ↔ result = .ok value := by
  cases result <;> simp [liftLtx]

theorem exists_of_isOk {ε α : Type} {result : Except ε α}
    (accepted : result.isOk = true) : ∃ value, result = .ok value := by
  cases result with
  | error error => cases accepted
  | ok value => exact ⟨value, rfl⟩

/-- A successful `bind` splits into its two successful halves. -/
theorem bind_eq_ok {ε α β : Type} {first : Except ε α} {next : α → Except ε β}
    {value : β} :
    (first >>= next) = .ok value ↔
      ∃ middle, first = .ok middle ∧ next middle = .ok value := by
  cases first with
  | error error =>
      constructor
      · intro impossible
        cases impossible
      · rintro ⟨middle, impossible, _⟩
        cases impossible
  | ok middle =>
      constructor
      · intro result
        exact ⟨middle, rfl, result⟩
      · rintro ⟨same, equality, result⟩
        cases equality
        exact result

end Literstream
