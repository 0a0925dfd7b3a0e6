import Literstream.Ltx.Encoder
import Literstream.Lib.OrderedMap

/-!
# The replica client

An object is addressed by its level and its TXID range; the key order is the
order in which the store lists them.  `putLtxCas` is the conditional create
that guards small uploads, `putLtx` overwrites.
-/

namespace Literstream

open Std

/-- The address of an LTX object: `<level>/<min>-<max>.ltx`. -/
structure FileKey where
  level : Nat
  minTxid : Nat
  maxTxid : Nat
deriving DecidableEq, Repr

/-- Level directories first, then the zero-padded range. -/
def FileKey.cmp : FileKey → FileKey → Ordering :=
  compareLex (compareOn FileKey.level)
    (compareLex (compareOn FileKey.minTxid) (compareOn FileKey.maxTxid))

instance : TransCmp FileKey.cmp := by
  unfold FileKey.cmp
  infer_instance

instance : LawfulEqCmp FileKey.cmp where
  eq_of_compare := by
    intro left right equal
    simp only [FileKey.cmp, compareLex, compareOn, Ordering.then_eq_eq,
      LawfulEqCmp.compare_eq_iff_eq] at equal
    obtain ⟨level, minTxid, maxTxid⟩ := equal
    cases left
    cases right
    simp_all

/-- The objects of a replica. -/
abbrev Store := ExtTreeMap FileKey LtxFile FileKey.cmp

/-- The raw, uncompacted level. -/
def level0 : Nat := 0

/-- The level of full database snapshots. -/
def snapshotLevel : Nat := 9

/-- The highest level a restore lists. -/
def maxLevel : Nat := 9

inductive PutOutcome where
  | created
  | alreadyIdentical
  | conflict
deriving DecidableEq, Repr

/-- Upload, overwriting any existing object. -/
def putLtx (store : Store) (key : FileKey) (file : LtxFile) : Store :=
  store.insert key file

/-- Upload with an if-not-exists guard; an existing object is compared and
never overwritten. -/
def putLtxCas (store : Store) (key : FileKey) (file : LtxFile) :
    PutOutcome × Store :=
  match store[key]? with
  | none => (.created, store.insert key file)
  | some existing =>
      if existing = file then (.alreadyIdentical, store)
      else (.conflict, store)

/-- Files of this encoded size or more are uploaded in parts, without the
guard. -/
def multipartThreshold : Nat := 16 * 1024 * 1024

/-- Upload a staged file: small files through the guard, large ones
overwriting. -/
def uploadLtxFile (encodedSize : LtxFile → Nat) (store : Store)
    (key : FileKey) (file : LtxFile) : Except SyncError Store :=
  if multipartThreshold ≤ encodedSize file then .ok (putLtx store key file)
  else
    match putLtxCas store key file with
    | (.conflict, _) => .error (.equivocation key.maxTxid)
    | (_, uploaded) => .ok uploaded

def getLtx (store : Store) (key : FileKey) : Except SyncError LtxFile :=
  match store[key]? with
  | some file => .ok file
  | none => .error .storage

/-- Every object of the levels `0..=maxLevel`, in level order and by TXID
within a level. -/
def listAllLtx (store : Store) : List FileKey :=
  store.keys.filter fun key => key.level ≤ maxLevel

theorem mem_listAllLtx {store : Store} {key : FileKey} :
    key ∈ listAllLtx store ↔
      (∃ file, store[key]? = some file) ∧ key.level ≤ maxLevel := by
  simp [listAllLtx, OrderedMap.mem_iff_exists]

theorem getLtx_eq_ok {store : Store} {key : FileKey} {file : LtxFile} :
    getLtx store key = .ok file ↔ store[key]? = some file := by
  unfold getLtx
  cases store[key]? <;> simp

/-- Uploading under a new address adds the file. -/
theorem uploadLtxFile_of_fresh {encodedSize : LtxFile → Nat} {store : Store}
    {key : FileKey} {file : LtxFile} (fresh : store[key]? = none) :
    uploadLtxFile encodedSize store key file = .ok (store.insert key file) := by
  unfold uploadLtxFile putLtxCas
  split
  · rfl
  · simp [fresh]

/-- Uploading the same file again changes nothing. -/
theorem uploadLtxFile_of_same {encodedSize : LtxFile → Nat} {store : Store}
    {key : FileKey} {file : LtxFile} (held : store[key]? = some file) :
    uploadLtxFile encodedSize store key file = .ok store := by
  unfold uploadLtxFile putLtxCas putLtx
  split
  · congr 1
    apply ExtTreeMap.ext_getElem?
    intro other
    rw [OrderedMap.getElem?_insert]
    split
    · rename_i same
      rw [same, held]
    · rfl
  · simp [held]

/-- A successful upload leaves the file under its address and nothing else
changed. -/
theorem uploadLtxFile_eq_ok {encodedSize : LtxFile → Nat}
    {store uploaded : Store} {key : FileKey} {file : LtxFile}
    (done : uploadLtxFile encodedSize store key file = .ok uploaded) :
    uploaded = store.insert key file := by
  cases held : store[key]? with
  | none =>
      rw [uploadLtxFile_of_fresh held] at done
      cases done
      rfl
  | some existing =>
      by_cases same : existing = file
      · subst same
        rw [uploadLtxFile_of_same held] at done
        cases done
        apply ExtTreeMap.ext_getElem?
        intro other
        rw [OrderedMap.getElem?_insert]
        split
        · rename_i equal
          rw [equal, held]
        · rfl
      · unfold uploadLtxFile putLtxCas at done
        split at done
        · cases done
          rfl
        · simp [held, same] at done

end Literstream
