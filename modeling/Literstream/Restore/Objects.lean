import Literstream.Levels.Represented
import Literstream.Levels.Targets
import Literstream.Ltx.Wire.Panics

/-!
# Restoring from objects

The restores as they work on the bytes that the store holds.  On objects that
encode files they give what the restores from files give.
-/

namespace Literstream

open PagedFile

namespace Objects

/-- Every object of the levels `0..=maxLevel`. -/
def listAllLtx (store : ObjectMap) : List FileKey :=
  store.keys.filter fun key => key.level ≤ maxLevel

/-- Read the objects of a plan one after the other and copy their pages. -/
def applyPlan (lz4 : Wire.Lz4) (store : ObjectMap) :
    List FileKey → Bytes → Except ObjectError Bytes
  | [], image => .ok image
  | key :: rest, image => do
      let bytes ← liftSync (getLtx store key)
      let next ← liftWire (Wire.applyObject lz4 bytes image)
      applyPlan lz4 store rest next

def restore (lz4 : Wire.Lz4) (store : ObjectMap) :
    Except ObjectError Bytes := do
  let plan ← liftSync (planRestore (listAllLtx store))
  applyPlan lz4 store plan []

def restoreToTxid (lz4 : Wire.Lz4) (store : ObjectMap) (target : Nat) :
    Except ObjectError RestoreResult :=
  match planRestoreTo (listAllLtx store) target with
  | .error .noSnapshot => .error (.sync (.txidTooOld target))
  | .error error => .error (.sync error)
  | .ok plan =>
      match plan.getLast? with
      | none => .error (.sync (.txidTooOld target))
      | some last => do
          let image ← applyPlan lz4 store plan []
          return { image := image, txid := last.maxTxid }

/-- A ranged read of the header. -/
def getHeader (store : ObjectMap) (key : FileKey) :
    Except ObjectError Wire.Header := do
  let bytes ← liftSync (getLtx store key)
  liftWire (Wire.Header.decode (bytes.take Wire.headerSize))

def timestampTarget (store : ObjectMap) (timestamp : Int64) :
    List FileKey → Nat → Except ObjectError Nat
  | [], target => .ok target
  | key :: rest, target =>
      if key.maxTxid ≤ target then timestampTarget store timestamp rest target
      else do
        let header ← getHeader store key
        if header.timestamp ≤ timestamp then
          timestampTarget store timestamp rest key.maxTxid
        else timestampTarget store timestamp rest target

def restoreToTimestamp (lz4 : Wire.Lz4) (store : ObjectMap)
    (timestamp : Int64) : Except ObjectError RestoreResult := do
  let target ← timestampTarget store timestamp (listAllLtx store) 0
  if target = 0 then .error (.sync (.txidTooOld 0))
  else restoreToTxid lz4 store target

end Objects

/-! ## One object -/

section Object

variable {lz4 : Wire.Lz4} {file : LtxFile} {bytes : Bytes}

/-- Pages that fit are copied without a panic. -/
theorem placePages_eq_writePages {pageSize commit : Nat}
    {pages : List Wire.WirePage} {image : Bytes}
    (fits : ∀ page ∈ pages, Fits pageSize commit (Wire.plainPage page))
    (whole : image.length = commit * pageSize) :
    Wire.placePages pageSize pages image =
      .ok (writePages pageSize (pages.map Wire.plainPage) image) := by
  induction pages generalizing image with
  | nil => rfl
  | cons page rest ih =>
      obtain ⟨pgno, data⟩ := page
      have own : Fits pageSize commit (pgno.toNat, data) :=
        fits (pgno, data) List.mem_cons_self
      have ⟨positive, inside, length⟩ := own
      dsimp only at positive inside length
      have room : (pgno.toNat - 1) * pageSize + pageSize ≤ image.length := by
        rw [whole, ← Nat.succ_mul]
        exact Nat.mul_le_mul_right _ (by omega)
      have next := length_writeAt_page own whole
      rw [Wire.placePages, if_neg (by omega), if_neg (by omega),
        ih (fun other member => fits other (List.mem_cons_of_mem _ member))
          next, List.map_cons, Wire.plainPage, writePages]

/-- Applying an object is applying the file that it encodes. -/
theorem applyObject_eq_applyFile (givesBack : lz4.GivesBack) (image : Bytes)
    (encodes : Wire.Encodes lz4 file bytes) :
    Wire.applyObject lz4 bytes image = .ok (applyFile image file) := by
  obtain ⟨decoded, read, headerIs, pagesAre⟩ := encodes.readFile givesBack
  have fits := file.fits
  rw [headerIs, pagesAre] at fits
  rw [Wire.applyObject, read, applyFile, headerIs, pagesAre]
  exact placePages_eq_writePages (fun page member =>
    fits _ (List.mem_map_of_mem member)) (length_setLen _ _)

end Object

/-! ## The whole replica -/

namespace Objects

@[simp] theorem liftSync_ok {α : Type} (value : α) :
    liftSync (.ok value) = .ok value := rfl

@[simp] theorem liftWire_ok {α : Type} (value : α) :
    liftWire (.ok value) = .ok value := rfl

theorem liftSync_eq_ok {α : Type} {result : Except SyncError α} {value : α} :
    liftSync result = .ok value ↔ result = .ok value := by
  cases result <;> simp [liftSync]

theorem liftSync_bind {α β : Type} (first : Except SyncError α)
    (next : α → Except SyncError β) :
    liftSync (first >>= next) =
      liftSync first >>= fun value => liftSync (next value) := by
  cases first <;> rfl

end Objects

section Holds

variable {lz4 : Wire.Lz4} {pageSize : Nat} {objects : ObjectMap}
  {store : Store}

theorem HoldsFiles.mem_iff (holds : HoldsFiles lz4 pageSize objects store)
    (key : FileKey) : key ∈ objects ↔ key ∈ store := by
  rw [OrderedMap.mem_iff_exists, OrderedMap.mem_iff_exists]
  have held := holds key
  cases found : objects[key]? with
  | none =>
      rw [found] at held
      cases model : store[key]? with
      | none => simp
      | some file =>
          rw [model] at held
          cases held
  | some bytes =>
      rw [found] at held
      cases model : store[key]? with
      | none =>
          rw [model] at held
          cases held
      | some file => simp

/-- Both replicas list the same addresses. -/
theorem HoldsFiles.keys_eq (holds : HoldsFiles lz4 pageSize objects store) :
    objects.keys = store.keys := by
  have same : objects.keys.Perm store.keys := by
    apply (List.perm_ext_iff_of_nodup objects.nodup_keys
      store.nodup_keys).mpr
    intro key
    rw [Std.ExtTreeMap.mem_keys, Std.ExtTreeMap.mem_keys]
    exact holds.mem_iff key
  apply same.eq_of_pairwise _ objects.ordered_keys store.ordered_keys
  intro left right _ _ below above
  have less := Std.TransCmp.lt_trans below above
  have same : FileKey.cmp left left = .eq := Std.ReflCmp.compare_self
  rw [same] at less
  cases less

theorem HoldsFiles.list_eq (holds : HoldsFiles lz4 pageSize objects store) :
    Objects.listAllLtx objects = listAllLtx store := by
  rw [Objects.listAllLtx, listAllLtx, holds.keys_eq]

/-- An object is found exactly where a file is, and encodes it. -/
theorem HoldsFiles.getLtx (holds : HoldsFiles lz4 pageSize objects store)
    (key : FileKey) :
    (Objects.getLtx objects key = .error .storage ∧
      getLtx store key = .error .storage) ∨
    ∃ bytes file, Objects.getLtx objects key = .ok bytes ∧
      getLtx store key = .ok file ∧ StoredAs lz4 pageSize bytes file := by
  have held := holds key
  unfold Objects.getLtx Literstream.getLtx
  cases found : objects[key]? with
  | none =>
      rw [found] at held
      cases model : store[key]? with
      | none => exact .inl ⟨rfl, rfl⟩
      | some file =>
          rw [model] at held
          cases held
  | some bytes =>
      rw [found] at held
      cases model : store[key]? with
      | none =>
          rw [model] at held
          cases held
      | some file =>
          rw [model] at held
          cases held with
          | some stored => exact .inr ⟨bytes, file, rfl, rfl, stored⟩

theorem HoldsFiles.applyPlan (givesBack : lz4.GivesBack)
    (holds : HoldsFiles lz4 pageSize objects store) (plan : List FileKey)
    (image : Bytes) :
    Objects.applyPlan lz4 objects plan image =
      Objects.liftSync (applyPlan store plan image) := by
  induction plan generalizing image with
  | nil => rfl
  | cons key rest ih =>
      rw [Objects.applyPlan, Literstream.applyPlan]
      rcases holds.getLtx key with ⟨own, model⟩ |
        ⟨bytes, file, own, model, stored⟩
      · rw [own, model]
        rfl
      · rw [own, model]
        change (Objects.liftWire (Wire.applyObject lz4 bytes image) >>= _) = _
        rw [applyObject_eq_applyFile givesBack image stored.1]
        exact ih _

theorem HoldsFiles.restore (givesBack : lz4.GivesBack)
    (holds : HoldsFiles lz4 pageSize objects store) :
    Objects.restore lz4 objects = Objects.liftSync (restore store) := by
  rw [Objects.restore, Literstream.restore, holds.list_eq,
    Objects.liftSync_bind]
  congr 1
  funext plan
  exact holds.applyPlan givesBack plan []

theorem HoldsFiles.restoreToTxid (givesBack : lz4.GivesBack)
    (holds : HoldsFiles lz4 pageSize objects store) (target : Nat) :
    Objects.restoreToTxid lz4 objects target =
      Objects.liftSync (restoreToTxid store target) := by
  rw [Objects.restoreToTxid, Literstream.restoreToTxid, holds.list_eq]
  cases planned : planRestoreTo (Literstream.listAllLtx store) target with
  | error error => cases error <;> rfl
  | ok plan =>
      cases isLast : plan.getLast? with
      | none => simp only [isLast]; rfl
      | some last =>
          simp only [isLast]
          rw [holds.applyPlan givesBack, Objects.liftSync_bind]
          rfl

theorem HoldsFiles.getHeader
    (holds : HoldsFiles lz4 pageSize objects store) (key : FileKey) :
    (Objects.getHeader objects key = .error (.sync .storage) ∧
      Literstream.getLtx store key = .error .storage) ∨
    ∃ header file, Objects.getHeader objects key = .ok header ∧
      Literstream.getLtx store key = .ok file ∧
      file.header = header.plain ∧ file.header.pageSize = pageSize := by
  rcases holds.getLtx key with ⟨own, model⟩ |
    ⟨bytes, file, own, model, ⟨encodes, sized⟩⟩
  · refine .inl ⟨?_, model⟩
    rw [Objects.getHeader, own]
    rfl
  · obtain ⟨header, pages, trailer, index, finished, headerIs, _⟩ := encodes
    refine .inr ⟨header, file, ?_, model, headerIs, sized⟩
    obtain ⟨rest, start⟩ := finished.starts
    have front : bytes.take Wire.headerSize = header.encode ++ [] := by
      rw [start, List.append_nil]
      exact List.take_left' (Wire.Header.length_encode header)
    rw [Objects.getHeader, own]
    change Objects.liftWire (Wire.Header.decode _) = _
    rw [front, Wire.Header.decode_encode [] finished.sized]
    rfl

theorem HoldsFiles.timestampTarget
    (holds : HoldsFiles lz4 pageSize objects store) (timestamp : Int64)
    (keys : List FileKey) (target : Nat) :
    Objects.timestampTarget objects timestamp keys target =
      Objects.liftSync
        (timestampTarget store timestamp.toInt keys target) := by
  induction keys generalizing target with
  | nil => rfl
  | cons key rest ih =>
      rw [Objects.timestampTarget, Literstream.timestampTarget]
      split
      · exact ih target
      · rcases holds.getHeader key with ⟨own, model⟩ |
          ⟨header, file, own, model, headerIs, _⟩
        · rw [own, model]
          rfl
        · have stamp : header.timestamp ≤ timestamp ↔
              file.header.timestamp ≤ timestamp.toInt := by
            rw [headerIs]
            exact Int64.le_iff_toInt_le
          rw [own, model]
          change (if header.timestamp ≤ timestamp then _ else _) =
            Objects.liftSync (if file.header.timestamp ≤ timestamp.toInt
              then _ else _)
          split
          · rename_i early
            rw [if_pos (stamp.mp early)]
            exact ih _
          · rename_i late
            rw [if_neg fun early => late (stamp.mpr early)]
            exact ih _

theorem HoldsFiles.restoreToTimestamp (givesBack : lz4.GivesBack)
    (holds : HoldsFiles lz4 pageSize objects store) (timestamp : Int64) :
    Objects.restoreToTimestamp lz4 objects timestamp =
      Objects.liftSync (restoreToTimestamp store timestamp.toInt) := by
  rw [Objects.restoreToTimestamp, Literstream.restoreToTimestamp,
    holds.list_eq, holds.timestampTarget, Objects.liftSync_bind]
  congr 1
  funext target
  split
  · rfl
  · exact holds.restoreToTxid givesBack target

end Holds

/-! ## Runs -/

/-- In every state reached by synchronisation, level compaction, snapshots and
retention, with bytes in place of files from the encoder to the decoder, the
replica restores the last synced image, and every point in time exactly. -/
theorem objects_restore {lz4 : Wire.Lz4} {history : History}
    {objects : Objects} (givesBack : lz4.GivesBack)
    (oneSize : ∀ left right, history.pageSize left = history.pageSize right)
    (run : Machine.Reaches (Objects.step lz4) (history.cascadesObjects lz4)
      Objects.empty objects) (synced : 0 < objects.txid) :
    Objects.restore lz4 objects.store = .ok (history.image objects.txid) ∧
    (∀ target result,
      Objects.restoreToTxid lz4 objects.store target = .ok result →
        result.txid ≤ target ∧ result.image = history.image result.txid) ∧
    ∀ timestamp result,
      Objects.restoreToTimestamp lz4 objects.store timestamp = .ok result →
        result.image = history.image result.txid := by
  obtain ⟨state, reached, carries⟩ := represents_of_run (fun _ => 0) givesBack
    (fun txid => oneSize txid 0) run
  have ok := ReplicaOk.of_reaches reached
  rw [carries.txid] at synced ⊢
  obtain ⟨_, latest, earlier⟩ := ok.restores synced oneSize
  refine ⟨?_, ?_, ?_⟩
  · rw [carries.store.restore givesBack, latest]
    rfl
  · intro target result done
    rw [carries.store.restoreToTxid givesBack] at done
    exact earlier target result (Objects.liftSync_eq_ok.mp done)
  · intro timestamp result done
    rw [carries.store.restoreToTimestamp givesBack] at done
    obtain ⟨target, _, restored⟩ := bind_eq_ok.mp (Objects.liftSync_eq_ok.mp done)
    split at restored
    · cases restored
    · exact (earlier target result restored).2

/-! ## A sample run -/

/-- What a step of the small database writes. -/
def hotFile (txid : Nat) (positive : 1 ≤ txid ∧ txid ≤ txid) : LtxFile :=
  hotPage.file txid txid 0 rfl positive

def hotHeader (txid : Nat) : Wire.Header :=
  Wire.mergedHeader 512 2 (UInt64.ofNat txid) (UInt64.ofNat txid) 0

def hotCalls (txid : Nat) (positive : 1 ≤ txid ∧ txid ≤ txid) :
    List Wire.Call :=
  (hotFile txid positive).pages.map fun page =>
    .encodePage (UInt32.ofNat page.1) page.2

def writtenBytes : Except Wire.WireError (Bytes × Wire.Trailer) → Bytes
  | .ok (bytes, _) => bytes
  | .error _ => []

def hotBytes (txid : Nat) (positive : 1 ≤ txid ∧ txid ≤ txid) : Bytes :=
  writtenBytes (Wire.encodeFile Wire.storedLz4 (hotHeader txid)
    (hotCalls txid positive))

theorem hotFile_synced {txid : Nat} (positive : 1 ≤ txid ∧ txid ≤ txid) :
    hotPage.SyncedFile txid (hotFile txid positive) where
  faithful := hotPage.faithful_file rfl positive
  minTxid := rfl
  maxTxid := rfl

theorem hotBytes_synced {txid : Nat} {positive : 1 ≤ txid ∧ txid ≤ txid}
    (accepted : (Wire.encodeFile Wire.storedLz4 (hotHeader txid)
      (hotCalls txid positive)).isOk = true)
    (built : encodeFile (hotHeader txid).plain
      ((Wire.pagesOf (hotCalls txid positive)).map Wire.plainPage) =
        .ok (hotFile txid positive)) :
    hotPage.SyncedBytes Wire.storedLz4 txid (hotBytes txid positive) := by
  obtain ⟨⟨bytes, trailer⟩, encoded⟩ := exists_of_isOk accepted
  have same : hotBytes txid positive = bytes := congrArg writtenBytes encoded
  rw [same]
  exact ⟨⟨_, _, trailer, _, encoded, built, hotFile_synced positive⟩⟩

theorem hotBytes_one :
    hotPage.SyncedBytes Wire.storedLz4 1 (hotBytes 1 History.range_one) :=
  hotBytes_synced (by decide +kernel) (by decide +kernel)

theorem hotBytes_two :
    hotPage.SyncedBytes Wire.storedLz4 2 (hotBytes 2 History.range_two) :=
  hotBytes_synced (by decide +kernel) (by decide +kernel)

def Objects.after (objects : Objects) (action : ObjectAction) : Objects :=
  { (action.call.run Wire.storedLz4
      { objects with faults := action.faults }).2 with faults := [] }

/-- One step, and the next one while the store fails. -/
def failedObjects : Objects :=
  (Objects.empty.after ⟨[], .sync 0 (hotBytes 1 History.range_one)⟩).after
    ⟨[true], .sync 0 (hotBytes 2 History.range_two)⟩

/-- The step again, and both steps merged into L1. -/
def mergedObjects : Objects :=
  (failedObjects.after ⟨[], .sync 0 (hotBytes 2 History.range_two)⟩).after
    ⟨[], .compactLevel 0 1⟩

/-- A snapshot and an L0 retention behind that. -/
def retriedObjects : Objects :=
  (mergedObjects.after ⟨[], .snapshot 0⟩).after ⟨[], .enforceL0Retention 10 1⟩

theorem reaches_after {objects : Objects} {action : ObjectAction}
    (reached : Machine.Reaches (Objects.step Wire.storedLz4)
      (hotPage.cascadesObjects Wire.storedLz4) Objects.empty objects)
    (allowed : hotPage.cascadesObjects Wire.storedLz4 objects action) :
    Machine.Reaches (Objects.step Wire.storedLz4)
      (hotPage.cascadesObjects Wire.storedLz4) Objects.empty
      (objects.after action) :=
  reached.tail allowed rfl

theorem syncs_allowed {objects : Objects} {faults : List Bool} {clock : Int}
    {txid : Nat} {bytes : Bytes} (next : objects.txid + 1 = txid)
    (synced : hotPage.SyncedBytes Wire.storedLz4 txid bytes) :
    hotPage.cascadesObjects Wire.storedLz4 objects
      ⟨faults, .sync clock bytes⟩ := by
  rw [← next] at synced
  exact synced

theorem retriedObjects_reached :
    Machine.Reaches (Objects.step Wire.storedLz4)
      (hotPage.cascadesObjects Wire.storedLz4) Objects.empty
      retriedObjects := by
  have first : (Objects.empty.after
      ⟨[], .sync 0 (hotBytes 1 History.range_one)⟩).txid + 1 = 2 := by
    decide +kernel
  have second : failedObjects.txid + 1 = 2 := by decide +kernel
  have failed : Machine.Reaches (Objects.step Wire.storedLz4)
      (hotPage.cascadesObjects Wire.storedLz4) Objects.empty failedObjects :=
    reaches_after (reaches_after .refl (syncs_allowed rfl hotBytes_one))
      (syncs_allowed first hotBytes_two)
  have merged : Machine.Reaches (Objects.step Wire.storedLz4)
      (hotPage.cascadesObjects Wire.storedLz4) Objects.empty mergedObjects :=
    reaches_after
      (reaches_after failed (syncs_allowed second hotBytes_two)) trivial
  have clock : nowMs 0 < 2 ^ 63 := by decide
  exact reaches_after (reaches_after merged clock) trivial

theorem objects_restore_retried :
    retriedObjects.store.keys =
        [⟨level0, 2, 2⟩, ⟨1, 1, 2⟩, ⟨snapshotLevel, 1, 2⟩] ∧
    Objects.restore Wire.storedLz4 retriedObjects.store =
        .ok (hotPage.image retriedObjects.txid) ∧
    (∀ target result,
      Objects.restoreToTxid Wire.storedLz4 retriedObjects.store target =
          .ok result →
        result.txid ≤ target ∧ result.image = hotPage.image result.txid) ∧
    ∀ timestamp result,
      Objects.restoreToTimestamp Wire.storedLz4 retriedObjects.store
          timestamp = .ok result →
        result.image = hotPage.image result.txid :=
  ⟨by decide +kernel,
    objects_restore Wire.storedLz4_givesBack (fun _ _ => rfl)
      retriedObjects_reached (by decide +kernel)⟩

end Literstream
