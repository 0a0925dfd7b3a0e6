import Literstream.Lib.Mimics
import Literstream.Levels.Objects
import Literstream.Levels.Replication

/-!
# Objects represent files

Every call on objects is mimicked by the call on the files that they encode, so
every run on objects is a run on files.
-/

namespace Literstream

open Fallible

/-! ## What the objects carry -/

/-- A stored object encodes a stored file of the page size. -/
def StoredAs (lz4 : Wire.Lz4) (pageSize : Nat) (bytes : Bytes)
    (file : LtxFile) : Prop :=
  Wire.Encodes lz4 file bytes ∧ file.header.pageSize = pageSize

/-- The objects encode the files, address by address. -/
def HoldsFiles (lz4 : Wire.Lz4) (pageSize : Nat) (objects : ObjectMap)
    (store : Store) : Prop :=
  ∀ key : FileKey, Option.Rel (StoredAs lz4 pageSize) objects[key]? store[key]?

/-- The replica of objects encodes the replica of files. -/
structure Objects.Carries (lz4 : Wire.Lz4) (pageSize : Nat)
    (objects : Objects) (state : Levels) : Prop where
  store : HoldsFiles lz4 pageSize objects.store state.store
  files : objects.files = state.files
  txid : objects.txid = state.txid
  words : ∀ key ∈ state.files, key.maxTxid < 2 ^ 64

/-- Schedule the store operations that fail. -/
def Levels.arm (faults : List Bool) (state : Levels) : Levels :=
  { state with faults := faults }

section Mimics

variable {lz4 : Wire.Lz4} {pageSize : Nat} {objects : Objects}
  {state : Levels}

abbrev Copies (lz4 : Wire.Lz4) (pageSize : Nat) {α β : Type}
    (answers : α → β → Prop) (program : Objects.Call α)
    (model : Call β) (objects : Objects) (state : Levels) : Prop :=
  Mimics Levels.arm (Objects.Carries lz4 pageSize) answers program model
    objects state

/-- Under a schedule without faults an operation succeeds. -/
theorem attempt_ends (state : Levels) :
    Ends Levels.arm attempt state (.ok ()) state :=
  ⟨[false], fun _ => rfl⟩

theorem attempt_fails (state : Levels) :
    Ends Levels.arm attempt state (.error .storage) state :=
  ⟨[true], fun _ => rfl⟩

theorem Objects.Carries.armed (carries : objects.Carries lz4 pageSize state)
    (faults : List Bool) :
    ({ objects with faults := faults } : Objects).Carries lz4 pageSize state :=
  ⟨carries.store, carries.files, carries.txid, carries.words⟩

/-- An operation that fails or succeeds leaves the replica as it is. -/
theorem attempt_keeps (property : Objects → Levels → Prop)
    (carries : objects.Carries lz4 pageSize state)
    (kept : ∀ faults, property { objects with faults := faults } state)
    (initial : property objects state) :
    Mimics Levels.arm (fun after next => after.Carries lz4 pageSize next ∧
      property after next) (fun _ _ => True) Objects.attempt attempt objects
      state := by
  obtain ⟨store, files, txid, faults⟩ := objects
  cases faults with
  | nil =>
      exact ⟨_, _, attempt_ends state, .ok trivial, carries, initial⟩
  | cons fails rest =>
      cases fails with
      | false =>
          exact ⟨_, _, attempt_ends state, .ok trivial, carries.armed rest,
            kept rest⟩
      | true =>
          exact ⟨_, _, attempt_fails state, .error, carries.armed rest,
            kept rest⟩

theorem attempt_mimics (carries : objects.Carries lz4 pageSize state) :
    Copies lz4 pageSize (fun _ _ => True) Objects.attempt attempt objects
      state := by
  apply (attempt_keeps (fun _ _ => True) carries (fun _ => trivial)
    trivial).weaken
  · exact fun _ _ kept => kept.1
  · exact fun _ _ _ => trivial

theorem fetchLtx_mimics (key : FileKey)
    (carries : objects.Carries lz4 pageSize state) :
    Copies lz4 pageSize (StoredAs lz4 pageSize) (Objects.fetchLtx key)
      (fetchLtx key) objects state := by
  apply (attempt_mimics carries).bind fun _ _ still => still
  intro _ _ objects state _ carries
  apply mimics_current fun _ => rfl
  apply mimics_ofExcept _ carries
  have held := carries.store key
  unfold Objects.getLtx getLtx
  cases found : objects.store[key]? with
  | none =>
      rw [found] at held
      cases model : state.store[key]? with
      | none => exact .error
      | some file =>
          rw [model] at held
          cases held
  | some bytes =>
      rw [found] at held
      cases model : state.store[key]? with
      | none =>
          rw [model] at held
          cases held
      | some file =>
          rw [model] at held
          cases held with
          | some stored => exact .ok stored

theorem deleteFile_mimics (file : LtxFileInfo)
    (carries : objects.Carries lz4 pageSize state) :
    Copies lz4 pageSize (fun _ _ => True) (Objects.deleteFile file)
      (deleteFile file) objects state := by
  have deleted : Copies lz4 pageSize (fun _ _ => True)
      (Objects.deleteLtx file.toFileKey) (deleteLtx file.toFileKey) objects
      state := by
    apply (attempt_mimics carries).bind fun _ _ still => still
    intro _ _ objects state _ carries
    refine mimics_change trivial (fun _ => rfl)
      ⟨?_, carries.files, carries.txid, carries.words⟩
    intro other
    dsimp only
    rw [OrderedMap.getElem?_erase, OrderedMap.getElem?_erase]
    split
    · exact .none
    · exact carries.store other
  apply deleted.bind fun _ _ still => still
  intro _ _ objects state _ carries
  refine mimics_change trivial (fun _ => rfl)
    ⟨carries.store, ?_, carries.txid, ?_⟩
  · dsimp only
    rw [carries.files]
  · intro other member
    exact carries.words other ((OrderedMap.mem_erase _ _ _).mp member).2

theorem deleteFiles_mimics (files : List LtxFileInfo)
    (carries : objects.Carries lz4 pageSize state) :
    Copies lz4 pageSize (fun _ _ => True)
      (forEach Objects.deleteFile files) (forEach deleteFile files) objects
      state :=
  mimics_forEach (fun file _ _ still => deleteFile_mimics file still) files
    carries

/-- What is uploaded under one address on both sides. -/
theorem Objects.Carries.put {key : FileKey} {bytes : Bytes} {file : LtxFile}
    (carries : objects.Carries lz4 pageSize state)
    (stored : StoredAs lz4 pageSize bytes file) :
    ∀ other : FileKey, Option.Rel (StoredAs lz4 pageSize)
      (objects.store.insert key bytes)[other]?
      (state.store.insert key file)[other]? := by
  intro other
  rw [OrderedMap.getElem?_insert, OrderedMap.getElem?_insert]
  split
  · exact .some stored
  · exact carries.store other

theorem Objects.Carries.index {key : FileKey} (clock : Int)
    (carries : objects.Carries lz4 pageSize state)
    (word : key.maxTxid < 2 ^ 64) :
    objects.files.insert key (some clock) =
        state.files.insert key (some clock) ∧
      ∀ other ∈ state.files.insert key (some clock),
        other.maxTxid < 2 ^ 64 := by
  constructor
  · rw [carries.files]
  · intro other member
    rcases (OrderedMap.mem_insert _ _ _ _).mp member with same | old
    · rw [same]
      exact word
    · exact carries.words other old

theorem uploadMerged_mimics (clock : Int) {key : FileKey} {bytes : Bytes}
    {file : LtxFile} (carries : objects.Carries lz4 pageSize state)
    (stored : StoredAs lz4 pageSize bytes file)
    (word : key.maxTxid < 2 ^ 64) :
    Copies lz4 pageSize (fun _ _ => True)
      (Objects.uploadMerged clock key bytes) (uploadMerged clock key file)
      objects state := by
  apply (attempt_mimics carries).bind fun _ _ still => still
  intro _ _ objects state _ carries
  have placed : Copies lz4 pageSize (fun _ _ => True)
      (change fun state =>
        { state with store := Objects.putLtx state.store key bytes })
      (change fun state =>
        { state with store := putLtx state.store key file }) objects state :=
    mimics_change trivial (fun _ => rfl)
      ⟨carries.put stored, carries.files, carries.txid, carries.words⟩
  apply placed.bind fun _ _ still => still
  intro _ _ objects state _ carries
  obtain ⟨files, words⟩ := carries.index clock word
  exact mimics_change trivial (fun _ => rfl)
    ⟨carries.store, files, carries.txid, words⟩

/-! ### Merges -/

/-- An upload that has not begun can still fail. -/
theorem uploadMerged_fails (clock : Int) (key : FileKey) (file : LtxFile)
    (state : Levels) :
    Ends Levels.arm (uploadMerged clock key file) state (.error .storage)
      state :=
  (attempt_fails state).bind_error

theorem ofExcept_fails {α β : Type} (result : Except SyncError α)
    {next : α → Call β}
    (fails : ∀ value, result = .ok value → ∃ error,
      Ends Levels.arm (next value) state (.error error) state) :
    ∃ error, Ends Levels.arm (ofExcept result >>= next) state (.error error)
      state := by
  cases finished : result with
  | error error => exact ⟨error, ends_of_eq fun _ => rfl⟩
  | ok value =>
      obtain ⟨error, ends⟩ := fails value finished
      exact ⟨error, Ends.bind (ends_of_eq fun _ => rfl) ends⟩

theorem compactAndUpload_mimics (givesBack : lz4.GivesBack) (clock : Int)
    {key : FileKey} {inputs : List Bytes} {files : List LtxFile}
    (carries : objects.Carries lz4 pageSize state)
    (stored : List.Forall₂ (StoredAs lz4 pageSize) inputs files)
    (word : key.maxTxid < 2 ^ 64) :
    Copies lz4 pageSize (fun _ _ => True)
      (Objects.compactAndUpload lz4 clock key inputs)
      (compactAndUpload clock key files) objects state := by
  have encoded : List.Forall₂ (Wire.Encodes lz4) files inputs :=
    stored.flip.imp fun _ _ held => held.1
  unfold Objects.compactAndUpload compactAndUpload
  cases compacted : Wire.compactToWriter lz4 inputs with
  | error error =>
      obtain ⟨_, ends⟩ := @ofExcept_fails state LtxFile Unit
        (liftLtx (compactToWriter files)) (uploadMerged clock key)
        fun merged _ => ⟨_, uploadMerged_fails clock key merged state⟩
      exact mimics_of_error rfl ends carries
  | ok output =>
      obtain ⟨file, built, encodes, first, member, sized⟩ :=
        Wire.compact_encodes givesBack encoded compacted
      obtain ⟨_, _, held⟩ := Wire.exists_of_mem_right stored member
      rw [built]
      have same : StoredAs lz4 pageSize output file :=
        ⟨encodes, sized.trans held.2⟩
      have done : Copies lz4 pageSize (fun bytes file =>
          StoredAs lz4 pageSize bytes file)
          (ofExcept (Objects.liftWire (.ok output)))
          (ofExcept (liftLtx (.ok file))) objects state :=
        mimics_ofExcept (.ok same) carries
      apply done.bind fun _ _ still => still
      intro _ _ objects state same carries
      exact uploadMerged_mimics clock carries same word

theorem fetches_mimic (keys : List FileKey)
    (carries : objects.Carries lz4 pageSize state) :
    Copies lz4 pageSize (fun inputs files =>
        List.Forall₂ (StoredAs lz4 pageSize) inputs files ∧
          inputs.length = keys.length)
      (collect Objects.fetchLtx keys) (collect fetchLtx keys) objects state :=
  mimics_collect (fun key _ _ still => fetchLtx_mimics key still) keys carries

theorem compactLevel_mimics (givesBack : lz4.GivesBack) (clock : Int)
    (dstLevel : Nat) (carries : objects.Carries lz4 pageSize state) :
    Copies lz4 pageSize Eq (Objects.compactLevel lz4 clock dstLevel)
      (compactLevel clock dstLevel) objects state := by
  unfold Objects.compactLevel compactLevel
  split
  · exact mimics_ofExcept .error carries
  · apply mimics_current fun _ => rfl
    dsimp only
    rw [carries.files]
    generalize listed : (state.files.list (dstLevel - 1)).filter _ = src
    cases isFirst : src.head? with
    | none => exact mimics_pure rfl carries
    | some first =>
        cases isLast : src.getLast? with
        | none => exact mimics_pure rfl carries
        | some last =>
            have inside := List.mem_of_getLast? isLast
            rw [← listed] at inside
            have word : (⟨dstLevel, first.minTxid, last.maxTxid⟩ :
                FileKey).maxTxid < 2 ^ 64 :=
              carries.words last.toFileKey
                (FileIndex.mem_of_list (List.mem_filter.mp inside).1)
            have fetched : Copies lz4 pageSize (fun inputs files =>
                List.Forall₂ (StoredAs lz4 pageSize) inputs files ∧
                  inputs.length = src.length)
                (collect (fun file : LtxFileInfo =>
                  Objects.fetchLtx file.toFileKey) src)
                (collect (fun file : LtxFileInfo =>
                  fetchLtx file.toFileKey) src) objects state :=
              mimics_collect (fun file _ _ still =>
                fetchLtx_mimics file.toFileKey still) src carries
            apply fetched.bind fun _ _ still => still
            rintro inputs files objects state ⟨stored, _⟩ carries
            apply (compactAndUpload_mimics givesBack clock carries stored
              word).bind fun _ _ still => still
            intro _ _ objects state _ carries
            refine mimics_pure ?_ carries
            rw [stored.length_eq]

theorem getLast?_of_forall₂ {α β : Type} {related : α → β → Prop}
    {left : List α} {right : List β} {last : α}
    (pairs : List.Forall₂ related left right)
    (isLast : left.getLast? = some last) :
    ∃ other, right.getLast? = some other ∧ related last other := by
  have reversed := List.forall₂_reverse_iff.mpr pairs
  rw [← List.head?_reverse] at isLast ⊢
  obtain ⟨rest, headed⟩ := List.head?_eq_some_iff.mp isLast
  rw [headed] at reversed
  cases behind : right.reverse with
  | nil =>
      rw [behind] at reversed
      cases reversed
  | cons other others =>
      rw [behind] at reversed
      cases reversed with
      | cons same _ => exact ⟨other, rfl, same⟩

/-- A snapshot of objects encodes the snapshot of the files. -/
theorem mergeSnapshot_encodes (givesBack : lz4.GivesBack) {clock : Int}
    {maxTxid : Nat} {inputs : List Bytes} {files : List LtxFile}
    {output : Bytes} (stored : List.Forall₂ (StoredAs lz4 pageSize) inputs files)
    (word : maxTxid < 2 ^ 64) (counted : nowMs clock < 2 ^ 63)
    (merged : Objects.mergeSnapshot lz4 clock maxTxid inputs = .ok output) :
    ∃ newest file, files.getLast? = some newest ∧
      mergeToWriter files (noChecksumHeader newest.header.pageSize
        newest.header.commit 1 maxTxid (nowMs clock) 0 0 0 0) = .ok file ∧
      StoredAs lz4 pageSize output file := by
  have encoded : List.Forall₂ (Wire.Encodes lz4) files inputs :=
    stored.flip.imp fun _ _ held => held.1
  have sizes : ∀ file ∈ files, file.header.pageSize = pageSize := by
    intro file member
    obtain ⟨_, _, held⟩ := Wire.exists_of_mem_right stored member
    exact held.2
  unfold Objects.mergeSnapshot at merged
  split at merged
  · cases merged
  · rename_i bytes isLast
    obtain ⟨header, decoded, merged⟩ := bind_eq_ok.mp merged
    obtain ⟨newest, newestLast, newestStored⟩ :=
      getLast?_of_forall₂ stored isLast
    obtain ⟨own, pages, reads⟩ := newestStored.1.reads givesBack
    rw [reads.decoded] at decoded
    cases decoded
    have sized : header.pageSize.toNat = pageSize := by
      rw [← newestStored.2, reads.headerIs]
      rfl
    obtain ⟨file, built, encodes⟩ := Wire.merge_encodes givesBack encoded merged
      fun file member => (sizes file member).trans sized.symm
    have same : (UInt64.ofNat maxTxid).toNat = maxTxid := by
      rw [UInt64.toNat_ofNat']
      exact Nat.mod_eq_of_lt word
    have stamp : (Int64.ofInt (nowMs clock)).toInt = nowMs clock := by
      have positive : 0 ≤ nowMs clock := by
        unfold nowMs
        split <;> omega
      rw [Int64.toInt_ofInt]
      exact Int.bmod_eq_of_le (by simp only [Int64.size]; omega)
        (by simp only [Int64.size]; omega)
    rw [Wire.mergedHeader_plain, same, stamp] at built
    refine ⟨newest, file, newestLast, ?_, encodes, ?_⟩
    · rw [reads.headerIs]
      exact built
    · rw [(mergeToWriter_eq_ok built).1]
      exact sized

theorem planRestore_ne_nil {files plan : List FileKey}
    (planned : planRestore files = .ok plan) : plan ≠ [] := by
  unfold planRestore at planned
  split at planned
  · rename_i starts
    cases planned
    intro empty
    rw [empty] at starts
    cases starts
  · cases planned

theorem snapshotMerge_mimics (givesBack : lz4.GivesBack) (clock : Int)
    {maxTxid : Nat} {inputs : List Bytes} {files : List LtxFile}
    {value : Option CompactionInfo}
    (carries : objects.Carries lz4 pageSize state)
    (stored : List.Forall₂ (StoredAs lz4 pageSize) inputs files)
    (nonempty : files ≠ []) (word : maxTxid < 2 ^ 64)
    (counted : nowMs clock < 2 ^ 63) :
    Copies lz4 pageSize Eq
      (do
        let merged ← ofExcept (Objects.liftWire
          (Objects.mergeSnapshot lz4 clock maxTxid inputs))
        Objects.uploadMerged clock ⟨snapshotLevel, 1, maxTxid⟩ merged
        return value)
      (match files.getLast? with
        | none => return none
        | some newest => do
            let merged ← ofExcept (liftLtx (mergeToWriter files
              (noChecksumHeader newest.header.pageSize newest.header.commit 1
                maxTxid (nowMs clock) 0 0 0 0)))
            uploadMerged clock ⟨snapshotLevel, 1, maxTxid⟩ merged
            return value) objects state := by
  obtain ⟨newest, isLast⟩ : ∃ newest, files.getLast? = some newest :=
    ⟨_, List.getLast?_eq_some_getLast nonempty⟩
  rw [isLast]
  cases merged : Objects.mergeSnapshot lz4 clock maxTxid inputs with
  | error error =>
      obtain ⟨_, ends⟩ := @ofExcept_fails state LtxFile
        (Option CompactionInfo)
        (liftLtx (mergeToWriter files
          (noChecksumHeader newest.header.pageSize newest.header.commit 1
            maxTxid (nowMs clock) 0 0 0 0)))
        (fun merged => do
          uploadMerged clock ⟨snapshotLevel, 1, maxTxid⟩ merged
          return value)
        fun file _ => ⟨_, (uploadMerged_fails clock _ file state).bind_error⟩
      exact mimics_of_error rfl ends carries
  | ok output =>
      obtain ⟨last, file, again, built, same⟩ :=
        mergeSnapshot_encodes givesBack stored word counted merged
      rw [isLast] at again
      cases again
      dsimp only
      rw [built]
      have done : Copies lz4 pageSize (fun bytes file =>
          StoredAs lz4 pageSize bytes file)
          (ofExcept (Objects.liftWire (.ok output)))
          (ofExcept (liftLtx (.ok file))) objects state :=
        mimics_ofExcept (.ok same) carries
      apply done.bind fun _ _ still => still
      intro _ _ objects state same carries
      apply (uploadMerged_mimics clock carries same word).bind
        fun _ _ still => still
      intro _ _ objects state _ carries
      exact mimics_pure rfl carries

theorem headTxid_word {files : List FileKey}
    (words : ∀ key ∈ files, key.maxTxid < 2 ^ 64) :
    headTxid files < 2 ^ 64 :=
  Nat.lt_succ_of_le (headTxid_le fun key member =>
    Nat.le_of_lt_succ (words key member))

theorem snapshot_mimics (givesBack : lz4.GivesBack) (clock : Int)
    (carries : objects.Carries lz4 pageSize state)
    (counted : nowMs clock < 2 ^ 63) :
    Copies lz4 pageSize Eq (Objects.snapshot lz4 clock) (snapshot clock)
      objects state := by
  apply mimics_current fun _ => rfl
  dsimp only
  rw [carries.files]
  split
  · exact mimics_pure rfl carries
  · split
    · exact mimics_pure rfl carries
    · have word : headTxid state.files.allLevels < 2 ^ 64 :=
        headTxid_word fun key member => carries.words key
          (Std.ExtTreeMap.mem_keys.mp member)
      cases planned : planRestore state.files.allLevels with
      | error error =>
          exact mimics_of_error rfl
            (Ends.bind_error (ends_of_eq fun _ => rfl)) carries
      | ok plan =>
          have lifted : Copies lz4 pageSize (fun left right =>
              left = right ∧ right = plan)
              (ofExcept (Objects.liftSync (.ok plan)))
              (ofExcept (.ok plan)) objects state :=
            mimics_ofExcept (.ok ⟨rfl, rfl⟩) carries
          apply lifted.bind fun _ _ still => still
          rintro _ _ objects state ⟨rfl, rfl⟩ carries
          apply (fetches_mimic _ carries).bind fun _ _ still => still
          rintro inputs files objects state ⟨stored, count⟩ carries
          apply snapshotMerge_mimics givesBack clock carries stored _ word
            counted
          rintro rfl
          rw [stored.length_eq] at count
          exact planRestore_ne_nil planned (List.eq_nil_of_length_eq_zero
            count.symm)

/-! ### Retention -/

theorem enforceRetentionByTxid_mimics (level txid : Nat)
    (carries : objects.Carries lz4 pageSize state) :
    Copies lz4 pageSize Eq (Objects.enforceRetentionByTxid level txid)
      (enforceRetentionByTxid level txid) objects state := by
  apply mimics_current fun _ => rfl
  dsimp only
  rw [carries.files]
  apply (deleteFiles_mimics _ carries).bind fun _ _ still => still
  intro _ _ objects state _ carries
  exact mimics_pure rfl carries

theorem cascadeRetention_mimics (maxLevel txid : Nat)
    (carries : objects.Carries lz4 pageSize state) :
    Copies lz4 pageSize (fun _ _ => True)
      (Objects.cascadeRetention maxLevel txid)
      (cascadeRetention maxLevel txid) objects state := by
  refine mimics_forEach ?_ _ carries
  intro level objects state carries
  apply (enforceRetentionByTxid_mimics level txid carries).bind
    fun _ _ still => still
  intro _ _ objects state _ carries
  exact mimics_pure trivial carries

theorem enforceSnapshotRetention_mimics (now : Int)
    (retention maxLevel : Nat)
    (carries : objects.Carries lz4 pageSize state) :
    Copies lz4 pageSize Eq
      (Objects.enforceSnapshotRetention now retention maxLevel)
      (enforceSnapshotRetention now retention maxLevel) objects state := by
  apply mimics_current fun _ => rfl
  dsimp only
  rw [carries.files]
  apply (deleteFiles_mimics _ carries).bind fun _ _ still => still
  intro _ _ objects state _ carries
  split
  · apply (cascadeRetention_mimics maxLevel _ carries).bind
      fun _ _ still => still
    intro _ _ objects state _ carries
    exact mimics_pure rfl carries
  · exact mimics_pure rfl carries

theorem enforceL0Retention_mimics (now : Int) (retention : Nat)
    (carries : objects.Carries lz4 pageSize state) :
    Copies lz4 pageSize Eq (Objects.enforceL0Retention now retention)
      (enforceL0Retention now retention) objects state := by
  unfold Objects.enforceL0Retention enforceL0Retention
  split
  · exact mimics_pure rfl carries
  · apply mimics_current fun _ => rfl
    dsimp only
    rw [carries.files]
    apply (deleteFiles_mimics _ carries).bind fun _ _ still => still
    intro _ _ objects state _ carries
    exact mimics_pure rfl carries

/-! ### Synchronisation -/

/-- Under a new address every way of uploading writes the object. -/
theorem Objects.uploadLtxFile_of_fresh {store : ObjectMap} {key : FileKey}
    {bytes : Bytes} (fresh : store[key]? = none) :
    Objects.uploadLtxFile store key bytes = .ok (store.insert key bytes) := by
  unfold Objects.uploadLtxFile Objects.putLtxCas
  split
  · rfl
  · simp [fresh]

theorem Objects.Carries.fresh {key : FileKey}
    (carries : objects.Carries lz4 pageSize state)
    (fresh : state.store[key]? = none) : objects.store[key]? = none := by
  have held := carries.store key
  rw [fresh] at held
  cases found : objects.store[key]? with
  | none => rfl
  | some bytes =>
      rw [found] at held
      cases held

theorem syncFile_mimics (encodedSize : LtxFile → Nat) (clock : Int)
    {bytes : Bytes} {file : LtxFile}
    (carries : objects.Carries lz4 pageSize state)
    (stored : StoredAs lz4 pageSize bytes file)
    (word : (⟨level0, state.txid + 1, state.txid + 1⟩ :
      FileKey).maxTxid < 2 ^ 64)
    (fresh : state.store[(⟨level0, state.txid + 1, state.txid + 1⟩ :
      FileKey)]? = none) :
    Copies lz4 pageSize (fun _ _ => True) (Objects.syncFile clock bytes)
      (syncFile encodedSize clock file) objects state := by
  apply (attempt_keeps (fun _ next => next = state) carries (fun _ => rfl)
    rfl).bind fun _ _ kept => kept.1
  rintro _ _ middle next _ ⟨kept, rfl⟩
  apply mimics_current fun _ => rfl
  dsimp only
  rw [kept.txid, uploadLtxFile_of_fresh fresh,
    Objects.uploadLtxFile_of_fresh (kept.fresh fresh)]
  have uploaded : Mimics Levels.arm
      (fun after final => after = middle ∧ final = next)
      (fun (left : ObjectMap) (right : Store) =>
        left = middle.store.insert ⟨level0, next.txid + 1, next.txid + 1⟩
          bytes ∧
        right = next.store.insert ⟨level0, next.txid + 1, next.txid + 1⟩
          file)
      (ofExcept (Objects.liftSync (.ok _)) : Objects.Call ObjectMap)
      (ofExcept (.ok _) : Call Store) middle next :=
    mimics_ofExcept (.ok ⟨rfl, rfl⟩) ⟨rfl, rfl⟩
  apply uploaded.bind
  · rintro _ _ ⟨rfl, rfl⟩
    exact kept
  · rintro _ _ _ _ ⟨rfl, rfl⟩ ⟨rfl, rfl⟩
    obtain ⟨files, words⟩ := kept.index clock word
    refine mimics_change trivial (fun _ => rfl)
      ⟨kept.put stored, files, ?_, words⟩
    dsimp only
    rw [kept.txid]

end Mimics

/-! ## Runs -/

inductive ObjectCall where
  | sync (clock : Int) (bytes : Bytes)
  | compactLevel (clock : Int) (dstLevel : Nat)
  | snapshot (clock : Int)
  | enforceSnapshotRetention (now : Int) (retention maxLevel : Nat)
  | enforceL0Retention (now : Int) (retention : Nat)

def Objects.effect {α : Type} (call : Objects.Call α) : Objects.Call Unit := do
  let _ ← call
  return ()

def ObjectCall.run (lz4 : Wire.Lz4) : ObjectCall → Objects.Call Unit
  | .sync clock bytes => Objects.syncFile clock bytes
  | .compactLevel clock dstLevel =>
      Objects.effect (Objects.compactLevel lz4 clock dstLevel)
  | .snapshot clock => Objects.effect (Objects.snapshot lz4 clock)
  | .enforceSnapshotRetention now retention maxLevel =>
      Objects.effect (Objects.enforceSnapshotRetention now retention maxLevel)
  | .enforceL0Retention now retention =>
      Objects.effect (Objects.enforceL0Retention now retention)

structure ObjectAction where
  faults : List Bool
  call : ObjectCall

def Objects.step (lz4 : Wire.Lz4) (objects : Objects)
    (action : ObjectAction) : Option Objects :=
  some
    { (action.call.run lz4 { objects with faults := action.faults }).2 with
      faults := [] }

def Objects.empty : Objects where
  store := ∅
  files := ∅
  txid := 0
  faults := []

/-- The encoder wrote the bytes of a synced file. -/
structure History.SyncedBytes (history : History) (lz4 : Wire.Lz4) (txid : Nat)
    (bytes : Bytes) : Prop where
  written : ∃ header calls trailer file,
    Wire.encodeFile lz4 header calls = .ok (bytes, trailer) ∧
      encodeFile header.plain ((Wire.pagesOf calls).map Wire.plainPage) =
        .ok file ∧
      history.SyncedFile txid file

/-- What is synchronised follows the history, and the clock of a snapshot counts
milliseconds in a word. -/
def History.cascadesObjects (history : History) (lz4 : Wire.Lz4)
    (objects : Objects) (action : ObjectAction) : Prop :=
  match action.call with
  | .sync _ bytes => history.SyncedBytes lz4 (objects.txid + 1) bytes
  | .snapshot clock => nowMs clock < 2 ^ 63
  | _ => True

section Runs

variable {lz4 : Wire.Lz4} {history : History}

theorem carries_empty (lz4 : Wire.Lz4) (pageSize : Nat) :
    Objects.empty.Carries lz4 pageSize Levels.empty where
  store := by
    intro key
    rw [Objects.empty, Levels.empty, Std.ExtTreeMap.getElem?_empty,
      Std.ExtTreeMap.getElem?_empty]
    exact .none
  files := rfl
  txid := rfl
  words := by
    intro key member
    exact absurd member Std.ExtTreeMap.not_mem_empty

theorem effect_mimics {pageSize : Nat} {objects : Objects} {state : Levels}
    {α : Type} {program : Objects.Call α} {model : Call α}
    (mimics : Copies lz4 pageSize Eq program model objects state) :
    Copies lz4 pageSize (fun _ _ => True) (Objects.effect program)
      (effect model) objects state := by
  apply mimics.bind fun _ _ still => still
  intro _ _ objects state _ carries
  exact mimics_pure trivial carries

/-- A call that mimics one on objects is a step of the files. -/
theorem step_of_mimics {encodedSize : LtxFile → Nat} {pageSize : Nat}
    {objects : Objects} {state : Levels} {call : LevelsCall}
    {program : Objects.Call Unit}
    (mimics : Copies lz4 pageSize (fun _ _ => True) program
      (call.run encodedSize) objects state) :
    ∃ faults next,
      state.step encodedSize { faults := faults, call := call } = some next ∧
        ({ (program objects).2 with faults := [] } : Objects).Carries lz4
          pageSize next := by
  obtain ⟨result, final, ⟨faults, runs⟩, _, carries⟩ := mimics
  have ran := runs []
  rw [List.append_nil] at ran
  refine ⟨faults, Levels.arm [] final, ?_, ?_⟩
  · have stepped := congrArg (fun finished => some (Levels.arm [] finished.2))
      ran
    exact stepped
  · exact ⟨carries.store, carries.files, carries.txid, carries.words⟩

/-- The objects follow the files step by step. -/
theorem objects_step {encodedSize : LtxFile → Nat} {pageSize : Nat}
    {objects next : Objects} {state : Levels} {action : ObjectAction}
    (givesBack : lz4.GivesBack)
    (sized : ∀ txid, history.pageSize txid = pageSize)
    (carries : objects.Carries lz4 pageSize state)
    (ok : ReplicaOk history state)
    (allowed : history.cascadesObjects lz4 objects action)
    (stepped : objects.step lz4 action = some next) :
    ∃ other final, history.cascades state other ∧
      state.step encodedSize other = some final ∧
      next.Carries lz4 pageSize final := by
  obtain ⟨faults, call⟩ := action
  cases stepped
  have armed := carries.armed faults
  have found (other : LevelsCall)
      (mimics : Copies lz4 pageSize (fun _ _ => True) (call.run lz4)
        (other.run encodedSize) { objects with faults := faults } state)
      (guarded : ∀ faults,
        history.cascades state { faults := faults, call := other }) :
      ∃ other final, history.cascades state other ∧
        state.step encodedSize other = some final ∧
        ({ (call.run lz4 { objects with faults := faults }).2 with
          faults := [] } : Objects).Carries lz4 pageSize final := by
    obtain ⟨faults, final, stepped, still⟩ := step_of_mimics mimics
    exact ⟨_, final, guarded faults, stepped, still⟩
  cases call with
  | sync clock bytes =>
      obtain ⟨⟨header, calls, trailer, file, encoded, built, synced⟩⟩ := allowed
      rw [carries.txid] at synced
      have stored : StoredAs lz4 pageSize bytes file :=
        ⟨Wire.encodes_of_encodeFile encoded built,
          synced.faithful.pageSize.trans (sized _)⟩
      have word : state.txid + 1 < 2 ^ 64 := by
        rw [← synced.maxTxid, (encodeFile_eq_ok built).1]
        exact header.maxTxid.toNat_lt
      obtain ⟨anchor, levelsOk⟩ := ok
      have fresh : state.store[(⟨level0, state.txid + 1, state.txid + 1⟩ :
          FileKey)]? = none := by
        cases held : state.store[(⟨level0, state.txid + 1, state.txid + 1⟩ :
            FileKey)]? with
        | none => rfl
        | some other =>
            have bound := (levelsOk.files _ other held).synced
            simp only at bound
            omega
      exact found (.sync clock file)
        (syncFile_mimics encodedSize clock armed stored word fresh) fun _ => synced
  | compactLevel clock dstLevel =>
      exact found (.compactLevel clock dstLevel)
        (effect_mimics (compactLevel_mimics givesBack clock dstLevel armed))
        fun _ => trivial
  | snapshot clock =>
      exact found (.snapshot clock)
        (effect_mimics (snapshot_mimics givesBack clock armed allowed))
        fun _ => trivial
  | enforceSnapshotRetention now retention maxLevel =>
      exact found (.enforceSnapshotRetention now retention maxLevel)
        (effect_mimics
          (enforceSnapshotRetention_mimics now retention maxLevel armed))
        fun _ => trivial
  | enforceL0Retention now retention =>
      exact found (.enforceL0Retention now retention)
        (effect_mimics (enforceL0Retention_mimics now retention armed))
        fun _ => trivial

/-- Some run on files ends with the files that the objects encode. -/
def Represents (history : History) (encodedSize : LtxFile → Nat)
    (lz4 : Wire.Lz4) (pageSize : Nat) (objects : Objects) : Prop :=
  ∃ state, Machine.Reaches (Levels.step encodedSize) history.cascades
    Levels.empty state ∧ objects.Carries lz4 pageSize state

/-- Every run on objects is a run on the files that they encode. -/
theorem represents_of_run (encodedSize : LtxFile → Nat) {pageSize : Nat}
    {objects : Objects} (givesBack : lz4.GivesBack)
    (sized : ∀ txid, history.pageSize txid = pageSize)
    (run : Machine.Reaches (Objects.step lz4) (history.cascadesObjects lz4)
      Objects.empty objects) :
    Represents history encodedSize lz4 pageSize objects := by
  apply run.invariant
  · exact ⟨_, .refl, carries_empty lz4 pageSize⟩
  · rintro objects action next ⟨state, reached, carries⟩ allowed stepped
    have ok : ReplicaOk history state :=
      reached.invariant ⟨0, levelsOk_empty history⟩ fun _ _ _ ok allowed
        stepped => ok.cascade allowed stepped
    obtain ⟨other, final, guarded, moved, still⟩ :=
      objects_step givesBack sized carries ok allowed stepped
    exact ⟨final, reached.tail guarded moved, still⟩

end Runs

end Literstream
