import Literstream.Restore.PointInTime
import Literstream.Sync.Consistent

/-!
# Crashes, recoveries and upkeep

The rest of a chronicle's steps: what other connections do while no syncer is
open, the deaths of a process, the recovery of what it left in the staging
directory, and the calls that rearrange the replica.
-/

namespace Literstream

open Std PagedFile Machine

section Resting

variable {setup : Setup} {chronicle after : Chronicle} {history : History}
  {top : Nat}

theorem Chronicled.imageOk (chronicled : Chronicled setup chronicle history top) :
    ImageOk setup.pageSize (history.image top) := by
  have imageOk := history.imageOk top
  rwa [chronicled.sized] at imageOk

/-- A synced file lies in the replica only where something was synced. -/
theorem Archived.synced {store : Store} (archived : Archived history top store)
    {key : FileKey} {file : LtxFile} (held : store[key]? = some file) :
    0 < top := by
  rcases Nat.eq_zero_or_pos top with rfl | positive
  · rw [archived.not_zero, ExtTreeMap.getElem?_empty] at held
    cases held
  · exact positive

/-- Another connection changes the database while no syncer is open. -/
theorem Chronicled.rest_foreign
    (chronicled : Chronicled setup chronicle history top)
    (down : chronicle.life.phase ≠ .running) {action : Action}
    (fits : chronicle.life.syncer.Fits setup action)
    (undisturbed : chronicle.life.Undisturbed setup action)
    (stepped : chronicle.life.syncer.step setup action =
      some after.life.syncer)
    (same : ∃ db, after.life.syncer = { chronicle.life.syncer with db := db })
    (phase : after.life.phase = chronicle.life.phase) {more : List Bytes}
    (commits : after.commits = chronicle.commits ++ more) :
    Chronicled setup after history top := by
  have store : after.life.syncer.store = chronicle.life.syncer.store := by
    obtain ⟨db, same⟩ := same
    rw [same]
  have staging : after.life.syncer.staging = chronicle.life.syncer.staging := by
    obtain ⟨db, same⟩ := same
    rw [same]
  constructor
  · exact (chronicled.db.step fits stepped).1
  · exact chronicled.sized
  · rw [store]
    exact chronicled.archived
  · rw [commits]
    exact chronicled.recorded.trans (List.sublist_append_left _ _)
  · rw [staging, phase, store, commits]
    intro key file held
    rcases chronicled.staged key file held with ⟨address, leads⟩ | taken
    · refine .inl ⟨address, leads.later ?_ more⟩
      apply State.db_cases (motive := fun db => Ready setup.pageSize
        (applyFile (history.image top) file) file.ends db) stepped leads.ready
      intro op touched done
      apply leads.ready.apply setup.positive chronicled.db
        (leads.imageOk chronicled.sized) (fits op touched) done
      intro other
      rw [(undisturbed op touched other).1, ExtTreeMap.getElem?_empty] at held
      cases held
    · exact .inr taken
  · rw [staging]
    exact chronicled.single
  · rw [staging, store]
    intro _ alone file held
    have ready := chronicled.resting down alone file held
    apply State.db_cases (motive := fun db => Ready setup.pageSize
      (history.image top) file.ends db) stepped ready
    intro op touched done
    apply ready.apply setup.positive chronicled.db chronicled.imageOk
      (fits op touched) done
    intro other
    apply (undisturbed op touched other).2
    rw [newestKey, chronicled.archived.head]
    exact held
  · rw [phase, staging]
    exact chronicled.recovering
  · rw [phase]
    exact fun up => absurd up down

/-- The process ends, and leaves the staging directory as it is. -/
theorem Chronicled.halted
    (chronicled : Chronicled setup chronicle history top)
    (halted : after.life.syncer = chronicle.life.syncer.halt)
    (phase : after.life.phase = .closed) {more : List Bytes}
    (commits : after.commits = chronicle.commits ++ more) :
    Chronicled setup after history top := by
  have down : after.life.phase ≠ .running := by
    rw [phase]
    exact fun impossible => by cases impossible
  constructor
  · rw [halted]
    exact chronicled.db
  · exact chronicled.sized
  · rw [halted]
    exact chronicled.archived
  · rw [commits]
    exact chronicled.recorded.trans (List.sublist_append_left _ _)
  · rw [halted, commits]
    intro key file held
    rcases chronicled.staged key file held with
      ⟨address, leads⟩ | ⟨_, address, stored⟩
    · exact .inl ⟨address, leads.later leads.ready more⟩
    · exact .inr ⟨down, address, stored⟩
  · rw [halted]
    exact chronicled.single
  · rw [halted]
    intro _ alone file held
    by_cases up : chronicle.life.phase = .running
    · have empty : chronicle.life.syncer.staging = ∅ := by
        apply ExtTreeMap.ext_getElem?
        intro key
        rw [ExtTreeMap.getElem?_empty]
        by_contra present
        obtain ⟨other, found⟩ := Option.ne_none_iff_exists'.mp present
        rw [(chronicled.leads up found).1] at found
        exact alone ((OrderedMap.mem_iff_exists _ _).mpr ⟨other, found⟩)
      exact (chronicled.running up).ready empty
        (chronicled.archived.synced held) held
    · exact chronicled.resting up alone file held
  · intro remaining recovering
    rw [phase] at recovering
    cases recovering
  · exact fun up => absurd up down

/-- A syncer begins to open, with all that is staged to recover. -/
theorem Chronicled.opened
    (chronicled : Chronicled setup chronicle history top)
    (wasClosed : chronicle.life.phase = .closed)
    (same : after.life.syncer = chronicle.life.syncer)
    (phase : after.life.phase =
      .recovering (recoverOrder chronicle.life.entries)) {more : List Bytes}
    (commits : after.commits = chronicle.commits ++ more) :
    Chronicled setup after history top := by
  have before : chronicle.life.phase ≠ .running := by
    rw [wasClosed]
    exact fun impossible => by cases impossible
  have down : after.life.phase ≠ .running := by
    rw [phase]
    exact fun impossible => by cases impossible
  constructor
  · rw [same]
    exact chronicled.db
  · exact chronicled.sized
  · rw [same]
    exact chronicled.archived
  · rw [commits]
    exact chronicled.recorded.trans (List.sublist_append_left _ _)
  · rw [same, commits]
    intro key file held
    rcases chronicled.staged key file held with
      ⟨address, leads⟩ | ⟨_, address, stored⟩
    · exact .inl ⟨address, leads.later leads.ready more⟩
    · exact .inr ⟨down, address, stored⟩
  · rw [same]
    exact chronicled.single
  · rw [same]
    exact fun _ alone => chronicled.resting before alone
  · rw [phase, same]
    rintro _ ⟨⟩ key member
    exact mem_recoverOrder.mpr member
  · exact fun up => absurd up down

/-- The store took a staged file, which was then removed or kept; no syncer is
open afterwards. -/
theorem Took.chronicled {key : FileKey} {file : LtxFile}
    (took : Took setup chronicle key file history top)
    (chronicledDb : DbOk setup.pageSize chronicle.life.syncer.db)
    (db : after.life.syncer.db = chronicle.life.syncer.db)
    (store : after.life.syncer.store =
      chronicle.life.syncer.store.insert key file)
    (staging : ∀ (other : FileKey) (found : LtxFile),
      after.life.syncer.staging[other]? = some found →
        other = key ∧ found = file)
    (down : after.life.phase ≠ .running)
    (recovering : ∀ remaining, after.life.phase = .recovering remaining →
      after.life.syncer.staging = ∅) {more : List Bytes}
    (commits : after.commits = chronicle.commits ++ more) :
    Chronicled setup after history top := by
  have address := took.address
  constructor
  · rw [db]
    exact chronicledDb
  · exact took.sized
  · rw [store]
    exact took.archived
  · rw [commits]
    exact took.recorded.trans (List.sublist_append_left _ _)
  · intro other found held
    obtain ⟨rfl, rfl⟩ := staging other found held
    refine .inr ⟨down, address, ?_⟩
    rw [store, ExtTreeMap.getElem?_insert_self]
  · intro left leftMember right rightMember
    obtain ⟨_, leftHeld⟩ := (OrderedMap.mem_iff_exists _ _).mp leftMember
    obtain ⟨_, rightHeld⟩ := (OrderedMap.mem_iff_exists _ _).mp rightMember
    rw [(staging left _ leftHeld).1, (staging right _ rightHeld).1]
  · intro _ _ found held
    rw [store, ← address, ExtTreeMap.getElem?_insert_self] at held
    cases held
    rw [db]
    exact took.ready
  · intro remaining phase key member
    rw [recovering remaining phase] at member
    exact absurd member ExtTreeMap.not_mem_empty
  · exact fun up => absurd up down

/-- A staged file is uploaded and removed. -/
theorem Chronicled.recovered
    (chronicled : Chronicled setup chronicle history top) {key : FileKey}
    {file : LtxFile} {rest : List FileKey}
    (held : chronicle.life.syncer.staging[key]? = some file)
    (same : after.life.syncer = { chronicle.life.syncer with
      store := chronicle.life.syncer.store.insert key file
      staging := chronicle.life.syncer.staging.erase key })
    (phase : after.life.phase = .recovering rest) {more : List Bytes}
    (commits : after.commits = chronicle.commits ++ more) :
    Continued setup history top after := by
  obtain ⟨history', top', ordered, agree, took⟩ := chronicled.take held
  have member := (OrderedMap.mem_iff_exists _ _).mpr ⟨file, held⟩
  have empty : after.life.syncer.staging = ∅ := by
    rw [same]
    apply OrderedMap.erase_eq_empty
    intro other found inside
    exact chronicled.single _
      ((OrderedMap.mem_iff_exists _ _).mpr ⟨found, inside⟩) _ member
  refine ⟨history', top', ordered, agree, took.chronicled chronicled.db
    (by rw [same]) (by rw [same]) (by simp [empty]) ?_ (fun _ _ => empty)
    commits⟩
  rw [phase]
  exact fun impossible => by cases impossible

/-- The store takes a staged file, and no process lives to know it. -/
theorem Chronicled.taken
    (chronicled : Chronicled setup chronicle history top) {key : FileKey}
    {file : LtxFile}
    (held : chronicle.life.syncer.staging[key]? = some file)
    (db : after.life.syncer.db = chronicle.life.syncer.db)
    (store : after.life.syncer.store =
      chronicle.life.syncer.taken setup key file)
    (staging : after.life.syncer.staging = chronicle.life.syncer.staging)
    (phase : after.life.phase = .closed) {more : List Bytes}
    (commits : after.commits = chronicle.commits ++ more) :
    Continued setup history top after := by
  obtain ⟨history', top', ordered, agree, took⟩ := chronicled.take held
  have member := (OrderedMap.mem_iff_exists _ _).mpr ⟨file, held⟩
  rw [State.taken_eq ((chronicled.accepts held).imp id .inl)] at store
  have only : ∀ (other : FileKey) (found : LtxFile),
      after.life.syncer.staging[other]? = some found →
        other = key ∧ found = file := by
    intro other found inside
    rw [staging] at inside
    have same := chronicled.single _
      ((OrderedMap.mem_iff_exists _ _).mpr ⟨found, inside⟩) _ member
    rw [same, held] at inside
    exact ⟨same, (Option.some.inj inside).symm⟩
  refine ⟨history', top', ordered, agree, took.chronicled chronicled.db db store
    only ?_ ?_ commits⟩
  · rw [phase]
    exact fun impossible => by cases impossible
  · intro remaining recovering
    rw [phase] at recovering
    cases recovering

end Resting

/-! ## Opening a replica -/

section Opening

variable {history : History} {top : Nat} {store : Store}

/-- A syncer that opens a replica goes on at the end of its newest file. -/
theorem Archived.derives (archived : Archived history top store)
    {modified : FileKey → Int} {pos : Position}
    (derived : derivePosition (listedFiles modified (listAllLtx store)) store =
      .ok pos) :
    pos.txid = top ∧ (pos.txid = 0 → pos.salt1 = 0) ∧
      ∀ file, store[(⟨level0, top, top⟩ : FileKey)]? = some file →
        pos.EndOf file := by
  obtain ⟨files, anchor, ok⟩ := archived
  have indexed : ∀ key, key ∈ listedFiles modified (listAllLtx store) ↔
      key ∈ store := by
    intro key
    rw [mem_listedFiles]
    exact ok.mem_listAllLtx key
  have txid : pos.txid = top := by
    rw [derivePosition_txid derived]
    apply ok.headTxid_eq
    intro key
    rw [FileIndex.allLevels, ExtTreeMap.mem_keys]
    exact indexed key
  refine ⟨txid, ?_⟩
  unfold derivePosition at derived
  split at derived
  · rename_i empty
    cases derived
    refine ⟨fun _ => rfl, ?_⟩
    intro file held
    have member := (indexed _).mpr ((OrderedMap.mem_iff_exists _ _).mpr
      ⟨file, held⟩)
    have listed := ExtTreeMap.mem_keys.mpr member
    rw [show (listedFiles modified (listAllLtx store)).keys = [] from empty]
      at listed
    exact absurd listed List.not_mem_nil
  · split at derived
    · rename_i absent
      cases derived
      refine ⟨fun _ => rfl, ?_⟩
      intro file held
      obtain ⟨info, listed, _⟩ := FileIndex.exists_listed ((indexed _).mpr
        ((OrderedMap.mem_iff_exists _ _).mpr ⟨file, held⟩))
      rw [newestFile_eq_none absent] at listed
      exact absurd listed List.not_mem_nil
    · rename_i newest found
      obtain ⟨last, read, done⟩ := bind_eq_ok.mp derived
      cases done
      obtain ⟨member, greatest⟩ := newestFile_eq_some found
      obtain ⟨stored, _, fileOk⟩ := ok.key_ok
        ((indexed _).mp (FileIndex.mem_of_list member))
      refine ⟨?_, ?_⟩
      · intro first
        have := fileOk.positive
        have := fileOk.ordered
        have := fileOk.synced
        simp only at this first txid
        omega
      · intro file held
        obtain ⟨info, listed, same⟩ := FileIndex.exists_listed
          ((indexed _).mpr ((OrderedMap.mem_iff_exists _ _).mpr ⟨file, held⟩))
        have bound := greatest info listed
        have level := (FileIndex.mem_list.mp member).2
        have single := fileOk.single level
        have synced := fileOk.synced
        have infoMax : info.maxTxid = top := by rw [same]
        have ends : newest.maxTxid = top := Nat.le_antisymm synced (by omega)
        have address : newest.toFileKey =
            ⟨newest.level, newest.minTxid, newest.maxTxid⟩ := rfl
        rw [level, single, ends] at address
        rw [getLtx_eq_ok, address, held] at read
        cases read
        exact ⟨rfl, rfl, rfl⟩

end Opening

section Resuming

variable {setup : Setup} {chronicle after : Chronicle} {history : History}
  {top : Nat}

/-- A syncer opens once nothing is left to recover. -/
theorem Chronicled.resumed
    (chronicled : Chronicled setup chronicle history top)
    (wasRecovering : chronicle.life.phase = .recovering [])
    {modified : FileKey → Int} {pos : Position}
    (derived : derivePosition
      (listedFiles modified (listAllLtx chronicle.life.syncer.store))
      chronicle.life.syncer.store = .ok pos)
    (mirrors : Mirrors after.life.syncer.files after.life.syncer.store)
    (store : after.life.syncer.store = chronicle.life.syncer.store)
    (staging : after.life.syncer.staging = chronicle.life.syncer.staging)
    (db : after.life.syncer.db = chronicle.life.syncer.db)
    (position : after.life.syncer.pos = pos)
    (idle : after.life.syncer.pc = .idle)
    (phase : after.life.phase = .running) {more : List Bytes}
    (commits : after.commits = chronicle.commits ++ more) :
    Chronicled setup after history top := by
  have down : chronicle.life.phase ≠ .running := by
    rw [wasRecovering]
    exact fun impossible => by cases impossible
  have nothing : ∀ key, key ∉ chronicle.life.syncer.staging :=
    fun key member => absurd (chronicled.recovering [] wasRecovering key member)
      List.not_mem_nil
  have empty : after.life.syncer.staging = ∅ := by
    rw [staging]
    apply ExtTreeMap.ext_getElem?
    intro key
    rw [ExtTreeMap.getElem?_empty]
    by_contra present
    obtain ⟨file, held⟩ := Option.ne_none_iff_exists'.mp present
    exact nothing key ((OrderedMap.mem_iff_exists _ _).mpr ⟨file, held⟩)
  obtain ⟨txid, unsynced, ends⟩ := chronicled.archived.derives derived
  have ready : pos.txid = 0 ∨ Ready setup.pageSize (history.image top) pos
      chronicle.life.syncer.db := by
    rcases Nat.eq_zero_or_pos top with zero | positive
    · exact .inl (txid.trans zero)
    · obtain ⟨file, held, _⟩ := chronicled.archived.newest positive
      have same := ends file held
      exact .inr ((chronicled.resting down (nothing _) file held).congr same.1
        same.2.1 same.2.2)
  have restores := chronicled.archived.restores chronicled.sized
  have opened : Opened setup after.life.syncer (history.image top) := by
    refine ⟨idle, by rw [db]; exact chronicled.db, ?_, ?_, ?_⟩
    · rw [store, position, txid]
      exact restores
    · rw [position, db]
      rcases ready with first | ready
      · rw [unsynced first]
        exact Nat.zero_le _
      · exact ready.salts
    · rw [position, db]
      exact ready.imp id fun ready => ready.inStep.aligned
  constructor
  · rw [db]
    exact chronicled.db
  · exact chronicled.sized
  · rw [store]
    exact chronicled.archived
  · rw [commits]
    exact chronicled.recorded.trans (List.sublist_append_left _ _)
  · simp [empty]
  · simp [empty]
  · exact fun impossible => absurd phase impossible
  · intro remaining recovering
    rw [phase] at recovering
    cases recovering
  · intro _
    refine ⟨by rw [position, txid], mirrors, ⟨_, opened.retries empty ?_⟩, ?_,
      ?_, ?_, by simp [empty]⟩
    · rw [position, db]
      exact ready.imp id Ready.folded
    · rw [position, db]
      exact ready.imp id fun ready => .inl ready.inStep
    · rw [position]
      exact unsynced
    · rw [store, position]
      exact ends

end Resuming

/-! ## Upkeep -/

section Upkeeping

variable {setup : Setup} {chronicle after : Chronicle} {history : History}
  {top : Nat}

/-- The call as the level machine knows it. -/
def Upkeep.levelsCall : Upkeep → LevelsCall
  | .compact clock => .compact clock
  | .compactLevel clock dstLevel => .compactLevel clock dstLevel
  | .snapshot clock => .snapshot clock
  | .enforceSnapshotRetention now retention maxLevel =>
      .enforceSnapshotRetention now retention maxLevel
  | .enforceRetentionByTxid _ _ => .compact 0
  | .enforceL0Retention now retention => .enforceL0Retention now retention

theorem Upkeep.run_levelsCall {call : Upkeep} (cascades : call.cascades = true)
    (encodedSize : LtxFile → Nat) :
    call.levelsCall.run encodedSize = call.run := by
  cases call with
  | compact clock => cases cascades
  | enforceRetentionByTxid level txid => cases cascades
  | _ => rfl

/-- The newest L0 file is the same file after any other call than a sync. -/
theorem LevelsEffect.newest_kept {start state : Levels} {call : LevelsCall}
    (reached : LevelsEffect start call state)
    (calm : ∀ clock file, call ≠ .sync clock file) :
    state.txid = start.txid ∧ ∀ (top : Nat) (file : LtxFile),
      state.store[(⟨level0, top, top⟩ : FileKey)]? = some file →
      start.store[(⟨level0, top, top⟩ : FileKey)]? = some file := by
  have put {clock : Int} {key : FileKey} {merged : LtxFile}
      (high : key.level ≠ level0)
      (same : Same (start.put clock key merged) state) :
      state.txid = start.txid ∧ ∀ (top : Nat) (file : LtxFile),
        state.store[(⟨level0, top, top⟩ : FileKey)]? = some file →
        start.store[(⟨level0, top, top⟩ : FileKey)]? = some file := by
    refine ⟨same.txid, ?_⟩
    intro top file held
    rw [same.store] at held
    change (start.store.insert key merged)[_]? = _ at held
    rw [OrderedMap.getElem?_insert, if_neg] at held
    · exact held
    · rintro rfl
      exact high rfl
  cases reached with
  | synced next => exact absurd rfl (calm _ _)
  | compacted compacts same =>
      apply put _ same
      exact Nat.pos_iff_ne_zero.mp compacts.level.1
  | snapshotted snapshots same =>
      exact put (fun impossible => by cases impossible) same
  | shrunk shrunk => exact ⟨shrunk.txid, fun _ _ held => shrunk.store _ _ held⟩

/-- Another replica that restores the same image. -/
theorem Retries.rearranged {state : State} {image target : Bytes}
    (retries : Retries setup state image target) {store : Store}
    (files : FileIndex)
    (restores : Restores setup.pageSize store state.pos.txid image) :
    Retries setup { state with store := store, files := files } image
      target where
  db := retries.db
  replica := restores
  free := retries.free
  waiting := retries.waiting
  salts := retries.salts
  aheadSalts := retries.aheadSalts
  reach := retries.reach
  fallback := retries.fallback
  keys := retries.keys
  current := retries.current
  folded := retries.folded
  window := retries.window

/-- Level compactions, snapshots and retention. -/
theorem Chronicled.upkept
    (chronicled : Chronicled setup chronicle history top)
    (up : chronicle.life.phase = .running) {faults : List Bool}
    {call : Upkeep} (cascades : call.cascades = true)
    (same : after.life = chronicle.life.upkeep faults call)
    {more : List Bytes} (commits : after.commits = chronicle.commits ++ more) :
    Chronicled setup after history top := by
  have running := chronicled.running up
  have indexed : ∀ key, key ∈ chronicle.life.syncer.files ↔
      key ∈ chronicle.life.syncer.store := by
    intro key
    rw [running.mirrors key]
    refine and_iff_left_of_imp ?_
    obtain ⟨_, _, ok⟩ := chronicled.archived
    intro member
    obtain ⟨_, _, fileOk⟩ := ok.key_ok member
    exact fileOk.level
  have ok : ReplicaOk history (chronicle.life.levels []) := by
    obtain ⟨anchor, ok⟩ := chronicled.archived.levelsOk indexed []
    rw [← running.txid] at ok
    exact ⟨anchor, ok⟩
  have calm : ∀ clock file, call.levelsCall ≠ .sync clock file := by
    intro clock file
    cases call <;> exact fun impossible => by cases impossible
  let action : LevelsAction := ⟨faults, call.levelsCall⟩
  have allowed : history.cascades (chronicle.life.levels []) action := by
    cases call with
    | compact clock => cases cascades
    | enforceRetentionByTxid level txid => cases cascades
    | _ => exact trivial
  have stepped : (chronicle.life.levels []).step setup.encodedSize action =
      some { (call.run (chronicle.life.levels faults)).2 with
        faults := [] } := by
    rw [← Upkeep.run_levelsCall cascades setup.encodedSize]
    rfl
  obtain ⟨anchor, nextOk⟩ := ok.cascade allowed stepped
  obtain ⟨txid, newest⟩ :=
    (levels_step_effect allowed stepped).newest_kept calm
  have archived := nextOk.archived
  rw [txid] at archived
  change Archived history chronicle.life.syncer.pos.txid _ at archived
  rw [running.txid] at archived
  have syncer : after.life.syncer = { chronicle.life.syncer with
      store := (call.run (chronicle.life.levels faults)).2.store
      files := (call.run (chronicle.life.levels faults)).2.files } := by
    rw [same]
    rfl
  have phase : after.life.phase = chronicle.life.phase := by
    rw [same]
    rfl
  constructor
  · rw [syncer]
    exact chronicled.db
  · exact chronicled.sized
  · rw [syncer]
    exact archived
  · rw [commits]
    exact chronicled.recorded.trans (List.sublist_append_left _ _)
  · rw [syncer, commits]
    intro key file held
    obtain ⟨address, leads⟩ := chronicled.leads up held
    exact .inl ⟨address, leads.later leads.ready more⟩
  · rw [syncer]
    exact chronicled.single
  · exact fun down => absurd (phase.trans up) down
  · intro remaining recovering
    rw [phase, up] at recovering
    cases recovering
  · intro _
    obtain ⟨target, retries⟩ := running.retries
    rw [syncer]
    refine ⟨running.txid, (keepsMirror_upkeep call).final running.mirrors,
      ⟨target, retries.rearranged _ ?_⟩, running.fallback, running.unsynced, ?_,
      running.behind⟩
    · rw [running.txid]
      exact archived.restores chronicled.sized
    · exact fun file held => running.newest file (newest top file held)

end Upkeeping

/-! ## Runs -/

section Runs

variable {setup : Setup} {start chronicle after : Chronicle}
  {event : WriterEvent} {history : History} {top : Nat}

theorem Chronicled.life_step
    (chronicled : Chronicled setup chronicle history top) {happens : Event}
    (orderly : chronicle.Orderly setup (.life happens))
    (stepped : chronicle.life.step setup happens = some after.life)
    (commits : after.commits = chronicle.commits ++
      [after.life.syncer.db.committedImage setup.pageSize]) :
    Continued setup history top after := by
  have still : Chronicled setup after history top →
      Continued setup history top after :=
    fun same => ⟨history, top, Nat.le_refl top, .refl history top, same⟩
  have acts (action : Action) (happened : happens = .step action)
      (up : chronicle.life.phase = .running)
      (done : chronicle.life.syncer.step setup action =
        some after.life.syncer) (phase : after.life.phase = .running) :
      Continued setup history top after := by
    subst happened
    rw [Chronicle.Orderly, Lifetime.Orderly, if_pos up] at orderly
    exact chronicled.act ⟨up, done, phase, commits, orderly.1, orderly.2⟩
  cases step_lifeMove stepped with
  | outside action happened _ done same phase _ =>
      by_cases up : chronicle.life.phase = .running
      · exact acts action happened up done (phase.trans up)
      · subst happened
        rw [Chronicle.Orderly, Lifetime.Orderly, if_neg up] at orderly
        exact still (chronicled.rest_foreign up orderly.1 orderly.2 done same
          phase commits)
  | inside action happened isRunning done phase _ =>
      exact acts action happened isRunning done phase
  | lost dies key file happened _ uploading same phase _ =>
      subst happened
      obtain rfl : dies = true := orderly
      obtain ⟨mark, same⟩ := same
      exact chronicled.taken (State.uploading_eq_some uploading).1
        (by rw [same]) (by rw [same]) (by rw [same]) phase commits
  | closed _ _ same phase _ => exact still (chronicled.halted same phase commits)
  | opened _ _ wasClosed same phase _ =>
      exact still (chronicled.opened wasClosed same phase commits)
  | recovered key rest file store _ _ _ held put same phase _ =>
      obtain rfl := uploadLtxFile_eq_ok put
      exact chronicled.recovered held same phase commits
  | recoverLost key rest file _ _ _ held same phase _ =>
      exact chronicled.taken held (by rw [same]; rfl) (by rw [same]; rfl)
        (by rw [same]; rfl) phase commits
  | refused key rest file error _ _ _ same phase _ =>
      exact still (chronicled.halted same phase commits)
  | resumed modified pos happened wasRecovering derived store staging db
      position idle phase _ =>
      have mirrors : Mirrors after.life.syncer.files
          after.life.syncer.store := by
        subst happened
        rw [Lifetime.step, wasRecovering] at stepped
        have indexed := @Lifetime.indexed_resume chronicle.life modified
        rw [show chronicle.life.resume modified = after.life from
          Option.some.inj stepped] at indexed
        exact indexed.mirrors phase
      exact still (chronicled.resumed wasRecovering derived mirrors store
        staging db position idle phase commits)

theorem Chronicled.step (chronicled : Chronicled setup chronicle history top)
    (orderly : chronicle.Orderly setup event)
    (stepped : chronicle.step setup event = some after) :
    Continued setup history top after := by
  obtain ⟨life, done, rfl⟩ := Option.map_eq_some_iff.mp stepped
  cases event with
  | life happens => exact chronicled.life_step orderly done rfl
  | upkeep faults call =>
      simp only [Lifetime.writerStep] at done
      split at done
      · rename_i isOpen
        cases done
        exact ⟨history, top, Nat.le_refl top, .refl history top,
          chronicled.upkept isOpen.1 orderly rfl rfl⟩
      · cases done

/-- A run only adds to the history. -/
theorem Chronicled.reaches (chronicled : Chronicled setup start history top)
    (run : Reaches (Chronicle.step setup) (Chronicle.Orderly setup) start
      chronicle) : Continued setup history top chronicle := by
  apply run.invariant
  · exact ⟨history, top, Nat.le_refl top, .refl history top, chronicled⟩
  · rintro state event next ⟨history', top', ordered, agree, now⟩ orderly
      stepped
    obtain ⟨later, top'', ordered', agree', after⟩ := now.step orderly stepped
    exact ⟨later, top'', Nat.le_trans ordered ordered',
      agree.trans ordered agree', after⟩

/-- What a restore to a TXID gives. -/
theorem Archived.restoreToTxid {store : Store}
    (archived : Archived history top store)
    (sized : ∀ txid, history.pageSize txid = setup.pageSize) {target : Nat}
    {result : RestoreResult}
    (restored : restoreToTxid store target = .ok result) :
    1 ≤ result.txid ∧ result.txid ≤ target ∧ result.txid ≤ top ∧
      result.image = history.image result.txid := by
  obtain ⟨_, anchor, ok⟩ := archived
  have positive : Positive store := by
    intro key listed
    obtain ⟨_, _, fileOk⟩ := ok.key_ok ((ok.mem_listAllLtx key).mp listed)
    exact fileOk.positive
  have faithful : history.FaithfulStore store := ok.faithful
  have oneSize : ∀ left right, history.pageSize left =
      history.pageSize right :=
    fun left right => (sized left).trans (sized right).symm
  rcases History.restoreToTxid_cases faithful positive target with
    ⟨other, same, atLeast, atMost, covered, _⟩ | ⟨failed, _⟩
  · rw [restored] at same
    cases same
    obtain ⟨plan, last, planned, isLast, reached, _, image⟩ :=
      History.restoreToTxid_eq_ok faithful restored
    refine ⟨atLeast, atMost, ?_, ?_⟩
    · obtain ⟨key, member, _, ends⟩ :=
        covered result.txid atLeast (Nat.le_refl _)
      have listed := (List.mem_filter.mp member).1
      obtain ⟨_, _, fileOk⟩ := ok.key_ok ((ok.mem_listAllLtx key).mp listed)
      exact Nat.le_trans ends fileOk.synced
    · rw [reached]
      exact image fun left right _ _ => .inl (oneSize right left)
  · rw [restored] at failed
    cases failed

/-- A history to begin with. -/
def History.blank (pageSize : Nat) (positive : 0 < pageSize) : History :=
  History.filled pageSize positive (fun _ => 0) rfl fun _ _ => 0

theorem Chronicle.Fresh.continued (fresh : start.Fresh setup)
    (run : Reaches (Chronicle.step setup) (Chronicle.Orderly setup) start
      chronicle) :
    ∃ history top, Chronicled setup chronicle history top := by
  obtain ⟨history, top, _, _, chronicled⟩ := (fresh.chronicled
    (History.blank setup.pageSize setup.positive) fun _ => rfl).reaches run
  exact ⟨history, top, chronicled⟩

/-- In every orderly run the replica holds a subsequence of the committed
images, one for each TXID: a restore gives the last of them, a restore to a TXID
gives the one of the TXID it reports, and a flush brings the last commit. -/
theorem replica_tells_commits (fresh : start.Fresh setup)
    (run : Reaches (Chronicle.step setup) (Chronicle.Orderly setup) start
      chronicle) :
    ∃ images : List Bytes, images.Sublist chronicle.commits ∧
      headTxid (listAllLtx chronicle.life.syncer.store) = images.length ∧
      (∀ image, images.getLast? = some image →
        restore chronicle.life.syncer.store = .ok image) ∧
      (∀ target result,
        restoreToTxid chronicle.life.syncer.store target = .ok result →
        1 ≤ result.txid ∧ result.txid ≤ target ∧
          images[result.txid - 1]? = some result.image) ∧
      ∀ times final, chronicle.life.phase = .running →
        chronicle.life.syncer.pc = .idle →
        chronicle.life.syncer.flush setup times = some final →
        restore final.store =
          .ok (chronicle.life.syncer.db.committedImage setup.pageSize) := by
  obtain ⟨history, top, chronicled⟩ := fresh.continued run
  have archived := chronicled.archived
  refine ⟨history.images top, chronicled.recorded, ?_, ?_, ?_, ?_⟩
  · rw [archived.head, History.length_images]
  · intro image isLast
    rcases Nat.eq_zero_or_pos top with rfl | positive
    · cases isLast
    · rw [List.getLast?_eq_getElem?, History.length_images,
        History.getElem?_images positive (Nat.le_refl top)] at isLast
      cases isLast
      exact (archived.restores chronicled.sized).restore positive
  · intro target result restored
    obtain ⟨atLeast, atMost, within, image⟩ :=
      archived.restoreToTxid chronicled.sized restored
    refine ⟨atLeast, atMost, ?_⟩
    rw [History.getElem?_images atLeast within, image]
  · intro times final up idle flushed
    obtain ⟨target, retries⟩ := (chronicled.running up).retries
    exact Retried.flush ⟨_, target, retries⟩ idle flushed

/-- In every orderly run the head of the replica never goes back, and no TXID
ever stands for another image. -/
theorem replica_never_rewrites {middle : Chronicle} (fresh : start.Fresh setup)
    (before : Reaches (Chronicle.step setup) (Chronicle.Orderly setup) start
      middle)
    (later : Reaches (Chronicle.step setup) (Chronicle.Orderly setup) middle
      chronicle) :
    headTxid (listAllLtx middle.life.syncer.store) ≤
        headTxid (listAllLtx chronicle.life.syncer.store) ∧
      ∀ target target' result result',
        restoreToTxid middle.life.syncer.store target = .ok result →
        restoreToTxid chronicle.life.syncer.store target' = .ok result' →
        result.txid = result'.txid → result.image = result'.image := by
  obtain ⟨history, top, chronicled⟩ := fresh.continued before
  obtain ⟨history', top', ordered, agree, chronicled'⟩ :=
    chronicled.reaches later
  refine ⟨?_, ?_⟩
  · rw [chronicled.archived.head, chronicled'.archived.head]
    exact ordered
  · intro target target' result result' restored restored' same
    obtain ⟨_, _, within, image⟩ :=
      chronicled.archived.restoreToTxid chronicled.sized restored
    obtain ⟨_, _, _, image'⟩ :=
      chronicled'.archived.restoreToTxid chronicled'.sized restored'
    rw [image, image', ← same, agree.image within]

end Runs

/-! ## A run with a crash -/

instance (pageSize : Nat) (pos : Position) (db : Sqlite) :
    Decidable (AtEnd pageSize pos db) :=
  inferInstanceAs (Decidable (∀ wal ∈ db.wal,
    wal.captured pageSize pos = wal.frames.length))

instance (setup : Setup) (life : Lifetime) (action : Action) :
    Decidable (life.Undisturbed setup action) :=
  inferInstanceAs (Decidable (∀ op ∈ action.dbOp, op.appends = false →
    life.syncer.staging = ∅ ∧
      ∀ file ∈ life.syncer.store[newestKey life.syncer.store]?,
        AtEnd setup.pageSize file.ends life.syncer.db))

instance (setup : Setup) (chronicle : Chronicle) (event : WriterEvent) :
    Decidable (chronicle.Orderly setup event) := by
  unfold Chronicle.Orderly
  rcases event with (_ | _ | _ | _ | _ | _) | _
  all_goals
    unfold Lifetime.Orderly
    infer_instance

def newChronicle : Chronicle where
  life := newLife
  commits := []

/-- Two commits are synced; the process dies while the store takes the second
one.  A third commit comes before the next syncer recovers; it compacts the
replica and fails to prune it. -/
def crashedRun : List WriterEvent :=
  [.life .openSyncer, .life (.resume true fun _ => 0),
    .life (.step (commitPage 1 1)), .life (.step (.sync 0)),
    .life (.step (.upload true 0)), .life (.step (commitPage 2 2)),
    .life (.step (.sync 0)), .life (.lost true),
    .life (.step (commitPage 1 3)), .life .openSyncer, .life (.recover .done),
    .life (.resume true fun _ => 0), .life (.step (.sync 0)),
    .life (.step (.upload true 0)), .upkeep [] (.compactLevel 0 1),
    .upkeep [false, true] (.enforceL0Retention 10 1)]

theorem newChronicle_fresh : newChronicle.Fresh smallSetup where
  closed := rfl
  db := quietState_opened.db
  store := rfl
  staging := rfl

theorem replica_tells_commits_crashed :
    ∃ final ∈ execGuarded (Chronicle.step smallSetup)
        (Chronicle.Orderly smallSetup) newChronicle crashedRun,
      headTxid (listAllLtx final.life.syncer.store) = 3 ∧
      ∃ images : List Bytes, images.Sublist final.commits ∧
        headTxid (listAllLtx final.life.syncer.store) = images.length ∧
        (∀ image, images.getLast? = some image →
          restore final.life.syncer.store = .ok image) ∧
        (∀ target result,
          restoreToTxid final.life.syncer.store target = .ok result →
          1 ≤ result.txid ∧ result.txid ≤ target ∧
            images[result.txid - 1]? = some result.image) ∧
        ∀ times last, final.life.phase = .running →
          final.life.syncer.pc = .idle →
          final.life.syncer.flush smallSetup times = some last →
          restore last.store =
            .ok (final.life.syncer.db.committedImage smallSetup.pageSize) := by
  have runs : ∃ final ∈ execGuarded (Chronicle.step smallSetup)
        (Chronicle.Orderly smallSetup) newChronicle crashedRun,
      headTxid (listAllLtx final.life.syncer.store) = 3 := by
    decide +kernel
  obtain ⟨final, ran, head⟩ := runs
  exact ⟨final, ran, head,
    replica_tells_commits newChronicle_fresh (reaches_of_execGuarded ran)⟩

/-- The run stops after its first sync, or goes on to the end. -/
theorem replica_never_rewrites_crashed :
    ∃ middle ∈ execGuarded (Chronicle.step smallSetup)
        (Chronicle.Orderly smallSetup) newChronicle (crashedRun.take 5),
      ∃ final ∈ execGuarded (Chronicle.step smallSetup)
          (Chronicle.Orderly smallSetup) middle (crashedRun.drop 5),
        headTxid (listAllLtx middle.life.syncer.store) ≤
            headTxid (listAllLtx final.life.syncer.store) ∧
          ∀ target target' result result',
            restoreToTxid middle.life.syncer.store target = .ok result →
            restoreToTxid final.life.syncer.store target' = .ok result' →
            result.txid = result'.txid → result.image = result'.image := by
  have runs : ∃ middle ∈ execGuarded (Chronicle.step smallSetup)
        (Chronicle.Orderly smallSetup) newChronicle (crashedRun.take 5),
      ((execGuarded (Chronicle.step smallSetup) (Chronicle.Orderly smallSetup)
        middle (crashedRun.drop 5)).isSome) = true := by
    decide +kernel
  obtain ⟨middle, ran, goes⟩ := runs
  obtain ⟨final, later⟩ := Option.isSome_iff_exists.mp goes
  exact ⟨middle, ran, final, later,
    replica_never_rewrites newChronicle_fresh (reaches_of_execGuarded ran)
      (reaches_of_execGuarded later)⟩

end Literstream
