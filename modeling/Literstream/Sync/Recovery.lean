import Literstream.Sync.Lifetime

/-!
# Recovery from crashes

A ledger beside the lifetime records which staged files were renamed and what
the store took.  Where processes die but no store operation and no SQL statement
fails, a file is staged only after the one before it is uploaded, so there is
never more than one to recover and no second version of it.
-/

namespace Literstream

open Std Machine

/-- What happened so far, the latest first. -/
structure Ledger where
  renamed : List (FileKey × LtxFile)
  uploads : List (FileKey × LtxFile)
deriving DecidableEq

def Ledger.empty : Ledger where
  renamed := []
  uploads := []

/-- The file that a step renames into the staging directory. -/
def State.renames (setup : Setup) (state : State) (action : Action) :
    Option (FileKey × LtxFile) :=
  (state.stages setup action).bind fun draft =>
    match draft.build setup.pageSize state.pos with
    | .ok (some (staged, file)) => some (staged.key, file)
    | _ => none

def Lifetime.renames (setup : Setup) (life : Lifetime) :
    Event → Option (FileKey × LtxFile)
  | .step action => life.syncer.renames setup action
  | _ => none

def Ledger.after (setup : Setup) (life : Lifetime) (ledger : Ledger)
    (event : Event) : Ledger where
  renamed := (life.renames setup event).toList ++ ledger.renamed
  uploads := (life.puts setup event).toList ++ ledger.uploads

def recordedStep (setup : Setup) :
    Lifetime × Ledger → Event → Option (Lifetime × Ledger)
  | (life, ledger), event =>
      (life.step setup event).map fun next =>
        (next, ledger.after setup life event)

/-- Processes may die, but nothing is reported as failed. -/
def Event.succeeds : Event → Bool
  | .step action => !action.fails
  | .lost dies => dies
  | .recover reply => reply ≠ .failed
  | .resume ok _ => ok
  | _ => true

def topTxid (uploads : List (FileKey × LtxFile)) : Nat :=
  headTxid (uploads.map Prod.fst)

/-- Each upload repeats an earlier one, bytes and all, or has the next TXID. -/
def Consecutive : List (FileKey × LtxFile) → Prop
  | [] => True
  | entry :: before =>
      (entry ∈ before ∨
        entry.1 = ⟨level0, topTxid before + 1, topTxid before + 1⟩) ∧
        Consecutive before

/-- The position at the end of a file. -/
def Position.EndOf (pos : Position) (file : LtxFile) : Prop :=
  pos.walOffset = file.header.walOffset + file.header.walSize ∧
    pos.salt1 = file.header.walSalt1 ∧ pos.salt2 = file.header.walSalt2

/-- The position of an empty replica, or the end of its newest L0 file. -/
def AtNewest (store : Store) (pos : Position) : Prop :=
  (store = ∅ ∧ pos = .default) ∨
    ∃ file, store[(⟨level0, pos.txid, pos.txid⟩ : FileKey)]? = some file ∧
      (∀ key ∈ store, key.level = level0 → key.maxTxid ≤ pos.txid) ∧
      pos.EndOf file

section Uploaded

variable {uploads : List (FileKey × LtxFile)} {entry : FileKey × LtxFile}

theorem le_topTxid (member : entry ∈ uploads) :
    entry.1.maxTxid ≤ topTxid uploads :=
  maxTxid_le_headTxid (List.mem_map_of_mem member)

theorem topTxid_repeated (member : entry ∈ uploads) :
    topTxid (entry :: uploads) = topTxid uploads := by
  apply Nat.le_antisymm
  · apply headTxid_le
    intro key inside
    rcases List.mem_cons.mp inside with rfl | old
    · exact le_topTxid member
    · exact maxTxid_le_headTxid old
  · apply headTxid_le
    exact fun key old => maxTxid_le_headTxid (List.mem_cons_of_mem _ old)

theorem topTxid_next
    (next : entry.1 =
      ⟨level0, topTxid uploads + 1, topTxid uploads + 1⟩) :
    topTxid (entry :: uploads) = topTxid uploads + 1 := by
  have ends : entry.1.maxTxid = topTxid uploads + 1 := by rw [next]
  apply Nat.le_antisymm
  · apply headTxid_le
    intro key inside
    rcases List.mem_cons.mp inside with rfl | old
    · exact Nat.le_of_eq ends
    · exact Nat.le_succ_of_le (maxTxid_le_headTxid old)
  · rw [← ends]
    exact le_topTxid List.mem_cons_self

theorem Consecutive.key (consecutive : Consecutive uploads)
    (member : entry ∈ uploads) :
    entry.1 = ⟨level0, entry.1.maxTxid, entry.1.maxTxid⟩ ∧
      1 ≤ entry.1.maxTxid := by
  induction uploads with
  | nil => cases member
  | cons head before ih =>
      obtain ⟨first, rest⟩ := consecutive
      rcases List.mem_cons.mp member with rfl | old
      · rcases first with repeated | next
        · exact ih rest repeated
        · rw [next]
          exact ⟨rfl, Nat.le_add_left 1 _⟩
      · exact ih rest old

/-- No address is written twice with different bytes. -/
theorem Consecutive.unique (consecutive : Consecutive uploads)
    {other : FileKey × LtxFile} (member : entry ∈ uploads)
    (otherMember : other ∈ uploads) (same : entry.1 = other.1) :
    entry = other := by
  induction uploads with
  | nil => cases member
  | cons head before ih =>
      obtain ⟨first, rest⟩ := consecutive
      -- a file with the next TXID has an address of its own
      have apart (next : head.1 =
          ⟨level0, topTxid before + 1, topTxid before + 1⟩)
          {old : FileKey × LtxFile} (earlier : old ∈ before) :
          old.1 ≠ head.1 := by
        intro equal
        have bound := le_topTxid earlier
        rw [equal, next] at bound
        simp only at bound
        omega
      rcases first with repeated | next
      · have inside : ∀ found ∈ head :: before, found ∈ before := by
          intro found present
          rcases List.mem_cons.mp present with rfl | old
          · exact repeated
          · exact old
        exact ih rest (inside _ member) (inside _ otherMember)
      · rcases List.mem_cons.mp member with rfl | old
        · rcases List.mem_cons.mp otherMember with rfl | otherOld
          · rfl
          · exact absurd same.symm (apart next otherOld)
        · rcases List.mem_cons.mp otherMember with rfl | otherOld
          · exact absurd same (apart next old)
          · exact ih rest old otherOld

end Uploaded

section Deriving

theorem newestFile_append (files : List LtxFileInfo) (file : LtxFileInfo) :
    newestFile (files ++ [file]) =
      match newestFile files with
      | none => some file
      | some best =>
          if best.maxTxid ≤ file.maxTxid then some file else some best := by
  rw [newestFile, List.foldl_append]
  rfl

theorem newestFile_eq_none {files : List LtxFileInfo}
    (absent : newestFile files = none) : files = [] := by
  induction files using List.reverseRecOn with
  | nil => rfl
  | append_singleton before file _ =>
      rw [newestFile_append] at absent
      split at absent
      · cases absent
      · split at absent
        · cases absent
        · cases absent

theorem newestFile_eq_some {files : List LtxFileInfo} {newest : LtxFileInfo}
    (found : newestFile files = some newest) :
    newest ∈ files ∧ ∀ file ∈ files, file.maxTxid ≤ newest.maxTxid := by
  induction files using List.reverseRecOn generalizing newest with
  | nil => cases found
  | append_singleton before last ih =>
      rw [newestFile_append] at found
      simp only [List.mem_append, List.mem_singleton]
      split at found
      · rename_i absent
        cases found
        rw [newestFile_eq_none absent]
        simp
      · rename_i best present
        obtain ⟨member, greatest⟩ := ih present
        split at found
        · rename_i later
          cases found
          refine ⟨.inr rfl, ?_⟩
          rintro file (old | rfl)
          · exact Nat.le_trans (greatest file old) later
          · exact Nat.le_refl _
        · rename_i earlier
          cases found
          refine ⟨.inl member, ?_⟩
          rintro file (old | rfl)
          · exact greatest file old
          · exact Nat.le_of_not_le earlier

/-- In a replica of L0 files only, the position comes from the newest one. -/
theorem derivePosition_newest {modified : FileKey → Int} {store : Store}
    {pos : Position}
    (single : ∀ key ∈ store, key = ⟨level0, key.maxTxid, key.maxTxid⟩)
    (derived : derivePosition (listedFiles modified (listAllLtx store)) store =
      .ok pos) : AtNewest store pos := by
  have bounds := derivePosition_bounds derived
  have txid := derivePosition_txid derived
  have indexed : ∀ key, key ∈ listedFiles modified (listAllLtx store) ↔
      key ∈ store := by
    intro key
    rw [mem_listedFiles, mem_listAllLtx, ← OrderedMap.mem_iff_exists]
    constructor
    · exact And.left
    · intro inside
      refine ⟨inside, ?_⟩
      rw [single key inside]
      exact Nat.zero_le _
  unfold derivePosition at derived
  split at derived
  · rename_i empty
    cases derived
    refine .inl ⟨?_, rfl⟩
    apply ExtTreeMap.ext_getElem?
    intro key
    rw [ExtTreeMap.getElem?_empty]
    by_contra present
    obtain ⟨file, held⟩ := Option.ne_none_iff_exists'.mp present
    have listed := (indexed key).mpr
      ((OrderedMap.mem_iff_exists _ _).mpr ⟨file, held⟩)
    have member := ExtTreeMap.mem_keys.mpr listed
    rw [show (listedFiles modified (listAllLtx store)).keys = [] from empty]
      at member
    exact absurd member List.not_mem_nil
  · rename_i nonempty
    split at derived
    · rename_i absent
      exfalso
      obtain ⟨key, member⟩ := List.exists_mem_of_ne_nil _ nonempty
      have listed := ExtTreeMap.mem_keys.mp member
      have level := congrArg FileKey.level (single key ((indexed key).mp listed))
      obtain ⟨file, inLevel, _⟩ := FileIndex.exists_listed listed
      rw [level, newestFile_eq_none absent] at inLevel
      exact absurd inLevel List.not_mem_nil
    · rename_i newest found
      obtain ⟨file, read, done⟩ := bind_eq_ok.mp derived
      cases done
      obtain ⟨member, greatest⟩ := newestFile_eq_some found
      have inside := (indexed _).mp (FileIndex.mem_of_list member)
      -- the newest file ends at the largest TXID of all
      have ends : newest.maxTxid =
          headTxid (listedFiles modified (listAllLtx store)).allLevels := by
        apply Nat.le_antisymm
        · exact maxTxid_le_headTxid
            (ExtTreeMap.mem_keys.mpr (FileIndex.mem_of_list member))
        · apply headTxid_le
          intro key listed
          have stored := ExtTreeMap.mem_keys.mp listed
          have level :=
            congrArg FileKey.level (single key ((indexed key).mp stored))
          obtain ⟨other, inLevel, rfl⟩ := FileIndex.exists_listed stored
          rw [level] at inLevel
          exact greatest other inLevel
      refine .inr ⟨file, ?_, ?_, rfl, rfl, rfl⟩
      · have address := single _ inside
        rw [ends] at address
        rw [getLtx_eq_ok, address] at read
        exact read
      · intro key stored level
        exact bounds key stored (by rw [level]; exact Nat.zero_le _)

end Deriving

/-- `head` is the last TXID that the position counts; a process that died may
have left the next one in the replica. -/
structure Recoverable (life : Lifetime) (ledger : Ledger) (head : Nat) :
    Prop where
  stored : ∀ (key : FileKey) (file : LtxFile),
    life.syncer.store[key]? = some file ↔ (key, file) ∈ ledger.uploads
  renamed : ∀ entry ∈ ledger.renamed,
    entry ∈ ledger.uploads ∨ life.syncer.staging[entry.1]? = some entry.2
  whole : ∀ entry ∈ ledger.uploads, entry ∈ ledger.renamed
  consecutive : Consecutive ledger.uploads
  staged : ∀ (key : FileKey) (file : LtxFile),
    life.syncer.staging[key]? = some file →
    (key, file) ∈ ledger.renamed ∧ key = ⟨level0, head + 1, head + 1⟩
  top : topTxid ledger.uploads = head ∨
    topTxid ledger.uploads = head + 1 ∧ ∀ (key : FileKey) (file : LtxFile),
      life.syncer.staging[key]? = some file → (key, file) ∈ ledger.uploads
  recovering : ∀ remaining, life.phase = .recovering remaining →
    ∀ key ∈ life.syncer.staging, key ∈ remaining
  running : life.phase = .running →
    life.syncer.pos.txid = head ∧ topTxid ledger.uploads = head
  free : life.phase = .running → life.syncer.pending = none →
    life.syncer.staging = ∅
  pending : life.phase = .running → ∀ staged,
    life.syncer.pending = some staged →
    (∃ file, life.syncer.staging[staged.key]? = some file) ∧
      staged.newPos.txid = head + 1

def Recovers (recorded : Lifetime × Ledger) : Prop :=
  ∃ head, Recoverable recorded.1 recorded.2 head

section Crashes

variable {setup : Setup} {life next : Lifetime} {ledger : Ledger}
  {event : Event} {head : Nat}

theorem Recoverable.single (recoverable : Recoverable life ledger head) :
    ∀ key ∈ life.syncer.store,
      key = ⟨level0, key.maxTxid, key.maxTxid⟩ := by
  intro key member
  obtain ⟨file, held⟩ := (OrderedMap.mem_iff_exists _ _).mp member
  exact (recoverable.consecutive.key ((recoverable.stored key file).mp held)).1

/-- The staged file is new to the replica, or it is there already. -/
theorem Recoverable.put (recoverable : Recoverable life ledger head)
    {key : FileKey} {file : LtxFile}
    (held : life.syncer.staging[key]? = some file) :
    uploadLtxFile setup.encodedSize life.syncer.store key file =
      .ok (life.syncer.store.insert key file) := by
  apply uploadLtxFile_harmless
  rcases recoverable.top with top | ⟨top, again⟩
  · left
    by_contra present
    obtain ⟨other, found⟩ := Option.ne_none_iff_exists'.mp present
    have bound := le_topTxid ((recoverable.stored key other).mp found)
    rw [(recoverable.staged key file held).2] at bound
    simp only at bound
    omega
  · exact .inr (.inl ((recoverable.stored key file).mpr (again key file held)))

theorem Recoverable.erased (recoverable : Recoverable life ledger head)
    {key : FileKey} {file : LtxFile}
    (held : life.syncer.staging[key]? = some file) :
    life.syncer.staging.erase key = ∅ := by
  apply OrderedMap.erase_eq_empty
  intro other found inside
  rw [(recoverable.staged other found inside).2,
    (recoverable.staged key file held).2]

/-- What the ledger says once the staged file is in the replica. -/
theorem Recoverable.upload (recoverable : Recoverable life ledger head)
    {key : FileKey} {file : LtxFile}
    (held : life.syncer.staging[key]? = some file) :
    (∀ (other : FileKey) (found : LtxFile),
      (life.syncer.store.insert key file)[other]? = some found ↔
        (other, found) ∈ (key, file) :: ledger.uploads) ∧
      (∀ entry ∈ (key, file) :: ledger.uploads, entry ∈ ledger.renamed) ∧
      Consecutive ((key, file) :: ledger.uploads) ∧
      topTxid ((key, file) :: ledger.uploads) = head + 1 := by
  obtain ⟨isRenamed, address⟩ := recoverable.staged key file held
  have first : (key, file) ∈ ledger.uploads ∨
      (key, file).1 = ⟨level0, topTxid ledger.uploads + 1,
        topTxid ledger.uploads + 1⟩ := by
    rcases recoverable.top with top | ⟨top, again⟩
    · right
      rw [top]
      exact address
    · exact .inl (again key file held)
  have consecutive : Consecutive ((key, file) :: ledger.uploads) :=
    ⟨first, recoverable.consecutive⟩
  refine ⟨?_, ?_, consecutive, ?_⟩
  · intro other found
    rw [OrderedMap.getElem?_insert]
    split
    · rename_i same
      subst same
      constructor
      · intro equal
        cases equal
        exact List.mem_cons_self
      · intro member
        have same := consecutive.unique List.mem_cons_self member rfl
        cases same
        rfl
    · rename_i different
      rw [recoverable.stored, List.mem_cons]
      constructor
      · exact .inr
      · rintro (same | old)
        · cases same
          exact absurd rfl different
        · exact old
  · intro entry member
    rcases List.mem_cons.mp member with rfl | old
    · exact isRenamed
    · exact recoverable.whole entry old
  · rcases recoverable.top with top | ⟨top, again⟩
    · rw [topTxid_next (by rw [top]; exact address), top]
    · rw [topTxid_repeated (again key file held), top]

/-- A step that touches neither the staging directory nor the replica. -/
theorem Recoverable.idle (recoverable : Recoverable life ledger head)
    (store : next.syncer.store = life.syncer.store)
    (staging : next.syncer.staging = life.syncer.staging)
    (position : next.syncer.pos = life.syncer.pos)
    (phase : next.phase = life.phase ∨ next.phase = .closed)
    (pending : next.phase = .running →
      next.syncer.pending = life.syncer.pending) :
    Recoverable next ledger head := by
  have before (isRunning : next.phase = .running) : life.phase = .running := by
    rcases phase with same | isClosed
    · rw [← same, isRunning]
    · rw [isClosed] at isRunning
      cases isRunning
  constructor
  · rw [store]
    exact recoverable.stored
  · rw [staging]
    exact recoverable.renamed
  · exact recoverable.whole
  · exact recoverable.consecutive
  · rw [staging]
    exact recoverable.staged
  · rw [staging]
    exact recoverable.top
  · rw [staging]
    intro remaining isRecovering
    rcases phase with same | isClosed
    · exact recoverable.recovering remaining (same ▸ isRecovering)
    · rw [isClosed] at isRecovering
      cases isRecovering
  · rw [position]
    exact fun isRunning => recoverable.running (before isRunning)
  · rw [staging]
    intro isRunning
    rw [pending isRunning]
    exact recoverable.free (before isRunning)
  · rw [staging]
    intro isRunning
    rw [pending isRunning]
    exact recoverable.pending (before isRunning)

theorem Recoverable.inside {action : Action}
    (recoverable : Recoverable life ledger head)
    (succeeds : action.fails = false)
    (isRunning : life.phase = .running)
    (stepped : life.syncer.step setup action = some next.syncer)
    (phase : next.phase = .running) :
    Recovers (next, ledger.after setup life (.step action)) := by
  obtain ⟨txid, top⟩ := recoverable.running isRunning
  have stopped : ∀ remaining, next.phase ≠ .recovering remaining := by
    intro remaining impossible
    rw [phase] at impossible
    cases impossible
  cases step_move stepped with
  | kept store staging position pending _ stages puts =>
      refine ⟨head, ?_⟩
      simp only [Ledger.after, Lifetime.renames, State.renames, stages,
        Lifetime.puts, puts, Option.bind_none, Option.toList_none,
        List.nil_append]
      exact recoverable.idle store staging position
        (.inl (phase.trans isRunning.symm)) fun _ => pending
  | dropped failed _ store staging position free stages puts =>
      refine ⟨head, ?_⟩
      simp only [Ledger.after, Lifetime.renames, State.renames, stages,
        Lifetime.puts, puts, Option.bind_none, Option.toList_none,
        List.nil_append]
      rcases failed with impossible | ⟨staged, now, error, waits, refused⟩ |
        ⟨_, _, wasFree, _⟩
      · rw [succeeds] at impossible
        cases impossible
      · obtain ⟨⟨file, held⟩, _⟩ := recoverable.pending isRunning staged waits
        rw [State.uploadStaged, State.readStaged_eq_ok.mpr held] at refused
        change (uploadLtxFile setup.encodedSize life.syncer.store staged.key
          file >>= _) = _ at refused
        rw [recoverable.put held] at refused
        cases refused
      · exact recoverable.idle store staging position
          (.inl (phase.trans isRunning.symm)) fun _ => free.trans wasFree.symm
  | staged draft staged file drafted stages puts built _ free _ store staging
      position pending =>
      have empty := recoverable.free isRunning free
      have stagedOk := Draft.build_staged built
      have address : staged.key = ⟨level0, head + 1, head + 1⟩ := by
        rw [stagedOk.key, txid]
      have uploaded : ∀ entry ∈ ledger.renamed, entry ∈ ledger.uploads := by
        intro entry member
        rcases recoverable.renamed entry member with done | held
        · exact done
        · rw [empty] at held
          simp at held
      have only : ∀ (key : FileKey) (found : LtxFile),
          next.syncer.staging[key]? = some found →
          key = staged.key ∧ found = file := by
        intro key found held
        rw [staging, OrderedMap.getElem?_insert] at held
        split at held
        · rename_i same
          cases held
          exact ⟨same, rfl⟩
        · rw [empty] at held
          simp at held
      have present : next.syncer.staging[staged.key]? = some file := by
        rw [staging, ExtTreeMap.getElem?_insert_self]
      refine ⟨head, ?_⟩
      simp only [Ledger.after, Lifetime.renames, State.renames, stages,
        Lifetime.puts, puts, Option.bind_some, built, Option.toList_none,
        Option.toList_some, List.nil_append, List.singleton_append]
      constructor
      · rw [store]
        exact recoverable.stored
      · intro entry member
        rcases List.mem_cons.mp member with rfl | old
        · exact .inr present
        · exact .inl (uploaded entry old)
      · exact fun entry member =>
          List.mem_cons_of_mem _ (recoverable.whole entry member)
      · exact recoverable.consecutive
      · intro key found held
        obtain ⟨rfl, rfl⟩ := only key found held
        exact ⟨List.mem_cons_self, address⟩
      · exact .inl top
      · exact fun remaining impossible => absurd impossible (stopped remaining)
      · rw [position]
        exact fun _ => ⟨txid, top⟩
      · intro _ impossible
        rw [pending] at impossible
        cases impossible
      · intro _ other waits
        rw [pending] at waits
        cases waits
        exact ⟨⟨file, present⟩, by rw [stagedOk.txid, txid]⟩
  | uploaded staged file pending held _ store staging position free _ stages
      puts =>
      obtain ⟨_, after⟩ := recoverable.pending isRunning staged pending
      obtain ⟨stored, whole, consecutive, newTop⟩ := recoverable.upload held
      have empty := recoverable.erased held
      refine ⟨head + 1, ?_⟩
      simp only [Ledger.after, Lifetime.renames, State.renames, stages,
        Lifetime.puts, puts, Option.bind_none, Option.toList_none,
        Option.toList_some, List.nil_append, List.singleton_append]
      constructor
      · rw [store]
        exact stored
      · intro entry member
        rcases recoverable.renamed entry member with done | waiting
        · exact .inl (List.mem_cons_of_mem _ done)
        · have same : entry.1 = staged.key := by
            rw [(recoverable.staged _ _ waiting).2,
              (recoverable.staged _ _ held).2]
          rw [same, held] at waiting
          cases waiting
          left
          rw [← same]
          exact List.mem_cons_self
      · exact whole
      · exact consecutive
      · rw [staging, empty]
        exact fun _ _ impossible => by simp at impossible
      · exact .inl newTop
      · exact fun remaining impossible => absurd impossible (stopped remaining)
      · rw [position]
        exact fun _ => ⟨after, newTop⟩
      · rw [staging]
        exact fun _ _ => empty
      · intro _ other waits
        rw [free] at waits
        cases waits

/-- The store takes the staged file, which stays where it is. -/
theorem Recoverable.taken {key : FileKey} {file : LtxFile}
    (recoverable : Recoverable life ledger head)
    (held : life.syncer.staging[key]? = some file)
    (store : next.syncer.store = life.syncer.taken setup key file)
    (staging : next.syncer.staging = life.syncer.staging)
    (phase : next.phase = .closed) :
    Recoverable next
      { ledger with uploads := (key, file) :: ledger.uploads } head := by
  obtain ⟨stored, whole, consecutive, newTop⟩ := recoverable.upload held
  have stopped : next.phase ≠ .running := by
    rw [phase]
    exact fun impossible => by cases impossible
  have put : life.syncer.taken setup key file =
      life.syncer.store.insert key file := by
    unfold State.taken
    rw [recoverable.put held]
  constructor
  · rw [store, put]
    exact stored
  · rw [staging]
    intro entry member
    rcases recoverable.renamed entry member with done | waiting
    · exact .inl (List.mem_cons_of_mem _ done)
    · exact .inr waiting
  · exact whole
  · exact consecutive
  · rw [staging]
    exact recoverable.staged
  · rw [staging]
    refine .inr ⟨newTop, ?_⟩
    intro other found inside
    have same : other = key := by
      rw [(recoverable.staged other found inside).2,
        (recoverable.staged key file held).2]
    subst same
    rw [held] at inside
    cases inside
    exact List.mem_cons_self
  · intro remaining isRecovering
    rw [phase] at isRecovering
    cases isRecovering
  · exact fun isRunning => absurd isRunning stopped
  · exact fun isRunning => absurd isRunning stopped
  · exact fun isRunning => absurd isRunning stopped

theorem Recoverable.recovered {key : FileKey} {rest : List FileKey}
    {file : LtxFile} (recoverable : Recoverable life ledger head)
    (held : life.syncer.staging[key]? = some file)
    (store : next.syncer.store = life.syncer.store.insert key file)
    (staging : next.syncer.staging = life.syncer.staging.erase key)
    (phase : next.phase = .recovering rest) :
    Recoverable next
      { ledger with uploads := (key, file) :: ledger.uploads } (head + 1) := by
  obtain ⟨stored, whole, consecutive, newTop⟩ := recoverable.upload held
  have empty := recoverable.erased held
  have stopped : next.phase ≠ .running := by
    rw [phase]
    exact fun impossible => by cases impossible
  constructor
  · rw [store]
    exact stored
  · intro entry member
    rcases recoverable.renamed entry member with done | waiting
    · exact .inl (List.mem_cons_of_mem _ done)
    · have same : entry.1 = key := by
        rw [(recoverable.staged _ _ waiting).2,
          (recoverable.staged _ _ held).2]
      rw [same, held] at waiting
      cases waiting
      left
      rw [← same]
      exact List.mem_cons_self
  · exact whole
  · exact consecutive
  · rw [staging, empty]
    exact fun _ _ impossible => by simp at impossible
  · exact .inl newTop
  · rw [staging, empty]
    exact fun _ _ _ impossible => by simp at impossible
  · exact fun isRunning => absurd isRunning stopped
  · exact fun isRunning => absurd isRunning stopped
  · exact fun isRunning => absurd isRunning stopped

/-- Once the recovery has nothing left to upload, every staged file is in the
replica. -/
theorem Recoverable.arrived (recoverable : Recoverable life ledger head)
    (wasRecovering : life.phase = .recovering []) :
    life.syncer.staging = ∅ ∧
      ∀ entry ∈ ledger.renamed, entry ∈ ledger.uploads := by
  have empty : life.syncer.staging = ∅ := by
    apply ExtTreeMap.ext_getElem?
    intro key
    rw [ExtTreeMap.getElem?_empty]
    by_contra present
    obtain ⟨file, held⟩ := Option.ne_none_iff_exists'.mp present
    exact absurd (recoverable.recovering [] wasRecovering key
      ((OrderedMap.mem_iff_exists _ _).mpr ⟨file, held⟩)) List.not_mem_nil
  refine ⟨empty, ?_⟩
  intro entry member
  rcases recoverable.renamed entry member with done | waiting
  · exact done
  · rw [empty] at waiting
    simp at waiting

/-- The derived TXID is the last one uploaded. -/
theorem AtNewest.top {pos : Position} (newest : AtNewest life.syncer.store pos)
    (recoverable : Recoverable life ledger head) :
    pos.txid = topTxid ledger.uploads := by
  rcases newest with ⟨empty, rfl⟩ | ⟨file, held, greatest, _⟩
  · rcases exists_headTxid (ledger.uploads.map Prod.fst) with
      none_ | ⟨key, member, _⟩
    · exact none_.symm
    · obtain ⟨⟨key, file⟩, uploaded, rfl⟩ := List.mem_map.mp member
      have held := (recoverable.stored key file).mpr uploaded
      rw [empty] at held
      simp at held
  · apply Nat.le_antisymm
    · exact le_topTxid ((recoverable.stored _ _).mp held)
    · apply headTxid_le
      intro key member
      obtain ⟨⟨key, file⟩, uploaded, rfl⟩ := List.mem_map.mp member
      apply greatest key
      · exact (OrderedMap.mem_iff_exists _ _).mpr
          ⟨file, (recoverable.stored key file).mpr uploaded⟩
      · exact congrArg FileKey.level (recoverable.consecutive.key uploaded).1

theorem Recoverable.resumed {pos : Position}
    (recoverable : Recoverable life ledger head)
    (wasRecovering : life.phase = .recovering [])
    (newest : AtNewest life.syncer.store pos)
    (store : next.syncer.store = life.syncer.store)
    (staging : next.syncer.staging = life.syncer.staging)
    (position : next.syncer.pos = pos)
    (idle : next.syncer.pc = .idle) (phase : next.phase = .running) :
    Recoverable next ledger pos.txid := by
  obtain ⟨empty, arrived⟩ := recoverable.arrived wasRecovering
  rw [← staging] at empty
  have top := newest.top recoverable
  constructor
  · rw [store]
    exact recoverable.stored
  · exact fun entry member => .inl (arrived entry member)
  · exact recoverable.whole
  · exact recoverable.consecutive
  · rw [empty]
    exact fun _ _ impossible => by simp at impossible
  · exact .inl top.symm
  · intro remaining isRecovering
    rw [phase] at isRecovering
    cases isRecovering
  · rw [position]
    exact fun _ => ⟨rfl, top.symm⟩
  · exact fun _ _ => empty
  · intro _ staged waits
    rw [State.pending_idle idle] at waits
    cases waits

theorem Ledger.after_calm (calm : ∀ action, event ≠ .step action)
    (puts : life.puts setup event = none) :
    ledger.after setup life event = ledger := by
  have renames : life.renames setup event = none := by
    cases event with
    | step action => exact absurd rfl (calm action)
    | _ => rfl
  simp only [Ledger.after, renames, puts, Option.toList_none, List.nil_append]

theorem Ledger.after_put {entry : FileKey × LtxFile}
    (calm : ∀ action, event ≠ .step action)
    (puts : life.puts setup event = some entry) :
    ledger.after setup life event =
      { ledger with uploads := entry :: ledger.uploads } := by
  have renames : life.renames setup event = none := by
    cases event with
    | step action => exact absurd rfl (calm action)
    | _ => rfl
  simp only [Ledger.after, renames, puts, Option.toList_none,
    Option.toList_some, List.nil_append, List.singleton_append]

theorem Recoverable.step (recoverable : Recoverable life ledger head)
    (succeeds : event.succeeds = true)
    (stepped : life.step setup event = some next) :
    Recovers (next, ledger.after setup life event) := by
  cases step_lifeMove stepped with
  | outside action happened foreign done same phase _ =>
      subst happened
      obtain ⟨db, same⟩ := same
      have unchanged : ledger.after setup life (.step action) = ledger := by
        cases action with
        | commit restart salt2 txn => rfl
        | appCheckpoint frames => rfl
        | appTruncate => rfl
        | _ => cases foreign
      refine ⟨head, ?_⟩
      rw [unchanged]
      apply recoverable.idle _ _ _ (.inl phase)
      · rw [same]
        exact fun _ => rfl
      · rw [same]
      · rw [same]
      · rw [same]
  | inside action happened isRunning done phase _ =>
      subst happened
      have passes : action.fails = false := by
        simpa [Event.succeeds] using succeeds
      exact recoverable.inside passes isRunning done phase
  | lost dies key file happened isRunning uploading same phase _ =>
      subst happened
      have died : dies = true := succeeds
      obtain ⟨held, _⟩ := State.uploading_eq_some uploading
      have took : life.syncer.took setup = true := by
        simp only [State.took, uploading, recoverable.put held]
      obtain ⟨mark, same⟩ := same
      refine ⟨head, ?_⟩
      rw [@Ledger.after_put setup life ledger _ (key, file)
        (fun _ impossible => by cases impossible)
        (by simp only [Lifetime.puts, took, if_true, uploading])]
      apply recoverable.taken held
      · rw [same]
      · rw [same]
      · rw [phase, if_pos died]
  | closed calm puts same phase _ =>
      refine ⟨head, ?_⟩
      rw [Ledger.after_calm calm puts]
      apply recoverable.idle _ _ _ (.inr phase)
      · rw [phase]
        exact fun impossible => by cases impossible
      · rw [same]
        rfl
      · rw [same]
        rfl
      · rw [same]
        rfl
  | opened calm puts wasClosed same phase _ =>
      refine ⟨head, ?_⟩
      rw [Ledger.after_calm calm puts]
      have stopped : next.phase ≠ .running := by
        rw [phase]
        exact fun impossible => by cases impossible
      have idle : Recoverable { next with phase := .closed } ledger head := by
        apply recoverable.idle _ _ _ (.inr rfl)
        · exact fun impossible => by cases impossible
        · rw [same]
        · rw [same]
        · rw [same]
      refine { idle with
        recovering := ?_
        running := fun isRunning => absurd isRunning stopped
        free := fun isRunning => absurd isRunning stopped
        pending := fun isRunning => absurd isRunning stopped }
      intro remaining isRecovering key inside
      rw [phase] at isRecovering
      cases isRecovering
      rw [same] at inside
      exact mem_recoverOrder.mpr inside
  | recovered key rest file store calm puts wasRecovering held put same phase
      _ =>
      rw [recoverable.put held] at put
      cases put
      refine ⟨head + 1, ?_⟩
      rw [Ledger.after_put calm puts]
      apply recoverable.recovered held _ _ phase
      · rw [same]
      · rw [same]
  | recoverLost key rest file calm puts wasRecovering held same phase _ =>
      refine ⟨head, ?_⟩
      rw [Ledger.after_put calm (puts _ (recoverable.put held))]
      have store : next.syncer.store = life.syncer.taken setup key file := by
        rw [same]
        rfl
      apply recoverable.taken held store _ phase
      rw [same]
      rfl
  | refused key rest file error wasRecovering held put same phase _ =>
      rw [recoverable.put held] at put
      cases put
  | resumed modified pos happened wasRecovering derived store staging db
      position idle phase _ =>
      subst happened
      have newest := derivePosition_newest recoverable.single derived
      refine ⟨pos.txid, ?_⟩
      rw [Ledger.after_calm (fun _ impossible => by cases impossible) rfl]
      exact recoverable.resumed wasRecovering newest store staging position idle
        phase

/-- Nothing was ever staged or uploaded, and no process runs. -/
structure Untouched (life : Lifetime) : Prop where
  closed : life.phase = .closed
  staging : life.syncer.staging = ∅
  store : life.syncer.store = ∅

theorem Untouched.recoverable (untouched : Untouched life) :
    Recoverable life .empty 0 := by
  have stopped : life.phase ≠ .running := by
    rw [untouched.closed]
    exact fun impossible => by cases impossible
  constructor
  · rw [untouched.store]
    simp [Ledger.empty]
  · simp [Ledger.empty]
  · simp [Ledger.empty]
  · trivial
  · rw [untouched.staging]
    exact fun _ _ impossible => by simp at impossible
  · exact .inl rfl
  · rw [untouched.staging]
    exact fun _ _ _ impossible => by simp at impossible
  · exact fun isRunning => absurd isRunning stopped
  · exact fun isRunning => absurd isRunning stopped
  · exact fun isRunning => absurd isRunning stopped

theorem Untouched.reaches (untouched : Untouched life)
    {final : Lifetime × Ledger}
    (run : Reaches (recordedStep setup) (fun _ event => event.succeeds = true)
      (life, .empty) final) : Recovers final := by
  apply run.invariant ⟨0, untouched.recoverable⟩
  rintro ⟨state, recorded⟩ event next ⟨head, recoverable⟩ succeeds stepped
  obtain ⟨after, done, rfl⟩ := Option.map_eq_some_iff.mp stepped
  exact recoverable.step succeeds done

/-- Crashes lose no staged file: the next open that succeeds has them all in the
replica and resumes at its newest file. -/
theorem crashes_lose_nothing (untouched : Untouched life)
    {state : Lifetime} {recorded : Ledger}
    (run : Reaches (recordedStep setup) (fun _ event => event.succeeds = true)
      (life, .empty) (state, recorded)) :
    (∀ entry ∈ recorded.uploads, entry ∈ recorded.renamed) ∧
      Consecutive recorded.uploads ∧
      (∀ entry ∈ recorded.uploads, ∀ other ∈ recorded.uploads,
        entry.1 = other.1 → entry.2 = other.2) ∧
      ∀ modified opened,
        state.step setup (.resume true modified) = some opened →
        opened.phase = .running →
        (∀ entry ∈ recorded.renamed,
          opened.syncer.store[entry.1]? = some entry.2) ∧
          AtNewest opened.syncer.store opened.syncer.pos := by
  obtain ⟨head, recoverable⟩ := untouched.reaches run
  refine ⟨recoverable.whole, recoverable.consecutive, ?_, ?_⟩
  · intro entry member other otherMember same
    rw [recoverable.consecutive.unique member otherMember same]
  · intro modified opened stepped isRunning
    cases step_lifeMove stepped with
    | resumed _ pos _ wasRecovering derived store _ _ position _ _ _ =>
        have newest := derivePosition_newest recoverable.single derived
        rw [store, position]
        refine ⟨?_, newest⟩
        intro entry member
        exact (recoverable.stored _ _).mpr
          ((recoverable.arrived wasRecovering).2 entry member)
    | outside action happened => cases happened
    | inside action happened => cases happened
    | lost dies key file happened => cases happened
    | closed _ _ _ phase =>
        rw [phase] at isRunning
        cases isRunning
    | opened _ _ _ _ phase =>
        rw [phase] at isRunning
        cases isRunning
    | recovered key rest file store _ _ _ _ _ _ phase =>
        rw [phase] at isRunning
        cases isRunning
    | recoverLost key rest file _ _ _ _ _ phase =>
        rw [phase] at isRunning
        cases isRunning
    | refused key rest file error _ _ _ _ phase =>
        rw [phase] at isRunning
        cases isRunning

end Crashes

/-! ## Several crashes in a row -/

theorem newLife_untouched : Untouched newLife where
  closed := rfl
  staging := rfl
  store := rfl

/-- A process dies while it writes a file, the next one after the checkpoint and
before the upload, and two more in the recovery. -/
def manyCrashes : List Event :=
  [.step (commitPage 1 1), .openSyncer, .resume true (fun _ => 0),
    .crash (some ⟨level0, 1, 1⟩), .openSyncer, .resume true (fun _ => 0),
    .step (.checkpointNow 1 .passive), .step .release,
    .step (.pragma (.copied 1)), .crash none, .openSyncer, .recover .lost,
    .step (commitPage 2 2), .openSyncer, .crash none, .openSyncer,
    .recover .done]

theorem crashes_lose_nothing_many :
    ∃ final ∈ execGuarded (recordedStep smallSetup)
        (fun _ event => event.succeeds = true) (newLife, .empty) manyCrashes,
      (∃ opened,
        final.1.step smallSetup (.resume true fun _ => 0) = some opened ∧
        opened.phase = .running) ∧
      (∀ entry ∈ final.2.uploads, entry ∈ final.2.renamed) ∧
      Consecutive final.2.uploads ∧
      ∀ modified opened,
        final.1.step smallSetup (.resume true modified) = some opened →
        opened.phase = .running →
        (∀ entry ∈ final.2.renamed,
          opened.syncer.store[entry.1]? = some entry.2) ∧
          AtNewest opened.syncer.store opened.syncer.pos := by
  have runs : ∃ final ∈ execGuarded (recordedStep smallSetup)
        (fun _ event => event.succeeds = true) (newLife, .empty) manyCrashes,
      ∃ opened ∈ final.1.step smallSetup (.resume true fun _ => 0),
        opened.phase = .running := by
    decide +kernel
  obtain ⟨final, ran, opened, stepped, isRunning⟩ := runs
  obtain ⟨whole, consecutive, _, resumed⟩ :=
    crashes_lose_nothing newLife_untouched (reaches_of_execGuarded ran)
  exact ⟨final, ran, ⟨opened, stepped, isRunning⟩, whole, consecutive, resumed⟩

end Literstream
