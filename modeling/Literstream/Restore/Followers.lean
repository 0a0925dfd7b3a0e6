import Literstream.Restore.Copiers

/-!
# Followers of a live replica

A follower keeps a local copy by calls of `restoreToPath`, `catchUp` and
`restoreIncremental`, whose requests are answered while the writer goes on, and
which may be stopped or crash anywhere.  A clean marker beside the copy always
describes one image of the database.
-/

namespace Literstream

open Asking.Performer

inductive FollowerCall where
  | restoreToPath
  | catchUp
  | restoreIncremental (fromTxid : Nat)

/-- The TXID of a call of `restoreIncremental` is that of a clean marker. -/
def FollowerCall.Fits (disk : Disk) : FollowerCall → Prop
  | .restoreIncremental fromTxid => ∃ pageSize commit fileLen,
      disk.marker = some (.clean fromTxid pageSize commit fileLen)
  | _ => True

/-- What a call does on a replica that stays as it is. -/
def FollowerCall.script (store : Store) (disk : Disk) :
    FollowerCall → Script FileOp SyncError Unit
  | .restoreToPath => Literstream.restoreToPath store >>= fun _ => pure ()
  | .catchUp => Literstream.catchUp store disk >>= fun _ => pure ()
  | .restoreIncremental fromTxid =>
      Literstream.restoreIncremental store disk fromTxid >>= fun _ => pure ()

/-- A call with the listing in hand. -/
def FollowerCall.copying (disk : Disk) (files : List FileKey) :
    FollowerCall → Copier Unit
  | .restoreToPath => (Copier.restoringToPath files).chain fun _ =>
      Copier.performing (pure ())
  | .catchUp => (Copier.catchingUp files disk).chain fun _ =>
      Copier.performing (pure ())
  | .restoreIncremental fromTxid =>
      (Copier.restoringIncremental files disk fromTxid).chain fun _ =>
        Copier.performing (pure ())

/-- A call request by request; its levels are listed in `order`. -/
def FollowerCall.copier (order : List Nat) (disk : Disk)
    (call : FollowerCall) : Copier Unit :=
  listing (Script.lift (.error .storage))
    (fun answers => call.copying disk answers.files) order []

/-- A writer and a follower. -/
structure Fleet where
  /-- The writer, and what is left of the follower's call. -/
  visit : Visit (Script FileOp SyncError Unit)
  /-- The call in flight. -/
  call : Option FollowerCall
  disk : Disk

inductive FleetAction where
  | visits (action : VisitAction)
  | begins (order : List Nat) (call : FollowerCall)
  | ends (ending : Ending)

/-- A call performs its operations when its last request has been answered.
One that stops earlier is one whose remaining requests fail. -/
def Fleet.step (encodedSize : LtxFile → Nat) (fleet : Fleet) :
    FleetAction → Option Fleet
  | .visits action =>
      (fleet.visit.step encodedSize action).map fun visit =>
        { fleet with visit := visit }
  | .begins order call =>
      match fleet.call with
      | some _ => none
      | none =>
          some
            { fleet with
              visit :=
                { writer := fleet.visit.writer
                  visitor := call.copier order fleet.disk
                  events := [] }
              call := some call }
  | .ends ending =>
      match fleet.call, fleet.visit.visitor with
      | some _, .returns script =>
          (ending.apply script.ops fleet.disk).map fun disk =>
            { fleet with call := none, disk := disk }
      | _, _ => none

/-- An empty replica, and any file without a marker. -/
def Fleet.start (file : Option Bytes) : Fleet where
  visit := Visit.start (.returns (pure ()))
  call := none
  disk := { file := file, durable := file, pending := [], marker := none }

/-- The writer cascades, and every call lists all levels. -/
def History.follows (history : History) (fleet : Fleet) : FleetAction → Prop
  | .visits action => history.visits fleet.visit action
  | .begins order call =>
      order.Perm (List.range (maxLevel + 1)) ∧ call.Fits fleet.disk
  | .ends _ => True

/-! ## A call on a frozen replica -/

section Calls

variable {frozen : Store} {disk : Disk}

theorem FollowerCall.copier_polite {order : List Nat}
    (everyLevel : order.Perm (List.range (maxLevel + 1)))
    (call : FollowerCall) : Polite [] (call.copier order disk) := by
  apply polite_of_listing everyLevel
  intro answers
  apply @Polite.of_fetches _ _ _ fun _ => True
  cases call with
  | restoreToPath =>
      exact Only.chain Copier.only_restoringToPath fun _ => only_returns _
  | catchUp => exact Only.chain Copier.only_catchingUp fun _ => only_returns _
  | restoreIncremental fromTxid =>
      exact Only.chain Copier.only_restoringIncremental fun _ => only_returns _

theorem FollowerCall.copier_performs {order : List Nat}
    (everyLevel : order.Perm (List.range (maxLevel + 1)))
    (call : FollowerCall) :
    (call.copier order disk).Performs (replies frozen)
      (call.script frozen disk) := by
  apply yields_of_listing everyLevel
  · exact .stopped List.nil_prefix
  · intro answers listed
    rw [listed]
    cases call with
    | restoreToPath =>
        exact Performs.bind Copier.performs_restoringToPath fun _ _ =>
          performs_returns _
    | catchUp =>
        exact Performs.bind Copier.performs_catchingUp fun _ _ =>
          performs_returns _
    | restoreIncremental fromTxid =>
        exact Performs.bind Copier.performs_restoringIncremental fun _ _ =>
          performs_returns _

theorem FollowerCall.script_shielded (call : FollowerCall) :
    Shielded (call.script frozen disk) := by
  cases call with
  | restoreToPath => exact (shielded_restoreToPath frozen).map fun _ => ()
  | catchUp => exact (shielded_catchUp frozen disk).map fun _ => ()
  | restoreIncremental fromTxid =>
      exact (shielded_restoreIncremental frozen disk fromTxid).map fun _ => ()

end Calls

namespace History

variable {history : History} {frozen : Store} {head : Nat} {disk : Disk}

/-- The image at a synced TXID, with its marker. -/
def Lands (history : History) (head : Nat) (disk : Disk) : Prop :=
  ∃ txid ≤ head, disk = history.restored txid

/-- A clean marker describes the file, and its TXID is synced. -/
def Vouched (history : History) (head : Nat) (disk : Disk) : Prop :=
  ∀ txid pageSize commit fileLen,
    disk.marker = some (.clean txid pageSize commit fileLen) →
    txid ≤ head ∧ disk = history.restored txid

theorem headTxid_le_synced (synced : Synced head frozen.keys) :
    headTxid (listAllLtx frozen) ≤ head := by
  apply headTxid_le
  intro key member
  obtain ⟨stored, _⟩ := mem_listAllLtx.mp member
  exact (synced key (Std.ExtTreeMap.mem_keys.mpr
    ((OrderedMap.mem_iff_exists _ _).mpr stored))).2

/-- A full restore lands, however many files are missing. -/
theorem restoreToPath_lands (faithful : history.FaithfulStore frozen)
    (synced : Synced head frozen.keys) :
    Ensures (restoreToPath frozen) disk (history.Lands head) := by
  apply ensures_after_lift
  intro plan planned
  obtain ⟨same, _⟩ := planRestore_eq_ok planned
  have chain := greedyCover_chain (listAllLtx frozen) 0
  have listed := greedyCover_subset (listAllLtx frozen) 0
  have below := greedyCover_le_headTxid
    (Nat.zero_le (headTxid (listAllLtx frozen)))
  rw [← same] at chain listed
  obtain ⟨files, keys, loaded, exact_⟩ := exists_planned faithful listed
  subst keys
  intro reached done
  exact ⟨_, Nat.le_trans below (headTxid_le_synced synced),
    (applyPlanToPath_image disk loaded exact_ chain done).2⟩

/-- A delta restore of the image at the TXID it starts from lands. -/
theorem applyDelta_lands {plan : List FileKey} {shape : DeltaShape}
    {start : Nat} (faithful : history.FaithfulStore frozen)
    (synced : Synced head frozen.keys)
    (present : disk.file = some (history.image start))
    (behind : start < headTxid (listAllLtx frozen))
    (planned : planRestoreFrom (listAllLtx frozen) start = .ok plan)
    (nonempty : plan ≠ []) (scanned : deltaShape frozen plan = .ok shape)
    (stated : disk.file.bind localPageSize = some shape.pageSize) :
    Ensures (applyDeltaToPath frozen plan start shape) disk
      (history.Lands head) := by
  obtain ⟨chain, listed⟩ := planRestoreFrom_eq_ok behind planned
  obtain ⟨files, keys, loaded, exact_⟩ := exists_planned faithful listed
  subst keys
  have some_ : files ≠ [] := fun empty => nonempty (by simp [empty])
  obtain ⟨oneSize, _, _⟩ := deltaShape_eq_ok loaded some_ scanned
  obtain ⟨newest, last⟩ : ∃ newest, files.getLast? = some newest :=
    ⟨_, List.getLast?_eq_some_getLast some_⟩
  obtain ⟨_, finalSize, _⟩ := exact_.last chain last
  have shapeSize : shape.pageSize =
      history.pageSize (headTxid (listAllLtx frozen)) := by
    rw [← oneSize newest (List.mem_of_getLast? last), finalSize]
  -- The page size that the image states is its own.
  have honest := history.honest start (headTxid (listAllLtx frozen)) (by
    rw [← shapeSize, ← stated, present]
    rfl)
  intro reached _
  exact ⟨_, headTxid_le_synced synced,
    (applyDeltaToPath_image loaded exact_ chain some_ scanned
      (shapeSize.trans honest.symm) present).2⟩

theorem restoreIncremental_lands {start : Nat}
    (faithful : history.FaithfulStore frozen)
    (synced : Synced head frozen.keys) (below : start ≤ head)
    (same : disk = history.restored start) :
    Ensures (restoreIncremental frozen disk start) disk
      (history.Lands head) := by
  apply ensures_after_lift
  intro plan planned
  split
  · exact ensures_pure ⟨start, below, same⟩
  · rename_i nonempty
    have behind : start < headTxid (listAllLtx frozen) := by
      by_contra ahead
      rw [planRestoreFrom, if_pos (by omega)] at planned
      cases planned
      exact nonempty rfl
    apply ensures_after_lift
    intro shape scanned
    split
    · exact ensures_error _
    · rename_i localSize stated
      split
      · exact ensures_error _
      · rename_i sameGeometry
        rw [not_not.mp sameGeometry] at stated
        exact applyDelta_lands faithful synced (by rw [same]; rfl) behind
          planned nonempty scanned stated

theorem catchUp_lands (faithful : history.FaithfulStore frozen)
    (synced : Synced head frozen.keys) (vouched : history.Vouched head disk) :
    Ensures (catchUp frozen disk) disk (history.Lands head) := by
  have rebuilt : ∀ reason, Ensures (fullRestore frozen reason) disk
      (history.Lands head) := fun reason =>
    (restoreToPath_lands faithful synced).map fun reached =>
      CatchUp.fullRestore reached reason
  unfold catchUp
  split
  · exact rebuilt _
  · exact rebuilt _
  · rename_i txid pageSize commit fileLen marked
    obtain ⟨below, same⟩ := vouched txid pageSize commit fileLen marked
    split
    · exact rebuilt _
    · split
      · exact rebuilt _
      · split
        · exact ensures_pure ⟨txid, below, same⟩
        · split
          · exact rebuilt _
          · exact ensures_error _
          · rename_i plan planned
            split
            · exact ensures_pure ⟨txid, below, same⟩
            · rename_i nonempty
              apply ensures_after_lift
              intro shape scanned
              split
              · exact rebuilt _
              · rename_i sameGeometry
                obtain ⟨sameShape, stated⟩ := not_or.mp sameGeometry
                have stated := not_not.mp stated
                rw [← not_not.mp sameShape] at stated
                exact (applyDelta_lands faithful synced (by rw [same]; rfl)
                  (by omega) planned nonempty scanned stated).map _

end History

/-! ## Where a call stops -/

/-- Stopping in a part of a script is stopping in the script. -/
theorem interrupted_of_prefix {ops whole : List FileOp} (count : Nat)
    (cut : Option Nat) (isPrefix : ops <+: whole) :
    ∃ later torn, interrupted ops count cut = interrupted whole later torn := by
  obtain ⟨rest, rfl⟩ := isPrefix
  by_cases inside : count < ops.length
  · refine ⟨count, cut, ?_⟩
    simp only [interrupted]
    rw [List.take_append_of_le_length (Nat.le_of_lt inside),
      List.getElem?_append_left inside]
  · refine ⟨ops.length, none, ?_⟩
    have finished : interrupted ops count cut = ops := by
      simp only [interrupted]
      rw [List.take_of_length_le (by omega),
        List.getElem?_eq_none (by omega)]
      simp
    rw [finished]
    simp [interrupted]

/-- A shielded call stops before its first operation, under its own marker, or
when it is done. -/
theorem Shielded.interrupted {α : Type} {script : Script FileOp SyncError α}
    (shielded : Shielded script) (count : Nat) (cut : Option Nat) :
    interrupted script.ops count cut = [] ∨
    (∃ from_ to_ body, interrupted script.ops count cut =
        .mark (.applying from_ to_) :: body ∧
      ∀ op ∈ body, op.unmarked = true) ∨
    ∃ value, script.result = .ok value ∧
      interrupted script.ops count cut = script.ops := by
  cases count with
  | zero =>
      left
      cases shielded with
      | idle ops => simp [ops, Literstream.interrupted]
      | failed ops _ => simp [ops, Literstream.interrupted]
      | published ops _ _ => simp [ops, Literstream.interrupted]
  | succ count =>
      cases shielded with
      | idle ops =>
          left
          simp [ops, Literstream.interrupted]
      | failed ops unmarked =>
          right; left
          rw [ops, interrupted_cons]
          exact ⟨_, _, _, rfl, unmarked_interrupted count cut unmarked⟩
      | @published from_ to_ body marker value ops unmarked done =>
          rw [ops, interrupted_cons]
          rcases interrupted_append_mark body marker count cut with torn | whole
          · right; left
            rw [torn]
            exact ⟨_, _, _, rfl, unmarked_interrupted count cut unmarked⟩
          · right; right
            exact ⟨value, done, by rw [whole]⟩

namespace History

variable {history : History} {head : Nat} {disk : Disk}

theorem Vouched.of_lands (lands : history.Lands head disk) :
    history.Vouched head disk := by
  obtain ⟨txid, below, rfl⟩ := lands
  intro other pageSize commit fileLen marked
  simp only [restored, Option.some.injEq, Marker.clean.injEq] at marked
  rw [← marked.1]
  exact ⟨below, rfl⟩

theorem Vouched.later {later : Nat} (vouched : history.Vouched head disk)
    (grown : head ≤ later) : history.Vouched later disk := by
  intro txid pageSize commit fileLen marked
  obtain ⟨below, same⟩ := vouched txid pageSize commit fileLen marked
  exact ⟨Nat.le_trans below grown, same⟩

theorem Vouched.interrupted {α : Type} {whole : Script FileOp SyncError α}
    (vouched : history.Vouched head disk) (shielded : Shielded whole)
    (lands : Ensures whole disk (history.Lands head)) (count : Nat)
    (cut : Option Nat) :
    history.Vouched head (disk.run (interrupted whole.ops count cut)) := by
  rcases shielded.interrupted count cut with
    nothing | ⟨from_, to_, body, torn, unmarked⟩ | ⟨value, done, all⟩
  · rw [nothing]
    exact vouched
  · intro txid pageSize commit fileLen marked
    rw [torn, Disk.run_cons, Disk.run_marker unmarked] at marked
    cases marked
  · rw [all]
    exact .of_lands (lands value done)

theorem Vouched.crash {kept : List Mutation}
    (vouched : history.Vouched head disk)
    (some_ : kept.Subperm disk.pending) :
    history.Vouched head (disk.crash kept) := by
  intro txid pageSize commit fileLen marked
  obtain ⟨below, same⟩ := vouched txid pageSize commit fileLen marked
  refine ⟨below, ?_⟩
  rw [same] at some_ ⊢
  have nothing : kept = [] := List.subperm_nil.mp some_
  rw [nothing]
  rfl

/-- However a part of a call ends, a clean marker describes the file. -/
theorem Vouched.ending {α : Type} {whole script : Script FileOp SyncError α}
    {next : Disk} {ending : Ending} (vouched : history.Vouched head disk)
    (shielded : Shielded whole)
    (lands : Ensures whole disk (history.Lands head)) (cut : whole.Cut script)
    (ended : ending.apply script.ops disk = some next) :
    history.Vouched head next := by
  have stops (count : Nat) (torn : Option Nat) : history.Vouched head
      (disk.run (Literstream.interrupted script.ops count torn)) := by
    obtain ⟨later, other, same⟩ :=
      interrupted_of_prefix count torn cut.isPrefix
    rw [same]
    exact vouched.interrupted shielded lands later other
  cases ending with
  | complete =>
      cases ended
      rw [← interrupted_length script.ops]
      exact stops _ _
  | stopped count torn =>
      cases ended
      exact stops _ _
  | crashed count torn kept =>
      simp only [Ending.apply] at ended
      split at ended
      · cases ended
        exact (stops _ _).crash (by assumption)
      · cases ended

end History

/-! ## Beside the writer -/

section Fleet

variable {history : History} {encodedSize : LtxFile → Nat}

theorem FollowerCall.lands {frozen : Store} {head : Nat} {disk : Disk}
    {call : FollowerCall} (fits : call.Fits disk)
    (faithful : history.FaithfulStore frozen)
    (synced : Synced head frozen.keys) (vouched : history.Vouched head disk) :
    Ensures (call.script frozen disk) disk (history.Lands head) := by
  cases call with
  | restoreToPath =>
      exact (History.restoreToPath_lands faithful synced).map _
  | catchUp => exact (History.catchUp_lands faithful synced vouched).map _
  | restoreIncremental fromTxid =>
      obtain ⟨pageSize, commit, fileLen, marked⟩ := fits
      obtain ⟨below, same⟩ := vouched fromTxid pageSize commit fileLen marked
      exact (History.restoreIncremental_lands faithful synced below same).map _

/-- The writer's TXID never goes back. -/
theorem Visit.Sound.txid_le {α : Type} {start : Visitor α}
    {visit next : Visit α} {action : VisitAction}
    (sound : visit.Sound history encodedSize start)
    (allowed : history.visits visit action)
    (stepped : visit.step encodedSize action = some next) :
    (visit.writer.visible encodedSize).txid ≤
      (next.writer.visible encodedSize).txid := by
  cases action with
  | writes progress =>
      obtain ⟨_, told, watched, _, _⟩ := sound
      simp only [Visit.step, Option.bind_eq_bind, Option.pure_def,
        Option.bind_eq_some_iff] at stepped
      obtain ⟨writer, written, same⟩ := stepped
      cases same
      exact (watched.inOrder.step (by
        rintro call rfl
        exact allowed) written).2.txid
  | replies failed =>
      simp only [Visit.step] at stepped
      split at stepped
      · cases stepped
      · cases stepped
        exact Nat.le_refl _

/-- The call in flight is a program over the disk as it is. -/
structure Fleet.Sound (history : History) (encodedSize : LtxFile → Nat)
    (fleet : Fleet) : Prop where
  visit : ∃ start, fleet.visit.Sound history encodedSize start ∧
    ∀ call, fleet.call = some call → call.Fits fleet.disk ∧
      ∃ order : List Nat, order.Perm (List.range (maxLevel + 1)) ∧
        start = call.copier order fleet.disk
  vouched : history.Vouched (fleet.visit.writer.visible encodedSize).txid
    fleet.disk

/-- What a call whose requests are all answered performs. -/
theorem Fleet.Sound.performs {fleet : Fleet} {call : FollowerCall}
    {script : Script FileOp SyncError Unit}
    (sound : fleet.Sound history encodedSize)
    (inFlight : fleet.call = some call)
    (done : fleet.visit.visitor = .returns script) :
    ∃ whole, Shielded whole ∧ whole.Cut script ∧
      Ensures whole fleet.disk
        (history.Lands (fleet.visit.writer.visible encodedSize).txid) := by
  obtain ⟨⟨start, visit, calls⟩, vouched⟩ := sound
  obtain ⟨fits, order, everyLevel, rfl⟩ := calls call inFlight
  obtain ⟨frozen, faithful, synced, sees⟩ := visit.sees done
  exact ⟨call.script frozen fleet.disk, call.script_shielded,
    sees _ (call.copier_performs everyLevel),
    FollowerCall.lands fits faithful synced vouched⟩

theorem Fleet.Sound.step {fleet next : Fleet} {action : FleetAction}
    (sound : fleet.Sound history encodedSize)
    (allowed : history.follows fleet action)
    (stepped : fleet.step encodedSize action = some next) :
    next.Sound history encodedSize := by
  cases action with
  | visits action =>
      simp only [Fleet.step, Option.map_eq_some_iff] at stepped
      obtain ⟨visit, visited, rfl⟩ := stepped
      obtain ⟨⟨start, before, calls⟩, vouched⟩ := sound
      exact ⟨⟨start, before.step allowed visited, calls⟩,
        vouched.later (before.txid_le allowed visited)⟩
  | begins order call =>
      simp only [Fleet.step] at stepped
      split at stepped
      · cases stepped
      · cases stepped
        obtain ⟨⟨start, before, _⟩, vouched⟩ := sound
        obtain ⟨everyLevel, fits⟩ := allowed
        refine ⟨⟨_, before.begins (call.copier_polite everyLevel), ?_⟩, vouched⟩
        rintro _ ⟨⟩
        exact ⟨fits, order, everyLevel, rfl⟩
  | ends ending =>
      simp only [Fleet.step] at stepped
      split at stepped
      · rename_i call script inFlight done
        obtain ⟨whole, shielded, cut, lands⟩ := sound.performs inFlight done
        simp only [Option.map_eq_some_iff] at stepped
        obtain ⟨disk, ended, rfl⟩ := stepped
        obtain ⟨⟨start, before, _⟩, vouched⟩ := sound
        refine ⟨⟨start, before, ?_⟩,
          vouched.ending shielded lands cut ended⟩
        rintro _ ⟨⟩
      · cases stepped

/-- Wherever calls of a follower stopped beside the writer, a clean marker
describes one synced image and the file is that image; and a call that succeeds
leaves such an image. -/
theorem follower_never_torn {file : Option Bytes} {fleet : Fleet}
    (run : Machine.Reaches (Fleet.step encodedSize) history.follows
      (Fleet.start file) fleet) :
    (∀ txid pageSize commit fileLen,
      fleet.disk.marker = some (.clean txid pageSize commit fileLen) →
      txid ≤ (fleet.visit.writer.visible encodedSize).txid ∧
        fleet.disk.file = some (history.image txid)) ∧
    ∀ call script, fleet.call = some call →
      fleet.visit.visitor = .returns script → script.result = .ok () →
      ∃ txid ≤ (fleet.visit.writer.visible encodedSize).txid,
        fleet.disk.run script.ops = history.restored txid := by
  have sound : fleet.Sound history encodedSize := by
    apply run.invariant
    · refine ⟨⟨.returns (pure ()), ?_, ?_⟩, ?_⟩
      · refine ⟨.nil, { answers := [], responses := [] }, Watch.start_sound,
          trivial, ?_⟩
        rintro _ ⟨⟩
      · rintro _ ⟨⟩
      · rintro _ _ _ _ ⟨⟩
    · exact fun _ _ _ sound allowed stepped => sound.step allowed stepped
  constructor
  · intro txid pageSize commit fileLen marked
    obtain ⟨below, same⟩ := sound.vouched txid pageSize commit fileLen marked
    exact ⟨below, by rw [same]; rfl⟩
  · intro call script inFlight done succeeded
    obtain ⟨whole, _, cut, lands⟩ := sound.performs inFlight done
    have same := cut.of_ok succeeded
    subst same
    exact lands () succeeded

end Fleet

/-! ## A sample follower -/

/-- One step is synchronised. -/
def fleetSync : List (Fleet → FleetAction) :=
  [fun fleet => .visits (.writes (.begins
      (hotSync fleet.visit.writer.replica).call)),
    fun _ => .visits (.writes (.operates false)),
    fun _ => .visits (.writes .returns)]

def fleetAsks (count : Nat) : List (Fleet → FleetAction) :=
  List.replicate count fun _ => .visits (.replies false)

/-- A step is synchronised and restored; another one follows, and while the
follower catches up with it comes a third. -/
def fleetChoices : List (Fleet → FleetAction) :=
  fleetSync ++ [fun _ => .begins (List.range 10) .restoreToPath] ++
    fleetAsks 12 ++ [fun _ => .ends .complete] ++ fleetSync ++
    [fun _ => .begins (List.range 10) .catchUp] ++ fleetAsks 10 ++ fleetSync ++
    fleetAsks 4 ++ [fun _ => .ends .complete]

theorem fleet_marked :
    (Machine.play (Fleet.step fun _ => 0) (Fleet.start none)
      fleetChoices).map (fun fleet =>
        ((fleet.visit.writer.visible fun _ => 0).txid, fleet.disk.marker)) =
      some (3, some (.clean 2 512 2 1024)) := by decide +kernel

theorem fleetSync_allowed :
    ∀ choose ∈ fleetSync, ∀ fleet, hotPage.follows fleet (choose fleet) := by
  intro choose member fleet
  simp only [fleetSync, List.mem_cons, List.not_mem_nil, or_false] at member
  rcases member with rfl | rfl | rfl
  · exact hotSync_synced fleet.visit.writer.replica
  · exact trivial
  · exact trivial

theorem fleetAsks_allowed (count : Nat) :
    ∀ choose ∈ fleetAsks count, ∀ fleet,
      hotPage.follows fleet (choose fleet) := by
  intro choose member fleet
  rw [(List.mem_replicate.mp member).2]
  exact trivial

theorem fleetChoices_allowed :
    ∀ choose ∈ fleetChoices, ∀ fleet, hotPage.follows fleet (choose fleet) := by
  intro choose member fleet
  simp only [fleetChoices, List.append_assoc, List.mem_append, List.mem_cons,
    List.not_mem_nil, or_false] at member
  rcases member with sync | rfl | asks | rfl | sync | rfl | asks | sync |
    asks | rfl
  · exact fleetSync_allowed choose sync fleet
  · exact ⟨List.Perm.refl _, trivial⟩
  · exact fleetAsks_allowed _ choose asks fleet
  · exact trivial
  · exact fleetSync_allowed choose sync fleet
  · exact ⟨List.Perm.refl _, trivial⟩
  · exact fleetAsks_allowed _ choose asks fleet
  · exact fleetSync_allowed choose sync fleet
  · exact fleetAsks_allowed _ choose asks fleet
  · exact trivial

/-- The follower is at the second step when the writer is at the third. -/
theorem follower_never_torn_caught_up : ∃ fleet : Fleet,
    (fleet.visit.writer.visible fun _ => 0).txid = 3 ∧
      fleet.disk.file = some (hotPage.image 2) := by
  obtain ⟨fleet, played, marked⟩ := Option.map_eq_some_iff.mp fleet_marked
  obtain ⟨newest, clean⟩ := Prod.mk.inj marked
  have described := (follower_never_torn
    (Machine.reaches_of_play fleetChoices_allowed played)).1 2 512 2 1024 clean
  exact ⟨fleet, newest, described.2⟩

end Literstream
