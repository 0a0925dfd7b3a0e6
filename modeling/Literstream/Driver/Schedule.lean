import Literstream.Driver.Tick

/-!
# The stages of a tick

A tick gives every scheduled stage one turn: if its boundary is new, the
boundary is stored and then the work is done.  Everything else in the tick
leaves the stage alone.
-/

namespace Literstream

open Fallible

namespace Driver

variable {σ ε α β : Type}

/-! ## One stage among others -/

/-- What a driver remembers of a stage: its last boundary and its attempts. -/
abbrev View := Int × List Attempt

def view (driver : Driver σ) (stage : Stage) : View :=
  (driver.lastBoundary stage,
    driver.attempts.filter fun attempt => attempt.stage = stage)

/-- After a due attempt the boundary is stored, however the attempt ended. -/
inductive Advanced (stage : Stage) (now boundary : Int) : View → View → Prop
  | same (seen : View) : Advanced stage now boundary seen seen
  | tried {last : Int} {attempts : List Attempt} (ok : Bool)
      (due : last < boundary) :
      Advanced stage now boundary (last, attempts)
        (boundary, ⟨stage, now, ok⟩ :: attempts)

/-- A stage that was not due, or whose work succeeded. -/
def attended (stage : Stage) (now boundary : Int) (seen : View) : View :=
  if seen.1 < boundary then (boundary, ⟨stage, now, true⟩ :: seen.2) else seen

theorem advanced_attended (stage : Stage) (now boundary : Int) (seen : View) :
    Advanced stage now boundary seen (attended stage now boundary seen) := by
  unfold attended
  split
  · exact .tried true (by assumption)
  · exact .same seen

/-- The program leaves the stage alone. -/
def Quiet (stage : Stage) (program : Fallible (Driver σ) ε α) : Prop :=
  ∀ driver, (program driver).2.view stage = driver.view stage

/-- The program gives the stage its turn. -/
def Serves (stage : Stage) (now boundary : Int)
    (program : Fallible (Driver σ) ε α) : Prop :=
  ∀ seen, Holds (fun driver => driver.view stage = seen) program
    (fun _ driver =>
      driver.view stage = attended stage now boundary seen)
    (fun driver => Advanced stage now boundary seen (driver.view stage))

section Rules

variable {stage : Stage} {now boundary : Int}

theorem quiet_pure (value : α) :
    Quiet stage (pure value : Fallible (Driver σ) ε α) := fun _ => rfl

theorem quiet_current :
    Quiet stage (current : Fallible (Driver σ) ε (Driver σ)) := fun _ => rfl

theorem quiet_onSyncer (call : Fallible σ ε α) :
    Quiet stage (onSyncer call) := fun _ => rfl

theorem quiet_change {update : Driver σ → Driver σ}
    (same : ∀ driver, (update driver).view stage = driver.view stage) :
    Quiet stage (change update : Fallible (Driver σ) ε Unit) := same

theorem Quiet.bind {first : Fallible (Driver σ) ε α}
    {next : α → Fallible (Driver σ) ε β} (head : Quiet stage first)
    (tail : ∀ value, Quiet stage (next value)) :
    Quiet stage (first >>= next) := by
  intro driver
  have reached := head driver
  cases ran : first driver with
  | mk result middle =>
      rw [ran] at reached
      cases result with
      | error error =>
          rw [bind_of_error ran]
          exact reached
      | ok value =>
          rw [bind_of_ok ran, tail value middle]
          exact reached

theorem Quiet.holds {program : Fallible (Driver σ) ε α}
    (quiet : Quiet stage program) (known : View → Prop) :
    Holds (fun driver => known (driver.view stage)) program
      (fun _ driver => known (driver.view stage))
      (fun driver => known (driver.view stage)) := by
  intro driver initial
  have same := quiet driver
  cases ran : program driver with
  | mk result final =>
      rw [ran] at same
      cases result with
      | error error =>
          change known (final.view stage)
          rw [same]
          exact initial
      | ok value =>
          change known (final.view stage)
          rw [same]
          exact initial

theorem Serves.after_quiet {first : Fallible (Driver σ) ε α}
    {next : α → Fallible (Driver σ) ε β} (quiet : Quiet stage first)
    (serves : ∀ value, Serves stage now boundary (next value)) :
    Serves stage now boundary (first >>= next) := by
  intro seen
  apply Holds.bind
  · apply (quiet.holds (· = seen)).weaken (fun _ same => same)
      (fun _ _ same => same)
    rintro driver rfl
    exact .same _
  · exact fun value => serves value seen

theorem Serves.then_quiet {first : Fallible (Driver σ) ε α}
    {next : α → Fallible (Driver σ) ε β}
    (serves : Serves stage now boundary first)
    (quiet : ∀ value, Quiet stage (next value)) :
    Serves stage now boundary (first >>= next) := by
  intro seen
  apply (serves seen).bind
  intro value
  apply ((quiet value).holds
    (· = attended stage now boundary seen)).weaken (fun _ same => same)
      (fun _ _ same => same)
  rintro driver same
  rw [same]
  exact advanced_attended stage now boundary seen

theorem whenDue_of_due {work : Fallible (Driver σ) ε α} {driver : Driver σ}
    (due : driver.lastBoundary stage < boundary) :
    whenDue stage now boundary work driver =
      (recorded stage now work >>= fun value => return some value)
        { driver with
          lastBoundary :=
            Function.update driver.lastBoundary stage boundary } := by
  have looked : (current : Fallible (Driver σ) ε (Driver σ)) driver =
      (.ok driver, driver) := rfl
  refine (bind_of_ok looked).trans ?_
  rw [if_pos due]
  rfl

theorem whenDue_of_not_due {work : Fallible (Driver σ) ε α}
    {driver : Driver σ} (still : ¬driver.lastBoundary stage < boundary) :
    whenDue stage now boundary work driver = (.ok none, driver) := by
  have looked : (current : Fallible (Driver σ) ε (Driver σ)) driver =
      (.ok driver, driver) := rfl
  refine (bind_of_ok looked).trans ?_
  rw [if_neg still]
  rfl

/-- What is left of due work: the boundary, and how the work ended. -/
theorem whenDue_due {work : Fallible (Driver σ) ε α} {driver : Driver σ}
    (due : driver.lastBoundary stage < boundary) :
    ∃ after : Driver σ, (whenDue stage now boundary work driver).2 =
        { after with
          attempts := ⟨stage, now,
            (whenDue stage now boundary work driver).1.isOk⟩ ::
              after.attempts } ∧
      (work { driver with
        lastBoundary :=
          Function.update driver.lastBoundary stage boundary }).2 = after := by
  refine ⟨_, ?_, rfl⟩
  rw [whenDue_of_due due]
  cases ran : work { driver with
      lastBoundary := Function.update driver.lastBoundary stage boundary } with
  | mk result after =>
      cases result with
      | error error =>
          have failed : recorded stage now work { driver with
              lastBoundary :=
                Function.update driver.lastBoundary stage boundary } =
              (.error error, { after with
                attempts := ⟨stage, now, false⟩ :: after.attempts }) := by
            simp only [recorded, ran]
            rfl
          rw [bind_of_error failed]
          rfl
      | ok value =>
          have done : recorded stage now work { driver with
              lastBoundary :=
                Function.update driver.lastBoundary stage boundary } =
              (.ok value, { after with
                attempts := ⟨stage, now, true⟩ :: after.attempts }) := by
            simp only [recorded, ran]
            rfl
          rw [bind_of_ok done]
          rfl

theorem quiet_whenDue {other : Stage} {work : Fallible (Driver σ) ε α}
    (differs : other ≠ stage) (quiet : Quiet stage work) :
    Quiet stage (whenDue other now boundary work) := by
  intro driver
  by_cases due : driver.lastBoundary other < boundary
  · obtain ⟨after, left, ran⟩ :=
      @whenDue_due σ ε α other now boundary work driver due
    have same := quiet { driver with
      lastBoundary := Function.update driver.lastBoundary other boundary }
    rw [ran] at same
    rw [left]
    simp only [view, List.filter_cons, differs, decide_false,
      Bool.false_eq_true, if_false] at same ⊢
    rw [same, Function.update_of_ne (Ne.symm differs)]
  · rw [whenDue_of_not_due due]

theorem serves_whenDue {work : Fallible (Driver σ) ε α}
    (quiet : Quiet stage work) :
    Serves stage now boundary (whenDue stage now boundary work) := by
  intro seen driver initial
  by_cases due : driver.lastBoundary stage < boundary
  · obtain ⟨after, left, ran⟩ :=
      @whenDue_due σ ε α stage now boundary work driver due
    have same := quiet { driver with
      lastBoundary := Function.update driver.lastBoundary stage boundary }
    rw [ran] at same
    have reached : (whenDue stage now boundary work driver).2.view stage =
        (boundary, ⟨stage, now,
          (whenDue stage now boundary work driver).1.isOk⟩ :: seen.2) := by
      rw [left, ← initial]
      simp only [view, Function.update_self, Prod.mk.injEq] at same
      simp [view, same.1, same.2]
    have last : seen.1 < boundary := by
      rw [← initial]
      exact due
    cases ended : whenDue stage now boundary work driver with
    | mk result final =>
        rw [ended] at reached
        cases result with
        | error error =>
            change Advanced stage now boundary seen (final.view stage)
            rw [reached]
            exact .tried false last
        | ok value =>
            change final.view stage = attended stage now boundary seen
            rw [reached, attended, if_pos last]
            rfl
  · rw [whenDue_of_not_due due]
    change driver.view stage = attended stage now boundary seen
    rw [attended, if_neg (by rw [← initial]; exact due), initial]

end Rules

/-! ## The stages of a tick -/

section Stages

variable (calls : SyncerCalls σ ε) (config : DriverConfig) (now : Int)

theorem quiet_syncStage (stage : Stage) : Quiet stage (syncStage calls) := by
  apply (quiet_onSyncer _).bind
  intro synced
  apply Quiet.bind _ fun _ => quiet_pure _
  apply quiet_change
  intro driver
  unfold afterSync
  split
  · rfl
  · rfl

theorem quiet_timedCheckpoint (stage : Stage)
    (found : Option (CheckpointMode × CheckpointResult)) :
    Quiet stage (timedCheckpoint calls config now found) := by
  apply quiet_current.bind
  intro driver
  split
  · exact (quiet_onSyncer _).bind fun _ => quiet_pure _
  · exact quiet_pure _

theorem quiet_checkpointStage (stage : Stage) :
    Quiet stage (checkpointStage calls config now) := by
  apply (quiet_onSyncer _).bind
  intro needed
  apply (quiet_timedCheckpoint calls config now stage needed).bind
  intro checkpoint
  split
  · exact Quiet.bind (quiet_change fun _ => rfl) fun _ => quiet_pure _
  · exact quiet_pure _

/-- Compacting other levels leaves the stage alone. -/
theorem quiet_compactLevels {stage : Stage} {levels : List CompactionLevel}
    (others : ∀ level ∈ levels, level.level ≠ 0 →
      Stage.compaction level.level ≠ stage) :
    Quiet stage (compactLevels calls now levels) := by
  induction levels with
  | nil => exact quiet_pure []
  | cons level rest ih =>
      have later := ih fun entry member =>
        others entry (List.mem_cons_of_mem _ member)
      rw [compactLevels]
      split
      · exact later
      · rename_i upper
        apply (quiet_whenDue (others level List.mem_cons_self upper)
          (quiet_onSyncer _)).bind
        intro compacted
        exact later.bind fun _ => quiet_pure _

/-- A level that is listed once gets its turn. -/
theorem serves_compactLevels {levels : List CompactionLevel}
    (once : (levels.map CompactionLevel.level).Nodup)
    {level : CompactionLevel} (member : level ∈ levels)
    (upper : level.level ≠ 0) :
    Serves (.compaction level.level) now (level.prevCompactionAt now)
      (compactLevels calls now levels) := by
  induction levels with
  | nil => cases member
  | cons first rest ih =>
      rw [List.map_cons, List.nodup_cons] at once
      rw [compactLevels]
      cases member with
      | head =>
          rw [if_neg upper]
          apply (serves_whenDue (quiet_onSyncer _)).then_quiet
          intro compacted
          apply Quiet.bind _ fun _ => quiet_pure _
          apply quiet_compactLevels
          intro entry listed _ same
          apply once.1
          rw [← Stage.compaction.inj same]
          exact List.mem_map_of_mem listed
      | tail _ listed =>
          have later := ih once.2 listed
          split
          · exact later
          · apply Serves.after_quiet
            · apply quiet_whenDue _ (quiet_onSyncer _)
              intro same
              apply once.1
              rw [Stage.compaction.inj same]
              exact List.mem_map_of_mem listed
            · exact fun compacted => later.then_quiet fun _ => quiet_pure _

theorem quiet_snapshotWork (stage : Stage) :
    Quiet stage (snapshotWork calls config now) := by
  apply (quiet_onSyncer _).bind
  intro snapshot
  exact (quiet_onSyncer _).bind fun _ => quiet_pure _

theorem quiet_snapshotStage {stage : Stage} (differs : Stage.snapshot ≠ stage) :
    Quiet stage (snapshotStage calls config now) := by
  unfold snapshotStage
  split
  · exact quiet_pure _
  · exact (quiet_whenDue differs (quiet_snapshotWork calls config now stage)).bind
      fun _ => quiet_pure _

theorem serves_snapshotStage (enabled : config.snapshotInterval ≠ 0) :
    Serves .snapshot now (intervalBoundary now config.snapshotInterval)
      (snapshotStage calls config now) := by
  rw [snapshotStage, if_neg enabled]
  apply (serves_whenDue
    (quiet_snapshotWork calls config now .snapshot)).then_quiet
  exact fun _ => quiet_pure _

theorem quiet_l0RetentionStage {stage : Stage}
    (differs : Stage.l0Retention ≠ stage) :
    Quiet stage (l0RetentionStage calls config now) := by
  unfold l0RetentionStage
  split
  · exact quiet_pure _
  · exact (quiet_whenDue differs (quiet_onSyncer _)).bind fun _ => quiet_pure _

end Stages

/-- The stages a tick promises to keep on schedule, with their intervals. -/
inductive Schedules (config : DriverConfig) : Stage → Nat → Prop
  | compaction {level : CompactionLevel}
      (configured : level ∈ config.levels.levels) (upper : level.level ≠ 0) :
      Schedules config (.compaction level.level) level.interval
  | snapshot (enabled : config.snapshotInterval ≠ 0) :
      Schedules config .snapshot config.snapshotInterval

theorem levels_once (levels : CompactionLevels) :
    (levels.levels.map CompactionLevel.level).Nodup := by
  rw [levels.dense]
  exact List.nodup_range

theorem tick_serves (calls : SyncerCalls σ ε) {config : DriverConfig}
    (now : Int) {stage : Stage} {interval : Nat}
    (scheduled : Schedules config stage interval) :
    Serves stage now (truncate now interval) (tick calls config now) := by
  apply Serves.after_quiet (quiet_syncStage calls stage)
  intro synced
  apply Serves.after_quiet (quiet_checkpointStage calls config now stage)
  intro checkpoint
  cases scheduled with
  | compaction configured upper =>
      apply (serves_compactLevels calls now (levels_once config.levels)
        configured upper).then_quiet
      intro compactions
      apply (quiet_snapshotStage calls config now (by simp)).bind
      intro snapshot
      apply (quiet_l0RetentionStage calls config now (by simp)).bind
      intro pruned
      apply quiet_current.bind
      intro driver
      exact Quiet.bind (quiet_change fun _ => rfl) fun _ => quiet_pure _
  | snapshot enabled =>
      apply Serves.after_quiet
      · apply quiet_compactLevels
        simp
      intro compactions
      apply (serves_snapshotStage calls config now enabled).then_quiet
      intro snapshot
      apply (quiet_l0RetentionStage calls config now (by simp)).bind
      intro pruned
      apply quiet_current.bind
      intro driver
      exact Quiet.bind (quiet_change fun _ => rfl) fun _ => quiet_pure _

end Driver

end Literstream
