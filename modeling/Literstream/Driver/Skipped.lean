import Literstream.Driver.Schedule
import Literstream.Levels.Replication

/-!
# What a failed tick costs

A stage stores its boundary before its work.  If the work fails, the stage is
not due again until the next boundary, and ticks in between succeed without it.
-/

namespace Literstream

open Fallible

namespace Driver

variable {σ ε : Type}

/-! ## Boundaries -/

/-- Instants whose nanoseconds fit in 64 bits, and all earlier ones. -/
def Representable (now : Int) : Prop := now < 2 ^ 64

theorem truncate_le {now : Int} {interval : Nat}
    (positive : 0 < truncate now interval) : truncate now interval ≤ now := by
  by_cases timed : interval = 0
  · rw [truncate, if_pos timed]
  · rw [truncate, if_neg timed] at positive ⊢
    have reduced : now.toNat / interval * interval % 2 ^ 64 ≤ now.toNat :=
      (Nat.mod_le _ _).trans (Nat.div_mul_le_self _ _)
    omega

theorem truncate_eq {now : Int} {interval : Nat} (timed : interval ≠ 0)
    (fits : Representable now) :
    truncate now interval = ((now.toNat / interval * interval : Nat) : Int) := by
  unfold Representable at fits
  have small : now.toNat / interval * interval < 2 ^ 64 := by
    have reduced : now.toNat / interval * interval ≤ now.toNat :=
      Nat.div_mul_le_self _ _
    omega
  rw [truncate, if_neg timed, Nat.mod_eq_of_lt small]

theorem truncate_mono {earlier later : Int} {interval : Nat}
    (fits : Representable later) (ordered : earlier ≤ later) :
    truncate earlier interval ≤ truncate later interval := by
  by_cases timed : interval = 0
  · simp only [truncate, timed, if_true]
    exact ordered
  · have fitsEarlier : Representable earlier := lt_of_le_of_lt ordered fits
    rw [truncate_eq timed fits, truncate_eq timed fitsEarlier]
    exact_mod_cast Nat.mul_le_mul_right interval
      (Nat.div_le_div_right (Int.toNat_le_toNat ordered))

/-- No boundary lies between the boundary of an instant and the instant. -/
theorem truncate_le_of_le {time now : Int} {interval : Nat}
    (fits : Representable now) (after : truncate now interval ≤ time)
    (reached : time ≤ now) :
    truncate now interval ≤ truncate time interval := by
  by_cases timed : interval = 0
  · simp only [truncate, timed, if_true] at after ⊢
    exact after
  · have fitsTime : Representable time := lt_of_le_of_lt reached fits
    rw [truncate_eq timed fits] at after ⊢
    rw [truncate_eq timed fitsTime]
    have passed : now.toNat / interval * interval ≤ time.toNat := by omega
    exact_mod_cast Nat.mul_le_mul_right interval
      ((Nat.le_div_iff_mul_le (Nat.pos_of_ne_zero timed)).mpr passed)

/-! ## What a driver remembers -/

/-- A stage that has not run, or whose newest attempt stored its boundary. -/
inductive Remembered (stage : Stage) (interval : Nat) (clock : Int) :
    View → Prop
  | fresh : Remembered stage interval clock (0, [])
  | tried {time : Int} {ok : Bool} {earlier : List Attempt}
      (positive : 0 < truncate time interval) (past : time ≤ clock)
      (before : ∀ attempt ∈ earlier,
        truncate attempt.time interval < truncate time interval) :
      Remembered stage interval clock
        (truncate time interval, ⟨stage, time, ok⟩ :: earlier)

/-- Work of the stage succeeded since the last boundary. -/
def OnSchedule (interval : Nat) (now : Int) (attempts : List Attempt) : Prop :=
  ∃ attempt ∈ attempts, attempt.ok = true ∧
    truncate now interval ≤ attempt.time ∧ attempt.time ≤ now

/-- The newest attempt failed. -/
def failedLast : List Attempt → Bool
  | [] => false
  | attempt :: _ => !attempt.ok

/-- The current boundary is past the epoch, and no failed attempt stored it. -/
def Open (interval : Nat) (now : Int) (seen : View) : Prop :=
  0 < truncate now interval ∧
    (failedLast seen.2 = true → seen.1 < truncate now interval)

instance (interval : Nat) (now : Int) (seen : View) :
    Decidable (Open interval now seen) := inferInstanceAs (Decidable (_ ∧ _))

section Memory

variable {stage : Stage} {interval : Nat} {clock now : Int} {seen : View}

theorem Remembered.nonneg (remembered : Remembered stage interval clock seen) :
    0 ≤ seen.1 := by
  cases remembered with
  | fresh => exact le_refl 0
  | tried positive past before => exact le_of_lt positive

/-- Attempts were made at boundaries that are stored or older. -/
theorem Remembered.attempt_le
    (remembered : Remembered stage interval clock seen) :
    ∀ attempt ∈ seen.2, truncate attempt.time interval ≤ seen.1 := by
  intro attempt member
  cases remembered with
  | fresh => cases member
  | tried positive past before =>
      cases member with
      | head => exact le_refl _
      | tail _ older => exact le_of_lt (before attempt older)

theorem Remembered.advance {after : View}
    (remembered : Remembered stage interval clock seen)
    (ordered : clock ≤ now)
    (advanced : Advanced stage now (truncate now interval) seen after) :
    Remembered stage interval now after := by
  cases advanced with
  | same _ =>
      cases remembered with
      | fresh => exact .fresh
      | tried positive past before =>
          exact .tried positive (past.trans ordered) before
  | tried ok due =>
      apply Remembered.tried
      · exact lt_of_le_of_lt remembered.nonneg due
      · exact le_refl now
      · intro attempt member
        exact lt_of_le_of_lt (remembered.attempt_le attempt member) due

/-- A turn at an open boundary leaves the stage on schedule. -/
theorem Remembered.onSchedule
    (remembered : Remembered stage interval clock seen)
    (ordered : clock ≤ now) (isOpen : Open interval now seen) :
    OnSchedule interval now
      (attended stage now (truncate now interval) seen).2 := by
  by_cases due : seen.1 < truncate now interval
  · rw [attended, if_pos due]
    exact ⟨⟨stage, now, true⟩, List.mem_cons_self, rfl,
      truncate_le isOpen.1, le_refl now⟩
  · rw [attended, if_neg due]
    cases remembered with
    | fresh => exact absurd isOpen.1 due
    | @tried time ok earlier positive past before =>
        cases ok with
        | false => exact absurd (isOpen.2 rfl) due
        | true =>
            exact ⟨_, List.mem_cons_self, rfl,
              (not_lt.mp due).trans (truncate_le positive),
              past.trans ordered⟩

/-- A stage on schedule after its turn had an open boundary before it. -/
theorem Remembered.isOpen
    (remembered : Remembered stage interval clock seen)
    (ordered : clock ≤ now) (fits : Representable now)
    (onSchedule : OnSchedule interval now
      (attended stage now (truncate now interval) seen).2) :
    Open interval now seen := by
  by_cases due : seen.1 < truncate now interval
  · exact ⟨lt_of_le_of_lt remembered.nonneg due, fun _ => due⟩
  · rw [attended, if_neg due] at onSchedule
    obtain ⟨attempt, member, succeeded, since, reached⟩ := onSchedule
    have current := truncate_le_of_le fits since reached
    cases remembered with
    | fresh => cases member
    | @tried time ok earlier positive past before =>
        have stored : truncate time interval ≤ truncate now interval :=
          truncate_mono fits (past.trans ordered)
        have equal : truncate time interval = truncate now interval :=
          le_antisymm stored (not_lt.mp due)
        refine ⟨equal ▸ positive, ?_⟩
        intro failed
        cases member with
        | head =>
            change (!ok) = true at failed
            change ok = true at succeeded
            simp [succeeded] at failed
        | tail _ older =>
            have outdated := before attempt older
            omega

end Memory

/-! ## Runs of ticks -/

/-- A driver and the time of its last tick. -/
structure Clocked (σ : Type) where
  driver : Driver σ
  clock : Int

/-- A tick, before which the syncer and its store may have changed. -/
structure Turn (σ : Type) where
  syncer : σ
  time : Int

def Turn.found (turn : Turn σ) (driver : Driver σ) : Driver σ :=
  { driver with syncer := turn.syncer }

section Runs

variable (calls : SyncerCalls σ ε) (config : DriverConfig)

/-- Ticks come at non-decreasing times and go on after errors. -/
def turn (state : Clocked σ) (next : Turn σ) : Option (Clocked σ) :=
  if state.clock ≤ next.time then
    some {
      driver := (tick calls config next.time (next.found state.driver)).2
      clock := next.time }
  else none

/-- States after any ticks of a new driver. -/
def Ticked (state : Clocked σ) : Prop :=
  ∃ syncer start, Machine.Reaches (turn calls config) (fun _ _ => True)
    ⟨new syncer, start⟩ state

/-- Every scheduled stage is remembered. -/
def Remembers (state : Clocked σ) : Prop :=
  ∀ stage interval, Schedules config stage interval →
    Remembered stage interval state.clock (state.driver.view stage)

/-- Every scheduled stage succeeded since its last boundary. -/
def KeepsSchedule (now : Int) (driver : Driver σ) : Prop :=
  ∀ stage interval, Schedules config stage interval →
    OnSchedule interval now (driver.view stage).2

/-- The current boundary of every scheduled stage is past the epoch, and no
failed attempt of the stage stored it. -/
def NoneSpent (now : Int) (driver : Driver σ) : Prop :=
  ∀ stage interval, Schedules config stage interval →
    Open interval now (driver.view stage)

variable {calls config}

theorem Advanced.of_tick {now : Int} {stage : Stage} {interval : Nat}
    (scheduled : Schedules config stage interval) (driver : Driver σ) :
    Advanced stage now (truncate now interval) (driver.view stage)
      ((tick calls config now driver).2.view stage) := by
  have reached := tick_serves calls now scheduled (driver.view stage) driver rfl
  cases ran : tick calls config now driver with
  | mk result final =>
      rw [ran] at reached
      cases result with
      | error error => exact reached
      | ok report =>
          change final.view stage = _ at reached
          rw [reached]
          exact advanced_attended stage now _ _

theorem attended_of_tick {now : Int} {stage : Stage} {interval : Nat}
    (scheduled : Schedules config stage interval) {driver : Driver σ}
    (ok : (tick calls config now driver).1.isOk = true) :
    (tick calls config now driver).2.view stage =
      attended stage now (truncate now interval) (driver.view stage) := by
  have reached := tick_serves calls now scheduled (driver.view stage) driver rfl
  cases ran : tick calls config now driver with
  | mk result final =>
      rw [ran] at reached ok
      cases result with
      | error error => cases ok
      | ok report => exact reached

theorem remembers_turn {state after : Clocked σ} {next : Turn σ}
    (remembers : Remembers config state)
    (stepped : turn calls config state next = some after) :
    Remembers config after := by
  unfold turn at stepped
  split at stepped
  · rename_i ordered
    cases stepped
    intro stage interval scheduled
    apply (remembers stage interval scheduled).advance ordered
    exact Advanced.of_tick scheduled (next.found state.driver)
  · cases stepped

theorem Ticked.remembers {state : Clocked σ}
    (ticked : Ticked calls config state) : Remembers config state := by
  obtain ⟨syncer, start, run⟩ := ticked
  apply run.invariant
  · exact fun _ _ _ => .fresh
  · exact fun _ _ _ remembers _ stepped => remembers_turn remembers stepped

/-- A tick that succeeds leaves every scheduled stage on schedule, if and only
if no stage had spent its current boundary on a failed attempt. -/
theorem ok_tick_keeps_schedule_iff {state : Clocked σ}
    (ticked : Ticked calls config state) {next : Turn σ}
    (ordered : state.clock ≤ next.time)
    (ok : (tick calls config next.time (next.found state.driver)).1.isOk =
      true) :
    (NoneSpent config next.time state.driver →
        KeepsSchedule config next.time
          (tick calls config next.time (next.found state.driver)).2) ∧
      (Representable next.time →
        KeepsSchedule config next.time
          (tick calls config next.time (next.found state.driver)).2 →
        NoneSpent config next.time state.driver) := by
  constructor
  · intro noneSpent stage interval scheduled
    rw [attended_of_tick scheduled ok]
    exact (ticked.remembers stage interval scheduled).onSchedule ordered
      (noneSpent stage interval scheduled)
  · intro fits keeps stage interval scheduled
    have onSchedule := keeps stage interval scheduled
    rw [attended_of_tick scheduled ok] at onSchedule
    exact (ticked.remembers stage interval scheduled).isOpen ordered fits
      onSchedule

end Runs

/-! ## A compaction that is skipped -/

/-- The syncer of an idle database, at a fixed time. -/
def idleCalls (clock : Int) : SyncerCalls Levels SyncError where
  sync := return .skipped
  checkpointIfNeeded := return none
  checkpointNow mode := return (mode, ⟨false, 0, 0⟩)
  walFrameCount _ := 0
  compactLevel := compactLevel clock
  snapshot := Literstream.snapshot clock
  enforceSnapshotRetention := Literstream.enforceSnapshotRetention
  enforceL0Retention := Literstream.enforceL0Retention
  resnapshotCount _ := 0
  stagedBacklogBytes _ := 0

/-- One level above L0, compacted every 30 seconds. -/
def halfMinuteLevels : CompactionLevels where
  levels := [⟨0, 0⟩, ⟨1, 30 * 10 ^ 9⟩]
  nonempty := by decide
  dense := by decide
  below := by decide
  timed := by decide

def halfMinuteConfig : DriverConfig where
  levels := halfMinuteLevels
  snapshotInterval := 0
  snapshotRetention := 0
  l0Retention := 0
  l0RetentionInterval := 0
  checkpointInterval := 0

/-- Three L0 files. -/
def syncedLevels : Levels :=
  Levels.empty.play (fun _ => 0) [hotSync, hotSync, hotSync]

/-- The first store operation of the tick fails. -/
def failingTurn : Turn Levels where
  syncer := { syncedLevels with faults := [true] }
  time := 30 * 10 ^ 9

/-- A second later the store works again. -/
def workingTurn : Turn Levels where
  syncer := syncedLevels
  time := 31 * 10 ^ 9

def afterFailure : Clocked Levels where
  driver := (tick (idleCalls 0) halfMinuteConfig failingTurn.time
    (failingTurn.found (new syncedLevels))).2
  clock := failingTurn.time

theorem afterFailure_ticked :
    Ticked (idleCalls 0) halfMinuteConfig afterFailure := by
  have stepped : turn (idleCalls 0) halfMinuteConfig ⟨new syncedLevels, 0⟩
      failingTurn = some afterFailure := by
    rw [turn, if_pos (by decide)]
    rfl
  exact ⟨syncedLevels, 0, .tail .refl trivial stepped⟩

theorem working_tick_ok :
    (tick (idleCalls 0) halfMinuteConfig workingTurn.time
      (workingTurn.found afterFailure.driver)).1.isOk = true := by
  decide +kernel

theorem ok_tick_keeps_schedule_iff_afterFailure :
    (NoneSpent halfMinuteConfig workingTurn.time afterFailure.driver →
        KeepsSchedule halfMinuteConfig workingTurn.time
          (tick (idleCalls 0) halfMinuteConfig workingTurn.time
            (workingTurn.found afterFailure.driver)).2) ∧
      (Representable workingTurn.time →
        KeepsSchedule halfMinuteConfig workingTurn.time
          (tick (idleCalls 0) halfMinuteConfig workingTurn.time
            (workingTurn.found afterFailure.driver)).2 →
        NoneSpent halfMinuteConfig workingTurn.time afterFailure.driver) :=
  ok_tick_keeps_schedule_iff afterFailure_ticked (by decide) working_tick_ok

/-- The tick after the failure succeeds although the level was not compacted
since its boundary. -/
theorem failed_compaction_is_skipped :
    Ticked (idleCalls 0) halfMinuteConfig afterFailure ∧
      afterFailure.clock ≤ workingTurn.time ∧
      (tick (idleCalls 0) halfMinuteConfig workingTurn.time
        (workingTurn.found afterFailure.driver)).1.isOk = true ∧
      ¬KeepsSchedule halfMinuteConfig workingTurn.time
        (tick (idleCalls 0) halfMinuteConfig workingTurn.time
          (workingTurn.found afterFailure.driver)).2 := by
  refine ⟨afterFailure_ticked, by decide, working_tick_ok, ?_⟩
  intro keeps
  have seen : ((tick (idleCalls 0) halfMinuteConfig workingTurn.time
      (workingTurn.found afterFailure.driver)).2.view (.compaction 1)).2 =
        [⟨.compaction 1, 30 * 10 ^ 9, false⟩] := by decide +kernel
  have scheduled : Schedules halfMinuteConfig (.compaction 1) (30 * 10 ^ 9) :=
    @Schedules.compaction halfMinuteConfig ⟨1, 30 * 10 ^ 9⟩ (by decide)
      (by decide)
  obtain ⟨attempt, member, succeeded, _⟩ := keeps _ _ scheduled
  rw [seen, List.mem_singleton] at member
  rw [member] at succeeded
  cases succeeded

end Driver

end Literstream
