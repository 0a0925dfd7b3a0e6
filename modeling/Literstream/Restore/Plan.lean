import Literstream.Storage
import Literstream.Lib.Cover

/-!
# Restore planning

All planners share one greedy cover: from the position reached so far, take the
file that begins contiguously and reaches furthest, preferring higher levels on
ties.
-/

namespace Literstream

/-- A file can extend a cover that has reached `pos`. -/
def FileKey.candidate (pos : Nat) (key : FileKey) : Bool :=
  key.minTxid ≤ pos + 1 && pos < key.maxTxid

/-- `max_by` on `(max_txid, level)`: the later of two equal files is kept. -/
def betterFile (best next : FileKey) : FileKey :=
  if next.maxTxid < best.maxTxid ∨
      (next.maxTxid = best.maxTxid ∧ next.level < best.level) then best
  else next

def furthest : List FileKey → Option FileKey
  | [] => none
  | first :: rest => some (rest.foldl betterFile first)

/-- The file a greedy cover takes next. -/
def nextFile (files : List FileKey) (pos : Nat) : Option FileKey :=
  furthest (files.filter (FileKey.candidate pos))

/-- The greedy cover from `start`: the plan, and the TXID it reaches. -/
def greedyCover (files : List FileKey) (start : Nat) : List FileKey × Nat :=
  Cover.run FileKey.maxTxid (nextFile files) files.length start

def planRestore (files : List FileKey) : Except SyncError (List FileKey) :=
  if (greedyCover files 0).1.head?.map FileKey.minTxid = some 1 then
    .ok (greedyCover files 0).1
  else .error .noSnapshot

/-- The highest TXID listed, 0 for an empty listing. -/
def headTxid (files : List FileKey) : Nat :=
  files.foldl (fun head key => max head key.maxTxid) 0

def planRestoreFrom (files : List FileKey) (fromTxid : Nat) :
    Except SyncError (List FileKey) :=
  if headTxid files ≤ fromTxid then .ok []
  else if (greedyCover files fromTxid).2 < headTxid files then
    .error (.chainGap fromTxid)
  else .ok (greedyCover files fromTxid).1

def planRestoreTo (files : List FileKey) (target : Nat) :
    Except SyncError (List FileKey) :=
  planRestore (files.filter fun key => key.maxTxid ≤ target)

/-- A plan of files leading from one TXID to another. -/
abbrev FileChain := Cover.Chain FileKey.minTxid FileKey.maxTxid

/-- Every TXID of a range lies inside some listed file. -/
abbrev FilesCover := Cover.Covers FileKey.minTxid FileKey.maxTxid

@[simp] theorem FileKey.candidate_iff {pos : Nat} {key : FileKey} :
    key.candidate pos = true ↔
      Cover.Extends FileKey.minTxid FileKey.maxTxid pos key := by
  simp [FileKey.candidate, Cover.Extends]

/-- In 64-bit words the sum wraps around only where no file ends later. -/
theorem FileKey.candidate_word {pos : Nat} {key : FileKey}
    (word : pos < 2 ^ 64) (small : key.maxTxid < 2 ^ 64 - 1) :
    (key.minTxid ≤ (pos + 1) % 2 ^ 64 ∧ pos < key.maxTxid) ↔
      key.candidate pos = true := by
  rw [FileKey.candidate_iff, Cover.Extends]
  by_cases top : pos = 2 ^ 64 - 1
  · omega
  · rw [Nat.mod_eq_of_lt (by omega)]

theorem betterFile_eq_or (best next : FileKey) :
    betterFile best next = best ∨ betterFile best next = next := by
  unfold betterFile
  split
  · exact .inl rfl
  · exact .inr rfl

theorem foldl_betterFile_mem (files : List FileKey) (first : FileKey) :
    files.foldl betterFile first = first ∨
      files.foldl betterFile first ∈ files := by
  induction files generalizing first with
  | nil => exact .inl rfl
  | cons next rest ih =>
      rw [List.foldl_cons]
      rcases ih (betterFile first next) with stays | later
      · rw [stays]
        rcases betterFile_eq_or first next with same | same
        · exact .inl same
        · exact .inr (by simp [same])
      · exact .inr (List.mem_cons_of_mem _ later)

theorem furthest_mem {files : List FileKey} {key : FileKey}
    (found : furthest files = some key) : key ∈ files := by
  cases files with
  | nil => cases found
  | cons first rest =>
      simp only [furthest, Option.some.injEq] at found
      subst found
      rcases foldl_betterFile_mem rest first with same | later
      · rw [same]
        exact List.mem_cons_self
      · exact List.mem_cons_of_mem _ later

theorem furthest_eq_none {files : List FileKey} :
    furthest files = none ↔ files = [] := by
  cases files <;> simp [furthest]

theorem nextFile_picks (files : List FileKey) :
    Cover.Picks FileKey.minTxid FileKey.maxTxid files (nextFile files) where
  sound := by
    intro pos key picked
    have member := furthest_mem picked
    simpa using member
  complete := by
    intro pos stuck key member extends_
    have empty := furthest_eq_none.mp stuck
    have inside : key ∈ files.filter (FileKey.candidate pos) := by
      simp [member, extends_]
    rw [empty] at inside
    cases inside

theorem greedyCover_chain (files : List FileKey) (start : Nat) :
    FileChain start (greedyCover files start).1 (greedyCover files start).2 :=
  Cover.run_chain (nextFile_picks files) _ _

theorem greedyCover_subset (files : List FileKey) (start : Nat) :
    ∀ key ∈ (greedyCover files start).1, key ∈ files :=
  Cover.run_subset (nextFile_picks files) _ _

theorem greedyCover_reaches {files : List FileKey} {start finish : Nat}
    (covered : FilesCover files start finish) :
    finish ≤ (greedyCover files start).2 :=
  Cover.run_reaches (nextFile_picks files) (Nat.le_refl _) covered

/-- A list of files covers a range as soon as the walk over it gets through. -/
theorem covers_of_greedyCover {files : List FileKey} {start finish : Nat}
    (reached : finish ≤ (greedyCover files start).2) :
    FilesCover files start finish := by
  intro pos after before
  obtain ⟨key, member, inside⟩ := (greedyCover_chain files start).covers pos
    after (Nat.le_trans before reached)
  exact ⟨key, greedyCover_subset files start key member, inside⟩

theorem foldl_max_le {files : List FileKey} {initial bound : Nat}
    (start : initial ≤ bound) (ends : ∀ key ∈ files, key.maxTxid ≤ bound) :
    files.foldl (fun head key => max head key.maxTxid) initial ≤ bound := by
  induction files generalizing initial with
  | nil => exact start
  | cons key rest ih =>
      rw [List.foldl_cons]
      apply ih
      · have := ends key (by simp)
        omega
      · exact fun other member => ends other (by simp [member])

theorem le_foldl_max (files : List FileKey) (initial : Nat) :
    initial ≤ files.foldl (fun head key => max head key.maxTxid) initial ∧
      ∀ key ∈ files, key.maxTxid ≤
        files.foldl (fun head key => max head key.maxTxid) initial := by
  induction files generalizing initial with
  | nil => simp
  | cons first rest ih =>
      rw [List.foldl_cons]
      obtain ⟨below, all⟩ := ih (max initial first.maxTxid)
      refine ⟨by omega, ?_⟩
      intro key member
      rcases List.mem_cons.mp member with rfl | later
      · omega
      · exact all key later

theorem maxTxid_le_headTxid {files : List FileKey} {key : FileKey}
    (member : key ∈ files) : key.maxTxid ≤ headTxid files :=
  (le_foldl_max files 0).2 key member

/-- Some listed file ends at the highest TXID. -/
theorem exists_headTxid (files : List FileKey) :
    headTxid files = 0 ∨ ∃ key ∈ files, key.maxTxid = headTxid files := by
  have loop : ∀ initial,
      files.foldl (fun head key => max head key.maxTxid) initial = initial ∨
        ∃ key ∈ files, key.maxTxid =
          files.foldl (fun head key => max head key.maxTxid) initial := by
    induction files with
    | nil => exact fun initial => .inl rfl
    | cons first rest ih =>
        intro initial
        rw [List.foldl_cons]
        rcases ih (max initial first.maxTxid) with same | ⟨key, member, ends⟩
        · rw [same]
          rcases Nat.le_total initial first.maxTxid with below | above
          · exact .inr ⟨first, by simp, (Nat.max_eq_right below).symm⟩
          · exact .inl (Nat.max_eq_left above)
        · exact .inr ⟨key, by simp [member], ends⟩
  exact loop 0

theorem headTxid_le {files : List FileKey} {bound : Nat}
    (ends : ∀ key ∈ files, key.maxTxid ≤ bound) : headTxid files ≤ bound :=
  foldl_max_le (Nat.zero_le _) ends

/-- A greedy cover never passes the highest TXID listed. -/
theorem greedyCover_le_headTxid {files : List FileKey} {start : Nat}
    (initial : start ≤ headTxid files) :
    (greedyCover files start).2 ≤ headTxid files :=
  (greedyCover_chain files start).le_of_forall initial fun key member =>
    maxTxid_le_headTxid (greedyCover_subset files start key member)

theorem greedyCover_head (files : List FileKey) (start : Nat) :
    (greedyCover files start).1.head? = nextFile files start := by
  cases files with
  | nil => rfl
  | cons file rest =>
      simp only [greedyCover, List.length_cons, Cover.run]
      cases nextFile (file :: rest) start with
      | none => rfl
      | some first => rfl

/-- `planRestore` accepts every walk that starts with TXID 1. -/
theorem planRestore_of_head {files : List FileKey}
    (starts : (nextFile files 0).map FileKey.minTxid = some 1) :
    planRestore files = .ok (greedyCover files 0).1 := by
  rw [planRestore, greedyCover_head, if_pos starts]

theorem planRestore_eq_ok {files plan : List FileKey}
    (planned : planRestore files = .ok plan) :
    plan = (greedyCover files 0).1 ∧
      plan.head?.map FileKey.minTxid = some 1 := by
  unfold planRestore at planned
  split at planned
  · rename_i starts
    cases planned
    exact ⟨rfl, starts⟩
  · cases planned

/-- A listing without a gap from TXID 1 to its highest TXID has a restore
plan, and the plan reaches that TXID. -/
theorem planRestore_of_covers {files : List FileKey}
    (positive : ∀ key ∈ files, 1 ≤ key.minTxid)
    (nonempty : 0 < headTxid files)
    (covered : FilesCover files 0 (headTxid files)) :
    ∃ plan, planRestore files = .ok plan ∧
      FileChain 0 plan (headTxid files) ∧ ∀ key ∈ plan, key ∈ files := by
  have chain := greedyCover_chain files 0
  have subset := greedyCover_subset files 0
  have reached : (greedyCover files 0).2 = headTxid files :=
    Nat.le_antisymm (greedyCover_le_headTxid (Nat.zero_le _))
      (greedyCover_reaches covered)
  have starts : (greedyCover files 0).1.head?.map FileKey.minTxid = some 1 := by
    cases plan : (greedyCover files 0).1 with
    | nil =>
        rw [plan] at chain
        have still := chain.eq_of_nil
        omega
    | cons first rest =>
        rw [plan] at chain subset
        have begins := chain.head_extends.1
        have atLeast := positive first (subset first (by simp))
        have one : first.minTxid = 1 := by omega
        simp [one]
  rw [reached] at chain
  refine ⟨(greedyCover files 0).1, ?_, chain, subset⟩
  rw [planRestore, if_pos starts]

theorem planRestoreFrom_eq_ok {files plan : List FileKey} {fromTxid : Nat}
    (behind : fromTxid < headTxid files)
    (planned : planRestoreFrom files fromTxid = .ok plan) :
    FileChain fromTxid plan (headTxid files) ∧ ∀ key ∈ plan, key ∈ files := by
  unfold planRestoreFrom at planned
  rw [if_neg (by omega)] at planned
  split at planned
  · cases planned
  · rename_i reached
    cases planned
    have chain := greedyCover_chain files fromTxid
    have bounded := greedyCover_le_headTxid (Nat.le_of_lt behind)
    have exact_ : (greedyCover files fromTxid).2 = headTxid files := by omega
    rw [exact_] at chain
    exact ⟨chain, greedyCover_subset files fromTxid⟩

end Literstream
