import Mathlib.Data.List.TakeWhile
import Literstream.Storage

/-!
# Retention decisions

Pure rules over the files listed at one level, in ascending order.  All of them
keep the newest file of the list.
-/

namespace Literstream

/-- A listed file with its creation time, when known. -/
structure LtxFileInfo extends FileKey where
  createdAt : Option Int
deriving DecidableEq, Repr

/-- Strictly older than the cutoff; a file of unknown age is not. -/
def expired (file : LtxFileInfo) (cutoff : Int) : Bool :=
  match file.createdAt with
  | some time => time < cutoff
  | none => false

/-- Drop the last file to delete when it is the newest file of the list. -/
def keepNewest (files deleted : List LtxFileInfo) : List LtxFileInfo :=
  match files.getLast?, deleted.getLast? with
  | some last, some deletedLast =>
      if deletedLast = last then deleted.dropLast else deleted
  | _, _ => deleted

/-- The loop of `snapshotExpired`. -/
def snapshotScan (cutoff : Int) :
    List LtxFileInfo → List LtxFileInfo × Nat → List LtxFileInfo × Nat
  | [], found => found
  | file :: rest, (deleted, minRetained) =>
      if expired file cutoff then
        snapshotScan cutoff rest (deleted ++ [file], minRetained)
      else if minRetained = 0 ∨ file.maxTxid < minRetained then
        snapshotScan cutoff rest (deleted, file.maxTxid)
      else snapshotScan cutoff rest (deleted, minRetained)

/-- The snapshots to delete, and the smallest `maxTxid` kept by age. -/
def snapshotExpired (files : List LtxFileInfo) (cutoff : Int) :
    List LtxFileInfo × Nat :=
  let found := snapshotScan cutoff files ([], 0)
  (keepNewest files found.1, found.2)

/-- The loop of `l0Expired`: it stops at the first file newer than the
cutoff, and reports whether it went through the whole list. -/
def l0Scan (maxL1 : Nat) (cutoff : Int) :
    List LtxFileInfo → List LtxFileInfo → List LtxFileInfo × Bool
  | [], deleted => (deleted, true)
  | file :: rest, deleted =>
      if file.createdAt.any fun time => cutoff < time then (deleted, false)
      else if file.maxTxid ≤ maxL1 then
        l0Scan maxL1 cutoff rest (deleted ++ [file])
      else l0Scan maxL1 cutoff rest deleted

def l0Expired (files : List LtxFileInfo) (maxL1 : Nat) (cutoff : Int) :
    List LtxFileInfo :=
  if maxL1 = 0 then []
  else
    let found := l0Scan maxL1 cutoff files []
    if found.2 then keepNewest files found.1 else found.1

def belowTxid (files : List LtxFileInfo) (txid : Nat) : List LtxFileInfo :=
  keepNewest files (files.filter fun file => file.maxTxid < txid)

/-! ## What the rules delete -/

theorem keepNewest_sublist (files deleted : List LtxFileInfo) :
    (keepNewest files deleted).Sublist deleted := by
  unfold keepNewest
  split
  · split
    · exact List.dropLast_sublist _
    · exact .refl _
  · exact .refl _

theorem keepNewest_subset (files deleted : List LtxFileInfo) :
    ∀ file ∈ keepNewest files deleted, file ∈ deleted :=
  fun _ member => (keepNewest_sublist files deleted).subset member

/-- The newest file is never among the files to delete. -/
theorem last_not_mem_keepNewest {files deleted : List LtxFileInfo}
    {last : LtxFileInfo} (distinct : files.Nodup)
    (isLast : files.getLast? = some last) (part : deleted.Sublist files) :
    last ∉ keepNewest files deleted := by
  obtain ⟨initial, rfl⟩ := List.getLast?_eq_some_iff.mp isLast
  have fresh : last ∉ initial := by
    intro member
    exact (List.nodup_append.mp distinct).2.2 last member last (by simp) rfl
  unfold keepNewest
  rw [isLast]
  rcases List.sublist_append_iff.mp part with ⟨left, right, rfl, inside, tail⟩
  rcases List.sublist_singleton.mp tail with rfl | rfl
  · have outside : last ∉ left := fun member =>
      fresh (inside.subset member)
    simp only [List.append_nil]
    split
    · split
      · exact fun member => outside ((List.dropLast_sublist _).subset member)
      · exact outside
    · exact outside
  · simp only [List.getLast?_append, List.getLast?_singleton, Option.some_or,
      if_true, List.dropLast_concat]
    exact fun member => fresh (inside.subset member)

/-- Only the newest file of the list is spared. -/
theorem mem_keepNewest {files deleted : List LtxFileInfo}
    {file : LtxFileInfo} (member : file ∈ deleted)
    (notLast : files.getLast? ≠ some file) :
    file ∈ keepNewest files deleted := by
  unfold keepNewest
  split
  · rename_i last deletedLast isLast isDeletedLast
    split
    · rename_i same
      apply List.mem_dropLast_of_mem_of_ne_getLast? member
      rw [isDeletedLast, same, ← isLast]
      exact notLast.symm
    · exact member
  · exact member

theorem snapshotScan_deletes (cutoff : Int) (files deleted : List LtxFileInfo)
    (minRetained : Nat) :
    (snapshotScan cutoff files (deleted, minRetained)).1 =
      deleted ++ files.filter fun file => expired file cutoff := by
  induction files generalizing deleted minRetained with
  | nil => simp [snapshotScan]
  | cons file rest ih =>
      rw [snapshotScan, List.filter_cons]
      split
      · rw [ih, List.append_assoc]
        rfl
      · split <;> exact ih _ _

/-- The bound is the one found before, or that of a file kept by age. -/
theorem snapshotScan_retains (cutoff : Int) (files deleted : List LtxFileInfo)
    (minRetained : Nat) :
    (snapshotScan cutoff files (deleted, minRetained)).2 = minRetained ∨
      ∃ file ∈ files, expired file cutoff = false ∧
        (snapshotScan cutoff files (deleted, minRetained)).2 =
          file.maxTxid := by
  induction files generalizing deleted minRetained with
  | nil => exact .inl rfl
  | cons file rest ih =>
      have later : ∀ {found bound},
          (snapshotScan cutoff rest (found, bound)).2 = bound ∨
            ∃ other ∈ file :: rest, expired other cutoff = false ∧
              (snapshotScan cutoff rest (found, bound)).2 =
                other.maxTxid := by
        intro found bound
        rcases ih found bound with same | ⟨other, member, kept, same⟩
        · exact .inl same
        · exact .inr ⟨other, List.mem_cons_of_mem _ member, kept, same⟩
      rw [snapshotScan]
      split
      · exact later
      · rename_i young
        split
        · rcases later with same | found
          · exact .inr ⟨file, List.mem_cons_self, by simpa using young, same⟩
          · exact .inr found
        · exact later

/-- No file kept by age ends below the bound, where TXIDs count from 1. -/
theorem snapshotScan_le {files : List LtxFileInfo} (cutoff : Int)
    (deleted : List LtxFileInfo) (minRetained : Nat)
    (counted : ∀ file ∈ files, 1 ≤ file.maxTxid) :
    (0 < minRetained →
      0 < (snapshotScan cutoff files (deleted, minRetained)).2 ∧
        (snapshotScan cutoff files (deleted, minRetained)).2 ≤ minRetained) ∧
    ∀ file ∈ files, expired file cutoff = false →
      (snapshotScan cutoff files (deleted, minRetained)).2 ≤ file.maxTxid := by
  induction files generalizing deleted minRetained with
  | nil => exact ⟨fun some_ => ⟨some_, Nat.le_refl _⟩, by simp⟩
  | cons first rest ih =>
      have positive := counted first List.mem_cons_self
      have restCounted : ∀ file ∈ rest, 1 ≤ file.maxTxid :=
        fun file member => counted file (List.mem_cons_of_mem _ member)
      rw [snapshotScan]
      split
      · rename_i old
        obtain ⟨bounds, kept⟩ := ih (deleted ++ [first]) minRetained restCounted
        refine ⟨bounds, ?_⟩
        intro file member young
        rcases List.mem_cons.mp member with rfl | later
        · rw [old] at young
          cases young
        · exact kept file later young
      · split
        · rename_i lower
          obtain ⟨bounds, kept⟩ := ih deleted first.maxTxid restCounted
          obtain ⟨some_, below⟩ := bounds positive
          refine ⟨fun initial => ⟨some_, by omega⟩, ?_⟩
          intro file member young
          rcases List.mem_cons.mp member with rfl | later
          · exact below
          · exact kept file later young
        · rename_i higher
          obtain ⟨bounds, kept⟩ := ih deleted minRetained restCounted
          refine ⟨bounds, ?_⟩
          intro file member young
          rcases List.mem_cons.mp member with rfl | later
          · have below := (bounds (by omega)).2
            omega
          · exact kept file later young

/-- A snapshot is deleted when it is expired and not the newest. -/
theorem mem_snapshotExpired {files : List LtxFileInfo} {cutoff : Int}
    {file : LtxFileInfo} (distinct : files.Nodup) :
    file ∈ (snapshotExpired files cutoff).1 ↔
      file ∈ files ∧ expired file cutoff = true ∧
        files.getLast? ≠ some file := by
  rw [snapshotExpired, snapshotScan_deletes, List.nil_append]
  constructor
  · intro member
    obtain ⟨listed, old⟩ := List.mem_filter.mp (keepNewest_subset _ _ _ member)
    exact ⟨listed, old, fun isLast =>
      last_not_mem_keepNewest distinct isLast List.filter_sublist member⟩
  · rintro ⟨listed, old, notLast⟩
    exact mem_keepNewest (List.mem_filter.mpr ⟨listed, old⟩) notLast

/-- Snapshot retention deletes listed snapshots other than the newest, and the
bound it reports is that of a listed snapshot. -/
theorem snapshotExpired_spec {files : List LtxFileInfo} (cutoff : Int)
    (distinct : files.Nodup) :
    (∀ file ∈ (snapshotExpired files cutoff).1, file ∈ files ∧
      files.getLast? ≠ some file) ∧
    ((snapshotExpired files cutoff).2 = 0 ∨
      ∃ file ∈ files, (snapshotExpired files cutoff).2 = file.maxTxid) := by
  constructor
  · intro file member
    obtain ⟨listed, _, notLast⟩ := (mem_snapshotExpired distinct).mp member
    exact ⟨listed, notLast⟩
  · rcases snapshotScan_retains cutoff files [] 0 with
      zero | ⟨file, member, _, same⟩
    · exact .inl zero
    · exact .inr ⟨file, member, same⟩

theorem snapshotExpired_sublist (files : List LtxFileInfo) (cutoff : Int) :
    (snapshotExpired files cutoff).1.Sublist files := by
  rw [snapshotExpired, snapshotScan_deletes, List.nil_append]
  exact (keepNewest_sublist files _).trans List.filter_sublist

/-- A file newer than the cutoff; one of unknown age is not. -/
def tooNew (cutoff : Int) (file : LtxFileInfo) : Bool :=
  file.createdAt.any fun time => cutoff < time

/-- The scan takes the folded files in front of the first one that is too
new. -/
theorem l0Scan_eq (maxL1 : Nat) (cutoff : Int)
    (files deleted : List LtxFileInfo) :
    l0Scan maxL1 cutoff files deleted =
      (deleted ++ (files.takeWhile fun file => !tooNew cutoff file).filter
          fun file => file.maxTxid ≤ maxL1,
        files.all fun file => !tooNew cutoff file) := by
  induction files generalizing deleted with
  | nil => simp [l0Scan]
  | cons file rest ih =>
      rw [l0Scan, List.takeWhile_cons, List.all_cons]
      cases newer : tooNew cutoff file with
      | true =>
          rw [if_pos (by rw [← newer]; rfl)]
          simp
      | false =>
          rw [if_neg (by rw [← Bool.not_eq_true] at newer; exact newer)]
          split
          · rename_i folded
            simp [ih, folded]
          · rename_i above
            simp [ih, above]

/-- A file is deleted by L0 retention when it is folded into L1, is not the
newest, and neither it nor a file in front of it is too new. -/
theorem mem_l0Expired {files : List LtxFileInfo} {maxL1 : Nat} {cutoff : Int}
    {file : LtxFileInfo} (distinct : files.Nodup) :
    file ∈ l0Expired files maxL1 cutoff ↔
      maxL1 ≠ 0 ∧ file.maxTxid ≤ maxL1 ∧
        file ∈ files.takeWhile (fun other => !tooNew cutoff other) ∧
        files.getLast? ≠ some file := by
  have scanned : ∀ other,
      other ∈ (l0Scan maxL1 cutoff files []).1 ↔
        other ∈ files.takeWhile (fun entry => !tooNew cutoff entry) ∧
          other.maxTxid ≤ maxL1 := by
    intro other
    rw [l0Scan_eq, List.nil_append, List.mem_filter, decide_eq_true_eq]
  have part : (l0Scan maxL1 cutoff files []).1.Sublist files := by
    rw [l0Scan_eq, List.nil_append]
    exact List.filter_sublist.trans (List.takeWhile_sublist _)
  unfold l0Expired
  split
  · rename_i zero
    simp [zero]
  · rename_i some_
    dsimp only
    split
    · constructor
      · intro member
        obtain ⟨early, folded⟩ :=
          (scanned file).mp (keepNewest_subset _ _ _ member)
        exact ⟨some_, folded, early, fun isLast =>
          last_not_mem_keepNewest distinct isLast part member⟩
      · rintro ⟨_, folded, early, notLast⟩
        exact mem_keepNewest ((scanned file).mpr ⟨early, folded⟩) notLast
    · rename_i stopped
      rw [scanned]
      constructor
      · rintro ⟨early, folded⟩
        refine ⟨some_, folded, early, ?_⟩
        intro isLast
        -- If the last file were scanned, the scan would not have stopped.
        obtain ⟨body, rfl⟩ := List.getLast?_eq_some_iff.mp isLast
        have fresh : file ∉ body := fun member =>
          (List.nodup_append.mp distinct).2.2 file member file (by simp) rfl
        apply stopped
        rw [l0Scan_eq]
        dsimp only
        rw [List.takeWhile_append] at early
        split at early
        · rename_i whole
          rw [List.all_append, List.all_cons, List.all_nil, Bool.and_true,
            Bool.and_eq_true]
          constructor
          · rw [List.all_eq_true]
            have all_ := List.takeWhile_eq_self_iff.mp
              (List.takeWhile_prefix _ |>.eq_of_length whole)
            exact all_
          · rcases List.mem_append.mp early with before | self
            · exact absurd before fresh
            · exact List.mem_takeWhile_imp
                (p := fun entry => !tooNew cutoff entry) self
        · exact absurd ((List.takeWhile_sublist _).subset early) fresh
      · rintro ⟨_, folded, early, _⟩
        exact ⟨early, folded⟩

theorem l0Expired_sublist (files : List LtxFileInfo) (maxL1 : Nat)
    (cutoff : Int) : (l0Expired files maxL1 cutoff).Sublist files := by
  have part : (l0Scan maxL1 cutoff files []).1.Sublist files := by
    rw [l0Scan_eq, List.nil_append]
    exact List.filter_sublist.trans (List.takeWhile_sublist _)
  unfold l0Expired
  split
  · exact List.nil_sublist _
  · dsimp only
    split
    · exact (keepNewest_sublist files _).trans part
    · exact part

/-- L0 retention deletes listed files that are folded into L1, other than the
newest. -/
theorem l0Expired_spec {files : List LtxFileInfo} (maxL1 : Nat) (cutoff : Int)
    (distinct : files.Nodup) :
    ∀ file ∈ l0Expired files maxL1 cutoff, file ∈ files ∧
      files.getLast? ≠ some file ∧ file.maxTxid ≤ maxL1 := by
  intro file member
  obtain ⟨_, folded, early, notLast⟩ := (mem_l0Expired distinct).mp member
  exact ⟨(List.takeWhile_sublist _).subset early, notLast, folded⟩

/-- TXID retention deletes listed files below the bound, other than the
newest. -/
theorem belowTxid_spec {files : List LtxFileInfo} (txid : Nat)
    (distinct : files.Nodup) :
    ∀ file ∈ belowTxid files txid, file ∈ files ∧
      files.getLast? ≠ some file ∧ file.maxTxid < txid := by
  intro file member
  have inside := keepNewest_subset _ _ _ member
  obtain ⟨listed, below⟩ := List.mem_filter.mp inside
  refine ⟨listed, ?_, by simpa using below⟩
  intro isLast
  exact last_not_mem_keepNewest distinct isLast List.filter_sublist member

/-! ## What remains

On a list with ascending ends the files to delete lie in front of all others.
-/

/-- Ascending by their ends, which are distinct. -/
abbrev AscendingEnds (files : List LtxFileInfo) : Prop :=
  files.Pairwise fun left right => left.maxTxid < right.maxTxid

theorem AscendingEnds.nodup {files : List LtxFileInfo}
    (ascending : AscendingEnds files) : files.Nodup := by
  apply ascending.imp
  rintro left right less rfl
  omega

/-- The files up to some end are the first ones of the list. -/
theorem AscendingEnds.filter_isPrefix {files : List LtxFileInfo}
    (ascending : AscendingEnds files) (bound : Nat) :
    (files.filter fun file => file.maxTxid ≤ bound) <+: files := by
  induction files with
  | nil => exact List.prefix_refl _
  | cons file rest ih =>
      obtain ⟨above, restAscending⟩ := List.pairwise_cons.mp ascending
      by_cases inside : file.maxTxid ≤ bound
      · rw [List.filter_cons_of_pos (by simpa using inside)]
        exact (List.prefix_cons_inj _).mpr (ih restAscending)
      · have empty : ((file :: rest).filter fun other =>
            decide (other.maxTxid ≤ bound)) = [] := by
          rw [List.filter_eq_nil_iff]
          intro other member
          rcases List.mem_cons.mp member with rfl | later
          · simpa using inside
          · have beyond := above other later
            simp
            omega
        rw [empty]
        exact List.nil_prefix

theorem keepNewest_isPrefix (files deleted : List LtxFileInfo) :
    keepNewest files deleted <+: deleted := by
  unfold keepNewest
  split
  · split
    · exact List.dropLast_prefix _
    · exact List.prefix_refl _
  · exact List.prefix_refl _

theorem l0Expired_isPrefix {files : List LtxFileInfo}
    (ascending : AscendingEnds files) (maxL1 : Nat) (cutoff : Int) :
    l0Expired files maxL1 cutoff <+: files := by
  have start := List.takeWhile_prefix (l := files)
    fun file => !tooNew cutoff file
  have part : (l0Scan maxL1 cutoff files []).1 <+: files := by
    rw [l0Scan_eq, List.nil_append]
    have first : AscendingEnds
        (files.takeWhile fun file => !tooNew cutoff file) :=
      ascending.sublist start.sublist
    exact (first.filter_isPrefix maxL1).trans start
  unfold l0Expired
  split
  · exact List.nil_prefix
  · dsimp only
    split
    · exact (keepNewest_isPrefix files _).trans part
    · exact part

theorem belowTxid_isPrefix {files : List LtxFileInfo}
    (ascending : AscendingEnds files) (txid : Nat) :
    belowTxid files txid <+: files := by
  refine (keepNewest_isPrefix files _).trans ?_
  cases txid with
  | zero => simp
  | succ bound =>
      have same : (files.filter fun file => file.maxTxid < bound + 1) =
          files.filter fun file => file.maxTxid ≤ bound := by
        apply List.filter_congr
        intro file _
        exact decide_eq_decide.mpr Nat.lt_succ_iff
      rw [same]
      exact ascending.filter_isPrefix bound

/-- What the three rules select from a list with ascending ends. -/
structure SelectsOld (files : List LtxFileInfo) (cutoff : Int)
    (maxL1 txid : Nat) : Prop where
  keepsLast : ∀ last, files.getLast? = some last →
    last ∉ (snapshotExpired files cutoff).1 ∧
      last ∉ l0Expired files maxL1 cutoff ∧ last ∉ belowTxid files txid
  l0Prefix : l0Expired files maxL1 cutoff <+: files
  belowPrefix : belowTxid files txid <+: files
  folded : ∀ file ∈ l0Expired files maxL1 cutoff, file.maxTxid ≤ maxL1
  retained : (snapshotExpired files cutoff).2 ≠ 0 →
    ∃ file ∈ files, file ∉ (snapshotExpired files cutoff).1 ∧
      file.maxTxid = (snapshotExpired files cutoff).2

theorem retention_selectsOld {files : List LtxFileInfo}
    (ascending : AscendingEnds files) (cutoff : Int) (maxL1 txid : Nat) :
    SelectsOld files cutoff maxL1 txid where
  keepsLast := by
    intro last isLast
    refine ⟨?_, ?_, ?_⟩
    · intro member
      exact ((snapshotExpired_spec cutoff ascending.nodup).1 last member).2
        isLast
    · intro member
      exact (l0Expired_spec maxL1 cutoff ascending.nodup last member).2.1 isLast
    · intro member
      exact (belowTxid_spec txid ascending.nodup last member).2.1 isLast
  l0Prefix := l0Expired_isPrefix ascending maxL1 cutoff
  belowPrefix := belowTxid_isPrefix ascending txid
  folded := fun file member =>
    (l0Expired_spec maxL1 cutoff ascending.nodup file member).2.2
  retained := by
    intro bounded
    rcases snapshotScan_retains cutoff files [] 0 with
      zero | ⟨file, member, young, same⟩
    · exact absurd zero bounded
    · refine ⟨file, member, ?_, same.symm⟩
      intro selected
      have old := ((mem_snapshotExpired ascending.nodup).mp selected).2.1
      rw [young] at old
      cases old

theorem retention_selectsOld_mixed :
    SelectsOld
      [⟨⟨0, 1, 1⟩, some 5⟩, ⟨⟨0, 2, 2⟩, none⟩, ⟨⟨0, 3, 3⟩, some 1⟩] 4 2 3 :=
  retention_selectsOld (by decide) 4 2 3

end Literstream
