import Literstream.Levels.Calls

/-!
# Listings of the file index

A level lists its files in ascending order, each once, so that the newest file
of a level is the last one listed.
-/

namespace Literstream

open Std

theorem FileKey.cmp_eq_lt {left right : FileKey} :
    FileKey.cmp left right = .lt ↔
      left.level < right.level ∨ (left.level = right.level ∧
        (left.minTxid < right.minTxid ∨ (left.minTxid = right.minTxid ∧
          left.maxTxid < right.maxTxid))) := by
  simp [FileKey.cmp, compareLex, compareOn, Ordering.then_eq_lt,
    Nat.compare_eq_lt]

namespace FileIndex

theorem mem_list {files : FileIndex} {level : Nat} {file : LtxFileInfo} :
    file ∈ files.list level ↔
      files[file.toFileKey]? = some file.createdAt ∧ file.level = level := by
  simp only [list, List.mem_map, List.mem_filter, decide_eq_true_eq]
  constructor
  · rintro ⟨⟨key, createdAt⟩, ⟨member, sameLevel⟩, rfl⟩
    exact ⟨ExtTreeMap.mem_toList_iff_getElem?_eq_some.mp member, sameLevel⟩
  · rintro ⟨held, sameLevel⟩
    exact ⟨(file.toFileKey, file.createdAt),
      ⟨ExtTreeMap.mem_toList_iff_getElem?_eq_some.mpr held, sameLevel⟩, rfl⟩

theorem mem_of_list {files : FileIndex} {level : Nat} {file : LtxFileInfo}
    (member : file ∈ files.list level) : file.toFileKey ∈ files :=
  (OrderedMap.mem_iff_exists _ _).mpr ⟨_, (mem_list.mp member).1⟩

theorem exists_listed {files : FileIndex} {key : FileKey}
    (member : key ∈ files) :
    ∃ file ∈ files.list key.level, file.toFileKey = key := by
  obtain ⟨createdAt, held⟩ := (OrderedMap.mem_iff_exists _ _).mp member
  exact ⟨⟨key, createdAt⟩, mem_list.mpr ⟨held, rfl⟩, rfl⟩

theorem ordered_list (files : FileIndex) (level : Nat) :
    (files.list level).Pairwise fun left right =>
      left.minTxid < right.minTxid ∨
        (left.minTxid = right.minTxid ∧ left.maxTxid < right.maxTxid) := by
  have ordered := files.ordered_keys_toList
  apply List.Pairwise.map (R := fun left right =>
    left.1.level = level ∧ right.1.level = level ∧
      FileKey.cmp left.1 right.1 = .lt)
  · rintro left right ⟨leftLevel, rightLevel, less⟩
    rcases FileKey.cmp_eq_lt.mp less with lower | ⟨_, range⟩
    · omega
    · exact range
  · apply List.Pairwise.imp_of_mem _ (ordered.filter _)
    intro left right leftMember rightMember less
    exact ⟨by simpa using (List.mem_filter.mp leftMember).2,
      by simpa using (List.mem_filter.mp rightMember).2, less⟩

theorem nodup_list (files : FileIndex) (level : Nat) :
    (files.list level).Nodup := by
  apply (files.ordered_list level).imp
  rintro left right ordered rfl
  omega

/-- Two listed files of one address are the same. -/
theorem list_ext {files : FileIndex} {level level' : Nat}
    {left right : LtxFileInfo} (leftMember : left ∈ files.list level)
    (rightMember : right ∈ files.list level')
    (same : left.toFileKey = right.toFileKey) : left = right := by
  have leftHeld := (mem_list.mp leftMember).1
  have rightHeld := (mem_list.mp rightMember).1
  rw [same, rightHeld] at leftHeld
  cases left
  cases right
  cases same
  cases leftHeld
  rfl

/-- A listing depends on the files of its level only. -/
theorem list_congr {left right : FileIndex} {level : Nat}
    (same : ∀ key : FileKey, key.level = level → left[key]? = right[key]?) :
    left.list level = right.list level := by
  unfold list
  congr 1
  have kept (index : FileIndex) :
      (index.toList.filter fun entry => entry.1.level = level) =
        (index.filter fun entry _ => entry.level = level).toList := by
    rw [ExtTreeMap.toList_filter]
  rw [kept, kept]
  congr 1
  apply ExtTreeMap.ext_getElem?
  intro entry
  rw [ExtTreeMap.getElem?_filter', ExtTreeMap.getElem?_filter']
  by_cases inside : entry.level = level
  · rw [same entry inside]
  · simp [inside]

/-- Forgetting a file of one level leaves the others as they are. -/
theorem list_erase_of_ne (files : FileIndex) {key : FileKey} {level : Nat}
    (other : key.level ≠ level) :
    list (files.erase key) level = files.list level := by
  apply list_congr
  intro entry inside
  rw [OrderedMap.getElem?_erase, if_neg]
  rintro rfl
  exact other inside

end FileIndex

/-- In an ascending list the last file starts last. -/
theorem getLast?_of_greatest {files : List LtxFileInfo} {newest : LtxFileInfo}
    (ordered : files.Pairwise fun left right =>
      left.minTxid < right.minTxid ∨
        (left.minTxid = right.minTxid ∧ left.maxTxid < right.maxTxid))
    (member : newest ∈ files)
    (greatest : ∀ file ∈ files, file.minTxid < newest.minTxid ∨
      (file.minTxid = newest.minTxid ∧ file.maxTxid ≤ newest.maxTxid)) :
    files.getLast? = some newest := by
  obtain ⟨before, after, rfl⟩ := List.append_of_mem member
  cases after with
  | nil => simp
  | cons next rest =>
      have tail := (List.pairwise_append.mp ordered).2.1
      have less := (List.pairwise_cons.mp tail).1 next (by simp)
      have bound := greatest next (by simp)
      omega

/-- In an ascending list the first file starts first. -/
theorem head?_min_le {files : List LtxFileInfo} {first : LtxFileInfo}
    (ordered : files.Pairwise fun left right =>
      left.minTxid < right.minTxid ∨
        (left.minTxid = right.minTxid ∧ left.maxTxid < right.maxTxid))
    (isFirst : files.head? = some first) :
    ∀ file ∈ files, first.minTxid ≤ file.minTxid := by
  cases files with
  | nil => cases isFirst
  | cons head rest =>
      cases isFirst
      intro file member
      rcases List.mem_cons.mp member with rfl | later
      · exact Nat.le_refl _
      · have less := (List.pairwise_cons.mp ordered).1 file later
        omega

/-- In an ascending list no file starts after the last one. -/
theorem min_le_getLast? {files : List LtxFileInfo} {last : LtxFileInfo}
    (ordered : files.Pairwise fun left right =>
      left.minTxid < right.minTxid ∨
        (left.minTxid = right.minTxid ∧ left.maxTxid < right.maxTxid))
    (isLast : files.getLast? = some last) :
    ∀ file ∈ files, file.minTxid ≤ last.minTxid := by
  obtain ⟨before, rfl⟩ := List.getLast?_eq_some_iff.mp isLast
  intro file member
  rcases List.mem_append.mp member with earlier | same
  · have less := (List.pairwise_append.mp ordered).2.2 file earlier last
      (by simp)
    omega
  · rw [List.mem_singleton.mp same]

theorem le_maxOf {files : List LtxFileInfo} {file : LtxFileInfo}
    (member : file ∈ files) : file.maxTxid ≤ maxOf files :=
  maxTxid_le_headTxid (List.mem_map_of_mem member)

theorem exists_maxOf (files : List LtxFileInfo) :
    maxOf files = 0 ∨ ∃ file ∈ files, file.maxTxid = maxOf files := by
  rcases exists_headTxid (files.map LtxFileInfo.toFileKey) with
    none_ | ⟨key, member, ends⟩
  · exact .inl none_
  · obtain ⟨file, listed, rfl⟩ := List.mem_map.mp member
    exact .inr ⟨file, listed, ends⟩

end Literstream
