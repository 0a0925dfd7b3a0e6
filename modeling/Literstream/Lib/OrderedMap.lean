import Std.Data.ExtTreeMap
import Mathlib.Data.List.Basic

/-!
# Ordered maps with lawful keys

The laws of `Std.ExtTreeMap` are stated for an arbitrary comparison.  Here the
comparison decides equality of keys, so lookups after an update read as a
choice on equality, and a filtered key list depends only on which keys pass.
-/

namespace OrderedMap

open Std

variable {κ : Type*} {ν : Type*} {cmp : κ → κ → Ordering}
  [TransCmp cmp] [LawfulEqCmp cmp] [DecidableEq κ]

theorem getElem?_insert (map : ExtTreeMap κ ν cmp) (key other : κ) (value : ν) :
    (map.insert key value)[other]? =
      if other = key then some value else map[other]? := by
  rw [ExtTreeMap.getElem?_insert]
  simp only [LawfulEqCmp.compare_eq_iff_eq, @eq_comm _ key other]

/-- What holds of the new entry and of the old ones holds after an insertion. -/
theorem forall_insert (map : ExtTreeMap κ ν cmp) (key : κ) (value : ν)
    {property : κ → ν → Prop} (own : property key value)
    (others : ∀ other found, map[other]? = some found →
      property other found) :
    ∀ other found, (map.insert key value)[other]? = some found →
      property other found := by
  intro other found held
  rw [getElem?_insert] at held
  split at held
  · rename_i same
    cases held
    rw [same]
    exact own
  · exact others other found held

theorem getElem?_erase (map : ExtTreeMap κ ν cmp) (key other : κ) :
    (map.erase key)[other]? = if other = key then none else map[other]? := by
  rw [ExtTreeMap.getElem?_erase]
  simp only [LawfulEqCmp.compare_eq_iff_eq, @eq_comm _ key other]

omit [LawfulEqCmp cmp] [DecidableEq κ] in
theorem mem_iff_exists (map : ExtTreeMap κ ν cmp) (key : κ) :
    key ∈ map ↔ ∃ value, map[key]? = some value := by
  rw [ExtTreeMap.mem_iff_isSome_getElem?, Option.isSome_iff_exists]

theorem mem_insert (map : ExtTreeMap κ ν cmp) (key other : κ) (value : ν) :
    other ∈ map.insert key value ↔ other = key ∨ other ∈ map := by
  simp only [mem_iff_exists, getElem?_insert]
  split
  · simp [*]
  · simp [*]

theorem mem_erase (map : ExtTreeMap κ ν cmp) (key other : κ) :
    other ∈ map.erase key ↔ other ≠ key ∧ other ∈ map := by
  simp only [mem_iff_exists, getElem?_erase]
  split
  · simp [*]
  · simp [*]

theorem erase_eq_empty (map : ExtTreeMap κ ν cmp) (key : κ)
    (only : ∀ other value, map[other]? = some value → other = key) :
    map.erase key = ∅ := by
  apply ExtTreeMap.ext_getElem?
  intro other
  rw [getElem?_erase, ExtTreeMap.getElem?_empty]
  split
  · rfl
  · rename_i different
    by_contra present
    obtain ⟨value, inside⟩ := Option.ne_none_iff_exists'.mp present
    exact different (only other value inside)

theorem keys_filter_insert_of_not (map : ExtTreeMap κ ν cmp) (key : κ)
    (value : ν) (keep : κ → Bool) (dropped : keep key = false) :
    (map.insert key value).keys.filter keep = map.keys.filter keep := by
  rw [← ExtTreeMap.keys_filter_key, ← ExtTreeMap.keys_filter_key]
  congr 1
  apply ExtTreeMap.ext_getElem?
  intro other
  rw [ExtTreeMap.getElem?_filter', ExtTreeMap.getElem?_filter', getElem?_insert]
  split
  · rename_i same
    subst same
    simp [dropped]
  · rfl

omit [DecidableEq κ] in
theorem keys_filter_eq_singleton (map : ExtTreeMap κ ν cmp) (key : κ)
    (keep : κ → Bool) (member : key ∈ map) (kept : keep key = true)
    (only : ∀ other ∈ map, keep other = true → other = key) :
    map.keys.filter keep = [key] := by
  have nodup : (map.keys.filter keep).Nodup := map.nodup_keys.filter _
  have members : ∀ other, other ∈ map.keys.filter keep ↔ other ∈ [key] := by
    intro other
    simp only [List.mem_filter, ExtTreeMap.mem_keys, List.mem_singleton]
    constructor
    · rintro ⟨inside, passes⟩
      exact only other inside passes
    · rintro rfl
      exact ⟨member, kept⟩
  exact List.perm_singleton.mp
    ((List.perm_ext_iff_of_nodup nodup (by simp)).mpr members)

end OrderedMap
