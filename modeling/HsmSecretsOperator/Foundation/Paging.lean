/- source: none
   digest: One bounded page of an enumeration in no particular order, and removal by its handles. -/

import Mathlib.Data.List.Nodup
import Mathlib.Data.List.Perm.Subperm

set_option autoImplicit false

namespace HsmSecretsOperator.Foundation.Paging

variable {α : Type}

/-- A choice of as many positions of a list as the limit allows, each at most once. -/
structure Page (limit : Nat) (xs : List α) where
  handles : List Nat
  nodup : handles.Nodup
  lt_length : ∀ i ∈ handles, i < xs.length
  length_eq : handles.length = min limit xs.length

namespace Page

variable {limit : Nat} {xs : List α}

/-- The items at the chosen positions, in the order of the page. -/
def items (s : Page limit xs) : List α := s.handles.filterMap fun i => xs[i]?

/-- What is left when the chosen items with a property are removed. -/
def remove (s : Page limit xs) (P : α → Bool) : List α :=
  (xs.zipIdx.filter fun e => !(decide (e.2 ∈ s.handles) && P e.1)).map Prod.fst

/-- The page with the first positions in order. -/
def first (limit : Nat) (xs : List α) : Page limit xs where
  handles := List.range (min limit xs.length)
  nodup := List.nodup_range
  lt_length _ hi := Nat.lt_of_lt_of_le (List.mem_range.mp hi) (Nat.min_le_right _ _)
  length_eq := List.length_range

theorem mem_items {s : Page limit xs} {x : α} :
    x ∈ s.items ↔ ∃ i ∈ s.handles, xs[i]? = some x := List.mem_filterMap

theorem mem_remove {s : Page limit xs} {P : α → Bool} {x : α} :
    x ∈ s.remove P ↔ ∃ i, xs[i]? = some x ∧ (i ∈ s.handles → P x = false) := by
  simp only [remove, List.mem_map, List.mem_filter, Prod.exists, List.mem_zipIdx_iff_getElem?,
    exists_and_right, exists_eq_right]
  refine exists_congr fun i => and_congr_right fun _ => ?_
  by_cases hi : i ∈ s.handles
  · simp [hi]
  · simp [hi]

private theorem filter_fst_zipIdx (Q : α → Bool) :
    (xs.zipIdx.filter fun e => Q e.1).map Prod.fst = xs.filter Q := by
  calc (xs.zipIdx.filter (Q ∘ Prod.fst)).map Prod.fst
      = (xs.zipIdx.map Prod.fst).filter Q := List.filter_map.symm
    _ = xs.filter Q := by rw [List.zipIdx_map_fst]

private theorem filterMap_range (xs : List α) (n : Nat) :
    (List.range n).filterMap (fun i => xs[i]?) = xs.take n := by
  induction n with
  | zero => rfl
  | succ n ih =>
    rw [List.range_succ, List.filterMap_append, ih, List.take_add_one]
    cases hget : xs[n]? with
    | none => simp [hget]
    | some x => simp [hget]

section Whole

variable (h : xs.length ≤ limit)

include h

theorem handles_perm (s : Page limit xs) : s.handles.Perm (List.range xs.length) := by
  have hsub : s.handles ⊆ List.range xs.length := fun i hi => List.mem_range.mpr (s.lt_length i hi)
  refine (List.subperm_of_subset s.nodup hsub).perm_of_length_le (Nat.le_of_eq ?_)
  rw [List.length_range, s.length_eq, Nat.min_eq_right h]

theorem items_perm (s : Page limit xs) : s.items.Perm xs := by
  have hall := filterMap_range xs xs.length
  rw [List.take_length] at hall
  exact ((s.handles_perm h).filterMap _).trans (.of_eq hall)

end Whole

theorem remove_eq_filter {P : α → Bool} (h : xs.length ≤ limit ∨ ∀ x ∈ xs, P x = false)
    (s : Page limit xs) : s.remove P = xs.filter fun x => !P x := by
  rw [← filter_fst_zipIdx, remove]
  congr 1
  refine List.filter_congr fun e he => ?_
  rcases h with hlen | hnone
  · have hi := List.mem_zipIdx_iff_getElem?.mp he
    have hmem : e.2 ∈ s.handles := by
      rw [(s.handles_perm hlen).mem_iff, List.mem_range]
      exact (List.getElem?_eq_some_iff.mp hi).1
    simp [hmem]
  · simp [hnone e.1 (List.fst_mem_of_mem_zipIdx he)]

theorem exists_avoiding {as bs : List α} {x : α} (h : limit < (as ++ x :: bs).length) :
    ∃ s : Page limit (as ++ x :: bs), as.length ∉ s.handles := by
  have hmem : as.length ∈ List.range (as ++ x :: bs).length := by simp
  refine ⟨⟨((List.range (as ++ x :: bs).length).erase as.length).take limit, ?_, ?_, ?_⟩, ?_⟩
  · exact (List.nodup_range.erase _).sublist (List.take_sublist _ _)
  · intro i hi
    exact List.mem_range.mp (List.mem_of_mem_erase (List.mem_of_mem_take hi))
  · rw [List.length_take, List.length_erase_of_mem hmem, List.length_range]
    omega
  · intro hi
    exact List.nodup_range.not_mem_erase (List.mem_of_mem_take hi)

theorem exists_containing {i : Nat} (hlimit : 0 < limit) (hi : i < xs.length) :
    ∃ s : Page limit xs, i ∈ s.handles := by
  have hmem : i ∈ List.range xs.length := List.mem_range.mpr hi
  refine ⟨⟨(i :: (List.range xs.length).erase i).take limit, ?_, ?_, ?_⟩, ?_⟩
  · exact ((List.perm_cons_erase hmem).nodup_iff.mp List.nodup_range).sublist
      (List.take_sublist _ _)
  · intro j hj
    exact List.mem_range.mp ((List.perm_cons_erase hmem).mem_iff.mpr (List.mem_of_mem_take hj))
  · rw [List.length_take, ← (List.perm_cons_erase hmem).length_eq, List.length_range]
  · exact List.mem_take_iff_getElem.mpr ⟨0, Nat.lt_min.mpr ⟨hlimit, by simp⟩, rfl⟩

theorem length_items_le (s : Page limit xs) : s.items.length ≤ limit :=
  Nat.le_trans (List.length_filterMap_le _ _) (s.length_eq ▸ Nat.min_le_left _ _)

theorem mem_of_mem_items {s : Page limit xs} {x : α} (h : x ∈ s.items) : x ∈ xs := by
  obtain ⟨i, _, hi⟩ := mem_items.mp h
  exact List.mem_of_getElem? hi

theorem mem_of_avoiding {as bs : List α} {x y : α} {s : Page limit (as ++ x :: bs)}
    (hs : as.length ∉ s.handles) (hy : y ∈ s.items) : y ∈ as ++ bs := by
  obtain ⟨i, hi, hget⟩ := mem_items.mp hy
  rcases Nat.lt_trichotomy i as.length with hlt | heq | hgt
  · rw [List.getElem?_append_left hlt] at hget
    exact List.mem_append_left _ (List.mem_of_getElem? hget)
  · exact absurd (heq ▸ hi) hs
  · obtain ⟨k, hk⟩ := Nat.exists_eq_add_of_lt hgt
    have hsub : i - as.length = k + 1 := by omega
    rw [List.getElem?_append_right (Nat.le_of_lt hgt), hsub, List.getElem?_cons_succ] at hget
    exact List.mem_append_right _ (List.mem_of_getElem? hget)

end Page

end HsmSecretsOperator.Foundation.Paging
