/- source: none
   digest: The names and label values that a Kubernetes API server admits, and trimming of texts. -/

import Mathlib.Data.List.Chain
import Mathlib.Data.List.DropRight
import Mathlib.Data.List.GetD

set_option autoImplicit false

namespace HsmSecretsOperator.Foundation.ObjectNames

section Trim

variable {α : Type} (p : α → Bool)

def trim (l : List α) : List α := (l.dropWhile p).rdropWhile p

variable {p} {l : List α} {x : α}

theorem eq_false_of_getLast?_rdropWhile (h : x ∈ (l.rdropWhile p).getLast?) : p x = false := by
  have hne : l.rdropWhile p ≠ [] := by
    rintro hnil
    rw [hnil] at h
    cases h
  rw [List.getLast?_eq_some_getLast hne] at h
  obtain rfl := Option.some.inj h
  exact Bool.eq_false_iff.mpr (List.rdropWhile_last_not p l hne)

theorem isInfix_trim : trim p l <:+: l :=
  (List.rdropWhile_prefix p _).isInfix.trans (List.dropWhile_suffix p).isInfix

theorem eq_false_of_head?_trim (h : x ∈ (trim p l).head?) : p x = false := by
  have hhead : x ∈ (l.dropWhile p).head? := by
    obtain ⟨rest, hrest⟩ := List.rdropWhile_prefix p (l.dropWhile p)
    have hfirst : (trim p l).head? = some x := h
    rw [← hrest, List.head?_append, ← trim, hfirst]
    rfl
  have hnot := List.head?_dropWhile_not p l
  rw [hhead] at hnot
  exact hnot

theorem eq_false_of_getLast?_trim (h : x ∈ (trim p l).getLast?) : p x = false :=
  eq_false_of_getLast?_rdropWhile h

theorem trim_eq_self (hhead : ∀ x ∈ l.head?, p x = false) (hlast : ∀ x ∈ l.getLast?, p x = false) :
    trim p l = l := by
  have hfront : l.dropWhile p = l := by
    refine List.dropWhile_eq_self_iff.mpr fun hl => Bool.eq_false_iff.mp (hhead _ ?_)
    exact List.head?_eq_some_head (List.length_pos_iff.mp hl) ▸ List.head_eq_getElem _ ▸ rfl
  rw [trim, hfront]
  refine List.rdropWhile_eq_self_iff.mpr fun hl => Bool.eq_false_iff.mp (hlast _ ?_)
  exact List.getLast?_eq_some_getLast hl

theorem map_trim {β : Type} (q : β → Bool) (f : α → β) (l : List α) :
    (trim (fun x => q (f x)) l).map f = trim q (l.map f) := by
  rw [trim, trim, List.rdropWhile, List.rdropWhile, List.dropWhile_map, ← List.map_reverse,
    List.dropWhile_map, List.map_reverse]
  rfl

end Trim

section Padding

variable {α : Type} [DecidableEq α] {x : α}

theorem getD_rdropWhile (l : List α) (i : Nat) :
    (l.rdropWhile (· = x)).getD i x = l.getD i x := by
  induction l using List.reverseRecOn with
  | nil => rfl
  | append_singleton l y ih =>
    rw [List.rdropWhile_concat]
    split
    next hy =>
      rw [ih, of_decide_eq_true hy]
      simp only [List.getD_eq_getElem?_getD, List.getElem?_append, List.getElem?_singleton]
      by_cases hi : i < l.length
      · rw [if_pos hi]
      · rw [if_neg hi, List.getElem?_eq_none (Nat.le_of_not_lt hi)]
        split
        · rfl
        · rfl
    next => rfl

private theorem length_rdropWhile_le {l l' : List α}
    (h : ∀ i, (l.rdropWhile (· = x)).getD i x = (l'.rdropWhile (· = x)).getD i x) :
    (l'.rdropWhile (· = x)).length ≤ (l.rdropWhile (· = x)).length := by
  by_contra hlt
  have hne : l'.rdropWhile (· = x) ≠ [] := by
    intro hnil
    rw [hnil] at hlt
    exact hlt (Nat.zero_le _)
  -- The last element of the longer one would be padding.
  have hlast := h ((l'.rdropWhile (· = x)).length - 1)
  have hpad := List.rdropWhile_last_not (· = x) l' hne
  rw [List.getLast_eq_getElem] at hpad
  rw [List.getD_eq_default _ _ (by omega), List.getD_eq_getElem _ _ (by omega)] at hlast
  exact hpad (decide_eq_true hlast.symm)

theorem rdropWhile_eq_iff {l l' : List α} :
    l.rdropWhile (· = x) = l'.rdropWhile (· = x) ↔ ∀ i, l.getD i x = l'.getD i x := by
  constructor
  · intro h i
    rw [← getD_rdropWhile l, h, getD_rdropWhile]
  · intro h
    have hpadded : ∀ i, (l.rdropWhile (· = x)).getD i x = (l'.rdropWhile (· = x)).getD i x := by
      intro i
      rw [getD_rdropWhile, getD_rdropWhile, h i]
    have hlength := Nat.le_antisymm (length_rdropWhile_le fun i => (hpadded i).symm)
      (length_rdropWhile_le hpadded)
    refine List.ext_getElem hlength fun i hi hi' => ?_
    have hsame := hpadded i
    rw [List.getD_eq_getElem _ _ hi, List.getD_eq_getElem _ _ hi'] at hsame
    exact hsame

theorem rdropWhile_take_eq_iff {l l' : List α} {n : Nat} :
    (l.take n).rdropWhile (· = x) = (l'.take n).rdropWhile (· = x) ↔
      ∀ i < n, l.getD i x = l'.getD i x := by
  have htake (l : List α) (i : Nat) : (l.take n).getD i x = if i < n then l.getD i x else x := by
    simp only [List.getD_eq_getElem?_getD, List.getElem?_take]
    split
    · rfl
    · rfl
  rw [rdropWhile_eq_iff]
  constructor
  · intro h i hi
    have hsame := h i
    rw [htake, htake, if_pos hi, if_pos hi] at hsame
    exact hsame
  · intro h i
    rw [htake, htake]
    split
    next hi => exact h i hi
    next => rfl

end Padding

def isLowerAlphanumeric (c : Char) : Bool := ('a' ≤ c && c ≤ 'z') || ('0' ≤ c && c ≤ '9')

def isAlphanumeric (c : Char) : Bool := ('A' ≤ c && c ≤ 'Z') || isLowerAlphanumeric c

def isSubdomainChar (c : Char) : Bool := isLowerAlphanumeric c || c = '-' || c = '.'

def isLabelChar (c : Char) : Bool := isAlphanumeric c || c = '-' || c = '_' || c = '.'

/-- A text of inner characters that has outer ones at its ends. -/
structure Enclosed (inner outer : Char → Bool) (cs : List Char) : Prop where
  all : ∀ c ∈ cs, inner c = true
  head : ∀ c ∈ cs.head?, outer c = true
  last : ∀ c ∈ cs.getLast?, outer c = true

theorem enclosed_iff {inner outer : Char → Bool} {cs : List Char} : Enclosed inner outer cs ↔
    cs.all inner = true ∧ cs.head?.all outer = true ∧ cs.getLast?.all outer = true := by
  rw [List.all_eq_true, Option.all_eq_true, Option.all_eq_true]
  constructor
  · intro h
    exact ⟨h.all, h.head, h.last⟩
  · rintro ⟨hall, hhead, hlast⟩
    exact ⟨hall, hhead, hlast⟩

instance (inner outer : Char → Bool) (cs : List Char) : Decidable (Enclosed inner outer cs) :=
  decidable_of_iff _ enclosed_iff.symm

/-- Neighbours in a subdomain: a part between dots starts and ends with a letter or digit. -/
def Adjacent (a b : Char) : Prop :=
  (a = '.' → isLowerAlphanumeric b = true) ∧ (b = '.' → isLowerAlphanumeric a = true)

instance : DecidableRel Adjacent := fun a b =>
  inferInstanceAs (Decidable ((a = '.' → _) ∧ (b = '.' → _)))

/-- A DNS-1123 subdomain. -/
structure Subdomain (name : String) : Prop where
  nonempty : name.toList ≠ []
  length : name.toList.length ≤ 253
  enclosed : Enclosed isSubdomainChar isLowerAlphanumeric name.toList
  dots : name.toList.IsChain Adjacent

instance (name : String) : Decidable (Subdomain name) :=
  decidable_of_iff (name.toList ≠ [] ∧ name.toList.length ≤ 253 ∧
      Enclosed isSubdomainChar isLowerAlphanumeric name.toList ∧ name.toList.IsChain Adjacent)
    ⟨fun h => ⟨h.1, h.2.1, h.2.2.1, h.2.2.2⟩,
      fun h => ⟨h.nonempty, h.length, h.enclosed, h.dots⟩⟩

structure LabelValue (value : String) : Prop where
  length : value.toList.length ≤ 63
  enclosed : Enclosed isLabelChar isAlphanumeric value.toList

instance (value : String) : Decidable (LabelValue value) :=
  decidable_of_iff (value.toList.length ≤ 63 ∧ Enclosed isLabelChar isAlphanumeric value.toList)
    ⟨fun h => ⟨h.1, h.2⟩, fun h => ⟨h.length, h.enclosed⟩⟩

theorem isAlphanumeric_of_lower {c : Char} (h : isLowerAlphanumeric c = true) :
    isAlphanumeric c = true := by
  rw [isAlphanumeric, h, Bool.or_true]

theorem isLabelChar_of_subdomain {c : Char} (h : isSubdomainChar c = true) :
    isLabelChar c = true := by
  simp only [isSubdomainChar, Bool.or_eq_true, decide_eq_true_eq] at h
  simp only [isLabelChar, Bool.or_eq_true, decide_eq_true_eq]
  rcases h with (h | h) | h
  · exact .inl (.inl (.inl (isAlphanumeric_of_lower h)))
  · exact .inl (.inl (.inr h))
  · exact .inr h

theorem Subdomain.labelValue_iff {name : String} (h : Subdomain name) :
    LabelValue name ↔ name.toList.length ≤ 63 := by
  constructor
  · exact LabelValue.length
  · intro hlength
    exact ⟨hlength, fun c hc => isLabelChar_of_subdomain (h.enclosed.all c hc),
      fun c hc => isAlphanumeric_of_lower (h.enclosed.head c hc),
      fun c hc => isAlphanumeric_of_lower (h.enclosed.last c hc)⟩

theorem not_isLowerAlphanumeric_dash : ¬ isLowerAlphanumeric '-' = true := by decide

theorem getLast?_rdropWhile_dash {cs : List Char} (h : cs.IsChain Adjacent) :
    (cs.rdropWhile (· = '-')).getLast? = some '.' ↔ cs.getLast? = some '.' := by
  induction cs using List.reverseRecOn with
  | nil => rfl
  | append_singleton cs c ih =>
    rw [List.rdropWhile_concat]
    split
    next hc =>
      obtain ⟨hcs, -, hjoin⟩ := List.isChain_append.mp h
      rw [ih hcs, List.getLast?_append, of_decide_eq_true hc]
      refine iff_of_false (fun hdot => ?_) (by simp)
      have hadjacent := (hjoin '.' hdot c (by simp)).1 rfl
      rw [of_decide_eq_true hc] at hadjacent
      exact not_isLowerAlphanumeric_dash hadjacent
    next => rfl

end HsmSecretsOperator.Foundation.ObjectNames
