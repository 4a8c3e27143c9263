/- source: none
   digest: Replacement of all occurrences of a word from left to right, over any alphabet. -/

import Mathlib.Data.List.Infix

set_option autoImplicit false

namespace HsmSecretsOperator.Foundation.Replace

variable {α : Type} [DecidableEq α]

/-- The replacement of a word that is not empty; the number counts the letters of an occurrence that
are still to be skipped. -/
def replaceAll (old new : List α) : Nat → List α → List α
  | _, [] => []
  | skip + 1, _ :: s => replaceAll old new skip s
  | 0, c :: s =>
    if old.isPrefixOf (c :: s) then new ++ replaceAll old new (old.length - 1) s
    else c :: replaceAll old new 0 s

/-- The two words share no letter. -/
def Apart (w new : List α) : Prop := ∀ c ∈ w, c ∉ new

section Occurrences

variable {w old new : List α}

private theorem replaceAll_cons {c : α} {s : List α} (h : ¬ old.isPrefixOf (c :: s) = true) :
    replaceAll old new 0 (c :: s) = c :: replaceAll old new 0 s := by
  rw [replaceAll, if_neg h]

omit [DecidableEq α] in
private theorem infix_of_infix_append (hw : w ≠ []) (hnew : Apart w new) {s : List α}
    (h : w <:+: new ++ s) : w <:+: s := by
  obtain ⟨before, after, heq⟩ := h
  rw [List.append_assoc] at heq
  rcases List.append_eq_append_iff.mp heq with ⟨rest, hsplit, hs⟩ | ⟨rest, hsplit, hs⟩
  · cases rest with
    | nil => exact ⟨[], after, by simpa using hs⟩
    | cons c rest =>
      -- the word would begin with a letter of the other one
      obtain ⟨a, w', rfl⟩ := List.exists_cons_of_ne_nil hw
      obtain ⟨rfl, _⟩ := List.cons.inj hs
      exact absurd (by rw [hsplit]; simp) (hnew a List.mem_cons_self)
  · exact ⟨rest, after, by rw [hs, List.append_assoc]⟩

private theorem prefix_of_prefix_replaceAll (hnewne : new ≠ []) (hnew : Apart w new) {s : List α}
    (h : w <+: replaceAll old new 0 s) : w <+: s := by
  induction s generalizing w with
  | nil => simpa [replaceAll] using h
  | cons c s ih =>
    cases w with
    | nil => exact List.nil_prefix
    | cons a w =>
      rw [replaceAll] at h
      split at h
      · obtain ⟨b, new', rfl⟩ := List.exists_cons_of_ne_nil hnewne
        rw [List.cons_append, List.cons_prefix_cons] at h
        exact absurd (h.1 ▸ List.mem_cons_self) (hnew a List.mem_cons_self)
      · rw [List.cons_prefix_cons] at h ⊢
        exact ⟨h.1, ih (fun b hb => hnew b (List.mem_cons_of_mem a hb)) h.2⟩

theorem infix_of_infix_replaceAll (hw : w ≠ []) (hnewne : new ≠ []) (hnew : Apart w new)
    {skip : Nat} {s : List α} (h : w <:+: replaceAll old new skip s) : w <:+: s := by
  induction s generalizing skip with
  | nil => simpa [replaceAll] using h
  | cons c s ih =>
    cases skip with
    | succ skip => exact (ih h).trans (List.suffix_cons c s).isInfix
    | zero =>
      by_cases hhere : old.isPrefixOf (c :: s) = true
      · rw [replaceAll, if_pos hhere] at h
        exact (ih (infix_of_infix_append hw hnew h)).trans (List.suffix_cons c s).isInfix
      · rw [replaceAll_cons hhere] at h
        rcases List.infix_cons_iff.mp h with hfront | hrest
        · rw [← replaceAll_cons hhere] at hfront
          exact (prefix_of_prefix_replaceAll hnewne hnew hfront).isInfix
        · exact (ih hrest).trans (List.suffix_cons c s).isInfix

theorem not_infix_replaceAll (hold : old ≠ []) (hnewne : new ≠ []) (hnew : Apart old new)
    (skip : Nat) (s : List α) : ¬ old <:+: replaceAll old new skip s := by
  induction s generalizing skip with
  | nil => simpa [replaceAll] using hold
  | cons c s ih =>
    cases skip with
    | succ skip => exact ih skip
    | zero =>
      intro h
      by_cases hhere : old.isPrefixOf (c :: s) = true
      · rw [replaceAll, if_pos hhere] at h
        exact ih _ (infix_of_infix_append hold hnew h)
      · rw [replaceAll_cons hhere] at h
        rcases List.infix_cons_iff.mp h with hfront | hrest
        · rw [← replaceAll_cons hhere] at hfront
          have hbefore := prefix_of_prefix_replaceAll hnewne hnew hfront
          exact hhere (List.isPrefixOf_iff_prefix.mpr hbefore)
        · exact ih 0 hrest

end Occurrences

end HsmSecretsOperator.Foundation.Replace
