/- source: none
   digest: Patterns with anchors, classes and repetition, and the search for a match. -/

import Mathlib.Data.List.Infix

set_option autoImplicit false

namespace HsmSecretsOperator.Foundation.Regexp

variable {α : Type}

inductive Pattern (α : Type) where
  | empty
  /-- `^` -/
  | start
  /-- `$` -/
  | stop
  /-- A character of a class. -/
  | one (p : α → Bool)
  /-- `+` after a class. -/
  | many (p : α → Bool)
  | seq (first second : Pattern α)

/-- A word, letter by letter. -/
def literal [DecidableEq α] (w : List α) : Pattern α :=
  w.foldr (fun c r => .seq (.one fun x => x = c) r) .empty

def manyEnds (p : α → Bool) : List α → List (List α)
  | [] => []
  | c :: s => if p c then s :: manyEnds p s else []

/-- What is left after each match at the front of a text, which may be the start of the whole. -/
def ends : Pattern α → Bool → List α → List (List α)
  | .empty, _, s => [s]
  | .start, atStart, s => if atStart then [s] else []
  | .stop, _, s => if s.isEmpty then [s] else []
  | .one _, _, [] => []
  | .one p, _, c :: s => if p c then [s] else []
  | .many p, _, s => manyEnds p s
  | .seq first second, atStart, s =>
    (ends first atStart s).flatMap fun rest => ends second (atStart && rest.length == s.length) rest

/-- The search from a place on. -/
def search (r : Pattern α) : Bool → List α → Bool
  | atStart, [] => !(ends r atStart []).isEmpty
  | atStart, c :: s => !(ends r atStart (c :: s)).isEmpty || search r false s

def matchString (r : Pattern α) (s : List α) : Bool := search r true s

private theorem search_false_iff (r : Pattern α) (s : List α) :
    search r false s = true ↔ ∃ a t, s = a ++ t ∧ ends r false t ≠ [] := by
  induction s with
  | nil =>
    rw [search, Bool.not_eq_true', List.isEmpty_eq_false_iff]
    constructor
    · exact fun h => ⟨[], [], rfl, h⟩
    · rintro ⟨a, t, hs, h⟩
      obtain ⟨rfl, rfl⟩ := List.append_eq_nil_iff.mp hs.symm
      exact h
  | cons c s ih =>
    rw [search, Bool.or_eq_true, Bool.not_eq_true', List.isEmpty_eq_false_iff, ih]
    constructor
    · rintro (h | ⟨a, t, rfl, h⟩)
      · exact ⟨[], c :: s, rfl, h⟩
      · exact ⟨c :: a, t, rfl, h⟩
    · rintro ⟨a, t, hs, h⟩
      cases a with
      | nil => exact .inl (hs ▸ h)
      | cons b a => exact .inr ⟨a, t, (List.cons.inj hs).2, h⟩

theorem matchString_iff (r : Pattern α) (s : List α) : matchString r s = true ↔
    ends r true s ≠ [] ∨ ∃ c a t, s = c :: (a ++ t) ∧ ends r false t ≠ [] := by
  unfold matchString
  cases s with
  | nil =>
    rw [search, Bool.not_eq_true', List.isEmpty_eq_false_iff]
    refine ⟨.inl, ?_⟩
    rintro (h | ⟨c, a, t, h, _⟩)
    · exact h
    · cases h
  | cons c s =>
    rw [search, Bool.or_eq_true, Bool.not_eq_true', List.isEmpty_eq_false_iff, search_false_iff]
    refine or_congr_right ⟨?_, ?_⟩
    · rintro ⟨a, t, rfl, h⟩
      exact ⟨c, a, t, rfl, h⟩
    · rintro ⟨b, a, t, hs, h⟩
      exact ⟨a, t, (List.cons.inj hs).2, h⟩

section Words

variable [DecidableEq α]

theorem ends_literal (w : List α) (atStart : Bool) (s : List α) :
    ends (literal w) atStart s = if w <+: s then [s.drop w.length] else [] := by
  induction w generalizing atStart s with
  | nil => simp [literal, ends]
  | cons c w ih =>
    have hunfold : ends (literal (c :: w)) atStart s =
        (ends (.one fun x => x = c) atStart s).flatMap fun rest =>
          ends (literal w) (atStart && rest.length == s.length) rest := rfl
    rw [hunfold]
    cases s with
    | nil => simp [ends]
    | cons b s =>
      rw [ends]
      by_cases hb : b = c
      · simp [hb, ih, List.cons_prefix_cons]
      · simp [hb, List.cons_prefix_cons, Ne.symm hb]

theorem ends_literal_ne_nil {w : List α} {atStart : Bool} {s : List α} :
    ends (literal w) atStart s ≠ [] ↔ w <+: s := by
  rw [ends_literal]
  by_cases h : w <+: s <;> simp [h]

theorem matchString_literal {w s : List α} : matchString (literal w) s = true ↔ w <:+: s := by
  rw [matchString_iff]
  simp only [ends_literal_ne_nil]
  constructor
  · rintro (h | ⟨c, a, t, rfl, h⟩)
    · exact h.isInfix
    · exact h.isInfix.trans ⟨c :: a, [], by simp⟩
  · rintro ⟨a, b, rfl⟩
    cases a with
    | nil => exact .inl ⟨b, rfl⟩
    | cons c a => exact .inr ⟨c, a, w ++ b, by simp, ⟨b, rfl⟩⟩

theorem matchString_start_literal {w s : List α} :
    matchString (.seq .start (literal w)) s = true ↔ w <+: s := by
  have hstart (s : List α) : ends (.seq .start (literal w)) true s =
      ends (literal w) true s := by
    simp [ends]
  have hlater (s : List α) : ends (.seq .start (literal w)) false s = [] := rfl
  rw [matchString_iff]
  simp only [hstart, hlater, ends_literal_ne_nil, ne_eq, not_true_eq_false, and_false,
    exists_false, or_false]

private theorem ends_literal_stop {w : List α} {atStart : Bool} {s : List α} :
    ends (.seq (literal w) .stop) atStart s ≠ [] ↔ s = w := by
  rw [ends, ends_literal]
  by_cases h : w <+: s
  · obtain ⟨t, rfl⟩ := h
    cases t <;> simp [ends]
  · rw [if_neg h]
    simp only [List.flatMap_nil, ne_eq, not_true_eq_false, false_iff]
    rintro rfl
    exact h (List.prefix_refl s)

theorem matchString_literal_stop {w s : List α} :
    matchString (.seq (literal w) .stop) s = true ↔ w <:+ s := by
  rw [matchString_iff]
  simp only [ends_literal_stop]
  constructor
  · rintro (rfl | ⟨c, a, t, rfl, rfl⟩)
    · exact List.suffix_refl s
    · exact ⟨c :: a, rfl⟩
  · rintro ⟨a, rfl⟩
    cases a with
    | nil => exact .inl rfl
    | cons c a => exact .inr ⟨c, a, w, rfl, rfl⟩

end Words

private theorem nil_mem_manyEnds {p : α → Bool} {s : List α} :
    [] ∈ manyEnds p s ↔ s ≠ [] ∧ ∀ c ∈ s, p c = true := by
  induction s with
  | nil => simp [manyEnds]
  | cons c s ih =>
    rw [manyEnds]
    by_cases hc : p c = true
    · rw [if_pos hc, List.mem_cons, ih]
      cases s with
      | nil => simp [hc]
      | cons b s => simp [hc]
    · simp [hc]

theorem matchString_whole {p : α → Bool} {s : List α} :
    matchString (.seq .start (.seq (.many p) .stop)) s = true ↔
      s ≠ [] ∧ ∀ c ∈ s, p c = true := by
  have hlater (s : List α) : ends (.seq .start (.seq (.many p) .stop)) false s = [] := rfl
  have hstart : ends (.seq .start (.seq (.many p) .stop)) true s ≠ [] ↔ [] ∈ manyEnds p s := by
    simp [ends, List.flatMap_eq_nil_iff]
  rw [matchString_iff, hstart, nil_mem_manyEnds]
  simp only [hlater, ne_eq, not_true_eq_false, and_false, exists_false, or_false]

end HsmSecretsOperator.Foundation.Regexp
