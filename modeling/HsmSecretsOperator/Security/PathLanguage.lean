/- source: internal/security/validation.go
   digest: ValidateSecretPath on bytes, with its patterns, and the language that it accepts. -/

import HsmSecretsOperator.Foundation.Regexp
import HsmSecretsOperator.Foundation.Runes
import HsmSecretsOperator.Security.Validation

/-! All patterns are over ASCII, so they are matched byte by byte. -/

set_option autoImplicit false

namespace HsmSecretsOperator.Security.PathLanguage

open Foundation.Regexp Foundation.Runes Foundation.Text Foundation.Utf8
open Validation (maxSecretPathLength)

def dot : UInt8 := 0x2e

def slash : UInt8 := 0x2f

/-- `[a-zA-Z0-9_-]` -/
def isSegmentByte (b : UInt8) : Bool :=
  (0x61 ≤ b && b ≤ 0x7a) || (0x41 ≤ b && b ≤ 0x5a) || (0x30 ≤ b && b ≤ 0x39) || b = 0x5f ||
    b = 0x2d

/-- `[a-zA-Z0-9/_-]` -/
def isPathByte (b : UInt8) : Bool := isSegmentByte b || b = slash

/-- `^[a-zA-Z0-9/_-]+$` -/
def validPathPattern : Pattern UInt8 := .seq .start (.seq (.many isPathByte) .stop)

/-- `\.\.`, `//`, `^/`, `/$` and `_metadata$` -/
def forbiddenPatterns : List (Pattern UInt8) :=
  [literal [dot, dot], literal [slash, slash], .seq .start (literal [slash]),
   .seq (literal [slash]) .stop, .seq (literal (utf8 "_metadata")) .stop]

def validateSecretPath (path : Bytes) : Except Bytes Unit :=
  if path = [] then .error (utf8 "secret path cannot be empty")
  else if path.length > maxSecretPathLength then
    .error (utf8 ("secret path too long: " ++ toString path.length ++ " > " ++
      toString maxSecretPathLength))
  else if !matchString validPathPattern path then
    .error (utf8 "secret path contains invalid characters: " ++ path)
  else if forbiddenPatterns.any (fun pattern => matchString pattern path) then
    .error (utf8 "secret path contains forbidden pattern: " ++ path)
  else .ok ()

private theorem validateSecretPath_ok {path : Bytes} : validateSecretPath path = .ok () ↔
    path ≠ [] ∧ path.length ≤ maxSecretPathLength ∧ matchString validPathPattern path = true ∧
      forbiddenPatterns.any (fun pattern => matchString pattern path) = false := by
  unfold validateSecretPath
  by_cases hempty : path = []
  · simp [hempty]
  by_cases hlength : path.length > maxSecretPathLength
  · simp [hempty, hlength, not_le.mpr hlength]
  cases hvalid : matchString validPathPattern path with
  | false => simp [hempty, hlength]
  | true =>
    cases hforbidden : forbiddenPatterns.any fun pattern => matchString pattern path with
    | false => simp [hempty, hlength, not_lt.mp hlength]
    | true => simp [hempty, hlength]

private theorem forbidden_eq_false_iff {path : Bytes} :
    forbiddenPatterns.any (fun pattern => matchString pattern path) = false ↔
      ¬ [dot, dot] <:+: path ∧ ¬ [slash, slash] <:+: path ∧ ¬ [slash] <+: path ∧
        ¬ [slash] <:+ path ∧ ¬ utf8 "_metadata" <:+ path := by
  simp only [forbiddenPatterns, List.any_cons, List.any_nil, Bool.or_false, Bool.or_eq_false_iff]
  simp only [← Bool.not_eq_true, matchString_literal, matchString_start_literal,
    matchString_literal_stop]

def Segment (s : Bytes) : Prop := s ≠ [] ∧ ∀ b ∈ s, isSegmentByte b = true

/-- The path is one segment or several ones joined by single slashes. -/
def Segmented (path : Bytes) : Prop :=
  ∃ segments : List Bytes, segments ≠ [] ∧ (∀ s ∈ segments, Segment s) ∧
    path = List.intercalate [slash] segments

section Segments

variable {α : Type} {sep : α}

/-- A part stands at an end of the whole or next to a separator, on either side. -/
private theorem intercalate_around (sep : α) {part : List α} {parts : List (List α)}
    (h : part ∈ parts) :
    ∃ before after, List.intercalate [sep] parts = before ++ (part ++ after) ∧
      (before = [] ∨ ∃ b, before = b ++ [sep]) ∧ (after = [] ∨ ∃ a, after = sep :: a) := by
  induction parts with
  | nil => exact absurd h List.not_mem_nil
  | cons p parts ih =>
    cases parts with
    | nil =>
      obtain rfl := List.mem_singleton.mp h
      exact ⟨[], [], by simp, .inl rfl, .inl rfl⟩
    | cons q parts =>
      rw [List.intercalate_cons_cons]
      rcases List.mem_cons.mp h with rfl | h
      · refine ⟨[], sep :: List.intercalate [sep] (q :: parts), ?_, .inl rfl, .inr ⟨_, rfl⟩⟩
        simp
      · obtain ⟨before, after, heq, hbefore, hafter⟩ := ih h
        refine ⟨p ++ sep :: before, after, by simp [heq], .inr ?_, hafter⟩
        rcases hbefore with rfl | ⟨b, rfl⟩
        · exact ⟨p, rfl⟩
        · exact ⟨p ++ sep :: b, by simp⟩

private theorem of_mem_intercalate {x : α} {parts : List (List α)}
    (h : x ∈ List.intercalate [sep] parts) : x = sep ∨ ∃ part ∈ parts, x ∈ part := by
  induction parts with
  | nil => simp at h
  | cons p parts ih =>
    cases parts with
    | nil => exact .inr ⟨p, List.mem_cons_self, by simpa using h⟩
    | cons q parts =>
      rw [List.intercalate_cons_cons, List.mem_append, List.mem_append, List.mem_singleton] at h
      rcases h with (h | h) | h
      · exact .inr ⟨p, List.mem_cons_self, h⟩
      · exact .inl h
      · rcases ih h with h | ⟨part, hpart, hx⟩
        · exact .inl h
        · exact .inr ⟨part, List.mem_cons_of_mem p hpart, hx⟩

variable [DecidableEq α]

private theorem not_mem_of_mem_splitOn {s part : List α} (h : part ∈ s.splitOn sep) :
    sep ∉ part := by
  induction s generalizing part with
  | nil =>
    rw [List.splitOn_nil, List.mem_singleton] at h
    simp [h]
  | cons c s ih =>
    rw [List.splitOn_cons_eq_if_modifyHead] at h
    split at h
    · rcases List.mem_cons.mp h with rfl | h
      · exact List.not_mem_nil
      · exact ih h
    next hc =>
      obtain ⟨p, ps, hps⟩ := List.exists_cons_of_ne_nil (List.splitOn_ne_nil sep s)
      rw [hps, List.modifyHead_cons] at h
      have hne : sep ≠ c := fun heq => hc (beq_iff_eq.mpr heq.symm)
      rcases List.mem_cons.mp h with rfl | h
      · have hp : sep ∉ p := ih (hps ▸ List.mem_cons_self)
        simp [hne, hp]
      · exact ih (hps ▸ List.mem_cons_of_mem p h)

private theorem nil_not_mem_splitOn_iff {s : List α} : [] ∉ s.splitOn sep ↔
    s ≠ [] ∧ ¬ [sep, sep] <:+: s ∧ ¬ [sep] <+: s ∧ ¬ [sep] <:+ s := by
  constructor
  · intro h
    refine ⟨?_, ?_, ?_, ?_⟩
    · rintro rfl
      simp at h
    · rintro ⟨a, b, rfl⟩
      rw [List.append_assoc, List.cons_append, List.cons_append, List.nil_append,
        List.splitOn_append_cons_self, List.splitOn_cons_eq_if_modifyHead] at h
      simp at h
    · rintro ⟨a, rfl⟩
      rw [List.singleton_append, List.splitOn_cons_eq_if_modifyHead] at h
      simp at h
    · rintro ⟨a, rfl⟩
      rw [List.splitOn_append_cons_self] at h
      simp at h
  · rintro ⟨hne, hdouble, hfront, hback⟩ hmem
    obtain ⟨before, after, heq, hbefore, hafter⟩ := intercalate_around sep hmem
    rw [List.intercalate_splitOn, List.nil_append] at heq
    rcases hbefore with rfl | ⟨b, rfl⟩ <;> rcases hafter with rfl | ⟨a, rfl⟩
    · exact hne heq
    · exact hfront ⟨a, heq.symm⟩
    · exact hback ⟨b, by rw [heq, List.append_nil]⟩
    · exact hdouble ⟨b, a, by rw [heq]; simp⟩

end Segments

private theorem isPathByte_of_segment {b : UInt8} (h : isSegmentByte b = true) :
    isPathByte b = true := by
  simp [isPathByte, h]

private theorem isSegmentByte_iff {b : UInt8} :
    isSegmentByte b = true ↔ isPathByte b = true ∧ b ≠ slash := by
  constructor
  · intro h
    refine ⟨isPathByte_of_segment h, ?_⟩
    rintro rfl
    exact absurd h (by decide)
  · rintro ⟨h, hne⟩
    simpa [isPathByte, hne] using h

private theorem segmented_iff {path : Bytes} : Segmented path ↔
    (∀ b ∈ path, isPathByte b = true) ∧ [] ∉ path.splitOn slash := by
  constructor
  · rintro ⟨segments, hne, hsegments, rfl⟩
    have hslash : ∀ s ∈ segments, slash ∉ s := fun s hs hmem =>
      (isSegmentByte_iff.mp ((hsegments s hs).2 slash hmem)).2 rfl
    rw [List.splitOn_intercalate slash hslash hne]
    refine ⟨fun b hb => ?_, fun hnil => (hsegments [] hnil).1 rfl⟩
    rcases of_mem_intercalate hb with rfl | ⟨s, hs, hb⟩
    · decide
    · exact isPathByte_of_segment ((hsegments s hs).2 b hb)
  · rintro ⟨hbytes, hparts⟩
    refine ⟨path.splitOn slash, List.splitOn_ne_nil _ _, fun s hs => ⟨?_, fun b hb => ?_⟩,
      (List.intercalate_splitOn slash).symm⟩
    · rintro rfl
      exact hparts hs
    · refine isSegmentByte_iff.mpr ⟨hbytes b ?_, fun heq => not_mem_of_mem_splitOn hs (heq ▸ hb)⟩
      obtain ⟨before, after, heq, _⟩ := intercalate_around slash hs
      rw [List.intercalate_splitOn] at heq
      rw [heq]
      exact List.mem_append_right _ (List.mem_append_left _ hb)

/-- A path is accepted exactly if it has 1 to 256 bytes, is made of segments between single slashes,
and does not end in the reserved suffix. -/
theorem validateSecretPath_ok_iff (path : Bytes) : validateSecretPath path = .ok () ↔
    1 ≤ path.length ∧ path.length ≤ 256 ∧ Segmented path ∧ ¬ utf8 "_metadata" <:+ path := by
  rw [validateSecretPath_ok, forbidden_eq_false_iff, validPathPattern, matchString_whole,
    segmented_iff, nil_not_mem_splitOn_iff, Nat.one_le_iff_ne_zero, ne_eq,
    ← List.length_eq_zero_iff]
  have hdots (h : ∀ b ∈ path, isPathByte b = true) : ¬ [dot, dot] <:+: path := fun hinside =>
    absurd (h dot (hinside.subset List.mem_cons_self)) (by decide)
  constructor
  · rintro ⟨hne, hlength, ⟨_, hbytes⟩, _, hdouble, hfront, hback, hsuffix⟩
    exact ⟨hne, hlength, ⟨hbytes, hne, hdouble, hfront, hback⟩, hsuffix⟩
  · rintro ⟨hne, hlength, ⟨hbytes, _, hdouble, hfront, hback⟩, hsuffix⟩
    exact ⟨hne, hlength, ⟨hne, hbytes⟩, hdots hbytes, hdouble, hfront, hback, hsuffix⟩

private theorem isPathByte_eq (b : UInt8) : isPathByte b = Validation.isPathChar (charOf b) := by
  have hall : ∀ n < 256, isPathByte (UInt8.ofNat n) = Validation.isPathChar (Char.ofNat n) := by
    decide +kernel
  rw [charOf, ← hall b.toNat b.toNat_lt, UInt8.ofNat_toNat]

private theorem ascii_of_isPathChar {c : Char} (h : Validation.isPathChar c = true) :
    c.toNat < 128 := by
  have hle : ∀ d : Char, c ≤ d → c.toNat ≤ d.toNat := fun d hd => hd
  simp only [Validation.isPathChar, Bool.or_eq_true, Bool.and_eq_true, decide_eq_true_eq] at h
  rcases h with ((((h | h) | h) | rfl) | rfl) | rfl
  · exact Nat.lt_of_le_of_lt (hle _ h.2) (by decide)
  · exact Nat.lt_of_le_of_lt (hle _ h.2) (by decide)
  · exact Nat.lt_of_le_of_lt (hle _ h.2) (by decide)
  · decide
  · decide
  · decide

private theorem matchString_validPathPattern (path : String) :
    matchString validPathPattern (utf8 path) = Validation.validPathPattern path := by
  rw [Bool.eq_iff_iff, validPathPattern, matchString_whole, Validation.validPathPattern,
    Bool.and_eq_true, decide_eq_true_eq, List.all_eq_true, ne_eq, utf8_eq_nil_iff]
  simp only [isPathByte_eq]
  rw [forall_charOf_iff fun c => ascii_of_isPathChar, runesText_utf8]

private theorem charOf_injective : Function.Injective charOf := fun a b h =>
  UInt8.toNat_inj.mp (by rw [← toNat_charOf, h, toNat_charOf])

private theorem infix_map_charOf {w s : Bytes} : w.map charOf <:+: s.map charOf ↔ w <:+: s := by
  refine ⟨fun h => ?_, fun h => h.map charOf⟩
  obtain ⟨w', hw', heq⟩ := List.infix_map_iff.mp h
  rwa [List.map_injective_iff.mpr charOf_injective heq]

private theorem toList_eq_map_charOf {path : String}
    (h : Validation.validPathPattern path = true) : path.toList = (utf8 path).map charOf := by
  rw [← matchString_validPathPattern, validPathPattern, matchString_whole] at h
  rw [← runesText_utf8, runesText_of_ascii fun b hb => ?_]
  rw [← toNat_charOf]
  exact ascii_of_isPathChar (isPathByte_eq b ▸ h.2 b hb)

private theorem any_forbiddenPatterns {path : String}
    (h : Validation.validPathPattern path = true) :
    forbiddenPatterns.any (fun pattern => matchString pattern (utf8 path)) =
      Validation.forbiddenPatterns.any fun pattern => pattern path := by
  have hdots : "..".toList = [dot, dot].map charOf := by decide
  have hslashes : "//".toList = [slash, slash].map charOf := by decide
  have hslash : "/".toList = [slash].map charOf := by decide
  have hsuffix : "_metadata".toList = (utf8 "_metadata").map charOf := by decide
  rw [Bool.eq_iff_iff, ← not_iff_not, Bool.not_eq_true, forbidden_eq_false_iff]
  simp only [Validation.forbiddenPatterns, List.any_cons, List.any_nil, Bool.or_false,
    Bool.or_eq_true, decide_eq_true_eq, hasPrefix, hasSuffix, List.isPrefixOf_iff_prefix,
    List.isSuffixOf_iff_suffix, not_or]
  rw [hdots, hslashes, hslash, hsuffix, toList_eq_map_charOf h, infix_map_charOf,
    infix_map_charOf, List.prefix_map_iff_of_injective charOf_injective,
    List.suffix_map_iff_of_injective charOf_injective,
    List.suffix_map_iff_of_injective charOf_injective]

/-- Checking a text is checking its bytes, with the same errors. -/
theorem validateSecretPath_utf8 (path : String) :
    validateSecretPath (utf8 path) = (Validation.validateSecretPath path).mapError utf8 := by
  unfold validateSecretPath Validation.validateSecretPath
  rw [matchString_validPathPattern]
  simp only [utf8_eq_nil_iff, ← utf8_append]
  have hbytes : (utf8 path).length = Validation.byteLength path := rfl
  rw [hbytes]
  by_cases hempty : path = ""
  · rw [if_pos hempty, if_pos hempty]
    rfl
  rw [if_neg hempty, if_neg hempty]
  by_cases hlength : Validation.byteLength path > maxSecretPathLength
  · rw [if_pos hlength, if_pos hlength]
    rfl
  rw [if_neg hlength, if_neg hlength]
  cases hvalid : Validation.validPathPattern path with
  | false => rfl
  | true =>
    rw [any_forbiddenPatterns hvalid]
    cases Validation.forbiddenPatterns.any fun pattern => pattern path with
    | false => rfl
    | true => rfl

end HsmSecretsOperator.Security.PathLanguage
