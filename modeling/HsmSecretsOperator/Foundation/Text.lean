/- source: none
   digest: The string operations of the host language: affixes, trimming and splitting. -/

import Mathlib.Data.List.Infix
import Mathlib.Data.String.Basic

set_option autoImplicit false

namespace HsmSecretsOperator.Foundation.Text

/-- Raw bytes, as stored on a device. -/
abbrev Bytes := List UInt8

/-- The UTF-8 bytes of a text. -/
def utf8 (s : String) : Bytes := s.toUTF8.data.toList

theorem utf8_inj {s t : String} (h : utf8 s = utf8 t) : s = t := by
  apply String.toByteArray_inj.mp
  apply ByteArray.ext
  exact Array.toList_inj.mp h

theorem utf8_ofList (cs : List Char) :
    utf8 (String.ofList cs) = cs.flatMap String.utf8EncodeChar := by
  unfold utf8
  rw [String.toUTF8_eq_toByteArray, String.toByteArray_ofList, List.utf8Encode]
  exact List.toList_data_toByteArray

theorem length_le_length_utf8 (s : String) : s.toList.length ≤ (utf8 s).length := by
  rw [← String.ofList_toList (s := s), utf8_ofList, String.toList_ofList]
  induction s.toList with
  | nil => exact le_rfl
  | cons c cs ih =>
    have hc := List.length_pos_iff.mpr (String.utf8EncodeChar_ne_nil (c := c))
    rw [List.flatMap_cons, List.length_append, List.length_cons]
    omega

def hasPrefix (s p : String) : Bool := p.toList.isPrefixOf s.toList

def hasSuffix (s p : String) : Bool := p.toList.isSuffixOf s.toList

def trimPrefix (s p : String) : String :=
  if hasPrefix s p then String.ofList (s.toList.drop p.toList.length) else s

/-- `strings.Split` at a single character. -/
def splitAt (sep : Char) (s : String) : List String :=
  (s.toList.splitOn sep).map String.ofList

/-- `strings.Join` with a single character. -/
def joinWith (sep : Char) (parts : List String) : String :=
  String.ofList (List.intercalate [sep] (parts.map String.toList))

theorem hasPrefix_iff {s p : String} : hasPrefix s p = true ↔ ∃ r, s = p ++ r := by
  rw [hasPrefix, List.isPrefixOf_iff_prefix]
  constructor
  · rintro ⟨r, hr⟩
    refine ⟨String.ofList r, String.toList_inj.mp ?_⟩
    rw [String.toList_append, String.toList_ofList, hr]
  · rintro ⟨r, rfl⟩
    exact ⟨r.toList, String.toList_append.symm⟩

theorem hasSuffix_iff {s p : String} : hasSuffix s p = true ↔ ∃ r, s = r ++ p := by
  rw [hasSuffix, List.isSuffixOf_iff_suffix]
  constructor
  · rintro ⟨r, hr⟩
    refine ⟨String.ofList r, String.toList_inj.mp ?_⟩
    rw [String.toList_append, String.toList_ofList, hr]
  · rintro ⟨r, rfl⟩
    exact ⟨r.toList, String.toList_append.symm⟩

@[simp] theorem hasPrefix_append (p r : String) : hasPrefix (p ++ r) p = true :=
  hasPrefix_iff.mpr ⟨r, rfl⟩

@[simp] theorem hasPrefix_self (p : String) : hasPrefix p p = true :=
  hasPrefix_iff.mpr ⟨"", by simp⟩

@[simp] theorem hasSuffix_append (r p : String) : hasSuffix (r ++ p) p = true :=
  hasSuffix_iff.mpr ⟨r, rfl⟩

theorem hasPrefix_trans {s p q : String} (h : hasPrefix s p = true) (h' : hasPrefix p q = true) :
    hasPrefix s q = true := by
  obtain ⟨r, rfl⟩ := hasPrefix_iff.mp h
  obtain ⟨r', rfl⟩ := hasPrefix_iff.mp h'
  exact hasPrefix_iff.mpr ⟨r' ++ r, by simp [String.append_assoc]⟩

theorem hasPrefix_or_hasPrefix {s p q : String} (h : hasPrefix s p = true)
    (h' : hasPrefix s q = true) : hasPrefix p q = true ∨ hasPrefix q p = true := by
  simp only [hasPrefix, List.isPrefixOf_iff_prefix] at h h' ⊢
  exact (List.prefix_or_prefix_of_prefix h h').symm

@[simp] theorem trimPrefix_append (p r : String) : trimPrefix (p ++ r) p = r := by
  simp [trimPrefix, String.toList_append]

theorem hasSuffix_of_separated {c : Char} {s k w : String} (hw : c ∉ w.toList)
    (h : hasSuffix (s ++ (String.singleton c ++ k)) (String.singleton c ++ w) = true) :
    hasSuffix k w = true := by
  simp only [hasSuffix, List.isSuffixOf_iff_suffix, String.toList_append,
    String.toList_singleton] at h ⊢
  obtain ⟨x, hx⟩ := h
  have hx' : x ++ ([c] ++ w.toList) = (s.toList ++ [c]) ++ k.toList := by simpa using hx
  rcases List.append_eq_append_iff.mp hx' with ⟨as, has, hk⟩ | ⟨bs, hbs, hk⟩
  · cases as with
    | nil => exact ⟨[c], by simpa using hk⟩
    | cons a as =>
      -- The separator would have to stand inside the word.
      obtain ⟨rfl, hword⟩ : c = a ∧ w.toList = as ++ k.toList := by simpa using hk
      rcases List.eq_nil_or_concat as with rfl | ⟨as', b, rfl⟩
      · exact ⟨[], by simpa using hword⟩
      · have hlast : s.toList ++ [c] = (x ++ c :: as') ++ [b] := by simpa using has
        obtain rfl : c = b := by simpa using (List.append_inj' hlast rfl).2
        exact absurd (by rw [hword]; simp) hw
  · exact ⟨bs ++ [c], by simp [hk]⟩

theorem splitAt_append {c : Char} {p k : String} (hk : c ∉ k.toList) :
    splitAt c (p ++ (String.singleton c ++ k)) = splitAt c p ++ [k] := by
  simp [splitAt, String.toList_append, List.splitOn_append_cons_self, List.splitOn_eq_singleton hk]

theorem splitAt_ne_nil (c : Char) (s : String) : splitAt c s ≠ [] := by
  simp [splitAt, List.splitOn_ne_nil]

theorem splitAt_append_separator (c : Char) (p r : String) :
    splitAt c (p ++ (String.singleton c ++ r)) = splitAt c p ++ splitAt c r := by
  simp [splitAt, String.toList_append, List.splitOn_append_cons_self]

theorem joinWith_splitAt (c : Char) (s : String) : joinWith c (splitAt c s) = s := by
  simp [joinWith, splitAt, Function.comp_def, List.intercalate_splitOn]

theorem joinWith_concat {c : Char} {parts : List String} (h : parts ≠ []) (k : String) :
    joinWith c (parts ++ [k]) = joinWith c parts ++ (String.singleton c ++ k) := by
  apply String.toList_inj.mp
  simp only [joinWith, String.toList_append, String.toList_ofList, String.toList_singleton,
    List.map_append, List.map_cons, List.map_nil]
  induction parts with
  | nil => exact absurd rfl h
  | cons a parts ih =>
    cases parts with
    | nil => simp [List.intercalate]
    | cons b parts =>
      have := ih (by simp)
      simp only [List.map_cons, List.cons_append, List.intercalate, List.intersperse_cons_cons,
        List.flatten_cons, List.append_assoc] at this ⊢
      rw [this]

theorem hasSuffix_separated_iff {c : Char} {w : String} (hw : c ∉ w.toList) (s : String) :
    hasSuffix s (String.singleton c ++ w) = true ↔
      ∃ init, init ≠ [] ∧ splitAt c s = init ++ [w] := by
  rw [hasSuffix_iff]
  constructor
  · rintro ⟨r, rfl⟩
    exact ⟨splitAt c r, splitAt_ne_nil c r, splitAt_append hw⟩
  · rintro ⟨init, hne, hparts⟩
    refine ⟨joinWith c init, ?_⟩
    rw [← joinWith_concat hne, ← hparts, joinWith_splitAt]

end HsmSecretsOperator.Foundation.Text
