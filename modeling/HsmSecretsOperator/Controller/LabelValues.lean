/- source: internal/controller/hsmpool_agent_controller.go,
     internal/controller/hsmsecret_controller.go
   digest: On bytes, which label values are valid, and that sanitising makes exactly those. -/

import HsmSecretsOperator.Controller.SecretObjects
import HsmSecretsOperator.Foundation.Runes
import HsmSecretsOperator.Pool.AgentNames

set_option autoImplicit false

namespace HsmSecretsOperator.Controller.LabelValues

open Foundation.ObjectNames Foundation.Runes Foundation.Text Pool.AgentNames
open SecretObjects (isAlphaNumeric)

def sanitizeLabelValue (value : Bytes) : Bytes :=
  if value.length = 0 then value
  else
    let sanitized := trimFunc isTrimmed (mapRunes sanitizeLabelChar value)
    if sanitized.length > 63 then trimFunc isTrimmed (sanitized.take 63) else sanitized

def isAllowedSymbol (c : Char) : Bool := c = '-' || c = '_' || c = '.'

def isValidKubernetesLabelValue (value : Bytes) : Bool :=
  if value.length > 63 then false
  else if value.length = 0 then true
  else
    (runes value).all fun r =>
      (isAlphaNumeric r.char || isAllowedSymbol r.char) &&
        (!(r.index = 0 || r.index = value.length - 1) || isAlphaNumeric r.char)

theorem isAlphaNumeric_eq : isAlphaNumeric = isAlphanumeric := by
  funext c
  rw [isAlphaNumeric, isAlphanumeric, isLowerAlphanumeric, Bool.or_assoc, Bool.or_left_comm]

theorem ascii_of_isLabelChar {c : Char} (h : isLabelChar c = true) : c.toNat < 128 := by
  have hle {d : Char} (hc : c ≤ d) (hd : d.toNat < 128) : c.toNat < 128 :=
    lt_of_le_of_lt (UInt32.le_iff_toNat_le.mp (Char.le_def.mp hc)) hd
  simp only [isLabelChar, isAlphanumeric, isLowerAlphanumeric, Bool.or_eq_true, Bool.and_eq_true,
    decide_eq_true_eq] at h
  rcases h with (((⟨-, h⟩ | ⟨-, h⟩ | ⟨-, h⟩) | rfl) | rfl) | rfl
  · exact hle h (by decide)
  · exact hle h (by decide)
  · exact hle h (by decide)
  · decide
  · decide
  · decide

theorem sanitizeLabelChar_of_isLabelChar {c : Char} (h : isLabelChar c = true) :
    sanitizeLabelChar c = c := by
  refine if_pos ?_
  simp only [isLabelChar, isAlphanumeric, isLowerAlphanumeric, Bool.or_eq_true, Bool.and_eq_true,
    decide_eq_true_eq] at h
  tauto

section Values

variable {value : Bytes}

private theorem ascii_of_enclosed (h : Enclosed isLabelChar isAlphanumeric (value.map charOf)) :
    ∀ b ∈ value, b.toNat < 128 := fun b hb =>
  toNat_charOf b ▸ ascii_of_isLabelChar (h.all _ (List.mem_map_of_mem hb))

private theorem ascii_of_runesText (h : ∀ c ∈ runesText value, isLabelChar c = true) :
    ∀ b ∈ value, b.toNat < 128 :=
  ascii_of_runes fun r hr => ascii_of_isLabelChar (h r.char (List.mem_map_of_mem hr))

private theorem enclosed_runesText : Enclosed isLabelChar isAlphanumeric (runesText value) ↔
    Enclosed isLabelChar isAlphanumeric (value.map charOf) := by
  constructor
  · intro h
    rwa [← runesText_of_ascii (ascii_of_runesText h.all)]
  · intro h
    rwa [runesText_of_ascii (ascii_of_enclosed h)]

private theorem rounds_iff :
    (∀ e ∈ value.zipIdx, isLabelChar (charOf e.1) = true ∧
      (e.2 = 0 ∨ e.2 = value.length - 1 → isAlphanumeric (charOf e.1) = true)) ↔
    Enclosed isLabelChar isAlphanumeric (value.map charOf) := by
  constructor
  · intro h
    have hat {i : Nat} {b : UInt8} (hi : value[i]? = some b) :=
      h (b, i) (List.mem_zipIdx_iff_getElem?.mpr hi)
    refine ⟨List.forall_mem_map.mpr fun b hb => ?_, fun c hc => ?_, fun c hc => ?_⟩
    · obtain ⟨i, hi⟩ := List.mem_iff_getElem?.mp hb
      exact (hat hi).1
    · rw [List.head?_map, List.head?_eq_getElem?] at hc
      obtain ⟨b, hb, rfl⟩ := Option.map_eq_some_iff.mp hc
      exact (hat hb).2 (.inl rfl)
    · rw [List.getLast?_map, List.getLast?_eq_getElem?] at hc
      obtain ⟨b, hb, rfl⟩ := Option.map_eq_some_iff.mp hc
      exact (hat hb).2 (.inr rfl)
  · rintro h ⟨b, i⟩ he
    have hi := List.mem_zipIdx_iff_getElem?.mp he
    refine ⟨h.all _ (List.mem_map_of_mem (List.mem_of_getElem? hi)), ?_⟩
    rintro (rfl | rfl)
    · exact h.head _ (by rw [List.head?_map, List.head?_eq_getElem?, hi]; rfl)
    · exact h.last _ (by rw [List.getLast?_map, List.getLast?_eq_getElem?, hi]; rfl)

theorem isValidKubernetesLabelValue_iff : isValidKubernetesLabelValue value = true ↔
    value.length ≤ 63 ∧ Enclosed isLabelChar isAlphanumeric (value.map charOf) := by
  have hchar (c : Char) : (isAlphanumeric c || isAllowedSymbol c) = isLabelChar c := by
    rw [isAllowedSymbol, isLabelChar, ← Bool.or_assoc, ← Bool.or_assoc]
  unfold isValidKubernetesLabelValue
  split
  next hlong => simp [not_le.mpr hlong]
  next hshort =>
  rw [and_iff_right (not_lt.mp hshort)]
  split
  next hnil =>
    obtain rfl := List.length_eq_zero_iff.mp hnil
    simp [enclosed_iff]
  next =>
  simp only [isAlphaNumeric_eq, hchar, List.all_eq_true, Bool.and_eq_true]
  by_cases hascii : ∀ b ∈ value, b.toNat < 128
  · rw [runes_of_ascii hascii, List.forall_mem_map, ← rounds_iff]
    simp [imp_iff_not_or]
  · -- a character that is not ASCII fails the test, and a byte of it is in no label
    constructor
    · intro h
      exact absurd (ascii_of_runesText (List.forall_mem_map.mpr fun r hr => (h r hr).1)) hascii
    · intro h
      exact absurd (ascii_of_enclosed h) hascii

theorem isValidKubernetesLabelValue_utf8 (text : String) :
    isValidKubernetesLabelValue (utf8 text) = SecretObjects.isValidKubernetesLabelValue text := by
  have hchars : (fun c => isAlphanumeric c || decide (c = '-') || decide (c = '_') ||
      decide (c = '.')) = isLabelChar := rfl
  rw [Bool.eq_iff_iff, isValidKubernetesLabelValue_iff, ← enclosed_runesText, runesText_utf8,
    enclosed_iff, SecretObjects.isValidKubernetesLabelValue, SecretObjects.isLabelText,
    isAlphaNumeric_eq, hchars]
  simp only [Bool.and_eq_true, decide_eq_true_eq, and_assoc]
  rfl

private theorem map_trimFunc {s : Bytes} {cs : List Char} (hs : ∀ b ∈ s, b.toNat < 128)
    (h : s.map charOf = cs) : (∀ b ∈ trimFunc isTrimmed s, b.toNat < 128) ∧
      (trimFunc isTrimmed s).map charOf = trim isTrimmed cs := by
  rw [trimFunc_of_ascii hs, map_trim, h]
  exact ⟨fun b hb => hs b (isInfix_trim.subset hb), rfl⟩

theorem sanitizeLabelValue_eq (value : Bytes) : sanitizeLabelValue value =
    utf8 (Pool.AgentNames.sanitizeLabelValue (String.ofList (runesText value))) := by
  cases value with
  | nil => decide
  | cons b bs =>
  have hne : String.ofList (runesText (b :: bs)) ≠ "" := fun h => by
    simpa [runesText, runes, runesFrom] using String.ofList_eq_empty_iff.mp h
  obtain ⟨hascii, hmap⟩ := mapRunes_of_ascii
    (fun c => ascii_of_isLabelChar (isLabelChar_sanitizeLabelChar c)) (b :: bs)
  obtain ⟨hkept, htrim⟩ := map_trimFunc hascii hmap
  simp only [sanitizeLabelValue, Pool.AgentNames.sanitizeLabelValue, if_neg hne,
    if_neg (List.length_eq_zero_iff.not.mpr (List.cons_ne_nil b bs)), String.toList_ofList,
    ← htrim, List.length_map, ← List.map_take]
  split
  next =>
    obtain ⟨hcut, htrim⟩ := map_trimFunc (fun b hb => hkept b (List.mem_of_mem_take hb)) rfl
    rw [← htrim, utf8_map_charOf hcut]
  next => rw [utf8_map_charOf hkept]

theorem isValidKubernetesLabelValue_sanitizeLabelValue (value : Bytes) :
    isValidKubernetesLabelValue (sanitizeLabelValue value) = true := by
  obtain ⟨hlength, henclosed⟩ := labelValue_sanitizeLabelValue (String.ofList (runesText value))
  rw [sanitizeLabelValue_eq, isValidKubernetesLabelValue_iff]
  rw [← runesText_utf8] at hlength henclosed
  have henclosed := enclosed_runesText.mp henclosed
  rw [runesText_of_ascii (ascii_of_enclosed henclosed), List.length_map] at hlength
  exact ⟨hlength, henclosed⟩

theorem sanitizeLabelValue_eq_self (h : isValidKubernetesLabelValue value = true) :
    sanitizeLabelValue value = value := by
  obtain ⟨hlength, henclosed⟩ := isValidKubernetesLabelValue_iff.mp h
  have hascii := ascii_of_enclosed henclosed
  have hkeep : mapRunes sanitizeLabelChar value = value := by
    have hchars : ∀ c ∈ value.map charOf, String.utf8EncodeChar (sanitizeLabelChar c) =
        String.utf8EncodeChar c := fun c hc =>
      congrArg String.utf8EncodeChar (sanitizeLabelChar_of_isLabelChar (henclosed.all c hc))
    rw [mapRunes, runesText_of_ascii hascii, List.flatMap_congr hchars, ← utf8_ofList,
      utf8_map_charOf hascii]
  have hends : trimFunc isTrimmed value = value := by
    rw [trimFunc_of_ascii hascii]
    refine trim_eq_self (fun b hb => isTrimmed_eq_false.mpr (henclosed.head _ ?_)) fun b hb =>
      isTrimmed_eq_false.mpr (henclosed.last _ ?_)
    · rw [List.head?_map, hb]
      rfl
    · rw [List.getLast?_map, hb]
      rfl
  unfold sanitizeLabelValue
  split
  · rfl
  · simp only [hkeep, hends, if_neg (not_lt.mpr hlength)]

/-- Sanitising gives the valid values and leaves just these as they are; what is valid is empty, or
short, over the characters of labels and with letters or digits at its ends. -/
theorem sanitizeLabelValue_fits (value : Bytes) :
    isValidKubernetesLabelValue (sanitizeLabelValue value) = true ∧
      (isValidKubernetesLabelValue value = true ↔ sanitizeLabelValue value = value) ∧
      sanitizeLabelValue (sanitizeLabelValue value) = sanitizeLabelValue value ∧
      (isValidKubernetesLabelValue value = true ↔ value = [] ∨
        value.length ≤ 63 ∧ (∀ b ∈ value, isLabelChar (charOf b) = true) ∧
          (∃ b ∈ value.head?, isAlphanumeric (charOf b) = true) ∧
          ∃ b ∈ value.getLast?, isAlphanumeric (charOf b) = true) := by
  have hvalid := isValidKubernetesLabelValue_sanitizeLabelValue value
  refine ⟨hvalid, ⟨sanitizeLabelValue_eq_self, fun h => h ▸ hvalid⟩,
    sanitizeLabelValue_eq_self hvalid, ?_⟩
  rw [isValidKubernetesLabelValue_iff, enclosed_iff]
  by_cases hnil : value = []
  · simp [hnil]
  · rw [or_iff_right hnil]
    simp [List.head?_eq_some_head hnil, List.getLast?_eq_some_getLast hnil]

end Values

end HsmSecretsOperator.Controller.LabelValues
