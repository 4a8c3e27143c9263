/- source: internal/controller/hsmsecret_controller.go
   digest: What an update of a Secret leaves of the metadata that the Secret was created from. -/

import HsmSecretsOperator.Controller.SecretObjects

set_option autoImplicit false

namespace HsmSecretsOperator.Controller.SecretContent

open Foundation.Maps Hsm.Secret SecretObjects

def appliedLabels : Option SecretMetadata → List (String × String)
  | none => []
  | some m => m.labels.toList.filter fun e =>
      isValidKubernetesLabelKey e.1 && isValidKubernetesLabelValue e.2

def appliedAnnotations : Option SecretMetadata → List (String × String)
  | none => []
  | some m => (metadataAnnotations m).filter fun e => e.2 ≠ ""

def operatorKeys : List String := ["managed-by", "hsm-path"]

/-- Every key of the second list is a key of the first. -/
def Covers (new old : List (String × String)) : Prop :=
  ∀ e ∈ old, ∃ e' ∈ new, e'.1 = e.1

structure SameContent (a b : Secret) : Prop where
  data : a.data = b.data
  labels : a.labels = b.labels
  annotations : a.annotations = b.annotations

theorem applyMetadata_eq (labels annotations : Labels) (m : Option SecretMetadata) :
    applyMetadataToLabelsAndAnnotations labels annotations m =
      (assign labels Prod.fst Prod.snd (appliedLabels m),
        assign annotations Prod.fst Prod.snd (appliedAnnotations m)) := by
  cases m with
  | none => rfl
  | some m => rfl

theorem getElem?_operatorLabels_of_not_mem {k : String} (h : k ∉ operatorKeys) (labels : Labels)
    (name : String) : (operatorLabels labels name)[k]? = labels[k]? := by
  simp only [operatorKeys, List.mem_cons, List.not_mem_nil, or_false, not_or] at h
  rw [operatorLabels, getElem?_insert_of_ne _ (Ne.symm h.2), getElem?_insert_of_ne _ (Ne.symm h.1)]

theorem getElem?_operatorLabels_of_mem {k : String} (h : k ∈ operatorKeys) (labels other : Labels)
    (name : String) : (operatorLabels labels name)[k]? = (operatorLabels other name)[k]? := by
  simp only [operatorKeys, List.mem_cons, List.not_mem_nil, or_false] at h
  rcases h with rfl | rfl
  · rw [operatorLabels, operatorLabels, getElem?_insert_of_ne _ (by decide),
      Std.ExtTreeMap.getElem?_insert_self, getElem?_insert_of_ne _ (by decide),
      Std.ExtTreeMap.getElem?_insert_self]
  · rw [operatorLabels, operatorLabels, Std.ExtTreeMap.getElem?_insert_self,
      Std.ExtTreeMap.getElem?_insert_self]

private theorem getElem?_assign_eq_none_iff {labels : Labels} {entries : List (String × String)}
    {k : String} (h : labels[k]? = none) :
    (assign labels Prod.fst Prod.snd entries)[k]? = none ↔ ∀ e ∈ entries, e.1 ≠ k := by
  constructor
  · intro hnone e he hk
    have hmem : k ∈ assign labels Prod.fst Prod.snd entries := mem_assign.mpr (.inr ⟨e, he, hk⟩)
    rw [Std.ExtTreeMap.mem_iff_isSome_getElem?, hnone] at hmem
    cases hmem
  · intro hall
    rw [getElem?_assign_of_forall_ne _ _ _ hall, h]

theorem assign_annotations_iff (old new : List (String × String)) :
    assign (assign (∅ : Labels) Prod.fst Prod.snd old) Prod.fst Prod.snd new =
      assign ∅ Prod.fst Prod.snd new ↔ Covers new old := by
  have hnone (k : String) : (∅ : Labels)[k]? = none := Std.ExtTreeMap.getElem?_empty
  rw [assign_eq_assign_iff]
  constructor
  · intro h e he
    by_contra hmissing
    push Not at hmissing
    have hsame := h e.1 hmissing
    rw [hnone, getElem?_assign_eq_none_iff (hnone _)] at hsame
    exact hsame e he rfl
  · intro h k hk
    rw [hnone, getElem?_assign_eq_none_iff (hnone k)]
    rintro e he rfl
    obtain ⟨e', he', heq⟩ := h e he
    exact hk e' he' heq

theorem assign_labels_iff (name : String) (old new : List (String × String)) :
    assign (operatorLabels (assign (operatorLabels ∅ name) Prod.fst Prod.snd old) name)
        Prod.fst Prod.snd new =
      assign (operatorLabels ∅ name) Prod.fst Prod.snd new ↔
      Covers new (old.filter fun e => e.1 ∉ operatorKeys) := by
  have hnone {k : String} (hk : k ∉ operatorKeys) : (operatorLabels ∅ name)[k]? = none := by
    rw [getElem?_operatorLabels_of_not_mem hk, Std.ExtTreeMap.getElem?_empty]
  rw [assign_eq_assign_iff]
  constructor
  · intro h e he
    obtain ⟨he, hkey⟩ := List.mem_filter.mp he
    have hkey := of_decide_eq_true hkey
    by_contra hmissing
    push Not at hmissing
    have hsame := h e.1 hmissing
    rw [getElem?_operatorLabels_of_not_mem hkey, hnone hkey,
      getElem?_assign_eq_none_iff (hnone hkey)] at hsame
    exact hsame e he rfl
  · intro h k hk
    by_cases hkey : k ∈ operatorKeys
    · exact getElem?_operatorLabels_of_mem hkey _ _ name
    · rw [getElem?_operatorLabels_of_not_mem hkey, hnone hkey,
        getElem?_assign_eq_none_iff (hnone hkey)]
      rintro e he rfl
      obtain ⟨e', he', heq⟩ := h e (List.mem_filter.mpr ⟨he, decide_eq_true hkey⟩)
      exact hk e' he' heq

/-- A Secret that is created and then updated is as one created from the later content exactly if
the later metadata sets every label and every annotation that the earlier one has set, apart from
the labels of the operator. -/
theorem updated_as_created_iff (hsmSecret : HSMSecret) (name : String) (d₁ d₂ : SecretData)
    (m₁ m₂ : Option SecretMetadata) :
    SameContent (updateSecretWithMetadata (buildSecret hsmSecret name d₁ m₁) name d₂ m₂)
        (buildSecret hsmSecret name d₂ m₂) ↔
      Covers (appliedLabels m₂) ((appliedLabels m₁).filter fun e => e.1 ∉ operatorKeys) ∧
        Covers (appliedAnnotations m₂) (appliedAnnotations m₁) := by
  rw [← assign_labels_iff name, ← assign_annotations_iff]
  constructor
  · rintro ⟨-, hlabels, hannotations⟩
    simp only [updateSecretWithMetadata, buildSecret, applyMetadata_eq] at hlabels hannotations
    exact ⟨hlabels, hannotations⟩
  · rintro ⟨hlabels, hannotations⟩
    refine ⟨rfl, ?_, ?_⟩
    · simpa only [updateSecretWithMetadata, buildSecret, applyMetadata_eq] using hlabels
    · simpa only [updateSecretWithMetadata, buildSecret, applyMetadata_eq] using hannotations

private def described : SecretMetadata := { description := "database of the staging cluster" }

theorem lost_description_stays :
    let hsmSecret : HSMSecret := { uid := "u1" }
    ¬ SameContent (updateSecretWithMetadata (buildSecret hsmSecret "db" ∅ (some described)) "db" ∅
        (some {})) (buildSecret hsmSecret "db" ∅ (some {})) := by
  intro hsmSecret h
  have hannotations := h.annotations
  revert hannotations
  decide +kernel

end HsmSecretsOperator.Controller.SecretContent
