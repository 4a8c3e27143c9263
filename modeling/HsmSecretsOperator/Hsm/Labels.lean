/- source: internal/hsm/pkcs11_client.go, internal/security/validation.go
   digest: Which pairs of a path and a key share the label of their object. -/

import HsmSecretsOperator.Security.Validation

set_option autoImplicit false

namespace HsmSecretsOperator.Hsm.Labels

open Foundation.Text Pkcs11 Secret Security.Validation

/-- The key occurs in data that the validator accepts. -/
def AcceptableKey (key : String) : Prop :=
  ∃ data : SecretData, key ∈ data ∧ validateSecretData data = .ok ()

/-- The second path goes on where the first one ends with the front of the first key, and the second
key is the rest of it. -/
def Nested (path key path' key' : String) : Prop :=
  key ≠ defaultKeyName ∧ ∃ front, path' = path ++ "/" ++ front ∧ key = labelOf front key'

private theorem toList_append_slash (p k : String) :
    (p ++ "/" ++ k).toList = p.toList ++ '/' :: k.toList := by
  have hslash : "/".toList = ['/'] := by decide
  simp [hslash]

private theorem front_of_append {p k q l : String} {a : List Char}
    (hq : q.toList = p.toList ++ a) (hk : '/' :: k.toList = a ++ '/' :: l.toList) :
    (p = q ∧ k = l) ∨ ∃ x, q = p ++ "/" ++ x ∧ k = x ++ "/" ++ l := by
  cases a with
  | nil =>
    rw [List.append_nil] at hq
    exact .inl ⟨String.toList_inj.mp hq.symm, String.toList_inj.mp (List.cons.inj hk).2⟩
  | cons c x =>
    rw [List.cons_append] at hk
    obtain ⟨rfl, hrest⟩ := List.cons.inj hk
    refine .inr ⟨String.ofList x, String.toList_inj.mp ?_, String.toList_inj.mp ?_⟩
    · rw [toList_append_slash, String.toList_ofList, hq]
    · rw [toList_append_slash, String.toList_ofList, hrest]

private theorem append_slash_eq {p k q l : String} (h : p ++ "/" ++ k = q ++ "/" ++ l) :
    (p = q ∧ k = l) ∨ (∃ x, q = p ++ "/" ++ x ∧ k = x ++ "/" ++ l) ∨
      ∃ x, p = q ++ "/" ++ x ∧ l = x ++ "/" ++ k := by
  have hlist := congrArg String.toList h
  rw [toList_append_slash, toList_append_slash] at hlist
  rcases List.append_eq_append_iff.mp hlist with ⟨a, hq, hk⟩ | ⟨a, hp, hl⟩
  · rcases front_of_append hq hk with heq | hfront
    · exact .inl heq
    · exact .inr (.inl hfront)
  · rcases front_of_append hp hl with ⟨rfl, rfl⟩ | hfront
    · exact .inl ⟨rfl, rfl⟩
    · exact .inr (.inr hfront)

variable {p k q l : String}

private theorem labelOf_eq_of_nested (h : Nested p k q l) : labelOf p k = labelOf q l := by
  obtain ⟨hk, x, rfl, rfl⟩ := h
  unfold labelOf at hk ⊢
  by_cases hl : l = defaultKeyName
  · rw [if_pos hl] at hk ⊢
    rw [if_neg hk, if_pos hl]
  · rw [if_neg hl] at hk ⊢
    rw [if_neg hk, if_neg hl]
    simp only [String.append_assoc]

theorem labelOf_eq_iff : labelOf p k = labelOf q l ↔
    (p = q ∧ k = l) ∨ Nested p k q l ∨ Nested q l p k := by
  constructor
  · intro h
    by_cases hk : k = defaultKeyName
    · by_cases hl : l = defaultKeyName
      · refine .inl ⟨?_, hk.trans hl.symm⟩
        simpa [labelOf, hk, hl] using h
      · refine .inr (.inr ⟨hl, l, ?_, ?_⟩)
        · simpa [labelOf, hk, hl] using h
        · simp [labelOf, hk]
    · by_cases hl : l = defaultKeyName
      · refine .inr (.inl ⟨hk, k, ?_, ?_⟩)
        · simpa [labelOf, hk, hl, eq_comm] using h
        · simp [labelOf, hl]
      · simp only [labelOf, if_neg hk, if_neg hl] at h
        rcases append_slash_eq h with heq | ⟨x, hq, hkx⟩ | ⟨x, hp, hlx⟩
        · exact .inl heq
        · exact .inr (.inl ⟨hk, x, hq, by rw [hkx, labelOf, if_neg hl]⟩)
        · exact .inr (.inr ⟨hl, x, hp, by rw [hlx, labelOf, if_neg hk]⟩)
  · rintro (⟨rfl, rfl⟩ | h | h)
    · rfl
    · exact labelOf_eq_of_nested h
    · exact (labelOf_eq_of_nested h).symm

theorem ne_of_nested (h : Nested p k q l) : p ≠ q := by
  obtain ⟨_, x, hq, _⟩ := h
  intro heq
  have hlength := congrArg (fun s => s.toList.length) (heq.trans hq)
  simp at hlength

theorem plain_of_acceptableKey (h : AcceptableKey k) : Plain k := by
  obtain ⟨data, hmem, hvalid⟩ := h
  exact plain_of_validateSecretData hvalid k hmem

/-- Accepted pairs that differ are stored under different labels exactly if neither is nested in the
other; no label of a key is that of metadata. -/
theorem labels_distinct_iff (hp : validateSecretPath p = .ok ()) (hk : AcceptableKey k)
    (hq : validateSecretPath q = .ok ()) (hl : AcceptableKey l) :
    (((p, k) ≠ (q, l) → labelOf p k ≠ labelOf q l) ↔ ¬ Nested p k q l ∧ ¬ Nested q l p k) ∧
      (∀ path, validateSecretPath path = .ok () → labelOf p k ≠ path ++ metadataKeySuffix) ∧
      ∀ path, validateSecretPath path = .ok () → labelOf q l ≠ path ++ metadataKeySuffix := by
  have hmetadata {path key : String} (hpath : validateSecretPath path = .ok ())
      (hkey : AcceptableKey key) (other : String) :
      labelOf path key ≠ other ++ metadataKeySuffix := by
    intro heq
    have hdata := isMetadata_labelOf (plain_of_validateSecretPath hpath)
      (plain_of_acceptableKey hkey) []
    rw [heq] at hdata
    simp [isMetadata] at hdata
  refine ⟨?_, fun path _ => hmetadata hp hk path, fun path _ => hmetadata hq hl path⟩
  constructor
  · intro h
    constructor
    · intro hnested
      refine h (fun heq => ne_of_nested hnested (Prod.mk.inj heq).1) ?_
      exact labelOf_eq_of_nested hnested
    · intro hnested
      refine h (fun heq => ne_of_nested hnested (Prod.mk.inj heq).1.symm) ?_
      exact (labelOf_eq_of_nested hnested).symm
  · rintro ⟨hnested, hnested'⟩ hne heq
    rcases labelOf_eq_iff.mp heq with ⟨rfl, rfl⟩ | h | h
    · exact hne rfl
    · exact hnested h
    · exact hnested' h

theorem acceptableKey_of_single {key : String}
    (h : validateSecretData ((∅ : SecretData).insert key []) = .ok ()) : AcceptableKey key :=
  ⟨_, Std.ExtTreeMap.mem_insert_self, h⟩

/-- The password of `app/db` and the key `db/password` of `app` are one object. -/
theorem shared_label : validateSecretPath "app" = .ok () ∧ AcceptableKey "db/password" ∧
    validateSecretPath "app/db" = .ok () ∧ AcceptableKey "password" ∧
    labelOf "app" "db/password" = labelOf "app/db" "password" :=
  ⟨by decide, acceptableKey_of_single (by decide +kernel), by decide,
    acceptableKey_of_single (by decide +kernel), by decide⟩

theorem labels_distinct_user : labelOf "app" "db/user" ≠ labelOf "app/db" "password" := by
  refine (labels_distinct_iff (by decide) (acceptableKey_of_single (by decide +kernel)) (by decide)
    (acceptableKey_of_single (by decide +kernel))).1.mpr ⟨?_, ?_⟩ (by decide)
  · intro h
    exact absurd (labelOf_eq_of_nested h) (by decide)
  · intro h
    exact absurd (labelOf_eq_of_nested h) (by decide)

end HsmSecretsOperator.Hsm.Labels
