/- source: internal/hsm/pkcs11_client.go, internal/hsm/pkcs11_cgo.go,
     internal/security/validation.go
   digest: When secrets at two paths of one token are isolated from each other. -/

import HsmSecretsOperator.Security.Validation

set_option autoImplicit false

namespace HsmSecretsOperator.Hsm.Isolation

open Foundation.Text Pkcs11 Secret
open Security.Validation (validateSecretPath plain_of_validateSecretPath)

/-- The object was created by a write of the path: one of its keys or its metadata. -/
def writtenUnder (path : String) (o : DataObject) : Bool :=
  o.label = path || hasPrefix o.label (path ++ "/")

/-- Writing or deleting `p` does not show in reads of `q`, and reading `p` does not depend on what
was written under `q`, on any token that one search covers before and after. -/
structure Isolated (p q : String) : Prop where
  readSecret_write : ∀ t, Fits t → ∀ data metadata, Fits (writeSecret t p data metadata) →
    readSecret (writeSecret t p data metadata) q = readSecret t q
  readMetadata_write : ∀ t, Fits t → ∀ data metadata, Fits (writeSecret t p data metadata) →
    readMetadata (writeSecret t p data metadata) q = readMetadata t q
  readSecret_delete : ∀ t, Fits t → readSecret (deleteSecret t p) q = readSecret t q
  readMetadata_delete : ∀ t, Fits t → readMetadata (deleteSecret t p) q = readMetadata t q
  readSecret_own : ∀ t, Fits t →
    readSecret (t.filter fun o => !writtenUnder q o) p = readSecret t p

theorem hasPrefix_of_writtenUnder {path : String} {o : DataObject}
    (h : writtenUnder path o = true) : hasPrefix o.label path = true := by
  simp only [writtenUnder, Bool.or_eq_true, decide_eq_true_eq] at h
  rcases h with h | h
  · rw [h]
    exact hasPrefix_self path
  · exact hasPrefix_trans h (hasPrefix_append path "/")

private theorem readSecret_filter_of_incomparable {p q : String} (h : Incomparable p q) {t : Token}
    (hfits : Fits t) : readSecret (t.filter fun o => !writtenUnder q o) p = readSecret t p := by
  apply readSecret_congr
  have hfits' : Fits (t.filter fun o => !writtenUnder q o) :=
    le_trans (List.length_filter_le _ _) hfits
  rw [matchingObjects_eq, matchingObjects_eq, take_of_fits hfits, take_of_fits hfits',
    List.filter_filter]
  refine List.filter_congr fun o _ => ?_
  cases howned : writtenUnder q o with
  | false => simp
  | true =>
    have hforeign := belongsTo_of_incomparable h (hasPrefix_of_writtenUnder howned)
    simp [hforeign]

theorem isolated_of_incomparable {p q : String} (h : Incomparable p q) : Isolated p q where
  readSecret_write := fun _ hfits data metadata _ =>
    readSecret_writeSecret_of_incomparable h hfits data metadata
  readMetadata_write := fun _ hfits data metadata _ =>
    readMetadata_writeSecret_of_incomparable h hfits data metadata
  readSecret_delete := fun _ hfits => readSecret_deleteSecret_of_incomparable h hfits
  readMetadata_delete := fun _ hfits => readMetadata_deleteSecret_of_incomparable h hfits
  readSecret_own := fun _ hfits => readSecret_filter_of_incomparable h hfits

private def lone (path : String) : Token := [⟨path, []⟩]

private theorem fits_lone (path : String) : Fits (lone path) := by
  simp [Fits, lone, maxObjects]

private theorem readSecret_lone {p q : String} (hp : Plain p) (h : hasPrefix p q = true) :
    ∃ d, readSecret (lone p) q = .ok d := by
  have hmeta : isMetadata ⟨p, []⟩ = false := by
    have := isMetadata_labelOf hp (show Plain "data" from ⟨by decide, by decide⟩) []
    simpa [labelOf, defaultKeyName] using this
  have hfound : matchingObjects (lone p) q = [⟨p, []⟩] := by
    rw [matchingObjects_eq, take_of_fits (fits_lone p)]
    simp [lone, belongsTo, hp.1, h, hmeta]
  refine ⟨(∅ : SecretData).insert (keyOf q ⟨p, []⟩) [], ?_⟩
  simp [readSecret, hfound]

private theorem readSecret_nil (q : String) :
    readSecret [] q = .error s!"secret not found at path: {q}" := by
  simp [readSecret, matchingObjects, findObjects]

private theorem writeSecret_lone (p : String) :
    writeSecret [] p ((∅ : SecretData).insert "data" []) none = lone p := by
  have hentries : ((∅ : SecretData).insert "data" []).toList = [("data", [])] := by decide
  rw [writeSecret_eq, newObjects, hentries]
  simp [deleteSecretObjects, lone, labelOf, defaultKeyName]

private theorem deleteSecret_lone {p q : String} (hq : q ≠ "") (h : hasPrefix q p = true) :
    deleteSecret (lone q) p = [] := by
  rw [deleteSecret, deleteSecretObjects_of_fits (fits_lone q)]
  simp [lone, belongsTo, hq, h]

theorem incomparable_of_isolated {p q : String} (hp : Plain p) (hq : Plain q)
    (h : Isolated p q) : Incomparable p q := by
  constructor
  · -- A write of the longer path shows up as a key of the shorter one.
    by_contra hpq
    obtain ⟨d, hd⟩ := readSecret_lone hp (Bool.not_eq_false _ ▸ hpq)
    have hfits : Fits (writeSecret [] p ((∅ : SecretData).insert "data" []) none) := by
      rw [writeSecret_lone]
      exact fits_lone p
    have hwrite := h.readSecret_write [] (by decide) _ none hfits
    rw [writeSecret_lone, hd, readSecret_nil] at hwrite
    cases hwrite
  · -- A deletion of the shorter path takes the objects of the longer one with it.
    by_contra hqp
    have hqp' : hasPrefix q p = true := Bool.not_eq_false _ ▸ hqp
    obtain ⟨d, hd⟩ := readSecret_lone hq (hasPrefix_self q)
    have hdelete := h.readSecret_delete (lone q) (fits_lone q)
    rw [deleteSecret_lone hq.1 hqp', hd, readSecret_nil] at hdelete
    cases hdelete

/-- Two accepted paths are isolated exactly when neither is a textual prefix of the other; that
one is not a directory above the other is not enough. -/
theorem isolated_iff_incomparable {p q : String} (hp : validateSecretPath p = .ok ())
    (hq : validateSecretPath q = .ok ()) : Isolated p q ↔ Incomparable p q :=
  ⟨incomparable_of_isolated (plain_of_validateSecretPath hp) (plain_of_validateSecretPath hq),
    isolated_of_incomparable⟩

theorem isolated_app_web : validateSecretPath "app/db" = .ok () ∧
    validateSecretPath "web" = .ok () ∧ Isolated "app/db" "web" :=
  ⟨by decide, by decide, (isolated_iff_incomparable (by decide) (by decide)).mpr (by decide)⟩

/-- Deleting `db` destroys the objects of `db2`. -/
theorem deleteSecret_db_erases_db2 :
    let t := writeSecret [] "db2" ((∅ : SecretData).insert "pin" [49]) none
    validateSecretPath "db" = .ok () ∧ validateSecretPath "db2" = .ok () ∧ "db" ≠ "db2" ∧
      hasPrefix "db" "db2/" = false ∧ hasPrefix "db2" "db/" = false ∧ Fits t ∧
      readSecret t "db2" = .ok ((∅ : SecretData).insert "pin" [49]) ∧
      readSecret (deleteSecret t "db") "db2" = .error "secret not found at path: db2" := by
  decide +kernel

end HsmSecretsOperator.Hsm.Isolation
