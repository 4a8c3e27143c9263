/- source: internal/mirror/manager.go, internal/hsm/pkcs11_client.go
   digest: What a mirror plan does to the metadata that is not its own. -/

import HsmSecretsOperator.Hsm.Layout
import HsmSecretsOperator.Mirror.Path

set_option autoImplicit false

namespace HsmSecretsOperator.System.UserMetadata

open Foundation.Maps Foundation.Text Hsm.Layout Hsm.Secret
open Hsm.Pkcs11 (Token client)
open Mirror.Execution (Restores)
open Mirror.Path Mirror.Plan Mirror.Sweep
open Mirror.Executor (syncMetadata)

/-- A label of the mirror. -/
def isSyncLabel (key : String) : Bool := hasPrefix key "sync."

/-- The metadata without the labels of the mirror; no metadata counts as a blank record. -/
def userMetadata (metadata : Option SecretMetadata) : SecretMetadata :=
  { metadata.getD {} with
    labels := (metadata.getD {}).labels.filter fun key _ => !isSyncLabel key }

/-- The user metadata a device stores with what it holds. -/
def userMetadataAt (held : Held) : SecretMetadata := userMetadata held.metadata

/-- Copies carry the user metadata of the source, and a restored device keeps its own. -/
structure Preserves (plan : SecretMirrorPlan) (before after : Holdings) : Prop where
  copied : plan.mirrorType = .create ∨ plan.mirrorType = .update → ∀ d ∈ plan.targetDevices,
    userMetadataAt (after d) = userMetadataAt (before plan.sourceDevice)
  restored : plan.mirrorType = .restoreMetadata → ∀ d ∈ plan.targetDevices,
    userMetadataAt (after d) = userMetadataAt (before d)
  source : userMetadataAt (after plan.sourceDevice) = userMetadataAt (before plan.sourceDevice)

/-- The copy to be replicated has no user metadata, nor has a copy whose metadata is restored. -/
structure NothingToLose (env : SweepEnv) (plan : SecretMirrorPlan) (before : Holdings) : Prop where
  copied : plan.mirrorType = .create ∨ plan.mirrorType = .update → plan.targetDevices ≠ [] →
    userMetadataAt (before plan.sourceDevice) = {}
  restored : plan.mirrorType = .restoreMetadata → ∀ d ∈ plan.targetDevices,
    userMetadataAt (before d) = {}
  source : Restores plan (sourceMetadataOf env plan before) →
    userMetadataAt (before plan.sourceDevice) = {}

private theorem labels_stampOf (env : SweepEnv) (plan : SecretMirrorPlan) (before : Holdings)
    {key : String} (hkey : isSyncLabel key = false) :
    (stampOf env plan before).labels[key]? = none := by
  have hne (label : String) (hlabel : isSyncLabel label = true) : label ≠ key := by
    rintro rfl
    rw [hkey] at hlabel
    cases hlabel
  rw [stampOf, syncMetadata, getElem?_insert_of_ne _ (hne "sync.source" (by decide)),
    getElem?_insert_of_ne _ (hne "sync.timestamp" (by decide)),
    getElem?_insert_of_ne _ (hne "sync.version" (by decide)), Std.ExtTreeMap.getElem?_empty]

private theorem userMetadata_stampOf (env : SweepEnv) (plan : SecretMirrorPlan)
    (before : Holdings) : userMetadata (some (stampOf env plan before)) = {} := by
  have hlabels : (stampOf env plan before).labels.filter (fun key _ => !isSyncLabel key) = ∅ := by
    ext key : 1
    rw [Std.ExtTreeMap.getElem?_filter', Std.ExtTreeMap.getElem?_empty]
    cases hkey : isSyncLabel key with
    | true => simp
    | false => rw [labels_stampOf env plan before hkey, Option.filter_none]
  rw [userMetadata, Option.getD_some, hlabels, stampOf, syncMetadata]

section Success

variable {σ : Type} {c : Client σ} {L : Laws c} {env : SweepEnv} {path : String}
  {entries : List Entry} {plan : SecretMirrorPlan} {st : MirrorState σ}
  (hpath : L.paths plan.secretPath) (hst : ∀ d, L.tidy (st.cluster d))
  (hplan : createMirrorPlanForSecret path entries = some plan)
  (hsuccess : (executeMirrorPlan c env plan st).2.success = true)

include hpath hst hplan hsuccess

private theorem target_blank {d : String} (hd : d ∈ plan.targetDevices) :
    userMetadataAt
      (heldAt c (executeMirrorPlan c env plan st).1.cluster plan.secretPath d) = {} := by
  obtain ⟨hnodup, hsource⟩ := plan_wellFormed hplan
  have heffect := effect_executeMirrorPlan hpath hst hnodup hsource env
  rw [hsuccess] at heffect
  cases heffect with
  | idle type _ _ => exact absurd type (mirrorType_ne_skip hplan hd)
  | blocked _ _ reported _ => cases reported
  | repaired _ sourceData _ _ _ targets reported =>
    obtain ⟨copy, hcopy⟩ := Option.isSome_iff_exists.mp (reported.mp rfl d hd)
    rw [targets d hd, hcopy, Option.getD_some, userMetadataAt, metadata_syncedCopy hcopy,
      userMetadata_stampOf]

private theorem source_kept_iff :
    userMetadataAt (heldAt c (executeMirrorPlan c env plan st).1.cluster plan.secretPath
        plan.sourceDevice) =
        userMetadataAt (heldAt c st.cluster plan.secretPath plan.sourceDevice) ↔
      (Restores plan (sourceMetadataOf env plan (heldAt c st.cluster plan.secretPath)) →
        userMetadataAt (heldAt c st.cluster plan.secretPath plan.sourceDevice) = {}) := by
  obtain ⟨hnodup, hsource⟩ := plan_wellFormed hplan
  rw [source_of_success hpath hst hnodup hsource hsuccess]
  by_cases hrestores :
      Restores plan (sourceMetadataOf env plan (heldAt c st.cluster plan.secretPath))
  · rw [if_pos hrestores]
    have hblank := userMetadata_stampOf env plan (heldAt c st.cluster plan.secretPath)
    exact ⟨fun h _ => h.symm.trans hblank, fun h => hblank.trans (h hrestores).symm⟩
  · rw [if_neg hrestores]
    exact ⟨fun _ h => absurd h hrestores, fun _ => rfl⟩

end Success

private def describedOnA (description : String) : MirrorState Token where
  cluster d :=
    if d = "A" then
      client.writeSecret [] "db" ((∅ : SecretData).insert "password" "v".toUTF8.toList)
        (some { description, labels := (∅ : Labels).insert "sync.version" "1" })
    else []

private def pair : SweepEnv := { devices := ["A", "B"], stampAt := fun _ => .ofUnix 1735689600 }

private def copyToB : SecretMirrorPlan :=
  { secretPath := "db", sourceDevice := "A", sourceVersion := 1, targetDevices := ["B"]
    mirrorType := .create }

private def copied (description : String) : MirrorState Token :=
  (executeMirrorPlan client pair copyToB (describedOnA description)).1

end HsmSecretsOperator.System.UserMetadata
