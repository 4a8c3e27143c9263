/- source: internal/hsm/client.go, internal/mirror/manager.go, internal/reconcile/resolve.go,
     internal/controller/hsmsecret_controller.go
   digest: When equal checksums mean equal secrets: keys and values are hashed unseparated. -/

import HsmSecretsOperator.Controller.HsmSecret
import HsmSecretsOperator.Mirror.Plan

/-! The stream of bytes that is hashed does not say where a key ends. -/

set_option autoImplicit false

namespace HsmSecretsOperator.System.ContentIdentity

open Controller.HsmSecret Foundation.Sha256 Foundation.Text Hsm.Secret Reconcile.Resolve

variable {data data' : SecretData}

/-- The keys and values in the order in which they are hashed. -/
def parts (data : SecretData) : List Bytes := data.toList.flatMap fun e => [utf8 e.1, e.2]

/-- The lengths of the keys and values in that order. -/
def layout (data : SecretData) : List Nat := (parts data).map List.length

private theorem entries_of_parts {l l' : List (String × Bytes)}
    (h : l.flatMap (fun e => [utf8 e.1, e.2]) = l'.flatMap fun e => [utf8 e.1, e.2]) : l = l' := by
  induction l generalizing l' with
  | nil =>
    cases l' with
    | nil => rfl
    | cons e' l' => simp at h
  | cons e l ih =>
    cases l' with
    | nil => simp at h
    | cons e' l' =>
      simp only [List.flatMap_cons, List.cons_append, List.nil_append, List.cons.injEq] at h
      obtain ⟨hkey, hvalue, hrest⟩ := h
      rw [ih hrest, Prod.ext (utf8_inj hkey) hvalue]

theorem parts_inj (h : parts data = parts data') : data = data' :=
  Std.ExtTreeMap.toList_inj.mp (entries_of_parts h)

theorem stream_eq_flatten (data : SecretData) : stream data = (parts data).flatten := by
  have hvalue : ∀ e ∈ data.toList, data.getD e.1 [] = e.2 := by
    intro e he
    rw [Std.ExtTreeMap.getD_eq_getD_getElem?,
      Std.ExtTreeMap.mem_toList_iff_getElem?_eq_some.mp he, Option.getD_some]
  rw [stream, checksumInput, ← Std.ExtTreeMap.map_fst_toList_eq_keys, parts]
  revert hvalue
  generalize data.toList = entries
  intro hvalue
  induction entries with
  | nil => rfl
  | cons e entries ih =>
    have htail := ih fun e' he' => hvalue e' (List.mem_cons_of_mem e he')
    simp only [List.map_cons, List.flatMap_cons, htail, hvalue e List.mem_cons_self,
      List.flatten_append, List.flatten_cons, List.flatten_nil, List.append_nil]

theorem eq_of_stream_of_layout (hstream : stream data = stream data')
    (hlayout : layout data = layout data') : data = data' := by
  apply parts_inj
  rw [stream_eq_flatten, stream_eq_flatten] at hstream
  exact List.eq_iff_flatten_eq.mpr ⟨hstream, hlayout⟩

/-- The observation is that of a live copy of the data. -/
structure Shows (o : DeviceObservation) (data : SecretData) : Prop where
  present : o.present = true
  live : o.tombstone = false
  checksum : o.checksum = calculateChecksum data

/-- Whatever compares the two secrets by their checksums finds them equal only if they are. -/
structure Identified (data data' : SecretData) : Prop where
  checksum : calculateChecksum data = calculateChecksum data' → data = data'
  mirrorChecksum : Mirror.Plan.calculateChecksum data = Mirror.Plan.calculateChecksum data' →
    data = data'
  /-- Devices that the resolver counts as agreeing with the winner. -/
  agreeing : ∀ obs n o o', o ∈ obs → o' ∈ obs → Shows o data → Shows o' data' →
    o.deviceID ∉ (resolve obs n).outliers → o'.deviceID ∉ (resolve obs n).outliers → data = data'
  /-- A Kubernetes Secret that is reported to be in sync. -/
  inSync : ∀ api, updateKubernetesSecret api data = .ok (data', .inSync) → data = data'

private theorem winner_of_agreeing {obs : List DeviceObservation} {n : Nat} {o : DeviceObservation}
    (ho : o ∈ obs) (h : Shows o data) (hagrees : o.deviceID ∉ (resolve obs n).outliers) :
    calculateChecksum data = (resolve obs n).winningChecksum := by
  have hvoter : o ∈ votersOf obs :=
    List.mem_filter.mpr ⟨ho, by simp [DeviceObservation.hasOpinion, h.present]⟩
  have heffective : o.effectiveChecksum = calculateChecksum data := by
    simp [DeviceObservation.effectiveChecksum, h.live, h.checksum]
  by_contra hne
  apply hagrees
  rw [mem_resolve_outliers]
  exact ⟨o, hvoter, rfl, by rwa [heffective]⟩

private theorem stream_of_checksum
    (hcollision : digest (stream data) = digest (stream data') → stream data = stream data')
    (h : calculateChecksum data = calculateChecksum data') : stream data = stream data' := by
  rw [calculateChecksum_eq, calculateChecksum_eq] at h
  exact hcollision (sprintfX_inj (String.append_right_inj _ |>.mp h))

private theorem checksum_of_mirrorChecksum
    (h : Mirror.Plan.calculateChecksum data = Mirror.Plan.calculateChecksum data') :
    calculateChecksum data = calculateChecksum data' := by
  rw [calculateChecksum_eq, calculateChecksum_eq, ← Mirror.Plan.calculateChecksum_eq,
    ← Mirror.Plan.calculateChecksum_eq, h]

/-- With a digest that separates the two streams, checksums identify two secrets exactly if equal
streams have equal lengths of keys and values. -/
theorem identified_iff (data data' : SecretData)
    (hcollision : digest (stream data) = digest (stream data') → stream data = stream data') :
    Identified data data' ↔ (stream data = stream data' → layout data = layout data') := by
  constructor
  · intro h hstream
    have hchecksum : calculateChecksum data = calculateChecksum data' := by
      rw [calculateChecksum_eq, calculateChecksum_eq, hstream]
    rw [h.checksum hchecksum]
  · intro hlayout
    have hequal : calculateChecksum data = calculateChecksum data' → data = data' := by
      intro h
      have hstream := stream_of_checksum hcollision h
      exact eq_of_stream_of_layout hstream (hlayout hstream)
    refine ⟨hequal, fun h => hequal (checksum_of_mirrorChecksum h), ?_, ?_⟩
    · intro obs n o o' ho ho' hshows hshows' hagrees hagrees'
      apply hequal
      rw [winner_of_agreeing ho hshows hagrees, winner_of_agreeing ho' hshows' hagrees']
    · intro api h
      exact hequal (syncStatus_eq_inSync.mp (syncStatus_of_update h))

private def secretOf (key value : String) : SecretData :=
  (∅ : Std.ExtTreeMap String Bytes).insert key (utf8 value)

/-- The boundary between key and value shifts, the stream stays. -/
theorem shifted_secrets_collide :
    stream (secretOf "a" "bc") = stream (secretOf "ab" "c") ∧
      ¬ Identified (secretOf "a" "bc") (secretOf "ab" "c") := by
  have hstream : stream (secretOf "a" "bc") = stream (secretOf "ab" "c") := by decide +kernel
  refine ⟨hstream, fun h => ?_⟩
  have hequal : secretOf "a" "bc" = secretOf "ab" "c" :=
    h.checksum (by rw [calculateChecksum_eq, calculateChecksum_eq, hstream])
  revert hequal
  decide +kernel

theorem identified_values : Identified (secretOf "a" "b") (secretOf "a" "c") :=
  (identified_iff _ _ fun h => absurd h (by decide +kernel)).mpr fun h =>
    absurd h (by decide +kernel)

end HsmSecretsOperator.System.ContentIdentity
