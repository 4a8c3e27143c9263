/- source: internal/api/proxy_client.go, internal/reconcile/resolve.go
   digest: When a read of all devices returns the data of the write acknowledged before it. -/

import HsmSecretsOperator.Api.Proxy
import HsmSecretsOperator.Hsm.Layout

set_option autoImplicit false

namespace HsmSecretsOperator.System.ReadBack

open Api.Proxy Foundation.Decimal Foundation.Election Hsm.Secret
open Hsm.Layout (Roomy)
open Hsm.Pkcs11 (Legible Token client client_readMetadata client_readSecret
  metadataKey_not_mem readMetadata_writeSecret readSecret_writeSecret)
open Reconcile.Resolve (DeviceObservation)

/-- What the devices that miss the write answer to a read. -/
def remaining (f : Fanout) (cl : Cluster Token) (path : String) : List SecretResult :=
  collectResults client {} cl path (f.clients.filter fun d => !f.accepts d)

/-- The number of expected devices that take the write or have its value already. -/
def support (f : Fanout) (cl : Cluster Token) (path : String) (data : SecretData) : Nat :=
  f.clients.countP f.accepts + votes DeviceObservation.effectiveChecksum
    ((remaining f cl path).map SecretResult.observation) (calculateChecksum data)

/-- The written data wins: by a strict majority of three or more devices, or, where no other value
has one, by its version, which is above every version that remains. -/
inductive Prevails (f : Fanout) (cl : Cluster Token) (path : String) (data : SecretData) : Prop
  | majority (three : 3 ≤ f.clients.length)
      (most : f.clients.length / 2 < support f cl path data)
  | newest
      (unopposed : 3 ≤ f.clients.length → ∀ value, value ≠ calculateChecksum data →
        ¬ Majority DeviceObservation.effectiveChecksum f.clients.length
          ((remaining f cl path).map SecretResult.observation) value)
      (headroom : ∀ d ∈ f.clients,
        reported (f.metadataAnswer client cl path d) ≠ some maxInt64)
      (seen : ∀ r ∈ remaining f cl path, metadataVersion r.metadata ≤ 0 ∨
        ∃ d ∈ f.clients, ∃ v, reported (f.metadataAnswer client cl path d) = some v ∧
          metadataVersion r.metadata ≤ v)

/-- No live copy that remains has the checksum of the written data without being that data. -/
def Faithful (f : Fanout) (cl : Cluster Token) (path : String) (data : SecretData) : Prop :=
  ∀ r ∈ remaining f cl path, isSecretDeleted r.metadata = false →
    calculateChecksum r.data = calculateChecksum data → r.data = data

/-- The devices that take the write can give it back: its keys are read as they were written, and
one search covers each of their tokens before and after. -/
structure Storable (f : Fanout) (cl : Cluster Token) (path : String) (data : SecretData) :
    Prop where
  named : path ≠ ""
  keys : ∀ key ∈ data, Legible path key
  room : ∀ d ∈ f.clients, f.accepts d = true → Roomy path data.size (cl d)

variable {f : Fanout} {cl : Cluster Token} {path : String} {req : WriteRequest}

/-- The answer of a device that took the write. -/
def writtenResult (f : Fanout) (cl : Cluster Token) (path : String) (req : WriteRequest)
    (d : String) : SecretResult :=
  { deviceName := d
    data := req.secretData
    metadata := some (stampMetadata req.metadata (nextVersion client f cl path) f.now) }

private theorem readDevice_written (hdata : req.secretData ≠ ∅)
    (hstorable : Storable f cl path req.secretData) {d : String} (hd : d ∈ f.clients)
    (haccepts : f.accepts d = true) :
    readDevice client {} (writeSecret client f cl path req) path d =
      some (writtenResult f cl path req d) := by
  have hstore : writeSecret client f cl path req d = Hsm.Pkcs11.writeSecret (cl d) path
      req.secretData (writtenResult f cl path req d).metadata :=
    if_pos ⟨hd, haccepts⟩
  have hroom := hstorable.room d hd haccepts
  have hfits := hroom.fits_writeSecret (writtenResult f cl path req d).metadata
  have hread := readSecret_writeSecret hstorable.named hstorable.keys hdata hroom.fits hfits
  have hmetadata :=
    readMetadata_writeSecret (metadataKey_not_mem hstorable.keys) hroom.fits hfits
  rw [← hstore] at hread hmetadata
  simp only [readDevice, client_readSecret, client_readMetadata, hread, hmetadata,
    Bool.false_eq_true, if_false, writtenResult]

private theorem readDevice_missed {d : String} (haccepts : f.accepts d = false) :
    readDevice client {} (writeSecret client f cl path req) path d =
      readDevice client {} cl path d := by
  have hstore : writeSecret client f cl path req d = cl d := by
    refine if_neg ?_
    rintro ⟨_, h⟩
    rw [haccepts] at h
    cases h
  rw [readDevice, hstore, readDevice]

/-- The answers after the write: from the devices that took it, then from the others. -/
def results (f : Fanout) (cl : Cluster Token) (path : String) (req : WriteRequest) :
    List SecretResult :=
  (f.clients.filter f.accepts).map (writtenResult f cl path req) ++ remaining f cl path

theorem collectResults_writeSecret (cl : Cluster Token) (path : String)
    (hdata : req.secretData ≠ ∅) (hstorable : Storable f cl path req.secretData)
    {arrivals : List String} (hperm : arrivals.Perm f.clients) :
    (collectResults client {} (writeSecret client f cl path req) path arrivals).Perm
      (results f cl path req) := by
  have hsplit : arrivals.Perm
      (f.clients.filter f.accepts ++ f.clients.filter fun d => !f.accepts d) :=
    hperm.trans (List.filter_append_perm f.accepts f.clients).symm
  refine (hsplit.filterMap _).trans (List.Perm.of_eq ?_)
  rw [List.filterMap_append, results, ← List.filterMap_eq_map, remaining, collectResults]
  congr 1
  · refine List.filterMap_congr ?_
    intro d hd
    obtain ⟨hmem, haccepts⟩ := List.mem_filter.mp hd
    exact readDevice_written hdata hstorable hmem haccepts
  · refine List.filterMap_congr ?_
    intro d hd
    exact readDevice_missed (by simpa using (List.mem_filter.mp hd).2)

section Election

variable (f cl path) (hlive : metadataDeleted req.metadata = false)
include hlive

private theorem effectiveChecksum_written (d : String) :
    (writtenResult f cl path req d).observation.effectiveChecksum =
      calculateChecksum req.secretData := by
  have htomb : isSecretDeleted (writtenResult f cl path req d).metadata = false := by
    rw [isSecretDeleted, writtenResult, metadataDeleted_stampMetadata, hlive]
  simp only [SecretResult.observation, DeviceObservation.effectiveChecksum, htomb,
    Bool.false_eq_true, if_false]
  rfl

private theorem votes_results (value : String) :
    votes DeviceObservation.effectiveChecksum
        ((results f cl path req).map SecretResult.observation) value =
      (if value = calculateChecksum req.secretData then f.clients.countP f.accepts else 0) +
        votes DeviceObservation.effectiveChecksum
          ((remaining f cl path).map SecretResult.observation) value := by
  have hwritten : votes DeviceObservation.effectiveChecksum (((f.clients.filter f.accepts).map
      (writtenResult f cl path req)).map SecretResult.observation) value =
        if value = calculateChecksum req.secretData then f.clients.countP f.accepts else 0 := by
    simp only [votes, List.map_map, List.countP_map, Function.comp_def,
      effectiveChecksum_written f cl path hlive]
    by_cases hvalue : value = calculateChecksum req.secretData
    · simp [hvalue, List.countP_eq_length_filter]
    · simp [hvalue, Ne.symm hvalue]
  rw [← hwritten, votes, results, List.map_append, List.countP_append]
  rfl

end Election

private theorem rank_lt_written {r : SecretResult} (d : String)
    (h : metadataVersion r.metadata < nextVersion client f cl path) :
    r.observation.rank < (writtenResult f cl path req d).observation.rank := by
  have hversion : (writtenResult f cl path req d).observation.version =
      nextVersion client f cl path :=
    metadataVersion_stampMetadata req.metadata (inInt64_nextVersion client f cl path) f.now
  rw [DeviceObservation.rank, DeviceObservation.rank, Prod.Lex.toLex_lt_toLex, hversion]
  exact .inl h

theorem elects_written (hlive : metadataDeleted req.metadata = false)
    (hack : f.acknowledged = true) (h : Prevails f cl path req.secretData) :
    Elects DeviceObservation.effectiveChecksum DeviceObservation.rank f.clients.length
      ((results f cl path req).map SecretResult.observation)
      (calculateChecksum req.secretData) := by
  have hvotes := votes_results f cl path hlive
  cases h with
  | majority three most =>
    refine .majority three ?_
    rwa [Majority, hvotes, if_pos rfl]
  | newest unopposed headroom seen =>
    by_cases hmajority : 3 ≤ f.clients.length ∧ Majority DeviceObservation.effectiveChecksum
        f.clients.length ((results f cl path req).map SecretResult.observation)
        (calculateChecksum req.secretData)
    · exact .majority hmajority.1 hmajority.2
    · have hsplit : 3 ≤ f.clients.length → ∀ value, ¬ Majority DeviceObservation.effectiveChecksum
          f.clients.length ((results f cl path req).map SecretResult.observation) value := by
        intro three value hmost
        by_cases hvalue : value = calculateChecksum req.secretData
        · exact hmajority ⟨three, hvalue ▸ hmost⟩
        · rw [Majority, hvotes, if_neg hvalue, Nat.zero_add] at hmost
          exact unopposed three value hvalue hmost
      obtain ⟨d, hd, haccepts⟩ := List.any_eq_true.mp hack
      have hwritten : (writtenResult f cl path req d).observation ∈
          (results f cl path req).map SecretResult.observation :=
        List.mem_map_of_mem (List.mem_append_left _
          (List.mem_map_of_mem (List.mem_filter.mpr ⟨hd, haccepts⟩)))
      obtain ⟨b, htop⟩ := exists_newest DeviceObservation.rank (List.ne_nil_of_mem hwritten)
      refine .newest b hsplit htop ?_
      obtain ⟨r, hr, rfl⟩ := List.mem_map.mp htop.1
      rcases List.mem_append.mp hr with hnew | hold
      · obtain ⟨x, _, rfl⟩ := List.mem_map.mp hnew
        exact effectiveChecksum_written f cl path hlive x
      · -- A remaining copy has a lower version than the write, so it is not the newest.
        have hlt := (lt_nextVersion_iff client f cl path
          (inInt64_metadataVersion r.metadata)).mpr ⟨headroom, seen r hold⟩
        exact absurd (htop.2 _ hwritten) (not_le.mpr (rank_lt_written d hlt))

private def body (password : String) : WriteRequest :=
  { data := (∅ : Std.ExtTreeMap String String).insert "password" password, metadata := none }

private def oldCopy : Token :=
  Hsm.Pkcs11.writeSecret [] "db" (body "old").secretData (some (stampMetadata none 1 (.ofUnix 0)))

private def oldEverywhere : Cluster Token := fun _ => oldCopy

private theorem storable_new (f : Fanout) :
    Storable f oldEverywhere "db" (body "new").secretData where
  named := by decide
  keys := by
    intro key hkey
    rw [WriteRequest.secretData, Std.ExtTreeMap.mem_map, body, Std.ExtTreeMap.mem_insert,
      Std.LawfulEqOrd.compare_eq_iff_eq] at hkey
    obtain rfl : "password" = key := by simpa using hkey
    decide +kernel
  room _ _ _ := ⟨show Hsm.Pkcs11.Fits oldCopy by decide +kernel,
    show (oldCopy.filter _).length + _ + 1 ≤ _ by decide +kernel⟩

private def onlyA (clients : List String) (nodup : clients.Nodup) : Fanout :=
  { clients, nodup, answers := fun _ => true, accepts := fun d => d = "A", now := .ofUnix 60 }

end HsmSecretsOperator.System.ReadBack
