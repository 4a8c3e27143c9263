/- source: internal/api/proxy_client.go, internal/controller/hsmsecret_controller.go,
     internal/hsm/pkcs11_client.go
   digest: The proxy and the controller against the true states of the tokens. -/

import HsmSecretsOperator.Controller.HsmSecret
import HsmSecretsOperator.Hsm.Isolation
import HsmSecretsOperator.Hsm.Objects

set_option autoImplicit false

namespace HsmSecretsOperator.System.Tombstones

open Api.Proxy
open Controller.HsmSecret (decision)
open Foundation.Maps Foundation.Rfc3339 Foundation.Text
open Hsm.Isolation Hsm.Objects
open Hsm.Pkcs11 hiding readSecret readMetadata writeSecret deleteSecret
open Hsm.Secret Reconcile.Resolve

/-- What a device holds for a path. -/
inductive Stored where
  | nothing
  | live (data : SecretData) (metadata : Option SecretMetadata)
  | tombstone (now : Instant)
  deriving DecidableEq

/-- The observation the stored state deserves. -/
def trueObservation (stored : String → Stored) (d : String) : DeviceObservation :=
  match stored d with
  | .nothing => { deviceID := d }
  | .live data m =>
    { deviceID := d, present := true, checksum := calculateChecksum data
      version := metadataVersion m, timestamp := metadataTimestamp m }
  | .tombstone now =>
    { deviceID := d, tombstone := true, version := metadataVersion (some (tombstoneMetadata now))
      timestamp := metadataTimestamp (some (tombstoneMetadata now)) }

/-- What is written under the path on the token: nothing, a copy that is not marked as deleted, or
the tombstone of `DeleteSecret` of the proxy. -/
inductive Holds (path : String) (t : Token) : Stored → Prop
  | nothing (h : t.filter (writtenUnder path) = []) : Holds path t .nothing
  | live {data : SecretData} {metadata : Option SecretMetadata} (hdata : data ≠ ∅)
      (hdeleted : metadataDeleted metadata = false)
      (h : (t.filter (writtenUnder path)).Perm (newObjects path data metadata)) :
      Holds path t (.live data metadata)
  | tombstone {now : Instant}
      (h : (t.filter (writtenUnder path)).Perm (newObjects path ∅ (some (tombstoneMetadata now)))) :
      Holds path t (.tombstone now)

/-- One search covers the token, no label of another path begins with the path, and of a live copy
all keys are read as they were written and at least one is listed under the path. -/
structure Clear (path : String) (t : Token) (stored : Stored) : Prop where
  fits : Fits t
  own : ∀ o ∈ t, hasPrefix o.label path = true → writtenUnder path o = true
  keys : ∀ data metadata, stored = .live data metadata →
    (∀ key ∈ data, Legible path key) ∧ ∃ key ∈ data, listedPath (labelOf path key) = path

section Written

variable {path : String} (hpath : path ≠ "") {t : Token}

include hpath

private theorem belongsTo_of_writtenUnder {o : DataObject} (h : writtenUnder path o = true) :
    belongsTo path o = true := by
  have hfront := hasPrefix_of_writtenUnder h
  have hlabel : o.label ≠ "" := by
    intro hempty
    obtain ⟨r, hr⟩ := hasPrefix_iff.mp hfront
    have hboth : path = "" ∧ r = "" := by simpa [hempty] using congrArg String.toList hr
    exact hpath hboth.1
  simp [belongsTo, hlabel, hfront]

theorem filter_writtenUnder_writeSecret (hfits : Fits t) (data : SecretData)
    (metadata : Option SecretMetadata) :
    (Hsm.Pkcs11.writeSecret t path data metadata).filter (writtenUnder path) =
      newObjects path data metadata := by
  rw [writeSecret_eq, deleteSecretObjects_of_fits hfits, List.filter_append, List.filter_filter,
    List.filter_eq_nil_iff.mpr, List.nil_append, List.filter_eq_self]
  · intro o ho
    simp only [newObjects, List.mem_append, List.mem_map] at ho
    rcases ho with ⟨e, _, rfl⟩ | ⟨m, _, rfl⟩
    · by_cases hdefault : e.1 = defaultKeyName
      · simp [writtenUnder, labelOf, hdefault]
      · simp [writtenUnder, labelOf, hdefault, hasPrefix_append]
    · have hslash : path ++ metadataKeySuffix = path ++ "/" ++ metadataKey := by
        rw [String.append_assoc]
        rfl
      simp [writtenUnder, hslash, hasPrefix_append]
  · intro o _ h
    simp only [Bool.and_eq_true, Bool.not_eq_true'] at h
    rw [belongsTo_of_writtenUnder hpath h.1] at h
    cases h.2

theorem holds_writeSecret {data : SecretData} {metadata : Option SecretMetadata}
    (hdata : data ≠ ∅) (hdeleted : metadataDeleted metadata = false) (hfits : Fits t) :
    Holds path (Hsm.Pkcs11.writeSecret t path data metadata) (.live data metadata) :=
  .live hdata hdeleted (.of_eq (filter_writtenUnder_writeSecret hpath hfits data metadata))

theorem holds_deleteSecret {f : Fanout} {cl : Cluster Token} {d : String} (hd : d ∈ f.clients)
    (haccepts : f.accepts d = true) (hfits : Fits (cl d)) :
    Holds path (Api.Proxy.deleteSecret client f cl path d) (.tombstone f.now) := by
  refine .tombstone (.of_eq ?_)
  simp only [Api.Proxy.deleteSecret, tombstoneDeleteFromAllDevices, hd, haccepts, and_self,
    if_true, client_writeSecret, client_deleteSecret]
  exact filter_writtenUnder_writeSecret hpath (fits_deleteSecretObjects hfits path) ∅ _

end Written

/-- A device that both observers report: it has a live copy. -/
private def visible (stored : String → Stored) (d : String) : Option DeviceObservation :=
  match stored d with
  | .live _ _ => some (trueObservation stored d)
  | _ => none

/-- What the client answers about a token, by what the token holds. -/
private def Answers (path : String) (t : Token) : Stored → Prop
  | .live data m => path ∈ listSecrets t "" ∧ Hsm.Pkcs11.readSecret t path = .ok data ∧
      (Hsm.Pkcs11.readMetadata t path).toOption = m ∧ metadataDeleted m = false
  | .nothing | .tombstone _ => path ∉ listSecrets t "" ∧
      Hsm.Pkcs11.readSecret t path = .error s!"secret not found at path: {path}"

section Answers

variable {path : String} {t : Token} {s : Stored}

private theorem unseen_of_no_entry (hfits : Fits t) (h : t.filterMap (entryOf path) = []) :
    path ∉ listSecrets t "" ∧ Hsm.Pkcs11.readSecret t path =
      .error s!"secret not found at path: {path}" := by
  constructor
  · intro hlisted
    obtain ⟨o, ho, hlabel, hmeta, rfl⟩ := mem_listSecrets.mp hlisted
    have hnone := List.filterMap_eq_nil_iff.mp h o (List.mem_of_mem_take ho)
    simp [entryOf, belongsTo, hlabel, hasPrefix_listedPath, hmeta] at hnone
  · rw [readSecret_eq_secretOf, take_of_fits hfits, h]
    rfl

variable (hclear : Clear path t s)

include hclear

/-- Reads of the path look at what is written under it only. -/
private theorem filterMap_of_clear {α : Type} {f : DataObject → Option α}
    (hf : ∀ o, belongsTo path o = false → f o = none) :
    (t.filter (writtenUnder path)).filterMap f = t.filterMap f := by
  rw [List.filterMap_filter]
  refine List.filterMap_congr fun o ho => ?_
  cases hunder : writtenUnder path o with
  | true => rfl
  | false =>
    have hforeign : belongsTo path o = false := by
      rw [Bool.eq_false_iff]
      intro hbelongs
      simp only [belongsTo, Bool.and_eq_true] at hbelongs
      rw [hclear.own o ho hbelongs.2] at hunder
      cases hunder
    simp [hf o hforeign]

private theorem entries_of_clear {data : SecretData} {metadata : Option SecretMetadata}
    (h : (t.filter (writtenUnder path)).Perm (newObjects path data metadata)) :
    (t.filterMap (entryOf path)).Perm ((newObjects path data metadata).filterMap (entryOf path)) ∧
      (t.filterMap (describedBy path)).Perm
        ((newObjects path data metadata).filterMap (describedBy path)) := by
  rw [← filterMap_of_clear hclear fun _ => entryOf_of_not_belongsTo,
    ← filterMap_of_clear hclear fun _ => describedBy_of_not_belongsTo]
  exact ⟨h.filterMap _, h.filterMap _⟩

private theorem answers_of_holds (hpath : path ≠ "") (h : Holds path t s) : Answers path t s := by
  cases h with
  | nothing h =>
    refine unseen_of_no_entry hclear.fits ?_
    rw [← filterMap_of_clear hclear fun _ => entryOf_of_not_belongsTo, h]
    rfl
  | tombstone h =>
    have hnone := (entries_of_clear hclear h).1
    have hcreated : (newObjects path ∅ (some (tombstoneMetadata ‹_›))).filterMap (entryOf path) =
        [] := by
      simpa [newObjects] using entryOf_of_metadata path rfl
    rw [hcreated] at hnone
    exact unseen_of_no_entry hclear.fits hnone.eq_nil
  | @live data metadata hdata hdeleted h =>
    obtain ⟨hkeys, key, hkey, hlisted⟩ := hclear.keys data metadata rfl
    have hlegible : ∀ e ∈ data.toList, Legible path e.1 := fun e he =>
      hkeys e.1 (mem_of_mem_toList he)
    obtain ⟨hentries, hdescribed⟩ := entries_of_clear hclear h
    rw [newObjects_eq_created, filterMap_entryOf_created hlegible hpath] at hentries
    rw [newObjects_eq_created, filterMap_describedBy_created hlegible] at hdescribed
    refine ⟨?_, ?_, ?_, hdeleted⟩
    · have hobject : (⟨labelOf path key, data[key]⟩ : DataObject) ∈ t := by
        refine (List.mem_filter.mp (h.mem_iff.mpr (List.mem_append_left _
          (List.mem_map.mpr ⟨(key, data[key]), ?_, rfl⟩)))).1
        exact Std.ExtTreeMap.mem_toList_iff_getElem?_eq_some.mpr
          (Std.ExtTreeMap.getElem?_eq_some_getElem hkey)
      rw [mem_listSecrets, take_of_fits hclear.fits]
      exact ⟨_, hobject, labelOf_ne_empty hpath key, (hkeys key hkey).2, hlisted⟩
    · have hne : t.filterMap (entryOf path) ≠ [] := by
        intro hnil
        rw [hnil] at hentries
        exact hdata (by simpa using hentries.symm.eq_nil)
      rw [readSecret_eq_secretOf, take_of_fits hclear.fits, secretOf, if_neg hne,
        assign_of_perm_toList data hentries]
    · rw [readMetadata_eq_metadataOf, take_of_fits hclear.fits]
      cases metadata with
      | none =>
        rw [hdescribed.eq_nil]
        rfl
      | some m =>
        rw [hdescribed.eq_singleton]
        rfl

end Answers

variable {path : String} {tokens : Cluster Token} {stored : String → Stored} {d : String}

private theorem readDevice_of_answers (hanswers : Answers path (tokens d) (stored d)) :
    (Api.Proxy.readDevice client {} tokens path d).map SecretResult.observation =
      visible stored d := by
  cases hs : stored d with
  | live data m =>
    rw [hs] at hanswers
    obtain ⟨-, hdata, hmeta, hdeleted⟩ := hanswers
    have hread : Api.Proxy.readDevice client {} tokens path d = some ⟨d, data, m⟩ := by
      simp only [Api.Proxy.readDevice, client_readSecret, client_readMetadata, Bool.false_eq_true,
        if_false, hdata]
      cases hm : Hsm.Pkcs11.readMetadata (tokens d) path with
      | ok m' => simp [← hmeta, hm, Except.toOption]
      | error e => simp [← hmeta, hm, Except.toOption]
    simp [hread, visible, hs, SecretResult.observation, trueObservation, isSecretDeleted, hdeleted,
      parseVersionFromMetadata, parseTimestampFromMetadata]
  | nothing =>
    rw [hs] at hanswers
    simp [Api.Proxy.readDevice, hanswers.2, visible, hs]
  | tombstone now =>
    rw [hs] at hanswers
    simp [Api.Proxy.readDevice, hanswers.2, visible, hs]

private theorem observation_of_answers (hanswers : Answers path (tokens d) (stored d)) :
    (Controller.HsmSecret.observation client tokens path { serialNumber := d }).filter
      DeviceObservation.hasOpinion = visible stored d := by
  cases hs : stored d with
  | live data m =>
    rw [hs] at hanswers
    obtain ⟨hlisted, hdata, hmeta, hdeleted⟩ := hanswers
    have hread : Controller.HsmSecret.readDevice client tokens path { serialNumber := d } =
        some ⟨data, m⟩ := by
      simp only [Controller.HsmSecret.readDevice, client_readSecret, client_readMetadata, hdata,
        hmeta]
      rfl
    simp [Controller.HsmSecret.observation, hread, hlisted, visible, hs, trueObservation, hdeleted,
      Controller.HsmSecret.DeviceRead.observation, DeviceObservation.hasOpinion, Option.filter]
  | nothing =>
    rw [hs] at hanswers
    simp [Controller.HsmSecret.observation, hanswers.1, visible, hs, DeviceObservation.hasOpinion]
  | tombstone now =>
    rw [hs] at hanswers
    simp [Controller.HsmSecret.observation, hanswers.1, visible, hs, DeviceObservation.hasOpinion]

private theorem live_of_visible {o : DeviceObservation} (h : visible stored d = some o) :
    o.hasOpinion = true ∧ o.deviceID = d ∧ o.effectiveChecksum ≠ tombstoneChecksum := by
  unfold visible at h
  split at h
  next data m hs =>
    obtain rfl := Option.some.inj h
    simp [trueObservation, hs, DeviceObservation.hasOpinion, DeviceObservation.effectiveChecksum,
      calculateChecksum_ne_tombstone]
  next => cases h

private theorem votersOf_collectResults {arrivals : List String}
    (h : ∀ d ∈ arrivals, Answers path (tokens d) (stored d)) :
    votersOf ((collectResults client {} tokens path arrivals).map SecretResult.observation) =
      arrivals.filterMap (visible stored) := by
  have hmap : (collectResults client {} tokens path arrivals).map SecretResult.observation =
      arrivals.filterMap (visible stored) := by
    rw [collectResults, List.map_filterMap]
    exact List.filterMap_congr fun d hd => readDevice_of_answers (h d hd)
  rw [hmap, votersOf, List.filter_eq_self]
  intro o ho
  obtain ⟨d, hd, hvisible⟩ := List.mem_filterMap.mp ho
  exact (live_of_visible hvisible).1

private theorem votersOf_gathered {devices : List String}
    (h : ∀ d ∈ devices, Answers path (tokens d) (stored d)) :
    votersOf (Controller.HsmSecret.gatherSecretObservations client tokens path
      (devices.map fun d => { serialNumber := d })).observations =
      devices.filterMap (visible stored) := by
  rw [Controller.HsmSecret.gatherSecretObservations_observations, votersOf, List.filterMap_map,
    List.filter_filterMap]
  exact List.filterMap_congr fun d hd => observation_of_answers (h d hd)

private theorem votersOf_trueObservation {devices : List String}
    (h : ∀ d ∈ devices, ∀ now, stored d ≠ .tombstone now) :
    votersOf (devices.map (trueObservation stored)) = devices.filterMap (visible stored) := by
  rw [votersOf, ← List.filterMap_eq_filter, List.filterMap_map]
  refine List.filterMap_congr fun d hd => ?_
  cases hs : stored d with
  | nothing => simp [trueObservation, visible, hs, DeviceObservation.hasOpinion, Option.guard]
  | live data m => simp [trueObservation, visible, hs, DeviceObservation.hasOpinion, Option.guard]
  | tombstone now => exact absurd hs (h d hd now)

/-- A tombstone whose device the observer does not report changes the verdict: the true one is
either a deletion or counts the device as an outlier. -/
private theorem resolve_ne_of_hidden {obs seen : List DeviceObservation} {v : DeviceObservation}
    (hv : v ∈ obs) (htomb : v.tombstone = true) (hseen : ∀ w ∈ votersOf seen,
      w.deviceID ≠ v.deviceID ∧ w.effectiveChecksum ≠ tombstoneChecksum) (n : Nat) :
    resolve seen n ≠ resolve obs n := by
  intro heq
  have hvoter : v ∈ votersOf obs := List.mem_filter.mpr ⟨hv, by
    simp [DeviceObservation.hasOpinion, htomb]⟩
  have hfound := (resolve_found_iff obs n).mpr (List.ne_nil_of_mem hvoter)
  rw [← heq, resolve_found_iff] at hfound
  obtain ⟨w, hw, _, hchecksum⟩ := resolve_winner_holds hfound n
  have houtlier : v.deviceID ∈ (resolve obs n).outliers := by
    refine mem_resolve_outliers.mpr ⟨v, hvoter, rfl, ?_⟩
    rw [← heq, ← hchecksum]
    intro hsame
    refine (hseen w hw).2 (hsame.symm.trans ?_)
    simp [DeviceObservation.effectiveChecksum, htomb]
  rw [← heq, mem_resolve_outliers] at houtlier
  obtain ⟨u, hu, hid, _⟩ := houtlier
  exact (hseen u hu).1 hid

private theorem resolve_eq_iff {obs seen : List DeviceObservation} {devices : List String}
    (hseen : votersOf seen = devices.filterMap (visible stored))
    (hobs : obs = devices.map (trueObservation stored)) (n : Nat) :
    resolve seen n = resolve obs n ↔ ∀ d ∈ devices, ∀ now, stored d ≠ .tombstone now := by
  subst hobs
  constructor
  · intro heq d hd now hs
    refine resolve_ne_of_hidden (v := trueObservation stored d) (List.mem_map_of_mem hd)
      (by simp [trueObservation, hs]) ?_ n heq
    intro w hw
    rw [hseen] at hw
    obtain ⟨x, _, hvisible⟩ := List.mem_filterMap.mp hw
    obtain ⟨_, hid, hchecksum⟩ := live_of_visible hvisible
    refine ⟨?_, hchecksum⟩
    have hdid : (trueObservation stored d).deviceID = d := by simp [trueObservation, hs]
    rw [hid, hdid]
    rintro rfl
    simp [visible, hs] at hvisible
  · intro h
    exact resolve_congr (hseen.trans (votersOf_trueObservation h).symm) n

/-- On tokens on which nothing else gets into the way, the verdicts of the proxy and of the
controller are the true ones exactly when no device holds the tombstone. Each is compared on the
devices in the order in which it takes them up. -/
theorem verdicts_true_iff (path : String) (hpath : path ≠ "") (tokens : Cluster Token)
    (stored : String → Stored) (devices arrivals : List String) (hperm : arrivals.Perm devices)
    (h : ∀ d ∈ devices, Holds path (tokens d) (stored d))
    (hclear : ∀ d ∈ devices, Clear path (tokens d) (stored d)) :
    (readVerdict (collectResults client {} tokens path arrivals) devices.length =
        resolve (arrivals.map (trueObservation stored)) devices.length ∧
      decision client tokens path (devices.map fun d => { serialNumber := d }) =
        resolve (devices.map (trueObservation stored)) devices.length) ↔
      ∀ d ∈ devices, ∀ now, stored d ≠ .tombstone now := by
  have hanswers : ∀ d ∈ devices, Answers path (tokens d) (stored d) := fun d hd =>
    answers_of_holds (hclear d hd) hpath (h d hd)
  have hproxy := resolve_eq_iff
    (votersOf_collectResults fun d hd => hanswers d (hperm.mem_iff.mp hd)) rfl devices.length
  have hcontroller := resolve_eq_iff (votersOf_gathered hanswers) rfl devices.length
  rw [readVerdict, decision, List.length_map, hproxy, hcontroller]
  simp [hperm.mem_iff]

private def midnight : Instant := .ofUnix 1735689600

private def password : SecretData := (∅ : SecretData).insert "password" (utf8 "hunter2")

private def written : Token :=
  Hsm.Pkcs11.writeSecret [] "db" password (some (stampMetadata none 1 midnight))

private theorem holds_written :
    Holds "db" written (.live password (some (stampMetadata none 1 midnight))) := by
  refine holds_writeSecret ?_ ?_ ?_ ?_ <;> decide +kernel

private def deletedOn (clients : List String) (nodup : clients.Nodup) : Cluster Token :=
  Api.Proxy.deleteSecret client (.reaching clients nodup midnight) (fun _ => written) "db"

private def storedOn (clients : List String) (d : String) : Stored :=
  if d ∈ clients then .tombstone midnight
  else .live password (some (stampMetadata none 1 midnight))

private theorem holds_deletedOn (clients : List String) (nodup : clients.Nodup) (d : String) :
    Holds "db" (deletedOn clients nodup d) (storedOn clients d) := by
  have hfits : Fits written := by decide +kernel
  by_cases hd : d ∈ clients
  · rw [storedOn, if_pos hd]
    have htombstone : Holds "db" (Api.Proxy.deleteSecret client (.reaching clients nodup midnight)
        (fun _ => written) "db" d) (.tombstone midnight) :=
      holds_deleteSecret (by decide) hd rfl hfits
    exact htombstone
  · have hkept : deletedOn clients nodup d = written := if_neg fun h => hd h.1
    rw [storedOn, if_neg hd, hkept]
    exact holds_written

private theorem clear_written (d : String) :
    Clear "db" (deletedOn [] (by decide) d) (storedOn [] d) where
  fits := show Fits written by decide +kernel
  own := show ∀ o ∈ written, hasPrefix o.label "db" = true → writtenUnder "db" o = true by
    decide +kernel
  keys := by
    intro data metadata hlive
    obtain ⟨rfl, rfl⟩ := Stored.live.inj (hlive : Stored.live _ _ = _)
    refine ⟨fun key hkey => ?_, "password", by decide +kernel, by decide +kernel⟩
    rw [password, Std.ExtTreeMap.mem_insert, Std.LawfulEqOrd.compare_eq_iff_eq] at hkey
    obtain rfl : "password" = key := by simpa using hkey
    decide +kernel

/-- Two of three devices hold the tombstone, and both verdicts still name the third's copy. -/
theorem deleted_db_still_found :
    (∀ d ∈ ["A", "B", "C"],
      Holds "db" (deletedOn ["A", "B"] (by decide) d) (storedOn ["A", "B"] d)) ∧
    (resolve (["A", "B", "C"].map (trueObservation (storedOn ["A", "B"]))) 3).deleted = true ∧
    (readVerdict (collectResults client {} (deletedOn ["A", "B"] (by decide)) "db"
      ["A", "B", "C"]) 3).deleted = false ∧
    (decision client (deletedOn ["A", "B"] (by decide)) "db"
      (["A", "B", "C"].map fun d => { serialNumber := d })).deleted = false := by
  refine ⟨fun d _ => holds_deletedOn _ _ d, ?_, ?_, ?_⟩
  · decide +kernel
  · decide +kernel
  · decide +kernel

theorem verdicts_true_undeleted_db :
    (∀ d ∈ ["A", "B"], Holds "db" (deletedOn [] (by decide) d) (storedOn [] d)) ∧
    readVerdict (collectResults client {} (deletedOn [] (by decide)) "db" ["B", "A"]) 2 =
      resolve (["B", "A"].map (trueObservation (storedOn []))) 2 ∧
    decision client (deletedOn [] (by decide)) "db"
        (["A", "B"].map fun d => { serialNumber := d }) =
      resolve (["A", "B"].map (trueObservation (storedOn []))) 2 := by
  have holds : ∀ d ∈ ["A", "B"], Holds "db" (deletedOn [] (by decide) d) (storedOn [] d) :=
    fun d _ => holds_deletedOn _ _ d
  refine ⟨holds, (verdicts_true_iff "db" (by decide) _ _ ["A", "B"] ["B", "A"] (by decide) holds
    fun d _ => clear_written d).mpr ?_⟩
  intro d _ now
  simp [storedOn]

end HsmSecretsOperator.System.Tombstones
