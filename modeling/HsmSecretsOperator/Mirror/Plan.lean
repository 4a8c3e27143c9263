/- source: internal/mirror/manager.go
   digest: The inventory of a secret across devices and the plan that repairs it. -/

import HsmSecretsOperator.Hsm.Secret
import HsmSecretsOperator.Reconcile.Resolve

/-! The entries come in the order in which the map of the inventory yields them. -/

set_option autoImplicit false

namespace HsmSecretsOperator.Mirror.Plan

open Foundation.Decimal Foundation.Rfc3339 Foundation.Sha256 Foundation.Text Hsm.Secret
open Reconcile.Resolve

/-- The state of a secret on a specific device; times are unix seconds. -/
structure SecretState where
  present : Bool := false
  version : Int := 0
  timestamp : Int
  checksum : String := ""
  hasMetadata : Bool := false
  error : Option String := none
  deriving DecidableEq

def parseVersion (versionStr : String) : Option Int := sscanfD versionStr

def sortStrings {κ : Type} [LE κ] [DecidableLE κ] (keys : List κ) : List κ :=
  keys.insertionSort (· ≤ ·)

/-- The mirror's own checksum, of a map that yields its keys in the given order: no `sha256:` in
front, keys sorted by the library. -/
def checksumOfKeys {κ : Type} [LE κ] [DecidableLE κ] (bytes value : κ → Bytes) (order : List κ) :
    String :=
  sprintfX (digest (checksumInput bytes value (sortStrings order)))

def calculateChecksum (data : SecretData) : String :=
  checksumOfKeys utf8 (fun k => data.getD k []) data.keys

theorem calculateChecksum_eq (data : SecretData) :
    calculateChecksum data = sprintfX (digest (stream data)) := by
  rw [calculateChecksum, checksumOfKeys, sortStrings, (keys_sorted data).insertionSort_eq, stream]

/-- The sync version of a copy, when there is one that parses. -/
def versionLabel (metadata : Option SecretMetadata) : Option Int :=
  (metadata.bind (·.labels["sync.version"]?)).bind parseVersion

def timestampLabel (metadata : Option SecretMetadata) : Option Int :=
  (metadata.bind (·.labels["sync.timestamp"]?)).bind parseRFC3339

theorem versionLabel_of_label {m : SecretMetadata} {v : Int} (hv : InInt64 v)
    (h : m.labels["sync.version"]? = some (sprintfD v)) : versionLabel (some m) = some v := by
  rw [versionLabel, Option.bind_some, h, Option.bind_some, parseVersion, sscanfD_sprintfD hv]

theorem timestampLabel_of_label {m : SecretMetadata} {t : Instant}
    (h : m.labels["sync.timestamp"]? = some (formatRFC3339 t)) :
    timestampLabel (some m) = some (t.unix : Int) := by
  rw [timestampLabel, Option.bind_some, h, Option.bind_some, parseRFC3339_formatRFC3339]

/-- The state of a device that answered: `data` is none when the read failed. -/
def stateOf (now : Int) (data : Option SecretData) (metadata : Option SecretMetadata) :
    SecretState :=
  match data with
  | none => { timestamp := now }
  | some data =>
    { present := true
      version := (versionLabel metadata).getD 0
      timestamp := (timestampLabel metadata).getD now
      checksum := calculateChecksum data
      hasMetadata := (versionLabel metadata).isSome }

inductive MirrorType where
  | skip
  | update
  | create
  | restoreMetadata
  deriving DecidableEq

structure SecretMirrorPlan where
  secretPath : String
  sourceDevice : String
  sourceVersion : Int
  targetDevices : List String
  mirrorType : MirrorType
  deriving DecidableEq

abbrev Entry := String × SecretState

def responding (entries : List Entry) : List Entry := entries.filter fun e => e.2.error.isNone

def devicesWithSecret (entries : List Entry) : List String :=
  ((responding entries).filter fun e => e.2.present).map Prod.fst

def devicesNeedingSecret (entries : List Entry) : List String :=
  ((responding entries).filter fun e => !e.2.present).map Prod.fst

def devicesNeedingMetadata (entries : List Entry) : List String :=
  ((responding entries).filter fun e => e.2.present && !e.2.hasMetadata).map Prod.fst

def observationOf (e : Entry) : DeviceObservation :=
  if e.2.present then
    { deviceID := e.1
      present := true
      checksum := e.2.checksum
      version := e.2.version
      timestamp := e.2.timestamp }
  else { deviceID := e.1 }

def removeDuplicates (slice : List String) : List String :=
  slice.foldl (fun result item => if item ∈ result then result else result ++ [item]) []

def removeDevice (devices : List String) (deviceToRemove : String) : List String :=
  devices.filter fun d => d ≠ deviceToRemove

/-- The verdict of the shared resolver on the responding devices. -/
def verdict (entries : List Entry) : Decision :=
  resolve ((responding entries).map observationOf) (responding entries).length

/-- One type for the whole list of targets: creation before metadata before update. -/
def syncType (entries : List Entry) : MirrorType :=
  if devicesNeedingSecret entries ≠ [] then .create
  else if devicesNeedingMetadata entries ≠ [] then .restoreMetadata
  else if (verdict entries).outliers ≠ [] then .update
  else .skip

def targetDevices (entries : List Entry) : List String :=
  removeDevice (removeDuplicates (devicesNeedingSecret entries ++ devicesNeedingMetadata entries ++
    (verdict entries).outliers)) (verdict entries).winningDeviceID

def sourceVersion (entries : List Entry) (sourceDevice : String) : Int :=
  match entries.find? fun e => e.1 = sourceDevice with
  | some e => e.2.version
  | none => 0

def createMirrorPlanForSecret (secretPath : String) (entries : List Entry) :
    Option SecretMirrorPlan :=
  if devicesWithSecret entries = [] then none
  else
    let sourceDevice := (verdict entries).winningDeviceID
    let skip : SecretMirrorPlan :=
      { secretPath, sourceDevice, sourceVersion := sourceVersion entries sourceDevice
        targetDevices := [], mirrorType := .skip }
    if !(verdict entries).diverged && (devicesNeedingSecret entries).isEmpty &&
        (devicesNeedingMetadata entries).isEmpty then some skip
    else if targetDevices entries = [] then some skip
    else some { skip with targetDevices := targetDevices entries, mirrorType := syncType entries }

private theorem foldl_removeDuplicates (slice result : List String) (hnodup : result.Nodup) :
    (slice.foldl (fun result item => if item ∈ result then result else result ++ [item])
      result).Nodup ∧ ∀ x, x ∈ slice.foldl
        (fun result item => if item ∈ result then result else result ++ [item]) result ↔
          x ∈ result ∨ x ∈ slice := by
  induction slice generalizing result with
  | nil => exact ⟨hnodup, by simp⟩
  | cons y slice ih =>
    rw [List.foldl_cons]
    by_cases hy : y ∈ result
    · rw [if_pos hy]
      refine ⟨(ih result hnodup).1, fun x => ?_⟩
      rw [(ih result hnodup).2, List.mem_cons]
      constructor
      · rintro (h | h)
        · exact .inl h
        · exact .inr (.inr h)
      · rintro (h | rfl | h)
        · exact .inl h
        · exact .inl hy
        · exact .inr h
    · rw [if_neg hy]
      have hnodup' : (result ++ [y]).Nodup := by
        rw [← List.concat_eq_append]
        exact hnodup.concat hy
      refine ⟨(ih _ hnodup').1, fun x => ?_⟩
      rw [(ih _ hnodup').2]
      simp [or_assoc]

theorem nodup_removeDuplicates (slice : List String) : (removeDuplicates slice).Nodup :=
  (foldl_removeDuplicates slice [] .nil).1

theorem mem_removeDuplicates {slice : List String} {x : String} :
    x ∈ removeDuplicates slice ↔ x ∈ slice :=
  ((foldl_removeDuplicates slice [] .nil).2 x).trans (by simp)

variable {entries : List Entry} {d : String}

/-- The voters of the planner's election: copies on devices that responded. -/
def voters (entries : List Entry) : List DeviceObservation :=
  votersOf ((responding entries).map observationOf)

theorem mem_voters {v : DeviceObservation} : v ∈ voters entries ↔
    ∃ e ∈ entries, e.2.error = none ∧ e.2.present = true ∧ observationOf e = v := by
  simp only [voters, votersOf, responding, List.mem_filter, List.mem_map, Option.isNone_iff_eq_none]
  constructor
  · rintro ⟨⟨e, ⟨he, herror⟩, rfl⟩, hopinion⟩
    refine ⟨e, he, herror, ?_, rfl⟩
    by_contra hpresent
    simp [observationOf, hpresent, DeviceObservation.hasOpinion] at hopinion
  · rintro ⟨e, he, herror, hpresent, rfl⟩
    refine ⟨⟨e, ⟨he, herror⟩, rfl⟩, ?_⟩
    simp [observationOf, hpresent, DeviceObservation.hasOpinion]

theorem deviceID_observationOf (e : Entry) : (observationOf e).deviceID = e.1 := by
  unfold observationOf
  split
  · rfl
  · rfl

theorem effectiveChecksum_observationOf {e : Entry} (h : e.2.present = true) :
    (observationOf e).effectiveChecksum = e.2.checksum := by
  simp [observationOf, h, DeviceObservation.effectiveChecksum]

theorem devicesWithSecret_eq_nil_iff : devicesWithSecret entries = [] ↔ voters entries = [] := by
  rw [List.eq_nil_iff_forall_not_mem, List.eq_nil_iff_forall_not_mem]
  constructor
  · intro h v hv
    obtain ⟨e, he, herror, hpresent, _⟩ := mem_voters.mp hv
    refine h e.1 (List.mem_map_of_mem ?_)
    simp [responding, he, herror, hpresent]
  · intro h d hd
    obtain ⟨e, he, rfl⟩ := List.mem_map.mp hd
    simp only [responding, List.mem_filter, Option.isNone_iff_eq_none] at he
    exact h _ (mem_voters.mpr ⟨e, he.1.1, he.1.2, he.2, rfl⟩)

theorem verdict_found_iff : (verdict entries).found = true ↔ voters entries ≠ [] :=
  resolve_found_iff _ _

/-- The source of a plan is a device with a copy of the winning content. -/
theorem exists_source (h : voters entries ≠ []) : ∃ e ∈ entries, e.2.error = none ∧
    e.2.present = true ∧ e.1 = (verdict entries).winningDeviceID ∧
      e.2.checksum = (verdict entries).winningChecksum := by
  obtain ⟨v, hv, hid, hchecksum⟩ := resolve_winner_holds h (responding entries).length
  obtain ⟨e, he, herror, hpresent, rfl⟩ := mem_voters.mp hv
  rw [deviceID_observationOf] at hid
  rw [effectiveChecksum_observationOf hpresent] at hchecksum
  exact ⟨e, he, herror, hpresent, hid, hchecksum⟩

theorem mem_outliers : d ∈ (verdict entries).outliers ↔ ∃ e ∈ entries, e.2.error = none ∧
    e.2.present = true ∧ e.1 = d ∧ e.2.checksum ≠ (verdict entries).winningChecksum := by
  rw [verdict, mem_resolve_outliers]
  constructor
  · rintro ⟨v, hv, rfl, hchecksum⟩
    obtain ⟨e, he, herror, hpresent, rfl⟩ := mem_voters.mp hv
    rw [effectiveChecksum_observationOf hpresent] at hchecksum
    exact ⟨e, he, herror, hpresent, (deviceID_observationOf e).symm, hchecksum⟩
  · rintro ⟨e, he, herror, hpresent, rfl, hchecksum⟩
    refine ⟨observationOf e, mem_voters.mpr ⟨e, he, herror, hpresent, rfl⟩,
      deviceID_observationOf e, ?_⟩
    rwa [effectiveChecksum_observationOf hpresent]

theorem mem_devicesNeedingSecret : d ∈ devicesNeedingSecret entries ↔
    ∃ e ∈ entries, e.2.error = none ∧ e.1 = d ∧ e.2.present = false := by
  simp only [devicesNeedingSecret, responding, List.mem_map, List.mem_filter,
    Option.isNone_iff_eq_none, Bool.not_eq_true', and_assoc]
  exact exists_congr fun e => by tauto

theorem mem_devicesNeedingMetadata : d ∈ devicesNeedingMetadata entries ↔
    ∃ e ∈ entries, e.2.error = none ∧ e.1 = d ∧ e.2.present = true ∧ e.2.hasMetadata = false := by
  simp only [devicesNeedingMetadata, responding, List.mem_map, List.mem_filter,
    Option.isNone_iff_eq_none, Bool.and_eq_true, Bool.not_eq_true', and_assoc]
  exact exists_congr fun e => by tauto

theorem mem_targetDevices : d ∈ targetDevices entries ↔
    d ≠ (verdict entries).winningDeviceID ∧ ∃ e ∈ entries, e.2.error = none ∧ e.1 = d ∧
      (e.2.present = true → e.2.hasMetadata = true →
        e.2.checksum ≠ (verdict entries).winningChecksum) := by
  simp only [targetDevices, removeDevice, List.mem_filter, decide_eq_true_eq, mem_removeDuplicates,
    List.mem_append, mem_devicesNeedingSecret, mem_devicesNeedingMetadata, mem_outliers]
  rw [and_comm]
  refine and_congr_right fun _ => ?_
  constructor
  · rintro ((⟨e, he, herror, hd, hpresent⟩ | ⟨e, he, herror, hd, _, hmeta⟩) |
      ⟨e, he, herror, _, hd, hchecksum⟩)
    · exact ⟨e, he, herror, hd, fun h => by simp [hpresent] at h⟩
    · exact ⟨e, he, herror, hd, fun _ h => by simp [hmeta] at h⟩
    · exact ⟨e, he, herror, hd, fun _ _ => hchecksum⟩
  · rintro ⟨e, he, herror, hd, h⟩
    cases hpresent : e.2.present with
    | false => exact .inl (.inl ⟨e, he, herror, hd, hpresent⟩)
    | true =>
      cases hmeta : e.2.hasMetadata with
      | false => exact .inl (.inr ⟨e, he, herror, hd, hpresent, hmeta⟩)
      | true => exact .inr ⟨e, he, herror, hpresent, hd, h hpresent hmeta⟩

theorem nodup_targetDevices (entries : List Entry) : (targetDevices entries).Nodup :=
  (nodup_removeDuplicates _).filter _

theorem createMirrorPlanForSecret_eq (secretPath : String) (entries : List Entry) :
    createMirrorPlanForSecret secretPath entries =
      if voters entries = [] then none
      else some
        { secretPath
          sourceDevice := (verdict entries).winningDeviceID
          sourceVersion := sourceVersion entries (verdict entries).winningDeviceID
          targetDevices := targetDevices entries
          mirrorType := if targetDevices entries = [] then .skip else syncType entries } := by
  by_cases hvoters : voters entries = []
  · rw [if_pos hvoters]
    exact if_pos (devicesWithSecret_eq_nil_iff.mpr hvoters)
  · rw [if_neg hvoters, createMirrorPlanForSecret,
      if_neg fun h => hvoters (devicesWithSecret_eq_nil_iff.mp h)]
    dsimp only
    by_cases htargets : targetDevices entries = []
    · simp only [htargets, if_true, ite_self]
    · -- A target is in one of the three lists, so the first test of the planner fails.
      have hneeds : ¬ (!(verdict entries).diverged && (devicesNeedingSecret entries).isEmpty &&
          (devicesNeedingMetadata entries).isEmpty) = true := by
        simp only [Bool.and_eq_true, Bool.not_eq_true', List.isEmpty_iff]
        rintro ⟨⟨hdiverged, hsecret⟩, hmetadata⟩
        have houtliers : (verdict entries).outliers = [] := by
          by_contra hne
          have := (resolve_diverged_iff _ _).mpr hne
          simp [verdict] at hdiverged this
          simp [hdiverged] at this
        refine htargets ?_
        simp [targetDevices, hsecret, hmetadata, houtliers, removeDuplicates, removeDevice]
      rw [if_neg hneeds, if_neg htargets, if_neg htargets]

theorem syncType_eq_restoreMetadata_iff : syncType entries = .restoreMetadata ↔
    devicesNeedingSecret entries = [] ∧ devicesNeedingMetadata entries ≠ [] := by
  unfold syncType
  by_cases hsecret : devicesNeedingSecret entries = []
  · by_cases hmetadata : devicesNeedingMetadata entries = []
    · rw [if_neg (not_not.mpr hsecret), if_neg (not_not.mpr hmetadata)]
      split
      all_goals simp [hmetadata]
    · rw [if_neg (not_not.mpr hsecret), if_pos hmetadata]
      simp [hsecret, hmetadata]
  · rw [if_pos hsecret]
    simp [hsecret]

theorem syncType_ne_skip (h : targetDevices entries ≠ []) : syncType entries ≠ .skip := by
  intro hskip
  unfold syncType at hskip
  split at hskip
  · cases hskip
  next hsecret =>
    split at hskip
    · cases hskip
    next hmetadata =>
      split at hskip
      · cases hskip
      next houtliers =>
        refine h ?_
        simp_all [targetDevices, removeDuplicates, removeDevice]

theorem voters_eq_nil_iff : voters entries = [] ↔
    ∀ e ∈ entries, e.2.error = none → e.2.present = false := by
  rw [List.eq_nil_iff_forall_not_mem]
  constructor
  · intro h e he herror
    rw [Bool.eq_false_iff]
    intro hpresent
    exact h _ (mem_voters.mpr ⟨e, he, herror, hpresent, rfl⟩)
  · intro h v hv
    obtain ⟨e, he, herror, hpresent, _⟩ := mem_voters.mp hv
    rw [h e he herror] at hpresent
    cases hpresent

theorem eq_of_device (hdistinct : (entries.map Prod.fst).Nodup) {e e' : Entry} (he : e ∈ entries)
    (he' : e' ∈ entries) (h : e.1 = e'.1) : e = e' :=
  List.inj_on_of_nodup_map hdistinct he he' h

private theorem sourceVersion_eq (hdistinct : (entries.map Prod.fst).Nodup) {e : Entry}
    (he : e ∈ entries) : sourceVersion entries e.1 = e.2.version := by
  unfold sourceVersion
  cases hfind : entries.find? fun e' => e'.1 = e.1 with
  | none =>
    have hnone := List.find?_eq_none.mp hfind e he
    simp at hnone
  | some e' =>
    have hname : e'.1 = e.1 := by simpa using List.find?_some hfind
    rw [eq_of_device hdistinct (List.mem_of_find?_eq_some hfind) he hname]

/-- A device that answered and has no complete copy of the content with the checksum. -/
def NeedsSync (checksum : String) (e : Entry) : Prop :=
  e.2.error = none ∧
    (e.2.present = false ∨ e.2.hasMetadata = false ∨ e.2.checksum ≠ checksum)

theorem mem_targetDevices_iff : d ∈ targetDevices entries ↔
    d ≠ (verdict entries).winningDeviceID ∧
      ∃ e ∈ entries, e.1 = d ∧ NeedsSync (verdict entries).winningChecksum e := by
  rw [mem_targetDevices]
  refine and_congr_right fun _ => exists_congr fun e => and_congr_right fun _ => ?_
  rw [NeedsSync, and_left_comm]
  refine and_congr_right fun _ => and_congr_right fun _ => ?_
  cases e.2.present <;> cases e.2.hasMetadata <;> simp

private theorem skip_iff_no_targets : (if targetDevices entries = [] then MirrorType.skip
    else syncType entries) = .skip ↔ targetDevices entries = [] := by
  constructor
  · intro h
    by_contra htargets
    rw [if_neg htargets] at h
    exact syncType_ne_skip htargets h
  · intro h
    exact if_pos h

/-- What the planner decides for a secret, in whichever order the map of the inventory yields the
devices. -/
theorem createMirrorPlanForSecret_spec (secretPath : String) (entries : List Entry)
    (hdistinct : (entries.map Prod.fst).Nodup) :
    (createMirrorPlanForSecret secretPath entries = none ↔
      ∀ e ∈ entries, e.2.error = none → e.2.present = false) ∧
    ∀ plan, createMirrorPlanForSecret secretPath entries = some plan →
      plan.secretPath = secretPath ∧
      (∃ e ∈ entries, e.1 = plan.sourceDevice ∧ e.2.version = plan.sourceVersion ∧
        e.2.error = none ∧ e.2.present = true ∧
        e.2.checksum = (verdict entries).winningChecksum) ∧
      plan.targetDevices.Nodup ∧
      (∀ d, d ∈ plan.targetDevices ↔ d ≠ plan.sourceDevice ∧
        ∃ e ∈ entries, e.1 = d ∧ NeedsSync (verdict entries).winningChecksum e) ∧
      (∀ e ∈ entries, e.2.error ≠ none →
        e.1 ≠ plan.sourceDevice ∧ e.1 ∉ plan.targetDevices) ∧
      (plan.mirrorType = .skip ↔ plan.targetDevices = []) := by
  rw [createMirrorPlanForSecret_eq, ← voters_eq_nil_iff]
  constructor
  · split
    next hvoters => simp [hvoters]
    next hvoters => simp [hvoters]
  · intro plan hplan
    split at hplan
    · cases hplan
    next hvoters =>
    obtain rfl := Option.some.inj hplan
    obtain ⟨source, hsource, herror, hpresent, hid, hchecksum⟩ := exists_source hvoters
    refine ⟨rfl, ⟨source, hsource, hid, ?_, herror, hpresent, hchecksum⟩,
      nodup_targetDevices entries, fun d => mem_targetDevices_iff, ?_, skip_iff_no_targets⟩
    · rw [← hid, sourceVersion_eq hdistinct hsource]
    · intro e he hfailed
      constructor
      · intro heq
        rw [eq_of_device hdistinct he hsource (heq.trans hid.symm)] at hfailed
        exact hfailed herror
      · intro htarget
        obtain ⟨_, e', he', hname, hneeds⟩ := mem_targetDevices_iff.mp htarget
        rw [eq_of_device hdistinct he he' hname.symm] at hfailed
        exact hfailed hneeds.1

private def mixed : List Entry :=
  [("D", { present := true, version := 3, timestamp := 0, checksum := "x", hasMetadata := true }),
   ("E", { timestamp := 0, error := some "device not connected" }),
   ("A", { timestamp := 0 }),
   ("B", { present := true, version := 0, timestamp := 5, checksum := "x" }),
   ("C", { present := true, version := 2, timestamp := 0, checksum := "y", hasMetadata := true })]

theorem createMirrorPlanForSecret_spec_mixed :
    createMirrorPlanForSecret "db" mixed = some
      { secretPath := "db", sourceDevice := "B", sourceVersion := 0, targetDevices := ["A", "C"]
        mirrorType := .create } ∧
    "B" ∉ ["A", "C"] ∧ "E" ∉ ["A", "C"] := by
  have hplan : createMirrorPlanForSecret "db" mixed = some
      { secretPath := "db", sourceDevice := "B", sourceVersion := 0, targetDevices := ["A", "C"]
        mirrorType := .create } := by decide +kernel
  obtain ⟨_, hspec⟩ := createMirrorPlanForSecret_spec "db" mixed (by decide)
  obtain ⟨_, _, _, htargets, herrors, _⟩ := hspec _ hplan
  refine ⟨hplan, ?_, ?_⟩
  · intro hmem
    exact ((htargets "B").mp hmem).1 rfl
  · exact (herrors ("E", { timestamp := 0, error := some "device not connected" }) (by decide)
      (by decide)).2

/-- Every device that answered holds the secret, with sync metadata and one checksum. -/
def InSync (entries : List Entry) : Prop :=
  ∃ checksum, ∀ e ∈ entries, e.2.error = none → e.2.present = true ∧ e.2.hasMetadata = true ∧
    e.2.checksum = checksum

/-- The devices that answered hold one content, and only the first of them by name has no sync
metadata. -/
def OnlyFirstLacksMetadata (entries : List Entry) : Prop :=
  ∃ e ∈ responding entries, e.2.hasMetadata = false ∧
    e.1 = lowestDeviceWithChecksum ((responding entries).map observationOf) e.2.checksum ∧
    ∀ e' ∈ responding entries, e'.2.present = true ∧ e'.2.checksum = e.2.checksum ∧
      (e' ≠ e → e'.2.hasMetadata = true)

theorem mem_responding {e : Entry} : e ∈ responding entries ↔ e ∈ entries ∧ e.2.error = none := by
  simp only [responding, List.mem_filter, Option.isNone_iff_eq_none]

private theorem voters_eq_of_all_present (h : ∀ e ∈ responding entries, e.2.present = true) :
    voters entries = (responding entries).map observationOf := by
  rw [voters, votersOf, List.filter_eq_self]
  intro v hv
  obtain ⟨e, he, rfl⟩ := List.mem_map.mp hv
  simp [observationOf, h e he, DeviceObservation.hasOpinion]

private theorem winningDeviceID_eq (h : voters entries ≠ []) :
    (verdict entries).winningDeviceID =
      lowestDeviceWithChecksum (voters entries) (verdict entries).winningChecksum :=
  resolve_winningDeviceID h _

/-- A plan to skip leaves a device out of sync exactly if only the first device by name lacks
metadata: that device is then the source, and the only target taken from the list. -/
theorem inSync_of_skip_iff (hdistinct : (entries.map Prod.fst).Nodup) (secretPath : String) :
    (∀ plan, createMirrorPlanForSecret secretPath entries = some plan →
      plan.mirrorType = .skip → InSync entries) ↔ ¬ OnlyFirstLacksMetadata entries := by
  rw [createMirrorPlanForSecret_eq]
  constructor
  · rintro h ⟨e, he, hmetadata, hfirst, hall⟩
    obtain ⟨hmem, herror⟩ := mem_responding.mp he
    have hvoters := voters_eq_of_all_present fun e' he' => (hall e' he').1
    have hne : voters entries ≠ [] := by
      rw [hvoters]
      exact List.ne_nil_of_mem (List.mem_map_of_mem he)
    have hchecksum : (verdict entries).winningChecksum = e.2.checksum := by
      obtain ⟨source, hsource, herror', _, _, hsum⟩ := exists_source hne
      rw [← hsum, (hall source (mem_responding.mpr ⟨hsource, herror'⟩)).2.1]
    have hsource : (verdict entries).winningDeviceID = e.1 := by
      rw [winningDeviceID_eq hne, hvoters, hchecksum, hfirst]
    have htargets : targetDevices entries = [] := by
      rw [List.eq_nil_iff_forall_not_mem]
      intro d hd
      obtain ⟨hnotSource, e', he', rfl, herror', hneeds⟩ := mem_targetDevices_iff.mp hd
      rw [hsource] at hnotSource
      obtain ⟨hpresent, hsum, hother⟩ := hall e' (mem_responding.mpr ⟨he', herror'⟩)
      have hcomplete := hother fun heq => hnotSource (congrArg Prod.fst heq)
      rw [hpresent, hcomplete, hchecksum] at hneeds
      simp [hsum] at hneeds
    rw [if_neg hne] at h
    obtain ⟨_, hsync⟩ := h _ rfl (by rw [if_pos htargets])
    rw [(hsync e hmem herror).2.1] at hmetadata
    cases hmetadata
  · intro hfirst plan hplan hskip
    split at hplan
    · cases hplan
    next hne =>
    obtain rfl := Option.some.inj hplan
    have htargets := skip_iff_no_targets.mp hskip
    obtain ⟨source, hsource, herror, hpresent, hid, hchecksum⟩ := exists_source hne
    have hothers : ∀ e ∈ entries, e.2.error = none → e ≠ source → e.2.present = true ∧
        e.2.hasMetadata = true ∧ e.2.checksum = (verdict entries).winningChecksum := by
      intro e he herror' hdiffers
      have hnot : e.1 ∉ targetDevices entries := by simp [htargets]
      rw [mem_targetDevices_iff, ← hid] at hnot
      have hname : e.1 ≠ source.1 := fun heq => hdiffers (eq_of_device hdistinct he hsource heq)
      have hcomplete : ¬ NeedsSync (verdict entries).winningChecksum e :=
        fun hneeds => hnot ⟨hname, e, he, rfl, hneeds⟩
      simpa [NeedsSync, herror'] using hcomplete
    cases hmetadata : source.2.hasMetadata with
    | true =>
      refine ⟨(verdict entries).winningChecksum, fun e he herror' => ?_⟩
      by_cases heq : e = source
      · rw [heq]
        exact ⟨hpresent, hmetadata, hchecksum⟩
      · exact hothers e he herror' heq
    | false =>
      have hall : ∀ e ∈ responding entries, e.2.present = true ∧
          e.2.checksum = source.2.checksum ∧ (e ≠ source → e.2.hasMetadata = true) := by
        intro e he
        obtain ⟨hmem, herror'⟩ := mem_responding.mp he
        by_cases heq : e = source
        · rw [heq]
          exact ⟨hpresent, rfl, fun hne => absurd rfl hne⟩
        · obtain ⟨hp, hm, hc⟩ := hothers e hmem herror' heq
          exact ⟨hp, hc.trans hchecksum.symm, fun _ => hm⟩
      refine absurd ⟨source, mem_responding.mpr ⟨hsource, herror⟩, hmetadata, ?_, hall⟩ hfirst
      rw [← voters_eq_of_all_present fun e he => (hall e he).1, hchecksum,
        ← winningDeviceID_eq hne, hid]

end HsmSecretsOperator.Mirror.Plan
