/- source: internal/api/proxy_client.go
   digest: The proxy of the REST handlers: versioned writes, tombstone deletes, resolved reads. -/

import Mathlib.Data.List.Dedup
import Mathlib.Data.List.Lattice
import HsmSecretsOperator.Foundation.Maps
import HsmSecretsOperator.Hsm.Secret
import HsmSecretsOperator.Reconcile.Resolve

/-! Each goroutine touches its own device only, so a fan-out is a function on the devices; the
    orders of maps and of arrivals are lists. -/

set_option autoImplicit false

namespace HsmSecretsOperator.Api.Proxy

open Foundation.Decimal Foundation.Election Foundation.Maps Foundation.Rfc3339 Foundation.Text
  Hsm.Secret Reconcile.Resolve

/-- The state of every device, by serial number. -/
abbrev Cluster (σ : Type) := String → σ

variable {σ : Type} (c : Client σ)

def parseTimestampFromMetadata (metadata : Option SecretMetadata) : Int :=
  metadataTimestamp metadata

def isSecretDeleted (metadata : Option SecretMetadata) : Bool := metadataDeleted metadata

def parseVersionFromMetadata (metadata : Option SecretMetadata) : Int := metadataVersion metadata

/-- The serials of the client map; `connects` says for which devices a cached client is connected
or a new one can be created. -/
def availableClients (connects : String → Bool) (devices : List String) : List String :=
  (devices.filter connects).dedup

/-- `getAllAvailableGRPCClients`, or none when the request has been answered with a 503. -/
def getAllAvailableGRPCClients (connects : String → Bool) (devices : List String) :
    Option (List String) :=
  let clients := availableClients connects devices
  if clients.isEmpty then none else some clients

theorem mem_availableClients {connects : String → Bool} {devices : List String} {d : String} :
    d ∈ availableClients connects devices ↔ d ∈ devices ∧ connects d = true := by
  rw [availableClients, List.mem_dedup, List.mem_filter]

/-- The devices of a fan-out and what happens to their calls. -/
structure Fanout where
  /-- The serials of the client map, in the order in which it yields them. -/
  clients : List String
  nodup : clients.Nodup
  /-- The device answers `ReadMetadata`. -/
  answers : String → Bool
  /-- The device accepts the write. -/
  accepts : String → Bool
  now : Instant

/-- The fan-out in which every call succeeds. -/
def Fanout.reaching (clients : List String) (nodup : clients.Nodup) (now : Instant) : Fanout :=
  { clients, nodup, answers := fun _ => true, accepts := fun _ => true, now }

/-- One turn of the loop of `nextVersion`; an error leaves the maximum as it is. -/
def raiseVersion (maxVersion : Int) (answer : Except String SecretMetadata) : Int :=
  match answer with
  | .error _ => maxVersion
  | .ok metadata =>
    let v := parseVersionFromMetadata (some metadata)
    if v > maxVersion then v else maxVersion

def Fanout.metadataAnswer (f : Fanout) (cl : Cluster σ) (path d : String) :
    Except String SecretMetadata :=
  if f.answers d then c.readMetadata (cl d) path else .error "device unreachable"

/-- The loop of `nextVersion` over the answers. -/
def maxVersion (answers : List (Except String SecretMetadata)) : Int :=
  answers.foldl raiseVersion 0

def nextVersion (f : Fanout) (cl : Cluster σ) (path : String) : Int :=
  wrapInt64 (maxVersion (f.clients.map (f.metadataAnswer c cl path)) + 1)

/-- The metadata of a request with the mirroring labels set. -/
def stampMetadata (metadata : Option SecretMetadata) (version : Int) (now : Instant) :
    SecretMetadata :=
  let m := metadata.getD {}
  let labels := m.labels.insert labelSyncVersion (sprintfD version)
  { m with labels := labels.insert labelSyncTimestamp (formatRFC3339 now) }

def writeToAllDevices (f : Fanout) (cl : Cluster σ) (path : String) (data : SecretData)
    (metadata : SecretMetadata) : Cluster σ :=
  fun d =>
    if d ∈ f.clients ∧ f.accepts d = true then c.writeSecret (cl d) path data (some metadata)
    else cl d

/-- The fan-out reached at least one device, which is when a mutation is acknowledged. -/
def Fanout.acknowledged (f : Fanout) : Bool := f.clients.any f.accepts

structure WriteRequest where
  data : Std.ExtTreeMap String String
  metadata : Option SecretMetadata

def WriteRequest.secretData (req : WriteRequest) : SecretData :=
  req.data.map fun _ value => utf8 value

def writeSecret (f : Fanout) (cl : Cluster σ) (path : String) (req : WriteRequest) : Cluster σ :=
  writeToAllDevices c f cl path req.secretData
    (stampMetadata req.metadata (nextVersion c f cl path) f.now)

theorem writeSecret_of_not_acknowledged {f : Fanout} (h : f.acknowledged = false)
    (cl : Cluster σ) (path : String) (req : WriteRequest) : writeSecret c f cl path req = cl := by
  funext d
  simp only [Fanout.acknowledged, List.any_eq_false] at h
  exact if_neg fun hd => h d hd.1 hd.2

/-- The metadata that marks a path as deleted. -/
def tombstoneMetadata (now : Instant) : SecretMetadata :=
  { labels := (((∅ : Labels).insert labelSyncDeleted "true").insert labelSyncTimestamp
      (formatRFC3339 now)).insert labelSyncVersion "0" }

def tombstoneDeleteFromAllDevices (f : Fanout) (cl : Cluster σ) (path : String) : Cluster σ :=
  fun d =>
    if d ∈ f.clients ∧ f.accepts d = true then
      c.writeSecret (c.deleteSecret (cl d) path) path ∅ (some (tombstoneMetadata f.now))
    else cl d

def deleteSecret (f : Fanout) (cl : Cluster σ) (path : String) : Cluster σ :=
  tombstoneDeleteFromAllDevices c f cl path

/-- A device after its part of a key deletion, or none when it fails; `delete` is the device's
`DeleteSecretKey`. -/
def keyDeleted (delete : σ → String → String → Except String σ) (f : Fanout) (cl : Cluster σ)
    (path key d : String) : Option σ :=
  if d ∈ f.clients ∧ f.accepts d = true then (delete (cl d) path key).toOption else none

def deleteKeyFromAllDevices (delete : σ → String → String → Except String σ) (f : Fanout)
    (cl : Cluster σ) (path key : String) : Cluster σ :=
  fun d => (keyDeleted delete f cl path key d).getD (cl d)

/-- `DeleteSecretKey`; a request without a key is answered with a 400. -/
def deleteSecretKey (delete : σ → String → String → Except String σ) (f : Fanout)
    (cl : Cluster σ) (path key : String) : Cluster σ :=
  if key = "" then cl else deleteKeyFromAllDevices delete f cl path key

/-- The devices on which a request deleted the key; it is acknowledged when there is one. -/
def keyDeletedOn (delete : σ → String → String → Except String σ) (f : Fanout)
    (cl : Cluster σ) (path key : String) : List String :=
  if key = "" then [] else f.clients.filter fun d => (keyDeleted delete f cl path key d).isSome

/-- The calls of a read that fail. -/
structure ReadFaults where
  secret : String → Bool := fun _ => false
  metadata : String → Bool := fun _ => false

structure SecretResult where
  deviceName : String
  data : SecretData
  metadata : Option SecretMetadata

/-- The goroutine of one device; a failed metadata read leaves the metadata nil. -/
def readDevice (faults : ReadFaults) (cl : Cluster σ) (path d : String) : Option SecretResult :=
  match if faults.secret d then .error "device unreachable" else c.readSecret (cl d) path with
  | .error _ => none
  | .ok data =>
    match if faults.metadata d then .error "device unreachable" else c.readMetadata (cl d) path with
    | .error _ => some { deviceName := d, data, metadata := none }
    | .ok m => some { deviceName := d, data, metadata := some m }

def collectResults (faults : ReadFaults) (cl : Cluster σ) (path : String)
    (arrivals : List String) : List SecretResult :=
  arrivals.filterMap (readDevice c faults cl path)

def SecretResult.observation (r : SecretResult) : DeviceObservation :=
  { deviceID := r.deviceName
    present := !isSecretDeleted r.metadata
    tombstone := isSecretDeleted r.metadata
    checksum := calculateChecksum r.data
    version := parseVersionFromMetadata r.metadata
    timestamp := parseTimestampFromMetadata r.metadata }

def readVerdict (results : List SecretResult) (deviceCount : Nat) : Decision :=
  resolve (results.map SecretResult.observation) deviceCount

def findMostRecentSecretResult (results : List SecretResult) (deviceCount : Nat) :
    Except String SecretData :=
  if results.isEmpty then .error "secret not found on any HSM device"
  else
    let dataByDevice : Std.ExtTreeMap String SecretData :=
      assign ∅ SecretResult.deviceName SecretResult.data results
    let decision := readVerdict results deviceCount
    if !decision.found || decision.deleted then .error "secret not found on any HSM device"
    else .ok (dataByDevice.getD decision.winningDeviceID ∅)

/-- `ReadSecret`: the data of the answer, or the text of the 404. -/
def readSecret (faults : ReadFaults) (cl : Cluster σ) (path : String) (arrivals : List String) :
    Except String SecretData :=
  findMostRecentSecretResult (collectResults c faults cl path arrivals) arrivals.length

structure ChecksumResult where
  deviceName : String
  checksum : String

def checksumDevice (faults : ReadFaults) (cl : Cluster σ) (path d : String) :
    Option ChecksumResult :=
  if faults.secret d then none
  else (c.readSecret (cl d) path).toOption.map fun data =>
    { deviceName := d, checksum := calculateChecksum data }

/-- Checksum reads carry no version metadata. -/
def ChecksumResult.observation (r : ChecksumResult) : DeviceObservation :=
  { deviceID := r.deviceName, present := true, checksum := r.checksum }

def findConsensusChecksum (results : List ChecksumResult) (deviceCount : Nat) :
    Except String String :=
  if results.isEmpty then .error "checksum not found on any HSM device"
  else
    let decision := resolve (results.map ChecksumResult.observation) deviceCount
    if !decision.found then .error "checksum not found on any HSM device"
    else .ok decision.winningChecksum

def getChecksum (faults : ReadFaults) (cl : Cluster σ) (path : String) (arrivals : List String) :
    Except String String :=
  findConsensusChecksum (arrivals.filterMap (checksumDevice c faults cl path)) arrivals.length

structure ReadSecretResponse where
  path : String
  data : SecretData
  checksum : String
  deviceCount : Nat
  deriving DecidableEq

/-- The whole answer of `ReadSecret`. The checksum is that of the first client to report one in
the order in which the map yields the clients. -/
def readSecretResponse (faults : ReadFaults) (cl : Cluster σ) (path : String)
    (arrivals order : List String) : Except String ReadSecretResponse :=
  let results := collectResults c faults cl path arrivals
  match findMostRecentSecretResult results arrivals.length with
  | .error text => .error text
  | .ok data =>
    let checksum :=
      if 0 < results.length then
        ((order.findSome? (checksumDevice c faults cl path)).map ChecksumResult.checksum).getD ""
      else ""
    .ok { path, data, checksum, deviceCount := results.length }

structure MetadataResult where
  deviceName : String
  metadata : SecretMetadata

def metadataDevice (faults : ReadFaults) (cl : Cluster σ) (path d : String) :
    Option MetadataResult :=
  if faults.metadata d then none
  else (c.readMetadata (cl d) path).toOption.map fun metadata => { deviceName := d, metadata }

def MetadataResult.timestamp (r : MetadataResult) : Int :=
  parseTimestampFromMetadata (some r.metadata)

/-- The first of the results with the latest timestamp, even if it is a tombstone. -/
def findMostRecentMetadataResult (results : List MetadataResult) :
    Except String SecretMetadata :=
  match results with
  | [] => .error "metadata not found on any HSM device"
  | first :: rest =>
    .ok (rest.foldl (fun best r => if r.timestamp > best.timestamp then r else best) first).metadata

def readMetadata (faults : ReadFaults) (cl : Cluster σ) (path : String) (arrivals : List String) :
    Except String SecretMetadata :=
  findMostRecentMetadataResult (arrivals.filterMap (metadataDevice c faults cl path))

theorem labels_stampMetadata (metadata : Option SecretMetadata) (version : Int) (now : Instant) :
    (stampMetadata metadata version now).labels[labelSyncVersion]? = some (sprintfD version) ∧
      (stampMetadata metadata version now).labels[labelSyncTimestamp]? =
        some (formatRFC3339 now) := by
  constructor
  · rw [stampMetadata, getElem?_insert_of_ne _ (by decide), Std.ExtTreeMap.getElem?_insert_self]
  · rw [stampMetadata, Std.ExtTreeMap.getElem?_insert_self]

theorem metadataVersion_stampMetadata (metadata : Option SecretMetadata) {version : Int}
    (h : InInt64 version) (now : Instant) :
    metadataVersion (some (stampMetadata metadata version now)) = version :=
  metadataVersion_of_label h (labels_stampMetadata metadata version now).1

theorem metadataTimestamp_stampMetadata (metadata : Option SecretMetadata) (version : Int)
    (now : Instant) :
    metadataTimestamp (some (stampMetadata metadata version now)) = now.unix :=
  metadataTimestamp_of_label (labels_stampMetadata metadata version now).2

theorem metadataDeleted_stampMetadata (metadata : Option SecretMetadata) (version : Int)
    (now : Instant) :
    metadataDeleted (some (stampMetadata metadata version now)) = metadataDeleted metadata := by
  have hlabel : (stampMetadata metadata version now).labels[labelSyncDeleted]? =
      (metadata.getD {}).labels[labelSyncDeleted]? := by
    rw [stampMetadata, getElem?_insert_of_ne _ (by decide), getElem?_insert_of_ne _ (by decide)]
  rw [metadataDeleted, Option.bind_some, hlabel, metadataDeleted]
  cases metadata with
  | none => rfl
  | some m => rfl

theorem metadataVersion_tombstoneMetadata (now : Instant) :
    metadataVersion (some (tombstoneMetadata now)) = 0 := by
  refine metadataVersion_of_label (by decide) ?_
  rw [tombstoneMetadata, Std.ExtTreeMap.getElem?_insert_self]
  rfl

theorem metadataTimestamp_tombstoneMetadata (now : Instant) :
    metadataTimestamp (some (tombstoneMetadata now)) = now.unix := by
  refine metadataTimestamp_of_label ?_
  rw [tombstoneMetadata, getElem?_insert_of_ne _ (by decide),
    Std.ExtTreeMap.getElem?_insert_self]

/-- The version a device reports; an error reports none. -/
def reported (answer : Except String SecretMetadata) : Option Int :=
  match answer with
  | .ok m => some (metadataVersion (some m))
  | .error _ => none

private theorem raiseVersion_ok (m : Int) (metadata : SecretMetadata) :
    raiseVersion m (.ok metadata) = max m (metadataVersion (some metadata)) := by
  by_cases h : metadataVersion (some metadata) > m
  · rw [max_eq_right (le_of_lt h)]
    exact if_pos h
  · rw [max_eq_left (not_lt.mp h)]
    exact if_neg h

theorem raiseVersion_le_iff (m v : Int) (answer : Except String SecretMetadata) :
    raiseVersion m answer ≤ v ↔ m ≤ v ∧ ∀ r, reported answer = some r → r ≤ v := by
  cases answer with
  | error e => simp [raiseVersion, reported]
  | ok metadata => simp [raiseVersion_ok, reported]

theorem inInt64_reported {a : Except String SecretMetadata} {r : Int} (h : reported a = some r) :
    InInt64 r := by
  cases a with
  | error e => cases h
  | ok m =>
    obtain rfl := Option.some.inj h
    exact inInt64_metadataVersion (some m)

section Answers

variable (answers : List (Except String SecretMetadata))

private theorem foldl_raiseVersion_le_iff (m v : Int) : answers.foldl raiseVersion m ≤ v ↔
      m ≤ v ∧ ∀ a ∈ answers, ∀ r, reported a = some r → r ≤ v := by
  induction answers generalizing m with
  | nil => simp
  | cons a answers ih => simp [ih, raiseVersion_le_iff, and_assoc]

theorem maxVersion_le_iff (v : Int) :
    maxVersion answers ≤ v ↔ 0 ≤ v ∧ ∀ a ∈ answers, ∀ r, reported a = some r → r ≤ v :=
  foldl_raiseVersion_le_iff answers 0 v

theorem maxVersion_nonneg : 0 ≤ maxVersion answers :=
  ((maxVersion_le_iff answers _).mp le_rfl).1

theorem le_maxVersion {answers : List (Except String SecretMetadata)}
    {a : Except String SecretMetadata} (ha : a ∈ answers) {r : Int} (hr : reported a = some r) :
    r ≤ maxVersion answers :=
  ((maxVersion_le_iff answers _).mp le_rfl).2 a ha r hr

theorem le_maxVersion_iff (v : Int) :
    v ≤ maxVersion answers ↔ v ≤ 0 ∨ ∃ a ∈ answers, ∃ r, reported a = some r ∧ v ≤ r := by
  constructor
  · intro h
    by_contra hnot
    push Not at hnot
    have hle : maxVersion answers ≤ v - 1 := by
      rw [maxVersion_le_iff]
      refine ⟨by omega, ?_⟩
      intro a ha r hr
      have := hnot.2 a ha r hr
      omega
    omega
  · rintro (h0 | ⟨a, ha, r, hr, hle⟩)
    · exact h0.trans (maxVersion_nonneg answers)
    · exact hle.trans (le_maxVersion ha hr)

theorem inInt64_maxVersion : InInt64 (maxVersion answers) := by
  refine ⟨le_trans (by decide) (maxVersion_nonneg answers), ?_⟩
  rw [maxVersion_le_iff]
  exact ⟨by decide, fun a _ r hr => (inInt64_reported hr).2⟩

theorem maxVersion_lt_maxInt64_iff :
    maxVersion answers < maxInt64 ↔ ∀ a ∈ answers, reported a ≠ some maxInt64 := by
  constructor
  · intro hlt a ha hr
    exact absurd (le_maxVersion ha hr) (not_le.mpr hlt)
  · intro h
    by_contra hnot
    obtain hneg | ⟨a, ha, r, hr, hle⟩ := (le_maxVersion_iff answers maxInt64).mp (not_lt.mp hnot)
    · exact absurd hneg (by decide)
    · exact h a ha (le_antisymm (inInt64_reported hr).2 hle ▸ hr)

end Answers

theorem inInt64_nextVersion (f : Fanout) (cl : Cluster σ) (path : String) :
    InInt64 (nextVersion c f cl path) :=
  inInt64_wrapInt64 _

theorem nextVersion_ne_zero (f : Fanout) (cl : Cluster σ) (path : String) :
    nextVersion c f cl path ≠ 0 := by
  have hnonneg := maxVersion_nonneg (f.clients.map (f.metadataAnswer c cl path))
  rw [nextVersion, wrapInt64_succ hnonneg (inInt64_maxVersion _)]
  split
  · omega
  · decide

theorem lt_nextVersion_iff (f : Fanout) (cl : Cluster σ) (path : String) {v : Int}
    (hv : InInt64 v) : v < nextVersion c f cl path ↔
      (∀ d ∈ f.clients, reported (f.metadataAnswer c cl path d) ≠ some maxInt64) ∧
        (v ≤ 0 ∨ ∃ d ∈ f.clients, ∃ r,
          reported (f.metadataAnswer c cl path d) = some r ∧ v ≤ r) := by
  rw [nextVersion, lt_wrapInt64_succ_iff (maxVersion_nonneg _) (inInt64_maxVersion _) hv,
    maxVersion_lt_maxInt64_iff, le_maxVersion_iff, List.forall_mem_map]
  simp only [List.mem_map, exists_exists_and_eq_and]

theorem calculateChecksum_ne_tombstone (data : SecretData) :
    calculateChecksum data ≠ tombstoneChecksum := by
  intro h
  have hlist := congrArg String.toList h
  simp [calculateChecksum, checksumOfKeys, tombstoneChecksum] at hlist

theorem deviceName_of_readDevice {faults : ReadFaults} {cl : Cluster σ} {path d : String}
    {r : SecretResult} (h : readDevice c faults cl path d = some r) : r.deviceName = d := by
  unfold readDevice at h
  split at h
  · cases h
  · split at h
    · obtain rfl := Option.some.inj h
      rfl
    · obtain rfl := Option.some.inj h
      rfl

theorem nodup_collectResults (faults : ReadFaults) (cl : Cluster σ) (path : String)
    {arrivals : List String} (h : arrivals.Nodup) :
    ((collectResults c faults cl path arrivals).map SecretResult.deviceName).Nodup := by
  rw [List.Nodup, List.pairwise_map, collectResults, List.pairwise_filterMap]
  refine h.imp ?_
  intro d d' hne r hr r' hr' heq
  rw [deviceName_of_readDevice c hr, deviceName_of_readDevice c hr'] at heq
  exact hne heq

@[simp] theorem votersOf_observation (results : List SecretResult) :
    votersOf (results.map SecretResult.observation) = results.map SecretResult.observation := by
  rw [votersOf, List.filter_eq_self]
  intro o ho
  obtain ⟨r, _, rfl⟩ := List.mem_map.mp ho
  simp [SecretResult.observation, DeviceObservation.hasOpinion]

section Verdict

variable {results : List SecretResult} {n : Nat}

theorem readVerdict_found_iff : (readVerdict results n).found = true ↔ results ≠ [] := by
  rw [readVerdict, resolve_found_iff, votersOf_observation, ne_eq, List.map_eq_nil_iff]

theorem readVerdict_elects (h : results ≠ []) :
    Elects DeviceObservation.effectiveChecksum DeviceObservation.rank n
      (results.map SecretResult.observation) (readVerdict results n).winningChecksum := by
  have hvoters : votersOf (results.map SecretResult.observation) ≠ [] := by simpa using h
  have helects := resolve_elects hvoters n
  rwa [votersOf_observation] at helects

theorem readVerdict_deleted_iff (h : results ≠ []) : (readVerdict results n).deleted = true ↔
    (readVerdict results n).winningChecksum = tombstoneChecksum :=
  resolve_deleted_iff (by simpa using h) n

theorem winningChecksum_of_elects {checksum : String}
    (hnodup : (results.map SecretResult.deviceName).Nodup) (hn : results.length ≤ n)
    (h : Elects DeviceObservation.effectiveChecksum DeviceObservation.rank n
      (results.map SecretResult.observation) checksum) :
    (readVerdict results n).winningChecksum = checksum := by
  obtain ⟨o, ho, _⟩ := h.exists_voter
  have hne : results ≠ [] := by
    rintro rfl
    exact List.not_mem_nil ho
  have hids : ((results.map SecretResult.observation).map DeviceObservation.deviceID).Nodup := by
    rw [List.map_map]
    exact hnodup
  exact (readVerdict_elects hne).unique (rank_injOn hids) (by simpa using hn) h

theorem findMostRecentSecretResult_of_missing
    (h : results = [] ∨ (readVerdict results n).deleted = true) :
    findMostRecentSecretResult results n = .error "secret not found on any HSM device" := by
  rcases h with rfl | hdeleted
  · rfl
  · simp [findMostRecentSecretResult, hdeleted]

theorem findMostRecentSecretResult_of_live
    (hnodup : (results.map SecretResult.deviceName).Nodup) (hne : results ≠ [])
    (hlive : (readVerdict results n).deleted = false) :
    ∃ r ∈ results, r.deviceName = (readVerdict results n).winningDeviceID ∧
      r.observation.effectiveChecksum = (readVerdict results n).winningChecksum ∧
      findMostRecentSecretResult results n = .ok r.data := by
  have hvoters : votersOf (results.map SecretResult.observation) ≠ [] := by simpa using hne
  obtain ⟨w, hw, hid, hsum⟩ := resolve_winner_holds hvoters n
  rw [votersOf_observation] at hw
  obtain ⟨r, hr, rfl⟩ := List.mem_map.mp hw
  have hname : r.deviceName = (readVerdict results n).winningDeviceID := hid
  refine ⟨r, hr, hname, hsum, ?_⟩
  have hget : (assign (∅ : Std.ExtTreeMap String SecretData) SecretResult.deviceName
      SecretResult.data results)[r.deviceName]? = some r.data := by
    refine getElem?_assign_of_mem ∅ _ _ hr ?_
    intro r' hr' hsame
    rw [List.inj_on_of_nodup_map hnodup hr' hr hsame]
  have hempty : results.isEmpty = false := List.isEmpty_eq_false_iff.mpr hne
  simp only [findMostRecentSecretResult, hempty, readVerdict_found_iff.mpr hne, hlive, ← hname,
    Bool.not_true, Bool.or_false, Bool.false_eq_true, if_false,
    Std.ExtTreeMap.getD_eq_getD_getElem?, hget, Option.getD_some]

/-- A read answers with the data whose checksum the results elect. -/
theorem findMostRecentSecretResult_of_elects {checksum : String} {data : SecretData}
    (hnodup : (results.map SecretResult.deviceName).Nodup) (hn : results.length ≤ n)
    (helects : Elects DeviceObservation.effectiveChecksum DeviceObservation.rank n
      (results.map SecretResult.observation) checksum)
    (hlive : checksum ≠ tombstoneChecksum)
    (hdata : ∀ r ∈ results, r.observation.effectiveChecksum = checksum → r.data = data) :
    findMostRecentSecretResult results n = .ok data := by
  have hwinner := winningChecksum_of_elects hnodup hn helects
  obtain ⟨o, ho, _⟩ := helects.exists_voter
  have hne : results ≠ [] := by
    rintro rfl
    exact List.not_mem_nil ho
  have hdeleted : (readVerdict results n).deleted = false := by
    rw [Bool.eq_false_iff]
    intro h
    exact hlive (hwinner.symm.trans ((readVerdict_deleted_iff hne).mp h))
  obtain ⟨r, hr, _, hsum, hread⟩ := findMostRecentSecretResult_of_live hnodup hne hdeleted
  rw [hread, hdata r hr (hsum.trans hwinner)]

end Verdict

end HsmSecretsOperator.Api.Proxy
