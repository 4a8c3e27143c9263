/- source: internal/controller/hsmsecret_controller.go
   digest: How the HSMSecret controller observes the devices, chooses a copy and applies it. -/

import HsmSecretsOperator.Api.Proxy

set_option autoImplicit false

namespace HsmSecretsOperator.Controller.HsmSecret

open Api.Proxy (Cluster)
open Foundation.Maps Hsm.Secret Reconcile.Resolve

variable {σ : Type} (c : Client σ)

/-- An entry of the device list and which calls to its agent fail. -/
structure Device where
  serialNumber : String
  clientFails : Bool := false
  listFails : Bool := false
  secretFails : Bool := false
  metadataFails : Bool := false

structure DeviceRead where
  data : SecretData
  metadata : Option SecretMetadata

def DeviceRead.observation (r : DeviceRead) (deviceID : String) : DeviceObservation :=
  let tombstone := metadataDeleted r.metadata
  { deviceID, present := !tombstone, tombstone, checksum := calculateChecksum r.data
    version := metadataVersion r.metadata, timestamp := metadataTimestamp r.metadata }

/-- The secret and its metadata as the agent of the device answers; a failed metadata read counts
as no metadata. -/
def readDevice (cl : Cluster σ) (secretName : String) (device : Device) : Option DeviceRead :=
  if device.secretFails then none
  else (c.readSecret (cl device.serialNumber) secretName).toOption.map fun data =>
    { data
      metadata := if device.metadataFails then none
        else (c.readMetadata (cl device.serialNumber) secretName).toOption }

structure Gathered where
  observations : List DeviceObservation := []
  reads : Std.ExtTreeMap String DeviceRead := ∅

/-- One turn of the loop; `continue` leaves what was gathered as it is. -/
def gatherDevice (cl : Cluster σ) (secretName : String) (g : Gathered) (device : Device) :
    Gathered :=
  if device.clientFails then g
  else if device.listFails then g
  else if secretName ∉ c.listSecrets (cl device.serialNumber) "" then
    { g with observations := g.observations ++ [{ deviceID := device.serialNumber }] }
  else
    match readDevice c cl secretName device with
    | none => g
    | some r =>
      { observations := g.observations ++ [r.observation device.serialNumber]
        reads := g.reads.insert device.serialNumber r }

def gatherSecretObservations (cl : Cluster σ) (secretName : String) (devices : List Device) :
    Gathered :=
  devices.foldl (gatherDevice c cl secretName) {}

def decision (cl : Cluster σ) (secretName : String) (devices : List Device) : Decision :=
  resolve (gatherSecretObservations c cl secretName devices).observations devices.length

/-- How a reconcile of an existing HSMSecret ends. -/
inductive Outcome where
  | noDevices
  | secretNotFound
  | winnerNotCaptured
  | apply (winner : DeviceRead) (forceMirror : Bool)

/-- `Reconcile` from the device list on. -/
def reconcile (cl : Cluster σ) (secretName : String) (devices : List Device) : Outcome :=
  if devices = [] then .noDevices
  else
    let verdict := decision c cl secretName devices
    if !verdict.found || verdict.deleted then .secretNotFound
    else
      match (gatherSecretObservations c cl secretName devices).reads[verdict.winningDeviceID]? with
      | none => .winnerNotCaptured
      | some winner => .apply winner verdict.diverged

inductive SyncStatus where
  | inSync
  | outOfSync
  | error
  | pending
  deriving DecidableEq

def copyData (data : SecretData) : SecretData := assign ∅ Prod.fst Prod.snd data.toList

def convertHSMDataToSecretData (hsmData : SecretData) : SecretData := copyData hsmData

def convertSecretDataToHSMData (secretData : SecretData) : SecretData := copyData secretData

/-- The Kubernetes API as it answers the calls for one Secret of type `κ` in a world `ω`: `get`
finds the Secret if there is one, `create` and `update` answer with the Secret that is stored. -/
structure KubernetesApi (ω κ : Type) where
  get : ω → Except String (Option κ)
  create : ω → κ → ω × Except String κ
  update : ω → κ → ω × Except String κ

/-- Create the Secret, or update it when it exists. -/
def applySecret {ω κ : Type} (api : KubernetesApi ω κ) (built : κ) (updated : κ → κ) (w : ω) :
    ω × Except String κ :=
  match api.get w with
  | .error text => (w, .error text)
  | .ok none => api.create w built
  | .ok (some k8sSecret) => api.update w (updated k8sSecret)

def syncStatus (hsmData secretData : SecretData) : SyncStatus :=
  let hsmChecksum := calculateChecksum hsmData
  let secretChecksum := calculateChecksum (convertSecretDataToHSMData secretData)
  if hsmChecksum ≠ secretChecksum then .outOfSync else .inSync

/-- `updateKubernetesSecret`: the data the Secret holds afterwards and the reported status. -/
def updateKubernetesSecret (api : KubernetesApi Unit SecretData) (hsmData : SecretData) :
    Except String (SecretData × SyncStatus) :=
  let converted := convertHSMDataToSecretData hsmData
  match (applySecret api converted (fun _ => converted) ()).2 with
  | .error text => .error text
  | .ok secretData => .ok (secretData, syncStatus hsmData secretData)

theorem copyData_eq (data : SecretData) : copyData data = data :=
  assign_of_perm_toList data (.refl _)

theorem syncStatus_eq_inSync {hsmData secretData : SecretData} :
    syncStatus hsmData secretData = .inSync ↔
      calculateChecksum hsmData = calculateChecksum secretData := by
  simp [syncStatus, convertSecretDataToHSMData, copyData_eq]

theorem syncStatus_of_update {api : KubernetesApi Unit SecretData} {hsmData secretData : SecretData}
    {status : SyncStatus} (h : updateKubernetesSecret api hsmData = .ok (secretData, status)) :
    syncStatus hsmData secretData = status := by
  unfold updateKubernetesSecret at h
  dsimp only at h
  split at h
  · cases h
  · obtain ⟨rfl, hstatus⟩ := Prod.mk.inj (Except.ok.inj h)
    exact hstatus

def observation (cl : Cluster σ) (secretName : String) (device : Device) :
    Option DeviceObservation :=
  if device.clientFails || device.listFails then none
  else if secretName ∉ c.listSecrets (cl device.serialNumber) "" then
    some { deviceID := device.serialNumber }
  else (readDevice c cl secretName device).map (·.observation device.serialNumber)

def captured (cl : Cluster σ) (secretName : String) (device : Device) : Option DeviceRead :=
  if device.clientFails || device.listFails then none
  else if secretName ∉ c.listSecrets (cl device.serialNumber) "" then none
  else readDevice c cl secretName device

variable (cl : Cluster σ) (secretName : String)

private theorem gatherDevice_observations (g : Gathered) (device : Device) :
    (gatherDevice c cl secretName g device).observations =
      g.observations ++ (observation c cl secretName device).toList := by
  simp only [gatherDevice, observation]
  cases device.clientFails with
  | true => simp
  | false =>
    cases device.listFails with
    | true => simp
    | false =>
      by_cases hlisted : secretName ∈ c.listSecrets (cl device.serialNumber) ""
      · cases readDevice c cl secretName device with
        | none => simp [hlisted]
        | some r => simp [hlisted]
      · simp [hlisted]

theorem gatherSecretObservations_observations (devices : List Device) :
    (gatherSecretObservations c cl secretName devices).observations =
      devices.filterMap (observation c cl secretName) := by
  have hfold (g : Gathered) : (devices.foldl (gatherDevice c cl secretName) g).observations =
      g.observations ++ devices.filterMap (observation c cl secretName) := by
    induction devices generalizing g with
    | nil => simp
    | cons device devices ih =>
      rw [List.foldl_cons, ih, gatherDevice_observations, List.append_assoc, List.filterMap_cons]
      cases observation c cl secretName device with
      | none => rfl
      | some o => rfl
  exact hfold {}

private theorem gatherDevice_reads (g : Gathered) (device : Device) :
    (gatherDevice c cl secretName g device).reads =
      assign g.reads (fun _ => device.serialNumber) id
        (captured c cl secretName device).toList := by
  simp only [gatherDevice, captured]
  cases device.clientFails with
  | true => simp [assign]
  | false =>
    cases device.listFails with
    | true => simp [assign]
    | false =>
      by_cases hlisted : secretName ∈ c.listSecrets (cl device.serialNumber) ""
      · cases readDevice c cl secretName device with
        | none => simp [hlisted, assign]
        | some r => simp [hlisted, assign]
      · simp [hlisted, assign]

theorem gatherSecretObservations_reads (devices : List Device) :
    (gatherSecretObservations c cl secretName devices).reads = assign ∅ Prod.fst Prod.snd
      (devices.filterMap fun device =>
        (captured c cl secretName device).map fun r => (device.serialNumber, r)) := by
  have hfold (g : Gathered) : (devices.foldl (gatherDevice c cl secretName) g).reads =
      assign g.reads Prod.fst Prod.snd (devices.filterMap fun device =>
        (captured c cl secretName device).map fun r => (device.serialNumber, r)) := by
    induction devices generalizing g with
    | nil => rfl
    | cons device devices ih =>
      rw [List.foldl_cons, ih, gatherDevice_reads, List.filterMap_cons]
      cases captured c cl secretName device with
      | none => rfl
      | some r => rfl
  exact hfold {}

end HsmSecretsOperator.Controller.HsmSecret
