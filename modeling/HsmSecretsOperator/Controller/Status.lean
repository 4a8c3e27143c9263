/- source: internal/controller/hsmsecret_controller.go, api/v1alpha1/hsmsecret_types.go
   digest: The status of an HSMSecret as a reconcile computes it and as it is stored. -/

import HsmSecretsOperator.Controller.SecretObjects
import HsmSecretsOperator.Foundation.ApiServer
import HsmSecretsOperator.Foundation.Conditions

/-! `updateStatus` changes a copy; only `updateStatusWithRetry` sends the status of the copy. -/

set_option autoImplicit false

namespace HsmSecretsOperator.Controller.Status

open Foundation.ApiServer Foundation.Conditions Foundation.Maps Foundation.Text Hsm.Secret
  SecretObjects
open HsmSecret hiding applySecret

/-- The reference to the Secret; its kind is always the same. -/
structure ObjectReference where
  name : String
  ns : String
  deriving DecidableEq

structure HSMSecretStatus where
  lastSyncTime : Option Nat := none
  hsmChecksum : String := ""
  secretChecksum : String := ""
  /-- Absent before the first reconcile. -/
  syncStatus : Option SyncStatus := none
  lastError : String := ""
  conditions : List Condition := []
  secretRef : Option ObjectReference := none
  deriving DecidableEq

def syncStatusName : SyncStatus → String
  | .inSync => "InSync"
  | .outOfSync => "OutOfSync"
  | .error => "Error"
  | .pending => "Pending"

/-- What `updateStatus` is called with, and when. -/
structure StatusUpdate where
  now : Nat
  status : SyncStatus
  errorMsg : String

def StatusUpdate.ready (u : StatusUpdate) : Bool := u.status ≠ .error

def StatusUpdate.condition (u : StatusUpdate) : Condition where
  type := "Ready"
  status := u.ready
  lastTransitionTime := u.now
  reason := syncStatusName u.status
  message := u.errorMsg

def updateStatus (status : HSMSecretStatus) (u : StatusUpdate) : HSMSecretStatus :=
  { status with
    syncStatus := some u.status
    lastError := u.errorMsg
    lastSyncTime := if u.status = .inSync then some u.now else status.lastSyncTime
    conditions := setCondition "Ready" (fun _ => u.condition) status.conditions }

/-- The status of the HSMSecret, and the Secret under the name that it stands for. -/
structure Stored where
  status : HSMSecretStatus
  secret : Option Secret

/-- How the calls for the Secret end, if they do not end well by themselves. -/
structure SecretCalls where
  get : Option ApiError := none
  create : Fate := .served
  update : Fate := .served

/-- How the calls of each attempt to store the status end. -/
structure StatusCalls where
  get : Nat → Option ApiError := fun _ => none
  update : Nat → Option ApiError := fun _ => none

def alreadyExists (secretName : String) : String := s!"secrets \"{secretName}\" already exists"

/-- A Secret that exists is not created again. -/
def createSecret (s : Stored) (secretName : String) (secret : Secret) :
    Fate → Stored × Except String Secret
  | .served =>
    match s.secret with
    | none => ({ s with secret := some secret }, .ok secret)
    | some _ => (s, .error (alreadyExists secretName))
  | .refused e => (s, .error e.text)
  | .lost text => ({ s with secret := s.secret.or (some secret) }, .error text)

def updateSecret (s : Stored) (secret : Secret) : Fate → Stored × Except String Secret
  | .served => ({ s with secret := some secret }, .ok secret)
  | .refused e => (s, .error e.text)
  | .lost text => ({ s with secret := some secret }, .error text)

/-- The calls for the Secret of one name. -/
def SecretCalls.api (calls : SecretCalls) (secretName : String) : KubernetesApi Stored Secret where
  get s :=
    match calls.get with
    | some e => if e.reason = .notFound then .ok none else .error e.text
    | none => .ok s.secret
  create s secret := createSecret s secretName secret calls.create
  update s secret := updateSecret s secret calls.update

/-- The Secret is created, or updated if it exists. -/
def applySecret (calls : SecretCalls) (s : Stored) (hsmSecret : HSMSecret) (name : String)
    (winner : DeviceRead) : Stored × Except String Secret :=
  HsmSecret.applySecret (calls.api (hsmSecret.target name))
    (buildSecret hsmSecret name winner.data winner.metadata)
    (fun k8sSecret => updateSecretWithMetadata k8sSecret name winner.data winner.metadata) s

def maxRetries : Nat := 3

/-- The attempts that are left to store the status. -/
def storeStatus (calls : StatusCalls) (status : HSMSecretStatus) (s : Stored) :
    Nat → Stored × Option String
  | 0 => (s, some "failed to update status after 3 attempts")
  | left + 1 =>
    let attempt := maxRetries - (left + 1)
    match calls.get attempt with
    | some e =>
      if e.reason = .notFound then (s, none)
      else (s, some ("failed to get fresh HSMSecret: " ++ e.text))
    | none =>
      match calls.update attempt with
      | some e =>
        if e.reason = .conflict ∧ 0 < left then storeStatus calls status s left
        else (s, some e.text)
      | none => ({ s with status }, none)

def updateStatusWithRetry (calls : StatusCalls) (status : HSMSecretStatus) (s : Stored) :
    Stored × Option String :=
  storeStatus calls status s maxRetries

/-- What is stored after a reconcile, the status of the copy, and the error that is returned. -/
structure Outcome where
  stored : Stored
  working : HSMSecretStatus
  error : Option String

section Reconcile

variable (now : Nat) (ns : String) (hsmSecret : HSMSecret) (name : String) (winner : DeviceRead)

def syncedStatus (working : HSMSecretStatus) (k8sSecret : Secret) : HSMSecretStatus :=
  { updateStatus working ⟨now, syncStatus winner.data k8sSecret.data, ""⟩ with
    hsmChecksum := calculateChecksum winner.data
    secretChecksum := calculateChecksum (convertSecretDataToHSMData k8sSecret.data)
    secretRef := some { name := hsmSecret.target name, ns } }

/-- `reconcileSecret`, on a copy with the status that was stored when it was read. -/
def reconcileSecret (calls : SecretCalls) (statusCalls : StatusCalls) (s : Stored) : Outcome :=
  match applySecret calls s hsmSecret name winner with
  | (s', .error text) => { stored := s', working := s.status, error := some text }
  | (s', .ok k8sSecret) =>
    let working := syncedStatus now ns hsmSecret name winner s.status k8sSecret
    let (s'', error) := updateStatusWithRetry statusCalls working s'
    { stored := s'', working, error }

/-- `Reconcile` from `reconcileSecret` on. -/
def reconcile (calls : SecretCalls) (statusCalls : StatusCalls) (s : Stored) : Outcome :=
  let out := reconcileSecret now ns hsmSecret name winner calls statusCalls s
  match out.error with
  | none => out
  | some text => { out with working := updateStatus out.working ⟨now, .error, text⟩ }

end Reconcile

/-- The stored status is InSync only if the Secret has the data, and says which error there was. -/
structure Truthful (data : SecretData) (out : Outcome) : Prop where
  inSync : out.stored.status.syncStatus = some .inSync → out.stored.secret.map (·.data) = some data
  error : ∀ text, out.error = some text →
    out.stored.status.syncStatus = some .error ∧ out.stored.status.lastError = text

def creationFailure (s : Stored) (secretName : String) (fate : Fate) : Option String :=
  match fate.error with
  | some e => some e.text
  | none => s.secret.map fun _ => alreadyExists secretName

def SecretCalls.failure (calls : SecretCalls) (s : Stored) (secretName : String) :
    Option String :=
  match calls.get with
  | some e =>
    if e.reason = .notFound then creationFailure s secretName calls.create else some e.text
  | none =>
    match s.secret with
    | none => creationFailure s secretName calls.create
    | some _ => calls.update.error.map ApiError.text

/-- What a call for the Secret does: the status stays, and it fails with the text, or the Secret
has the data. -/
structure Writes (s : Stored) (data : SecretData) (failure : Option String)
    (result : Stored × Except String Secret) : Prop where
  status : result.1.status = s.status
  failed : ∀ text, failure = some text → result.2 = .error text
  written : failure = none → ∃ secret : Secret, secret.data = data ∧
    result.1.secret = some secret ∧ result.2 = .ok secret

section Calls

variable {s : Stored} {data : SecretData}

theorem Writes.of_failed {result : Stored × Except String Secret} {text : String}
    (hstatus : result.1.status = s.status) (h : result.2 = .error text) :
    Writes s data (some text) result where
  status := hstatus
  failed other hother := by rw [← Option.some.inj hother, h]
  written hnone := by cases hnone

theorem Writes.of_written {result : Stored × Except String Secret} {secret : Secret}
    (hdata : secret.data = data) (hstatus : result.1.status = s.status)
    (hsecret : result.1.secret = some secret) (h : result.2 = .ok secret) :
    Writes s data none result where
  status := hstatus
  failed text htext := by cases htext
  written _ := ⟨secret, hdata, hsecret, h⟩

theorem createSecret_writes {secret : Secret} (secretName : String) (hdata : secret.data = data)
    (fate : Fate) :
    Writes s data (creationFailure s secretName fate) (createSecret s secretName secret fate) := by
  cases fate with
  | served =>
    unfold creationFailure createSecret
    dsimp only [Fate.error]
    cases hsecret : s.secret with
    | none => exact .of_written hdata rfl rfl rfl
    | some _ => exact .of_failed rfl rfl
  | refused e => exact .of_failed rfl rfl
  | lost text => exact .of_failed rfl rfl

theorem updateSecret_writes {secret : Secret} (hdata : secret.data = data) (fate : Fate) :
    Writes s data (fate.error.map ApiError.text) (updateSecret s secret fate) := by
  cases fate with
  | served => exact .of_written hdata rfl rfl rfl
  | refused e => exact .of_failed rfl rfl
  | lost text => exact .of_failed rfl rfl

theorem applySecret_writes (calls : SecretCalls) (s : Stored) (hsmSecret : HSMSecret)
    (name : String) (winner : DeviceRead) :
    Writes s winner.data (calls.failure s (hsmSecret.target name))
      (applySecret calls s hsmSecret name winner) := by
  have hbuilt : (buildSecret hsmSecret name winner.data winner.metadata).data = winner.data :=
    copyData_eq winner.data
  unfold SecretCalls.failure applySecret HsmSecret.applySecret
  dsimp only [SecretCalls.api]
  cases calls.get with
  | some e =>
    by_cases hreason : e.reason = .notFound
    · simp only [hreason, if_true]
      exact createSecret_writes _ hbuilt _
    · simp only [hreason, if_false]
      exact .of_failed rfl rfl
  | none =>
    dsimp only
    cases hsecret : s.secret with
    | none => exact createSecret_writes _ hbuilt _
    | some k8sSecret => exact updateSecret_writes (copyData_eq winner.data) _

end Calls

section Truth

variable (now : Nat) (ns : String) (hsmSecret : HSMSecret) (name : String) (winner : DeviceRead)
  (calls : SecretCalls) (statusCalls : StatusCalls) (s : Stored)

theorem reconcile_of_failure {text : String}
    (h : calls.failure s (hsmSecret.target name) = some text) :
    (reconcile now ns hsmSecret name winner calls statusCalls s).stored.status = s.status ∧
      (reconcile now ns hsmSecret name winner calls statusCalls s).error = some text := by
  have hwrites := applySecret_writes calls s hsmSecret name winner
  have hstatus := hwrites.status
  have hfailed := hwrites.failed text h
  unfold reconcile reconcileSecret
  cases happly : applySecret calls s hsmSecret name winner with
  | mk s' result =>
    rw [happly] at hstatus hfailed
    obtain rfl : result = .error text := hfailed
    exact ⟨hstatus, rfl⟩

theorem reconcile_of_written (h : calls.failure s (hsmSecret.target name) = none) :
    (reconcile now ns hsmSecret name winner calls {} s).stored.secret.map (·.data) =
        some winner.data ∧
      (reconcile now ns hsmSecret name winner calls {} s).error = none := by
  obtain ⟨secret, hdata, hstored, hok⟩ :=
    (applySecret_writes calls s hsmSecret name winner).written h
  unfold reconcile reconcileSecret
  cases happly : applySecret calls s hsmSecret name winner with
  | mk s' result =>
    rw [happly] at hstored hok
    obtain rfl : result = .ok secret := hok
    have hmap : s'.secret.map (·.data) = some winner.data := by
      rw [show s'.secret = some secret from hstored, Option.map_some, hdata]
    exact ⟨hmap, rfl⟩

end Truth

/-- As long as the HSMSecret can be read and its status written, the stored status tells the truth
exactly if no call for the Secret fails, or the status said so of that very failure before. -/
theorem status_truthful_iff (now : Nat) (ns : String) (hsmSecret : HSMSecret) (name : String)
    (winner : DeviceRead) (calls : SecretCalls) (s : Stored) :
    Truthful winner.data (reconcile now ns hsmSecret name winner calls {} s) ↔
      ∀ text, calls.failure s (hsmSecret.target name) = some text →
        s.status.syncStatus = some .error ∧ s.status.lastError = text := by
  cases hfailure : calls.failure s (hsmSecret.target name) with
  | none =>
    obtain ⟨hdata, herror⟩ := reconcile_of_written now ns hsmSecret name winner calls s hfailure
    refine iff_of_true ⟨fun _ => hdata, fun text htext => ?_⟩ fun text htext => by cases htext
    rw [herror] at htext
    cases htext
  | some text =>
    obtain ⟨hstatus, herror⟩ :=
      reconcile_of_failure now ns hsmSecret name winner calls {} s hfailure
    constructor
    · intro h other hother
      obtain rfl := Option.some.inj hother
      have hreported := h.error text herror
      rwa [hstatus] at hreported
    · intro h
      have hprior := h text rfl
      refine ⟨fun hinSync => ?_, fun other hother => ?_⟩
      · rw [hstatus, hprior.1] at hinSync
        cases hinSync
      · rw [herror] at hother
        obtain rfl := Option.some.inj hother
        rw [hstatus]
        exact hprior

private def inSyncBefore : Stored where
  status := { syncStatus := some .inSync }
  secret := some { data := assign ∅ Prod.fst Prod.snd [("password", utf8 "old")] }

private def newPassword : DeviceRead where
  data := assign ∅ Prod.fst Prod.snd [("password", utf8 "new")]
  metadata := none

/-- The data has changed in the HSM and the update of the Secret is refused: the status stays
InSync. -/
theorem refused_update_stays_inSync :
    ¬ Truthful newPassword.data (reconcile 0 "apps" { uid := "u1" } "db" newPassword
      { update := .refused ⟨.other, "forbidden"⟩ } {} inSyncBefore) := by
  intro h
  have hdata := h.inSync (by decide +kernel)
  revert hdata
  decide +kernel

end HsmSecretsOperator.Controller.Status
