/- source: internal/controller/hsmsecret_controller.go
   digest: The Secrets of a namespace under reconciles and deletions of its HSMSecrets. -/

import HsmSecretsOperator.Controller.HsmSecret

set_option autoImplicit false

namespace HsmSecretsOperator.Controller.SecretObjects

open Foundation.Maps Hsm.Secret HsmSecret

def hsmSecretFinalizer : String := "hsmsecret.hsm.j5t.io/finalizer"

structure ParentReference where
  name : String
  ns : Option String := none
  deriving DecidableEq

structure HSMSecret where
  uid : String
  parentRef : Option ParentReference := none
  secretName : String := ""
  secretType : String := ""
  deletionTimestamp : Option Nat := none
  finalizers : List String := []
  deriving DecidableEq

/-- A Secret, with the uid of its controller owner. -/
structure Secret where
  data : SecretData
  labels : Labels := ∅
  annotations : Labels := ∅
  secretType : String := "Opaque"
  controller : Option String := none
  deriving DecidableEq

structure Operator where
  name : String
  ns : String

def shouldHandleSecret (op : Operator) (hsmSecret : HSMSecret) : Bool :=
  match hsmSecret.parentRef with
  | none => false
  | some parentRef =>
    if parentRef.name ≠ op.name then false else parentRef.ns.getD op.ns = op.ns

/-- The name of the Secret that an HSMSecret stands for. -/
def HSMSecret.target (hsmSecret : HSMSecret) (name : String) : String :=
  if hsmSecret.secretName = "" then name else hsmSecret.secretName

def isAlphaNumeric (c : Char) : Bool :=
  ('a' ≤ c && c ≤ 'z') || ('A' ≤ c && c ≤ 'Z') || ('0' ≤ c && c ≤ '9')

/-- The loop over the characters of a label key or value; it only accepts ASCII, so that positions
of bytes and of characters are the same. -/
def isLabelText (s : String) : Bool :=
  s.toList.all (fun c => isAlphaNumeric c || c = '-' || c = '_' || c = '.') &&
    s.toList.head?.all isAlphaNumeric && s.toList.getLast?.all isAlphaNumeric

def isValidKubernetesLabelKey (key : String) : Bool :=
  key ≠ "" && key.utf8ByteSize ≤ 63 && isLabelText key

def isValidKubernetesLabelValue (value : String) : Bool :=
  value.utf8ByteSize ≤ 63 && isLabelText value

/-- The fields of the metadata that become annotations. -/
def metadataAnnotations (m : SecretMetadata) : List (String × String) :=
  [("hsm.j5t.io/description", m.description), ("hsm.j5t.io/format", m.format),
    ("hsm.j5t.io/data-type", m.dataType), ("hsm.j5t.io/source", m.source),
    ("hsm.j5t.io/created-at", m.createdAt)]

def applyMetadataToLabelsAndAnnotations (labels annotations : Labels)
    (hsmMetadata : Option SecretMetadata) : Labels × Labels :=
  match hsmMetadata with
  | none => (labels, annotations)
  | some m =>
    (assign labels Prod.fst Prod.snd (m.labels.toList.filter fun e =>
        isValidKubernetesLabelKey e.1 && isValidKubernetesLabelValue e.2),
      assign annotations Prod.fst Prod.snd ((metadataAnnotations m).filter fun e => e.2 ≠ ""))

def operatorLabels (labels : Labels) (name : String) : Labels :=
  (labels.insert "managed-by" "hsm-secrets-operator").insert "hsm-path"
    (name.map fun c => if c = '/' then '_' else c)

/-- A new Secret. The owner reference can be set, as the two are in one namespace and the Secret has
no owner yet. -/
def buildSecret (hsmSecret : HSMSecret) (name : String) (hsmData : SecretData)
    (hsmMetadata : Option SecretMetadata) : Secret :=
  let applied := applyMetadataToLabelsAndAnnotations (operatorLabels ∅ name) ∅ hsmMetadata
  { data := convertHSMDataToSecretData hsmData
    labels := applied.1
    annotations := applied.2
    secretType := if hsmSecret.secretType = "" then "Opaque" else hsmSecret.secretType
    controller := some hsmSecret.uid }

def updateSecretWithMetadata (secret : Secret) (name : String) (hsmData : SecretData)
    (hsmMetadata : Option SecretMetadata) : Secret :=
  let applied := applyMetadataToLabelsAndAnnotations (operatorLabels secret.labels name)
    secret.annotations hsmMetadata
  { secret with
    data := convertHSMDataToSecretData hsmData
    labels := applied.1
    annotations := applied.2 }

/-- The HSMSecrets and the Secrets of a namespace. No two HSMSecrets have one uid. -/
structure Namespace where
  hsmSecrets : Std.ExtTreeMap String HSMSecret
  secrets : Std.ExtTreeMap String Secret
  distinct : ∀ (a b : String) (x y : HSMSecret), hsmSecrets[a]? = some x → hsmSecrets[b]? = some y →
    x.uid = y.uid → a = b

namespace Namespace

def putSecret (n : Namespace) (secretName : String) (secret : Secret) : Namespace :=
  { n with secrets := n.secrets.insert secretName secret }

def dropSecret (n : Namespace) (secretName : String) : Namespace :=
  { n with secrets := n.secrets.erase secretName }

theorem hsmSecrets_dropSecret (n : Namespace) (secretName : String) :
    (n.dropSecret secretName).hsmSecrets = n.hsmSecrets := rfl

/-- Write an HSMSecret back under its uid. -/
def putObject (n : Namespace) (name : String) (hsmSecret : HSMSecret)
    (h : ∃ x, n.hsmSecrets[name]? = some x ∧ x.uid = hsmSecret.uid) : Namespace where
  hsmSecrets := n.hsmSecrets.insert name hsmSecret
  secrets := n.secrets
  distinct := by
    obtain ⟨old, hold, huid⟩ := h
    -- The object that was there had the uid already.
    have hback : ∀ (a : String) x, (n.hsmSecrets.insert name hsmSecret)[a]? = some x →
        ∃ x', n.hsmSecrets[a]? = some x' ∧ x'.uid = x.uid := by
      intro a x hx
      rcases of_getElem?_insert hx with ⟨rfl, rfl⟩ | hx
      · exact ⟨old, hold, huid⟩
      · exact ⟨x, hx, rfl⟩
    intro a b x y hx hy heq
    obtain ⟨x', hx', hux⟩ := hback a x hx
    obtain ⟨y', hy', huy⟩ := hback b y hy
    exact n.distinct a b x' y' hx' hy' (by rw [hux, huy, heq])

def dropObject (n : Namespace) (name : String) : Namespace where
  hsmSecrets := n.hsmSecrets.erase name
  secrets := n.secrets
  distinct := by
    intro a b x y hx hy heq
    exact n.distinct a b x y (of_getElem?_erase hx) (of_getElem?_erase hy) heq

end Namespace

/-- What a reconcile meets: what the devices give for the HSMSecret, and which calls fail. -/
structure Env where
  outcome : Outcome := .noDevices
  getFails : Bool := false
  createFails : Bool := false
  updateFails : Bool := false
  deleteFails : Bool := false
  finalizerFails : Bool := false

/-- The calls for the Secret of one name; what their errors say is left open. -/
def secretApi (env : Env) (secretName : String) : KubernetesApi Namespace Secret where
  get n := if env.getFails then .error "" else .ok n.secrets[secretName]?
  create n secret :=
    if env.createFails then (n, .error "") else (n.putSecret secretName secret, .ok secret)
  update n secret :=
    if env.updateFails then (n, .error "") else (n.putSecret secretName secret, .ok secret)

def updateKubernetesSecret (env : Env) (n : Namespace) (name : String) (hsmSecret : HSMSecret)
    (winner : DeviceRead) : Namespace :=
  (applySecret (secretApi env (hsmSecret.target name))
    (buildSecret hsmSecret name winner.data winner.metadata)
    (fun k8sSecret => updateSecretWithMetadata k8sSecret name winner.data winner.metadata) n).1

/-- What holds of the namespace and of every Secret that can be written to it holds after the
update. -/
theorem updateKubernetesSecret_cases {I : Namespace → Prop} (env : Env) (n : Namespace)
    (name : String) (hsmSecret : HSMSecret) (winner : DeviceRead) (h : I n)
    (hcreate : n.secrets[hsmSecret.target name]? = none →
      I (n.putSecret (hsmSecret.target name)
        (buildSecret hsmSecret name winner.data winner.metadata)))
    (hupdate : ∀ k8sSecret, n.secrets[hsmSecret.target name]? = some k8sSecret →
      I (n.putSecret (hsmSecret.target name)
        (updateSecretWithMetadata k8sSecret name winner.data winner.metadata))) :
    I (updateKubernetesSecret env n name hsmSecret winner) := by
  unfold updateKubernetesSecret applySecret
  dsimp only [secretApi]
  cases env.getFails with
  | true => exact h
  | false =>
    simp only [Bool.false_eq_true, if_false]
    cases hsecret : n.secrets[hsmSecret.target name]? with
    | none =>
      cases env.createFails with
      | true => exact h
      | false => exact hcreate hsecret
    | some k8sSecret =>
      cases env.updateFails with
      | true => exact h
      | false => exact hupdate k8sSecret hsecret

/-- The API server keeps an object that is being deleted as long as it has finalizers. -/
def releaseObject (n : Namespace) (name : String) (hsmSecret : HSMSecret)
    (h : n.hsmSecrets[name]? = some hsmSecret) : Namespace :=
  let finalizers := hsmSecret.finalizers.filter fun f => f ≠ hsmSecretFinalizer
  if finalizers = [] then n.dropObject name
  else n.putObject name { hsmSecret with finalizers } ⟨hsmSecret, h, rfl⟩

def reconcileDelete (env : Env) (n : Namespace) (name : String) (hsmSecret : HSMSecret)
    (h : n.hsmSecrets[name]? = some hsmSecret) : Namespace :=
  let secretName := hsmSecret.target name
  let found := !env.getFails && secretName ∈ n.secrets
  if hsmSecretFinalizer ∉ hsmSecret.finalizers then n
  else if found then
    if env.deleteFails then n
    else if env.finalizerFails then n.dropSecret secretName
    else releaseObject (n.dropSecret secretName) name hsmSecret (by
      rw [Namespace.hsmSecrets_dropSecret, h])
  else if env.finalizerFails then n
  else releaseObject n name hsmSecret h

def reconcileExisting (op : Operator) (env : Env) (n : Namespace) (name : String)
    (hsmSecret : HSMSecret) (h : n.hsmSecrets[name]? = some hsmSecret) : Namespace :=
  if !shouldHandleSecret op hsmSecret then n
  else if hsmSecret.deletionTimestamp.isSome then reconcileDelete env n name hsmSecret h
  else if hsmSecretFinalizer ∉ hsmSecret.finalizers then
    if env.finalizerFails then n
    else n.putObject name
      { hsmSecret with finalizers := hsmSecret.finalizers ++ [hsmSecretFinalizer] }
      ⟨hsmSecret, h, rfl⟩
  else
    match env.outcome with
    | .apply winner _ => updateKubernetesSecret env n name hsmSecret winner
    | _ => n

def reconcile (op : Operator) (env : Env) (n : Namespace) (name : String) : Namespace :=
  match h : n.hsmSecrets[name]? with
  | none => n
  | some hsmSecret => reconcileExisting op env n name hsmSecret h

/-- A user deletes an HSMSecret: without finalizers it goes at once. -/
def requestDeletion (now : Nat) (n : Namespace) (name : String) : Namespace :=
  match h : n.hsmSecrets[name]? with
  | none => n
  | some hsmSecret =>
    if hsmSecret.finalizers = [] then n.dropObject name
    else if hsmSecret.deletionTimestamp.isSome then n
    else n.putObject name { hsmSecret with deletionTimestamp := some now } ⟨hsmSecret, h, rfl⟩

inductive Event
  | reconcile (name : String) (env : Env)
  | delete (name : String) (now : Nat)

def step (op : Operator) (n : Namespace) : Event → Namespace
  | .reconcile name env => reconcile op env n name
  | .delete name now => requestDeletion now n name

end HsmSecretsOperator.Controller.SecretObjects
