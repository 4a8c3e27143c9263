/- source: internal/controller/hsmpool_agent_controller.go, internal/controller/constants.go
   digest: Making an agent anew, and waiting for the discovery pod of its node. -/

import HsmSecretsOperator.Foundation.ApiServer
import HsmSecretsOperator.Pool.Agents

set_option autoImplicit false

namespace HsmSecretsOperator.Pool.Deferral

open Agents
open Aggregation (PodPhase)
open Discovery.Report (DiscoveredDevice)
open Foundation.ApiServer

/-- The fields of a security context that are compared; none where the field is not set. -/
structure SecurityContext where
  privileged : Option Bool := none
  allowPrivilegeEscalation : Option Bool := none
  readOnlyRootFilesystem : Option Bool := none
  /-- The capabilities that are dropped. -/
  drop : Option (List String) := none
  deriving DecidableEq

structure Container where
  image : String
  securityContext : Option SecurityContext
  deriving DecidableEq

structure Volume where
  name : String
  hostPath : Option String := none
  deriving DecidableEq

structure NodeSelectorRequirement where
  key : String
  /-- The operator is In. -/
  isIn : Bool
  values : List String
  deriving DecidableEq

/-- A deployment with what the controller compares of its template. -/
structure AgentDeployment extends Deployment where
  uid : String
  containers : List Container
  volumes : List Volume
  /-- The terms of the required node affinity. -/
  nodeAffinity : Option (List (List NodeSelectorRequirement))
  deriving DecidableEq

def labelHostname : String := "kubernetes.io/hostname"

def agentTLSVolumeName : String := "agent-mtls"

def volumeNameHSMDevice : String := "hsm-device"

def capabilityAll : String := "ALL"

/-- The settings of the reconciler that go into a template. -/
structure Settings where
  agentImage : String := ""
  agentTLSEnabled : Bool := false
  agentTLSSecretName : String := ""

def Settings.wantTLS (settings : Settings) : Bool :=
  settings.agentTLSEnabled && settings.agentTLSSecretName ≠ ""

/-- The image that is set, or the one that was found out. -/
def Settings.expectedImage (settings : Settings) (resolved : String) : String :=
  if settings.agentImage ≠ "" then settings.agentImage else resolved

def securityContextNeedsUpdate : Option SecurityContext → Bool
  | none => true
  | some sc =>
    if sc.privileged = some true then true
    else if sc.allowPrivilegeEscalation ≠ some false then true
    else if sc.readOnlyRootFilesystem ≠ some true then true
    else
      match sc.drop with
      | none => true
      | some drop => capabilityAll ∉ drop

def agentNeedsUpdate (settings : Settings) (resolved : String) (deployment : AgentDeployment) :
    Except String Bool :=
  match deployment.containers with
  | [] => .error "deployment has no containers"
  | container :: _ =>
    let expectedImage := settings.expectedImage resolved
    let hasTLSVolume := deployment.volumes.any fun vol => vol.name = agentTLSVolumeName
    if expectedImage ≠ "" ∧ container.image ≠ expectedImage then .ok true
    else if settings.wantTLS ≠ hasTLSVolume then .ok true
    else .ok (securityContextNeedsUpdate container.securityContext)

def deploymentNeedsUpdateForDevice (deployment : AgentDeployment) (device : DiscoveredDevice) :
    Bool :=
  match deployment.nodeAffinity with
  | none => true
  | some terms =>
    let nodeMatches := terms.any fun term => term.any fun expr =>
      expr.key = labelHostname && expr.isIn && device.nodeName ∈ expr.values
    if terms.isEmpty then true
    else if !nodeMatches then true
    else deployment.volumes.any fun vol =>
      vol.name = volumeNameHSMDevice && vol.hostPath.any fun path => path ≠ device.devicePath

structure DiscoveryPod where
  nodeName : String
  terminating : Bool := false
  /-- The label pod-template-generation, empty if it is missing. -/
  templateGeneration : String
  phase : PodPhase
  /-- The types of the conditions, and whether they are true. -/
  conditions : List (String × Bool)

def podPhaseName : PodPhase → String
  | .running => "Running"
  | .pending => "Pending"
  | .failed => "Failed"
  | .succeeded => "Succeeded"
  | .unknown => "Unknown"

/-- The answers to the calls of one wait: the generation of the DaemonSet, and its pods. -/
structure DiscoveryCalls where
  daemonSet : Except ApiError Int
  pods : Except ApiError (List DiscoveryPod)

/-- The reason why a pod is not current, if it is not. -/
def podReason (generation : Int) (pod : DiscoveryPod) : Option String :=
  if pod.templateGeneration ≠ toString generation then
    some "discovery pod is running an outdated template"
  else if pod.phase ≠ .running then some ("discovery pod is " ++ podPhaseName pod.phase)
  else
    match pod.conditions.find? fun cond => cond.1 = "Ready" with
    | some (_, true) => none
    | some (_, false) | none => some "discovery pod is not ready"

/-- Without a DaemonSet nothing is waited for. The first pod on the node that stays decides. -/
def discoveryCurrentOnNode (calls : DiscoveryCalls) (nodeName : String) :
    Except String (Option String) :=
  match calls.daemonSet with
  | .error e =>
    if e.reason = .notFound then .ok none
    else .error ("failed to get discovery DaemonSet: " ++ e.text)
  | .ok generation =>
    match calls.pods with
    | .error e => .error ("failed to list discovery pods: " ++ e.text)
    | .ok pods =>
      match pods.find? fun pod => pod.nodeName = nodeName && !pod.terminating with
      | none => .ok (some "no discovery pod on node")
      | some pod => .ok (podReason generation pod)

/-- The cluster as each call of `ensureAgentOnNode` finds it. -/
structure Calls where
  /-- The agent that exists when the call begins, and the failure of its read. -/
  existing : Option AgentDeployment
  get : Option ApiError := none
  resolvedImage : String := ""
  beforeDelete : DiscoveryCalls
  /-- The uid of the deployment that has the name when it is deleted. -/
  stored : Option String
  delete : Fate := .served
  beforeCreate : DiscoveryCalls
  device : Option ApiError := none
  create : Fate := .served
  createdUid : String := ""

def notFound : ApiError := ⟨.notFound, "not found"⟩

def Calls.getDeployment (calls : Calls) : Except ApiError AgentDeployment :=
  match calls.get with
  | some e => .error e
  | none =>
    match calls.existing with
    | none => .error notFound
    | some deployment => .ok deployment

/-- The uids that the call deletes, and the failure that it reports. A deployment is deleted by its
name. -/
def Calls.deleteDeployment (calls : Calls) : List String × Option ApiError :=
  match calls.delete with
  | .served =>
    match calls.stored with
    | none => ([], some notFound)
    | some uid => ([uid], none)
  | .refused e => ([], some e)
  | .lost text => (calls.stored.toList, some ⟨.other, text⟩)

/-- The text of a failure other than that there is no such object. -/
def textOf : Option ApiError → Option String
  | none => none
  | some e => if e.reason = .notFound then none else some e.text

/-- The uids that the call has deleted and the deployment that it has created. -/
structure Effects where
  deleted : List String := []
  created : Option AgentDeployment := none

structure Outcome extends Effects where
  error : Option AgentError := none

section Ensure

variable (settings : Settings) (deviceName : String) (device : DiscoveredDevice)
  (agentName : String) (calls : Calls)

def hardened : SecurityContext where
  privileged := some false
  allowPrivilegeEscalation := some false
  readOnlyRootFilesystem := some true
  drop := some [capabilityAll]

/-- The volumes of an agent, with that of its certificate where there is one. -/
def agentVolumes : List Volume :=
  let volumes := [{ name := "tmp" }, { name := "pcscd-run" }, { name := "pcscd-lock" }]
  if settings.wantTLS then volumes ++ [{ name := agentTLSVolumeName }] else volumes

def newAgent : AgentDeployment where
  name := agentName
  appName := some agentNamePrefix
  hsmDevice := some deviceName
  hostname := some device.nodeName
  uid := calls.createdUid
  containers :=
    [{ image := settings.expectedImage calls.resolvedImage, securityContext := some hardened }]
  volumes := agentVolumes settings
  nodeAffinity := some [[{ key := labelHostname, isIn := true, values := [device.nodeName] }]]

def createAgentDeployment : Outcome :=
  if agentName = "" then { error := some (.failed "agentName is required") }
  else
    match calls.device with
    | some e => { error := some (.failed s!"failed to get HSMDevice {deviceName}: {e.text}") }
    | none =>
      let deployment := newAgent settings deviceName device agentName calls
      match calls.create with
      | .served => { created := some deployment }
      | .refused e => { error := some (.failed e.text) }
      | .lost text => { error := some (.failed text), created := some deployment }

def needsRecreation (deployment : AgentDeployment) : Except String Bool :=
  recreationNeeded (isDeploymentOnNode deployment.toDeployment device.nodeName)
    (agentNeedsUpdate settings calls.resolvedImage deployment)
    (deploymentNeedsUpdateForDevice deployment device)

/-- The agent as the calls find it. -/
def access : Access Effects AgentDeployment where
  get _ :=
    match calls.getDeployment with
    | .error e =>
      if e.reason = .notFound then .ok none else .error e.text
    | .ok deployment => .ok (some deployment)
  needsRecreation := needsRecreation settings device calls
  beforeDelete := discoveryCurrentOnNode calls.beforeDelete device.nodeName
  beforeCreate := discoveryCurrentOnNode calls.beforeCreate device.nodeName
  delete w := ({ w with deleted := calls.deleteDeployment.1 }, textOf calls.deleteDeployment.2)
  createAgentDeployment w :=
    let out := createAgentDeployment settings deviceName device agentName calls
    ({ w with created := out.created }, out.error)

def ensureAgentOnNode : Outcome :=
  let r := (access settings deviceName device agentName calls).ensureAgentOnNode device.nodeName {}
  { r.1 with error := r.2 }

/-- The call ends with the error that puts it off. -/
def Deferred (out : Outcome) : Prop := ∃ text, out.error = some (.discoveryNotReady text)

/-- The agent is deleted while its node is ready, and the node is not ready any more right after. -/
def Overtaken : Prop :=
  ∃ deployment reason, calls.getDeployment = .ok deployment ∧
    needsRecreation settings device calls deployment = .ok true ∧
    discoveryCurrentOnNode calls.beforeDelete device.nodeName = .ok none ∧
    calls.delete = .served ∧ calls.stored = some deployment.uid ∧
    discoveryCurrentOnNode calls.beforeCreate device.nodeName = .ok (some reason)

end Ensure

section Waits

variable {settings : Settings} {deviceName : String} {device : DiscoveredDevice}
  {agentName : String} {calls : Calls}

theorem gateOnDiscovery_eq_none {current : Except String (Option String)} {nodeName : String} :
    gateOnDiscovery current nodeName = none ↔ current = .ok none := by
  cases current with
  | error e => simp [gateOnDiscovery]
  | ok reason =>
    cases reason with
    | none => simp [gateOnDiscovery]
    | some reason => simp [gateOnDiscovery]

theorem not_deferred_createAgentDeployment :
    ¬ Deferred (createAgentDeployment settings deviceName device agentName calls) := by
  rintro ⟨text, htext⟩
  unfold createAgentDeployment at htext
  split at htext
  · cases htext
  split at htext
  · cases htext
  dsimp only at htext
  split at htext
  · cases htext
  · cases htext
  · cases htext

theorem deferred_createAgent {w : Effects} :
    (∃ text, ((access settings deviceName device agentName calls).createAgent device.nodeName w).2 =
        some (.discoveryNotReady text)) ↔
      ∃ reason, discoveryCurrentOnNode calls.beforeCreate device.nodeName = .ok (some reason) := by
  unfold Access.createAgent gateOnDiscovery
  dsimp only [access]
  cases discoveryCurrentOnNode calls.beforeCreate device.nodeName with
  | error e => simp
  | ok reason =>
    cases reason with
    | none =>
      refine iff_of_false (fun h => not_deferred_createAgentDeployment h) ?_
      simp
    | some reason => simp

theorem deleted_createAgent (w : Effects) :
    ((access settings deviceName device agentName calls).createAgent device.nodeName w).1.deleted =
      w.deleted := by
  unfold Access.createAgent
  split
  · rfl
  · rfl

theorem of_getDeployment {deployment : AgentDeployment}
    (h : calls.getDeployment = .ok deployment) : calls.existing = some deployment := by
  unfold Calls.getDeployment at h
  split at h
  · cases h
  split at h
  · cases h
  next hexisting =>
    rw [hexisting]
    exact congrArg some (Except.ok.inj h)

theorem deferred_recreateAgent {uid : String} :
    let r := (access settings deviceName device agentName calls).recreateAgent device.nodeName {}
    ((∃ text, r.2 = some (.discoveryNotReady text)) ∧ uid ∈ r.1.deleted) ↔
      discoveryCurrentOnNode calls.beforeDelete device.nodeName = .ok none ∧
        calls.delete = .served ∧ calls.stored = some uid ∧ ∃ reason,
          discoveryCurrentOnNode calls.beforeCreate device.nodeName = .ok (some reason) := by
  intro r
  rw [← gateOnDiscovery_eq_none]
  have hdelete (w : Effects) : (access settings deviceName device agentName calls).delete w =
      ({ w with deleted := calls.deleteDeployment.1 }, textOf calls.deleteDeployment.2) := rfl
  have hgate : (access settings deviceName device agentName calls).beforeDelete =
      discoveryCurrentOnNode calls.beforeDelete device.nodeName := rfl
  simp only [r, Access.recreateAgent, hgate, hdelete, Calls.deleteDeployment]
  cases gateOnDiscovery (discoveryCurrentOnNode calls.beforeDelete device.nodeName)
      device.nodeName with
  | some e => simp
  | none =>
    cases calls.delete with
    | served =>
      cases calls.stored with
      | none => simp [textOf, notFound, deleted_createAgent]
      | some stored =>
        simp only [textOf, deferred_createAgent, deleted_createAgent, List.mem_singleton, true_and,
          Option.some.injEq]
        rw [and_comm, eq_comm]
    | refused e =>
      dsimp only [textOf]
      split
      · simp
      · simp [deleted_createAgent]
    | lost text => simp [textOf]

theorem lost_iff_overtaken :
    (Deferred (ensureAgentOnNode settings deviceName device agentName calls) ∧
        ∃ deployment, calls.existing = some deployment ∧ deployment.uid ∈
          (ensureAgentOnNode settings deviceName device agentName calls).deleted) ↔
      Overtaken settings device calls := by
  have hget : (access settings deviceName device agentName calls).get {} =
      match calls.getDeployment with
      | .error e => if e.reason = .notFound then .ok none else .error e.text
      | .ok deployment => .ok (some deployment) := rfl
  have hneeds : (access settings deviceName device agentName calls).needsRecreation =
      needsRecreation settings device calls := rfl
  simp only [Overtaken, Deferred, ensureAgentOnNode, Access.ensureAgentOnNode, hget, hneeds]
  cases hfound : calls.getDeployment with
  | error e =>
    by_cases hreason : e.reason = .notFound
    · simp [hreason, deleted_createAgent]
    · simp [hreason]
  | ok deployment =>
    have hexisting := of_getDeployment hfound
    simp only [hexisting, Option.some.injEq, Except.ok.injEq, exists_and_left, exists_eq_left']
    cases needsRecreation settings device calls deployment with
    | error text => simp
    | ok needed =>
      cases needed with
      | false => simp
      | true => simpa using deferred_recreateAgent

end Waits

/-- A call that is put off leaves the agent in place, exactly if the discovery pod of the node does
not cease to be current between the deletion of the agent and the next look at the pod. -/
theorem deferral_keeps_agent_iff (settings : Settings) (deviceName : String)
    (device : DiscoveredDevice) (agentName : String) (calls : Calls) :
    (Deferred (ensureAgentOnNode settings deviceName device agentName calls) →
        ∀ deployment, calls.existing = some deployment → deployment.uid ∉
          (ensureAgentOnNode settings deviceName device agentName calls).deleted) ↔
      ¬ Overtaken settings device calls := by
  rw [← lost_iff_overtaken, not_and, not_exists]
  exact forall_congr' fun _ => forall_congr' fun _ => not_and.symm

section Templates

variable (settings : Settings) (deviceName : String) (device : DiscoveredDevice)
  (agentName : String) (calls : Calls)

theorem any_agentVolumes_tls :
    ((agentVolumes settings).any fun vol => vol.name = agentTLSVolumeName) = settings.wantTLS := by
  unfold agentVolumes
  cases settings.wantTLS with
  | true => decide
  | false => decide

theorem name_ne_of_mem_agentVolumes {vol : Volume} (h : vol ∈ agentVolumes settings) :
    vol.name ≠ volumeNameHSMDevice := by
  revert vol
  unfold agentVolumes
  cases settings.wantTLS with
  | true => decide
  | false => decide

theorem isDeploymentOnNode_newAgent (nodeName : String) :
    isDeploymentOnNode (newAgent settings deviceName device agentName calls).toDeployment
      nodeName = decide (device.nodeName = nodeName) := by
  simp [isDeploymentOnNode, newAgent]

theorem agentNeedsUpdate_newAgent (settings' : Settings) (resolved : String) :
    agentNeedsUpdate settings' resolved (newAgent settings deviceName device agentName calls) =
      .ok (decide (settings'.expectedImage resolved ≠ "" ∧
          settings.expectedImage calls.resolvedImage ≠ settings'.expectedImage resolved ∨
        settings'.wantTLS ≠ settings.wantTLS)) := by
  have hsecurity : securityContextNeedsUpdate (some hardened) = false := by decide
  simp only [agentNeedsUpdate, newAgent, any_agentVolumes_tls, hsecurity]
  by_cases himage : settings'.expectedImage resolved ≠ "" ∧
      settings.expectedImage calls.resolvedImage ≠ settings'.expectedImage resolved
  · rw [if_pos himage, decide_eq_true (.inl himage)]
  · rw [if_neg himage]
    by_cases htls : settings'.wantTLS ≠ settings.wantTLS
    · rw [if_pos htls, decide_eq_true (.inr htls)]
    · rw [if_neg htls, decide_eq_false (not_or.mpr ⟨himage, htls⟩)]

theorem deploymentNeedsUpdateForDevice_newAgent (device' : DiscoveredDevice) :
    deploymentNeedsUpdateForDevice (newAgent settings deviceName device agentName calls) device' =
      decide (device'.nodeName ≠ device.nodeName) := by
  have hpaths : ((agentVolumes settings).any fun vol => vol.name = volumeNameHSMDevice &&
      vol.hostPath.any fun path => path ≠ device'.devicePath) = false := by
    rw [List.any_eq_false]
    intro vol hvol
    simp [name_ne_of_mem_agentVolumes settings hvol]
  simp only [deploymentNeedsUpdateForDevice, newAgent, hpaths]
  simp

/-- Everything that makes the controller replace an agent which it has made. -/
theorem needsRecreation_newAgent_eq (settings' : Settings) (device' : DiscoveredDevice)
    (calls' : Calls) :
    needsRecreation settings' device' calls' (newAgent settings deviceName device agentName calls) =
      .ok (decide (device'.nodeName ≠ device.nodeName ∨
        settings'.expectedImage calls'.resolvedImage ≠ "" ∧
          settings.expectedImage calls.resolvedImage ≠
            settings'.expectedImage calls'.resolvedImage ∨
        settings'.wantTLS ≠ settings.wantTLS)) := by
  rw [needsRecreation, isDeploymentOnNode_newAgent, agentNeedsUpdate_newAgent,
    deploymentNeedsUpdateForDevice_newAgent]
  by_cases hnode : device.nodeName = device'.nodeName
  · simp [recreationNeeded, hnode]
  · simp [recreationNeeded, hnode, Ne.symm hnode]

/-- An agent that was created is on its node and up to date, so that the next call leaves it. -/
theorem needsRecreation_newAgent :
    needsRecreation settings device calls
      (newAgent settings deviceName device agentName calls) = .ok false := by
  rw [needsRecreation_newAgent_eq]
  simp

end Templates

private def readyPod (templateGeneration : String) : DiscoveryPod where
  nodeName := "n1"
  templateGeneration
  phase := .running
  conditions := [("Ready", true)]

private def movedAgent : AgentDeployment where
  name := "hsm-agent-pico-dc6a"
  appName := some agentNamePrefix
  hsmDevice := some "pico"
  hostname := some "n2"
  uid := "u1"
  containers := []
  volumes := []
  nodeAffinity := none

private def rollout : Calls where
  existing := some movedAgent
  beforeDelete := { daemonSet := .ok 1, pods := .ok [readyPod "1"] }
  stored := some "u1"
  beforeCreate := { daemonSet := .ok 2, pods := .ok [readyPod "1"] }

private def movedDevice : DiscoveredDevice where
  devicePath := "/dev/bus/usb/001/004"
  serialNumber := "DC6A"
  nodeName := "n1"
  lastSeen := 0
  available := true

/-- The template of the DaemonSet changes right after the old agent was deleted: the call is put off
and there is no agent. -/
theorem rollout_loses_agent :
    let out := ensureAgentOnNode {} "pico" movedDevice "hsm-agent-pico-dc6a" rollout
    Deferred out ∧ rollout.existing = some movedAgent ∧ movedAgent.uid ∈ out.deleted ∧
      out.created = none :=
  ⟨⟨_, rfl⟩, rfl, by decide, rfl⟩

end HsmSecretsOperator.Pool.Deferral
