/- source: internal/controller/hsmpool_agent_controller.go
   digest: What the checks of a deployed agent notice of a change, and what they do not. -/

import HsmSecretsOperator.Pool.Deferral

set_option autoImplicit false

namespace HsmSecretsOperator.Pool.Drift

open Agents (isDeploymentOnNode)
open Deferral
open Discovery.Report (DiscoveredDevice)
open Foundation.ApiServer

section Created

variable {settings : Settings} {deviceName : String} {device : DiscoveredDevice}
  {agentName : String} {calls : Calls} {deployment : AgentDeployment}

theorem eq_newAgent_of_created
    (h : (createAgentDeployment settings deviceName device agentName calls).created =
      some deployment) :
    agentName ≠ "" ∧ deployment = newAgent settings deviceName device agentName calls := by
  unfold createAgentDeployment at h
  split at h
  · cases h
  next hname =>
    refine ⟨hname, ?_⟩
    split at h
    · cases h
    dsimp only at h
    split at h
    · exact (Option.some.inj h).symm
    · cases h
    · exact (Option.some.inj h).symm

theorem no_write_of_upToDate (hstored : calls.existing = some deployment)
    (hget : ∀ e, calls.get = some e → e.reason ≠ .notFound)
    (hcurrent : needsRecreation settings device calls deployment = .ok false) :
    (ensureAgentOnNode settings deviceName device agentName calls).deleted = [] ∧
      (ensureAgentOnNode settings deviceName device agentName calls).created = none := by
  have hneeds : (access settings deviceName device agentName calls).needsRecreation deployment =
      .ok false := hcurrent
  unfold ensureAgentOnNode Agents.Access.ensureAgentOnNode
  cases hread : calls.get with
  | some e => simp [access, Calls.getDeployment, hread, hget e hread]
  | none =>
    have hfound : (access settings deviceName device agentName calls).get {} =
        .ok (some deployment) := by simp [access, Calls.getDeployment, hread, hstored]
    simp only [hfound, hneeds]
    exact ⟨trivial, trivial⟩

end Created

/-- A deployment that was just created for a device passes all checks for this device, and the next
call for it writes nothing. -/
theorem fresh_agent_is_fixed_point (settings : Settings) (deviceName : String)
    (device : DiscoveredDevice) (agentName : String) (first second : Calls)
    (deployment : AgentDeployment)
    (hcreated : (createAgentDeployment settings deviceName device agentName first).created =
      some deployment)
    (hresolver : second.resolvedImage = first.resolvedImage)
    (hstored : second.existing = some deployment)
    (hget : ∀ e, second.get = some e → e.reason ≠ .notFound) :
    isDeploymentOnNode deployment.toDeployment device.nodeName = true ∧
      agentNeedsUpdate settings second.resolvedImage deployment = .ok false ∧
      deploymentNeedsUpdateForDevice deployment device = false ∧
      (ensureAgentOnNode settings deviceName device agentName second).deleted = [] ∧
      (ensureAgentOnNode settings deviceName device agentName second).created = none := by
  obtain ⟨-, rfl⟩ := eq_newAgent_of_created hcreated
  refine ⟨?_, ?_, ?_, no_write_of_upToDate hstored hget ?_⟩
  · rw [isDeploymentOnNode_newAgent]
    exact decide_eq_true rfl
  · rw [agentNeedsUpdate_newAgent, hresolver]
    simp
  · rw [deploymentNeedsUpdateForDevice_newAgent]
    simp
  · rw [needsRecreation_newAgent_eq, hresolver]
    simp

private def deviceAt (devicePath : String) : DiscoveredDevice where
  devicePath
  serialNumber := "DC6A"
  nodeName := "n1"
  lastSeen := 0
  available := true

private def noDaemonSet : DiscoveryCalls where
  daemonSet := .error notFound
  pods := .ok []

private def firstCalls : Calls where
  existing := none
  beforeDelete := noDaemonSet
  stored := none
  beforeCreate := noDaemonSet
  createdUid := "u1"

private def agentOf (settings : Settings) : AgentDeployment :=
  newAgent settings "pico" (deviceAt "/dev/bus/usb/001/004") "hsm-agent-pico-dc6a" firstCalls

private def secondCalls (settings : Settings) : Calls where
  existing := some (agentOf settings)
  beforeDelete := noDaemonSet
  stored := some "u1"
  beforeCreate := noDaemonSet
  createdUid := "u2"

/-- The next call for an agent with TLS. -/
theorem second_call_writes_nothing :
    let settings : Settings := { agentTLSEnabled := true, agentTLSSecretName := "agent-tls" }
    (ensureAgentOnNode settings "pico" (deviceAt "/dev/bus/usb/001/004") "hsm-agent-pico-dc6a"
      (secondCalls settings)).deleted = [] :=
  (fresh_agent_is_fixed_point { agentTLSEnabled := true, agentTLSSecretName := "agent-tls" } "pico"
    (deviceAt "/dev/bus/usb/001/004") "hsm-agent-pico-dc6a" firstCalls
    (secondCalls { agentTLSEnabled := true, agentTLSSecretName := "agent-tls" })
    (agentOf { agentTLSEnabled := true, agentTLSSecretName := "agent-tls" }) rfl rfl rfl
    nofun).2.2.2.1

/-- The deployment is found and deleted, the discovery pod of the node is current at each look, and
no call fails. -/
structure Calm (calls : Calls) (deployment : AgentDeployment) (nodeName : String) : Prop where
  get : calls.getDeployment = .ok deployment
  beforeDelete : discoveryCurrentOnNode calls.beforeDelete nodeName = .ok none
  delete : calls.delete = .served
  stored : calls.stored = some deployment.uid
  beforeCreate : discoveryCurrentOnNode calls.beforeCreate nodeName = .ok none
  device : calls.device = none
  create : calls.create = .served

/-- The deployment was replaced by one that was made for the device. -/
def Recreated (settings : Settings) (deviceName : String) (device : DiscoveredDevice)
    (agentName : String) (calls : Calls) (deployment : AgentDeployment) (out : Outcome) : Prop :=
  out.error = none ∧ out.deleted = [deployment.uid] ∧
    out.created = some (newAgent settings deviceName device agentName calls)

section Replacement

variable {settings : Settings} {deviceName : String} {device : DiscoveredDevice}
  {agentName : String} {calls : Calls} {deployment : AgentDeployment}

theorem recreateAgent_of_calm (hname : agentName ≠ "") (h : Calm calls deployment device.nodeName) :
    (access settings deviceName device agentName calls).recreateAgent device.nodeName {} =
      ({ deleted := [deployment.uid]
         created := some (newAgent settings deviceName device agentName calls) }, none) := by
  have hdelete : calls.deleteDeployment = ([deployment.uid], none) := by
    rw [Calls.deleteDeployment, h.delete, h.stored]
  have hcreate : createAgentDeployment settings deviceName device agentName calls =
      { created := some (newAgent settings deviceName device agentName calls) } := by
    rw [createAgentDeployment, if_neg hname, h.device, h.create]
  simp only [Agents.Access.recreateAgent, Agents.Access.createAgent, access,
    gateOnDiscovery_eq_none.mpr h.beforeDelete, gateOnDiscovery_eq_none.mpr h.beforeCreate,
    hdelete, hcreate, textOf]

theorem recreated_iff_needsRecreation (hname : agentName ≠ "")
    (h : Calm calls deployment device.nodeName) {needed : Bool}
    (hneeded : needsRecreation settings device calls deployment = .ok needed) :
    Recreated settings deviceName device agentName calls deployment
      (ensureAgentOnNode settings deviceName device agentName calls) ↔ needed = true := by
  have hget : (access settings deviceName device agentName calls).get {} =
      .ok (some deployment) := by simp only [access, h.get]
  have hneeds : (access settings deviceName device agentName calls).needsRecreation deployment =
      .ok needed := hneeded
  simp only [ensureAgentOnNode, Agents.Access.ensureAgentOnNode, hget, hneeds]
  cases needed with
  | true =>
    rw [recreateAgent_of_calm hname h]
    exact iff_of_true ⟨rfl, rfl, rfl⟩ rfl
  | false =>
    refine iff_of_false ?_ Bool.false_ne_true
    rintro ⟨-, hdeleted, -⟩
    cases hdeleted

end Replacement

/-- The agent of a device is replaced for a device on the same node, whatever its path, exactly if
another image or another use of TLS is set now than when the agent was made. -/
theorem path_change_noticed_iff (settings settings' : Settings) (deviceName : String)
    (device device' : DiscoveredDevice) (agentName : String) (first second : Calls)
    (deployment : AgentDeployment)
    (hcreated : (createAgentDeployment settings deviceName device agentName first).created =
      some deployment)
    (hnode : device'.nodeName = device.nodeName)
    (hcalm : Calm second deployment device'.nodeName) :
    Recreated settings' deviceName device' agentName second deployment
        (ensureAgentOnNode settings' deviceName device' agentName second) ↔
      settings'.expectedImage second.resolvedImage ≠ "" ∧
          settings.expectedImage first.resolvedImage ≠
            settings'.expectedImage second.resolvedImage ∨
        settings'.wantTLS ≠ settings.wantTLS := by
  obtain ⟨hname, rfl⟩ := eq_newAgent_of_created hcreated
  rw [recreated_iff_needsRecreation hname hcalm (needsRecreation_newAgent_eq ..),
    decide_eq_true_eq]
  exact or_iff_right (not_not_intro hnode)

private theorem calm_secondCalls (settings : Settings) :
    Calm (secondCalls settings) (agentOf settings) "n1" :=
  ⟨rfl, rfl, rfl, rfl, rfl, rfl, rfl⟩

/-- The device comes back at another path while the operator is upgraded. -/
theorem path_change_noticed_at_upgrade :
    Recreated { agentImage := "agent:2" } "pico" (deviceAt "/dev/bus/usb/001/005")
      "hsm-agent-pico-dc6a" (secondCalls { agentImage := "agent:1" })
      (agentOf { agentImage := "agent:1" })
      (ensureAgentOnNode { agentImage := "agent:2" } "pico" (deviceAt "/dev/bus/usb/001/005")
        "hsm-agent-pico-dc6a" (secondCalls { agentImage := "agent:1" })) :=
  (path_change_noticed_iff { agentImage := "agent:1" } { agentImage := "agent:2" } "pico"
    (deviceAt "/dev/bus/usb/001/004") (deviceAt "/dev/bus/usb/001/005") "hsm-agent-pico-dc6a"
    firstCalls (secondCalls { agentImage := "agent:1" }) (agentOf { agentImage := "agent:1" }) rfl
    rfl (calm_secondCalls _)).mpr (.inl (by decide))

/-- With the same settings the device at its new path keeps the agent that was made for the old one:
nothing is written. -/
theorem new_path_keeps_agent :
    (deviceAt "/dev/bus/usb/001/005").serialNumber =
        (deviceAt "/dev/bus/usb/001/004").serialNumber ∧
      (deviceAt "/dev/bus/usb/001/005").nodeName = (deviceAt "/dev/bus/usb/001/004").nodeName ∧
      (createAgentDeployment { agentImage := "agent:1" } "pico" (deviceAt "/dev/bus/usb/001/004")
        "hsm-agent-pico-dc6a" firstCalls).created = some (agentOf { agentImage := "agent:1" }) ∧
      Calm (secondCalls { agentImage := "agent:1" }) (agentOf { agentImage := "agent:1" }) "n1" ∧
      ensureAgentOnNode { agentImage := "agent:1" } "pico" (deviceAt "/dev/bus/usb/001/005")
        "hsm-agent-pico-dc6a" (secondCalls { agentImage := "agent:1" }) = {} :=
  ⟨rfl, rfl, rfl, calm_secondCalls _, rfl⟩

end HsmSecretsOperator.Pool.Drift
