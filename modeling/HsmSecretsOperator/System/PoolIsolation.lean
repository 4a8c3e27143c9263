/- source: internal/modes/discovery/discovery.go, internal/controller/hsmpool_controller.go
   digest: Which devices a pool reads from a discovery pod that has processed every HSMDevice. -/

import HsmSecretsOperator.Discovery.Agent
import HsmSecretsOperator.Pool.Aggregation

set_option autoImplicit false

namespace HsmSecretsOperator.System.PoolIsolation

open Discovery.Agent hiding Env
open Discovery.Report Pool.Aggregation

section Discovered

variable (env : Discovery.Agent.Env) (nodeName : String)

/-- The devices discovered for an HSMDevice on a node, as a report keeps them. -/
def discovered (hsmDevice : HSMDevice) : List DiscoveredDevice :=
  if shouldDiscoverOnNode nodeName hsmDevice then
    ((discoverDevicesForSpec env nodeName hsmDevice).toOption.getD []).map DiscoveredDevice.stored
  else []

/-- The USB devices that the criteria of an HSMDevice pick on a node, up to its limit. -/
def picked (hsmDevice : HSMDevice) : List USBDevice :=
  if shouldDiscoverOnNode nodeName hsmDevice then
    let found := (env.usb (buildMatchCriteria hsmDevice)).toOption.getD []
    if hsmDevice.maxDevices > 0 then found.take hsmDevice.maxDevices.toNat else found
  else []

/-- The HSMDevice is for the node, its discovery succeeds and its report gets written. -/
def writesReport (hsmDevice : HSMDevice) : Bool :=
  shouldDiscoverOnNode nodeName hsmDevice && (env.usb (buildMatchCriteria hsmDevice)).isOk &&
    env.patches hsmDevice.name

/-- The entry of a report for a USB device. -/
def entryOf (usbDev : USBDevice) : DiscoveredDevice :=
  { devicePath := usbDev.devicePath, serialNumber := usbDev.serialNumber, nodeName
    lastSeen := truncate env.now, available := true }

theorem discovered_eq (hsmDevice : HSMDevice) :
    discovered env nodeName hsmDevice =
      (picked env nodeName hsmDevice).map (entryOf env nodeName) := by
  unfold discovered picked
  split
  next =>
    cases h : env.usb (buildMatchCriteria hsmDevice) with
    | error e =>
      rw [discoverDevicesForSpec_error h]
      simp [Except.toOption]
    | ok found =>
      rw [discoverDevicesForSpec_ok h]
      exact List.map_map
  next => rfl

theorem entryOf_injective : Function.Injective (entryOf env nodeName) := by
  rintro ⟨path, serial⟩ ⟨path', serial'⟩ h
  cases h
  rfl

theorem discovered_eq_iff (a b : HSMDevice) :
    discovered env nodeName a = discovered env nodeName b ↔
      picked env nodeName a = picked env nodeName b := by
  rw [discovered_eq, discovered_eq]
  exact (List.map_injective_iff.mpr (entryOf_injective env nodeName)).eq_iff

end Discovered

section Scan

variable (env : Discovery.Agent.Env)

private theorem nodeName_processHSMDevice (d : DiscoveryAgent) (hsmDevice : HSMDevice) :
    (processHSMDevice env d hsmDevice).nodeName = d.nodeName := by
  unfold processHSMDevice
  split
  · rfl
  split
  · rfl
  · unfold updatePodAnnotation
    split <;> rfl

theorem devices_processHSMDevice (d : DiscoveryAgent) (hsmDevice : HSMDevice) :
    (processHSMDevice env d hsmDevice).deviceReport.devices =
      if writesReport env d.nodeName hsmDevice then discovered env d.nodeName hsmDevice
      else d.deviceReport.devices := by
  unfold processHSMDevice writesReport discovered
  cases hnode : shouldDiscoverOnNode d.nodeName hsmDevice with
  | false => rfl
  | true =>
    cases h : env.usb (buildMatchCriteria hsmDevice) with
    | error e =>
      rw [discoverDevicesForSpec_error h]
      simp [Except.isOk, Except.toBool]
    | ok found =>
      rw [discoverDevicesForSpec_ok h]
      cases hpatch : env.patches hsmDevice.name with
      | false => simp [updateDeviceCache, updatePodAnnotation, hpatch]
      | true =>
        simp [updateDeviceCache, updatePodAnnotation, hpatch, Except.isOk, Except.toBool,
          Except.toOption, Annotation.devices, PodDiscoveryReport.stored]

theorem devices_performDiscovery (d : DiscoveryAgent) (hsmDevices : List HSMDevice) :
    (performDiscovery env d hsmDevices).deviceReport.devices =
      match (hsmDevices.filter (writesReport env d.nodeName)).getLast? with
      | some hsmDevice => discovered env d.nodeName hsmDevice
      | none => d.deviceReport.devices := by
  unfold performDiscovery
  induction hsmDevices generalizing d with
  | nil => rfl
  | cons hsmDevice hsmDevices ih =>
    rw [List.foldl_cons, ih, nodeName_processHSMDevice, devices_processHSMDevice,
      List.filter_cons]
    cases hwrites : writesReport env d.nodeName hsmDevice with
    | false => rfl
    | true =>
      rw [if_pos rfl, if_pos rfl, List.getLast?_cons]
      cases (hsmDevices.filter (writesReport env d.nodeName)).getLast? with
      | none => rfl
      | some last => rfl

end Scan

/-- A discovery pod of the DaemonSet of an HSMDevice, once its agent has processed the list. -/
structure Scanned where
  podName : String
  phase : PodPhase
  env : Discovery.Agent.Env
  agent : DiscoveryAgent
  hsmDevices : List HSMDevice

def Scanned.pod (s : Scanned) : DiscoveryPod where
  name := s.podName
  nodeName := s.agent.nodeName
  phase := s.phase
  deviceReport := (performDiscovery s.env s.agent s.hsmDevices).deviceReport

/-- What the pool of an HSMDevice lists when the pod is one of those its DaemonSet runs. -/
def aggregated (now : Nat) (desired : Int) (before after : List DiscoveryPod) (s : Scanned)
    (a : HSMDevice) : List DiscoveredDevice :=
  (nextStatus
    { now, daemonSets := fun _ => some ⟨desired, .ok (before ++ s.pod :: after)⟩ }
    { ownerReferences := [a.name] }).aggregatedDevices

/-- Between the devices of the other pods, the pool of an HSMDevice lists exactly those that the pod
has discovered for it, and so none that it has discovered for other HSMDevices only. -/
structure HoldsOwn (s : Scanned) (a : HSMDevice) : Prop where
  exactly : ∀ now desired before after, aggregated now desired before after s a =
    before.flatMap (fun pod => pod.deviceReport.devices) ++
      discovered s.env s.agent.nodeName a ++ after.flatMap fun pod => pod.deviceReport.devices
  foreign : ∀ now desired, ∀ b ∈ s.hsmDevices, ∀ device ∈ aggregated now desired [] [] s a,
    device ∈ discovered s.env s.agent.nodeName b → device ∈ discovered s.env s.agent.nodeName a

theorem aggregated_eq (now : Nat) (desired : Int) (before after : List DiscoveryPod)
    (s : Scanned) (a : HSMDevice) : aggregated now desired before after s a =
      before.flatMap (fun pod => pod.deviceReport.devices) ++
        s.pod.deviceReport.devices ++ after.flatMap fun pod => pod.deviceReport.devices := by
  unfold aggregated
  rw [aggregatedDevices_nextStatus]
  simp [reported]

theorem holdsOwn_iff (s : Scanned) (a : HSMDevice) :
    HoldsOwn s a ↔ s.pod.deviceReport.devices = discovered s.env s.agent.nodeName a := by
  constructor
  · intro h
    have halone := h.exactly 0 0 [] []
    rw [aggregated_eq] at halone
    simpa using halone
  · intro h
    refine ⟨fun now desired before after => ?_, fun now desired b _ device hdevice _ => ?_⟩
    · rw [aggregated_eq, h]
    · rw [aggregated_eq, h] at hdevice
      simpa using hdevice

/-- A pool lists its own devices exactly if the HSMDevice that was reported last picks the same USB
devices as its own, or none was reported and the annotation held the right devices before. -/
theorem holds_own_devices_iff (s : Scanned) (a : HSMDevice) :
    HoldsOwn s a ↔
      match (s.hsmDevices.filter (writesReport s.env s.agent.nodeName)).getLast? with
      | some b => picked s.env s.agent.nodeName b = picked s.env s.agent.nodeName a
      | none => s.agent.deviceReport.devices =
          (picked s.env s.agent.nodeName a).map (entryOf s.env s.agent.nodeName) := by
  rw [holdsOwn_iff, Scanned.pod, devices_performDiscovery]
  cases (s.hsmDevices.filter (writesReport s.env s.agent.nodeName)).getLast? with
  | none => rw [discovered_eq]
  | some b => exact discovered_eq_iff s.env s.agent.nodeName b a

private def pico : HSMDevice where
  name := "pico"
  discovery := some { autoDiscovery := false, specs := [⟨"20a0", "4230", ""⟩] }

private def yubi : HSMDevice where
  name := "yubi"
  discovery := some { autoDiscovery := false, specs := [⟨"1050", "0407", ""⟩] }

private def picoPod : Scanned where
  podName := "pico-discovery-x7k2p"
  phase := .running
  agent := { nodeName := "n1" }
  hsmDevices := [pico, yubi]
  env :=
    { now := 60 * minute
      usb := fun criteria =>
        if criteria = buildMatchCriteria pico then .ok [⟨"/dev/bus/usb/001/004", "DC6A"⟩]
        else .ok [⟨"/dev/bus/usb/001/007", "9F21"⟩] }

theorem last_report_fills_other_pool : ¬ HoldsOwn picoPod pico := by
  intro h
  have halone := h.exactly 0 1 [] []
  revert halone
  decide +kernel

end HsmSecretsOperator.System.PoolIsolation
