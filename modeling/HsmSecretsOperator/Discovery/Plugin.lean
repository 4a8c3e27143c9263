/- source: internal/modes/discovery/discovery.go, internal/discovery/deviceplugin.go
   digest: The device plugin managers that the discovery agent keeps beside its cache. -/

import HsmSecretsOperator.Discovery.Events

set_option autoImplicit false

namespace HsmSecretsOperator.Discovery.Plugin

open Discovery.Agent hiding processHSMDevice performDiscovery reconcileHSMDeviceScan
  cleanupDevicesOf reconcileDevices updatePodAnnotation updateDeviceCache
open Events hiding handleDeviceAdd handleDeviceRemove handleUSBEvent Work Turn turn
open Foundation.Maps Foundation.Runs Report

/-- An HSMDevice with its type, for which the schema accepts every text. -/
structure TypedDevice extends HSMDevice where
  deviceType : String

structure Device where
  id : String
  devicePath : String
  serialNumber : String
  available : Bool
  nodeName : String
  deriving DecidableEq

structure PluginAgent extends DiscoveryAgent where
  deviceTypes : Std.ExtTreeMap String String := ∅
  /-- The devices of the manager of each type that has one. -/
  devicePluginManagers : Std.ExtTreeMap String (Std.ExtTreeMap String Device) := ∅
  /-- The HSMDevices whose USB events the agent is sent. -/
  monitored : List String := []

structure PluginEnv extends Env where
  /-- The device plugin of a type can be started. -/
  starts : String → Bool := fun _ => true

def generateDeviceID (device : DiscoveredDevice) : String :=
  let path := String.ofList (device.devicePath.toList.map fun c => if c = '/' then '_' else c)
  let parts := [device.nodeName, path]
  String.intercalate "-"
    (if device.serialNumber ≠ "" then parts ++ [device.serialNumber] else parts)

def toDevice (discovered : DiscoveredDevice) : Device where
  id := generateDeviceID discovered
  devicePath := discovered.devicePath
  serialNumber := discovered.serialNumber
  available := discovered.available
  nodeName := discovered.nodeName

/-- `UpdateDevices`: what a manager holds afterwards, whatever it held before. -/
def updateDevices (discoveredDevices : List DiscoveredDevice) : Std.ExtTreeMap String Device :=
  assign ∅ generateDeviceID toDevice discoveredDevices

/-- The agent with a manager for the type, unless the plugin cannot be started. -/
def ensureDevicePluginForType (env : PluginEnv) (d : PluginAgent) (deviceType : String) :
    Option PluginAgent :=
  if deviceType ∈ d.devicePluginManagers then some d
  else if env.starts deviceType then
    some { d with devicePluginManagers := d.devicePluginManagers.insert deviceType ∅ }
  else none

def nodeDevices (nodeName : String) (devices : List DiscoveredDevice) : List DiscoveredDevice :=
  devices.filter fun device => device.nodeName = nodeName && device.available

def updateDevicePluginByType (env : PluginEnv) (d : PluginAgent) (deviceType : String)
    (devices : List DiscoveredDevice) : PluginAgent :=
  match ensureDevicePluginForType env d deviceType with
  | none => d
  | some d =>
    { d with
      devicePluginManagers :=
        d.devicePluginManagers.insert deviceType (updateDevices (nodeDevices d.nodeName devices)) }

def updateDevicePlugin (env : PluginEnv) (d : PluginAgent) (hsmDevice : TypedDevice)
    (devices : List DiscoveredDevice) : PluginAgent :=
  updateDevicePluginByType env d hsmDevice.deviceType devices

def updateDevicePluginByName (env : PluginEnv) (d : PluginAgent) (hsmDeviceName : String)
    (devices : List DiscoveredDevice) : PluginAgent :=
  match d.deviceTypes[hsmDeviceName]? with
  | none => d
  | some deviceType => updateDevicePluginByType env d deviceType devices

def updateDeviceCache (d : PluginAgent) (hsmDeviceName : String)
    (devices : List DiscoveredDevice) : PluginAgent :=
  { d with toDiscoveryAgent := Agent.updateDeviceCache d.toDiscoveryAgent hsmDeviceName devices }

def updatePodAnnotation (env : PluginEnv) (d : PluginAgent) (hsmDeviceName : String)
    (devices : List DiscoveredDevice) : PluginAgent :=
  { d with
    toDiscoveryAgent :=
      Agent.updatePodAnnotation env.toEnv d.toDiscoveryAgent hsmDeviceName devices }

def registerSpecForMonitoring (d : PluginAgent) (hsmDevice : TypedDevice) : PluginAgent :=
  if !shouldDiscoverOnNode d.nodeName hsmDevice.toHSMDevice then d
  else { d with monitored := d.monitored.insert hsmDevice.name }

def processHSMDevice (env : PluginEnv) (d : PluginAgent) (hsmDevice : TypedDevice) : PluginAgent :=
  if !shouldDiscoverOnNode d.nodeName hsmDevice.toHSMDevice then d
  else
    let d := { d with deviceTypes := d.deviceTypes.insert hsmDevice.name hsmDevice.deviceType }
    match discoverDevicesForSpec env.toEnv d.nodeName hsmDevice.toHSMDevice with
    | .error _ => d
    | .ok discoveredDevices =>
      let d := updateDeviceCache d hsmDevice.name discoveredDevices
      let d := updateDevicePlugin env d hsmDevice discoveredDevices
      updatePodAnnotation env d hsmDevice.name discoveredDevices

/-- The end of `performDiscovery`: HSMDevices that are not listed are not monitored any more. -/
def prune (d : PluginAgent) (current : List String) : PluginAgent :=
  let gone := d.monitored.filter fun name => name ∉ current
  { d with
    monitored := d.monitored.filter fun name => name ∈ current
    deviceTypes := gone.foldl (fun types name => types.erase name) d.deviceTypes }

def performDiscovery (env : PluginEnv) (d : PluginAgent) (hsmDevices : List TypedDevice) :
    PluginAgent :=
  let d := hsmDevices.foldl
    (fun d hsmDevice => registerSpecForMonitoring (processHSMDevice env d hsmDevice) hsmDevice) d
  prune d (hsmDevices.map fun hsmDevice => hsmDevice.name)

def reconcileHSMDeviceScan (env : PluginEnv) (d : PluginAgent) (hsmDevice : TypedDevice) :
    PluginAgent :=
  match discoverDevicesForSpec env.toEnv d.nodeName hsmDevice.toHSMDevice with
  | .error _ => d
  | .ok scanned =>
    let (merged, changed) :=
      mergeScanIntoCache env.now (d.deviceCache.getD hsmDevice.name []) scanned
    if !changed then d
    else
      let d := updateDeviceCache d hsmDevice.name merged
      let d := updateDevicePlugin env d hsmDevice merged
      updatePodAnnotation env d hsmDevice.name merged

/-- The managers are not told of the devices that are retired. -/
def cleanupDevicesOf (env : PluginEnv) (d : PluginAgent) (hsmDeviceName : String) : PluginAgent :=
  { d with toDiscoveryAgent := Agent.cleanupDevicesOf env.toEnv d.toDiscoveryAgent hsmDeviceName }

/-- The turn of the loop of `reconcileDevices` for one HSMDevice. -/
def rescan (env : PluginEnv) (d : PluginAgent) (hsmDevice : TypedDevice) : PluginAgent :=
  let d := registerSpecForMonitoring d hsmDevice
  if !shouldDiscoverOnNode d.nodeName hsmDevice.toHSMDevice then d
  else reconcileHSMDeviceScan env d hsmDevice

def reconcileDevices (env : PluginEnv) (d : PluginAgent) (hsmDevices : List TypedDevice)
    (order : List String) : PluginAgent :=
  order.foldl (cleanupDevicesOf env) (hsmDevices.foldl (rescan env) d)

def handleDeviceAdd (env : PluginEnv) (d : PluginAgent) (event : USBEvent) : PluginAgent :=
  let device := present env.toEnv d.nodeName event.device
  let devices := plugged (d.deviceCache.getD event.hsmDeviceName []) device
  let d := updateDeviceCache d event.hsmDeviceName devices
  let d := updatePodAnnotation env d event.hsmDeviceName devices
  updateDevicePluginByName env d event.hsmDeviceName devices

def handleDeviceRemove (env : PluginEnv) (d : PluginAgent) (event : USBEvent) : PluginAgent :=
  match d.deviceCache[event.hsmDeviceName]? with
  | none => d
  | some currentDevices =>
    match findDeviceIndex currentDevices (present env.toEnv d.nodeName event.device) with
    | none => d
    | some deviceIdx =>
      let devices := currentDevices.modify deviceIdx (markLost env.now)
      let d := updateDeviceCache d event.hsmDeviceName devices
      let d := updatePodAnnotation env d event.hsmDeviceName devices
      updateDevicePluginByName env d event.hsmDeviceName devices

def handleUSBEvent (env : PluginEnv) (d : PluginAgent) (event : USBEvent) : PluginAgent :=
  match event.action with
  | .add => handleDeviceAdd env d event
  | .remove => handleDeviceRemove env d event
  | .other _ => d

inductive Work where
  | initial (hsmDevice : TypedDevice)
  | prune (current : List String)
  | periodic (hsmDevice : TypedDevice)
  | retire (hsmDeviceName : String)
  | event (event : USBEvent)

structure Turn where
  env : PluginEnv
  work : Work

def turn (d : PluginAgent) (t : Turn) : PluginAgent :=
  match t.work with
  | .initial hsmDevice => registerSpecForMonitoring (processHSMDevice t.env d hsmDevice) hsmDevice
  | .prune current => prune d current
  | .periodic hsmDevice => rescan t.env d hsmDevice
  | .retire hsmDeviceName => cleanupDevicesOf t.env d hsmDeviceName
  | .event event => handleUSBEvent t.env d event

theorem performDiscovery_eq_run (env : PluginEnv) (d : PluginAgent)
    (hsmDevices : List TypedDevice) :
    performDiscovery env d hsmDevices =
      run turn d ((hsmDevices.map fun hsmDevice => ⟨env, .initial hsmDevice⟩) ++
        [⟨env, .prune (hsmDevices.map fun hsmDevice => hsmDevice.name)⟩]) := by
  rw [run_append]
  unfold run
  rw [List.foldl_map]
  rfl

theorem reconcileDevices_eq_run (env : PluginEnv) (d : PluginAgent)
    (hsmDevices : List TypedDevice) (order : List String) :
    reconcileDevices env d hsmDevices order =
      run turn d ((hsmDevices.map fun hsmDevice => ⟨env, .periodic hsmDevice⟩) ++
        order.map fun hsmDeviceName => ⟨env, .retire hsmDeviceName⟩) := by
  rw [run_append]
  unfold run
  rw [List.foldl_map, List.foldl_map]
  rfl

/-- What the cache and the annotation see of a turn. -/
def Work.forget : Work → Option Events.Work
  | .initial hsmDevice => some (.initial hsmDevice.toHSMDevice)
  | .prune _ => none
  | .periodic hsmDevice => some (.periodic hsmDevice.toHSMDevice)
  | .retire hsmDeviceName => some (.retire hsmDeviceName)
  | .event e => some (.event e)

section Forget

variable (env : PluginEnv) (d : PluginAgent)

@[simp] theorem toDiscoveryAgent_registerSpecForMonitoring (hsmDevice : TypedDevice) :
    (registerSpecForMonitoring d hsmDevice).toDiscoveryAgent = d.toDiscoveryAgent := by
  unfold registerSpecForMonitoring
  split <;> rfl

private theorem updateDevicePluginByType_eq (deviceType : String)
    (devices : List DiscoveredDevice) :
    ∃ managers, updateDevicePluginByType env d deviceType devices =
      { d with devicePluginManagers := managers } := by
  unfold updateDevicePluginByType ensureDevicePluginForType
  split
  · exact ⟨d.devicePluginManagers, rfl⟩
  next heq =>
    split at heq
    · obtain rfl := Option.some.inj heq
      exact ⟨_, rfl⟩
    split at heq
    · obtain rfl := Option.some.inj heq
      exact ⟨_, rfl⟩
    · cases heq

@[simp] theorem toDiscoveryAgent_updateDevicePluginByType (deviceType : String)
    (devices : List DiscoveredDevice) :
    (updateDevicePluginByType env d deviceType devices).toDiscoveryAgent =
      d.toDiscoveryAgent := by
  obtain ⟨managers, heq⟩ := updateDevicePluginByType_eq env d deviceType devices
  rw [heq]

@[simp] theorem deviceTypes_updateDevicePluginByType (deviceType : String)
    (devices : List DiscoveredDevice) :
    (updateDevicePluginByType env d deviceType devices).deviceTypes = d.deviceTypes := by
  obtain ⟨managers, heq⟩ := updateDevicePluginByType_eq env d deviceType devices
  rw [heq]

@[simp] theorem toDiscoveryAgent_updateDevicePluginByName (name : String)
    (devices : List DiscoveredDevice) :
    (updateDevicePluginByName env d name devices).toDiscoveryAgent = d.toDiscoveryAgent := by
  unfold updateDevicePluginByName
  split
  · rfl
  · exact toDiscoveryAgent_updateDevicePluginByType env d _ devices

private theorem toDiscoveryAgent_processHSMDevice (hsmDevice : TypedDevice) :
    (processHSMDevice env d hsmDevice).toDiscoveryAgent =
      Agent.processHSMDevice env.toEnv d.toDiscoveryAgent hsmDevice.toHSMDevice := by
  unfold processHSMDevice Agent.processHSMDevice
  split
  · rfl
  dsimp only
  cases discoverDevicesForSpec env.toEnv d.nodeName hsmDevice.toHSMDevice with
  | error e => rfl
  | ok discoveredDevices => simp [updateDevicePlugin, updateDeviceCache, updatePodAnnotation]

private theorem toDiscoveryAgent_rescan (hsmDevice : TypedDevice) :
    (rescan env d hsmDevice).toDiscoveryAgent =
      Events.turn d.toDiscoveryAgent ⟨env.toEnv, .periodic hsmDevice.toHSMDevice⟩ := by
  have hregister := toDiscoveryAgent_registerSpecForMonitoring d hsmDevice
  unfold rescan Events.turn reconcileHSMDeviceScan Agent.reconcileHSMDeviceScan
  dsimp only
  rw [hregister]
  cases shouldDiscoverOnNode d.nodeName hsmDevice.toHSMDevice with
  | false => exact hregister
  | true =>
    rw [if_neg (by decide), if_pos rfl]
    cases discoverDevicesForSpec env.toEnv d.nodeName hsmDevice.toHSMDevice with
    | error e => exact hregister
    | ok scanned =>
      dsimp only
      split
      · exact hregister
      · simp [updateDevicePlugin, updateDeviceCache, updatePodAnnotation]

private theorem toDiscoveryAgent_handleUSBEvent (event : USBEvent) :
    (handleUSBEvent env d event).toDiscoveryAgent =
      Events.handleUSBEvent env.toEnv d.toDiscoveryAgent event := by
  unfold handleUSBEvent Events.handleUSBEvent
  cases event.action with
  | add => exact toDiscoveryAgent_updateDevicePluginByName env _ _ _
  | remove =>
    unfold handleDeviceRemove Events.handleDeviceRemove
    dsimp only
    cases d.deviceCache[event.hsmDeviceName]? with
    | none => rfl
    | some currentDevices =>
      dsimp only
      cases findDeviceIndex currentDevices (present env.toEnv d.nodeName event.device) with
      | none => rfl
      | some deviceIdx => exact toDiscoveryAgent_updateDevicePluginByName env _ _ _
  | other text => rfl

/-- The managers have no influence on what the agent discovers and reports. -/
theorem toDiscoveryAgent_turn (t : Turn) :
    (turn d t).toDiscoveryAgent =
      match t.work.forget with
      | none => d.toDiscoveryAgent
      | some work => Events.turn d.toDiscoveryAgent ⟨t.env.toEnv, work⟩ := by
  obtain ⟨env, work⟩ := t
  cases work with
  | initial hsmDevice =>
    exact (toDiscoveryAgent_registerSpecForMonitoring _ hsmDevice).trans
      (toDiscoveryAgent_processHSMDevice env d hsmDevice)
  | prune current => rfl
  | periodic hsmDevice => exact toDiscoveryAgent_rescan env d hsmDevice
  | retire hsmDeviceName => rfl
  | event event => exact toDiscoveryAgent_handleUSBEvent env d event

end Forget

section Managers

variable {env : PluginEnv} (d : PluginAgent) (devices : List DiscoveredDevice)

/-- The plugin of the type runs already, or can be started. -/
def Runs (env : PluginEnv) (d : PluginAgent) (deviceType : String) : Prop :=
  deviceType ∈ d.devicePluginManagers ∨ env.starts deviceType = true

theorem getElem?_updateDevicePluginByType {deviceType : String}
    (hruns : Runs env d deviceType) (other : String) :
    (updateDevicePluginByType env d deviceType devices).devicePluginManagers[other]? =
      if other = deviceType then some (updateDevices (nodeDevices d.nodeName devices))
      else d.devicePluginManagers[other]? := by
  have hensured : ∃ managers : Std.ExtTreeMap String (Std.ExtTreeMap String Device),
      ensureDevicePluginForType env d deviceType =
        some { d with devicePluginManagers := managers } ∧
      ∀ other, other ≠ deviceType → managers[other]? = d.devicePluginManagers[other]? := by
    unfold ensureDevicePluginForType
    split
    · exact ⟨d.devicePluginManagers, rfl, fun _ _ => rfl⟩
    next habsent =>
      rw [if_pos (hruns.resolve_left habsent)]
      exact ⟨_, rfl, fun other hne => getElem?_insert_of_ne _ hne.symm ∅⟩
  obtain ⟨managers, heq, hothers⟩ := hensured
  unfold updateDevicePluginByType
  rw [heq]
  dsimp only
  split
  next hother => rw [hother, Std.ExtTreeMap.getElem?_insert_self]
  next hother => rw [getElem?_insert_of_ne _ (Ne.symm hother), hothers other hother]

end Managers

end HsmSecretsOperator.Discovery.Plugin
