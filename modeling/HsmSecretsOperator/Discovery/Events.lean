/- source: internal/modes/discovery/discovery.go, internal/discovery/usb.go
   digest: USB events at the discovery agent, and the turns of its main loop. -/

import HsmSecretsOperator.Discovery.Agent
import HsmSecretsOperator.Foundation.Runs

set_option autoImplicit false

namespace HsmSecretsOperator.Discovery.Events

open Discovery.Agent Foundation.Runs Report

inductive Action where
  | add
  | remove
  | other (text : String)

structure USBEvent where
  action : Action
  device : USBDevice
  hsmDeviceName : String

/-- The turn of the loop that builds the index, for the device at a place of the cache. -/
def indexDevice (lookup : Std.ExtTreeMap String Nat) (entry : DiscoveredDevice × Nat) :
    Std.ExtTreeMap String Nat :=
  let (device, i) := entry
  let lookup :=
    if device.serialNumber ≠ "" then lookup.insert ("serial:" ++ device.serialNumber) i else lookup
  if device.devicePath ≠ "" then lookup.insert ("path:" ++ device.devicePath) i else lookup

/-- The index that `updateDeviceCache` builds anew whenever it writes the cache. -/
def deviceLookup (devices : List DiscoveredDevice) : Std.ExtTreeMap String Nat :=
  devices.zipIdx.foldl indexDevice ∅

def findDeviceIndex (devices : List DiscoveredDevice) (device : DiscoveredDevice) : Option Nat :=
  let lookupMap := deviceLookup devices
  let bySerial :=
    if device.serialNumber ≠ "" then lookupMap["serial:" ++ device.serialNumber]? else none
  match bySerial with
  | some idx => some idx
  | none => if device.devicePath ≠ "" then lookupMap["path:" ++ device.devicePath]? else none

/-- The cache that is recorded once a device is plugged in. -/
def plugged (currentDevices : List DiscoveredDevice) (device : DiscoveredDevice) :
    List DiscoveredDevice :=
  match findDeviceIndex currentDevices device with
  | some existingIdx => currentDevices.set existingIdx { device with available := true }
  | none => currentDevices ++ [device]

def handleDeviceAdd (env : Env) (d : DiscoveryAgent) (event : USBEvent) : DiscoveryAgent :=
  let device := present env d.nodeName event.device
  let devices := plugged (d.deviceCache.getD event.hsmDeviceName []) device
  updatePodAnnotation env (updateDeviceCache d event.hsmDeviceName devices) event.hsmDeviceName
    devices

def markLost (now : Nat) (device : DiscoveredDevice) : DiscoveredDevice :=
  { device with available := false, lastSeen := now }

def handleDeviceRemove (env : Env) (d : DiscoveryAgent) (event : USBEvent) : DiscoveryAgent :=
  match d.deviceCache[event.hsmDeviceName]? with
  | none => d
  | some currentDevices =>
    match findDeviceIndex currentDevices (present env d.nodeName event.device) with
    | none => d
    | some deviceIdx =>
      let devices := currentDevices.modify deviceIdx (markLost env.now)
      updatePodAnnotation env (updateDeviceCache d event.hsmDeviceName devices)
        event.hsmDeviceName devices

def handleUSBEvent (env : Env) (d : DiscoveryAgent) (event : USBEvent) : DiscoveryAgent :=
  match event.action with
  | .add => handleDeviceAdd env d event
  | .remove => handleDeviceRemove env d event
  | .other _ => d

/-- What the agent works off one after the other: the turns of its two scans, those of the loop that
retires devices, and the events. -/
inductive Work where
  | initial (hsmDevice : HSMDevice)
  | periodic (hsmDevice : HSMDevice)
  | retire (hsmDeviceName : String)
  | event (event : USBEvent)

structure Turn where
  env : Env
  work : Work

def turn (d : DiscoveryAgent) (t : Turn) : DiscoveryAgent :=
  match t.work with
  | .initial hsmDevice => processHSMDevice t.env d hsmDevice
  | .periodic hsmDevice =>
    if shouldDiscoverOnNode d.nodeName hsmDevice then reconcileHSMDeviceScan t.env d hsmDevice
    else d
  | .retire hsmDeviceName => cleanupDevicesOf t.env d hsmDeviceName
  | .event event => handleUSBEvent t.env d event

theorem performDiscovery_eq_run (env : Env) (d : DiscoveryAgent) (hsmDevices : List HSMDevice) :
    performDiscovery env d hsmDevices =
      run turn d (hsmDevices.map fun hsmDevice => ⟨env, .initial hsmDevice⟩) := by
  unfold run
  rw [List.foldl_map]
  rfl

theorem reconcileDevices_eq_run (env : Env) (d : DiscoveryAgent) (hsmDevices : List HSMDevice)
    (order : List String) :
    reconcileDevices env d hsmDevices order =
      run turn d ((hsmDevices.map fun hsmDevice => ⟨env, .periodic hsmDevice⟩) ++
        order.map fun hsmDeviceName => ⟨env, .retire hsmDeviceName⟩) := by
  rw [run_append]
  unfold run
  rw [List.foldl_map, List.foldl_map]
  rfl

/-- The turn leaves the agent as it is, or records these devices of an HSMDevice. -/
inductive Records (t : Turn) (d : DiscoveryAgent) : DiscoveryAgent → Prop where
  | idle : Records t d d
  | initial {hsmDevice : HSMDevice} {found : List DiscoveredDevice}
      (hwork : t.work = .initial hsmDevice)
      (hfound : discoverDevicesForSpec t.env d.nodeName hsmDevice = .ok found) :
      Records t d (record t.env d hsmDevice.name found)
  | periodic {hsmDevice : HSMDevice} {scanned : List DiscoveredDevice}
      (hwork : t.work = .periodic hsmDevice)
      (hscanned : discoverDevicesForSpec t.env d.nodeName hsmDevice = .ok scanned) :
      Records t d (record t.env d hsmDevice.name
        (mergeScanIntoCache t.env.now (d.cached hsmDevice.name) scanned).1)
  | retire {hsmDeviceName : String} (hwork : t.work = .retire hsmDeviceName) :
      Records t d (record t.env d hsmDeviceName
        ((d.cached hsmDeviceName).filter fun device => !isStale t.env.now device))
  | add {e : USBEvent} (hwork : t.work = .event e) (haction : e.action = .add) :
      Records t d (record t.env d e.hsmDeviceName
        (plugged (d.cached e.hsmDeviceName) (present t.env d.nodeName e.device)))
  | remove {e : USBEvent} {i : Nat} (hwork : t.work = .event e) (haction : e.action = .remove)
      (hi : findDeviceIndex (d.cached e.hsmDeviceName) (present t.env d.nodeName e.device) =
        some i) :
      Records t d (record t.env d e.hsmDeviceName
        ((d.cached e.hsmDeviceName).modify i (markLost t.env.now)))

section Turns

variable (env : Env) (d : DiscoveryAgent)

private theorem records_initial (hsmDevice : HSMDevice) :
    Records ⟨env, .initial hsmDevice⟩ d (processHSMDevice env d hsmDevice) := by
  unfold processHSMDevice
  split
  · exact .idle
  split
  · exact .idle
  next found hfound => exact .initial rfl hfound

private theorem records_periodic (hsmDevice : HSMDevice) :
    Records ⟨env, .periodic hsmDevice⟩ d (reconcileHSMDeviceScan env d hsmDevice) := by
  unfold reconcileHSMDeviceScan
  split
  · exact .idle
  next scanned hscanned =>
    dsimp only
    split
    · exact .idle
    · exact .periodic rfl hscanned

private theorem records_retire (hsmDeviceName : String) :
    Records ⟨env, .retire hsmDeviceName⟩ d (cleanupDevicesOf env d hsmDeviceName) := by
  unfold cleanupDevicesOf
  dsimp only
  split
  · exact .retire rfl
  · exact .idle

private theorem records_event (event : USBEvent) :
    Records ⟨env, .event event⟩ d (handleUSBEvent env d event) := by
  unfold handleUSBEvent
  split
  next haction => exact .add rfl haction
  next haction =>
    unfold handleDeviceRemove
    split
    · exact .idle
    next currentDevices hcurrent =>
      have hcached : d.cached event.hsmDeviceName = currentDevices := by
        rw [DiscoveryAgent.cached, Std.ExtTreeMap.getD_eq_getD_getElem?, hcurrent,
          Option.getD_some]
      split
      · exact .idle
      next i hi =>
        subst hcached
        exact .remove rfl haction hi
  next => exact .idle

/-- Everything that a turn can do to the agent. -/
theorem records_turn (t : Turn) : Records t d (turn d t) := by
  obtain ⟨env, work⟩ := t
  unfold turn
  cases work with
  | initial hsmDevice => exact records_initial env d hsmDevice
  | periodic hsmDevice =>
    dsimp only
    split
    · exact records_periodic env d hsmDevice
    · exact .idle
  | retire hsmDeviceName => exact records_retire env d hsmDeviceName
  | event event => exact records_event env d event

end Turns

end HsmSecretsOperator.Discovery.Events
