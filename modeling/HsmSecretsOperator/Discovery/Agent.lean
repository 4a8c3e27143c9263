/- source: internal/modes/discovery/discovery.go
   digest: The discovery agent of a node: initial scan, periodic merge, retirement of devices. -/

import Std.Data.ExtTreeMap.Lemmas
import HsmSecretsOperator.Discovery.Report
import HsmSecretsOperator.Foundation.Maps

set_option autoImplicit false

namespace HsmSecretsOperator.Discovery.Agent

open Foundation.Maps Report

structure USBDevice where
  devicePath : String
  serialNumber : String

structure USBDeviceSpec where
  vendorID : String
  productID : String
  serialNumber : String := ""
  deriving DecidableEq

structure MatchCriteria where
  autoDiscovery : Bool
  specs : List USBDeviceSpec := []
  deriving DecidableEq

structure HSMDevice where
  name : String
  discovery : Option MatchCriteria := none
  nodeSelector : List (String × String) := []
  maxDevices : Int := 0

/-- The part of the agent's state that its reports depend on. -/
structure DiscoveryAgent where
  nodeName : String
  deviceCache : Std.ExtTreeMap String (List DiscoveredDevice) := ∅
  deviceReport : Annotation := .missing

structure Env where
  now : Nat
  /-- `DiscoverDevices` of the USB discoverer. -/
  usb : MatchCriteria → Except String (List USBDevice)
  /-- The pod can be patched with the report for the HSMDevice. -/
  patches : String → Bool := fun _ => true

def labelHostname : String := "kubernetes.io/hostname"

def shouldDiscoverOnNode (nodeName : String) (hsmDevice : HSMDevice) : Bool :=
  hsmDevice.nodeSelector.isEmpty ||
    hsmDevice.nodeSelector.any fun e => e.1 = labelHostname && e.2 = nodeName

def buildMatchCriteria (hsmDevice : HSMDevice) : MatchCriteria :=
  match hsmDevice.discovery with
  | none => { autoDiscovery := true }
  | some disc => disc

def discoverUSBDevices (env : Env) (nodeName : String) (hsmDevice : HSMDevice) :
    Except String (List DiscoveredDevice) :=
  match env.usb (buildMatchCriteria hsmDevice) with
  | .error e => .error s!"USB discovery failed: {e}"
  | .ok usbDevices => .ok (usbDevices.map fun usbDev =>
      { devicePath := usbDev.devicePath, serialNumber := usbDev.serialNumber, nodeName
        lastSeen := env.now, available := true })

def discoverDevicesForSpec (env : Env) (nodeName : String) (hsmDevice : HSMDevice) :
    Except String (List DiscoveredDevice) :=
  match discoverUSBDevices env nodeName hsmDevice with
  | .error e => .error e
  | .ok devices =>
    if hsmDevice.maxDevices > 0 && (devices.length : Int) > hsmDevice.maxDevices then
      .ok (devices.take hsmDevice.maxDevices.toNat)
    else .ok devices

/-- The one annotation of the pod is overwritten, whatever HSMDevice it was for. -/
def updatePodAnnotation (env : Env) (d : DiscoveryAgent) (hsmDeviceName : String)
    (discoveredDevices : List DiscoveredDevice) : DiscoveryAgent :=
  if env.patches hsmDeviceName then
    let report : PodDiscoveryReport :=
      { hsmDeviceName, reportingNode := d.nodeName, discoveredDevices
        lastReportTime := env.now, discoveryStatus := "completed" }
    { d with deviceReport := .report report.stored }
  else d

def updateDeviceCache (d : DiscoveryAgent) (hsmDeviceName : String)
    (devices : List DiscoveredDevice) : DiscoveryAgent :=
  { d with deviceCache := d.deviceCache.insert hsmDeviceName devices }

def processHSMDevice (env : Env) (d : DiscoveryAgent) (hsmDevice : HSMDevice) : DiscoveryAgent :=
  if !shouldDiscoverOnNode d.nodeName hsmDevice then d
  else
    match discoverDevicesForSpec env d.nodeName hsmDevice with
    | .error _ => d
    | .ok discoveredDevices =>
      updatePodAnnotation env (updateDeviceCache d hsmDevice.name discoveredDevices)
        hsmDevice.name discoveredDevices

/-- `performDiscovery` over the HSMDevices in the order in which they are listed. -/
def performDiscovery (env : Env) (d : DiscoveryAgent) (hsmDevices : List HSMDevice) :
    DiscoveryAgent :=
  hsmDevices.foldl (processHSMDevice env) d

def deviceKey (dev : DiscoveredDevice) : String :=
  if dev.serialNumber ≠ "" then "serial:" ++ dev.serialNumber else "path:" ++ dev.devicePath

/-- The turn of the first loop for a cached device: its entry, and whether that is a change. -/
def mergeCached (now : Nat) (scannedByKey : Std.ExtTreeMap String DiscoveredDevice)
    (old : DiscoveredDevice) : DiscoveredDevice × Bool :=
  match scannedByKey[deviceKey old]? with
  | some fresh =>
    ({ fresh with available := true }, old.devicePath ≠ fresh.devicePath || !old.available)
  | none =>
    if old.available then ({ old with available := false, lastSeen := now }, true)
    else (old, false)

/-- The merged list, and whether it differs from the cache. -/
def mergeScanIntoCache (now : Nat) (existing scanned : List DiscoveredDevice) :
    List DiscoveredDevice × Bool :=
  let scannedByKey : Std.ExtTreeMap String DiscoveredDevice := assign ∅ deviceKey id scanned
  let merged := existing.map (mergeCached now scannedByKey)
  let added := scanned.filter fun dev => deviceKey dev ∉ existing.map deviceKey
  (merged.map Prod.fst ++ added.map fun dev => { dev with available := true },
    merged.any Prod.snd || !added.isEmpty)

def reconcileHSMDeviceScan (env : Env) (d : DiscoveryAgent) (hsmDevice : HSMDevice) :
    DiscoveryAgent :=
  match discoverDevicesForSpec env d.nodeName hsmDevice with
  | .error _ => d
  | .ok scanned =>
    let (merged, changed) :=
      mergeScanIntoCache env.now (d.deviceCache.getD hsmDevice.name []) scanned
    if !changed then d
    else
      updatePodAnnotation env (updateDeviceCache d hsmDevice.name merged) hsmDevice.name merged

def cleanupThreshold : Int := 5 * minute

def isStale (now : Nat) (device : DiscoveredDevice) : Bool :=
  !device.available && since now device.lastSeen > cleanupThreshold

/-- The turn of the loop of `cleanupStaleDevices` for one HSMDevice. -/
def cleanupDevicesOf (env : Env) (d : DiscoveryAgent) (hsmDeviceName : String) : DiscoveryAgent :=
  let devices := d.deviceCache.getD hsmDeviceName []
  if devices.any (isStale env.now) then
    let activeDevices := devices.filter fun device => !isStale env.now device
    updatePodAnnotation env (updateDeviceCache d hsmDeviceName activeDevices) hsmDeviceName
      activeDevices
  else d

/-- `cleanupStaleDevices`, with the cache yielding its HSMDevices in the given order. -/
def cleanupStaleDevices (env : Env) (d : DiscoveryAgent) (order : List String) : DiscoveryAgent :=
  order.foldl (cleanupDevicesOf env) d

def reconcileDevices (env : Env) (d : DiscoveryAgent) (hsmDevices : List HSMDevice)
    (order : List String) : DiscoveryAgent :=
  let d := hsmDevices.foldl
    (fun d hsmDevice =>
      if shouldDiscoverOnNode d.nodeName hsmDevice then reconcileHSMDeviceScan env d hsmDevice
      else d) d
  cleanupStaleDevices env d order

def present (env : Env) (nodeName : String) (usbDev : USBDevice) : DiscoveredDevice :=
  { devicePath := usbDev.devicePath, serialNumber := usbDev.serialNumber, nodeName
    lastSeen := env.now, available := true }

section Found

variable {env : Env} {nodeName : String} {hsmDevice : HSMDevice}

theorem discoverDevicesForSpec_ok {usbDevices : List USBDevice}
    (h : env.usb (buildMatchCriteria hsmDevice) = .ok usbDevices) :
    discoverDevicesForSpec env nodeName hsmDevice =
      .ok ((if hsmDevice.maxDevices > 0 then usbDevices.take hsmDevice.maxDevices.toNat
        else usbDevices).map (present env nodeName)) := by
  have hall : discoverUSBDevices env nodeName hsmDevice =
      .ok (usbDevices.map (present env nodeName)) := by
    unfold discoverUSBDevices
    rw [h]
    rfl
  unfold discoverDevicesForSpec
  rw [hall]
  dsimp only
  rw [List.length_map]
  split
  next hlimit =>
    rw [Bool.and_eq_true, decide_eq_true_eq] at hlimit
    rw [if_pos hlimit.1, List.map_take]
  next hlimit =>
    split
    next hpos =>
      -- the limit is set but not reached, so taking that many keeps all
      rw [List.take_of_length_le (by simp [hpos] at hlimit; omega)]
    next => rfl

theorem discoverDevicesForSpec_error {e : String}
    (h : env.usb (buildMatchCriteria hsmDevice) = .error e) :
    discoverDevicesForSpec env nodeName hsmDevice = .error ("USB discovery failed: " ++ e) := by
  unfold discoverDevicesForSpec discoverUSBDevices
  rw [h]
  rfl

theorem exists_usb_of_discovered {found : List DiscoveredDevice} {dev : DiscoveredDevice}
    (h : discoverDevicesForSpec env nodeName hsmDevice = .ok found) (hdev : dev ∈ found) :
    ∃ usbDevices, env.usb (buildMatchCriteria hsmDevice) = .ok usbDevices ∧
      ∃ usbDev ∈ usbDevices, dev = present env nodeName usbDev := by
  cases husb : env.usb (buildMatchCriteria hsmDevice) with
  | error e =>
    rw [discoverDevicesForSpec_error husb] at h
    cases h
  | ok usbDevices =>
    rw [discoverDevicesForSpec_ok husb] at h
    obtain rfl := Except.ok.inj h
    obtain ⟨usbDev, hmem, rfl⟩ := List.mem_map.mp hdev
    refine ⟨usbDevices, rfl, usbDev, ?_, rfl⟩
    split at hmem
    · exact List.mem_of_mem_take hmem
    · exact hmem

end Found

def DiscoveryAgent.cached (d : DiscoveryAgent) (hsmDeviceName : String) : List DiscoveredDevice :=
  d.deviceCache.getD hsmDeviceName []

/-- The annotation lists what the cache holds for the HSMDevice. -/
def DiscoveryAgent.Reports (d : DiscoveryAgent) (hsmDeviceName : String) : Prop :=
  d.deviceReport.devices = (d.cached hsmDeviceName).map DiscoveredDevice.stored

/-- The cache and the annotation are always written together. -/
def record (env : Env) (d : DiscoveryAgent) (hsmDeviceName : String)
    (devices : List DiscoveredDevice) : DiscoveryAgent :=
  updatePodAnnotation env (updateDeviceCache d hsmDeviceName devices) hsmDeviceName devices

section Record

variable (env : Env) (d : DiscoveryAgent) (name : String) (devices : List DiscoveredDevice)

theorem deviceCache_record :
    (record env d name devices).deviceCache = d.deviceCache.insert name devices := by
  unfold record updatePodAnnotation
  split <;> rfl

@[simp] theorem nodeName_record : (record env d name devices).nodeName = d.nodeName := by
  unfold record updatePodAnnotation
  split <;> rfl

theorem cached_record_self : (record env d name devices).cached name = devices := by
  rw [DiscoveryAgent.cached, deviceCache_record, Std.ExtTreeMap.getD_insert_self]

theorem cached_record_of_ne {other : String} (h : name ≠ other) :
    (record env d name devices).cached other = d.cached other := by
  rw [DiscoveryAgent.cached, deviceCache_record, Std.ExtTreeMap.getD_insert,
    if_neg fun heq => h (Std.LawfulEqCmp.eq_of_compare heq)]
  rfl

theorem reports_record {own : String} (h : d.Reports own)
    (hpatches : env.patches name = decide (name = own)) :
    (record env d name devices).Reports own := by
  by_cases hname : name = own
  · subst hname
    rw [DiscoveryAgent.Reports, cached_record_self]
    simp [record, updatePodAnnotation, hpatches, Annotation.devices, PodDiscoveryReport.stored]
  · rw [DiscoveryAgent.Reports, cached_record_of_ne env d name devices hname, ← h]
    simp [record, updatePodAnnotation, hpatches, hname, updateDeviceCache]

end Record

/-- Every device of the list before is in the list after as available, or as lost: at the time if it
was available and when it was before if not. A lost device may be missing once it is stale. -/
def Carried (now : Nat) (before after : List DiscoveredDevice) : Prop :=
  ∀ old ∈ before, old.serialNumber ≠ "" →
    (∃ dev ∈ after, dev.serialNumber = old.serialNumber ∧ dev.available = true) ∨
    (∃ dev ∈ after, dev.serialNumber = old.serialNumber ∧
      dev.lastSeen = if old.available then now else old.lastSeen) ∨
    isStale now old = true

theorem Carried.refl (now : Nat) (devices : List DiscoveredDevice) :
    Carried now devices devices := by
  intro old hold _
  cases havailable : old.available with
  | true => exact .inl ⟨old, hold, rfl, havailable⟩
  | false => exact .inr (.inl ⟨old, hold, rfl, rfl⟩)

theorem serialNumber_of_deviceKey {a b : DiscoveredDevice} (h : deviceKey a = deviceKey b)
    (hb : b.serialNumber ≠ "") : a.serialNumber = b.serialNumber := by
  have hkind (s t : String) : "path:" ++ s ≠ "serial:" ++ t := by
    intro heq
    have hlist := congrArg String.toList heq
    simp [String.toList_append] at hlist
  unfold deviceKey at h
  rw [if_pos hb] at h
  split at h
  · exact String.append_right_inj _ |>.mp h
  · exact absurd h (hkind _ _)

theorem carried_merge (now : Nat) (existing scanned : List DiscoveredDevice) :
    Carried now existing (mergeScanIntoCache now existing scanned).1 := by
  intro old hold hserial
  have hmem : (mergeCached now (assign ∅ deviceKey id scanned) old).1 ∈
      (mergeScanIntoCache now existing scanned).1 := by
    refine List.mem_append_left _ (List.mem_map.mpr ⟨_, List.mem_map.mpr ⟨old, hold, rfl⟩, rfl⟩)
  unfold mergeCached at hmem
  split at hmem
  next fresh hfresh =>
    rcases of_getElem?_assign hfresh with hempty | ⟨dev, _, hkey, rfl⟩
    · simp at hempty
    · exact .inl ⟨_, hmem, serialNumber_of_deviceKey hkey hserial, rfl⟩
  next =>
    split at hmem
    next havailable => exact .inr (.inl ⟨_, hmem, rfl, by rw [if_pos havailable]⟩)
    next havailable => exact .inr (.inl ⟨_, hmem, rfl, by rw [if_neg havailable]⟩)

theorem carried_active (now : Nat) (devices : List DiscoveredDevice) :
    Carried now devices (devices.filter fun device => !isStale now device) := by
  intro old hold hserial
  cases hstale : isStale now old with
  | true => exact .inr (.inr rfl)
  | false =>
    have hkept : old ∈ devices.filter fun device => !isStale now device :=
      List.mem_filter.mpr ⟨hold, by rw [hstale]; rfl⟩
    have hstay := Carried.refl now _ old hkept hserial
    rwa [hstale] at hstay

end HsmSecretsOperator.Discovery.Agent
