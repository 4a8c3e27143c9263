/- source: internal/modes/discovery/discovery.go, internal/discovery/deviceplugin.go
   digest: What the device plugins advertise, over runs of scans and USB events. -/

import HsmSecretsOperator.Discovery.Plugin

set_option autoImplicit false

namespace HsmSecretsOperator.System.PluginInventory

open Discovery.Agent (USBDevice DiscoveryAgent HSMDevice shouldDiscoverOnNode buildMatchCriteria
  discoverDevicesForSpec exists_usb_of_discovered mergeScanIntoCache mergeCached isStale present
  record cached_record_self cached_record_of_ne nodeName_record)
open Discovery.Events (USBEvent Action plugged markLost findDeviceIndex)
open Discovery.Plugin Discovery.Report Foundation.Maps Foundation.Runs

/-- The manager of the type holds the device. -/
def Advertised (d : PluginAgent) (deviceType : String) (device : Device) : Prop :=
  ∃ devices, d.devicePluginManagers[deviceType]? = some devices ∧
    ∃ id : String, devices[id]? = some device

/-- The HSMDevice is for the node, and the device is one of those cached for it that are available
on the node. -/
def Local (d : PluginAgent) (hsmDevice : TypedDevice) (device : Device) : Prop :=
  shouldDiscoverOnNode d.nodeName hsmDevice.toHSMDevice = true ∧
    ∃ entry ∈ nodeDevices d.nodeName (d.cached hsmDevice.name), toDevice entry = device

/-- The manager of each type advertises the local devices of all HSMDevices of the type. -/
def Inventory (hsmDevices : List TypedDevice) (d : PluginAgent) : Prop :=
  ∀ deviceType device, Advertised d deviceType device ↔
    ∃ hsmDevice ∈ hsmDevices, hsmDevice.deviceType = deviceType ∧ Local d hsmDevice device

def usbOf (device : DiscoveredDevice) : USBDevice := ⟨device.devicePath, device.serialNumber⟩

/-- The HSMDevices of the node differ in their names and in their types. -/
def Separate (nodeName : String) (hsmDevices : List TypedDevice) : Prop :=
  ∀ a ∈ hsmDevices, ∀ b ∈ hsmDevices,
    shouldDiscoverOnNode nodeName a.toHSMDevice = true →
    shouldDiscoverOnNode nodeName b.toHSMDevice = true →
      a.name = b.name ∨ a.deviceType = b.deviceType → a = b

/-- No two of the USB devices get one identifier. -/
def Distinguished (hardware : List USBDevice) : Prop :=
  ∀ a b : DiscoveredDevice, usbOf a ∈ hardware → usbOf b ∈ hardware → a.nodeName = b.nodeName →
    generateDeviceID a = generateDeviceID b → usbOf a = usbOf b

/-- Scans are for listed HSMDevices, they and the events find USB devices of the given ones only,
the plugin of the type runs or can be started, and the type of an event's HSMDevice has been
cached. -/
def Orderly (hsmDevices : List TypedDevice) (hardware : List USBDevice) (d : PluginAgent)
    (t : Turn) : Prop :=
  match t.work with
  | .initial hsmDevice | .periodic hsmDevice =>
    hsmDevice ∈ hsmDevices ∧ Runs t.env d hsmDevice.deviceType ∧
      ∀ found, t.env.usb (buildMatchCriteria hsmDevice.toHSMDevice) = .ok found →
        ∀ usbDev ∈ found, usbDev ∈ hardware
  | .prune _ | .retire _ => True
  | .event e =>
    e.device ∈ hardware ∧
      match d.deviceTypes[e.hsmDeviceName]? with
      | some deviceType => Runs t.env d deviceType
      | none => ∀ hsmDevice ∈ hsmDevices,
          shouldDiscoverOnNode d.nodeName hsmDevice.toHSMDevice = true →
            hsmDevice.name ≠ e.hsmDeviceName

section Origin

variable {hardware : List USBDevice}

private theorem usbOf_discovered {env : Discovery.Agent.Env} {nodeName : String}
    {hsmDevice : HSMDevice} {found : List DiscoveredDevice}
    (hfound : discoverDevicesForSpec env nodeName hsmDevice = .ok found)
    (h : ∀ usb, env.usb (buildMatchCriteria hsmDevice) = .ok usb → ∀ x ∈ usb, x ∈ hardware) :
    ∀ entry ∈ found, usbOf entry ∈ hardware := by
  intro entry hentry
  obtain ⟨usb, husb, usbDev, hmem, rfl⟩ := exists_usb_of_discovered hfound hentry
  exact h usb husb usbDev hmem

private theorem usbOf_merged {now : Nat} {existing scanned : List DiscoveredDevice}
    (hexisting : ∀ entry ∈ existing, usbOf entry ∈ hardware)
    (hscanned : ∀ entry ∈ scanned, usbOf entry ∈ hardware) :
    ∀ entry ∈ (mergeScanIntoCache now existing scanned).1, usbOf entry ∈ hardware := by
  intro entry hentry
  rcases List.mem_append.mp hentry with hentry | hentry
  · obtain ⟨merged, hmerged, rfl⟩ := List.mem_map.mp hentry
    obtain ⟨old, hold, rfl⟩ := List.mem_map.mp hmerged
    unfold mergeCached
    split
    next fresh hfresh =>
      rcases of_getElem?_assign hfresh with hempty | ⟨dev, hdev, -, rfl⟩
      · simp at hempty
      · exact hscanned dev hdev
    next =>
      split
      · exact hexisting old hold
      · exact hexisting old hold
  · obtain ⟨dev, hdev, rfl⟩ := List.mem_map.mp hentry
    exact hscanned dev (List.mem_filter.mp hdev).1

private theorem usbOf_plugged {devices : List DiscoveredDevice} {device : DiscoveredDevice}
    (hdevices : ∀ entry ∈ devices, usbOf entry ∈ hardware) (hdevice : usbOf device ∈ hardware) :
    ∀ entry ∈ plugged devices device, usbOf entry ∈ hardware := by
  intro entry hentry
  unfold plugged at hentry
  split at hentry
  · rcases List.mem_or_eq_of_mem_set hentry with hentry | rfl
    · exact hdevices entry hentry
    · exact hdevice
  · rcases List.mem_append.mp hentry with hentry | hentry
    · exact hdevices entry hentry
    · rw [List.mem_singleton.mp hentry]
      exact hdevice

private theorem usbOf_lost {now : Nat} {devices : List DiscoveredDevice} {i : Nat}
    (hdevices : ∀ entry ∈ devices, usbOf entry ∈ hardware) :
    ∀ entry ∈ devices.modify i (markLost now), usbOf entry ∈ hardware := by
  intro entry hentry
  obtain ⟨j, hj⟩ := List.mem_iff_getElem?.mp hentry
  rw [List.getElem?_modify] at hj
  obtain ⟨old, hold, hsame⟩ := Option.map_eq_some_iff.mp hj
  have hmem := hdevices old (List.mem_of_getElem? hold)
  subst hsame
  split
  · exact hmem
  · exact hmem

theorem getElem?_updateDevices (hids : Distinguished hardware) (nodeName : String)
    {devices : List DiscoveredDevice} (hdevices : ∀ entry ∈ devices, usbOf entry ∈ hardware)
    (device : Device) :
    (∃ id : String, (updateDevices (nodeDevices nodeName devices))[id]? = some device) ↔
      ∃ entry ∈ nodeDevices nodeName devices, toDevice entry = device := by
  constructor
  · rintro ⟨id, hid⟩
    rcases of_getElem?_assign hid with hempty | ⟨entry, hentry, -, heq⟩
    · simp at hempty
    · exact ⟨entry, hentry, heq⟩
  · rintro ⟨entry, hentry, rfl⟩
    refine ⟨generateDeviceID entry, getElem?_assign_of_mem ∅ _ _ hentry fun other hother hid => ?_⟩
    obtain ⟨hmem, hlocal⟩ := List.mem_filter.mp hentry
    obtain ⟨hmem', hlocal'⟩ := List.mem_filter.mp hother
    rw [Bool.and_eq_true, decide_eq_true_eq] at hlocal hlocal'
    have husb := hids other entry (hdevices other hmem') (hdevices entry hmem)
      (hlocal'.1.trans hlocal.1.symm) hid
    obtain ⟨hpath, hserial⟩ := USBDevice.mk.injEq .. ▸ husb
    unfold toDevice
    rw [hid, hpath, hserial, hlocal.1, hlocal'.1, hlocal.2, hlocal'.2]

end Origin

/-- Every cached type is that of a listed HSMDevice of the node. -/
def Typed (nodeName : String) (hsmDevices : List TypedDevice)
    (types : Std.ExtTreeMap String String) : Prop :=
  ∀ name deviceType, types[name]? = some deviceType →
    ∃ hsmDevice ∈ hsmDevices, shouldDiscoverOnNode nodeName hsmDevice.toHSMDevice = true ∧
      hsmDevice.name = name ∧ hsmDevice.deviceType = deviceType

/-- What the agent keeps to in a run of orderly turns. -/
structure Inv (nodeName : String) (hsmDevices : List TypedDevice) (hardware : List USBDevice)
    (d : PluginAgent) : Prop where
  node : d.nodeName = nodeName
  types : Typed nodeName hsmDevices d.deviceTypes
  stock : ∀ name, ∀ entry ∈ d.cached name, usbOf entry ∈ hardware
  inventory : Inventory hsmDevices d

section Invariant

variable {nodeName : String} {hsmDevices : List TypedDevice} {hardware : List USBDevice}
  {d d' : PluginAgent} (env : Discovery.Agent.Env) {name : String}
  {devices : List DiscoveredDevice} (h : Inv nodeName hsmDevices hardware d)
  (hdevices : ∀ entry ∈ devices, usbOf entry ∈ hardware)
include h hdevices

private theorem stock_record
    (hagent : d'.toDiscoveryAgent = record env d.toDiscoveryAgent name devices) :
    ∀ other, ∀ entry ∈ d'.cached other, usbOf entry ∈ hardware := by
  intro other entry hentry
  rw [hagent] at hentry
  by_cases hother : name = other
  · subst hother
    rw [cached_record_self] at hentry
    exact hdevices entry hentry
  · rw [cached_record_of_ne _ _ _ _ hother] at hentry
    exact h.stock other entry hentry

/-- The cache of an HSMDevice and the manager of its type are written together. -/
theorem Inv.publish (hseparate : Separate nodeName hsmDevices) (hids : Distinguished hardware)
    {hsmDevice : TypedDevice} (hlisted : hsmDevice ∈ hsmDevices)
    (hnode : shouldDiscoverOnNode nodeName hsmDevice.toHSMDevice = true)
    (hagent : d'.toDiscoveryAgent = record env d.toDiscoveryAgent hsmDevice.name devices)
    (hmanagers : ∀ other, d'.devicePluginManagers[other]? =
      if other = hsmDevice.deviceType then some (updateDevices (nodeDevices d.nodeName devices))
      else d.devicePluginManagers[other]?)
    (htypes : Typed nodeName hsmDevices d'.deviceTypes) :
    Inv nodeName hsmDevices hardware d' := by
  have hname : d'.nodeName = d.nodeName := by rw [hagent, nodeName_record]
  refine ⟨hname.trans h.node, htypes, stock_record env h hdevices hagent, ?_⟩
  intro deviceType device
  unfold Advertised Local
  rw [hmanagers deviceType, hname, hagent]
  split
  next htype =>
    have hheld := getElem?_updateDevices hids d.nodeName hdevices device
    constructor
    · rintro ⟨held, hsome, hid⟩
      obtain rfl := Option.some.inj hsome
      refine ⟨hsmDevice, hlisted, htype.symm, by rw [h.node]; exact hnode, ?_⟩
      rw [cached_record_self]
      exact hheld.mp hid
    · rintro ⟨other, hother, hsame, hon, hentry⟩
      rw [h.node] at hon
      obtain rfl := hseparate other hother hsmDevice hlisted hon hnode
        (.inr (hsame.trans htype))
      rw [cached_record_self] at hentry
      exact ⟨_, rfl, hheld.mpr hentry⟩
  next htype =>
    refine (h.inventory deviceType device).trans ?_
    unfold Local
    -- an HSMDevice of another type has another name, so its cache has not changed
    refine exists_congr fun other => and_congr_right fun hother => and_congr_right fun hsame =>
      and_congr_right fun hon => ?_
    have hne : hsmDevice.name ≠ other.name := by
      intro heq
      rw [h.node] at hon
      obtain rfl := hseparate hsmDevice hlisted other hother hnode hon (.inl heq)
      exact htype hsame.symm
    rw [cached_record_of_ne _ _ _ _ hne]

theorem Inv.cache
    (hagent : d'.toDiscoveryAgent = record env d.toDiscoveryAgent name devices)
    (hmanagers : d'.devicePluginManagers = d.devicePluginManagers)
    (htypes : d'.deviceTypes = d.deviceTypes)
    (hkept : ∀ hsmDevice ∈ hsmDevices,
      shouldDiscoverOnNode nodeName hsmDevice.toHSMDevice = true → hsmDevice.name = name →
        nodeDevices d.nodeName devices = nodeDevices d.nodeName (d.cached name)) :
    Inv nodeName hsmDevices hardware d' := by
  have hname : d'.nodeName = d.nodeName := by rw [hagent, nodeName_record]
  refine ⟨hname.trans h.node, ?_, stock_record env h hdevices hagent, ?_⟩
  · rw [htypes]
    exact h.types
  intro deviceType device
  refine Iff.trans ?_ ((h.inventory deviceType device).trans ?_)
  · unfold Advertised
    rw [hmanagers]
  unfold Local
  rw [hname, hagent]
  refine exists_congr fun other => and_congr_right fun hother => and_congr_right fun _ =>
    and_congr_right fun hon => ?_
  by_cases hne : name = other.name
  · rw [← hne, cached_record_self,
      hkept other hother (by rw [← h.node]; exact hon) hne.symm]
  · rw [cached_record_of_ne _ _ _ _ hne]

end Invariant

section Turns

variable {nodeName : String} {hsmDevices : List TypedDevice} {hardware : List USBDevice}
  {d : PluginAgent} {env : PluginEnv} (hseparate : Separate nodeName hsmDevices)
  (hids : Distinguished hardware) (h : Inv nodeName hsmDevices hardware d)
include h

private theorem Inv.register (hsmDevice : TypedDevice) :
    Inv nodeName hsmDevices hardware (registerSpecForMonitoring d hsmDevice) := by
  unfold registerSpecForMonitoring
  split
  · exact h
  · exact ⟨h.node, h.types, h.stock, h.inventory⟩

private theorem Inv.retire (name : String) :
    Inv nodeName hsmDevices hardware (cleanupDevicesOf env d name) := by
  unfold cleanupDevicesOf Discovery.Agent.cleanupDevicesOf
  dsimp only
  split
  next =>
    let active := (d.cached name).filter fun device => !isStale env.now device
    have hactive : ∀ entry ∈ active, usbOf entry ∈ hardware := fun entry hentry =>
      h.stock name entry (List.mem_filter.mp hentry).1
    refine h.cache env.toEnv hactive rfl rfl rfl fun _ _ _ _ => ?_
    · -- a device that is retired was not available
      unfold nodeDevices
      rw [List.filter_filter]
      refine List.filter_congr fun device _ => ?_
      unfold isStale
      cases device.available <;> simp
  next => exact h

private theorem Inv.prune (current : List String) :
    Inv nodeName hsmDevices hardware (prune d current) :=
  ⟨h.node, fun name deviceType htype => h.types name deviceType (of_getElem?_foldl_erase htype),
    h.stock, h.inventory⟩

include hseparate hids

private theorem Inv.process {hsmDevice : TypedDevice} (hlisted : hsmDevice ∈ hsmDevices)
    (hruns : Runs env d hsmDevice.deviceType)
    (hfound : ∀ found, env.usb (buildMatchCriteria hsmDevice.toHSMDevice) = .ok found →
      ∀ usbDev ∈ found, usbDev ∈ hardware) :
    Inv nodeName hsmDevices hardware (processHSMDevice env d hsmDevice) := by
  unfold processHSMDevice
  split
  · exact h
  next hnode =>
    rw [h.node, Bool.not_eq_true', Bool.not_eq_false] at hnode
    have htypes : Typed nodeName hsmDevices
        (d.deviceTypes.insert hsmDevice.name hsmDevice.deviceType) := by
      intro name deviceType htype
      rcases of_getElem?_insert htype with ⟨hname, hsame⟩ | htype
      · exact ⟨hsmDevice, hlisted, hnode, hname, hsame⟩
      · exact h.types name deviceType htype
    dsimp only
    split
    · exact ⟨h.node, htypes, h.stock, h.inventory⟩
    next found hdiscovered =>
      refine h.publish env.toEnv (usbOf_discovered hdiscovered hfound) hseparate hids hlisted hnode
        ?_ ?_ ?_
      · simp [updateDevicePlugin, updateDeviceCache, updatePodAnnotation, record]
      · exact getElem?_updateDevicePluginByType (updateDeviceCache
          { d with deviceTypes := d.deviceTypes.insert hsmDevice.name hsmDevice.deviceType }
          hsmDevice.name found) found hruns
      · have hsame := deviceTypes_updateDevicePluginByType env (updateDeviceCache
          { d with deviceTypes := d.deviceTypes.insert hsmDevice.name hsmDevice.deviceType }
          hsmDevice.name found) hsmDevice.deviceType found
        exact hsame ▸ htypes

private theorem Inv.rescan {hsmDevice : TypedDevice} (hlisted : hsmDevice ∈ hsmDevices)
    (hruns : Runs env d hsmDevice.deviceType)
    (hfound : ∀ found, env.usb (buildMatchCriteria hsmDevice.toHSMDevice) = .ok found →
      ∀ usbDev ∈ found, usbDev ∈ hardware)
    (hnode : shouldDiscoverOnNode nodeName hsmDevice.toHSMDevice = true) :
    Inv nodeName hsmDevices hardware (reconcileHSMDeviceScan env d hsmDevice) := by
  unfold reconcileHSMDeviceScan
  split
  · exact h
  next scanned hdiscovered =>
    dsimp only
    split
    · exact h
    · let merged := (mergeScanIntoCache env.now (d.cached hsmDevice.name) scanned).1
      have hmerged : ∀ entry ∈ merged, usbOf entry ∈ hardware :=
        usbOf_merged (h.stock hsmDevice.name) (usbOf_discovered hdiscovered hfound)
      refine h.publish env.toEnv hmerged hseparate hids hlisted hnode ?_ ?_ ?_
      · simp [updateDevicePlugin, updateDeviceCache, updatePodAnnotation, record, merged,
          DiscoveryAgent.cached]
      · exact getElem?_updateDevicePluginByType (updateDeviceCache d hsmDevice.name merged) merged
          hruns
      · have hsame := deviceTypes_updateDevicePluginByType env
          (updateDeviceCache d hsmDevice.name merged) hsmDevice.deviceType merged
        exact hsame ▸ h.types

private theorem Inv.event {name : String} {devices : List DiscoveredDevice}
    (hdevices : ∀ entry ∈ devices, usbOf entry ∈ hardware)
    (hknown : match d.deviceTypes[name]? with
      | some deviceType => Runs env d deviceType
      | none => ∀ hsmDevice ∈ hsmDevices,
          shouldDiscoverOnNode d.nodeName hsmDevice.toHSMDevice = true →
            hsmDevice.name ≠ name)
    {written : PluginAgent}
    (hagent : written.toDiscoveryAgent = record env.toEnv d.toDiscoveryAgent name devices)
    (hmanagers : written.devicePluginManagers = d.devicePluginManagers)
    (htypes : written.deviceTypes = d.deviceTypes) :
    Inv nodeName hsmDevices hardware (updateDevicePluginByName env written name devices) := by
  have hname : written.nodeName = d.nodeName := by rw [hagent, nodeName_record]
  unfold updateDevicePluginByName
  rw [htypes]
  cases htype : d.deviceTypes[name]? with
  | none =>
    rw [htype] at hknown
    refine h.cache env.toEnv hdevices hagent hmanagers htypes
      fun hsmDevice hlisted hnode heq => ?_
    rw [← h.node] at hnode
    exact absurd heq (hknown hsmDevice hlisted hnode)
  | some deviceType =>
    rw [htype] at hknown
    obtain ⟨hsmDevice, hlisted, hnode, rfl, rfl⟩ := h.types name deviceType htype
    have hruns : Runs env written hsmDevice.deviceType := by
      unfold Runs
      rw [hmanagers]
      exact hknown
    refine h.publish env.toEnv hdevices hseparate hids hlisted hnode ?_ ?_ ?_
    · rw [toDiscoveryAgent_updateDevicePluginByType, hagent]
    · rw [← hname, ← hmanagers]
      exact getElem?_updateDevicePluginByType written devices hruns
    · rw [deviceTypes_updateDevicePluginByType, htypes]
      exact h.types

theorem Inv.turn {t : Turn} (horderly : Orderly hsmDevices hardware d t) :
    Inv nodeName hsmDevices hardware (turn d t) := by
  obtain ⟨env, work⟩ := t
  cases work with
  | initial hsmDevice =>
    obtain ⟨hlisted, hruns, hfound⟩ := horderly
    exact (h.process hseparate hids hlisted hruns hfound).register hsmDevice
  | prune current => exact h.prune current
  | periodic hsmDevice =>
    obtain ⟨hlisted, hruns, hfound⟩ := horderly
    have hregistered := h.register hsmDevice
    have hmanagers : (registerSpecForMonitoring d hsmDevice).devicePluginManagers =
        d.devicePluginManagers := by
      unfold registerSpecForMonitoring
      split <;> rfl
    unfold Discovery.Plugin.turn Discovery.Plugin.rescan
    dsimp only
    split
    · exact hregistered
    next hnode =>
      rw [hregistered.node, Bool.not_eq_true', Bool.not_eq_false] at hnode
      refine hregistered.rescan hseparate hids hlisted ?_ hfound hnode
      unfold Runs
      rw [hmanagers]
      exact hruns
  | retire name => exact h.retire name
  | event e =>
    obtain ⟨hdevice, hknown⟩ := horderly
    have hstock := h.stock e.hsmDeviceName
    unfold Discovery.Plugin.turn handleUSBEvent
    dsimp only
    split
    · have hpresent : usbOf (present env.toEnv d.nodeName e.device) ∈ hardware := hdevice
      exact h.event hseparate hids (usbOf_plugged hstock hpresent) hknown rfl rfl rfl
    · unfold handleDeviceRemove
      split
      · exact h
      next currentDevices hcurrent =>
        have hcached : d.cached e.hsmDeviceName = currentDevices := by
          rw [DiscoveryAgent.cached, Std.ExtTreeMap.getD_eq_getD_getElem?, hcurrent,
            Option.getD_some]
        rw [hcached] at hstock
        split
        · exact h
        · exact h.event hseparate hids (usbOf_lost hstock) hknown rfl rfl rfl
    · exact h

end Turns

/-- The device plugins advertise every local device throughout a run of orderly turns, if the
HSMDevices of the node have different types and the USB devices different identifiers. -/
theorem inventory_of_separate (nodeName : String) (hsmDevices : List TypedDevice)
    (hardware : List USBDevice) (hseparate : Separate nodeName hsmDevices)
    (hids : Distinguished hardware) (turns : List Turn)
    (horderly : Along turn (Orderly hsmDevices hardware) { nodeName } turns) :
    Inventory hsmDevices (run turn { nodeName } turns) := by
  have hstart : Inv nodeName hsmDevices hardware { nodeName } := by
    refine ⟨rfl, fun name deviceType htype => ?_, fun name entry hentry => ?_, fun T device => ?_⟩
    · simp at htype
    · simp [DiscoveryAgent.cached] at hentry
    · simp [Advertised, Local, DiscoveryAgent.cached, nodeDevices]
  have hrun : Inv nodeName hsmDevices hardware (run turn { nodeName } turns) :=
    Along.run_invariant (fun d t h ht => Inv.turn hseparate hids h ht) hstart horderly
  exact hrun.inventory

private def pico : TypedDevice where
  name := "pico"
  discovery := some { autoDiscovery := false, specs := [⟨"20a0", "4230", ""⟩] }
  deviceType := "PicoHSM"

private def spare : TypedDevice where
  name := "spare"
  discovery := some { autoDiscovery := false, specs := [⟨"2e8a", "10fd", ""⟩] }
  deviceType := "Generic"

private def stick : USBDevice := ⟨"/dev/bus/usb/001/004", "DC6A"⟩

private def oneStick (now : Nat) : PluginEnv where
  now
  usb := fun criteria =>
    if criteria = buildMatchCriteria pico.toHSMDevice then .ok [stick] else .ok []

private def plugCycle : List Turn :=
  [⟨oneStick 10, .initial pico⟩, ⟨oneStick 10, .initial spare⟩,
   ⟨oneStick 10, .prune ["pico", "spare"]⟩, ⟨oneStick 20, .event ⟨.remove, stick, "pico"⟩⟩,
   ⟨oneStick 30, .event ⟨.add, stick, "pico"⟩⟩]

private theorem oneStick_finds {now : Nat} {criteria : Discovery.Agent.MatchCriteria}
    {found : List USBDevice} (h : (oneStick now).usb criteria = .ok found) :
    ∀ usbDev ∈ found, usbDev ∈ [stick] := by
  unfold oneStick at h
  dsimp only at h
  split at h
  · obtain rfl := Except.ok.inj h
    exact fun usbDev hmem => hmem
  · obtain rfl := Except.ok.inj h
    exact fun usbDev hmem => absurd hmem List.not_mem_nil

theorem inventory_plugCycle :
    Along turn (Orderly [pico, spare] [stick]) { nodeName := "n1" } plugCycle ∧
      Inventory [pico, spare] (run turn { nodeName := "n1" } plugCycle) := by
  have hseparate : Separate "n1" [pico, spare] := by
    intro a ha b hb _ _ hsame
    simp only [List.mem_cons, List.not_mem_nil, or_false] at ha hb
    rcases ha with rfl | rfl <;> rcases hb with rfl | rfl
    · rfl
    · exact absurd hsame (by decide)
    · exact absurd hsame (by decide)
    · rfl
  have hids : Distinguished [stick] := by
    intro a b ha hb _ _
    exact (List.mem_singleton.mp ha).trans (List.mem_singleton.mp hb).symm
  have horderly : Along turn (Orderly [pico, spare] [stick]) { nodeName := "n1" } plugCycle := by
    refine ⟨?_, ?_, trivial, ?_, ?_, trivial⟩
    · exact ⟨List.mem_cons_self, .inr rfl, fun found h => oneStick_finds h⟩
    · exact ⟨List.mem_cons_of_mem _ List.mem_cons_self, .inr rfl, fun found h => oneStick_finds h⟩
    · refine ⟨List.mem_singleton_self _, ?_⟩
      split
      · exact .inr rfl
      next hnone => exact absurd hnone (by decide +kernel)
    · refine ⟨List.mem_singleton_self _, ?_⟩
      split
      · exact .inr rfl
      next hnone => exact absurd hnone (by decide +kernel)
  exact ⟨horderly,
    inventory_of_separate "n1" [pico, spare] [stick] hseparate hids plugCycle horderly⟩

private def picoSpare : TypedDevice := { spare with deviceType := "PicoHSM" }

/-- The scan for the second finds nothing, and so the manager forgets the device of the first. -/
theorem same_type_hides_device :
    ¬ Inventory [pico, picoSpare]
      (performDiscovery (oneStick 10) { nodeName := "n1" } [pico, picoSpare]) := by
  intro h
  let entry : DiscoveredDevice := present (oneStick 10).toEnv "n1" stick
  have hlocal : Local (performDiscovery (oneStick 10) { nodeName := "n1" } [pico, picoSpare]) pico
      (toDevice entry) := by
    refine ⟨rfl, entry, ?_, rfl⟩
    decide +kernel
  obtain ⟨devices, hdevices, id, hid⟩ :=
    (h "PicoHSM" (toDevice entry)).mpr ⟨pico, List.mem_cons_self, rfl, hlocal⟩
  have hempty : (performDiscovery (oneStick 10) { nodeName := "n1" }
      [pico, picoSpare]).devicePluginManagers["PicoHSM"]? = some ∅ := by
    decide +kernel
  rw [hempty] at hdevices
  obtain rfl := Option.some.inj hdevices
  simp at hid

end HsmSecretsOperator.System.PluginInventory
