/- source: internal/modes/discovery/discovery.go
   digest: The lookup index that the agent keeps beside its cache, and the coherence of the two. -/

import HsmSecretsOperator.Discovery.Events

set_option autoImplicit false

namespace HsmSecretsOperator.Discovery.Index

open Discovery.Agent Discovery.Events Foundation.Maps Foundation.Runs Report

/-- The agent with the index as it is kept. -/
structure IndexedAgent extends DiscoveryAgent where
  deviceLookup : Std.ExtTreeMap String (Std.ExtTreeMap String Nat) := ∅

section Handlers

variable (env : Env) (d : IndexedAgent)

/-- The index of an HSMDevice before it is filled: a new one, or the old one with all keys
deleted. -/
def clearLookup : Option (Std.ExtTreeMap String Nat) → Std.ExtTreeMap String Nat
  | none => ∅
  | some lookup => lookup.keys.foldl (fun m k => m.erase k) lookup

def updateDeviceCache (hsmDeviceName : String) (devices : List DiscoveredDevice) :
    IndexedAgent where
  toDiscoveryAgent := Agent.updateDeviceCache d.toDiscoveryAgent hsmDeviceName devices
  deviceLookup := d.deviceLookup.insert hsmDeviceName
    (devices.zipIdx.foldl indexDevice (clearLookup d.deviceLookup[hsmDeviceName]?))

def updatePodAnnotation (hsmDeviceName : String) (devices : List DiscoveredDevice) : IndexedAgent :=
  { d with
    toDiscoveryAgent := Agent.updatePodAnnotation env d.toDiscoveryAgent hsmDeviceName devices }

def findDeviceIndex (hsmDeviceName : String) (device : DiscoveredDevice) : Option Nat :=
  match d.deviceLookup[hsmDeviceName]? with
  | none => none
  | some lookupMap =>
    let bySerial :=
      if device.serialNumber ≠ "" then lookupMap["serial:" ++ device.serialNumber]? else none
    match bySerial with
    | some idx => some idx
    | none => if device.devicePath ≠ "" then lookupMap["path:" ++ device.devicePath]? else none

/-- The cache with its index, and then the annotation. -/
def record (hsmDeviceName : String) (devices : List DiscoveredDevice) : IndexedAgent :=
  updatePodAnnotation env (updateDeviceCache d hsmDeviceName devices) hsmDeviceName devices

def processHSMDevice (hsmDevice : HSMDevice) : IndexedAgent :=
  if !shouldDiscoverOnNode d.nodeName hsmDevice then d
  else
    match discoverDevicesForSpec env d.nodeName hsmDevice with
    | .error _ => d
    | .ok discoveredDevices => record env d hsmDevice.name discoveredDevices

def handleDeviceAdd (event : USBEvent) : IndexedAgent :=
  let device := present env d.nodeName event.device
  let currentDevices := d.deviceCache.getD event.hsmDeviceName []
  match findDeviceIndex d event.hsmDeviceName device with
  | some existingIdx =>
    record env d event.hsmDeviceName
      (currentDevices.set existingIdx { device with available := true })
  | none => record env d event.hsmDeviceName (currentDevices ++ [device])

def handleDeviceRemove (event : USBEvent) : IndexedAgent :=
  match d.deviceCache[event.hsmDeviceName]? with
  | none => d
  | some currentDevices =>
    match findDeviceIndex d event.hsmDeviceName (present env d.nodeName event.device) with
    | none => d
    | some deviceIdx =>
      record env d event.hsmDeviceName (currentDevices.modify deviceIdx (markLost env.now))

def handleUSBEvent (event : USBEvent) : IndexedAgent :=
  match event.action with
  | .add => handleDeviceAdd env d event
  | .remove => handleDeviceRemove env d event
  | .other _ => d

def reconcileHSMDeviceScan (hsmDevice : HSMDevice) : IndexedAgent :=
  match discoverDevicesForSpec env d.nodeName hsmDevice with
  | .error _ => d
  | .ok scanned =>
    let (merged, changed) :=
      mergeScanIntoCache env.now (d.deviceCache.getD hsmDevice.name []) scanned
    if !changed then d else record env d hsmDevice.name merged

/-- The turn of the loop of `cleanupStaleDevices` for one HSMDevice. -/
def cleanupDevicesOf (hsmDeviceName : String) : IndexedAgent :=
  let devices := d.deviceCache.getD hsmDeviceName []
  if devices.any (isStale env.now) then
    record env d hsmDeviceName (devices.filter fun device => !isStale env.now device)
  else d

def turn (t : Turn) : IndexedAgent :=
  match t.work with
  | .initial hsmDevice => processHSMDevice t.env d hsmDevice
  | .periodic hsmDevice =>
    if shouldDiscoverOnNode d.nodeName hsmDevice then reconcileHSMDeviceScan t.env d hsmDevice
    else d
  | .retire hsmDeviceName => cleanupDevicesOf t.env d hsmDeviceName
  | .event event => handleUSBEvent t.env d event

end Handlers

/-- Every HSMDevice with a cache has the index of that cache, and no other has one. -/
def Indexed (d : IndexedAgent) : Prop :=
  ∀ name : String, d.deviceLookup[name]? = d.deviceCache[name]?.map deviceLookup

theorem clearLookup_eq (lookup : Option (Std.ExtTreeMap String Nat)) : clearLookup lookup = ∅ := by
  cases lookup with
  | none => rfl
  | some lookup =>
    refine Std.ExtTreeMap.ext_getElem? fun k => ?_
    rw [clearLookup, getElem?_foldl_erase]
    split
    · simp
    next hk =>
      rw [Std.ExtTreeMap.mem_keys] at hk
      rw [Std.ExtTreeMap.getElem?_eq_none hk]
      simp

section Refinement

variable {env : Env} {d : IndexedAgent} (h : Indexed d)
include h

theorem indexed_record (name : String) (devices : List DiscoveredDevice) :
    Indexed (record env d name devices) := by
  intro other
  have hcache : (record env d name devices).deviceCache = d.deviceCache.insert name devices :=
    deviceCache_record env d.toDiscoveryAgent name devices
  have hlookup : (record env d name devices).deviceLookup =
      d.deviceLookup.insert name (deviceLookup devices) := by
    dsimp only [record, updatePodAnnotation, updateDeviceCache]
    rw [clearLookup_eq]
    rfl
  rw [hcache, hlookup]
  by_cases hname : name = other
  · subst hname
    rw [Std.ExtTreeMap.getElem?_insert_self, Std.ExtTreeMap.getElem?_insert_self, Option.map_some]
  · rw [getElem?_insert_of_ne _ hname, getElem?_insert_of_ne _ hname]
    exact h other

theorem findDeviceIndex_eq (name : String) (device : DiscoveredDevice) :
    findDeviceIndex d name device = Events.findDeviceIndex (d.cached name) device := by
  unfold findDeviceIndex
  rw [h name, DiscoveryAgent.cached, Std.ExtTreeMap.getD_eq_getD_getElem?]
  cases d.deviceCache[name]? with
  | some devices => rfl
  | none => simp [Events.findDeviceIndex, deviceLookup]

/-- The agent has the index of its cache, and is the given one beside it. -/
def Refines (d : IndexedAgent) (agent : DiscoveryAgent) : Prop :=
  d.toDiscoveryAgent = agent ∧ Indexed d

private theorem refines_record (name : String) (devices : List DiscoveredDevice) :
    Refines (record env d name devices) (Agent.record env d.toDiscoveryAgent name devices) :=
  ⟨rfl, indexed_record h name devices⟩

private theorem refines_initial (hsmDevice : HSMDevice) :
    Refines (processHSMDevice env d hsmDevice)
      (Agent.processHSMDevice env d.toDiscoveryAgent hsmDevice) := by
  unfold processHSMDevice Agent.processHSMDevice
  cases shouldDiscoverOnNode d.nodeName hsmDevice with
  | false => exact ⟨rfl, h⟩
  | true =>
    cases discoverDevicesForSpec env d.nodeName hsmDevice with
    | error e => exact ⟨rfl, h⟩
    | ok found => exact refines_record h _ _

private theorem refines_periodic (hsmDevice : HSMDevice) :
    Refines (reconcileHSMDeviceScan env d hsmDevice)
      (Agent.reconcileHSMDeviceScan env d.toDiscoveryAgent hsmDevice) := by
  unfold reconcileHSMDeviceScan Agent.reconcileHSMDeviceScan
  cases discoverDevicesForSpec env d.nodeName hsmDevice with
  | error e => exact ⟨rfl, h⟩
  | ok scanned =>
    dsimp only
    cases (mergeScanIntoCache env.now (d.deviceCache.getD hsmDevice.name []) scanned).2 with
    | false => exact ⟨rfl, h⟩
    | true => exact refines_record h _ _

private theorem refines_retire (name : String) :
    Refines (cleanupDevicesOf env d name)
      (Agent.cleanupDevicesOf env d.toDiscoveryAgent name) := by
  unfold cleanupDevicesOf Agent.cleanupDevicesOf
  dsimp only
  cases (d.deviceCache.getD name []).any (isStale env.now) with
  | false => exact ⟨rfl, h⟩
  | true => exact refines_record h _ _

private theorem refines_add (event : USBEvent) :
    Refines (handleDeviceAdd env d event)
      (Events.handleDeviceAdd env d.toDiscoveryAgent event) := by
  have hfind := findDeviceIndex_eq h event.hsmDeviceName (present env d.nodeName event.device)
  dsimp only [handleDeviceAdd, Events.handleDeviceAdd, plugged, DiscoveryAgent.cached] at hfind ⊢
  rw [hfind]
  cases Events.findDeviceIndex (d.deviceCache.getD event.hsmDeviceName [])
      (present env d.nodeName event.device) with
  | none => exact refines_record h _ _
  | some existingIdx => exact refines_record h _ _

private theorem refines_remove (event : USBEvent) :
    Refines (handleDeviceRemove env d event)
      (Events.handleDeviceRemove env d.toDiscoveryAgent event) := by
  have hfind := findDeviceIndex_eq h event.hsmDeviceName (present env d.nodeName event.device)
  unfold handleDeviceRemove Events.handleDeviceRemove
  rw [hfind, DiscoveryAgent.cached, Std.ExtTreeMap.getD_eq_getD_getElem?]
  cases d.deviceCache[event.hsmDeviceName]? with
  | none => exact ⟨rfl, h⟩
  | some currentDevices =>
    dsimp only [Option.getD_some]
    cases Events.findDeviceIndex currentDevices (present env d.nodeName event.device) with
    | none => exact ⟨rfl, h⟩
    | some deviceIdx => exact refines_record h _ _

/-- A turn with the index does to the agent what the turn does that computes the index from the
cache, and leaves the index of the new cache. -/
theorem turn_refines (t : Turn) :
    Refines (turn d t) (Events.turn d.toDiscoveryAgent t) := by
  obtain ⟨env, work⟩ := t
  cases work with
  | initial hsmDevice => exact refines_initial h hsmDevice
  | periodic hsmDevice =>
    dsimp only [turn, Events.turn]
    cases shouldDiscoverOnNode d.nodeName hsmDevice with
    | false => exact ⟨rfl, h⟩
    | true => exact refines_periodic h hsmDevice
  | retire hsmDeviceName => exact refines_retire h hsmDeviceName
  | event event =>
    dsimp only [turn, Events.turn, handleUSBEvent, Events.handleUSBEvent]
    cases event.action with
    | add => exact refines_add h event
    | remove => exact refines_remove h event
    | other text => exact ⟨rfl, h⟩

theorem run_refines (turns : List Turn) :
    Refines (run turn d turns) (run Events.turn d.toDiscoveryAgent turns) := by
  induction turns generalizing d with
  | nil => exact ⟨rfl, h⟩
  | cons t turns ih =>
    obtain ⟨heq, hnext⟩ := turn_refines h t
    rw [run_cons, run_cons, ← heq]
    exact ih hnext

end Refinement

/-- The keys under which a device is indexed. -/
def indexKeys (device : DiscoveredDevice) : List String :=
  (if device.serialNumber ≠ "" then ["serial:" ++ device.serialNumber] else []) ++
    if device.devicePath ≠ "" then ["path:" ++ device.devicePath] else []

theorem serial_ne_path (s p : String) : "serial:" ++ s ≠ "path:" ++ p := by
  intro h
  have hlist := congrArg String.toList h
  simp [String.toList_append] at hlist

theorem serial_mem_indexKeys {s : String} {device : DiscoveredDevice} :
    "serial:" ++ s ∈ indexKeys device ↔ s ≠ "" ∧ device.serialNumber = s := by
  unfold indexKeys
  constructor
  · intro h
    rcases List.mem_append.mp h with h | h
    · split at h
      next hserial =>
        obtain rfl := (String.append_right_inj _).mp (List.mem_singleton.mp h)
        exact ⟨hserial, rfl⟩
      next => exact absurd h List.not_mem_nil
    · split at h
      · exact absurd (List.mem_singleton.mp h) (serial_ne_path _ _)
      · exact absurd h List.not_mem_nil
  · rintro ⟨hs, rfl⟩
    rw [if_pos hs]
    exact List.mem_append_left _ List.mem_cons_self

theorem path_mem_indexKeys {p : String} {device : DiscoveredDevice} :
    "path:" ++ p ∈ indexKeys device ↔ p ≠ "" ∧ device.devicePath = p := by
  unfold indexKeys
  constructor
  · intro h
    rcases List.mem_append.mp h with h | h
    · split at h
      · exact absurd (List.mem_singleton.mp h).symm (serial_ne_path _ _)
      · exact absurd h List.not_mem_nil
    · split at h
      next hpath =>
        obtain rfl := (String.append_right_inj _).mp (List.mem_singleton.mp h)
        exact ⟨hpath, rfl⟩
      next => exact absurd h List.not_mem_nil
  · rintro ⟨hp, rfl⟩
    rw [if_pos hp]
    exact List.mem_append_right _ List.mem_cons_self

theorem deviceLookup_eq_positions (devices : List DiscoveredDevice) :
    deviceLookup devices = positions compare indexKeys devices := by
  unfold deviceLookup positions
  congr 1
  funext lookup entry
  dsimp only [indexDevice, indexKeys]
  split <;> split <;> rfl

/-- What a search of the cache comes to: the device with the serial number, else the last one at the
path, else nothing. -/
inductive Found (devices : List DiscoveredDevice) (device : DiscoveredDevice) : Option Nat → Prop
  | serial {i : Nat} {entry : DiscoveredDevice} (hserial : device.serialNumber ≠ "")
      (hentry : devices[i]? = some entry) (heq : entry.serialNumber = device.serialNumber) :
      Found devices device (some i)
  | path {i : Nat} {entry : DiscoveredDevice}
      (hnew : device.serialNumber ≠ "" → ∀ c ∈ devices, c.serialNumber ≠ device.serialNumber)
      (hpath : device.devicePath ≠ "") (hentry : devices[i]? = some entry)
      (heq : entry.devicePath = device.devicePath)
      (hlast : ∀ j c, i < j → devices[j]? = some c → c.devicePath ≠ device.devicePath) :
      Found devices device (some i)
  | absent
      (hnew : device.serialNumber ≠ "" → ∀ c ∈ devices, c.serialNumber ≠ device.serialNumber)
      (hpath : device.devicePath ≠ "" → ∀ c ∈ devices, c.devicePath ≠ device.devicePath) :
      Found devices device none

private theorem getElem?_deviceLookup_none {devices : List DiscoveredDevice} {k : String}
    (h : (deviceLookup devices)[k]? = none) : ∀ c ∈ devices, k ∉ indexKeys c := by
  intro c hc hk
  have hmem : k ∈ deviceLookup devices := by
    rw [deviceLookup_eq_positions]
    exact mem_positions.mpr ⟨c, hc, hk⟩
  obtain ⟨i, hi⟩ := exists_getElem?_of_mem hmem
  rw [h] at hi
  cases hi

private theorem found_of_new {devices : List DiscoveredDevice} {device : DiscoveredDevice}
    (hnew : device.serialNumber ≠ "" → ∀ c ∈ devices, c.serialNumber ≠ device.serialNumber) :
    Found devices device
      (if device.devicePath ≠ "" then (deviceLookup devices)["path:" ++ device.devicePath]?
        else none) := by
  split
  next hpath =>
    cases hi : (deviceLookup devices)["path:" ++ device.devicePath]? with
    | none =>
      have hnone := getElem?_deviceLookup_none hi
      exact .absent hnew fun _ c hc heq => hnone c hc (path_mem_indexKeys.mpr ⟨hpath, heq⟩)
    | some i =>
      rw [deviceLookup_eq_positions] at hi
      obtain ⟨⟨entry, hentry, hkey⟩, hlater⟩ := getElem?_positions hi
      refine .path hnew hpath hentry (path_mem_indexKeys.mp hkey).2 fun j c hj hc heq => ?_
      exact hlater j c hj hc (path_mem_indexKeys.mpr ⟨hpath, heq⟩)
  next hpath => exact .absent hnew fun hne => absurd hne hpath

theorem found_findDeviceIndex (devices : List DiscoveredDevice) (device : DiscoveredDevice) :
    Found devices device (Events.findDeviceIndex devices device) := by
  unfold Events.findDeviceIndex
  dsimp only
  by_cases hserial : device.serialNumber ≠ ""
  · rw [if_pos hserial]
    cases hi : (deviceLookup devices)["serial:" ++ device.serialNumber]? with
    | none =>
      have hnone := getElem?_deviceLookup_none hi
      exact found_of_new fun _ c hc heq => hnone c hc (serial_mem_indexKeys.mpr ⟨hserial, heq⟩)
    | some i =>
      rw [deviceLookup_eq_positions] at hi
      obtain ⟨⟨entry, hentry, hkey⟩, _⟩ := getElem?_positions hi
      exact .serial hserial hentry (serial_mem_indexKeys.mp hkey).2
  · rw [if_neg hserial]
    exact found_of_new fun hne => absurd hne hserial

/-- No two devices of the list share a serial number. -/
def DistinctSerials (devices : List DiscoveredDevice) : Prop :=
  devices.Pairwise fun a b => a.serialNumber ≠ "" → a.serialNumber ≠ b.serialNumber

theorem distinctSerials_congr {devices devices' : List DiscoveredDevice}
    (h : devices.map (·.serialNumber) = devices'.map (·.serialNumber)) :
    DistinctSerials devices ↔ DistinctSerials devices' := by
  have hmap (l : List DiscoveredDevice) : DistinctSerials l ↔
      (l.map (·.serialNumber)).Pairwise fun s t => s ≠ "" → s ≠ t := by
    rw [List.pairwise_map]
    exact Iff.rfl
  rw [hmap, hmap, h]

private theorem pairwise_set {α : Type} {R : α → α → Prop} {l : List α} (h : l.Pairwise R) (i : Nat)
    {x : α} (hx : ∀ y ∈ l, R x y ∧ R y x) : (l.set i x).Pairwise R := by
  induction l generalizing i with
  | nil => exact .nil
  | cons y l ih =>
    obtain ⟨hy, hl⟩ := List.pairwise_cons.mp h
    cases i with
    | zero => exact .cons (fun z hz => (hx z (List.mem_cons_of_mem y hz)).1) hl
    | succ i =>
      refine .cons (fun z hz => ?_) (ih hl i fun z hz => hx z (List.mem_cons_of_mem y hz))
      rcases List.mem_or_eq_of_mem_set hz with hz | rfl
      · exact hy z hz
      · exact (hx y List.mem_cons_self).2

private theorem distinctSerials_plugged {devices : List DiscoveredDevice}
    (h : DistinctSerials devices) (device : DiscoveredDevice) :
    DistinctSerials (plugged devices device) := by
  unfold plugged
  have hfound := found_findDeviceIndex devices device
  generalize Events.findDeviceIndex devices device = place at hfound ⊢
  cases hfound with
  | @serial i entry hserial hentry heq =>
    refine (distinctSerials_congr ?_).mp h
    rw [List.map_set]
    refine (List.ext_getElem? fun j => ?_).symm
    rw [List.getElem?_set]
    split
    next hij =>
      subst hij
      rw [List.getElem?_map, hentry, Option.map_some, heq,
        if_pos (by simpa using (List.getElem?_eq_some_iff.mp hentry).1)]
    next => rfl
  | path hnew hpath hentry heq hlast =>
    refine pairwise_set h _ fun c hc => ⟨fun hne => (hnew hne c hc).symm, fun hne hsame => ?_⟩
    exact hnew (hsame ▸ hne) c hc hsame
  | absent hnew hpath =>
    refine List.pairwise_append.mpr ⟨h, List.pairwise_singleton _ _, fun c hc x hx hne hsame => ?_⟩
    obtain rfl := List.mem_singleton.mp hx
    exact hnew (hsame ▸ hne) c hc hsame

private theorem distinctSerials_markLost {devices : List DiscoveredDevice}
    (h : DistinctSerials devices) (i now : Nat) :
    DistinctSerials (devices.modify i (markLost now)) := by
  refine (distinctSerials_congr ?_).mp h
  refine List.ext_getElem? fun j => ?_
  rw [List.getElem?_map, List.getElem?_map, List.getElem?_modify]
  cases devices[j]? with
  | none => rfl
  | some device =>
    dsimp only [Option.map_some, Option.map_eq_map]
    split <;> rfl

theorem serialNumber_eq_of_deviceKey {a b : DiscoveredDevice} (h : deviceKey a = deviceKey b) :
    a.serialNumber = b.serialNumber := by
  by_cases hb : b.serialNumber = ""
  · by_contra hne
    have ha : a.serialNumber ≠ "" := fun ha => hne (ha.trans hb.symm)
    exact hne (serialNumber_of_deviceKey h.symm ha).symm
  · exact serialNumber_of_deviceKey h hb

theorem deviceKey_eq_of_serialNumber {a b : DiscoveredDevice} (ha : a.serialNumber ≠ "")
    (h : a.serialNumber = b.serialNumber) : deviceKey a = deviceKey b := by
  rw [deviceKey, if_pos ha, deviceKey, if_pos (h ▸ ha), h]

private theorem serialNumber_mergeCached (now : Nat) (scanned : List DiscoveredDevice)
    (old : DiscoveredDevice) :
    (mergeCached now (assign ∅ deviceKey id scanned) old).1.serialNumber = old.serialNumber := by
  unfold mergeCached
  split
  next fresh hfresh =>
    rcases of_getElem?_assign hfresh with hempty | ⟨dev, _, hkey, rfl⟩
    · simp at hempty
    · exact serialNumber_eq_of_deviceKey hkey
  next => split <;> rfl

private theorem distinctSerials_merge {existing scanned : List DiscoveredDevice}
    (h : DistinctSerials existing) (hscanned : (scanned.map deviceKey).Nodup) (now : Nat) :
    DistinctSerials (mergeScanIntoCache now existing scanned).1 := by
  have hserials : (mergeScanIntoCache now existing scanned).1.map (·.serialNumber) =
      (existing ++ scanned.filter fun dev => deviceKey dev ∉ existing.map deviceKey).map
        (·.serialNumber) := by
    simp only [mergeScanIntoCache, List.map_append, List.map_map, Function.comp_def,
      serialNumber_mergeCached]
  refine (distinctSerials_congr hserials).mpr (List.pairwise_append.mpr ⟨h, ?_, ?_⟩)
  · refine List.Pairwise.filter _ ((List.pairwise_map.mp hscanned).imp ?_)
    exact fun hkeys hne hsame => hkeys (deviceKey_eq_of_serialNumber hne hsame)
  · intro old hold dev hdev hne hsame
    have hnew := of_decide_eq_true (List.mem_filter.mp hdev).2
    exact hnew (List.mem_map.mpr ⟨old, hold, deviceKey_eq_of_serialNumber hne hsame⟩)

/-- The devices that a scan finds have distinct identities. -/
def ScansDistinct (d : DiscoveryAgent) (t : Turn) : Prop :=
  match t.work with
  | .initial hsmDevice | .periodic hsmDevice =>
    ∀ found, discoverDevicesForSpec t.env d.nodeName hsmDevice = .ok found →
      (found.map deviceKey).Nodup
  | .retire _ | .event _ => True

/-- Serial numbers are distinct in the cache of every HSMDevice. -/
def AllDistinct (d : DiscoveryAgent) : Prop := ∀ name, DistinctSerials (d.cached name)

private theorem allDistinct_record {d : DiscoveryAgent} (h : AllDistinct d) (env : Env)
    {name : String} {devices : List DiscoveredDevice} (hdevices : DistinctSerials devices) :
    AllDistinct (Agent.record env d name devices) := by
  intro other
  by_cases hname : name = other
  · subst hname
    rwa [cached_record_self]
  · rw [cached_record_of_ne env d name devices hname]
    exact h other

theorem allDistinct_turn {d : DiscoveryAgent} (h : AllDistinct d) {t : Turn}
    (ht : ScansDistinct d t) : AllDistinct (Events.turn d t) := by
  have hrecords := records_turn d t
  generalize Events.turn d t = d' at hrecords ⊢
  unfold ScansDistinct at ht
  cases hrecords with
  | idle => exact h
  | initial hwork hfound =>
    rw [hwork] at ht
    refine allDistinct_record h _ ((List.pairwise_map.mp (ht _ hfound)).imp ?_)
    exact fun hkeys hne hsame => hkeys (deviceKey_eq_of_serialNumber hne hsame)
  | periodic hwork hscanned =>
    rw [hwork] at ht
    exact allDistinct_record h _ (distinctSerials_merge (h _) (ht _ hscanned) _)
  | retire hwork => exact allDistinct_record h _ ((h _).filter _)
  | add hwork haction => exact allDistinct_record h _ (distinctSerials_plugged (h _) _)
  | remove hwork haction hi => exact allDistinct_record h _ (distinctSerials_markLost (h _) _ _)

/-- The index of an HSMDevice and its cache: every entry of the index is for the serial number or
the path of the device at its place, every device is indexed by both, and serial numbers are
distinct. -/
structure Coherent (lookup : Std.ExtTreeMap String Nat) (devices : List DiscoveredDevice) :
    Prop where
  kinds : ∀ k ∈ lookup, (∃ s, k = "serial:" ++ s) ∨ ∃ p, k = "path:" ++ p
  serial_place : ∀ (s : String) (i : Nat), lookup["serial:" ++ s]? = some i →
    ∃ device, devices[i]? = some device ∧ device.serialNumber = s
  path_place : ∀ (p : String) (i : Nat), lookup["path:" ++ p]? = some i →
    ∃ device, devices[i]? = some device ∧ device.devicePath = p
  serial_indexed : ∀ device ∈ devices, device.serialNumber ≠ "" →
    "serial:" ++ device.serialNumber ∈ lookup
  path_indexed : ∀ device ∈ devices, device.devicePath ≠ "" → "path:" ++ device.devicePath ∈ lookup
  distinct : DistinctSerials devices

theorem coherent_deviceLookup {devices : List DiscoveredDevice} (h : DistinctSerials devices) :
    Coherent (deviceLookup devices) devices := by
  rw [deviceLookup_eq_positions]
  refine ⟨fun k hk => ?_, fun s i hi => ?_, fun p i hi => ?_, fun device hdevice hs => ?_,
    fun device hdevice hp => ?_, h⟩
  · obtain ⟨device, _, hkey⟩ := mem_positions.mp hk
    unfold indexKeys at hkey
    rcases List.mem_append.mp hkey with hkey | hkey
    · split at hkey
      · exact .inl ⟨_, List.mem_singleton.mp hkey⟩
      · exact absurd hkey List.not_mem_nil
    · split at hkey
      · exact .inr ⟨_, List.mem_singleton.mp hkey⟩
      · exact absurd hkey List.not_mem_nil
  · obtain ⟨⟨device, hdevice, hkey⟩, _⟩ := getElem?_positions hi
    exact ⟨device, hdevice, (serial_mem_indexKeys.mp hkey).2⟩
  · obtain ⟨⟨device, hdevice, hkey⟩, _⟩ := getElem?_positions hi
    exact ⟨device, hdevice, (path_mem_indexKeys.mp hkey).2⟩
  · exact mem_positions.mpr ⟨device, hdevice, serial_mem_indexKeys.mpr ⟨hs, rfl⟩⟩
  · exact mem_positions.mpr ⟨device, hdevice, path_mem_indexKeys.mpr ⟨hp, rfl⟩⟩

def start (nodeName : String) : IndexedAgent := { nodeName }

private theorem indexed_start (nodeName : String) : Indexed (start nodeName) := by
  intro name
  simp [start]

theorem indexed_run (nodeName : String) (turns : List Turn) :
    Indexed (run turn (start nodeName) turns) :=
  (run_refines (indexed_start nodeName) turns).2

/-- What every turn keeps: the index is that of the cache, and serial numbers are distinct. -/
def Kept (d : IndexedAgent) : Prop := Indexed d ∧ AllDistinct d.toDiscoveryAgent

private theorem kept_start (nodeName : String) : Kept (start nodeName) := by
  refine ⟨indexed_start nodeName, fun name => ?_⟩
  simp [start, DiscoveryAgent.cached, DistinctSerials]

theorem kept_turn (d : IndexedAgent) (t : Turn) (h : Kept d)
    (ht : ScansDistinct d.toDiscoveryAgent t) : Kept (turn d t) := by
  obtain ⟨heq, hnext⟩ := turn_refines h.1 t
  exact ⟨hnext, heq ▸ allDistinct_turn h.2 ht⟩

/-- After every run of scans with distinct identities, events and retirements, the index of every
HSMDevice is coherent with its cache. -/
theorem coherent_run (nodeName : String) (turns : List Turn)
    (h : Along turn (fun d t => ScansDistinct d.toDiscoveryAgent t) (start nodeName) turns)
    (name : String) (lookup : Std.ExtTreeMap String Nat)
    (hlookup : (run turn (start nodeName) turns).deviceLookup[name]? = some lookup) :
    Coherent lookup ((run turn (start nodeName) turns).cached name) := by
  have hkept : Kept (run turn (start nodeName) turns) :=
    Along.run_invariant kept_turn (kept_start nodeName) h
  obtain ⟨hindexed, hdistinct⟩ := hkept
  rw [hindexed name] at hlookup
  obtain ⟨devices, hdevices, rfl⟩ := Option.map_eq_some_iff.mp hlookup
  have hcached : (run turn (start nodeName) turns).cached name = devices := by
    rw [DiscoveryAgent.cached, Std.ExtTreeMap.getD_eq_getD_getElem?, hdevices, Option.getD_some]
  have hserials := hdistinct name
  rw [hcached] at hserials ⊢
  exact coherent_deviceLookup hserials

section Hotplug

private def oneDevice (now : Nat) : Env :=
  { now, usb := fun _ => .ok [⟨"/dev/bus/usb/001/002", "S1"⟩] }

private def hotplug : List Turn :=
  [⟨oneDevice 10, .initial { name := "pico" }⟩,
   ⟨oneDevice 20, .event ⟨.add, ⟨"/dev/bus/usb/001/004", "S2"⟩, "pico"⟩⟩]

private theorem along_hotplug :
    Along turn (fun d t => ScansDistinct d.toDiscoveryAgent t) (start "node-a") hotplug := by
  refine ⟨fun found hfound => ?_, trivial, trivial⟩
  obtain rfl := Except.ok.inj (Eq.trans (Eq.symm hfound) rfl)
  decide

/-- The second device stands at its place in an index that is coherent. -/
theorem coherent_run_hotplug :
    ∃ lookup : Std.ExtTreeMap String Nat,
      (run turn (start "node-a") hotplug).deviceLookup["pico"]? = some lookup ∧
        lookup["serial:S2"]? = some 1 ∧
          Coherent lookup ((run turn (start "node-a") hotplug).cached "pico") := by
  have hplace : (run turn (start "node-a") hotplug).deviceLookup["pico"]?.bind
      (fun lookup => lookup["serial:S2"]?) = some 1 := by decide
  obtain ⟨lookup, hlookup, hi⟩ := Option.bind_eq_some_iff.mp hplace
  exact ⟨lookup, hlookup, hi, coherent_run "node-a" hotplug along_hotplug "pico" lookup hlookup⟩

end Hotplug

end HsmSecretsOperator.Discovery.Index
