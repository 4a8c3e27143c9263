/- source: internal/modes/discovery/discovery.go
   digest: The limit on the devices of an HSMDevice over runs of scans and USB events. -/

import HsmSecretsOperator.Discovery.Events

set_option autoImplicit false

namespace HsmSecretsOperator.System.DeviceLimit

open Discovery.Agent Discovery.Events Discovery.Report Foundation.Maps Foundation.Runs

def availableCount (devices : List DiscoveredDevice) : Nat :=
  devices.countP fun device => device.available

/-- Neither the cache nor a report for the HSMDevice lists more available devices than the limit. -/
structure Within (name : String) (limit : Int) (d : DiscoveryAgent) : Prop where
  cache : (availableCount (d.cached name) : Int) ≤ limit
  report : ∀ r, d.deviceReport = .report r → r.hsmDeviceName = name →
    (availableCount r.discoveredDevices : Int) ≤ limit

/-- An add event finds room for one more device, or an entry that is available already; a periodic
scan finds a cache in which no two entries have one key; and the resource keeps its limit. -/
def HasRoom (hsmDevice : HSMDevice) (d : DiscoveryAgent) (t : Turn) : Prop :=
  match t.work with
  | .initial other => other.name = hsmDevice.name → other.maxDevices = hsmDevice.maxDevices
  | .periodic other => other.name = hsmDevice.name →
      other.maxDevices = hsmDevice.maxDevices ∧ ((d.cached hsmDevice.name).map deviceKey).Nodup
  | .retire _ => True
  | .event e => e.action = .add → e.hsmDeviceName = hsmDevice.name →
      (availableCount (d.cached hsmDevice.name) : Int) < hsmDevice.maxDevices ∨
        ∃ i, findDeviceIndex (d.cached hsmDevice.name)
            (present t.env d.nodeName e.device) = some i ∧
          ∃ entry, (d.cached hsmDevice.name)[i]? = some entry ∧ entry.available = true

theorem availableCount_stored (devices : List DiscoveredDevice) :
    availableCount (devices.map DiscoveredDevice.stored) = availableCount devices := by
  unfold availableCount
  rw [List.countP_map]
  rfl

theorem Within.record {name : String} {limit : Int} {d : DiscoveryAgent}
    (h : Within name limit d) (env : Env) {other : String} {devices : List DiscoveredDevice}
    (hdevices : other = name → (availableCount devices : Int) ≤ limit) :
    Within name limit (record env d other devices) := by
  refine ⟨?_, fun r hr hname => ?_⟩
  · by_cases hother : other = name
    · subst hother
      rw [cached_record_self]
      exact hdevices rfl
    · rw [cached_record_of_ne env d other devices hother]
      exact h.cache
  · unfold Discovery.Agent.record updatePodAnnotation at hr
    split at hr
    · obtain rfl := Annotation.report.inj hr
      have hcount := hdevices hname
      rwa [← availableCount_stored] at hcount
    · exact h.report r hr hname

theorem length_discovered {env : Env} {nodeName : String} {hsmDevice : HSMDevice}
    {found : List DiscoveredDevice} (hlimit : 0 < hsmDevice.maxDevices)
    (h : discoverDevicesForSpec env nodeName hsmDevice = .ok found) :
    (found.length : Int) ≤ hsmDevice.maxDevices := by
  unfold discoverDevicesForSpec at h
  split at h
  · cases h
  split at h
  next =>
    obtain rfl := Except.ok.inj h
    rw [List.length_take]
    omega
  next hshort =>
    have hle : ¬ (hsmDevice.maxDevices < found.length) := by
      intro hlong
      refine hshort ((Bool.and_eq_true _ _).mpr ⟨decide_eq_true hlimit, decide_eq_true ?_⟩)
      rw [Except.ok.inj h]
      exact hlong
    omega

section Merge

variable (now : Nat) (existing scanned : List DiscoveredDevice)

private theorem available_mergeCached (old : DiscoveredDevice) :
    (mergeCached now (assign ∅ deviceKey id scanned) old).1.available =
      decide (deviceKey old ∈ scanned.map deviceKey) := by
  unfold mergeCached
  cases hfresh : (assign (∅ : Std.ExtTreeMap String DiscoveredDevice) deviceKey id
      scanned)[deviceKey old]? with
  | some fresh =>
    rcases of_getElem?_assign hfresh with hempty | ⟨dev, hdev, hkey, -⟩
    · simp at hempty
    · exact (decide_eq_true (List.mem_map.mpr ⟨dev, hdev, hkey⟩)).symm
  | none =>
    have habsent : deviceKey old ∉ scanned.map deviceKey := by
      intro hmem
      obtain ⟨dev, hdev, hkey⟩ := List.mem_map.mp hmem
      have hassigned : deviceKey old ∈ assign (∅ : Std.ExtTreeMap String DiscoveredDevice)
          deviceKey id scanned := mem_assign.mpr (.inr ⟨dev, hdev, hkey⟩)
      rw [Std.ExtTreeMap.mem_iff_isSome_getElem?, hfresh] at hassigned
      cases hassigned
    rw [decide_eq_false habsent]
    dsimp only
    split
    · rfl
    next hlost => exact Bool.eq_false_iff.mpr hlost

theorem availableCount_merge (hkeys : (existing.map deviceKey).Nodup) :
    availableCount (mergeScanIntoCache now existing scanned).1 ≤ scanned.length := by
  let known (dev : DiscoveredDevice) : Bool := decide (deviceKey dev ∈ existing.map deviceKey)
  let seen (old : DiscoveredDevice) : Bool := decide (deviceKey old ∈ scanned.map deviceKey)
  have hcached : availableCount ((existing.map
      (mergeCached now (assign ∅ deviceKey id scanned))).map Prod.fst) =
      (existing.filter seen).length := by
    unfold availableCount
    rw [List.countP_map, List.countP_map, ← List.countP_eq_length_filter]
    refine List.countP_congr fun old _ => ?_
    have hsame : _ = seen old := available_mergeCached now scanned old
    rw [← hsame]
    exact Iff.rfl
  -- distinct cached keys that the scan has found are keys of as many scanned devices
  have hfound : (existing.filter seen).length ≤ (scanned.filter known).length := by
    have hdistinct : ((existing.filter seen).map deviceKey).Nodup :=
      hkeys.sublist (List.filter_sublist.map deviceKey)
    have hsub : (existing.filter seen).map deviceKey ⊆ (scanned.filter known).map deviceKey := by
      intro key hkey
      obtain ⟨old, hold, rfl⟩ := List.mem_map.mp hkey
      obtain ⟨hmem, hscanned⟩ := List.mem_filter.mp hold
      obtain ⟨dev, hdev, heq⟩ := List.mem_map.mp (of_decide_eq_true hscanned)
      refine List.mem_map.mpr ⟨dev, List.mem_filter.mpr ⟨hdev, decide_eq_true ?_⟩, heq⟩
      rw [heq]
      exact List.mem_map_of_mem hmem
    simpa using hdistinct.length_le_of_subset hsub
  have hadded : availableCount ((scanned.filter fun dev =>
      deviceKey dev ∉ existing.map deviceKey).map fun dev => { dev with available := true }) ≤
      (scanned.filter fun dev => !known dev).length := by
    refine List.countP_le_length.trans (le_of_eq ?_)
    rw [List.length_map]
    congr 2
    funext dev
    exact decide_not
  have hsplit : scanned.length = _ := List.length_eq_length_filter_add known
  unfold mergeScanIntoCache
  dsimp only
  unfold availableCount at hcached hadded ⊢
  rw [List.countP_append]
  omega

end Merge

theorem availableCount_markLost (now : Nat) (devices : List DiscoveredDevice) (i : Nat) :
    availableCount (devices.modify i (markLost now)) ≤ availableCount devices := by
  unfold availableCount
  induction devices generalizing i with
  | nil => simp
  | cons device devices ih =>
    cases i with
    | zero =>
      rw [List.modify_zero_cons, List.countP_cons, List.countP_cons]
      simp [markLost]
    | succ i =>
      have hrest := ih i
      rw [List.modify_succ_cons, List.countP_cons, List.countP_cons]
      omega

theorem availableCount_plugged (devices : List DiscoveredDevice) (device : DiscoveredDevice) :
    availableCount (plugged devices device) ≤ availableCount devices + 1 ∧
      ∀ i entry, findDeviceIndex devices device = some i → devices[i]? = some entry →
        entry.available = true →
          availableCount (plugged devices device) ≤ availableCount devices := by
  unfold plugged availableCount
  cases hfind : findDeviceIndex devices device with
  | none =>
    refine ⟨?_, fun i entry h => by cases h⟩
    dsimp only
    rw [List.countP_append, List.countP_singleton]
    split <;> omega
  | some i =>
    dsimp only
    by_cases hi : i < devices.length
    · rw [List.countP_set hi]
      refine ⟨by split <;> split <;> omega, fun j entry hj hentry havailable => ?_⟩
      obtain rfl := Option.some.inj hj
      have hpos : 0 < devices.countP fun device => device.available := by
        refine List.countP_pos_iff.mpr ⟨entry, List.mem_of_getElem? hentry, havailable⟩
      rw [List.getElem?_eq_getElem hi] at hentry
      rw [Option.some.inj hentry, if_pos havailable]
      split <;> omega
    · rw [List.set_eq_of_length_le (by omega)]
      exact ⟨by omega, fun _ _ _ _ _ => le_rfl⟩

theorem within_turn {hsmDevice : HSMDevice} (hlimit : 0 < hsmDevice.maxDevices)
    {d : DiscoveryAgent} {t : Turn} (h : Within hsmDevice.name hsmDevice.maxDevices d)
    (hroom : HasRoom hsmDevice d t) :
    Within hsmDevice.name hsmDevice.maxDevices (turn d t) := by
  have hle := h.cache
  unfold HasRoom at hroom
  have hrecords := records_turn d t
  generalize turn d t = d' at hrecords ⊢
  cases hrecords with
  | idle => exact h
  | @initial other found hwork hfound =>
    rw [hwork] at hroom
    refine h.record t.env fun hname => ?_
    have hsame := hroom hname
    have hlength := length_discovered (hsame ▸ hlimit) hfound
    have hcount : availableCount found ≤ found.length := List.countP_le_length
    omega
  | @periodic other scanned hwork hscanned =>
    rw [hwork] at hroom
    refine h.record t.env fun hname => ?_
    obtain ⟨hsame, hkeys⟩ := hroom hname
    have hlength := length_discovered (hsame ▸ hlimit) hscanned
    rw [← hname] at hkeys
    have hcount := availableCount_merge t.env.now (d.cached other.name) scanned hkeys
    omega
  | retire hwork =>
    refine h.record t.env fun hname => ?_
    subst hname
    have hcount : availableCount ((d.cached hsmDevice.name).filter fun device =>
        !isStale t.env.now device) ≤ availableCount (d.cached hsmDevice.name) :=
      List.filter_sublist.countP_le
    omega
  | @add e hwork haction =>
    rw [hwork] at hroom
    refine h.record t.env fun hname => ?_
    obtain ⟨hone, hnone⟩ := availableCount_plugged (d.cached e.hsmDeviceName)
      (present t.env d.nodeName e.device)
    rcases hroom haction hname with hroom | ⟨i, hi, entry, hentry, havailable⟩
    · rw [← hname] at hroom hle
      omega
    · rw [← hname] at hi hentry hle
      have hcount := hnone i entry hi hentry havailable
      omega
  | @remove e i hwork haction hi =>
    refine h.record t.env fun hname => ?_
    have hcount := availableCount_markLost t.env.now (d.cached e.hsmDeviceName) i
    rw [← hname] at hle
    omega

/-- The limit holds throughout every run in which each add event finds room, and each periodic scan
a cache without two entries of one key. -/
theorem within_limit_of_room (nodeName : String) (hsmDevice : HSMDevice)
    (hlimit : 0 < hsmDevice.maxDevices) (turns : List Turn)
    (hroom : Along turn (HasRoom hsmDevice) { nodeName } turns) :
    Within hsmDevice.name hsmDevice.maxDevices (run turn { nodeName } turns) := by
  refine Along.run_invariant (fun d t h ht => within_turn hlimit h ht) ⟨?_, ?_⟩ hroom
  · have hempty : DiscoveryAgent.cached { nodeName } hsmDevice.name = [] := by
      simp [DiscoveryAgent.cached]
    rw [hempty]
    exact hlimit.le
  · intro r hr
    cases hr

private def pico : HSMDevice where
  name := "pico"
  maxDevices := 1

private def scan (now : Nat) (usb : List USBDevice) : Env where
  now
  usb := fun _ => .ok usb

private def first : USBDevice := ⟨"/dev/bus/usb/001/004", "DC6A"⟩

private def second : USBDevice := ⟨"/dev/bus/usb/001/007", "9F21"⟩

private def exchanged : List Turn :=
  [⟨scan 10 [first], .initial pico⟩,
   ⟨scan 20 [], .event ⟨.remove, first, "pico"⟩⟩,
   ⟨scan 30 [], .event ⟨.add, second, "pico"⟩⟩,
   ⟨scan 40 [second], .periodic pico⟩]

theorem within_limit_exchanged :
    Along turn (HasRoom pico) { nodeName := "n1" } exchanged ∧
      Within "pico" 1 (run turn { nodeName := "n1" } exchanged) := by
  have hroom : Along turn (HasRoom pico) { nodeName := "n1" } exchanged := by
    refine ⟨?_, ?_, ?_, ?_, trivial⟩
    · exact fun _ => rfl
    · intro h
      cases h
    · intro _ _
      left
      decide +kernel
    · intro _
      refine ⟨rfl, ?_⟩
      decide +kernel
  exact ⟨hroom, within_limit_of_room "n1" pico (by decide) exchanged hroom⟩

/-- The second device is plugged in beside the first. -/
theorem add_event_exceeds_limit :
    ¬ Within "pico" 1 (run turn { nodeName := "n1" }
      [⟨scan 10 [first], .initial pico⟩, ⟨scan 20 [], .event ⟨.add, second, "pico"⟩⟩]) := by
  intro h
  have hcount := h.cache
  revert hcount
  decide +kernel

end HsmSecretsOperator.System.DeviceLimit
