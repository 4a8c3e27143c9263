/- source: internal/modes/discovery/discovery.go, internal/discovery/usb.go
   digest: Which cached devices a USB event changes beside its own. -/

import HsmSecretsOperator.Discovery.Index

set_option autoImplicit false

namespace HsmSecretsOperator.Discovery.Displacement

open Discovery.Agent
open Discovery.Events (Action USBEvent Turn markLost plugged)
open Discovery.Index Foundation.Runs Report

def isSameDevice (device1 device2 : DiscoveredDevice) : Bool :=
  if device1.serialNumber ≠ "" && device2.serialNumber ≠ "" then
    device1.serialNumber = device2.serialNumber
  else if device1.devicePath ≠ "" && device2.devicePath ≠ "" then
    device1.devicePath = device2.devicePath
  else false

theorem isSameDevice_iff {a b : DiscoveredDevice} (ha : a.serialNumber ≠ "")
    (hb : b.serialNumber ≠ "") :
    (isSameDevice a b = true ↔ a.serialNumber = b.serialNumber) ∧
      (deviceKey a = deviceKey b ↔ a.serialNumber = b.serialNumber) := by
  refine ⟨by simp [isSameDevice, ha, hb], serialNumber_eq_of_deviceKey, ?_⟩
  exact deviceKey_eq_of_serialNumber ha

/-- Every entry that is for another device stays as it is and where it is. -/
def KeepsOthers (device : DiscoveredDevice) (before after : List DiscoveredDevice) : Prop :=
  ∀ (i : Nat) (entry : DiscoveredDevice), before[i]? = some entry → entry.serialNumber ≠ "" →
    isSameDevice entry device = false → after[i]? = some entry

def lastAt (devices : List DiscoveredDevice) (path : String) : Option DiscoveredDevice :=
  devices.reverse.find? fun c => c.devicePath = path

/-- The entry of another device is taken for the device. -/
def Displaces (devices : List DiscoveredDevice) (device entry : DiscoveredDevice) : Prop :=
  (∀ c ∈ devices, c.serialNumber ≠ device.serialNumber) ∧ device.devicePath ≠ "" ∧
    lastAt devices device.devicePath = some entry ∧ entry.serialNumber ≠ ""

theorem lastAt_eq {devices : List DiscoveredDevice} {path : String} {i : Nat}
    {entry : DiscoveredDevice} (hentry : devices[i]? = some entry) (hpath : entry.devicePath = path)
    (hlast : ∀ j c, i < j → devices[j]? = some c → c.devicePath ≠ path) :
    lastAt devices path = some entry := by
  have hsplit : devices = devices.take i ++ entry :: devices.drop (i + 1) := by
    obtain ⟨hlt, rfl⟩ := List.getElem?_eq_some_iff.mp hentry
    rw [List.getElem_cons_drop, List.take_append_drop]
  have hrest : (devices.drop (i + 1)).reverse.find? (fun c => c.devicePath = path) = none := by
    refine List.find?_eq_none.mpr fun c hc => ?_
    obtain ⟨j, hj⟩ := List.mem_iff_getElem?.mp (List.mem_reverse.mp hc)
    rw [List.getElem?_drop] at hj
    simpa using hlast (i + 1 + j) c (by omega) hj
  rw [lastAt, hsplit, List.reverse_append, List.reverse_cons, List.append_assoc, List.find?_append,
    hrest, Option.none_or, List.singleton_append, List.find?_cons_of_pos]
  exact decide_eq_true hpath

theorem lastAt_eq_none {devices : List DiscoveredDevice} {path : String}
    (h : ∀ c ∈ devices, c.devicePath ≠ path) : lastAt devices path = none := by
  refine List.find?_eq_none.mpr fun c hc => ?_
  simpa using h c (List.mem_reverse.mp hc)

section Lists

variable {devices after : List DiscoveredDevice} {device : DiscoveredDevice}

private theorem keepsOthers_iff_at {i : Nat} {entry new : DiscoveredDevice}
    (hentry : devices[i]? = some entry) (hnew : after[i]? = some new)
    (hrest : ∀ j, j ≠ i → after[j]? = devices[j]?) : KeepsOthers device devices after ↔
      (entry.serialNumber ≠ "" → isSameDevice entry device = false → new = entry) := by
  constructor
  · intro h hserial hother
    have hkept := h i entry hentry hserial hother
    rw [hnew] at hkept
    exact Option.some.inj hkept
  · intro h j c hc hserial hother
    by_cases hj : j = i
    · subst hj
      obtain rfl := Option.some.inj (hentry.symm.trans hc)
      rw [hnew, h hserial hother]
    · rw [hrest j hj, hc]

private theorem isSameDevice_of_displaces {entry : DiscoveredDevice}
    (hserial : device.serialNumber ≠ "") (h : Displaces devices device entry)
    (hentry : entry ∈ devices) : isSameDevice entry device = false := by
  have hne := h.1 entry hentry
  cases hsame : isSameDevice entry device with
  | false => rfl
  | true => exact absurd ((isSameDevice_iff h.2.2.2 hserial).1.mp hsame) hne

private theorem keepsOthers_found_iff (change : DiscoveredDevice → DiscoveredDevice) {i : Nat}
    (hserial : device.serialNumber ≠ "") (hfound : Found devices device (some i))
    (hafter : ∀ j, after[j]? = if i = j then devices[j]?.map change else devices[j]?) :
    KeepsOthers device devices after ↔
      ∀ entry, Displaces devices device entry → change entry = entry := by
  have hrest : ∀ j, j ≠ i → after[j]? = devices[j]? := fun j hj => by
    rw [hafter j, if_neg (Ne.symm hj)]
  cases hfound with
  | serial _ hentry heq =>
    have hnew := hafter i
    rw [if_pos rfl, hentry, Option.map_some] at hnew
    rw [keepsOthers_iff_at hentry hnew hrest]
    constructor
    · exact fun _ entry h => absurd heq (h.1 _ (List.mem_of_getElem? hentry))
    · intro _ hne hother
      rw [(isSameDevice_iff hne hserial).1.mpr heq] at hother
      cases hother
  | path hnone hpath hentry heq hlast =>
    have hnew := hafter i
    rw [if_pos rfl, hentry, Option.map_some] at hnew
    have hat := lastAt_eq hentry heq hlast
    have hmem := List.mem_of_getElem? hentry
    rw [keepsOthers_iff_at hentry hnew hrest]
    constructor
    · intro h entry hdisplaced
      obtain rfl := Option.some.inj (hat.symm.trans hdisplaced.2.2.1)
      exact h hdisplaced.2.2.2 (isSameDevice_of_displaces hserial hdisplaced hmem)
    · exact fun h hne _ => h _ ⟨hnone hserial, hpath, hat, hne⟩

private theorem not_displaces_of_absent (hfound : Found devices device none)
    (entry : DiscoveredDevice) : ¬ Displaces devices device entry := by
  rintro ⟨_, hpath, hat, _⟩
  cases hfound with
  | absent _ hnone =>
    rw [lastAt_eq_none (hnone hpath)] at hat
    cases hat

theorem keepsOthers_plugged_iff (hserial : device.serialNumber ≠ "") :
    KeepsOthers device devices (plugged devices device) ↔
      ∀ entry, ¬ Displaces devices device entry := by
  have hfound := found_findDeviceIndex devices device
  unfold plugged
  generalize Events.findDeviceIndex devices device = place at hfound ⊢
  cases place with
  | none =>
    refine iff_of_true ?_ (not_displaces_of_absent hfound)
    intro i entry hentry _ _
    rw [List.getElem?_append_left (List.getElem?_eq_some_iff.mp hentry).1, hentry]
  | some i =>
    refine (keepsOthers_found_iff (fun _ => { device with available := true }) hserial hfound
      fun j => ?_).trans (forall_congr' fun entry => imp_congr_right fun h => ?_)
    · rw [List.getElem?_set]
      split
      next hij =>
        subst hij
        split
        next hlt => rw [List.getElem?_eq_getElem hlt, Option.map_some]
        next hge => rw [List.getElem?_eq_none (not_lt.mp hge), Option.map_none]
      next => rfl
    · -- the entry that is written has the serial number of the device, which is not cached
      have hmem : entry ∈ devices := List.mem_reverse.mp (List.mem_of_find?_eq_some h.2.2.1)
      refine iff_of_false (fun heq => h.1 entry hmem ?_) id
      rw [← heq]

theorem keepsOthers_markLost_iff (hserial : device.serialNumber ≠ "") (now : Nat) {i : Nat}
    (hi : Events.findDeviceIndex devices device = some i) :
    KeepsOthers device devices (devices.modify i (markLost now)) ↔
      ∀ entry, Displaces devices device entry → markLost now entry = entry := by
  have hfound := found_findDeviceIndex devices device
  rw [hi] at hfound
  refine keepsOthers_found_iff (markLost now) hserial hfound fun j => ?_
  rw [List.getElem?_modify]
  cases devices[j]? with
  | none => simp
  | some c =>
    simp only [Option.map_some, Option.map_eq_map]
    split <;> rfl

end Lists

private theorem forall_keepsOthers_record_iff (env : Env) (d : DiscoveryAgent) (own : String)
    (devices : List DiscoveredDevice) (device : DiscoveredDevice) :
    (∀ name, KeepsOthers device (d.cached name) ((Agent.record env d own devices).cached name)) ↔
      KeepsOthers device (d.cached own) devices := by
  constructor
  · intro h
    simpa only [cached_record_self] using h own
  · intro h name
    by_cases hname : own = name
    · subst hname
      rwa [cached_record_self]
    · rw [cached_record_of_ne env d own devices hname]
      exact fun _ _ hentry _ _ => hentry

private theorem keepsOthers_remove_iff (env : Env) (d : DiscoveryAgent) (event : USBEvent)
    (hserial : event.device.serialNumber ≠ "") :
    (∀ name, KeepsOthers (present env d.nodeName event.device) (d.cached name)
        ((Events.handleDeviceRemove env d event).cached name)) ↔
      ∀ entry,
        Displaces (d.cached event.hsmDeviceName) (present env d.nodeName event.device) entry →
          markLost env.now entry = entry := by
  have hsame : ∀ name, KeepsOthers (present env d.nodeName event.device) (d.cached name)
      (d.cached name) := fun _ _ _ hentry _ _ => hentry
  unfold Events.handleDeviceRemove
  have hcached : d.cached event.hsmDeviceName = d.deviceCache[event.hsmDeviceName]?.getD [] :=
    Std.ExtTreeMap.getD_eq_getD_getElem?
  cases hcurrent : d.deviceCache[event.hsmDeviceName]? with
  | none =>
    refine iff_of_true hsame fun entry h => ?_
    rw [hcached, hcurrent] at h
    exact absurd h.2.2.1 (by simp [lastAt])
  | some currentDevices =>
    rw [hcurrent, Option.getD_some] at hcached
    subst hcached
    dsimp only
    have hfound := found_findDeviceIndex (d.cached event.hsmDeviceName)
      (present env d.nodeName event.device)
    cases hi : Events.findDeviceIndex (d.cached event.hsmDeviceName)
        (present env d.nodeName event.device) with
    | none =>
      rw [hi] at hfound
      exact iff_of_true hsame fun entry h => absurd h (not_displaces_of_absent hfound entry)
    | some i =>
      exact (forall_keepsOthers_record_iff env d _ _ _).trans
        (keepsOthers_markLost_iff hserial env.now hi)

/-- In every reachable cache an event for a device with a serial number leaves the entries of all
other devices as they are, exactly if the device is cached by its number or the last entry at its
path has no number; or it is pulled out and that entry was already lost at the same time. -/
theorem event_keepsOthers_iff (nodeName : String) (turns : List Turn) (env : Env)
    (event : USBEvent) (haction : event.action = .add ∨ event.action = .remove)
    (hserial : event.device.serialNumber ≠ "") :
    let d := run turn (start nodeName) turns
    let device := present env d.nodeName event.device
    (∀ name, KeepsOthers device (d.cached name) ((handleUSBEvent env d event).cached name)) ↔
      ∀ entry, Displaces (d.cached event.hsmDeviceName) device entry →
        event.action = .remove ∧ markLost env.now entry = entry := by
  intro d device
  obtain ⟨hrefines, _⟩ := turn_refines (indexed_run nodeName turns) ⟨env, .event event⟩
  have hevent : (handleUSBEvent env d event).toDiscoveryAgent =
      Events.handleUSBEvent env d.toDiscoveryAgent event := hrefines
  rw [hevent, Events.handleUSBEvent]
  rcases haction with haction | haction
  · rw [haction]
    dsimp only
    rw [Events.handleDeviceAdd]
    refine (forall_keepsOthers_record_iff env d.toDiscoveryAgent _ _ device).trans ?_
    refine (keepsOthers_plugged_iff hserial).trans (forall_congr' fun entry => ?_)
    exact imp_congr_right fun _ => iff_of_false id fun h => nomatch h.1
  · rw [haction]
    dsimp only
    refine (keepsOthers_remove_iff env d.toDiscoveryAgent event hserial).trans ?_
    exact forall_congr' fun entry => imp_congr_right fun _ => (and_iff_right rfl).symm

section Replug

private def quiet (now : Nat) : Env := { now, usb := fun _ => .ok [] }

private def port : String := "/dev/bus/usb/001/004"

private def replug : List Turn :=
  [⟨quiet 10, .event ⟨.add, ⟨port, "T"⟩, "pico"⟩⟩,
   ⟨quiet 20, .event ⟨.remove, ⟨port, "T"⟩, "pico"⟩⟩]

/-- At another port the second device leaves the entry of the first alone. -/
theorem event_spares_other :
    let d := run turn (start "node-a") replug
    let event : USBEvent := ⟨.add, ⟨"/dev/bus/usb/001/005", "S"⟩, "pico"⟩
    ∀ name, KeepsOthers (present (quiet 30) d.nodeName event.device) (d.cached name)
      ((handleUSBEvent (quiet 30) d event).cached name) := by
  intro d event
  refine (event_keepsOthers_iff "node-a" replug (quiet 30) event (.inl rfl) (by decide)).mpr ?_
  intro entry h
  have hnone : lastAt (d.cached "pico") "/dev/bus/usb/001/005" = none := by decide
  exact nomatch hnone.symm.trans h.2.2.1

/-- Where a device was pulled out another one is plugged in: the entry of the first is gone, though
the two are not the same device. -/
theorem event_displaces_other :
    let d := run turn (start "node-a") replug
    let device := present (quiet 30) "node-a" ⟨port, "S"⟩
    let after := handleUSBEvent (quiet 30) d ⟨.add, ⟨port, "S"⟩, "pico"⟩
    (d.cached "pico").map (fun c => (c.serialNumber, isSameDevice c device)) = [("T", false)] ∧
      (after.cached "pico").map (·.serialNumber) = ["S"] ∧
      ¬ KeepsOthers device (d.cached "pico") (after.cached "pico") := by
  intro d device after
  have hbefore : (d.cached "pico").map (fun c => (c.serialNumber, isSameDevice c device)) =
      [("T", false)] := by decide
  have hafter : (after.cached "pico").map (·.serialNumber) = ["S"] := by decide
  refine ⟨hbefore, hafter, fun h => ?_⟩
  obtain ⟨c, hc, hpair⟩ := List.mem_map.mp (hbefore ▸ List.mem_cons_self :
    ("T", false) ∈ (d.cached "pico").map fun c => (c.serialNumber, isSameDevice c device))
  obtain ⟨i, hi⟩ := List.mem_iff_getElem?.mp hc
  obtain ⟨hserial, hother⟩ := Prod.mk.inj hpair
  have hkept := h i c hi (by rw [hserial]; decide) hother
  have hmem := List.mem_map_of_mem (f := (·.serialNumber)) (List.mem_of_getElem? hkept)
  rw [hafter, hserial] at hmem
  exact absurd hmem (by decide)

end Replug

end HsmSecretsOperator.Discovery.Displacement
