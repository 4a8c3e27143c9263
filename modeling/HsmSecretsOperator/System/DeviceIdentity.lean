/- source: internal/controller/hsmpool_controller.go, internal/controller/hsmsecret_controller.go,
     internal/agent/manager.go
   digest: How often a device that several pods report is counted, from its reports to the vote. -/

import HsmSecretsOperator.Controller.HsmSecret
import HsmSecretsOperator.Hsm.Vault
import HsmSecretsOperator.Pool.Aggregation

set_option autoImplicit false

namespace HsmSecretsOperator.System.DeviceIdentity

open Api.Proxy (Cluster)
open Controller.HsmSecret Discovery.Report Hsm.Secret
open Pool.Aggregation hiding reconcile
open Reconcile.Resolve (DeviceObservation votersOf)

structure Aggregation where
  env : Env
  pool : HSMPool

def Aggregation.status (a : Aggregation) : HSMPoolStatus := nextStatus a.env a.pool

/-- The devices that the pods of the pool report. -/
def Aggregation.reported (a : Aggregation) : List DiscoveredDevice :=
  Pool.Aggregation.reported a.env a.pool

def serials (devices : List DiscoveredDevice) : List String := devices.map (·.serialNumber)

/-- The device list of the HSMSecret controller. -/
def deviceList (pools : List Aggregation) : List DiscoveredDevice :=
  (getAvailableDevices (pools.map Aggregation.status)).toOption.getD []

/-- Every pool counts distinct serial numbers, and no serial number counts twice in a resolution,
whatever the devices hold and whichever calls fail. -/
structure CountedOnce {σ : Type} (c : Client σ) (pools : List Aggregation) : Prop where
  total : ∀ a ∈ pools, a.status.totalDevices = (serials a.reported).dedup.length
  expected : ∀ serial, (serials (deviceList pools)).count serial ≤ 1
  votes : ∀ (cl : Cluster σ) (secretName : String) (devices : List Device),
    devices.map (·.serialNumber) = serials (deviceList pools) → ∀ serial,
      (votersOf (gatherSecretObservations c cl secretName devices).observations).countP
        (fun o => o.deviceID = serial) ≤ 1

theorem deviceList_eq (pools : List Aggregation) : deviceList pools =
    (pools.filter fun a => a.status.phase = .ready).flatMap Aggregation.reported := by
  have hready : ((pools.map Aggregation.status).filter fun s => s.phase = .ready).flatMap
      HSMPoolStatus.aggregatedDevices =
        (pools.filter fun a => a.status.phase = .ready).flatMap Aggregation.reported := by
    rw [List.filter_map, List.flatMap_map]
    refine congrArg (fun f => List.flatMap f _) (funext fun a => ?_)
    exact aggregatedDevices_nextStatus a.env a.pool
  unfold deviceList getAvailableDevices
  dsimp only
  rw [hready]
  split
  next hempty => exact (List.isEmpty_iff.mp hempty).symm
  next => rfl

theorem nodup_iff_length_dedup (xs : List String) : xs.length = xs.dedup.length ↔ xs.Nodup := by
  constructor
  · intro h
    rw [← (List.dedup_sublist xs).eq_of_length h.symm]
    exact List.nodup_dedup xs
  · intro h
    rw [h.dedup]

section Votes

variable {σ : Type} (c : Client σ) (cl : Cluster σ) (secretName : String)

private theorem deviceID_of_observation {device : Device} {o : DeviceObservation}
    (h : observation c cl secretName device = some o) : o.deviceID = device.serialNumber := by
  unfold observation at h
  split at h
  · cases h
  split at h
  · rw [← Option.some.inj h]
  · obtain ⟨r, _, rfl⟩ := Option.map_eq_some_iff.mp h
    rfl

theorem observations_sublist (devices : List Device) :
    ((gatherSecretObservations c cl secretName devices).observations.map (·.deviceID)).Sublist
      (devices.map (·.serialNumber)) := by
  rw [gatherSecretObservations_observations]
  induction devices with
  | nil => exact .slnil
  | cons device devices ih =>
    rw [List.filterMap_cons]
    cases hobs : observation c cl secretName device with
    | none => exact ih.cons _
    | some o =>
      rw [List.map_cons, List.map_cons, deviceID_of_observation c cl secretName hobs]
      exact ih.cons_cons _

theorem votes_le_count (devices : List Device) (serial : String) :
    (votersOf (gatherSecretObservations c cl secretName devices).observations).countP
      (fun o => o.deviceID = serial) ≤ (devices.map (·.serialNumber)).count serial := by
  have hcount (obs : List DeviceObservation) :
      obs.countP (fun o => o.deviceID = serial) = (obs.map (·.deviceID)).count serial := by
    rw [List.count_eq_countP, List.countP_map]
    refine List.countP_congr fun o _ => ?_
    simp
  have hvoters (obs : List DeviceObservation) :
      ((votersOf obs).map (·.deviceID)).Sublist (obs.map (·.deviceID)) :=
    List.filter_sublist.map _
  rw [hcount]
  exact ((hvoters _).trans (observations_sublist c cl secretName devices)).count_le serial

end Votes

/-- Every device counts once exactly if no serial number is reported twice to one pool, or twice to
the Ready pools together. -/
theorem counted_once_iff {σ : Type} (c : Client σ) (pools : List Aggregation) :
    CountedOnce c pools ↔ (∀ a ∈ pools, (serials a.reported).Nodup) ∧
      (serials ((pools.filter fun a => a.status.phase = .ready).flatMap
        Aggregation.reported)).Nodup := by
  have htotal (a : Aggregation) :
      a.status.totalDevices = (serials a.reported).dedup.length ↔ (serials a.reported).Nodup := by
    rw [← nodup_iff_length_dedup, serials, List.length_map, Aggregation.status,
      totalDevices_nextStatus, aggregatedDevices_nextStatus]
    rfl
  rw [← deviceList_eq]
  constructor
  · intro h
    exact ⟨fun a ha => (htotal a).mp (h.total a ha), List.nodup_iff_count_le_one.mpr h.expected⟩
  · rintro ⟨hpools, hlist⟩
    have hcount := List.nodup_iff_count_le_one.mp hlist
    refine ⟨fun a ha => (htotal a).mpr (hpools a ha), hcount, ?_⟩
    intro cl secretName devices hdevices serial
    have hvotes := votes_le_count c cl secretName devices serial
    rw [hdevices] at hvotes
    exact hvotes.trans (hcount serial)

private def entry (node : String) (available : Bool) : DiscoveredDevice :=
  { devicePath := "/dev/bus/usb/001/004", serialNumber := "DC6A", nodeName := node
    lastSeen := 60 * minute, available }

private def podOn (node : String) (available : Bool) : DiscoveryPod :=
  { name := "pico-discovery-" ++ node, nodeName := node, phase := .running
    deviceReport := .report
      { hsmDeviceName := "pico", reportingNode := node, discoveredDevices := [entry node available]
        lastReportTime := 60 * minute, discoveryStatus := "completed" } }

private def moved : Aggregation where
  pool := { ownerReferences := ["pico"] }
  env := { now := 61 * minute
           daemonSets := fun _ => some ⟨2, .ok [podOn "n1" false, podOn "n2" true]⟩ }

theorem moved_device_counts_twice : ¬ CountedOnce Hsm.Vault.client [moved] := by
  intro h
  have htotal := h.total moved List.mem_cons_self
  revert htotal
  decide +kernel

end HsmSecretsOperator.System.DeviceIdentity
