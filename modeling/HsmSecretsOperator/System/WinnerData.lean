/- source: internal/controller/hsmsecret_controller.go, internal/api/proxy_client.go,
     internal/reconcile/resolve.go
   digest: The data of the winning device is among what the controller and the proxy have read. -/

import HsmSecretsOperator.Controller.HsmSecret

set_option autoImplicit false

namespace HsmSecretsOperator.System.WinnerData

open Api.Proxy Controller.HsmSecret Foundation.Maps Foundation.Text Hsm.Secret Reconcile.Resolve

/-- The map of the proxy from devices to the data they answered with. -/
def dataByDevice (results : List SecretResult) : Std.ExtTreeMap String SecretData :=
  assign ∅ SecretResult.deviceName SecretResult.data results

/-- The device has a live copy with the checksum. -/
structure Holds (o : DeviceObservation) (deviceID checksum : String) : Prop where
  opinion : o.hasOpinion = true
  device : o.deviceID = deviceID
  checksum : o.checksum = checksum

theorem holds_of_live {obs : List DeviceObservation} {n : Nat}
    (hfound : (resolve obs n).found = true) (hlive : (resolve obs n).deleted = false) :
    ∃ o ∈ obs, Holds o (resolve obs n).winningDeviceID (resolve obs n).winningChecksum := by
  have hvoters := (resolve_found_iff obs n).mp hfound
  obtain ⟨o, ho, hdevice, hchecksum⟩ := resolve_winner_holds hvoters n
  obtain ⟨hmem, hopinion⟩ := List.mem_filter.mp ho
  have hcopy : o.tombstone = false := by
    rw [Bool.eq_false_iff]
    intro htombstone
    have hdeleted : (resolve obs n).winningChecksum = tombstoneChecksum := by
      rw [← hchecksum, DeviceObservation.effectiveChecksum, if_pos htombstone]
    rw [(resolve_deleted_iff hvoters n).mpr hdeleted] at hlive
    cases hlive
  refine ⟨o, hmem, hopinion, hdevice, ?_⟩
  rw [← hchecksum, DeviceObservation.effectiveChecksum, if_neg (by rw [hcopy]; decide)]

section Controller

variable {σ : Type} {c : Client σ} {cl : Cluster σ} {secretName : String}

theorem captured_of_opinion {device : Device} {o : DeviceObservation}
    (h : observation c cl secretName device = some o) (hopinion : o.hasOpinion = true) :
    ∃ r, captured c cl secretName device = some r ∧ o = r.observation device.serialNumber := by
  unfold observation at h
  unfold captured
  split at h
  · cases h
  next hreached =>
    rw [if_neg hreached]
    split at h
    next =>
      -- A device without the secret abstains.
      obtain rfl := Option.some.inj h
      cases hopinion
    next hlisted =>
      rw [if_neg hlisted]
      obtain ⟨r, hr, rfl⟩ := Option.map_eq_some_iff.mp h
      exact ⟨r, hr, rfl⟩

theorem getElem?_reads {devices : List Device} (hdistinct : (devices.map (·.serialNumber)).Nodup)
    {device : Device} (hdevice : device ∈ devices) {r : DeviceRead}
    (h : captured c cl secretName device = some r) :
    (gatherSecretObservations c cl secretName devices).reads[device.serialNumber]? = some r := by
  rw [gatherSecretObservations_reads]
  have hentry : (device.serialNumber, r) ∈ devices.filterMap fun device =>
      (captured c cl secretName device).map fun r => (device.serialNumber, r) :=
    List.mem_filterMap.mpr ⟨device, hdevice, by rw [h]; rfl⟩
  refine getElem?_assign_of_mem ∅ Prod.fst Prod.snd hentry fun e he hserial => ?_
  obtain ⟨other, hother, he⟩ := List.mem_filterMap.mp he
  obtain ⟨r', hr', rfl⟩ := Option.map_eq_some_iff.mp he
  obtain rfl : other = device := List.inj_on_of_nodup_map hdistinct hother hdevice hserial
  rw [h] at hr'
  exact (Option.some.inj hr').symm

theorem reads_of_live {devices : List Device} (hdistinct : (devices.map (·.serialNumber)).Nodup)
    (hfound : (decision c cl secretName devices).found = true)
    (hlive : (decision c cl secretName devices).deleted = false) :
    ∃ r, (gatherSecretObservations c cl secretName devices).reads[
        (decision c cl secretName devices).winningDeviceID]? = some r ∧
      calculateChecksum r.data = (decision c cl secretName devices).winningChecksum := by
  obtain ⟨o, ho, hholds⟩ := holds_of_live hfound hlive
  rw [gatherSecretObservations_observations] at ho
  obtain ⟨device, hdevice, ho⟩ := List.mem_filterMap.mp ho
  obtain ⟨r, hr, rfl⟩ := captured_of_opinion ho hholds.opinion
  have hserial : device.serialNumber = (decision c cl secretName devices).winningDeviceID :=
    hholds.device
  refine ⟨r, ?_, hholds.checksum⟩
  rw [← hserial]
  exact getElem?_reads hdistinct hdevice hr

theorem reconcile_ne_winnerNotCaptured {devices : List Device}
    (hdistinct : (devices.map (·.serialNumber)).Nodup) :
    reconcile c cl secretName devices ≠ .winnerNotCaptured := by
  unfold reconcile
  split
  · rintro ⟨⟩
  dsimp only
  split
  · rintro ⟨⟩
  next hverdict =>
    simp only [Bool.or_eq_true, Bool.not_eq_true', not_or, Bool.not_eq_false,
      Bool.not_eq_true] at hverdict
    obtain ⟨r, hr, -⟩ := reads_of_live hdistinct hverdict.1 hverdict.2
    rw [hr]
    rintro ⟨⟩

end Controller

theorem dataByDevice_of_live {results : List SecretResult} {n : Nat}
    (hdistinct : (results.map SecretResult.deviceName).Nodup)
    (hfound : (readVerdict results n).found = true)
    (hlive : (readVerdict results n).deleted = false) :
    ∃ data, (dataByDevice results)[(readVerdict results n).winningDeviceID]? = some data ∧
      calculateChecksum data = (readVerdict results n).winningChecksum ∧
      findMostRecentSecretResult results n = .ok data := by
  obtain ⟨o, ho, hholds⟩ := holds_of_live hfound hlive
  obtain ⟨r, hr, rfl⟩ := List.mem_map.mp ho
  have hdevice : r.deviceName = (readVerdict results n).winningDeviceID := hholds.device
  have hget : (dataByDevice results)[(readVerdict results n).winningDeviceID]? = some r.data := by
    rw [← hdevice]
    refine getElem?_assign_of_mem ∅ _ _ hr fun r' hr' hsame => ?_
    rw [List.inj_on_of_nodup_map hdistinct hr' hr hsame]
  refine ⟨r.data, hget, hholds.checksum, ?_⟩
  have hempty := List.isEmpty_eq_false_iff.mpr (readVerdict_found_iff.mp hfound)
  rw [dataByDevice] at hget
  simp only [findMostRecentSecretResult, hempty, hfound, hlive, Bool.not_true, Bool.or_false,
    Bool.false_eq_true, if_false, Std.ExtTreeMap.getD_eq_getD_getElem?, hget, Option.getD_some]

/-- Whatever fails and whatever the devices hold: a verdict that is not a deletion names a device
whose data is at hand in the controller and in the proxy, with the winning checksum, and the
controller never lacks the data of the winner. -/
theorem winner_data_at_hand {σ : Type} (c : Client σ) (cl : Cluster σ) (secretName : String)
    (devices : List Device) (hdistinct : (devices.map (·.serialNumber)).Nodup) :
    ((decision c cl secretName devices).found = true →
      (decision c cl secretName devices).deleted = false →
        ∃ r, (gatherSecretObservations c cl secretName devices).reads[
            (decision c cl secretName devices).winningDeviceID]? = some r ∧
          calculateChecksum r.data = (decision c cl secretName devices).winningChecksum) ∧
      reconcile c cl secretName devices ≠ .winnerNotCaptured ∧
      ∀ (connects : String → Bool) (faults : ReadFaults) (arrivals : List String) (n : Nat),
        arrivals.Perm (availableClients connects (devices.map (·.serialNumber))) →
          let results := collectResults c faults cl secretName arrivals
          (readVerdict results n).found = true → (readVerdict results n).deleted = false →
            ∃ data, (dataByDevice results)[(readVerdict results n).winningDeviceID]? = some data ∧
              calculateChecksum data = (readVerdict results n).winningChecksum ∧
              findMostRecentSecretResult results n = .ok data := by
  refine ⟨reads_of_live hdistinct, reconcile_ne_winnerNotCaptured hdistinct, ?_⟩
  intro connects faults arrivals n harrivals results hfound hlive
  have hnodup : arrivals.Nodup := harrivals.nodup_iff.mpr (List.nodup_dedup _)
  exact dataByDevice_of_live (nodup_collectResults c faults cl secretName hnodup) hfound hlive

private def drawer : Client (Option SecretData) where
  readSecret s _ :=
    match s with
    | some data => .ok data
    | none => .error "secret not found"
  readMetadata _ _ := .error "metadata not found"
  writeSecret _ _ data _ := some data
  deleteSecret _ _ := none
  listSecrets s _ := if s.isSome then ["db"] else []

private def drawers : Cluster (Option SecretData) := fun d =>
  if d = "DC6A" then some (assign ∅ Prod.fst Prod.snd [("password", utf8 "hunter2")]) else none

private def pair : List Device := [{ serialNumber := "DC6B" }, { serialNumber := "DC6A" }]

theorem winner_data_of_pair :
    (pair.map (·.serialNumber)).Nodup ∧ (decision drawer drawers "db" pair).found = true ∧
      ∃ r, (gatherSecretObservations drawer drawers "db" pair).reads[
          (decision drawer drawers "db" pair).winningDeviceID]? = some r ∧
        calculateChecksum r.data = (decision drawer drawers "db" pair).winningChecksum := by
  have hdistinct : (pair.map (·.serialNumber)).Nodup := by decide
  have hfound : (decision drawer drawers "db" pair).found = true := by decide +kernel
  have hlive : (decision drawer drawers "db" pair).deleted = false := by decide +kernel
  exact ⟨hdistinct, hfound,
    (winner_data_at_hand drawer drawers "db" pair hdistinct).1 hfound hlive⟩

end HsmSecretsOperator.System.WinnerData
