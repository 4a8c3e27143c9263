/- source: internal/controller/hsmsecret_controller.go, internal/api/proxy_client.go,
     internal/agent/manager.go, internal/agent/naming.go
   digest: When the controller and the proxy hand out the same data of a secret. -/

import HsmSecretsOperator.Controller.HsmSecret
import HsmSecretsOperator.Mirror.Path

/-! The controller counts the entries of the device list, the proxy its clients by serial number. -/

set_option autoImplicit false

namespace HsmSecretsOperator.System.Agreement

open Api.Proxy (Cluster ReadFaults SecretResult availableClients mem_availableClients
  collectResults readVerdict nodup_collectResults calculateChecksum_ne_tombstone
  findMostRecentSecretResult_of_live findMostRecentSecretResult_of_missing)
open Controller.HsmSecret Foundation.Election Foundation.Maps Hsm.Layout Hsm.Secret Mirror.Path
  Reconcile.Resolve
open Hsm.Pkcs11 (Token client newObjects)

/-- How far the operator gets with the agent of a device. -/
inductive Reach where
  | noClient
  | silent
  | reachable
  deriving DecidableEq

/-- The agents by serial number; no agent is deployed for a device without one. -/
structure Agents where
  reach : String → Reach
  unnamed : reach "" = .noClient

/-- An entry of the device list as the controller meets it. -/
def deviceOf (agents : Agents) (d : String) : Device :=
  { serialNumber := d
    clientFails := agents.reach d = .noClient
    listFails := agents.reach d ≠ .reachable
    secretFails := agents.reach d ≠ .reachable
    metadataFails := agents.reach d ≠ .reachable }

def clientsOf (agents : Agents) (devices : List String) : List String :=
  availableClients (fun d => agents.reach d ≠ .noClient) devices

def faultsOf (agents : Agents) : ReadFaults :=
  { secret := fun d => agents.reach d ≠ .reachable
    metadata := fun d => agents.reach d ≠ .reachable }

/-- The data a reconcile writes to the Kubernetes Secret. -/
def applied : Outcome → Option SecretData
  | .apply winner _ => some (convertHSMDataToSecretData winner.data)
  | .noDevices | .secretNotFound | .winnerNotCaptured => none

section Readers

variable {σ : Type} (c : Client σ) (agents : Agents) (cl : Cluster σ) (p : String)

/-- The controller and the proxy hand out the same data, or neither of them any. -/
def ReadersAgree (devices arrivals : List String) : Prop :=
  applied (reconcile c cl p (devices.map (deviceOf agents))) =
    (Api.Proxy.readSecret c (faultsOf agents) cl p arrivals).toOption

/-- A device that is reached lists the path exactly if it answers a read of it. The controller asks
for the list first, the proxy does not. -/
def Listed (devices : List String) : Prop :=
  ∀ d ∈ devices, agents.reach d = .reachable →
    (p ∈ c.listSecrets (cl d) "" ↔ (heldAt c cl p d).data ≠ none)

def readOf (d : String) : Option DeviceRead :=
  if agents.reach d = .reachable then
    (heldAt c cl p d).data.map fun data => ⟨data, (heldAt c cl p d).metadata⟩
  else none

/-- The votes for the copies that can be read. -/
def ballots (devices : List String) : List DeviceObservation :=
  devices.filterMap fun d => (readOf c agents cl p d).map (·.observation d)

end Readers

section Views

variable {σ : Type} (c : Client σ) (agents : Agents) (cl : Cluster σ) (p : String)

private theorem captured_deviceOf {d : String} (h : agents.reach d = .reachable →
      (p ∈ c.listSecrets (cl d) "" ↔ (heldAt c cl p d).data ≠ none)) :
    captured c cl p (deviceOf agents d) = readOf c agents cl p d := by
  unfold captured deviceOf readOf
  cases hreach : agents.reach d with
  | noClient => rfl
  | silent => rfl
  | reachable =>
    have hlisted := h hreach
    simp only [heldAt, held] at hlisted ⊢
    simp only [readDevice]
    cases hread : c.readSecret (cl d) p with
    | error text => simp [hlisted, hread, Except.toOption]
    | ok data => simp [hlisted, hread, Except.toOption]

private theorem observation_deviceOf {d : String} (h : agents.reach d = .reachable →
      (p ∈ c.listSecrets (cl d) "" ↔ (heldAt c cl p d).data ≠ none)) :
    (observation c cl p (deviceOf agents d)).filter DeviceObservation.hasOpinion =
      (readOf c agents cl p d).map (·.observation d) := by
  rw [← captured_deviceOf c agents cl p h]
  unfold observation captured
  split
  · rfl
  split
  · rfl
  · cases readDevice c cl p (deviceOf agents d) with
    | none => rfl
    | some r => simp [DeviceRead.observation, DeviceObservation.hasOpinion, deviceOf, Option.filter]

private theorem readDevice_faultsOf (d : String) :
    Api.Proxy.readDevice c (faultsOf agents) cl p d =
      (readOf c agents cl p d).map fun r => ⟨d, r.data, r.metadata⟩ := by
  by_cases hreach : agents.reach d = .reachable
  · simp only [Api.Proxy.readDevice, faultsOf, readOf, hreach, ne_eq, not_true_eq_false,
      decide_false, Bool.false_eq_true, if_false, if_true, heldAt, held]
    cases c.readSecret (cl d) p with
    | error text => rfl
    | ok data => cases c.readMetadata (cl d) p <;> rfl
  · simp [Api.Proxy.readDevice, faultsOf, readOf, hreach]

end Views

section Ballots

variable {σ : Type} {c : Client σ} {agents : Agents} {cl : Cluster σ} {p : String}
  {devices : List String}

theorem mem_ballots {v : DeviceObservation} : v ∈ ballots c agents cl p devices ↔
    ∃ d ∈ devices, ∃ r, readOf c agents cl p d = some r ∧ r.observation d = v := by
  simp only [ballots, List.mem_filterMap, Option.map_eq_some_iff]

theorem votersOf_ballots (c : Client σ) (agents : Agents) (cl : Cluster σ) (p : String)
    (devices : List String) :
    votersOf (ballots c agents cl p devices) = ballots c agents cl p devices := by
  rw [votersOf, List.filter_eq_self]
  intro v hv
  obtain ⟨d, _, r, _, rfl⟩ := mem_ballots.mp hv
  simp [DeviceRead.observation, DeviceObservation.hasOpinion]

theorem length_ballots_le (c : Client σ) (agents : Agents) (cl : Cluster σ) (p : String)
    (devices : List String) : (ballots c agents cl p devices).length ≤ devices.length :=
  List.length_filterMap_le _ _

theorem rank_injOn_ballots (c : Client σ) (agents : Agents) (cl : Cluster σ) (p : String)
    (devices : List String) :
    Set.InjOn DeviceObservation.rank {v | v ∈ ballots c agents cl p devices} := by
  apply rank_injOn_of_deviceID
  intro v hv w hw hid
  obtain ⟨d, _, r, hr, rfl⟩ := mem_ballots.mp hv
  obtain ⟨d', _, r', hr', rfl⟩ := mem_ballots.mp hw
  have hd : d = d' := hid
  subst hd
  rw [Option.some.inj (hr.symm.trans hr')]

theorem unnamed_not_mem_holders (checksum : String) :
    "" ∉ holders (ballots c agents cl p devices) checksum := by
  intro h
  obtain ⟨v, hv, hid, _⟩ := mem_holders.mp h
  obtain ⟨d, _, r, hr, rfl⟩ := mem_ballots.mp hv
  have hd : d = "" := hid
  subst hd
  simp [readOf, agents.unnamed] at hr

theorem elects_ballots (h : ballots c agents cl p devices ≠ []) (n : Nat) :
    Elects DeviceObservation.effectiveChecksum DeviceObservation.rank n
      (ballots c agents cl p devices)
      (resolve (ballots c agents cl p devices) n).winningChecksum := by
  rw [← votersOf_ballots] at h
  have helects := resolve_elects h n
  rwa [votersOf_ballots] at helects

theorem exists_winner (h : ballots c agents cl p devices ≠ []) (n : Nat) :
    ∃ d ∈ devices, d = (resolve (ballots c agents cl p devices) n).winningDeviceID ∧
      ∃ r, readOf c agents cl p d = some r ∧ (r.observation d).effectiveChecksum =
        (resolve (ballots c agents cl p devices) n).winningChecksum := by
  rw [← votersOf_ballots] at h
  obtain ⟨v, hv, hid, hsum⟩ := resolve_winner_holds h n
  rw [votersOf_ballots] at hv
  obtain ⟨d, hd, r, hr, rfl⟩ := mem_ballots.mp hv
  exact ⟨d, hd, hid, r, hr, hsum⟩

/-- The data the verdict stands for. -/
def resolved (c : Client σ) (agents : Agents) (cl : Cluster σ) (p : String) (verdict : Decision) :
    Option SecretData :=
  if !verdict.found || verdict.deleted then none
  else (readOf c agents cl p verdict.winningDeviceID).map DeviceRead.data

theorem applied_reconcile (h : Listed c agents cl p devices) :
    applied (reconcile c cl p (devices.map (deviceOf agents))) =
      resolved c agents cl p (resolve (ballots c agents cl p devices) devices.length) := by
  have hverdict : decision c cl p (devices.map (deviceOf agents)) =
      resolve (ballots c agents cl p devices) devices.length := by
    rw [decision, List.length_map]
    apply resolve_congr
    rw [votersOf_ballots, gatherSecretObservations_observations, votersOf, List.filterMap_map,
      List.filter_filterMap]
    exact List.filterMap_congr fun d hd => observation_deviceOf c agents cl p (h d hd)
  by_cases hempty : devices = []
  · subst hempty
    rfl
  unfold reconcile resolved
  rw [if_neg (by simpa using hempty), hverdict]
  dsimp only
  split
  · rfl
  next hlive =>
    have hfound : (resolve (ballots c agents cl p devices) devices.length).found = true := by
      simp only [Bool.or_eq_true, not_or, Bool.not_eq_true', Bool.not_eq_false] at hlive
      exact hlive.1
    rw [resolve_found_iff, votersOf_ballots] at hfound
    obtain ⟨d, hd, hid, r, hr, _⟩ := exists_winner hfound devices.length
    rw [← hid, hr, gatherSecretObservations_reads]
    -- A serial that occurs twice is read twice with the same answer.
    have hreads : (Foundation.Maps.assign (∅ : Std.ExtTreeMap String DeviceRead) Prod.fst Prod.snd
        ((devices.map (deviceOf agents)).filterMap fun device =>
          (captured c cl p device).map fun r => (device.serialNumber, r)))[d]? = some r := by
      refine getElem?_assign_of_mem ∅ Prod.fst Prod.snd (x := (d, r)) ?_ ?_
      · refine List.mem_filterMap.mpr ⟨deviceOf agents d, List.mem_map_of_mem hd, ?_⟩
        rw [captured_deviceOf c agents cl p (h d hd), hr]
        rfl
      · intro e he hsame
        obtain ⟨device, hdevice, hread⟩ := List.mem_filterMap.mp he
        obtain ⟨d', hd', rfl⟩ := List.mem_map.mp hdevice
        rw [captured_deviceOf c agents cl p (h d' hd')] at hread
        obtain ⟨r', hr', rfl⟩ := Option.map_eq_some_iff.mp hread
        obtain rfl : d' = d := hsame
        rw [hr] at hr'
        exact (Option.some.inj hr').symm
    rw [hreads]
    simp only [applied, convertHSMDataToSecretData, copyData_eq, Option.map_some]

theorem toOption_readSecret_faultsOf (c : Client σ) (agents : Agents) (cl : Cluster σ) (p : String)
    {arrivals : List String} (hnodup : arrivals.Nodup) :
    (Api.Proxy.readSecret c (faultsOf agents) cl p arrivals).toOption =
      resolved c agents cl p (resolve (ballots c agents cl p arrivals) arrivals.length) := by
  have hballots : (collectResults c (faultsOf agents) cl p arrivals).map
      SecretResult.observation = ballots c agents cl p arrivals := by
    rw [collectResults, List.map_filterMap, ballots]
    refine List.filterMap_congr fun d _ => ?_
    rw [readDevice_faultsOf, Option.map_map]
    rfl
  have hverdict : readVerdict (collectResults c (faultsOf agents) cl p arrivals)
      arrivals.length = resolve (ballots c agents cl p arrivals) arrivals.length := by
    rw [readVerdict, hballots]
  unfold Api.Proxy.readSecret resolved
  by_cases hnone : collectResults c (faultsOf agents) cl p arrivals = []
  · rw [findMostRecentSecretResult_of_missing (.inl hnone)]
    rw [hnone, List.map_nil] at hballots
    rw [← hballots]
    rfl
  have hfound : (resolve (ballots c agents cl p arrivals) arrivals.length).found = true := by
    rw [← hverdict, Api.Proxy.readVerdict_found_iff]
    exact hnone
  cases hdeleted : (resolve (ballots c agents cl p arrivals) arrivals.length).deleted with
  | true =>
    rw [findMostRecentSecretResult_of_missing (.inr (hverdict ▸ hdeleted))]
    simp [Except.toOption]
  | false =>
    obtain ⟨result, hmem, hname, _, hread⟩ := findMostRecentSecretResult_of_live
      (nodup_collectResults c (faultsOf agents) cl p hnodup) hnone (hverdict ▸ hdeleted)
    obtain ⟨d, _, hresult⟩ := List.mem_filterMap.mp hmem
    rw [readDevice_faultsOf] at hresult
    obtain ⟨r, hr, rfl⟩ := Option.map_eq_some_iff.mp hresult
    have hd : d = (resolve (ballots c agents cl p arrivals) arrivals.length).winningDeviceID :=
      hverdict ▸ hname
    rw [hread, hfound, ← hd, hr]
    rfl

theorem winningChecksum_eq (h : ballots c agents cl p devices ≠ []) (n : Nat) :
    (resolve (ballots c agents cl p devices) n).winningChecksum =
      ((resolved c agents cl p (resolve (ballots c agents cl p devices) n)).map
        calculateChecksum).getD tombstoneChecksum := by
  have hvoters : votersOf (ballots c agents cl p devices) ≠ [] := by rwa [votersOf_ballots]
  have hfound := (resolve_found_iff (ballots c agents cl p devices) n).mpr hvoters
  obtain ⟨d, _, hid, r, hr, hsum⟩ := exists_winner h n
  unfold resolved
  rw [hfound, ← hid, hr]
  cases hdeleted : (resolve (ballots c agents cl p devices) n).deleted with
  | true => exact (resolve_deleted_iff hvoters n).mp hdeleted
  | false =>
    have hlive : (r.observation d).tombstone = false := by
      rw [Bool.eq_false_iff]
      intro htombstone
      rw [DeviceObservation.effectiveChecksum, if_pos htombstone] at hsum
      rw [(resolve_deleted_iff hvoters n).mpr hsum.symm] at hdeleted
      cases hdeleted
    rw [← hsum, DeviceObservation.effectiveChecksum, hlive]
    rfl

end Ballots

section Polls

variable {σ : Type} (c : Client σ) (agents : Agents) (cl : Cluster σ) (p : String)
  (devices : List String)

private theorem mem_ballots_iff {arrivals : List String}
    (harrivals : arrivals.Perm (clientsOf agents devices)) (v : DeviceObservation) :
    v ∈ ballots c agents cl p arrivals ↔ v ∈ ballots c agents cl p devices := by
  rw [mem_ballots, mem_ballots]
  refine exists_congr fun d => ?_
  rw [harrivals.mem_iff, clientsOf, mem_availableClients, and_assoc]
  refine and_congr_right fun _ => and_iff_right_of_imp ?_
  intro ⟨r, hr, _⟩
  unfold readOf at hr
  split at hr
  next hreach => simp [hreach]
  next => cases hr

private theorem resolved_eq {devices' : List String} {n n' : Nat}
    (hsame : ∀ v, v ∈ ballots c agents cl p devices' ↔ v ∈ ballots c agents cl p devices)
    (hne : ballots c agents cl p devices ≠ [])
    (hvalue : (resolve (ballots c agents cl p devices) n).winningChecksum =
      (resolve (ballots c agents cl p devices') n').winningChecksum) :
    resolved c agents cl p (resolve (ballots c agents cl p devices) n) =
      resolved c agents cl p (resolve (ballots c agents cl p devices') n') := by
  have hvoters : votersOf (ballots c agents cl p devices) ≠ [] := by rwa [votersOf_ballots]
  have hvoters' : votersOf (ballots c agents cl p devices') ≠ [] := by
    rw [votersOf_ballots]
    obtain ⟨v, hv⟩ := List.exists_mem_of_ne_nil _ hne
    exact List.ne_nil_of_mem ((hsame v).mpr hv)
  have hdeleted : (resolve (ballots c agents cl p devices) n).deleted =
      (resolve (ballots c agents cl p devices') n').deleted := by
    rw [Bool.eq_iff_iff, resolve_deleted_iff hvoters, resolve_deleted_iff hvoters', hvalue]
  have hdevice : (resolve (ballots c agents cl p devices) n).winningDeviceID =
      (resolve (ballots c agents cl p devices') n').winningDeviceID := by
    rw [resolve_winningDeviceID hvoters, resolve_winningDeviceID hvoters', votersOf_ballots,
      votersOf_ballots, hvalue]
    refine lowestDevice_congr ?_ (unnamed_not_mem_holders _)
    intro x
    simp only [mem_holders, hsame]
  unfold resolved
  rw [(resolve_found_iff _ n).mpr hvoters, (resolve_found_iff _ n').mpr hvoters', hdeleted, hdevice]

private theorem resolved_eq_iff {devices' : List String} {n n' : Nat}
    (hsame : ∀ v, v ∈ ballots c agents cl p devices' ↔ v ∈ ballots c agents cl p devices)
    (hne : ballots c agents cl p devices ≠ []) (hne' : ballots c agents cl p devices' ≠ []) :
    resolved c agents cl p (resolve (ballots c agents cl p devices) n) =
        resolved c agents cl p (resolve (ballots c agents cl p devices') n') ↔
      (resolve (ballots c agents cl p devices) n).winningChecksum =
        (resolve (ballots c agents cl p devices') n').winningChecksum := by
  constructor
  · intro h
    rw [winningChecksum_eq hne, winningChecksum_eq hne', h]
  · exact resolved_eq c agents cl p devices hsame hne

private theorem prevails_arrivals {arrivals : List String}
    (harrivals : arrivals.Perm (clientsOf agents devices)) (value : String) :
    Prevails DeviceObservation.effectiveChecksum arrivals.length (ballots c agents cl p arrivals)
        value ↔
      Prevails DeviceObservation.effectiveChecksum (clientsOf agents devices).length
        (ballots c agents cl p (clientsOf agents devices)) value := by
  rw [harrivals.length_eq]
  exact prevails_perm (harrivals.filterMap _)

end Polls

/-- A value other than that of the newest copy has a majority among the entries of the device list
exactly if it has one among the clients of the proxy. -/
def SameMajorities {σ : Type} (c : Client σ) (agents : Agents) (cl : Cluster σ) (p : String)
    (devices : List String) : Prop :=
  ∀ newest, Newest DeviceObservation.rank (ballots c agents cl p devices) newest →
    ∀ value, value ≠ newest.effectiveChecksum →
      (Prevails DeviceObservation.effectiveChecksum devices.length
          (ballots c agents cl p devices) value ↔
        Prevails DeviceObservation.effectiveChecksum (clientsOf agents devices).length
          (ballots c agents cl p (clientsOf agents devices)) value)

/-- Where listing and reading agree, the readers agree exactly if their counts differ in no majority
that matters. -/
theorem readersAgree_iff {σ : Type} (c : Client σ) (agents : Agents) (cl : Cluster σ)
    (p : String) (devices arrivals : List String)
    (harrivals : arrivals.Perm (clientsOf agents devices))
    (hlisted : Listed c agents cl p devices) :
    ReadersAgree c agents cl p devices arrivals ↔ SameMajorities c agents cl p devices := by
  have hnodup : arrivals.Nodup := harrivals.nodup_iff.mpr (List.nodup_dedup _)
  have hsame := mem_ballots_iff c agents cl p devices harrivals
  rw [ReadersAgree, applied_reconcile hlisted, toOption_readSecret_faultsOf c agents cl p hnodup]
  by_cases hne : ballots c agents cl p devices = []
  · have hne' : ballots c agents cl p arrivals = [] := by
      rw [List.eq_nil_iff_forall_not_mem]
      intro v hv
      rw [hsame, hne] at hv
      cases hv
    rw [hne, hne']
    refine iff_of_true rfl ?_
    intro newest htop
    rw [hne] at htop
    cases htop.1
  · obtain ⟨newest, htop⟩ := exists_newest DeviceObservation.rank hne
    have htop' : Newest DeviceObservation.rank (ballots c agents cl p arrivals) newest :=
      ⟨(hsame _).mpr htop.1, fun v hv => htop.2 v ((hsame v).mp hv)⟩
    have hne' : ballots c agents cl p arrivals ≠ [] := List.ne_nil_of_mem htop'.1
    have hinj := rank_injOn_ballots c agents cl p devices
    have hclients := prevails_arrivals c agents cl p devices harrivals
    have hvalues := (elects_ballots hne devices.length).eq_iff hinj
      (length_ballots_le c agents cl p devices) htop (rank_injOn_ballots c agents cl p arrivals)
      (length_ballots_le c agents cl p arrivals) htop' rfl (elects_ballots hne' arrivals.length)
    rw [resolved_eq_iff c agents cl p devices hsame hne hne', hvalues]
    constructor
    · intro h other hother value hvalue
      rw [hother.unique hinj htop] at hvalue
      exact (h value hvalue).trans (hclients value)
    · intro h value hvalue
      exact (h newest htop value hvalue).trans (hclients value).symm

def content (value : String) : SecretData := (∅ : SecretData).insert "k" value.toUTF8.toList

def versioned (version value : String) : Token :=
  newObjects "db" (content value)
    (some { labels := (∅ : Hsm.Secret.Labels).insert "sync.version" version })

private def cluster : Cluster Token :=
  fun d => if d = "A" then versioned "1" "old" else versioned "2" "new"

private def everyone : Agents :=
  { reach := fun d => if d = "" then .noClient else .reachable, unnamed := rfl }

/-- The two entries of one device are a majority for the controller, while the proxy counts two
devices and takes the newer copy. -/
theorem moved_device_splits_readers :
    ["A", "B"].Perm (clientsOf everyone ["A", "A", "B"]) ∧
      Listed client everyone cluster "db" ["A", "A", "B"] ∧
      ¬ ReadersAgree client everyone cluster "db" ["A", "A", "B"] ["A", "B"] := by
  refine ⟨by decide, by unfold Listed; decide +kernel, ?_⟩
  intro h
  unfold ReadersAgree at h
  revert h
  decide +kernel

theorem distinct_devices_agree :
    Listed client everyone cluster "db" ["A", "B", "C"] ∧
      ReadersAgree client everyone cluster "db" ["A", "B", "C"] ["C", "A", "B"] := by
  have hclients : clientsOf everyone ["A", "B", "C"] = ["A", "B", "C"] := by decide
  have hlisted : Listed client everyone cluster "db" ["A", "B", "C"] := by
    unfold Listed
    decide +kernel
  refine ⟨hlisted, (readersAgree_iff client everyone cluster "db" ["A", "B", "C"] ["C", "A", "B"] ?_
    hlisted).mpr ?_⟩
  · rw [hclients]
    decide
  · intro newest _ value _
    rw [hclients]

end HsmSecretsOperator.System.Agreement
