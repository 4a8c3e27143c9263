/- source: internal/controller/hsmpool_controller.go
   digest: What the phase Ready of a pool says about the reports of its discovery pods. -/

import HsmSecretsOperator.Pool.Aggregation

set_option autoImplicit false

namespace HsmSecretsOperator.Pool.Readiness

open Aggregation Discovery.Report

/-- The status that the report of a pod names, if it carries one that parses. -/
def reportedStatus (pod : DiscoveryPod) : Option String :=
  match pod.deviceReport with
  | .missing | .malformed => none
  | .report r => some r.discoveryStatus

/-- The pod runs and has reported that discovery is completed. -/
def hasReported (pod : DiscoveryPod) : Bool :=
  pod.phase = .running && reportedStatus pod = some "completed"

/-- The pod runs, and no report of it names a status. -/
def isSilent (pod : DiscoveryPod) : Bool :=
  pod.phase = .running && (reportedStatus pod).getD "" = ""

/-- A pool with the pods becomes Ready only if as many of them have reported as are desired. -/
def ReadyMeansReported (pods : List DiscoveryPod) : Prop :=
  ∀ (desired : Int) (env : Env) (pool : HSMPool) (deviceRef : String), 1 ≤ desired →
    pool.ownerReferences.head? = some deviceRef → env.hsmDevices deviceRef = true →
    env.daemonSets (daemonSetName deviceRef) = some ⟨desired, .ok pods⟩ →
    (nextStatus env pool).phase = .ready → desired ≤ pods.countP hasReported

theorem discoveryStatus_podReport (now : Nat) (pod : DiscoveryPod) :
    (podReport now pod).discoveryStatus =
      if (reportedStatus pod).getD "" = "" then getPodDiscoveryStatus pod
      else (reportedStatus pod).getD "" := by
  unfold podReport parseDeviceReportAnnotation reportedStatus
  cases pod.deviceReport with
  | missing => rfl
  | malformed => rfl
  | report r =>
    by_cases h : r.discoveryStatus = ""
    · simp [h]
    · simp [h]

theorem fresh_podReport (now : Nat) (pod : DiscoveryPod) :
    (podReport now pod).fresh = isPodFresh pod := by
  unfold podReport
  dsimp only
  split <;> rfl

theorem isCompleted_iff (now : Nat) (pod : DiscoveryPod) :
    ((podReport now pod).discoveryStatus = "completed" && (podReport now pod).fresh) =
      (hasReported pod || isSilent pod) := by
  rw [discoveryStatus_podReport, fresh_podReport, isPodFresh, hasReported, isSilent]
  by_cases hrunning : pod.phase = .running
  · cases hstatus : reportedStatus pod with
    | none => simp [hrunning, getPodDiscoveryStatus]
    | some status =>
      by_cases hempty : status = ""
      · simp [hrunning, hempty, getPodDiscoveryStatus]
      · simp [hrunning, hempty]
  · simp [hrunning]

theorem not_hasReported_of_isSilent {pod : DiscoveryPod} (h : isSilent pod = true) :
    hasReported pod = false := by
  simp only [isSilent, Bool.and_eq_true, decide_eq_true_eq] at h
  rw [Bool.eq_false_iff]
  intro hreported
  simp only [hasReported, Bool.and_eq_true, decide_eq_true_eq] at hreported
  rw [hreported.2] at h
  exact absurd h.2 (by decide)

theorem countP_isCompleted (now : Nat) (pods : List DiscoveryPod) :
    (pods.map (podReport now)).countP (fun r => r.discoveryStatus = "completed" && r.fresh) =
      pods.countP hasReported + pods.countP isSilent := by
  induction pods with
  | nil => rfl
  | cons pod pods ih =>
    rw [List.map_cons, List.countP_cons, ih, List.countP_cons, List.countP_cons,
      isCompleted_iff now pod]
    cases hsilent : isSilent pod with
    | true =>
      rw [not_hasReported_of_isSilent hsilent]
      simp only [Bool.or_true, if_true, Bool.false_eq_true, if_false]
      omega
    | false =>
      simp only [Bool.or_false, Bool.false_eq_true, if_false]
      omega

theorem aggregateDevices_eq_ready_iff {podReports : List PodReport} {expectedPods : Int}
    (h : 1 ≤ expectedPods) : aggregateDevices podReports expectedPods = .ready ↔
      expectedPods ≤ podReports.countP fun r => r.discoveryStatus = "completed" && r.fresh := by
  unfold aggregateDevices
  dsimp only
  split
  next hempty =>
    -- Without pods there is nothing to count, and at least one is expected.
    rw [List.isEmpty_iff.mp hempty, List.countP_nil]
    exact iff_of_false (by rintro ⟨⟩) (by omega)
  next =>
    split
    next hcompleted => exact iff_of_true rfl hcompleted
    next hcompleted =>
      refine iff_of_false ?_ hcompleted
      split
      · rintro ⟨⟩
      · rintro ⟨⟩

theorem phase_nextStatus {env : Env} {pool : HSMPool} {deviceRef : String} {desired : Int}
    {pods : List DiscoveryPod} (howner : pool.ownerReferences.head? = some deviceRef)
    (hdevice : env.hsmDevices deviceRef = true)
    (hset : env.daemonSets (daemonSetName deviceRef) = some ⟨desired, .ok pods⟩) :
    (nextStatus env pool).phase = aggregateDevices (pods.map (podReport env.now)) desired := by
  unfold nextStatus
  cases hrefs : pool.ownerReferences with
  | nil =>
    rw [hrefs] at howner
    cases howner
  | cons first rest =>
    rw [hrefs] at howner
    obtain rfl : first = deviceRef := Option.some.inj howner
    simp only [hdevice, collectPodReports, collectFrom, hset, Bool.not_true, Bool.false_eq_true,
      if_false, newStatus, List.nil_append, Int.zero_add]

theorem phase_eq_ready_iff {env : Env} {pool : HSMPool} {deviceRef : String} {desired : Int}
    {pods : List DiscoveryPod} (hdesired : 1 ≤ desired)
    (howner : pool.ownerReferences.head? = some deviceRef)
    (hdevice : env.hsmDevices deviceRef = true)
    (hset : env.daemonSets (daemonSetName deviceRef) = some ⟨desired, .ok pods⟩) :
    (nextStatus env pool).phase = .ready ↔
      desired ≤ pods.countP hasReported + pods.countP isSilent := by
  rw [phase_nextStatus howner hdevice hset, aggregateDevices_eq_ready_iff hdesired,
    countP_isCompleted]
  push_cast
  exact Iff.rfl

/-- Ready means that the desired number of pods has reported, whatever that number is, exactly if
every pod that runs carries a report that names a status. -/
theorem readyMeansReported_iff (pods : List DiscoveryPod) :
    ReadyMeansReported pods ↔ ∀ pod ∈ pods, isSilent pod = false := by
  constructor
  · intro h pod hpod
    rw [Bool.eq_false_iff]
    intro hsilent
    have hpos : 0 < pods.countP isSilent := List.countP_pos_iff.mpr ⟨pod, hpod, hsilent⟩
    -- As many pods are desired as are counted, the silent one included.
    let desired : Int := pods.countP hasReported + pods.countP isSilent
    let env : Env := { now := 0, daemonSets := fun _ => some ⟨desired, .ok pods⟩ }
    let pool : HSMPool := { ownerReferences := [""] }
    have hdesired : 1 ≤ desired := by omega
    have hready : (nextStatus env pool).phase = .ready :=
      (phase_eq_ready_iff hdesired rfl rfl rfl).mpr le_rfl
    have hreported : desired ≤ pods.countP hasReported := h desired env pool "" hdesired rfl rfl rfl
      hready
    omega
  · intro h desired env pool deviceRef hdesired howner hdevice hset hready
    have hnone : pods.countP isSilent = 0 := by
      rw [List.countP_eq_zero]
      intro pod hpod hsilent
      rw [h pod hpod] at hsilent
      cases hsilent
    rw [phase_eq_ready_iff hdesired howner hdevice hset, hnone] at hready
    simpa using hready

private def started : DiscoveryPod where
  name := "pico-discovery-n1"
  nodeName := "n1"
  phase := .running
  deviceReport := .missing

theorem ready_without_reports : ¬ ReadyMeansReported [started] := by
  intro h
  have hreported := h 1 { now := 0, daemonSets := fun _ => some ⟨1, .ok [started]⟩ }
    { ownerReferences := ["pico"] } "pico" (by decide) rfl rfl rfl (by decide +kernel)
  revert hreported
  decide

end HsmSecretsOperator.Pool.Readiness
