/- source: internal/controller/hsmpool_controller.go, internal/agent/manager.go
   digest: The pool controller: reports of discovery pods are collected and stored as a status. -/

import HsmSecretsOperator.Discovery.Report

set_option autoImplicit false

namespace HsmSecretsOperator.Pool.Aggregation

open Discovery.Report

inductive PodPhase where
  | running
  | pending
  | failed
  | succeeded
  | unknown
  deriving DecidableEq

structure DiscoveryPod where
  name : String
  nodeName : String
  phase : PodPhase
  deviceReport : Annotation

structure PodReport where
  podName : String
  nodeName : String
  devicesFound : Nat
  lastReportTime : Nat
  discoveryStatus : String
  fresh : Bool
  deriving DecidableEq

def getPodDiscoveryStatus (pod : DiscoveryPod) : String :=
  match pod.phase with
  | .running => "completed"
  | .pending => "pending"
  | .failed => "failed"
  | .succeeded | .unknown => "unknown"

def isPodFresh (pod : DiscoveryPod) : Bool := pod.phase = .running

/-- The number of devices, the status and the time of the report, if there is one. -/
def parseDeviceReportAnnotation (pod : DiscoveryPod) : Option (Nat × String × Nat) :=
  match pod.deviceReport with
  | .missing | .malformed => none
  | .report r => some (r.discoveredDevices.length, r.discoveryStatus, r.lastReportTime)

def podReport (now : Nat) (pod : DiscoveryPod) : PodReport :=
  let base : PodReport :=
    { podName := pod.name, nodeName := pod.nodeName, devicesFound := 0, lastReportTime := now
      discoveryStatus := getPodDiscoveryStatus pod, fresh := isPodFresh pod }
  match parseDeviceReportAnnotation pod with
  | none => base
  | some (devicesFound, status, reportTime) =>
    { base with
      devicesFound
      discoveryStatus := if status ≠ "" then status else base.discoveryStatus
      lastReportTime := if reportTime ≠ 0 then reportTime else base.lastReportTime }

/-- A DaemonSet and the answer to the listing of its pods. -/
structure DaemonSet where
  desiredNumberScheduled : Int
  pods : Except String (List DiscoveryPod)

structure Collected where
  podReports : List PodReport := []
  allDevices : List DiscoveredDevice := []
  totalExpectedPods : Int := 0

def daemonSetName (hsmDevice : String) : String := hsmDevice ++ "-discovery"

/-- The loop over the HSMDevices; the error comes with the pods that were expected so far. -/
def collectFrom (now : Nat) (daemonSets : String → Option DaemonSet) :
    Collected → List String → Except (String × Int) Collected
  | acc, [] => .ok acc
  | acc, hsmDevice :: hsmDevices =>
    match daemonSets (daemonSetName hsmDevice) with
    | none => collectFrom now daemonSets acc hsmDevices
    | some ds =>
      let expected := acc.totalExpectedPods + ds.desiredNumberScheduled
      match ds.pods with
      | .error e =>
        .error (s!"failed to list DaemonSet pods for device {hsmDevice}: {e}", expected)
      | .ok pods =>
        collectFrom now daemonSets
          { podReports := acc.podReports ++ pods.map (podReport now)
            allDevices := acc.allDevices ++ pods.flatMap fun pod => pod.deviceReport.devices
            totalExpectedPods := expected }
          hsmDevices

def collectPodReports (now : Nat) (daemonSets : String → Option DaemonSet)
    (hsmDevices : List String) : Except (String × Int) Collected :=
  collectFrom now daemonSets {} hsmDevices

/-- The phases; `incomplete` is the one called Partial. -/
inductive HSMPoolPhase where
  | pending
  | aggregating
  | ready
  | incomplete
  | error
  deriving DecidableEq

def aggregateDevices (podReports : List PodReport) (expectedPods : Int) : HSMPoolPhase :=
  let freshReports := podReports.countP fun r => r.fresh
  let completedReports := podReports.countP fun r => r.discoveryStatus = "completed" && r.fresh
  if podReports.isEmpty then .pending
  else if (completedReports : Int) ≥ expectedPods then .ready
  else if (freshReports : Int) < expectedPods then .incomplete
  else .aggregating

/-- The condition of type DeviceAggregation. -/
structure Condition where
  holds : Bool
  lastTransitionTime : Nat
  reason : String
  message : String
  deriving DecidableEq

structure HSMPoolStatus where
  phase : HSMPoolPhase := .pending
  aggregatedDevices : List DiscoveredDevice := []
  totalDevices : Nat := 0
  availableDevices : Nat := 0
  reportingPods : List PodReport := []
  expectedPods : Int := 0
  lastAggregationTime : Option Nat := none
  condition : Option Condition := none
  deriving DecidableEq

structure HSMPool where
  /-- The names of the owners. -/
  ownerReferences : List String
  gracePeriod : Option Int := none
  creationTimestamp : Nat := 0
  status : HSMPoolStatus := {}

def phaseName : HSMPoolPhase → String
  | .pending => "Pending"
  | .aggregating => "Aggregating"
  | .ready => "Ready"
  | .incomplete => "Partial"
  | .error => "Error"

/-- The status that `updatePoolStatus` sends to the API server. -/
def newStatus (now : Nat) (old : HSMPoolStatus) (phase : HSMPoolPhase)
    (devices : List DiscoveredDevice) (podReports : List PodReport) (expectedPods : Int)
    (errorMsg : String) : HSMPoolStatus :=
  let holds : Bool := errorMsg = ""
  { phase
    aggregatedDevices := devices
    totalDevices := devices.length
    availableDevices := devices.countP fun device => device.available
    reportingPods := podReports
    expectedPods
    lastAggregationTime := some now
    condition := some
      { holds
        lastTransitionTime :=
          match old.condition with
          | some cond => if cond.holds ≠ holds then now else cond.lastTransitionTime
          | none => now
        reason := if holds then phaseName phase else "Error"
        message :=
          if holds then s!"Aggregated {devices.length} devices from {expectedPods} pods"
          else errorMsg } }

structure Env where
  now : Nat
  /-- The HSMDevice can be fetched. -/
  hsmDevices : String → Bool := fun _ => true
  daemonSets : String → Option DaemonSet
  /-- The status update goes through. -/
  updates : Bool := true

def nextStatus (env : Env) (pool : HSMPool) : HSMPoolStatus :=
  match pool.ownerReferences with
  | [] => newStatus env.now pool.status .error [] [] 0 "HSMPool has no owner references"
  | deviceRef :: _ =>
    if !env.hsmDevices deviceRef then
      newStatus env.now pool.status .error [] [] 0 s!"HSMDevice {deviceRef} not found"
    else
      match collectPodReports env.now env.daemonSets [deviceRef] with
      | .error (e, expectedPods) => newStatus env.now pool.status .error [] [] expectedPods e
      | .ok c =>
        newStatus env.now pool.status (aggregateDevices c.podReports c.totalExpectedPods)
          c.allDevices c.podReports c.totalExpectedPods ""

/-- `HSMPoolReconciler.Reconcile`; a rejected update leaves the status as it was. -/
def reconcile (env : Env) (pool : HSMPool) : HSMPool :=
  if env.updates then { pool with status := nextStatus env pool } else pool

/-- `GetAvailableDevices` of the agent manager. -/
def getAvailableDevices (pools : List HSMPoolStatus) : Except String (List DiscoveredDevice) :=
  let availableDevices :=
    (pools.filter fun status => status.phase = .ready).flatMap HSMPoolStatus.aggregatedDevices
  if availableDevices.isEmpty then .error "no available HSM devices found"
  else .ok availableDevices

theorem totalDevices_nextStatus (env : Env) (pool : HSMPool) :
    (nextStatus env pool).totalDevices = (nextStatus env pool).aggregatedDevices.length := by
  unfold nextStatus
  split
  · rfl
  split
  · rfl
  split
  · rfl
  · rfl

theorem reconcile_eq (env : Env) (pool : HSMPool) :
    ∃ status, reconcile env pool = { pool with status } := by
  unfold reconcile
  split
  · exact ⟨_, rfl⟩
  · exact ⟨pool.status, rfl⟩

/-- The devices in the annotations that a reconcile can read; none if something is missing. -/
def reported (env : Env) (pool : HSMPool) : List DiscoveredDevice :=
  match pool.ownerReferences with
  | [] => []
  | deviceRef :: _ =>
    if env.hsmDevices deviceRef then
      match env.daemonSets (daemonSetName deviceRef) with
      | some { pods := .ok pods, .. } => pods.flatMap fun pod => pod.deviceReport.devices
      | some { pods := .error _, .. } | none => []
    else []

theorem aggregatedDevices_nextStatus (env : Env) (pool : HSMPool) :
    (nextStatus env pool).aggregatedDevices = reported env pool := by
  unfold nextStatus reported
  cases pool.ownerReferences with
  | nil => rfl
  | cons deviceRef rest =>
    dsimp only
    cases env.hsmDevices deviceRef with
    | false => rfl
    | true =>
      simp only [collectPodReports, collectFrom, Bool.not_true, Bool.false_eq_true, if_false,
        if_true]
      cases env.daemonSets (daemonSetName deviceRef) with
      | none => rfl
      | some ds =>
        obtain ⟨desired, pods⟩ := ds
        cases pods with
        | error e => rfl
        | ok pods => rfl

end HsmSecretsOperator.Pool.Aggregation
