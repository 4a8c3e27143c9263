/- source: api/v1alpha1/hsmdevice_types.go, internal/modes/discovery/discovery.go
   digest: Discovered devices, and the report of them in the annotation of a discovery pod. -/

import Mathlib.Data.List.Basic
import HsmSecretsOperator.Foundation.Decimal

/-! A time is the number of nanoseconds since the zero time of the source. -/

set_option autoImplicit false

namespace HsmSecretsOperator.Discovery.Report

open Foundation.Decimal

def second : Nat := 1000000000

def minute : Nat := 60 * second

/-- `time.Since` at the given time, which saturates. -/
def since (now t : Nat) : Int := max minInt64 (min maxInt64 ((now : Int) - t))

theorem since_anti (now : Nat) {t t' : Nat} (h : t ≤ t') : since now t' ≤ since now t := by
  unfold since
  omega

theorem since_le {now t : Nat} (h : t ≤ now) : since now t ≤ (now : Int) - t := by
  unfold since minInt64
  omega

theorem lt_sub_of_lt_since {now t : Nat} {d : Int} (hd : 0 ≤ d) (h : d < since now t) :
    d < (now : Int) - t := by
  unfold since minInt64 at h
  omega

/-- A time as it comes back from JSON, which keeps whole seconds. -/
def truncate (t : Nat) : Nat := t / second * second

structure DiscoveredDevice where
  devicePath : String
  serialNumber : String
  nodeName : String
  lastSeen : Nat
  available : Bool
  deriving DecidableEq

def DiscoveredDevice.stored (d : DiscoveredDevice) : DiscoveredDevice :=
  { d with lastSeen := truncate d.lastSeen }

structure PodDiscoveryReport where
  hsmDeviceName : String
  reportingNode : String
  discoveredDevices : List DiscoveredDevice
  lastReportTime : Nat
  discoveryStatus : String
  error : String := ""
  deriving DecidableEq

/-- The report that its JSON text decodes to. -/
def PodDiscoveryReport.stored (r : PodDiscoveryReport) : PodDiscoveryReport :=
  { r with
    discoveredDevices := r.discoveredDevices.map DiscoveredDevice.stored
    lastReportTime := truncate r.lastReportTime }

/-- The device report annotation of a pod: none, a text that is no report, or a report. -/
inductive Annotation where
  | missing
  | malformed
  | report (r : PodDiscoveryReport)
  deriving DecidableEq

def Annotation.devices : Annotation → List DiscoveredDevice
  | .report r => r.discoveredDevices
  | .missing | .malformed => []

end HsmSecretsOperator.Discovery.Report
