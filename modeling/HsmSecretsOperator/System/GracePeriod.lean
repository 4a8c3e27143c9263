/- source: internal/controller/hsmpool_agent_controller.go,
     internal/controller/hsmpool_controller.go, internal/modes/discovery/discovery.go
   digest: The agent of a lost device over runs of discovery, aggregation and agent reconciles. -/

import HsmSecretsOperator.Discovery.Agent
import HsmSecretsOperator.Foundation.Runs
import HsmSecretsOperator.Pool.Agents

/-!
Discovery retires the entry of a lost device after five minutes, whatever the grace period is.
-/

set_option autoImplicit false

namespace HsmSecretsOperator.System.GracePeriod

open Discovery.Agent hiding Env
open Discovery.Report Foundation.Runs
open Pool.Agents hiding Env reconcile
open Pool.Aggregation

/-- The turns of the loops in which discovery writes its cache. -/
inductive Scan where
  | initial (hsmDevice : HSMDevice)
  | periodic (hsmDevice : HSMDevice)
  | retire (hsmDeviceName : String)

def Scan.name : Scan → String
  | .initial hsmDevice | .periodic hsmDevice => hsmDevice.name
  | .retire hsmDeviceName => hsmDeviceName

def Scan.run (env : Discovery.Agent.Env) (d : DiscoveryAgent) : Scan → DiscoveryAgent
  | .initial hsmDevice => processHSMDevice env d hsmDevice
  | .periodic hsmDevice =>
    if shouldDiscoverOnNode d.nodeName hsmDevice then reconcileHSMDeviceScan env d hsmDevice else d
  | .retire hsmDeviceName => cleanupDevicesOf env d hsmDeviceName

/-- How an aggregation finds the pods: the nodes of those that are listed, with their phases. -/
structure Listing where
  desired : Int
  nodes : List String
  phase : String → PodPhase := fun _ => .running
  updates : Bool := true

/-- The pool of an HSMDevice, the discovery agents in the pods of its DaemonSet, and the deployments
of the namespace. -/
structure State where
  pool : HSMPool
  nodes : List DiscoveryAgent
  clock : Nat
  items : List Deployment
  /-- Since when a device that was available is so on no node. -/
  lostSince : String → Option Nat := fun _ => none

inductive Step where
  | discover (elapsed : Nat) (node : String) (scan : Scan) (env : Discovery.Agent.Env)
  | aggregate (elapsed : Nat) (listing : Listing)
  | agents (elapsed : Nat) (env : Pool.Agents.Env)

/-- The name of the HSMDevice that owns the pool. -/
def owner (pool : HSMPool) : String := pool.ownerReferences.headD ""

def availableIn (nodes : List DiscoveryAgent) (hsmDeviceName serial : String) : Bool :=
  nodes.any fun d => (d.cached hsmDeviceName).any fun dev =>
    dev.serialNumber = serial && dev.available

def discover (s : State) (node : String) (scan : Scan) (env : Discovery.Agent.Env) : State :=
  let nodes := s.nodes.map fun d => if d.nodeName = node then scan.run env d else d
  { s with
    nodes
    clock := env.now
    lostSince := fun serial =>
      if availableIn nodes (owner s.pool) serial then none
      else if availableIn s.nodes (owner s.pool) serial then some env.now
      else s.lostSince serial }

def podOf (listing : Listing) (d : DiscoveryAgent) : DiscoveryPod where
  name := "discovery-" ++ d.nodeName
  nodeName := d.nodeName
  phase := listing.phase d.nodeName
  deviceReport := d.deviceReport

def poolEnv (s : State) (now : Nat) (listing : Listing) : Pool.Aggregation.Env where
  now
  updates := listing.updates
  daemonSets := fun _ => some
    { desiredNumberScheduled := listing.desired
      pods := .ok (listing.nodes.filterMap fun node =>
        (s.nodes.find? fun d => d.nodeName = node).map (podOf listing)) }

def step (r : HSMPoolAgentReconciler) (s : State) : Step → State
  | .discover elapsed node scan env => discover s node scan { env with now := s.clock + elapsed }
  | .aggregate elapsed listing =>
    let now := s.clock + elapsed
    { s with clock := now, pool := Pool.Aggregation.reconcile (poolEnv s now listing) s.pool }
  | .agents elapsed env =>
    let now := s.clock + elapsed
    { s with
      clock := now
      items := (Pool.Agents.reconcile r { env with now } s.pool s.items).items }

/-- No routine deletes the agent of a device that has been lost for less than the grace period and
is available on no node. -/
def Honoured (r : HSMPoolAgentReconciler) (s : State) : Step → Prop
  | .discover .. | .aggregate .. => True
  | .agents elapsed env =>
    let now := s.clock + elapsed
    let out := Pool.Agents.reconcile r { env with now } s.pool s.items
    ∀ serial name lost, agentInstanceName (owner s.pool) serial = some name →
      s.lostSince serial = some lost → (now : Int) - lost < gracePeriod s.pool →
        name ∉ out.ensured ∧ name ∉ out.reaped ∧ name ∉ out.cleaned

/-- Every aggregation leaves the pool Ready, with devices. -/
def Ready (s : State) : Step → Prop
  | .discover .. | .agents .. => True
  | .aggregate elapsed listing =>
    let status := Pool.Aggregation.nextStatus (poolEnv s (s.clock + elapsed) listing) s.pool
    status.phase = .ready ∧ status.aggregatedDevices ≠ []

instance instDecidableReady (s : State) : ∀ a, Decidable (Ready s a)
  | .discover .. | .agents .. => inferInstanceAs (Decidable True)
  | .aggregate .. => inferInstanceAs (Decidable (_ ∧ _))

/-- The grace period is not longer than discovery keeps a lost device, and not longer than the
absence timeout if that is set. -/
structure Compatible (r : HSMPoolAgentReconciler) (pool : HSMPool) : Prop where
  threshold : gracePeriod pool ≤ cleanupThreshold
  timeout : r.deviceAbsenceTimeout = 0 ∨ gracePeriod pool ≤ r.deviceAbsenceTimeout

/-- An initial scan finds every device that the cache it replaces lists. -/
def Finds (env : Discovery.Agent.Env) (d : DiscoveryAgent) : Scan → Prop
  | .initial hsmDevice =>
    ∀ found ∈ (discoverDevicesForSpec env d.nodeName hsmDevice).toOption,
      ∀ old ∈ d.cached hsmDevice.name, ∃ dev ∈ found, dev.serialNumber = old.serialNumber
  | .periodic _ | .retire _ => True

instance instDecidableFinds (env : Discovery.Agent.Env) (d : DiscoveryAgent) :
    ∀ scan, Decidable (Finds env d scan)
  | .initial hsmDevice => inferInstanceAs (Decidable
      (∀ found ∈ (discoverDevicesForSpec env d.nodeName hsmDevice).toOption, _))
  | .periodic _ | .retire _ => inferInstanceAs (Decidable True)

/-- The status of the pool says the same about lost devices as the caches do. -/
structure Current (now : Nat) (s : State) : Prop where
  /-- It lists what the pods report now, in some order. -/
  reports : s.pool.status.aggregatedDevices.Perm (s.nodes.flatMap fun d => d.deviceReport.devices)
  /-- The loss that counts for a serial number is the latest one. -/
  latest : ∀ dev ∈ s.pool.status.aggregatedDevices,
    ∀ lost ∈ lostDevice (devicesOf s.pool dev.serialNumber), dev.lastSeen ≤ lost.lastSeen
  /-- The serial numbers have agents of different names. -/
  distinct : ∀ dev ∈ s.pool.status.aggregatedDevices, ∀ dev' ∈ s.pool.status.aggregatedDevices,
    agentInstanceName (owner s.pool) dev.serialNumber =
        agentInstanceName (owner s.pool) dev'.serialNumber →
      agentInstanceName (owner s.pool) dev.serialNumber = none ∨
        dev.serialNumber = dev'.serialNumber
  /-- The part of a second that a report loses does not matter now. -/
  rounded : ∀ d ∈ s.nodes, ∀ dev ∈ d.cached (owner s.pool),
    (now : Int) - dev.lastSeen < gracePeriod s.pool →
      since now (truncate dev.lastSeen) ≤ gracePeriod s.pool

instance (now : Nat) (s : State) : Decidable (Current now s) :=
  decidable_of_iff (_ ∧ _ ∧ _ ∧ _)
    ⟨fun ⟨h₁, h₂, h₃, h₄⟩ => ⟨h₁, h₂, h₃, h₄⟩, fun ⟨h₁, h₂, h₃, h₄⟩ => ⟨h₁, h₂, h₃, h₄⟩⟩

/-- Reports are written for the HSMDevice of the pool and for no other, initial scans lose no
device, and agents are reconciled with a current status. -/
def Orderly (s : State) : Step → Prop
  | .discover elapsed node scan env =>
    env.patches scan.name = decide (scan.name = owner s.pool) ∧
      ∀ d ∈ s.nodes, d.nodeName = node → Finds { env with now := s.clock + elapsed } d scan
  | .aggregate .. => True
  | .agents elapsed _ => Current (s.clock + elapsed) s

instance instDecidableOrderly (s : State) : ∀ a, Decidable (Orderly s a)
  | .discover .. => inferInstanceAs (Decidable (_ ∧ ∀ d ∈ s.nodes, _))
  | .aggregate .. => inferInstanceAs (Decidable True)
  | .agents elapsed _ => inferInstanceAs (Decidable (Current (s.clock + elapsed) s))

section Scans

variable {env : Discovery.Agent.Env} {d : DiscoveryAgent}

theorem run_cases {scan : Scan} (hfinds : Finds env d scan) :
    scan.run env d = d ∨ ∃ devices, scan.run env d = record env d scan.name devices ∧
      Carried env.now (d.cached scan.name) devices := by
  cases scan with
  | initial hsmDevice =>
    simp only [Scan.run, Scan.name, processHSMDevice]
    split
    · exact .inl rfl
    split
    · exact .inl rfl
    next found hfound =>
      refine .inr ⟨found, rfl, fun old hold _ => .inl ?_⟩
      have hsome : (discoverDevicesForSpec env d.nodeName hsmDevice).toOption = some found := by
        rw [hfound]
        rfl
      obtain ⟨dev, hdev, hserial⟩ := hfinds found hsome old hold
      obtain ⟨_, _, usbDev, _, rfl⟩ := exists_usb_of_discovered hfound hdev
      exact ⟨_, hdev, hserial, rfl⟩
  | periodic hsmDevice =>
    simp only [Scan.run, Scan.name]
    split
    · unfold reconcileHSMDeviceScan
      split
      · exact .inl rfl
      next scanned _ =>
        dsimp only
        split
        · exact .inl rfl
        · exact .inr ⟨_, rfl, carried_merge env.now _ scanned⟩
    · exact .inl rfl
  | retire hsmDeviceName =>
    simp only [Scan.run, Scan.name, cleanupDevicesOf]
    split
    · exact .inr ⟨_, rfl, carried_active env.now _⟩
    · exact .inl rfl

theorem carried_run {scan : Scan} (own : String) (hfinds : Finds env d scan) :
    Carried env.now (d.cached own) ((scan.run env d).cached own) := by
  rcases run_cases hfinds with heq | ⟨devices, heq, hcarried⟩
  · rw [heq]
    exact Carried.refl env.now _
  · rw [heq]
    by_cases hname : scan.name = own
    · subst hname
      rw [cached_record_self]
      exact hcarried
    · rw [cached_record_of_ne env d scan.name devices hname]
      exact Carried.refl env.now _

theorem reports_run {scan : Scan} {own : String} (hfinds : Finds env d scan) (h : d.Reports own)
    (hpatches : env.patches scan.name = decide (scan.name = own)) :
    (scan.run env d).Reports own := by
  rcases run_cases hfinds with heq | ⟨devices, heq, -⟩
  · rw [heq]
    exact h
  · rw [heq]
    exact reports_record env d scan.name devices h hpatches

end Scans

/-- Reports agree with the caches, and a loss is on record in a cache for as long as discovery keeps
lost devices. -/
structure Inv (s : State) : Prop where
  reports : ∀ d ∈ s.nodes, d.Reports (owner s.pool)
  past : ∀ serial lost, s.lostSince serial = some lost → lost ≤ s.clock
  unavailable : ∀ serial lost, s.lostSince serial = some lost →
    availableIn s.nodes (owner s.pool) serial = false
  recorded : ∀ serial lost, serial ≠ "" → s.lostSince serial = some lost →
    (∃ d ∈ s.nodes, ∃ dev ∈ d.cached (owner s.pool),
      dev.serialNumber = serial ∧ dev.lastSeen = lost) ∨ cleanupThreshold < (s.clock : Int) - lost

theorem availableIn_iff {nodes : List DiscoveryAgent} {own serial : String} :
    availableIn nodes own serial = true ↔ ∃ d ∈ nodes, ∃ dev ∈ d.cached own,
      dev.serialNumber = serial ∧ dev.available = true := by
  simp [availableIn, List.any_eq_true]

theorem available_eq_false {nodes : List DiscoveryAgent} {own : String} {d : DiscoveryAgent}
    (hd : d ∈ nodes) {dev : DiscoveredDevice} (hdev : dev ∈ d.cached own)
    (h : availableIn nodes own dev.serialNumber = false) : dev.available = false := by
  by_contra havailable
  have hsome := availableIn_iff.mpr ⟨d, hd, dev, hdev, rfl, (Bool.not_eq_false _).mp havailable⟩
  rw [h] at hsome
  cases hsome

theorem lt_of_isStale {now : Nat} {dev : DiscoveredDevice} (h : isStale now dev = true) :
    dev.available = false ∧ cleanupThreshold < (now : Int) - dev.lastSeen := by
  unfold isStale at h
  rw [Bool.and_eq_true, Bool.not_eq_true', decide_eq_true_eq] at h
  exact ⟨h.1, lt_sub_of_lt_since (by decide) h.2⟩

theorem recorded_of_carried {nodes nodes' : List DiscoveryAgent} {own : String} {now : Nat}
    (hnodes : ∀ d ∈ nodes, ∃ d' ∈ nodes', Carried now (d.cached own) (d'.cached own))
    {d : DiscoveryAgent} (hd : d ∈ nodes) {old : DiscoveredDevice} (hold : old ∈ d.cached own)
    (hserial : old.serialNumber ≠ "") (hlost : availableIn nodes' own old.serialNumber = false) :
    (∃ d' ∈ nodes', ∃ dev ∈ d'.cached own, dev.serialNumber = old.serialNumber ∧
      dev.lastSeen = if old.available then now else old.lastSeen) ∨ isStale now old = true := by
  obtain ⟨d', hd', hcarried⟩ := hnodes d hd
  rcases hcarried old hold hserial with ⟨dev, hdev, hsame, havailable⟩ | ⟨dev, hdev, hsame⟩ | hstale
  · rw [available_eq_false hd' hdev (hsame ▸ hlost)] at havailable
    cases havailable
  · exact .inl ⟨d', hd', dev, hdev, hsame⟩
  · exact .inr hstale

section Discover

variable {s : State} {node : String} {scan : Scan} {env : Discovery.Agent.Env}

theorem carried_discover (hfinds : ∀ d ∈ s.nodes, d.nodeName = node → Finds env d scan) :
    ∀ d ∈ s.nodes, ∃ d' ∈ (discover s node scan env).nodes,
      Carried env.now (d.cached (owner s.pool)) (d'.cached (owner s.pool)) := by
  intro d hd
  refine ⟨_, List.mem_map_of_mem hd, ?_⟩
  split
  next hnode => exact carried_run (owner s.pool) (hfinds d hd hnode)
  next => exact Carried.refl env.now _

theorem lostSince_discover {serial : String} {lost : Nat}
    (h : (discover s node scan env).lostSince serial = some lost) :
    availableIn (discover s node scan env).nodes (owner s.pool) serial = false ∧
      (availableIn s.nodes (owner s.pool) serial = true ∧ lost = env.now ∨
        s.lostSince serial = some lost) := by
  simp only [discover] at h ⊢
  split at h
  · cases h
  next hafter =>
    refine ⟨Bool.eq_false_iff.mpr hafter, ?_⟩
    split at h
    next hbefore => exact .inl ⟨hbefore, (Option.some.inj h).symm⟩
    next => exact .inr h

theorem inv_discover (hinv : Inv s) (hnow : s.clock ≤ env.now)
    (hpatches : env.patches scan.name = decide (scan.name = owner s.pool))
    (hfinds : ∀ d ∈ s.nodes, d.nodeName = node → Finds env d scan) :
    Inv (discover s node scan env) := by
  have hnodes := carried_discover hfinds
  constructor
  case reports =>
    intro d hd
    obtain ⟨before, hbefore, rfl⟩ := List.mem_map.mp hd
    split
    next hnode =>
      exact reports_run (hfinds before hbefore hnode) (hinv.reports before hbefore) hpatches
    next => exact hinv.reports before hbefore
  case past =>
    intro serial lost h
    rcases (lostSince_discover h).2 with ⟨-, rfl⟩ | hlost
    · exact le_rfl
    · exact (hinv.past serial lost hlost).trans hnow
  case unavailable => exact fun serial lost h => (lostSince_discover h).1
  case recorded =>
    intro serial lost hserial h
    obtain ⟨hafter, ⟨hbefore, rfl⟩ | hlost⟩ := lostSince_discover h
    · -- the device is lost in this step, so that its entry gets the time of the step
      obtain ⟨d, hd, old, hold, rfl, havailable⟩ := availableIn_iff.mp hbefore
      rcases recorded_of_carried hnodes hd hold hserial hafter with hrecorded | hstale
      · rw [if_pos havailable] at hrecorded
        exact .inl hrecorded
      · rw [(lt_of_isStale hstale).1] at havailable
        cases havailable
    · rcases hinv.recorded serial lost hserial hlost with ⟨d, hd, old, hold, rfl, rfl⟩ | hlong
      · have havailable := available_eq_false hd hold (hinv.unavailable _ _ hlost)
        rcases recorded_of_carried hnodes hd hold hserial hafter with hrecorded | hstale
        · rw [if_neg (by rw [havailable]; exact Bool.false_ne_true)] at hrecorded
          exact .inl hrecorded
        · exact .inr (lt_of_isStale hstale).2
      · right
        change cleanupThreshold < (env.now : Int) - lost
        omega

end Discover

section Agents

variable {r : HSMPoolAgentReconciler} {s : State} {now : Nat} {serial name : String} {lost : Nat}

theorem listed_of_lost (hinv : Inv s) (hcurrent : Current now s) (hnow : s.clock ≤ now)
    (hthreshold : gracePeriod s.pool ≤ cleanupThreshold) (hserial : serial ≠ "")
    (hlost : s.lostSince serial = some lost) (hage : (now : Int) - lost < gracePeriod s.pool) :
    ∃ dev ∈ s.pool.status.aggregatedDevices, dev.serialNumber = serial ∧
      since now dev.lastSeen ≤ gracePeriod s.pool := by
  rcases hinv.recorded serial lost hserial hlost with ⟨d, hd, dev, hdev, rfl, rfl⟩ | hlong
  · refine ⟨dev.stored, hcurrent.reports.mem_iff.mpr ?_, rfl, hcurrent.rounded d hd dev hdev hage⟩
    rw [List.mem_flatMap]
    refine ⟨d, hd, ?_⟩
    rw [hinv.reports d hd]
    exact List.mem_map_of_mem hdev
  · omega

variable {dev : DiscoveredDevice} {pool : HSMPool}

theorem not_available_of_lost (hinv : Inv s) (hcurrent : Current now s)
    (hlost : s.lostSince serial = some lost)
    (hdev : dev ∈ s.pool.status.aggregatedDevices) (hserial : dev.serialNumber = serial) :
    dev.available = false := by
  obtain ⟨d, hd, hreported⟩ := List.mem_flatMap.mp (hcurrent.reports.mem_iff.mp hdev)
  rw [hinv.reports d hd] at hreported
  obtain ⟨entry, hentry, rfl⟩ := List.mem_map.mp hreported
  have hlost' : availableIn s.nodes (owner s.pool) entry.serialNumber = false :=
    hserial ▸ hinv.unavailable serial lost hlost
  have hfalse : entry.available = false := available_eq_false hd hentry hlost'
  exact hfalse

theorem mem_status_of_mem_devicesOf (h : dev ∈ devicesOf pool serial) :
    dev ∈ pool.status.aggregatedDevices ∧ dev.serialNumber = serial := by
  rw [devicesOf, List.mem_filter, decide_eq_true_eq] at h
  exact h

theorem mem_of_removable (h : Removable now pool serial) :
    ∃ dev ∈ pool.status.aggregatedDevices, dev.serialNumber = serial := by
  rcases h with ⟨dev, hdev, _⟩ | ⟨dev, hdev, _⟩
  · exact ⟨dev, mem_status_of_mem_devicesOf hdev⟩
  · have hmem := (List.mem_filter.mp (List.mem_of_getLast? hdev)).1
    exact ⟨dev, mem_status_of_mem_devicesOf hmem⟩

theorem le_absenceTimeout (h : Compatible r pool) (hpos : 0 ≤ gracePeriod pool) :
    gracePeriod pool ≤ absenceTimeout r pool := by
  have hthreshold : gracePeriod pool ≤ 300000000000 := h.threshold
  unfold absenceTimeout
  split
  next =>
    unfold Foundation.Decimal.wrapInt64 Foundation.Decimal.minInt64
    omega
  next hset => exact h.timeout.resolve_left hset

theorem not_ensured (hinv : Inv s) (hcurrent : Current now s)
    (hname : agentInstanceName (owner s.pool) serial = some name)
    (hlost : s.lostSince serial = some lost)
    (hdev : dev ∈ s.pool.status.aggregatedDevices) (hserial : dev.serialNumber = serial)
    (hseen : since now dev.lastSeen ≤ gracePeriod s.pool) {serial' : String}
    (hname' : agentInstanceName (owner s.pool) serial' = some name) :
    ¬ Removable now s.pool serial' := by
  intro hremovable
  obtain ⟨dev', hdev', rfl⟩ := mem_of_removable hremovable
  subst hserial
  have hsame : dev.serialNumber = dev'.serialNumber := by
    refine (hcurrent.distinct dev hdev dev' hdev' (hname.trans hname'.symm)).resolve_left ?_
    rw [hname]
    exact Option.some_ne_none name
  rcases hremovable with ⟨active, hactive, havailable⟩ | ⟨entry, hentry, hlong⟩
  · obtain ⟨hmem, heq⟩ := mem_status_of_mem_devicesOf hactive
    rw [not_available_of_lost hinv hcurrent hlost hmem (heq.trans hsame.symm)] at havailable
    cases havailable
  · rw [← hsame] at hentry
    have hlatest := since_anti now (hcurrent.latest dev hdev entry hentry)
    omega

theorem honoured_of_current (env : Pool.Agents.Env) (hinv : Inv s)
    (hcompatible : Compatible r s.pool) (hnow : s.clock ≤ env.now) (hcurrent : Current env.now s)
    (hname : agentInstanceName (owner s.pool) serial = some name)
    (hlost : s.lostSince serial = some lost)
    (hage : (env.now : Int) - lost < gracePeriod s.pool) :
    let out := Pool.Agents.reconcile r env s.pool s.items
    name ∉ out.ensured ∧ name ∉ out.reaped ∧ name ∉ out.cleaned := by
  have hjustified := reconcile_justified r env s.pool s.items
  have hne : serial ≠ "" := by
    rintro rfl
    rw [agentInstanceName_empty] at hname
    cases hname
  have howner {deviceName : String} (h : s.pool.ownerReferences.head? = some deviceName) :
      owner s.pool = deviceName := by
    rw [owner, List.headD_eq_head?_getD, h, Option.getD_some]
  obtain ⟨dev, hdev, hserial, hseen⟩ :=
    listed_of_lost hinv hcurrent hnow hcompatible.threshold hne hlost hage
  refine ⟨fun hx => ?_, fun hx => ?_, fun hx => ?_⟩
  · obtain ⟨deviceName, serial', hhead, hname', hremovable⟩ := hjustified.ensured name hx
    rw [← howner hhead] at hname'
    exact not_ensured hinv hcurrent hname hlost hdev hserial hseen hname' hremovable
  · obtain ⟨deviceName, hhead, hunexpected⟩ := hjustified.reaped name hx
    rw [← howner hhead] at hunexpected
    exact hunexpected (List.mem_filterMap.mpr ⟨dev, hdev, by rw [hserial, hname]⟩)
  · obtain ⟨t, htimeout, hall⟩ := isAbsent_spec (hjustified.cleaned name hx)
    have hpast := hinv.past serial lost hlost
    have hwait := le_absenceTimeout hcompatible (by omega)
    have hseen' := since_anti env.now (hall dev hdev).2
    omega

end Agents

theorem Inv.later {s s' : State} (h : Inv s) (hclock : s.clock ≤ s'.clock)
    (hnodes : s'.nodes = s.nodes) (hlost : s'.lostSince = s.lostSince)
    (howner : owner s'.pool = owner s.pool) : Inv s' := by
  constructor
  case reports =>
    rw [hnodes, howner]
    exact h.reports
  case past =>
    rw [hlost]
    exact fun serial lost hserial => (h.past serial lost hserial).trans hclock
  case unavailable =>
    rw [hlost, hnodes, howner]
    exact h.unavailable
  case recorded =>
    rw [hlost, hnodes, howner]
    intro serial lost hne hserial
    rcases h.recorded serial lost hne hserial with hrecorded | hlong
    · exact .inl hrecorded
    · exact .inr (by omega)

theorem inv_step (r : HSMPoolAgentReconciler) (s : State) (a : Step)
    (hs : Inv s ∧ Compatible r s.pool) (ha : Ready s a ∧ Orderly s a) :
    (Inv (step r s a) ∧ Compatible r (step r s a).pool) ∧ Honoured r s a := by
  obtain ⟨hinv, hcompatible⟩ := hs
  cases a with
  | discover elapsed node scan env =>
    obtain ⟨hpatches, hfinds⟩ := ha.2
    have hnow : s.clock ≤ { env with now := s.clock + elapsed }.now := Nat.le_add_right _ _
    exact ⟨⟨inv_discover hinv hnow hpatches hfinds, hcompatible⟩, trivial⟩
  | aggregate elapsed listing =>
    obtain ⟨status, hpool⟩ := reconcile_eq (poolEnv s (s.clock + elapsed) listing) s.pool
    have hstep : (step r s (.aggregate elapsed listing)).pool = { s.pool with status } := hpool
    refine ⟨⟨hinv.later (Nat.le_add_right _ _) rfl rfl ?_, ?_⟩, trivial⟩
    · rw [hstep]
      rfl
    · rw [hstep]
      exact ⟨hcompatible.threshold, hcompatible.timeout⟩
  | agents elapsed env =>
    refine ⟨⟨hinv.later (Nat.le_add_right _ _) rfl rfl rfl, hcompatible⟩, ?_⟩
    intro serial name lost hname hlost hage
    exact honoured_of_current { env with now := s.clock + elapsed } hinv hcompatible
      (Nat.le_add_right _ _) ha.2 hname hlost hage

def start (pool : HSMPool) (nodes : List String) (clock : Nat) (items : List Deployment) :
    State where
  pool
  nodes := nodes.map fun nodeName => { nodeName }
  clock
  items

theorem inv_start (pool : HSMPool) (nodes : List String) (clock : Nat) (items : List Deployment) :
    Inv (start pool nodes clock items) := by
  constructor
  case reports =>
    intro d hd
    obtain ⟨nodeName, _, rfl⟩ := List.mem_map.mp hd
    simp [DiscoveryAgent.Reports, DiscoveryAgent.cached, Annotation.devices]
  case past => rintro serial lost ⟨⟩
  case unavailable => rintro serial lost ⟨⟩
  case recorded => rintro serial lost _ ⟨⟩

/-- In an orderly run of a pool with compatible settings, the grace period is honoured. -/
theorem grace_period_honoured (r : HSMPoolAgentReconciler) (pool : HSMPool) (nodes : List String)
    (clock : Nat) (items : List Deployment) (hcompatible : Compatible r pool) {steps : List Step}
    (h : Along (step r) (fun s a => Ready s a ∧ Orderly s a) (start pool nodes clock items) steps) :
    Along (step r) (Honoured r) (start pool nodes clock items) steps :=
  Along.of_invariant (fun s => Inv s ∧ Compatible r s.pool) (inv_step r)
    ⟨inv_start pool nodes clock items, hcompatible⟩ h

private def lostOne : USBDevice := ⟨"/dev/bus/usb/001/004", "DC6A"⟩

private def keptOne : USBDevice := ⟨"/dev/bus/usb/001/007", "9F21"⟩

private def scan (elapsed : Nat) (kind : Scan) (usb : List USBDevice) : Step :=
  .discover elapsed "n1" kind { now := 0, usb := fun _ => .ok usb }

private def aggregate : Step := .aggregate 0 { desired := 1, nodes := ["n1"] }

private def agents (elapsed : Nat) : Step :=
  .agents elapsed { now := 0, serials := ["DC6A", "9F21"] }

private def unplug : List Step :=
  [scan 0 (.initial { name := "pico" }) [lostOne, keptOne], aggregate, agents 0,
    scan minute (.periodic { name := "pico" }) [keptOne]]

theorem agent_kept_for_four_minutes :
    let pool : HSMPool := { ownerReferences := ["pico"] }
    let steps := unplug ++ [aggregate, agents (4 * minute)]
    Along (step {}) (Honoured {}) (start pool ["n1"] (60 * minute) []) steps :=
  grace_period_honoured {} _ ["n1"] (60 * minute) [] ⟨by decide, by decide⟩ (by decide +kernel)

/-- With a grace period of ten minutes, the entry is retired six minutes after the loss, and then
the agent is taken for an orphan. -/
theorem retired_device_loses_agent :
    let pool : HSMPool := { ownerReferences := ["pico"], gracePeriod := some (10 * minute) }
    let steps := unplug ++ [scan (6 * minute) (.retire "pico") [], aggregate, agents 0]
    Along (step {}) Ready (start pool ["n1"] (60 * minute) []) steps ∧
      ¬ Along (step {}) (Honoured {}) (start pool ["n1"] (60 * minute) []) steps := by
  intro pool steps
  refine ⟨by decide +kernel, fun h => ?_⟩
  have hlast := (Along.append_iff.mp h).2.2.2.1
  have hkept := hlast "DC6A" "hsm-agent-pico-dc6a" (61 * minute) (by decide +kernel)
    (by decide +kernel) (by decide +kernel)
  revert hkept
  decide +kernel

end HsmSecretsOperator.System.GracePeriod
