/- source: internal/agent/manager.go
   digest: The agents that the manager tracks under composite keys, and their cleanup by prefix. -/

import Mathlib.Data.Set.Basic
import HsmSecretsOperator.Foundation.Maps
import HsmSecretsOperator.Foundation.Runs
import HsmSecretsOperator.Pool.AgentNames

set_option autoImplicit false

namespace HsmSecretsOperator.Agent.Tracking

open Discovery.Report (DiscoveredDevice)
open Foundation.Maps Foundation.Runs Foundation.Text
open Pool.Agents (agentInstanceName)
open Pool.Aggregation (HSMPool)

/-- A pod of an agent. The condition Ready is none where it is missing. -/
structure AgentPod where
  running : Bool
  podIP : String
  ready : Option Bool := none

structure AgentInfo where
  podIPs : List String
  agentName : String
  ns : String

/-- A tracked agent, and the HSMDevice for whose pool it was added. The source does not record the
latter. -/
structure Entry where
  info : AgentInfo
  addedFor : String

structure Manager where
  testMode : Bool := false
  activeAgents : Std.ExtTreeMap String Entry := ∅

/-- The answers to the listings of pods that are made for one device: the one of the health check,
and those of the wait until its timeout. -/
structure Answers where
  health : Except String (List AgentPod)
  polls : List (Except String (List AgentPod))

structure DeviceWork where
  agentName : String
  agentKey : String

def agentKey (deviceName serial : String) : String := deviceName ++ "-" ++ serial

def isAgentHealthy (health : Except String (List AgentPod)) (info : AgentInfo) : Bool :=
  if info.podIPs.isEmpty then false
  else
    match health with
    | .error _ => false
    | .ok pods => pods.any AgentPod.running

def readyPodIPs (pods : List AgentPod) : List String :=
  (pods.filter fun pod => pod.running && pod.podIP ≠ "" && pod.ready.getD true).map AgentPod.podIP

/-- The addresses of the first listing with ready pods; none at the timeout. -/
def waitForAgentReady (testMode : Bool) (polls : List (Except String (List AgentPod))) :
    Option (List String) :=
  if testMode then some ["127.0.0.1"]
  else polls.findSome? fun poll =>
    match poll with
    | .error _ => none
    | .ok pods => if (readyPodIPs pods).isEmpty then none else some (readyPodIPs pods)

def discoverAndTrackAgent (deviceName ns : String) (m : Manager) (work : DeviceWork)
    (answers : Answers) : Manager :=
  match waitForAgentReady m.testMode answers.polls with
  | none => m
  | some podIPs =>
    { m with
      activeAgents := m.activeAgents.insert work.agentKey
        { info := { podIPs, agentName := work.agentName, ns }, addedFor := deviceName } }

def removeAgentFromTracking (m : Manager) (key : String) : Manager :=
  { m with activeAgents := m.activeAgents.erase key }

/-- The turn of the loop of `EnsureAgent` for one device. -/
def ensureWork (deviceName ns : String) (m : Manager) (turn : DeviceWork × Answers) : Manager :=
  match m.activeAgents[turn.1.agentKey]? with
  | none => discoverAndTrackAgent deviceName ns m turn.1 turn.2
  | some entry =>
    if isAgentHealthy turn.2.health entry.info then m
    else discoverAndTrackAgent deviceName ns (removeAgentFromTracking m turn.1.agentKey) turn.1
      turn.2

/-- The available devices that have a name for their agent. -/
def workItems (deviceName : String) (devices : List DiscoveredDevice) : List DeviceWork :=
  devices.filterMap fun device =>
    if !device.available then none
    else (agentInstanceName deviceName device.serialNumber).map fun agentName =>
      { agentName, agentKey := agentKey deviceName device.serialNumber }

/-- A call of `EnsureAgent`, with the answers for the devices by their places among the items. -/
structure EnsureCall where
  pool : HSMPool
  ns : String
  answers : Nat → Answers

/-- `EnsureAgent`. It panics at once for a pool without an owner. -/
def ensureAgent (m : Manager) (call : EnsureCall) : Manager :=
  match call.pool.ownerReferences with
  | [] => m
  | deviceName :: _ =>
    ((workItems deviceName call.pool.status.aggregatedDevices).zipIdx.map fun item =>
      (item.1, call.answers item.2)).foldl (ensureWork deviceName call.ns) m

def cleanupAgent (m : Manager) (deviceName : String) : Manager :=
  let agentsToCleanup := m.activeAgents.keys.filter fun key => hasPrefix key (deviceName ++ "-")
  { m with
    activeAgents := agentsToCleanup.foldl (fun agents key => agents.erase key) m.activeAgents }

/-- The cleanup for the HSMDevice removes the agents that were added for it, and leaves the others
as they are. -/
def CleansExactly (m : Manager) (deviceName : String) : Prop :=
  ∀ key : String, (cleanupAgent m deviceName).activeAgents[key]? =
    m.activeAgents[key]?.filter fun entry => entry.addedFor ≠ deviceName

theorem getElem?_cleanupAgent (m : Manager) (deviceName key : String) :
    (cleanupAgent m deviceName).activeAgents[key]? =
      if hasPrefix key (deviceName ++ "-") then none else m.activeAgents[key]? := by
  rw [cleanupAgent, getElem?_foldl_erase]
  by_cases hfront : hasPrefix key (deviceName ++ "-") = true
  · rw [if_pos hfront]
    split
    next => rfl
    next habsent =>
      rw [List.mem_filter, Std.ExtTreeMap.mem_keys, and_iff_left hfront] at habsent
      exact Std.ExtTreeMap.getElem?_eq_none habsent
  · rw [if_neg hfront, if_neg]
    exact fun hmem => hfront (List.mem_filter.mp hmem).2

/-- Every tracked agent has a key of the HSMDevice that it was added for. -/
def Keyed (names : Set String) (m : Manager) : Prop :=
  ∀ (key : String) (entry : Entry), m.activeAgents[key]? = some entry →
    entry.addedFor ∈ names ∧ ∃ serial, key = agentKey entry.addedFor serial

section Calls

variable {names : Set String} {m : Manager} {deviceName ns : String}

theorem Keyed.discoverAndTrackAgent (h : Keyed names m) (hname : deviceName ∈ names)
    {work : DeviceWork} (hkey : ∃ serial, work.agentKey = agentKey deviceName serial)
    (answers : Answers) : Keyed names (discoverAndTrackAgent deviceName ns m work answers) := by
  unfold Tracking.discoverAndTrackAgent
  split
  · exact h
  · intro key entry hentry
    rcases of_getElem?_insert hentry with ⟨rfl, rfl⟩ | hentry
    · exact ⟨hname, hkey⟩
    · exact h key entry hentry

theorem Keyed.removeAgentFromTracking (h : Keyed names m) (key : String) :
    Keyed names (removeAgentFromTracking m key) := by
  intro key' entry hentry
  exact h key' entry (of_getElem?_erase hentry)

theorem Keyed.ensureWork (h : Keyed names m) (hname : deviceName ∈ names)
    {turn : DeviceWork × Answers}
    (hkey : ∃ serial, turn.1.agentKey = agentKey deviceName serial) :
    Keyed names (ensureWork deviceName ns m turn) := by
  unfold Tracking.ensureWork
  split
  · exact h.discoverAndTrackAgent hname hkey turn.2
  split
  · exact h
  · exact (h.removeAgentFromTracking turn.1.agentKey).discoverAndTrackAgent hname hkey turn.2

theorem agentKey_of_mem_workItems {devices : List DiscoveredDevice} {work : DeviceWork}
    (h : work ∈ workItems deviceName devices) :
    ∃ serial, work.agentKey = agentKey deviceName serial := by
  obtain ⟨device, -, hwork⟩ := List.mem_filterMap.mp h
  split at hwork
  · cases hwork
  · obtain ⟨agentName, -, rfl⟩ := Option.map_eq_some_iff.mp hwork
    exact ⟨device.serialNumber, rfl⟩

theorem Keyed.ensureAgent (h : Keyed names m) {call : EnsureCall}
    (howner : ∀ deviceName ∈ call.pool.ownerReferences.head?, deviceName ∈ names) :
    Keyed names (ensureAgent m call) := by
  unfold Tracking.ensureAgent
  split
  · exact h
  next deviceName owners howners =>
    rw [howners] at howner
    refine List.foldlRecOn _ _ h fun m hm turn hturn => ?_
    obtain ⟨item, hitem, rfl⟩ := List.mem_map.mp hturn
    exact hm.ensureWork (howner deviceName rfl)
      (agentKey_of_mem_workItems (List.fst_mem_of_mem_zipIdx hitem))

theorem keyed_run (testMode : Bool) {calls : List EnsureCall}
    (howners : ∀ call ∈ calls, ∀ deviceName ∈ call.pool.ownerReferences.head?,
      deviceName ∈ names) :
    Keyed names (run ensureAgent { testMode } calls) := by
  have hempty : Keyed names { testMode } := by
    intro key entry hentry
    simp at hentry
  exact List.foldlRecOn _ _ hempty fun m hm call hcall => hm.ensureAgent (howners call hcall)

end Calls

theorem eq_or_continues {d e : String} (h : hasPrefix (d ++ "-") (e ++ "-") = true) :
    e = d ∨ hasPrefix d (e ++ "-") = true := by
  simp only [hasPrefix, List.isPrefixOf_iff_prefix, String.toList_append] at h ⊢
  obtain ⟨rest, hrest⟩ := h
  rcases List.eq_nil_or_concat rest with rfl | ⟨rest', c, rfl⟩
  · left
    rw [List.append_nil] at hrest
    exact String.toList_inj.mp (List.append_cancel_right hrest)
  · right
    rw [List.concat_eq_append, ← List.append_assoc] at hrest
    exact ⟨rest', (List.append_inj' hrest rfl).1⟩

theorem eq_of_hasPrefix_agentKey {names : Set String}
    (hnames : ∀ d ∈ names, ∀ e ∈ names, hasPrefix e (d ++ "-") = false) {d e serial : String}
    (hd : d ∈ names) (he : e ∈ names)
    (h : hasPrefix (agentKey e serial) (d ++ "-") = true) : e = d := by
  have hself : hasPrefix (agentKey e serial) (e ++ "-") = true := hasPrefix_append _ _
  rcases hasPrefix_or_hasPrefix h hself with h | h
  · rcases eq_or_continues h with heq | hcontinues
    · exact heq
    · rw [hnames e he d hd] at hcontinues
      cases hcontinues
  · rcases eq_or_continues h with heq | hcontinues
    · exact heq.symm
    · rw [hnames d hd e he] at hcontinues
      cases hcontinues

theorem cleansExactly_of_keyed {names : Set String}
    (hnames : ∀ d ∈ names, ∀ e ∈ names, hasPrefix e (d ++ "-") = false) {m : Manager}
    (hm : Keyed names m) {d : String} (hd : d ∈ names) : CleansExactly m d := by
  intro key
  rw [getElem?_cleanupAgent]
  cases hentry : m.activeAgents[key]? with
  | none =>
    split
    · rfl
    · rfl
  | some entry =>
    obtain ⟨hname, serial, rfl⟩ := hm key entry hentry
    rw [Option.filter_some]
    by_cases howner : entry.addedFor = d
    · have hfront : hasPrefix (agentKey entry.addedFor serial) (d ++ "-") = true := by
        rw [howner]
        exact hasPrefix_append _ _
      rw [if_pos hfront, if_neg (by simpa using howner)]
    · have hfront : ¬ hasPrefix (agentKey entry.addedFor serial) (d ++ "-") = true :=
        fun h => howner (eq_of_hasPrefix_agentKey hnames hd hname h)
      rw [if_neg hfront, if_pos (decide_eq_true howner)]

def callFor (deviceName serial : String) : EnsureCall where
  pool :=
    { ownerReferences := [deviceName]
      status :=
        { aggregatedDevices :=
            [{ devicePath := "/dev/bus/usb/001/004", serialNumber := serial, nodeName := "n1"
               lastSeen := 0, available := true }] } }
  ns := "hsm"
  answers _ := { health := .ok [], polls := [.ok [{ running := true, podIP := "10.0.0.4" }]] }

theorem addedFor_callFor (testMode : Bool) (deviceName : String) {serial : String}
    (hserial : Pool.Agents.sanitizeNameSegment serial ≠ []) :
    (ensureAgent { testMode } (callFor deviceName serial)).activeAgents[
      agentKey deviceName serial]?.map Entry.addedFor = some deviceName := by
  have hsome : (Pool.Agents.agentInstanceName deviceName serial).isSome = true :=
    Pool.AgentNames.isSome_agentInstanceName_iff.mpr hserial
  obtain ⟨agentName, hname⟩ := Option.isSome_iff_exists.mp hsome
  have hitems : workItems deviceName (callFor deviceName serial).pool.status.aggregatedDevices =
      [{ agentName, agentKey := agentKey deviceName serial }] := by
    simp [workItems, callFor, hname]
  obtain ⟨podIPs, hready⟩ : ∃ podIPs, waitForAgentReady testMode
      [.ok [{ running := true, podIP := "10.0.0.4" }]] = some podIPs := by
    cases testMode with
    | true => exact ⟨_, rfl⟩
    | false => exact ⟨_, rfl⟩
  have howner : (callFor deviceName serial).pool.ownerReferences = [deviceName] := rfl
  rw [ensureAgent, howner]
  dsimp only
  rw [hitems]
  simp [ensureWork, discoverAndTrackAgent, callFor, hready]

/-- However `EnsureAgent` is called for the pools of a set of HSMDevices, the cleanup for each of
them takes exactly the agents that were added for it, exactly if no name continues another one
behind a dash. -/
theorem cleanup_exact_iff (testMode : Bool) (names : Set String) :
    (∀ calls : List EnsureCall, (∀ call ∈ calls, ∀ deviceName ∈ call.pool.ownerReferences.head?,
        deviceName ∈ names) →
      ∀ d ∈ names, CleansExactly (run ensureAgent { testMode } calls) d) ↔
    ∀ d ∈ names, ∀ e ∈ names, hasPrefix e (d ++ "-") = false := by
  constructor
  · intro h d hd e he
    by_contra hfront
    rw [Bool.not_eq_false] at hfront
    -- One agent of the longer name is tracked, and the shorter one is cleaned up.
    have hexact := h [callFor e "1"]
      (by
        intro call hcall deviceName howner
        obtain rfl := List.mem_singleton.mp hcall
        obtain rfl := Option.some.inj howner
        exact he) d hd (agentKey e "1")
    have hsanitized : Pool.Agents.sanitizeNameSegment "1" ≠ [] := by decide
    have hadded := addedFor_callFor testMode e hsanitized
    have hkey : hasPrefix (agentKey e "1") (d ++ "-") = true := by
      rw [agentKey, String.append_assoc]
      exact Foundation.Text.hasPrefix_trans (hasPrefix_append _ _) hfront
    obtain ⟨entry, hentry, howner⟩ := Option.map_eq_some_iff.mp hadded
    rw [getElem?_cleanupAgent, if_pos hkey, run_cons, run_nil, hentry, Option.filter_some] at hexact
    split at hexact
    · cases hexact
    next hsame =>
      have heq : e = d := by simpa [howner] using hsame
      subst heq
      obtain ⟨rest, hrest⟩ := hasPrefix_iff.mp hfront
      have hlength := congrArg String.length hrest
      rw [String.length_append, String.length_append] at hlength
      have hdash : "-".length = 1 := rfl
      omega
  · intro hnames calls howners d hd
    exact cleansExactly_of_keyed hnames (keyed_run testMode howners) hd

/-- The cleanup for pico takes the agent that was added for the pool of pico-2. -/
theorem cleanup_takes_other_device :
    let m := run ensureAgent {} [callFor "pico-2" "DC6A"]
    m.activeAgents["pico-2-DC6A"]?.map Entry.addedFor = some "pico-2" ∧
      (cleanupAgent m "pico").activeAgents["pico-2-DC6A"]? = none := by
  refine ⟨addedFor_callFor false "pico-2" (by decide), ?_⟩
  rw [getElem?_cleanupAgent, if_pos (by decide)]

end HsmSecretsOperator.Agent.Tracking
