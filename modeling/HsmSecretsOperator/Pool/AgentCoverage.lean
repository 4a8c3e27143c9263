/- source: internal/controller/hsmpool_agent_controller.go, internal/agent/naming.go
   digest: Which available devices have an agent on their node once the loop over them has run. -/

import Mathlib.Data.List.Dedup
import HsmSecretsOperator.Pool.Agents

set_option autoImplicit false

namespace HsmSecretsOperator.Pool.AgentCoverage

open Agents
open Aggregation (HSMPool)
open Discovery.Report

/-- No call of the loop fails, and discovery is current on every node. -/
structure Undisturbed (env : Env) : Prop where
  get : ∀ name, env.getError name = none
  delete : ∀ name, env.deleteError .ensure name = none
  create : ∀ name, env.createError name = none
  update : ∀ deployment, ∃ b, env.agentNeedsUpdate deployment = .ok b
  current : ∀ gate nodeName, env.discoveryCurrentOnNode gate nodeName = .ok none

/-- The keys of the map in which the loop groups the devices of a pool. -/
def serialsOf (pool : HSMPool) : List String :=
  (pool.status.aggregatedDevices.map DiscoveredDevice.serialNumber).dedup

/-- The node to which the deployment of a name is pinned. -/
def nodeOf (items : List Deployment) (name : String) : Option String :=
  (items.find? fun d => d.name = name).bind Deployment.hostname

/-- The deployment of a name runs on the node of an available entry of the serial number. -/
def RunsFor (pool : HSMPool) (items : List Deployment) (serial name : String) : Prop :=
  ∃ dev ∈ devicesOf pool serial, dev.available = true ∧ nodeOf items name = some dev.nodeName

/-- Every serial number with an available entry has an agent on the node of such an entry. -/
def Covered (pool : HSMPool) (deviceName : String) (items : List Deployment) : Prop :=
  ∀ serial name, agentInstanceName deviceName serial = some name →
    (∃ dev ∈ devicesOf pool serial, dev.available = true) → RunsFor pool items serial name

section Decision

variable (now : Nat) (pool : HSMPool) (serial : String)

/-- The serial number is available at an entry, and not lost for as long as the grace period. -/
def Deploys (active : DiscoveredDevice) : Prop :=
  activeDevice (devicesOf pool serial) = some active ∧
    ∀ lost, lostDevice (devicesOf pool serial) = some lost →
      since now lost.lastSeen < gracePeriod pool

/-- The serial number is available nowhere, and lost for longer than the grace period. -/
def Retires : Prop :=
  activeDevice (devicesOf pool serial) = none ∧
    ∃ lost, lostDevice (devicesOf pool serial) = some lost ∧
      gracePeriod pool < since now lost.lastSeen

end Decision

section Calls

variable {env : Env} {deviceName : String} {device : DiscoveredDevice} {agentName : String}

private theorem nodeOf_append_singleton {items : List Deployment} {d : Deployment}
    (habsent : ∀ x ∈ items, x.name ≠ d.name) (x : String) :
    nodeOf (items ++ [d]) x = if x = d.name then d.hostname else nodeOf items x := by
  unfold nodeOf
  rw [List.find?_append]
  split
  next hx =>
    have hnone : items.find? (fun y => y.name = x) = none := by
      refine List.find?_eq_none.mpr fun y hy => ?_
      simpa [hx] using habsent y hy
    rw [hnone, hx]
    simp
  next hx =>
    have hlast : [d].find? (fun y => y.name = x) = none := by simpa using Ne.symm hx
    rw [hlast, Option.or_none]

private theorem nodeOf_filter (items : List Deployment) (name x : String) :
    nodeOf (items.filter fun d => d.name ≠ name) x =
      if x = name then none else nodeOf items x := by
  unfold nodeOf
  rw [List.find?_filter]
  split
  next hx =>
    have hnone : items.find? (fun d =>
        decide (decide (d.name ≠ name) = true ∧ decide (d.name = x) = true)) = none := by
      refine List.find?_eq_none.mpr fun y _ => ?_
      simp [hx]
    rw [hnone, Option.bind_none]
  next hx =>
    have hsame : (fun d : Deployment =>
        decide (decide (d.name ≠ name) = true ∧ decide (d.name = x) = true)) =
        fun d => decide (d.name = x) := by
      funext d
      by_cases hd : d.name = x
      · simp [hd, hx]
      · simp [hd]
    rw [hsame]

variable (henv : Undisturbed env)
include henv

theorem nodeOf_delete (ds : Deployments) (name x : String) :
    nodeOf (delete env .ensure ds name).1.items x =
      if x = name then none else nodeOf ds.items x := by
  unfold delete
  rw [henv.delete name]
  dsimp only
  split
  next => exact nodeOf_filter ds.items name x
  next habsent =>
    dsimp only
    split
    next hx =>
      have hnone : ds.items.find? (fun d => d.name = x) = none := by
        refine List.find?_eq_none.mpr fun y hy hyx => habsent (List.any_eq_true.mpr ⟨y, hy, ?_⟩)
        rw [← hx]
        exact hyx
      unfold nodeOf
      rw [hnone, Option.bind_none]
    next => rfl

private theorem delete_eq (ds : Deployments) (name : String) :
    delete env .ensure ds name = ((delete env .ensure ds name).1, none) := by
  refine Prod.ext rfl ?_
  unfold delete
  rw [henv.delete name]
  dsimp only
  split <;> rfl

private theorem name_ne_of_deleted (ds : Deployments) (name : String) :
    ∀ d ∈ (delete env .ensure ds name).1.items, d.name ≠ name := by
  unfold delete
  rw [henv.delete name]
  dsimp only
  split
  next =>
    intro d hd
    simpa using (List.mem_filter.mp hd).2
  next habsent =>
    intro d hd hname
    exact habsent (List.any_eq_true.mpr ⟨d, hd, decide_eq_true hname⟩)

private theorem nodeOf_createAgent {ds : Deployments}
    (habsent : ∀ d ∈ ds.items, d.name ≠ agentName) (x : String) :
    nodeOf ((access env deviceName device agentName).createAgent device.nodeName ds).1.items x =
      if x = agentName then some device.nodeName else nodeOf ds.items x := by
  unfold Access.createAgent
  simp only [access, henv.current, gateOnDiscovery, henv.create]
  exact nodeOf_append_singleton habsent x

private theorem nodeOf_recreateAgent (ds : Deployments) (x : String) :
    nodeOf ((access env deviceName device agentName).recreateAgent device.nodeName ds).1.items x =
      if x = agentName then some device.nodeName else nodeOf ds.items x := by
  have hgate : gateOnDiscovery (access env deviceName device agentName).beforeDelete
      device.nodeName = none := by simp only [access, henv.current, gateOnDiscovery]
  have hdelete : (access env deviceName device agentName).delete ds =
      ((delete env .ensure ds agentName).1, none) := delete_eq henv ds agentName
  simp only [Access.recreateAgent, hgate, hdelete]
  rw [nodeOf_createAgent henv (name_ne_of_deleted henv ds agentName), nodeOf_delete henv]
  split <;> rfl

theorem nodeOf_ensureAgentOnNode (ds : Deployments) (x : String) :
    nodeOf (ensureAgentOnNode env deviceName device agentName ds).1.items x =
      if x = agentName then some device.nodeName else nodeOf ds.items x := by
  have hget : (access env deviceName device agentName).get ds =
      .ok (ds.items.find? fun d => d.name = agentName) := by simp only [access, henv.get]
  simp only [ensureAgentOnNode, Access.ensureAgentOnNode, hget]
  cases hfind : ds.items.find? fun d => d.name = agentName with
  | none =>
    refine nodeOf_createAgent henv (fun d hd hname => ?_) x
    exact List.find?_eq_none.mp hfind d hd (decide_eq_true hname)
  | some deployment =>
    obtain ⟨b, hb⟩ := henv.update deployment
    dsimp only
    cases hneeds : (access env deviceName device agentName).needsRecreation deployment with
    | error e =>
      simp only [access, recreationNeeded, hb] at hneeds
      split at hneeds <;> cases hneeds
    | ok needed =>
      cases needed with
      | true => exact nodeOf_recreateAgent henv ds x
      | false =>
        dsimp only
        split
        next hx =>
          -- the deployment is on the node already
          have hhost : deployment.hostname = some device.nodeName := by
            simp only [access, recreationNeeded] at hneeds
            split at hneeds
            · cases hneeds
            next hnode => simpa [isDeploymentOnNode] using hnode
          unfold nodeOf
          rw [hx, hfind]
          exact hhost
        next => rfl

end Calls

section Loop

variable {env : Env} {pool : HSMPool} {deviceName serial name : String}

theorem ensureSerial_of_idle (hdeploys : ∀ active, ¬ Deploys env.now pool serial active)
    (hretires : ¬ Retires env.now pool serial) (p : Progress) :
    ensureSerial env pool deviceName p serial = p := by
  unfold ensureSerial
  cases hname : agentInstanceName deviceName serial with
  | none => rfl
  | some agentName =>
    dsimp only
    cases hactive : activeDevice (devicesOf pool serial) with
    | none =>
      cases hlost : lostDevice (devicesOf pool serial) with
      | none => rfl
      | some lost => exact if_neg fun hold => hretires ⟨hactive, lost, hlost, hold⟩
    | some active =>
      cases hlost : lostDevice (devicesOf pool serial) with
      | none =>
        refine absurd ⟨hactive, fun lost h => ?_⟩ (hdeploys active)
        rw [hlost] at h
        cases h
      | some lost =>
        refine if_neg fun hrecent => hdeploys active ⟨hactive, fun lost' h => ?_⟩
        rw [hlost] at h
        obtain rfl := Option.some.inj h
        exact hrecent

variable (henv : Undisturbed env)
include henv

theorem nodeOf_ensureSerial_of_deploys
    (hname : agentInstanceName deviceName serial = some name) {active : DiscoveredDevice}
    (h : Deploys env.now pool serial active) (p : Progress) (x : String) :
    nodeOf (ensureSerial env pool deviceName p serial).deployments.items x =
      if x = name then some active.nodeName else nodeOf p.deployments.items x := by
  obtain ⟨hactive, hrecent⟩ := h
  unfold ensureSerial
  rw [hname]
  dsimp only
  rw [hactive]
  cases hlost : lostDevice (devicesOf pool serial) with
  | none =>
    dsimp only
    rw [deployments_collect]
    exact nodeOf_ensureAgentOnNode henv p.deployments x
  | some lost =>
    dsimp only
    rw [if_pos (hrecent lost hlost), deployments_collect]
    exact nodeOf_ensureAgentOnNode henv p.deployments x

theorem nodeOf_ensureSerial_of_retires
    (hname : agentInstanceName deviceName serial = some name)
    (h : Retires env.now pool serial) (p : Progress) (x : String) :
    nodeOf (ensureSerial env pool deviceName p serial).deployments.items x =
      if x = name then none else nodeOf p.deployments.items x := by
  obtain ⟨hactive, lost, hlost, hold⟩ := h
  unfold ensureSerial
  rw [hname]
  dsimp only
  rw [hactive, hlost]
  dsimp only
  rw [if_pos hold, delete_eq henv p.deployments name]
  exact nodeOf_delete henv p.deployments name x

theorem nodeOf_ensureSerial_of_ne
    (hne : agentInstanceName deviceName serial ≠ some name) (p : Progress) :
    nodeOf (ensureSerial env pool deviceName p serial).deployments.items name =
      nodeOf p.deployments.items name := by
  cases hname : agentInstanceName deviceName serial with
  | none =>
    unfold ensureSerial
    rw [hname]
  | some other =>
    have hother : name ≠ other := fun heq => hne (by rw [hname, heq])
    by_cases hdeploys : ∃ active, Deploys env.now pool serial active
    · obtain ⟨active, hdeploys⟩ := hdeploys
      rw [nodeOf_ensureSerial_of_deploys henv hname hdeploys, if_neg hother]
    by_cases hretires : Retires env.now pool serial
    · rw [nodeOf_ensureSerial_of_retires henv hname hretires, if_neg hother]
    · rw [ensureSerial_of_idle (not_exists.mp hdeploys) hretires]

end Loop

section Coverage

variable (now : Nat) (pool : HSMPool) (deviceName : String) (items : List Deployment)

/-- The loop leaves every available device with an agent, whatever the order of the map. -/
def CoversAll : Prop :=
  ∀ env : Env, Undisturbed env → env.now = now → env.serials.Perm (serialsOf pool) →
    Covered pool deviceName (ensureAgentDeployments env pool deviceName items).1.items

/-- For each available serial number, the ones that share its name agree on its nodes: none of them
is retired, each that is deployed is so on a node where the first is available, and unless one is
deployed the agent runs on such a node already. -/
structure Agreed (serial name : String) : Prop where
  kept : ∀ other ∈ serialsOf pool, agentInstanceName deviceName other = some name →
    ¬ Retires now pool other
  placed : ∀ other ∈ serialsOf pool, agentInstanceName deviceName other = some name →
    ∀ active, Deploys now pool other active →
      ∃ dev ∈ devicesOf pool serial, dev.available = true ∧ dev.nodeName = active.nodeName
  started : (∃ other ∈ serialsOf pool, agentInstanceName deviceName other = some name ∧
      ∃ active, Deploys now pool other active) ∨ RunsFor pool items serial name

variable {now pool deviceName items}

/-- The agent of a name runs where a serial number is available, once a turn has started it or if it
did before: the invariant of the loop. -/
private theorem runsFor_foldl {env : Env} (henv : Undisturbed env) {serial name : String}
    (h : Agreed env.now pool deviceName items serial name) (serials : List String)
    (hsub : ∀ other ∈ serials, other ∈ serialsOf pool) (p : Progress)
    (hp : (∃ other ∈ serials, agentInstanceName deviceName other = some name ∧
      ∃ active, Deploys env.now pool other active) ∨
        RunsFor pool p.deployments.items serial name) :
    RunsFor pool (serials.foldl (ensureSerial env pool deviceName) p).deployments.items
      serial name := by
  induction serials generalizing p with
  | nil => exact hp.resolve_left fun ⟨_, hother, _⟩ => absurd hother List.not_mem_nil
  | cons first serials ih =>
    have hfirst := hsub first List.mem_cons_self
    refine ih (fun other hother => hsub other (List.mem_cons_of_mem first hother)) _ ?_
    by_cases hname : agentInstanceName deviceName first = some name
    · by_cases hdeploys : ∃ active, Deploys env.now pool first active
      · obtain ⟨active, hdeploys⟩ := hdeploys
        obtain ⟨dev, hdev, havailable, hnode⟩ := h.placed first hfirst hname active hdeploys
        refine .inr ⟨dev, hdev, havailable, ?_⟩
        rw [nodeOf_ensureSerial_of_deploys henv hname hdeploys, if_pos rfl, hnode]
      · rw [ensureSerial_of_idle (not_exists.mp hdeploys) (h.kept first hfirst hname)]
        rcases hp with ⟨other, hother, hrest⟩ | hp
        · rcases List.mem_cons.mp hother with rfl | hother
          · exact absurd hrest.2 hdeploys
          · exact .inl ⟨other, hother, hrest⟩
        · exact .inr hp
    · rcases hp with ⟨other, hother, hrest⟩ | ⟨dev, hdev, havailable, hnode⟩
      · rcases List.mem_cons.mp hother with rfl | hother
        · exact absurd hrest.1 hname
        · exact .inl ⟨other, hother, hrest⟩
      · refine .inr ⟨dev, hdev, havailable, ?_⟩
        rw [nodeOf_ensureSerial_of_ne henv hname, hnode]

private theorem nodeOf_foldl_of_idle {env : Env} (henv : Undisturbed env) {name : String}
    (serials : List String)
    (hdeploys : ∀ other ∈ serials, agentInstanceName deviceName other = some name →
      ∀ active, ¬ Deploys env.now pool other active)
    (hretires : ∀ other ∈ serials, agentInstanceName deviceName other = some name →
      ¬ Retires env.now pool other) (p : Progress) :
    nodeOf (serials.foldl (ensureSerial env pool deviceName) p).deployments.items name =
      nodeOf p.deployments.items name := by
  induction serials generalizing p with
  | nil => rfl
  | cons first serials ih =>
    rw [List.foldl_cons, ih (fun other hother => hdeploys other (List.mem_cons_of_mem first hother))
      (fun other hother => hretires other (List.mem_cons_of_mem first hother))]
    by_cases hname : agentInstanceName deviceName first = some name
    · rw [ensureSerial_of_idle (hdeploys first List.mem_cons_self hname)
        (hretires first List.mem_cons_self hname)]
    · exact nodeOf_ensureSerial_of_ne henv hname p

/-- The reconcile whose map yields a given serial number last. -/
private def lastTurn (now : Nat) (pool : HSMPool) (serial : String) : Env :=
  { now, serials := (serialsOf pool).erase serial ++ [serial] }

private theorem undisturbed_lastTurn (now : Nat) (pool : HSMPool) (serial : String) :
    Undisturbed (lastTurn now pool serial) where
  get _ := rfl
  delete _ := rfl
  create _ := rfl
  update _ := ⟨false, rfl⟩
  current _ _ := rfl

private theorem serials_lastTurn {serial : String} (h : serial ∈ serialsOf pool) :
    (lastTurn now pool serial).serials.Perm (serialsOf pool) :=
  List.perm_append_comm.trans (List.perm_cons_erase h).symm

private theorem CoversAll.lastTurn (h : CoversAll now pool deviceName items)
    {serial name other : String} (hname : agentInstanceName deviceName serial = some name)
    (havailable : ∃ dev ∈ devicesOf pool serial, dev.available = true)
    (hother : other ∈ serialsOf pool) :
    ∃ p : Progress, RunsFor pool (ensureSerial (AgentCoverage.lastTurn now pool other) pool
      deviceName p other).deployments.items serial name := by
  have hruns := h (AgentCoverage.lastTurn now pool other) (undisturbed_lastTurn now pool other) rfl
    (serials_lastTurn hother) serial name hname havailable
  rw [deployments_ensureAgentDeployments] at hruns
  have hserials : (AgentCoverage.lastTurn now pool other).serials =
      (serialsOf pool).erase other ++ [other] := rfl
  rw [hserials, List.foldl_append] at hruns
  exact ⟨_, hruns⟩

private theorem CoversAll.agreed (h : CoversAll now pool deviceName items) {serial name : String}
    (hname : agentInstanceName deviceName serial = some name)
    (havailable : ∃ dev ∈ devicesOf pool serial, dev.available = true) :
    Agreed now pool deviceName items serial name := by
  have hkept : ∀ other ∈ serialsOf pool, agentInstanceName deviceName other = some name →
      ¬ Retires now pool other := by
    intro other hother hsame hretires
    obtain ⟨p, dev, -, -, hnode⟩ := h.lastTurn hname havailable hother
    rw [nodeOf_ensureSerial_of_retires (undisturbed_lastTurn now pool other) hsame hretires,
      if_pos rfl] at hnode
    cases hnode
  refine ⟨hkept, fun other hother hsame active hdeploys => ?_, ?_⟩
  · obtain ⟨p, dev, hdev, hdevAvailable, hnode⟩ := h.lastTurn hname havailable hother
    rw [nodeOf_ensureSerial_of_deploys (undisturbed_lastTurn now pool other) hsame hdeploys,
      if_pos rfl] at hnode
    exact ⟨dev, hdev, hdevAvailable, (Option.some.inj hnode).symm⟩
  · by_cases hstarts : ∃ other ∈ serialsOf pool, agentInstanceName deviceName other = some name ∧
        ∃ active, Deploys now pool other active
    · exact .inl hstarts
    -- no turn touches the agent, so it must have run on the right node before
    · let env : Env := { now, serials := serialsOf pool }
      have henv : Undisturbed env :=
        ⟨fun _ => rfl, fun _ => rfl, fun _ => rfl, fun _ => ⟨false, rfl⟩, fun _ _ => rfl⟩
      obtain ⟨dev, hdev, hdevAvailable, hnode⟩ :=
        h env henv rfl (List.Perm.refl _) serial name hname havailable
      rw [deployments_ensureAgentDeployments, nodeOf_foldl_of_idle henv (serialsOf pool)
        (fun other hother hsame active hdeploys =>
          hstarts ⟨other, hother, hsame, active, hdeploys⟩) hkept] at hnode
      exact .inr ⟨dev, hdev, hdevAvailable, hnode⟩

/-- Every available device gets an agent on its node exactly if the serial numbers that share its
agent's name agree on it, and one of them is deployed or the agent runs there already. -/
theorem coversAll_iff_agreed (now : Nat) (pool : HSMPool) (deviceName : String)
    (items : List Deployment) :
    CoversAll now pool deviceName items ↔
      ∀ serial name, agentInstanceName deviceName serial = some name →
        (∃ dev ∈ devicesOf pool serial, dev.available = true) →
          Agreed now pool deviceName items serial name := by
  constructor
  · intro h serial name hname havailable
    exact h.agreed hname havailable
  · rintro h env henv rfl hserials serial name hname havailable
    have hagreed := h serial name hname havailable
    rw [deployments_ensureAgentDeployments]
    refine runsFor_foldl henv hagreed env.serials (fun other hother => hserials.subset hother) _ ?_
    rcases hagreed.started with ⟨other, hother, hrest⟩ | hruns
    · exact .inl ⟨other, hserials.symm.subset hother, hrest⟩
    · exact .inr hruns

end Coverage

/-- The device is available on n2, and the entry of its loss on n1 is an hour old. -/
private def movedPool : HSMPool where
  ownerReferences := ["pico"]
  status :=
    { phase := .ready
      aggregatedDevices :=
        [{ devicePath := "/dev/bus/usb/001/004", serialNumber := "DC6A", nodeName := "n1"
           lastSeen := 60 * minute, available := false },
         { devicePath := "/dev/bus/usb/001/002", serialNumber := "DC6A", nodeName := "n2"
           lastSeen := 120 * minute, available := true }] }

theorem moved_device_without_agent : ¬ CoversAll (120 * minute) movedPool "pico" [] := by
  intro h
  have henv : Undisturbed { now := 120 * minute, serials := ["DC6A"] } :=
    ⟨fun _ => rfl, fun _ => rfl, fun _ => rfl, fun _ => ⟨false, rfl⟩, fun _ _ => rfl⟩
  obtain ⟨dev, -, -, hnode⟩ := h _ henv rfl (by decide) "DC6A" "hsm-agent-pico-dc6a" (by decide)
    ⟨_, List.mem_cons_of_mem _ List.mem_cons_self, rfl⟩
  have hnone : nodeOf (ensureAgentDeployments { now := 120 * minute, serials := ["DC6A"] }
      movedPool "pico" []).1.items "hsm-agent-pico-dc6a" = none := by
    decide +kernel
  rw [hnone] at hnode
  cases hnode

end HsmSecretsOperator.Pool.AgentCoverage
