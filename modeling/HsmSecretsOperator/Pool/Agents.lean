/- source: internal/controller/hsmpool_agent_controller.go, internal/agent/naming.go
   digest: The controller of agent deployments, with the three routines that delete them. -/

import Mathlib.Data.List.DropRight
import HsmSecretsOperator.Pool.Aggregation

set_option autoImplicit false

namespace HsmSecretsOperator.Pool.Agents

open Aggregation hiding Env reconcile
open Discovery.Report Foundation.Decimal

def agentNamePrefix : String := "hsm-agent"

def maxAgentNameLength : Nat := 63

def sanitizeChar (c : Char) : Char :=
  if 'a' ≤ c ∧ c ≤ 'z' then c
  else if '0' ≤ c ∧ c ≤ '9' then c
  else if 'A' ≤ c ∧ c ≤ 'Z' then c.toLower
  else '-'

/-- The characters of the segment, without the dashes at either end. -/
def sanitizeNameSegment (value : String) : List Char :=
  ((value.toList.map sanitizeChar).dropWhile (· = '-')).rdropWhile (· = '-')

/-- `AgentInstanceName`; names are cut by characters, as those of resources are ASCII. -/
def agentInstanceName (deviceName serial : String) : Option String :=
  let safeSerial := sanitizeNameSegment serial
  if safeSerial.isEmpty then none
  else
    let name := (agentNamePrefix ++ "-" ++ deviceName ++ "-").toList ++ safeSerial
    if name.length > maxAgentNameLength then
      some (String.ofList ((name.take maxAgentNameLength).rdropWhile (· = '-')))
    else some (String.ofList name)

theorem agentInstanceName_empty (deviceName : String) :
    agentInstanceName deviceName "" = none := rfl

structure Deployment where
  name : String
  /-- The label app.kubernetes.io/name. -/
  appName : Option String
  /-- The label hsm.j5t.io/device. -/
  hsmDevice : Option String
  /-- The hostname in the node selector of the pods; none without a selector. -/
  hostname : Option String
  deriving DecidableEq

/-- The deployments of the namespace, and the names of those that a routine has deleted so far. -/
structure Deployments where
  items : List Deployment
  deleted : List String := []

inductive AgentError where
  | discoveryNotReady (text : String)
  | failed (text : String)
  deriving DecidableEq

/-- The places at which an agent waits for the discovery pod of the node. -/
inductive Gate where
  | recreate (agentName : String)
  | create (agentName : String)

inductive Routine where
  | ensure
  | reap
  | cleanup

structure HSMPoolAgentReconciler where
  deviceAbsenceTimeout : Int := 0

/-- What a reconcile of a pool's agents meets. A call that can fail yields its error text. -/
structure Env where
  now : Nat
  /-- The HSMDevice can be fetched before agents are deployed, and before they are cleaned up. -/
  deviceForAgents : Bool := true
  deviceForCleanup : Bool := true
  /-- The serial numbers in the order in which the map of devices yields them. -/
  serials : List String
  getError : String → Option String := fun _ => none
  deleteError : Routine → String → Option String := fun _ _ => none
  createError : String → Option String := fun _ => none
  listError : Routine → Option String := fun _ => none
  agentNeedsUpdate : Deployment → Except String Bool := fun _ => .ok false
  deploymentNeedsUpdateForDevice : Deployment → DiscoveredDevice → Bool := fun _ _ => false
  /-- `discoveryCurrentOnNode`: the reason why the discovery pod is not current, if it is not. -/
  discoveryCurrentOnNode : Gate → String → Except String (Option String) := fun _ _ => .ok none

/-- A `Delete` call; a deployment that is not there counts as deleted. -/
def delete (env : Env) (routine : Routine) (ds : Deployments) (name : String) :
    Deployments × Option String :=
  match env.deleteError routine name with
  | some e => (ds, some e)
  | none =>
    if ds.items.any fun d => d.name = name then
      ({ items := ds.items.filter fun d => d.name ≠ name, deleted := ds.deleted ++ [name] }, none)
    else (ds, none)

def isDeploymentOnNode (deployment : Deployment) (nodeName : String) : Bool :=
  deployment.hostname = some nodeName

/-- The wait for the discovery pod, by the reason why it is not current, if it is not. -/
def gateOnDiscovery (current : Except String (Option String)) (nodeName : String) :
    Option AgentError :=
  match current with
  | .error e => some (.failed e)
  | .ok none => none
  | .ok (some reason) => some (.discoveryNotReady
      ("discovery pod not ready on node " ++ nodeName.quote ++ ": " ++ reason))

/-- Whether an agent is on another node or out of date. -/
def recreationNeeded (onNode : Bool) (needsUpdate : Except String Bool) (forDevice : Bool) :
    Except String Bool :=
  if !onNode then .ok true
  else
    match needsUpdate with
    | .error e => .error ("failed to check if agent needs update: " ++ e)
    | .ok needsUpdate => .ok (needsUpdate || forDevice)

/-- What `ensureAgentOnNode` asks about one agent, with deployments of type `ν` in a world `ω`. A
deployment that is not there is no error. -/
structure Access (ω ν : Type) where
  get : ω → Except String (Option ν)
  needsRecreation : ν → Except String Bool
  /-- `discoveryCurrentOnNode` before the agent is deleted, and before it is created. -/
  beforeDelete : Except String (Option String)
  beforeCreate : Except String (Option String)
  delete : ω → ω × Option String
  createAgentDeployment : ω → ω × Option AgentError

namespace Access

variable {ω ν : Type} (x : Access ω ν) (nodeName : String)

def createAgent (w : ω) : ω × Option AgentError :=
  match gateOnDiscovery x.beforeCreate nodeName with
  | some e => (w, some e)
  | none => x.createAgentDeployment w

def recreateAgent (w : ω) : ω × Option AgentError :=
  match gateOnDiscovery x.beforeDelete nodeName with
  | some e => (w, some e)
  | none =>
    let r := x.delete w
    match r.2 with
    | some e => (r.1, some (.failed ("failed to delete outdated agent: " ++ e)))
    | none => x.createAgent nodeName r.1

def ensureAgentOnNode (w : ω) : ω × Option AgentError :=
  match x.get w with
  | .error e => (w, some (.failed ("failed to check agent deployment: " ++ e)))
  | .ok none => x.createAgent nodeName w
  | .ok (some deployment) =>
    match x.needsRecreation deployment with
    | .error e => (w, some (.failed e))
    | .ok true => x.recreateAgent nodeName w
    | .ok false => (w, none)

end Access

section Device

variable (env : Env) (deviceName : String) (device : DiscoveredDevice) (agentName : String)

def access : Access Deployments Deployment where
  get ds :=
    match env.getError agentName with
    | some e => .error e
    | none => .ok (ds.items.find? fun d => d.name = agentName)
  needsRecreation deployment := recreationNeeded (isDeploymentOnNode deployment device.nodeName)
    (env.agentNeedsUpdate deployment) (env.deploymentNeedsUpdateForDevice deployment device)
  beforeDelete := env.discoveryCurrentOnNode (.recreate agentName) device.nodeName
  beforeCreate := env.discoveryCurrentOnNode (.create agentName) device.nodeName
  delete ds := delete env .ensure ds agentName
  createAgentDeployment ds :=
    match env.createError agentName with
    | some e => (ds, some (.failed e))
    | none =>
      let deployment : Deployment :=
        { name := agentName, appName := some agentNamePrefix, hsmDevice := some deviceName
          hostname := some device.nodeName }
      ({ ds with items := ds.items ++ [deployment] }, none)

def ensureAgentOnNode (ds : Deployments) : Deployments × Option AgentError :=
  (access env deviceName device agentName).ensureAgentOnNode device.nodeName ds

end Device

def defaultGracePeriod : Int := 5 * minute

def gracePeriod (pool : HSMPool) : Int := pool.gracePeriod.getD defaultGracePeriod

/-- What the loop over the serial numbers accumulates. -/
structure Progress where
  deployments : Deployments
  deploymentErrors : List String := []
  deferred : Bool := false

def collect (p : Progress) (msg serial : String) :
    Deployments × Option AgentError → Progress
  | (ds, none) => { p with deployments := ds }
  | (ds, some (.discoveryNotReady _)) => { p with deployments := ds, deferred := true }
  | (ds, some (.failed e)) =>
    { p with
      deployments := ds
      deploymentErrors := p.deploymentErrors ++ [msg ++ " " ++ serial ++ ": " ++ e] }

def activeDevice (devices : List DiscoveredDevice) : Option DiscoveredDevice :=
  (devices.filter fun dev => dev.available).getLast?

def lostDevice (devices : List DiscoveredDevice) : Option DiscoveredDevice :=
  (devices.filter fun dev => !dev.available).getLast?

def devicesOf (pool : HSMPool) (serial : String) : List DiscoveredDevice :=
  pool.status.aggregatedDevices.filter fun dev => dev.serialNumber = serial

/-- The turn of the loop for one serial number. -/
def ensureSerial (env : Env) (pool : HSMPool) (deviceName : String) (p : Progress)
    (serial : String) : Progress :=
  match agentInstanceName deviceName serial with
  | none => p
  | some agentName =>
    let devices := devicesOf pool serial
    match activeDevice devices, lostDevice devices with
    | some active, some lost =>
      if since env.now lost.lastSeen < gracePeriod pool then
        let msg :=
          if active.nodeName ≠ lost.nodeName then "migration failed for"
          else "reconnection failed for"
        collect p msg serial (ensureAgentOnNode env deviceName active agentName p.deployments)
      else p
    | some active, none =>
      collect p "agent creation failed for" serial
        (ensureAgentOnNode env deviceName active agentName p.deployments)
    | none, some lost =>
      if since env.now lost.lastSeen > gracePeriod pool then
        match delete env .ensure p.deployments agentName with
        | (ds, none) => { p with deployments := ds }
        | (ds, some e) =>
          { p with
            deployments := ds
            deploymentErrors := p.deploymentErrors ++
              ["cleanup failed for " ++ serial ++ ": failed to delete agent deployment " ++
                agentName ++ ": " ++ e] }
      else p
    | none, none => p

def ensureAgentDeployments (env : Env) (pool : HSMPool) (deviceName : String)
    (items : List Deployment) : Deployments × Option AgentError :=
  let p := env.serials.foldl (ensureSerial env pool deviceName) { deployments := { items } }
  if !p.deploymentErrors.isEmpty then
    (p.deployments, some (.failed
      ("deployment errors occurred: [" ++ String.intercalate " " p.deploymentErrors ++ "]")))
  else if p.deferred then
    (p.deployments, some (.discoveryNotReady "discovery pod not ready on node"))
  else (p.deployments, none)

def deleteAll (env : Env) (routine : Routine) (ds : Deployments) (names : List String) :
    Deployments :=
  names.foldl (fun ds name => (delete env routine ds name).1) ds

/-- The names of the agents of all serial numbers that the pool lists. -/
def expectedNames (pool : HSMPool) (deviceName : String) : List String :=
  pool.status.aggregatedDevices.filterMap fun dev => agentInstanceName deviceName dev.serialNumber

def reapOrphanedAgents (env : Env) (pool : HSMPool) (deviceName : String)
    (items : List Deployment) : Deployments :=
  let expected := expectedNames pool deviceName
  if expected.isEmpty || (env.listError .reap).isSome then { items }
  else
    let orphans := items.filter fun d =>
      d.appName = some agentNamePrefix && d.hsmDevice = some deviceName && d.name ∉ expected
    deleteAll env .reap { items } (orphans.map Deployment.name)

def absenceTimeout (r : HSMPoolAgentReconciler) (pool : HSMPool) : Int :=
  if r.deviceAbsenceTimeout = 0 then wrapInt64 (2 * gracePeriod pool)
  else r.deviceAbsenceTimeout

/-- The loop over the devices, up to the first that is available. -/
def lastSeenTime : List DiscoveredDevice → Nat → Option Nat
  | [], latest => some latest
  | dev :: devices, latest =>
    if dev.available then none
    else lastSeenTime devices (if dev.lastSeen > latest then dev.lastSeen else latest)

/-- Whether the devices of the pool count as absent. -/
def isAbsent (r : HSMPoolAgentReconciler) (now : Nat) (pool : HSMPool) : Bool :=
  match lastSeenTime pool.status.aggregatedDevices 0 with
  | none => false
  | some latest =>
    if latest = 0 then since now pool.creationTimestamp > absenceTimeout r pool
    else since now latest > absenceTimeout r pool

def cleanupAgentDeployments (env : Env) (deviceName : String) (items : List Deployment) :
    Deployments :=
  if (env.listError .cleanup).isSome then { items }
  else
    let matching := items.filter fun d => d.hsmDevice = some deviceName
    deleteAll env .cleanup { items } (matching.map Deployment.name)

def cleanupStaleAgents (r : HSMPoolAgentReconciler) (env : Env) (pool : HSMPool)
    (items : List Deployment) : Deployments :=
  match pool.ownerReferences with
  | [] => { items }
  | deviceRef :: _ =>
    if env.deviceForCleanup && isAbsent r env.now pool then
      cleanupAgentDeployments env deviceRef items
    else { items }

inductive Result where
  | done
  | requeueAfter (d : Int)
  | failed (text : String)
  deriving DecidableEq

def discoveryNotReadyRequeue : Int := 20 * second

/-- The deployments after a reconcile, and the names each of the three routines has deleted. -/
structure Outcome where
  items : List Deployment
  ensured : List String := []
  reaped : List String := []
  cleaned : List String := []
  result : Result := .done

def reconcile (r : HSMPoolAgentReconciler) (env : Env) (pool : HSMPool)
    (items : List Deployment) : Outcome :=
  if pool.status.phase = .ready && !pool.status.aggregatedDevices.isEmpty then
    match pool.ownerReferences with
    | [] => { items }
    | deviceRef :: _ =>
      if !env.deviceForAgents then { items }
      else
        match ensureAgentDeployments env pool deviceRef items with
        | (ds, some (.discoveryNotReady _)) =>
          { items := ds.items, ensured := ds.deleted
            result := .requeueAfter discoveryNotReadyRequeue }
        | (ds, some (.failed e)) =>
          { items := ds.items, ensured := ds.deleted, result := .failed e }
        | (ds, none) =>
          let reaped := reapOrphanedAgents env pool deviceRef ds.items
          let cleaned := cleanupStaleAgents r env pool reaped.items
          { items := cleaned.items, ensured := ds.deleted, reaped := reaped.deleted
            cleaned := cleaned.deleted }
  else
    let cleaned := cleanupStaleAgents r env pool items
    { items := cleaned.items, cleaned := cleaned.deleted }

/-- The second state differs from the first in deployments of one name only. -/
structure TouchesOnly (name : String) (ds ds' : Deployments) : Prop where
  deleted : ∀ x ∈ ds'.deleted, x ∈ ds.deleted ∨ x = name
  items : ∀ d ∈ ds'.items, d ∈ ds.items ∨ d.name = name

namespace TouchesOnly

variable {name : String} {ds ds' ds'' : Deployments}

theorem refl (name : String) (ds : Deployments) : TouchesOnly name ds ds :=
  ⟨fun _ => .inl, fun _ => .inl⟩

theorem trans (h : TouchesOnly name ds ds') (h' : TouchesOnly name ds' ds'') :
    TouchesOnly name ds ds'' where
  deleted x hx := (h'.deleted x hx).elim (h.deleted x) .inr
  items d hd := (h'.items d hd).elim (h.items d) .inr

end TouchesOnly

variable {routine : Routine} {ds : Deployments} {env : Env}

theorem mem_items_of_delete {name : String}
    {d : Deployment} (h : d ∈ (delete env routine ds name).1.items) : d ∈ ds.items := by
  unfold delete at h
  split at h
  · exact h
  split at h
  · exact List.mem_of_mem_filter h
  · exact h

theorem mem_deleted_delete {name x : String}
    (h : x ∈ (delete env routine ds name).1.deleted) : x ∈ ds.deleted ∨ x = name := by
  unfold delete at h
  split at h
  · exact .inl h
  split at h
  · simpa using h
  · exact .inl h

theorem touchesOnly_delete (env : Env) (routine : Routine) (ds : Deployments) (name : String) :
    TouchesOnly name ds (delete env routine ds name).1 :=
  ⟨fun _ => mem_deleted_delete, fun _ hd => .inl (mem_items_of_delete hd)⟩

theorem mem_deleted_deleteAll
    {names : List String} {x : String} (h : x ∈ (deleteAll env routine ds names).deleted) :
    x ∈ ds.deleted ∨ x ∈ names := by
  unfold deleteAll at h
  induction names generalizing ds with
  | nil => exact .inl h
  | cons name names ih =>
    rcases ih h with hx | hx
    · rcases mem_deleted_delete hx with hx | rfl
      · exact .inl hx
      · exact .inr List.mem_cons_self
    · exact .inr (List.mem_cons_of_mem name hx)

section Device

variable (env : Env) (deviceName : String) (device : DiscoveredDevice) (agentName : String)
  (ds : Deployments)

private theorem touchesOnly_createAgent : TouchesOnly agentName ds
    ((access env deviceName device agentName).createAgent device.nodeName ds).1 := by
  unfold Access.createAgent
  split
  · exact .refl agentName ds
  dsimp only [access]
  split
  · exact .refl agentName ds
  · refine ⟨fun _ => .inl, fun d hd => ?_⟩
    rcases List.mem_append.mp hd with hd | hd
    · exact .inl hd
    · obtain rfl := List.mem_singleton.mp hd
      exact .inr rfl

private theorem touchesOnly_recreateAgent : TouchesOnly agentName ds
    ((access env deviceName device agentName).recreateAgent device.nodeName ds).1 := by
  unfold Access.recreateAgent
  split
  · exact .refl agentName ds
  have hdelete := touchesOnly_delete env .ensure ds agentName
  dsimp only
  split
  · exact hdelete
  · exact hdelete.trans (touchesOnly_createAgent env deviceName device agentName _)

theorem touchesOnly_ensureAgentOnNode :
    TouchesOnly agentName ds (ensureAgentOnNode env deviceName device agentName ds).1 := by
  unfold ensureAgentOnNode Access.ensureAgentOnNode
  split
  · exact .refl agentName ds
  · exact touchesOnly_createAgent env deviceName device agentName ds
  split
  · exact .refl agentName ds
  · exact touchesOnly_recreateAgent env deviceName device agentName ds
  · exact .refl agentName ds

end Device

section Pool

variable {r : HSMPoolAgentReconciler} {env : Env} {pool : HSMPool} {deviceName x : String}

/-- The pool lists the serial number as available, or the entry that the loop takes for its loss is
older than the grace period. -/
def Removable (now : Nat) (pool : HSMPool) (serial : String) : Prop :=
  (∃ dev ∈ devicesOf pool serial, dev.available = true) ∨
    ∃ lost, lostDevice (devicesOf pool serial) = some lost ∧
      gracePeriod pool < since now lost.lastSeen

theorem deployments_collect (p : Progress) (msg serial : String)
    (out : Deployments × Option AgentError) :
    (collect p msg serial out).deployments = out.1 := by
  obtain ⟨ds, _ | e⟩ := out
  · rfl
  · cases e <;> rfl

private theorem available_of_activeDevice {devices : List DiscoveredDevice}
    {active : DiscoveredDevice} (h : activeDevice devices = some active) :
    ∃ dev ∈ devices, dev.available = true := by
  have hmem := List.mem_of_getLast? h
  rw [List.mem_filter] at hmem
  exact ⟨active, hmem.1, hmem.2⟩

theorem ensureSerial_cases (env : Env) (pool : HSMPool) (deviceName : String) (p : Progress)
    (serial : String) :
    (ensureSerial env pool deviceName p serial).deployments = p.deployments ∨
      ∃ agentName, agentInstanceName deviceName serial = some agentName ∧
        Removable env.now pool serial ∧ TouchesOnly agentName p.deployments
          (ensureSerial env pool deviceName p serial).deployments := by
  unfold ensureSerial
  split
  · exact .inl rfl
  next agentName hname =>
    dsimp only
    split
    next active lost hactive hlost =>
      split
      · rw [deployments_collect]
        exact .inr ⟨agentName, hname, .inl (available_of_activeDevice hactive),
          touchesOnly_ensureAgentOnNode env deviceName active agentName p.deployments⟩
      · exact .inl rfl
    next active hactive _ =>
      rw [deployments_collect]
      exact .inr ⟨agentName, hname, .inl (available_of_activeDevice hactive),
        touchesOnly_ensureAgentOnNode env deviceName active agentName p.deployments⟩
    next lost _ hlost =>
      split
      next hold =>
        have hdelete := touchesOnly_delete env .ensure p.deployments agentName
        refine .inr ⟨agentName, hname, .inr ⟨lost, hlost, hold⟩, ?_⟩
        split
        next heq =>
          rw [heq] at hdelete
          exact hdelete
        next heq =>
          rw [heq] at hdelete
          exact hdelete
      · exact .inl rfl
    · exact .inl rfl

theorem deployments_ensureAgentDeployments (env : Env) (pool : HSMPool) (deviceName : String)
    (items : List Deployment) :
    (ensureAgentDeployments env pool deviceName items).1 =
      (env.serials.foldl (ensureSerial env pool deviceName)
        { deployments := { items } }).deployments := by
  unfold ensureAgentDeployments
  dsimp only
  split
  · rfl
  split
  · rfl
  · rfl

theorem mem_deleted_ensureAgentDeployments {items : List Deployment}
    (h : x ∈ (ensureAgentDeployments env pool deviceName items).1.deleted) :
    ∃ serial, agentInstanceName deviceName serial = some x ∧ Removable env.now pool serial := by
  have hloop (serials : List String) (p : Progress)
      (h : x ∈ (serials.foldl (ensureSerial env pool deviceName) p).deployments.deleted) :
      x ∈ p.deployments.deleted ∨
        ∃ serial, agentInstanceName deviceName serial = some x ∧
          Removable env.now pool serial := by
    induction serials generalizing p with
    | nil => exact .inl h
    | cons serial serials ih =>
      rcases ih _ h with h | h
      · rcases ensureSerial_cases env pool deviceName p serial with
          hsame | ⟨agentName, hname, hremovable, htouches⟩
        · rw [hsame] at h
          exact .inl h
        · rcases htouches.deleted x h with h | rfl
          · exact .inl h
          · exact .inr ⟨serial, hname, hremovable⟩
      · exact .inr h
  rw [deployments_ensureAgentDeployments] at h
  exact (hloop env.serials { deployments := { items } } h).resolve_left List.not_mem_nil

theorem not_mem_expectedNames_of_reaped {items : List Deployment}
    (h : x ∈ (reapOrphanedAgents env pool deviceName items).deleted) :
    x ∉ expectedNames pool deviceName := by
  unfold reapOrphanedAgents at h
  dsimp only at h
  split at h
  · exact absurd h List.not_mem_nil
  obtain ⟨d, hd, rfl⟩ := List.mem_map.mp
    ((mem_deleted_deleteAll h).resolve_left List.not_mem_nil)
  have hd := (List.mem_filter.mp hd).2
  rw [Bool.and_eq_true, decide_eq_true_eq] at hd
  exact hd.2

theorem lastSeenTime_spec {devices : List DiscoveredDevice} {start latest : Nat}
    (h : lastSeenTime devices start = some latest) :
    start ≤ latest ∧ ∀ dev ∈ devices, dev.available = false ∧ dev.lastSeen ≤ latest := by
  induction devices generalizing start with
  | nil =>
    obtain rfl := Option.some.inj h
    exact ⟨le_rfl, fun dev hdev => absurd hdev List.not_mem_nil⟩
  | cons dev devices ih =>
    unfold lastSeenTime at h
    split at h
    · cases h
    next havailable =>
      obtain ⟨hstart, hrest⟩ := ih h
      have hboth : start ≤ latest ∧ dev.lastSeen ≤ latest := by
        split at hstart <;> omega
      refine ⟨hboth.1, fun dev' hdev' => ?_⟩
      rcases List.mem_cons.mp hdev' with rfl | hdev'
      · exact ⟨Bool.eq_false_iff.mpr havailable, hboth.2⟩
      · exact hrest dev' hdev'

theorem isAbsent_spec {now : Nat} (h : isAbsent r now pool = true) :
    ∃ t, absenceTimeout r pool < since now t ∧
      ∀ dev ∈ pool.status.aggregatedDevices, dev.available = false ∧ dev.lastSeen ≤ t := by
  unfold isAbsent at h
  split at h
  · cases h
  next latest hlatest =>
    have hall := (lastSeenTime_spec hlatest).2
    split at h
    next hzero =>
      subst hzero
      refine ⟨pool.creationTimestamp, of_decide_eq_true h, fun dev hdev => ?_⟩
      exact ⟨(hall dev hdev).1, (hall dev hdev).2.trans (Nat.zero_le _)⟩
    next => exact ⟨latest, of_decide_eq_true h, hall⟩

theorem isAbsent_of_cleaned {items : List Deployment}
    (h : x ∈ (cleanupStaleAgents r env pool items).deleted) : isAbsent r env.now pool = true := by
  unfold cleanupStaleAgents at h
  split at h
  · exact absurd h List.not_mem_nil
  split at h
  next habsent => exact ((Bool.and_eq_true _ _).mp habsent).2
  next => exact absurd h List.not_mem_nil

/-- What the deletions of a whole reconcile say about the status it acted on. -/
structure Justified (r : HSMPoolAgentReconciler) (now : Nat) (pool : HSMPool) (out : Outcome) :
    Prop where
  ensured : ∀ x ∈ out.ensured, ∃ deviceName serial, pool.ownerReferences.head? = some deviceName ∧
    agentInstanceName deviceName serial = some x ∧ Removable now pool serial
  reaped : ∀ x ∈ out.reaped, ∃ deviceName, pool.ownerReferences.head? = some deviceName ∧
    x ∉ expectedNames pool deviceName
  cleaned : ∀ x ∈ out.cleaned, isAbsent r now pool = true

theorem reconcile_justified (r : HSMPoolAgentReconciler) (env : Env) (pool : HSMPool)
    (items : List Deployment) : Justified r env.now pool (reconcile r env pool items) := by
  have hnone (x : String) (P : Prop) (h : x ∈ ([] : List String)) : P :=
    absurd h List.not_mem_nil
  unfold reconcile
  split
  · cases howner : pool.ownerReferences with
    | nil => exact ⟨fun x => hnone x _, fun x => hnone x _, fun x => hnone x _⟩
    | cons deviceRef rest =>
      have hhead : pool.ownerReferences.head? = some deviceRef := by rw [howner]; rfl
      have hensured (x : String)
          (hx : x ∈ (ensureAgentDeployments env pool deviceRef items).1.deleted) :
          ∃ deviceName serial, pool.ownerReferences.head? = some deviceName ∧
            agentInstanceName deviceName serial = some x ∧ Removable env.now pool serial := by
        obtain ⟨serial, hserial⟩ := mem_deleted_ensureAgentDeployments hx
        exact ⟨deviceRef, serial, hhead, hserial⟩
      dsimp only
      split
      · exact ⟨fun x => hnone x _, fun x => hnone x _, fun x => hnone x _⟩
      split
      next heq =>
        rw [heq] at hensured
        exact ⟨hensured, fun x => hnone x _, fun x => hnone x _⟩
      next heq =>
        rw [heq] at hensured
        exact ⟨hensured, fun x => hnone x _, fun x => hnone x _⟩
      next heq =>
        rw [heq] at hensured
        exact ⟨hensured, fun x hx => ⟨deviceRef, hhead, not_mem_expectedNames_of_reaped hx⟩,
          fun x hx => isAbsent_of_cleaned hx⟩
  · exact ⟨fun x => hnone x _, fun x => hnone x _, fun x hx => isAbsent_of_cleaned hx⟩

end Pool

end HsmSecretsOperator.Pool.Agents
