/- source: internal/controller/hsmpool_agent_controller.go, internal/agent/naming.go
   digest: Which deployments the reaping of orphans removes, and that they are not made again. -/

import HsmSecretsOperator.Pool.AgentCoverage

set_option autoImplicit false

namespace HsmSecretsOperator.Pool.Reaping

open AgentCoverage (serialsOf)
open Agents
open Aggregation (HSMPool)
open Discovery.Report

/-- The deployments of every namespace. -/
abbrev Workloads := String → List Deployment

/-- The reaping lists and deletes deployments of the namespace of its pool. -/
def reapIn (env : Env) (pool : HSMPool) (deviceName ns : String) (w : Workloads) : Workloads :=
  fun other =>
    if other = ns then (reapOrphanedAgents env pool deviceName (w ns)).items else w other

/-- No call of the reaping fails. -/
structure Quiet (env : Env) : Prop where
  list : env.listError .reap = none
  delete : ∀ name, env.deleteError .reap name = none

/-- The deployment has the labels of an agent of the HSMDevice, and its name is that of no serial
number that the pool lists, available or not. -/
structure Orphan (pool : HSMPool) (deviceName : String) (d : Deployment) : Prop where
  appName : d.appName = some agentNamePrefix
  hsmDevice : d.hsmDevice = some deviceName
  unlisted : ∀ dev ∈ pool.status.aggregatedDevices,
    agentInstanceName deviceName dev.serialNumber ≠ some d.name

/-- No serial number of the pool can be made into a name. -/
def Nameless (pool : HSMPool) (deviceName : String) : Prop :=
  ∀ dev ∈ pool.status.aggregatedDevices, agentInstanceName deviceName dev.serialNumber = none

instance (pool : HSMPool) (deviceName : String) : Decidable (Nameless pool deviceName) :=
  inferInstanceAs (Decidable (∀ dev ∈ pool.status.aggregatedDevices, _))

variable {pool : HSMPool} {deviceName : String}

theorem not_mem_expectedNames {deviceName name : String} :
    name ∉ expectedNames pool deviceName ↔ ∀ dev ∈ pool.status.aggregatedDevices,
      agentInstanceName deviceName dev.serialNumber ≠ some name := by
  simp only [expectedNames, List.mem_filterMap, not_exists, not_and, ne_eq]

theorem expectedNames_eq_nil_iff :
    expectedNames pool deviceName = [] ↔ Nameless pool deviceName := by
  simp only [expectedNames, List.filterMap_eq_nil_iff, Nameless]

section Delete

variable {env : Env} {routine : Routine}

theorem items_delete (h : ∀ name, env.deleteError routine name = none) (ds : Deployments)
    (name : String) :
    (delete env routine ds name).1.items = ds.items.filter fun d => d.name ≠ name := by
  unfold delete
  rw [h name]
  dsimp only
  split
  next => rfl
  next hmissing =>
    have hother : ∀ d ∈ ds.items, d.name ≠ name := fun d hd hname =>
      hmissing (List.any_eq_true.mpr ⟨d, hd, decide_eq_true hname⟩)
    exact (List.filter_eq_self.mpr fun d hd => decide_eq_true (hother d hd)).symm

theorem mem_items_deleteAll (h : ∀ name, env.deleteError routine name = none) {ds : Deployments}
    {names : List String} {d : Deployment} :
    d ∈ (deleteAll env routine ds names).items ↔ d ∈ ds.items ∧ d.name ∉ names := by
  unfold deleteAll
  induction names generalizing ds with
  | nil => simp
  | cons name names ih =>
    rw [List.foldl_cons, ih, items_delete h, List.mem_filter, decide_eq_true_eq, List.mem_cons,
      not_or, and_assoc]

end Delete

theorem mem_reapIn {env : Env} (henv : Quiet env) {deviceName ns : String}
    {w : Workloads} (hnames : ((w ns).map Deployment.name).Nodup)
    (hnamed : ¬ Nameless pool deviceName) {other : String} {d : Deployment} :
    d ∈ reapIn env pool deviceName ns w other ↔
      d ∈ w other ∧ ¬ (other = ns ∧ Orphan pool deviceName d) := by
  have hexpected : (expectedNames pool deviceName).isEmpty = false := by
    rw [List.isEmpty_eq_false_iff, Ne, expectedNames_eq_nil_iff]
    exact hnamed
  unfold reapIn
  by_cases hns : other = ns
  · subst hns
    rw [if_pos rfl, reapOrphanedAgents, hexpected, henv.list]
    dsimp only
    rw [if_neg (by decide), mem_items_deleteAll henv.delete]
    refine and_congr_right fun hd => not_congr ?_
    rw [List.mem_map]
    constructor
    · rintro ⟨orphan, horphan, hname⟩
      obtain ⟨hmem, hlabels⟩ := List.mem_filter.mp horphan
      -- Names are unique, so the deployment that is deleted is the orphan.
      obtain rfl : orphan = d := List.inj_on_of_nodup_map hnames hmem hd hname
      simp only [Bool.and_eq_true, decide_eq_true_eq] at hlabels
      exact ⟨rfl, hlabels.1.1, hlabels.1.2, not_mem_expectedNames.mp hlabels.2⟩
    · rintro ⟨-, horphan⟩
      refine ⟨d, List.mem_filter.mpr ⟨hd, ?_⟩, rfl⟩
      simp only [Bool.and_eq_true, decide_eq_true_eq]
      exact ⟨⟨horphan.appName, horphan.hsmDevice⟩, not_mem_expectedNames.mpr horphan.unlisted⟩
  · rw [if_neg hns]
    exact ⟨fun hd => ⟨hd, fun h => hns h.1⟩, And.left⟩

theorem reapIn_of_nameless (env : Env)
    (h : Nameless pool deviceName) (ns : String) (w : Workloads) :
    reapIn env pool deviceName ns w = w := by
  funext other
  unfold reapIn
  split
  next hns =>
    rw [reapOrphanedAgents, expectedNames_eq_nil_iff.mpr h, hns]
    rfl
  next => rfl

theorem mem_items_ensureAgentDeployments {env : Env} {items : List Deployment} {d : Deployment}
    (h : d ∈ (ensureAgentDeployments env pool deviceName items).1.items) :
    d ∈ items ∨ ∃ serial ∈ env.serials, agentInstanceName deviceName serial = some d.name := by
  have hloop (serials : List String) (p : Progress)
      (h : d ∈ (serials.foldl (ensureSerial env pool deviceName) p).deployments.items) :
      d ∈ p.deployments.items ∨
        ∃ serial ∈ serials, agentInstanceName deviceName serial = some d.name := by
    induction serials generalizing p with
    | nil => exact .inl h
    | cons serial serials ih =>
      rcases ih _ h with h | ⟨other, hother, hname⟩
      · rcases ensureSerial_cases env pool deviceName p serial with
          hsame | ⟨agentName, hname, -, htouches⟩
        · rw [hsame] at h
          exact .inl h
        · rcases htouches.items d h with h | rfl
          · exact .inl h
          · exact .inr ⟨serial, List.mem_cons_self, hname⟩
      · exact .inr ⟨other, List.mem_cons_of_mem serial hother, hname⟩
  rw [deployments_ensureAgentDeployments] at h
  exact hloop env.serials { deployments := { items } } h

/-- A reaping that meets no error removes nothing if no serial number has a name, and the orphans in
the namespace of the pool otherwise; and the loop over the serial numbers, at any time and whatever
fails in it, makes none of them again. -/
theorem reaping_is_exact (env : Env) (pool : HSMPool) (deviceName ns : String) (w : Workloads)
    (henv : Quiet env) (hnames : ((w ns).map Deployment.name).Nodup) :
    (Nameless pool deviceName → reapIn env pool deviceName ns w = w) ∧
      (¬ Nameless pool deviceName → ∀ other d, d ∈ reapIn env pool deviceName ns w other ↔
        d ∈ w other ∧ ¬ (other = ns ∧ Orphan pool deviceName d)) ∧
      ∀ later : Env, later.serials.Perm (serialsOf pool) →
        ∀ d ∈ w ns, d ∉ reapIn env pool deviceName ns w ns →
          ∀ d' ∈ (ensureAgentDeployments later pool deviceName
            (reapIn env pool deviceName ns w ns)).1.items, d'.name ≠ d.name := by
  refine ⟨fun h => reapIn_of_nameless env h ns w, fun h _ _ => mem_reapIn henv hnames h, ?_⟩
  intro later hserials d hd hreaped d' hd' hname
  have hnamed : ¬ Nameless pool deviceName := by
    intro h
    rw [reapIn_of_nameless env h] at hreaped
    exact hreaped hd
  have horphan : Orphan pool deviceName d := by
    by_contra hkept
    exact hreaped ((mem_reapIn henv hnames hnamed).mpr ⟨hd, fun h => hkept h.2⟩)
  rcases mem_items_ensureAgentDeployments hd' with hd' | ⟨serial, hserial, hmade⟩
  · -- The deployment has stayed, so it is not the one that was removed.
    have hmem := ((mem_reapIn henv hnames hnamed).mp hd').1
    obtain rfl : d' = d := List.inj_on_of_nodup_map hnames hmem hd hname
    exact hreaped hd'
  · have hlisted := List.mem_dedup.mp (hserials.mem_iff.mp hserial)
    obtain ⟨dev, hdev, rfl⟩ := List.mem_map.mp hlisted
    rw [hname] at hmade
    exact horphan.unlisted dev hdev hmade

private def reflashed : HSMPool where
  ownerReferences := ["pico"]
  status :=
    { phase := .ready
      aggregatedDevices :=
        [{ devicePath := "/dev/bus/usb/001/004", serialNumber := "DC6B", nodeName := "n1"
           lastSeen := 0, available := true }] }

private def agentOf (name : String) : Deployment :=
  { name, appName := some agentNamePrefix, hsmDevice := some "pico", hostname := some "n1" }

private def workloads : Workloads := fun ns =>
  if ns = "hsm" then [agentOf "hsm-agent-pico-dc6a", agentOf "hsm-agent-pico-dc6b"] else []

theorem old_serial_is_reaped :
    Quiet { now := 0, serials := [] } ∧ ((workloads "hsm").map Deployment.name).Nodup ∧
      agentOf "hsm-agent-pico-dc6a" ∉
        reapIn { now := 0, serials := [] } reflashed "pico" "hsm" workloads "hsm" := by
  have henv : Quiet { now := 0, serials := [] } := ⟨rfl, fun _ => rfl⟩
  have hnames : ((workloads "hsm").map Deployment.name).Nodup := by decide
  have hnamed : ¬ Nameless reflashed "pico" := by decide +kernel
  have horphan : Orphan reflashed "pico" (agentOf "hsm-agent-pico-dc6a") :=
    ⟨rfl, rfl, by decide +kernel⟩
  refine ⟨henv, hnames, fun hkept => ?_⟩
  exact (((reaping_is_exact _ reflashed "pico" "hsm" workloads henv hnames).2.1 hnamed "hsm"
    (agentOf "hsm-agent-pico-dc6a")).mp hkept).2 ⟨rfl, horphan⟩

end HsmSecretsOperator.Pool.Reaping
