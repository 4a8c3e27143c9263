/- source: internal/controller/hsmpool_agent_controller.go,
     internal/controller/hsmpool_controller.go
   digest: What the cleanup of stale agents does over the statuses that a pool goes through. -/

import HsmSecretsOperator.Foundation.Runs
import HsmSecretsOperator.Pool.Agents

set_option autoImplicit false

namespace HsmSecretsOperator.System.AgentRetention

open Discovery.Report Foundation.Runs Pool.Agents Pool.Aggregation

/-- A pool and its agents, with every status that was stored and the time at which it was. -/
structure State where
  pool : HSMPool
  clock : Nat
  items : List Deployment
  history : List (Nat × HSMPoolStatus) := []

/-- A reconcile of either controller, some time after the step before. -/
inductive Step where
  | update (elapsed : Nat) (env : Pool.Aggregation.Env)
  | agents (elapsed : Nat) (env : Pool.Agents.Env)

def update (s : State) (env : Pool.Aggregation.Env) : State :=
  let pool := Pool.Aggregation.reconcile env s.pool
  { s with
    pool
    clock := env.now
    history := if env.updates then s.history ++ [(env.now, pool.status)] else s.history }

def step (r : HSMPoolAgentReconciler) (s : State) : Step → State
  | .update elapsed env => update s { env with now := s.clock + elapsed }
  | .agents elapsed env =>
    let now := s.clock + elapsed
    { s with
      clock := now
      items := (Pool.Agents.reconcile r { env with now } s.pool s.items).items }

def ListsAvailable (devices : List DiscoveredDevice) : Prop :=
  ∃ dev ∈ devices, dev.available = true

instance (devices : List DiscoveredDevice) : Decidable (ListsAvailable devices) :=
  inferInstanceAs (Decidable (∃ dev ∈ devices, _))

/-- Agents are only cleaned up if every status that listed an available device was stored longer ago
than the absence timeout. -/
def Retained (r : HSMPoolAgentReconciler) (s : State) : Step → Prop
  | .update _ _ => True
  | .agents elapsed env =>
    let now := s.clock + elapsed
    (Pool.Agents.reconcile r { env with now } s.pool s.items).cleaned ≠ [] →
      ∀ entry ∈ s.history, ListsAvailable entry.2.aggregatedDevices →
        absenceTimeout r s.pool < (now : Int) - entry.1

instance instDecidableRetained (r : HSMPoolAgentReconciler) (s : State) :
    ∀ a, Decidable (Retained r s a)
  | .update _ _ => inferInstanceAs (Decidable True)
  | .agents _ _ => inferInstanceAs (Decidable (_ → ∀ entry ∈ s.history, _))

/-- The devices are proof that one was seen at the time or later. -/
def Attests (devices : List DiscoveredDevice) (time : Nat) : Prop :=
  ListsAvailable devices ∨ ∃ dev ∈ devices, time ≤ dev.lastSeen

instance (devices : List DiscoveredDevice) (time : Nat) : Decidable (Attests devices time) :=
  inferInstanceAs (Decidable (_ ∨ ∃ dev ∈ devices, _))

/-- Where a status is stored, the reports that are read for it list an available device, or one that
was last seen after every status that listed one was stored. -/
def Remembered (s : State) : Step → Prop
  | .update _ env => env.updates = true →
      ∀ entry ∈ s.history, ListsAvailable entry.2.aggregatedDevices →
        Attests (reported env s.pool) entry.1
  | .agents _ _ => True

instance instDecidableRemembered (s : State) : ∀ a, Decidable (Remembered s a)
  | .update _ _ => inferInstanceAs (Decidable (_ → ∀ entry ∈ s.history, _))
  | .agents _ _ => inferInstanceAs (Decidable True)

/-- The current status still attests to the available devices of the earlier ones. -/
def Inv (s : State) : Prop :=
  ∀ entry ∈ s.history, ListsAvailable entry.2.aggregatedDevices →
    entry.1 ≤ s.clock ∧ Attests s.pool.status.aggregatedDevices entry.1

theorem inv_update {s : State} (env : Pool.Aggregation.Env) (hinv : Inv s)
    (hnow : s.clock ≤ env.now)
    (h : env.updates = true → ∀ entry ∈ s.history, ListsAvailable entry.2.aggregatedDevices →
      Attests (reported env s.pool) entry.1) : Inv (update s env) := by
  intro entry hentry hlists
  cases hupdates : env.updates with
  | false =>
    simp only [update, Pool.Aggregation.reconcile, hupdates, Bool.false_eq_true, if_false]
      at hentry ⊢
    obtain ⟨hclock, hattests⟩ := hinv entry hentry hlists
    exact ⟨hclock.trans hnow, hattests⟩
  | true =>
    simp only [update, Pool.Aggregation.reconcile, hupdates, if_true, List.mem_append,
      List.mem_singleton] at hentry ⊢
    rw [aggregatedDevices_nextStatus]
    rcases hentry with hentry | rfl
    · exact ⟨(hinv entry hentry hlists).1.trans hnow, h hupdates entry hentry hlists⟩
    · rw [aggregatedDevices_nextStatus] at hlists
      exact ⟨le_rfl, .inl hlists⟩

theorem lt_of_cleaned {r : HSMPoolAgentReconciler} {s : State} (env : Pool.Agents.Env)
    (hinv : Inv s) (hnow : s.clock ≤ env.now)
    (hcleaned : (Pool.Agents.reconcile r env s.pool s.items).cleaned ≠ []) :
    ∀ entry ∈ s.history, ListsAvailable entry.2.aggregatedDevices →
      absenceTimeout r s.pool < (env.now : Int) - entry.1 := by
  intro entry hentry hlists
  obtain ⟨x, hx⟩ := List.exists_mem_of_ne_nil _ hcleaned
  obtain ⟨t, htimeout, hall⟩ :=
    isAbsent_spec ((reconcile_justified r env s.pool s.items).cleaned x hx)
  obtain ⟨hclock, hattests⟩ := hinv entry hentry hlists
  rcases hattests with ⟨dev, hdev, havailable⟩ | ⟨dev, hdev, hseen⟩
  · rw [(hall dev hdev).1] at havailable
    cases havailable
  · calc absenceTimeout r s.pool < since env.now t := htimeout
      _ ≤ since env.now entry.1 := since_anti env.now (hseen.trans (hall dev hdev).2)
      _ ≤ (env.now : Int) - entry.1 := since_le (hclock.trans hnow)

theorem inv_step (r : HSMPoolAgentReconciler) (s : State) (a : Step) (hinv : Inv s)
    (ha : Remembered s a) : Inv (step r s a) ∧ Retained r s a := by
  cases a with
  | update elapsed env =>
    have hnext := inv_update { env with now := s.clock + elapsed } hinv (Nat.le_add_right _ _) ha
    exact ⟨hnext, trivial⟩
  | agents elapsed env =>
    refine ⟨fun entry hentry hlists => ?_, fun hcleaned => ?_⟩
    · obtain ⟨hclock, hattests⟩ := hinv entry hentry hlists
      exact ⟨hclock.trans (Nat.le_add_right _ _), hattests⟩
    · exact lt_of_cleaned { env with now := s.clock + elapsed } hinv
        (Nat.le_add_right _ _) hcleaned

/-- As long as no stored status forgets a device that an earlier one listed as available, agents are
cleaned up after the absence timeout only. -/
theorem cleanup_waits_for_absence (r : HSMPoolAgentReconciler) (pool : HSMPool) (clock : Nat)
    (items : List Deployment) {steps : List Step}
    (h : Along (step r) Remembered { pool, clock, items } steps) :
    Along (step r) (Retained r) { pool, clock, items } steps :=
  Along.of_invariant Inv (inv_step r) (fun _ hentry => absurd hentry List.not_mem_nil) h

private def report (phase : PodPhase) (available : Bool) (lastSeen : Nat) : DiscoveryPod where
  name := "pico-discovery-n1"
  nodeName := "n1"
  phase
  deviceReport := .report
    { hsmDeviceName := "pico", reportingNode := "n1", lastReportTime := lastSeen
      discoveryStatus := "completed"
      discoveredDevices :=
        [{ devicePath := "/dev/bus/usb/001/004", serialNumber := "DC6A", nodeName := "n1"
           lastSeen, available }] }

private def listing (pods : Except String (List DiscoveryPod)) : Pool.Aggregation.Env where
  now := 0
  daemonSets := fun _ => some ⟨1, pods⟩

private def pico : HSMPool := { ownerReferences := ["pico"] }

private def agents (elapsed : Nat) : Step := .agents elapsed { now := 0, serials := ["DC6A"] }

/-- The device is lost a minute after it was listed, its pod is not Running any more, and the agent
is cleaned up when ten minutes have passed. -/
theorem cleanup_after_absence :
    let steps := [.update 0 (listing (.ok [report .running true (60 * minute)])), agents 0,
      .update (2 * minute) (listing (.ok [report .pending false (61 * minute)])),
      agents (10 * minute)]
    Along (step {}) (Retained {}) { pool := pico, clock := 60 * minute, items := [] } steps :=
  cleanup_waits_for_absence {} pico (60 * minute) [] (by decide +kernel)

/-- One listing of the pods fails, a minute after the device was available. -/
theorem failed_listing_deletes_agents :
    let steps := [.update 0 (listing (.ok [report .running true (60 * minute)])), agents 0,
      .update minute (listing (.error "timeout")), agents 0]
    ¬ Along (step {}) (Retained {}) { pool := pico, clock := 60 * minute, items := [] } steps := by
  decide +kernel

end HsmSecretsOperator.System.AgentRetention
