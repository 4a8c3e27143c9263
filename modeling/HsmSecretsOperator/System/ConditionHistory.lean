/- source: internal/controller/hsmsecret_controller.go, internal/controller/hsmpool_controller.go
   digest: What the conditions of HSMSecrets and HSMPools record over sequences of updates. -/

import HsmSecretsOperator.Controller.Status
import HsmSecretsOperator.Pool.Aggregation

set_option autoImplicit false

namespace HsmSecretsOperator.System.ConditionHistory

open Controller.Status
open Discovery.Report (DiscoveredDevice)
open Foundation.Conditions
open Pool.Aggregation (HSMPoolPhase HSMPoolStatus PodReport newStatus phaseName)

/-- The time of an update and the status that it gives to the condition. -/
def entry (u : StatusUpdate) : Nat × Bool := (u.now, u.ready)

/-- The status after a sequence of updates of an empty one. -/
def statusAfter (updates : List StatusUpdate) : HSMSecretStatus := updates.foldl updateStatus {}

theorem conditions_statusAfter (updates : List StatusUpdate) :
    (statusAfter updates).conditions = record "Ready" (fun u _ => u.condition) updates := by
  have hfold (status : HSMSecretStatus) : (updates.foldl updateStatus status).conditions =
      updates.foldl (fun conditions u => setCondition "Ready" (fun _ => u.condition) conditions)
        status.conditions := by
    induction updates generalizing status with
    | nil => rfl
    | cons u updates ih => exact ih (updateStatus status u)
  exact hfold {}

private theorem sets_ready : Sets "Ready" (fun (u : StatusUpdate) _ => u.condition) entry where
  type _ _ := rfl
  status _ _ := rfl

/-- What `updatePoolStatus` is called with, and when. -/
structure PoolUpdate where
  now : Nat
  phase : HSMPoolPhase
  devices : List DiscoveredDevice
  podReports : List PodReport
  expectedPods : Int
  errorMsg : String

def PoolUpdate.holds (u : PoolUpdate) : Bool := u.errorMsg = ""

def poolEntry (u : PoolUpdate) : Nat × Bool := (u.now, u.holds)

/-- The condition that replaces the one of its type. -/
def poolCondition (u : PoolUpdate) (old : Option Condition) : Condition where
  type := "DeviceAggregation"
  status := u.holds
  lastTransitionTime :=
    match old with
    | some cond => if cond.status ≠ u.holds then u.now else cond.lastTransitionTime
    | none => u.now
  reason := if u.holds then phaseName u.phase else "Error"
  message :=
    if u.holds then s!"Aggregated {u.devices.length} devices from {u.expectedPods} pods"
    else u.errorMsg

/-- The conditions after a sequence of updates of an empty status. -/
def poolConditions (updates : List PoolUpdate) : List Condition :=
  record "DeviceAggregation" poolCondition updates

private theorem sets_poolCondition : Sets "DeviceAggregation" poolCondition poolEntry where
  type _ _ := rfl
  status _ _ := rfl

def poolStatusAfter (updates : List PoolUpdate) : HSMPoolStatus :=
  updates.foldl (fun status u =>
    newStatus u.now status u.phase u.devices u.podReports u.expectedPods u.errorMsg) {}

/-- The condition in the status of a pool, with its type. -/
def typed (cond : Pool.Aggregation.Condition) : Condition where
  type := "DeviceAggregation"
  status := cond.holds
  lastTransitionTime := cond.lastTransitionTime
  reason := cond.reason
  message := cond.message

/-- The list holds the one condition that the status of the pool has. -/
theorem poolConditions_eq (updates : List PoolUpdate) :
    poolConditions updates = ((poolStatusAfter updates).condition.map typed).toList := by
  induction updates using List.reverseRecOn with
  | nil => rfl
  | append_singleton updates u ih =>
    have hsnoc : poolStatusAfter (updates ++ [u]) = newStatus u.now (poolStatusAfter updates)
        u.phase u.devices u.podReports u.expectedPods u.errorMsg := by
      rw [poolStatusAfter, List.foldl_append]
      rfl
    rw [poolConditions] at ih ⊢
    rw [record_append sets_poolCondition, ih, hsnoc]
    unfold newStatus
    cases (poolStatusAfter updates).condition with
    | none => rfl
    | some cond => rfl

theorem poolConditions_recorded (updates : List PoolUpdate) :
    Recorded (updates.map poolEntry) (poolConditions updates) :=
  recorded_of_keeps sets_poolCondition (fun _ => rfl) (fun _ _ => rfl) updates

/-- At every moment of both sequences there is one condition of a type at most, with the time of
its last transition; this is so exactly if no update of the HSMSecret repeats at another time the
readiness that the one before it has set. -/
theorem conditions_recorded_iff (updates : List StatusUpdate) (poolUpdates : List PoolUpdate) :
    ((∀ us, us <+: updates → Recorded (us.map entry) (statusAfter us).conditions) ∧
        ∀ us, us <+: poolUpdates → Recorded (us.map poolEntry) (poolConditions us)) ↔
      updates.IsChain fun a b => a.ready = b.ready → a.now = b.now := by
  simp only [conditions_statusAfter]
  rw [recorded_of_stamps_iff sets_ready (fun _ _ => rfl) updates]
  exact and_iff_left fun us _ => poolConditions_recorded us

private def resyncs : List StatusUpdate := [⟨0, .inSync, ""⟩, ⟨30, .inSync, ""⟩]

/-- A second sync half a minute after the first moves the time, and nothing has changed. -/
theorem resync_moves_transition :
    ¬ Recorded (resyncs.map entry) (statusAfter resyncs).conditions := by
  intro h
  have hstamped := h.time _ List.mem_cons_self
  have hfirst : LastTransition (resyncs.map entry) 0 :=
    ⟨[], (0, true), [(30, true)], rfl, rfl, by simp, by simp⟩
  have htime : (30 : Nat) = 0 := hstamped.unique hfirst
  omega

end HsmSecretsOperator.System.ConditionHistory
