/- source: internal/api/proxy_client.go, internal/agent/connection_pool.go,
     internal/agent/manager.go
   digest: Whether the client under a serial number talks to the agent of that device. -/

import HsmSecretsOperator.Agent.ConnectionPool
import HsmSecretsOperator.Foundation.Runs

set_option autoImplicit false

namespace HsmSecretsOperator.System.ClientRouting

open Agent.ConnectionPool Foundation.Maps Foundation.Runs

/-- The loop of `getAllAvailableGRPCClients` waits for a client of the pool. -/
structure Creating where
  serial : String
  endpoint : String
  attempt : Nat

/-- The agent pods, the pool, and the clients of the proxy by serial number. -/
structure State where
  pods : List Pod
  pool : Pool := {}
  grpcClients : Std.ExtTreeMap String Client := ∅
  creating : Option Creating := none

inductive Event where
  /-- Pods start, stop or are assigned IPs. -/
  | cluster (pods : List Pod)
  /-- The turn of the loop for a device, with what the agent answers to its cached client. -/
  | visit (serial : String) (answer : Bool)
  /-- The next attempt to get a client from the pool. -/
  | attempt (a : Answers)
  /-- An attempt of another user of the pool. -/
  | use (endpoint : String) (a : Answers) (attempt : Nat)

/-- The end of a turn without a cached client. The endpoint is looked up once, before the
attempts. -/
def beginCreate (s : State) (serial : String) : State :=
  match agentEndpoint s.pods serial with
  | .error _ => s
  | .ok endpoint => { s with creating := some { serial, endpoint, attempt := 1 } }

/-- A turn of the loop, and the client if it places the cached one. The loop holds a mutex, so there
is no other turn before its client has been created. -/
def visit (s : State) (serial : String) (answer : Bool) : State × Option Client :=
  if s.creating.isSome then (s, none)
  else
    match s.grpcClients[serial]? with
    | some c =>
      if isConnected s.pods s.pool answer c then (s, some c)
      else (beginCreate { s with grpcClients := s.grpcClients.erase serial } serial, none)
    | none => (beginCreate s serial, none)

/-- An attempt of the waiting loop, and what it places when it ends with a client. -/
def attempt (s : State) (a : Answers) : State × Option (String × Client) :=
  match s.creating with
  | none => (s, none)
  | some k =>
    match clientTurn s.pods a s.pool k.endpoint k.attempt with
    | (pool, .client c) =>
      ({ s with pool, grpcClients := s.grpcClients.insert k.serial c, creating := none },
        some (k.serial, c))
    | (pool, .again _) =>
      ({ s with pool, creating := some { k with attempt := k.attempt + 1 } }, none)
    | (pool, .failed _) => ({ s with pool, creating := none }, none)

def step (s : State) : Event → State
  | .cluster pods => { s with pods }
  | .visit serial answer => (visit s serial answer).1
  | .attempt a => (attempt s a).1
  | .use endpoint a n => { s with pool := (clientTurn s.pods a s.pool endpoint n).1 }

/-- The client that the event places under a serial number. -/
def placed (s : State) : Event → Option (String × Client)
  | .visit serial answer => (visit s serial answer).2.map fun c => (serial, c)
  | .attempt a => (attempt s a).2
  | .cluster _ | .use _ _ _ => none

/-- A client that is placed under a serial number and reports itself connected talks to an agent
with that label. -/
def Routed (s : State) (e : Event) : Prop :=
  ∀ placement ∈ placed s e, ∀ answer,
    isConnected (step s e).pods (step s e).pool answer placement.2 = true →
      ∃ pod ∈ holderOf (step s e).pods placement.2.endpoint, pod.serial = placement.1

instance (s : State) (e : Event) : Decidable (Routed s e) :=
  inferInstanceAs (Decidable (∀ placement ∈ placed s e, _))

/-- At most one running pod holds an IP, at any time. -/
def Exclusive (_ : State) : Event → Prop
  | .cluster pods => OneHolder pods
  | .visit .. | .attempt _ | .use .. => True

instance instDecidableExclusive (s : State) : ∀ e, Decidable (Exclusive s e)
  | .cluster pods => inferInstanceAs (Decidable (OneHolder pods))
  | .visit .. | .attempt _ | .use .. => inferInstanceAs (Decidable True)

/-- Every pod that serves the endpoint has the serial number. -/
def Belongs (pods : List Pod) (serial endpoint : String) : Prop :=
  ∀ pod ∈ pods, pod.serves endpoint = true → pod.serial = serial

instance (pods : List Pod) (serial endpoint : String) : Decidable (Belongs pods serial endpoint) :=
  inferInstanceAs (Decidable (∀ pod ∈ pods, _))

/-- No agent of another device gets an IP for which the proxy keeps an open client or waits for
one. -/
def Undisturbed (s : State) : Event → Prop
  | .cluster pods =>
      (∀ entry ∈ s.grpcClients.toList, entry.2.id ∉ s.pool.closed →
        Belongs pods entry.1 entry.2.endpoint) ∧
      ∀ k ∈ s.creating, Belongs pods k.serial k.endpoint
  | .visit .. | .attempt _ | .use .. => True

instance instDecidableUndisturbed (s : State) : ∀ e, Decidable (Undisturbed s e)
  | .cluster pods => inferInstanceAs (Decidable
      ((∀ entry ∈ s.grpcClients.toList, entry.2.id ∉ s.pool.closed →
        Belongs pods entry.1 entry.2.endpoint) ∧
      ∀ k ∈ s.creating, Belongs pods k.serial k.endpoint))
  | .visit .. | .attempt _ | .use .. => inferInstanceAs (Decidable True)

structure Inv (s : State) : Prop where
  one : OneHolder s.pods
  filed : Filed s.pool
  cached : ∀ (serial : String) (c : Client), s.grpcClients[serial]? = some c →
    c.id ∉ s.pool.closed → Belongs s.pods serial c.endpoint
  awaited : ∀ k ∈ s.creating, Belongs s.pods k.serial k.endpoint

section Steps

variable {s : State}

theorem inv_beginCreate (hs : Inv s) (serial : String) : Inv (beginCreate s serial) := by
  unfold beginCreate
  split
  · exact hs
  next endpoint hendpoint =>
    refine ⟨hs.one, hs.filed, hs.cached, ?_⟩
    rintro k ⟨⟩
    obtain ⟨pod, hpod, hserial, hserves⟩ := exists_of_agentEndpoint hendpoint
    intro pod' hpod' hserves'
    rw [hs.one.eq_of_serves hpod' hpod hserves' hserves]
    exact hserial

private theorem inv_forget (hs : Inv s) (serial : String) :
    Inv { s with grpcClients := s.grpcClients.erase serial } := by
  refine ⟨hs.one, hs.filed, ?_, hs.awaited⟩
  intro serial' c hc
  exact hs.cached serial' c (of_getElem?_erase hc)

private theorem inv_follow (hs : Inv s) {pool : Pool} (h : Follows s.pool pool) :
    Inv { s with pool } := by
  refine ⟨hs.one, h.filed hs.filed, ?_, hs.awaited⟩
  intro serial c hc hopen
  exact hs.cached serial c hc fun hclosed => hopen (h.closed hclosed)

theorem inv_visit (hs : Inv s) (serial : String) (answer : Bool) :
    Inv (visit s serial answer).1 := by
  unfold visit
  split
  · exact hs
  split
  · split
    · exact hs
    · exact inv_beginCreate (inv_forget hs serial) serial
  · exact inv_beginCreate hs serial

theorem inv_attempt (hs : Inv s) (a : Answers) : Inv (attempt s a).1 := by
  unfold attempt
  split
  · exact hs
  next k hk =>
    have hfollows := follows_clientTurn s.pods a s.pool k.endpoint k.attempt
    have hmoved := inv_follow hs hfollows
    split
    next pool c hturn =>
      have hclient : (clientTurn s.pods a s.pool k.endpoint k.attempt).2 = .client c := by
        rw [hturn]
      have hendpoint := endpoint_of_clientTurn hs.filed hclient
      rw [hturn] at hmoved
      refine ⟨hs.one, hmoved.filed, ?_, by rintro k' ⟨⟩⟩
      intro serial c' hc' hopen
      rcases of_getElem?_insert hc' with ⟨rfl, rfl⟩ | hc'
      · rw [hendpoint]
        exact hs.awaited k hk
      · exact hmoved.cached serial c' hc' hopen
    next pool _ hturn =>
      rw [hturn] at hmoved
      refine ⟨hs.one, hmoved.filed, hmoved.cached, ?_⟩
      rintro k' ⟨⟩
      exact hs.awaited k hk
    next pool _ hturn =>
      rw [hturn] at hmoved
      exact ⟨hs.one, hmoved.filed, hmoved.cached, by rintro k' ⟨⟩⟩

theorem inv_step (hs : Inv s) (e : Event) (hone : Exclusive s e) (h : Undisturbed s e) :
    Inv (step s e) := by
  cases e with
  | cluster pods =>
    refine ⟨hone, hs.filed, ?_, h.2⟩
    intro serial c hc
    exact h.1 (serial, c) (Std.ExtTreeMap.mem_toList_iff_getElem?_eq_some.mpr hc)
  | visit serial answer => exact inv_visit hs serial answer
  | attempt a => exact inv_attempt hs a
  | use endpoint a n => exact inv_follow hs (follows_clientTurn s.pods a s.pool endpoint n)

private theorem cached_of_visit {serial : String} {answer : Bool} {c : Client}
    (h : (visit s serial answer).2 = some c) :
    (visit s serial answer).1.grpcClients[serial]? = some c := by
  unfold visit at h ⊢
  split at h
  · cases h
  next hfree =>
    rw [if_neg hfree]
    split at h
    next c' hc' =>
      split at h
      next hconnected =>
        rw [if_pos hconnected, ← Option.some.inj h]
        exact hc'
      next => cases h
    next => cases h

private theorem cached_of_attempt {a : Answers} {placement : String × Client}
    (h : (attempt s a).2 = some placement) :
    (attempt s a).1.grpcClients[placement.1]? = some placement.2 := by
  unfold attempt at h ⊢
  split at h
  · cases h
  next k hk =>
    split at h
    next pool c hturn =>
      obtain rfl := Option.some.inj h
      exact Std.ExtTreeMap.getElem?_insert_self
    next => cases h
    next => cases h

theorem cached_of_placed {e : Event} {placement : String × Client} (h : placement ∈ placed s e) :
    (step s e).grpcClients[placement.1]? = some placement.2 := by
  cases e with
  | cluster pods => cases h
  | use endpoint a n => cases h
  | visit serial answer =>
    obtain ⟨c, hc, rfl⟩ := Option.map_eq_some_iff.mp h
    exact cached_of_visit hc
  | attempt a => exact cached_of_attempt h

theorem routed_of_inv {e : Event} (hs : Inv (step s e)) : Routed s e := by
  intro placement hplaced answer hconnected
  obtain ⟨hopen, pod, hpod, hserves, hholder⟩ := holderOf_of_isConnected hconnected
  have hcached := cached_of_placed hplaced
  exact ⟨pod, hholder, hs.cached placement.1 placement.2 hcached hopen pod hpod hserves⟩

end Steps

/-- In an undisturbed run every connected client that is placed under a serial number talks to the
agent of that device. -/
theorem clients_reach_their_device (pods : List Pod) (hone : OneHolder pods) (events : List Event)
    (hexclusive : Along step Exclusive { pods } events)
    (h : Along step Undisturbed { pods } events) : Along step Routed { pods } events := by
  refine (hexclusive.and h).of_invariant Inv ?_ ?_
  · rintro s e hs ⟨hexcl, hund⟩
    have hnext := inv_step hs e hexcl hund
    exact ⟨hnext, routed_of_inv hnext⟩
  · refine ⟨hone, ?_, ?_, ?_⟩
    · intro endpoint c hc
      simp at hc
    · intro serial c hc
      simp at hc
    · rintro k ⟨⟩

private def podA : Pod :=
  { name := "agent-a", serial := "A", running := true, podIPs := ["10.0.0.1"] }

private def podB (ip : String) : Pod :=
  { name := "agent-b", serial := "B", running := true, podIPs := [ip] }

private def restart (ip : String) : List Event :=
  [.visit "A" true, .attempt {}, .cluster [{ podA with running := false }, podB ip],
    .visit "A" true]

/-- The second agent gets the IP of the first and is taken for it. -/
theorem reused_ip_reaches_other_device :
    Along step Exclusive { pods := [podA] } (restart "10.0.0.1") ∧
      ¬ Along step Routed { pods := [podA] } (restart "10.0.0.1") := by
  decide +kernel

theorem fresh_ip_reaches_own_device :
    Along step Routed { pods := [podA] } (restart "10.0.0.2") :=
  clients_reach_their_device [podA] (by decide) _ (by decide +kernel) (by decide +kernel)

end HsmSecretsOperator.System.ClientRouting
