/- source: internal/agent/connection_pool.go, internal/agent/manager.go,
     internal/agent/grpc_client.go
   digest: The pool of clients by endpoint, and the endpoint of the agent pod of a serial number. -/

import Mathlib.Data.List.Basic
import HsmSecretsOperator.Foundation.Maps

set_option autoImplicit false

namespace HsmSecretsOperator.Agent.ConnectionPool

open Foundation.Maps

/-- An agent pod with its serial number label. -/
structure Pod where
  name : String
  serial : String
  running : Bool
  podIPs : List String
  deriving DecidableEq

def agentPort : Nat := 9090

def endpointOf (ip : String) : String := ip ++ ":" ++ toString agentPort

/-- The pod answers connections to the endpoint. -/
def Pod.serves (pod : Pod) (endpoint : String) : Bool :=
  pod.running && pod.podIPs.any fun ip => endpointOf ip = endpoint

def holderOf (pods : List Pod) (endpoint : String) : Option Pod := pods.find? (·.serves endpoint)

/-- The part of `CreateGRPCClient` before the pool: the endpoint of the first running pod. -/
def agentEndpoint (pods : List Pod) (serial : String) : Except String String :=
  let items := pods.filter fun pod => pod.serial = serial
  if items.isEmpty then .error s!"no agent pod found for device with serial number {serial}"
  else
    match items.findSome? fun pod => if pod.running then pod.podIPs.head? else none with
    | none => .error s!"no running agent pod found for device with serial number {serial}"
    | some podIP => .ok (endpointOf podIP)

/-- A gRPC client; two clients of one endpoint differ in their numbers. -/
structure Client where
  id : Nat
  endpoint : String
  deriving DecidableEq

/-- The pooled clients by endpoint, and the numbers of those that were closed. -/
structure Pool where
  clients : Std.ExtTreeMap String Client := ∅
  closed : List Nat := []
  nextId : Nat := 0

structure Answers where
  /-- The agent behind the pooled client says that its HSM is connected. -/
  pooled : Bool := true
  /-- The error of `NewGRPCClient`. -/
  dial : Option String := none
  /-- The agent answers `GetInfo`; the text is that of the error if it or its pod does not. -/
  info : Bool := true
  infoError : String := ""
  /-- The agent says so again in the health check. -/
  health : Bool := true

/-- `IsConnected`: a client that is closed or has no pod behind its endpoint reports false, the
others report what their agent answers. -/
def isConnected (pods : List Pod) (p : Pool) (answer : Bool) (c : Client) : Bool :=
  c.id ∉ p.closed && (holderOf pods c.endpoint).isSome && answer

def removeClient (p : Pool) (endpoint : String) : Pool :=
  match p.clients[endpoint]? with
  | some c => { p with clients := p.clients.erase endpoint, closed := c.id :: p.closed }
  | none => p

/-- The second half of `getClientAttempt`: a new client, which is closed again if its agent does
not answer. -/
def createClient (pods : List Pod) (a : Answers) (p : Pool) (endpoint : String) :
    Pool × Except String Client :=
  match a.dial with
  | some e => (p, .error s!"failed to create gRPC client: {e}")
  | none =>
    let c : Client := { id := p.nextId, endpoint }
    let p := { p with nextId := p.nextId + 1 }
    if (holderOf pods endpoint).isSome && a.info then
      ({ p with clients := p.clients.insert endpoint c }, .ok c)
    else
      ({ p with closed := c.id :: p.closed },
        .error ("failed to initialize gRPC client: failed to initialize gRPC client: " ++
          s!"failed to get HSM info: {a.infoError}"))

/-- One attempt; a pooled client that is not connected is closed and replaced. -/
def getClientAttempt (pods : List Pod) (a : Answers) (p : Pool) (endpoint : String) :
    Pool × Except String Client :=
  match p.clients[endpoint]? with
  | some c =>
    if isConnected pods p a.pooled c then (p, .ok c)
    else createClient pods a (removeClient p endpoint) endpoint
  | none => createClient pods a p endpoint

def maxRetries : Nat := 3

/-- What one turn of the retry loop ends in. -/
inductive Turn where
  | client (c : Client)
  | again (lastErr : String)
  | failed (err : String)

/-- One turn of the loop of `getClientWithRetry`. The last attempt returns its client although the
health check failed and the pool has closed it. -/
def clientTurn (pods : List Pod) (a : Answers) (p : Pool) (endpoint : String) (attempt : Nat) :
    Pool × Turn :=
  match getClientAttempt pods a p endpoint with
  | (p, .ok c) =>
    if isConnected pods p a.health c then (p, .client c)
    else if attempt < maxRetries then
      (removeClient p endpoint, .again "health check failed: client not connected")
    else (removeClient p endpoint, .client c)
  | (p, .error e) =>
    if attempt < maxRetries then (p, .again e)
    else (p, .failed s!"failed to create client after {maxRetries} attempts: {e}")

def closeAll (p : Pool) : Pool :=
  { p with
    clients := ∅
    closed := p.clients.toList.map (fun entry => entry.2.id) ++ p.closed }

/-- At most one running pod holds an IP. -/
def OneHolder (pods : List Pod) : Prop :=
  ∀ p ∈ pods, ∀ q ∈ pods, p.running = true → q.running = true →
    (∃ ip ∈ p.podIPs, ip ∈ q.podIPs) → p = q

instance (pods : List Pod) : Decidable (OneHolder pods) :=
  inferInstanceAs (Decidable (∀ p ∈ pods, ∀ q ∈ pods, _))

theorem endpointOf_inj {ip ip' : String} (h : endpointOf ip = endpointOf ip') : ip = ip' := by
  simpa [endpointOf] using h

variable {pods : List Pod} {c : Client}

theorem OneHolder.eq_of_serves (h : OneHolder pods) {p q : Pod} (hp : p ∈ pods)
    (hq : q ∈ pods) {endpoint : String} (hpe : p.serves endpoint = true)
    (hqe : q.serves endpoint = true) : p = q := by
  simp only [Pod.serves, Bool.and_eq_true, List.any_eq_true, decide_eq_true_eq] at hpe hqe
  obtain ⟨hprun, ip, hip, hpip⟩ := hpe
  obtain ⟨hqrun, ip', hip', hqip⟩ := hqe
  have hsame := endpointOf_inj (hpip.trans hqip.symm)
  exact h p hp q hq hprun hqrun ⟨ip, hip, hsame ▸ hip'⟩

theorem exists_of_agentEndpoint {serial endpoint : String}
    (h : agentEndpoint pods serial = .ok endpoint) :
    ∃ pod ∈ pods, pod.serial = serial ∧ pod.serves endpoint = true := by
  unfold agentEndpoint at h
  dsimp only at h
  split at h
  · cases h
  split at h
  · cases h
  next podIP hfound =>
    obtain ⟨pod, hpod, hip⟩ := List.exists_of_findSome?_eq_some hfound
    rw [List.mem_filter, decide_eq_true_eq] at hpod
    split at hip
    next hrunning =>
      refine ⟨pod, hpod.1, hpod.2, ?_⟩
      simp only [Pod.serves, hrunning, Bool.true_and, List.any_eq_true, decide_eq_true_eq]
      exact ⟨podIP, List.mem_of_head? hip, Except.ok.inj h⟩
    next => cases hip

theorem holderOf_of_isConnected {p : Pool} {answer : Bool}
    (h : isConnected pods p answer c = true) :
    c.id ∉ p.closed ∧ ∃ pod ∈ pods, pod.serves c.endpoint = true ∧
      holderOf pods c.endpoint = some pod := by
  simp only [isConnected, Bool.and_eq_true, decide_eq_true_eq, Option.isSome_iff_exists] at h
  obtain ⟨⟨hopen, pod, hpod⟩, _⟩ := h
  have hserves : pod.serves c.endpoint = true :=
    List.find?_some (p := fun q : Pod => q.serves c.endpoint) hpod
  exact ⟨hopen, pod, List.mem_of_find?_eq_some hpod, hserves, hpod⟩

/-- Every pooled client is filed under its endpoint. -/
def Filed (p : Pool) : Prop :=
  ∀ (endpoint : String) (c : Client), p.clients[endpoint]? = some c → c.endpoint = endpoint

/-- A pool after an operation: still filed, and nothing closed has been opened. -/
structure Follows (p p' : Pool) : Prop where
  filed : Filed p → Filed p'
  closed : p.closed ⊆ p'.closed

variable {a : Answers} {p : Pool} {endpoint : String}

theorem Follows.refl (p : Pool) : Follows p p := ⟨id, List.Subset.refl _⟩

theorem Follows.trans {p p' p'' : Pool} (h : Follows p p') (h' : Follows p' p'') :
    Follows p p'' :=
  ⟨h'.filed ∘ h.filed, List.Subset.trans h.closed h'.closed⟩

theorem follows_removeClient (p : Pool) (endpoint : String) :
    Follows p (removeClient p endpoint) := by
  unfold removeClient
  split
  next c _ =>
    refine ⟨fun hfiled e c' hc' => ?_, List.subset_cons_self c.id p.closed⟩
    exact hfiled e c' (of_getElem?_erase hc')
  next => exact .refl p

theorem follows_createClient (pods : List Pod) (a : Answers) (p : Pool) (endpoint : String) :
    Follows p (createClient pods a p endpoint).1 := by
  unfold createClient
  split
  · exact .refl p
  dsimp only
  split
  · refine ⟨fun hfiled e c' hc' => ?_, List.Subset.refl _⟩
    rcases of_getElem?_insert hc' with ⟨rfl, rfl⟩ | hc'
    · rfl
    · exact hfiled e c' hc'
  · exact ⟨fun hfiled => hfiled, List.subset_cons_self _ _⟩

theorem endpoint_of_createClient
    (h : (createClient pods a p endpoint).2 = .ok c) : c.endpoint = endpoint := by
  unfold createClient at h
  split at h
  · cases h
  dsimp only at h
  split at h
  · rw [← Except.ok.inj h]
  · cases h

theorem follows_getClientAttempt (pods : List Pod) (a : Answers) (p : Pool) (endpoint : String) :
    Follows p (getClientAttempt pods a p endpoint).1 := by
  unfold getClientAttempt
  split
  · split
    · exact .refl p
    · exact (follows_removeClient p endpoint).trans (follows_createClient pods a _ endpoint)
  · exact follows_createClient pods a p endpoint

theorem endpoint_of_getClientAttempt (hfiled : Filed p)
    (h : (getClientAttempt pods a p endpoint).2 = .ok c) : c.endpoint = endpoint := by
  unfold getClientAttempt at h
  split at h
  next c' hc' =>
    split at h
    · rw [← Except.ok.inj h]
      exact hfiled endpoint c' hc'
    · exact endpoint_of_createClient h
  next => exact endpoint_of_createClient h

theorem follows_clientTurn (pods : List Pod) (a : Answers) (p : Pool) (endpoint : String)
    (attempt : Nat) : Follows p (clientTurn pods a p endpoint attempt).1 := by
  have hattempt := follows_getClientAttempt pods a p endpoint
  unfold clientTurn
  split
  next p' c heq =>
    rw [heq] at hattempt
    split
    · exact hattempt
    split
    · exact hattempt.trans (follows_removeClient p' endpoint)
    · exact hattempt.trans (follows_removeClient p' endpoint)
  next p' e heq =>
    rw [heq] at hattempt
    split
    · exact hattempt
    · exact hattempt

theorem endpoint_of_clientTurn (hfiled : Filed p) {attempt : Nat}
    (h : (clientTurn pods a p endpoint attempt).2 = .client c) : c.endpoint = endpoint := by
  unfold clientTurn at h
  split at h
  next p' c' heq =>
    have hattempt : (getClientAttempt pods a p endpoint).2 = .ok c' := by rw [heq]
    have hendpoint := endpoint_of_getClientAttempt hfiled hattempt
    split at h
    · exact (Turn.client.inj h) ▸ hendpoint
    split at h
    · cases h
    · exact (Turn.client.inj h) ▸ hendpoint
  next p' e heq =>
    split at h
    · cases h
    · cases h

/-- A client that was ever dialled is stored under one endpoint or closed, and never both. -/
structure Owned (p : Pool) : Prop where
  stored : ∀ (e : String) (c : Client), p.clients[e]? = some c →
    c.id < p.nextId ∧ c.id ∉ p.closed
  single : ∀ (e e' : String) (c c' : Client), p.clients[e]? = some c → p.clients[e']? = some c' →
    c.id = c'.id → e = e'
  closed : ∀ id ∈ p.closed, id < p.nextId
  kept : ∀ id < p.nextId, id ∈ p.closed ∨ ∃ (e : String) (c : Client), p.clients[e]? = some c ∧
    c.id = id

theorem owned_empty : Owned {} where
  stored _ _ h := by simp at h
  single _ _ _ _ h := by simp at h
  closed _ h := by cases h
  kept _ h := by cases h

theorem clients_removeClient (p : Pool) (endpoint : String) :
    (removeClient p endpoint).clients[endpoint]? = none := by
  unfold removeClient
  split
  next => exact Std.ExtTreeMap.getElem?_erase_self
  next habsent => exact habsent

theorem Owned.removeClient (h : Owned p) (endpoint : String) :
    Owned (removeClient p endpoint) := by
  unfold ConnectionPool.removeClient
  split
  next c hc =>
    have hother : ∀ (e : String) (c' : Client), (p.clients.erase endpoint)[e]? = some c' →
        p.clients[e]? = some c' ∧ c'.id ≠ c.id := by
      intro e c' hc'
      refine ⟨of_getElem?_erase hc', fun hid => ?_⟩
      obtain rfl := h.single e endpoint c' c (of_getElem?_erase hc') hc hid
      rw [Std.ExtTreeMap.getElem?_erase_self] at hc'
      cases hc'
    refine ⟨fun e c' hc' => ?_, fun e e' c₁ c₂ h₁ h₂ => ?_, fun id hid => ?_, fun id hid => ?_⟩
    · obtain ⟨hstored, hne⟩ := hother e c' hc'
      obtain ⟨hlt, hopen⟩ := h.stored e c' hstored
      exact ⟨hlt, fun hmem => (List.mem_cons.mp hmem).elim hne hopen⟩
    · exact h.single e e' c₁ c₂ (hother e c₁ h₁).1 (hother e' c₂ h₂).1
    · rcases List.mem_cons.mp hid with rfl | hid
      · exact (h.stored endpoint c hc).1
      · exact h.closed id hid
    · rcases h.kept id hid with hclosed | ⟨e, c', hc', rfl⟩
      · exact .inl (List.mem_cons_of_mem _ hclosed)
      by_cases he : endpoint = e
      · subst he
        obtain rfl := Option.some.inj (hc.symm.trans hc')
        exact .inl List.mem_cons_self
      · exact .inr ⟨e, c', (getElem?_erase_of_ne p.clients he).trans hc', rfl⟩
  next => exact h

theorem Owned.createClient (h : Owned p) (habsent : p.clients[endpoint]? = none)
    (pods : List Pod) (a : Answers) : Owned (createClient pods a p endpoint).1 := by
  have hfresh : p.nextId ∉ p.closed := fun hmem => Nat.lt_irrefl _ (h.closed _ hmem)
  unfold ConnectionPool.createClient
  split
  · exact h
  dsimp only
  split
  · refine ⟨fun e c hc => ?_, fun e e' c c' hc hc' hid => ?_, fun id hid => ?_, fun id hid => ?_⟩
    · rcases of_getElem?_insert hc with ⟨-, rfl⟩ | hc
      · exact ⟨Nat.lt_succ_self _, hfresh⟩
      · exact ⟨Nat.lt_succ_of_lt (h.stored e c hc).1, (h.stored e c hc).2⟩
    · rcases of_getElem?_insert hc with ⟨rfl, rfl⟩ | hc
      · rcases of_getElem?_insert hc' with ⟨rfl, -⟩ | hc'
        · rfl
        · exact absurd hid (Nat.ne_of_gt (h.stored e' c' hc').1)
      · rcases of_getElem?_insert hc' with ⟨rfl, rfl⟩ | hc'
        · exact absurd hid (Nat.ne_of_lt (h.stored e c hc).1)
        · exact h.single e e' c c' hc hc' hid
    · exact Nat.lt_succ_of_lt (h.closed id hid)
    · rcases Nat.lt_succ_iff_lt_or_eq.mp hid with hid | rfl
      · rcases h.kept id hid with hclosed | ⟨e, c, hc, rfl⟩
        · exact .inl hclosed
        · have he : endpoint ≠ e := by
            rintro rfl
            rw [habsent] at hc
            cases hc
          exact .inr ⟨e, c, (getElem?_insert_of_ne p.clients he _).trans hc, rfl⟩
      · exact .inr ⟨endpoint, _, Std.ExtTreeMap.getElem?_insert_self, rfl⟩
  · refine ⟨fun e c hc => ?_, h.single, fun id hid => ?_, fun id hid => ?_⟩
    · obtain ⟨hlt, hopen⟩ := h.stored e c hc
      exact ⟨Nat.lt_succ_of_lt hlt,
        fun hmem => (List.mem_cons.mp hmem).elim (Nat.ne_of_lt hlt) hopen⟩
    · rcases List.mem_cons.mp hid with rfl | hid
      · exact Nat.lt_succ_self _
      · exact Nat.lt_succ_of_lt (h.closed id hid)
    · rcases Nat.lt_succ_iff_lt_or_eq.mp hid with hid | rfl
      · exact (h.kept id hid).imp_left (List.mem_cons_of_mem _)
      · exact .inl List.mem_cons_self

theorem Owned.getClientAttempt (h : Owned p) (pods : List Pod) (a : Answers) (endpoint : String) :
    Owned (getClientAttempt pods a p endpoint).1 := by
  unfold ConnectionPool.getClientAttempt
  split
  · split
    · exact h
    · exact (h.removeClient endpoint).createClient (clients_removeClient p endpoint) pods a
  next habsent => exact h.createClient habsent pods a

theorem Owned.closeAll (h : Owned p) : Owned (closeAll p) where
  stored _ _ hc := by simp [ConnectionPool.closeAll] at hc
  single _ _ _ _ hc := by simp [ConnectionPool.closeAll] at hc
  closed id hid := by
    rcases List.mem_append.mp hid with hid | hid
    · obtain ⟨entry, hentry, rfl⟩ := List.mem_map.mp hid
      exact (h.stored _ _ (Std.ExtTreeMap.mem_toList_iff_getElem?_eq_some.mp hentry)).1
    · exact h.closed id hid
  kept id hid := by
    refine .inl (List.mem_append.mpr ?_)
    rcases h.kept id hid with hclosed | ⟨e, c, hc, rfl⟩
    · exact .inr hclosed
    · exact .inl (List.mem_map.mpr
        ⟨(e, c), Std.ExtTreeMap.mem_toList_iff_getElem?_eq_some.mpr hc, rfl⟩)

theorem clients_createClient (habsent : p.clients[endpoint]? = none) :
    (createClient pods a p endpoint).1.clients[endpoint]? =
      (createClient pods a p endpoint).2.toOption := by
  unfold createClient
  cases a.dial with
  | some e => exact habsent
  | none =>
    dsimp only
    split
    · exact Std.ExtTreeMap.getElem?_insert_self
    · exact habsent

theorem clients_getClientAttempt (pods : List Pod) (a : Answers) (p : Pool) (endpoint : String) :
    (getClientAttempt pods a p endpoint).1.clients[endpoint]? =
      (getClientAttempt pods a p endpoint).2.toOption := by
  unfold getClientAttempt
  cases hpooled : p.clients[endpoint]? with
  | none => exact clients_createClient hpooled
  | some c =>
    dsimp only
    split
    · exact hpooled
    · exact clients_createClient (clients_removeClient p endpoint)

end HsmSecretsOperator.Agent.ConnectionPool
