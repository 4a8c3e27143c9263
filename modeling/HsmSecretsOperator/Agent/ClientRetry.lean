/- source: internal/agent/connection_pool.go
   digest: A call of GetClient on its own: which outcomes make it return a client that is closed. -/

import HsmSecretsOperator.Agent.PoolSharing

set_option autoImplicit false

namespace HsmSecretsOperator.Agent.ClientRetry

open ConnectionPool Foundation.Calls Foundation.Runs PoolSharing

/-- The loop of `getClientWithRetry` from an attempt on, with the outcomes of the attempts that are
left. -/
def getClientFrom (endpoint : String) (p : Pool) (attempt : Nat) (lastErr : String) :
    List Outcome → Pool × Except String Client
  | [] => (p, .error s!"failed to create client after {maxRetries} attempts: {lastErr}")
  | o :: outcomes =>
    match clientTurn o.pods o.answers p endpoint attempt with
    | (p, .client c) => (p, .ok c)
    | (p, .failed err) => (p, .error err)
    | (p, .again lastErr) => getClientFrom endpoint p (attempt + 1) lastErr outcomes

/-- `GetClient` while nobody else uses the pool. -/
def getClient (p : Pool) (endpoint : String) (outcomes : List Outcome) :
    Pool × Except String Client :=
  getClientFrom endpoint p 1 "" outcomes

/-- The agent behind the endpoint can be dialled and answers. -/
structure Reachable (o : Outcome) (endpoint : String) : Prop where
  holder : (holderOf o.pods endpoint).isSome = true
  dial : o.answers.dial = none
  info : o.answers.info = true

/-- An attempt gets a client, from the pool if there is one in it. -/
def Obtains (pooled : Bool) (o : Outcome) (endpoint : String) : Prop :=
  (pooled = true ∧ (holderOf o.pods endpoint).isSome = true ∧ o.answers.pooled = true) ∨
    Reachable o endpoint

/-- An attempt gets a client, and the client passes the check after it. -/
def Passes (pooled : Bool) (o : Outcome) (endpoint : String) : Prop :=
  Obtains pooled o endpoint ∧ o.answers.health = true

variable {o : Outcome} {p p' : Pool} {endpoint lastErr : String}

theorem obtains_false_iff : Obtains false o endpoint ↔ Reachable o endpoint := by
  refine or_iff_right ?_
  rintro ⟨⟨⟩, -⟩

theorem exists_ok_createClient :
    (∃ c, (createClient o.pods o.answers p endpoint).2 = .ok c) ↔ Reachable o endpoint := by
  unfold createClient
  cases hdial : o.answers.dial with
  | some e =>
    refine iff_of_false (by rintro ⟨c, ⟨⟩⟩) fun h => ?_
    rw [h.dial] at hdial
    cases hdial
  | none =>
    dsimp only
    split
    next hinfo =>
      rw [Bool.and_eq_true] at hinfo
      exact iff_of_true ⟨_, rfl⟩ ⟨hinfo.1, hdial, hinfo.2⟩
    next hinfo =>
      refine iff_of_false (by rintro ⟨c, ⟨⟩⟩) fun h => hinfo ?_
      rw [h.holder, h.info]
      rfl

theorem holder_of_obtains {pooled : Bool} (h : Obtains pooled o endpoint) :
    (holderOf o.pods endpoint).isSome = true :=
  h.elim (fun h => h.2.1) Reachable.holder

section Attempt

variable (howned : Owned p) (hfiled : Filed p)
include howned hfiled

theorem isConnected_stored {c : Client}
    (hc : p.clients[endpoint]? = some c) (answer : Bool) :
    isConnected o.pods p answer c = ((holderOf o.pods endpoint).isSome && answer) := by
  rw [isConnected, hfiled endpoint c hc, decide_eq_true (howned.stored endpoint c hc).2,
    Bool.true_and]

theorem exists_ok_getClientAttempt :
    (∃ c, (getClientAttempt o.pods o.answers p endpoint).2 = .ok c) ↔
      Obtains p.clients[endpoint]?.isSome o endpoint := by
  unfold getClientAttempt Obtains
  cases hc : p.clients[endpoint]? with
  | none => exact exists_ok_createClient.trans obtains_false_iff.symm
  | some c =>
    dsimp only
    rw [isConnected_stored howned hfiled hc]
    split
    next hconnected =>
      rw [Bool.and_eq_true] at hconnected
      exact iff_of_true ⟨c, rfl⟩ (.inl ⟨rfl, hconnected⟩)
    next hconnected =>
      rw [Bool.and_eq_true] at hconnected
      exact exists_ok_createClient.trans (or_iff_right fun h => hconnected h.2).symm

theorem isConnected_attempt {c : Client}
    (h : (getClientAttempt o.pods o.answers p endpoint).2 = .ok c) :
    isConnected o.pods (getClientAttempt o.pods o.answers p endpoint).1 o.answers.health c =
      o.answers.health := by
  have hstored := clients_getClientAttempt o.pods o.answers p endpoint
  rw [h] at hstored
  rw [isConnected_stored (howned.getClientAttempt o.pods o.answers endpoint)
    ((follows_getClientAttempt o.pods o.answers p endpoint).filed hfiled) hstored,
    holder_of_obtains ((exists_ok_getClientAttempt howned hfiled).mp ⟨c, h⟩), Bool.true_and]

theorem clientTurn_of_passes (h : Passes p.clients[endpoint]?.isSome o endpoint) (attempt : Nat) :
    ∃ p' c, clientTurn o.pods o.answers p endpoint attempt = (p', .client c) ∧
      p'.clients[endpoint]? = some c ∧ c.id ∉ p'.closed := by
  obtain ⟨c, hc⟩ := (exists_ok_getClientAttempt howned hfiled).mpr h.1
  have hconnected := isConnected_attempt howned hfiled hc
  have hstored := clients_getClientAttempt o.pods o.answers p endpoint
  have howned' := howned.getClientAttempt o.pods o.answers endpoint
  unfold clientTurn
  generalize getClientAttempt o.pods o.answers p endpoint = out at hc hconnected hstored howned' ⊢
  obtain ⟨p', result⟩ := out
  obtain rfl : result = .ok c := hc
  dsimp only at hconnected ⊢
  rw [hconnected, h.2, if_pos rfl]
  exact ⟨p', c, rfl, hstored, (howned'.stored endpoint c hstored).2⟩

theorem clientTurn_of_fails (h : ¬ Passes p.clients[endpoint]?.isSome o endpoint) (attempt : Nat) :
    ∃ p' turn, clientTurn o.pods o.answers p endpoint attempt = (p', turn) ∧
      Owned p' ∧ Filed p' ∧ p'.clients[endpoint]? = none ∧
      (if attempt < maxRetries then ∃ lastErr, turn = .again lastErr
        else (∃ c, turn = .client c) ∧ Obtains p.clients[endpoint]?.isSome o endpoint ∨
          (∃ err, turn = .failed err) ∧ ¬ Obtains p.clients[endpoint]?.isSome o endpoint) := by
  have hobtains : (∃ c, (getClientAttempt o.pods o.answers p endpoint).2 = .ok c) ↔ _ :=
    exists_ok_getClientAttempt howned hfiled
  have hconnected (c : Client) (hc : (getClientAttempt o.pods o.answers p endpoint).2 = .ok c) :=
    isConnected_attempt howned hfiled hc
  have hstored := clients_getClientAttempt o.pods o.answers p endpoint
  have howned' := howned.getClientAttempt o.pods o.answers endpoint
  have hfiled' := (follows_getClientAttempt o.pods o.answers p endpoint).filed hfiled
  unfold clientTurn
  generalize getClientAttempt o.pods o.answers p endpoint = out
    at hobtains hconnected hstored howned' hfiled' ⊢
  obtain ⟨p', e | c⟩ := out
  · have hnone : ¬ Obtains p.clients[endpoint]?.isSome o endpoint := by
      rw [← hobtains]
      rintro ⟨c, ⟨⟩⟩
    dsimp only
    by_cases hmore : attempt < maxRetries
    · rw [if_pos hmore]
      exact ⟨p', _, rfl, howned', hfiled', hstored, by rw [if_pos hmore]; exact ⟨e, rfl⟩⟩
    · rw [if_neg hmore]
      exact ⟨p', _, rfl, howned', hfiled', hstored,
        by rw [if_neg hmore]; exact .inr ⟨⟨_, rfl⟩, hnone⟩⟩
  · have hsome : Obtains p.clients[endpoint]?.isSome o endpoint := hobtains.mp ⟨c, rfl⟩
    have hhealth : ¬ o.answers.health = true := fun hhealth => h ⟨hsome, hhealth⟩
    have hremoved := howned'.removeClient endpoint
    have hrefiled := (follows_removeClient p' endpoint).filed hfiled'
    dsimp only
    rw [hconnected c rfl, if_neg hhealth]
    by_cases hmore : attempt < maxRetries
    · rw [if_pos hmore]
      exact ⟨_, _, rfl, hremoved, hrefiled, clients_removeClient p' endpoint,
        by rw [if_pos hmore]; exact ⟨_, rfl⟩⟩
    · rw [if_neg hmore]
      exact ⟨_, _, rfl, hremoved, hrefiled, clients_removeClient p' endpoint,
        by rw [if_neg hmore]; exact .inl ⟨⟨c, rfl⟩, hsome⟩⟩

end Attempt

theorem getClientFrom_cons_error {endpoint lastErr e : String} {attempt : Nat}
    {outcomes : List Outcome} (hattempt : attempt + outcomes.length = maxRetries)
    (h : getClientAttempt o.pods o.answers p endpoint = (p', .error e)) :
    getClientFrom endpoint p attempt lastErr (o :: outcomes) =
      getClientFrom endpoint p' (attempt + 1) e outcomes := by
  rw [getClientFrom, clientTurn, h]
  dsimp only
  by_cases hmore : attempt < maxRetries
  · rw [if_pos hmore]
  · -- No attempt is left, and the loop ends with the same text.
    obtain rfl : outcomes = [] := List.eq_nil_of_length_eq_zero (by omega)
    rw [if_neg hmore]
    rfl

/-- The attempt of an outcome, with another health check after it. -/
def withHealth (o : Outcome) (health : Bool) : Outcome :=
  { o with answers := { o.answers with health } }

theorem getClientFrom_withHealth {attempt : Nat} {outcomes : List Outcome} {c : Client}
    (howned : Owned p) (hfiled : Filed p)
    (h : getClientAttempt o.pods o.answers p endpoint = (p', .ok c)) (health : Bool) :
    getClientFrom endpoint p attempt lastErr (withHealth o health :: outcomes) =
      if health then (p', .ok c)
      else if attempt < maxRetries then
        getClientFrom endpoint (removeClient p' endpoint) (attempt + 1)
          PoolSharing.notConnected outcomes
      else (removeClient p' endpoint, .ok c) := by
  have hattempt : getClientAttempt (withHealth o health).pods (withHealth o health).answers p
      endpoint = (p', .ok c) := h
  have hconnected := isConnected_attempt howned hfiled (congrArg Prod.snd hattempt)
  rw [hattempt] at hconnected
  rw [getClientFrom, clientTurn, hattempt]
  dsimp only
  rw [hconnected]
  cases health with
  | true => rfl
  | false =>
    dsimp only [withHealth]
    by_cases hmore : attempt < maxRetries
    · simp only [hmore, if_true, Bool.false_eq_true, if_false]
      rfl
    · simp only [hmore, if_false, Bool.false_eq_true]

/-- What the program of a call ends in when nobody else is at the pool, the loop ends in under some
outcomes. -/
theorem exists_outcomes_of_ends {n attempt : Nat} {s s' : Service}
    {reply : Reply} (hattempt : attempt + n = maxRetries + 1) (howned : Owned s.pool)
    (hfiled : Filed s.pool)
    (h : Program.Ends serve (PoolSharing.getClientFrom endpoint lastErr n) s reply s') :
    ∃ outcomes result, outcomes.length = n ∧ reply = result.map some ∧
      getClientFrom endpoint s.pool attempt lastErr outcomes = (s'.pool, result) := by
  induction n generalizing attempt lastErr s with
  | zero =>
    obtain ⟨rfl, rfl⟩ := h.of_done
    exact ⟨[], _, rfl, rfl, rfl⟩
  | succ more ih =>
    obtain ⟨o, h⟩ := h.of_call
    dsimp only [serve] at h
    have hq := howned.getClientAttempt o.pods o.answers endpoint
    have hqfiled := (follows_getClientAttempt o.pods o.answers s.pool endpoint).filed hfiled
    have hnext : attempt + 1 + more = maxRetries + 1 := by omega
    cases hout : getClientAttempt o.pods o.answers s.pool endpoint with
    | mk q result =>
    rw [hout] at h hq hqfiled
    cases result with
    | error e =>
      obtain ⟨outcomes, result, hlength, hreply, hloop⟩ := ih hnext hq hqfiled h
      refine ⟨o :: outcomes, result, congrArg (· + 1) hlength, hreply, ?_⟩
      rw [getClientFrom_cons_error (by omega) hout, hloop]
    | ok c =>
      obtain ⟨o', h⟩ := h.of_call
      dsimp only [serve] at h
      by_cases hcheck : isConnected o'.pods q o'.answers.health c = true
      · rw [if_pos hcheck] at h
        obtain ⟨rfl, rfl⟩ := h.of_done
        refine ⟨withHealth o true :: List.replicate more o, .ok c, by simp, rfl, ?_⟩
        rw [getClientFrom_withHealth howned hfiled hout]
        rfl
      · rw [if_neg hcheck] at h
        obtain ⟨o'', h⟩ := h.of_call
        dsimp only at h
        by_cases hmore : more = 0
        · rw [if_pos hmore] at h
          obtain ⟨rfl, rfl⟩ := h.of_done
          refine ⟨[withHealth o false], .ok c, by rw [hmore]; rfl, rfl, ?_⟩
          rw [getClientFrom_withHealth howned hfiled hout, if_neg Bool.false_ne_true,
            if_neg (by omega)]
          rfl
        · rw [if_neg hmore] at h
          obtain ⟨outcomes, result, hlength, hreply, hloop⟩ := ih hnext
            (hq.removeClient endpoint) ((follows_removeClient q endpoint).filed hqfiled) h
          refine ⟨withHealth o false :: outcomes, result, congrArg (· + 1) hlength, hreply, ?_⟩
          rw [getClientFrom_withHealth howned hfiled hout, if_neg Bool.false_ne_true,
            if_pos (by omega)]
          exact hloop

/-- A client that is returned is the one that is stored, and it is open. -/
def Alive (endpoint : String) (out : Pool × Except String Client) : Prop :=
  ∀ c, out.2 = .ok c → out.1.clients[endpoint]? = some c ∧ c.id ∉ out.1.closed

section Loop

variable {attempt : Nat} (howned : Owned p) (hfiled : Filed p)
include howned hfiled

theorem alive_of_passes (h : Passes p.clients[endpoint]?.isSome o endpoint)
    (outcomes : List Outcome) :
    Alive endpoint (getClientFrom endpoint p attempt lastErr (o :: outcomes)) := by
  obtain ⟨p', c, hturn, hstored, hopen⟩ := clientTurn_of_passes howned hfiled h attempt
  rw [getClientFrom, hturn]
  intro c' hc'
  obtain rfl : c = c' := by
    cases hc'
    rfl
  exact ⟨hstored, hopen⟩

theorem getClientFrom_of_fails (h : ¬ Passes p.clients[endpoint]?.isSome o endpoint)
    (hmore : attempt < maxRetries) (lastErr : String) (outcomes : List Outcome) :
    ∃ p' lastErr', Owned p' ∧ Filed p' ∧ p'.clients[endpoint]? = none ∧
      getClientFrom endpoint p attempt lastErr (o :: outcomes) =
        getClientFrom endpoint p' (attempt + 1) lastErr' outcomes := by
  obtain ⟨p', turn, hturn, howned', hfiled', hnone, hagain⟩ :=
    clientTurn_of_fails howned hfiled h attempt
  rw [if_pos hmore] at hagain
  obtain ⟨lastErr', rfl⟩ := hagain
  refine ⟨p', lastErr', howned', hfiled', hnone, ?_⟩
  rw [getClientFrom, hturn]

theorem alive_last_iff (h : ¬ Passes p.clients[endpoint]?.isSome o endpoint) :
    Alive endpoint (getClientFrom endpoint p maxRetries lastErr [o]) ↔
      ¬ Obtains p.clients[endpoint]?.isSome o endpoint := by
  obtain ⟨p', turn, hturn, -, -, hnone, hlast⟩ := clientTurn_of_fails howned hfiled h maxRetries
  rw [if_neg (Nat.lt_irrefl _)] at hlast
  rw [getClientFrom, hturn]
  rcases hlast with ⟨⟨c, rfl⟩, hobtains⟩ | ⟨⟨err, rfl⟩, hobtains⟩
  · refine iff_of_false (fun halive => ?_) (not_not_intro hobtains)
    have hstored := (halive c rfl).1
    rw [hnone] at hstored
    cases hstored
  · exact iff_of_true nofun hobtains

/-- A new client that fails its check is the third one and the last. -/
theorem alive_getClient_iff (first second third : Outcome) :
    Alive endpoint (getClient p endpoint [first, second, third]) ↔
      Passes p.clients[endpoint]?.isSome first endpoint ∨ Passes false second endpoint ∨
        ¬ (Reachable third endpoint ∧ third.answers.health = false) := by
  have hone : 1 < maxRetries := by decide
  have htwo : 1 + 1 < maxRetries := by decide
  unfold getClient
  by_cases hfirst : Passes p.clients[endpoint]?.isSome first endpoint
  · exact iff_of_true (alive_of_passes howned hfiled hfirst _) (.inl hfirst)
  obtain ⟨p₁, lastErr₁, howned₁, hfiled₁, hnone₁, hloop₁⟩ :=
    getClientFrom_of_fails howned hfiled hfirst hone "" [second, third]
  have hempty₁ : p₁.clients[endpoint]?.isSome = false := by rw [hnone₁]; rfl
  rw [hloop₁, or_iff_right hfirst]
  by_cases hsecond : Passes false second endpoint
  · refine iff_of_true (alive_of_passes howned₁ hfiled₁ ?_ _) (.inl hsecond)
    rwa [hempty₁]
  obtain ⟨p₂, lastErr₂, howned₂, hfiled₂, hnone₂, hloop₂⟩ :=
    getClientFrom_of_fails howned₁ hfiled₁ (hempty₁ ▸ hsecond) htwo lastErr₁ [third]
  have hempty₂ : p₂.clients[endpoint]?.isSome = false := by rw [hnone₂]; rfl
  rw [hloop₂, or_iff_right hsecond]
  by_cases hthird : Passes false third endpoint
  · refine iff_of_true (alive_of_passes howned₂ hfiled₂ ?_ _) ?_
    · rwa [hempty₂]
    · rintro ⟨-, hhealth⟩
      rw [hthird.2] at hhealth
      cases hhealth
  refine (alive_last_iff howned₂ hfiled₂ (hempty₂ ▸ hthird)).trans (not_congr ?_)
  rw [hempty₂, obtains_false_iff, iff_self_and]
  intro hreachable
  exact Bool.eq_false_iff.mpr fun hhealth => hthird ⟨.inr hreachable, hhealth⟩

end Loop

/-- A call of `GetClient` that finds the pool as any calls before it have left it returns a client
that is stored and open, or none, except if the first two attempts fail, the third one makes a
client, and the client fails its check. -/
theorem returned_client_alive_iff (calls : List Call) (turns : List (Nat × Outcome))
    (endpoint : String) (first second third : Outcome) :
    let p := (run (answer serve) (start calls) turns).service.pool
    let out := getClient p endpoint [first, second, third]
    (∀ c, out.2 = .ok c → out.1.clients[endpoint]? = some c ∧ c.id ∉ out.1.closed) ↔
      Passes p.clients[endpoint]?.isSome first endpoint ∨ Passes false second endpoint ∨
        ¬ (Reachable third endpoint ∧ third.answers.health = false) :=
  alive_getClient_iff (PoolSharing.owned_and_filed calls turns).1
    (PoolSharing.owned_and_filed calls turns).2 first second third

private def unhealthy : Outcome where
  pods := [{ name := "agent", serial := "DC6A", running := true, podIPs := ["10.0.0.4"] }]
  answers := { health := false }

/-- An agent that answers and never says that its HSM is connected: the third client is returned
after it was removed and closed. -/
theorem closed_client_returned :
    let out := getClient {} "10.0.0.4:9090" [unhealthy, unhealthy, unhealthy]
    out.2 = .ok { id := 2, endpoint := "10.0.0.4:9090" } ∧
      out.1.clients["10.0.0.4:9090"]? = none ∧ 2 ∈ out.1.closed := by
  decide +kernel

end HsmSecretsOperator.Agent.ClientRetry
