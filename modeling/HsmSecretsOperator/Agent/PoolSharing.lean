/- source: internal/agent/connection_pool.go
   digest: Any number of calls on one connection pool, interleaved at the ends of its locks. -/

import Mathlib.Logic.ExistsUnique
import HsmSecretsOperator.Agent.ConnectionPool
import HsmSecretsOperator.Foundation.Calls

set_option autoImplicit false

namespace HsmSecretsOperator.Agent.PoolSharing

open ConnectionPool Foundation.Calls Foundation.Runs Program

inductive Request where
  | attempt (endpoint : String)
  | check (c : Client)
  | remove (endpoint : String)
  | lookup (endpoint : String)
  | close

abbrev Reply := Except String (Option Client)

/-- The pods behind the endpoints while a section runs, and the outcomes of its calls. -/
structure Outcome where
  pods : List Pod
  answers : Answers := {}

structure Service where
  pool : Pool := {}
  /-- `Close` has run. -/
  stopped : Bool := false
  /-- The clients that have reported no connection at a check. -/
  failed : List Nat := []

/-- The pooled client that an attempt finds without a connection. -/
def staleClient (o : Outcome) (p : Pool) (endpoint : String) : Option Client :=
  p.clients[endpoint]?.filter fun c => !isConnected o.pods p o.answers.pooled c

def notConnected : String := "health check failed: client not connected"

def serve (s : Service) (o : Outcome) : Request → Service × Reply
  | .attempt endpoint =>
    let out := getClientAttempt o.pods o.answers s.pool endpoint
    ({ s with
        pool := out.1
        failed := (staleClient o s.pool endpoint).toList.map Client.id ++ s.failed },
      out.2.map some)
  | .check c =>
    if isConnected o.pods s.pool o.answers.health c then (s, .ok (some c))
    else ({ s with failed := c.id :: s.failed }, .error notConnected)
  | .remove endpoint => ({ s with pool := removeClient s.pool endpoint }, .ok none)
  | .lookup endpoint => (s, .ok s.pool.clients[endpoint]?)
  | .close =>
    if s.stopped then (s, .ok none)
    else ({ s with pool := closeAll s.pool, stopped := true }, .ok none)

/-- The loop of `getClientWithRetry` with some attempts left. The last attempt returns its client
also after it has removed it. -/
def getClientFrom (endpoint lastErr : String) : Nat → Program Request Reply Reply
  | 0 => .done (.error s!"failed to create client after {maxRetries} attempts: {lastErr}")
  | more + 1 => .call (.attempt endpoint) fun
    | .error e => getClientFrom endpoint e more
    | .ok none => .done (.ok none)
    | .ok (some c) => .call (.check c) fun
      | .ok _ => .done (.ok (some c))
      | .error e => .call (.remove endpoint) fun _ =>
        if more = 0 then .done (.ok (some c)) else getClientFrom endpoint e more

def getClient (endpoint : String) : Program Request Reply Reply :=
  getClientFrom endpoint "" maxRetries

def healthCheckClient (endpoint : String) : Program Request Reply Reply :=
  .call (.lookup endpoint) fun
    | .error e => .done (.error e)
    | .ok none => .done (.error s!"no client found for endpoint {endpoint}")
    | .ok (some c) => .call (.check c) fun
      | .ok _ => .done (.ok none)
      | .error e => .call (.remove endpoint) fun _ => .done (.error e)

inductive Call where
  | getClient (endpoint : String)
  | removeClient (endpoint : String)
  | healthCheckClient (endpoint : String)
  | close

def Call.program : Call → Program Request Reply Reply
  | .getClient endpoint => PoolSharing.getClient endpoint
  | .removeClient endpoint => .call (.remove endpoint) .done
  | .healthCheckClient endpoint => PoolSharing.healthCheckClient endpoint
  | .close => .call .close .done

abbrev Callers := World Request Reply Reply Service

def start (calls : List Call) : Callers where
  service := {}
  callers := calls.map Call.program

theorem pool_check (s : Service) (o : Outcome) (c : Client) :
    (serve s o (.check c)).1.pool = s.pool := by
  dsimp only [serve]
  split
  · rfl
  · rfl

theorem pool_close (s : Service) (o : Outcome) :
    (serve s o .close).1.pool = if s.stopped then s.pool else closeAll s.pool := by
  dsimp only [serve]
  split
  · rfl
  · rfl

theorem pool_serve (P : Pool → Prop) {s : Service} {o : Outcome} (h : P s.pool)
    (hattempt : ∀ endpoint, P (getClientAttempt o.pods o.answers s.pool endpoint).1)
    (hremove : ∀ endpoint, P (removeClient s.pool endpoint)) (hclose : P (closeAll s.pool))
    (request : Request) : P (serve s o request).1.pool := by
  cases request with
  | attempt endpoint => exact hattempt endpoint
  | check c =>
    rw [pool_check]
    exact h
  | remove endpoint => exact hremove endpoint
  | lookup endpoint => exact h
  | close =>
    rw [pool_close]
    split
    · exact h
    · exact hclose

theorem owned_serve (s : Service) (o : Outcome) (request : Request) (h : Owned s.pool) :
    Owned (serve s o request).1.pool :=
  pool_serve Owned h (h.getClientAttempt o.pods o.answers) h.removeClient h.closeAll request

theorem filed_serve (s : Service) (o : Outcome) (request : Request) (h : Filed s.pool) :
    Filed (serve s o request).1.pool := by
  refine pool_serve Filed h (fun endpoint => ?_) (fun endpoint => ?_) ?_ request
  · exact (follows_getClientAttempt o.pods o.answers s.pool endpoint).filed h
  · exact (follows_removeClient s.pool endpoint).filed h
  · intro endpoint c hc
    simp [closeAll] at hc

theorem owned_and_filed (calls : List Call) (turns : List (Nat × Outcome)) :
    Owned (run (answer serve) (start calls) turns).service.pool ∧
      Filed (run (answer serve) (start calls) turns).service.pool :=
  service_run (fun s : Service => Owned s.pool ∧ Filed s.pool)
    (fun s o request h => ⟨owned_serve s o request h.1, filed_serve s o request h.2⟩)
    ⟨owned_empty, fun endpoint c hc => by simp [start] at hc⟩ turns

/-- However the calls interleave and whatever fails, a client that was ever dialled is open and
stored under exactly one endpoint, or closed and not stored. -/
theorem pool_leaks_nothing (calls : List Call) (turns : List (Nat × Outcome)) :
    let p := (run (answer serve) (start calls) turns).service.pool
    ∀ id < p.nextId,
      (id ∉ p.closed ∧ ∃! endpoint : String, ∃ c, p.clients[endpoint]? = some c ∧ c.id = id) ∨
      (id ∈ p.closed ∧ ∀ (endpoint : String) (c : Client), p.clients[endpoint]? = some c →
        c.id ≠ id) := by
  intro p id hid
  have howned : Owned p := (owned_and_filed calls turns).1
  by_cases hclosed : id ∈ p.closed
  · refine .inr ⟨hclosed, ?_⟩
    rintro endpoint c hc rfl
    exact (howned.stored endpoint c hc).2 hclosed
  · obtain ⟨endpoint, c, hc, hcid⟩ := (howned.kept id hid).resolve_left hclosed
    refine .inl ⟨hclosed, endpoint, ⟨c, hc, hcid⟩, ?_⟩
    rintro other ⟨c', hc', hcid'⟩
    exact howned.single other endpoint c' c hc' hc (hcid'.trans hcid.symm)

/-- The first client of a run with one call is stored for good. -/
theorem pool_keeps_first_client :
    let turns : List (Nat × Outcome) :=
      [(0, { pods := [{ name := "agent", serial := "DC6A", running := true,
                        podIPs := ["10.0.0.4"] }] })]
    let p := (run (answer serve) (start [.getClient "10.0.0.4:9090"]) turns).service.pool
    0 < p.nextId ∧
      ((0 ∉ p.closed ∧ ∃! endpoint : String, ∃ c, p.clients[endpoint]? = some c ∧ c.id = 0) ∨
      (0 ∈ p.closed ∧ ∀ (endpoint : String) (c : Client), p.clients[endpoint]? = some c →
        c.id ≠ 0)) :=
  ⟨by decide +kernel, pool_leaks_nothing _ _ 0 (by decide +kernel)⟩

def Handed (w : Callers) (id : Nat) : Prop :=
  ∃ c : Client, .done (.ok (some c)) ∈ w.callers ∧ c.id = id

/-- No client is closed that was handed out and has reported a connection at every check. -/
def Spares (w : Callers) (turn : Nat × Outcome) : Prop :=
  ∀ id, Handed w id → id ∉ (answer serve w turn).service.failed →
    id ∈ (answer serve w turn).service.pool.closed → id ∈ w.service.pool.closed

/-- The endpoint of a call that has got a client and is about to check it or to remove it. -/
def inFlight : Program Request Reply Reply → Option String
  | .call (.check c) _ => some c.endpoint
  | .call (.remove endpoint) _ => some endpoint
  | _ => none

/-- The step does not change which client is stored for an endpoint on which another call is between
its attempt and the removal. -/
def Undisturbed (w : Callers) (turn : Nat × Outcome) : Prop :=
  ∀ caller ∈ w.callers.zipIdx, caller.2 ≠ turn.1 → ∀ endpoint ∈ inFlight caller.1,
    (answer serve w turn).service.pool.clients[endpoint]? = w.service.pool.clients[endpoint]?

instance (w : Callers) (turn : Nat × Outcome) : Decidable (Undisturbed w turn) :=
  inferInstanceAs (Decidable (∀ caller ∈ w.callers.zipIdx, _))

def OfGetClient : Request → Prop
  | .attempt _ | .check _ | .remove _ => True
  | .lookup _ | .close => False

theorem only_getClientFrom (endpoint lastErr : String) (n : Nat) :
    Only OfGetClient (getClientFrom endpoint lastErr n) := by
  induction n generalizing lastErr with
  | zero => exact trivial
  | succ more ih =>
    refine ⟨trivial, fun reply => ?_⟩
    rcases reply with e | _ | c
    · exact ih e
    · exact trivial
    · refine ⟨trivial, fun reply => ?_⟩
      cases reply with
      | ok _ => exact trivial
      | error e =>
        refine ⟨trivial, fun _ => ?_⟩
        dsimp only
        split
        · exact trivial
        · exact ih e

def Dialled (result : Reply) (s : Service) : Prop :=
  ∀ c, result = .ok (some c) → c.id < s.pool.nextId

def Later (s s' : Service) : Prop := s.pool.nextId ≤ s'.pool.nextId

theorem interference_later : Interference Later where
  refl _ := Nat.le_refl _
  trans := Nat.le_trans

theorem nextId_createClient (pods : List Pod) (a : Answers) (p : Pool) (endpoint : String) :
    p.nextId ≤ (createClient pods a p endpoint).1.nextId := by
  unfold createClient
  split
  · exact Nat.le_refl _
  dsimp only
  split
  · exact Nat.le_succ _
  · exact Nat.le_succ _

theorem nextId_removeClient (p : Pool) (endpoint : String) :
    (removeClient p endpoint).nextId = p.nextId := by
  unfold removeClient
  split
  · rfl
  · rfl

theorem nextId_getClientAttempt (pods : List Pod) (a : Answers) (p : Pool) (endpoint : String) :
    p.nextId ≤ (getClientAttempt pods a p endpoint).1.nextId := by
  unfold getClientAttempt
  split
  · split
    · exact Nat.le_refl _
    · rw [← nextId_removeClient p endpoint]
      exact nextId_createClient _ _ _ _
  · exact nextId_createClient _ _ _ _

theorem later_serve (s : Service) (o : Outcome) (request : Request) :
    Later s (serve s o request).1 :=
  pool_serve (fun p => s.pool.nextId ≤ p.nextId) (Nat.le_refl _)
    (nextId_getClientAttempt o.pods o.answers s.pool)
    (fun endpoint => Nat.le_of_eq (nextId_removeClient s.pool endpoint).symm) (Nat.le_refl _)
    request

theorem dialled_attempt {s : Service} (hs : Owned s.pool) (o : Outcome) (endpoint : String) :
    Dialled (serve s o (.attempt endpoint)).2 (serve s o (.attempt endpoint)).1 := by
  intro c hc
  have hstored := clients_getClientAttempt o.pods o.answers s.pool endpoint
  have hreply : (getClientAttempt o.pods o.answers s.pool endpoint).2.map some = .ok (some c) := hc
  cases hattempt : (getClientAttempt o.pods o.answers s.pool endpoint).2 with
  | error e =>
    rw [hattempt] at hreply
    cases hreply
  | ok c' =>
    rw [hattempt] at hreply hstored
    obtain rfl : c' = c := by
      cases hreply
      rfl
    exact ((hs.getClientAttempt o.pods o.answers endpoint).stored endpoint c' hstored).1

theorem sound_done {s : Service} {result : Reply} (h : Dialled result s) :
    Sound serve (fun s => Owned s.pool) Later Dialled (.done result) s := by
  intro t ht _ c hc
  exact Nat.lt_of_lt_of_le (h c hc) ht

theorem sound_returned {s : Service} {c : Client} (h : c.id < s.pool.nextId) :
    Sound serve (fun s => Owned s.pool) Later Dialled (.done (.ok (some c))) s := by
  refine sound_done fun c' hc' => ?_
  obtain rfl : c = c' := by
    cases hc'
    rfl
  exact h

theorem sound_getClientFrom (endpoint lastErr : String) (n : Nat) (s : Service) :
    Sound serve (fun s => Owned s.pool) Later Dialled (getClientFrom endpoint lastErr n) s := by
  induction n generalizing lastErr s with
  | zero => exact sound_done nofun
  | succ more ih =>
    intro t _ hinv o
    refine ⟨owned_serve t o _ hinv, later_serve t o _, ?_⟩
    have hdialled := dialled_attempt hinv o endpoint
    generalize serve t o (.attempt endpoint) = out at hdialled ⊢
    obtain ⟨t', e | _ | c⟩ := out
    · exact ih e t'
    · exact sound_done nofun
    · intro u hu hinv o
      refine ⟨owned_serve u o _ hinv, later_serve u o _, ?_⟩
      have hchecked : c.id < (serve u o (.check c)).1.pool.nextId :=
        Nat.lt_of_lt_of_le (Nat.lt_of_lt_of_le (hdialled c rfl) hu) (later_serve u o _)
      generalize serve u o (.check c) = out at hchecked ⊢
      obtain ⟨u', e | reply⟩ := out
      · intro v hv hinv o
        refine ⟨owned_serve v o _ hinv, later_serve v o _, ?_⟩
        dsimp only
        split
        · exact sound_returned
            (Nat.lt_of_lt_of_le (Nat.lt_of_lt_of_le hchecked hv) (later_serve v o _))
        · exact ih e _
      · exact sound_returned hchecked

theorem closed_removeClient (p : Pool) (endpoint : String) (id : Nat) :
    id ∈ (removeClient p endpoint).closed ↔
      id ∈ p.closed ∨ ∃ c, p.clients[endpoint]? = some c ∧ c.id = id := by
  unfold removeClient
  cases hc : p.clients[endpoint]? with
  | none => simp
  | some c =>
    rw [List.mem_cons, or_comm]
    refine or_congr_right ⟨fun h => ⟨c, rfl, h.symm⟩, ?_⟩
    rintro ⟨c', hc', rfl⟩
    rw [Option.some.inj hc']

theorem closed_createClient {pods : List Pod} {a : Answers} {p : Pool} {endpoint : String}
    {id : Nat} (h : id ∈ (createClient pods a p endpoint).1.closed) :
    id ∈ p.closed ∨ id = p.nextId := by
  unfold createClient at h
  split at h
  · exact .inl h
  dsimp only at h
  split at h
  · exact .inl h
  · exact (List.mem_cons.mp h).symm

theorem closed_getClientAttempt {o : Outcome} {p : Pool} {endpoint : String} {id : Nat}
    (h : id ∈ (getClientAttempt o.pods o.answers p endpoint).1.closed) :
    id ∈ p.closed ∨ id ∈ (staleClient o p endpoint).toList.map Client.id ∨ id = p.nextId := by
  unfold getClientAttempt at h
  cases hpooled : p.clients[endpoint]? with
  | none =>
    rw [hpooled] at h
    exact (closed_createClient h).imp_right .inr
  | some c =>
    rw [hpooled] at h
    dsimp only at h
    split at h
    next => exact .inl h
    next hstale =>
      rcases closed_createClient h with h | h
      · rcases (closed_removeClient p endpoint id).mp h with h | ⟨c', hc', rfl⟩
        · exact .inl h
        · obtain rfl := Option.some.inj (hpooled.symm.trans hc')
          refine .inr (.inl (List.mem_map.mpr ⟨c, ?_, rfl⟩))
          rw [staleClient, hpooled, Option.filter_some, if_pos (by simpa using hstale)]
          exact List.mem_singleton_self c
      · rw [nextId_removeClient] at h
        exact .inr (.inr h)

/-- All callers keep the pool in order and are in calls of `GetClient`. -/
structure GettingClients (w : Callers) : Prop where
  sound : AllSound serve (fun s => Owned s.pool) Later Dialled w
  only : ∀ p ∈ w.callers, Only OfGetClient p

theorem GettingClients.answer {w : Callers} (h : GettingClients w) (turn : Nat × Outcome) :
    GettingClients (answer serve w turn) :=
  ⟨(h.sound.answer interference_later turn).1, only_answer h.only turn⟩

theorem gettingClients_start (endpoints : List String) :
    GettingClients (start (endpoints.map .getClient)) := by
  have hcallers : ∀ p ∈ (start (endpoints.map .getClient)).callers,
      ∃ endpoint, p = getClient endpoint := by
    intro p hp
    obtain ⟨call, hcall, rfl⟩ := List.mem_map.mp hp
    obtain ⟨endpoint, -, rfl⟩ := List.mem_map.mp hcall
    exact ⟨endpoint, rfl⟩
  refine ⟨⟨owned_empty, fun p hp => ?_⟩, fun p hp => ?_⟩
  · obtain ⟨endpoint, rfl⟩ := hcallers p hp
    exact sound_getClientFrom endpoint "" maxRetries _
  · obtain ⟨endpoint, rfl⟩ := hcallers p hp
    exact only_getClientFrom endpoint "" maxRetries

theorem GettingClients.handed {w : Callers} (h : GettingClients w) {id : Nat}
    (hid : Handed w id) : id < w.service.pool.nextId := by
  obtain ⟨c, hdone, rfl⟩ := hid
  exact h.sound.post interference_later hdone c rfl

theorem GettingClients.spares {w : Callers} (h : GettingClients w) {turn : Nat × Outcome}
    (hremove : ∀ endpoint c, w.request turn.1 = some (.remove endpoint) →
      w.service.pool.clients[endpoint]? = some c → c.id ∈ w.service.failed) : Spares w turn := by
  have hservice : (Foundation.Calls.answer serve w turn).service = _ := service_answer w turn
  unfold Spares
  rw [hservice]
  intro id hhanded hhealthy hclosed
  cases hrequest : w.request turn.1 with
  | none =>
    rw [hrequest] at hclosed
    exact hclosed
  | some request =>
    have hget : OfGetClient request := Only.of_request h.only hrequest
    rw [hrequest] at hclosed hhealthy
    cases request with
    | attempt endpoint =>
      rcases closed_getClientAttempt hclosed with hclosed | hstale | hnew
      · exact hclosed
      · exact absurd (List.mem_append_left _ hstale) hhealthy
      · exact absurd hnew (Nat.ne_of_lt (h.handed hhanded))
    | check c =>
      dsimp only at hclosed
      rw [pool_check] at hclosed
      exact hclosed
    | remove endpoint =>
      rcases (closed_removeClient _ _ _).mp hclosed with hclosed | ⟨c, hc, rfl⟩
      · exact hclosed
      · exact absurd (hremove endpoint c hrequest hc) hhealthy
    | lookup endpoint => exact hget.elim
    | close => exact hget.elim

/-- A call of `GetClient` once it has seen its client fail. -/
def dropping (endpoint : String) (more : Nat) (c : Client) (err : String) :
    Program Request Reply Reply :=
  .call (.remove endpoint) fun _ =>
    if more = 0 then .done (.ok (some c)) else getClientFrom endpoint err more

/-- A call of `GetClient` once it has got a client. -/
def checking (endpoint : String) (more : Nat) (c : Client) : Program Request Reply Reply :=
  .call (.check c) fun
    | .ok _ => .done (.ok (some c))
    | .error e => dropping endpoint more c e

/-- Where a call of `GetClient` can be. From its attempt to its check the client that it has got is
stored; from the failed check to the removal none is stored but one that has failed. -/
inductive Placed (s : Service) : Program Request Reply Reply → Prop
  | trying (endpoint err : String) (more : Nat) : Placed s (getClientFrom endpoint err more)
  | checking {endpoint : String} {more : Nat} {c : Client} (hendpoint : c.endpoint = endpoint)
      (hstored : s.pool.clients[endpoint]? = some c) : Placed s (checking endpoint more c)
  | dropping {endpoint err : String} {more : Nat} {c : Client}
      (hfailed : ∀ c', s.pool.clients[endpoint]? = some c' → c'.id ∈ s.failed) :
      Placed s (dropping endpoint more c err)
  | returned (result : Reply) : Placed s (.done result)

theorem failed_serve (s : Service) (o : Outcome) (request : Request) {id : Nat}
    (h : id ∈ s.failed) : id ∈ (serve s o request).1.failed := by
  cases request with
  | attempt endpoint => exact List.mem_append_right _ h
  | check c =>
    dsimp only [serve]
    split
    · exact h
    · exact List.mem_cons_of_mem _ h
  | remove endpoint => exact h
  | lookup endpoint => exact h
  | close =>
    dsimp only [serve]
    split
    · exact h
    · exact h

theorem Placed.frame {s s' : Service} {p : Program Request Reply Reply} (h : Placed s p)
    (hfailed : ∀ id ∈ s.failed, id ∈ s'.failed)
    (hsame : ∀ endpoint ∈ inFlight p, s'.pool.clients[endpoint]? = s.pool.clients[endpoint]?) :
    Placed s' p := by
  cases h with
  | trying endpoint err more => exact .trying endpoint err more
  | checking hendpoint hstored =>
    exact .checking hendpoint ((hsame _ (hendpoint ▸ rfl)).trans hstored)
  | dropping h =>
    refine .dropping fun c' hc' => hfailed _ (h c' ?_)
    rw [← hsame _ rfl]
    exact hc'
  | returned result => exact .returned result

theorem Placed.serve {s : Service} {p : Program Request Reply Reply} (h : Placed s p)
    (hfiled : Filed s.pool) (o : Outcome) {request : Request} {next : Reply → _}
    (hp : p = .call request next) :
    Placed (PoolSharing.serve s o request).1 (next (PoolSharing.serve s o request).2) := by
  cases h with
  | returned result => cases hp
  | trying endpoint err more =>
    cases more with
    | zero => cases hp
    | succ more =>
      obtain ⟨rfl, rfl⟩ := Program.call.inj hp
      have hstored := clients_getClientAttempt o.pods o.answers s.pool endpoint
      have hfiled' := filed_serve s o (.attempt endpoint) hfiled
      dsimp only [PoolSharing.serve] at hfiled' ⊢
      cases hreply : (getClientAttempt o.pods o.answers s.pool endpoint).2 with
      | error e => exact .trying endpoint e more
      | ok c =>
        rw [hreply] at hstored
        exact .checking (hfiled' endpoint c hstored) hstored
  | @checking endpoint more c hendpoint hstored =>
    obtain ⟨rfl, rfl⟩ := Program.call.inj hp
    dsimp only [PoolSharing.serve]
    split
    · exact .returned _
    · refine .dropping fun c' hc' => ?_
      obtain rfl := Option.some.inj (hstored.symm.trans hc')
      exact List.mem_cons_self
  | @dropping endpoint err more c _ =>
    obtain ⟨rfl, rfl⟩ := Program.call.inj hp
    dsimp only
    split
    · exact .returned _
    · exact .trying endpoint err more

/-- All callers are in calls of `GetClient`, each with its client in its place. -/
structure Undivided (w : Callers) : Prop where
  getting : GettingClients w
  filed : Filed w.service.pool
  placed : ∀ p ∈ w.callers, Placed w.service p

theorem Undivided.spares {w : Callers} (h : Undivided w) (turn : Nat × Outcome) :
    Spares w turn := by
  refine h.getting.spares fun endpoint c hrequest hc => ?_
  unfold World.request at hrequest
  split at hrequest
  next request next hcaller =>
    obtain rfl := Option.some.inj hrequest
    have hplaced := h.placed _ (List.mem_of_getElem? hcaller)
    generalize hp : Program.call (Request.remove endpoint) next = p at hplaced
    cases hplaced with
    | trying endpoint' err more =>
      cases more with
      | zero => cases hp
      | succ more => cases (Program.call.inj hp).1
    | checking _ _ => cases (Program.call.inj hp).1
    | dropping hfailed =>
      obtain ⟨rfl⟩ := (Program.call.inj hp).1
      exact hfailed c hc
    | returned result => cases hp
  next => cases hrequest
  next => cases hrequest

theorem Undivided.answer {w : Callers} (h : Undivided w) {turn : Nat × Outcome}
    (hturn : Undisturbed w turn) : Undivided (answer serve w turn) := by
  refine ⟨h.getting.answer turn, ?_, ?_⟩
  · rw [service_answer]
    split
    · exact filed_serve _ _ _ h.filed
    · exact h.filed
  · unfold Undisturbed at hturn
    unfold Foundation.Calls.answer at hturn ⊢
    split
    next request next hcaller =>
      rw [hcaller] at hturn
      intro p hp
      obtain ⟨i, hi⟩ := List.mem_iff_getElem?.mp hp
      by_cases hown : i = turn.1
      · subst hown
        rw [List.getElem?_set_self (List.getElem?_eq_some_iff.mp hcaller).1] at hi
        obtain rfl := Option.some.inj hi
        exact (h.placed _ (List.mem_of_getElem? hcaller)).serve h.filed turn.2 rfl
      · rw [List.getElem?_set_ne (Ne.symm hown)] at hi
        refine (h.placed p (List.mem_of_getElem? hi)).frame
          (fun _ => failed_serve _ _ request) ?_
        exact hturn (p, i) (List.mem_zipIdx_iff_getElem?.mpr hi) hown
    next => exact h.placed
    next => exact h.placed

theorem undivided_start (endpoints : List String) :
    Undivided (start (endpoints.map .getClient)) := by
  refine ⟨gettingClients_start endpoints, fun endpoint c hc => by simp [start] at hc, ?_⟩
  intro p hp
  obtain ⟨call, hcall, rfl⟩ := List.mem_map.mp hp
  obtain ⟨endpoint, -, rfl⟩ := List.mem_map.mp hcall
  exact .trying endpoint "" maxRetries

/-- In an interleaving of calls of `GetClient` in which no call changes the stored client while
another is between its attempt and its removal, no client is closed that was handed out and has
reported a connection at every check. -/
theorem healthy_clients_spared (endpoints : List String) (turns : List (Nat × Outcome))
    (h : Along (answer serve) Undisturbed (start (endpoints.map .getClient)) turns) :
    Along (answer serve) Spares (start (endpoints.map .getClient)) turns :=
  Along.of_invariant Undivided (fun _ turn hw hturn => ⟨hw.answer hturn, hw.spares turn⟩)
    (undivided_start endpoints) h

private def agentPods : List Pod :=
  [{ name := "agent", serial := "DC6A", running := true, podIPs := ["10.0.0.4"] }]

/-- The first call removes a client that fails its check and gets a new one, which the second call
shares. -/
private def sharing : List (Nat × Outcome) :=
  [(0, { pods := agentPods }), (0, { pods := agentPods, answers := { health := false } }),
    (0, { pods := agentPods }),
    (0, { pods := agentPods }), (1, { pods := agentPods }), (1, { pods := agentPods }),
    (0, { pods := agentPods })]

theorem sharing_spares_clients :
    Along (answer serve) Spares (start (["10.0.0.4:9090", "10.0.0.4:9090"].map .getClient))
      sharing :=
  healthy_clients_spared _ _ (by decide +kernel)

/-- The first call has a client and sees it fail; the second call replaces it and gets the new
one. -/
private def replaced : Callers :=
  run (answer serve) (start [.getClient "10.0.0.4:9090", .getClient "10.0.0.4:9090"])
    [(0, { pods := agentPods }), (0, { pods := agentPods, answers := { health := false } }),
      (1, { pods := agentPods, answers := { pooled := false } }), (1, { pods := agentPods })]

/-- The first call then removes the new client, which is closed in the hands of the second call. -/
theorem retry_closes_healthy_client :
    Handed replaced 1 ∧ 1 ∉ replaced.service.pool.closed ∧
      1 ∉ (answer serve replaced (0, { pods := agentPods })).service.failed ∧
      1 ∈ (answer serve replaced (0, { pods := agentPods })).service.pool.closed := by
  refine ⟨⟨⟨1, "10.0.0.4:9090"⟩, List.mem_of_getElem? (i := 1) rfl, rfl⟩, ?_⟩
  decide +kernel

end HsmSecretsOperator.Agent.PoolSharing
