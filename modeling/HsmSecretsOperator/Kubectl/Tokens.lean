/- source: kubectl-hsm/pkg/auth/jwt_auth.go, kubectl-hsm/pkg/client/client.go
   digest: Which bearer tokens the clients of one user send where. -/

import HsmSecretsOperator.Foundation.Maps
import HsmSecretsOperator.Foundation.Runs
import HsmSecretsOperator.Foundation.Text

set_option autoImplicit false

namespace HsmSecretsOperator.Kubectl.Tokens

open Foundation.Maps Foundation.Runs Foundation.Text

/-- The operator at a base URL and the service account that it knows a client by. -/
structure Identity where
  baseURL : String
  serviceAccount : String
  ns : String
  deriving DecidableEq

/-- A bearer token. Where it comes from is not part of its text. -/
structure Token where
  text : String
  issuedFor : Identity

structure CachedToken where
  token : Token
  expiresAt : Nat
  tokenType : String

/-- The account that was configured is kept beside the one that is used, which the fallback to the
default account overwrites. -/
structure TokenManager where
  baseURL : String
  serviceAccount : String := "kubectl-hsm"
  configured : String := "kubectl-hsm"
  ns : String
  cachedToken : Option CachedToken := none

/-- Whom a token has to be issued for to be sent. -/
def TokenManager.identity (tm : TokenManager) : Identity :=
  ⟨tm.baseURL, tm.configured, tm.ns⟩

structure K8sToken where
  ns : String
  serviceAccount : String

structure TokenResponse where
  token : String
  expiresAt : Nat
  tokenType : String

/-- What a request meets: the time, the errors of the token requests by namespace and account, the
answer of the operator to the token request, whether the cache file can be written and removed,
whether the request can be made, and the status of the response if there is one. -/
structure Env where
  now : Nat
  createToken : String → String → Option String := fun _ _ => none
  exchange : Except String TokenResponse
  saves : Bool := true
  removes : Bool := true
  makes : Bool := true
  status : Option Nat := some 200

/-- Five minutes, in nanoseconds. -/
def tokenRefreshThreshold : Nat := 5 * 60 * 1000000000

/-- The cached token, if it is valid. -/
def TokenManager.validToken (tm : TokenManager) (now : Nat) : Option CachedToken :=
  tm.cachedToken.filter fun cached => now + tokenRefreshThreshold < cached.expiresAt

def getK8sServiceAccountToken (env : Env) (tm : TokenManager) :
    TokenManager × Except String K8sToken :=
  let failed (tm : TokenManager) (err : String) : TokenManager × Except String K8sToken :=
    (tm, .error ("failed to create token for service account " ++ tm.ns ++ "/" ++
      tm.serviceAccount ++ ": " ++ err))
  match env.createToken tm.ns tm.serviceAccount with
  | none => (tm, .ok ⟨tm.ns, tm.serviceAccount⟩)
  | some err =>
    if tm.serviceAccount ≠ "default" then
      let tm := { tm with serviceAccount := "default" }
      match env.createToken tm.ns tm.serviceAccount with
      | none => (tm, .ok ⟨tm.ns, tm.serviceAccount⟩)
      | some err => failed tm err
    else failed tm err

/-- The operator at the base URL issues a token for the account of the token it is shown. -/
def exchangeForHSMToken (env : Env) (tm : TokenManager) (k8sToken : K8sToken) :
    Except String CachedToken :=
  match env.exchange with
  | .error err => .error err
  | .ok response => .ok
    { token := ⟨response.token, tm.baseURL, k8sToken.serviceAccount, k8sToken.ns⟩
      expiresAt := response.expiresAt
      tokenType := response.tokenType }

/-- The manager, the cache file and the token that is got. -/
def generateNewToken (env : Env) (tm : TokenManager) (file : Option CachedToken) :
    TokenManager × Option CachedToken × Except String Token :=
  match getK8sServiceAccountToken env tm with
  | (tm, .error err) => (tm, file, .error ("failed to get Kubernetes token: " ++ err))
  | (tm, .ok k8sToken) =>
    match exchangeForHSMToken env tm k8sToken with
    | .error err => (tm, file, .error ("failed to exchange for HSM token: " ++ err))
    | .ok hsmToken =>
      ({ tm with cachedToken := some hsmToken }, if env.saves then some hsmToken else file,
        .ok hsmToken.token)

def getValidToken (env : Env) (tm : TokenManager) (file : Option CachedToken) :
    TokenManager × Option CachedToken × Except String Token :=
  match tm.validToken env.now with
  | some cached => (tm, file, .ok cached.token)
  | none =>
    match generateNewToken env tm file with
    | (tm, file, .error err) => (tm, file, .error ("failed to generate new token: " ++ err))
    | (tm, file, .ok token) => (tm, file, .ok token)

def clearCache (removes : Bool) (tm : TokenManager) (file : Option CachedToken) :
    TokenManager × Option CachedToken :=
  ({ tm with cachedToken := none }, if removes then none else file)

/-- An Authorization header on its way: the token, and whom it is sent to and for. -/
structure Header where
  target : Identity
  token : Token

def Header.Proper (h : Header) : Prop := h.token.issuedFor = h.target

instance (h : Header) : Decidable h.Proper := inferInstanceAs (Decidable (_ = _))

/-- The path is one of those that need no token. -/
def isHealthPath (path : String) : Bool := hasSuffix path "/health" || hasSuffix path "/healthz"

/-- A client and the cache file after a request, and the header that it has sent. A client without a
token manager is left out: it sends none and has none to change. -/
def doRequest (env : Env) (path : String) (tm : TokenManager) (file : Option CachedToken) :
    TokenManager × Option CachedToken × Option Header :=
  let received (tm : TokenManager) (file : Option CachedToken) :=
    if env.status = some 401 then clearCache env.removes tm file else (tm, file)
  if !env.makes then (tm, file, none)
  else if isHealthPath path then
    let (tm, file) := received tm file
    (tm, file, none)
  else
    match getValidToken env tm file with
    | (tm, file, .error _) => (tm, file, none)
    | (tm', file, .ok token) =>
      let (tm', file) := received tm' file
      (tm', file, some ⟨tm.identity, token⟩)

/-- Everything a user's clients do, in any order: a client may be made and used while others are. -/
inductive Event
  | newClient (id : Nat) (baseURL ns : String) (loads : Bool)
  | setServiceAccount (id : Nat) (serviceAccount : String)
  | setNamespace (id : Nat) (ns : String)
  | clearAuthCache (id : Nat) (removes : Bool)
  | request (id : Nat) (path : String) (env : Env)

structure User where
  file : Option CachedToken := none
  clients : Std.ExtTreeMap Nat TokenManager := ∅
  sent : List Header := []

def User.update (u : User) (id : Nat)
    (f : TokenManager → Option CachedToken → TokenManager × Option CachedToken × Option Header) :
    User :=
  match u.clients[id]? with
  | none => u
  | some tm =>
    let (tm, file, header) := f tm u.file
    { file, clients := u.clients.insert id tm, sent := u.sent ++ header.toList }

def newTokenManager (baseURL ns : String) (cachedToken : Option CachedToken) :
    TokenManager where
  baseURL
  ns := if ns = "" then "default" else ns
  cachedToken

def step (u : User) : Event → User
  | .newClient id baseURL ns loads =>
    let tm := newTokenManager baseURL ns (if loads then u.file else none)
    { u with clients := u.clients.insert id tm }
  | .setServiceAccount id serviceAccount =>
    u.update id fun tm file =>
      ({ tm with serviceAccount, configured := serviceAccount }, file, none)
  | .setNamespace id ns => u.update id fun tm file => ({ tm with ns }, file, none)
  | .clearAuthCache id removes =>
    u.update id fun tm file =>
      let (tm, file) := clearCache removes tm file
      (tm, file, none)
  | .request id path env => u.update id (doRequest env path)

/-- The service account that a Kubernetes token can be got for. -/
def account (env : Env) (tm : TokenManager) : Option String :=
  if env.createToken tm.ns tm.serviceAccount = none then some tm.serviceAccount
  else if env.createToken tm.ns "default" = none then some "default"
  else none

/-- A valid cached token was issued for what the client is configured to; without one, the token
that the client can get is for the configured account. -/
def Authentic (env : Env) (tm : TokenManager) : Prop :=
  match tm.validToken env.now with
  | some cached => cached.token.issuedFor = tm.identity
  | none => ∀ serviceAccount response, account env tm = some serviceAccount →
      env.exchange = .ok response → serviceAccount = tm.configured

/-- The fallback changes the account that is used, and nothing else. -/
theorem getK8sServiceAccountToken_eq (env : Env) (tm : TokenManager) :
    (getK8sServiceAccountToken env tm).1.baseURL = tm.baseURL ∧
      ((getK8sServiceAccountToken env tm).2.toOption =
        (account env tm).map fun serviceAccount => ⟨tm.ns, serviceAccount⟩) := by
  unfold getK8sServiceAccountToken account
  dsimp only
  cases hown : env.createToken tm.ns tm.serviceAccount with
  | none => exact ⟨rfl, rfl⟩
  | some err =>
    by_cases hdefault : tm.serviceAccount = "default"
    · rw [hdefault] at hown
      simp [hdefault, hown, Except.toOption]
    · cases env.createToken tm.ns "default" with
      | none => simp [hdefault, Except.toOption]
      | some err' => simp [hdefault, Except.toOption]

variable {file : Option CachedToken} {i : Identity} {tm : TokenManager} {env : Env}

theorem getValidToken_of_not_valid (hvalid : tm.validToken env.now = none) :
    (getValidToken env tm file).2.2.toOption =
      (account env tm).bind fun serviceAccount =>
        env.exchange.toOption.map fun response =>
          ⟨response.token, tm.baseURL, serviceAccount, tm.ns⟩ := by
  obtain ⟨hbase, hok⟩ := getK8sServiceAccountToken_eq env tm
  unfold getValidToken generateNewToken
  rw [hvalid]
  rcases hget : getK8sServiceAccountToken env tm with ⟨tm', err | k8sToken⟩
  · rw [hget] at hok
    obtain hnone : account env tm = none := by simpa [Except.toOption] using hok.symm
    simp [hnone, Except.toOption]
  · rw [hget] at hok hbase
    obtain ⟨serviceAccount, hsome, rfl⟩ := Option.map_eq_some_iff.mp hok.symm
    rw [hsome, Option.bind_some]
    unfold exchangeForHSMToken
    cases env.exchange with
    | error err => rfl
    | ok response =>
      have hbase : tm'.baseURL = tm.baseURL := hbase
      simp [Except.toOption, hbase]

theorem header_proper_iff (env : Env) (path : String) (tm : TokenManager)
    (file : Option CachedToken) :
    (∀ h ∈ (doRequest env path tm file).2.2, h.Proper) ↔
      (env.makes = true → isHealthPath path = false → Authentic env tm) := by
  have hheader : (doRequest env path tm file).2.2 =
      if env.makes = true ∧ isHealthPath path = false then
        (getValidToken env tm file).2.2.toOption.map fun token => ⟨tm.identity, token⟩
      else none := by
    unfold doRequest
    dsimp only
    cases env.makes with
    | false => rfl
    | true =>
      cases isHealthPath path with
      | true => rfl
      | false =>
        rcases getValidToken env tm file with ⟨tm', file', err | token⟩
        · rfl
        · rfl
  rw [hheader]
  split
  next hsends =>
    simp only [hsends, forall_const]
    unfold Authentic
    cases hvalid : tm.validToken env.now with
    | some cached =>
      have hcached : (getValidToken env tm file).2.2.toOption = some cached.token := by
        simp [getValidToken, hvalid, Except.toOption]
      simp [hcached, Header.Proper]
    | none =>
      rw [getValidToken_of_not_valid hvalid]
      cases account env tm with
      | none => simp
      | some serviceAccount =>
        cases env.exchange with
        | error err => simp [Except.toOption]
        | ok response => simp [Except.toOption, Header.Proper, TokenManager.identity]
  next hsends =>
    constructor
    · exact fun _ hmakes hhealth => absurd ⟨hmakes, hhealth⟩ hsends
    · exact fun _ h hh => absurd hh (Option.not_mem_none h)

/-- The event is no request that sends a token, or the token is authentic. -/
def Sends (u : User) : Event → Prop
  | .request id path env =>
    ∀ tm ∈ u.clients[id]?, env.makes = true → isHealthPath path = false → Authentic env tm
  | _ => True

theorem proper_update_iff (u : User) (id : Nat)
    (f : TokenManager → Option CachedToken → TokenManager × Option CachedToken × Option Header) :
    (∀ h ∈ (u.update id f).sent, h.Proper) ↔
      (∀ h ∈ u.sent, h.Proper) ∧ ∀ tm ∈ u.clients[id]?, ∀ h ∈ (f tm u.file).2.2, h.Proper := by
  unfold User.update
  cases u.clients[id]? with
  | none => simp
  | some tm =>
    simp only [List.mem_append, or_imp, forall_and, Option.mem_toList, Option.mem_def,
      Option.some.injEq, forall_eq']

theorem proper_step_iff (u : User) (e : Event) :
    (∀ h ∈ (step u e).sent, h.Proper) ↔ (∀ h ∈ u.sent, h.Proper) ∧ Sends u e := by
  cases e with
  | newClient id baseURL ns loads => exact (and_iff_left trivial).symm
  | setServiceAccount id serviceAccount =>
    simp [step, proper_update_iff, Sends]
  | setNamespace id ns => simp [step, proper_update_iff, Sends]
  | clearAuthCache id removes => simp [step, proper_update_iff, Sends]
  | request id path env =>
    rw [step, proper_update_iff, Sends]
    simp only [header_proper_iff]

theorem proper_run_iff (u : User) (events : List Event) :
    (∀ h ∈ (run step u events).sent, h.Proper) ↔
      (∀ h ∈ u.sent, h.Proper) ∧ Along step Sends u events :=
  Along.run_iff (I := fun u : User => ∀ h ∈ u.sent, h.Proper) proper_step_iff

private def hour : Nat := 60 * 60 * 1000000000

private def twoOperators : List Event :=
  [.newClient 0 "http://localhost:8090" "prod" true,
    .request 0 "/api/v1/hsm/secrets" { now := 0, exchange := .ok ⟨"eyJhbGciOi", hour, "Bearer"⟩ },
    .newClient 1 "http://localhost:9090" "prod" true,
    .request 1 "/api/v1/hsm/secrets" { now := 1, exchange := .ok ⟨"eyJ0eXAiOi", hour, "Bearer"⟩ }]

theorem token_sent_to_other_operator : ¬ ∀ h ∈ (run step {} twoOperators).sent, h.Proper := by
  decide +kernel

/-- A token, if there is one, is issued for the identity. -/
def IssuedFor (i : Identity) (cached : Option CachedToken) : Prop :=
  ∀ c ∈ cached, c.token.issuedFor = i

/-- A manager that has not fallen back, with a token of the identity if any. -/
structure Stays (i : Identity) (tm : TokenManager) : Prop where
  identity : tm.identity = i
  serviceAccount : tm.serviceAccount = tm.configured
  cachedToken : IssuedFor i tm.cachedToken

theorem stays_clearCache (removes : Bool) (file : Option CachedToken) (htm : Stays i tm) :
    Stays i (clearCache removes tm file).1 ∧
      (IssuedFor i file → IssuedFor i (clearCache removes tm file).2) := by
  refine ⟨⟨htm.identity, htm.serviceAccount, fun c hc => by cases hc⟩, fun hfile => ?_⟩
  unfold clearCache
  dsimp only
  split
  · exact fun c hc => by cases hc
  · exact hfile

/-- Whenever the client needs a new token, Kubernetes gives one for the account. -/
def GetsToken (i : Identity) (env : Env) (tm : TokenManager) : Prop :=
  tm.validToken env.now = none → env.createToken i.ns i.serviceAccount = none

theorem stays_getValidToken (file : Option CachedToken) (hcreate : GetsToken i env tm)
    (htm : Stays i tm) :
    Stays i (getValidToken env tm file).1 ∧
      (IssuedFor i file → IssuedFor i (getValidToken env tm file).2.1) := by
  unfold getValidToken generateNewToken exchangeForHSMToken
  cases hvalid : tm.validToken env.now with
  | some cached => exact ⟨htm, id⟩
  | none =>
    have hissued : (⟨tm.baseURL, tm.serviceAccount, tm.ns⟩ : Identity) = i := by
      rw [htm.serviceAccount]
      exact htm.identity
    have hown : getK8sServiceAccountToken env tm = (tm, .ok ⟨tm.ns, tm.serviceAccount⟩) := by
      subst hissued
      simp only [getK8sServiceAccountToken, hcreate hvalid]
    rw [hown]
    cases env.exchange with
    | error err => exact ⟨htm, id⟩
    | ok response =>
      refine ⟨⟨htm.identity, htm.serviceAccount, ?_⟩, fun hfile => ?_⟩
      · rintro c ⟨⟩
        exact hissued
      · dsimp only
        split
        · rintro c ⟨⟩
          exact hissued
        · exact hfile

theorem stays_doRequest {path : String} (file : Option CachedToken)
    (hcreate : env.makes = true → isHealthPath path = false → GetsToken i env tm)
    (htm : Stays i tm) :
    Stays i (doRequest env path tm file).1 ∧
      (IssuedFor i file → IssuedFor i (doRequest env path tm file).2.1) := by
  -- Receiving a response can only clear the cache.
  have hreceived : ∀ tm file, Stays i tm →
      Stays i (if env.status = some 401 then clearCache env.removes tm file else (tm, file)).1 ∧
        (IssuedFor i file → IssuedFor i (if env.status = some 401 then
          clearCache env.removes tm file else (tm, file)).2) := by
    intro tm file htm
    split
    · exact stays_clearCache env.removes file htm
    · exact ⟨htm, id⟩
  unfold doRequest
  dsimp only
  split
  next => exact ⟨htm, id⟩
  next hmakes =>
    split
    next => exact hreceived tm file htm
    next hhealth =>
      obtain ⟨htm', hfile'⟩ := stays_getValidToken file
        (hcreate (by simpa using hmakes) (by simpa using hhealth)) htm
      rcases hget : getValidToken env tm file with ⟨tm', file', err | token⟩
      · rw [hget] at htm' hfile'
        exact ⟨htm', hfile'⟩
      · rw [hget] at htm' hfile'
        have hlast := hreceived tm' file' htm'
        exact ⟨hlast.1, fun hfile => hlast.2 (hfile' hfile)⟩

theorem authentic_of_stays (hcreate : GetsToken i env tm) (htm : Stays i tm) :
    Authentic env tm := by
  unfold Authentic
  split
  next cached hvalid =>
    rw [htm.identity]
    exact htm.cachedToken cached (Option.eq_some_of_filter_eq_some hvalid)
  next hvalid =>
    intro serviceAccount response haccount _
    have hown : env.createToken tm.ns tm.serviceAccount = none := by
      rw [htm.serviceAccount]
      obtain ⟨rfl, -, -⟩ := htm
      exact hcreate hvalid
    rw [account, if_pos hown] at haccount
    rw [← Option.some.inj haccount, htm.serviceAccount]

/-- A cache file is loaded only for the identity that it is for, the account and the namespace of a
client change only while it has no token, and new tokens can be got for the configured account. -/
def Guarded (u : User) : Event → Prop
  | .newClient _ baseURL ns loads =>
    loads = true → IssuedFor (newTokenManager baseURL ns none).identity u.file
  | .setServiceAccount id serviceAccount =>
    ∀ tm ∈ u.clients[id]?, tm.cachedToken.isNone ∨ serviceAccount = tm.configured
  | .setNamespace id ns => ∀ tm ∈ u.clients[id]?, tm.cachedToken.isNone ∨ ns = tm.ns
  | .clearAuthCache .. => True
  | .request id path env => ∀ tm ∈ u.clients[id]?, env.makes = true → isHealthPath path = false →
      GetsToken tm.identity env tm

/-- No client has a token of another identity than its own. -/
def Consistent (u : User) : Prop :=
  ∀ (id : Nat) tm, u.clients[id]? = some tm → Stays tm.identity tm

theorem consistent_update {u : User} (hu : Consistent u) (id : Nat)
    {f : TokenManager → Option CachedToken → TokenManager × Option CachedToken × Option Header}
    (hf : ∀ tm ∈ u.clients[id]?, Stays tm.identity tm →
      Stays (f tm u.file).1.identity (f tm u.file).1) : Consistent (u.update id f) := by
  unfold User.update
  split
  next => exact hu
  next tm htm =>
    intro id' tm' htm'
    rcases of_getElem?_insert htm' with ⟨-, rfl⟩ | htm'
    · exact hf tm htm (hu id tm htm)
    · exact hu id' tm' htm'

theorem Stays.own (h : Stays i tm) : Stays tm.identity tm := h.identity ▸ h

theorem consistent_step {u : User} {e : Event} (hu : Consistent u) (he : Guarded u e) :
    Consistent (step u e) := by
  cases e with
  | newClient id baseURL ns loads =>
    intro id' tm' htm'
    rcases of_getElem?_insert htm' with ⟨-, rfl⟩ | htm'
    · refine ⟨rfl, rfl, ?_⟩
      cases loads with
      | true => exact he rfl
      | false => exact fun c hc => by cases hc
    · exact hu id' tm' htm'
  | setServiceAccount id serviceAccount =>
    refine consistent_update hu id fun tm htm hstays => ⟨rfl, rfl, ?_⟩
    rcases he tm htm with hnone | rfl
    · simp [IssuedFor, Option.isNone_iff_eq_none.mp hnone]
    · exact hstays.cachedToken
  | setNamespace id ns =>
    refine consistent_update hu id fun tm htm hstays => ⟨rfl, hstays.serviceAccount, ?_⟩
    rcases he tm htm with hnone | rfl
    · simp [IssuedFor, Option.isNone_iff_eq_none.mp hnone]
    · exact hstays.cachedToken
  | clearAuthCache id removes =>
    exact consistent_update hu id fun tm _ hstays => (stays_clearCache removes u.file hstays).1.own
  | request id path env =>
    exact consistent_update hu id fun tm htm hstays => (stays_doRequest _ (he tm htm) hstays).1.own

theorem sends_of_guarded {u : User} {e : Event} (hu : Consistent u) (he : Guarded u e) :
    Sends u e := by
  cases e with
  | request id path env =>
    exact fun tm htm hmakes hhealth => authentic_of_stays (he tm htm hmakes hhealth) (hu id tm htm)
  | _ => trivial

/-- In a run whose steps are all guarded every token goes to its issuer only, for the account it was
issued to, whatever else the cache file has held. -/
theorem proper_of_guarded (file : Option CachedToken) (events : List Event)
    (h : Along step Guarded { file } events) :
    ∀ h ∈ (run step { file } events).sent, h.Proper := by
  have hstart : Consistent { file } := fun id tm htm => by simp at htm
  refine (proper_run_iff { file } events).mpr ⟨fun h hh => absurd hh List.not_mem_nil, ?_⟩
  exact Along.of_invariant Consistent
    (fun u e hu he => ⟨consistent_step hu he, sends_of_guarded hu he⟩) hstart h

private def inTurn : List Event :=
  [.newClient 0 "http://localhost:8090" "prod" true,
    .request 0 "/api/v1/hsm/secrets" { now := 0, exchange := .ok ⟨"eyJhbGciOi", hour, "Bearer"⟩ },
    .clearAuthCache 0 true,
    .newClient 1 "http://localhost:9090" "prod" true,
    .request 1 "/api/v1/hsm/secrets" { now := 1, exchange := .ok ⟨"eyJ0eXAiOi", hour, "Bearer"⟩ }]

theorem proper_in_turn : (run step {} inTurn).sent.length = 2 ∧
    ∀ h ∈ (run step {} inTurn).sent, h.Proper := by
  refine ⟨by decide +kernel, proper_of_guarded none inTurn ?_⟩
  refine ⟨fun _ c hc => ?_, fun tm _ _ _ _ => rfl, trivial, fun _ c hc => ?_,
    fun tm _ _ _ _ => rfl, trivial⟩
  · cases hc
  · have hcleared : (run step {} (inTurn.take 3)).file.isNone = true := by decide +kernel
    have hfile : (run step {} (inTurn.take 3)).file = some c := hc
    simp [hfile] at hcleared

/-- The event keeps to one operator, account and namespace, and the account can get tokens. -/
def KeepsTo (i : Identity) : Event → Prop
  | .newClient _ baseURL ns _ => (newTokenManager baseURL ns none).identity = i
  | .setServiceAccount _ serviceAccount => serviceAccount = i.serviceAccount
  | .setNamespace _ ns => ns = i.ns
  | .clearAuthCache .. => True
  | .request _ _ env => env.createToken i.ns i.serviceAccount = none

structure Holds (i : Identity) (u : User) : Prop where
  file : IssuedFor i u.file
  clients : ∀ (id : Nat) tm, u.clients[id]? = some tm → Stays i tm

theorem holds_update {u : User} (hu : Holds i u) (id : Nat)
    {f : TokenManager → Option CachedToken → TokenManager × Option CachedToken × Option Header}
    (hf : ∀ tm, Stays i tm → Stays i (f tm u.file).1 ∧
      (IssuedFor i u.file → IssuedFor i (f tm u.file).2.1)) : Holds i (u.update id f) := by
  unfold User.update
  split
  next => exact hu
  next tm htm =>
    obtain ⟨hstays, hfile⟩ := hf tm (hu.clients id tm htm)
    refine ⟨hfile hu.file, fun id' tm' htm' => ?_⟩
    rcases of_getElem?_insert htm' with ⟨-, rfl⟩ | htm'
    · exact hstays
    · exact hu.clients id' tm' htm'

theorem holds_step {u : User} {e : Event} (hu : Holds i u) (he : KeepsTo i e) :
    Holds i (step u e) := by
  cases e with
  | newClient id baseURL ns loads =>
    refine ⟨hu.file, fun id' tm' htm' => ?_⟩
    rcases of_getElem?_insert htm' with ⟨-, rfl⟩ | htm'
    · refine ⟨he, rfl, ?_⟩
      unfold newTokenManager
      dsimp only
      split
      · exact hu.file
      · exact fun c hc => by cases hc
    · exact hu.clients id' tm' htm'
  | setServiceAccount id serviceAccount =>
    rw [step]
    refine holds_update hu id fun tm htm => ⟨⟨?_, rfl, htm.cachedToken⟩, fun h => h⟩
    obtain ⟨rfl, -, -⟩ := htm
    obtain rfl : serviceAccount = tm.configured := he
    rfl
  | setNamespace id ns =>
    rw [step]
    refine holds_update hu id fun tm htm =>
      ⟨⟨?_, htm.serviceAccount, htm.cachedToken⟩, fun h => h⟩
    obtain ⟨rfl, -, -⟩ := htm
    obtain rfl : ns = tm.ns := he
    rfl
  | clearAuthCache id removes =>
    rw [step]
    exact holds_update hu id fun tm htm => stays_clearCache removes _ htm
  | request id path env =>
    exact holds_update hu id fun tm htm => stays_doRequest _ (fun _ _ _ => he) htm

/-- A user who keeps to one operator and one account sends every token to its issuer. -/
theorem proper_of_one_identity {events : List Event}
    (hfile : IssuedFor i file) (hevents : ∀ e ∈ events, KeepsTo i e) :
    ∀ h ∈ (run step { file } events).sent, h.Proper := by
  have hstart : Holds i { file } := ⟨hfile, fun id tm htm => by simp at htm⟩
  have hsends : Along step Sends { file } events := by
    refine Along.of_invariant (P := fun _ e => KeepsTo i e) (Holds i) (fun u e hu he => ?_) hstart
      (Along.of_forall fun e he u => hevents e he)
    refine ⟨holds_step hu he, ?_⟩
    cases e with
    | request id path env =>
      exact fun tm htm _ _ => authentic_of_stays (fun _ => he) (hu.clients id tm htm)
    | _ => trivial
  exact (proper_run_iff { file } events).mpr ⟨fun h hh => absurd hh List.not_mem_nil, hsends⟩

theorem proper_to_one_operator : (run step {} (twoOperators.take 2)).sent.length = 1 ∧
    ∀ h ∈ (run step {} (twoOperators.take 2)).sent, h.Proper := by
  refine ⟨by decide +kernel, ?_⟩
  exact proper_of_one_identity (i := ⟨"http://localhost:8090", "kubectl-hsm", "prod"⟩)
    (fun _ h => by cases h)
    (by simp [twoOperators, KeepsTo, newTokenManager, TokenManager.identity])

end HsmSecretsOperator.Kubectl.Tokens
