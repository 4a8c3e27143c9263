/- source: internal/api/server.go, internal/api/proxy_handlers.go
   digest: The router of the REST server behind its middleware, and which requests need a token. -/

import HsmSecretsOperator.Security.Auth

set_option autoImplicit false

namespace HsmSecretsOperator.Api.Routes

open Foundation.Text Security.Auth

inductive Method where
  | get
  | head
  | post
  | put
  | patch
  | delete
  | connect
  | options
  | trace
  deriving DecidableEq

inductive Handler where
  | webFiles
  | webRedirect
  | tokenGeneration
  | getInfo
  | isConnected
  | listSecrets
  | readSecret
  | writeSecret
  | deleteSecret
  | deleteSecretKey
  | readMetadata
  | getChecksum
  | changePIN
  | mirrorSync
  | health
  | info
  deriving DecidableEq

/-- A segment of a route: static text, a parameter for one segment, or the rest of the path. -/
inductive Segment where
  | static (text : String)
  | param (name : String)
  | rest (name : String)
  deriving DecidableEq

structure Route where
  method : Method
  pattern : List Segment
  handler : Handler
  deriving DecidableEq

/-- A route relative to a group. -/
def inGroup (group : List String) (method : Method) (pattern : List Segment) (handler : Handler) :
    Route :=
  { method, pattern := group.map .static ++ pattern, handler }

def v1 : List String := ["api", "v1"]

def hsmGroup : List String := v1 ++ ["hsm"]

def secretsGroup : List String := hsmGroup ++ ["secrets"]

/-- The routes registered under `/api/v1/hsm`. -/
def hsmRoutes : List Route :=
  [inGroup hsmGroup .get [.static "info"] .getInfo,
   inGroup hsmGroup .get [.static "status"] .isConnected,
   inGroup secretsGroup .get [] .listSecrets,
   inGroup secretsGroup .get [.param "path"] .readSecret,
   inGroup secretsGroup .post [.param "path"] .writeSecret,
   inGroup secretsGroup .put [.param "path"] .writeSecret,
   inGroup secretsGroup .delete [.param "path"] .deleteSecret,
   inGroup secretsGroup .delete [.param "path", .param "key"] .deleteSecretKey,
   inGroup secretsGroup .get [.param "path", .static "metadata"] .readMetadata,
   inGroup secretsGroup .get [.param "path", .static "checksum"] .getChecksum,
   inGroup hsmGroup .post [.static "change-pin"] .changePIN,
   inGroup hsmGroup .post [.static "mirror", .static "sync"] .mirrorSync]

/-- `setupProxyRoutes` of a server with an authenticator. -/
def routes : List Route :=
  [inGroup ["web"] .get [.rest "filepath"] .webFiles,
   inGroup ["web"] .head [.rest "filepath"] .webFiles,
   inGroup [] .get [.static ""] .webRedirect,
   inGroup v1 .post [.static "auth", .static "token"] .tokenGeneration] ++
  hsmRoutes ++
  [inGroup v1 .get [.static "health"] .health,
   inGroup v1 .get [.static "info"] .info]

/-- The segments of a request path match a pattern. -/
def matchSegments : List Segment → List String → Bool
  | [], [] => true
  | .static text :: pattern, s :: segments => text = s && matchSegments pattern segments
  | .param _ :: pattern, s :: segments => s ≠ "" && matchSegments pattern segments
  | [.rest _], _ :: _ => true
  | _, _ => false

/-- The route matches; a request path is the empty text before its first slash, then segments. -/
def Route.matches (r : Route) (method : Method) (path : String) : Bool :=
  r.method = method && matchSegments (.static "" :: r.pattern) (splitAt '/' path)

/-- The route a request is dispatched to. No two patterns of one method overlap. -/
def dispatch (method : Method) (path : String) : Option Route :=
  routes.find? fun r => r.matches method path

structure Request where
  method : Method
  path : String
  /-- The Authorization header, empty when absent. -/
  authorization : String

/-- `setupRouter`: the handler that runs for a request, behind the CORS and the authentication
middleware. -/
def serve (a : Authenticator) (req : Request) : Option Handler :=
  match dispatch req.method req.path with
  | none => none
  | some r =>
    if req.method = .options then none
    else
      match authMiddleware a req.path req.authorization with
      | .aborted _ => none
      | _ => some r.handler

/-- The last segment is `health` or `healthz`, or the last two are `auth` and `token`. -/
def ExemptName (path : String) : Prop :=
  ∃ init, init ≠ [] ∧ (splitAt '/' path = init ++ ["health"] ∨
    splitAt '/' path = init ++ ["healthz"] ∨ splitAt '/' path = init ++ ["auth", "token"])

theorem exemptName_iff (path : String) :
    ExemptName path ↔ isHealthPath path = true ∨ isTokenPath path = true := by
  rw [isHealthPath_iff, isTokenPath_iff]
  constructor
  · rintro ⟨init, hne, h | h | h⟩
    · exact .inl ⟨init, hne, .inl h⟩
    · exact .inl ⟨init, hne, .inr h⟩
    · exact .inr ⟨init, hne, h⟩
  · rintro (⟨init, hne, h | h⟩ | ⟨init, hne, h⟩)
    · exact ⟨init, hne, .inl h⟩
    · exact ⟨init, hne, .inr (.inl h)⟩
    · exact ⟨init, hne, .inr (.inr h)⟩

private theorem hsmRoutes_shape : ∀ r ∈ hsmRoutes, r.method ≠ .options ∧
    ∃ pattern, r.pattern = .static "api" :: pattern := by
  intro r hr
  simp only [hsmRoutes, inGroup, secretsGroup, hsmGroup, v1, List.mem_cons,
    List.not_mem_nil, or_false] at hr
  rcases hr with rfl | rfl | rfl | rfl | rfl | rfl | rfl | rfl | rfl | rfl | rfl | rfl <;>
    exact ⟨by decide, _, rfl⟩

private theorem splitAt_of_matches {r : Route} (hr : r ∈ hsmRoutes) {method : Method}
    {path : String} (h : r.matches method path = true) :
    ∃ segments, splitAt '/' path = "" :: "api" :: segments := by
  obtain ⟨_, pattern, hpattern⟩ := hsmRoutes_shape r hr
  simp only [Route.matches, hpattern, Bool.and_eq_true] at h
  cases hparts : splitAt '/' path with
  | nil => simp [hparts, matchSegments] at h
  | cons s segments =>
    cases segments with
    | nil => simp [hparts, matchSegments] at h
    | cons s' segments =>
      simp only [hparts, matchSegments, Bool.and_eq_true, decide_eq_true_eq] at h
      exact ⟨segments, by rw [← h.2.1, ← h.2.2.1]⟩

private theorem not_isWebPath_of_api {path : String} {segments : List String}
    (h : splitAt '/' path = "" :: "api" :: segments) : isWebPath path = false := by
  rw [Bool.eq_false_iff]
  intro hweb
  simp only [isWebPath, Bool.or_eq_true, decide_eq_true_eq] at hweb
  rcases hweb with rfl | hweb
  · have hparts : splitAt '/' "/" = ["", ""] := by decide
    simp [hparts] at h
  · obtain ⟨r, rfl⟩ := hasPrefix_iff.mp hweb
    have hparts : splitAt '/' ("/web/" ++ r) = "" :: "web" :: splitAt '/' r :=
      splitAt_append_separator '/' "/web" r
    rw [hparts] at h
    exact absurd (List.cons.inj (List.cons.inj h).2).1 (by decide)

/-- A request for an HSM operation needs an accepted bearer token exactly when its path does not
end like a health check or the token endpoint. -/
theorem token_required_iff (a : Authenticator) {method : Method} {path : String} {r : Route}
    (hr : r ∈ hsmRoutes) (h : dispatch method path = some r) :
    (∀ authorization, serve a ⟨method, path, authorization⟩ = some r.handler →
      CarriesToken a authorization) ↔ ¬ ExemptName path := by
  have hmatches : r.matches method path = true := by
    simpa using List.find?_some h
  have hmethod : method ≠ .options := by
    have := (hsmRoutes_shape r hr).1
    simp only [Route.matches, Bool.and_eq_true, decide_eq_true_eq] at hmatches
    exact hmatches.1 ▸ this
  obtain ⟨segments, hsegments⟩ := splitAt_of_matches hr hmatches
  have hweb := not_isWebPath_of_api hsegments
  constructor
  · intro hall hexempt
    have hskip : authMiddleware a path "" = .skipped := by
      rcases (exemptName_iff path).mp hexempt with hhealth | htoken
      · simp [authMiddleware, hhealth]
      · simp [authMiddleware, htoken]
    refine not_carriesToken_empty a (hall "" ?_)
    simp [serve, h, hmethod, hskip]
  · intro hexempt authorization hserve
    rw [exemptName_iff, not_or, Bool.not_eq_true, Bool.not_eq_true] at hexempt
    rcases authMiddleware_of_web (a := a) authorization hexempt.1 hexempt.2 hweb with
      ⟨answer, hab⟩ | hcarry
    · simp [serve, h, hmethod, hab] at hserve
    · exact hcarry

theorem token_required_readSecret_app :
    let a : Authenticator := ⟨fun _ => .error "invalid token claims"⟩
    dispatch .get "/api/v1/hsm/secrets/app" =
        some (inGroup secretsGroup .get [.param "path"] .readSecret) ∧
      ((∀ authorization, serve a ⟨.get, "/api/v1/hsm/secrets/app", authorization⟩ =
        some .readSecret → CarriesToken a authorization) ↔
          ¬ ExemptName "/api/v1/hsm/secrets/app") :=
  ⟨by decide, token_required_iff _ (r := inGroup secretsGroup .get [.param "path"] .readSecret)
    (by decide) (by decide)⟩

/-- A secret called `health` can be deleted without any token. -/
theorem serve_delete_health : dispatch .delete "/api/v1/hsm/secrets/health" =
      some (inGroup secretsGroup .delete [.param "path"] .deleteSecret) ∧
    inGroup secretsGroup .delete [.param "path"] .deleteSecret ∈ hsmRoutes ∧
    ∀ a, serve a ⟨.delete, "/api/v1/hsm/secrets/health", ""⟩ = some .deleteSecret ∧
      ¬ CarriesToken a "" := by
  have hroute : dispatch .delete "/api/v1/hsm/secrets/health" =
      some (inGroup secretsGroup .delete [.param "path"] .deleteSecret) := by decide
  have hhealth : isHealthPath "/api/v1/hsm/secrets/health" = true := by decide
  refine ⟨hroute, by decide, fun a => ⟨?_, not_carriesToken_empty a⟩⟩
  simp [serve, hroute, authMiddleware, hhealth, inGroup]

end HsmSecretsOperator.Api.Routes
