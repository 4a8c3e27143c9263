/- source: internal/security/api_auth.go
   digest: The authentication middleware of the REST server. -/

import HsmSecretsOperator.Foundation.Text

set_option autoImplicit false

namespace HsmSecretsOperator.Security.Auth

open Foundation.Text

/-- The claims of a token that the handlers see. -/
structure Claims where
  serviceAccount : String
  ns : String
  deriving DecidableEq

/-- An authenticator; signature and expiry checks are those of the token library. -/
structure Authenticator where
  validateToken : String → Except String Claims

def bearerPrefix : String := "Bearer "

structure Unauthorized where
  code : String
  message : String
  deriving DecidableEq

/-- What the middleware does with a request: let it pass unauthenticated, let it pass with claims
in its context, or abort it. -/
inductive Outcome where
  | skipped
  | authenticated (claims : Claims)
  | aborted (answer : Unauthorized)
  deriving DecidableEq

def isHealthPath (path : String) : Bool := hasSuffix path "/health" || hasSuffix path "/healthz"

def isTokenPath (path : String) : Bool := hasSuffix path "/auth/token"

def isWebPath (path : String) : Bool := path = "/" || hasPrefix path "/web/"

/-- `AuthMiddleware` on a request path and its Authorization header, empty when absent. -/
def authMiddleware (a : Authenticator) (path authHeader : String) : Outcome :=
  if isHealthPath path then .skipped
  else if isTokenPath path then .skipped
  else if isWebPath path then .skipped
  else if authHeader = "" then
    .aborted { code := "MISSING_AUTH_HEADER", message := "missing authorization header" }
  else if !hasPrefix authHeader bearerPrefix then
    .aborted { code := "INVALID_AUTH_FORMAT"
               message := "invalid authorization header format, expected 'Bearer <token>'" }
  else
    match a.validateToken (trimPrefix authHeader bearerPrefix) with
    | .ok claims => .authenticated claims
    | .error _ =>
      .aborted { code := "INVALID_TOKEN", message := "authentication token is invalid or expired" }

/-- The header is a bearer token that the authenticator accepts. -/
def CarriesToken (a : Authenticator) (authHeader : String) : Prop :=
  ∃ token claims, authHeader = bearerPrefix ++ token ∧ a.validateToken token = .ok claims

theorem authMiddleware_of_web {a : Authenticator} {path : String} (authHeader : String)
    (hhealth : isHealthPath path = false) (htoken : isTokenPath path = false)
    (hweb : isWebPath path = false) :
    (∃ answer, authMiddleware a path authHeader = .aborted answer) ∨
      CarriesToken a authHeader := by
  simp only [authMiddleware, hhealth, htoken, hweb, Bool.false_eq_true, if_false]
  split
  · exact .inl ⟨_, rfl⟩
  split
  · exact .inl ⟨_, rfl⟩
  next hbearer =>
    obtain ⟨token, rfl⟩ : ∃ token, authHeader = bearerPrefix ++ token := by
      apply hasPrefix_iff.mp
      simpa using hbearer
    rw [trimPrefix_append]
    cases htok : a.validateToken token with
    | ok claims => exact .inr ⟨token, claims, rfl, htok⟩
    | error e => exact .inl ⟨_, rfl⟩

theorem not_carriesToken_empty (a : Authenticator) : ¬ CarriesToken a "" := by
  rintro ⟨token, _, htoken, _⟩
  have hlist := congrArg String.toList htoken
  simp [bearerPrefix, String.toList_append] at hlist

theorem isHealthPath_iff (path : String) : isHealthPath path = true ↔
    ∃ init, init ≠ [] ∧ (splitAt '/' path = init ++ ["health"] ∨
      splitAt '/' path = init ++ ["healthz"]) := by
  have hhealth := hasSuffix_separated_iff (show '/' ∉ "health".toList by decide) path
  have hhealthz := hasSuffix_separated_iff (show '/' ∉ "healthz".toList by decide) path
  rw [isHealthPath, Bool.or_eq_true]
  constructor
  · rintro (h | h)
    · obtain ⟨init, hne, hparts⟩ := hhealth.mp h
      exact ⟨init, hne, .inl hparts⟩
    · obtain ⟨init, hne, hparts⟩ := hhealthz.mp h
      exact ⟨init, hne, .inr hparts⟩
  · rintro ⟨init, hne, hparts | hparts⟩
    · exact .inl (hhealth.mpr ⟨init, hne, hparts⟩)
    · exact .inr (hhealthz.mpr ⟨init, hne, hparts⟩)

theorem isTokenPath_iff (path : String) : isTokenPath path = true ↔
    ∃ init, init ≠ [] ∧ splitAt '/' path = init ++ ["auth", "token"] := by
  rw [isTokenPath, hasSuffix_iff]
  constructor
  · rintro ⟨r, rfl⟩
    have hparts : splitAt '/' (r ++ "/auth/token") = splitAt '/' r ++ ["auth", "token"] :=
      splitAt_append_separator '/' r "auth/token"
    exact ⟨splitAt '/' r, splitAt_ne_nil '/' r, hparts⟩
  · rintro ⟨init, hne, hparts⟩
    refine ⟨joinWith '/' init, ?_⟩
    have hjoin : joinWith '/' ((init ++ ["auth"]) ++ ["token"]) = path := by
      rw [List.append_assoc, List.singleton_append, ← hparts, joinWith_splitAt]
    rw [← hjoin, joinWith_concat (by simp), joinWith_concat hne, String.append_assoc]
    rfl

end HsmSecretsOperator.Security.Auth
