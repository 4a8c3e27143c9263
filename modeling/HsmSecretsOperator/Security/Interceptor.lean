/- source: internal/security/validation.go, api/proto/hsm/v1/hsm.pb.go
   digest: Which requests the validation interceptor checks, and what it lets through unchecked. -/

import HsmSecretsOperator.Security.Validation

/-! A type implements an interface only with the identical signature, and the generated getters
    return pointers to messages, not the interfaces that the second switch asks for. -/

set_option autoImplicit false

namespace HsmSecretsOperator.Security.Interceptor

open Foundation.Text Hsm.Secret Validation

/-- The result types of the methods that matter, with interfaces of a single method. -/
inductive GoType where
  | string
  | bytesByString
  | stringByString
  | pointer (message : String)
  | interface (method : String) (result : GoType)
  deriving DecidableEq

structure Method where
  name : String
  result : GoType
  deriving DecidableEq

/-- The message with the data of a secret; the map may be nil. -/
structure SecretDataMessage where
  data : Option SecretData

structure WriteSecretRequest where
  path : String
  secretData : Option SecretDataMessage
  metadata : Option SecretMetadata

inductive Request where
  | getInfo
  | readSecret (path : String)
  | writeSecret (req : WriteSecretRequest)
  | readMetadata (path : String)
  | deleteSecret (path key : String)
  | listSecrets (under : String)
  | getChecksum (path : String)
  | isConnected
  | changePIN (oldPin newPin : String)
  | health

/-- The getters of the generated types; their other methods carry names no switch asks for. -/
def Request.methods : Request → List Method
  | .getInfo | .isConnected | .health => []
  | .readSecret _ | .readMetadata _ | .getChecksum _ => [⟨"GetPath", .string⟩]
  | .writeSecret _ =>
    [⟨"GetPath", .string⟩, ⟨"GetSecretData", .pointer "SecretData"⟩,
      ⟨"GetMetadata", .pointer "SecretMetadata"⟩]
  | .deleteSecret _ _ => [⟨"GetPath", .string⟩, ⟨"GetKey", .string⟩]
  | .listSecrets _ => [⟨"GetPrefix", .string⟩]
  | .changePIN _ _ => [⟨"GetOldPin", .string⟩, ⟨"GetNewPin", .string⟩]

/-- The case of a type switch matches: the method set has the method with this very signature. -/
def Request.implements (req : Request) (method : Method) : Bool := method ∈ req.methods

def Request.getPath : Request → String
  | .readSecret path | .readMetadata path | .getChecksum path | .deleteSecret path _ => path
  | .writeSecret req => req.path
  | _ => ""

def Request.getSecretData : Request → Option SecretDataMessage
  | .writeSecret req => req.secretData
  | _ => none

def Request.getMetadata : Request → Option SecretMetadata
  | .writeSecret req => req.metadata
  | _ => none

def pathGetter : Method := ⟨"GetPath", .string⟩

def secretDataGetter : Method := ⟨"GetSecretData", .interface "GetData" .bytesByString⟩

def metadataGetter : Method := ⟨"GetMetadata", .interface "GetLabels" .stringByString⟩

inductive Code where
  | invalidArgument
  | internal
  deriving DecidableEq

structure Status where
  code : Code
  message : String
  deriving DecidableEq

def invalid (what : String) : Except String Unit → Except Status Unit
  | .ok () => .ok ()
  | .error text => .error ⟨.invalidArgument, what ++ text⟩

def checkPath (req : Request) : Except Status Unit :=
  if req.implements pathGetter then invalid "invalid path: " (validateSecretPath req.getPath)
  else .ok ()

/-- The second type switch; only the first case that matches is taken. -/
def checkWrite (req : Request) : Except Status Unit :=
  if req.implements secretDataGetter then
    match req.getSecretData with
    | some secretData => invalid "invalid secret data: " (validateNilableData secretData.data)
    | none => .ok ()
  else if req.implements metadataGetter then
    match req.getMetadata with
    | some metadata => invalid "invalid metadata: " (validateMetadata metadata.labels)
    | none => .ok ()
  else .ok ()

/-- `ValidationInterceptor`. -/
def validationInterceptor {α : Type} (handler : Request → Except Status α)
    (req : Request) : Except Status α :=
  match checkPath req with
  | .error e => .error e
  | .ok () =>
    match checkWrite req with
    | .error e => .error e
    | .ok () => handler req

/-- The interceptor calls its handler. -/
def CallsHandler (req : Request) : Prop :=
  ∃ handled, validationInterceptor (fun r => .ok r) req = .ok handled

/-- What the getters of a write return passes the three checks. -/
structure Validated (req : WriteSecretRequest) : Prop where
  path : validateSecretPath req.path = .ok ()
  secretData : validateNilableData (req.secretData.bind SecretDataMessage.data) = .ok ()
  labels : validateMetadata ((req.metadata.map SecretMetadata.labels).getD ∅) = .ok ()

theorem checkWrite_writeSecret (req : WriteSecretRequest) :
    checkWrite (.writeSecret req) = .ok () := rfl

theorem validationInterceptor_of_path {α : Type} (handler : Request → Except Status α)
    {req : Request} (hpath : req.implements pathGetter = true)
    (hwrite : checkWrite req = .ok ()) : validationInterceptor handler req =
      match validateSecretPath req.getPath with
      | .ok () => handler req
      | .error text => .error ⟨.invalidArgument, "invalid path: " ++ text⟩ := by
  unfold validationInterceptor checkPath
  rw [if_pos hpath, hwrite]
  cases validateSecretPath req.getPath with
  | error text => rfl
  | ok _ => rfl

theorem callsHandler_writeSecret (req : WriteSecretRequest) :
    CallsHandler (.writeSecret req) ↔ validateSecretPath req.path = .ok () := by
  unfold CallsHandler
  rw [validationInterceptor_of_path _ rfl (checkWrite_writeSecret req)]
  dsimp only [Request.getPath]
  cases validateSecretPath req.path with
  | error text => simp
  | ok _ => simp

/-- A write that reaches the handler is validated exactly if its path is rejected or the data and
the labels, which are not looked at, are acceptable all the same. -/
theorem validated_iff (req : WriteSecretRequest) :
    (CallsHandler (.writeSecret req) → Validated req) ↔
      validateSecretPath req.path ≠ .ok () ∨
        (validateNilableData (req.secretData.bind SecretDataMessage.data) = .ok () ∧
          validateMetadata ((req.metadata.map SecretMetadata.labels).getD ∅) = .ok ()) := by
  rw [callsHandler_writeSecret]
  by_cases hpath : validateSecretPath req.path = .ok ()
  · constructor
    · intro h
      exact .inr ⟨(h hpath).secretData, (h hpath).labels⟩
    · intro h _
      obtain ⟨hdata, hlabels⟩ := h.resolve_left fun hne => hne hpath
      exact ⟨hpath, hdata, hlabels⟩
  · exact iff_of_true (fun h => absurd h hpath) (.inl hpath)

private def forged : WriteSecretRequest :=
  { path := "db"
    secretData := some ⟨some ((∅ : SecretData).insert "_metadata" (utf8 "x"))⟩
    metadata := none }

theorem reserved_key_reaches_handler :
    CallsHandler (.writeSecret forged) ∧ ¬ Validated forged := by
  refine ⟨(callsHandler_writeSecret forged).mpr (by decide), fun h => ?_⟩
  have hdata := h.secretData
  revert hdata
  decide

end HsmSecretsOperator.Security.Interceptor
