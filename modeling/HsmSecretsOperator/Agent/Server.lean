/- source: internal/agent/grpc_server.go, internal/agent/grpc_client.go
   digest: The agent of a device: its handlers behind the interceptor, and its client. -/

import HsmSecretsOperator.Security.Interceptor

/-! The deletion of a key is the deletion of a secret with a key; an empty key is none. -/

set_option autoImplicit false

namespace HsmSecretsOperator.Agent.Server

open Hsm.Pkcs11 (Token)
open Hsm.Secret Security.Interceptor Security.Validation

def codeName : Code → String
  | .invalidArgument => "InvalidArgument"
  | .internal => "Internal"

/-- The text of an error as the client of the call prints it. -/
def errorText (e : Status) : String :=
  "rpc error: code = " ++ codeName e.code ++ " desc = " ++ e.message

/-- The request of a write; an empty map arrives as a nil one. -/
def writeRequest (path : String) (data : SecretData) (metadata : Option SecretMetadata) : Request :=
  .writeSecret
    { path, secretData := some ⟨if data.isEmpty then none else some data⟩, metadata }

/-- An `hsm.Client`: every call may change the state and may fail. -/
structure Backend (σ : Type) where
  isConnected : σ → Bool
  readSecret : σ → String → σ × Except String SecretData
  writeSecret : σ → String → SecretData → Option SecretMetadata → σ × Except String Unit
  readMetadata : σ → String → σ × Except String (Option SecretMetadata)
  deleteSecret : σ → String → σ × Except String Unit
  deleteSecretKey : σ → String → String → σ × Except String Unit
  listSecrets : σ → String → σ × Except String (List String)
  getChecksum : σ → String → σ × Except String String

inductive Operation where
  | readSecret (path : String)
  | writeSecret (path : String) (data : SecretData) (metadata : Option SecretMetadata)
  | readMetadata (path : String)
  | deleteSecret (path : String)
  | deleteSecretKey (path key : String)
  | listSecrets (under : String)
  | getChecksum (path : String)
  deriving DecidableEq

/-- What an operation returns. -/
inductive Value where
  | done
  | data (data : SecretData)
  | metadata (metadata : Option SecretMetadata)
  | paths (paths : List String)
  | checksum (checksum : String)
  deriving DecidableEq

/-- The path that an operation is about; a listing has none. -/
def Operation.path? : Operation → Option String
  | .readSecret path | .writeSecret path _ _ | .readMetadata path | .deleteSecret path
  | .deleteSecretKey path _ | .getChecksum path => some path
  | .listSecrets _ => none

def Operation.Valid (op : Operation) : Prop :=
  ∀ path ∈ op.path?, validateSecretPath path = .ok ()

section Calls

variable {σ : Type} (b : Backend σ) (s : σ)

def answer {α : Type} (value : α → Value) (result : σ × Except String α) :
    σ × Except String Value :=
  (result.1, result.2.map value)

def direct : Operation → σ × Except String Value
  | .readSecret path => answer .data (b.readSecret s path)
  | .writeSecret path data metadata =>
    answer (fun _ => .done) (b.writeSecret s path data metadata)
  | .readMetadata path => answer .metadata (b.readMetadata s path)
  | .deleteSecret path => answer (fun _ => .done) (b.deleteSecret s path)
  | .deleteSecretKey path key => answer (fun _ => .done) (b.deleteSecretKey s path key)
  | .listSecrets under => answer .paths (b.listSecrets s under)
  | .getChecksum path => answer .checksum (b.getChecksum s path)

/-- The errors of the handlers; the one for a missing connection has a code of its own. -/
inductive RpcError where
  | status (e : Status)
  | unavailable (message : String)

def rpcText : RpcError → String
  | .status e => errorText e
  | .unavailable message => "rpc error: code = Unavailable desc = " ++ message

/-- The backend is called if it is connected. -/
def whenConnected (what : String) (result : σ × Except String Value) :
    σ × Except RpcError Value :=
  if !b.isConnected s then (s, .error (.unavailable "HSM client not connected"))
  else
    match result with
    | (s', .ok value) => (s', .ok value)
    | (s', .error text) => (s', .error (.status ⟨.internal, what ++ ": " ++ text⟩))

def withPath (path : String) (result : σ × Except RpcError Value) : σ × Except RpcError Value :=
  if path = "" then (s, .error (.status ⟨.invalidArgument, "path is required"⟩)) else result

/-- The handlers of `GRPCServer`. The requests at the end are not about secrets. -/
def handle : Request → σ × Except RpcError Value
  | .readSecret path =>
    withPath s path (whenConnected b s "failed to read secret" (direct b s (.readSecret path)))
  | .writeSecret req =>
    withPath s req.path
      (match req.secretData with
      | none => (s, .error (.status ⟨.invalidArgument, "secret data is required"⟩))
      | some secretData =>
        whenConnected b s "failed to write secret with metadata"
          (direct b s (.writeSecret req.path (secretData.data.getD ∅) req.metadata)))
  | .readMetadata path =>
    withPath s path (whenConnected b s "failed to read metadata" (direct b s (.readMetadata path)))
  | .deleteSecret path key =>
    withPath s path
      (if key ≠ "" then
        whenConnected b s "failed to delete secret key" (direct b s (.deleteSecretKey path key))
      else whenConnected b s "failed to delete secret" (direct b s (.deleteSecret path)))
  | .listSecrets under =>
    whenConnected b s "failed to list secrets" (direct b s (.listSecrets under))
  | .getChecksum path =>
    withPath s path (whenConnected b s "failed to get checksum" (direct b s (.getChecksum path)))
  | .getInfo | .isConnected | .changePIN _ _ | .health => (s, .ok .done)

def Operation.request : Operation → Request
  | .readSecret path => .readSecret path
  | .writeSecret path data metadata => writeRequest path data metadata
  | .readMetadata path => .readMetadata path
  | .deleteSecret path => .deleteSecret path ""
  | .deleteSecretKey path key => .deleteSecret path key
  | .listSecrets under => .listSecrets under
  | .getChecksum path => .getChecksum path

/-- What the client puts before the text of an error. -/
def Operation.failure : Operation → String
  | .readSecret _ => "failed to read secret: "
  | .writeSecret _ _ _ => "failed to write secret with metadata: "
  | .readMetadata _ => "failed to read metadata: "
  | .deleteSecret _ => "failed to delete secret: "
  | .deleteSecretKey _ _ => "failed to delete secret key: "
  | .listSecrets _ => "failed to list secrets: "
  | .getChecksum _ => "failed to get checksum: "

def received (op : Operation) : σ × Except RpcError Value → σ × Except String Value
  | (s', .ok value) => (s', .ok value)
  | (s', .error e) => (s', .error (op.failure ++ rpcText e))

/-- An operation through `GRPCClient` and `GRPCServer`. -/
def viaGrpc (op : Operation) : σ × Except String Value :=
  match validationInterceptor (fun req => .ok (handle b s req)) op.request with
  | .error e => (s, .error (op.failure ++ errorText e))
  | .ok result => received op result

end Calls

def tokenBackend : Backend Token where
  isConnected _ := true
  readSecret t path := (t, Hsm.Pkcs11.readSecret t path)
  writeSecret t path data metadata := (Hsm.Pkcs11.writeSecret t path data metadata, .ok ())
  readMetadata t path := (t, (Hsm.Pkcs11.readMetadata t path).map some)
  deleteSecret t path := (Hsm.Pkcs11.deleteSecret t path, .ok ())
  deleteSecretKey t path key :=
    match Hsm.Pkcs11.deleteSecretKey t path key with
    | .ok t' => (t', .ok ())
    | .error text => (t, .error text)
  listSecrets t under := (t, .ok (Hsm.Pkcs11.listSecrets t under))
  getChecksum t path :=
    (t, match Hsm.Pkcs11.readSecret t path with
      | .ok data => .ok (calculateChecksum data)
      | .error text => .error ("failed to read secret for checksum: " ++ text))

def Value.data? : Value → Option SecretData
  | .data x => some x
  | _ => none

def Value.metadata? : Value → Option SecretMetadata
  | .metadata x => x
  | _ => none

def Value.paths? : Value → Option (List String)
  | .paths x => some x
  | _ => none

/-- `GRPCClient` with a connected agent. A token never answers with nil metadata. -/
def client : Client Token where
  readSecret t path :=
    (viaGrpc tokenBackend t (.readSecret path)).2.map fun value => value.data?.getD ∅
  readMetadata t path :=
    (viaGrpc tokenBackend t (.readMetadata path)).2.map fun value => value.metadata?.getD {}
  writeSecret t path data metadata := (viaGrpc tokenBackend t (.writeSecret path data metadata)).1
  deleteSecret t path := (viaGrpc tokenBackend t (.deleteSecret path)).1
  listSecrets t under :=
    ((viaGrpc tokenBackend t (.listSecrets under)).2.toOption.bind Value.paths?).getD []

def deleteSecretKey (t : Token) (path key : String) : Except String Token :=
  (viaGrpc tokenBackend t (.deleteSecretKey path key)).2.map fun _ =>
    (viaGrpc tokenBackend t (.deleteSecretKey path key)).1

theorem getD_wire (data : SecretData) :
    (if data.isEmpty then none else some data).getD ∅ = data := by
  split
  next hempty => exact (Std.ExtTreeMap.isEmpty_iff.mp hempty).symm
  next => rfl

theorem path_ne_empty {path : String} (h : validateSecretPath path = .ok ()) : path ≠ "" :=
  (plain_of_validateSecretPath h).1

/-- The operation that arrives at the backend. -/
def Operation.arriving : Operation → Operation
  | .deleteSecretKey path key => if key = "" then .deleteSecret path else .deleteSecretKey path key
  | op => op

/-- The two results differ in the texts of errors at most. -/
structure Alike {σ : Type} (r r' : σ × Except String Value) : Prop where
  state : r.1 = r'.1
  value : r.2.toOption = r'.2.toOption

section Step

variable {σ : Type} {b : Backend σ} {s : σ} {op : Operation}

theorem received_whenConnected (h : b.isConnected s = true) (op : Operation) (what : String)
    (result : σ × Except String Value) :
    Alike (received op (whenConnected b s what result)) result := by
  obtain ⟨s', outcome⟩ := result
  unfold whenConnected
  rw [h]
  cases outcome with
  | error text => exact ⟨rfl, rfl⟩
  | ok value => exact ⟨rfl, rfl⟩

theorem checkPath_request (op : Operation) : checkPath op.request =
    op.path?.elim (.ok ()) fun path => invalid "invalid path: " (validateSecretPath path) := by
  cases op <;> rfl

theorem interceptor_of_valid {α : Type} (handler : Request → Except Status α) (h : op.Valid) :
    validationInterceptor handler op.request = handler op.request := by
  have hpath : checkPath op.request = .ok () := by
    rw [checkPath_request]
    cases hop : op.path? with
    | none => rfl
    | some path =>
      rw [Option.elim_some, h path hop]
      rfl
  have hwrite : checkWrite op.request = .ok () := by
    cases op <;> rfl
  rw [validationInterceptor, hpath, hwrite]

theorem withPath_of_valid {path : String} (h : validateSecretPath path = .ok ())
    (result : σ × Except RpcError Value) : withPath s path result = result :=
  if_neg (path_ne_empty h)

/-- The agent does to a connected backend what the operation that arrives does. -/
theorem viaGrpc_alike (b : Backend σ) (s : σ) (op : Operation) (h : op.Valid)
    (hconnected : b.isConnected s = true) :
    Alike (viaGrpc b s op) (direct b s op.arriving) := by
  rw [viaGrpc, interceptor_of_valid _ h]
  dsimp only
  cases op with
  | listSecrets under => exact received_whenConnected hconnected _ _ _
  | readSecret path =>
    rw [Operation.request, handle, withPath_of_valid (h path rfl)]
    exact received_whenConnected hconnected _ _ _
  | writeSecret path data metadata =>
    rw [Operation.request, writeRequest, handle, withPath_of_valid (h path rfl)]
    dsimp only
    rw [getD_wire]
    exact received_whenConnected hconnected _ _ _
  | readMetadata path =>
    rw [Operation.request, handle, withPath_of_valid (h path rfl)]
    exact received_whenConnected hconnected _ _ _
  | deleteSecret path =>
    rw [Operation.request, handle, withPath_of_valid (h path rfl), if_neg (not_not.mpr rfl)]
    exact received_whenConnected hconnected _ _ _
  | deleteSecretKey path key =>
    rw [Operation.request, handle, withPath_of_valid (h path rfl), Operation.arriving]
    by_cases hkey : key = ""
    · rw [if_neg (not_not.mpr hkey), if_pos hkey]
      exact received_whenConnected hconnected _ _ _
    · rw [if_pos hkey, if_neg hkey]
      exact received_whenConnected hconnected _ _ _
  | getChecksum path =>
    rw [Operation.request, handle, withPath_of_valid (h path rfl)]
    exact received_whenConnected hconnected _ _ _

end Step

section Token

variable {path : String}

private theorem toOption_map {α β : Type} (f : α → β) (x : Except String α) :
    (x.map f).toOption = x.toOption.map f := by
  cases x with
  | error text => rfl
  | ok value => rfl

section Valid

variable (h : validateSecretPath path = .ok ())

include h

theorem valid_of_path {op : Operation} (hop : op.path? = some path) : op.Valid := by
  intro path' hpath'
  rw [← Option.some.inj (hop.symm.trans hpath'), h]

theorem client_writeSecret (t : Token) (data : SecretData) (metadata : Option SecretMetadata) :
    client.writeSecret t path data metadata = Hsm.Pkcs11.writeSecret t path data metadata :=
  (viaGrpc_alike _ t (.writeSecret path data metadata) (valid_of_path h rfl) rfl).state

theorem isSome_writeSecret (t : Token) (data : SecretData) (metadata : Option SecretMetadata) :
    (viaGrpc tokenBackend t (.writeSecret path data metadata)).2.toOption.isSome = true := by
  rw [(viaGrpc_alike _ t (.writeSecret path data metadata) (valid_of_path h rfl) rfl).value]
  rfl

theorem client_deleteSecret (t : Token) :
    client.deleteSecret t path = Hsm.Pkcs11.deleteSecret t path :=
  (viaGrpc_alike _ t (.deleteSecret path) (valid_of_path h rfl) rfl).state

theorem toOption_deleteSecretKey (t : Token) {key : String} (hkey : key ≠ "") :
    (deleteSecretKey t path key).toOption = (Hsm.Pkcs11.deleteSecretKey t path key).toOption := by
  obtain ⟨hstate, hvalue⟩ :=
    viaGrpc_alike tokenBackend t (.deleteSecretKey path key) (valid_of_path h rfl) rfl
  rw [Operation.arriving, if_neg hkey] at hstate hvalue
  rw [deleteSecretKey, toOption_map, hstate, hvalue]
  dsimp only [direct, tokenBackend]
  cases Hsm.Pkcs11.deleteSecretKey t path key with
  | error text => rfl
  | ok t' => rfl

theorem client_readMetadata {t : Token} {metadata : SecretMetadata}
    (hread : Hsm.Pkcs11.readMetadata t path = .ok metadata) :
    client.readMetadata t path = .ok metadata := by
  have hvalue := (viaGrpc_alike tokenBackend t (.readMetadata path) (valid_of_path h rfl) rfl).value
  have hdirect : (direct tokenBackend t (Operation.readMetadata path).arriving).2 =
      .ok (.metadata (some metadata)) := by
    simp only [Operation.arriving, direct, tokenBackend, answer, hread]
    rfl
  rw [hdirect] at hvalue
  dsimp only [client]
  cases hresult : (viaGrpc tokenBackend t (.readMetadata path)).2 with
  | error text =>
    rw [hresult] at hvalue
    cases hvalue
  | ok value =>
    rw [hresult] at hvalue
    obtain rfl := Option.some.inj hvalue
    rfl

end Valid

section Rejected

variable (h : validateSecretPath path ≠ .ok ())

include h

theorem viaGrpc_of_invalid {σ : Type} (b : Backend σ) (s : σ) (op : Operation)
    (hop : op.path? = some path) :
    (viaGrpc b s op).1 = s ∧ (viaGrpc b s op).2.toOption = none := by
  have hcheck : ∃ e, checkPath op.request = .error e := by
    rw [checkPath_request, hop, Option.elim_some]
    cases hvalid : validateSecretPath path with
    | error text => exact ⟨_, rfl⟩
    | ok _ => exact absurd hvalid h
  obtain ⟨e, he⟩ := hcheck
  rw [viaGrpc, validationInterceptor, he]
  exact ⟨rfl, rfl⟩

theorem client_writeSecret_of_invalid (t : Token) (data : SecretData)
    (metadata : Option SecretMetadata) : client.writeSecret t path data metadata = t :=
  (viaGrpc_of_invalid h _ t (.writeSecret path data metadata) rfl).1

theorem client_deleteSecret_of_invalid (t : Token) : client.deleteSecret t path = t :=
  (viaGrpc_of_invalid h _ t (.deleteSecret path) rfl).1

theorem deleteSecretKey_of_invalid (t : Token) (key : String) :
    (deleteSecretKey t path key).toOption = none := by
  rw [deleteSecretKey, toOption_map,
    (viaGrpc_of_invalid h tokenBackend t (.deleteSecretKey path key) rfl).2]
  rfl

end Rejected

end Token

end HsmSecretsOperator.Agent.Server
