/- source: kubectl-hsm/pkg/client/client.go, internal/api/proxy_client.go
   digest: Reading and writing a secret through the API client of the kubectl plugin. -/

import HsmSecretsOperator.Foundation.Base64
import HsmSecretsOperator.Foundation.Json
import HsmSecretsOperator.Foundation.Maps
import HsmSecretsOperator.Hsm.Secret

set_option autoImplicit false

namespace HsmSecretsOperator.Kubectl.Client

open Foundation Foundation.Json Foundation.Maps Foundation.Text Hsm.Secret

/-- A value of a `map[string]any`; those that are neither nil nor a string are not told apart. -/
inductive Any
  | string (text : Bytes)
  | nil
  | other
  deriving DecidableEq

abbrev Data := Std.ExtTreeMap Bytes Any

def decodeBase64Value : Any → Any
  | .string strValue =>
    match Base64.decode strValue with
    | some decodedBytes => .string decodedBytes
    | none => .string strValue
  | value => value

def decodeBase64Data (data : Data) : Data := data.map fun _ value => decodeBase64Value value

structure APIError where
  code : Bytes
  message : Bytes

inductive SendError
  | marshal (err : Bytes)
  | create (err : Bytes)
  | token (err : Bytes)
  | transport (err : Bytes)

def SendError.text : SendError → Bytes
  | .marshal err => utf8 "failed to marshal request body: " ++ err
  | .create err => utf8 "failed to create request: " ++ err
  | .token err => utf8 "failed to get authentication token: " ++ err
  | .transport err => utf8 "request failed: " ++ err

/-- Why the answer to a request does not get back to the client. -/
inductive ReplyError
  | transport (err : Bytes)
  | body (err : Bytes)
  | malformed (err : Bytes)

def ReplyError.text : ReplyError → Bytes
  | .transport err => utf8 "request failed: " ++ err
  | .body err => utf8 "failed to read response body: " ++ err
  | .malformed err => utf8 "failed to parse API response: " ++ err

/-- How a request fares: it is not sent, it is turned down without effect, its answer is lost after
it was carried out or not, or the server answers it. -/
inductive Journey
  | unsent (error : SendError)
  | refused (status : Nat) (error : Option APIError) (message : Bytes)
  | garbled (applied : Bool) (error : ReplyError)
  | served

inductive Response (α : Type)
  | failure (status : Nat) (error : APIError)
  | success (data : α)

def unauthorizedHint : String :=
  "\n\nAuthentication token was invalid or expired. The cached token has been cleared.\n" ++
    "Please retry your command to authenticate with a fresh token."

def failureText (status : Nat) (error : Option APIError) (message : Bytes) : Bytes :=
  match error with
  | some error =>
    let errMsg := utf8 "API error (" ++ error.code ++ utf8 "): " ++ error.message
    if status = 401 then errMsg ++ utf8 unauthorizedHint else errMsg
  | none => utf8 "API request failed: " ++ message

def doRequest {α : Type} (journey : Journey) (response : Response α) : Except Bytes α :=
  match journey, response with
  | .unsent error, _ => .error error.text
  | .refused status error message, _ => .error (failureText status error message)
  | .garbled _ error, _ => .error error.text
  | .served, .failure status error => .error (failureText status (some error) [])
  | .served, .success data => .ok data

/-- The server carries the request out. -/
def Journey.arrives : Journey → Bool
  | .unsent _ | .refused .. => false
  | .garbled applied _ => applied
  | .served => true

/-- `ReadSecret`: the values of a secret, base64 encoded. -/
def encoded (secret : SecretData) : Data :=
  translate compare utf8 (fun value => .string (Base64.encode value)) secret

def secretNotFound : APIError where
  code := utf8 "secret_not_found"
  message := utf8 "secret not found on any HSM device"

def readSecret (stored : Option SecretData) : Response Data :=
  match stored with
  | some secret => .success (encoded secret)
  | none => .failure 404 secretNotFound

/-- The bytes that are stored for a posted value; a null is read as the empty string. -/
def posted : Any → Bytes
  | .string text => utf8 (textOf text)
  | .nil | .other => []

/-- The body of a `WriteSecret` request, if every value can be read as a string. -/
def bindData (data : Data) : Option SecretData :=
  if data.toList.any fun e => e.2 = .other then none
  else some (translate compare textOf posted data)

def parseError : APIError where
  code := utf8 "parse_error"
  message := utf8 "Failed to parse request body"

def writeSecret (data : Data) : Response SecretData :=
  match bindData data with
  | some secret => .success secret
  | none => .failure 400 parseError

/-- The data of a response to a read. -/
inductive DataPart
  | intact
  | missing
  | mistyped (err : Bytes)

structure Exchange where
  get : Journey := .served
  part : DataPart := .intact
  post : Journey := .served

def getSecret (stored : Option SecretData) (env : Exchange) : Except Bytes Data :=
  match doRequest env.get (readSecret stored) with
  | .error err => .error err
  | .ok data =>
    match env.part with
    | .intact => .ok (decodeBase64Data data)
    | .missing => .ok (decodeBase64Data ∅)
    | .mistyped err => .error (utf8 "failed to unmarshal response data: " ++ err)

def mergeData (existing data : Data) : Data := assign existing Prod.fst Prod.snd data.toList

/-- The data to post: with what could be read, unless it is to be replaced. -/
def dataToWrite (stored : Option SecretData) (env : Exchange) (data : Data) (replace : Bool) :
    Data :=
  if replace then data
  else
    match getSecret stored env with
    | .ok existing => mergeData (decodeBase64Data existing) data
    | .error _ => data

/-- The stored secret after the data has been posted, and the error of the request. -/
def postSecret (stored : Option SecretData) (env : Exchange) (data : Data) :
    Option SecretData × Option Bytes :=
  (if env.post.arrives then bindData data <|> stored else stored,
    match doRequest env.post (writeSecret data) with
    | .ok _ => none
    | .error err => some err)

def createSecretWithOptions (stored : Option SecretData) (env : Exchange) (data : Data)
    (replace : Bool) : Option SecretData × Option Bytes :=
  postSecret stored env (dataToWrite stored env data replace)

/-- Every value of the secret is text. -/
def TextValues (secret : SecretData) : Prop :=
  ∀ (key : String) value, secret[key]? = some value → ∃ s, value = utf8 s

/-- Every entry of the data is text under a key that is text. -/
def TextEntries (data : Data) : Prop :=
  ∀ k v, data[k]? = some v → ∃ key text, k = utf8 key ∧ v = .string (utf8 text)

def plain (secret : SecretData) : Data := translate compare utf8 .string secret

theorem utf8_injective : Function.Injective utf8 := fun _ _ h => utf8_inj h

theorem getElem?_plain {secret : SecretData} {k : Bytes} {v : Any} :
    (plain secret)[k]? = some v ↔
      ∃ key value, k = utf8 key ∧ secret[key]? = some value ∧ v = .string value := by
  constructor
  · intro h
    obtain ⟨key, value, hget, rfl, rfl⟩ := of_getElem?_translate h
    exact ⟨key, value, rfl, hget, rfl⟩
  · rintro ⟨key, value, rfl, hget, rfl⟩
    rw [plain, getElem?_translate_of_injective utf8_injective, hget, Option.map_some]

theorem mem_plain {secret : SecretData} {k : Bytes} :
    k ∈ plain secret ↔ ∃ key ∈ secret, utf8 key = k := mem_translate

theorem decodeBase64Data_encoded (secret : SecretData) :
    decodeBase64Data (encoded secret) = plain secret := by
  rw [decodeBase64Data, encoded, map_translate, plain]
  congr 1
  funext value
  rw [decodeBase64Value, Base64.decode_encode]

theorem getSecret_served (secret : SecretData) {env : Exchange} (hget : env.get = .served)
    (hpart : env.part = .intact) : getSecret (some secret) env = .ok (plain secret) := by
  rw [getSecret, hget, hpart]
  exact congrArg Except.ok (decodeBase64Data_encoded secret)

theorem getSecret_of_not_served (secret : SecretData) {env : Exchange}
    (h : ¬ (env.get = .served ∧ env.part = .intact)) :
    getSecret (some secret) env = .ok ∅ ∨ ∃ err, getSecret (some secret) env = .error err := by
  unfold getSecret
  cases hget : env.get with
  | unsent error => exact .inr ⟨_, rfl⟩
  | refused status error message => exact .inr ⟨_, rfl⟩
  | garbled applied error => exact .inr ⟨_, rfl⟩
  | served =>
    cases hpart : env.part with
    | intact => exact absurd ⟨hget, hpart⟩ h
    | missing => exact .inl rfl
    | mistyped err => exact .inr ⟨_, rfl⟩

end HsmSecretsOperator.Kubectl.Client
