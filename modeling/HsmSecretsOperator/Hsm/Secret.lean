/- source: internal/hsm/client.go
   digest: Secret data, sync metadata, the content checksum and the interface of a device. -/

import HsmSecretsOperator.Foundation.Decimal
import HsmSecretsOperator.Foundation.ExchangeSort
import HsmSecretsOperator.Foundation.Rfc3339
import HsmSecretsOperator.Foundation.Sha256

set_option autoImplicit false

namespace HsmSecretsOperator.Hsm.Secret

open Foundation Foundation.Decimal Foundation.ExchangeSort Foundation.Rfc3339 Foundation.Sha256
  Foundation.Text

abbrev SecretData := Std.ExtTreeMap String Bytes

/-- Labels; a nil map and an empty one are not distinguished, as no function here does. -/
abbrev Labels := Std.ExtTreeMap String String

instance instDecidableEqMap {β : Type} [DecidableEq β] : DecidableEq (Std.ExtTreeMap String β) :=
  fun a b => decidable_of_iff (a.toList = b.toList) Std.ExtTreeMap.toList_inj

structure SecretMetadata where
  description : String := ""
  labels : Labels := ∅
  format : String := ""
  dataType : String := ""
  createdAt : String := ""
  source : String := ""
  deriving DecidableEq

def labelSyncVersion : String := "sync.version"

def labelSyncTimestamp : String := "sync.timestamp"

def labelSyncDeleted : String := "sync.deleted"

/-- The sync.version counter, or 0 if absent or unparseable. -/
def metadataVersion (m : Option SecretMetadata) : Int :=
  match m.bind (·.labels[labelSyncVersion]?) with
  | some v => (sscanfD v).getD 0
  | none => 0

/-- The write time in unix seconds: the RFC 3339 sync.timestamp, else the sync.version. -/
def metadataTimestamp (m : Option SecretMetadata) : Int :=
  match m.bind (·.labels[labelSyncTimestamp]?) with
  | some ts => (parseRFC3339 ts).getD (metadataVersion m)
  | none => metadataVersion m

/-- The metadata marks a tombstone. -/
def metadataDeleted (m : Option SecretMetadata) : Bool :=
  m.bind (·.labels[labelSyncDeleted]?) == some "true"

/-- What is hashed for a list of keys: each key followed at once by its value. -/
def checksumInput {κ : Type} (bytes value : κ → Bytes) (keys : List κ) : Bytes :=
  keys.flatMap fun k => bytes k ++ value k

/-- `CalculateChecksum` of a map that yields its keys in the given order. -/
def checksumOfKeys {κ : Type} [LT κ] [DecidableLT κ] (bytes value : κ → Bytes) (order : List κ) :
    String :=
  "sha256:" ++ sprintfX (digest (checksumInput bytes value (exchangeLoops order)))

def calculateChecksum (data : SecretData) : String :=
  checksumOfKeys utf8 (fun k => data.getD k []) data.keys

/-- The operations of `hsm.Client` on a device with state `σ`. A device that cannot be reached or
fails a call is the business of the callers' fault schedules. -/
structure Client (σ : Type) where
  readSecret : σ → String → Except String SecretData
  readMetadata : σ → String → Except String SecretMetadata
  writeSecret : σ → String → SecretData → Option SecretMetadata → σ
  deleteSecret : σ → String → σ
  listSecrets : σ → String → List String

theorem inInt64_metadataVersion (m : Option SecretMetadata) : InInt64 (metadataVersion m) := by
  unfold metadataVersion
  split
  next v _ =>
    cases hv : sscanfD v with
    | none => exact (by decide : InInt64 0)
    | some n => exact inInt64_of_sscanfD hv
  next => exact (by decide : InInt64 0)

theorem metadataVersion_of_label {m : SecretMetadata} {v : Int} (hv : InInt64 v)
    (h : m.labels[labelSyncVersion]? = some (sprintfD v)) : metadataVersion (some m) = v := by
  simp only [metadataVersion, Option.bind_some, h, sscanfD_sprintfD hv, Option.getD_some]

theorem metadataTimestamp_of_label {m : SecretMetadata} {t : Instant}
    (h : m.labels[labelSyncTimestamp]? = some (formatRFC3339 t)) :
    metadataTimestamp (some m) = t.unix := by
  simp only [metadataTimestamp, Option.bind_some, h, parseRFC3339_formatRFC3339, Option.getD_some]

theorem keys_sorted (data : SecretData) : data.keys.Pairwise (· ≤ ·) :=
  data.ordered_keys.imp fun h => le_of_lt (compare_lt_iff_lt.mp h)

/-- The bytes that are hashed: the keys in order, each followed by its value. -/
def stream (data : SecretData) : Bytes :=
  checksumInput utf8 (fun k => data.getD k []) data.keys

theorem calculateChecksum_eq (data : SecretData) :
    calculateChecksum data = "sha256:" ++ sprintfX (digest (stream data)) := by
  rw [calculateChecksum, checksumOfKeys, exchangeLoops_eq,
    exchangeSort_eq_of_perm (.refl _) (keys_sorted data), stream]

end HsmSecretsOperator.Hsm.Secret
