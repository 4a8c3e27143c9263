/- source: internal/pki/store.go, internal/pki/ca.go, internal/pki/leaf.go, internal/pki/pki.go
   digest: EnsurePKI as a program of calls to the API server, for three Secrets. -/

import HsmSecretsOperator.Foundation.Calls
import HsmSecretsOperator.Foundation.Decimal

/-! What the libraries read from a text and write for a certificate or a key is a codec. A key pair
    is known by its identity. -/

set_option autoImplicit false

namespace HsmSecretsOperator.Pki.Store

open Foundation.Calls Foundation.Decimal

structure KeyPair where
  id : Nat
  deriving DecidableEq

inductive Usage where
  | certSign
  | serverAuth
  | clientAuth
  deriving DecidableEq

structure Certificate where
  commonName : String
  usage : Usage
  publicKey : KeyPair
  signer : KeyPair
  notBefore : Int
  notAfter : Int
  deriving DecidableEq

/-- What is read from a text and written to one. The first certificate of a text with a certificate
at its start is also what a key pair is made with. -/
structure Codec (τ : Type) where
  /-- `x509.ParseCertificate` of the first block, if that is a certificate. -/
  certificate : τ → Option Certificate
  /-- Why it fails on a first block that is a certificate. -/
  certificateError : τ → Option String
  /-- The certificate that `tls.X509KeyPair` takes from a chain. -/
  leafCertificate : τ → Option Certificate
  /-- `AppendCertsFromPEM` finds a certificate. -/
  trusted : τ → Bool
  /-- `x509.ParseECPrivateKey` of the first block. -/
  ecPrivateKey : τ → Option KeyPair
  /-- Why it fails on a first block. -/
  ecPrivateKeyError : τ → Option String
  /-- The key that `tls.X509KeyPair` takes. -/
  privateKey : τ → Option KeyPair
  isEmpty : τ → Bool
  encodeCertificate : Certificate → τ
  encodeKey : KeyPair → τ
  leafCertificate_of_certificate : ∀ text c, certificate text = some c →
    leafCertificate text = some c
  certificate_encode : ∀ c, certificate (encodeCertificate c) = some c
  trusted_encode : ∀ c, trusted (encodeCertificate c) = true
  ecPrivateKey_encode : ∀ k, ecPrivateKey (encodeKey k) = some k
  privateKey_encode : ∀ k, privateKey (encodeKey k) = some k

def nanosecondsPerSecond : Int := 1000000000

def minute : Int := 60 * nanosecondsPerSecond

def day : Int := 24 * 60 * minute

def caValidity : Int := 10 * 365 * day

def defaultLeafValidity : Int := 90 * day

def defaultRenewBefore : Int := 30 * day

def serverCertDNSName : String := "hsm-agent"

def clientCertDNSName : String := "hsm-manager"

/-- A time as a certificate keeps it. -/
def wholeSeconds (t : Int) : Int := t / nanosecondsPerSecond * nanosecondsPerSecond

/-- A certificate authority, with the texts that its certificate and key were read from. -/
structure CA {τ : Type} (codec : Codec τ) where
  cert : Certificate
  key : KeyPair
  certPEM : τ
  keyPEM : τ
  certificate_certPEM : codec.certificate certPEM = some cert
  ecPrivateKey_keyPEM : codec.ecPrivateKey keyPEM = some key

structure Leaf (τ : Type) where
  certPEM : τ
  keyPEM : τ

section Certificates

variable {τ : Type} (codec : Codec τ)

def generateCA (key : Except String KeyPair) (now : Int) : Except String (CA codec) :=
  match key with
  | .error e => .error e
  | .ok key =>
    let notBefore := now - minute
    let cert : Certificate :=
      { commonName := "hsm-mtls-ca", usage := .certSign, publicKey := key, signer := key
        notBefore := wholeSeconds notBefore, notAfter := wholeSeconds (notBefore + caValidity) }
    .ok
      { cert, key
        certPEM := codec.encodeCertificate cert
        keyPEM := codec.encodeKey key
        certificate_certPEM := codec.certificate_encode cert
        ecPrivateKey_keyPEM := codec.ecPrivateKey_encode key }

/-- `LoadCA` does not compare the certificate with the key. -/
def loadCA (certPEM keyPEM : τ) : Except String (CA codec) :=
  match hcert : codec.certificate certPEM with
  | none => .error (match codec.certificateError certPEM with
    | none => "invalid CA certificate PEM"
    | some err => s!"failed to parse CA certificate: {err}")
  | some cert =>
    match hkey : codec.ecPrivateKey keyPEM with
    | none => .error (match codec.ecPrivateKeyError keyPEM with
      | none => "invalid CA key PEM"
      | some err => s!"failed to parse CA key: {err}")
    | some key => .ok ⟨cert, key, certPEM, keyPEM, hcert, hkey⟩

variable {codec}

/-- `issueLeaf`; a certificate is only created if the key of the authority fits its certificate. -/
def issueLeaf (ca : CA codec) (dnsName : String) (usage : Usage) (validity : Int)
    (key : Except String KeyPair) (now : Int) : Except String (Leaf τ) :=
  match key with
  | .error e => .error e
  | .ok key =>
    if ca.key ≠ ca.cert.publicKey then
      .error ("failed to create leaf certificate: " ++
        "x509: provided PrivateKey doesn't match parent's PublicKey")
    else
      let cert : Certificate :=
        { commonName := dnsName, usage, publicKey := key, signer := ca.key
          notBefore := wholeSeconds (now - minute), notAfter := wholeSeconds (now + validity) }
      .ok { certPEM := codec.encodeCertificate cert, keyPEM := codec.encodeKey key }

variable (codec)

/-- `NeedsRotation`; a duration is negated as an `int64`. -/
def needsRotation (certPEM : τ) (renewBefore now : Int) : Bool :=
  match codec.certificate certPEM with
  | none => true
  | some cert => now > cert.notAfter + wrapInt64 (-renewBefore)

def x509KeyPair (certPEM keyPEM : τ) : Except String (Certificate × KeyPair) :=
  match codec.leafCertificate certPEM, codec.privateKey keyPEM with
  | none, _ => .error "tls: failed to find any PEM data in certificate input"
  | some _, none => .error "tls: failed to find any PEM data in key input"
  | some cert, some key =>
    if cert.publicKey = key then .ok (cert, key)
    else .error "tls: private key does not match public key"

end Certificates

/-- The Secrets of the configured names. -/
inductive Role where
  | ca
  | server
  | client
  deriving DecidableEq

structure Secret (τ : Type) where
  /-- The annotation hsm.j5t.io/mtls-managed-by. -/
  managedBy : Option String
  caCrt : τ
  tlsCrt : τ
  tlsKey : τ
  resourceVersion : Nat := 0

inductive Reason where
  | notFound
  | alreadyExists
  | other
  deriving DecidableEq

structure ApiError where
  reason : Reason
  text : String

inductive Request (τ : Type) where
  | get (role : Role)
  | create (role : Role) (secret : Secret τ)
  | update (role : Role) (secret : Secret τ)

/-- How the API server meets a request: it serves it, refuses it, or serves it and the answer is
lost. -/
inductive Circumstance where
  | served
  | refused (text : String)
  | lost (text : String)

structure Cluster (τ : Type) where
  secrets : Role → Option (Secret τ) := fun _ => none
  revision : Nat := 0

section Server

variable {τ : Type}

def Cluster.store (c : Cluster τ) (role : Role) (secret : Secret τ) : Cluster τ where
  secrets := fun r =>
    if r = role then some { secret with resourceVersion := c.revision + 1 } else c.secrets r
  revision := c.revision + 1

/-- A request that is served: creation is for absent Secrets only, and an update is for the version
that was read. -/
def apply (c : Cluster τ) : Request τ → Cluster τ × Except ApiError (Secret τ)
  | .get role =>
    match c.secrets role with
    | none => (c, .error ⟨.notFound, "not found"⟩)
    | some secret => (c, .ok secret)
  | .create role secret =>
    match c.secrets role with
    | none => (c.store role secret, .ok secret)
    | some _ => (c, .error ⟨.alreadyExists, "already exists"⟩)
  | .update role secret =>
    match c.secrets role with
    | none => (c, .error ⟨.notFound, "not found"⟩)
    | some stored =>
      if stored.resourceVersion = secret.resourceVersion then (c.store role secret, .ok secret)
      else (c, .error ⟨.other, "the object has been modified"⟩)

def serve (c : Cluster τ) (circumstance : Circumstance) (request : Request τ) :
    Cluster τ × Except ApiError (Secret τ) :=
  match circumstance with
  | .served => apply c request
  | .refused text => (c, .error ⟨.other, text⟩)
  | .lost text => ((apply c request).1, .error ⟨.other, text⟩)

end Server

structure Config where
  caSecretName : String
  serverSecretName : String
  clientSecretName : String
  leafValidity : Int := 0
  renewBefore : Int := 0
  certManagerEnabled : Bool := false

def Config.secretName (cfg : Config) : Role → String
  | .ca => cfg.caSecretName
  | .server => cfg.serverSecretName
  | .client => cfg.clientSecretName

/-- The moments at which a call reads the clock. -/
inductive Moment where
  | generate
  | check (role : Role)
  | issue (role : Role)

/-- What a call of EnsurePKI draws from outside of the API server. -/
structure Inputs where
  key : Role → Except String KeyPair
  clock : Moment → Int

/-- The material that the manager runs with; its trust pool is made of the certificate text. -/
structure Bundle (τ : Type) where
  caCertPEM : τ
  clientCert : Certificate × KeyPair
  serverSecretName : String

def selfManagedValue : String := "hsm-secrets-operator"

section EnsurePKI

variable {τ : Type} (codec : Codec τ) (cfg : Config) (inputs : Inputs)

def isExternallyManaged (secret : Secret τ) : Bool :=
  match secret.managedBy with
  | none => false
  | some v => v ≠ selfManagedValue

def newPKISecret (caCrt tlsCrt tlsKey : τ) : Secret τ :=
  { managedBy := some selfManagedValue, caCrt, tlsCrt, tlsKey }

/-- The Secret of a new authority has no ca.crt; the text stands for the missing entry. -/
def ensureCA (missing : τ) :
    Program (Request τ) (Except ApiError (Secret τ)) (Except String (CA codec)) :=
  .call (.get .ca) fun
    | .ok secret => .done (loadCA codec secret.tlsCrt secret.tlsKey)
    | .error e =>
      if e.reason ≠ .notFound then .done (.error ("getting CA Secret: " ++ e.text))
      else
        match generateCA codec (inputs.key .ca) (inputs.clock .generate) with
        | .error e => .done (.error e)
        | .ok ca =>
          .call (.create .ca (newPKISecret missing ca.certPEM ca.keyPEM)) fun
            | .ok _ => .done (.ok ca)
            | .error e =>
              if e.reason = .alreadyExists then
                .call (.get .ca) fun
                  | .ok secret => .done (loadCA codec secret.tlsCrt secret.tlsKey)
                  | .error _ => .done (.error ("creating CA Secret: " ++ e.text))
              else .done (.error ("creating CA Secret: " ++ e.text))

def Config.validity (cfg : Config) : Int :=
  if cfg.leafValidity = 0 then defaultLeafValidity else cfg.leafValidity

def Config.renewal (cfg : Config) : Int :=
  if cfg.renewBefore = 0 then defaultRenewBefore else cfg.renewBefore

variable {codec}

/-- The end of `getOrIssueLeaf`, for a Secret that is absent or due for rotation. -/
def storeLeaf (role : Role) (ca : CA codec) (leaf : Leaf τ) (existing : Option (Secret τ)) :
    Program (Request τ) (Except ApiError (Secret τ)) (Except String (Leaf τ)) :=
  match existing with
  | none =>
    .call (.create role (newPKISecret ca.certPEM leaf.certPEM leaf.keyPEM)) fun
      | .ok _ => .done (.ok leaf)
      | .error e =>
        .done (.error ("creating Secret " ++ cfg.secretName role ++ ": " ++ e.text))
  | some secret =>
    let secret :=
      { secret with
        caCrt := ca.certPEM, tlsCrt := leaf.certPEM, tlsKey := leaf.keyPEM
        managedBy := some selfManagedValue }
    .call (.update role secret) fun
      | .ok _ => .done (.ok leaf)
      | .error e =>
        .done (.error ("updating Secret " ++ cfg.secretName role ++ ": " ++ e.text))

/-- A new leaf, stored beside or in place of the Secret that was found. -/
def issueAndStore (role : Role) (dnsName : String) (usage : Usage) (ca : CA codec)
    (existing : Option (Secret τ)) :
    Program (Request τ) (Except ApiError (Secret τ)) (Except String (Leaf τ)) :=
  match issueLeaf ca dnsName usage cfg.validity (inputs.key role) (inputs.clock (.issue role)) with
  | .error e => .done (.error e)
  | .ok leaf => storeLeaf cfg role ca leaf existing

def getOrIssueLeaf (role : Role) (dnsName : String) (usage : Usage) (ca : CA codec) :
    Program (Request τ) (Except ApiError (Secret τ)) (Except String (Leaf τ)) :=
  .call (.get role) fun
    | .error e =>
      if e.reason ≠ .notFound then
        .done (.error ("getting Secret " ++ cfg.secretName role ++ ": " ++ e.text))
      else issueAndStore cfg inputs role dnsName usage ca none
    | .ok secret =>
      if isExternallyManaged secret ||
          !needsRotation codec secret.tlsCrt cfg.renewal (inputs.clock (.check role)) then
        .done (.ok { certPEM := secret.tlsCrt, keyPEM := secret.tlsKey })
      else issueAndStore cfg inputs role dnsName usage ca (some secret)

variable (codec)

def readExternalBundle :
    Program (Request τ) (Except ApiError (Secret τ)) (Except String (Bundle τ)) :=
  .call (.get .client) fun
    | .error e => .done (.error
        ("getting externally-managed client Secret " ++ cfg.clientSecretName ++ ": " ++ e.text))
    | .ok secret =>
      if codec.isEmpty secret.caCrt then
        .done (.error
          ("externally-managed client Secret " ++ cfg.clientSecretName ++ " missing ca.crt"))
      else
        match x509KeyPair codec secret.tlsCrt secret.tlsKey with
        | .error e => .done (.error ("parsing externally-managed client leaf: " ++ e))
        | .ok pair =>
          if !codec.trusted secret.caCrt then
            .done (.error "failed to build CA trust pool from externally-managed Secret")
          else
            .done (.ok
              { caCertPEM := secret.caCrt, clientCert := pair
                serverSecretName := cfg.serverSecretName })

/-- The end of EnsurePKI, once the client leaf is there. -/
def makeBundle (ca : CA codec) (leaf : Leaf τ) : Except String (Bundle τ) :=
  match x509KeyPair codec leaf.certPEM leaf.keyPEM with
  | .error e => .error ("ensuring client Secret: parsing client leaf: " ++ e)
  | .ok pair =>
    if !codec.trusted ca.certPEM then .error "failed to build CA trust pool"
    else
      .ok { caCertPEM := ca.certPEM, clientCert := pair, serverSecretName := cfg.serverSecretName }

def ensurePKI (missing : τ) :
    Program (Request τ) (Except ApiError (Secret τ)) (Except String (Bundle τ)) :=
  if cfg.certManagerEnabled then readExternalBundle codec cfg
  else
    (ensureCA codec inputs missing).bind fun
      | .error e => .done (.error e)
      | .ok ca =>
        (getOrIssueLeaf cfg inputs .server serverCertDNSName .serverAuth ca).bind fun
          | .error e => .done (.error ("ensuring server Secret: " ++ e))
          | .ok _ =>
            (getOrIssueLeaf cfg inputs .client clientCertDNSName .clientAuth ca).bind fun
              | .error e => .done (.error ("ensuring client Secret: " ++ e))
              | .ok leaf => .done (makeBundle codec cfg ca leaf)

end EnsurePKI

section Parts

variable {τ : Type} {codec : Codec τ}

theorem loadCA_ok {certPEM keyPEM : τ} {ca : CA codec} (h : loadCA codec certPEM keyPEM = .ok ca) :
    ca.certPEM = certPEM ∧ ca.keyPEM = keyPEM := by
  unfold loadCA at h
  split at h
  · cases h
  split at h
  · cases h
  · obtain rfl := Except.ok.inj h
    exact ⟨rfl, rfl⟩

theorem loadCA_self (ca : CA codec) : loadCA codec ca.certPEM ca.keyPEM = .ok ca := by
  unfold loadCA
  split
  next hnone =>
    rw [ca.certificate_certPEM] at hnone
    cases hnone
  next cert hcert =>
    split
    next hnone =>
      rw [ca.ecPrivateKey_keyPEM] at hnone
      cases hnone
    next key hkey =>
      rw [ca.certificate_certPEM] at hcert
      rw [ca.ecPrivateKey_keyPEM] at hkey
      obtain rfl := Option.some.inj hcert
      obtain rfl := Option.some.inj hkey
      rfl

theorem issueLeaf_ok {ca : CA codec} {dnsName : String} {usage : Usage} {validity now : Int}
    {key : Except String KeyPair} {leaf : Leaf τ}
    (h : issueLeaf ca dnsName usage validity key now = .ok leaf) :
    ∃ cert, codec.certificate leaf.certPEM = some cert ∧ cert.signer = ca.cert.publicKey ∧
      codec.privateKey leaf.keyPEM = some cert.publicKey ∧ ca.key = ca.cert.publicKey ∧
      cert.notAfter = wholeSeconds (now + validity) := by
  unfold issueLeaf at h
  split at h
  · cases h
  split at h
  · cases h
  next hmatch =>
    obtain rfl := Except.ok.inj h
    rw [not_not] at hmatch
    exact ⟨_, codec.certificate_encode _, hmatch, codec.privateKey_encode _, hmatch, rfl⟩

theorem x509KeyPair_ok {certPEM keyPEM : τ} {pair : Certificate × KeyPair}
    (h : x509KeyPair codec certPEM keyPEM = .ok pair) :
    codec.leafCertificate certPEM = some pair.1 ∧ codec.privateKey keyPEM = some pair.2 ∧
      pair.1.publicKey = pair.2 := by
  unfold x509KeyPair at h
  split at h
  · cases h
  · cases h
  next cert key hcert hkey =>
    split at h
    next hmatch =>
      obtain rfl := Except.ok.inj h
      exact ⟨hcert, hkey, hmatch⟩
    next => cases h

theorem makeBundle_ok {cfg : Config} {ca : CA codec} {leaf : Leaf τ} {bundle : Bundle τ}
    (h : makeBundle codec cfg ca leaf = .ok bundle) :
    bundle.caCertPEM = ca.certPEM ∧
      x509KeyPair codec leaf.certPEM leaf.keyPEM = .ok bundle.clientCert := by
  unfold makeBundle at h
  split at h
  · cases h
  next pair hpair =>
    split at h
    · cases h
    · obtain rfl := Except.ok.inj h
      exact ⟨rfl, hpair⟩

@[simp] theorem secrets_store_self (c : Cluster τ) (role : Role) (secret : Secret τ) :
    (c.store role secret).secrets role =
      some { secret with resourceVersion := c.revision + 1 } := by
  simp [Cluster.store]

theorem secrets_store_of_ne (c : Cluster τ) {role other : Role} (secret : Secret τ)
    (h : other ≠ role) : (c.store role secret).secrets other = c.secrets other := by
  simp [Cluster.store, h]

end Parts

section Answers

variable {τ : Type} (c : Cluster τ) (e : Circumstance)

theorem serve_get (role : Role) :
    (serve c e (.get role)).1 = c ∧
      ((∃ secret, c.secrets role = some secret ∧ (serve c e (.get role)).2 = .ok secret) ∨
        (c.secrets role = none ∧ ∃ text, (serve c e (.get role)).2 = .error ⟨.notFound, text⟩) ∨
        ∃ text, (serve c e (.get role)).2 = .error ⟨.other, text⟩) := by
  cases e with
  | served =>
    dsimp only [serve, apply]
    cases h : c.secrets role with
    | none => exact ⟨rfl, .inr (.inl ⟨rfl, _, rfl⟩)⟩
    | some secret => exact ⟨rfl, .inl ⟨secret, rfl, rfl⟩⟩
  | refused text => exact ⟨rfl, .inr (.inr ⟨text, rfl⟩)⟩
  | lost text =>
    refine ⟨?_, .inr (.inr ⟨text, rfl⟩)⟩
    dsimp only [serve, apply]
    cases c.secrets role <;> rfl

theorem serve_create (role : Role) (secret : Secret τ) :
    ((serve c e (.create role secret)).1 = c ∨
      c.secrets role = none ∧ (serve c e (.create role secret)).1 = c.store role secret) ∧
    ((c.secrets role = none ∧ (serve c e (.create role secret)).1 = c.store role secret ∧
        (serve c e (.create role secret)).2 = .ok secret) ∨
      ((∃ stored, c.secrets role = some stored) ∧
        ∃ text, (serve c e (.create role secret)).2 = .error ⟨.alreadyExists, text⟩) ∨
      ∃ text, (serve c e (.create role secret)).2 = .error ⟨.other, text⟩) := by
  cases e with
  | served =>
    dsimp only [serve, apply]
    cases h : c.secrets role with
    | none => exact ⟨.inr ⟨rfl, rfl⟩, .inl ⟨rfl, rfl, rfl⟩⟩
    | some stored => exact ⟨.inl rfl, .inr (.inl ⟨⟨stored, rfl⟩, _, rfl⟩)⟩
  | refused text => exact ⟨.inl rfl, .inr (.inr ⟨text, rfl⟩)⟩
  | lost text =>
    refine ⟨?_, .inr (.inr ⟨text, rfl⟩)⟩
    dsimp only [serve, apply]
    cases h : c.secrets role with
    | none => exact .inr ⟨rfl, rfl⟩
    | some stored => exact .inl rfl

theorem serve_update (role : Role) (secret : Secret τ) :
    ((serve c e (.update role secret)).1 = c ∨
      (∃ stored, c.secrets role = some stored) ∧
        (serve c e (.update role secret)).1 = c.store role secret) ∧
    (((∃ stored, c.secrets role = some stored) ∧
        (serve c e (.update role secret)).1 = c.store role secret ∧
          (serve c e (.update role secret)).2 = .ok secret) ∨
      ∃ error, (serve c e (.update role secret)).2 = .error error) := by
  cases e with
  | served =>
    dsimp only [serve, apply]
    cases h : c.secrets role with
    | none => exact ⟨.inl rfl, .inr ⟨_, rfl⟩⟩
    | some stored =>
      dsimp only
      split
      · exact ⟨.inr ⟨⟨stored, rfl⟩, rfl⟩, .inl ⟨⟨stored, rfl⟩, rfl, rfl⟩⟩
      · exact ⟨.inl rfl, .inr ⟨_, rfl⟩⟩
  | refused text => exact ⟨.inl rfl, .inr ⟨_, rfl⟩⟩
  | lost text =>
    refine ⟨?_, .inr ⟨_, rfl⟩⟩
    dsimp only [serve, apply]
    cases h : c.secrets role with
    | none => exact .inl rfl
    | some stored =>
      dsimp only
      split
      · exact .inr ⟨⟨stored, rfl⟩, rfl⟩
      · exact .inl rfl

end Answers

end HsmSecretsOperator.Pki.Store
