/- source: internal/pki/store.go
   digest: When the material that EnsurePKI leaves behind belongs together. -/

import HsmSecretsOperator.Pki.Store

set_option autoImplicit false

namespace HsmSecretsOperator.Pki.Trust

open Foundation.Calls Program Store

section Statement

variable {τ : Type} (codec : Codec τ)

/-- The first text is a certificate that the key pair has signed, the second its private key. -/
def SignedBy (signer : KeyPair) (certPEM keyPEM : τ) : Prop :=
  ∃ leaf, codec.leafCertificate certPEM = some leaf ∧ leaf.signer = signer ∧
    codec.privateKey keyPEM = some leaf.publicKey

/-- The stored server leaf and the returned client leaf are signed by the returned authority, and
each stored or returned certificate fits its private key. -/
def Trusting (c : Cluster τ) (bundle : Bundle τ) : Prop :=
  ∃ cert, codec.certificate bundle.caCertPEM = some cert ∧
    (∃ secret, c.secrets .ca = some secret ∧ secret.tlsCrt = bundle.caCertPEM ∧
      codec.ecPrivateKey secret.tlsKey = some cert.publicKey) ∧
    (∃ secret, c.secrets .server = some secret ∧
      SignedBy codec cert.publicKey secret.tlsCrt secret.tlsKey) ∧
    (∃ secret, c.secrets .client = some secret ∧
      SignedBy codec cert.publicKey secret.tlsCrt secret.tlsKey) ∧
    bundle.clientCert.1.signer = cert.publicKey ∧
    bundle.clientCert.1.publicKey = bundle.clientCert.2

/-- The Secret is left as it is: it belongs to others, or its leaf is not due for rotation. -/
def Reused (cfg : Config) (inputs : Inputs) (role : Role) (secret : Secret τ) : Prop :=
  isExternallyManaged secret = true ∨
    needsRotation codec secret.tlsCrt cfg.renewal (inputs.clock (.check role)) = false

/-- The key pair of the stored authority's certificate, or the one that is drawn for a new one. -/
def authority (inputs : Inputs) (c : Cluster τ) : Option KeyPair :=
  match c.secrets .ca with
  | some secret => (codec.certificate secret.tlsCrt).map Certificate.publicKey
  | none => (inputs.key .ca).toOption

/-- The key of a stored authority fits its certificate, and each leaf that is left as it is was
signed by the authority and fits its own key. -/
structure Coherent (cfg : Config) (inputs : Inputs) (c : Cluster τ) : Prop where
  ca : ∀ secret, c.secrets .ca = some secret →
    ∀ cert, codec.certificate secret.tlsCrt = some cert →
      codec.ecPrivateKey secret.tlsKey = some cert.publicKey
  leaves : ∀ role, role ≠ .ca → ∀ secret, c.secrets role = some secret →
    Reused codec cfg inputs role secret →
      ∃ key, authority codec inputs c = some key ∧ SignedBy codec key secret.tlsCrt secret.tlsKey

end Statement

section Steps

variable {τ : Type} {codec : Codec τ} {cfg : Config} {inputs : Inputs} {c c' : Cluster τ}

variable {ca : CA codec} {leaf : Leaf τ} {dnsName : String} {role : Role} {usage : Usage}

private theorem generateCA_ok {key : Except String KeyPair} {now : Int}
    (h : generateCA codec key now = .ok ca) : key = .ok ca.key ∧ ca.cert.publicKey = ca.key := by
  unfold generateCA at h
  split at h
  · cases h
  · obtain rfl := Except.ok.inj h
    exact ⟨rfl, rfl⟩

theorem ends_ensureCA {missing : τ} (h : Ends serve (ensureCA codec inputs missing) c (.ok ca) c') :
    (∃ secret, c.secrets .ca = some secret ∧ secret.tlsCrt = ca.certPEM ∧
      secret.tlsKey = ca.keyPEM ∧ c' = c) ∨
    c.secrets .ca = none ∧ inputs.key .ca = .ok ca.key ∧ ca.cert.publicKey = ca.key ∧
      c' = c.store .ca (newPKISecret missing ca.certPEM ca.keyPEM) := by
  obtain ⟨e, h⟩ := h.of_call
  obtain ⟨hsame, hanswer⟩ := serve_get c e .ca
  rw [hsame] at h
  rcases hanswer with ⟨secret, hsecret, hget⟩ | ⟨habsent, text, hget⟩ | ⟨text, hget⟩
  · rw [hget] at h
    obtain ⟨hload, rfl⟩ := h.of_done
    obtain ⟨hcert, hkey⟩ := loadCA_ok hload.symm
    exact .inl ⟨secret, hsecret, hcert.symm, hkey.symm, rfl⟩
  · rw [hget] at h
    dsimp only at h
    rw [if_neg (not_not.mpr rfl)] at h
    cases hgenerate : generateCA codec (inputs.key .ca) (inputs.clock .generate) with
    | error text =>
      rw [hgenerate] at h
      cases h.of_done.1
    | ok new =>
      rw [hgenerate] at h
      obtain ⟨e, h⟩ := h.of_call
      obtain ⟨-, hanswer⟩ := serve_create c e .ca (newPKISecret missing new.certPEM new.keyPEM)
      rcases hanswer with ⟨-, hstored, hcreate⟩ | ⟨⟨stored, hthere⟩, -⟩ | ⟨text, hcreate⟩
      · rw [hstored, hcreate] at h
        obtain ⟨hnew, rfl⟩ := h.of_done
        obtain rfl := Except.ok.inj hnew
        obtain ⟨hkey, hmatch⟩ := generateCA_ok hgenerate
        exact .inr ⟨habsent, hkey, hmatch, rfl⟩
      · rw [habsent] at hthere
        cases hthere
      · rw [hcreate] at h
        cases h.of_done.1
  · rw [hget] at h
    cases h.of_done.1

/-- A leaf that was issued and stored. -/
structure Issued (cfg : Config) (inputs : Inputs) (role : Role) (dnsName : String) (usage : Usage)
    (ca : CA codec) (c c' : Cluster τ) (leaf : Leaf τ) : Prop where
  issued : issueLeaf ca dnsName usage cfg.validity (inputs.key role) (inputs.clock (.issue role)) =
    .ok leaf
  stored : ∃ secret, c' = c.store role secret ∧ isExternallyManaged secret = false ∧
    secret.tlsCrt = leaf.certPEM ∧ secret.tlsKey = leaf.keyPEM

theorem issued_of_ends {existing : Option (Secret τ)}
    (h : Ends serve (issueAndStore cfg inputs role dnsName usage ca existing) c (.ok leaf) c') :
    Issued cfg inputs role dnsName usage ca c c' leaf := by
  unfold issueAndStore at h
  cases hissue : issueLeaf ca dnsName usage cfg.validity (inputs.key role)
      (inputs.clock (.issue role)) with
  | error text =>
    rw [hissue] at h
    cases h.of_done.1
  | ok issued =>
    rw [hissue] at h
    -- either write stores the leaf that is returned
    cases existing with
    | none =>
      obtain ⟨e, h⟩ := h.of_call
      obtain ⟨-, hanswer⟩ := serve_create c e role
        (newPKISecret ca.certPEM issued.certPEM issued.keyPEM)
      rcases hanswer with ⟨-, hstored, hcreate⟩ | ⟨-, text, hcreate⟩ | ⟨text, hcreate⟩
      · rw [hstored, hcreate] at h
        obtain ⟨hleaf, rfl⟩ := h.of_done
        obtain rfl := Except.ok.inj hleaf
        exact ⟨hissue, _, rfl, rfl, rfl, rfl⟩
      · rw [hcreate] at h
        cases h.of_done.1
      · rw [hcreate] at h
        cases h.of_done.1
    | some secret =>
      obtain ⟨e, h⟩ := h.of_call
      obtain ⟨-, hanswer⟩ := serve_update c e role
        { secret with
          caCrt := ca.certPEM, tlsCrt := issued.certPEM, tlsKey := issued.keyPEM
          managedBy := some selfManagedValue }
      rcases hanswer with ⟨-, hstored, hupdate⟩ | ⟨error, hupdate⟩
      · rw [hstored, hupdate] at h
        obtain ⟨hleaf, rfl⟩ := h.of_done
        obtain rfl := Except.ok.inj hleaf
        exact ⟨hissue, _, rfl, rfl, rfl, rfl⟩
      · rw [hupdate] at h
        cases h.of_done.1

theorem ends_getOrIssueLeaf
    (h : Ends serve (getOrIssueLeaf cfg inputs role dnsName usage ca) c (.ok leaf) c') :
    (∃ secret, c.secrets role = some secret ∧ Reused codec cfg inputs role secret ∧
      leaf = ⟨secret.tlsCrt, secret.tlsKey⟩ ∧ c' = c) ∨
    (∀ secret, c.secrets role = some secret → ¬ Reused codec cfg inputs role secret) ∧
      Issued cfg inputs role dnsName usage ca c c' leaf := by
  obtain ⟨e, h⟩ := h.of_call
  obtain ⟨hsame, hanswer⟩ := serve_get c e role
  rw [hsame] at h
  rcases hanswer with ⟨secret, hsecret, hget⟩ | ⟨habsent, text, hget⟩ | ⟨text, hget⟩
  · rw [hget] at h
    dsimp only at h
    split at h
    next hreused =>
      rw [Bool.or_eq_true, Bool.not_eq_true'] at hreused
      obtain ⟨hleaf, rfl⟩ := h.of_done
      obtain rfl := Except.ok.inj hleaf
      exact .inl ⟨secret, hsecret, hreused, rfl, rfl⟩
    next hreused =>
      refine .inr ⟨fun other hother hkept => hreused ?_, issued_of_ends h⟩
      rw [hsecret] at hother
      obtain rfl := Option.some.inj hother
      rw [Bool.or_eq_true, Bool.not_eq_true']
      exact hkept
  · rw [hget] at h
    dsimp only at h
    rw [if_neg (not_not.mpr rfl)] at h
    refine .inr ⟨fun other hother => ?_, issued_of_ends h⟩
    rw [habsent] at hother
    cases hother
  · rw [hget] at h
    cases h.of_done.1

/-- What a call that obtains a leaf leaves behind. -/
structure Obtained (cfg : Config) (inputs : Inputs) (role : Role) (ca : CA codec)
    (c c' : Cluster τ) (leaf : Leaf τ) : Prop where
  stored : ∃ secret, c'.secrets role = some secret ∧ secret.tlsCrt = leaf.certPEM ∧
    secret.tlsKey = leaf.keyPEM
  others : ∀ other, other ≠ role → c'.secrets other = c.secrets other
  origin : (∃ secret, c.secrets role = some secret ∧ Reused codec cfg inputs role secret ∧
      secret.tlsCrt = leaf.certPEM ∧ secret.tlsKey = leaf.keyPEM) ∨
    (∀ secret, c.secrets role = some secret → ¬ Reused codec cfg inputs role secret) ∧
      SignedBy codec ca.cert.publicKey leaf.certPEM leaf.keyPEM

theorem obtained_of_ends
    (h : Ends serve (getOrIssueLeaf cfg inputs role dnsName usage ca) c (.ok leaf) c') :
    Obtained cfg inputs role ca c c' leaf := by
  rcases ends_getOrIssueLeaf h with ⟨secret, hsecret, hreused, rfl, rfl⟩ | ⟨hfresh, hissued⟩
  · exact ⟨⟨secret, hsecret, rfl, rfl⟩, fun _ _ => rfl, .inl ⟨secret, hsecret, hreused, rfl, rfl⟩⟩
  · obtain ⟨secret, rfl, -, hcrt, hkey⟩ := hissued.stored
    obtain ⟨cert, hcert, hsigner, hfits, -⟩ := issueLeaf_ok hissued.issued
    refine ⟨⟨_, secrets_store_self c role secret, hcrt, hkey⟩, fun other hother => ?_,
      .inr ⟨hfresh, cert, codec.leafCertificate_of_certificate _ _ hcert, hsigner, hfits⟩⟩
    exact secrets_store_of_ne c secret hother

theorem Obtained.signedBy_iff (h : Obtained cfg inputs role ca c c' leaf) :
    SignedBy codec ca.cert.publicKey leaf.certPEM leaf.keyPEM ↔
      ∀ secret, c.secrets role = some secret → Reused codec cfg inputs role secret →
        SignedBy codec ca.cert.publicKey secret.tlsCrt secret.tlsKey := by
  rcases h.origin with ⟨secret, hsecret, hreused, hcrt, hkey⟩ | ⟨hfresh, hsigned⟩
  · rw [← hcrt, ← hkey]
    constructor
    · intro hsigned other hother _
      rw [hsecret] at hother
      obtain rfl := Option.some.inj hother
      exact hsigned
    · intro hall
      exact hall secret hsecret hreused
  · exact ⟨fun _ secret hsecret hreused => absurd hreused (hfresh secret hsecret),
      fun _ => hsigned⟩

end Steps

section Whole

variable {τ : Type} {codec : Codec τ} {cfg : Config} {inputs : Inputs} {c c' : Cluster τ}

theorem ends_ensurePKI (hself : cfg.certManagerEnabled = false) {missing : τ} {bundle : Bundle τ}
    (h : Ends serve (ensurePKI codec cfg inputs missing) c (.ok bundle) c') :
    ∃ (ca : CA codec) (c₁ c₂ : Cluster τ) (server client : Leaf τ),
      Ends serve (ensureCA codec inputs missing) c (.ok ca) c₁ ∧
      Ends serve (getOrIssueLeaf cfg inputs .server serverCertDNSName .serverAuth ca) c₁
        (.ok server) c₂ ∧
      Ends serve (getOrIssueLeaf cfg inputs .client clientCertDNSName .clientAuth ca) c₂
        (.ok client) c' ∧
      makeBundle codec cfg ca client = .ok bundle := by
  unfold ensurePKI at h
  rw [hself, if_neg (by decide)] at h
  obtain ⟨ca | ca, c₁, hca, h⟩ := h.of_bind
  · cases h.of_done.1
  obtain ⟨server | server, c₂, hserver, h⟩ := h.of_bind
  · cases h.of_done.1
  obtain ⟨client | client, c₃, hclient, h⟩ := h.of_bind
  · cases h.of_done.1
  obtain ⟨hbundle, rfl⟩ := h.of_done
  exact ⟨ca, c₁, c₂, server, client, hca, hserver, hclient, hbundle.symm⟩

theorem authority_of_ends {missing : τ} {ca : CA codec}
    (h : Ends serve (ensureCA codec inputs missing) c (.ok ca) c') :
    authority codec inputs c = some ca.cert.publicKey ∧
      (∃ secret, c'.secrets .ca = some secret ∧ secret.tlsCrt = ca.certPEM ∧
        secret.tlsKey = ca.keyPEM) ∧
      (∀ other, other ≠ .ca → c'.secrets other = c.secrets other) ∧
      ((∀ secret, c.secrets .ca = some secret → ∀ cert,
          codec.certificate secret.tlsCrt = some cert →
            codec.ecPrivateKey secret.tlsKey = some cert.publicKey) ↔
        ca.key = ca.cert.publicKey) := by
  unfold authority
  rcases ends_ensureCA h with ⟨secret, hsecret, hcert, hkey, rfl⟩ | ⟨habsent, hkey, hmatch, rfl⟩
  · rw [hsecret]
    refine ⟨?_, ⟨secret, rfl, hcert, hkey⟩, fun _ _ => rfl, ?_⟩
    · dsimp only
      rw [hcert, ca.certificate_certPEM, Option.map_some]
    constructor
    · intro hall
      have hfits := hall secret rfl ca.cert (by rw [hcert, ca.certificate_certPEM])
      rw [hkey, ca.ecPrivateKey_keyPEM] at hfits
      exact Option.some.inj hfits
    · intro hmatch other hother cert hparsed
      obtain rfl := Option.some.inj hother
      rw [hcert, ca.certificate_certPEM] at hparsed
      obtain rfl := Option.some.inj hparsed
      rw [hkey, ca.ecPrivateKey_keyPEM, hmatch]
  · rw [habsent, hkey]
    refine ⟨congrArg some hmatch.symm, ⟨_, secrets_store_self c .ca _, rfl, rfl⟩,
      fun other hother => secrets_store_of_ne c _ hother, ?_⟩
    exact ⟨fun _ => hmatch.symm, fun _ secret hsecret => by cases hsecret⟩

theorem stored_of_steps {missing : τ} {ca : CA codec} {c₁ c₂ : Cluster τ} {server client : Leaf τ}
    (hca : Ends serve (ensureCA codec inputs missing) c (.ok ca) c₁)
    (hserver : Obtained cfg inputs .server ca c₁ c₂ server)
    (hclient : Obtained cfg inputs .client ca c₂ c' client) :
    (∃ secret, c'.secrets .ca = some secret ∧ secret.tlsCrt = ca.certPEM ∧
      secret.tlsKey = ca.keyPEM) ∧
    (∃ secret, c'.secrets .server = some secret ∧ secret.tlsCrt = server.certPEM ∧
      secret.tlsKey = server.keyPEM) ∧
    ∃ secret, c'.secrets .client = some secret ∧ secret.tlsCrt = client.certPEM ∧
      secret.tlsKey = client.keyPEM := by
  rw [hclient.others .ca (by decide), hserver.others .ca (by decide),
    hclient.others .server (by decide)]
  exact ⟨(authority_of_ends hca).2.1, hserver.stored, hclient.stored⟩

private theorem trusting_iff_coherent {missing : τ} {bundle : Bundle τ} {ca : CA codec}
    {c₁ c₂ : Cluster τ} {server client : Leaf τ}
    (hca : Ends serve (ensureCA codec inputs missing) c (.ok ca) c₁)
    (hserver : Obtained cfg inputs .server ca c₁ c₂ server)
    (hclient : Obtained cfg inputs .client ca c₂ c' client)
    (hcert : bundle.caCertPEM = ca.certPEM)
    (hpair : x509KeyPair codec client.certPEM client.keyPEM = .ok bundle.clientCert) :
    Trusting codec c' bundle ↔ Coherent codec cfg inputs c := by
  obtain ⟨hauthority, -, hothers, hfits⟩ := authority_of_ends hca
  obtain ⟨hleaf, -, hmatch⟩ := x509KeyPair_ok hpair
  obtain ⟨⟨stored, hfinalCA, hcrt, hkey⟩, ⟨serverSecret, hserverSecret, hserverCrt, hserverKey⟩,
    clientSecret, hclientSecret, hclientCrt, hclientKey⟩ := stored_of_steps hca hserver hclient
  have hserverIff := hserver.signedBy_iff
  rw [hothers .server (by decide)] at hserverIff
  have hclientIff := hclient.signedBy_iff
  rw [hserver.others .client (by decide), hothers .client (by decide)] at hclientIff
  have hkeyed : ∀ role secret, c.secrets role = some secret → Reused codec cfg inputs role secret →
      ((∃ key, authority codec inputs c = some key ∧
        SignedBy codec key secret.tlsCrt secret.tlsKey) ↔
          SignedBy codec ca.cert.publicKey secret.tlsCrt secret.tlsKey) := by
    intro role secret _ _
    rw [hauthority]
    simp
  constructor
  · rintro ⟨cert, hparsed, ⟨secret, hsecret, -, hcaKey⟩, ⟨ss, hss, hsigned⟩, ⟨cs, hcs, hsigned'⟩, -⟩
    rw [hcert, ca.certificate_certPEM] at hparsed
    obtain rfl := Option.some.inj hparsed
    rw [hfinalCA] at hsecret
    obtain rfl := Option.some.inj hsecret
    rw [hserverSecret] at hss
    obtain rfl := Option.some.inj hss
    rw [hclientSecret] at hcs
    obtain rfl := Option.some.inj hcs
    rw [hserverCrt, hserverKey] at hsigned
    rw [hclientCrt, hclientKey] at hsigned'
    rw [hkey, ca.ecPrivateKey_keyPEM] at hcaKey
    refine ⟨hfits.mpr (Option.some.inj hcaKey), fun role hrole secret hsecret hreused => ?_⟩
    refine (hkeyed role secret hsecret hreused).mpr ?_
    cases role with
    | ca => exact absurd rfl hrole
    | server => exact hserverIff.mp hsigned secret hsecret hreused
    | client => exact hclientIff.mp hsigned' secret hsecret hreused
  · rintro ⟨hca, hleaves⟩
    have hsigned : SignedBy codec ca.cert.publicKey server.certPEM server.keyPEM :=
      hserverIff.mpr fun secret hsecret hreused => (hkeyed .server secret hsecret hreused).mp
        (hleaves .server (by decide) secret hsecret hreused)
    have hsigned' : SignedBy codec ca.cert.publicKey client.certPEM client.keyPEM :=
      hclientIff.mpr fun secret hsecret hreused => (hkeyed .client secret hsecret hreused).mp
        (hleaves .client (by decide) secret hsecret hreused)
    refine ⟨ca.cert, by rw [hcert, ca.certificate_certPEM], ⟨stored, hfinalCA, ?_, ?_⟩,
      ⟨serverSecret, hserverSecret, ?_⟩, ⟨clientSecret, hclientSecret, ?_⟩, ?_, hmatch⟩
    · rw [hcrt, hcert]
    · rw [hkey, ca.ecPrivateKey_keyPEM, hfits.mp hca]
    · rw [hserverCrt, hserverKey]
      exact hsigned
    · rw [hclientCrt, hclientKey]
      exact hsigned'
    · obtain ⟨leaf, hthis, hsigner, -⟩ := hsigned'
      rw [hleaf] at hthis
      obtain rfl := Option.some.inj hthis
      exact hsigner

/-- The material of a call that succeeds belongs together exactly if what was there before and is
kept does. -/
theorem ensurePKI_trusting_iff (codec : Codec τ) (cfg : Config) (inputs : Inputs) (missing : τ)
    (c : Cluster τ) (circumstances : List Circumstance) (bundle : Bundle τ)
    (hself : cfg.certManagerEnabled = false)
    (h : (exec serve .served (ensurePKI codec cfg inputs missing) c circumstances).1 =
      .ok bundle) :
    Trusting codec (exec serve .served (ensurePKI codec cfg inputs missing) c circumstances).2
      bundle ↔ Coherent codec cfg inputs c := by
  have hends : Ends serve (ensurePKI codec cfg inputs missing) c _ _ :=
    ends_exec .served (ensurePKI codec cfg inputs missing) c circumstances
  rw [h] at hends
  obtain ⟨ca, c₁, c₂, server, client, hca, hserver, hclient, hbundle⟩ := ends_ensurePKI hself hends
  obtain ⟨hcert, hpair⟩ := makeBundle_ok hbundle
  exact trusting_iff_coherent hca (obtained_of_ends hserver) (obtained_of_ends hclient) hcert hpair

end Whole

inductive Text where
  | certificate (c : Certificate)
  | key (k : KeyPair)
  | empty

/-- Texts that show what they hold. -/
def plain : Codec Text where
  certificate
    | .certificate c => some c
    | _ => none
  certificateError _ := none
  leafCertificate
    | .certificate c => some c
    | _ => none
  trusted
    | .certificate _ => true
    | _ => false
  ecPrivateKey
    | .key k => some k
    | _ => none
  ecPrivateKeyError
    | .certificate _ => some "x509: failed to parse EC private key"
    | _ => none
  privateKey
    | .key k => some k
    | _ => none
  isEmpty
    | .empty => true
    | _ => false
  encodeCertificate := .certificate
  encodeKey := .key
  leafCertificate_of_certificate := fun _ _ h => h
  certificate_encode := fun _ => rfl
  trusted_encode := fun _ => rfl
  ecPrivateKey_encode := fun _ => rfl
  privateKey_encode := fun _ => rfl

def config : Config where
  caSecretName := "hsm-mtls-ca"
  serverSecretName := "hsm-mtls-server"
  clientSecretName := "hsm-mtls-client"

def draws : Inputs where
  key
    | .ca => .ok ⟨1⟩
    | .server => .ok ⟨2⟩
    | .client => .ok ⟨3⟩
  clock := fun _ => 100 * day

private def certificateOf (name : String) (usage : Usage) (publicKey signer : Nat) : Text :=
  .certificate
    { commonName := name, usage, publicKey := ⟨publicKey⟩, signer := ⟨signer⟩
      notBefore := 99 * day, notAfter := 180 * day }

private def bundleOf (ca signer : Nat) : Bundle Text where
  caCertPEM := certificateOf "hsm-mtls-ca" .certSign ca ca
  clientCert := (⟨clientCertDNSName, .clientAuth, ⟨6⟩, ⟨signer⟩, 99 * day, 180 * day⟩, ⟨6⟩)
  serverSecretName := "hsm-mtls-server"

/-- An authority with the key 4, and two leaves from the given signer. -/
private def clusterOf (signer : Nat) : Cluster Text where
  secrets
    | .ca => some (newPKISecret .empty (certificateOf "hsm-mtls-ca" .certSign 4 4) (.key ⟨4⟩))
    | .server => some (newPKISecret (certificateOf "hsm-mtls-ca" .certSign signer signer)
        (certificateOf serverCertDNSName .serverAuth 5 signer) (.key ⟨5⟩))
    | .client => some (newPKISecret (certificateOf "hsm-mtls-ca" .certSign signer signer)
        (certificateOf clientCertDNSName .clientAuth 6 signer) (.key ⟨6⟩))

theorem trusting_iff_present_leaves :
    (exec serve .served (ensurePKI plain config draws .empty) (clusterOf 4) []).1 =
        .ok (bundleOf 4 4) ∧
      (Trusting plain (exec serve .served (ensurePKI plain config draws .empty) (clusterOf 4) []).2
        (bundleOf 4 4) ↔ Coherent plain config draws (clusterOf 4)) :=
  ⟨rfl, ensurePKI_trusting_iff plain config draws .empty (clusterOf 4) [] (bundleOf 4 4) rfl rfl⟩

/-- The leaves of the authority before, with the key 9, are kept although nothing trusts them. -/
theorem leaves_of_lost_authority_kept :
    (exec serve .served (ensurePKI plain config draws .empty) (clusterOf 9) []).1 =
        .ok (bundleOf 4 9) ∧
      ¬ Trusting plain (exec serve .served (ensurePKI plain config draws .empty) (clusterOf 9) []).2
        (bundleOf 4 9) := by
  refine ⟨rfl, ?_⟩
  rintro ⟨cert, hcert, -, -, -, hsigner, -⟩
  obtain rfl := Option.some.inj hcert
  revert hsigner
  decide

end HsmSecretsOperator.Pki.Trust
