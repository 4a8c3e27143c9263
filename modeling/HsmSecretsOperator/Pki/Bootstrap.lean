/- source: internal/pki/store.go
   digest: Any number of concurrent calls of EnsurePKI that start without Secrets. -/

import HsmSecretsOperator.Pki.Store

set_option autoImplicit false

namespace HsmSecretsOperator.Pki.Bootstrap

open Foundation.Calls Foundation.Runs
open Program (Sound Interference)
open Store

section Definitions

variable {τ : Type} (codec : Codec τ)

/-- Every stored leaf was signed by the stored authority and comes with its certificate, and the
client leaf is stored after the server leaf. -/
structure Issued (c : Cluster τ) : Prop where
  leaves : ∀ role, role ≠ .ca → ∀ secret, c.secrets role = some secret →
    ∃ ca cert leaf, c.secrets .ca = some ca ∧ secret.caCrt = ca.tlsCrt ∧
      codec.certificate ca.tlsCrt = some cert ∧
      codec.leafCertificate secret.tlsCrt = some leaf ∧ leaf.signer = cert.publicKey
  order : ∀ client, c.secrets .client = some client → ∃ server, c.secrets .server = some server

/-- The authority stays as it is, and no Secret goes. -/
structure Grows (c c' : Cluster τ) : Prop where
  ca : ∀ secret, c.secrets .ca = some secret → c'.secrets .ca = some secret
  kept : ∀ role secret, c.secrets role = some secret → ∃ secret', c'.secrets role = some secret'

/-- The bundle has the stored authority and a client leaf that it has signed, and it has signed the
stored server leaf too. -/
def Agreed (bundle : Bundle τ) (c : Cluster τ) : Prop :=
  ∃ ca cert, c.secrets .ca = some ca ∧ bundle.caCertPEM = ca.tlsCrt ∧
    codec.certificate ca.tlsCrt = some cert ∧ bundle.clientCert.1.signer = cert.publicKey ∧
    ∃ server leaf, c.secrets .server = some server ∧
      codec.leafCertificate server.tlsCrt = some leaf ∧ leaf.signer = cert.publicKey

def Result (result : Except String (Bundle τ)) (c : Cluster τ) : Prop :=
  ∀ bundle, result = .ok bundle → Agreed codec bundle c

variable {codec}

def Holds (ca : CA codec) (c : Cluster τ) : Prop :=
  ∃ secret, c.secrets .ca = some secret ∧ secret.tlsCrt = ca.certPEM

/-- The leaf was signed by the authority, which is the stored one, and its Secret is there. -/
def HoldsLeaf (role : Role) (ca : CA codec) (result : Except String (Leaf τ))
    (c : Cluster τ) : Prop :=
  ∀ leaf, result = .ok leaf → Holds ca c ∧ (∃ secret, c.secrets role = some secret) ∧
    ∃ cert, codec.leafCertificate leaf.certPEM = some cert ∧ cert.signer = ca.cert.publicKey

end Definitions

section Growth

variable {τ : Type} {codec : Codec τ} {c c' : Cluster τ}

theorem interference_grows : Interference (@Grows τ) where
  refl _ := ⟨fun _ h => h, fun _ secret h => ⟨secret, h⟩⟩
  trans h h' := by
    refine ⟨fun secret hs => h'.ca secret (h.ca secret hs), fun role secret hs => ?_⟩
    obtain ⟨next, hnext⟩ := h.kept role secret hs
    exact h'.kept role next hnext

theorem grows_store {role : Role} (h : role ≠ .ca ∨ c.secrets .ca = none) (secret : Secret τ) :
    Grows c (c.store role secret) := by
  constructor
  · intro stored hstored
    rcases h with hrole | hnone
    · rw [secrets_store_of_ne c secret hrole.symm]
      exact hstored
    · rw [hnone] at hstored
      cases hstored
  · intro other stored hstored
    by_cases hother : other = role
    · subst hother
      exact ⟨_, secrets_store_self c other secret⟩
    · rw [secrets_store_of_ne c secret hother]
      exact ⟨stored, hstored⟩

theorem Holds.later {ca : CA codec} (h : Holds ca c) (hgrows : Grows c c') : Holds ca c' := by
  obtain ⟨secret, hsecret, hcert⟩ := h
  exact ⟨secret, hgrows.ca secret hsecret, hcert⟩

theorem Issued.store_ca (h : Issued codec c) (hnone : c.secrets .ca = none) (secret : Secret τ) :
    Issued codec (c.store .ca secret) := by
  have hleafless : ∀ role, role ≠ .ca → (c.store .ca secret).secrets role = none := by
    intro role hrole
    rw [secrets_store_of_ne c secret hrole]
    cases hstored : c.secrets role with
    | none => rfl
    | some stored =>
      obtain ⟨ca, -, -, hca, -⟩ := h.leaves role hrole stored hstored
      rw [hnone] at hca
      cases hca
  constructor
  · intro role hrole stored hstored
    rw [hleafless role hrole] at hstored
    cases hstored
  · intro client hclient
    rw [hleafless .client (by decide)] at hclient
    cases hclient

theorem Issued.store_leaf (h : Issued codec c) {role : Role} (hrole : role ≠ .ca) {ca : CA codec}
    (hca : Holds ca c) (hserver : role = .client → ∃ server, c.secrets .server = some server)
    {secret : Secret τ} (hcaCrt : secret.caCrt = ca.certPEM) {leaf : Certificate}
    (hleaf : codec.leafCertificate secret.tlsCrt = some leaf)
    (hsigner : leaf.signer = ca.cert.publicKey) : Issued codec (c.store role secret) := by
  have hauthority := secrets_store_of_ne c secret hrole.symm
  constructor
  · intro other hother stored hstored
    rw [hauthority]
    by_cases hsame : other = role
    · subst hsame
      rw [secrets_store_self] at hstored
      obtain rfl := Option.some.inj hstored
      obtain ⟨caSecret, hcaSecret, hcert⟩ := hca
      refine ⟨caSecret, ca.cert, leaf, hcaSecret, ?_, ?_, hleaf, hsigner⟩
      · rw [hcert]
        exact hcaCrt
      · rw [hcert, ca.certificate_certPEM]
    · rw [secrets_store_of_ne c secret hsame] at hstored
      exact h.leaves other hother stored hstored
  · intro client hclient
    by_cases hsame : Role.server = role
    · subst hsame
      exact ⟨_, secrets_store_self c .server secret⟩
    rw [secrets_store_of_ne c secret hsame]
    by_cases hclientRole : Role.client = role
    · exact hserver hclientRole.symm
    · rw [secrets_store_of_ne c secret hclientRole] at hclient
      exact h.order client hclient

theorem agreed_of_issued (h : Issued codec c) {ca : Secret τ} {cert : Certificate}
    {bundle : Bundle τ} (hca : c.secrets .ca = some ca)
    (hcert : codec.certificate ca.tlsCrt = some cert) (hbundle : bundle.caCertPEM = ca.tlsCrt)
    (hclient : bundle.clientCert.1.signer = cert.publicKey)
    (hserver : ∃ server, c.secrets .server = some server) : Agreed codec bundle c := by
  obtain ⟨server, hserver⟩ := hserver
  obtain ⟨ca', cert', leaf, hca', -, hcert', hleaf, hsigner⟩ :=
    h.leaves .server (by decide) server hserver
  rw [hca] at hca'
  obtain rfl := Option.some.inj hca'
  rw [hcert] at hcert'
  obtain rfl := Option.some.inj hcert'
  exact ⟨ca, cert, hca, hbundle, hcert, hclient, server, leaf, hserver, hleaf, hsigner⟩

end Growth

section Steps

variable {τ : Type} {codec : Codec τ} {cfg : Config} {inputs : Inputs} {c : Cluster τ}

/-- The service, invariant and interference of all that follows. -/
private abbrev Fine {α : Type} (codec : Codec τ) (Post : α → Cluster τ → Prop)
    (p : Program (Request τ) (Except ApiError (Secret τ)) α) (c : Cluster τ) : Prop :=
  Sound serve (Issued codec) Grows Post p c

variable {role : Role} {t : Cluster τ} {ca : CA codec}

private theorem fine_get {α : Type} {Post : α → Cluster τ → Prop}
    {next : Except ApiError (Secret τ) → Program (Request τ) (Except ApiError (Secret τ)) α}
    (hfound : ∀ t secret, Grows c t → Issued codec t → t.secrets role = some secret →
      Fine codec Post (next (.ok secret)) t)
    (hnone : ∀ t text, Grows c t → Issued codec t → t.secrets role = none →
      Fine codec Post (next (.error ⟨.notFound, text⟩)) t)
    (hfailed : ∀ t text, Grows c t → Fine codec Post (next (.error ⟨.other, text⟩)) t) :
    Fine codec Post (.call (.get role) next) c := by
  intro t ht hinv e
  obtain ⟨hsame, hanswer⟩ := serve_get t e role
  rw [hsame]
  refine ⟨hinv, interference_grows.refl t, ?_⟩
  rcases hanswer with ⟨secret, hsecret, hget⟩ | ⟨habsent, text, hget⟩ | ⟨text, hget⟩
  · rw [hget]
    exact hfound t secret ht hinv hsecret
  · rw [hget]
    exact hnone t text ht hinv habsent
  · rw [hget]
    exact hfailed t text ht

private theorem keeps_of_write {t t' : Cluster τ} {secret : Secret τ} {P : Prop}
    (hinv : Issued codec t) (hstate : t' = t ∨ P ∧ t' = t.store role secret)
    (hstored : P → Issued codec (t.store role secret))
    (hgrows : P → Grows t (t.store role secret)) : Issued codec t' ∧ Grows t t' := by
  rcases hstate with rfl | ⟨hp, rfl⟩
  · exact ⟨hinv, interference_grows.refl t'⟩
  · exact ⟨hstored hp, hgrows hp⟩

private theorem fine_error {text : String} {α : Type} {P : α → Cluster τ → Prop} :
    Fine codec (fun result c => ∀ a, result = .ok a → P a c)
      (.done (.error text : Except String α)) c := by
  intro t _ _ a ha
  cases ha

private theorem fine_loadCA {secret : Secret τ} (hsecret : t.secrets .ca = some secret) :
    Fine codec (fun result c => ∀ ca, result = .ok ca → Holds ca c)
      (.done (loadCA codec secret.tlsCrt secret.tlsKey)) t := by
  intro u hu _ ca hca
  exact ⟨secret, hu.ca secret hsecret, (loadCA_ok hca).1.symm⟩

theorem sound_ensureCA (missing : τ) (c : Cluster τ) :
    Sound serve (Issued codec) Grows (fun result c => ∀ ca, result = .ok ca → Holds ca c)
      (ensureCA codec inputs missing) c := by
  refine fine_get (fun t secret _ _ hsecret => fine_loadCA hsecret) (fun t text _ _ _ => ?_)
    fun t text _ => fine_error
  dsimp only
  rw [if_neg (not_not.mpr rfl)]
  cases generateCA codec (inputs.key .ca) (inputs.clock .generate) with
  | error e => exact fine_error
  | ok ca =>
    intro u _ hinv e
    obtain ⟨hstate, hanswer⟩ := serve_create u e .ca (newPKISecret missing ca.certPEM ca.keyPEM)
    obtain ⟨hissued, hgrows⟩ := keeps_of_write hinv hstate (fun hnone => hinv.store_ca hnone _)
      fun hnone => grows_store (.inr hnone) _
    refine ⟨hissued, hgrows, ?_⟩
    rcases hanswer with ⟨-, hstored, hcreate⟩ | ⟨-, text, hcreate⟩ | ⟨text, hcreate⟩
    · rw [hstored, hcreate]
      intro v hv _ other hother
      obtain rfl := Except.ok.inj hother
      exact ⟨_, hv.ca _ (secrets_store_self u .ca _), rfl⟩
    · -- another call has created the authority first
      rw [hcreate]
      exact fine_get (fun v secret _ _ hsecret => fine_loadCA hsecret)
        (fun v text _ _ _ => fine_error) fun v text _ => fine_error
    · rw [hcreate]
      exact fine_error

private theorem fine_leaf {leaf : Leaf τ}
    (hca : Holds ca t) (hsecret : ∃ secret, t.secrets role = some secret) {cert : Certificate}
    (hcert : codec.leafCertificate leaf.certPEM = some cert)
    (hsigner : cert.signer = ca.cert.publicKey) :
    Fine codec (HoldsLeaf role ca) (.done (.ok leaf)) t := by
  intro u hu _ other hother
  obtain rfl := Except.ok.inj hother
  obtain ⟨secret, hsecret⟩ := hsecret
  exact ⟨hca.later hu, hu.kept role secret hsecret, cert, hcert, hsigner⟩

private theorem sound_storeLeaf (hrole : role ≠ .ca)
    (hca : Holds ca t) (hserver : role = .client → ∃ server, t.secrets .server = some server)
    {leaf : Leaf τ} {cert : Certificate} (hcert : codec.leafCertificate leaf.certPEM = some cert)
    (hsigner : cert.signer = ca.cert.publicKey) (existing : Option (Secret τ)) :
    Fine codec (HoldsLeaf role ca) (storeLeaf cfg role ca leaf existing) t := by
  have hlater (u : Cluster τ) (hu : Grows t u) :
      Holds ca u ∧ (role = .client → ∃ server, u.secrets .server = some server) := by
    refine ⟨hca.later hu, fun hclient => ?_⟩
    obtain ⟨server, hserver⟩ := hserver hclient
    exact hu.kept .server server hserver
  have hstored (u : Cluster τ) (hu : Grows t u) (hinv : Issued codec u) (secret : Secret τ)
      (hcaCrt : secret.caCrt = ca.certPEM) (htlsCrt : secret.tlsCrt = leaf.certPEM) :
      Issued codec (u.store role secret) := by
    obtain ⟨hca, hserver⟩ := hlater u hu
    exact hinv.store_leaf hrole hca hserver hcaCrt (by rw [htlsCrt]; exact hcert) hsigner
  cases existing with
  | none =>
    intro u hu hinv e
    have hnew := hstored u hu hinv (newPKISecret ca.certPEM leaf.certPEM leaf.keyPEM) rfl rfl
    have hgrows := grows_store (c := u) (.inl hrole)
      (newPKISecret ca.certPEM leaf.certPEM leaf.keyPEM)
    obtain ⟨hstate, hanswer⟩ := serve_create u e role
      (newPKISecret ca.certPEM leaf.certPEM leaf.keyPEM)
    obtain ⟨hissued, hallowed⟩ := keeps_of_write hinv hstate (fun _ => hnew) fun _ => hgrows
    refine ⟨hissued, hallowed, ?_⟩
    rcases hanswer with ⟨-, hafter, hcreate⟩ | ⟨-, text, hcreate⟩ | ⟨text, hcreate⟩
    · rw [hafter, hcreate]
      exact fine_leaf ((hlater u hu).1.later hgrows) ⟨_, secrets_store_self u role _⟩ hcert hsigner
    · rw [hcreate]
      exact fine_error
    · rw [hcreate]
      exact fine_error
  | some secret =>
    intro u hu hinv e
    let updated : Secret τ :=
      { secret with
        caCrt := ca.certPEM, tlsCrt := leaf.certPEM, tlsKey := leaf.keyPEM
        managedBy := some selfManagedValue }
    have hnew := hstored u hu hinv updated rfl rfl
    have hgrows := grows_store (c := u) (.inl hrole) updated
    obtain ⟨hstate, hanswer⟩ := serve_update u e role updated
    obtain ⟨hissued, hallowed⟩ := keeps_of_write hinv hstate (fun _ => hnew) fun _ => hgrows
    refine ⟨hissued, hallowed, ?_⟩
    rcases hanswer with ⟨-, hafter, hupdate⟩ | ⟨error, hupdate⟩
    · rw [hafter, hupdate]
      exact fine_leaf ((hlater u hu).1.later hgrows) ⟨_, secrets_store_self u role _⟩ hcert hsigner
    · rw [hupdate]
      exact fine_error

theorem sound_getOrIssueLeaf (hrole : role ≠ .ca) (dnsName : String) (usage : Usage)
    (hca : Holds ca c)
    (hserver : role = .client → ∃ server, c.secrets .server = some server) :
    Sound serve (Issued codec) Grows (HoldsLeaf role ca)
      (getOrIssueLeaf cfg inputs role dnsName usage ca) c := by
  have hissue (t : Cluster τ) (ht : Grows c t) (existing : Option (Secret τ)) :
      Fine codec (HoldsLeaf role ca) (issueAndStore cfg inputs role dnsName usage ca existing)
        t := by
    unfold issueAndStore
    cases hleaf : issueLeaf ca dnsName usage cfg.validity (inputs.key role)
        (inputs.clock (.issue role)) with
    | error e => exact fine_error
    | ok leaf =>
      obtain ⟨cert, hcert, hsigner, -, -⟩ := issueLeaf_ok hleaf
      refine sound_storeLeaf hrole (hca.later ht) (fun hclient => ?_)
        (codec.leafCertificate_of_certificate _ _ hcert) hsigner existing
      obtain ⟨server, hserver⟩ := hserver hclient
      exact ht.kept .server server hserver
  refine fine_get (fun t secret ht hinv hsecret => ?_) (fun t text ht _ _ => ?_)
    fun t text _ => fine_error
  · dsimp only
    split
    · -- a leaf that is kept was signed by the stored authority, as all are
      obtain ⟨caSecret, cert, leaf, hstored, -, hcert, hleaf, hsigner⟩ :=
        hinv.leaves role hrole secret hsecret
      obtain ⟨caSecret', hstored', hsame⟩ := hca.later ht
      rw [hstored] at hstored'
      obtain rfl := Option.some.inj hstored'
      rw [hsame, ca.certificate_certPEM] at hcert
      obtain rfl := Option.some.inj hcert
      exact fine_leaf (hca.later ht) ⟨secret, hsecret⟩ hleaf hsigner
    · exact hissue t ht (some secret)
  · dsimp only
    rw [if_neg (not_not.mpr rfl)]
    exact hissue t ht none

private theorem sound_readExternalBundle (c : Cluster τ) :
    Fine codec (Result codec) (readExternalBundle codec cfg) c := by
  refine fine_get (fun t secret _ hinv hsecret => ?_) (fun t text _ _ _ => fine_error)
    fun t text _ => fine_error
  dsimp only
  split
  · exact fine_error
  split
  · exact fine_error
  next pair hpair =>
    split
    · exact fine_error
    · obtain ⟨ca, cert, leaf, hca, hcaCrt, hcert, hleaf, hsigner⟩ :=
        hinv.leaves .client (by decide) secret hsecret
      obtain ⟨server, hserver⟩ := hinv.order secret hsecret
      rw [(x509KeyPair_ok hpair).1] at hleaf
      obtain rfl := Option.some.inj hleaf
      intro u hu hinv' bundle hbundle
      obtain rfl := Except.ok.inj hbundle
      exact agreed_of_issued hinv' (hu.ca ca hca) hcert hcaCrt hsigner
        (hu.kept .server server hserver)

theorem sound_ensurePKI (missing : τ) (c : Cluster τ) :
    Sound serve (Issued codec) Grows (Result codec) (ensurePKI codec cfg inputs missing) c := by
  unfold ensurePKI
  split
  · exact sound_readExternalBundle c
  refine Sound.bind interference_grows (sound_ensureCA missing c) fun result t _ hca => ?_
  cases result with
  | error e => exact fine_error
  | ok ca =>
    refine Sound.bind interference_grows (sound_getOrIssueLeaf (by decide) serverCertDNSName
      .serverAuth (hca ca rfl) fun h => by cases h) fun result t _ hserver => ?_
    cases result with
    | error e => exact fine_error
    | ok leaf =>
      obtain ⟨hca, hserver, -⟩ := hserver leaf rfl
      refine Sound.bind interference_grows (sound_getOrIssueLeaf (by decide) clientCertDNSName
        .clientAuth hca fun _ => hserver) fun result t' _ hclient => ?_
      cases result with
      | error e => exact fine_error
      | ok leaf =>
        obtain ⟨hca, ⟨client, hclient⟩, cert, hcert, hsigner⟩ := hclient leaf rfl
        intro u hu hinv bundle hbundle
        obtain ⟨hbundleCA, hpair⟩ := makeBundle_ok hbundle
        obtain ⟨secret, hsecret, hsame⟩ := hca.later hu
        obtain ⟨client', hclient'⟩ := hu.kept .client client hclient
        rw [(x509KeyPair_ok hpair).1] at hcert
        obtain rfl := Option.some.inj hcert
        refine agreed_of_issued hinv hsecret ?_ ?_ hsigner (hinv.order client' hclient')
        · rw [hsame, ca.certificate_certPEM]
        · rw [hbundleCA, hsame]

end Steps

section Interleavings

variable {τ : Type} (codec : Codec τ) (missing : τ) (calls : List (Config × Inputs))

/-- No Secrets, and any number of calls that are about to start. -/
def start : World (Request τ) (Except ApiError (Secret τ)) (Except String (Bundle τ))
    (Cluster τ) where
  service := {}
  callers := calls.map fun call => ensurePKI codec call.1 call.2 missing

private theorem allSound_start :
    AllSound serve (Issued codec) Grows (Result codec) (start codec missing calls) := by
  refine ⟨⟨fun role _ secret hsecret => ?_, fun client hclient => ?_⟩, fun p hp => ?_⟩
  · cases hsecret
  · cases hclient
  · obtain ⟨call, -, rfl⟩ := List.mem_map.mp hp
    exact sound_ensurePKI missing _

/-- In every interleaving, whoever succeeds has the stored authority and leaves that it has signed,
and an authority that was stored once is the one that is stored ever after. -/
theorem bootstrap_agrees_on_one_authority (turns later : List (Nat × Circumstance)) :
    (∀ bundle, .done (.ok bundle) ∈ (run (answer serve) (start codec missing calls) turns).callers →
      Agreed codec bundle (run (answer serve) (start codec missing calls) turns).service) ∧
    ∀ secret,
      (run (answer serve) (start codec missing calls) turns).service.secrets .ca = some secret →
      (run (answer serve) (start codec missing calls) (turns ++ later)).service.secrets .ca =
        some secret := by
  obtain ⟨hsound, -⟩ := (allSound_start codec missing calls).run interference_grows turns
  constructor
  · intro bundle hbundle
    exact hsound.post interference_grows hbundle bundle rfl
  · intro secret hsecret
    rw [run_append]
    exact (hsound.run interference_grows later).2.ca secret hsecret

end Interleavings

end HsmSecretsOperator.Pki.Bootstrap
