/- source: internal/pki/store.go, internal/pki/leaf.go
   digest: When a second call of EnsurePKI at the same time finds nothing to do. -/

import HsmSecretsOperator.Pki.Trust

set_option autoImplicit false

namespace HsmSecretsOperator.Pki.Idempotence

open Foundation.Calls Foundation.Decimal Program Store Trust

section Statement

variable {τ : Type} (codec : Codec τ) (cfg : Config)

/-- What a call draws while the clock stands still. -/
def drawn (now : Int) (key : Role → Except String KeyPair) : Inputs where
  key := key
  clock := fun _ => now

/-- The call succeeds with the bundle, and reading is all that it asks for. -/
def Repeats (inputs : Inputs) (missing : τ) (c : Cluster τ) (bundle : Bundle τ) : Prop :=
  exec serve .served (ensurePKI codec cfg inputs missing) c [] = (.ok bundle, c) ∧
    ∀ request ∈ requests serve .served (ensurePKI codec cfg inputs missing) c [],
      ∃ role, request = .get role

def Kept (inputs : Inputs) (c : Cluster τ) (role : Role) : Prop :=
  ∃ secret, c.secrets role = some secret ∧ Reused codec cfg inputs role secret

/-- The durations are in range, and a leaf lasts a second longer than the time before its expiry at
which it is due. -/
structure Lasting (cfg : Config) : Prop where
  leafValidity : InInt64 cfg.leafValidity
  renewBefore : InInt64 cfg.renewBefore
  margin : cfg.renewal + nanosecondsPerSecond ≤ cfg.validity

end Statement

section Due

variable {τ : Type} {codec : Codec τ} {cfg : Config}

theorem inInt64_validity (h : InInt64 cfg.leafValidity) : InInt64 cfg.validity := by
  unfold Config.validity
  split
  · decide
  · exact h

theorem inInt64_renewal (h : InInt64 cfg.renewBefore) : InInt64 cfg.renewal := by
  unfold Config.renewal
  split
  · decide
  · exact h

theorem renewal_eq_minInt64_iff : cfg.renewal = minInt64 ↔ cfg.renewBefore = minInt64 := by
  unfold Config.renewal
  split
  next hzero =>
    rw [hzero]
    decide
  next => rfl

theorem wholeSeconds_bounds (t : Int) :
    t - nanosecondsPerSecond < wholeSeconds t ∧ wholeSeconds t ≤ t := by
  unfold wholeSeconds nanosecondsPerSecond
  omega

variable {dnsName : String} {leaf : Leaf τ} {ca : CA codec} {usage : Usage}

theorem needsRotation_issued_iff (hcfg : Lasting cfg) {now : Int} {key : Except String KeyPair}
    (h : issueLeaf ca dnsName usage cfg.validity key now = .ok leaf) :
    needsRotation codec leaf.certPEM cfg.renewal now = false ↔ cfg.renewBefore ≠ minInt64 := by
  obtain ⟨cert, hcert, -, -, -, hnotAfter⟩ := issueLeaf_ok h
  obtain ⟨hlate, hearly⟩ := wholeSeconds_bounds (now + cfg.validity)
  have hvalidity := (inInt64_validity hcfg.leafValidity).2
  have hmargin := hcfg.margin
  unfold needsRotation
  rw [hcert]
  dsimp only
  rw [decide_eq_false_iff_not, hnotAfter, wrapInt64_neg (inInt64_renewal hcfg.renewBefore), ne_eq,
    ← renewal_eq_minInt64_iff]
  by_cases hmin : cfg.renewal = minInt64
  · rw [if_pos hmin]
    have hrange : maxInt64 + minInt64 < 0 := by decide
    constructor
    · intro hnot
      omega
    · intro hne
      exact absurd hmin hne
  · rw [if_neg hmin]
    exact iff_of_true (by omega) hmin

theorem kept_after_iff (hcfg : Lasting cfg) {now : Int} {key key' : Role → Except String KeyPair}
    {role : Role}
    {c c' : Cluster τ}
    (h : Ends serve (getOrIssueLeaf cfg (drawn now key) role dnsName usage ca) c (.ok leaf) c') :
    Kept codec cfg (drawn now key') c' role ↔
      cfg.renewBefore ≠ minInt64 ∨ Kept codec cfg (drawn now key) c role := by
  rcases ends_getOrIssueLeaf h with ⟨secret, hsecret, hreused, -, rfl⟩ | ⟨hfresh, hissued⟩
  · exact iff_of_true ⟨secret, hsecret, hreused⟩ (.inr ⟨secret, hsecret, hreused⟩)
  · obtain ⟨secret, rfl, hours, hcrt, -⟩ := hissued.stored
    have hdue := needsRotation_issued_iff hcfg hissued.issued
    have hlost : ¬ Kept codec cfg (drawn now key) c role := fun ⟨other, hother, hreused⟩ =>
      hfresh other hother hreused
    rw [or_iff_left hlost, ← hdue, ← hcrt]
    unfold Kept
    rw [secrets_store_self]
    constructor
    · rintro ⟨stored, hstored, hmanaged | hnot⟩
      · obtain rfl := Option.some.inj hstored
        exact absurd hmanaged (Bool.eq_false_iff.mp hours)
      · obtain rfl := Option.some.inj hstored
        exact hnot
    · exact fun hnot => ⟨_, rfl, .inr hnot⟩

end Due

section Second

variable {τ : Type} {codec : Codec τ} {cfg : Config} {inputs : Inputs} {c c' : Cluster τ}

def HoldsCA (c : Cluster τ) (ca : CA codec) : Prop :=
  ∃ secret, c.secrets .ca = some secret ∧ secret.tlsCrt = ca.certPEM ∧ secret.tlsKey = ca.keyPEM

variable {ca : CA codec} {bundle : Bundle τ} {role : Role}

theorem serve_get_present {secret : Secret τ} (h : c.secrets role = some secret) :
    serve c .served (.get role) = (c, .ok secret) := by
  simp only [serve, apply, h]

theorem ensureCA_again (inputs : Inputs) (missing : τ) (h : HoldsCA c ca) :
    exec serve .served (ensureCA codec inputs missing) c [] = (.ok ca, c) ∧
      requests serve .served (ensureCA codec inputs missing) c [] = [.get .ca] := by
  obtain ⟨secret, hsecret, hcrt, hkey⟩ := h
  unfold ensureCA
  rw [exec_call_nil, requests_call_nil, serve_get_present hsecret]
  dsimp only
  rw [hcrt, hkey, loadCA_self]
  exact ⟨rfl, rfl⟩

theorem getOrIssueLeaf_again (dnsName : String) (usage : Usage) (ca : CA codec)
    {secret : Secret τ} (hsecret : c.secrets role = some secret)
    (hreused : Reused codec cfg inputs role secret) :
    exec serve .served (getOrIssueLeaf cfg inputs role dnsName usage ca) c [] =
        (.ok ⟨secret.tlsCrt, secret.tlsKey⟩, c) ∧
      requests serve .served (getOrIssueLeaf cfg inputs role dnsName usage ca) c [] =
        [.get role] := by
  unfold getOrIssueLeaf
  rw [exec_call_nil, requests_call_nil, serve_get_present hsecret]
  dsimp only
  rw [if_pos (by rwa [Bool.or_eq_true, Bool.not_eq_true'])]
  exact ⟨rfl, rfl⟩

theorem ensurePKI_reads (hself : cfg.certManagerEnabled = false) (missing : τ)
    {server client : Secret τ} (hca : HoldsCA c ca)
    (hserver : c.secrets .server = some server) (hclient : c.secrets .client = some client)
    (hserverKept : Reused codec cfg inputs .server server)
    (hclientKept : Reused codec cfg inputs .client client)
    (hbundle : makeBundle codec cfg ca ⟨client.tlsCrt, client.tlsKey⟩ = .ok bundle) :
    exec serve .served (ensurePKI codec cfg inputs missing) c [] = (.ok bundle, c) ∧
      requests serve .served (ensurePKI codec cfg inputs missing) c [] =
        [.get .ca, .get .server, .get .client] := by
  obtain ⟨hexecCA, hrequestsCA⟩ := ensureCA_again inputs missing hca
  obtain ⟨hexecServer, hrequestsServer⟩ :=
    getOrIssueLeaf_again serverCertDNSName .serverAuth ca hserver hserverKept
  obtain ⟨hexecClient, hrequestsClient⟩ :=
    getOrIssueLeaf_again clientCertDNSName .clientAuth ca hclient hclientKept
  unfold ensurePKI
  rw [hself, if_neg (by decide)]
  constructor
  · rw [exec_bind_nil, hexecCA]
    dsimp only
    rw [exec_bind_nil, hexecServer]
    dsimp only
    rw [exec_bind_nil, hexecClient]
    dsimp only
    rw [exec_done, hbundle]
  · rw [requests_bind_nil, hexecCA, hrequestsCA]
    dsimp only
    rw [requests_bind_nil, hexecServer, hrequestsServer]
    dsimp only
    rw [requests_bind_nil, hexecClient, hrequestsClient]
    rfl

theorem kept_or_written {dnsName : String} {usage : Usage} {leaf : Leaf τ}
    (h : Ends serve (getOrIssueLeaf cfg inputs role dnsName usage ca) c (.ok leaf) c') :
    (Kept codec cfg inputs c role ∧ c' = c) ∨ c.revision < c'.revision := by
  rcases ends_getOrIssueLeaf h with ⟨secret, hsecret, hreused, -, rfl⟩ | ⟨-, hissued⟩
  · exact .inl ⟨⟨secret, hsecret, hreused⟩, rfl⟩
  · obtain ⟨secret, rfl, -⟩ := hissued.stored
    exact .inr (Nat.lt_succ_self c.revision)

theorem kept_of_unchanged (hself : cfg.certManagerEnabled = false) {missing : τ}
    (hca : HoldsCA c ca)
    (h : Ends serve (ensurePKI codec cfg inputs missing) c (.ok bundle) c) :
    Kept codec cfg inputs c .server ∧ Kept codec cfg inputs c .client := by
  obtain ⟨_, c₁, c₂, _, _, hfirst, hserver, hclient, -⟩ := ends_ensurePKI hself h
  obtain ⟨stored, hstored, -, -⟩ := hca
  have hsame : c₁ = c := by
    rcases ends_ensureCA hfirst with ⟨_, _, _, _, hsame⟩ | ⟨habsent, _⟩
    · exact hsame
    · rw [hstored] at habsent
      cases habsent
  subst hsame
  rcases kept_or_written hserver with ⟨hserverKept, rfl⟩ | hwritten
  · rcases kept_or_written hclient with ⟨hclientKept, -⟩ | hwritten
    · exact ⟨hserverKept, hclientKept⟩
    · exact absurd hwritten (lt_irrefl _)
  · rcases kept_or_written hclient with ⟨-, rfl⟩ | hwritten'
    · exact absurd hwritten (lt_irrefl _)
    · exact absurd (hwritten.trans hwritten') (lt_irrefl _)

/-- A second call has nothing to do exactly if it leaves both leaves as they are. -/
theorem repeats_iff_kept (hself : cfg.certManagerEnabled = false) (missing : τ) (hca : HoldsCA c ca)
    (hclient : ∀ secret, c.secrets .client = some secret →
      makeBundle codec cfg ca ⟨secret.tlsCrt, secret.tlsKey⟩ = .ok bundle) :
    Repeats codec cfg inputs missing c bundle ↔
      Kept codec cfg inputs c .server ∧ Kept codec cfg inputs c .client := by
  constructor
  · rintro ⟨hexec, -⟩
    have hends : Ends serve (ensurePKI codec cfg inputs missing) c _ _ :=
      ends_exec .served (ensurePKI codec cfg inputs missing) c []
    rw [hexec] at hends
    exact kept_of_unchanged hself hca hends
  · rintro ⟨⟨server, hserver, hserverKept⟩, ⟨client, hstored, hclientKept⟩⟩
    obtain ⟨hexec, hrequests⟩ := ensurePKI_reads hself missing hca hserver hstored hserverKept
      hclientKept (hclient client hstored)
    refine ⟨hexec, fun request hrequest => ?_⟩
    rw [hrequests, List.mem_cons, List.mem_cons, List.mem_singleton] at hrequest
    rcases hrequest with hrequest | hrequest | hrequest <;> exact ⟨_, hrequest⟩

theorem kept_congr (h : c'.secrets role = c.secrets role) :
    Kept codec cfg inputs c' role ↔ Kept codec cfg inputs c role := by
  unfold Kept
  rw [h]

end Second

section Twice

variable {τ : Type}

/-- After a call that succeeds, a second one at the same time has nothing to do exactly if the time
before expiry can be negated or the first one has issued nothing. -/
theorem ensurePKI_idempotent_iff (codec : Codec τ) (cfg : Config) (now : Int)
    (key key' : Role → Except String KeyPair) (missing : τ) (c c' : Cluster τ)
    (circumstances : List Circumstance) (bundle : Bundle τ)
    (hself : cfg.certManagerEnabled = false) (hcfg : Lasting cfg)
    (hfirst : exec serve .served (ensurePKI codec cfg (drawn now key) missing) c circumstances =
      (.ok bundle, c')) :
    Repeats codec cfg (drawn now key') missing c' bundle ↔
      cfg.renewBefore ≠ minInt64 ∨
        Kept codec cfg (drawn now key) c .server ∧ Kept codec cfg (drawn now key) c .client := by
  have hends : Ends serve (ensurePKI codec cfg (drawn now key) missing) c _ _ :=
    ends_exec .served (ensurePKI codec cfg (drawn now key) missing) c circumstances
  rw [hfirst] at hends
  obtain ⟨ca, c₁, c₂, server, client, hca, hserver, hclient, hbundle⟩ := ends_ensurePKI hself hends
  obtain ⟨-, -, hothers, -⟩ := authority_of_ends hca
  have hgotServer := obtained_of_ends hserver
  have hgotClient := obtained_of_ends hclient
  obtain ⟨hholds, -, left, hleft, hleftCrt, hleftKey⟩ :=
    stored_of_steps hca hgotServer hgotClient
  have hmade : ∀ secret, c'.secrets .client = some secret →
      makeBundle codec cfg ca ⟨secret.tlsCrt, secret.tlsKey⟩ = .ok bundle := by
    intro secret hsecret
    rw [hleft] at hsecret
    obtain rfl := Option.some.inj hsecret
    rw [hleftCrt, hleftKey]
    exact hbundle
  -- each leaf, back to the state before the first call
  have hserverKept : Kept codec cfg (drawn now key') c' .server ↔
      cfg.renewBefore ≠ minInt64 ∨ Kept codec cfg (drawn now key) c .server := by
    rw [kept_congr (hgotClient.others .server (by decide)), kept_after_iff hcfg hserver,
      kept_congr (hothers .server (by decide))]
  have hclientKept : Kept codec cfg (drawn now key') c' .client ↔
      cfg.renewBefore ≠ minInt64 ∨ Kept codec cfg (drawn now key) c .client := by
    rw [kept_after_iff hcfg hclient, kept_congr (hgotServer.others .client (by decide)),
      kept_congr (hothers .client (by decide))]
  rw [repeats_iff_kept hself missing hholds hmade, hserverKept, hclientKept, or_and_left]

end Twice

private def redrawn : Role → Except String KeyPair
  | .ca => .ok ⟨4⟩
  | .server => .ok ⟨5⟩
  | .client => .ok ⟨6⟩

private def newBundle : Bundle Text where
  caCertPEM := .certificate
    ⟨"hsm-mtls-ca", .certSign, ⟨1⟩, ⟨1⟩, 100 * day - minute, 100 * day - minute + caValidity⟩
  clientCert :=
    (⟨clientCertDNSName, .clientAuth, ⟨3⟩, ⟨1⟩, 100 * day - minute, 190 * day⟩, ⟨3⟩)
  serverSecretName := "hsm-mtls-server"

private def afterFirst (cfg : Config) : Cluster Text :=
  (exec serve .served (ensurePKI plain cfg (drawn (100 * day) draws.key) .empty) {} []).2

theorem idempotent_defaults :
    Repeats plain config (drawn (100 * day) redrawn) .empty (afterFirst config) newBundle :=
  (ensurePKI_idempotent_iff plain config (100 * day) draws.key redrawn .empty {}
    (afterFirst config) [] newBundle rfl ⟨by decide, by decide, by decide⟩ rfl).mpr
      (.inl (by decide))

private def leastRenewal : Config := { config with renewBefore := minInt64 }

/-- The leaves of the first call, valid for ninety days, are replaced at once. -/
theorem leaves_issued_twice :
    Lasting leastRenewal ∧
      exec serve .served (ensurePKI plain leastRenewal (drawn (100 * day) draws.key) .empty) {} [] =
        (.ok newBundle, afterFirst leastRenewal) ∧
      ¬ Repeats plain leastRenewal (drawn (100 * day) redrawn) .empty (afterFirst leastRenewal)
        newBundle := by
  refine ⟨⟨by decide, by decide, by decide⟩, rfl, ?_⟩
  rintro ⟨hexec, -⟩
  have hwritten := congrArg (fun ended => ended.2.revision) hexec
  revert hwritten
  decide

end HsmSecretsOperator.Pki.Idempotence
