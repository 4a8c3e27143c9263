/- source: internal/modes/manager/pki_runnable.go, internal/agent/tls.go
   digest: The client leaf in the memory of the manager, over runs of the rotation loop. -/

import HsmSecretsOperator.Pki.Idempotence

set_option autoImplicit false

namespace HsmSecretsOperator.Pki.Rotation

open Foundation.Calls Foundation.Decimal Foundation.Runs Idempotence Program Store Trust

/-- What the manager dials agents with. -/
structure ClientTLS (τ : Type) where
  leaf : Certificate × KeyPair
  rootCAs : τ
  serverName : String

section Model

variable {τ : Type}

def newClientTLS (bundle : Bundle τ) : ClientTLS τ where
  leaf := bundle.clientCert
  rootCAs := bundle.caCertPEM
  serverName := serverCertDNSName

def ClientTLS.swapLeaf (c : ClientTLS τ) (cert : Certificate × KeyPair) : ClientTLS τ :=
  { c with leaf := cert }

/-- Any answer of an API server, except a Secret that others manage. -/
def Answer (τ : Type) : Type :=
  { answer : Except ApiError (Secret τ) //
    ∀ secret, answer = .ok secret → isExternallyManaged secret = false }

def noAnswer : Answer τ := ⟨.error ⟨.other, "context deadline exceeded"⟩, fun _ h => by cases h⟩

/-- The API server and all others who write to it are the answers that a call gets. -/
def serveAny (_ : Unit) (answer : Answer τ) (_ : Request τ) :
    Unit × Except ApiError (Secret τ) := ((), answer.val)

/-- A call of `EnsurePKI`: what it draws, and the answers that it gets. -/
structure Check (τ : Type) where
  inputs : Inputs
  answers : List (Answer τ)

variable (codec : Codec τ) (cfg : Config) (missing : τ)

def Check.result (check : Check τ) : Except String (Bundle τ) :=
  (exec serveAny noAnswer (ensurePKI codec cfg check.inputs missing) () check.answers).1

def bootstrapAgentPKI (check : Check τ) : Except String (ClientTLS τ) :=
  match check.result codec cfg missing with
  | .error err => .error ("ensuring agent mTLS PKI: " ++ err)
  | .ok bundle => .ok (newClientTLS bundle)

/-- A turn of the loop in `Start`; an error is logged. -/
def rotateOnce (c : ClientTLS τ) (check : Check τ) : ClientTLS τ :=
  match check.result codec cfg missing with
  | .error _ => c
  | .ok bundle => c.swapLeaf bundle.clientCert

end Model

section Lasting

variable {τ : Type} {codec : Codec τ} {cfg : Config} {missing : τ} {t : Int}

/-- A stored leaf that is not due lasts for the time before expiry. -/
theorem lasts_of_not_due (hcfg : Lasting cfg) (hneg : cfg.renewBefore ≠ minInt64) {certPEM : τ}
    {now : Int} (hdue : needsRotation codec certPEM cfg.renewal now = false) :
    ∃ cert, codec.certificate certPEM = some cert ∧ now + cfg.renewal ≤ cert.notAfter := by
  unfold needsRotation at hdue
  split at hdue
  · cases hdue
  next cert hcert =>
    rw [decide_eq_false_iff_not, wrapInt64_neg (inInt64_renewal hcfg.renewBefore),
      if_neg (mt renewal_eq_minInt64_iff.mp hneg)] at hdue
    exact ⟨cert, hcert, by omega⟩

theorem lasts_of_issued (hcfg : Lasting cfg) {ca : CA codec} {dnsName : String} {usage : Usage}
    {key : Except String KeyPair} {now : Int} {leaf : Leaf τ}
    (h : issueLeaf ca dnsName usage cfg.validity key now = .ok leaf) :
    ∃ cert, codec.certificate leaf.certPEM = some cert ∧ now + cfg.renewal ≤ cert.notAfter := by
  obtain ⟨cert, hcert, -, -, -, hnotAfter⟩ := issueLeaf_ok h
  obtain ⟨hlate, -⟩ := wholeSeconds_bounds (now + cfg.validity)
  have hmargin := hcfg.margin
  exact ⟨cert, hcert, by omega⟩

theorem lasts_getOrIssueLeaf (hcfg : Lasting cfg) (hneg : cfg.renewBefore ≠ minInt64)
    {inputs : Inputs} (hclock : ∀ moment, t ≤ inputs.clock moment) {role : Role} {dnsName : String}
    {usage : Usage} {ca : CA codec} {leaf : Leaf τ} {s s' : Unit}
    (h : Ends serveAny (getOrIssueLeaf cfg inputs role dnsName usage ca) s (.ok leaf) s') :
    ∃ cert, codec.certificate leaf.certPEM = some cert ∧ t + cfg.renewal ≤ cert.notAfter := by
  have hissue : ∀ {existing s s'},
      Ends serveAny (issueAndStore cfg inputs role dnsName usage ca existing) s (.ok leaf) s' →
      ∃ cert, codec.certificate leaf.certPEM = some cert ∧ t + cfg.renewal ≤ cert.notAfter := by
    intro existing s s' h
    unfold issueAndStore at h
    split at h
    · cases h.of_done.1
    next issued hissued =>
      -- whichever way it is stored, the leaf that was issued is returned
      have hleaf : issued = leaf := by
        unfold storeLeaf at h
        split at h <;>
        · obtain ⟨e, h⟩ := h.of_call
          split at h
          · exact (Except.ok.inj h.of_done.1).symm
          · cases h.of_done.1
      obtain ⟨cert, hcert, hlasts⟩ := lasts_of_issued hcfg (hleaf ▸ hissued)
      exact ⟨cert, hcert, le_trans (Int.add_le_add_right (hclock _) _) hlasts⟩
  obtain ⟨⟨answer, hours⟩, h⟩ := h.of_call
  dsimp only [serveAny] at h
  cases answer with
  | error e =>
    dsimp only at h
    split at h
    · cases h.of_done.1
    · exact hissue h
  | ok secret =>
    dsimp only at h
    rw [hours secret rfl, Bool.false_or] at h
    split at h
    next hkept =>
      obtain rfl := Except.ok.inj h.of_done.1
      obtain ⟨cert, hcert, hlasts⟩ := lasts_of_not_due hcfg hneg (Bool.not_eq_true' _ ▸ hkept)
      exact ⟨cert, hcert, le_trans (Int.add_le_add_right (hclock _) _) hlasts⟩
    next => exact hissue h

theorem lasts_result (hself : cfg.certManagerEnabled = false) (hcfg : Lasting cfg)
    (hneg : cfg.renewBefore ≠ minInt64) {check : Check τ}
    (hclock : ∀ moment, t ≤ check.inputs.clock moment) {bundle : Bundle τ}
    (h : check.result codec cfg missing = .ok bundle) :
    t + cfg.renewal ≤ bundle.clientCert.1.notAfter := by
  have hends : Ends serveAny (ensurePKI codec cfg check.inputs missing) () _ _ :=
    ends_exec noAnswer _ () check.answers
  unfold Check.result at h
  unfold ensurePKI at h hends
  rw [hself, if_neg (by decide)] at h hends
  rw [h] at hends
  obtain ⟨ca | ca, _, -, hends⟩ := hends.of_bind
  · cases hends.of_done.1
  obtain ⟨server | server, _, -, hends⟩ := hends.of_bind
  · cases hends.of_done.1
  obtain ⟨client | client, _, hclient, hends⟩ := hends.of_bind
  · cases hends.of_done.1
  obtain ⟨cert, hcert, hlasts⟩ := lasts_getOrIssueLeaf hcfg hneg hclock hclient
  obtain ⟨-, hpair⟩ := makeBundle_ok hends.of_done.1.symm
  have hleaf := (x509KeyPair_ok hpair).1
  rw [codec.leafCertificate_of_certificate _ _ hcert] at hleaf
  obtain rfl := Option.some.inj hleaf
  exact hlasts

/-- Checks keep what the leaf lasts for, whether they succeed or not. -/
theorem lasts_run (hself : cfg.certManagerEnabled = false) (hcfg : Lasting cfg)
    (hneg : cfg.renewBefore ≠ minInt64) {c : ClientTLS τ} (hc : t + cfg.renewal ≤ c.leaf.1.notAfter)
    {checks : List (Check τ)} (hclock : ∀ k ∈ checks, ∀ moment, t ≤ k.inputs.clock moment) :
    t + cfg.renewal ≤ (run (rotateOnce codec cfg missing) c checks).leaf.1.notAfter := by
  have hstep : ∀ (c : ClientTLS τ) k, t + cfg.renewal ≤ c.leaf.1.notAfter → k ∈ checks →
      t + cfg.renewal ≤ (rotateOnce codec cfg missing c k).leaf.1.notAfter := by
    intro c k hc hk
    unfold rotateOnce
    split
    · exact hc
    next b hb => exact lasts_result hself hcfg hneg (hclock k hk) hb
  exact Along.run_invariant hstep hc (Along.of_forall fun k hk _ => hk)

/-- The manager has started and its loop has run, whatever the API server has answered. From the
latest check that succeeded, the first one included, the leaf that it presents is valid for the time
before expiry at which leaves are due. -/
theorem leaf_lasts_from_success (codec : Codec τ) (cfg : Config) (missing : τ)
    (hself : cfg.certManagerEnabled = false) (hcfg : Lasting cfg)
    (hneg : cfg.renewBefore ≠ minInt64) (boot : Check τ) (c : ClientTLS τ)
    (hboot : bootstrapAgentPKI codec cfg missing boot = .ok c)
    (checks earlier later : List (Check τ)) (check : Check τ) (bundle : Bundle τ)
    (hchecks : boot :: checks = earlier ++ check :: later)
    (hsuccess : check.result codec cfg missing = .ok bundle) (t : Int)
    (hclock : ∀ k ∈ check :: later, ∀ moment, t ≤ k.inputs.clock moment) :
    t + cfg.renewal ≤ (run (rotateOnce codec cfg missing) c checks).leaf.1.notAfter := by
  have hfirst := lasts_result hself hcfg hneg (hclock check List.mem_cons_self) hsuccess
  have hlater : ∀ k ∈ later, ∀ moment, t ≤ k.inputs.clock moment :=
    fun k hk => hclock k (List.mem_cons_of_mem check hk)
  cases earlier with
  | nil =>
    obtain ⟨rfl, rfl⟩ := List.cons.inj hchecks
    rw [bootstrapAgentPKI, hsuccess] at hboot
    obtain rfl := Except.ok.inj hboot
    exact lasts_run hself hcfg hneg hfirst hlater
  | cons k earlier =>
    rw [List.cons_append] at hchecks
    obtain ⟨-, rfl⟩ := List.cons.inj hchecks
    rw [run_append, run_cons]
    refine lasts_run hself hcfg hneg ?_ hlater
    rw [rotateOnce, hsuccess]
    exact hfirst

end Lasting

private def absent : Answer Text := ⟨.error ⟨.notFound, "not found"⟩, fun _ h => by cases h⟩

private def stored : Answer Text :=
  ⟨.ok (newPKISecret .empty .empty .empty), fun _ h => by cases h; rfl⟩

/-- A check that finds no Secrets and makes them. -/
private def firstCheck : Check Text where
  inputs := draws
  answers := [absent, stored, absent, stored, absent, stored]

theorem leaf_lasts_over_failed_check :
    ∃ c, bootstrapAgentPKI plain config .empty firstCheck = .ok c ∧
      100 * day + config.renewal ≤
        (run (rotateOnce plain config .empty) c [⟨draws, []⟩]).leaf.1.notAfter := by
  refine ⟨_, rfl, leaf_lasts_from_success plain config .empty rfl ⟨?_, ?_, ?_⟩ ?_ firstCheck _ rfl
    [⟨draws, []⟩] [] [⟨draws, []⟩] firstCheck _ rfl rfl (100 * day) ?_⟩
  · decide
  · decide
  · decide
  · decide
  · intro k hk moment
    rcases List.mem_pair.mp hk with rfl | rfl <;> exact le_rfl

end HsmSecretsOperator.Pki.Rotation
