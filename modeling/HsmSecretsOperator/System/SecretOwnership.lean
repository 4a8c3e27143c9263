/- source: internal/controller/hsmsecret_controller.go
   digest: When reconciles and deletions of HSMSecrets leave the Secrets of others alone. -/

import HsmSecretsOperator.Controller.SecretObjects
import HsmSecretsOperator.Foundation.Runs

set_option autoImplicit false

namespace HsmSecretsOperator.System.SecretOwnership

open Controller.HsmSecret (Outcome DeviceRead applySecret convertHSMDataToSecretData copyData_eq)
open Controller.SecretObjects Foundation.Maps Foundation.Runs Foundation.Text Hsm.Secret

abbrev Secrets := Std.ExtTreeMap String Secret

/-- Only Secrets with the given controller are changed or deleted; others may be created. -/
def Framed (uid : String) (before after : Secrets) : Prop :=
  ∀ s : String, after[s]? = before[s]? ∨ before[s]? = none ∨
    ∃ secret, before[s]? = some secret ∧ secret.controller = some uid

def subject : Event → String
  | .reconcile name _ => name
  | .delete name _ => name

/-- The event leaves alone what its HSMSecret does not control. -/
def Frame (op : Operator) (n : Namespace) (e : Event) : Prop :=
  match n.hsmSecrets[subject e]? with
  | some hsmSecret => Framed hsmSecret.uid n.secrets (step op n e).secrets
  | none => (step op n e).secrets = n.secrets

/-- The operator may still write or delete the Secret of this HSMSecret. -/
def Active (op : Operator) (hsmSecret : HSMSecret) : Prop :=
  shouldHandleSecret op hsmSecret = true ∧
    (hsmSecret.deletionTimestamp = none ∨ hsmSecretFinalizer ∈ hsmSecret.finalizers)

/-- The Secret of every active HSMSecret is absent or has it as its controller, and no two of them
have one Secret, unless both are being deleted. -/
structure Separate (op : Operator) (n : Namespace) : Prop where
  owned : ∀ (name : String) hsmSecret secret, n.hsmSecrets[name]? = some hsmSecret →
    Active op hsmSecret → n.secrets[hsmSecret.target name]? = some secret →
    secret.controller = some hsmSecret.uid
  apart : ∀ (a b : String) x y, n.hsmSecrets[a]? = some x → n.hsmSecrets[b]? = some y → a ≠ b →
    Active op x → Active op y → x.target a = y.target b →
    x.deletionTimestamp.isSome = true ∧ y.deletionTimestamp.isSome = true

/-- The Secrets after an event of an HSMSecret. -/
inductive Change (op : Operator) (n : Namespace) (name : String) (hsmSecret : HSMSecret) :
    Secrets → Prop
  | same : Change op n name hsmSecret n.secrets
  | create (secret : Secret) (hactive : Active op hsmSecret)
      (hlive : hsmSecret.deletionTimestamp = none)
      (habsent : n.secrets[hsmSecret.target name]? = none)
      (howner : secret.controller = some hsmSecret.uid) :
      Change op n name hsmSecret (n.secrets.insert (hsmSecret.target name) secret)
  | update (old secret : Secret) (hactive : Active op hsmSecret)
      (hold : n.secrets[hsmSecret.target name]? = some old)
      (howner : secret.controller = old.controller) :
      Change op n name hsmSecret (n.secrets.insert (hsmSecret.target name) secret)
  | delete (hactive : Active op hsmSecret) :
      Change op n name hsmSecret (n.secrets.erase (hsmSecret.target name))

variable {op : Operator} {n : Namespace} {hsmSecret : HSMSecret} {env : Env} {secret : Secret}
  {e : Event} {name : String} (h : n.hsmSecrets[name]? = some hsmSecret)

theorem reconcile_of_some :
    reconcile op env n name = reconcileExisting op env n name hsmSecret h := by
  unfold reconcile
  split
  next hnone => rw [h] at hnone; cases hnone
  next x hx =>
    obtain rfl : x = hsmSecret := Option.some.inj (hx.symm.trans h)
    rfl

theorem secrets_releaseObject :
    (releaseObject n name hsmSecret h).secrets = n.secrets := by
  unfold releaseObject
  dsimp only
  split <;> rfl

theorem change_updateKubernetesSecret {winner : DeviceRead} (hactive : Active op hsmSecret)
    (hlive : hsmSecret.deletionTimestamp = none) :
    Change op n name hsmSecret (updateKubernetesSecret env n name hsmSecret winner).secrets := by
  refine updateKubernetesSecret_cases (I := fun n' => Change op n name hsmSecret n'.secrets) env n
    name hsmSecret winner .same ?_ ?_
  · intro habsent
    exact .create _ hactive hlive habsent rfl
  · intro old hold
    exact .update old _ hactive hold rfl

theorem change_reconcileDelete (hhandles : shouldHandleSecret op hsmSecret = true) :
    Change op n name hsmSecret (reconcileDelete env n name hsmSecret h).secrets := by
  unfold reconcileDelete
  dsimp only
  split
  · exact .same
  next hfinalizer =>
    have hactive : Active op hsmSecret := ⟨hhandles, .inr (not_not.mp hfinalizer)⟩
    split
    · split
      · exact .same
      split
      · exact .delete hactive
      · rw [secrets_releaseObject]
        exact .delete hactive
    · split
      · exact .same
      · rw [secrets_releaseObject]
        exact .same

include h in
theorem change_reconcile :
    Change op n name hsmSecret (reconcile op env n name).secrets := by
  rw [reconcile_of_some h]
  unfold reconcileExisting
  split
  · exact .same
  next hhandles =>
    have hhandles : shouldHandleSecret op hsmSecret = true := by simpa using hhandles
    split
    · exact change_reconcileDelete h hhandles
    next hlive =>
      have hlive : hsmSecret.deletionTimestamp = none := by simpa using hlive
      split
      · split
        · exact .same
        · exact .same
      split
      · exact change_updateKubernetesSecret ⟨hhandles, .inl hlive⟩ hlive
      · exact .same

theorem secrets_requestDeletion (now : Nat) (n : Namespace) (name : String) :
    (requestDeletion now n name).secrets = n.secrets := by
  unfold requestDeletion
  split
  · rfl
  split
  · rfl
  split
  · rfl
  · rfl

theorem change_step (h : n.hsmSecrets[subject e]? = some hsmSecret) :
    Change op n (subject e) hsmSecret (step op n e).secrets := by
  cases e with
  | reconcile name env => exact change_reconcile h
  | delete name now =>
    rw [step, secrets_requestDeletion]
    exact .same

theorem secrets_step_of_none
    (h : n.hsmSecrets[subject e]? = none) : (step op n e).secrets = n.secrets := by
  cases e with
  | reconcile name env =>
    rw [step, reconcile]
    split
    next => rfl
    next x hx =>
      rw [show n.hsmSecrets[name]? = none from h] at hx
      cases hx
  | delete name now => exact secrets_requestDeletion now n name

/-- An HSMSecret after an event: it stands for the same Secret and is at most as active. -/
structure Later (op : Operator) (before after : HSMSecret) : Prop where
  uid : after.uid = before.uid
  secretName : after.secretName = before.secretName
  active : Active op after → Active op before
  deleting : before.deletionTimestamp.isSome = true → after.deletionTimestamp.isSome = true

theorem Later.refl (op : Operator) (hsmSecret : HSMSecret) : Later op hsmSecret hsmSecret :=
  ⟨rfl, rfl, id, id⟩

theorem Later.target {before after : HSMSecret} (h : Later op before after)
    (name : String) : after.target name = before.target name := by
  rw [HSMSecret.target, HSMSecret.target, h.secretName]

/-- Every HSMSecret after an event was there before. -/
def Evolves (op : Operator) (n n' : Namespace) : Prop :=
  ∀ (name : String) after, n'.hsmSecrets[name]? = some after →
    ∃ before, n.hsmSecrets[name]? = some before ∧ Later op before after

theorem evolves_of_eq {n n' : Namespace} (h : n'.hsmSecrets = n.hsmSecrets) : Evolves op n n' := by
  intro name after hafter
  rw [h] at hafter
  exact ⟨after, hafter, .refl op after⟩

theorem evolves_dropObject (n : Namespace) (name : String) : Evolves op n (n.dropObject name) := by
  intro other after hafter
  exact ⟨after, of_getElem?_erase hafter, .refl op after⟩

theorem evolves_putObject {before after : HSMSecret}
    (hbefore : n.hsmSecrets[name]? = some before) (hlater : Later op before after)
    (h : ∃ x, n.hsmSecrets[name]? = some x ∧ x.uid = after.uid) :
    Evolves op n (n.putObject name after h) := by
  intro other x hx
  rcases of_getElem?_insert hx with ⟨rfl, rfl⟩ | hx
  · exact ⟨before, hbefore, hlater⟩
  · exact ⟨x, hx, .refl op x⟩

theorem evolves_releaseObject :
    Evolves op n (releaseObject n name hsmSecret h) := by
  unfold releaseObject
  dsimp only
  split
  · exact evolves_dropObject n name
  · refine evolves_putObject h ?_ _
    refine ⟨rfl, rfl, fun hactive => ⟨hactive.1, hactive.2.imp id fun hf => ?_⟩, id⟩
    exact List.mem_of_mem_filter hf

theorem evolves_reconcileDelete :
    Evolves op n (reconcileDelete env n name hsmSecret h) := by
  unfold reconcileDelete
  dsimp only
  split
  · exact evolves_of_eq rfl
  split
  · split
    · exact evolves_of_eq rfl
    split
    · exact evolves_of_eq rfl
    · exact evolves_releaseObject (n := n.dropSecret (hsmSecret.target name)) _
  · split
    · exact evolves_of_eq rfl
    · exact evolves_releaseObject h

theorem evolves_step (op : Operator) (n : Namespace) (e : Event) : Evolves op n (step op n e) := by
  cases e with
  | reconcile name env =>
    rw [step, reconcile]
    split
    · exact evolves_of_eq rfl
    next hsmSecret h =>
      unfold reconcileExisting
      split
      · exact evolves_of_eq rfl
      split
      · exact evolves_reconcileDelete h
      next hlive =>
        have hlive : hsmSecret.deletionTimestamp = none := by simpa using hlive
        split
        · split
          · exact evolves_of_eq rfl
          · refine evolves_putObject h ?_ _
            exact ⟨rfl, rfl, fun hactive => ⟨hactive.1, .inl hlive⟩, id⟩
        split
        · refine updateKubernetesSecret_cases _ n name hsmSecret _ (evolves_of_eq rfl) ?_ ?_
          · exact fun _ => evolves_of_eq rfl
          · exact fun _ _ => evolves_of_eq rfl
        · exact evolves_of_eq rfl
  | delete name now =>
    rw [step, requestDeletion]
    split
    · exact evolves_of_eq rfl
    next hsmSecret h =>
      split
      · exact evolves_dropObject n name
      split
      · exact evolves_of_eq rfl
      next hlive =>
        have hlive : hsmSecret.deletionTimestamp = none := by simpa using hlive
        refine evolves_putObject h ?_ _
        exact ⟨rfl, rfl, fun hactive => ⟨hactive.1, .inl hlive⟩, fun _ => rfl⟩

theorem frame_of_separate (hn : Separate op n) (e : Event) : Frame op n e := by
  unfold Frame
  split
  next hsmSecret h =>
    have hchange : Change op n (subject e) hsmSecret (step op n e).secrets := change_step h
    generalize (step op n e).secrets = after at hchange
    intro s
    cases hchange with
    | same => exact .inl rfl
    | create secret hactive hlive habsent howner =>
      by_cases hs : hsmSecret.target (subject e) = s
      · exact .inr (.inl (hs ▸ habsent))
      · exact .inl (getElem?_insert_of_ne n.secrets hs secret)
    | update old secret hactive hold howner =>
      by_cases hs : hsmSecret.target (subject e) = s
      · exact .inr (.inr ⟨old, hs ▸ hold, hn.owned _ _ old h hactive hold⟩)
      · exact .inl (getElem?_insert_of_ne n.secrets hs secret)
    | delete hactive =>
      by_cases hs : hsmSecret.target (subject e) = s
      · cases hold : n.secrets[s]? with
        | none => exact .inr (.inl rfl)
        | some old => exact .inr (.inr ⟨old, rfl, hn.owned _ _ old h hactive (hs ▸ hold)⟩)
      · exact .inl (getElem?_erase_of_ne n.secrets hs)
  next h => exact secrets_step_of_none h

/-- No active HSMSecret other than the one that is live has its Secret. -/
theorem Separate.alone (hn : Separate op n) {a b : String}
    {x y : HSMSecret} (hx : n.hsmSecrets[a]? = some x) (hy : n.hsmSecrets[b]? = some y)
    (hax : Active op x) (hay : Active op y) (hlive : x.deletionTimestamp = none)
    (htarget : x.target a = y.target b) : a = b := by
  by_contra hne
  have hdeleting := (hn.apart a b x y hx hy hne hax hay htarget).1
  rw [hlive] at hdeleting
  cases hdeleting

theorem owned_step (hn : Separate op n) (h : n.hsmSecrets[subject e]? = some hsmSecret)
    {after : Secrets} (hchange : Change op n (subject e) hsmSecret after) {x : HSMSecret}
    (hx : n.hsmSecrets[name]? = some x) (hactive : Active op x)
    (hsecret : after[x.target name]? = some secret) : secret.controller = some x.uid := by
  cases hchange with
  | same => exact hn.owned name x secret hx hactive hsecret
  | create new hactive' hlive habsent howner =>
    rcases of_getElem?_insert hsecret with ⟨hs, rfl⟩ | hsecret
    · obtain rfl : subject e = name := hn.alone h hx hactive' hactive hlive hs
      obtain rfl : x = hsmSecret := Option.some.inj (hx.symm.trans h)
      exact howner
    · exact hn.owned name x secret hx hactive hsecret
  | update old new hactive' hold howner =>
    rcases of_getElem?_insert hsecret with ⟨hs, rfl⟩ | hsecret
    · rw [howner]
      exact hn.owned name x old hx hactive (hs ▸ hold)
    · exact hn.owned name x secret hx hactive hsecret
  | delete hactive' =>
    exact hn.owned name x secret hx hactive (of_getElem?_erase hsecret)

theorem separate_step (hn : Separate op n) (e : Event) : Separate op (step op n e) := by
  have hevolves := evolves_step op n e
  refine ⟨fun name x' secret hx' hactive hsecret => ?_,
    fun a b x' y' hx' hy' hne hax hay htarget => ?_⟩
  · obtain ⟨x, hx, hlater⟩ := hevolves name x' hx'
    rw [hlater.target] at hsecret
    rw [hlater.uid]
    cases h : n.hsmSecrets[subject e]? with
    | none =>
      rw [secrets_step_of_none h] at hsecret
      exact hn.owned name x secret hx (hlater.active hactive) hsecret
    | some hsmSecret =>
      exact owned_step hn h (change_step h) hx (hlater.active hactive) hsecret
  · obtain ⟨x, hx, hxlater⟩ := hevolves a x' hx'
    obtain ⟨y, hy, hylater⟩ := hevolves b y' hy'
    rw [hxlater.target, hylater.target] at htarget
    have hboth := hn.apart a b x y hx hy hne (hxlater.active hax) (hylater.active hay) htarget
    exact ⟨hxlater.deleting hboth.1, hylater.deleting hboth.2⟩

/-- Every run of events leaves alone what is not controlled. -/
def AllFramed (op : Operator) (n : Namespace) : Prop :=
  ∀ events, Along (step op) (Frame op) n events

theorem AllFramed.frame (h : AllFramed op n) (e : Event) : Frame op n e := (h [e]).1

theorem AllFramed.step (h : AllFramed op n) (e : Event) :
    AllFramed op (step op n e) := fun events => (h (e :: events)).2

theorem AllFramed.framed (h : AllFramed op n) (hget : n.hsmSecrets[subject e]? = some hsmSecret) :
    Framed hsmSecret.uid n.secrets (Controller.SecretObjects.step op n e).secrets := by
  have hframe := h.frame e
  rw [Frame, hget] at hframe
  exact hframe

def delivers (data : SecretData) : Env where
  outcome := .apply ⟨data, none⟩ false

theorem exists_data_ne (data : SecretData) : ∃ other : SecretData, other ≠ data := by
  by_cases h : data = ∅
  · refine ⟨(∅ : SecretData).insert "k" [], fun heq => ?_⟩
    have hk := congrArg (fun m : SecretData => m["k"]?) (heq.trans h)
    simp at hk
  · exact ⟨∅, fun heq => h heq.symm⟩

section Active

include h

theorem reconcile_delivers (hhandles : shouldHandleSecret op hsmSecret = true)
    (hlive : hsmSecret.deletionTimestamp = none)
    (hfinalizer : hsmSecretFinalizer ∈ hsmSecret.finalizers) (data : SecretData) :
    reconcile op (delivers data) n name =
      updateKubernetesSecret (delivers data) n name hsmSecret ⟨data, none⟩ := by
  rw [reconcile_of_some h]
  simp [reconcileExisting, hhandles, hlive, hfinalizer, delivers]

theorem owned_of_ready (hn : AllFramed op n)
    (hhandles : shouldHandleSecret op hsmSecret = true)
    (hfinalizer : hsmSecretFinalizer ∈ hsmSecret.finalizers)
    (hsecret : n.secrets[hsmSecret.target name]? = some secret) :
    secret.controller = some hsmSecret.uid := by
  -- One reconcile changes the Secret or deletes it.
  have hchanged : ∃ env,
      (reconcile op env n name).secrets[hsmSecret.target name]? ≠ some secret := by
    cases hdeleting : hsmSecret.deletionTimestamp with
    | none =>
      obtain ⟨data, hdata⟩ := exists_data_ne secret.data
      refine ⟨delivers data, ?_⟩
      rw [reconcile_delivers h hhandles hdeleting hfinalizer]
      simp only [updateKubernetesSecret, applySecret, secretApi, delivers, hsecret,
        Namespace.putSecret]
      intro heq
      simp only [Bool.false_eq_true, if_false, Std.ExtTreeMap.getElem?_insert_self,
        Option.some.injEq] at heq
      apply hdata
      rw [← heq, updateSecretWithMetadata, convertHSMDataToSecretData, copyData_eq]
    | some now =>
      refine ⟨{}, ?_⟩
      have hmem := mem_of_getElem? hsecret
      rw [reconcile_of_some h]
      simp [reconcileExisting, hhandles, hdeleting, reconcileDelete, hfinalizer, hmem,
        secrets_releaseObject, Namespace.dropSecret]
  obtain ⟨env, hchanged⟩ := hchanged
  have hframed : Framed hsmSecret.uid n.secrets (reconcile op env n name).secrets :=
    hn.framed (e := .reconcile name env) h
  rcases hframed (hsmSecret.target name) with hsame | habsent | ⟨other, hother, howner⟩
  · exact absurd (hsame.trans hsecret) hchanged
  · rw [hsecret] at habsent
    cases habsent
  · rw [hsecret] at hother
    rw [Option.some.inj hother, howner]

theorem exists_ready (hn : AllFramed op n) (hactive : Active op hsmSecret) :
    ∃ n' x, AllFramed op n' ∧ n'.secrets = n.secrets ∧
      (∀ other : String, other ≠ name → n'.hsmSecrets[other]? = n.hsmSecrets[other]?) ∧
      n'.hsmSecrets[name]? = some x ∧ x.uid = hsmSecret.uid ∧
      x.target name = hsmSecret.target name ∧ shouldHandleSecret op x = true ∧
      x.deletionTimestamp = hsmSecret.deletionTimestamp ∧ hsmSecretFinalizer ∈ x.finalizers := by
  by_cases hfinalizer : hsmSecretFinalizer ∈ hsmSecret.finalizers
  · exact ⟨n, hsmSecret, hn, rfl, fun _ _ => rfl, h, rfl, rfl, hactive.1, rfl, hfinalizer⟩
  · have hlive := hactive.2.resolve_right hfinalizer
    have hadds : reconcile op {} n name = n.putObject name
        { hsmSecret with finalizers := hsmSecret.finalizers ++ [hsmSecretFinalizer] }
        ⟨hsmSecret, h, rfl⟩ := by
      rw [reconcile_of_some h]
      simp [reconcileExisting, hactive.1, hlive, hfinalizer]
    have hn' : AllFramed op (reconcile op {} n name) := hn.step (.reconcile name {})
    rw [hadds] at hn'
    refine ⟨_, _, hn', rfl, fun other hne => ?_, Std.ExtTreeMap.getElem?_insert_self, rfl, rfl,
      hactive.1, rfl, List.mem_append_right _ List.mem_cons_self⟩
    exact getElem?_insert_of_ne n.hsmSecrets hne.symm _

theorem owned_of_allFramed (hn : AllFramed op n) (hactive : Active op hsmSecret)
    (hsecret : n.secrets[hsmSecret.target name]? = some secret) :
    secret.controller = some hsmSecret.uid := by
  obtain ⟨n', x, hn', hsecrets, -, hx, huid, htarget, hhandles, -, hfinalizer⟩ :=
    exists_ready h hn hactive
  rw [← hsecrets, ← htarget] at hsecret
  rw [← huid]
  exact owned_of_ready hx hn' hhandles hfinalizer hsecret

end Active

theorem not_shared_of_allFramed (hn : AllFramed op n) {a b : String}
    {x y : HSMSecret} (hx : n.hsmSecrets[a]? = some x) (hy : n.hsmSecrets[b]? = some y)
    (hax : Active op x) (hay : Active op y) (hlive : x.deletionTimestamp = none)
    (htarget : x.target a = y.target b) : a = b := by
  by_contra hne
  cases hsecret : n.secrets[x.target a]? with
  | some secret =>
    have hxowner := owned_of_allFramed hx hn hax hsecret
    have hyowner := owned_of_allFramed hy hn hay (htarget ▸ hsecret)
    exact hne (n.distinct a b x y hx hy (Option.some.inj (hxowner.symm.trans hyowner)))
  | none =>
    obtain ⟨n', x', hn', hsecrets, hothers, hx', huid, hsame, hhandles, hlive', hfinalizer⟩ :=
      exists_ready hx hn hax
    have hy' : n'.hsmSecrets[b]? = some y := by rw [hothers b fun heq => hne heq.symm, hy]
    have hcreates : reconcile op (delivers ∅) n' a =
        n'.putSecret (x'.target a) (buildSecret x' a ∅ none) := by
      rw [reconcile_delivers hx' hhandles (hlive'.trans hlive) hfinalizer]
      simp [updateKubernetesSecret, applySecret, secretApi, delivers, hsame, hsecrets, hsecret]
    have hn'' : AllFramed op (reconcile op (delivers ∅) n' a) :=
      hn'.step (.reconcile a (delivers ∅))
    rw [hcreates] at hn''
    have hshared : (n'.putSecret (x'.target a) (buildSecret x' a ∅ none)).secrets[y.target b]? =
        some (buildSecret x' a ∅ none) := by
      rw [← htarget, ← hsame]
      exact Std.ExtTreeMap.getElem?_insert_self
    have howner : some x'.uid = some y.uid :=
      owned_of_allFramed (n := n'.putSecret _ _) hy' hn'' hay hshared
    exact hne (n'.distinct a b x' y hx' hy' (Option.some.inj howner))

/-- Reconciles and deletions leave alone what is not controlled, in every order and whatever fails,
exactly if the HSMSecrets are separate to begin with. -/
theorem secrets_framed_iff (op : Operator) (n : Namespace) :
    (∀ events, Along (step op) (Frame op) n events) ↔ Separate op n := by
  constructor
  · intro hn
    refine ⟨fun name hsmSecret secret h hactive hsecret => owned_of_allFramed h hn hactive hsecret,
      fun a b x y hx hy hne hax hay htarget => ⟨?_, ?_⟩⟩
    · by_contra hlive
      have hlive : x.deletionTimestamp = none := by simpa using hlive
      exact hne (not_shared_of_allFramed hn hx hy hax hay hlive htarget)
    · by_contra hlive
      have hlive : y.deletionTimestamp = none := by simpa using hlive
      exact hne (not_shared_of_allFramed hn hy hx hay hax hlive htarget.symm).symm
  · intro hn events
    refine Along.of_invariant (P := fun _ _ => True) (Separate op) (fun n e hn _ => ?_) hn
      (Along.of_forall fun _ _ _ => trivial)
    exact ⟨separate_step hn e, frame_of_separate hn e⟩

private def operator : Operator := ⟨"hsm-operator", "hsm-system"⟩

private def sharing (uid : String) : HSMSecret where
  uid
  parentRef := some { name := "hsm-operator" }
  secretName := "tls"
  finalizers := [hsmSecretFinalizer]

private def twoOwners : Namespace where
  hsmSecrets := assign ∅ Prod.fst Prod.snd [("app", sharing "u1"), ("web", sharing "u2")]
  secrets := ∅
  distinct := by
    intro a b x y hx hy heq
    rcases of_getElem?_assign hx with hx | ⟨e, he, rfl, rfl⟩
    · simp at hx
    rcases of_getElem?_assign hy with hy | ⟨e', he', rfl, rfl⟩
    · simp at hy
    simp only [List.mem_cons, List.not_mem_nil, or_false] at he he'
    rcases he with rfl | rfl <;> rcases he' with rfl | rfl
    · rfl
    · exact absurd heq (by decide)
    · exact absurd heq (by decide)
    · rfl

private def pem (text : String) : SecretData := assign ∅ Prod.fst Prod.snd [("tls.crt", utf8 text)]

private def afterApp : Namespace :=
  step operator twoOwners (.reconcile "app" (delivers (pem "app")))

private def web : Event := .reconcile "web" (delivers (pem "web"))

theorem shared_name_overwrites_secret :
    ¬ Along (step operator) (Frame operator) twoOwners
      [.reconcile "app" (delivers (pem "app")), web] := by
  rintro ⟨-, hframe, -⟩
  have hget : afterApp.hsmSecrets[subject web]? = some (sharing "u2") := by decide +kernel
  have howner : afterApp.secrets["tls"]?.bind (·.controller) = some "u1" := by decide +kernel
  have hframe : Frame operator afterApp web := hframe
  rw [Frame, hget] at hframe
  rcases hframe "tls" with hsame | habsent | ⟨secret, hsecret, hcontroller⟩
  · revert hsame
    decide +kernel
  · rw [habsent] at howner
    cases howner
  · rw [hsecret, Option.bind_some, hcontroller] at howner
    revert howner
    decide

end HsmSecretsOperator.System.SecretOwnership
