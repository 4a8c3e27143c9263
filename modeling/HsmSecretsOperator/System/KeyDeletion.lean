/- source: internal/api/proxy_client.go, internal/hsm/pkcs11_client.go, internal/mirror/manager.go
   digest: Whether a deleted key comes back when writes, key deletions and sweeps run on tokens. -/

import HsmSecretsOperator.Api.Proxy
import HsmSecretsOperator.Foundation.Runs
import HsmSecretsOperator.Hsm.Pkcs11
import HsmSecretsOperator.Mirror.Sweep

/-! `DeleteSecretKey` removes one object of a secret and leaves its metadata alone. -/

set_option autoImplicit false

namespace HsmSecretsOperator.System.KeyDeletion

open Api.Proxy hiding readSecret readMetadata writeSecret deleteSecret deleteSecretKey
open Foundation.Maps Foundation.Runs Foundation.Text Hsm.Pkcs11 Hsm.Secret Mirror.Sweep

inductive Op where
  | write (f : Fanout) (path : String) (req : WriteRequest)
  | deleteKey (f : Fanout) (path key : String)
  | sweep (env : SweepEnv)

/-- The tokens, and the devices on which the observed key was deleted since the last acknowledged
write of its path. -/
structure State where
  tokens : Cluster Token
  deletedOn : List String

/-- One operation, with `k` of `p` as the observed key. -/
def step (p k : String) (s : State) : Op → State
  | .write f path req =>
    { tokens := Api.Proxy.writeSecret client f s.tokens path req
      deletedOn := if path = p && f.acknowledged then [] else s.deletedOn }
  | .deleteKey f path key =>
    { tokens := Api.Proxy.deleteSecretKey deleteSecretKey f s.tokens path key
      deletedOn :=
        if path = p && key = k then keyDeletedOn deleteSecretKey f s.tokens path key ++ s.deletedOn
        else s.deletedOn }
  | .sweep env =>
    { tokens := (mirrorAllSecrets client env s.tokens).1.cluster, deletedOn := s.deletedOn }

/-- A sweep writes no data with the key onto a device on which it was deleted. -/
def Safe (p k : String) (s : State) : Op → Prop
  | .sweep env => ∀ w ∈ (mirrorAllSecrets client env s.tokens).1.log,
      w.path = p → w.device ∈ s.deletedOn → k ∉ w.data
  | .write .. => True
  | .deleteKey .. => True

instance instDecidableSafe (p k : String) (s : State) : ∀ op, Decidable (Safe p k s op)
  | .sweep env => inferInstanceAs (Decidable (∀ w ∈ (mirrorAllSecrets client env s.tokens).1.log,
      w.path = p → w.device ∈ s.deletedOn → k ∉ w.data))
  | .write .. => inferInstanceAs (Decidable True)
  | .deleteKey .. => inferInstanceAs (Decidable True)

/-- A read of the path takes the object for the key. -/
def IsKey (p k : String) (o : DataObject) : Prop :=
  belongsTo p o = true ∧ isMetadata o = false ∧ keyOf p o = k

instance (p k : String) (o : DataObject) : Decidable (IsKey p k o) :=
  inferInstanceAs (Decidable (_ ∧ _))

def HoldsKey (p k : String) (t : Token) : Prop := ∃ o ∈ t, IsKey p k o

/-- The token holds the key in one object only, under the label a write gives it. -/
def HoldsOnce (p k : String) (t : Token) : Prop :=
  (∀ o ∈ t, IsKey p k o → o.label = labelOf p k) ∧
    t.countP (fun o => o.label = labelOf p k) ≤ 1

instance (p k : String) (t : Token) : Decidable (HoldsOnce p k t) :=
  inferInstanceAs (Decidable (_ ∧ _))

/-- An acknowledged deletion of the key reaches every device with an object for it, and finds the
object where a write puts it. While the key is deleted, other paths that are written or listed
share no prefix with its path. -/
def Undisturbed (p k : String) (s : State) : Op → Prop
  | .write _ path _ => s.deletedOn ≠ [] → path ≠ p → Incomparable path p
  | .deleteKey f path key => path = p → key = k →
      keyDeletedOn deleteSecretKey f s.tokens path key ≠ [] → ∀ d, HoldsKey p k (s.tokens d) →
        d ∈ f.clients ∧ f.accepts d = true ∧ HoldsOnce p k (s.tokens d)
  | .sweep env => s.deletedOn ≠ [] → ∀ path ∈ discoverAllSecrets client env s.tokens,
      path ≠ p → Incomparable path p

section Objects

variable {p k : String} {t : Token}

private theorem not_holdsKey_of_subset {t' : Token} (h : ¬ HoldsKey p k t)
    (hsub : ∀ o ∈ t', o ∈ t) : ¬ HoldsKey p k t' := by
  intro ⟨o, ho, hkey⟩
  exact h ⟨o, hsub o ho, hkey⟩

private theorem not_holdsKey_writeSecret_of_incomparable {q : String} (hq : Incomparable q p)
    (h : ¬ HoldsKey p k t) (data : SecretData) (metadata : Option SecretMetadata) :
    ¬ HoldsKey p k (writeSecret t q data metadata) := by
  intro ⟨o, ho, hkey⟩
  exact h ⟨o, mem_of_mem_writeSecret ⟨hq.2, hq.1⟩ ho hkey.1, hkey⟩

private theorem key_of_readSecret {data : SecretData} (hread : readSecret t p = .ok data)
    {key : String} (hkey : key ∈ data) : key ≠ "" ∧ HoldsKey p key t := by
  have hdata :
      data = Foundation.Maps.assign ∅ (keyOf p) DataObject.value (matchingObjects t p) := by
    unfold readSecret at hread
    dsimp only at hread
    split at hread
    · cases hread
    split at hread
    · cases hread
    · exact (Except.ok.inj hread).symm
  rw [hdata, mem_assign] at hkey
  obtain hempty | ⟨o, ho, rfl⟩ := hkey
  · exact absurd hempty Std.ExtTreeMap.not_mem_empty
  rw [matchingObjects_eq, List.mem_filter, Bool.and_eq_true, Bool.not_eq_true'] at ho
  refine ⟨?_, o, List.mem_of_mem_take ho.1, ho.2.1, ho.2.2, rfl⟩
  unfold keyOf
  dsimp only
  split
  · decide
  next hne => exact hne

private theorem not_holdsKey_writeSecret_self (h : ¬ HoldsKey p k t) {data : SecretData}
    (hk : k ∉ data) (hnamed : "" ∉ data) (metadata : Option SecretMetadata) :
    ¬ HoldsKey p k (writeSecret t p data metadata) := by
  intro ⟨o, ho, hkey⟩
  rw [writeSecret_eq, List.mem_append] at ho
  rcases ho with hold | hnew
  · exact h ⟨o, mem_of_mem_deleteSecretObjects hold, hkey⟩
  · simp only [newObjects, List.mem_append, List.mem_map] at hnew
    obtain ⟨_, hmeta, hname⟩ := hkey
    rcases hnew with ⟨e, he, rfl⟩ | ⟨m, _, rfl⟩
    · have hmem := Foundation.Maps.mem_of_mem_toList he
      have hne : e.1 ≠ "" := fun hempty => hnamed (hempty ▸ hmem)
      rw [keyOf_labelOf hne] at hname
      exact hk (hname ▸ hmem)
    · simp [isMetadata] at hmeta

private theorem mem_of_deleteSecretKey {cl : Cluster Token} {f : Fanout} {path key d : String}
    {o : DataObject} (ho : o ∈ Api.Proxy.deleteSecretKey deleteSecretKey f cl path key d) :
    o ∈ cl d := by
  unfold Api.Proxy.deleteSecretKey at ho
  split at ho
  · exact ho
  next hkey =>
    unfold deleteKeyFromAllDevices keyDeleted at ho
    rw [deleteSecretKey_of_ne hkey] at ho
    split at ho
    · split at ho
      · exact List.mem_of_mem_eraseP ho
      · exact ho
    · exact ho

private theorem not_holdsKey_deleteSecretKey {cl : Cluster Token} {f : Fanout} {d : String}
    (hk : k ≠ "") (hmem : d ∈ f.clients) (hacc : f.accepts d = true)
    (honce : HoldsOnce p k (cl d)) :
    ¬ HoldsKey p k (Api.Proxy.deleteSecretKey deleteSecretKey f cl p k d) := by
  intro ⟨o, ho, hkey⟩
  have hlabel := honce.1 o (mem_of_deleteSecretKey ho) hkey
  have hbefore := mem_of_deleteSecretKey ho
  have hany : ((cl d).any fun o => o.label = labelOf p k) = true :=
    List.any_eq_true.mpr ⟨o, hbefore, decide_eq_true hlabel⟩
  have hleft : o ∈ (cl d).eraseP fun o => o.label = labelOf p k := by
    simpa [Api.Proxy.deleteSecretKey, deleteKeyFromAllDevices, keyDeleted, hk, hmem, hacc,
      deleteSecretKey_of_ne hk, hany, Except.toOption] using ho
  -- The erased object and the one that is left would be two under one label.
  obtain ⟨e, before, after, _, he, hsplit, herase⟩ :=
    List.exists_of_eraseP (p := fun o => decide (o.label = labelOf p k)) hbefore
      (decide_eq_true hlabel)
  rw [herase] at hleft
  have hpos : 0 < (before ++ after).countP fun o => o.label = labelOf p k :=
    List.countP_pos_iff.mpr ⟨o, hleft, decide_eq_true hlabel⟩
  have hsole := honce.2
  rw [hsplit, List.countP_append, List.countP_cons, if_pos he] at hsole
  rw [List.countP_append] at hpos
  omega

end Objects

/-- While the key is deleted, no token holds an object for it. -/
def Inv (p k : String) (s : State) : Prop := s.deletedOn ≠ [] → ∀ d, ¬ HoldsKey p k (s.tokens d)

section Steps

variable {p k : String} {s : State}

private theorem inv_write (hs : Inv p k s) (f : Fanout) (path : String) (req : WriteRequest)
    (h : Undisturbed p k s (.write f path req)) : Inv p k (step p k s (.write f path req)) := by
  intro hdel d
  simp only [step, Bool.and_eq_true, decide_eq_true_eq] at hdel ⊢
  split at hdel
  · exact absurd rfl hdel
  next hnot =>
    by_cases hack : f.acknowledged = true
    · have hother : path ≠ p := fun heq => hnot ⟨heq, hack⟩
      simp only [Api.Proxy.writeSecret, writeToAllDevices, client_writeSecret]
      split
      · exact not_holdsKey_writeSecret_of_incomparable (h hdel hother) (hs hdel d) _ _
      · exact hs hdel d
    · rw [writeSecret_of_not_acknowledged client (Bool.eq_false_iff.mpr hack)]
      exact hs hdel d

private theorem inv_deleteKey (hs : Inv p k s) (f : Fanout) (path key : String)
    (h : Undisturbed p k s (.deleteKey f path key)) :
    Inv p k (step p k s (.deleteKey f path key)) := by
  intro hdel d
  -- Either the token had no object for the key, or this deletion reaches all that do.
  by_cases hholds : HoldsKey p k (s.tokens d)
  · have hnone : s.deletedOn = [] := by
      by_contra hne
      exact hs hne d hholds
    simp only [step, hnone, List.append_nil, Bool.and_eq_true, decide_eq_true_eq] at hdel ⊢
    split at hdel
    next heq =>
      obtain ⟨rfl, rfl⟩ := heq
      obtain ⟨hmem, hacc, honce⟩ := h rfl rfl hdel d hholds
      have hkey : key ≠ "" := by
        intro hempty
        simp [keyDeletedOn, hempty] at hdel
      exact not_holdsKey_deleteSecretKey hkey hmem hacc honce
    · exact absurd rfl hdel
  · exact not_holdsKey_of_subset hholds fun o ho => mem_of_deleteSecretKey ho

private theorem sweep_without_key (hs : Inv p k s) {env : SweepEnv}
    (h : Undisturbed p k s (.sweep env)) (hdel : s.deletedOn ≠ []) :
    (∀ d, ¬ HoldsKey p k ((mirrorAllSecrets client env s.tokens).1.cluster d)) ∧
      ∀ w ∈ (mirrorAllSecrets client env s.tokens).1.log, w.path = p → k ∉ w.data := by
  refine mirrorAllSecrets_induct_read
    (I := fun st => (∀ d, ¬ HoldsKey p k (st.cluster d)) ∧
      ∀ w ∈ st.log, w.path = p → k ∉ w.data)
    (D := fun path data => path = p → k ∉ data ∧ "" ∉ data) ?_ ?_ ⟨hs hdel, by simp⟩
  · intro path _ st d data hst hread hpath
    subst hpath
    constructor
    · intro hmem
      exact hst.1 d (key_of_readSecret hread hmem).2
    · intro hmem
      exact (key_of_readSecret hread hmem).1 rfl
  · intro path hpath st d data m hst hdata
    constructor
    · intro d'
      simp only [writeDevice, Function.update_apply, client_writeSecret]
      split
      · by_cases heq : path = p
        · subst heq
          exact not_holdsKey_writeSecret_self (hst.1 d) (hdata rfl).1 (hdata rfl).2 _
        · exact not_holdsKey_writeSecret_of_incomparable (h hdel path hpath heq) (hst.1 d) _ _
      · exact hst.1 d'
    · intro w hw
      simp only [writeDevice, List.mem_append, List.mem_singleton] at hw
      rcases hw with hw | rfl
      · exact hst.2 w hw
      · intro heq
        exact (hdata heq).1

end Steps

private theorem step_safe {p k : String} (s : State) (op : Op) (hs : Inv p k s)
    (h : Undisturbed p k s op) : Inv p k (step p k s op) ∧ Safe p k s op := by
  cases op with
  | write f path req => exact ⟨inv_write hs f path req h, trivial⟩
  | deleteKey f path key => exact ⟨inv_deleteKey hs f path key h, trivial⟩
  | sweep env =>
    constructor
    · intro hdel
      exact (sweep_without_key hs h hdel).1
    · intro w hw hpath hdevice
      exact (sweep_without_key hs h (List.ne_nil_of_mem hdevice)).2 w hw hpath

/-- In an undisturbed run no sweep gives a deleted key back to a device. -/
theorem deleted_key_stays_deleted (p k : String) (tokens : Cluster Token) (ops : List Op)
    (h : Along (step p k) (Undisturbed p k) { tokens, deletedOn := [] } ops) :
    Along (step p k) (Safe p k) { tokens, deletedOn := [] } ops := by
  apply h.of_invariant (Inv p k) step_safe
  intro hdel
  exact absurd rfl hdel

private def midnight : Foundation.Rfc3339.Instant := .ofUnix 1735689600

private def blank : State := { tokens := fun _ => [], deletedOn := [] }

private theorem nodup_both : ["A", "B"].Nodup := by decide

private def writeBoth : Op :=
  .write (.reaching ["A", "B"] nodup_both midnight) "db"
    { data := ((∅ : Std.ExtTreeMap String String).insert "password" "hunter2").insert "user" "app"
      metadata := none }

private def deletePasswordOn (clients : List String) (nodup : clients.Nodup) : List Op :=
  [writeBoth,
    .deleteKey (.reaching clients nodup midnight) "db" "password",
    .sweep { devices := ["A", "B"], stampAt := fun _ => midnight }]

/-- The copies tie at one version and timestamp, and the device that was missed is the first. -/
theorem sweep_returns_password :
    ¬ Along (step "db" "password") (Safe "db" "password") blank
      (deletePasswordOn ["B"] (by decide)) := by
  decide +kernel

theorem password_stays_deleted :
    Along (step "db" "password") (Safe "db" "password") blank
      (deletePasswordOn ["A", "B"] nodup_both) := by
  refine deleted_key_stays_deleted "db" "password" (fun _ => []) _ ⟨?_, ?_, ?_, trivial⟩
  · intro hdel
    exact absurd rfl hdel
  · intro _ _ _ d hholds
    by_cases hd : d ∈ ["A", "B"]
    · refine ⟨hd, rfl, ?_⟩
      have honce : ∀ d ∈ ["A", "B"],
          HoldsOnce "db" "password" ((step "db" "password" blank writeBoth).tokens d) := by
        decide +kernel
      exact honce d hd
    · obtain ⟨o, ho, _⟩ := hholds
      simp [writeBoth, step, Api.Proxy.writeSecret, writeToAllDevices, Fanout.reaching, hd] at ho
  · intro _ path hpath
    revert path
    decide +kernel

end HsmSecretsOperator.System.KeyDeletion
