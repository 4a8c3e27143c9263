/- source: internal/api/proxy_client.go, internal/mirror/manager.go, internal/hsm/pkcs11_client.go
   digest: Whether a deleted secret comes back when writes, deletes and sweeps run on tokens. -/

import HsmSecretsOperator.Api.Proxy
import HsmSecretsOperator.Foundation.Runs
import HsmSecretsOperator.Hsm.Pkcs11
import HsmSecretsOperator.Mirror.Sweep

/-! A delete leaves a metadata object only, which neither `ReadSecret` nor `ListSecrets` accepts. -/

set_option autoImplicit false

namespace HsmSecretsOperator.System.Deletion

open Api.Proxy Foundation.Runs Foundation.Text Hsm.Pkcs11 Hsm.Secret Mirror.Sweep

/-- An operation on the cluster; the fan-out or the environment says whom it reaches. -/
inductive Op where
  | write (f : Fanout) (path : String) (req : WriteRequest)
  | delete (f : Fanout) (path : String)
  | sweep (env : SweepEnv)

/-- The tokens, and whether the last acknowledged mutation of the observed path deleted it. -/
structure State where
  tokens : Cluster Token
  deleted : Bool

/-- One operation, with `p` as the observed path. -/
def step (p : String) (s : State) : Op → State
  | .write f path req =>
    { tokens := Api.Proxy.writeSecret client f s.tokens path req
      deleted := s.deleted && !(path = p && f.acknowledged) }
  | .delete f path =>
    { tokens := Api.Proxy.deleteSecret client f s.tokens path
      deleted := s.deleted || (path = p && f.acknowledged) }
  | .sweep env =>
    { tokens := (mirrorAllSecrets client env s.tokens).1.cluster, deleted := s.deleted }

/-- The token holds the tombstone of the path. -/
def holdsTombstone (p : String) (t : Token) : Bool :=
  match Hsm.Pkcs11.readMetadata t p with
  | .ok m => metadataDeleted (some m)
  | .error _ => false

/-- While the path is deleted, a sweep writes no live data for it where the tombstone is. -/
def Safe (p : String) (s : State) : Op → Prop
  | .sweep env => s.deleted = true → ∀ w ∈ (mirrorAllSecrets client env s.tokens).1.log,
      w.path = p → w.data.isEmpty = false → holdsTombstone p w.before = false
  | .write .. => True
  | .delete .. => True

instance (p : String) (s : State) : ∀ op, Decidable (Safe p s op)
  | .sweep env => inferInstanceAs (Decidable (s.deleted = true →
      ∀ w ∈ (mirrorAllSecrets client env s.tokens).1.log,
        w.path = p → w.data.isEmpty = false → holdsTombstone p w.before = false))
  | .write .. => inferInstanceAs (Decidable True)
  | .delete .. => inferInstanceAs (Decidable True)

/-- The token holds an object that a read of the path accepts. -/
def HasLive (p : String) (t : Token) : Prop :=
  ∃ o ∈ t, belongsTo p o = true ∧ isMetadata o = false

/-- An acknowledged delete of the path reaches every device with an object of it, and one search
covers those tokens. While the path is deleted, other paths that are written share no prefix with
it, and other paths that are listed are no prefixes of it. -/
def Undisturbed (p : String) (s : State) : Op → Prop
  | .write _ path _ => s.deleted = true → path ≠ p → Incomparable path p
  | .delete f path => path = p → f.acknowledged = true → ∀ d, HasLive p (s.tokens d) →
      d ∈ f.clients ∧ f.accepts d = true ∧ Fits (s.tokens d)
  | .sweep env => s.deleted = true → ∀ path ∈ discoverAllSecrets client env s.tokens,
      path ≠ p → hasPrefix p path = false

variable {p q : String} {t : Token} {s : State}

private theorem not_hasLive_writeSecret (h : Incomparable q p)
    (ht : ¬ HasLive p t) (data : SecretData) (metadata : Option SecretMetadata) :
    ¬ HasLive p (Hsm.Pkcs11.writeSecret t q data metadata) := by
  rintro ⟨o, ho, hbelongs, hmeta⟩
  exact ht ⟨o, mem_of_mem_writeSecret ⟨h.2, h.1⟩ ho hbelongs, hbelongs, hmeta⟩

private theorem not_hasLive_tombstone (ht : ¬ HasLive p t)
    (m : SecretMetadata) : ¬ HasLive p (Hsm.Pkcs11.writeSecret t q ∅ (some m)) := by
  rintro ⟨o, ho, hbelongs, hmeta⟩
  rw [writeSecret_eq, List.mem_append] at ho
  rcases ho with hold | hnew
  · exact ht ⟨o, mem_of_mem_deleteSecretObjects hold, hbelongs, hmeta⟩
  · obtain rfl : o = ⟨q ++ metadataKeySuffix, Hsm.MetadataJson.marshal m⟩ := by
      simpa [newObjects] using hnew
    simp [isMetadata] at hmeta

private theorem not_hasLive_deleteSecretObjects
    (ht : ¬ HasLive p t) : ¬ HasLive p (deleteSecretObjects t q) := by
  rintro ⟨o, ho, h⟩
  exact ht ⟨o, mem_of_mem_deleteSecretObjects ho, h⟩

private theorem not_hasLive_deleteSecretObjects_self (p : String) (h : Fits t) :
    ¬ HasLive p (deleteSecretObjects t p) := by
  rintro ⟨o, ho, hbelongs, _⟩
  rw [deleteSecretObjects_of_fits h] at ho
  have := (List.mem_filter.mp ho).2
  simp [hbelongs] at this

private theorem hasLive_of_listed (hq : hasPrefix q p = true)
    (h : q ∈ listSecrets t "") : HasLive p t := by
  obtain ⟨o, ho, hlabel, hmeta, rfl⟩ := mem_listSecrets.mp h
  refine ⟨o, List.mem_of_mem_take ho, ?_, hmeta⟩
  simp [belongsTo, hlabel, hasPrefix_trans (hasPrefix_listedPath o.label) hq]

/-- While the path is deleted, no token holds an object of it. -/
def Inv (p : String) (s : State) : Prop := s.deleted = true → ∀ d, ¬ HasLive p (s.tokens d)

private theorem inv_write {p : String} (hs : Inv p s) (f : Fanout) (path : String)
    (req : WriteRequest) (h : Undisturbed p s (.write f path req)) :
    Inv p (step p s (.write f path req)) := by
  intro hdel d
  simp only [step, Bool.and_eq_true, Bool.not_eq_true', Bool.and_eq_false_iff,
    decide_eq_false_iff_not] at hdel ⊢
  obtain ⟨hdel, hother | hnack⟩ := hdel
  · simp only [Api.Proxy.writeSecret, writeToAllDevices, client_writeSecret]
    split
    · exact not_hasLive_writeSecret (h hdel hother) (hs hdel d) _ _
    · exact hs hdel d
  · rw [writeSecret_of_not_acknowledged client hnack]
    exact hs hdel d

private theorem inv_delete {p : String} (hs : Inv p s) (f : Fanout) (path : String)
    (h : Undisturbed p s (.delete f path)) : Inv p (step p s (.delete f path)) := by
  intro hdel d
  simp only [step, Bool.or_eq_true, Bool.and_eq_true, decide_eq_true_eq] at hdel ⊢
  simp only [Api.Proxy.deleteSecret, tombstoneDeleteFromAllDevices]
  -- Either no token had an object of the path, or this delete reaches all that do.
  by_cases hlive : HasLive p (s.tokens d)
  · rcases hdel with hdel | ⟨rfl, hack⟩
    · exact absurd hlive (hs hdel d)
    · obtain ⟨hmem, hacc, hfits⟩ := h rfl hack d hlive
      rw [if_pos ⟨hmem, hacc⟩]
      exact not_hasLive_tombstone (not_hasLive_deleteSecretObjects_self path hfits) _
  · split
    · exact not_hasLive_tombstone (not_hasLive_deleteSecretObjects hlive) _
    · exact hlive

private theorem sweep_writes_elsewhere {p : String} (hs : Inv p s) {env : SweepEnv}
    (h : Undisturbed p s (.sweep env)) (hdel : s.deleted = true) :
    (∀ d, ¬ HasLive p ((mirrorAllSecrets client env s.tokens).1.cluster d)) ∧
      ∀ w ∈ (mirrorAllSecrets client env s.tokens).1.log, w.path ≠ p := by
  refine mirrorAllSecrets_induct
    (I := fun st => (∀ d, ¬ HasLive p (st.cluster d)) ∧ ∀ w ∈ st.log, w.path ≠ p) ?_
    ⟨hs hdel, by simp⟩
  intro path hpath _ _ _ st d data m hst
  obtain ⟨x, _, _, hlisted⟩ := mem_discoverAllSecrets.mp hpath
  -- A path that extends the deleted one would be listed for an object of the deleted one.
  have hnot : hasPrefix path p = false := by
    rw [Bool.eq_false_iff]
    exact fun hfront => hs hdel x (hasLive_of_listed hfront hlisted)
  have hne : path ≠ p := by
    rintro rfl
    simp at hnot
  have hinc : Incomparable path p := ⟨hnot, h hdel path hpath hne⟩
  constructor
  · intro d'
    simp only [writeDevice, Function.update_apply, client_writeSecret]
    split
    · exact not_hasLive_writeSecret hinc (hst.1 d) data _
    · exact hst.1 d'
  · intro w hw
    simp only [writeDevice, List.mem_append, List.mem_singleton] at hw
    rcases hw with hw | rfl
    · exact hst.2 w hw
    · exact hne

private theorem step_safe {p : String} (s : State) (op : Op) (hs : Inv p s)
    (h : Undisturbed p s op) : Inv p (step p s op) ∧ Safe p s op := by
  cases op with
  | write f path req => exact ⟨inv_write hs f path req h, trivial⟩
  | delete f path => exact ⟨inv_delete hs f path h, trivial⟩
  | sweep env =>
    constructor
    · intro hdel
      exact (sweep_writes_elsewhere hs h hdel).1
    · intro hdel w hw hpath
      exact absurd hpath ((sweep_writes_elsewhere hs h hdel).2 w hw)

/-- In an undisturbed run no sweep brings a deleted secret back where its tombstone is. -/
theorem deleted_stays_deleted (p : String) (tokens : Cluster Token) (ops : List Op)
    (h : Along (step p) (Undisturbed p) { tokens, deleted := false } ops) :
    Along (step p) (Safe p) { tokens, deleted := false } ops :=
  h.of_invariant (Inv p) step_safe fun hdel => by cases hdel

private def midnight : Foundation.Rfc3339.Instant := .ofUnix 1735689600

private def blank : State := { tokens := fun _ => [], deleted := false }

private def writeBoth : Op :=
  .write (.reaching ["A", "B"] (by decide) midnight) "db"
    { data := (∅ : Std.ExtTreeMap String String).insert "password" "hunter2", metadata := none }

private def deleteOn (clients : List String) (nodup : clients.Nodup) : List Op :=
  [writeBoth,
    .delete (.reaching clients nodup midnight) "db",
    .sweep { devices := ["A", "B"], stampAt := fun _ => midnight }]

/-- The delete misses a device, whose copy the sweep takes for the only one. -/
theorem sweep_revives_db :
    ¬ Along (step "db") (Safe "db") blank (deleteOn ["A"] (by decide)) := by
  decide +kernel

theorem deleted_stays_deleted_db :
    Along (step "db") (Safe "db") blank (deleteOn ["A", "B"] (by decide)) := by
  refine deleted_stays_deleted "db" (fun _ => []) _ ⟨?_, ?_, ?_, trivial⟩
  · intro hdel
    cases hdel
  · intro _ _ d hlive
    by_cases hd : d ∈ ["A", "B"]
    · refine ⟨hd, rfl, ?_⟩
      have hfits : ∀ d ∈ ["A", "B"], Fits ((step "db" blank writeBoth).tokens d) := by
        decide +kernel
      exact hfits d hd
    · obtain ⟨o, ho, _⟩ := hlive
      simp [writeBoth, step, Api.Proxy.writeSecret, writeToAllDevices, Fanout.reaching, hd] at ho
  · intro _ path hpath
    revert path
    decide +kernel

end HsmSecretsOperator.System.Deletion
