/- source: kubectl-hsm/pkg/commands/rename_key.go, kubectl-hsm/pkg/client/client.go
   digest: What `kubectl hsm rename-key` leaves of a secret. -/

import HsmSecretsOperator.Kubectl.Merge

set_option autoImplicit false

namespace HsmSecretsOperator.Kubectl.RenameKey

open Client Foundation.Json Foundation.Maps Foundation.Text Hsm.Secret Merge

/-- The loop over the data that was read. -/
def renamedData (existing : Data) (oldKey newKey : Bytes) : Data :=
  translate compare (fun k => if k = oldKey then newKey else k) id existing

/-- What the old key, the new key and the secret fail on, after the secret was read. -/
def checkKeys (existing : Data) (secretName oldKey newKey : Bytes) : Option Bytes :=
  if oldKey ∉ existing then
    some (utf8 "key '" ++ oldKey ++ utf8 "' does not exist in secret '" ++ secretName ++ utf8 "'")
  else if newKey ∈ existing then
    some (utf8 "key '" ++ newKey ++ utf8 "' already exists in secret '" ++ secretName ++
      utf8 "'. Cannot rename to existing key")
  else none

variable {existing : Data} {secret : SecretData}

theorem checkKeys_eq_none {secretName oldKey newKey : Bytes} :
    checkKeys existing secretName oldKey newKey = none ↔ oldKey ∈ existing ∧ newKey ∉ existing := by
  unfold checkKeys
  split
  next hold => simp [hold]
  next hold =>
    split
    next hnew => simp [hnew]
    next hnew => simp [hnew, not_not.mp hold]

def validate (secretName oldKey newKey : Bytes) : Option Bytes :=
  if secretName = [] then some (utf8 "secret name is required")
  else if oldKey = [] then some (utf8 "old key name is required")
  else if newKey = [] then some (utf8 "new key name is required")
  else if oldKey = newKey then some (utf8 "old key and new key must be different")
  else none

/-- The stored secret after the command, and its error. The second argument is the error of making
the client, if there is one. -/
def run (stored : Option SecretData) (noClient : Option Bytes) (env : Exchange)
    (secretName oldKey newKey : Bytes) : Option SecretData × Option Bytes :=
  match validate secretName oldKey newKey, noClient with
  | some err, _ => (stored, some err)
  | none, some err => (stored, some err)
  | none, none =>
    match getSecret stored env with
    | .error err =>
      (stored, some (utf8 "failed to read secret '" ++ secretName ++ utf8 "': " ++ err))
    | .ok existing =>
      match checkKeys existing secretName oldKey newKey with
      | some err => (stored, some err)
      | none =>
        let result :=
          createSecretWithOptions stored env (renamedData existing oldKey newKey) true
        (result.1, result.2.map fun err => utf8 "failed to rename key in secret: " ++ err)

private theorem rename_inj {oldKey newKey : Bytes} (hnew : newKey ∉ existing) :
    ∀ a ∈ existing, ∀ b ∈ existing,
      (if b = oldKey then newKey else b) = (if a = oldKey then newKey else a) → b = a := by
  intro a ha b hb heq
  split at heq
  next hbold =>
    split at heq
    next haold => rw [hbold, haold]
    next => exact absurd (heq ▸ ha) hnew
  next =>
    split at heq
    next => exact absurd (heq ▸ hb) hnew
    next => exact heq

theorem getElem?_renamedData_of_some {oldKey newKey k : Bytes} {v : Any}
    (hnew : newKey ∉ existing) (hk : existing[k]? = some v) :
    (renamedData existing oldKey newKey)[if k = oldKey then newKey else k]? = some v :=
  getElem?_translate _ id hk (rename_inj hnew k (mem_of_getElem? hk))

theorem getElem?_renamedData {oldKey newKey : Bytes} (hnew : newKey ∉ existing) (k : Bytes) :
    (renamedData existing oldKey newKey)[k]? =
      if k = newKey then existing[oldKey]? else if k = oldKey then none else existing[k]? := by
  cases h : (renamedData existing oldKey newKey)[k]? with
  | some v =>
    obtain ⟨a, w, hget, rfl, rfl⟩ := of_getElem?_translate h
    by_cases ha : a = oldKey
    · rw [if_pos ha, if_pos rfl, ← ha]
      exact hget.symm
    · have hanew : a ≠ newKey := fun heq => hnew (heq ▸ mem_of_getElem? hget)
      rw [if_neg ha, if_neg hanew, if_neg ha]
      exact hget.symm
  | none =>
    split
    next hk =>
      cases hget : existing[oldKey]? with
      | none => rfl
      | some v =>
        have hmoved : (renamedData existing oldKey newKey)[if oldKey = oldKey then newKey
            else oldKey]? = some v := getElem?_renamedData_of_some hnew hget
        rw [hk] at h
        rw [if_pos rfl, h] at hmoved
        cases hmoved
    next =>
      split
      next => rfl
      next hk =>
        cases hget : existing[k]? with
        | none => rfl
        | some v =>
          have hstayed : (renamedData existing oldKey newKey)[if k = oldKey then newKey
              else k]? = some v := getElem?_renamedData_of_some hnew hget
          rw [if_neg hk, h] at hstayed
          cases hstayed

def Renamed (secret : SecretData) (oldKey newKey : Bytes) (after : SecretData) : Prop :=
  ∃ old new value, oldKey = utf8 old ∧ newKey = utf8 new ∧ secret[old]? = some value ∧
    after = (secret.erase old).insert new value

theorem bound_renamedData {old new : String} {value : Bytes}
    (hold : secret[old]? = some value) (hnew : utf8 new ∉ plain secret) :
    translate compare textOf posted (renamedData (plain secret) (utf8 old) (utf8 new)) =
      ((secret.erase old).insert new value).map fun _ v => utf8 (textOf v) := by
  have hkeys : ∀ k ∈ renamedData (plain secret) (utf8 old) (utf8 new), ∃ key, k = utf8 key := by
    intro k hk
    obtain ⟨a, ha, rfl⟩ := mem_translate.mp hk
    obtain ⟨key, -, rfl⟩ := mem_plain.mp ha
    split
    · exact ⟨new, rfl⟩
    · exact ⟨key, rfl⟩
  refine Std.ExtTreeMap.ext_getElem? fun key => ?_
  have hplain : ∀ key : String, (plain secret)[utf8 key]? = secret[key]?.map Any.string :=
    getElem?_translate_of_injective utf8_injective Any.string secret
  rw [getElem?_bound hkeys, Std.ExtTreeMap.getElem?_map, getElem?_renamedData hnew,
    Std.ExtTreeMap.getElem?_insert, Std.ExtTreeMap.getElem?_erase, hplain, hplain, hold]
  simp only [Std.LawfulEqCmp.compare_eq_iff_eq, utf8_injective.eq_iff, eq_comm (a := key)]
  split
  · rfl
  split
  · rfl
  · cases secret[key]? with
    | none => rfl
    | some v => rfl

private theorem forall_values_renamed {old new : String} {value : Bytes}
    {P : Bytes → Prop} (hold : secret[old]? = some value) (hnew : utf8 new ∉ plain secret) :
    (∀ (key : String) v, ((secret.erase old).insert new value)[key]? = some v → P v) ↔
      ∀ (key : String) v, secret[key]? = some v → P v := by
  simp only [Std.ExtTreeMap.getElem?_insert, Std.ExtTreeMap.getElem?_erase,
    Std.LawfulEqCmp.compare_eq_iff_eq]
  constructor
  · intro h key v hv
    by_cases hkey : key = old
    · refine h new v ?_
      rw [if_pos rfl, ← hold, ← hkey, hv]
    · refine h key v ?_
      have hother : new ≠ key := by
        rintro rfl
        exact hnew (mem_plain.mpr ⟨new, mem_of_getElem? hv, rfl⟩)
      rw [if_neg hother, if_neg fun heq => hkey heq.symm, hv]
  · intro h key v hv
    split at hv
    · cases hv
      exact h old value hold
    split at hv
    · cases hv
    · exact h key v hv

theorem run_ok {noClient : Option Bytes} {env : Exchange} {secretName oldKey newKey : Bytes}
    (h : (run (some secret) noClient env secretName oldKey newKey).2 = none) :
    newKey ∉ plain secret ∧ oldKey ∈ plain secret ∧
      (run (some secret) noClient env secretName oldKey newKey).1 =
        some (translate compare textOf posted (renamedData (plain secret) oldKey newKey)) := by
  unfold run at h ⊢
  cases hvalid : validate secretName oldKey newKey with
  | some err => simp [hvalid] at h
  | none =>
    cases noClient with
    | some err => simp [hvalid] at h
    | none =>
      by_cases hserved : env.get = .served ∧ env.part = .intact
      · rw [hvalid] at h
        simp only [getSecret_served secret hserved.1 hserved.2] at h ⊢
        cases hcheck : checkKeys (plain secret) secretName oldKey newKey with
        | some err => simp [hcheck] at h
        | none =>
          simp only [hcheck, Option.map_eq_none_iff] at h
          obtain ⟨after, hstored, hbind⟩ := postSecret_ok h
          obtain ⟨-, rfl⟩ := bindData_eq_some.mp hbind
          obtain ⟨hold, hnew⟩ := checkKeys_eq_none.mp hcheck
          exact ⟨hnew, hold, hstored⟩
      · rw [hvalid] at h
        rcases getSecret_of_not_served secret hserved with hread | ⟨err, hread⟩
        · -- An answer without data has no old key.
          simp [hread, checkKeys] at h
        · simp [hread] at h

/-- Renaming is exact if and only if everything that is posted is text. -/
theorem rename_exact_iff {secret : SecretData} {noClient : Option Bytes} {env : Exchange}
    {secretName oldKey newKey : Bytes}
    (h : (run (some secret) noClient env secretName oldKey newKey).2 = none) :
    (∃ after, (run (some secret) noClient env secretName oldKey newKey).1 = some after ∧
      Renamed secret oldKey newKey after) ↔
      (∃ new, newKey = utf8 new) ∧ TextValues secret := by
  obtain ⟨hnew, hmem, hstored⟩ := run_ok h
  obtain ⟨old, hold, rfl⟩ := mem_plain.mp hmem
  rw [hstored]
  simp only [Option.some.injEq, exists_eq_left']
  constructor
  · rintro ⟨old', new, value, heq, rfl, hvalue, hafter⟩
    obtain rfl := utf8_inj heq
    rw [bound_renamedData hvalue hnew] at hafter
    have hall := map_eq_self_iff.mp hafter
    refine ⟨⟨new, rfl⟩, (forall_values_renamed hvalue hnew).mp fun key v hv => ?_⟩
    exact utf8_textOf_iff.mp (hall key v hv)
  · rintro ⟨⟨new, rfl⟩, hvalues⟩
    obtain ⟨value, hvalue⟩ := exists_getElem?_of_mem hold
    refine ⟨old, new, value, rfl, rfl, hvalue, ?_⟩
    rw [bound_renamedData hvalue hnew]
    refine map_eq_self_iff.mpr fun key v hv => utf8_textOf_iff.mpr ?_
    exact (forall_values_renamed hvalue hnew).mpr hvalues key v hv

private def tls : SecretData := assign ∅ Prod.fst Prod.snd [("crt", utf8 "MII"), ("ca", utf8 "B64")]

theorem exact_iff_tls :
    (∃ after, (run (some tls) none {} (utf8 "tls") (utf8 "crt") (utf8 "cert")).1 = some after ∧
      Renamed tls (utf8 "crt") (utf8 "cert") after) ↔
      (∃ new, utf8 "cert" = utf8 new) ∧ TextValues tls :=
  rename_exact_iff (by decide +kernel)

private def keystore : SecretData := assign ∅ Prod.fst Prod.snd [("p12", [0x30, 0x82])]

/-- The second byte is not text, and the replacement character is stored in its place. -/
theorem binary_value_replaced :
    run (some keystore) none {} (utf8 "keystore") (utf8 "p12") (utf8 "pfx") =
      (some (assign ∅ Prod.fst Prod.snd [("pfx", [0x30, 0xef, 0xbf, 0xbd])]), none) := by
  decide +kernel

end HsmSecretsOperator.Kubectl.RenameKey
