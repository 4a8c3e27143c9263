/- source: kubectl-hsm/pkg/client/client.go, kubectl-hsm/pkg/commands/create.go
   digest: What `kubectl hsm create` makes of the keys that a secret has already. -/

import HsmSecretsOperator.Foundation.Runes
import HsmSecretsOperator.Kubectl.Client

set_option autoImplicit false

namespace HsmSecretsOperator.Kubectl.Merge

open Client Foundation Foundation.Json Foundation.Maps Foundation.Runes Foundation.Text Hsm.Secret

theorem getElem?_mergeData (existing data : Data) (k : Bytes) :
    (mergeData existing data)[k]? = data[k]?.or existing[k]? := by
  unfold mergeData
  cases h : data[k]? with
  | some v =>
    have hmem : (k, v) ∈ data.toList := Std.ExtTreeMap.mem_toList_iff_getElem?_eq_some.mpr h
    refine getElem?_assign_of_mem existing Prod.fst Prod.snd hmem fun e he heq => ?_
    have hentry := Std.ExtTreeMap.mem_toList_iff_getElem?_eq_some.mp he
    rw [show e.1 = k from heq, h] at hentry
    exact (Option.some.inj hentry).symm
  | none =>
    rw [getElem?_assign_of_forall_ne, Option.none_or]
    rintro e he rfl
    have hentry := Std.ExtTreeMap.mem_toList_iff_getElem?_eq_some.mp he
    rw [h] at hentry
    cases hentry

theorem mergeData_empty (data : Data) : mergeData ∅ data = data := by
  refine Std.ExtTreeMap.ext_getElem? fun k => ?_
  rw [getElem?_mergeData, Std.ExtTreeMap.getElem?_empty, Option.or_none]

theorem bindData_eq_some {data : Data} {after : SecretData} :
    bindData data = some after ↔
      (∀ k : Bytes, data[k]? ≠ some .other) ∧ translate compare textOf posted data = after := by
  have hany : (data.toList.any fun e => e.2 = .other) = true ↔
      ∃ k : Bytes, data[k]? = some .other := by
    simp only [List.any_eq_true, decide_eq_true_eq, Prod.exists,
      Std.ExtTreeMap.mem_toList_iff_getElem?_eq_some]
    constructor
    · rintro ⟨k, v, hv, rfl⟩
      exact ⟨k, hv⟩
    · rintro ⟨k, hk⟩
      exact ⟨k, .other, hk, rfl⟩
  unfold bindData
  split
  next h =>
    obtain ⟨k, hk⟩ := hany.mp h
    simp only [reduceCtorEq, false_iff]
    exact fun hall => hall.1 k hk
  next h =>
    rw [Option.some.injEq]
    refine (and_iff_right fun k hk => h (hany.mpr ⟨k, hk⟩)).symm

theorem of_mem_bound {data : Data} {key : String} {value : Bytes}
    (h : (translate compare textOf posted data : SecretData)[key]? = some value) :
    ∃ s, value = utf8 s := by
  obtain ⟨k, v, -, -, rfl⟩ := of_getElem?_translate h
  cases v with
  | string text => exact ⟨textOf text, rfl⟩
  | nil => exact ⟨"", rfl⟩
  | other => exact ⟨"", rfl⟩

theorem getElem?_bound {data : Data} (hkeys : ∀ k ∈ data, ∃ key, k = utf8 key) (key : String) :
    (translate compare textOf posted data : SecretData)[key]? = data[utf8 key]?.map posted := by
  cases h : data[utf8 key]? with
  | some v =>
    have hget : (translate compare textOf posted data : SecretData)[textOf (utf8 key)]? =
        some (posted v) := by
      refine getElem?_translate textOf posted h fun k hk heq => ?_
      obtain ⟨other, rfl⟩ := hkeys k hk
      rw [textOf_utf8, textOf_utf8] at heq
      rw [heq]
    rwa [textOf_utf8] at hget
  | none =>
    cases hget : (translate compare textOf posted data : SecretData)[key]? with
    | none => rfl
    | some value =>
      obtain ⟨k, v, hk, rfl, -⟩ := of_getElem?_translate hget
      obtain ⟨other, rfl⟩ := hkeys k (mem_of_getElem? hk)
      rw [textOf_utf8, hk] at h
      cases h

theorem postSecret_ok {stored : Option SecretData} {env : Exchange} {data : Data}
    (h : (postSecret stored env data).2 = none) :
    ∃ after, (postSecret stored env data).1 = some after ∧ bindData data = some after := by
  unfold postSecret at h ⊢
  cases hpost : env.post with
  | served =>
    rw [hpost] at h
    cases hbind : bindData data with
    | none => simp [doRequest, writeSecret, hbind] at h
    | some after => exact ⟨after, rfl, rfl⟩
  | _ => simp [hpost, doRequest] at h

/-- The secret has every key that was not given with its value, and every given key with the value
given. -/
structure Merged (secret : SecretData) (data : Data) (after : SecretData) : Prop where
  kept : ∀ key value, secret[key]? = some value → utf8 key ∉ data → after[key]? = some value
  given : ∀ k v, data[k]? = some v →
    ∃ key text, k = utf8 key ∧ v = .string text ∧ after[key]? = some text

/-- Nothing that is kept can be decoded, and what is given is text. -/
structure PlainText (secret : SecretData) (data : Data) : Prop where
  kept : ∀ key value, secret[key]? = some value → utf8 key ∉ data →
    value = [] ∨ Base64.decode value = none
  given : TextEntries data

theorem utf8_textOf_ne_of_decode {value decoded : Bytes} (h : Base64.decode value = some decoded)
    (hne : value ≠ []) : utf8 (textOf decoded) ≠ value := by
  intro heq
  have hascii : ∀ b ∈ utf8 (textOf decoded), b.toNat < 128 := by
    rw [heq]
    exact Base64.ascii_of_decode h
  have hlength := length_utf8_of_ascii hascii
  rw [heq] at hlength
  have hshorter := Base64.length_lt_of_decode h hne
  have htext := length_textOf_le decoded
  omega

theorem posted_decodeBase64Value_iff {value : Bytes} (hvalue : ∃ s, value = utf8 s) :
    posted (decodeBase64Value (.string value)) = value ↔
      value = [] ∨ Base64.decode value = none := by
  cases hdecode : Base64.decode value with
  | none =>
    simp only [decodeBase64Value, hdecode, posted, utf8_textOf_iff, hvalue, or_true]
  | some decoded =>
    simp only [decodeBase64Value, hdecode, posted, reduceCtorEq, or_false]
    constructor
    · intro heq
      by_contra hne
      exact utf8_textOf_ne_of_decode hdecode hne heq
    · rintro rfl
      obtain rfl : [] = decoded := Option.some.inj hdecode
      rfl

section Create

variable {secret : SecretData} {env : Exchange} {data : Data}

theorem dataToWrite_merging (hget : env.get = .served) (hpart : env.part = .intact) :
    dataToWrite (some secret) env data false =
      mergeData (decodeBase64Data (plain secret)) data := by
  simp [dataToWrite, getSecret_served secret hget hpart]

/-- An existing key that is not given is posted with its value decoded again. -/
theorem getElem?_merged_of_not_mem {key : String} {value : Bytes} (h : secret[key]? = some value)
    (hnot : utf8 key ∉ data) :
    (mergeData (decodeBase64Data (plain secret)) data)[utf8 key]? =
      some (decodeBase64Value (.string value)) := by
  have hplain : (plain secret)[utf8 key]? = some (.string value) :=
    getElem?_plain.mpr ⟨key, value, rfl, h, rfl⟩
  rw [getElem?_mergeData, Std.ExtTreeMap.getElem?_eq_none hnot, Option.none_or, decodeBase64Data,
    Std.ExtTreeMap.getElem?_map, hplain, Option.map_some]

theorem getElem?_merged_of_given {k : Bytes} {v : Any} (h : data[k]? = some v) :
    (mergeData (decodeBase64Data (plain secret)) data)[k]? = some v := by
  rw [getElem?_mergeData, h, Option.some_or]

theorem keys_merged (hgiven : TextEntries data) :
    ∀ k ∈ mergeData (decodeBase64Data (plain secret)) data, ∃ key, k = utf8 key := by
  intro k hk
  rw [mergeData, mem_assign] at hk
  rcases hk with hk | ⟨e, he, rfl⟩
  · rw [decodeBase64Data, Std.ExtTreeMap.mem_map, mem_plain] at hk
    obtain ⟨key, -, rfl⟩ := hk
    exact ⟨key, rfl⟩
  · obtain ⟨key, text, heq, -⟩ := hgiven e.1 e.2
      (Std.ExtTreeMap.mem_toList_iff_getElem?_eq_some.mp he)
    exact ⟨key, heq⟩

theorem create_merges_iff (hvalues : TextValues secret)
    (hget : env.get = .served) (hpart : env.part = .intact)
    (hpost : (createSecretWithOptions (some secret) env data false).2 = none) :
    (∃ after, (createSecretWithOptions (some secret) env data false).1 = some after ∧
      Merged secret data after) ↔ PlainText secret data := by
  unfold createSecretWithOptions at hpost ⊢
  rw [dataToWrite_merging hget hpart] at hpost ⊢
  obtain ⟨after, hstored, hbind⟩ := postSecret_ok hpost
  obtain ⟨-, rfl⟩ := bindData_eq_some.mp hbind
  rw [hstored]
  simp only [Option.some.injEq, exists_eq_left']
  constructor
  · intro h
    have hgiven : TextEntries data := by
      intro k v hv
      obtain ⟨key, text, rfl, rfl, hafter⟩ := h.given k v hv
      obtain ⟨s, rfl⟩ := of_mem_bound hafter
      exact ⟨key, s, rfl, rfl⟩
    refine ⟨fun key value hvalue hnot => ?_, hgiven⟩
    have hafter := h.kept key value hvalue hnot
    rw [getElem?_bound (keys_merged hgiven), getElem?_merged_of_not_mem hvalue hnot,
      Option.map_some, Option.some.injEq] at hafter
    exact (posted_decodeBase64Value_iff (hvalues key value hvalue)).mp hafter
  · intro h
    refine ⟨fun key value hvalue hnot => ?_, fun k v hv => ?_⟩
    · rw [getElem?_bound (keys_merged h.given), getElem?_merged_of_not_mem hvalue hnot,
        Option.map_some, Option.some.injEq]
      exact (posted_decodeBase64Value_iff (hvalues key value hvalue)).mpr
        (h.kept key value hvalue hnot)
    · obtain ⟨key, text, rfl, rfl⟩ := h.given k v hv
      refine ⟨key, utf8 text, rfl, rfl, ?_⟩
      rw [getElem?_bound (keys_merged h.given), getElem?_merged_of_given hv, Option.map_some,
        posted, textOf_utf8]

end Create

private def login : SecretData := assign ∅ Prod.fst Prod.snd [("password", utf8 "test")]

private def user : Data := assign ∅ Prod.fst Prod.snd [(utf8 "user", .string (utf8 "admin"))]

/-- The value reads as base64, so it comes back as the three bytes it would stand for, two of which
are not text. -/
theorem encoded_looking_value_changed :
    ∃ after, createSecretWithOptions (some login) {} user false = (some after, none) ∧
      after["password"]? = some (utf8 "\ufffd\ufffd-") := by
  refine ⟨assign login Prod.fst Prod.snd
    [("user", utf8 "admin"), ("password", utf8 "\ufffd\ufffd-")], ?_, ?_⟩
  · decide +kernel
  · decide +kernel

private def mail : SecretData := assign ∅ Prod.fst Prod.snd [("password", utf8 "s3cr3t!")]

theorem merges_iff_mail :
    (∃ after, (createSecretWithOptions (some mail) {} user false).1 = some after ∧
      Merged mail user after) ↔ PlainText mail user := by
  refine create_merges_iff (fun key value h => ?_) rfl rfl (by decide +kernel)
  rcases of_getElem?_assign h with h | ⟨e, he, -, rfl⟩
  · simp at h
  · rw [List.mem_singleton.mp he]
    exact ⟨"s3cr3t!", rfl⟩

/-- The request overwrites the secret: it is carried out, and its values can be read as strings. -/
def Overwrites (env : Exchange) (data : Data) : Prop :=
  env.post.arrives = true ∧ ∀ k : Bytes, data[k]? ≠ some .other

theorem dataToWrite_of_not_served (secret : SecretData) {env : Exchange}
    (h : ¬ (env.get = .served ∧ env.part = .intact)) (data : Data) :
    dataToWrite (some secret) env data false = data := by
  unfold dataToWrite
  rcases getSecret_of_not_served secret h with hread | ⟨err, hread⟩
  · rw [hread]
    exact mergeData_empty data
  · rw [hread]
    rfl

theorem create_keeps_keys_iff (secret : SecretData) {env : Exchange}
    (hread : ¬ (env.get = .served ∧ env.part = .intact)) (data : Data) :
    (∀ key ∈ secret, ∃ after,
      (createSecretWithOptions (some secret) env data false).1 = some after ∧ key ∈ after) ↔
      (Overwrites env data → ∀ key ∈ secret, ∃ k ∈ data, textOf k = key) := by
  unfold createSecretWithOptions
  rw [dataToWrite_of_not_served secret hread]
  by_cases hover : Overwrites env data
  · have hbind := bindData_eq_some.mpr ⟨hover.2, rfl⟩
    simp only [postSecret, hover.1, if_true, hbind, hover, forall_const]
    simp only [Option.orElse_eq_orElse, Option.orElse_some, Option.some.injEq, exists_eq_left',
      mem_translate]
  · simp only [hover, false_implies, iff_true]
    intro key hkey
    refine ⟨secret, ?_, hkey⟩
    simp only [postSecret]
    split
    next harrives =>
      cases hbind : bindData data with
      | none => rfl
      | some after => exact absurd ⟨harrives, (bindData_eq_some.mp hbind).1⟩ hover
    next => rfl

private def timeout : Exchange where
  get := .unsent (.transport (utf8 "context deadline exceeded"))

theorem keeps_keys_iff_timeout :
    (∀ key ∈ mail, ∃ after,
      (createSecretWithOptions (some mail) timeout user false).1 = some after ∧ key ∈ after) ↔
      (Overwrites timeout user → ∀ key ∈ mail, ∃ k ∈ user, textOf k = key) :=
  create_keeps_keys_iff mail (by rintro ⟨⟨⟩, -⟩) user

private def expired : Exchange where
  get := .refused 401
    (some ⟨utf8 "INVALID_TOKEN", utf8 "authentication token is invalid or expired"⟩) []

theorem refused_read_discards_keys :
    ∃ after, createSecretWithOptions (some mail) expired user false = (some after, none) ∧
      "password" ∉ after := by
  refine ⟨assign ∅ Prod.fst Prod.snd [("user", utf8 "admin")], ?_, ?_⟩
  · decide +kernel
  · decide +kernel

end HsmSecretsOperator.Kubectl.Merge
