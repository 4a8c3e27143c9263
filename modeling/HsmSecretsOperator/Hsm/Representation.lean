/- source: internal/hsm/pkcs11_client.go
   digest: Which objects a token holds for a store of copies, kept by every operation. -/

import HsmSecretsOperator.Hsm.Objects
import HsmSecretsOperator.Hsm.Vault

set_option autoImplicit false

namespace HsmSecretsOperator.Hsm.Representation

open Foundation.Maps Foundation.Text
open MetadataJson (marshal unmarshal_marshal)
open Objects Pkcs11 Secret
open Vault (Copy Store)

structure Represents (paths : List String) (t : Token) (v : Store) : Prop where
  fits : Fits t
  unique : (t.map DataObject.label).Nodup
  objects : ∀ o, o ∈ t ↔ ∃ (path : String) (copy : Copy), v[path]? = some copy ∧
    o ∈ newObjects path copy.data copy.metadata
  used : ∀ (path : String) (copy : Copy), v[path]? = some copy → path ∈ paths
  keys : ∀ (path : String) (copy : Copy), v[path]? = some copy → ∀ key ∈ copy.data, Plain key

theorem mem_newObjects {path : String} {data : SecretData} {metadata : Option SecretMetadata}
    {o : DataObject} : o ∈ newObjects path data metadata ↔
      (∃ key value, data[key]? = some value ∧ o = ⟨labelOf path key, value⟩) ∨
        ∃ m, metadata = some m ∧ o = ⟨path ++ metadataKeySuffix, marshal m⟩ := by
  simp only [newObjects, List.mem_append, List.mem_map, Option.mem_toList, Prod.exists,
    Std.ExtTreeMap.mem_toList_iff_getElem?_eq_some]
  exact or_congr
    (exists₂_congr fun key value => and_congr_right fun _ => eq_comm)
    (exists_congr fun m => and_congr_right fun _ => eq_comm)

variable {paths : List String} (hplain : ∀ p ∈ paths, Plain p)
  (hfree : ∀ p ∈ paths, ∀ q ∈ paths, p ≠ q → Incomparable p q) {t : Token} {v : Store}

theorem represents_empty (paths : List String) : Represents paths [] ∅ where
  fits := Nat.zero_le _
  unique := List.nodup_nil
  objects := by simp
  used := by simp
  keys := by simp

section Reads

variable (h : Represents paths t v) {path : String} (hpath : path ∈ paths)

include h hfree hpath

theorem newObjects_of_belongsTo {o : DataObject} (ho : o ∈ t) (hbelongs : belongsTo path o = true) :
    ∃ copy, v[path]? = some copy ∧ o ∈ newObjects path copy.data copy.metadata := by
  obtain ⟨q, copy, hcopy, hnew⟩ := (h.objects o).mp ho
  by_cases heq : path = q
  · subst heq
    exact ⟨copy, hcopy, hnew⟩
  · have hforeign := belongsTo_of_incomparable (hfree path hpath q (h.used q copy hcopy) heq)
      (hasPrefix_of_mem_newObjects hnew)
    rw [hforeign] at hbelongs
    cases hbelongs

include hplain

theorem mem_entries (e : String × Bytes) : e ∈ t.filterMap (entryOf path) ↔
    ∃ copy, v[path]? = some copy ∧ copy.data[e.1]? = some e.2 := by
  rw [List.mem_filterMap]
  constructor
  · rintro ⟨o, ho, hentry⟩
    have hbelongs : belongsTo path o = true := by
      by_contra hnot
      rw [entryOf_of_not_belongsTo (Bool.eq_false_iff.mpr hnot)] at hentry
      cases hentry
    obtain ⟨copy, hcopy, hnew⟩ := newObjects_of_belongsTo hfree h hpath ho hbelongs
    refine ⟨copy, hcopy, ?_⟩
    rcases mem_newObjects.mp hnew with ⟨key, value, hget, rfl⟩ | ⟨m, _, rfl⟩
    · have hkey := h.keys path copy hcopy key (mem_of_getElem? hget)
      have hlegible := legible_of_plain (hplain path hpath) hkey
      rw [entryOf_of_label (hplain path hpath).1 hlegible rfl] at hentry
      obtain rfl := Option.some.inj hentry
      exact hget
    · rw [entryOf_of_metadata path rfl] at hentry
      cases hentry
  · rintro ⟨copy, hcopy, hget⟩
    have hkey := h.keys path copy hcopy e.1 (mem_of_getElem? hget)
    have hlegible := legible_of_plain (hplain path hpath) hkey
    refine ⟨⟨labelOf path e.1, e.2⟩, ?_, entryOf_of_label (hplain path hpath).1 hlegible rfl⟩
    exact (h.objects _).mpr ⟨path, copy, hcopy, mem_newObjects.mpr (.inl ⟨_, _, hget, rfl⟩)⟩

theorem readSecret_eq : readSecret t path = Vault.readSecret v path := by
  have hmem := mem_entries hplain hfree h hpath
  rw [readSecret_eq_secretOf, take_of_fits h.fits, Vault.readSecret]
  cases hcopy : v[path]? with
  | none =>
    have hnil : t.filterMap (entryOf path) = [] := by
      rw [List.eq_nil_iff_forall_not_mem]
      intro e he
      obtain ⟨copy, hsome, _⟩ := (hmem e).mp he
      rw [hcopy] at hsome
      cases hsome
    rw [hnil]
    rfl
  | some copy =>
    have hdata : assign ∅ Prod.fst Prod.snd (t.filterMap (entryOf path)) = copy.data := by
      refine assign_of_mem_iff copy.data fun e => ?_
      rw [hmem e, hcopy]
      simp
    have hnil : t.filterMap (entryOf path) = [] ↔ copy.data = ∅ := by
      rw [← hdata]
      exact assign_eq_empty_iff.symm
    simp only [secretOf, hdata, hnil, Std.ExtTreeMap.isEmpty_iff]

omit hplain in
theorem mem_described (x : Option SecretMetadata) : x ∈ t.filterMap (describedBy path) ↔
    ∃ copy m, v[path]? = some copy ∧ copy.metadata = some m ∧ x = some m := by
  rw [List.mem_filterMap]
  constructor
  · rintro ⟨o, ho, hdescribed⟩
    have hbelongs : belongsTo path o = true := by
      by_contra hnot
      rw [describedBy_of_not_belongsTo (Bool.eq_false_iff.mpr hnot)] at hdescribed
      cases hdescribed
    obtain ⟨copy, hcopy, hnew⟩ := newObjects_of_belongsTo hfree h hpath ho hbelongs
    rcases mem_newObjects.mp hnew with ⟨key, value, hget, rfl⟩ | ⟨m, hm, rfl⟩
    · have hkey := h.keys path copy hcopy key (mem_of_getElem? hget)
      rw [describedBy_of_label (ne_metadataKey_of_plain hkey) rfl] at hdescribed
      cases hdescribed
    · refine ⟨copy, m, hcopy, hm, ?_⟩
      rw [describedBy, if_pos rfl, unmarshal_marshal] at hdescribed
      exact (Option.some.inj hdescribed).symm
  · rintro ⟨copy, m, hcopy, hm, rfl⟩
    refine ⟨⟨path ++ metadataKeySuffix, marshal m⟩, ?_, ?_⟩
    · exact (h.objects _).mpr ⟨path, copy, hcopy, mem_newObjects.mpr (.inr ⟨m, hm, rfl⟩)⟩
    · rw [describedBy, if_pos rfl, unmarshal_marshal]

omit hplain in
theorem readMetadata_eq : readMetadata t path = Vault.readMetadata v path := by
  have hmem := mem_described hfree h hpath
  rw [readMetadata_eq_metadataOf, take_of_fits h.fits, Vault.readMetadata]
  cases hmeta : v[path]?.bind Copy.metadata with
  | none =>
    have hnil : t.filterMap (describedBy path) = [] := by
      rw [List.eq_nil_iff_forall_not_mem]
      intro x hx
      obtain ⟨copy, m, hcopy, hm, _⟩ := (hmem x).mp hx
      rw [hcopy, Option.bind_some, hm] at hmeta
      cases hmeta
    rw [hnil]
    rfl
  | some m =>
    obtain ⟨copy, hcopy, hm⟩ := Option.bind_eq_some_iff.mp hmeta
    have hne : t.filterMap (describedBy path) ≠ [] :=
      List.ne_nil_of_mem ((hmem (some m)).mpr ⟨copy, m, hcopy, hm, rfl⟩)
    obtain ⟨x, xs, hcons⟩ := List.exists_cons_of_ne_nil hne
    obtain ⟨copy', m', hcopy', hm', rfl⟩ := (hmem x).mp (hcons ▸ List.mem_cons_self)
    obtain rfl : copy = copy' := Option.some.inj (hcopy.symm.trans hcopy')
    obtain rfl : m = m' := Option.some.inj (hm.symm.trans hm')
    rw [hcons]
    rfl

end Reads

section Operations

variable (h : Represents paths t v) {path : String} (hpath : path ∈ paths)

include hplain hfree h hpath in
theorem mem_deleteSecretObjects (o : DataObject) : o ∈ deleteSecretObjects t path ↔
    ∃ (q : String) (copy : Copy), path ≠ q ∧ v[q]? = some copy ∧
      o ∈ newObjects q copy.data copy.metadata := by
  rw [deleteSecretObjects_of_fits h.fits, List.mem_filter, Bool.not_eq_true', h.objects o]
  constructor
  · rintro ⟨⟨q, copy, hcopy, hnew⟩, hforeign⟩
    refine ⟨q, copy, ?_, hcopy, hnew⟩
    rintro rfl
    rw [belongsTo_of_mem_created (hplain path hpath).1 hnew] at hforeign
    cases hforeign
  · rintro ⟨q, copy, hne, hcopy, hnew⟩
    exact ⟨⟨q, copy, hcopy, hnew⟩, belongsTo_of_incomparable
      (hfree path hpath q (h.used q copy hcopy) hne) (hasPrefix_of_mem_newObjects hnew)⟩

private theorem nodup_deleteSecretObjects (hunique : (t.map DataObject.label).Nodup)
    (hfits : Fits t) (path : String) :
    ((deleteSecretObjects t path).map DataObject.label).Nodup := by
  rw [deleteSecretObjects_of_fits hfits]
  exact hunique.sublist (List.filter_sublist.map _)

include hplain in
private theorem nodup_writeSecret (hunique : (t.map DataObject.label).Nodup) (hfits : Fits t)
    (hpath : path ∈ paths) {data : SecretData} (hk : ∀ key ∈ data, Plain key)
    (metadata : Option SecretMetadata) :
    ((writeSecret t path data metadata).map DataObject.label).Nodup := by
  rw [writeSecret_eq, List.map_append]
  have hkeys : ∀ e ∈ data.toList, Legible path e.1 := fun e he =>
    legible_of_plain (hplain path hpath) (hk e.1 (mem_of_mem_toList he))
  refine (nodup_deleteSecretObjects hunique hfits path).append
    (nodup_labels_created hkeys (nodup_map_fst_toList data)) ?_
  intro label hold hnew
  obtain ⟨o, ho, rfl⟩ := List.mem_map.mp hold
  have hbelongs := belongsTo_of_label_mem_created (hplain path hpath).1 hnew
  rw [deleteSecretObjects_of_fits hfits, List.mem_filter, Bool.not_eq_true', hbelongs] at ho
  cases ho.2

include h in
private theorem used_insert (hpath : path ∈ paths) (copy : Copy) (q : String) (c : Copy)
    (hc : (v.insert path copy)[q]? = some c) : q ∈ paths := by
  rcases of_getElem?_insert hc with ⟨rfl, _⟩ | hc
  · exact hpath
  · exact h.used q c hc

include h in
private theorem keys_insert {copy : Copy} (hk : ∀ key ∈ copy.data, Plain key) (q : String)
    (c : Copy) (hc : (v.insert path copy)[q]? = some c) : ∀ key ∈ c.data, Plain key := by
  rcases of_getElem?_insert hc with ⟨_, rfl⟩ | hc
  · exact hk
  · exact h.keys q c hc

include hplain hfree h hpath

theorem Represents.write {data : SecretData} {metadata : Option SecretMetadata}
    (hk : ∀ key ∈ data, Plain key) (hfits : Fits (writeSecret t path data metadata)) :
    Represents paths (writeSecret t path data metadata)
      (Vault.writeSecret v path data metadata) where
  fits := hfits
  unique := nodup_writeSecret hplain h.unique h.fits hpath hk metadata
  objects := by
    intro o
    rw [writeSecret_eq, List.mem_append, mem_deleteSecretObjects hplain hfree h hpath]
    constructor
    · rintro (⟨q, copy, hne, hcopy, hnew⟩ | hnew)
      · exact ⟨q, copy, by rw [Vault.getElem?_writeSecret_of_ne v hne, hcopy], hnew⟩
      · exact ⟨path, _, Vault.getElem?_writeSecret_self v path data metadata, hnew⟩
    · rintro ⟨q, copy, hcopy, hnew⟩
      by_cases hne : path = q
      · subst hne
        rw [Vault.getElem?_writeSecret_self] at hcopy
        obtain rfl := Option.some.inj hcopy
        exact .inr hnew
      · rw [Vault.getElem?_writeSecret_of_ne v hne] at hcopy
        exact .inl ⟨q, copy, hne, hcopy, hnew⟩
  used := used_insert h hpath _
  keys := keys_insert h hk

theorem Represents.delete :
    Represents paths (deleteSecret t path) (Vault.deleteSecret v path) where
  fits := fits_deleteSecretObjects h.fits path
  unique := nodup_deleteSecretObjects h.unique h.fits path
  objects := by
    intro o
    rw [deleteSecret, mem_deleteSecretObjects hplain hfree h hpath]
    constructor
    · rintro ⟨q, copy, hne, hcopy, hnew⟩
      exact ⟨q, copy, (getElem?_erase_of_ne v hne).trans hcopy, hnew⟩
    · rintro ⟨q, copy, hcopy, hnew⟩
      have hne : path ≠ q := by
        rintro rfl
        simp [Vault.deleteSecret] at hcopy
      exact ⟨q, copy, hne, of_getElem?_erase hcopy, hnew⟩
  used := fun q copy hcopy => h.used q copy (of_getElem?_erase hcopy)
  keys := fun q copy hcopy => h.keys q copy (of_getElem?_erase hcopy)

theorem any_label_iff {key : String} (hkey : Plain key) :
    (t.any fun o => o.label = labelOf path key) = true ↔
      ∃ copy, v[path]? = some copy ∧ key ∈ copy.data := by
  rw [List.any_eq_true]
  constructor
  · rintro ⟨o, ho, hlabel⟩
    have hlabel : o.label = labelOf path key := by simpa using hlabel
    have hlegible := legible_of_plain (hplain path hpath) hkey
    have hentry := entryOf_of_label (hplain path hpath).1 hlegible hlabel
    obtain ⟨copy, hcopy, hget⟩ := (mem_entries hplain hfree h hpath (key, o.value)).mp
      (List.mem_filterMap.mpr ⟨o, ho, hentry⟩)
    exact ⟨copy, hcopy, mem_of_getElem? hget⟩
  · rintro ⟨copy, hcopy, hmem⟩
    obtain ⟨value, hget⟩ := exists_getElem?_of_mem hmem
    refine ⟨⟨labelOf path key, value⟩, ?_, by simp⟩
    exact (h.objects _).mpr ⟨path, copy, hcopy, mem_newObjects.mpr (.inl ⟨_, _, hget, rfl⟩)⟩

omit hplain h in
private theorem label_ne_of_other {q key : String} (hq : q ∈ paths) (hne : path ≠ q)
    {o : DataObject} (ho : hasPrefix o.label q = true) : o.label ≠ labelOf path key := by
  intro hlabel
  rw [hlabel] at ho
  rcases hasPrefix_or_hasPrefix (hasPrefix_labelOf path key) ho with hpq | hqp
  · exact absurd hpq (by rw [(hfree path hpath q hq hne).1]; decide)
  · exact absurd hqp (by rw [(hfree path hpath q hq hne).2]; decide)

omit hplain hfree h hpath in
private theorem mem_newObjects_erase {key : String} (hkey : Plain key) {data : SecretData}
    {metadata : Option SecretMetadata} {o : DataObject} :
    o ∈ newObjects path (data.erase key) metadata ↔
      o ∈ newObjects path data metadata ∧ o.label ≠ labelOf path key := by
  rw [mem_newObjects, mem_newObjects]
  constructor
  · rintro (⟨k, value, hget, rfl⟩ | ⟨m, hm, rfl⟩)
    · refine ⟨.inl ⟨k, value, of_getElem?_erase hget, rfl⟩, fun hlabel => ?_⟩
      obtain rfl := labelOf_injective hlabel
      simp at hget
    · refine ⟨.inr ⟨m, hm, rfl⟩, fun hlabel => ?_⟩
      exact ne_metadataKey_of_plain hkey (labelOf_eq_metadata_iff.mp hlabel.symm)
  · rintro ⟨⟨k, value, hget, rfl⟩ | ⟨m, hm, rfl⟩, hlabel⟩
    · have hne : key ≠ k := fun heq => hlabel (heq ▸ rfl)
      exact .inl ⟨k, value, (getElem?_erase_of_ne data hne).trans hget, rfl⟩
    · exact .inr ⟨m, hm, rfl⟩

omit hplain in
theorem Represents.deleteKey {key : String} (hkey : Plain key) {copy : Copy}
    (hcopy : v[path]? = some copy) :
    Represents paths (t.eraseP fun o => o.label = labelOf path key)
      (v.insert path { copy with data := copy.data.erase key }) where
  fits := le_trans List.length_eraseP_le h.fits
  unique := h.unique.sublist (List.eraseP_sublist.map _)
  objects := by
    intro o
    rw [eraseP_label_eq_filter h.unique, List.mem_filter, decide_eq_true_iff, h.objects o]
    constructor
    · rintro ⟨⟨q, c, hc, hnew⟩, hlabel⟩
      by_cases hne : path = q
      · subst hne
        obtain rfl : copy = c := Option.some.inj (hcopy.symm.trans hc)
        exact ⟨path, _, Std.ExtTreeMap.getElem?_insert_self,
          (mem_newObjects_erase hkey).mpr ⟨hnew, hlabel⟩⟩
      · exact ⟨q, c, (getElem?_insert_of_ne v hne _).trans hc, hnew⟩
    · rintro ⟨q, c, hc, hnew⟩
      by_cases hne : path = q
      · subst hne
        rw [Std.ExtTreeMap.getElem?_insert_self] at hc
        obtain rfl := Option.some.inj hc
        obtain ⟨hold, hlabel⟩ := (mem_newObjects_erase hkey).mp hnew
        exact ⟨⟨path, copy, hcopy, hold⟩, hlabel⟩
      · rw [getElem?_insert_of_ne v hne] at hc
        exact ⟨⟨q, c, hc, hnew⟩, label_ne_of_other hfree hpath (h.used q c hc) hne
          (hasPrefix_of_mem_newObjects hnew)⟩
  used := used_insert h hpath _
  keys := keys_insert h fun k hk =>
    h.keys path copy hcopy k (Std.ExtTreeMap.mem_of_mem_erase hk)

end Operations

private theorem mem_listSecrets_under {under path : String} : path ∈ listSecrets t under ↔
    path ∈ listSecrets t "" ∧ hasPrefix path under = true := by
  have hempty : hasPrefix path "" = true := hasPrefix_iff.mpr ⟨path, by simp⟩
  simp only [listSecrets, List.mem_dedup, List.mem_filter, decide_true, Bool.true_or, and_true]
  refine and_congr_right fun _ => ?_
  by_cases hunder : under = ""
  · simp [hunder, hempty]
  · simp [hunder]

include hplain in
theorem Represents.mem_listSecrets (h : Represents paths t v)
    (hslash : ∀ p ∈ paths, '/' ∉ p.toList)
    (hkeys : ∀ (p : String) (copy : Copy), v[p]? = some copy → ∀ k ∈ copy.data, '/' ∉ k.toList)
    {under path : String} : path ∈ listSecrets t under ↔
      (∃ copy, v[path]? = some copy ∧ copy.data ≠ ∅) ∧ hasPrefix path under = true := by
  rw [mem_listSecrets_under, Pkcs11.mem_listSecrets, take_of_fits h.fits]
  refine and_congr_left fun _ => ?_
  constructor
  · rintro ⟨o, ho, _, hmeta, rfl⟩
    obtain ⟨q, copy, hcopy, hnew⟩ := (h.objects o).mp ho
    rcases mem_newObjects.mp hnew with ⟨key, value, hget, rfl⟩ | ⟨m, _, rfl⟩
    · have hmem := mem_of_getElem? hget
      have hlisted : listedPath (labelOf q key) = q :=
        listedPath_labelOf (hkeys q copy hcopy key hmem) fun _ => hslash q (h.used q copy hcopy)
      rw [hlisted]
      refine ⟨copy, hcopy, fun hempty => ?_⟩
      rw [hempty] at hmem
      exact absurd hmem Std.ExtTreeMap.not_mem_empty
    · simp [isMetadata] at hmeta
  · rintro ⟨copy, hcopy, hne⟩
    have hused := h.used path copy hcopy
    obtain ⟨⟨key, value⟩, he⟩ := List.exists_mem_of_ne_nil copy.data.toList
      fun hnil => hne (by simpa using hnil)
    have hget := Std.ExtTreeMap.mem_toList_iff_getElem?_eq_some.mp he
    have hmem := mem_of_getElem? hget
    refine ⟨⟨labelOf path key, value⟩, ?_, labelOf_ne_empty (hplain path hused).1 key,
      isMetadata_labelOf (hplain path hused) (h.keys path copy hcopy key hmem) value,
      listedPath_labelOf (hkeys path copy hcopy key hmem) fun _ => hslash path hused⟩
    exact (h.objects _).mpr ⟨path, copy, hcopy, mem_newObjects.mpr (.inl ⟨_, _, hget, rfl⟩)⟩

end HsmSecretsOperator.Hsm.Representation
