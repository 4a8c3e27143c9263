/- source: internal/hsm/pkcs11_client.go, internal/hsm/pkcs11_cgo.go
   digest: Deletes and reads by one search that hands out any bounded choice of the objects. -/

import HsmSecretsOperator.Foundation.Paging
import HsmSecretsOperator.Hsm.Layout
import HsmSecretsOperator.Security.Validation

/-!
No loop of the client asks for a second page. `search_irrelevant` says where every search does what
the flat token does.
-/

set_option autoImplicit false

namespace HsmSecretsOperator.Hsm.Enumeration

open Foundation.Maps Foundation.Paging Foundation.Text
open MetadataJson (marshal unmarshal)
open Objects (entryOf describedBy filterMap_entryOf filterMap_describedBy readSecret_eq_secretOf
  readMetadata_eq_metadataOf secretOf)
open Pkcs11 hiding findObjects deleteSecretObjects readSecret readMetadata writeSecret listSecrets
open Secret Security.Validation

/-- One call of `FindObjects`. It asks for `maxObjects` handles; the limit is what the token gives
out at most. -/
abbrev Search (limit : Nat) (t : Token) := Page limit t

section Operations

variable {limit : Nat} {t : Token}

def findObjects (s : Search limit t) (path : String) : List DataObject :=
  s.items.filter fun o => o.label ≠ "" && (path = "" || hasPrefix o.label path)

/-- `deleteSecretObjectsPKCS11`: of the handles, those with a label of the path are destroyed. -/
def deleteSecretObjects (s : Search limit t) (path : String) : Token :=
  s.remove (belongsTo path)

/-- The loop of `ReadSecret` over the objects of a search. -/
def readObjects (path : String) (objects : List DataObject) : Except String SecretData :=
  let found := objects.filter fun o => hasPrefix o.label path && !isMetadata o
  let data : SecretData := assign ∅ (keyOf path) DataObject.value found
  if found = [] then .error s!"secret not found at path: {path}"
  else if data.isEmpty then
    .error s!"no valid secret data found at path: {path} (found {found.length} objects but no data)"
  else .ok data

def readSecret (s : Search limit t) (path : String) : Except String SecretData :=
  readObjects path (findObjects s path)

def readMetadata (s : Search limit t) (path : String) : Except String SecretMetadata :=
  let metadataLabel := path ++ metadataKeySuffix
  match (findObjects s metadataLabel).find? fun o => o.label = metadataLabel with
  | some o =>
    match unmarshal o.value with
    | some m => .ok m
    | none => .error "failed to parse metadata JSON"
  | none => .error s!"metadata not found for path: {path}"

/-- `WriteSecret`: only the deletion that comes first searches. -/
def writeSecret (s : Search limit t) (path : String) (data : SecretData)
    (metadata : Option SecretMetadata) : Token :=
  let t := deleteSecretObjects s path
  let t := data.toList.foldl (fun t e => createObject t (labelOf path e.1) e.2) t
  match metadata with
  | some m => writeMetadata t path m
  | none => t

def listSecrets (s : Search limit t) (under : String) : List String :=
  ((((findObjects s "").filter fun o => !isMetadata o).map fun o => listedPath o.label).filter
    fun path => under = "" || hasPrefix path under).dedup

end Operations

section Items

variable {t : Token} (s : Search maxObjects t) (path : String)

theorem fits_items : Fits s.items := s.length_items_le

private theorem findObjects_eq_items : findObjects s path = Pkcs11.findObjects s.items path := by
  rw [findObjects, Pkcs11.findObjects, take_of_fits (fits_items s)]

/-- A read by a search is the flat read of what the search hands out. -/
theorem readSecret_eq_items : readSecret s path = Pkcs11.readSecret s.items path := by
  rw [readSecret, findObjects_eq_items]
  rfl

theorem readMetadata_eq_items : readMetadata s path = Pkcs11.readMetadata s.items path := by
  simp only [readMetadata, findObjects_eq_items]
  rfl

end Items

section Delete

variable {limit : Nat} {t : Token} {path : String}

/-- One search covers the objects of the path, all of which have labels. -/
def Covered (limit : Nat) (t : Token) (path : String) : Prop :=
  ∀ o ∈ t, hasPrefix o.label path = true → o.label ≠ "" ∧ t.length ≤ limit

instance (limit : Nat) (t : Token) (path : String) : Decidable (Covered limit t path) :=
  inferInstanceAs (Decidable (∀ o ∈ t, _))

theorem deleteSecretObjects_of_covered (h : Covered limit t path) (s : Search limit t) :
    deleteSecretObjects s path = t.filter fun o => !hasPrefix o.label path := by
  have hbelongs : ∀ o ∈ t, belongsTo path o = hasPrefix o.label path := by
    intro o ho
    cases hfront : hasPrefix o.label path with
    | false => simp [belongsTo, hfront]
    | true => simp [belongsTo, hfront, (h o ho hfront).1]
  have hfilter : t.filter (fun o => !belongsTo path o) = t.filter fun o =>
      !hasPrefix o.label path :=
    List.filter_congr fun o ho => by rw [hbelongs o ho]
  rw [deleteSecretObjects, Page.remove_eq_filter _ s, hfilter]
  by_cases hany : ∃ o ∈ t, hasPrefix o.label path = true
  · obtain ⟨o, ho, hfront⟩ := hany
    exact .inl (h o ho hfront).2
  · refine .inr fun o ho => ?_
    rw [hbelongs o ho, Bool.eq_false_iff]
    exact fun hfront => hany ⟨o, ho, hfront⟩

theorem deleteSecretObjects_iff :
    (∀ s : Search limit t, ∀ o ∈ deleteSecretObjects s path, hasPrefix o.label path = false) ↔
      Covered limit t path := by
  constructor
  · intro h o ho hfront
    obtain ⟨before, after, rfl⟩ := List.append_of_mem ho
    have hgone : ∀ s : Search limit (before ++ o :: after),
        before.length ∈ s.handles ∧ belongsTo path o = true := by
      intro s
      by_contra hkept
      have hleft : o ∈ deleteSecretObjects s path := by
        refine Page.mem_remove.mpr ⟨before.length, by simp, fun hi => ?_⟩
        exact Bool.eq_false_iff.mpr fun hb => hkept ⟨hi, hb⟩
      rw [h s o hleft] at hfront
      cases hfront
    constructor
    · have hbelongs := (hgone (Page.first _ _)).2
      simp only [belongsTo, Bool.and_eq_true, decide_eq_true_eq] at hbelongs
      exact hbelongs.1
    · by_contra hlong
      obtain ⟨s, hs⟩ := Page.exists_avoiding (not_le.mp hlong)
      exact hs (hgone s).1
  · intro h s o ho
    rw [deleteSecretObjects_of_covered h, List.mem_filter] at ho
    simpa using ho.2

end Delete

theorem readObjects_eq_ok {path : String} {objects : List DataObject} {data : SecretData}
    (h : readObjects path objects = .ok data) : data = assign ∅ (keyOf path) DataObject.value
      (objects.filter fun o => hasPrefix o.label path && !isMetadata o) := by
  unfold readObjects at h
  dsimp only at h
  split at h
  · cases h
  split at h
  · cases h
  · exact (Except.ok.inj h).symm

/-- The objects in which a read of the path looks for keys. -/
def isKey (path : String) (o : DataObject) : Bool := belongsTo path o && !isMetadata o

section Read

variable {limit : Nat} {t : Token} {path : String}

private theorem filter_findObjects (s : Search limit t) :
    (findObjects s path).filter (fun o => hasPrefix o.label path && !isMetadata o) =
      s.items.filter (isKey path) := by
  rw [findObjects, List.filter_filter]
  congr 1
  funext o
  simp only [isKey, belongsTo]
  cases hasPrefix o.label path <;> simp [Bool.and_comm]

theorem exists_of_readSecret {s : Search limit t} {data : SecretData} {key : String}
    (h : readSecret s path = .ok data) (hkey : key ∈ data) :
    ∃ o ∈ s.items, isKey path o = true ∧ keyOf path o = key := by
  rw [readObjects_eq_ok h, filter_findObjects, mem_assign] at hkey
  obtain hempty | ⟨o, ho, heq⟩ := hkey
  · exact absurd hempty Std.ExtTreeMap.not_mem_empty
  · exact ⟨o, (List.mem_filter.mp ho).1, (List.mem_filter.mp ho).2, heq⟩

theorem readSecret_of_perm {s : Search limit t} {data : SecretData} (hne : data ≠ ∅)
    (h : ((s.items.filter (isKey path)).map fun o => (keyOf path o, o.value)).Perm data.toList) :
    readSecret s path = .ok data := by
  have hassign : assign ∅ (keyOf path) DataObject.value (s.items.filter (isKey path)) = data := by
    rw [← assign_of_perm_toList data h, assign, assign, List.foldl_map]
  have hfound : s.items.filter (isKey path) ≠ [] := by
    intro hnil
    rw [hnil] at hassign
    exact hne hassign.symm
  unfold readSecret readObjects
  dsimp only
  rw [filter_findObjects, hassign, if_neg hfound, if_neg (by rwa [Std.ExtTreeMap.isEmpty_iff])]

end Read

section Write

variable {limit : Nat} {t : Token} {path : String} {data : SecretData}
  {metadata : Option SecretMetadata}

theorem writeSecret_eq (s : Search limit t) : writeSecret s path data metadata =
    deleteSecretObjects s path ++ newObjects path data metadata := by
  simp only [writeSecret, foldl_createObject, newObjects]
  cases metadata with
  | none => simp
  | some m => simp [writeMetadata, createObject]

/-- The token that every search of a covered path leaves after the write. -/
def written (t : Token) (path : String) (data : SecretData) (metadata : Option SecretMetadata) :
    Token :=
  (t.filter fun o => !hasPrefix o.label path) ++ newObjects path data metadata

theorem length_written : (written t path data metadata).length =
    t.countP (fun o => !hasPrefix o.label path) + data.size + metadata.toList.length := by
  simp only [written, newObjects, List.length_append, List.length_map, List.countP_eq_length_filter,
    Std.ExtTreeMap.length_toList, Nat.add_assoc]

/-- A key under the label of its path is skipped if the label is empty or looks like metadata. -/
def Nameable (path : String) (data : SecretData) : Prop :=
  defaultKeyName ∈ data → path ≠ "" ∧ hasSuffix path metadataKeySuffix = false

instance (path : String) (data : SecretData) : Decidable (Nameable path data) :=
  inferInstanceAs (Decidable (_ → _))

theorem isKey_labelOf {key : String} (hkey : Plain key) (v : Bytes) :
    isKey path ⟨labelOf path key, v⟩ = true ↔
      (key = defaultKeyName → path ≠ "" ∧ hasSuffix path metadataKeySuffix = false) := by
  by_cases hdefault : key = defaultKeyName
  · subst hdefault
    have hlabel : labelOf path defaultKeyName = path := if_pos rfl
    simp [isKey, belongsTo, isMetadata, hlabel]
  · have hlabel : labelOf path key = path ++ "/" ++ key := if_neg hdefault
    have hfront := hasPrefix_labelOf path key
    rw [hlabel] at hfront
    simp [isKey, belongsTo, isMetadata, hlabel, hdefault, hfront, not_hasSuffix_key hkey path]

section Valid

variable (hkeys : ∀ k ∈ data, Plain k)

include hkeys

private theorem entry_of_isKey {o : DataObject} (ho : o ∈ written t path data metadata)
    (hkey : isKey path o = true) :
    ∃ e ∈ data.toList, o = ⟨labelOf path e.1, e.2⟩ ∧ keyOf path o = e.1 := by
  simp only [isKey, belongsTo, Bool.and_eq_true, Bool.not_eq_true'] at hkey
  simp only [written, newObjects, List.mem_append, List.mem_filter, List.mem_map] at ho
  rcases ho with ⟨_, hforeign⟩ | ⟨e, he, rfl⟩ | ⟨m, _, rfl⟩
  · rw [hkey.1.2] at hforeign
    cases hforeign
  · exact ⟨e, he, rfl, keyOf_labelOf (hkeys e.1 (mem_of_mem_toList he)).1 e.2⟩
  · simp [isMetadata] at hkey

private theorem filter_isKey_written (hname : Nameable path data) :
    (written t path data metadata).filter (isKey path) =
      data.toList.map fun e => ⟨labelOf path e.1, e.2⟩ := by
  rw [written, newObjects, List.filter_append, List.filter_append, List.filter_eq_nil_iff.mpr,
    List.nil_append, List.filter_eq_self.mpr, List.filter_eq_nil_iff.mpr, List.append_nil]
  · intro o ho
    obtain ⟨m, _, rfl⟩ := List.mem_map.mp ho
    simp [isKey, isMetadata]
  · intro o ho
    obtain ⟨e, he, rfl⟩ := List.mem_map.mp ho
    have hmem := mem_of_mem_toList he
    exact (isKey_labelOf (hkeys e.1 hmem) e.2).mpr fun hdefault => hname (hdefault ▸ hmem)
  · intro o ho
    have hforeign := (List.mem_filter.mp ho).2
    simp only [Bool.not_eq_true'] at hforeign
    simp [isKey, belongsTo, hforeign]

private theorem written_split {e : String × Bytes} (he : e ∈ data.toList) :
    ∃ as bs, written t path data metadata = as ++ ⟨labelOf path e.1, e.2⟩ :: bs ∧
      ∀ o ∈ as ++ bs, isKey path o = true → keyOf path o ≠ e.1 := by
  obtain ⟨before, after, hsplit⟩ := List.append_of_mem he
  refine ⟨(t.filter fun o => !hasPrefix o.label path) ++
      before.map fun e => ⟨labelOf path e.1, e.2⟩,
    (after.map fun e => ⟨labelOf path e.1, e.2⟩) ++
      metadata.toList.map fun m => ⟨path ++ metadataKeySuffix, marshal m⟩, ?_, ?_⟩
  · simp [written, newObjects, hsplit]
  · have hnamed : ∀ e' ∈ before ++ e :: after, e'.1 ≠ "" := by
      intro e' he'
      exact (hkeys e'.1 (mem_of_mem_toList (hsplit ▸ he'))).1
    have hdistinct := data.distinct_keys_toList
    rw [hsplit, List.pairwise_append, List.pairwise_cons] at hdistinct
    intro o ho hkey hname
    simp only [List.mem_append, List.mem_filter, List.mem_map] at ho
    simp only [isKey, belongsTo, Bool.and_eq_true, Bool.not_eq_true'] at hkey
    rcases ho with (⟨_, hforeign⟩ | ⟨e', he', rfl⟩) | ⟨e', he', rfl⟩ | ⟨m, _, rfl⟩
    · rw [hkey.1.2] at hforeign
      cases hforeign
    · rw [keyOf_labelOf (hnamed e' (List.mem_append_left _ he'))] at hname
      exact hdistinct.2.2 e' he' e List.mem_cons_self (compare_eq_iff_eq.mpr hname)
    · rw [keyOf_labelOf (hnamed e' (List.mem_append_right _ (List.mem_cons_of_mem e he')))] at hname
      exact hdistinct.2.1.1 e' he' (compare_eq_iff_eq.mpr hname.symm)
    · simp [isMetadata] at hkey

/-- Beyond the limit some search of the read misses one of the created objects. -/
private theorem length_le_of_readBack (hne : data ≠ ∅)
    (h : ∀ s : Search limit (written t path data metadata), readSecret s path = .ok data) :
    (written t path data metadata).length ≤ limit := by
  by_contra hlong
  have hentries : data.toList ≠ [] := fun hnil => hne (by simpa using hnil)
  obtain ⟨e, he⟩ := List.exists_mem_of_ne_nil _ hentries
  obtain ⟨as, bs, hsplit, hsole⟩ := written_split hkeys he
  rw [hsplit] at h hlong
  obtain ⟨s, hs⟩ := Page.exists_avoiding (not_le.mp hlong)
  obtain ⟨o, ho, hkey, hname⟩ := exists_of_readSecret (h s) (mem_of_mem_toList he)
  exact hsole o (Page.mem_of_avoiding hs ho) hkey hname

theorem nameable_of_readBack {s : Search limit (written t path data metadata)}
    (h : readSecret s path = .ok data) : Nameable path data := by
  intro hdefault
  obtain ⟨o, ho, hkey, hname⟩ := exists_of_readSecret h hdefault
  obtain ⟨i, _, hi⟩ := Page.mem_items.mp ho
  obtain ⟨e, he, rfl, hkeyOf⟩ := entry_of_isKey hkeys (List.mem_of_getElem? hi) hkey
  exact (isKey_labelOf (hkeys e.1 (mem_of_mem_toList he)) e.2).mp hkey (hkeyOf.symm.trans hname)

theorem readBack_iff (hne : data ≠ ∅) :
    (∀ s : Search limit (written t path data metadata), readSecret s path = .ok data) ↔
      (written t path data metadata).length ≤ limit ∧ Nameable path data := by
  constructor
  · intro h
    exact ⟨length_le_of_readBack hkeys hne h, nameable_of_readBack hkeys (h (Page.first _ _))⟩
  · rintro ⟨hlen, hname⟩ s
    apply readSecret_of_perm hne
    have hperm := ((s.items_perm hlen).filter (isKey path)).map fun o => (keyOf path o, o.value)
    rw [filter_isKey_written hkeys hname, List.map_map] at hperm
    refine hperm.trans (.of_eq ((List.map_congr_left fun e he => ?_).trans (List.map_id _)))
    have hkey : keyOf path ⟨labelOf path e.1, e.2⟩ = e.1 :=
      keyOf_labelOf (hkeys e.1 (mem_of_mem_toList he)).1 e.2
    rw [Function.comp_apply, hkey]
    rfl

end Valid

end Write

private theorem eq_of_perm_of_length_le_one {α : Type} {xs ys : List α} (h : xs.Perm ys)
    (hlen : ys.length ≤ 1) : xs = ys := by
  match ys, hlen with
  | [], _ => exact h.eq_nil
  | [y], _ => exact h.eq_singleton

section Tidy

variable {cat : Layout.Catalogue} {t : Token} (h : Layout.Tidy cat t) {p : String}

include h

private theorem nodup_keys (hp : p ∈ cat.paths) :
    ((t.filterMap (entryOf p)).map Prod.fst).Nodup := by
  -- The labels of the entries are some of the labels on the token.
  have hlabels : ((t.filterMap (entryOf p)).map Prod.fst).map (labelOf p) =
      (t.filter fun o => belongsTo p o && !isMetadata o).map DataObject.label := by
    rw [filterMap_entryOf, List.map_map, List.map_map]
    refine List.map_congr_left fun o ho => ?_
    obtain ⟨hmem, hkey⟩ := List.mem_filter.mp ho
    have hentry : entryOf p o = some (keyOf p o, o.value) := if_pos hkey
    have hlabel := congrArg DataObject.label (h.of_entryOf hp hmem hentry).2
    dsimp only at hlabel
    simp only [Function.comp_apply, ← hlabel]
  refine List.Nodup.of_map (labelOf p) ?_
  rw [hlabels]
  exact h.unique.sublist (List.filter_sublist.map _)

private theorem described_le_one (p : String) : (t.filterMap (describedBy p)).length ≤ 1 := by
  rw [filterMap_describedBy, List.length_map, ← List.length_map DataObject.label]
  have hsame : ∀ label ∈ (t.filter fun o => o.label = p ++ metadataKeySuffix).map
      DataObject.label, label = p ++ metadataKeySuffix := by
    intro label hlabel
    obtain ⟨o, ho, rfl⟩ := List.mem_map.mp hlabel
    simpa using (List.mem_filter.mp ho).2
  have hnodup := h.unique.sublist
    ((List.filter_sublist (p := fun o => o.label = p ++ metadataKeySuffix)).map DataObject.label)
  rw [List.eq_replicate_of_mem hsame] at hnodup
  exact List.nodup_replicate.mp hnodup

/-- On a token that keeps to a catalogue it does not matter which objects a search hands out and
in what order: every operation does what it does with the flat search. -/
theorem search_irrelevant (s : Search maxObjects t) :
    (∀ p ∈ cat.paths, readSecret s p = Pkcs11.readSecret t p ∧
      readMetadata s p = Pkcs11.readMetadata t p) ∧
    (∀ path data metadata,
      writeSecret s path data metadata = Pkcs11.writeSecret t path data metadata) ∧
    (∀ path, deleteSecretObjects s path = Pkcs11.deleteSecret t path) ∧
    ∀ path under, path ∈ listSecrets s under ↔ path ∈ Pkcs11.listSecrets t under := by
  have hitems := s.items_perm h.fits
  have hdelete (path : String) : deleteSecretObjects s path = Pkcs11.deleteSecretObjects t path :=
    (Page.remove_eq_filter (.inl h.fits) s).trans (deleteSecretObjects_of_fits h.fits path).symm
  refine ⟨fun p hp => ⟨?_, ?_⟩, fun path data metadata => ?_, hdelete, fun path under => ?_⟩
  · have hentries := hitems.filterMap (entryOf p)
    rw [readSecret_eq_items, readSecret_eq_secretOf, readSecret_eq_secretOf,
      take_of_fits (fits_items s), take_of_fits h.fits, secretOf, secretOf,
      assign_of_perm hentries (nodup_keys h hp)]
    simp only [← List.length_eq_zero_iff, hentries.length_eq]
  · have hdescribed := hitems.filterMap (describedBy p)
    rw [readMetadata_eq_items, readMetadata_eq_metadataOf, readMetadata_eq_metadataOf,
      take_of_fits (fits_items s), take_of_fits h.fits,
      eq_of_perm_of_length_le_one hdescribed (described_le_one h p)]
  · unfold writeSecret
    rw [hdelete]
    rfl
  · have hfound : (findObjects s "").Perm (Pkcs11.findObjects t "") := by
      rw [findObjects, Pkcs11.findObjects, take_of_fits h.fits]
      exact hitems.filter _
    rw [listSecrets, Pkcs11.listSecrets, List.mem_dedup, List.mem_dedup]
    exact (((hfound.filter _).map _).filter _).mem_iff

end Tidy

/-- What the client does for a path with one search each: a delete leaves no object of the path,
and the data of a write is read back, whatever the searches hand out. -/
structure Enumerates (limit limit' : Nat) (t : Token) (path : String) (data : SecretData)
    (metadata : Option SecretMetadata) : Prop where
  deleted : ∀ s : Search limit t, ∀ o ∈ deleteSecretObjects s path,
    hasPrefix o.label path = false
  readBack : ∀ (s : Search limit t) (s' : Search limit' (writeSecret s path data metadata)),
    readSecret s' path = .ok data

/-- All objects are enumerated exactly if there is none of the path or the token fits in one search,
the written token fits in one search, and no label of the path is skipped. -/
theorem enumerates_iff (limit limit' : Nat) (t : Token) (path : String) {data : SecretData}
    (hvalid : validateSecretData data = .ok ()) (metadata : Option SecretMetadata) :
    Enumerates limit limit' t path data metadata ↔
      Covered limit t path ∧
        t.countP (fun o => !hasPrefix o.label path) + data.size + metadata.toList.length ≤ limit' ∧
          Nameable path data := by
  have hkeys := plain_of_validateSecretData hvalid
  have hne := ne_empty_of_validateSecretData hvalid
  have hread (hcovered : Covered limit t path) :
      (∀ (s : Search limit t) (s' : Search limit' (writeSecret s path data metadata)),
        readSecret s' path = .ok data) ↔
        (written t path data metadata).length ≤ limit' ∧ Nameable path data := by
    have hwritten (s : Search limit t) :
        writeSecret s path data metadata = written t path data metadata := by
      rw [writeSecret_eq, deleteSecretObjects_of_covered hcovered, written]
    rw [← readBack_iff hkeys hne]
    constructor
    · intro h
      have hfirst := h (Page.first _ _)
      rw [hwritten] at hfirst
      exact hfirst
    · intro h s
      rw [hwritten]
      exact h
  rw [← length_written]
  constructor
  · rintro ⟨hdeleted, hback⟩
    have hcovered := deleteSecretObjects_iff.mp hdeleted
    exact ⟨hcovered, (hread hcovered).mp hback⟩
  · rintro ⟨hcovered, hfits⟩
    exact ⟨deleteSecretObjects_iff.mpr hcovered, (hread hcovered).mpr hfits⟩

private def crowded : Token := List.replicate 101 ⟨"db/password", utf8 "x"⟩

private def password : SecretData := (∅ : SecretData).insert "password" (utf8 "hunter2")

theorem crowded_token_keeps_objects :
    validateSecretData password = .ok () ∧
      ¬ Enumerates maxObjects maxObjects crowded "db" password none := by
  refine ⟨by decide +kernel, fun h => ?_⟩
  have hcovered := deleteSecretObjects_iff.mp h.deleted
  revert hcovered
  decide +kernel

theorem enumerates_two :
    Enumerates maxObjects maxObjects
      [⟨"db/password", utf8 "x"⟩, ⟨"web/password", utf8 "y"⟩] "db" password none :=
  (enumerates_iff maxObjects maxObjects _ "db" (by decide +kernel) none).mpr (by decide +kernel)

end HsmSecretsOperator.Hsm.Enumeration
