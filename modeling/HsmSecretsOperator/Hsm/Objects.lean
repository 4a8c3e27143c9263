/- source: internal/hsm/pkcs11_client.go
   digest: What each object contributes to the reads of a path, and what key deletion takes away. -/

import HsmSecretsOperator.Hsm.Labels

set_option autoImplicit false

namespace HsmSecretsOperator.Hsm.Objects

open Foundation.Maps Foundation.Text
open Labels (labelOf_eq_iff ne_of_nested)
open MetadataJson Pkcs11 Secret

/-- The entry that `ReadSecret` makes of the object. -/
def entryOf (path : String) (o : DataObject) : Option (String × Bytes) :=
  if belongsTo path o && !isMetadata o then some (keyOf path o, o.value) else none

/-- What `ReadMetadata` makes of the object: nothing, metadata, or a value it cannot parse. -/
def describedBy (path : String) (o : DataObject) : Option (Option SecretMetadata) :=
  if o.label = path ++ metadataKeySuffix then some (unmarshal o.value) else none

def secretOf (path : String) (entries : List (String × Bytes)) : Except String SecretData :=
  if entries = [] then .error s!"secret not found at path: {path}"
  else .ok (assign ∅ Prod.fst Prod.snd entries)

def metadataOf (path : String) : Option (Option SecretMetadata) → Except String SecretMetadata
  | some (some m) => .ok m
  | some none => .error "failed to parse metadata JSON"
  | none => .error s!"metadata not found for path: {path}"

theorem filterMap_entryOf (path : String) (t : Token) : t.filterMap (entryOf path) =
    (t.filter fun o => belongsTo path o && !isMetadata o).map fun o => (keyOf path o, o.value) := by
  induction t with
  | nil => rfl
  | cons o t ih =>
    rw [List.filterMap_cons, List.filter_cons, ih, entryOf]
    cases belongsTo path o && !isMetadata o <;> simp

theorem readSecret_eq_secretOf (t : Token) (path : String) :
    readSecret t path = secretOf path ((t.take maxObjects).filterMap (entryOf path)) := by
  rw [filterMap_entryOf, ← matchingObjects_eq]
  have hassign : assign ∅ Prod.fst Prod.snd
      ((matchingObjects t path).map fun o => (keyOf path o, o.value)) =
        (assign ∅ (keyOf path) DataObject.value (matchingObjects t path) : SecretData) :=
    List.foldl_map
  simp only [readSecret, secretOf, List.map_eq_nil_iff, hassign]
  cases hfound : matchingObjects t path with
  | nil => rfl
  | cons o os =>
    have hne : (assign ∅ (keyOf path) DataObject.value (o :: os) : SecretData) ≠ ∅ :=
      fun hempty => List.cons_ne_nil o os (assign_eq_empty_iff.mp hempty)
    rw [if_neg (List.cons_ne_nil o os), if_neg (List.cons_ne_nil o os),
      if_neg fun hempty => hne (Std.ExtTreeMap.isEmpty_iff.mp hempty)]

theorem filterMap_describedBy (path : String) (t : Token) : t.filterMap (describedBy path) =
    (t.filter fun o => o.label = path ++ metadataKeySuffix).map fun o => unmarshal o.value := by
  induction t with
  | nil => rfl
  | cons o t ih =>
    rw [List.filterMap_cons, List.filter_cons, ih, describedBy]
    by_cases h : o.label = path ++ metadataKeySuffix <;> simp [h]

theorem readMetadata_eq_metadataOf (t : Token) (path : String) : readMetadata t path =
    metadataOf path ((t.take maxObjects).filterMap (describedBy path)).head? := by
  rw [readMetadata_eq, filterMap_describedBy, List.head?_map]
  cases ((t.take maxObjects).filter fun o => o.label = path ++ metadataKeySuffix).head? with
  | none => rfl
  | some o =>
    dsimp only [Option.map_some]
    cases unmarshal o.value <;> rfl

/-- What is read once a key is gone. -/
def withoutKey (path key : String) : Except String SecretData → Except String SecretData
  | .ok data =>
    if data.erase key = ∅ then .error s!"secret not found at path: {path}"
    else .ok (data.erase key)
  | .error e => .error e

theorem secretOf_filter_ne (path key : String) (entries : List (String × Bytes)) :
    secretOf path (entries.filter fun e => e.1 ≠ key) =
      withoutKey path key (secretOf path entries) := by
  have herase := assign_filter_ne (∅ : SecretData) Prod.fst Prod.snd entries key
  rw [Std.ExtTreeMap.erase_empty] at herase
  by_cases hnil : entries = []
  · subst hnil
    rfl
  · have hrest : (assign (∅ : SecretData) Prod.fst Prod.snd entries).erase key = ∅ ↔
        (entries.filter fun e => e.1 ≠ key) = [] := by
      rw [← herase]
      exact assign_eq_empty_iff
    rw [secretOf, secretOf, if_neg hnil, withoutKey, herase]
    simp only [hrest]

theorem metadataOf_injective (path : String) {x y : Option (Option SecretMetadata)}
    (h : metadataOf path x = metadataOf path y) : x = y := by
  have hne : "failed to parse metadata JSON" ≠ s!"metadata not found for path: {path}" := by
    intro heq
    have hhead := congrArg (fun s : String => s.toList.head?) heq
    simp [toString] at hhead
  match x, y, h with
  | some (some m), some (some m'), h => rw [Except.ok.inj h]
  | some none, some none, _ => rfl
  | none, none, _ => rfl
  | some none, none, h => exact absurd (Except.error.inj h) hne
  | none, some none, h => exact absurd (Except.error.inj h).symm hne

variable {o : DataObject}

theorem entryOf_of_not_belongsTo {path : String} (h : belongsTo path o = false) :
    entryOf path o = none := by
  simp [entryOf, h]

theorem describedBy_of_not_belongsTo {path : String}
    (h : belongsTo path o = false) : describedBy path o = none := by
  rw [describedBy, if_neg]
  intro hlabel
  have hne : path ++ metadataKeySuffix ≠ "" := by simp [metadataKeySuffix]
  simp [belongsTo, hlabel, hne] at h

/-- The label is that of a key of the path or of its metadata. -/
def StoredUnder (path : String) (o : DataObject) : Prop :=
  (∃ key, Plain key ∧ o.label = labelOf path key) ∨ o.label = path ++ metadataKeySuffix

/-- Every object is stored under one of the paths. -/
def Shaped (paths : List String) (t : Token) : Prop := ∀ o ∈ t, ∃ path ∈ paths, StoredUnder path o

theorem Shaped.of_subset {paths : List String} {t t' : Token} (h : Shaped paths t)
    (hsub : ∀ o ∈ t', o ∈ t) : Shaped paths t' := fun o ho => h o (hsub o ho)

theorem StoredUnder.hasPrefix {path : String} (h : StoredUnder path o) :
    hasPrefix o.label path = true := by
  rcases h with ⟨key, _, hlabel⟩ | hlabel
  · rw [hlabel]
    exact hasPrefix_labelOf path key
  · rw [hlabel]
    exact hasPrefix_append path _

theorem labelOf_injective {path k l : String} (h : labelOf path k = labelOf path l) : k = l := by
  rcases labelOf_eq_iff.mp h with ⟨_, heq⟩ | hnested | hnested
  · exact heq
  · exact absurd rfl (ne_of_nested hnested)
  · exact absurd rfl (ne_of_nested hnested)

theorem entryOf_of_label {path key : String} (hp : path ≠ "") (hk : Legible path key)
    (ho : o.label = labelOf path key) : entryOf path o = some (key, o.value) := by
  obtain ⟨label, v⟩ := o
  obtain rfl : label = labelOf path key := ho
  simp [entryOf, belongsTo, labelOf_ne_empty hp, hasPrefix_labelOf, isMetadata, hk.2,
    keyOf_labelOf hk.1]

theorem entryOf_of_metadata (path : String) {other : String}
    (ho : o.label = other ++ metadataKeySuffix) : entryOf path o = none := by
  simp [entryOf, isMetadata, ho]

theorem describedBy_of_label {path key : String} (hk : key ≠ metadataKey)
    (ho : o.label = labelOf path key) : describedBy path o = none := by
  rw [describedBy, if_neg]
  rw [ho]
  exact fun h => hk (labelOf_eq_metadata_iff.mp h)

theorem ne_metadataKey_of_plain {key : String} (h : Plain key) : key ≠ metadataKey := by
  rintro rfl
  exact absurd h.2 (by decide)

section Shaped

variable {paths : List String} (hplain : ∀ p ∈ paths, Plain p)
  (hfree : ∀ p ∈ paths, ∀ q ∈ paths, p ≠ q → Incomparable p q) {t : Token} (hshape : Shaped paths t)
  {path : String} (hpath : path ∈ paths)

include hfree hshape hpath

theorem storedUnder_of_belongsTo {o : DataObject} (ho : o ∈ t) (h : belongsTo path o = true) :
    StoredUnder path o := by
  obtain ⟨q, hq, hstored⟩ := hshape o ho
  by_cases heq : path = q
  · exact heq ▸ hstored
  · rw [belongsTo_of_incomparable (hfree path hpath q hq heq) hstored.hasPrefix] at h
    cases h

include hplain

theorem label_of_entryOf {o : DataObject} (ho : o ∈ t) {key : String} {v : Bytes}
    (h : entryOf path o = some (key, v)) : Plain key ∧ o.label = labelOf path key := by
  have hbelongs : belongsTo path o = true := by
    by_contra hnot
    simp [entryOf, hnot] at h
  rcases storedUnder_of_belongsTo hfree hshape hpath ho hbelongs with ⟨k, hk, hlabel⟩ | hlabel
  · rw [entryOf_of_label (hplain path hpath).1 (legible_of_plain (hplain path hpath) hk) hlabel]
      at h
    obtain ⟨rfl, _⟩ := Prod.mk.inj (Option.some.inj h)
    exact ⟨hk, hlabel⟩
  · rw [entryOf_of_metadata path hlabel] at h
    cases h

theorem filterMap_entryOf_dropKey (key : String) :
    (t.filter fun o => o.label ≠ labelOf path key).filterMap (entryOf path) =
      (t.filterMap (entryOf path)).filter fun e => e.1 ≠ key := by
  rw [List.filterMap_filter, List.filter_filterMap]
  refine List.filterMap_congr fun o ho => ?_
  cases hentry : entryOf path o with
  | none => simp
  | some e =>
    obtain ⟨k, v⟩ := e
    obtain ⟨_, hlabel⟩ := label_of_entryOf hplain hfree hshape hpath ho hentry
    by_cases heq : k = key
    · simp [hlabel, heq, Option.filter]
    · have hne : labelOf path k ≠ labelOf path key := fun h => heq (labelOf_injective h)
      simp [hlabel, hne, heq, Option.filter]

theorem readSecret_dropKey (hfits : Fits t) (key : String) :
    readSecret (t.filter fun o => o.label ≠ labelOf path key) path =
      withoutKey path key (readSecret t path) := by
  have hfits' : Fits (t.filter fun o => o.label ≠ labelOf path key) :=
    le_trans (List.length_filter_le _ _) hfits
  rw [readSecret_eq_secretOf, readSecret_eq_secretOf, take_of_fits hfits, take_of_fits hfits',
    filterMap_entryOf_dropKey hplain hfree hshape hpath, secretOf_filter_ne]

end Shaped

section Frame

variable {t : Token} (hfits : Fits t) {path key : String}

include hfits

private theorem filterMap_take_filter {α : Type} {P : DataObject → Bool} {f : DataObject → Option α}
    (h : ∀ o ∈ t, P o = false → f o = none) :
    ((t.filter P).take maxObjects).filterMap f = (t.take maxObjects).filterMap f := by
  have hfits' : Fits (t.filter P) := le_trans (List.length_filter_le _ _) hfits
  rw [take_of_fits hfits, take_of_fits hfits', List.filterMap_filter]
  refine List.filterMap_congr fun o ho => ?_
  cases hP : P o with
  | true => simp
  | false => simp [h o ho hP]

theorem readMetadata_dropKey (hp : Plain path) (hk : Plain key) (other : String) :
    readMetadata (t.filter fun o => o.label ≠ labelOf path key) other = readMetadata t other := by
  rw [readMetadata_eq_metadataOf, readMetadata_eq_metadataOf, filterMap_take_filter hfits]
  intro o _ hdropped
  have hlabel : o.label = labelOf path key := by simpa using hdropped
  rw [describedBy, if_neg]
  intro hmeta
  have hdata := isMetadata_labelOf hp hk []
  rw [← hlabel, hmeta] at hdata
  simp [isMetadata] at hdata

end Frame

/-- The objects a write creates, with the entries in the order in which the map yields them. -/
def created (path : String) (entries : List (String × Bytes)) (metadata : Option SecretMetadata) :
    List DataObject :=
  entries.map (fun e => ⟨labelOf path e.1, e.2⟩) ++
    metadata.toList.map fun m => ⟨path ++ metadataKeySuffix, marshal m⟩

theorem newObjects_eq_created (path : String) (data : SecretData)
    (metadata : Option SecretMetadata) :
    newObjects path data metadata = created path data.toList metadata := rfl

section Created

variable {path : String} {entries : List (String × Bytes)} {metadata : Option SecretMetadata}

theorem hasPrefix_of_mem_created {o : DataObject} (h : o ∈ created path entries metadata) :
    hasPrefix o.label path = true := by
  simp only [created, List.mem_append, List.mem_map] at h
  rcases h with ⟨e, _, rfl⟩ | ⟨m, _, rfl⟩
  · exact hasPrefix_labelOf path e.1
  · exact hasPrefix_append path _

theorem belongsTo_of_mem_created (hp : path ≠ "") {o : DataObject}
    (h : o ∈ created path entries metadata) : belongsTo path o = true := by
  have hne : o.label ≠ "" := by
    simp only [created, List.mem_append, List.mem_map] at h
    rcases h with ⟨e, _, rfl⟩ | ⟨m, _, rfl⟩
    · exact labelOf_ne_empty hp e.1
    · simp [metadataKeySuffix]
  simp [belongsTo, hne, hasPrefix_of_mem_created h]

theorem belongsTo_of_label_mem_created (hp : path ≠ "") {o : DataObject}
    (h : o.label ∈ (created path entries metadata).map DataObject.label) :
    belongsTo path o = true := by
  obtain ⟨x, hx, hlabel⟩ := List.mem_map.mp h
  have hbelongs := belongsTo_of_mem_created hp hx
  rwa [belongsTo, hlabel] at hbelongs

theorem storedUnder_of_mem_created (hk : ∀ e ∈ entries, Plain e.1) {o : DataObject}
    (h : o ∈ created path entries metadata) : StoredUnder path o := by
  simp only [created, List.mem_append, List.mem_map] at h
  rcases h with ⟨e, he, rfl⟩ | ⟨m, _, rfl⟩
  · exact .inl ⟨e.1, hk e he, rfl⟩
  · exact .inr rfl

variable (hk : ∀ e ∈ entries, Legible path e.1)

include hk

theorem nodup_labels_created (hdistinct : (entries.map Prod.fst).Nodup) :
    ((created path entries metadata).map DataObject.label).Nodup := by
  have hkeys : (entries.map fun e => labelOf path e.1).Nodup := by
    have hmap := hdistinct.map fun k l (h : labelOf path k = labelOf path l) => labelOf_injective h
    rwa [List.map_map] at hmap
  simp only [created, List.map_append, List.map_map, Function.comp_def]
  cases metadata with
  | none => simpa using hkeys
  | some m =>
    refine hkeys.append (by simp) ?_
    intro label hlabel hmeta
    obtain ⟨e, he, rfl⟩ := List.mem_map.mp hlabel
    simp only [Option.toList_some, List.map_cons, List.map_nil, List.mem_singleton,
      labelOf_eq_metadata_iff] at hmeta
    exact (ne_metadataKey_of_legible (hk e he)) hmeta

theorem filterMap_entryOf_created (hp : path ≠ "") :
    (created path entries metadata).filterMap (entryOf path) = entries := by
  have hdata : (entries.map fun e => (⟨labelOf path e.1, e.2⟩ : DataObject)).filterMap
      (entryOf path) = entries := by
    rw [List.filterMap_map]
    refine (List.filterMap_congr fun e he => ?_).trans List.filterMap_some
    exact entryOf_of_label hp (hk e he) rfl
  have hmeta : (metadata.toList.map fun m =>
      (⟨path ++ metadataKeySuffix, marshal m⟩ : DataObject)).filterMap (entryOf path) = [] := by
    rw [List.filterMap_eq_nil_iff]
    intro o ho
    obtain ⟨m, _, rfl⟩ := List.mem_map.mp ho
    exact entryOf_of_metadata path rfl
  rw [created, List.filterMap_append, hdata, hmeta, List.append_nil]

theorem filterMap_describedBy_created :
    (created path entries metadata).filterMap (describedBy path) =
      metadata.toList.map some := by
  have hdata : (entries.map fun e => (⟨labelOf path e.1, e.2⟩ : DataObject)).filterMap
      (describedBy path) = [] := by
    rw [List.filterMap_eq_nil_iff]
    intro o ho
    obtain ⟨e, he, rfl⟩ := List.mem_map.mp ho
    exact describedBy_of_label (ne_metadataKey_of_legible (hk e he)) rfl
  rw [created, List.filterMap_append, hdata, List.nil_append]
  cases metadata with
  | none => rfl
  | some m => simp [describedBy, unmarshal_marshal]

end Created

theorem eraseP_label_eq_filter {t : Token} (h : (t.map DataObject.label).Nodup) (label : String) :
    t.eraseP (fun o => o.label = label) = t.filter fun o => o.label ≠ label := by
  induction t with
  | nil => rfl
  | cons o t ih =>
    rw [List.map_cons, List.nodup_cons] at h
    by_cases ho : o.label = label
    · have hrest : ∀ x ∈ t, x.label ≠ label := by
        intro x hx heq
        exact h.1 (ho ▸ heq ▸ List.mem_map_of_mem hx)
      rw [List.eraseP_cons_of_pos (by simpa using ho),
        List.filter_cons_of_neg (by simpa using ho), List.filter_eq_self.mpr]
      simpa using hrest
    · rw [List.eraseP_cons_of_neg (by simpa using ho), List.filter_cons_of_pos (by simpa using ho),
        ih h.2]

end HsmSecretsOperator.Hsm.Objects
