/- source: internal/hsm/pkcs11_client.go, internal/hsm/pkcs11_cgo.go
   digest: The PKCS#11 client over a flat token of labelled data objects. -/

import Mathlib.Data.List.Dedup
import HsmSecretsOperator.Hsm.MetadataJson

/-! A search hands out at most the first hundred objects, and a new object is enumerated last. -/

set_option autoImplicit false

namespace HsmSecretsOperator.Hsm.Pkcs11

open Foundation.Maps Foundation.Text MetadataJson Secret

structure DataObject where
  label : String
  value : Bytes
  deriving DecidableEq

abbrev Token := List DataObject

def defaultKeyName : String := "data"

def metadataKeySuffix : String := "/_metadata"

/-- The most objects one search returns. -/
def maxObjects : Nat := 100

/-- `findObjectsPKCS11`: objects without a label are skipped, the rest filtered by the path. -/
def findObjects (t : Token) (path : String) : List DataObject :=
  (t.take maxObjects).filter fun o =>
    o.label ≠ "" && (path = "" || hasPrefix o.label path)

def createObject (t : Token) (label : String) (value : Bytes) : Token := t ++ [⟨label, value⟩]

/-- `deleteSecretObjectsPKCS11`: only what the search returned is destroyed. -/
def deleteSecretObjects (t : Token) (path : String) : Token :=
  (t.take maxObjects).filter (fun o => !(o.label ≠ "" && hasPrefix o.label path)) ++
    t.drop maxObjects

/-- The key under which `ReadSecret` returns an object of the path. -/
def keyOf (path : String) (o : DataObject) : String :=
  let key := trimPrefix (trimPrefix o.label path) "/"
  if key = "" then defaultKeyName else key

def isMetadata (o : DataObject) : Bool := hasSuffix o.label metadataKeySuffix

/-- The objects `ReadSecret` takes for keys of the path. -/
def matchingObjects (t : Token) (path : String) : List DataObject :=
  (findObjects t path).filter fun o => hasPrefix o.label path && !isMetadata o

def readSecret (t : Token) (path : String) : Except String SecretData :=
  let found := matchingObjects t path
  let data : SecretData := assign ∅ (keyOf path) DataObject.value found
  if found = [] then .error s!"secret not found at path: {path}"
  else if data.isEmpty then
    .error s!"no valid secret data found at path: {path} (found {found.length} objects but no data)"
  else .ok data

/-- The label under which a key of a secret is stored. -/
def labelOf (path key : String) : String :=
  if key = defaultKeyName then path else path ++ "/" ++ key

def writeMetadata (t : Token) (path : String) (metadata : SecretMetadata) : Token :=
  createObject t (path ++ metadataKeySuffix) (marshal metadata)

/-- Existing objects go first; the labels of one write are distinct, so the order in which the map
yields its keys shows in no read. -/
def writeSecret (t : Token) (path : String) (data : SecretData)
    (metadata : Option SecretMetadata) : Token :=
  let t := deleteSecretObjects t path
  let t := data.toList.foldl (fun t e => createObject t (labelOf path e.1) e.2) t
  match metadata with
  | some m => writeMetadata t path m
  | none => t

def readMetadata (t : Token) (path : String) : Except String SecretMetadata :=
  let metadataLabel := path ++ metadataKeySuffix
  match (findObjects t metadataLabel).find? fun o => o.label = metadataLabel with
  | some o =>
    match unmarshal o.value with
    | some m => .ok m
    | none => .error "failed to parse metadata JSON"
  | none => .error s!"metadata not found for path: {path}"

def deleteSecret (t : Token) (path : String) : Token := deleteSecretObjects t path

/-- `DeleteSecretKey`: the search for the exact label covers the whole token and returns one
object. -/
def deleteSecretKey (t : Token) (path key : String) : Except String Token :=
  let label := if key ≠ "" && key ≠ defaultKeyName then path ++ "/" ++ key else path
  if t.any fun o => o.label = label then .ok (t.eraseP fun o => o.label = label)
  else .error s!"failed to delete secret key: key not found: {label}"

/-- The secret a label is listed under: its parent, or the label itself at the top level. -/
def listedPath (label : String) : String :=
  let parts := splitAt '/' label
  if parts.length > 1 then joinWith '/' parts.dropLast else label

/-- The listed paths; the map yields them in no particular order. -/
def listSecrets (t : Token) (under : String) : List String :=
  ((((findObjects t "").filter fun o => !isMetadata o).map fun o => listedPath o.label).filter
    fun path => under = "" || hasPrefix path under).dedup

def client : Client Token where
  readSecret := readSecret
  readMetadata := readMetadata
  writeSecret := writeSecret
  deleteSecret := deleteSecret
  listSecrets := listSecrets

@[simp] theorem client_readSecret : client.readSecret = readSecret := rfl

@[simp] theorem client_readMetadata : client.readMetadata = readMetadata := rfl

@[simp] theorem client_writeSecret : client.writeSecret = writeSecret := rfl

@[simp] theorem client_deleteSecret : client.deleteSecret = deleteSecret := rfl

@[simp] theorem client_listSecrets : client.listSecrets = listSecrets := rfl

/-- One search returns every object of the token. -/
def Fits (t : Token) : Prop := t.length ≤ maxObjects

instance (t : Token) : Decidable (Fits t) := inferInstanceAs (Decidable (t.length ≤ maxObjects))

/-- The object is taken for one of the path, by the test of the deletion loop. -/
def belongsTo (path : String) (o : DataObject) : Bool :=
  o.label ≠ "" && hasPrefix o.label path

/-- The objects a write creates. -/
def newObjects (path : String) (data : SecretData) (metadata : Option SecretMetadata) : Token :=
  data.toList.map (fun e => ⟨labelOf path e.1, e.2⟩) ++
    metadata.toList.map fun m => ⟨path ++ metadataKeySuffix, marshal m⟩

theorem hasPrefix_labelOf (path key : String) : hasPrefix (labelOf path key) path = true := by
  unfold labelOf
  split
  · exact hasPrefix_self path
  · rw [String.append_assoc]
    exact hasPrefix_append path _

variable {metadata : Option SecretMetadata} {t : Token} {data : SecretData} {o : DataObject}
  {path : String}

theorem hasPrefix_of_mem_newObjects (h : o ∈ newObjects path data metadata) :
    hasPrefix o.label path = true := by
  simp only [newObjects, List.mem_append, List.mem_map] at h
  rcases h with ⟨e, _, rfl⟩ | ⟨m, _, rfl⟩
  · exact hasPrefix_labelOf path e.1
  · exact hasPrefix_append path _

theorem foldl_createObject (path : String) (es : List (String × Bytes)) (t : Token) :
    es.foldl (fun t e => createObject t (labelOf path e.1) e.2) t =
      t ++ es.map fun e => ⟨labelOf path e.1, e.2⟩ := by
  induction es generalizing t with
  | nil => simp
  | cons e es ih =>
    rw [List.foldl_cons, ih]
    simp [createObject]

theorem writeSecret_eq (t : Token) (path : String) (data : SecretData)
    (metadata : Option SecretMetadata) : writeSecret t path data metadata =
      deleteSecretObjects t path ++ newObjects path data metadata := by
  simp only [writeSecret, foldl_createObject, newObjects]
  cases metadata with
  | none => simp
  | some m => simp [writeMetadata, createObject]

theorem take_of_fits (h : Fits t) : t.take maxObjects = t := List.take_of_length_le h

theorem deleteSecretObjects_of_fits (h : Fits t) (path : String) :
    deleteSecretObjects t path = t.filter fun o => !belongsTo path o := by
  rw [deleteSecretObjects, take_of_fits h, List.drop_of_length_le h, List.append_nil]
  rfl

theorem mem_of_mem_deleteSecretObjects (h : o ∈ deleteSecretObjects t path) : o ∈ t := by
  rw [deleteSecretObjects, List.mem_append] at h
  rcases h with h | h
  · exact List.mem_of_mem_take (List.mem_filter.mp h).1
  · exact List.mem_of_mem_drop h

theorem length_deleteSecretObjects_le (t : Token) (path : String) :
    (deleteSecretObjects t path).length ≤ t.length := by
  have htake := List.length_filter_le
    (fun o : DataObject => !(o.label ≠ "" && hasPrefix o.label path)) (t.take maxObjects)
  simp only [deleteSecretObjects, List.length_append, List.length_drop]
  simp only [List.length_take] at htake
  omega

theorem fits_deleteSecretObjects (h : Fits t) (path : String) : Fits (deleteSecretObjects t path) :=
  le_trans (length_deleteSecretObjects_le t path) h

theorem matchingObjects_eq (t : Token) (path : String) : matchingObjects t path =
    (t.take maxObjects).filter fun o => belongsTo path o && !isMetadata o := by
  rw [matchingObjects, findObjects, List.filter_filter]
  congr 1
  funext o
  simp only [belongsTo]
  cases hasPrefix o.label path <;> simp [Bool.and_comm]

section Frame

variable {P : DataObject → Bool} (hP : ∀ o, P o = true → belongsTo path o = false)

include hP

private theorem filter_deleteSecretObjects {t : Token} (h : Fits t) :
    (deleteSecretObjects t path).filter P = t.filter P := by
  rw [deleteSecretObjects_of_fits h, List.filter_filter]
  refine List.filter_congr fun o _ => ?_
  cases ho : P o with
  | false => rfl
  | true => simp [hP o ho]

theorem filter_take_deleteSecretObjects {t : Token} (h : Fits t) :
    ((deleteSecretObjects t path).take maxObjects).filter P = (t.take maxObjects).filter P := by
  rw [take_of_fits (fits_deleteSecretObjects h path), take_of_fits h,
    filter_deleteSecretObjects hP h]

theorem filter_take_writeSecret (hlabel : ∀ o, P o = true → o.label ≠ "") {t : Token} (h : Fits t)
    (data : SecretData) (metadata : Option SecretMetadata) :
    ((writeSecret t path data metadata).take maxObjects).filter P =
      (t.take maxObjects).filter P := by
  have hnew : ((newObjects path data metadata).take
      (maxObjects - (deleteSecretObjects t path).length)).filter P = [] := by
    rw [List.filter_eq_nil_iff]
    intro o ho hPo
    have hown := hasPrefix_of_mem_newObjects (List.mem_of_mem_take ho)
    have hfalse := hP o hPo
    simp [belongsTo, hlabel o hPo, hown] at hfalse
  rw [writeSecret_eq, List.take_append, List.filter_append, hnew, List.append_nil,
    filter_take_deleteSecretObjects hP h]

end Frame

/-- Neither path is a prefix of the other as a text. -/
def Incomparable (p q : String) : Prop := hasPrefix p q = false ∧ hasPrefix q p = false

instance (p q : String) : Decidable (Incomparable p q) :=
  inferInstanceAs (Decidable (hasPrefix p q = false ∧ hasPrefix q p = false))

theorem belongsTo_of_incomparable {p q : String} (h : Incomparable p q)
    (ho : hasPrefix o.label q = true) : belongsTo p o = false := by
  by_contra hp
  simp only [belongsTo, Bool.not_eq_false, Bool.and_eq_true] at hp
  rcases hasPrefix_or_hasPrefix hp.2 ho with hpq | hqp
  · exact absurd hpq (by rw [h.1]; decide)
  · exact absurd hqp (by rw [h.2]; decide)

theorem exactLabel_eq {key : String} (hkey : key ≠ "") (path : String) :
    (if key ≠ "" && key ≠ defaultKeyName then path ++ "/" ++ key else path) = labelOf path key := by
  unfold labelOf
  by_cases hdefault : key = defaultKeyName
  · simp [hdefault]
  · simp [hkey, hdefault]

theorem deleteSecretKey_of_ne {path key : String} (hkey : key ≠ "") (t : Token) :
    deleteSecretKey t path key =
      if t.any fun o => o.label = labelOf path key then
        .ok (t.eraseP fun o => o.label = labelOf path key)
      else .error s!"failed to delete secret key: key not found: {labelOf path key}" := by
  unfold deleteSecretKey
  rw [exactLabel_eq hkey]

theorem mem_of_mem_writeSecret {p q : String} (h : Incomparable p q)
    (ho : o ∈ writeSecret t q data metadata) (hbelongs : belongsTo p o = true) : o ∈ t := by
  rw [writeSecret_eq, List.mem_append] at ho
  rcases ho with hold | hnew
  · exact mem_of_mem_deleteSecretObjects hold
  · rw [belongsTo_of_incomparable h (hasPrefix_of_mem_newObjects hnew)] at hbelongs
    cases hbelongs

theorem readSecret_congr {t t' : Token} {path : String}
    (h : matchingObjects t path = matchingObjects t' path) :
    readSecret t path = readSecret t' path := by
  simp only [readSecret, h]

theorem readMetadata_eq (t : Token) (path : String) : readMetadata t path =
    match ((t.take maxObjects).filter fun o => o.label = path ++ metadataKeySuffix).head? with
    | some o =>
      match unmarshal o.value with
      | some m => .ok m
      | none => .error "failed to parse metadata JSON"
    | none => .error s!"metadata not found for path: {path}" := by
  have hne : path ++ metadataKeySuffix ≠ "" := by simp [metadataKeySuffix]
  have hfind : (findObjects t (path ++ metadataKeySuffix)).find?
      (fun o => o.label = path ++ metadataKeySuffix) =
        (t.take maxObjects).find? fun o => o.label = path ++ metadataKeySuffix := by
    rw [findObjects, List.find?_filter]
    congr 1
    funext o
    by_cases ho : o.label = path ++ metadataKeySuffix
    · simp [ho, hne]
    · simp [ho]
  rw [List.head?_filter, ← hfind]
  rfl

theorem readMetadata_congr {t t' : Token} {path : String}
    (h : ((t.take maxObjects).filter fun o => o.label = path ++ metadataKeySuffix) =
      (t'.take maxObjects).filter fun o => o.label = path ++ metadataKeySuffix) :
    readMetadata t path = readMetadata t' path := by
  rw [readMetadata_eq, readMetadata_eq, h]

section Metadata

variable {p q : String}

private theorem foreign_metadata (h : hasPrefix (q ++ metadataKeySuffix) p = false)
    (o : DataObject) (ho : decide (o.label = q ++ metadataKeySuffix) = true) :
    belongsTo p o = false := by
  simp only [decide_eq_true_eq] at ho
  simp [belongsTo, ho, h]

theorem readMetadata_writeSecret_of_not_prefix (h : hasPrefix (q ++ metadataKeySuffix) p = false)
    (hfits : Fits t) (data : SecretData) (metadata : Option SecretMetadata) :
    readMetadata (writeSecret t p data metadata) q = readMetadata t q := by
  apply readMetadata_congr
  rw [filter_take_writeSecret (foreign_metadata h) _ hfits]
  intro o ho
  simp only [decide_eq_true_eq] at ho
  simp [ho, metadataKeySuffix]

theorem readMetadata_deleteSecret_of_not_prefix (h : hasPrefix (q ++ metadataKeySuffix) p = false)
    (hfits : Fits t) : readMetadata (deleteSecret t p) q = readMetadata t q := by
  apply readMetadata_congr
  rw [deleteSecret, filter_take_deleteSecretObjects (foreign_metadata h) hfits]

theorem readMetadata_eraseP {label : String} (h : label ≠ q ++ metadataKeySuffix)
    (hfits : Fits t) :
    readMetadata (t.eraseP fun o => o.label = label) q = readMetadata t q := by
  have hfits' : Fits (t.eraseP fun o => o.label = label) := le_trans List.length_eraseP_le hfits
  apply readMetadata_congr
  rw [take_of_fits hfits, take_of_fits hfits']
  rcases List.exists_or_eq_self_of_eraseP (fun o : DataObject => decide (o.label = label)) t with
    hsame | ⟨o, before, after, _, ho, hsplit, herase⟩
  · rw [hsame]
  · simp only [decide_eq_true_eq] at ho
    rw [herase, hsplit, List.filter_append, List.filter_append,
      List.filter_cons_of_neg (by simpa [ho] using h)]

end Metadata

section Incomparable

variable {p q : String} (h : Incomparable p q)

include h

private theorem foreign_matching (o : DataObject)
    (ho : (belongsTo q o && !isMetadata o) = true) : belongsTo p o = false := by
  simp only [belongsTo, Bool.and_eq_true] at ho
  exact belongsTo_of_incomparable h ho.1.2

private theorem not_hasPrefix_metadata : hasPrefix (q ++ metadataKeySuffix) p = false := by
  rw [Bool.eq_false_iff]
  intro hfront
  rcases hasPrefix_or_hasPrefix hfront (hasPrefix_append q metadataKeySuffix) with hpq | hqp
  · exact absurd hpq (by rw [h.1]; decide)
  · exact absurd hqp (by rw [h.2]; decide)

variable (hfits : Fits t)

include hfits

theorem readSecret_writeSecret_of_incomparable (data : SecretData)
    (metadata : Option SecretMetadata) :
    readSecret (writeSecret t p data metadata) q = readSecret t q := by
  apply readSecret_congr
  rw [matchingObjects_eq, matchingObjects_eq,
    filter_take_writeSecret (foreign_matching h) _ hfits]
  intro o ho
  simp only [belongsTo, Bool.and_eq_true, decide_eq_true_eq] at ho
  exact ho.1.1

theorem readSecret_deleteSecret_of_incomparable :
    readSecret (deleteSecret t p) q = readSecret t q := by
  apply readSecret_congr
  rw [matchingObjects_eq, matchingObjects_eq, deleteSecret,
    filter_take_deleteSecretObjects (foreign_matching h) hfits]

theorem readMetadata_writeSecret_of_incomparable (data : SecretData)
    (metadata : Option SecretMetadata) :
    readMetadata (writeSecret t p data metadata) q = readMetadata t q := by
  exact readMetadata_writeSecret_of_not_prefix (not_hasPrefix_metadata h) hfits data metadata

theorem readMetadata_deleteSecret_of_incomparable :
    readMetadata (deleteSecret t p) q = readMetadata t q := by
  exact readMetadata_deleteSecret_of_not_prefix (not_hasPrefix_metadata h) hfits

end Incomparable

/-- A path or key that is not empty and does not end in the reserved word. -/
def Plain (s : String) : Prop := s ≠ "" ∧ hasSuffix s "_metadata" = false

instance (s : String) : Decidable (Plain s) :=
  inferInstanceAs (Decidable (s ≠ "" ∧ hasSuffix s "_metadata" = false))

theorem not_hasSuffix_key {key : String} (hk : Plain key) (path : String) :
    hasSuffix (path ++ "/" ++ key) metadataKeySuffix = false := by
  rw [Bool.eq_false_iff]
  intro h
  rw [String.append_assoc] at h
  have hsuffix := hasSuffix_of_separated (show '/' ∉ "_metadata".toList by decide) h
  exact absurd hsuffix (by rw [hk.2]; decide)

theorem isMetadata_labelOf {path key : String} (hp : Plain path) (hk : Plain key) (v : Bytes) :
    isMetadata ⟨labelOf path key, v⟩ = false := by
  rw [Bool.eq_false_iff]
  intro h
  simp only [isMetadata, labelOf] at h
  split at h
  · obtain ⟨r, hr⟩ := hasSuffix_iff.mp h
    have hsuffix : hasSuffix path "_metadata" = true :=
      hasSuffix_iff.mpr ⟨r ++ "/", by rw [hr, String.append_assoc]; rfl⟩
    exact absurd hsuffix (by rw [hp.2]; decide)
  · exact absurd h (by rw [not_hasSuffix_key hk path]; decide)

/-- A key that is read back as it was written: it is not empty, and its label is not taken for
one of metadata. -/
def Legible (path key : String) : Prop :=
  key ≠ "" ∧ hasSuffix (labelOf path key) metadataKeySuffix = false

instance (path key : String) : Decidable (Legible path key) :=
  inferInstanceAs (Decidable (key ≠ "" ∧ hasSuffix (labelOf path key) metadataKeySuffix = false))

theorem legible_of_plain {path key : String} (hp : Plain path) (hk : Plain key) :
    Legible path key :=
  ⟨hk.1, isMetadata_labelOf hp hk []⟩

theorem labelOf_ne_empty (hp : path ≠ "") (key : String) :
    labelOf path key ≠ "" := by
  intro hempty
  obtain ⟨r, hr⟩ := hasPrefix_iff.mp (hasPrefix_labelOf path key)
  rw [hempty] at hr
  have hlist := congrArg String.toList hr
  simp only [String.toList_append] at hlist
  exact hp (String.toList_inj.mp (List.append_eq_nil_iff.mp hlist.symm).1)

theorem keyOf_labelOf {path key : String} (hk : key ≠ "") (v : Bytes) :
    keyOf path ⟨labelOf path key, v⟩ = key := by
  unfold labelOf
  split
  next hdata =>
    have htrim : trimPrefix path path = "" := by
      simpa using trimPrefix_append path ""
    have hempty : trimPrefix "" "/" = "" := by decide
    simp only [keyOf, htrim, hempty, if_true, hdata]
  next =>
    simp only [keyOf, String.append_assoc, trimPrefix_append, if_neg hk]

private theorem filter_belongsTo_deleteSecretObjects (h : Fits t) (path : String)
    (P : DataObject → Bool) (hP : ∀ o, P o = true → belongsTo path o = true) :
    (deleteSecretObjects t path).filter P = [] := by
  rw [deleteSecretObjects_of_fits h, List.filter_eq_nil_iff]
  intro o ho hPo
  have := (List.mem_filter.mp ho).2
  simp [hP o hPo] at this

theorem matchingObjects_writeSecret (hp : path ≠ "") (hk : ∀ k ∈ data, Legible path k)
    (h : Fits t)
    (h' : Fits (writeSecret t path data metadata)) :
    matchingObjects (writeSecret t path data metadata) path =
      data.toList.map fun e => ⟨labelOf path e.1, e.2⟩ := by
  rw [matchingObjects_eq, take_of_fits h', writeSecret_eq, List.filter_append,
    filter_belongsTo_deleteSecretObjects h path _ fun o ho => (Bool.and_eq_true _ _ ▸ ho).1,
    List.nil_append, newObjects, List.filter_append, List.filter_eq_self.mpr,
    List.filter_eq_nil_iff.mpr, List.append_nil]
  · intro o ho
    obtain ⟨m, _, rfl⟩ := List.mem_map.mp ho
    simp [isMetadata]
  · intro o ho
    obtain ⟨e, he, rfl⟩ := List.mem_map.mp ho
    simp [belongsTo, labelOf_ne_empty hp, hasPrefix_labelOf, isMetadata,
      (hk e.1 (mem_of_mem_toList he)).2]

private theorem assign_objects (path : String) (hk : ∀ k ∈ data, Legible path k) :
    assign (∅ : SecretData) (keyOf path) DataObject.value
      (data.toList.map fun e => ⟨labelOf path e.1, e.2⟩) = data := by
  have hmap (es : List (String × Bytes)) (hes : ∀ e ∈ es, e.1 ≠ "") (m : SecretData) :
      assign m (keyOf path) DataObject.value (es.map fun e => ⟨labelOf path e.1, e.2⟩) =
        assign m Prod.fst Prod.snd es := by
    induction es generalizing m with
    | nil => rfl
    | cons e es ih =>
      rw [List.map_cons, assign_cons, assign_cons, keyOf_labelOf (hes e List.mem_cons_self)]
      exact ih (fun e' he' => hes e' (List.mem_cons_of_mem e he')) _
  rw [hmap _ (fun e he => (hk e.1 (mem_of_mem_toList he)).1), assign_of_perm_toList data (.refl _)]

/-- Token write and read round trip. -/
theorem readSecret_writeSecret (hp : path ≠ "") (hk : ∀ k ∈ data, Legible path k)
    (hne : data ≠ ∅) (h : Fits t) (h' : Fits (writeSecret t path data metadata)) :
    readSecret (writeSecret t path data metadata) path = .ok data := by
  have hfound : data.toList ≠ [] := fun hnil => hne (by simpa using hnil)
  simp only [readSecret, matchingObjects_writeSecret hp hk h h', assign_objects path hk]
  rw [if_neg (by simpa using hfound), if_neg (by rwa [Std.ExtTreeMap.isEmpty_iff])]

private theorem filter_metadata_deleteSecretObjects (h : Fits t) (path : String) :
    (deleteSecretObjects t path).filter (fun o => o.label = path ++ metadataKeySuffix) = [] := by
  have hne : path ++ metadataKeySuffix ≠ "" := by simp [metadataKeySuffix]
  refine filter_belongsTo_deleteSecretObjects h path _ fun o ho => ?_
  simp only [decide_eq_true_eq] at ho
  simp [belongsTo, ho, hne]

/-- The key whose object is taken for the metadata of the path. -/
def metadataKey : String := "_metadata"

theorem labelOf_eq_metadata_iff {path key : String} :
    labelOf path key = path ++ metadataKeySuffix ↔ key = metadataKey := by
  have hsuffix : metadataKeySuffix = "/" ++ metadataKey := by decide
  rw [hsuffix]
  constructor
  · intro h
    unfold labelOf at h
    split at h
    · have hlength := congrArg (fun s => s.toList.length) h
      simp [metadataKey] at hlength
    · rw [String.append_assoc] at h
      exact String.append_right_inj _ |>.mp (String.append_right_inj _ |>.mp h)
  · rintro rfl
    unfold labelOf
    rw [if_neg (by decide), String.append_assoc]

theorem ne_metadataKey_of_legible {key : String} (h : Legible path key) : key ≠ metadataKey := by
  intro hkey
  have := h.2
  simp [labelOf_eq_metadata_iff.mpr hkey] at this

theorem metadataKey_not_mem (hk : ∀ k ∈ data, Legible path k) : metadataKey ∉ data :=
  fun hmem => ne_metadataKey_of_legible (hk metadataKey hmem) rfl

theorem readMetadata_writeSecret (hk : metadataKey ∉ data) (h : Fits t)
    (h' : Fits (writeSecret t path data metadata)) :
    readMetadata (writeSecret t path data metadata) path =
      match metadata with
      | some m => .ok m
      | none => .error s!"metadata not found for path: {path}" := by
  have hdata : (data.toList.map fun e => (⟨labelOf path e.1, e.2⟩ : DataObject)).filter
      (fun o => o.label = path ++ metadataKeySuffix) = [] := by
    rw [List.filter_eq_nil_iff]
    intro o ho hlabel
    obtain ⟨e, he, rfl⟩ := List.mem_map.mp ho
    simp only [decide_eq_true_eq, labelOf_eq_metadata_iff] at hlabel
    exact hk (hlabel ▸ mem_of_mem_toList he)
  rw [readMetadata_eq, take_of_fits h', writeSecret_eq, List.filter_append,
    filter_metadata_deleteSecretObjects h, List.nil_append, newObjects, List.filter_append, hdata]
  cases metadata with
  | none => simp
  | some m => simp [unmarshal_marshal]

theorem hasPrefix_listedPath (label : String) : hasPrefix label (listedPath label) = true := by
  unfold listedPath
  dsimp only
  split
  next hlen =>
    have hne := splitAt_ne_nil '/' label
    have hparts := List.dropLast_append_getLast hne
    have hdrop : (splitAt '/' label).dropLast ≠ [] := by
      intro hnil
      have := congrArg List.length hnil
      rw [List.length_dropLast, List.length_nil] at this
      omega
    refine hasPrefix_iff.mpr ⟨String.singleton '/' ++ (splitAt '/' label).getLast hne, ?_⟩
    rw [← joinWith_concat hdrop, hparts, joinWith_splitAt]
  next => exact hasPrefix_self label

theorem mem_listSecrets : path ∈ listSecrets t "" ↔
    ∃ o ∈ t.take maxObjects, o.label ≠ "" ∧ isMetadata o = false ∧ listedPath o.label = path := by
  simp only [listSecrets, List.mem_dedup, findObjects, decide_true, Bool.true_or,
    List.filter_true, Bool.and_true, List.mem_map, List.mem_filter, decide_eq_true_eq]
  simp only [Bool.not_eq_true', and_assoc]

theorem listedPath_labelOf {path key : String} (hk : '/' ∉ key.toList)
    (hp : key = defaultKeyName → '/' ∉ path.toList) : listedPath (labelOf path key) = path := by
  unfold labelOf
  split
  next hdefault =>
    have hsingle : splitAt '/' path = [path] := by
      simp [splitAt, List.splitOn_eq_singleton (hp hdefault)]
    simp [listedPath, hsingle]
  · have hparts : splitAt '/' (path ++ "/" ++ key) = splitAt '/' path ++ [key] := by
      rw [String.append_assoc]
      exact splitAt_append hk
    have hlen := List.length_pos_iff.mpr (splitAt_ne_nil '/' path)
    simp only [listedPath, hparts, List.length_append, List.length_singleton]
    rw [if_pos (by omega), List.dropLast_concat, joinWith_splitAt]

end HsmSecretsOperator.Hsm.Pkcs11
