/- source: internal/hsm/pkcs11_client.go
   digest: Devices on which the secrets of some paths are kept apart, and tokens of this kind. -/

import HsmSecretsOperator.Hsm.Objects

set_option autoImplicit false

namespace HsmSecretsOperator.Hsm.Layout

open Foundation.Maps Objects Pkcs11 Secret
open Foundation.Text (Bytes hasPrefix)

/-- What a device answers for a path. -/
structure Held where
  data : Option SecretData := none
  metadata : Option SecretMetadata := none
  deriving DecidableEq

section Laws

variable {σ : Type} (c : Client σ)

def held (s : σ) (p : String) : Held :=
  { data := (c.readSecret s p).toOption, metadata := (c.readMetadata s p).toOption }

/-- The states of a device in which the secrets of some paths do not get into each other's way,
and the contents that keep them so. -/
structure Laws where
  tidy : σ → Prop
  paths : String → Prop
  admits : String → SecretData → Prop
  admits_held : ∀ {s p data}, tidy s → paths p → (held c s p).data = some data → admits p data
  listed : ∀ {s p}, tidy s → (p ∈ c.listSecrets s "" ↔ paths p ∧ (held c s p).data ≠ none)
  tidy_write : ∀ {s p data}, tidy s → paths p → admits p data →
    ∀ m, tidy (c.writeSecret s p data (some m))
  held_write : ∀ {s p data}, tidy s → paths p → admits p data →
    ∀ m, held c (c.writeSecret s p data (some m)) p = ⟨some data, some m⟩
  held_write_of_ne : ∀ {s p q data}, tidy s → paths p → paths q → p ≠ q → admits p data →
    ∀ m, held c (c.writeSecret s p data (some m)) q = held c s q

variable {c} {s : σ} {p : String} {data : SecretData}

theorem held_data_eq_some : (held c s p).data = some data ↔ c.readSecret s p = .ok data := by
  rw [held]
  cases c.readSecret s p <;> simp [Except.toOption]

theorem held_data_ne_none : (held c s p).data ≠ none ↔ ∃ data, c.readSecret s p = .ok data := by
  simp only [Option.ne_none_iff_exists', held_data_eq_some]

end Laws

/-- The paths and keys in use: no path is a prefix of another, every object is listed under its own
path, and one search covers them all together. -/
structure Catalogue where
  paths : List String
  keys : String → List String
  named : ∀ p ∈ paths, p ≠ ""
  apart : ∀ p ∈ paths, ∀ q ∈ paths, p ≠ q → Incomparable p q
  keyed : ∀ p ∈ paths, ∀ key ∈ keys p, Legible p key ∧ listedPath (labelOf p key) = p
  room : (paths.map fun p => (keys p).length + 1).sum ≤ maxObjects

/-- The catalogue of one secret with one key. -/
def Catalogue.single (p key : String) (hp : p ≠ "") (hkey : Legible p key)
    (hlisted : listedPath (labelOf p key) = p) : Catalogue where
  paths := [p]
  keys _ := [key]
  named := by simpa using hp
  apart := by
    intro q hq r hr hne
    exact absurd ((List.mem_singleton.mp hq).trans (List.mem_singleton.mp hr).symm) hne
  keyed := by simpa using ⟨hkey, hlisted⟩
  room := by simp [maxObjects]

/-- The catalogue of the secret `db` with the key `password`. -/
def dbOnly : Catalogue := .single "db" "password" (by decide) (by decide) (by decide +kernel)

/-- The labels of the objects, with one of metadata for each path. -/
def Catalogue.labels (cat : Catalogue) : List String :=
  cat.paths.flatMap fun p => (p ++ metadataKeySuffix) :: (cat.keys p).map (labelOf p)

/-- All objects of the token are in the catalogue, each once. -/
structure Tidy (cat : Catalogue) (t : Token) : Prop where
  unique : (t.map DataObject.label).Nodup
  catalogued : ∀ o ∈ t, o.label ∈ cat.labels

instance (cat : Catalogue) (t : Token) : Decidable (Tidy cat t) :=
  decidable_of_iff ((t.map DataObject.label).Nodup ∧ ∀ o ∈ t, o.label ∈ cat.labels)
    ⟨fun h => ⟨h.1, h.2⟩, fun h => ⟨h.unique, h.catalogued⟩⟩

/-- The data has keys, and all of them are in the catalogue. -/
def Catalogue.Admits (cat : Catalogue) (p : String) (data : SecretData) : Prop :=
  data ≠ ∅ ∧ ∀ key ∈ data, key ∈ cat.keys p

variable {cat : Catalogue} {t : Token} {p q : String} {data : SecretData}

theorem mem_labels {label : String} : label ∈ cat.labels ↔ ∃ p ∈ cat.paths,
    label = p ++ metadataKeySuffix ∨ ∃ key ∈ cat.keys p, label = labelOf p key := by
  simp only [Catalogue.labels, List.mem_flatMap, List.mem_cons, List.mem_map, eq_comm]

namespace Tidy

variable (h : Tidy cat t)

include h

theorem fits : Fits t := by
  have hlength : cat.labels.length ≤ maxObjects := by
    have hroom := cat.room
    simpa [Catalogue.labels, List.length_flatMap] using hroom
  have hsub := (List.subperm_of_subset h.unique fun label hlabel => by
    obtain ⟨o, ho, rfl⟩ := List.mem_map.mp hlabel
    exact h.catalogued o ho).length_le
  rw [List.length_map] at hsub
  exact hsub.trans hlength

/-- The objects that are listed are those of keys. -/
theorem key_of_not_metadata {o : DataObject} (ho : o ∈ t) (hmeta : isMetadata o = false) :
    ∃ p ∈ cat.paths, ∃ key ∈ cat.keys p, o.label = labelOf p key := by
  obtain ⟨p, hp, hlabel | hkey⟩ := mem_labels.mp (h.catalogued o ho)
  · simp [isMetadata, hlabel] at hmeta
  · exact ⟨p, hp, hkey⟩

theorem of_entryOf (hp : p ∈ cat.paths) {o : DataObject} (ho : o ∈ t) {key : String} {v : Bytes}
    (hentry : entryOf p o = some (key, v)) : key ∈ cat.keys p ∧ o = ⟨labelOf p key, v⟩ := by
  obtain ⟨q, hq, hlabel | ⟨k, hk, hlabel⟩⟩ := mem_labels.mp (h.catalogued o ho)
  · rw [entryOf_of_metadata p hlabel] at hentry
    cases hentry
  -- An object of another catalogued path would make one path a prefix of the other.
  obtain rfl : p = q := by
    by_contra hne
    have hforeign := belongsTo_of_incomparable (cat.apart p hp q hq hne)
      (hlabel ▸ hasPrefix_labelOf q k : hasPrefix o.label q = true)
    rw [entryOf_of_not_belongsTo hforeign] at hentry
    cases hentry
  rw [entryOf_of_label (cat.named p hp) (cat.keyed p hp k hk).1 hlabel, Option.some.injEq,
    Prod.mk.injEq] at hentry
  obtain ⟨rfl, rfl⟩ := hentry
  exact ⟨hk, by rw [← hlabel]⟩

theorem exists_of_readSecret (hp : p ∈ cat.paths) (hread : readSecret t p = .ok data)
    {key : String} (hkey : key ∈ data) :
    key ∈ cat.keys p ∧ ∃ v, (⟨labelOf p key, v⟩ : DataObject) ∈ t := by
  rw [readSecret_eq_secretOf, take_of_fits h.fits, secretOf] at hread
  split at hread
  · cases hread
  · rw [← Except.ok.inj hread, mem_assign] at hkey
    obtain hempty | ⟨⟨k, v⟩, he, rfl⟩ := hkey
    · exact absurd hempty Std.ExtTreeMap.not_mem_empty
    · obtain ⟨o, ho, hentry⟩ := List.mem_filterMap.mp he
      obtain ⟨hk, rfl⟩ := h.of_entryOf hp ho hentry
      exact ⟨hk, v, ho⟩

theorem admits_readSecret (hp : p ∈ cat.paths) (hread : readSecret t p = .ok data) :
    cat.Admits p data := by
  constructor
  · rintro rfl
    rw [readSecret_eq_secretOf, secretOf] at hread
    split at hread
    · cases hread
    next hne => exact hne (assign_eq_empty_iff.mp (Except.ok.inj hread))
  · intro key hkey
    exact (h.exists_of_readSecret hp hread hkey).1

theorem mem_listSecrets_iff :
    p ∈ listSecrets t "" ↔ p ∈ cat.paths ∧ ∃ data, readSecret t p = .ok data := by
  rw [mem_listSecrets, take_of_fits h.fits]
  constructor
  · rintro ⟨o, ho, _, hmeta, rfl⟩
    obtain ⟨q, hq, key, hkey, hlabel⟩ := h.key_of_not_metadata ho hmeta
    obtain ⟨hlegible, hlisted⟩ := cat.keyed q hq key hkey
    rw [hlabel, hlisted]
    have hentry := entryOf_of_label (cat.named q hq) hlegible hlabel
    refine ⟨hq, assign ∅ Prod.fst Prod.snd (t.filterMap (entryOf q)), ?_⟩
    rw [readSecret_eq_secretOf, take_of_fits h.fits, secretOf,
      if_neg (List.ne_nil_of_mem (List.mem_filterMap.mpr ⟨o, ho, hentry⟩))]
  · rintro ⟨hp, data, hread⟩
    have hadmits := h.admits_readSecret hp hread
    obtain ⟨⟨key, v⟩, he⟩ := List.exists_mem_of_ne_nil data.toList
      fun hnil => hadmits.1 (by simpa using hnil)
    obtain ⟨hkey, v, ho⟩ := h.exists_of_readSecret hp hread (mem_of_mem_toList he)
    obtain ⟨hlegible, hlisted⟩ := cat.keyed p hp key hkey
    exact ⟨_, ho, labelOf_ne_empty (cat.named p hp) key, hlegible.2, hlisted⟩

variable (hp : p ∈ cat.paths) (hdata : cat.Admits p data)

include hp hdata

theorem writeSecret (metadata : Option SecretMetadata) :
    Tidy cat (Pkcs11.writeSecret t p data metadata) := by
  have hkeys : ∀ e ∈ data.toList, Legible p e.1 := fun e he =>
    (cat.keyed p hp e.1 (hdata.2 e.1 (mem_of_mem_toList he))).1
  rw [writeSecret_eq, deleteSecretObjects_of_fits h.fits]
  constructor
  · rw [List.map_append]
    refine (h.unique.sublist (List.filter_sublist.map _)).append
      (nodup_labels_created hkeys (nodup_map_fst_toList data)) ?_
    intro label hold hnew
    obtain ⟨o, ho, rfl⟩ := List.mem_map.mp hold
    have hbelongs := belongsTo_of_label_mem_created (cat.named p hp) hnew
    simp [hbelongs] at ho
  · intro o ho
    rcases List.mem_append.mp ho with hold | hnew
    · exact h.catalogued o (List.mem_filter.mp hold).1
    · simp only [newObjects, List.mem_append, List.mem_map] at hnew
      rcases hnew with ⟨e, he, rfl⟩ | ⟨m, _, rfl⟩
      · exact mem_labels.mpr
          ⟨p, hp, .inr ⟨e.1, hdata.2 e.1 (mem_of_mem_toList he), rfl⟩⟩
      · exact mem_labels.mpr ⟨p, hp, .inl rfl⟩

theorem held_writeSecret (m : SecretMetadata) :
    held client (Pkcs11.writeSecret t p data (some m)) p = ⟨some data, some m⟩ := by
  have hkeys : ∀ k ∈ data, Legible p k := fun k hk => (cat.keyed p hp k (hdata.2 k hk)).1
  have hfits := (h.writeSecret hp hdata (some m)).fits
  rw [held, client_readSecret, client_readMetadata,
    readSecret_writeSecret (cat.named p hp) hkeys hdata.1 h.fits hfits,
    readMetadata_writeSecret (metadataKey_not_mem hkeys) h.fits hfits]
  rfl

end Tidy

/-- Tokens that keep to a catalogue. -/
def Catalogue.laws (cat : Catalogue) : Laws client where
  tidy := Tidy cat
  paths p := p ∈ cat.paths
  admits := cat.Admits
  admits_held h hp hheld := h.admits_readSecret hp (held_data_eq_some.mp hheld)
  listed h := by
    rw [held_data_ne_none]
    exact h.mem_listSecrets_iff
  tidy_write h hp hdata m := h.writeSecret hp hdata (some m)
  held_write h hp hdata m := h.held_writeSecret hp hdata m
  held_write_of_ne h hp hq hne _ m := by
    have hapart := cat.apart _ hp _ hq hne
    simp only [held, client_readSecret, client_readMetadata, client_writeSecret,
      readSecret_writeSecret_of_incomparable hapart h.fits,
      readMetadata_writeSecret_of_incomparable hapart h.fits]

/-- One search covers the token, also after a write of so many keys at the path. -/
structure Roomy (path : String) (size : Nat) (t : Token) : Prop where
  fits : Fits t
  room : (t.filter fun o => !belongsTo path o).length + size + 1 ≤ maxObjects

namespace Roomy

variable {path : String} {size : Nat} (metadata : Option SecretMetadata)

private theorem length_newObjects_le (path : String) (data : SecretData) :
    (newObjects path data metadata).length ≤ data.size + 1 := by
  cases metadata <;> simp [newObjects]

theorem fits_writeSecret (h : Roomy path data.size t) :
    Fits (Pkcs11.writeSecret t path data metadata) := by
  have hnew := length_newObjects_le metadata path data
  have hroom := h.room
  rw [writeSecret_eq, deleteSecretObjects_of_fits h.fits, Fits, List.length_append]
  omega

theorem writeSecret (hpath : path ≠ "") (hdata : Roomy path data.size t) (h : Roomy path size t) :
    Roomy path size (Pkcs11.writeSecret t path data metadata) := by
  refine ⟨hdata.fits_writeSecret metadata, ?_⟩
  -- The new objects all belong to the path.
  have hnew : (newObjects path data metadata).filter (fun o => !belongsTo path o) = [] := by
    rw [List.filter_eq_nil_iff]
    intro o ho
    rw [newObjects_eq_created] at ho
    simp [belongsTo_of_mem_created hpath ho]
  rw [writeSecret_eq, deleteSecretObjects_of_fits h.fits, List.filter_append, hnew,
    List.append_nil, List.filter_filter]
  simpa using h.room

end Roomy

end HsmSecretsOperator.Hsm.Layout
