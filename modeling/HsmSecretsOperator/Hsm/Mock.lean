/- source: internal/hsm/mock_client.go, internal/hsm/pkcs11_client.go
   digest: Where the mock of the client answers as the client does over a token. -/

import HsmSecretsOperator.Foundation.Runs
import HsmSecretsOperator.Hsm.Representation

set_option autoImplicit false

namespace HsmSecretsOperator.Hsm.Mock

open Foundation.Maps Foundation.Runs Foundation.Text Labels Pkcs11 Hsm.Representation Secret
  Security.Validation Vault

structure MockClient where
  secrets : Std.ExtTreeMap String SecretData
  metadata : Std.ExtTreeMap String SecretMetadata

def newMockClient : MockClient := { secrets := ∅, metadata := ∅ }

def readSecret (m : MockClient) (path : String) : Except String SecretData :=
  match m.secrets[path]? with
  | some data => .ok data
  | none => .error s!"secret not found at path: {path}"

def writeSecret (m : MockClient) (path : String) (data : SecretData)
    (metadata : Option SecretMetadata) : MockClient where
  secrets := m.secrets.insert path data
  metadata :=
    match metadata with
    | some x => m.metadata.insert path x
    | none => m.metadata

def readMetadata (m : MockClient) (path : String) : Except String SecretMetadata :=
  match m.metadata[path]? with
  | some x => .ok x
  | none => .error s!"metadata not found for path: {path}"

def deleteSecret (m : MockClient) (path : String) : Except String MockClient :=
  if path ∈ m.secrets then
    .ok { secrets := m.secrets.erase path, metadata := m.metadata.erase path }
  else .error s!"secret not found at path: {path}"

/-- The texts quote names as they are, which is what `%q` does to the characters they can have. -/
def deleteSecretKey (m : MockClient) (path key : String) : Except String MockClient :=
  match m.secrets[path]? with
  | some data =>
    if key ∈ data then .ok { m with secrets := m.secrets.insert path (data.erase key) }
    else .error s!"key \"{key}\" not found in secret \"{path}\""
  | none => .error s!"secret not found at path: {path}"

def listSecrets (m : MockClient) (under : String) : List String :=
  m.secrets.keys.filter fun path => hasPrefix path under

inductive Op where
  | readSecret (path : String)
  | writeSecret (path : String) (data : SecretData) (metadata : Option SecretMetadata)
  | readMetadata (path : String)
  | deleteSecret (path : String)
  | deleteSecretKey (path key : String)
  | listSecrets (under : String)

inductive Reply where
  | data (data : SecretData)
  | metadata (metadata : SecretMetadata)
  | paths (paths : List String)
  | done
  | failed
  deriving DecidableEq

/-- The listed paths are compared as sets, errors only by that they are there. -/
def Reply.Same : Reply → Reply → Prop
  | paths ps, paths qs => ∀ path, path ∈ ps ↔ path ∈ qs
  | r, r' => r = r'

instance : DecidableRel Reply.Same
  | .paths ps, .paths qs => decidable_of_iff ((∀ p ∈ ps, p ∈ qs) ∧ ∀ p ∈ qs, p ∈ ps)
      ⟨fun h p => ⟨h.1 p, h.2 p⟩, fun h => ⟨fun p => (h p).mp, fun p => (h p).mpr⟩⟩
  | .paths _, .data _ | .paths _, .metadata _ | .paths _, .done | .paths _, .failed =>
    isFalse nofun
  | .data d, r => inferInstanceAs (Decidable (Reply.data d = r))
  | .metadata x, r => inferInstanceAs (Decidable (Reply.metadata x = r))
  | .done, r => inferInstanceAs (Decidable (Reply.done = r))
  | .failed, r => inferInstanceAs (Decidable (Reply.failed = r))

def replyOf {α : Type} (f : α → Reply) : Except String α → Reply
  | .ok a => f a
  | .error _ => .failed

/-- An operation that fails leaves the state as it is. -/
def settle {σ : Type} (s : σ) : Except String σ → σ × Reply
  | .ok s' => (s', .done)
  | .error _ => (s, .failed)

def onMock (m : MockClient) : Op → MockClient × Reply
  | .readSecret path => (m, replyOf .data (readSecret m path))
  | .writeSecret path data metadata => (writeSecret m path data metadata, .done)
  | .readMetadata path => (m, replyOf .metadata (readMetadata m path))
  | .deleteSecret path => settle m (deleteSecret m path)
  | .deleteSecretKey path key => settle m (deleteSecretKey m path key)
  | .listSecrets under => (m, .paths (listSecrets m under))

def onToken (t : Token) : Op → Token × Reply
  | .readSecret path => (t, replyOf .data (Pkcs11.readSecret t path))
  | .writeSecret path data metadata => (Pkcs11.writeSecret t path data metadata, .done)
  | .readMetadata path => (t, replyOf .metadata (Pkcs11.readMetadata t path))
  | .deleteSecret path => (Pkcs11.deleteSecret t path, .done)
  | .deleteSecretKey path key => settle t (Pkcs11.deleteSecretKey t path key)
  | .listSecrets under => (t, .paths (Pkcs11.listSecrets t under))

structure Stores where
  mock : MockClient
  token : Token

def empty : Stores := { mock := newMockClient, token := [] }

def step (s : Stores) (op : Op) : Stores where
  mock := (onMock s.mock op).1
  token := (onToken s.token op).1

def SameReply (s : Stores) (op : Op) : Prop := (onMock s.mock op).2.Same (onToken s.token op).2

instance (s : Stores) (op : Op) : Decidable (SameReply s op) :=
  inferInstanceAs (Decidable (Reply.Same _ _))

def StaysSmall (s : Stores) (op : Op) : Prop := Fits (step s op).token

instance (s : Stores) (op : Op) : Decidable (StaysSmall s op) :=
  inferInstanceAs (Decidable (Fits _))

namespace Op

def path? : Op → Option String
  | readSecret path => some path
  | writeSecret path _ _ => some path
  | readMetadata path => some path
  | deleteSecret path => some path
  | deleteSecretKey path _ => some path
  | listSecrets _ => none

def ValidPath (path : String) : Prop := validateSecretPath path = .ok () ∧ '/' ∉ path.toList

def ValidKey (key : String) : Prop := AcceptableKey key ∧ '/' ∉ key.toList

/-- What is written may be empty; a listing may ask for any beginning. -/
def Valid (op : Op) : Prop :=
  (∀ path ∈ op.path?, ValidPath path) ∧
    match op with
    | writeSecret _ data _ => ∀ key ∈ data, ValidKey key
    | deleteSecretKey _ key => ValidKey key
    | _ => True

end Op

def pathsOf (ops : List Op) : List String := ops.filterMap Op.path?

/-- No path that is used is a prefix of another one. -/
def PrefixFree (ops : List Op) : Prop :=
  ∀ p ∈ pathsOf ops, ∀ q ∈ pathsOf ops, p ≠ q → Incomparable p q

instance (ops : List Op) : Decidable (PrefixFree ops) :=
  inferInstanceAs (Decidable (∀ p ∈ _, ∀ q ∈ _, _))

/-- The cases in which the mock stands in for the token. -/
def Faithful (s : Stores) : Op → Prop
  | .readSecret path => s.mock.secrets[path]? ≠ some ∅
  | .writeSecret _ _ _ => True
  | .readMetadata path => path ∈ s.mock.metadata →
      ∃ o ∈ s.token, o.label = path ++ metadataKeySuffix
  | .deleteSecret path => path ∈ s.mock.secrets
  | .deleteSecretKey _ _ => True
  | .listSecrets under => ∀ path : String, s.mock.secrets[path]? = some ∅ →
      hasPrefix path under = false

instance (s : Stores) : DecidablePred (Faithful s)
  | .readSecret path => inferInstanceAs (Decidable (s.mock.secrets[path]? ≠ some ∅))
  | .writeSecret _ _ _ => isTrue trivial
  | .readMetadata path => inferInstanceAs (Decidable (path ∈ s.mock.metadata →
      ∃ o ∈ s.token, o.label = path ++ metadataKeySuffix))
  | .deleteSecret path => inferInstanceAs (Decidable (path ∈ s.mock.secrets))
  | .deleteSecretKey _ _ => isTrue trivial
  | .listSecrets under => decidable_of_iff (∀ path ∈ s.mock.secrets.keys,
      s.mock.secrets[path]? = some ∅ → hasPrefix path under = false)
    ⟨fun h path hpath => h path (Std.ExtTreeMap.mem_keys.mpr (mem_of_getElem? hpath)) hpath,
      fun h path _ => h path⟩

/-- The mock has the data of the store, and at least its metadata. -/
structure Matches (m : MockClient) (v : Store) : Prop where
  secrets : ∀ path : String, m.secrets[path]? = v[path]?.map Copy.data
  described : ∀ (path : String) (copy : Copy) (x : SecretMetadata), v[path]? = some copy →
    copy.metadata = some x → m.metadata[path]? = some x
  undescribed : ∀ path : String, v[path]? = none → m.metadata[path]? = none

structure Inv (paths : List String) (s : Stores) (v : Store) : Prop where
  represents : Represents paths s.token v
  agrees : Matches s.mock v
  slashless : ∀ (path : String) (copy : Copy), v[path]? = some copy →
    ∀ key ∈ copy.data, '/' ∉ key.toList

section Matches

variable {m : MockClient} {v : Store} (h : Matches m v) {path : String}

include h

theorem Matches.mem_secrets : path ∈ m.secrets ↔ ∃ copy, v[path]? = some copy := by
  rw [Std.ExtTreeMap.mem_iff_isSome_getElem?, h.secrets, Option.isSome_map,
    Option.isSome_iff_exists]

theorem Matches.write (data : SecretData) (metadata : Option SecretMetadata) :
    Matches (writeSecret m path data metadata) (Vault.writeSecret v path data metadata) where
  secrets := by
    intro q
    by_cases hne : path = q
    · subst hne
      rw [Vault.getElem?_writeSecret_self]
      exact Std.ExtTreeMap.getElem?_insert_self
    · rw [Vault.getElem?_writeSecret_of_ne v hne, ← h.secrets]
      exact getElem?_insert_of_ne m.secrets hne data
  described := by
    intro q copy x hcopy hx
    by_cases hne : path = q
    · subst hne
      rw [Vault.getElem?_writeSecret_self] at hcopy
      obtain rfl := Option.some.inj hcopy
      obtain rfl : metadata = some x := hx
      exact Std.ExtTreeMap.getElem?_insert_self
    · rw [Vault.getElem?_writeSecret_of_ne v hne] at hcopy
      have hold := h.described q copy x hcopy hx
      cases metadata with
      | none => exact hold
      | some y => exact (getElem?_insert_of_ne m.metadata hne y).trans hold
  undescribed := by
    intro q hnone
    have hne : path ≠ q := by
      rintro rfl
      simp at hnone
    rw [Vault.getElem?_writeSecret_of_ne v hne] at hnone
    have hold := h.undescribed q hnone
    cases metadata with
    | none => exact hold
    | some y => exact (getElem?_insert_of_ne m.metadata hne y).trans hold

theorem Matches.delete :
    Matches (settle m (deleteSecret m path)).1 (Vault.deleteSecret v path) := by
  unfold deleteSecret
  by_cases hmem : path ∈ m.secrets
  · rw [if_pos hmem]
    refine ⟨fun q => ?_, fun q copy x hcopy hx => ?_, fun q hnone => ?_⟩
    all_goals
      by_cases hne : path = q
    · subst hne
      simp [settle, Vault.deleteSecret]
    · simp only [settle, Vault.deleteSecret, getElem?_erase_of_ne _ hne, h.secrets]
    · subst hne
      simp [Vault.deleteSecret] at hcopy
    · rw [Vault.deleteSecret, getElem?_erase_of_ne _ hne] at hcopy
      exact (getElem?_erase_of_ne m.metadata hne).trans (h.described q copy x hcopy hx)
    · subst hne
      simp [settle]
    · rw [Vault.deleteSecret, getElem?_erase_of_ne _ hne] at hnone
      exact (getElem?_erase_of_ne m.metadata hne).trans (h.undescribed q hnone)
  · have hnone : v[path]? = none := by
      rw [Option.eq_none_iff_forall_ne_some]
      exact fun copy hcopy => hmem (h.mem_secrets.mpr ⟨copy, hcopy⟩)
    have hsame : Vault.deleteSecret v path = v := by
      refine Std.ExtTreeMap.ext_getElem? fun q => ?_
      by_cases hne : path = q
      · subst hne
        simp [Vault.deleteSecret, hnone]
      · exact getElem?_erase_of_ne v hne
    rw [if_neg hmem, hsame]
    exact h

theorem Matches.deleteKey {copy : Copy} (hcopy : v[path]? = some copy) (key : String) :
    Matches { m with secrets := m.secrets.insert path (copy.data.erase key) }
      (v.insert path { copy with data := copy.data.erase key }) where
  secrets := by
    intro q
    by_cases hne : path = q
    · subst hne
      simp
    · simp only [getElem?_insert_of_ne _ hne, h.secrets]
  described := by
    intro q c x hc hx
    rcases of_getElem?_insert hc with ⟨rfl, rfl⟩ | hc
    · exact h.described path copy x hcopy hx
    · exact h.described q c x hc hx
  undescribed := by
    intro q hnone
    by_cases hne : path = q
    · subst hne
      simp at hnone
    · rw [getElem?_insert_of_ne v hne] at hnone
      exact h.undescribed q hnone

end Matches

section Steps

variable {paths : List String} (hplain : ∀ p ∈ paths, Plain p)
  (hfree : ∀ p ∈ paths, ∀ q ∈ paths, p ≠ q → Incomparable p q) {s : Stores} {v : Store}
  (h : Inv paths s v) {path : String} (hpath : path ∈ paths)

include hplain hfree h hpath

/-- The two clients delete a key, or fail to, at the same calls. -/
private theorem deleteSecretKey_cases {key : String} (hkey : Plain key) :
    (∃ copy, v[path]? = some copy ∧
      deleteSecretKey s.mock path key =
        .ok { s.mock with secrets := s.mock.secrets.insert path (copy.data.erase key) } ∧
      Pkcs11.deleteSecretKey s.token path key =
        .ok (s.token.eraseP fun o => o.label = labelOf path key)) ∨
    ((onMock s.mock (.deleteSecretKey path key)) = (s.mock, .failed) ∧
      (onToken s.token (.deleteSecretKey path key)) = (s.token, .failed)) := by
  have hany := any_label_iff hplain hfree h.represents hpath hkey
  have hsecrets := h.agrees.secrets path
  rw [onMock, onToken, Pkcs11.deleteSecretKey_of_ne hkey.1, deleteSecretKey]
  cases hcopy : v[path]? with
  | none =>
    have hnot : ¬ (s.token.any fun o => o.label = labelOf path key) = true := by
      rw [hany, hcopy]
      simp
    rw [hsecrets, hcopy, if_neg hnot]
    exact .inr ⟨rfl, rfl⟩
  | some copy =>
    have hany' : (s.token.any fun o => o.label = labelOf path key) = true ↔ key ∈ copy.data := by
      rw [hany, hcopy]
      simp
    rw [hsecrets, hcopy, Option.map_some]
    by_cases hmem : key ∈ copy.data
    · rw [if_pos (hany'.mpr hmem)]
      exact .inl ⟨copy, rfl, if_pos hmem, rfl⟩
    · rw [if_neg fun hpresent => hmem (hany'.mp hpresent)]
      refine .inr ⟨?_, rfl⟩
      simp only [hmem, if_false]
      rfl

omit hpath in
/-- Every operation keeps that the token represents a store that the mock matches. -/
private theorem exists_inv_step {op : Op} (hused : ∀ p ∈ op.path?, p ∈ paths) (hvalid : op.Valid)
    (hfits : StaysSmall s op) : ∃ v', Inv paths (step s op) v' := by
  cases op with
  | readSecret path => exact ⟨v, h⟩
  | readMetadata path => exact ⟨v, h⟩
  | listSecrets under => exact ⟨v, h⟩
  | writeSecret path data metadata =>
    have hkeys : ∀ key ∈ data, Plain key := fun key hkey =>
      plain_of_acceptableKey (hvalid.2 key hkey).1
    refine ⟨Vault.writeSecret v path data metadata,
      h.represents.write hplain hfree (hused path rfl) hkeys hfits, h.agrees.write data metadata,
      fun q copy hcopy => ?_⟩
    rcases of_getElem?_insert hcopy with ⟨_, rfl⟩ | hcopy
    · exact fun key hkey => (hvalid.2 key hkey).2
    · exact h.slashless q copy hcopy
  | deleteSecret path =>
    exact ⟨Vault.deleteSecret v path, h.represents.delete hplain hfree (hused path rfl),
      h.agrees.delete, fun q copy hcopy => h.slashless q copy (of_getElem?_erase hcopy)⟩
  | deleteSecretKey path key =>
    have hkey := plain_of_acceptableKey hvalid.2.1
    rcases deleteSecretKey_cases hplain hfree h (hused path rfl) hkey with
      ⟨copy, hcopy, hmock, htoken⟩ | ⟨hmock, htoken⟩
    · refine ⟨v.insert path { copy with data := copy.data.erase key }, ?_, ?_, ?_⟩
      · rw [step, onToken, htoken]
        exact h.represents.deleteKey hfree (hused path rfl) hkey hcopy
      · rw [step, onMock, hmock]
        exact h.agrees.deleteKey hcopy key
      · intro q c hc k hk
        rcases of_getElem?_insert hc with ⟨_, rfl⟩ | hc
        · exact h.slashless path copy hcopy k (Std.ExtTreeMap.mem_of_mem_erase hk)
        · exact h.slashless q c hc k hk
    · refine ⟨v, ?_⟩
      rw [step, hmock, htoken]
      exact h

private theorem same_readSecret_iff :
    SameReply s (.readSecret path) ↔ Faithful s (.readSecret path) := by
  simp only [SameReply, Faithful, onMock, onToken, readSecret, h.agrees.secrets path,
    readSecret_eq hplain hfree h.represents hpath, Vault.readSecret]
  cases v[path]? with
  | none => simp [replyOf, Reply.Same]
  | some copy =>
    by_cases hempty : copy.data = ∅
    · simp [replyOf, Reply.Same, hempty]
    · have hne : copy.data.isEmpty = false := by
        rw [Bool.eq_false_iff]
        exact fun h => hempty (Std.ExtTreeMap.isEmpty_iff.mp h)
      simp [replyOf, Reply.Same, hempty, hne]

omit hplain in
private theorem exists_metadata_iff : (∃ o ∈ s.token, o.label = path ++ metadataKeySuffix) ↔
    ∃ x, v[path]?.bind Copy.metadata = some x := by
  have hmem := mem_described hfree h.represents hpath
  constructor
  · rintro ⟨o, ho, hlabel⟩
    obtain ⟨copy, x, hcopy, hx, _⟩ := (hmem _).mp
      (List.mem_filterMap.mpr ⟨o, ho, if_pos hlabel⟩)
    exact ⟨x, Option.bind_eq_some_iff.mpr ⟨copy, hcopy, hx⟩⟩
  · rintro ⟨x, hx⟩
    obtain ⟨copy, hcopy, hx⟩ := Option.bind_eq_some_iff.mp hx
    obtain ⟨o, ho, hdescribed⟩ := List.mem_filterMap.mp
      ((hmem (some x)).mpr ⟨copy, x, hcopy, hx, rfl⟩)
    refine ⟨o, ho, ?_⟩
    by_contra hlabel
    rw [Objects.describedBy, if_neg hlabel] at hdescribed
    cases hdescribed

omit hplain in
private theorem same_readMetadata_iff :
    SameReply s (.readMetadata path) ↔ Faithful s (.readMetadata path) := by
  have hobject := exists_metadata_iff hfree h hpath
  simp only [SameReply, Faithful, onMock, onToken, readMetadata, hobject,
    readMetadata_eq hfree h.represents hpath, Vault.readMetadata,
    Std.ExtTreeMap.mem_iff_isSome_getElem?]
  cases hx : v[path]?.bind Copy.metadata with
  | some x =>
    obtain ⟨copy, hcopy, hcopyx⟩ := Option.bind_eq_some_iff.mp hx
    rw [h.agrees.described path copy x hcopy hcopyx]
    simp [replyOf, Reply.Same]
  | none =>
    cases s.mock.metadata[path]? with
    | none => simp [replyOf, Reply.Same]
    | some y => simp [replyOf, Reply.Same]

omit hplain hfree h hpath in
private theorem same_deleteSecret_iff :
    SameReply s (.deleteSecret path) ↔ Faithful s (.deleteSecret path) := by
  simp only [SameReply, Faithful, onMock, onToken, deleteSecret]
  by_cases hmem : path ∈ s.mock.secrets
  · simp [hmem, settle, Reply.Same]
  · simp [hmem, settle, Reply.Same]

omit hfree hpath in
private theorem same_listSecrets_iff (hslash : ∀ p ∈ paths, '/' ∉ p.toList) (under : String) :
    SameReply s (.listSecrets under) ↔ Faithful s (.listSecrets under) := by
  have hmock (p : String) : p ∈ listSecrets s.mock under ↔
      (∃ copy, v[p]? = some copy) ∧ hasPrefix p under = true := by
    rw [listSecrets, List.mem_filter, Std.ExtTreeMap.mem_keys, h.agrees.mem_secrets]
  have htoken (p : String) : p ∈ Pkcs11.listSecrets s.token under ↔
      (∃ copy, v[p]? = some copy ∧ copy.data ≠ ∅) ∧ hasPrefix p under = true :=
    h.represents.mem_listSecrets hplain hslash h.slashless
  have hempty (p : String) : s.mock.secrets[p]? = some ∅ ↔
      ∃ copy, v[p]? = some copy ∧ copy.data = ∅ := by
    rw [h.agrees.secrets, Option.map_eq_some_iff]
  simp only [SameReply, Faithful, onMock, onToken, Reply.Same, hmock, htoken, hempty]
  refine forall_congr' fun p => ?_
  cases v[p]? with
  | none => simp
  | some copy =>
    by_cases hdata : copy.data = ∅
    · simp [hdata]
    · simp [hdata]

omit hpath in
private theorem sameReply_iff (hslash : ∀ p ∈ paths, '/' ∉ p.toList) {op : Op}
    (hused : ∀ p ∈ op.path?, p ∈ paths) (hvalid : op.Valid) : SameReply s op ↔ Faithful s op := by
  cases op with
  | readSecret path => exact same_readSecret_iff hplain hfree h (hused path rfl)
  | writeSecret path data metadata => exact iff_of_true rfl trivial
  | readMetadata path => exact same_readMetadata_iff hfree h (hused path rfl)
  | deleteSecret path => exact same_deleteSecret_iff
  | deleteSecretKey path key =>
    refine iff_of_true ?_ trivial
    rcases deleteSecretKey_cases hplain hfree h (hused path rfl)
      (plain_of_acceptableKey hvalid.2.1) with ⟨copy, _, hmock, htoken⟩ | ⟨hmock, htoken⟩
    · rw [SameReply, onMock, onToken, hmock, htoken]
      rfl
    · rw [SameReply, hmock, htoken]
      rfl
  | listSecrets under => exact same_listSecrets_iff hplain h hslash under

end Steps

/-- The mock matches some store that the token represents. -/
def Related (paths : List String) (s : Stores) : Prop := ∃ v, Inv paths s v

theorem related_empty (paths : List String) : Related paths empty := by
  refine ⟨∅, represents_empty paths, ⟨?_, ?_, ?_⟩, ?_⟩
  · simp [empty, newMockClient]
  · simp
  · simp [empty, newMockClient]
  · simp

/-- From empty stores the mock gives the same results as the token over exactly those runs whose
every operation is a faithful case. -/
theorem sameReplies_iff (ops : List Op) (hvalid : ∀ op ∈ ops, op.Valid) (hfree : PrefixFree ops)
    (hsmall : Along step StaysSmall empty ops) :
    Along step SameReply empty ops ↔ Along step Faithful empty ops := by
  have hpaths : ∀ p ∈ pathsOf ops, Op.ValidPath p := by
    intro p hp
    obtain ⟨op, hop, hpath⟩ := List.mem_filterMap.mp hp
    exact (hvalid op hop).1 p hpath
  have hplain : ∀ p ∈ pathsOf ops, Plain p := fun p hp =>
    plain_of_validateSecretPath (hpaths p hp).1
  have hslash : ∀ p ∈ pathsOf ops, '/' ∉ p.toList := fun p hp => (hpaths p hp).2
  have hused : ∀ op ∈ ops, ∀ p ∈ op.path?, p ∈ pathsOf ops := fun op hop p hp =>
    List.mem_filterMap.mpr ⟨op, hop, hp⟩
  have hops : Along step (fun _ op => op ∈ ops) empty ops := Along.of_forall fun op hop _ => hop
  refine Along.congr_of_kept ?_ ?_ (related_empty (pathsOf ops)) (hops.and hsmall)
  · rintro s op ⟨v, hinv⟩ ⟨hop, _⟩
    exact sameReply_iff hplain hfree hinv hslash (hused op hop) (hvalid op hop)
  · rintro s op ⟨v, hinv⟩ ⟨hop, hfits⟩ _
    exact exists_inv_step hplain hfree hinv (hused op hop) (hvalid op hop) hfits

private def password : SecretData := (∅ : SecretData).insert "password" (utf8 "x")

private theorem validPath_db : ∀ path ∈ some "db", Op.ValidPath path := by
  rintro path ⟨⟩
  exact ⟨by decide, by decide⟩

private theorem valid_write (metadata : Option SecretMetadata) :
    (Op.writeSecret "db" password metadata).Valid := by
  refine ⟨validPath_db, fun key hkey => ?_⟩
  obtain rfl : "password" = key := by simpa [password] using hkey
  exact ⟨acceptableKey_of_single (by decide +kernel), by decide⟩

private def tombstoned : List Op := [.writeSecret "db" ∅ (some {}), .readSecret "db"]

private theorem valid_tombstoned : ∀ op ∈ tombstoned, op.Valid := by
  intro op hop
  simp only [tombstoned, List.mem_cons, List.not_mem_nil, or_false] at hop
  rcases hop with rfl | rfl
  · exact ⟨validPath_db, fun key hkey => absurd hkey Std.ExtTreeMap.not_mem_empty⟩
  · exact ⟨validPath_db, trivial⟩

/-- The mock reads a secret without data, and the token does not find it. -/
theorem tombstone_is_read :
    (∀ op ∈ tombstoned, op.Valid) ∧ PrefixFree tombstoned ∧
      Along step StaysSmall empty tombstoned ∧ ¬ Along step SameReply empty tombstoned :=
  ⟨valid_tombstoned, by decide +kernel, by decide +kernel, by decide +kernel⟩

private def everyday : List Op :=
  [.writeSecret "db" password (some {}), .readSecret "db", .readMetadata "db", .listSecrets "",
    .deleteSecretKey "db" "user", .deleteSecret "db", .readSecret "db"]

theorem sameReplies_everyday : Along step SameReply empty everyday := by
  refine (sameReplies_iff everyday (fun op hop => ?_) (by decide +kernel)
    (by decide +kernel)).mpr (by decide +kernel)
  simp only [everyday, List.mem_cons, List.not_mem_nil, or_false] at hop
  rcases hop with rfl | rfl | rfl | rfl | rfl | rfl | rfl
  · exact valid_write (some {})
  · exact ⟨validPath_db, trivial⟩
  · exact ⟨validPath_db, trivial⟩
  · exact ⟨nofun, trivial⟩
  · exact ⟨validPath_db, acceptableKey_of_single (by decide +kernel), by decide⟩
  · exact ⟨validPath_db, trivial⟩
  · exact ⟨validPath_db, trivial⟩

end HsmSecretsOperator.Hsm.Mock
