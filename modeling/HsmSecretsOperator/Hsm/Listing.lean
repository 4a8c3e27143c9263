/- source: internal/hsm/pkcs11_client.go, internal/security/validation.go
   digest: Whether the paths listed from the labels are those whose latest operation was a write. -/

import HsmSecretsOperator.Foundation.Runs
import HsmSecretsOperator.Security.Validation

set_option autoImplicit false

namespace HsmSecretsOperator.Hsm.Listing

open Foundation.Maps Foundation.Runs Foundation.Text Pkcs11 Secret Security.Validation

inductive Op where
  | write (path : String) (data : SecretData) (metadata : Option SecretMetadata)
  | delete (path : String)

def Op.path : Op → String
  | .write path _ _ => path
  | .delete path => path

/-- The token, and the paths whose latest operation was a write. -/
structure State where
  token : Token
  live : List String

def step (s : State) : Op → State
  | .write path data metadata =>
    { token := writeSecret s.token path data metadata, live := s.live.insert path }
  | .delete path => { token := deleteSecret s.token path, live := s.live.erase path }

def blank : State := { token := [], live := [] }

/-- The listing has the live paths and no others, each once. -/
def Lists (s : State) : Prop :=
  (listSecrets s.token "").Nodup ∧ ∀ path, path ∈ listSecrets s.token "" ↔ path ∈ s.live

/-- What is written passes the checks of the agent. -/
def Valid : Op → Prop
  | .write path data _ => validateSecretPath path = .ok () ∧ validateSecretData data = .ok ()
  | .delete _ => True

instance : DecidablePred Valid
  | .write path data _ => inferInstanceAs
      (Decidable (validateSecretPath path = .ok () ∧ validateSecretData data = .ok ()))
  | .delete _ => inferInstanceAs (Decidable True)

/-- No path that is used is a prefix of another one. -/
def PrefixFree (ops : List Op) : Prop :=
  ∀ a ∈ ops, ∀ b ∈ ops, a.path ≠ b.path → Incomparable a.path b.path

instance (ops : List Op) : Decidable (PrefixFree ops) :=
  inferInstanceAs (Decidable (∀ a ∈ ops, ∀ b ∈ ops, _))

def StaysSmall (s : State) (op : Op) : Prop := Fits (step s op).token

instance (s : State) (op : Op) : Decidable (StaysSmall s op) := inferInstanceAs (Decidable (Fits _))

/-- The written keys have no slashes, and the default key goes to a path without slashes. -/
def Decodable : Op → Prop
  | .write path data _ => ∀ key ∈ data.keys,
      '/' ∉ key.toList ∧ (key = defaultKeyName → '/' ∉ path.toList)
  | .delete _ => True

instance : DecidablePred Decodable
  | .write path data _ => inferInstanceAs (Decidable (∀ key ∈ data.keys,
      '/' ∉ key.toList ∧ (key = defaultKeyName → '/' ∉ path.toList)))
  | .delete _ => inferInstanceAs (Decidable True)

/-- Every object that is listed has a live path, and every live path has such an object. -/
structure Inv (paths : List String) (s : State) : Prop where
  fits : Fits s.token
  nodup : s.live.Nodup
  used : ∀ path ∈ s.live, path ∈ paths
  sound : ∀ o ∈ s.token, o.label ≠ "" → isMetadata o = false → listedPath o.label ∈ s.live
  complete : ∀ path ∈ s.live, ∃ o ∈ s.token,
    o.label ≠ "" ∧ isMetadata o = false ∧ listedPath o.label = path

section Steps

variable {paths : List String} {s : State}

theorem Inv.lists (h : Inv paths s) : Lists s := by
  refine ⟨List.nodup_dedup _, fun path => ?_⟩
  rw [mem_listSecrets, take_of_fits h.fits]
  constructor
  · rintro ⟨o, ho, hlabel, hmeta, rfl⟩
    exact h.sound o ho hlabel hmeta
  · exact h.complete path

variable (hfree : ∀ p ∈ paths, ∀ q ∈ paths, p ≠ q → Incomparable p q)

include hfree

private theorem complete_deleteSecretObjects (hs : Inv paths s) {path : String}
    (hpath : path ∈ paths) {q : String} (hq : q ∈ s.live) (hne : q ≠ path) :
    ∃ o ∈ deleteSecretObjects s.token path,
      o.label ≠ "" ∧ isMetadata o = false ∧ listedPath o.label = q := by
  obtain ⟨o, ho, hlabel, hmeta, rfl⟩ := hs.complete q hq
  refine ⟨o, ?_, hlabel, hmeta, rfl⟩
  rw [deleteSecretObjects_of_fits hs.fits, List.mem_filter, Bool.not_eq_true']
  refine ⟨ho, belongsTo_of_incomparable ?_ (hasPrefix_listedPath o.label)⟩
  exact hfree path hpath _ (hs.used _ hq) (Ne.symm hne)

private theorem inv_write (hs : Inv paths s) {path : String} {data : SecretData}
    {metadata : Option SecretMetadata} (hpath : path ∈ paths)
    (hvalid : Valid (.write path data metadata)) (h : Decodable (.write path data metadata))
    (hfits : StaysSmall s (.write path data metadata)) :
    Inv paths (step s (.write path data metadata)) := by
  have hplain := plain_of_validateSecretPath hvalid.1
  have hkeys := plain_of_validateSecretData hvalid.2
  have hlisted : ∀ e ∈ data.toList, listedPath (labelOf path e.1) = path := by
    intro e he
    obtain ⟨hslash, hdefault⟩ := h e.1 (Std.ExtTreeMap.mem_keys.mpr (mem_of_mem_toList he))
    exact listedPath_labelOf hslash hdefault
  refine ⟨hfits, hs.nodup.insert, ?_, ?_, ?_⟩
  · intro q hq
    rcases List.mem_insert_iff.mp hq with rfl | hq
    · exact hpath
    · exact hs.used q hq
  · intro o ho hlabel hmeta
    rw [step, writeSecret_eq, List.mem_append] at ho
    apply List.mem_insert_iff.mpr
    rcases ho with hold | hnew
    · exact .inr (hs.sound o (mem_of_mem_deleteSecretObjects hold) hlabel hmeta)
    · simp only [newObjects, List.mem_append, List.mem_map] at hnew
      rcases hnew with ⟨e, he, rfl⟩ | ⟨m, _, rfl⟩
      · exact .inl (hlisted e he)
      · simp [isMetadata] at hmeta
  · intro q hq
    rw [step, writeSecret_eq]
    by_cases heq : q = path
    · subst heq
      have hentries : data.toList ≠ [] := fun hnil =>
        ne_empty_of_validateSecretData hvalid.2 (by simpa using hnil)
      obtain ⟨e, he⟩ := List.exists_mem_of_ne_nil _ hentries
      refine ⟨⟨labelOf q e.1, e.2⟩, ?_, labelOf_ne_empty hplain.1 e.1,
        isMetadata_labelOf hplain (hkeys e.1 (mem_of_mem_toList he)) e.2, hlisted e he⟩
      exact List.mem_append_right _ (List.mem_append_left _ (List.mem_map_of_mem he))
    · have hlive := (List.mem_insert_iff.mp hq).resolve_left heq
      obtain ⟨o, ho, hlist⟩ := complete_deleteSecretObjects hfree hs hpath hlive heq
      exact ⟨o, List.mem_append_left _ ho, hlist⟩

private theorem inv_delete (hs : Inv paths s) {path : String} (hpath : path ∈ paths) :
    Inv paths (step s (.delete path)) := by
  refine ⟨fits_deleteSecretObjects hs.fits path, hs.nodup.erase path, ?_, ?_, ?_⟩
  · intro q hq
    exact hs.used q (List.mem_of_mem_erase hq)
  · intro o ho hlabel hmeta
    have hsound := hs.sound o (mem_of_mem_deleteSecretObjects ho) hlabel hmeta
    refine hs.nodup.mem_erase_iff.mpr ⟨fun heq => ?_, hsound⟩
    rw [step, deleteSecret, deleteSecretObjects_of_fits hs.fits, List.mem_filter,
      Bool.not_eq_true'] at ho
    have hfront := hasPrefix_listedPath o.label
    rw [heq] at hfront
    have hkept := ho.2
    simp [belongsTo, hlabel, hfront] at hkept
  · intro q hq
    obtain ⟨hne, hlive⟩ := hs.nodup.mem_erase_iff.mp hq
    exact complete_deleteSecretObjects hfree hs hpath hlive hne

end Steps

/-- The listing is exact after every run that writes decodable keys only. -/
theorem listing_exact (ops : List Op) (hvalid : ∀ op ∈ ops, Valid op) (hfree : PrefixFree ops)
    (hsmall : Along step StaysSmall blank ops) (h : ∀ op ∈ ops, Decodable op) :
    Lists (run step blank ops) := by
  have hpaths : ∀ p ∈ ops.map Op.path, ∀ q ∈ ops.map Op.path, p ≠ q → Incomparable p q := by
    intro p hp q hq
    obtain ⟨a, ha, rfl⟩ := List.mem_map.mp hp
    obtain ⟨b, hb, rfl⟩ := List.mem_map.mp hq
    exact hfree a ha b hb
  have hops : Along step (fun _ op => op ∈ ops) blank ops := Along.of_forall fun op hop _ => hop
  have hinit : Inv (ops.map Op.path) blank := by
    refine ⟨Nat.zero_le _, List.nodup_nil, ?_, ?_, ?_⟩
    all_goals
      intro x hx
      cases hx
  refine ((hops.and hsmall).run_invariant ?_ hinit).lists
  rintro s op hs ⟨hop, hfits⟩
  have hpath := List.mem_map_of_mem (f := Op.path) hop
  cases op with
  | write path data metadata =>
    exact inv_write hpaths hs hpath (hvalid _ hop) (h _ hop) hfits
  | delete path => exact inv_delete hpaths hs hpath

private def dataOf (keys : List String) : SecretData :=
  keys.foldl (fun data key => data.insert key (utf8 "x")) ∅

/-- The default key of a path with a slash is listed under the parent of the path. -/
theorem default_key_lists_parent :
    Valid (.write "app/db" (dataOf ["data"]) none) ∧
      Fits (run step blank [.write "app/db" (dataOf ["data"]) none]).token ∧
        ¬ Lists (run step blank [.write "app/db" (dataOf ["data"]) none]) := by
  refine ⟨by decide +kernel, by decide +kernel, fun h => ?_⟩
  have hlive := (h.2 "app").mp (by decide +kernel)
  revert hlive
  decide +kernel

theorem listing_exact_three :
    Lists (run step blank [.write "app/db" (dataOf ["password", "user"]) none,
      .write "web" (dataOf ["data", "crt"]) none, .delete "app/db"]) :=
  listing_exact _ (by decide +kernel) (by decide +kernel) (by decide +kernel) (by decide +kernel)

end HsmSecretsOperator.Hsm.Listing
