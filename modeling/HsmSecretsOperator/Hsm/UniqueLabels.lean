/- source: internal/hsm/pkcs11_client.go, internal/hsm/pkcs11_cgo.go,
     internal/security/validation.go
   digest: Whether labels stay unique over runs of successful operations, and key deletion exact. -/

import HsmSecretsOperator.Hsm.Cryptoki

set_option autoImplicit false

namespace HsmSecretsOperator.Hsm.UniqueLabels

open Cryptoki Foundation.Calls.Program Foundation.Maps Foundation.Runs Foundation.Text Labels
  Objects Pkcs11 Secret Security.Validation

/-- The order in which a write goes through its data is a part of the operation. -/
inductive Op where
  | write (path : String) (data : SecretData) (entries : List (String × Bytes))
      (metadata : Option SecretMetadata)
  | delete (path : String)
  | deleteKey (path key : String)

namespace Op

def path : Op → String
  | write path _ _ _ => path
  | delete path => path
  | deleteKey path _ => path

def calls : Op → Calling (Except String Unit)
  | write path _ entries metadata => writeSecret path entries metadata
  | delete path => deleteSecret path
  | deleteKey path key => deleteSecretKey path key

/-- The path and the keys pass the checks of the agent. -/
def Valid : Op → Prop
  | write path data entries _ => validateSecretPath path = .ok () ∧
      (∀ key ∈ data, AcceptableKey key) ∧ entries.Perm data.toList
  | delete path => validateSecretPath path = .ok ()
  | deleteKey path key => validateSecretPath path = .ok () ∧ AcceptableKey key

def createdLabels : Op → List String
  | write path _ entries metadata => (created path entries metadata).map DataObject.label
  | delete _ => []
  | deleteKey _ _ => []

end Op

abbrev Attempt := Op × List (Option String)

def step (s : Session) (a : Attempt) : Session := (exec serve none a.1.calls s a.2).2

def Succeeds (s : Session) (a : Attempt) : Prop := (exec serve none a.1.calls s a.2).1 = .ok ()

instance (s : Session) (a : Attempt) : Decidable (Succeeds s a) :=
  inferInstanceAs (Decidable (_ = _))

def StaysSmall (s : Session) (a : Attempt) : Prop := Fits (step s a).token

instance (s : Session) (a : Attempt) : Decidable (StaysSmall s a) :=
  inferInstanceAs (Decidable (Fits _))

/-- No path that is used is a prefix of another one. -/
def PrefixFree (attempts : List Attempt) : Prop :=
  ∀ a ∈ attempts, ∀ b ∈ attempts, a.1.path ≠ b.1.path → Incomparable a.1.path b.1.path

instance (attempts : List Attempt) : Decidable (PrefixFree attempts) :=
  inferInstanceAs (Decidable (∀ a ∈ attempts, ∀ b ∈ attempts, _))

def UniquelyLabelled (t : Token) : Prop := (t.map DataObject.label).Nodup

instance (t : Token) : Decidable (UniquelyLabelled t) := inferInstanceAs (Decidable (List.Nodup _))

/-- The object of the key is gone, all others and the metadata are as they were, and the secret has
lost the key. -/
structure TakesKey (path key : String) (s s' : Session) : Prop where
  objects : s'.objects = s.objects.filter fun o => o.2.label ≠ labelOf path key
  metadata : readMetadata s'.token path = readMetadata s.token path
  secret : ∃ data, readSecret s.token path = .ok data ∧ key ∈ data ∧ readSecret s'.token path =
    if data.erase key = ∅ then .error s!"secret not found at path: {path}"
    else .ok (data.erase key)

/-- A step that deletes a key takes that key and nothing else. -/
def DeletesExactly (s : Session) (a : Attempt) : Prop :=
  ∀ path key, a.1 = .deleteKey path key → TakesKey path key s (step s a)

def Exact (s : Session) (a : Attempt) : Prop :=
  UniquelyLabelled (step s a).token ∧ DeletesExactly s a

/-- No object whose label the operation fails to read has a label that it creates. -/
def Clear (s : Session) (a : Attempt) : Prop :=
  ∀ o ∈ unread (a.2.drop 2) (s.objects.take maxObjects), o.2.label ∉ a.1.createdLabels

instance (s : Session) (a : Attempt) : Decidable (Clear s a) :=
  inferInstanceAs (Decidable (∀ o ∈ _, _))

structure Inv (paths : List String) (s : Session) : Prop where
  fits : Fits s.token
  shaped : Shaped paths s.token
  unique : UniquelyLabelled s.token

section Steps

variable {paths : List String} (hplain : ∀ p ∈ paths, Plain p)
  (hfree : ∀ p ∈ paths, ∀ q ∈ paths, p ≠ q → Incomparable p q) {s : Session}
  {faults : List (Option String)}

private theorem without_sublist (s : Session) (gone : List Nat) :
    (s.without gone).Sublist s.token :=
  List.filter_sublist.map _

theorem token_write {path : String} {data : SecretData} {entries : List (String × Bytes)}
    {metadata : Option SecretMetadata}
    (h : Succeeds s (.write path data entries metadata, faults)) :
    (step s (.write path data entries metadata, faults)).token =
      s.without (targets path s faults) ++ created path entries metadata := by
  obtain ⟨gone, n, _, htoken, hok, _⟩ := exec_writeSecret path entries metadata s faults
  obtain ⟨rfl, hlength⟩ := hok h
  rw [List.take_of_length_le hlength] at htoken
  exact htoken

theorem token_delete {path : String} (h : Succeeds s (.delete path, faults)) :
    (step s (.delete path, faults)).token = s.without (targets path s faults) := by
  obtain ⟨gone, _, hobjects, hok, _⟩ := exec_deleteSecretObjects path s faults
  have hexec := exec_deleteSecret path s faults
  rw [Succeeds, Op.calls, hexec, mapError_eq_ok_iff] at h
  obtain rfl := hok h
  rw [step, Op.calls, hexec, Session.token, hobjects]
  rfl

theorem step_deleteKey {path key : String} (hkey : key ≠ "")
    (h : Succeeds s (.deleteKey path key, faults)) :
    ∃ o ∈ s.objects, o.2.label = labelOf path key ∧
      step s (.deleteKey path key, faults) = s.destroy o.1 := by
  have hexec := exec_deleteSecretKey hkey path s faults
  rw [Succeeds, Op.calls, hexec, mapError_eq_ok_iff] at h
  obtain ⟨o, hfind, hdestroy⟩ := (exec_deleteSecretKeyObject (labelOf path key) s faults).1 h
  refine ⟨o, List.mem_of_find?_eq_some hfind, by simpa using List.find?_some hfind, ?_⟩
  rw [step, Op.calls, hexec]
  exact hdestroy

private theorem destroy_objects (hunique : UniquelyLabelled s.token) {o : Nat × DataObject}
    (ho : o ∈ s.objects) :
    (s.destroy o.1).objects = s.objects.filter fun x => x.2.label ≠ o.2.label := by
  have hinj : (s.objects.map fun x => x.2.label).Nodup := by
    rw [UniquelyLabelled, Session.token, List.map_map] at hunique
    exact hunique
  refine List.filter_congr fun x hx => ?_
  have hsame : x.1 = o.1 ↔ x.2.label = o.2.label := by
    constructor
    · intro heq
      rw [s.eq_of_handle_eq hx ho heq]
    · intro heq
      rw [List.inj_on_of_nodup_map hinj hx ho heq]
  simp [hsame]

private theorem token_filter {s' : Session} {label : String}
    (h : s'.objects = s.objects.filter fun o => o.2.label ≠ label) :
    s'.token = s.token.filter fun o => o.label ≠ label := by
  rw [Session.token, h, Session.token, List.filter_map]
  rfl

section Write

variable {path : String} {data : SecretData} {entries : List (String × Bytes)}
  {metadata : Option SecretMetadata} (hvalid : (Op.write path data entries metadata).Valid)

include hvalid

private theorem plain_keys : ∀ e ∈ entries, Plain e.1 := by
  intro e he
  have hmem := mem_of_mem_toList (hvalid.2.2.mem_iff.mp he)
  exact plain_of_acceptableKey (hvalid.2.1 e.1 hmem)

private theorem nodup_created : UniquelyLabelled (created path entries metadata) := by
  have hplain := plain_of_validateSecretPath hvalid.1
  refine nodup_labels_created (fun e he => legible_of_plain hplain (plain_keys hvalid e he)) ?_
  rw [(hvalid.2.2.map Prod.fst).nodup_iff]
  exact nodup_map_fst_toList data

theorem unique_write_iff (hunique : UniquelyLabelled s.token) (hfits : Fits s.token)
    (h : Succeeds s (.write path data entries metadata, faults)) :
    UniquelyLabelled (step s (.write path data entries metadata, faults)).token ↔
      Clear s (.write path data entries metadata, faults) := by
  have hold : ((s.without (targets path s faults)).map DataObject.label).Nodup :=
    hunique.sublist ((without_sublist s _).map _)
  have hcreated : ((created path entries metadata).map DataObject.label).Nodup :=
    nodup_created hvalid
  rw [token_write h, UniquelyLabelled, List.map_append, List.nodup_append, and_iff_right hold,
    and_iff_right hcreated]
  constructor
  · intro hdisjoint o ho hlabel
    have hmem := (unread_sublist _ _).subset ho
    have hkept : o.1 ∉ targets path s faults := fun htarget => ((mem_targets hmem).mp htarget).2 ho
    have hleft : o.2 ∈ s.without (targets path s faults) :=
      List.mem_map_of_mem (List.mem_filter.mpr ⟨List.mem_of_mem_take hmem, by simpa using hkept⟩)
    exact hdisjoint _ (List.mem_map_of_mem hleft) _ hlabel rfl
  · intro hclear label hleft label' hnew heq
    subst heq
    obtain ⟨x, hx, rfl⟩ := List.mem_map.mp hleft
    obtain ⟨o, ho, rfl⟩ := List.mem_map.mp hx
    obtain ⟨hmem, hkept⟩ := List.mem_filter.mp ho
    rw [← Session.take_objects_of_fits hfits] at hmem
    have hread : o ∉ unread (faults.drop 2) (s.objects.take maxObjects) := fun hunread =>
      hclear o hunread hnew
    have hbelongs : belongsTo path o.2 = true :=
      belongsTo_of_label_mem_created (plain_of_validateSecretPath hvalid.1).1 hnew
    have htarget := (mem_targets hmem).mpr ⟨hbelongs, hread⟩
    simp [htarget] at hkept

end Write

include hplain hfree in
private theorem takesKey_deleteKey (hinv : Inv paths s) {path key : String} (hpath : path ∈ paths)
    (hkey : Plain key) (h : Succeeds s (.deleteKey path key, faults)) :
    TakesKey path key s (step s (.deleteKey path key, faults)) := by
  obtain ⟨o, ho, hlabel, hstep⟩ := step_deleteKey hkey.1 h
  have hobjects : (step s (.deleteKey path key, faults)).objects =
      s.objects.filter fun x => x.2.label ≠ labelOf path key := by
    rw [hstep, destroy_objects hinv.unique ho, hlabel]
  have hlegible := legible_of_plain (hplain path hpath) hkey
  have hentry := entryOf_of_label (hplain path hpath).1 hlegible hlabel
  have hmem : (key, o.2.value) ∈ s.token.filterMap (entryOf path) :=
    List.mem_filterMap.mpr ⟨o.2, List.mem_map_of_mem ho, hentry⟩
  have hread : readSecret s.token path =
      .ok (assign ∅ Prod.fst Prod.snd (s.token.filterMap (entryOf path))) := by
    rw [readSecret_eq_secretOf, take_of_fits hinv.fits, secretOf, if_neg (List.ne_nil_of_mem hmem)]
  refine ⟨hobjects, ?_, _, hread, mem_assign.mpr (.inr ⟨_, hmem, rfl⟩), ?_⟩
  · rw [token_filter hobjects]
    exact readMetadata_dropKey hinv.fits (hplain path hpath) hkey path
  · rw [token_filter hobjects, readSecret_dropKey hplain hfree hinv.shaped hpath hinv.fits, hread]
    rfl

private theorem shaped_step (hinv : Inv paths s) {op : Op} (hpath : op.path ∈ paths)
    (hvalid : op.Valid) (h : Succeeds s (op, faults)) :
    Shaped paths (step s (op, faults)).token := by
  have hkept (gone : List Nat) : Shaped paths (s.without gone) :=
    hinv.shaped.of_subset fun o ho => (without_sublist s gone).subset ho
  cases op with
  | write path data entries metadata =>
    rw [token_write h]
    intro o ho
    rcases List.mem_append.mp ho with hold | hnew
    · exact hkept _ o hold
    · exact ⟨path, hpath, storedUnder_of_mem_created (plain_keys hvalid) hnew⟩
  | delete path =>
    rw [token_delete h]
    exact hkept _
  | deleteKey path key =>
    obtain ⟨o, _, _, hstep⟩ := step_deleteKey (plain_of_acceptableKey hvalid.2).1 h
    rw [hstep]
    refine hinv.shaped.of_subset fun x hx => ?_
    obtain ⟨y, hy, rfl⟩ := List.mem_map.mp hx
    exact List.mem_map_of_mem (List.mem_filter.mp hy).1

include hplain hfree in
private theorem exact_iff_clear_step (hinv : Inv paths s) {op : Op} (hpath : op.path ∈ paths)
    (hvalid : op.Valid) (h : Succeeds s (op, faults)) :
    Exact s (op, faults) ↔ Clear s (op, faults) := by
  cases op with
  | write path data entries metadata =>
    rw [← unique_write_iff hvalid hinv.unique hinv.fits h]
    exact and_iff_left fun _ _ heq => nomatch heq
  | delete path =>
    refine iff_of_true ⟨?_, fun _ _ heq => nomatch heq⟩ fun _ _ => List.not_mem_nil
    rw [token_delete h]
    exact hinv.unique.sublist ((without_sublist s _).map _)
  | deleteKey path key =>
    have htakes : TakesKey path key s (step s (.deleteKey path key, faults)) :=
      takesKey_deleteKey hplain hfree hinv hpath (plain_of_acceptableKey hvalid.2) h
    refine iff_of_true ⟨?_, ?_⟩ fun _ _ => List.not_mem_nil
    · rw [token_filter htakes.objects]
      exact hinv.unique.sublist (List.filter_sublist.map _)
    · intro path' key' heq
      obtain ⟨rfl, rfl⟩ := Op.deleteKey.inj heq
      exact htakes

end Steps

section Runs

variable {attempts : List Attempt} (hvalid : ∀ a ∈ attempts, a.1.Valid)
  (hfree : PrefixFree attempts) (hok : Along step Succeeds .blank attempts)
  (hsmall : Along step StaysSmall .blank attempts)

include hvalid hfree hok hsmall

private theorem along_exact_iff :
    Along step Exact .blank attempts ↔ Along step Clear .blank attempts := by
  have hplain : ∀ p ∈ attempts.map fun a => a.1.path, Plain p := by
    intro p hp
    obtain ⟨⟨op, faults⟩, ha, rfl⟩ := List.mem_map.mp hp
    have hop := hvalid _ ha
    cases op with
    | write path data entries metadata => exact plain_of_validateSecretPath hop.1
    | delete path => exact plain_of_validateSecretPath hop
    | deleteKey path key => exact plain_of_validateSecretPath hop.1
  have hpaths : ∀ p ∈ attempts.map fun a => a.1.path, ∀ q ∈ attempts.map fun a => a.1.path,
      p ≠ q → Incomparable p q := by
    intro p hp q hq
    obtain ⟨a, ha, rfl⟩ := List.mem_map.mp hp
    obtain ⟨b, hb, rfl⟩ := List.mem_map.mp hq
    exact hfree a ha b hb
  have hused : Along step (fun _ a => a ∈ attempts) Session.blank attempts :=
    Along.of_forall fun a ha _ => ha
  have hblank : Inv (attempts.map fun a => a.1.path) Session.blank :=
    ⟨Nat.zero_le _, fun o ho => absurd ho List.not_mem_nil, List.nodup_nil⟩
  refine Along.congr_of_kept ?_ ?_ hblank (hused.and (hok.and hsmall))
  · rintro s ⟨op, faults⟩ hinv ⟨ha, hsucceeds, _⟩
    exact exact_iff_clear_step hplain hpaths hinv (List.mem_map_of_mem ha) (hvalid _ ha) hsucceeds
  · rintro s ⟨op, faults⟩ hinv ⟨ha, hsucceeds, hfits⟩ hexact
    exact ⟨hfits, shaped_step hinv (List.mem_map_of_mem ha) (hvalid _ ha) hsucceeds, hexact.1⟩

/-- On a token whose labels can be read, labels stay unique and the deletion of a key is exact. -/
theorem exact_of_readable (hread : Along step
      (fun s a => unread (a.2.drop 2) (s.objects.take maxObjects) = []) .blank attempts) :
    Along step Exact .blank attempts := by
  refine (along_exact_iff hvalid hfree hok hsmall).mpr ?_
  refine hread.of_invariant (fun _ => True) (fun s a _ hnone => ⟨trivial, ?_⟩) trivial
  intro o ho
  rw [hnone] at ho
  cases ho

end Runs

/-- Over runs of operations that succeed, labels stay unique and the deletion of a key is exact as
long as no write creates a label of an object that it fails to read, and no longer. -/
theorem exact_iff_clear (attempts : List Attempt) (hvalid : ∀ a ∈ attempts, a.1.Valid)
    (hfree : PrefixFree attempts) (hok : Along step Succeeds .blank attempts)
    (hsmall : Along step StaysSmall .blank attempts) :
    Along step Exact .blank attempts ↔ Along step Clear .blank attempts :=
  along_exact_iff hvalid hfree hok hsmall

private def passwordOf (value : String) : SecretData :=
  (∅ : SecretData).insert "password" (utf8 value)

private def writePassword (path value : String) : Op :=
  .write path (passwordOf value) (passwordOf value).toList none

private theorem valid_writePassword {path : String} (hpath : validateSecretPath path = .ok ())
    (value : String) : (writePassword path value).Valid := by
  refine ⟨hpath, fun key hkey => ?_, .refl _⟩
  obtain rfl : "password" = key := by simpa [passwordOf] using hkey
  exact acceptableKey_of_single (by decide +kernel)

private def rewritten : List Attempt :=
  [(writePassword "db" "x", []), (writePassword "db" "y", [none, none, some "CKR_DEVICE_ERROR"])]

/-- The second write cannot read the label of the old password and leaves it there. Both writes
succeed. Deleting the key then takes the old object, and the secret still has the key. -/
theorem unread_label_twice :
    (∀ a ∈ rewritten, a.1.Valid) ∧ PrefixFree rewritten ∧
      Along step Succeeds .blank rewritten ∧ Along step StaysSmall .blank rewritten ∧
      (run step .blank rewritten).token.map DataObject.label = ["db/password", "db/password"] ∧
      Succeeds (run step .blank rewritten) (.deleteKey "db" "password", []) ∧
      readSecret (step (run step .blank rewritten) (.deleteKey "db" "password", [])).token "db" =
        .ok (passwordOf "y") := by
  refine ⟨fun a ha => ?_, by decide +kernel, by decide +kernel, by decide +kernel,
    by decide +kernel, by decide +kernel, by decide +kernel⟩
  simp only [rewritten, List.mem_cons, List.not_mem_nil, or_false] at ha
  rcases ha with rfl | rfl
  · exact valid_writePassword (by decide) "x"
  · exact valid_writePassword (by decide) "y"

private def elsewhere : List Attempt :=
  [(writePassword "db" "x", []), (writePassword "web" "y", [none, none, some "CKR_DEVICE_ERROR"]),
    (.deleteKey "db" "password", [])]

/-- An object of another path that cannot be read does no harm. -/
theorem exact_iff_clear_elsewhere : Along step Exact .blank elsewhere := by
  refine (exact_iff_clear elsewhere (fun a ha => ?_) (by decide +kernel) (by decide +kernel)
    (by decide +kernel)).mpr (by decide +kernel)
  simp only [elsewhere, List.mem_cons, List.not_mem_nil, or_false] at ha
  rcases ha with rfl | rfl | rfl
  · exact valid_writePassword (by decide) "x"
  · exact valid_writePassword (by decide) "y"
  · exact ⟨by decide, acceptableKey_of_single (by decide +kernel)⟩

end HsmSecretsOperator.Hsm.UniqueLabels
