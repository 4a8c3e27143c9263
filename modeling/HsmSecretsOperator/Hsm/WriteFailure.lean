/- source: internal/hsm/pkcs11_client.go, internal/hsm/pkcs11_cgo.go,
     kubectl-hsm/pkg/commands/rename_key.go
   digest: Which writes leave the reads of their path alone whenever they fail. -/

import HsmSecretsOperator.Hsm.Cryptoki
import HsmSecretsOperator.Hsm.Enumeration

set_option autoImplicit false

namespace HsmSecretsOperator.Hsm.WriteFailure

open Cryptoki Foundation.Calls.Program Foundation.Maps Foundation.Paging Foundation.Text Objects
open Enumeration (Search fits_items readSecret_eq_items readMetadata_eq_items)
open Pkcs11 (Token DataObject Fits belongsTo maxObjects labelOf newObjects readSecret
  take_of_fits deleteSecretObjects_of_fits fits_deleteSecretObjects)
open Secret

/-- No read of the path makes anything of the object. -/
def Silent (path : String) (o : DataObject) : Prop :=
  entryOf path o = none ∧ describedBy path o = none

instance (path : String) (o : DataObject) : Decidable (Silent path o) :=
  inferInstanceAs (Decidable (_ ∧ _))

/-- All reads of the path make the same of the two objects. -/
def Alike (path : String) (o o' : DataObject) : Prop :=
  entryOf path o = entryOf path o' ∧ describedBy path o = describedBy path o'

instance (path : String) (o o' : DataObject) : Decidable (Alike path o o') :=
  inferInstanceAs (Decidable (_ ∧ _))

/-- With nothing to create, what may be destroyed in part has to be all alike. Otherwise there has
to be nothing to read before, and at most one object to create, or nothing to read in any that is
created before the last. -/
def Harmless (t : Token) (path : String) (data : SecretData) (metadata : Option SecretMetadata) :
    Prop :=
  if newObjects path data metadata = [] then
    ∀ o ∈ t, ∀ o' ∈ t, belongsTo path o = true → belongsTo path o' = true → Alike path o o'
  else
    (∀ o ∈ t, Silent path o) ∧
      ((newObjects path data metadata).length = 1 ∨
        ∀ e ∈ data.toList, Silent path ⟨labelOf path e.1, e.2⟩)

instance (t : Token) (path : String) (data : SecretData) (metadata : Option SecretMetadata) :
    Decidable (Harmless t path data metadata) :=
  inferInstanceAs (Decidable (ite _ _ _))

/-- The reads of the path answer alike on the two tokens, whatever the searches hand out. -/
def SameReads (path : String) (t t' : Token) : Prop :=
  ∀ (p : Search maxObjects t) (p' : Search maxObjects t'),
    Enumeration.readSecret p' path = Enumeration.readSecret p path ∧
      Enumeration.readMetadata p' path = Enumeration.readMetadata p path

theorem SameReads.symm {path : String} {t t' : Token} (h : SameReads path t t') :
    SameReads path t' t := fun p p' => ⟨(h p' p).1.symm, (h p' p).2.symm⟩

section Reads

variable {path : String} {t t' : Token}

theorem silent_of_not_belongsTo {o : DataObject} (h : belongsTo path o = false) : Silent path o :=
  ⟨entryOf_of_not_belongsTo h, describedBy_of_not_belongsTo h⟩

theorem readSecret_search (p : Search maxObjects t) : Enumeration.readSecret p path =
    secretOf path (p.items.filterMap (entryOf path)) := by
  rw [readSecret_eq_items, readSecret_eq_secretOf, take_of_fits (fits_items p)]

theorem readMetadata_search (p : Search maxObjects t) : Enumeration.readMetadata p path =
    metadataOf path (p.items.filterMap (describedBy path)).head? := by
  rw [readMetadata_eq_items, readMetadata_eq_metadataOf, take_of_fits (fits_items p)]

/-- The search hands out nothing that a read of the path would use. -/
def ReadsNothing (path : String) (p : Search maxObjects t) : Prop :=
  p.items.filterMap (entryOf path) = [] ∧ p.items.filterMap (describedBy path) = []

theorem readsNothing_iff {p : Search maxObjects t} :
    ReadsNothing path p ↔ ∀ o ∈ p.items, Silent path o := by
  simp only [ReadsNothing, List.filterMap_eq_nil_iff, Silent]
  exact forall₂_and.symm

theorem sameReads_of_silent (h : ∀ o ∈ t, Silent path o) (h' : ∀ o ∈ t', Silent path o) :
    SameReads path t t' := by
  intro p p'
  obtain ⟨hsecret, hmetadata⟩ := readsNothing_iff.mpr fun o ho => h o (Page.mem_of_mem_items ho)
  obtain ⟨hsecret', hmetadata'⟩ :=
    readsNothing_iff.mpr fun o ho => h' o (Page.mem_of_mem_items ho)
  rw [readSecret_search, readSecret_search, readMetadata_search, readMetadata_search, hsecret,
    hsecret', hmetadata, hmetadata']
  exact ⟨rfl, rfl⟩

/-- Where one token has nothing to read, every search of the other hands out nothing to read. -/
theorem silent_of_sameReads (h : ∀ o ∈ t', Silent path o) (hsame : SameReads path t t')
    (p : Search maxObjects t) : ∀ o ∈ p.items, Silent path o := by
  obtain ⟨hsecret, hmetadata⟩ := hsame p (Page.first maxObjects t')
  obtain ⟨hentries, hdescribed⟩ : ReadsNothing path (Page.first maxObjects t') :=
    readsNothing_iff.mpr fun o ho => h o (Page.mem_of_mem_items ho)
  rw [readSecret_search, readSecret_search, hentries] at hsecret
  rw [readMetadata_search, readMetadata_search, hdescribed] at hmetadata
  refine readsNothing_iff.mp ⟨?_, ?_⟩
  · by_contra hne
    rw [secretOf, secretOf, if_pos rfl, if_neg hne] at hsecret
    cases hsecret
  · exact List.head?_eq_none_iff.mp (metadataOf_injective path hmetadata).symm

private theorem filterMap_uniform {α β : Type} {f : α → Option β} {xs : List α} {x : α}
    (hx : x ∈ xs) (h : ∀ y ∈ xs, f y = none ∨ f y = f x) :
    (f x = none ∧ xs.filterMap f = []) ∨
      ∃ b n, f x = some b ∧ xs.filterMap f = List.replicate (n + 1) b := by
  cases hfx : f x with
  | none =>
    refine .inl ⟨rfl, List.filterMap_eq_nil_iff.mpr fun y hy => ?_⟩
    rcases h y hy with hy | hy
    · exact hy
    · rw [hy, hfx]
  | some b =>
    have hall : ∀ c ∈ xs.filterMap f, c = b := by
      intro c hc
      obtain ⟨y, hy, hyc⟩ := List.mem_filterMap.mp hc
      rcases h y hy with hnone | hsame
      · rw [hnone] at hyc
        cases hyc
      · rw [hsame, hfx] at hyc
        exact (Option.some.inj hyc).symm
    have hlength := List.length_pos_of_mem (List.mem_filterMap.mpr ⟨x, hx, hfx⟩)
    refine .inr ⟨b, (xs.filterMap f).length - 1, rfl, ?_⟩
    rw [Nat.sub_add_cancel hlength]
    exact List.eq_replicate_of_mem hall

theorem reads_of_uniform (hfits : Fits t) {o : DataObject} (ho : o ∈ t)
    (h : ∀ x ∈ t, Silent path x ∨ Alike path x o) (p : Search maxObjects t) :
    Enumeration.readSecret p path = secretOf path (entryOf path o).toList ∧
      Enumeration.readMetadata p path = metadataOf path (describedBy path o) := by
  have hmem : o ∈ p.items := (p.items_perm hfits).mem_iff.mpr ho
  have hall : ∀ x ∈ p.items, Silent path x ∨ Alike path x o := fun x hx =>
    h x (Page.mem_of_mem_items hx)
  rw [readSecret_search, readMetadata_search]
  constructor
  · rcases filterMap_uniform hmem fun x hx => (hall x hx).imp And.left And.left with
      ⟨hnone, hnil⟩ | ⟨e, n, hsome, hreplicate⟩
    · rw [hnone, hnil]
      rfl
    · rw [hsome, hreplicate, secretOf, assign_replicate, if_neg (by simp)]
      rfl
  · rcases filterMap_uniform hmem fun x hx => (hall x hx).imp And.right And.right with
      ⟨hnone, hnil⟩ | ⟨m, n, hsome, hreplicate⟩
    · rw [hnone, hnil]
      rfl
    · rw [hsome, hreplicate, List.replicate_succ, List.head?_cons]

theorem secretOf_toList_injective {a b : Option (String × Bytes)}
    (h : secretOf path a.toList = secretOf path b.toList) : a = b := by
  match a, b, h with
  | none, none, _ => rfl
  | some (k, v), some (k', v'), h =>
    have hmap : (∅ : SecretData).insert k v = (∅ : SecretData).insert k' v' := Except.ok.inj h
    have hget : ((∅ : SecretData).insert k' v')[k]? = some v := by
      rw [← hmap, Std.ExtTreeMap.getElem?_insert_self]
    rcases Foundation.Maps.of_getElem?_insert hget with ⟨rfl, rfl⟩ | hempty
    · rfl
    · simp at hempty

end Reads

section Reach

variable {path : String} {s : Session}

private theorem chosenBy_replicate_append (path : String) (faults : List (Option String))
    {os : List (Nat × DataObject)} {n : Nat} (h : os.length ≤ n) :
    chosenBy path (List.replicate n none ++ faults) os = chosenBy path [] os := by
  induction os generalizing n with
  | nil => rfl
  | cons o os ih =>
    obtain ⟨n, rfl⟩ := Nat.exists_eq_add_of_lt (Nat.lt_of_lt_of_le (Nat.succ_pos _) h)
    rw [Nat.zero_add, List.replicate_succ, List.cons_append, chosenBy, chosenBy, List.tail_cons,
      List.tail_nil, ih (Nat.le_of_succ_le_succ (by simpa using h))]
    rfl

private theorem goneOf_map (f : Nat × String → Option String) (xs : List (Nat × String)) :
    goneOf (xs.map f) xs = (xs.filter fun x => (f x).isNone).map Prod.fst := by
  induction xs with
  | nil => rfl
  | cons x xs ih =>
    rw [List.map_cons, goneOf, List.headD_cons, List.tail_cons, ih, List.filter_cons]
    cases f x <;> rfl

theorem exists_faults_keeping (hfits : Fits s.token) {o : Nat × DataObject} (ho : o ∈ s.objects)
    (hbelongs : belongsTo path o.2 = true) :
    ∃ faults, (exec serve none (deleteSecretObjects path) s faults).1 ≠ .ok () ∧
      (exec serve none (deleteSecretObjects path) s faults).2.objects =
        s.objects.filter fun x => x.1 = o.1 || !belongsTo path x.2 := by
  have htake := Session.take_objects_of_fits hfits
  -- All calls go through up to the destructions, of which only that of `o` is refused.
  let chosen := chosenBy path [] s.objects
  let refuse : Nat × String → Option String := fun x => if x.1 = o.1 then some "" else none
  let faults := List.replicate (s.objects.length + 3) none ++ chosen.map refuse
  have hchosen : chosenBy path (faults.drop 2) (s.objects.take maxObjects) = chosen := by
    rw [htake]
    exact chosenBy_replicate_append path _ (Nat.le_succ _)
  have hgone : goneOf (faults.drop ((s.objects.take maxObjects).length + 3)) chosen =
      (chosen.filter fun x => x.1 ≠ o.1).map Prod.fst := by
    have hdrop : faults.drop ((s.objects.take maxObjects).length + 3) = chosen.map refuse := by
      rw [htake]
      exact List.drop_left' (by simp)
    rw [hdrop, goneOf_map]
    congr 1
    refine List.filter_congr fun x _ => ?_
    by_cases hx : x.1 = o.1 <;> simp [refuse, hx]
  have hmem : ∀ x ∈ s.objects, (x.1 ∈ chosen.map Prod.fst ↔ belongsTo path x.2 = true) := by
    intro x hx
    rw [mem_chosenBy s.distinct hx]
    simp
  have hfinal : (faults.drop ((s.objects.take maxObjects).length + 2)).headD none = none := by
    rw [htake]
    simp [faults, List.drop_append, List.drop_replicate]
  have hinit : faults.headD none = none := rfl
  have hfind : faults.tail.headD none = none := rfl
  obtain ⟨hobjects, hresult⟩ := exec_deleteSecretObjects_of_search path s hinit hfind hfinal
  rw [hchosen, hgone] at hobjects hresult
  refine ⟨faults, fun hok => ?_, ?_⟩
  · have htargets := hresult.mp hok
    rw [targets, hchosen] at htargets
    have hown : o.1 ∈ (chosen.filter fun x => x.1 ≠ o.1).map Prod.fst := by
      rw [htargets]
      exact (hmem o ho).mpr hbelongs
    obtain ⟨x, hx, hhandle⟩ := List.mem_map.mp hown
    simp [hhandle] at hx
  · rw [hobjects]
    refine List.filter_congr fun x hx => ?_
    have hgone' : x.1 ∈ (chosen.filter fun y => y.1 ≠ o.1).map Prod.fst ↔
        x.1 ≠ o.1 ∧ belongsTo path x.2 = true := by
      rw [← hmem x hx]
      constructor
      · intro h
        obtain ⟨y, hy, hhandle⟩ := List.mem_map.mp h
        obtain ⟨hychosen, hne⟩ := List.mem_filter.mp hy
        rw [← hhandle]
        exact ⟨by simpa using hne, List.mem_map_of_mem hychosen⟩
      · rintro ⟨hne, h⟩
        obtain ⟨y, hy, hhandle⟩ := List.mem_map.mp h
        exact List.mem_map.mpr ⟨y, List.mem_filter.mpr ⟨hy, by simpa [hhandle] using hne⟩, hhandle⟩
    simp only [hgone']
    by_cases hx' : x.1 = o.1 <;> simp [hx']

private theorem exec_createObjects_cut (path : String) (entries : List (String × Bytes))
    (metadata : Option SecretMetadata) (s : Session) {k : Nat}
    (hk : k < (created path entries metadata).length) :
    (exec serve none (createObjects path entries metadata) s
        (List.replicate k none ++ [some ""])).1 ≠ .ok () ∧
      (exec serve none (createObjects path entries metadata) s
        (List.replicate k none ++ [some ""])).2.token =
          s.token ++ (created path entries metadata).take k := by
  induction entries generalizing s k with
  | nil =>
    cases metadata with
    | none => simp [created] at hk
    | some m =>
      obtain rfl : k = 0 := by simpa [created] using hk
      rw [createObjects, exec_call]
      simp
  | cons e entries ih =>
    obtain ⟨key, value⟩ := e
    have hcreated : created path ((key, value) :: entries) metadata =
        ⟨labelOf path key, value⟩ :: created path entries metadata := rfl
    rw [hcreated] at hk ⊢
    rw [createObjects, exec_call]
    cases k with
    | zero => simp
    | succ k =>
      obtain ⟨hfail, htoken⟩ := ih (s.create ⟨labelOf path key, value⟩) (Nat.lt_of_succ_lt_succ hk)
      refine ⟨hfail, ?_⟩
      rw [List.replicate_succ, List.cons_append, List.headD_cons, List.tail_cons, serve_none,
        perform]
      dsimp only
      rw [htoken, Session.token_create, List.append_assoc, List.singleton_append,
        List.take_succ_cons]

theorem exists_faults_cutting (path : String) (entries : List (String × Bytes))
    (metadata : Option SecretMetadata) (s : Session) {k : Nat}
    (hk : k < (created path entries metadata).length) :
    ∃ faults, (exec serve none (writeSecret path entries metadata) s faults).1 ≠ .ok () ∧
      (exec serve none (writeSecret path entries metadata) s faults).2.token =
        Pkcs11.deleteSecretObjects s.token path ++ (created path entries metadata).take k := by
  obtain ⟨hdeleted, hleft⟩ := exec_deleteSecretObjects_nil path s
  have hdelete : Ends serve (deleteSecretObjects path) s (.ok ())
      (exec serve none (deleteSecretObjects path) s []).2 := by
    rw [← hdeleted]
    exact ends_exec none _ _ _
  obtain ⟨hfail, htoken⟩ := exec_createObjects_cut path entries metadata
    (exec serve none (deleteSecretObjects path) s []).2 hk
  have hcreate : Ends serve (createUnlessFailed path entries metadata (.ok ()))
      (exec serve none (deleteSecretObjects path) s []).2 _ _ :=
    ends_exec none _ _ (List.replicate k none ++ [some ""])
  obtain ⟨faults, hexec⟩ := Ends.exists_exec none (hdelete.bind hcreate)
  refine ⟨faults, ?_⟩
  rw [writeSecret, hexec]
  refine ⟨hfail, ?_⟩
  rw [← hleft]
  exact htoken

end Reach

/-- Every failure of the write, wherever its calls fail and in whatever order the keys come, leaves
the reads of the path as they were. -/
def ChangesNothing (s : Session) (path : String) (data : SecretData)
    (metadata : Option SecretMetadata) : Prop :=
  ∀ entries faults, entries.Perm data.toList →
    (exec serve none (writeSecret path entries metadata) s faults).1 ≠ .ok () →
      SameReads path s.token (exec serve none (writeSecret path entries metadata) s faults).2.token

section Failure

variable {s : Session} {path : String} {data : SecretData} {metadata : Option SecretMetadata}
  {entries : List (String × Bytes)}

private theorem length_created (horder : entries.Perm data.toList) :
    (created path entries metadata).length = (newObjects path data metadata).length := by
  simp only [newObjects_eq_created, created, List.length_append, List.length_map, horder.length_eq]

variable {faults : List (Option String)} {gone : List Nat}

private theorem mem_without {o : DataObject} (h : o ∈ s.without gone) : o ∈ s.token := by
  obtain ⟨x, hx, rfl⟩ := List.mem_map.mp h
  exact List.mem_map_of_mem (List.mem_filter.mp hx).1

private theorem exists_kept
    (hsub : gone.Sublist (targets path s faults)) (hne : gone ≠ targets path s faults) :
    ∃ o ∈ s.objects, belongsTo path o.2 = true ∧ o.1 ∉ gone := by
  have hchosen := chosenBy_sublist path (faults.drop 2) (s.objects.take maxObjects)
  have hdistinct : (targets path s faults).Nodup :=
    s.distinct.sublist (hchosen.trans ((List.take_sublist _ _).map _))
  obtain ⟨handle, htarget, hkept⟩ : ∃ handle ∈ targets path s faults, handle ∉ gone := by
    by_contra hall
    push Not at hall
    exact hne (hsub.eq_of_length_le (List.subperm_of_subset hdistinct hall).length_le)
  obtain ⟨o, ho, rfl⟩ := List.mem_map.mp (hchosen.subset htarget)
  exact ⟨o, List.mem_of_mem_take ho, ((mem_targets ho).mp htarget).1, hkept⟩

private theorem mem_take_created {n : Nat} (hn : n < (created path entries metadata).length)
    {o : DataObject} (ho : o ∈ (created path entries metadata).take n) :
    ∃ e ∈ entries, o = ⟨labelOf path e.1, e.2⟩ := by
  have hle : n ≤ (entries.map fun e => (⟨labelOf path e.1, e.2⟩ : DataObject)).length := by
    cases metadata with
    | none => exact Nat.le_of_lt (by simpa [created] using hn)
    | some m => exact Nat.le_of_lt_succ (by simpa [created] using hn)
  rw [created, List.take_append_of_le_length hle] at ho
  obtain ⟨e, he, rfl⟩ := List.mem_map.mp (List.mem_of_mem_take ho)
  exact ⟨e, he, rfl⟩

private theorem exec_writeSecret_of_failed (entries : List (String × Bytes))
    (metadata : Option SecretMetadata)
    (h : (exec serve none (deleteSecretObjects path) s faults).1 ≠ .ok ()) :
    (exec serve none (writeSecret path entries metadata) s faults).1 ≠ .ok () ∧
      (exec serve none (writeSecret path entries metadata) s faults).2 =
        (exec serve none (deleteSecretObjects path) s faults).2 := by
  obtain ⟨n, hexec⟩ := exec_writeSecret_eq path entries metadata s faults
  rw [hexec]
  cases hresult : (exec serve none (deleteSecretObjects path) s faults).1 with
  | ok u => exact absurd hresult h
  | error text => simp [createUnlessFailed]

private theorem silent_of_cut (hsilent : ∀ o ∈ s.token, Silent path o)
    (horder : entries.Perm data.toList) {n : Nat}
    (hn : n < (created path entries metadata).length)
    (hunseen : (newObjects path data metadata).length = 1 ∨
      ∀ e ∈ data.toList, Silent path ⟨labelOf path e.1, e.2⟩) :
    ∀ o ∈ s.without gone ++ (created path entries metadata).take n, Silent path o := by
  intro o ho
  rcases List.mem_append.mp ho with hold | hnew
  · exact hsilent o (mem_without hold)
  -- Nothing has been created yet, or it is not read.
  rcases hunseen with hone | hdata
  · obtain rfl : n = 0 := by
      rw [length_created horder, hone] at hn
      omega
    cases hnew
  · obtain ⟨e, he, rfl⟩ := mem_take_created hn hnew
    exact hdata e (horder.mem_iff.mp he)

variable (hfits : Fits s.token)
include hfits

private theorem sameReads_of_alike
    (halike : ∀ o ∈ s.token, ∀ o' ∈ s.token, belongsTo path o = true → belongsTo path o' = true →
      Alike path o o')
    (hsub : gone.Sublist (targets path s faults))
    (hgone : gone = [] ∨ gone ≠ targets path s faults) :
    SameReads path s.token (s.without gone) := by
  by_cases hkept : ∃ o ∈ s.objects, belongsTo path o.2 = true ∧ o.1 ∉ gone
  · obtain ⟨o, ho, hbelongs, hleft⟩ := hkept
    have hmem : o.2 ∈ s.token := List.mem_map_of_mem ho
    have hmem' : o.2 ∈ s.without gone :=
      List.mem_map_of_mem (List.mem_filter.mpr ⟨ho, by simpa using hleft⟩)
    have hfits' : Fits (s.without gone) := by
      refine le_trans ?_ hfits
      rw [Session.without, Session.token, List.length_map, List.length_map]
      exact List.length_filter_le _ _
    have huniform : ∀ x ∈ s.token, Silent path x ∨ Alike path x o.2 := by
      intro x hx
      cases hx' : belongsTo path x with
      | false => exact .inl (silent_of_not_belongsTo hx')
      | true => exact .inr (halike x hx o.2 hmem hx' hbelongs)
    intro p p'
    have hbefore := reads_of_uniform hfits hmem huniform p
    have hafter := reads_of_uniform hfits' hmem' (fun x hx => huniform x (mem_without hx)) p'
    exact ⟨hafter.1.trans hbefore.1.symm, hafter.2.trans hbefore.2.symm⟩
  · -- All that was to be destroyed is gone, so that there was nothing to destroy.
    have hnone : ∀ o ∈ s.token, Silent path o := by
      intro x hx
      obtain ⟨o, ho, rfl⟩ := List.mem_map.mp hx
      rcases hgone with rfl | hne
      · refine silent_of_not_belongsTo (Bool.eq_false_iff.mpr fun hbelongs => ?_)
        exact hkept ⟨o, ho, hbelongs, List.not_mem_nil⟩
      · exact absurd (exists_kept hsub hne) hkept
    exact sameReads_of_silent hnone fun o ho => hnone o (mem_without ho)

private theorem changesNothing_of_harmless (h : Harmless s.token path data metadata) :
    ChangesNothing s path data metadata := by
  intro entries faults horder hfail
  obtain ⟨gone, n, hsub, htoken, _, hcut⟩ := exec_writeSecret path entries metadata s faults
  rw [htoken]
  unfold Harmless at h
  split at h
  next hnew =>
    have hlength : (created path entries metadata).length = 0 := by
      rw [length_created horder, hnew, List.length_nil]
    rcases hcut hfail with ⟨rfl, hgone⟩ | hn
    · rw [List.take_zero, List.append_nil]
      exact sameReads_of_alike hfits h hsub hgone
    · omega
  next hnew =>
    have hpos : 0 < (created path entries metadata).length := by
      rw [length_created horder]
      exact List.length_pos_iff.mpr hnew
    have hn : n < (created path entries metadata).length := by
      rcases hcut hfail with ⟨rfl, _⟩ | hn
      · exact hpos
      · exact hn
    exact sameReads_of_silent h.1 (silent_of_cut h.1 horder hn h.2)

variable (h : ChangesNothing s path data metadata)
include h

private theorem reads_of_changesNothing {o : Nat × DataObject} (ho : o ∈ s.objects)
    (hbelongs : belongsTo path o.2 = true) (p : Search maxObjects s.token) :
    Enumeration.readSecret p path = secretOf path (entryOf path o.2).toList ∧
      Enumeration.readMetadata p path = metadataOf path (describedBy path o.2) := by
  obtain ⟨faults, hfail, hobjects⟩ := exists_faults_keeping hfits ho hbelongs
  obtain ⟨hfail', hstate⟩ := exec_writeSecret_of_failed data.toList metadata hfail
  have hsame := h data.toList faults (.refl _) hfail'
  rw [hstate] at hsame
  have hfits' : Fits (exec serve none (deleteSecretObjects path) s faults).2.token := by
    refine le_trans ?_ hfits
    rw [Session.token, Session.token, List.length_map, List.length_map, hobjects]
    exact List.length_filter_le _ _
  have hmem : o.2 ∈ (exec serve none (deleteSecretObjects path) s faults).2.token := by
    refine List.mem_map_of_mem ?_
    rw [hobjects, List.mem_filter]
    exact ⟨ho, by simp⟩
  have huniform : ∀ x ∈ (exec serve none (deleteSecretObjects path) s faults).2.token,
      Silent path x ∨ Alike path x o.2 := by
    intro x hx
    obtain ⟨y, hy, rfl⟩ := List.mem_map.mp hx
    rw [hobjects, List.mem_filter] at hy
    by_cases hhandle : y.1 = o.1
    · rw [s.eq_of_handle_eq hy.1 ho hhandle]
      exact .inr ⟨rfl, rfl⟩
    · exact .inl (silent_of_not_belongsTo (by simpa [hhandle] using hy.2))
  have hreads := reads_of_uniform hfits' hmem huniform (Page.first _ _)
  have hbefore := hsame p (Page.first _ _)
  exact ⟨hbefore.1.symm.trans hreads.1, hbefore.2.symm.trans hreads.2⟩

private theorem silent_of_changesNothing (hnew : newObjects path data metadata ≠ []) :
    ∀ o ∈ s.token, Silent path o := by
  have hk : 0 < (created path data.toList metadata).length := List.length_pos_iff.mpr hnew
  obtain ⟨faults, hfail, htoken⟩ := exists_faults_cutting path data.toList metadata s hk
  have hsame := h data.toList faults (.refl _) hfail
  rw [htoken, List.take_zero, List.append_nil] at hsame
  have hforeign : ∀ o ∈ Pkcs11.deleteSecretObjects s.token path, Silent path o := by
    intro o ho
    rw [deleteSecretObjects_of_fits hfits] at ho
    exact silent_of_not_belongsTo (by simpa using (List.mem_filter.mp ho).2)
  intro o ho
  refine silent_of_sameReads hforeign hsame (Page.first _ _) o ?_
  exact (Page.items_perm hfits _).mem_iff.mpr ho

private theorem silent_created (hmany : 1 < (newObjects path data metadata).length)
    (hbefore : ∀ o ∈ s.token, Silent path o) {e : String × Bytes} (he : e ∈ data.toList) :
    Silent path ⟨labelOf path e.1, e.2⟩ := by
  have horder : (e :: data.toList.erase e).Perm data.toList := (List.perm_cons_erase he).symm
  have hk : 1 < (created path (e :: data.toList.erase e) metadata).length := by
    rw [length_created horder]
    exact hmany
  obtain ⟨faults, hfail, htoken⟩ := exists_faults_cutting path _ metadata s hk
  have hsame := h _ faults horder hfail
  have hcreated : (created path (e :: data.toList.erase e) metadata).take 1 =
      [⟨labelOf path e.1, e.2⟩] := rfl
  rw [htoken, hcreated, deleteSecretObjects_of_fits hfits] at hsame
  -- Some search hands the new object out, the last one on the token.
  obtain ⟨p, hp⟩ : ∃ p : Search maxObjects
      ((s.token.filter fun o => !belongsTo path o) ++ [⟨labelOf path e.1, e.2⟩]),
      (s.token.filter fun o => !belongsTo path o).length ∈ p.handles :=
    Page.exists_containing (by decide) (by simp)
  exact silent_of_sameReads hbefore hsame.symm p _ (Page.mem_items.mpr ⟨_, hp, by simp⟩)

private theorem harmless_of_changesNothing : Harmless s.token path data metadata := by
  unfold Harmless
  split
  next =>
    intro o ho o' ho' hbelongs hbelongs'
    obtain ⟨x, hx, rfl⟩ := List.mem_map.mp ho
    obtain ⟨x', hx', rfl⟩ := List.mem_map.mp ho'
    have hreads := reads_of_changesNothing hfits h hx hbelongs (Page.first _ _)
    have hreads' := reads_of_changesNothing hfits h hx' hbelongs' (Page.first _ _)
    exact ⟨secretOf_toList_injective (hreads.1.symm.trans hreads'.1),
      metadataOf_injective path (hreads.2.symm.trans hreads'.2)⟩
  next hnew =>
    have hbefore := silent_of_changesNothing hfits h hnew
    refine ⟨hbefore, ?_⟩
    by_cases hone : (newObjects path data metadata).length = 1
    · exact .inl hone
    · have hpos := List.length_pos_iff.mpr hnew
      refine .inr fun e he => silent_created hfits h ?_ hbefore he
      omega

end Failure

private def one (key : String) : SecretData := (∅ : SecretData).insert key (utf8 "x")

private def stored : Session := Session.blank.create ⟨"db/password", utf8 "x"⟩

end HsmSecretsOperator.Hsm.WriteFailure
