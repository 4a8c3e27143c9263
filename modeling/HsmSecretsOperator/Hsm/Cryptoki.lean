/- source: internal/hsm/pkcs11_client.go, internal/hsm/pkcs11_cgo.go
   digest: The writes and deletions of the client as the PKCS#11 calls they make. -/

import HsmSecretsOperator.Foundation.Calls
import HsmSecretsOperator.Hsm.Objects

/-! A failed call changes nothing. Handles are handed out once each. -/

set_option autoImplicit false

namespace HsmSecretsOperator.Hsm.Cryptoki

open Foundation.Calls Foundation.Maps Foundation.Text
open MetadataJson (marshal)
open Objects
open Pkcs11 hiding findObjects createObject deleteSecretObjects writeSecret deleteSecret
  deleteSecretKey
open Program Secret Security.Validation

structure Session where
  objects : List (Nat × DataObject)
  next : Nat
  distinct : (objects.map Prod.fst).Nodup
  fresh : ∀ o ∈ objects, o.1 < next

namespace Session

def token (s : Session) : Token := s.objects.map Prod.snd

def blank : Session where
  objects := []
  next := 0
  distinct := List.nodup_nil
  fresh := fun _ h => absurd h List.not_mem_nil

def create (s : Session) (o : DataObject) : Session where
  objects := s.objects ++ [(s.next, o)]
  next := s.next + 1
  distinct := by
    rw [List.map_append]
    refine s.distinct.append (by simp) fun h hold hnew => ?_
    obtain ⟨x, hx, rfl⟩ := List.mem_map.mp hold
    have hlt := s.fresh x hx
    simp only [List.map_cons, List.map_nil, List.mem_singleton] at hnew
    omega
  fresh := by
    intro x hx
    rcases List.mem_append.mp hx with hold | hnew
    · exact Nat.lt_succ_of_lt (s.fresh x hold)
    · rw [List.mem_singleton] at hnew
      subst hnew
      exact Nat.lt_succ_self _

def destroy (s : Session) (handle : Nat) : Session where
  objects := s.objects.filter fun o => o.1 ≠ handle
  next := s.next
  distinct := s.distinct.sublist (List.filter_sublist.map _)
  fresh := fun o ho => s.fresh o (List.mem_of_mem_filter ho)

@[simp] theorem token_create (s : Session) (o : DataObject) :
    (s.create o).token = s.token ++ [o] := by
  simp [token, create]

theorem eq_of_handle_eq (s : Session) {x y : Nat × DataObject} (hx : x ∈ s.objects)
    (hy : y ∈ s.objects) (h : x.1 = y.1) : x = y :=
  List.inj_on_of_nodup_map s.distinct hx hy h

theorem find?_of_mem (s : Session) {o : Nat × DataObject} (ho : o ∈ s.objects) :
    s.objects.find? (fun x => x.1 = o.1) = some o := by
  cases hfind : s.objects.find? fun x => x.1 = o.1 with
  | none => exact absurd (List.find?_eq_none.mp hfind o ho) (by simp)
  | some x =>
    have hhandle : x.1 = o.1 := by simpa using List.find?_some hfind
    rw [s.eq_of_handle_eq (List.mem_of_find?_eq_some hfind) ho hhandle]

theorem take_objects_of_fits {s : Session} (h : Fits s.token) :
    s.objects.take maxObjects = s.objects :=
  List.take_of_length_le (by simpa [Fits, token] using h)

end Session

/-- The template of a search, all data objects or those with a label, is given to the call that
hands out its objects. -/
inductive Request where
  | findObjectsInit
  | findObjects (label : Option String) (max : Nat)
  | findObjectsFinal
  | getAttributeValue (handle : Nat)
  | createObject (o : DataObject)
  | destroyObject (handle : Nat)

structure Reply where
  handles : List Nat := []
  label : String := ""

abbrev Answer := Except String Reply

abbrev Calling := Program Request Answer

def invalidHandle : String := "pkcs11: 0x82: CKR_OBJECT_HANDLE_INVALID"

def perform (s : Session) : Request → Session × Answer
  | .findObjectsInit => (s, .ok {})
  | .findObjects label max =>
    let found := s.objects.filter fun o => label.all fun l => o.2.label = l
    (s, .ok { handles := (found.take max).map Prod.fst })
  | .findObjectsFinal => (s, .ok {})
  | .getAttributeValue handle =>
    match s.objects.find? fun o => o.1 = handle with
    | some o => (s, .ok { label := o.2.label })
    | none => (s, .error invalidHandle)
  | .createObject o => (s.create o, .ok {})
  | .destroyObject handle =>
    if s.objects.any fun o => o.1 = handle then (s.destroy handle, .ok {})
    else (s, .error invalidHandle)

/-- A call fails with a text, or goes through. -/
def serve (s : Session) (fault : Option String) (request : Request) : Session × Answer :=
  match fault with
  | some text => (s, .error text)
  | none => perform s request

@[simp] theorem serve_some (s : Session) (text : String) (request : Request) :
    serve s (some text) request = (s, .error text) := rfl

@[simp] theorem serve_none (s : Session) (request : Request) :
    serve s none request = perform s request := rfl

/-- The second half of `deleteSecretObjectsPKCS11`, after the search is finalized. -/
def destroyObjects (count : Nat) : List (Nat × String) → List String →
    Calling (Except String Unit)
  | [], [] => .done (.ok ())
  | [], deleteErrors => .done (.error
      (s!"failed to delete {deleteErrors.length} of {count} objects: " ++
        String.intercalate "; " deleteErrors))
  | (handle, label) :: rest, deleteErrors =>
    .call (.destroyObject handle) fun
      | .error text => destroyObjects count rest (deleteErrors ++ [label ++ ": " ++ text])
      | .ok _ => destroyObjects count rest deleteErrors

def finalizeAndDestroy (objectsToDelete : List (Nat × String)) : Calling (Except String Unit) :=
  .call .findObjectsFinal fun
    | .error text => .done (.error
        ("failed to finalize object search (session may be in invalid state): " ++ text))
    | .ok _ => destroyObjects objectsToDelete.length objectsToDelete []

/-- The objects of the path among the handles, as far as their labels can be read. -/
def collectObjects (path : String) : List Nat → List (Nat × String) → Calling (Except String Unit)
  | [], objectsToDelete => finalizeAndDestroy objectsToDelete
  | handle :: rest, objectsToDelete =>
    .call (.getAttributeValue handle) fun
      | .error _ => collectObjects path rest objectsToDelete
      | .ok labelAttr =>
        if labelAttr.label ≠ "" && hasPrefix labelAttr.label path then
          collectObjects path rest (objectsToDelete ++ [(handle, labelAttr.label)])
        else collectObjects path rest objectsToDelete

def deleteSecretObjects (path : String) : Calling (Except String Unit) :=
  .call .findObjectsInit fun
    | .error text => .done (.error ("failed to initialize object search: " ++ text))
    | .ok _ => .call (.findObjects none maxObjects) fun
      | .error text =>
        .call .findObjectsFinal fun _ => .done (.error ("failed to find objects: " ++ text))
      | .ok found => collectObjects path found.handles []

/-- The creations of `WriteSecret`, that of `writeMetadata` last. The text of a failed creation is
what `createObjectPKCS11` makes of it. -/
def createObjects (path : String) : List (String × Bytes) → Option SecretMetadata →
    Calling (Except String Unit)
  | [], none => .done (.ok ())
  | [], some metadata =>
    .call (.createObject ⟨path ++ metadataKeySuffix, marshal metadata⟩) fun
      | .error text => .done (.error ("failed to create metadata object: " ++ text))
      | .ok _ => .done (.ok ())
  | (key, value) :: rest, metadata =>
    .call (.createObject ⟨labelOf path key, value⟩) fun
      | .error text =>
        .done (.error (s!"failed to create data object for key '{key}': " ++ text))
      | .ok _ => createObjects path rest metadata

/-- A deletion that fails is the end of a write. -/
def createUnlessFailed (path : String) (entries : List (String × Bytes))
    (metadata : Option SecretMetadata) : Except String Unit → Calling (Except String Unit)
  | .error text => .done
      (.error ("failed to prepare HSM for write (delete existing objects): " ++ text))
  | .ok _ => createObjects path entries metadata

/-- `WriteSecret`, for the entries in the order in which the map yields them. -/
def writeSecret (path : String) (entries : List (String × Bytes))
    (metadata : Option SecretMetadata) : Calling (Except String Unit) :=
  (deleteSecretObjects path).bind (createUnlessFailed path entries metadata)

def deleteSecret (path : String) : Calling (Except String Unit) :=
  (deleteSecretObjects path).bind fun result =>
    .done (result.mapError fun text => "failed to delete secret objects: " ++ text)

def destroyFirst (label : String) : List Nat → Calling (Except String Unit)
  | [] => .done (.error ("key not found: " ++ label))
  | handle :: _ => .call (.destroyObject handle) fun
    | .error text => .done (.error ("failed to destroy object: " ++ text))
    | .ok _ => .done (.ok ())

/-- `deleteSecretKeyPKCS11`: the first object under the label is destroyed. -/
def deleteSecretKeyObject (label : String) : Calling (Except String Unit) :=
  .call .findObjectsInit fun
    | .error text => .done (.error ("failed to initialize object search: " ++ text))
    | .ok _ => .call (.findObjects (some label) 1) fun
      | .error text =>
        .call .findObjectsFinal fun _ => .done (.error ("failed to find object: " ++ text))
      | .ok found => .call .findObjectsFinal fun
        | .error text => .done (.error ("failed to finalize object search: " ++ text))
        | .ok _ => destroyFirst label found.handles

def deleteSecretKey (path key : String) : Calling (Except String Unit) :=
  let label := if key ≠ "" && key ≠ defaultKeyName then path ++ "/" ++ key else path
  (deleteSecretKeyObject label).bind fun result =>
    .done (result.mapError fun text => "failed to delete secret key: " ++ text)

/-- The objects whose label is not read. -/
def unread : List (Option String) → List (Nat × DataObject) → List (Nat × DataObject)
  | _, [] => []
  | faults, o :: os =>
    if (faults.headD none).isSome then o :: unread faults.tail os else unread faults.tail os

def chosenBy (path : String) :
    List (Option String) → List (Nat × DataObject) → List (Nat × String)
  | _, [] => []
  | faults, o :: os =>
    if (faults.headD none).isNone && belongsTo path o.2 then
      (o.1, o.2.label) :: chosenBy path faults.tail os
    else chosenBy path faults.tail os

/-- The handles of the objects whose destruction goes through. -/
def goneOf : List (Option String) → List (Nat × String) → List Nat
  | _, [] => []
  | faults, x :: xs =>
    if (faults.headD none).isSome then goneOf faults.tail xs else x.1 :: goneOf faults.tail xs

variable {faults : List (Option String)} {o : Nat × DataObject} {os : List (Nat × DataObject)}
  {s : Session}

theorem exec_collectObjects (path : String) (s : Session)
    (hos : ∀ o ∈ os, o ∈ s.objects) (acc : List (Nat × String)) (faults : List (Option String)) :
    exec serve none (collectObjects path (os.map Prod.fst) acc) s faults =
      exec serve none (finalizeAndDestroy (acc ++ chosenBy path faults os)) s
        (faults.drop os.length) := by
  induction os generalizing acc faults with
  | nil => simp [chosenBy, collectObjects]
  | cons o os ih =>
    have hrest : ∀ x ∈ os, x ∈ s.objects := fun x hx => hos x (List.mem_cons_of_mem o hx)
    have hfind := s.find?_of_mem (hos o List.mem_cons_self)
    have hdrop : faults.drop (o :: os).length = faults.tail.drop os.length := by
      rw [List.drop_tail, List.length_cons]
    rw [List.map_cons, collectObjects, exec_call, hdrop, chosenBy]
    cases hfault : faults.headD none with
    | some text => exact ih hrest acc faults.tail
    | none =>
      simp only [serve_none, perform, hfind, Option.isNone_none, Bool.true_and, belongsTo]
      by_cases hbelongs : (o.2.label ≠ "" && hasPrefix o.2.label path) = true
      · rw [if_pos hbelongs, if_pos hbelongs, ih hrest, List.append_assoc, List.singleton_append]
      · rw [if_neg hbelongs, if_neg hbelongs, ih hrest]

theorem goneOf_sublist (faults : List (Option String)) (xs : List (Nat × String)) :
    (goneOf faults xs).Sublist (xs.map Prod.fst) := by
  induction xs generalizing faults with
  | nil => exact List.Sublist.refl _
  | cons x xs ih =>
    rw [goneOf, List.map_cons]
    split
    · exact (ih faults.tail).cons _
    · exact (ih faults.tail).cons_cons _

theorem exec_destroyObjects (count : Nat) {xs : List (Nat × String)} (s : Session)
    (hmem : ∀ x ∈ xs, ∃ o ∈ s.objects, o.1 = x.1) (hdistinct : (xs.map Prod.fst).Nodup)
    (deleteErrors : List String) (faults : List (Option String)) :
    (exec serve none (destroyObjects count xs deleteErrors) s faults).2.objects =
        s.objects.filter (fun o => o.1 ∉ goneOf faults xs) ∧
      ((exec serve none (destroyObjects count xs deleteErrors) s faults).1 = .ok () ↔
        deleteErrors = [] ∧ goneOf faults xs = xs.map Prod.fst) := by
  -- The handles are distinct, so no destruction takes a later one's object away.
  induction xs generalizing s deleteErrors faults with
  | nil =>
    cases deleteErrors with
    | nil => simp [destroyObjects, goneOf]
    | cons e es => simp [destroyObjects, goneOf]
  | cons x xs ih =>
    obtain ⟨handle, label⟩ := x
    rw [List.map_cons, List.nodup_cons] at hdistinct
    rw [destroyObjects, exec_call, goneOf]
    cases hfault : faults.headD none with
    | some text =>
      have hrest := ih s (fun x hx => hmem x (List.mem_cons_of_mem _ hx)) hdistinct.2
        (deleteErrors ++ [label ++ ": " ++ text]) faults.tail
      have hgone : goneOf faults.tail xs ≠ handle :: xs.map Prod.fst := by
        intro heq
        have hmem := (goneOf_sublist faults.tail xs).subset (heq ▸ List.mem_cons_self)
        exact hdistinct.1 hmem
      refine ⟨hrest.1, hrest.2.trans ?_⟩
      simpa using fun _ => hgone
    | none =>
      have hhere : s.objects.any (fun o => o.1 = handle) = true := by
        obtain ⟨o, ho, hhandle⟩ := hmem (handle, label) List.mem_cons_self
        exact List.any_eq_true.mpr ⟨o, ho, by simpa using hhandle⟩
      have hmem' : ∀ x ∈ xs, ∃ o ∈ (s.destroy handle).objects, o.1 = x.1 := by
        intro x hx
        obtain ⟨o, ho, hhandle⟩ := hmem x (List.mem_cons_of_mem _ hx)
        refine ⟨o, List.mem_filter.mpr ⟨ho, ?_⟩, hhandle⟩
        have hne : x.1 ≠ handle := by
          intro heq
          exact hdistinct.1 (List.mem_map.mpr ⟨x, hx, heq⟩)
        simpa [hhandle] using hne
      have hrest := ih (s.destroy handle) hmem' hdistinct.2 deleteErrors faults.tail
      simp only [serve_none, perform, hhere, if_true]
      constructor
      · rw [hrest.1, Session.destroy, List.filter_filter]
        refine List.filter_congr fun o _ => ?_
        simp [Bool.and_comm]
      · rw [hrest.2]
        simp

theorem chosenBy_sublist (path : String) (faults : List (Option String))
    (os : List (Nat × DataObject)) :
    ((chosenBy path faults os).map Prod.fst).Sublist (os.map Prod.fst) := by
  induction os generalizing faults with
  | nil => exact List.Sublist.refl _
  | cons o os ih =>
    rw [chosenBy, List.map_cons]
    split
    · exact (ih faults.tail).cons_cons _
    · exact (ih faults.tail).cons _

theorem unread_sublist (faults : List (Option String)) (os : List (Nat × DataObject)) :
    (unread faults os).Sublist os := by
  induction os generalizing faults with
  | nil => exact List.Sublist.refl _
  | cons o os ih =>
    rw [unread]
    split
    · exact (ih faults.tail).cons_cons _
    · exact (ih faults.tail).cons _

theorem mem_chosenBy {path : String} (hdistinct : (os.map Prod.fst).Nodup) (ho : o ∈ os) :
    o.1 ∈ (chosenBy path faults os).map Prod.fst ↔
      belongsTo path o.2 = true ∧ o ∉ unread faults os := by
  induction os generalizing faults with
  | nil => cases ho
  | cons x os ih =>
    rw [List.map_cons, List.nodup_cons] at hdistinct
    have hchosen : x.1 ∉ (chosenBy path faults.tail os).map Prod.fst := fun h =>
      hdistinct.1 ((chosenBy_sublist path faults.tail os).subset h)
    have hunread : x ∉ unread faults.tail os := fun h =>
      hdistinct.1 (List.mem_map_of_mem ((unread_sublist faults.tail os).subset h))
    rcases List.mem_cons.mp ho with rfl | ho
    · rw [chosenBy, unread]
      cases hfault : faults.headD none with
      | some text => simp [hchosen]
      | none => by_cases hbelongs : belongsTo path o.2 = true <;> simp_all
    · have hne : o.1 ≠ x.1 := fun heq => hdistinct.1 (heq ▸ List.mem_map_of_mem ho)
      have hne' : o ≠ x := fun heq => hne (congrArg Prod.fst heq)
      have hchosen' : o.1 ∈ (chosenBy path faults (x :: os)).map Prod.fst ↔
          o.1 ∈ (chosenBy path faults.tail os).map Prod.fst := by
        rw [chosenBy]
        split
        · rw [List.map_cons, List.mem_cons, or_iff_right hne]
        · exact Iff.rfl
      have hunread' : o ∈ unread faults (x :: os) ↔ o ∈ unread faults.tail os := by
        rw [unread]
        split
        · rw [List.mem_cons, or_iff_right hne']
        · exact Iff.rfl
      rw [hchosen', hunread']
      exact ih hdistinct.2 ho

@[simp] theorem serve_findObjectsFinal (s : Session) (fault : Option String) :
    (serve s fault .findObjectsFinal).1 = s := by
  cases fault <;> rfl

/-- The objects that a deletion of the path sets out to destroy under the faults, by handle. -/
def targets (path : String) (s : Session) (faults : List (Option String)) : List Nat :=
  (chosenBy path (faults.drop 2) (s.objects.take maxObjects)).map Prod.fst

private theorem exec_search (path : String) (s : Session)
    (hinit : faults.headD none = none) (hfind : faults.tail.headD none = none) :
    exec serve none (deleteSecretObjects path) s faults =
      exec serve none
        (finalizeAndDestroy (chosenBy path (faults.drop 2) (s.objects.take maxObjects))) s
        (faults.drop ((s.objects.take maxObjects).length + 2)) := by
  have hos : ∀ o ∈ s.objects.take maxObjects, o ∈ s.objects := fun o => List.mem_of_mem_take
  have hdrop : faults.tail.tail = faults.drop 2 := by
    rw [← List.drop_one, ← List.drop_one, List.drop_drop]
  rw [deleteSecretObjects, exec_call, hinit, serve_none, perform]
  dsimp only
  rw [exec_call, hfind]
  simp only [serve_none, perform, Option.all_none, List.filter_true]
  rw [exec_collectObjects path s hos, List.nil_append, hdrop, List.drop_drop, Nat.add_comm 2]

theorem exec_deleteSecretObjects_of_search (path : String) (s : Session)
    (hinit : faults.headD none = none)
    (hfind : faults.tail.headD none = none)
    (hfinal : (faults.drop ((s.objects.take maxObjects).length + 2)).headD none = none) :
    (exec serve none (deleteSecretObjects path) s faults).2.objects = s.objects.filter (fun o =>
        o.1 ∉ goneOf (faults.drop ((s.objects.take maxObjects).length + 3))
          (chosenBy path (faults.drop 2) (s.objects.take maxObjects))) ∧
      ((exec serve none (deleteSecretObjects path) s faults).1 = .ok () ↔
        goneOf (faults.drop ((s.objects.take maxObjects).length + 3))
          (chosenBy path (faults.drop 2) (s.objects.take maxObjects)) = targets path s faults) := by
  have hsublist := chosenBy_sublist path (faults.drop 2) (s.objects.take maxObjects)
  have hmem : ∀ x ∈ chosenBy path (faults.drop 2) (s.objects.take maxObjects),
      ∃ o ∈ s.objects, o.1 = x.1 := by
    intro x hx
    obtain ⟨o, ho, hhandle⟩ := List.mem_map.mp (hsublist.subset (List.mem_map_of_mem hx))
    exact ⟨o, List.mem_of_mem_take ho, hhandle⟩
  have hdistinct := s.distinct.sublist (hsublist.trans ((List.take_sublist _ _).map _))
  obtain ⟨hobjects, hresult⟩ := exec_destroyObjects
    (chosenBy path (faults.drop 2) (s.objects.take maxObjects)).length s hmem hdistinct []
    (faults.drop ((s.objects.take maxObjects).length + 3))
  rw [exec_search path s hinit hfind, finalizeAndDestroy, exec_call, hfinal, List.tail_drop]
  refine ⟨hobjects, hresult.trans ?_⟩
  rw [and_iff_right rfl]
  exact Iff.rfl

section Writes

variable (path : String) (entries : List (String × Bytes)) (metadata : Option SecretMetadata)
  (s : Session) (faults : List (Option String))

theorem exec_deleteSecretObjects :
    ∃ gone : List Nat, gone.Sublist (targets path s faults) ∧
      (exec serve none (deleteSecretObjects path) s faults).2.objects =
        s.objects.filter (fun o => o.1 ∉ gone) ∧
      ((exec serve none (deleteSecretObjects path) s faults).1 = .ok () →
        gone = targets path s faults) ∧
      ((exec serve none (deleteSecretObjects path) s faults).1 ≠ .ok () →
        gone = [] ∨ gone ≠ targets path s faults) := by
  cases hinit : faults.headD none with
  | some text =>
    rw [deleteSecretObjects, exec_call, hinit]
    exact ⟨[], List.nil_sublist _, by simp, by simp, by simp⟩
  | none =>
    cases hfind : faults.tail.headD none with
    | some text =>
      rw [deleteSecretObjects, exec_call, hinit, serve_none, perform]
      dsimp only
      rw [exec_call, hfind]
      refine ⟨[], List.nil_sublist _, ?_, ?_, ?_⟩
      all_goals simp [exec_call]
    | none =>
      cases hfinal : (faults.drop ((s.objects.take maxObjects).length + 2)).headD none with
      | some text =>
        rw [exec_search path s hinit hfind, finalizeAndDestroy, exec_call, hfinal]
        exact ⟨[], List.nil_sublist _, by simp, by simp, by simp⟩
      | none =>
        obtain ⟨hobjects, hresult⟩ := exec_deleteSecretObjects_of_search path s hinit hfind hfinal
        refine ⟨_, goneOf_sublist _ _, hobjects, hresult.mp, fun hfail => ?_⟩
        exact .inr fun heq => hfail (hresult.mpr heq)

/-- The creations go through in order up to the first that fails. -/
theorem exec_createObjects :
    ∃ n, (exec serve none (createObjects path entries metadata) s faults).2.token =
        s.token ++ (created path entries metadata).take n ∧
      ((exec serve none (createObjects path entries metadata) s faults).1 = .ok () →
        (created path entries metadata).length ≤ n) ∧
      ((exec serve none (createObjects path entries metadata) s faults).1 ≠ .ok () →
        n < (created path entries metadata).length) := by
  induction entries generalizing s faults with
  | nil =>
    cases metadata with
    | none => exact ⟨0, by simp [createObjects], by simp [created], by simp [createObjects]⟩
    | some m =>
      rw [createObjects, exec_call]
      cases hfault : faults.headD none with
      | some text => exact ⟨0, by simp, by simp, by simp [created]⟩
      | none => exact ⟨1, by simp [perform, created], by simp [created], by simp [perform]⟩
  | cons e entries ih =>
    obtain ⟨key, value⟩ := e
    have hcreated : created path ((key, value) :: entries) metadata =
        ⟨labelOf path key, value⟩ :: created path entries metadata := rfl
    rw [createObjects, exec_call, hcreated]
    cases hfault : faults.headD none with
    | some text => exact ⟨0, by simp, by simp, by simp⟩
    | none =>
      obtain ⟨n, htoken, hok, hfail⟩ := ih (s.create ⟨labelOf path key, value⟩) faults.tail
      refine ⟨n + 1, ?_, fun h => ?_, fun h => ?_⟩
      · rw [serve_none, perform]
        dsimp only
        rw [htoken, Session.token_create, List.append_assoc, List.singleton_append,
          List.take_succ_cons]
      · exact Nat.succ_le_succ (hok h)
      · exact Nat.succ_lt_succ (hfail h)

/-- The objects that are left of those of the session when some are gone. -/
def Session.without (s : Session) (gone : List Nat) : Token :=
  (s.objects.filter fun o => o.1 ∉ gone).map Prod.snd

theorem exec_writeSecret_eq :
    ∃ n, exec serve none (writeSecret path entries metadata) s faults =
      exec serve none (createUnlessFailed path entries metadata
        (exec serve none (deleteSecretObjects path) s faults).1)
        (exec serve none (deleteSecretObjects path) s faults).2 (faults.drop n) :=
  exec_bind none _ _ s faults

/-- What a write leaves: the objects it has not destroyed and those it has created. -/
theorem exec_writeSecret :
    ∃ gone n, gone.Sublist (targets path s faults) ∧
      (exec serve none (writeSecret path entries metadata) s faults).2.token =
        s.without gone ++ (created path entries metadata).take n ∧
      ((exec serve none (writeSecret path entries metadata) s faults).1 = .ok () →
        gone = targets path s faults ∧ (created path entries metadata).length ≤ n) ∧
      ((exec serve none (writeSecret path entries metadata) s faults).1 ≠ .ok () →
        (n = 0 ∧ (gone = [] ∨ gone ≠ targets path s faults)) ∨
          n < (created path entries metadata).length) := by
  obtain ⟨gone, hsublist, hobjects, hok, hfail⟩ := exec_deleteSecretObjects path s faults
  obtain ⟨m, hexec⟩ := exec_writeSecret_eq path entries metadata s faults
  rw [hexec]
  have hkept : (exec serve none (deleteSecretObjects path) s faults).2.token = s.without gone := by
    rw [Session.token, hobjects]
    rfl
  cases hresult : (exec serve none (deleteSecretObjects path) s faults).1 with
  | error text =>
    refine ⟨gone, 0, hsublist, ?_, ?_, fun _ => .inl ⟨rfl, hfail ?_⟩⟩
    · simp [createUnlessFailed, hkept]
    · simp [createUnlessFailed]
    · rw [hresult]
      simp
  | ok u =>
    obtain ⟨n, htoken, hcreated, hcut⟩ := exec_createObjects path entries metadata
      (exec serve none (deleteSecretObjects path) s faults).2 (faults.drop m)
    rw [hkept] at htoken
    refine ⟨gone, n, hsublist, htoken, fun h => ⟨hok hresult, hcreated h⟩, fun h => .inr (hcut h)⟩

end Writes

private theorem handles_found (label : String) (s : Session) :
    ((s.objects.filter fun o => o.2.label = label).take 1).map Prod.fst =
      ((s.objects.find? fun o => o.2.label = label).map Prod.fst).toList := by
  rw [List.take_one, List.head?_filter]
  cases s.objects.find? fun o => o.2.label = label <;> rfl

private theorem serve_destroyObject (ho : o ∈ s.objects) :
    serve s none (.destroyObject o.1) = (s.destroy o.1, .ok {}) := by
  have hhere : s.objects.any (fun x => x.1 = o.1) = true :=
    List.any_eq_true.mpr ⟨o, ho, by simp⟩
  simp [perform, hhere]

theorem exec_deleteSecretKeyObject (label : String) (s : Session) (faults : List (Option String)) :
    ((exec serve none (deleteSecretKeyObject label) s faults).1 = .ok () →
      ∃ o, s.objects.find? (fun o => o.2.label = label) = some o ∧
        (exec serve none (deleteSecretKeyObject label) s faults).2 = s.destroy o.1) ∧
    ((exec serve none (deleteSecretKeyObject label) s faults).1 ≠ .ok () →
      (exec serve none (deleteSecretKeyObject label) s faults).2 = s) := by
  rw [deleteSecretKeyObject, exec_call]
  cases hinit : faults.headD none with
  | some text => exact ⟨by simp, by simp⟩
  | none =>
    rw [serve_none, perform]
    dsimp only
    rw [exec_call]
    cases hfind : faults.tail.headD none with
    | some text => exact ⟨by simp [exec_call], by simp [exec_call]⟩
    | none =>
      rw [serve_none, perform]
      dsimp only
      rw [exec_call]
      cases hfinal : faults.tail.tail.headD none with
      | some text => exact ⟨by simp, by simp⟩
      | none =>
        simp only [serve_none, perform, Option.all_some, handles_found]
        cases hobject : s.objects.find? fun o => o.2.label = label with
        | none => exact ⟨by simp [destroyFirst], by simp [destroyFirst]⟩
        | some o =>
          have ho := List.mem_of_find?_eq_some hobject
          rw [Option.map_some, Option.toList_some, destroyFirst, exec_call]
          cases hdestroy : faults.tail.tail.tail.headD none with
          | some text => exact ⟨by simp, by simp⟩
          | none =>
            rw [serve_destroyObject ho]
            exact ⟨fun _ => ⟨o, rfl, rfl⟩, by simp⟩

theorem exec_deleteSecret (path : String) (s : Session) (faults : List (Option String)) :
    exec serve none (deleteSecret path) s faults =
      ((exec serve none (deleteSecretObjects path) s faults).1.mapError
          fun text => "failed to delete secret objects: " ++ text,
        (exec serve none (deleteSecretObjects path) s faults).2) :=
  exec_bind_done none _ _ s faults

theorem exec_deleteSecretKey {key : String} (hkey : key ≠ "") (path : String) (s : Session)
    (faults : List (Option String)) : exec serve none (deleteSecretKey path key) s faults =
      ((exec serve none (deleteSecretKeyObject (labelOf path key)) s faults).1.mapError
          fun text => "failed to delete secret key: " ++ text,
        (exec serve none (deleteSecretKeyObject (labelOf path key)) s faults).2) := by
  rw [deleteSecretKey, exactLabel_eq hkey]
  exact exec_bind_done none _ _ s faults

theorem mapError_eq_ok_iff {r : Except String Unit} {f : String → String} :
    r.mapError f = .ok () ↔ r = .ok () := by
  cases r with
  | ok u => simp [Except.mapError]
  | error text => simp [Except.mapError]

@[simp] theorem unread_nil (os : List (Nat × DataObject)) : unread [] os = [] := by
  induction os with
  | nil => rfl
  | cons o os ih => exact ih

@[simp] theorem goneOf_nil (xs : List (Nat × String)) : goneOf [] xs = xs.map Prod.fst := by
  induction xs with
  | nil => rfl
  | cons x xs ih => exact congrArg (x.1 :: ·) ih

theorem mem_targets {path : String} (ho : o ∈ s.objects.take maxObjects) :
    o.1 ∈ targets path s faults ↔ belongsTo path o.2 = true ∧
      o ∉ unread (faults.drop 2) (s.objects.take maxObjects) :=
  mem_chosenBy (s.distinct.sublist ((List.take_sublist _ _).map _)) ho

private theorem not_mem_targets_of_mem_drop {path : String}
    (ho : o ∈ s.objects.drop maxObjects) : o.1 ∉ targets path s faults := by
  intro h
  have htake := (chosenBy_sublist path (faults.drop 2) (s.objects.take maxObjects)).subset h
  have hdistinct := s.distinct
  rw [← List.take_append_drop maxObjects s.objects, List.map_append, List.nodup_append] at hdistinct
  exact hdistinct.2.2 o.1 htake o.1 (List.mem_map_of_mem ho) rfl

theorem without_targets_of_readable {path : String}
    (h : unread (faults.drop 2) (s.objects.take maxObjects) = []) :
    s.without (targets path s faults) = Pkcs11.deleteSecretObjects s.token path := by
  have htake : (s.objects.take maxObjects).filter (fun o => o.1 ∉ targets path s faults) =
      (s.objects.take maxObjects).filter fun o => !belongsTo path o.2 := by
    refine List.filter_congr fun o ho => ?_
    have hmem : o.1 ∈ targets path s faults ↔ _ := mem_targets ho
    rw [h] at hmem
    simp [hmem]
  have hdrop : (s.objects.drop maxObjects).filter (fun o => o.1 ∉ targets path s faults) =
      s.objects.drop maxObjects :=
    List.filter_eq_self.mpr fun o ho => by simpa using not_mem_targets_of_mem_drop ho
  have hsplit : s.objects.filter (fun o => o.1 ∉ targets path s faults) =
      (s.objects.take maxObjects).filter (fun o => !belongsTo path o.2) ++
        s.objects.drop maxObjects := by
    rw [← htake, ← hdrop, ← List.filter_append, List.take_append_drop]
  rw [Session.without, hsplit, Pkcs11.deleteSecretObjects, Session.token, List.map_append,
    List.map_drop, ← List.map_take, List.filter_map]
  rfl

theorem exec_createObjects_nil (path : String) (entries : List (String × Bytes))
    (metadata : Option SecretMetadata) (s : Session) :
    (exec serve none (createObjects path entries metadata) s []).1 = .ok () := by
  induction entries generalizing s with
  | nil => cases metadata <;> rfl
  | cons e entries ih => exact ih _

theorem exec_deleteSecretObjects_nil (path : String) (s : Session) :
    (exec serve none (deleteSecretObjects path) s []).1 = .ok () ∧
      (exec serve none (deleteSecretObjects path) s []).2.token =
        Pkcs11.deleteSecretObjects s.token path := by
  have hok : (exec serve none (deleteSecretObjects path) s []).1 = .ok () := by
    refine (exec_deleteSecretObjects_of_search path s rfl rfl ?_).2.mpr ?_
    · simp
    · simp [targets]
  obtain ⟨gone, _, hobjects, hgone, _⟩ := exec_deleteSecretObjects path s []
  refine ⟨hok, ?_⟩
  rw [Session.token, hobjects, hgone hok]
  exact without_targets_of_readable (by simp)

-- The handles are distinct, so the first object under the label is the only one with its handle.
private theorem map_filter_eq_eraseP {label : String} (hdistinct : (os.map Prod.fst).Nodup)
    (h : os.find? (fun o => o.2.label = label) = some o) :
    (os.filter fun x => x.1 ≠ o.1).map Prod.snd =
      (os.map Prod.snd).eraseP fun o => o.label = label := by
  induction os with
  | nil => cases h
  | cons x os ih =>
    rw [List.map_cons, List.nodup_cons] at hdistinct
    rw [List.map_cons]
    by_cases hx : x.2.label = label
    · rw [List.find?_cons_of_pos (by simpa using hx)] at h
      obtain rfl := Option.some.inj h
      have hrest : os.filter (fun y => y.1 ≠ x.1) = os := by
        rw [List.filter_eq_self]
        intro y hy
        have hne : y.1 ≠ x.1 := fun heq => hdistinct.1 (heq ▸ List.mem_map_of_mem hy)
        simpa using hne
      rw [List.filter_cons_of_neg (by simp), hrest, List.eraseP_cons_of_pos (by simpa using hx)]
    · rw [List.find?_cons_of_neg (by simpa using hx)] at h
      have hne : x.1 ≠ o.1 := fun heq =>
        hdistinct.1 (heq ▸ List.mem_map_of_mem (List.mem_of_find?_eq_some h))
      rw [List.filter_cons_of_pos (by simpa using hne), List.map_cons, ih hdistinct.2 h,
        List.eraseP_cons_of_neg (by simpa using hx)]

theorem token_destroy_of_find? {label : String}
    (h : s.objects.find? (fun o => o.2.label = label) = some o) :
    (s.destroy o.1).token = s.token.eraseP fun o => o.label = label :=
  map_filter_eq_eraseP s.distinct h

private theorem exec_deleteSecretKeyObject_nil (label : String) (s : Session) :
    exec serve none (deleteSecretKeyObject label) s [] =
      exec serve none (destroyFirst label
        ((s.objects.find? fun o => o.2.label = label).map Prod.fst).toList) s [] := by
  rw [← handles_found]
  rfl

theorem exec_deleteSecretKey_nil (path key : String) (s : Session) :
    (exec serve none (deleteSecretKey path key) s []).1 =
        (Pkcs11.deleteSecretKey s.token path key).map (fun _ => ()) ∧
      (exec serve none (deleteSecretKey path key) s []).2.token =
        (Pkcs11.deleteSecretKey s.token path key).toOption.getD s.token := by
  simp only [deleteSecretKey, Pkcs11.deleteSecretKey, exec_bind_done,
    exec_deleteSecretKeyObject_nil]
  generalize (if key ≠ "" && key ≠ defaultKeyName then path ++ "/" ++ key else path) = label
  cases hobject : s.objects.find? fun o => o.2.label = label with
  | none =>
    have hany : s.token.any (fun o => o.label = label) = false := by
      rw [List.any_eq_false]
      intro x hx
      obtain ⟨o, ho, rfl⟩ := List.mem_map.mp hx
      exact List.find?_eq_none.mp hobject o ho
    rw [hany]
    exact ⟨rfl, rfl⟩
  | some o =>
    have hany : s.token.any (fun o => o.label = label) = true := by
      have hlabel := List.find?_some hobject
      exact List.any_eq_true.mpr
        ⟨o.2, List.mem_map_of_mem (List.mem_of_find?_eq_some hobject), hlabel⟩
    rw [hany, Option.map_some, Option.toList_some, destroyFirst, exec_call, List.headD_nil,
      serve_destroyObject (List.mem_of_find?_eq_some hobject)]
    exact ⟨rfl, token_destroy_of_find? hobject⟩

/-- A write that succeeds, with every label read on the way, is read back whatever the token held
before. -/
theorem written_is_read_back {s : Session} {path : String} {data : SecretData}
    {metadata : Option SecretMetadata} {entries : List (String × Bytes)}
    {faults : List (Option String)} (hp : validateSecretPath path = .ok ())
    (hd : validateSecretData data = .ok ()) (horder : entries.Perm data.toList)
    (hok : (exec serve none (writeSecret path entries metadata) s faults).1 = .ok ())
    (hreadable : unread (faults.drop 2) (s.objects.take maxObjects) = [])
    (hfits : Fits s.token)
    (hfits' : Fits (exec serve none (writeSecret path entries metadata) s faults).2.token) :
    readSecret (exec serve none (writeSecret path entries metadata) s faults).2.token path =
        .ok data ∧
      ∀ m, metadata = some m →
        readMetadata (exec serve none (writeSecret path entries metadata) s faults).2.token path =
          .ok m := by
  have hplain := plain_of_validateSecretPath hp
  have hlegible : ∀ e ∈ entries, Legible path e.1 := fun e he => legible_of_plain hplain
    (plain_of_validateSecretData hd e.1 (mem_of_mem_toList (horder.mem_iff.mp he)))
  have hne : entries ≠ [] := by
    rintro rfl
    exact ne_empty_of_validateSecretData hd (by simpa using horder.symm.eq_nil)
  obtain ⟨gone, n, _, htoken, hgone, _⟩ := exec_writeSecret path entries metadata s faults
  have hafter : (exec serve none (writeSecret path entries metadata) s faults).2.token =
      (s.token.filter fun o => !belongsTo path o) ++ created path entries metadata := by
    rw [htoken, (hgone hok).1, List.take_of_length_le (hgone hok).2,
      without_targets_of_readable hreadable, deleteSecretObjects_of_fits hfits]
  have hnothing {α : Type} {f : DataObject → Option α}
      (hf : ∀ o, belongsTo path o = false → f o = none) :
      (s.token.filter fun o => !belongsTo path o).filterMap f = [] := by
    rw [List.filterMap_eq_nil_iff]
    intro o ho
    exact hf o (by simpa using (List.mem_filter.mp ho).2)
  constructor
  · rw [readSecret_eq_secretOf, take_of_fits hfits', hafter, List.filterMap_append,
      hnothing fun o => entryOf_of_not_belongsTo, List.nil_append,
      filterMap_entryOf_created hlegible hplain.1, secretOf, if_neg hne,
      assign_of_perm_toList data horder]
  · rintro m rfl
    rw [readMetadata_eq_metadataOf, take_of_fits hfits', hafter, List.filterMap_append,
      hnothing fun o => describedBy_of_not_belongsTo, List.nil_append,
      filterMap_describedBy_created hlegible]
    rfl

private def twoKeys : SecretData :=
  ((∅ : SecretData).insert "password" (utf8 "x")).insert "user/name" (utf8 "y")

private def occupied : Session :=
  (Session.blank.create ⟨"db/old", utf8 "z"⟩).create ⟨"db/_metadata", utf8 "?"⟩

/-- The entries go to the token in the other order, over objects of an earlier version. -/
theorem written_is_read_back_over_old :
    readSecret (exec serve none (writeSecret "db" twoKeys.toList.reverse (some {})) occupied
        []).2.token "db" = .ok twoKeys ∧
      readMetadata (exec serve none (writeSecret "db" twoKeys.toList.reverse (some {})) occupied
        []).2.token "db" = .ok {} := by
  have hok : (exec serve none (writeSecret "db" twoKeys.toList.reverse (some {})) occupied []).1 =
      .ok () := by decide +kernel
  have hdata : validateSecretData twoKeys = .ok () := by decide +kernel
  have hread := written_is_read_back (by decide) hdata (List.reverse_perm _) hok
    (by decide +kernel) (by decide +kernel) (by decide +kernel)
  exact ⟨hread.1, hread.2 {} rfl⟩

end HsmSecretsOperator.Hsm.Cryptoki
