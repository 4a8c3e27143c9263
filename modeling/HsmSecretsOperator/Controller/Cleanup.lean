/- source: internal/controller/hsmsecret_controller.go
   digest: Attempts to delete an HSMSecret: its Secret first, then the finalizer. -/

import HsmSecretsOperator.Controller.Finalizers

set_option autoImplicit false

namespace HsmSecretsOperator.Controller.Cleanup

open Finalizers Foundation.ApiServer Foundation.Calls Foundation.Calls.Program Foundation.Runs
  SecretObjects

def afterDelete (copy : Versioned HSMSecret) : Answer → Program Request Answer (Except String Unit)
  | .failed e => .done (.error e.text)
  | .done | .object _ => updateWithRetry (Change.remove.copy copy)

/-- Any failure of the read skips the deletion. -/
def afterGet (secretName : String) (copy : Versioned HSMSecret) :
    Answer → Program Request Answer (Except String Unit)
  | .failed _ => updateWithRetry (Change.remove.copy copy)
  | .done | .object _ => .call (.deleteSecret secretName) (afterDelete copy)

def reconcileDelete (name : String) (copy : Versioned HSMSecret) :
    Program Request Answer (Except String Unit) :=
  if hsmSecretFinalizer ∉ copy.value.finalizers then .done (.ok ())
  else .call (.getSecret (copy.value.target name)) (afterGet (copy.value.target name) copy)

/-- `Reconcile` of an object up to its finalizer. Where that is present the Secret is brought up to
date, which leaves the finalizers alone. -/
def reconcileObject (op : Operator) (name : String) (copy : Versioned HSMSecret) :
    Program Request Answer (Except String Unit) :=
  if !shouldHandleSecret op copy.value then .done (.ok ())
  else if copy.value.deletionTimestamp.isSome then reconcileDelete name copy
  else if hsmSecretFinalizer ∉ copy.value.finalizers then
    updateWithRetry (Change.add.copy copy)
  else .done (.ok ())

def afterRead (op : Operator) (name : String) :
    Answer → Program Request Answer (Except String Unit)
  | .failed e => if e.reason = .notFound then .done (.ok ()) else .done (.error e.text)
  | .object copy => reconcileObject op name copy
  | .done => .done (.ok ())

def reconcile (op : Operator) (name : String) : Program Request Answer (Except String Unit) :=
  .call .getObject (afterRead op name)

/-- What an attempt meets when it reads the object, when it reads the Secret, and later. -/
structure Attempt where
  object : Circumstances := {}
  secret : Circumstances := {}
  rest : List Circumstances := []

def restart (s : Server) : Server := { s with accepted := none, cleared := false }

def attempt (op : Operator) (name : String) (s : Server) (a : Attempt) : Server :=
  (exec serve {} (reconcile op name) (restart s) (a.object :: a.secret :: a.rest)).2

/-- The stored object has the finalizer. -/
def Holds (s : Server) : Prop :=
  ∃ o, s.stored = some o ∧ hsmSecretFinalizer ∈ o.value.finalizers

/-- The finalizer goes only in an attempt in which the Secret was reported missing or its deletion
accepted. -/
def Cleaned (op : Operator) (name : String) (s : Server) (a : Attempt) : Prop :=
  Holds s → ¬ Holds (attempt op name s a) → (attempt op name s a).cleared = true

/-- The object is to be cleaned up by the controller. -/
structure Pending (op : Operator) (s : Server) (o : Versioned HSMSecret) : Prop where
  stored : s.stored = some o
  handled : shouldHandleSecret op o.value = true
  deleting : o.value.deletionTimestamp.isSome = true
  holds : hsmSecretFinalizer ∈ o.value.finalizers

/-- The read is answered, or says that there is no Secret. -/
def Reported (fate : Fate) : Prop := ∀ e ∈ fate.error, e.reason = .notFound

section Steps

variable {op : Operator} {s : Server}

theorem holds_edited (es : List Edit) (h : Holds s) : Holds (s.edited es) := by
  obtain ⟨o, ho, hmem⟩ := h
  obtain ⟨o', ho', hvalue, -⟩ := stored_edited es ho (.inr hmem)
  refine ⟨o', ho', ?_⟩
  rw [hvalue]
  exact (mem_applyEdits es).mpr hmem

variable {o : Versioned HSMSecret}

theorem pending_of_edited {es : List Edit}
    (h : Pending op (s.edited es) o) : ∃ o₀, Pending op s o₀ := by
  obtain ⟨o₀, ho₀, hvalue⟩ := of_stored_edited h.stored
  have hhandled := h.handled
  have hdeleting := h.deleting
  have hholds := h.holds
  rw [hvalue] at hhandled hdeleting hholds
  exact ⟨o₀, ho₀, hhandled, hdeleting, (mem_applyEdits es).mp hholds⟩

/-- An attempt writes nothing, or adds the finalizer to an object that is not being deleted, or
removes it from one that is to be cleaned up. -/
inductive Attempted (op : Operator) (s : Server) (read : Fate) (s' : Server) : Prop where
  | kept (es : List Edit) (h : s'.stored = (s.edited es).stored)
  | added (es : List Edit) (o : Versioned HSMSecret) (ho : (s.edited es).stored = some o)
      (hlive : o.value.deletionTimestamp = none)
      (hmissing : hsmSecretFinalizer ∉ o.value.finalizers)
      (h : ∀ o', s'.stored = some o' → o'.value.deletionTimestamp = none)
  | removed (o : Versioned HSMSecret) (hpending : Pending op s o)
      (hcleared : Reported read → s'.cleared = true)

theorem cleared_updateWithRetry {copy : Versioned HSMSecret} (hcopy : CopyOf s copy)
    (cs : List Circumstances) :
    (exec serve {} (updateWithRetry copy) s cs).2.cleared = s.cleared := by
  obtain ⟨es, -, hupdated⟩ := updateWithRetry_updated copy hcopy cs
  generalize exec serve {} (updateWithRetry copy) s cs = result at hupdated ⊢
  cases hupdated with
  | kept => exact cleared_edited s es
  | written _ o _ => exact cleared_edited s es

theorem readSecret_cases (s : Server) (secretName : String) (fate : Fate) :
    (∃ s' e, readSecret s secretName fate = (s', .failed e) ∧ s'.stored = s.stored ∧
        (Reported fate → s'.cleared = true)) ∨
      readSecret s secretName fate = (s, .done) := by
  unfold readSecret Reported
  cases fate.error with
  | some e =>
    refine .inl ⟨_, e, rfl, rfl, fun h => ?_⟩
    simp [h e rfl]
  | none =>
    dsimp only
    split
    · exact .inr rfl
    · exact .inl ⟨_, _, rfl, rfl, fun _ => rfl⟩

theorem deleteSecret_cases (s : Server) (c : Circumstances) (secretName : String) :
    ∃ s', ((∃ e, serve s c (.deleteSecret secretName) = (s', .failed e)) ∨
        serve s c (.deleteSecret secretName) = (s', .done) ∧ s'.cleared = true) ∧
      s'.stored = (s.edited c.edits).stored := by
  dsimp only [serve, Server.deleteSecret]
  cases c.fate with
  | served =>
    dsimp only [respond]
    split
    · exact ⟨_, .inr ⟨rfl, rfl⟩, rfl⟩
    · exact ⟨_, .inl ⟨_, rfl⟩, rfl⟩
  | refused e => exact ⟨_, .inl ⟨e, rfl⟩, rfl⟩
  | lost text =>
    dsimp only [respond]
    split
    · exact ⟨_, .inl ⟨_, rfl⟩, rfl⟩
    · exact ⟨_, .inl ⟨_, rfl⟩, rfl⟩

theorem Attempted.of_edited {es : List Edit} {read : Fate} {s' : Server}
    (h : Attempted op (s.edited es) read s') : Attempted op s read s' := by
  cases h with
  | kept es' h =>
    rw [← edited_append] at h
    exact .kept (es ++ es') h
  | added es' o ho hlive hmissing h =>
    rw [← edited_append] at ho
    exact .added (es ++ es') o ho hlive hmissing h
  | removed o hpending hcleared =>
    obtain ⟨o₀, hpending₀⟩ := pending_of_edited hpending
    exact .removed o₀ hpending₀ hcleared

theorem reconcileDelete_attempted (name : String)
    (hpending : Pending op s o) (c : Circumstances) (rest : List Circumstances) :
    Attempted op s c.fate (exec serve {} (reconcileDelete name o) s (c :: rest)).2 := by
  have hserve : serve s c (.getSecret (o.value.target name)) =
      readSecret (s.edited c.edits) (o.value.target name) c.fate := rfl
  rw [reconcileDelete, if_neg (not_not.mpr hpending.holds), exec_call_cons, hserve]
  rcases readSecret_cases (s.edited c.edits) (o.value.target name) c.fate with
    ⟨t, e, hread, ht, hcleared⟩ | hread
  · rw [hread]
    have hcopy := copyOf_edited .remove hpending.stored ht
    refine .removed o hpending fun hreported => ?_
    exact (cleared_updateWithRetry hcopy rest).trans (hcleared hreported)
  · rw [hread, afterGet, exec_call]
    obtain ⟨t, hdelete, ht⟩ := deleteSecret_cases (s.edited c.edits) (rest.headD {})
      (o.value.target name)
    rw [← edited_append] at ht
    rcases hdelete with ⟨e, hfails⟩ | ⟨hdone, hcleared⟩
    · rw [hfails]
      exact .kept _ ht
    · rw [hdone]
      have hcopy := copyOf_edited .remove hpending.stored ht
      refine .removed o hpending fun _ => ?_
      exact (cleared_updateWithRetry hcopy rest.tail).trans hcleared

theorem addFinalizer_attempted (ho : s.stored = some o) (hlive : o.value.deletionTimestamp = none)
    (hmissing : hsmSecretFinalizer ∉ o.value.finalizers) (read : Fate)
    (cs : List Circumstances) :
    Attempted op s read (exec serve {} (updateWithRetry (Change.add.copy o)) s cs).2 := by
  obtain ⟨es, -, hupdated⟩ := updateWithRetry_updated (Change.add.copy o) (copyOf_self .add ho) cs
  generalize exec serve {} (updateWithRetry (Change.add.copy o)) s cs = result at hupdated ⊢
  cases hupdated with
  | kept => exact .kept es rfl
  | written _ o' ho' =>
    obtain ⟨o₀, ho₀, hvalue⟩ := of_stored_edited ho'
    obtain rfl := Option.some.inj (ho.symm.trans ho₀)
    have hlive' : o'.value.deletionTimestamp = none := by
      rw [hvalue]
      exact hlive
    refine .added es o' ho' hlive' (fun hmem => hmissing ?_) fun o'' ho'' => ?_
    · rw [hvalue] at hmem
      exact (mem_applyEdits es).mp hmem
    · rw [← eq_of_keep ho'', Versioned.value_change]
      exact hlive'

theorem reconcileObject_attempted (name : String)
    (ho : s.stored = some o) (c : Circumstances) (rest : List Circumstances) :
    Attempted op s c.fate (exec serve {} (reconcileObject op name o) s (c :: rest)).2 := by
  unfold reconcileObject
  split
  · exact .kept [] rfl
  next hhandled =>
    split
    next hdeleting =>
      by_cases hmem : hsmSecretFinalizer ∈ o.value.finalizers
      · exact reconcileDelete_attempted name ⟨ho, by simpa using hhandled, hdeleting, hmem⟩ c rest
      · rw [reconcileDelete, if_pos hmem]
        exact .kept [] rfl
    next hlive =>
      split
      next hmissing =>
        exact addFinalizer_attempted ho (by simpa using hlive) hmissing c.fate (c :: rest)
      next => exact .kept [] rfl

theorem attempt_attempted (op : Operator) (name : String) (s : Server) (a : Attempt) :
    Attempted op (restart s) a.secret.fate (attempt op name s a) := by
  have hserve : serve (restart s) a.object .getObject = ((restart s).edited a.object.edits,
      readObject ((restart s).edited a.object.edits) a.object.fate) := rfl
  rw [attempt, reconcile, exec_call_cons, hserve]
  rcases readObject_cases ((restart s).edited a.object.edits) a.object.fate with
    ⟨e, hfails⟩ | ⟨o, ho, hobject⟩
  · rw [hfails, afterRead]
    split
    · exact .kept a.object.edits rfl
    · exact .kept a.object.edits rfl
  · rw [hobject]
    exact .of_edited (reconcileObject_attempted name ho a.secret a.rest)

end Steps

section Runs

variable {op : Operator} {name : String} {s : Server}

theorem cleaned_of_reported {a : Attempt}
    (h : ∀ o, Pending op s o → Reported a.secret.fate) : Cleaned op name s a := by
  intro hholds hgone
  cases attempt_attempted op name s a with
  | kept es hkept =>
    obtain ⟨o, ho, hmem⟩ := holds_edited es (s := restart s) hholds
    exact absurd ⟨o, hkept.trans ho, hmem⟩ hgone
  | added es o ho _ hmissing _ =>
    obtain ⟨o', ho', hmem⟩ := holds_edited es (s := restart s) hholds
    obtain rfl := Option.some.inj (ho.symm.trans ho')
    exact absurd hmem hmissing
  | removed o hpending hcleared =>
    exact hcleared (h o ⟨hpending.stored, hpending.handled, hpending.deleting, hpending.holds⟩)

theorem pending_of_attempt {a : Attempt} {o : Versioned HSMSecret}
    (h : Pending op (attempt op name s a) o) : ∃ o₀, Pending op s o₀ := by
  have hrestart : ∃ o₀, Pending op (restart s) o₀ := by
    cases attempt_attempted op name s a with
    | kept es hkept =>
      exact pending_of_edited
        ⟨hkept.symm.trans h.stored, h.handled, h.deleting, h.holds⟩
    | added es o' ho' _ _ hlive =>
      have hdeleting := h.deleting
      rw [hlive o h.stored] at hdeleting
      cases hdeleting
    | removed o₀ hpending => exact ⟨o₀, hpending⟩
  obtain ⟨o₀, hpending⟩ := hrestart
  exact ⟨o₀, hpending.stored, hpending.handled, hpending.deleting, hpending.holds⟩

def blocked (read : Fate) : Attempt where
  object := { fate := .refused ⟨.other, ""⟩ }
  secret := { fate := read }

theorem run_blocked {o : Versioned HSMSecret} (reads : List Fate) (h : Pending op s o) :
    Pending op (run (attempt op name) s (reads.map blocked)) o := by
  induction reads generalizing s with
  | nil => exact h
  | cons read reads ih => exact ih ⟨h.stored, h.handled, h.deleting, h.holds⟩

theorem not_cleaned_of_failure {o : Versioned HSMSecret} {read : Fate} {e : ApiError}
    (h : Pending op s o) (herror : read.error = some e) (hreason : e.reason ≠ .notFound) :
    ¬ Cleaned op name s { secret := { fate := read } } := by
  have hstored : (restart s).stored = some o := h.stored
  have hread : serve (restart s) { fate := read } (.getSecret (o.value.target name)) =
      (restart s, .failed e) := by
    change readSecret (restart s) (o.value.target name) read = _
    simp [readSecret, herror, hreason, restart]
  have hattempt : attempt op name s { secret := { fate := read } } =
      (restart s).write o (Change.remove.copy o).value := by
    rw [attempt, reconcile, exec_call_cons, serve_getObject hstored, afterRead, reconcileObject,
      h.handled, Bool.not_true, if_neg Bool.false_ne_true, if_pos h.deleting, reconcileDelete,
      if_neg (not_not.mpr h.holds), exec_call_cons, hread, afterGet, updateWithRetry]
    exact congrArg Prod.snd (updateAttempts_writes 2 hstored _ rfl)
  intro hcleaned
  have hgone : ¬ Holds (attempt op name s { secret := { fate := read } }) := by
    rw [hattempt]
    rintro ⟨o', ho', hmem⟩
    rw [← eq_of_keep ho', Versioned.value_change] at hmem
    exact absurd rfl (of_decide_eq_true (List.mem_filter.mp hmem).2)
  have hcleared := hcleaned ⟨o, h.stored, h.holds⟩ hgone
  rw [hattempt] at hcleared
  cases hcleared

end Runs

/-- Whatever else fails, in all attempts to clean up the finalizer goes after the Secret, exactly if
no read of the Secret fails other than by saying that there is none. -/
theorem cleanup_before_release_iff (op : Operator) (name : String) (s : Server)
    (reads : List Fate) :
    (∀ attempts : List Attempt, attempts.map (fun a => a.secret.fate) = reads →
        Along (attempt op name) (Cleaned op name) s attempts) ↔
      ∀ o, Pending op s o → ∀ read ∈ reads, Reported read := by
  constructor
  · intro h o hpending read hread e he
    by_contra hreason
    obtain ⟨before, after, rfl⟩ := List.append_of_mem hread
    have hfates : (before.map blocked ++ { secret := { fate := read } } ::
        after.map blocked).map (fun a => a.secret.fate) = before ++ read :: after := by
      rw [List.map_append, List.map_cons, List.map_map, List.map_map]
      exact congrArg₂ (fun l l' => l ++ read :: l') (List.map_id before) (List.map_id after)
    have hrun := Along.append_iff.mp (h _ hfates)
    exact not_cleaned_of_failure (run_blocked before hpending) he hreason hrun.2.1
  · intro h attempts hattempts
    induction attempts generalizing s reads with
    | nil => exact trivial
    | cons a attempts ih =>
      subst hattempts
      refine ⟨cleaned_of_reported fun o hpending => h o hpending _ List.mem_cons_self,
        ih _ _ (fun o hpending read hread => ?_) rfl⟩
      obtain ⟨o₀, hpending₀⟩ := pending_of_attempt hpending
      exact h o₀ hpending₀ read (List.mem_cons_of_mem _ hread)

section Namespace

open SecretObjects

def failing (fails : Bool) : Circumstances :=
  if fails then { fate := .refused ⟨.other, ""⟩ } else {}

/-- The calls of a deletion that the model of the namespace fails or serves. -/
def circumstancesOf (env : Env) (found : Bool) : List Circumstances :=
  failing env.getFails ::
    ((if found then [failing env.deleteFails] else []) ++ [failing env.finalizerFails])

variable {n : Namespace} {name : String} {o : Versioned HSMSecret} {s : Server}

/-- The server and the namespace have the same objects. -/
structure Agrees (name : String) (s : Server) (n : Namespace) : Prop where
  secrets : s.secrets = n.secrets
  stored : s.stored.map Versioned.value = n.hsmSecrets[name]?

theorem agrees_write (h : n.hsmSecrets[name]? = some o.value) (hs : Agrees name s n)
    (hdeleting : o.value.deletionTimestamp.isSome = true) :
    Agrees name (s.write o (Change.remove.copy o).value) (releaseObject n name o.value h) := by
  have hvalue : (o.change fun _ => (Change.remove.copy o).value).value =
      (Change.remove.copy o).value := Versioned.value_change o _
  unfold releaseObject
  dsimp only
  split
  next hempty =>
    refine ⟨hs.secrets, ?_⟩
    have hgone : (s.write o (Change.remove.copy o).value).stored = none :=
      if_pos (by rw [hvalue]; exact ⟨hdeleting, hempty⟩)
    rw [hgone]
    exact Std.ExtTreeMap.getElem?_erase_self.symm
  next hleft =>
    refine ⟨hs.secrets, ?_⟩
    have hkept : (s.write o (Change.remove.copy o).value).stored = some _ :=
      if_neg (by rw [hvalue]; exact fun hboth => hleft hboth.2)
    rw [hkept, Option.map_some, hvalue]
    exact Std.ExtTreeMap.getElem?_insert_self.symm

theorem agrees_release (h : n.hsmSecrets[name]? = some o.value) (hs : Agrees name s n)
    (hstored : s.stored = some o) (hdeleting : o.value.deletionTimestamp.isSome = true)
    (fails : Bool) :
    Agrees name (exec serve {} (updateWithRetry (Change.remove.copy o)) s [failing fails]).2
      (if fails then n else releaseObject n name o.value h) := by
  cases fails with
  | true => exact hs
  | false =>
    have hexec : exec serve {} (updateWithRetry (Change.remove.copy o)) s [failing false] =
        (.ok (), s.write o (Change.remove.copy o).value) := updateAttempts_writes 2 hstored _ rfl
    rw [hexec]
    exact agrees_write h hs hdeleting

/-- A deletion ends with the objects that the model of the namespace has. -/
theorem reconcileDelete_agrees (env : Env) (h : n.hsmSecrets[name]? = some o.value)
    (hs : Agrees name s n) (hstored : s.stored = some o)
    (hdeleting : o.value.deletionTimestamp.isSome = true) :
    Agrees name (exec serve {} (reconcileDelete name o) s
        (circumstancesOf env (!env.getFails && o.value.target name ∈ n.secrets))).2
      (SecretObjects.reconcileDelete env n name o.value h) := by
  unfold SecretObjects.reconcileDelete reconcileDelete circumstancesOf
  dsimp only
  split
  · exact hs
  rw [exec_call_cons]
  cases env.getFails with
  | true =>
    refine agrees_release h ?_ ?_ hdeleting env.finalizerFails
    · exact ⟨hs.secrets, hs.stored⟩
    · exact hstored
  | false =>
    have hserve : serve s (failing false) (.getSecret (o.value.target name)) =
        readSecret s (o.value.target name) .served := rfl
    rw [hserve, readSecret]
    dsimp only [Fate.error]
    rw [hs.secrets]
    by_cases hfound : o.value.target name ∈ n.secrets
    · simp only [hfound, decide_true, Bool.not_false, Bool.and_true, if_true]
      rw [List.singleton_append, afterGet, exec_call_cons]
      cases env.deleteFails with
      | true => exact hs
      | false =>
        have hdelete : serve s (failing false) (.deleteSecret (o.value.target name)) =
            s.deleteSecret (o.value.target name) := rfl
        rw [hdelete, Server.deleteSecret, if_pos (hs.secrets ▸ hfound), hs.secrets]
        refine agrees_release _ ?_ ?_ hdeleting env.finalizerFails
        · exact ⟨rfl, hs.stored⟩
        · exact hstored
    · simp only [hfound, decide_false, Bool.not_false, Bool.and_false, Bool.false_eq_true, if_false]
      refine agrees_release h ?_ ?_ hdeleting env.finalizerFails
      · exact ⟨rfl, hs.stored⟩
      · exact hstored

end Namespace

private def deletedSecret : Versioned HSMSecret where
  value :=
    { uid := "u1", parentRef := some { name := "operator" }, deletionTimestamp := some 10
      finalizers := [hsmSecretFinalizer] }
  resourceVersion := 1

/-- The Secret is there, its read times out, and the finalizer is removed. -/
theorem timeout_releases_object :
    ¬ Along (attempt ⟨"operator", "hsm"⟩ "db") (Cleaned ⟨"operator", "hsm"⟩ "db")
      { stored := some deletedSecret
        secrets := (∅ : Std.ExtTreeMap String Secret).insert "db" { data := ∅ } }
      [{ secret := { fate := .refused ⟨.other, "timeout"⟩ } }] := by
  intro h
  exact not_cleaned_of_failure ⟨rfl, by decide, rfl, by decide⟩ rfl (by decide) h.1

end HsmSecretsOperator.Controller.Cleanup
