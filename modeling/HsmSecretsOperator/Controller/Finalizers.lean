/- source: internal/controller/hsmsecret_controller.go
   digest: Updates of the finalizers of an HSMSecret under optimistic concurrency. -/

import HsmSecretsOperator.Controller.SecretObjects
import HsmSecretsOperator.Foundation.ApiServer
import HsmSecretsOperator.Foundation.Calls

set_option autoImplicit false

namespace HsmSecretsOperator.Controller.Finalizers

open Foundation.ApiServer Foundation.Calls Foundation.Calls.Program SecretObjects

def addFinalizer (f : String) (finalizers : List String) : List String :=
  if f ∈ finalizers then finalizers else finalizers ++ [f]

def removeFinalizer (f : String) (finalizers : List String) : List String :=
  finalizers.filter fun g => g ≠ f

inductive Change where
  | add
  | remove

def Change.apply : Change → List String → List String
  | .add => addFinalizer hsmSecretFinalizer
  | .remove => removeFinalizer hsmSecretFinalizer

structure ForeignFinalizer where
  name : String
  foreign : name ≠ hsmSecretFinalizer

/-- What another writer does to a finalizer other than that of the controller. -/
inductive Edit where
  | add (f : ForeignFinalizer)
  | remove (f : ForeignFinalizer)

def Edit.apply : Edit → List String → List String
  | .add f => addFinalizer f.name
  | .remove f => removeFinalizer f.name

def applyEdits (edits : List Edit) (finalizers : List String) : List String :=
  edits.foldl (fun fs edit => edit.apply fs) finalizers

def setFinalizers (finalizers : List String) (hsmSecret : HSMSecret) : HSMSecret :=
  { hsmSecret with finalizers }

def others (finalizers : List String) : List String :=
  finalizers.filter fun f => f ≠ hsmSecretFinalizer

theorem others_apply (change : Change) (finalizers : List String) :
    others (change.apply finalizers) = others finalizers := by
  cases change with
  | add =>
    dsimp only [Change.apply, addFinalizer, others]
    split
    · rfl
    · simp
  | remove => simp [Change.apply, removeFinalizer, others, List.filter_filter]

theorem mem_edit (edit : Edit) {finalizers : List String} :
    hsmSecretFinalizer ∈ edit.apply finalizers ↔ hsmSecretFinalizer ∈ finalizers := by
  cases edit with
  | add f =>
    dsimp only [Edit.apply, addFinalizer]
    split
    · exact Iff.rfl
    · simp [f.foreign.symm]
  | remove f => simp [Edit.apply, removeFinalizer, f.foreign.symm]

theorem mem_applyEdits (edits : List Edit) {finalizers : List String} :
    hsmSecretFinalizer ∈ applyEdits edits finalizers ↔ hsmSecretFinalizer ∈ finalizers := by
  induction edits generalizing finalizers with
  | nil => exact Iff.rfl
  | cons edit edits ih => exact ih.trans (mem_edit edit)

/-- What the API server stores of an HSMSecret, and the Secrets of its namespace; and, of the calls
of the controller, the last update that took effect, and whether the Secret was reported missing or
its deletion accepted. -/
structure Server where
  stored : Option (Versioned HSMSecret)
  secrets : Std.ExtTreeMap String Secret := ∅
  accepted : Option (HSMSecret × HSMSecret) := none
  cleared : Bool := false

inductive Request where
  | getObject
  | updateObject (copy : Versioned HSMSecret)
  | getSecret (secretName : String)
  | deleteSecret (secretName : String)

inductive Answer where
  | done
  | object (hsmSecret : Versioned HSMSecret)
  | failed (e : ApiError)

def notFound : ApiError := ⟨.notFound, "not found"⟩

def modified : ApiError where
  reason := .conflict
  text := "the object has been modified; please apply your changes to the latest version"

/-- An object that is being deleted goes with its last finalizer. -/
def keep (o : Versioned HSMSecret) : Option (Versioned HSMSecret) :=
  if o.value.deletionTimestamp.isSome ∧ o.value.finalizers = [] then none else some o

namespace Server

def edit (s : Server) (edit : Edit) : Server :=
  { s with
    stored := s.stored.bind fun o =>
      keep (o.change fun v => setFinalizers (edit.apply v.finalizers) v) }

/-- Other writers change the object one after the other. -/
def edited (s : Server) (edits : List Edit) : Server := edits.foldl edit s

def write (s : Server) (o : Versioned HSMSecret) (value : HSMSecret) : Server :=
  { s with
    stored := keep (o.change fun _ => value)
    accepted := some (o.value, value) }

/-- An update with an old resource version is rejected. -/
def update (s : Server) (copy : Versioned HSMSecret) : Server × Answer :=
  match s.stored with
  | none => (s, .failed notFound)
  | some o =>
    if copy.resourceVersion ≠ o.resourceVersion then (s, .failed modified)
    else (s.write o copy.value, .done)

def deleteSecret (s : Server) (secretName : String) : Server × Answer :=
  if secretName ∈ s.secrets then
    ({ s with secrets := s.secrets.erase secretName, cleared := true }, .done)
  else (s, .failed notFound)

end Server

/-- What a call meets: the updates of others before it, and how it ends. -/
structure Circumstances where
  edits : List Edit := []
  fate : Fate := .served

def respond (s : Server) (result : Server × Answer) : Fate → Server × Answer
  | .served => result
  | .refused e => (s, .failed e)
  | .lost text => (result.1, .failed ⟨.other, text⟩)

def readSecret (s : Server) (secretName : String) (fate : Fate) : Server × Answer :=
  match fate.error with
  | some e => ({ s with cleared := s.cleared || e.reason = .notFound }, .failed e)
  | none =>
    if secretName ∈ s.secrets then (s, .done) else ({ s with cleared := true }, .failed notFound)

def readObject (s : Server) (fate : Fate) : Answer :=
  match fate.error with
  | some e => .failed e
  | none =>
    match s.stored with
    | none => .failed notFound
    | some o => .object o

def serve (s : Server) (c : Circumstances) (request : Request) : Server × Answer :=
  let s := s.edited c.edits
  match request with
  | .getObject => (s, readObject s c.fate)
  | .updateObject copy => respond s (s.update copy) c.fate
  | .getSecret secretName => readSecret s secretName c.fate
  | .deleteSecret secretName => respond s (s.deleteSecret secretName) c.fate

def maxRetries : Nat := 3

/-- The attempts that are left, with the copy that is sent next. A read of the object is never
answered without it. -/
def updateAttempts : Nat → Versioned HSMSecret → Program Request Answer (Except String Unit)
  | 0, _ => .done (.error "failed to update after 3 attempts")
  | left + 1, copy =>
    .call (.updateObject copy) fun
      | .failed e =>
        if e.reason = .conflict ∧ 0 < left then
          .call .getObject fun
            | .failed e' =>
              if e'.reason = .notFound then .done (.ok ())
              else .done (.error ("failed to get fresh HSMSecret: " ++ e'.text))
            | .object fresh =>
              updateAttempts left
                { fresh with value := setFinalizers copy.value.finalizers fresh.value }
            | .done => .done (.ok ())
        else .done (.error e.text)
      | .done | .object _ => .done (.ok ())

def updateWithRetry (copy : Versioned HSMSecret) : Program Request Answer (Except String Unit) :=
  updateAttempts maxRetries copy

/-- The copy that the controller has read, with its own finalizer added or removed. -/
def Change.copy (change : Change) (read : Versioned HSMSecret) : Versioned HSMSecret :=
  { read with value := setFinalizers (change.apply read.value.finalizers) read.value }

/-- What the object looks like where the controller calls for the change. -/
def Change.Called (hsmSecret : HSMSecret) : Change → Prop
  | .add => hsmSecret.deletionTimestamp = none ∧ hsmSecretFinalizer ∉ hsmSecret.finalizers
  | .remove => hsmSecret.deletionTimestamp.isSome ∧ hsmSecretFinalizer ∈ hsmSecret.finalizers

section Others

variable {s : Server} {o : Versioned HSMSecret}

theorem edited_append (s : Server) (es es' : List Edit) :
    s.edited (es ++ es') = (s.edited es).edited es' :=
  List.foldl_append

theorem accepted_edited (s : Server) (es : List Edit) : (s.edited es).accepted = s.accepted := by
  induction es generalizing s with
  | nil => rfl
  | cons edit es ih => exact ih (s.edit edit)

theorem cleared_edited (s : Server) (es : List Edit) : (s.edited es).cleared = s.cleared := by
  induction es generalizing s with
  | nil => rfl
  | cons edit es ih => exact ih (s.edit edit)

theorem eq_of_keep {o' : Versioned HSMSecret} (h : keep o = some o') : o = o' := by
  unfold keep at h
  split at h
  · cases h
  · exact Option.some.inj h

theorem of_stored_edited {es : List Edit} (h : (s.edited es).stored = some o) :
    ∃ o₀, s.stored = some o₀ ∧
      o.value = setFinalizers (applyEdits es o₀.value.finalizers) o₀.value := by
  induction es generalizing s with
  | nil => exact ⟨o, h, rfl⟩
  | cons edit es ih =>
    obtain ⟨o₁, ho₁, hvalue⟩ := ih h
    obtain ⟨o₀, ho₀, hkeep⟩ := Option.bind_eq_some_iff.mp ho₁
    obtain rfl := eq_of_keep hkeep
    rw [Versioned.value_change] at hvalue
    exact ⟨o₀, ho₀, hvalue⟩

/-- The object cannot go before the controller lets it go. -/
def Held (hsmSecret : HSMSecret) : Prop :=
  hsmSecret.deletionTimestamp = none ∨ hsmSecretFinalizer ∈ hsmSecret.finalizers

theorem keep_of_held (h : Held o.value) : keep o = some o := by
  refine if_neg fun ⟨hdeleting, hempty⟩ => ?_
  rcases h with hnone | hmem
  · rw [hnone] at hdeleting
    cases hdeleting
  · rw [hempty] at hmem
    cases hmem

/-- An object that is held stays, and with its resource version it stays as it is. -/
theorem stored_edited (es : List Edit) (hs : s.stored = some o) (h : Held o.value) :
    ∃ o', (s.edited es).stored = some o' ∧
      o'.value = setFinalizers (applyEdits es o.value.finalizers) o.value ∧
      o.resourceVersion ≤ o'.resourceVersion ∧
      (o'.resourceVersion = o.resourceVersion → o' = o) := by
  induction es generalizing s o with
  | nil => exact ⟨o, hs, rfl, Nat.le_refl _, fun _ => rfl⟩
  | cons edit es ih =>
    let o₁ := o.change fun v => setFinalizers (edit.apply v.finalizers) v
    have hvalue₁ : o₁.value = setFinalizers (edit.apply o.value.finalizers) o.value :=
      Versioned.value_change o _
    have hheld₁ : Held o₁.value := by
      rw [hvalue₁]
      exact h.imp id (mem_edit edit).mpr
    have hstored₁ : (s.edit edit).stored = some o₁ := by
      unfold Server.edit
      rw [hs]
      exact keep_of_held hheld₁
    obtain ⟨o', ho', hvalue, hle, hsame⟩ := ih hstored₁ hheld₁
    have hle₁ : o.resourceVersion ≤ o₁.resourceVersion := Versioned.le_resourceVersion_change o _
    refine ⟨o', ho', ?_, Nat.le_trans hle₁ hle, fun hversion => ?_⟩
    · rw [hvalue, hvalue₁]
      rfl
    · -- No version can lie between the two.
      have hversion₁ : o₁.resourceVersion = o.resourceVersion := by omega
      have ho₁ : o₁ = o := Versioned.change_eq_self hversion₁
      rw [hsame (by omega), ho₁]

end Others

/-- Nothing is written, or the finalizers are, over the object as it is. -/
inductive Updated (finalizers : List String) (s : Server) : Except String Unit × Server → Prop where
  | kept (result : Except String Unit) : Updated finalizers s (result, s)
  | written (result : Except String Unit) (o : Versioned HSMSecret) (h : s.stored = some o) :
      Updated finalizers s (result, s.write o (setFinalizers finalizers o.value))

theorem flatMap_edits (cs : List Circumstances) :
    cs.flatMap Circumstances.edits =
      (cs.headD {}).edits ++ cs.tail.flatMap Circumstances.edits := by
  cases cs with
  | nil => rfl
  | cons c cs => exact List.flatMap_cons

theorem serve_updateObject (s : Server) (c : Circumstances) (copy : Versioned HSMSecret) :
    (∃ e, serve s c (.updateObject copy) = (s.edited c.edits, .failed e)) ∨
      ∃ o answer, (s.edited c.edits).stored = some o ∧
        serve s c (.updateObject copy) = ((s.edited c.edits).write o copy.value, answer) ∧
        (answer = .done ∨ ∃ text, answer = .failed ⟨.other, text⟩) := by
  unfold serve
  generalize s.edited c.edits = s₁
  have hupdate : (∃ e, s₁.update copy = (s₁, .failed e)) ∨
      ∃ o, s₁.stored = some o ∧ s₁.update copy = (s₁.write o copy.value, .done) := by
    unfold Server.update
    cases hstored : s₁.stored with
    | none => exact .inl ⟨_, rfl⟩
    | some o =>
      dsimp only
      split
      · exact .inl ⟨_, rfl⟩
      · exact .inr ⟨o, rfl, rfl⟩
  dsimp only
  cases c.fate with
  | served =>
    rcases hupdate with hfails | ⟨o, ho, hdone⟩
    · exact .inl hfails
    · exact .inr ⟨o, .done, ho, hdone, .inl rfl⟩
  | refused e => exact .inl ⟨e, rfl⟩
  | lost text =>
    rcases hupdate with ⟨e, hfails⟩ | ⟨o, ho, hdone⟩
    · rw [hfails]
      exact .inl ⟨_, rfl⟩
    · rw [hdone]
      exact .inr ⟨o, _, ho, rfl, .inr ⟨text, rfl⟩⟩

theorem readObject_cases (s : Server) (fate : Fate) :
    (∃ e, readObject s fate = .failed e) ∨
      ∃ o, s.stored = some o ∧ readObject s fate = .object o := by
  unfold readObject
  cases fate.error with
  | some e => exact .inl ⟨e, rfl⟩
  | none =>
    cases s.stored with
    | none => exact .inl ⟨_, rfl⟩
    | some o => exact .inr ⟨o, rfl, rfl⟩

/-- The copy differs from what is stored in its finalizers only. -/
def CopyOf (s : Server) (copy : Versioned HSMSecret) : Prop :=
  ∀ o, s.stored = some o → copy.value = setFinalizers copy.value.finalizers o.value

variable {o : Versioned HSMSecret} {s : Server}

theorem copyOf_edited {s t : Server} {es : List Edit} (change : Change)
    (ho : s.stored = some o) (ht : t.stored = (s.edited es).stored) : CopyOf t (change.copy o) := by
  intro o' ho'
  rw [ht] at ho'
  obtain ⟨o₀, ho₀, hvalue⟩ := of_stored_edited ho'
  obtain rfl := Option.some.inj (ho.symm.trans ho₀)
  rw [hvalue]
  rfl

theorem copyOf_self (change : Change) (ho : s.stored = some o) : CopyOf s (change.copy o) := by
  have hunedited : s.stored = (s.edited []).stored := rfl
  exact copyOf_edited change ho hunedited

theorem updateAttempts_updated (left : Nat) (copy : Versioned HSMSecret)
    (hcopy : CopyOf s copy) (cs : List Circumstances) :
    ∃ es, es <+: cs.flatMap Circumstances.edits ∧ Updated copy.value.finalizers (s.edited es)
      (exec serve {} (updateAttempts left copy) s cs) := by
  induction left generalizing copy s cs with
  | zero => exact ⟨[], List.nil_prefix, .kept _⟩
  | succ left ih =>
    rw [flatMap_edits cs, updateAttempts, exec_call]
    rcases serve_updateObject s (cs.headD {}) copy with
      ⟨e, hfails⟩ | ⟨o, answer, ho, hdone, hanswer⟩
    · rw [hfails]
      dsimp only
      split
      · rw [flatMap_edits cs.tail, exec_call]
        have hserve : serve (s.edited (cs.headD {}).edits) (cs.tail.headD {}) .getObject =
            (s.edited ((cs.headD {}).edits ++ (cs.tail.headD {}).edits),
              readObject (s.edited ((cs.headD {}).edits ++ (cs.tail.headD {}).edits))
                (cs.tail.headD {}).fate) := by
          rw [edited_append]
          rfl
        rw [hserve, ← List.append_assoc]
        generalize (cs.headD {}).edits ++ (cs.tail.headD {}).edits = es
        rcases readObject_cases (s.edited es) (cs.tail.headD {}).fate with
          ⟨e', he'⟩ | ⟨o, ho, hobject⟩
        · rw [he']
          refine ⟨es, List.prefix_append _ _, ?_⟩
          dsimp only
          split
          · exact .kept _
          · exact .kept _
        · rw [hobject]
          have hfresh : CopyOf (s.edited es)
              { o with value := setFinalizers copy.value.finalizers o.value } := by
            intro o' ho'
            rw [Option.some.inj (ho.symm.trans ho')]
            rfl
          obtain ⟨es', hes', hupdated⟩ :=
            ih { o with value := setFinalizers copy.value.finalizers o.value } hfresh cs.tail.tail
          refine ⟨es ++ es', (List.prefix_append_right_inj es).mpr hes', ?_⟩
          rw [edited_append]
          exact hupdated
      · exact ⟨_, List.prefix_append _ _, .kept _⟩
    · rw [hdone]
      obtain ⟨o₀, ho₀, hvalue⟩ := of_stored_edited ho
      have hwritten : copy.value = setFinalizers copy.value.finalizers o.value := by
        rw [hvalue]
        exact hcopy o₀ ho₀
      refine ⟨_, List.prefix_append _ _, ?_⟩
      rcases hanswer with rfl | ⟨text, rfl⟩
      · rw [hwritten]
        exact .written _ o ho
      · rw [hwritten]
        exact .written _ o ho

theorem updateWithRetry_updated (copy : Versioned HSMSecret) (hcopy : CopyOf s copy)
    (cs : List Circumstances) :
    ∃ es, es <+: cs.flatMap Circumstances.edits ∧ Updated copy.value.finalizers (s.edited es)
      (exec serve {} (updateWithRetry copy) s cs) :=
  updateAttempts_updated maxRetries copy hcopy cs

/-- On success the update has changed the list that was stored right before it in the presence of
the finalizer of the controller only. -/
def Undisturbed (result : Except String Unit × Server) : Prop :=
  result.1 = .ok () → ∀ p ∈ result.2.accepted, others p.1.finalizers = others p.2.finalizers

theorem serve_getObject (ho : s.stored = some o) : serve s {} .getObject = (s, .object o) := by
  change (s, readObject s .served) = _
  dsimp only [readObject, Fate.error]
  rw [ho]

theorem updateAttempts_writes (left : Nat)
    (ho : s.stored = some o) (value : HSMSecret) {cs : List Circumstances}
    (hcs : cs.headD {} = {}) :
    exec serve {} (updateAttempts (left + 1) { o with value }) s cs =
      (.ok (), s.write o value) := by
  have hwritten : serve s {} (.updateObject { o with value }) = (s.write o value, .done) := by
    change s.update { o with value } = _
    unfold Server.update
    rw [ho]
    exact if_neg (not_not.mpr rfl)
  rw [updateAttempts, exec_call, hcs, hwritten]
  rfl

theorem updateWithRetry_overwrites {copy o : Versioned HSMSecret} {es : List Edit}
    (ho : (s.edited es).stored = some o) (hversion : copy.resourceVersion ≠ o.resourceVersion) :
    exec serve {} (updateWithRetry copy) s [⟨es, .served⟩] =
      (.ok (), (s.edited es).write o (setFinalizers copy.value.finalizers o.value)) := by
  have hrejected : serve s ⟨es, .served⟩ (.updateObject copy) =
      (s.edited es, .failed modified) := by
    dsimp only [serve, respond, Server.update]
    rw [ho]
    exact if_pos hversion
  have hretried : modified.reason = .conflict ∧ 0 < 2 := by decide
  rw [updateWithRetry, maxRetries, updateAttempts, exec_call_cons, hrejected]
  dsimp only
  rw [if_pos hretried, exec_call_nil, serve_getObject ho]
  exact updateAttempts_writes 1 ho _ rfl

/-- The finalizers of others survive every interleaving with their updates exactly if these leave
them at all times as the controller has read them. -/
theorem others_undisturbed_iff (change : Change) (read : Versioned HSMSecret)
    (secrets : Std.ExtTreeMap String Secret) (hcalled : change.Called read.value)
    (edits : List Edit) :
    (∀ cs : List Circumstances, cs.flatMap Circumstances.edits <+: edits →
        Undisturbed (exec serve {} (updateWithRetry (change.copy read))
          { stored := some read, secrets } cs)) ↔
      ∀ es ∈ edits.inits,
        others (applyEdits es read.value.finalizers) = others read.value.finalizers := by
  have hheld : Held read.value := by
    cases change with
    | add => exact .inl hcalled.1
    | remove => exact .inr hcalled.2
  constructor
  · intro h es hes
    have hstored : ({ stored := some read, secrets } : Server).stored = some read := rfl
    obtain ⟨o, ho, hvalue, -, hsame⟩ := stored_edited es hstored hheld
    by_contra hne
    -- The others have changed the object, so that the first update is rejected.
    have hversion : (change.copy read).resourceVersion ≠ o.resourceVersion := by
      intro (hversion : read.resourceVersion = o.resourceVersion)
      rw [hsame hversion.symm] at hvalue
      exact hne (congrArg (fun v => others v.finalizers) hvalue).symm
    have hdisturbed := h [⟨es, .served⟩] (by
      rw [List.flatMap_singleton]
      exact (List.mem_inits _ _).mp hes)
    rw [updateWithRetry_overwrites ho hversion] at hdisturbed
    have hothers : others o.value.finalizers = others (change.apply read.value.finalizers) :=
      hdisturbed rfl _ rfl
    rw [hvalue, others_apply] at hothers
    exact hne hothers
  · intro h cs hcs hok p hp
    have hcopy : CopyOf { stored := some read, secrets } (change.copy read) :=
      copyOf_self change rfl
    obtain ⟨es, hes, hupdated⟩ := updateWithRetry_updated (change.copy read) hcopy cs
    have hbefore := h es ((List.mem_inits _ _).mpr (hes.trans hcs))
    generalize exec serve {} (updateWithRetry (change.copy read))
      { stored := some read, secrets } cs = result at hp hupdated
    cases hupdated with
    | kept =>
      rw [accepted_edited] at hp
      cases hp
    | written _ o ho =>
      obtain rfl := Option.some.inj hp
      obtain ⟨o₀, ho₀, hvalue⟩ := of_stored_edited ho
      obtain rfl := Option.some.inj ho₀
      calc others o.value.finalizers
          = others (applyEdits es read.value.finalizers) := by rw [hvalue]; rfl
        _ = others read.value.finalizers := hbefore
        _ = others (change.apply read.value.finalizers) := (others_apply change _).symm

private def backup : ForeignFinalizer := ⟨"backup.example.com/finalizer", by decide⟩

private def fresh : Versioned HSMSecret := ⟨{ uid := "u1" }, 1⟩

/-- A writer who removes a finalizer that is not there does not matter. -/
theorem undisturbed_by_idle_writer :
    Change.Called fresh.value .add ∧
      ∀ cs : List Circumstances, cs.flatMap Circumstances.edits <+: [.remove backup] →
        Undisturbed (exec serve {} (updateWithRetry (Change.add.copy fresh))
          { stored := some fresh } cs) :=
  have hcalled : Change.Called fresh.value .add := ⟨rfl, List.not_mem_nil⟩
  ⟨hcalled, (others_undisturbed_iff .add fresh ∅ hcalled [.remove backup]).mpr (by decide)⟩

/-- Another writer adds a finalizer between the read and the update: it is gone after the second
attempt. -/
theorem retry_drops_finalizer :
    ¬ Undisturbed (exec serve {} (updateWithRetry (Change.add.copy fresh))
      { stored := some fresh } [{ edits := [.add backup] }]) := by
  intro h
  have hothers := h rfl (setFinalizers [backup.name] fresh.value,
    setFinalizers [hsmSecretFinalizer] fresh.value) rfl
  revert hothers
  decide

end HsmSecretsOperator.Controller.Finalizers
