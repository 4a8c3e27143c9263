/- source: internal/mirror/manager.go
   digest: The execution of plans call by call, with every failure that can occur in it. -/

import Mathlib.Data.List.Forall2
import HsmSecretsOperator.Mirror.Sweep

/-! The devices and whatever decides about failures are one world that each call changes. -/

set_option autoImplicit false

namespace HsmSecretsOperator.Mirror.Report

open Foundation.Rfc3339 Hsm.Secret Plan
open Executor (Access MirrorResult Progress SecretMirrorResult resultOf restoreSource
  sourceNeedsMetadata syncMetadata syncStep syncTarget)

/-- The calls of the executor on devices of type `δ`. A call that fails gives the text of its
error. -/
structure Agents (δ ω : Type) where
  /-- The clock when the sync metadata of a path is made. -/
  now : ω → String → Instant
  createGRPCClient : ω → δ → ω × Option String
  isConnected : ω → δ → ω × Bool
  readSecret : ω → δ → String → ω × Except String SecretData
  readMetadata : ω → δ → String → ω × Except String (Option SecretMetadata)
  writeSecret : ω → δ → String → SecretData → SecretMetadata → ω × Option String

variable {δ ω : Type} (a : Agents δ ω)

/-- The first two steps of every access to a device. -/
def connect (w : ω) (device : δ) : ω × Option String :=
  let c := a.createGRPCClient w device
  match c.2 with
  | some text => (c.1, some ("failed to create gRPC client: " ++ text))
  | none =>
    let r := a.isConnected c.1 device
    if r.2 then (r.1, none) else (r.1, some "device not connected")

def readSecretWithMetadata (w : ω) (device : δ) (secretPath : String) :
    ω × Except String (SecretData × Option SecretMetadata) :=
  let c := connect a w device
  match c.2 with
  | some text => (c.1, .error text)
  | none =>
    let r := a.readSecret c.1 device secretPath
    match r.2 with
    | .error text => (r.1, .error ("failed to read secret: " ++ text))
    | .ok data =>
      -- Metadata that cannot be read counts as absent.
      let m := a.readMetadata r.1 device secretPath
      (m.1, .ok (data, m.2.toOption.join))

def writeSecret (w : ω) (device : δ) (secretPath : String) (data : SecretData)
    (metadata : SecretMetadata) : ω × Option String :=
  let c := connect a w device
  match c.2 with
  | some text => (c.1, some text)
  | none =>
    let r := a.writeSecret c.1 device secretPath data metadata
    (r.1, r.2.map fun text => "failed to write secret with metadata: " ++ text)

def writeMetadataOnly (w : ω) (device : δ) (secretPath : String) (metadata : SecretMetadata) :
    ω × Option String :=
  let c := connect a w device
  match c.2 with
  | some text => (c.1, some text)
  | none =>
    let r := a.readSecret c.1 device secretPath
    match r.2 with
    | .error text => (r.1, some ("failed to read existing secret data: " ++ text))
    | .ok existingData =>
      let r := a.writeSecret r.1 device secretPath existingData metadata
      (r.1, r.2.map fun text => "failed to write secret with metadata: " ++ text)

variable (deviceLookup : String → Option δ)

/-- The devices as the executor meets them through the agents' clients. -/
@[simps]
def access : Access δ ω where
  deviceLookup
  now := a.now
  readSecretWithMetadata := readSecretWithMetadata a
  writeSource := writeSecret a
  writeSecret := writeSecret a
  writeMetadataOnly := writeMetadataOnly a

abbrev executeMirrorPlan (plan : SecretMirrorPlan) (w : ω) : ω × SecretMirrorResult :=
  Executor.executeMirrorPlan (access a deviceLookup) plan w

abbrev executeMirrorPlans (plans : List SecretMirrorPlan) (w : ω) : ω × MirrorResult :=
  Executor.executeMirrorPlans (access a deviceLookup) plans w

/-- The device gives a client, and the client reports a connection. -/
def Reaches (w : ω) (device : δ) (w' : ω) : Prop :=
  ∃ v, a.createGRPCClient w device = (v, none) ∧ a.isConnected v device = (w', true)

/-- The agent answers with the secret. Its metadata is what it answers, if it does. -/
def Reads (w : ω) (device : δ) (path : String) (data : SecretData)
    (metadata : Option SecretMetadata) (w' : ω) : Prop :=
  ∃ u v, Reaches a w device u ∧ a.readSecret u device path = (v, .ok data) ∧
    (a.readMetadata v device path).1 = w' ∧
    (a.readMetadata v device path).2.toOption.join = metadata

/-- The agent accepts the write. -/
def Accepts (w : ω) (device : δ) (path : String) (data : SecretData) (metadata : SecretMetadata)
    (w' : ω) : Prop :=
  ∃ u, Reaches a w device u ∧ a.writeSecret u device path data metadata = (w', none)

/-- The agent answers with its data and accepts it back with the metadata. -/
def Relabels (w : ω) (device : δ) (path : String) (metadata : SecretMetadata) (w' : ω) : Prop :=
  ∃ u v data, Reaches a w device u ∧ a.readSecret u device path = (v, .ok data) ∧
    a.writeSecret v device path data metadata = (w', none)

/-- The target is known and takes what the plan brings. -/
def Synced (plan : SecretMirrorPlan) (data : SecretData) (metadata : SecretMetadata) (w : ω)
    (target : String) (w' : ω) : Prop :=
  ∃ device, deviceLookup target = some device ∧
    match plan.mirrorType with
    | .create | .update => Accepts a w device plan.secretPath data metadata w'
    | .restoreMetadata => Relabels a w device plan.secretPath metadata w'
    | .skip => w' = w

inductive AllSynced (plan : SecretMirrorPlan) (data : SecretData) (metadata : SecretMetadata) :
    ω → List String → Prop
  | nil (w : ω) : AllSynced plan data metadata w []
  | cons {w w' : ω} {target : String} {targets : List String}
      (h : Synced a deviceLookup plan data metadata w target w')
      (hrest : AllSynced plan data metadata w' targets) :
      AllSynced plan data metadata w (target :: targets)

/-- What has to be done for the plan is done, by the answers of the agents: the source is read, it
takes the metadata if it needs them restored, and every target takes its part. -/
structure CarriedOut (plan : SecretMirrorPlan) (w : ω) (source : δ) (data : SecretData)
    (sourceMetadata : Option SecretMetadata) (v v' : ω) : Prop where
  lookup : deviceLookup plan.sourceDevice = some source
  read : Reads a w source plan.secretPath data sourceMetadata v
  restored :
    if plan.mirrorType = .restoreMetadata ∧ sourceNeedsMetadata sourceMetadata = true then
      Accepts a v source plan.secretPath data
        (syncMetadata (a.now v plan.secretPath) plan sourceMetadata) v'
    else v' = v
  targets : AllSynced a deviceLookup plan data
    (syncMetadata (a.now v plan.secretPath) plan sourceMetadata) v' plan.targetDevices

def GoesThrough (plan : SecretMirrorPlan) (w : ω) : Prop :=
  plan.mirrorType = .skip ∨
    ∃ source data sourceMetadata v v',
      CarriedOut a deviceLookup plan w source data sourceMetadata v v'

open scoped Classical in
/-- The plans in the order of their execution, each with whether it went through in the world that
the plans before it left. -/
noncomputable def outcomes : List SecretMirrorPlan → ω → List (SecretMirrorPlan × Bool)
  | [], _ => []
  | plan :: plans, w => (plan, decide (GoesThrough a deviceLookup plan w)) ::
      outcomes plans (executeMirrorPlan a deviceLookup plan w).1

section Answers

variable {w w' : ω} {device : δ} {path : String} {data : SecretData}

private theorem reaches_iff : Reaches a w device w' ↔ connect a w device = (w', none) := by
  unfold Reaches connect
  rcases hcreate : a.createGRPCClient w device with ⟨v, _ | text⟩
  · rcases hconnected : a.isConnected v device with ⟨u, _ | _⟩ <;> simp [hconnected]
  · simp

private theorem reads_iff {metadata : Option SecretMetadata} :
    Reads a w device path data metadata w' ↔
      readSecretWithMetadata a w device path = (w', .ok (data, metadata)) := by
  unfold Reads readSecretWithMetadata
  simp only [reaches_iff]
  rcases connect a w device with ⟨u, _ | text⟩
  · rcases hread : a.readSecret u device path with ⟨v, text | existing⟩
    · simp [hread]
    · simp [hread, and_left_comm]
  · simp

private theorem accepts_iff {metadata : SecretMetadata} :
    Accepts a w device path data metadata w' ↔
      writeSecret a w device path data metadata = (w', none) := by
  unfold Accepts writeSecret
  simp only [reaches_iff]
  rcases connect a w device with ⟨u, _ | text⟩
  · rcases hwrite : a.writeSecret u device path data metadata with ⟨v, _ | text⟩ <;> simp [hwrite]
  · simp

private theorem relabels_iff {metadata : SecretMetadata} :
    Relabels a w device path metadata w' ↔
      writeMetadataOnly a w device path metadata = (w', none) := by
  unfold Relabels writeMetadataOnly
  simp only [reaches_iff]
  rcases connect a w device with ⟨u, _ | text⟩
  · rcases hread : a.readSecret u device path with ⟨v, text | existing⟩
    · simp [hread]
    · rcases hwrite : a.writeSecret v device path existing metadata with ⟨x, _ | text⟩ <;>
        simp [hread, hwrite]
  · simp

end Answers

section Plan

variable (plan : SecretMirrorPlan) (sourceData : SecretData) (metadata : SecretMetadata)

private theorem synced_iff {w w' : ω} {d : String} :
    Synced a deviceLookup plan sourceData metadata w d w' ↔
      syncTarget (access a deviceLookup) plan sourceData metadata w d = (w', none) := by
  unfold Synced syncTarget
  dsimp only [access]
  cases deviceLookup d with
  | none => simp
  | some device =>
    cases plan.mirrorType with
    | skip => simp [eq_comm]
    | create => simp [accepts_iff]
    | update => simp [accepts_iff]
    | restoreMetadata => simp [relabels_iff]

private theorem allSynced_cons {w : ω} {d : String} {targets : List String} :
    AllSynced a deviceLookup plan sourceData metadata w (d :: targets) ↔
      (syncTarget (access a deviceLookup) plan sourceData metadata w d).2 = none ∧
        AllSynced a deviceLookup plan sourceData metadata
          (syncTarget (access a deviceLookup) plan sourceData metadata w d).1 targets := by
  constructor
  · rintro (_ | ⟨h, hrest⟩)
    rw [(synced_iff a deviceLookup plan sourceData metadata).mp h]
    exact ⟨rfl, hrest⟩
  · rintro ⟨hnone, hrest⟩
    exact .cons ((synced_iff a deviceLookup plan sourceData metadata).mpr (Prod.ext rfl hnone))
      hrest

private theorem error_syncStep (p : Progress ω) (d : String)
    (hp : p.failedTargets = 0 ↔ p.error = none) :
    (syncStep (access a deviceLookup) plan sourceData metadata p d).failedTargets = 0 ↔
      (syncStep (access a deviceLookup) plan sourceData metadata p d).error = none := by
  unfold syncStep
  dsimp only
  split
  · exact hp
  · simp

private theorem foldl_syncStep_spec (targets : List String) (p : Progress ω)
    (hp : p.failedTargets = 0 ↔ p.error = none) :
    let q := targets.foldl (syncStep (access a deviceLookup) plan sourceData metadata) p
    (q.failedTargets = 0 ↔ p.failedTargets = 0 ∧
      AllSynced a deviceLookup plan sourceData metadata p.state targets) ∧
    (q.failedTargets = 0 ↔ q.error = none) := by
  induction targets generalizing p with
  | nil => exact ⟨(and_iff_left (.nil _)).symm, hp⟩
  | cons d targets ih =>
    obtain ⟨hcount, hkept⟩ := ih (syncStep (access a deviceLookup) plan sourceData metadata p d)
      (error_syncStep a deviceLookup plan sourceData metadata p d hp)
    rw [List.foldl_cons]
    refine ⟨?_, hkept⟩
    rw [hcount, Executor.failedTargets_syncStep, Executor.state_syncStep, allSynced_cons, and_assoc]

private theorem restored_iff {source : δ} {sourceMetadata : Option SecretMetadata} {v v' : ω} :
    (if plan.mirrorType = .restoreMetadata ∧ sourceNeedsMetadata sourceMetadata = true then
      Accepts a v source plan.secretPath sourceData metadata v' else v' = v) ↔
    restoreSource (access a deviceLookup) plan source sourceData sourceMetadata metadata v =
      (v', none) := by
  unfold restoreSource
  split
  · exact accepts_iff a
  · simp [eq_comm]

variable {plan}

private theorem not_goesThrough {w : ω} (htype : plan.mirrorType ≠ .skip)
    (h : ∀ source data m v v', ¬ CarriedOut a deviceLookup plan w source data m v v') :
    ¬ GoesThrough a deviceLookup plan w := by
  rintro (hskip | ⟨source, data, m, v, v', hcarried⟩)
  · exact htype hskip
  · exact h _ _ _ _ _ hcarried

private theorem goesThrough_iff {w v : ω} {source : δ} {data : SecretData}
    {m : Option SecretMetadata} (htype : plan.mirrorType ≠ .skip)
    (hlookup : deviceLookup plan.sourceDevice = some source)
    (hread : readSecretWithMetadata a w source plan.secretPath = (v, .ok (data, m))) :
    GoesThrough a deviceLookup plan w ↔
      ∃ v', restoreSource (access a deviceLookup) plan source data m
          (syncMetadata (a.now v plan.secretPath) plan m) v = (v', none) ∧
        AllSynced a deviceLookup plan data (syncMetadata (a.now v plan.secretPath) plan m) v'
          plan.targetDevices := by
  constructor
  · rintro (hskip | ⟨source', data', m', u, v', h⟩)
    · exact absurd hskip htype
    · obtain rfl := Option.some.inj (hlookup.symm.trans h.lookup)
      have hsame := hread.symm.trans ((reads_iff a).mp h.read)
      simp only [Prod.mk.injEq, Except.ok.injEq] at hsame
      obtain ⟨rfl, rfl, rfl⟩ := hsame
      exact ⟨v', (restored_iff a deviceLookup plan _ _).mp h.restored, h.targets⟩
  · rintro ⟨v', hrestored, htargets⟩
    exact .inr ⟨source, data, m, v, v', hlookup, (reads_iff a).mpr hread,
      (restored_iff a deviceLookup plan _ _).mpr hrestored, htargets⟩

variable (plan)

theorem executeMirrorPlan_spec (w : ω) :
    ((executeMirrorPlan a deviceLookup plan w).2.success = true ↔
        GoesThrough a deviceLookup plan w) ∧
      ((executeMirrorPlan a deviceLookup plan w).2.error = none ↔
        GoesThrough a deviceLookup plan w) := by
  unfold executeMirrorPlan Executor.executeMirrorPlan
  by_cases htype : plan.mirrorType = .skip
  · simp [htype, resultOf, GoesThrough]
  · rw [if_neg htype]
    simp only [access_deviceLookup, access_readSecretWithMetadata, access_now]
    cases hlookup : deviceLookup plan.sourceDevice with
    | none =>
      have hnot : ¬ GoesThrough a deviceLookup plan w := by
        refine not_goesThrough a deviceLookup htype fun _ _ _ _ _ h => ?_
        cases hlookup.symm.trans h.lookup
      simp [resultOf, hnot]
    | some source =>
      dsimp only
      rcases hread : readSecretWithMetadata a w source plan.secretPath with ⟨v, text | ⟨data, m⟩⟩
      · have hnot : ¬ GoesThrough a deviceLookup plan w := by
          refine not_goesThrough a deviceLookup htype fun _ _ _ _ _ h => ?_
          obtain rfl := Option.some.inj (hlookup.symm.trans h.lookup)
          rw [(reads_iff a).mp h.read] at hread
          cases hread
        simp [resultOf, hnot]
      · rw [goesThrough_iff a deviceLookup htype hlookup hread]
        dsimp only
        generalize syncMetadata _ plan m = stamp
        rcases restoreSource (access a deviceLookup) plan source data m stamp v with ⟨v', _ | text⟩
        · obtain ⟨hcount, hkept⟩ := foldl_syncStep_spec a deviceLookup plan data stamp
            plan.targetDevices { state := v' } (by simp)
          have hall := hcount.trans (and_iff_right rfl)
          simp only [resultOf, decide_eq_true_iff, Prod.mk.injEq, and_true, exists_eq_left']
          exact ⟨hall, hkept.symm.trans hall⟩
        · simp [resultOf]

end Plan

private theorem add_fields (r : MirrorResult) (s : SecretMirrorResult) :
    (r.add s).success = (r.success && s.success) ∧
      (r.add s).secretsProcessed = r.secretsProcessed ∧
      (r.add s).errors = r.errors ++ (if s.success then []
        else (s.error.map fun text => s.secretPath ++ ": " ++ text).toList) ∧
      (r.add s).secretsCreated = r.secretsCreated +
        (if s.success && s.mirrorType = .create then 1 else 0) ∧
      (r.add s).secretsUpdated = r.secretsUpdated +
        (if s.success && s.mirrorType = .update then 1 else 0) ∧
      (r.add s).metadataRestored = r.metadataRestored +
        (if s.success && s.mirrorType = .restoreMetadata then 1 else 0) := by
  unfold MirrorResult.add
  cases hsuccess : s.success with
  | false => simp
  | true => cases htype : s.mirrorType <;> simp

/-- What a list of outcomes adds to a result. -/
structure Reports (before after : MirrorResult) (os : List (SecretMirrorPlan × Bool)) : Prop where
  success : after.success = true ↔ before.success = true ∧ ∀ o ∈ os, o.2 = true
  processed : after.secretsProcessed = before.secretsProcessed
  errors : ∃ entries, after.errors = before.errors ++ entries ∧
    List.Forall₂ (fun o entry => ∃ text, entry = o.1.secretPath ++ ": " ++ text)
      (os.filter fun o => !o.2) entries
  created : after.secretsCreated = before.secretsCreated +
    os.countP fun o => o.2 && o.1.mirrorType = .create
  updated : after.secretsUpdated = before.secretsUpdated +
    os.countP fun o => o.2 && o.1.mirrorType = .update
  restored : after.metadataRestored = before.metadataRestored +
    os.countP fun o => o.2 && o.1.mirrorType = .restoreMetadata

open scoped Classical in
private theorem reports_one (r : MirrorResult) (plan : SecretMirrorPlan) (w : ω) :
    Reports r (r.add (executeMirrorPlan a deviceLookup plan w).2)
      [(plan, decide (GoesThrough a deviceLookup plan w))] := by
  obtain ⟨hpath, _, htype⟩ := Executor.executeMirrorPlan_labels (access a deviceLookup) plan w
  obtain ⟨hthrough, herror⟩ := executeMirrorPlan_spec a deviceLookup plan w
  have hsuccess : (executeMirrorPlan a deviceLookup plan w).2.success =
      decide (GoesThrough a deviceLookup plan w) := by
    rw [Bool.eq_iff_iff, decide_eq_true_iff]
    exact hthrough
  obtain ⟨haddSuccess, haddProcessed, haddErrors, haddCreated, haddUpdated, haddRestored⟩ :=
    add_fields r (executeMirrorPlan a deviceLookup plan w).2
  rw [hsuccess] at haddSuccess haddErrors
  rw [hsuccess, htype] at haddCreated haddUpdated haddRestored
  refine ⟨by simp [haddSuccess], haddProcessed, ⟨_, haddErrors, ?_⟩, ?_, ?_, ?_⟩
  · by_cases hgoes : GoesThrough a deviceLookup plan w
    · simp [hgoes]
    · -- A plan that does not go through keeps an error.
      obtain ⟨text, htext⟩ := Option.ne_none_iff_exists'.mp (mt herror.mp hgoes)
      simp [hgoes, htext, hpath]
  · rw [haddCreated, List.countP_singleton]
  · rw [haddUpdated, List.countP_singleton]
  · rw [haddRestored, List.countP_singleton]

theorem Reports.trans {r r' r'' : MirrorResult} {os os' : List (SecretMirrorPlan × Bool)}
    (h : Reports r r' os) (h' : Reports r' r'' os') : Reports r r'' (os ++ os') := by
  obtain ⟨entries, herrors, hforall⟩ := h.errors
  obtain ⟨entries', herrors', hforall'⟩ := h'.errors
  refine ⟨?_, h'.processed.trans h.processed, ⟨entries ++ entries', ?_, ?_⟩, ?_, ?_, ?_⟩
  · rw [h'.success, h.success, List.forall_mem_append, and_assoc]
  · rw [herrors', herrors, List.append_assoc]
  · rw [List.filter_append]
    exact List.rel_append hforall hforall'
  · rw [h'.created, h.created, List.countP_append, Nat.add_assoc]
  · rw [h'.updated, h.updated, List.countP_append, Nat.add_assoc]
  · rw [h'.restored, h.restored, List.countP_append, Nat.add_assoc]

private theorem foldl_reports (plans : List SecretMirrorPlan) (w : ω) (r : MirrorResult) :
    Reports r (plans.foldl (fun acc plan =>
      let s := executeMirrorPlan a deviceLookup plan acc.1
      (s.1, acc.2.add s.2)) (w, r)).2 (outcomes a deviceLookup plans w) := by
  induction plans generalizing w r with
  | nil => exact ⟨by simp [outcomes], rfl, ⟨[], by simp, by simp [outcomes]⟩, rfl, rfl, rfl⟩
  | cons plan plans ih =>
    rw [List.foldl_cons]
    exact (reports_one a deviceLookup r plan w).trans (ih _ _)

/-- The result accounts for every plan: it is a success exactly if all go through, each plan that
does not has one error under its path, in the order of execution, and the counters are the numbers
of those that do. -/
theorem executeMirrorPlans_reports (plans : List SecretMirrorPlan) (w : ω) :
    let r := (executeMirrorPlans a deviceLookup plans w).2
    let os := outcomes a deviceLookup plans w
    (r.success = true ↔ ∀ o ∈ os, o.2 = true) ∧
      List.Forall₂ (fun o entry => ∃ text, entry = o.1.secretPath ++ ": " ++ text)
        (os.filter fun o => !o.2) r.errors ∧
      r.secretsProcessed = plans.length ∧
      (r.secretsCreated = os.countP fun o => o.2 && o.1.mirrorType = .create) ∧
      (r.secretsUpdated = os.countP fun o => o.2 && o.1.mirrorType = .update) ∧
      (r.metadataRestored = os.countP fun o => o.2 && o.1.mirrorType = .restoreMetadata) := by
  intro r os
  have h := foldl_reports a deviceLookup plans w { secretsProcessed := plans.length }
  obtain ⟨entries, herrors, hforall⟩ := h.errors
  rw [List.nil_append] at herrors
  refine ⟨h.success.trans (and_iff_right rfl), ?_, h.processed, ?_, ?_, ?_⟩
  · exact herrors ▸ hforall
  · exact h.created.trans (Nat.zero_add _)
  · exact h.updated.trans (Nat.zero_add _)
  · exact h.restored.trans (Nat.zero_add _)

section Sweep

variable {σ : Type} (c : Client σ) (env : Sweep.SweepEnv)

/-- Devices of which no call fails. -/
def agentsOf : Agents String (Sweep.MirrorState σ) where
  now _ path := env.stampAt path
  createGRPCClient st _ := (st, none)
  isConnected st _ := (st, true)
  readSecret st d path := (st, c.readSecret (st.cluster d) path)
  readMetadata st d path := (st, (c.readMetadata (st.cluster d) path).map some)
  writeSecret st d path data metadata := (Sweep.writeDevice c st d path data metadata, none)

structure NoFaults : Prop where
  source : ∀ path, env.sourceFault path = none
  sourceMetadata : ∀ path, env.sourceMetadataFault path = false
  restore : ∀ path, env.restoreFault path = none
  target : ∀ path d, env.targetFault path d = none

variable {env}

/-- Where no call fails, a sweep meets the devices as the agents' clients show them. -/
theorem access_agentsOf (h : NoFaults env) :
    access (agentsOf c env) (Sweep.access c env).deviceLookup = Sweep.access c env := by
  have hread (st : Sweep.MirrorState σ) (d path : String) :
      readSecretWithMetadata (agentsOf c env) st d path =
        (st, Sweep.readSecretWithMetadata c env st d path) := by
    simp only [readSecretWithMetadata, Sweep.readSecretWithMetadata, connect, agentsOf, if_true,
      h.source, h.sourceMetadata]
    cases c.readSecret (st.cluster d) path with
    | error text => rfl
    | ok data =>
      cases c.readMetadata (st.cluster d) path with
      | error text => rfl
      | ok m => rfl
  have hrelabel (st : Sweep.MirrorState σ) (d path : String) (metadata : SecretMetadata) :
      writeMetadataOnly (agentsOf c env) st d path metadata =
        (Sweep.access c env).writeMetadataOnly st d path metadata := by
    simp only [writeMetadataOnly, connect, agentsOf, if_true, Sweep.access, h.target]
    cases c.readSecret (st.cluster d) path with
    | error text => rfl
    | ok existing => rfl
  simp only [access, funext₃ hread, funext fun st => funext₃ (hrelabel st)]
  simp only [Sweep.access, h.restore, h.target]
  rfl

end Sweep

end HsmSecretsOperator.Mirror.Report
