/- source: internal/mirror/manager.go
   digest: A mirror sweep: discovery, inventory, plans and their execution device by device. -/

import Mathlib.Data.List.Dedup
import Mathlib.Logic.Function.Basic
import HsmSecretsOperator.Foundation.Maps
import HsmSecretsOperator.Mirror.Executor

/-! What the sweep does not decide is in its environment: failures, the clock, the orders of maps.
    Every write that reaches a device is logged with the state it met there. -/

set_option autoImplicit false

namespace HsmSecretsOperator.Mirror.Sweep

open Foundation.Decimal Foundation.Maps Foundation.Rfc3339 Hsm.Secret Plan
open Executor (Access MirrorResult Progress newVersion restoreSource syncMetadata syncStep
  syncTarget)

/-- The order in which a map yields its entries. -/
structure Iteration (α : Type) where
  order : List α → List α
  perm : ∀ l, (order l).Perm l

def Iteration.id {α : Type} : Iteration α := ⟨fun l => l, fun _ => .refl _⟩

/-- How the inventory gets hold of a device. -/
inductive Connection where
  | connected
  | clientError (text : String)
  | disconnected
  deriving DecidableEq

/-- What a sweep meets. A fault is the text of the error; a faulty call changes nothing. -/
structure SweepEnv where
  /-- The serials of the available devices. -/
  devices : List String
  /-- Discovery on the device fails in all its attempts. -/
  listFault : String → Option String := fun _ => none
  connection : String → Connection := fun _ => .connected
  /-- The inventory's read of a path on a device fails. -/
  readFault : String → String → Option String := fun _ _ => none
  metadataFault : String → String → Option String := fun _ _ => none
  /-- The clock when the state of a device is taken, in unix seconds. -/
  readAt : String → String → Int := fun _ _ => 0
  pathOrder : Iteration String := .id
  deviceOrder : String → Iteration Entry := fun _ => .id
  /-- The source of a path cannot be read when its plan is executed. -/
  sourceFault : String → Option String := fun _ => none
  sourceMetadataFault : String → Bool := fun _ => false
  /-- The clock when the sync metadata of a path is made. -/
  stampAt : String → Instant
  /-- Restoring the metadata of the source fails. -/
  restoreFault : String → Option String := fun _ => none
  /-- Syncing a path to a target fails. -/
  targetFault : String → String → Option String := fun _ _ => none

/-- A write that reached a device, with the state it met. -/
structure DeviceWrite (σ : Type) where
  device : String
  path : String
  data : SecretData
  metadata : SecretMetadata
  before : σ

/-- The devices and the writes made to them so far. -/
structure MirrorState (σ : Type) where
  cluster : String → σ
  log : List (DeviceWrite σ) := []

variable {σ : Type} (c : Client σ)

def discoverAllSecrets (env : SweepEnv) (cl : String → σ) : List String :=
  ((env.devices.flatMap fun d =>
    match env.listFault d with
    | some _ => []
    | none => c.listSecrets (cl d) "").dedup).insertionSort (· ≤ ·)

def deviceState (env : SweepEnv) (cl : String → σ) (path d : String) : SecretState :=
  match env.connection d with
  | .clientError text =>
    { timestamp := env.readAt path d, error := some ("gRPC client creation failed: " ++ text) }
  | .disconnected => { timestamp := env.readAt path d, error := some "device not connected" }
  | .connected =>
    let data := if (env.readFault path d).isSome then none else (c.readSecret (cl d) path).toOption
    let metadata :=
      if (env.metadataFault path d).isSome then none else (c.readMetadata (cl d) path).toOption
    stateOf (env.readAt path d) data metadata

/-- The inventory of a path in the order in which its map yields the devices. The reads of
`buildSecretInventory` change nothing, so its loops over devices and paths can be exchanged. -/
def inventory (env : SweepEnv) (cl : String → σ) (path : String) : List Entry :=
  let states : Std.ExtTreeMap String SecretState :=
    assign ∅ id (deviceState c env cl path) env.devices
  (env.deviceOrder path).order states.toList

def createMirrorPlans (env : SweepEnv) (cl : String → σ) (paths : List String) :
    List SecretMirrorPlan :=
  (env.pathOrder.order paths).filterMap fun path =>
    createMirrorPlanForSecret path (inventory c env cl path)

def writeDevice (st : MirrorState σ) (d path : String) (data : SecretData)
    (metadata : SecretMetadata) : MirrorState σ :=
  { cluster := Function.update st.cluster d
      (c.writeSecret (st.cluster d) path data (some metadata))
    log := st.log ++ [⟨d, path, data, metadata, st.cluster d⟩] }

def readSecretWithMetadata (env : SweepEnv) (st : MirrorState σ) (d path : String) :
    Except String (SecretData × Option SecretMetadata) :=
  match env.sourceFault path with
  | some text => .error text
  | none =>
    match c.readSecret (st.cluster d) path with
    | .error text => .error ("failed to read secret: " ++ text)
    | .ok data =>
      .ok (data, if env.sourceMetadataFault path then none
        else (c.readMetadata (st.cluster d) path).toOption)

/-- The devices as the executor meets them in a sweep. -/
def access (env : SweepEnv) : Access String (MirrorState σ) where
  deviceLookup d := if d ∈ env.devices then some d else none
  now _ path := env.stampAt path
  readSecretWithMetadata st d path := (st, readSecretWithMetadata c env st d path)
  writeSource st d path data metadata :=
    match env.restoreFault path with
    | some text => (st, some text)
    | none => (writeDevice c st d path data metadata, none)
  writeSecret st d path data metadata :=
    match env.targetFault path d with
    | some text => (st, some text)
    | none => (writeDevice c st d path data metadata, none)
  writeMetadataOnly st d path metadata :=
    match env.targetFault path d with
    | some text => (st, some text)
    | none =>
      match c.readSecret (st.cluster d) path with
      | .error text => (st, some ("failed to read existing secret data: " ++ text))
      | .ok existingData => (writeDevice c st d path existingData metadata, none)

def executeMirrorPlan (env : SweepEnv) (plan : SecretMirrorPlan) (st : MirrorState σ) :
    MirrorState σ × Executor.SecretMirrorResult :=
  Executor.executeMirrorPlan (access c env) plan st

def executeMirrorPlans (env : SweepEnv) (plans : List SecretMirrorPlan) (st : MirrorState σ) :
    MirrorState σ × MirrorResult :=
  Executor.executeMirrorPlans (access c env) plans st

/-- `MirrorAllSecrets` when the list of available devices could be fetched. -/
def mirrorAllSecrets (env : SweepEnv) (cl : String → σ) : MirrorState σ × MirrorResult :=
  if env.devices.length ≤ 1 then ({ cluster := cl }, {})
  else
    let paths := discoverAllSecrets c env cl
    if paths = [] then ({ cluster := cl }, {})
    else executeMirrorPlans c env (createMirrorPlans c env cl paths) { cluster := cl }

theorem labels_syncMetadata (now : Instant) (plan : SecretMirrorPlan)
    (sourceMetadata : Option SecretMetadata) :
    (syncMetadata now plan sourceMetadata).labels["sync.version"]? =
        some (sprintfD (newVersion sourceMetadata)) ∧
      (syncMetadata now plan sourceMetadata).labels["sync.timestamp"]? =
        some (formatRFC3339 now) := by
  constructor
  · rw [syncMetadata, getElem?_insert_of_ne _ (by decide), getElem?_insert_of_ne _ (by decide),
      Std.ExtTreeMap.getElem?_insert_self]
  · rw [syncMetadata, getElem?_insert_of_ne _ (by decide), Std.ExtTreeMap.getElem?_insert_self]

section Induct

variable {c} {env : SweepEnv} {I : MirrorState σ → Prop}

variable {plan : SecretMirrorPlan} {cl : String → σ} {st : MirrorState σ}

theorem readSecret_of_readSecretWithMetadata {d path : String}
    {data : SecretData} {m : Option SecretMetadata}
    (h : readSecretWithMetadata c env st d path = .ok (data, m)) :
    c.readSecret (st.cluster d) path = .ok data := by
  unfold readSecretWithMetadata at h
  split at h
  · cases h
  split at h
  · cases h
  next hread =>
    obtain ⟨rfl, _⟩ := Prod.mk.inj (Except.ok.inj h)
    exact hread

section Plan

variable {D : SecretData → Prop}
  (hread : ∀ st d data, I st → c.readSecret (st.cluster d) plan.secretPath = .ok data → D data)
  (hwrite : ∀ st d data m, I st → D data → I (writeDevice c st d plan.secretPath data m))

include hwrite

private theorem restoreSource_induct {data : SecretData} (hdata : D data)
    (sourceMetadata : Option SecretMetadata) (m : SecretMetadata) {st : MirrorState σ} (h : I st)
    (d : String) : I (restoreSource (access c env) plan d data sourceMetadata m st).1 := by
  unfold restoreSource
  split
  · dsimp only [access]
    split
    · exact h
    · exact hwrite st d data m h hdata
  · exact h

include hread

private theorem syncTarget_induct {data : SecretData} (hdata : D data) (m : SecretMetadata)
    {st : MirrorState σ} (h : I st) (d : String) :
    I (syncTarget (access c env) plan data m st d).1 := by
  unfold syncTarget
  split
  · exact h
  next target _ =>
  have hplain : I ((access c env).writeSecret st target plan.secretPath data m).1 := by
    dsimp only [access]
    split
    · exact h
    · exact hwrite st target data m h hdata
  split
  · exact hplain
  · exact hplain
  · dsimp only [access]
    split
    · exact h
    split
    · exact h
    next existing hread' => exact hwrite st target existing m h (hread st target existing h hread')
  · exact h

private theorem foldl_syncStep_induct {data : SecretData} (hdata : D data) (m : SecretMetadata)
    (targets : List String) {p : Progress (MirrorState σ)} (h : I p.state) :
    I (targets.foldl (syncStep (access c env) plan data m) p).state := by
  induction targets generalizing p with
  | nil => exact h
  | cons d targets ih =>
    refine ih ?_
    rw [Executor.state_syncStep]
    exact syncTarget_induct hread hwrite hdata m h d

end Plan

/-- The data a plan writes is read from a device at the plan's path. What every write of such data
preserves, the execution of the plan preserves. -/
theorem executeMirrorPlan_induct_read {D : SecretData → Prop}
    (hread : plan.mirrorType ≠ .skip → ∀ st d data, I st →
      c.readSecret (st.cluster d) plan.secretPath = .ok data → D data)
    (hwrite : plan.mirrorType ≠ .skip → ∀ st d data m, I st → D data →
      I (writeDevice c st d plan.secretPath data m)) (h : I st) :
    I (executeMirrorPlan c env plan st).1 := by
  unfold executeMirrorPlan Executor.executeMirrorPlan
  split
  · exact h
  next htype =>
  replace hread := hread htype
  replace hwrite := hwrite htype
  split
  · exact h
  next source _ =>
  dsimp only
  split
  · exact h
  next sourceData sourceMetadata hsource =>
  have hdata : D sourceData :=
    hread st _ sourceData h (readSecret_of_readSecretWithMetadata hsource)
  have hrestored : I (restoreSource (access c env) plan source sourceData sourceMetadata
      (syncMetadata (env.stampAt plan.secretPath) plan sourceMetadata) st).1 :=
    restoreSource_induct hwrite hdata sourceMetadata _ h source
  split
  · exact hrestored
  · exact foldl_syncStep_induct hread hwrite hdata _ _ hrestored

theorem executeMirrorPlan_induct (hwrite : plan.mirrorType ≠ .skip → ∀ st d data m, I st →
      I (writeDevice c st d plan.secretPath data m)) (h : I st) :
    I (executeMirrorPlan c env plan st).1 := by
  refine executeMirrorPlan_induct_read (D := fun _ => True) ?_ ?_ h
  · intro _ _ _ _ _ _
    trivial
  · intro htype st d data m hst _
    exact hwrite htype st d data m hst

theorem executeMirrorPlans_induct {plans : List SecretMirrorPlan}
    (hplan : ∀ plan ∈ plans, ∀ st, I st → I (executeMirrorPlan c env plan st).1) (h : I st) : I
    (executeMirrorPlans c env plans st).1 := by
  have hfold (plans : List SecretMirrorPlan) (acc : MirrorState σ × MirrorResult)
      (hacc : I acc.1)
      (hplan : ∀ plan ∈ plans, ∀ st, I st → I (executeMirrorPlan c env plan st).1) :
      I (plans.foldl (fun acc plan =>
        ((executeMirrorPlan c env plan acc.1).1,
          acc.2.add (executeMirrorPlan c env plan acc.1).2)) acc).1 := by
    induction plans generalizing acc with
    | nil => exact hacc
    | cons plan plans ih =>
      refine ih _ ?_ fun q hq => hplan q (List.mem_cons_of_mem plan hq)
      exact hplan plan List.mem_cons_self _ hacc
  exact hfold plans _ h hplan

theorem secretPath_of_createMirrorPlan {path : String} {entries : List Entry}
    (h : createMirrorPlanForSecret path entries = some plan) :
    plan.secretPath = path := by
  unfold createMirrorPlanForSecret at h
  split at h
  · cases h
  dsimp only at h
  split at h
  · obtain rfl := Option.some.inj h
    rfl
  split at h
  · obtain rfl := Option.some.inj h
    rfl
  · obtain rfl := Option.some.inj h
    rfl

theorem mem_createMirrorPlans {paths : List String} : plan ∈ createMirrorPlans c env cl paths ↔
      ∃ path ∈ paths, createMirrorPlanForSecret path (inventory c env cl path) = some plan := by
  simp only [createMirrorPlans, List.mem_filterMap, (env.pathOrder.perm paths).mem_iff]

/-- What the execution of every plan of a sweep preserves, the sweep preserves. -/
theorem mirrorAllSecrets_induct_plan (hplan : ∀ path ∈ discoverAllSecrets c env cl, ∀ plan,
      createMirrorPlanForSecret path (inventory c env cl path) = some plan →
      ∀ st, I st → I (executeMirrorPlan c env plan st).1)
    (h : I { cluster := cl }) : I (mirrorAllSecrets c env cl).1 := by
  unfold mirrorAllSecrets
  split
  · exact h
  dsimp only
  split
  · exact h
  · refine executeMirrorPlans_induct ?_ h
    intro plan hmem
    obtain ⟨path, hpath, hcreate⟩ := mem_createMirrorPlans.mp hmem
    exact hplan path hpath plan hcreate

/-- The data a sweep writes is read from a device at the same path. What every write of such data
at a discovered path preserves, the sweep preserves. -/
theorem mirrorAllSecrets_induct_read {D : String → SecretData → Prop}
    (hread : ∀ path ∈ discoverAllSecrets c env cl, ∀ st d data, I st →
      c.readSecret (st.cluster d) path = .ok data → D path data)
    (hwrite : ∀ path ∈ discoverAllSecrets c env cl, ∀ st d data m, I st → D path data →
      I (writeDevice c st d path data m))
    (h : I { cluster := cl }) : I (mirrorAllSecrets c env cl).1 := by
  refine mirrorAllSecrets_induct_plan ?_ h
  intro path hpath plan hcreate st hst
  have hsame := secretPath_of_createMirrorPlan hcreate
  refine executeMirrorPlan_induct_read (D := D path) ?_ ?_ hst
  · intro _ st d data hst hdata
    rw [hsame] at hdata
    exact hread path hpath st d data hst hdata
  · intro _ st d data m hst hdata
    rw [hsame]
    exact hwrite path hpath st d data m hst hdata

theorem mirrorAllSecrets_induct (hwrite : ∀ path ∈ discoverAllSecrets c env cl, ∀ plan,
      createMirrorPlanForSecret path (inventory c env cl path) = some plan →
      plan.mirrorType ≠ .skip → ∀ st d data m, I st → I (writeDevice c st d path data m))
    (h : I { cluster := cl }) : I (mirrorAllSecrets c env cl).1 := by
  refine mirrorAllSecrets_induct_plan ?_ h
  intro path hpath plan hcreate st hst
  refine executeMirrorPlan_induct ?_ hst
  rw [secretPath_of_createMirrorPlan hcreate]
  exact hwrite path hpath plan hcreate

theorem mem_discoverAllSecrets {path : String} : path ∈ discoverAllSecrets c env cl ↔
      ∃ d ∈ env.devices, env.listFault d = none ∧ path ∈ c.listSecrets (cl d) "" := by
  simp only [discoverAllSecrets, List.mem_insertionSort, List.mem_dedup, List.mem_flatMap]
  refine exists_congr fun d => and_congr_right fun _ => ?_
  cases env.listFault d with
  | none => simp
  | some text => simp

end Induct

end HsmSecretsOperator.Mirror.Sweep
