/- source: internal/mirror/manager.go
   digest: The execution of mirror plans, over any way of getting at the devices. -/

import HsmSecretsOperator.Mirror.Plan

set_option autoImplicit false

namespace HsmSecretsOperator.Mirror.Executor

open Foundation.Decimal Foundation.Rfc3339 Hsm.Secret Plan

/-- What the executor asks of devices of type `δ` in a world `ω` that every call may change. A call
that fails gives the text of its error. -/
structure Access (δ ω : Type) where
  deviceLookup : String → Option δ
  /-- The clock when the sync metadata of a path is made. -/
  now : ω → String → Instant
  readSecretWithMetadata : ω → δ → String → ω × Except String (SecretData × Option SecretMetadata)
  /-- `WriteSecret` to the source of a plan. -/
  writeSource : ω → δ → String → SecretData → SecretMetadata → ω × Option String
  /-- `WriteSecret` to a target. -/
  writeSecret : ω → δ → String → SecretData → SecretMetadata → ω × Option String
  writeMetadataOnly : ω → δ → String → SecretMetadata → ω × Option String

structure SecretMirrorResult where
  secretPath : String
  sourceDevice : String
  sourceVersion : Int
  targetDevices : List String
  mirrorType : MirrorType
  success : Bool
  error : Option String
  deriving DecidableEq

/-- The version that targets converge to: the source's, or 1 when it has none. -/
def newVersion (sourceMetadata : Option SecretMetadata) : Int :=
  if metadataVersion sourceMetadata ≤ 0 then 1 else metadataVersion sourceMetadata

def syncMetadata (now : Instant) (plan : SecretMirrorPlan)
    (sourceMetadata : Option SecretMetadata) : SecretMetadata :=
  { labels := (((∅ : Labels).insert "sync.version" (sprintfD (newVersion sourceMetadata))).insert
      "sync.timestamp" (formatRFC3339 now)).insert "sync.source" plan.sourceDevice }

/-- The source carries no sync version, so a metadata repair has to start there. -/
def sourceNeedsMetadata (sourceMetadata : Option SecretMetadata) : Bool :=
  (sourceMetadata.bind (·.labels["sync.version"]?)).getD "" = ""

variable {δ ω : Type} (x : Access δ ω)

/-- The repair of the source, when the plan is to restore metadata and the source has none. -/
def restoreSource (plan : SecretMirrorPlan) (source : δ) (sourceData : SecretData)
    (sourceMetadata : Option SecretMetadata) (metadata : SecretMetadata) (w : ω) :
    ω × Option String :=
  if plan.mirrorType = .restoreMetadata ∧ sourceNeedsMetadata sourceMetadata = true then
    x.writeSource w source plan.secretPath sourceData metadata
  else (w, none)

/-- One target of a plan: the world after it and the error, if any. -/
def syncTarget (plan : SecretMirrorPlan) (sourceData : SecretData) (metadata : SecretMetadata)
    (w : ω) (targetDeviceId : String) : ω × Option String :=
  match x.deviceLookup targetDeviceId with
  | none => (w, some ("target device not found in lookup: " ++ targetDeviceId))
  | some targetDevice =>
    match plan.mirrorType with
    | .create | .update => x.writeSecret w targetDevice plan.secretPath sourceData metadata
    | .restoreMetadata => x.writeMetadataOnly w targetDevice plan.secretPath metadata
    | .skip => (w, none)

/-- The loop over the targets: the world, the number of failures and the first error. -/
structure Progress (ω : Type) where
  state : ω
  failedTargets : Nat := 0
  error : Option String := none

def syncStep (plan : SecretMirrorPlan) (sourceData : SecretData) (metadata : SecretMetadata)
    (p : Progress ω) (targetDeviceId : String) : Progress ω :=
  let r := syncTarget x plan sourceData metadata p.state targetDeviceId
  match r.2 with
  | none => { p with state := r.1 }
  | some text =>
    { state := r.1, failedTargets := p.failedTargets + 1, error := p.error.or (some text) }

def resultOf (plan : SecretMirrorPlan) (success : Bool) (error : Option String) :
    SecretMirrorResult :=
  { secretPath := plan.secretPath, sourceDevice := plan.sourceDevice
    sourceVersion := plan.sourceVersion, targetDevices := plan.targetDevices
    mirrorType := plan.mirrorType, success, error }

def executeMirrorPlan (plan : SecretMirrorPlan) (w : ω) : ω × SecretMirrorResult :=
  if plan.mirrorType = .skip then (w, resultOf plan true none)
  else
    match x.deviceLookup plan.sourceDevice with
    | none =>
      (w, resultOf plan false (some ("source device not found in lookup: " ++ plan.sourceDevice)))
    | some source =>
      let r := x.readSecretWithMetadata w source plan.secretPath
      match r.2 with
      | .error text =>
        (r.1, resultOf plan false (some ("failed to read source secret: " ++ text)))
      | .ok (sourceData, sourceMetadata) =>
        let metadata := syncMetadata (x.now r.1 plan.secretPath) plan sourceMetadata
        let s := restoreSource x plan source sourceData sourceMetadata metadata r.1
        match s.2 with
        | some text =>
          (s.1, resultOf plan false (some ("failed to restore metadata on source: " ++ text)))
        | none =>
          let p := plan.targetDevices.foldl (syncStep x plan sourceData metadata) { state := s.1 }
          (p.state, resultOf plan (p.failedTargets = 0) p.error)

structure MirrorResult where
  success : Bool := true
  secretsProcessed : Nat := 0
  secretsUpdated : Nat := 0
  secretsCreated : Nat := 0
  metadataRestored : Nat := 0
  secretResults : Std.ExtTreeMap String SecretMirrorResult := ∅
  errors : List String := []

def MirrorResult.add (r : MirrorResult) (s : SecretMirrorResult) : MirrorResult :=
  let r := { r with secretResults := r.secretResults.insert s.secretPath s }
  if s.success then
    match s.mirrorType with
    | .create => { r with secretsCreated := r.secretsCreated + 1 }
    | .update => { r with secretsUpdated := r.secretsUpdated + 1 }
    | .restoreMetadata => { r with metadataRestored := r.metadataRestored + 1 }
    | .skip => r
  else
    { r with
      success := false
      errors := r.errors ++ (s.error.map fun text => s.secretPath ++ ": " ++ text).toList }

def executeMirrorPlans (plans : List SecretMirrorPlan) (w : ω) : ω × MirrorResult :=
  plans.foldl (fun acc plan =>
    let r := executeMirrorPlan x plan acc.1
    (r.1, acc.2.add r.2)) (w, { secretsProcessed := plans.length })

theorem executeMirrorPlan_labels (plan : SecretMirrorPlan) (w : ω) :
    (executeMirrorPlan x plan w).2.secretPath = plan.secretPath ∧
      (executeMirrorPlan x plan w).2.sourceDevice = plan.sourceDevice ∧
      (executeMirrorPlan x plan w).2.mirrorType = plan.mirrorType := by
  unfold executeMirrorPlan
  dsimp only
  repeat' split
  all_goals exact ⟨rfl, rfl, rfl⟩

theorem state_syncStep (plan : SecretMirrorPlan) (sourceData : SecretData)
    (metadata : SecretMetadata) (p : Progress ω) (d : String) :
    (syncStep x plan sourceData metadata p d).state =
      (syncTarget x plan sourceData metadata p.state d).1 := by
  unfold syncStep
  dsimp only
  split
  · rfl
  · rfl

theorem failedTargets_syncStep (plan : SecretMirrorPlan) (sourceData : SecretData)
    (metadata : SecretMetadata) (p : Progress ω) (d : String) :
    (syncStep x plan sourceData metadata p d).failedTargets = 0 ↔ p.failedTargets = 0 ∧
      (syncTarget x plan sourceData metadata p.state d).2 = none := by
  unfold syncStep
  dsimp only
  split
  next h => simp [h]
  next text h => simp [h]

end HsmSecretsOperator.Mirror.Executor
