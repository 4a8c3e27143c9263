/- source: internal/mirror/manager.go
   digest: What the execution of one plan leaves on every device, and when it reports success. -/

import HsmSecretsOperator.Mirror.Sweep

set_option autoImplicit false

namespace HsmSecretsOperator.Mirror.Execution

open Hsm.Secret Plan Sweep
open Executor (Progress restoreSource sourceNeedsMetadata syncMetadata syncStep syncTarget)

variable {σ : Type} (c : Client σ) (env : SweepEnv) (plan : SecretMirrorPlan)

/-- A target after its sync, or none when the sync fails. -/
def synced (data : SecretData) (metadata : SecretMetadata) (d : String) (s : σ) : Option σ :=
  if d ∉ env.devices ∨ (env.targetFault plan.secretPath d).isSome then none
  else
    match plan.mirrorType with
    | .create | .update => some (c.writeSecret s plan.secretPath data (some metadata))
    | .restoreMetadata => (c.readSecret s plan.secretPath).toOption.map fun existingData =>
        c.writeSecret s plan.secretPath existingData (some metadata)
    | .skip => some s

/-- A write of the path reached the device. -/
def Wrote (st : MirrorState σ) (path d : String) : Prop :=
  ∃ w ∈ st.log, w.path = path ∧ w.device = d

instance (st : MirrorState σ) (path d : String) : Decidable (Wrote st path d) :=
  inferInstanceAs (Decidable (∃ w ∈ st.log, w.path = path ∧ w.device = d))

theorem wrote_writeDevice {st : MirrorState σ} {d path x path' : String} {data : SecretData}
    {m : SecretMetadata} : Wrote (writeDevice c st d path data m) path' x ↔
      Wrote st path' x ∨ path = path' ∧ d = x := by
  simp only [Wrote, writeDevice, List.mem_append, List.mem_singleton, or_and_right, exists_or,
    exists_eq_left]

section Targets

variable {plan} (htype : plan.mirrorType ≠ .skip) (data : SecretData) (metadata : SecretMetadata)

include htype

private theorem syncTarget_cases (st : MirrorState σ) (d : String) :
    (synced c env plan data metadata d (st.cluster d) = none ∧
      ∃ text, syncTarget (access c env) plan data metadata st d = (st, some text)) ∨
    ∃ new, synced c env plan data metadata d (st.cluster d) =
        some (c.writeSecret (st.cluster d) plan.secretPath new (some metadata)) ∧
      syncTarget (access c env) plan data metadata st d =
        (writeDevice c st d plan.secretPath new metadata, none) := by
  by_cases hd : d ∈ env.devices
  · cases hfault : env.targetFault plan.secretPath d with
    | some text =>
      cases hmirror : plan.mirrorType with
      | skip => exact absurd hmirror htype
      | update => simp [syncTarget, access, synced, hd, hfault, hmirror]
      | create => simp [syncTarget, access, synced, hd, hfault, hmirror]
      | restoreMetadata => simp [syncTarget, access, synced, hd, hfault, hmirror]
    | none =>
      cases hmirror : plan.mirrorType with
      | skip => exact absurd hmirror htype
      | update => exact .inr ⟨data, by simp [syncTarget, access, synced, hd, hfault, hmirror]⟩
      | create => exact .inr ⟨data, by simp [syncTarget, access, synced, hd, hfault, hmirror]⟩
      | restoreMetadata =>
        cases hread : c.readSecret (st.cluster d) plan.secretPath with
        | error text =>
          simp [syncTarget, access, synced, hd, hfault, hmirror, hread, Except.toOption]
        | ok existing =>
          refine .inr ⟨existing, ?_⟩
          simp [syncTarget, access, synced, hd, hfault, hmirror, hread, Except.toOption]
  · simp [syncTarget, access, synced, hd]

private theorem syncTarget_eq (st : MirrorState σ) (d : String) :
    (syncTarget (access c env) plan data metadata st d).1.cluster = Function.update st.cluster d
        ((synced c env plan data metadata d (st.cluster d)).getD (st.cluster d)) ∧
      ((syncTarget (access c env) plan data metadata st d).2 = none ↔
        (synced c env plan data metadata d (st.cluster d)).isSome = true) := by
  rcases syncTarget_cases c env htype data metadata st d with
    ⟨hnone, text, heq⟩ | ⟨new, hsome, heq⟩
  · simp [hnone, heq]
  · simp [hsome, heq, writeDevice]

private theorem syncStep_eq (p : Progress (MirrorState σ)) (d : String) :
    (syncStep (access c env) plan data metadata p d).state.cluster =
        Function.update p.state.cluster d
          ((synced c env plan data metadata d (p.state.cluster d)).getD (p.state.cluster d)) ∧
      ((syncStep (access c env) plan data metadata p d).failedTargets = 0 ↔ p.failedTargets = 0 ∧
        (synced c env plan data metadata d (p.state.cluster d)).isSome = true) := by
  obtain ⟨hcluster, herror⟩ := syncTarget_eq c env htype data metadata p.state d
  rw [Executor.state_syncStep, Executor.failedTargets_syncStep]
  exact ⟨hcluster, and_congr_right fun _ => herror⟩

private theorem foldl_syncStep_eq {targets : List String} (hnodup : targets.Nodup)
    (p : Progress (MirrorState σ)) :
    (∀ d, (targets.foldl (syncStep (access c env) plan data metadata) p).state.cluster d =
      if d ∈ targets then
        (synced c env plan data metadata d (p.state.cluster d)).getD (p.state.cluster d)
      else p.state.cluster d) ∧
    ((targets.foldl (syncStep (access c env) plan data metadata) p).failedTargets = 0 ↔
      p.failedTargets = 0 ∧ ∀ d ∈ targets,
        (synced c env plan data metadata d (p.state.cluster d)).isSome = true) := by
  induction targets generalizing p with
  | nil => simp
  | cons x targets ih =>
    obtain ⟨hx, hnodup⟩ := List.nodup_cons.mp hnodup
    obtain ⟨hcluster, hfailed⟩ := syncStep_eq c env htype data metadata p x
    obtain ⟨ihcluster, ihfailed⟩ := ih hnodup (syncStep (access c env) plan data metadata p x)
    have hother : ∀ d, d ≠ x → (syncStep (access c env) plan data metadata p x).state.cluster d =
        p.state.cluster d := fun d hd => by rw [hcluster, Function.update_of_ne hd]
    rw [List.foldl_cons]
    constructor
    · intro d
      rw [ihcluster]
      by_cases hd : d = x
      · subst hd
        rw [if_neg hx, if_pos List.mem_cons_self, hcluster, Function.update_self]
      · simp only [hother d hd, List.mem_cons, hd, false_or]
    · rw [ihfailed, hfailed, List.forall_mem_cons, and_assoc]
      refine and_congr_right fun _ => and_congr_right fun _ => forall₂_congr fun d hd => ?_
      rw [hother d fun h => hx (h ▸ hd)]

private theorem wrote_syncTarget (st : MirrorState σ) (d x : String) :
    Wrote (syncTarget (access c env) plan data metadata st d).1 plan.secretPath x ↔
      Wrote st plan.secretPath x ∨
        d = x ∧ (synced c env plan data metadata d (st.cluster d)).isSome = true := by
  rcases syncTarget_cases c env htype data metadata st d with
    ⟨hnone, text, heq⟩ | ⟨new, hsome, heq⟩
  · simp [hnone, heq]
  · simp [hsome, heq, wrote_writeDevice]

private theorem wrote_foldl_syncStep {targets : List String} (hnodup : targets.Nodup)
    (p : Progress (MirrorState σ)) (x : String) :
    Wrote (targets.foldl (syncStep (access c env) plan data metadata) p).state plan.secretPath x ↔
      Wrote p.state plan.secretPath x ∨ x ∈ targets ∧
        (synced c env plan data metadata x (p.state.cluster x)).isSome = true := by
  induction targets generalizing p with
  | nil => simp
  | cons d targets ih =>
    obtain ⟨hd, hnodup⟩ := List.nodup_cons.mp hnodup
    obtain ⟨hcluster, _⟩ := syncStep_eq c env htype data metadata p d
    rw [List.foldl_cons, ih hnodup, hcluster, Executor.state_syncStep,
      wrote_syncTarget c env htype]
    by_cases hx : x = d
    · subst hx
      simp [hd]
    · have hne : d ≠ x := fun heq => hx heq.symm
      simp [hx, hne]

end Targets

/-- The plan repairs the metadata of its source first. -/
def Restores (sourceMetadata : Option SecretMetadata) : Prop :=
  plan.mirrorType = .restoreMetadata ∧ sourceNeedsMetadata sourceMetadata = true

/-- The plan gets as far as its targets. -/
structure Ready (st : MirrorState σ) (sourceData : SecretData)
    (sourceMetadata : Option SecretMetadata) : Prop where
  source_mem : plan.sourceDevice ∈ env.devices
  read : readSecretWithMetadata c env st plan.sourceDevice plan.secretPath =
    .ok (sourceData, sourceMetadata)
  restore : Restores plan sourceMetadata → env.restoreFault plan.secretPath = none

variable {c env plan} {st : MirrorState σ} {sourceData : SecretData}
  {sourceMetadata : Option SecretMetadata}

instance (sourceMetadata : Option SecretMetadata) : Decidable (Restores plan sourceMetadata) :=
  inferInstanceAs (Decidable (_ ∧ _))

private def prepared (env : SweepEnv) (plan : SecretMirrorPlan) (st : MirrorState σ)
    (c : Client σ) (sourceData : SecretData) (sourceMetadata : Option SecretMetadata) :
    MirrorState σ :=
  if Restores plan sourceMetadata then
    writeDevice c st plan.sourceDevice plan.secretPath sourceData
      (syncMetadata (env.stampAt plan.secretPath) plan sourceMetadata)
  else st

private theorem prepared_cluster (d : String) (hd : d ≠ plan.sourceDevice) :
    (prepared env plan st c sourceData sourceMetadata).cluster d = st.cluster d := by
  unfold prepared
  split
  · simp [writeDevice, hd]
  · rfl

private theorem executeMirrorPlan_eq_foldl (htype : plan.mirrorType ≠ .skip)
    (h : Ready c env plan st sourceData sourceMetadata) :
    let p := plan.targetDevices.foldl
      (syncStep (access c env) plan sourceData
        (syncMetadata (env.stampAt plan.secretPath) plan sourceMetadata))
      { state := prepared env plan st c sourceData sourceMetadata }
    (executeMirrorPlan c env plan st).1 = p.state ∧
      (executeMirrorPlan c env plan st).2.success = decide (p.failedTargets = 0) := by
  intro p
  have hlookup : (access c env).deviceLookup plan.sourceDevice = some plan.sourceDevice :=
    if_pos h.source_mem
  have hrestored : restoreSource (access c env) plan plan.sourceDevice sourceData sourceMetadata
      (syncMetadata (env.stampAt plan.secretPath) plan sourceMetadata) st =
        (prepared env plan st c sourceData sourceMetadata, none) := by
    by_cases hrestore : Restores plan sourceMetadata
    · have hfault := h.restore hrestore
      rw [prepared, if_pos hrestore]
      exact (if_pos hrestore).trans (by simp only [access, hfault])
    · rw [prepared, if_neg hrestore]
      exact if_neg hrestore
  have hread : (access c env).readSecretWithMetadata st plan.sourceDevice plan.secretPath =
      (st, .ok (sourceData, sourceMetadata)) := Prod.ext rfl h.read
  have hnow : (access c env).now st plan.secretPath = env.stampAt plan.secretPath := rfl
  unfold executeMirrorPlan Executor.executeMirrorPlan
  simp only [if_neg htype, hlookup, hread, hnow, hrestored]
  exact ⟨rfl, rfl⟩

/-- A plan that gets to its targets syncs each of them, and succeeds when all syncs do. -/
theorem executeMirrorPlan_of_ready (htype : plan.mirrorType ≠ .skip)
    (hnodup : plan.targetDevices.Nodup) (hsource : plan.sourceDevice ∉ plan.targetDevices)
    (h : Ready c env plan st sourceData sourceMetadata) :
    (∀ d, d ≠ plan.sourceDevice → (executeMirrorPlan c env plan st).1.cluster d =
      if d ∈ plan.targetDevices then
        (synced c env plan sourceData
          (syncMetadata (env.stampAt plan.secretPath) plan sourceMetadata) d
          (st.cluster d)).getD (st.cluster d)
      else st.cluster d) ∧
    (executeMirrorPlan c env plan st).1.cluster plan.sourceDevice =
      (if Restores plan sourceMetadata then
        c.writeSecret (st.cluster plan.sourceDevice) plan.secretPath sourceData
          (some (syncMetadata (env.stampAt plan.secretPath) plan sourceMetadata))
      else st.cluster plan.sourceDevice) ∧
    ((executeMirrorPlan c env plan st).2.success = true ↔ ∀ d ∈ plan.targetDevices,
      (synced c env plan sourceData
        (syncMetadata (env.stampAt plan.secretPath) plan sourceMetadata) d
        (st.cluster d)).isSome = true) := by
  obtain ⟨hstate, hsuccess⟩ := executeMirrorPlan_eq_foldl htype h
  obtain ⟨hcluster, hfailed⟩ := foldl_syncStep_eq c env htype sourceData
    (syncMetadata (env.stampAt plan.secretPath) plan sourceMetadata) hnodup
    { state := prepared env plan st c sourceData sourceMetadata }
  rw [hstate, hsuccess]
  refine ⟨?_, ?_, ?_⟩
  · intro d hd
    rw [hcluster, prepared_cluster d hd]
  · rw [hcluster, if_neg hsource, prepared]
    split
    · simp [writeDevice]
    · rfl
  · rw [decide_eq_true_iff, hfailed]
    refine (and_iff_right rfl).trans (forall₂_congr fun d hd => ?_)
    rw [prepared_cluster d fun heq => hsource (heq ▸ hd)]

theorem wrote_of_ready (htype : plan.mirrorType ≠ .skip) (hnodup : plan.targetDevices.Nodup)
    (hsource : plan.sourceDevice ∉ plan.targetDevices)
    (h : Ready c env plan st sourceData sourceMetadata) (d : String) :
    Wrote (executeMirrorPlan c env plan st).1 plan.secretPath d ↔
      Wrote st plan.secretPath d ∨ plan.sourceDevice = d ∧ Restores plan sourceMetadata ∨
        d ∈ plan.targetDevices ∧ (synced c env plan sourceData
          (syncMetadata (env.stampAt plan.secretPath) plan sourceMetadata) d
            (st.cluster d)).isSome = true := by
  rw [(executeMirrorPlan_eq_foldl htype h).1, wrote_foldl_syncStep c env htype _ _ hnodup]
  have hprepared : Wrote (prepared env plan st c sourceData sourceMetadata) plan.secretPath d ↔
      Wrote st plan.secretPath d ∨ plan.sourceDevice = d ∧ Restores plan sourceMetadata := by
    unfold prepared
    split
    next hrestore => simp [wrote_writeDevice, hrestore]
    next hrestore => simp [hrestore]
  rw [hprepared, or_assoc]
  refine or_congr_right (or_congr_right (and_congr_right fun hd => ?_))
  rw [prepared_cluster d fun heq => hsource (heq ▸ hd)]

theorem executeMirrorPlan_of_skip (c : Client σ) (env : SweepEnv) (st : MirrorState σ)
    (htype : plan.mirrorType = .skip) :
    (executeMirrorPlan c env plan st).1 = st ∧
      (executeMirrorPlan c env plan st).2.success = true := by
  unfold executeMirrorPlan Executor.executeMirrorPlan
  rw [if_pos htype]
  exact ⟨rfl, rfl⟩

theorem executeMirrorPlan_of_not_ready (htype : plan.mirrorType ≠ .skip)
    (h : ¬ ∃ sourceData sourceMetadata, Ready c env plan st sourceData sourceMetadata) :
    (executeMirrorPlan c env plan st).1 = st ∧
      (executeMirrorPlan c env plan st).2.success = false := by
  unfold executeMirrorPlan Executor.executeMirrorPlan
  rw [if_neg htype]
  split
  · exact ⟨rfl, rfl⟩
  next source hlookup =>
  obtain ⟨hmem, hsource⟩ := Option.ite_none_right_eq_some.mp hlookup
  obtain rfl := Option.some.inj hsource
  dsimp only
  split
  · exact ⟨rfl, rfl⟩
  next sourceData sourceMetadata hread =>
  -- The plan has read its source, so that the repair of the source is what fails.
  have hrestores : Restores plan sourceMetadata := by
    by_contra hnot
    exact h ⟨sourceData, sourceMetadata, hmem, hread, fun hrestore => absurd hrestore hnot⟩
  cases hfault : env.restoreFault plan.secretPath with
  | none => exact absurd ⟨sourceData, sourceMetadata, hmem, hread, fun _ => hfault⟩ h
  | some text =>
    have hrestored (m : SecretMetadata) : restoreSource (access c env) plan plan.sourceDevice
        sourceData sourceMetadata m st = (st, some text) :=
      (if_pos hrestores).trans (by simp only [access, hfault])
    have hstate : ((access c env).readSecretWithMetadata st plan.sourceDevice
        plan.secretPath).1 = st := rfl
    simp only [hstate, hrestored]
    exact ⟨trivial, rfl⟩

end HsmSecretsOperator.Mirror.Execution
