/- source: internal/mirror/manager.go
   digest: A sweep seen from one path: where paths are kept apart it runs one plan. -/

import HsmSecretsOperator.Hsm.Layout
import HsmSecretsOperator.Mirror.Execution

set_option autoImplicit false

namespace HsmSecretsOperator.Mirror.Path

open Foundation.Maps Hsm.Layout Hsm.Secret Execution Plan Sweep
open Executor (MirrorResult SecretMirrorResult executeMirrorPlan_labels syncMetadata)

/-- What the devices answer for a path. -/
abbrev Holdings := String → Held

variable {σ : Type} {c : Client σ} {env : SweepEnv} {p : String}

def heldAt (c : Client σ) (cl : String → σ) (p : String) : Holdings := fun d => held c (cl d) p

/-- Two states are the same for the path: its copies, and the devices written with it. -/
structure Agrees (c : Client σ) (p : String) (st st' : MirrorState σ) : Prop where
  copies : heldAt c st.cluster p = heldAt c st'.cluster p
  writes : ∀ d, Wrote st p d ↔ Wrote st' p d

theorem Agrees.refl (p : String) (st : MirrorState σ) : Agrees c p st st :=
  ⟨rfl, fun _ => Iff.rfl⟩

theorem Agrees.trans {st st' st'' : MirrorState σ} (h : Agrees c p st st')
    (h' : Agrees c p st' st'') : Agrees c p st st'' :=
  ⟨h.copies.trans h'.copies, fun d => (h.writes d).trans (h'.writes d)⟩

variable {L : Laws c} {plan : SecretMirrorPlan} {cl : String → σ} {data : SecretData} {d : String}
  {before : Held} {m : SecretMetadata} {st : MirrorState σ}

private theorem tidy_writeDevice (hpath : L.paths p) (hdata : L.admits p data)
    (h : ∀ x, L.tidy (st.cluster x)) (d : String) (m : SecretMetadata) :
    ∀ x, L.tidy ((writeDevice c st d p data m).cluster x) := by
  intro x
  by_cases hx : x = d
  · subst hx
    simp only [writeDevice, Function.update_self]
    exact L.tidy_write (h x) hpath hdata m
  · simp only [writeDevice, Function.update_of_ne hx]
    exact h x

private theorem agrees_writeDevice {q : String} (hq : L.paths q) (hp : L.paths p) (hne : q ≠ p)
    (hdata : L.admits q data) (h : ∀ x, L.tidy (st.cluster x)) (d : String) (m : SecretMetadata) :
    Agrees c p (writeDevice c st d q data m) st := by
  constructor
  · funext x
    by_cases hx : x = d
    · subst hx
      simp only [heldAt, writeDevice, Function.update_self]
      exact L.held_write_of_ne (h x) hq hp hne hdata m
    · simp only [heldAt, writeDevice, Function.update_of_ne hx]
  · intro x
    rw [wrote_writeDevice]
    exact or_iff_left fun hwrite => hne hwrite.1

/-- The data of a plan comes from the devices, so the catalogue admits it. -/
theorem tidy_executeMirrorPlan (hpath : L.paths plan.secretPath)
    (h : ∀ d, L.tidy (st.cluster d)) :
    ∀ d, L.tidy ((executeMirrorPlan c env plan st).1.cluster d) := by
  refine executeMirrorPlan_induct_read (I := fun st' => ∀ d, L.tidy (st'.cluster d))
    (D := L.admits plan.secretPath) ?_ ?_ h
  · intro _ st' d data hst' hread
    exact L.admits_held (hst' d) hpath (held_data_eq_some.mpr hread)
  · intro _ st' d data m hst' hdata
    exact tidy_writeDevice hpath hdata hst' d m

private theorem agrees_executeMirrorPlan (hpath : L.paths plan.secretPath) (hp : L.paths p)
    (hne : plan.secretPath ≠ p) (h : ∀ d, L.tidy (st.cluster d)) :
    Agrees c p (executeMirrorPlan c env plan st).1 st := by
  refine (executeMirrorPlan_induct_read
    (I := fun st' => (∀ d, L.tidy (st'.cluster d)) ∧ Agrees c p st' st)
    (D := L.admits plan.secretPath) ?_ ?_ ⟨h, .refl p st⟩).2
  · rintro _ st' d data ⟨hst', _⟩ hread
    exact L.admits_held (hst' d) hpath (held_data_eq_some.mpr hread)
  · rintro _ st' d data m ⟨hst', hsame⟩ hdata
    exact ⟨tidy_writeDevice hpath hdata hst' d m,
      (agrees_writeDevice hpath hp hne hdata hst' d m).trans hsame⟩

private theorem secretPath_executeMirrorPlan (plan : SecretMirrorPlan) (st : MirrorState σ) :
    (executeMirrorPlan c env plan st).2.secretPath = plan.secretPath :=
  (executeMirrorPlan_labels _ plan st).1

private theorem secretResults_add (r : MirrorResult) (s : SecretMirrorResult) :
    (r.add s).secretResults = r.secretResults.insert s.secretPath s := by
  unfold MirrorResult.add
  dsimp only
  split
  · split
    all_goals rfl
  · rfl

/-- The loop of `executeMirrorPlans`. -/
private def runPlans (c : Client σ) (env : SweepEnv) (acc : MirrorState σ × MirrorResult)
    (plans : List SecretMirrorPlan) : MirrorState σ × MirrorResult :=
  plans.foldl (fun acc plan =>
    let r := executeMirrorPlan c env plan acc.1
    (r.1, acc.2.add r.2)) acc

private theorem runPlans_results (env : SweepEnv) {plans : List SecretMirrorPlan}
    (h : ∀ plan ∈ plans, plan.secretPath ≠ p) (acc : MirrorState σ × MirrorResult) :
    (runPlans c env acc plans).2.secretResults[p]? = acc.2.secretResults[p]? := by
  induction plans generalizing acc with
  | nil => rfl
  | cons plan plans ih =>
    refine (ih (fun q hq => h q (List.mem_cons_of_mem plan hq)) _).trans ?_
    rw [secretResults_add, secretPath_executeMirrorPlan,
      getElem?_insert_of_ne _ (h plan List.mem_cons_self)]

private theorem runPlans_frame (env : SweepEnv) {plans : List SecretMirrorPlan} (hp : L.paths p)
    (hpaths : ∀ plan ∈ plans, L.paths plan.secretPath) (h : ∀ plan ∈ plans, plan.secretPath ≠ p)
    (acc : MirrorState σ × MirrorResult) (hacc : ∀ d, L.tidy (acc.1.cluster d)) :
    (∀ d, L.tidy ((runPlans c env acc plans).1.cluster d)) ∧
      Agrees c p (runPlans c env acc plans).1 acc.1 := by
  induction plans generalizing acc with
  | nil => exact ⟨hacc, .refl p acc.1⟩
  | cons plan plans ih =>
    have hpath := hpaths plan List.mem_cons_self
    obtain ⟨htidy, hsame⟩ := ih (fun q hq => hpaths q (List.mem_cons_of_mem plan hq))
      (fun q hq => h q (List.mem_cons_of_mem plan hq))
      ((executeMirrorPlan c env plan acc.1).1, acc.2.add (executeMirrorPlan c env plan acc.1).2)
      (tidy_executeMirrorPlan hpath hacc)
    exact ⟨htidy,
      hsame.trans (agrees_executeMirrorPlan hpath hp (h plan List.mem_cons_self) hacc)⟩

private theorem runPlans_at (env : SweepEnv) {plans : List SecretMirrorPlan}
    (hnodup : (plans.map SecretMirrorPlan.secretPath).Nodup)
    (hpaths : ∀ plan ∈ plans, L.paths plan.secretPath) (hmem : plan ∈ plans)
    (acc : MirrorState σ × MirrorResult) (hacc : ∀ d, L.tidy (acc.1.cluster d)) :
    ∃ st, (∀ d, L.tidy (st.cluster d)) ∧ Agrees c plan.secretPath st acc.1 ∧
      Agrees c plan.secretPath (runPlans c env acc plans).1 (executeMirrorPlan c env plan st).1 ∧
      (runPlans c env acc plans).2.secretResults[plan.secretPath]? =
        some (executeMirrorPlan c env plan st).2 := by
  have hpath := hpaths plan hmem
  obtain ⟨before, after, rfl⟩ := List.append_of_mem hmem
  rw [List.map_append, List.map_cons, List.nodup_append] at hnodup
  obtain ⟨_, hafter, hdisjoint⟩ := hnodup
  have hbefore' : ∀ q ∈ before, q.secretPath ≠ plan.secretPath := fun q hq =>
    hdisjoint _ (List.mem_map_of_mem hq) _ List.mem_cons_self
  have hafter' : ∀ q ∈ after, q.secretPath ≠ plan.secretPath := fun q hq heq =>
    (List.nodup_cons.mp hafter).1 (heq ▸ List.mem_map_of_mem hq)
  let acc' := runPlans c env acc before
  obtain ⟨htidy, hsame⟩ := runPlans_frame env hpath
    (fun q hq => hpaths q (List.mem_append_left _ hq)) hbefore' acc hacc
  obtain ⟨_, hsame'⟩ := runPlans_frame env hpath
    (fun q hq => hpaths q (List.mem_append_right _ (List.mem_cons_of_mem plan hq))) hafter'
    ((executeMirrorPlan c env plan acc'.1).1, acc'.2.add (executeMirrorPlan c env plan acc'.1).2)
    (tidy_executeMirrorPlan hpath htidy)
  have hsplit : runPlans c env acc (before ++ plan :: after) =
      runPlans c env ((executeMirrorPlan c env plan acc'.1).1,
        acc'.2.add (executeMirrorPlan c env plan acc'.1).2) after := by
    simp only [runPlans, List.foldl_append, List.foldl_cons, acc']
  refine ⟨acc'.1, htidy, hsame, ?_, ?_⟩
  · rw [hsplit]
    exact hsame'
  · rw [hsplit, runPlans_results env hafter', secretResults_add, secretPath_executeMirrorPlan,
      Std.ExtTreeMap.getElem?_insert_self]

private theorem nodup_createMirrorPlans {paths : List String} (h : paths.Nodup) :
    ((createMirrorPlans c env cl paths).map SecretMirrorPlan.secretPath).Nodup := by
  have hsub (l : List String) : ((l.filterMap fun path => createMirrorPlanForSecret path
      (inventory c env cl path)).map SecretMirrorPlan.secretPath).Sublist l := by
    induction l with
    | nil => exact .slnil
    | cons path l ih =>
      rw [List.filterMap_cons]
      cases hplan : createMirrorPlanForSecret path (inventory c env cl path) with
      | none => exact ih.cons path
      | some plan =>
        rw [List.map_cons, secretPath_of_createMirrorPlan hplan]
        exact ih.cons_cons path
  exact (hsub _).nodup ((env.pathOrder.perm paths).nodup_iff.mpr h)

private theorem nodup_discoverAllSecrets (cl : String → σ) :
    (discoverAllSecrets c env cl).Nodup :=
  (List.perm_insertionSort _ _).nodup_iff.mpr (List.nodup_dedup _)

/-- The plan a sweep makes for the path, if any. -/
def planned (c : Client σ) (env : SweepEnv) (cl : String → σ) (p : String) :
    Option SecretMirrorPlan :=
  if 2 ≤ env.devices.length ∧ p ∈ discoverAllSecrets c env cl then
    createMirrorPlanForSecret p (inventory c env cl p)
  else none

theorem createMirrorPlan_of_planned (h : planned c env cl p = some plan) :
    createMirrorPlanForSecret p (inventory c env cl p) = some plan := by
  unfold planned at h
  split at h
  · exact h
  · cases h

theorem discovered_of_planned (h : planned c env cl p = some plan) :
    2 ≤ env.devices.length ∧ p ∈ discoverAllSecrets c env cl := by
  unfold planned at h
  split at h
  next hcond => exact hcond
  next => cases h

private theorem ne_of_not_planned (h : planned c env cl p = none)
    (hdevices : 2 ≤ env.devices.length) {plan : SecretMirrorPlan}
    (hplan : plan ∈ createMirrorPlans c env cl (discoverAllSecrets c env cl)) :
    plan.secretPath ≠ p := by
  rintro rfl
  obtain ⟨path, hpath, hcreate⟩ := mem_createMirrorPlans.mp hplan
  obtain rfl := secretPath_of_createMirrorPlan hcreate
  rw [planned, if_pos ⟨hdevices, hpath⟩, hcreate] at h
  cases h

theorem secretResults_of_not_planned (h : planned c env cl p = none) :
    (mirrorAllSecrets c env cl).2.secretResults[p]? = none := by
  unfold mirrorAllSecrets
  split
  · simp
  dsimp only
  split
  · simp
  · exact (runPlans_results env (fun plan => ne_of_not_planned h (by omega)) _).trans (by simp)

section Tidy

variable (hcl : ∀ d, L.tidy (cl d))

include hcl

theorem mem_discoverAllSecrets_iff : p ∈ discoverAllSecrets c env cl ↔
    L.paths p ∧ ∃ x ∈ env.devices, env.listFault x = none ∧ (heldAt c cl p x).data ≠ none := by
  rw [mem_discoverAllSecrets]
  constructor
  · rintro ⟨x, hx, hfault, hlisted⟩
    obtain ⟨hp, hdata⟩ := (L.listed (hcl x)).mp hlisted
    exact ⟨hp, x, hx, hfault, hdata⟩
  · rintro ⟨hp, x, hx, hfault, hdata⟩
    exact ⟨x, hx, hfault, (L.listed (hcl x)).mpr ⟨hp, hdata⟩⟩

theorem paths_of_planned (h : planned c env cl p = some plan) : L.paths p :=
  ((mem_discoverAllSecrets_iff hcl).mp (discovered_of_planned h).2).1

private theorem paths_of_mem_createMirrorPlans
    (h : plan ∈ createMirrorPlans c env cl (discoverAllSecrets c env cl)) :
    L.paths plan.secretPath := by
  obtain ⟨path, hpath, hcreate⟩ := mem_createMirrorPlans.mp h
  rw [secretPath_of_createMirrorPlan hcreate]
  exact ((mem_discoverAllSecrets_iff hcl).mp hpath).1

/-- A sweep leaves every device tidy. -/
theorem tidy_mirrorAllSecrets (env : SweepEnv) :
    ∀ d, L.tidy ((mirrorAllSecrets c env cl).1.cluster d) := by
  refine mirrorAllSecrets_induct_plan (I := fun st => ∀ d, L.tidy (st.cluster d)) ?_ hcl
  intro path hpath plan hcreate st hst
  refine tidy_executeMirrorPlan ?_ hst
  rw [secretPath_of_createMirrorPlan hcreate]
  exact ((mem_discoverAllSecrets_iff hcl).mp hpath).1

theorem mirrorAllSecrets_of_planned (h : planned c env cl p = some plan) :
    ∃ st, (∀ d, L.tidy (st.cluster d)) ∧ Agrees c p st { cluster := cl } ∧
      Agrees c p (mirrorAllSecrets c env cl).1 (executeMirrorPlan c env plan st).1 ∧
      (mirrorAllSecrets c env cl).2.secretResults[p]? =
        some (executeMirrorPlan c env plan st).2 := by
  obtain ⟨hdevices, hdiscovered⟩ := discovered_of_planned h
  have hcreate := createMirrorPlan_of_planned h
  have hmem : plan ∈ createMirrorPlans c env cl (discoverAllSecrets c env cl) :=
    mem_createMirrorPlans.mpr ⟨p, hdiscovered, hcreate⟩
  have hrun := runPlans_at env (nodup_createMirrorPlans (nodup_discoverAllSecrets cl))
    (fun _ => paths_of_mem_createMirrorPlans hcl) hmem
    ({ cluster := cl }, { secretsProcessed :=
      (createMirrorPlans c env cl (discoverAllSecrets c env cl)).length }) hcl
  rw [secretPath_of_createMirrorPlan hcreate] at hrun
  unfold mirrorAllSecrets
  rw [if_neg (by omega)]
  dsimp only
  rw [if_neg (List.ne_nil_of_mem hdiscovered)]
  exact hrun

theorem mirrorAllSecrets_of_not_planned (hp : L.paths p) (h : planned c env cl p = none) :
    Agrees c p (mirrorAllSecrets c env cl).1 { cluster := cl } := by
  unfold mirrorAllSecrets
  split
  · exact .refl p _
  dsimp only
  split
  · exact .refl p _
  · exact (runPlans_frame env hp (fun _ => paths_of_mem_createMirrorPlans hcl)
      (fun plan => ne_of_not_planned h (by omega)) ({ cluster := cl }, _) hcl).2

end Tidy

/-- What a device answers for the path of a plan after its sync, or none when the sync fails. -/
def syncedCopy (env : SweepEnv) (plan : SecretMirrorPlan) (data : SecretData)
    (metadata : SecretMetadata) (d : String) (before : Held) : Option Held :=
  if d ∉ env.devices ∨ (env.targetFault plan.secretPath d).isSome then none
  else if plan.mirrorType = .restoreMetadata then
    before.data.map fun existingData => ⟨some existingData, some metadata⟩
  else some ⟨some data, some metadata⟩

theorem data_syncedCopy {copy : Held} (h : syncedCopy env plan data m d before = some copy) :
    copy.data = if plan.mirrorType = .restoreMetadata then before.data else some data := by
  unfold syncedCopy at h
  split at h
  · cases h
  split at h
  next htype =>
    obtain ⟨existing, hexisting, rfl⟩ := Option.map_eq_some_iff.mp h
    rw [if_pos htype, hexisting]
  next htype =>
    obtain rfl := Option.some.inj h
    rw [if_neg htype]

theorem isSome_syncedCopy : (syncedCopy env plan data m d before).isSome = true ↔
    d ∈ env.devices ∧ env.targetFault plan.secretPath d = none ∧
      (plan.mirrorType = .restoreMetadata → before.data ≠ none) := by
  unfold syncedCopy
  by_cases hd : d ∈ env.devices
  · cases hfault : env.targetFault plan.secretPath d with
    | some text => simp
    | none =>
      by_cases htype : plan.mirrorType = .restoreMetadata
      · simp [hd, htype, Option.isSome_iff_ne_none]
      · simp [hd, htype]
  · simp [hd]

theorem metadata_syncedCopy {copy : Held}
    (h : syncedCopy env plan data m d before = some copy) : copy.metadata = some m := by
  unfold syncedCopy at h
  split at h
  · cases h
  split at h
  · obtain ⟨existing, _, rfl⟩ := Option.map_eq_some_iff.mp h
    rfl
  · obtain rfl := Option.some.inj h
    rfl

private theorem copy_of_syncedCopy {copy : Held} (htype : plan.mirrorType ≠ .restoreMetadata)
    (h : syncedCopy env plan data m d before = some copy) : copy = ⟨some data, some m⟩ := by
  unfold syncedCopy at h
  rw [if_neg htype] at h
  split at h
  · cases h
  · exact (Option.some.inj h).symm

section Synced

variable (hpath : L.paths plan.secretPath)

include hpath

private theorem synced_at (env : SweepEnv) (htype : plan.mirrorType ≠ .skip)
    (hdata : L.admits plan.secretPath data) (m : SecretMetadata) (d : String) {s : σ}
    (hs : L.tidy s) :
    (synced c env plan data m d s).map (fun s' => held c s' plan.secretPath) =
      syncedCopy env plan data m d (held c s plan.secretPath) := by
  unfold synced syncedCopy
  by_cases hfail : d ∉ env.devices ∨ (env.targetFault plan.secretPath d).isSome
  · rw [if_pos hfail, if_pos hfail]
    rfl
  · rw [if_neg hfail, if_neg hfail]
    cases hplan : plan.mirrorType with
    | skip => exact absurd hplan htype
    | create => simp [L.held_write hs hpath hdata m]
    | update => simp [L.held_write hs hpath hdata m]
    | restoreMetadata =>
      simp only [if_true, Option.map_map]
      refine Option.map_congr fun existing hexisting => ?_
      exact L.held_write hs hpath (L.admits_held hs hpath hexisting) m

private theorem getD_synced_at (env : SweepEnv) (htype : plan.mirrorType ≠ .skip)
    (hdata : L.admits plan.secretPath data) (m : SecretMetadata) (d : String) {s : σ}
    (hs : L.tidy s) :
    held c ((synced c env plan data m d s).getD s) plan.secretPath =
        (syncedCopy env plan data m d (held c s plan.secretPath)).getD
          (held c s plan.secretPath) ∧
      (synced c env plan data m d s).isSome =
        (syncedCopy env plan data m d (held c s plan.secretPath)).isSome := by
  rw [← synced_at hpath env htype hdata m d hs]
  cases synced c env plan data m d s with
  | none => exact ⟨rfl, rfl⟩
  | some s' => exact ⟨rfl, rfl⟩

end Synced

/-- The metadata of the source as the execution of its plan reads it. -/
def sourceMetadataOf (env : SweepEnv) (plan : SecretMirrorPlan) (before : Holdings) :
    Option SecretMetadata :=
  if env.sourceMetadataFault plan.secretPath then none
  else (before plan.sourceDevice).metadata

/-- The sync metadata the plan writes. -/
def stampOf (env : SweepEnv) (plan : SecretMirrorPlan) (before : Holdings) : SecretMetadata :=
  syncMetadata (env.stampAt plan.secretPath) plan (sourceMetadataOf env plan before)

/-- All a plan can do to the copies of its path, and what it reports. -/
inductive Effect (env : SweepEnv) (plan : SecretMirrorPlan) (before after : Holdings)
    (success : Bool) : Prop
  | idle (type : plan.mirrorType = .skip) (same : after = before) (reported : success = true)
  | blocked (type : plan.mirrorType ≠ .skip) (same : after = before) (reported : success = false)
      (cause : plan.sourceDevice ∈ env.devices → env.sourceFault plan.secretPath = none →
        (before plan.sourceDevice).data ≠ none →
        plan.mirrorType = .restoreMetadata ∧ env.restoreFault plan.secretPath ≠ none)
  | repaired (type : plan.mirrorType ≠ .skip) (sourceData : SecretData)
      (read : (before plan.sourceDevice).data = some sourceData)
      (source : after plan.sourceDevice = before plan.sourceDevice ∨
        plan.mirrorType = .restoreMetadata ∧
          after plan.sourceDevice = ⟨some sourceData, some (stampOf env plan before)⟩)
      (bystanders : ∀ d, d ≠ plan.sourceDevice → d ∉ plan.targetDevices → after d = before d)
      (targets : ∀ d ∈ plan.targetDevices, after d =
        (syncedCopy env plan sourceData (stampOf env plan before) d (before d)).getD (before d))
      (reported : success = true ↔ ∀ d ∈ plan.targetDevices,
        (syncedCopy env plan sourceData (stampOf env plan before) d (before d)).isSome = true)

private theorem readSecretWithMetadata_eq (env : SweepEnv) (plan : SecretMirrorPlan)
    (st : MirrorState σ) (data : SecretData) (m : Option SecretMetadata) :
    readSecretWithMetadata c env st plan.sourceDevice plan.secretPath = .ok (data, m) ↔
      env.sourceFault plan.secretPath = none ∧
        (heldAt c st.cluster plan.secretPath plan.sourceDevice).data = some data ∧
        sourceMetadataOf env plan (heldAt c st.cluster plan.secretPath) = m := by
  rw [heldAt, held_data_eq_some]
  simp only [readSecretWithMetadata, sourceMetadataOf, heldAt, held]
  cases env.sourceFault plan.secretPath with
  | some text => simp
  | none => cases c.readSecret (st.cluster plan.sourceDevice) plan.secretPath <;> simp

section Executed

variable (hpath : L.paths plan.secretPath) (hst : ∀ d, L.tidy (st.cluster d))
  (hnodup : plan.targetDevices.Nodup) (hsource : plan.sourceDevice ∉ plan.targetDevices)

include hpath hst hnodup hsource

theorem effect_executeMirrorPlan (env : SweepEnv) :
    Effect env plan (heldAt c st.cluster plan.secretPath)
      (heldAt c (executeMirrorPlan c env plan st).1.cluster plan.secretPath)
      (executeMirrorPlan c env plan st).2.success := by
  by_cases htype : plan.mirrorType = .skip
  · obtain ⟨hstate, hsuccess⟩ := executeMirrorPlan_of_skip c env st htype
    exact .idle htype (by rw [hstate]) hsuccess
  by_cases hready : ∃ data m, Ready c env plan st data m
  · obtain ⟨data, m, hready⟩ := hready
    obtain ⟨_, hread, rfl⟩ := (readSecretWithMetadata_eq env plan st data m).mp hready.read
    have hdata := L.admits_held (hst plan.sourceDevice) hpath hread
    obtain ⟨hothers, hkept, hsuccess⟩ := executeMirrorPlan_of_ready htype hnodup hsource hready
    refine .repaired htype data hread ?_ ?_ ?_ ?_
    · simp only [heldAt, hkept]
      split
      next hrestore =>
        right
        exact ⟨hrestore.1, L.held_write (hst plan.sourceDevice) hpath hdata _⟩
      next => exact .inl rfl
    · intro d hd htarget
      simp only [heldAt, hothers d hd, if_neg htarget]
    · intro d hd
      simp only [heldAt, hothers d fun heq => hsource (heq ▸ hd), if_pos hd]
      exact (getD_synced_at hpath env htype hdata _ d (hst d)).1
    · rw [hsuccess]
      refine forall₂_congr fun d _ => ?_
      rw [(getD_synced_at hpath env htype hdata _ d (hst d)).2]
      rfl
  · obtain ⟨hstate, hsuccess⟩ := executeMirrorPlan_of_not_ready htype hready
    refine .blocked htype (by rw [hstate]) hsuccess ?_
    intro hmem hfault hreadable
    obtain ⟨data, hdata⟩ := Option.ne_none_iff_exists'.mp hreadable
    have hread := (readSecretWithMetadata_eq env plan st data _).mpr ⟨hfault, hdata, rfl⟩
    by_contra hcause
    refine hready ⟨data, _, hmem, hread, fun hrestore => ?_⟩
    by_contra hne
    exact hcause ⟨hrestore.1, hne⟩

theorem source_of_success (h : (executeMirrorPlan c env plan st).2.success = true) :
    heldAt c (executeMirrorPlan c env plan st).1.cluster plan.secretPath plan.sourceDevice =
      if Restores plan (sourceMetadataOf env plan (heldAt c st.cluster plan.secretPath)) then
        ⟨(heldAt c st.cluster plan.secretPath plan.sourceDevice).data,
          some (stampOf env plan (heldAt c st.cluster plan.secretPath))⟩
      else heldAt c st.cluster plan.secretPath plan.sourceDevice := by
  by_cases htype : plan.mirrorType = .skip
  · have hnot :
        ¬ Restores plan (sourceMetadataOf env plan (heldAt c st.cluster plan.secretPath)) := by
      intro hrestores
      exact absurd (htype.symm.trans hrestores.1) (by decide)
    rw [(executeMirrorPlan_of_skip c env st htype).1, if_neg hnot]
  by_cases hready : ∃ data m, Ready c env plan st data m
  · obtain ⟨data, m, hready⟩ := hready
    obtain ⟨_, hread, rfl⟩ := (readSecretWithMetadata_eq env plan st data m).mp hready.read
    obtain ⟨_, hkept, _⟩ := executeMirrorPlan_of_ready htype hnodup hsource hready
    rw [hread, heldAt, hkept]
    split
    · exact L.held_write (hst plan.sourceDevice) hpath
        (L.admits_held (hst plan.sourceDevice) hpath hread) _
    · rfl
  · rw [(executeMirrorPlan_of_not_ready htype hready).2] at h
    cases h

end Executed

section Device

variable {before after : Holdings} {success : Bool}

theorem Effect.device (h : Effect env plan before after success) (d : String) :
    after d = before d ∨
      plan.mirrorType = .restoreMetadata ∧ (after d).data = (before d).data ∨
      (d ∈ plan.targetDevices ∧ plan.mirrorType ≠ .skip ∧ plan.mirrorType ≠ .restoreMetadata) ∧
        ∃ data, (before plan.sourceDevice).data = some data ∧
          after d = ⟨some data, some (stampOf env plan before)⟩ := by
  cases h with
  | idle _ same _ => exact .inl (congrFun same d)
  | blocked _ same _ _ => exact .inl (congrFun same d)
  | repaired type sourceData read source bystanders targets _ =>
    by_cases htarget : d ∈ plan.targetDevices
    · rw [targets d htarget]
      cases hsync : syncedCopy env plan sourceData (stampOf env plan before) d (before d) with
      | none => exact .inl rfl
      | some copy =>
        rw [Option.getD_some]
        by_cases hrestore : plan.mirrorType = .restoreMetadata
        · exact .inr (.inl ⟨hrestore, by rw [data_syncedCopy hsync, if_pos hrestore]⟩)
        · rw [copy_of_syncedCopy hrestore hsync]
          exact .inr (.inr ⟨⟨htarget, type, hrestore⟩, sourceData, read, rfl⟩)
    · by_cases hsource : d = plan.sourceDevice
      · subst hsource
        rcases source with hsame | ⟨hrestore, hnew⟩
        · exact .inl hsame
        · exact .inr (.inl ⟨hrestore, by rw [hnew, read]⟩)
      · exact .inl (bystanders d hsource htarget)

theorem Effect.data_eq (h : Effect env plan before after success) {d : String}
    (hd : ¬ (d ∈ plan.targetDevices ∧ plan.mirrorType ≠ .skip ∧
      plan.mirrorType ≠ .restoreMetadata)) : (after d).data = (before d).data := by
  rcases h.device d with hsame | ⟨_, hsame⟩ | ⟨htarget, _⟩
  · rw [hsame]
  · exact hsame
  · exact absurd htarget hd

theorem Effect.target_of_success (h : Effect env plan before after true) {d : String}
    (hd : d ∈ plan.targetDevices ∧ plan.mirrorType ≠ .skip ∧ plan.mirrorType ≠ .restoreMetadata) :
    (after d).data = (before plan.sourceDevice).data := by
  obtain ⟨htarget, htype, hrestore⟩ := hd
  cases h with
  | idle type _ _ => exact absurd type htype
  | blocked _ _ reported _ => cases reported
  | repaired _ sourceData read _ _ targets reported =>
    obtain ⟨copy, hcopy⟩ := Option.isSome_iff_exists.mp (reported.mp rfl d htarget)
    rw [targets d htarget, hcopy, Option.getD_some, data_syncedCopy hcopy, if_neg hrestore, read]

end Device

theorem plan_wellFormed {path : String} {entries : List Entry}
    (h : createMirrorPlanForSecret path entries = some plan) :
    plan.targetDevices.Nodup ∧ plan.sourceDevice ∉ plan.targetDevices := by
  rw [createMirrorPlanForSecret_eq] at h
  split at h
  · cases h
  · obtain rfl := Option.some.inj h
    refine ⟨nodup_targetDevices entries, fun hmem => ?_⟩
    exact (mem_targetDevices.mp hmem).1 rfl

theorem mirrorType_ne_skip {path : String} {entries : List Entry}
    (h : createMirrorPlanForSecret path entries = some plan)
    (hd : d ∈ plan.targetDevices) : plan.mirrorType ≠ .skip := by
  rw [createMirrorPlanForSecret_eq] at h
  split at h
  · cases h
  · obtain rfl := Option.some.inj h
    have htargets := List.ne_nil_of_mem hd
    dsimp only at htargets ⊢
    rw [if_neg htargets]
    exact syncType_ne_skip htargets

/-- A sweep does to the copies of a planned path what its plan does. -/
theorem effect_of_planned (hcl : ∀ d, L.tidy (cl d)) (h : planned c env cl p = some plan) :
    ∃ r, (mirrorAllSecrets c env cl).2.secretResults[p]? = some r ∧
      r.sourceDevice = plan.sourceDevice ∧ Effect env plan (heldAt c cl p)
        (heldAt c (mirrorAllSecrets c env cl).1.cluster p) r.success := by
  have hcreate := createMirrorPlan_of_planned h
  obtain ⟨hnodup, hsource⟩ := plan_wellFormed hcreate
  have hpath := secretPath_of_createMirrorPlan hcreate
  obtain ⟨st, hst, hbefore, hafter, hresult⟩ := mirrorAllSecrets_of_planned hcl h
  refine ⟨_, hresult, (executeMirrorPlan_labels _ plan st).2.1, ?_⟩
  have heffect := effect_executeMirrorPlan (hpath ▸ paths_of_planned hcl h) hst hnodup hsource env
  rw [hpath, hbefore.copies, ← hafter.copies] at heffect
  exact heffect

theorem mem_inventory {e : Entry} : e ∈ inventory c env cl p ↔
    e.1 ∈ env.devices ∧ e.2 = deviceState c env cl p e.1 := by
  unfold inventory
  rw [((env.deviceOrder p).perm _).mem_iff, mem_toList_assign_id]

theorem inventory_perm (h : env.devices.Nodup) (cl : String → σ) :
    (inventory c env cl p).Perm
      (env.devices.map fun d => (d, deviceState c env cl p d)) := by
  unfold inventory
  exact ((env.deviceOrder p).perm _).trans (toList_assign_id_perm _ h)

/-- The device answers the inventory's calls for the path. -/
structure Responds (env : SweepEnv) (p d : String) : Prop where
  connected : env.connection d = .connected
  secret : env.readFault p d = none
  metadata : env.metadataFault p d = none

theorem deviceState_of_responds (cl : String → σ) (h : Responds env p d) :
    deviceState c env cl p d = stateOf (env.readAt p d) ((heldAt c cl p d).data)
      (heldAt c cl p d).metadata := by
  simp only [deviceState, h.connected, h.secret, h.metadata, Option.isSome_none,
    Bool.false_eq_true, if_false, heldAt, held]

theorem connected_of_error_eq_none
    (h : (deviceState c env cl p d).error = none) : env.connection d = .connected := by
  cases hconn : env.connection d with
  | connected => rfl
  | clientError text => simp [deviceState, hconn] at h
  | disconnected => simp [deviceState, hconn] at h

theorem deviceState_of_connected (cl : String → σ)
    (h : env.connection d = .connected) : (deviceState c env cl p d).error = none ∧
      ((deviceState c env cl p d).present = true ↔
        env.readFault p d = none ∧ (heldAt c cl p d).data ≠ none) := by
  simp only [deviceState, h]
  cases env.readFault p d with
  | some text => simp [stateOf]
  | none =>
    simp only [Option.isSome_none, Bool.false_eq_true, if_false, true_and, heldAt, held]
    cases (c.readSecret (cl d) p).toOption with
    | none => simp [stateOf]
    | some data => simp [stateOf]

theorem readable_of_present (h : (deviceState c env cl p d).present = true) :
    ∃ data, (heldAt c cl p d).data = some data ∧
      (deviceState c env cl p d).checksum = Plan.calculateChecksum data := by
  cases hconn : env.connection d with
  | clientError text => simp [deviceState, hconn] at h
  | disconnected => simp [deviceState, hconn] at h
  | connected =>
    cases hfault : env.readFault p d with
    | some text => simp [deviceState, hconn, hfault, stateOf] at h
    | none =>
      have hread : deviceState c env cl p d = stateOf (env.readAt p d)
          ((heldAt c cl p d).data) (if (env.metadataFault p d).isSome then none
            else (heldAt c cl p d).metadata) := by
        simp only [deviceState, hconn, hfault, Option.isSome_none, Bool.false_eq_true, if_false,
          heldAt, held]
      rw [hread] at h ⊢
      cases hdata : (heldAt c cl p d).data with
      | none => simp [hdata, stateOf] at h
      | some data => exact ⟨data, rfl, by simp [stateOf]⟩

theorem voters_ne_nil_iff : voters (inventory c env cl p) ≠ [] ↔
    ∃ x ∈ env.devices, env.connection x = .connected ∧ env.readFault p x = none ∧
      (heldAt c cl p x).data ≠ none := by
  constructor
  · intro hne
    obtain ⟨v, hv⟩ := List.exists_mem_of_ne_nil _ hne
    obtain ⟨e, he, herror, hpresent, _⟩ := mem_voters.mp hv
    obtain ⟨hmem, hstate⟩ := mem_inventory.mp he
    rw [hstate] at herror hpresent
    have hconn := connected_of_error_eq_none herror
    exact ⟨e.1, hmem, hconn, (deviceState_of_connected cl hconn).2.mp hpresent⟩
  · intro ⟨x, hmem, hconn, hread⟩
    obtain ⟨herror, hpresent⟩ := deviceState_of_connected cl hconn (p := p)
    exact List.ne_nil_of_mem (mem_voters.mpr
      ⟨(x, deviceState c env cl p x), mem_inventory.mpr ⟨hmem, rfl⟩, herror,
        hpresent.mpr hread, rfl⟩)

theorem source_of_verdict (h : (verdict (inventory c env cl p)).found = true) :
    (verdict (inventory c env cl p)).winningDeviceID ∈ env.devices ∧
      env.connection (verdict (inventory c env cl p)).winningDeviceID = .connected ∧
      ∃ data, (heldAt c cl p (verdict (inventory c env cl p)).winningDeviceID).data =
        some data ∧ Plan.calculateChecksum data =
          (verdict (inventory c env cl p)).winningChecksum := by
  obtain ⟨e, he, herror, hpresent, hid, hchecksum⟩ := exists_source (verdict_found_iff.mp h)
  obtain ⟨hmem, hstate⟩ := mem_inventory.mp he
  rw [hstate] at herror hpresent hchecksum
  obtain ⟨data, hdata, hsum⟩ := readable_of_present hpresent
  rw [← hid]
  exact ⟨hmem, connected_of_error_eq_none herror, data, hdata, hsum.symm.trans hchecksum⟩

/-- The devices that respond to a sweep. -/
def responders (env : SweepEnv) : List String :=
  env.devices.filter fun d => env.connection d = .connected

section Inventory

variable (cl : String → σ) (hresponds : ∀ d ∈ responders env, Responds env p d)

include hresponds

theorem entry_of_responder {d : String} (hd : d ∈ responders env) :
    (d, stateOf (env.readAt p d) ((heldAt c cl p d).data) (heldAt c cl p d).metadata) ∈
      inventory c env cl p :=
  mem_inventory.mpr ⟨(List.mem_filter.mp hd).1, (deviceState_of_responds cl (hresponds d hd)).symm⟩

variable {cl}

theorem responder_of_entry {e : Entry} (he : e ∈ inventory c env cl p)
    (herror : e.2.error = none) : e.1 ∈ responders env ∧ e.2 =
      stateOf (env.readAt p e.1) ((heldAt c cl p e.1).data)
        ((heldAt c cl p e.1).metadata) := by
  obtain ⟨hmem, hstate⟩ := mem_inventory.mp he
  rw [hstate] at herror
  have hd : e.1 ∈ responders env :=
    List.mem_filter.mpr ⟨hmem, decide_eq_true (connected_of_error_eq_none herror)⟩
  exact ⟨hd, hstate.trans (deviceState_of_responds cl (hresponds e.1 hd))⟩

variable (cl)

theorem devicesNeedingSecret_eq_nil : devicesNeedingSecret (inventory c env cl p) = [] ↔
    ∀ d ∈ responders env, (heldAt c cl p d).data ≠ none := by
  rw [List.eq_nil_iff_forall_not_mem]
  constructor
  · intro h d hd hnone
    refine h d (mem_devicesNeedingSecret.mpr ⟨_, entry_of_responder cl hresponds hd, ?_, rfl, ?_⟩)
    · simp [hnone, stateOf]
    · simp [hnone, stateOf]
  · intro h d hd
    obtain ⟨e, he, herror, rfl, hpresent⟩ := mem_devicesNeedingSecret.mp hd
    obtain ⟨hmem, hstate⟩ := responder_of_entry hresponds he herror
    obtain ⟨data, hdata⟩ := Option.ne_none_iff_exists'.mp (h e.1 hmem)
    rw [hstate, hdata] at hpresent
    simp [stateOf] at hpresent

theorem devicesNeedingMetadata_eq_nil :
    devicesNeedingMetadata (inventory c env cl p) = [] ↔
      ∀ d ∈ responders env, (heldAt c cl p d).data ≠ none →
        (versionLabel (heldAt c cl p d).metadata).isSome = true := by
  rw [List.eq_nil_iff_forall_not_mem]
  constructor
  · intro h d hd hsome
    obtain ⟨data, hdata⟩ := Option.ne_none_iff_exists'.mp hsome
    by_contra hversion
    rw [Bool.not_eq_true] at hversion
    refine h d (mem_devicesNeedingMetadata.mpr
      ⟨_, entry_of_responder cl hresponds hd, ?_, rfl, ?_, ?_⟩)
    · simp [hdata, stateOf]
    · simp [hdata, stateOf]
    · simp [hdata, stateOf, hversion]
  · intro h d hd
    obtain ⟨e, he, herror, rfl, hpresent, hmeta⟩ := mem_devicesNeedingMetadata.mp hd
    obtain ⟨hmem, hstate⟩ := responder_of_entry hresponds he herror
    rw [hstate] at hpresent hmeta
    cases hdata : (heldAt c cl p e.1).data with
    | none => simp [hdata, stateOf] at hpresent
    | some data =>
      have hversion := h e.1 hmem (by simp [hdata])
      simp [hdata, stateOf, hversion] at hmeta

variable {cl}

theorem not_target_iff {d : String} (hd : d ∈ responders env)
    (hsource : d ≠ (verdict (inventory c env cl p)).winningDeviceID) :
    d ∉ targetDevices (inventory c env cl p) ↔
      (versionLabel (heldAt c cl p d).metadata).isSome = true ∧
      ∃ data, (heldAt c cl p d).data = some data ∧ Plan.calculateChecksum data =
        (verdict (inventory c env cl p)).winningChecksum := by
  have hentry := entry_of_responder (c := c) cl hresponds hd
  constructor
  · intro htarget
    rw [mem_targetDevices, not_and] at htarget
    have hcomplete := htarget hsource
    push Not at hcomplete
    cases hdata : (heldAt c cl p d).data with
    | none =>
      have hpresent := (hcomplete _ hentry (by simp [hdata, stateOf]) rfl).1
      simp [hdata, stateOf] at hpresent
    | some data =>
      obtain ⟨_, hmetadata, hchecksum⟩ := hcomplete _ hentry (by simp [hdata, stateOf]) rfl
      simp only [hdata, stateOf] at hmetadata hchecksum
      exact ⟨hmetadata, data, rfl, hchecksum⟩
  · rintro ⟨hversion, data, hdata, hchecksum⟩ htarget
    obtain ⟨_, e, he, herror, rfl, hneeds⟩ := mem_targetDevices.mp htarget
    obtain ⟨_, hstate⟩ := responder_of_entry hresponds he herror
    rw [hdata] at hstate
    refine hneeds ?_ ?_ ?_
    · simp [hstate, stateOf]
    · simp [hstate, stateOf, hversion]
    · simp [hstate, stateOf, hchecksum]

end Inventory

theorem planned_eq (h : planned c env cl p = some plan) :
    (verdict (inventory c env cl p)).found = true ∧
      plan.secretPath = p ∧
      plan.sourceDevice = (verdict (inventory c env cl p)).winningDeviceID ∧
      plan.targetDevices = targetDevices (inventory c env cl p) ∧
      plan.mirrorType = if targetDevices (inventory c env cl p) = [] then .skip
        else syncType (inventory c env cl p) := by
  have hcreate := createMirrorPlan_of_planned h
  rw [createMirrorPlanForSecret_eq] at hcreate
  split at hcreate
  · cases hcreate
  next hvoters =>
    obtain rfl := Option.some.inj hcreate
    exact ⟨verdict_found_iff.mpr hvoters, rfl, rfl, rfl, rfl⟩

private theorem wrote_executeMirrorPlan {q : String} {entries : List Entry}
    (hcreate : createMirrorPlanForSecret q entries = some plan)
    (h : Wrote (executeMirrorPlan c env plan st).1 p d) : Wrote st p d ∨ q = p ∧
      env.sourceFault p = none ∧
      (d = plan.sourceDevice ∨ d ∈ plan.targetDevices ∧ env.targetFault p d = none) := by
  have hpath := secretPath_of_createMirrorPlan hcreate
  by_cases htype : plan.mirrorType = .skip
  · rw [(executeMirrorPlan_of_skip c env st htype).1] at h
    exact .inl h
  by_cases hready : ∃ data m, Ready c env plan st data m
  · obtain ⟨data, m, hready⟩ := hready
    by_cases hp : q = p
    · subst hp
      obtain ⟨hnodup, hsource⟩ := plan_wellFormed hcreate
      obtain ⟨hfault, _⟩ := (readSecretWithMetadata_eq env plan st data m).mp hready.read
      rw [hpath] at hfault
      have hwrote := wrote_of_ready htype hnodup hsource hready d
      rw [hpath] at hwrote
      rcases hwrote.mp h with hold | ⟨hd, _⟩ | ⟨htarget, hsynced⟩
      · exact .inl hold
      · exact .inr ⟨rfl, hfault, .inl hd.symm⟩
      · refine .inr ⟨rfl, hfault, .inr ⟨htarget, ?_⟩⟩
        by_contra hfail
        rw [synced, hpath, if_pos (.inr (Option.isSome_iff_ne_none.mpr hfail))] at hsynced
        cases hsynced
    · left
      refine executeMirrorPlan_induct (I := fun st' => Wrote st' p d → Wrote st p d) ?_ id h
      intro _ st' x data m hst' hwrote
      rcases (wrote_writeDevice c).mp hwrote with hold | ⟨hsame, _⟩
      · exact hst' hold
      · exact absurd (hpath.symm.trans hsame) hp
  · rw [(executeMirrorPlan_of_not_ready htype hready).1] at h
    exact .inl h

/-- Whatever the devices do, a sweep writes a path only where its plan says so. -/
theorem planned_of_wrote (h : Wrote (mirrorAllSecrets c env cl).1 p d) :
    ∃ plan, planned c env cl p = some plan ∧ env.sourceFault p = none ∧
      (d = plan.sourceDevice ∨ d ∈ plan.targetDevices ∧ env.targetFault p d = none) := by
  have hdevices : 2 ≤ env.devices.length := by
    by_contra hfew
    rw [mirrorAllSecrets, if_pos (by omega)] at h
    simp [Wrote] at h
  revert h
  refine mirrorAllSecrets_induct_plan (I := fun st => Wrote st p d → _) ?_ (by simp [Wrote])
  intro path hpath plan hcreate st hst hwrote
  rcases wrote_executeMirrorPlan hcreate hwrote with hold | ⟨rfl, hwhere⟩
  · exact hst hold
  · exact ⟨plan, by rw [planned, if_pos ⟨hdevices, hpath⟩, hcreate], hwhere⟩

theorem source_of_planned (hcl : ∀ d, L.tidy (cl d)) (h : planned c env cl p = some plan)
    {r : SecretMirrorResult}
    (hr : (mirrorAllSecrets c env cl).2.secretResults[p]? = some r) (hsuccess : r.success = true) :
    heldAt c (mirrorAllSecrets c env cl).1.cluster p plan.sourceDevice =
      if Restores plan (sourceMetadataOf env plan (heldAt c cl p)) then
        ⟨(heldAt c cl p plan.sourceDevice).data, some (stampOf env plan (heldAt c cl p))⟩
      else heldAt c cl p plan.sourceDevice := by
  have hcreate := createMirrorPlan_of_planned h
  obtain ⟨hnodup, hsource⟩ := plan_wellFormed hcreate
  have hpath := secretPath_of_createMirrorPlan hcreate
  obtain ⟨st, hst, hbefore, hafter, hresult⟩ := mirrorAllSecrets_of_planned hcl h
  obtain rfl : (executeMirrorPlan c env plan st).2 = r :=
    Option.some.inj (hresult.symm.trans hr)
  have hsourceAfter :=
    source_of_success (hpath ▸ paths_of_planned hcl h) hst hnodup hsource hsuccess
  rw [hpath, hbefore.copies, ← hafter.copies] at hsourceAfter
  exact hsourceAfter

private theorem ready_iff {st : MirrorState σ} (hpath : plan.secretPath = p)
    (hmem : plan.sourceDevice ∈ env.devices) (hcopies : heldAt c st.cluster p = heldAt c cl p)
    {x : SecretData} {m : Option SecretMetadata} :
    Ready c env plan st x m ↔ (env.sourceFault p = none ∧
        (heldAt c cl p plan.sourceDevice).data = some x ∧
          sourceMetadataOf env plan (heldAt c cl p) = m) ∧
      (Restores plan m → env.restoreFault p = none) := by
  have hread := readSecretWithMetadata_eq (c := c) env plan st x m
  rw [hpath, hcopies] at hread
  rw [← hread, ← hpath]
  exact ⟨fun h => ⟨h.read, h.restore⟩, fun h => ⟨hmem, h.1, h.2⟩⟩

theorem wrote_of_planned (hcl : ∀ d, L.tidy (cl d)) (h : planned c env cl p = some plan)
    (d : String) :
    Wrote (mirrorAllSecrets c env cl).1 p d ↔ plan.mirrorType ≠ .skip ∧
      env.sourceFault p = none ∧
      (Restores plan (sourceMetadataOf env plan (heldAt c cl p)) → env.restoreFault p = none) ∧
      (plan.sourceDevice = d ∧ Restores plan (sourceMetadataOf env plan (heldAt c cl p)) ∨
        d ∈ plan.targetDevices ∧ env.targetFault p d = none ∧
          (plan.mirrorType = .restoreMetadata → (heldAt c cl p d).data ≠ none)) := by
  obtain ⟨hfound, hpath, hsource, htargets, _⟩ := planned_eq h
  obtain ⟨hmem, _, data, hdata, _⟩ := source_of_verdict hfound
  rw [← hsource] at hmem hdata
  obtain ⟨hnodup, hnotTarget⟩ := plan_wellFormed (createMirrorPlan_of_planned h)
  have hp := paths_of_planned hcl h
  have hadmits := L.admits_held (hcl plan.sourceDevice) hp hdata
  obtain ⟨st, hst, hbefore, hafter, _⟩ := mirrorAllSecrets_of_planned hcl h
  have hnone : ¬ Wrote st p d := by
    rw [hbefore.writes d]
    simp [Wrote]
  rw [hafter.writes d]
  by_cases htype : plan.mirrorType = .skip
  · rw [(executeMirrorPlan_of_skip c env st htype).1]
    simp [hnone, htype]
  have hreadyIff {x : SecretData} {m : Option SecretMetadata} :=
    ready_iff (x := x) (m := m) hpath hmem hbefore.copies
  by_cases hready : env.sourceFault p = none ∧
      (Restores plan (sourceMetadataOf env plan (heldAt c cl p)) → env.restoreFault p = none)
  · have hready' : Ready c env plan st data (sourceMetadataOf env plan (heldAt c cl p)) :=
      hreadyIff.mpr ⟨⟨hready.1, hdata, rfl⟩, hready.2⟩
    have hwrote := wrote_of_ready htype hnodup hnotTarget hready' d
    have hheld : held c (st.cluster d) p = heldAt c cl p d := congrFun hbefore.copies d
    rw [(getD_synced_at (hpath ▸ hp) env htype (hpath ▸ hadmits) _ d (hst d)).2,
      isSome_syncedCopy, hpath, hheld] at hwrote
    rw [hwrote, or_iff_right hnone, and_iff_right htype, and_iff_right hready.1,
      and_iff_right hready.2]
    refine or_congr_right (and_congr_right fun htarget => and_iff_right ?_)
    rw [htargets] at htarget
    obtain ⟨_, e, he, _, rfl, _⟩ := mem_targetDevices.mp htarget
    exact (mem_inventory.mp he).1
  · have hnot : ¬ ∃ x m, Ready c env plan st x m := by
      rintro ⟨x, m, hx⟩
      obtain ⟨⟨hfault, _, rfl⟩, hrestore⟩ := hreadyIff.mp hx
      exact hready ⟨hfault, hrestore⟩
    rw [(executeMirrorPlan_of_not_ready htype hnot).1, iff_false_intro hnone, false_iff]
    rintro ⟨_, hfault, hrestore, _⟩
    exact hready ⟨hfault, hrestore⟩

end HsmSecretsOperator.Mirror.Path
