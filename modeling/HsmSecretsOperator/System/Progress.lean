/- source: internal/mirror/manager.go, internal/reconcile/resolve.go
   digest: Sweeps with failing target writes keep the winner, lose no holder and come to rest. -/

import HsmSecretsOperator.System.Repair

set_option autoImplicit false

namespace HsmSecretsOperator.System.Progress

open Api.Proxy (Cluster)
open Mirror.Executor (newVersion)
open Foundation.Decimal Foundation.Election Foundation.Runs Hsm.Layout Hsm.Secret Mirror.Path
  Mirror.Plan Mirror.Sweep Reconcile.Resolve Repair
open Hsm.Pkcs11 (Token client newObjects)

/-- The copy carries a sync version and a sync timestamp that parse. -/
structure Stamped (held : Held) : Prop where
  version : (versionLabel held.metadata).isSome = true
  timestamp : (timestampLabel held.metadata).isSome = true

instance (held : Held) : Decidable (Stamped held) :=
  decidable_of_iff ((versionLabel held.metadata).isSome = true ∧
    (timestampLabel held.metadata).isSome = true) ⟨fun h => ⟨h.1, h.2⟩, fun h => ⟨h.1, h.2⟩⟩

variable {σ : Type} (c : Client σ)

/-- All copies are stamped, and different contents have different checksums. -/
structure WellStamped (p : String) (devices : List String) (cl : Cluster σ) : Prop where
  stamped : ∀ d ∈ devices, (heldAt c cl p d).data ≠ none → Stamped (heldAt c cl p d)
  distinct : ∀ d ∈ devices, ∀ d' ∈ devices, ∀ x y, (heldAt c cl p d).data = some x →
    (heldAt c cl p d').data = some y →
    Mirror.Plan.calculateChecksum x = Mirror.Plan.calculateChecksum y → x = y

/-- A sweep over the devices in which nothing fails for the path but writes to targets. -/
structure OnlyTargetsFail (p : String) (devices : List String) (env : SweepEnv) : Prop where
  available : env.devices.Perm devices
  listing : ∀ d ∈ devices, env.listFault d = none
  responds : ∀ d ∈ devices, Responds env p d
  source : env.sourceFault p = none

def NoTargetFails (p : String) (devices : List String) (env : SweepEnv) : Prop :=
  ∀ d ∈ devices, env.targetFault p d = none

/-- The plan for the path is to skip it, and the sweep writes nothing there. -/
def Rests (p : String) (cl : Cluster σ) (env : SweepEnv) : Prop :=
  (∃ plan, planned c env cl p = some plan ∧ plan.mirrorType = .skip) ∧
    ∀ w ∈ (mirrorAllSecrets c env cl).1.log, w.path ≠ p

/-- What each sweep does about the content. -/
structure Advances (p : String) (devices : List String) (data : SecretData) (cl : Cluster σ)
    (env : SweepEnv) : Prop where
  selects : (verdict (inventory c env cl p)).found = true ∧
    (heldAt c cl p (verdict (inventory c env cl p)).winningDeviceID).data = some data
  keeps : ∀ d ∈ devices, (heldAt c cl p d).data = some data →
    (heldAt c (sweep c cl env) p d).data = some data
  completes : NoTargetFails p devices env → AllHold c p devices data (sweep c cl env)
  rests : AllHold c p devices data cl → Rests c p cl env

/-- What a device contributes to the election; the clock does not matter for stamped copies. -/
def observed (cl : Cluster σ) (p d : String) : DeviceObservation :=
  observationOf (d, stateOf 0 (heldAt c cl p d).data (heldAt c cl p d).metadata)

/-- The content with this checksum is elected. -/
def Elected (p : String) (devices : List String) (cl : Cluster σ) (checksum : String) : Prop :=
  Elects DeviceObservation.effectiveChecksum DeviceObservation.rank devices.length
    (roll DeviceObservation.hasOpinion (observed c cl p) devices) checksum

variable {c} {L : Laws c} {p : String} {devices : List String} {env : SweepEnv} {cl : Cluster σ}
  {data : SecretData}

theorem observed_deviceID (cl : Cluster σ) (p d : String) : (observed c cl p d).deviceID = d :=
  deviceID_observationOf _

theorem observed_of_data {d : String} (h : (heldAt c cl p d).data = some data) :
    (observed c cl p d).hasOpinion = true ∧
      (observed c cl p d).effectiveChecksum = Mirror.Plan.calculateChecksum data := by
  simp [observed, h, stateOf, observationOf, DeviceObservation.hasOpinion,
    DeviceObservation.effectiveChecksum]

theorem data_of_opinion {d : String} (h : (observed c cl p d).hasOpinion = true) :
    ∃ x, (heldAt c cl p d).data = some x := by
  cases hx : (heldAt c cl p d).data with
  | none => simp [observed, hx, stateOf, observationOf, DeviceObservation.hasOpinion] at h
  | some x => exact ⟨x, rfl⟩

theorem rank_injOn_observed (cl : Cluster σ) (p : String) (hnodup : devices.Nodup) :
    Set.InjOn DeviceObservation.rank
      {v | v ∈ roll DeviceObservation.hasOpinion (observed c cl p) devices} := by
  apply rank_injOn
  have hids : (devices.map (observed c cl p)).map DeviceObservation.deviceID = devices := by
    rw [List.map_map]
    exact List.map_id'' (fun d => observed_deviceID cl p d) devices
  have hsub : ((roll DeviceObservation.hasOpinion (observed c cl p) devices).map
      DeviceObservation.deviceID).Sublist devices := by
    have hfilter := (List.filter_sublist (p := DeviceObservation.hasOpinion)
      (l := devices.map (observed c cl p))).map DeviceObservation.deviceID
    rwa [hids] at hfilter
  exact hsub.nodup hnodup

theorem Elected.unique (hnodup : devices.Nodup) {x y : String} (h : Elected c p devices cl x)
    (h' : Elected c p devices cl y) : x = y :=
  Elects.unique (rank_injOn_observed cl p hnodup) length_roll_le h h'

private theorem observationOf_deviceState (hstamped : WellStamped c p devices cl)
    (henv : OnlyTargetsFail p devices env) {d : String} (hd : d ∈ devices) :
    (deviceState c env cl p d).error = none ∧
      observationOf (d, deviceState c env cl p d) = observed c cl p d := by
  rw [deviceState_of_responds _ (henv.responds d hd), observed]
  cases hdata : (heldAt c cl p d).data with
  | none => simp [stateOf, observationOf]
  | some x =>
    have htimestamp := (hstamped.stamped d hd (by simp [hdata])).timestamp
    obtain ⟨t, ht⟩ := Option.isSome_iff_exists.mp htimestamp
    simp [stateOf, observationOf, ht]

private theorem responding_inventory (hnodup : devices.Nodup)
    (hstamped : WellStamped c p devices cl) (henv : OnlyTargetsFail p devices env) :
    (responding (inventory c env cl p)).length = devices.length ∧
      ((responding (inventory c env cl p)).map observationOf).Perm
        (devices.map (observed c cl p)) := by
  have hall : responding (inventory c env cl p) = inventory c env cl p := by
    rw [responding, List.filter_eq_self]
    intro e he
    obtain ⟨hmem, hstate⟩ := mem_inventory.mp he
    rw [hstate, (observationOf_deviceState hstamped henv (henv.available.mem_iff.mp hmem)).1]
    rfl
  have hperm : (inventory c env cl p).Perm
      (devices.map fun d => (d, deviceState c env cl p d)) :=
    (inventory_perm (henv.available.nodup_iff.mpr hnodup) cl).trans (henv.available.map _)
  have hmap : (devices.map fun d => (d, deviceState c env cl p d)).map observationOf =
      devices.map (observed c cl p) := by
    rw [List.map_map]
    exact List.map_congr_left fun d hd => (observationOf_deviceState hstamped henv hd).2
  rw [hall]
  refine ⟨by simpa using hperm.length_eq, ?_⟩
  rw [← hmap]
  exact hperm.map observationOf

theorem elected_verdict (hnodup : devices.Nodup) (hstamped : WellStamped c p devices cl)
    (henv : OnlyTargetsFail p devices env)
    (hsome : ∃ d ∈ devices, (heldAt c cl p d).data ≠ none) :
    (verdict (inventory c env cl p)).found = true ∧
      Elected c p devices cl (verdict (inventory c env cl p)).winningChecksum := by
  obtain ⟨hlength, hperm⟩ := responding_inventory hnodup hstamped henv
  have hvoters : (voters (inventory c env cl p)).Perm
      (roll DeviceObservation.hasOpinion (observed c cl p) devices) := hperm.filter _
  have hne : voters (inventory c env cl p) ≠ [] := by
    obtain ⟨d, hd, hheld⟩ := hsome
    obtain ⟨x, hx⟩ := Option.ne_none_iff_exists'.mp hheld
    have hmem : observed c cl p d ∈ roll DeviceObservation.hasOpinion (observed c cl p) devices :=
      mem_roll.mpr ⟨d, hd, rfl, (observed_of_data hx).1⟩
    exact List.ne_nil_of_mem (hvoters.mem_iff.mpr hmem)
  refine ⟨verdict_found_iff.mpr hne, ?_⟩
  have helects := resolve_elects hne (responding (inventory c env cl p)).length
  rw [hlength] at helects
  have hverdict : verdict (inventory c env cl p) = resolve
      ((responding (inventory c env cl p)).map observationOf) devices.length := by
    rw [verdict, hlength]
  rw [hverdict]
  exact helects.perm hvoters

/-- The content is elected among stamped copies and some device holds it. -/
structure Selected (c : Client σ) (p : String) (devices : List String) (data : SecretData)
    (cl : Cluster σ) : Prop where
  wellStamped : WellStamped c p devices cl
  elected : Elected c p devices cl (Mirror.Plan.calculateChecksum data)
  held : ∃ d ∈ devices, (heldAt c cl p d).data = some data

theorem OnlyTargetsFail.responds_of_responder (henv : OnlyTargetsFail p devices env) :
    ∀ d ∈ responders env, Responds env p d :=
  fun d hd => henv.responds d (henv.available.mem_iff.mp (List.mem_filter.mp hd).1)

theorem stamped_stampOf (env : SweepEnv) (plan : SecretMirrorPlan) (before : Holdings)
    (data : Option SecretData) : Stamped ⟨data, some (stampOf env plan before)⟩ := by
  have hversion : InInt64 (newVersion (sourceMetadataOf env plan before)) := by
    unfold newVersion
    split
    · decide
    · exact inInt64_metadataVersion _
  obtain ⟨hv, ht⟩ := labels_syncMetadata _ plan (sourceMetadataOf env plan before)
  constructor
  · rw [stampOf, versionLabel_of_label hversion hv, Option.isSome_some]
  · rw [stampOf, timestampLabel_of_label ht, Option.isSome_some]

section Step

variable (hnodup : devices.Nodup) (henv : OnlyTargetsFail p devices env)
  (h : Selected c p devices data cl)

include hnodup henv h

theorem selects_of_selected : (verdict (inventory c env cl p)).found = true ∧
    (verdict (inventory c env cl p)).winningChecksum = Mirror.Plan.calculateChecksum data ∧
    (heldAt c cl p (verdict (inventory c env cl p)).winningDeviceID).data = some data := by
  obtain ⟨d, hd, hdata⟩ := h.held
  obtain ⟨hfound, helected⟩ := elected_verdict hnodup h.wellStamped henv ⟨d, hd, by simp [hdata]⟩
  have hwinner := helected.unique hnodup h.elected
  obtain ⟨hmem, _, x, hx, hsum⟩ := source_of_verdict hfound
  have hsame := h.wellStamped.distinct _ (henv.available.mem_iff.mp hmem) d hd x data hx hdata
    (hsum.trans hwinner)
  exact ⟨hfound, hwinner, hsame ▸ hx⟩

section Tidy

variable (hcl : ∀ d, L.tidy (cl d)) (hp : L.paths p)

include hcl hp

theorem planned_of_selected (htwo : 2 ≤ devices.length) :
    ∃ plan, planned c env cl p = some plan := by
  obtain ⟨hfound, _, _⟩ := selects_of_selected hnodup henv h
  obtain ⟨d, hd, hdata⟩ := h.held
  have hlisted : p ∈ discoverAllSecrets c env cl := (mem_discoverAllSecrets_iff hcl).mpr
    ⟨hp, d, henv.available.mem_iff.mpr hd, henv.listing d hd, by simp [hdata]⟩
  have hlength := henv.available.length_eq
  rw [planned, if_pos ⟨by omega, hlisted⟩, createMirrorPlanForSecret_eq,
    if_neg (verdict_found_iff.mp hfound)]
  exact ⟨_, rfl⟩

end Tidy

section Planned

variable {plan : SecretMirrorPlan} {d : String} (hplan : planned c env cl p = some plan)

include hplan

omit hnodup in
private theorem not_restore : plan.mirrorType ≠ .restoreMetadata := by
  have hmetadata : devicesNeedingMetadata (inventory c env cl p) = [] := by
    refine (devicesNeedingMetadata_eq_nil _ henv.responds_of_responder).mpr ?_
    intro d hd hsome
    have hmem := henv.available.mem_iff.mp (List.mem_filter.mp hd).1
    exact (h.wellStamped.stamped d hmem hsome).version
  obtain ⟨_, _, _, _, htype⟩ := planned_eq hplan
  rw [htype]
  split
  · simp
  · intro hrestore
    exact (syncType_eq_restoreMetadata_iff.mp hrestore).2 hmetadata

private theorem not_holder_of_target (hd : d ∈ plan.targetDevices) :
    ¬ ((observed c cl p d).hasOpinion = true ∧
      (observed c cl p d).effectiveChecksum = Mirror.Plan.calculateChecksum data) := by
  rintro ⟨hopinion, hchecksum⟩
  obtain ⟨_, hwinner, _⟩ := selects_of_selected hnodup henv h
  obtain ⟨_, _, _, htargets, _⟩ := planned_eq hplan
  rw [htargets] at hd
  obtain ⟨hsource, e, he, herror, rfl, _⟩ := mem_targetDevices.mp hd
  obtain ⟨hresponder, _⟩ := responder_of_entry henv.responds_of_responder he herror
  obtain ⟨x, hx⟩ := data_of_opinion hopinion
  have hmem := henv.available.mem_iff.mp (List.mem_filter.mp hresponder).1
  rw [(observed_of_data hx).2] at hchecksum
  refine (not_target_iff henv.responds_of_responder hresponder hsource).mpr ⟨?_, x, hx, ?_⟩ hd
  · exact (h.wellStamped.stamped _ hmem (by simp [hx])).version
  · rw [hchecksum, hwinner]

variable (hcl : ∀ d, L.tidy (cl d))

include hcl

theorem held_sweep_cases (d : String) :
    heldAt c (sweep c cl env) p d = heldAt c cl p d ∨
      d ∈ plan.targetDevices ∧ heldAt c (sweep c cl env) p d =
        ⟨some data, some (stampOf env plan (heldAt c cl p))⟩ := by
  have hrestore := not_restore henv h hplan
  obtain ⟨_, _, hdata⟩ := selects_of_selected hnodup henv h
  obtain ⟨_, _, hsource, _, _⟩ := planned_eq hplan
  obtain ⟨r, _, _, heffect⟩ := effect_of_planned hcl hplan
  rcases heffect.device d with hsame | ⟨htype, _⟩ | ⟨htarget, data', hdata', hnew⟩
  · exact .inl hsame
  · exact absurd htype hrestore
  · rw [hsource, hdata] at hdata'
    obtain rfl := Option.some.inj hdata'
    exact .inr ⟨htarget.1, hnew⟩

private theorem stamped_sweep (hd : d ∈ devices)
    (hdata : (heldAt c (sweep c cl env) p d).data ≠ none) :
    Stamped (heldAt c (sweep c cl env) p d) := by
  rcases held_sweep_cases hnodup henv h hplan hcl d with hsame | ⟨_, hnew⟩
  · rw [hsame] at hdata ⊢
    exact h.wellStamped.stamped d hd hdata
  · rw [hnew]
    exact stamped_stampOf env plan _ (some data)

private theorem data_of_held_sweep (hd : d ∈ devices) {x : SecretData}
    (hx : (heldAt c (sweep c cl env) p d).data = some x) :
    ∃ d' ∈ devices, (heldAt c cl p d').data = some x := by
  rcases held_sweep_cases hnodup henv h hplan hcl d with hsame | ⟨_, hnew⟩
  · rw [hsame] at hx
    exact ⟨d, hd, hx⟩
  · rw [hnew] at hx
    obtain rfl := Option.some.inj hx
    exact h.held

private theorem keeps_of_selected (hd : (heldAt c cl p d).data = some data) :
    (heldAt c (sweep c cl env) p d).data = some data := by
  rcases held_sweep_cases hnodup henv h hplan hcl d with hsame | ⟨_, hnew⟩
  · rw [hsame, hd]
  · rw [hnew]

private theorem elected_sweep :
    Elected c p devices (sweep c cl env) (Mirror.Plan.calculateChecksum data) := by
  refine Elects.overwrite (rank_injOn_observed (sweep c cl env) p hnodup) ?_ h.elected
  intro d _
  rcases held_sweep_cases hnodup henv h hplan hcl d with hsame | ⟨htarget, hnew⟩
  · left
    rw [observed, observed, hsame]
  · right
    refine ⟨not_holder_of_target hnodup henv h hplan htarget, ?_⟩
    apply observed_of_data
    rw [hnew]

end Planned

variable (hcl : ∀ d, L.tidy (cl d)) (hp : L.paths p) (htwo : 2 ≤ devices.length)

include hcl hp htwo

/-- The elected content stays elected, whichever writes fail. -/
theorem selected_sweep : Selected c p devices data (sweep c cl env) := by
  obtain ⟨plan, hplan⟩ := planned_of_selected hnodup henv h hcl hp htwo
  refine ⟨⟨?_, ?_⟩, elected_sweep hnodup henv h hplan hcl, ?_⟩
  · intro d hd
    exact stamped_sweep hnodup henv h hplan hcl hd
  · intro d hd d' hd' x y hx hy
    obtain ⟨e, he, hx⟩ := data_of_held_sweep hnodup henv h hplan hcl hd hx
    obtain ⟨e', he', hy⟩ := data_of_held_sweep hnodup henv h hplan hcl hd' hy
    exact h.wellStamped.distinct e he e' he' x y hx hy
  · obtain ⟨d, hd, hdata⟩ := h.held
    exact ⟨d, hd, keeps_of_selected hnodup henv h hplan hcl hdata⟩

theorem completes_of_selected (hall : NoTargetFails p devices env) :
    AllHold c p devices data (sweep c cl env) := by
  obtain ⟨plan, hplan⟩ := planned_of_selected hnodup henv h hcl hp htwo
  have hrestore := not_restore henv h hplan
  obtain ⟨_, _, hdata⟩ := selects_of_selected hnodup henv h
  obtain ⟨hfound, hpath, hsource, htargets, _⟩ := planned_eq hplan
  rw [← hsource] at hdata
  obtain ⟨r, _, _, heffect⟩ := effect_of_planned hcl hplan
  have hmem : plan.sourceDevice ∈ env.devices := hsource ▸ (source_of_verdict hfound).1
  -- Nothing blocks the plan and every sync succeeds, so it reports success.
  have hsuccess : r.success = true := by
    cases heffect with
    | idle _ _ reported => exact reported
    | blocked _ _ _ cause =>
      exact absurd (cause hmem (hpath ▸ henv.source) (by simp [hdata])).1 hrestore
    | repaired _ _ _ _ _ _ reported =>
      refine reported.mpr fun d hd => ?_
      rw [htargets] at hd
      obtain ⟨_, e, he, _, rfl, _⟩ := mem_targetDevices.mp hd
      have hdevice := (mem_inventory.mp he).1
      have hfault := hall e.1 (henv.available.mem_iff.mp hdevice)
      simp [syncedCopy, hdevice, hpath, hfault, hrestore]
  rw [hsuccess] at heffect
  have hrepaired := agree_of_repairable henv.responds_of_responder hplan heffect hdata
    (.inr (.inl ?_)) ?_
  · intro d hd
    have hd' := henv.available.mem_iff.mpr hd
    exact hrepaired d (List.mem_filter.mpr ⟨hd', decide_eq_true (henv.responds d hd).connected⟩)
  · intro d hd hsome
    have hmem := henv.available.mem_iff.mp (List.mem_filter.mp hd).1
    exact (h.wellStamped.stamped d hmem hsome).version
  · intro d hd _ x y hx hy
    exact h.wellStamped.distinct d (henv.available.mem_iff.mp (List.mem_filter.mp hd).1) _
      (henv.available.mem_iff.mp (source_of_verdict hfound).1) x y hx hy

theorem rests_of_selected (hall : AllHold c p devices data cl) :
    Rests c p cl env := by
  obtain ⟨plan, hplan⟩ := planned_of_selected hnodup henv h hcl hp htwo
  obtain ⟨_, _, _, htargets, htype⟩ := planned_eq hplan
  have hnone : targetDevices (inventory c env cl p) = [] := by
    rw [List.eq_nil_iff_forall_not_mem]
    intro d hd
    rw [← htargets] at hd
    refine not_holder_of_target hnodup henv h hplan hd (observed_of_data (hall d ?_))
    rw [htargets] at hd
    obtain ⟨_, e, he, _, rfl, _⟩ := mem_targetDevices.mp hd
    exact henv.available.mem_iff.mp (mem_inventory.mp he).1
  rw [if_pos hnone] at htype
  refine ⟨⟨plan, hplan, htype⟩, ?_⟩
  refine mirrorAllSecrets_induct (I := fun st => ∀ w ∈ st.log, w.path ≠ p) ?_ (by simp)
  intro path hpath plan' hplan' hactive st d x m hst w hw
  simp only [writeDevice, List.mem_append, List.mem_singleton] at hw
  rcases hw with hw | rfl
  · exact hst w hw
  · rintro rfl
    have hlength := henv.available.length_eq
    have hsame : planned c env cl path = some plan' := by
      rw [planned, if_pos ⟨by omega, hpath⟩, hplan']
    rw [hplan] at hsame
    exact hactive (Option.some.inj hsame ▸ htype)

end Step

theorem exists_selected (hstamped : WellStamped c p devices cl)
    (hsome : ∃ d ∈ devices, (heldAt c cl p d).data ≠ none) :
    ∃ data, Selected c p devices data cl := by
  obtain ⟨d, hd, hheld⟩ := hsome
  obtain ⟨x, hx⟩ := Option.ne_none_iff_exists'.mp hheld
  have hvoter : observed c cl p d ∈ roll DeviceObservation.hasOpinion (observed c cl p) devices :=
    mem_roll.mpr ⟨d, hd, rfl, (observed_of_data hx).1⟩
  obtain ⟨checksum, helects⟩ := exists_elects DeviceObservation.effectiveChecksum
    DeviceObservation.rank devices.length (List.ne_nil_of_mem hvoter)
  obtain ⟨v, hv, rfl⟩ := helects.exists_voter
  obtain ⟨d', hd', rfl, hopinion⟩ := mem_roll.mp hv
  obtain ⟨data, hdata⟩ := data_of_opinion hopinion
  rw [(observed_of_data hdata).2] at helects
  exact ⟨data, hstamped, helects, d', hd', hdata⟩

private theorem advances_of_selected (hcl : ∀ d, L.tidy (cl d)) (hp : L.paths p)
    (hnodup : devices.Nodup) (htwo : 2 ≤ devices.length) (henv : OnlyTargetsFail p devices env)
    (h : Selected c p devices data cl) : Advances c p devices data cl env := by
  obtain ⟨plan, hplan⟩ := planned_of_selected hnodup henv h hcl hp htwo
  obtain ⟨hfound, _, hdata⟩ := selects_of_selected hnodup henv h
  exact
    { selects := ⟨hfound, hdata⟩
      keeps := fun d _ hd => keeps_of_selected hnodup henv h hplan hcl hd
      completes := completes_of_selected hnodup henv h hcl hp htwo
      rests := rests_of_selected hnodup henv h hcl hp htwo }

/-- On tokens that keep to a catalogue, however target writes fail, every sweep resolves to the
same content and loses no holder of it, a sweep without a failed write gives it to all devices, and
all later sweeps rest. -/
theorem sweeps_advance (cat : Catalogue) (p : String) (hp : p ∈ cat.paths) (devices : List String)
    (hnodup : devices.Nodup) (htwo : 2 ≤ devices.length) (cl : Cluster Token)
    (hcl : ∀ d, Tidy cat (cl d)) (hstamped : WellStamped client p devices cl)
    (hsome : ∃ d ∈ devices, (heldAt client cl p d).data ≠ none) (sweeps : List SweepEnv)
    (henv : ∀ env ∈ sweeps, OnlyTargetsFail p devices env) :
    ∃ data, Along (sweep client) (Advances client p devices data) cl sweeps ∧
      ∀ before env after, sweeps = before ++ env :: after → NoTargetFails p devices env →
        AllHold client p devices data (run (sweep client) cl (before ++ [env])) ∧
          Along (sweep client) (Rests client p) (run (sweep client) cl (before ++ [env]))
            after := by
  obtain ⟨data, hselected⟩ := exists_selected hstamped hsome
  have halong : Along (sweep client) (Advances client p devices data) cl sweeps := by
    have hfaults : Along (sweep client) (fun _ env => OnlyTargetsFail p devices env) cl sweeps :=
      Along.of_forall fun env hmem _ => henv env hmem
    refine hfaults.of_invariant
      (fun s => (∀ d, cat.laws.tidy (s d)) ∧ Selected client p devices data s) ?_ ⟨hcl, hselected⟩
    rintro s env ⟨htidy, hs⟩ hfail
    exact ⟨⟨tidy_mirrorAllSecrets htidy env, selected_sweep hnodup hfail hs htidy hp htwo⟩,
      advances_of_selected htidy hp hnodup htwo hfail hs⟩
  refine ⟨data, halong, ?_⟩
  rintro before env after rfl hall
  obtain ⟨_, hstep, hafter⟩ := Along.append_iff.mp halong
  rw [run_append]
  refine ⟨hstep.completes hall, ?_⟩
  refine hafter.of_invariant (AllHold client p devices data) ?_ (hstep.completes hall)
  intro s env' hs hadvances
  exact ⟨fun d hd => hadvances.keeps d hd (hs d hd), hadvances.rests hs⟩

private def midnight : Foundation.Rfc3339.Instant := .ofUnix 1735689600

private def password (text : String) : SecretData :=
  (∅ : SecretData).insert "password" (Foundation.Text.utf8 text)

private def written (path text : String) (version : Int) : Token :=
  newObjects path (password text) (some (Api.Proxy.stampMetadata none version midnight))

private def sweepAB (failing : String → Option String) : SweepEnv :=
  { devices := ["A", "B"], stampAt := fun _ => midnight, targetFault := fun _ d => failing d }

private theorem onlyTargetsFail_AB (failing : String → Option String) :
    OnlyTargetsFail "db" ["A", "B"] (sweepAB failing) :=
  ⟨.refl _, fun _ _ => rfl, fun _ _ => ⟨rfl, rfl, rfl⟩, rfl⟩

/-- Both devices hold the secret, and one of them also holds a secret whose path is a prefix. -/
private def nested : Cluster Token := fun d =>
  if d = "A" then written "d" "y" 1 ++ written "db" "x" 1 else written "db" "x" 1

/-- The repair of `d` deletes what the second device holds at `db`, and the sweep reports success
for both paths. -/
theorem nested_path_loses_copy :
    (∀ d ∈ ["A", "B"], (heldAt client nested "db" d).data = some (password "x") ∧
        Stamped (heldAt client nested "db" d)) ∧
      OnlyTargetsFail "db" ["A", "B"] (sweepAB fun _ => none) ∧
      NoTargetFails "db" ["A", "B"] (sweepAB fun _ => none) ∧
      (mirrorAllSecrets client (sweepAB fun _ => none) nested).2.success = true ∧
      (heldAt client (sweep client nested (sweepAB fun _ => none)) "db" "B").data = none := by
  refine ⟨by decide +kernel, onlyTargetsFail_AB _, fun _ _ => rfl, ?_⟩
  decide +kernel

private def devicesAB : Cluster Token := fun d =>
  if d = "A" then written "db" "old" 1 else written "db" "new" 2

private theorem wellStamped_AB : WellStamped client "db" ["A", "B"] devicesAB := by
  have hdata : (heldAt client devicesAB "db" "A").data = some (password "old") ∧
      (heldAt client devicesAB "db" "B").data = some (password "new") := by decide +kernel
  have hne : Mirror.Plan.calculateChecksum (password "old") ≠
      Mirror.Plan.calculateChecksum (password "new") := by decide +kernel
  constructor
  · intro d hd _
    rw [List.mem_pair] at hd
    rcases hd with rfl | rfl
    · decide +kernel
    · decide +kernel
  · intro d hd d' hd' x y hx hy hsum
    rw [List.mem_pair] at hd hd'
    rcases hd with rfl | rfl <;> rcases hd' with rfl | rfl
    · exact Option.some.inj (hx.symm.trans hy)
    · rw [hdata.1] at hx
      rw [hdata.2] at hy
      obtain rfl := Option.some.inj hx
      obtain rfl := Option.some.inj hy
      exact absurd hsum hne
    · rw [hdata.2] at hx
      rw [hdata.1] at hy
      obtain rfl := Option.some.inj hx
      obtain rfl := Option.some.inj hy
      exact absurd hsum.symm hne
    · exact Option.some.inj (hx.symm.trans hy)

theorem sweeps_advance_AB :
    (∀ d, Tidy dbOnly (devicesAB d)) ∧
      ∃ data, Along (sweep client) (Advances client "db" ["A", "B"] data) devicesAB
          [sweepAB fun _ => some "device busy", sweepAB fun _ => none, sweepAB fun _ => none] ∧
        ∀ before env after, [sweepAB fun _ => some "device busy", sweepAB fun _ => none,
            sweepAB fun _ => none] = before ++ env :: after → NoTargetFails "db" ["A", "B"] env →
          AllHold client "db" ["A", "B"] data (run (sweep client) devicesAB (before ++ [env])) ∧
            Along (sweep client) (Rests client "db")
              (run (sweep client) devicesAB (before ++ [env])) after := by
  have htidy : ∀ d, Tidy dbOnly (devicesAB d) := by
    intro d
    unfold devicesAB
    split
    · decide +kernel
    · decide +kernel
  refine ⟨htidy, sweeps_advance dbOnly "db" (by decide) ["A", "B"] (by decide) (by decide) devicesAB
    htidy wellStamped_AB ⟨"A", by decide, by decide +kernel⟩ _ ?_⟩
  intro env henv
  simp only [List.mem_cons, List.not_mem_nil, or_false] at henv
  rcases henv with rfl | rfl | rfl
  · exact onlyTargetsFail_AB _
  · exact onlyTargetsFail_AB _
  · exact onlyTargetsFail_AB _

end HsmSecretsOperator.System.Progress
