/- source: internal/mirror/manager.go, internal/reconcile/resolve.go
   digest: Whether repeated sweeps without failures give every copy a sync version. -/

import HsmSecretsOperator.System.Progress

set_option autoImplicit false

namespace HsmSecretsOperator.System.MetadataRepair

open Api.Proxy (Cluster)
open Foundation.Runs Hsm.Layout Hsm.Secret
open Hsm.Pkcs11 (Token client newObjects)
open Mirror.Execution (Restores)
open Mirror.Path Mirror.Plan Mirror.Sweep
open Mirror.Executor (sourceNeedsMetadata)
open Progress (stamped_stampOf)
open Reconcile.Resolve
open Repair (sweep)

/-- The copy carries a sync.version label. -/
def Labelled (held : Held) : Prop :=
  (held.metadata.bind (·.labels["sync.version"]?)).isSome = true

instance (held : Held) : Decidable (Labelled held) := inferInstanceAs (Decidable (_ = true))

section Definitions

variable {σ : Type} (c : Client σ)

def AllLabelled (p : String) (devices : List String) (cl : Cluster σ) : Prop :=
  ∀ d ∈ devices, (heldAt c cl p d).data ≠ none → Labelled (heldAt c cl p d)

/-- A sweep to which exactly the devices respond, and in which nothing fails for the path. -/
structure FailureFree (p : String) (devices : List String) (env : SweepEnv) : Prop where
  responders : (responders env).Perm devices
  listing : ∀ d ∈ devices, env.listFault d = none
  responds : ∀ d ∈ devices, Responds env p d
  source : env.sourceFault p = none
  sourceMetadata : env.sourceMetadataFault p = false
  restore : env.restoreFault p = none
  targets : ∀ d ∈ devices, env.targetFault p d = none

/-- The device whose copy the sweep takes for the authoritative one. -/
def sourceOf (env : SweepEnv) (cl : Cluster σ) (p : String) : String :=
  (verdict (inventory c env cl p)).winningDeviceID

/-- The device holds a versioned copy with the checksum of the copy of `s`. -/
def Complete (p : String) (cl : Cluster σ) (s d : String) : Prop :=
  (versionLabel (heldAt c cl p d).metadata).isSome = true ∧
    ∃ x y, (heldAt c cl p d).data = some x ∧ (heldAt c cl p s).data = some y ∧
      Mirror.Plan.calculateChecksum x = Mirror.Plan.calculateChecksum y

/-- The source has a copy without the label, and some device lacks the secret or all the others are
complete. -/
structure Stalls (p : String) (devices : List String) (cl : Cluster σ) (env : SweepEnv) :
    Prop where
  source_mem : sourceOf c env cl p ∈ devices
  present : (heldAt c cl p (sourceOf c env cl p)).data ≠ none
  unlabelled : ¬ Labelled (heldAt c cl p (sourceOf c env cl p))
  others : (∀ d ∈ devices, (heldAt c cl p d).data ≠ none) →
    ∀ d ∈ devices, d ≠ sourceOf c env cl p → Complete c p cl (sourceOf c env cl p) d

/-- The device alone lacks the label, and all others are complete. -/
structure Alone (p : String) (devices : List String) (s : String) (cl : Cluster σ) :
    Prop where
  mem : s ∈ devices
  present : (heldAt c cl p s).data ≠ none
  unlabelled : ¬ Labelled (heldAt c cl p s)
  others : ∀ d ∈ devices, d ≠ s → Complete c p cl s d

end Definitions

variable {σ : Type} {c : Client σ} {L : Laws c} {p : String} {devices : List String}
  {env : SweepEnv} {cl : Cluster σ}

private theorem labelled_of_version {held : Held}
    (h : (versionLabel held.metadata).isSome = true) : Labelled held := by
  obtain ⟨v, hv⟩ := Option.isSome_iff_exists.mp h
  obtain ⟨text, htext, _⟩ := Option.bind_eq_some_iff.mp hv
  rw [Labelled, htext, Option.isSome_some]

private theorem labelled_of_stampOf {held : Held} {plan : SecretMirrorPlan} {before : Holdings}
    (h : held.metadata = some (stampOf env plan before)) : Labelled held := by
  rw [Labelled, h, Option.bind_some, stampOf, (labels_syncMetadata _ _ _).1, Option.isSome_some]

section Sweep

variable (henv : FailureFree p devices env)

include henv

private theorem responds_of_responder : ∀ d ∈ responders env, Responds env p d :=
  fun d hd => henv.responds d (henv.responders.mem_iff.mp hd)

section Planned

variable {plan : SecretMirrorPlan} (hplan : planned c env cl p = some plan)

include hplan

private theorem source_mem : plan.sourceDevice = sourceOf c env cl p ∧
    plan.sourceDevice ∈ devices ∧ ∃ data, (heldAt c cl p plan.sourceDevice).data = some data ∧
      Mirror.Plan.calculateChecksum data =
        (verdict (inventory c env cl p)).winningChecksum := by
  obtain ⟨hfound, _, hsource, _, _⟩ := planned_eq hplan
  obtain ⟨hdevice, hconnected, hdata⟩ := source_of_verdict hfound
  refine ⟨hsource, ?_, hsource ▸ hdata⟩
  rw [hsource]
  exact henv.responders.mem_iff.mp (List.mem_filter.mpr ⟨hdevice, decide_eq_true hconnected⟩)

private theorem target_mem {d : String} (hd : d ∈ plan.targetDevices) :
    d ∈ devices ∧ d ≠ plan.sourceDevice := by
  obtain ⟨_, _, hsource, htargets, _⟩ := planned_eq hplan
  rw [htargets] at hd
  obtain ⟨hne, e, he, herror, rfl, _⟩ := mem_targetDevices.mp hd
  refine ⟨henv.responders.mem_iff.mp ?_, hsource ▸ hne⟩
  exact (responder_of_entry (responds_of_responder henv) he herror).1

private theorem not_target_iff_complete {d : String} (hd : d ∈ devices)
    (hne : d ≠ plan.sourceDevice) :
    d ∉ plan.targetDevices ↔ Complete c p cl plan.sourceDevice d := by
  obtain ⟨_, _, hsource, htargets, _⟩ := planned_eq hplan
  obtain ⟨_, _, y, hy, hsum⟩ := source_mem henv hplan
  rw [htargets, not_target_iff (responds_of_responder henv) (henv.responders.mem_iff.mpr hd)
    (hsource ▸ hne), Complete]
  refine and_congr_right fun _ => ⟨?_, ?_⟩
  · rintro ⟨x, hx, hchecksum⟩
    exact ⟨x, y, hx, hy, hchecksum.trans hsum.symm⟩
  · rintro ⟨x, y', hx, hy', hchecksum⟩
    rw [hy] at hy'
    obtain rfl := Option.some.inj hy'
    exact ⟨x, hx, hchecksum.trans hsum⟩

private theorem restore_iff : plan.mirrorType = .restoreMetadata ↔ plan.targetDevices ≠ [] ∧
    (∀ d ∈ devices, (heldAt c cl p d).data ≠ none) ∧
      ∃ d ∈ devices, (heldAt c cl p d).data ≠ none ∧
        ¬ (versionLabel (heldAt c cl p d).metadata).isSome = true := by
  obtain ⟨_, _, _, htargets, htype⟩ := planned_eq hplan
  have hresponds := responds_of_responder henv
  have hsecret := devicesNeedingSecret_eq_nil (c := c) cl hresponds
  have hmetadata := devicesNeedingMetadata_eq_nil (c := c) cl hresponds
  simp only [henv.responders.mem_iff] at hsecret hmetadata
  rw [htype, htargets]
  by_cases hnone : targetDevices (inventory c env cl p) = []
  · simp [hnone]
  · rw [if_neg hnone, syncType_eq_restoreMetadata_iff, hsecret, ne_eq, hmetadata]
    simp [hnone]

variable (hcl : ∀ d, L.tidy (cl d))

include hcl

private theorem succeeds : ∃ r, (mirrorAllSecrets c env cl).2.secretResults[p]? = some r ∧
    r.success = true ∧ Effect env plan (heldAt c cl p) (heldAt c (sweep c cl env) p) true := by
  obtain ⟨hfound, hpath, hsource, _, _⟩ := planned_eq hplan
  obtain ⟨_, _, data, hdata, _⟩ := source_mem henv hplan
  obtain ⟨r, hr, _, heffect⟩ := effect_of_planned hcl hplan
  have hsuccess : r.success = true := by
    cases heffect with
    | idle _ _ reported => exact reported
    | blocked _ _ _ cause =>
      have hmem : plan.sourceDevice ∈ env.devices := hsource ▸ (source_of_verdict hfound).1
      have hfault := (cause hmem (hpath ▸ henv.source) (by simp [hdata])).2
      rw [hpath, henv.restore] at hfault
      exact absurd rfl hfault
    | repaired _ _ _ _ _ _ reported =>
      refine reported.mpr fun d hd => isSome_syncedCopy.mpr ?_
      obtain ⟨hmem, _⟩ := target_mem henv hplan hd
      refine ⟨(List.mem_filter.mp (henv.responders.mem_iff.mpr hmem)).1, ?_, fun hrestore => ?_⟩
      · rw [hpath]
        exact henv.targets d hmem
      · exact ((restore_iff henv hplan).mp hrestore).2.1 d hmem
  rw [hsuccess] at heffect
  exact ⟨r, hr, hsuccess, heffect⟩

private theorem target_after {d : String} (hd : d ∈ plan.targetDevices) :
    (heldAt c (sweep c cl env) p d).metadata = some (stampOf env plan (heldAt c cl p)) ∧
      (plan.mirrorType ≠ .restoreMetadata →
        (heldAt c (sweep c cl env) p d).data = (heldAt c cl p plan.sourceDevice).data) := by
  obtain ⟨_, _, _, heffect⟩ := succeeds henv hplan hcl
  cases heffect with
  | idle type _ _ =>
    exact absurd type (mirrorType_ne_skip (createMirrorPlan_of_planned hplan) hd)
  | blocked _ _ reported _ => cases reported
  | repaired _ sourceData read _ _ targets reported =>
    obtain ⟨copy, hcopy⟩ := Option.isSome_iff_exists.mp (reported.mp rfl d hd)
    rw [targets d hd, hcopy, Option.getD_some, data_syncedCopy hcopy]
    exact ⟨metadata_syncedCopy hcopy, fun hrestore => by rw [if_neg hrestore, read]⟩

private theorem bystander_after {d : String} (hd : d ∉ plan.targetDevices)
    (hne : d ≠ plan.sourceDevice) : heldAt c (sweep c cl env) p d = heldAt c cl p d := by
  obtain ⟨_, _, _, heffect⟩ := succeeds henv hplan hcl
  cases heffect with
  | idle _ same _ => exact congrFun same d
  | blocked _ same _ _ => exact congrFun same d
  | repaired _ _ _ _ bystanders _ _ => exact bystanders d hne hd

private theorem source_after : heldAt c (sweep c cl env) p plan.sourceDevice =
    if Restores plan (heldAt c cl p plan.sourceDevice).metadata then
      ⟨(heldAt c cl p plan.sourceDevice).data, some (stampOf env plan (heldAt c cl p))⟩
    else heldAt c cl p plan.sourceDevice := by
  obtain ⟨r, hr, hsuccess, _⟩ := succeeds henv hplan hcl
  have hmetadata : sourceMetadataOf env plan (heldAt c cl p) =
      (heldAt c cl p plan.sourceDevice).metadata := by
    obtain ⟨_, hpath, _, _, _⟩ := planned_eq hplan
    rw [sourceMetadataOf, hpath, henv.sourceMetadata]
    rfl
  rw [← hmetadata]
  exact source_of_planned hcl hplan hr hsuccess

end Planned

private theorem not_restore_of_stalls {plan : SecretMirrorPlan}
    (hplan : planned c env cl p = some plan) (h : Stalls c p devices cl env) :
    plan.mirrorType ≠ .restoreMetadata := by
  intro hrestore
  obtain ⟨htargets, hpresent, _⟩ := (restore_iff henv hplan).mp hrestore
  obtain ⟨d, hd⟩ := List.exists_mem_of_ne_nil _ htargets
  obtain ⟨hmem, hne⟩ := target_mem henv hplan hd
  obtain ⟨hsource, _, _⟩ := source_mem henv hplan
  have hcomplete := h.others hpresent d hmem (hsource ▸ hne)
  rw [← hsource] at hcomplete
  exact (not_target_iff_complete henv hplan hmem hne).mpr hcomplete hd

/-- An unlabelled source that is not restored stalls the sweep. -/
private theorem stalls_of_unlabelled {plan : SecretMirrorPlan}
    (hplan : planned c env cl p = some plan)
    (hunlabelled : ¬ Labelled (heldAt c cl p plan.sourceDevice))
    (hrestores : ¬ Restores plan (heldAt c cl p plan.sourceDevice).metadata) :
    Stalls c p devices cl env := by
  obtain ⟨hsource, hmem, data, hdata, _⟩ := source_mem henv hplan
  have hpresent : (heldAt c cl p plan.sourceDevice).data ≠ none := by simp [hdata]
  refine ⟨hsource ▸ hmem, hsource ▸ hpresent, hsource ▸ hunlabelled, ?_⟩
  intro hheld x hx hne
  by_contra hincomplete
  rw [← hsource] at hne hincomplete
  have hneeds : sourceNeedsMetadata (heldAt c cl p plan.sourceDevice).metadata = true := by
    have hnone := hunlabelled
    rw [Labelled, Bool.not_eq_true, Option.isSome_eq_false_iff, Option.isNone_iff_eq_none] at hnone
    rw [sourceNeedsMetadata, hnone]
    rfl
  refine hrestores ⟨(restore_iff henv hplan).mpr ⟨?_, hheld, ?_⟩, hneeds⟩
  · refine List.ne_nil_of_mem (a := x) ?_
    by_contra hnotTarget
    exact hincomplete ((not_target_iff_complete henv hplan hx hne).mp hnotTarget)
  · exact ⟨plan.sourceDevice, hmem, hpresent,
      fun hversion => hunlabelled (labelled_of_version hversion)⟩

variable (hcl : ∀ d, L.tidy (cl d)) (hp : L.paths p)

include hcl hp

private theorem planned_of_copy (htwo : 2 ≤ devices.length) {d : String} (hd : d ∈ devices)
    (hdata : (heldAt c cl p d).data ≠ none) : ∃ plan, planned c env cl p = some plan := by
  have hresponder := henv.responders.mem_iff.mpr hd
  have hdevice := (List.mem_filter.mp hresponder).1
  have hlength : 2 ≤ env.devices.length := by
    have hle : (responders env).length ≤ env.devices.length := List.length_filter_le _ _
    have heq := henv.responders.length_eq
    omega
  have hlisted : p ∈ discoverAllSecrets c env cl :=
    (mem_discoverAllSecrets_iff hcl).mpr ⟨hp, d, hdevice, henv.listing d hd, hdata⟩
  have hvoters : voters (inventory c env cl p) ≠ [] := by
    obtain ⟨hconnected, hsecret, _⟩ := henv.responds d hd
    exact voters_ne_nil_iff.mpr ⟨d, hdevice, hconnected, hsecret, hdata⟩
  rw [planned, if_pos ⟨hlength, hlisted⟩, createMirrorPlanForSecret_eq, if_neg hvoters]
  exact ⟨_, rfl⟩

variable (htwo : 2 ≤ devices.length)

include htwo

private theorem source_after_of_stalls (h : Stalls c p devices cl env) :
    heldAt c (sweep c cl env) p (sourceOf c env cl p) = heldAt c cl p (sourceOf c env cl p) := by
  obtain ⟨plan, hplan⟩ := planned_of_copy henv hcl hp htwo h.source_mem h.present
  obtain ⟨hsource, _, _⟩ := source_mem henv hplan
  rw [← hsource, source_after henv hplan hcl, if_neg]
  intro hrestores
  exact not_restore_of_stalls henv hplan h hrestores.1

/-- A sweep leaves every copy with the label exactly if it does not stall. -/
theorem allLabelled_sweep_iff :
    AllLabelled c p devices (sweep c cl env) ↔ ¬ Stalls c p devices cl env := by
  constructor
  · intro hall hstalls
    have hkept := source_after_of_stalls henv hcl hp htwo hstalls
    have hlabelled := hall _ hstalls.source_mem (hkept ▸ hstalls.present)
    rw [hkept] at hlabelled
    exact hstalls.unlabelled hlabelled
  · intro hnot d hd hpresent
    cases hplan : planned c env cl p with
    | none =>
      rw [sweep, (mirrorAllSecrets_of_not_planned hcl hp hplan).copies] at hpresent
      obtain ⟨plan, hsome⟩ := planned_of_copy henv hcl hp htwo hd hpresent
      rw [hplan] at hsome
      cases hsome
    | some plan =>
      by_cases htarget : d ∈ plan.targetDevices
      · exact labelled_of_stampOf (target_after henv hplan hcl htarget).1
      by_cases hd' : d = plan.sourceDevice
      · subst hd'
        rw [source_after henv hplan hcl]
        by_cases hrestores : Restores plan (heldAt c cl p plan.sourceDevice).metadata
        · rw [if_pos hrestores]
          exact labelled_of_stampOf rfl
        · rw [if_neg hrestores]
          by_contra hunlabelled
          exact hnot (stalls_of_unlabelled henv hplan hunlabelled hrestores)
      · rw [bystander_after henv hplan hcl htarget hd']
        exact labelled_of_version ((not_target_iff_complete henv hplan hd hd').mp htarget).1

private theorem alone_of_stalls (h : Stalls c p devices cl env) :
    Alone c p devices (sourceOf c env cl p) (sweep c cl env) := by
  have hkept := source_after_of_stalls henv hcl hp htwo h
  refine ⟨h.source_mem, hkept ▸ h.present, hkept ▸ h.unlabelled, fun d hd hne => ?_⟩
  obtain ⟨plan, hplan⟩ := planned_of_copy henv hcl hp htwo h.source_mem h.present
  obtain ⟨hsource, _, data, hdata, _⟩ := source_mem henv hplan
  have hrestore := not_restore_of_stalls henv hplan h
  by_cases htarget : d ∈ plan.targetDevices
  · obtain ⟨hmetadata, hsame⟩ := target_after henv hplan hcl htarget
    rw [Complete, hmetadata, hsame hrestore, hkept, ← hsource, hdata]
    exact ⟨(stamped_stampOf env plan _ none).version, data, data, rfl, rfl, rfl⟩
  · rw [← hsource] at hne
    have hcomplete := (not_target_iff_complete henv hplan hd hne).mp htarget
    rw [hsource] at hcomplete
    rw [Complete, bystander_after henv hplan hcl htarget hne, hkept]
    exact hcomplete

private theorem source_isLeast (hnamed : "" ∉ devices) {s : String} (h : Alone c p devices s cl) :
    IsLeast {d | d ∈ devices} (sourceOf c env cl p) := by
  obtain ⟨content, hcontent⟩ := Option.ne_none_iff_exists'.mp h.present
  obtain ⟨plan, hplan⟩ := planned_of_copy henv hcl hp htwo h.mem h.present
  obtain ⟨hfound, _, _, _, _⟩ := planned_eq hplan
  obtain ⟨hsource, hmem, y, hy, hsum⟩ := source_mem henv hplan
  have hvoters := verdict_found_iff.mp hfound
  -- All copies have the checksum of the one alone, so all devices vote for the winner.
  have hchecksum : ∀ d ∈ devices, ∃ x, (heldAt c cl p d).data = some x ∧
      Mirror.Plan.calculateChecksum x = Mirror.Plan.calculateChecksum content := by
    intro d hd
    by_cases hds : d = s
    · exact ⟨content, hds ▸ hcontent, rfl⟩
    · obtain ⟨_, x, z, hx, hz, hxz⟩ := h.others d hd hds
      rw [hcontent] at hz
      obtain rfl := Option.some.inj hz
      exact ⟨x, hx, hxz⟩
  have hwinning : (verdict (inventory c env cl p)).winningChecksum =
      Mirror.Plan.calculateChecksum content := by
    obtain ⟨x, hx, hxsum⟩ := hchecksum _ hmem
    rw [hy] at hx
    rw [← hsum, Option.some.inj hx, hxsum]
  have hholder : ∀ d ∈ devices, d ∈ holders (voters (inventory c env cl p))
      (verdict (inventory c env cl p)).winningChecksum := by
    intro d hd
    obtain ⟨x, hx, hxsum⟩ := hchecksum d hd
    have hentry := entry_of_responder (c := c) cl (responds_of_responder henv)
      (henv.responders.mem_iff.mpr hd)
    rw [hx] at hentry
    refine mem_holders.mpr ⟨_, mem_voters.mpr ⟨_, hentry, rfl, rfl, rfl⟩,
      deviceID_observationOf _, ?_⟩
    rw [effectiveChecksum_observationOf rfl, hwinning]
    exact hxsum
  have hdevice : ∀ d, d ∈ holders (voters (inventory c env cl p))
      (verdict (inventory c env cl p)).winningChecksum → d ∈ devices := by
    intro d hd
    obtain ⟨v, hv, rfl, _⟩ := mem_holders.mp hd
    obtain ⟨e, he, herror, _, rfl⟩ := mem_voters.mp hv
    rw [deviceID_observationOf]
    exact henv.responders.mem_iff.mp (responder_of_entry (responds_of_responder henv) he herror).1
  have hleast := resolve_winner_isLeast hvoters _ fun hempty => hnamed (hdevice _ hempty)
  refine ⟨hsource ▸ hmem, fun d hd => ?_⟩
  exact hleast.2 (hholder d hd)

private theorem stalls_iff_of_alone (hnamed : "" ∉ devices) {s : String}
    (h : Alone c p devices s cl) :
    Stalls c p devices cl env ↔ ∀ d ∈ devices, s ≤ d := by
  have hleast := source_isLeast henv hcl hp htwo hnamed h
  constructor
  · intro hstalls
    have hsource : sourceOf c env cl p = s := by
      by_contra hne
      exact hstalls.unlabelled (labelled_of_version (h.others _ hstalls.source_mem hne).1)
    rw [← hsource]
    exact fun d hd => hleast.2 hd
  · intro hfirst
    have hsource : sourceOf c env cl p = s := le_antisymm (hleast.2 h.mem) (hfirst _ hleast.1)
    refine ⟨hleast.1, hsource ▸ h.present, hsource ▸ h.unlabelled, fun _ d hd hne => ?_⟩
    rw [hsource] at hne ⊢
    exact h.others d hd hne

/-- Where the device with the least name is the one alone, it stays so. -/
private theorem alone_sweep (hnamed : "" ∉ devices) {s : String} (h : Alone c p devices s cl)
    (hfirst : ∀ d ∈ devices, s ≤ d) :
    Stalls c p devices cl env ∧ Alone c p devices s (sweep c cl env) := by
  have hstalls := (stalls_iff_of_alone henv hcl hp htwo hnamed h).mpr hfirst
  have hleast := source_isLeast henv hcl hp htwo hnamed h
  have hsource : sourceOf c env cl p = s := le_antisymm (hleast.2 h.mem) (hfirst _ hleast.1)
  exact ⟨hstalls, hsource ▸ alone_of_stalls henv hcl hp htwo hstalls⟩

end Sweep

section Sweeps

variable (hp : L.paths p) (htwo : 2 ≤ devices.length)

include hp htwo

private theorem allLabelled_run_iff (hcl : ∀ d, L.tidy (cl d)) (first : SweepEnv)
    (rest : List SweepEnv) (henv : ∀ env ∈ first :: rest, FailureFree p devices env) :
    AllLabelled c p devices (run (sweep c) cl (first :: rest)) ↔
      ¬ Along (sweep c) (Stalls c p devices) cl (first :: rest) := by
  induction rest generalizing cl first with
  | nil =>
    refine (allLabelled_sweep_iff (henv first List.mem_cons_self) hcl hp htwo).trans ?_
    exact not_congr (and_iff_left trivial).symm
  | cons second rest ih =>
    have hfirst := henv first List.mem_cons_self
    have hrest : ∀ env ∈ second :: rest, FailureFree p devices env :=
      fun env hmem => henv env (List.mem_cons_of_mem first hmem)
    have hswept := ih (tidy_mirrorAllSecrets hcl first) second hrest
    rw [run_cons]
    refine hswept.trans ?_
    refine not_congr ⟨fun h => ⟨?_, h⟩, fun h => h.2⟩
    -- A later sweep stalls on a copy without the label, which the first one left.
    by_contra hnot
    have hall := (allLabelled_sweep_iff hfirst hcl hp htwo).mpr hnot
    exact h.1.unlabelled (hall _ h.1.source_mem h.1.present)

/-- Among named devices the first two sweeps decide. -/
private theorem stalls_along_iff (hcl : ∀ d, L.tidy (cl d)) (hnamed : "" ∉ devices)
    {first second : SweepEnv} {rest : List SweepEnv}
    (henv : ∀ env ∈ first :: second :: rest, FailureFree p devices env) :
    Along (sweep c) (Stalls c p devices) cl (first :: second :: rest) ↔
      Stalls c p devices cl first ∧ ∀ d ∈ devices, sourceOf c first cl p ≤ d := by
  refine and_congr_right fun hstalls => ?_
  have hfirst := henv first List.mem_cons_self
  have hlater : ∀ env ∈ second :: rest, FailureFree p devices env :=
    fun env hmem => henv env (List.mem_cons_of_mem first hmem)
  have halone := alone_of_stalls hfirst hcl hp htwo hstalls
  have hcl' : ∀ d, L.tidy (sweep c cl first d) := tidy_mirrorAllSecrets hcl first
  constructor
  · intro h
    exact (stalls_iff_of_alone (hlater _ List.mem_cons_self) hcl' hp htwo hnamed halone).mp h.1
  · intro hleast
    have hfree : Along (sweep c) (fun _ env => FailureFree p devices env) (sweep c cl first)
        (second :: rest) := Along.of_forall fun env hmem _ => hlater env hmem
    refine hfree.of_invariant
      (fun s => (∀ d, L.tidy (s d)) ∧ Alone c p devices (sourceOf c first cl p) s) ?_
      ⟨hcl', halone⟩
    rintro s env ⟨hs, hsalone⟩ henv'
    obtain ⟨hstalls', halone'⟩ := alone_sweep henv' hs hp htwo hnamed hsalone hleast
    exact ⟨⟨tidy_mirrorAllSecrets hs env, halone'⟩, hstalls'⟩

end Sweeps

/-- A plan to skip means that nothing is left to do exactly if it is not the first device alone that
lacks metadata. On tokens that keep to a catalogue, sweeps without failures give every copy a sync
version exactly if not all of them stall; among named devices two or more sweeps do so exactly if
the first does not stall on the first device by name. -/
theorem skip_and_sweeps_iff (entries : List Entry) (secretPath p : String) (devices : List String)
    (cat : Catalogue) (cl : Cluster Token) (first : SweepEnv) (rest : List SweepEnv) :
    ((entries.map Prod.fst).Nodup →
      ((∀ plan, createMirrorPlanForSecret secretPath entries = some plan →
        plan.mirrorType = .skip → InSync entries) ↔ ¬ OnlyFirstLacksMetadata entries)) ∧
    (2 ≤ devices.length → p ∈ cat.paths → (∀ d, Tidy cat (cl d)) →
      (∀ env ∈ first :: rest, FailureFree p devices env) →
        (AllLabelled client p devices (run (sweep client) cl (first :: rest)) ↔
          ¬ Along (sweep client) (Stalls client p devices) cl (first :: rest)) ∧
        ("" ∉ devices → rest ≠ [] →
          (AllLabelled client p devices (run (sweep client) cl (first :: rest)) ↔
            ¬ (Stalls client p devices cl first ∧
              ∀ d ∈ devices, sourceOf client first cl p ≤ d)))) := by
  refine ⟨fun hdistinct => inSync_of_skip_iff hdistinct secretPath, ?_⟩
  intro htwo hp hcl henv
  have hrun := allLabelled_run_iff (L := cat.laws) hp htwo hcl first rest henv
  refine ⟨hrun, fun hnamed hrest => ?_⟩
  cases rest with
  | nil => exact absurd rfl hrest
  | cons second rest => rw [hrun, stalls_along_iff (L := cat.laws) hp htwo hcl hnamed henv]

private def password : SecretData :=
  (∅ : SecretData).insert "password" (Foundation.Text.utf8 "secret")

private def unstampedOn (d : String) : Cluster Token := fun x =>
  if x = d then newObjects "db" password none
  else newObjects "db" password (some (Api.Proxy.stampMetadata none 1 (.ofUnix 1735689600)))

private theorem tidy_unstampedOn (d x : String) : Tidy dbOnly (unstampedOn d x) := by
  unfold unstampedOn
  split
  · decide +kernel
  · decide +kernel

private def sweepAB : SweepEnv := { devices := ["A", "B"], stampAt := fun _ => .ofUnix 1735693200 }

private theorem failureFree_AB : FailureFree "db" ["A", "B"] sweepAB :=
  ⟨.refl _, fun _ _ => rfl, fun _ _ => ⟨rfl, rfl, rfl⟩, rfl, rfl, rfl, fun _ _ => rfl⟩

/-- The plan for the two devices is to skip them, and no sweep ever repairs `A`. -/
theorem skip_leaves_first_unlabelled :
    (planned client sweepAB (unstampedOn "A") "db").map SecretMirrorPlan.mirrorType = some .skip ∧
      (inventory client sweepAB (unstampedOn "A") "db").map (fun e => (e.1, e.2.hasMetadata)) =
        [("A", false), ("B", true)] ∧
      ∀ n, (heldAt client (run (sweep client) (unstampedOn "A") (List.replicate n sweepAB))
          "db" "A").data ≠ none ∧
        ¬ Labelled (heldAt client (run (sweep client) (unstampedOn "A")
          (List.replicate n sweepAB)) "db" "A") := by
  refine ⟨by decide +kernel, by decide +kernel, fun n => ?_⟩
  have hB : Complete client "db" (unstampedOn "A") "A" "B" :=
    ⟨by decide +kernel, password, password, by decide +kernel, by decide +kernel, rfl⟩
  have halone : Alone client "db" ["A", "B"] "A" (unstampedOn "A") := by
    refine ⟨by decide, by decide +kernel, by decide +kernel, fun d hd hne => ?_⟩
    rcases List.mem_pair.mp hd with rfl | rfl
    · exact absurd rfl hne
    · exact hB
  have hfree : Along (sweep client) (fun _ env => env = sweepAB) (unstampedOn "A")
      (List.replicate n sweepAB) :=
    Along.of_forall fun env henv _ => List.eq_of_mem_replicate henv
  have hstep : ∀ s env, ((∀ d, dbOnly.laws.tidy (s d)) ∧ Alone client "db" ["A", "B"] "A" s) →
      env = sweepAB → (∀ d, dbOnly.laws.tidy (sweep client s env d)) ∧
        Alone client "db" ["A", "B"] "A" (sweep client s env) := by
    rintro s env ⟨htidy, hs⟩ rfl
    exact ⟨tidy_mirrorAllSecrets htidy sweepAB, (alone_sweep failureFree_AB htidy
      (by decide : "db" ∈ dbOnly.paths) (by decide) (by decide) hs (by decide)).2⟩
  have hend := (hfree.run_invariant hstep ⟨tidy_unstampedOn "A", halone⟩).2
  exact ⟨hend.present, hend.unlabelled⟩

/-- When it is the second device that lacks metadata, it is repaired. -/
theorem sweeps_label_second :
    (∀ d, Tidy dbOnly (unstampedOn "B" d)) ∧ AllLabelled client "db" ["A", "B"]
      (run (sweep client) (unstampedOn "B") [sweepAB, sweepAB]) := by
  have henv : ∀ env ∈ [sweepAB, sweepAB], FailureFree "db" ["A", "B"] env := by
    intro env hmem
    simp only [List.mem_cons, List.not_mem_nil, or_false, or_self] at hmem
    exact hmem ▸ failureFree_AB
  refine ⟨tidy_unstampedOn "B", (((skip_and_sweeps_iff [] "db" "db" ["A", "B"] dbOnly
    (unstampedOn "B") sweepAB [sweepAB]).2 (by decide) (by decide) (tidy_unstampedOn "B") henv).2
      (by decide) (by decide)).mpr ?_⟩
  rintro ⟨hstalls, _⟩
  have hA : Labelled (heldAt client (unstampedOn "B") "db"
      (sourceOf client sweepAB (unstampedOn "B") "db")) := by decide +kernel
  exact hstalls.unlabelled hA

end HsmSecretsOperator.System.MetadataRepair
