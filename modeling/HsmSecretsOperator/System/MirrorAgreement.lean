/- source: internal/mirror/manager.go, internal/controller/hsmsecret_controller.go,
     internal/reconcile/resolve.go
   digest: When the mirror propagates the content that the controller resolves. -/

import HsmSecretsOperator.System.Agreement

/-! A copy marked as deleted votes for its data in the planner, and one without a timestamp counts
    as of now. -/

set_option autoImplicit false

namespace HsmSecretsOperator.System.MirrorAgreement

open Agreement
open Api.Proxy (Cluster calculateChecksum_ne_tombstone)
open Controller.HsmSecret Foundation.Election Hsm.Secret Mirror.Path Mirror.Plan Mirror.Sweep
  Reconcile.Resolve
open Hsm.Pkcs11 (Token client)

/-- The sweep and the controller meet the same distinct devices and agents. -/
structure SameAgents (env : SweepEnv) (agents : Agents) (p : String) : Prop where
  nodup : env.devices.Nodup
  connection : ∀ d ∈ env.devices, env.connection d = .connected ↔ agents.reach d = .reachable
  listing : ∀ d ∈ env.devices, agents.reach d = .reachable → env.listFault d = none
  responds : ∀ d ∈ responders env, Responds env p d

section Definitions

variable {σ : Type} (c : Client σ)

/-- If the sweep plans a write of the path, its source holds what the controller applies. -/
def MirrorAgrees (env : SweepEnv) (agents : Agents) (cl : Cluster σ) (p : String) : Prop :=
  ∀ plan, planned c env cl p = some plan → plan.mirrorType ≠ .skip →
    applied (reconcile c cl p (env.devices.map (deviceOf agents))) =
      (heldAt c cl p plan.sourceDevice).data

/-- The device responds with a copy that has the mirror's checksum. -/
def Holds (env : SweepEnv) (cl : Cluster σ) (p checksum d : String) : Prop :=
  d ∈ responders env ∧
    ∃ data, (heldAt c cl p d).data = some data ∧ Mirror.Plan.calculateChecksum data = checksum

def Unmarked (cl : Cluster σ) (p d : String) : Prop :=
  metadataDeleted (heldAt c cl p d).metadata = false

/-- What the planner sees of a responding device. -/
def seen (env : SweepEnv) (cl : Cluster σ) (p d : String) : DeviceObservation :=
  observationOf (d, stateOf (env.readAt p d) ((heldAt c cl p d).data)
    (heldAt c cl p d).metadata)

/-- The votes of the planner's poll. -/
def mirrorBallots (env : SweepEnv) (cl : Cluster σ) (p : String) : List DeviceObservation :=
  roll DeviceObservation.hasOpinion (seen c env cl p) (responders env)

/-- The content has a majority among the devices of the list. -/
def ControllerMajority (env : SweepEnv) (agents : Agents) (cl : Cluster σ)
    (p value : String) : Prop :=
  Prevails DeviceObservation.effectiveChecksum env.devices.length
    (ballots c agents cl p env.devices) value

/-- The content has a majority among the responding devices. -/
def MirrorMajority (env : SweepEnv) (cl : Cluster σ) (p checksum : String) : Prop :=
  Prevails DeviceObservation.effectiveChecksum (responders env).length (mirrorBallots c env cl p)
    checksum

/-- The controller's name for a content, given the mirror's. -/
def tagged (checksum : String) : String := "sha256:" ++ checksum

/-- The lowest device with the content and the lowest one not marked as deleted hold the same
data; only contents with colliding checksums can differ. -/
def SameData (env : SweepEnv) (cl : Cluster σ) (p checksum : String) : Prop :=
  ∀ d d', IsLeast {x | Holds c env cl p checksum x} d →
    IsLeast {x | Holds c env cl p checksum x ∧ Unmarked c cl p x} d' →
      (heldAt c cl p d).data = (heldAt c cl p d').data

/-- The planner has nothing to do: one device, no copy that responds, or one content everywhere
with a sync version on all devices but the lowest. -/
def NothingPlanned (env : SweepEnv) (cl : Cluster σ) (p : String) : Prop :=
  env.devices.length < 2 ∨ (∀ d ∈ responders env, (heldAt c cl p d).data = none) ∨
    ∃ checksum first, IsLeast {x | x ∈ responders env} first ∧ ∀ d ∈ responders env,
      Holds c env cl p checksum d ∧
        (d ≠ first → (versionLabel (heldAt c cl p d).metadata).isSome = true)

/-- The content wins both polls: by a majority of all the devices, or as the newest copy where
there is none, if it then also has a majority of the responding devices or is newest there. -/
def WinsBoth (env : SweepEnv) (agents : Agents) (cl : Cluster σ) (p checksum : String) :
    Prop :=
  ControllerMajority c env agents cl p (tagged checksum) ∨
    (∀ value, ¬ ControllerMajority c env agents cl p value) ∧
      (∃ newest, Newest DeviceObservation.rank (ballots c agents cl p env.devices) newest ∧
        newest.effectiveChecksum = tagged checksum) ∧
      (MirrorMajority c env cl p checksum ∨
        (∀ other, ¬ MirrorMajority c env cl p other) ∧
          ∃ newest, Newest DeviceObservation.rank (mirrorBallots c env cl p) newest ∧
            newest.effectiveChecksum = checksum)

end Definitions

section Planner

variable {σ : Type} (c : Client σ) (env : SweepEnv) (cl : Cluster σ) (p : String)

private theorem deviceID_seen (d : String) : (seen c env cl p d).deviceID = d :=
  deviceID_observationOf _

private theorem seen_of_data {d : String} {data : SecretData}
    (h : (heldAt c cl p d).data = some data) : (seen c env cl p d).hasOpinion = true ∧
      (seen c env cl p d).effectiveChecksum = Mirror.Plan.calculateChecksum data := by
  simp [seen, h, stateOf, observationOf, DeviceObservation.hasOpinion,
    DeviceObservation.effectiveChecksum]

private theorem mem_holders_mirrorBallots {checksum d : String} :
    d ∈ holders (mirrorBallots c env cl p) checksum ↔ Holds c env cl p checksum d := by
  rw [mem_holders]
  constructor
  · rintro ⟨v, hv, hid, hsum⟩
    obtain ⟨d', hd', rfl, hopinion⟩ := mem_roll.mp hv
    rw [deviceID_seen] at hid
    subst hid
    cases hread : (heldAt c cl p d').data with
    | none => simp [seen, hread, stateOf, observationOf, DeviceObservation.hasOpinion] at hopinion
    | some data => exact ⟨hd', data, hread, (seen_of_data c env cl p hread).2.symm.trans hsum⟩
  · rintro ⟨hd, data, hdata, hsum⟩
    obtain ⟨hopinion, hvalue⟩ := seen_of_data c env cl p hdata
    exact ⟨_, mem_roll.mpr ⟨d, hd, rfl, hopinion⟩, deviceID_seen c env cl p d, hvalue.trans hsum⟩

private theorem rank_injOn_mirrorBallots :
    Set.InjOn DeviceObservation.rank {v | v ∈ mirrorBallots c env cl p} := by
  apply rank_injOn_of_deviceID
  intro v hv w hw hid
  obtain ⟨d, _, rfl, _⟩ := mem_roll.mp hv
  obtain ⟨d', _, rfl, _⟩ := mem_roll.mp hw
  rw [deviceID_seen, deviceID_seen] at hid
  rw [hid]

variable {c env cl p} {agents : Agents} (h : SameAgents env agents p)

include h

private theorem unnamed_not_responder : "" ∉ responders env := by
  intro hmem
  obtain ⟨hdevice, hconnected⟩ := List.mem_filter.mp hmem
  have hreach := (h.connection "" hdevice).mp (of_decide_eq_true hconnected)
  rw [agents.unnamed] at hreach
  cases hreach

private theorem poll_perm (cl : Cluster σ) :
    ((responding (inventory c env cl p)).map observationOf).Perm
      ((responders env).map (seen c env cl p)) := by
  have hresponding : ((env.devices.map fun d => (d, deviceState c env cl p d)).filter
      fun e => e.2.error.isNone) =
        (responders env).map fun d => (d, deviceState c env cl p d) := by
    rw [List.filter_map, responders]
    congr 1
    refine List.filter_congr fun d _ => ?_
    rw [Bool.eq_iff_iff, Function.comp_apply, Option.isNone_iff_eq_none, decide_eq_true_eq]
    exact ⟨connected_of_error_eq_none, fun hconn => (deviceState_of_connected cl hconn).1⟩
  have hperm := ((inventory_perm (c := c) h.nodup cl (p := p)).filter fun e => e.2.error.isNone).map
    observationOf
  rw [hresponding, List.map_map] at hperm
  have hseen : (responders env).map
      (observationOf ∘ fun d => (d, deviceState c env cl p d)) =
        (responders env).map (seen c env cl p) := by
    refine List.map_congr_left fun d hd => ?_
    rw [Function.comp_apply, deviceState_of_responds cl (h.responds d hd), seen]
  rwa [hseen] at hperm

private theorem voters_perm :
    (voters (inventory c env cl p)).Perm (mirrorBallots c env cl p) :=
  (poll_perm h cl).filter _

private theorem verdict_inventory (hfound : (verdict (inventory c env cl p)).found = true) :
    Elects DeviceObservation.effectiveChecksum DeviceObservation.rank (responders env).length
        (mirrorBallots c env cl p) (verdict (inventory c env cl p)).winningChecksum ∧
      IsLeast {x | Holds c env cl p (verdict (inventory c env cl p)).winningChecksum x}
        (verdict (inventory c env cl p)).winningDeviceID := by
  have hlength : (responding (inventory c env cl p)).length = (responders env).length := by
    simpa using (poll_perm h cl).length_eq
  have hvoters := Mirror.Plan.verdict_found_iff.mp hfound
  have hholds (checksum x : String) : x ∈ holders (voters (inventory c env cl p)) checksum ↔
      Holds c env cl p checksum x := by
    rw [← mem_holders_mirrorBallots]
    exact (((voters_perm h).filter _).map _).mem_iff
  constructor
  · rw [← hlength]
    exact (resolve_elects hvoters _).perm (voters_perm h)
  · have hnamed : "" ∉ holders (voters (inventory c env cl p))
        (verdict (inventory c env cl p)).winningChecksum := by
      rw [hholds]
      exact fun hmem => unnamed_not_responder h hmem.1
    have hleast : IsLeast {x | x ∈ holders (voters (inventory c env cl p))
        (verdict (inventory c env cl p)).winningChecksum}
          (verdict (inventory c env cl p)).winningDeviceID :=
      resolve_winner_isLeast hvoters _ hnamed
    simpa only [hholds] using hleast

end Planner

section Controller

variable {σ : Type} {c : Client σ} {env : SweepEnv} {agents : Agents} {cl : Cluster σ} {p : String}

private theorem calculateChecksum_eq_tagged (data : SecretData) :
    Hsm.Secret.calculateChecksum data = tagged (Mirror.Plan.calculateChecksum data) := by
  rw [Hsm.Secret.calculateChecksum_eq, Mirror.Plan.calculateChecksum_eq, tagged]

private theorem tagged_inj {checksum other : String} (h : tagged checksum = tagged other) :
    checksum = other :=
  String.append_right_inj _ |>.mp h

private theorem tagged_ne_tombstone (checksum : String) : tagged checksum ≠ tombstoneChecksum := by
  intro h
  have hlist := congrArg String.toList h
  simp [tagged, tombstoneChecksum] at hlist

private theorem effectiveChecksum_observation (r : DeviceRead) (d : String) :
    (r.observation d).effectiveChecksum = if metadataDeleted r.metadata then tombstoneChecksum
      else tagged (Mirror.Plan.calculateChecksum r.data) := by
  rw [← calculateChecksum_eq_tagged]
  rfl

private theorem readOf_eq_some {d : String} {r : DeviceRead} : readOf c agents cl p d = some r ↔
    agents.reach d = .reachable ∧ (heldAt c cl p d).data = some r.data ∧
      (heldAt c cl p d).metadata = r.metadata := by
  obtain ⟨data, m⟩ := r
  unfold readOf
  split
  next hreach => simp [hreach]
  next hreach => simp [hreach]

private theorem map_data_readOf {d : String} (hreach : agents.reach d = .reachable) :
    (readOf c agents cl p d).map DeviceRead.data = (heldAt c cl p d).data := by
  rw [readOf, if_pos hreach, Option.map_map]
  exact Option.map_id'

variable (h : SameAgents env agents p)

include h

private theorem mem_responders_iff {d : String} :
    d ∈ responders env ↔ d ∈ env.devices ∧ agents.reach d = .reachable := by
  rw [responders, List.mem_filter, decide_eq_true_eq]
  exact and_congr_right fun hd => h.connection d hd

private theorem mem_holders_ballots {checksum d : String} :
    d ∈ holders (ballots c agents cl p env.devices) (tagged checksum) ↔
      Holds c env cl p checksum d ∧ Unmarked c cl p d := by
  rw [mem_holders]
  constructor
  · intro ⟨v, hv, hid, hsum⟩
    obtain ⟨d', hd', r, hr, rfl⟩ := mem_ballots.mp hv
    have hsame : d' = d := hid
    subst hsame
    obtain ⟨hreach, hdata, hmeta⟩ := readOf_eq_some.mp hr
    rw [effectiveChecksum_observation] at hsum
    split at hsum
    · exact absurd hsum.symm (tagged_ne_tombstone checksum)
    next hlive =>
      refine ⟨⟨(mem_responders_iff h).mpr ⟨hd', hreach⟩, r.data, hdata, tagged_inj hsum⟩, ?_⟩
      rw [Unmarked, hmeta]
      exact Bool.eq_false_iff.mpr hlive
  · intro ⟨⟨hd, data, hdata, hsum⟩, hunmarked⟩
    obtain ⟨hdevice, hreach⟩ := (mem_responders_iff h).mp hd
    have hread : readOf c agents cl p d = some ⟨data, (heldAt c cl p d).metadata⟩ :=
      readOf_eq_some.mpr ⟨hreach, hdata, rfl⟩
    refine ⟨_, mem_ballots.mpr ⟨d, hdevice, _, hread, rfl⟩, rfl, ?_⟩
    rw [effectiveChecksum_observation, if_neg (Bool.eq_false_iff.mp hunmarked), hsum]

private theorem applied_of_elects (hlisted : Listed c agents cl p env.devices) {checksum : String}
    (helects : Elects DeviceObservation.effectiveChecksum DeviceObservation.rank
      env.devices.length (ballots c agents cl p env.devices) (tagged checksum)) :
    ∃ d, IsLeast {x | Holds c env cl p checksum x ∧ Unmarked c cl p x} d ∧
      applied (reconcile c cl p (env.devices.map (deviceOf agents))) =
        (heldAt c cl p d).data := by
  obtain ⟨v, hv, _⟩ := helects.exists_voter
  have hne := List.ne_nil_of_mem hv
  have hvoters : votersOf (ballots c agents cl p env.devices) ≠ [] := by rwa [votersOf_ballots]
  have hwinner : (resolve (ballots c agents cl p env.devices)
      env.devices.length).winningChecksum = tagged checksum :=
    (elects_ballots hne _).unique (rank_injOn_ballots c agents cl p env.devices)
      (length_ballots_le c agents cl p env.devices) helects
  have hleast := resolve_winner_isLeast hvoters env.devices.length
    (by rw [votersOf_ballots]; exact unnamed_not_mem_holders _)
  rw [votersOf_ballots, hwinner] at hleast
  simp only [mem_holders_ballots h] at hleast
  have hdeleted : (resolve (ballots c agents cl p env.devices)
      env.devices.length).deleted = false := by
    rw [Bool.eq_false_iff, ne_eq, resolve_deleted_iff hvoters, hwinner]
    exact tagged_ne_tombstone checksum
  refine ⟨_, hleast, ?_⟩
  have hreach := ((mem_responders_iff h).mp hleast.1.1.1).2
  rw [applied_reconcile hlisted, resolved, (resolve_found_iff _ _).mpr hvoters, hdeleted]
  exact map_data_readOf hreach

private theorem source_agrees_iff (hlisted : Listed c agents cl p env.devices)
    {plan : SecretMirrorPlan}
    (hplan : planned c env cl p = some plan) :
    applied (reconcile c cl p (env.devices.map (deviceOf agents))) =
        (heldAt c cl p plan.sourceDevice).data ↔
      ∃ checksum, Elects DeviceObservation.effectiveChecksum DeviceObservation.rank
          env.devices.length (ballots c agents cl p env.devices) (tagged checksum) ∧
        Elects DeviceObservation.effectiveChecksum DeviceObservation.rank (responders env).length
          (mirrorBallots c env cl p) checksum ∧
        SameData c env cl p checksum := by
  obtain ⟨hfound, _, hsource, _, _⟩ := planned_eq hplan
  obtain ⟨helects, hleast⟩ := verdict_inventory h hfound
  obtain ⟨_, _, data, hdata, hsum⟩ := source_of_verdict hfound
  rw [← hsource] at hleast hdata
  constructor
  · intro happlied
    have hresolved := applied_reconcile hlisted
    rw [happlied, hdata] at hresolved
    have hne : ballots c agents cl p env.devices ≠ [] := by
      intro hnil
      rw [hnil] at hresolved
      cases hresolved
    have hcontroller := elects_ballots hne env.devices.length
    rw [winningChecksum_eq hne, ← hresolved, Option.map_some, Option.getD_some,
      calculateChecksum_eq_tagged, hsum] at hcontroller
    refine ⟨_, hcontroller, helects, ?_⟩
    intro d d' hd hd'
    obtain ⟨first, hfirst, hfirst'⟩ := applied_of_elects h hlisted hcontroller
    rw [hd.unique hleast, hd'.unique hfirst, ← hfirst', happlied]
  · intro ⟨checksum, hcontroller, hmirror, hsame⟩
    have hwinner : (verdict (inventory c env cl p)).winningChecksum = checksum :=
      helects.unique (rank_injOn_mirrorBallots c env cl p) length_roll_le hmirror
    rw [hwinner] at hleast
    obtain ⟨d, hd, happlied⟩ := applied_of_elects h hlisted hcontroller
    rw [happlied, hsame _ _ hleast hd]

/-- A content with a majority of all devices is elected by the responding ones too. -/
private theorem mirror_elects_of_majority {checksum : String}
    (hmost : ControllerMajority c env agents cl p (tagged checksum)) :
    Elects DeviceObservation.effectiveChecksum DeviceObservation.rank (responders env).length
      (mirrorBallots c env cl p) checksum := by
  refine hmost.elects (List.length_filter_le _ _) length_roll_le ?_
  rw [mirrorBallots, votes_roll, votes, ballots, List.countP_filterMap, responders,
    List.countP_filter]
  refine List.countP_mono_left ?_
  intro d hd hvote
  cases hr : readOf c agents cl p d with
  | none => simp [hr] at hvote
  | some r =>
    have hvalue : (r.observation d).effectiveChecksum = tagged checksum := by
      simpa [hr] using hvote
    have hholder : d ∈ holders (ballots c agents cl p env.devices) (tagged checksum) :=
      mem_holders.mpr ⟨_, mem_ballots.mpr ⟨d, hd, r, hr, rfl⟩, rfl, hvalue⟩
    obtain ⟨⟨hresponder, data, hdata, hsum⟩, _⟩ := (mem_holders_ballots h).mp hholder
    obtain ⟨hopinion, hseen⟩ := seen_of_data c env cl p hdata
    have hconn := of_decide_eq_true (List.mem_filter.mp hresponder).2
    simp [hopinion, hseen, hsum, hconn]

private theorem winsBoth_iff {checksum : String} :
    (Elects DeviceObservation.effectiveChecksum DeviceObservation.rank
          env.devices.length (ballots c agents cl p env.devices) (tagged checksum) ∧
        Elects DeviceObservation.effectiveChecksum DeviceObservation.rank (responders env).length
          (mirrorBallots c env cl p) checksum) ↔ WinsBoth c env agents cl p checksum := by
  constructor
  · intro ⟨hcontroller, hmirror⟩
    rcases elects_iff.mp hcontroller with hmost | ⟨hnone, hnewest⟩
    · exact .inl hmost
    · exact .inr ⟨hnone, hnewest, elects_iff.mp hmirror⟩
  · intro hwins
    rcases hwins with hmost | ⟨hnone, hnewest, hmirror⟩
    · exact ⟨elects_iff.mpr (.inl hmost), mirror_elects_of_majority h hmost⟩
    · exact ⟨elects_iff.mpr (.inr ⟨hnone, hnewest⟩), elects_iff.mpr hmirror⟩

end Controller

section Plans

variable {σ : Type} {c : Client σ} {env : SweepEnv} {agents : Agents} {cl : Cluster σ} {p : String}
  (h : SameAgents env agents p)

include h

private theorem mirrorType_eq_skip_iff {plan : SecretMirrorPlan}
    (hplan : planned c env cl p = some plan) : plan.mirrorType = .skip ↔
      ∀ d ∈ responders env, d ≠ (verdict (inventory c env cl p)).winningDeviceID →
        Holds c env cl p (verdict (inventory c env cl p)).winningChecksum d ∧
          (versionLabel (heldAt c cl p d).metadata).isSome = true := by
  obtain ⟨_, _, _, _, htype⟩ := planned_eq hplan
  have hskip : plan.mirrorType = .skip ↔ targetDevices (inventory c env cl p) = [] := by
    rw [htype]
    split
    next hnil => simp [hnil]
    next hne => exact iff_of_false (Mirror.Plan.syncType_ne_skip hne) hne
  rw [hskip, List.eq_nil_iff_forall_not_mem]
  constructor
  · intro hnone d hd hne
    obtain ⟨hversion, data, hdata, hsum⟩ := (not_target_iff h.responds hd hne).mp (hnone d)
    exact ⟨⟨hd, data, hdata, hsum⟩, hversion⟩
  · intro hall d htarget
    obtain ⟨hne, e, he, herror, rfl, _⟩ := Mirror.Plan.mem_targetDevices.mp htarget
    have hd := (responder_of_entry h.responds he herror).1
    obtain ⟨⟨_, data, hdata, hsum⟩, hversion⟩ := hall e.1 hd hne
    exact (not_target_iff h.responds hd hne).mpr ⟨hversion, data, hdata, hsum⟩ htarget

private theorem skip_of_nothingPlanned (hnothing : NothingPlanned c env cl p)
    {plan : SecretMirrorPlan} (hplan : planned c env cl p = some plan) :
    plan.mirrorType = .skip := by
  obtain ⟨hfound, _, _, _, _⟩ := planned_eq hplan
  obtain ⟨⟨hwinner, data, hdata, hsum⟩, hleast⟩ := (verdict_inventory h hfound).2
  rcases hnothing with hshort | hnone | ⟨checksum, first, hfirst, hall⟩
  · unfold planned at hplan
    rw [if_neg (by omega)] at hplan
    cases hplan
  · rw [hnone _ hwinner] at hdata
    cases hdata
  · -- The source holds the common content, so it is the lowest of all responding devices.
    have hcommon : (verdict (inventory c env cl p)).winningChecksum = checksum := by
      obtain ⟨⟨_, data', hdata', hsum'⟩, _⟩ := hall _ hwinner
      rw [hdata] at hdata'
      obtain rfl := Option.some.inj hdata'
      exact hsum.symm.trans hsum'
    have hsource : (verdict (inventory c env cl p)).winningDeviceID = first := by
      apply le_antisymm
      · apply hleast
        change Holds c env cl p _ first
        rw [hcommon]
        exact (hall first hfirst.1).1
      · exact hfirst.2 hwinner
    rw [mirrorType_eq_skip_iff h hplan, hcommon, hsource]
    intro d hd hne
    exact ⟨(hall d hd).1, (hall d hd).2 hne⟩

private theorem exists_plan (hlisted : Listed c agents cl p env.devices)
    (hnothing : ¬ NothingPlanned c env cl p) :
    ∃ plan, planned c env cl p = some plan ∧ plan.mirrorType ≠ .skip := by
  simp only [NothingPlanned, not_or, not_lt] at hnothing
  obtain ⟨hlength, hsome, hcomplete⟩ := hnothing
  push Not at hsome
  obtain ⟨d, hd, hread⟩ := hsome
  obtain ⟨hdevice, hreach⟩ := (mem_responders_iff h).mp hd
  have hdiscovered : p ∈ discoverAllSecrets c env cl :=
    mem_discoverAllSecrets.mpr
      ⟨d, hdevice, h.listing d hdevice hreach, (hlisted d hdevice hreach).mpr hread⟩
  have hvoters : voters (inventory c env cl p) ≠ [] :=
    voters_ne_nil_iff.mpr
      ⟨d, hdevice, (h.responds d hd).connected, (h.responds d hd).secret, hread⟩
  have hplan : planned c env cl p = createMirrorPlanForSecret p (inventory c env cl p) :=
    if_pos ⟨hlength, hdiscovered⟩
  rw [Mirror.Plan.createMirrorPlanForSecret_eq, if_neg hvoters] at hplan
  refine ⟨_, hplan, ?_⟩
  intro hskip
  have hall := (mirrorType_eq_skip_iff h hplan).mp hskip
  have hleast := (verdict_inventory h (Mirror.Plan.verdict_found_iff.mpr hvoters)).2
  have hholds : ∀ x ∈ responders env,
      Holds c env cl p (verdict (inventory c env cl p)).winningChecksum x := by
    intro x hx
    by_cases hsource : x = (verdict (inventory c env cl p)).winningDeviceID
    · exact hsource ▸ hleast.1
    · exact (hall x hx hsource).1
  refine hcomplete ⟨(verdict (inventory c env cl p)).winningChecksum, _,
    ⟨hleast.1.1, fun x hx => hleast.2 (hholds x hx)⟩, ?_⟩
  intro x hx
  exact ⟨hholds x hx, fun hne => (hall x hx hne).2⟩

end Plans

/-- Where listing and reading agree, the mirror agrees with the controller exactly if it has nothing
to do or some content wins both polls and is the same on the lowest devices that hold it. -/
theorem mirrorAgrees_iff {σ : Type} (c : Client σ) (env : SweepEnv) (agents : Agents)
    (cl : Cluster σ) (p : String) (h : SameAgents env agents p)
    (hlisted : Listed c agents cl p env.devices) :
    MirrorAgrees c env agents cl p ↔ NothingPlanned c env cl p ∨
      ∃ checksum, WinsBoth c env agents cl p checksum ∧ SameData c env cl p checksum := by
  by_cases hnothing : NothingPlanned c env cl p
  · refine iff_of_true ?_ (.inl hnothing)
    intro plan hplan htype
    exact absurd (skip_of_nothingPlanned h hnothing hplan) htype
  · rw [or_iff_right hnothing]
    obtain ⟨plan, hplan, htype⟩ := exists_plan h hlisted hnothing
    have hone : MirrorAgrees c env agents cl p ↔
        applied (reconcile c cl p (env.devices.map (deviceOf agents))) =
          (heldAt c cl p plan.sourceDevice).data := by
      constructor
      · intro hagrees
        exact hagrees plan hplan htype
      · intro heq other hother _
        rw [Option.some.inj (hother.symm.trans hplan)]
        exact heq
    rw [hone, source_agrees_iff h hlisted hplan]
    refine exists_congr fun checksum => ?_
    rw [← and_assoc, winsBoth_iff h]

private def split : Cluster Token :=
  fun d => if d = "C" then versioned "2" "new" else versioned "1" "old"

private def upToC : Agents :=
  { reach := fun d => if d = "A" ∨ d = "B" ∨ d = "C" then .reachable else .noClient
    unnamed := by decide }

private def sweepOver (devices : List String) : SweepEnv :=
  { devices
    listFault := fun d => if upToC.reach d = .reachable then none else some "unreachable"
    connection := fun d => if upToC.reach d = .reachable then .connected else .disconnected
    stampAt := fun _ => .ofUnix 1735689600 }

private theorem sameAgents_sweepOver {devices : List String} (h : devices.Nodup) :
    SameAgents (sweepOver devices) upToC "db" where
  nodup := h
  connection := by
    intro d _
    simp [sweepOver]
  listing := by
    intro d _ hreach
    simp [sweepOver, hreach]
  responds := by
    intro d hd
    exact ⟨of_decide_eq_true (List.mem_filter.mp hd).2, rfl, rfl⟩

private def overrule : SecretMirrorPlan :=
  { secretPath := "db", sourceDevice := "A", sourceVersion := 1, targetDevices := ["C"]
    mirrorType := .update }

/-- Two of three responding devices overrule the newer copy, which the controller applies since
two of five are no majority. -/
theorem unreachable_devices_split_mirror :
    SameAgents (sweepOver ["A", "B", "C", "D", "E"]) upToC "db" ∧
      Listed client upToC split "db" ["A", "B", "C", "D", "E"] ∧
      ¬ MirrorAgrees client (sweepOver ["A", "B", "C", "D", "E"]) upToC split "db" := by
  refine ⟨sameAgents_sweepOver (by decide), by unfold Listed; decide +kernel, ?_⟩
  intro h
  have hplanned : planned client (sweepOver ["A", "B", "C", "D", "E"]) split "db" =
      some overrule := by
    decide +kernel
  have hnewer : applied (reconcile client split "db"
      (["A", "B", "C", "D", "E"].map (deviceOf upToC))) ≠ (heldAt client split "db" "A").data := by
    decide +kernel
  exact hnewer (h overrule hplanned (by decide))

theorem mirror_follows_majority :
    SameAgents (sweepOver ["A", "B", "C"]) upToC "db" ∧
      Listed client upToC split "db" ["A", "B", "C"] ∧
      MirrorAgrees client (sweepOver ["A", "B", "C"]) upToC split "db" := by
  have hagents : SameAgents (sweepOver ["A", "B", "C"]) upToC "db" :=
    sameAgents_sweepOver (by decide)
  have hlisted : Listed client upToC split "db" ["A", "B", "C"] := by
    unfold Listed
    decide +kernel
  refine ⟨hagents, hlisted, (mirrorAgrees_iff client _ upToC split "db" hagents hlisted).mpr (.inr
    ⟨Mirror.Plan.calculateChecksum (content "old"), .inl ⟨by decide, ?_⟩, ?_⟩)⟩
  · unfold Majority
    decide +kernel
  · -- Whoever holds this checksum holds the old data.
    have hold : ∀ d ∈ responders (sweepOver ["A", "B", "C"]),
        (heldAt client split "db" d).data.map Mirror.Plan.calculateChecksum =
          some (Mirror.Plan.calculateChecksum (content "old")) →
        (heldAt client split "db" d).data = some (content "old") := by
      decide +kernel
    have hdata {d : String} (hd : Holds client (sweepOver ["A", "B", "C"]) split "db"
        (Mirror.Plan.calculateChecksum (content "old")) d) :
        (heldAt client split "db" d).data = some (content "old") := by
      obtain ⟨hmem, data, hread, hsum⟩ := hd
      exact hold d hmem (by rw [hread, Option.map_some, hsum])
    intro d d' hd hd'
    rw [hdata hd.1, hdata hd'.1.1]

end HsmSecretsOperator.System.MirrorAgreement
