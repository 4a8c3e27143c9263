/- source: internal/mirror/manager.go, internal/reconcile/resolve.go
   digest: When a successful sweep leaves every responding device with the winner's data. -/

import HsmSecretsOperator.Api.Proxy
import HsmSecretsOperator.Foundation.Runs
import HsmSecretsOperator.Mirror.Path

/-! A plan has one type for all its targets. -/

set_option autoImplicit false

namespace HsmSecretsOperator.System.Repair

open Api.Proxy (Cluster)
open Foundation.Runs Hsm.Layout Hsm.Secret Mirror.Path Mirror.Plan Mirror.Sweep
open Mirror.Executor (SecretMirrorResult)
open Hsm.Pkcs11 (Token client newObjects)

variable {σ : Type} (c : Client σ)

def sweep (cl : Cluster σ) (env : SweepEnv) : Cluster σ :=
  (mirrorAllSecrets c env cl).1.cluster

/-- The sweep resolves the path to the data, and it finds a copy if a device responds. -/
def ResolvesTo (p : String) (data : SecretData) (cl : Cluster σ) (env : SweepEnv) : Prop :=
  ((∃ d ∈ env.devices, Responds env p d) →
    (verdict (inventory c env cl p)).found = true) ∧
  ((verdict (inventory c env cl p)).found = true →
    (heldAt c cl p (verdict (inventory c env cl p)).winningDeviceID).data = some data)

def AllHold (p : String) (devices : List String) (data : SecretData) (cl : Cluster σ) : Prop :=
  ∀ d ∈ devices, (heldAt c cl p d).data = some data

/-- All the devices hold the data, and every later sweep over some of them resolves to it. -/
def Settled (p : String) (devices : List String) (data : SecretData) (cl : Cluster σ) : Prop :=
  AllHold c p devices data cl ∧
    ∀ later : List SweepEnv, (∀ env ∈ later, ∀ d ∈ env.devices, d ∈ devices) →
      Along (sweep c) (ResolvesTo c p data) cl later

/-- Some device lacks the secret, or every copy has a sync version, or all copies agree. -/
def Repairable (p : String) (devices : List String) (cl : Cluster σ) : Prop :=
  (∃ d ∈ devices, (heldAt c cl p d).data = none) ∨
  (∀ d ∈ devices, (heldAt c cl p d).data ≠ none →
    (versionLabel (heldAt c cl p d).metadata).isSome = true) ∨
  (∀ d ∈ devices, ∀ d' ∈ devices, ∀ x y, (heldAt c cl p d).data = some x →
    (heldAt c cl p d').data = some y → x = y)

/-- Every versioned copy with the checksum of the copy that the resolver selects is equal to it. -/
def Vouched (env : SweepEnv) (p : String) (devices : List String) (cl : Cluster σ) : Prop :=
  ∀ d ∈ devices, (versionLabel (heldAt c cl p d).metadata).isSome = true →
    ∀ x y, (heldAt c cl p d).data = some x →
      (heldAt c cl p (verdict (inventory c env cl p)).winningDeviceID).data = some y →
      Mirror.Plan.calculateChecksum x = Mirror.Plan.calculateChecksum y → x = y

variable {c} {L : Laws c} {p : String} {env : SweepEnv} {cl : Cluster σ}

/-- A sweep over devices that hold the same data leaves them with it. -/
theorem allHold_sweep (hcl : ∀ d, L.tidy (cl d)) (hp : L.paths p) {devices : List String}
    {data : SecretData} (h : AllHold c p devices data cl) (hsub : ∀ d ∈ env.devices, d ∈ devices) :
    AllHold c p devices data (sweep c cl env) := by
  intro d hd
  cases hplan : planned c env cl p with
  | none => rw [← h d hd, sweep, (mirrorAllSecrets_of_not_planned hcl hp hplan).copies]
  | some plan =>
    obtain ⟨hfound, _, hsource, _, _⟩ := planned_eq hplan
    have hmem : plan.sourceDevice ∈ devices := hsub _ (hsource ▸ (source_of_verdict hfound).1)
    obtain ⟨r, _, _, heffect⟩ := effect_of_planned hcl hplan
    rcases heffect.device d with hsame | ⟨_, hsame⟩ | ⟨_, data', hdata', hnew⟩
    · rw [sweep, hsame, h d hd]
    · rw [sweep, hsame, h d hd]
    · rw [h _ hmem] at hdata'
      rw [sweep, hnew, ← hdata']

theorem resolvesTo_of_allHold {devices : List String} {data : SecretData}
    (h : AllHold c p devices data cl) (hsub : ∀ d ∈ env.devices, d ∈ devices) :
    ResolvesTo c p data cl env := by
  constructor
  · rintro ⟨d, hd, hresponds⟩
    have hstate := deviceState_of_responds (c := c) cl hresponds
    rw [h d (hsub d hd)] at hstate
    refine verdict_found_iff.mpr (List.ne_nil_of_mem (mem_voters.mpr
      ⟨(d, deviceState c env cl p d), mem_inventory.mpr ⟨hd, rfl⟩, ?_, ?_, rfl⟩))
    · simp [hstate, stateOf]
    · simp [hstate, stateOf]
  · intro hfound
    exact h _ (hsub _ (source_of_verdict hfound).1)

theorem settled_of_allHold (hcl : ∀ d, L.tidy (cl d)) (hp : L.paths p) {devices : List String}
    {data : SecretData} (h : AllHold c p devices data cl) : Settled c p devices data cl := by
  refine ⟨h, fun later hlater => ?_⟩
  have hsub : Along (sweep c) (fun _ env => ∀ d ∈ env.devices, d ∈ devices) cl later :=
    Along.of_forall fun env henv _ => hlater env henv
  refine hsub.of_invariant (fun s => (∀ d, L.tidy (s d)) ∧ AllHold c p devices data s) ?_ ⟨hcl, h⟩
  rintro s env ⟨htidy, hall⟩ hdevices
  exact ⟨⟨tidy_mirrorAllSecrets htidy env, allHold_sweep htidy hp hall hdevices⟩,
    resolvesTo_of_allHold hall hdevices⟩

section Success

variable {plan : SecretMirrorPlan} {after : Holdings} {data : SecretData}
  (hresponds : ∀ d ∈ responders env, Responds env p d) (hplan : planned c env cl p = some plan)
  (heffect : Effect env plan (heldAt c cl p) after true)

include hresponds hplan heffect

private theorem repairable_of_agree (hall : ∀ d ∈ responders env, (after d).data = some data) :
    Repairable c p (responders env) cl := by
  obtain ⟨_, _, _, _, htype⟩ := planned_eq hplan
  by_cases habsent : ∃ d ∈ responders env, (heldAt c cl p d).data = none
  · exact .inl habsent
  by_cases hversions : ∀ d ∈ responders env, (heldAt c cl p d).data ≠ none →
      (versionLabel (heldAt c cl p d).metadata).isSome = true
  · exact .inr (.inl hversions)
  -- All are present and some copy has no version: the plan leaves all data as it is.
  have hsecret := (devicesNeedingSecret_eq_nil cl hresponds).mpr
    fun d hd hnone => habsent ⟨d, hd, hnone⟩
  have hmetadata := mt (devicesNeedingMetadata_eq_nil cl hresponds).mp hversions
  have hkeeps : plan.mirrorType = .skip ∨ plan.mirrorType = .restoreMetadata := by
    rw [htype]
    split
    · exact .inl rfl
    · exact .inr (syncType_eq_restoreMetadata_iff.mpr ⟨hsecret, hmetadata⟩)
  have hsame : ∀ d, (after d).data = (heldAt c cl p d).data := by
    intro d
    exact heffect.data_eq fun hd => hkeeps.elim hd.2.1 hd.2.2
  refine .inr (.inr fun d hd d' hd' x y hx hy => ?_)
  rw [← hsame, hall d hd] at hx
  rw [← hsame, hall d' hd'] at hy
  exact (Option.some.inj hx).symm.trans (Option.some.inj hy)

private theorem vouched_of_agree (hdata : (heldAt c cl p plan.sourceDevice).data = some data)
    (hall : ∀ d ∈ responders env, (after d).data = some data) :
    Vouched c env p (responders env) cl := by
  obtain ⟨hfound, _, hsource, htargets, _⟩ := planned_eq hplan
  obtain ⟨_, _, data', hdata', hchecksum⟩ := source_of_verdict hfound
  rw [← hsource, hdata] at hdata'
  obtain rfl := Option.some.inj hdata'
  intro d hd hversion x y hx hy hsum
  rw [← hsource, hdata] at hy
  obtain rfl := Option.some.inj hy
  by_cases hdsource : d = plan.sourceDevice
  · rw [hdsource, hdata] at hx
    exact (Option.some.inj hx).symm
  · have htarget : d ∉ plan.targetDevices := by
      rw [htargets, not_target_iff hresponds hd (hsource ▸ hdsource)]
      exact ⟨hversion, x, hx, hsum.trans hchecksum⟩
    rw [← heffect.data_eq fun h => htarget h.1, hall d hd] at hx
    exact (Option.some.inj hx).symm

theorem agree_of_repairable
    (hdata : (heldAt c cl p plan.sourceDevice).data = some data)
    (hrepairable : Repairable c p (responders env) cl)
    (hvouched : Vouched c env p (responders env) cl) :
    ∀ d ∈ responders env, (after d).data = some data := by
  obtain ⟨hfound, _, hsource, htargets, htype⟩ := planned_eq hplan
  obtain ⟨hmem, hconnected, data', hdata', hchecksum⟩ := source_of_verdict hfound
  rw [← hsource, hdata] at hdata'
  obtain rfl := Option.some.inj hdata'
  have hresponder : plan.sourceDevice ∈ responders env := by
    rw [hsource]
    exact List.mem_filter.mpr ⟨hmem, decide_eq_true hconnected⟩
  intro d hd
  by_cases hcopies : d ∈ plan.targetDevices ∧ plan.mirrorType ≠ .skip ∧
      plan.mirrorType ≠ .restoreMetadata
  · rw [heffect.target_of_success hcopies, hdata]
  -- The device keeps its data, so it must have been the data of the source.
  rw [heffect.data_eq hcopies]
  by_cases htarget : d ∈ plan.targetDevices
  · have hnonempty : targetDevices (inventory c env cl p) ≠ [] :=
      List.ne_nil_of_mem (htargets ▸ htarget)
    rw [if_neg hnonempty] at htype
    have hrestore : plan.mirrorType = .restoreMetadata := by
      by_contra hrestore
      exact hcopies ⟨htarget, htype ▸ syncType_ne_skip hnonempty, hrestore⟩
    -- The type says that none lacks the secret and that some copy has no version.
    obtain ⟨hsecret, hmetadata⟩ := syncType_eq_restoreMetadata_iff.mp (htype.symm.trans hrestore)
    have hpresent := (devicesNeedingSecret_eq_nil cl hresponds).mp hsecret
    obtain ⟨x, hx⟩ := Option.ne_none_iff_exists'.mp (hpresent d hd)
    rcases hrepairable with ⟨d', hd', hnone⟩ | hversions | hagree
    · exact absurd hnone (hpresent d' hd')
    · exact absurd ((devicesNeedingMetadata_eq_nil cl hresponds).mpr hversions) hmetadata
    · rw [hx, hagree d hd _ hresponder x data hx hdata]
  · by_cases hdsource : d = plan.sourceDevice
    · rw [hdsource, hdata]
    · rw [hsource] at hdsource
      rw [htargets, not_target_iff hresponds hd hdsource] at htarget
      obtain ⟨hversion, x, hx, hsum⟩ := htarget
      rw [hx, hvouched d hd hversion x data hx (hsource ▸ hdata) (hsum.trans hchecksum.symm)]

end Success

/-- On tokens that keep to a catalogue, a sweep that reports success for a path leaves every
responding device with the data of the source, for all later sweeps, exactly when some device lacked
the secret, every copy had a sync version or all copies agreed, and no versioned copy only shared
the winner's checksum. -/
theorem settled_iff_repairable (cat : Catalogue) (env : SweepEnv) (cl : Cluster Token)
    (hcl : ∀ d, Tidy cat (cl d)) (p : String) (r : SecretMirrorResult)
    (hresponds : ∀ d ∈ responders env, Responds env p d)
    (hr : (mirrorAllSecrets client env cl).2.secretResults[p]? = some r)
    (hsuccess : r.success = true) :
    (∃ data, (heldAt client cl p r.sourceDevice).data = some data ∧
      Settled client p (responders env) data (sweep client cl env)) ↔
      Repairable client p (responders env) cl ∧ Vouched client env p (responders env) cl := by
  cases hplan : planned client env cl p with
  | none =>
    rw [secretResults_of_not_planned hplan] at hr
    cases hr
  | some plan =>
    obtain ⟨r', hr', hsource', heffect⟩ := effect_of_planned (L := cat.laws) hcl hplan
    obtain rfl : r' = r := Option.some.inj (hr'.symm.trans hr)
    rw [hsuccess] at heffect
    rw [hsource']
    constructor
    · rintro ⟨data, hdata, hall, _⟩
      exact ⟨repairable_of_agree hresponds hplan heffect hall,
        vouched_of_agree hresponds hplan heffect hdata hall⟩
    · rintro ⟨hrepairable, hvouched⟩
      obtain ⟨hfound, _, hsource, _, _⟩ := planned_eq hplan
      obtain ⟨_, _, data, hdata, _⟩ := source_of_verdict hfound
      rw [← hsource] at hdata
      exact ⟨data, hdata, settled_of_allHold (L := cat.laws) (tidy_mirrorAllSecrets hcl env)
        (paths_of_planned hcl hplan)
        (agree_of_repairable hresponds hplan heffect hdata hrepairable hvouched)⟩

private def midnight : Foundation.Rfc3339.Instant := .ofUnix 1735689600

private def old : SecretData := (∅ : SecretData).insert "password" (Foundation.Text.utf8 "old")

private def new : SecretData := (∅ : SecretData).insert "password" (Foundation.Text.utf8 "new")

private def devicesAB (a : Token) : Cluster Token := fun d =>
  if d = "A" then a
  else newObjects "db" new (some (Api.Proxy.stampMetadata none 1 midnight))

private def sweepAB : SweepEnv :=
  { devices := ["A", "B"], stampAt := fun _ => .ofUnix 1735693200 }

/-- A stale copy without metadata survives the sweep that reports success, gets fresh metadata
from it, and wins the next sweep. -/
theorem stale_copy_wins_after_repair :
    let before := devicesAB (newObjects "db" old none)
    (mirrorAllSecrets client sweepAB before).2.secretResults["db"]? = some
        { secretPath := "db", sourceDevice := "B", sourceVersion := 1, targetDevices := ["A"]
          mirrorType := .restoreMetadata, success := true, error := none } ∧
      (heldAt client before "db" "B").data = some new ∧
      (heldAt client (sweep client before sweepAB) "db" "A").data = some old ∧
      (verdict (inventory client sweepAB (sweep client before sweepAB) "db")).winningDeviceID =
        "A" := by
  decide +kernel

theorem settled_copy_of_B :
    (∀ d, Tidy dbOnly (devicesAB [] d)) ∧
      ∃ data, (heldAt client (devicesAB []) "db" "B").data = some data ∧
        Settled client "db" (responders sweepAB) data (sweep client (devicesAB []) sweepAB) := by
  have htidy : ∀ d, Tidy dbOnly (devicesAB [] d) := by
    intro d
    unfold devicesAB
    split
    · decide
    · decide +kernel
  refine ⟨htidy, (settled_iff_repairable dbOnly sweepAB (devicesAB []) htidy "db"
    { secretPath := "db", sourceDevice := "B", sourceVersion := 1, targetDevices := ["A"]
      mirrorType := .create, success := true, error := none }
    (fun _ _ => ⟨rfl, rfl, rfl⟩) (by decide +kernel) rfl).mpr ⟨.inl ⟨"A", ?_, ?_⟩, ?_⟩⟩
  · decide
  · decide +kernel
  · intro d hd _ x y hx hy _
    have hwinner : (verdict (inventory client sweepAB (devicesAB []) "db")).winningDeviceID =
        "B" := by decide +kernel
    have hA : (heldAt client (devicesAB []) "db" "A").data = none := by decide +kernel
    have hresponders : responders sweepAB = ["A", "B"] := by decide
    rw [hwinner] at hy
    rw [hresponders, List.mem_pair] at hd
    rcases hd with rfl | rfl
    · rw [hA] at hx
      cases hx
    · exact Option.some.inj (hx.symm.trans hy)

end HsmSecretsOperator.System.Repair
