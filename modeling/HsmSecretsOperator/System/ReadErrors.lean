/- source: internal/mirror/manager.go, internal/hsm/pkcs11_client.go
   digest: When a sweep overwrites a live copy that its inventory failed to read. -/

import HsmSecretsOperator.Api.Proxy
import HsmSecretsOperator.Hsm.Isolation
import HsmSecretsOperator.Mirror.Path

set_option autoImplicit false

namespace HsmSecretsOperator.System.ReadErrors

open Api.Proxy (Cluster)
open Hsm.Isolation (writtenUnder)
open Hsm.Layout Hsm.MetadataJson Hsm.Pkcs11 Hsm.Secret
open Mirror.Execution (Wrote Restores)
open Mirror.Path Mirror.Plan Mirror.Sweep

/-- The token stores a key of the path, and no metadata of the path marks it as deleted. -/
structure Live (t : Token) (p : String) : Prop where
  stored : ∃ o ∈ t, writtenUnder p o = true ∧ isMetadata o = false
  current : ∀ o ∈ t, o.label = p ++ metadataKeySuffix → metadataDeleted (unmarshal o.value) = false

/-- The device holds a live copy of the path that the inventory does not get to read. -/
structure Unread (env : SweepEnv) (cl : Cluster Token) (p d : String) : Prop where
  available : d ∈ env.devices
  live : Live (cl d) p
  failed : env.connection d ≠ .connected ∨ env.readFault p d ≠ none ∨
    (heldAt client cl p d).data = none

/-- The sweep writes to no device whose live copy it could not read. -/
def KeepsUnread (env : SweepEnv) (cl : Cluster Token) : Prop :=
  ∀ p d, Unread env cl p d → ¬ Wrote (mirrorAllSecrets client env cl).1 p d

/-- The device is connected, the path is listed and read elsewhere, and neither the second read of
the source nor the sync of the device fails. -/
structure Exposed (env : SweepEnv) (cl : Cluster Token) (p d : String) : Prop where
  connected : env.connection d = .connected
  listed : ∃ x ∈ env.devices, env.listFault x = none ∧ p ∈ listSecrets (cl x) ""
  read : ∃ x ∈ env.devices, env.connection x = .connected ∧ env.readFault p x = none ∧
    (heldAt client cl p x).data ≠ none
  source : env.sourceFault p = none
  target : env.targetFault p d = none

variable {env : SweepEnv} {cl : Cluster Token} {p d : String}

private theorem not_present (h : Unread env cl p d) (hconn : env.connection d = .connected) :
    (deviceState client env cl p d).present = false := by
  rw [Bool.eq_false_iff]
  intro hpresent
  obtain ⟨hread, hdata⟩ := (deviceState_of_connected cl hconn).2.mp hpresent
  rcases h.failed with hfail | hfail | hfail
  · exact hfail hconn
  · exact hfail hread
  · exact hdata hfail

private theorem ne_source (h : Unread env cl p d)
    (hfound : (verdict (inventory client env cl p)).found = true) :
    d ≠ (verdict (inventory client env cl p)).winningDeviceID := by
  intro heq
  obtain ⟨e, he, herror, hpresent, hid, _⟩ := exists_source (verdict_found_iff.mp hfound)
  obtain ⟨_, hstate⟩ := mem_inventory.mp he
  rw [hstate, hid, ← heq] at herror hpresent
  rw [not_present h (connected_of_error_eq_none herror)] at hpresent
  cases hpresent

private theorem needsSecret (h : Unread env cl p d) (hconn : env.connection d = .connected) :
    d ∈ devicesNeedingSecret (inventory client env cl p) :=
  mem_devicesNeedingSecret.mpr ⟨(d, deviceState client env cl p d),
    mem_inventory.mpr ⟨h.available, rfl⟩, (deviceState_of_connected cl hconn).1, rfl,
    not_present h hconn⟩

private theorem exposed_of_wrote (h : Unread env cl p d)
    (hwrote : Wrote (mirrorAllSecrets client env cl).1 p d) : Exposed env cl p d := by
  obtain ⟨plan, hplan, hfault, hwhere⟩ := planned_of_wrote hwrote
  obtain ⟨hfound, _, hsource, htargets, _⟩ := planned_eq hplan
  rcases hwhere with heq | ⟨htarget, hsync⟩
  · exact absurd (heq.trans hsource) (ne_source h hfound)
  · rw [htargets] at htarget
    obtain ⟨_, e, he, herror, rfl, _⟩ := mem_targetDevices.mp htarget
    rw [(mem_inventory.mp he).2] at herror
    exact
      { connected := connected_of_error_eq_none herror
        listed := mem_discoverAllSecrets.mp (discovered_of_planned hplan).2
        read := voters_ne_nil_iff.mp (verdict_found_iff.mp hfound)
        source := hfault
        target := hsync }

private theorem wrote_of_exposed {cat : Catalogue} (hcl : ∀ d, Tidy cat (cl d))
    (h : Unread env cl p d) (hexposed : Exposed env cl p d) :
    Wrote (mirrorAllSecrets client env cl).1 p d := by
  have hvoters := voters_ne_nil_iff.mpr hexposed.read
  have hneeds := needsSecret h hexposed.connected
  have hlength : 2 ≤ env.devices.length := by
    obtain ⟨x, hx, hconn, hread, hdata⟩ := hexposed.read
    have hne : x ≠ d := by
      rintro rfl
      have hpresent := (deviceState_of_connected cl hconn).2.mpr ⟨hread, hdata⟩
      rw [not_present h hconn] at hpresent
      cases hpresent
    have hpair : [x, d].Nodup := by simp [hne]
    exact (List.subperm_of_subset hpair (by simp [hx, h.available])).length_le
  have hplan : planned client env cl p = createMirrorPlanForSecret p (inventory client env cl p) :=
    if_pos ⟨hlength, mem_discoverAllSecrets.mpr hexposed.listed⟩
  rw [createMirrorPlanForSecret_eq, if_neg hvoters] at hplan
  have htarget : d ∈ targetDevices (inventory client env cl p) := by
    obtain ⟨e, he, herror, hid, hpresent⟩ := mem_devicesNeedingSecret.mp hneeds
    refine mem_targetDevices.mpr
      ⟨ne_source h (verdict_found_iff.mpr hvoters), e, he, herror, hid, ?_⟩
    intro htrue
    rw [hpresent] at htrue
    cases htrue
  -- A device that counts as one without the secret makes the plan one of creation.
  have htype : syncType (inventory client env cl p) = .create :=
    if_pos (List.ne_nil_of_mem hneeds)
  rw [wrote_of_planned (L := cat.laws) hcl hplan]
  simp only [if_neg (List.ne_nil_of_mem htarget), htype, Restores]
  exact ⟨nofun, hexposed.source, nofun, .inr ⟨htarget, hexposed.target, nofun⟩⟩

private def password (text : String) (version : String) : Token :=
  newObjects "db" ((∅ : SecretData).insert "password" text.toUTF8.toList)
    (some { labels := (∅ : Hsm.Secret.Labels).insert "sync.version" version })

private def pair : Cluster Token :=
  fun d => if d = "A" then password "new" "2" else password "old" "1"

private theorem live_pair (d : String) : Live (pair d) "db" := by
  have hlive : Live (password "new" "2") "db" ∧ Live (password "old" "1") "db" :=
    ⟨⟨by decide +kernel, by decide +kernel⟩, ⟨by decide +kernel, by decide +kernel⟩⟩
  unfold pair
  split
  · exact hlive.1
  · exact hlive.2

private def timeoutOnA : SweepEnv :=
  { devices := ["A", "B"]
    readFault := fun _ d => if d = "A" then some "i/o timeout" else none
    stampAt := fun _ => .ofUnix 1735689600 }

private def timeoutOnBoth : SweepEnv :=
  { devices := ["A", "B"], readFault := fun _ _ => some "i/o timeout"
    stampAt := fun _ => .ofUnix 1735689600 }

end HsmSecretsOperator.System.ReadErrors
