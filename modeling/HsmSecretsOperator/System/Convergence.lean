/- source: internal/api/proxy_client.go, internal/mirror/manager.go
   digest: Two concurrent writes and one sweep without failures leave one request's data. -/

import HsmSecretsOperator.Api.Interleaving
import HsmSecretsOperator.System.Progress

set_option autoImplicit false

namespace HsmSecretsOperator.System.Convergence

open Api.Interleaving
open Api.Proxy (Cluster labels_stampMetadata)
open Foundation.Runs Hsm.Layout Hsm.Secret Mirror.Path
open Hsm.Pkcs11 (Token client newObjects)
open Mirror.Plan (versionLabel_of_label timestampLabel_of_label)
open Mirror.Sweep (SweepEnv mirrorAllSecrets)
open Progress Repair

section Requests

variable {σ : Type} {c : Client σ} {L : Laws c} {q : Requests} {devices : List String}
  {calls : List Call}

theorem tidy_run (hpath : L.paths q.path) (hdata : ∀ r, L.admits q.path (q.body r).secretData)
    {s : State σ} (hs : ∀ d, L.tidy (s.stores d)) (l : List Call) (d : String) :
    L.tidy ((run (step c q) s l).stores d) := by
  have hwrite {s : σ} (hs : L.tidy s) (r : Request) (m : SecretMetadata) :
      L.tidy (c.writeSecret s q.path (q.body r).secretData (some m)) :=
    L.tidy_write hs hpath (hdata r) m
  have hrun : ∀ x ∈ [d], L.tidy ((run (step c q) s l).stores x) :=
    ok_run hwrite (fun x _ => hs x) l
  exact hrun d List.mem_cons_self

theorem held_of_interleaves (hpath : L.paths q.path)
    (hdata : ∀ r, L.admits q.path (q.body r).secretData) (h : Interleaves devices calls)
    {s : State σ} (hs : ∀ d, L.tidy (s.stores d)) {d : String} (hd : d ∈ devices) :
    ∃ (s' : State σ) (r : Request), heldAt c (run (step c q) s calls).stores q.path d =
      ⟨some (q.body r).secretData, some (s'.stamp q r)⟩ := by
  obtain ⟨l₁, r, l₂, rfl, hlast⟩ :=
    exists_last_write ⟨.first, (h.mem_write_iff.mpr hd : Call.write .first d ∈ calls)⟩
  refine ⟨run (step c q) s l₁, r, ?_⟩
  rw [heldAt, stores_run_of_last_write c q s hlast]
  exact L.held_write (tidy_run hpath hdata hs l₁ d) hpath (hdata r) _

private theorem stamped_stamp (s : State σ) (r : Request) (data : Option SecretData) :
    Stamped ⟨data, some (s.stamp q r)⟩ := by
  obtain ⟨hversion, htimestamp⟩ :=
    labels_stampMetadata (q.body r).metadata (s.version r) (q.now r)
  constructor
  · rw [State.stamp, versionLabel_of_label (inInt64_version s r) hversion, Option.isSome_some]
  · rw [State.stamp, timestampLabel_of_label htimestamp, Option.isSome_some]

end Requests

/-- On tokens that keep to a catalogue with both contents, whatever the interleaving, one sweep
without failures after the two requests leaves every device with the data of one of them. -/
theorem concurrent_writes_converge (cat : Catalogue) (q : Requests) (hpath : q.path ∈ cat.paths)
    (hdata : ∀ r, cat.Admits q.path (q.body r).secretData) (cl : Cluster Token)
    (hcl : ∀ d, Tidy cat (cl d)) (devices : List String) (hnodup : devices.Nodup)
    (htwo : 2 ≤ devices.length) (calls : List Call) (h : Interleaves devices calls)
    (hdistinct : (q.body .first).secretData = (q.body .second).secretData ∨
      Mirror.Plan.calculateChecksum (q.body .first).secretData ≠
        Mirror.Plan.calculateChecksum (q.body .second).secretData)
    (env : SweepEnv) (henv : OnlyTargetsFail q.path devices env)
    (hall : NoTargetFails q.path devices env) :
    ∃ r, AllHold client q.path devices (q.body r).secretData
      (sweep client (run (step client q) { stores := cl } calls).stores env) := by
  have htidy : ∀ d, cat.laws.tidy ((run (step client q) { stores := cl } calls).stores d) :=
    tidy_run hpath hdata hcl calls
  have hheld : ∀ d ∈ devices, ∃ (s' : State Token) (r : Request),
      heldAt client (run (step client q) { stores := cl } calls).stores q.path d =
        ⟨some (q.body r).secretData, some (s'.stamp q r)⟩ :=
    fun d hd => held_of_interleaves (L := cat.laws) hpath hdata h (s := { stores := cl }) hcl hd
  have hstamped :
      WellStamped client q.path devices (run (step client q) { stores := cl } calls).stores := by
    constructor
    · intro d hd _
      obtain ⟨s', r, hr⟩ := hheld d hd
      rw [hr]
      exact stamped_stamp s' r _
    · intro d hd d' hd' x y hx hy hsum
      obtain ⟨_, r, hr⟩ := hheld d hd
      obtain ⟨_, r', hr'⟩ := hheld d' hd'
      rw [hr] at hx
      rw [hr'] at hy
      obtain rfl := Option.some.inj hx
      obtain rfl := Option.some.inj hy
      rcases hdistinct with hsame | hne
      · cases r <;> cases r' <;> simp [hsame]
      · cases r <;> cases r' <;> first | rfl | exact absurd hsum hne | exact absurd hsum.symm hne
  obtain ⟨d, hd⟩ := List.exists_mem_of_length_pos (by omega : 0 < devices.length)
  obtain ⟨data, hselected⟩ := exists_selected hstamped
    ⟨d, hd, by obtain ⟨s', r, hr⟩ := hheld d hd; simp [hr]⟩
  have hcomplete := completes_of_selected hnodup henv hselected htidy hpath htwo hall
  obtain ⟨x, hx, hholds⟩ := hselected.held
  obtain ⟨s', r, hr⟩ := hheld x hx
  rw [hr] at hholds
  obtain rfl := Option.some.inj hholds
  exact ⟨r, hcomplete⟩

private def password (value : String) : Api.Proxy.WriteRequest :=
  { data := (∅ : Std.ExtTreeMap String String).insert "password" value, metadata := none }

private def requests : Requests where
  path := "db"
  body
    | .first => password "x"
    | .second => password "y"
  now _ := .ofUnix 1735689600

private def sweepAB : SweepEnv :=
  { devices := ["A", "B"], stampAt := fun _ => .ofUnix 1735693200 }

private theorem onlyTargetsFail_AB : OnlyTargetsFail "db" ["A", "B"] sweepAB :=
  ⟨.refl _, fun _ _ => rfl, fun _ _ => ⟨rfl, rfl, rfl⟩, rfl⟩

private def sequential : List Call :=
  [.read .first "A", .read .first "B", .write .first "A", .write .first "B", .read .second "A",
    .read .second "B", .write .second "A", .write .second "B"]

/-- The first device also holds a secret whose path is a prefix. -/
private def nested : Cluster Token := fun d =>
  if d = "A" then newObjects "d" (password "z").secretData
    (some (Api.Proxy.stampMetadata none 1 (.ofUnix 1735689600))) else []

/-- Both devices accept both writes; the sweep then repairs `d`, reports success for both paths,
and the second device holds nothing at `db`. -/
theorem sweep_deletes_nested_write :
    Interleaves ["A", "B"] sequential ∧ OnlyTargetsFail "db" ["A", "B"] sweepAB ∧
      NoTargetFails "db" ["A", "B"] sweepAB ∧
      (mirrorAllSecrets client sweepAB
        (run (step client requests) { stores := nested } sequential).stores).2.success = true ∧
      ¬ ∃ r, AllHold client "db" ["A", "B"] (requests.body r).secretData
        (sweep client (run (step client requests) { stores := nested } sequential).stores
          sweepAB) := by
  have hswept : (mirrorAllSecrets client sweepAB
      (run (step client requests) { stores := nested } sequential).stores).2.success = true ∧
      (heldAt client (sweep client
        (run (step client requests) { stores := nested } sequential).stores sweepAB)
          "db" "B").data = none := by
    decide +kernel
  refine ⟨?_, onlyTargetsFail_AB, fun _ _ => rfl, hswept.1, ?_⟩
  · intro r
    cases r with
    | first => exact ⟨["A", "B"], ["A", "B"], .refl _, .refl _, by decide⟩
    | second => exact ⟨["A", "B"], ["A", "B"], .refl _, .refl _, by decide⟩
  · rintro ⟨r, hall⟩
    have hlost := hswept.2
    rw [hall "B" (by decide)] at hlost
    cases hlost

private def crossing : List Call :=
  [.read .first "A", .read .second "B", .read .first "B", .read .second "A", .write .first "A",
    .write .second "A", .write .second "B", .write .first "B"]

private theorem interleaves_crossing : Interleaves ["A", "B"] crossing := by
  intro r
  cases r with
  | first => exact ⟨["A", "B"], ["A", "B"], .refl _, .refl _, by decide⟩
  | second => exact ⟨["B", "A"], ["A", "B"], .swap _ _ _, .refl _, by decide⟩

theorem crossing_writes_converge :
    Tidy dbOnly [] ∧ ∃ r, AllHold client "db" ["A", "B"] (requests.body r).secretData
      (sweep client (run (step client requests) { stores := fun _ => [] } crossing).stores
        sweepAB) := by
  refine ⟨by decide, concurrent_writes_converge dbOnly requests (by decide) ?_ _
    (fun _ => by decide) ["A", "B"] (by decide) (by decide) crossing interleaves_crossing ?_ _
    onlyTargetsFail_AB fun _ _ => rfl⟩
  · intro r
    have hkeys (value key : String) (hkey : key ∈ (password value).secretData) :
        key ∈ ["password"] := by
      rw [Api.Proxy.WriteRequest.secretData, Std.ExtTreeMap.mem_map, password,
        Std.ExtTreeMap.mem_insert, Std.LawfulEqOrd.compare_eq_iff_eq] at hkey
      simpa [eq_comm] using hkey
    cases r with
    | first => exact ⟨by decide +kernel, hkeys "x"⟩
    | second => exact ⟨by decide +kernel, hkeys "y"⟩
  · right
    decide +kernel

end HsmSecretsOperator.System.Convergence
