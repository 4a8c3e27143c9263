/- source: internal/api/proxy_client.go
   digest: Two concurrent writes of one path, call by call, and the versions they stamp. -/

import HsmSecretsOperator.Api.Proxy
import HsmSecretsOperator.Foundation.Runs
import HsmSecretsOperator.Hsm.Layout

/-! Each call is atomic; `nextVersion` keeps its maximum in a register of its request. -/

set_option autoImplicit false

namespace HsmSecretsOperator.Api.Interleaving

open Foundation.Decimal Foundation.Rfc3339 Foundation.Runs Hsm.Secret Proxy
open Hsm.Layout (Roomy)
open Hsm.Pkcs11 (Token client metadataKey)

inductive Request where
  | first
  | second
  deriving DecidableEq

def Request.other : Request → Request
  | .first => .second
  | .second => .first

inductive Call where
  | read (r : Request) (d : String)
  | write (r : Request) (d : String)
  deriving DecidableEq

def Call.request : Call → Request
  | .read r _ => r
  | .write r _ => r

/-- The path, the bodies of the two requests and the times at which they are stamped. -/
structure Requests where
  path : String
  body : Request → WriteRequest
  now : Request → Instant

structure State (σ : Type) where
  stores : Cluster σ
  maxVersion : Request → Int := fun _ => 0

section Step

variable {σ : Type} (c : Client σ) (q : Requests)

def State.version (s : State σ) (r : Request) : Int := wrapInt64 (s.maxVersion r + 1)

def State.stamp (s : State σ) (r : Request) : SecretMetadata :=
  stampMetadata (q.body r).metadata (s.version r) (q.now r)

def step (s : State σ) : Call → State σ
  | .read r d =>
    { s with
      maxVersion := Function.update s.maxVersion r
        (raiseVersion (s.maxVersion r) (c.readMetadata (s.stores d) q.path)) }
  | .write r d =>
    { s with
      stores := Function.update s.stores d
        (c.writeSecret (s.stores d) q.path (q.body r).secretData (some (s.stamp q r))) }

/-- In these states of a device, the metadata of either request can be read once it is written. -/
structure Recalls (ok : σ → Prop) : Prop where
  keeps : ∀ {s}, ok s → ∀ r m, ok (c.writeSecret s q.path (q.body r).secretData (some m))
  recalls : ∀ {s}, ok s → ∀ r m,
    c.readMetadata (c.writeSecret s q.path (q.body r).secretData (some m)) q.path = .ok m

end Step

/-- Each request reads every device once and then writes every device once. -/
def Interleaves (devices : List String) (calls : List Call) : Prop :=
  ∀ r, ∃ reads writes : List String, reads.Perm devices ∧ writes.Perm devices ∧
    calls.filter (fun e => e.request = r) = reads.map (.read r) ++ writes.map (.write r)

/-- The first call comes before the second one. -/
def Before (a b : Call) (calls : List Call) : Prop :=
  ∃ l l', calls = l ++ b :: l' ∧ a ∈ l

variable {σ : Type} {c : Client σ} {q : Requests} {devices : List String} {calls : List Call}

private theorem run_reads (c : Client σ) (q : Requests) (s : State σ) (r : Request)
    (reads : List String) :
    run (step c q) s (reads.map (.read r)) =
      { s with
        maxVersion := Function.update s.maxVersion r
          ((reads.map fun d => c.readMetadata (s.stores d) q.path).foldl raiseVersion
            (s.maxVersion r)) } := by
  induction reads generalizing s with
  | nil => simp
  | cons d reads ih =>
    rw [List.map_cons, run_cons, ih]
    simp [step]

private theorem run_writes (c : Client σ) (q : Requests) (s : State σ) (r : Request)
    {writes : List String} (hnodup : writes.Nodup) : run (step c q) s (writes.map (.write r)) =
      { s with
        stores := fun d => if d ∈ writes then
          c.writeSecret (s.stores d) q.path (q.body r).secretData (some (s.stamp q r))
          else s.stores d } := by
  induction writes generalizing s with
  | nil => simp
  | cons x writes ih =>
    obtain ⟨hx, hnodup⟩ := List.nodup_cons.mp hnodup
    rw [List.map_cons, run_cons, ih _ hnodup]
    have hstores : ∀ d, d ≠ x → (step c q s (.write r x)).stores d = s.stores d :=
      fun d hd => Function.update_of_ne hd _ _
    have hstamp : (step c q s (.write r x)).stamp q r = s.stamp q r := rfl
    rw [hstamp]
    simp only [step, State.mk.injEq, and_true]
    funext d
    by_cases hd : d = x
    · subst hd
      simp [hx]
    · simp [hd]

/-- A request whose calls are not interleaved with others is `WriteSecret` of the proxy. -/
theorem run_alone (c : Client σ) (q : Requests) (cl : Cluster σ) (r : Request)
    (hnodup : devices.Nodup) :
    (run (step c q) { stores := cl } (devices.map (.read r) ++ devices.map (.write r))).stores =
      Proxy.writeSecret c (.reaching devices hnodup (q.now r)) cl q.path (q.body r) := by
  rw [run_append, run_reads, run_writes c q _ r hnodup]
  have hversion : nextVersion c (.reaching devices hnodup (q.now r)) cl q.path = wrapInt64
      ((devices.map fun d => c.readMetadata (cl d) q.path).foldl raiseVersion 0 + 1) := rfl
  funext d
  simp only [Proxy.writeSecret, writeToAllDevices, hversion]
  simp [Fanout.reaching, State.stamp, State.version]

namespace Interleaves

variable (h : Interleaves devices calls)

include h

private theorem mem_iff (r : Request) (d : String) :
    (Call.read r d ∈ calls ↔ d ∈ devices) ∧ (Call.write r d ∈ calls ↔ d ∈ devices) := by
  obtain ⟨reads, writes, hreads, hwrites, hfilter⟩ := h r
  have hmem (e : Call) (he : e.request = r) :
      e ∈ calls ↔ e ∈ calls.filter fun e => e.request = r := by simp [he]
  rw [hmem _ rfl, hmem _ rfl, hfilter]
  simp [hreads.mem_iff, hwrites.mem_iff]

theorem mem_read_iff {r : Request} {d : String} : Call.read r d ∈ calls ↔ d ∈ devices :=
  (h.mem_iff r d).1

theorem mem_write_iff {r : Request} {d : String} : Call.write r d ∈ calls ↔ d ∈ devices :=
  (h.mem_iff r d).2

theorem nodup (hnodup : devices.Nodup) : calls.Nodup := by
  rw [List.nodup_iff_count_le_one]
  intro e
  obtain ⟨reads, writes, hreads, hwrites, hfilter⟩ := h e.request
  have hcount : calls.count e = (calls.filter fun e' => e'.request = e.request).count e := by
    rw [List.count_filter (by simp)]
  have hparts : (reads.map (Call.read e.request) ++ writes.map (Call.write e.request)).Nodup := by
    rw [List.nodup_append]
    refine ⟨(hreads.nodup_iff.mpr hnodup).map fun _ _ heq => (Call.read.inj heq).2,
      (hwrites.nodup_iff.mpr hnodup).map fun _ _ heq => (Call.write.inj heq).2, ?_⟩
    intro a ha b hb heq
    obtain ⟨_, _, rfl⟩ := List.mem_map.mp ha
    obtain ⟨_, _, rfl⟩ := List.mem_map.mp hb
    cases heq
  rw [hcount, hfilter]
  exact List.nodup_iff_count_le_one.mp hparts e

theorem reads_before_write {l l' : List Call} (hcalls : calls = l ++ l') {r : Request}
    {x : String} (hwrite : Call.write r x ∈ l) {d : String} (hd : d ∈ devices) :
    Call.read r d ∈ l := by
  obtain ⟨reads, writes, hreads, _, hfilter⟩ := h r
  rw [hcalls, List.filter_append] at hfilter
  have hwrite' : Call.write r x ∈ l.filter fun e => e.request = r := by
    simp [hwrite, Call.request]
  have hmem : Call.read r d ∈ l.filter fun e => e.request = r := by
    rcases List.append_eq_append_iff.mp hfilter with ⟨rest, hreads', _⟩ | ⟨rest, hl, _⟩
    · -- The calls so far would all be reads.
      have hread : Call.write r x ∈ reads.map (Call.read r) := by
        rw [hreads']
        exact List.mem_append_left _ hwrite'
      simp at hread
    · rw [hl]
      exact List.mem_append_left _ (List.mem_map_of_mem (hreads.mem_iff.mpr hd))
  exact (List.mem_filter.mp hmem).1

end Interleaves

private theorem not_both_before (hnodup : calls.Nodup) {a b l l' : List Call} {e e' : Call}
    (hcalls : calls = a ++ e :: b) (hcalls' : calls = l ++ e' :: l') (he : e ∈ l) (he' : e' ∈ a) :
    False := by
  have heq := hcalls.symm.trans hcalls'
  rw [hcalls] at hnodup
  rcases List.append_eq_append_iff.mp heq with ⟨rest, hl, _⟩ | ⟨rest, ha, _⟩
  · rw [heq, hl, List.append_assoc, List.nodup_append] at hnodup
    exact hnodup.2.2 e' he' e' (by simp) rfl
  · rw [ha, List.append_assoc, List.nodup_append] at hnodup
    exact hnodup.2.2 e he e (by simp) rfl

variable {l : List Call} {r : Request} {d : String}

theorem Interleaves.before_asymm (h : Interleaves devices calls) (hnodup : devices.Nodup)
    {x y : String} (hy : y ∈ devices)
    (hbefore : Before (.write r.other x) (.read r x) calls)
    (hbefore' : Before (.write r y) (.read r.other y) calls) : False := by
  obtain ⟨a, b, hcalls, hwrite⟩ := hbefore
  obtain ⟨l, l', hcalls', hwrite'⟩ := hbefore'
  have hx : x ∈ devices := h.mem_read_iff.mp (hcalls ▸ List.mem_append_right a List.mem_cons_self)
  exact not_both_before (h.nodup hnodup) hcalls hcalls' (h.reads_before_write hcalls' hwrite' hx)
    (h.reads_before_write hcalls hwrite hy)

/-- A register is the least bound on its start and on all that its request has read. -/
theorem maxVersion_run_le_iff (c : Client σ) (q : Requests) (s : State σ) (calls : List Call)
    (r : Request) (n : Int) : (run (step c q) s calls).maxVersion r ≤ n ↔ s.maxVersion r ≤ n ∧
      ∀ l d l', calls = l ++ Call.read r d :: l' → ∀ v,
        reported (c.readMetadata ((run (step c q) s l).stores d) q.path) = some v → v ≤ n := by
  induction calls generalizing s with
  | nil => simp
  | cons e calls ih =>
    have hsplit : (∀ l d l', e :: calls = l ++ Call.read r d :: l' → ∀ v,
        reported (c.readMetadata ((run (step c q) s l).stores d) q.path) = some v → v ≤ n) ↔
        (∀ d, e = Call.read r d → ∀ v,
          reported (c.readMetadata (s.stores d) q.path) = some v → v ≤ n) ∧
        ∀ l d l', calls = l ++ Call.read r d :: l' → ∀ v, reported (c.readMetadata
          ((run (step c q) (step c q s e) l).stores d) q.path) = some v → v ≤ n := by
      constructor
      · intro hall
        refine ⟨fun d hd v hv => hall [] d calls (by rw [hd]; rfl) v hv, ?_⟩
        intro l d l' hl v hv
        exact hall (e :: l) d l' (by rw [hl]; rfl) v hv
      · rintro ⟨hhead, htail⟩ l d l' hl v hv
        cases l with
        | nil => exact hhead d (List.cons.inj hl).1 v hv
        | cons e' l =>
          obtain ⟨rfl, htl⟩ := List.cons.inj hl
          exact htail l d l' htl v hv
    rw [run_cons, ih, hsplit, ← and_assoc]
    refine and_congr_left fun _ => ?_
    cases e with
    | write r' d => simp [step]
    | read r' d =>
      by_cases hr : r = r'
      · subst hr
        simp only [step, Function.update_self, raiseVersion_le_iff]
        simp
      · simp only [step, Function.update_of_ne hr]
        simp [Ne.symm hr]

theorem stores_run_of_no_write (c : Client σ) (q : Requests) (s : State σ)
    (h : ∀ r, Call.write r d ∉ l) : (run (step c q) s l).stores d = s.stores d := by
  refine run_frame (fun s : State σ => s.stores d) fun e he s => ?_
  cases e with
  | read r x => rfl
  | write r x =>
    have hne : d ≠ x := by
      rintro rfl
      exact h r he
    simp only [step, Function.update_of_ne hne]

theorem stores_run_of_last_write (c : Client σ) (q : Requests) (s : State σ) {l l' : List Call}
    (h : ∀ r, Call.write r d ∉ l') :
    (run (step c q) s (l ++ Call.write r d :: l')).stores d =
      c.writeSecret ((run (step c q) s l).stores d) q.path (q.body r).secretData
        (some ((run (step c q) s l).stamp q r)) := by
  rw [run_append, run_cons, stores_run_of_no_write c q _ h]
  simp only [step, Function.update_self]

/-- What the writes of both requests keep holds in all states of a device. -/
theorem ok_run {ok : σ → Prop} (hwrite : ∀ {s}, ok s → ∀ r m,
      ok (c.writeSecret s q.path (q.body r).secretData (some m)))
    {s : State σ} (h : ∀ d ∈ devices, ok (s.stores d)) (l : List Call) :
    ∀ d ∈ devices, ok ((run (step c q) s l).stores d) := by
  induction l generalizing s with
  | nil => exact h
  | cons e l ih =>
    refine ih fun d hd => ?_
    cases e with
    | read r x => exact h d hd
    | write r x =>
      by_cases hx : d = x
      · subst hx
        simp only [step, Function.update_self]
        exact hwrite (h d hd) r _
      · simp only [step, Function.update_of_ne hx]
        exact h d hd

theorem exists_last_write (h : ∃ r, Call.write r d ∈ l) :
    ∃ l₁ r l₂, l = l₁ ++ Call.write r d :: l₂ ∧ ∀ r, Call.write r d ∉ l₂ := by
  induction l with
  | nil =>
    obtain ⟨_, hr⟩ := h
    cases hr
  | cons e l ih =>
    by_cases hl : ∃ r, Call.write r d ∈ l
    · obtain ⟨l₁, r, l₂, rfl, hlast⟩ := ih hl
      exact ⟨e :: l₁, r, l₂, rfl, hlast⟩
    · obtain ⟨r, hr⟩ := h
      rcases List.mem_cons.mp hr with rfl | hr
      · exact ⟨[], r, l, rfl, fun r' hr' => hl ⟨r', hr'⟩⟩
      · exact absurd ⟨r, hr⟩ hl

theorem maxVersion_run_of_no_read (c : Client σ) (q : Requests) (s : State σ)
    (h : ∀ d, Call.read r d ∉ l) : (run (step c q) s l).maxVersion r = s.maxVersion r := by
  refine run_frame (fun s : State σ => s.maxVersion r) fun e he s => ?_
  cases e with
  | write r' d => rfl
  | read r' d =>
    have hne : r ≠ r' := by
      rintro rfl
      exact h d he
    simp only [step, Function.update_of_ne hne]

theorem before_iff (hnodup : calls.Nodup) {l l' : List Call} {a b : Call}
    (hcalls : calls = l ++ b :: l') : Before a b calls ↔ a ∈ l := by
  constructor
  · rintro ⟨k, k', hcalls', ha⟩
    have hsplit := List.append_eq_append_iff.mp (hcalls'.symm.trans hcalls)
    rcases hsplit with ⟨rest, hl, _⟩ | ⟨rest, hk, hrest⟩
    · rw [hl]
      exact List.mem_append_left _ ha
    · cases rest with
      | nil => rwa [hk, List.append_nil] at ha
      | cons e rest =>
        obtain ⟨rfl, _⟩ := List.cons.inj hrest
        rw [hcalls', hk, List.append_assoc, List.nodup_append] at hnodup
        have htail := (List.nodup_cons.mp hnodup.2.1).1
        exact absurd (by simp) htail
  · intro ha
    exact ⟨l, l', hcalls, ha⟩

/-- The version the request has stamped when all calls are done. -/
def stampedVersion (c : Client σ) (q : Requests) (cl : Cluster σ) (calls : List Call)
    (r : Request) : Int :=
  (run (step c q) { stores := cl } calls).version r

theorem inInt64_version (s : State σ) (r : Request) : InInt64 (s.version r) := inInt64_wrapInt64 _

section Versions

variable (h : Interleaves devices calls) (hnodup : devices.Nodup) (cl : Cluster σ)

include h hnodup

variable {x : String}

private theorem version_at_write {l l' : List Call} {d : String}
    (hcalls : calls = l ++ Call.write r d :: l') :
    (run (step c q) { stores := cl } l).version r = stampedVersion c q cl calls r := by
  have hunread : ∀ x, Call.read r x ∉ Call.write r d :: l' := by
    intro x hx
    have hmem : x ∈ devices := h.mem_read_iff.mp (hcalls ▸ List.mem_append_right l hx)
    have hall := h.nodup hnodup
    have hsplit : calls = (l ++ [Call.write r d]) ++ l' := by simp [hcalls]
    have hearly := h.reads_before_write hsplit (r := r) (x := d) (by simp) hmem
    have hlate : Call.read r x ∈ l' := by simpa using hx
    rw [hsplit, List.nodup_append] at hall
    exact hall.2.2 _ hearly _ hlate rfl
  rw [stampedVersion, hcalls, run_append, State.version, State.version,
    maxVersion_run_of_no_read c q _ hunread]

variable {cl} {ok : σ → Prop} (hrecalls : Recalls c q ok) (hok : ∀ d ∈ devices, ok (cl d))

include hrecalls hok

private theorem reported_at_read {l l' : List Call} {d : String}
    (hcalls : calls = l ++ Call.read r d :: l') :
    reported (c.readMetadata ((run (step c q) { stores := cl } l).stores d) q.path) =
      if Call.write r.other d ∈ l then some (stampedVersion c q cl calls r.other)
      else reported (c.readMetadata (cl d) q.path) := by
  have hall := h.nodup hnodup
  have hd : d ∈ devices := h.mem_read_iff.mp (hcalls ▸ List.mem_append_right l List.mem_cons_self)
  have hown : Call.write r d ∉ l := by
    intro hwrite
    have hread := h.reads_before_write hcalls hwrite hd
    rw [hcalls, List.nodup_append] at hall
    exact hall.2.2 _ hread _ List.mem_cons_self rfl
  by_cases hother : Call.write r.other d ∈ l
  · rw [if_pos hother]
    obtain ⟨l₁, r', l₂, rfl, hlast⟩ := exists_last_write ⟨r.other, hother⟩
    obtain rfl : r' = r.other := by
      cases r <;> cases r' <;> simp_all [Request.other]
    have hsplit : calls = l₁ ++ Call.write r.other d :: (l₂ ++ Call.read r d :: l') := by
      simpa using hcalls
    have hversion := version_at_write (c := c) (q := q) h hnodup cl hsplit
    have hstate : ok ((run (step c q) { stores := cl } l₁).stores d) :=
      ok_run hrecalls.keeps hok l₁ d hd
    rw [stores_run_of_last_write c q _ hlast, hrecalls.recalls hstate, reported, State.stamp,
      metadataVersion_stampMetadata _ (inInt64_version _ _), hversion]
  · rw [if_neg hother]
    have hnone : ∀ r', Call.write r' d ∉ l := by
      intro r'
      cases r <;> cases r' <;> simp_all [Request.other]
    rw [stores_run_of_no_write c q _ hnone]

private theorem maxVersion_le_iff_seen (r : Request) (n : Int) :
    (run (step c q) { stores := cl } calls).maxVersion r ≤ n ↔ 0 ≤ n ∧ ∀ d ∈ devices,
      (Before (.write r.other d) (.read r d) calls → stampedVersion c q cl calls r.other ≤ n) ∧
      (¬ Before (.write r.other d) (.read r d) calls →
        metadataVersion (c.readMetadata (cl d) q.path).toOption ≤ n) := by
  have hall := h.nodup hnodup
  rw [maxVersion_run_le_iff]
  refine and_congr_right fun hn => ⟨?_, ?_⟩
  · intro hbound d hd
    obtain ⟨l, l', hcalls⟩ := List.append_of_mem (h.mem_read_iff.mpr hd : Call.read r d ∈ calls)
    have hseen := hbound l d l' hcalls
    rw [reported_at_read h hnodup hrecalls hok hcalls] at hseen
    rw [before_iff hall hcalls]
    constructor
    · intro hwrite
      rw [if_pos hwrite] at hseen
      exact hseen _ rfl
    · intro hwrite
      rw [if_neg hwrite] at hseen
      cases hm : c.readMetadata (cl d) q.path with
      | error text => exact hn
      | ok m =>
        rw [hm] at hseen
        exact hseen _ rfl
  · intro hbound l d l' hcalls v hv
    have hd : d ∈ devices :=
      h.mem_read_iff.mp (hcalls ▸ List.mem_append_right l List.mem_cons_self)
    have hseen := hbound d hd
    rw [before_iff hall hcalls] at hseen
    rw [reported_at_read h hnodup hrecalls hok hcalls] at hv
    split at hv
    next hwrite =>
      obtain rfl := Option.some.inj hv
      exact hseen.1 hwrite
    next hwrite =>
      have hle := hseen.2 hwrite
      cases hm : c.readMetadata (cl d) q.path with
      | error text =>
        rw [hm] at hv
        cases hv
      | ok m =>
        rw [hm] at hv hle
        obtain rfl := Option.some.inj hv
        exact hle

private theorem maxVersion_bounds (r : Request) :
    0 ≤ (run (step c q) { stores := cl } calls).maxVersion r ∧
      (run (step c q) { stores := cl } calls).maxVersion r ≤ maxInt64 := by
  refine ⟨((maxVersion_le_iff_seen h hnodup hrecalls hok r _).mp le_rfl).1, ?_⟩
  rw [maxVersion_le_iff_seen h hnodup hrecalls hok]
  refine ⟨by decide, fun d _ => ⟨fun _ => ?_, fun _ => ?_⟩⟩
  · exact (inInt64_version _ _).2
  · exact (inInt64_metadataVersion _).2

private theorem stampedVersion_eq (r : Request) : stampedVersion c q cl calls r =
    if (run (step c q) { stores := cl } calls).maxVersion r < maxInt64 then
      (run (step c q) { stores := cl } calls).maxVersion r + 1 else minInt64 := by
  obtain ⟨hnonneg, hle⟩ := maxVersion_bounds h hnodup hrecalls hok r
  exact wrapInt64_succ hnonneg ⟨le_trans (by decide) hnonneg, hle⟩

private theorem maxVersion_le_iff_prior
    (hearly : ∀ d ∈ devices, ¬ Before (.write r.other d) (.read r d) calls) (n : Int) :
    (run (step c q) { stores := cl } calls).maxVersion r ≤ n ↔
      0 ≤ n ∧ ∀ d ∈ devices, metadataVersion (c.readMetadata (cl d) q.path).toOption ≤ n := by
  rw [maxVersion_le_iff_seen h hnodup hrecalls hok]
  refine and_congr_right fun _ => forall₂_congr fun d hd => ?_
  have hnot := hearly d hd
  constructor
  · intro hseen
    exact hseen.2 hnot
  · intro hle
    exact ⟨fun hb => absurd hb hnot, fun _ => hle⟩

private theorem maxVersion_other_le_iff
    (hbefore : Before (.write r.other x) (.read r x) calls) (n : Int) :
    (run (step c q) { stores := cl } calls).maxVersion r.other ≤ n ↔
      0 ≤ n ∧ ∀ d ∈ devices, metadataVersion (c.readMetadata (cl d) q.path).toOption ≤ n := by
  have hother : r.other.other = r := by cases r <;> rfl
  refine maxVersion_le_iff_prior h hnodup hrecalls hok ?_ n
  intro d hd hb
  rw [hother] at hb
  exact h.before_asymm hnodup hd hbefore hb

private theorem maxVersion_of_meeting (hx : x ∈ devices)
    (hbefore : Before (.write r.other x) (.read r x) calls)
    (hroom : (run (step c q) { stores := cl } calls).maxVersion r.other < maxInt64) :
    (run (step c q) { stores := cl } calls).maxVersion r =
      (run (step c q) { stores := cl } calls).maxVersion r.other + 1 := by
  have hnonneg := (maxVersion_bounds h hnodup hrecalls hok r.other).1
  have hprior := maxVersion_other_le_iff h hnodup hrecalls hok hbefore
  have hseen := maxVersion_le_iff_seen h hnodup hrecalls hok r
  have hstamp := stampedVersion_eq h hnodup hrecalls hok r.other
  rw [if_pos hroom] at hstamp
  apply le_antisymm
  · refine (hseen _).mpr ⟨by omega, ?_⟩
    intro d hd
    have hle := ((hprior _).mp le_rfl).2 d hd
    exact ⟨fun _ => hstamp.le, fun _ => by omega⟩
  · have hle := (((hseen _).mp le_rfl).2 x hx).1 hbefore
    rwa [hstamp] at hle

private theorem maxVersion_lt_of_exhausted
    (hfull : ¬ (run (step c q) { stores := cl } calls).maxVersion r.other < maxInt64) :
    (run (step c q) { stores := cl } calls).maxVersion r < maxInt64 ↔
      ∀ d ∈ devices, metadataVersion (c.readMetadata (cl d) q.path).toOption = maxInt64 →
        Before (.write r.other d) (.read r d) calls := by
  have hstamp := stampedVersion_eq h hnodup hrecalls hok r.other
  rw [if_neg hfull] at hstamp
  have hmin : minInt64 ≤ maxInt64 - 1 := by decide
  have hmax : 0 ≤ maxInt64 - 1 := by decide
  rw [← Int.le_sub_one_iff, maxVersion_le_iff_seen h hnodup hrecalls hok]
  constructor
  · intro hbound d hd hexhausted
    by_contra hnot
    have hle := (hbound.2 d hd).2 hnot
    omega
  · intro hall
    refine ⟨hmax, ?_⟩
    intro d hd
    refine ⟨fun _ => hstamp.le.trans hmin, ?_⟩
    intro hnot
    have hin := (inInt64_metadataVersion (c.readMetadata (cl d) q.path).toOption).2
    have hne : metadataVersion (c.readMetadata (cl d) q.path).toOption ≠ maxInt64 :=
      fun hexhausted => hnot (hall d hd hexhausted)
    omega

private theorem versions_differ_of_before (hx : x ∈ devices)
    (hbefore : Before (.write r.other x) (.read r x) calls) :
    stampedVersion c q cl calls r ≠ stampedVersion c q cl calls r.other ↔
      ∀ d ∈ devices, metadataVersion (c.readMetadata (cl d) q.path).toOption = maxInt64 →
        Before (.write r.other d) (.read r d) calls := by
  have hmin : minInt64 < 0 := by decide
  have hnonneg := (maxVersion_bounds h hnodup hrecalls hok r).1
  have hnonneg' := (maxVersion_bounds h hnodup hrecalls hok r.other).1
  rw [stampedVersion_eq h hnodup hrecalls hok, stampedVersion_eq h hnodup hrecalls hok]
  by_cases hroom : (run (step c q) { stores := cl } calls).maxVersion r.other < maxInt64
  · rw [if_pos hroom, maxVersion_of_meeting h hnodup hrecalls hok hx hbefore hroom]
    constructor
    · intro _ d hd hexhausted
      have hle := ((maxVersion_other_le_iff h hnodup hrecalls hok hbefore _).mp le_rfl).2 d hd
      omega
    · intro _
      split <;> omega
  · rw [if_neg hroom, ← maxVersion_lt_of_exhausted h hnodup hrecalls hok hroom]
    split <;> omega

end Versions

/-- The request meets a write of the other one, and it does so on every device whose version
counter is exhausted. -/
def Follows (c : Client σ) (q : Requests) (cl : Cluster σ) (devices : List String)
    (calls : List Call) (r : Request) : Prop :=
  (∃ d ∈ devices, Before (.write r.other d) (.read r d) calls) ∧
    ∀ d ∈ devices, metadataVersion (c.readMetadata (cl d) q.path).toOption = maxInt64 →
      Before (.write r.other d) (.read r d) calls

theorem differ_iff_follows {ok : σ → Prop} (hrecalls : Recalls c q ok) {cl : Cluster σ}
    (hok : ∀ d ∈ devices, ok (cl d)) (hnodup : devices.Nodup) (h : Interleaves devices calls) :
    stampedVersion c q cl calls .first ≠ stampedVersion c q cl calls .second ↔
      ∃ r, Follows c q cl devices calls r := by
  constructor
  · intro hne
    by_cases hmeet : ∃ r, ∃ d ∈ devices, Before (.write (Request.other r) d) (.read r d) calls
    · obtain ⟨r, d, hd, hbefore⟩ := hmeet
      refine ⟨r, ⟨d, hd, hbefore⟩,
        (versions_differ_of_before h hnodup hrecalls hok hd hbefore).mp ?_⟩
      cases r with
      | first => exact hne
      | second => exact hne.symm
    · -- Neither meets a write of the other, so both see the prior versions.
      have hprior (r : Request) := maxVersion_le_iff_prior h hnodup hrecalls hok (r := r)
        fun d hd hb => hmeet ⟨r, d, hd, hb⟩
      have hsame : (run (step c q) { stores := cl } calls).maxVersion .first =
          (run (step c q) { stores := cl } calls).maxVersion .second :=
        le_antisymm ((hprior .first _).mpr ((hprior .second _).mp le_rfl))
          ((hprior .second _).mpr ((hprior .first _).mp le_rfl))
      exact absurd (by rw [stampedVersion, stampedVersion, State.version, State.version, hsame]) hne
  · rintro ⟨r, ⟨d, hd, hbefore⟩, hall⟩
    have hne := (versions_differ_of_before h hnodup hrecalls hok hd hbefore).mpr hall
    cases r with
    | first => exact hne
    | second => exact hne.symm

/-- A token with room for either request, which have no key that is taken for metadata. -/
structure Accommodates (q : Requests) (t : Token) : Prop where
  path : q.path ≠ ""
  keys : ∀ r, metadataKey ∉ (q.body r).secretData
  room : ∀ r, Roomy q.path (q.body r).secretData.size t

theorem recalls_token (q : Requests) : Recalls client q (Accommodates q) where
  keeps h r m := ⟨h.path, h.keys, fun r' => (h.room r).writeSecret (some m) h.path (h.room r')⟩
  recalls h r m := Hsm.Pkcs11.readMetadata_writeSecret (h.keys r) (h.room r).fits
    ((h.room r).fits_writeSecret (some m))

/-- On such tokens, two concurrent requests stamp different versions exactly when one of them
follows the other. -/
theorem versions_differ_iff (q : Requests) (cl : Cluster Token) (devices : List String)
    (hdevices : ∀ d ∈ devices, Accommodates q (cl d)) (hnodup : devices.Nodup) (calls : List Call)
    (h : Interleaves devices calls) :
    stampedVersion client q cl calls .first ≠ stampedVersion client q cl calls .second ↔
      ∃ r, Follows client q cl devices calls r :=
  differ_iff_follows (recalls_token q) hdevices hnodup h

private def requests : Requests where
  path := "db"
  body _ := { data := (∅ : Std.ExtTreeMap String String).insert "password" "x", metadata := none }
  now _ := .ofUnix 1735689600

private theorem interleaves_of_filter {calls : List Call}
    (h : ∀ r, calls.filter (fun e => e.request = r) = [.read r "A", .write r "A"]) :
    Interleaves ["A"] calls :=
  fun r => ⟨["A"], ["A"], .refl _, .refl _, h r⟩

/-- Both requests read before either writes, and both stamp version 1. -/
theorem concurrent_writes_share_version :
    Interleaves ["A"] [.read .first "A", .read .second "A", .write .first "A", .write .second "A"] ∧
      stampedVersion client requests (fun _ => [])
          [.read .first "A", .read .second "A", .write .first "A", .write .second "A"] .first =
        stampedVersion client requests (fun _ => [])
          [.read .first "A", .read .second "A", .write .first "A", .write .second "A"] .second := by
  refine ⟨interleaves_of_filter fun r => ?_, by decide +kernel⟩
  cases r with
  | first => decide
  | second => decide

theorem sequential_writes_differ :
    Interleaves ["A"] [.read .first "A", .write .first "A", .read .second "A", .write .second "A"] ∧
      stampedVersion client requests (fun _ => [])
          [.read .first "A", .write .first "A", .read .second "A", .write .second "A"] .first ≠
        stampedVersion client requests (fun _ => [])
          [.read .first "A", .write .first "A", .read .second "A", .write .second "A"] .second := by
  have hinterleaves : Interleaves ["A"]
      [.read .first "A", .write .first "A", .read .second "A", .write .second "A"] := by
    refine interleaves_of_filter fun r => ?_
    cases r with
    | first => decide
    | second => decide
  have hbefore : Before (.write .first "A") (.read .second "A")
      [.read .first "A", .write .first "A", .read .second "A", .write .second "A"] :=
    ⟨[.read .first "A", .write .first "A"], [.write .second "A"], rfl, by decide⟩
  have hroom : Accommodates requests [] := by
    refine ⟨by decide, fun r => ?_, fun r => ⟨by decide, ?_⟩⟩
    · cases r <;> decide +kernel
    · cases r <;> decide +kernel
  refine ⟨hinterleaves, (versions_differ_iff requests (fun _ => []) ["A"] (fun _ _ => hroom)
    (by decide) _ hinterleaves).mpr ⟨.second, ⟨"A", by decide, hbefore⟩, ?_⟩⟩
  intro d hd _
  obtain rfl := List.mem_singleton.mp hd
  exact hbefore

end HsmSecretsOperator.Api.Interleaving
