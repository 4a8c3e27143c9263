/- source: internal/api/proxy_client.go, internal/agent/grpc_server.go,
     internal/hsm/pkcs11_client.go
   digest: Whether requests keep the metadata that the latest write or delete of a path stamped. -/

import HsmSecretsOperator.Agent.Server
import HsmSecretsOperator.Api.Proxy
import HsmSecretsOperator.Foundation.Runs

set_option autoImplicit false

namespace HsmSecretsOperator.System.ReservedMetadata

open Agent.Server Api.Proxy Foundation.Maps Foundation.Runs Foundation.Text
open Hsm.Pkcs11 (Token Fits metadataKey metadataKeySuffix labelOf)
open Hsm.Secret
open Security.Validation (validateSecretPath)

/-- The requests of the REST interface that change a device. -/
inductive Request where
  | write (f : Fanout) (path : String) (req : WriteRequest)
  | delete (f : Fanout) (path : String)
  | deleteKey (f : Fanout) (path key : String)

/-- The tokens, and the metadata of the latest write or delete of each path that succeeded on the
observed device. -/
structure State where
  tokens : Cluster Token
  stamped : Std.ExtTreeMap String SecretMetadata

/-- The call arrives at the agent of the device, which writes without an error. -/
def succeeds (d : String) (f : Fanout) (s : State) (path : String) (data : SecretData)
    (metadata : SecretMetadata) : Bool :=
  d ∈ f.clients && f.accepts d &&
    (viaGrpc tokenBackend (s.tokens d)
      (.writeSecret path data (some metadata))).2.toOption.isSome

/-- One request, with `d` as the observed device. A delete ends with the write of a tombstone. -/
def step (d : String) (s : State) : Request → State
  | .write f path req =>
    let metadata := stampMetadata req.metadata (nextVersion client f s.tokens path) f.now
    { tokens := Api.Proxy.writeSecret client f s.tokens path req
      stamped :=
        if succeeds d f s path req.secretData metadata then s.stamped.insert path metadata
        else s.stamped }
  | .delete f path =>
    { tokens := Api.Proxy.deleteSecret client f s.tokens path
      stamped :=
        if succeeds d f s path ∅ (tombstoneMetadata f.now) then
          s.stamped.insert path (tombstoneMetadata f.now)
        else s.stamped }
  | .deleteKey f path key =>
    { tokens := Api.Proxy.deleteSecretKey Agent.Server.deleteSecretKey f s.tokens path key
      stamped := s.stamped }

/-- The device answers every path with the metadata that was stamped last. -/
def Intact (d : String) (s : State) : Prop :=
  ∀ path ∈ s.stamped.keys, (client.readMetadata (s.tokens d) path).toOption = s.stamped[path]?

instance (d : String) (s : State) : Decidable (Intact d s) :=
  inferInstanceAs (Decidable (∀ path ∈ s.stamped.keys, _))

/-- The token of the device stays within one search. -/
def StaysSmall (d : String) (s : State) (r : Request) : Prop := Fits ((step d s r).tokens d)

instance (d : String) (s : State) (r : Request) : Decidable (StaysSmall d s r) :=
  inferInstanceAs (Decidable (Fits _))

/-- The request arrives at the device with a path that the interceptor lets through. -/
def Arrives (d : String) (f : Fanout) (path : String) : Prop :=
  d ∈ f.clients ∧ f.accepts d = true ∧ validateSecretPath path = .ok ()

instance (d : String) (f : Fanout) (path : String) : Decidable (Arrives d f path) :=
  inferInstanceAs (Decidable (_ ∧ _ ∧ _))

/-- The path is no prefix of the metadata label of another stamped path. -/
def Apart (s : State) (path : String) : Prop :=
  ∀ q ∈ s.stamped.keys, q ≠ path → hasPrefix (q ++ metadataKeySuffix) path = false

instance (s : State) (path : String) : Decidable (Apart s path) :=
  inferInstanceAs (Decidable (∀ q ∈ s.stamped.keys, _))

/-- A write or delete is apart from the other paths, no write has the reserved key, and no key
deletion names a metadata label. -/
def Undisturbed (d : String) (s : State) : Request → Prop
  | .write f path req => Arrives d f path → metadataKey ∉ req.data ∧ Apart s path
  | .delete f path => Arrives d f path → Apart s path
  | .deleteKey f path key => Arrives d f path →
      ∀ q ∈ s.stamped.keys, labelOf path key ≠ q ++ metadataKeySuffix

instance instDecidableUndisturbed (d : String) (s : State) : ∀ r, Decidable (Undisturbed d s r)
  | .write f path req =>
    inferInstanceAs (Decidable (Arrives d f path → metadataKey ∉ req.data ∧ Apart s path))
  | .delete f path => inferInstanceAs (Decidable (Arrives d f path → Apart s path))
  | .deleteKey f path key => inferInstanceAs (Decidable (Arrives d f path →
      ∀ q ∈ s.stamped.keys, labelOf path key ≠ q ++ metadataKeySuffix))

/-- What the runs keep: the token is small, and what was stamped is on it. -/
structure Inv (d : String) (s : State) : Prop where
  fits : Fits (s.tokens d)
  valid : ∀ q m, s.stamped[q]? = some m → validateSecretPath q = .ok ()
  holds : ∀ q m, s.stamped[q]? = some m → Hsm.Pkcs11.readMetadata (s.tokens d) q = .ok m

section Steps

variable {d : String} {s : State} {f : Fanout} {path : String}

private theorem mem_keys_of_stamped {q : String} {m : SecretMetadata}
    (h : s.stamped[q]? = some m) : q ∈ s.stamped.keys :=
  Std.ExtTreeMap.mem_keys.mpr (mem_of_getElem? h)

theorem Inv.intact (h : Inv d s) : Intact d s := by
  intro path hpath
  obtain ⟨m, hm⟩ := exists_getElem?_of_mem (Std.ExtTreeMap.mem_keys.mp hpath)
  rw [Agent.Server.client_readMetadata (h.valid path m hm) (h.holds path m hm), hm]
  rfl

theorem succeeds_iff (data : SecretData) (metadata : SecretMetadata) :
    succeeds d f s path data metadata = true ↔ Arrives d f path := by
  unfold succeeds Arrives
  by_cases hvalid : validateSecretPath path = .ok ()
  · rw [isSome_writeSecret hvalid]
    simp [hvalid]
  · rw [(viaGrpc_of_invalid hvalid tokenBackend (s.tokens d) _ rfl).2]
    simp [hvalid]

private theorem inv_of_write (hs : Inv d s) (data : SecretData) (metadata : SecretMetadata)
    {s' : State} (hvalid : validateSecretPath path = .ok ()) {t : Token} (ht : Fits t)
    (hsame : ∀ q m, s.stamped[q]? = some m → q ≠ path →
      Hsm.Pkcs11.readMetadata t q = .ok m)
    (hkey : metadataKey ∉ data) (hapart : Apart s path)
    (htoken : s'.tokens d = Hsm.Pkcs11.writeSecret t path data (some metadata))
    (hstamped : s'.stamped = s.stamped.insert path metadata) (hfits : Fits (s'.tokens d)) :
    Inv d s' := by
  refine ⟨hfits, ?_, ?_⟩
  · intro q m hq
    by_cases heq : q = path
    · rw [heq]
      exact hvalid
    · rw [hstamped, getElem?_insert_of_ne _ (Ne.symm heq)] at hq
      exact hs.valid q m hq
  · intro q m hq
    rw [hstamped] at hq
    rw [htoken] at hfits ⊢
    by_cases heq : q = path
    · subst heq
      rw [Std.ExtTreeMap.getElem?_insert_self] at hq
      obtain rfl := Option.some.inj hq
      exact Hsm.Pkcs11.readMetadata_writeSecret hkey ht hfits
    · rw [getElem?_insert_of_ne _ (Ne.symm heq)] at hq
      have hfront := hapart q (mem_keys_of_stamped hq) heq
      rw [Hsm.Pkcs11.readMetadata_writeSecret_of_not_prefix hfront ht]
      exact hsame q m hq heq

private theorem inv_of_same (hs : Inv d s) {s' : State} (htoken : s'.tokens d = s.tokens d)
    (hstamped : s'.stamped = s.stamped) : Inv d s' := by
  refine ⟨htoken ▸ hs.fits, ?_, ?_⟩
  · rw [hstamped]
    exact hs.valid
  · rw [hstamped, htoken]
    exact hs.holds

private theorem inv_write (hs : Inv d s) (req : WriteRequest)
    (hfits : StaysSmall d s (.write f path req)) (h : Undisturbed d s (.write f path req)) :
    Inv d (step d s (.write f path req)) := by
  by_cases harrives : Arrives d f path
  · obtain ⟨hmem, hacc, hvalid⟩ := harrives
    obtain ⟨hkey, hapart⟩ := h ⟨hmem, hacc, hvalid⟩
    refine inv_of_write hs req.secretData
      (stampMetadata req.metadata (nextVersion client f s.tokens path) f.now) hvalid hs.fits
      (fun q m hq _ => hs.holds q m hq) ?_ hapart ?_ ?_ hfits
    · simpa [WriteRequest.secretData] using hkey
    · dsimp only [step, Api.Proxy.writeSecret, Api.Proxy.writeToAllDevices]
      rw [if_pos ⟨hmem, hacc⟩, Agent.Server.client_writeSecret hvalid]
    · exact if_pos ((succeeds_iff _ _).mpr ⟨hmem, hacc, hvalid⟩)
  · refine inv_of_same hs ?_ (if_neg fun hsucc => harrives ((succeeds_iff _ _).mp hsucc))
    dsimp only [step, Api.Proxy.writeSecret, Api.Proxy.writeToAllDevices]
    split
    next hreach =>
      exact Agent.Server.client_writeSecret_of_invalid
        (fun hvalid => harrives ⟨hreach.1, hreach.2, hvalid⟩) _ _ _
    next => rfl

private theorem inv_delete (hs : Inv d s) (hfits : StaysSmall d s (.delete f path))
    (h : Undisturbed d s (.delete f path)) : Inv d (step d s (.delete f path)) := by
  by_cases harrives : Arrives d f path
  · obtain ⟨hmem, hacc, hvalid⟩ := harrives
    have hapart := h ⟨hmem, hacc, hvalid⟩
    refine inv_of_write hs ∅ (tombstoneMetadata f.now) hvalid
      (Hsm.Pkcs11.fits_deleteSecretObjects hs.fits path) ?_
      Std.ExtTreeMap.not_mem_empty hapart ?_ ?_ hfits
    · intro q m hq hne
      have hfront := hapart q (mem_keys_of_stamped hq) hne
      exact (Hsm.Pkcs11.readMetadata_deleteSecret_of_not_prefix hfront hs.fits).trans
        (hs.holds q m hq)
    · dsimp only [step, Api.Proxy.deleteSecret, Api.Proxy.tombstoneDeleteFromAllDevices]
      rw [if_pos ⟨hmem, hacc⟩, Agent.Server.client_writeSecret hvalid,
        Agent.Server.client_deleteSecret hvalid, Hsm.Pkcs11.deleteSecret]
    · exact if_pos ((succeeds_iff _ _).mpr ⟨hmem, hacc, hvalid⟩)
  · refine inv_of_same hs ?_ (if_neg fun hsucc => harrives ((succeeds_iff _ _).mp hsucc))
    dsimp only [step, Api.Proxy.deleteSecret, Api.Proxy.tombstoneDeleteFromAllDevices]
    split
    next hreach =>
      have hinvalid : validateSecretPath path ≠ .ok () := fun hvalid =>
        harrives ⟨hreach.1, hreach.2, hvalid⟩
      rw [Agent.Server.client_deleteSecret_of_invalid hinvalid,
        Agent.Server.client_writeSecret_of_invalid hinvalid]
    next => rfl

private theorem deleteKey_cases (s : State) (f : Fanout) (path key : String) :
    (step d s (.deleteKey f path key)).tokens d = s.tokens d ∨
      (Arrives d f path ∧ (step d s (.deleteKey f path key)).tokens d =
        (s.tokens d).eraseP fun o => o.label = labelOf path key) := by
  dsimp only [step, Api.Proxy.deleteSecretKey]
  split
  · exact .inl rfl
  next hkey =>
    unfold Api.Proxy.deleteKeyFromAllDevices Api.Proxy.keyDeleted
    split
    next hreach =>
      by_cases hvalid : validateSecretPath path = .ok ()
      · rw [Agent.Server.toOption_deleteSecretKey hvalid _ hkey,
          Hsm.Pkcs11.deleteSecretKey_of_ne hkey]
        split
        · exact .inr ⟨⟨hreach.1, hreach.2, hvalid⟩, rfl⟩
        · exact .inl rfl
      · rw [Agent.Server.deleteSecretKey_of_invalid hvalid]
        exact .inl rfl
    next => exact .inl rfl

private theorem inv_deleteKey (hs : Inv d s) (key : String)
    (h : Undisturbed d s (.deleteKey f path key)) : Inv d (step d s (.deleteKey f path key)) := by
  rcases deleteKey_cases s f path key with hsame | ⟨harrives, herase⟩
  · exact inv_of_same hs hsame rfl
  · refine ⟨?_, hs.valid, ?_⟩
    · rw [herase]
      exact le_trans List.length_eraseP_le hs.fits
    · intro q m hq
      rw [herase, Hsm.Pkcs11.readMetadata_eraseP (h harrives q (mem_keys_of_stamped hq)) hs.fits]
      exact hs.holds q m hq

end Steps

private theorem inv_step {d : String} (s : State) (r : Request) (hs : Inv d s)
    (h : StaysSmall d s r ∧ Undisturbed d s r) : Inv d (step d s r) := by
  cases r with
  | write f path req => exact inv_write hs req h.1 h.2
  | delete f path => exact inv_delete hs h.1 h.2
  | deleteKey f path key => exact inv_deleteKey hs key h.2

/-- After every undisturbed run the device holds what was stamped. -/
theorem metadata_stays_stamped (d : String) (tokens : Cluster Token) (hfits : Fits (tokens d))
    (requests : List Request)
    (hsmall : Along (step d) (StaysSmall d) { tokens, stamped := ∅ } requests)
    (h : Along (step d) (Undisturbed d) { tokens, stamped := ∅ } requests) :
    Intact d (run (step d) { tokens, stamped := ∅ } requests) := by
  have hinit : Inv d { tokens, stamped := ∅ } := by
    refine ⟨hfits, ?_, ?_⟩
    · intro q m hq
      simp at hq
    · intro q m hq
      simp at hq
  exact ((hsmall.and h).run_invariant inv_step hinit).intact

private def noon : Foundation.Rfc3339.Instant := .ofUnix 1735732800

private theorem nodup_one : ["A"].Nodup := by decide

private def toA : Fanout := .reaching ["A"] nodup_one noon

private def body (keys : List String) : WriteRequest :=
  { data := keys.foldl (fun data key => data.insert key "x") ∅, metadata := none }

/-- A key deletion of the reserved key leaves the secret without its metadata. -/
theorem metadata_deleted_as_key :
    Along (step "A") (StaysSmall "A") { tokens := fun _ => [], stamped := ∅ }
        [.write toA "db" (body ["password"]), .deleteKey toA "db" "_metadata"] ∧
      ¬ Intact "A" (run (step "A") { tokens := fun _ => [], stamped := ∅ }
        [.write toA "db" (body ["password"]), .deleteKey toA "db" "_metadata"]) := by
  decide +kernel

/-- Two paths, of which one is rewritten, loses a key and is deleted. -/
theorem metadata_stays_stamped_two :
    Intact "A" (run (step "A") { tokens := fun _ => [], stamped := ∅ }
      [.write toA "db" (body ["password", "user"]), .write toA "web/tls" (body ["crt"]),
        .deleteKey toA "db" "user", .write toA "db" (body ["password"]), .delete toA "db"]) :=
  metadata_stays_stamped "A" (fun _ => []) (by decide) _ (by decide +kernel) (by decide +kernel)

end HsmSecretsOperator.System.ReservedMetadata
