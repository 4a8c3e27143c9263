/- source: internal/api/proxy_client.go
   digest: The checksum and the metadata the proxy reports against the data it serves. -/

import HsmSecretsOperator.Api.Proxy
import HsmSecretsOperator.Hsm.Vault

set_option autoImplicit false

namespace HsmSecretsOperator.Api.Consistency

open Foundation.Election Foundation.Text Hsm.Secret
open Hsm.Vault (Store)
open Proxy Reconcile.Resolve

variable {σ : Type} (c : Client σ) (faults : ReadFaults) (cl : Cluster σ) (path : String)

private theorem perm_cons_erase {clients : List String} {d : String} (hd : d ∈ clients) :
    (d :: clients.erase d).Perm clients :=
  (List.perm_cons_erase hd).symm

section Checksum

/-- The checksum a device reports for the copy that it lets be read. -/
def checksumOf (r : SecretResult) : ChecksumResult :=
  { deviceName := r.deviceName, checksum := calculateChecksum r.data }

private theorem checksumDevice_eq (d : String) :
    checksumDevice c faults cl path d = (readDevice c faults cl path d).map checksumOf := by
  unfold checksumDevice readDevice
  cases faults.secret d with
  | true => rfl
  | false =>
    cases c.readSecret (cl d) path with
    | error text => rfl
    | ok data =>
      simp only [Bool.false_eq_true, if_false, Except.toOption, Option.map_some]
      split
      · rfl
      · rfl

private theorem checksumResults_eq (arrivals : List String) :
    arrivals.filterMap (checksumDevice c faults cl path) =
      (collectResults c faults cl path arrivals).map checksumOf := by
  rw [collectResults, List.map_filterMap]
  exact congrArg (fun f => arrivals.filterMap f) (funext (checksumDevice_eq c faults cl path))

variable {results : List SecretResult} {n : Nat} {checksum : String}

private theorem findConsensusChecksum_eq (hne : results ≠ []) :
    ∃ r ∈ results, findConsensusChecksum (results.map checksumOf) n =
      .ok (calculateChecksum r.data) := by
  let obs := (results.map checksumOf).map ChecksumResult.observation
  have hvoters : votersOf obs = obs := by
    rw [votersOf, List.filter_eq_self]
    intro o ho
    obtain ⟨r, _, rfl⟩ := List.mem_map.mp ho
    rfl
  have hne' : votersOf obs ≠ [] := by
    rw [hvoters]
    simpa [obs] using hne
  obtain ⟨v, hv, hsum⟩ := (resolve_elects hne' n).exists_voter
  rw [hvoters] at hv
  simp only [obs, List.map_map, List.mem_map] at hv
  obtain ⟨r, hr, rfl⟩ := hv
  have hfound := (resolve_found_iff obs n).mpr hne'
  refine ⟨r, hr, ?_⟩
  simp only [findConsensusChecksum, List.isEmpty_map, List.isEmpty_eq_false_iff.mpr hne,
    Bool.false_eq_true, if_false]
  rw [hfound, ← hsum]
  rfl

/-- The results that carry a deletion mark, and those that do not. -/
def marked (results : List SecretResult) : List SecretResult :=
  results.filter fun r => isSecretDeleted r.metadata

def unmarked (results : List SecretResult) : List SecretResult :=
  results.filter fun r => !isSecretDeleted r.metadata

/-- Marked results are no strict majority of three or more devices, and unmarked ones are or one of
them is the newest. -/
def UnmarkedPrevail (results : List SecretResult) (n : Nat) : Prop :=
  ¬ (3 ≤ n ∧ n / 2 < (marked results).length) ∧
    (3 ≤ n ∧ n / 2 < (unmarked results).length ∨
      ∃ r ∈ results, isSecretDeleted r.metadata = false ∧
        ∀ r' ∈ results, r'.observation.rank ≤ r.observation.rank)

private theorem UnmarkedPrevail.perm {results' : List SecretResult}
    (h : UnmarkedPrevail results n) (hp : results.Perm results') : UnmarkedPrevail results' n := by
  have hmarked : (marked results).length = (marked results').length := (hp.filter _).length_eq
  have hunmarked : (unmarked results).length = (unmarked results').length :=
    (hp.filter _).length_eq
  obtain ⟨hfew, hmost | ⟨r, hr, hlive, htop⟩⟩ := h
  · exact ⟨hmarked ▸ hfew, .inl (hunmarked ▸ hmost)⟩
  · refine ⟨hmarked ▸ hfew, .inr ⟨r, hp.mem_iff.mp hr, hlive, ?_⟩⟩
    intro r' hr'
    exact htop r' (hp.mem_iff.mpr hr')

private theorem effectiveChecksum_observation (r : SecretResult) :
    r.observation.effectiveChecksum =
      if isSecretDeleted r.metadata then tombstoneChecksum else calculateChecksum r.data := by
  unfold SecretResult.observation DeviceObservation.effectiveChecksum
  rfl

private theorem votes_tombstone (results : List SecretResult) :
    votes DeviceObservation.effectiveChecksum (results.map SecretResult.observation)
      tombstoneChecksum = (marked results).length := by
  rw [votes, List.countP_map, marked, ← List.countP_eq_length_filter]
  refine List.countP_congr fun r _ => ?_
  simp only [Function.comp_apply, decide_eq_true_eq, effectiveChecksum_observation]
  cases isSecretDeleted r.metadata with
  | true => simp
  | false => simpa using calculateChecksum_ne_tombstone r.data

private theorem votes_checksum (hsame : ∀ r ∈ results, calculateChecksum r.data = checksum) :
    votes DeviceObservation.effectiveChecksum (results.map SecretResult.observation) checksum =
      (unmarked results).length := by
  rw [votes, List.countP_map, unmarked, ← List.countP_eq_length_filter]
  refine List.countP_congr fun r hr => ?_
  have hne := calculateChecksum_ne_tombstone r.data
  rw [hsame r hr] at hne
  simp only [Function.comp_apply, decide_eq_true_eq, effectiveChecksum_observation, hsame r hr]
  cases isSecretDeleted r.metadata with
  | true => simpa using hne.symm
  | false => simp

private theorem value_of_voter (hsame : ∀ r ∈ results, calculateChecksum r.data = checksum)
    {v : DeviceObservation} (hv : v ∈ results.map SecretResult.observation) :
    v.effectiveChecksum = tombstoneChecksum ∨ v.effectiveChecksum = checksum := by
  obtain ⟨r, hr, rfl⟩ := List.mem_map.mp hv
  rw [effectiveChecksum_observation, hsame r hr]
  cases isSecretDeleted r.metadata with
  | true => exact .inl rfl
  | false => exact .inr rfl

private theorem deleted_eq_false_iff (hnodup : (results.map SecretResult.deviceName).Nodup)
    (hn : results.length ≤ n) (hne : results ≠ [])
    (hsame : ∀ r ∈ results, calculateChecksum r.data = checksum) :
    (readVerdict results n).deleted = false ↔ UnmarkedPrevail results n := by
  have hlive : checksum ≠ tombstoneChecksum := by
    obtain ⟨r, hr⟩ := List.exists_mem_of_ne_nil results hne
    rw [← hsame r hr]
    exact calculateChecksum_ne_tombstone r.data
  have hlength : (results.map SecretResult.observation).length ≤ n := by simpa using hn
  rw [Bool.eq_false_iff, ne_eq, readVerdict_deleted_iff hne]
  constructor
  · intro hwinner
    have helects := readVerdict_elects (n := n) hne
    have hchecksum : (readVerdict results n).winningChecksum = checksum := by
      obtain ⟨v, hv, hvalue⟩ := helects.exists_voter
      rw [← hvalue] at hwinner ⊢
      exact (value_of_voter hsame hv).resolve_left hwinner
    rw [hchecksum] at helects
    cases helects with
    | majority three most =>
      refine ⟨?_, .inl ⟨three, ?_⟩⟩
      · rintro ⟨_, hmarked⟩
        rw [← votes_tombstone] at hmarked
        exact hlive (most.unique hlength hmarked)
      · rwa [Majority, votes_checksum hsame] at most
    | newest b split top holds =>
      constructor
      · rintro ⟨three, hmarked⟩
        rw [← votes_tombstone] at hmarked
        exact split three _ hmarked
      · obtain ⟨r, hr, rfl⟩ := List.mem_map.mp top.1
        refine .inr ⟨r, hr, ?_, fun r' hr' => top.2 _ (List.mem_map_of_mem hr')⟩
        rw [Bool.eq_false_iff]
        intro hdeleted
        rw [effectiveChecksum_observation, if_pos hdeleted] at holds
        exact hlive holds.symm
  · rintro ⟨hmarked, hprevail⟩
    have helects : Elects DeviceObservation.effectiveChecksum DeviceObservation.rank n
        (results.map SecretResult.observation) checksum := by
      by_cases hmost : 3 ≤ n ∧ n / 2 < (unmarked results).length
      · refine .majority hmost.1 ?_
        rw [Majority, votes_checksum hsame]
        exact hmost.2
      · obtain ⟨r, hr, hdeleted, htop⟩ := hprevail.resolve_left hmost
        refine .newest r.observation ?_ ⟨List.mem_map_of_mem hr, ?_⟩ ?_
        · intro three c' hc'
          obtain ⟨v, hv, rfl⟩ := exists_voter_of_votes_pos (Nat.zero_lt_of_lt hc')
          rcases value_of_voter hsame hv with hvalue | hvalue
          · rw [Majority, hvalue, votes_tombstone] at hc'
            exact hmarked ⟨three, hc'⟩
          · rw [Majority, hvalue, votes_checksum hsame] at hc'
            exact hmost ⟨three, hc'⟩
        · intro v hv
          obtain ⟨r', hr', rfl⟩ := List.mem_map.mp hv
          exact htop r' hr'
        · rw [effectiveChecksum_observation, hdeleted, hsame r hr]
          rfl
    rw [winningChecksum_of_elects hnodup hn helects]
    exact hlive

/-- Whatever the orders in which clients are asked and answer, the checksums that are reported with
the data and without it are those of the data, and both endpoints find the path or neither does. -/
def ChecksumsMatch (clients : List String) : Prop :=
  ∀ arrivals order arrivals' : List String,
    arrivals.Perm clients → order.Perm clients → arrivals'.Perm clients →
      match readSecretResponse c faults cl path arrivals order with
      | .ok r => r.checksum = calculateChecksum r.data ∧
          getChecksum c faults cl path arrivals' = .ok (calculateChecksum r.data)
      | .error _ => ∃ text, getChecksum c faults cl path arrivals' = .error text

private theorem collectResults_perm {arrivals clients : List String} (h : arrivals.Perm clients) :
    (collectResults c faults cl path arrivals).Perm (collectResults c faults cl path clients) :=
  h.filterMap _

variable {c faults cl path} {clients arrivals order : List String}

private theorem collectResults_ne_nil (h : arrivals.Perm clients)
    (hne : collectResults c faults cl path clients ≠ []) :
    collectResults c faults cl path arrivals ≠ [] := by
  intro hnil
  exact hne (List.Perm.eq_nil (hnil ▸ (collectResults_perm c faults cl path h).symm))

private theorem getChecksum_eq (hne : collectResults c faults cl path arrivals ≠ []) :
    ∃ r ∈ collectResults c faults cl path arrivals,
      getChecksum c faults cl path arrivals = .ok (calculateChecksum r.data) := by
  rw [getChecksum, checksumResults_eq]
  exact findConsensusChecksum_eq hne

private theorem readSecretResponse_eq {data : SecretData}
    (hread : findMostRecentSecretResult (collectResults c faults cl path arrivals)
      arrivals.length = .ok data) (horder : order.Perm arrivals) :
    ∃ r ∈ collectResults c faults cl path arrivals,
      (∀ r', readDevice c faults cl path (order.headD "") = some r' → r = r') ∧
      readSecretResponse c faults cl path arrivals order = .ok
        { path, data, checksum := calculateChecksum r.data
          deviceCount := (collectResults c faults cl path arrivals).length } := by
  have hperm := collectResults_perm c faults cl path horder
  have hne : collectResults c faults cl path arrivals ≠ [] := by
    intro hnil
    rw [hnil] at hread
    cases hread
  obtain ⟨r, rest, hcons⟩ := List.exists_cons_of_ne_nil (collectResults_ne_nil horder hne)
  have hfirst : order.findSome? (checksumDevice c faults cl path) = some (checksumOf r) := by
    rw [← List.head?_filterMap, checksumResults_eq, hcons]
    rfl
  refine ⟨r, hperm.mem_iff.mp (hcons ▸ List.mem_cons_self), ?_, ?_⟩
  · intro r' hr'
    cases order with
    | nil => cases hcons
    | cons d order =>
      rw [collectResults, List.filterMap_cons, show readDevice c faults cl path d = some r' from
        hr'] at hcons
      exact (List.cons.inj hcons).1.symm
  · simp only [readSecretResponse, hread, List.length_pos_of_ne_nil hne, if_true, hfirst]
    rfl

private theorem checksumsMatch_of_nil (hnil : collectResults c faults cl path clients = []) :
    ChecksumsMatch c faults cl path clients := by
  intro arrivals order arrivals' harrivals _ harrivals'
  have hnone := List.Perm.eq_nil (hnil ▸ collectResults_perm c faults cl path harrivals)
  have hnone' := List.Perm.eq_nil (hnil ▸ collectResults_perm c faults cl path harrivals')
  have hread : readSecretResponse c faults cl path arrivals order =
      .error "secret not found on any HSM device" := by
    simp [readSecretResponse, hnone, findMostRecentSecretResult]
  rw [hread]
  refine ⟨"checksum not found on any HSM device", ?_⟩
  rw [getChecksum, checksumResults_eq, hnone']
  rfl

section Match

variable (hnodup : clients.Nodup) (hne : collectResults c faults cl path clients ≠ [])

include hnodup hne

/-- Each copy is the one reported when the map yields its client first. -/
private theorem same_of_checksumsMatch (hmatch : ChecksumsMatch c faults cl path clients) :
    (readVerdict (collectResults c faults cl path clients) clients.length).deleted = false ∧
      ∃ data, ∀ r ∈ collectResults c faults cl path clients,
        calculateChecksum r.data = calculateChecksum data := by
  have hnames := nodup_collectResults c faults cl path hnodup
  have hlive : (readVerdict (collectResults c faults cl path clients)
      clients.length).deleted = false := by
    rw [Bool.eq_false_iff]
    intro hdeleted
    have hanswer := hmatch clients clients clients (.refl _) (.refl _) (.refl _)
    obtain ⟨r, _, hchecksum⟩ := getChecksum_eq hne
    simp [readSecretResponse, findMostRecentSecretResult_of_missing (.inr hdeleted),
      hchecksum] at hanswer
  obtain ⟨w, _, _, _, hread⟩ := findMostRecentSecretResult_of_live hnames hne hlive
  refine ⟨hlive, w.data, ?_⟩
  intro r hr
  obtain ⟨d, hd, hdevice⟩ := List.mem_filterMap.mp hr
  have hperm := perm_cons_erase hd
  obtain ⟨r', _, hfirst, hresponse⟩ := readSecretResponse_eq hread hperm
  have hanswer := hmatch clients _ clients (.refl _) hperm (.refl _)
  rw [hresponse] at hanswer
  rw [← hfirst r hdevice]
  exact hanswer.1

private theorem checksumsMatch_of_same {checksum : String}
    (hsame : ∀ r ∈ collectResults c faults cl path clients, calculateChecksum r.data = checksum)
    (hprevail : UnmarkedPrevail (collectResults c faults cl path clients) clients.length) :
    ChecksumsMatch c faults cl path clients := by
  intro arrivals order arrivals' harrivals horder harrivals'
  have hperm := collectResults_perm c faults cl path harrivals
  have hperm' := collectResults_perm c faults cl path harrivals'
  have hne' := collectResults_ne_nil harrivals' hne
  have hnames := nodup_collectResults c faults cl path (harrivals.nodup_iff.mpr hnodup)
  have hfound := collectResults_ne_nil harrivals hne
  have hsameArrived : ∀ r ∈ collectResults c faults cl path arrivals,
      calculateChecksum r.data = checksum := fun r hr => hsame r (hperm.mem_iff.mp hr)
  have hlive : (readVerdict (collectResults c faults cl path arrivals)
      arrivals.length).deleted = false := by
    rw [deleted_eq_false_iff hnames (List.length_filterMap_le _ _) hfound hsameArrived,
      harrivals.length_eq]
    exact hprevail.perm hperm.symm
  obtain ⟨w, hw, _, _, hread⟩ := findMostRecentSecretResult_of_live hnames hfound hlive
  obtain ⟨r, hr, _, hresponse⟩ := readSecretResponse_eq hread (horder.trans harrivals.symm)
  obtain ⟨r', hr', hchecksum⟩ := getChecksum_eq hne'
  rw [hresponse, hchecksum]
  dsimp only
  rw [hsameArrived r hr, hsameArrived w hw, hsame r' (hperm'.mem_iff.mp hr')]
  exact ⟨rfl, rfl⟩

end Match

/-- The checksums match exactly if no copy can be read, or all copies that can have one checksum
and those with a deletion mark do not prevail. -/
theorem checksumsMatch_iff (c : Client σ) (faults : ReadFaults) (cl : Cluster σ) (path : String)
    {clients : List String} (hnodup : clients.Nodup) :
    ChecksumsMatch c faults cl path clients ↔
      collectResults c faults cl path clients = [] ∨
        (∀ r ∈ collectResults c faults cl path clients,
          ∀ r' ∈ collectResults c faults cl path clients,
            calculateChecksum r.data = calculateChecksum r'.data) ∧
        UnmarkedPrevail (collectResults c faults cl path clients) clients.length := by
  have hnames := nodup_collectResults c faults cl path hnodup
  have hlength : (collectResults c faults cl path clients).length ≤ clients.length :=
    List.length_filterMap_le _ _
  by_cases hne : collectResults c faults cl path clients = []
  · exact iff_of_true (checksumsMatch_of_nil hne) (.inl hne)
  · rw [or_iff_right hne]
    constructor
    · intro hmatch
      obtain ⟨hlive, data, hsame⟩ := same_of_checksumsMatch hnodup hne hmatch
      refine ⟨?_, (deleted_eq_false_iff hnames hlength hne hsame).mp hlive⟩
      intro r hr r' hr'
      rw [hsame r hr, hsame r' hr']
    · intro ⟨hsame, hprevail⟩
      obtain ⟨r, hr⟩ := List.exists_mem_of_ne_nil _ hne
      exact checksumsMatch_of_same hnodup hne (fun r' hr' => hsame r' hr' r hr) hprevail

private def password (value : String) : SecretData :=
  (∅ : Std.ExtTreeMap String Foundation.Text.Bytes).insert "password" (utf8 value)

private def holding (value : String) (labels : Labels) : Store :=
  Hsm.Vault.writeSecret ∅ "db" (password value) (some { labels })

private def versioned (version : String) : Labels :=
  (∅ : Std.ExtTreeMap String String).insert labelSyncVersion version

private def diverged : Cluster Store
  | "A" => holding "old" (versioned "1")
  | _ => holding "new" (versioned "2")

/-- The data is that of the newer copy, the checksum that of the older one. -/
theorem checksum_of_outvoted_copy :
    ¬ ChecksumsMatch Hsm.Vault.client {} diverged "db" ["A", "B"] := by
  intro h
  have hanswer := h ["A", "B"] ["A", "B"] ["A", "B"] (.refl _) (.refl _) (.refl _)
  have hresponse : readSecretResponse Hsm.Vault.client {} diverged "db" ["A", "B"] ["A", "B"] =
      .ok { path := "db", data := password "new", checksum := calculateChecksum (password "old")
            deviceCount := 2 } := by decide +kernel
  rw [hresponse] at hanswer
  exact absurd hanswer.1 (by decide +kernel)

theorem checksumsMatch_in_sync :
    ChecksumsMatch Hsm.Vault.client {} (fun _ => holding "new" (versioned "2")) "db"
      ["A", "B", "C"] :=
  (checksumsMatch_iff Hsm.Vault.client {} (fun _ => holding "new" (versioned "2")) "db"
    (by decide)).mpr (.inr ⟨by decide +kernel, by decide +kernel, .inl (by decide +kernel)⟩)

end Checksum

section Metadata

variable (clients : List String)

def reachable : List String := clients.filter fun d => !faults.metadata d

/-- The observation that the stored copy deserves. -/
def copyObservation (d : String) : DeviceObservation :=
  let metadata := (c.readMetadata (cl d) path).toOption
  let data := (c.readSecret (cl d) path).toOption
  let tombstone := metadataDeleted metadata
  { deviceID := d
    present := !tombstone && data.isSome
    tombstone
    checksum := (data.map calculateChecksum).getD ""
    version := metadataVersion metadata
    timestamp := metadataTimestamp metadata }

/-- The device holds a live copy or a tombstone, with metadata. -/
def HoldsCopy (s : σ) : Prop :=
  ∃ m, c.readMetadata s path = .ok m ∧
    (metadataDeleted (some m) = true ∨ ∃ data, c.readSecret s path = .ok data)

/-- The true observations of the reachable devices. -/
def copies : List DeviceObservation :=
  (reachable faults clients).map (copyObservation c cl path)

/-- In any order of arrival the answer is the metadata of a device with the winning content, and
the order does not matter. -/
structure DescribesWinner : Prop where
  winner : ∀ arrivals m, arrivals.Perm clients → readMetadata c faults cl path arrivals = .ok m →
    ∃ d ∈ reachable faults clients, c.readMetadata (cl d) path = .ok m ∧
      (copyObservation c cl path d).effectiveChecksum =
        (resolve (copies c faults cl path clients) clients.length).winningChecksum
  stable : ∀ arrivals arrivals', arrivals.Perm clients → arrivals'.Perm clients →
    readMetadata c faults cl path arrivals = readMetadata c faults cl path arrivals'

def Latest (d : String) : Prop :=
  d ∈ reachable faults clients ∧ ∀ e ∈ reachable faults clients,
    (copyObservation c cl path e).timestamp ≤ (copyObservation c cl path d).timestamp

variable {c faults cl path clients}

private theorem metadataDevice_eq_some {d : String} {r : MetadataResult}
    (h : metadataDevice c faults cl path d = some r) :
    faults.metadata d = false ∧ c.readMetadata (cl d) path = .ok r.metadata ∧
      r.timestamp = (copyObservation c cl path d).timestamp := by
  unfold metadataDevice at h
  split at h
  · cases h
  next hfault =>
    cases hread : c.readMetadata (cl d) path with
    | error text => simp [hread, Except.toOption] at h
    | ok m =>
      obtain rfl : { deviceName := d, metadata := m } = r := by
        simpa [hread, Except.toOption] using h
      refine ⟨by simpa using hfault, rfl, ?_⟩
      simp [copyObservation, hread, Except.toOption, MetadataResult.timestamp,
        parseTimestampFromMetadata]

private theorem metadataDevice_of_reachable {d : String} (hd : d ∈ reachable faults clients)
    {m : SecretMetadata} (hread : c.readMetadata (cl d) path = .ok m) :
    metadataDevice c faults cl path d = some { deviceName := d, metadata := m } := by
  have hfault : faults.metadata d = false := by simpa using (List.mem_filter.mp hd).2
  simp [metadataDevice, hfault, hread, Except.toOption]

private theorem higher_iff (r best : MetadataResult) :
    decide (r.timestamp > best.timestamp) = true ↔ best.timestamp < r.timestamp :=
  decide_eq_true_iff

private theorem readMetadata_of_unreachable {arrivals : List String}
    (harrivals : arrivals.Perm clients) (hnone : reachable faults clients = []) :
    readMetadata c faults cl path arrivals = .error "metadata not found on any HSM device" := by
  have hresults : arrivals.filterMap (metadataDevice c faults cl path) = [] := by
    rw [List.filterMap_eq_nil_iff]
    intro d hd
    have hfault := List.filter_eq_nil_iff.mp hnone d (harrivals.mem_iff.mp hd)
    exact if_pos (by simpa using hfault)
  rw [readMetadata, hresults]
  rfl

private theorem readMetadata_of_reachable {arrivals : List String}
    (harrivals : arrivals.Perm clients) {d : String} (hd : d ∈ reachable faults clients)
    (hholds : HoldsCopy c path (cl d)) : ∃ m, readMetadata c faults cl path arrivals = .ok m := by
  obtain ⟨m, hread, _⟩ := hholds
  have hin : d ∈ arrivals := harrivals.mem_iff.mpr (List.mem_filter.mp hd).1
  have hmem := List.mem_filterMap.mpr ⟨d, hin, metadataDevice_of_reachable hd hread⟩
  unfold readMetadata
  cases hresults : arrivals.filterMap (metadataDevice c faults cl path) with
  | nil => simp [hresults] at hmem
  | cons first rest => exact ⟨_, rfl⟩

section Copies

variable (hholds : ∀ d ∈ reachable faults clients, HoldsCopy c path (cl d))
include hholds

private theorem latest_of_readMetadata {arrivals : List String} (harrivals : arrivals.Perm clients)
    {m : SecretMetadata} (h : readMetadata c faults cl path arrivals = .ok m) :
    ∃ d, Latest c faults cl path clients d ∧ c.readMetadata (cl d) path = .ok m := by
  unfold readMetadata at h
  cases hresults : arrivals.filterMap (metadataDevice c faults cl path) with
  | nil => simp [hresults, findMostRecentMetadataResult] at h
  | cons first rest =>
    obtain ⟨hmem, htop⟩ := newest_foldl higher_iff first rest
    rw [hresults, findMostRecentMetadataResult] at h
    simp only [decide_eq_true_eq] at hmem htop
    rw [← hresults] at hmem htop
    obtain ⟨d, hd, hdevice⟩ := List.mem_filterMap.mp hmem
    obtain ⟨hfault, hread, htime⟩ := metadataDevice_eq_some hdevice
    have hreach : d ∈ reachable faults clients :=
      List.mem_filter.mpr ⟨harrivals.mem_iff.mp hd, by simp [hfault]⟩
    refine ⟨d, ⟨hreach, ?_⟩, by rw [hread]; exact h⟩
    intro e he
    obtain ⟨m', hread', _⟩ := hholds e he
    have hdevice' := metadataDevice_of_reachable he hread'
    have hin : e ∈ arrivals := harrivals.mem_iff.mpr (List.mem_filter.mp he).1
    have hle := htop _ (List.mem_filterMap.mpr ⟨e, hin, hdevice'⟩)
    rw [← htime, ← (metadataDevice_eq_some hdevice').2.2]
    exact hle

private theorem readMetadata_of_first {d : String} (hlatest : Latest c faults cl path clients d) :
    readMetadata c faults cl path (d :: clients.erase d) = c.readMetadata (cl d) path := by
  obtain ⟨m, hread, _⟩ := hholds d hlatest.1
  have hdevice := metadataDevice_of_reachable hlatest.1 hread
  have hmem := (List.mem_filter.mp hlatest.1).1
  have hrest : ∀ r ∈ (clients.erase d).filterMap (metadataDevice c faults cl path),
      r.timestamp ≤ ({ deviceName := d, metadata := m } : MetadataResult).timestamp := by
    intro r hr
    obtain ⟨e, he, hdevice'⟩ := List.mem_filterMap.mp hr
    obtain ⟨hfault, _, htime⟩ := metadataDevice_eq_some hdevice'
    rw [htime, (metadataDevice_eq_some hdevice).2.2]
    exact hlatest.2 e (List.mem_filter.mpr ⟨List.mem_of_mem_erase he, by simp [hfault]⟩)
  have hfold := foldl_eq_of_newest higher_iff hrest
  simp only [decide_eq_true_eq] at hfold
  rw [readMetadata, List.filterMap_cons, hdevice]
  dsimp only [findMostRecentMetadataResult]
  rw [hfold, hread]

private theorem votersOf_copies :
    votersOf (copies c faults cl path clients) = copies c faults cl path clients := by
  rw [votersOf, List.filter_eq_self]
  intro o ho
  obtain ⟨d, hd, rfl⟩ := List.mem_map.mp ho
  obtain ⟨m, hread, hcopy⟩ := hholds d hd
  rcases hcopy with hdeleted | ⟨data, hdata⟩
  · simp [copyObservation, DeviceObservation.hasOpinion, hread, Except.toOption, hdeleted]
  · simp only [copyObservation, DeviceObservation.hasOpinion, hdata, Except.toOption]
    cases metadataDeleted _ with
    | true => rfl
    | false => rfl

private theorem elects_copies {d : String} (hd : d ∈ reachable faults clients) :
    Elects DeviceObservation.effectiveChecksum DeviceObservation.rank clients.length
      (copies c faults cl path clients)
      (resolve (copies c faults cl path clients) clients.length).winningChecksum := by
  have hvoters := votersOf_copies hholds
  have hne : votersOf (copies c faults cl path clients) ≠ [] := by
    rw [hvoters]
    exact List.ne_nil_of_mem (List.mem_map_of_mem hd)
  have helects := resolve_elects hne clients.length
  rwa [hvoters] at helects

end Copies

/-- The metadata endpoint describes the winning copy exactly if the reachable devices with the
latest timestamp share their metadata, and a device with that metadata holds the elected content. -/
theorem describesWinner_iff (c : Client σ) (faults : ReadFaults) (cl : Cluster σ) (path : String)
    {clients : List String} (hnodup : clients.Nodup)
    (hholds : ∀ d ∈ reachable faults clients, HoldsCopy c path (cl d)) :
    DescribesWinner c faults cl path clients ↔
      (∀ d e, Latest c faults cl path clients d → Latest c faults cl path clients e →
        c.readMetadata (cl d) path = c.readMetadata (cl e) path) ∧
      ∀ d, Latest c faults cl path clients d → ∃ e ∈ reachable faults clients,
        c.readMetadata (cl e) path = c.readMetadata (cl d) path ∧
        Elects DeviceObservation.effectiveChecksum DeviceObservation.rank clients.length
          (copies c faults cl path clients) (copyObservation c cl path e).effectiveChecksum := by
  have hperm : ∀ {d}, Latest c faults cl path clients d → (d :: clients.erase d).Perm clients :=
    fun h => perm_cons_erase (List.mem_filter.mp h.1).1
  constructor
  · intro h
    constructor
    · intro d e hd he
      rw [← readMetadata_of_first hholds hd, ← readMetadata_of_first hholds he]
      exact h.stable _ _ (hperm hd) (hperm he)
    · intro d hd
      obtain ⟨m, hread, _⟩ := hholds d hd.1
      have hanswer := readMetadata_of_first hholds hd
      rw [hread] at hanswer ⊢
      obtain ⟨e, he, hmeta, hwinner⟩ := h.winner _ m (hperm hd) hanswer
      refine ⟨e, he, hmeta, ?_⟩
      rw [hwinner]
      exact elects_copies hholds hd.1
  · intro ⟨hshared, helected⟩
    have hids : ((copies c faults cl path clients).map DeviceObservation.deviceID).Nodup := by
      rw [copies, List.map_map]
      exact (hnodup.filter _).map fun _ _ h => h
    have hlength : (copies c faults cl path clients).length ≤ clients.length := by
      rw [copies, List.length_map, reachable]
      exact List.length_filter_le _ _
    constructor
    · intro arrivals m harrivals hanswer
      obtain ⟨d, hd, hread⟩ := latest_of_readMetadata hholds harrivals hanswer
      obtain ⟨e, he, hmeta, helects⟩ := helected d hd
      refine ⟨e, he, hmeta.trans hread, ?_⟩
      exact helects.unique (rank_injOn hids) hlength (elects_copies hholds hd.1)
    · intro arrivals arrivals' harrivals harrivals'
      by_cases hnone : reachable faults clients = []
      · rw [readMetadata_of_unreachable harrivals hnone,
          readMetadata_of_unreachable harrivals' hnone]
      · obtain ⟨d, hd⟩ := List.exists_mem_of_ne_nil _ hnone
        obtain ⟨m, hanswer⟩ := readMetadata_of_reachable harrivals hd (hholds d hd)
        obtain ⟨m', hanswer'⟩ := readMetadata_of_reachable harrivals' hd (hholds d hd)
        obtain ⟨e, he, hread⟩ := latest_of_readMetadata hholds harrivals hanswer
        obtain ⟨e', he', hread'⟩ := latest_of_readMetadata hholds harrivals' hanswer'
        rw [hanswer, hanswer', ← hread, ← hread', hshared e e' he he']

private def skewed : Cluster Store
  | "A" => holding "new" ((versioned "2").insert labelSyncTimestamp "2025-01-01T00:00:00Z")
  | _ => holding "old" ((versioned "1").insert labelSyncTimestamp "2025-01-02T00:00:00Z")

private theorem holdsCopy_holding (value : String) (labels : Labels) :
    HoldsCopy Hsm.Vault.client "db" (holding value labels) := by
  refine ⟨{ labels }, ?_, .inr ⟨password value, ?_⟩⟩
  · simp [holding, Hsm.Vault.client, Hsm.Vault.readMetadata]
  · have hne : password value ≠ ∅ := Std.ExtTreeMap.insert_ne_empty
    exact Hsm.Vault.readSecret_eq_ok.mpr
      ⟨hne, some { labels }, Hsm.Vault.getElem?_writeSecret_self ∅ "db" _ _⟩

theorem metadata_of_losing_copy :
    (∀ d, HoldsCopy Hsm.Vault.client "db" (skewed d)) ∧
      ¬ DescribesWinner Hsm.Vault.client {} skewed "db" ["A", "B"] := by
  constructor
  · intro d
    unfold skewed
    split
    · exact holdsCopy_holding _ _
    · exact holdsCopy_holding _ _
  · intro h
    have hanswer : readMetadata Hsm.Vault.client {} skewed "db" ["A", "B"] = .ok
        { labels := (versioned "1").insert labelSyncTimestamp "2025-01-02T00:00:00Z" } := by
      decide +kernel
    have hdescribed := h.winner _ _ (.refl _) hanswer
    revert hdescribed
    decide +kernel

private def settled : Cluster Store := fun _ => holding "new" (versioned "2")

theorem describesWinner_in_sync :
    DescribesWinner Hsm.Vault.client {} settled "db" ["A", "B", "C"] := by
  refine (describesWinner_iff Hsm.Vault.client {} settled "db" (by decide)
    fun _ _ => holdsCopy_holding _ _).mpr ⟨fun _ _ _ _ => rfl, fun d hd => ?_⟩
  have hmost : Majority DeviceObservation.effectiveChecksum 3
      (copies Hsm.Vault.client {} settled "db" ["A", "B", "C"])
      (copyObservation Hsm.Vault.client settled "db" "A").effectiveChecksum := by
    unfold Majority
    decide +kernel
  exact ⟨d, hd.1, rfl, .majority (by decide) hmost⟩

end Metadata

end HsmSecretsOperator.Api.Consistency
