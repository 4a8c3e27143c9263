/- source: internal/reconcile/resolve.go
   digest: What a verdict says, and that majority verdicts of different responders agree. -/

import HsmSecretsOperator.Reconcile.Resolve

set_option autoImplicit false

namespace HsmSecretsOperator.Reconcile.Verdict

open Foundation.Election Resolve

/-- Greater by version, then by timestamp, then by the smaller device ID. -/
def Outranks (b v : DeviceObservation) : Prop :=
  v.version < b.version ∨ v.version = b.version ∧
    (v.timestamp < b.timestamp ∨ v.timestamp = b.timestamp ∧ b.deviceID < v.deviceID)

/-- More than half of the expected devices vote for the checksum. -/
def HeldByMost (obs : List DeviceObservation) (deviceCount : Nat) (checksum : String) : Prop :=
  3 ≤ deviceCount ∧
    deviceCount / 2 < (votersOf obs).countP fun v => v.effectiveChecksum = checksum

/-- A voter stands behind the device ID, with a value as given. -/
def VotesAs (obs : List DeviceObservation) (P : String → Prop) (id : String) : Prop :=
  ∃ v ∈ votersOf obs, v.deviceID = id ∧ P v.effectiveChecksum

/-- What the verdict on the observations has to say when there is a voter. -/
structure Describes (obs : List DeviceObservation) (deviceCount : Nat) (d : Decision) : Prop where
  found : d.found = true
  majority : (∃ c, HeldByMost obs deviceCount c) →
    d.strategy = .majority ∧ ∀ c, HeldByMost obs deviceCount c ↔ c = d.winningChecksum
  newest : (¬ ∃ c, HeldByMost obs deviceCount c) →
    d.strategy = (if 3 ≤ deviceCount then .majorityLWW else .lww) ∧
      ∃ b ∈ votersOf obs, (∀ v ∈ votersOf obs, v ≠ b → Outranks b v) ∧
        b.effectiveChecksum = d.winningChecksum
  winner : IsLeast {id | VotesAs obs (· = d.winningChecksum) id} d.winningDeviceID
  outliers : d.outliers.Pairwise (· < ·) ∧
    ∀ id, id ∈ d.outliers ↔ VotesAs obs (· ≠ d.winningChecksum) id
  diverged : d.diverged = true ↔ d.outliers ≠ []
  deleted : d.deleted = true ↔ d.winningChecksum = tombstoneChecksum

/-- Without a voter the verdict is that nothing was found. -/
def IsVerdict (obs : List DeviceObservation) (deviceCount : Nat) (d : Decision) : Prop :=
  if votersOf obs = [] then d = {} else Describes obs deviceCount d

variable {obs : List DeviceObservation} {n : Nat}

private theorem outranks_iff {b v : DeviceObservation} : Outranks b v ↔ v.rank < b.rank := by
  simp only [Outranks, DeviceObservation.rank, Prod.Lex.toLex_lt_toLex,
    OrderDual.toDual_lt_toDual]

private theorem heldByMost_iff {c : String} : HeldByMost obs n c ↔
    Prevails DeviceObservation.effectiveChecksum n (votersOf obs) c :=
  Iff.rfl

private theorem nodup_voters (hids : (obs.map DeviceObservation.deviceID).Nodup) :
    ((votersOf obs).map DeviceObservation.deviceID).Nodup :=
  (List.filter_sublist.map _).nodup hids

private theorem named_holders (hnamed : "" ∉ obs.map DeviceObservation.deviceID) (c : String) :
    "" ∉ holders (votersOf obs) c := by
  intro h
  obtain ⟨v, hv, hid, _⟩ := mem_holders.mp h
  exact hnamed (List.mem_map.mpr ⟨v, List.mem_of_mem_filter hv, hid⟩)

private theorem chooseWinner_strategy (best : DeviceObservation) (rest : List DeviceObservation)
    (n : Nat) : (chooseWinner best rest n).2 =
      if 3 ≤ n then
        if (strictMajority (countVotes (best :: rest)) n).isSome then .majority else .majorityLWW
      else .lww := by
  unfold chooseWinner
  split
  · cases strictMajority (countVotes (best :: rest)) n with
    | none => rfl
    | some c => rfl
  · rfl

theorem isSome_strictMajority_iff (voters : List DeviceObservation) (n : Nat) :
    (strictMajority (countVotes voters) n).isSome = true ↔
      ∃ c, Majority DeviceObservation.effectiveChecksum n voters c := by
  constructor
  · intro h
    obtain ⟨c, hc⟩ := Option.isSome_iff_exists.mp h
    exact ⟨c, strictMajority_some hc⟩
  · rintro ⟨c, hc⟩
    by_contra hnone
    rw [Option.not_isSome_iff_eq_none] at hnone
    exact strictMajority_none hnone c hc

/-- The strategy says how the election went. -/
theorem resolve_strategy (h : votersOf obs ≠ []) (n : Nat) [Decidable (∃ c, HeldByMost obs n c)] :
    (resolve obs n).strategy =
      if ∃ c, HeldByMost obs n c then .majority
      else if 3 ≤ n then .majorityLWW else .lww := by
  cases hv : votersOf obs with
  | nil => exact absurd hv h
  | cons best rest =>
    have hmost : (∃ c, HeldByMost obs n c) ↔
        3 ≤ n ∧ (strictMajority (countVotes (best :: rest)) n).isSome = true := by
      rw [isSome_strictMajority_iff, ← hv]
      exact exists_and_left
    rw [resolve_of_voters hv]
    dsimp only
    rw [chooseWinner_strategy]
    by_cases h3 : 3 ≤ n
    · simp only [hmost, h3, true_and, if_true]
    · simp only [hmost, h3, false_and, if_false]

private theorem describes_resolve (hids : (obs.map DeviceObservation.deviceID).Nodup)
    (hnamed : "" ∉ obs.map DeviceObservation.deviceID) (hn : (votersOf obs).length ≤ n)
    (hv : votersOf obs ≠ []) : Describes obs n (resolve obs n) := by
  classical
  have helects := elects_iff.mp (resolve_elects hv n)
  have hstrategy := resolve_strategy hv n
  refine ⟨(resolve_found_iff obs n).mpr hv, ?_, ?_, ?_, ⟨?_, ?_⟩, resolve_diverged_iff obs n,
    resolve_deleted_iff hv n⟩
  · intro hmost
    rw [if_pos hmost] at hstrategy
    obtain ⟨c₀, hc₀⟩ := hmost
    have hwins : HeldByMost obs n (resolve obs n).winningChecksum :=
      helects.resolve_right fun hnone => hnone.1 c₀ hc₀
    refine ⟨hstrategy, fun c => ⟨fun hc => ?_, fun hc => hc ▸ hwins⟩⟩
    exact (heldByMost_iff.mp hc).2.unique hn (heldByMost_iff.mp hwins).2
  · intro hnone
    rw [if_neg hnone] at hstrategy
    obtain ⟨_, b, hb, hvalue⟩ := helects.resolve_left fun hwins => hnone ⟨_, hwins⟩
    refine ⟨hstrategy, b, hb.1, fun v hmem hne => ?_, hvalue⟩
    have hrank : v.rank ≠ b.rank := fun heq =>
      hne (rank_injOn (nodup_voters hids) hmem hb.1 heq)
    exact outranks_iff.mpr (lt_of_le_of_ne (hb.2 v hmem) hrank)
  · have hleast := resolve_winner_isLeast hv n (named_holders hnamed _)
    simp only [mem_holders] at hleast
    exact hleast
  · -- Sorted, and strictly so as no device votes twice.
    have hnodup : (outliersOf (votersOf obs) (resolve obs n).winningChecksum).Nodup :=
      (List.perm_insertionSort _ _).nodup_iff.mpr
        ((List.filter_sublist.map _).nodup (nodup_voters hids))
    have houtliers : (resolve obs n).outliers =
        outliersOf (votersOf obs) (resolve obs n).winningChecksum := by
      cases hvoters : votersOf obs with
      | nil => exact absurd hvoters hv
      | cons best rest => rw [resolve_of_voters hvoters]
    rw [houtliers]
    refine (hnodup.and (List.pairwise_insertionSort (· ≤ ·) _)).imp ?_
    rintro a b ⟨hne, hle⟩
    exact lt_of_le_of_ne hle hne
  · intro id
    exact mem_resolve_outliers

/-- The specification leaves no choice. -/
theorem Describes.unique {d d' : Decision} (h : Describes obs n d) (h' : Describes obs n d') :
    d = d' := by
  have hchecksum : d.winningChecksum = d'.winningChecksum := by
    by_cases hmost : ∃ c, HeldByMost obs n c
    · have hwins := ((h.majority hmost).2 d.winningChecksum).mpr rfl
      exact ((h'.majority hmost).2 _).mp hwins
    · obtain ⟨_, b, hb, htop, hvalue⟩ := h.newest hmost
      obtain ⟨_, b', hb', htop', hvalue'⟩ := h'.newest hmost
      have hsame : b = b' := by
        by_contra hne
        have hlt := outranks_iff.mp (htop b' hb' (Ne.symm hne))
        have hlt' := outranks_iff.mp (htop' b hb hne)
        exact absurd (hlt.trans hlt') (lt_irrefl _)
      rw [← hvalue, ← hvalue', hsame]
  have hstrategy : d.strategy = d'.strategy := by
    by_cases hmost : ∃ c, HeldByMost obs n c
    · rw [(h.majority hmost).1, (h'.majority hmost).1]
    · rw [(h.newest hmost).1, (h'.newest hmost).1]
  have hwinner : d.winningDeviceID = d'.winningDeviceID := by
    have hleast := h.winner
    rw [hchecksum] at hleast
    exact hleast.unique h'.winner
  have houtliers : d.outliers = d'.outliers := by
    apply List.Perm.eq_of_pairwise' h.outliers.1 h'.outliers.1
    refine (List.perm_ext_iff_of_nodup ?_ ?_).mpr fun id => ?_
    · exact h.outliers.1.imp ne_of_lt
    · exact h'.outliers.1.imp ne_of_lt
    · rw [h.outliers.2, h'.outliers.2, hchecksum]
  have hdiverged : d.diverged = d'.diverged := by
    rw [Bool.eq_iff_iff, h.diverged, h'.diverged, houtliers]
  have hdeleted : d.deleted = d'.deleted := by
    rw [Bool.eq_iff_iff, h.deleted, h'.deleted, hchecksum]
  have hfound : d.found = d'.found := by rw [h.found, h'.found]
  cases d
  cases d'
  simp only at hchecksum hstrategy hwinner houtliers hdiverged hdeleted hfound
  simp only [hchecksum, hstrategy, hwinner, houtliers, hdiverged, hdeleted, hfound]

/-- On named devices, each observed once, `resolve` gives the one verdict that the specification
allows, whatever the order of the observations. -/
theorem isVerdict_iff_resolve (obs : List DeviceObservation) (deviceCount : Nat)
    (hids : (obs.map DeviceObservation.deviceID).Nodup)
    (hnamed : "" ∉ obs.map DeviceObservation.deviceID)
    (hcount : (votersOf obs).length ≤ deviceCount) :
    (∀ d, IsVerdict obs deviceCount d ↔ d = resolve obs deviceCount) ∧
      ∀ obs', obs.Perm obs' → resolve obs' deviceCount = resolve obs deviceCount := by
  refine ⟨fun d => ?_, fun obs' hp => (resolve_perm hp hids hnamed deviceCount).symm⟩
  by_cases hv : votersOf obs = []
  · rw [IsVerdict, if_pos hv, resolve_of_no_voters hv]
  · rw [IsVerdict, if_neg hv]
    have hdescribes := describes_resolve hids hnamed hcount hv
    constructor
    · intro hd
      exact hd.unique hdescribes
    · rintro rfl
      exact hdescribes

private def outvoted : List DeviceObservation :=
  [{ deviceID := "C", present := true, checksum := "x", version := 9 },
   { deviceID := "B", present := true, checksum := "y", version := 2 },
   { deviceID := "A", tombstone := true, version := 3 },
   { deviceID := "D", present := true, checksum := "y", version := 1 },
   { deviceID := "E", present := true, checksum := "y", version := 1 }]

theorem isVerdict_outvoted : IsVerdict outvoted 5
    { winningChecksum := "y", winningDeviceID := "B", diverged := true, strategy := .majority
      outliers := ["A", "C"], found := true } := by
  rw [(isVerdict_iff_resolve outvoted 5 (by decide) (by decide) (by decide)).1]
  decide +kernel

/-- The observations of the devices, which a fixed state of the cluster gives each of them. -/
def observe (state : String → DeviceObservation) (devices : List String) :
    List DeviceObservation :=
  devices.map fun d => { state d with deviceID := d }

private theorem majority_of_strategy (h : (resolve obs n).strategy = .majority) :
    Majority DeviceObservation.effectiveChecksum n (votersOf obs)
      (resolve obs n).winningChecksum := by
  classical
  have hv : votersOf obs ≠ [] := by
    intro hnil
    rw [resolve_of_no_voters hnil] at h
    cases h
  have hmost : ∃ c, HeldByMost obs n c := by
    by_contra hnone
    rw [resolve_strategy hv, if_neg hnone] at h
    split at h
    · cases h
    · cases h
  obtain ⟨c, hc⟩ := hmost
  rcases elects_iff.mp (resolve_elects hv n) with hwins | ⟨hnone, _⟩
  · exact hwins.2
  · exact absurd hc (hnone c)

private theorem votersOf_subperm {state : String → DeviceObservation} {s devices : List String}
    (hs : s.Nodup) (hsub : s ⊆ devices) :
    (votersOf (observe state s)).Subperm (votersOf (observe state devices)) := by
  obtain ⟨l, hperm, hsublist⟩ := List.subperm_of_subset hs hsub
  exact ⟨votersOf (observe state l), (hperm.map _).filter _, (hsublist.map _).filter _⟩

private theorem length_votersOf_observe (state : String → DeviceObservation)
    (devices : List String) : (votersOf (observe state devices)).length ≤ devices.length :=
  (List.length_filter_le _ _).trans_eq (List.length_map _)

/-- Majority verdicts of any two sets of responders agree, with each other and with what a strict
majority of all the devices holds. -/
theorem majority_verdicts_agree (devices : List String) (state : String → DeviceObservation) :
    (∀ s s' : List String, s.Nodup → s ⊆ devices → s'.Nodup → s' ⊆ devices →
      (resolve (observe state s) devices.length).strategy = .majority →
      (resolve (observe state s') devices.length).strategy = .majority →
      (resolve (observe state s) devices.length).winningChecksum =
        (resolve (observe state s') devices.length).winningChecksum) ∧
    ∀ c, devices.length < 2 * (votersOf (observe state devices)).countP
        (fun v => v.effectiveChecksum = c) →
      ∀ s : List String, s.Nodup → s ⊆ devices →
        (resolve (observe state s) devices.length).strategy = .majority →
        (resolve (observe state s) devices.length).winningChecksum = c := by
  have hall := length_votersOf_observe state devices
  have hlift (s : List String) (hs : s.Nodup) (hsub : s ⊆ devices)
      (h : (resolve (observe state s) devices.length).strategy = .majority) :
      Majority DeviceObservation.effectiveChecksum devices.length
        (votersOf (observe state devices))
        (resolve (observe state s) devices.length).winningChecksum :=
    (majority_of_strategy h).subperm (votersOf_subperm hs hsub)
  constructor
  · intro s s' hs hsub hs' hsub' h h'
    exact (hlift s hs hsub h).unique hall (hlift s' hs' hsub' h')
  · intro c hc s hs hsub h
    refine (hlift s hs hsub h).unique hall ?_
    simp only [Majority, votes]
    omega

theorem majority_verdicts_agree_outvoted :
    let state := fun d => (outvoted.find? fun o => o.deviceID = d).getD { deviceID := d }
    (resolve (observe state ["B", "D", "E"]) 5).winningChecksum = "y" ∧
      (resolve (observe state ["E", "D", "C", "B", "A"]) 5).winningChecksum =
        (resolve (observe state ["B", "D", "E"]) 5).winningChecksum := by
  refine ⟨by decide +kernel, ?_⟩
  exact (majority_verdicts_agree ["A", "B", "C", "D", "E"]
    (fun d => (outvoted.find? fun o => o.deviceID = d).getD { deviceID := d })).1
    ["E", "D", "C", "B", "A"] ["B", "D", "E"] (by decide) (by decide) (by decide) (by decide)
    (by decide +kernel) (by decide +kernel)

end HsmSecretsOperator.Reconcile.Verdict
