/- source: internal/reconcile/resolve.go
   digest: The shared verdict over device observations: strict majority, else last write wins. -/

import Mathlib.Data.List.Sort
import Mathlib.Data.String.Basic
import Mathlib.Data.Prod.Lex
import Mathlib.Order.Bounds.Basic
import HsmSecretsOperator.Foundation.Election

/-!
Devices without a copy abstain; with one or two expected devices the newest voter wins always.
-/

set_option autoImplicit false

namespace HsmSecretsOperator.Reconcile.Resolve

open Foundation.Election

/-- The sentinel a deleted secret votes for. -/
def tombstoneChecksum : String := "__deleted__"

inductive Strategy
  | none | lww | majority | majorityLWW
  deriving DecidableEq, Repr

structure DeviceObservation where
  deviceID : String
  present : Bool := false
  tombstone : Bool := false
  checksum : String := ""
  version : Int := 0
  timestamp : Int := 0
  deriving DecidableEq, Repr

/-- A device holding a real copy or a tombstone votes; one without a copy abstains. -/
def DeviceObservation.hasOpinion (o : DeviceObservation) : Bool := o.present || o.tombstone

/-- The value the device votes for. -/
def DeviceObservation.effectiveChecksum (o : DeviceObservation) : String :=
  if o.tombstone then tombstoneChecksum else o.checksum

structure Decision where
  winningChecksum : String := ""
  winningDeviceID : String := ""
  deleted : Bool := false
  diverged : Bool := false
  strategy : Strategy := .none
  outliers : List String := []
  found : Bool := false
  deriving DecidableEq, Repr

/-- Votes per distinct effective checksum. -/
def countVotes (voters : List DeviceObservation) : Std.ExtTreeMap String Nat :=
  voters.foldl (fun counts v =>
    counts.insert v.effectiveChecksum ((counts[v.effectiveChecksum]?).getD 0 + 1)) ∅

/-- The first checksum, in sorted order, with more than `deviceCount / 2` votes. -/
def strictMajority (counts : Std.ExtTreeMap String Nat) (deviceCount : Nat) : Option String :=
  (counts.toList.find? (fun e => decide (deviceCount / 2 < e.2))).map Prod.fst

/-- Higher version, then higher timestamp, then lower device ID. -/
def DeviceObservation.newer (v best : DeviceObservation) : Bool :=
  decide (best.version < v.version) ||
  (decide (v.version = best.version) && decide (best.timestamp < v.timestamp)) ||
  (decide (v.version = best.version) && decide (v.timestamp = best.timestamp) &&
    decide (v.deviceID < best.deviceID))

/-- The newest of a nonempty list of voters, given as head and tail. -/
def lastWriteWins (best : DeviceObservation) (rest : List DeviceObservation) :
    DeviceObservation :=
  rest.foldl (fun best v => if v.newer best then v else best) best

/-- The lowest device ID holding the given effective checksum; the empty string marks
that none has been seen yet, exactly as in the source loop. -/
def lowestDeviceWithChecksum (voters : List DeviceObservation) (checksum : String) : String :=
  voters.foldl (fun winner v =>
    if v.effectiveChecksum ≠ checksum then winner
    else if winner = "" ∨ v.deviceID < winner then v.deviceID else winner) ""

/-- The winning checksum and strategy for a nonempty list of voters. -/
def chooseWinner (best : DeviceObservation) (rest : List DeviceObservation)
    (deviceCount : Nat) : String × Strategy :=
  if 3 ≤ deviceCount then
    match strictMajority (countVotes (best :: rest)) deviceCount with
    | some cs => (cs, .majority)
    | none => ((lastWriteWins best rest).effectiveChecksum, .majorityLWW)
  else ((lastWriteWins best rest).effectiveChecksum, .lww)

/-- Device IDs of the voters that disagree with the winner, sorted. -/
def outliersOf (voters : List DeviceObservation) (checksum : String) : List String :=
  ((voters.filter (fun v => decide (v.effectiveChecksum ≠ checksum))).map
    DeviceObservation.deviceID).insertionSort (· ≤ ·)

/-- `Resolve`: the authoritative copy given each device's observation and the number of
devices that should hold it. -/
def resolve (obs : List DeviceObservation) (deviceCount : Nat) : Decision :=
  match obs.filter DeviceObservation.hasOpinion with
  | [] => { strategy := .none, found := false }
  | best :: rest =>
    let choice := chooseWinner best rest deviceCount
    let outliers := outliersOf (best :: rest) choice.1
    { winningChecksum := choice.1
      winningDeviceID := lowestDeviceWithChecksum (best :: rest) choice.1
      deleted := decide (choice.1 = tombstoneChecksum)
      diverged := decide (0 < outliers.length)
      strategy := choice.2
      outliers := outliers
      found := true }

/-- The order `newer` compares by: version, then timestamp, then the lower device ID. -/
def DeviceObservation.rank (o : DeviceObservation) : Int ×ₗ Int ×ₗ Stringᵒᵈ :=
  toLex (o.version, toLex (o.timestamp, OrderDual.toDual o.deviceID))

theorem newer_iff (v best : DeviceObservation) : v.newer best = true ↔ best.rank < v.rank := by
  simp only [DeviceObservation.newer, DeviceObservation.rank, Bool.or_eq_true, Bool.and_eq_true,
    decide_eq_true_eq, Prod.Lex.toLex_lt_toLex, OrderDual.toDual_lt_toDual]
  constructor
  · rintro ((h | ⟨h, h'⟩) | ⟨⟨h, h'⟩, h''⟩)
    · exact .inl h
    · exact .inr ⟨h.symm, .inl h'⟩
    · exact .inr ⟨h.symm, .inr ⟨h'.symm, h''⟩⟩
  · rintro (h | ⟨h, h' | ⟨h', h''⟩⟩)
    · exact .inl (.inl h)
    · exact .inl (.inr ⟨h.symm, h'⟩)
    · exact .inr ⟨⟨h.symm, h'.symm⟩, h''⟩

variable {voters voters' : List DeviceObservation}

theorem rank_injOn_of_deviceID
    (hids : ∀ v ∈ voters, ∀ w ∈ voters, v.deviceID = w.deviceID → v = w) :
    Set.InjOn DeviceObservation.rank {v | v ∈ voters} := by
  intro v hv w hw heq
  have hid : v.deviceID = w.deviceID := by
    simp only [DeviceObservation.rank, toLex_inj, Prod.mk.injEq, OrderDual.toDual_inj] at heq
    exact heq.2.2
  exact hids v hv w hw hid

theorem rank_injOn (hids : (voters.map DeviceObservation.deviceID).Nodup) :
    Set.InjOn DeviceObservation.rank {v | v ∈ voters} :=
  rank_injOn_of_deviceID fun _ hv _ hw hid => List.inj_on_of_nodup_map hids hv hw hid

theorem lastWriteWins_newest (best : DeviceObservation) (rest : List DeviceObservation) :
    Newest DeviceObservation.rank (best :: rest) (lastWriteWins best rest) :=
  newest_foldl newer_iff best rest

private theorem foldl_count (voters : List DeviceObservation)
    (counts : Std.ExtTreeMap String Nat) (c : String) :
    (voters.foldl (fun counts v =>
      counts.insert v.effectiveChecksum ((counts[v.effectiveChecksum]?).getD 0 + 1)) counts)[c]? =
      if votes DeviceObservation.effectiveChecksum voters c = 0 then counts[c]?
      else some ((counts[c]?).getD 0 + votes DeviceObservation.effectiveChecksum voters c) := by
  induction voters generalizing counts with
  | nil => simp [votes]
  | cons v voters ih =>
    rw [List.foldl_cons, ih]
    simp only [votes, List.countP_cons, Std.ExtTreeMap.getElem?_insert,
      Std.LawfulEqCmp.compare_eq_iff_eq]
    by_cases hc : v.effectiveChecksum = c
    · subst hc
      simp only [if_true, decide_true, Option.getD_some]
      split
      · simp_all
      · simp only [Nat.add_eq_zero_iff, one_ne_zero, and_false, if_false, Option.some.injEq]
        omega
    · simp [hc]

theorem countVotes_getElem? (voters : List DeviceObservation) (c : String) :
    (countVotes voters)[c]? =
      if votes DeviceObservation.effectiveChecksum voters c = 0 then none
      else some (votes DeviceObservation.effectiveChecksum voters c) := by
  rw [countVotes, foldl_count]
  simp

variable {obs : List DeviceObservation} {c x : String} {n : Nat}

theorem strictMajority_some (h : strictMajority (countVotes voters) n = some c) :
    Majority DeviceObservation.effectiveChecksum n voters c := by
  obtain ⟨e, hfind, rfl⟩ := Option.map_eq_some_iff.mp h
  have hmem := Std.ExtTreeMap.mem_toList_iff_getElem?_eq_some.mp
    (List.mem_of_find?_eq_some hfind)
  have hmost : n / 2 < e.2 := by simpa using List.find?_some hfind
  rw [countVotes_getElem?] at hmem
  split at hmem
  · cases hmem
  · rw [Majority, Option.some.inj hmem]
    exact hmost

theorem strictMajority_none (h : strictMajority (countVotes voters) n = none) (c : String) :
    ¬ Majority DeviceObservation.effectiveChecksum n voters c := by
  intro hc
  have hnone := List.find?_eq_none.mp (Option.map_eq_none_iff.mp h)
  have hpos : votes DeviceObservation.effectiveChecksum voters c ≠ 0 := by
    have := Nat.zero_lt_of_lt hc
    omega
  have hget : (countVotes voters)[c]? =
      some (votes DeviceObservation.effectiveChecksum voters c) := by
    rw [countVotes_getElem?, if_neg hpos]
  have hmem := Std.ExtTreeMap.mem_toList_iff_getElem?_eq_some.mpr hget
  exact hnone _ hmem (decide_eq_true hc)

/-- The checksum chosen by the code is the one the election rule elects. -/
theorem chooseWinner_elects (best : DeviceObservation) (rest : List DeviceObservation)
    (n : Nat) :
    Elects DeviceObservation.effectiveChecksum DeviceObservation.rank n (best :: rest)
      (chooseWinner best rest n).1 := by
  unfold chooseWinner
  split
  · rename_i h3
    split
    · rename_i cs hcs
      exact .majority h3 (strictMajority_some hcs)
    · rename_i hnone
      exact .newest _ (fun _ => strictMajority_none hnone) (lastWriteWins_newest best rest) rfl
  · rename_i h3
    exact .newest _ (fun h => absurd h h3) (lastWriteWins_newest best rest) rfl

/-- The device IDs of the voters for `c`. -/
def holders (voters : List DeviceObservation) (c : String) : List String :=
  (voters.filter (fun v => decide (v.effectiveChecksum = c))).map DeviceObservation.deviceID

private theorem mem_deviceIDs_filter {p : DeviceObservation → Prop} [DecidablePred p] :
    x ∈ (voters.filter (fun v => decide (p v))).map DeviceObservation.deviceID ↔
      ∃ v ∈ voters, v.deviceID = x ∧ p v := by
  simp only [List.mem_map, List.mem_filter, decide_eq_true_eq]
  constructor
  · rintro ⟨v, ⟨hv, hp⟩, rfl⟩
    exact ⟨v, hv, rfl, hp⟩
  · rintro ⟨v, hv, rfl, hp⟩
    exact ⟨v, ⟨hv, hp⟩, rfl⟩

theorem mem_holders :
    x ∈ holders voters c ↔ ∃ v ∈ voters, v.deviceID = x ∧ v.effectiveChecksum = c :=
  mem_deviceIDs_filter

private def lowestStep (checksum winner : String) (v : DeviceObservation) : String :=
  if v.effectiveChecksum ≠ checksum then winner
  else if winner = "" ∨ v.deviceID < winner then v.deviceID else winner

private theorem lowestDevice_eq_foldl (voters : List DeviceObservation) (c : String) :
    lowestDeviceWithChecksum voters c = voters.foldl (lowestStep c) "" := rfl

private theorem holders_cons (v : DeviceObservation) (voters : List DeviceObservation)
    (c : String) : holders (v :: voters) c =
      if v.effectiveChecksum = c then v.deviceID :: holders voters c else holders voters c := by
  by_cases h : v.effectiveChecksum = c <;> simp [holders, h]

private theorem foldl_lowest_mem (c : String) (voters : List DeviceObservation)
    (winner : String) : voters.foldl (lowestStep c) winner = winner ∨
      voters.foldl (lowestStep c) winner ∈ holders voters c := by
  induction voters generalizing winner with
  | nil => exact .inl rfl
  | cons v voters ih =>
    rw [List.foldl_cons, holders_cons]
    by_cases hc : v.effectiveChecksum = c
    · rw [if_pos hc]
      rcases ih (lowestStep c winner v) with h | h
      · rw [h]
        simp only [lowestStep, hc, ne_eq, not_true_eq_false, if_false]
        split
        · exact .inr List.mem_cons_self
        · exact .inl rfl
      · exact .inr (List.mem_cons_of_mem _ h)
    · rw [if_neg hc]
      simpa [lowestStep, hc] using ih winner

theorem lowestDevice_mem (hne : holders voters c ≠ []) :
    lowestDeviceWithChecksum voters c ∈ holders voters c := by
  rw [lowestDevice_eq_foldl]
  induction voters with
  | nil => exact absurd rfl hne
  | cons v voters ih =>
    rw [holders_cons] at hne ⊢
    rw [List.foldl_cons]
    by_cases hc : v.effectiveChecksum = c
    · rw [if_pos hc]
      have hstep : lowestStep c "" v = v.deviceID := by simp [lowestStep, hc]
      rw [hstep]
      rcases foldl_lowest_mem c voters v.deviceID with h | h
      · rw [h]
        exact List.mem_cons_self
      · exact List.mem_cons_of_mem _ h
    · rw [if_neg hc] at hne ⊢
      simpa [lowestStep, hc] using ih hne

private theorem foldl_lowest_le (c : String) (voters : List DeviceObservation)
    (winner : String) (hw : winner ≠ "") (hids : "" ∉ holders voters c) :
    voters.foldl (lowestStep c) winner ≤ winner ∧
      ∀ x ∈ holders voters c, voters.foldl (lowestStep c) winner ≤ x := by
  induction voters generalizing winner with
  | nil => simp [holders]
  | cons v voters ih =>
    rw [holders_cons] at hids ⊢
    rw [List.foldl_cons]
    by_cases hc : v.effectiveChecksum = c
    · rw [if_pos hc] at hids ⊢
      have hv : v.deviceID ≠ "" := fun h => hids (h ▸ List.mem_cons_self)
      have hrest : "" ∉ holders voters c := fun h => hids (List.mem_cons_of_mem _ h)
      by_cases hlt : v.deviceID < winner
      · have hstep : lowestStep c winner v = v.deviceID := by simp [lowestStep, hc, hlt]
        obtain ⟨hle, hall⟩ := ih v.deviceID hv hrest
        rw [hstep]
        refine ⟨hle.trans hlt.le, ?_⟩
        intro x hx
        rcases List.mem_cons.mp hx with rfl | hx
        · exact hle
        · exact hall x hx
      · have hstep : lowestStep c winner v = winner := by simp [lowestStep, hc, hlt, hw]
        obtain ⟨hle, hall⟩ := ih winner hw hrest
        rw [hstep]
        refine ⟨hle, ?_⟩
        intro x hx
        rcases List.mem_cons.mp hx with rfl | hx
        · exact hle.trans (not_lt.mp hlt)
        · exact hall x hx
    · rw [if_neg hc] at hids ⊢
      simpa [lowestStep, hc] using ih winner hw hids

theorem lowestDevice_le (hids : "" ∉ holders voters c) (hx : x ∈ holders voters c) :
    lowestDeviceWithChecksum voters c ≤ x := by
  rw [lowestDevice_eq_foldl]
  induction voters with
  | nil => simp [holders] at hx
  | cons v voters ih =>
    rw [holders_cons] at hids hx
    rw [List.foldl_cons]
    by_cases hc : v.effectiveChecksum = c
    · rw [if_pos hc] at hids hx
      have hv : v.deviceID ≠ "" := fun h => hids (h ▸ List.mem_cons_self)
      have hstep : lowestStep c "" v = v.deviceID := by simp [lowestStep, hc]
      obtain ⟨hle, hall⟩ := foldl_lowest_le c voters v.deviceID hv
        (fun h => hids (List.mem_cons_of_mem _ h))
      rw [hstep]
      rcases List.mem_cons.mp hx with rfl | hx
      · exact hle
      · exact hall x hx
    · rw [if_neg hc] at hids hx
      simpa [lowestStep, hc] using ih hids hx

theorem lowestDevice_congr
    (hsame : ∀ x, x ∈ holders voters c ↔ x ∈ holders voters' c) (hids : "" ∉ holders voters c) :
    lowestDeviceWithChecksum voters c = lowestDeviceWithChecksum voters' c := by
  have hids' : "" ∉ holders voters' c := fun h => hids ((hsame "").mpr h)
  by_cases hne : holders voters c = []
  · have hne' : holders voters' c = [] := by
      rw [List.eq_nil_iff_forall_not_mem]
      intro x hx
      rw [← hsame x, hne] at hx
      cases hx
    rw [lowestDevice_eq_foldl, lowestDevice_eq_foldl]
    rcases foldl_lowest_mem c voters "" with h | h
    · rcases foldl_lowest_mem c voters' "" with h' | h'
      · rw [h, h']
      · rw [hne'] at h'
        cases h'
    · rw [hne] at h
      cases h
  · have hmem := lowestDevice_mem hne
    have hmem' := lowestDevice_mem (List.ne_nil_of_mem ((hsame _).mp hmem))
    apply le_antisymm
    · exact lowestDevice_le hids ((hsame _).mpr hmem')
    · exact lowestDevice_le hids' ((hsame _).mp hmem)

theorem lowestDevice_perm (hp : voters.Perm voters') (c : String)
    (hids : "" ∉ holders voters c) :
    lowestDeviceWithChecksum voters c = lowestDeviceWithChecksum voters' c := by
  have hholders : (holders voters c).Perm (holders voters' c) := (hp.filter _).map _
  exact lowestDevice_congr (fun _ => hholders.mem_iff) hids

theorem mem_outliersOf :
    x ∈ outliersOf voters c ↔ ∃ v ∈ voters, v.deviceID = x ∧ v.effectiveChecksum ≠ c := by
  rw [outliersOf, List.mem_insertionSort]
  exact mem_deviceIDs_filter

theorem outliersOf_perm (hp : voters.Perm voters') (c : String) :
    outliersOf voters c = outliersOf voters' c := by
  have hids := (hp.filter (fun v => decide (v.effectiveChecksum ≠ c))).map
    DeviceObservation.deviceID
  apply List.Perm.eq_of_pairwise' (r := (· ≤ ·))
  · exact List.pairwise_insertionSort _ _
  · exact List.pairwise_insertionSort _ _
  · exact (List.perm_insertionSort _ _).trans (hids.trans (List.perm_insertionSort _ _).symm)

theorem countVotes_perm (hp : voters.Perm voters') :
    countVotes voters = countVotes voters' := by
  apply Std.ExtTreeMap.ext_getElem?
  intro c
  rw [countVotes_getElem?, countVotes_getElem?, votes_perm hp]

theorem lastWriteWins_perm {best best' : DeviceObservation} {rest rest' : List DeviceObservation}
    (hp : (best :: rest).Perm (best' :: rest'))
    (hids : ((best :: rest).map DeviceObservation.deviceID).Nodup) :
    lastWriteWins best rest = lastWriteWins best' rest' :=
  Newest.unique (rank_injOn hids) (lastWriteWins_newest best rest)
    ((lastWriteWins_newest best' rest').perm hp.symm)

theorem chooseWinner_perm {best best' : DeviceObservation} {rest rest' : List DeviceObservation}
    (hp : (best :: rest).Perm (best' :: rest'))
    (hids : ((best :: rest).map DeviceObservation.deviceID).Nodup) (n : Nat) :
    chooseWinner best rest n = chooseWinner best' rest' n := by
  simp only [chooseWinner, countVotes_perm hp, lastWriteWins_perm hp hids]

/-- The devices that vote. -/
def votersOf (obs : List DeviceObservation) : List DeviceObservation :=
  obs.filter DeviceObservation.hasOpinion

theorem resolve_of_voters {best : DeviceObservation}
    {rest : List DeviceObservation} (h : votersOf obs = best :: rest) (n : Nat) :
    resolve obs n =
      { winningChecksum := (chooseWinner best rest n).1
        winningDeviceID :=
          lowestDeviceWithChecksum (best :: rest) (chooseWinner best rest n).1
        deleted := decide ((chooseWinner best rest n).1 = tombstoneChecksum)
        diverged := decide
          (0 < (outliersOf (best :: rest) (chooseWinner best rest n).1).length)
        strategy := (chooseWinner best rest n).2
        outliers := outliersOf (best :: rest) (chooseWinner best rest n).1
        found := true } := by
  simp only [votersOf] at h
  simp only [resolve, h]

theorem resolve_of_no_voters (h : votersOf obs = []) (n : Nat) : resolve obs n = {} := by
  simp only [votersOf] at h
  simp only [resolve, h]

theorem resolve_congr {obs obs' : List DeviceObservation} (h : votersOf obs = votersOf obs')
    (n : Nat) : resolve obs n = resolve obs' n := by
  simp only [votersOf] at h
  simp only [resolve, h]

theorem resolve_found_iff (obs : List DeviceObservation) (n : Nat) :
    (resolve obs n).found = true ↔ votersOf obs ≠ [] := by
  cases h : votersOf obs with
  | nil => simp [resolve_of_no_voters h]
  | cons best rest => simp [resolve_of_voters h]

theorem resolve_elects (h : votersOf obs ≠ []) (n : Nat) :
    Elects DeviceObservation.effectiveChecksum DeviceObservation.rank n (votersOf obs)
      (resolve obs n).winningChecksum := by
  cases hv : votersOf obs with
  | nil => exact absurd hv h
  | cons best rest =>
    rw [resolve_of_voters hv]
    exact chooseWinner_elects best rest n

/-- The winning device is the lowest one that votes for the winner. -/
theorem resolve_winningDeviceID (h : votersOf obs ≠ []) (n : Nat) :
    (resolve obs n).winningDeviceID =
      lowestDeviceWithChecksum (votersOf obs) (resolve obs n).winningChecksum := by
  cases hv : votersOf obs with
  | nil => exact absurd hv h
  | cons best rest => rw [resolve_of_voters hv]

theorem resolve_winner_holds (h : votersOf obs ≠ []) (n : Nat) :
    ∃ v ∈ votersOf obs, v.deviceID = (resolve obs n).winningDeviceID ∧
      v.effectiveChecksum = (resolve obs n).winningChecksum := by
  obtain ⟨v, hv, hc⟩ := (resolve_elects h n).exists_voter
  rw [resolve_winningDeviceID h]
  exact mem_holders.mp (lowestDevice_mem
    (List.ne_nil_of_mem (mem_holders.mpr ⟨v, hv, rfl, hc⟩)))

theorem resolve_winner_isLeast (h : votersOf obs ≠ []) (n : Nat)
    (hnamed : "" ∉ holders (votersOf obs) (resolve obs n).winningChecksum) :
    IsLeast {x | x ∈ holders (votersOf obs) (resolve obs n).winningChecksum}
      (resolve obs n).winningDeviceID := by
  obtain ⟨v, hv, _, hsum⟩ := resolve_winner_holds h n
  rw [resolve_winningDeviceID h]
  constructor
  · exact lowestDevice_mem (List.ne_nil_of_mem (mem_holders.mpr ⟨v, hv, rfl, hsum⟩))
  · intro x hx
    exact lowestDevice_le hnamed hx

theorem mem_resolve_outliers {x : String} :
    x ∈ (resolve obs n).outliers ↔ ∃ v ∈ votersOf obs, v.deviceID = x ∧
      v.effectiveChecksum ≠ (resolve obs n).winningChecksum := by
  cases hv : votersOf obs with
  | nil => simp [resolve_of_no_voters hv]
  | cons best rest =>
    rw [resolve_of_voters hv]
    exact mem_outliersOf

theorem resolve_diverged_iff (obs : List DeviceObservation) (n : Nat) :
    (resolve obs n).diverged = true ↔ (resolve obs n).outliers ≠ [] := by
  cases hv : votersOf obs with
  | nil => simp [resolve_of_no_voters hv]
  | cons best rest =>
    rw [resolve_of_voters hv]
    simp [List.length_pos_iff]

theorem resolve_deleted_iff (h : votersOf obs ≠ []) (n : Nat) :
    (resolve obs n).deleted = true ↔ (resolve obs n).winningChecksum = tombstoneChecksum := by
  cases hv : votersOf obs with
  | nil => exact absurd hv h
  | cons best rest =>
    rw [resolve_of_voters hv]
    simp

/-- The whole decision is independent of the order in which devices are observed. -/
theorem resolve_perm {obs obs' : List DeviceObservation} (hp : obs.Perm obs')
    (hids : (obs.map DeviceObservation.deviceID).Nodup)
    (hnamed : "" ∉ obs.map DeviceObservation.deviceID) (n : Nat) :
    resolve obs n = resolve obs' n := by
  have hvoters : (votersOf obs).Perm (votersOf obs') := hp.filter _
  have hsub : ((votersOf obs).map DeviceObservation.deviceID).Sublist
      (obs.map DeviceObservation.deviceID) := List.filter_sublist.map _
  cases hv : votersOf obs with
  | nil =>
    have hv' : votersOf obs' = [] := by
      rw [hv] at hvoters
      exact hvoters.nil_eq.symm
    rw [resolve_of_no_voters hv, resolve_of_no_voters hv']
  | cons best rest =>
    cases hv' : votersOf obs' with
    | nil =>
      rw [hv, hv'] at hvoters
      cases hvoters.eq_nil
    | cons best' rest' =>
      rw [hv] at hsub
      rw [hv, hv'] at hvoters
      have hchoice := chooseWinner_perm hvoters (hsub.nodup hids) n
      have hholders : "" ∉ holders (best :: rest) (chooseWinner best rest n).1 := by
        intro h
        obtain ⟨v, hmem, hid, _⟩ := mem_holders.mp h
        exact hnamed (hsub.subset (List.mem_map.mpr ⟨v, hmem, hid⟩))
      rw [resolve_of_voters hv, resolve_of_voters hv', ← hchoice,
        lowestDevice_perm hvoters _ hholders, outliersOf_perm hvoters]

end HsmSecretsOperator.Reconcile.Resolve
