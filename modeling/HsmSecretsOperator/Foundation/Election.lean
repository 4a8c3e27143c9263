/- source: none
   digest: Elections over a list of voters, by strict majority and otherwise by the newest voter. -/

import Mathlib.Data.List.MinMax
import Mathlib.Data.List.Perm.Basic

set_option autoImplicit false

namespace HsmSecretsOperator.Foundation.Election

variable {α κ ρ ι : Type} [DecidableEq κ] [LinearOrder ρ]

/-- The number of voters for `c`. -/
def votes (value : α → κ) (voters : List α) (c : κ) : Nat :=
  voters.countP (fun v => decide (value v = c))

/-- More than half of the `n` expected voters vote for `c`. -/
def Majority (value : α → κ) (n : Nat) (voters : List α) (c : κ) : Prop :=
  n / 2 < votes value voters c

/-- A voter that no other voter outranks. -/
def Newest (rank : α → ρ) (voters : List α) (b : α) : Prop :=
  b ∈ voters ∧ ∀ v ∈ voters, rank v ≤ rank b

/-- The value elected by `voters` when `n` voters are expected. -/
inductive Elects (value : α → κ) (rank : α → ρ) (n : Nat) (voters : List α) (c : κ) : Prop
  | majority (three : 3 ≤ n) (most : Majority value n voters c)
  | newest (b : α) (split : 3 ≤ n → ∀ c', ¬ Majority value n voters c')
      (top : Newest rank voters b) (holds : value b = c)

variable {value : α → κ} {rank : α → ρ} {n : Nat} {voters voters' : List α} {c c' : κ}

theorem votes_perm (h : voters.Perm voters') (c : κ) :
    votes value voters c = votes value voters' c :=
  h.countP_eq _

theorem votes_subperm (h : voters.Subperm voters') (c : κ) :
    votes value voters c ≤ votes value voters' c :=
  h.countP_le _

theorem exists_voter_of_votes_pos (h : 0 < votes value voters c) :
    ∃ v ∈ voters, value v = c := by
  obtain ⟨v, hv, hc⟩ := List.countP_pos_iff.mp h
  exact ⟨v, hv, of_decide_eq_true hc⟩

theorem votes_add_votes_le (value : α → κ) (voters : List α) (hne : c ≠ c') :
    votes value voters c + votes value voters c' ≤ voters.length := by
  induction voters with
  | nil => simp [votes]
  | cons v voters ih =>
    simp only [votes, List.countP_cons, List.length_cons] at ih ⊢
    by_cases hc : value v = c
    · have hc' : value v ≠ c' := fun h => hne (hc.symm.trans h)
      rw [if_pos (decide_eq_true hc), if_neg (by simpa using hc')]
      omega
    · rw [if_neg (by simpa using hc)]
      split <;> omega

theorem Majority.unique (hn : voters.length ≤ n) (h : Majority value n voters c)
    (h' : Majority value n voters c') : c = c' := by
  by_contra hne
  have hsum := votes_add_votes_le value voters hne
  simp only [Majority] at h h'
  omega

theorem Majority.subperm (h : Majority value n voters c) (hsub : voters.Subperm voters') :
    Majority value n voters' c :=
  lt_of_lt_of_le h (votes_subperm hsub c)

theorem exists_newest (rank : α → ρ) (hne : voters ≠ []) : ∃ b, Newest rank voters b := by
  cases hm : voters.argmax rank with
  | none => exact absurd (List.argmax_eq_none.mp hm) hne
  | some b => exact ⟨b, List.argmax_mem hm, fun v hv => List.le_of_mem_argmax hv hm⟩

theorem newest_foldl {higher : α → α → Bool}
    (h : ∀ v b, higher v b = true ↔ rank b < rank v) (best : α) (rest : List α) :
    Newest rank (best :: rest) (rest.foldl (fun b v => if higher v b then v else b) best) := by
  induction rest generalizing best with
  | nil => exact ⟨List.mem_cons_self, by simp⟩
  | cons v rest ih =>
    rw [List.foldl_cons]
    by_cases hv : higher v best = true
    · rw [if_pos hv]
      obtain ⟨hmem, htop⟩ := ih v
      refine ⟨List.mem_cons_of_mem best hmem, ?_⟩
      intro w hw
      rcases List.mem_cons.mp hw with rfl | hw
      · exact ((h v w).mp hv).le.trans (htop v List.mem_cons_self)
      · exact htop w hw
    · rw [if_neg hv]
      obtain ⟨hmem, htop⟩ := ih best
      have hle : rank v ≤ rank best := not_lt.mp (mt (h v best).mpr hv)
      constructor
      · rcases List.mem_cons.mp hmem with hbest | hmem
        · rw [hbest]
          exact List.mem_cons_self
        · exact List.mem_cons_of_mem best (List.mem_cons_of_mem v hmem)
      · intro w hw
        rcases List.mem_cons.mp hw with rfl | hw
        · exact htop w List.mem_cons_self
        · rcases List.mem_cons.mp hw with rfl | hw
          · exact hle.trans (htop best List.mem_cons_self)
          · exact htop w (List.mem_cons_of_mem best hw)

theorem foldl_eq_of_newest {higher : α → α → Bool}
    (h : ∀ v b, higher v b = true ↔ rank b < rank v) {best : α} {rest : List α}
    (htop : ∀ v ∈ rest, rank v ≤ rank best) :
    rest.foldl (fun b v => if higher v b then v else b) best = best := by
  induction rest with
  | nil => rfl
  | cons v rest ih =>
    have hv : ¬ higher v best = true := by
      rw [h, not_lt]
      exact htop v List.mem_cons_self
    rw [List.foldl_cons, if_neg hv]
    exact ih fun w hw => htop w (List.mem_cons_of_mem v hw)

theorem Newest.unique (hinj : Set.InjOn rank {v | v ∈ voters}) {b b' : α}
    (h : Newest rank voters b) (h' : Newest rank voters b') : b = b' :=
  hinj h.1 h'.1 (le_antisymm (h'.2 b h.1) (h.2 b' h'.1))

theorem exists_elects (value : α → κ) (rank : α → ρ) (n : Nat) (hne : voters ≠ []) :
    ∃ c, Elects value rank n voters c := by
  by_cases hm : 3 ≤ n ∧ ∃ c, Majority value n voters c
  · obtain ⟨h3, c, hc⟩ := hm
    exact ⟨c, .majority h3 hc⟩
  · obtain ⟨b, hb⟩ := exists_newest rank hne
    refine ⟨value b, .newest b (fun h3 c' hc' => hm ⟨h3, c', hc'⟩) hb rfl⟩

theorem Elects.exists_voter (h : Elects value rank n voters c) : ∃ v ∈ voters, value v = c := by
  cases h with
  | majority _ most => exact exists_voter_of_votes_pos (Nat.zero_lt_of_lt most)
  | newest b _ top holds => exact ⟨b, top.1, holds⟩

/-- The elected value is unique when no more voters vote than are expected. -/
theorem Elects.unique (hinj : Set.InjOn rank {v | v ∈ voters}) (hn : voters.length ≤ n)
    (h : Elects value rank n voters c) (h' : Elects value rank n voters c') : c = c' := by
  cases h with
  | majority h3 most =>
    cases h' with
    | majority _ most' => exact most.unique hn most'
    | newest _ split _ _ => exact absurd most (split h3 c)
  | newest b split top holds =>
    cases h' with
    | majority h3 most' => exact absurd most' (split h3 c')
    | newest b' _ top' holds' => rw [← holds, ← holds', top.unique hinj top']

/-- With three or more voters expected, more than half of them vote for `c`. -/
def Prevails (value : α → κ) (n : Nat) (voters : List α) (c : κ) : Prop :=
  3 ≤ n ∧ Majority value n voters c

theorem elects_iff : Elects value rank n voters c ↔ Prevails value n voters c ∨
    (∀ d, ¬ Prevails value n voters d) ∧ ∃ b, Newest rank voters b ∧ value b = c := by
  constructor
  · intro h
    cases h with
    | majority h3 most => exact .inl ⟨h3, most⟩
    | newest b split top holds =>
      exact .inr ⟨fun d hd => split hd.1 d hd.2, b, top, holds⟩
  · intro h
    rcases h with ⟨h3, most⟩ | ⟨hnone, b, top, holds⟩
    · exact .majority h3 most
    · exact .newest b (fun h3 d hd => hnone d ⟨h3, hd⟩) top holds

theorem prevails_perm (hp : voters.Perm voters') :
    Prevails value n voters c ↔ Prevails value n voters' c := by
  rw [Prevails, Majority, votes_perm hp, Prevails, Majority]

/-- The elected value prevails, or no value does and the newest voter votes for it. -/
theorem Elects.prevails_or (hinj : Set.InjOn rank {v | v ∈ voters}) {b : α}
    (hb : Newest rank voters b) (h : Elects value rank n voters c) :
    Prevails value n voters c ∨ (∀ d, ¬ Prevails value n voters d) ∧ value b = c := by
  rcases elects_iff.mp h with hc | ⟨hnone, b', top, holds⟩
  · exact .inl hc
  · rw [top.unique hinj hb] at holds
    exact .inr ⟨hnone, holds⟩

/-- A value other than the newest voter's is elected exactly if it prevails. -/
theorem Elects.prevails_iff (hinj : Set.InjOn rank {v | v ∈ voters}) (hn : voters.length ≤ n)
    {b : α} (hb : Newest rank voters b) (h : Elects value rank n voters c) {d : κ}
    (hd : d ≠ value b) : Prevails value n voters d ↔ c = d := by
  rcases h.prevails_or hinj hb with hc | ⟨hnone, hc⟩
  · constructor
    · intro hprevails
      exact hc.2.unique hn hprevails.2
    · intro heq
      exact heq ▸ hc
  · constructor
    · intro hprevails
      exact absurd hprevails (hnone d)
    · intro heq
      exact absurd (heq.symm.trans hc.symm) hd

/-- Where the newest voters agree, two polls elect the same value exactly if every other value
prevails in both of them or in none. -/
theorem Elects.eq_iff {n' : Nat} {b b' : α} (hinj : Set.InjOn rank {v | v ∈ voters})
    (hn : voters.length ≤ n) (hb : Newest rank voters b)
    (hinj' : Set.InjOn rank {v | v ∈ voters'}) (hn' : voters'.length ≤ n')
    (hb' : Newest rank voters' b') (hsame : value b = value b')
    (h : Elects value rank n voters c) (h' : Elects value rank n' voters' c') :
    c = c' ↔ ∀ d, d ≠ value b → (Prevails value n voters d ↔ Prevails value n' voters' d) := by
  constructor
  · intro heq d hd
    rw [h.prevails_iff hinj hn hb hd, h'.prevails_iff hinj' hn' hb' (hsame ▸ hd), heq]
  · intro hiff
    by_contra hne
    -- One of the two values is not the newest voter's, so it prevails in both polls.
    by_cases hc : c = value b
    · have hc' : c' ≠ value b := fun heq => hne (hc.trans heq.symm)
      have hprevails := (hiff c' hc').mpr ((h'.prevails_iff hinj' hn' hb' (hsame ▸ hc')).mpr rfl)
      exact hne ((h.prevails_iff hinj hn hb hc').mp hprevails)
    · have hprevails := (hiff c hc).mp ((h.prevails_iff hinj hn hb hc).mpr rfl)
      exact hne ((h'.prevails_iff hinj' hn' hb' (hsame ▸ hc)).mp hprevails).symm

/-- A value that prevails is elected in every poll that expects fewer voters and gives it as many
votes. -/
theorem Prevails.elects {β κ' ρ' : Type} [DecidableEq κ'] [LinearOrder ρ'] {value' : β → κ'}
    {rank' : β → ρ'} {n' : Nat} {polled : List β} {d : κ'} (h : Prevails value n voters c)
    (hn : n' ≤ n) (hlength : polled.length ≤ n')
    (hvotes : votes value voters c ≤ votes value' polled d) :
    Elects value' rank' n' polled d := by
  obtain ⟨h3, hmost⟩ := h
  simp only [Majority] at hmost
  by_cases h3' : 3 ≤ n'
  · exact .majority h3' (by simp only [Majority]; omega)
  · -- At most two voters are expected, and there are two votes for the value.
    have hall : votes value' polled d = polled.length := by
      have hle : votes value' polled d ≤ polled.length := List.countP_le_length
      omega
    have hne : polled ≠ [] := by
      intro hnil
      have hzero := congrArg List.length hnil
      rw [List.length_nil] at hzero
      omega
    obtain ⟨b, hb⟩ := exists_newest rank' hne
    have hvalue := List.countP_eq_length.mp hall b hb.1
    exact .newest b (fun h => absurd h h3') hb (of_decide_eq_true hvalue)

theorem Newest.perm {b : α} (hp : voters.Perm voters') (h : Newest rank voters b) :
    Newest rank voters' b :=
  ⟨hp.mem_iff.mp h.1, fun v hv => h.2 v (hp.mem_iff.mpr hv)⟩

/-- The outcome does not depend on the order of the voters. -/
theorem Elects.perm (hp : voters.Perm voters') (h : Elects value rank n voters c) :
    Elects value rank n voters' c := by
  cases h with
  | majority h3 most => exact .majority h3 (by rwa [Majority, ← votes_perm hp])
  | newest b split top holds =>
    refine .newest b (fun h3 c' hc' => split h3 c' ?_) (top.perm hp) holds
    rwa [Majority, votes_perm hp]

/-- Fewer votes for every other value, more for the elected one, dissenters that were there
before and supporters that stay: the outcome is the same. -/
theorem Elects.of_shift (hinj : Set.InjOn rank {v | v ∈ voters'})
    (hsame : votes value voters c ≤ votes value voters' c)
    (hother : ∀ d, d ≠ c → votes value voters' d ≤ votes value voters d)
    (hold : ∀ v ∈ voters', value v ≠ c → v ∈ voters)
    (hkeep : ∀ v ∈ voters, value v = c → v ∈ voters')
    (h : Elects value rank n voters c) : Elects value rank n voters' c := by
  cases h with
  | majority h3 most => exact .majority h3 (lt_of_lt_of_le most hsame)
  | newest b split top holds =>
    have hb' : b ∈ voters' := hkeep b top.1 holds
    by_cases hc : 3 ≤ n ∧ Majority value n voters' c
    · exact .majority hc.1 hc.2
    · have hsplit : 3 ≤ n → ∀ d, ¬ Majority value n voters' d := by
        intro h3 d hd
        by_cases hdc : d = c
        · subst hdc
          exact hc ⟨h3, hd⟩
        · exact split h3 d (lt_of_lt_of_le hd (hother d hdc))
      obtain ⟨b', top'⟩ := exists_newest rank (List.ne_nil_of_mem hb')
      by_cases hvalue : value b' = c
      · exact .newest b' hsplit top' hvalue
      · -- a newest dissenter was a voter before, so the old newest voter ties with it
        have hmem := hold b' top'.1 hvalue
        have heq : b' = b := hinj top'.1 hb' (le_antisymm (top.2 b' hmem) (top'.2 b hb'))
        exact absurd (heq ▸ holds) hvalue

section Roll

/-- The voters among the polled `ids`: those whose answer expresses an opinion. -/
def roll (opinion : α → Bool) (answer : ι → α) (ids : List ι) : List α :=
  (ids.map answer).filter opinion

variable {opinion : α → Bool} {answer answer' : ι → α} {ids : List ι}

theorem mem_roll {v : α} :
    v ∈ roll opinion answer ids ↔ ∃ i ∈ ids, answer i = v ∧ opinion v = true := by
  simp only [roll, List.mem_filter, List.mem_map]
  constructor
  · rintro ⟨⟨i, hi, rfl⟩, ho⟩
    exact ⟨i, hi, rfl, ho⟩
  · rintro ⟨i, hi, rfl, ho⟩
    exact ⟨⟨i, hi, rfl⟩, ho⟩

theorem length_roll_le : (roll opinion answer ids).length ≤ ids.length := by
  simpa [roll] using List.length_filter_le opinion (ids.map answer)

theorem votes_roll (value : α → κ) (c : κ) :
    votes value (roll opinion answer ids) c =
      ids.countP (fun i => opinion (answer i) && decide (value (answer i) = c)) := by
  simp only [votes, roll, List.countP_filter, List.countP_map]
  exact List.countP_congr fun i _ => by simp [and_comm]

/-- Overwriting answers that do not support the elected value by answers that do keeps the
outcome, whichever of the answers are overwritten. -/
theorem Elects.overwrite (hinj : Set.InjOn rank {v | v ∈ roll opinion answer' ids})
    (hstep : ∀ i ∈ ids, answer' i = answer i ∨
      (¬ (opinion (answer i) = true ∧ value (answer i) = c) ∧
        opinion (answer' i) = true ∧ value (answer' i) = c))
    (h : Elects value rank n (roll opinion answer ids) c) :
    Elects value rank n (roll opinion answer' ids) c := by
  apply Elects.of_shift hinj ?_ ?_ ?_ ?_ h
  · rw [votes_roll, votes_roll]
    apply List.countP_mono_left
    intro i hi hc
    rcases hstep i hi with hsame | ⟨_, ho, hv⟩
    · rwa [hsame]
    · simp [ho, hv]
  · intro d hd
    rw [votes_roll, votes_roll]
    apply List.countP_mono_left
    intro i hi hc
    rcases hstep i hi with hsame | ⟨_, _, hv⟩
    · rwa [← hsame]
    · simp only [Bool.and_eq_true, decide_eq_true_eq] at hc
      exact absurd (hc.2.symm.trans hv) hd
  · intro v hv hne
    obtain ⟨i, hi, rfl, ho⟩ := mem_roll.mp hv
    rcases hstep i hi with hsame | ⟨_, _, hv⟩
    · rw [hsame] at ho ⊢
      exact mem_roll.mpr ⟨i, hi, rfl, ho⟩
    · exact absurd hv hne
  · intro v hv hc
    obtain ⟨i, hi, rfl, ho⟩ := mem_roll.mp hv
    rcases hstep i hi with hsame | ⟨hnot, _, _⟩
    · exact mem_roll.mpr ⟨i, hi, hsame, ho⟩
    · exact absurd ⟨ho, hc⟩ hnot

end Roll

end HsmSecretsOperator.Foundation.Election
