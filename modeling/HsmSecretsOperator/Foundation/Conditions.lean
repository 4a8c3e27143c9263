/- source: none
   digest: Conditions of an object with the times of their transitions, and what they record. -/

import Mathlib.Data.List.Chain
import Mathlib.Data.List.Induction

set_option autoImplicit false

namespace HsmSecretsOperator.Foundation.Conditions

structure Condition where
  type : String
  status : Bool
  lastTransitionTime : Nat
  reason : String
  message : String
  deriving DecidableEq

/-- The loop that replaces the first condition of a type, and the addition where there is none. -/
def setCondition (type : String) (update : Option Condition → Condition) :
    List Condition → List Condition
  | [] => [update none]
  | cond :: conditions =>
    if cond.type = type then update (some cond) :: conditions
    else cond :: setCondition type update conditions

/-- The time of the entry since which the status is the same: it is the first entry, or the one
before it has another status. -/
def LastTransition (history : List (Nat × Bool)) (t : Nat) : Prop :=
  ∃ before entry after, history = before ++ entry :: after ∧ entry.1 = t ∧
    (∀ w, before.getLast? = some w → w.2 ≠ entry.2) ∧ ∀ w ∈ after, w.2 = entry.2

namespace LastTransition

variable {history : List (Nat × Bool)} {t t' : Nat} {entry : Nat × Bool}

theorem append_of_ne (h : ∀ w, history.getLast? = some w → w.2 ≠ entry.2) :
    LastTransition (history ++ [entry]) entry.1 :=
  ⟨history, entry, [], rfl, rfl, h, fun _ hw => absurd hw List.not_mem_nil⟩

theorem append_of_eq (h : LastTransition history t)
    (hsame : ∀ w, history.getLast? = some w → w.2 = entry.2) :
    LastTransition (history ++ [entry]) t := by
  obtain ⟨before, first, after, rfl, rfl, hbefore, hafter⟩ := h
  refine ⟨before, first, after ++ [entry], by simp, rfl, hbefore, fun w hw => ?_⟩
  rcases List.mem_append.mp hw with hw | hw
  · exact hafter w hw
  · obtain rfl := List.mem_singleton.mp hw
    -- The last entry is the transition or one of those that kept its status.
    cases hlast : after.getLast? with
    | none =>
      rw [List.getLast?_eq_none_iff.mp hlast] at hsame
      exact (hsame first (by simp)).symm
    | some last =>
      have hend : (before ++ first :: after).getLast? = some last := by
        rw [List.getLast?_append, List.getLast?_cons, hlast]
        rfl
      rw [← hsame last hend]
      exact hafter last (List.mem_of_getLast? hlast)

private theorem eq_of_later {before after before' after' : List (Nat × Bool)}
    {e e' : Nat × Bool} {more : List (Nat × Bool)} (hafter : ∀ w ∈ after, w.2 = e.2)
    (hbefore' : ∀ w, before'.getLast? = some w → w.2 ≠ e'.2) (hlater : before' = before ++ more)
    (hrest : e :: after = more ++ e' :: after') : e = e' := by
  cases hmore : more.getLast? with
  | none =>
    rw [List.getLast?_eq_none_iff.mp hmore] at hrest
    exact (List.cons.inj hrest).1
  | some last =>
    -- A later transition would come after an entry with its own status.
    have hlast : before'.getLast? = some last := by
      rw [hlater, List.getLast?_append, hmore]
      rfl
    have hstatus (w : Nat × Bool) (hw : w ∈ e :: after) : w.2 = e.2 := by
      rcases List.mem_cons.mp hw with rfl | hw
      · rfl
      · exact hafter w hw
    have hlastStatus : last.2 = e.2 := hstatus last (by
      rw [hrest]
      exact List.mem_append_left _ (List.mem_of_getLast? hmore))
    have hentryStatus : e'.2 = e.2 := by
      refine hstatus e' ?_
      rw [hrest]
      exact List.mem_append_right _ List.mem_cons_self
    exact absurd (hlastStatus.trans hentryStatus.symm) (hbefore' last hlast)

theorem unique (h : LastTransition history t) (h' : LastTransition history t') : t = t' := by
  obtain ⟨before, e, after, rfl, rfl, hbefore, hafter⟩ := h
  obtain ⟨before', e', after', heq, rfl, hbefore', hafter'⟩ := h'
  rcases List.append_eq_append_iff.mp heq with ⟨more, hlater, hrest⟩ | ⟨more, hlater, hrest⟩
  · rw [eq_of_later hafter hbefore' hlater hrest]
  · rw [eq_of_later hafter' hbefore hlater hrest]

end LastTransition

/-- No type occurs twice, and every time is that of the last transition. -/
structure Recorded (history : List (Nat × Bool)) (conditions : List Condition) : Prop where
  nodup : (conditions.map Condition.type).Nodup
  time : ∀ cond ∈ conditions, LastTransition history cond.lastTransitionTime

section Record

variable {υ : Type} {type : String} {update : υ → Option Condition → Condition}
  {entry : υ → Nat × Bool}

def record (type : String) (update : υ → Option Condition → Condition) (updates : List υ) :
    List Condition :=
  updates.foldl (fun conditions u => setCondition type (update u) conditions) []

/-- The updates set a condition of the type, with the status of their entry. -/
structure Sets (type : String) (update : υ → Option Condition → Condition)
    (entry : υ → Nat × Bool) : Prop where
  type : ∀ u old, (update u old).type = type
  status : ∀ u old, (update u old).status = (entry u).2

theorem record_append (h : Sets type update entry) (updates : List υ) (u : υ) :
    record type update (updates ++ [u]) = [update u (record type update updates).head?] := by
  induction updates using List.reverseRecOn generalizing u with
  | nil => rfl
  | append_singleton updates w ih =>
    have hsnoc : record type update (updates ++ [w] ++ [u]) =
        setCondition type (update u) (record type update (updates ++ [w])) := by
      rw [record, List.foldl_append]
      rfl
    rw [hsnoc, ih w, setCondition, if_pos (h.type w _)]
    rfl

theorem status_of_getLast? (h : Sets type update entry) {updates : List υ} {w : υ}
    (hw : updates.getLast? = some w) :
    ∃ cond, (record type update updates).head? = some cond ∧ cond.status = (entry w).2 := by
  obtain ⟨init, rfl⟩ := List.getLast?_eq_some_iff.mp hw
  rw [record_append h]
  exact ⟨_, rfl, h.status w _⟩

private theorem recorded_singleton {history : List (Nat × Bool)} {cond : Condition} :
    Recorded history [cond] ↔ LastTransition history cond.lastTransitionTime := by
  constructor
  · intro h
    exact h.time cond List.mem_cons_self
  · intro h
    refine ⟨List.pairwise_singleton _ _, fun c hc => ?_⟩
    obtain rfl := List.mem_singleton.mp hc
    exact h

private theorem getLast?_map_entry {updates : List υ} {e : Nat × Bool}
    (h : (updates.map entry).getLast? = some e) : ∃ w, updates.getLast? = some w ∧ entry w = e := by
  rw [List.getLast?_map] at h
  exact Option.map_eq_some_iff.mp h

/-- Updates that keep the time where the status stays the same record their transitions. -/
theorem recorded_of_keeps (h : Sets type update entry)
    (hfirst : ∀ u, (update u none).lastTransitionTime = (entry u).1)
    (hkeeps : ∀ u cond, (update u (some cond)).lastTransitionTime =
      if cond.status ≠ (entry u).2 then (entry u).1 else cond.lastTransitionTime)
    (updates : List υ) : Recorded (updates.map entry) (record type update updates) := by
  induction updates using List.reverseRecOn with
  | nil => exact ⟨List.nodup_nil, fun _ hc => absurd hc List.not_mem_nil⟩
  | append_singleton updates u ih =>
    rw [record_append h, recorded_singleton, List.map_append, List.map_singleton]
    cases hlast : updates.getLast? with
    | none =>
      obtain rfl := List.getLast?_eq_none_iff.mp hlast
      rw [show (record type update []).head? = none from rfl, hfirst]
      exact .append_of_ne fun w hw => by cases hw
    | some w =>
      obtain ⟨cond, hcond, hstatus⟩ := status_of_getLast? h hlast
      have hend (e : Nat × Bool) (he : (updates.map entry).getLast? = some e) :
          e.2 = (entry w).2 := by
        obtain ⟨w', hw', rfl⟩ := getLast?_map_entry he
        rw [hlast] at hw'
        rw [Option.some.inj hw']
      rw [hcond, hkeeps, hstatus]
      split
      next hne => exact .append_of_ne fun e he => (hend e he).symm ▸ hne
      next hsame =>
        refine (ih.time cond (List.mem_of_mem_head? hcond)).append_of_eq fun e he => ?_
        rw [hend e he]
        exact not_not.mp hsame

/-- Updates that stamp every condition with their own time record their transitions at every moment
exactly if updates that follow each other with the same status have the same time. -/
theorem recorded_of_stamps_iff (h : Sets type update entry)
    (hstamps : ∀ u old, (update u old).lastTransitionTime = (entry u).1) (updates : List υ) :
    (∀ us, us <+: updates → Recorded (us.map entry) (record type update us)) ↔
      updates.IsChain fun a b => (entry a).2 = (entry b).2 → (entry a).1 = (entry b).1 := by
  induction updates using List.reverseRecOn with
  | nil =>
    refine iff_of_true (fun us hus => ?_) .nil
    obtain rfl := List.prefix_nil.mp hus
    exact ⟨List.nodup_nil, fun _ hc => absurd hc List.not_mem_nil⟩
  | append_singleton updates u ih =>
    have hall : (∀ us, us <+: updates ++ [u] → Recorded (us.map entry) (record type update us)) ↔
        (∀ us, us <+: updates → Recorded (us.map entry) (record type update us)) ∧
          LastTransition ((updates.map entry) ++ [entry u]) (entry u).1 := by
      simp only [List.prefix_concat_iff, or_imp, forall_and, forall_eq, record_append h,
        recorded_singleton, List.map_append, List.map_singleton, hstamps]
      exact and_comm
    rw [hall, List.isChain_append, ih]
    refine and_congr_right fun hchain => ?_
    have hbefore := ih.mpr hchain updates (List.prefix_refl updates)
    -- Where the update changes nothing, the last transition stays where it was.
    have hkept (w : υ) (hw : updates.getLast? = some w) (hsame : (entry w).2 = (entry u).2) :
        LastTransition (updates.map entry ++ [entry u]) (entry w).1 := by
      obtain ⟨init, rfl⟩ := List.getLast?_eq_some_iff.mp hw
      rw [record_append h, recorded_singleton, hstamps] at hbefore
      refine hbefore.append_of_eq fun e he => ?_
      rw [List.map_append, List.map_singleton, List.getLast?_append] at he
      obtain rfl : entry w = e := Option.some.inj he
      exact hsame
    constructor
    · intro hlast
      refine ⟨.singleton u, fun w hw u' hu' hsame => ?_⟩
      obtain rfl : u = u' := Option.some.inj hu'
      exact (hkept w hw hsame).unique hlast
    · rintro ⟨-, hlast⟩
      by_cases hchanged : ∀ e, (updates.map entry).getLast? = some e → e.2 ≠ (entry u).2
      · exact .append_of_ne hchanged
      · push Not at hchanged
        obtain ⟨e, he, hsame⟩ := hchanged
        obtain ⟨w, hw, rfl⟩ := getLast?_map_entry he
        rw [← hlast w hw u rfl hsame]
        exact hkept w hw hsame

end Record

end HsmSecretsOperator.Foundation.Conditions
