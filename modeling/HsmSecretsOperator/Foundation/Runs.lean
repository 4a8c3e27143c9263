/- source: none
   digest: Runs of a deterministic system under a list of inputs, and the rules of invariants. -/

import Mathlib.Logic.Basic

set_option autoImplicit false

namespace HsmSecretsOperator.Foundation.Runs

variable {σ α : Type} (step : σ → α → σ)

/-- The state after a run. -/
def run (s : σ) (inputs : List α) : σ := inputs.foldl step s

@[simp] theorem run_nil (s : σ) : run step s [] = s := rfl

@[simp] theorem run_cons (s : σ) (a : α) (as : List α) :
    run step s (a :: as) = run step (step s a) as := rfl

theorem run_append (s : σ) (as bs : List α) :
    run step s (as ++ bs) = run step (run step s as) bs :=
  List.foldl_append

/-- The property holds of every step of a run, at the state in which the step is taken. -/
def Along (P : σ → α → Prop) : σ → List α → Prop
  | _, [] => True
  | s, a :: as => P s a ∧ Along P (step s a) as

instance instDecidableAlong (P : σ → α → Prop) [∀ s a, Decidable (P s a)] :
    ∀ s as, Decidable (Along step P s as)
  | _, [] => isTrue trivial
  | s, a :: as =>
    have := instDecidableAlong P (step s a) as
    inferInstanceAs (Decidable (P s a ∧ Along step P (step s a) as))

variable {step} {P Q : σ → α → Prop} {s : σ} {as : List α}

/-- What no step of a run changes is the same after the run. -/
theorem run_frame {β : Type} (f : σ → β) (h : ∀ a ∈ as, ∀ s, f (step s a) = f s) :
    f (run step s as) = f s := by
  induction as generalizing s with
  | nil => rfl
  | cons a as ih =>
    rw [run_cons, ih fun b hb => h b (List.mem_cons_of_mem a hb), h a List.mem_cons_self]

theorem Along.append_iff {bs : List α} : Along step P s (as ++ bs) ↔
    Along step P s as ∧ Along step P (run step s as) bs := by
  induction as generalizing s with
  | nil => exact (and_iff_right trivial).symm
  | cons a as ih =>
    rw [List.cons_append]
    exact (and_congr_right fun _ => ih).trans and_assoc.symm

theorem Along.of_forall (h : ∀ a ∈ as, ∀ s, P s a) : Along step P s as := by
  induction as generalizing s with
  | nil => exact trivial
  | cons a as ih =>
    exact ⟨h a List.mem_cons_self s, ih fun b hb => h b (List.mem_cons_of_mem a hb)⟩

theorem Along.and (h : Along step P s as) (h' : Along step Q s as) :
    Along step (fun s a => P s a ∧ Q s a) s as := by
  induction as generalizing s with
  | nil => exact trivial
  | cons a as ih => exact ⟨⟨h.1, h'.1⟩, ih h.2 h'.2⟩

/-- An invariant that steps of the first kind keep lifts a property of single steps to runs. -/
theorem Along.of_invariant (Inv : σ → Prop) (hstep : ∀ s a, Inv s → P s a → Inv (step s a) ∧ Q s a)
    (hs : Inv s) (h : Along step P s as) : Along step Q s as := by
  induction as generalizing s with
  | nil => exact trivial
  | cons a as ih =>
    obtain ⟨ha, has⟩ := h
    obtain ⟨hnext, hq⟩ := hstep s a hs ha
    exact ⟨hq, ih hnext has⟩

/-- An invariant that steps of a kind keep holds after every run of such steps. -/
theorem Along.run_invariant {Inv : σ → Prop} (hstep : ∀ s a, Inv s → P s a → Inv (step s a))
    (hs : Inv s) (h : Along step P s as) : Inv (run step s as) := by
  induction as generalizing s with
  | nil => exact hs
  | cons a as ih =>
    obtain ⟨ha, has⟩ := h
    exact ih (hstep s a hs ha) has

/-- Two properties of steps that agree under an invariant agree along runs if one of them keeps the
invariant. -/
theorem Along.congr_of_kept {R : σ → α → Prop} {Inv : σ → Prop}
    (hiff : ∀ s a, Inv s → R s a → (P s a ↔ Q s a))
    (hkeep : ∀ s a, Inv s → R s a → P s a → Inv (step s a)) (hs : Inv s)
    (h : Along step R s as) : Along step P s as ↔ Along step Q s as := by
  induction as generalizing s with
  | nil => exact Iff.rfl
  | cons a as ih =>
    obtain ⟨ha, has⟩ := h
    have hhead := hiff s a hs ha
    constructor
    · rintro ⟨hp, hrest⟩
      exact ⟨hhead.mp hp, (ih (hkeep s a hs ha hp) has).mp hrest⟩
    · rintro ⟨hq, hrest⟩
      have hp := hhead.mpr hq
      exact ⟨hp, (ih (hkeep s a hs ha hp) has).mpr hrest⟩

/-- What a step leaves exactly if it is of a kind, a run leaves exactly if all its steps are. -/
theorem Along.run_iff {I : σ → Prop} (hstep : ∀ s a, I (step s a) ↔ I s ∧ P s a) :
    I (run step s as) ↔ I s ∧ Along step P s as := by
  induction as generalizing s with
  | nil => exact (and_iff_left trivial).symm
  | cons a as ih =>
    rw [run_cons, ih, hstep, and_assoc]
    exact Iff.rfl

/-- Two properties of steps that agree under an invariant of all steps agree along runs. -/
theorem Along.congr {Inv : σ → Prop} (hinv : ∀ s a, Inv s → Inv (step s a))
    (hiff : ∀ s a, Inv s → (P s a ↔ Q s a)) (hs : Inv s) :
    Along step P s as ↔ Along step Q s as := by
  induction as generalizing s with
  | nil => exact Iff.rfl
  | cons a as ih => exact and_congr (hiff s a hs) (ih (hinv s a hs))

/-- A step of the second kind comes, and all steps before it are of the first kind. -/
def Until (step : σ → α → σ) (P Q : σ → α → Prop) : σ → List α → Prop
  | _, [] => False
  | s, a :: as => Q s a ∨ P s a ∧ Until step P Q (step s a) as

instance instDecidableUntil (step : σ → α → σ) (P Q : σ → α → Prop) [∀ s a, Decidable (P s a)]
    [∀ s a, Decidable (Q s a)] : ∀ s as, Decidable (Until step P Q s as)
  | _, [] => isFalse id
  | s, a :: as =>
    have := instDecidableUntil step P Q (step s a) as
    inferInstanceAs (Decidable (Q s a ∨ P s a ∧ Until step P Q (step s a) as))

theorem until_cons {a : α} : Until step P Q s (a :: as) ↔
    Q s a ∨ P s a ∧ Until step P Q (step s a) as := Iff.rfl

end HsmSecretsOperator.Foundation.Runs
