/- source: none
   digest: Calls to an API server: how they end, and objects under optimistic concurrency. -/

import Mathlib.Logic.Basic

set_option autoImplicit false

namespace HsmSecretsOperator.Foundation.ApiServer

/-- What clients tell apart in a failure. -/
inductive Reason where
  | notFound
  | conflict
  | other
  deriving DecidableEq

structure ApiError where
  reason : Reason
  text : String
  deriving DecidableEq

inductive Fate where
  | served
  | refused (e : ApiError)
  | lost (text : String)
  deriving DecidableEq

/-- The failure that the client sees of a call that would have succeeded. -/
def Fate.error : Fate → Option ApiError
  | .served => none
  | .refused e => some e
  | .lost text => some ⟨.other, text⟩

structure Versioned (α : Type) where
  value : α
  resourceVersion : Nat
  deriving DecidableEq

namespace Versioned

variable {α : Type} [DecidableEq α]

/-- A change; one that leaves the object as it is does not count. -/
def change (v : Versioned α) (f : α → α) : Versioned α :=
  if f v.value = v.value then v else ⟨f v.value, v.resourceVersion + 1⟩

theorem value_change (v : Versioned α) (f : α → α) : (v.change f).value = f v.value := by
  unfold change
  split
  next h => exact h.symm
  next => rfl

theorem le_resourceVersion_change (v : Versioned α) (f : α → α) :
    v.resourceVersion ≤ (v.change f).resourceVersion := by
  unfold change
  split
  · exact Nat.le_refl _
  · exact Nat.le_succ _

theorem change_eq_self {v : Versioned α} {f : α → α}
    (h : (v.change f).resourceVersion = v.resourceVersion) : v.change f = v := by
  unfold change at h ⊢
  split at h
  next hsame => rw [if_pos hsame]
  next => exact absurd h (Nat.succ_ne_self _)

end Versioned

end HsmSecretsOperator.Foundation.ApiServer
