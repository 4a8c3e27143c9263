/- source: none
   digest: The exchange sort of two nested loops over places, and that it sorts. -/

import Mathlib.Data.List.Sort

set_option autoImplicit false

namespace HsmSecretsOperator.Foundation.ExchangeSort

variable {α : Type} [LT α] [DecidableLT α]

/-- The body of the inner loop. -/
def exchangeAt (i : Nat) (keys : List α) (j : Nat) : List α :=
  match keys[i]?, keys[j]? with
  | some x, some y => if x > y then (keys.set i y).set j x else keys
  | _, _ => keys

/-- The inner loop, from the place after `i` to the end. -/
def exchangeRound (keys : List α) (i : Nat) : List α :=
  (List.range' (i + 1) (keys.length - (i + 1))).foldl (exchangeAt i) keys

/-- The outer loop, to the place before the last. -/
def exchangeLoops (keys : List α) : List α :=
  (List.range' 0 (keys.length - 1)).foldl exchangeRound keys

/-- The inner loop: `x` is exchanged with every later element below it. -/
def exchangePass (x : α) : List α → α × List α
  | [] => (x, [])
  | y :: ys =>
    if x > y then
      let r := exchangePass y ys
      (r.1, x :: r.2)
    else
      let r := exchangePass x ys
      (r.1, y :: r.2)

/-- The outer loop; the first argument bounds it. -/
def exchangeSort : Nat → List α → List α
  | 0, keys => keys
  | _ + 1, [] => []
  | n + 1, x :: keys =>
    let r := exchangePass x keys
    r.1 :: exchangeSort n r.2

private theorem exchangeAt_append (before done rest : List α) (x y : α) :
    exchangeAt before.length (before ++ x :: (done ++ y :: rest))
        (before.length + 1 + done.length) =
      if x > y then before ++ y :: (done ++ x :: rest)
      else before ++ x :: (done ++ y :: rest) := by
  have hi : (before ++ x :: (done ++ y :: rest))[before.length]? = some x := by
    rw [List.getElem?_append_right le_rfl, Nat.sub_self]
    rfl
  have hoffset : before.length + 1 + done.length - before.length = done.length + 1 := by omega
  have hj : (before ++ x :: (done ++ y :: rest))[before.length + 1 + done.length]? = some y := by
    rw [List.getElem?_append_right (by omega), hoffset, List.getElem?_cons_succ,
      List.getElem?_append_right le_rfl, Nat.sub_self]
    rfl
  unfold exchangeAt
  rw [hi, hj]
  dsimp only
  split
  · rw [List.set_append_right _ _ le_rfl, Nat.sub_self, List.set_cons_zero,
      List.set_append_right _ _ (by omega), hoffset, List.set_cons_succ,
      List.set_append_right _ _ le_rfl, Nat.sub_self, List.set_cons_zero]
  · rfl

-- The elements that the loop has passed stand between the front and the rest.
private theorem foldl_exchangeAt (before done rest : List α) (x : α) :
    (List.range' (before.length + 1 + done.length) rest.length).foldl (exchangeAt before.length)
        (before ++ x :: (done ++ rest)) =
      before ++ (exchangePass x rest).1 :: (done ++ (exchangePass x rest).2) := by
  induction rest generalizing x done with
  | nil => rfl
  | cons y rest ih =>
    rw [List.length_cons, List.range'_succ, List.foldl_cons, exchangeAt_append, exchangePass]
    split
    · have hrest := ih (done ++ [x]) y
      rw [List.length_append, List.length_singleton, ← Nat.add_assoc, List.append_assoc,
        List.append_assoc, List.singleton_append, List.singleton_append] at hrest
      exact hrest
    · have hrest := ih (done ++ [y]) x
      rw [List.length_append, List.length_singleton, ← Nat.add_assoc, List.append_assoc,
        List.append_assoc, List.singleton_append, List.singleton_append] at hrest
      exact hrest

private theorem exchangeRound_append (before rest : List α) (x : α) :
    exchangeRound (before ++ x :: rest) before.length =
      before ++ (exchangePass x rest).1 :: (exchangePass x rest).2 := by
  have hlength : (before ++ x :: rest).length - (before.length + 1) = rest.length := by
    rw [List.length_append, List.length_cons]
    omega
  rw [exchangeRound, hlength]
  exact foldl_exchangeAt before [] rest x

private theorem length_exchangePass (x : α) (ys : List α) :
    (exchangePass x ys).2.length = ys.length := by
  induction ys generalizing x with
  | nil => rfl
  | cons y ys ih =>
    rw [exchangePass]
    split <;> simp [ih]

private theorem foldl_exchangeRound (before rest : List α) :
    (List.range' before.length (rest.length - 1)).foldl exchangeRound (before ++ rest) =
      before ++ exchangeSort rest.length rest := by
  induction hn : rest.length generalizing before rest with
  | zero =>
    obtain rfl := List.length_eq_zero_iff.mp hn
    rfl
  | succ n ih =>
    cases rest with
    | nil => cases hn
    | cons x rest =>
      have hlength : rest.length = n := Nat.succ.inj hn
      cases n with
      | zero =>
        obtain rfl := List.length_eq_zero_iff.mp hlength
        rfl
      | succ n =>
        have hrest := ih (before ++ [(exchangePass x rest).1]) (exchangePass x rest).2
          (by rw [length_exchangePass, hlength])
        rw [List.length_append, List.length_singleton, List.append_assoc, List.append_assoc,
          List.singleton_append, List.singleton_append] at hrest
        rw [Nat.add_sub_cancel, List.range'_succ, List.foldl_cons, exchangeRound_append]
        exact hrest

theorem exchangeLoops_eq (keys : List α) : exchangeLoops keys = exchangeSort keys.length keys :=
  foldl_exchangeRound [] keys

private theorem exchangePass_perm (x : α) (ys : List α) :
    ((exchangePass x ys).1 :: (exchangePass x ys).2).Perm (x :: ys) := by
  induction ys generalizing x with
  | nil => exact .refl _
  | cons y ys ih =>
    rw [exchangePass]
    split
    · exact (List.Perm.swap _ _ _).trans (((ih y).cons x).trans (.refl _))
    · exact (List.Perm.swap _ _ _).trans (((ih x).cons y).trans (.swap _ _ _))

theorem exchangeSort_perm (n : Nat) (keys : List α) : (exchangeSort n keys).Perm keys := by
  induction n generalizing keys with
  | zero => exact .refl _
  | succ n ih =>
    cases keys with
    | nil => exact .refl _
    | cons x keys => exact ((ih _).cons _).trans (exchangePass_perm x keys)

variable [LE α] [Std.IsLinearOrder α] [Std.LawfulOrderLT α]

private theorem exchangePass_le (x : α) (ys : List α) :
    ∀ y ∈ x :: ys, (exchangePass x ys).1 ≤ y := by
  induction ys generalizing x with
  | nil => simp [exchangePass, Std.le_refl]
  | cons z ys ih =>
    intro y hy
    rw [exchangePass]
    split
    next hlt =>
      rcases List.mem_cons.mp hy with rfl | hy
      · exact Std.le_trans (ih z z List.mem_cons_self) (Std.le_of_lt hlt)
      · exact ih z y hy
    next hle =>
      rcases List.mem_cons.mp hy with rfl | hy
      · exact ih y y List.mem_cons_self
      · rcases List.mem_cons.mp hy with rfl | hy
        · exact Std.le_trans (ih x x List.mem_cons_self) (Std.not_lt.mp hle)
        · exact ih x y (List.mem_cons_of_mem x hy)

theorem exchangeSort_sorted (n : Nat) (keys : List α) (h : keys.length ≤ n) :
    (exchangeSort n keys).Pairwise (· ≤ ·) := by
  induction n generalizing keys with
  | zero => simp [List.length_eq_zero_iff.mp (Nat.le_zero.mp h), exchangeSort]
  | succ n ih =>
    cases keys with
    | nil => exact .nil
    | cons x keys =>
      rw [List.length_cons] at h
      refine List.Pairwise.cons ?_ (ih _ (by rw [length_exchangePass]; omega))
      intro y hy
      have hmem := (exchangeSort_perm n (exchangePass x keys).2).mem_iff.mp hy
      exact exchangePass_le x keys y
        ((exchangePass_perm x keys).mem_iff.mp (List.mem_cons_of_mem _ hmem))

theorem exchangeSort_eq_of_perm {keys sorted : List α} (h : keys.Perm sorted)
    (hsorted : sorted.Pairwise (· ≤ ·)) : exchangeSort keys.length keys = sorted :=
  List.Perm.eq_of_pairwise' (exchangeSort_sorted _ _ le_rfl) hsorted
    ((exchangeSort_perm _ _).trans h)

end HsmSecretsOperator.Foundation.ExchangeSort
