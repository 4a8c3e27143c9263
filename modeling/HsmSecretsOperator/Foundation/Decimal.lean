/- source: none
   digest: Signed 64-bit integers, their decimal text and the scanner that reads it back. -/

import Mathlib.Data.Int.Basic
import Mathlib.Data.List.TakeWhile
import Mathlib.Data.String.Basic
import Mathlib.Tactic.Common

/-!
`sprintfD` is `fmt.Sprintf("%d", v)` and `sscanfD` is `fmt.Sscanf(s, "%d", &v)` for an `int64`.
-/

set_option autoImplicit false

namespace HsmSecretsOperator.Foundation.Decimal

def minInt64 : Int := -9223372036854775808

def maxInt64 : Int := 9223372036854775807

def InInt64 (v : Int) : Prop := minInt64 ≤ v ∧ v ≤ maxInt64

instance (v : Int) : Decidable (InInt64 v) :=
  inferInstanceAs (Decidable (minInt64 ≤ v ∧ v ≤ maxInt64))

/-- Two's complement reduction of an integer to `int64`. -/
def wrapInt64 (v : Int) : Int :=
  (v - minInt64) % 18446744073709551616 + minInt64

def sprintfD (v : Int) : String := toString v

/-- The characters `fmt` counts as space. -/
def isSpace (c : Char) : Bool :=
  c = ' ' || c = '\t' || c = '\n' || c = '\x0b' || c = '\x0c' || c = '\r' || c = '\u0085' ||
  c = '\u00a0' || c = '\u1680' || ('\u2000' ≤ c && c ≤ '\u200a') || c = '\u2028' ||
  c = '\u2029' || c = '\u202f' || c = '\u205f' || c = '\u3000'

/-- Skip spaces; a newline in the input is an error. -/
def skipSpace : List Char → Option (List Char)
  | [] => some []
  | c :: cs => if c = '\n' then none else if isSpace c then skipSpace cs else some (c :: cs)

def scanSign : List Char → Int × List Char
  | '+' :: cs => (1, cs)
  | '-' :: cs => (-1, cs)
  | cs => (1, cs)

/-- `fmt.Sscanf(s, "%d", &v)` for an `int64`; `none` when the scan reports an error. -/
def sscanfD (s : String) : Option Int :=
  match skipSpace s.toList with
  | none => none
  | some cs =>
    let signed := scanSign cs
    let digits := signed.2.takeWhile Char.isDigit
    if digits = [] then none
    else
      let v := signed.1 * (Nat.ofDigitChars 10 digits 0 : Int)
      if InInt64 v then some v else none

theorem inInt64_wrapInt64 (v : Int) : InInt64 (wrapInt64 v) := by
  simp only [InInt64, wrapInt64, minInt64, maxInt64]
  omega

theorem inInt64_of_sscanfD {s : String} {v : Int} (h : sscanfD s = some v) : InInt64 v := by
  unfold sscanfD at h
  split at h
  · cases h
  · dsimp only at h
    split at h
    · cases h
    · split at h
      next hrange =>
        obtain rfl := Option.some.inj h
        exact hrange
      next => cases h

theorem wrapInt64_succ {v : Int} (h0 : 0 ≤ v) (h : InInt64 v) :
    wrapInt64 (v + 1) = if v < maxInt64 then v + 1 else minInt64 := by
  by_cases hlt : v < maxInt64
  · rw [if_pos hlt]
    simp only [InInt64, wrapInt64, minInt64, maxInt64] at *
    omega
  · rw [if_neg hlt]
    simp only [InInt64, wrapInt64, minInt64, maxInt64] at *
    omega

theorem lt_wrapInt64_succ_iff {m v : Int} (h0 : 0 ≤ m) (hm : InInt64 m) (hv : InInt64 v) :
    v < wrapInt64 (m + 1) ↔ m < maxInt64 ∧ v ≤ m := by
  rw [wrapInt64_succ h0 hm]
  have hmin := hv.1
  split <;> omega

theorem wrapInt64_neg {v : Int} (h : InInt64 v) :
    wrapInt64 (-v) = if v = minInt64 then minInt64 else -v := by
  by_cases hmin : v = minInt64
  · rw [if_pos hmin, hmin]
    decide
  · rw [if_neg hmin]
    simp only [InInt64, wrapInt64, minInt64, maxInt64] at *
    omega

private theorem isDigit_ne_newline {c : Char} (h : c.isDigit = true) : c ≠ '\n' := by
  rintro rfl
  simp at h

private theorem isSpace_of_isDigit {c : Char} (h : c.isDigit = true) : isSpace c = false := by
  simp only [Char.isDigit, Bool.and_eq_true, decide_eq_true_eq] at h
  obtain ⟨h0, h9⟩ := h
  have hlt : c < '\u0085' := lt_of_le_of_lt (show c ≤ '9' from h9) (by decide)
  simp only [isSpace, Bool.or_eq_false_iff, decide_eq_false_iff_not, Bool.and_eq_false_iff]
  refine ⟨⟨⟨⟨⟨⟨⟨⟨⟨⟨⟨⟨⟨⟨?_, ?_⟩, ?_⟩, ?_⟩, ?_⟩, ?_⟩, ?_⟩, ?_⟩, ?_⟩, ?_⟩, ?_⟩, ?_⟩, ?_⟩, ?_⟩, ?_⟩
  all_goals first
    | (rintro rfl; revert h0; decide)
    | (rintro rfl; revert hlt; decide)
    | exact .inl (fun h => absurd (lt_of_lt_of_le hlt (le_trans (by decide) h)) (lt_irrefl _))

private theorem skipSpace_digits {cs : List Char} (h : ∀ c ∈ cs, c.isDigit = true) :
    skipSpace cs = some cs := by
  cases cs with
  | nil => rfl
  | cons c cs =>
    have hc := h c List.mem_cons_self
    simp [skipSpace, isDigit_ne_newline hc, isSpace_of_isDigit hc]

theorem scanSign_digits {cs : List Char} (h : ∀ c ∈ cs, c.isDigit = true) :
    scanSign cs = (1, cs) := by
  unfold scanSign
  split
  · exact absurd (h '+' List.mem_cons_self) (by decide)
  · exact absurd (h '-' List.mem_cons_self) (by decide)
  · rfl

private theorem takeWhile_toDigits (n : Nat) :
    (Nat.toDigits 10 n).takeWhile Char.isDigit = Nat.toDigits 10 n :=
  List.takeWhile_eq_self_iff.mpr
    fun _ hc => Nat.isDigit_of_mem_toDigits (by decide) (by decide) hc

theorem sscanfD_sprintfD {v : Int} (h : InInt64 v) : sscanfD (sprintfD v) = some v := by
  have hdigits (n : Nat) : ∀ c ∈ Nat.toDigits 10 n, c.isDigit = true :=
    fun _ hc => Nat.isDigit_of_mem_toDigits (by decide) (by decide) hc
  cases v with
  | ofNat n =>
    have htext : (sprintfD (Int.ofNat n)).toList = Nat.toDigits 10 n := Nat.toList_repr
    have hvalue : (1 : Int) * (n : Int) = Int.ofNat n := Int.one_mul _
    simp only [sscanfD, htext, skipSpace_digits (hdigits n), scanSign_digits (hdigits n),
      takeWhile_toDigits, Nat.toDigits_ne_nil, if_false, Nat.ofDigitChars_ten_toDigits, hvalue]
    exact if_pos h
  | negSucc n =>
    have htext : (sprintfD (Int.negSucc n)).toList = '-' :: Nat.toDigits 10 (n + 1) := by
      have hrepr : sprintfD (Int.negSucc n) = "-" ++ (n + 1).repr := rfl
      rw [hrepr, String.toList_append, Nat.toList_repr]
      rfl
    have hskip : skipSpace ('-' :: Nat.toDigits 10 (n + 1)) =
        some ('-' :: Nat.toDigits 10 (n + 1)) := by
      simp [skipSpace, isSpace]
    have hvalue : (-1 : Int) * ((n + 1 : Nat) : Int) = Int.negSucc n := by omega
    simp only [sscanfD, htext, hskip, scanSign, takeWhile_toDigits, Nat.toDigits_ne_nil,
      if_false, Nat.ofDigitChars_ten_toDigits, hvalue]
    exact if_pos h

example : sscanfD " +12abc" = some 12 := by decide

end HsmSecretsOperator.Foundation.Decimal
