/- source: none
   digest: The standard base64 encoding with padding, and decoding that skips line breaks. -/

import Mathlib.Tactic.Common
import HsmSecretsOperator.Foundation.Text

/-! Decoding follows `base64.StdEncoding`; the bits that padding leaves over are not looked at. -/

set_option autoImplicit false

namespace HsmSecretsOperator.Foundation.Base64

open Text

def pad : UInt8 := 61

/-- The character of a number below 64. -/
def digit (n : Nat) : UInt8 :=
  if n < 26 then UInt8.ofNat (65 + n)
  else if n < 52 then UInt8.ofNat (71 + n)
  else if n < 62 then UInt8.ofNat (n - 4)
  else if n = 62 then 43
  else 47

def value (c : UInt8) : Option Nat :=
  let n := c.toNat
  if 65 ≤ n ∧ n ≤ 90 then some (n - 65)
  else if 97 ≤ n ∧ n ≤ 122 then some (n - 71)
  else if 48 ≤ n ∧ n ≤ 57 then some (n + 4)
  else if n = 43 then some 62
  else if n = 47 then some 63
  else none

def encode : Bytes → Bytes
  | [] => []
  | [a] => [digit (a.toNat / 4), digit (a.toNat % 4 * 16), pad, pad]
  | [a, b] =>
    [digit (a.toNat / 4), digit (a.toNat % 4 * 16 + b.toNat / 16), digit (b.toNat % 16 * 4), pad]
  | a :: b :: c :: rest =>
    digit (a.toNat / 4) :: digit (a.toNat % 4 * 16 + b.toNat / 16) ::
      digit (b.toNat % 16 * 4 + c.toNat / 64) :: digit (c.toNat % 64) :: encode rest

def firstByte (w x : Nat) : UInt8 := UInt8.ofNat (w * 4 + x / 16)

def secondByte (x y : Nat) : UInt8 := UInt8.ofNat (x % 16 * 16 + y / 4)

def thirdByte (y z : Nat) : UInt8 := UInt8.ofNat (y % 4 * 64 + z)

/-- Characters without line breaks, four at a time; only the last four may be padded. -/
def decodeGroups : Bytes → Option Bytes
  | [] => some []
  | a :: b :: c :: d :: rest =>
    match value a, value b, value c, value d with
    | some w, some x, some y, some z =>
      (decodeGroups rest).map fun bytes =>
        firstByte w x :: secondByte x y :: thirdByte y z :: bytes
    | some w, some x, some y, none =>
      if d = pad ∧ rest = [] then some [firstByte w x, secondByte x y] else none
    | some w, some x, none, none =>
      if c = pad ∧ d = pad ∧ rest = [] then some [firstByte w x] else none
    | _, _, _, _ => none
  | [_] | [_, _] | [_, _, _] => none

def isLineBreak (c : UInt8) : Bool := c = 10 || c = 13

def decode (text : Bytes) : Option Bytes := decodeGroups (text.filter fun c => !isLineBreak c)

theorem value_digit {n : Nat} (h : n < 64) : value (digit n) = some n := by
  have hall : ∀ n : Fin 64, value (digit n) = some n.val := by decide
  exact hall ⟨n, h⟩

private theorem value_pad : value pad = none := rfl

private theorem ofNat_toNat_eq {n : Nat} {a : UInt8} (h : n = a.toNat) : UInt8.ofNat n = a := by
  rw [h, UInt8.ofNat_toNat]

private theorem firstByte_eq (a : UInt8) {r : Nat} (h : r < 16) :
    firstByte (a.toNat / 4) (a.toNat % 4 * 16 + r) = a :=
  ofNat_toNat_eq (by omega)

private theorem secondByte_eq (q : Nat) (b : UInt8) {r : Nat} (h : r < 4) :
    secondByte (q * 16 + b.toNat / 16) (b.toNat % 16 * 4 + r) = b := by
  have hb := b.toNat_lt
  exact ofNat_toNat_eq (by omega)

private theorem thirdByte_eq (q : Nat) (c : UInt8) :
    thirdByte (q * 4 + c.toNat / 64) (c.toNat % 64) = c := by
  have hc := c.toNat_lt
  exact ofNat_toNat_eq (by omega)

theorem decodeGroups_encode (bytes : Bytes) : decodeGroups (encode bytes) = some bytes := by
  fun_induction encode bytes with
  | case1 => rfl
  | case2 a =>
    have ha := a.toNat_lt
    have hfirst := firstByte_eq a (r := 0) (by decide)
    rw [Nat.add_zero] at hfirst
    unfold decodeGroups
    rw [value_digit (by omega), value_digit (by omega), value_pad]
    dsimp only
    rw [if_pos ⟨rfl, rfl, rfl⟩, hfirst]
  | case3 a b =>
    have ha := a.toNat_lt
    have hb := b.toNat_lt
    have hsecond := secondByte_eq (a.toNat % 4) b (r := 0) (by decide)
    rw [Nat.add_zero] at hsecond
    unfold decodeGroups
    rw [value_digit (by omega), value_digit (by omega), value_digit (by omega), value_pad]
    dsimp only
    rw [if_pos ⟨rfl, rfl⟩, firstByte_eq a (by omega), hsecond]
  | case4 a b c rest ih =>
    have ha := a.toNat_lt
    have hb := b.toNat_lt
    have hc := c.toNat_lt
    unfold decodeGroups
    rw [value_digit (by omega), value_digit (by omega), value_digit (by omega),
      value_digit (by omega), ih]
    dsimp only [Option.map_some]
    rw [firstByte_eq a (by omega), secondByte_eq _ b (by omega), thirdByte_eq]

private theorem isLineBreak_digit {n : Nat} (h : n < 64) : isLineBreak (digit n) = false := by
  have hall : ∀ n : Fin 64, isLineBreak (digit n) = false := by decide
  exact hall ⟨n, h⟩

theorem isLineBreak_of_mem_encode {bytes : Bytes} :
    ∀ c ∈ encode bytes, isLineBreak c = false := by
  fun_induction encode bytes with
  | case1 => exact fun c hc => absurd hc List.not_mem_nil
  | case2 a =>
    have ha := a.toNat_lt
    intro c hc
    simp only [List.mem_cons, List.not_mem_nil, or_false] at hc
    rcases hc with rfl | rfl | rfl | rfl
    · exact isLineBreak_digit (by omega)
    · exact isLineBreak_digit (by omega)
    · rfl
    · rfl
  | case3 a b =>
    have ha := a.toNat_lt
    have hb := b.toNat_lt
    intro c hc
    simp only [List.mem_cons, List.not_mem_nil, or_false] at hc
    rcases hc with rfl | rfl | rfl | rfl
    · exact isLineBreak_digit (by omega)
    · exact isLineBreak_digit (by omega)
    · exact isLineBreak_digit (by omega)
    · rfl
  | case4 a b c rest ih =>
    have ha := a.toNat_lt
    have hb := b.toNat_lt
    have hc := c.toNat_lt
    intro x hx
    simp only [List.mem_cons] at hx
    rcases hx with rfl | rfl | rfl | rfl | hx
    · exact isLineBreak_digit (by omega)
    · exact isLineBreak_digit (by omega)
    · exact isLineBreak_digit (by omega)
    · exact isLineBreak_digit (by omega)
    · exact ih x hx

theorem decode_encode (bytes : Bytes) : decode (encode bytes) = some bytes := by
  unfold decode
  rw [List.filter_eq_self.mpr fun c hc => ?_]
  · exact decodeGroups_encode bytes
  · rw [isLineBreak_of_mem_encode c hc]
    rfl

private theorem value_lt {c : UInt8} {n : Nat} (h : value c = some n) : c.toNat < 128 := by
  unfold value at h
  dsimp only at h
  split at h
  · omega
  split at h
  · omega
  split at h
  · omega
  split at h
  · omega
  split at h
  · omega
  · cases h

private theorem ascii_of_decodeGroups {text bytes : Bytes} (h : decodeGroups text = some bytes) :
    ∀ c ∈ text, c.toNat < 128 := by
  have hpad : pad.toNat < 128 := by decide
  fun_induction decodeGroups text generalizing bytes with
  | case1 => exact fun c hc => absurd hc List.not_mem_nil
  | case2 a b c d rest w x y z hd hc hb ha ih =>
    obtain ⟨tail, htail, -⟩ := Option.map_eq_some_iff.mp h
    intro e he
    simp only [List.mem_cons] at he
    rcases he with rfl | rfl | rfl | rfl | he
    · exact value_lt ha
    · exact value_lt hb
    · exact value_lt hc
    · exact value_lt hd
    · exact ih htail e he
  | case3 a b c d rest w x y hd hc hb ha hend =>
    obtain ⟨rfl, rfl⟩ := hend
    intro e he
    simp only [List.mem_cons, List.not_mem_nil, or_false] at he
    rcases he with rfl | rfl | rfl | rfl
    · exact value_lt ha
    · exact value_lt hb
    · exact value_lt hc
    · exact hpad
  | case5 a b c d rest w x hd hc hb ha hend =>
    obtain ⟨rfl, rfl, rfl⟩ := hend
    intro e he
    simp only [List.mem_cons, List.not_mem_nil, or_false] at he
    rcases he with rfl | rfl | rfl | rfl
    · exact value_lt ha
    · exact value_lt hb
    · exact hpad
    · exact hpad
  | _ => cases h

private theorem length_of_decodeGroups {text bytes : Bytes} (h : decodeGroups text = some bytes) :
    4 * bytes.length ≤ 3 * text.length := by
  fun_induction decodeGroups text generalizing bytes with
  | case1 =>
    cases h
    rfl
  | case2 a b c d rest w x y z hd hc hb ha ih =>
    obtain ⟨tail, htail, rfl⟩ := Option.map_eq_some_iff.mp h
    have hlength := ih htail
    simp only [List.length_cons]
    omega
  | case3 =>
    cases h
    simp only [List.length_cons, List.length_nil]
    omega
  | case5 =>
    cases h
    simp only [List.length_cons, List.length_nil]
    omega
  | _ => cases h

theorem ascii_of_decode {text bytes : Bytes} (h : decode text = some bytes) :
    ∀ c ∈ text, c.toNat < 128 := by
  intro c hc
  by_cases hbreak : isLineBreak c
  · simp only [isLineBreak, Bool.or_eq_true, decide_eq_true_eq] at hbreak
    rcases hbreak with rfl | rfl <;> decide
  · exact ascii_of_decodeGroups h c (List.mem_filter.mpr ⟨hc, by simpa using hbreak⟩)

theorem length_lt_of_decode {text bytes : Bytes} (h : decode text = some bytes) (hne : text ≠ []) :
    bytes.length < text.length := by
  have hlength := length_of_decodeGroups h
  have hfilter := List.length_filter_le (fun c => !isLineBreak c) text
  have hpos := List.length_pos_iff.mpr hne
  omega

end HsmSecretsOperator.Foundation.Base64
