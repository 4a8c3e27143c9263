/- source: none
   digest: The characters of a byte string with their places, and changes of single characters. -/

import HsmSecretsOperator.Foundation.Json
import HsmSecretsOperator.Foundation.ObjectNames
import HsmSecretsOperator.Foundation.Utf8

/-! A byte that starts no character counts for a replacement character of its own. -/

set_option autoImplicit false

namespace HsmSecretsOperator.Foundation.Runes

open Json (decodeRune replacementChar)
open ObjectNames (map_trim trim)
open Text
open Utf8 (utf8EncodeChar_of_ascii utf8_eq_flatMap)

/-- A character of a byte string, with the place where it begins and its bytes. -/
structure Rune where
  index : Nat
  char : Char
  bytes : Bytes

/-- The characters from a place on; the number is that of the bytes to skip. -/
def runesFrom : Nat → Nat → Bytes → List Rune
  | _, _, [] => []
  | i, 0, b :: bs =>
    let (char, width) := decodeRune b bs
    ⟨i, char, (b :: bs).take width⟩ :: runesFrom (i + 1) (width - 1) bs
  | i, n + 1, _ :: bs => runesFrom (i + 1) n bs

def runes (s : Bytes) : List Rune := runesFrom 0 0 s

/-- The text that the characters make up. -/
def runesText (s : Bytes) : List Char := (runes s).map Rune.char

def mapRunes (f : Char → Char) (s : Bytes) : Bytes :=
  (runesText s).flatMap fun c => String.utf8EncodeChar (f c)

def trimFunc (p : Char → Bool) (s : Bytes) : Bytes :=
  (trim (fun r => p r.char) (runes s)).flatMap Rune.bytes

def charOf (b : UInt8) : Char := Char.ofNat b.toNat

variable {b : UInt8} {s : Bytes} {c : Char}

theorem decodeRune_of_ascii (h : b.toNat < 128) (bs : Bytes) : decodeRune b bs = (charOf b, 1) := by
  unfold decodeRune
  exact if_pos h

theorem toNat_ofNat_of_valid {n : Nat} (h : n.isValidChar) : (Char.ofNat n).toNat = n := by
  rw [Char.ofNat, dif_pos h]
  rfl

theorem toNat_charOf (b : UInt8) : (charOf b).toNat = b.toNat :=
  toNat_ofNat_of_valid (.inl (b.toNat_lt.trans (by decide)))

theorem le_decodeRune (h : 128 ≤ b.toNat) (bs : Bytes) : 128 ≤ (decodeRune b bs).1.toNat := by
  have hb := b.toNat_lt
  simp only [decodeRune, Bool.and_eq_true, decide_eq_true_eq]
  generalize (bs.getD 0 0).toNat = t₀
  generalize (bs.getD 1 0).toNat = t₁
  generalize (bs.getD 2 0).toNat = t₂
  rw [if_neg (not_lt.mpr h)]
  split
  · rw [toNat_ofNat_of_valid (.inl (by omega))]
    omega
  split
  · rw [toNat_ofNat_of_valid (by unfold Nat.isValidChar; omega)]
    omega
  split
  · rw [toNat_ofNat_of_valid (.inr (by omega))]
    omega
  · decide

theorem decodeRune_utf8EncodeChar (c : Char) (r : Bytes) : ∃ b bs,
    String.utf8EncodeChar c = b :: bs ∧ decodeRune b (bs ++ r) = (c, bs.length + 1) := by
  have hvalid : c.val.toNat < 0xd800 ∨ 0xdfff < c.val.toNat ∧ c.val.toNat < 0x110000 := c.valid
  have hc : Char.ofNat c.val.toNat = c := Char.ofNat_toNat c
  unfold String.utf8EncodeChar
  dsimp only
  generalize c.val.toNat = v at *
  subst hc
  -- one case for each width; the branches before that of the width fail
  split
  · refine ⟨_, _, rfl, ?_⟩
    simp only [decodeRune, UInt8.toNat_ofNat']
    rw [if_pos (by omega), Nat.mod_eq_of_lt (by omega)]
    rfl
  split
  · refine ⟨_, _, rfl, ?_⟩
    simp only [decodeRune, List.cons_append, List.getD_cons_zero, UInt8.toNat_ofNat',
      Bool.and_eq_true, decide_eq_true_eq]
    rw [if_neg (by omega), if_pos (by omega), Prod.mk.injEq]
    exact ⟨congrArg Char.ofNat (by omega), rfl⟩
  split
  · refine ⟨_, _, rfl, ?_⟩
    simp only [decodeRune, List.cons_append, List.getD_cons_zero, List.getD_cons_succ,
      UInt8.toNat_ofNat', Bool.and_eq_true, decide_eq_true_eq]
    rw [if_neg (by omega), if_neg (by omega), if_pos (by omega), Prod.mk.injEq]
    exact ⟨congrArg Char.ofNat (by omega), rfl⟩
  · refine ⟨_, _, rfl, ?_⟩
    simp only [decodeRune, List.cons_append, List.getD_cons_zero, List.getD_cons_succ,
      UInt8.toNat_ofNat', Bool.and_eq_true, decide_eq_true_eq]
    rw [if_neg (by omega), if_neg (by omega), if_neg (by omega), if_pos (by omega), Prod.mk.injEq]
    exact ⟨congrArg Char.ofNat (by omega), rfl⟩

private theorem runesFrom_skip (i : Nat) (bs r : Bytes) :
    runesFrom i bs.length (bs ++ r) = runesFrom (i + bs.length) 0 r := by
  induction bs generalizing i with
  | nil => rfl
  | cons b bs ih =>
    rw [List.length_cons, List.cons_append, runesFrom, ih]
    congr 1
    omega

private theorem runesFrom_of_ascii (h : ∀ b ∈ s, b.toNat < 128) (i : Nat) :
    runesFrom i 0 s = (s.zipIdx i).map fun e => ⟨e.2, charOf e.1, [e.1]⟩ := by
  induction s generalizing i with
  | nil => rfl
  | cons b bs ih =>
    obtain ⟨hb, hbs⟩ := List.forall_mem_cons.mp h
    simp only [runesFrom, decodeRune_of_ascii hb, List.zipIdx_cons, List.map_cons]
    rw [ih hbs]
    rfl

theorem runes_of_ascii (h : ∀ b ∈ s, b.toNat < 128) :
    runes s = s.zipIdx.map fun e => ⟨e.2, charOf e.1, [e.1]⟩ :=
  runesFrom_of_ascii h 0

theorem runesText_of_ascii (h : ∀ b ∈ s, b.toNat < 128) : runesText s = s.map charOf := by
  rw [runesText, runes_of_ascii h, List.map_map]
  conv_rhs => rw [← List.zipIdx_map_fst 0 s, List.map_map]
  rfl

private theorem ascii_of_runesFrom {i : Nat} (h : ∀ r ∈ runesFrom i 0 s, r.char.toNat < 128) :
    ∀ b ∈ s, b.toNat < 128 := by
  induction s generalizing i with
  | nil => exact fun b hb => absurd hb List.not_mem_nil
  | cons b bs ih =>
    simp only [runesFrom, List.forall_mem_cons] at h
    have hb : b.toNat < 128 := not_le.mp fun hle => absurd h.1 (not_lt.mpr (le_decodeRune hle bs))
    rw [decodeRune_of_ascii hb] at h
    exact List.forall_mem_cons.mpr ⟨hb, ih h.2⟩

theorem ascii_of_runes (h : ∀ r ∈ runes s, r.char.toNat < 128) : ∀ b ∈ s, b.toNat < 128 :=
  ascii_of_runesFrom h

theorem runesText_utf8 (s : String) : runesText (utf8 s) = s.toList := by
  have hfrom (cs : List Char) (i : Nat) :
      (runesFrom i 0 (cs.flatMap String.utf8EncodeChar)).map Rune.char = cs := by
    induction cs generalizing i with
    | nil => rfl
    | cons c cs ih =>
      obtain ⟨b, bs, hc, hdecode⟩ :=
        decodeRune_utf8EncodeChar c (cs.flatMap String.utf8EncodeChar)
      rw [List.flatMap_cons, hc, List.cons_append, runesFrom, hdecode]
      simp only [List.map_cons, Nat.add_sub_cancel, runesFrom_skip, ih]
  rw [utf8_eq_flatMap]
  exact hfrom s.toList 0

theorem length_utf8_of_ascii {s : String} (h : ∀ b ∈ utf8 s, b.toNat < 128) :
    (utf8 s).length = s.toList.length := by
  rw [← runesText_utf8, runesText_of_ascii h, List.length_map]

theorem forall_charOf_iff {P : Char → Bool} (hP : ∀ c, P c = true → c.toNat < 128) :
    (∀ b ∈ s, P (charOf b) = true) ↔ ∀ c ∈ runesText s, P c = true := by
  constructor
  · intro h
    rw [runesText_of_ascii fun b hb => toNat_charOf b ▸ hP _ (h b hb)]
    exact List.forall_mem_map.mpr h
  · intro h
    have hascii := ascii_of_runes fun r hr => hP r.char (h r.char (List.mem_map_of_mem hr))
    rw [runesText_of_ascii hascii] at h
    exact List.forall_mem_map.mp h

theorem trimFunc_of_ascii (h : ∀ b ∈ s, b.toNat < 128) (p : Char → Bool) :
    trimFunc p s = trim (fun b => p (charOf b)) s := by
  have hbytes (l : List (UInt8 × Nat)) :
      (l.map fun e => (⟨e.2, charOf e.1, [e.1]⟩ : Rune)).flatMap Rune.bytes = l.map Prod.fst := by
    rw [List.flatMap_map]
    exact List.flatMap_pure_eq_map Prod.fst l
  rw [trimFunc, runes_of_ascii h, ← map_trim, hbytes]
  conv_rhs => rw [← List.zipIdx_map_fst 0 s, ← map_trim]

theorem utf8_map_charOf (h : ∀ b ∈ s, b.toNat < 128) : utf8 (String.ofList (s.map charOf)) = s := by
  have hbyte : ∀ b ∈ s, String.utf8EncodeChar (charOf b) = [b] := by
    intro b hb
    rw [utf8EncodeChar_of_ascii (toNat_charOf b ▸ h b hb), toNat_charOf, UInt8.ofNat_toNat]
  rw [utf8_ofList, List.flatMap_map, List.flatMap_congr hbyte]
  exact List.flatMap_singleton' s

theorem mapRunes_of_ascii {f : Char → Char} (hf : ∀ c, (f c).toNat < 128) (s : Bytes) :
    (∀ b ∈ mapRunes f s, b.toNat < 128) ∧ (mapRunes f s).map charOf = (runesText s).map f := by
  have hmap : mapRunes f s = (runesText s).map fun c => UInt8.ofNat (f c).toNat := by
    rw [mapRunes, ← List.flatMap_pure_eq_map]
    exact List.flatMap_congr fun c _ => utf8EncodeChar_of_ascii (hf c)
  have hbyte (c : Char) : (UInt8.ofNat (f c).toNat).toNat = (f c).toNat := by
    rw [UInt8.toNat_ofNat']
    exact Nat.mod_eq_of_lt ((hf c).trans (by decide))
  rw [hmap, List.map_map, List.forall_mem_map]
  refine ⟨fun c _ => (hbyte c).trans_lt (hf c), List.map_congr_left fun c _ => ?_⟩
  rw [Function.comp_apply, charOf, hbyte, Char.ofNat_toNat]

end HsmSecretsOperator.Foundation.Runes
