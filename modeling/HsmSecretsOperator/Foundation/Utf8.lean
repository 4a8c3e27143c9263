/- source: none
   digest: UTF-8 as a code in which no word begins another. -/

import HsmSecretsOperator.Foundation.Text

set_option autoImplicit false

namespace HsmSecretsOperator.Foundation.Utf8

open Text

theorem utf8_eq_flatMap (s : String) : utf8 s = s.toList.flatMap String.utf8EncodeChar := by
  rw [← utf8_ofList, String.ofList_toList]

theorem utf8_append (s t : String) : utf8 (s ++ t) = utf8 s ++ utf8 t := by
  rw [utf8_eq_flatMap, utf8_eq_flatMap, utf8_eq_flatMap, String.toList_append, List.flatMap_append]

theorem utf8_eq_nil_iff {s : String} : utf8 s = [] ↔ s = "" := by
  constructor
  · exact fun h => utf8_inj (h.trans (by decide))
  · rintro rfl
    decide

theorem utf8EncodeChar_free {c d : Char} {r r' : Bytes}
    (h : String.utf8EncodeChar c ++ r = String.utf8EncodeChar d ++ r') : c = d := by
  have hdecode (x : Char) (t : Bytes) :
      ((String.utf8EncodeChar x ++ t).toByteArray).utf8DecodeChar? 0 = some x := by
    rw [List.toByteArray_append]
    exact ByteArray.utf8DecodeChar?_utf8EncodeChar_append
  have hd := hdecode d r'
  rw [← h, hdecode c r] at hd
  exact Option.some.inj hd

theorem utf8EncodeChar_of_ascii {c : Char} (h : c.toNat < 128) :
    String.utf8EncodeChar c = [UInt8.ofNat c.toNat] := by
  unfold String.utf8EncodeChar
  exact if_pos (Nat.le_of_lt_succ h)

end HsmSecretsOperator.Foundation.Utf8
