/- source: internal/hsm/client.go, internal/mirror/manager.go
   digest: The two checksum functions on maps of bytes, for every order in which a map is read. -/

import HsmSecretsOperator.Mirror.Plan

/-! Keys are bytes here; elsewhere they are texts. -/

set_option autoImplicit false

namespace HsmSecretsOperator.Mirror.Checksums

open Foundation.ExchangeSort Foundation.Text
open Plan (sortStrings)

/-- Secret data with the keys as bytes. -/
abbrev ByteData := Std.ExtTreeMap Bytes Bytes

/-- `hsm.CalculateChecksum` of a map that yields its keys in the given order. -/
def calculateChecksum (data : ByteData) (order : List Bytes) : String :=
  Hsm.Secret.checksumOfKeys id (fun key => data.getD key []) order

/-- `calculateChecksum` of the mirror manager, of a map that may be nil. -/
def MirrorManager.calculateChecksum (data : Option ByteData) (order : List Bytes) : String :=
  match data with
  | none => ""
  | some data => Plan.checksumOfKeys id (fun key => data.getD key []) order

section Sorting

variable {keys keys' : List Bytes}

private theorem sortStrings_sorted (keys : List Bytes) : (sortStrings keys).Pairwise (· ≤ ·) :=
  List.pairwise_insertionSort _ keys

theorem exchangeLoops_eq_sortStrings (h : keys.Perm keys') :
    exchangeLoops keys = sortStrings keys' := by
  rw [exchangeLoops_eq]
  exact exchangeSort_eq_of_perm (h.trans (List.perm_insertionSort _ keys').symm)
    (sortStrings_sorted keys')

theorem exchangeLoops_perm (keys : List Bytes) : (exchangeLoops keys).Perm keys := by
  rw [exchangeLoops_eq]
  exact exchangeSort_perm _ keys

theorem exchangeLoops_increasing (h : keys.Nodup) : (exchangeLoops keys).Pairwise (· < ·) := by
  have hsorted : (exchangeLoops keys).Pairwise (· ≤ ·) := by
    rw [exchangeLoops_eq]
    exact exchangeSort_sorted _ _ le_rfl
  have hnodup : (exchangeLoops keys).Nodup := (exchangeLoops_perm keys).nodup_iff.mpr h
  exact (hsorted.and hnodup).imp fun hab => Std.lt_of_le_of_ne hab.1 hab.2

end Sorting

/-- For every map, and whatever orders the two functions read it in, the client's checksum is that
of the mirror with `sha256:` in front; its loops put distinct keys in increasing order. -/
theorem checksums_agree (data : ByteData) (order order' : List Bytes) (h : order.Perm data.keys)
    (h' : order'.Perm data.keys) :
    calculateChecksum data order =
        "sha256:" ++ MirrorManager.calculateChecksum (some data) order' ∧
      ∀ keys : List Bytes, keys.Nodup →
        (exchangeLoops keys).Perm keys ∧ (exchangeLoops keys).Pairwise (· < ·) := by
  refine ⟨?_, fun keys hkeys => ⟨exchangeLoops_perm keys, exchangeLoops_increasing hkeys⟩⟩
  rw [calculateChecksum, MirrorManager.calculateChecksum, Hsm.Secret.checksumOfKeys,
    Plan.checksumOfKeys, exchangeLoops_eq_sortStrings (h.trans h'.symm)]

/-- Three keys, read in two orders; the last key is no text. -/
theorem checksums_agree_three :
    let data : ByteData :=
      (((∅ : ByteData).insert [0x61] [1]).insert [0x61, 0x62] []).insert [0xff] [2, 3]
    calculateChecksum data [[0xff], [0x61], [0x61, 0x62]] =
      "sha256:" ++ MirrorManager.calculateChecksum (some data) [[0x61, 0x62], [0xff], [0x61]] := by
  intro data
  exact (checksums_agree data _ _ (by decide) (by decide)).1

end HsmSecretsOperator.Mirror.Checksums
