/- source: internal/hsm/pkcs11_client.go
   digest: A device as one copy for each path. -/

import HsmSecretsOperator.Foundation.Maps
import HsmSecretsOperator.Foundation.Text
import HsmSecretsOperator.Hsm.Secret

/-! A copy without data cannot be read, as a token stores no object for it that a read accepts. -/

set_option autoImplicit false

namespace HsmSecretsOperator.Hsm.Vault

open Foundation.Maps Foundation.Text Secret

structure Copy where
  data : SecretData
  metadata : Option SecretMetadata
  deriving DecidableEq

abbrev Store := Std.ExtTreeMap String Copy

def readSecret (v : Store) (path : String) : Except String SecretData :=
  match v[path]? with
  | some c =>
    if c.data.isEmpty then .error s!"secret not found at path: {path}" else .ok c.data
  | none => .error s!"secret not found at path: {path}"

def readMetadata (v : Store) (path : String) : Except String SecretMetadata :=
  match v[path]?.bind Copy.metadata with
  | some m => .ok m
  | none => .error s!"metadata not found for path: {path}"

def writeSecret (v : Store) (path : String) (data : SecretData)
    (metadata : Option SecretMetadata) : Store :=
  v.insert path { data, metadata }

def deleteSecret (v : Store) (path : String) : Store := v.erase path

def listSecrets (v : Store) (under : String) : List String :=
  (v.toList.filter fun e => !e.2.data.isEmpty && (under = "" || hasPrefix e.1 under)).map Prod.fst

def client : Client Store where
  readSecret := readSecret
  readMetadata := readMetadata
  writeSecret := writeSecret
  deleteSecret := deleteSecret
  listSecrets := listSecrets

@[simp] theorem getElem?_writeSecret_self (v : Store) (path : String) (data : SecretData)
    (metadata : Option SecretMetadata) :
    (writeSecret v path data metadata)[path]? = some { data, metadata } :=
  Std.ExtTreeMap.getElem?_insert_self

theorem getElem?_writeSecret_of_ne (v : Store) {path other : String} (h : path ≠ other)
    (data : SecretData) (metadata : Option SecretMetadata) :
    (writeSecret v path data metadata)[other]? = v[other]? :=
  getElem?_insert_of_ne v h _

variable {v : Store} {data : SecretData}

theorem readSecret_eq_ok {path : String} : readSecret v path = .ok data ↔
      data ≠ ∅ ∧ ∃ metadata, v[path]? = some { data, metadata } := by
  unfold readSecret
  cases v[path]? with
  | none => simp
  | some c =>
    obtain ⟨d, m⟩ := c
    by_cases hd : d = ∅
    · subst hd
      simp only [Std.ExtTreeMap.isEmpty_empty, if_true, Option.some.injEq, Copy.mk.injEq]
      constructor
      · intro h
        cases h
      · rintro ⟨hne, _, rfl, _⟩
        exact absurd rfl hne
    · have hempty : d.isEmpty = false := by
        rw [Bool.eq_false_iff]
        exact fun h => hd (Std.ExtTreeMap.isEmpty_iff.mp h)
      simp only [hempty, Bool.false_eq_true, if_false, Except.ok.injEq, Option.some.injEq,
        Copy.mk.injEq]
      constructor
      · rintro rfl
        exact ⟨hd, m, rfl, rfl⟩
      · rintro ⟨_, _, h, _⟩
        exact h

end HsmSecretsOperator.Hsm.Vault
