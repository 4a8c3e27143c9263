/- source: internal/security/validation.go
   digest: The checks on secret paths, secret data and metadata, with their error texts. -/

import HsmSecretsOperator.Hsm.Pkcs11

set_option autoImplicit false

namespace HsmSecretsOperator.Security.Validation

open Foundation.Text Hsm.Secret
open Hsm.Pkcs11 (Plain)

def maxSecretPathLength : Nat := 256

def maxSecretDataSize : Nat := 1024 * 1024

def maxMetadataFieldLength : Nat := 1024

def isPathChar (c : Char) : Bool :=
  ('a' ≤ c && c ≤ 'z') || ('A' ≤ c && c ≤ 'Z') || ('0' ≤ c && c ≤ '9') ||
    c = '/' || c = '_' || c = '-'

/-- `^[a-zA-Z0-9/_-]+$`. -/
def validPathPattern (s : String) : Bool := s ≠ "" && s.toList.all isPathChar

/-- Traversal, double, leading and trailing slashes, and the reserved suffix. -/
def forbiddenPatterns : List (String → Bool) :=
  [fun s => decide ("..".toList <:+: s.toList), fun s => decide ("//".toList <:+: s.toList),
   fun s => hasPrefix s "/", fun s => hasSuffix s "/", fun s => hasSuffix s "_metadata"]

def byteLength (s : String) : Nat := (utf8 s).length

def validateSecretPath (path : String) : Except String Unit :=
  if path = "" then .error "secret path cannot be empty"
  else if byteLength path > maxSecretPathLength then
    .error ("secret path too long: " ++ toString (byteLength path) ++ " > " ++
      toString maxSecretPathLength)
  else if !validPathPattern path then .error ("secret path contains invalid characters: " ++ path)
  else if forbiddenPatterns.any (fun pattern => pattern path) then
    .error ("secret path contains forbidden pattern: " ++ path)
  else .ok ()

/-- The loop over the entries of a data map, with the size seen so far. -/
def validateEntries : Nat → List (String × Bytes) → Except String Unit
  | _, [] => .ok ()
  | totalSize, (key, value) :: entries =>
    if key = "" then .error "secret data key cannot be empty"
    else if byteLength key > maxMetadataFieldLength then
      .error ("secret data key too long: " ++ toString (byteLength key) ++ " > " ++
        toString maxMetadataFieldLength)
    else if hasSuffix key "_metadata" then
      .error ("secret data key cannot end with '_metadata': " ++ key)
    else if !validPathPattern key then
      .error ("secret data key contains invalid characters: " ++ key)
    else if totalSize + value.length > maxSecretDataSize then
      .error ("secret data too large: " ++ toString (totalSize + value.length) ++ " > " ++
        toString maxSecretDataSize)
    else validateEntries (totalSize + value.length) entries

/-- `ValidateSecretData` of a non-nil map that yields its entries in the order of the keys. -/
def validateSecretData (data : SecretData) : Except String Unit :=
  if data.isEmpty then .error "secret data cannot be empty"
  else validateEntries 0 data.toList

/-- `ValidateSecretData` of a map that may be nil. -/
def validateNilableData : Option SecretData → Except String Unit
  | none => .error "secret data cannot be nil"
  | some data => validateSecretData data

/-- The loop over the labels of a request. -/
def validateLabels : List (String × String) → Except String Unit
  | [] => .ok ()
  | (key, value) :: entries =>
    if byteLength key > maxMetadataFieldLength then
      .error ("metadata key too long: " ++ toString (byteLength key) ++ " > " ++
        toString maxMetadataFieldLength)
    else if byteLength value > maxMetadataFieldLength then
      .error ("metadata value too long: " ++ toString (byteLength value) ++ " > " ++
        toString maxMetadataFieldLength)
    else if key.toList.any fun c => c = '\x00' || c = '\n' || c = '\r' then
      .error ("metadata key contains invalid characters: " ++ key)
    else if value.toList.any fun c => c = '\x00' then
      .error ("metadata value contains null bytes: " ++ value)
    else validateLabels entries

/-- `ValidateMetadata`; a nil map passes like an empty one. -/
def validateMetadata (secretMetadata : Labels) : Except String Unit :=
  validateLabels secretMetadata.toList

theorem plain_of_validateSecretPath {path : String} (h : validateSecretPath path = .ok ()) :
    Plain path := by
  simp only [validateSecretPath] at h
  repeat' split at h
  all_goals cases h
  next hne _ _ hforbidden =>
    refine ⟨hne, ?_⟩
    rw [Bool.not_eq_true, List.any_eq_false] at hforbidden
    simpa using hforbidden (fun s => hasSuffix s "_metadata") (by simp [forbiddenPatterns])

private theorem plain_of_validateEntries {n : Nat} {entries : List (String × Bytes)}
    (h : validateEntries n entries = .ok ()) : ∀ e ∈ entries, Plain e.1 := by
  induction entries generalizing n with
  | nil => simp
  | cons e entries ih =>
    obtain ⟨key, value⟩ := e
    simp only [validateEntries] at h
    repeat' split at h
    all_goals try cases h
    next hne _ hsuffix _ _ =>
      intro e he
      rcases List.mem_cons.mp he with rfl | he
      · exact ⟨hne, by simpa using hsuffix⟩
      · exact ih h e he

theorem plain_of_validateSecretData {data : SecretData} (h : validateSecretData data = .ok ()) :
    ∀ k ∈ data, Plain k := by
  intro k hk
  simp only [validateSecretData] at h
  split at h
  · cases h
  · have hentry := Std.ExtTreeMap.mem_toList_iff_getElem?_eq_some.mpr
      (Std.ExtTreeMap.getElem?_eq_some_getElem hk)
    exact plain_of_validateEntries h _ hentry

theorem ne_empty_of_validateSecretData {data : SecretData}
    (h : validateSecretData data = .ok ()) : data ≠ ∅ := by
  rintro rfl
  exact absurd h (by simp [validateSecretData])

end HsmSecretsOperator.Security.Validation
