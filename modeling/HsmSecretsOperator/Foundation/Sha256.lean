/- source: none
   digest: The SHA-256 digest of a byte string and its hexadecimal text. -/

import Mathlib.Data.Nat.Notation
import HsmSecretsOperator.Foundation.Text

/-! Nothing is proved about the digest: it is here so that checksums can be evaluated. -/

set_option autoImplicit false

namespace HsmSecretsOperator.Foundation.Sha256

open Text

def rotr (x : UInt32) (n : UInt32) : UInt32 := (x >>> n) ||| (x <<< (32 - n))

def roundConstants : List UInt32 :=
  [0x428a2f98, 0x71374491, 0xb5c0fbcf, 0xe9b5dba5, 0x3956c25b, 0x59f111f1, 0x923f82a4, 0xab1c5ed5,
   0xd807aa98, 0x12835b01, 0x243185be, 0x550c7dc3, 0x72be5d74, 0x80deb1fe, 0x9bdc06a7, 0xc19bf174,
   0xe49b69c1, 0xefbe4786, 0x0fc19dc6, 0x240ca1cc, 0x2de92c6f, 0x4a7484aa, 0x5cb0a9dc, 0x76f988da,
   0x983e5152, 0xa831c66d, 0xb00327c8, 0xbf597fc7, 0xc6e00bf3, 0xd5a79147, 0x06ca6351, 0x14292967,
   0x27b70a85, 0x2e1b2138, 0x4d2c6dfc, 0x53380d13, 0x650a7354, 0x766a0abb, 0x81c2c92e, 0x92722c85,
   0xa2bfe8a1, 0xa81a664b, 0xc24b8b70, 0xc76c51a3, 0xd192e819, 0xd6990624, 0xf40e3585, 0x106aa070,
   0x19a4c116, 0x1e376c08, 0x2748774c, 0x34b0bcb5, 0x391c0cb3, 0x4ed8aa4a, 0x5b9cca4f, 0x682e6ff3,
   0x748f82ee, 0x78a5636f, 0x84c87814, 0x8cc70208, 0x90befffa, 0xa4506ceb, 0xbef9a3f7, 0xc67178f2]

/-- The chaining value of the compression function. -/
structure Chain where
  a : UInt32
  b : UInt32
  c : UInt32
  d : UInt32
  e : UInt32
  f : UInt32
  g : UInt32
  h : UInt32

def initial : Chain :=
  { a := 0x6a09e667, b := 0xbb67ae85, c := 0x3c6ef372, d := 0xa54ff53a,
    e := 0x510e527f, f := 0x9b05688c, g := 0x1f83d9ab, h := 0x5be0cd19 }

/-- One round, with its constant and its word of the message schedule. -/
def round (s : Chain) (k w : UInt32) : Chain :=
  let s1 := rotr s.e 6 ^^^ rotr s.e 11 ^^^ rotr s.e 25
  let ch := (s.e &&& s.f) ^^^ (~~~s.e &&& s.g)
  let t1 := s.h + s1 + ch + k + w
  let s0 := rotr s.a 2 ^^^ rotr s.a 13 ^^^ rotr s.a 22
  let maj := (s.a &&& s.b) ^^^ (s.a &&& s.c) ^^^ (s.b &&& s.c)
  { a := t1 + (s0 + maj), b := s.a, c := s.b, d := s.c,
    e := s.d + t1, f := s.e, g := s.f, h := s.g }

/-- The next word of the message schedule from the sixteen before it. -/
def nextWord (window : List UInt32) : UInt32 :=
  let w15 := window.getD 1 0
  let w2 := window.getD 14 0
  let s0 := rotr w15 7 ^^^ rotr w15 18 ^^^ (w15 >>> 3)
  let s1 := rotr w2 17 ^^^ rotr w2 19 ^^^ (w2 >>> 10)
  window.getD 0 0 + s0 + window.getD 9 0 + s1

/-- The rounds over the given constants; the window always holds the next sixteen words. -/
def rounds : List UInt32 → List UInt32 → Chain → Chain
  | [], _, s => s
  | k :: ks, window, s =>
    rounds ks (window.drop 1 ++ [nextWord window]) (round s k (window.getD 0 0))

def compress (s : Chain) (block : List UInt32) : Chain :=
  let t := rounds roundConstants block s
  { a := s.a + t.a, b := s.b + t.b, c := s.c + t.c, d := s.d + t.d,
    e := s.e + t.e, f := s.f + t.f, g := s.g + t.g, h := s.h + t.h }

def bigEndian (n : Nat) : Nat → Bytes
  | 0 => []
  | k + 1 => UInt8.ofNat (n / 256 ^ k) :: bigEndian n k

/-- The message followed by a one bit, zeros and the length in bits. -/
def pad (message : Bytes) : Bytes :=
  let zeros := (119 - message.length % 64) % 64
  message ++ 0x80 :: (List.replicate zeros 0 ++ bigEndian (8 * message.length) 8)

def words : Bytes → List UInt32
  | b0 :: b1 :: b2 :: b3 :: rest =>
    UInt32.ofNat (((b0.toNat * 256 + b1.toNat) * 256 + b2.toNat) * 256 + b3.toNat) :: words rest
  | _ => []

/-- Compress the blocks of sixteen words; the first argument is the number of blocks. -/
def blocks : Nat → List UInt32 → Chain → Chain
  | 0, _, s => s
  | n + 1, ws, s => blocks n (ws.drop 16) (compress s (ws.take 16))

def digest (message : Bytes) : Bytes :=
  let ws := words (pad message)
  let s := blocks (ws.length / 16) ws initial
  [s.a, s.b, s.c, s.d, s.e, s.f, s.g, s.h].flatMap fun w => bigEndian w.toNat 4

def hexDigit (n : Nat) : Char :=
  if n < 10 then Char.ofNat (48 + n) else Char.ofNat (87 + n)

def sprintfX (bytes : Bytes) : String :=
  String.ofList (bytes.flatMap fun b => [hexDigit (b.toNat / 16), hexDigit (b.toNat % 16)])

example : sprintfX (digest (Text.utf8 "abc")) =
    "ba7816bf8f01cfea414140de5dae2223b00361a396177a9cb410ff61f20015ad" := by decide +kernel

private theorem hexDigit_inj : ∀ m < 16, ∀ n < 16, hexDigit m = hexDigit n → m = n := by decide

private theorem hexDigits_inj {b b' : UInt8}
    (h : [hexDigit (b.toNat / 16), hexDigit (b.toNat % 16)] =
      [hexDigit (b'.toNat / 16), hexDigit (b'.toNat % 16)]) : b = b' := by
  rw [List.cons.injEq, List.cons.injEq] at h
  have hb := b.toNat_lt
  have hb' := b'.toNat_lt
  have hhigh := hexDigit_inj _ (by omega) _ (by omega) h.1
  have hlow := hexDigit_inj _ (by omega) _ (by omega) h.2.1
  apply UInt8.toNat_inj.mp
  omega

theorem sprintfX_inj {bytes bytes' : Bytes} (h : sprintfX bytes = sprintfX bytes') :
    bytes = bytes' := by
  replace h := String.ofList_injective h
  induction bytes generalizing bytes' with
  | nil =>
    cases bytes' with
    | nil => rfl
    | cons b' bytes' => simp at h
  | cons b bytes ih =>
    cases bytes' with
    | nil => simp at h
    | cons b' bytes' =>
      rw [List.flatMap_cons, List.flatMap_cons] at h
      obtain ⟨hdigits, hrest⟩ := List.append_inj h rfl
      rw [hexDigits_inj hdigits, ih hrest]

end HsmSecretsOperator.Foundation.Sha256
