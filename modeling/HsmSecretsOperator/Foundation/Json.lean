/- source: none
   digest: JSON text: quoting of strings, rendering of objects, a parser, and the round trip. -/

import Mathlib.Data.List.Forall2
import Mathlib.Tactic.Common
import Mathlib.Tactic.IntervalCases
import HsmSecretsOperator.Foundation.Text

/-! Rendering and parsing follow `encoding/json`: bytes that are no UTF-8 and unpaired surrogates
    become U+FFFD, and nesting deeper than 10000 is refused. -/

set_option autoImplicit false

namespace HsmSecretsOperator.Foundation.Json

open Text

inductive Value where
  | null
  | bool (b : Bool)
  | num (text : String)
  | str (s : String)
  | arr (items : List Value)
  | obj (members : List (String × Value))

inductive Token where
  | lbrace
  | rbrace
  | lbracket
  | rbracket
  | colon
  | comma
  | word (value : Value)

def hexChar (n : Nat) : Char := if n < 10 then Char.ofNat (48 + n) else Char.ofNat (87 + n)

def unicodeEscape (n : Nat) : List Char :=
  ['\\', 'u', hexChar (n / 4096 % 16), hexChar (n / 256 % 16), hexChar (n / 16 % 16),
    hexChar (n % 16)]

/-- The characters that have an escape of their own, with the letter of the escape. -/
def shortEscapes : List (Char × Char) :=
  [('"', '"'), ('\\', '\\'), ('\x08', 'b'), ('\x0c', 'f'), ('\n', 'n'), ('\r', 'r'), ('\t', 't')]

def escapeChar (c : Char) : List Char :=
  match shortEscapes.find? (fun e => e.1 = c) with
  | some e => ['\\', e.2]
  | none =>
    if c.toNat < 32 ∨ c = '<' ∨ c = '>' ∨ c = '&' ∨ c = '\u2028' ∨ c = '\u2029' then
      unicodeEscape c.toNat
    else [c]

def quote (s : String) : List Char := '"' :: (s.toList.flatMap escapeChar ++ ['"'])

/-- The members of an object whose values are already rendered. -/
def renderMembers : List (String × List Char) → List Char
  | [] => []
  | [f] => quote f.1 ++ ':' :: f.2
  | f :: g :: fs => quote f.1 ++ ':' :: (f.2 ++ ',' :: renderMembers (g :: fs))

def renderObject (fields : List (String × List Char)) : List Char :=
  '{' :: (renderMembers fields ++ ['}'])

/-- A piece of a string literal: a character, or the number of a `\u` escape. -/
inductive Piece where
  | char (c : Char)
  | code (n : Nat)

def hexValue (c : Char) : Option Nat :=
  if '0' ≤ c ∧ c ≤ '9' then some (c.toNat - 48)
  else if 'a' ≤ c ∧ c ≤ 'f' then some (c.toNat - 87)
  else if 'A' ≤ c ∧ c ≤ 'F' then some (c.toNat - 55)
  else none

def hex4 (a b c d : Char) : Option Nat := do
  let w ← hexValue a
  let x ← hexValue b
  let y ← hexValue c
  let z ← hexValue d
  some (4096 * w + 256 * x + 16 * y + z)

/-- The character of a one-letter escape; the slash may be escaped though it is never printed so. -/
def unescape (e : Char) : Option Char :=
  if e = '/' then some '/' else (shortEscapes.find? (fun p => p.2 = e)).map Prod.fst

/-- The pieces of a string literal up to its closing quote, and what follows it. -/
def scanString : List Char → Option (List Piece × List Char)
  | [] => none
  | c :: cs =>
    if c = '"' then some ([], cs)
    else if c = '\\' then
      match cs with
      | [] => none
      | e :: cs =>
        if e = 'u' then
          match cs with
          | w :: x :: y :: z :: cs =>
            match hex4 w x y z with
            | none => none
            | some n => (scanString cs).map fun r => (.code n :: r.1, r.2)
          | _ => none
        else
          match unescape e with
          | none => none
          | some r => (scanString cs).map fun s => (.char r :: s.1, s.2)
    else if c.toNat < 32 then none
    else (scanString cs).map fun r => (.char c :: r.1, r.2)

def isHigh (n : Nat) : Bool := 0xd800 ≤ n && n < 0xdc00

def isLow (n : Nat) : Bool := 0xdc00 ≤ n && n < 0xe000

def replacementChar : Char := '\ufffd'

def joinCode (n : Nat) : Char := if isLow n then replacementChar else Char.ofNat n

/-- The characters of a string literal. The first argument is a high surrogate that waits for its
partner; a surrogate that finds none is replaced. -/
def joinPieces : Option Nat → List Piece → List Char
  | none, [] => []
  | some _, [] => [replacementChar]
  | none, .char c :: ps => c :: joinPieces none ps
  | some _, .char c :: ps => replacementChar :: c :: joinPieces none ps
  | none, .code n :: ps =>
    if isHigh n then joinPieces (some n) ps else joinCode n :: joinPieces none ps
  | some h, .code n :: ps =>
    if isLow n then
      Char.ofNat (0x10000 + (h - 0xd800) * 0x400 + (n - 0xdc00)) :: joinPieces none ps
    else if isHigh n then replacementChar :: joinPieces (some n) ps
    else replacementChar :: joinCode n :: joinPieces none ps

def scanDigits (cs : List Char) : Option (List Char × List Char) :=
  let digits := cs.takeWhile Char.isDigit
  if digits = [] then none else some (digits, cs.dropWhile Char.isDigit)

def scanInteger : List Char → Option (List Char × List Char)
  | '0' :: cs => some (['0'], cs)
  | cs => scanDigits cs

def scanFraction : List Char → Option (List Char × List Char)
  | '.' :: cs => (scanDigits cs).map fun r => ('.' :: r.1, r.2)
  | cs => some ([], cs)

def scanExponent : List Char → Option (List Char × List Char)
  | e :: cs =>
    if e = 'e' ∨ e = 'E' then
      match cs with
      | sign :: cs' =>
        if sign = '+' ∨ sign = '-' then (scanDigits cs').map fun r => (e :: sign :: r.1, r.2)
        else (scanDigits cs).map fun r => (e :: r.1, r.2)
      | [] => none
    else some ([], e :: cs)
  | [] => some ([], [])

def scanNumber (cs : List Char) : Option (String × List Char) := do
  let (sign, cs) := if cs.head? = some '-' then (['-'], cs.drop 1) else ([], cs)
  let (whole, cs) ← scanInteger cs
  let (fraction, cs) ← scanFraction cs
  let (exponent, cs) ← scanExponent cs
  some (String.ofList (sign ++ whole ++ fraction ++ exponent), cs)

def scanWord (text : String) (value : Value) (cs : List Char) : Option (Token × List Char) :=
  if text.toList.isPrefixOf cs then some (.word value, cs.drop text.toList.length) else none

def punctuation (c : Char) : Option Token :=
  if c = '{' then some .lbrace
  else if c = '}' then some .rbrace
  else if c = '[' then some .lbracket
  else if c = ']' then some .rbracket
  else if c = ':' then some .colon
  else if c = ',' then some .comma
  else none

def nextToken (c : Char) (cs : List Char) : Option (Token × List Char) :=
  match punctuation c with
  | some t => some (t, cs)
  | none =>
    if c = '"' then
      (scanString cs).map fun r => (.word (.str (String.ofList (joinPieces none r.1))), r.2)
    else if c = 't' then scanWord "true" (.bool true) (c :: cs)
    else if c = 'f' then scanWord "false" (.bool false) (c :: cs)
    else if c = 'n' then scanWord "null" .null (c :: cs)
    else (scanNumber (c :: cs)).map fun r => (.word (.num r.1), r.2)

def isBlank (c : Char) : Bool := c = ' ' || c = '\t' || c = '\n' || c = '\r'

/-- The tokens of a text, at most as many as the first argument. -/
def lex : Nat → List Char → Option (List Token)
  | 0, cs => if cs.dropWhile isBlank = [] then some [] else none
  | n + 1, cs =>
    match cs.dropWhile isBlank with
    | [] => some []
    | c :: cs =>
      match nextToken c cs with
      | none => none
      | some (t, rest) => (lex n rest).map (t :: ·)

def maxNestingDepth : Nat := 10000

mutual

/-- A value at the given depth; the first argument bounds the recursion. -/
def parseValue : Nat → Nat → List Token → Option (Value × List Token)
  | 0, _, _ => none
  | n + 1, depth, ts =>
    match ts with
    | .word v :: ts => some (v, ts)
    | .lbrace :: ts =>
      if depth < maxNestingDepth then
        match ts with
        | .rbrace :: ts => some (.obj [], ts)
        | _ => (parseMembers n (depth + 1) ts).map fun r => (.obj r.1, r.2)
      else none
    | .lbracket :: ts =>
      if depth < maxNestingDepth then
        match ts with
        | .rbracket :: ts => some (.arr [], ts)
        | _ => (parseElements n (depth + 1) ts).map fun r => (.arr r.1, r.2)
      else none
    | _ => none

def parseMembers : Nat → Nat → List Token → Option (List (String × Value) × List Token)
  | 0, _, _ => none
  | n + 1, depth, ts =>
    match ts with
    | .word (.str k) :: .colon :: ts =>
      match parseValue n depth ts with
      | some (v, .rbrace :: ts) => some ([(k, v)], ts)
      | some (v, .comma :: ts) => (parseMembers n depth ts).map fun r => ((k, v) :: r.1, r.2)
      | _ => none
    | _ => none

def parseElements : Nat → Nat → List Token → Option (List Value × List Token)
  | 0, _, _ => none
  | n + 1, depth, ts =>
    match parseValue n depth ts with
    | some (v, .rbracket :: ts) => some ([v], ts)
    | some (v, .comma :: ts) => (parseElements n depth ts).map fun r => (v :: r.1, r.2)
    | _ => none

end

/-- The first character of a byte string and its width; a byte that starts no character counts for
a replacement character of its own. -/
def decodeRune (b0 : UInt8) (bs : Bytes) : Char × Nat :=
  let tail (i : Nat) : Nat := (bs.getD i 0).toNat
  let cont (i : Nat) : Bool := 0x80 ≤ tail i && tail i < 0xc0
  let b := b0.toNat
  if b < 0x80 then (Char.ofNat b, 1)
  else if 0xc2 ≤ b ∧ b < 0xe0 ∧ cont 0 then (Char.ofNat ((b - 0xc0) * 64 + (tail 0 - 0x80)), 2)
  else if 0xe0 ≤ b ∧ b < 0xf0 ∧ cont 0 ∧ cont 1 ∧ (b = 0xe0 → 0xa0 ≤ tail 0) ∧
      (b = 0xed → tail 0 < 0xa0) then
    (Char.ofNat ((b - 0xe0) * 4096 + (tail 0 - 0x80) * 64 + (tail 1 - 0x80)), 3)
  else if 0xf0 ≤ b ∧ b < 0xf5 ∧ cont 0 ∧ cont 1 ∧ cont 2 ∧ (b = 0xf0 → 0x90 ≤ tail 0) ∧
      (b = 0xf4 → tail 0 < 0x90) then
    (Char.ofNat ((b - 0xf0) * 262144 + (tail 0 - 0x80) * 4096 + (tail 1 - 0x80) * 64 +
      (tail 2 - 0x80)), 4)
  else (replacementChar, 1)

def decodeLossy : Nat → Bytes → List Char
  | 0, _ => []
  | _, [] => []
  | n + 1, b :: bs =>
    let r := decodeRune b bs
    r.1 :: decodeLossy n (bs.drop (r.2 - 1))

def decodeUtf8 (bytes : Bytes) : List Char :=
  match String.fromUTF8? ⟨bytes.toArray⟩ with
  | some s => s.toList
  | none => decodeLossy bytes.length bytes

def parse (cs : List Char) : Option Value :=
  match lex cs.length cs with
  | none => none
  | some ts =>
    match parseValue (ts.length + 1) 0 ts with
    | some (v, []) => some v
    | _ => none

variable {cs : List Char} {h : Nat} {v : Value} {n : Nat} {c : Char}

private theorem hexValue_hexChar (h : n < 16) : hexValue (hexChar n) = some n := by
  interval_cases n <;> rfl

private theorem hex4_hexChar (h : n < 65536) :
    hex4 (hexChar (n / 4096 % 16)) (hexChar (n / 256 % 16)) (hexChar (n / 16 % 16))
      (hexChar (n % 16)) = some n := by
  simp only [hex4, hexValue_hexChar (Nat.mod_lt _ (show 16 > 0 by omega)), Option.bind_eq_bind,
    Option.bind_some, Option.some.injEq]
  omega

private theorem scanString_close (cs : List Char) : scanString ('"' :: cs) = some ([], cs) := by
  rw [scanString.eq_def]
  simp

private theorem scanString_plain (hquote : c ≠ '"') (hslash : c ≠ '\\')
    (hge : ¬ c.toNat < 32) (cs : List Char) :
    scanString (c :: cs) = (scanString cs).map fun r => (.char c :: r.1, r.2) := by
  rw [scanString.eq_def]
  simp [hquote, hslash, hge]

private theorem scanString_short {e c : Char} (hu : e ≠ 'u') (h : unescape e = some c)
    (cs : List Char) :
    scanString ('\\' :: e :: cs) = (scanString cs).map fun r => (.char c :: r.1, r.2) := by
  rw [scanString.eq_def]
  simp [hu, h]

private theorem scanString_unicode (h : n < 65536) (cs : List Char) :
    scanString (unicodeEscape n ++ cs) = (scanString cs).map fun r => (.code n :: r.1, r.2) := by
  rw [scanString.eq_def]
  simp [unicodeEscape, hex4_hexChar h]

/-- The piece stands for the character. -/
def Denotes (p : Piece) (c : Char) : Prop :=
  p = .char c ∨ p = .code c.toNat ∧ isHigh c.toNat = false ∧ isLow c.toNat = false

private theorem scanString_escapeChar (c : Char) (cs : List Char) : ∃ p, Denotes p c ∧
    scanString (escapeChar c ++ cs) = (scanString cs).map fun r => (p :: r.1, r.2) := by
  unfold escapeChar
  split
  next e he =>
    have hc : e.1 = c := by simpa using List.find?_some he
    have hmem := List.mem_of_find?_eq_some he
    simp only [shortEscapes, List.mem_cons, List.not_mem_nil, or_false] at hmem
    refine ⟨.char c, .inl rfl, ?_⟩
    rcases hmem with rfl | rfl | rfl | rfl | rfl | rfl | rfl <;> subst hc <;>
      exact scanString_short (by decide) (by decide) cs
  next hnone =>
    have hplain : c ≠ '"' ∧ c ≠ '\\' := by
      rw [List.find?_eq_none] at hnone
      constructor
      · rintro rfl
        exact hnone ('"', '"') (by simp [shortEscapes]) (by simp)
      · rintro rfl
        exact hnone ('\\', '\\') (by simp [shortEscapes]) (by simp)
    split
    next hunsafe =>
      have hlt : c.toNat < 0xd800 := by
        rcases hunsafe with h | rfl | rfl | rfl | rfl | rfl
        · omega
        all_goals decide
      refine ⟨.code c.toNat, .inr ⟨rfl, ?_, ?_⟩, ?_⟩
      · simp only [isHigh, Bool.and_eq_false_iff, decide_eq_false_iff_not]
        omega
      · simp only [isLow, Bool.and_eq_false_iff, decide_eq_false_iff_not]
        omega
      · exact scanString_unicode (by omega) cs
    next hsafe =>
      have hge : ¬ c.toNat < 32 := fun h => hsafe (.inl h)
      exact ⟨.char c, .inl rfl, scanString_plain hplain.1 hplain.2 hge cs⟩

private theorem scanString_quoted (s rest : List Char) : ∃ ps, List.Forall₂ Denotes ps s ∧
    scanString (s.flatMap escapeChar ++ '"' :: rest) = some (ps, rest) := by
  induction s with
  | nil => exact ⟨[], .nil, scanString_close rest⟩
  | cons c cs ih =>
    obtain ⟨ps, hps, hscan⟩ := ih
    obtain ⟨p, hp, hstep⟩ := scanString_escapeChar c (cs.flatMap escapeChar ++ '"' :: rest)
    refine ⟨p :: ps, .cons hp hps, ?_⟩
    rw [List.flatMap_cons, List.append_assoc, hstep, hscan, Option.map_some]

private theorem joinPieces_eq {ps : List Piece} {s : List Char} (h : List.Forall₂ Denotes ps s) :
    joinPieces none ps = s := by
  induction h with
  | nil => rfl
  | cons hp _ ih =>
    rcases hp with rfl | ⟨rfl, hhigh, hlow⟩
    · rw [joinPieces, ih]
    · simp [joinPieces, joinCode, hhigh, hlow, ih]

/-- The text is read as the tokens, whatever follows. -/
def Lexes (cs : List Char) (ts : List Token) : Prop :=
  ∀ n rest ts', lex n rest = some ts' → lex (n + ts.length) (cs ++ rest) = some (ts ++ ts')

private theorem Lexes.append {cs cs' : List Char} {ts ts' : List Token} (h : Lexes cs ts)
    (h' : Lexes cs' ts') : Lexes (cs ++ cs') (ts ++ ts') := by
  intro n rest us hus
  have hrest := h _ _ _ (h' _ _ _ hus)
  rw [List.append_assoc, List.append_assoc, List.length_append, Nat.add_comm ts.length,
    ← Nat.add_assoc]
  exact hrest

private theorem lexes_of_nextToken {t : Token} (hblank : isBlank c = false)
    (h : ∀ rest, nextToken c (cs ++ rest) = some (t, rest)) : Lexes (c :: cs) [t] := by
  intro n rest ts hts
  simp only [List.length_singleton, List.cons_append, List.nil_append, lex,
    List.dropWhile_cons, hblank, Bool.false_eq_true, if_false, h, hts, Option.map_some]

private theorem lexes_quote (s : String) : Lexes (quote s) [.word (.str s)] := by
  refine lexes_of_nextToken (by decide) ?_
  intro rest
  obtain ⟨ps, hps, hscan⟩ := scanString_quoted s.toList rest
  have hpunct : punctuation '"' = none := by decide
  simp only [nextToken, hpunct, if_true, List.append_assoc, List.singleton_append, hscan,
    Option.map_some, joinPieces_eq hps, String.ofList_toList]

private theorem lexes_punctuation {t : Token} (hblank : isBlank c = false)
    (h : punctuation c = some t) : Lexes [c] [t] :=
  lexes_of_nextToken hblank fun _ => by simp [nextToken, h]

/-- The tokens are parsed as the value, at any depth that leaves room for its height. -/
def Parses (height : Nat) (ts : List Token) (v : Value) : Prop :=
  ∀ n depth rest, ts.length ≤ n → depth + height ≤ maxNestingDepth →
    parseValue n depth (ts ++ rest) = some (v, rest)

/-- The text is a rendering of the value. -/
def Renders (height : Nat) (cs : List Char) (v : Value) : Prop :=
  ∃ ts, Lexes cs ts ∧ ts.length ≤ cs.length ∧ Parses height ts v

/-- The text is a rendering of the members of an object. -/
private def RendersMembers (height : Nat) (cs : List Char) (ms : List (String × Value)) : Prop :=
  ∃ ts, Lexes cs ts ∧ ts.length ≤ cs.length ∧ (∃ k ts', ts = .word (.str k) :: ts') ∧
    ∀ n depth rest, ts.length ≤ n → depth + height ≤ maxNestingDepth →
      parseMembers n depth (ts ++ .rbrace :: rest) = some (ms, rest)

theorem Renders.mono {h h' : Nat} (hr : Renders h cs v) (hle : h ≤ h') : Renders h' cs v := by
  obtain ⟨ts, hlex, hlen, hparse⟩ := hr
  exact ⟨ts, hlex, hlen, fun n depth rest hn hd => hparse n depth rest hn (by omega)⟩

theorem renders_quote (s : String) : Renders 0 (quote s) (.str s) := by
  refine ⟨[.word (.str s)], lexes_quote s, by simp [quote], ?_⟩
  intro n depth rest hn _
  obtain ⟨m, rfl⟩ := Nat.exists_eq_add_of_le' hn
  rfl

private theorem renders_member {k : String}
    (hv : Renders h cs v) : RendersMembers h (quote k ++ ':' :: cs) [(k, v)] := by
  obtain ⟨ts, hlex, hlen, hparse⟩ := hv
  refine ⟨.word (.str k) :: .colon :: ts, ?_, ?_, ⟨k, _, rfl⟩, ?_⟩
  · exact (lexes_quote k).append ((lexes_punctuation (by decide) rfl).append hlex)
  · simp only [quote, List.length_cons, List.length_append]
    omega
  · intro n depth rest hn hd
    obtain ⟨m, rfl⟩ : ∃ m, n = m + 1 := ⟨n - 1, by simp only [List.length_cons] at hn; omega⟩
    have hfuel : ts.length ≤ m := by
      simp only [List.length_cons] at hn
      omega
    have hvalue := hparse m depth (.rbrace :: rest) hfuel hd
    simp only [List.cons_append, parseMembers, hvalue]

private theorem renders_member_cons {k : String} {cs cs' : List Char}
    {ms : List (String × Value)} (hv : Renders h cs v) (hms : RendersMembers h cs' ms) :
    RendersMembers h (quote k ++ ':' :: (cs ++ ',' :: cs')) ((k, v) :: ms) := by
  obtain ⟨ts, hlex, hlen, hparse⟩ := hv
  obtain ⟨ts', hlex', hlen', _, hparse'⟩ := hms
  refine ⟨.word (.str k) :: .colon :: (ts ++ .comma :: ts'), ?_, ?_, ⟨k, _, rfl⟩, ?_⟩
  · exact (lexes_quote k).append ((lexes_punctuation (by decide) rfl).append
      (hlex.append ((lexes_punctuation (by decide) rfl).append hlex')))
  · simp only [quote, List.length_cons, List.length_append]
    omega
  · intro n depth rest hn hd
    simp only [List.length_cons, List.length_append] at hn
    obtain ⟨m, rfl⟩ : ∃ m, n = m + 1 := ⟨n - 1, by omega⟩
    have hvalue := hparse m depth (.comma :: (ts' ++ .rbrace :: rest)) (by omega) hd
    have hrest := hparse' m depth rest (by omega) hd
    simp only [List.cons_append, List.append_assoc, parseMembers, hvalue, hrest, Option.map_some]

private theorem renders_members {α : Type} (key : α → String) (text : α → List Char)
    (val : α → Value) (x : α) (xs : List α) (hx : Renders h (text x) (val x))
    (hxs : ∀ y ∈ xs, Renders h (text y) (val y)) :
    RendersMembers h (renderMembers ((x :: xs).map fun y => (key y, text y)))
      ((x :: xs).map fun y => (key y, val y)) := by
  induction xs generalizing x with
  | nil => exact renders_member hx
  | cons y ys ih =>
    exact renders_member_cons hx
      (ih y (hxs y List.mem_cons_self) fun z hz => hxs z (List.mem_cons_of_mem y hz))

theorem renders_object {α : Type} (key : α → String) (text : α → List Char)
    (val : α → Value) (xs : List α) (hxs : ∀ x ∈ xs, Renders h (text x) (val x)) :
    Renders (h + 1) (renderObject (xs.map fun x => (key x, text x)))
      (.obj (xs.map fun x => (key x, val x))) := by
  have hopen : Lexes ['{'] [.lbrace] := lexes_punctuation (by decide) rfl
  have hclose : Lexes ['}'] [.rbrace] := lexes_punctuation (by decide) rfl
  cases xs with
  | nil =>
    refine ⟨[.lbrace, .rbrace], hopen.append hclose, by simp [renderObject], ?_⟩
    intro n depth rest hn hd
    obtain ⟨m, rfl⟩ : ∃ m, n = m + 1 := ⟨n - 1, by simp only [List.length_cons] at hn; omega⟩
    have hroom : depth < maxNestingDepth := by omega
    simp [parseValue, hroom]
  | cons x xs =>
    obtain ⟨ts, hlex, hlen, ⟨k, ts', hhead⟩, hparse⟩ := renders_members key text val x xs
      (hxs x List.mem_cons_self) fun y hy => hxs y (List.mem_cons_of_mem x hy)
    refine ⟨.lbrace :: (ts ++ [.rbrace]), hopen.append (hlex.append hclose), ?_, ?_⟩
    · simp only [renderObject, List.length_cons, List.length_append]
      omega
    · intro n depth rest hn hd
      simp only [List.length_cons, List.length_append] at hn
      obtain ⟨m, rfl⟩ : ∃ m, n = m + 1 := ⟨n - 1, by omega⟩
      have hroom : depth < maxNestingDepth := by omega
      have hmembers := hparse m (depth + 1) rest (by omega) (by omega)
      -- The first token is a key, so the branch of the empty object is not taken.
      subst hhead
      simp only [List.cons_append, List.append_assoc, List.nil_append] at hmembers ⊢
      simp only [parseValue, hroom, if_true, hmembers, Option.map_some]

private theorem lex_succ {ts : List Token} (h : lex n cs = some ts) : lex (n + 1) cs = some ts := by
  induction n generalizing cs ts with
  | zero =>
    simp only [lex] at h ⊢
    split at h
    next hnil => simp only [hnil, h]
    next => exact absurd h (by simp)
  | succ n ih =>
    rw [lex] at h ⊢
    split at h
    next hnil => simp only [h]
    next c cs' hcons =>
      split at h
      next => exact absurd h (by simp)
      next t rest hnext =>
        obtain ⟨us, hus, rfl⟩ := Option.map_eq_some_iff.mp h
        simp only [ih hus, Option.map_some]

private theorem lex_le {n m : Nat} (hle : n ≤ m) {ts : List Token}
    (h : lex n cs = some ts) : lex m cs = some ts := by
  induction hle with
  | refl => exact h
  | step _ ih => exact lex_succ ih

theorem parse_of_renders (hr : Renders h cs v) (hh : h ≤ maxNestingDepth) : parse cs = some v := by
  obtain ⟨ts, hlex, hlen, hparse⟩ := hr
  have htokens : lex cs.length cs = some ts := by
    have hend := hlex 0 [] [] rfl
    simp only [List.append_nil] at hend
    exact lex_le (by omega) hend
  have hvalue := hparse (ts.length + 1) 0 [] (by omega) (by omega)
  rw [List.append_nil] at hvalue
  simp only [parse, htokens, hvalue]

theorem decodeUtf8_utf8 (s : String) : decodeUtf8 (utf8 s) = s.toList := by
  have hbytes : String.fromUTF8? ⟨(utf8 s).toArray⟩ = some s := by
    have hdata : (⟨(utf8 s).toArray⟩ : ByteArray) = s.toByteArray := by simp [utf8]
    rw [hdata, String.fromUTF8?]
    exact dif_pos s.isValidUTF8
  simp only [decodeUtf8, hbytes]

/-- The text that a byte string becomes on its way through a string literal. -/
def textOf (bytes : Bytes) : String := String.ofList (decodeUtf8 bytes)

@[simp] theorem textOf_utf8 (s : String) : textOf (utf8 s) = s := by
  rw [textOf, decodeUtf8_utf8, String.ofList_toList]

/-- Exactly the bytes of text get through unchanged. -/
theorem utf8_textOf_iff {bytes : Bytes} : utf8 (textOf bytes) = bytes ↔ ∃ s, bytes = utf8 s := by
  constructor
  · intro h
    exact ⟨textOf bytes, h.symm⟩
  · rintro ⟨s, rfl⟩
    rw [textOf_utf8]

private theorem length_decodeLossy_le (n : Nat) (bytes : Bytes) :
    (decodeLossy n bytes).length ≤ n := by
  induction n generalizing bytes with
  | zero => exact le_rfl
  | succ n ih =>
    cases bytes with
    | nil => exact Nat.zero_le _
    | cons b bs => exact Nat.succ_le_succ (ih _)

theorem length_textOf_le (bytes : Bytes) : (textOf bytes).toList.length ≤ bytes.length := by
  rw [textOf, String.toList_ofList]
  unfold decodeUtf8
  split
  next s hs =>
    have hbytes : utf8 s = bytes := by
      unfold String.fromUTF8? at hs
      split at hs
      · cases hs
        simp [utf8, String.fromUTF8]
      · cases hs
    rw [← hbytes]
    exact Text.length_le_length_utf8 s
  next => exact length_decodeLossy_le _ _

end HsmSecretsOperator.Foundation.Json
