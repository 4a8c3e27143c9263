/- source: none
   digest: Command-line flags of the host language: numerals, arguments and settings. -/

import HsmSecretsOperator.Foundation.Decimal

/-! Parsing follows `flag.FlagSet`, and numbers `strconv.ParseInt` with base 0. -/

set_option autoImplicit false

namespace HsmSecretsOperator.Foundation.Flags

open Decimal

def digitValue (c : Char) : Option Nat :=
  if c.isDigit then some (c.toNat - 48)
  else if c.isLower then some (c.toNat - 87)
  else if c.isUpper then some (c.toNat - 55)
  else none

/-- The digits in a base, with underscores among them. -/
def accumulate (base : Nat) : Nat → List Char → Option Nat
  | n, [] => some n
  | n, c :: cs =>
    if c = '_' then accumulate base n cs
    else
      match digitValue c with
      | some d => if d < base then accumulate base (n * base + d) cs else none
      | none => none

/-- The base that a numeral shows by its beginning, and the digits. -/
def basePrefix : List Char → Nat × List Char
  | '0' :: x :: y :: cs =>
    if x.toLower = 'b' then (2, y :: cs)
    else if x.toLower = 'o' then (8, y :: cs)
    else if x.toLower = 'x' then (16, y :: cs)
    else (8, x :: y :: cs)
  | '0' :: cs => (8, cs)
  | cs => (10, cs)

/-- What was seen last when underscores are checked. -/
inductive Saw
  | start
  | digit
  | underscore
  | other
  deriving DecidableEq

def underscoresFrom (hex : Bool) : Saw → List Char → Bool
  | saw, [] => saw ≠ .underscore
  | saw, c :: cs =>
    if c.isDigit || hex && 'a' ≤ c.toLower && c.toLower ≤ 'f' then underscoresFrom hex .digit cs
    else if c = '_' then saw = .digit && underscoresFrom hex .underscore cs
    else saw ≠ .underscore && underscoresFrom hex .other cs

/-- Every underscore stands between digits; the prefix of a base counts as one. -/
def underscoreOK : List Char → Bool
  | '0' :: x :: cs =>
    if x.toLower ∈ ['b', 'o', 'x'] then underscoresFrom (x.toLower = 'x') .digit cs
    else underscoresFrom false .start ('0' :: x :: cs)
  | cs => underscoresFrom false .start cs

def parseUint (cs : List Char) : Option Nat :=
  if cs = [] then none
  else
    match accumulate (basePrefix cs).1 0 (basePrefix cs).2 with
    | none => none
    | some n => if '_' ∈ (basePrefix cs).2 ∧ underscoreOK cs = false then none else some n

/-- `strconv.ParseInt(s, 0, 64)`. -/
def parseInt (s : String) : Option Int :=
  let signed := scanSign s.toList
  match parseUint signed.2 with
  | none => none
  | some n => if InInt64 (signed.1 * n) then some (signed.1 * n) else none

/-- `strconv.ParseBool`. -/
def parseBool (s : String) : Option Bool :=
  if s ∈ ["1", "t", "T", "true", "TRUE", "True"] then some true
  else if s ∈ ["0", "f", "F", "false", "FALSE", "False"] then some false
  else none

inductive Kind
  | string
  | int
  | bool
  deriving DecidableEq

inductive Setting
  | string (v : String)
  | int (v : Int)
  | bool (v : Bool)
  deriving DecidableEq

def Kind.set : Kind → String → Option Setting
  | .string, s => some (.string s)
  | .int, s => (parseInt s).map .int
  | .bool, s => (parseBool s).map .bool

inductive Argument
  | operand
  | terminator
  | malformed
  | flag (name : String) (value : Option String)
  deriving DecidableEq

def flagOf : List Char → Argument
  | [] => .malformed
  | c :: cs =>
    if c = '-' ∨ c = '=' then .malformed
    else if '=' ∈ cs then
      .flag (String.ofList (c :: cs.takeWhile (· ≠ '=')))
        (some (String.ofList ((cs.dropWhile (· ≠ '=')).drop 1)))
    else .flag (String.ofList (c :: cs)) none

def classify (s : String) : Argument :=
  match s.toList with
  | ['-', '-'] => .terminator
  | '-' :: '-' :: name => flagOf name
  | '-' :: c :: name => flagOf (c :: name)
  | _ => .operand

inductive FlagError
  | badSyntax (arg : String)
  | help
  | undefined (name : String)
  | needsArgument (name : String)
  | invalidValue (value name : String)
  deriving DecidableEq

/-- Sets a flag, before what the other arguments set. -/
def setFlag (name : String) (kind : Kind) (value : String)
    (others : Except FlagError (List (String × Setting))) :
    Except FlagError (List (String × Setting)) :=
  match kind.set value with
  | none => .error (.invalidValue value name)
  | some setting =>
    match others with
    | .error err => .error err
    | .ok settings => .ok ((name, setting) :: settings)

/-- `FlagSet.Parse`: the settings in the order of the arguments. -/
def parse (formal : String → Option Kind) :
    List String → Except FlagError (List (String × Setting))
  | [] => .ok []
  | arg :: rest =>
    match classify arg with
    | .operand | .terminator => .ok []
    | .malformed => .error (.badSyntax arg)
    | .flag name value =>
      match formal name with
      | none => .error (if name = "help" ∨ name = "h" then .help else .undefined name)
      | some kind =>
        match value with
        | some value => setFlag name kind value (parse formal rest)
        | none =>
          if kind = .bool then setFlag name .bool "true" (parse formal rest)
          else
            match rest with
            | [] => .error (.needsArgument name)
            | value :: rest => setFlag name kind value (parse formal rest)

private theorem head?_toDigits {n : Nat} (h : 0 < n) : (Nat.toDigits 10 n).head? ≠ some '0' := by
  induction n using Nat.strongRecOn with
  | _ n ih =>
    rw [Nat.toDigits_eq_if (by decide)]
    split
    next hlt =>
      rw [List.head?_cons]
      intro heq
      have hzero : n.digitChar.toNat = 48 := by rw [Option.some.inj heq]; rfl
      rw [Nat.toNat_digitChar_of_lt_ten hlt] at hzero
      omega
    next hge =>
      rw [List.head?_append_of_ne_nil _ Nat.toDigits_ne_nil]
      exact ih (n / 10) (by omega) (by omega)

private theorem accumulate_digits {cs : List Char} (h : ∀ c ∈ cs, c.isDigit = true) (n : Nat) :
    accumulate 10 n cs = some (Nat.ofDigitChars 10 cs n) := by
  induction cs generalizing n with
  | nil => rfl
  | cons c cs ih =>
    have hc := h c List.mem_cons_self
    have hunderscore : c ≠ '_' := by
      rintro rfl
      revert hc
      decide
    have hlt : c.toNat - 48 < 10 := by
      simp only [Char.isDigit, Bool.and_eq_true, decide_eq_true_eq, UInt32.le_iff_toNat_le] at hc
      have hnine : c.toNat ≤ 57 := hc.2
      omega
    rw [accumulate, if_neg hunderscore, digitValue, if_pos hc]
    dsimp only
    rw [if_pos hlt, ih (fun d hd => h d (List.mem_cons_of_mem c hd)), Nat.ofDigitChars_cons,
      Nat.mul_comm]
    rfl

private theorem parseUint_toDigits (n : Nat) : parseUint (Nat.toDigits 10 n) = some n := by
  rcases Nat.eq_zero_or_pos n with rfl | hpos
  · decide
  have hdigits : ∀ c ∈ Nat.toDigits 10 n, c.isDigit = true := fun _ hc =>
    Nat.isDigit_of_mem_toDigits (by decide) (by decide) hc
  have hbase : basePrefix (Nat.toDigits 10 n) = (10, Nat.toDigits 10 n) := by
    have hhead := head?_toDigits hpos
    generalize Nat.toDigits 10 n = cs at hhead
    unfold basePrefix
    split
    · exact absurd rfl hhead
    · exact absurd rfl hhead
    · rfl
  rw [parseUint, if_neg Nat.toDigits_ne_nil, hbase]
  dsimp only
  rw [accumulate_digits hdigits, Nat.ofDigitChars_ten_toDigits]
  dsimp only
  rw [if_neg fun h => Nat.underscore_not_in_toDigits h.1]

theorem parseInt_sprintfD {v : Int} (h0 : 0 ≤ v) (h : InInt64 v) :
    parseInt (sprintfD v) = some v := by
  obtain ⟨n, rfl⟩ := Int.eq_ofNat_of_zero_le h0
  have htext : (sprintfD (n : Int)).toList = Nat.toDigits 10 n := Nat.toList_repr
  have hsign : scanSign (Nat.toDigits 10 n) = (1, Nat.toDigits 10 n) :=
    scanSign_digits fun _ hc => Nat.isDigit_of_mem_toDigits (by decide) (by decide) hc
  rw [parseInt, htext, hsign]
  dsimp only
  rw [parseUint_toDigits]
  dsimp only
  rw [Int.one_mul, if_pos h]

/-- A name that a flag can have. -/
structure FlagName (name : String) : Prop where
  ne_nil : name.toList ≠ []
  head : name.toList.head? ≠ some '-' ∧ name.toList.head? ≠ some '='
  plain : '=' ∉ name.toList

theorem classify_equals {name : String} (h : FlagName name) (value : String) :
    classify ("--" ++ name ++ "=" ++ value) = .flag name (some value) := by
  obtain ⟨c, cs, hname⟩ := List.exists_cons_of_ne_nil h.ne_nil
  have hhead := h.head
  have hplain := h.plain
  rw [hname] at hhead hplain
  have hc : ¬ (c = '-' ∨ c = '=') := by
    rintro (rfl | rfl)
    · exact hhead.1 rfl
    · exact hhead.2 rfl
  have hcs : ∀ d ∈ cs, decide (d ≠ '=') = true := fun d hd =>
    decide_eq_true fun heq => hplain (heq ▸ List.mem_cons_of_mem c hd)
  have htext : ("--" ++ name ++ "=" ++ value).toList =
      '-' :: '-' :: c :: (cs ++ '=' :: value.toList) := by
    simp [String.toList_append, hname]
  have hflag : classify ("--" ++ name ++ "=" ++ value) =
      flagOf (c :: (cs ++ '=' :: value.toList)) := by
    rw [classify, htext]
    rfl
  rw [hflag, flagOf, if_neg hc, if_pos (List.mem_append_right _ List.mem_cons_self),
    List.takeWhile_append_of_pos hcs, List.dropWhile_append_of_pos hcs]
  simp [← hname]

theorem parse_equals {formal : String → Option Kind} {name value : String} {kind : Kind}
    {setting : Setting} {rest : List String} {settings : List (String × Setting)}
    (hname : FlagName name) (hformal : formal name = some kind)
    (hset : kind.set value = some setting) (hrest : parse formal rest = .ok settings) :
    parse formal (("--" ++ name ++ "=" ++ value) :: rest) = .ok ((name, setting) :: settings) := by
  rw [parse, classify_equals hname]
  simp only [hformal, setFlag, hset, hrest]

end HsmSecretsOperator.Foundation.Flags
