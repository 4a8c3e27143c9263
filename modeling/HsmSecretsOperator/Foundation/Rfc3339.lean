/- source: none
   digest: RFC 3339 timestamps: civil dates, the text of an instant and the parser for it. -/

import Mathlib.Data.String.Basic
import Mathlib.Tactic.Common
import Mathlib.Tactic.IntervalCases

/-! `parseRFC3339` is the lenient `time.Parse(time.RFC3339, s)`: a one-digit hour, a fraction after
    a period or a comma, and zone offsets of up to 24:60 are accepted. -/

set_option autoImplicit false

namespace HsmSecretsOperator.Foundation.Rfc3339

/-- An instant from 1970 to the end of year 9999, in unix seconds. -/
structure Instant where
  unix : Nat
  bounded : unix < 253402300800
  deriving DecidableEq

/-- The instant of a unix time; later times count as the last instant. -/
def Instant.ofUnix (unix : Nat) : Instant := ⟨min unix 253402300799, by omega⟩

def isLeap (y : Nat) : Bool := y % 4 = 0 && (y % 100 ≠ 0 || y % 400 = 0)

def daysIn (month y : Nat) : Nat :=
  if month = 2 then (if isLeap y then 29 else 28)
  else if month = 4 ∨ month = 6 ∨ month = 9 ∨ month = 11 then 30
  else 31

structure Civil where
  year : Nat
  month : Nat
  day : Nat

/-- The year, counted from March so that a leap day ends its year, of a day counted from
0000-03-01: the 400-year era, the century in it, the four-year cycle in that and the year in the
cycle. -/
def marchYear (z : Nat) : Nat :=
  let doe := z % 146097
  let century := min (doe / 36524) 3
  let doc := doe - 36524 * century
  400 * (z / 146097) + 100 * century + 4 * (doc / 1461) + min (doc % 1461 / 365) 3

/-- Days from 0000-03-01 to the start of a year counted from March. -/
def marchDays (y : Nat) : Nat := 365 * y + y / 4 - y / 100 + y / 400

/-- The year from March contains a leap day. -/
def marchLeap (y : Nat) : Bool := isLeap (y + 1)

private theorem marchDays_parts {era century cycle yof : Nat} (hc : century ≤ 3)
    (hq : cycle ≤ 24) (hy : yof ≤ 3) :
    marchDays (400 * era + 100 * century + 4 * cycle + yof) =
      146097 * era + 36524 * century + 1461 * cycle + 365 * yof := by
  have h4 : (400 * era + 100 * century + 4 * cycle + yof) / 4 =
      100 * era + 25 * century + cycle := by omega
  have h100 : (400 * era + 100 * century + 4 * cycle + yof) / 100 = 4 * era + century := by omega
  have h400 : (400 * era + 100 * century + 4 * cycle + yof) / 400 = era := by omega
  simp only [marchDays, h4, h100, h400]
  omega

-- The last year of a cycle has a leap day unless the cycle ends one of the first three centuries.
private theorem marchLeap_parts {era century cycle : Nat} (hc : century ≤ 3) (hq : cycle ≤ 24)
    (h : cycle < 24 ∨ century = 3) :
    marchLeap (400 * era + 100 * century + 4 * cycle + 3) = true := by
  have h4 : (400 * era + 100 * century + 4 * cycle + 3 + 1) % 4 = 0 := by omega
  simp only [marchLeap, isLeap, h4, Bool.and_eq_true, Bool.or_eq_true, decide_eq_true_eq,
    true_and]
  rcases h with h | h
  · left
    omega
  · subst h
    by_cases hlast : cycle = 24
    · subst hlast
      right
      omega
    · left
      omega

theorem marchYear_spec (z : Nat) : marchDays (marchYear z) ≤ z ∧
    z - marchDays (marchYear z) ≤ 365 ∧
      (z - marchDays (marchYear z) = 365 → marchLeap (marchYear z) = true) := by
  simp only [marchYear]
  have hdoe : z % 146097 < 146097 := Nat.mod_lt _ (by decide)
  have hera := Nat.div_add_mod z 146097
  generalize z / 146097 = era at *
  generalize z % 146097 = doe at *
  generalize hcentury : min (doe / 36524) 3 = century
  generalize hdoc : doe - 36524 * century = doc
  have hdof : doc % 1461 < 1461 := Nat.mod_lt _ (by decide)
  have hcycle := Nat.div_add_mod doc 1461
  generalize doc / 1461 = cycle at *
  generalize doc % 1461 = dof at *
  generalize hyof : min (dof / 365) 3 = yof
  have hc : century ≤ 3 := hcentury ▸ Nat.min_le_right _ _
  have hy : yof ≤ 3 := hyof ▸ Nat.min_le_right _ _
  have hdocle : doc < 36524 ∨ century = 3 ∧ doc ≤ 36524 := by omega
  have hcover : doe = 36524 * century + doc := by omega
  have hq : cycle ≤ 24 := by clear hyof hera; omega
  have hdofle : dof < 365 * yof + 365 ∨ yof = 3 ∧ dof = 1460 := by omega
  have hyle : 365 * yof ≤ dof := by clear hcycle hera; omega
  clear hcentury hyof hdoc
  rw [marchDays_parts hc hq hy]
  refine ⟨by omega, by omega, ?_⟩
  intro hlast
  have hthird : yof = 3 := by omega
  subst hthird
  exact marchLeap_parts hc hq (by omega)

/-- The civil date of a day counted from 1970-01-01. -/
def civilOfDays (days : Nat) : Civil :=
  let y := marchYear (days + 719468)
  let doy := days + 719468 - marchDays y
  let mp := (5 * doy + 2) / 153
  { year := if mp < 10 then y else y + 1
    month := if mp < 10 then mp + 3 else mp - 9
    day := doy - (153 * mp + 2) / 5 + 1 }

def daysOfCivil (c : Civil) : Int :=
  let y : Int := if c.month ≤ 2 then (c.year : Int) - 1 else c.year
  let mp : Int := if c.month ≤ 2 then (c.month : Int) + 9 else (c.month : Int) - 3
  365 * y + y / 4 - y / 100 + y / 400 + (153 * mp + 2) / 5 + c.day - 1 - 719468

theorem daysOfCivil_civilOfDays (days : Nat) : daysOfCivil (civilOfDays days) = days := by
  obtain ⟨hle, hdoy, _⟩ := marchYear_spec (days + 719468)
  unfold civilOfDays
  generalize marchYear (days + 719468) = y at *
  dsimp only [daysOfCivil]
  generalize hd : days + 719468 - marchDays y = doy at *
  generalize hmp : (5 * doy + 2) / 153 = mp
  have hcount : (days : Int) + 719468 = 365 * y + (y : Int) / 4 - (y : Int) / 100 +
      (y : Int) / 400 + doy := by
    simp only [marchDays] at hd hle
    omega
  by_cases hm : mp < 10
  · have hmonth : ¬ (mp + 3 ≤ 2) := by omega
    simp only [if_pos hm, if_neg hmonth]
    push_cast
    omega
  · have hmonth : mp - 9 ≤ 2 := by omega
    simp only [if_neg hm, if_pos hmonth]
    push_cast
    omega

theorem civilOfDays_valid (days : Nat) : 1 ≤ (civilOfDays days).month ∧
    (civilOfDays days).month ≤ 12 ∧ 1 ≤ (civilOfDays days).day ∧
      (civilOfDays days).day ≤ daysIn (civilOfDays days).month (civilOfDays days).year := by
  obtain ⟨_, hdoy, hleap⟩ := marchYear_spec (days + 719468)
  unfold civilOfDays
  generalize marchYear (days + 719468) = y at *
  dsimp only
  generalize days + 719468 - marchDays y = doy at *
  generalize hmp : (5 * doy + 2) / 153 = mp
  have hmp11 : mp ≤ 11 := by omega
  refine ⟨by split <;> omega, by split <;> omega, by omega, ?_⟩
  by_cases hfeb : mp = 11
  · subst hfeb
    have hleap' : doy = 365 → isLeap (y + 1) = true := hleap
    simp only [daysIn, show ¬ (11 < 10) by decide, if_false, show 11 - 9 = 2 by decide, if_true]
    split
    · omega
    · have hlast : doy ≠ 365 := fun h => by simp_all
      omega
  · have hmp10 : mp ≤ 10 := by omega
    interval_cases mp <;> simp only [daysIn] <;> simp <;> omega

private theorem year_civilOfDays_le {days : Nat} (h : days < 2932897) :
    (civilOfDays days).year ≤ 9999 := by
  obtain ⟨hle, _, _⟩ := marchYear_spec (days + 719468)
  simp only [civilOfDays]
  generalize marchYear (days + 719468) = y at *
  generalize hmp : (5 * (days + 719468 - marchDays y) + 2) / 153 = mp
  simp only [marchDays] at *
  by_cases hm : mp < 10
  · rw [if_pos hm]
    omega
  · rw [if_neg hm]
    omega

def digitChar (d : Nat) : Char := Char.ofNat (48 + d)

def pad2 (n : Nat) (cs : List Char) : List Char := digitChar (n / 10) :: digitChar (n % 10) :: cs

def formatDate (c : Civil) (cs : List Char) : List Char :=
  pad2 (c.year / 100) (pad2 (c.year % 100) ('-' :: pad2 c.month ('-' :: pad2 c.day cs)))

def formatClock (sec : Nat) (cs : List Char) : List Char :=
  pad2 (sec / 3600) (':' :: pad2 (sec % 3600 / 60) (':' :: pad2 (sec % 60) cs))

/-- `t.Format(time.RFC3339)` in UTC. -/
def formatRFC3339 (t : Instant) : String :=
  String.ofList <|
    formatDate (civilOfDays (t.unix / 86400)) ('T' :: formatClock (t.unix % 86400) ['Z'])

def digit? (c : Char) : Option Nat := if c.isDigit then some (c.toNat - 48) else none

/-- Two digits; with `fixed` false a single digit is enough. -/
def getnum (fixed : Bool) : List Char → Option (Nat × List Char)
  | [] => none
  | a :: cs =>
    match digit? a with
    | none => none
    | some x =>
      match cs with
      | [] => if fixed then none else some (x, [])
      | b :: cs' =>
        match digit? b with
        | none => if fixed then none else some (x, cs)
        | some y => some (10 * x + y, cs')

def literal (c : Char) : List Char → Option (List Char)
  | [] => none
  | a :: cs => if a = c then some cs else none

/-- A fraction of a second, which the layout does not ask for. -/
def skipFraction : List Char → List Char
  | a :: b :: cs =>
    if (a = '.' || a = ',') && b.isDigit then (b :: cs).dropWhile Char.isDigit else a :: b :: cs
  | cs => cs

/-- The zone, in seconds east of UTC. -/
def zoneOffset : List Char → Option (Int × List Char)
  | 'Z' :: cs => some (0, cs)
  | sign :: cs => do
    let (hr, cs) ← getnum true cs
    let cs ← literal ':' cs
    let (mm, cs) ← getnum true cs
    if hr > 24 ∨ mm > 60 then none
    else if sign = '+' then some (((hr * 60 + mm) * 60 : Nat), cs)
    else if sign = '-' then some (-((hr * 60 + mm) * 60 : Nat), cs)
    else none
  | [] => none

/-- A date; whether the day exists is checked once the whole text is read. -/
def parseDate (cs : List Char) : Option (Civil × List Char) := do
  let (hi, cs) ← getnum true cs
  let (lo, cs) ← getnum true cs
  let cs ← literal '-' cs
  let (month, cs) ← getnum true cs
  let cs ← literal '-' cs
  let (day, cs) ← getnum true cs
  if month < 1 ∨ 12 < month then none
  else some ({ year := 100 * hi + lo, month := month, day := day }, cs)

def parseClock (cs : List Char) : Option (Nat × List Char) := do
  let (hour, cs) ← getnum false cs
  let cs ← literal ':' cs
  let (min, cs) ← getnum true cs
  let cs ← literal ':' cs
  let (sec, cs) ← getnum true cs
  if 24 ≤ hour ∨ 60 ≤ min ∨ 60 ≤ sec then none
  else some (3600 * hour + 60 * min + sec, cs)

/-- Unix seconds of `time.Parse(time.RFC3339, s)`; `none` when the parse reports an error. -/
def parseRFC3339 (s : String) : Option Int := do
  let (c, cs) ← parseDate s.toList
  let cs ← literal 'T' cs
  let (sec, cs) ← parseClock cs
  let (offset, cs) ← zoneOffset (skipFraction cs)
  if cs ≠ [] then none
  else if c.day < 1 ∨ daysIn c.month c.year < c.day then none
  else some (86400 * daysOfCivil c + sec - offset)

private theorem digit_digitChar {d : Nat} (h : d < 10) : digit? (digitChar d) = some d := by
  interval_cases d <;> rfl

private theorem getnum_pad2 (fixed : Bool) {n : Nat} (h : n < 100) (cs : List Char) :
    getnum fixed (pad2 n cs) = some (n, cs) := by
  simp only [pad2, getnum, digit_digitChar (show n / 10 < 10 by omega),
    digit_digitChar (show n % 10 < 10 by omega), Option.some.injEq, Prod.mk.injEq, and_true]
  omega

private theorem literal_cons (c : Char) (cs : List Char) : literal c (c :: cs) = some cs :=
  if_pos rfl

private theorem parseDate_formatDate {c : Civil} (hy : c.year ≤ 9999) (hm : 1 ≤ c.month)
    (hm' : c.month ≤ 12) (hd : c.day < 100) (cs : List Char) :
    parseDate (formatDate c cs) = some (c, cs) := by
  have hyear : 100 * (c.year / 100) + c.year % 100 = c.year := by omega
  simp only [parseDate, formatDate, getnum_pad2 _ (show c.year / 100 < 100 by omega),
    getnum_pad2 _ (show c.year % 100 < 100 by omega), getnum_pad2 _ (show c.month < 100 by omega),
    getnum_pad2 _ hd, literal_cons, Option.bind_eq_bind, Option.bind_some, hyear]
  exact if_neg (by omega)

private theorem parseClock_formatClock {sec : Nat} (h : sec < 86400) (cs : List Char) :
    parseClock (formatClock sec cs) = some (sec, cs) := by
  simp only [parseClock, formatClock, getnum_pad2 _ (show sec / 3600 < 100 by omega),
    getnum_pad2 _ (show sec % 3600 / 60 < 100 by omega),
    getnum_pad2 _ (show sec % 60 < 100 by omega), literal_cons, Option.bind_eq_bind,
    Option.bind_some]
  rw [if_neg (by omega)]
  congr 2
  omega

private theorem daysIn_le (month y : Nat) : daysIn month y ≤ 31 := by
  unfold daysIn
  repeat' split
  all_goals omega

private theorem parseRFC3339_of_stages {s : String} {c : Civil} {sec : Nat} {cs : List Char}
    (hdate : parseDate s.toList = some (c, 'T' :: cs)) (hclock : parseClock cs = some (sec, ['Z']))
    (hd : 1 ≤ c.day) (hd' : c.day ≤ daysIn c.month c.year) :
    parseRFC3339 s = some (86400 * daysOfCivil c + sec) := by
  have hzone : zoneOffset (skipFraction ['Z']) = some (0, []) := rfl
  simp only [parseRFC3339, hdate, literal_cons, hclock, hzone, Option.bind_eq_bind,
    Option.bind_some]
  rw [if_neg (by simp), if_neg (by omega), Int.sub_zero]

theorem parseRFC3339_formatRFC3339 (t : Instant) :
    parseRFC3339 (formatRFC3339 t) = some (t.unix : Int) := by
  have hdays : t.unix / 86400 < 2932897 := by
    have := t.bounded
    omega
  obtain ⟨hm1, hm12, hd1, hdle⟩ := civilOfDays_valid (t.unix / 86400)
  have hday := le_trans hdle (daysIn_le _ _)
  have hdate := parseDate_formatDate (year_civilOfDays_le hdays) hm1 hm12 (by omega)
    ('T' :: formatClock (t.unix % 86400) ['Z'])
  have hclock := parseClock_formatClock (Nat.mod_lt t.unix (show 86400 > 0 by omega)) ['Z']
  rw [parseRFC3339_of_stages (by rw [formatRFC3339, String.toList_ofList]; exact hdate) hclock
    hd1 hdle, daysOfCivil_civilOfDays, Option.some.injEq]
  omega

example : formatRFC3339 (.ofUnix 1735689600) = "2025-01-01T00:00:00Z" := by decide

end HsmSecretsOperator.Foundation.Rfc3339
