/- source: kubectl-hsm/pkg/commands/common.go
   digest: The parser for env files: what it accepts, and that it reads quoted printing back. -/

import HsmSecretsOperator.Foundation.Lines
import HsmSecretsOperator.Kubectl.Client

set_option autoImplicit false

namespace HsmSecretsOperator.Kubectl.EnvFile

open Client (Any Data)
open Foundation.Lines Foundation.Maps Foundation.Text

def newline : UInt8 := 10

def carriageReturn : UInt8 := 13

def doubleQuote : UInt8 := 34

def hash : UInt8 := 35

def singleQuote : UInt8 := 39

def equals : UInt8 := 61

private theorem signs_not_mem : ∀ w ∈ spaces, equals ∉ w ∧ hash ∉ w ∧ doubleQuote ∉ w := by
  decide

theorem trimSpace_dropLastOf (s : Bytes) :
    trimSpace (dropLastOf carriageReturn s) = trimSpace s :=
  trim_dropLastOf wordSet_spaces (by decide) (by decide) s

/-- `strings.SplitN` at the first equals sign, if there is one. -/
def splitPair (line : Bytes) : Option (Bytes × Bytes) :=
  if equals ∈ line then
    some (line.takeWhile (· ≠ equals), (line.dropWhile (· ≠ equals)).drop 1)
  else none

def quotedBy (q : UInt8) (value : Bytes) : Bool := value.head? = some q && value.getLast? = some q

def unquote (value : Bytes) : Bytes :=
  if 2 ≤ value.length ∧ (quotedBy doubleQuote value || quotedBy singleQuote value) then
    (value.drop 1).dropLast
  else value

/-- What one line says. -/
inductive Reading
  | skipped
  | malformed
  | entry (key value : Bytes)
  deriving DecidableEq

def parseLine (line : Bytes) : Reading :=
  if line = [] ∨ line.head? = some hash then .skipped
  else
    match splitPair line with
    | none => .malformed
    | some (key, value) => .entry (trimSpace key) (unquote (trimSpace value))

/-- One round of the loop, with the trimmed line. -/
def readLine (filename : Bytes) (lineNum : Nat) (data : Data) (line : Bytes) :
    Except Bytes Data :=
  match parseLine line with
  | .skipped => .ok data
  | .malformed =>
    .error (utf8 "invalid format at line " ++ utf8 (toString lineNum) ++ utf8 " in " ++ filename ++
      utf8 ": expected KEY=VALUE, got: " ++ line)
  | .entry key value =>
    if key = [] then
      .error (utf8 "empty key at line " ++ utf8 (toString lineNum) ++ utf8 " in " ++ filename)
    else if key ∈ data then
      .error (utf8 "duplicate key '" ++ key ++ utf8 "' found at line " ++
        utf8 (toString lineNum) ++ utf8 " in " ++ filename)
    else .ok (data.insert key (.string value))

/-- The loop; the number is that of the last line read. -/
def readLines (filename : Bytes) : Nat → Data → List Bytes → Except Bytes Data
  | _, data, [] => .ok data
  | lineNum, data, text :: rest =>
    match readLine filename (lineNum + 1) data (trimSpace text) with
    | .error err => .error err
    | .ok data => readLines filename (lineNum + 1) data rest

def maxScanTokenSize : Nat := 64 * 1024

def readFromEnvContent (filename content : Bytes) : Except Bytes Data :=
  let (lines, tooLong) := scan newline carriageReturn maxScanTokenSize content
  match readLines filename 0 ∅ lines with
  | .error err => .error err
  | .ok data =>
    if tooLong then
      .error (utf8 "error reading env content from " ++ filename ++
        utf8 ": bufio.Scanner: token too long")
    else if data.isEmpty then
      .error (utf8 "no valid key-value pairs found in " ++ filename)
    else .ok data

def readings (content : Bytes) : List Reading :=
  (rawLines newline content).map fun line => parseLine (trimSpace line)

def Reading.pair? : Reading → Option (Bytes × Bytes)
  | .entry key value => some (key, value)
  | _ => none

def pairs (rs : List Reading) : List (Bytes × Bytes) := rs.filterMap Reading.pair?

/-- The readings can be added to the data one after the other. -/
structure Accepted (data : Data) (rs : List Reading) : Prop where
  formed : .malformed ∉ rs
  fresh : ∀ p ∈ pairs rs, p.1 ≠ [] ∧ p.1 ∉ data
  distinct : ((pairs rs).map Prod.fst).Nodup

/-- The entries that the readings put into the data. -/
def enter (data : Data) (rs : List Reading) : Data :=
  assign data Prod.fst (fun p => .string p.2) (pairs rs)

/-- A file in the format: its lines fit the scanner, and say at least one thing and no key twice. -/
structure EnvFormat (content : Bytes) : Prop where
  short : ∀ line ∈ rawLines newline content, line.length < maxScanTokenSize
  accepted : Accepted ∅ (readings content)
  nonempty : pairs (readings content) ≠ []

private theorem accepted_skipped {data : Data} {rs : List Reading} :
    Accepted data (.skipped :: rs) ↔ Accepted data rs := by
  constructor
  · rintro ⟨hformed, hfresh, hdistinct⟩
    exact ⟨fun h => hformed (List.mem_cons_of_mem _ h), hfresh, hdistinct⟩
  · rintro ⟨hformed, hfresh, hdistinct⟩
    refine ⟨fun h => ?_, hfresh, hdistinct⟩
    rcases List.mem_cons.mp h with h | h
    · cases h
    · exact hformed h

private theorem accepted_entry {data : Data} {key value : Bytes} {rs : List Reading} :
    Accepted data (.entry key value :: rs) ↔
      key ≠ [] ∧ key ∉ data ∧ Accepted (data.insert key (.string value)) rs := by
  have hpairs : pairs (.entry key value :: rs) = (key, value) :: pairs rs := rfl
  constructor
  · rintro ⟨hformed, hfresh, hdistinct⟩
    rw [hpairs] at hfresh hdistinct
    obtain ⟨⟨hkey, hnew⟩, hfresh⟩ := List.forall_mem_cons.mp hfresh
    obtain ⟨hnot, hdistinct⟩ := List.nodup_cons.mp hdistinct
    refine ⟨hkey, hnew, fun h => hformed (List.mem_cons_of_mem _ h), fun p hp => ?_, hdistinct⟩
    refine ⟨(hfresh p hp).1, fun hmem => ?_⟩
    rw [Std.ExtTreeMap.mem_insert, Std.LawfulEqCmp.compare_eq_iff_eq] at hmem
    rcases hmem with heq | hmem
    · exact hnot (List.mem_map.mpr ⟨p, hp, heq.symm⟩)
    · exact (hfresh p hp).2 hmem
  · rintro ⟨hkey, hnew, hformed, hfresh, hdistinct⟩
    refine ⟨fun h => ?_, ?_, ?_⟩
    · rcases List.mem_cons.mp h with h | h
      · cases h
      · exact hformed h
    · rw [hpairs]
      refine List.forall_mem_cons.mpr ⟨⟨hkey, hnew⟩, fun p hp => ⟨(hfresh p hp).1, fun hmem => ?_⟩⟩
      exact (hfresh p hp).2 (Std.ExtTreeMap.mem_insert.mpr (.inr hmem))
    · rw [hpairs]
      refine List.nodup_cons.mpr ⟨fun hmem => ?_, hdistinct⟩
      obtain ⟨p, hp, heq⟩ := List.mem_map.mp hmem
      refine (hfresh p hp).2 (Std.ExtTreeMap.mem_insert.mpr (.inl ?_))
      exact Std.LawfulEqCmp.compare_eq_iff_eq.mpr heq.symm

theorem readLines_eq_ok_iff {filename : Bytes} {lineNum : Nat} {data data' : Data}
    {texts : List Bytes} :
    readLines filename lineNum data texts = .ok data' ↔
      Accepted data (texts.map fun text => parseLine (trimSpace text)) ∧
        data' = enter data (texts.map fun text => parseLine (trimSpace text)) := by
  induction texts generalizing lineNum data with
  | nil =>
    have haccepted : Accepted data [] := ⟨by simp, by simp [pairs], by simp [pairs]⟩
    simp only [readLines, List.map_nil, haccepted, true_and, Except.ok.injEq]
    exact eq_comm
  | cons text texts ih =>
    rw [readLines, readLine, List.map_cons]
    cases parseLine (trimSpace text) with
    | skipped => exact ih.trans (and_congr_left fun _ => accepted_skipped.symm)
    | malformed =>
      refine ⟨fun h => (nomatch h), fun h => ?_⟩
      exact absurd List.mem_cons_self h.1.formed
    | entry key value =>
      dsimp only
      rw [accepted_entry]
      by_cases hkey : key = []
      · rw [if_pos hkey]
        exact ⟨fun h => (nomatch h), fun h => absurd hkey h.1.1⟩
      rw [if_neg hkey]
      by_cases hmem : key ∈ data
      · rw [if_pos hmem]
        exact ⟨fun h => (nomatch h), fun h => absurd hmem h.1.2.1⟩
      rw [if_neg hmem]
      refine ih.trans (and_congr_left fun _ => ?_)
      exact ⟨fun h => ⟨hkey, hmem, h⟩, fun h => h.2.2⟩

private theorem readLines_eq_ok_iff_of_short {filename content : Bytes} {data : Data}
    (h : ∀ line ∈ rawLines newline content, line.length < maxScanTokenSize) :
    readLines filename 0 ∅ (scan newline carriageReturn maxScanTokenSize content).1 = .ok data ↔
      Accepted ∅ (readings content) ∧ data = enter ∅ (readings content) := by
  have hreadings : ((rawLines newline content).map (dropLastOf carriageReturn)).map
      (fun text => parseLine (trimSpace text)) = readings content := by
    rw [List.map_map, readings]
    exact List.map_congr_left fun line _ => congrArg parseLine (trimSpace_dropLastOf line)
  rw [scan_of_short h, readLines_eq_ok_iff, hreadings]

private theorem enter_eq_empty_iff {rs : List Reading} :
    (enter ∅ rs).isEmpty = true ↔ pairs rs = [] := by
  rw [Std.ExtTreeMap.isEmpty_iff, enter, assign_eq_empty_iff]

/-- The parser accepts the files in the format, and returns what their lines say. -/
theorem readFromEnvContent_eq_ok_iff {filename content : Bytes} {data : Data} :
    readFromEnvContent filename content = .ok data ↔
      EnvFormat content ∧ data = enter ∅ (readings content) := by
  by_cases hshort : ∀ line ∈ rawLines newline content, line.length < maxScanTokenSize
  · have hlines := @readLines_eq_ok_iff_of_short filename content
    unfold readFromEnvContent
    rw [scan_of_short hshort] at hlines ⊢
    dsimp only at hlines ⊢
    cases hread : readLines filename 0 ∅
        ((rawLines newline content).map (dropLastOf carriageReturn)) with
    | error err =>
      refine ⟨fun h => (nomatch h), fun h => ?_⟩
      exact nomatch hread.symm.trans ((hlines hshort).mpr ⟨h.1.accepted, rfl⟩)
    | ok found =>
      obtain ⟨haccepted, rfl⟩ := (hlines hshort).mp hread
      dsimp only
      rw [if_neg Bool.false_ne_true]
      by_cases hnone : pairs (readings content) = []
      · rw [if_pos (enter_eq_empty_iff.mpr hnone)]
        exact ⟨fun h => (nomatch h), fun h => absurd hnone h.1.nonempty⟩
      · rw [if_neg fun h => hnone (enter_eq_empty_iff.mp h), Except.ok.injEq]
        exact ⟨fun h => ⟨⟨hshort, haccepted, hnone⟩, h.symm⟩, fun h => h.2.symm⟩
  · refine ⟨fun h => absurd ?_ hshort, fun h => absurd h.1.short hshort⟩
    unfold readFromEnvContent at h
    dsimp only at h
    split at h
    · cases h
    split at h
    · cases h
    next hfits => exact scan_snd_eq_false_iff.mp (Bool.eq_false_iff.mpr hfits)

/-- A pair that can be printed on one line. -/
structure Pair where
  key : Bytes
  value : Bytes
  key_ne_nil : key ≠ []
  trimmed : ∀ w ∈ spaces, ¬ w <+: key ∧ ¬ w <:+ key
  unseparated : equals ∉ key
  uncommented : key.head? ≠ some hash
  key_unbroken : newline ∉ key
  value_unbroken : newline ∉ value

def quoted (value : Bytes) : Bytes := doubleQuote :: (value ++ [doubleQuote])

/-- A line of a printed file: a pair, white space, or white space before a comment. -/
inductive Line
  | pair (p : Pair)
  | blank (space : List Char) (isSpace : ∀ c ∈ space, c ∈ whiteSpace ∧ c ≠ '\n')
  | comment (space : List Char) (isSpace : ∀ c ∈ space, c ∈ whiteSpace ∧ c ≠ '\n') (text : Bytes)
      (unbroken : newline ∉ text)

def Line.print : Line → Bytes
  | .pair p => p.key ++ equals :: quoted p.value
  | .blank space _ => space.flatMap String.utf8EncodeChar
  | .comment space _ text _ => space.flatMap String.utf8EncodeChar ++ hash :: text

def Line.pair? : Line → Option Pair
  | .pair p => some p
  | _ => none

def printedPairs (lines : List Line) : List Pair := lines.filterMap Line.pair?

/-- The content is the lines, with or without a line break after the last one. -/
def Prints (lines : List Line) (content : Bytes) : Prop :=
  content = (lines.map Line.print).flatMap (fun line => line ++ [newline]) ∨
    content = [newline].intercalate (lines.map Line.print)

private theorem newline_not_mem_space {space : List Char}
    (h : ∀ c ∈ space, c ∈ whiteSpace ∧ c ≠ '\n') :
    newline ∉ space.flatMap String.utf8EncodeChar := by
  have hchars : whiteSpace.all
      (fun c => decide (c = '\n') || decide (newline ∉ String.utf8EncodeChar c)) = true := by
    decide
  intro hmem
  obtain ⟨c, hc, hin⟩ := List.mem_flatMap.mp hmem
  have hchar := List.all_eq_true.mp hchars c (h c hc).1
  rw [Bool.or_eq_true, decide_eq_true_eq, decide_eq_true_eq] at hchar
  exact hchar.elim (h c hc).2 fun hnot => hnot hin

private theorem newline_not_mem_print (line : Line) : newline ∉ line.print := by
  cases line with
  | pair p =>
    have hsigns : newline ≠ equals ∧ newline ≠ doubleQuote := by decide
    simp [Line.print, quoted, p.key_unbroken, p.value_unbroken, hsigns]
  | blank space isSpace => exact newline_not_mem_space isSpace
  | comment space isSpace text unbroken =>
    have hsign : newline ≠ hash := by decide
    simp [Line.print, newline_not_mem_space isSpace, unbroken, hsign]

def Line.reading : Line → Reading
  | .pair p => .entry p.key p.value
  | _ => .skipped

private theorem trimSpace_quoted (value : Bytes) : trimSpace (quoted value) = quoted value := by
  refine trim_eq_self (fun w hw hfront => ?_) fun w hw => ?_
  · have hnil := prefix_of_prefix_append_cons (s := []) (signs_not_mem w hw).2.2 hfront
    exact wordSet_spaces.ne_nil (List.prefix_nil.mp hnil ▸ hw)
  · exact not_suffix_concat wordSet_spaces.ne_nil hw (signs_not_mem w hw).2.2 (doubleQuote :: value)

private theorem trimSpace_print_pair (p : Pair) :
    trimSpace (Line.pair p).print = p.key ++ equals :: quoted p.value := by
  refine trim_eq_self (fun w hw hfront => ?_) fun w hw => ?_
  · exact (p.trimmed w hw).1 (prefix_of_prefix_append_cons (signs_not_mem w hw).1 hfront)
  · have hlast : (Line.pair p).print =
        (p.key ++ equals :: doubleQuote :: p.value) ++ [doubleQuote] := by
      simp [Line.print, quoted]
    rw [hlast]
    exact not_suffix_concat wordSet_spaces.ne_nil hw (signs_not_mem w hw).2.2 _

private theorem splitPair_print (p : Pair) :
    splitPair (p.key ++ equals :: quoted p.value) = some (p.key, quoted p.value) := by
  have hkey : ∀ b ∈ p.key, decide (b ≠ equals) = true := fun b hb =>
    decide_eq_true fun heq => p.unseparated (heq ▸ hb)
  rw [splitPair, if_pos (List.mem_append_right _ List.mem_cons_self),
    List.takeWhile_append_of_pos hkey, List.dropWhile_append_of_pos hkey]
  simp

private theorem unquote_quoted (value : Bytes) : unquote (quoted value) = value := by
  have hlast : (quoted value).getLast? = some doubleQuote := by
    rw [quoted, ← List.cons_append, List.getLast?_concat]
  have hquoted : quotedBy doubleQuote (quoted value) = true := by
    rw [quotedBy, hlast]
    rfl
  have hlong : 2 ≤ (quoted value).length := by simp [quoted]
  rw [unquote, if_pos ⟨hlong, by rw [hquoted, Bool.true_or]⟩]
  simp [quoted]

private theorem flatMap_encode (space : List Char) :
    space.flatMap String.utf8EncodeChar = (space.map String.utf8EncodeChar).flatten :=
  List.flatMap_def

private theorem mem_spaces {space : List Char} (h : ∀ c ∈ space, c ∈ whiteSpace ∧ c ≠ '\n') :
    ∀ w ∈ space.map String.utf8EncodeChar, w ∈ spaces := by
  intro w hw
  obtain ⟨c, hc, rfl⟩ := List.mem_map.mp hw
  exact List.mem_map.mpr ⟨c, (h c hc).1, rfl⟩

private theorem parseLine_print (line : Line) :
    parseLine (trimSpace line.print) = line.reading := by
  cases line with
  | pair p =>
    have hkey := p.key_ne_nil
    have hhead : (p.key ++ equals :: quoted p.value).head? = p.key.head? :=
      List.head?_append_of_ne_nil _ hkey
    have hstays : ¬ (p.key ++ equals :: quoted p.value = [] ∨
        (p.key ++ equals :: quoted p.value).head? = some hash) := by
      rintro (hnil | hcomment)
      · exact hkey (List.append_eq_nil_iff.mp hnil).1
      · exact p.uncommented (hhead ▸ hcomment)
    rw [trimSpace_print_pair, parseLine, if_neg hstays, splitPair_print]
    dsimp only
    rw [trimSpace_quoted, unquote_quoted, trimSpace, trim_eq_self (fun w hw => (p.trimmed w hw).1)
      fun w hw => (p.trimmed w hw).2]
    rfl
  | blank space isSpace =>
    have hblank : trimSpace (Line.blank space isSpace).print = [] := by
      rw [Line.print, flatMap_encode]
      exact trim_flatten wordSet_spaces (mem_spaces isSpace)
    rw [hblank]
    rfl
  | comment space isSpace text unbroken =>
    have hhash :
        (trimSpace (Line.comment space isSpace text unbroken).print).head? = some hash := by
      rw [Line.print, flatMap_encode]
      exact trim_flatten_cons wordSet_spaces (mem_spaces isSpace)
        (fun w hw => (signs_not_mem w hw).2.1) text
    rw [parseLine, if_pos (.inr hhash)]
    rfl

private theorem pairs_map_reading (lines : List Line) :
    pairs (lines.map Line.reading) = (printedPairs lines).map fun p => (p.key, p.value) := by
  induction lines with
  | nil => rfl
  | cons line lines ih =>
    cases line with
    | pair p => exact congrArg ((p.key, p.value) :: ·) ih
    | blank => exact ih
    | comment => exact ih

section Prints

variable {lines : List Line} {content : Bytes} (h : Prints lines content)
include h

private theorem rawLines_of_prints :
    lines.map Line.print = rawLines newline content ∨
      lines.map Line.print = rawLines newline content ++ [[]] := by
  have hunbroken : ∀ text ∈ lines.map Line.print, newline ∉ text := by
    intro text htext
    obtain ⟨line, _, rfl⟩ := List.mem_map.mp htext
    exact newline_not_mem_print line
  rcases h with rfl | rfl
  · exact .inl (rawLines_flatMap hunbroken).symm
  · exact rawLines_intercalate hunbroken

-- An empty last line without a line break is none for the scanner.
private theorem readings_of_prints :
    lines.map Line.reading = readings content ∨
      lines.map Line.reading = readings content ++ [.skipped] := by
  have hreading : lines.map Line.reading =
      (lines.map Line.print).map fun text => parseLine (trimSpace text) := by
    rw [List.map_map]
    exact List.map_congr_left fun line _ => (parseLine_print line).symm
  rw [hreading]
  rcases rawLines_of_prints h with heq | heq
  · exact .inl (by rw [heq, readings])
  · refine .inr ?_
    rw [heq, List.map_append, readings]
    rfl

private theorem pairs_readings_of_prints :
    pairs (readings content) = (printedPairs lines).map fun p => (p.key, p.value) := by
  rw [← pairs_map_reading]
  rcases readings_of_prints h with heq | heq
  · rw [heq]
  · rw [heq, pairs, pairs, List.filterMap_append]
    exact (List.append_nil _).symm

private theorem formed_of_prints : .malformed ∉ readings content := by
  intro hmem
  have hprinted : .malformed ∈ lines.map Line.reading := by
    rcases readings_of_prints h with heq | heq
    · exact heq ▸ hmem
    · exact heq ▸ List.mem_append_left _ hmem
  obtain ⟨line, _, hline⟩ := List.mem_map.mp hprinted
  cases line <;> cases hline

private theorem envFormat_of_prints
    (hshort : ∀ line ∈ lines, line.print.length < maxScanTokenSize)
    (hdistinct : ((printedPairs lines).map Pair.key).Nodup) (hne : printedPairs lines ≠ []) :
    EnvFormat content where
  short := by
    intro text htext
    have hmem : text ∈ lines.map Line.print := by
      rcases rawLines_of_prints h with heq | heq
      · exact heq ▸ htext
      · exact heq ▸ List.mem_append_left _ htext
    obtain ⟨line, hline, rfl⟩ := List.mem_map.mp hmem
    exact hshort line hline
  accepted := by
    refine ⟨formed_of_prints h, ?_, ?_⟩
    · rw [pairs_readings_of_prints h]
      intro q hq
      obtain ⟨p, _, rfl⟩ := List.mem_map.mp hq
      exact ⟨p.key_ne_nil, Std.ExtTreeMap.not_mem_empty⟩
    · rw [pairs_readings_of_prints h, List.map_map]
      exact hdistinct
  nonempty := by
    rw [pairs_readings_of_prints h]
    exact fun hnil => hne (List.map_eq_nil_iff.mp hnil)

private theorem getElem?_enter_of_prints
    (hdistinct : ((printedPairs lines).map Pair.key).Nodup) {key : Bytes} {v : Any} :
    (enter ∅ (readings content))[key]? = some v ↔
      ∃ p ∈ printedPairs lines, p.key = key ∧ v = .string p.value := by
  rw [enter, pairs_readings_of_prints h]
  constructor
  · intro hget
    rcases of_getElem?_assign hget with hnone | ⟨q, hq, hkey, hvalue⟩
    · rw [Std.ExtTreeMap.getElem?_empty] at hnone
      cases hnone
    · obtain ⟨p, hp, rfl⟩ := List.mem_map.mp hq
      exact ⟨p, hp, hkey, hvalue.symm⟩
  · rintro ⟨p, hp, rfl, rfl⟩
    refine getElem?_assign_of_mem (x := (p.key, p.value)) _ _ _ (List.mem_map.mpr ⟨p, hp, rfl⟩) ?_
    intro q hq hkey
    obtain ⟨p', hp', rfl⟩ := List.mem_map.mp hq
    rw [List.inj_on_of_nodup_map hdistinct hp' hp hkey]

end Prints

/-- A printed file is read back as the pairs on its lines; it is refused if a key is printed
twice. -/
theorem readFromEnvContent_printed (filename content : Bytes) (lines : List Line)
    (hprints : Prints lines content)
    (hshort : ∀ line ∈ lines, line.print.length < maxScanTokenSize) :
    (((printedPairs lines).map Pair.key).Nodup → printedPairs lines ≠ [] →
      ∃ data, readFromEnvContent filename content = .ok data ∧
        ∀ key v, data[key]? = some v ↔
          ∃ p ∈ printedPairs lines, p.key = key ∧ v = .string p.value) ∧
      (¬ ((printedPairs lines).map Pair.key).Nodup →
        ∃ err, readFromEnvContent filename content = .error err) := by
  constructor
  · intro hdistinct hne
    have hformat := envFormat_of_prints hprints hshort hdistinct hne
    refine ⟨_, readFromEnvContent_eq_ok_iff.mpr ⟨hformat, rfl⟩, fun key v => ?_⟩
    exact getElem?_enter_of_prints hprints hdistinct
  · intro htwice
    cases hread : readFromEnvContent filename content with
    | error err => exact ⟨err, rfl⟩
    | ok data =>
      have hdistinct := (readFromEnvContent_eq_ok_iff.mp hread).1.accepted.distinct
      rw [pairs_readings_of_prints hprints, List.map_map] at hdistinct
      exact absurd hdistinct htwice

/-- A comment, a value with signs of the format in it, a blank line and a key. -/
def credentialLines : List Line :=
  [.comment [' '] (by simp [whiteSpace]) (utf8 " database") (by decide),
    .pair ⟨utf8 "PASSWORD", utf8 "a=\"b\" #'", by decide, by decide, by decide, by decide,
      by decide, by decide⟩,
    .blank ['\t', '\r'] (by simp [whiteSpace]),
    .pair ⟨utf8 "USER", [], by decide, by decide, by decide, by decide, by decide, by decide⟩]

def credentialFile : Bytes :=
  utf8 " # database\nPASSWORD=\"a=\"b\" #'\"\n\t\r\nUSER=\"\""

theorem readFromEnvContent_printed_credentials :
    ∃ data, readFromEnvContent (utf8 "app.env") credentialFile = .ok data ∧
      data[utf8 "PASSWORD"]? = some (.string (utf8 "a=\"b\" #'")) := by
  obtain ⟨data, hread, hdata⟩ := (readFromEnvContent_printed (utf8 "app.env") credentialFile
    credentialLines (.inr (by decide)) (by decide)).1 (by decide) (by decide)
  exact ⟨data, hread, (hdata _ _).mpr ⟨_, .head _, rfl, rfl⟩⟩

end HsmSecretsOperator.Kubectl.EnvFile
