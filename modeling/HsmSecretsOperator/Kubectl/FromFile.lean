/- source: kubectl-hsm/pkg/commands/common.go, kubectl-hsm/pkg/commands/create.go
   digest: What a file given with --from-file contributes, and when that is its whole content. -/

import HsmSecretsOperator.Foundation.JsonObjects
import HsmSecretsOperator.Kubectl.EnvFile

set_option autoImplicit false

namespace HsmSecretsOperator.Kubectl.FromFile

open Client (Any Data)
open EnvFile Foundation.Json Foundation.Lines Foundation.Maps Foundation.Text

/-- How numbers are read as `float64` and printed with `%v`; none if one is out of range. -/
structure FloatText where
  print : String → Option String
  numeral : ∀ number text, print number = some text →
    ∃ c cs, text.toList = c :: cs ∧ (c.isDigit = true ∨ c = '-')

mutual

/-- `%v` of a decoded value; the keys of a map are sorted. -/
def sprint (floats : FloatText) : Value → String
  | .null => "<nil>"
  | .bool b => if b then "true" else "false"
  | .num text => (floats.print text).getD ""
  | .str s => s
  | .arr items => "[" ++ " ".intercalate (sprintItems floats items) ++ "]"
  | .obj members =>
    "map[" ++ " ".intercalate ((Std.ExtTreeMap.ofList (sprintMembers floats members)).toList.map
      fun e => e.1 ++ ":" ++ e.2) ++ "]"

def sprintItems (floats : FloatText) : List Value → List String
  | [] => []
  | v :: vs => sprint floats v :: sprintItems floats vs

def sprintMembers (floats : FloatText) : List (String × Value) → List (String × String)
  | [] => []
  | (k, v) :: ms => (k, sprint floats v) :: sprintMembers floats ms

end

mutual

/-- Every number of a value is in range. -/
def fits (floats : FloatText) : Value → Bool
  | .num text => (floats.print text).isSome
  | .arr items => fitsItems floats items
  | .obj members => fitsMembers floats members
  | _ => true

def fitsItems (floats : FloatText) : List Value → Bool
  | [] => true
  | v :: vs => fits floats v && fitsItems floats vs

def fitsMembers (floats : FloatText) : List (String × Value) → Bool
  | [] => true
  | (_, v) :: ms => fits floats v && fitsMembers floats ms

end

/-- `json.Unmarshal` into a map; of a key that is there twice the last value is kept. -/
def unmarshal (floats : FloatText) (content : Bytes) : Option (Std.ExtTreeMap Bytes Value) :=
  match parse (decodeUtf8 content) with
  | none => none
  | some v =>
    if fits floats v then
      match v with
      | .null => some ∅
      | .obj members => some (assign ∅ (fun m => utf8 m.1) Prod.snd members)
      | _ => none
    else none

def nested : Value → Bool
  | .arr _ | .obj _ => true
  | _ => false

/-- The text that a value of the map is replaced by. -/
def entryText (floats : FloatText) : Value → String
  | .null => ""
  | v => sprint floats v

def entries (floats : FloatText) (members : Std.ExtTreeMap Bytes Value) : Data :=
  members.map fun _ v => .string (utf8 (entryText floats v))

/-- The errors of this attempt are not looked at. -/
def tryParseAsJson (floats : FloatText) (content : Bytes) : Option Data :=
  match unmarshal floats content with
  | none => none
  | some members =>
    if members.toList.any fun e => e.1 = [] || nested e.2 then none
    else some (entries floats members)

/-- What the command needs of the host: files, the texts of JSON errors and the float format. -/
structure Host where
  readFile : Bytes → Except Bytes Bytes
  unmarshalError : Bytes → Bytes
  floats : FloatText

def readFromJsonContent (host : Host) (filename content : Bytes) : Except Bytes Data :=
  match unmarshal host.floats content with
  | none =>
    .error (utf8 "failed to parse JSON file " ++ filename ++
      utf8 ": expected simple key-value format \x7b\"key\":\"value\"\x7d: " ++
      host.unmarshalError content)
  | some members =>
    if [] ∈ members then .error (utf8 "empty key found in JSON file " ++ filename)
    else if members.isEmpty then
      .error (utf8 "no key-value pairs found in JSON file " ++ filename)
    else .ok (entries host.floats members)

def hasKeyValuePair (line : Bytes) : Bool :=
  line ≠ [] && line.head? ≠ some hash && line.contains equals

def tryParseAsEnv (filename content : Bytes) : Except Bytes Data :=
  if (content.splitOn newline).any fun line => hasKeyValuePair (trimSpace line) then
    readFromEnvContent filename content
  else .error (utf8 "no KEY=VALUE pairs found")

def slash : UInt8 := 47

def dot : UInt8 := 46

def extension (path : Bytes) : Bytes :=
  let name := path.reverse.takeWhile (· ≠ slash)
  if dot ∈ name then dot :: (name.takeWhile (· ≠ dot)).reverse else []

def base (path : Bytes) : Bytes :=
  if path = [] then [dot]
  else
    match ((path.reverse.dropWhile (· = slash)).takeWhile (· ≠ slash)).reverse with
    | [] => [slash]
    | name => name

/-- `strings.ToLower`, as far as the comparison with an extension goes: no character outside ASCII
has one of its letters as lower case. -/
def toLower (s : Bytes) : Bytes := s.map fun b => if 65 ≤ b ∧ b ≤ 90 then b + 32 else b

def single (key content : Bytes) : Data := (∅ : Data).insert key (.string content)

def readAsSingleKeyValue (key filename content : Bytes) : Data :=
  if key = [] then
    let key := base filename
    single (key.take (key.length - (extension key).length)) content
  else single key content

def readFromFile (host : Host) (key filename : Bytes) : Except Bytes Data :=
  match host.readFile filename with
  | .error err => .error (utf8 "failed to read file " ++ filename ++ utf8 ": " ++ err)
  | .ok content =>
    let ext := toLower (extension filename)
    if ext = utf8 ".env" then readFromEnvContent filename content
    else if ext = utf8 ".json" then readFromJsonContent host filename content
    else
      match tryParseAsJson host.floats content with
      | some data => .ok data
      | none =>
        match tryParseAsEnv filename content with
        | .ok data => .ok data
        | .error _ => .ok (readAsSingleKeyValue key filename content)

/-- The key and the file of one `--from-file`. -/
def splitSpec (fileSpec : Bytes) : Bytes × Bytes := (splitPair fileSpec).getD ([], fileSpec)

/-- What one `--from-file` contributes. -/
def fileData (host : Host) (fileSpec : Bytes) : Except Bytes Data :=
  readFromFile host (splitSpec fileSpec).1 (splitSpec fileSpec).2

/-- The loop over the files: a key of an earlier file is overwritten. -/
def collectFiles (host : Host) : Data → List Bytes → Except Bytes Data
  | secretData, [] => .ok secretData
  | secretData, fileSpec :: rest =>
    match fileData host fileSpec with
    | .error err => .error err
    | .ok data => collectFiles host (assign secretData Prod.fst Prod.snd data.toList) rest

private theorem isBlank_of_numeral {c : Char} (h : c.isDigit = true ∨ c = '-') :
    isBlank c = false ∧ c ≠ '{' := by
  constructor
  · by_contra hblank
    simp only [isBlank, Bool.not_eq_false, Bool.or_eq_true, decide_eq_true_eq] at hblank
    rcases hblank with ((rfl | rfl) | rfl) | rfl <;> revert h <;> decide
  · rintro rfl
    revert h
    decide

private theorem not_brace_append {first : String} {c : Char} {cs : List Char}
    (h : first.toList = c :: cs) (hblank : isBlank c = false) (hbrace : c ≠ '{') (rest : String) :
    ((first ++ rest).toList.dropWhile isBlank).head? ≠ some '{' := by
  rw [String.toList_append, h, List.cons_append, List.dropWhile_cons, if_neg (by simp [hblank]),
    List.head?_cons]
  exact fun heq => hbrace (Option.some.inj heq)

private theorem not_brace_entryText (floats : FloatText) {v : Value} (hv : ∀ s, v ≠ .str s) :
    ((entryText floats v).toList.dropWhile isBlank).head? ≠ some '{' := by
  cases v with
  | null =>
    have hempty : entryText floats .null = "" := rfl
    rw [hempty]
    decide
  | bool b =>
    have hword : entryText floats (.bool b) = if b then "true" else "false" := rfl
    rw [hword]
    cases b <;> decide
  | str s => exact absurd rfl (hv s)
  | num number =>
    rw [entryText, sprint]
    · cases hprint : floats.print number with
      | none => decide
      | some text =>
        obtain ⟨c, cs, htext, hc⟩ := floats.numeral number text hprint
        have hhead := not_brace_append htext (isBlank_of_numeral hc).1 (isBlank_of_numeral hc).2 ""
        rwa [String.append_empty] at hhead
    · simp
  | arr items =>
    rw [entryText, sprint, String.append_assoc]
    · exact @not_brace_append "[" _ _ rfl (by decide) (by decide) _
    · simp
  | obj members =>
    rw [entryText, sprint, String.append_assoc]
    · exact @not_brace_append "map[" _ _ rfl (by decide) (by decide) _
    · simp

variable {floats : FloatText} {filename content : Bytes} {data : Data} {host : Host}

private theorem of_unmarshal {content : Bytes}
    {members : Std.ExtTreeMap Bytes Value} (h : unmarshal floats content = some members)
    {key : Bytes} {v : Value} (hv : members[key]? = some v) :
    ∃ ms k, parse (decodeUtf8 content) = some (.obj ms) ∧ (k, v) ∈ ms := by
  unfold unmarshal at h
  split at h
  · cases h
  next hparse =>
    split at h
    · split at h
      · cases h
        rw [Std.ExtTreeMap.getElem?_empty] at hv
        cases hv
      · cases h
        rcases of_getElem?_assign hv with hnone | ⟨m, hm, _, hval⟩
        · rw [Std.ExtTreeMap.getElem?_empty] at hnone
          cases hnone
        · exact ⟨_, m.1, hparse, hval ▸ hm⟩
      · cases h
    · cases h

theorem getElem?_entries_ne {content : Bytes}
    {members : Std.ExtTreeMap Bytes Value} (h : unmarshal floats content = some members)
    (key : Bytes) : (entries floats members)[key]? ≠ some (.string content) := by
  intro hget
  rw [entries, Std.ExtTreeMap.getElem?_map, Option.map_eq_some_iff] at hget
  obtain ⟨v, hv, htext⟩ := hget
  obtain ⟨ms, k, hparse, hmem⟩ := of_unmarshal h hv
  cases htext
  rw [decodeUtf8_utf8] at hparse
  obtain ⟨hbrace, hlonger⟩ := parse_obj hparse
  by_cases hstr : ∃ s, v = .str s
  · obtain ⟨s, rfl⟩ := hstr
    exact absurd (hlonger k s hmem) (lt_irrefl _)
  · exact not_brace_entryText floats (fun s heq => hstr ⟨s, heq⟩) hbrace

private theorem length_unquote_le (value : Bytes) : (unquote value).length ≤ value.length := by
  unfold unquote
  split
  · rw [List.length_dropLast, List.length_drop]
    omega
  · exact le_rfl

private theorem length_of_parseLine {line key value : Bytes}
    (h : parseLine line = .entry key value) : value.length < line.length := by
  unfold parseLine at h
  split at h
  · cases h
  · split at h
    · cases h
    next k v hsplit =>
      cases h
      unfold splitPair at hsplit
      split at hsplit
      next hmem =>
        cases hsplit
        have htrim := length_trim_le spaces ((line.dropWhile (· ≠ equals)).drop 1)
        have hunquote := length_unquote_le (trimSpace ((line.dropWhile (· ≠ equals)).drop 1))
        have hdrop := (List.dropWhile_suffix (l := line) fun b => decide (b ≠ equals)).length_le
        have hpos := List.length_pos_iff.mpr (List.ne_nil_of_mem hmem)
        rw [List.length_drop] at htrim
        unfold trimSpace at hunquote ⊢
        omega
      next => cases hsplit

theorem getElem?_readFromEnvContent_ne
    (h : readFromEnvContent filename content = .ok data) (key : Bytes) :
    data[key]? ≠ some (.string content) := by
  intro hget
  obtain ⟨_, rfl⟩ := readFromEnvContent_eq_ok_iff.mp h
  rcases of_getElem?_assign hget with hnone | ⟨p, hp, _, hvalue⟩
  · rw [Std.ExtTreeMap.getElem?_empty] at hnone
    cases hnone
  · obtain ⟨r, hr, hpair⟩ := List.mem_filterMap.mp hp
    obtain ⟨line, hline, rfl⟩ := List.mem_map.mp hr
    cases hread : parseLine (trimSpace line) with
    | skipped => simp [hread, Reading.pair?] at hpair
    | malformed => simp [hread, Reading.pair?] at hpair
    | entry k value =>
      rw [hread] at hpair
      cases hpair
      obtain rfl : value = content := Any.string.inj hvalue
      have hvalue := length_of_parseLine hread
      have htrim := length_trim_le spaces line
      have hraw := length_le_of_mem_rawLines hline
      unfold trimSpace at hvalue
      omega

/-- The look at the lines before the parser refuses nothing that the parser accepts. -/
theorem tryParseAsEnv_eq_ok_iff :
    tryParseAsEnv filename content = .ok data ↔ readFromEnvContent filename content = .ok data := by
  unfold tryParseAsEnv
  split
  · exact Iff.rfl
  next hnone =>
    refine ⟨fun h => (nomatch h), fun h => absurd ?_ hnone⟩
    obtain ⟨hformat, _⟩ := readFromEnvContent_eq_ok_iff.mp h
    obtain ⟨p, hp⟩ := List.exists_mem_of_ne_nil _ hformat.nonempty
    obtain ⟨r, hr, hpair⟩ := List.mem_filterMap.mp hp
    obtain ⟨line, hline, rfl⟩ := List.mem_map.mp hr
    have hmem : line ∈ content.splitOn newline := by
      rcases splitOn_eq_rawLines newline content with heq | heq
      · exact heq ▸ hline
      · exact heq ▸ List.mem_append_left _ hline
    refine List.any_eq_true.mpr ⟨line, hmem, ?_⟩
    generalize trimSpace line = text at hpair
    unfold parseLine at hpair
    split at hpair
    · cases hpair
    next hentry =>
      unfold splitPair at hpair
      by_cases hsep : equals ∈ text
      · simp only [not_or] at hentry
        simp [hasKeyValuePair, hentry, hsep]
      · rw [if_neg hsep] at hpair
        cases hpair

/-- The content is a JSON object that is flat and has no empty key, or a null. -/
def FlatJson (floats : FloatText) (content : Bytes) : Prop :=
  ∃ members, unmarshal floats content = some members ∧
    ∀ (key : Bytes) (v : Value), members[key]? = some v → key ≠ [] ∧ nested v = false

theorem tryParseAsJson_eq_some_iff {content : Bytes} :
    tryParseAsJson floats content = some data ↔ FlatJson floats content ∧
      ∃ members, unmarshal floats content = some members ∧ data = entries floats members := by
  unfold tryParseAsJson FlatJson
  cases unmarshal floats content with
  | none => simp
  | some members =>
    have hflat : (members.toList.any fun e => e.1 = [] || nested e.2) = false ↔
        ∀ (key : Bytes) (v : Value), members[key]? = some v → key ≠ [] ∧ nested v = false := by
      rw [List.any_eq_false]
      constructor
      · intro h key v hget
        have hentry := h (key, v) (Std.ExtTreeMap.mem_toList_iff_getElem?_eq_some.mpr hget)
        simpa using hentry
      · intro h e he
        have hentry := h e.1 e.2 (Std.ExtTreeMap.mem_toList_iff_getElem?_eq_some.mp he)
        simpa using hentry
    simp only [Option.some.injEq, exists_eq_left', ← hflat]
    cases members.toList.any fun e => e.1 = [] || nested e.2 with
    | false => simp [eq_comm]
    | true => simp

/-- Neither the extension of a file nor its content is that of one of the formats. -/
structure Unrecognised (floats : FloatText) (path content : Bytes) : Prop where
  notEnvFile : toLower (extension path) ≠ utf8 ".env"
  notJsonFile : toLower (extension path) ≠ utf8 ".json"
  notJson : ¬ FlatJson floats content
  notEnv : ¬ EnvFormat content

private theorem ne_single {key content : Bytes} (h : data[key]? ≠ some (.string content)) :
    (.ok data : Except Bytes Data) ≠ .ok (single key content) := by
  intro heq
  cases heq
  exact h Std.ExtTreeMap.getElem?_insert_self

private theorem readFromJsonContent_ne_single (host : Host) (filename key content : Bytes) :
    readFromJsonContent host filename content ≠ .ok (single key content) := by
  unfold readFromJsonContent
  split
  · exact fun h => nomatch h
  next members hmembers =>
    split
    · exact fun h => nomatch h
    split
    · exact fun h => nomatch h
    · exact ne_single (getElem?_entries_ne hmembers key)

private theorem readFromEnvContent_ne_single (filename key content : Bytes) :
    readFromEnvContent filename content ≠ .ok (single key content) := by
  intro h
  exact ne_single (getElem?_readFromEnvContent_ne h key) rfl

/-- A file contributes its content under the key exactly if no format is recognised. -/
theorem readFromFile_eq_single_iff {key path content : Bytes} (hkey : key ≠ [])
    (hread : host.readFile path = .ok content) :
    readFromFile host key path = .ok (single key content) ↔
      Unrecognised host.floats path content := by
  unfold readFromFile
  rw [hread]
  dsimp only
  by_cases henv : toLower (extension path) = utf8 ".env"
  · rw [if_pos henv]
    exact ⟨fun h => absurd h (readFromEnvContent_ne_single _ _ _),
      fun h => absurd henv h.notEnvFile⟩
  rw [if_neg henv]
  by_cases hjson : toLower (extension path) = utf8 ".json"
  · rw [if_pos hjson]
    exact ⟨fun h => absurd h (readFromJsonContent_ne_single _ _ _ _),
      fun h => absurd hjson h.notJsonFile⟩
  rw [if_neg hjson]
  cases hguess : tryParseAsJson host.floats content with
  | some data =>
    obtain ⟨hflat, members, hmembers, rfl⟩ := tryParseAsJson_eq_some_iff.mp hguess
    exact ⟨fun h => absurd h (ne_single (getElem?_entries_ne hmembers key)),
      fun h => absurd hflat h.notJson⟩
  | none =>
    have hnotJson : ¬ FlatJson host.floats content := by
      intro hflat
      obtain ⟨members, hmembers, _⟩ := id hflat
      have hsome := tryParseAsJson_eq_some_iff.mpr ⟨hflat, members, hmembers, rfl⟩
      exact nomatch hguess.symm.trans hsome
    dsimp only
    cases hguess' : tryParseAsEnv path content with
    | ok data =>
      have hparsed := tryParseAsEnv_eq_ok_iff.mp hguess'
      exact ⟨fun h => absurd h (ne_single (getElem?_readFromEnvContent_ne hparsed key)),
        fun h => absurd (readFromEnvContent_eq_ok_iff.mp hparsed).1 h.notEnv⟩
    | error err =>
      have hnotEnv : ¬ EnvFormat content := by
        intro hformat
        have hparsed := (@readFromEnvContent_eq_ok_iff path content _).mpr ⟨hformat, rfl⟩
        exact nomatch hguess'.symm.trans (tryParseAsEnv_eq_ok_iff.mpr hparsed)
      dsimp only
      rw [readAsSingleKeyValue, if_neg hkey]
      exact ⟨fun _ => ⟨henv, hjson, hnotJson, hnotEnv⟩, fun _ => rfl⟩

private theorem splitSpec_eq {key : Bytes} (h : equals ∉ key) (path : Bytes) :
    splitSpec (key ++ equals :: path) = (key, path) := by
  have hkey : ∀ b ∈ key, decide (b ≠ equals) = true := fun b hb =>
    decide_eq_true fun heq => h (heq ▸ hb)
  rw [splitSpec, splitPair, if_pos (List.mem_append_right _ List.mem_cons_self),
    List.takeWhile_append_of_pos hkey, List.dropWhile_append_of_pos hkey]
  simp

/-- `--from-file key=path` contributes the content of the file as a whole exactly if it is not
recognised as JSON or as an env file. -/
theorem fileData_eq_single_iff (host : Host) (key path content : Bytes) (hkey : key ≠ [])
    (hsep : equals ∉ key) (hread : host.readFile path = .ok content) :
    fileData host (key ++ equals :: path) = .ok (single key content) ↔
      Unrecognised host.floats path content := by
  rw [fileData, splitSpec_eq hsep]
  exact readFromFile_eq_single_iff hkey hread

/-- A host on which every file has the content. -/
def hostOf (content : Bytes) : Host where
  readFile _ := .ok content
  unmarshalError _ := []
  floats := ⟨fun _ => none, fun _ _ h => nomatch h⟩

private theorem unmarshal_utf8_none {text : String}
    (h : parse text.toList = none) : unmarshal floats (utf8 text) = none := by
  rw [unmarshal, decodeUtf8_utf8, h]

theorem fileData_whole_password :
    fileData (hostOf (utf8 "hunter2")) (utf8 "pw=pw.txt") =
      .ok (single (utf8 "pw") (utf8 "hunter2")) := by
  refine (fileData_eq_single_iff (hostOf (utf8 "hunter2")) (utf8 "pw") (utf8 "pw.txt")
    (utf8 "hunter2") (by decide) (by decide) rfl).mpr ⟨by decide, by decide, ?_, ?_⟩
  · rintro ⟨members, hmembers, _⟩
    rw [unmarshal_utf8_none (by decide)] at hmembers
    cases hmembers
  · intro hformat
    exact hformat.nonempty (by decide)

/-- A base64 text with padding is taken for an env file: the key that was given is lost. -/
theorem fileData_splits_token :
    fileData (hostOf (utf8 "dGVzdA==")) (utf8 "token=token.txt") =
        .ok (single (utf8 "dGVzdA") (utf8 "=")) ∧
      fileData (hostOf (utf8 "dGVzdA==")) (utf8 "token=token.txt") ≠
        .ok (single (utf8 "token") (utf8 "dGVzdA==")) := by
  have hsplit : fileData (hostOf (utf8 "dGVzdA==")) (utf8 "token=token.txt") =
      .ok (single (utf8 "dGVzdA") (utf8 "=")) := by
    rfl
  refine ⟨hsplit, ?_⟩
  rw [hsplit]
  refine ne_single ?_
  rw [single, getElem?_insert_of_ne _ (by decide)]
  simp

end HsmSecretsOperator.Kubectl.FromFile
