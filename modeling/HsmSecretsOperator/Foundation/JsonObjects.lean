/- source: none
   digest: What a text looks like that is parsed as an object. -/

import HsmSecretsOperator.Foundation.Json

set_option autoImplicit false

namespace HsmSecretsOperator.Foundation.Json

private theorem of_map_cons {p : Piece} {o : Option (List Piece × List Char)} {ps : List Piece}
    {rest : List Char} (h : (o.map fun r => (p :: r.1, r.2)) = some (ps, rest)) :
    ∃ ps', o = some (ps', rest) ∧ ps = p :: ps' := by
  obtain ⟨r, hr, heq⟩ := Option.map_eq_some_iff.mp h
  cases heq
  exact ⟨r.1, hr, rfl⟩

private theorem length_scanString_lt {cs rest : List Char} {ps : List Piece}
    (h : scanString cs = some (ps, rest)) : ps.length + rest.length < cs.length := by
  fun_induction scanString cs generalizing ps rest with
  | case1 | case3 | case4 | case6 | case7 | case9 => cases h
  | case2 cs =>
    cases h
    simp
  | case5 _ _ _ _ cs _ _ _ ih | case8 _ cs _ _ _ _ ih | case10 _ cs _ _ _ ih =>
    -- one more piece, of at least one character
    obtain ⟨ps', hcs, rfl⟩ := of_map_cons h
    have := ih hcs
    simp only [List.length_cons]
    omega

private theorem length_joinPieces_le (waiting : Option Nat) (ps : List Piece) :
    (joinPieces waiting ps).length ≤ ps.length + waiting.toList.length := by
  fun_induction joinPieces waiting ps <;> grind

private theorem length_scanDigits_le {cs digits rest : List Char}
    (h : scanDigits cs = some (digits, rest)) : rest.length ≤ cs.length := by
  unfold scanDigits at h
  dsimp only at h
  split at h
  · cases h
  · cases h
    exact (List.dropWhile_suffix _).length_le

variable {cs t rest : List Char} {ms : List (String × Value)} {n depth : Nat} {c : Char}

private theorem length_of_map_scanDigits {f : List Char × List Char → List Char × List Char}
    (h : (scanDigits cs).map f = some (t, rest)) (hf : ∀ r, (f r).2 = r.2) :
    rest.length ≤ cs.length := by
  obtain ⟨r, hr, heq⟩ := Option.map_eq_some_iff.mp h
  have hrest : rest = r.2 := by rw [← hf, heq]
  exact hrest ▸ length_scanDigits_le hr

private theorem length_scanInteger_le
    (h : scanInteger cs = some (t, rest)) : rest.length ≤ cs.length := by
  unfold scanInteger at h
  split at h
  · cases h
    simp
  · exact length_scanDigits_le h

private theorem length_scanFraction_le
    (h : scanFraction cs = some (t, rest)) : rest.length ≤ cs.length := by
  unfold scanFraction at h
  split at h
  · have := length_of_map_scanDigits h fun _ => rfl
    simp only [List.length_cons]
    omega
  · cases h
    exact le_rfl

private theorem length_scanExponent_le
    (h : scanExponent cs = some (t, rest)) : rest.length ≤ cs.length := by
  unfold scanExponent at h
  split at h
  · split at h
    · split at h
      · split at h
        · have := length_of_map_scanDigits h fun _ => rfl
          simp only [List.length_cons]
          omega
        · have := length_of_map_scanDigits h fun _ => rfl
          simp only [List.length_cons] at this ⊢
          omega
      · cases h
    · cases h
      exact le_rfl
  · cases h
    exact le_rfl

private theorem length_scanNumber_le {cs rest : List Char} {t : String}
    (h : scanNumber cs = some (t, rest)) : rest.length ≤ cs.length := by
  unfold scanNumber at h
  simp only [Option.bind_eq_bind, Option.bind_eq_some_iff] at h
  obtain ⟨⟨whole, cs₁⟩, hwhole, ⟨fraction, cs₂⟩, hfraction, ⟨exponent, cs₃⟩, hexponent, heq⟩ := h
  cases heq
  have hsign : (if cs.head? = some '-' then (['-'], cs.drop 1) else ([], cs)).2.length ≤
      cs.length := by
    split
    · simp
    · exact le_rfl
  have := length_scanInteger_le hwhole
  have := length_scanFraction_le hfraction
  have := length_scanExponent_le hexponent
  dsimp only at *
  omega

/-- What a token can be. -/
inductive NextToken (c : Char) (cs : List Char) : Token → List Char → Prop
  | mark {t : Token} (h : punctuation c = some t) : NextToken c cs t cs
  | str {s : String} {rest : List Char} (h : s.toList.length + rest.length < cs.length) :
      NextToken c cs (.word (.str s)) rest
  | scalar {v : Value} {rest : List Char} (hstr : ∀ s, v ≠ .str s) (hobj : ∀ ms, v ≠ .obj ms)
      (h : rest.length ≤ cs.length + 1) : NextToken c cs (.word v) rest

private theorem nextToken_scanWord {text : String} {v : Value} {cs rest : List Char}
    {t : Token} (h : scanWord text v (c :: cs) = some (t, rest)) (hstr : ∀ s, v ≠ .str s)
    (hobj : ∀ ms, v ≠ .obj ms) : NextToken c cs t rest := by
  unfold scanWord at h
  split at h
  · cases h
    refine .scalar hstr hobj ?_
    simp
  · cases h

private theorem nextToken_spec {cs rest : List Char} {t : Token}
    (h : nextToken c cs = some (t, rest)) : NextToken c cs t rest := by
  unfold nextToken at h
  split at h
  next u hu =>
    cases h
    exact .mark hu
  next =>
    split at h
    · obtain ⟨r, hr, heq⟩ := Option.map_eq_some_iff.mp h
      cases heq
      refine .str ?_
      have hpieces := length_joinPieces_le none r.1
      have hscan := length_scanString_lt hr
      rw [String.toList_ofList]
      simp only [Option.toList_none, List.length_nil] at hpieces
      omega
    split at h
    · exact nextToken_scanWord h (by simp) (by simp)
    split at h
    · exact nextToken_scanWord h (by simp) (by simp)
    split at h
    · exact nextToken_scanWord h (by simp) (by simp)
    · obtain ⟨r, hr, heq⟩ := Option.map_eq_some_iff.mp h
      cases heq
      exact .scalar (by simp) (by simp) (length_scanNumber_le hr)

private theorem punctuation_ne_word (c : Char) (v : Value) : punctuation c ≠ some (.word v) := by
  unfold punctuation
  repeat' split
  all_goals simp

private theorem eq_of_punctuation_lbrace (h : punctuation c = some .lbrace) : c = '{' := by
  unfold punctuation at h
  split at h
  · assumption
  · repeat' split at h
    all_goals cases h

private theorem NextToken.bounds {cs rest : List Char} {t : Token} (h : NextToken c cs t rest) :
    rest.length ≤ cs.length + 1 ∧ (∀ s, t = .word (.str s) → s.toList.length ≤ cs.length) ∧
      ∀ ms, t ≠ .word (.obj ms) := by
  cases h with
  | mark hmark =>
    have hword (v : Value) : t ≠ .word v := fun heq => punctuation_ne_word c v (heq ▸ hmark)
    exact ⟨Nat.le_succ _, fun s heq => absurd heq (hword _), fun ms => hword _⟩
  | str hlength =>
    refine ⟨by omega, fun s heq => ?_, fun ms heq => by cases heq⟩
    cases heq
    omega
  | scalar hstr hobj hlength =>
    refine ⟨hlength, fun s heq => ?_, fun ms heq => ?_⟩
    · cases heq
      exact absurd rfl (hstr s)
    · cases heq
      exact absurd rfl (hobj ms)

private theorem lex_words {n : Nat} {cs : List Char} {ts : List Token} (h : lex n cs = some ts) :
    (∀ s, .word (.str s) ∈ ts → s.toList.length < cs.length) ∧ ∀ ms, .word (.obj ms) ∉ ts := by
  induction n generalizing cs ts with
  | zero =>
    rw [lex] at h
    split at h
    · cases h
      simp
    · cases h
  | succ n ih =>
    have hblank : (cs.dropWhile isBlank).length ≤ cs.length := (List.dropWhile_suffix _).length_le
    rw [lex] at h
    split at h
    · cases h
      simp
    next c cs' hcs =>
      rw [hcs, List.length_cons] at hblank
      split at h
      · cases h
      next t rest hnext =>
        obtain ⟨us, hus, rfl⟩ := Option.map_eq_some_iff.mp h
        obtain ⟨hstrings, hobjects⟩ := ih hus
        obtain ⟨hrest, hstr, hobj⟩ := (nextToken_spec hnext).bounds
        refine ⟨fun s hs => ?_, fun ms hms => ?_⟩
        · rcases List.mem_cons.mp hs with heq | hs
          · have := hstr s heq.symm
            omega
          · have := hstrings s hs
            omega
        · rcases List.mem_cons.mp hms with heq | hms
          · exact hobj ms heq.symm
          · exact hobjects ms hms

private theorem lex_lbrace {n : Nat} {cs : List Char} {ts : List Token}
    (h : lex n cs = some (.lbrace :: ts)) : (cs.dropWhile isBlank).head? = some '{' := by
  cases n with
  | zero =>
    rw [lex] at h
    split at h <;> cases h
  | succ n =>
    rw [lex] at h
    split at h
    · cases h
    next c cs' hcs =>
      split at h
      · cases h
      next t rest hnext =>
        obtain ⟨us, _, heq⟩ := Option.map_eq_some_iff.mp h
        cases heq
        cases nextToken_spec hnext with
        | mark hmark => rw [hcs, List.head?_cons, eq_of_punctuation_lbrace hmark]

/-- How a value is read. -/
inductive ReadsValue (n depth : Nat) : List Token → Value → List Token → Prop
  | word (v : Value) (rest : List Token) : ReadsValue n depth (.word v :: rest) v rest
  | emptyObject (rest : List Token) :
      ReadsValue n depth (.lbrace :: .rbrace :: rest) (.obj []) rest
  | object {ts rest : List Token} {ms : List (String × Value)}
      (h : parseMembers n (depth + 1) ts = some (ms, rest)) :
      ReadsValue n depth (.lbrace :: ts) (.obj ms) rest
  | emptyArray (rest : List Token) :
      ReadsValue n depth (.lbracket :: .rbracket :: rest) (.arr []) rest
  | array {ts rest : List Token} {vs : List Value}
      (h : parseElements n (depth + 1) ts = some (vs, rest)) :
      ReadsValue n depth (.lbracket :: ts) (.arr vs) rest

private theorem parseValue_spec {ts rest : List Token} {v : Value}
    (h : parseValue (n + 1) depth ts = some (v, rest)) : ReadsValue n depth ts v rest := by
  unfold parseValue at h
  split at h
  · cases h
    exact .word v rest
  · split at h
    · split at h
      · cases h
        exact .emptyObject rest
      · obtain ⟨r, hr, heq⟩ := Option.map_eq_some_iff.mp h
        cases heq
        exact .object hr
    · cases h
  · split at h
    · split at h
      · cases h
        exact .emptyArray rest
      · obtain ⟨r, hr, heq⟩ := Option.map_eq_some_iff.mp h
        cases heq
        exact .array hr
    · cases h
  · cases h

/-- How the members of an object are read. -/
inductive ReadsMembers (n depth : Nat) : List Token → List (String × Value) → List Token → Prop
  | last {ts rest : List Token} {k : String} {v : Value}
      (h : parseValue n depth ts = some (v, .rbrace :: rest)) :
      ReadsMembers n depth (.word (.str k) :: .colon :: ts) [(k, v)] rest
  | more {ts ts' rest : List Token} {k : String} {v : Value} {ms : List (String × Value)}
      (h : parseValue n depth ts = some (v, .comma :: ts'))
      (hrest : parseMembers n depth ts' = some (ms, rest)) :
      ReadsMembers n depth (.word (.str k) :: .colon :: ts) ((k, v) :: ms) rest

private theorem parseMembers_spec {ts rest : List Token}
    (h : parseMembers (n + 1) depth ts = some (ms, rest)) :
    ReadsMembers n depth ts ms rest := by
  unfold parseMembers at h
  split at h
  next k ts =>
    split at h
    next v ts' hv =>
      cases h
      exact .last hv
    next v ts' hv =>
      obtain ⟨r, hr, heq⟩ := Option.map_eq_some_iff.mp h
      cases heq
      exact .more hv hr
    next => cases h
  next => cases h

-- All three parsers leave an end of what they are given; one induction on the fuel shows it.
private theorem parse_suffix (n : Nat) :
    (∀ {depth ts v rest}, parseValue n depth ts = some (v, rest) → rest <:+ ts) ∧
      (∀ {depth ts ms rest}, parseMembers n depth ts = some (ms, rest) → rest <:+ ts) ∧
      ∀ {depth ts vs rest}, parseElements n depth ts = some (vs, rest) → rest <:+ ts := by
  induction n with
  | zero => simp [parseValue, parseMembers, parseElements]
  | succ n ih =>
    obtain ⟨hvalue, hmembers, helements⟩ := ih
    refine ⟨fun h => ?_, fun h => ?_, fun h => ?_⟩
    · cases parseValue_spec h with
      | word => exact List.suffix_cons _ _
      | emptyObject => exact (List.suffix_cons _ _).trans (List.suffix_cons _ _)
      | object h => exact (hmembers h).trans (List.suffix_cons _ _)
      | emptyArray => exact (List.suffix_cons _ _).trans (List.suffix_cons _ _)
      | array h => exact (helements h).trans (List.suffix_cons _ _)
    · have hkey (t u : Token) (ts : List Token) : ts <:+ t :: u :: ts :=
        (List.suffix_cons u ts).trans (List.suffix_cons t _)
      cases parseMembers_spec h with
      | last hv => exact ((List.suffix_cons _ _).trans (hvalue hv)).trans (hkey _ _ _)
      | more hv hrest =>
        exact (((hmembers hrest).trans (List.suffix_cons _ _)).trans (hvalue hv)).trans (hkey _ _ _)
    · unfold parseElements at h
      split at h
      next v ts' hv =>
        cases h
        exact (List.suffix_cons _ _).trans (hvalue hv)
      next v ts' hv =>
        obtain ⟨r, hr, heq⟩ := Option.map_eq_some_iff.mp h
        cases heq
        exact (helements hr).trans ((List.suffix_cons _ _).trans (hvalue hv))
      next => cases h

private theorem parseValue_str {ts rest : List Token} {s : String}
    (h : parseValue n depth ts = some (.str s, rest)) : .word (.str s) ∈ ts := by
  cases n with
  | zero => simp [parseValue] at h
  | succ n =>
    cases parseValue_spec h with
    | word => exact List.mem_cons_self

private theorem parseMembers_str {ts rest : List Token}
    (h : parseMembers n depth ts = some (ms, rest)) {k s : String}
    (hmem : (k, .str s) ∈ ms) : .word (.str s) ∈ ts := by
  induction n generalizing depth ts ms with
  | zero => simp [parseMembers] at h
  | succ n ih =>
    cases parseMembers_spec h with
    | last hv =>
      obtain ⟨rfl, rfl⟩ := Prod.mk.inj (List.mem_singleton.mp hmem)
      exact List.mem_cons_of_mem _ (List.mem_cons_of_mem _ (parseValue_str hv))
    | more hv hrest =>
      refine List.mem_cons_of_mem _ (List.mem_cons_of_mem _ ?_)
      rcases List.mem_cons.mp hmem with heq | hmem
      · obtain ⟨rfl, rfl⟩ := Prod.mk.inj heq
        exact parseValue_str hv
      · exact ((parse_suffix n).1 hv).subset (List.mem_cons_of_mem _ (ih hrest hmem))

theorem parse_obj {cs : List Char} (h : parse cs = some (.obj ms)) :
    (cs.dropWhile isBlank).head? = some '{' ∧
      ∀ k s, (k, Value.str s) ∈ ms → s.toList.length < cs.length := by
  unfold parse at h
  split at h
  · cases h
  next ts hts =>
    obtain ⟨hstrings, hobjects⟩ := lex_words hts
    split at h
    next v hv =>
      cases h
      cases parseValue_spec hv with
      | word => exact absurd List.mem_cons_self (hobjects ms)
      | emptyObject => exact ⟨lex_lbrace hts, fun k s hks => absurd hks List.not_mem_nil⟩
      | object hmembers =>
        refine ⟨lex_lbrace hts, fun k s hks => ?_⟩
        exact hstrings s (List.mem_cons_of_mem _ (parseMembers_str hmembers hks))
    next => cases h

end HsmSecretsOperator.Foundation.Json
