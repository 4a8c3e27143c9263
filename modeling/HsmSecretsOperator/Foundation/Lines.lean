/- source: none
   digest: Trimming words off a list, white space, and the lines that a scanner reads. -/

import Mathlib.Data.List.TakeWhile
import HsmSecretsOperator.Foundation.Utf8

set_option autoImplicit false

namespace HsmSecretsOperator.Foundation.Lines

open Text
open Utf8 (utf8EncodeChar_free)

section Trimming

variable {α : Type} [DecidableEq α] {words : List (List α)}

/-- Takes words off the front, at most as many as the number says. -/
def trimFrom (words : List (List α)) : Nat → List α → List α
  | 0, s => s
  | n + 1, s =>
    match words.find? fun w => w.isPrefixOf s with
    | none => s
    | some w => trimFrom words n (s.drop w.length)

def trimFront (words : List (List α)) (s : List α) : List α := trimFrom words s.length s

def trimBack (words : List (List α)) (s : List α) : List α :=
  (trimFront (words.map List.reverse) s.reverse).reverse

def trim (words : List (List α)) (s : List α) : List α := trimBack words (trimFront words s)

/-- Words that are not empty and do not begin one another. -/
structure WordSet (words : List (List α)) : Prop where
  ne_nil : [] ∉ words
  free : ∀ w ∈ words, ∀ w' ∈ words, ∀ r, w' <+: w ++ r → w' = w

variable {s : List α} {ws : List (List α)} {c : α}

private theorem trimFrom_of_not_prefix (h : ∀ w ∈ words, ¬ w <+: s) (n : Nat) :
    trimFrom words n s = s := by
  cases n with
  | zero => rfl
  | succ n =>
    have hnone : (words.find? fun w => w.isPrefixOf s) = none :=
      List.find?_eq_none.mpr fun w hw hfront => h w hw (List.isPrefixOf_iff_prefix.mp hfront)
    simp only [trimFrom, hnone]

theorem trimFront_of_not_prefix (h : ∀ w ∈ words, ¬ w <+: s) : trimFront words s = s :=
  trimFrom_of_not_prefix h _

private theorem of_find? {s w : List α} (h : (words.find? fun v => v.isPrefixOf s) = some w) :
    w ∈ words ∧ w <+: s := by
  have hfront := List.find?_some h
  exact ⟨List.mem_of_find?_eq_some h, List.isPrefixOf_iff_prefix.mp hfront⟩

omit [DecidableEq α] in
private theorem length_drop_lt (hne : [] ∉ words) {s w : List α} (hw : w ∈ words)
    (hfront : w <+: s) : (s.drop w.length).length < s.length := by
  have hpos : 0 < w.length := List.length_pos_iff.mpr fun h => hne (h ▸ hw)
  have hle := hfront.length_le
  rw [List.length_drop]
  omega

-- A list of length n has at most n words at its front, so more fuel changes nothing.
private theorem trimFrom_of_le (hne : [] ∉ words) {n : Nat} (h : s.length ≤ n) :
    trimFrom words n s = trimFront words s := by
  have hsucc (m : Nat) (t : List α) (ht : t.length ≤ m) :
      trimFrom words (m + 1) t = trimFrom words m t := by
    induction m generalizing t with
    | zero =>
      obtain rfl := List.length_eq_zero_iff.mp (Nat.le_zero.mp ht)
      refine trimFrom_of_not_prefix (fun w hw hfront => ?_) 1
      exact hne (List.prefix_nil.mp hfront ▸ hw)
    | succ m ih =>
      rw [trimFrom, trimFrom]
      split
      next => rfl
      next w hfind =>
        obtain ⟨hmem, hfront⟩ := of_find? hfind
        have hlt := length_drop_lt hne hmem hfront
        exact ih _ (by omega)
  induction h with
  | refl => rfl
  | step hle ih => rw [hsucc _ s hle, ih]

theorem trimFront_word_append (hne : [] ∉ words) {w s : List α} (hw : w ∈ words)
    (honly : ∀ w' ∈ words, w' <+: w ++ s → w' = w) :
    trimFront words (w ++ s) = trimFront words s := by
  have hpos : 0 < w.length := List.length_pos_iff.mpr fun h => hne (h ▸ hw)
  have hfind : (words.find? fun v => v.isPrefixOf (w ++ s)) = some w := by
    cases hfind : words.find? fun v => v.isPrefixOf (w ++ s) with
    | none =>
      have hfront := List.isPrefixOf_iff_prefix.mpr (List.prefix_append w s)
      exact absurd hfront (List.find?_eq_none.mp hfind w hw)
    | some v =>
      obtain ⟨hmem, hfront⟩ := of_find? hfind
      rw [honly v hmem hfront]
  obtain ⟨n, hn⟩ : ∃ n, (w ++ s).length = n + 1 := by
    refine ⟨(w ++ s).length - 1, ?_⟩
    rw [List.length_append]
    omega
  have hle : s.length ≤ n := by
    rw [List.length_append] at hn
    omega
  rw [trimFront, hn, trimFrom]
  simp only [hfind, List.drop_left]
  exact trimFrom_of_le hne hle

theorem trimFront_flatten_append (h : WordSet words) (hws : ∀ w ∈ ws, w ∈ words) (s : List α) :
    trimFront words (ws.flatten ++ s) = trimFront words s := by
  induction ws with
  | nil => rfl
  | cons w ws ih =>
    have hw := hws w List.mem_cons_self
    rw [List.flatten_cons, List.append_assoc,
      trimFront_word_append h.ne_nil hw fun w' hw' => h.free w hw w' hw' _]
    exact ih fun v hv => hws v (List.mem_cons_of_mem w hv)

theorem exists_trimFront (words : List (List α)) (s : List α) :
    ∃ ws : List (List α), (∀ w ∈ ws, w ∈ words) ∧ s = ws.flatten ++ trimFront words s := by
  have hfrom (n : Nat) :
      ∃ ws : List (List α), (∀ w ∈ ws, w ∈ words) ∧ s = ws.flatten ++ trimFrom words n s := by
    induction n generalizing s with
    | zero => exact ⟨[], fun w hw => absurd hw List.not_mem_nil, rfl⟩
    | succ n ih =>
      rw [trimFrom]
      split
      next => exact ⟨[], fun w hw => absurd hw List.not_mem_nil, rfl⟩
      next w hfind =>
        obtain ⟨ws, hws, heq⟩ := ih (s.drop w.length)
        obtain ⟨hmem, hfront⟩ := of_find? hfind
        refine ⟨w :: ws, List.forall_mem_cons.mpr ⟨hmem, hws⟩, ?_⟩
        rw [List.flatten_cons, List.append_assoc, ← heq, List.prefix_iff_eq_append.mp hfront]
  exact hfrom s.length

theorem not_prefix_trimFront (hne : [] ∉ words) {w s : List α} (hw : w ∈ words) :
    ¬ w <+: trimFront words s := by
  have hfrom (n : Nat) (hn : s.length ≤ n) : ¬ w <+: trimFrom words n s := by
    induction n generalizing s with
    | zero =>
      obtain rfl := List.length_eq_zero_iff.mp (Nat.le_zero.mp hn)
      exact fun hfront => hne (List.prefix_nil.mp hfront ▸ hw)
    | succ n ih =>
      rw [trimFrom]
      split
      next hfind =>
        exact fun hfront =>
          List.find?_eq_none.mp hfind w hw (List.isPrefixOf_iff_prefix.mpr hfront)
      next v hfind =>
        obtain ⟨hmem, hfront⟩ := of_find? hfind
        have hlt := length_drop_lt hne hmem hfront
        exact ih (by omega)
  exact hfrom _ le_rfl

theorem trimBack_of_not_suffix (h : ∀ w ∈ words, ¬ w <:+ s) : trimBack words s = s := by
  rw [trimBack, trimFront_of_not_prefix, List.reverse_reverse]
  intro w hw hfront
  obtain ⟨v, hv, rfl⟩ := List.mem_map.mp hw
  exact h v hv (List.reverse_prefix.mp hfront)

theorem exists_trimBack (words : List (List α)) (s : List α) :
    ∃ ws : List (List α), (∀ w ∈ ws, w ∈ words) ∧ s = trimBack words s ++ ws.flatten := by
  obtain ⟨ws, hws, heq⟩ := exists_trimFront (words.map List.reverse) s.reverse
  refine ⟨(ws.map List.reverse).reverse, ?_, ?_⟩
  · intro w hw
    obtain ⟨v, hv, rfl⟩ := List.mem_map.mp (List.mem_reverse.mp hw)
    obtain ⟨u, hu, rfl⟩ := List.mem_map.mp (hws v hv)
    rwa [List.reverse_reverse]
  · rw [← List.reverse_flatten, trimBack, ← List.reverse_append, ← heq, List.reverse_reverse]

theorem trim_eq_self (hfront : ∀ w ∈ words, ¬ w <+: s)
    (hback : ∀ w ∈ words, ¬ w <:+ s) : trim words s = s := by
  rw [trim, trimFront_of_not_prefix hfront, trimBack_of_not_suffix hback]

omit [DecidableEq α] in
theorem not_suffix_concat (hne : [] ∉ words) {w : List α} (hw : w ∈ words) (hc : c ∉ w)
    (s : List α) : ¬ w <:+ s ++ [c] := by
  intro hsuffix
  rcases List.suffix_concat_iff.mp hsuffix with rfl | ⟨t, rfl, _⟩
  · exact hne hw
  · exact hc List.mem_concat_self

omit [DecidableEq α] in
theorem prefix_of_prefix_append_cons {w s r : List α} (hc : c ∉ w)
    (h : w <+: s ++ c :: r) : w <+: s := by
  rcases List.prefix_or_prefix_of_prefix h (List.prefix_append s (c :: r)) with hle | ⟨u, rfl⟩
  · exact hle
  · cases u with
    | nil => exact (List.append_nil s).symm ▸ List.prefix_rfl
    | cons b u =>
      have htail := (List.prefix_append_right_inj s).mp h
      obtain ⟨rfl, _⟩ := List.cons_prefix_cons.mp htail
      exact absurd (List.mem_append_right s List.mem_cons_self) hc

theorem length_trim_le (words : List (List α)) (s : List α) :
    (trim words s).length ≤ s.length := by
  obtain ⟨ws, _, hfront⟩ := exists_trimFront words s
  obtain ⟨ws', _, hback⟩ := exists_trimBack words (trimFront words s)
  have hfront := congrArg List.length hfront
  have hback := congrArg List.length hback
  rw [List.length_append] at hfront hback
  rw [trim]
  omega

theorem trim_flatten_cons (h : WordSet words) (hws : ∀ w ∈ ws, w ∈ words) (hc : ∀ w ∈ words, c ∉ w)
    (t : List α) :
    (trim words (ws.flatten ++ c :: t)).head? = some c := by
  have hstay : trimFront words (c :: t) = c :: t := by
    refine trimFront_of_not_prefix fun w hw hfront => ?_
    have hnil := List.prefix_nil.mp (prefix_of_prefix_append_cons (s := []) (hc w hw) hfront)
    exact h.ne_nil (hnil ▸ hw)
  rw [trim, trimFront_flatten_append h hws, hstay]
  obtain ⟨ws', hws', heq⟩ := exists_trimBack words (c :: t)
  cases hback : trimBack words (c :: t) with
  | cons b bs =>
    rw [hback] at heq
    exact congrArg some (List.cons.inj heq).1.symm
  | nil =>
    have hmem : c ∈ ws'.flatten := by
      rw [hback, List.nil_append] at heq
      exact heq ▸ List.mem_cons_self
    obtain ⟨w, hw, hcw⟩ := List.mem_flatten.mp hmem
    exact absurd hcw (hc w (hws' w hw))

theorem trim_flatten (h : WordSet words) (hws : ∀ w ∈ ws, w ∈ words) :
    trim words ws.flatten = [] := by
  have hfront := trimFront_flatten_append h hws []
  rw [List.append_nil] at hfront
  rw [trim, hfront]
  rfl

/-- A last letter that is a word, and occurs in no other one, is trimmed. -/
theorem trim_concat (h : WordSet words) (hc : [c] ∈ words)
    (honly : ∀ w ∈ words, c ∈ w → w = [c]) (s : List α) :
    trim words (s ++ [c]) = trim words s := by
  have hback (t : List α) : trimBack words (t ++ [c]) = trimBack words t := by
    have hword : [c] ∈ words.map List.reverse := List.mem_map.mpr ⟨[c], hc, rfl⟩
    rw [trimBack, List.reverse_append, List.reverse_singleton,
      trimFront_word_append (fun hnil => ?_) hword ?_, ← trimBack]
    · intro w hw hfront
      obtain ⟨v, hv, rfl⟩ := List.mem_map.mp hw
      cases hrev : v.reverse with
      | nil => exact absurd (List.reverse_eq_nil_iff.mp hrev ▸ hv) h.ne_nil
      | cons b bs =>
        rw [hrev] at hfront
        obtain ⟨rfl, _⟩ := List.cons_prefix_cons.mp hfront
        have hmem : b ∈ v := List.mem_reverse.mp (hrev ▸ List.mem_cons_self)
        rw [honly v hv hmem, List.reverse_singleton] at hrev
        exact hrev.symm
    · obtain ⟨w, hw, hrev⟩ := List.mem_map.mp hnil
      exact h.ne_nil (List.reverse_eq_nil_iff.mp hrev ▸ hw)
  obtain ⟨ws, hws, hsplit⟩ := exists_trimFront words s
  have hfront : trimFront words (s ++ [c]) = trimFront words (trimFront words s ++ [c]) := by
    conv_lhs => rw [hsplit]
    rw [List.append_assoc, trimFront_flatten_append h hws]
  rw [trim, hfront]
  by_cases hnil : trimFront words s = []
  · have hword : trimFront words [c] = [] :=
      trimFront_word_append h.ne_nil hc fun w hw => h.free [c] hc w hw []
    rw [trim, hnil, List.nil_append, hword]
  · have hstay : trimFront words (trimFront words s ++ [c]) = trimFront words s ++ [c] := by
      refine trimFront_of_not_prefix fun w hw hfront => ?_
      rcases List.prefix_concat_iff.mp hfront with heq | hfront
      · have hword := honly w hw (heq ▸ List.mem_concat_self)
        rw [hword] at heq
        exact hnil (List.append_left_eq_self.mp heq.symm)
      · exact not_prefix_trimFront h.ne_nil hw hfront
    rw [hstay, hback, ← trim]

end Trimming

section WhiteSpace

/-- The characters that `unicode.IsSpace` accepts. -/
def whiteSpace : List Char :=
  ['\t', '\n', '\x0b', '\x0c', '\r', ' ', '\u0085', '\u00a0', '\u1680', '\u2000', '\u2001',
    '\u2002', '\u2003', '\u2004', '\u2005', '\u2006', '\u2007', '\u2008', '\u2009', '\u200a',
    '\u2028', '\u2029', '\u202f', '\u205f', '\u3000']

def spaces : List Bytes := whiteSpace.map String.utf8EncodeChar

def trimSpace (s : Bytes) : Bytes := trim spaces s

theorem wordSet_spaces : WordSet spaces where
  ne_nil := by decide
  free := by
    intro w hw w' hw' r hfront
    obtain ⟨c, _, rfl⟩ := List.mem_map.mp hw
    obtain ⟨d, _, rfl⟩ := List.mem_map.mp hw'
    obtain ⟨r', heq⟩ := hfront
    rw [utf8EncodeChar_free heq]

end WhiteSpace

section Scanning

variable {α : Type} [DecidableEq α]

/-- The parts between separators; nothing follows a separator at the end. -/
def rawLines (sep : α) (s : List α) : List (List α) :=
  let parts := s.splitOn sep
  if parts.getLast? = some [] then parts.dropLast else parts

/-- The list without a last letter of the given kind. -/
def dropLastOf (c : α) (s : List α) : List α := if s.getLast? = some c then s.dropLast else s

/-- The lines up to the first that is too long, and whether there is one. -/
def scan (sep cr : α) (limit : Nat) (s : List α) : List (List α) × Bool :=
  (((rawLines sep s).takeWhile fun line => line.length < limit).map (dropLastOf cr),
    (rawLines sep s).any fun line => limit ≤ line.length)

theorem splitOn_eq_rawLines (sep : α) (s : List α) :
    s.splitOn sep = rawLines sep s ∨ s.splitOn sep = rawLines sep s ++ [[]] := by
  unfold rawLines
  dsimp only
  split
  next hlast =>
    right
    obtain ⟨init, hinit⟩ := List.getLast?_eq_some_iff.mp hlast
    rw [hinit, List.dropLast_concat]
  next => exact .inl rfl

theorem rawLines_flatMap {sep : α} {lines : List (List α)} (h : ∀ line ∈ lines, sep ∉ line) :
    rawLines sep (lines.flatMap fun line => line ++ [sep]) = lines := by
  have hsplit : (lines.flatMap fun line => line ++ [sep]).splitOn sep = lines ++ [[]] := by
    induction lines with
    | nil => rfl
    | cons line lines ih =>
      rw [List.flatMap_cons, List.append_assoc, List.singleton_append,
        List.splitOn_append_cons_self_of_not_mem (h line List.mem_cons_self),
        ih fun l hl => h l (List.mem_cons_of_mem line hl), List.cons_append]
  rw [rawLines, hsplit]
  simp

theorem rawLines_intercalate {sep : α} {lines : List (List α)} (h : ∀ line ∈ lines, sep ∉ line) :
    lines = rawLines sep ([sep].intercalate lines) ∨
      lines = rawLines sep ([sep].intercalate lines) ++ [[]] := by
  cases lines with
  | nil => exact .inl rfl
  | cons line lines =>
    have hsplit := List.splitOn_intercalate sep h (List.cons_ne_nil line lines)
    have hraw := splitOn_eq_rawLines sep ([sep].intercalate (line :: lines))
    rwa [hsplit] at hraw

theorem length_le_of_mem_rawLines {sep : α} {s line : List α} (h : line ∈ rawLines sep s) :
    line.length ≤ s.length := by
  have hmem : line ∈ s.splitOn sep := by
    rcases splitOn_eq_rawLines sep s with heq | heq
    · exact heq ▸ h
    · exact heq ▸ List.mem_append_left _ h
  have hjoin (parts : List (List α)) (hpart : line ∈ parts) :
      line.length ≤ ([sep].intercalate parts).length := by
    induction parts with
    | nil => exact absurd hpart List.not_mem_nil
    | cons part parts ih =>
      cases parts with
      | nil =>
        obtain rfl := List.mem_singleton.mp hpart
        simp [List.intercalate]
      | cons next parts =>
        rw [List.intercalate_cons_cons, List.length_append, List.length_append]
        rcases List.mem_cons.mp hpart with rfl | hpart
        · omega
        · have := ih hpart
          omega
  have hlength := hjoin _ hmem
  rwa [List.intercalate_splitOn] at hlength

theorem scan_of_short {sep cr : α} {limit : Nat} {s : List α}
    (h : ∀ line ∈ rawLines sep s, line.length < limit) :
    scan sep cr limit s = ((rawLines sep s).map (dropLastOf cr), false) := by
  have htake : ((rawLines sep s).takeWhile fun line => line.length < limit) = rawLines sep s :=
    List.takeWhile_eq_self_iff.mpr fun line hline => decide_eq_true (h line hline)
  have hany : ((rawLines sep s).any fun line => limit ≤ line.length) = false := by
    refine List.any_eq_false.mpr fun line hline hle => ?_
    exact absurd (h line hline) (not_lt.mpr (of_decide_eq_true hle))
  rw [scan, htake, hany]

theorem scan_snd_eq_false_iff {sep cr : α} {limit : Nat} {s : List α} :
    (scan sep cr limit s).2 = false ↔ ∀ line ∈ rawLines sep s, line.length < limit := by
  simp [scan]

theorem trim_dropLastOf {words : List (List α)} (h : WordSet words) {c : α} (hc : [c] ∈ words)
    (honly : ∀ w ∈ words, c ∈ w → w = [c]) (s : List α) :
    trim words (dropLastOf c s) = trim words s := by
  unfold dropLastOf
  split
  next hlast =>
    obtain ⟨init, rfl⟩ := List.getLast?_eq_some_iff.mp hlast
    rw [List.dropLast_concat, trim_concat h hc honly]
  next => rfl

end Scanning

end HsmSecretsOperator.Foundation.Lines
