/- source: none
   digest: Maps filled by assigning the entries of a list one after the other. -/

import Mathlib.Data.List.Induction
import Mathlib.Data.List.Sort

set_option autoImplicit false

namespace HsmSecretsOperator.Foundation.Maps

open Std (ExtTreeMap TransCmp LawfulEqCmp)

variable {ι α β : Type} {cmp : α → α → Ordering} [TransCmp cmp]

/-- The map after `m[key x] = val x` for every `x` of a list in turn. -/
def assign (m : ExtTreeMap α β cmp) (key : ι → α) (val : ι → β) (xs : List ι) :
    ExtTreeMap α β cmp :=
  xs.foldl (fun m x => m.insert (key x) (val x)) m

@[simp] theorem assign_nil (m : ExtTreeMap α β cmp) (key : ι → α) (val : ι → β) :
    assign m key val [] = m := rfl

@[simp] theorem assign_cons (m : ExtTreeMap α β cmp) (key : ι → α) (val : ι → β) (x : ι)
    (xs : List ι) : assign m key val (x :: xs) = assign (m.insert (key x) (val x)) key val xs := rfl

variable [LawfulEqCmp cmp]

theorem assign_replicate (m : ExtTreeMap α β cmp) (key : ι → α) (val : ι → β) (x : ι) (n : Nat) :
    assign m key val (List.replicate (n + 1) x) = m.insert (key x) (val x) := by
  induction n generalizing m with
  | zero => rfl
  | succ n ih =>
    rw [List.replicate_succ, assign_cons, ih]
    refine ExtTreeMap.ext_getElem? fun a => ?_
    simp only [ExtTreeMap.getElem?_insert]
    split <;> rfl

theorem getElem?_insert_of_ne (m : ExtTreeMap α β cmp) {k a : α} (h : k ≠ a) (v : β) :
    (m.insert k v)[a]? = m[a]? := by
  rw [ExtTreeMap.getElem?_insert, if_neg fun he => h (LawfulEqCmp.compare_eq_iff_eq.mp he)]

variable {m t : ExtTreeMap α β cmp} {xs : List ι} {key : ι → α} {val : ι → β}
  {k : α} {v : β}

theorem of_getElem?_insert {k a : α} {v w : β}
    (h : (m.insert k v)[a]? = some w) : (k = a ∧ v = w) ∨ m[a]? = some w := by
  by_cases heq : k = a
  · subst heq
    rw [ExtTreeMap.getElem?_insert_self] at h
    exact .inl ⟨rfl, Option.some.inj h⟩
  · rw [getElem?_insert_of_ne m heq] at h
    exact .inr h

theorem getElem?_erase_of_ne (m : ExtTreeMap α β cmp) {k a : α} (h : k ≠ a) :
    (m.erase k)[a]? = m[a]? := by
  rw [ExtTreeMap.getElem?_erase, if_neg fun he => h (LawfulEqCmp.compare_eq_iff_eq.mp he)]

omit [LawfulEqCmp cmp] in
theorem of_getElem?_erase {k a : α} {w : β} (h : (m.erase k)[a]? = some w) : m[a]? = some w := by
  rw [ExtTreeMap.getElem?_erase] at h
  split at h
  · cases h
  · exact h

theorem getElem?_foldl_erase [DecidableEq α] (m : ExtTreeMap α β cmp) (ks : List α) (a : α) :
    (ks.foldl (fun m k => m.erase k) m)[a]? = if a ∈ ks then none else m[a]? := by
  induction ks generalizing m with
  | nil => simp
  | cons k ks ih =>
    rw [List.foldl_cons, ih]
    by_cases hks : a ∈ ks
    · rw [if_pos hks, if_pos (List.mem_cons_of_mem k hks)]
    rw [if_neg hks]
    by_cases hk : k = a
    · subst hk
      rw [if_pos List.mem_cons_self, ExtTreeMap.getElem?_erase_self]
    · rw [getElem?_erase_of_ne m hk, if_neg]
      exact fun hmem => (List.mem_cons.mp hmem).elim (fun heq => hk heq.symm) hks

theorem of_getElem?_foldl_erase [DecidableEq α] {ks : List α} {a : α}
    {w : β} (h : (ks.foldl (fun m k => m.erase k) m)[a]? = some w) : m[a]? = some w := by
  rw [getElem?_foldl_erase] at h
  split at h
  · cases h
  · exact h

theorem getElem?_assign_of_forall_ne (m : ExtTreeMap α β cmp) (key : ι → α) (val : ι → β)
    (h : ∀ x ∈ xs, key x ≠ k) : (assign m key val xs)[k]? = m[k]? := by
  induction xs generalizing m with
  | nil => rfl
  | cons x xs ih =>
    rw [assign_cons, ih _ fun y hy => h y (List.mem_cons_of_mem x hy),
      getElem?_insert_of_ne m (h x List.mem_cons_self)]

theorem assign_eq_assign_iff {m n : ExtTreeMap α β cmp} :
    assign m key val xs = assign n key val xs ↔
      ∀ k, (∀ x ∈ xs, key x ≠ k) → m[k]? = n[k]? := by
  constructor
  · intro h k hk
    rw [← getElem?_assign_of_forall_ne m key val hk, h, getElem?_assign_of_forall_ne n key val hk]
  · intro h
    induction xs generalizing m n with
    | nil => exact ExtTreeMap.ext_getElem? fun k => h k fun x hx => absurd hx List.not_mem_nil
    | cons x xs ih =>
      rw [assign_cons, assign_cons]
      refine ih fun k hk => ?_
      by_cases hx : key x = k
      · subst hx
        rw [ExtTreeMap.getElem?_insert_self, ExtTreeMap.getElem?_insert_self]
      · rw [getElem?_insert_of_ne m hx, getElem?_insert_of_ne n hx]
        exact h k (List.forall_mem_cons.mpr ⟨hx, hk⟩)

-- The induction carries that the key holds the value already or is still to be assigned.
private theorem getElem?_assign_of_pending (m : ExtTreeMap α β cmp) (key : ι → α) (val : ι → β)
    (hval : ∀ y ∈ xs, key y = k → val y = v)
    (h : m[k]? = some v ∨ ∃ x ∈ xs, key x = k) : (assign m key val xs)[k]? = some v := by
  induction xs generalizing m with
  | nil => exact h.resolve_right fun ⟨_, hx, _⟩ => List.not_mem_nil hx
  | cons y ys ih =>
    refine ih _ (fun z hz => hval z (List.mem_cons_of_mem y hz)) ?_
    by_cases hy : key y = k
    · left
      rw [← hy, ExtTreeMap.getElem?_insert_self, hval y List.mem_cons_self hy]
    · rcases h with h | ⟨x, hx, hk⟩
      · left
        rw [getElem?_insert_of_ne m hy, h]
      · right
        rcases List.mem_cons.mp hx with rfl | hx
        · exact absurd hk hy
        · exact ⟨x, hx, hk⟩

/-- A key that is only ever assigned one value holds it. -/
theorem getElem?_assign_of_mem (m : ExtTreeMap α β cmp) (key : ι → α) (val : ι → β) {x : ι}
    (hx : x ∈ xs) (h : ∀ y ∈ xs, key y = key x → val y = v) :
    (assign m key val xs)[key x]? = some v :=
  getElem?_assign_of_pending m key val h (.inr ⟨x, hx, rfl⟩)

theorem of_getElem?_assign (h : (assign m key val xs)[k]? = some v) :
    m[k]? = some v ∨ ∃ x ∈ xs, key x = k ∧ val x = v := by
  induction xs generalizing m with
  | nil => exact .inl h
  | cons y ys ih =>
    rcases ih h with h | ⟨x, hx, hxk, hxv⟩
    · rcases of_getElem?_insert h with ⟨hy, hval⟩ | h
      · exact .inr ⟨y, List.mem_cons_self, hy, hval⟩
      · exact .inl h
    · exact .inr ⟨x, List.mem_cons_of_mem y hx, hxk, hxv⟩

theorem mem_assign : k ∈ assign m key val xs ↔ k ∈ m ∨ ∃ x ∈ xs, key x = k := by
  induction xs generalizing m with
  | nil => simp
  | cons x xs ih =>
    rw [assign_cons, ih, ExtTreeMap.mem_insert, LawfulEqCmp.compare_eq_iff_eq]
    simp only [List.mem_cons, exists_eq_or_imp]
    rw [or_comm (a := key x = k), or_assoc]

theorem assign_eq_empty_iff : assign (∅ : ExtTreeMap α β cmp) key val xs = ∅ ↔ xs = [] := by
  constructor
  · intro h
    by_contra hne
    obtain ⟨x, hx⟩ := List.exists_mem_of_ne_nil xs hne
    have hmem : key x ∈ assign (∅ : ExtTreeMap α β cmp) key val xs :=
      mem_assign.mpr (.inr ⟨x, hx, rfl⟩)
    rw [h] at hmem
    exact absurd hmem ExtTreeMap.not_mem_empty
  · rintro rfl
    rfl

theorem assign_filter_ne [DecidableEq α] (m : ExtTreeMap α β cmp) (key : ι → α) (val : ι → β)
    (xs : List ι) (k : α) :
    assign (m.erase k) key val (xs.filter fun x => key x ≠ k) = (assign m key val xs).erase k := by
  induction xs generalizing m with
  | nil => rfl
  | cons x xs ih =>
    rw [assign_cons, ← ih]
    by_cases hx : key x = k
    · rw [List.filter_cons_of_neg (by simpa using hx)]
      congr 1
      refine ExtTreeMap.ext_getElem? fun a => ?_
      simp only [ExtTreeMap.getElem?_erase, ExtTreeMap.getElem?_insert, hx]
      split <;> rfl
    · rw [List.filter_cons_of_pos (by simpa using hx), assign_cons]
      congr 1
      refine ExtTreeMap.ext_getElem? fun a => ?_
      by_cases ha : a = k
      · subst ha
        rw [getElem?_insert_of_ne _ hx, ExtTreeMap.getElem?_erase_self,
          ExtTreeMap.getElem?_erase_self]
      · rw [getElem?_erase_of_ne _ (Ne.symm ha), ExtTreeMap.getElem?_insert,
          ExtTreeMap.getElem?_insert, getElem?_erase_of_ne _ (Ne.symm ha)]

omit [LawfulEqCmp cmp] in
theorem mem_of_getElem? (h : t[k]? = some v) : k ∈ t := by
  rw [ExtTreeMap.mem_iff_isSome_getElem?, h, Option.isSome_some]

omit [LawfulEqCmp cmp] in
theorem exists_getElem?_of_mem (h : k ∈ t) : ∃ v, t[k]? = some v := by
  rw [ExtTreeMap.mem_iff_isSome_getElem?] at h
  exact Option.isSome_iff_exists.mp h

theorem mem_of_mem_toList {e : α × β} (h : e ∈ t.toList) : e.1 ∈ t :=
  mem_of_getElem? (ExtTreeMap.mem_toList_iff_getElem?_eq_some.mp h)

omit [LawfulEqCmp cmp] in
theorem nodup_map_fst_toList (t : ExtTreeMap α β cmp) : (t.toList.map Prod.fst).Nodup := by
  rw [ExtTreeMap.map_fst_toList_eq_keys]
  exact ExtTreeMap.nodup_keys

theorem assign_of_mem_iff (t : ExtTreeMap α β cmp) {xs : List (α × β)}
    (h : ∀ e, e ∈ xs ↔ t[e.1]? = some e.2) : assign ∅ Prod.fst Prod.snd xs = t := by
  refine ExtTreeMap.ext_getElem? fun k => ?_
  cases hk : t[k]? with
  | none =>
    rw [getElem?_assign_of_forall_ne]
    · simp
    · rintro e he rfl
      exact absurd ((h e).mp he) (by rw [hk]; simp)
  | some v =>
    have hmem : (k, v) ∈ xs := (h (k, v)).mpr hk
    refine getElem?_assign_of_mem ∅ Prod.fst Prod.snd hmem fun e he heq => ?_
    have hentry := (h e).mp he
    rw [show e.1 = k from heq, hk] at hentry
    exact (Option.some.inj hentry).symm

theorem assign_of_perm_toList (t : ExtTreeMap α β cmp) {xs : List (α × β)}
    (h : xs.Perm t.toList) : assign ∅ Prod.fst Prod.snd xs = t :=
  assign_of_mem_iff t fun _ => h.mem_iff.trans ExtTreeMap.mem_toList_iff_getElem?_eq_some

/-- Entries with distinct keys may come in any order. -/
theorem assign_of_perm {xs ys : List (α × β)} (h : ys.Perm xs) (hkeys : (xs.map Prod.fst).Nodup) :
    (assign ∅ Prod.fst Prod.snd ys : ExtTreeMap α β cmp) = assign ∅ Prod.fst Prod.snd xs := by
  refine assign_of_mem_iff _ fun e => ?_
  rw [h.mem_iff]
  constructor
  · intro he
    exact getElem?_assign_of_mem ∅ Prod.fst Prod.snd he fun e' he' heq =>
      congrArg Prod.snd (List.inj_on_of_nodup_map hkeys he' he heq)
  · intro hget
    rcases of_getElem?_assign hget with hempty | ⟨x, hx, hkey, hvalue⟩
    · simp at hempty
    · obtain rfl : x = e := Prod.ext hkey hvalue
      exact hx

theorem mem_toList_assign_id {f : α → β} {xs : List α} {e : α × β} :
    e ∈ (assign (∅ : ExtTreeMap α β cmp) id f xs).toList ↔ e.1 ∈ xs ∧ e.2 = f e.1 := by
  rw [ExtTreeMap.mem_toList_iff_getElem?_eq_some]
  constructor
  · intro h
    by_cases hmem : e.1 ∈ xs
    · have hget := getElem?_assign_of_mem (∅ : ExtTreeMap α β cmp) id f hmem (v := f e.1)
        fun y _ hy => congrArg f hy
      exact ⟨hmem, Option.some.inj (h.symm.trans hget)⟩
    · have hother : ∀ y ∈ xs, id y ≠ e.1 := fun y hy heq => hmem (heq ▸ hy)
      rw [getElem?_assign_of_forall_ne _ _ _ hother] at h
      simp at h
  · rintro ⟨hmem, hval⟩
    rw [hval]
    exact getElem?_assign_of_mem (∅ : ExtTreeMap α β cmp) id f hmem fun y _ hy => congrArg f hy

theorem toList_assign_id_perm (f : α → β) {xs : List α} (h : xs.Nodup) :
    (assign (∅ : ExtTreeMap α β cmp) id f xs).toList.Perm (xs.map fun x => (x, f x)) := by
  have hkeys : (assign (∅ : ExtTreeMap α β cmp) id f xs).toList.Nodup := by
    have hdistinct := ExtTreeMap.distinct_keys_toList (t := assign (∅ : ExtTreeMap α β cmp) id f xs)
    refine hdistinct.imp fun hne heq => hne ?_
    rw [heq]
    exact Std.ReflCmp.compare_self
  rw [List.perm_ext_iff_of_nodup hkeys
    (h.map fun x y heq => congrArg Prod.fst heq)]
  intro e
  rw [mem_toList_assign_id, List.mem_map]
  constructor
  · rintro ⟨hmem, hval⟩
    exact ⟨e.1, hmem, Prod.ext rfl hval.symm⟩
  · rintro ⟨x, hx, rfl⟩
    exact ⟨hx, rfl⟩

theorem map_eq_self_iff {f : β → β} :
    (t.map fun _ v => f v) = t ↔ ∀ (k : α) v, t[k]? = some v → f v = v := by
  constructor
  · intro h k v hv
    have hk := congrArg (fun m : ExtTreeMap α β cmp => m[k]?) h
    simp only [ExtTreeMap.getElem?_map, hv, Option.map_some, Option.some.injEq] at hk
    exact hk
  · intro h
    refine ExtTreeMap.ext_getElem? fun k => ?_
    rw [ExtTreeMap.getElem?_map]
    cases hv : t[k]? with
    | none => rfl
    | some v => rw [Option.map_some, h k v hv]

section Translate

variable {α' β' : Type} {cmp' : α' → α' → Ordering} [TransCmp cmp'] [LawfulEqCmp cmp']

/-- The entries of a map under other keys and with other values; where keys fall together, the last
entry stays. -/
def translate (cmp' : α' → α' → Ordering) [TransCmp cmp'] (f : α → α') (g : β → β')
    (t : ExtTreeMap α β cmp) : ExtTreeMap α' β' cmp' :=
  assign ∅ (fun e => f e.1) (fun e => g e.2) t.toList

variable {f : α → α'}

theorem mem_translate {g : β → β'} {k : α'} : k ∈ translate cmp' f g t ↔ ∃ a ∈ t, f a = k := by
  rw [translate, mem_assign]
  constructor
  · rintro (h | ⟨e, he, rfl⟩)
    · exact absurd h ExtTreeMap.not_mem_empty
    · exact ⟨e.1, mem_of_mem_toList he, rfl⟩
  · rintro ⟨a, ha, rfl⟩
    obtain ⟨v, hv⟩ := exists_getElem?_of_mem ha
    exact .inr ⟨(a, v), ExtTreeMap.mem_toList_iff_getElem?_eq_some.mpr hv, rfl⟩

theorem of_getElem?_translate {g : β → β'} {k : α'} {w : β'}
    (h : (translate cmp' f g t)[k]? = some w) : ∃ a v, t[a]? = some v ∧ f a = k ∧ g v = w := by
  rcases of_getElem?_assign h with h | ⟨e, he, hkey, hval⟩
  · simp at h
  · exact ⟨e.1, e.2, ExtTreeMap.mem_toList_iff_getElem?_eq_some.mp he, hkey, hval⟩

theorem getElem?_translate (f : α → α') (g : β → β') {a : α} {v : β}
    (h : t[a]? = some v) (halone : ∀ b ∈ t, f b = f a → b = a) :
    (translate cmp' f g t)[f a]? = some (g v) := by
  have hmem : (a, v) ∈ t.toList := ExtTreeMap.mem_toList_iff_getElem?_eq_some.mpr h
  refine getElem?_assign_of_mem (∅ : ExtTreeMap α' β' cmp') (fun e => f e.1) (fun e => g e.2) hmem
    fun e he heq => ?_
  have hentry := ExtTreeMap.mem_toList_iff_getElem?_eq_some.mp he
  rw [halone e.1 (mem_of_mem_toList he) heq, h] at hentry
  rw [Option.some.inj hentry]

omit [LawfulEqCmp cmp] in
theorem map_translate {γ : Type} (f : α → α') (g : β → β') (h : β' → γ) (t : ExtTreeMap α β cmp) :
    (translate cmp' f g t).map (fun _ v => h v) = translate cmp' f (fun v => h (g v)) t := by
  have hassign : ∀ (xs : List (α × β)) (m : ExtTreeMap α' β' cmp'),
      (assign m (fun e => f e.1) (fun e => g e.2) xs).map (fun _ v => h v) =
        assign (m.map fun _ v => h v) (fun e => f e.1) (fun e => h (g e.2)) xs := by
    intro xs
    induction xs with
    | nil => exact fun m => rfl
    | cons e xs ih =>
      intro m
      rw [assign_cons, assign_cons, ih]
      congr 1
      refine ExtTreeMap.ext_getElem? fun k => ?_
      rw [ExtTreeMap.getElem?_map, ExtTreeMap.getElem?_insert, ExtTreeMap.getElem?_insert,
        ExtTreeMap.getElem?_map]
      split <;> rfl
  exact hassign t.toList ∅

theorem getElem?_translate_of_injective (hf : Function.Injective f) (g : β → β')
    (t : ExtTreeMap α β cmp) (a : α) : (translate cmp' f g t)[f a]? = t[a]?.map g := by
  cases h : t[a]? with
  | some v => exact getElem?_translate f g h fun b _ heq => hf heq
  | none =>
    rw [translate, getElem?_assign_of_forall_ne]
    · simp
    · intro e he heq
      have hentry := ExtTreeMap.mem_toList_iff_getElem?_eq_some.mp he
      rw [hf heq, h] at hentry
      cases hentry

end Translate

section Positions

/-- For each key the last place of the list that has it among its keys. -/
def positions (cmp : α → α → Ordering) [TransCmp cmp] (keys : ι → List α) (xs : List ι) :
    ExtTreeMap α Nat cmp :=
  xs.zipIdx.foldl (fun m entry => assign m id (fun _ => entry.2) (keys entry.1)) ∅

omit [LawfulEqCmp cmp] in
theorem positions_concat (keys : ι → List α) (xs : List ι) (x : ι) :
    positions cmp keys (xs ++ [x]) =
      assign (positions cmp keys xs) id (fun _ => xs.length) (keys x) := by
  simp [positions, List.zipIdx_append]

theorem getElem?_positions_concat [DecidableEq α] (keys : ι → List α) (xs : List ι) (x : ι)
    (k : α) : (positions cmp keys (xs ++ [x]))[k]? =
      if k ∈ keys x then some xs.length else (positions cmp keys xs)[k]? := by
  rw [positions_concat]
  split
  next hk => exact getElem?_assign_of_mem _ id (fun _ => xs.length) hk fun _ _ _ => rfl
  next hk => exact getElem?_assign_of_forall_ne _ id _ fun y hy heq => hk (heq ▸ hy)

/-- The place of a key has the key, and no later place has it. -/
theorem getElem?_positions [DecidableEq α] {keys : ι → List α} {xs : List ι} {k : α} {i : Nat}
    (h : (positions cmp keys xs)[k]? = some i) :
    (∃ x, xs[i]? = some x ∧ k ∈ keys x) ∧ ∀ j x, i < j → xs[j]? = some x → k ∉ keys x := by
  induction xs using List.reverseRecOn with
  | nil => simp [positions] at h
  | append_singleton xs y ih =>
    rw [getElem?_positions_concat] at h
    split at h
    next hk =>
      obtain rfl := Option.some.inj h
      refine ⟨⟨y, List.getElem?_concat_length, hk⟩, fun j x hj hx => ?_⟩
      rw [List.getElem?_eq_none (by rw [List.length_append]; exact hj)] at hx
      cases hx
    next hk =>
      obtain ⟨⟨x, hx, hkx⟩, hlater⟩ := ih h
      have hlt : i < xs.length := (List.getElem?_eq_some_iff.mp hx).1
      refine ⟨⟨x, by rw [List.getElem?_append_left hlt, hx], hkx⟩, fun j z hj hz => ?_⟩
      by_cases hj' : j < xs.length
      · rw [List.getElem?_append_left hj'] at hz
        exact hlater j z hj hz
      · rw [List.getElem?_append_right (not_lt.mp hj')] at hz
        obtain rfl := List.mem_singleton.mp (List.mem_of_getElem? hz)
        exact hk

theorem mem_positions [DecidableEq α] {keys : ι → List α} {xs : List ι} {k : α} :
    k ∈ positions cmp keys xs ↔ ∃ x ∈ xs, k ∈ keys x := by
  induction xs using List.reverseRecOn with
  | nil => simp [positions]
  | append_singleton xs y ih =>
    rw [positions_concat, mem_assign, ih]
    simp [or_and_right, exists_or]

end Positions

end HsmSecretsOperator.Foundation.Maps
