/- source: none
   digest: Programs that call a shared service, on their own and interleaved with others. -/

import HsmSecretsOperator.Foundation.Runs

/-! What a caller may assume of the others is a relation between the states before and after them,
and what it must keep to is the same relation. -/

set_option autoImplicit false

namespace HsmSecretsOperator.Foundation.Calls

open Runs

variable {ρ β α γ σ ε : Type}

inductive Program (ρ β α : Type) : Type where
  | done (result : α) : Program ρ β α
  | call (request : ρ) (next : β → Program ρ β α) : Program ρ β α

namespace Program

def bind : Program ρ β α → (α → Program ρ β γ) → Program ρ β γ
  | done result, f => f result
  | call request next, f => call request fun answer => bind (next answer) f

/-- The program on its own. A call for which no circumstances are given meets the usual ones. -/
def exec (serve : σ → ε → ρ → σ × β) (usual : ε) : Program ρ β α → σ → List ε → α × σ
  | done result, s, _ => (result, s)
  | call request next, s, circumstances =>
    let (s', answer) := serve s (circumstances.headD usual) request
    exec serve usual (next answer) s' circumstances.tail

/-- The calls that the program makes on its own. -/
def requests (serve : σ → ε → ρ → σ × β) (usual : ε) : Program ρ β α → σ → List ε → List ρ
  | done _, _, _ => []
  | call request next, s, circumstances =>
    let (s', answer) := serve s (circumstances.headD usual) request
    request :: requests serve usual (next answer) s' circumstances.tail

/-- The program can end in the result and the state. -/
inductive Ends (serve : σ → ε → ρ → σ × β) : Program ρ β α → σ → α → σ → Prop where
  | done (result : α) (s : σ) : Ends serve (.done result) s result s
  | call {request : ρ} {next : β → Program ρ β α} {s s' : σ} {result : α} (e : ε)
      (h : Ends serve (next (serve s e request).2) (serve s e request).1 result s') :
      Ends serve (.call request next) s result s'

variable {serve : σ → ε → ρ → σ × β} {s s' : σ}

@[simp] theorem exec_done (usual : ε) (result : α) (s : σ) (circumstances : List ε) :
    exec serve usual (.done result : Program ρ β α) s circumstances = (result, s) := rfl

theorem exec_call (usual : ε) (request : ρ) (next : β → Program ρ β α) (s : σ)
    (circumstances : List ε) : exec serve usual (.call request next) s circumstances =
      exec serve usual (next (serve s (circumstances.headD usual) request).2)
        (serve s (circumstances.headD usual) request).1 circumstances.tail := rfl

theorem exec_call_cons (usual e : ε) (request : ρ) (next : β → Program ρ β α) (s : σ)
    (circumstances : List ε) : exec serve usual (.call request next) s (e :: circumstances) =
      exec serve usual (next (serve s e request).2) (serve s e request).1 circumstances := rfl

theorem exec_call_nil (usual : ε) (request : ρ) (next : β → Program ρ β α) (s : σ) :
    exec serve usual (.call request next) s [] =
      exec serve usual (next (serve s usual request).2) (serve s usual request).1 [] := rfl

theorem ends_exec (usual : ε) (p : Program ρ β α) (s : σ) (circumstances : List ε) :
    Ends serve p s (exec serve usual p s circumstances).1
      (exec serve usual p s circumstances).2 := by
  induction p generalizing s circumstances with
  | done result => exact .done result s
  | call request next ih => exact .call (circumstances.headD usual) (ih _ _ _)

variable {p : Program ρ β α}

theorem Ends.exists_exec (usual : ε) {result : α} (h : Ends serve p s result s') :
    ∃ circumstances, exec serve usual p s circumstances = (result, s') := by
  induction h with
  | done result s => exact ⟨[], rfl⟩
  | call e _ ih =>
    obtain ⟨circumstances, hexec⟩ := ih
    exact ⟨e :: circumstances, hexec⟩

theorem Ends.of_done {result result' : α} (h : Ends serve (.done result) s result' s') :
    result' = result ∧ s' = s := by
  cases h
  exact ⟨rfl, rfl⟩

theorem Ends.of_call {request : ρ} {next : β → Program ρ β α} {result : α}
    (h : Ends serve (.call request next) s result s') :
    ∃ e, Ends serve (next (serve s e request).2) (serve s e request).1 result s' := by
  cases h with
  | call e h => exact ⟨e, h⟩

theorem Ends.bind {f : α → Program ρ β γ} {a : α} {t : σ} {result : γ}
    (h : Ends serve p s a t) (hf : Ends serve (f a) t result s') :
    Ends serve (p.bind f) s result s' := by
  induction h with
  | done a s => exact hf
  | call e _ ih => exact .call e (ih hf)

theorem Ends.of_bind {f : α → Program ρ β γ} {result : γ} (h : Ends serve (p.bind f) s result s') :
    ∃ a t, Ends serve p s a t ∧ Ends serve (f a) t result s' := by
  induction p generalizing s with
  | done a => exact ⟨a, s, .done a s, h⟩
  | call request next ih =>
    obtain ⟨e, h⟩ := h.of_call
    obtain ⟨a, t, hp, hf⟩ := ih _ h
    exact ⟨a, t, .call e hp, hf⟩

/-- The second program goes on with what is left of the circumstances. -/
theorem exec_bind (usual : ε) (p : Program ρ β α) (f : α → Program ρ β γ) (s : σ)
    (circumstances : List ε) : ∃ n, exec serve usual (p.bind f) s circumstances =
      exec serve usual (f (exec serve usual p s circumstances).1)
        (exec serve usual p s circumstances).2 (circumstances.drop n) := by
  induction p generalizing s circumstances with
  | done a => exact ⟨0, rfl⟩
  | call request next ih =>
    obtain ⟨n, hexec⟩ := ih (serve s (circumstances.headD usual) request).2
      (serve s (circumstances.headD usual) request).1 circumstances.tail
    refine ⟨n + 1, ?_⟩
    rw [bind, exec_call, hexec, List.drop_tail]
    rfl

theorem exec_bind_nil (usual : ε) (p : Program ρ β α) (f : α → Program ρ β γ) (s : σ) :
    exec serve usual (p.bind f) s [] =
      exec serve usual (f (exec serve usual p s []).1) (exec serve usual p s []).2 [] := by
  obtain ⟨n, hexec⟩ := exec_bind usual p f s []
  rw [hexec, List.drop_nil]

theorem requests_call_nil (usual : ε) (request : ρ) (next : β → Program ρ β α) (s : σ) :
    requests serve usual (.call request next) s [] =
      request :: requests serve usual (next (serve s usual request).2)
        (serve s usual request).1 [] := rfl

theorem requests_bind_nil (usual : ε) (p : Program ρ β α) (f : α → Program ρ β γ) (s : σ) :
    requests serve usual (p.bind f) s [] = requests serve usual p s [] ++
      requests serve usual (f (exec serve usual p s []).1) (exec serve usual p s []).2 [] := by
  induction p generalizing s with
  | done a => rfl
  | call request next ih =>
    rw [bind, requests_call_nil, ih, requests_call_nil, exec_call_nil, List.cons_append]

theorem exec_bind_done (usual : ε) (p : Program ρ β α) (f : α → γ) (s : σ)
    (circumstances : List ε) :
    exec serve usual (p.bind fun a => .done (f a)) s circumstances =
      (f (exec serve usual p s circumstances).1, (exec serve usual p s circumstances).2) := by
  obtain ⟨n, hexec⟩ := exec_bind (ρ := ρ) usual p (fun a => .done (f a)) s circumstances
  exact hexec

/-- Between its calls the others take the state from one that satisfies the invariant to another
such one, as the relation allows; each call of the program does the same, and at the end the result
is right for the state, however the others go on. -/
def Sound (serve : σ → ε → ρ → σ × β) (Inv : σ → Prop) (Allowed : σ → σ → Prop)
    (Post : α → σ → Prop) : Program ρ β α → σ → Prop
  | done result, s => ∀ t, Allowed s t → Inv t → Post result t
  | call request next, s => ∀ t, Allowed s t → Inv t → ∀ e,
      Inv (serve t e request).1 ∧ Allowed t (serve t e request).1 ∧
        Sound serve Inv Allowed Post (next (serve t e request).2) (serve t e request).1

/-- The relation can be that of any number of others, none included. -/
structure Interference (Allowed : σ → σ → Prop) : Prop where
  refl : ∀ s, Allowed s s
  trans : ∀ {s t u}, Allowed s t → Allowed t u → Allowed s u

variable {Inv : σ → Prop} {Allowed : σ → σ → Prop} {Post : α → σ → Prop}

theorem Sound.later (hrel : Interference Allowed)
    (h : Sound serve Inv Allowed Post p s) (hs : Allowed s s') :
    Sound serve Inv Allowed Post p s' := by
  cases p with
  | done result => exact fun t ht => h t (hrel.trans hs ht)
  | call request next => exact fun t ht => h t (hrel.trans hs ht)

theorem Sound.of_forall_later (hrel : Interference Allowed)
    (h : ∀ t, Allowed s t → Inv t → Sound serve Inv Allowed Post p t) :
    Sound serve Inv Allowed Post p s := by
  cases p with
  | done result => exact fun t ht hinv => h t ht hinv t (hrel.refl t) hinv
  | call request next => exact fun t ht hinv => h t ht hinv t (hrel.refl t) hinv

theorem Sound.bind (hrel : Interference Allowed) {Mid : γ → σ → Prop} {p : Program ρ β γ}
    {f : γ → Program ρ β α} (h : Sound serve Inv Allowed Mid p s)
    (hf : ∀ a t, Inv t → Mid a t → Sound serve Inv Allowed Post (f a) t) :
    Sound serve Inv Allowed Post (p.bind f) s := by
  induction p generalizing s with
  | done a => exact .of_forall_later hrel fun t ht hinv => hf a t hinv (h t ht hinv)
  | call request next ih =>
    intro t ht hinv e
    obtain ⟨hinv', hallowed, hnext⟩ := h t ht hinv e
    exact ⟨hinv', hallowed, ih _ hnext⟩

/-- All calls of the program are of a kind. -/
def Only (P : ρ → Prop) : Program ρ β α → Prop
  | done _ => True
  | call request next => P request ∧ ∀ answer, Only P (next answer)

end Program

/-- The service and those who call it, each at the point that it has reached. -/
structure World (ρ β α σ : Type) where
  service : σ
  callers : List (Program ρ β α)

/-- The next call of the caller of a number is answered; one that has ended stays as it is. -/
def answer (serve : σ → ε → ρ → σ × β) (w : World ρ β α σ) (turn : Nat × ε) : World ρ β α σ :=
  match w.callers[turn.1]? with
  | some (.call request next) =>
    let (s', reply) := serve w.service turn.2 request
    { service := s', callers := w.callers.set turn.1 (next reply) }
  | some (.done _) | none => w

section Interleaving

open Program

/-- The next call of the caller, if it has one. -/
def World.request (w : World ρ β α σ) (caller : Nat) : Option ρ :=
  match w.callers[caller]? with
  | some (.call request _) => some request
  | some (.done _) | none => none

variable {serve : σ → ε → ρ → σ × β} {Inv : σ → Prop} {Allowed : σ → σ → Prop}
  {Post : α → σ → Prop}

theorem service_answer (w : World ρ β α σ) (turn : Nat × ε) :
    (answer serve w turn).service =
      match w.request turn.1 with
      | some request => (serve w.service turn.2 request).1
      | none => w.service := by
  unfold answer World.request
  split
  · rfl
  · rfl
  · rfl

variable {w : World ρ β α σ}

/-- What every call keeps, every interleaving keeps. -/
theorem service_run (P : σ → Prop) (hserve : ∀ s e request, P s → P (serve s e request).1)
    (h : P w.service) (turns : List (Nat × ε)) :
    P (run (answer serve) w turns).service := by
  induction turns generalizing w with
  | nil => exact h
  | cons turn turns ih =>
    apply ih
    rw [service_answer]
    split
    · exact hserve _ _ _ h
    · exact h

theorem only_answer {P : ρ → Prop} (h : ∀ p ∈ w.callers, Only P p)
    (turn : Nat × ε) : ∀ p ∈ (answer serve w turn).callers, Only P p := by
  unfold answer
  split
  next request next hcaller =>
    intro p hp
    rcases List.mem_or_eq_of_mem_set hp with hp | rfl
    · exact h p hp
    · exact (h _ (List.mem_of_getElem? hcaller)).2 _
  · exact h
  · exact h

theorem Only.of_request {P : ρ → Prop} (h : ∀ p ∈ w.callers, Only P p)
    {caller : Nat} {request : ρ} (hrequest : w.request caller = some request) : P request := by
  unfold World.request at hrequest
  split at hrequest
  next hcaller =>
    obtain rfl := Option.some.inj hrequest
    exact (h _ (List.mem_of_getElem? hcaller)).1
  · cases hrequest
  · cases hrequest

/-- All callers are sound from the present state on. -/
structure AllSound (serve : σ → ε → ρ → σ × β) (Inv : σ → Prop) (Allowed : σ → σ → Prop)
    (Post : α → σ → Prop) (w : World ρ β α σ) : Prop where
  invariant : Inv w.service
  callers : ∀ p ∈ w.callers, Sound serve Inv Allowed Post p w.service

theorem AllSound.answer (hrel : Interference Allowed)
    (h : AllSound serve Inv Allowed Post w) (turn : Nat × ε) :
    AllSound serve Inv Allowed Post (answer serve w turn) ∧
      Allowed w.service (Calls.answer serve w turn).service := by
  unfold Calls.answer
  split
  next request next hcaller =>
    have hsound := h.callers _ (List.mem_of_getElem? hcaller)
    obtain ⟨hinv, hallowed, hnext⟩ := hsound w.service (hrel.refl _) h.invariant turn.2
    refine ⟨⟨hinv, fun p hp => ?_⟩, hallowed⟩
    rcases List.mem_or_eq_of_mem_set hp with hp | rfl
    · exact (h.callers p hp).later hrel hallowed
    · exact hnext
  · exact ⟨h, hrel.refl _⟩
  · exact ⟨h, hrel.refl _⟩

/-- In every interleaving all callers stay sound, and the state moves as the relation allows. -/
theorem AllSound.run (hrel : Interference Allowed)
    (h : AllSound serve Inv Allowed Post w) (turns : List (Nat × ε)) :
    AllSound serve Inv Allowed Post (run (Calls.answer serve) w turns) ∧
      Allowed w.service (run (Calls.answer serve) w turns).service := by
  induction turns generalizing w with
  | nil => exact ⟨h, hrel.refl _⟩
  | cons turn turns ih =>
    obtain ⟨hsound, hallowed⟩ := h.answer hrel turn
    obtain ⟨hrun, hrest⟩ := ih hsound
    exact ⟨hrun, hrel.trans hallowed hrest⟩

/-- A caller that has ended has a result that is right for the present state. -/
theorem AllSound.post (hrel : Interference Allowed)
    (h : AllSound serve Inv Allowed Post w) {result : α} (hdone : .done result ∈ w.callers) :
    Post result w.service :=
  h.callers _ hdone w.service (hrel.refl _) h.invariant

end Interleaving

end HsmSecretsOperator.Foundation.Calls
