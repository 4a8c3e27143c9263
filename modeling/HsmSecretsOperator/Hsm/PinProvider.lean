/- source: internal/hsm/pin_provider.go
   digest: The PIN cache of an agent, shared by calls that interleave at the ends of its locks. -/

import HsmSecretsOperator.Foundation.Calls

set_option autoImplicit false

namespace HsmSecretsOperator.Hsm.PinProvider

open Foundation.Calls Foundation.Runs Program

structure PinSecretRef where
  name : String
  key : String

/-- What the API server answers to a fetch: the `pinSecret` of the HSMDevice, and the Secrets. -/
structure Answers where
  device : Except String (Option PinSecretRef)
  secret : String → Except String (String → Option String)

structure Provider where
  deviceName : String
  ns : String

/-- The part of `GetPIN` that asks the API server. -/
def Provider.fetch (p : Provider) (a : Answers) : Except String String :=
  match a.device with
  | .error e => .error s!"failed to get HSMDevice {p.ns}/{p.deviceName}: {e}"
  | .ok none => .error s!"HSMDevice {p.ns}/{p.deviceName} has no pinSecret configured"
  | .ok (some ref) =>
    if ref.name = "" ∨ ref.key = "" then
      .error s!"HSMDevice {p.ns}/{p.deviceName} has invalid pinSecret reference"
    else
      match a.secret ref.name with
      | .error e => .error s!"failed to get PIN secret {p.ns}/{ref.name}: {e}"
      | .ok data =>
        match data ref.key with
        | none => .error s!"PIN key {ref.key} not found in secret {p.ns}/{ref.name}"
        | some pin =>
          if pin = "" then .error s!"PIN is empty in secret {p.ns}/{ref.name} key {ref.key}"
          else .ok pin

/-- The cache, with the time and what the API server has handed out. -/
structure Cache where
  cachedPIN : String := ""
  cacheExpiry : Int := 0
  cacheTTL : Int := 10 * 60 * 1000000000
  now : Int
  handed : List String := []

inductive Request where
  | check
  | reread
  | fetch
  | store (pin : String)
  | invalidate
  | setTTL (duration : Int)

/-- The time since the call before, and what the API server answers. -/
structure Circumstance where
  elapsed : Nat
  answers : Answers

abbrev Reply := Except String (Option String)

def serve (p : Provider) (cache : Cache) (e : Circumstance) (request : Request) : Cache × Reply :=
  let c := { cache with now := cache.now + e.elapsed }
  match request with
  | .check => (c, .ok (if c.now < c.cacheExpiry ∧ c.cachedPIN ≠ "" then some c.cachedPIN else none))
  | .reread => (c, .ok (some c.cachedPIN))
  | .fetch =>
    match p.fetch e.answers with
    | .error e => (c, .error e)
    | .ok pin => ({ c with handed := pin :: c.handed }, .ok (some pin))
  | .store pin => ({ c with cachedPIN := pin, cacheExpiry := c.now + c.cacheTTL }, .ok none)
  | .invalidate => ({ c with cachedPIN := "", cacheExpiry := 0 }, .ok none)
  | .setTTL duration => ({ c with cacheTTL := duration }, .ok none)

/-- After a hit the lock is released, and then the field is read again. -/
def reread : Program Request Reply Reply := .call .reread .done

def keep (pin : String) : Program Request Reply Reply :=
  .call (.store pin) fun _ => .done (.ok (some pin))

def refresh : Program Request Reply Reply :=
  .call .fetch fun
    | .ok (some pin) => keep pin
    | reply => .done reply

def getPIN : Program Request Reply Reply :=
  .call .check fun
    | .ok (some _) => reread
    | _ => refresh

inductive Call where
  | getPIN
  | invalidateCache
  | setCacheTTL (duration : Int)

def Call.program : Call → Program Request Reply Reply
  | .getPIN => PinProvider.getPIN
  | .invalidateCache => .call .invalidate .done
  | .setCacheTTL duration => .call (.setTTL duration) .done

/-- The point that a call has reached that has not ended. -/
inductive Stage where
  | started (c : Call)
  | hit
  | missed
  | fetched (pin : String)

def Stage.program : Stage → Program Request Reply Reply
  | .started c => c.program
  | .hit => reread
  | .missed => refresh
  | .fetched pin => keep pin

abbrev Callers := World Request Reply Reply Cache

def start (now : Int) (calls : List Call) : Callers where
  service := { now }
  callers := calls.map Call.program

section Calls

variable {p : Provider}

theorem fetch_ne_empty {a : Answers} {pin : String} (h : p.fetch a = .ok pin) : pin ≠ "" := by
  unfold Provider.fetch at h
  split at h
  · cases h
  · cases h
  split at h
  · cases h
  split at h
  · cases h
  split at h
  · cases h
  split at h
  · cases h
  next hne =>
    obtain rfl := Except.ok.inj h
    exact hne

/-- A fetch fails and leaves the cache alone, or hands out a PIN. -/
theorem serve_fetch (c : Cache) (e : Circumstance) :
    (∃ text, serve p c e .fetch = ({ c with now := c.now + e.elapsed }, .error text)) ∨
      ∃ pin, pin ≠ "" ∧ serve p c e .fetch =
        ({ c with now := c.now + e.elapsed, handed := pin :: c.handed }, .ok (some pin)) := by
  dsimp only [serve]
  cases h : p.fetch e.answers with
  | error text => exact .inl ⟨text, rfl⟩
  | ok pin => exact .inr ⟨pin, fetch_ne_empty h, rfl⟩

/-- A check says whether it has seen a PIN that has not expired. -/
theorem serve_check (c : Cache) (e : Circumstance) :
    (c.cachedPIN ≠ "" ∧ serve p c e .check =
        ({ c with now := c.now + e.elapsed }, .ok (some c.cachedPIN))) ∨
      serve p c e .check = ({ c with now := c.now + e.elapsed }, .ok none) := by
  dsimp only [serve]
  split
  next hhit => exact .inl ⟨hhit.2, rfl⟩
  next => exact .inr rfl

/-- A cache that holds a PIN goes on holding one. -/
def Filled (c c' : Cache) : Prop := c.cachedPIN ≠ "" → c'.cachedPIN ≠ ""

theorem interference_filled : Interference Filled where
  refl _ h := h
  trans h h' hs := h' (h hs)

theorem sound_getPIN_filled (c : Cache) :
    Sound (serve p) (fun _ => True) Filled (fun reply _ => reply ≠ .ok (some "")) getPIN c := by
  intro t _ _ e
  rcases serve_check (p := p) t e with ⟨hne, hcheck⟩ | hcheck
  · -- the second read finds a PIN, because the first one has seen one
    rw [hcheck]
    refine ⟨trivial, id, fun u hu _ e' => ⟨trivial, id, fun _ _ _ => ?_⟩⟩
    simpa [serve] using hu hne
  · rw [hcheck]
    refine ⟨trivial, id, fun u _ _ e' => ?_⟩
    rcases serve_fetch (p := p) u e' with ⟨text, hfetch⟩ | ⟨pin, hpin, hfetch⟩
    · rw [hfetch]
      exact ⟨trivial, id, fun _ _ _ => by simp⟩
    · rw [hfetch]
      refine ⟨trivial, id, fun v _ _ e'' => ⟨trivial, fun _ => hpin, fun _ _ _ => ?_⟩⟩
      simpa using hpin

theorem sound_start (now : Int) (calls : List Call) (h : .invalidateCache ∉ calls) :
    AllSound (serve p) (fun _ => True) Filled (fun reply _ => reply ≠ .ok (some ""))
      (start now calls) where
  invariant := trivial
  callers := by
    intro program hprogram
    obtain ⟨c, hcall, rfl⟩ := List.mem_map.mp hprogram
    cases c with
    | getPIN => exact sound_getPIN_filled _
    | invalidateCache => exact absurd hcall h
    | setCacheTTL duration => exact fun t _ _ e => ⟨trivial, id, fun _ _ _ => by simp [serve]⟩

/-- The Secret holds a PIN, and no time passes. -/
def served (pin : String) : Circumstance where
  elapsed := 0
  answers :=
    { device := .ok (some ⟨"hsm-pin", "pin"⟩), secret := fun _ => .ok fun _ => some pin }

/-- A call of `GetPIN` beside another one can return the empty PIN, without an error, exactly if the
cache is invalidated: the PIN is read once more after the lock is released. -/
theorem getPIN_empty_iff (p : Provider) (now : Int) (others : List Call) :
    (∃ turns : List (Nat × Circumstance), .done (.ok (some "")) ∈
      (run (answer (serve p)) (start now (.getPIN :: .getPIN :: others)) turns).callers) ↔
      .invalidateCache ∈ others := by
  constructor
  · rintro ⟨turns, hempty⟩
    refine Classical.byContradiction fun hnone => ?_
    have hsound := (sound_start (p := p) now (.getPIN :: .getPIN :: others)
      (by simpa using hnone)).run interference_filled turns
    exact hsound.1.post interference_filled hempty rfl
  · intro hmem
    obtain ⟨k, hk⟩ := List.getElem?_of_mem hmem
    -- the first call fills the cache, and the invalidation stands between the reads of the second
    refine ⟨[0, 0, 0, 1, k + 2, 1].map fun caller => (caller, served "1234"), ?_⟩
    have hlater : now < now + 600000000000 := by omega
    simp [hlater, start, run, answer, Call.program, getPIN, refresh, keep, reread, serve, hk,
      Provider.fetch, served]

/-- The cache holds nothing but what the API server has handed out since. -/
def Current (c : Cache) : Prop := c.cachedPIN = "" ∨ c.cachedPIN ∈ c.handed

def Remembers (c c' : Cache) : Prop := ∀ pin ∈ c.handed, pin ∈ c'.handed

/-- A PIN that is returned is empty or was handed out since. -/
def Renewed (reply : Reply) (c : Cache) : Prop :=
  ∀ pin, reply = .ok (some pin) → pin = "" ∨ pin ∈ c.handed

theorem interference_remembers : Interference Remembers where
  refl _ _ h := h
  trans h h' pin hpin := h' pin (h pin hpin)

theorem sound_reread (c : Cache) : Sound (serve p) Current Remembers Renewed reread c := by
  intro t _ hcurrent e
  refine ⟨hcurrent, fun _ h => h, fun u hu _ pin hpin => ?_⟩
  obtain rfl := Option.some.inj (Except.ok.inj hpin)
  exact hcurrent.imp id (hu _)

theorem sound_keep {c : Cache} {pin : String} (hpin : pin = "" ∨ pin ∈ c.handed) :
    Sound (serve p) Current Remembers Renewed (keep pin) c := by
  intro t ht _ e
  have hthere : pin = "" ∨ pin ∈ t.handed := hpin.imp id (ht pin)
  refine ⟨hthere, fun _ h => h, fun u hu _ other hother => ?_⟩
  obtain rfl := Option.some.inj (Except.ok.inj hother)
  exact hthere.imp id (hu _)

theorem sound_refresh (c : Cache) : Sound (serve p) Current Remembers Renewed refresh c := by
  intro t _ hcurrent e
  rcases serve_fetch (p := p) t e with ⟨text, hfetch⟩ | ⟨pin, -, hfetch⟩
  · rw [hfetch]
    exact ⟨hcurrent, fun _ h => h, fun _ _ _ _ hreply => by cases hreply⟩
  · rw [hfetch]
    exact ⟨hcurrent.imp id (List.mem_cons_of_mem pin), fun _ h => List.mem_cons_of_mem pin h,
      sound_keep (.inr List.mem_cons_self)⟩

theorem sound_getPIN_current (c : Cache) :
    Sound (serve p) Current Remembers Renewed getPIN c := by
  intro t _ hcurrent e
  rcases serve_check (p := p) t e with ⟨-, hcheck⟩ | hcheck
  · rw [hcheck]
    exact ⟨hcurrent, fun _ h => h, sound_reread _⟩
  · rw [hcheck]
    exact ⟨hcurrent, fun _ h => h, sound_refresh _⟩

theorem sound_stage (c : Cache) {stage : Stage} (h : ∀ pin, stage = .fetched pin → pin = "") :
    Sound (serve p) Current Remembers Renewed stage.program c := by
  cases stage with
  | hit => exact sound_reread c
  | missed => exact sound_refresh c
  | fetched pin => exact sound_keep (.inl (h pin rfl))
  | started c =>
    cases c with
    | getPIN => exact sound_getPIN_current _
    | invalidateCache =>
      exact fun t _ _ e => ⟨.inl rfl, fun _ h => h, fun _ _ _ _ hreply => by cases hreply⟩
    | setCacheTTL duration =>
      exact fun t _ ht e => ⟨ht, fun _ h => h, fun _ _ _ _ hreply => by cases hreply⟩

/-- The cache is invalidated while calls are under way. A call of `GetPIN` that begins then gets
only PINs that the API server hands out from then on, in every interleaving, exactly if no call was
on its way from the API server back to the cache. -/
theorem invalidation_effective_iff (p : Provider) (c : Cache) (hempty : c.cachedPIN = "")
    (hhanded : c.handed = []) (hTTL : 0 < c.cacheTTL) (underWay : List Stage) :
    (∀ (turns : List (Nat × Circumstance)) (pin : String),
      let w := run (answer (serve p)) ⟨c, getPIN :: underWay.map Stage.program⟩ turns
      w.callers[0]? = some (.done (.ok (some pin))) → pin = "" ∨ pin ∈ w.service.handed) ↔
      ∀ pin, pin ≠ "" → .fetched pin ∉ underWay := by
  constructor
  · intro hall pin hpin hmem
    obtain ⟨k, hk⟩ := List.getElem?_of_mem hmem
    -- the old PIN is stored after all, and is then what a check finds
    have hreturned := hall ([k + 1, 0, 0].map fun caller => (caller, served "")) pin
    have hlater : c.now < c.now + c.cacheTTL := by omega
    simp [hlater, run, answer, Stage.program, getPIN, keep, reread, serve, hk, served, hpin,
      hhanded] at hreturned
  · intro hnone turns pin w hdone
    have hsound : AllSound (serve p) Current Remembers Renewed
        ⟨c, getPIN :: underWay.map Stage.program⟩ := by
      refine ⟨.inl hempty, fun program hprogram => ?_⟩
      rcases List.mem_cons.mp hprogram with rfl | hprogram
      · exact sound_getPIN_current c
      · obtain ⟨stage, hstage, rfl⟩ := List.mem_map.mp hprogram
        refine sound_stage c fun pin hpin => Classical.byContradiction fun hne => ?_
        exact hnone pin hne (hpin ▸ hstage)
    exact (hsound.run interference_remembers turns).1.post interference_remembers
      (List.mem_of_getElem? hdone) pin rfl

theorem invalidation_effective_without_fetch :
    let c : Cache := { now := 1 }
    c.cachedPIN = "" ∧ c.handed = [] ∧ 0 < c.cacheTTL ∧
      ∀ (turns : List (Nat × Circumstance)) (pin : String),
        let w := run (answer (serve ⟨"pico-hsm", "secrets"⟩))
          ⟨c, getPIN :: [Stage.hit, .missed].map Stage.program⟩ turns
        w.callers[0]? = some (.done (.ok (some pin))) → pin = "" ∨ pin ∈ w.service.handed :=
  ⟨rfl, rfl, by decide, (invalidation_effective_iff _ _ rfl rfl (by decide) _).mpr (by simp)⟩

end Calls

end HsmSecretsOperator.Hsm.PinProvider
