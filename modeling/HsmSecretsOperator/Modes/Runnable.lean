/- source: internal/modes/manager/runnable.go
   digest: The event loop of the mirror manager, its debounce timer and what becomes of triggers. -/

import Mathlib.Data.List.Basic
import HsmSecretsOperator.Foundation.Runs

/-! The callback of the timer captures the pending events, sweeps, and afterwards sets the shared
    list to nil. A turn of the loop and the accesses of the callback to the list are atomic, and a
    sweep lasts until its `finish`. -/

set_option autoImplicit false

namespace HsmSecretsOperator.Modes.Runnable

open Foundation.Runs

/-- What matters of a trigger: whether it is forced, and the call it stems from as a position in
the history. -/
structure MirrorTriggerEvent where
  force : Bool
  call : Nat
  deriving DecidableEq

/-- The goroutine of a timer that fired, with the events it captured. -/
inductive Callback where
  | fired
  | captured (events : List MirrorTriggerEvent)
  | sweeping (events : List MirrorTriggerEvent)
  | clearing (events : List MirrorTriggerEvent)
  deriving DecidableEq

def Callback.events : Callback → List MirrorTriggerEvent
  | .fired => []
  | .captured events | .sweeping events | .clearing events => events

inductive Loop where
  | waiting
  | sweeping
  | stopped
  deriving DecidableEq

/-- What happened, in order: a call of `TriggerMirror` or the start of a sweep. -/
inductive Mark where
  | call (force : Bool)
  | sweep
  deriving DecidableEq

structure State where
  mirrorTrigger : List MirrorTriggerEvent := []
  loop : Loop := .waiting
  pendingEvents : List MirrorTriggerEvent := []
  /-- The debounce timer is armed. -/
  debounceTimer : Bool := false
  callbacks : List Callback := []
  history : List Mark := []
  deriving DecidableEq

def triggerCapacity : Nat := 10

/-- A step of a caller, of the loop or of a callback. The clock is read only for the time since the
last sync, which an action may answer either way. -/
inductive Action where
  | triggerMirror (force : Bool)
  | receive
  | fire
  | capture
  | process (events : List MirrorTriggerEvent) (recent : Bool)
  | finish (events : List MirrorTriggerEvent)
  | clear (events : List MirrorTriggerEvent)
  | tick (recent : Bool)
  | tickDone
  | cancel
  deriving DecidableEq

/-- `TriggerMirror`: a full channel drops the event. -/
def triggerMirror (s : State) (force : Bool) : State :=
  { s with
    mirrorTrigger :=
      if s.mirrorTrigger.length < triggerCapacity then
        s.mirrorTrigger ++ [⟨force, s.history.length⟩]
      else s.mirrorTrigger
    history := s.history ++ [.call force] }

/-- The loop takes an event: it becomes pending and the timer starts anew. -/
def receive (s : State) : State :=
  match s.loop, s.mirrorTrigger with
  | .waiting, event :: rest =>
    { s with
      mirrorTrigger := rest
      pendingEvents := s.pendingEvents ++ [event]
      debounceTimer := true }
  | _, _ => s

def State.advance (s : State) (current next : Callback) : State :=
  { s with callbacks := next :: s.callbacks.erase current }

def needsSync (events : List MirrorTriggerEvent) (recent : Bool) : Bool :=
  !events.isEmpty && (events.any MirrorTriggerEvent.force || !recent)

def processPendingEvents (s : State) (events : List MirrorTriggerEvent) (recent : Bool) : State :=
  if needsSync events recent then
    { s.advance (.captured events) (.sweeping events) with history := s.history ++ [.sweep] }
  else s.advance (.captured events) (.clearing events)

/-- One step; an action that is not possible changes nothing. -/
def step (s : State) : Action → State
  | .triggerMirror force => triggerMirror s force
  | .receive => receive s
  | .fire =>
    if s.debounceTimer then { s with debounceTimer := false, callbacks := .fired :: s.callbacks }
    else s
  | .capture =>
    if .fired ∈ s.callbacks then s.advance .fired (.captured s.pendingEvents) else s
  | .process events recent =>
    if .captured events ∈ s.callbacks then processPendingEvents s events recent else s
  | .finish events =>
    if .sweeping events ∈ s.callbacks then s.advance (.sweeping events) (.clearing events) else s
  | .clear events =>
    if .clearing events ∈ s.callbacks then
      { s with pendingEvents := [], callbacks := s.callbacks.erase (.clearing events) }
    else s
  | .tick recent =>
    if s.loop = .waiting ∧ recent = false then
      { s with loop := .sweeping, history := s.history ++ [.sweep] }
    else s
  | .tickDone => if s.loop = .sweeping then { s with loop := .waiting } else s
  | .cancel =>
    if s.loop = .waiting then { s with loop := .stopped, debounceTimer := false } else s

/-- No event in the channel, no timer armed and no callback running. -/
def Quiescent (s : State) : Prop :=
  s.mirrorTrigger = [] ∧ s.debounceTimer = false ∧ s.callbacks = []

instance (s : State) : Decidable (Quiescent s) := inferInstanceAs (Decidable (_ ∧ _ ∧ _))

/-- A sweep starts after the call at this position. -/
def Served (history : List Mark) (call : Nat) : Prop := .sweep ∈ history.drop (call + 1)

instance (history : List Mark) (call : Nat) : Decidable (Served history call) :=
  inferInstanceAs (Decidable (_ ∈ _))

/-- Every forced call is followed by the start of a sweep. -/
def ForcedServed (s : State) : Prop :=
  ∀ call, s.history[call]? = some (.call true) → Served s.history call

/-- The forced events that are pending have all been captured by a callback. -/
def PendingCaptured (s : State) : Prop :=
  ∀ event ∈ s.pendingEvents, event.force = true → ∃ cb ∈ s.callbacks, event ∈ cb.events

instance (s : State) : Decidable (PendingCaptured s) :=
  inferInstanceAs (Decidable (∀ event ∈ s.pendingEvents, event.force = true →
    ∃ cb ∈ s.callbacks, event ∈ cb.events))

/-- A forced call finds room in the channel, and pending events are dropped, by a callback or when
the loop stops with the timer armed, only after a callback has captured the forced ones. -/
def Undisturbed (s : State) : Action → Prop
  | .triggerMirror force => force = true → s.mirrorTrigger.length < triggerCapacity
  | .clear events => .clearing events ∈ s.callbacks → PendingCaptured s
  | .cancel => s.loop = .waiting ∧ s.debounceTimer = true → PendingCaptured s
  | _ => True

instance instDecidableUndisturbed (s : State) : ∀ a, Decidable (Undisturbed s a)
  | .triggerMirror force =>
    inferInstanceAs (Decidable (force = true → s.mirrorTrigger.length < triggerCapacity))
  | .clear events =>
    inferInstanceAs (Decidable (.clearing events ∈ s.callbacks → PendingCaptured s))
  | .cancel =>
    inferInstanceAs (Decidable (s.loop = .waiting ∧ s.debounceTimer = true → PendingCaptured s))
  | .receive | .fire | .capture | .process _ _ | .finish _ | .tick _ | .tickDone =>
    inferInstanceAs (Decidable True)

/-- The event of a call that no sweep has served yet is on its way to one: it is in the channel,
pending with a callback to come, or captured by a callback that has still to decide. -/
inductive Tracked (s : State) (call : Nat) : Prop
  | queued (mem : ⟨true, call⟩ ∈ s.mirrorTrigger)
  | pending (mem : ⟨true, call⟩ ∈ s.pendingEvents)
      (soon : s.debounceTimer = true ∨ .fired ∈ s.callbacks)
  | captured (events : List MirrorTriggerEvent) (running : .captured events ∈ s.callbacks)
      (mem : ⟨true, call⟩ ∈ events)

/-- The event is still around. -/
def Held (s : State) (event : MirrorTriggerEvent) : Prop :=
  event ∈ s.mirrorTrigger ∨ event ∈ s.pendingEvents ∨ ∃ cb ∈ s.callbacks, event ∈ cb.events

theorem Tracked.mono {s s' : State} {call : Nat} (h : Tracked s call)
    (hchannel : s.mirrorTrigger ⊆ s'.mirrorTrigger)
    (hpending : s.pendingEvents ⊆ s'.pendingEvents)
    (hsoon : s.debounceTimer = true ∨ .fired ∈ s.callbacks →
      s'.debounceTimer = true ∨ .fired ∈ s'.callbacks)
    (hcaptured : ∀ events, .captured events ∈ s.callbacks → .captured events ∈ s'.callbacks) :
    Tracked s' call := by
  cases h with
  | queued mem => exact .queued (hchannel mem)
  | pending mem soon => exact .pending (hpending mem) (hsoon soon)
  | captured events running mem => exact .captured events (hcaptured events running) mem

structure Inv (s : State) : Prop where
  forced : ∀ call, s.history[call]? = some (.call true) → Served s.history call ∨ Tracked s call
  swept : ∀ events, .sweeping events ∈ s.callbacks ∨ .clearing events ∈ s.callbacks →
    ∀ call, ⟨true, call⟩ ∈ events → Served s.history call
  stamped : ∀ event, Held s event → event.call < s.history.length

theorem forcedServed_of_quiescent {s : State} (hs : Inv s) (h : Quiescent s) : ForcedServed s := by
  intro call hcall
  obtain ⟨hchannel, htimer, hcallbacks⟩ := h
  rcases hs.forced call hcall with hserved | htracked
  · exact hserved
  · cases htracked with
    | queued mem => simp [hchannel] at mem
    | pending _ soon => simp [htimer, hcallbacks] at soon
    | captured events running _ => simp [hcallbacks] at running

theorem Served.append {history : List Mark} {call : Nat} (h : Served history call)
    (marks : List Mark) : Served (history ++ marks) call := by
  unfold Served at h ⊢
  rw [List.drop_append]
  exact List.mem_append_left _ h

theorem served_sweep {history : List Mark} {call : Nat} (h : call < history.length) :
    Served (history ++ [.sweep]) call := by
  unfold Served
  rw [List.drop_append_of_le_length h]
  exact List.mem_append_right _ List.mem_cons_self

section Steps

variable {s s' : State}

private theorem mem_advance_of_ne {cb current : Callback} (hne : cb ≠ current)
    (h : cb ∈ s.callbacks) (next : Callback) : cb ∈ (s.advance current next).callbacks :=
  List.mem_cons_of_mem _ ((List.mem_erase_of_ne hne).mpr h)

private theorem of_mem_advance {cb current next : Callback}
    (h : cb ∈ (s.advance current next).callbacks) : cb = next ∨ cb ∈ s.callbacks :=
  (List.mem_cons.mp h).imp_right List.mem_of_mem_erase

private theorem running_of_advance {current next : Callback} {events : List MirrorTriggerEvent}
    (h : .sweeping events ∈ (s.advance current next).callbacks ∨
      .clearing events ∈ (s.advance current next).callbacks) :
    (next = .sweeping events ∨ next = .clearing events) ∨
      .sweeping events ∈ s.callbacks ∨ .clearing events ∈ s.callbacks := by
  rcases h with h | h
  · rcases of_mem_advance h with heq | hbefore
    · exact .inl (.inl heq.symm)
    · exact .inr (.inl hbefore)
  · rcases of_mem_advance h with heq | hbefore
    · exact .inl (.inr heq.symm)
    · exact .inr (.inr hbefore)

private theorem held_advance {current next : Callback}
    (hnext : ∀ event ∈ next.events, Held s event) (event : MirrorTriggerEvent)
    (h : Held (s.advance current next) event) : Held s event := by
  rcases h with hqueued | hpending | ⟨cb, hcb, hmem⟩
  · exact .inl hqueued
  · exact .inr (.inl hpending)
  · rcases of_mem_advance hcb with rfl | hcb
    · exact hnext event hmem
    · exact .inr (.inr ⟨cb, hcb, hmem⟩)

private theorem held_advance_of_events {current : Callback} (hcurrent : current ∈ s.callbacks)
    (next : Callback) (hevents : next.events = current.events) (event : MirrorTriggerEvent)
    (h : Held (s.advance current next) event) : Held s event := by
  refine held_advance (fun e he => ?_) event h
  rw [hevents] at he
  exact .inr (.inr ⟨current, hcurrent, he⟩)

private theorem not_forced_of_not_needsSync {events : List MirrorTriggerEvent} {recent : Bool}
    (h : ¬ needsSync events recent = true) (call : Nat) : ⟨true, call⟩ ∉ events := by
  intro hmem
  refine h ?_
  have hany : events.any MirrorTriggerEvent.force = true := List.any_eq_true.mpr ⟨_, hmem, rfl⟩
  have hne : events.isEmpty = false := by
    rw [List.isEmpty_eq_false_iff]
    exact List.ne_nil_of_mem hmem
  rw [needsSync, hany, hne]
  rfl

variable (hs : Inv s)
include hs

/-- A step without a mark may move events on, as long as no forced one is lost. -/
private theorem Inv.of_same_history (hhistory : s'.history = s.history)
    (htracked : ∀ call, Tracked s call → Served s.history call ∨ Tracked s' call)
    (hswept : ∀ events, .sweeping events ∈ s'.callbacks ∨ .clearing events ∈ s'.callbacks →
      (.sweeping events ∈ s.callbacks ∨ .clearing events ∈ s.callbacks) ∨
        ∀ call, ⟨true, call⟩ ∉ events)
    (hheld : ∀ event, Held s' event → Held s event) : Inv s' where
  forced := by
    intro call hcall
    rw [hhistory] at hcall ⊢
    rcases hs.forced call hcall with hserved | hcall
    · exact .inl hserved
    · exact htracked call hcall
  swept := by
    intro events hrunning call hmem
    rw [hhistory]
    rcases hswept events hrunning with hbefore | hnone
    · exact hs.swept events hbefore call hmem
    · exact absurd hmem (hnone call)
  stamped := by
    intro event h
    rw [hhistory]
    exact hs.stamped event (hheld event h)

private theorem Inv.of_sweep (hhistory : s'.history = s.history ++ [.sweep])
    (hheld : ∀ event, Held s' event → Held s event) : Inv s' where
  forced := by
    intro call hcall
    rw [hhistory] at hcall ⊢
    have hlt : call < s.history.length := by
      by_contra hge
      rw [List.getElem?_append_right (by omega), List.getElem?_singleton] at hcall
      split at hcall
      · cases hcall
      · cases hcall
    exact .inl (served_sweep hlt)
  swept := by
    intro events hrunning call hmem
    have hcallback : ∃ cb ∈ s'.callbacks, ⟨true, call⟩ ∈ cb.events := by
      rcases hrunning with hrunning | hrunning
      · exact ⟨_, hrunning, hmem⟩
      · exact ⟨_, hrunning, hmem⟩
    rw [hhistory]
    exact served_sweep (hs.stamped _ (hheld _ (.inr (.inr hcallback))))
  stamped := by
    intro event h
    rw [hhistory, List.length_append, List.length_singleton]
    have := hs.stamped event (hheld event h)
    omega

private theorem inv_triggerMirror (force : Bool)
    (h : Undisturbed s (.triggerMirror force)) : Inv (triggerMirror s force) where
  forced := by
    intro call hcall
    simp only [triggerMirror] at hcall ⊢
    by_cases hlt : call < s.history.length
    · rw [List.getElem?_append_left hlt] at hcall
      rcases hs.forced call hcall with hserved | htracked
      · exact .inl (hserved.append _)
      · right
        refine htracked.mono ?_ (List.Subset.refl _) id fun _ running => running
        dsimp only
        split
        · exact List.subset_append_left _ _
        · exact List.Subset.refl _
    · -- The call of this step; there is room for its event.
      rw [List.getElem?_append_right (by omega), List.getElem?_singleton] at hcall
      split at hcall
      next hzero =>
        obtain rfl : force = true := by simpa using hcall
        have hcall : call = s.history.length := by omega
        right
        apply Tracked.queued
        rw [if_pos (h rfl), hcall]
        exact List.mem_append_right _ List.mem_cons_self
      next => cases hcall
  swept := by
    intro events hrunning call hmem
    exact (hs.swept events hrunning call hmem).append _
  stamped := by
    intro event hheld
    rw [triggerMirror, List.length_append, List.length_singleton]
    have hcase : event ∈ s.mirrorTrigger ++ [⟨force, s.history.length⟩] ∨ Held s event := by
      rcases hheld with hqueued | hrest
      · dsimp only [triggerMirror] at hqueued
        split at hqueued
        · exact .inl hqueued
        · exact .inl (List.mem_append_left _ hqueued)
      · exact .inr (.inr hrest)
    rcases hcase with hqueued | hbefore
    · rcases List.mem_append.mp hqueued with hqueued | hnew
      · have := hs.stamped event (.inl hqueued)
        omega
      · rw [List.mem_singleton.mp hnew]
        exact Nat.lt_succ_self _
    · have := hs.stamped event hbefore
      omega

private theorem inv_receive : Inv (receive s) := by
  unfold receive
  split
  next event rest _ hchannel =>
    refine hs.of_same_history rfl ?_ (fun _ hrunning => .inl hrunning) ?_
    · intro call htracked
      right
      cases htracked with
      | queued mem =>
        rw [hchannel] at mem
        rcases List.mem_cons.mp mem with heq | hrest
        · refine .pending ?_ (.inl rfl)
          rw [heq]
          exact List.mem_append_right _ List.mem_cons_self
        · exact .queued hrest
      | pending mem _ => exact .pending (List.mem_append_left _ mem) (.inl rfl)
      | captured events running mem => exact .captured events running mem
    · intro e hheld
      rcases hheld with hqueued | hpending | hcallback
      · exact .inl (hchannel ▸ List.mem_cons_of_mem event hqueued)
      · rcases List.mem_append.mp hpending with hpending | hnew
        · exact .inr (.inl hpending)
        · rw [List.mem_singleton.mp hnew, Held, hchannel]
          exact .inl List.mem_cons_self
      · exact .inr (.inr hcallback)
  next => exact hs

private theorem inv_tick (recent : Bool) : Inv (step s (.tick recent)) := by
  unfold step
  dsimp only
  split
  · exact hs.of_sweep rfl fun _ hheld => hheld
  · exact hs

private theorem inv_tickDone : Inv (step s .tickDone) := by
  unfold step
  dsimp only
  split
  · refine hs.of_same_history rfl ?_ (fun _ hrunning => .inl hrunning) fun _ hheld => hheld
    intro call htracked
    exact .inr (htracked.mono (List.Subset.refl _) (List.Subset.refl _) id fun _ running => running)
  · exact hs

private theorem Inv.of_pendingCaptured (h : PendingCaptured s) {call : Nat}
    (hmem : ⟨true, call⟩ ∈ s.pendingEvents) :
    Served s.history call ∨
      ∃ events, .captured events ∈ s.callbacks ∧ ⟨true, call⟩ ∈ events := by
  obtain ⟨cb, hcb, hcaptured⟩ := h _ hmem rfl
  cases cb with
  | fired => simp [Callback.events] at hcaptured
  | captured events => exact .inr ⟨events, hcb, hcaptured⟩
  | sweeping events => exact .inl (hs.swept events (.inl hcb) call hcaptured)
  | clearing events => exact .inl (hs.swept events (.inr hcb) call hcaptured)

private theorem inv_cancel (h : Undisturbed s .cancel) : Inv (step s .cancel) := by
  unfold step
  dsimp only
  split
  next hloop =>
    refine hs.of_same_history rfl ?_ (fun _ hrunning => .inl hrunning) fun _ hheld => hheld
    intro call htracked
    cases htracked with
    | queued mem => exact .inr (.queued mem)
    | captured events running mem => exact .inr (.captured events running mem)
    | pending mem soon =>
      rcases soon with htimer | hfired
      · refine (hs.of_pendingCaptured (h ⟨hloop, htimer⟩) mem).imp_right ?_
        rintro ⟨events, running, mem⟩
        exact .captured events running mem
      · exact .inr (.pending mem (.inr hfired))
  next => exact hs

private theorem inv_fire : Inv (step s .fire) := by
  unfold step
  dsimp only
  split
  · refine hs.of_same_history rfl ?_ ?_ ?_
    · intro call htracked
      exact .inr (htracked.mono (List.Subset.refl _) (List.Subset.refl _)
        (fun _ => .inr List.mem_cons_self) fun _ running => List.mem_cons_of_mem _ running)
    · intro events hrunning
      simp only [List.mem_cons, reduceCtorEq, false_or] at hrunning
      exact .inl hrunning
    · intro event hheld
      simpa [Held, Callback.events] using hheld
  · exact hs

private theorem inv_capture : Inv (step s .capture) := by
  unfold step
  dsimp only
  split
  next =>
    refine hs.of_same_history rfl ?_ ?_ (held_advance fun event hmem => .inr (.inl hmem))
    · intro call htracked
      right
      cases htracked with
      | queued mem => exact .queued mem
      | pending mem _ => exact .captured _ List.mem_cons_self mem
      | captured events running mem =>
        exact .captured events (mem_advance_of_ne (by simp) running _) mem
    · intro events hrunning
      exact .inl ((running_of_advance hrunning).resolve_left (by simp))
  next => exact hs

private theorem inv_process (events : List MirrorTriggerEvent) (recent : Bool) :
    Inv (step s (.process events recent)) := by
  unfold step
  dsimp only
  split
  next hrun =>
    unfold processPendingEvents
    split
    next => exact hs.of_sweep rfl (held_advance_of_events hrun (.sweeping events) rfl)
    next hskip =>
      have hnone := not_forced_of_not_needsSync hskip
      refine hs.of_same_history rfl ?_ ?_ (held_advance_of_events hrun _ rfl)
      · intro call htracked
        right
        cases htracked with
        | queued mem => exact .queued mem
        | pending mem soon =>
          exact .pending mem (soon.imp_right fun hfired => mem_advance_of_ne (by simp) hfired _)
        | captured other running mem =>
          refine .captured other (mem_advance_of_ne ?_ running _) mem
          rintro ⟨⟩
          exact hnone call mem
      · intro other hrunning
        rcases running_of_advance hrunning with (⟨⟨⟩⟩ | ⟨⟨⟩⟩) | hbefore
        · exact .inr hnone
        · exact .inl hbefore
  next => exact hs

private theorem inv_finish (events : List MirrorTriggerEvent) :
    Inv (step s (.finish events)) := by
  unfold step
  dsimp only
  split
  next hrun =>
    refine hs.of_same_history rfl ?_ ?_ (held_advance_of_events hrun _ rfl)
    · intro call htracked
      right
      refine htracked.mono (List.Subset.refl _) (List.Subset.refl _) ?_ ?_
      · exact Or.imp_right fun hfired => mem_advance_of_ne (by simp) hfired _
      · exact fun _ running => mem_advance_of_ne (by simp) running _
    · intro other hrunning
      left
      rcases running_of_advance hrunning with (⟨⟨⟩⟩ | ⟨⟨⟩⟩) | hbefore
      · exact .inl hrun
      · exact hbefore
  next => exact hs

private theorem inv_clear (events : List MirrorTriggerEvent)
    (h : Undisturbed s (.clear events)) : Inv (step s (.clear events)) := by
  unfold step
  dsimp only
  split
  next hclearing =>
    have hstays (other : List MirrorTriggerEvent) (running : .captured other ∈ s.callbacks) :
        Callback.captured other ∈ s.callbacks.erase (.clearing events) :=
      (List.mem_erase_of_ne (by simp)).mpr running
    refine hs.of_same_history rfl ?_ ?_ ?_
    · intro call htracked
      cases htracked with
      | queued mem => exact .inr (.queued mem)
      | captured other running mem => exact .inr (.captured other (hstays other running) mem)
      | pending mem _ =>
        refine (hs.of_pendingCaptured (h hclearing) mem).imp_right ?_
        rintro ⟨other, running, mem⟩
        exact .captured other (hstays other running) mem
    · intro other hrunning
      exact .inl (hrunning.imp List.mem_of_mem_erase List.mem_of_mem_erase)
    · rintro event (hqueued | hpending | ⟨cb, hcb, hmem⟩)
      · exact .inl hqueued
      · simp at hpending
      · exact .inr (.inr ⟨cb, List.mem_of_mem_erase hcb, hmem⟩)
  next => exact hs

end Steps

theorem step_inv (s : State) (a : Action) (hs : Inv s) (h : Undisturbed s a) : Inv (step s a) := by
  cases a with
  | triggerMirror force => exact inv_triggerMirror hs force h
  | receive => exact inv_receive hs
  | fire => exact inv_fire hs
  | capture => exact inv_capture hs
  | process events recent => exact inv_process hs events recent
  | finish events => exact inv_finish hs events
  | clear events => exact inv_clear hs events h
  | tick recent => exact inv_tick hs recent
  | tickDone => exact inv_tickDone hs
  | cancel => exact inv_cancel hs h

theorem inv_init : Inv {} where
  forced := by simp
  swept := by simp
  stamped := by simp [Held]

/-- In a run whose steps are undisturbed, once the manager is quiescent every forced call has been
followed by the start of a sweep. -/
theorem forced_calls_served (actions : List Action) (h : Along step Undisturbed {} actions)
    (hquiet : Quiescent (run step {} actions)) : ForcedServed (run step {} actions) :=
  forcedServed_of_quiescent (h.run_invariant step_inv inv_init) hquiet

/-- Two forced calls in one debounce window share a sweep. -/
theorem batched_calls_served :
    let actions : List Action :=
      [.triggerMirror true, .receive, .triggerMirror true, .receive, .fire, .capture,
        .process [⟨true, 0⟩, ⟨true, 1⟩] true, .finish [⟨true, 0⟩, ⟨true, 1⟩],
        .clear [⟨true, 0⟩, ⟨true, 1⟩]]
    (run step {} actions).history = [.call true, .call true, .sweep] ∧
      ForcedServed (run step {} actions) :=
  ⟨by decide, forced_calls_served _ (by decide) (by decide)⟩

/-- A forced call during a sweep is received while the callback is busy, and the callback erases it
with the events it captured: its own callback then finds nothing to do. -/
theorem call_during_sweep_is_lost :
    ∃ actions : List Action,
      Quiescent (run step {} actions) ∧ ¬ ForcedServed (run step {} actions) := by
  refine ⟨[.triggerMirror true, .receive, .fire, .capture, .process [⟨true, 0⟩] false,
    .triggerMirror true, .receive, .finish [⟨true, 0⟩], .clear [⟨true, 0⟩],
    .fire, .capture, .process [] true, .clear []], by decide, ?_⟩
  intro h
  exact absurd (h 2 (by decide)) (by decide)

end HsmSecretsOperator.Modes.Runnable
