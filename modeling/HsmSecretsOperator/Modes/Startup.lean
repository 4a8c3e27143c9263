/- source: internal/modes/manager/runnable.go, internal/mirror/manager.go
   digest: The start of the mirror manager: the wait for an agent, and what if none comes. -/

import HsmSecretsOperator.Modes.Runnable
import HsmSecretsOperator.Pool.Aggregation

/-! `WaitForAgentsReady` reports its own deadline as the error of its context. -/

set_option autoImplicit false

namespace HsmSecretsOperator.Modes.Startup

open Foundation.Runs
open Pool.Aggregation (HSMPoolStatus getAvailableDevices)

structure Poll where
  /-- The pools, or the error of listing them. -/
  pools : Except String (List HSMPoolStatus)
  /-- The error of `CreateGRPCClient` for the device at a position, or what `IsConnected` of its
  client says. -/
  connect : Nat → Except String Bool

def Poll.devices (p : Poll) : Except String (List Discovery.Report.DiscoveredDevice) :=
  match p.pools with
  | .error err => .error s!"failed to list HSM pools: {err}"
  | .ok pools => getAvailableDevices pools

def Poll.ready (p : Poll) : Bool :=
  match p.devices with
  | .error _ => false
  | .ok devices => (List.range devices.length).any fun i =>
    match p.connect i with
    | .error _ => false
    | .ok connected => connected

inductive Phase where
  | waiting
  | idle
  | mirroring
  | returned (err : Option String)
  deriving DecidableEq

/-- How `Start` goes on with the results of `WaitForAgentsReady`. -/
def afterWait (ready : Bool) : Option String → Phase
  | some err => .returned (some s!"failed to wait for agents to be ready: {err}")
  | none => if ready then .mirroring else .idle

/-- The timeout and the interval of the polls, in milliseconds. -/
def timeout : Nat := 5 * 60 * 1000

def pollInterval : Nat := 5 * 1000

def deadlineExceeded : String := "context deadline exceeded"

def canceled : String := "context canceled"

structure State where
  /-- The time since the wait began. -/
  elapsed : Nat := 0
  /-- The ticker has fired and nobody has received it yet. -/
  tick : Bool := false
  /-- The context of `Start` is cancelled. -/
  cancelled : Bool := false
  /-- The error of the context with the deadline, once it is done. -/
  ctxErr : Option String := none
  phase : Phase := .waiting
  mirror : Runnable.State := {}

inductive Action where
  | wait (ms : Nat)
  | cancel
  /-- The select of the wait takes the ticker. -/
  | poll (p : Poll)
  /-- Whoever waits for a context sees that it is done. -/
  | done
  | mirror (a : Runnable.Action)

def wait (s : State) (ms : Nat) : State :=
  { s with
    elapsed := s.elapsed + ms
    tick := s.tick || decide (s.elapsed / pollInterval < (s.elapsed + ms) / pollInterval)
    ctxErr := s.ctxErr.or (if timeout ≤ s.elapsed + ms then some deadlineExceeded else none) }

def done (s : State) : State :=
  match s.phase with
  | .waiting =>
    match s.ctxErr with
    | some err => { s with phase := afterWait false (some err) }
    | none => s
  | .idle => if s.cancelled then { s with phase := .returned none } else s
  | .mirroring =>
    if s.cancelled then
      let mirror := Runnable.step s.mirror .cancel
      { s with mirror, phase := if mirror.loop = .stopped then .returned none else .mirroring }
    else s
  | .returned _ => s

/-- The mirror manager takes triggers from the beginning; its loop runs once agents are ready, and
callbacks may outlive it. -/
def mirrorStep (s : State) : Runnable.Action → State
  | .triggerMirror force => { s with mirror := Runnable.step s.mirror (.triggerMirror force) }
  | .cancel => s
  | a =>
    if s.phase = .mirroring ∨ s.mirror.loop = .stopped then
      { s with mirror := Runnable.step s.mirror a }
    else s

/-- One step; an action that is not possible changes nothing. -/
def step (s : State) : Action → State
  | .wait ms => wait s ms
  | .cancel => { s with cancelled := true, ctxErr := s.ctxErr.or (some canceled) }
  | .poll p =>
    if s.phase = .waiting ∧ s.tick = true then
      { s with tick := false, phase := if p.ready then afterWait true none else .waiting }
    else s
  | .done => done s
  | .mirror a => mirrorStep s a

/-- A poll finds an agent. -/
def Finds (s : State) : Action → Prop
  | .poll p => s.tick = true ∧ p.ready = true
  | _ => False

instance instDecidableFinds (s : State) : ∀ a, Decidable (Finds s a)
  | .poll p => inferInstanceAs (Decidable (s.tick = true ∧ p.ready = true))
  | .wait _ | .cancel | .done | .mirror _ => inferInstanceAs (Decidable False)

/-- The wait sees that its time is over. -/
def Expires (s : State) : Action → Prop
  | .done => timeout ≤ s.elapsed
  | _ => False

instance instDecidableExpires (s : State) : ∀ a, Decidable (Expires s a)
  | .done => inferInstanceAs (Decidable (timeout ≤ s.elapsed))
  | .wait _ | .cancel | .poll _ | .mirror _ => inferInstanceAs (Decidable False)

section Steps

variable {s : State} {a : Action}

/-- Nobody has cancelled, and the context of the wait is done exactly if its time is over. -/
structure Running (s : State) : Prop where
  cancelled : s.cancelled = false
  ctxErr : s.ctxErr = if timeout ≤ s.elapsed then some deadlineExceeded else none

theorem mirrorStep_eq (s : State) (a : Runnable.Action) :
    ∃ mirror, mirrorStep s a = { s with mirror } := by
  unfold mirrorStep
  split
  · exact ⟨_, rfl⟩
  · exact ⟨_, rfl⟩
  · split
    · exact ⟨_, rfl⟩
    · exact ⟨_, rfl⟩

theorem done_eq (hs : Running s) : done s =
    if s.phase = .waiting ∧ timeout ≤ s.elapsed then
      { s with phase := afterWait false (some deadlineExceeded) }
    else s := by
  unfold done
  rw [hs.ctxErr, hs.cancelled]
  split
  next hphase =>
    by_cases htime : timeout ≤ s.elapsed
    · rw [if_pos htime, if_pos ⟨hphase, htime⟩]
    · rw [if_neg htime, if_neg fun h => htime h.2]
  next hphase =>
    rw [if_neg Bool.false_ne_true, if_neg]
    simp [hphase]
  next hphase =>
    rw [if_neg Bool.false_ne_true, if_neg]
    simp [hphase]
  next err hphase =>
    rw [if_neg]
    simp [hphase]

theorem Running.step (hs : Running s) (ha : a ≠ .cancel) : Running (step s a) := by
  cases a with
  | cancel => exact absurd rfl ha
  | wait ms =>
    refine ⟨hs.cancelled, ?_⟩
    dsimp only [Startup.step, wait]
    rw [hs.ctxErr]
    by_cases htime : timeout ≤ s.elapsed
    · have hlater : timeout ≤ s.elapsed + ms := Nat.le_add_right_of_le htime
      rw [if_pos htime, if_pos hlater, Option.some_or]
      exact (if_pos hlater).symm
    · rw [if_neg htime]
      rfl
  | poll p =>
    dsimp only [Startup.step]
    split
    · exact ⟨hs.cancelled, hs.ctxErr⟩
    · exact hs
  | done =>
    dsimp only [Startup.step]
    rw [done_eq hs]
    split
    · exact ⟨hs.cancelled, hs.ctxErr⟩
    · exact hs
  | mirror a =>
    obtain ⟨mirror, heq⟩ := mirrorStep_eq s a
    dsimp only [Startup.step]
    rw [heq]
    exact ⟨hs.cancelled, hs.ctxErr⟩

theorem phase_step (hs : Running s) (ha : a ≠ .cancel) (hphase : s.phase ≠ .waiting) :
    (step s a).phase = s.phase := by
  cases a with
  | cancel => exact absurd rfl ha
  | wait ms => rfl
  | poll p =>
    dsimp only [step]
    rw [if_neg fun h => hphase h.1]
  | done =>
    dsimp only [step]
    rw [done_eq hs, if_neg fun h => hphase h.1]
  | mirror a =>
    obtain ⟨mirror, heq⟩ := mirrorStep_eq s a
    dsimp only [step]
    rw [heq]

theorem phase_step_waiting (hs : Running s) (ha : a ≠ .cancel) (hphase : s.phase = .waiting) :
    (step s a).phase =
      if Expires s a then afterWait false (some deadlineExceeded)
      else if Finds s a then .mirroring else .waiting := by
  cases a with
  | cancel => exact absurd rfl ha
  | wait ms => exact hphase
  | poll p =>
    rw [if_neg (show ¬ Expires s (.poll p) from id)]
    dsimp only [step]
    by_cases htick : s.tick = true
    · have hfinds : Finds s (.poll p) ↔ p.ready = true := and_iff_right htick
      rw [if_pos ⟨hphase, htick⟩, if_congr hfinds rfl rfl]
      rfl
    · have hfinds : ¬ Finds s (.poll p) := fun h => htick h.1
      rw [if_neg fun h => htick h.2, if_neg hfinds, hphase]
  | done =>
    have hexpires : Expires s .done ↔ timeout ≤ s.elapsed := Iff.rfl
    dsimp only [step]
    rw [done_eq hs, if_congr hexpires rfl rfl]
    by_cases htime : timeout ≤ s.elapsed
    · rw [if_pos ⟨hphase, htime⟩, if_pos htime]
    · rw [if_neg fun h => htime h.2, if_neg htime, hphase]
      rfl
  | mirror a =>
    obtain ⟨mirror, heq⟩ := mirrorStep_eq s a
    dsimp only [step]
    rw [heq]
    exact hphase

end Steps

theorem phase_run {s : State} (hs : Running s) {actions : List Action}
    (hactions : .cancel ∉ actions) (hphase : s.phase ≠ .waiting) :
    (run step s actions).phase = s.phase := by
  induction actions generalizing s with
  | nil => rfl
  | cons a actions ih =>
    rw [List.mem_cons, not_or] at hactions
    have ha : a ≠ .cancel := Ne.symm hactions.1
    have hsame := phase_step hs ha hphase
    rw [run_cons, ih (hs.step ha) hactions.2 (hsame ▸ hphase), hsame]

theorem phase_run_waiting {s : State} (hs : Running s) {actions : List Action}
    (hactions : .cancel ∉ actions) (hphase : s.phase = .waiting) :
    (run step s actions).phase =
      if Until step (fun s a => ¬ Finds s a) Expires s actions then
        afterWait false (some deadlineExceeded)
      else if Until step (fun s a => ¬ Expires s a) Finds s actions then .mirroring
      else .waiting := by
  induction actions generalizing s with
  | nil => exact hphase
  | cons a actions ih =>
    rw [List.mem_cons, not_or] at hactions
    have ha : a ≠ .cancel := Ne.symm hactions.1
    have hnext := phase_step_waiting hs ha hphase
    rw [run_cons, if_congr until_cons rfl (if_congr until_cons rfl rfl)]
    by_cases hexpires : Expires s a
    · rw [if_pos hexpires] at hnext
      rw [if_pos (.inl hexpires), phase_run (hs.step ha) hactions.2 (hnext ▸ nofun), hnext]
    rw [if_neg hexpires] at hnext
    by_cases hfinds : Finds s a
    · rw [if_pos hfinds] at hnext
      rw [if_neg (by simp [hexpires, hfinds]), if_pos (.inl hfinds),
        phase_run (hs.step ha) hactions.2 (hnext ▸ nofun), hnext]
    · rw [if_neg hfinds] at hnext
      rw [ih (hs.step ha) hactions.2 hnext]
      simp only [hexpires, hfinds, not_false_eq_true, true_and, false_or]

/-- In a history without a cancellation `Start` returns no error exactly if the wait does not see
its time over before a poll finds an agent. It is never idle. -/
theorem start_survives_iff (actions : List Action) (h : .cancel ∉ actions) :
    ((∀ err, (run step {} actions).phase ≠ .returned (some err)) ↔
      ¬ Until step (fun s a => ¬ Finds s a) Expires {} actions) ∧
    (run step {} actions).phase ≠ .idle := by
  rw [phase_run_waiting ⟨rfl, rfl⟩ h rfl]
  by_cases hexpires : Until step (fun s a => ¬ Finds s a) Expires {} actions
  · rw [if_pos hexpires]
    exact ⟨iff_of_false (fun hnone => hnone _ rfl) (not_not_intro hexpires), nofun⟩
  · rw [if_neg hexpires]
    split
    · exact ⟨iff_of_true nofun hexpires, nofun⟩
    · exact ⟨iff_of_true nofun hexpires, nofun⟩

private def readyPool : HSMPoolStatus where
  phase := .ready
  aggregatedDevices :=
    [{ devicePath := "/dev/bus/usb/001/004", serialNumber := "DC6A", nodeName := "n1"
       lastSeen := 0, available := true }]

/-- The first poll finds no pool, the second one an agent, and the timeout does no harm. -/
theorem late_agent_is_enough :
    let actions : List Action :=
      [.wait 5000, .poll { pools := .ok [], connect := fun _ => .ok true },
        .wait 290000, .poll { pools := .ok [readyPool], connect := fun _ => .ok true },
        .wait 60000, .done]
    (∀ err, (run step {} actions).phase ≠ .returned (some err)) ∧
      (run step {} actions).phase ≠ .idle :=
  have hactions := start_survives_iff _ (by simp)
  ⟨hactions.1.mpr (by decide +kernel), hactions.2⟩

/-- Without an agent for five minutes `Start` returns an error, and nobody has cancelled it. -/
theorem missing_agents_stop_start :
    (run step {} [.wait 5000, .poll { pools := .ok [], connect := fun _ => .ok true },
        .wait 295000, .done]).phase =
      .returned (some "failed to wait for agents to be ready: context deadline exceeded") := by
  decide +kernel

end HsmSecretsOperator.Modes.Startup
