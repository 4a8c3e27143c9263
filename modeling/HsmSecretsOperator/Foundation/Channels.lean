/- source: none
   digest: Buffered channels that can be closed once: sends that do not wait, receives, panics. -/

import Mathlib.Logic.Basic

set_option autoImplicit false

namespace HsmSecretsOperator.Foundation.Channels

variable {α : Type}

structure Channel (α : Type) where
  buffer : List α := []
  closed : Bool := false

namespace Channel

/-- A send that does not wait: a full buffer drops the value, and a closed channel panics. -/
def offer (capacity : Nat) (c : Channel α) (x : α) : Option (Channel α) :=
  if c.closed then none
  else if c.buffer.length < capacity then some { c with buffer := c.buffer ++ [x] }
  else some c

/-- To close a closed channel panics. -/
def close (c : Channel α) : Option (Channel α) :=
  if c.closed then none else some { c with closed := true }

end Channel

/-- What a receiver meets. A closed channel first yields what it holds. -/
inductive Received (α : Type) where
  | value (x : α) (rest : Channel α)
  | closed
  | blocked

def Channel.receive (c : Channel α) : Received α :=
  match c.buffer with
  | x :: rest => .value x { c with buffer := rest }
  | [] => if c.closed then .closed else .blocked

variable {capacity : Nat} {c c' : Channel α} {x : α}

theorem offer_eq_none_iff : c.offer capacity x = none ↔ c.closed = true := by
  unfold Channel.offer
  split
  next h => exact iff_of_true rfl h
  next h =>
    refine iff_of_false ?_ h
    split
    · nofun
    · nofun

theorem close_eq_none_iff : c.close = none ↔ c.closed = true := by
  unfold Channel.close
  split
  next h => exact iff_of_true rfl h
  next h => exact iff_of_false nofun h

theorem offer_eq_some (h : c.offer capacity x = some c') :
    c.closed = false ∧ c'.closed = false ∧
      c'.buffer = c.buffer ++ if c.buffer.length < capacity then [x] else [] := by
  unfold Channel.offer at h
  split at h
  · cases h
  next hopen =>
    rw [Bool.not_eq_true] at hopen
    split at h
    next hroom =>
      obtain rfl := Option.some.inj h
      exact ⟨hopen, hopen, by rw [if_pos hroom]⟩
    next hroom =>
      obtain rfl := Option.some.inj h
      exact ⟨hopen, hopen, by rw [if_neg hroom, List.append_nil]⟩

theorem close_eq_some (h : c.close = some c') :
    c.closed = false ∧ c'.closed = true ∧ c'.buffer = c.buffer := by
  unfold Channel.close at h
  split at h
  · cases h
  next hopen =>
    obtain rfl := Option.some.inj h
    exact ⟨Bool.not_eq_true _ ▸ hopen, rfl, rfl⟩

theorem receive_eq_value (h : c.receive = .value x c') :
    c'.closed = c.closed ∧ c.buffer = x :: c'.buffer := by
  unfold Channel.receive at h
  split at h
  next hbuffer =>
    obtain ⟨rfl, rfl⟩ := Received.value.inj h
    exact ⟨rfl, hbuffer⟩
  next =>
    split at h
    · cases h
    · cases h

theorem receive_eq_closed (h : c.receive = .closed) : c.closed = true := by
  unfold Channel.receive at h
  split at h
  · cases h
  · split at h
    next hclosed => exact hclosed
    · cases h

end HsmSecretsOperator.Foundation.Channels
