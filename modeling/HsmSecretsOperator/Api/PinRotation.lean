/- source: internal/api/proxy_client.go, internal/hsm/pkcs11_client.go
   digest: The PIN of every device after a request to change it. -/

import HsmSecretsOperator.Api.Proxy

set_option autoImplicit false

namespace HsmSecretsOperator.Api.PinRotation

open Proxy

structure ChangePINRequest where
  oldPIN : String
  newPIN : String

abbrev Pins := String → String

/-- What a request meets. A device whose change fails keeps its PIN. -/
structure RotationEnv where
  devices : List String
  connects : String → Bool := fun _ => true
  fault : String → Option String := fun _ => none

/-- `PKCS11Client.ChangePIN` on a token: its PIN afterwards, or the error. -/
def changeTokenPIN (fault : Option String) (pin oldPIN newPIN : String) : Except String String :=
  if oldPIN = "" then .error "old PIN cannot be empty"
  else if newPIN = "" then .error "new PIN cannot be empty"
  else if oldPIN = newPIN then .error "new PIN must be different from old PIN"
  else
    match fault with
    | some text => .error text
    | none =>
      if pin ≠ oldPIN then .error "failed to change HSM PIN: CKR_PIN_INCORRECT" else .ok newPIN

/-- The fan-out: the PINs afterwards and the error of each client, if any. -/
def changePINOnAllDevices (env : RotationEnv) (pins : Pins) (clients : List String)
    (oldPIN newPIN : String) : Pins × List (String × Option String) :=
  let result (d : String) := changeTokenPIN (env.fault d) (pins d) oldPIN newPIN
  (fun d => if d ∈ clients then (result d).toOption.getD (pins d) else pins d,
    clients.map fun d =>
      match result d with
      | .ok _ => (d, none)
      | .error text => (d, some text))

inductive Answer where
  | failed (status : Nat) (code message : String) (errors : List String)
  | changed (status : Nat) (message : String) (successCount totalCount : Nat)
      (errors : List String)
  deriving DecidableEq

def answerOf (results : List (String × Option String)) : Answer :=
  let errors := results.filterMap fun r => r.2.map fun text => r.1 ++ ": " ++ text
  let successCount := (results.filter fun r => r.2.isNone).length
  if errors ≠ [] then
    if successCount = 0 then
      .failed 500 "pin_change_failed" "PIN change failed on all devices" errors
    else .changed 206 "Partial PIN change success" successCount results.length errors
  else .changed 200 "PIN changed successfully" successCount results.length []

def changePIN (env : RotationEnv) (pins : Pins) (req : ChangePINRequest) : Pins × Answer :=
  if req.oldPIN = "" then
    (pins, .failed 400 "missing_old_pin" "Missing old PIN" ["old_pin is required"])
  else if req.newPIN = "" then
    (pins, .failed 400 "missing_new_pin" "Missing new PIN" ["new_pin is required"])
  else if req.oldPIN = req.newPIN then
    (pins, .failed 400 "invalid_pin_change" "Invalid PIN change"
      ["new PIN must be different from old PIN"])
  else
    match getAllAvailableGRPCClients env.connects env.devices with
    | none => (pins, .failed 503 "no_agents" "No HSM agents available" [])
    | some clients =>
      let r := changePINOnAllDevices env pins clients req.oldPIN req.newPIN
      (r.1, answerOf r.2)

/-- The request fails the handler's own checks. -/
def ChangePINRequest.Rejected (req : ChangePINRequest) : Prop :=
  req.oldPIN = "" ∨ req.newPIN = "" ∨ req.oldPIN = req.newPIN

def RotationEnv.Changes (env : RotationEnv) (d : String) : Prop :=
  env.connects d = true ∧ env.fault d = none

instance (env : RotationEnv) (d : String) : Decidable (env.Changes d) :=
  inferInstanceAs (Decidable (_ ∧ _))

/-- One PIN unlocks all devices: the new one or the old one. -/
def Uniform (devices : List String) (pins : Pins) (req : ChangePINRequest) : Prop :=
  (∀ d ∈ devices, pins d = req.newPIN) ∨ ∀ d ∈ devices, pins d = req.oldPIN

variable {env : RotationEnv} {pins : Pins} {req : ChangePINRequest}

private theorem changePIN_of_rejected (h : req.Rejected) : (changePIN env pins req).1 = pins := by
  unfold changePIN
  split
  · rfl
  split
  · rfl
  split
  · rfl
  next hold hnew hsame =>
    rcases h with h | h | h
    · exact absurd h hold
    · exact absurd h hnew
    · exact absurd h hsame

private theorem changeTokenPIN_of_valid (h : ¬ req.Rejected) (fault : Option String) :
    (changeTokenPIN fault req.oldPIN req.oldPIN req.newPIN).toOption =
      if fault = none then some req.newPIN else none := by
  unfold ChangePINRequest.Rejected at h
  push Not at h
  obtain ⟨hold, hnew, hsame⟩ := h
  unfold changeTokenPIN
  rw [if_neg hold, if_neg hnew, if_neg hsame]
  cases fault with
  | none => simp [Except.toOption]
  | some text => simp [Except.toOption]

theorem changePIN_of_valid (hvalid : ¬ req.Rejected) {d : String} (hd : d ∈ env.devices)
    (hpin : pins d = req.oldPIN) :
    (changePIN env pins req).1 d = if env.Changes d then req.newPIN else req.oldPIN := by
  have hchecks := hvalid
  unfold ChangePINRequest.Rejected at hchecks
  push Not at hchecks
  obtain ⟨hold, hnew, hsame⟩ := hchecks
  have hmem : d ∈ availableClients env.connects env.devices ↔ env.connects d = true := by
    rw [mem_availableClients]
    exact and_iff_right hd
  unfold changePIN
  rw [if_neg hold, if_neg hnew, if_neg hsame]
  unfold getAllAvailableGRPCClients
  dsimp only
  by_cases hnone : availableClients env.connects env.devices = []
  · have hconnects : ¬ env.Changes d := by
      intro h
      have := hmem.mpr h.1
      rw [hnone] at this
      exact List.not_mem_nil this
    rw [hnone, if_neg hconnects]
    exact hpin
  · rw [if_neg (by simpa using hnone)]
    dsimp only [changePINOnAllDevices]
    rw [hpin, changeTokenPIN_of_valid hvalid]
    by_cases hconnects : env.connects d = true
    · rw [if_pos (hmem.mpr hconnects)]
      by_cases hfault : env.fault d = none
      · rw [if_pos hfault, if_pos ⟨hconnects, hfault⟩, Option.getD_some]
      · rw [if_neg hfault, if_neg fun h => hfault h.2, Option.getD_none]
    · rw [if_neg fun h => hconnects (hmem.mp h), if_neg fun h => hconnects h.1]

/-- The devices share a PIN after the request exactly if it is rejected or the change goes through
on all of them or on none. -/
theorem uniform_iff_unanimous (env : RotationEnv) (pins : Pins) (req : ChangePINRequest)
    (hpins : ∀ d ∈ env.devices, pins d = req.oldPIN) :
    Uniform env.devices (changePIN env pins req).1 req ↔
      req.Rejected ∨ (∀ d ∈ env.devices, env.Changes d) ∨ ∀ d ∈ env.devices, ¬ env.Changes d := by
  by_cases hvalid : req.Rejected
  · rw [Uniform, changePIN_of_rejected hvalid]
    exact iff_of_true (.inr hpins) (.inl hvalid)
  · have hafter := fun d hd => changePIN_of_valid hvalid hd (hpins d hd)
    have hdiffer : req.oldPIN ≠ req.newPIN := fun h => hvalid (.inr (.inr h))
    rw [or_iff_right hvalid]
    refine or_congr ?_ ?_
    · refine forall₂_congr fun d hd => ?_
      rw [hafter d hd]
      by_cases hchanges : env.Changes d
      · simp [hchanges]
      · simp [hchanges, hdiffer]
    · refine forall₂_congr fun d hd => ?_
      rw [hafter d hd]
      by_cases hchanges : env.Changes d
      · simp [hchanges, hdiffer.symm]
      · simp [hchanges]

private def rotation : ChangePINRequest := { oldPIN := "1234", newPIN := "5678" }

private def pair (fault : String → Option String) : RotationEnv := { devices := ["A", "B"], fault }

private def failsOnB (d : String) : Option String := if d = "B" then some "device removed" else none

theorem rotation_splits_devices :
    ¬ Uniform ["A", "B"] (changePIN (pair failsOnB) (fun _ => "1234") rotation).1 rotation := by
  unfold Uniform
  decide

theorem rotation_uniform_when_all_change :
    Uniform ["A", "B"] (changePIN (pair fun _ => none) (fun _ => "1234") rotation).1 rotation :=
  (uniform_iff_unanimous (pair fun _ => none) (fun _ => "1234") rotation fun _ _ => rfl).mpr
    (.inr (.inl (by decide)))

end HsmSecretsOperator.Api.PinRotation
