/- source: internal/modes/agent/provision.go, internal/agent/provisioner.go,
     internal/hsm/pkcs11_cgo.go
   digest: Auto-provisioning of a blank token: a check that counts and a command that erases. -/

import HsmSecretsOperator.Foundation.Replace
import HsmSecretsOperator.Foundation.Sha256

/-! The tool that erases names no reader and takes the first one with a card. -/

set_option autoImplicit false

namespace HsmSecretsOperator.Agent.Provisioning

open Foundation.Replace (replaceAll)
open Foundation.Sha256 Foundation.Text

def ckfUserPinInitialized : BitVec 64 := 0x8#64

/-- A slot with a token in it, and the flags of the token. -/
structure Slot where
  id : Nat
  flags : BitVec 64
  deriving DecidableEq

/-- No user PIN is set. -/
def Slot.blank (slot : Slot) : Bool := slot.flags &&& ckfUserPinInitialized == 0#64

structure Calls where
  /-- `AutoProvision` of the HSMDevice, if it has a PKCS#11 part. -/
  getDevice : Except String (Option Bool)
  libraryPath : String
  newContext : Bool
  initLibrary : Except String Unit
  /-- The error of `GetSlotList`. -/
  getSlotList : Option String
  /-- The error of `GetTokenInfo`. -/
  getTokenInfo : Nat → Option String
  getPIN : Except String String
  random : Except String Bytes
  /-- The error and the output of a failed command. -/
  runTool : List String → Option (String × String)

def countBlank (calls : Calls) : List Slot → Nat → Except String Nat
  | [], blankCount => .ok blankCount
  | slot :: slots, blankCount =>
    match calls.getTokenInfo slot.id with
    | some e => .error s!"failed to get token info for slot {slot.id}: {e}"
    | none => countBlank calls slots (if slot.blank then blankCount + 1 else blankCount)

def isTokenBlankPKCS11 (slots : List Slot) (calls : Calls) : Except String Bool :=
  if !calls.newContext then
    .error s!"failed to create PKCS#11 context for library: {calls.libraryPath}"
  else
    match calls.initLibrary with
    | .error e => .error s!"failed to initialize PKCS#11 library: {e}"
    | .ok () =>
      match calls.getSlotList with
      | some e => .error s!"failed to get slot list: {e}"
      | none =>
        match countBlank calls slots 0 with
        | .error e => .error e
        | .ok blankCount => .ok (blankCount = 1)

def isTokenBlank (slots : List Slot) (calls : Calls) : Except String Bool :=
  if calls.libraryPath = "" then .error "PKCS11LibraryPath is required"
  else isTokenBlankPKCS11 slots calls

def generateSOPIN (calls : Calls) : Except String String :=
  match calls.random with
  | .error e => .error s!"failed to generate SO-PIN: {e}"
  | .ok buf => .ok (sprintfX buf).toUpper

/-- One step of `redactPINs`, over any alphabet. -/
def redactPIN {α : Type} [DecidableEq α] (stars s secret : List α) : List α :=
  if secret ≠ [] then replaceAll secret stars 0 s else s

def redactPINs (s : String) (secrets : List String) : String :=
  String.ofList ((secrets.map String.toList).foldl (redactPIN "***".toList) s.toList)

def toolArgs (soPIN userPIN label : String) : List String :=
  ["--initialize", "--so-pin", soPIN, "--pin", userPIN] ++
    if label ≠ "" then ["--label", label] else []

structure Provisioned where
  command : Option (List String)
  error : Option String

def provision (calls : Calls) (userPIN label : String) : Provisioned :=
  if userPIN = "" then ⟨none, some "user PIN is required to provision a device"⟩
  else
    match generateSOPIN calls with
    | .error e => ⟨none, some e⟩
    | .ok soPIN =>
      let args := toolArgs soPIN userPIN label
      match calls.runTool args with
      | none => ⟨some args, none⟩
      | some (e, out) =>
        ⟨some args,
          some (s!"sc-hsm-tool --initialize failed: {e}: " ++ redactPINs out [soPIN, userPIN])⟩

inductive EventType where
  | normal
  | warning
  deriving DecidableEq

structure Event where
  type : EventType
  reason : String
  message : String
  deriving DecidableEq

structure Attempt where
  provisioned : Bool
  requested : Bool
  error : Option String := none
  events : List Event := []
  /-- The command that was run. -/
  command : Option (List String) := none

def attemptAutoProvision (slots : List Slot) (calls : Calls) (deviceName : String) : Attempt :=
  match calls.getDevice with
  | .error _ | .ok none | .ok (some false) => { provisioned := false, requested := false }
  | .ok (some true) =>
    match isTokenBlank slots calls with
    | .error e =>
      { provisioned := false, requested := true
        events := [⟨.warning, "ProvisionSkipped",
          s!"Auto-provision enabled but blank-token detection failed: {e}"⟩] }
    | .ok false =>
      { provisioned := false, requested := true
        events := [⟨.warning, "ProvisionSkipped", "Auto-provision enabled but token is not a " ++
          "blank, uninitialized device; not initializing"⟩] }
    | .ok true =>
      match calls.getPIN with
      | .error e =>
        { provisioned := false, requested := true
          error := some s!"failed to read user PIN for provisioning: {e}"
          events := [⟨.warning, "ProvisionFailed",
            s!"Could not read user PIN from pinSecret: {e}"⟩] }
      | .ok userPIN =>
        let started : Event := ⟨.normal, "Provisioning", "Blank SC-HSM detected; initializing " ++
          "with a random (discarded) SO-PIN and the configured user PIN"⟩
        let result := provision calls userPIN deviceName
        match result.error with
        | some e =>
          { provisioned := false, requested := true
            error := some s!"failed to initialize blank device \"{deviceName}\": {e}"
            events := [started, ⟨.warning, "ProvisionFailed",
              s!"sc-hsm-tool initialization failed: {e}"⟩]
            command := result.command }
        | none =>
          { provisioned := true, requested := true
            events := [started, ⟨.normal, "Provisioned", "SC-HSM token initialized; connecting"⟩]
            command := result.command }

/-- The tool runs without a reader argument and takes the first reader with a card; the slots are
in reader order. -/
def actsOn (slots : List Slot) : Option Slot := slots.head?

/-- If the command is run, the token it erases has no user PIN. -/
def Safe (slots : List Slot) (calls : Calls) (deviceName : String) : Prop :=
  (attemptAutoProvision slots calls deviceName).command ≠ none →
    ∀ slot, actsOn slots = some slot → slot.blank = true

variable {slots : List Slot} {calls : Calls} {deviceName : String}

theorem countBlank_eq_ok {n m : Nat} (h : countBlank calls slots n = .ok m) :
    m = n + slots.countP Slot.blank := by
  induction slots generalizing n with
  | nil => exact (Except.ok.inj h).symm
  | cons slot slots ih =>
    rw [countBlank] at h
    split at h
    · cases h
    · rw [ih h, List.countP_cons]
      split <;> omega

theorem countP_of_isTokenBlank (h : isTokenBlank slots calls = .ok true) :
    slots.countP Slot.blank = 1 := by
  unfold isTokenBlank isTokenBlankPKCS11 at h
  repeat' split at h
  all_goals try cases h
  next blankCount hcount =>
    have hone : blankCount = 1 := by simpa using Except.ok.inj h
    have htotal := countBlank_eq_ok hcount
    omega

theorem countP_of_command
    (h : (attemptAutoProvision slots calls deviceName).command ≠ none) :
    slots.countP Slot.blank = 1 := by
  unfold attemptAutoProvision at h
  repeat' split at h
  all_goals try exact absurd rfl h
  all_goals exact countP_of_isTokenBlank ‹_›

def smooth : Calls where
  getDevice := .ok (some true)
  libraryPath := "/usr/lib/opensc-pkcs11.so"
  newContext := true
  initLibrary := .ok ()
  getSlotList := none
  getTokenInfo _ := none
  getPIN := .ok "648219"
  random := .ok []
  runTool _ := none

theorem countBlank_smooth (slots : List Slot) (n : Nat) :
    countBlank smooth slots n = .ok (n + slots.countP Slot.blank) := by
  induction slots generalizing n with
  | nil => rfl
  | cons slot slots ih =>
    rw [countBlank, List.countP_cons]
    dsimp only [smooth]
    rw [← smooth, ih]
    congr 1
    split <;> omega

theorem command_smooth (h : slots.countP Slot.blank = 1) :
    (attemptAutoProvision slots smooth deviceName).command ≠ none := by
  have hblank : isTokenBlank slots smooth = .ok true := by
    unfold isTokenBlank isTokenBlankPKCS11
    rw [if_neg (by decide), if_neg (by decide)]
    dsimp only [smooth]
    rw [← smooth, countBlank_smooth, h]
    rfl
  unfold attemptAutoProvision
  rw [hblank]
  simp [smooth, provision, generateSOPIN]

/-- For a list of slots, every attempt is safe exactly if there is not just one blank token or the
first token is blank. -/
theorem provision_safe_iff (slots : List Slot) (deviceName : String) :
    (∀ calls, Safe slots calls deviceName) ↔
      slots.countP Slot.blank ≠ 1 ∨ ∀ slot ∈ slots.head?, slot.blank = true := by
  constructor
  · intro h
    by_cases hone : slots.countP Slot.blank = 1
    · exact .inr fun slot hslot => h smooth (command_smooth hone) slot hslot
    · exact .inl hone
  · rintro (hcount | hfirst) calls hcommand slot hslot
    · exact absurd (countP_of_command hcommand) hcount
    · exact hfirst slot hslot

/-- A token in use in the first reader, and a blank one in the second. -/
theorem token_in_use_is_erased :
    ¬ Safe [⟨0, ckfUserPinInitialized⟩, ⟨1, 0⟩] smooth "pico" := by
  intro h
  have hblank := h (by decide +kernel) ⟨0, ckfUserPinInitialized⟩ rfl
  revert hblank
  decide

end HsmSecretsOperator.Agent.Provisioning
