/- source: internal/agent/provisioner.go
   digest: Redaction of the PINs in the output of the provisioning tool. -/

import HsmSecretsOperator.Agent.Provisioning

set_option autoImplicit false

namespace HsmSecretsOperator.Agent.Redaction

open Foundation.Replace Foundation.Text
open Provisioning (redactPIN)

def stars : Bytes := [0x2a, 0x2a, 0x2a]

/-- `redactPINs` on bytes. -/
def redactPINs (s : Bytes) (secrets : List Bytes) : Bytes := secrets.foldl (redactPIN stars) s

/-- A secret that can be found again only as itself: it is not empty and has no `*`. -/
def Plain (secret : Bytes) : Prop := secret ≠ [] ∧ 0x2a ∉ secret

private theorem Plain.apart {secret : Bytes} (h : Plain secret) : Apart secret stars := by
  intro b hb hstar
  have hb' : b = 0x2a := by simpa [stars] using hstar
  exact h.2 (hb' ▸ hb)

private theorem infix_of_infix_redactPIN {w s secret : Bytes} (hw : Plain w)
    (h : w <:+: redactPIN stars s secret) : w <:+: s := by
  unfold redactPIN at h
  split at h
  · exact infix_of_infix_replaceAll hw.1 (by decide) hw.apart h
  · exact h

theorem infix_of_infix_redactPINs {w s : Bytes} {secrets : List Bytes} (hw : Plain w)
    (h : w <:+: redactPINs s secrets) : w <:+: s := by
  induction secrets generalizing s with
  | nil => exact h
  | cons secret secrets ih => exact infix_of_infix_redactPIN hw (ih h)

private theorem not_infix_redactPIN {secret : Bytes} (h : Plain secret) (s : Bytes) :
    ¬ secret <:+: redactPIN stars s secret := by
  rw [redactPIN, if_pos h.1]
  exact not_infix_replaceAll h.1 (by decide) h.apart 0 s

/-- The redacted output contains none of the secrets. -/
theorem redactPINs_removes_all (s : Bytes) (secrets : List Bytes)
    (hne : ∀ secret ∈ secrets, secret ≠ []) (hstar : ∀ secret ∈ secrets, 0x2a ∉ secret) :
    ∀ secret ∈ secrets, ¬ secret <:+: redactPINs s secrets := by
  induction secrets generalizing s with
  | nil => exact fun _ h => absurd h List.not_mem_nil
  | cons pin secrets ih =>
    intro secret hsecret h
    have hplain : Plain secret := ⟨hne secret hsecret, hstar secret hsecret⟩
    rcases List.mem_cons.mp hsecret with rfl | hrest
    · exact not_infix_redactPIN hplain s (infix_of_infix_redactPINs hplain h)
    · exact ih (redactPIN stars s pin) (fun x hx => hne x (List.mem_cons_of_mem pin hx))
        (fun x hx => hstar x (List.mem_cons_of_mem pin hx)) secret hrest h

/-- The output `121212` with the overlapping secrets `1212` and `12`. -/
theorem redactPINs_removes_overlapping :
    redactPINs [0x31, 0x32, 0x31, 0x32, 0x31, 0x32] [[0x31, 0x32, 0x31, 0x32], [0x31, 0x32]] =
        stars ++ stars ∧
      ∀ secret ∈ [[0x31, 0x32, 0x31, 0x32], [0x31, 0x32]],
        ¬ secret <:+: redactPINs [0x31, 0x32, 0x31, 0x32, 0x31, 0x32]
          [[0x31, 0x32, 0x31, 0x32], [0x31, 0x32]] :=
  ⟨by decide, redactPINs_removes_all _ _ (by decide) (by decide)⟩

end HsmSecretsOperator.Agent.Redaction
