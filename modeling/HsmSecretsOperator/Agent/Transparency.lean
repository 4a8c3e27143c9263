/- source: internal/agent/grpc_client.go, internal/agent/grpc_server.go,
     internal/hsm/pkcs11_client.go
   digest: Calls of a backend directly and through the agent, and where they differ. -/

import HsmSecretsOperator.Agent.Server
import HsmSecretsOperator.Foundation.Runs

set_option autoImplicit false

namespace HsmSecretsOperator.Agent.Transparency

open Foundation.Runs Foundation.Text
open Hsm.Pkcs11 (Token)
open Hsm.Secret Security.Interceptor Security.Validation Server

/-- The final state of a sequence of calls, with the value of each or none where it fails. -/
def runOps {σ : Type} (call : σ → Operation → σ × Except String Value) :
    σ → List Operation → σ × List (Option Value)
  | s, [] => (s, [])
  | s, op :: ops =>
    let rest := runOps call (call s op).1 ops
    (rest.1, (call s op).2.toOption :: rest.2)

def Connected {σ : Type} (b : Backend σ) : σ → List Operation → Prop :=
  Along (fun s op => (direct b s op).1) fun s _ => b.isConnected s = true

theorem arriving_eq_self {op : Operation} :
    op.arriving = op ↔ ∀ path, op ≠ .deleteSecretKey path "" := by
  cases op with
  | deleteSecretKey path key =>
    dsimp only [Operation.arriving]
    by_cases hkey : key = ""
    · rw [if_pos hkey]
      refine iff_of_false (fun heq => by cases heq) fun h => h path ?_
      rw [hkey]
    · rw [if_neg hkey]
      refine iff_of_true rfl fun path' heq => hkey ?_
      exact (Operation.deleteSecretKey.inj heq).2
  | _ => exact iff_of_true rfl fun path heq => by cases heq

theorem runOps_viaGrpc {σ : Type} {b : Backend σ} {s : σ} {ops : List Operation}
    (hvalid : ∀ op ∈ ops, op.Valid) (hkeys : ∀ op ∈ ops, op.arriving = op)
    (hconnected : Connected b s ops) : runOps (viaGrpc b) s ops = runOps (direct b) s ops := by
  induction ops generalizing s with
  | nil => rfl
  | cons op ops ih =>
    obtain ⟨hhere, hlater⟩ := hconnected
    have hstep := viaGrpc_alike b s op (hvalid op List.mem_cons_self) hhere
    rw [hkeys op List.mem_cons_self] at hstep
    have hrest := ih (fun op' h => hvalid op' (List.mem_cons_of_mem _ h))
      (fun op' h => hkeys op' (List.mem_cons_of_mem _ h)) hlater
    rw [runOps, runOps, hstep.state, hstep.value, hrest]

def recorder : Backend (List Operation) where
  isConnected _ := true
  readSecret s path := (s ++ [.readSecret path], .ok ∅)
  writeSecret s path data metadata := (s ++ [.writeSecret path data metadata], .ok ())
  readMetadata s path := (s ++ [.readMetadata path], .ok none)
  deleteSecret s path := (s ++ [.deleteSecret path], .ok ())
  deleteSecretKey s path key := (s ++ [.deleteSecretKey path key], .ok ())
  listSecrets s under := (s ++ [.listSecrets under], .ok [])
  getChecksum s path := (s ++ [.getChecksum path], .ok "")

theorem direct_recorder (s : List Operation) (op : Operation) :
    (direct recorder s op).1 = s ++ [op] := by
  cases op <;> rfl

theorem runOps_state {σ : Type} {call : σ → Operation → σ × Except String Value}
    (f : σ → Operation → σ) {ops : List Operation}
    (h : ∀ op ∈ ops, ∀ s, (call s op).1 = f s op) (s : σ) :
    (runOps call s ops).1 = ops.foldl f s := by
  induction ops generalizing s with
  | nil => rfl
  | cons op ops ih =>
    rw [runOps, List.foldl_cons, ← h op List.mem_cons_self]
    exact ih (fun op' h' => h op' (List.mem_cons_of_mem _ h')) _

private theorem foldl_append_map (f : Operation → Operation) (ops s : List Operation) :
    ops.foldl (fun s op => s ++ [f op]) s = s ++ ops.map f := by
  induction ops generalizing s with
  | nil => exact (List.append_nil s).symm
  | cons op ops ih => rw [List.foldl_cons, ih, List.append_assoc, List.map_cons]; rfl

/-- For every connected backend a sequence of operations with valid paths does the same through the
agent as directly, up to the texts of errors, exactly if it never deletes the empty key. -/
theorem grpc_transparent_iff (ops : List Operation) (hvalid : ∀ op ∈ ops, op.Valid) :
    (∀ (σ : Type) (b : Backend σ) (s : σ), Connected b s ops →
        runOps (viaGrpc b) s ops = runOps (direct b) s ops) ↔
      ∀ op ∈ ops, ∀ path, op ≠ .deleteSecretKey path "" := by
  simp only [← arriving_eq_self]
  constructor
  · intro h
    have hsame := congrArg Prod.fst (h _ recorder [] (.of_forall fun _ _ _ => rfl))
    have hvia : ∀ op ∈ ops, ∀ s, (viaGrpc recorder s op).1 = s ++ [op.arriving] := by
      intro op hop s
      rw [(viaGrpc_alike recorder s op (hvalid op hop) rfl).state, direct_recorder]
    rw [runOps_state (fun s op => s ++ [op.arriving]) hvia,
      runOps_state (fun s op => s ++ [op]) (fun op _ s => direct_recorder s op),
      foldl_append_map Operation.arriving, foldl_append_map fun op => op] at hsame
    have hmap : ops.map Operation.arriving = ops.map fun op => op := hsame
    exact List.map_inj_left.mp hmap
  · intro h σ b s hconnected
    exact runOps_viaGrpc hvalid h hconnected

private def credentials : SecretData :=
  ((∅ : SecretData).insert "user" (utf8 "app")).insert "password" (utf8 "x")

/-- A key is written and deleted again in both ways alike. -/
theorem transparent_key_deletion :
    let ops := [.writeSecret "db" credentials none, .deleteSecretKey "db" "user"]
    (∀ op ∈ ops, op.Valid) ∧ ∀ (σ : Type) (b : Backend σ) (s : σ), Connected b s ops →
      runOps (viaGrpc b) s ops = runOps (direct b) s ops := by
  have hvalid : ∀ op ∈ [Operation.writeSecret "db" credentials none,
      .deleteSecretKey "db" "user"], op.Valid := by
    simp only [List.mem_cons, List.not_mem_nil, or_false, forall_eq_or_imp, forall_eq]
    refine ⟨?_, ?_⟩ <;> rintro _ ⟨⟩ <;> decide
  refine ⟨hvalid, (grpc_transparent_iff _ hvalid).mpr ?_⟩
  simp

/-- Directly there is no object for the empty key and the call fails; through the agent it succeeds
and the secret is gone. -/
theorem empty_key_deletes_secret :
    let t := Hsm.Pkcs11.writeSecret [] "db" credentials none
    validateSecretPath "db" = .ok () ∧
      runOps (direct tokenBackend) t [.deleteSecretKey "db" ""] = (t, [none]) ∧
      runOps (viaGrpc tokenBackend) t [.deleteSecretKey "db" ""] = ([], [some .done]) := by
  decide +kernel

end HsmSecretsOperator.Agent.Transparency
