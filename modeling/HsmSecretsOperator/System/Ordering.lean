/- source: internal/api/proxy_client.go, internal/mirror/manager.go, internal/reconcile/resolve.go
   digest: Whether later mutations of a path are newer than its writes, over runs with sweeps. -/

import HsmSecretsOperator.Api.Proxy
import HsmSecretsOperator.Foundation.Runs
import HsmSecretsOperator.Hsm.Pkcs11
import HsmSecretsOperator.Mirror.Sweep

set_option autoImplicit false

namespace HsmSecretsOperator.System.Ordering

open Api.Proxy Foundation.Decimal Foundation.Runs Hsm.Secret
open Mirror.Sweep (SweepEnv mirrorAllSecrets)

/-- The part of an observation that says how new it is. -/
structure Stamp where
  version : Int
  timestamp : Int

/-- What a read makes of the labels. -/
def stampOf (metadata : SecretMetadata) : Stamp :=
  { version := parseVersionFromMetadata (some metadata)
    timestamp := parseTimestampFromMetadata (some metadata) }

/-- The comparison of `lastWriteWins` for observations of one device. -/
def Stamp.Newer (a b : Stamp) : Prop :=
  b.version < a.version ∨ a.version = b.version ∧ b.timestamp < a.timestamp

instance (a b : Stamp) : Decidable (a.Newer b) :=
  inferInstanceAs (Decidable (_ ∨ _))

/-- An operation on the path; the fan-out or the environment says whom it reaches. -/
inductive Op where
  | write (f : Fanout) (req : WriteRequest)
  | delete (f : Fanout)
  | sweep (env : SweepEnv)

/-- The devices, and the stamps of the writes acknowledged so far. -/
structure State (σ : Type) where
  cluster : Cluster σ
  acknowledged : List Stamp := []

variable {σ : Type} (c : Client σ) (path : String)

/-- The stamp that a write puts on its copies. -/
def writeStamp (f : Fanout) (cl : Cluster σ) (req : WriteRequest) : Stamp :=
  stampOf (stampMetadata req.metadata (nextVersion c f cl path) f.now)

/-- The stamp that a delete puts on its tombstones. -/
def deleteStamp (f : Fanout) : Stamp := stampOf (tombstoneMetadata f.now)

def step (s : State σ) : Op → State σ
  | .write f req =>
    { cluster := writeSecret c f s.cluster path req
      acknowledged := if f.acknowledged then writeStamp c path f s.cluster req :: s.acknowledged
        else s.acknowledged }
  | .delete f => { s with cluster := deleteSecret c f s.cluster path }
  | .sweep env => { s with cluster := (mirrorAllSecrets c env s.cluster).1.cluster }

/-- An acknowledged write has a higher version than every write acknowledged before it, and an
acknowledged delete is newer than each of them. -/
def Ordered (s : State σ) : Op → Prop
  | .write f req => f.acknowledged = true → ∀ o ∈ s.acknowledged,
      o.version < (writeStamp c path f s.cluster req).version
  | .delete f => f.acknowledged = true → ∀ o ∈ s.acknowledged, (deleteStamp f).Newer o
  | .sweep _ => True

instance (s : State σ) : ∀ op, Decidable (Ordered c path s op)
  | .write f req => inferInstanceAs (Decidable (f.acknowledged = true → ∀ o ∈ s.acknowledged,
      o.version < (writeStamp c path f s.cluster req).version))
  | .delete f => inferInstanceAs (Decidable (f.acknowledged = true → ∀ o ∈ s.acknowledged,
      (deleteStamp f).Newer o))
  | .sweep _ => inferInstanceAs (Decidable True)

/-- For each write acknowledged before, a later write gets an answer with a version that is no
lower, and none with the greatest version there is. A delete comes after no such write, unless the
counter had wrapped below zero. -/
def Visible (s : State σ) : Op → Prop
  | .write f _ => f.acknowledged = true → ∀ o ∈ s.acknowledged,
      (∀ d ∈ f.clients, reported (f.metadataAnswer c s.cluster path d) ≠ some maxInt64) ∧
        (o.version ≤ 0 ∨ ∃ d ∈ f.clients, ∃ v,
          reported (f.metadataAnswer c s.cluster path d) = some v ∧ o.version ≤ v)
  | .delete f => f.acknowledged = true → ∀ o ∈ s.acknowledged, o.version < 0
  | .sweep _ => True

/-- Acknowledged versions are 64-bit and never zero, the version of a tombstone. -/
def Inv (s : State σ) : Prop := ∀ o ∈ s.acknowledged, InInt64 o.version ∧ o.version ≠ 0

theorem writeStamp_eq (f : Fanout) (cl : Cluster σ) (req : WriteRequest) :
    writeStamp c path f cl req =
      { version := nextVersion c f cl path, timestamp := f.now.unix } := by
  rw [writeStamp, stampOf, parseVersionFromMetadata, parseTimestampFromMetadata,
    metadataVersion_stampMetadata req.metadata (inInt64_nextVersion c f cl path) f.now,
    metadataTimestamp_stampMetadata]

theorem deleteStamp_eq (f : Fanout) :
    deleteStamp f = { version := 0, timestamp := f.now.unix } := by
  rw [deleteStamp, stampOf, parseVersionFromMetadata, parseTimestampFromMetadata,
    metadataVersion_tombstoneMetadata, metadataTimestamp_tombstoneMetadata]

private theorem inv_step (s : State σ) (op : Op) (hs : Inv s) : Inv (step c path s op) := by
  cases op with
  | write f req =>
    intro o ho
    simp only [step] at ho
    split at ho
    · rcases List.mem_cons.mp ho with rfl | ho
      · rw [writeStamp_eq]
        exact ⟨inInt64_nextVersion c f s.cluster path, nextVersion_ne_zero c f s.cluster path⟩
      · exact hs o ho
    · exact hs o ho
  | delete f => exact hs
  | sweep env => exact hs

private theorem newer_deleteStamp_iff (f : Fanout) {o : Stamp} (h : o.version ≠ 0) :
    (deleteStamp f).Newer o ↔ o.version < 0 := by
  rw [Stamp.Newer, deleteStamp_eq]
  constructor
  · rintro (hlt | ⟨heq, _⟩)
    · exact hlt
    · exact absurd heq.symm h
  · exact .inl

private theorem ordered_iff_visible (s : State σ) (op : Op) (hs : Inv s) :
    Ordered c path s op ↔ Visible c path s op := by
  cases op with
  | write f req =>
    refine forall_congr' fun _ => forall₂_congr fun o ho => ?_
    rw [writeStamp_eq, lt_nextVersion_iff c f s.cluster path (hs o ho).1]
  | delete f =>
    exact forall_congr' fun _ => forall₂_congr fun o ho => newer_deleteStamp_iff f (hs o ho).2
  | sweep env => exact Iff.rfl

/-- A run is ordered exactly if each of its writes sees the versions acknowledged before it and no
delete follows a write. -/
theorem mutations_ordered_iff (cl : Cluster σ) (ops : List Op) :
    Along (step c path) (Ordered c path) { cluster := cl } ops ↔
      Along (step c path) (Visible c path) { cluster := cl } ops := by
  have hinit : Inv ({ cluster := cl } : State σ) := by
    intro o ho
    cases ho
  exact Along.congr (inv_step c path) (ordered_iff_visible c path) hinit

private def blank : State Hsm.Pkcs11.Token := { cluster := fun _ => [] }

private def reaching (clients : List String) (nodup : clients.Nodup) : Fanout :=
  .reaching clients nodup (.ofUnix 1735689600)

private def password : WriteRequest :=
  { data := (∅ : Std.ExtTreeMap String String).insert "password" "hunter2", metadata := none }

/-- The tombstone of a delete is older than the copy it deletes, and a write that reaches only a
device without a copy gets the version of the write before it. -/
theorem mutations_not_ordered :
    ¬ Along (step Hsm.Pkcs11.client "db") (Ordered Hsm.Pkcs11.client "db") blank
        [.write (reaching ["A"] (by decide)) password, .delete (reaching ["A"] (by decide))] ∧
    ¬ Along (step Hsm.Pkcs11.client "db") (Ordered Hsm.Pkcs11.client "db") blank
        [.write (reaching ["A"] (by decide)) password,
          .write (reaching ["B"] (by decide)) password] := by
  decide +kernel

end HsmSecretsOperator.System.Ordering
