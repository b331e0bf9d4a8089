import GuardWall.Core.Retry

/-! `reconcile/model`: operation plans, their digests and apply results. -/
namespace GuardWall.Reconcile

open GuardWall.Core

/-- `OperationPlan`. `key` holds the domain, the target and every revision fence, which is
what `pendingProbeKeyForPlan` reads. -/
structure OperationPlan where
  key : PendingProbeKey
  desiredTarget : Option Intent := none
  desiredInfrastructure : InfrastructureIntent := ⟨"", "", ""⟩
  desiredPolicy : PolicyIntent := ⟨"", [], []⟩
  basisSnapshotDigest : String := ""
  digest : String := ""
  deriving DecidableEq, Repr

structure PlanFrame where
  key : PendingProbeKey
  basis : String
  infrastructure : InfrastructureIntent
  policyRelationDigest : String
  intent : Option Intent
  deriving DecidableEq, Repr

/-- The digests of the reconciler, each over the frame its source hashes. -/
structure Digests where
  policy : Hash String
  plan : Hash PlanFrame
  snapshot : Hash Snapshot.Frame
  retry : Hash (String × AttemptRef × Nat)

namespace OperationPlan

/-- Times are rendered in UTC, so their monotonic part is not bound. -/
def frameIntent (i : Intent) : Intent :=
  { i with effectiveUntil := i.effectiveUntil.map fun t => ⟨t.wall, none⟩ }

def frame (p : OperationPlan) : PlanFrame :=
  ⟨p.key, p.basisSnapshotDigest, p.desiredInfrastructure, p.desiredPolicy.relationDigest,
    p.desiredTarget.map frameIntent⟩

def planDigest (digests : Digests) (p : OperationPlan) : String := digests.plan.hex p.frame

/-- Binds a plan to a physical basis: `plan.BasisSnapshotDigest = snapshot.Digest()` followed
by `plan.Digest = PlanDigest(plan)`. -/
def bind (digests : Digests) (p : OperationPlan) (snapshot : Snapshot) : OperationPlan :=
  let based := { p with basisSnapshotDigest := snapshot.digest digests.snapshot }
  { based with digest := based.planDigest digests }

def slot (p : OperationPlan) : ReconcileKey := p.key.slot

/-- `ValidatePlan` -/
def validate (digests : Digests) (p : OperationPlan) : Except Fault Unit := do
  reject (p.digest == "" || p.digest != p.planDigest digests)
    "plan digest does not bind its payload"
  match p.key.domain with
  | .infrastructure => do
      reject (p.key.target.isValid || p.key.infrastructureRevision == 0)
        "infrastructure plan has an invalid fence or target"
      reject p.desiredInfrastructure.incomplete
        "infrastructure plan requires a complete desired payload"
  | .policy => do
      reject (p.key.target.isValid || p.key.policyRevision == 0)
        "policy plan has an invalid fence or target"
      reject (p.desiredPolicy.relationDigest == "") "policy plan requires a relation digest"
      if p.desiredPolicy.hasPayload then
        within "policy plan requires a complete desired payload"
          (p.desiredPolicy.validateComplete digests.policy)
  | .target => do
      reject (!p.key.target.canonical) "target plan requires one canonical target"
      match p.desiredTarget with
      | none => .error (.text "target plan payload generation does not match its fence")
      | some intent => do
          reject (intent.canonicalTarget != p.key.target || p.key.targetGeneration == 0 ||
              intent.generation != p.key.targetGeneration)
            "target plan payload generation does not match its fence"
          within "validate desired target" intent.validate

end OperationPlan

/-- `ResultKind`; a backend may also return a code that is none of the three. -/
inductive ResultKind where
  | confirmed
  | rejected
  | unknown
  | unsupported (code : Nat)
  deriving DecidableEq, Repr

structure ApplyResult where
  kind : ResultKind
  domain : Domain
  target : Prefix := none
  digest : String := ""
  errorCode : String := ""
  deriving DecidableEq, Repr

def retryable (code : String) : Bool :=
  code != "ownership_conflict" && code != "unsupported" && code != "invalid_plan"

end GuardWall.Reconcile
