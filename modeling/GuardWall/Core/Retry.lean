import GuardWall.Core.Observed
import Mathlib.Tactic.IntervalCases

/-! The retry ledger's vocabulary: failure domains, retry keys and budgets, Probe
requirements, and the transitions the controller asks the store to commit. -/
namespace GuardWall.Core

inductive Domain where
  | infrastructure
  | policy
  | target
  deriving DecidableEq, Repr

/-- `ReconcileKey`: one failure domain, that is one ledger row. -/
inductive ReconcileKey where
  | infrastructure
  | policy
  | target (target : Prefix)
  deriving DecidableEq, Repr

namespace ReconcileKey

def domain : ReconcileKey → Domain
  | infrastructure => .infrastructure
  | policy => .policy
  | target _ => .target

end ReconcileKey

/-- `attemptRef`: a failure domain with its revision or generation and its retry epoch. -/
@[ext]
structure AttemptRef where
  slot : ReconcileKey
  version : Nat
  epoch : Nat
  deriving DecidableEq, Repr

def sameAttemptPhysicalKey (left right : AttemptRef) : Bool :=
  left.slot == right.slot && left.version == right.version

theorem sameAttemptPhysicalKey_iff {left right : AttemptRef} :
    sameAttemptPhysicalKey left right = true ↔
      left.slot = right.slot ∧ left.version = right.version := by
  simp [sameAttemptPhysicalKey]

/-- The fields that name a physical operation in a plan, a Probe requirement or a ledger row. -/
structure PhysicalKey where
  domain : Domain
  target : Prefix := none
  infrastructureRevision : Nat := 0
  policyRevision : Nat := 0
  targetGeneration : Nat := 0
  deriving DecidableEq, Repr

namespace PhysicalKey

def slot (k : PhysicalKey) : ReconcileKey :=
  match k.domain with
  | .infrastructure => .infrastructure
  | .policy => .policy
  | .target => .target k.target

def version (k : PhysicalKey) : Nat :=
  match k.domain with
  | .infrastructure => k.infrastructureRevision
  | .policy => k.policyRevision
  | .target => k.targetGeneration

def ref (k : PhysicalKey) (epoch : Nat) : AttemptRef := ⟨k.slot, k.version, epoch⟩

end PhysicalKey

def AttemptRef.physicalKey (r : AttemptRef) : PhysicalKey :=
  match r.slot with
  | .infrastructure => { domain := .infrastructure, infrastructureRevision := r.version }
  | .policy => { domain := .policy, policyRevision := r.version }
  | .target t => { domain := .target, target := t, targetGeneration := r.version }

@[simp] theorem AttemptRef.slot_physicalKey (r : AttemptRef) : r.physicalKey.slot = r.slot := by
  rcases r with ⟨slot, _, _⟩
  cases slot <;> rfl

@[simp] theorem AttemptRef.version_physicalKey (r : AttemptRef) :
    r.physicalKey.version = r.version := by
  rcases r with ⟨slot, _, _⟩
  cases slot <;> rfl

structure PendingProbeKey extends PhysicalKey where
  snapshotRevision : Nat := 0
  fenceSnapshotRevision : Bool := false
  deriving DecidableEq, Repr

def PendingProbeKey.names (key : PendingProbeKey) (ref : AttemptRef) : Prop :=
  key.ref ref.epoch = ref

inductive ReconcileStatus where
  | pending
  | applying
  | converged
  | retryWaiting
  | degraded
  deriving DecidableEq, Repr

structure RetryState where
  status : ReconcileStatus
  attemptCount : Nat := 0
  lastAttemptAt : Option Instant := none
  nextAttemptAt : Option Instant := none
  lastErrorCode : String := ""
  deriving DecidableEq, Repr

/-- `core.RetryState{Status: core.ReconcilePending}`. It also stands for the zero value a
lookup of an unknown key yields: every reader of that overwrites the status. -/
def RetryState.fresh : RetryState := { status := .pending }

def RetryState.converge (s : RetryState) : RetryState :=
  { s with status := .converged, nextAttemptAt := none, lastErrorCode := "" }

def RetryState.nextFollowsLast (s : RetryState) : Bool :=
  match s.lastAttemptAt, s.nextAttemptAt with
  | some last, some next => next.after last
  | _, _ => false

/-- `maxMutationAttempts` and the store's `maxPersistedReconcileAttempts`. -/
def maxMutationAttempts : Nat := 6

def retryBackoff : List Duration := [second, 5 * second, 30 * second, 5 * minute, 15 * minute]

/-- `retryBackoff[attempts-1]`; `none` is the index panic. -/
def backoffAfter (attempts : Nat) : Option Duration :=
  match attempts with
  | 0 => none
  | n + 1 => retryBackoff[n]?

structure PersistedState where
  nodeID : String
  ref : AttemptRef
  retry : RetryState
  updatedAt : Instant
  deriving DecidableEq, Repr

structure ProbeRequirement where
  nodeID : String
  key : PendingProbeKey
  epoch : Nat
  attempt : Nat
  recordedAt : Instant
  deriving DecidableEq, Repr

def ProbeRequirement.ref (p : ProbeRequirement) : AttemptRef := p.key.ref p.epoch

/-- `ReconcileStateTransition`; no state is the delete-only form. -/
structure Transition where
  state : Option PersistedState := none
  upsertProbe : Option ProbeRequirement := none
  deleteProbe : Option ProbeRequirement := none
  observed : Option ObservedUpdate := none
  deriving DecidableEq, Repr

structure RetryAudit where
  id : String
  idempotencyKey : String
  nodeID : String
  actorType : String
  previousEpoch : Nat
  occurredAt : Instant
  deriving DecidableEq, Repr

structure RetryTransition where
  state : PersistedState
  audit : RetryAudit
  deriving DecidableEq, Repr

structure Recovery where
  states : List PersistedState
  probes : List ProbeRequirement
  deriving DecidableEq, Repr

end GuardWall.Core
