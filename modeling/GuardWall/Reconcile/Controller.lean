import GuardWall.Reconcile.Plan
import GuardWall.Foundation.Table
import Mathlib.Data.Finset.Basic

/-! The controller's memory and the functions of it that touch nothing else. -/
namespace GuardWall.Reconcile

open GuardWall.Core GuardWall.Foundation

/-- `Controller`. The three state maps of the source are one map here, since an attempt
reference names its failure domain; `desired` is present exactly when `hasDesired`. -/
structure Controller where
  nodeID : String
  desired : Option DesiredSnapshot := none
  epochs : ReconcileKey → Nat := fun _ => 0
  states : Table AttemptRef RetryState := ∅
  confirmedTargets : Prefix → Option Nat := fun _ => none
  pendingProbes : Table PendingProbeKey AttemptRef := ∅
  syntheticRefs : Finset AttemptRef := ∅
  startupProbeRequired : Bool := false
  recoveryReloadNeeded : Bool := false
  lastObservedAt : Instant := Instant.zero

namespace Controller

def desiredTarget? (c : Controller) (target : Prefix) : Option Intent :=
  c.desired.bind fun d => d.target? target

def published? (c : Controller) : ReconcileKey → Option Nat
  | .infrastructure => c.desired.map DesiredSnapshot.infrastructureRevision
  | .policy => c.desired.map DesiredSnapshot.policyRevision
  | .target t => (c.desiredTarget? t).map Intent.generation

def state? (c : Controller) (ref : AttemptRef) : Option RetryState := c.states.lookup ref

def getState (c : Controller) (ref : AttemptRef) : RetryState := (c.state? ref).getD .fresh

def putState (c : Controller) (ref : AttemptRef) (state : RetryState) : Controller :=
  { c with states := c.states.insert ref state }

/-- `currentAttemptRefForKeyLocked` -/
def currentRef? (c : Controller) (slot : ReconcileKey) : Option AttemptRef :=
  (c.published? slot).map fun version => ⟨slot, version, c.epochs slot⟩

/-- The reference `attemptStateLocked` builds for a plan. -/
def attemptRef (c : Controller) (plan : OperationPlan) : AttemptRef :=
  plan.key.ref (c.epochs plan.slot)

def currentStateForPendingKey (c : Controller) (key : PendingProbeKey) :
    Option (AttemptRef × RetryState) :=
  (c.currentRef? key.slot).bind fun ref => (c.state? ref).map fun state => (ref, state)

/-- The largest epoch the memory holds for a revision or generation, 0 if none. -/
def maxEpoch (c : Controller) (slot : ReconcileKey) (version : Nat) : Nat :=
  c.states.rows.foldl
    (fun best entry =>
      if entry.1.slot = slot ∧ entry.1.version = version then max best entry.1.epoch else best)
    0

def activateHydratedState (c : Controller) : Controller :=
  { c with
    epochs := fun slot =>
      match c.published? slot with
      | some version => c.maxEpoch slot version
      | none => c.epochs slot
    confirmedTargets := fun _ => none }

def planMatchesCurrentDesired (c : Controller) (plan : OperationPlan) : Bool :=
  match c.desired with
  | none => false
  | some d =>
      match plan.key.domain with
      | .infrastructure =>
          plan.key.infrastructureRevision == d.infrastructureRevision &&
          (!plan.key.fenceSnapshotRevision || plan.key.snapshotRevision == d.snapshotRevision) &&
          plan.desiredInfrastructure == d.infrastructure
      | .policy =>
          plan.key.policyRevision == d.policyRevision && plan.desiredPolicy == d.policy
      | .target =>
          match d.target? plan.key.target, plan.desiredTarget with
          | some intent, some wanted =>
              plan.key.targetGeneration == intent.generation &&
              wanted.generation == intent.generation && wanted.equivalent intent
          | _, _ => false

def pendingKeyMatchesCurrentDesired (c : Controller) (key : PendingProbeKey) : Bool :=
  match c.desired with
  | none => false
  | some d =>
      match key.domain with
      | .infrastructure =>
          key.infrastructureRevision == d.infrastructureRevision &&
          (!key.fenceSnapshotRevision || key.snapshotRevision == d.snapshotRevision)
      | .policy => key.policyRevision == d.policyRevision
      | .target =>
          match d.target? key.target with
          | some intent => key.targetGeneration == intent.generation
          | none => false

def snapshotMatchesCurrentDesired (c : Controller) (snapshot : Snapshot) :
    ReconcileKey → Bool
  | .infrastructure =>
      match c.desired, snapshot.infrastructure with
      | some d, some observed => observed == d.infrastructure
      | _, _ => false
  | .policy =>
      match c.desired, snapshot.policy with
      | some d, some digest => digest == d.policy.relationDigest
      | _, _ => false
  | .target t =>
      match c.desiredTarget? t with
      | some intent => physicalTargetMatches snapshot intent
      | none => false

variable {c c' : Controller}

theorem published?_congr (same : c'.desired = c.desired) (slot : ReconcileKey) :
    c'.published? slot = c.published? slot := by
  cases slot with
  | target t =>
    unfold published? desiredTarget?
    rw [same]
  | infrastructure => exact congrArg (Option.map DesiredSnapshot.infrastructureRevision) same
  | policy => exact congrArg (Option.map DesiredSnapshot.policyRevision) same

theorem pendingKeyMatches_congr (same : c'.desired = c.desired) (key : PendingProbeKey) :
    c'.pendingKeyMatchesCurrentDesired key = c.pendingKeyMatchesCurrentDesired key := by
  unfold pendingKeyMatchesCurrentDesired
  rw [same]

theorem planMatches_congr (same : c'.desired = c.desired) (plan : OperationPlan) :
    c'.planMatchesCurrentDesired plan = c.planMatchesCurrentDesired plan := by
  unfold planMatchesCurrentDesired
  rw [same]

theorem snapshotMatches_congr (same : c'.desired = c.desired) (snapshot : Snapshot)
    (slot : ReconcileKey) :
    c'.snapshotMatchesCurrentDesired snapshot slot =
      c.snapshotMatchesCurrentDesired snapshot slot := by
  unfold snapshotMatchesCurrentDesired desiredTarget?
  rw [same]

def markPendingRefsSuperseded (c : Controller) (current : AttemptRef) : Controller :=
  { c with
    syntheticRefs := c.pendingProbes.rows.foldl
      (fun refs entry =>
        if entry.2 ≠ current ∧ sameAttemptPhysicalKey entry.2 current then
          insert entry.2 refs
        else refs)
      c.syntheticRefs }

def hasPendingRef (c : Controller) (ref : AttemptRef) : Bool :=
  c.pendingProbes.rows.any fun entry => entry.2 == ref

end Controller

/-- The per-target part of `validateDesiredTransition`; the result says whether a target
changed its meaning. -/
def validateTargetTransition (next : DesiredSnapshot) : List Intent → Except Fault Bool
  | [] => .ok false
  | old :: rest => do
      match next.target? old.canonicalTarget with
      | none => .error (.text "target cannot disappear; publish an Absent intent generation")
      | some new =>
          if !old.equivalent new then do
            reject (new.generation ≤ old.generation) "changed target must advance generation"
            let _ ← validateTargetTransition next rest
            return true
          else do
            reject (new.generation != old.generation) "unchanged target cannot advance generation"
            validateTargetTransition next rest

def validateDesiredTransition (previous next : DesiredSnapshot) : Except Fault Unit := do
  reject (next.snapshotRevision < previous.snapshotRevision ||
      next.infrastructureRevision < previous.infrastructureRevision ||
      next.policyRevision < previous.policyRevision)
    "desired revisions cannot move backward"
  let infraChanged := previous.infrastructure != next.infrastructure
  let policyChanged := previous.policy != next.policy
  reject (infraChanged != decide (previous.infrastructureRevision < next.infrastructureRevision))
    "infrastructure revision must change exactly with infrastructure intent"
  reject (policyChanged != decide (previous.policyRevision < next.policyRevision))
    "policy revision must change exactly with policy intent"
  let targetsChanged ← validateTargetTransition next previous.targets
  let targetsAdded := next.targets.any fun i => (previous.target? i.canonicalTarget).isNone
  reject ((infraChanged || policyChanged || targetsChanged || targetsAdded) !=
      decide (previous.snapshotRevision < next.snapshotRevision))
    "snapshot revision must change exactly with external desired state"

def Controller.setDesiredSnapshot (hash : Hash String) (snapshot : DesiredSnapshot)
    (c : Controller) : Except Fault Controller := do
  let prepared ← within "validate desired snapshot" (snapshot.prepare hash)
  checkSome c.desired fun previous => validateDesiredTransition previous prepared
  return { c with desired := some prepared }.activateHydratedState

end GuardWall.Reconcile
