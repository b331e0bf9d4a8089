import GuardWall.Store.Ledger

/-! `desired_state.go` and `policy_write.go` of the store: the Decision and Policy
transactions that advance Desired state and reset the ledger rows they supersede. -/
namespace GuardWall.Store

open GuardWall.Core

/-- The CHECK constraints of `enforcement_states` on the Desired columns. -/
def enforcementConstraints (i : Intent) : Except Fault Unit := do
  reject (i.canonicalTarget.toText.length < 3 || 64 < i.canonicalTarget.toText.length)
    "CHECK constraint failed: canonical_target"
  reject (i.backendAttributesDigest.length != 64)
    "CHECK constraint failed: backend_attributes_digest"
  reject (!((i.policyCoverage == .none && i.policyRelationDigest == "") ||
      (i.policyCoverage != .none && i.policyRelationDigest.length == 64)))
    "CHECK constraint failed: policy_coverage"

def persistIntent (i : Intent) : Intent :=
  { i with effectiveUntil := i.effectiveUntil.map Instant.truncateMicro }

def putTargetEnforcementIntent (i : Intent) (db : Database) : Except Fault Database := do
  within "put target enforcement intent: validate" i.validate
  reject (maxInt64 < i.generation) "put target enforcement intent: generation is exhausted"
  within "put target enforcement intent" (enforcementConstraints i)
  reject (i.nodeID != db.nodeID) "put target enforcement intent: FOREIGN KEY constraint failed"
  match db.enforcement.lookup i.canonicalTarget with
  | none =>
      return { db with
        enforcement := db.enforcement.insert i.canonicalTarget ⟨persistIntent i, none⟩ }
  | some row =>
      if row.intent.generation < i.generation then
        return { db with
          enforcement := db.enforcement.insert i.canonicalTarget
            { row with intent := persistIntent i } }
      else do
        reject (row.intent.generation != i.generation || !row.intent.equivalent i)
          "put target enforcement intent: stale or conflicting generation"
        return db

def pendingRow (version epoch : Nat) (at_ : Instant) : StateRow where
  version := version
  epoch := epoch
  status := .pending
  attemptCount := 0
  lastAttemptUS := none
  nextAttemptUS := none
  lastErrorCode := ""
  updatedUS := at_.unixMicro

/-- `UnitOfWork.ResetTargetReconcileState`: a new target starts at retry epoch 0, an existing
row keeps the epoch of the generation it leaves. -/
def resetTargetReconcileState (nodeID : String) (target : Prefix) (generation : Nat)
    (updatedAt : Instant) (db : Database) : Except Fault Database := do
  reject (generation == 0 || maxInt64 < generation)
    "reset target reconcile state: generation is invalid"
  reject updatedAt.unset "reset target reconcile state: update time is invalid"
  reject (target.toText.length < 3 || 64 < target.toText.length)
    "reset target reconcile state: CHECK constraint failed: canonical_target"
  reject (nodeID != db.nodeID) "reset target reconcile state: FOREIGN KEY constraint failed"
  match db.row? (.target target) with
  | none =>
      return { db with
        ledger := db.ledger.insert (.target target) (pendingRow generation 0 updatedAt) }
  | some row => do
      reject (generation ≤ row.version) "reset target reconcile state: stale generation"
      return { db with
        ledger := db.ledger.insert (.target target) (pendingRow generation row.epoch updatedAt) }

/-- `UnitOfWork.ResetPolicyReconcileState`: the retry epoch starts again at 0. -/
def resetPolicyReconcileState (revision : Nat) (updatedAt : Instant) (db : Database) :
    Except Fault Database := do
  reject (revision == 0 || maxInt64 < revision)
    "reset policy reconcile state: revision is invalid"
  reject updatedAt.unset "reset policy reconcile state: update time is invalid"
  checkSome (db.row? .policy) fun row =>
    reject (revision ≤ row.version) "reset policy reconcile state: stale revision"
  return { db with ledger := db.ledger.insert .policy (pendingRow revision 0 updatedAt) }

def advanceSnapshotRevision (db : Database) : Except Fault Database := do
  reject (maxInt64 ≤ db.snapshotRevision) "advance snapshot revision: revision is exhausted"
  return { db with snapshotRevision := db.snapshotRevision + 1 }

/-- The two writes `DesiredStateFinalizer.MaterializeTargets` makes for each changed intent. -/
def materializeTargets (updatedAt : Instant) : List Intent → Database → Except Fault Database
  | [], db => .ok db
  | i :: rest, db => do
      let db ← putTargetEnforcementIntent i db
      let db ← resetTargetReconcileState i.nodeID i.canonicalTarget i.generation updatedAt db
      materializeTargets updatedAt rest db

/-- `DesiredStateFinalizer.FinalizeTargets` for the intents a Decision transaction changed. -/
def finalizeTargets (changed : List Intent) (updatedAt : Instant) (db : Database) :
    Except Fault Database := do
  let db ← materializeTargets updatedAt changed db
  if changed.isEmpty then return db else advanceSnapshotRevision db

/-- `UnitOfWork.ReplaceManagedPolicy` with a changed policy; the new revision follows the
current one. -/
def replaceManagedPolicy (hash : Hash String) (expectedRevision : Nat) (policy : PolicyIntent)
    (updatedAt : Instant) (db : Database) : Except Fault (Nat × Database) := do
  within "replace managed policy: validate" (policy.validateComplete hash)
  reject updatedAt.unset "replace managed policy: update time is invalid"
  let current := (db.policy.map Prod.fst).getD 0
  reject (expectedRevision != current) "replace managed policy: expected revision differs"
  reject (maxInt64 ≤ current) "replace managed policy: revision is exhausted"
  reject (maxInt64 ≤ db.snapshotRevision) "replace managed policy: snapshot revision is exhausted"
  return (current + 1, { db with
    policy := some (current + 1, policy), snapshotRevision := db.snapshotRevision + 1 })

/-- `PolicyService.replace` for a changed policy and the intents that change with it. -/
def replacePolicy (hash : Hash String) (expectedRevision : Nat) (policy : PolicyIntent)
    (changed : List Intent) (updatedAt : Instant) (db : Database) : Except Fault Database := do
  let (revision, db) ← replaceManagedPolicy hash expectedRevision policy updatedAt db
  let db ← materializeTargets updatedAt changed db
  resetPolicyReconcileState revision updatedAt db

structure DesiredState where
  snapshotRevision : Nat
  policyRevision : Nat
  policy : PolicyIntent
  targets : List Intent
  deriving DecidableEq, Repr

def loadDesiredFirewallState (hash : Hash String) (nodeID : String) (db : Database) :
    Except Fault DesiredState :=
  within "load desired firewall state" do
    reject (!isLowerHex128 nodeID) "node id must be 128-bit lowercase hex"
    db.requireNodeIdentity nodeID
    match db.policy with
    | none => .error (.text "policy rows are missing")
    | some (revision, policy) => do
        let policy ← within "construct managed policy intent"
          (PolicyIntent.make hash policy.allowlist policy.protectedTargets)
        let targets := db.enforcement.rows.map fun entry => entry.2.intent
        targets.forM fun i => within "decode target intent" i.validate
        return ⟨db.snapshotRevision, revision, policy, targets⟩

end GuardWall.Store
