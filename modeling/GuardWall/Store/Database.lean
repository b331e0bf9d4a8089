import GuardWall.Core.Retry
import GuardWall.Foundation.Table

/-! The tables the reconciler and the Decision and Policy transactions share. Rows of one
node only: every write is refused for any other node. -/
namespace GuardWall.Store

open GuardWall.Core GuardWall.Foundation

/-- One row of `infrastructure_reconcile_state`, `policy_reconcile_state` or
`target_reconcile_state`. A NULL error code is the empty text. -/
structure StateRow where
  version : Nat
  epoch : Nat
  status : ReconcileStatus
  attemptCount : Nat
  lastAttemptUS : Option Int
  nextAttemptUS : Option Int
  lastErrorCode : String
  updatedUS : Int
  deriving DecidableEq, Repr

def StateRow.ref (slot : ReconcileKey) (row : StateRow) : AttemptRef :=
  ⟨slot, row.version, row.epoch⟩

structure ProbeID where
  key : PendingProbeKey
  epoch : Nat
  attempt : Nat
  deriving DecidableEq, Repr

def ProbeID.ref (p : ProbeID) : AttemptRef := p.key.ref p.epoch

/-- One row of `enforcement_states`: the Desired columns and, once observed, the Observed
columns. -/
structure EnforcementRow where
  intent : Intent
  observed : Option TargetObserved
  deriving DecidableEq, Repr

structure AuditRow where
  id : String
  idempotencyKey : String
  nodeID : String
  actorType : String
  ref : AttemptRef
  previousEpoch : Nat
  createdUS : Int
  deriving DecidableEq, Repr

structure Database where
  nodeID : String
  ledger : Table ReconcileKey StateRow := ∅
  probes : Table ProbeID Int := ∅
  enforcement : Table Prefix EnforcementRow := ∅
  infrastructureObserved : Option InfrastructureObserved := none
  policyObserved : Option PolicyObserved := none
  audits : List AuditRow := []
  snapshotRevision : Nat := 0
  policy : Option (Nat × PolicyIntent) := none

namespace Database

def row? (db : Database) (slot : ReconcileKey) : Option StateRow := db.ledger.lookup slot

def requireNodeIdentity (db : Database) (nodeID : String) : Except Fault Unit :=
  reject (db.nodeID != nodeID) "persisted node differs"

end Database

def sqliteUint64 (name : String) (value : Nat) : Except Fault Unit :=
  reject (maxInt64 < value) (name ++ " exceeds SQLite integer range")

end GuardWall.Store
