import GuardWall.Store.Observed

/-! `reconcile_state.go` of the store: the durable retry ledger and its Probe requirements.
Every function here is one SQLite transaction; an error leaves the database as it was. -/
namespace GuardWall.Store

open GuardWall.Core

def validateReconcileKey (k : PhysicalKey) : Except Fault Unit := do
  match k.domain with
  | .infrastructure => do
      reject (k.infrastructureRevision == 0 || k.policyRevision != 0 || k.target.isValid ||
          k.targetGeneration != 0)
        "infrastructure domain requires only infrastructure revision"
      sqliteUint64 "infrastructure revision" k.infrastructureRevision
  | .policy => do
      reject (k.policyRevision == 0 || k.infrastructureRevision != 0 || k.target.isValid ||
          k.targetGeneration != 0)
        "policy domain requires only policy revision"
      sqliteUint64 "policy revision" k.policyRevision
  | .target => do
      reject (k.infrastructureRevision != 0 || k.policyRevision != 0 || !k.target.canonical ||
          k.targetGeneration == 0)
        "target domain requires canonical target and generation only"
      reject (k.target.toText.utf8ByteSize < 3 || 64 < k.target.toText.utf8ByteSize)
        "canonical target length is invalid"
      sqliteUint64 "target generation" k.targetGeneration

def validateAttemptTimes (s : RetryState) : Except Fault Unit :=
  if s.attemptCount == 0 then
    reject (s.lastAttemptAt.isSome || s.nextAttemptAt.isSome)
      "zero-attempt state cannot contain attempt times"
  else
    reject s.lastAttemptAt.isNone "nonzero-attempt state requires last attempt time"

def validateNextAttempt (s : RetryState) : Except Fault Unit :=
  if s.status == .retryWaiting then do
    reject (s.attemptCount == 0 || s.nextAttemptAt.isNone)
      "retry-waiting state requires attempt and next attempt time"
    reject (!s.nextFollowsLast) "next attempt time must follow last attempt time"
  else
    reject s.nextAttemptAt.isSome "next attempt time is only valid for retry-waiting state"

/-- The part of `validatePersistedReconcileState` that looks at the retry state. -/
def validateRetryState (s : RetryState) : Except Fault Unit := do
  reject (128 < s.lastErrorCode.utf8ByteSize) "last error code exceeds 128 bytes"
  reject (maxMutationAttempts < s.attemptCount) "attempt count exceeds bounded retry budget"
  validateAttemptTimes s
  reject (s.lastAttemptAt.any Instant.unset) "last attempt time is invalid"
  validateNextAttempt s
  reject (s.nextAttemptAt.any Instant.unset) "next attempt time is invalid"
  reject (s.status == .applying && s.attemptCount == 0) "applying state requires a nonzero attempt"

def validatePersistedReconcileState (s : PersistedState) : Except Fault Unit := do
  reject (!isLowerHex128 s.nodeID) "node id must be 128-bit lowercase hex"
  validateReconcileKey s.ref.physicalKey
  sqliteUint64 "retry epoch" s.ref.epoch
  reject s.updatedAt.unset "updated time is required"
  validateRetryState s.retry

def validateProbeRequirement (p : ProbeRequirement) : Except Fault Unit := do
  reject (!isLowerHex128 p.nodeID) "node id must be 128-bit lowercase hex"
  validateReconcileKey p.key.toPhysicalKey
  sqliteUint64 "snapshot revision" p.key.snapshotRevision
  sqliteUint64 "retry epoch" p.epoch
  reject (!p.key.fenceSnapshotRevision && p.key.snapshotRevision != 0)
    "snapshot revision requires its fence flag"
  reject (p.key.fenceSnapshotRevision && p.key.snapshotRevision == 0)
    "snapshot fence requires a positive snapshot revision"
  reject (p.key.domain != .infrastructure &&
      (p.key.snapshotRevision != 0 || p.key.fenceSnapshotRevision))
    "snapshot fencing is only valid for infrastructure"
  reject (p.attempt == 0) "probe attempt must be nonzero"
  reject (maxMutationAttempts < p.attempt) "probe attempt exceeds bounded retry budget"
  reject p.recordedAt.unset "probe recorded time is required"

def sameReconcileKey (s : PersistedState) (p : ProbeRequirement) : Bool :=
  s.nodeID == p.nodeID && s.ref.physicalKey == p.key.toPhysicalKey

def probeCompatible (status : ReconcileStatus) : Bool :=
  status == .applying || status == .retryWaiting || status == .degraded

def validateUpsertProbe (s : PersistedState) (p : ProbeRequirement) : Except Fault Unit := do
  within "upsert probe" (validateProbeRequirement p)
  reject (!sameReconcileKey s p || s.ref.epoch != p.epoch || s.retry.attemptCount != p.attempt)
    "upsert probe does not match state key, epoch, and attempt"
  reject (!probeCompatible s.retry.status)
    "upsert probe requires applying, retry-waiting, or degraded state"

def validateDeleteProbe (s : PersistedState) (p : ProbeRequirement) : Except Fault Unit := do
  within "delete probe" (validateProbeRequirement p)
  reject (!sameReconcileKey s p) "delete probe does not match state physical key"

def validateReconcileTransition (t : Transition) : Except Fault Unit :=
  match t.state with
  | none =>
      match t.upsertProbe, t.deleteProbe with
      | none, some p => do
          within "delete probe" (validateProbeRequirement p)
          reject t.observed.isSome "delete-only transition cannot contain Observed state"
      | _, _ => .error (.text "delete-only transition requires exactly one deleted probe")
  | some s => do
      validatePersistedReconcileState s
      checkSome t.observed fun u => do
        within "Observed state" (validateObservedFirewallUpdate u)
        reject (u.nodeID != s.nodeID) "Observed state node does not match reconcile state"
      checkSome t.upsertProbe (validateUpsertProbe s)
      checkSome t.deleteProbe (validateDeleteProbe s)
      checkSome t.upsertProbe fun p => checkSome t.deleteProbe fun q =>
        reject (p.key.snapshotRevision != q.key.snapshotRevision ||
            p.key.fenceSnapshotRevision != q.key.fenceSnapshotRevision)
          "replacement probes do not share the snapshot fence"

structure Version where
  key : Nat
  epoch : Nat
  attempts : Nat
  deriving DecidableEq, Repr

def PersistedState.stateVersion (s : PersistedState) : Version :=
  ⟨s.ref.version, s.ref.epoch, s.retry.attemptCount⟩

def StateRow.stateVersion (row : StateRow) : Version := ⟨row.version, row.epoch, row.attemptCount⟩

def compareReconcileVersion (left right : Version) : Ordering :=
  if left.key < right.key then .lt
  else if right.key < left.key then .gt
  else if left.epoch < right.epoch then .lt
  else if right.epoch < left.epoch then .gt
  else if left.attempts < right.attempts then .lt
  else if right.attempts < left.attempts then .gt
  else .eq

def encodeReconcileState (s : PersistedState) : StateRow where
  version := s.ref.version
  epoch := s.ref.epoch
  status := s.retry.status
  attemptCount := s.retry.attemptCount
  lastAttemptUS := s.retry.lastAttemptAt.map Instant.unixMicro
  nextAttemptUS := s.retry.nextAttemptAt.map Instant.unixMicro
  lastErrorCode := s.retry.lastErrorCode
  updatedUS := s.updatedAt.unixMicro

def StateRow.retry (row : StateRow) : RetryState where
  status := row.status
  attemptCount := row.attemptCount
  lastAttemptAt := row.lastAttemptUS.map Instant.ofMicro
  nextAttemptAt := row.nextAttemptUS.map Instant.ofMicro
  lastErrorCode := row.lastErrorCode

def StateRow.state (nodeID : String) (slot : ReconcileKey) (row : StateRow) : PersistedState :=
  ⟨nodeID, row.ref slot, row.retry, Instant.ofMicro row.updatedUS⟩

def decodeReconcileState (nodeID : String) (slot : ReconcileKey) (row : StateRow) :
    Except Fault PersistedState := do
  reject (row.updatedUS ≤ 0) "persisted numeric field is out of range"
  within "persisted state is invalid" (validatePersistedReconcileState (row.state nodeID slot))
  return row.state nodeID slot

/-- `loadSingletonReconcileState` and the target query: the current row of a failure domain
as `rejectReconcileRegression` sees it. A singleton row that does not decode comes back with
`ok = false`, which the caller reads as "no row"; a target row is not decoded. -/
def currentVersion (nodeID : String) (slot : ReconcileKey) (db : Database) : Option Version :=
  match db.row? slot with
  | none => none
  | some row =>
      match slot with
      | .target _ => some (StateRow.stateVersion row)
      | _ =>
          match decodeReconcileState nodeID slot row with
          | .ok _ => some (StateRow.stateVersion row)
          | .error _ => none

def targetOutOfRange (slot : ReconcileKey) (db : Database) : Bool :=
  match slot, db.row? slot with
  | .target _, some row => maxUint32 < row.attemptCount
  | _, _ => false

def rejectReconcileRegression (s : PersistedState) (db : Database) : Except Fault Unit := do
  reject (targetOutOfRange s.ref.slot db) "persisted target version is out of range"
  match currentVersion s.nodeID s.ref.slot db with
  | none => .ok ()
  | some current =>
      if compareReconcileVersion (PersistedState.stateVersion s) current = .lt then
        .error (.sentinel .stateRegression)
      else .ok ()

def currentRetryEpoch (nodeID : String) (slot : ReconcileKey) (db : Database) :
    Except Fault Nat :=
  match db.row? slot with
  | none => .ok 0
  | some row =>
      match slot with
      | .target _ => .ok row.epoch
      | _ => do
          let _ ← within "read current retry epoch" (decodeReconcileState nodeID slot row)
          return row.epoch

def ProbeRequirement.probeID (p : ProbeRequirement) : ProbeID := ⟨p.key, p.epoch, p.attempt⟩

/-- `deleteProbeRequirement`: the exact row must exist. -/
def deleteProbeRequirement (p : ProbeRequirement) (db : Database) : Except Fault Database := do
  reject (db.probes.lookup (ProbeRequirement.probeID p)).isNone
    "exact probe requirement does not exist"
  return { db with probes := db.probes.erase (ProbeRequirement.probeID p) }

def upsertReconcileState (s : PersistedState) (db : Database) : Database :=
  { db with ledger := db.ledger.insert s.ref.slot (encodeReconcileState s) }

/-- `upsertProbeRequirement`: the table is unique on the key without epoch and attempt. -/
def upsertProbeRequirement (p : ProbeRequirement) (db : Database) : Except Fault Database := do
  reject (db.probes.rows.any fun entry =>
      entry.1.key == p.key && entry.1 != ProbeRequirement.probeID p)
    "UNIQUE constraint failed"
  return { db with
    probes := db.probes.insert (ProbeRequirement.probeID p) p.recordedAt.unixMicro }

def Transition.nodeID? (t : Transition) : Option String :=
  match t.state with
  | some s => some s.nodeID
  | none => t.deleteProbe.map ProbeRequirement.nodeID

/-- The statements of `Store.ApplyReconcileTransition` between its checks and its commit. -/
def writeTransition (t : Transition) (db : Database) : Except Fault Database := do
  checkSome t.state fun s => rejectReconcileRegression s db
  let db ← stepSome t.deleteProbe
    (fun p db => within "delete probe requirement" (deleteProbeRequirement p db)) db
  let db ← stepSome t.state (fun s db => .ok (upsertReconcileState s db)) db
  let db ← stepSome t.upsertProbe
    (fun p db => within "upsert probe requirement" (upsertProbeRequirement p db)) db
  stepSome t.observed
    (fun u db => within "write Observed state" (writeObservedFirewallUpdate u db)) db

def applyReconcileTransition (t : Transition) (db : Database) : Except Fault Database :=
  within "apply reconcile transition" do
    validateReconcileTransition t
    db.requireNodeIdentity ((Transition.nodeID? t).getD "")
    writeTransition t db

def retryAuditRow (t : RetryTransition) : AuditRow where
  id := t.audit.id
  idempotencyKey := t.audit.idempotencyKey
  nodeID := t.audit.nodeID
  actorType := t.audit.actorType
  ref := t.state.ref
  previousEpoch := t.audit.previousEpoch
  createdUS := t.audit.occurredAt.unixMicro

def validateReconcileRetryTransition (t : RetryTransition) : Except Fault Unit := do
  validatePersistedReconcileState t.state
  reject (t.state.retry != RetryState.fresh) "administrator retry must create a clean Pending state"
  reject (t.audit.id == "" || 160 < t.audit.id.utf8ByteSize || t.audit.idempotencyKey == "" ||
      256 < t.audit.idempotencyKey.utf8ByteSize)
    "retry audit identity is invalid"
  reject (t.audit.nodeID == "" || t.audit.nodeID != t.state.nodeID ||
      t.audit.actorType != "administrator")
    "retry audit identity does not match administrator node"
  reject (t.audit.occurredAt.unset || t.audit.occurredAt.unixMicro != t.state.updatedAt.unixMicro)
    "retry audit time does not match transition"
  reject (t.state.ref.epoch == 0 || t.state.ref.epoch != t.audit.previousEpoch + 1)
    "retry audit epoch does not advance exactly once"

/-- `writeReconcileRetryAudit`: the table keys identities and idempotency keys uniquely. -/
def writeReconcileRetryAudit (t : RetryTransition) (db : Database) : Except Fault Database := do
  reject (db.audits.any fun a => a.id == t.audit.id || a.idempotencyKey == t.audit.idempotencyKey)
    "UNIQUE constraint failed"
  return { db with audits := retryAuditRow t :: db.audits }

def applyReconcileRetryTransition (t : RetryTransition) (db : Database) :
    Except Fault Database :=
  within "apply reconcile retry transition" do
    validateReconcileRetryTransition t
    db.requireNodeIdentity t.state.nodeID
    rejectReconcileRegression t.state db
    let previous ← currentRetryEpoch t.state.nodeID t.state.ref.slot db
    reject (t.audit.previousEpoch != previous)
      "audit previous epoch does not match durable epoch"
    within "write audit" (writeReconcileRetryAudit t (upsertReconcileState t.state db))

def decodeProbeRequirement (nodeID : String) (entry : ProbeID × Int) :
    Except Fault ProbeRequirement := do
  let probe : ProbeRequirement :=
    ⟨nodeID, entry.1.key, entry.1.epoch, entry.1.attempt, Instant.ofMicro entry.2⟩
  reject (entry.1.attempt == 0 || entry.2 ≤ 0) "persisted probe numeric field is out of range"
  within "persisted probe requirement is invalid" (validateProbeRequirement probe)
  return probe

def stateContext : ReconcileKey → String
  | .infrastructure => "infrastructure state"
  | .policy => "policy state"
  | .target _ => "target state"

/-- `loadReconcileRecoveryInTx`. The row order SQL asks for is not observable: the rows have
distinct keys and are only put into maps. -/
def loadRecovery (nodeID : String) (db : Database) : Except Fault Recovery := do
  db.requireNodeIdentity nodeID
  let states ← db.ledger.rows.mapM fun entry =>
    within (stateContext entry.1) (decodeReconcileState nodeID entry.1 entry.2)
  let probes ← db.probes.rows.mapM fun entry =>
    within "probe requirement" (decodeProbeRequirement nodeID entry)
  return ⟨states, probes⟩

def loadReconcileRecovery (nodeID : String) (db : Database) : Except Fault Recovery :=
  within "load reconcile recovery" do
    reject (!isLowerHex128 nodeID) "node id must be 128-bit lowercase hex"
    loadRecovery nodeID db

def recoveryContainsState (recovery : Recovery) (expected : PersistedState) : Bool :=
  recovery.states.any fun s =>
    s.nodeID == expected.nodeID && s.ref == expected.ref &&
    s.retry.status == expected.retry.status &&
    s.retry.attemptCount == expected.retry.attemptCount &&
    s.updatedAt.unixMicro == expected.updatedAt.unixMicro

def readReconcileRetryTransition (t : RetryTransition) (db : Database) :
    Except Fault (Recovery × Bool) := do
  let recovery ← loadRecovery t.state.nodeID db
  let row := db.audits.find? fun a => a.id == t.audit.id
  let stateApplied := recoveryContainsState recovery t.state
  let auditApplied := row == some (retryAuditRow t)
  reject (stateApplied != auditApplied || (row.isSome && !auditApplied))
    "read reconcile retry transition: ledger and audit do not match atomically"
  return (recovery, stateApplied && auditApplied)

end GuardWall.Store
