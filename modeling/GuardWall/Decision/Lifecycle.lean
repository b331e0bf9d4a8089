import GuardWall.Decision.Record

/-! Decision transactions: automatic ones with their suppressions, manual ones with replacements,
and the expiry sweep. Each rebuilds the projections of the targets it touched and hands them to the
finalizer. -/
namespace GuardWall.Decision

open GuardWall.Core GuardWall.Foundation GuardWall.Store GuardWall.Processor

structure DecisionAudit where
  id : String
  idempotencyKey : String
  nodeID : String
  action : String
  actorType : String
  deliveryID : Option String := none
  alertID : Option String := none
  decisionID : String
  replacementID : Option String := none
  createdAt : Instant
  deriving DecidableEq, Repr

structure Docket where
  book : Book
  decisions : Table String StoredDecision := ∅
  audits : List DecisionAudit := []

structure AutomaticRequest where
  decisionID : String
  deliveryID : String
  eventID : String
  nodeID : String
  ruleID : String
  ruleVersion : Option String
  alertID : Option String
  target : Prefix
  triggeredAt : Instant
  expiresAt : Option Instant
  deriving DecidableEq, Repr

structure ManualRequest where
  decisionID : String
  nodeID : String
  target : Prefix
  createdAt : Instant
  expiresAt : Option Instant
  deriving DecidableEq, Repr

namespace DecisionRow

/-- Both rows are in one of the unique indexes over Active Decisions, under one key. -/
def collides (r s : DecisionRow) : Bool :=
  r.state == .active && s.state == .active && r.source == s.source && r.nodeID == s.nodeID &&
    r.canonicalTarget == s.canonicalTarget && (r.source == .manual || r.ruleID == s.ruleID)

def ofDecision (d : Decision) : DecisionRow where
  id := d.id
  nodeID := d.nodeID
  source := d.source
  ruleID := d.ruleID
  ruleVersion := d.ruleVersion
  alertID := d.alertID
  canonicalTarget := d.canonicalTarget
  createdUS := d.createdAt.unixMicro
  updatedUS := d.updatedAt.unixMicro
  lastTriggeredUS := d.lastTriggeredAt.unixMicro
  expiresUS := d.expiresAt.map Instant.unixMicro
  endedUS := none
  state := .active
  endReason := none
  suppressedCount := 0

def bans (nodeID : String) (target : Prefix) (r : DecisionRow) : Bool :=
  r.nodeID == nodeID && r.canonicalTarget == target && r.state == .active

def due (nodeID : String) (us : Int) (r : DecisionRow) : Bool :=
  r.nodeID == nodeID && r.state == .active && r.expiresUS.any (· ≤ us)

def suppressed (r : DecisionRow) (us : Int) : DecisionRow :=
  { r with lastTriggeredUS := max r.lastTriggeredUS us, suppressedCount := r.suppressedCount + 1 }

def ended (r : DecisionRow) (us : Int) (state : DecisionState) (reason : EndReason) : DecisionRow :=
  { r with updatedUS := us, endedUS := some us, state := state, endReason := some reason }

end DecisionRow

namespace Docket

def row? (d : Docket) (id : String) : Option DecisionRow :=
  (d.decisions.lookup id).map StoredDecision.row

def allRows (d : Docket) : List DecisionRow := d.decisions.rows.map fun entry => entry.2.row

def put (d : Docket) (s : StoredDecision) : Docket :=
  { d with decisions := d.decisions.insert s.row.id s }

def appendCriticalAudit (audit : DecisionAudit) (d : Docket) : Except Fault Docket :=
  within "append critical audit" do
    reject (audit.id == "" || audit.idempotencyKey == "" || audit.nodeID == "")
      "identity fields are required"
    reject (audit.action == "" || audit.actorType == "" || audit.createdAt.isZero)
      "classification fields are required"
    reject (160 < audit.id.length || 256 < audit.idempotencyKey.length || audit.createdAt.unset)
      "CHECK constraint failed: audit_logs"
    reject (d.audits.any fun a => a.id == audit.id || a.idempotencyKey == audit.idempotencyKey)
      "UNIQUE constraint failed: audit_logs"
    reject (audit.nodeID != d.book.db.nodeID || (d.row? audit.decisionID).isNone)
      "FOREIGN KEY constraint failed"
    return { d with
      audits := { audit with createdAt := audit.createdAt.truncateMicro } :: d.audits }

/-- `INSERT … ON CONFLICT DO NOTHING`; the flag says whether the row went in. `referenced` is
whether the rule version and the alert it names are stored. -/
def insertRow (referenced : Bool) (row : DecisionRow) (d : Docket) :
    Except Fault (Bool × Docket) := do
  let stored ← checkRow row
  if (d.row? row.id).isSome || d.allRows.any (·.collides row) then return (false, d)
  else do
    reject (row.nodeID != d.book.db.nodeID || !referenced) "FOREIGN KEY constraint failed"
    return (true, d.put stored)

def insertAutomaticDecision (referenced : Bool) (value : Decision) (d : Docket) :
    Except Fault (Bool × Docket) :=
  within "insert automatic decision" do
    within "validate" value.validate
    reject (value.source != .automatic || value.ruleID.isNone || value.ruleVersion.isNone ||
        value.alertID.isNone)
      "automatic references are required"
    d.insertRow referenced (.ofDecision value)

def insertManualDecision (value : Decision) (d : Docket) : Except Fault (Bool × Docket) :=
  within "insert manual decision" do
    within "validate" value.validate
    reject (value.source != .manual || value.ruleID.isSome || value.ruleVersion.isSome ||
        value.alertID.isSome)
      "manual references must be empty"
    d.insertRow true (.ofDecision value)

def decode (context : String) : Option DecisionRow → Except Fault (Option Decision)
  | none => .ok none
  | some row => within context do
      let value ← decisionFromRow row
      return some value

def findDecisionByID (id : String) (d : Docket) : Except Fault (Option Decision) :=
  decode "find decision" (d.row? id)

def findActiveAutomaticDecision (nodeID ruleID : String) (target : Prefix) (d : Docket) :
    Except Fault (Option Decision) :=
  decode "find active automatic decision" (d.allRows.find? fun r =>
    r.bans nodeID target && r.source == .automatic && r.ruleID == some ruleID)

def findActiveManualDecision (nodeID : String) (target : Prefix) (d : Docket) :
    Except Fault (Option Decision) :=
  decode "find active manual decision" (d.allRows.find? fun r =>
    r.bans nodeID target && r.source == .manual)

def suppressAutomaticDecision (id : String) (triggeredAt : Instant) (d : Docket) :
    Except Fault (Decision × Docket) :=
  match (d.row? id).filter fun r => r.source == .automatic && r.state == .active with
  | none => .error (.text "automatic decision suppression count overflow")
  | some row => do
      reject (maxInt64 ≤ row.suppressedCount) "automatic decision suppression count overflow"
      let stored ← within "suppress automatic decision"
        (checkRow (row.suppressed triggeredAt.unixMicro))
      let value ← within "read suppressed automatic decision" (decisionFromRow stored.row)
      return (value, d.put stored)

def revokeActiveManualDecision (id : String) (endedAt : Instant) (d : Docket) :
    Except Fault (Decision × Docket) :=
  match (d.row? id).filter fun r =>
      r.source == .manual && r.state == .active && r.createdUS ≤ endedAt.unixMicro with
  | none => .error (.text "revoke active manual decision: active row changed")
  | some row => do
      let stored ← within "revoke active manual decision"
        (checkRow (row.ended endedAt.unixMicro .revoked .manualReplace))
      let value ← within "read replaced manual decision" (decisionFromRow stored.row)
      return (value, d.put stored)

/-- One row in the loop of `ExpireDueActiveDecisions`. -/
def expireRow (nodeID : String) (now : Instant) (row : DecisionRow) (d : Docket) :
    Except Fault (Decision × Docket) :=
  match (d.row? row.id).filter fun r =>
      r.nodeID == nodeID && r.state == .active && r.expiresUS == row.expiresUS with
  | none => .error (.text "active row changed")
  | some held => do
      let stored ← checkRow (held.ended now.unixMicro .expired .expired)
      let value ← within "read returned decision"
        (decisionFromRow (row.ended now.unixMicro .expired .expired))
      return (value, d.put stored)

def expireRows (nodeID : String) (now : Instant) :
    List DecisionRow → Docket → Except Fault (List Decision × Docket)
  | [], d => .ok ([], d)
  | row :: rest, d => do
      let (value, d) ← d.expireRow nodeID now row
      let (values, d) ← expireRows nodeID now rest d
      return (value :: values, d)

def expireDueActiveDecisions (nodeID : String) (now : Instant) (d : Docket) :
    Except Fault (List Decision × Docket) :=
  within "expire due active decisions" do
    reject (nodeID == "") "node id is required"
    reject (d.book.db.nodeID != nodeID) "require node identity: persisted node does not match"
    expireRows nodeID now (d.allRows.filter (·.due nodeID now.unixMicro)) d

def activeRows (d : Docket) (nodeID : String) (target : Prefix) : List DecisionRow :=
  (d.allRows.filter (·.bans nodeID target)).insertionSort fun r s => r.id ≤ s.id

def listActiveDecisions (nodeID : String) (target : Prefix) (d : Docket) :
    Except Fault (List Decision) :=
  (d.activeRows nodeID target).mapM fun r => within "list active decisions" (decisionFromRow r)

def findDecisionProjection (nodeID : String) (target : Prefix) (d : Docket) :
    Except Fault (Option Projection) :=
  match (d.book.projections.lookup target).filter fun p => p.nodeID == nodeID with
  | none => .ok none
  | some p => do
      within "find target projection" p.validate
      return some p

end Docket

structure Tally where
  activeCount : Nat := 0
  latestExpiry : Instant := .zero
  allFinite : Bool := true
  deriving DecidableEq, Repr

def Tally.count (t : Tally) (d : Decision) : Tally :=
  match d.state, d.expiresAt with
  | .active, none => { t with activeCount := t.activeCount + 1, allFinite := false }
  | .active, some expiresAt =>
      { t with
        activeCount := t.activeCount + 1
        latestExpiry :=
          if t.latestExpiry.isZero || expiresAt.after t.latestExpiry then expiresAt
          else t.latestExpiry }
  | _, _ => t

def aggregateProjection (nodeID : String) (target : Prefix) (revision : Nat)
    (decisions : List Decision) : Except Fault Projection := do
  reject (nodeID == "") "node id is required"
  reject (!target.canonical) "target must be a canonical prefix"
  decisions.forM fun d => do
    within "validate decision" d.validate
    reject (d.nodeID != nodeID || d.canonicalTarget != target)
      "decision belongs to another projection"
  let tally := decisions.foldl Tally.count {}
  let projection : Projection :=
    { nodeID := nodeID
      canonicalTarget := target
      state := if tally.activeCount = 0 then .absent else .present
      activeCount := tally.activeCount
      effectiveUntil :=
        if tally.activeCount ≠ 0 ∧ tally.allFinite then some tally.latestExpiry else none
      revision := revision }
  projection.validate
  return projection

def sameProjectionContent (left right : Projection) : Bool :=
  left.nodeID == right.nodeID && left.canonicalTarget == right.canonicalTarget &&
    left.state == right.state && left.activeCount == right.activeCount &&
    Intent.equalTime left.effectiveUntil right.effectiveUntil

namespace Docket

def putProjection (p : Projection) (updatedAt : Instant) (d : Docket) : Except Fault Docket := do
  let book ← d.book.putProjection p updatedAt
  return { d with book := book }

/-- `rebuildProjection`; the flag says whether the projection was written. -/
def rebuildProjection (nodeID : String) (target : Prefix) (updatedAt : Instant)
    (forceRevision : Bool) (d : Docket) : Except Fault (Projection × Bool × Docket) := do
  let current ← d.findDecisionProjection nodeID target
  let active ← d.listActiveDecisions nodeID target
  let desired ← aggregateProjection nodeID target ((current.map Projection.revision).getD 1) active
  match current with
  | none => do
      let d ← d.putProjection desired updatedAt
      return (desired, true, d)
  | some current =>
      if !forceRevision && sameProjectionContent current desired then return (current, false, d)
      else do
        reject (maxInt64 ≤ current.revision) "target projection revision overflow"
        let desired := { desired with revision := current.revision + 1 }
        let d ← d.putProjection desired updatedAt
        return (desired, true, d)

end Docket

section Audits

variable (hash : Hash String) (digest : Hash (List String))

def automaticCreatedAudit (r : AutomaticRequest) : DecisionAudit :=
  let hexDigest := hash.hex ("automatic-decision-created:" ++ r.decisionID)
  { id := "audit-decision-" ++ hexDigest
    idempotencyKey := "decision-created:" ++ hexDigest
    nodeID := r.nodeID
    action := "automatic_create"
    actorType := "system"
    deliveryID := some r.deliveryID
    alertID := r.alertID
    decisionID := r.decisionID
    createdAt := r.triggeredAt }

def automaticSuppressedAudit (r : AutomaticRequest) (decisionID : String) : DecisionAudit :=
  let hexDigest := digest.hex
    ["decision:suppress", r.deliveryID, r.eventID, r.ruleID, r.ruleVersion.getD ""]
  { id := "audit-suppression-" ++ hexDigest
    idempotencyKey := "decision-suppressed:" ++ hexDigest
    nodeID := r.nodeID
    action := "automatic_suppress"
    actorType := "system"
    deliveryID := some r.deliveryID
    alertID := r.alertID
    decisionID := decisionID
    createdAt := r.triggeredAt }

def manualCreatedAudit (r : ManualRequest) : DecisionAudit :=
  let hexDigest := digest.hex ["decision:manual:create", r.decisionID]
  { id := "audit-manual-create-" ++ hexDigest
    idempotencyKey := "manual-create:" ++ hexDigest
    nodeID := r.nodeID
    action := "manual_create"
    actorType := "administrator"
    decisionID := r.decisionID
    createdAt := r.createdAt }

def manualReplacedAudit (r : ManualRequest) (previousID : String) : DecisionAudit :=
  let hexDigest := digest.hex ["decision:manual:replace", previousID, r.decisionID]
  { id := "audit-manual-replace-" ++ hexDigest
    idempotencyKey := "manual-replace:" ++ hexDigest
    nodeID := r.nodeID
    action := "manual_replace"
    actorType := "administrator"
    decisionID := previousID
    replacementID := some r.decisionID
    createdAt := r.createdAt }

def expiredAudit (value : Decision) (now : Instant) : DecisionAudit :=
  let hexDigest := digest.hex ["decision:expire", value.id]
  { id := "audit-decision-expire-" ++ hexDigest
    idempotencyKey := "decision-expire:" ++ hexDigest
    nodeID := value.nodeID
    action := "decision_expire"
    actorType := "system"
    decisionID := value.id
    createdAt := now }

end Audits

structure AutomaticResult where
  decision : Decision
  created : Bool := false
  projection : Option Projection := none
  deriving DecidableEq, Repr

/-- `ManualResult` without the enforcement changes. -/
structure ManualResult where
  previous : Option Decision := none
  current : Decision
  replaced : Bool := false
  deriving DecidableEq, Repr

def AutomaticRequest.candidate (r : AutomaticRequest) : Decision where
  id := r.decisionID
  nodeID := r.nodeID
  source := .automatic
  ruleID := some r.ruleID
  ruleVersion := r.ruleVersion
  alertID := r.alertID
  canonicalTarget := r.target
  createdAt := r.triggeredAt
  updatedAt := r.triggeredAt
  lastTriggeredAt := r.triggeredAt
  expiresAt := r.expiresAt

def ManualRequest.candidate (r : ManualRequest) : Decision where
  id := r.decisionID
  nodeID := r.nodeID
  source := .manual
  canonicalTarget := r.target
  createdAt := r.createdAt
  updatedAt := r.createdAt
  lastTriggeredAt := r.createdAt
  expiresAt := r.expiresAt

/-- The order `ExpireInTransaction` sorts by; the Decisions are all of one node. -/
def expiryOrder (a b : Decision) : Prop :=
  if a.canonicalTarget = b.canonicalTarget then a.id ≤ b.id
  else a.canonicalTarget.toText ≤ b.canonicalTarget.toText

instance : DecidableRel expiryOrder := fun a b => by
  unfold expiryOrder
  infer_instance

def affectedTargets (seen : List Prefix) : List Decision → List Prefix
  | [] => []
  | d :: rest =>
      if d.canonicalTarget ∈ seen then affectedTargets seen rest
      else d.canonicalTarget :: affectedTargets (d.canonicalTarget :: seen) rest

section Operations

variable (hash : Hash String) (digest : Hash (List String))

/-- The branch of `RecordAutomaticInTransaction` for a match that was not inserted. -/
def suppressInTransaction (r : AutomaticRequest) (d : Docket) :
    Except Fault (AutomaticResult × Docket) := do
  let byID ← d.findDecisionByID r.decisionID
  let current ← d.findActiveAutomaticDecision r.nodeID r.ruleID r.target
  match current with
  | none => .error (.text ("decision id already exists: " ++ r.decisionID))
  | some current => do
      reject (byID.any fun found => found.id != current.id)
        ("decision id already exists: " ++ r.decisionID)
      reject (maxInt64 ≤ current.suppressedCount) "automatic decision suppression count overflow"
      let (current, d) ← d.suppressAutomaticDecision current.id r.triggeredAt
      let (projection, changed, d) ← d.rebuildProjection r.nodeID r.target r.triggeredAt false
      let d ← d.appendCriticalAudit (automaticSuppressedAudit digest r current.id)
      return ({ decision := current, projection := if changed then some projection else none }, d)

def recordAutomaticInTransaction (referenced : Bool) (r : AutomaticRequest) (d : Docket) :
    Except Fault (AutomaticResult × Docket) := do
  reject (r.ruleVersion.isNone || r.alertID.isNone)
    "automatic decision requires rule version and alert"
  reject (!validDeliveryID r.deliveryID || !validEventID r.eventID)
    "automatic decision requires canonical delivery and event identities"
  within "validate automatic decision" r.candidate.validate
  let (inserted, d) ← d.insertAutomaticDecision referenced r.candidate
  if !inserted then suppressInTransaction digest r d
  else do
    let (projection, _, d) ← d.rebuildProjection r.nodeID r.target r.triggeredAt true
    let d ← d.appendCriticalAudit (automaticCreatedAudit hash r)
    return ({ decision := r.candidate, created := true, projection := some projection }, d)

/-- The branch of `RecordManualInTransaction` for a ban that was not inserted. -/
def replaceInTransaction (r : ManualRequest) (replace : Bool) (d : Docket) :
    Except Fault (ManualResult × Docket) := do
  let current ← d.findActiveManualDecision r.nodeID r.target
  reject (current.isSome && !replace) "target already has an active manual ban"
  let byID ← d.findDecisionByID r.decisionID
  reject byID.isSome ("decision id already exists: " ++ r.decisionID)
  match current with
  | none => .error (.text "active manual decision conflict was not found")
  | some current => do
      reject (r.createdAt.before current.createdAt) "manual replacement precedes active decision"
      let (previous, d) ← d.revokeActiveManualDecision current.id r.createdAt
      let d ← d.appendCriticalAudit (manualReplacedAudit digest r previous.id)
      let (inserted, d) ← d.insertManualDecision r.candidate
      reject (!inserted) ("decision id already exists: " ++ r.decisionID)
      let (_, _, d) ← d.rebuildProjection r.nodeID r.target r.createdAt true
      return ({ previous := some previous, current := r.candidate, replaced := true }, d)

def recordManualInTransaction (r : ManualRequest) (replace : Bool) (d : Docket) :
    Except Fault (ManualResult × Docket) := do
  within "validate manual decision" r.candidate.validate
  let (inserted, d) ← d.insertManualDecision r.candidate
  if !inserted then replaceInTransaction digest r replace d
  else do
    let (_, _, d) ← d.rebuildProjection r.nodeID r.target r.createdAt true
    let d ← d.appendCriticalAudit (manualCreatedAudit digest r)
    return ({ current := r.candidate }, d)

def rebuildEach (nodeID : String) (updatedAt : Instant) :
    List Prefix → Docket → Except Fault (List Projection × Docket)
  | [], d => .ok ([], d)
  | target :: rest, d => do
      let (projection, _, d) ← d.rebuildProjection nodeID target updatedAt true
      let (projections, d) ← rebuildEach nodeID updatedAt rest d
      return (projection :: projections, d)

/-- `ExpirationResult` without the enforcement changes. -/
structure ExpirationResult where
  expired : List Decision
  projections : List Projection
  deriving DecidableEq, Repr

def expireInTransaction (nodeID : String) (now : Instant) (d : Docket) :
    Except Fault (ExpirationResult × Docket) := do
  reject now.isZero "expiration time is required"
  reject (nodeID == "") "expiration node id is required"
  let (due, d) ← d.expireDueActiveDecisions nodeID now
  let due := due.insertionSort expiryOrder
  let d ← due.foldlM (fun d value => d.appendCriticalAudit (expiredAudit digest value now)) d
  let (projections, d) ← rebuildEach nodeID now (affectedTargets [] due) d
  return ({ expired := due, projections := projections }, d)

end Operations

section Transactions

variable (resolver : Resolver) (hash : Hash String) (digest : Hash (List String))

/-- `DesiredStateFinalizer.FinalizeTargets` on the tables of a Decision transaction. -/
def Docket.finalizeTargets (affected : List Projection) (updatedAt : Instant) (d : Docket) :
    Except Fault Docket := do
  let book ← finalize resolver affected updatedAt d.book
  return { d with book := book }

structure Gathered where
  projections : List Projection := []
  lastUpdatedAt : Instant := .zero

/-- `sqliteUnitOfWork.recordAutomaticDecision` for each automatic Decision of a delivery. -/
def recordEach : List (AutomaticRequest × Bool) → Gathered → Docket →
    Except Fault (Gathered × Docket)
  | [], g, d => .ok (g, d)
  | (r, referenced) :: rest, g, d => do
      let (result, d) ← recordAutomaticInTransaction hash digest referenced r d
      match result.projection with
      | none => recordEach rest g d
      | some projection =>
          recordEach rest
            { projections := g.projections ++ [projection]
              lastUpdatedAt :=
                if r.triggeredAt.after g.lastUpdatedAt then r.triggeredAt else g.lastUpdatedAt } d

/-- The automatic Decisions of a processing transaction and `finalizeDesiredState`. -/
def processDecisions (requests : List (AutomaticRequest × Bool)) (d : Docket) :
    Except Fault Docket := do
  let (gathered, d) ← recordEach hash digest requests {} d
  if gathered.projections.isEmpty then return d
  else d.finalizeTargets resolver gathered.projections gathered.lastUpdatedAt

/-- `LifecycleService.BanManual` up to the commit. -/
def banManual (nodeID : String) (r : ManualRequest) (replace : Bool) (d : Docket) :
    Except Fault Docket := do
  reject (r.nodeID != nodeID) "manual decision node id does not match lifecycle node id"
  reject (nodeID == "") "require node identity: node id is required"
  reject (d.book.db.nodeID != nodeID) "require node identity: persisted node does not match"
  let (_, d) ← recordManualInTransaction digest r replace d
  let projection ← d.findDecisionProjection r.nodeID r.target
  match projection with
  | none => .error (.text "manual decision projection was not materialized")
  | some projection => d.finalizeTargets resolver [projection] r.createdAt

/-- `LifecycleService.expire` up to the commit. -/
def expire (nodeID : String) (now : Instant) (d : Docket) : Except Fault Docket := do
  let (result, d) ← expireInTransaction digest nodeID now d
  d.finalizeTargets resolver result.projections now

/-- The transactions on the tables. An automatic request comes with whether the rule version and
the alert it names are stored. -/
inductive Operation where
  | process (requests : List (AutomaticRequest × Bool))
  | ban (nodeID : String) (request : ManualRequest) (replace : Bool)
  | expire (nodeID : String) (now : Instant)
  | replacePolicy (expectedRevision : Nat) (policy : PolicyIntent) (updatedAt : Instant)

def Operation.attempt (d : Docket) : Operation → Except Fault Docket
  | process requests => processDecisions resolver hash digest requests d
  | ban nodeID request replace => banManual resolver digest nodeID request replace d
  | expire nodeID now => Decision.expire resolver digest nodeID now d
  | replacePolicy expectedRevision policy updatedAt => do
      let book ← Decision.replace resolver hash expectedRevision policy updatedAt d.book
      return { d with book := book }

/-- A transaction that fails is rolled back. -/
def Operation.commit (d : Docket) (op : Operation) : Docket :=
  match op.attempt resolver hash digest d with
  | .ok d => d
  | .error _ => d

def Docket.run (d : Docket) (ops : List Operation) : Docket :=
  ops.foldl (fun d op => op.commit resolver hash digest d) d

end Transactions

end GuardWall.Decision
