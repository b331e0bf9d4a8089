import GuardWall.Store.Database

/-! `observed_state.go` of the store: the durable cache of physical observations, fenced by
observation time and, for a confirmed target, by the durable Desired generation. -/
namespace GuardWall.Store

open GuardWall.Core

/-- `validateObservedFirewallUpdate`; the scope and family checks repeat those of
`ObservedFirewallUpdate.Validate`. -/
def validateObservedFirewallUpdate (u : ObservedUpdate) : Except Fault Unit := do
  u.validate
  checkSome u.infrastructure fun o =>
    sqliteUint64 "confirmed infrastructure revision" o.confirmedRevision
  checkSome u.policy fun o => sqliteUint64 "confirmed policy revision" o.confirmedRevision
  u.targets.forM fun t => do
    sqliteUint64 "confirmed target generation" t.confirmedGeneration
    if t.banMembership == .present then
      reject (unsupportedScope t.scopes) "unsupported observed scope"
      reject (t.addressFamily != familyOf t.canonicalTarget)
        "observed address family does not match target"

def rejectObservedTimeConflict (domain : String) (next current : Instant) (exact : Bool) :
    Except Fault Unit := do
  reject (next.unixMicro < current.unixMicro) (domain ++ " observed time would regress")
  reject (next.unixMicro == current.unixMicro && !exact)
    (domain ++ " observation conflicts at the same observed time")

def persistInfrastructure (o : InfrastructureObserved) : InfrastructureObserved :=
  { o with observedAt := o.observedAt.truncateMicro }

def persistPolicy (o : PolicyObserved) : PolicyObserved :=
  { o with observedAt := o.observedAt.truncateMicro }

def persistTarget (o : TargetObserved) : TargetObserved :=
  { o with
    observedAt := o.observedAt.truncateMicro
    nativeExpiry := o.nativeExpiry.map Instant.truncateMicro }

/-- `upsertInfrastructureObserved`: a newer observation replaces the row; an equal time is
accepted only for the same observation. -/
def upsertInfrastructureObserved (o : InfrastructureObserved) (db : Database) :
    Except Fault Database :=
  match db.infrastructureObserved with
  | none => .ok { db with infrastructureObserved := some (persistInfrastructure o) }
  | some current =>
      if current.observedAt.unixMicro < o.observedAt.unixMicro then
        .ok { db with infrastructureObserved := some (persistInfrastructure o) }
      else do
        within "read existing observation" current.validate
        rejectObservedTimeConflict "infrastructure" o.observedAt current.observedAt
          (persistInfrastructure o == current)
        return db

def upsertPolicyObserved (o : PolicyObserved) (db : Database) : Except Fault Database :=
  match db.policyObserved with
  | none => .ok { db with policyObserved := some (persistPolicy o) }
  | some current =>
      if current.observedAt.unixMicro < o.observedAt.unixMicro then
        .ok { db with policyObserved := some (persistPolicy o) }
      else do
        within "read existing observation" current.validate
        rejectObservedTimeConflict "policy" o.observedAt current.observedAt
          (persistPolicy o == current)
        return db

def updateTargetObserved (o : TargetObserved) (db : Database) : Except Fault Database :=
  match db.enforcement.lookup o.canonicalTarget with
  | none => .error (.text "Desired target does not exist")
  | some row => do
      checkSome row.observed fun current =>
        within "read Desired fence and existing observation" current.validate
      reject (row.intent.generation == 0) "Desired target does not exist"
      reject (o.confirmedGeneration != 0 && o.confirmedGeneration != row.intent.generation)
        "confirmed generation differs from current Desired generation"
      match row.observed with
      | some current => do
          rejectObservedTimeConflict "target" o.observedAt current.observedAt
            (persistTarget o == current)
          if o.observedAt.unixMicro == current.observedAt.unixMicro then
            return db
          else
            return { db with
              enforcement := db.enforcement.insert o.canonicalTarget
                { row with observed := some (persistTarget o) } }
      | none =>
          return { db with
            enforcement := db.enforcement.insert o.canonicalTarget
              { row with observed := some (persistTarget o) } }

def writeTargets : List TargetObserved → Database → Except Fault Database
  | [], db => .ok db
  | o :: rest, db => do
      let db ← within "write target" (updateTargetObserved o db)
      writeTargets rest db

def writeObservedFirewallUpdate (u : ObservedUpdate) (db : Database) : Except Fault Database := do
  let db ← stepSome u.infrastructure
    (fun o db => within "write infrastructure" (upsertInfrastructureObserved o db)) db
  let db ← stepSome u.policy
    (fun o db => within "write policy" (upsertPolicyObserved o db)) db
  writeTargets u.targets db

def applyObservedFirewallUpdate (u : ObservedUpdate) (db : Database) : Except Fault Database :=
  within "apply Observed firewall update" do
    validateObservedFirewallUpdate u
    db.requireNodeIdentity u.nodeID
    writeObservedFirewallUpdate u db

structure ObservedSnapshot where
  nodeID : String
  infrastructure : Option InfrastructureObserved
  policy : Option PolicyObserved
  targets : List TargetObserved
  deriving DecidableEq, Repr

def loadObservedFirewallSnapshot (nodeID : String) (db : Database) :
    Except Fault ObservedSnapshot :=
  within "load Observed firewall snapshot" do
    reject (!isLowerHex128 nodeID) "node id must be 128-bit lowercase hex"
    db.requireNodeIdentity nodeID
    checkSome db.infrastructureObserved fun o => within "infrastructure" o.validate
    checkSome db.policyObserved fun o => within "policy" o.validate
    let targets := db.enforcement.rows.filterMap fun entry => entry.2.observed
    targets.forM fun o => within "decode target" o.validate
    return ⟨nodeID, db.infrastructureObserved, db.policyObserved, targets⟩

end GuardWall.Store
