import GuardWall.Core.Intent

/-! `core.Decision`: the security intent a target is banned by. -/
namespace GuardWall.Core

open GuardWall.Foundation

inductive DecisionSource where
  | automatic
  | manual
  deriving DecidableEq, Repr

inductive DecisionState where
  | active
  | expired
  | revoked
  deriving DecidableEq, Repr

inductive EndReason where
  | expired
  | manual
  | manualReplace
  | ruleDisabled
  | systemCleanup
  deriving DecidableEq, Repr

structure Decision where
  id : String
  nodeID : String
  source : DecisionSource
  ruleID : Option String := none
  ruleVersion : Option String := none
  alertID : Option String := none
  canonicalTarget : Prefix
  createdAt : Instant
  updatedAt : Instant
  lastTriggeredAt : Instant
  expiresAt : Option Instant
  endedAt : Option Instant := none
  state : DecisionState := .active
  endReason : Option EndReason := none
  suppressedCount : Nat := 0
  deriving DecidableEq, Repr

/-- The part of `Decision.Validate` for a state other than Active, once reason and time of the end
are known. -/
def Decision.validateEnd (d : Decision) (reason : EndReason) (endedAt : Instant) :
    Except Fault Unit := do
  reject (endedAt.before d.createdAt) "decision end precedes creation"
  match d.state, reason with
  | .expired, .expired =>
      match d.expiresAt with
      | none => .error (.text "expired decision requires an expiry")
      | some expiresAt => reject (endedAt.before expiresAt) "decision ended before its expiry"
  | .revoked, .manual => .ok ()
  | .revoked, .systemCleanup => .ok ()
  | .revoked, .manualReplace =>
      reject (d.source != .manual) "manual_replace is only valid for manual decisions"
  | .revoked, .ruleDisabled =>
      reject (d.source != .automatic) "rule_disabled is only valid for automatic decisions"
  | .revoked, .expired => .error (.text "invalid revoked decision end reason")
  | _, _ => .error (.text "unsupported decision state")

def Decision.validate (d : Decision) : Except Fault Unit := do
  reject (d.id == "") "decision id must be non-empty UTF-8"
  reject (!isLowerHex128 d.nodeID) "node id must be 128-bit lowercase hex"
  reject (!d.canonicalTarget.canonical) "decision target must be a canonical prefix"
  reject (d.source == .automatic && d.ruleID.getD "" == "")
    "automatic decision requires a valid rule id"
  reject (d.createdAt.isZero || d.updatedAt.before d.createdAt ||
      d.lastTriggeredAt.before d.createdAt)
    "decision timestamps are invalid"
  reject (d.expiresAt.any fun expiresAt => expiresAt.before d.createdAt)
    "decision expiry precedes creation"
  match d.state, d.endReason, d.endedAt with
  | .active, none, none => .ok ()
  | .active, _, _ => .error (.text "active decision cannot have terminal fields")
  | _, some reason, some endedAt => d.validateEnd reason endedAt
  | _, _, _ => .error (.text "terminal decision requires end reason and ended time")

end GuardWall.Core
