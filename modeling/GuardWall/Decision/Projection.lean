import GuardWall.Store.Desired

/-! `DesiredBanProjection` and `enforcement.ResolveTarget`: what the active Decisions of a target
come to, and the normalized intent with its generation. -/
namespace GuardWall.Decision

open GuardWall.Core GuardWall.Foundation GuardWall.Store

/-- `DesiredBanProjection` -/
structure Projection where
  nodeID : String
  canonicalTarget : Prefix
  state : BanMembership
  activeCount : Nat
  effectiveUntil : Option Instant
  revision : Nat
  deriving DecidableEq, Repr

namespace Projection

def validate (p : Projection) : Except Fault Unit := do
  reject (!isLowerHex128 p.nodeID) "projection node id must be 128-bit lowercase hex"
  reject (!p.canonicalTarget.canonical) "projection target must be canonical"
  reject (p.revision == 0) "projection revision must be positive"
  match p.state with
  | .absent =>
      reject (p.activeCount != 0 || p.effectiveUntil.isSome)
        "absent projection cannot contain active decisions or expiry"
  | .present => do
      reject (p.activeCount == 0) "present projection requires an active decision"
      reject (p.effectiveUntil.any Instant.isZero) "projection effective expiry is invalid"

def persisted (p : Projection) : Projection :=
  { p with effectiveUntil := p.effectiveUntil.map Instant.truncateMicro }

end Projection

structure TargetPolicy where
  coverage : PolicyCoverage
  relationDigest : String
  scopes : EnforcementScope
  nativeTimeoutSupported : Bool
  backendAttributesDigest : String
  deriving DecidableEq, Repr

def maxUint64 : Nat := 18446744073709551615

/-- The intent `ResolveTarget` builds before it looks at the previous one. -/
def resolvedIntent (projection : Projection) (policy : TargetPolicy) (generation : Nat) : Intent :=
  { nodeID := projection.nodeID
    canonicalTarget := projection.canonicalTarget
    banMembership := projection.state
    effectiveUntil := if projection.state = .present then projection.effectiveUntil else none
    timeoutMode :=
      if projection.state = .present ∧ projection.effectiveUntil.isSome ∧
          policy.nativeTimeoutSupported then .native
      else .none
    scopes := policy.scopes
    addressFamily := familyOf projection.canonicalTarget
    policyCoverage := if projection.state = .present then policy.coverage else .none
    policyRelationDigest := if projection.state = .present then policy.relationDigest else ""
    backendAttributesDigest := policy.backendAttributesDigest
    generation := generation }

/-- `enforcement.ResolveTarget`; the flag says whether the physical meaning changed. -/
def resolveTarget (projection : Projection) (policy : TargetPolicy) (previous : Option Intent) :
    Except Fault (Intent × Bool) := do
  within "validate projection" projection.validate
  reject (policy.scopes == 0#8 || unsupportedScope policy.scopes) "enforcement scopes are invalid"
  match previous with
  | none => do
      let intent := resolvedIntent projection policy 1
      within "validate resolved intent" intent.validate
      return (intent, true)
  | some previous => do
      within "validate previous intent" previous.validate
      reject (previous.nodeID != projection.nodeID ||
          previous.canonicalTarget != projection.canonicalTarget)
        "previous intent belongs to another target"
      let intent := resolvedIntent projection policy previous.generation
      if previous.equivalent intent then do
        within "validate resolved intent" intent.validate
        return (intent, false)
      else do
        reject (previous.generation == maxUint64) "target generation is exhausted"
        let intent := { intent with generation := previous.generation + 1 }
        within "validate resolved intent" intent.validate
        return (intent, true)

end GuardWall.Decision
