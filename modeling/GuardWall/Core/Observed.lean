import GuardWall.Core.Intent

/-! Physical observations: what a Probe returns, when it matches an intent, and the
update the controller persists from it. -/
namespace GuardWall.Core

inductive ObservedMembership where
  | unknown
  | absent
  | present
  deriving DecidableEq, Repr

inductive ObservedPolicyCoverage where
  | unknown
  | none
  | partly
  | full
  deriving DecidableEq, Repr

/-- Which physical fields the backend actually observed. -/
inductive Evidence where
  | complete
  | managedSnapshot
  deriving DecidableEq, Repr

structure PhysicalTarget where
  canonicalTarget : Prefix
  observedAt : Instant := Instant.zero
  evidence : Evidence := .complete
  backend : String := ""
  banMembership : ObservedMembership := .unknown
  policyCoverage : ObservedPolicyCoverage := .unknown
  policyRelationDigest : String := ""
  timeoutMode : TimeoutMode := .none
  nativeExpiry : Option Instant := none
  scopes : EnforcementScope := 0#8
  addressFamily : AddressFamily := .unset
  ownerVersion : String := ""
  lastErrorCode : String := ""
  deriving DecidableEq, Repr

/-- `reconcile/model.Snapshot`: one Probe result. -/
structure Snapshot where
  basisDigest : String := ""
  infrastructure : Option InfrastructureIntent := none
  policy : Option String := none
  targets : List (Prefix × PhysicalTarget) := []
  deriving DecidableEq, Repr

namespace Snapshot

def target? (s : Snapshot) (t : Prefix) : Option PhysicalTarget :=
  (s.targets.find? fun entry => entry.1 == t).map Prod.snd

/-- The fields of one observed target that `Snapshot.Digest` binds. -/
structure TargetFrame where
  target : Prefix
  banMembership : ObservedMembership
  policyCoverage : ObservedPolicyCoverage
  policyRelationDigest : String
  timeoutMode : TimeoutMode
  nativeExpiry : Option Int
  scopes : EnforcementScope
  addressFamily : AddressFamily
  ownerVersion : String
  evidence : Evidence
  deriving DecidableEq, Repr

def targetFrame (target : Prefix) (o : PhysicalTarget) : TargetFrame :=
  ⟨target, o.banMembership, o.policyCoverage, o.policyRelationDigest, o.timeoutMode,
    o.nativeExpiry.map Instant.wall, o.scopes, o.addressFamily, o.ownerVersion, o.evidence⟩

/-- What `Snapshot.Digest` hashes when the snapshot carries no digest of its own. -/
structure Frame where
  infrastructure : Option InfrastructureIntent
  policy : Option String
  targets : List TargetFrame
  deriving DecidableEq, Repr

def digest (hash : Hash Frame) (s : Snapshot) : String :=
  if s.basisDigest != "" then s.basisDigest
  else
    let ordered := s.targets.insertionSort fun a b => a.1.toText ≤ b.1.toText
    hash.hex ⟨s.infrastructure, s.policy, ordered.map fun entry => targetFrame entry.1 entry.2⟩

end Snapshot

def nativeExpirySnapshotTolerance : Duration := 3 * second

def nativeExpiryMatchesIntent (observed : Option Instant) (intent : Intent) : Bool :=
  match observed, intent.nativeExpiry, intent.effectiveUntil with
  | some seen, some want, some _ =>
      !seen.before (want.add (-nativeExpirySnapshotTolerance)) && !seen.after want
  | none, none, _ => true
  | _, _, _ => false

def wantedCoverage : PolicyCoverage → ObservedPolicyCoverage
  | .none => .none
  | .partly => .partly
  | .full => .full

def cleanAbsence (observed : PhysicalTarget) (target : Prefix) : Bool :=
  observed.canonicalTarget == target && observed.observedAt.isZero && observed.backend == "" &&
  observed.banMembership == .absent && observed.policyCoverage == .unknown &&
  observed.policyRelationDigest == "" && observed.timeoutMode == .none &&
  observed.nativeExpiry.isNone && observed.scopes == 0#8 && observed.addressFamily == .unset &&
  observed.ownerVersion == "" && observed.lastErrorCode == ""

def expiryMatches (observed : PhysicalTarget) (intent : Intent) : Bool :=
  if intent.timeoutMode == .native then nativeExpiryMatchesIntent observed.nativeExpiry intent
  else observed.nativeExpiry.isNone

def presentMatches (observed : PhysicalTarget) (intent : Intent) : Bool :=
  observed.banMembership == .present && observed.timeoutMode == intent.timeoutMode &&
  observed.scopes == intent.scopes && observed.addressFamily == intent.addressFamily &&
  match observed.evidence with
  | .managedSnapshot => expiryMatches observed intent
  | .complete =>
      observed.policyRelationDigest == intent.policyRelationDigest &&
      observed.ownerVersion == intent.backendAttributesDigest &&
      observed.policyCoverage == wantedCoverage intent.policyCoverage &&
      expiryMatches observed intent

def physicalTargetMatches (snapshot : Snapshot) (intent : Intent) : Bool :=
  match intent.banMembership, snapshot.target? intent.canonicalTarget with
  | .absent, none => true
  | .absent, some observed => cleanAbsence observed intent.canonicalTarget
  | .present, none => false
  | .present, some observed => presentMatches observed intent

inductive ObservedPresence where
  | unknown
  | absent
  | present
  deriving DecidableEq, Repr

def validateObservedTime (t : Instant) : Except Fault Unit :=
  reject t.unset "observed time is invalid"

structure InfrastructureObserved where
  presence : ObservedPresence
  observedAt : Instant
  backend : String := ""
  ownerVersion : String := ""
  digest : String := ""
  confirmedRevision : Nat := 0
  lastErrorCode : String := ""
  deriving DecidableEq, Repr

def InfrastructureObserved.validate (s : InfrastructureObserved) : Except Fault Unit := do
  validateObservedTime s.observedAt
  let physical := s.backend != "" || s.ownerVersion != "" || s.digest != ""
  match s.presence with
  | .unknown => do
      reject (physical || s.confirmedRevision != 0)
        "unknown observation cannot contain physical or confirmed state"
      reject (s.lastErrorCode == "") "unknown observation requires an error code"
  | .absent =>
      reject (physical || s.confirmedRevision != 0 || s.lastErrorCode != "")
        "absent observation cannot contain physical, confirmed, or error state"
  | .present => do
      reject (s.backend == "" || s.ownerVersion == "" || s.digest == "")
        "present observation requires complete physical state"
      reject (s.lastErrorCode != "") "present observation cannot contain an error code"

structure PolicyObserved where
  presence : ObservedPresence
  observedAt : Instant
  relationDigest : String := ""
  confirmedRevision : Nat := 0
  lastErrorCode : String := ""
  deriving DecidableEq, Repr

def PolicyObserved.validate (s : PolicyObserved) : Except Fault Unit := do
  validateObservedTime s.observedAt
  match s.presence with
  | .unknown => do
      reject (s.relationDigest != "" || s.confirmedRevision != 0)
        "unknown observation cannot contain physical or confirmed state"
      reject (s.lastErrorCode == "") "unknown observation requires an error code"
  | .absent =>
      reject (s.relationDigest != "" || s.confirmedRevision != 0 || s.lastErrorCode != "")
        "absent observation cannot contain physical, confirmed, or error state"
  | .present => do
      reject (s.relationDigest == "") "present observation requires a relation digest"
      reject (s.lastErrorCode != "") "present observation cannot contain an error code"

structure TargetObserved extends PhysicalTarget where
  confirmedGeneration : Nat := 0
  deriving DecidableEq, Repr

namespace TargetObserved

def hasTargetPhysicalState (s : TargetObserved) : Bool :=
  s.backend != "" || s.policyCoverage != .unknown || s.policyRelationDigest != "" ||
  s.timeoutMode != .none || s.nativeExpiry.isSome || s.scopes != 0#8 ||
  s.addressFamily != .unset || s.ownerVersion != ""

def validatePresent (s : TargetObserved) : Except Fault Unit := do
  reject (s.scopes == 0#8 || s.addressFamily == .unset)
    "present observation requires target identity"
  reject (unsupportedScope s.scopes) "present observation has unsupported enforcement scopes"
  reject (s.addressFamily != familyOf s.canonicalTarget)
    "present observation address family does not match target"
  reject ((s.timeoutMode == .native) != s.nativeExpiry.isSome)
    "native timeout and expiry must be present together"
  reject (s.nativeExpiry.any Instant.unset) "native expiry is invalid"
  reject (s.lastErrorCode != "") "present observation cannot contain an error code"
  match s.evidence with
  | .managedSnapshot =>
      reject (s.backend != "" || s.ownerVersion != "" || s.policyCoverage != .unknown ||
          s.policyRelationDigest != "")
        "managed snapshot observation cannot contain inferred state"
  | .complete => do
      reject (s.backend == "" || s.ownerVersion == "")
        "present observation requires complete physical identity"
      reject (s.policyCoverage == .unknown) "present observation has invalid policy coverage"
      reject (s.policyCoverage == .none && s.policyRelationDigest != "")
        "no policy coverage requires an empty relation digest"
      reject (s.policyCoverage != .none && s.policyRelationDigest == "")
        "covered observation requires a relation digest"

def validate (s : TargetObserved) : Except Fault Unit := do
  reject (!s.canonicalTarget.canonical) "canonical target is invalid"
  validateObservedTime s.observedAt
  match s.banMembership with
  | .unknown => do
      reject (s.evidence != .complete || s.hasTargetPhysicalState || s.confirmedGeneration != 0)
        "unknown observation cannot contain physical or confirmed state"
      reject (s.lastErrorCode == "") "unknown observation requires an error code"
  | .absent =>
      reject (s.hasTargetPhysicalState || s.lastErrorCode != "")
        "absent observation cannot contain physical or error state"
  | .present => s.validatePresent

end TargetObserved

structure ObservedUpdate where
  nodeID : String
  infrastructure : Option InfrastructureObserved := none
  policy : Option PolicyObserved := none
  targets : List TargetObserved := []
  deriving DecidableEq, Repr

namespace ObservedUpdate

def adjacentTargets : List TargetObserved → Bool
  | a :: b :: rest => a.canonicalTarget == b.canonicalTarget || adjacentTargets (b :: rest)
  | _ => false

def validate (u : ObservedUpdate) : Except Fault Unit := do
  reject (!isLowerHex128 u.nodeID) "node id must be 128-bit lowercase hex"
  reject (u.infrastructure.isNone && u.policy.isNone && u.targets.isEmpty)
    "at least one Observed domain update is required"
  checkSome u.infrastructure fun o => within "infrastructure" o.validate
  checkSome u.policy fun o => within "policy" o.validate
  let targets := u.targets.insertionSort fun a b =>
    a.canonicalTarget.toText ≤ b.canonicalTarget.toText
  targets.forM fun t => within "target" t.validate
  reject (adjacentTargets targets) "target is duplicated"

end ObservedUpdate

end GuardWall.Core
