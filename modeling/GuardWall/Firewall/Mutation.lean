import GuardWall.Core.Intent

/-! `internal/firewall`: backend capabilities, managed snapshots, and the authorization a
mutation needs against the snapshot it is based on. -/
namespace GuardWall.Firewall

open GuardWall.Core

/-- `BackendKind`; an unknown kind fails every validation, so only the valid ones are kept. -/
inductive BackendKind where
  | nftablesNative
  | iptablesNFT
  | iptablesLegacy
  deriving DecidableEq, Repr

def BackendKind.text : BackendKind → String
  | nftablesNative => "nftables-native"
  | iptablesNFT => "iptables-nft"
  | iptablesLegacy => "iptables-legacy"

structure Capabilities where
  backend : BackendKind
  toolVersion : String
  ipv4 : Bool
  ipv6 : Bool
  cidr : Bool
  nativeSet : Bool
  nativeTimeout : Bool
  crashSafeExpiry : Bool
  atomicBatch : Bool
  hostInput : Bool
  forward : Bool
  ufwIntegrationProven : Bool := false
  dockerIntegrationProven : Bool
  ownershipProven : Bool
  mutationReady : Bool
  deriving DecidableEq, Repr

/-- `validToolVersion`: printable ASCII without leading or trailing blanks. -/
def validToolVersion (version : String) : Bool :=
  version != "" && version.utf8ByteSize ≤ 128 &&
  version.toList.all (fun c => ' ' ≤ c && c ≤ '~') &&
  version.toList.head? != some ' ' && version.toList.getLast? != some ' '

def Capabilities.valid (c : Capabilities) : Bool :=
  validToolVersion c.toolVersion && (c.ipv4 || c.ipv6) && (c.hostInput || c.forward) &&
  !(c.nativeTimeout && !c.nativeSet) && !(c.crashSafeExpiry && !c.nativeTimeout) &&
  !(c.dockerIntegrationProven && !c.forward) &&
  !(c.mutationReady && (!c.ownershipProven || !c.cidr)) &&
  !(c.backend == .nftablesNative && c.mutationReady && (!c.nativeSet || !c.atomicBatch))

def managedOwnerVersion : String := "guard/v1"

def managedSchemaVersion : Int := 1

def maxManagedSnapshotTargets : Nat := 1024

def validSnapshotDigest (digest : String) : Bool :=
  digest.utf8ByteSize == 64 &&
    digest.toList.all fun c => ('0' ≤ c && c ≤ '9') || ('a' ≤ c && c ≤ 'f')

inductive ManagedScope where
  | input
  | forward
  deriving DecidableEq, Repr

structure InfrastructureObservation where
  backend : BackendKind
  ownerVersion : String
  schemaVersion : Int
  digest : String
  deriving DecidableEq, Repr

def InfrastructureObservation.valid (o : InfrastructureObservation) : Bool :=
  o.ownerVersion == managedOwnerVersion && o.schemaVersion == managedSchemaVersion &&
  validSnapshotDigest o.digest

structure TargetObservation where
  target : Prefix
  timeoutMode : TimeoutMode
  effectiveUntilUS : Option Int
  scopes : List ManagedScope
  deriving DecidableEq, Repr

/-- `canonicalManagedScopes`: each scope at most once, at least one. -/
def canonicalManagedScopes (scopes : List ManagedScope) : Option (List ManagedScope) :=
  if 1 < scopes.count .input || 1 < scopes.count .forward || scopes.isEmpty then none
  else some ((if .input ∈ scopes then [.input] else []) ++
    (if .forward ∈ scopes then [.forward] else []))

def validManagedTarget (target : Prefix) : Bool :=
  target.canonical && !target.overlaps Prefix.loopback4 && !target.overlaps Prefix.loopback6

def TargetObservation.valid (o : TargetObservation) : Bool :=
  validManagedTarget o.target && (canonicalManagedScopes o.scopes).isSome &&
  match o.timeoutMode with
  | .none => o.effectiveUntilUS.isNone
  | .native => o.effectiveUntilUS.any (0 < ·)

/-- `ManagedState`; the policy is its relation digest. -/
structure ManagedState where
  infrastructure : Option InfrastructureObservation
  policy : Option String
  targets : List TargetObservation
  deriving DecidableEq, Repr

def sortedTargets : List TargetObservation → Bool
  | a :: b :: rest =>
      a.target != b.target && decide (a.target.toText ≤ b.target.toText) &&
        sortedTargets (b :: rest)
  | _ => true

def ManagedState.valid (s : ManagedState) : Bool :=
  s.targets.length ≤ maxManagedSnapshotTargets &&
  s.infrastructure.all InfrastructureObservation.valid && s.policy.all validSnapshotDigest &&
  s.targets.all TargetObservation.valid && sortedTargets s.targets

structure ManagedSnapshot where
  state : ManagedState
  foreignDigest : String
  digest : String
  deriving DecidableEq, Repr

/-- `ManagedSnapshot.Validate`: the digest binds state and foreign context. -/
def ManagedSnapshot.valid (hash : Hash (ManagedState × String)) (s : ManagedSnapshot) : Bool :=
  validSnapshotDigest s.digest && s.state.valid && validSnapshotDigest s.foreignDigest &&
  s.digest == hash.hex (s.state, s.foreignDigest)

inductive AuthorizationCode where
  | invalidPlan
  | ownershipConflict
  | unsupported
  | notReady
  | snapshotMismatch
  deriving DecidableEq, Repr

def AuthorizationCode.text : AuthorizationCode → String
  | invalidPlan => "invalid_plan"
  | ownershipConflict => "ownership_conflict"
  | unsupported => "unsupported"
  | notReady => "not_ready"
  | snapshotMismatch => "snapshot_mismatch"

def deny (condition : Bool) (code : AuthorizationCode) : Except AuthorizationCode Unit :=
  if condition then .error code else .ok ()

/-- `int64(revision) > 0` -/
def validRevision (revision : Nat) : Bool := 0 < revision && revision ≤ maxInt64

section Authorization

variable (hash : Hash (ManagedState × String)) (capabilities : Capabilities)
  (snapshot : ManagedSnapshot) (basis : String) (revision : Nat)

def validateMutationAuthority : Except AuthorizationCode Unit := do
  deny (!capabilities.valid || !snapshot.valid hash || !capabilities.mutationReady ||
      !capabilities.ownershipProven) .notReady
  deny (snapshot.state.infrastructure.any fun o => o.backend != capabilities.backend) .notReady
  deny (basis != "" && basis != snapshot.digest) .snapshotMismatch

def authorizeInfrastructureMutation : Except AuthorizationCode Unit := do
  deny (!validSnapshotDigest basis || !validRevision revision) .invalidPlan
  validateMutationAuthority hash capabilities snapshot basis

def supportsPrefix (target : Prefix) : Bool :=
  match target with
  | none => false
  | some c =>
      (if c.addr.is4 then capabilities.ipv4 else capabilities.ipv6) &&
      (c.bits == c.addr.bitLen || capabilities.cidr)

def validCanonicalPrefixList : List Prefix → Bool
  | [] => true
  | [p] => p.canonical
  | p :: q :: rest =>
      p.canonical && decide (p.toText < q.toText) && validCanonicalPrefixList (q :: rest)

def authorizePolicyMutation (allowlist protectedTargets : List Prefix) :
    Except AuthorizationCode Unit := do
  deny (!validSnapshotDigest basis || !validRevision revision ||
      maxManagedSnapshotTargets < allowlist.length + protectedTargets.length ||
      protectedTargets.length < 2 || !validCanonicalPrefixList allowlist ||
      !validCanonicalPrefixList protectedTargets ||
      !(protectedTargets.contains Prefix.loopback4 && protectedTargets.contains Prefix.loopback6))
    .invalidPlan
  validateMutationAuthority hash capabilities snapshot basis
  deny snapshot.state.infrastructure.isNone .notReady
  deny (!allowlist.all (supportsPrefix capabilities) ||
      !protectedTargets.all (supportsPrefix capabilities)) .unsupported

def validTargetTimeout (membership : BanMembership) (mode : TimeoutMode)
    (expiryUS : Option Int) : Bool :=
  match membership, mode with
  | .absent, mode => mode == .none && expiryUS.isNone
  | .present, .none => expiryUS.isNone
  | .present, .native => expiryUS.any (0 < ·)

def supportsScopes (scopes : List ManagedScope) : Bool :=
  scopes.all fun scope =>
    match scope with
    | .input => capabilities.hostInput
    | .forward => capabilities.forward

def authorizeTargetMutation (target : Prefix) (membership : BanMembership) (mode : TimeoutMode)
    (expiryUS : Option Int) (scopes : List ManagedScope) : Except AuthorizationCode Unit := do
  deny (!validSnapshotDigest basis || !validRevision revision || !validManagedTarget target)
    .invalidPlan
  deny (canonicalManagedScopes scopes != some scopes ||
      !validTargetTimeout membership mode expiryUS) .invalidPlan
  validateMutationAuthority hash capabilities snapshot basis
  deny snapshot.state.infrastructure.isNone .notReady
  deny (membership == .present && snapshot.state.policy.isNone) .notReady
  deny (!supportsPrefix capabilities target || !supportsScopes capabilities scopes ||
      (mode == .native && (!capabilities.nativeTimeout || !capabilities.crashSafeExpiry)))
    .unsupported

end Authorization

end GuardWall.Firewall
