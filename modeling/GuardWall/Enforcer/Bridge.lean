import GuardWall.Core.Retry
import GuardWall.Firewall.Mutation

/-! `internal/enforcer/mutation.go` and the authorities and results of `internal/firewall`: how a
decoded mutation request becomes an authority, and how a backend result becomes a response. -/
namespace GuardWall.Enforcer

open GuardWall.Core GuardWall.Firewall

inductive ManagedPlan where
  | infrastructure (ownerVersion basis : String) (revision : Nat) (schemaVersion : Int)
  | policy (ownerVersion basis : String) (revision : Nat) (allowlist protectedTargets : List Prefix)
  | target (ownerVersion basis : String) (generation : Nat) (cidr : Prefix)
      (membership : BanMembership) (mode : TimeoutMode) (expiryUS : Option Int)
      (scopes : List ManagedScope)
  deriving DecidableEq, Repr

namespace ManagedPlan

def domain : ManagedPlan → Domain
  | infrastructure .. => .infrastructure
  | policy .. => .policy
  | target .. => .target

def ownerVersion : ManagedPlan → String
  | infrastructure owner .. => owner
  | policy owner .. => owner
  | target owner .. => owner

def basis : ManagedPlan → String
  | infrastructure _ basis .. => basis
  | policy _ basis .. => basis
  | target _ basis .. => basis

def revision : ManagedPlan → Nat
  | infrastructure _ _ revision _ => revision
  | policy _ _ revision _ _ => revision
  | target _ _ revision _ _ _ _ _ => revision

end ManagedPlan

/-- `ipc.MutationRequest` -/
inductive Request where
  | apply (plan : ManagedPlan)
  | remove (expectedOwnerVersion : String)
  deriving DecidableEq, Repr

/-- `correlatableMutationRequest`. `DecodeRequest` yields no other mutation request: it refuses a
removal with another owner version. -/
def Request.correlatable : Request → Bool
  | apply _ => true
  | remove owner => owner == managedOwnerVersion

inductive Operation where
  | apply (domain : Domain)
  | remove
  deriving DecidableEq, Repr

def Request.operation : Request → Operation
  | apply plan => .apply plan.domain
  | remove _ => .remove

/-- What an authority says; its digest is computed from this. -/
inductive Authority where
  | infrastructure (capabilities : Capabilities) (basis : String) (revision : Nat)
  | policy (capabilities : Capabilities) (basis : String) (revision : Nat)
      (allowlist protectedTargets : List Prefix)
  | target (capabilities : Capabilities) (basis : String) (generation : Nat) (cidr : Prefix)
      (membership : BanMembership) (mode : TimeoutMode) (expiryUS : Option Int)
      (scopes : List ManagedScope)
  | removal (capabilities : Capabilities) (basis : String)
  deriving DecidableEq, Repr

namespace Authority

def operation : Authority → Operation
  | infrastructure .. => .apply .infrastructure
  | policy .. => .apply .policy
  | target .. => .apply .target
  | removal .. => .remove

def basis : Authority → String
  | infrastructure _ basis _ => basis
  | policy _ basis _ _ _ => basis
  | target _ basis _ _ _ _ _ _ => basis
  | removal _ basis => basis

def capabilities : Authority → Capabilities
  | infrastructure c _ _ => c
  | policy c _ _ _ _ => c
  | target c _ _ _ _ _ _ _ => c
  | removal c _ => c

def validRevision : Authority → Bool
  | infrastructure _ _ revision => Firewall.validRevision revision
  | policy _ _ revision _ _ => Firewall.validRevision revision
  | target _ _ generation _ _ _ _ _ => Firewall.validRevision generation
  | removal .. => true

end Authority

/-- The two digests of the package: SHA-256 in lowercase hexadecimal, over managed snapshots and
over authorities. -/
structure FirewallDigests where
  snapshot : Hash (ManagedState × String)
  mutation : Hash Authority
  lower : ∀ a, validSnapshotDigest (mutation.hex a) = true

/-- `firewall.MutationErrorCode` and `ipc.MutationErrorCode`; `other` is any text that is not a
code. -/
inductive ErrorCode where
  | none
  | invalidPlan
  | ownershipConflict
  | unsupported
  | notReady
  | backendRejected
  | unknownResult
  | other
  deriving DecidableEq, Repr

inductive Status where
  | confirmed
  | rejected
  | unknown
  | other
  deriving DecidableEq, Repr

inductive OperationKind where
  | apply
  | remove
  | other
  deriving DecidableEq, Repr

def Operation.kind : Operation → OperationKind
  | apply _ => .apply
  | remove => .remove

/-- `MutationResult`: any value of the type, well formed or not. A `domain` of none is a text that
names no domain. -/
structure MutationResult where
  operation : OperationKind
  domain : Option Domain
  hasDomain : Bool
  mutationDigest : String
  status : Status
  errorCode : ErrorCode
  hasErrorCode : Bool
  valid : Bool
  deriving DecidableEq, Repr

def validRejectedMutationCode : ErrorCode → Bool
  | .invalidPlan | .ownershipConflict | .unsupported | .notReady | .backendRejected => true
  | _ => false

def validMutationResultState (operation : OperationKind) (status : Status) (code : ErrorCode)
    (hasCode : Bool) : Bool :=
  operation != .other &&
  match status with
  | .confirmed => !hasCode && code == .none
  | .unknown => hasCode && code == .unknownResult
  | .rejected => hasCode && validRejectedMutationCode code &&
      (operation == .apply || code != .invalidPlan)
  | .other => false

/-- `MutationResult.Validate` -/
def MutationResult.wellFormed (r : MutationResult) : Bool :=
  r.valid && validSnapshotDigest r.mutationDigest &&
  validMutationResultState r.operation r.status r.errorCode r.hasErrorCode &&
  ((r.operation == .apply) == r.hasDomain) && (!r.hasDomain || r.domain.isSome)

structure Response where
  operation : Operation
  status : Status
  errorCode : ErrorCode := .none
  deriving DecidableEq, Repr

/-- `newApplyManagedPlanResponse` and the constructors of removal responses: a response exists for
the codes of its operation only. -/
def newResponse (operation : Operation) (status : Status) (code : ErrorCode) : Option Response :=
  if validMutationResultState operation.kind status code (code != .none) then
    some ⟨operation, status, code⟩
  else none

inductive BridgeError where
  | invalidPlan
  | ownershipConflict
  | unsupported
  | notReady
  | snapshotMismatch
  | resultMismatch
  deriving DecidableEq, Repr

def mapAuthorizationError : AuthorizationCode → BridgeError
  | .invalidPlan => .invalidPlan
  | .ownershipConflict => .ownershipConflict
  | .unsupported => .unsupported
  | .notReady => .notReady
  | .snapshotMismatch => .snapshotMismatch

/-- `Authorization`: an authority or an answer that needs no backend work. -/
inductive Authorization where
  | mutation (authority : Authority)
  | immediate (response : Response)
  deriving DecidableEq, Repr

section Bridge

variable (digests : FirewallDigests) (capabilities : Capabilities) (snapshot : ManagedSnapshot)

/-- `AuthorizeManagedRemoval`; nothing managed is left to remove on `none`. -/
def authorizeManagedRemoval (expectedOwnerVersion : String) :
    Except AuthorizationCode (Option Authority) := do
  deny (expectedOwnerVersion != managedOwnerVersion) .ownershipConflict
  validateMutationAuthority digests.snapshot capabilities snapshot ""
  if snapshot.state.infrastructure.isNone && snapshot.state.policy.isNone &&
      snapshot.state.targets.isEmpty then return none
  return some (.removal capabilities snapshot.digest)

/-- The three authorizations of an Apply, as authorities. -/
def authorizeManagedPlan : ManagedPlan → Except AuthorizationCode Authority
  | .infrastructure _ basis revision _ => do
      authorizeInfrastructureMutation digests.snapshot capabilities snapshot basis revision
      return .infrastructure capabilities basis revision
  | .policy _ basis revision allowlist protectedTargets => do
      authorizePolicyMutation digests.snapshot capabilities snapshot basis revision allowlist
        protectedTargets
      return .policy capabilities basis revision allowlist protectedTargets
  | .target _ basis generation cidr membership mode expiryUS scopes => do
      authorizeTargetMutation digests.snapshot capabilities snapshot basis generation cidr
        membership mode expiryUS scopes
      return .target capabilities basis generation cidr membership mode expiryUS scopes

def ManagedPlan.schemaSupported : ManagedPlan → Bool
  | infrastructure _ _ _ schemaVersion => schemaVersion == managedSchemaVersion
  | _ => true

def authorizeApplyPlan (plan : ManagedPlan) : Except BridgeError Authority :=
  if plan.ownerVersion != managedOwnerVersion || plan.basis == "" || plan.revision == 0 ||
      !plan.schemaSupported then .error .invalidPlan
  else (authorizeManagedPlan digests capabilities snapshot plan).mapError mapAuthorizationError

def authorizeMutationRequest : Request → Except BridgeError Authorization
  | .apply plan => do
      let authority ← authorizeApplyPlan digests capabilities snapshot plan
      return .mutation authority
  | .remove owner =>
      if owner == "" then .error .invalidPlan
      else do
        let removal ← (authorizeManagedRemoval digests capabilities snapshot owner).mapError
          mapAuthorizationError
        match removal with
        | some authority => return .mutation authority
        | none => return .immediate ⟨.remove, .confirmed, .none⟩

end Bridge

def MutationResult.correlates (digests : FirewallDigests) (authority : Authority)
    (r : MutationResult) : Bool :=
  r.wellFormed && r.operation == authority.operation.kind &&
  r.mutationDigest == digests.mutation.hex authority &&
  match authority.operation with
  | .apply domain => r.hasDomain && r.domain == some domain
  | .remove => !r.hasDomain

/-- `MapMutationResult`, with `mapApplyResult` and `mapRemovalResult`. -/
def mapMutationResult (digests : FirewallDigests) (authority : Authority) (r : MutationResult) :
    Option Response :=
  if !r.correlates digests authority then none
  else
    match r.status with
    | .confirmed => newResponse authority.operation .confirmed .none
    | .unknown => newResponse authority.operation .unknown .unknownResult
    | .rejected => newResponse authority.operation .rejected r.errorCode
    | .other => none

/-- `mutationIdentity`: whether a result may be made for the authority at all. -/
def mutationIdentity (digests : FirewallDigests) (authority : Authority) : Bool :=
  authority.capabilities.valid && validSnapshotDigest authority.basis &&
  authority.validRevision && validSnapshotDigest (digests.mutation.hex authority)

def newUnknownMutationResult (digests : FirewallDigests) (authority : Authority) :
    Option MutationResult :=
  if mutationIdentity digests authority then
    some {
      operation := authority.operation.kind
      domain :=
        match authority.operation with
        | .apply domain => some domain
        | .remove => none
      hasDomain :=
        match authority.operation with
        | .apply _ => true
        | .remove => false
      mutationDigest := digests.mutation.hex authority
      status := .unknown
      errorCode := .unknownResult
      hasErrorCode := true
      valid := true }
  else none

end GuardWall.Enforcer
