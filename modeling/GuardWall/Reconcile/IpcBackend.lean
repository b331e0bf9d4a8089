import GuardWall.Ipc.Requests
import GuardWall.Reconcile.Session

/-! `IPCBackend`: the production backend, which authorizes every plan against a fresh managed
snapshot before it sends a mutation to the enforcer. -/
namespace GuardWall.Reconcile

open GuardWall.Core GuardWall.Enforcer GuardWall.Firewall GuardWall.Ipc

inductive MutationStatus where
  | confirmed
  | rejected
  | unknown
  | other
  deriving DecidableEq, Repr

structure MutationResponse where
  domain : Domain
  status : MutationStatus
  errorCode : Option String := none
  deriving DecidableEq, Repr

/-- What the enforcer answers during one backend call. A response of another operation is
`none`. -/
structure IpcAnswer where
  capabilities : Except Fault Capabilities
  snapshot : Except Fault ManagedSnapshot
  mutation : ManagedPlan → Except Fault (Option MutationResponse)

structure IpcConfig where
  layoutDigest : String
  hash : Hash (ManagedState × String)

namespace IpcConfig

variable (config : IpcConfig)

def fixedDesiredInfrastructure : Nat × InfrastructureIntent :=
  (1, ⟨BackendKind.nftablesNative.text, managedOwnerVersion, config.layoutDigest⟩)

def matchesFixedInfrastructureObservation (o : InfrastructureObservation) : Bool :=
  o.backend == .nftablesNative && o.ownerVersion == managedOwnerVersion &&
  o.schemaVersion == managedSchemaVersion && o.digest == config.layoutDigest

end IpcConfig

def coreScopes (scopes : List ManagedScope) : EnforcementScope :=
  scopes.foldl
    (fun acc scope =>
      match scope with
      | .input => acc ||| scopeInput
      | .forward => acc ||| scopeForward)
    0#8

def firewallScopes (scopes : EnforcementScope) : List ManagedScope :=
  (if scopes &&& scopeInput != 0#8 then [.input] else []) ++
  (if scopes &&& scopeForward != 0#8 then [.forward] else [])

/-- The target entry `reconcileSnapshot` makes of an observation. -/
def physicalTarget (o : TargetObservation) : PhysicalTarget where
  canonicalTarget := o.target
  evidence := .managedSnapshot
  banMembership := .present
  timeoutMode := o.timeoutMode
  nativeExpiry := o.effectiveUntilUS.map Instant.ofMicro
  scopes := coreScopes o.scopes
  addressFamily := familyOf o.target

def snapshotOf (s : ManagedSnapshot) : Snapshot where
  basisDigest := s.digest
  infrastructure := s.state.infrastructure.map fun o => ⟨o.backend.text, o.ownerVersion, o.digest⟩
  policy := s.state.policy
  targets := s.state.targets.map fun o => (o.target, physicalTarget o)

/-- `int64` arithmetic wraps; `UnixMicro` has such a product. -/
def wrapInt64 (n : Int) : Int := n.bmod 18446744073709551616

/-- The request of a plan that the firewall package has authorized. -/
def authorized (authorization : Except AuthorizationCode Unit)
    (request : Except RequestError ManagedPlan) : Except String ManagedPlan :=
  match authorization, request with
  | .error code, _ => .error code.text
  | .ok (), .error _ => .error "invalid_plan"
  | .ok (), .ok request => .ok request

theorem authorized_eq_ok {authorization : Except AuthorizationCode Unit}
    {request : Except RequestError ManagedPlan} {plan plan' : ManagedPlan}
    (built : authorization = .ok () → request = .ok plan) :
    authorized authorization request = .ok plan' ↔ authorization = .ok () ∧ plan' = plan := by
  unfold authorized
  cases authorization with
  | error code => simp
  | ok u =>
    rw [built rfl]
    simp [eq_comm]

/-- The Target case of `authorizeIPCRequest`. -/
def translateTarget (netip : PrefixParser) (hash : Hash (ManagedState × String))
    (capabilities : Capabilities) (snapshot : ManagedSnapshot) (plan : OperationPlan) :
    Except String ManagedPlan :=
  match plan.desiredTarget with
  | none => .error "invalid_plan"
  | some intent =>
      let basis := plan.basisSnapshotDigest
      let expiryUS := intent.nativeExpiry.map fun expiry => wrapInt64 expiry.unixMicro
      let scopes := firewallScopes intent.scopes
      authorized
        (authorizeTargetMutation hash capabilities snapshot basis plan.key.targetGeneration
          plan.key.target intent.banMembership intent.timeoutMode expiryUS scopes)
        (newApplyTargetRequest netip basis plan.key.targetGeneration plan.key.target
          intent.banMembership intent.timeoutMode expiryUS scopes)

namespace IpcBackend

variable (netip : PrefixParser) (config : IpcConfig) (digests : Digests)

def checkCapabilities (answer : IpcAnswer) : Except Fault Capabilities := do
  let capabilities ← answer.capabilities
  reject (!capabilities.valid) "validate IPC capabilities: firewall capabilities are invalid"
  return capabilities

def checkSnapshot (answer : IpcAnswer) : Except Fault ManagedSnapshot := do
  let snapshot ← answer.snapshot
  reject (!snapshot.valid config.hash)
    "validate IPC managed snapshot: managed firewall snapshot is invalid"
  return snapshot

def probe (answer : IpcAnswer) : Except Fault Snapshot := do
  let _ ← checkCapabilities answer
  let snapshot ← checkSnapshot config answer
  return snapshotOf snapshot

def authorizeIPCRequest (capabilities : Capabilities) (snapshot : ManagedSnapshot)
    (plan : OperationPlan) : Except String ManagedPlan :=
  let basis := plan.basisSnapshotDigest
  match plan.key.domain with
  | .infrastructure =>
      let revision := plan.key.infrastructureRevision
      if (revision, plan.desiredInfrastructure) != config.fixedDesiredInfrastructure then
        .error "invalid_plan"
      else if capabilities.backend != .nftablesNative then .error "not_ready"
      else if snapshot.state.infrastructure.any
          fun o => !config.matchesFixedInfrastructureObservation o then .error "ownership_conflict"
      else
        authorized (authorizeInfrastructureMutation config.hash capabilities snapshot basis revision)
          (newApplyInfrastructureRequest basis revision)
  | .policy =>
      let policy := plan.desiredPolicy
      authorized
        (authorizePolicyMutation config.hash capabilities snapshot basis plan.key.policyRevision
          policy.allowlist policy.protectedTargets)
        (newApplyPolicyRequest netip basis plan.key.policyRevision policy.allowlist
          policy.protectedTargets)
  | .target => translateTarget netip config.hash capabilities snapshot plan

def rejectedPlan (plan : OperationPlan) (code : String) : ApplyResult where
  kind := .rejected
  domain := plan.key.domain
  target := plan.key.target
  digest := plan.digest
  errorCode := code

def mapIPCApplyResponse (plan : OperationPlan) (response : Option MutationResponse) :
    Except Fault ApplyResult :=
  let result (kind : ResultKind) (code : String) : ApplyResult :=
    { kind := kind, domain := plan.key.domain, target := plan.key.target, digest := plan.digest,
      errorCode := code }
  match response with
  | none => .error (.text "IPC mutation response does not match request")
  | some response =>
      if response.domain ≠ plan.key.domain then
        .error (.text "IPC mutation response does not match request")
      else
        match response.status, response.errorCode with
        | .confirmed, _ => .ok (result .confirmed "")
        | .rejected, some code => .ok (result .rejected code)
        | .rejected, none => .error (.text "IPC rejected response has no error code")
        | .unknown, _ => .ok (result .unknown "unknown_result")
        | .other, _ => .error (.text "IPC mutation response has unknown status")

/-- The request `IPCBackend.Apply` sends, or the answer it gives without sending one. -/
def prepare (answer : IpcAnswer) (plan : OperationPlan) :
    Except (Except Fault ApplyResult) ManagedPlan :=
  match plan.validate digests with
  | .error _ => .error (.ok (rejectedPlan plan "invalid_plan"))
  | .ok () =>
      match checkCapabilities answer, checkSnapshot config answer with
      | .error fault, _ => .error (.error fault)
      | .ok _, .error fault => .error (.error fault)
      | .ok capabilities, .ok snapshot =>
          match authorizeIPCRequest netip config capabilities snapshot plan with
          | .error code => .error (.ok (rejectedPlan plan code))
          | .ok request => .ok request

def apply (answer : IpcAnswer) (plan : OperationPlan) : Except Fault ApplyResult :=
  match prepare netip config digests answer plan with
  | .error result => result
  | .ok request => do
      let response ← answer.mutation request
      mapIPCApplyResponse plan response

end IpcBackend

def ipcBackend (netip : PrefixParser) (config : IpcConfig) (digests : Digests) :
    Backend where
  Answer := IpcAnswer
  probe := IpcBackend.probe config
  apply := IpcBackend.apply netip config digests
  mutates answer plan := (IpcBackend.prepare netip config digests answer plan).isOk
  requiresFreshBasis := true

end GuardWall.Reconcile
