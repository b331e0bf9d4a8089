import GuardWall.Enforcer.Bridge
import GuardWall.Foundation.Steps
import GuardWall.Foundation.Table

/-! `MutationExecutor.Execute` for any number of requests at once. One move is one stage of a
call: its context check and the backend call or the pure work that follows. What the backend
answers and when a context ends is the environment's choice. -/
namespace GuardWall.Enforcer

open GuardWall.Core GuardWall.Firewall GuardWall.Foundation

inductive ObservationError where
  | unsupported
  | ownershipConflict
  | unavailable
  deriving DecidableEq, Repr

def mutationObservationErrorCode : ObservationError → ErrorCode
  | .unsupported => .unsupported
  | .ownershipConflict => .ownershipConflict
  | .unavailable => .notReady

def mutationAuthorizationErrorCode : BridgeError → ErrorCode
  | .invalidPlan => .invalidPlan
  | .ownershipConflict => .ownershipConflict
  | .unsupported => .unsupported
  | _ => .notReady

def rejectedMutationResponse (request : Request) (code : ErrorCode) : Option Response :=
  match request with
  | .apply plan => newResponse (.apply plan.domain) .rejected code
  | .remove _ => newResponse .remove .rejected (if code = .invalidPlan then .notReady else code)

def concludeMutation (digests : FirewallDigests) (authority : Authority) (r : MutationResult) :
    Option Response :=
  match mapMutationResult digests authority r with
  | some response => some response
  | none => (newUnknownMutationResult digests authority).bind (mapMutationResult digests authority)

inductive ExecPoint where
  | arrived
  | entered
  | probed (capabilities : Capabilities)
  | observed (capabilities : Capabilities) (snapshot : ManagedSnapshot)
  | authorized (capabilities : Capabilities) (snapshot : ManagedSnapshot) (authority : Authority)
  | answered (response : Option Response)
  deriving DecidableEq, Repr

structure ExecCall where
  request : Request
  point : ExecPoint
  deriving DecidableEq, Repr

inductive ExecEvent where
  | entered (id : Nat)
  | probed (id : Nat) (capabilities : Option Capabilities)
  | observed (id : Nat) (snapshot : Option ManagedSnapshot)
  | mutated (id : Nat) (authority : Authority) (result : MutationResult)
  | answered (id : Nat) (response : Option Response)
  deriving DecidableEq, Repr

namespace ExecEvent

def id : ExecEvent → Nat
  | entered id => id
  | probed id _ => id
  | observed id _ => id
  | mutated id _ _ => id
  | answered id _ => id

def serialized : ExecEvent → Bool
  | answered .. => false
  | _ => true

end ExecEvent

structure ExecBoard where
  gate : Option Nat := none
  calls : Table Nat ExecCall := ∅
  trace : List ExecEvent := []

inductive ExecMove where
  | submit (id : Nat) (request : Request)
  | refuse (id : Nat)
  | enter (id : Nat)
  | probe (id : Nat) (canceled : Bool) (result : Except ObservationError Capabilities)
  | snapshot (id : Nat) (canceled : Bool) (result : Except ObservationError ManagedSnapshot)
  | authorize (id : Nat) (canceled : Bool)
  | mutate (id : Nat) (canceled : Bool) (result : MutationResult)

namespace ExecBoard

variable (digests : FirewallDigests)

def put (b : ExecBoard) (id : Nat) (call : ExecCall) (point : ExecPoint) : ExecBoard :=
  { b with calls := b.calls.insert id { call with point := point } }

def record (b : ExecBoard) (event : ExecEvent) : ExecBoard :=
  { b with trace := event :: b.trace }

/-- `return response`, with the deferred release of the gate. -/
def answer (b : ExecBoard) (id : Nat) (call : ExecCall) (response : Option Response) : ExecBoard :=
  { (b.record (.answered id response)).put id call (.answered response) with
    gate := if b.gate = some id then none else b.gate }

def reject (b : ExecBoard) (id : Nat) (call : ExecCall) (code : ErrorCode) : ExecBoard :=
  b.answer id call (rejectedMutationResponse call.request code)

def probe (b : ExecBoard) (id : Nat) (call : ExecCall) (canceled : Bool)
    (result : Except ObservationError Capabilities) : ExecBoard :=
  if canceled then b.reject id call .notReady
  else
    let b := b.record (.probed id result.toOption)
    match result with
    | .error err => b.reject id call (mutationObservationErrorCode err)
    | .ok capabilities =>
        if !capabilities.valid || !capabilities.mutationReady || !capabilities.ownershipProven then
          b.reject id call .notReady
        else b.put id call (.probed capabilities)

def observe (b : ExecBoard) (id : Nat) (call : ExecCall) (capabilities : Capabilities)
    (canceled : Bool) (result : Except ObservationError ManagedSnapshot) : ExecBoard :=
  if canceled then b.reject id call .notReady
  else
    let b := b.record (.observed id result.toOption)
    match result with
    | .error err => b.reject id call (mutationObservationErrorCode err)
    | .ok snapshot =>
        if !snapshot.valid digests.snapshot then b.reject id call .notReady
        else b.put id call (.observed capabilities snapshot)

def authorize (b : ExecBoard) (id : Nat) (call : ExecCall) (capabilities : Capabilities)
    (snapshot : ManagedSnapshot) (canceled : Bool) : ExecBoard :=
  if canceled then b.reject id call .notReady
  else
    match authorizeMutationRequest digests capabilities snapshot call.request with
    | .error err => b.reject id call (mutationAuthorizationErrorCode err)
    | .ok (.immediate response) => b.answer id call (some response)
    | .ok (.mutation authority) => b.put id call (.authorized capabilities snapshot authority)

def mutate (b : ExecBoard) (id : Nat) (call : ExecCall) (authority : Authority) (canceled : Bool)
    (result : MutationResult) : ExecBoard :=
  if canceled then b.reject id call .notReady
  else
    (b.record (.mutated id authority result)).answer id call
      (concludeMutation digests authority result)

def step (b : ExecBoard) : ExecMove → Option ExecBoard
  | .submit id request =>
      if (b.calls.lookup id).isNone && request.correlatable then
        some { b with calls := b.calls.insert id ⟨request, .arrived⟩ }
      else none
  | .refuse id =>
      match b.calls.lookup id with
      | some call => if call.point = .arrived then some (b.reject id call .notReady) else none
      | none => none
  | .enter id =>
      match b.calls.lookup id with
      | some call =>
          if call.point = .arrived ∧ b.gate = none then
            some { (b.record (.entered id)).put id call .entered with gate := some id }
          else none
      | none => none
  | .probe id canceled result =>
      match b.calls.lookup id with
      | some call => if call.point = .entered then some (b.probe id call canceled result) else none
      | none => none
  | .snapshot id canceled result =>
      match b.calls.lookup id with
      | some call =>
          match call.point with
          | .probed capabilities => some (b.observe digests id call capabilities canceled result)
          | _ => none
      | none => none
  | .authorize id canceled =>
      match b.calls.lookup id with
      | some call =>
          match call.point with
          | .observed capabilities snapshot =>
              some (b.authorize digests id call capabilities snapshot canceled)
          | _ => none
      | none => none
  | .mutate id canceled result =>
      match b.calls.lookup id with
      | some call =>
          match call.point with
          | .authorized _ _ authority => some (b.mutate digests id call authority canceled result)
          | _ => none
      | none => none

end ExecBoard

section Responses

variable {digests : FirewallDigests} {capabilities : Capabilities} {snapshot : ManagedSnapshot}
  {request : Request} {authority : Authority}

def ErrorCode.early : ErrorCode → Bool
  | .invalidPlan | .ownershipConflict | .unsupported | .notReady => true
  | _ => false

theorem newResponse_some {operation : Operation} {status : Status} {code : ErrorCode}
    (valid : validMutationResultState operation.kind status code (code != .none) = true) :
    newResponse operation status code = some ⟨operation, status, code⟩ := if_pos valid

theorem rejectedMutationResponse_some (request : Request) {code : ErrorCode}
    (early : code.early = true) :
    ∃ response, rejectedMutationResponse request code = some response ∧
      response.operation = request.operation ∧ response.status = .rejected := by
  cases request with
  | apply | remove =>
    refine ⟨_, newResponse_some ?_, rfl, rfl⟩
    cases code <;> first | rfl | cases early

theorem early_observation (err : ObservationError) :
    (mutationObservationErrorCode err).early = true := by
  cases err <;> rfl

theorem early_authorization (err : BridgeError) :
    (mutationAuthorizationErrorCode err).early = true := by
  cases err <;> rfl

theorem mapMutationResult_some {r : MutationResult} (correlated : r.correlates digests authority) :
    ∃ response, mapMutationResult digests authority r = some response ∧
      response.operation = authority.operation ∧ response.status = r.status ∧
      (r.status = .rejected → response.errorCode = r.errorCode) := by
  have formed : validMutationResultState authority.operation.kind r.status r.errorCode
      r.hasErrorCode = true := by
    unfold MutationResult.correlates MutationResult.wellFormed at correlated
    simp only [Bool.and_eq_true, beq_iff_eq] at correlated
    rw [← correlated.1.1.2]
    exact correlated.1.1.1.1.1.2
  unfold mapMutationResult
  rw [if_neg (by simp [correlated])]
  cases status : r.status with
  | confirmed | unknown =>
    refine ⟨_, newResponse_some ?_, rfl, rfl, nofun⟩
    cases authority.operation <;> rfl
  | rejected =>
    refine ⟨_, newResponse_some ?_, rfl, rfl, fun _ => rfl⟩
    rw [status] at formed
    cases code : r.errorCode <;> rw [code] at formed <;>
      simp_all [validMutationResultState, validRejectedMutationCode]
  | other =>
    rw [status] at formed
    simp [validMutationResultState] at formed

theorem concludeMutation_some (identity : mutationIdentity digests authority = true)
    (r : MutationResult) :
    ∃ response, concludeMutation digests authority r = some response ∧
      response.operation = authority.operation ∧
      response.status = (if r.correlates digests authority then r.status else .unknown) ∧
      (response.status = .rejected → response.errorCode = r.errorCode) := by
  unfold concludeMutation
  by_cases correlated : r.correlates digests authority
  · obtain ⟨response, mapped, operation, status, code⟩ := mapMutationResult_some correlated
    rw [mapped, if_pos correlated]
    exact ⟨response, rfl, operation, status, fun rejected => code (status.symm.trans rejected)⟩
  · have missed : mapMutationResult digests authority r = none := by
      unfold mapMutationResult
      simp [correlated]
    rw [missed, if_neg correlated]
    obtain ⟨r', made, unknown, self⟩ : ∃ r', newUnknownMutationResult digests authority = some r' ∧
        r'.status = .unknown ∧ r'.correlates digests authority = true := by
      unfold newUnknownMutationResult
      rw [if_pos identity]
      refine ⟨_, rfl, rfl, ?_⟩
      have lower := digests.lower authority
      unfold MutationResult.correlates MutationResult.wellFormed
      cases authority.operation <;> simp [lower, validMutationResultState, Operation.kind]
    rw [made, Option.bind_some]
    obtain ⟨response, mapped, operation, status, _⟩ := mapMutationResult_some self
    rw [unknown] at status
    exact ⟨response, mapped, operation, status, fun rejected => by rw [status] at rejected; cases rejected⟩

end Responses

def Request.grant (capabilities : Capabilities) (snapshot : ManagedSnapshot) :
    Request → Authority
  | .apply (.infrastructure _ basis revision _) => .infrastructure capabilities basis revision
  | .apply (.policy _ basis revision allowlist protectedTargets) =>
      .policy capabilities basis revision allowlist protectedTargets
  | .apply (.target _ basis generation cidr membership mode expiryUS scopes) =>
      .target capabilities basis generation cidr membership mode expiryUS scopes
  | .remove _ => .removal capabilities snapshot.digest

theorem operation_grant (capabilities : Capabilities) (snapshot : ManagedSnapshot)
    (request : Request) : (request.grant capabilities snapshot).operation = request.operation := by
  cases request with
  | apply plan => cases plan <;> rfl
  | remove owner => rfl

def ManagedSnapshot.vacant (s : ManagedSnapshot) : Prop :=
  s.state.infrastructure = none ∧ s.state.policy = none ∧ s.state.targets = []

section Authorizing

variable {digests : FirewallDigests} {capabilities : Capabilities} {snapshot : ManagedSnapshot}
  {request : Request} {authority : Authority} {basis : String}

theorem deny_eq_ok {condition : Bool} {code : AuthorizationCode} {u : Unit} :
    deny condition code = .ok u ↔ condition = false := by
  unfold deny
  cases condition <;> simp

theorem validateMutationAuthority_ok {u : Unit}
    (h : validateMutationAuthority digests.snapshot capabilities snapshot basis = .ok u) :
    capabilities.valid = true ∧ snapshot.valid digests.snapshot = true ∧
      (basis = "" ∨ basis = snapshot.digest) := by
  unfold validateMutationAuthority at h
  simp only [bind_eq_ok, deny_eq_ok, Bool.or_eq_false_iff, Bool.not_eq_false',
    Bool.and_eq_false_iff, bne_eq_false_iff_eq] at h
  obtain ⟨_, ⟨⟨⟨capable, observed⟩, _⟩, _⟩, _, _, basis⟩ := h
  exact ⟨capable, observed, basis⟩

theorem basis_of_validDigest (valid : validSnapshotDigest basis = true)
    (h : basis = "" ∨ basis = snapshot.digest) : basis = snapshot.digest := by
  obtain rfl | same := h
  · cases valid
  · exact same

theorem authorizeManagedPlan_ok {plan : ManagedPlan}
    (h : authorizeManagedPlan digests capabilities snapshot plan = .ok authority) :
    authority = (Request.apply plan).grant capabilities snapshot ∧
      mutationIdentity digests authority = true ∧ authority.basis = snapshot.digest := by
  have identity : ∀ {a : Authority}, a.capabilities.valid = true →
      validSnapshotDigest a.basis = true → a.validRevision = true →
      mutationIdentity digests a = true := by
    intro a capable basis revision
    unfold mutationIdentity
    rw [capable, basis, revision, digests.lower a]
    rfl
  cases plan with
  | infrastructure owner basis revision schema =>
    simp only [authorizeManagedPlan, authorizeInfrastructureMutation, bind_eq_ok, deny_eq_ok,
      Bool.or_eq_false_iff, Bool.not_eq_false'] at h
    obtain ⟨_, ⟨_, ⟨digest, revision⟩, checked⟩, h⟩ := h
    cases h
    obtain ⟨capable, _, based⟩ := validateMutationAuthority_ok checked
    exact ⟨rfl, identity capable digest revision, basis_of_validDigest digest based⟩
  | policy owner basis revision allowlist protectedTargets =>
    simp only [authorizeManagedPlan, authorizePolicyMutation, bind_eq_ok, deny_eq_ok,
      Bool.or_eq_false_iff, Bool.not_eq_false'] at h
    obtain ⟨_, ⟨_, ⟨⟨⟨⟨⟨⟨digest, revision⟩, _⟩, _⟩, _⟩, _⟩, _⟩, _, checked, _⟩, h⟩ := h
    cases h
    obtain ⟨capable, _, based⟩ := validateMutationAuthority_ok checked
    exact ⟨rfl, identity capable digest revision, basis_of_validDigest digest based⟩
  | target owner basis generation cidr membership mode expiryUS scopes =>
    simp only [authorizeManagedPlan, authorizeTargetMutation, bind_eq_ok, deny_eq_ok,
      Bool.or_eq_false_iff, Bool.not_eq_false'] at h
    obtain ⟨_, ⟨_, ⟨⟨digest, generation⟩, _⟩, _, _, _, checked, _⟩, h⟩ := h
    cases h
    obtain ⟨capable, _, based⟩ := validateMutationAuthority_ok checked
    exact ⟨rfl, identity capable digest generation, basis_of_validDigest digest based⟩

theorem mapError_eq_ok {ε ε' α : Type} {m : Except ε α} {f : ε → ε'} {a : α} :
    m.mapError f = .ok a ↔ m = .ok a := by
  cases m <;> simp [Except.mapError]

theorem authorizeManagedRemoval_ok {owner : String} {removal : Option Authority}
    (h : authorizeManagedRemoval digests capabilities snapshot owner = .ok removal) :
    removal = none ∧ ManagedSnapshot.vacant snapshot ∨
      removal = some (.removal capabilities snapshot.digest) ∧
        mutationIdentity digests (.removal capabilities snapshot.digest) = true := by
  unfold authorizeManagedRemoval at h
  simp only [bind_eq_ok, deny_eq_ok] at h
  obtain ⟨_, _, _, checked, h⟩ := h
  obtain ⟨capable, observed, _⟩ := validateMutationAuthority_ok checked
  split at h
  · rename_i absent
    cases h
    simp only [Bool.and_eq_true, Option.isNone_iff_eq_none, List.isEmpty_iff] at absent
    exact .inl ⟨rfl, absent.1.1, absent.1.2, absent.2⟩
  · cases h
    refine .inr ⟨rfl, ?_⟩
    unfold ManagedSnapshot.valid at observed
    simp only [Bool.and_eq_true] at observed
    unfold mutationIdentity Authority.capabilities Authority.basis Authority.validRevision
    rw [capable, observed.1.1.1, digests.lower]
    rfl

theorem authorizeMutationRequest_mutation
    (h : authorizeMutationRequest digests capabilities snapshot request =
      .ok (.mutation authority)) :
    authority = request.grant capabilities snapshot ∧
      mutationIdentity digests authority = true ∧ authority.basis = snapshot.digest := by
  cases request with
  | apply plan =>
    simp only [authorizeMutationRequest, bind_eq_ok] at h
    obtain ⟨granted, authorized, h⟩ := h
    cases h
    unfold authorizeApplyPlan at authorized
    split at authorized
    · cases authorized
    · exact authorizeManagedPlan_ok (mapError_eq_ok.mp authorized)
  | remove owner =>
    simp only [authorizeMutationRequest] at h
    split at h
    · cases h
    · simp only [bind_eq_ok, mapError_eq_ok] at h
      obtain ⟨removal, authorized, h⟩ := h
      obtain ⟨rfl, _⟩ | ⟨rfl, identity⟩ := authorizeManagedRemoval_ok authorized
      · cases h
      · cases h
        exact ⟨rfl, identity, rfl⟩

theorem authorizeMutationRequest_immediate {response : Response}
    (h : authorizeMutationRequest digests capabilities snapshot request =
      .ok (.immediate response)) :
    request.operation = .remove ∧ response = ⟨.remove, .confirmed, .none⟩ ∧
      ManagedSnapshot.vacant snapshot := by
  cases request with
  | apply plan =>
    simp only [authorizeMutationRequest, bind_eq_ok] at h
    obtain ⟨_, _, h⟩ := h
    cases h
  | remove owner =>
    simp only [authorizeMutationRequest] at h
    split at h
    · cases h
    · simp only [bind_eq_ok, mapError_eq_ok] at h
      obtain ⟨removal, authorized, h⟩ := h
      obtain ⟨rfl, vacant⟩ | ⟨rfl, _⟩ := authorizeManagedRemoval_ok authorized
      · cases h
        exact ⟨rfl, rfl, vacant⟩
      · cases h

end Authorizing

end GuardWall.Enforcer
