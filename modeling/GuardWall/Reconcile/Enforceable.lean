import GuardWall.Decision.Stored
import GuardWall.Ipc.Requests
import GuardWall.Nftables.Closure
import GuardWall.Reconcile.IpcBackend

/-! Whether the intents the Decision transactions store can be enforced: the translation of a target
plan into a mutation request, past the firewall authorization of the Agent, the request validator
and the authorization of the Enforcer. -/
namespace GuardWall.Reconcile

open GuardWall.Core GuardWall.Firewall GuardWall.Foundation GuardWall.Ipc
open GuardWall.Decision (intent? bookAfter StoredIntent ManagedPolicyTargetResolver Operation)
open GuardWall.Enforcer (ManagedPlan FirewallDigests authorizeMutationRequest authorizeApplyPlan
  authorizeManagedPlan deny_eq_ok)

theorem wrapInt64_eq_iff {n : Int} (positive : 0 < n) : wrapInt64 n = n ↔ n ≤ maxInt64 := by
  unfold wrapInt64 maxInt64
  rw [Int.bmod_def]
  split <;> omega

section Translation

variable {netip : PrefixParser} {hash : Hash (ManagedState × String)} {capabilities : Capabilities}
  {snapshot : ManagedSnapshot} {plan : OperationPlan} {i : Intent}

theorem translateTarget_eq_ok {request : ManagedPlan} (desired : plan.desiredTarget = some i) :
    translateTarget netip hash capabilities snapshot plan = .ok request ↔
      authorizeTargetMutation hash capabilities snapshot plan.basisSnapshotDigest
        plan.key.targetGeneration plan.key.target i.banMembership i.timeoutMode
        (i.nativeExpiry.map fun expiry => wrapInt64 expiry.unixMicro) (firewallScopes i.scopes) =
          .ok () ∧
      request = .target managedOwnerVersion plan.basisSnapshotDigest plan.key.targetGeneration
        plan.key.target i.banMembership i.timeoutMode
        (i.nativeExpiry.map fun expiry => wrapInt64 expiry.unixMicro) (firewallScopes i.scopes) := by
  simp only [translateTarget, desired]
  exact authorized_eq_ok newApplyTargetRequest_of_authorized

/-- What a plan asks for, as a request. -/
def OperationPlan.asked (plan : OperationPlan) : Option ManagedPlan :=
  match plan.key.domain with
  | .infrastructure => some (.infrastructure managedOwnerVersion plan.basisSnapshotDigest
      plan.key.infrastructureRevision managedSchemaVersion)
  | .policy => some (.policy managedOwnerVersion plan.basisSnapshotDigest plan.key.policyRevision
      plan.desiredPolicy.allowlist plan.desiredPolicy.protectedTargets)
  | .target => plan.desiredTarget.map fun i => .target managedOwnerVersion plan.basisSnapshotDigest
      plan.key.targetGeneration plan.key.target i.banMembership i.timeoutMode
      (i.nativeExpiry.map fun expiry => wrapInt64 expiry.unixMicro) (firewallScopes i.scopes)

end Translation

/-- Native nftables that may be mutated and can do all a target plan asks for, with the managed
infrastructure and policy in place. -/
structure ReadyFor (hash : Hash (ManagedState × String)) (c : Capabilities) (s : ManagedSnapshot) :
    Prop where
  valid : c.valid = true
  native : c.backend = .nftablesNative
  ready : c.mutationReady = true ∧ c.ownershipProven = true
  families : c.ipv4 = true ∧ c.ipv6 = true ∧ c.cidr = true
  timeouts : c.nativeTimeout = true ∧ c.crashSafeExpiry = true
  paths : c.hostInput = true ∧ c.forward = true
  observed : s.valid hash = true
  infrastructure : ∃ o, s.state.infrastructure = some o ∧ o.backend = .nftablesNative
  policy : s.state.policy.isSome = true

section Authorizing

variable {hash : Hash (ManagedState × String)} {c : Capabilities} {s : ManagedSnapshot}
  {target : Prefix} {membership : BanMembership} {mode : TimeoutMode} {expiryUS : Option Int}
  {scopes : List ManagedScope} {generation : Nat}

theorem ReadyFor.digest (h : ReadyFor hash c s) : validSnapshotDigest s.digest = true := by
  have observed := h.observed
  simp only [ManagedSnapshot.valid, Bool.and_eq_true] at observed
  exact observed.1.1.1

theorem authorizeTargetMutation_ready_iff (h : ReadyFor hash c s) :
    authorizeTargetMutation hash c s s.digest generation target membership mode expiryUS scopes =
        .ok () ↔
      validRevision generation = true ∧ validManagedTarget target = true ∧
        canonicalManagedScopes scopes = some scopes ∧
        validTargetTimeout membership mode expiryUS = true := by
  obtain ⟨o, present, backend⟩ := h.infrastructure
  have authority : validateMutationAuthority hash c s s.digest = .ok () := by
    simp [validateMutationAuthority, deny, h.valid, h.observed, h.ready, present, backend, h.native,
      bind, Except.bind]
  have policy : s.state.policy.isNone = false := by simpa using h.policy
  have supported : ∀ target : Prefix, validManagedTarget target = true →
      supportsPrefix c target = true := by
    rintro (_ | cidr) managed
    · cases managed
    · simp [supportsPrefix, h.families]
  have paths : supportsScopes c scopes = true := by
    simp only [supportsScopes, List.all_eq_true]
    rintro (_ | _) _
    · exact h.paths.1
    · exact h.paths.2
  simp only [authorizeTargetMutation, bind_eq_ok, deny_eq_ok, authority, h.digest, policy, present,
    paths, h.timeouts, Bool.not_true, Bool.false_or, Bool.or_eq_false_iff, Bool.not_eq_false',
    bne_eq_false_iff_eq, Option.isNone_some, Bool.and_false, Bool.or_false]
  constructor
  · rintro ⟨_, ⟨positive, managed⟩, _, ⟨canonical, timed⟩, _⟩
    exact ⟨positive, managed, canonical, timed⟩
  · rintro ⟨positive, managed, canonical, timed⟩
    exact ⟨(), ⟨positive, managed⟩, (), ⟨canonical, timed⟩, (), trivial, (), trivial, (), trivial,
      supported target managed⟩

theorem authorizeMutationRequest_ready {digests : FirewallDigests}
    (h : ReadyFor digests.snapshot c s) (positive : validRevision generation = true)
    (managed : validManagedTarget target = true)
    (canonical : canonicalManagedScopes scopes = some scopes)
    (timed : validTargetTimeout membership mode expiryUS = true) :
    authorizeMutationRequest digests c s (.apply (.target managedOwnerVersion s.digest generation
        target membership mode expiryUS scopes)) =
      .ok (.mutation (.target c s.digest generation target membership mode expiryUS scopes)) := by
  have authorized : authorizeTargetMutation digests.snapshot c s s.digest generation target
      membership mode expiryUS scopes = .ok () :=
    (authorizeTargetMutation_ready_iff h).mpr ⟨positive, managed, canonical, timed⟩
  have based : s.digest ≠ "" := by
    intro empty
    have digest := h.digest
    rw [empty] at digest
    cases digest
  have counted : generation ≠ 0 := by
    rintro rfl
    cases positive
  simp [authorizeMutationRequest, authorizeApplyPlan, ManagedPlan.ownerVersion, ManagedPlan.basis,
    ManagedPlan.revision, ManagedPlan.schemaSupported, authorizeManagedPlan, authorized, based,
    counted, bind, Except.bind, Except.mapError, pure, Except.pure]

theorem scopes_firewallScopes {scopes : EnforcementScope}
    (supported : (scopes == 0#8 || unsupportedScope scopes) = false) :
    canonicalManagedScopes (firewallScopes scopes) = some (firewallScopes scopes) ∧
      coreScopes (firewallScopes scopes) = scopes := by
  obtain rfl | rfl | rfl : scopes = 1#8 ∨ scopes = 2#8 ∨ scopes = 3#8 := by
    revert scopes
    decide
  all_goals decide

end Authorizing

theorem unixMicro_safetyGrace (us : Int) :
    ((Instant.ofMicro us).add Intent.safetyGrace).unixMicro = us + 300000000 := by
  simp only [Instant.ofMicro, Instant.add, Instant.unixMicro, Intent.safetyGrace, minute, second,
    microsecond]
  omega

/-- The plan of the controller for an intent, on the basis of a snapshot. -/
structure PlansTarget (plan : OperationPlan) (i : Intent) (s : ManagedSnapshot) : Prop where
  desired : plan.desiredTarget = some i
  target : plan.key.target = i.canonicalTarget
  generation : plan.key.targetGeneration = i.generation
  basis : plan.basisSnapshotDigest = s.digest

/-- The request asks for what the intent says, with the grace added to its expiry. -/
def Carries (i : Intent) : ManagedPlan → Prop
  | .target _ _ generation cidr membership _ expiryUS scopes =>
      generation = i.generation ∧ cidr = i.canonicalTarget ∧ membership = i.banMembership ∧
      coreScopes scopes = i.scopes ∧
      expiryUS = i.effectiveUntil.map fun t => (t.add Intent.safetyGrace).unixMicro
  | _ => False

/-- The conditions under which a stored intent can be enforced: it stays off the loopback, and its
expiry is given to the kernel as a time that still fits with the grace. -/
structure Placeable (i : Intent) : Prop where
  apart4 : i.canonicalTarget.overlaps Prefix.loopback4 = false
  apart6 : i.canonicalTarget.overlaps Prefix.loopback6 = false
  timed : ∀ t, i.effectiveUntil = some t →
    i.timeoutMode = .native ∧ t.unixMicro + 300000000 ≤ maxInt64

section Stored

variable {r : ManagedPolicyTargetResolver} {i : Intent}

theorem nativeExpiry_graced_iff (stored : StoredIntent r i) :
    (i.nativeExpiry.map fun expiry => wrapInt64 expiry.unixMicro) =
        (i.effectiveUntil.map fun t => (t.add Intent.safetyGrace).unixMicro) ↔
      ∀ t, i.effectiveUntil = some t →
        i.timeoutMode = .native ∧ t.unixMicro + 300000000 ≤ maxInt64 := by
  unfold Intent.nativeExpiry
  cases until_ : i.effectiveUntil with
  | none => cases i.timeoutMode <;> simp
  | some t =>
    obtain ⟨us, rfl, positive⟩ := stored.expires t until_
    cases mode : i.timeoutMode with
    | none => simp
    | native =>
      simp only [Option.map_some, Option.some.injEq, unixMicro_safetyGrace, forall_eq',
        Instant.unixMicro_ofMicro, true_and]
      exact wrapInt64_eq_iff (by omega)

theorem validTargetTimeout_of_stored (stored : StoredIntent r i)
    (timed : ∀ t, i.effectiveUntil = some t →
      i.timeoutMode = .native ∧ t.unixMicro + 300000000 ≤ maxInt64) :
    validTargetTimeout i.banMembership i.timeoutMode
      (i.nativeExpiry.map fun expiry => wrapInt64 expiry.unixMicro) = true := by
  rw [(nativeExpiry_graced_iff stored).mpr timed]
  cases until_ : i.effectiveUntil with
  | none =>
    have mode : i.timeoutMode = .none := by
      cases mode : i.timeoutMode with
      | none => rfl
      | native => simpa [until_] using stored.native.mp mode
    cases membership : i.banMembership <;> simp [validTargetTimeout, mode]
  | some t =>
    obtain ⟨us, rfl, positive⟩ := stored.expires t until_
    have membership : i.banMembership = .present := by
      cases membership : i.banMembership with
      | present => rfl
      | absent => rw [stored.absent membership] at until_; cases until_
    rw [membership, (timed _ until_).1, Option.map_some, unixMicro_safetyGrace]
    simp only [validTargetTimeout, Option.any_some, decide_eq_true_eq]
    omega

end Stored

/-- An intent stored by any Decision transactions gets through the three validators as what it says
exactly if it is placeable. -/
theorem stored_intent_enforceable_iff (netip : PrefixParser) (digests : FirewallDigests)
    (r : ManagedPolicyTargetResolver) (hash : Hash String) (digest : Hash (List String))
    (nodeID : String) (ops : List Operation) {target : Prefix} {i : Intent}
    (stored : intent? (bookAfter r hash digest nodeID ops).db target = some i)
    {c c' : Capabilities} {s s' : ManagedSnapshot} (agent : ReadyFor digests.snapshot c s)
    (enforcer : ReadyFor digests.snapshot c' s') (fresh : s'.digest = s.digest)
    {plan : OperationPlan} (planned : PlansTarget plan i s) :
    (∃ request authority, translateTarget netip digests.snapshot c s plan = .ok request ∧
        Carries i request ∧
        authorizeMutationRequest digests c' s' (.apply request) = .ok (.mutation authority)) ↔
      Placeable i := by
  have facts := (Decision.storedIntent_of_run r hash digest nodeID ops stored).2
  have scopes := scopes_firewallScopes r.supported
  rw [← facts.scopes] at scopes
  constructor
  · rintro ⟨request, authority, translated, carried, _⟩
    obtain ⟨authorized, rfl⟩ := (translateTarget_eq_ok planned.desired).mp translated
    rw [planned.basis, authorizeTargetMutation_ready_iff agent, planned.target] at authorized
    obtain ⟨_, managed, _⟩ := authorized
    simp only [validManagedTarget, Bool.and_eq_true, Bool.not_eq_true'] at managed
    obtain ⟨_, _, _, _, graced⟩ := carried
    exact ⟨managed.1.2, managed.2, (nativeExpiry_graced_iff facts).mp graced⟩
  · intro placeable
    have managed : validManagedTarget i.canonicalTarget = true := by
      simp [validManagedTarget, facts.canonical, placeable.apart4, placeable.apart6]
    have positive : validRevision i.generation = true := by
      simp [validRevision, facts.positive, facts.fits]
    have timed := validTargetTimeout_of_stored facts placeable.timed
    have granted := authorizeMutationRequest_ready enforcer positive managed scopes.1 timed
    rw [fresh, ← planned.basis, ← planned.generation, ← planned.target] at granted
    refine ⟨_, _, (translateTarget_eq_ok planned.desired).mpr ⟨?_, rfl⟩, ?_, granted⟩
    · rw [planned.basis, authorizeTargetMutation_ready_iff agent, planned.target,
        planned.generation]
      exact ⟨positive, managed, scopes.1, timed⟩
    · exact ⟨planned.generation, planned.target, rfl, scopes.2,
        (nativeExpiry_graced_iff facts).mpr placeable.timed⟩

namespace Sample

noncomputable def netip : PrefixParser := .inverse

def bans (target : Prefix) : List Operation :=
  [.replacePolicy 0 (Decision.Sample.allowing []) (second 1),
    .ban nodeID ⟨"decision", nodeID, target, second 2, some (second 100)⟩ false]

def storedBan (target : Prefix) : Option Intent :=
  intent? (bookAfter Decision.Sample.targetResolver Decision.Sample.parity (hash _) nodeID
    (bans target)).db target

def inPlace : ManagedSnapshot :=
  ⟨⟨some ⟨.nftablesNative, managedOwnerVersion, managedSchemaVersion, digest⟩, some digest, []⟩,
    digest, digest⟩

def planFor (i : Intent) : OperationPlan where
  key := { domain := .target, target := i.canonicalTarget, targetGeneration := i.generation }
  desiredTarget := some i
  basisSnapshotDigest := inPlace.digest

theorem plansTarget (i : Intent) : PlansTarget (planFor i) i inPlace := ⟨rfl, rfl, rfl, rfl⟩

theorem readyFor : ReadyFor Nftables.Sample.digests.snapshot Nftables.Sample.capabilities inPlace where
  valid := by decide
  native := rfl
  ready := ⟨rfl, rfl⟩
  families := ⟨rfl, rfl, rfl⟩
  timeouts := ⟨rfl, rfl⟩
  paths := ⟨rfl, rfl⟩
  observed := by decide
  infrastructure := ⟨_, rfl, rfl⟩
  policy := rfl

/-- `127.0.0.1/32` -/
def loopbackHost : Prefix := some ⟨.v4 0x7F000001#32, 32, by decide⟩

theorem storedBans :
    (storedBan target).map (fun i => (i.canonicalTarget, i.timeoutMode, i.effectiveUntil)) =
      some (target, .native, some (.ofMicro 100000000)) ∧
    (storedBan loopbackHost).map (fun i =>
      (i.canonicalTarget, authorizeTargetMutation Nftables.Sample.digests.snapshot
        Nftables.Sample.capabilities inPlace inPlace.digest i.generation i.canonicalTarget
        i.banMembership i.timeoutMode
        (i.nativeExpiry.map fun expiry => wrapInt64 expiry.unixMicro) (firewallScopes i.scopes))) =
      some (loopbackHost, .error .invalidPlan) := by
  decide +kernel

end Sample

theorem stored_intent_enforceable_iff_documentation_host :
    ∃ i request authority, Sample.storedBan Sample.target = some i ∧
      translateTarget Sample.netip Nftables.Sample.digests.snapshot Nftables.Sample.capabilities
        Sample.inPlace (Sample.planFor i) = .ok request ∧ Carries i request ∧
      authorizeMutationRequest Nftables.Sample.digests.toFirewallDigests
        Nftables.Sample.capabilities Sample.inPlace (.apply request) = .ok (.mutation authority) := by
  obtain ⟨i, stored, shape⟩ := Option.map_eq_some_iff.mp Sample.storedBans.1
  simp only [Prod.mk.injEq] at shape
  obtain ⟨own, mode, until_⟩ := shape
  have placeable : Placeable i := by
    refine ⟨by rw [own]; decide, by rw [own]; decide, fun t expires => ⟨mode, ?_⟩⟩
    rw [until_] at expires
    cases expires
    decide
  obtain ⟨request, authority, enforced⟩ := (stored_intent_enforceable_iff Sample.netip
    Nftables.Sample.digests.toFirewallDigests _ _ _ _ _ stored Sample.readyFor Sample.readyFor rfl
    (Sample.plansTarget i)).mpr placeable
  exact ⟨i, request, authority, stored, enforced⟩

/-- A Decision on an address of the loopback is stored, and its plan is refused by every ready
backend. -/
theorem loopback_ban_not_enforceable :
    ∃ i, Sample.storedBan Sample.loopbackHost = some i ∧ PlansTarget (Sample.planFor i) i Sample.inPlace ∧
      ReadyFor Nftables.Sample.digests.snapshot Nftables.Sample.capabilities Sample.inPlace ∧
      ∀ netip, translateTarget netip Nftables.Sample.digests.snapshot Nftables.Sample.capabilities
        Sample.inPlace (Sample.planFor i) = .error "invalid_plan" := by
  obtain ⟨i, stored, shape⟩ := Option.map_eq_some_iff.mp Sample.storedBans.2
  simp only [Prod.mk.injEq] at shape
  refine ⟨i, stored, Sample.plansTarget i, Sample.readyFor, fun netip => ?_⟩
  simp only [translateTarget, Sample.planFor, shape.2]
  rfl

section Agent

variable {netip : PrefixParser} {layout : String} {firewall : FirewallDigests} {digests : Digests}
  {answer : IpcAnswer} {c : Capabilities} {s : ManagedSnapshot} {plan : OperationPlan}
  {request : ManagedPlan}

theorem authorizeIPCRequest_eq_ok
    (h : IpcBackend.authorizeIPCRequest netip ⟨layout, firewall.snapshot⟩ c s plan = .ok request) :
    plan.asked = some request ∧
      ∃ authority, authorizeManagedPlan firewall c s request = .ok authority := by
  unfold IpcBackend.authorizeIPCRequest at h
  unfold OperationPlan.asked
  cases domain : plan.key.domain with
  | infrastructure =>
    simp only [domain] at h ⊢
    iterate 3 (split at h; cases h)
    obtain ⟨granted, rfl⟩ := (authorized_eq_ok newApplyInfrastructureRequest_of_authorized).mp h
    exact ⟨rfl, _, by rw [authorizeManagedPlan, granted]; rfl⟩
  | policy =>
    simp only [domain] at h ⊢
    obtain ⟨granted, rfl⟩ := (authorized_eq_ok newApplyPolicyRequest_of_authorized).mp h
    exact ⟨rfl, _, by rw [authorizeManagedPlan, granted]; rfl⟩
  | target =>
    simp only [domain] at h ⊢
    cases desired : plan.desiredTarget with
    | none =>
      simp only [translateTarget, desired] at h
      cases h
    | some i =>
      obtain ⟨granted, rfl⟩ := (translateTarget_eq_ok desired).mp h
      exact ⟨rfl, _, by rw [authorizeManagedPlan, granted]; rfl⟩

theorem prepare_eq_ok {config : IpcConfig} :
    IpcBackend.prepare netip config digests answer plan = .ok request ↔
      plan.validate digests = .ok () ∧ ∃ c s, IpcBackend.checkCapabilities answer = .ok c ∧
        IpcBackend.checkSnapshot config answer = .ok s ∧
        IpcBackend.authorizeIPCRequest netip config c s plan = .ok request := by
  unfold IpcBackend.prepare
  cases plan.validate digests with
  | error _ => simp
  | ok _ =>
    cases IpcBackend.checkCapabilities answer with
    | error _ => simp
    | ok c =>
      cases IpcBackend.checkSnapshot config answer with
      | error _ => simp
      | ok s =>
        cases authorized : IpcBackend.authorizeIPCRequest netip config c s plan <;>
          simp [authorized]

theorem asked_version (asked : plan.asked = some request) :
    request.ownerVersion = managedOwnerVersion ∧ request.schemaSupported = true ∧
      request.basis = plan.basisSnapshotDigest := by
  unfold OperationPlan.asked at asked
  split at asked
  · cases asked
    exact ⟨rfl, rfl, rfl⟩
  · cases asked
    exact ⟨rfl, rfl, rfl⟩
  · obtain ⟨i, _, rfl⟩ := Option.map_eq_some_iff.mp asked
    exact ⟨rfl, rfl, rfl⟩

/-- The backend goes on to a mutation exactly with a request for what the plan asks, which the
Enforcer grants on the snapshot the Agent has read. -/
theorem sent_request_granted {netip : PrefixParser} {layout : String} {firewall : FirewallDigests}
    {digests : Digests} {answer : IpcAnswer} {plan : OperationPlan}
    (mutates : (ipcBackend netip ⟨layout, firewall.snapshot⟩ digests).mutates answer plan = true) :
    plan.validate digests = .ok () ∧ ∃ request c s, plan.asked = some request ∧
      (ipcBackend netip ⟨layout, firewall.snapshot⟩ digests).apply answer plan =
        (answer.mutation request).bind (IpcBackend.mapIPCApplyResponse plan) ∧
      answer.capabilities = .ok c ∧ answer.snapshot = .ok s ∧
      plan.basisSnapshotDigest = s.digest ∧
      authorizeMutationRequest firewall c s (.apply request) =
        .ok (.mutation (Enforcer.Request.grant c s (.apply request))) := by
  obtain ⟨request, sent⟩ := isOk_iff.mp mutates
  obtain ⟨valid, c, s, capable, observed, authorized⟩ := prepare_eq_ok.mp sent
  simp only [IpcBackend.checkCapabilities, IpcBackend.checkSnapshot, bind_eq_ok] at capable observed
  obtain ⟨_, capable, _, _, ⟨⟩⟩ := capable
  obtain ⟨_, observed, _, _, ⟨⟩⟩ := observed
  obtain ⟨asked, authority, managed⟩ := authorizeIPCRequest_eq_ok authorized
  obtain ⟨rfl, identity, based⟩ := Enforcer.authorizeManagedPlan_ok managed
  obtain ⟨owner, schema, basis⟩ := asked_version asked
  refine ⟨valid, request, c, s, asked, ?_, capable, observed, ?_, ?_⟩
  · simp only [ipcBackend, IpcBackend.apply, sent]
    rfl
  · cases request <;> exact basis.symm.trans based
  · simp only [Enforcer.mutationIdentity, Bool.and_eq_true] at identity
    obtain ⟨⟨⟨_, digest⟩, positive⟩, _⟩ := identity
    have based : request.basis ≠ "" := by
      intro empty
      cases request <;> cases empty <;> cases digest
    have counted : request.revision ≠ 0 := by
      intro zero
      cases request <;> cases zero <;> cases positive
    simp [authorizeMutationRequest, authorizeApplyPlan, owner, schema, based, counted, managed, bind,
      Except.bind, Except.mapError, pure, Except.pure]

end Agent

namespace Sample

def timedPlan : OperationPlan :=
  { planFor { intent target 1 scopeInput with
      effectiveUntil := some (.ofMicro 100000000), timeoutMode := .native } with digest := digest }

end Sample

open Sample in
theorem sent_request_granted_ban : ∃ request : ManagedPlan, timedPlan.asked = some request ∧
    authorizeMutationRequest Nftables.Sample.digests.toFirewallDigests
      Nftables.Sample.capabilities inPlace (.apply request) = .ok (.mutation
        (Enforcer.Request.grant Nftables.Sample.capabilities inPlace (.apply request))) := by
  have mutates : (ipcBackend netip ⟨digest, Nftables.Sample.digests.snapshot⟩ digests).mutates
      ⟨.ok Nftables.Sample.capabilities, .ok inPlace, fun _ => .ok none⟩ timedPlan = true := by
    have translated := (@translateTarget_eq_ok netip Nftables.Sample.digests.snapshot
      Nftables.Sample.capabilities inPlace timedPlan _ _ rfl).mpr ⟨by decide +kernel, rfl⟩
    exact isOk_iff.mpr ⟨_, prepare_eq_ok.mpr
      ⟨by decide +kernel, _, inPlace, rfl, by rfl, translated⟩⟩
  obtain ⟨_, request, _, _, asked, _, ⟨⟩, ⟨⟩, _, granted⟩ := sent_request_granted mutates
  exact ⟨request, asked, granted⟩

end GuardWall.Reconcile
