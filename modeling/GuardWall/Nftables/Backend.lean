import GuardWall.Enforcer.Executor
import GuardWall.Ipc.SnapshotResponse
import GuardWall.Nftables.Ruleset

/-! `nftables.Backend`: what Probe and Snapshot report of a host, the batches of the authorized
mutations, and Apply and RemoveManagedInfrastructure around them. -/
namespace GuardWall.Nftables

open GuardWall.Core GuardWall.Firewall GuardWall.Foundation GuardWall.Enforcer GuardWall.Ipc

/-- The digests the backend takes besides those of its caller: all are `sha256hex`. -/
structure Digests extends FirewallDigests where
  snapshotLower : ∀ a, validSnapshotDigest (snapshot.hex a) = true
  policy : Hash (List String)
  policyLower : ∀ parts, validSnapshotDigest (policy.hex parts) = true
  infrastructure : String
  infrastructureLower : validSnapshotDigest infrastructure = true

/-- One reading of the ruleset: the clock, the order in which the maps are ranged over, and what
stands outside the guard table. -/
structure Look where
  now : Reading
  order : List Nat
  toolVersion : String
  /-- No object of UFW, Docker or an unknown packet path. -/
  coexisting : Bool
  foreignDigest : String
  foreignLower : validSnapshotDigest foreignDigest = true

structure Seen where
  scopes : List ManagedScope := []
  expiresUS : Option Int := none
  deriving DecidableEq, Repr

def banEntries (sets : SetName → List Listed) (names : List SetName) :
    List (ManagedScope × Listed) :=
  names.flatMap fun name =>
    match name with
    | .ban scope _ => (sets name).map fun e => (scope, e)
    | _ => []

def Seen.merge (all : Table Cidr Seen) (entry : ManagedScope × Listed) : Table Cidr Seen :=
  let prior := (all.lookup entry.2.cidr).getD {}
  all.insert entry.2.cidr
    { scopes := prior.scopes ++ [entry.1], expiresUS := entry.2.expiresUS.or prior.expiresUS }

def Seen.observation (c : Cidr) (v : Seen) : Option TargetObservation :=
  newTargetObservation (some c) (if v.expiresUS.isSome then .native else .none) v.expiresUS v.scopes

/-- `targetObservations`. An observation that cannot be built is left out. The result is sorted here
and again in `NewManagedState`. -/
def targetObservations (order : List Nat) (sets : SetName → List Listed) :
    List TargetObservation :=
  let all := (banEntries sets (reorder order managedSets)).foldl Seen.merge ∅
  ((all.range order).filterMap fun row => row.2.observation row.1).mergeSort
    fun a b => decide (a.target.toText ≤ b.target.toText)

def policyDigest (digests : Digests) (sets : SetName → List Listed) : String :=
  let names : List SetName :=
    [.allow true, .allow false, .protectedTargets true, .protectedTargets false]
  digests.policy.hex <|
    (names.flatMap fun name => (sets name).map fun e => name.text ++ ":" ++ e.cidr.toText).mergeSort
      fun a b => decide (a ≤ b)

def RulesetState.managedState (digests : Digests) (order : List Nat) (state : RulesetState) :
    Option ManagedState :=
  if state.managed then
    newManagedState
      (some ⟨.nftablesNative, managedOwnerVersion, managedSchemaVersion, digests.infrastructure⟩)
      (if state.policy then some (policyDigest digests state.sets) else none)
      (targetObservations order state.sets)
  else newManagedState none none []

section Observations

variable (digests : Digests) (look : Look) (host : Host)

def probe : Except ObservationError Capabilities :=
  if (parseRuleset look.now host).ownershipConflict then .error .ownershipConflict
  else
    let capabilities : Capabilities :=
      { backend := .nftablesNative, toolVersion := look.toolVersion, ipv4 := true, ipv6 := true,
        cidr := true, nativeSet := true, nativeTimeout := true, crashSafeExpiry := true,
        atomicBatch := true, hostInput := true, forward := true,
        ufwIntegrationProven := look.coexisting, dockerIntegrationProven := look.coexisting,
        ownershipProven := true, mutationReady := look.coexisting }
    if capabilities.valid then .ok capabilities else .error .unavailable

def snapshot : Except ObservationError ManagedSnapshot :=
  let state := parseRuleset look.now host
  if state.ownershipConflict then .error .ownershipConflict
  else
    match (state.managedState digests look.order).bind fun managed =>
        newManagedSnapshot digests.snapshot managed look.foreignDigest with
    | some s => .ok s
    | none => .error .unavailable

end Observations

def infrastructureBatch : List Command :=
  [.addTable, .addSet (.allow true) true false, .addSet (.allow false) false false,
    .addSet (.protectedTargets true) true false, .addSet (.protectedTargets false) false false,
    .addSet (.ban .input true) true true, .addSet (.ban .input false) false true,
    .addSet (.ban .forward true) true true, .addSet (.ban .forward false) false true,
    .addChain .guardPolicy none, .addRule .guardPolicy .infrastructureMarker,
    .addChain (.hooked .input) (some .input), .addChain (.hooked .forward) (some .forward)] ++
  (expectedRules .input).map (.addRule (.hooked .input)) ++
  (expectedRules .forward).map (.addRule (.hooked .forward))

/-- `family`; the lists of a policy hold valid prefixes only. -/
def family (prefixes : List Prefix) (v4 : Bool) : List Cidr :=
  prefixes.reduceOption.filter fun c => c.addr.is4 == v4

def writeElements (name : SetName) (prefixes : List Prefix) : List Command :=
  match family prefixes name.v4 with
  | [] => []
  | cidrs => [.addElements name (cidrs.map fun c => (c, none))]

def policyBatch (allowlist protectedTargets : List Prefix) : List Command :=
  [.flushSet (.allow true), .flushSet (.allow false), .flushSet (.protectedTargets true),
    .flushSet (.protectedTargets false), .flushChain .guardPolicy] ++
  writeElements (.allow true) allowlist ++ writeElements (.allow false) allowlist ++
  writeElements (.protectedTargets true) protectedTargets ++
  writeElements (.protectedTargets false) protectedTargets ++
  [.addRule .guardPolicy .infrastructureMarker, .addRule .guardPolicy .policyMarker]

def targetSets (c : Cidr) (scopes : List ManagedScope) : List SetName :=
  scopes.map fun scope => .ban scope c.addr.is4

def scopesForTarget (targets : List TargetObservation) (c : Cidr) : List ManagedScope :=
  ((targets.find? fun o => o.target == some c).map TargetObservation.scopes).getD []

/-- The timeout of an added element, from `time.Until` at a reading of its own: `none` if nothing
is left of it. -/
def timeoutMS (expiryUS : Option Int) (now : Reading) : Option (Option Nat) :=
  match expiryUS with
  | none => some none
  | some us =>
      let remaining := min (us * 1000 - now.ns) maxDurationNS
      if remaining ≤ 0 then none else some (some (max 1 (remaining / 1000000).toNat))

/-- `targetBatch`; `none` is the empty batch. -/
def targetBatch (clock : ManagedScope → Reading) (c : Cidr) (membership : BanMembership)
    (expiryUS : Option Int) (scopes : List ManagedScope) (observed : List TargetObservation) :
    Option (List Command) :=
  let priorScopes := scopesForTarget observed c
  let deletions := (targetSets c priorScopes).map fun name => Command.deleteElement name c
  match membership with
  | .absent => if priorScopes.isEmpty then none else some deletions
  | .present =>
      if scopes.isEmpty then none
      else do
        let additions ← scopes.mapM fun scope => do
          let timeout ← timeoutMS expiryUS (clock scope)
          return Command.addElements (.ban scope c.addr.is4) [(c, timeout)]
        return deletions ++ additions

inductive Ending where
  | rejected (code : ErrorCode)
  /-- nft refused the batch: the result is unknown and nothing has changed. -/
  | refused
  | executed (confirmed : Bool) (host : Host)

inductive Work where
  | nothing
  | batch (commands : List Command)
  | impossible (code : ErrorCode)

def Work.ofOption : Option (List Command) → Work
  | some commands => .batch commands
  | none => .impossible .invalidPlan

/-- The switches of Apply and RemoveManagedInfrastructure. -/
def work (clock : ManagedScope → Reading) (state : ManagedState) : Authority → Work
  | .infrastructure .. =>
      if state.infrastructure.isSome then .nothing else .batch infrastructureBatch
  | .policy _ _ _ allowlist protectedTargets =>
      if state.infrastructure.isNone then .impossible .notReady
      else .batch (policyBatch allowlist protectedTargets)
  | .target _ _ _ target membership _ expiryUS scopes =>
      if membership == .absent && !(state.targets.map TargetObservation.target).contains target then
        .nothing
      else
        match target with
        | none => .impossible .invalidPlan
        | some c => .ofOption (targetBatch clock c membership expiryUS scopes state.targets)
  | .removal .. => if state.infrastructure.isNone then .nothing else .batch [.deleteTable]

def policyElements (allowlist protectedTargets : List Prefix) : SetName → List Listed
  | .allow v4 => (family allowlist v4).map fun c => ⟨c, none⟩
  | .protectedTargets v4 => (family protectedTargets v4).map fun c => ⟨c, none⟩
  | .ban .. => []

/-- `applyPostcondition`, and the check after a removal. -/
def postcondition (digests : Digests) (now : Reading) (state : ManagedState) : Authority → Bool
  | .infrastructure .. => state.infrastructure.isSome
  | .policy _ _ _ allowlist protectedTargets =>
      state.policy == some (policyDigest digests (policyElements allowlist protectedTargets))
  | .target _ _ _ target membership mode expiryUS scopes =>
      match state.targets.find? fun o => o.target == target with
      | none => membership == .absent
      | some o =>
          membership == .present && o.timeoutMode == mode && o.scopes == scopes &&
          match expiryUS with
          | none => true
          | some us => o.effectiveUntilUS.any fun got => now.ns / 1000 < got && got ≤ us
  | .removal .. => state.infrastructure.isNone

/-- `validOperationPlan` and `validRemoval`. -/
def validAuthority (authority : Authority) : Bool :=
  authority.capabilities.backend == .nftablesNative && authority.validRevision &&
  authority.capabilities.valid && authority.capabilities.mutationReady &&
  authority.capabilities.ownershipProven

def invalidCode : Authority → ErrorCode
  | .removal .. => .ownershipConflict
  | _ => .invalidPlan

section Mutations

variable (digests : Digests)

/-- Apply and RemoveManagedInfrastructure, which differ in the switch, the batch and the check after
it only. -/
def mutate (before after : Look) (clock : ManagedScope → Reading) (authority : Authority)
    (host : Host) : Ending :=
  if !validAuthority authority then .rejected (invalidCode authority)
  else if probe before host != .ok authority.capabilities then .rejected .notReady
  else
    match snapshot digests before host with
    | .error _ => .rejected .notReady
    | .ok basis =>
        if basis.digest != authority.basis then .rejected .notReady
        else
          match work clock basis.state authority with
          | .nothing => .executed true host
          | .impossible code => .rejected code
          | .batch commands =>
              match runBatch host commands with
              | none => .refused
              | some changed =>
                  match snapshot digests after changed with
                  | .error _ => .executed false changed
                  | .ok s =>
                      .executed (s.foreignDigest == basis.foreignDigest &&
                        postcondition digests after.now s.state authority) changed

/-- A run of the host: requests that are authorized and carried out, and time that passes. -/
inductive Move where
  | mutation (request : Enforcer.Request) (authorizing before after : Look)
      (clock : ManagedScope → Reading)
  | elapse (ms : Nat)

def authorize (look : Look) (host : Host) (request : Enforcer.Request) : Option Authority := do
  let capabilities ← (probe look host).toOption
  let s ← (snapshot digests look host).toOption
  match (authorizeMutationRequest digests.toFirewallDigests capabilities s request).toOption with
  | some (.mutation authority) => some authority
  | _ => none

/-- A mutation that is not authorized, or not carried out, is no move. -/
def step (host : Host) : Move → Option Host
  | .mutation request authorizing before after clock => do
      let authority ← authorize digests authorizing host request
      match mutate digests before after clock authority host with
      | .executed _ changed => some changed
      | _ => none
  | .elapse ms => some (host.map (GuardTable.after ms))

end Mutations

end GuardWall.Nftables
