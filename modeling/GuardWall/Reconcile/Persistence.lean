import GuardWall.Reconcile.Session

/-! `persistence.go`: hydration of the controller from the durable ledger, and the store
calls every ledger transition goes through. -/
namespace GuardWall.Reconcile

open GuardWall.Core GuardWall.Foundation GuardWall.Store

/-- `attemptRefFromPersistedState` -/
def checkRef (ref : AttemptRef) : Except Fault Unit :=
  match ref.slot with
  | .infrastructure => reject (ref.version == 0) "infrastructure retry state has zero revision"
  | .policy => reject (ref.version == 0) "policy retry state has zero revision"
  | .target t => reject (!t.canonical || ref.version == 0) "target retry state has invalid key"

def validateRecoveredRetryState (s : RetryState) : Except Fault Unit := do
  reject (maxMutationAttempts < s.attemptCount) "attempt count exceeds 6"
  reject (s.attemptCount == 0 && s.lastAttemptAt.isSome) "zero attempts have a last-attempt time"
  reject (s.status == .applying &&
      (s.attemptCount == 0 || s.lastAttemptAt.isNone || s.nextAttemptAt.isSome))
    "applying state has inconsistent attempt fields"
  reject (s.status == .retryWaiting &&
      (s.attemptCount == 0 || s.lastAttemptAt.isNone || s.nextAttemptAt.isNone))
    "retry-waiting state has inconsistent attempt fields"
  reject (s.nextAttemptAt.isSome && s.lastAttemptAt.isSome && !s.nextFollowsLast)
    "next-attempt time is not after last attempt"
  reject ((s.status == .converged || s.status == .degraded) && s.nextAttemptAt.isSome)
    "terminal state has a next-attempt time"

/-- An attempt that was in flight when the process stopped waits out its backoff, or is
degraded if it was the last. -/
def recoverApplying (s : RetryState) : Except Fault RetryState :=
  if s.status != .applying then .ok s
  else if maxMutationAttempts ≤ s.attemptCount then
    .ok { s with status := .degraded, nextAttemptAt := none }
  else
    match s.lastAttemptAt, backoffAfter s.attemptCount with
    | some last, some delay =>
        .ok { s with status := .retryWaiting, nextAttemptAt := some (last.add delay) }
    | _, _ => .error (.text "index out of range")

def hydrateState (c : Controller) (p : PersistedState) : Except Fault Controller := do
  reject (p.nodeID != c.nodeID) "retry state belongs to another node"
  checkRef p.ref
  within "validate retry state" (validateRecoveredRetryState p.retry)
  let state ← recoverApplying p.retry
  return c.putState p.ref state

/-- A requirement whose ledger row has moved on gets a synthetic state of its own. -/
def hydrateProbe (c : Controller) (p : ProbeRequirement) : Except Fault Controller := do
  reject (p.nodeID != c.nodeID) "Probe requirement belongs to another node"
  within "invalid Probe requirement" (checkRef p.ref)
  reject (p.attempt == 0 || maxMutationAttempts < p.attempt)
    "Probe requirement has invalid attempt count"
  reject (c.pendingProbes.lookup p.key).isSome "duplicate Probe requirement"
  match c.state? p.ref with
  | some state => do
      reject (state.attemptCount != p.attempt)
        "Probe requirement attempt does not match retry ledger"
      reject (!probeCompatible state.status) "Probe requirement has incompatible retry status"
      return { c with pendingProbes := c.pendingProbes.insert p.key p.ref }
  | none =>
      return { c.putState p.ref { status := .applying, attemptCount := p.attempt } with
        pendingProbes := c.pendingProbes.insert p.key p.ref
        syntheticRefs := insert p.ref c.syntheticRefs }

def Controller.hydrateRecovery (recovery : Recovery) (c : Controller) :
    Except Fault Controller := do
  let c ← recovery.states.foldlM hydrateState c
  let c ← recovery.probes.foldlM hydrateProbe c
  reject (recovery.states.any fun p => p.retry.status == .applying && !c.hasPendingRef p.ref)
    "applying retry state is missing its Probe requirement"
  return c

def Controller.replaceRecovery (recovery : Recovery) (c : Controller) :
    Except Fault Controller := do
  let hydrated ← Controller.hydrateRecovery recovery { nodeID := c.nodeID }
  let replaced := { c with
    states := hydrated.states
    pendingProbes := hydrated.pendingProbes
    syntheticRefs := hydrated.syntheticRefs
    startupProbeRequired := !(recovery.states.isEmpty && recovery.probes.isEmpty) }
  return if c.desired.isSome then replaced.activateHydratedState else replaced

def equalPersistedTime : Option Instant → Option Instant → Bool
  | some t, some u => t.unixMicro == u.unixMicro
  | none, none => true
  | _, _ => false

def samePersistedState (left right : PersistedState) : Bool :=
  left.nodeID == right.nodeID && left.ref == right.ref &&
  left.retry.status == right.retry.status &&
  left.retry.attemptCount == right.retry.attemptCount &&
  equalPersistedTime left.retry.lastAttemptAt right.retry.lastAttemptAt &&
  equalPersistedTime left.retry.nextAttemptAt right.retry.nextAttemptAt &&
  left.retry.lastErrorCode == right.retry.lastErrorCode

def recoveryHasProbe (recovery : Recovery) (expected : ProbeRequirement) : Bool :=
  recovery.probes.any fun p =>
    p.nodeID == expected.nodeID && p.key == expected.key && p.epoch == expected.epoch &&
    p.attempt == expected.attempt

def reconcileTransitionApplied (recovery : Recovery) (t : Transition) : Bool :=
  (t.state.all fun s => recovery.states.any fun r => samePersistedState r s) &&
  (t.upsertProbe.all fun p => recoveryHasProbe recovery p) &&
  (t.deleteProbe.all fun p => !recoveryHasProbe recovery p)

def sameTargetObserved (left right : TargetObserved) : Bool :=
  left.canonicalTarget == right.canonicalTarget &&
  left.observedAt.unixMicro == right.observedAt.unixMicro && left.backend == right.backend &&
  left.banMembership == right.banMembership && left.policyCoverage == right.policyCoverage &&
  left.policyRelationDigest == right.policyRelationDigest &&
  left.timeoutMode == right.timeoutMode &&
  equalPersistedTime left.nativeExpiry right.nativeExpiry && left.scopes == right.scopes &&
  left.addressFamily == right.addressFamily && left.ownerVersion == right.ownerVersion &&
  left.lastErrorCode == right.lastErrorCode &&
  left.confirmedGeneration == right.confirmedGeneration

def sameInfrastructureObserved (left right : InfrastructureObserved) : Bool :=
  persistInfrastructure left == persistInfrastructure right

def samePolicyObserved (left right : PolicyObserved) : Bool :=
  persistPolicy left == persistPolicy right

def observedUpdateApplied (snapshot : ObservedSnapshot) (update : ObservedUpdate) : Bool :=
  snapshot.nodeID == update.nodeID &&
  (update.infrastructure.all fun o => snapshot.infrastructure.any (sameInfrastructureObserved o)) &&
  (update.policy.all fun o => snapshot.policy.any (samePolicyObserved o)) &&
  update.targets.all fun o =>
    (snapshot.targets.find? fun a => a.canonicalTarget == o.canonicalTarget).any fun a =>
      sameTargetObserved a o

namespace Controller

open Session

variable (env : Env)

def persistedState (ref : AttemptRef) (state : RetryState) : Act env PersistedState := do
  let c ← memory env
  let updatedAt ← now env
  return ⟨c.nodeID, ref, state, updatedAt⟩

def persistedProbe (key : PendingProbeKey) (ref : AttemptRef) (attempt : Nat) :
    Act env ProbeRequirement := do
  let c ← memory env
  let recordedAt ← now env
  return ⟨c.nodeID, key, ref.epoch, attempt, recordedAt⟩

/-- The readback gave no answer: nothing is assumed until the next reload. -/
def flagReload (err : Fault) (context : String) (cause : Fault) : Act env Unit := do
  setMemory env fun c => { c with recoveryReloadNeeded := true }
  Proc.fail (.join err (.wrap context cause))

/-- Installs a recovery that was read after an indeterminate commit. -/
def adoptRecovery (recovery : Recovery) (applied : Bool) (err : Fault) (context : String) :
    Act env Unit := do
  let c ← memory env
  match c.replaceRecovery recovery with
  | .error e => flagReload env err context e
  | .ok replaced => do
      setMemory env fun _ => { replaced with recoveryReloadNeeded := false }
      if applied then pure () else Proc.fail err

/-- Resolves an indeterminate commit by reading the ledger back. -/
def resolveIndeterminate (t : Transition) (err : Fault) : Act env Unit := do
  let c ← memory env
  match ← Proc.attempt (load env (loadReconcileRecovery c.nodeID)) with
  | .error e => flagReload env err "read back indeterminate reconcile commit" e
  | .ok recovery =>
      let applied := reconcileTransitionApplied recovery t
      let context := "replace state after indeterminate reconcile commit"
      match t.observed with
      | none => adoptRecovery env recovery applied err context
      | some update =>
          match ← Proc.attempt (load env (loadObservedFirewallSnapshot c.nodeID)) with
          | .error e => flagReload env err "read back indeterminate Observed commit" e
          | .ok observed =>
              adoptRecovery env recovery (applied && observedUpdateApplied observed update) err
                context

def storeTransition (t : Transition) : Act env Unit :=
  store env (applyReconcileTransition t) (fun before commit => [.wrote t commit before])
    (fun before fault => [.refused t fault before])

def applyTransition (t : Transition) : Act env Unit := do
  match ← Proc.attempt (storeTransition env t) with
  | .ok () => pure ()
  | .error err => if err.is .commitUnknown then resolveIndeterminate env t err else Proc.fail err

def reloadRecoveryIfNeeded : Act env Unit := do
  lock env
  let c ← memory env
  if c.recoveryReloadNeeded then do
    let recovery ← Proc.mapError (.wrap "reload indeterminate reconcile state")
      (load env (loadReconcileRecovery c.nodeID))
    let c ← memory env
    let replaced ← Proc.lift
      (within "replace indeterminate reconcile state" (c.replaceRecovery recovery))
    setMemory env fun _ => { replaced with recoveryReloadNeeded := false }
  else pure ()

def persistApplyingState (ref : AttemptRef) (state : RetryState) (key : PendingProbeKey)
    (previous : Option AttemptRef) : Act env Unit := do
  let persisted ← persistedState env ref state
  let upsert ← persistedProbe env key ref state.attemptCount
  match previous with
  | none => applyTransition env { state := some persisted, upsertProbe := some upsert }
  | some previousRef => do
      let c ← memory env
      match c.state? previousRef with
      | none => Proc.fail (.text "pending Probe retry state is missing")
      | some previousState => do
          let delete ← persistedProbe env key previousRef previousState.attemptCount
          applyTransition env
            { state := some persisted, upsertProbe := some upsert, deleteProbe := some delete }

/-- `persistStateWithObservedLocked` with neither Probe key. -/
def persistState (ref : AttemptRef) (state : RetryState) : Act env Unit := do
  let persisted ← persistedState env ref state
  applyTransition env { state := some persisted }

/-- `persistStateWithObservedLocked` with the key of the requirement to keep. -/
def persistStateKeepingProbe (ref : AttemptRef) (state : RetryState) (key : PendingProbeKey)
    (observed : Option ObservedUpdate) : Act env Unit := do
  let persisted ← persistedState env ref state
  let upsert ← persistedProbe env key ref state.attemptCount
  applyTransition env
    { state := some persisted, upsertProbe := some upsert, observed := observed }

/-- `persistStateWithObservedLocked` with the key of the requirement to remove. -/
def persistStateDroppingProbe (ref : AttemptRef) (state : RetryState) (key : PendingProbeKey)
    (observed : Option ObservedUpdate) : Act env Unit := do
  let persisted ← persistedState env ref state
  let delete ← persistedProbe env key ref state.attemptCount
  applyTransition env
    { state := some persisted, deleteProbe := some delete, observed := observed }

def persistStateAndClearProbe (stateRef : AttemptRef) (state : RetryState)
    (key : PendingProbeKey) (pendingRef : AttemptRef) : Act env Unit := do
  let c ← memory env
  match c.state? pendingRef with
  | none => Proc.fail (.text "pending Probe retry state is missing")
  | some pendingState => do
      let persisted ← persistedState env stateRef state
      let delete ← persistedProbe env key pendingRef pendingState.attemptCount
      applyTransition env { state := some persisted, deleteProbe := some delete }

def clearProbe (key : PendingProbeKey) (pendingRef : AttemptRef) : Act env Unit := do
  let c ← memory env
  match c.state? pendingRef with
  | none => Proc.fail (.text "pending Probe retry state is missing")
  | some pendingState => do
      let delete ← persistedProbe env key pendingRef pendingState.attemptCount
      applyTransition env { deleteProbe := some delete }

end Controller

end GuardWall.Reconcile
