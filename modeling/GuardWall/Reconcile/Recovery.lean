import GuardWall.Reconcile.Execute

/-! Backend-health recovery, startup recovery and administrator retries. -/
namespace GuardWall.Reconcile

open GuardWall.Core GuardWall.Foundation GuardWall.Store

structure RecoveryOutcome where
  resolved : Nat := 0
  unresolved : List ReconcileKey := []
  backendErr : Option Fault := none
  deriving DecidableEq, Repr

def addOnce (key : ReconcileKey) (keys : List ReconcileKey) : List ReconcileKey :=
  if key ∈ keys then keys else keys ++ [key]

namespace Controller

open Session

variable (env : Env)

/-- The Probe of a recovery. A failed one is reported in the outcome, not as an error. -/
def recoverySnapshot (operation : String) : Act env (Except RecoveryOutcome Snapshot) := do
  match ← probe env with
  | .ok snapshot => return .ok snapshot
  | .error err => do
      match ← Proc.attempt (recordAllUnknownObserved env probeFailureErrorCode) with
      | .error persistErr =>
          Proc.fail (backendOperationFailure operation err (.error persistErr))
      | .ok () =>
          return .error { backendErr := some (backendOperationFailure operation err (.ok ())) }

def recoverPending (snapshot : Snapshot) (outcome : RecoveryOutcome)
    (entry : PendingProbeKey × AttemptRef) : Act env RecoveryOutcome := do
  let (key, ref) := entry
  let c ← memory env
  if !c.pendingKeyMatchesCurrentDesired key then do
    finishStale env ref key
    dropPending env key
    return outcome
  else if !c.snapshotMatchesCurrentDesired snapshot key.slot then
    return { outcome with unresolved := addOnce key.slot outcome.unresolved }
  else do
    finishRecoveredPending env ref key
    dropPending env key
    return { outcome with resolved := outcome.resolved + 1 }

def probeRecovery : Act env RecoveryOutcome := do
  reloadRecoveryIfNeeded env
  match ← recoverySnapshot env "backend recovery probe" with
  | .error outcome => return outcome
  | .ok snapshot => do
      lock env
      let c ← memory env
      if c.desired.isNone then return {}
      else do
        let observed ← observedUpdateForSnapshot env snapshot
        Proc.mapError (.wrap "persist recovery Probe observation") (persistObserved env observed)
        let order ← mapOrder env
        let c ← memory env
        Proc.fold (recoverPending env snapshot) (c.pendingProbes.range order) {}

structure StartupProgress where
  unresolved : List ReconcileKey := []
  resolved : List ReconcileKey := []

/-- One turn of the first loop of `probeStartupRecovery`, over the pending Probes. -/
def recoverStartupPending (snapshot : Snapshot) (progress : StartupProgress)
    (entry : PendingProbeKey × AttemptRef) : Act env StartupProgress := do
  let (key, ref) := entry
  let c ← memory env
  if !c.pendingKeyMatchesCurrentDesired key then do
    finishStale env ref key
    dropPending env key
    return progress
  else if !c.snapshotMatchesCurrentDesired snapshot key.slot then
    return { progress with unresolved := addOnce key.slot progress.unresolved }
  else do
    finishRecoveredPending env ref key
    dropPending env key
    return { progress with resolved := key.slot :: progress.resolved }

def recoverStartupKey (snapshot : Snapshot) (progress : StartupProgress) (key : ReconcileKey) :
    Act env StartupProgress := do
  if key ∈ progress.resolved then return progress
  else do
    let c ← memory env
    if !c.snapshotMatchesCurrentDesired snapshot key then
      return { progress with unresolved := addOnce key progress.unresolved }
    else
      match c.currentRef? key with
      | none => return progress
      | some ref => do
          let state := (c.getState ref).converge
          Proc.mapError (.wrap "persist startup Probe recovery") (persistState env ref state)
          setMemory env fun c => c.putState ref state
          confirmTarget env key ref.version
          return progress

def probeStartupRecovery (keys : List ReconcileKey) : Act env RecoveryOutcome := do
  reloadRecoveryIfNeeded env
  match ← recoverySnapshot env "startup recovery probe" with
  | .error outcome => return outcome
  | .ok snapshot => do
      lock env
      let c ← memory env
      if c.desired.isNone then do
        setMemory env fun c => { c with startupProbeRequired := false }
        return {}
      else do
        let observed ← observedUpdateForSnapshot env snapshot
        Proc.mapError (.wrap "persist startup Probe observation") (persistObserved env observed)
        let order ← mapOrder env
        let c ← memory env
        let progress ←
          Proc.fold (recoverStartupPending env snapshot) (c.pendingProbes.range order) {}
        let progress ← Proc.fold (recoverStartupKey env snapshot) keys progress
        setMemory env fun c => { c with startupProbeRequired := false }
        return { unresolved := progress.unresolved }

def reconcileRetryAudit (state : PersistedState) (previous : Nat) : RetryAudit :=
  let digest := env.digests.retry.hex (state.nodeID, state.ref, previous)
  { id := "audit-reconcile-retry-" ++ digest
    idempotencyKey := "reconcile-retry:" ++ digest
    nodeID := state.nodeID
    actorType := "administrator"
    previousEpoch := previous
    occurredAt := state.updatedAt }

/-- Resolves an indeterminate retry by reading ledger and audit back. -/
def resolveIndeterminateRetry (t : RetryTransition) (err : Fault) : Act env Unit := do
  match ← Proc.attempt (load env (readReconcileRetryTransition t)) with
  | .error e => flagReload env err "read back indeterminate retry commit" e
  | .ok (recovery, applied) =>
      adoptRecovery env recovery applied err "replace state after indeterminate retry commit"

def storeRetry (t : RetryTransition) : Act env Unit := do
  match ← Proc.attempt
      (store env (applyReconcileRetryTransition t)
        (fun before commit => [.retried t commit before])
        (fun before fault => [.declined t fault before])) with
  | .ok () => pure ()
  | .error err =>
      if err.is .commitUnknown then resolveIndeterminateRetry env t err else Proc.fail err

def persistRetry (ref : AttemptRef) (previous : Nat) : Act env Unit := do
  let persisted ← persistedState env ref .fresh
  storeRetry env ⟨persisted, reconcileRetryAudit env persisted previous⟩

def retryContext : ReconcileKey → String
  | .infrastructure => "infrastructure"
  | .policy => "policy"
  | .target _ => "target"

/-- `RetryInfrastructure`, `RetryPolicy` and `RetryTarget`. -/
def retry (slot : ReconcileKey) : Act env AttemptRef := do
  reloadRecoveryIfNeeded env
  lock env
  let c ← memory env
  match c.published? slot with
  | none =>
      Proc.fail (.text (match slot with
        | .target _ => "target has no current desired intent"
        | _ => "desired snapshot is not initialized"))
  | some version => do
      let previous := c.epochs slot
      let next := (previous + 1) % 2 ^ 64
      if next = 0 then Proc.fail (.text (retryContext slot ++ " retry epoch overflow"))
      else do
        let ref : AttemptRef := ⟨slot, version, next⟩
        Proc.mapError (.wrap ("persist " ++ retryContext slot ++ " retry epoch"))
          (persistRetry env ref previous)
        setMemory env fun c =>
          let marked := c.markPendingRefsSuperseded ref
          { marked.putState ref .fresh with epochs := Function.update marked.epochs slot next }
        return ref

def retryInfrastructure : Act env AttemptRef := retry env .infrastructure

def retryPolicy : Act env AttemptRef := retry env .policy

def retryTarget (target : Prefix) : Act env AttemptRef := retry env (.target target)

def seedObservedClock (snapshot : ObservedSnapshot) (c : Controller) : Controller :=
  let times := (snapshot.infrastructure.map InfrastructureObserved.observedAt).toList ++
    (snapshot.policy.map PolicyObserved.observedAt).toList ++
    snapshot.targets.map fun o => o.observedAt
  { c with
    lastObservedAt := times.foldl
      (fun latest t => if t.truncateMicro.after latest then t.truncateMicro else latest)
      c.lastObservedAt }

def observedSnapshotHasState (snapshot : ObservedSnapshot) : Bool :=
  snapshot.infrastructure.isSome || snapshot.policy.isSome || !snapshot.targets.isEmpty

/-- `NewPersistentController`. No other goroutine holds the controller yet, so nothing is
published between the two reads. -/
def newPersistentController (nodeID : String) : Act env Controller := do
  if nodeID = "" then Proc.fail (.text "node id is required")
  else do
    let recovery ← Proc.mapError (.wrap "load reconcile recovery")
      (load env (loadReconcileRecovery nodeID))
    let c ← Proc.lift (within "hydrate reconcile recovery"
      (Controller.hydrateRecovery recovery { nodeID := nodeID }))
    let observed ← Proc.mapError (.wrap "load Observed firewall snapshot")
      (load env (loadObservedFirewallSnapshot nodeID))
    if observed.nodeID ≠ "" ∧ observed.nodeID ≠ nodeID then
      Proc.fail (.text "Observed firewall snapshot belongs to another node")
    else
      return { seedObservedClock observed c with
        startupProbeRequired := !recovery.states.isEmpty || !recovery.probes.isEmpty ||
          observedSnapshotHasState observed }

end Controller

end GuardWall.Reconcile
