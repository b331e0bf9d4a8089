import GuardWall.Reconcile.Persistence

/-! The locked sections of `controller.go` and `observed_state.go`: how an attempt begins,
how it ends, and how the Probe requirements of earlier attempts are resolved. -/
namespace GuardWall.Reconcile

open GuardWall.Core GuardWall.Foundation GuardWall.Store

def probeFailureErrorCode : String := "backend_probe_failed"

namespace Controller

/-- The physical state `observedUpdateForSnapshotLocked` records for one desired target. -/
def observedTarget (c : Controller) (snapshot : Snapshot) (observedAt : Instant)
    (intent : Intent) : TargetObserved :=
  let physical := (snapshot.target? intent.canonicalTarget).getD
    { canonicalTarget := intent.canonicalTarget, banMembership := .absent }
  { physical with
    canonicalTarget := intent.canonicalTarget
    observedAt := observedAt
    confirmedGeneration :=
      if c.snapshotMatchesCurrentDesired snapshot (.target intent.canonicalTarget)
      then intent.generation else 0 }

def observedInfrastructure (c : Controller) (d : DesiredSnapshot) (snapshot : Snapshot)
    (observedAt : Instant) : InfrastructureObserved :=
  match snapshot.infrastructure with
  | none => { presence := .absent, observedAt := observedAt }
  | some seen =>
      { presence := .present, observedAt := observedAt, backend := seen.backend,
        ownerVersion := seen.ownerVersion, digest := seen.digest
        confirmedRevision :=
          if c.snapshotMatchesCurrentDesired snapshot .infrastructure
          then d.infrastructureRevision else 0 }

def observedPolicy (c : Controller) (d : DesiredSnapshot) (snapshot : Snapshot)
    (observedAt : Instant) : PolicyObserved :=
  match snapshot.policy with
  | none => { presence := .absent, observedAt := observedAt }
  | some digest =>
      { presence := .present, observedAt := observedAt, relationDigest := digest
        confirmedRevision :=
          if c.snapshotMatchesCurrentDesired snapshot .policy then d.policyRevision else 0 }

def snapshotUpdate (c : Controller) (d : DesiredSnapshot) (snapshot : Snapshot)
    (observedAt : Instant) : ObservedUpdate where
  nodeID := c.nodeID
  infrastructure := some (c.observedInfrastructure d snapshot observedAt)
  policy := some (c.observedPolicy d snapshot observedAt)
  targets := d.targets.map (c.observedTarget snapshot observedAt)

def unknownInfrastructure (observedAt : Instant) (code : String) : InfrastructureObserved :=
  { presence := .unknown, observedAt := observedAt, lastErrorCode := code }

def unknownPolicy (observedAt : Instant) (code : String) : PolicyObserved :=
  { presence := .unknown, observedAt := observedAt, lastErrorCode := code }

def unknownTarget (observedAt : Instant) (code : String) (target : Prefix) : TargetObserved :=
  { canonicalTarget := target, observedAt := observedAt, banMembership := .unknown,
    lastErrorCode := code }

def unknownUpdate (c : Controller) (slot : ReconcileKey) (observedAt : Instant) (code : String) :
    ObservedUpdate :=
  match slot with
  | .infrastructure =>
      { nodeID := c.nodeID, infrastructure := some (unknownInfrastructure observedAt code) }
  | .policy => { nodeID := c.nodeID, policy := some (unknownPolicy observedAt code) }
  | .target t => { nodeID := c.nodeID, targets := [unknownTarget observedAt code t] }

def allUnknownUpdate (c : Controller) (d : DesiredSnapshot) (observedAt : Instant)
    (code : String) : ObservedUpdate where
  nodeID := c.nodeID
  infrastructure := some (unknownInfrastructure observedAt code)
  policy := some (unknownPolicy observedAt code)
  targets := d.targets.map fun i => unknownTarget observedAt code i.canonicalTarget

def orProbeFailure (code : String) : String := if code = "" then probeFailureErrorCode else code

open Session

variable (env : Env)

def nextObservedAt : Act env Instant := do
  let t ← now env
  let c ← memory env
  let t := t.truncateMicro
  let t := if t.after c.lastObservedAt then t else c.lastObservedAt.add microsecond
  setMemory env fun c => { c with lastObservedAt := t }
  return t

def checkUpdate (context : String) (update : ObservedUpdate) : Act env (Option ObservedUpdate) := do
  Proc.lift (within context update.validate)
  return some update

def observedUpdateForSnapshot (snapshot : Snapshot) : Act env (Option ObservedUpdate) := do
  let c ← memory env
  match c.desired with
  | none => return none
  | some d => do
      let observedAt ← nextObservedAt env
      checkUpdate env "construct Observed firewall update" (c.snapshotUpdate d snapshot observedAt)

def unknownObservedUpdate (slot : ReconcileKey) (code : String) :
    Act env (Option ObservedUpdate) := do
  let c ← memory env
  match c.desired with
  | none => return none
  | some _ => do
      let observedAt ← nextObservedAt env
      let missing := match slot with
        | .target t => (c.desiredTarget? t).isNone
        | _ => false
      if missing then Proc.fail (.text "construct Target Observed failure: target is not Desired")
      else
        checkUpdate env "construct Observed failure update"
          (c.unknownUpdate slot observedAt (orProbeFailure code))

def allUnknownObservedUpdate (code : String) : Act env (Option ObservedUpdate) := do
  let c ← memory env
  match c.desired with
  | none => return none
  | some d => do
      let observedAt ← nextObservedAt env
      checkUpdate env "construct failed Probe Observed update"
        (c.allUnknownUpdate d observedAt (orProbeFailure code))

/-- Resolves an indeterminate observation write by reading the observations back. -/
def resolveIndeterminateObserved (update : ObservedUpdate) (err : Fault) : Act env Unit := do
  let c ← memory env
  match ← Proc.attempt (load env (loadObservedFirewallSnapshot c.nodeID)) with
  | .error e => Proc.fail (.join err (.wrap "read back indeterminate Observed commit" e))
  | .ok observed => if observedUpdateApplied observed update then pure () else Proc.fail err

def persistObserved (update : Option ObservedUpdate) : Act env Unit :=
  match update with
  | none => pure ()
  | some update => do
      match ← Proc.attempt
          (store env (applyObservedFirewallUpdate update)
            (fun before commit => [.observed update commit before]) (fun _ _ => [])) with
      | .ok () => pure ()
      | .error err =>
          if err.is .commitUnknown then resolveIndeterminateObserved env update err
          else Proc.fail err

def recordAllUnknownObserved (code : String) : Act env Unit := do
  lock env
  let update ← allUnknownObservedUpdate env code
  Proc.mapError (.wrap "persist failed Probe observation") (persistObserved env update)

/-- `targetExpirationFenceLocked`; the clock is read only for a Present target that expires. -/
def targetExpirationFence (plan : OperationPlan) : Act env Unit :=
  match plan.key.domain, plan.desiredTarget with
  | .target, some intent =>
      match intent.banMembership, intent.effectiveUntil with
      | .present, some expiry => do
          let t ← now env
          log env (.checked plan t)
          if expiry.after t then pure ()
          else do
            let c ← memory env
            if c.planMatchesCurrentDesired plan then Proc.fail (.sentinel .targetIntentExpired)
            else Proc.fail (.sentinel .stalePlan)
      | _, _ => pure ()
  | _, _ => pure ()

def beginAttemptLocked (plan : OperationPlan) : Act env AttemptRef := do
  targetExpirationFence env plan
  let c ← memory env
  let ref := c.attemptRef plan
  let state := c.getState ref
  let t ← now env
  if state.status = .degraded ∨ maxMutationAttempts ≤ state.attemptCount then
    Proc.fail (.sentinel .budgetExhausted)
  else if state.status = .retryWaiting ∧ state.nextAttemptAt.any (fun next => t.before next) then
    Proc.fail (.sentinel .retryNotReady)
  else do
    let attempt : RetryState :=
      { status := .applying, attemptCount := state.attemptCount + 1, lastAttemptAt := some t }
    let previous := c.pendingProbes.lookup plan.key
    Proc.mapError (.wrap "persist applying attempt")
      (persistApplyingState env ref attempt plan.key previous)
    setMemory env fun c =>
      { c.putState ref attempt with
        pendingProbes := c.pendingProbes.insert plan.key ref
        syntheticRefs := match previous with
          | some superseded => c.syntheticRefs.erase superseded
          | none => c.syntheticRefs }
    return ref

def beginAttempt (plan : OperationPlan) : Act env AttemptRef := do
  lock env
  let c ← memory env
  if c.planMatchesCurrentDesired plan then beginAttemptLocked env plan
  else Proc.fail (.sentinel .stalePlan)

def setPending (key : PendingProbeKey) (ref : AttemptRef) : Act env Unit :=
  setMemory env fun c => { c with pendingProbes := c.pendingProbes.insert key ref }

def dropPending (key : PendingProbeKey) : Act env Unit :=
  setMemory env fun c => { c with pendingProbes := c.pendingProbes.erase key }

/-- Only a target's confirmed generation is kept in memory. -/
def confirmTarget (slot : ReconcileKey) (version : Nat) : Act env Unit :=
  match slot with
  | .target t => do
      let s ← Proc.read
      log env (.confirmed t version s.toMoment)
      setMemory env fun c =>
        { c with confirmedTargets := Function.update c.confirmedTargets t (some version) }
  | _ => pure ()

def failedState (state : RetryState) (code : String) (next : Option Instant) : RetryState :=
  match next with
  | none => { state with status := .degraded, nextAttemptAt := none, lastErrorCode := code }
  | some t => { state with status := .retryWaiting, nextAttemptAt := some t, lastErrorCode := code }

def nextAttempt (state : RetryState) (canRetry : Bool) : Act env (Option Instant) :=
  if !canRetry || maxMutationAttempts ≤ state.attemptCount then pure none
  else do
    let t ← now env
    log env (.failing state t)
    match backoffAfter state.attemptCount with
    | none => Proc.halt
    | some delay => return some (t.add delay)

def finishFailureLocked (ref : AttemptRef) (key : PendingProbeKey) (code : String)
    (canRetry requireProbe : Bool) (observed : Option ObservedUpdate) : Act env Unit := do
  let c ← memory env
  let next ← nextAttempt env (c.getState ref) canRetry
  let state := failedState (c.getState ref) code next
  let write :=
    if requireProbe then persistStateKeepingProbe env ref state key observed
    else persistStateDroppingProbe env ref state key observed
  match ← Proc.attempt write with
  | .error err => do
      setPending env key ref
      Proc.fail (.wrap "persist reconcile failure" err)
  | .ok () => do
      setMemory env fun c => c.putState ref state
      if requireProbe then setPending env key ref else dropPending env key

def finishFailure (ref : AttemptRef) (key : PendingProbeKey) (code : String) (canRetry : Bool) :
    Act env Unit := do
  lock env
  finishFailureLocked env ref key code canRetry false none

def finishFailureAndRequireProbeObserved (ref : AttemptRef) (key : PendingProbeKey)
    (code : String) (allDomains : Bool) : Act env Unit := do
  lock env
  let observed ←
    if allDomains then allUnknownObservedUpdate env code
    else unknownObservedUpdate env key.slot code
  finishFailureLocked env ref key code true true observed

/-- The state `finishStaleLocked` leaves in memory for the attempt it retires. -/
def staleState (c : Controller) (ref : AttemptRef) : RetryState :=
  { c.getState ref with
    status := .pending, nextAttemptAt := none, lastErrorCode := "stale_completion" }

/-- The row `finishStaleLocked` writes: the current one of the failure domain if that is
another, else the retired attempt's own. -/
def staleRow (c : Controller) (ref : AttemptRef) (key : PendingProbeKey) :
    AttemptRef × RetryState :=
  match c.currentStateForPendingKey key with
  | some current => if current.1 ≠ ref then current else (ref, c.staleState ref)
  | none => (ref, c.staleState ref)

def finishStale (ref : AttemptRef) (key : PendingProbeKey) : Act env Unit := do
  let c ← memory env
  let row := c.staleRow ref key
  Proc.mapError (.wrap "persist stale completion") <|
    if (ref ∈ c.syntheticRefs ∧ row.1 = ref) ∨ ¬ sameAttemptPhysicalKey ref row.1 then
      clearProbe env key ref
    else persistStateAndClearProbe env row.1 row.2 key ref
  let state := c.staleState ref
  setMemory env fun c =>
    { c.putState ref state with syntheticRefs := c.syntheticRefs.erase ref }

def finishConverged (ref : AttemptRef) (plan : OperationPlan) (observed : Option ObservedUpdate) :
    Act env Unit := do
  let c ← memory env
  let state := (c.getState ref).converge
  Proc.mapError (.wrap "persist converged state")
    (persistStateDroppingProbe env ref state plan.key observed)
  setMemory env fun c => c.putState ref state
  confirmTarget env plan.slot plan.key.targetGeneration

def finishRecoveredByProbe (plan : OperationPlan) (pendingRef : AttemptRef) : Act env Unit := do
  let c ← memory env
  let ref := c.attemptRef plan
  let state := (c.getState ref).converge
  Proc.mapError (.wrap "persist observation-only convergence")
    (persistStateAndClearProbe env ref state plan.key pendingRef)
  setMemory env fun c =>
    { c.putState ref state with syntheticRefs := c.syntheticRefs.erase pendingRef }
  confirmTarget env plan.slot plan.key.targetGeneration

def finishRecoveredPending (ref : AttemptRef) (key : PendingProbeKey) : Act env Unit := do
  let c ← memory env
  let row := (c.currentStateForPendingKey key).getD (ref, c.getState ref)
  let state := row.2.converge
  Proc.mapError (.wrap "persist Probe recovery")
    (persistStateAndClearProbe env row.1 state key ref)
  setMemory env fun c =>
    { c.putState row.1 state with syntheticRefs := c.syntheticRefs.erase ref }
  confirmTarget env key.slot key.targetGeneration

/-- One turn of the loop of `resolvePendingProbesLocked`. -/
def resolvePendingProbe (snapshot : Snapshot) (plan : OperationPlan) (recovered : Bool)
    (entry : PendingProbeKey × AttemptRef) : Act env Bool := do
  let (key, ref) := entry
  let c ← memory env
  if !c.pendingKeyMatchesCurrentDesired key then do
    finishStale env ref key
    dropPending env key
    return recovered
  else if !c.snapshotMatchesCurrentDesired snapshot key.slot then
    return recovered
  else if key = plan.key then do
    finishRecoveredByProbe env plan ref
    dropPending env key
    return true
  else do
    finishRecoveredPending env ref key
    dropPending env key
    return recovered

def resolvePendingProbes (snapshot : Snapshot) (plan : OperationPlan) : Act env Bool := do
  let order ← mapOrder env
  let c ← memory env
  Proc.fold (resolvePendingProbe env snapshot plan) (c.pendingProbes.range order) false

/-- `beginAfterRequiredProbe`; `none` means the Probe itself showed convergence. -/
def beginAfterRequiredProbe (plan : OperationPlan) (snapshot : Snapshot) :
    Act env (Option AttemptRef) := do
  lock env
  let c ← memory env
  if !c.planMatchesCurrentDesired plan then Proc.fail (.sentinel .stalePlan)
  else do
    targetExpirationFence env plan
    let observed ← observedUpdateForSnapshot env snapshot
    Proc.mapError (.wrap "persist required Probe observation") (persistObserved env observed)
    if ← resolvePendingProbes env snapshot plan then return none
    else do
      let ref ← beginAttemptLocked env plan
      return some ref

/-- `beginAfterStartupProbe`; `none` means the Probe itself showed convergence. -/
def beginAfterStartupProbe (plan : OperationPlan) (snapshot : Snapshot) :
    Act env (Option AttemptRef) := do
  lock env
  let c ← memory env
  if !c.planMatchesCurrentDesired plan then Proc.fail (.sentinel .stalePlan)
  else do
    targetExpirationFence env plan
    let observed ← observedUpdateForSnapshot env snapshot
    Proc.mapError (.wrap "persist startup Probe observation") (persistObserved env observed)
    let c ← memory env
    if !c.snapshotMatchesCurrentDesired snapshot plan.slot then do
      let ref ← beginAttemptLocked env plan
      setMemory env fun c => { c with startupProbeRequired := false }
      return some ref
    else do
      let ref := c.attemptRef plan
      let state := (c.getState ref).converge
      Proc.mapError (.wrap "persist startup Probe recovery") (persistState env ref state)
      setMemory env fun c => { c.putState ref state with startupProbeRequired := false }
      confirmTarget env plan.slot plan.key.targetGeneration
      return none

def reloadSupersededTargetCompletion (plan : OperationPlan) (persistErr : Fault) :
    Act env Bool := do
  match plan.slot with
  | .target t =>
      if persistErr.is .stateRegression then do
        let c ← memory env
        let recovery ← Proc.mapError
          (.wrap "reload Target generation after reconcile regression")
          (load env (loadReconcileRecovery c.nodeID))
        let advanced := recovery.states.any fun s =>
          s.nodeID == c.nodeID && s.ref.slot == .target t &&
          decide (plan.key.targetGeneration < s.ref.version)
        if advanced then do
          let replaced ← Proc.lift
            (within "replace Target generation after reconcile regression"
              (c.replaceRecovery recovery))
          setMemory env fun _ => { replaced with recoveryReloadNeeded := false }
          return true
        else return false
      else return false
  | _ => return false

def commitConfirmed (ref : AttemptRef) (plan : OperationPlan) (snapshot : Snapshot) :
    Act env Unit := do
  lock env
  let observed ← observedUpdateForSnapshot env snapshot
  let c ← memory env
  if !c.planMatchesCurrentDesired plan then do
    match ← Proc.attempt (persistObserved env observed) with
    | .error err => do
        setPending env plan.key ref
        Proc.fail (.wrap "persist stale completion observation" err)
    | .ok () =>
        match ← Proc.attempt (finishStale env ref plan.key) with
        | .error err => do
            setPending env plan.key ref
            Proc.fail err
        | .ok () => Proc.fail (.sentinel .staleCompletion)
  else if !c.snapshotMatchesCurrentDesired snapshot plan.slot then
    finishFailureLocked env ref plan.key "postcondition_mismatch" true false observed
  else
    match ← Proc.attempt (finishConverged env ref plan observed) with
    | .ok () => dropPending env plan.key
    | .error err =>
        match ← Proc.attempt (reloadSupersededTargetCompletion env plan err) with
        | .error reloadErr => do
            setPending env plan.key ref
            Proc.fail (.join err reloadErr)
        | .ok true => Proc.fail (.sentinel .staleCompletion)
        | .ok false => do
            setPending env plan.key ref
            Proc.fail err

def markInvalidPlan (plan : OperationPlan) : Act env Unit := do
  lock env
  let c ← memory env
  match c.desired with
  | none => pure ()
  | some _ => do
      let ref := c.attemptRef plan
      let state : RetryState := { c.getState ref with
        status := .degraded, nextAttemptAt := none, lastErrorCode := "invalid_plan" }
      Proc.mapError (.wrap "persist invalid plan") (persistState env ref state)
      setMemory env fun c => c.putState ref state

end Controller

end GuardWall.Reconcile
