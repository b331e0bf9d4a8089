import GuardWall.Reconcile.Attempt

/-! `Controller.Execute`: one plan, validated against current Desired state and applied under
the mutation lock. -/
namespace GuardWall.Reconcile

open GuardWall.Core GuardWall.Foundation GuardWall.Store

structure ExecutionResult where
  apply : Option ApplyResult := none
  recoveredByProbe : Bool := false
  deriving DecidableEq, Repr

def backendOperationFailure (operation : String) (backendErr : Fault) :
    Except Fault Unit → Fault
  | .error persistErr => .join (.wrap operation backendErr) persistErr
  | .ok () => .backendOperation operation backendErr

namespace Controller

open Session

variable (env : Env)

def orDefault (code default : String) : String := if code = "" then default else code

def requiredSnapshot (operation : String) : Act env Snapshot := do
  match ← probe env with
  | .ok snapshot => return snapshot
  | .error err => do
      let persisted ← Proc.attempt (recordAllUnknownObserved env probeFailureErrorCode)
      Proc.fail (backendOperationFailure operation err persisted)

/-- The three ways `Execute` reaches an attempt. The plan comes back bound to the snapshot it
was based on; no attempt means a Probe showed convergence. -/
def prepareAttempt (plan : OperationPlan) : Act env (OperationPlan × Option AttemptRef) := do
  lock env
  let c ← memory env
  if !c.pendingProbes.isEmpty then do
    let snapshot ← requiredSnapshot env "required probe"
    let bound := plan.bind env.digests snapshot
    let attempt ← beginAfterRequiredProbe env bound snapshot
    return (bound, attempt)
  else do
    lock env
    let c ← memory env
    if c.startupProbeRequired then do
      let snapshot ← requiredSnapshot env "startup recovery probe"
      let bound := plan.bind env.digests snapshot
      let attempt ← beginAfterStartupProbe env bound snapshot
      return (bound, attempt)
    else if env.backend.requiresFreshBasis then do
      let snapshot ← requiredSnapshot env "pre-apply probe"
      let bound := plan.bind env.digests snapshot
      let attempt ← beginAttempt env bound
      return (bound, some attempt)
    else do
      let attempt ← beginAttempt env plan
      return (plan, some attempt)

def finishApply (plan : OperationPlan) (attempt : AttemptRef) :
    Except Fault ApplyResult → Act env ExecutionResult
  | .error err => do
      let persisted ← Proc.attempt
        (finishFailureAndRequireProbeObserved env attempt plan.key "backend_error" false)
      Proc.fail (backendOperationFailure "apply plan" err persisted)
  | .ok result =>
      match result.kind with
      | .unknown => do
          finishFailureAndRequireProbeObserved env attempt plan.key
            (orDefault result.errorCode "unknown_result") false
          return { apply := some result }
      | .rejected => do
          let code := orDefault result.errorCode "rejected"
          finishFailure env attempt plan.key code (retryable code)
          return { apply := some result }
      | .confirmed => do
          match ← probe env with
          | .error err => do
              let persisted ← Proc.attempt
                (finishFailureAndRequireProbeObserved env attempt plan.key "confirm_probe_failed"
                  true)
              Proc.fail (backendOperationFailure "confirm probe" err persisted)
          | .ok snapshot => do
              commitConfirmed env attempt plan snapshot
              return { apply := some result }
      | .unsupported code => do
          let fault := Fault.text ("unsupported apply result " ++ toString code)
          match ← Proc.attempt
              (finishFailure env attempt plan.key "invalid_apply_result" false) with
          | .error persistErr => Proc.fail (.join fault persistErr)
          | .ok () => Proc.fail fault

/-- The expiry check that stands between the durable attempt and `backend.Apply`. -/
def runAttempt (plan : OperationPlan) (attempt : AttemptRef) : Act env ExecutionResult := do
  lock env
  match ← Proc.attempt (targetExpirationFence env plan) with
  | .error err => do
      let code := if err.is .stalePlan then "stale_before_apply" else "expired_before_apply"
      finishFailure env attempt plan.key code false
      Proc.fail err
  | .ok () => do
      let result ← apply env plan attempt
      finishApply env plan attempt result

/-- `Controller.Execute`. The result the source returns beside an error is left out: its only
caller reads it when there is no error. -/
def execute (plan : OperationPlan) : Act env ExecutionResult := do
  reloadRecoveryIfNeeded env
  match plan.validate env.digests with
  | .error err => do
      match ← Proc.attempt (markInvalidPlan env plan) with
      | .error persistErr => Proc.fail (.join (.detail .invalidPlan err) persistErr)
      | .ok () => Proc.fail (.detail .invalidPlan err)
  | .ok () => do
      lock env
      targetExpirationFence env plan
      let (bound, attempt) ← prepareAttempt env plan
      match attempt with
      | none => return { recoveredByProbe := true }
      | some ref => runAttempt env bound ref

end Controller

end GuardWall.Reconcile
