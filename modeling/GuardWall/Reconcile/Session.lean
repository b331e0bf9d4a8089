import GuardWall.Foundation.Proc
import GuardWall.Reconcile.Controller
import GuardWall.Store.Desired

/-! One controller operation runs against the database, the backend and the clock, while
Decision and Policy transactions commit and Desired snapshots are published around it. All
that the surroundings decide comes from a script: each interaction takes the next entry, and
a run whose script ends is a process that died there. -/
namespace GuardWall.Reconcile

open GuardWall.Core GuardWall.Foundation GuardWall.Store

/-- `Backend`, with the answers of the world behind it as data. -/
structure Backend where
  Answer : Type
  probe : Answer → Except Fault Snapshot
  apply : Answer → OperationPlan → Except Fault ApplyResult
  /-- Whether `apply` goes on to a call that can change the firewall. -/
  mutates : Answer → OperationPlan → Bool
  requiresFreshBasis : Bool

structure Env where
  backend : Backend
  digests : Digests

/-- What other parties do between two steps of the operation. -/
inductive External where
  | finalizeTargets (changed : List Intent) (at_ : Instant)
  | replacePolicy (expectedRevision : Nat) (policy : PolicyIntent) (changed : List Intent)
      (at_ : Instant)
  | publish (desired : DesiredSnapshot)
  deriving DecidableEq, Repr

namespace External

def onDatabase (hash : Hash String) : External → Database → Database
  | finalizeTargets changed at_, db =>
      match Store.finalizeTargets changed at_ db with
      | .ok db => db
      | .error _ => db
  | replacePolicy expected policy changed at_, db =>
      match Store.replacePolicy hash expected policy changed at_ db with
      | .ok db => db
      | .error _ => db
  | publish _, db => db

def onController (hash : Hash String) : External → Controller → Controller
  | publish desired, c =>
      match c.setDesiredSnapshot hash desired with
      | .ok c => c
      | .error _ => c
  | _, c => c

end External

/-- How a store call ends: a read succeeds on `commits` only; a write whose COMMIT reported an
error may or may not have become durable. -/
inductive Commit where
  | commits
  | fails
  | unknownCommitted
  | unknownLost
  deriving DecidableEq, Repr

structure Tick (Answer : Type) where
  external : List External := []
  now : Instant
  commit : Commit := .commits
  answer : Answer
  order : List Nat := []

structure Moment where
  db : Database
  controller : Controller

/-- The history of a run. It is written by the steps below and read by none of them. -/
inductive Event where
  | restarted
  | external (action : External) (before : Database)
  /-- An expiration check of a Present target that expires, at a clock reading. -/
  | checked (plan : OperationPlan) (reading : Instant)
  /-- The clock reading from which the backoff of a failed attempt is counted. -/
  | failing (state : RetryState) (reading : Instant)
  | probed (result : Except Fault Snapshot)
  | applied (plan : OperationPlan) (attempt : AttemptRef) (count : Nat) (mutated : Bool)
      (result : Except Fault ApplyResult) (before : Moment)
  | wrote (transition : Transition) (commit : Commit) (before : Moment)
  | refused (transition : Transition) (fault : Fault) (before : Moment)
  | retried (transition : RetryTransition) (commit : Commit) (before : Moment)
  | declined (transition : RetryTransition) (fault : Fault) (before : Moment)
  | observed (update : ObservedUpdate) (commit : Commit) (before : Moment)
  | confirmed (target : Prefix) (generation : Nat) (before : Moment)

/-- All of a run that outlasts the script: durable state, memory and history. -/
structure Scene extends Moment where
  trace : List Event

structure Session (Answer : Type) extends Scene where
  script : List (Tick Answer)

abbrev Act (env : Env) (α : Type) : Type := Proc (Session env.backend.Answer) Fault α

namespace Session

variable (env : Env)

def tick : Act env (Tick env.backend.Answer) := fun s =>
  match s.script with
  | [] => (.crash, s)
  | t :: rest => (.ok t, { s with script := rest })

/-- One action of another party. A publication waits while `stateMu` is held. -/
def act (locked : Bool) (s : Scene) (action : External) : Scene where
  db := action.onDatabase env.digests.policy s.db
  controller :=
    if locked then s.controller else action.onController env.digests.policy s.controller
  trace := .external action s.db :: s.trace

def environment (locked : Bool) (actions : List External) : Act env Unit :=
  Proc.update fun s => { s with toScene := actions.foldl (act env locked) s.toScene }

def log (event : Event) : Act env Unit :=
  Proc.update fun s => { s with trace := event :: s.trace }

def memory : Act env Controller := do
  let s ← Proc.read
  return s.controller

def setMemory (f : Controller → Controller) : Act env Unit :=
  Proc.update fun s => { s with controller := f s.controller }

def now : Act env Instant := do
  let t ← tick env
  return t.now

/-- Taking `stateMu`: publications waiting for it and transactions of other parties go first. -/
def lock : Act env Unit := do
  let t ← tick env
  environment env false t.external

def probe : Act env (Except Fault Snapshot) := do
  let t ← tick env
  environment env false t.external
  log env (.probed (env.backend.probe t.answer))
  return env.backend.probe t.answer

/-- `backend.Apply`, made without `stateMu`. What others do meanwhile comes after it began. -/
def apply (plan : OperationPlan) (attempt : AttemptRef) : Act env (Except Fault ApplyResult) := do
  let t ← tick env
  let s ← Proc.read
  let result := env.backend.apply t.answer plan
  log env (.applied plan attempt (s.controller.getState attempt).attemptCount
    (env.backend.mutates t.answer plan) result s.toMoment)
  environment env false t.external
  return result

def mapOrder : Act env (List Nat) := do
  let t ← tick env
  return t.order

def storeUnavailable : Fault := .text "store is unavailable"

def fetch {α : Type} (locked : Bool) (query : Database → Except Fault α) : Act env α := do
  let t ← tick env
  environment env locked t.external
  let s ← Proc.read
  match t.commit with
  | .commits => Proc.lift (query s.db)
  | _ => Proc.fail storeUnavailable

def load {α : Type} (query : Database → Except Fault α) : Act env α := fetch env true query

def commitUnknown : Fault := .detail .commitUnknown (.text "commit")

def setDatabase (db : Database) : Act env Unit := Proc.update fun s => { s with db := db }

def finishCommit (commit : Commit) (db : Database) : Act env Unit :=
  match commit with
  | .commits => setDatabase env db
  | .fails => Proc.fail storeUnavailable
  | .unknownCommitted => do
      setDatabase env db
      Proc.fail commitUnknown
  | .unknownLost => Proc.fail commitUnknown

def store (write : Database → Except Fault Database)
    (record : Moment → Commit → List Event) (refusal : Moment → Fault → List Event) :
    Act env Unit := do
  let t ← tick env
  environment env true t.external
  let s ← Proc.read
  match write s.db with
  | .error fault => do
      Proc.update fun s => { s with trace := refusal s.toMoment fault ++ s.trace }
      Proc.fail fault
  | .ok db => do
      Proc.update fun s => { s with trace := record s.toMoment t.commit ++ s.trace }
      finishCommit env t.commit db

end Session

end GuardWall.Reconcile
