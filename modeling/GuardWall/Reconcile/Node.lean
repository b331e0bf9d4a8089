import GuardWall.Reconcile.Recovery

/-! A node over time: operations of the controller, transactions and publications of other
parties, and the death and restart of the process at any point. -/
namespace GuardWall.Reconcile

open GuardWall.Core GuardWall.Foundation GuardWall.Store

/-- The durable state, the running process if there is one, and the history so far. -/
structure Node where
  db : Database
  process : Option Controller := none
  trace : List Event := []

inductive Command where
  | execute (plan : OperationPlan)
  | retry (slot : ReconcileKey)
  | probeRecovery
  | probeStartupRecovery (keys : List ReconcileKey)
  | external (action : External)
  | restart
  deriving DecidableEq, Repr

structure Step (Answer : Type) where
  command : Command
  script : List (Tick Answer) := []

namespace Node

variable (env : Env)

def initial (nodeID : String) : Node := { db := { nodeID := nodeID } }

def settle {α : Type} (result : Outcome Fault α × Session env.backend.Answer) : Node :=
  { db := result.2.db
    process :=
      match result.1 with
      | .crash => none
      | _ => some result.2.controller
    trace := result.2.trace }

def operate {α : Type} (node : Node) (operation : Act env α)
    (script : List (Tick env.backend.Answer)) : Node :=
  match node.process with
  | none => node
  | some c => settle env (operation ⟨⟨⟨node.db, c⟩, node.trace⟩, script⟩)

/-- A process that does not come up leaves the node without one. -/
def restart (node : Node) (script : List (Tick env.backend.Answer)) : Node :=
  let blank : Controller := { nodeID := node.db.nodeID }
  match Controller.newPersistentController env node.db.nodeID
      ⟨⟨⟨node.db, blank⟩, .restarted :: node.trace⟩, script⟩ with
  | (.ok c, s) => { db := s.db, process := some c, trace := s.trace }
  | (_, s) => { db := s.db, process := none, trace := s.trace }

def external (node : Node) (action : External) : Node :=
  { db := action.onDatabase env.digests.policy node.db
    process := node.process.map (action.onController env.digests.policy)
    trace := .external action node.db :: node.trace }

def perform (node : Node) (step : Step env.backend.Answer) : Node :=
  match step.command with
  | .execute plan => operate env node (Controller.execute env plan) step.script
  | .retry slot => operate env node (Controller.retry env slot) step.script
  | .probeRecovery => operate env node (Controller.probeRecovery env) step.script
  | .probeStartupRecovery keys =>
      operate env node (Controller.probeStartupRecovery env keys) step.script
  | .external action => external env node action
  | .restart => restart env node step.script

def run (node : Node) (steps : List (Step env.backend.Answer)) : Node :=
  steps.foldl (perform env) node

end Node

end GuardWall.Reconcile
