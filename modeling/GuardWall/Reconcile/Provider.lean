import GuardWall.Reconcile.Recovery

/-! `DesiredPlanProvider`: plans rebuilt from durable Desired state, which the provider
publishes to the controller on the way. -/
namespace GuardWall.Reconcile

open GuardWall.Core GuardWall.Foundation GuardWall.Store

/-- `StaticDesiredFirewallState` as `NewDesiredPlanProvider` accepts it. -/
structure StaticDesired where
  infrastructureRevision : Nat
  infrastructure : InfrastructureIntent
  positive : 0 < infrastructureRevision
  complete : infrastructure.incomplete = false

def StaticDesired.snapshot (static : StaticDesired) (hash : Hash String) (state : DesiredState) :
    Except Fault DesiredSnapshot :=
  DesiredSnapshot.prepare hash
    { snapshotRevision := state.snapshotRevision
      infrastructureRevision := static.infrastructureRevision
      policyRevision := state.policyRevision
      infrastructure := static.infrastructure
      policy := state.policy
      targets := state.targets }

def OperationPlan.sealed (digests : Digests) (plan : OperationPlan) : OperationPlan :=
  { plan with digest := plan.planDigest digests }

def planFor (digests : Digests) (desired : DesiredSnapshot) :
    ReconcileKey → Option OperationPlan
  | .infrastructure =>
      some <| OperationPlan.sealed digests
        { key :=
            { domain := .infrastructure
              infrastructureRevision := desired.infrastructureRevision
              snapshotRevision := desired.snapshotRevision
              fenceSnapshotRevision := true }
          desiredInfrastructure := desired.infrastructure }
  | .policy =>
      some <| OperationPlan.sealed digests
        { key := { domain := .policy, policyRevision := desired.policyRevision }
          desiredPolicy := desired.policy }
  | .target t =>
      (desired.target? t).map fun intent =>
        OperationPlan.sealed digests
          { key := { domain := .target, target := t, targetGeneration := intent.generation }
            desiredTarget := some intent }

/-! A small deployment, on which runs can be evaluated: one node, two addresses to ban and a
backend whose answers are written into the script. -/
namespace Sample

def digest : String := "0000000000000000000000000000000000000000000000000000000000000000"

def hash (α : Type) : Hash α := ⟨fun _ => digest, fun _ => by decide⟩

def digests : Digests := ⟨hash _, hash _, hash _, hash _⟩

structure Answer where
  probe : Except Fault Snapshot := .error (.text "unreachable")
  apply : Except Fault ApplyResult := .error (.text "unreachable")

def backend (fresh : Bool) : Backend where
  Answer := Answer
  probe := Answer.probe
  apply := fun answer _ => answer.apply
  mutates := fun _ _ => true
  requiresFreshBasis := fresh

def env (fresh : Bool) : Env := ⟨backend fresh, digests⟩

def nodeID : String := "0123456789abcdef0123456789abcdef"

def target : Prefix := some ⟨.v4 0xC0000201#32, 32, by decide⟩

def intent (target : Prefix) (generation : Nat) (scopes : EnforcementScope) : Intent where
  nodeID := nodeID
  canonicalTarget := target
  banMembership := .present
  effectiveUntil := none
  timeoutMode := .none
  scopes := scopes
  addressFamily := .ipv4
  policyCoverage := .none
  policyRelationDigest := ""
  backendAttributesDigest := digest
  generation := generation

def infrastructure : InfrastructureIntent := ⟨"nft", "v1", "layout"⟩

def policy : PolicyIntent := ⟨"policy", [], []⟩

def desired (snapshotRevision infrastructureRevision policyRevision : Nat)
    (targets : List Intent) : DesiredSnapshot where
  snapshotRevision := snapshotRevision
  infrastructureRevision := infrastructureRevision
  policyRevision := policyRevision
  infrastructure := infrastructure
  policy := policy
  targets := targets

def plan (desired : DesiredSnapshot) (slot : ReconcileKey) : OperationPlan :=
  (planFor digests desired slot).getD { key := { domain := slot.domain } }

def second (seconds : Int) : Instant := ⟨seconds * Core.second, none⟩

def tick (seconds : Int) (answer : Answer := {}) : Tick Answer where
  now := second seconds
  answer := answer

def ticks (count : Nat) (seconds : Int) (answer : Answer := {}) : List (Tick Answer) :=
  List.replicate count (tick seconds answer)

end Sample

end GuardWall.Reconcile
