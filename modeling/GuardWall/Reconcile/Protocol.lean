import GuardWall.Reconcile.Hydration
import GuardWall.Reconcile.Node
import Mathlib.Logic.Relation

/-! The protocol the controller follows, without its control flow: which durable change may be
asked for where an operation stands, what memory holds once it is known to have landed, and how
a change whose COMMIT gave no answer is resolved. -/
namespace GuardWall.Reconcile

open GuardWall.Core GuardWall.Foundation GuardWall.Store

section Others

def Republished (c c' : Controller) : Prop :=
  c' = { c with
    desired := c'.desired, epochs := c'.epochs, confirmedTargets := c'.confirmedTargets }

namespace Republished

theorem refl (c : Controller) : Republished c c := rfl

theorem trans {a b c : Controller} (first : Republished a b) (second : Republished b c) :
    Republished a c := by
  unfold Republished at *
  rw [second, first]

variable {c c' : Controller} (h : Republished c c')

include h

theorem states : c'.states = c.states := by rw [h]

theorem pendingProbes : c'.pendingProbes = c.pendingProbes := by rw [h]

theorem syntheticRefs : c'.syntheticRefs = c.syntheticRefs := by rw [h]

theorem nodeID : c'.nodeID = c.nodeID := by rw [h]

theorem startupProbeRequired : c'.startupProbeRequired = c.startupProbeRequired := by rw [h]

theorem recoveryReloadNeeded : c'.recoveryReloadNeeded = c.recoveryReloadNeeded := by rw [h]

end Republished

theorem republished_onController (hash : Hash String) (action : External) (c : Controller) :
    Republished c (action.onController hash c) := by
  cases action with
  | publish desired =>
    simp only [External.onController]
    split
    · rename_i c' h
      unfold Controller.setDesiredSnapshot at h
      simp only [bind_eq_ok] at h
      obtain ⟨prepared, _, _, _, h⟩ := h
      cases h
      rfl
    · exact Republished.refl c
  | finalizeTargets | replacePolicy => exact Republished.refl c

theorem resets_onDatabase (hash : Hash String) (action : External) (db : Database) :
    Resets db (action.onDatabase hash db) := by
  cases action with
  | publish desired => exact Resets.refl db
  | finalizeTargets changed at_ =>
    simp only [External.onDatabase]
    split
    · rename_i h
      exact finalizeTargets_resets h
    · exact Resets.refl db
  | replacePolicy expected policy changed at_ =>
    simp only [External.onDatabase]
    split
    · rename_i h
      exact replacePolicy_resets h
    · exact Resets.refl db

theorem republished_act {env : Env} {locked : Bool} {s : Scene} {action : External} :
    Republished s.controller (Session.act env locked s action).controller := by
  unfold Session.act
  split
  · exact Republished.refl _
  · exact republished_onController _ _ _

end Others

/-- The snapshot of the newest successful Probe since the last Apply. -/
def lastProbe : List Event → Option Snapshot
  | [] => none
  | .probed (.ok snapshot) :: _ => some snapshot
  | .applied .. :: _ => none
  | _ :: rest => lastProbe rest

def refusal : Except Fault ApplyResult → Bool
  | .error _ => false
  | .ok result =>
      match result.kind with
      | .rejected | .unsupported _ => true
      | .confirmed | .unknown => false

def answered : List Event → Bool
  | [] => true
  | .probed (.ok _) :: _ => true
  | .applied _ _ _ _ result _ :: _ => refusal result
  | _ :: rest => answered rest

variable {trace trace' : List Event} {c c' : Controller} {env : Env} {plans : Command → Prop}

theorem answered_of_lastProbe {snapshot : Snapshot} (h : lastProbe trace = some snapshot) :
    answered trace = true := by
  induction trace with
  | nil => rfl
  | cons event rest ih =>
    cases event with
    | probed result =>
      cases result with
      | ok _ => rfl
      | error _ => exact ih h
    | applied => cases h
    | _ => exact ih h

inductive Stage where
  | dead
  | idle
  /-- Under `stateMu`, with every pending Probe accounted for: only those of `left` remain. -/
  | resolving (left : PendingProbeKey → Prop)
  /-- The attempt is durable, Apply has not been called. -/
  | begun (plan : OperationPlan) (ref : AttemptRef)
  | applied (plan : OperationPlan) (ref : AttemptRef)
  /-- The end of the attempt could not be persisted. -/
  | ending (plan : OperationPlan) (ref : AttemptRef)

namespace Stage

def free : Stage → Prop
  | idle | begun _ _ | applied _ _ => True
  | dead | resolving _ | ending _ _ => False

def ended : Stage → Stage
  | begun plan ref | applied plan ref | ending plan ref => ending plan ref
  | dead => dead
  | idle | resolving _ => idle

end Stage

inductive Change where
  | ledger (t : Transition)
  | retry (t : RetryTransition)

namespace Change

def state? : Change → Option PersistedState
  | ledger t => t.state
  | retry t => some t.state

def apply : Change → Database → Except Fault Database
  | ledger t => applyReconcileTransition t
  | retry t => applyReconcileRetryTransition t

def wrote : Change → Commit → Moment → Event
  | ledger t => .wrote t
  | retry t => .retried t

def refused : Change → Fault → Moment → Event
  | ledger t => .refused t
  | retry t => .declined t

/-- What the controller reads after a COMMIT without an answer: the ledger, and whether it
shows the change. -/
def readback (nodeID : String) : Change → Database → Except Fault (Recovery × Bool)
  | ledger t, db =>
      (loadReconcileRecovery nodeID db).map fun r => (r, reconcileTransitionApplied r t)
  | retry t, db => readReconcileRetryTransition t db

end Change

/-- A change together with what memory becomes, and where the operation stands, once it has
landed. `ref` and `state` are the entry of the state maps it sets. -/
structure Write where
  change : Change
  ref : AttemptRef
  state : RetryState
  success : Controller → Controller
  stage : Stage

inductive Phase where
  | settled (stage : Stage)
  /-- The COMMIT of `write` gave no answer and the readback is still to come. -/
  | adrift (stage : Stage) (write : Write)

def Phase.admits (locked : Bool) : Phase → Prop
  | settled stage => locked = true ∨ stage.free
  | adrift _ _ => locked = true

theorem Phase.admits_locked (phase : Phase) : phase.admits true := by
  cases phase with
  | settled stage => exact .inl rfl
  | adrift stage write => rfl

namespace Controller

def record (c : Controller) (ref : AttemptRef) (state : RetryState) (updatedAt : Instant) :
    PersistedState := ⟨c.nodeID, ref, state, updatedAt⟩

def requirement (c : Controller) (key : PendingProbeKey) (ref : AttemptRef) (attempt : Nat)
    (recordedAt : Instant) : ProbeRequirement := ⟨c.nodeID, key, ref.epoch, attempt, recordedAt⟩

def clearsOnly (c : Controller) (ref stateRef : AttemptRef) : Bool :=
  decide ((ref ∈ c.syntheticRefs ∧ stateRef = ref) ∨ ¬ sameAttemptPhysicalKey ref stateRef)

end Controller

namespace Write

variable (c : Controller)

def begin (plan : OperationPlan) (started updated recorded removed : Instant) : Write :=
  let ref := c.attemptRef plan
  let attempt : RetryState :=
    { status := .applying, attemptCount := (c.getState ref).attemptCount + 1,
      lastAttemptAt := some started }
  let previous := c.pendingProbes.lookup plan.key
  { change := .ledger
      { state := some (c.record ref attempt updated)
        upsertProbe := some (c.requirement plan.key ref attempt.attemptCount recorded)
        deleteProbe := previous.map fun old =>
          c.requirement plan.key old (c.getState old).attemptCount removed }
    ref := ref
    state := attempt
    success := fun m =>
      { m.putState ref attempt with
        pendingProbes := m.pendingProbes.insert plan.key ref
        syntheticRefs := match previous with
          | some superseded => m.syntheticRefs.erase superseded
          | none => m.syntheticRefs }
    stage := .begun plan ref }

/-- The end of an attempt that failed; its requirement is kept if the outcome is ambiguous. -/
def fail (plan : OperationPlan) (ref : AttemptRef) (code : String) (next : Option Instant)
    (keep : Bool) (observed : Option ObservedUpdate) (updated recorded : Instant) : Write :=
  let state := Controller.failedState (c.getState ref) code next
  let probe := c.requirement plan.key ref state.attemptCount recorded
  { change := .ledger
      { state := some (c.record ref state updated)
        upsertProbe := if keep then some probe else none
        deleteProbe := if keep then none else some probe
        observed := observed }
    ref := ref
    state := state
    success := fun m =>
      { m.putState ref state with
        pendingProbes :=
          if keep then m.pendingProbes.insert plan.key ref else m.pendingProbes.erase plan.key }
    stage := .idle }

def retire (ref : AttemptRef) (key : PendingProbeKey) (drop : Bool) (stage : Stage)
    (updated removed : Instant) : Write :=
  let row := c.staleRow ref key
  { change := .ledger
      { state := if c.clearsOnly ref row.1 then none else some (c.record row.1 row.2 updated)
        deleteProbe := some (c.requirement key ref (c.getState ref).attemptCount removed) }
    ref := ref
    state := c.staleState ref
    success := fun m =>
      { m.putState ref (c.staleState ref) with
        syntheticRefs := m.syntheticRefs.erase ref
        pendingProbes := if drop then m.pendingProbes.erase key else m.pendingProbes }
    stage := stage }

def converge (plan : OperationPlan) (ref : AttemptRef) (observed : Option ObservedUpdate)
    (updated removed : Instant) : Write :=
  let state := (c.getState ref).converge
  { change := .ledger
      { state := some (c.record ref state updated)
        deleteProbe := some (c.requirement plan.key ref state.attemptCount removed)
        observed := observed }
    ref := ref
    state := state
    success := fun m =>
      { m.putState ref state with pendingProbes := m.pendingProbes.erase plan.key }
    stage := .idle }

/-- A later Probe bears out an attempt whose outcome was unknown; `row` is the ledger row that
converges. -/
def recover (row : AttemptRef × RetryState) (key : PendingProbeKey) (pendingRef : AttemptRef)
    (stage : Stage) (updated removed : Instant) : Write :=
  let state := row.2.converge
  { change := .ledger
      { state := some (c.record row.1 state updated)
        deleteProbe := some
          (c.requirement key pendingRef (c.getState pendingRef).attemptCount removed) }
    ref := row.1
    state := state
    success := fun m =>
      { m.putState row.1 state with
        syntheticRefs := m.syntheticRefs.erase pendingRef
        pendingProbes := m.pendingProbes.erase key }
    stage := stage }

def plain (ref : AttemptRef) (state : RetryState) (stage : Stage) (updated : Instant) : Write :=
  { change := .ledger { state := some (c.record ref state updated) }
    ref := ref
    state := state
    success := fun m => m.putState ref state
    stage := stage }

def retry (env : Env) (ref : AttemptRef) (previous : Nat) (updated : Instant) : Write :=
  let persisted := c.record ref .fresh updated
  { change := .retry ⟨persisted, Controller.reconcileRetryAudit env persisted previous⟩
    ref := ref
    state := .fresh
    success := fun m =>
      let marked := m.markPendingRefsSuperseded ref
      { marked.putState ref .fresh with
        epochs := Function.update marked.epochs ref.slot ref.epoch }
    stage := .idle }

end Write

/-- The newest Probe shows the current Desired state of a failure domain. -/
def Seen (c : Controller) (trace : List Event) (slot : ReconcileKey) : Prop :=
  ∃ snapshot, lastProbe trace = some snapshot ∧
    c.snapshotMatchesCurrentDesired snapshot slot = true

def Borne (c : Controller) (trace : List Event) (slot : ReconcileKey) (version : Nat) : Prop :=
  c.published? slot = some version ∧ Seen c trace slot

structure Attested (c : Controller) (trace : List Event) (update : ObservedUpdate) : Prop where
  infrastructure : ∀ o, update.infrastructure = some o → o.confirmedRevision ≠ 0 →
    Borne c trace .infrastructure o.confirmedRevision
  policy : ∀ o, update.policy = some o → o.confirmedRevision ≠ 0 →
    Borne c trace .policy o.confirmedRevision
  targets : ∀ o ∈ update.targets, o.confirmedGeneration ≠ 0 →
    Borne c trace (.target o.canonicalTarget) o.confirmedGeneration

/-- The newest event is an expiry check the plan has passed, if it is of a ban that expires. -/
def Unexpired (plan : OperationPlan) (trace : List Event) : Prop :=
  ∀ intent expiry, plan.key.domain = .target → plan.desiredTarget = some intent →
    intent.banMembership = .present → intent.effectiveUntil = some expiry →
    ∃ reading older, trace = .checked plan reading :: older ∧ expiry.after reading = true

def Based (env : Env) (c : Controller) (trace : List Event) (plan : OperationPlan) : Prop :=
  (∃ snapshot, lastProbe trace = some snapshot ∧
    plan.basisSnapshotDigest = snapshot.digest env.digests.snapshot) ∨
  c.pendingProbes.isEmpty = true ∧ c.startupProbeRequired = false ∧
    env.backend.requiresFreshBasis = false

def Asked (env : Env) (plans : Command → Prop) (plan : OperationPlan) : Prop :=
  ∃ base, plans (.execute base) ∧ (plan = base ∨ ∃ snapshot, plan = base.bind env.digests snapshot)

def Counted (trace : List Event) (state : RetryState) (next : Option Instant) : Prop :=
  ∀ at_, next = some at_ → ∃ reading delay, Event.failing state reading ∈ trace ∧
    state.attemptCount < maxMutationAttempts ∧ backoffAfter state.attemptCount = some delay ∧
    at_ = reading.add delay

/-- Which write may be asked for where an operation stands. -/
inductive Permitted (env : Env) (plans : Command → Prop) (c : Controller)
    (trace : List Event) : Stage → Write → Prop
  | begin {left : PendingProbeKey → Prop} {plan : OperationPlan}
      {started updated recorded removed : Instant}
      (asked : Asked env plans plan)
      (resolved : ∀ key, left key → c.pendingKeyMatchesCurrentDesired key = true)
      (current : c.planMatchesCurrentDesired plan = true)
      (eligible : (c.getState (c.attemptRef plan)).status ≠ .degraded)
      (budget : (c.getState (c.attemptRef plan)).attemptCount < maxMutationAttempts)
      (ready : (c.getState (c.attemptRef plan)).status = .retryWaiting →
        ∀ next, (c.getState (c.attemptRef plan)).nextAttemptAt = some next →
          started.before next = false)
      (based : Based env c trace plan)
      (known : ∀ old, c.pendingProbes.lookup plan.key = some old → (c.state? old).isSome) :
      Permitted env plans c trace (.resolving left) (.begin c plan started updated recorded removed)
  | failBegun {plan : OperationPlan} {ref : AttemptRef} {code : String}
      {updated recorded : Instant} :
      Permitted env plans c trace (.begun plan ref)
        (.fail c plan ref code none false none updated recorded)
  | failApplied {plan : OperationPlan} {ref : AttemptRef} {code : String} {next : Option Instant}
      {keep : Bool} {observed : Option ObservedUpdate} {updated recorded : Instant}
      (counted : Counted trace (c.getState ref) next)
      (settled : keep = false → answered trace = true)
      (attested : ∀ update, observed = some update → Attested c trace update) :
      Permitted env plans c trace (.applied plan ref)
        (.fail c plan ref code next keep observed updated recorded)
  | retireApplied {plan : OperationPlan} {ref : AttemptRef} {updated removed : Instant}
      (stale : c.planMatchesCurrentDesired plan = false) (known : (c.state? ref).isSome) :
      Permitted env plans c trace (.applied plan ref)
        (.retire c ref plan.key false .idle updated removed)
  | retirePending {left : PendingProbeKey → Prop} {key : PendingProbeKey} {ref : AttemptRef}
      {updated removed : Instant} (probed : (lastProbe trace).isSome)
      (stale : c.pendingKeyMatchesCurrentDesired key = false) (known : (c.state? ref).isSome)
      (names : key.names ref) :
      Permitted env plans c trace (.resolving left)
        (.retire c ref key true (.resolving fun other => left other ∧ other ≠ key) updated removed)
  | converge {plan : OperationPlan} {ref : AttemptRef} {observed : Option ObservedUpdate}
      {updated removed : Instant} (current : c.planMatchesCurrentDesired plan = true)
      (seen : Seen c trace plan.slot)
      (attested : ∀ update, observed = some update → Attested c trace update) :
      Permitted env plans c trace (.applied plan ref)
        (.converge c plan ref observed updated removed)
  | recover {left : PendingProbeKey → Prop} {row : AttemptRef × RetryState}
      {key : PendingProbeKey} {pendingRef : AttemptRef} {updated removed : Instant}
      (current : c.pendingKeyMatchesCurrentDesired key = true)
      (seen : Seen c trace key.slot) (known : (c.state? pendingRef).isSome)
      (names : key.names pendingRef)
      (carrier : row.1 = pendingRef ∧ row.2 = c.getState pendingRef ∨
        c.currentRef? key.slot = some row.1 ∧ row.2 = c.getState row.1) :
      Permitted env plans c trace (.resolving left)
        (.recover c row key pendingRef (.resolving fun other => left other ∧ other ≠ key)
          updated removed)
  | startup {left : PendingProbeKey → Prop} {slot : ReconcileKey} {ref : AttemptRef}
      {updated : Instant} (resolved : ∀ key, left key → key.slot ≠ slot)
      (current : c.currentRef? slot = some ref) (seen : Seen c trace slot) :
      Permitted env plans c trace (.resolving left)
        (.plain c ref (c.getState ref).converge (.resolving left) updated)
  | invalid {plan : OperationPlan} {updated : Instant} (asked : plans (.execute plan))
      (refused : plan.validate env.digests ≠ .ok ()) :
      Permitted env plans c trace .idle
        (.plain c (c.attemptRef plan)
          { c.getState (c.attemptRef plan) with
            status := .degraded, nextAttemptAt := none, lastErrorCode := "invalid_plan" }
          .idle updated)
  | retry {slot : ReconcileKey} {version : Nat} {updated : Instant} (asked : plans (.retry slot))
      (published : c.published? slot = some version)
      (range : (c.epochs slot + 1) % 2 ^ 64 ≠ 0) :
      Permitted env plans c trace .idle
        (.retry c env ⟨slot, version, (c.epochs slot + 1) % 2 ^ 64⟩ (c.epochs slot) updated)

variable {slot : ReconcileKey} {p q : Phase} {s t : Scene}

theorem Seen.later (h : Seen c trace slot) (desired : c'.desired = c.desired)
    (probe : lastProbe trace' = lastProbe trace) : Seen c' trace' slot := by
  obtain ⟨snapshot, newest, shows⟩ := h
  refine ⟨snapshot, probe.trans newest, ?_⟩
  rw [Controller.snapshotMatches_congr desired]
  exact shows

theorem Borne.later {version : Nat} (h : Borne c trace slot version)
    (desired : c'.desired = c.desired) (probe : lastProbe trace' = lastProbe trace) :
    Borne c' trace' slot version :=
  ⟨(Controller.published?_congr desired slot).trans h.1, h.2.later desired probe⟩

theorem Attested.later {update : ObservedUpdate} (h : Attested c trace update)
    (desired : c'.desired = c.desired) (probe : lastProbe trace' = lastProbe trace) :
    Attested c' trace' update :=
  ⟨fun o found set => (h.infrastructure o found set).later desired probe,
    fun o found set => (h.policy o found set).later desired probe,
    fun o member set => (h.targets o member set).later desired probe⟩

theorem Permitted.later {σ : Stage} {w : Write} (h : Permitted env plans c trace σ w)
    (probe : lastProbe trace' = lastProbe trace) (answer : answered trace' = answered trace)
    (recorded : ∀ event ∈ trace, event ∈ trace') : Permitted env plans c trace' σ w := by
  have seen : ∀ {slot}, Seen c trace slot → Seen c trace' slot := fun h => h.later rfl probe
  cases h with
  | begin asked resolved current eligible budget ready based known =>
    refine .begin asked resolved current eligible budget ready ?_ known
    obtain ⟨snapshot, newest, bound⟩ | unneeded := based
    · exact .inl ⟨snapshot, probe.trans newest, bound⟩
    · exact .inr unneeded
  | failBegun => exact .failBegun
  | failApplied counted settled attested =>
    refine .failApplied ?_ (fun dropped => answer.trans (settled dropped))
      fun update same => (attested update same).later rfl probe
    intro at_ same
    obtain ⟨reading, delay, member, rest⟩ := counted at_ same
    exact ⟨reading, delay, recorded _ member, rest⟩
  | retireApplied stale known => exact .retireApplied stale known
  | retirePending probed stale known names =>
    exact .retirePending (probe ▸ probed) stale known names
  | converge current shows attested =>
    exact .converge current (seen shows) fun update same => (attested update same).later rfl probe
  | recover current shows known names carrier =>
    exact .recover current (seen shows) known names carrier
  | startup resolved current shows => exact .startup resolved current (seen shows)
  | invalid asked refused => exact .invalid asked refused
  | retry asked published range => exact .retry asked published range

/-- Memory changes that no durable change and no retry decision depends on. -/
structure Neutral (c c' : Controller) : Prop where
  shape : c' = { c with
    startupProbeRequired := c'.startupProbeRequired
    lastObservedAt := c'.lastObservedAt }
  startup : c.startupProbeRequired = true → c'.startupProbeRequired = true

def Event.quiet : Event → Prop
  | .checked _ _ | .failing _ _ => True
  | _ => False

def Scene.logging (s : Scene) (event : Event) : Scene := { s with trace := event :: s.trace }

def Commit.durable : Commit → Prop
  | .commits | .unknownCommitted => True
  | .fails | .unknownLost => False

/-- One step of the protocol. `plans` are the commands that were given. -/
inductive Move (env : Env) (plans : Command → Prop) : Phase → Scene → Phase → Scene → Prop
  | external {phase : Phase} {s : Scene} {locked : Bool} (action : External)
      (may : phase.admits locked) :
      Move env plans phase s phase (Session.act env locked s action)
  | note {σ : Stage} {s : Scene} {event : Event} (quiet : event.quiet) :
      Move env plans (.settled σ) s (.settled σ) (s.logging event)
  | probe {σ : Stage} {s : Scene} (result : Except Fault Snapshot) (may : σ.free) :
      Move env plans (.settled σ) s (.settled σ) (s.logging (.probed result))
  | apply {plan : OperationPlan} {ref : AttemptRef} {s : Scene} (mutated : Bool)
      (result : Except Fault ApplyResult) (unexpired : Unexpired plan s.trace) :
      Move env plans (.settled (.begun plan ref)) s (.settled (.applied plan ref))
        (s.logging (.applied plan ref (s.controller.getState ref).attemptCount mutated result
          s.toMoment))
  | observe {σ : Stage} {s : Scene} {update : ObservedUpdate} {commit : Commit} {db : Database}
      (attested : Attested s.controller s.trace update) (same : SameLedger s.db db) :
      Move env plans (.settled σ) s (.settled σ)
        { s with db := db, trace := .observed update commit s.toMoment :: s.trace }
  | confirm {σ : Stage} {s : Scene} {target : Prefix} {generation : Nat} {before : Moment}
      (borne : Borne s.controller s.trace (.target target) generation)
      (same : before.controller.desired = s.controller.desired) (durable : before.db = s.db) :
      Move env plans (.settled σ) s (.settled σ)
        ⟨⟨s.db, { s.controller with
          confirmedTargets := Function.update s.controller.confirmedTargets target
            (some generation) }⟩, .confirmed target generation before :: s.trace⟩
  | remember {σ : Stage} {s : Scene} {c : Controller} (neutral : Neutral s.controller c) :
      Move env plans (.settled σ) s (.settled σ) { s with controller := c }
  | pend {plan : OperationPlan} {ref : AttemptRef} {s : Scene} :
      Move env plans (.settled (.ending plan ref)) s (.settled (.ending plan ref))
        { s with controller := { s.controller with
          pendingProbes := s.controller.pendingProbes.insert plan.key ref } }
  | started {σ : Stage} {s : Scene} (probed : (lastProbe s.trace).isSome) :
      Move env plans (.settled σ) s (.settled σ)
        { s with controller := { s.controller with startupProbeRequired := false } }
  | enter {left : PendingProbeKey → Prop} {s : Scene}
      (pending : ∀ key ref, s.controller.pendingProbes.lookup key = some ref → left key) :
      Move env plans (.settled .idle) s (.settled (.resolving left)) s
  | widen {left left' : PendingProbeKey → Prop} {s : Scene} (le : ∀ key, left key → left' key) :
      Move env plans (.settled (.resolving left)) s (.settled (.resolving left')) s
  | leave {σ : Stage} {s : Scene} (live : σ ≠ .dead) :
      Move env plans (.settled σ) s (.settled .idle) s
  | quit {σ : Stage} {s : Scene} : Move env plans (.settled σ) s (.settled σ.ended) s
  | commit {σ : Stage} {s : Scene} {w : Write} {db : Database}
      (loaded : s.controller.recoveryReloadNeeded = false)
      (permitted : Permitted env plans s.controller s.trace σ w)
      (accepted : w.change.apply s.db = .ok db) :
      Move env plans (.settled σ) s (.settled w.stage)
        ⟨⟨db, w.success s.controller⟩, w.change.wrote .commits s.toMoment :: s.trace⟩
  | refuse {σ : Stage} {s : Scene} {w : Write} {fault : Fault}
      (loaded : s.controller.recoveryReloadNeeded = false)
      (permitted : Permitted env plans s.controller s.trace σ w)
      (refused : w.change.apply s.db = .error fault) :
      Move env plans (.settled σ) s (.settled σ.ended)
        (s.logging (w.change.refused fault s.toMoment))
  | fail {σ : Stage} {s : Scene} {w : Write} {db : Database}
      (loaded : s.controller.recoveryReloadNeeded = false)
      (permitted : Permitted env plans s.controller s.trace σ w)
      (accepted : w.change.apply s.db = .ok db) :
      Move env plans (.settled σ) s (.settled σ.ended)
        (s.logging (w.change.wrote .fails s.toMoment))
  | lose {σ : Stage} {s : Scene} {w : Write} {db : Database}
      (loaded : s.controller.recoveryReloadNeeded = false)
      (permitted : Permitted env plans s.controller s.trace σ w)
      (accepted : w.change.apply s.db = .ok db) :
      Move env plans (.settled σ) s (.adrift σ w)
        (s.logging (w.change.wrote .unknownLost s.toMoment))
  | land {σ : Stage} {s : Scene} {w : Write} {db : Database}
      (loaded : s.controller.recoveryReloadNeeded = false)
      (permitted : Permitted env plans s.controller s.trace σ w)
      (accepted : w.change.apply s.db = .ok db) :
      Move env plans (.settled σ) s (.adrift σ w)
        { s with db := db, trace := w.change.wrote .unknownCommitted s.toMoment :: s.trace }
  | flag {σ : Stage} {w : Write} {s : Scene} :
      Move env plans (.adrift σ w) s (.settled σ.ended)
        { s with controller := { s.controller with recoveryReloadNeeded := true } }
  | adopt {σ : Stage} {w : Write} {s : Scene} {r : Recovery} {c : Controller}
      (read : w.change.readback s.controller.nodeID s.db = .ok (r, true))
      (replaced : s.controller.replaceRecovery r = .ok c) :
      Move env plans (.adrift σ w) s (.settled w.stage)
        { s with controller := w.success { c with recoveryReloadNeeded := false } }
  | abandon {σ : Stage} {w : Write} {s : Scene} {r : Recovery} {c : Controller} {applied : Bool}
      (read : w.change.readback s.controller.nodeID s.db = .ok (r, applied))
      (replaced : s.controller.replaceRecovery r = .ok c) :
      Move env plans (.adrift σ w) s (.settled σ.ended)
        { s with controller := { c with recoveryReloadNeeded := false } }
  | reload {σ : Stage} {s : Scene} {r : Recovery} {c : Controller}
      (may : σ = .idle ∨ ∃ plan ref, σ = .ending plan ref)
      (read : loadReconcileRecovery s.controller.nodeID s.db = .ok r)
      (replaced : s.controller.replaceRecovery r = .ok c) :
      Move env plans (.settled σ) s (.settled .idle)
        { s with controller := { c with recoveryReloadNeeded := false } }
  | die {phase : Phase} {s : Scene} :
      Move env plans phase s (.settled .dead)
        { s with controller := { nodeID := s.db.nodeID } }
  | boot {s : Scene} :
      Move env plans (.settled .dead) s (.settled .dead) (s.logging .restarted)
  | restart {s : Scene} {r : Recovery} {c : Controller}
      (read : loadReconcileRecovery s.db.nodeID s.db = .ok r)
      (hydrated : Controller.hydrateRecovery r { nodeID := s.db.nodeID } = .ok c) :
      Move env plans (.settled .dead) s (.settled .idle)
        { s with controller := { c with
          startupProbeRequired := !r.states.isEmpty || !r.probes.isEmpty } }

@[simp] theorem lastProbe_wrote (change : Change) (commit : Commit) (before : Moment)
    (trace : List Event) : lastProbe (change.wrote commit before :: trace) = lastProbe trace := by
  cases change <;> rfl

@[simp] theorem answered_wrote (change : Change) (commit : Commit) (before : Moment)
    (trace : List Event) : answered (change.wrote commit before :: trace) = answered trace := by
  cases change <;> rfl

abbrev Path (env : Env) (plans : Command → Prop) : Phase × Scene → Phase × Scene → Prop :=
  Relation.ReflTransGen fun p q => Move env plans p.1 p.2 q.1 q.2

theorem Path.move {origin : Phase × Scene} (path : Path env plans origin (p, s))
    (step : Move env plans p s q t) :
    Path env plans origin (q, t) :=
  Relation.ReflTransGen.tail path step

def Drifting (env : Env) (plans : Command → Prop) : Phase → Scene → Prop
  | .settled _, _ => True
  | .adrift σ w, s => Permitted env plans s.controller s.trace σ w ∧
      s.controller.recoveryReloadNeeded = false

theorem Drifting.step (step : Move env plans p s q t) (h : Drifting env plans p s) :
    Drifting env plans q t := by
  cases step with
  | @external _ _ locked action may =>
    cases p with
    | settled σ => trivial
    | adrift σ w =>
      have locked : locked = true := may
      subst locked
      exact ⟨h.1.later rfl rfl fun _ member => List.mem_cons_of_mem _ member, h.2⟩
  | lose loaded permitted accepted | land loaded permitted accepted =>
    exact ⟨permitted.later (lastProbe_wrote _ _ _ _) (answered_wrote _ _ _ _)
      fun _ member => List.mem_cons_of_mem _ member, loaded⟩
  | _ => trivial

theorem Path.preserves {J : Phase → Scene → Prop}
    (step : ∀ {p s q t}, Drifting env plans p s → Move env plans p s q t → J p s → J q t)
    {p q : Phase × Scene} (path : Path env plans p q) (drifting : Drifting env plans p.1 p.2)
    (start : J p.1 p.2) : J q.1 q.2 := by
  suffices both : Drifting env plans q.1 q.2 ∧ J q.1 q.2 from both.2
  induction path with
  | refl => exact ⟨drifting, start⟩
  | tail _ last ih => exact ⟨ih.1.step last, step ih.1 last ih.2⟩

section Shape

def Stage.shaped : Stage → Prop
  | begun plan ref | applied plan ref | ending plan ref => plan.key.names ref
  | dead | idle | resolving _ => True

def Phase.shaped : Phase → Prop
  | settled σ | adrift σ _ => σ.shaped

def Controller.Distinct (c : Controller) : Prop :=
  ∀ d, c.desired = some d → (d.targets.map Intent.canonicalTarget).Nodup

variable {σ : Stage} {pending : Table PendingProbeKey AttemptRef} {key : PendingProbeKey}
  {w : Write}

theorem distinct_onController {hash : Hash String} {action : External} (h : c.Distinct) :
    (action.onController hash c).Distinct := by
  cases action with
  | publish desired =>
    simp only [External.onController]
    split
    · rename_i c' published
      unfold Controller.setDesiredSnapshot at published
      simp only [bind_eq_ok, within_eq_ok] at published
      obtain ⟨prepared, made, _, _, published⟩ := published
      cases published
      rintro _ ⟨⟩
      exact distinct_of_prepare made
    · exact h
  | finalizeTargets => exact h
  | replacePolicy => exact h

/-- Every pending Probe, and the attempt under way, stands for an attempt at the revision or
generation of its key. -/
structure Shaped (phase : Phase) (s : Scene) : Prop where
  pending : ∀ key ref, s.controller.pendingProbes.lookup key = some ref → key.names ref
  stage : phase.shaped
  distinct : s.controller.Distinct

variable {env : Env} {plans : Command → Prop} {p q : Phase} {s t : Scene}

theorem Stage.shaped_ended (h : σ.shaped) : σ.ended.shaped := by
  cases σ <;> exact h

private theorem names_insert {ref : AttemptRef}
    (h : ∀ key ref, pending.lookup key = some ref → key.names ref) (names : key.names ref)
    (key' : PendingProbeKey) (ref' : AttemptRef)
    (found : (pending.insert key ref).lookup key' = some ref') : key'.names ref' := by
  by_cases same : key' = key
  · subst same
    rw [AList.lookup_insert] at found
    cases found
    exact names
  · rw [AList.lookup_insert_ne same] at found
    exact h key' ref' found

private theorem names_erase (h : ∀ key ref, pending.lookup key = some ref → key.names ref)
    (key' : PendingProbeKey) (ref' : AttemptRef)
    (found : (pending.erase key).lookup key' = some ref') :
    key'.names ref' := by
  by_cases same : key' = key
  · subst same
    rw [AList.lookup_erase] at found
    cases found
  · rw [AList.lookup_erase_ne same] at found
    exact h key' ref' found

theorem Permitted.shaped {m : Controller} (h : Permitted env plans c trace σ w) (stage : σ.shaped)
    (pending : ∀ key ref, m.pendingProbes.lookup key = some ref → key.names ref) :
    (∀ key ref, (w.success m).pendingProbes.lookup key = some ref → key.names ref) ∧
      w.stage.shaped := by
  cases h with
  | begin => exact ⟨names_insert pending rfl, rfl⟩
  | failBegun | retirePending | converge | recover => exact ⟨names_erase pending, trivial⟩
  | @failApplied plan ref code next keep =>
    refine ⟨?_, trivial⟩
    cases keep with
    | true => exact names_insert pending stage
    | false => exact names_erase pending
  | retireApplied | startup | invalid | retry => exact ⟨pending, trivial⟩

theorem Change.load_of_readback {change : Change} {nodeID : String} {db : Database} {r : Recovery} {applied : Bool}
    (read : change.readback nodeID db = .ok (r, applied)) :
    ∃ owner, loadRecovery owner db = .ok r := by
  cases change with
  | ledger t =>
    simp only [Change.readback, Except.map] at read
    split at read
    · cases read
    · rename_i recovery load
      simp only [Except.ok.injEq, Prod.mk.injEq] at read
      obtain ⟨rfl, _⟩ := read
      exact ⟨nodeID, loadRecovery_of_loadReconcileRecovery load⟩
  | retry t =>
    simp only [Change.readback, readReconcileRetryTransition, bind_eq_ok, pure, Except.pure,
      Except.ok.injEq, Prod.mk.injEq] at read
    obtain ⟨recovery, load, _, _, rfl, _⟩ := read
    exact ⟨_, load⟩

theorem Permitted.desired (h : Permitted env plans c trace σ w) (m : Controller) :
    (w.success m).desired = m.desired := by
  cases h <;> rfl

theorem Shaped.step (drifting : Drifting env plans p s) (step : Move env plans p s q t)
    (h : Shaped p s) : Shaped q t := by
  have hydrated : ∀ {owner : String} {r : Recovery} {c : Controller},
      loadRecovery owner s.db = .ok r → s.controller.replaceRecovery r = .ok c →
      (∀ key ref, c.pendingProbes.lookup key = some ref → key.names ref) ∧ c.Distinct := by
    intro owner r c load replaced
    have replaces := replaced_of_replaceRecovery replaced
    obtain ⟨memory, hydrates, _, pending, _⟩ := replaces.hydrated
    refine ⟨fun key ref found => ?_, fun d published => ?_⟩
    · rw [pending, (hydrated_of_loadRecovery load hydrates).pending] at found
      obtain ⟨id, us, _, rfl, rfl⟩ := found
      rfl
    · exact h.distinct d (replaces.desired.symm.trans published)
  cases step with
  | @external _ _ locked action may =>
    refine ⟨?_, h.stage, ?_⟩
    · rw [republished_act.pendingProbes]
      exact h.pending
    · unfold Session.act
      dsimp only
      split
      · exact h.distinct
      · exact distinct_onController h.distinct
  | remember neutral =>
    refine ⟨?_, h.stage, ?_⟩
    · rw [neutral.shape]
      exact h.pending
    · rw [neutral.shape]
      exact h.distinct
  | pend => exact ⟨names_insert h.pending h.stage, h.stage, h.distinct⟩
  | apply mutated result unexpired => exact ⟨h.pending, h.stage, h.distinct⟩
  | enter | widen | leave => exact ⟨h.pending, trivial, h.distinct⟩
  | quit | refuse | fail | flag => exact ⟨h.pending, Stage.shaped_ended h.stage, h.distinct⟩
  | commit loaded permitted accepted =>
    obtain ⟨pending, stage⟩ := permitted.shaped h.stage h.pending
    refine ⟨pending, stage, fun d published => ?_⟩
    exact h.distinct d ((permitted.desired _).symm.trans published)
  | @adopt σ w _ r c read replaced =>
    obtain ⟨owner, load⟩ := Change.load_of_readback read
    obtain ⟨names, distinct⟩ := hydrated load replaced
    obtain ⟨pending, stage⟩ := drifting.1.shaped (m := { c with recoveryReloadNeeded := false })
      h.stage names
    refine ⟨pending, stage, fun d published => ?_⟩
    rw [drifting.1.desired] at published
    exact distinct d published
  | abandon read replaced =>
    obtain ⟨owner, load⟩ := Change.load_of_readback read
    obtain ⟨names, distinct⟩ := hydrated load replaced
    exact ⟨names, Stage.shaped_ended h.stage, distinct⟩
  | reload may read replaced =>
    obtain ⟨names, distinct⟩ := hydrated (loadRecovery_of_loadReconcileRecovery read) replaced
    exact ⟨names, trivial, distinct⟩
  | die => exact ⟨fun _ _ found => (by cases found), trivial, fun _ published => by cases published⟩
  | @restart _ r c read hydrates =>
    have hydration := hydrated_of_loadRecovery (loadRecovery_of_loadReconcileRecovery read) hydrates
    refine ⟨fun key ref found => ?_, trivial, fun d published => ?_⟩
    · obtain ⟨id, us, _, rfl, rfl⟩ := (hydration.pending key ref).mp found
      rfl
    · have blank : c.desired = none := by rw [hydration.shape]
      rw [blank] at published
      cases published
  | _ => exact ⟨h.pending, h.stage, h.distinct⟩

theorem Path.shaped {p q : Phase × Scene} (path : Path env plans p q)
    (drifting : Drifting env plans p.1 p.2) (start : Shaped p.1 p.2) : Shaped q.1 q.2 :=
  path.preserves (fun drifting step before => before.step drifting step) drifting start

end Shape

end GuardWall.Reconcile
