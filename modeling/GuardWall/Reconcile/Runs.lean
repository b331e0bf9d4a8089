import GuardWall.Reconcile.Conformance

/-! Recoveries, retries and restarts follow the protocol, and so does every run of a node. -/
namespace GuardWall.Reconcile

open GuardWall.Core GuardWall.Foundation GuardWall.Store Session Controller
open Proc (wp wp_bind wp_fold wp_imp wp_ite wp_mono wp_step wp_step_attempt wp_step_mapError
  wp_step_or wp_step_sure wp_sure)

variable {env : Env} {plans : Command → Prop} {origin : Phase × Scene}
  {s : Session env.backend.Answer}

section Recovering

variable {snapshot : Snapshot}

private theorem wp_recoverySnapshot {operation : String}
    (h : At env plans origin (.settled .idle) s) :
    wp (recoverySnapshot env operation) s (follows env plans origin fun result t =>
      match result with
      | .error _ => Stopped env plans origin t
      | .ok snapshot => At env plans origin (.settled .idle) t ∧
          Republished s.controller t.controller ∧ lastProbe t.trace = some snapshot) := by
  unfold recoverySnapshot
  refine wp_step_sure (wp_probe h trivial) ?_
  rintro result t ⟨at_, republished, _, newest⟩
  cases result with
  | ok snapshot => exact ⟨at_, republished, newest snapshot rfl⟩
  | error err =>
    refine wp_step_attempt (wp_recordAllUnknownObserved at_ trivial) ?_ ?_
    · intro _ u atU
      exact At.stopped atU nofun
    · intro _ u atU
      exact At.stopped atU nofun

private theorem wp_observePending {α : Type} {wrap : Fault → Fault}
    {next : List Nat → Controller → Act env α}
    {ok : α → Session env.backend.Answer → Prop} (h : At env plans origin (.settled .idle) s)
    (sound : Sound env plans origin) (loaded : s.controller.recoveryReloadNeeded = false)
    (probed : lastProbe s.trace = some snapshot)
    (continues : ∀ (t : Session env.backend.Answer) order,
      (∀ entry ∈ t.controller.pendingProbes.range order, entry.1.names entry.2) →
      Resolving env plans origin s.controller.desired snapshot
        ((t.controller.pendingProbes.range order).map Prod.fst) t →
      wp (next order t.controller) t (follows env plans origin ok)) :
    wp (do
        let observed ← observedUpdateForSnapshot env snapshot
        Proc.mapError wrap (persistObserved env observed)
        let order ← mapOrder env
        let c ← memory env
        next order c : Act env α) s (follows env plans origin ok) := by
  refine wp_step_or (wp_observedUpdateForSnapshot h sound probed) ?_
    (fun _ _ e => e.1.stopped nofun)
  rintro observed t ⟨⟨atT, keptT⟩, attested⟩
  refine wp_step_mapError (wp_persistObserved atT attested) ?_
    (fun _ _ e => e.1.stopped nofun)
  rintro _ u ⟨atU, keptU⟩
  have kept := keptT.trans keptU
  rw [wp_bind]
  refine wp_mapOrder (fun order rest => ?_) atU.reached
  replace atU : At env plans origin (.settled .idle) { u with script := rest } := atU
  refine continues _ order (atU.named sound) ?_
  rw [← kept.desired]
  exact Resolving.enter atU (kept.loaded loaded) (kept.lastProbe.trans probed)

theorem wp_probeRecovery (h : At env plans origin (.settled .idle) s)
    (sound : Sound env plans origin) :
    wp (probeRecovery env) s
      (follows env plans origin fun _ t => Stopped env plans origin t) := by
  unfold probeRecovery
  refine wp_step (wp_reloadRecoveryIfNeeded h) ?_
  rintro _ t ⟨atT, loadedT⟩
  refine wp_step (wp_recoverySnapshot atT) ?_
  intro result u done
  cases result with
  | error outcome => exact done
  | ok snapshot =>
    obtain ⟨atU, republished, newest⟩ := done
    refine wp_step_sure (wp_lock atU trivial) ?_
    rintro _ v ⟨atV, meanwhile⟩
    have loadedV := meanwhile.loaded (republished.recoveryReloadNeeded.trans loadedT)
    rw [wp_memory_bind]
    refine wp_ite (fun _ => atV.stopped nofun) (fun _ => ?_)
    refine wp_observePending atV sound loadedV (meanwhile.lastProbe.trans newest) ?_
    intro w order named entered
    exact wp_imp
      (Resolving.wp_loop (fun inv names => inv.wp_recoverHealth names) _ _ named entered)
      (fun _ _ inv => Resolving.stopped inv)

variable {d : Option DesiredSnapshot} {progress : StartupProgress} {keys : List ReconcileKey}

private theorem wp_recoverStartupKey {key : ReconcileKey}
    (h : Resolving env plans origin d snapshot [] s) :
    wp (recoverStartupKey env snapshot progress key) s
      (Resolving.turn env plans origin d snapshot []) := by
  unfold recoverStartupKey
  refine wp_ite (fun _ => h) (fun _ => ?_)
  rw [wp_memory_bind]
  refine wp_ite (fun _ => h) (fun shown => ?_)
  have shown : s.controller.snapshotMatchesCurrentDesired snapshot key = true := by
    simpa using shown
  split
  · exact h
  · rename_i ref current
    obtain ⟨left, at_, accounted⟩ := h.accounted
    -- a Probe still pending is for a failure domain the snapshot does not show
    have apart : ∀ other, left other → other.slot ≠ key := by
      rintro other held rfl
      obtain impossible | unresolved := accounted other held
      · cases impossible
      · rw [unresolved.2] at shown
        cases shown
    refine wp_step_mapError (wp_persistState _ (at_.asks h.loaded fun _ i =>
      .startup apart current ⟨snapshot, h.probed, shown⟩)) ?_
      (fun _ _ e => e.stopped nofun)
    rintro _ t ⟨i, landed⟩
    have published : s.controller.published? key = some ref.version := by
      obtain ⟨version, published, same⟩ := Option.map_eq_some_iff.mp current
      rw [published, ← same]
    have landedAt : At env plans origin (.settled (.resolving left))
        { t with controller := t.controller.putState ref (s.controller.getState ref).converge } :=
      landed.path
    simp only [wp_bind, wp_setMemory]
    refine wp_sure (wp_confirm landedAt ?_) ?_
    · rintro target rfl
      exact Borne.later ⟨published, snapshot, h.probed, shown⟩ landed.desired landed.lastProbe
    · rintro _ u ⟨atU, confirming⟩
      have same : u.controller.desired = s.controller.desired := by
        rw [confirming.controller]
        exact landed.desired
      refine ⟨⟨left, atU, ?_⟩, ?_, same.trans h.desired,
        confirming.lastProbe.trans (landed.lastProbe.trans h.probed)⟩
      · intro other held
        obtain impossible | ⟨matched, unseen⟩ := accounted other held
        · cases impossible
        · refine .inr ⟨?_, ?_⟩
          · rw [← matched]
            exact pendingKeyMatches_congr same other
          · rw [← unseen]
            exact snapshotMatches_congr same snapshot other.slot
      · rw [confirming.controller]
        exact landed.loaded

private theorem wp_startupKeys (h : Resolving env plans origin d snapshot [] s) :
    wp (Proc.fold (recoverStartupKey env snapshot) keys progress) s
      (Resolving.turn env plans origin d snapshot []) :=
  wp_fold (fun _ _ s => Resolving env plans origin d snapshot [] s)
    (fun _ _ _ _ inv => wp_recoverStartupKey inv) (fun _ _ inv => inv) keys progress s h

theorem wp_probeStartupRecovery (h : At env plans origin (.settled .idle) s)
    (sound : Sound env plans origin) :
    wp (probeStartupRecovery env keys) s
      (follows env plans origin fun _ t => Stopped env plans origin t) := by
  unfold probeStartupRecovery
  refine wp_step (wp_reloadRecoveryIfNeeded h) ?_
  rintro _ t ⟨atT, loadedT⟩
  refine wp_step (wp_recoverySnapshot atT) ?_
  intro result u done
  cases result with
  | error outcome => exact done
  | ok snapshot =>
    obtain ⟨atU, republished, newest⟩ := done
    refine wp_step_sure (wp_lock atU trivial) ?_
    rintro _ v ⟨atV, meanwhile⟩
    have loadedV := meanwhile.loaded (republished.recoveryReloadNeeded.trans loadedT)
    have probedV := meanwhile.lastProbe.trans newest
    rw [wp_memory_bind]
    refine wp_ite (fun _ => ?_) (fun _ => ?_)
    · refine ⟨.idle, nofun, atV.move (.started ?_)⟩
      rw [probedV]
      rfl
    refine wp_observePending atV sound loadedV probedV ?_
    intro w order named entered
    refine wp_step
      (Resolving.wp_loop (fun inv names => inv.wp_recoverStartupPending names) _ _ named entered)
      ?_
    intro progress x resolved
    refine wp_step (wp_startupKeys resolved) ?_
    intro progress y resolved
    obtain ⟨left, atY, _⟩ := resolved.accounted
    refine ⟨.resolving left, nofun, atY.move (.started ?_)⟩
    rw [resolved.probed]
    rfl

end Recovering

theorem wp_retry {slot : ReconcileKey} (h : At env plans origin (.settled .idle) s)
    (asked : plans (.retry slot)) :
    wp (retry env slot) s
      (follows env plans origin fun _ t => Stopped env plans origin t) := by
  unfold retry
  refine wp_step (wp_reloadRecoveryIfNeeded h) ?_
  rintro _ t ⟨atT, loadedT⟩
  refine wp_step_sure (wp_lock atT trivial) ?_
  rintro _ u ⟨atU, meanwhile⟩
  have loadedU := meanwhile.loaded loadedT
  rw [wp_memory_bind]
  split
  · exact atU.stopped nofun
  · rename_i version published
    refine wp_ite (fun _ => atU.stopped nofun) (fun range => ?_)
    have persisted : wp
        (persistRetry env ⟨slot, version, (u.controller.epochs slot + 1) % 2 ^ 64⟩
          (u.controller.epochs slot)) u
        ⟨fun _ t => ∃ at_, Landed (.retry u.controller env
            ⟨slot, version, (u.controller.epochs slot + 1) % 2 ^ 64⟩ (u.controller.epochs slot) at_)
            env plans origin u.toScene t,
          fun _ t => Stopped env plans origin t, Reached env plans origin⟩ := by
      unfold persistRetry
      rw [wp_bind]
      refine wp_persistedState (fun at_ rest => ?_) atU.reached
      have atV : At env plans origin (.settled .idle) { u with script := rest } := atU
      have permitted := @Permitted.retry env plans u.controller u.trace slot version at_ asked
        published range
      exact wp_mono (wp_persists atV loadedU permitted)
        (fun _ _ landed => ⟨at_, landed⟩) (fun _ _ e => At.stopped e nofun)
    refine wp_step_mapError persisted ?_ (fun _ _ e => e)
    rintro _ v ⟨at_, landed⟩
    exact ⟨.idle, nofun, landed.path⟩

section Restarting

theorem wp_newPersistentController {nodeID : String}
    (h : At env plans origin (.settled .dead) s) (node : s.db.nodeID = nodeID) :
    wp (newPersistentController env nodeID) s
      ⟨fun c t => Path env plans origin (.settled .idle, { t.toScene with controller := c }),
        fun _ t => Reached env plans origin t, Reached env plans origin⟩ := by
  unfold newPersistentController
  refine wp_ite (fun _ => h.reached) (fun _ => ?_)
  refine wp_step_mapError (wp_load h) ?_ (fun _ _ e => e.1.reached)
  rintro r t ⟨atT, waited, read⟩
  have nodeT : t.db.nodeID = nodeID := (loaded_of_loadReconcileRecovery read).node
  rw [wp_bind]
  refine wp_lift ?_ (fun _ _ => atT.reached)
  intro c hydrated
  rw [within_eq_ok] at hydrated
  refine wp_step_mapError (wp_load atT) ?_ (fun _ _ e => e.1.reached)
  rintro observed u ⟨atU, ⟨actions, scene⟩, _⟩
  refine wp_ite (fun _ => atU.reached) (fun _ => ?_)
  -- the memory can be installed where the ledger was read: what others did since commutes
  have opened : Path env plans origin (.settled .idle, { t.toScene with controller := { c with
      startupProbeRequired := !r.states.isEmpty || !r.probes.isEmpty } }) := by
    subst nodeT
    exact Path.move atT (.restart read hydrated)
  have waitedPath := opened.trans
    (path_actions (Phase.admits_locked (.settled .idle)) actions _)
  rw [actions_locked, ← scene] at waitedPath
  refine Path.move waitedPath (.remember ⟨rfl, ?_⟩)
  intro required
  simp only [Bool.or_eq_true] at required ⊢
  exact .inl required

end Restarting

namespace Node

def phase (node : Node) : Phase × Scene :=
  match node.process with
  | some c => (.settled .idle, ⟨⟨node.db, c⟩, node.trace⟩)
  | none => (.settled .dead, ⟨⟨node.db, { nodeID := node.db.nodeID }⟩, node.trace⟩)

@[simp] theorem db_phase (node : Node) : node.phase.2.db = node.db := by
  unfold phase
  cases node.process <;> rfl

@[simp] theorem trace_phase (node : Node) : node.phase.2.trace = node.trace := by
  unfold phase
  cases node.process <;> rfl

variable {node : Node} {script : List (Tick env.backend.Answer)}

theorem phase_of_process {c : Controller} (runs : node.process = some c) :
    node.phase = (.settled .idle, ⟨⟨node.db, c⟩, node.trace⟩) := by
  unfold phase
  rw [runs]

private theorem path_operate {α : Type} {operation : Act env α}
    (follow : ∀ s : Session env.backend.Answer, At env plans node.phase (.settled .idle) s →
      wp operation s (follows env plans node.phase fun _ t => Stopped env plans node.phase t))
    :
    Path env plans node.phase (operate env node operation script).phase := by
  unfold operate
  cases running : node.process with
  | none => exact .refl
  | some c =>
    have start : At env plans node.phase (.settled .idle)
        (⟨⟨⟨node.db, c⟩, node.trace⟩, script⟩ : Session env.backend.Answer) := by
      unfold At phase
      rw [running]
    have ended := follow _ start
    unfold wp at ended
    simp only [settle]
    generalize operation ⟨⟨⟨node.db, c⟩, node.trace⟩, script⟩ = result at ended ⊢
    obtain ⟨outcome, t⟩ := result
    cases outcome with
    | ok | error =>
      obtain ⟨σ, live, at_⟩ := ended
      exact Path.move at_ (.leave live)
    | crash =>
      obtain ⟨phase, at_⟩ := ended
      exact Path.move at_ .die

private theorem path_restart :
    Path env plans node.phase (restart env node script).phase := by
  have start : At env plans node.phase (.settled .dead)
      (⟨⟨⟨node.db, { nodeID := node.db.nodeID }⟩, .restarted :: node.trace⟩, script⟩ :
        Session env.backend.Answer) := by
    unfold At phase
    cases node.process with
    | none => exact Path.move .refl .boot
    | some c => exact Path.move (Path.move .refl .die) .boot
  have ended := wp_newPersistentController start rfl
  unfold wp at ended
  simp only [restart]
  generalize newPersistentController env node.db.nodeID
    ⟨⟨⟨node.db, { nodeID := node.db.nodeID }⟩, .restarted :: node.trace⟩, script⟩ = result at ended ⊢
  obtain ⟨outcome, t⟩ := result
  cases outcome with
  | ok c => exact ended
  | error | crash =>
    obtain ⟨phase, at_⟩ := ended
    exact Path.move at_ .die

private theorem path_external {action : External} :
    Path env plans node.phase (external env node action).phase := by
  unfold external phase
  cases node.process with
  | none =>
    have acted : Path env plans
        (.settled .dead, ⟨⟨node.db, { nodeID := node.db.nodeID }⟩, node.trace⟩)
        (.settled .dead, act env true ⟨⟨node.db, { nodeID := node.db.nodeID }⟩, node.trace⟩ action) :=
      Path.move .refl (.external action (Phase.admits_locked _))
    exact Path.move acted .die
  | some c =>
    have unlocked : (Phase.settled .idle).admits false := Or.inr trivial
    exact Path.move .refl (.external action unlocked)

theorem path_perform (node : Node) (sound : Sound env plans node.phase)
    {step : Step env.backend.Answer} (asked : plans step.command) :
    Path env plans node.phase (perform env node step).phase := by
  unfold perform
  cases command : step.command with
  | execute plan => exact path_operate fun s at_ => wp_execute at_ sound (command ▸ asked)
  | retry slot => exact path_operate fun s at_ => wp_retry at_ (command ▸ asked)
  | probeRecovery => exact path_operate fun s at_ => wp_probeRecovery at_ sound
  | probeStartupRecovery keys => exact path_operate fun s at_ => wp_probeStartupRecovery at_ sound
  | external action => exact path_external
  | restart => exact path_restart

theorem drifting_phase (node : Node) : Drifting env plans node.phase.1 node.phase.2 := by
  unfold phase
  cases node.process <;> trivial

theorem path_run (node : Node) (shaped : Shaped node.phase.1 node.phase.2)
    (steps : List (Step env.backend.Answer))
    (asked : ∀ step ∈ steps, plans step.command) :
    Path env plans node.phase (run env node steps).phase := by
  induction steps generalizing node with
  | nil => exact .refl
  | cons step rest ih =>
    have first := path_perform node ⟨drifting_phase node, shaped⟩ (asked step List.mem_cons_self)
    exact first.trans (ih (perform env node step) (first.shaped (drifting_phase node) shaped)
      (fun step member => asked step (List.mem_cons_of_mem _ member)))

theorem shaped_initial (nodeID : String) :
    Shaped (initial nodeID).phase.1 (initial nodeID).phase.2 :=
  ⟨fun _ _ found => (by cases found), trivial, fun _ published => (by cases published)⟩

theorem path_run_initial (nodeID : String) (steps : List (Step env.backend.Answer))
    (asked : ∀ step ∈ steps, plans step.command) :
    Path env plans (initial nodeID).phase (run env (initial nodeID) steps).phase :=
  path_run (initial nodeID) (shaped_initial nodeID) steps asked

end Node

end GuardWall.Reconcile
