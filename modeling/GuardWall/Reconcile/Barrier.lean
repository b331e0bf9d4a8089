import GuardWall.Reconcile.Provider
import GuardWall.Reconcile.Runs
import GuardWall.Reconcile.Tracking

/-! The Probe barrier: after an Apply whose outcome is ambiguous nothing is applied, in any
failure domain, before a Probe has succeeded. The barrier is held by the pending Probes, the
startup flag or the reload flag, whichever the last failure left standing. -/
namespace GuardWall.Reconcile

open GuardWall.Core GuardWall.Foundation GuardWall.Store

/-- What is known of the newest Apply without a Probe. -/
inductive Standing where
  | none
  /-- The backend refused the plan; that the attempt is over is not durable yet. -/
  | refused (ref : AttemptRef) (count : Nat)
  | ended
  /-- Result Unknown, an error, a Confirmed still to be borne out by a Probe, or a refusal whose
  end failed to persist, gave no answer, or was cut off by a crash. -/
  | ambiguous
  deriving DecidableEq, Repr

def endsAttempt (ref : AttemptRef) (count : Nat) (t : Transition) : Bool :=
  t.deleteProbe.isSome && t.state.any fun s => s.ref == ref && s.retry.attemptCount == count

namespace Standing

def unsettled : Standing → Bool
  | none | ended => false
  | refused _ _ | ambiguous => true

def interrupted : Standing → Standing
  | refused _ _ => ambiguous
  | standing => standing

def afterWrite (t : Transition) (commit : Commit) : Standing → Standing
  | refused ref count =>
      if commit = .commits ∧ endsAttempt ref count t = true then ended else ambiguous
  | standing => standing

@[simp] theorem unsettled_interrupted (standing : Standing) :
    standing.interrupted.unsettled = standing.unsettled := by
  cases standing <;> rfl

theorem unsettled_of_afterWrite {t : Transition} {commit : Commit} {standing : Standing}
    (h : (standing.afterWrite t commit).unsettled = true) : standing.unsettled = true := by
  cases standing with
  | refused => rfl
  | _ => exact h

end Standing

def standing : List Event → Standing
  | [] => .none
  | .applied _ ref count _ result _ :: _ =>
      if refusal result then .refused ref count else .ambiguous
  | .wrote t commit _ :: rest => (standing rest).afterWrite t commit
  | .refused _ _ _ :: rest => (standing rest).interrupted
  | .restarted :: rest => (standing rest).interrupted
  | _ :: rest => standing rest

def probesSince : List Event → List Snapshot
  | [] => []
  | .probed (.ok snapshot) :: rest => snapshot :: probesSince rest
  | .applied .. :: _ => []
  | _ :: rest => probesSince rest

def owed (trace : List Event) : Prop := (standing trace).unsettled = true ∧ probesSince trace = []

variable {trace : List Event} {event : Event} {env : Env}

theorem mem_probesSince_of_lastProbe {snapshot : Snapshot} (h : lastProbe trace = some snapshot) :
    snapshot ∈ probesSince trace := by
  induction trace with
  | nil => cases h
  | cons event rest ih =>
    cases event with
    | probed result =>
      cases result with
      | ok seen =>
        cases h
        exact List.mem_cons_self
      | error _ => exact ih h
    | applied => cases h
    | _ => exact ih h

theorem not_owed_of_lastProbe (h : (lastProbe trace).isSome) :
    ¬ owed trace := by
  rintro ⟨_, empty⟩
  obtain ⟨snapshot, found⟩ := Option.isSome_iff_exists.mp h
  have member := mem_probesSince_of_lastProbe found
  rw [empty] at member
  cases member

def Event.isApply : Event → Bool
  | .applied .. => true
  | _ => false

theorem owed_of_cons (other : event.isApply = false) (h : owed (event :: trace)) : owed trace := by
  obtain ⟨unsettled, empty⟩ := h
  cases event with
  | applied => cases other
  | probed result =>
    cases result with
    | ok snapshot => cases empty
    | error err => exact ⟨unsettled, empty⟩
  | wrote t commit before => exact ⟨Standing.unsettled_of_afterWrite unsettled, empty⟩
  | refused | restarted => exact ⟨by simpa [standing] using unsettled, empty⟩
  | _ => exact ⟨unsettled, empty⟩

def Controller.guarded (c : Controller) : Prop :=
  c.recoveryReloadNeeded = true ∨ c.startupProbeRequired = true ∨ c.pendingProbes.isEmpty = false

def Occupied (db : Database) : Prop := ∃ slot row, db.row? slot = some row

/-- The plan is bound to a Probe made since the last Apply, if the backend asks for that. -/
def Fresh (env : Env) (plan : OperationPlan) (trace : List Event) : Prop :=
  env.backend.requiresFreshBasis = true → ∃ snapshot ∈ probesSince trace,
    plan.basisSnapshotDigest = snapshot.digest env.digests.snapshot

/-- No Apply was made while a Probe was owed, and each was bound as the backend asks. -/
def Probing (env : Env) : List Event → Prop
  | [] => True
  | .applied plan _ _ _ _ _ :: older => (¬ owed older ∧ Fresh env plan older) ∧ Probing env older
  | _ :: older => Probing env older

def Attempting (env : Env) : Phase → Scene → Prop
  | .settled (.begun plan ref), s => ¬ owed s.trace ∧ Fresh env plan s.trace ∧ Occupied s.db ∧
      s.controller.pendingProbes.lookup plan.key = some ref
  | .settled (.applied plan ref), s =>
      s.controller.pendingProbes.lookup plan.key = some ref ∧
      (answered s.trace = true → owed s.trace →
        standing s.trace = .refused ref (s.controller.getState ref).attemptCount)
  | _, _ => True

structure Barrier (env : Env) (phase : Phase) (s : Scene) : Prop where
  probing : Probing env s.trace
  occupied : owed s.trace → Occupied s.db
  guarded : phase ≠ .settled .dead → owed s.trace → s.controller.guarded
  attempting : Attempting env phase s

theorem Controller.guarded_of_lookup {c : Controller} {key : PendingProbeKey} {ref : AttemptRef}
    (found : c.pendingProbes.lookup key = some ref) : c.guarded :=
  .inr (.inr (Table.isEmpty_of_lookup found))

@[simp] theorem probing_cons (other : event.isApply = false) :
    Probing env (event :: trace) ↔ Probing env trace := by
  cases event with
  | applied => cases other
  | _ => exact Iff.rfl

theorem Fresh.cons {plan : OperationPlan} (other : event.isApply = false) (h : Fresh env plan trace) :
    Fresh env plan (event :: trace) := by
  intro fresh
  obtain ⟨snapshot, member, bound⟩ := h fresh
  refine ⟨snapshot, ?_, bound⟩
  cases event with
  | applied => cases other
  | probed result =>
    cases result with
    | ok seen => exact List.mem_cons_of_mem _ member
    | error err => exact member
  | _ => exact member

theorem Change.wrote_isApply (change : Change) (commit : Commit) (before : Moment) :
    (change.wrote commit before).isApply = false := by
  cases change <;> rfl

theorem Change.refused_isApply (change : Change) (fault : Fault) (before : Moment) :
    (change.refused fault before).isApply = false := by
  cases change <;> rfl

section Steps

variable {env : Env} {plans : Command → Prop} {p q : Phase} {s t : Scene} {σ : Stage}
  {w : Write}

theorem Occupied.step (step : Move env plans p s q t) (h : Occupied s.db) : Occupied t.db := by
  obtain ⟨slot, row, found⟩ := h
  have written : ∀ {change : Change} {db : Database}, change.apply s.db = .ok db →
      Occupied db := by
    intro change db accepted
    have admitted := Change.admitted accepted
    cases state : change.state? with
    | none =>
      rw [state] at admitted
      exact ⟨slot, row, (admitted.row?_none slot).trans found⟩
    | some st =>
      rw [state] at admitted
      exact ⟨_, _, admitted.row?_self⟩
  cases step with
  | external action may =>
    obtain same | ⟨new, reset, _⟩ := (resets_onDatabase env.digests.policy action s.db).rows slot
    · exact ⟨slot, row, same.trans found⟩
    · exact ⟨slot, new, reset⟩
  | observe attested same => exact ⟨slot, row, (same.row? slot).trans found⟩
  | commit loaded permitted accepted | land loaded permitted accepted => exact written accepted
  | _ => exact ⟨slot, row, found⟩

theorem Barrier.begins {plan : OperationPlan} {ref : AttemptRef} (h : Barrier env p s)
    (live : p ≠ .settled .dead) (loaded : s.controller.recoveryReloadNeeded = false)
    (permitted : Permitted env plans s.controller s.trace σ w)
    (stage : w.stage = .begun plan ref) :
    ¬ owed s.trace ∧ Fresh env plan s.trace ∧
      ∀ m : Controller, (w.success m).pendingProbes.lookup plan.key = some ref := by
  cases permitted with
  | begin asked resolved current eligible budget ready based known =>
    cases stage
    refine ⟨?_, ?_, fun m => AList.lookup_insert _⟩
    · obtain ⟨snapshot, newest, _⟩ | ⟨pending, startup, _⟩ := based
      · exact not_owed_of_lastProbe (by rw [newest]; rfl)
      · intro debt
        obtain flag | flag | flag := h.guarded live debt
        · rw [loaded] at flag
          cases flag
        · rw [startup] at flag
          cases flag
        · rw [pending] at flag
          cases flag
    · intro fresh
      obtain ⟨snapshot, newest, bound⟩ | ⟨_, _, free⟩ := based
      · exact ⟨snapshot, mem_probesSince_of_lastProbe newest, bound⟩
      · rw [free] at fresh
        cases fresh
  | _ => cases stage

theorem Barrier.committed (h : Barrier env (.settled σ) s)
    (permitted : Permitted env plans s.controller s.trace σ w)
    (debt : owed (w.change.wrote .commits s.toMoment :: s.trace)) :
    (w.success s.controller).guarded := by
  have before := owed_of_cons (w.change.wrote_isApply _ _) debt
  have guarded := h.guarded (fun same => permitted.alive (by cases same; rfl)) before
  have probed : ∀ {snapshot}, lastProbe s.trace = some snapshot → False := fun newest =>
    not_owed_of_lastProbe (by rw [newest]; rfl) before
  cases permitted with
  | begin => exact Controller.guarded_of_lookup (AList.lookup_insert _)
  | failBegun => exact absurd before h.attempting.1
  | @failApplied plan ref code next keep observed updated recorded counted settled =>
    cases keep with
    | true => exact Controller.guarded_of_lookup (AList.lookup_insert _)
    | false =>
      have refused := h.attempting.2 (settled rfl) before
      have count : (Controller.failedState (s.controller.getState ref) code next).attemptCount =
          (s.controller.getState ref).attemptCount := by
        cases next <;> rfl
      have unsettled := debt.1
      simp [Write.fail, Change.wrote, standing, refused, Standing.afterWrite, endsAttempt,
        Controller.record, count, Standing.unsettled] at unsettled
  | retireApplied stale known => exact Controller.guarded_of_lookup h.attempting.1
  | retirePending found stale known =>
    obtain ⟨snapshot, newest⟩ := Option.isSome_iff_exists.mp found
    exact (probed newest).elim
  | converge current seen | recover current seen known carrier | startup resolved current seen =>
    exact (probed seen.choose_spec.1).elim
  | invalid asked refused => exact guarded
  | retry published range => exact guarded

theorem Barrier.reloaded {owner : String} {r : Recovery} {c : Controller} (h : Barrier env p s)
    (load : loadRecovery owner s.db = .ok r) (replaced : s.controller.replaceRecovery r = .ok c)
    (debt : owed s.trace) : c.startupProbeRequired = true := by
  obtain ⟨slot, row, found⟩ := h.occupied debt
  have member := ((loaded_of_loadRecovery load).states _).mpr ⟨slot, row, found, rfl⟩
  rw [(replaced_of_replaceRecovery replaced).startup]
  cases states : r.states with
  | nil =>
    rw [states] at member
    cases member
  | cons head rest => rfl

/-- An event that is no Apply and leaves what is known of the newest one. -/
structure Event.Inert (event : Event) (trace : List Event) : Prop where
  other : event.isApply = false
  stands : standing (event :: trace) = standing trace
  answers : answered (event :: trace) = true → owed (event :: trace) → answered trace = true

theorem Attempting.still (h : Attempting env (.settled σ) s)
    (trace : t.trace = s.trace ∨ ∃ event : Event, event.Inert s.trace ∧ t.trace = event :: s.trace)
    (occupied : Occupied s.db → Occupied t.db)
    (states : t.controller.states = s.controller.states)
    (pending : t.controller.pendingProbes = s.controller.pendingProbes) :
    Attempting env (.settled σ) t := by
  cases σ with
  | begun plan ref =>
    obtain ⟨paid, fresh, row, found⟩ := h
    obtain same | ⟨event, inert, same⟩ := trace
    · exact ⟨by rwa [same], by rwa [same], occupied row, pending ▸ found⟩
    · refine ⟨?_, ?_, occupied row, pending ▸ found⟩
      · rw [same]
        exact fun debt => paid (owed_of_cons inert.other debt)
      · rw [same]
        exact fresh.cons inert.other
  | applied plan ref =>
    obtain ⟨found, refused⟩ := h
    refine ⟨pending ▸ found, ?_⟩
    have count : t.controller.getState ref = s.controller.getState ref := by
      unfold Controller.getState Controller.state?
      rw [states]
    rw [count]
    obtain same | ⟨event, inert, same⟩ := trace
    · rwa [same]
    · rw [same, inert.stands]
      exact fun answer debt =>
        refused (inert.answers answer debt) (owed_of_cons inert.other debt)
  | _ => exact trivial

namespace Barrier

variable {db : Database} {c : Controller} {event : Event}

theorem kept (h : Barrier env p s) (row : Occupied s.db → Occupied db)
    (guarded : q ≠ .settled .dead → owed s.trace → c.guarded)
    (attempting : Attempting env q ⟨⟨db, c⟩, s.trace⟩) : Barrier env q ⟨⟨db, c⟩, s.trace⟩ :=
  ⟨h.probing, fun debt => row (h.occupied debt), guarded, attempting⟩

theorem logged (h : Barrier env p s) (other : event.isApply = false)
    (row : Occupied s.db → Occupied db)
    (guarded : q ≠ .settled .dead → owed (event :: s.trace) → c.guarded)
    (attempting : Attempting env q ⟨⟨db, c⟩, event :: s.trace⟩) :
    Barrier env q ⟨⟨db, c⟩, event :: s.trace⟩ :=
  ⟨(probing_cons other).mpr h.probing, fun debt => row (h.occupied (owed_of_cons other debt)),
    guarded, attempting⟩

theorem inert (h : Barrier env (.settled σ) s) (inert : event.Inert s.trace)
    (row : Occupied s.db → Occupied db) (states : c.states = s.controller.states)
    (pending : c.pendingProbes = s.controller.pendingProbes)
    (guarded : s.controller.guarded → c.guarded) :
    Barrier env (.settled σ) ⟨⟨db, c⟩, event :: s.trace⟩ :=
  h.logged inert.other row
    (fun live debt => guarded (h.guarded live (owed_of_cons inert.other debt)))
    (h.attempting.still (.inr ⟨event, inert, rfl⟩) row states pending)

theorem external {locked : Bool} {action : External} (h : Barrier env p s)
    (row : Occupied s.db → Occupied (Session.act env locked s action).db) :
    Barrier env p (Session.act env locked s action) := by
  have republished := @republished_act env locked s action
  have guard : s.controller.guarded → (Session.act env locked s action).controller.guarded := by
    unfold Controller.guarded
    rw [republished.recoveryReloadNeeded, republished.startupProbeRequired,
      republished.pendingProbes]
    exact id
  cases p with
  | settled σ =>
    exact h.inert ⟨rfl, rfl, fun answer _ => answer⟩ row republished.states
      republished.pendingProbes guard
  | adrift σ w =>
    exact h.logged rfl row (fun live debt => guard (h.guarded live (owed_of_cons rfl debt))) trivial

theorem asked (h : Barrier env (.settled σ) s)
    (permitted : Permitted env plans s.controller s.trace σ w) (other : event.isApply = false)
    (row : Occupied s.db → Occupied db)
    (attempting : Attempting env q ⟨⟨db, s.controller⟩, event :: s.trace⟩) :
    Barrier env q ⟨⟨db, s.controller⟩, event :: s.trace⟩ :=
  h.logged other row
    (fun _ debt => h.guarded (by simpa using permitted.alive) (owed_of_cons other debt)) attempting

theorem commit (h : Barrier env (.settled σ) s)
    (loaded : s.controller.recoveryReloadNeeded = false)
    (permitted : Permitted env plans s.controller s.trace σ w)
    (accepted : w.change.apply s.db = .ok db) (row : Occupied s.db → Occupied db) :
    Barrier env (.settled w.stage)
      ⟨⟨db, w.success s.controller⟩, w.change.wrote .commits s.toMoment :: s.trace⟩ := by
  have other := w.change.wrote_isApply .commits s.toMoment
  refine h.logged other row (fun _ => h.committed permitted) ?_
  cases stage : w.stage with
  | begun plan ref =>
    have live : Phase.settled σ ≠ .settled .dead := by simpa using permitted.alive
    obtain ⟨paid, fresh, found⟩ := h.begins live loaded permitted stage
    refine ⟨fun debt => paid (owed_of_cons other debt), fresh.cons other, ?_, found _⟩
    have admitted := Change.admitted accepted
    obtain ⟨_, _, _, ⟨t, st, change, state, _⟩, _⟩ := permitted.begun stage
    rw [change, show (Change.ledger t).state? = some st from state] at admitted
    exact ⟨_, _, admitted.row?_self⟩
  | applied plan ref => exact absurd stage permitted.stage_ne_applied
  | _ => trivial

theorem adopt {r : Recovery} (h : Barrier env (.adrift σ w) s)
    (drifting : Drifting env plans (.adrift σ w) s)
    (read : w.change.readback s.controller.nodeID s.db = .ok (r, true))
    (replaced : s.controller.replaceRecovery r = .ok c) :
    Barrier env (.settled w.stage)
      { s with controller := w.success { c with recoveryReloadNeeded := false } } := by
  obtain ⟨owner, load⟩ := Change.load_of_readback read
  refine h.kept id ?_ ?_
  · intro _ debt
    have startup := h.reloaded load replaced debt
    exact .inr (.inl ((drifting.1.startupProbeRequired _).trans startup))
  · cases stage : w.stage with
    | begun plan ref =>
      obtain ⟨paid, fresh, found⟩ := h.begins nofun drifting.2 drifting.1 stage
      refine ⟨paid, fresh, ?_, found _⟩
      obtain ⟨_, _, _, ⟨t, st, change, state, _⟩, _⟩ := drifting.1.begun stage
      have written : w.change.state? = some st := by rw [change]; exact state
      obtain ⟨row, held, _⟩ := Change.row_of_readback read written
      exact ⟨_, row, held⟩
    | applied plan ref => exact absurd stage drifting.1.stage_ne_applied
    | _ => trivial

theorem restart {r : Recovery} (h : Barrier env (.settled .dead) s)
    (read : loadReconcileRecovery s.db.nodeID s.db = .ok r) :
    Barrier env (.settled .idle) { s with controller := { c with
      startupProbeRequired := !r.states.isEmpty || !r.probes.isEmpty } } := by
  refine h.kept id (fun _ debt => .inr (.inl ?_)) trivial
  obtain ⟨slot, row, found⟩ := h.occupied debt
  have member := ((loaded_of_loadReconcileRecovery read).states _).mpr ⟨slot, row, found, rfl⟩
  cases states : r.states with
  | nil =>
    rw [states] at member
    cases member
  | cons head rest => simp

theorem step (drifting : Drifting env plans p s) (step : Move env plans p s q t)
    (h : Barrier env p s) : Barrier env q t := by
  have occupied : Occupied s.db → Occupied t.db := fun row => row.step step
  cases step with
  | external action may => exact h.external occupied
  | @note σ _ event quiet =>
    cases event with
    | checked | failing => exact h.inert ⟨rfl, rfl, fun answer _ => answer⟩ id rfl rfl id
    | _ => exact quiet.elim
  | probe result may =>
    refine h.inert ⟨rfl, ?_, ?_⟩ id rfl rfl id
    · cases result <;> rfl
    · cases result with
      | ok snapshot =>
        rintro _ ⟨_, empty⟩
        cases empty
      | error err => exact fun answer _ => answer
  | @apply plan ref _ mutated result =>
    obtain ⟨paid, fresh, row, found⟩ := h.attempting
    refine ⟨⟨⟨paid, fresh⟩, h.probing⟩, fun _ => row,
      fun _ _ => Controller.guarded_of_lookup found, found, ?_⟩
    intro answer _
    have refused : refusal result = true := answer
    simp only [Scene.logging, standing, refused, if_true]
  | observe | confirm => exact h.inert ⟨rfl, rfl, fun answer _ => answer⟩ occupied rfl rfl id
  | @remember σ _ c neutral =>
    refine h.kept id ?_ ?_
    · intro live debt
      obtain flag | flag | flag := h.guarded live debt
      · exact .inl (by rw [neutral.shape]; exact flag)
      · exact .inr (.inl (neutral.startup flag))
      · exact .inr (.inr (by rw [neutral.shape]; exact flag))
    · refine h.attempting.still (.inl rfl) id ?_ ?_
      · rw [neutral.shape]
      · rw [neutral.shape]
  | pend => exact h.kept id (fun _ _ => Controller.guarded_of_lookup (AList.lookup_insert _)) trivial
  | started probed =>
    refine h.kept id (fun _ debt => absurd debt (not_owed_of_lastProbe probed)) ?_
    exact h.attempting.still (.inl rfl) id rfl rfl
  | enter | widen => exact h.kept id (fun _ => h.guarded nofun) trivial
  | leave live => exact h.kept id (fun _ => h.guarded (by simpa using live)) trivial
  | @quit σ =>
    refine h.kept id (fun live => h.guarded ?_) ?_
    · rintro ⟨⟩
      exact live rfl
    · cases σ <;> trivial
  | commit loaded permitted accepted => exact h.commit loaded permitted accepted occupied
  | @refuse σ _ w fault loaded permitted =>
    exact h.asked permitted (w.change.refused_isApply _ _) id (by cases σ <;> trivial)
  | @fail σ _ w db loaded permitted =>
    exact h.asked permitted (w.change.wrote_isApply _ _) id (by cases σ <;> trivial)
  | @lose σ _ w db loaded permitted | @land σ _ w db loaded permitted =>
    exact h.asked permitted (w.change.wrote_isApply _ _) occupied trivial
  | @flag σ w => exact h.kept id (fun _ _ => .inl rfl) (by cases σ <;> trivial)
  | adopt read replaced => exact h.adopt drifting read replaced
  | @abandon σ w _ r c applied read replaced =>
    obtain ⟨owner, load⟩ := Change.load_of_readback read
    have startup := h.reloaded load replaced
    exact h.kept id (fun _ debt => .inr (.inl (startup debt))) (by cases σ <;> trivial)
  | reload may read replaced =>
    have startup := h.reloaded (loadRecovery_of_loadReconcileRecovery read) replaced
    exact h.kept id (fun _ debt => .inr (.inl (startup debt))) trivial
  | die => exact h.kept id (fun live => absurd rfl live) trivial
  | boot => exact h.logged rfl id (fun live => absurd rfl live) trivial
  | restart read hydrates => exact h.restart read

end Barrier

end Steps

theorem Probing.split {newer older : List Event} {plan : OperationPlan} {ref : AttemptRef} {n : Nat}
    {mutated : Bool} {result : Except Fault ApplyResult} {before : Moment}
    (h : Probing env (newer ++ .applied plan ref n mutated result before :: older)) :
    ¬ owed older ∧ Fresh env plan older := by
  induction newer with
  | nil => exact h.1
  | cons head rest ih =>
    refine ih ?_
    by_cases isApply : head.isApply = true
    · cases head with
      | applied => exact h.2
      | _ => cases isApply
    · exact (probing_cons (by simpa using isApply)).mp h

section Claims

open Node

variable {env : Env} {nodeID : String} {steps : List (Step env.backend.Answer)}

theorem barrier_of_run : Barrier env (run env (initial nodeID) steps).phase.1
    (run env (initial nodeID) steps).phase.2 := by
  have path : Path env (fun _ => True) (initial nodeID).phase
      (run env (initial nodeID) steps).phase :=
    path_run_initial nodeID steps fun _ _ => trivial
  refine path.preserves (fun drifting step before => before.step drifting step) trivial ?_
  exact ⟨trivial, fun debt => (by cases debt.1), fun live => absurd rfl live, trivial⟩

/-- As long as a Probe is owed, over any restarts, the ledger has a row and the running process
holds one of the flags that keep it from applying. -/
theorem owed_probe_guarded (debt : owed (run env (initial nodeID) steps).trace) :
    Occupied (run env (initial nodeID) steps).db ∧
      ∀ c, (run env (initial nodeID) steps).process = some c → c.guarded := by
  have barrier := @barrier_of_run env nodeID steps
  refine ⟨by simpa using barrier.occupied (by simpa using debt), fun c runs => ?_⟩
  rw [phase_of_process runs] at barrier
  exact barrier.guarded (by simp) debt

end Claims

namespace Sample

def uncertain (domain : Domain) : Answer where
  probe := .ok { infrastructure := some infrastructure }
  apply := .ok { kind := .unknown, domain := domain }

def recovers : List (Step Answer) :=
  [⟨.restart, ticks 2 1⟩, ⟨.external (.publish (desired 1 1 1 [])), []⟩,
    ⟨.execute (plan (desired 1 1 1 []) .infrastructure), ticks 30 10 (uncertain .infrastructure)⟩,
    ⟨.probeRecovery, ticks 30 20 (uncertain .infrastructure)⟩,
    ⟨.execute (plan (desired 1 1 1 []) .policy), ticks 30 30 (uncertain .policy)⟩]

end Sample

open Sample in
theorem owed_probe_guarded_unknown :
    let node := Node.run (Sample.env false) (Node.initial Sample.nodeID) (recovers.take 2 ++
      [⟨.execute (plan (desired 1 1 1 []) .infrastructure),
        ticks 30 10 { apply := (uncertain .infrastructure).apply }⟩])
    owed node.trace ∧ Occupied node.db := by
  intro node
  have debt : owed node.trace := by
    unfold owed
    decide +kernel
  exact ⟨debt, (owed_probe_guarded debt).1⟩

end GuardWall.Reconcile
