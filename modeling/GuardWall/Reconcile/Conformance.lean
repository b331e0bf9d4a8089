import GuardWall.Reconcile.Persisting

/-! Every operation of the controller follows the protocol, whatever the surroundings do while
it runs and wherever it is cut off. -/
namespace GuardWall.Reconcile

open GuardWall.Core GuardWall.Foundation GuardWall.Store Session Controller
open Proc (wp wp_attempt wp_bind wp_fail wp_fold wp_imp wp_ite wp_mapError wp_mono wp_pure
  wp_read wp_step wp_step_attempt wp_step_mapError wp_step_or wp_step_sure wp_sure)

variable {env : Env} {plans : Command → Prop} {origin : Phase × Scene}
  {s : Session env.backend.Answer} {σ : Stage}

section Observations

theorem wp_lift {α : Type} {result : Except Fault α}
    {Q : Proc.Post (Session env.backend.Answer) Fault α}
    (ok : ∀ a, result = .ok a → Q.ok a s) (error : ∀ e, result = .error e → Q.error e s) :
    wp (Proc.lift result) s Q := by
  cases result with
  | ok a => exact ok a rfl
  | error e => exact error e rfl

theorem wp_targetExpirationFence {plan : OperationPlan} (h : At env plans origin (.settled σ) s) :
    wp (targetExpirationFence env plan) s
      ⟨fun _ t => (At env plans origin (.settled σ) t ∧ SameProbe s.toScene t.toScene ∧
          t.controller = s.controller) ∧ Unexpired plan t.trace,
        fun _ t => At env plans origin (.settled σ) t ∧ SameProbe s.toScene t.toScene ∧
          t.controller = s.controller,
        Reached env plans origin⟩ := by
  have done : At env plans origin (.settled σ) s ∧ SameProbe s.toScene s.toScene ∧
      s.controller = s.controller := ⟨h, SameProbe.refl _, rfl⟩
  unfold targetExpirationFence
  split
  · rename_i intent domain wanted
    split
    · rename_i expiry present expires
      simp only [wp_bind]
      refine wp_now (fun reading rest => ?_) h.reached
      simp only [wp_log]
      have noted : ∀ u : Session env.backend.Answer,
          u.toScene = s.toScene.logging (.checked plan reading) →
          At env plans origin (.settled σ) u ∧ SameProbe s.toScene u.toScene ∧
            u.controller = s.controller := by
        intro u same
        refine ⟨?_, ?_, ?_⟩
        · exact h.move (same ▸ .note trivial)
        · rw [same]
          exact ⟨rfl, rfl, fun _ member => List.mem_cons_of_mem _ member⟩
        · rw [same]
          rfl
      split
      · rename_i later
        refine ⟨noted _ rfl, ?_⟩
        intro intent' expiry' _ wanted' _ expires'
        rw [wanted] at wanted'
        cases wanted'
        rw [expires] at expires'
        cases expires'
        exact ⟨reading, s.trace, rfl, later⟩
      · simp only [wp_bind, wp_memory]
        split <;> exact noted _ rfl
    · rename_i unneeded
      refine ⟨done, ?_⟩
      intro intent' expiry _ wanted' present expires
      rw [wanted] at wanted'
      cases wanted'
      exact (unneeded expiry present expires).elim
  · rename_i unneeded
    refine ⟨done, ?_⟩
    intro intent expiry domain wanted _ _
    exact (unneeded intent domain wanted).elim

private theorem wp_nextObservedAt (h : At env plans origin (.settled σ) s) :
    wp (nextObservedAt env) s (keeps env plans origin σ s.toScene) := by
  unfold nextObservedAt
  simp only [wp_bind]
  refine wp_now (fun reading rest => ?_) h.reached
  simp only [wp_memory, wp_setMemory, wp_pure]
  exact ⟨h.move (.remember ⟨rfl, id⟩), ⟨rfl, rfl, fun _ member => member⟩, rfl⟩

def attests (env : Env) (plans : Command → Prop) (origin : Phase × Scene) (σ : Stage)
    (before : Scene) : Proc.Post (Session env.backend.Answer) Fault (Option ObservedUpdate) :=
  ⟨fun update t => (At env plans origin (.settled σ) t ∧ Kept before t.toScene) ∧
      ∀ observed, update = some observed → Attested t.controller t.trace observed,
    fun _ t => At env plans origin (.settled σ) t ∧ Kept before t.toScene,
    Reached env plans origin⟩

private theorem wp_checkUpdate {context : String} {update : ObservedUpdate} {before : Scene}
    (h : At env plans origin (.settled σ) s) (kept : Kept before s.toScene)
    (attested : Attested s.controller s.trace update) :
    wp (checkUpdate env context update) s (attests env plans origin σ before) := by
  unfold checkUpdate
  simp only [wp_bind]
  refine wp_lift (fun _ _ => ⟨⟨h, kept⟩, ?_⟩) (fun _ _ => ⟨h, kept⟩)
  rintro _ ⟨⟩
  exact attested

section Attesting

variable {c : Controller} {d : DesiredSnapshot} {trace : List Event} {snapshot : Snapshot}
  {observedAt : Instant}

theorem attested_snapshotUpdate (distinct : c.Distinct) (published : c.desired = some d)
    (probed : lastProbe trace = some snapshot) :
    Attested c trace (c.snapshotUpdate d snapshot observedAt) := by
  -- only a revision or generation that the snapshot shows is confirmed
  have shown : ∀ {slot : ReconcileKey} {version : Nat}, c.published? slot = some version →
      (if c.snapshotMatchesCurrentDesired snapshot slot then version else 0) ≠ 0 →
      Borne c trace slot
        (if c.snapshotMatchesCurrentDesired snapshot slot then version else 0) := by
    intro slot version current confirmed
    split at confirmed
    · rename_i seen
      rw [if_pos seen]
      exact ⟨current, snapshot, probed, seen⟩
    · exact absurd rfl confirmed
  refine ⟨?_, ?_, ?_⟩
  · rintro _ ⟨⟩ confirmed
    unfold observedInfrastructure at confirmed ⊢
    split at confirmed
    · exact absurd rfl confirmed
    · exact shown (by simp [published?, published]) confirmed
  · rintro _ ⟨⟩ confirmed
    unfold observedPolicy at confirmed ⊢
    split at confirmed
    · exact absurd rfl confirmed
    · exact shown (by simp [published?, published]) confirmed
  · intro o member confirmed
    obtain ⟨i, listed, rfl⟩ := List.mem_map.mp member
    have found : c.desiredTarget? i.canonicalTarget = some i := by
      unfold desiredTarget?
      rw [published]
      exact (target?_eq_some (distinct d published)).mpr ⟨listed, rfl⟩
    have current : c.published? (.target i.canonicalTarget) = some i.generation := by
      simp [published?, found]
    exact shown current confirmed

theorem attested_unknownUpdate {c' : Controller} {slot : ReconcileKey} {code : String} :
    Attested c' trace (c.unknownUpdate slot observedAt code) := by
  cases slot <;> constructor <;> simp [unknownUpdate, unknownInfrastructure, unknownPolicy,
    unknownTarget]

theorem attested_allUnknownUpdate {c' : Controller} {code : String} :
    Attested c' trace (c.allUnknownUpdate d observedAt code) := by
  constructor <;> simp [allUnknownUpdate, unknownInfrastructure, unknownPolicy, unknownTarget]

end Attesting

theorem At.distinct {phase : Phase} (h : At env plans origin phase s)
    (sound : Sound env plans origin) : s.controller.Distinct :=
  (Path.shaped h sound.drifting sound.shaped).distinct

theorem wp_observedUpdateForSnapshot {snapshot : Snapshot}
    (h : At env plans origin (.settled σ) s) (sound : Sound env plans origin)
    (probed : lastProbe s.trace = some snapshot) :
    wp (observedUpdateForSnapshot env snapshot) s (attests env plans origin σ s.toScene) := by
  unfold observedUpdateForSnapshot
  simp only [wp_bind, wp_memory]
  split
  · exact ⟨⟨h, Kept.refl _⟩, by simp⟩
  · rename_i d published
    simp only [wp_bind]
    refine wp_imp (wp_nextObservedAt h) ?_
    rintro observedAt t ⟨at_, kept⟩
    refine wp_checkUpdate at_ kept
      ((attested_snapshotUpdate (h.distinct sound) published probed).later ?_ kept.lastProbe)
    rw [kept.controller]

theorem wp_unknownObservedUpdate {slot : ReconcileKey} {code : String}
    (h : At env plans origin (.settled σ) s) :
    wp (unknownObservedUpdate env slot code) s (attests env plans origin σ s.toScene) := by
  unfold unknownObservedUpdate
  simp only [wp_bind, wp_memory]
  split
  · exact ⟨⟨h, Kept.refl _⟩, by simp⟩
  · simp only [wp_bind]
    refine wp_imp (wp_nextObservedAt h) ?_
    rintro observedAt t ⟨at_, kept⟩
    exact wp_ite (fun _ => ⟨at_, kept⟩)
      (fun _ => wp_checkUpdate at_ kept attested_unknownUpdate)

theorem wp_allUnknownObservedUpdate {code : String} (h : At env plans origin (.settled σ) s) :
    wp (allUnknownObservedUpdate env code) s (attests env plans origin σ s.toScene) := by
  unfold allUnknownObservedUpdate
  simp only [wp_bind, wp_memory]
  split
  · exact ⟨⟨h, Kept.refl _⟩, by simp⟩
  · simp only [wp_bind]
    refine wp_imp (wp_nextObservedAt h) ?_
    rintro observedAt t ⟨at_, kept⟩
    exact wp_checkUpdate at_ kept attested_allUnknownUpdate

theorem wp_recordAllUnknownObserved {code : String} (h : At env plans origin (.settled σ) s)
    (free : σ.free) :
    wp (recordAllUnknownObserved env code) s
      ⟨fun _ t => At env plans origin (.settled σ) t, fun _ t => At env plans origin (.settled σ) t,
        Reached env plans origin⟩ := by
  unfold recordAllUnknownObserved
  simp only [wp_bind]
  refine wp_sure (wp_lock h free) ?_
  rintro _ t ⟨at_, _⟩
  refine wp_mono (wp_allUnknownObservedUpdate at_) ?_ (fun _ _ h => h.1)
  rintro update u ⟨⟨at_, _⟩, attested⟩
  simp only [wp_mapError]
  exact wp_mono (wp_persistObserved at_ attested) (fun _ _ h => h.1) (fun _ _ h => h.1)

end Observations

section Writes

variable {ref : AttemptRef} {state : RetryState} {key : PendingProbeKey} {plan : OperationPlan}

theorem wp_persistedState {Q : Proc.Post (Session env.backend.Answer) Fault PersistedState}
    (next : ∀ at_ rest, Q.ok (s.controller.record ref state at_) { s with script := rest })
    (crash : Q.crash s) : wp (persistedState env ref state) s Q := by
  unfold persistedState
  simp only [wp_bind, wp_memory]
  exact wp_now (fun at_ rest => next at_ rest) crash

theorem wp_persistedProbe {attempt : Nat}
    {Q : Proc.Post (Session env.backend.Answer) Fault ProbeRequirement}
    (next : ∀ at_ rest, Q.ok (s.controller.requirement key ref attempt at_) { s with script := rest })
    (crash : Q.crash s) : wp (persistedProbe env key ref attempt) s Q := by
  unfold persistedProbe
  simp only [wp_bind, wp_memory]
  exact wp_now (fun at_ rest => next at_ rest) crash

theorem getState_of_state? {c : Controller} (h : c.state? ref = some state) :
    c.getState ref = state := by
  unfold getState
  rw [h]
  rfl

theorem At.ended (h : At env plans origin (.settled σ) s) :
    At env plans origin (.settled σ.ended) s := h.move .quit

/-- What is asked of a section that persists one of the writes `w`, whose times are the clock's, if
it knows the retry states it needs. -/
structure Asks {ι : Type} (w : ι → Write) (known : Prop) (s : Session env.backend.Answer)
    (Q : Proc.Post (Session env.backend.Answer) Fault Unit) : Prop where
  persist : known → ∀ i rest, wp (persist env (w i).change) { s with script := rest } Q
  missing : ∀ rest, Q.error (.text "pending Probe retry state is missing") { s with script := rest }
  crash : ∀ rest, Q.crash { s with script := rest }

def asks {ι : Type} (w : ι → Write) (env : Env) (plans : Command → Prop)
    (origin : Phase × Scene) (σ : Stage) (s : Scene) :
    Proc.Post (Session env.backend.Answer) Fault Unit :=
  ⟨fun _ t => ∃ i, Landed (w i) env plans origin s t,
    fun _ t => At env plans origin (.settled σ.ended) t, Reached env plans origin⟩

theorem At.asks {ι : Type} {w : ι → Write} {known : Prop} (h : At env plans origin (.settled σ) s)
    (loaded : s.controller.recoveryReloadNeeded = false)
    (permitted : known → ∀ i, Permitted env plans s.controller s.trace σ (w i)) :
    Asks w known s (asks w env plans origin σ s.toScene) where
  persist known i rest :=
    wp_mono (wp_persists (s := { s with script := rest }) h loaded (permitted known i))
      (fun _ _ landed => ⟨i, landed⟩) (fun _ _ ended => ended)
  missing _ := h.ended
  crash _ := h.reached

structure Times where
  updated : Instant
  recorded : Instant
  removed : Instant

variable {Q : Proc.Post (Session env.backend.Answer) Fault Unit}

theorem wp_persistApplyingState {started : Instant}
    (asked : Asks (fun i : Times =>
        Write.begin s.controller plan started i.updated i.recorded i.removed)
      (∀ old, s.controller.pendingProbes.lookup plan.key = some old →
        (s.controller.state? old).isSome) s Q) :
    wp (persistApplyingState env (s.controller.attemptRef plan)
        { status := .applying
          attemptCount := (s.controller.getState (s.controller.attemptRef plan)).attemptCount + 1
          lastAttemptAt := some started }
        plan.key (s.controller.pendingProbes.lookup plan.key)) s Q := by
  unfold persistApplyingState
  simp only [wp_bind]
  refine wp_persistedState (fun updated _ => ?_) (asked.crash _)
  refine wp_persistedProbe (fun recorded _ => ?_) (asked.crash _)
  cases previous : s.controller.pendingProbes.lookup plan.key with
  | none =>
    have persist := asked.persist (by simp [previous]) ⟨updated, recorded, updated⟩
    simp only [Write.begin, previous] at persist
    exact persist _
  | some old =>
    simp only [wp_bind, wp_memory]
    cases found : s.controller.state? old with
    | none => exact asked.missing _
    | some state =>
      simp only [wp_bind]
      refine wp_persistedProbe (fun removed _ => ?_) (asked.crash _)
      have persist := asked.persist (by simp [previous, found]) ⟨updated, recorded, removed⟩
      simp only [Write.begin, previous, Option.map_some, getState_of_state? found] at persist
      exact persist _

variable {observed : Option ObservedUpdate}

theorem wp_persistFailure {code : String} {next : Option Instant} {keep : Bool}
    (asked : Asks (fun i : Times =>
      Write.fail s.controller plan ref code next keep observed i.updated i.recorded) True s Q) :
    wp
      (if keep then persistStateKeepingProbe env ref
          (failedState (s.controller.getState ref) code next) plan.key observed
        else persistStateDroppingProbe env ref
          (failedState (s.controller.getState ref) code next) plan.key observed) s Q := by
  cases keep with
  | true =>
    simp only [if_true, persistStateKeepingProbe, wp_bind]
    refine wp_persistedState (fun updated _ => ?_) (asked.crash _)
    refine wp_persistedProbe (fun recorded _ => ?_) (asked.crash _)
    exact asked.persist trivial ⟨updated, recorded, updated⟩ _
  | false =>
    simp only [Bool.false_eq_true, if_false, persistStateDroppingProbe, wp_bind]
    refine wp_persistedState (fun updated _ => ?_) (asked.crash _)
    refine wp_persistedProbe (fun recorded _ => ?_) (asked.crash _)
    exact asked.persist trivial ⟨updated, recorded, updated⟩ _

theorem wp_persistConverged
    (asked : Asks (fun i : Times =>
      Write.converge s.controller plan ref observed i.updated i.removed) True s Q) :
    wp (persistStateDroppingProbe env ref (s.controller.getState ref).converge plan.key
      observed) s Q := by
  unfold persistStateDroppingProbe
  simp only [wp_bind]
  refine wp_persistedState (fun updated _ => ?_) (asked.crash _)
  refine wp_persistedProbe (fun removed _ => ?_) (asked.crash _)
  exact asked.persist trivial ⟨updated, updated, removed⟩ _

theorem wp_persistRetirement (drop : Bool) (stage : Stage)
    (asked : Asks (fun i : Times =>
        Write.retire s.controller ref key drop stage i.updated i.removed)
      (s.controller.state? ref).isSome s Q) :
    wp
      (if (ref ∈ s.controller.syntheticRefs ∧ (s.controller.staleRow ref key).1 = ref) ∨
          ¬ sameAttemptPhysicalKey ref (s.controller.staleRow ref key).1 then
        clearProbe env key ref
      else persistStateAndClearProbe env (s.controller.staleRow ref key).1
        (s.controller.staleRow ref key).2 key ref) s Q := by
  refine wp_ite (fun clears => ?_) (fun persists => ?_)
  · have clearsOnly : s.controller.clearsOnly ref (s.controller.staleRow ref key).1 = true :=
      decide_eq_true clears
    simp only [clearProbe, wp_bind, wp_memory]
    cases found : s.controller.state? ref with
    | none => exact asked.missing _
    | some state =>
      simp only [wp_bind]
      refine wp_persistedProbe (fun removed _ => ?_) (asked.crash _)
      have persist := asked.persist (by simp [found]) ⟨removed, removed, removed⟩
      simp only [Write.retire, clearsOnly, if_true, getState_of_state? found] at persist
      exact persist _
  · have persistsToo : s.controller.clearsOnly ref (s.controller.staleRow ref key).1 = false :=
      decide_eq_false persists
    simp only [persistStateAndClearProbe, wp_bind, wp_memory]
    cases found : s.controller.state? ref with
    | none => exact asked.missing _
    | some state =>
      simp only [wp_bind]
      refine wp_persistedState (fun updated _ => ?_) (asked.crash _)
      refine wp_persistedProbe (fun removed _ => ?_) (asked.crash _)
      have persist := asked.persist (by simp [found]) ⟨updated, updated, removed⟩
      simp only [Write.retire, persistsToo, Bool.false_eq_true, if_false,
        getState_of_state? found] at persist
      exact persist _

theorem wp_persistRecovery (row : AttemptRef × RetryState) (stage : Stage) {pendingRef : AttemptRef}
    (asked : Asks (fun i : Times =>
        Write.recover s.controller row key pendingRef stage i.updated i.removed)
      (s.controller.state? pendingRef).isSome s Q) :
    wp (persistStateAndClearProbe env row.1 row.2.converge key pendingRef) s Q := by
  simp only [persistStateAndClearProbe, wp_bind, wp_memory]
  cases found : s.controller.state? pendingRef with
  | none => exact asked.missing _
  | some state =>
    simp only [wp_bind]
    refine wp_persistedState (fun updated _ => ?_) (asked.crash _)
    refine wp_persistedProbe (fun removed _ => ?_) (asked.crash _)
    have persist := asked.persist (by simp [found]) ⟨updated, updated, removed⟩
    simp only [Write.recover, getState_of_state? found] at persist
    exact persist _

theorem wp_persistState (stage : Stage)
    (asked : Asks (fun i : Times => Write.plain s.controller ref state stage i.updated) True s Q) :
    wp (persistState env ref state) s Q := by
  unfold persistState
  simp only [wp_bind]
  refine wp_persistedState (fun updated _ => ?_) (asked.crash _)
  exact asked.persist trivial ⟨updated, updated, updated⟩ _

end Writes

section Attempts

variable {plan : OperationPlan} {ref : AttemptRef}

theorem Based.later {c : Controller} {trace trace' : List Event}
    (h : Based env c trace plan) (probe : lastProbe trace' = lastProbe trace) :
    Based env c trace' plan := by
  obtain ⟨snapshot, newest, bound⟩ | unneeded := h
  · exact .inl ⟨snapshot, probe.trans newest, bound⟩
  · exact .inr unneeded

theorem wp_beginAttemptLocked {left : PendingProbeKey → Prop}
    (h : At env plans origin (.settled (.resolving left)) s)
    (loaded : s.controller.recoveryReloadNeeded = false) (asked : Asked env plans plan)
    (resolved : ∀ key, left key → s.controller.pendingKeyMatchesCurrentDesired key = true)
    (current : s.controller.planMatchesCurrentDesired plan = true)
    (based : Based env s.controller s.trace plan) :
    wp (beginAttemptLocked env plan) s (follows env plans origin fun ref t =>
      At env plans origin (.settled (.begun plan ref)) t ∧
      t.controller.recoveryReloadNeeded = false ∧ SameProbe s.toScene t.toScene) := by
  have live : Stage.resolving left ≠ .dead := by simp
  unfold beginAttemptLocked
  simp only [wp_bind]
  refine wp_mono (wp_targetExpirationFence h) ?_ (fun _ _ e => e.1.stopped live)
  rintro _ t ⟨⟨at_, probe, memory⟩, _⟩
  rw [← memory] at loaded resolved current based
  replace based := based.later probe.lastProbe
  simp only [wp_memory]
  refine wp_now (fun started rest => ?_) at_.reached
  refine wp_ite (fun _ => at_.stopped live) (fun budget => ?_)
  refine wp_ite (fun _ => at_.stopped live) (fun ready => ?_)
  replace at_ : At env plans origin (.settled (.resolving left)) { t with script := rest } := at_
  rw [not_or, not_le] at budget
  have permitted : (∀ old, t.controller.pendingProbes.lookup plan.key = some old →
        (t.controller.state? old).isSome) →
      ∀ i : Times, Permitted env plans t.controller t.trace (.resolving left)
        (.begin t.controller plan started i.updated i.recorded i.removed) := by
    intro known i
    refine .begin asked resolved current budget.1 budget.2 ?_ based known
    intro waiting next found
    simpa [waiting, found] using ready
  simp only [wp_bind, wp_mapError]
  refine wp_mono (wp_persistApplyingState (at_.asks loaded permitted)) ?_
    (fun _ _ e => e.stopped (by rintro ⟨⟩))
  rintro _ u ⟨i, landed⟩
  exact ⟨landed.path, landed.loaded, (probe.trans landed.toSameProbe).setting _⟩

variable {canRetry : Bool} {code : String}

theorem wp_nextAttempt {state : RetryState} (h : At env plans origin (.settled σ) s) :
    wp (nextAttempt env state canRetry) s ⟨fun next t =>
        At env plans origin (.settled σ) t ∧ SameProbe s.toScene t.toScene ∧
        t.controller = s.controller ∧ Counted t.trace state next ∧
        (canRetry = false → next = none),
      fun _ _ => False, Reached env plans origin⟩ := by
  unfold nextAttempt
  refine wp_ite (fun _ => ?_) (fun budget => ?_)
  · exact ⟨h, SameProbe.refl _, rfl, nofun, fun _ => rfl⟩
  · simp only [wp_bind]
    refine wp_now (fun reading rest => ?_) h.reached
    simp only [wp_log]
    have noted := h.move (t := { s with
      script := rest, trace := .failing state reading :: s.trace }) (.note trivial)
    rw [Bool.not_eq_true, Bool.or_eq_false_iff] at budget
    split
    · exact noted.reached
    · rename_i delay index
      refine ⟨noted, ⟨rfl, rfl, fun _ member => List.mem_cons_of_mem _ member⟩, rfl, ?_, ?_⟩
      · rintro at_ ⟨⟩
        exact ⟨reading, delay, List.mem_cons_self, by simpa using budget.2, index, rfl⟩
      · intro refused
        simp [refused] at budget

theorem wp_finishFailureLocked {keep : Bool} {observed : Option ObservedUpdate}
    (h : At env plans origin (.settled σ) s) (loaded : s.controller.recoveryReloadNeeded = false)
    (stage : σ = .applied plan ref ∧ (keep = false → answered s.trace = true) ∨
      σ = .begun plan ref ∧ canRetry = false ∧ keep = false ∧ observed = none)
    (attested : ∀ update, observed = some update → Attested s.controller s.trace update) :
    wp (finishFailureLocked env ref plan.key code canRetry keep observed) s
      (follows env plans origin fun _ t => At env plans origin (.settled .idle) t) := by
  unfold finishFailureLocked
  simp only [wp_bind, wp_memory]
  refine wp_sure (wp_nextAttempt h) ?_
  rintro next t ⟨at_, probe, memory, counted, final⟩
  rw [← memory] at loaded counted ⊢
  have permitted : ∀ i : Times, Permitted env plans t.controller t.trace σ
      (.fail t.controller plan ref code next keep observed i.updated i.recorded) := by
    intro i
    obtain ⟨rfl, settled⟩ | ⟨rfl, refused, rfl, rfl⟩ := stage
    · refine .failApplied counted (fun dropped => probe.answered.trans (settled dropped)) ?_
      exact fun update same => (attested update same).later (by rw [memory]) probe.lastProbe
    · rw [final refused]
      exact .failBegun
  have ended : σ.ended = .ending plan ref := by
    obtain ⟨rfl, _⟩ | ⟨rfl, _⟩ := stage <;> rfl
  simp only [wp_attempt]
  refine wp_mono (wp_persistFailure (at_.asks loaded fun _ => permitted)) ?_ ?_
  · rintro _ u ⟨i, landed⟩
    simp only [wp_bind, wp_setMemory]
    cases keep <;> exact landed.path
  · intro err u failed
    change At env plans origin (.settled σ.ended) u at failed
    rw [ended] at failed
    simp only [wp_bind, setPending, wp_setMemory, wp_fail]
    exact (failed.move .pend).stopped (by simp)

theorem Meanwhile.loaded {s t : Scene} (meanwhile : Meanwhile s t)
    (loaded : s.controller.recoveryReloadNeeded = false) :
    t.controller.recoveryReloadNeeded = false := by
  rw [meanwhile.controller.recoveryReloadNeeded, loaded]

theorem Kept.loaded {s t : Scene} (kept : Kept s t)
    (loaded : s.controller.recoveryReloadNeeded = false) :
    t.controller.recoveryReloadNeeded = false := by
  rw [kept.controller]
  exact loaded

theorem wp_finishFailure (h : At env plans origin (.settled σ) s)
    (loaded : s.controller.recoveryReloadNeeded = false)
    (stage : σ = .applied plan ref ∧ answered s.trace = true ∨
      σ = .begun plan ref ∧ canRetry = false) :
    wp (finishFailure env ref plan.key code canRetry) s
      (follows env plans origin fun _ t => At env plans origin (.settled .idle) t) := by
  have free : σ.free := by
    obtain ⟨rfl, _⟩ | ⟨rfl, _⟩ := stage <;> trivial
  unfold finishFailure
  simp only [wp_bind]
  refine wp_sure (wp_lock h free) ?_
  rintro _ t ⟨at_, meanwhile⟩
  refine wp_finishFailureLocked at_ (meanwhile.loaded loaded) ?_ (by simp)
  obtain ⟨rfl, settled⟩ | ⟨rfl, refused⟩ := stage
  · exact .inl ⟨rfl, fun _ => meanwhile.answered.trans settled⟩
  · exact .inr ⟨rfl, refused, rfl, rfl⟩

theorem wp_finishFailureAndRequireProbeObserved {allDomains : Bool}
    (h : At env plans origin (.settled (.applied plan ref)) s)
    (loaded : s.controller.recoveryReloadNeeded = false) :
    wp (finishFailureAndRequireProbeObserved env ref plan.key code allDomains) s
      (follows env plans origin fun _ t => At env plans origin (.settled .idle) t) := by
  unfold finishFailureAndRequireProbeObserved
  simp only [wp_bind]
  refine wp_sure (wp_lock h trivial) ?_
  rintro _ t ⟨at_, meanwhile⟩
  have finish : ∀ (update : Option ObservedUpdate) (u : Session env.backend.Answer),
      (At env plans origin (.settled (.applied plan ref)) u ∧ Kept t.toScene u.toScene) ∧
        (∀ observed, update = some observed → Attested u.controller u.trace observed) →
      wp (finishFailureLocked env ref plan.key code true true update) u
        (follows env plans origin fun _ t => At env plans origin (.settled .idle) t) := by
    rintro update u ⟨⟨at_, kept⟩, attested⟩
    exact wp_finishFailureLocked at_ (kept.loaded (meanwhile.loaded loaded)) (.inl ⟨rfl, by simp⟩)
      attested
  refine wp_ite (fun _ => ?_) (fun _ => ?_)
  · simp only [wp_bind]
    exact wp_mono (wp_allUnknownObservedUpdate at_) finish (fun _ _ e => e.1.stopped (by simp))
  · simp only [wp_bind]
    exact wp_mono (wp_unknownObservedUpdate at_) finish (fun _ _ e => e.1.stopped (by simp))

end Attempts

def Controller.without (c : Controller) : Option PendingProbeKey → Controller
  | none => c
  | some key => { c with pendingProbes := c.pendingProbes.erase key }

structure Finished (stage : Stage) (drop : Option PendingProbeKey) (env : Env)
    (plans : Command → Prop) (origin : Phase × Scene) (s : Scene)
    (t : Session env.backend.Answer) : Prop extends SameProbe s t.toScene where
  path : Path env plans origin
    (.settled stage, { t.toScene with controller := t.controller.without drop })
  loaded : t.controller.recoveryReloadNeeded = false
  desired : t.controller.desired = s.controller.desired

def finishes (stage : Stage) (drop : Option PendingProbeKey) (env : Env)
    (plans : Command → Prop) (origin : Phase × Scene) (σ : Stage) (s : Scene) :
    Proc.Post (Session env.backend.Answer) Fault Unit :=
  ⟨fun _ t => Finished stage drop env plans origin s t,
    fun _ t => At env plans origin (.settled σ.ended) t, Reached env plans origin⟩

section Finishing

variable {stage : Stage} {drop : Option PendingProbeKey}

variable {before : Scene} {ref : AttemptRef}

variable {slot : ReconcileKey} {version : Nat} {w : Write} {f : Controller → Controller}
  {key : PendingProbeKey} {plan : OperationPlan}

private theorem wp_confirmTarget (h : Finished stage drop env plans origin before s)
    (borne : ∀ t, slot = .target t → Borne before.controller before.trace (.target t) version) :
    wp (confirmTarget env slot version) s (finishes stage drop env plans origin σ before) := by
  unfold confirmTarget
  split
  · rename_i t
    have borne := borne t rfl
    simp only [wp_bind, wp_read, wp_log, wp_setMemory]
    refine ⟨⟨h.lastProbe, h.answered, fun event member => List.mem_cons_of_mem _
      (h.recorded event member)⟩, ?_, h.loaded, h.desired⟩
    refine Path.move h.path ?_
    cases drop with
    | none | some => exact .confirm (borne.later h.desired h.lastProbe) rfl rfl
  · exact h

private theorem wp_setFinished (landed : Landed w env plans origin before s)
    (success : ∀ c, w.success c = (f c).without drop) (stageEq : w.stage = stage)
    (loaded : ∀ c, (f c).recoveryReloadNeeded = c.recoveryReloadNeeded)
    (desired : ∀ c, (f c).desired = c.desired) :
    wp (setMemory env f) s (finishes stage drop env plans origin σ before) := by
  refine ⟨⟨landed.lastProbe, landed.answered, landed.recorded⟩, ?_, ?_, ?_⟩
  · have path := landed.path
    rw [stageEq, success] at path
    exact path
  · exact (loaded s.controller).trans landed.loaded
  · exact (desired s.controller).trans landed.desired

private theorem wp_setConfirmed (landed : Landed w env plans origin before s)
    (success : ∀ c, w.success c = (f c).without drop) (stageEq : w.stage = stage)
    (loaded : ∀ c, (f c).recoveryReloadNeeded = c.recoveryReloadNeeded)
    (desired : ∀ c, (f c).desired = c.desired)
    (borne : ∀ t, slot = .target t → Borne before.controller before.trace (.target t) version) :
    wp (setMemory env f) s
      ⟨fun _ t => wp (confirmTarget env slot version) t
          (finishes stage drop env plans origin σ before),
        fun _ t => At env plans origin (.settled σ.ended) t, Reached env plans origin⟩ :=
  wp_imp (wp_setFinished landed success stageEq loaded desired)
    (fun _ _ finished => wp_confirmTarget finished borne)

variable (h : At env plans origin (.settled σ) s)
  (loaded : s.controller.recoveryReloadNeeded = false)

include h loaded

theorem wp_finishStale (drops : Bool) (permitted : (s.controller.state? ref).isSome → ∀ i : Times,
      Permitted env plans s.controller s.trace σ
        (.retire s.controller ref key drops stage i.updated i.removed)) :
    wp (finishStale env ref key) s
      (finishes stage (if drops then some key else none) env plans origin σ s.toScene) := by
  unfold finishStale
  simp only [wp_bind, wp_memory, wp_mapError]
  refine wp_imp (wp_persistRetirement _ _ (h.asks loaded permitted)) ?_
  rintro _ t ⟨i, landed⟩
  dsimp only
  refine wp_setFinished landed ?_ rfl (fun _ => rfl) (fun _ => rfl)
  intro c
  cases drops <;> rfl

theorem wp_finishConverged {observed : Option ObservedUpdate}
    (permitted : ∀ i : Times, Permitted env plans s.controller s.trace σ
      (.converge s.controller plan ref observed i.updated i.removed))
    (borne : ∀ t, plan.slot = .target t →
      Borne s.controller s.trace (.target t) plan.key.targetGeneration) :
    wp (finishConverged env ref plan observed) s
      (finishes .idle (some plan.key) env plans origin σ s.toScene) := by
  unfold finishConverged
  simp only [wp_bind, wp_memory, wp_mapError]
  refine wp_imp (wp_persistConverged (h.asks loaded fun _ => permitted)) ?_
  rintro _ t ⟨i, landed⟩
  dsimp only
  exact wp_setConfirmed landed (fun _ => rfl) rfl (fun _ => rfl) (fun _ => rfl) borne

theorem wp_finishRecoveredByProbe (permitted : (s.controller.state? ref).isSome → ∀ i : Times,
      Permitted env plans s.controller s.trace σ
        (.recover s.controller
          (s.controller.attemptRef plan, s.controller.getState (s.controller.attemptRef plan))
          plan.key ref stage i.updated i.removed)) (borne : ∀ t, plan.slot = .target t →
      Borne s.controller s.trace (.target t) plan.key.targetGeneration) :
    wp (finishRecoveredByProbe env plan ref) s
      (finishes stage (some plan.key) env plans origin σ s.toScene) := by
  unfold finishRecoveredByProbe
  simp only [wp_bind, wp_memory, wp_mapError]
  refine wp_imp (wp_persistRecovery _ _ (h.asks loaded permitted)) ?_
  rintro _ t ⟨i, landed⟩
  dsimp only
  exact wp_setConfirmed landed (fun _ => rfl) rfl (fun _ => rfl) (fun _ => rfl) borne

theorem wp_finishRecoveredPending (permitted : (s.controller.state? ref).isSome → ∀ i : Times,
      Permitted env plans s.controller s.trace σ
        (.recover s.controller
          ((s.controller.currentStateForPendingKey key).getD (ref, s.controller.getState ref))
          key ref stage i.updated i.removed)) (borne : ∀ t, key.slot = .target t →
      Borne s.controller s.trace (.target t) key.targetGeneration) :
    wp (finishRecoveredPending env ref key) s
      (finishes stage (some key) env plans origin σ s.toScene) := by
  unfold finishRecoveredPending
  simp only [wp_bind, wp_memory, wp_mapError]
  refine wp_imp (wp_persistRecovery _ _ (h.asks loaded permitted)) ?_
  rintro _ t ⟨i, landed⟩
  dsimp only
  exact wp_setConfirmed landed (fun _ => rfl) rfl (fun _ => rfl) (fun _ => rfl) borne

end Finishing

namespace Controller

variable {c : Controller} {key : PendingProbeKey}

theorem currentRef?_of_pendingKeyMatches (h : c.pendingKeyMatchesCurrentDesired key = true) :
    c.currentRef? key.slot = some (key.ref (c.epochs key.slot)) := by
  unfold pendingKeyMatchesCurrentDesired at h
  unfold currentRef? published? PhysicalKey.ref PhysicalKey.slot PhysicalKey.version
  cases found : c.desired with
  | none => simp [found] at h
  | some d =>
    simp only [found] at h
    cases domain : key.domain with
    | infrastructure =>
      simp only [domain, Bool.and_eq_true, beq_iff_eq] at h
      simp [h.1]
    | policy =>
      simp only [domain, beq_iff_eq] at h
      simp [h]
    | target =>
      simp only [domain] at h
      cases intent : d.target? key.target with
      | none => simp [intent] at h
      | some i =>
        simp only [intent, beq_iff_eq] at h
        simp [desiredTarget?, found, intent, h]

theorem borne_of_pendingKeyMatches {trace : List Event}
    (current : c.pendingKeyMatchesCurrentDesired key = true) (seen : Seen c trace key.slot)
    (t : Prefix) (slot : key.slot = .target t) :
    Borne c trace (.target t) key.targetGeneration := by
  have published : c.published? key.slot = some key.version := by
    have found := currentRef?_of_pendingKeyMatches current
    obtain ⟨version, published, same⟩ := Option.map_eq_some_iff.mp found
    have version : version = key.version := congrArg AttemptRef.version same
    rw [published, version]
  have version : key.version = key.targetGeneration := by
    unfold PhysicalKey.slot at slot
    unfold PhysicalKey.version
    cases domain : key.domain with
    | target => rfl
    | infrastructure | policy => simp [domain] at slot
  rw [slot] at published seen
  exact ⟨version ▸ published, seen⟩

theorem currentStateForPendingKey_eq_some {row : AttemptRef × RetryState}
    (h : c.currentStateForPendingKey key = some row) :
    c.currentRef? key.slot = some row.1 ∧ c.state? row.1 = some row.2 := by
  unfold currentStateForPendingKey at h
  rw [Option.bind_eq_some_iff] at h
  obtain ⟨ref, current, h⟩ := h
  rw [Option.map_eq_some_iff] at h
  obtain ⟨state, found, rfl⟩ := h
  exact ⟨current, found⟩

end Controller

section Resolution

variable {d : Option DesiredSnapshot} {snapshot : Snapshot} {todo : List PendingProbeKey}
  {key : PendingProbeKey} {ref : AttemptRef}

def Unresolved (c : Controller) (snapshot : Snapshot) (key : PendingProbeKey) : Prop :=
  c.pendingKeyMatchesCurrentDesired key = true ∧
    c.snapshotMatchesCurrentDesired snapshot key.slot = false

structure Resolving (env : Env) (plans : Command → Prop) (origin : Phase × Scene)
    (d : Option DesiredSnapshot) (snapshot : Snapshot) (todo : List PendingProbeKey)
    (s : Session env.backend.Answer) : Prop where
  accounted : ∃ left : PendingProbeKey → Prop, At env plans origin (.settled (.resolving left)) s ∧
    ∀ key, left key → key ∈ todo ∨ Unresolved s.controller snapshot key
  loaded : s.controller.recoveryReloadNeeded = false
  desired : s.controller.desired = d
  probed : lastProbe s.trace = some snapshot

namespace Resolving

theorem stopped (h : Resolving env plans origin d snapshot todo s) : Stopped env plans origin s := by
  obtain ⟨left, at_, _⟩ := h.accounted
  exact at_.stopped nofun

theorem skip (h : Resolving env plans origin d snapshot (key :: todo) s)
    (unresolved : Unresolved s.controller snapshot key) :
    Resolving env plans origin d snapshot todo s := by
  obtain ⟨left, at_, accounted⟩ := h.accounted
  refine ⟨⟨left, at_, ?_⟩, h.loaded, h.desired, h.probed⟩
  intro other held
  obtain member | kept := accounted other held
  · obtain rfl | member := List.mem_cons.mp member
    · exact .inr unresolved
    · exact .inl member
  · exact .inr kept

private theorem drop {left : PendingProbeKey → Prop} {t : Session env.backend.Answer}
    (h : Resolving env plans origin d snapshot (key :: todo) s)
    (accounted : ∀ other, left other →
      other ∈ key :: todo ∨ Unresolved s.controller snapshot other)
    (finished : Finished (.resolving fun other => left other ∧ other ≠ key) (some key)
      env plans origin s.toScene t) :
    Resolving env plans origin d snapshot todo
      { t with controller := { t.controller with
        pendingProbes := t.controller.pendingProbes.erase key } } := by
  have same := finished.desired
  refine ⟨⟨_, finished.path, ?_⟩, finished.loaded, same.trans h.desired,
    finished.lastProbe.trans h.probed⟩
  rintro other ⟨held, different⟩
  obtain member | ⟨matched, unseen⟩ := accounted other held
  · exact .inl ((List.mem_cons.mp member).resolve_left different)
  · refine .inr ⟨?_, ?_⟩
    · rw [← matched]
      exact pendingKeyMatches_congr same other
    · rw [← unseen]
      exact snapshotMatches_congr same snapshot other.slot

def turn {α : Type} (env : Env) (plans : Command → Prop) (origin : Phase × Scene)
    (d : Option DesiredSnapshot) (snapshot : Snapshot) (todo : List PendingProbeKey) :
    Proc.Post (Session env.backend.Answer) Fault α :=
  follows env plans origin fun _ t => Resolving env plans origin d snapshot todo t

variable {α : Type} {a : α}

theorem wp_retire (h : Resolving env plans origin d snapshot (key :: todo) s)
    (names : key.names ref) (stale : s.controller.pendingKeyMatchesCurrentDesired key = false) :
    wp (do finishStale env ref key; dropPending env key; return a : Act env α) s
      (turn env plans origin d snapshot todo) := by
  obtain ⟨left, at_, accounted⟩ := h.accounted
  simp only [wp_bind]
  refine wp_mono (wp_finishStale at_ h.loaded true
    (fun known i => .retirePending (by rw [h.probed]; rfl) stale known names)) ?_ ?_
  · rintro _ t finished
    exact drop h accounted finished
  · intro _ t ended
    exact At.stopped ended (by rintro ⟨⟩)

theorem wp_recoverPending (h : Resolving env plans origin d snapshot (key :: todo) s)
    (names : key.names ref) (current : s.controller.pendingKeyMatchesCurrentDesired key = true)
    (shown : s.controller.snapshotMatchesCurrentDesired snapshot key.slot = true) :
    wp (do finishRecoveredPending env ref key; dropPending env key; return a : Act env α) s
      (turn env plans origin d snapshot todo) := by
  obtain ⟨left, at_, accounted⟩ := h.accounted
  simp only [wp_bind]
  have seen : Seen s.controller s.trace key.slot := ⟨snapshot, h.probed, shown⟩
  refine wp_mono (wp_finishRecoveredPending at_ h.loaded
    (fun known i => .recover current seen known names ?_)
    (borne_of_pendingKeyMatches current seen)) ?_ ?_
  · cases found : s.controller.currentStateForPendingKey key with
    | none => exact .inl ⟨rfl, rfl⟩
    | some row =>
      obtain ⟨currentRef, state⟩ := currentStateForPendingKey_eq_some found
      exact .inr ⟨currentRef, (getState_of_state? state).symm⟩
  · rintro _ t finished
    exact drop h accounted finished
  · intro _ t ended
    exact At.stopped ended (by rintro ⟨⟩)

theorem wp_recoverByProbe {plan : OperationPlan}
    (h : Resolving env plans origin d snapshot (plan.key :: todo) s) (names : plan.key.names ref)
    (current : s.controller.pendingKeyMatchesCurrentDesired plan.key = true)
    (shown : s.controller.snapshotMatchesCurrentDesired snapshot plan.key.slot = true) :
    wp (do finishRecoveredByProbe env plan ref; dropPending env plan.key; return a :
        Act env α) s
      (turn env plans origin d snapshot todo) := by
  obtain ⟨left, at_, accounted⟩ := h.accounted
  simp only [wp_bind]
  have seen : Seen s.controller s.trace plan.key.slot := ⟨snapshot, h.probed, shown⟩
  refine wp_mono (wp_finishRecoveredByProbe at_ h.loaded
    (fun known i => .recover current seen known names
      (.inr ⟨currentRef?_of_pendingKeyMatches current, rfl⟩))
    (borne_of_pendingKeyMatches current seen)) ?_ ?_
  · rintro _ t finished
    exact drop h accounted finished
  · intro _ t ended
    exact At.stopped ended (by rintro ⟨⟩)

private theorem wp_turn {retired unresolved : α} {recover : Act env α}
    (h : Resolving env plans origin d snapshot (key :: todo) s) (names : key.names ref)
    (recovers : s.controller.pendingKeyMatchesCurrentDesired key = true →
      s.controller.snapshotMatchesCurrentDesired snapshot key.slot = true →
      wp recover s (turn env plans origin d snapshot todo)) :
    wp
      (if !s.controller.pendingKeyMatchesCurrentDesired key then do
        finishStale env ref key
        dropPending env key
        return retired
      else if !s.controller.snapshotMatchesCurrentDesired snapshot key.slot then return unresolved
      else recover : Act env α) s (turn env plans origin d snapshot todo) := by
  refine wp_ite (fun stale => h.wp_retire names (by simpa using stale)) (fun current => ?_)
  have current : s.controller.pendingKeyMatchesCurrentDesired key = true := by simpa using current
  refine wp_ite (fun unseen => h.skip ⟨current, by simpa using unseen⟩) (fun shown => ?_)
  exact recovers current (by simpa using shown)

theorem wp_resolvePendingProbe {plan : OperationPlan} {recovered : Bool}
    (h : Resolving env plans origin d snapshot (key :: todo) s) (names : key.names ref) :
    wp (resolvePendingProbe env snapshot plan recovered (key, ref)) s
      (turn env plans origin d snapshot todo) := by
  unfold resolvePendingProbe
  rw [wp_memory_bind]
  refine h.wp_turn names (fun current shown => ?_)
  refine wp_ite (fun same => ?_) (fun _ => h.wp_recoverPending names current shown)
  subst same
  exact h.wp_recoverByProbe names current shown

theorem wp_recoverHealth {outcome : RecoveryOutcome}
    (h : Resolving env plans origin d snapshot (key :: todo) s) (names : key.names ref) :
    wp (recoverPending env snapshot outcome (key, ref)) s
      (turn env plans origin d snapshot todo) := by
  unfold recoverPending
  rw [wp_memory_bind]
  exact h.wp_turn names fun current shown => h.wp_recoverPending names current shown

theorem wp_recoverStartupPending {progress : StartupProgress}
    (h : Resolving env plans origin d snapshot (key :: todo) s) (names : key.names ref) :
    wp (recoverStartupPending env snapshot progress (key, ref)) s
      (turn env plans origin d snapshot todo) := by
  unfold recoverStartupPending
  rw [wp_memory_bind]
  exact h.wp_turn names fun current shown => h.wp_recoverPending names current shown

theorem wp_loop {β : Type} {body : β → PendingProbeKey × AttemptRef → Act env β}
    (turns : ∀ {s : Session env.backend.Answer} {key ref todo acc},
      Resolving env plans origin d snapshot (key :: todo) s → key.names ref →
      wp (body acc (key, ref)) s (turn env plans origin d snapshot todo))
    (entries : List (PendingProbeKey × AttemptRef)) (acc : β)
    (named : ∀ entry ∈ entries, entry.1.names entry.2)
    (h : Resolving env plans origin d snapshot (entries.map Prod.fst) s) :
    wp (Proc.fold body entries acc) s (turn env plans origin d snapshot []) := by
  refine wp_fold
    (fun rest _ s => Resolving env plans origin d snapshot (rest.map Prod.fst) s ∧
      ∀ entry ∈ rest, entry.1.names entry.2) ?_ ?_ entries acc s ⟨h, named⟩
  · rintro ⟨key, ref⟩ rest acc s ⟨inv, named⟩
    have later : ∀ entry ∈ rest, entry.1.names entry.2 :=
      fun entry member => named entry (List.mem_cons_of_mem _ member)
    exact wp_imp (turns inv (named _ List.mem_cons_self)) (fun _ _ inv => ⟨inv, later⟩)
  · rintro acc s ⟨inv, _⟩
    exact inv

theorem enter {order : List Nat} (h : At env plans origin (.settled .idle) s)
    (loaded : s.controller.recoveryReloadNeeded = false)
    (probed : lastProbe s.trace = some snapshot) :
    Resolving env plans origin s.controller.desired snapshot
      ((s.controller.pendingProbes.range order).map Prod.fst) s := by
  refine ⟨⟨fun key => key ∈ (s.controller.pendingProbes.range order).map Prod.fst,
    h.move (.enter ?_), fun _ member => .inl member⟩, loaded, rfl, probed⟩
  intro key ref found
  exact List.mem_map.mpr ⟨(key, ref), Table.mem_range.mpr found, rfl⟩

end Resolving

end Resolution

structure Confirming (s t : Scene) : Prop extends SameProbe s t where
  controller : t.controller =
    { s.controller with confirmedTargets := t.controller.confirmedTargets }

theorem wp_confirm {slot : ReconcileKey} {version : Nat}
    (h : At env plans origin (.settled σ) s)
    (borne : ∀ t, slot = .target t → Borne s.controller s.trace (.target t) version) :
    wp (confirmTarget env slot version) s (proceeds env plans origin fun _ t =>
      At env plans origin (.settled σ) t ∧ Confirming s.toScene t.toScene) := by
  unfold confirmTarget
  split
  · rename_i t
    simp only [wp_bind, wp_read, wp_log, wp_setMemory]
    exact ⟨h.move (.confirm (borne t rfl) rfl rfl),
      ⟨rfl, rfl, fun _ member => List.mem_cons_of_mem _ member⟩, rfl⟩
  · exact ⟨h, SameProbe.refl _, rfl⟩

section Beginning

variable {plan : OperationPlan} {snapshot : Snapshot}

theorem wp_resolvePendingProbes (h : At env plans origin (.settled .idle) s) (sound : Sound env plans origin)
    (loaded : s.controller.recoveryReloadNeeded = false)
    (probed : lastProbe s.trace = some snapshot) :
    wp (resolvePendingProbes env snapshot plan) s
      (Resolving.turn env plans origin s.controller.desired snapshot []) := by
  unfold resolvePendingProbes
  simp only [wp_bind]
  refine wp_mapOrder (fun order rest => ?_) h.reached
  replace h : At env plans origin (.settled .idle) { s with script := rest } := h
  simp only [wp_memory]
  exact Resolving.wp_loop (fun inv names => inv.wp_resolvePendingProbe names) _ _
    (h.named sound) (Resolving.enter h loaded probed)

private theorem wp_recordProbe {α : Type} {wrap : Fault → Fault} {next : Act env α}
    {ok : α → Session env.backend.Answer → Prop} (h : At env plans origin (.settled .idle) s)
    (sound : Sound env plans origin) (probed : lastProbe s.trace = some snapshot)
    (continues : ∀ t : Session env.backend.Answer, At env plans origin (.settled .idle) t →
      Kept s.toScene t.toScene → wp next t (follows env plans origin ok)) :
    wp (do
        targetExpirationFence env plan
        let observed ← observedUpdateForSnapshot env snapshot
        Proc.mapError wrap (persistObserved env observed)
        next : Act env α) s (follows env plans origin ok) := by
  simp only [wp_bind, wp_mapError]
  refine wp_mono (wp_targetExpirationFence h) ?_ (fun _ _ e => e.1.stopped (by simp))
  rintro _ t ⟨⟨atT, probeT, memory⟩, _⟩
  have keptT : Kept s.toScene t.toScene := ⟨probeT, by rw [memory]⟩
  refine wp_mono (wp_observedUpdateForSnapshot atT sound (probeT.lastProbe.trans probed)) ?_
    (fun _ _ e => e.1.stopped (by simp))
  rintro observed u ⟨⟨atU, keptU⟩, attested⟩
  refine wp_mono (wp_persistObserved atU attested) ?_ (fun _ _ e => e.1.stopped (by simp))
  rintro _ v ⟨atV, keptV⟩
  exact continues v atV ((keptT.trans keptU).trans keptV)

theorem Kept.desired {s t : Scene} (kept : Kept s t) : t.controller.desired = s.controller.desired := by
  rw [kept.controller]

theorem Kept.pendingProbes {s t : Scene} (kept : Kept s t) :
    t.controller.pendingProbes = s.controller.pendingProbes := by
  rw [kept.controller]

def begins (env : Env) (plans : Command → Prop) (origin : Phase × Scene) (plan : OperationPlan)
    (snapshot : Snapshot) : Proc.Post (Session env.backend.Answer) Fault (Option AttemptRef) :=
  follows env plans origin fun attempt t => t.controller.recoveryReloadNeeded = false ∧
    match attempt with
    | none => Stopped env plans origin t
    | some ref => At env plans origin (.settled (.begun plan ref)) t ∧
        lastProbe t.trace = some snapshot

theorem wp_beginAfterRequiredProbe (h : At env plans origin (.settled .idle) s) (sound : Sound env plans origin)
    (loaded : s.controller.recoveryReloadNeeded = false) (asked : Asked env plans plan)
    (probed : lastProbe s.trace = some snapshot)
    (bound : plan.basisSnapshotDigest = snapshot.digest env.digests.snapshot) :
    wp (beginAfterRequiredProbe env plan snapshot) s
      (begins env plans origin plan snapshot) := by
  unfold beginAfterRequiredProbe
  refine wp_step_sure (wp_lock h trivial) ?_
  rintro _ t ⟨at_, meanwhile⟩
  rw [wp_memory_bind]
  refine wp_ite (fun _ => at_.stopped nofun) (fun current => ?_)
  have current : t.controller.planMatchesCurrentDesired plan = true := by simpa using current
  refine wp_recordProbe at_ sound (meanwhile.lastProbe.trans probed) (fun u atU kept => ?_)
  have probedU : lastProbe u.trace = some snapshot := by
    rw [kept.lastProbe, meanwhile.lastProbe, probed]
  refine wp_step (wp_resolvePendingProbes atU sound (kept.loaded (meanwhile.loaded loaded)) probedU)
    ?_
  intro recovered v resolving
  refine wp_ite (fun _ => ⟨resolving.loaded, resolving.stopped⟩) (fun _ => ?_)
  obtain ⟨left, atV, accounted⟩ := resolving.accounted
  have resolved : ∀ key, left key → v.controller.pendingKeyMatchesCurrentDesired key = true := by
    intro key held
    obtain impossible | unresolved := accounted key held
    · cases impossible
    · exact unresolved.1
  have currentV : v.controller.planMatchesCurrentDesired plan = true := by
    rw [planMatches_congr (resolving.desired.trans kept.desired)]
    exact current
  refine wp_step (wp_beginAttemptLocked atV resolving.loaded asked resolved currentV
    (.inl ⟨snapshot, resolving.probed, bound⟩)) ?_
  rintro ref w ⟨atW, loadedW, probeW⟩
  exact ⟨loadedW, atW, probeW.lastProbe.trans resolving.probed⟩

theorem At.enterEmpty (h : At env plans origin (.settled .idle) s)
    (empty : s.controller.pendingProbes.isEmpty = true) :
    At env plans origin (.settled (.resolving fun _ => False)) s := by
  refine h.move (.enter ?_)
  intro key ref found
  rw [Table.isEmpty_iff.mp empty key] at found
  cases found

theorem pendingKeyMatches_of_planMatches {c : Controller}
    (h : c.planMatchesCurrentDesired plan = true) :
    c.pendingKeyMatchesCurrentDesired plan.key = true := by
  unfold planMatchesCurrentDesired at h
  unfold pendingKeyMatchesCurrentDesired
  cases published : c.desired with
  | none => simp [published] at h
  | some d =>
    simp only [published] at h ⊢
    cases domain : plan.key.domain with
    | infrastructure | policy =>
      simp only [domain, Bool.and_eq_true] at h
      simpa using h.1
    | target =>
      simp only [domain] at h
      cases found : d.target? plan.key.target with
      | none => simp [found] at h
      | some intent =>
        cases wanted : plan.desiredTarget with
        | none => simp [found, wanted] at h
        | some i =>
          simp only [found, wanted, Bool.and_eq_true] at h
          simpa using h.1.1

theorem currentRef?_of_planMatches {c : Controller}
    (h : c.planMatchesCurrentDesired plan = true) :
    c.currentRef? plan.slot = some (c.attemptRef plan) :=
  Controller.currentRef?_of_pendingKeyMatches (pendingKeyMatches_of_planMatches h)

theorem wp_beginAfterStartupProbe (h : At env plans origin (.settled .idle) s)
    (sound : Sound env plans origin) (loaded : s.controller.recoveryReloadNeeded = false)
    (empty : s.controller.pendingProbes.isEmpty = true) (asked : Asked env plans plan)
    (probed : lastProbe s.trace = some snapshot)
    (bound : plan.basisSnapshotDigest = snapshot.digest env.digests.snapshot) :
    wp (beginAfterStartupProbe env plan snapshot) s
      (begins env plans origin plan snapshot) := by
  unfold beginAfterStartupProbe
  refine wp_step_sure (wp_lock h trivial) ?_
  rintro _ t ⟨at_, meanwhile⟩
  rw [wp_memory_bind]
  refine wp_ite (fun _ => at_.stopped (by simp)) (fun current => ?_)
  have current : t.controller.planMatchesCurrentDesired plan = true := by simpa using current
  refine wp_recordProbe at_ sound (meanwhile.lastProbe.trans probed) (fun u atU kept => ?_)
  have loadedU := kept.loaded (meanwhile.loaded loaded)
  have probedU : lastProbe u.trace = some snapshot := by
    rw [kept.lastProbe, meanwhile.lastProbe, probed]
  have emptyU : u.controller.pendingProbes.isEmpty = true := by
    rw [kept.pendingProbes, meanwhile.controller.pendingProbes, empty]
  have currentU : u.controller.planMatchesCurrentDesired plan = true := by
    rw [planMatches_congr kept.desired]
    exact current
  replace atU := atU.enterEmpty emptyU
  rw [wp_memory_bind]
  refine wp_ite (fun _ => ?_) (fun shown => ?_)
  · refine wp_step (wp_beginAttemptLocked atU loadedU asked (by simp) currentU
      (.inl ⟨snapshot, probedU, bound⟩)) ?_
    rintro ref v ⟨atV, loadedV, probeV⟩
    have probedV := probeV.lastProbe.trans probedU
    exact ⟨loadedV, atV.move (.started (by rw [probedV]; rfl)), probedV⟩
  · have shown : u.controller.snapshotMatchesCurrentDesired snapshot plan.slot = true := by
      simpa using shown
    have seen : Seen u.controller u.trace plan.slot := ⟨snapshot, probedU, shown⟩
    have borne := borne_of_pendingKeyMatches (pendingKeyMatches_of_planMatches currentU) seen
    simp only [wp_bind, wp_mapError]
    refine wp_mono (wp_persistState _ (atU.asks loadedU fun _ i =>
      .startup (by simp) (currentRef?_of_planMatches currentU) seen)) ?_
      (fun _ _ e => e.stopped (by rintro ⟨⟩))
    rintro _ v ⟨i, landed⟩
    have done : At env plans origin (.settled (.resolving fun _ => False))
        { v with controller := { v.controller.putState (u.controller.attemptRef plan)
            (u.controller.getState (u.controller.attemptRef plan)).converge with
          startupProbeRequired := false } } := by
      refine Path.move landed.path (.started ?_)
      rw [landed.lastProbe, probedU]
      rfl
    simp only [wp_setMemory]
    refine wp_sure (wp_confirm done
      fun t slot => (borne t slot).later landed.desired landed.lastProbe) ?_
    rintro _ w ⟨atW, confirming⟩
    refine ⟨?_, atW.stopped (by simp)⟩
    rw [confirming.controller]
    exact landed.loaded

theorem wp_beginAttempt (h : At env plans origin (.settled .idle) s)
    (loaded : s.controller.recoveryReloadNeeded = false)
    (empty : s.controller.pendingProbes.isEmpty = true) (asked : Asked env plans plan)
    (based : (∃ snapshot, lastProbe s.trace = some snapshot ∧
        plan.basisSnapshotDigest = snapshot.digest env.digests.snapshot) ∨
      s.controller.startupProbeRequired = false ∧ env.backend.requiresFreshBasis = false) :
    wp (beginAttempt env plan) s (follows env plans origin fun ref t =>
      t.controller.recoveryReloadNeeded = false ∧
      At env plans origin (.settled (.begun plan ref)) t ∧
      lastProbe t.trace = lastProbe s.trace) := by
  unfold beginAttempt
  refine wp_step_sure (wp_lock h trivial) ?_
  rintro _ t ⟨at_, meanwhile⟩
  have emptyT : t.controller.pendingProbes.isEmpty = true := by
    rw [meanwhile.controller.pendingProbes, empty]
  rw [wp_memory_bind]
  refine wp_ite (fun current => ?_) (fun _ => at_.stopped nofun)
  refine wp_imp (wp_beginAttemptLocked (at_.enterEmpty emptyT) (meanwhile.loaded loaded)
    asked nofun current ?_)
    fun ref u done => ⟨done.2.1, done.1, done.2.2.lastProbe.trans meanwhile.lastProbe⟩
  obtain ⟨snapshot, probed, bound⟩ | ⟨started, stale⟩ := based
  · exact .inl ⟨snapshot, meanwhile.lastProbe.trans probed, bound⟩
  · exact .inr ⟨emptyT, meanwhile.controller.startupProbeRequired.trans started, stale⟩

end Beginning

section Completing

variable {plan : OperationPlan} {ref : AttemptRef} {snapshot : Snapshot}

private theorem At.reload {r : Recovery} {c : Controller}
    (h : At env plans origin (.settled σ) s)
    (may : σ = .idle ∨ ∃ plan ref, σ = .ending plan ref)
    (read : loadReconcileRecovery s.controller.nodeID s.db = .ok r)
    (replaced : s.controller.replaceRecovery r = .ok c) :
    At env plans origin (.settled .idle)
      { s with controller := { c with recoveryReloadNeeded := false } } :=
  h.move (.reload may read replaced)

private theorem wp_reloadSuperseded {err : Fault}
    (h : At env plans origin (.settled (.ending plan ref)) s) :
    wp (reloadSupersededTargetCompletion env plan err) s
      ⟨fun superseded t => match superseded with
          | true => At env plans origin (.settled .idle) t
          | false => At env plans origin (.settled (.ending plan ref)) t,
        fun _ t => At env plans origin (.settled (.ending plan ref)) t,
        Reached env plans origin⟩ := by
  unfold reloadSupersededTargetCompletion
  split
  · refine wp_ite (fun _ => ?_) (fun _ => h)
    rw [wp_memory_bind]
    refine wp_step_mapError (wp_load h) ?_ (fun _ _ e => e.1)
    rintro r t ⟨at_, waited, read⟩
    rw [← waited.controller] at read ⊢
    refine wp_ite (fun _ => ?_) (fun _ => at_)
    simp only [wp_bind]
    refine wp_lift ?_ (fun _ _ => at_)
    intro c replaced
    exact at_.reload (.inr ⟨plan, ref, rfl⟩) read (within_eq_ok.mp replaced)
  · exact h

theorem wp_commitConfirmed (h : At env plans origin (.settled (.applied plan ref)) s)
    (sound : Sound env plans origin) (loaded : s.controller.recoveryReloadNeeded = false)
    (probed : lastProbe s.trace = some snapshot) :
    wp (commitConfirmed env ref plan snapshot) s
      (follows env plans origin fun _ t => At env plans origin (.settled .idle) t) := by
  unfold commitConfirmed
  refine wp_step_sure (wp_lock h trivial) ?_
  rintro _ t ⟨atT, meanwhile⟩
  refine wp_step_or (wp_observedUpdateForSnapshot atT sound (meanwhile.lastProbe.trans probed)) ?_
    (fun _ _ e => e.1.stopped nofun)
  rintro observed u ⟨⟨atU, keptU⟩, attested⟩
  have loadedU := keptU.loaded (meanwhile.loaded loaded)
  have probedU : lastProbe u.trace = some snapshot := by
    rw [keptU.lastProbe, meanwhile.lastProbe, probed]
  -- an end that cannot be persisted leaves the Probe required
  have pends : ∀ (fault : Fault) (v : Session env.backend.Answer),
      At env plans origin (.settled (.ending plan ref)) v →
      wp (do setPending env plan.key ref; Proc.fail fault : Act env Unit) v
        (follows env plans origin fun _ t => At env plans origin (.settled .idle) t) := by
    intro fault v atV
    exact (atV.move .pend).stopped nofun
  rw [wp_memory_bind]
  refine wp_ite (fun stale => ?_) (fun current => ?_)
  · have stale : u.controller.planMatchesCurrentDesired plan = false := by simpa using stale
    refine wp_step_attempt (wp_persistObserved atU attested) ?_
      (fun _ v e => pends _ v e.1.ended)
    rintro _ v ⟨atV, keptV⟩
    have staleV : v.controller.planMatchesCurrentDesired plan = false := by
      rw [planMatches_congr keptV.desired]
      exact stale
    refine wp_step_attempt (wp_finishStale atV (keptV.loaded loadedU) false
      (fun known i => .retireApplied staleV known)) ?_ (fun _ w e => pends _ w e)
    intro _ w finished
    exact ⟨.idle, nofun, finished.path⟩
  · have current : u.controller.planMatchesCurrentDesired plan = true := by simpa using current
    refine wp_ite (fun _ => wp_finishFailureLocked atU loadedU
      (.inl ⟨rfl, fun _ => answered_of_lastProbe probedU⟩) attested) (fun shown => ?_)
    have shown : u.controller.snapshotMatchesCurrentDesired snapshot plan.slot = true := by
      simpa using shown
    have seen : Seen u.controller u.trace plan.slot := ⟨snapshot, probedU, shown⟩
    refine wp_step_attempt (wp_finishConverged atU loadedU
      (fun i => .converge current seen attested)
      (borne_of_pendingKeyMatches (pendingKeyMatches_of_planMatches current) seen)) ?_ ?_
    · intro _ v finished
      exact finished.path
    · intro err v ended
      refine wp_step_attempt (wp_reloadSuperseded ended) ?_ (fun _ w e => pends _ w e)
      intro superseded w at_
      cases superseded with
      | true => exact At.stopped at_ nofun
      | false => exact pends _ w at_

end Completing

section Executing

variable {plan : OperationPlan} {ref : AttemptRef}

theorem wp_reloadRecoveryIfNeeded (h : At env plans origin (.settled .idle) s) :
    wp (reloadRecoveryIfNeeded env) s (follows env plans origin fun _ t =>
      At env plans origin (.settled .idle) t ∧ t.controller.recoveryReloadNeeded = false) := by
  unfold reloadRecoveryIfNeeded
  refine wp_step_sure (wp_lock h trivial) ?_
  rintro _ t ⟨at_, _⟩
  rw [wp_memory_bind]
  refine wp_ite (fun _ => ?_) (fun loaded => ⟨at_, by simpa using loaded⟩)
  refine wp_step_mapError (wp_load at_) ?_ (fun _ _ e => e.1.stopped nofun)
  rintro r u ⟨atU, waited, read⟩
  rw [← waited.controller] at read
  rw [wp_memory_bind, wp_bind]
  refine wp_lift ?_ (fun _ _ => atU.stopped nofun)
  intro c replaced
  exact ⟨atU.reload (.inl rfl) read (within_eq_ok.mp replaced), rfl⟩

theorem wp_markInvalidPlan (h : At env plans origin (.settled .idle) s)
    (loaded : s.controller.recoveryReloadNeeded = false) (asked : plans (.execute plan))
    (refused : plan.validate env.digests ≠ .ok ()) :
    wp (markInvalidPlan env plan) s
      ⟨fun _ t => Stopped env plans origin t, fun _ t => Stopped env plans origin t,
        Reached env plans origin⟩ := by
  unfold markInvalidPlan
  refine wp_step_sure (wp_lock h trivial) ?_
  rintro _ t ⟨at_, meanwhile⟩
  rw [wp_memory_bind]
  split
  · exact at_.stopped nofun
  · refine wp_step_mapError (wp_persistState _ (at_.asks (meanwhile.loaded loaded)
      fun _ i => .invalid asked refused)) ?_ (fun _ _ e => e.stopped nofun)
    rintro _ u ⟨i, landed⟩
    exact ⟨.idle, nofun, landed.path⟩

theorem wp_requiredSnapshot {operation : String} (h : At env plans origin (.settled .idle) s) :
    wp (requiredSnapshot env operation) s (follows env plans origin fun snapshot t =>
      At env plans origin (.settled .idle) t ∧ Republished s.controller t.controller ∧
      lastProbe t.trace = some snapshot) := by
  unfold requiredSnapshot
  refine wp_step_sure (wp_probe h trivial) ?_
  rintro result t ⟨at_, republished, _, newest⟩
  cases result with
  | ok snapshot => exact ⟨at_, republished, newest snapshot rfl⟩
  | error err =>
    refine wp_step_attempt (wp_recordAllUnknownObserved at_ trivial) ?_ ?_
    · intro _ u atU
      exact At.stopped atU nofun
    · intro _ u atU
      exact At.stopped atU nofun

theorem Asked.bind {snapshot : Snapshot} (h : plans (.execute plan)) :
    Asked env plans (plan.bind env.digests snapshot) :=
  ⟨plan, h, .inr ⟨snapshot, rfl⟩⟩

/-- `Execute` makes a Probe before it begins an attempt. -/
def Controller.mustProbe (env : Env) (c : Controller) : Prop :=
  c.pendingProbes.isEmpty = false ∨ c.startupProbeRequired = true ∨
    env.backend.requiresFreshBasis = true

theorem wp_prepareAttempt (h : At env plans origin (.settled .idle) s) (sound : Sound env plans origin)
    (loaded : s.controller.recoveryReloadNeeded = false) (asked : plans (.execute plan)) :
    wp (prepareAttempt env plan) s (follows env plans origin fun prepared t =>
      t.controller.recoveryReloadNeeded = false ∧
      match prepared.2 with
      | none => Stopped env plans origin t
      | some ref => At env plans origin (.settled (.begun prepared.1 ref)) t ∧
          (s.controller.mustProbe env → ∃ snapshot, lastProbe t.trace = some snapshot ∧
            prepared.1 = plan.bind env.digests snapshot)) := by
  have probing : ∀ (snapshot : Snapshot) (attempt : Option AttemptRef) t,
      (begins env plans origin (plan.bind env.digests snapshot) snapshot).ok attempt t →
      t.controller.recoveryReloadNeeded = false ∧
      match attempt with
      | none => Stopped env plans origin t
      | some ref => At env plans origin (.settled (.begun (plan.bind env.digests snapshot) ref)) t ∧
          (s.controller.mustProbe env → ∃ seen, lastProbe t.trace = some seen ∧
            plan.bind env.digests snapshot = plan.bind env.digests seen) := by
    rintro snapshot (_ | ref) t ⟨loaded, done⟩
    · exact ⟨loaded, done⟩
    · exact ⟨loaded, done.1, fun _ => ⟨snapshot, done.2, rfl⟩⟩
  unfold prepareAttempt
  refine wp_step_sure (wp_lock h trivial) ?_
  rintro _ t ⟨atT, meanwhileT⟩
  have loadedT := meanwhileT.loaded loaded
  rw [wp_memory_bind]
  refine wp_ite (fun _ => ?_) (fun empty => ?_)
  · refine wp_step (wp_requiredSnapshot atT) ?_
    rintro snapshot u ⟨atU, republished, newest⟩
    have loadedU := republished.recoveryReloadNeeded.trans loadedT
    exact wp_step (wp_beginAfterRequiredProbe atU sound loadedU (.bind asked) newest rfl)
      (probing snapshot)
  have empty : t.controller.pendingProbes.isEmpty = true := by simpa using empty
  refine wp_step_sure (wp_lock atT trivial) ?_
  rintro _ u ⟨atU, meanwhileU⟩
  have loadedU := meanwhileU.loaded loadedT
  have emptyU : u.controller.pendingProbes.isEmpty = true := by
    rw [meanwhileU.controller.pendingProbes, empty]
  rw [wp_memory_bind]
  refine wp_ite (fun _ => ?_) (fun started => ?_)
  · refine wp_step (wp_requiredSnapshot atU) ?_
    rintro snapshot v ⟨atV, republished, newest⟩
    have loadedV := republished.recoveryReloadNeeded.trans loadedU
    have emptyV : v.controller.pendingProbes.isEmpty = true := by
      rw [republished.pendingProbes, emptyU]
    exact wp_step (wp_beginAfterStartupProbe atV sound loadedV emptyV (.bind asked) newest rfl)
      (probing snapshot)
  have started : u.controller.startupProbeRequired = false := by simpa using started
  refine wp_ite (fun _ => ?_) (fun stale => ?_)
  · refine wp_step (wp_requiredSnapshot atU) ?_
    rintro snapshot v ⟨atV, republished, newest⟩
    have loadedV := republished.recoveryReloadNeeded.trans loadedU
    have emptyV : v.controller.pendingProbes.isEmpty = true := by
      rw [republished.pendingProbes, emptyU]
    refine wp_step (wp_beginAttempt atV loadedV emptyV (.bind asked)
      (.inl ⟨snapshot, newest, rfl⟩)) ?_
    exact fun ref w done => probing snapshot (some ref) w
      ⟨done.1, done.2.1, done.2.2.trans newest⟩
  · refine wp_step (wp_beginAttempt atU loadedU emptyU ⟨plan, asked, .inl rfl⟩
      (.inr ⟨started, by simpa using stale⟩)) ?_
    rintro ref w ⟨loadedW, atW, _⟩
    refine ⟨loadedW, atW, ?_⟩
    -- What asks for a Probe is the same under both locks as when the call began.
    rintro (pending | due | fresh)
    · rw [← meanwhileT.controller.pendingProbes, empty] at pending
      cases pending
    · rw [← meanwhileT.controller.startupProbeRequired,
        ← meanwhileU.controller.startupProbeRequired, started] at due
      cases due
    · exact absurd fresh stale

theorem wp_finishApply {result : Except Fault ApplyResult}
    (h : At env plans origin (.settled (.applied plan ref)) s) (sound : Sound env plans origin)
    (loaded : s.controller.recoveryReloadNeeded = false)
    (answer : answered s.trace = refusal result) :
    wp (finishApply env plan ref result) s
      (follows env plans origin fun _ t => Stopped env plans origin t) := by
  unfold finishApply
  split
  · exact wp_step_attempt (wp_finishFailureAndRequireProbeObserved h loaded)
      (fun _ _ done => At.stopped done nofun) (fun _ _ e => e)
  · split
    · exact wp_step (wp_finishFailureAndRequireProbeObserved h loaded)
        (fun _ _ done => At.stopped done nofun)
    · rename_i kind
      have refused : answered s.trace = true := by rw [answer, refusal, kind]
      exact wp_step (wp_finishFailure h loaded (.inl ⟨rfl, refused⟩))
        (fun _ _ done => At.stopped done nofun)
    · refine wp_step_sure (wp_probe h trivial) ?_
      rintro probed t ⟨at_, republished, _, newest⟩
      have loadedT := republished.recoveryReloadNeeded.trans loaded
      cases probed with
      | error err =>
        exact wp_step_attempt (wp_finishFailureAndRequireProbeObserved at_ loadedT)
          (fun _ _ done => At.stopped done nofun) (fun _ _ e => e)
      | ok snapshot =>
        exact wp_step (wp_commitConfirmed at_ sound loadedT (newest snapshot rfl))
          (fun _ _ done => At.stopped done nofun)
    · rename_i kind
      have refused : answered s.trace = true := by rw [answer, refusal, kind]
      exact wp_step_attempt (wp_finishFailure h loaded (.inl ⟨rfl, refused⟩))
        (fun _ _ done => At.stopped done nofun) (fun _ _ e => e)

theorem wp_runAttempt (h : At env plans origin (.settled (.begun plan ref)) s)
    (sound : Sound env plans origin) (loaded : s.controller.recoveryReloadNeeded = false) :
    wp (runAttempt env plan ref) s
      (follows env plans origin fun _ t => Stopped env plans origin t) := by
  unfold runAttempt
  refine wp_step_sure (wp_lock h trivial) ?_
  rintro _ t ⟨atT, meanwhile⟩
  have loadedT := meanwhile.loaded loaded
  refine wp_step_attempt (wp_targetExpirationFence atT) ?_ ?_
  · rintro _ u ⟨⟨atU, _, memory⟩, unexpired⟩
    refine wp_step_sure (wp_apply atU unexpired) ?_
    rintro result v ⟨atV, republished, answer⟩
    refine wp_finishApply atV sound ?_ answer
    rw [republished.recoveryReloadNeeded, memory, loadedT]
  · rintro err u ⟨atU, _, memory⟩
    have loadedU : u.controller.recoveryReloadNeeded = false := by rw [memory, loadedT]
    exact wp_step (wp_finishFailure atU loadedU (.inr ⟨rfl, rfl⟩))
      (fun _ _ done => At.stopped done nofun)

theorem wp_execute (h : At env plans origin (.settled .idle) s) (sound : Sound env plans origin)
    (asked : plans (.execute plan)) :
    wp (execute env plan) s
      (follows env plans origin fun _ t => Stopped env plans origin t) := by
  unfold execute
  refine wp_step (wp_reloadRecoveryIfNeeded h) ?_
  rintro _ t ⟨atT, loadedT⟩
  split
  · rename_i err refused
    have invalid : plan.validate env.digests ≠ .ok () := by
      rw [refused]
      nofun
    exact wp_step_attempt (wp_markInvalidPlan atT loadedT asked invalid)
      (fun _ _ done => done) (fun _ _ e => e)
  · refine wp_step_sure (wp_lock atT trivial) ?_
    rintro _ u ⟨atU, meanwhile⟩
    refine wp_step_or (wp_targetExpirationFence atU) ?_ (fun _ _ e => e.1.stopped nofun)
    rintro _ v ⟨⟨atV, _, memory⟩, _⟩
    have loadedV : v.controller.recoveryReloadNeeded = false := by
      rw [memory]
      exact meanwhile.loaded loadedT
    refine wp_step (wp_prepareAttempt atV sound loadedV asked) ?_
    rintro ⟨bound, attempt⟩ w ⟨loadedW, done⟩
    cases attempt with
    | none => exact done
    | some ref => exact wp_runAttempt done.1 sound loadedW

end Executing

end GuardWall.Reconcile
