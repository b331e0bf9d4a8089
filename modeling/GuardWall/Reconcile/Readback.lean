import GuardWall.Reconcile.Provider
import GuardWall.Reconcile.Runs
import GuardWall.Reconcile.Tracking

/-! What one call that persists a change can do, for every end of its COMMIT and of the readback
that follows: to the ledger, to memory, and to what the next operation starts with. -/
namespace GuardWall.Reconcile

open GuardWall.Core GuardWall.Foundation GuardWall.Store Session
open Proc (wp wp_attempt wp_bind wp_conseq wp_fail wp_ite wp_mapError wp_mono)

structure Change.Held (change : Change) (db : Database) : Prop where
  row : ∀ s, change.state? = some s → ∃ row, db.row? s.ref.slot = some row ∧
    row.ref s.ref.slot = s.ref ∧ row.status = s.retry.status ∧
    row.attemptCount = s.retry.attemptCount
  /-- A ledger transition is held with its attempt times and its error. -/
  times : ∀ t s, change = .ledger t → t.state = some s → ∃ row, db.row? s.ref.slot = some row ∧
    row.lastAttemptUS = s.retry.lastAttemptAt.map Instant.unixMicro ∧
    row.nextAttemptUS = s.retry.nextAttemptAt.map Instant.unixMicro ∧
    row.lastErrorCode = s.retry.lastErrorCode
  upsert : ∀ t p, change = .ledger t → t.upsertProbe = some p →
    (db.probes.lookup (ProbeRequirement.probeID p)).isSome
  delete : ∀ t p, change = .ledger t → t.deleteProbe = some p →
    t.upsertProbe.map ProbeRequirement.probeID ≠ some (ProbeRequirement.probeID p) →
    db.probes.lookup (ProbeRequirement.probeID p) = none
  audit : ∀ t, change = .retry t →
    db.audits.find? (fun a => a.id == t.audit.id) = some (retryAuditRow t)

namespace Change

variable {change : Change}

variable {db before after : Database} {t : Transition} {nodeID : String} {r : Recovery}

theorem audits_of_applyReconcileRetryTransition {t : RetryTransition} {db' : Database}
    (h : applyReconcileRetryTransition t db = .ok db') :
    db'.audits = retryAuditRow t :: db.audits := by
  unfold applyReconcileRetryTransition Database.requireNodeIdentity writeReconcileRetryAudit at h
  simp only [within_eq_ok, bind_eq_ok, reject_eq_ok] at h
  obtain ⟨_, _, _, _, _, _, _, _, _, _, _, _, h⟩ := h
  cases h
  rfl

theorem held_of_apply (accepted : change.apply before = .ok after) :
    change.Held after := by
  have admitted := admitted accepted
  refine ⟨?_, ?_, ?_, ?_, ?_⟩
  · intro s state
    rw [state] at admitted
    exact ⟨_, admitted.row?_self, rfl, rfl, rfl⟩
  · rintro t s rfl state
    have state' : (Change.ledger t).state? = some s := state
    rw [state'] at admitted
    exact ⟨_, admitted.row?_self, rfl, rfl, rfl⟩
  · rintro t p rfl added
    rw [(applyReconcileTransition_accepted accepted).probes]
    simp only [probesAfter, probesWith, added, AList.lookup_insert, Option.isSome_some]
  · rintro t p rfl removed other
    rw [(applyReconcileTransition_accepted accepted).probes]
    simp only [probesAfter, probesWith, probesKept, removed]
    cases added : t.upsertProbe with
    | none => exact AList.lookup_erase _ _
    | some q =>
      rw [added, Option.map_some, ne_eq, Option.some.injEq] at other
      dsimp only
      rw [AList.lookup_insert_ne (Ne.symm other), AList.lookup_erase]
  · rintro t rfl
    rw [audits_of_applyReconcileRetryTransition accepted]
    exact List.find?_cons_of_pos (beq_self_eq_true _)

theorem node_of_delete {p : ProbeRequirement}
    (accepted : applyReconcileTransition t before = .ok after) (removed : t.deleteProbe = some p) :
    p.nodeID = before.nodeID := by
  have valid := (applyReconcileTransition_accepted accepted).validated
  unfold applyReconcileTransition Database.requireNodeIdentity at accepted
  simp only [within_eq_ok, bind_eq_ok, reject_eq_ok] at accepted
  obtain ⟨_, _, _, node, _⟩ := accepted
  unfold Transition.nodeID? at node
  cases state : t.state with
  | none =>
    simp only [state, removed, Option.map_some, Option.getD_some, bne_eq_false_iff_eq] at node
    exact node.symm
  | some s =>
    simp only [state, Option.getD_some, bne_eq_false_iff_eq] at node
    unfold validateReconcileTransition at valid
    rw [state] at valid
    simp only [bind_eq_ok, checkSome_eq_ok] at valid
    obtain ⟨_, _, _, _, _, _, _, matching, _⟩ := valid
    have checked := matching p removed
    unfold validateDeleteProbe sameReconcileKey at checked
    simp only [bind_eq_ok, reject_eq_ok, Bool.not_eq_false', Bool.and_eq_true,
      beq_iff_eq] at checked
    obtain ⟨_, _, owner, _⟩ := checked
    rw [node, owner]

theorem readback_ledger_eq (read : (Change.ledger t).readback nodeID db = .ok (r, true)) :
    Loaded nodeID db r ∧ reconcileTransitionApplied r t = true := by
  simp only [readback, Except.map] at read
  split at read
  · cases read
  · rename_i recovery load
    simp only [Except.ok.injEq, Prod.mk.injEq] at read
    obtain ⟨rfl, applied⟩ := read
    exact ⟨loaded_of_loadReconcileRecovery load, applied⟩

private theorem eq_of_equalPersistedTime {us : Option Int} {at_ : Option Instant}
    (h : equalPersistedTime (us.map Instant.ofMicro) at_ = true) :
    us = at_.map Instant.unixMicro := by
  cases us <;> cases at_ <;> simp_all [equalPersistedTime]

theorem held_of_readback (read : change.readback nodeID db = .ok (r, true))
    (owned : ∀ t p, change = .ledger t → t.deleteProbe = some p → p.nodeID = db.nodeID) :
    change.Held db := by
  refine ⟨fun s state => row_of_readback read state, ?_, ?_, ?_, ?_⟩
  · rintro t s rfl state
    obtain ⟨loaded, applied⟩ := readback_ledger_eq read
    unfold reconcileTransitionApplied at applied
    simp only [Bool.and_eq_true, Option.all_eq_true] at applied
    obtain ⟨p, member, same⟩ := List.any_eq_true.mp (applied.1.1 s state)
    obtain ⟨slot, row, found, rfl⟩ := (loaded.states p).mp member
    unfold samePersistedState at same
    simp only [Bool.and_eq_true, beq_iff_eq] at same
    obtain ⟨⟨⟨⟨⟨⟨_, refs⟩, _⟩, _⟩, last⟩, next⟩, code⟩ := same
    have slots : slot = s.ref.slot := congrArg AttemptRef.slot refs
    subst slots
    exact ⟨row, found, eq_of_equalPersistedTime last, eq_of_equalPersistedTime next, code⟩
  · rintro t p rfl added
    obtain ⟨loaded, applied⟩ := readback_ledger_eq read
    unfold reconcileTransitionApplied at applied
    simp only [Bool.and_eq_true, Option.all_eq_true] at applied
    obtain ⟨q, member, same⟩ := List.any_eq_true.mp (applied.1.2 p added)
    obtain ⟨id, us, found, rfl⟩ := (loaded.probes q).mp member
    simp only [requirementOf, Bool.and_eq_true, beq_iff_eq] at same
    have ids : ProbeRequirement.probeID p = id := by
      unfold ProbeRequirement.probeID
      rw [← same.1.1.2, ← same.1.2, ← same.2]
    rw [ids, found]
    rfl
  · rintro t p rfl removed _
    obtain ⟨loaded, applied⟩ := readback_ledger_eq read
    unfold reconcileTransitionApplied at applied
    simp only [Bool.and_eq_true, Option.all_eq_true] at applied
    have gone := applied.2 p removed
    cases found : db.probes.lookup (ProbeRequirement.probeID p) with
    | none => rfl
    | some us =>
      have there : recoveryHasProbe r p = true := by
        refine List.any_eq_true.mpr ⟨_, (loaded.probes _).mpr ⟨_, us, found, rfl⟩, ?_⟩
        simp [requirementOf, ProbeRequirement.probeID, owned t p rfl removed, loaded.node]
      rw [there] at gone
      cases gone
  · rintro t rfl
    simp only [readback, readReconcileRetryTransition, bind_eq_ok, pure, Except.pure,
      Except.ok.injEq, Prod.mk.injEq, Bool.and_eq_true, beq_iff_eq] at read
    obtain ⟨_, _, _, _, _, _, audit⟩ := read
    exact audit

end Change

theorem Waited.resets {env : Env} {a b : Scene} (h : Waited env a b) : Resets a.db b.db := by
  obtain ⟨actions, rfl⟩ := h
  induction actions generalizing a with
  | nil => exact Resets.refl _
  | cons action rest ih => exact (resets_onDatabase _ action a.db).trans (ih (a := act env true a action))

/-- The states, pending Probes and epochs of memory are those of a ledger. -/
structure Rehydrated (ledger : Database) (c c' : Controller) : Prop where
  hydrated : ∃ memory, Hydrated c.nodeID ledger memory ∧ c'.states = memory.states ∧
    c'.pendingProbes = memory.pendingProbes ∧ c'.syntheticRefs = memory.syntheticRefs
  epochs : ∀ slot version, c'.published? slot = some version →
    c'.epochs slot = c'.maxEpoch slot version
  desired : c'.desired = c.desired
  loaded : c'.recoveryReloadNeeded = false

theorem rehydrated_of_replaceRecovery {owner : String} {ledger : Database} {r : Recovery}
    {c c' : Controller} (load : loadRecovery owner ledger = .ok r)
    (replaced : c.replaceRecovery r = .ok c') :
    Rehydrated ledger c { c' with recoveryReloadNeeded := false } := by
  have all := replaced_of_replaceRecovery replaced
  obtain ⟨memory, hydrates, states, pending, synthetic⟩ := all.hydrated
  exact ⟨⟨memory, hydrated_of_loadRecovery load hydrates, states, pending, synthetic⟩, all.epochs,
    all.desired, rfl⟩

section Outcomes

variable {env : Env} {change : Change} {s t : Scene}

theorem Indeterminate.accepted (h : Indeterminate env change s t) :
    ∃ before after, change.apply before = .ok after ∧ before.nodeID = t.db.nodeID ∧
      t.controller = s.controller := by
  cases h with
  | landed waited accepted =>
    refine ⟨_, _, accepted, (Change.admitted accepted).nodeID.symm, waited.controller⟩
  | lost waited accepted => exact ⟨_, _, accepted, rfl, waited.controller⟩

theorem Indeterminate.held {v : Scene} {r : Recovery} (h : Indeterminate env change s t)
    (waited : Waited env t v) (read : change.readback v.controller.nodeID v.db = .ok (r, true)) :
    change.Held v.db := by
  obtain ⟨before, after, accepted, node, _⟩ := h.accepted
  refine Change.held_of_readback read ?_
  rintro tr p rfl removed
  rw [Change.node_of_delete accepted removed, node, waited.resets.nodeID]

theorem Indeterminate.rehydrated {v : Scene} {r : Recovery} {shown : Bool} {c : Controller}
    (h : Indeterminate env change s t) (waited : Waited env t v)
    (read : change.readback v.controller.nodeID v.db = .ok (r, shown))
    (replaced : v.controller.replaceRecovery r = .ok c) :
    Rehydrated v.db s.controller { c with recoveryReloadNeeded := false } := by
  obtain ⟨_, _, _, _, memory⟩ := h.accepted
  obtain ⟨owner, load⟩ := Change.load_of_readback read
  rw [waited.controller, memory] at replaced
  exact rehydrated_of_replaceRecovery load replaced

namespace Settled

theorem held {result : Except Fault Unit} (h : Settled env change s result t)
    (applied : result = .ok ()) : ∃ ledger, change.Held ledger ∧ Resets ledger t.db := by
  cases h with
  | committed waited accepted => exact ⟨_, Change.held_of_apply accepted, Resets.refl _⟩
  | shown unknown waited read replaced later =>
    exact ⟨_, unknown.held waited read, later.resets⟩
  | refused | failed | flagged | unshown => cases applied

theorem memory {result : Except Fault Unit} (h : Settled env change s result t) :
    t.controller = s.controller ∧
        (result = .ok () ∧ (∃ before, Resets s.db before ∧ change.apply before = .ok t.db) ∨
          result ≠ .ok () ∧ Resets s.db t.db) ∨
      (∃ ledger, Rehydrated ledger s.controller t.controller ∧ Resets ledger t.db) ∨
      t.controller = { s.controller with recoveryReloadNeeded := true } ∧ result ≠ .ok () := by
  cases h with
  | refused waited refused | failed waited accepted =>
    exact .inl ⟨waited.controller, .inr ⟨nofun, waited.resets⟩⟩
  | committed waited accepted =>
    exact .inl ⟨waited.controller, .inl ⟨rfl, _, waited.resets, accepted⟩⟩
  | flagged unknown waited =>
    obtain ⟨_, _, _, _, memory⟩ := unknown.accepted
    refine .inr (.inr ⟨?_, nofun⟩)
    rw [waited.controller, memory]
  | shown unknown waited read replaced later | unshown unknown waited read replaced later =>
    exact .inr (.inl ⟨_, unknown.rehydrated waited read replaced, later.resets⟩)

end Settled

/-- Memory where a caller makes its entry: as it was, or that of a ledger that was read back. -/
def Grounded (before : Controller) (t : Scene) (c : Controller) : Prop :=
  c = before ∨ ∃ ledger, Rehydrated ledger before c ∧ Resets ledger t.db

section Entries

open Controller

variable {ι : Type}

/-- The end of a section that persists one of the writes and then makes its entry in memory. If it
succeeds the ledger holds the write and memory has the entry; if it fails memory is without it or a
reload is due, and `failed` says what the section does to memory then. -/
def records {α : Type} (env : Env) (w : ι → Write) (failed : Controller → Controller)
    (before : Controller) : Proc.Post (Session env.backend.Answer) Fault α :=
  ⟨fun _ t => ∃ i c ledger, Grounded before t.toScene c ∧ (w i).change.Held ledger ∧
      Resets ledger t.db ∧
      t.controller = { (w i).success c with confirmedTargets := t.controller.confirmedTargets },
    fun _ t => ∃ c, (Grounded before t.toScene c ∨
      c = { before with recoveryReloadNeeded := true }) ∧ t.controller = failed c,
    fun _ => True⟩

/-- The sections that persist a write. A failure that cannot be persisted is pinned as a pending Probe;
for a retry the section starts after the reload. -/
structure Recording (env : Env) : Prop where
  beginAttemptLocked : ∀ s plan, wp (beginAttemptLocked env plan) s
    (records env (fun i : Instant × Times =>
      .begin s.controller plan i.1 i.2.updated i.2.recorded i.2.removed) id s.controller)
  finishFailureLocked : ∀ s (plan : OperationPlan) ref code canRetry keep observed,
    wp (finishFailureLocked env ref plan.key code canRetry keep observed) s
      (records env (fun i : Option Instant × Times =>
          .fail s.controller plan ref code i.1 keep observed i.2.updated i.2.recorded)
        (fun c => { c with pendingProbes := c.pendingProbes.insert plan.key ref }) s.controller)
  finishStale : ∀ s ref key, wp (finishStale env ref key) s
    (records env (fun i : Times =>
      .retire s.controller ref key false .idle i.updated i.removed) id s.controller)
  finishConverged : ∀ s ref plan observed,
    wp (finishConverged env ref plan observed >>= fun _ => dropPending env plan.key) s
      (records env (fun i : Times =>
        .converge s.controller plan ref observed i.updated i.removed) id s.controller)
  finishRecoveredByProbe : ∀ s plan ref,
    wp (finishRecoveredByProbe env plan ref >>= fun _ => dropPending env plan.key) s
      (records env (fun i : Times => .recover s.controller
        (s.controller.attemptRef plan, s.controller.getState (s.controller.attemptRef plan))
        plan.key ref .idle i.updated i.removed) id s.controller)
  finishRecoveredPending : ∀ s ref key,
    wp (finishRecoveredPending env ref key >>= fun _ => dropPending env key) s
      (records env (fun i : Times => .recover s.controller
        ((s.controller.currentStateForPendingKey key).getD (ref, s.controller.getState ref))
        key ref .idle i.updated i.removed) id s.controller)
  persistState : ∀ s ref state context,
    wp (Proc.mapError (.wrap context) (persistState env ref state) >>= fun _ =>
        setMemory env fun c => c.putState ref state) s
      (records env (fun i : Times => .plain s.controller ref state .idle i.updated) id
        s.controller)
  retry : ∀ slot, ∃ locked : Act env AttemptRef,
    Controller.retry env slot =
      (reloadRecoveryIfNeeded env >>= fun _ => lock env >>= fun _ => locked) ∧
    ∀ s, wp locked s (records env (fun i : Nat × Instant => .retry s.controller env
      ⟨slot, i.1, (s.controller.epochs slot + 1) % 2 ^ 64⟩ (s.controller.epochs slot) i.2) id
      s.controller)

variable {w : ι → Write} {s : Session env.backend.Answer}

def grounds (w : ι → Write) (before : Controller) :
    Proc.Post (Session env.backend.Answer) Fault Unit :=
  ⟨fun _ t => ∃ i ledger, Grounded before t.toScene t.controller ∧ (w i).change.Held ledger ∧
      Resets ledger t.db,
    fun _ t => Grounded before t.toScene t.controller ∨
      t.controller = { before with recoveryReloadNeeded := true },
    fun _ => True⟩

theorem wp_persist_grounds (w : ι → Write) (i : ι) :
    wp (persist env (w i).change) s (grounds w s.controller) := by
  refine wp_conseq wp_persist (fun _ t settled => ?_) (fun _ t settled => ?_) fun _ _ => trivial
  · obtain ⟨ledger, held, resets⟩ := settled.held rfl
    refine ⟨i, ledger, ?_, held, resets⟩
    obtain ⟨same, _⟩ | read | ⟨_, failed⟩ := settled.memory
    · exact .inl same
    · exact .inr read
    · exact absurd rfl failed
  · obtain ⟨same, _⟩ | read | ⟨flagged, _⟩ := settled.memory
    · exact .inl (.inl same)
    · exact .inl (.inr read)
    · exact .inr flagged

theorem asks_grounds {known : Prop} : Asks w known s (grounds w s.controller) :=
  ⟨fun _ i _ => wp_persist_grounds w i, fun _ => .inl (.inl rfl), fun _ => trivial⟩

theorem wp_confirm_records {slot : ReconcileKey} {version : Nat} {before c : Controller}
    {ledger : Database} {E : Fault → Session env.backend.Answer → Prop} {i : ι}
    {key : PendingProbeKey} (grounded : Grounded before s.toScene c)
    (held : (w i).change.Held ledger) (resets : Resets ledger s.db)
    (success : (w i).success c = { s.controller with
      pendingProbes := s.controller.pendingProbes.erase key }) :
    wp (confirmTarget env slot version) s
      ⟨fun _ t => wp (dropPending env key) t (records env w id before), E, fun _ => True⟩ := by
  unfold confirmTarget
  split
  · exact ⟨i, c, ledger, grounded, held, resets, by rw [success]⟩
  · exact ⟨i, c, ledger, grounded, held, resets, by rw [success]⟩

private theorem at_here : At env (fun _ => True) (.settled .idle, s.toScene) (.settled .idle) s :=
  .refl

theorem recording (env : Env) : Recording env where
  beginAttemptLocked s plan := by
    unfold Controller.beginAttemptLocked
    simp only [wp_bind]
    refine wp_conseq (wp_targetExpirationFence at_here) ?_ ?_ fun _ _ => trivial
    · rintro _ t ⟨⟨_, _, memory⟩, _⟩
      rw [← memory]
      simp only [wp_memory]
      refine wp_now (fun started rest => ?_) trivial
      refine wp_ite (fun _ => ⟨_, .inl (.inl rfl), rfl⟩) (fun _ => ?_)
      refine wp_ite (fun _ => ⟨_, .inl (.inl rfl), rfl⟩) (fun _ => ?_)
      simp only [wp_bind, wp_mapError]
      refine wp_mono (wp_persistApplyingState (s := { t with script := rest }) asks_grounds) ?_
        fun _ _ failed => ⟨_, failed, rfl⟩
      rintro _ u ⟨i, ledger, grounded, held, resets⟩
      exact ⟨(started, i), _, ledger, grounded, held, resets, rfl⟩
    · rintro _ t ⟨_, _, memory⟩
      exact ⟨_, .inl (.inl rfl), memory⟩
  finishFailureLocked s plan ref code canRetry keep observed := by
    unfold Controller.finishFailureLocked
    simp only [wp_bind, wp_memory]
    refine wp_conseq (wp_nextAttempt at_here) ?_ (fun _ _ never => never.elim) fun _ _ => trivial
    rintro next t ⟨_, _, memory, _⟩
    rw [← memory]
    simp only [wp_attempt]
    refine wp_mono (wp_persistFailure asks_grounds) ?_ fun _ _ failed => ⟨_, failed, rfl⟩
    rintro _ u ⟨i, ledger, grounded, held, resets⟩
    simp only [wp_bind, wp_setMemory]
    cases keep <;> exact ⟨(next, i), _, ledger, grounded, held, resets, rfl⟩
  finishStale s ref key := by
    unfold Controller.finishStale
    simp only [wp_bind, wp_memory, wp_mapError]
    refine wp_mono (wp_persistRetirement false .idle asks_grounds) ?_
      fun _ _ failed => ⟨_, failed, rfl⟩
    rintro _ t ⟨i, ledger, grounded, held, resets⟩
    exact ⟨i, _, ledger, grounded, held, resets, rfl⟩
  finishConverged s ref plan observed := by
    unfold Controller.finishConverged
    simp only [wp_bind, wp_memory, wp_mapError]
    refine wp_mono (wp_persistConverged asks_grounds) ?_ fun _ _ failed => ⟨_, failed, rfl⟩
    rintro _ t ⟨i, ledger, grounded, held, resets⟩
    exact wp_confirm_records grounded held resets rfl
  finishRecoveredByProbe s plan ref := by
    unfold Controller.finishRecoveredByProbe
    simp only [wp_bind, wp_memory, wp_mapError]
    refine wp_mono (wp_persistRecovery (_, _) .idle asks_grounds) ?_
      fun _ _ failed => ⟨_, failed, rfl⟩
    rintro _ t ⟨i, ledger, grounded, held, resets⟩
    exact wp_confirm_records grounded held resets rfl
  finishRecoveredPending s ref key := by
    unfold Controller.finishRecoveredPending
    simp only [wp_bind, wp_memory, wp_mapError]
    refine wp_mono (wp_persistRecovery _ .idle asks_grounds) ?_
      fun _ _ failed => ⟨_, failed, rfl⟩
    rintro _ t ⟨i, ledger, grounded, held, resets⟩
    exact wp_confirm_records grounded held resets rfl
  persistState s ref state context := by
    simp only [wp_bind, wp_mapError]
    refine wp_mono (wp_persistState .idle asks_grounds) ?_
      fun _ _ failed => ⟨_, failed, rfl⟩
    rintro _ t ⟨i, ledger, grounded, held, resets⟩
    exact ⟨i, _, ledger, grounded, held, resets, rfl⟩
  retry slot := by
    -- Others may have published before the lock was taken: the section starts from what it finds.
    refine ⟨_, rfl, fun s => ?_⟩
    rw [wp_memory_bind]
    split
    · exact ⟨_, .inl (.inl rfl), rfl⟩
    · rename_i version published
      refine wp_ite (fun _ => ⟨_, .inl (.inl rfl), rfl⟩) (fun _ => ?_)
      simp only [wp_bind, wp_mapError, persistRetry]
      refine wp_persistedState (fun at_ rest => ?_) trivial
      refine wp_mono (wp_persist_grounds (s := { s with script := rest })
        (.retry s.controller env ⟨slot, version, (s.controller.epochs slot + 1) % 2 ^ 64⟩
          (s.controller.epochs slot)) at_) ?_ fun _ _ failed => ⟨_, failed, rfl⟩
      rintro _ t ⟨i, ledger, grounded, held, resets⟩
      exact ⟨(version, i), _, ledger, grounded, held, resets, rfl⟩

end Entries

end Outcomes

namespace Sample

end Sample

end GuardWall.Reconcile
