import GuardWall.Reconcile.Protocol

/-! How far memory follows the ledger: a row with attempts is known with its count, and no
attempt that memory knows is ahead of the row of its failure domain. -/
namespace GuardWall.Reconcile

open GuardWall.Core GuardWall.Foundation GuardWall.Store

/-- The regression check could read the row a durable write replaced. -/
def Event.compared (covered : ReconcileKey → Prop) : Event → Prop
  | .wrote t commit before => commit.durable → ∀ s, t.state = some s → covered s.ref.slot →
      Comparable s.nodeID s.ref.slot before.db
  | _ => True

def Compared (covered : ReconcileKey → Prop) (trace : List Event) : Prop :=
  ∀ event ∈ trace, event.compared covered

instance (commit : Commit) : Decidable commit.durable :=
  match commit with
  | .commits | .unknownCommitted => isTrue trivial
  | .fails | .unknownLost => isFalse id

instance (covered : ReconcileKey → Prop) [DecidablePred covered] (event : Event) :
    Decidable (event.compared covered) :=
  match event with
  | .wrote t commit before =>
      decidable_of_iff (commit.durable → (t.state.all fun s =>
        decide (covered s.ref.slot → Comparable s.nodeID s.ref.slot before.db)) = true) (by
      simp only [Event.compared, Option.all_eq_true, decide_eq_true_eq])
  | .restarted | .external .. | .checked .. | .failing .. | .probed .. | .applied .. | .refused ..
  | .retried .. | .declined .. | .observed .. | .confirmed .. => isTrue trivial

instance (covered : ReconcileKey → Prop) [DecidablePred covered] (trace : List Event) :
    Decidable (Compared covered trace) :=
  inferInstanceAs (Decidable (∀ event ∈ trace, event.compared covered))

def isTarget (slot : ReconcileKey) : Prop := ∃ target, slot = .target target

instance : DecidablePred isTarget := fun slot =>
  match slot with
  | .target target => isTrue ⟨target, rfl⟩
  | .infrastructure | .policy => isFalse nofun

theorem compared_targets (trace : List Event) : Compared isTarget trace := by
  intro event _
  cases event with
  | wrote t commit before =>
    rintro _ s _ ⟨target, same⟩
    rw [same]
    exact comparable_target _ _ _
  | _ => trivial

variable {trace : List Event} {env : Env} {plans : Command → Prop} {c : Controller} {σ : Stage}
  {w : Write}

theorem Compared.of_suffix {covered : ReconcileKey → Prop} {older : List Event}
    (h : Compared covered trace) (suffix : older <:+ trace) : Compared covered older :=
  fun event member => h event (suffix.subset member)

theorem Move.suffix {p q : Phase} {s t : Scene} (step : Move env plans p s q t) :
    s.trace <:+ t.trace := by
  cases step <;> first | exact List.suffix_rfl | exact List.suffix_cons _ _

namespace Change

variable {change : Change} {before after : Database}

theorem admitted (accepted : change.apply before = .ok after) :
    Admitted change.state? before after := by
  cases change with
  | ledger t => exact (applyReconcileTransition_accepted accepted).toAdmitted
  | retry t => exact (applyReconcileRetryTransition_retried accepted).toAdmitted

theorem growsAt {covered : ReconcileKey → Prop} {commit : Commit} {c : Controller}
    {slot : ReconcileKey} (accepted : change.apply before = .ok after) (durable : commit.durable)
    (compared : (change.wrote commit ⟨before, c⟩).compared covered) (cover : covered slot) :
    GrowsAt slot before after := by
  refine (admitted accepted).growsAt ?_
  rintro s state rfl
  cases change with
  | ledger t => exact compared durable s state cover
  | retry t =>
    cases state
    exact (applyReconcileRetryTransition_retried accepted).comparable

theorem probe (accepted : change.apply before = .ok after) {id : ProbeID} {us : Int}
    (found : after.probes.lookup id = some us) :
    (∃ s, change.state? = some s ∧ s.ref = id.ref) ∨ before.probes.lookup id = some us := by
  cases change with
  | ledger t =>
    have h := applyReconcileTransition_accepted accepted
    obtain ⟨p, added, rfl⟩ | ⟨old, _⟩ := h.probe found
    · obtain ⟨s, state, ref, _⟩ := h.upsert added
      exact .inl ⟨s, state, ref⟩
    · exact .inr old
  | retry t =>
    rw [(applyReconcileRetryTransition_retried accepted).probes] at found
    exact .inr found

theorem row_of_readback {nodeID : String} {db : Database} {r : Recovery} {s : PersistedState}
    (read : change.readback nodeID db = .ok (r, true)) (state : change.state? = some s) :
    ∃ row, db.row? s.ref.slot = some row ∧ row.ref s.ref.slot = s.ref ∧
      row.status = s.retry.status ∧ row.attemptCount = s.retry.attemptCount := by
  obtain ⟨owner, load⟩ := load_of_readback read
  have loaded := loaded_of_loadRecovery load
  have shown : ∃ p ∈ r.states, p.ref = s.ref ∧ p.retry.status = s.retry.status ∧
      p.retry.attemptCount = s.retry.attemptCount := by
    cases change with
    | ledger t =>
      simp only [readback, Except.map] at read
      split at read
      · cases read
      · simp only [Except.ok.injEq, Prod.mk.injEq] at read
        obtain ⟨rfl, applied⟩ := read
        unfold reconcileTransitionApplied at applied
        simp only [Bool.and_eq_true, Option.all_eq_true] at applied
        have found := applied.1.1 s state
        rw [List.any_eq_true] at found
        obtain ⟨p, member, same⟩ := found
        unfold samePersistedState at same
        simp only [Bool.and_eq_true, beq_iff_eq] at same
        exact ⟨p, member, same.1.1.1.1.1.2, same.1.1.1.1.2, same.1.1.1.2⟩
    | retry t =>
      cases state
      simp only [readback, readReconcileRetryTransition, bind_eq_ok, pure, Except.pure,
        Except.ok.injEq, Prod.mk.injEq, Bool.and_eq_true] at read
      obtain ⟨recovery, _, _, _, rfl, applied, _⟩ := read
      unfold recoveryContainsState at applied
      rw [List.any_eq_true] at applied
      obtain ⟨p, member, same⟩ := applied
      simp only [Bool.and_eq_true, beq_iff_eq] at same
      exact ⟨p, member, same.1.1.1.2, same.1.1.2, same.1.2⟩
  obtain ⟨p, member, ref, status, count⟩ := shown
  obtain ⟨slot, row, found, rfl⟩ := (loaded.states p).mp member
  have ref : row.ref slot = s.ref := ref
  have slots : slot = s.ref.slot := congrArg AttemptRef.slot ref
  subst slots
  exact ⟨row, found, ref, status, count⟩

end Change

theorem Permitted.states (h : Permitted env plans c trace σ w) (m : Controller) :
    (w.success m).states = m.states.insert w.ref w.state := by
  cases h <;> rfl

theorem Permitted.state? (h : Permitted env plans c trace σ w) (m : Controller) (ref : AttemptRef) :
    (w.success m).state? ref = if ref = w.ref then some w.state else m.state? ref := by
  unfold Controller.state?
  rw [h.states]
  split
  · rename_i same
    rw [same, AList.lookup_insert]
  · rename_i different
    rw [AList.lookup_insert_ne different]

theorem Permitted.alive (h : Permitted env plans c trace σ w) :
    σ ≠ .dead := by
  cases h <;> nofun

theorem Permitted.startupProbeRequired (h : Permitted env plans c trace σ w) (m : Controller) :
    (w.success m).startupProbeRequired = m.startupProbeRequired := by
  cases h <;> rfl

theorem Permitted.stage_ne_applied (h : Permitted env plans c trace σ w) {plan : OperationPlan}
    {ref : AttemptRef} : w.stage ≠ .applied plan ref := by
  cases h <;> nofun

theorem Permitted.begun {plan : OperationPlan} {ref : AttemptRef}
    (h : Permitted env plans c trace σ w) (stage : w.stage = .begun plan ref) :
    w.ref = ref ∧ w.state.status = .applying ∧
      w.state.attemptCount = (c.getState ref).attemptCount + 1 ∧
      (∃ t s, w.change = .ledger t ∧ t.state = some s ∧ s.ref = w.ref ∧ s.retry = w.state) ∧
      w.state.attemptCount ≤ maxMutationAttempts := by
  cases h with
  | begin _ _ _ _ budget _ _ _ =>
    cases stage
    exact ⟨rfl, rfl, rfl, ⟨_, _, rfl, rfl, rfl, rfl⟩, budget⟩
  | _ => cases stage

/-- How the row a write touches goes with the memory state it sets. -/
inductive Write.Fits (c : Controller) (w : Write) : Prop
  | own (s : PersistedState) (state : w.change.state? = some s) (ref : s.ref = w.ref)
      (retry : s.retry = w.state)
  /-- A retired attempt: the row is left alone or is that of a newer epoch. -/
  | other (known : (c.state? w.ref).isSome)
      (count : w.state.attemptCount = (c.getState w.ref).attemptCount)
      (row : ∀ s, w.change.state? = some s → s.ref ≠ w.ref ∧ s.ref.slot = w.ref.slot ∧
        c.state? s.ref = some s.retry)

theorem Controller.staleRow_cases (c : Controller) (ref : AttemptRef) (key : PendingProbeKey) :
    c.staleRow ref key = (ref, c.staleState ref) ∨
      (c.staleRow ref key).1 ≠ ref ∧ c.currentRef? key.slot = some (c.staleRow ref key).1 ∧
        c.state? (c.staleRow ref key).1 = some (c.staleRow ref key).2 := by
  unfold staleRow currentStateForPendingKey
  cases current : c.currentRef? key.slot with
  | none => exact .inl rfl
  | some other =>
    cases state : c.state? other with
    | none => exact .inl (by simp [state])
    | some st =>
      by_cases same : other = ref
      · subst same
        exact .inl (by simp [state])
      · exact .inr (by simp [state, same])

theorem Controller.samePhysical_of_keeps {ref other : AttemptRef}
    (keeps : ¬ c.clearsOnly ref other = true) : sameAttemptPhysicalKey ref other = true := by
  simp only [clearsOnly, decide_eq_true_eq, not_or, not_not] at keeps
  exact keeps.2

theorem Permitted.fits (h : Permitted env plans c trace σ w) :
    w.Fits c := by
  have retired : ∀ {ref key drop stage updated removed}, (c.state? ref).isSome →
      (Write.retire c ref key drop stage updated removed).Fits c := by
    intro ref key drop stage updated removed known
    by_cases clears : c.clearsOnly ref (c.staleRow ref key).1 = true
    · refine .other known rfl ?_
      intro s state
      simp [Write.retire, Change.state?, clears] at state
    · have written : (Write.retire c ref key drop stage updated removed).change.state? =
          some (c.record (c.staleRow ref key).1 (c.staleRow ref key).2 updated) := by
        simp [Write.retire, Change.state?, clears]
      obtain own | ⟨other, _, found⟩ := c.staleRow_cases ref key
      · exact .own _ written (by rw [own]; rfl) (by rw [own]; rfl)
      · refine .other known rfl ?_
        intro s state
        rw [written] at state
        cases state
        refine ⟨other, ?_, found⟩
        have same := sameAttemptPhysicalKey_iff.mp (Controller.samePhysical_of_keeps clears)
        exact same.1.symm
  cases h with
  | retireApplied _ known => exact retired known
  | retirePending _ _ known => exact retired known
  | _ => exact .own _ rfl rfl rfl

/-- Memory follows the ledger of the covered failure domains. -/
structure Tracks (covered : ReconcileKey → Prop) (db : Database) (c : Controller) : Prop where
  counted : ∀ slot row, covered slot → db.row? slot = some row → 0 < row.attemptCount →
    ∃ st, c.state? (row.ref slot) = some st ∧ st.attemptCount = row.attemptCount
  reached : ∀ ref st, covered ref.slot → c.state? ref = some st → db.reaches ref

/-- The requirements of the covered failure domains are not ahead of their rows. -/
def Required (covered : ReconcileKey → Prop) (db : Database) : Prop :=
  ∀ id us, covered id.ref.slot → db.probes.lookup id = some us → db.reaches id.ref

/-- Between a COMMIT without an answer and its readback: the memory state to be set belongs to
the row of the write, or goes with the ledger already. -/
def Retained (covered : ReconcileKey → Prop) (db : Database) (w : Write) : Prop :=
  (∃ s, w.change.state? = some s ∧ s.ref = w.ref ∧ s.retry = w.state) ∨
  (covered w.ref.slot → db.reaches w.ref ∧ ∀ row, db.row? w.ref.slot = some row →
    row.ref w.ref.slot = w.ref → 0 < row.attemptCount →
      row.attemptCount = w.state.attemptCount)

structure Tracked (covered : ReconcileKey → Prop) (phase : Phase) (s : Scene) : Prop where
  required : Required covered s.db
  live : match phase with
    | .settled σ => σ ≠ .dead → s.controller.recoveryReloadNeeded = false →
        Tracks covered s.db s.controller
    | .adrift _ w => Retained covered s.db w

section Steps

variable {covered : ReconcileKey → Prop} {before after : Database} {c c' : Controller}

theorem Required.resets (h : Required covered before) (resets : Resets before after) :
    Required covered after := by
  intro id us cover found
  rw [resets.probes] at found
  exact (resets.grows _).reaches (h id us cover found)

theorem Tracks.resets (h : Tracks covered before c) (resets : Resets before after)
    (same : c'.states = c.states) : Tracks covered after c' := by
  have state? : ∀ ref, c'.state? ref = c.state? ref := fun ref => by
    unfold Controller.state?
    rw [same]
  refine ⟨?_, ?_⟩
  · intro slot row cover found positive
    rw [state?]
    exact h.counted slot row cover (resets.row?_of_attempted found positive) positive
  · intro ref st cover known
    rw [state?] at known
    exact (resets.grows _).reaches (h.reached ref st cover known)

variable {nodeID : String}

theorem Retained.resets (h : Retained covered before w) (resets : Resets before after) :
    Retained covered after w := by
  obtain own | other := h
  · exact .inl own
  · refine .inr fun cover => ?_
    obtain ⟨reached, counted⟩ := other cover
    refine ⟨(resets.grows _).reaches reached, ?_⟩
    intro row found same positive
    exact counted row (resets.row?_of_attempted found positive) same positive

theorem tracks_of_hydrated (hydrated : Hydrated nodeID before c)
    (required : Required covered before) (same : c'.states = c.states) :
    Tracks covered before c' := by
  have state? : ∀ ref, c'.state? ref = c.state? ref := fun ref => by
    unfold Controller.state?
    rw [same]
  refine ⟨?_, ?_⟩
  · intro slot row cover found _
    obtain ⟨st, recovered, known⟩ := hydrated.row slot row found
    exact ⟨st, by rw [state?, known], recoverApplying_attemptCount recovered⟩
  · intro ref st cover known
    rw [state?] at known
    obtain ⟨row, found, ref_, _⟩ | ⟨_, id, us, found, rfl, _⟩ := hydrated.state ref st known
    · refine ⟨row, found, .inr ⟨?_, ?_⟩⟩
      · exact (congrArg AttemptRef.version ref_).symm
      · exact (congrArg AttemptRef.epoch ref_).ge
    · exact required id us cover found

theorem Tracks.set {ref : AttemptRef} {state : RetryState} (h : Tracks covered before c)
    (states : ∀ other, c'.state? other = if other = ref then some state else c.state? other)
    (fits : covered ref.slot → before.reaches ref ∧ ∀ row, before.row? ref.slot = some row →
      row.ref ref.slot = ref → 0 < row.attemptCount → row.attemptCount = state.attemptCount) :
    Tracks covered before c' := by
  refine ⟨?_, ?_⟩
  · intro slot row cover found positive
    rw [states]
    split
    · rename_i same
      have slots : slot = ref.slot := congrArg AttemptRef.slot same
      subst slots
      exact ⟨state, rfl, ((fits cover).2 row found same positive).symm⟩
    · exact h.counted slot row cover found positive
  · intro other st cover known
    rw [states] at known
    split at known
    · rename_i same
      subst same
      exact (fits cover).1
    · exact h.reached other st cover known

theorem Tracks.write (h : Tracks covered before c)
    (admitted : Admitted w.change.state? before after)
    (grows : ∀ slot, covered slot → GrowsAt slot before after) (fits : w.Fits c)
    (states : ∀ ref, c'.state? ref = if ref = w.ref then some w.state else c.state? ref) :
    Tracks covered after c' := by
  have grown : ∀ ref st, covered ref.slot → c.state? ref = some st → after.reaches ref :=
    fun ref st cover known => (grows _ cover).reaches (h.reached ref st cover known)
  cases fits with
  | own s state ref retry =>
    rw [state] at admitted
    have row := admitted.row?_self
    refine ⟨?_, ?_⟩
    · intro slot row' cover found positive
      rw [states]
      by_cases same : slot = s.ref.slot
      · subst same
        rw [row] at found
        cases found
        refine ⟨w.state, if_pos ref, ?_⟩
        rw [← retry]
        rfl
      · have old := found
        rw [admitted.row?_other same] at old
        rw [if_neg]
        · exact h.counted slot row' cover old positive
        · intro refs
          exact same ((congrArg AttemptRef.slot refs).trans (congrArg AttemptRef.slot ref).symm)
    · intro other st cover known
      rw [states] at known
      split at known
      · rename_i same
        rw [same, ← ref]
        exact ⟨_, row, .inr ⟨rfl, le_refl _⟩⟩
      · exact grown other st cover known
  | other known count row =>
    obtain ⟨st, found⟩ := Option.isSome_iff_exists.mp known
    have getState : c.getState w.ref = st := by
      unfold Controller.getState
      rw [found]
      rfl
    refine ⟨?_, ?_⟩
    · intro slot row' cover held positive
      rw [states]
      cases state : w.change.state? with
      | none =>
        rw [state] at admitted
        rw [admitted.row?_none] at held
        obtain ⟨st', known', counts⟩ := h.counted slot row' cover held positive
        split
        · rename_i same
          rw [same, found] at known'
          cases known'
          exact ⟨_, rfl, by rw [count, getState, counts]⟩
        · exact ⟨st', known', counts⟩
      | some s =>
        rw [state] at admitted
        obtain ⟨different, slots, known'⟩ := row s state
        by_cases same : slot = s.ref.slot
        · subst same
          rw [admitted.row?_self] at held
          cases held
          rw [ref_encode, if_neg different]
          exact ⟨s.retry, known', rfl⟩
        · rw [admitted.row?_other same] at held
          rw [if_neg]
          · exact h.counted slot row' cover held positive
          · intro refs
            exact same ((congrArg AttemptRef.slot refs).trans slots.symm)
    · intro other st' cover known'
      rw [states] at known'
      split at known'
      · rename_i same
        rw [same] at cover ⊢
        exact grown w.ref st cover found
      · exact grown other st' cover known'

theorem Retained.resolve {r : Recovery} (h : Retained covered before w)
    (read : w.change.readback nodeID before = .ok (r, true)) :
    covered w.ref.slot → before.reaches w.ref ∧ ∀ row, before.row? w.ref.slot = some row →
      row.ref w.ref.slot = w.ref → 0 < row.attemptCount →
        row.attemptCount = w.state.attemptCount := by
  obtain ⟨s, state, ref, retry⟩ | other := h
  · intro _
    obtain ⟨row, found, refs, _, count⟩ := Change.row_of_readback read state
    rw [ref] at found refs
    refine ⟨⟨row, found, .inr ⟨?_, ?_⟩⟩, ?_⟩
    · exact (congrArg AttemptRef.version refs).symm
    · exact (congrArg AttemptRef.epoch refs).ge
    · intro row' found' _ _
      rw [found] at found'
      cases found'
      rw [count, retry]
  · exact other

theorem Retained.of_fits (h : Tracks covered before c) (fits : w.Fits c) :
    Retained covered before w := by
  cases fits with
  | own s state ref retry => exact .inl ⟨s, state, ref, retry⟩
  | other known count row =>
    refine .inr fun cover => ?_
    obtain ⟨st, found⟩ := Option.isSome_iff_exists.mp known
    refine ⟨h.reached w.ref st cover found, ?_⟩
    intro row' held same positive
    obtain ⟨st', known', counts⟩ := h.counted _ row' cover held positive
    rw [same] at known'
    rw [count, Controller.getState, known']
    exact counts.symm

theorem Retained.of_tracks (h : Tracks covered before c) (states : c.state? w.ref = some w.state) :
    Retained covered before w := by
  refine .inr fun cover => ⟨h.reached _ _ cover states, ?_⟩
  intro row held same positive
  obtain ⟨st, known, counts⟩ := h.counted _ row cover held positive
  rw [same, states] at known
  cases known
  exact counts.symm

end Steps

section Runs

variable {env : Env} {plans : Command → Prop} {covered : ReconcileKey → Prop}
  {p q : Phase} {s t : Scene}

private theorem required_of_write {w : Write} {db : Database}
    (h : Required covered s.db) (accepted : w.change.apply s.db = .ok db)
    (grows : ∀ slot, covered slot → GrowsAt slot s.db db) : Required covered db := by
  intro id us cover found
  obtain ⟨st, state, ref⟩ | old := Change.probe accepted found
  · have admitted := Change.admitted accepted
    rw [state] at admitted
    rw [← ref]
    exact ⟨_, admitted.row?_self, .inr ⟨rfl, le_refl _⟩⟩
  · exact (grows _ cover).reaches (h id us cover old)

theorem Move.growsAt (step : Move env plans p s q t) (compared : Compared covered t.trace)
    {slot : ReconcileKey} (cover : covered slot) : GrowsAt slot s.db t.db := by
  cases step with
  | external action may => exact (resets_onDatabase _ action s.db).grows slot
  | observe attested same => exact GrowsAt.of_eq (same.row? slot)
  | commit loaded permitted accepted =>
    have durable : Commit.durable .commits := trivial
    exact Change.growsAt accepted durable (compared _ List.mem_cons_self) cover
  | land loaded permitted accepted =>
    have durable : Commit.durable .unknownCommitted := trivial
    exact Change.growsAt accepted durable (compared _ List.mem_cons_self) cover
  | _ => exact GrowsAt.refl _

theorem Tracked.step (drifting : Drifting env plans p s) (step : Move env plans p s q t)
    (compared : Compared covered t.trace) (h : Tracked covered p s) : Tracked covered q t := by
  have same : Resets s.db s.db := Resets.refl _
  have grows : ∀ slot, covered slot → GrowsAt slot s.db t.db :=
    fun _ cover => step.growsAt compared cover
  -- every move between settled stages that leaves the ledger and the states as they are
  have calm : ∀ {σ σ' : Stage} {db : Database} {c : Controller} {trace : List Event},
      Tracked covered (.settled σ) s → (σ' ≠ .dead → σ ≠ .dead) → Resets s.db db →
      c.states = s.controller.states →
      c.recoveryReloadNeeded = s.controller.recoveryReloadNeeded →
      Tracked covered (.settled σ') ⟨⟨db, c⟩, trace⟩ := by
    intro σ σ' db c trace h live resets states flag
    refine ⟨h.required.resets resets, fun live' loaded => ?_⟩
    exact (h.live (live live') (flag ▸ loaded)).resets resets states
  have hydrated : ∀ {owner : String} {r : Recovery} {c : Controller},
      loadRecovery owner s.db = .ok r → s.controller.replaceRecovery r = .ok c →
      Tracks covered s.db { c with recoveryReloadNeeded := false } := by
    intro owner r c load replaced
    obtain ⟨memory, hydrates, states, _⟩ := (replaced_of_replaceRecovery replaced).hydrated
    exact tracks_of_hydrated (hydrated_of_loadRecovery load hydrates) h.required states
  cases step with
  | @external _ _ locked action may =>
    have resets := resets_onDatabase env.digests.policy action s.db
    have memory := @republished_act env locked s action
    cases p with
    | settled σ => exact calm h id resets memory.states memory.recoveryReloadNeeded
    | adrift σ w => exact ⟨h.required.resets resets, h.live.resets resets⟩
  | note | probe | confirm | pend | started | boot => exact calm h id same rfl rfl
  | apply | enter | widen => exact calm h (fun _ => nofun) same rfl rfl
  | observe attested ledger => exact calm h id (.of_same ledger) rfl rfl
  | remember neutral =>
    rw [neutral.shape]
    exact calm h id same rfl rfl
  | leave live => exact calm h (fun _ => live) same rfl rfl
  | @quit σ =>
    refine calm h ?_ same rfl rfl
    rintro live rfl
    exact live rfl
  | @commit σ _ w db loaded permitted accepted =>
    refine ⟨required_of_write h.required accepted grows, fun _ _ => ?_⟩
    have tracks := h.live permitted.alive loaded
    exact tracks.write (Change.admitted accepted) grows permitted.fits
      (permitted.state? s.controller)
  | refuse loaded permitted refused | fail loaded permitted accepted =>
    exact calm h (fun _ => permitted.alive) same rfl rfl
  | @lose σ _ w db loaded permitted accepted =>
    exact ⟨h.required, .of_fits (h.live permitted.alive loaded) permitted.fits⟩
  | @land σ _ w db loaded permitted accepted =>
    have tracks := (h.live permitted.alive loaded).write (Change.admitted accepted) grows
      permitted.fits (permitted.state? s.controller)
    refine ⟨required_of_write h.required accepted grows, .of_tracks tracks ?_⟩
    rw [permitted.state?, if_pos rfl]
  | flag => exact ⟨h.required, fun _ loaded => by cases loaded⟩
  | @adopt σ w _ r c read replaced =>
    obtain ⟨owner, load⟩ := Change.load_of_readback read
    refine ⟨h.required, fun _ _ => ?_⟩
    exact (hydrated load replaced).set (drifting.1.state? _) (h.live.resolve read)
  | @abandon σ w _ r c applied read replaced =>
    obtain ⟨owner, load⟩ := Change.load_of_readback read
    exact ⟨h.required, fun _ _ => hydrated load replaced⟩
  | @reload σ _ r c may read replaced =>
    exact ⟨h.required, fun _ _ =>
      hydrated (loadRecovery_of_loadReconcileRecovery read) replaced⟩
  | die => exact ⟨h.required, fun live => absurd rfl live⟩
  | @restart _ r c read hydrates =>
    refine ⟨h.required, fun _ _ => ?_⟩
    exact tracks_of_hydrated (hydrated_of_loadRecovery
      (loadRecovery_of_loadReconcileRecovery read) hydrates) h.required rfl

end Runs

end GuardWall.Reconcile
