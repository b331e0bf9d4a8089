import GuardWall.Foundation.Steps
import GuardWall.Reconcile.Provider
import GuardWall.Reconcile.Runs
import GuardWall.Reconcile.Tracking

/-! What a confirmation rests on: a key becomes Converged, and a revision or generation is
recorded as confirmed, only while the newest Probe shows the intent that is published. -/
namespace GuardWall.Reconcile

open GuardWall.Core GuardWall.Foundation GuardWall.Store

def Event.converges (ref : AttemptRef) : Event → List Event → Prop
  | .wrote t _ before, older => Borne before.controller older ref.slot ref.version ∧
      ∃ s, t.state = some s ∧ s.ref = ref ∧ s.retry.status = .converged
  | _, _ => False

def Proven (ref : AttemptRef) (trace : List Event) : Prop :=
  ∃ newer event older, trace = newer ++ event :: older ∧ event.converges ref older

theorem Proven.of_suffix {ref : AttemptRef} {older trace : List Event} (h : Proven ref older)
    (suffix : older <:+ trace) : Proven ref trace := by
  obtain ⟨first, rfl⟩ := suffix
  obtain ⟨newer, event, oldest, rfl, converges⟩ := h
  exact ⟨first ++ newer, event, oldest, (List.append_assoc _ _ _).symm, converges⟩

structure UnderFence (c : Controller) (older : List Event) (t : Transition) (s : PersistedState) :
    Prop where
  borne : Borne c older s.ref.slot s.ref.version
  fence : ∀ p, t.deleteProbe = some p → c.pendingKeyMatchesCurrentDesired p.key = true

/-- The retirement of an attempt of another epoch persists the state once more that memory holds
for the current one. -/
structure Repeated (c : Controller) (t : Transition) (s : PersistedState) : Prop where
  held : c.state? s.ref = some s.retry
  current : c.currentRef? s.ref.slot = some s.ref
  retired : ∃ p, t.deleteProbe = some p ∧ sameAttemptPhysicalKey p.ref s.ref = true ∧
    p.ref.epoch ≠ s.ref.epoch

def Event.vouched : Event → List Event → Prop
  | .wrote t _ before, older =>
      (∀ s, t.state = some s → s.retry.status = .converged →
        UnderFence before.controller older t s ∨
          Repeated before.controller t s ∧ Proven s.ref older) ∧
      ∀ update, t.observed = some update → Attested before.controller older update
  | .observed update _ before, older => Attested before.controller older update
  | .confirmed target generation before, older =>
      Borne before.controller older (.target target) generation
  | _, _ => True

section Permission

variable {env : Env} {plans : Command → Prop} {c : Controller} {trace : List Event} {σ : Stage}
  {w : Write}

variable {ref : AttemptRef} {t : Transition}

variable {slot : ReconcileKey} {key : PendingProbeKey} {s : PersistedState}

theorem Controller.published?_of_currentRef? (h : c.currentRef? slot = some ref) :
    ref.slot = slot ∧ c.published? slot = some ref.version := by
  obtain ⟨version, published, rfl⟩ := Option.map_eq_some_iff.mp h
  exact ⟨rfl, published⟩

theorem Borne.of_currentRef? (h : c.currentRef? slot = some ref) (seen : Seen c trace slot) :
    Borne c trace ref.slot ref.version := by
  obtain ⟨rfl, published⟩ := Controller.published?_of_currentRef? h
  exact ⟨published, seen⟩

theorem Borne.of_names (current : c.pendingKeyMatchesCurrentDesired key = true)
    (seen : Seen c trace key.slot) (names : key.names ref) :
    Borne c trace ref.slot ref.version := by
  have found := Controller.currentRef?_of_pendingKeyMatches current
  have borne := Borne.of_currentRef? found seen
  rw [← names]
  exact borne

theorem Controller.failedState_status_ne (s : RetryState) (code : String) (next : Option Instant) :
    (Controller.failedState s code next).status ≠ .converged := by
  unfold Controller.failedState
  cases next <;> nofun

theorem Write.repeated_of_retire {drop : Bool} {stage : Stage} {updated removed : Instant}
    (names : key.names ref)
    (change : (Write.retire c ref key drop stage updated removed).change = .ledger t)
    (state : t.state = some s) (converged : s.retry.status = .converged) : Repeated c t s := by
  cases change
  dsimp only at state
  split at state
  · cases state
  · rename_i keeps
    cases state
    obtain own | ⟨other, current, held⟩ := c.staleRow_cases ref key
    · rw [own] at converged
      cases converged
    · obtain ⟨slot, _⟩ := Controller.published?_of_currentRef? current
      -- The row is of the same revision or generation, so that only the epoch can differ.
      have physical := Controller.samePhysical_of_keeps keeps
      refine ⟨held, slot.symm ▸ current, _, rfl, (congrArg (sameAttemptPhysicalKey · _) names).trans
        physical, fun epoch => other ?_⟩
      obtain ⟨sameSlot, sameVersion⟩ := sameAttemptPhysicalKey_iff.mp physical
      exact (AttemptRef.ext sameSlot sameVersion epoch).symm

theorem Permitted.converged (h : Permitted env plans c trace σ w) (shaped : σ.shaped)
    (change : w.change = .ledger t) (state : t.state = some s)
    (converged : s.retry.status = .converged) :
    UnderFence c trace t s ∨ Repeated c t s := by
  cases h with
  | begin | invalid =>
    cases change
    cases state
    cases converged
  | failBegun | failApplied =>
    cases change
    cases state
    exact absurd converged (Controller.failedState_status_ne _ _ _)
  | retireApplied stale known => exact .inr (Write.repeated_of_retire shaped change state converged)
  | retirePending probed stale known names =>
    exact .inr (Write.repeated_of_retire names change state converged)
  | converge current seen attested =>
    cases change
    cases state
    have matched := pendingKeyMatches_of_planMatches current
    refine .inl ⟨Borne.of_names matched seen shaped, ?_⟩
    rintro p ⟨⟩
    exact matched
  | recover current seen known names carrier =>
    cases change
    cases state
    refine .inl ⟨?_, ?_⟩
    · obtain ⟨same, _⟩ | ⟨found, _⟩ := carrier
      · exact Borne.of_names current seen (same.symm ▸ names)
      · exact Borne.of_currentRef? found seen
    · rintro p ⟨⟩
      exact current
  | startup resolved current seen =>
    cases change
    cases state
    refine .inl ⟨Borne.of_currentRef? current seen, ?_⟩
    rintro p ⟨⟩
  | retry => cases change

theorem Permitted.attested {update : ObservedUpdate} (h : Permitted env plans c trace σ w)
    (change : w.change = .ledger t) (observed : t.observed = some update) :
    Attested c trace update := by
  cases h with
  | failApplied counted settled attested | converge current seen attested =>
    cases change
    exact attested update observed
  | retry => cases change
  | _ =>
    cases change
    cases observed

theorem Permitted.converged_memory (h : Permitted env plans c trace σ w)
    (converged : w.state.status = .converged) : ∃ t s, w.change = .ledger t ∧
      t.state = some s ∧ s.ref = w.ref ∧ s.retry.status = .converged := by
  cases h with
  | converge | recover | startup => exact ⟨_, _, rfl, rfl, rfl, rfl⟩
  | failBegun | failApplied => exact absurd converged (Controller.failedState_status_ne _ _ _)
  | _ => cases converged

end Permission

theorem recoverApplying_converged {s st : RetryState} (h : recoverApplying s = .ok st)
    (converged : st.status = .converged) : s.status = .converged := by
  unfold recoverApplying at h
  split at h
  · cases h
    exact converged
  · split at h
    · cases h
      cases converged
    · split at h
      · cases h
        cases converged
      · cases h

def Phase.awaits (P : Write → Prop) : Phase → Prop
  | settled _ => True
  | adrift _ w => P w

theorem Phase.awaits.mono {P Q : Write → Prop} (le : ∀ w, P w → Q w) {phase : Phase}
    (h : phase.awaits P) : phase.awaits Q := by
  cases phase with
  | settled σ => trivial
  | adrift σ w => exact le w h

structure Evident (phase : Phase) (s : Scene) : Prop where
  shaped : Shaped phase s
  events : EachTail Event.vouched s.trace
  memory : ∀ ref st, s.controller.state? ref = some st → st.status = .converged →
    Proven ref s.trace
  ledger : ∀ slot row, s.db.row? slot = some row → row.status = .converged →
    Proven (row.ref slot) s.trace
  adrift : phase.awaits fun w => w.state.status = .converged → Proven w.ref s.trace

section Runs

variable {env : Env} {plans : Command → Prop} {p q : Phase} {s t : Scene}

namespace Evident

variable {σ : Stage} {w : Write} {commit : Commit}

theorem vouched_wrote (h : Evident (.settled σ) s)
    (permitted : Permitted env plans s.controller s.trace σ w) :
    (w.change.wrote commit s.toMoment).vouched s.trace := by
  cases change : w.change with
  | retry r => trivial
  | ledger t =>
    refine ⟨fun s' state converged => ?_, fun update observed => permitted.attested change observed⟩
    obtain fenced | repeated := permitted.converged h.shaped.stage change state converged
    · exact .inl fenced
    · exact .inr ⟨repeated, h.memory _ _ repeated.held converged⟩

theorem proven_wrote (h : Evident (.settled σ) s)
    (permitted : Permitted env plans s.controller s.trace σ w) {s' : PersistedState}
    (state : w.change.state? = some s') (converged : s'.retry.status = .converged) :
    Proven s'.ref (w.change.wrote commit s.toMoment :: s.trace) := by
  cases change : w.change with
  | retry r =>
    cases permitted with
    | retry =>
      cases state
      cases converged
    | _ => cases change
  | ledger t =>
    rw [change] at state
    obtain fenced | repeated := permitted.converged h.shaped.stage change state converged
    · exact ⟨[], _, _, rfl, fenced.borne, s', state, rfl, converged⟩
    · exact (h.memory _ _ repeated.held converged).of_suffix (List.suffix_cons _ _)

theorem proven_memory (h : Evident (.settled σ) s)
    (permitted : Permitted env plans s.controller s.trace σ w)
    (converged : w.state.status = .converged) :
    Proven w.ref (w.change.wrote commit s.toMoment :: s.trace) := by
  obtain ⟨t, s', change, state, ref, row⟩ := permitted.converged_memory converged
  rw [← ref]
  exact h.proven_wrote permitted (by rw [change]; exact state) row

theorem ledger_write {db : Database} (h : Evident (.settled σ) s)
    (permitted : Permitted env plans s.controller s.trace σ w)
    (accepted : w.change.apply s.db = .ok db) (slot : ReconcileKey) (row : StateRow)
    (found : db.row? slot = some row) (converged : row.status = .converged) :
    Proven (row.ref slot) (w.change.wrote commit s.toMoment :: s.trace) := by
  have admitted := Change.admitted accepted
  have kept : s.db.row? slot = some row →
      Proven (row.ref slot) (w.change.wrote commit s.toMoment :: s.trace) :=
    fun old => (h.ledger slot row old converged).of_suffix (List.suffix_cons _ _)
  cases state : w.change.state? with
  | none =>
    rw [state] at admitted
    rw [admitted.row?_none] at found
    exact kept found
  | some s' =>
    rw [state] at admitted
    by_cases same : slot = s'.ref.slot
    · subst same
      rw [admitted.row?_self] at found
      cases found
      rw [ref_encode]
      exact h.proven_wrote permitted state converged
    · rw [admitted.row?_other same] at found
      exact kept found

theorem memory_hydrated {nodeID : String} {c c' : Controller} (h : Evident p s)
    (hydrated : Hydrated nodeID s.db c) (same : c'.states = c.states) (ref : AttemptRef)
    (st : RetryState) (known : c'.state? ref = some st) (converged : st.status = .converged) :
    Proven ref s.trace := by
  unfold Controller.state? at known
  rw [same] at known
  obtain ⟨row, found, named, recovered⟩ | ⟨_, id, us, _, _, rfl⟩ := hydrated.state ref st known
  · rw [← named]
    exact h.ledger _ row found (recoverApplying_converged recovered converged)
  · cases converged

theorem memory_replaced {owner : String} {r : Recovery} {c : Controller} (h : Evident p s)
    (load : loadRecovery owner s.db = .ok r) (replaced : s.controller.replaceRecovery r = .ok c)
    (ref : AttemptRef) (st : RetryState)
    (known : Controller.state? { c with recoveryReloadNeeded := false } ref = some st)
    (converged : st.status = .converged) : Proven ref s.trace := by
  obtain ⟨memory, hydrates, states, _⟩ := (replaced_of_replaceRecovery replaced).hydrated
  exact h.memory_hydrated (hydrated_of_loadRecovery load hydrates) states ref st known converged

theorem step (drifting : Drifting env plans p s) (step : Move env plans p s q t)
    (h : Evident p s) : Evident q t := by
  have shaped := h.shaped.step drifting step
  have later : ∀ {ref}, Proven ref s.trace → Proven ref t.trace :=
    fun proven => proven.of_suffix step.suffix
  -- a step that touches neither the states nor the rows, and confirms nothing unvouched
  have calm : EachTail Event.vouched t.trace →
      t.controller.states = s.controller.states → Resets s.db t.db →
      (q.awaits fun w => w.state.status = .converged → Proven w.ref t.trace) → Evident q t := by
    intro events states resets adrift
    refine ⟨shaped, events, ?_, ?_, adrift⟩
    · intro ref st known converged
      unfold Controller.state? at known
      rw [states] at known
      exact later (h.memory ref st known converged)
    · intro slot row found converged
      obtain same | ⟨new, foundNew, fresh⟩ := resets.rows slot
      · exact later (h.ledger slot row (same.symm.trans found) converged)
      · rw [found] at foundNew
        cases foundNew
        rw [fresh.status] at converged
        cases converged
  have refl : Resets s.db s.db := Resets.refl _
  have logs : ∀ {event : Event}, event.vouched s.trace →
      EachTail Event.vouched (event :: s.trace) := fun first => ⟨first, h.events⟩
  cases step with
  | @external _ _ locked action may =>
    exact calm (logs trivial) republished_act.states (resets_onDatabase _ action s.db)
      (h.adrift.mono fun _ proven converged => later (proven converged))
  | @note σ _ event quiet =>
    refine calm (logs ?_) rfl refl trivial
    cases event <;> trivial
  | probe | apply | boot => exact calm (logs trivial) rfl refl trivial
  | observe attested same => exact calm (logs attested) rfl (.of_same same) trivial
  | confirm borne same durable =>
    exact calm (logs (borne.later same rfl)) rfl refl trivial
  | remember neutral => exact calm h.events (by rw [neutral.shape]) refl trivial
  | pend | started | enter | widen | leave | quit | flag =>
    exact calm h.events rfl refl trivial
  | @commit σ _ w db loaded permitted accepted =>
    refine ⟨shaped, logs (h.vouched_wrote permitted), ?_, h.ledger_write permitted accepted, trivial⟩
    intro ref st known converged
    rw [permitted.state?] at known
    split at known
    · rename_i same
      cases known
      rw [same]
      exact h.proven_memory permitted converged
    · exact later (h.memory ref st known converged)
  | @refuse σ _ w fault loaded permitted refused =>
    refine calm (logs ?_) rfl refl trivial
    cases w.change <;> trivial
  | fail loaded permitted accepted =>
    exact calm (logs (h.vouched_wrote permitted)) rfl refl trivial
  | @lose σ _ w db loaded permitted accepted =>
    refine ⟨shaped, logs (h.vouched_wrote permitted), ?_, ?_, ?_⟩
    · exact fun ref st known converged => later (h.memory ref st known converged)
    · exact fun slot row found converged => later (h.ledger slot row found converged)
    · exact fun converged => h.proven_memory permitted converged
  | @land σ _ w db loaded permitted accepted =>
    refine ⟨shaped, logs (h.vouched_wrote permitted), ?_, h.ledger_write permitted accepted, ?_⟩
    · exact fun ref st known converged => later (h.memory ref st known converged)
    · exact fun converged => h.proven_memory permitted converged
  | @adopt σ w _ r c read replaced =>
    obtain ⟨owner, load⟩ := Change.load_of_readback read
    refine ⟨shaped, h.events, ?_, h.ledger, trivial⟩
    intro ref st known converged
    rw [drifting.1.state?] at known
    split at known
    · rename_i same
      cases known
      rw [same]
      exact h.adrift converged
    · exact h.memory_replaced load replaced ref st known converged
  | abandon read replaced =>
    obtain ⟨owner, load⟩ := Change.load_of_readback read
    exact ⟨shaped, h.events, h.memory_replaced load replaced, h.ledger, trivial⟩
  | reload may read replaced =>
    exact ⟨shaped, h.events,
      h.memory_replaced (loadRecovery_of_loadReconcileRecovery read) replaced, h.ledger, trivial⟩
  | die => exact ⟨shaped, h.events, fun _ _ known => (by cases known), h.ledger, trivial⟩
  | restart read hydrates =>
    have hydrated := hydrated_of_loadRecovery (loadRecovery_of_loadReconcileRecovery read) hydrates
    exact ⟨shaped, h.events, h.memory_hydrated hydrated rfl, h.ledger, trivial⟩

end Evident

theorem evident_of_run (env : Env) (nodeID : String) (steps : List (Step env.backend.Answer)) :
    let node := (Node.run env (Node.initial nodeID) steps).phase
    Evident node.1 node.2 := by
  have path : Path env (fun _ => True) _ _ := Node.path_run_initial nodeID steps fun _ _ => trivial
  refine path.preserves (J := Evident) (fun drifting step before => before.step drifting step)
    trivial ⟨⟨?_, trivial, ?_⟩, trivial, ?_, ?_, trivial⟩
  · intro key ref found
    cases found
  · intro d published
    cases published
  · intro ref st known
    cases known
  · intro slot row found
    cases found

end Runs

/-- In every run, whatever a ledger write makes Converged and whatever an observation or memory
records as confirmed is what is published, and the newest Probe since the last Apply shows it;
the only other write of Converged persists a proven state once more. What memory or the ledger
hold as Converged was proven so in the run. -/
theorem confirmations_borne_out {env : Env} {nodeID : String}
    {steps : List (Step env.backend.Answer)} :
    (∀ newer event older, (Node.run env (Node.initial nodeID) steps).trace =
      newer ++ event :: older → event.vouched older) ∧
    (∀ slot row, (Node.run env (Node.initial nodeID) steps).db.row? slot = some row →
      row.status = .converged →
        Proven (row.ref slot) (Node.run env (Node.initial nodeID) steps).trace) ∧
    ∀ c, (Node.run env (Node.initial nodeID) steps).process = some c →
      ∀ ref st, c.state? ref = some st → st.status = .converged →
        Proven ref (Node.run env (Node.initial nodeID) steps).trace := by
  have evident := evident_of_run env nodeID steps
  generalize Node.run env (Node.initial nodeID) steps = node at evident
  have events := evident.events
  have ledger := evident.ledger
  have memory := evident.memory
  rw [Node.trace_phase] at events ledger memory
  rw [Node.db_phase] at ledger
  refine ⟨?_, ledger, ?_⟩
  · rintro newer event older split
    rw [split] at events
    exact events.split
  · intro c running ref st known converged
    refine memory ref st ?_ converged
    unfold Node.phase
    rw [running]
    exact known

instance (c : Controller) (trace : List Event) (slot : ReconcileKey) :
    Decidable (Seen c trace slot) :=
  decidable_of_iff
    ((lastProbe trace).any (fun snapshot => c.snapshotMatchesCurrentDesired snapshot slot) = true)
    (Option.any_eq_true _ _)

namespace Sample

def applies (kind : ResultKind) (seen : Bool) : Answer where
  probe := .ok { infrastructure := if seen then some infrastructure else none }
  apply := .ok { kind := kind, domain := .infrastructure }

def unfenced : OperationPlan :=
  let fenced := plan (desired 1 1 1 []) .infrastructure
  { fenced with key :=
    { fenced.key with snapshotRevision := 0, fenceSnapshotRevision := false } }

def leavesBehind : List (Step Answer) :=
  [⟨.restart, ticks 2 1⟩, ⟨.external (.publish (desired 1 1 1 [])), []⟩,
    ⟨.execute (plan (desired 1 1 1 []) .infrastructure), ticks 30 10 (applies .unknown false)⟩,
    ⟨.retry .infrastructure, ticks 30 20⟩,
    ⟨.execute unfenced,
      ticks 6 30 (applies .confirmed false) ++ ticks 20 30 (applies .confirmed true)⟩]

def movesFence : List (Step Answer) :=
  let banned := desired 2 1 1 [intent target 1 1#8]
  [⟨.external (.finalizeTargets [intent target 1 1#8] (second 35)), []⟩,
    ⟨.external (.publish banned), []⟩,
    ⟨.execute (plan banned .policy), ticks 30 40 (applies .confirmed false)⟩]

def converging (check : Transition → PersistedState → Controller → List Event → Bool) :
    Event → List Event → Bool
  | .wrote t _ before, older =>
      t.state.any fun s => s.retry.status == .converged && check t s before.controller older
  | _, _ => false

theorem exists_of_converging {trace : List Event}
    {check : Transition → PersistedState → Controller → List Event → Bool}
    (h : anyTail (converging check) trace = true) : ∃ newer t commit before older s,
      trace = newer ++ .wrote t commit before :: older ∧ t.state = some s ∧
        s.retry.status = .converged ∧ check t s before.controller older = true := by
  obtain ⟨newer, event, older, split, found⟩ := exists_of_anyTail h
  cases event with
  | wrote t commit before =>
    obtain ⟨s, state, checked⟩ := (Option.any_eq_true _ _).mp found
    rw [Bool.and_eq_true, beq_iff_eq] at checked
    exact ⟨newer, t, commit, before, older, s, split, state, checked⟩
  | _ => cases found

theorem leavesBehind_converges :
    anyTail (converging fun _ s _ _ => s.ref == ⟨.infrastructure, 1, 1⟩)
        (Node.run (Sample.env false) (Node.initial Sample.nodeID) leavesBehind).trace = true ∧
      anyTail (converging fun t s c older => s.ref == ⟨.infrastructure, 1, 1⟩ &&
          decide (¬ Seen c older s.ref.slot) &&
          t.deleteProbe.any fun p => p.ref == ⟨.infrastructure, 1, 0⟩ &&
            !c.pendingKeyMatchesCurrentDesired p.key)
        (Node.run (Sample.env false) (Node.initial Sample.nodeID)
          (leavesBehind ++ movesFence)).trace = true := by
  decide +kernel

end Sample

open Sample in
theorem confirmations_borne_out_unfenced : ∃ newer t commit before older s,
    (Node.run (Sample.env false) (Node.initial Sample.nodeID) leavesBehind).trace =
      newer ++ .wrote t commit before :: older ∧
    t.state = some s ∧ s.retry.status = .converged ∧ s.ref = ⟨.infrastructure, 1, 1⟩ ∧
    (UnderFence before.controller older t s ∨
      Repeated before.controller t s ∧ Proven s.ref older) := by
  obtain ⟨newer, t, commit, before, older, s, split, state, converged, ref⟩ :=
    exists_of_converging leavesBehind_converges.1
  have vouched := confirmations_borne_out.1 newer _ older split
  exact ⟨newer, t, commit, before, older, s, split, state, converged, beq_iff_eq.mp ref,
    vouched.1 s state converged⟩

open Sample in
/-- The fence of an uncertain attempt has moved and the newest Probe does not show the
Infrastructure; its retirement writes Converged for the newer epoch. -/
theorem stale_completion_writes_converged : ∃ newer t commit before older s p,
    (Node.run (Sample.env false) (Node.initial Sample.nodeID) (leavesBehind ++ movesFence)).trace =
      newer ++ .wrote t commit before :: older ∧
    t.state = some s ∧ s.retry.status = .converged ∧ s.ref = ⟨.infrastructure, 1, 1⟩ ∧
    t.deleteProbe = some p ∧ p.ref = ⟨.infrastructure, 1, 0⟩ ∧
    before.controller.pendingKeyMatchesCurrentDesired p.key = false ∧
    ¬ Seen before.controller older s.ref.slot := by
  obtain ⟨newer, t, commit, before, older, s, split, state, converged, checked⟩ :=
    exists_of_converging leavesBehind_converges.2
  simp only [Bool.and_eq_true, beq_iff_eq, decide_eq_true_eq, Option.any_eq_true,
    Bool.not_eq_true'] at checked
  obtain ⟨⟨ref, unseen⟩, p, removed, old, moved⟩ := checked
  exact ⟨newer, t, commit, before, older, s, p, split, state, converged, ref, removed, old, moved,
    unseen⟩

end GuardWall.Reconcile
