import GuardWall.Reconcile.Provider
import GuardWall.Reconcile.Runs
import GuardWall.Reconcile.Tracking

/-! The retry epoch lives in memory and in the ledger. Where a target's published generation is
the durable one the two agree, as long as no Decision transaction moves a target on that was
retried before: such a transaction keeps the epoch in the row, and memory starts again at 0. -/
namespace GuardWall.Reconcile

open GuardWall.Core GuardWall.Foundation GuardWall.Store

def thisProcess (trace : List Event) : List Event :=
  trace.takeWhile fun event =>
    match event with
    | .restarted => false
    | _ => true

/-- The transaction leaves every target row of a positive retry epoch alone. -/
def External.keepsEpochs (hash : Hash String) (action : External) (before : Database) : Prop :=
  ∀ target row, before.row? (.target target) = some row → 0 < row.epoch →
    (action.onDatabase hash before).row? (.target target) = some row

def Event.keepsEpochs (hash : Hash String) : Event → Prop
  | .external action before => action.keepsEpochs hash before
  | _ => True

/-- Since the process started, no target with a positive retry epoch was moved on. -/
def Steady (hash : Hash String) (trace : List Event) : Prop :=
  ∀ event ∈ thisProcess trace, event.keepsEpochs hash

instance (hash : Hash String) (action : External) (before : Database) :
    Decidable (action.keepsEpochs hash before) :=
  decidable_of_iff (∀ entry ∈ before.ledger.rows, isTarget entry.1 →
      0 < entry.2.epoch → (action.onDatabase hash before).row? entry.1 = some entry.2) (by
    constructor
    · intro all target row found positive
      exact all (.target target, row) (Table.mem_rows.mpr found) ⟨target, rfl⟩ positive
    · rintro all ⟨slot, row⟩ member ⟨target, rfl⟩ positive
      exact all target row (Table.mem_rows.mp member) positive)

instance (hash : Hash String) (event : Event) : Decidable (event.keepsEpochs hash) :=
  match event with
  | .external action before => inferInstanceAs (Decidable (action.keepsEpochs hash before))
  | .restarted | .checked .. | .failing .. | .probed .. | .applied .. | .wrote .. | .refused ..
  | .retried .. | .declined .. | .observed .. | .confirmed .. => isTrue trivial

instance (hash : Hash String) (trace : List Event) : Decidable (Steady hash trace) :=
  inferInstanceAs (Decidable (∀ event ∈ thisProcess trace, event.keepsEpochs hash))

def Moment.agrees (m : Moment) (target : Prefix) : Prop :=
  ∃ row, m.db.row? (.target target) = some row ∧
    m.controller.published? (.target target) = some row.version

/-- Where the generations agree, neither an Applying record nor a retry of a target is refused
for its version or its previous epoch. -/
def Event.keyed : Event → Prop
  | .refused t fault before => t.upsertProbe.isSome → ∀ s target, t.state = some s →
      s.retry.status = .applying → s.ref.slot = .target target → before.agrees target →
        fault.is .stateRegression = false
  | .declined t fault before => ∀ target, t.state.ref.slot = .target target →
      before.agrees target → fault.is .stateRegression = false ∧
        currentRetryEpoch t.state.nodeID t.state.ref.slot before.db = .ok t.audit.previousEpoch
  | _ => True

namespace Controller

variable (c : Controller) (slot : ReconcileKey) (version : Nat)

structure Tuned : Prop where
  largest : ∀ ref, ref.slot = slot → ref.version = version → (c.state? ref).isSome →
    ref.epoch ≤ c.epochs slot
  attained : c.epochs slot = 0 ∨ (c.state? ⟨slot, version, c.epochs slot⟩).isSome

private def raise (best : Nat) (entry : AttemptRef × RetryState) : Nat :=
  if entry.1.slot = slot ∧ entry.1.version = version then max best entry.1.epoch else best

private theorem foldl_raise (rows : List (AttemptRef × RetryState)) (best : Nat) :
    best ≤ rows.foldl (raise slot version) best ∧
    (∀ entry ∈ rows, entry.1.slot = slot → entry.1.version = version →
      entry.1.epoch ≤ rows.foldl (raise slot version) best) ∧
    (rows.foldl (raise slot version) best = best ∨
      ∃ entry ∈ rows, entry.1.slot = slot ∧ entry.1.version = version ∧
        entry.1.epoch = rows.foldl (raise slot version) best) := by
  induction rows generalizing best with
  | nil => exact ⟨le_refl _, by simp, .inl rfl⟩
  | cons head rest ih =>
    rw [List.foldl_cons]
    obtain ⟨le, all, hit⟩ := ih (raise slot version best head)
    refine ⟨?_, ?_, ?_⟩
    · refine le_trans ?_ le
      unfold raise
      split
      · exact le_max_left _ _
      · exact le_refl _
    · intro entry member slots versions
      obtain rfl | member := List.mem_cons.mp member
      · refine le_trans ?_ le
        rw [raise, if_pos ⟨slots, versions⟩]
        exact le_max_right _ _
      · exact all entry member slots versions
    · obtain same | ⟨entry, member, rest⟩ := hit
      · rw [same]
        unfold raise
        split
        · rename_i matched
          obtain smaller | larger := le_total head.1.epoch best
          · exact .inl (max_eq_left smaller)
          · exact .inr ⟨head, List.mem_cons_self, matched.1, matched.2,
              (max_eq_right larger).symm⟩
        · exact .inl rfl
      · exact .inr ⟨entry, List.mem_cons_of_mem _ member, rest⟩

theorem tuned_of_maxEpoch (h : c.epochs slot = c.maxEpoch slot version) :
    c.Tuned slot version := by
  obtain ⟨_, all, hit⟩ := foldl_raise slot version c.states.rows 0
  refine ⟨?_, ?_⟩
  · intro ref slots versions known
    obtain ⟨st, found⟩ := Option.isSome_iff_exists.mp known
    rw [h]
    exact all (ref, st) (Table.mem_rows.mpr found) slots versions
  · rw [h]
    obtain zero | ⟨⟨ref, st⟩, member, slots, versions, epoch⟩ := hit
    · exact .inl zero
    · refine .inr ?_
      have same : (⟨slot, version, c.maxEpoch slot version⟩ : AttemptRef) = ref := by
        obtain ⟨refSlot, refVersion, refEpoch⟩ := ref
        simp only at slots versions epoch
        rw [slots, versions]
        exact congrArg _ epoch.symm
      rw [same, state?, Table.mem_rows.mp member]
      rfl

end Controller

structure Epochs (db : Database) (c : Controller) : Prop where
  known : ∀ slot row, isTarget slot → db.row? slot = some row →
    row.epoch = 0 ∨ (c.state? (row.ref slot)).isSome
  /-- Unless the ledger is ahead of the publication. -/
  tuned : ∀ slot version, isTarget slot → c.published? slot = some version →
    (∃ row, db.row? slot = some row ∧ version < row.version) ∨ c.Tuned slot version

theorem Epochs.agree {db : Database} {c : Controller} {slot : ReconcileKey} {row : StateRow}
    (h : Epochs db c) (tracks : Tracks isTarget db c) (target : isTarget slot)
    (found : db.row? slot = some row) (published : c.published? slot = some row.version) :
    c.epochs slot = row.epoch := by
  obtain ⟨ahead, foundAhead, newer⟩ | tuned := h.tuned slot row.version target published
  · rw [found] at foundAhead
    cases foundAhead
    exact absurd newer (lt_irrefl _)
  · refine le_antisymm ?_ ?_
    · obtain zero | known := tuned.attained
      · omega
      · obtain ⟨st, state⟩ := Option.isSome_iff_exists.mp known
        obtain ⟨row', found', reaches⟩ := tracks.reached _ st target state
        rw [found] at found'
        cases found'
        unfold StateRow.reaches at reaches
        simp only at reaches
        omega
    · obtain zero | known := h.known slot row target found
      · omega
      · exact tuned.largest (row.ref slot) rfl rfl known

def Stage.known (c : Controller) : Stage → Prop
  | .begun _ ref | .applied _ ref => (c.state? ref).isSome
  | .dead | .idle | .resolving _ | .ending _ _ => True

def Phase.known (c : Controller) : Phase → Prop
  | settled σ => σ.known c
  | adrift _ _ => True

def Phase.informed : Phase → Prop
  | settled σ => σ ≠ .dead
  | adrift _ _ => False

structure Keyed (hash : Hash String) (phase : Phase) (s : Scene) : Prop where
  tracked : Tracked isTarget phase s
  bounded : ∀ slot row, s.db.row? slot = some row → row.epoch ≤ maxInt64
  flight : phase.known s.controller
  live : phase.informed → s.controller.recoveryReloadNeeded = false → Steady hash s.trace →
    Epochs s.db s.controller
  keyed : Steady hash s.trace → ∀ event ∈ thisProcess s.trace, event.keyed

section Changes

variable {db before after : Database} {c c' : Controller}

theorem Epochs.reset (h : Epochs before c) (resets : Resets before after)
    (keeps : ∀ target row, before.row? (.target target) = some row → 0 < row.epoch →
      after.row? (.target target) = some row) : Epochs after c := by
  refine ⟨?_, ?_⟩
  · rintro slot row ⟨target, rfl⟩ found
    obtain same | ⟨new, foundNew, fresh⟩ := resets.rows (.target target)
    · exact h.known _ row ⟨target, rfl⟩ (same.symm.trans found)
    · rw [found] at foundNew
      cases foundNew
      have epoch := fresh.kept target rfl
      cases old : before.row? (.target target) with
      | none =>
        rw [old] at epoch
        exact .inl epoch
      | some row' =>
        rw [old] at epoch
        have epoch : row.epoch = row'.epoch := epoch
        by_cases positive : 0 < row'.epoch
        · have kept := keeps target row' old positive
          rw [found] at kept
          cases kept
          exact absurd (fresh.newer row old) (lt_irrefl _)
        · exact .inl (by omega)
  · intro slot version target published
    obtain ⟨row, found, newer⟩ | tuned := h.tuned slot version target published
    · obtain ⟨row', found', le⟩ := resets.grows slot row found
      rw [Version.le_iff] at le
      simp only [StateRow.stateVersion] at le
      exact .inl ⟨row', found', by omega⟩
    · exact .inr tuned

theorem Epochs.publish {hash : Hash String} {action : External} (h : Epochs db c) :
    Epochs db (action.onController hash c) := by
  cases action with
  | finalizeTargets => exact h
  | replacePolicy => exact h
  | publish desired =>
    simp only [External.onController]
    split
    · rename_i published set
      unfold Controller.setDesiredSnapshot at set
      simp only [bind_eq_ok] at set
      obtain ⟨prepared, _, _, _, set⟩ := set
      cases set
      refine ⟨h.known, ?_⟩
      intro slot version _ known
      refine .inr (Controller.tuned_of_maxEpoch _ _ _ ?_)
      change Controller.published? { c with desired := some prepared } slot = _ at known
      simp only [Controller.activateHydratedState, known]
      rfl
    · exact h

theorem Controller.Tuned.set {slot : ReconcileKey} {version : Nat} {ref : AttemptRef}
    {state : RetryState} (h : c.Tuned slot version)
    (states : ∀ other, c'.state? other = if other = ref then some state else c.state? other)
    (epochs : c'.epochs slot = c.epochs slot)
    (bound : ref.slot = slot → ref.version = version → ref.epoch ≤ c.epochs slot) :
    c'.Tuned slot version := by
  refine ⟨?_, ?_⟩
  · intro other slots versions known
    rw [states] at known
    rw [epochs]
    split at known
    · rename_i same
      subst same
      exact bound slots versions
    · exact h.largest other slots versions known
  · rw [epochs, states]
    obtain zero | known := h.attained
    · exact .inl zero
    · refine .inr ?_
      split
      · rfl
      · exact known

theorem epochs_of_replaced {owner : String} {r : Recovery}
    (load : loadRecovery owner db = .ok r) (replaced : c.replaceRecovery r = .ok c') :
    Epochs db { c' with recoveryReloadNeeded := false } := by
  have fields := replaced_of_replaceRecovery replaced
  obtain ⟨memory, hydrates, states, _⟩ := fields.hydrated
  have hydrated := hydrated_of_loadRecovery load hydrates
  refine ⟨?_, ?_⟩
  · intro slot row _ found
    obtain ⟨st, _, known⟩ := hydrated.row slot row found
    refine .inr ?_
    change (AList.lookup (row.ref slot) c'.states).isSome
    rw [states]
    exact Option.isSome_iff_exists.mpr ⟨st, known⟩
  · intro slot version _ published
    exact .inr (Controller.tuned_of_maxEpoch _ _ _ (fields.epochs slot version published))

end Changes

section Writes

variable {env : Env} {plans : Command → Prop} {trace : List Event} {σ : Stage} {w : Write}
  {db before after : Database} {c c' : Controller}

variable {t : Transition} {ref : AttemptRef}

theorem Permitted.epochs (h : Permitted env plans c trace σ w) (ledger : w.change = .ledger t)
    (m : Controller) : (w.success m).epochs = m.epochs := by
  cases h with
  | retry => cases ledger
  | _ => rfl

theorem Permitted.inUse (h : Permitted env plans c trace σ w) (known : σ.known c)
    (ledger : w.change = .ledger t) :
    (c.state? w.ref).isSome ∨ w.ref.epoch = c.epochs w.ref.slot := by
  have current : ∀ {slot ref}, c.currentRef? slot = some ref → ref.epoch = c.epochs ref.slot := by
    intro slot ref same
    unfold Controller.currentRef? at same
    rw [Option.map_eq_some_iff] at same
    obtain ⟨version, _, rfl⟩ := same
    rfl
  cases h with
  | begin | invalid => exact .inr rfl
  | failBegun | failApplied | converge => exact .inl known
  | retireApplied _ found | retirePending _ _ found _ => exact .inl found
  | recover _ _ found _ carrier =>
    obtain ⟨same, _⟩ | ⟨same, _⟩ := carrier
    · exact .inl (by simpa only [Write.recover, same] using found)
    · exact .inr (current same)
  | startup _ same _ => exact .inr (current same)
  | retry => cases ledger

theorem known_of_write
    (h : ∀ slot row, isTarget slot → before.row? slot = some row →
      row.epoch = 0 ∨ (c.state? (row.ref slot)).isSome)
    (admitted : Admitted w.change.state? before after) (fits : w.Fits c)
    (states : ∀ ref, c'.state? ref = if ref = w.ref then some w.state else c.state? ref) :
    ∀ slot row, isTarget slot → after.row? slot = some row →
      row.epoch = 0 ∨ (c'.state? (row.ref slot)).isSome := by
  have grown : ∀ ref, (c.state? ref).isSome → (c'.state? ref).isSome := by
    intro ref known
    rw [states]
    split
    · rfl
    · exact known
  have old : ∀ slot row, isTarget slot → before.row? slot = some row →
      row.epoch = 0 ∨ (c'.state? (row.ref slot)).isSome :=
    fun slot row target found => (h slot row target found).imp_right (grown _)
  intro slot row target found
  cases state : w.change.state? with
  | none =>
    rw [state] at admitted
    rw [admitted.row?_none] at found
    exact old slot row target found
  | some s =>
    rw [state] at admitted
    by_cases same : slot = s.ref.slot
    · subst same
      rw [admitted.row?_self] at found
      cases found
      rw [ref_encode]
      refine .inr ?_
      cases fits with
      | own s' written ref retry =>
        rw [state] at written
        cases written
        rw [states, if_pos ref]
        rfl
      | other known count row =>
        exact grown _ (Option.isSome_iff_exists.mpr ⟨_, (row s state).2.2⟩)
    · rw [admitted.row?_other same] at found
      exact old slot row target found

theorem ahead_of_grows {slot : ReconcileKey} {version : Nat} (grows : GrowsAt slot before after)
    (ahead : ∃ row, before.row? slot = some row ∧ version < row.version) :
    ∃ row, after.row? slot = some row ∧ version < row.version := by
  obtain ⟨row, found, newer⟩ := ahead
  obtain ⟨row', found', le⟩ := grows row found
  rw [Version.le_iff] at le
  simp only [StateRow.stateVersion] at le
  exact ⟨row', found', by omega⟩

theorem Epochs.write (h : Epochs before c) (permitted : Permitted env plans c trace σ w)
    (known : σ.known c) (ledger : w.change = .ledger t)
    (accepted : w.change.apply before = .ok after)
    (grows : ∀ slot, isTarget slot → GrowsAt slot before after) :
    Epochs after (w.success c) := by
  refine ⟨known_of_write h.known (Change.admitted accepted) permitted.fits (permitted.state? c), ?_⟩
  intro slot version target published
  rw [Controller.published?_congr (permitted.desired c)] at published
  obtain ahead | tuned := h.tuned slot version target published
  · exact .inl (ahead_of_grows (grows slot target) ahead)
  · refine .inr (tuned.set (permitted.state? c) (by rw [permitted.epochs ledger]) ?_)
    rintro rfl versions
    obtain found | same := permitted.inUse known ledger
    · exact tuned.largest w.ref rfl versions found
    · exact same.le

theorem epochs_of_retry {row : StateRow}
    (known : ∀ slot row, isTarget slot → db.row? slot = some row →
      row.epoch = 0 ∨ (c.state? (row.ref slot)).isSome) (tracks : Tracks isTarget db c)
    (found : db.row? ref.slot = some row) (same : row.ref ref.slot = ref)
    (state : (c.state? ref).isSome) (epoch : c.epochs ref.slot = ref.epoch)
    (published : c.published? ref.slot = some ref.version)
    (others : ∀ slot version, isTarget slot → slot ≠ ref.slot → c.published? slot = some version →
      (∃ row, db.row? slot = some row ∧ version < row.version) ∨ c.Tuned slot version) :
    Epochs db c := by
  refine ⟨known, ?_⟩
  intro slot version target shown
  by_cases slots : slot = ref.slot
  · subst slots
    rw [published] at shown
    cases shown
    refine .inr ⟨?_, ?_⟩
    · intro other otherSlot otherVersion otherKnown
      obtain ⟨st, held⟩ := Option.isSome_iff_exists.mp otherKnown
      obtain ⟨row', found', reaches⟩ := tracks.reached other st (otherSlot ▸ target) held
      rw [otherSlot, found] at found'
      cases found'
      have version : row.version = ref.version := congrArg AttemptRef.version same
      have epoch' : row.epoch = ref.epoch := congrArg AttemptRef.epoch same
      unfold StateRow.reaches at reaches
      omega
    · rw [epoch]
      exact .inr state
  · exact others slot version target slots shown

theorem Epochs.set {state : RetryState} (h : Epochs db c)
    (states : ∀ other, c'.state? other = if other = ref then some state else c.state? other)
    (desired : c'.desired = c.desired) (epochs : c'.epochs = c.epochs)
    (reached : isTarget ref.slot → db.reaches ref) : Epochs db c' := by
  refine ⟨?_, ?_⟩
  · intro slot row target found
    refine (h.known slot row target found).imp_right fun known => ?_
    rw [states]
    split
    · rfl
    · exact known
  · intro slot version target published
    rw [Controller.published?_congr desired] at published
    obtain ahead | tuned := h.tuned slot version target published
    · exact .inl ahead
    · by_cases own : ref.slot = slot ∧ ref.version = version
      · obtain ⟨rfl, rfl⟩ := own
        obtain ⟨row, found, newer | ⟨versions, le⟩⟩ := reached target
        · exact .inl ⟨row, found, newer⟩
        · refine .inr (tuned.set states (by rw [epochs]) fun _ _ => ?_)
          obtain zero | known := h.known ref.slot row target found
          · omega
          · exact le_trans le (tuned.largest (row.ref ref.slot) rfl versions.symm known)
      · refine .inr (tuned.set states (by rw [epochs]) fun slots versions => ?_)
        exact absurd ⟨slots, versions⟩ own

end Writes

section Refusals

variable {env : Env} {plans : Command → Prop} {trace : List Event} {σ : Stage} {w : Write}
  {db : Database} {c : Controller}

variable {s : PersistedState} {t : Transition} {fault : Fault}

theorem avoids_regression {target : Prefix} {row : StateRow} (slot : s.ref.slot = .target target)
    (found : db.row? s.ref.slot = some row)
    (le : StateRow.stateVersion row ≤ PersistedState.stateVersion s) :
    Avoids .stateRegression (rejectReconcileRegression s db) := by
  have comparable : Comparable s.nodeID s.ref.slot db := slot ▸ comparable_target _ _ _
  unfold rejectReconcileRegression
  rw [comparable row found]
  simp only [avoids_bind, avoids_reject, true_and]
  intro _ _
  rw [if_neg (Version.compare_ne_lt.mpr le)]
  exact avoids_ok _

theorem Permitted.applying (h : Permitted env plans c trace σ w) (ledger : w.change = .ledger t)
    (required : t.upsertProbe.isSome) (state : t.state = some s)
    (status : s.retry.status = .applying) :
    ∃ plan, c.planMatchesCurrentDesired plan = true ∧ s.ref = c.attemptRef plan ∧
      s.retry.attemptCount = (c.getState (c.attemptRef plan)).attemptCount + 1 := by
  have failed : ∀ {plan ref code next keep observed updated recorded},
      (Write.fail c plan ref code next keep observed updated recorded).change = .ledger t →
      False := by
    intro plan ref code next keep observed updated recorded same
    cases same
    cases state
    have settled : (Controller.failedState (c.getState ref) code next).status ≠ .applying := by
      unfold Controller.failedState
      split <;> nofun
    exact settled status
  cases h with
  | begin _ _ current _ _ _ _ _ =>
    cases ledger
    cases state
    exact ⟨_, current, rfl, rfl⟩
  | failBegun | failApplied => exact (failed ledger).elim
  | retry => cases ledger
  | _ =>
    cases ledger
    cases required

theorem refused_keyed (epochs : Epochs db c) (tracks : Tracks isTarget db c)
    (permitted : Permitted env plans c trace σ w) (ledger : w.change = .ledger t)
    (refused : applyReconcileTransition t db = .error fault) :
    (Event.refused t fault ⟨db, c⟩).keyed := by
  rintro required s target state status slot ⟨row, found, published⟩
  obtain ⟨plan, current, ref, count⟩ := permitted.applying ledger required state status
  have current := currentRef?_of_planMatches current
  rw [← ref] at current count
  have plans : plan.slot = s.ref.slot := by rw [ref]; rfl
  rw [plans, slot] at current
  unfold Controller.currentRef? at current
  rw [published, Option.map_some, Option.some.injEq] at current
  have target' : isTarget (.target target) := ⟨target, rfl⟩
  rw [epochs.agree tracks target' found published] at current
  refine avoids_of_rejectReconcileRegression (fun s' state' => ?_) fault refused
  rw [state] at state'
  cases state'
  refine avoids_regression slot (slot ▸ found) (Version.le_iff.mpr (.inr ⟨?_, .inr ⟨?_, ?_⟩⟩))
  · exact congrArg AttemptRef.version current
  · exact congrArg AttemptRef.epoch current
  · change row.attemptCount ≤ s.retry.attemptCount
    rw [count, ← current]
    by_cases attempted : 0 < row.attemptCount
    · obtain ⟨st, known, counts⟩ := tracks.counted _ row target' found attempted
      unfold StateRow.ref at known
      unfold Controller.getState
      rw [known, Option.getD_some]
      omega
    · omega

theorem declined_keyed {t : RetryTransition} (epochs : Epochs db c) (tracks : Tracks isTarget db c)
    (bounded : ∀ slot row, db.row? slot = some row → row.epoch ≤ maxInt64)
    (permitted : Permitted env plans c trace σ w) (retry : w.change = .retry t)
    (refused : applyReconcileRetryTransition t db = .error fault) :
    (Event.declined t fault ⟨db, c⟩).keyed := by
  rintro target slot ⟨row, found, published⟩
  cases permitted with
  | @retry slot' version updated asked shown range =>
    cases retry
    have slot : slot' = .target target := slot
    subst slot
    rw [published] at shown
    cases shown
    have same := epochs.agree tracks ⟨target, rfl⟩ found published
    have room : row.epoch + 1 < 2 ^ 64 :=
      lt_of_le_of_lt (Nat.succ_le_succ (bounded _ row found)) (by decide)
    refine ⟨avoids_retry_of_rejectReconcileRegression ?_ fault refused, ?_⟩
    · refine avoids_regression rfl found (Version.le_iff.mpr (.inr ⟨rfl, .inl ?_⟩))
      change row.epoch < (c.epochs _ + 1) % 2 ^ 64
      rw [same, Nat.mod_eq_of_lt room]
      exact Nat.lt_succ_self _
    · change currentRetryEpoch _ (.target target) db = .ok (c.epochs (.target target))
      unfold currentRetryEpoch
      rw [found, same]
  | _ => cases retry

end Refusals

section History

variable {hash : Hash String} {trace : List Event} {event : Event}

theorem thisProcess_cons (runs : event ≠ .restarted) :
    thisProcess (event :: trace) = event :: thisProcess trace := by
  unfold thisProcess
  rw [List.takeWhile_cons_of_pos]
  cases event <;> first | rfl | exact absurd rfl runs

theorem Steady.of_cons (h : Steady hash (event :: trace)) (runs : event ≠ .restarted) :
    Steady hash trace := by
  intro older member
  refine h older ?_
  rw [thisProcess_cons runs]
  exact List.mem_cons_of_mem _ member

/-- The history goes on with at most one event, which is in order if the rest is steady. -/
def Continues (hash : Hash String) (trace trace' : List Event) : Prop :=
  trace' = trace ∨ ∃ event, event ≠ .restarted ∧ (Steady hash trace → event.keyed) ∧
    trace' = event :: trace

theorem Continues.steady {trace' : List Event} (h : Continues hash trace trace')
    (steady : Steady hash trace') : Steady hash trace := by
  obtain rfl | ⟨event, runs, _, rfl⟩ := h
  · exact steady
  · exact steady.of_cons runs

theorem Continues.keyed {trace' : List Event} (h : Continues hash trace trace')
    (before : Steady hash trace → ∀ event ∈ thisProcess trace, event.keyed)
    (steady : Steady hash trace') : ∀ event ∈ thisProcess trace', event.keyed := by
  have older := h.steady steady
  obtain rfl | ⟨event, runs, keyed, rfl⟩ := h
  · exact before steady
  · rw [thisProcess_cons runs]
    intro event' member
    obtain rfl | member := List.mem_cons.mp member
    · exact keyed older
    · exact before older event' member

end History

section Steps

variable {env : Env} {plans : Command → Prop} {p q : Phase} {s t : Scene}

theorem Stage.known_ended (σ : Stage) (c : Controller) : σ.ended.known c := by
  cases σ <;> trivial

variable {σ : Stage} {c : Controller} {w : Write} {trace : List Event}

theorem Stage.known_congr {c' : Controller} (same : c'.states = c.states) (h : σ.known c) :
    σ.known c' := by
  cases σ with
  | begun | applied =>
    simp only [Stage.known, Controller.state?] at h ⊢
    rwa [same]
  | _ => trivial

theorem Epochs.congr {before after : Database} {c' : Controller} (h : Epochs before c)
    (rows : SameLedger before after) (states : c'.states = c.states)
    (desired : c'.desired = c.desired) (epochs : c'.epochs = c.epochs) : Epochs after c' := by
  have state? : ∀ ref, c'.state? ref = c.state? ref := fun ref => by
    unfold Controller.state?
    rw [states]
  refine ⟨?_, ?_⟩
  · intro slot row target found
    rw [rows.row?] at found
    rw [state?]
    exact h.known slot row target found
  · intro slot version target published
    rw [Controller.published?_congr desired] at published
    rw [rows.row?]
    refine (h.tuned slot version target published).imp_right fun tuned => ⟨?_, ?_⟩
    · intro ref slots versions known
      rw [state?] at known
      rw [epochs]
      exact tuned.largest ref slots versions known
    · rw [epochs, state?]
      exact tuned.attained

theorem Move.bounded (step : Move env plans p s q t)
    (h : ∀ slot row, s.db.row? slot = some row → row.epoch ≤ maxInt64) :
    ∀ slot row, t.db.row? slot = some row → row.epoch ≤ maxInt64 := by
  have written : ∀ {change : Change} {db : Database}, change.apply s.db = .ok db →
      ∀ slot row, db.row? slot = some row → row.epoch ≤ maxInt64 := by
    intro change db accepted slot row found
    have admitted := Change.admitted accepted
    cases state : change.state? with
    | none =>
      rw [state] at admitted
      exact h slot row (admitted.row?_none slot ▸ found)
    | some r =>
      rw [state] at admitted
      by_cases same : slot = r.ref.slot
      · subst same
        rw [admitted.row?_self] at found
        cases found
        have valid := admitted.valid r rfl
        unfold validatePersistedReconcileState sqliteUint64 at valid
        simp only [bind_eq_ok, reject_eq_ok, decide_eq_false_iff_not, not_lt] at valid
        obtain ⟨_, _, _, _, _, range, _⟩ := valid
        exact range
      · exact h slot row (admitted.row?_other same ▸ found)
  cases step with
  | external action may =>
    intro slot row found
    obtain same | ⟨new, foundNew, fresh⟩ := (resets_onDatabase _ action s.db).rows slot
    · exact h slot row (same ▸ found)
    · have found : (action.onDatabase env.digests.policy s.db).row? slot = some row := found
      rw [found] at foundNew
      cases foundNew
      cases slot with
      | infrastructure => exact absurd rfl fresh.domain
      | policy =>
        rw [fresh.restarted rfl]
        exact Nat.zero_le _
      | target target =>
        rw [fresh.kept target rfl]
        cases old : s.db.row? (.target target) with
        | none => exact Nat.zero_le _
        | some row' => exact h _ row' old
  | observe attested same =>
    intro slot row found
    exact h slot row (same.row? slot ▸ found)
  | commit loaded permitted accepted | land loaded permitted accepted => exact written accepted
  | _ => exact h

private theorem Permitted.retry_ref {retry : RetryTransition} (h : Permitted env plans c trace σ w)
    (change : w.change = .retry retry) : retry.state.ref = w.ref := by
  cases h with
  | retry =>
    cases change
    rfl
  | _ => cases change

private theorem epochs_of_retried {db : Database} {m : Controller} {retry : RetryTransition}
    (permitted : Permitted env plans c trace σ w) (change : w.change = .retry retry)
    (desired : m.desired = c.desired)
    (tuned : ∀ slot version, isTarget slot → m.published? slot = some version →
      (∃ row, db.row? slot = some row ∧ version < row.version) ∨ m.Tuned slot version)
    (known : ∀ slot row, isTarget slot → db.row? slot = some row →
      row.epoch = 0 ∨ ((w.success m).state? (row.ref slot)).isSome)
    (tracks : Tracks isTarget db (w.success m))
    (row : ∃ row, db.row? w.ref.slot = some row ∧ row.ref w.ref.slot = w.ref) :
    Epochs db (w.success m) := by
  obtain ⟨row, found, same⟩ := row
  have shown := permitted.desired m
  have state := permitted.state? m
  cases permitted with
  | @retry slot version updated asked published range =>
    refine epochs_of_retry known tracks found same (by rw [state, if_pos rfl]; rfl)
      (Function.update_self _ _ _) ?_ ?_
    · rw [Controller.published?_congr (shown.trans desired)]
      exact published
    · intro other version' target different published'
      rw [Controller.published?_congr shown] at published'
      refine (tuned other version' target published').imp_right fun tuned => ?_
      exact tuned.set state (Function.update_of_ne different _ _)
        fun slots _ => absurd slots.symm different
  | _ => cases change

theorem Permitted.known_success (h : Permitted env plans c trace σ w) (m : Controller) :
    w.stage.known (w.success m) := by
  cases stage : w.stage with
  | begun plan ref =>
    change ((w.success m).state? ref).isSome
    rw [h.state?, if_pos (h.begun stage).1.symm]
    rfl
  | applied plan ref => exact absurd stage h.stage_ne_applied
  | _ => trivial

theorem continues_event {event : Event} (runs : event ≠ .restarted) (keyed : event.keyed) :
    Continues env.digests.policy s.trace (event :: s.trace) :=
  .inr ⟨_, runs, fun _ => keyed, rfl⟩

theorem continues_wrote (change : Change) (commit : Commit) :
    Continues env.digests.policy s.trace (change.wrote commit s.toMoment :: s.trace) := by
  cases change with
  | ledger => exact continues_event nofun trivial
  | retry => exact continues_event nofun trivial

namespace Keyed

theorem calm {σ' : Stage} {db : Database} {c : Controller} {trace : List Event}
    (h : Keyed env.digests.policy (.settled σ) s)
    (tracked : Tracked isTarget (.settled σ') ⟨⟨db, c⟩, trace⟩) (live : σ' ≠ .dead → σ ≠ .dead)
    (flight : σ'.known c) (same : SameLedger s.db db) (states : c.states = s.controller.states)
    (desired : c.desired = s.controller.desired) (epochs : c.epochs = s.controller.epochs)
    (flag : c.recoveryReloadNeeded = s.controller.recoveryReloadNeeded)
    (continues : Continues env.digests.policy s.trace trace) :
    Keyed env.digests.policy (.settled σ') ⟨⟨db, c⟩, trace⟩ := by
  refine ⟨tracked, ?_, flight, ?_, continues.keyed h.keyed⟩
  · intro slot row found
    exact h.bounded slot row (same.row? slot ▸ found)
  · intro live' loaded steady
    exact (h.live (live live') (flag ▸ loaded) (continues.steady steady)).congr same states
      desired epochs

theorem external {locked : Bool} {action : External}
    (h : Keyed env.digests.policy p s) (tracked : Tracked isTarget p (Session.act env locked s action))
    (bounded : ∀ slot row, (Session.act env locked s action).db.row? slot = some row →
      row.epoch ≤ maxInt64) :
    Keyed env.digests.policy p (Session.act env locked s action) := by
  have continues : Continues env.digests.policy s.trace (.external action s.db :: s.trace) :=
    continues_event nofun trivial
  refine ⟨tracked, bounded, ?_, ?_, continues.keyed h.keyed⟩
  · cases p with
    | settled σ => exact Stage.known_congr republished_act.states h.flight
    | adrift σ w => trivial
  · cases p with
    | adrift σ w => exact nofun
    | settled σ =>
      intro live loaded steady
      have loaded := (@republished_act env locked s action).recoveryReloadNeeded.symm.trans loaded
      have keeps := steady (.external action s.db) (by
        have runs : Event.external action s.db ≠ .restarted := nofun
        change _ ∈ thisProcess (_ :: s.trace)
        rw [thisProcess_cons runs]
        exact List.mem_cons_self)
      have epochs := (h.live live loaded (continues.steady steady)).reset
        (resets_onDatabase _ action s.db) keeps
      unfold Session.act
      cases locked with
      | true => exact epochs
      | false => exact epochs.publish

theorem committed {db : Database} (h : Keyed env.digests.policy (.settled σ) s)
    (loaded : s.controller.recoveryReloadNeeded = false)
    (permitted : Permitted env plans s.controller s.trace σ w)
    (accepted : w.change.apply s.db = .ok db) (steady : Steady env.digests.policy s.trace)
    (tracks : Tracks isTarget db (w.success s.controller)) : Epochs db (w.success s.controller) := by
  have epochs := h.live permitted.alive loaded steady
  have grows : ∀ slot, isTarget slot → GrowsAt slot s.db db := fun slot target =>
    (Move.commit loaded permitted accepted).growsAt (compared_targets _) target
  cases change : w.change with
  | ledger t => exact epochs.write permitted h.flight change accepted grows
  | retry retry =>
    have admitted := Change.admitted accepted
    refine epochs_of_retried permitted change rfl ?_
      (known_of_write epochs.known admitted permitted.fits (permitted.state? _)) tracks ?_
    · intro slot version target published
      exact (epochs.tuned slot version target published).imp_left
        (ahead_of_grows (grows slot target))
    · rw [change] at admitted
      rw [← permitted.retry_ref change]
      exact ⟨_, admitted.row?_self, rfl⟩

theorem refused {fault : Fault} (h : Keyed env.digests.policy (.settled σ) s)
    (loaded : s.controller.recoveryReloadNeeded = false)
    (permitted : Permitted env plans s.controller s.trace σ w)
    (refused : w.change.apply s.db = .error fault) : Continues env.digests.policy s.trace
      (w.change.refused fault s.toMoment :: s.trace) := by
  have tracks := h.tracked.live permitted.alive loaded
  refine .inr ⟨_, ?_, fun steady => ?_, rfl⟩
  · cases w.change <;> nofun
  · have epochs := h.live permitted.alive loaded steady
    cases change : w.change with
    | ledger t =>
      rw [change] at refused
      exact refused_keyed epochs tracks permitted change refused
    | retry t =>
      rw [change] at refused
      exact declined_keyed epochs tracks h.bounded permitted change refused

theorem adopted {r : Recovery} {m : Controller} (h : Keyed env.digests.policy (.adrift σ w) s)
    (permitted : Permitted env plans s.controller trace σ w)
    (read : w.change.readback s.controller.nodeID s.db = .ok (r, true))
    (replaced : s.controller.replaceRecovery r = .ok m)
    (tracks : Tracks isTarget s.db (w.success { m with recoveryReloadNeeded := false })) :
    Epochs s.db (w.success { m with recoveryReloadNeeded := false }) := by
  obtain ⟨owner, load⟩ := Change.load_of_readback read
  have epochs := epochs_of_replaced load replaced
  cases change : w.change with
  | ledger t =>
    exact epochs.set (permitted.state? _) (permitted.desired _) (permitted.epochs change _)
      fun target => (h.tracked.live.resolve read target).1
  | retry retry =>
    refine epochs_of_retried permitted change (replaced_of_replaceRecovery replaced).desired
      epochs.tuned ?_ tracks ?_
    · intro slot row target found
      refine (epochs.known slot row target found).imp_right fun known => ?_
      rw [permitted.state?]
      split
      · rfl
      · exact known
    · rw [change] at read
      obtain ⟨row, found, same, _⟩ := Change.row_of_readback read rfl
      rw [← permitted.retry_ref change]
      exact ⟨row, found, same⟩

theorem restarted {r : Recovery} (read : loadReconcileRecovery s.db.nodeID s.db = .ok r)
    (hydrates : Controller.hydrateRecovery r { nodeID := s.db.nodeID } = .ok c) :
    Epochs s.db { c with startupProbeRequired := !r.states.isEmpty || !r.probes.isEmpty } := by
  have hydrated := hydrated_of_loadRecovery (loadRecovery_of_loadReconcileRecovery read) hydrates
  refine ⟨?_, ?_⟩
  · intro slot row _ found
    obtain ⟨st, _, known⟩ := hydrated.row slot row found
    exact .inr (Option.isSome_iff_exists.mpr ⟨st, known⟩)
  · intro slot version _ published
    -- nothing is published yet
    have none_ : c.desired = none := by rw [hydrated.shape]
    change c.published? slot = some version at published
    cases slot <;> simp [Controller.published?, Controller.desiredTarget?, none_] at published

theorem step (drifting : Drifting env plans p s) (step : Move env plans p s q t)
    (h : Keyed env.digests.policy p s) : Keyed env.digests.policy q t := by
  have tracked := h.tracked.step drifting step (compared_targets _)
  have bounded := step.bounded h.bounded
  have same := SameLedger.refl s.db
  have here : Continues env.digests.policy s.trace s.trace := .inl rfl
  cases step with
  | external action may => exact h.external tracked bounded
  | @note σ _ event quiet =>
    refine h.calm tracked id h.flight same rfl rfl rfl rfl (continues_event ?_ ?_)
    · rintro rfl
      exact quiet
    · cases event <;> trivial
  | probe result may =>
    exact h.calm tracked id h.flight same rfl rfl rfl rfl (continues_event nofun trivial)
  | apply mutated result unexpired =>
    exact h.calm tracked (fun _ => nofun) h.flight same rfl rfl rfl rfl
      (continues_event nofun trivial)
  | observe attested ledger =>
    exact h.calm tracked id h.flight ledger rfl rfl rfl rfl (continues_event nofun trivial)
  | confirm borne unmoved durable =>
    exact h.calm tracked id (Stage.known_congr rfl h.flight) same rfl rfl rfl rfl
      (continues_event nofun trivial)
  | @remember σ _ c neutral =>
    have states : c.states = s.controller.states := by rw [neutral.shape]
    exact h.calm tracked id (Stage.known_congr states h.flight) same states (by rw [neutral.shape])
      (by rw [neutral.shape]) (by rw [neutral.shape]) here
  | pend => exact h.calm tracked id trivial same rfl rfl rfl rfl here
  | started probed =>
    exact h.calm tracked id (Stage.known_congr rfl h.flight) same rfl rfl rfl rfl here
  | enter | widen => exact h.calm tracked (fun _ => nofun) trivial same rfl rfl rfl rfl here
  | leave live => exact h.calm tracked (fun _ => live) trivial same rfl rfl rfl rfl here
  | @quit σ =>
    refine h.calm tracked ?_ (Stage.known_ended σ _) same rfl rfl rfl rfl here
    rintro live rfl
    exact live rfl
  | @commit σ _ w db loaded permitted accepted =>
    have continues := @continues_wrote env s w.change .commits
    refine ⟨tracked, bounded, permitted.known_success _, fun live flag steady => ?_,
      continues.keyed h.keyed⟩
    exact h.committed loaded permitted accepted (continues.steady steady) (tracked.live live flag)
  | @refuse σ _ w fault loaded permitted refused =>
    exact h.calm tracked (fun _ => permitted.alive) (Stage.known_ended σ _) same rfl rfl rfl rfl
      (h.refused loaded permitted refused)
  | @fail σ _ w db loaded permitted accepted =>
    exact h.calm tracked (fun _ => permitted.alive) (Stage.known_ended σ _) same rfl rfl rfl rfl
      (continues_wrote _ _)
  | lose | land => exact ⟨tracked, bounded, trivial, nofun, (continues_wrote _ _).keyed h.keyed⟩
  | @flag σ w =>
    exact ⟨tracked, bounded, Stage.known_ended σ _, fun _ loaded => (by cases loaded), h.keyed⟩
  | adopt read replaced =>
    exact ⟨tracked, bounded, drifting.1.known_success _, fun live flag _ =>
      h.adopted drifting.1 read replaced (tracked.live live flag), h.keyed⟩
  | @abandon σ w _ r c applied read replaced =>
    obtain ⟨owner, load⟩ := Change.load_of_readback read
    exact ⟨tracked, bounded, Stage.known_ended σ _, fun _ _ _ => epochs_of_replaced load replaced,
      h.keyed⟩
  | reload may read replaced =>
    exact ⟨tracked, bounded, trivial, fun _ _ _ =>
      epochs_of_replaced (loadRecovery_of_loadReconcileRecovery read) replaced, h.keyed⟩
  | die => exact ⟨tracked, bounded, trivial, fun live => absurd rfl live, h.keyed⟩
  | boot =>
    refine ⟨tracked, bounded, trivial, fun live => absurd rfl live, fun _ event member => ?_⟩
    cases member
  | restart read hydrates =>
    exact ⟨tracked, bounded, trivial, fun _ _ _ => restarted read hydrates, h.keyed⟩

end Keyed

end Steps

section Claims

open Node

variable {env : Env} {nodeID : String} {steps : List (Step env.backend.Answer)}

theorem keyed_of_run (env : Env) (nodeID : String) (steps : List (Step env.backend.Answer)) :
    Keyed env.digests.policy (run env (initial nodeID) steps).phase.1
      (run env (initial nodeID) steps).phase.2 := by
  have path : Path env (fun _ => True) (initial nodeID).phase (run env (initial nodeID) steps).phase :=
    path_run_initial nodeID steps fun _ _ => trivial
  refine path.preserves (J := Keyed env.digests.policy)
    (fun drifting step before => before.step drifting step) trivial ?_
  exact ⟨⟨by rintro _ _ _ ⟨⟩, fun live => absurd rfl live⟩, by rintro _ _ ⟨⟩, trivial,
    fun live => absurd rfl live, by rintro _ _ ⟨⟩⟩

/-- In every run in which, since the process started, no Decision or Policy transaction moved on
a target with a positive retry epoch: the epoch in use for a target is the durable one wherever
the published generation is, and neither an Applying record nor a retry of such a target was
refused as a regression or for its previous epoch. -/
theorem target_keys_current
    (steady : Steady env.digests.policy (run env (initial nodeID) steps).trace) :
    (∀ c, (run env (initial nodeID) steps).process = some c → c.recoveryReloadNeeded = false →
      ∀ target row, (run env (initial nodeID) steps).db.row? (.target target) = some row →
        c.published? (.target target) = some row.version →
          c.epochs (.target target) = row.epoch) ∧
    ∀ event ∈ thisProcess (run env (initial nodeID) steps).trace, event.keyed := by
  have keyed := keyed_of_run env nodeID steps
  refine ⟨?_, ?_⟩
  · intro c runs loaded target row found published
    rw [phase_of_process runs] at keyed
    have epochs := keyed.live nofun loaded steady
    exact epochs.agree (keyed.tracked.live nofun loaded) ⟨target, rfl⟩ found published
  · have := keyed.keyed
    rw [trace_phase] at this
    exact this steady

end Claims

namespace Sample

def retriedBan : List (Step Answer) :=
  [⟨.restart, ticks 2 1⟩,
    ⟨.external (.finalizeTargets [intent target 1 1#8] (second 2)), []⟩,
    ⟨.external (.publish (desired 1 1 1 [intent target 1 1#8])), []⟩,
    ⟨.retry (.target target), ticks 6 3⟩]

def widened : DesiredSnapshot := desired 2 1 1 [intent target 2 3#8]

def widens : List (Step Answer) :=
  [⟨.external (.finalizeTargets widened.targets (second 4)), []⟩,
    ⟨.external (.publish widened), []⟩]

def behind (node : Node) : Bool :=
  node.process.any fun c => (node.db.row? (.target target)).any fun row =>
    c.published? (.target target) == some row.version && c.epochs (.target target) < row.epoch

end Sample

open Sample in
theorem target_keys_current_retried :
    (Node.run (Sample.env false) (Node.initial Sample.nodeID) retriedBan).process.map
        (fun c => c.epochs (.target target)) = some 1 ∧
      ∀ event ∈ thisProcess
        (Node.run (Sample.env false) (Node.initial Sample.nodeID) retriedBan).trace,
        event.keyed := by
  refine ⟨by decide +kernel, ?_⟩
  exact (@target_keys_current (Sample.env false) Sample.nodeID retriedBan (by decide +kernel)).2

open Sample in
/-- After a retry and a new generation, the published generation is the durable one, but the
epoch is not: the Applying record regresses and the next retry names the wrong epoch. -/
theorem retried_target_regresses :
    let node := Node.run (Sample.env false) (Node.initial Sample.nodeID)
      (retriedBan ++ widens ++
        [⟨.execute (plan widened (.target target)), ticks 30 5⟩, ⟨.retry (.target target), ticks 6 6⟩])
    behind node = true ∧
      (node.trace.any fun event =>
        match event with
        | .refused _ fault before => fault.is .stateRegression &&
            (before.db.row? (.target target)).map StateRow.version ==
              before.controller.published? (.target target)
        | _ => false) = true ∧
      (node.trace.any fun event =>
        match event with
        | .declined t _ before => decide (currentRetryEpoch t.state.nodeID t.state.ref.slot before.db ≠
            .ok t.audit.previousEpoch)
        | _ => false) = true := by
  decide +kernel

end GuardWall.Reconcile
