import GuardWall.Reconcile.Provider
import GuardWall.Reconcile.Runs
import GuardWall.Reconcile.Tracking

/-! The attempt budget: every Apply has its own durable Applying record, numbered above all
earlier ones of its retry key, whatever crashes, retries and indeterminate commits the run
contains. -/
namespace GuardWall.Reconcile

open GuardWall.Core GuardWall.Foundation GuardWall.Store

namespace Event

def announces (ref : AttemptRef) (n : Nat) : Event → Prop
  | .wrote t commit _ => commit.durable ∧ ∃ s, t.state = some s ∧ s.ref = ref ∧
      s.retry.status = .applying ∧ s.retry.attemptCount = n
  | _ => False

def applies (ref : AttemptRef) (n : Nat) : Event → Prop
  | .applied _ attempt count _ _ _ => attempt = ref ∧ count = n
  | _ => False

def database? : Event → Option Database
  | .external _ before => some before
  | .applied _ _ _ _ _ before => some before.db
  | .wrote _ _ before => some before.db
  | .refused _ _ before => some before.db
  | .retried _ _ before => some before.db
  | .declined _ _ before => some before.db
  | .observed _ _ before => some before.db
  | .confirmed _ _ before => some before.db
  | .restarted | .checked _ _ | .failing _ _ | .probed _ => none

def isApplyOf (ref : AttemptRef) : Event → Bool
  | .applied _ attempt _ _ _ _ => attempt == ref
  | _ => false

theorem exists_applies {ref : AttemptRef} {event : Event} (h : event.isApplyOf ref = true) :
    ∃ n, event.applies ref n := by
  cases event with
  | applied plan attempt count mutated result before => exact ⟨count, beq_iff_eq.mp h, rfl⟩
  | _ => cases h

end Event

def Announced (ref : AttemptRef) (n : Nat) (trace : List Event) : Prop :=
  ∃ newer event older, trace = newer ++ event :: older ∧ event.announces ref n ∧
    ∀ earlier ∈ older, ∀ k, earlier.announces ref k → k < n

structure Unspent (ref : AttemptRef) (n : Nat) (trace : List Event) : Prop where
  announced : Announced ref n trace
  larger : ∀ event ∈ trace, ∀ k, event.applies ref k → k < n

def Backed : List Event → Prop
  | [] => True
  | event :: older => (∀ ref n, event.applies ref n → Unspent ref n older) ∧ Backed older

def Event.silent (event : Event) : Prop :=
  ∀ ref n, ¬ event.announces ref n ∧ ¬ event.applies ref n

variable {ref : AttemptRef} {n : Nat} {trace : List Event} {event : Event}

theorem Announced.cons (h : Announced ref n trace) (event : Event) :
    Announced ref n (event :: trace) := by
  obtain ⟨newer, record, older, rfl, rest⟩ := h
  exact ⟨event :: newer, record, older, rfl, rest⟩

theorem Announced.mem (h : Announced ref n trace) : ∃ event ∈ trace, event.announces ref n := by
  obtain ⟨newer, record, older, rfl, announces, _⟩ := h
  exact ⟨record, by simp, announces⟩

theorem Unspent.cons (h : Unspent ref n trace) (silent : ∀ k, ¬ event.applies ref k) :
    Unspent ref n (event :: trace) := by
  refine ⟨h.announced.cons event, ?_⟩
  intro e member k applies
  obtain rfl | member := List.mem_cons.mp member
  · exact absurd applies (silent k)
  · exact h.larger e member k applies

theorem Backed.cons (h : Backed trace) (silent : ∀ ref n, ¬ event.applies ref n) :
    Backed (event :: trace) :=
  ⟨fun ref n applies => absurd applies (silent ref n), h⟩

theorem Backed.announced (h : Backed trace) (member : event ∈ trace) (applies : event.applies ref n)
    :
    ∃ record ∈ trace, record.announces ref n := by
  induction trace with
  | nil => cases member
  | cons head rest ih =>
    obtain rfl | member := List.mem_cons.mp member
    · obtain ⟨record, found, announces⟩ := (h.1 ref n applies).announced.mem
      exact ⟨record, List.mem_cons_of_mem _ found, announces⟩
    · obtain ⟨record, found, announces⟩ := ih h.2 member
      exact ⟨record, List.mem_cons_of_mem _ found, announces⟩

theorem Backed.split {newer older : List Event} (h : Backed (newer ++ event :: older))
    (applies : event.applies ref n) : Unspent ref n older := by
  induction newer with
  | nil => exact h.1 ref n applies
  | cons head rest ih => exact ih h.2

theorem Backed.count_le (h : Backed trace) {bound : Nat}
    (bounded : ∀ event ∈ trace, ∀ n, event.applies ref n → 0 < n ∧ n ≤ bound) :
    trace.countP (Event.isApplyOf ref) ≤ bound := by
  have strict : ∀ limit, (∀ event ∈ trace, ∀ n, event.applies ref n → 0 < n ∧ n ≤ limit) →
      trace.countP (Event.isApplyOf ref) ≤ limit := by
    clear bounded
    induction trace with
    | nil => simp
    | cons head rest ih =>
      intro limit bounded
      by_cases counted : head.isApplyOf ref = true
      · rw [List.countP_cons_of_pos counted]
        obtain ⟨n, applies⟩ := Event.exists_applies counted
        obtain ⟨positive, le⟩ := bounded head List.mem_cons_self n applies
        have below := ih h.2 (n - 1) (fun event member k made =>
          ⟨(bounded event (List.mem_cons_of_mem _ member) k made).1,
            Nat.le_sub_one_of_lt ((h.1 ref n applies).larger event member k made)⟩)
        omega
      · rw [List.countP_cons_of_neg counted]
        exact ih h.2 limit fun event member => bounded event (List.mem_cons_of_mem _ member)
  exact strict bound bounded

def recordVersion (ref : AttemptRef) (n : Nat) : Version := ⟨ref.version, ref.epoch, n⟩

/-- An attempt that has begun has a number of its own; one whose record may have been lost has
it if the record is there. -/
def Flight : Phase → Scene → Prop
  | .settled (.begun _ ref), s => Unspent ref (s.controller.getState ref).attemptCount s.trace
  | .adrift _ w, s => ∀ plan ref, w.stage = .begun plan ref →
      Unspent ref w.state.attemptCount s.trace ∨
        ∀ row, s.db.row? ref.slot = some row → row.ref ref.slot = ref →
          0 < row.attemptCount → row.attemptCount ≠ w.state.attemptCount
  | _, _ => True

structure Budget (phase : Phase) (s : Scene) : Prop where
  tracked : Tracked (fun _ => True) phase s
  /-- No row is older than a record of its failure domain. -/
  recorded : ∀ event ∈ s.trace, ∀ ref n, event.announces ref n →
    ∃ row, s.db.row? ref.slot = some row ∧ recordVersion ref n ≤ StateRow.stateVersion row
  bounded : ∀ event ∈ s.trace, ∀ ref n, event.announces ref n → 0 < n ∧ n ≤ maxMutationAttempts
  backed : Backed s.trace
  flight : Flight phase s

section Begin

variable {env : Env} {plans : Command → Prop} {c : Controller} {trace : List Event}
  {σ : Stage} {w : Write}

theorem Change.announced {change : Change} {commit : Commit} {before after : Database}
    (accepted : change.apply before = .ok after) {ref : AttemptRef} {n : Nat}
    (h : (change.wrote commit ⟨before, c⟩).announces ref n) :
    (∃ row, after.row? ref.slot = some row ∧ recordVersion ref n = StateRow.stateVersion row) ∧
      0 < n ∧ n ≤ maxMutationAttempts := by
  cases change with
  | retry t => exact h.elim
  | ledger t =>
    obtain ⟨_, s, state, rfl, status, rfl⟩ := h
    have admitted := (applyReconcileTransition_accepted accepted).toAdmitted
    have valid := admitted.valid s state
    rw [state] at admitted
    refine ⟨⟨_, admitted.row?_self, rfl⟩, ?_⟩
    unfold validatePersistedReconcileState validateRetryState at valid
    simp only [bind_eq_ok, reject_eq_ok, status, decide_eq_false_iff_not, not_lt,
      beq_self_eq_true, Bool.true_and, beq_eq_false_iff_ne] at valid
    obtain ⟨_, _, _, _, _, _, _, _, _, _, _, bound, _, _, _, _, _, _, _, _, positive⟩ := valid
    exact ⟨Nat.pos_of_ne_zero positive, bound⟩

theorem Change.not_applies (change : Change) (commit : Commit) (before : Moment)
    (ref : AttemptRef) (n : Nat) : ¬ (change.wrote commit before).applies ref n := by
  cases change <;> exact id

theorem Change.refused_silent (change : Change) (fault : Fault) (before : Moment) :
    (change.refused fault before).silent := by
  cases change <;> exact fun _ _ => ⟨id, id⟩

theorem Change.lost_silent (change : Change) {commit : Commit} (lost : ¬ commit.durable)
    (before : Moment) : (change.wrote commit before).silent := by
  intro ref n
  refine ⟨?_, change.not_applies commit before ref n⟩
  cases change with
  | ledger t => exact fun h => lost h.1
  | retry t => exact id

end Begin

section Steps

variable {env : Env} {plans : Command → Prop} {p q : Phase} {s t : Scene}

theorem Budget.calm (h : Budget p s) (tracked : Tracked (fun _ => True) q t)
    (grows : LedgerGrows s.db t.db)
    (trace : t.trace = s.trace ∨ ∃ event, event.silent ∧ t.trace = event :: s.trace)
    (flight : Flight q t) : Budget q t := by
  have old : ∀ event ∈ t.trace, event ∈ s.trace ∨ event.silent := by
    intro event member
    obtain same | ⟨head, silent, same⟩ := trace
    · exact .inl (same ▸ member)
    · rw [same] at member
      obtain rfl | member := List.mem_cons.mp member
      · exact .inr silent
      · exact .inl member
  refine ⟨tracked, ?_, ?_, ?_, flight⟩
  · intro event member ref n announces
    obtain member | silent := old event member
    · obtain ⟨row, found, le⟩ := h.recorded event member ref n announces
      obtain ⟨row', found', le'⟩ := grows ref.slot row found
      exact ⟨row', found', le_trans le le'⟩
    · exact absurd announces (silent ref n).1
  · intro event member ref n announces
    obtain member | silent := old event member
    · exact h.bounded event member ref n announces
    · exact absurd announces (silent ref n).1
  · obtain same | ⟨head, silent, same⟩ := trace
    · rw [same]
      exact h.backed
    · rw [same]
      exact h.backed.cons fun ref n => (silent ref n).2

variable {σ : Stage} {w : Write}

theorem Flight.settled (h : Flight (.settled σ) s)
    (trace : t.trace = s.trace ∨ ∃ event, event.silent ∧ t.trace = event :: s.trace)
    (states : t.controller.states = s.controller.states) : Flight (.settled σ) t := by
  cases σ with
  | begun plan ref =>
    have count : (t.controller.getState ref) = s.controller.getState ref := by
      unfold Controller.getState Controller.state?
      rw [states]
    have h : Unspent ref (s.controller.getState ref).attemptCount s.trace := h
    change Unspent ref (t.controller.getState ref).attemptCount t.trace
    rw [count]
    obtain same | ⟨head, silent, same⟩ := trace
    · rwa [same]
    · rw [same]
      exact h.cons fun k => (silent ref k).2
  | _ => exact trivial

theorem Budget.logs (h : Budget (.settled σ) s) (tracked : Tracked (fun _ => True) (.settled σ) t)
    (grows : LedgerGrows s.db t.db) (trace : t.trace = event :: s.trace)
    (states : t.controller.states = s.controller.states) (silent : event.silent) :
    Budget (.settled σ) t :=
  h.calm tracked grows (.inr ⟨event, silent, trace⟩)
    (Flight.settled h.flight (.inr ⟨event, silent, trace⟩) states)

variable {db : Database} {commit : Commit} {plan : OperationPlan}

theorem Budget.unspent (h : Budget (.settled σ) s)
    (loaded : s.controller.recoveryReloadNeeded = false)
    (permitted : Permitted env plans s.controller s.trace σ w)
    (accepted : w.change.apply s.db = .ok db) (grows : LedgerGrows s.db db)
    (durable : commit.durable) (stage : w.stage = .begun plan ref) :
    Unspent ref w.state.attemptCount (w.change.wrote commit s.toMoment :: s.trace) := by
  obtain ⟨same, status, count, ⟨t, r, change, state, refs, retry⟩, _⟩ := permitted.begun stage
  rw [same] at refs
  have below : ∀ event ∈ s.trace, ∀ k, event.announces ref k → k < w.state.attemptCount := by
    intro event member k announces
    obtain ⟨row, found, le⟩ := h.recorded event member ref k announces
    obtain ⟨row', found', le'⟩ := grows ref.slot row found
    have admitted := Change.admitted accepted
    rw [change, show (Change.ledger t).state? = some r from state] at admitted
    rw [← refs, admitted.row?_self] at found'
    cases found'
    -- the row lies between the old record and the new one, so it is of the same retry key
    rw [stateVersion_encode] at le'
    rw [Version.le_iff] at le le'
    simp only [recordVersion, StateRow.stateVersion, PersistedState.stateVersion, refs,
      retry] at le le'
    by_cases positive : 0 < row.attemptCount
    · have key : row.ref ref.slot = ref := by
        have version : row.version = ref.version := by omega
        have epoch : row.epoch = ref.epoch := by omega
        rw [StateRow.ref, version, epoch]
      obtain ⟨st, known, counted⟩ :=
        (h.tracked.live permitted.alive loaded).counted ref.slot row trivial found positive
      rw [key] at known
      have memory : (s.controller.getState ref).attemptCount = row.attemptCount := by
        rw [Controller.getState, known]
        exact counted
      omega
    · omega
  have announces : (w.change.wrote commit s.toMoment).announces ref w.state.attemptCount := by
    rw [change]
    exact ⟨durable, r, state, refs, by rw [retry, status], by rw [retry]⟩
  refine ⟨⟨[], _, s.trace, rfl, announces, below⟩, ?_⟩
  intro event member k applies
  obtain rfl | member := List.mem_cons.mp member
  · exact absurd applies (w.change.not_applies commit _ ref k)
  · obtain ⟨record, found, announces⟩ := h.backed.announced member applies
    exact below record found k announces

theorem Budget.missing (h : Budget (.settled σ) s)
    (loaded : s.controller.recoveryReloadNeeded = false)
    (permitted : Permitted env plans s.controller s.trace σ w) (stage : w.stage = .begun plan ref) :
    ∀ row, s.db.row? ref.slot = some row → row.ref ref.slot = ref →
      0 < row.attemptCount → row.attemptCount ≠ w.state.attemptCount := by
  obtain ⟨_, _, count, _⟩ := permitted.begun stage
  intro row found key positive
  obtain ⟨st, known, counted⟩ :=
    (h.tracked.live permitted.alive loaded).counted ref.slot row trivial found positive
  rw [key] at known
  have memory : (s.controller.getState ref).attemptCount = row.attemptCount := by
    rw [Controller.getState, known]
    exact counted
  omega

theorem Budget.wrote {c : Controller} (h : Budget (.settled σ) s)
    (accepted : w.change.apply s.db = .ok db) (grows : LedgerGrows s.db db)
    (tracked : Tracked (fun _ => True) q ⟨⟨db, c⟩, w.change.wrote commit s.toMoment :: s.trace⟩)
    (flight : Flight q ⟨⟨db, c⟩, w.change.wrote commit s.toMoment :: s.trace⟩) :
    Budget q ⟨⟨db, c⟩, w.change.wrote commit s.toMoment :: s.trace⟩ := by
  refine ⟨tracked, ?_, ?_, ?_, flight⟩
  · intro event member ref n announces
    obtain rfl | member := List.mem_cons.mp member
    · obtain ⟨⟨row, found, version⟩, _⟩ := Change.announced accepted announces
      exact ⟨row, found, version.le⟩
    · obtain ⟨row, found, le⟩ := h.recorded event member ref n announces
      obtain ⟨row', found', le'⟩ := grows ref.slot row found
      exact ⟨row', found', le_trans le le'⟩
  · intro event member ref n announces
    obtain rfl | member := List.mem_cons.mp member
    · exact (Change.announced accepted announces).2
    · exact h.bounded event member ref n announces
  · exact h.backed.cons (w.change.not_applies commit _)

theorem Budget.step (drifting : Drifting env plans p s) (step : Move env plans p s q t)
    (compared : Compared (fun _ => True) t.trace) (h : Budget p s) : Budget q t := by
  have tracked := h.tracked.step drifting step compared
  have grows : LedgerGrows s.db t.db := fun slot => step.growsAt compared trivial
  have kept : s.trace = s.trace ∨ ∃ event : Event, event.silent ∧ s.trace = event :: s.trace :=
    .inl rfl
  have logged : ∀ {event : Event}, event.silent →
      (event :: s.trace = s.trace ∨
        ∃ head : Event, head.silent ∧ event :: s.trace = head :: s.trace) :=
    fun silent => .inr ⟨_, silent, rfl⟩
  cases step with
  | @external _ _ locked action may =>
    cases p with
    | settled σ => exact h.logs tracked grows rfl republished_act.states fun _ _ => ⟨id, id⟩
    | adrift σ w =>
      refine h.calm tracked grows (logged fun _ _ => ⟨id, id⟩) ?_
      intro plan ref stage
      obtain unspent | missing := h.flight plan ref stage
      · exact .inl (unspent.cons fun _ => id)
      · refine .inr fun row found key positive => ?_
        have old := (resets_onDatabase _ action s.db).row?_of_attempted found positive
        exact missing row old key positive
  | @note σ _ event quiet =>
    refine h.logs tracked grows rfl rfl ?_
    cases event with
    | checked | failing => exact fun _ _ => ⟨id, id⟩
    | _ => exact quiet.elim
  | probe | observe | confirm => exact h.logs tracked grows rfl rfl fun _ _ => ⟨id, id⟩
  | @apply plan ref _ mutated result =>
    have unspent : Unspent ref (s.controller.getState ref).attemptCount s.trace := h.flight
    refine ⟨tracked, ?_, ?_, ⟨?_, h.backed⟩, trivial⟩
    · intro event member ref n announces
      obtain rfl | member := List.mem_cons.mp member
      · exact announces.elim
      · exact h.recorded event member ref n announces
    · intro event member ref n announces
      obtain rfl | member := List.mem_cons.mp member
      · exact announces.elim
      · exact h.bounded event member ref n announces
    · rintro other n ⟨rfl, rfl⟩
      exact unspent
  | remember neutral =>
    refine h.calm tracked grows kept (Flight.settled h.flight kept ?_)
    rw [neutral.shape]
  | started probed => exact h.calm tracked grows kept (Flight.settled h.flight kept rfl)
  | pend | enter | widen | leave | reload | die | restart =>
    exact h.calm tracked grows kept trivial
  | @quit σ | @flag σ | @abandon σ =>
    refine h.calm tracked grows kept ?_
    cases σ <;> exact trivial
  | @commit σ _ w db loaded permitted accepted =>
    refine h.wrote accepted grows tracked ?_
    cases stage : w.stage with
    | begun plan ref =>
      have durable : Commit.durable .commits := trivial
      have unspent := h.unspent loaded permitted accepted grows durable stage
      have count : (w.success s.controller).getState ref = w.state := by
        unfold Controller.getState
        rw [permitted.state?, if_pos (permitted.begun stage).1.symm]
        rfl
      change Unspent ref ((w.success s.controller).getState ref).attemptCount _
      rwa [count]
    | _ => exact trivial
  | @refuse σ _ w fault loaded permitted refused =>
    refine h.calm tracked grows (logged (w.change.refused_silent fault _)) ?_
    cases σ <;> exact trivial
  | @fail σ _ w db loaded permitted accepted =>
    refine h.calm tracked grows (logged (w.change.lost_silent id _)) ?_
    cases σ <;> exact trivial
  | @lose σ _ w db loaded permitted accepted =>
    refine h.calm tracked grows (logged (w.change.lost_silent id _)) ?_
    exact fun plan ref stage => .inr (h.missing loaded permitted stage)
  | @land σ _ w db loaded permitted accepted =>
    refine h.wrote accepted grows tracked ?_
    have durable : Commit.durable .unknownCommitted := trivial
    exact fun plan ref stage => .inl (h.unspent loaded permitted accepted grows durable stage)
  | @adopt σ w _ r c read replaced =>
    refine h.calm tracked grows kept ?_
    cases stage : w.stage with
    | begun plan ref =>
      obtain ⟨same, _, number, ⟨t, st, change, state, refs, retry⟩, _⟩ := drifting.1.begun stage
      have count : (w.success { c with recoveryReloadNeeded := false }).getState ref =
          w.state := by
        unfold Controller.getState
        rw [drifting.1.state?, if_pos same.symm]
        rfl
      change Unspent ref (Controller.getState _ ref).attemptCount _
      rw [count]
      obtain unspent | missing := h.flight plan ref stage
      · exact unspent
      · have written : w.change.state? = some st := by rw [change]; exact state
        obtain ⟨row, found, key, _, counts⟩ := Change.row_of_readback read written
        rw [refs, same] at found key
        rw [retry] at counts
        exact absurd counts (missing row found key (by omega))
    | _ => exact trivial
  | boot => exact h.calm tracked grows (logged fun _ _ => ⟨id, id⟩) trivial

end Steps

/-- The durable states of a run, newest first: the present one and those its events met. -/
def durableHistory (db : Database) (trace : List Event) : List Database :=
  db :: trace.filterMap Event.database?

def NeverBack (db : Database) (trace : List Event) : Prop :=
  (durableHistory db trace).Pairwise fun newer older => LedgerGrows older newer

section History

variable {env : Env} {plans : Command → Prop} {p q : Phase} {s t : Scene}

theorem Move.logs (step : Move env plans p s q t) :
    t.trace = s.trace ∨ ∃ event, t.trace = event :: s.trace ∧
      (event.database? = none ∨ event.database? = some s.db) := by
  have wrote : ∀ (change : Change) (commit : Commit),
      (change.wrote commit s.toMoment).database? = some s.db := fun change _ => by
    cases change <;> rfl
  cases step with
  | external action may => exact .inr ⟨_, rfl, .inr rfl⟩
  | @note σ _ event quiet =>
    refine .inr ⟨_, rfl, .inl ?_⟩
    cases event with
    | checked | failing => rfl
    | _ => exact quiet.elim
  | probe | boot => exact .inr ⟨_, rfl, .inl rfl⟩
  | apply | observe => exact .inr ⟨_, rfl, .inr rfl⟩
  | confirm borne same durable => exact .inr ⟨_, rfl, .inr (congrArg some durable)⟩
  | commit | fail | lose | land => exact .inr ⟨_, rfl, .inr (wrote _ _)⟩
  | @refuse σ _ w fault loaded permitted refused =>
    refine .inr ⟨_, rfl, .inr ?_⟩
    cases w.change <;> rfl
  | _ => exact .inl rfl

theorem NeverBack.step (step : Move env plans p s q t)
    (compared : Compared (fun _ => True) t.trace) (h : NeverBack s.db s.trace) :
    NeverBack t.db t.trace := by
  have grows : LedgerGrows s.db t.db := fun slot => step.growsAt compared trivial
  unfold NeverBack durableHistory at h ⊢
  rw [List.pairwise_cons] at h ⊢
  have later : ∀ older ∈ s.trace.filterMap Event.database?, LedgerGrows older t.db :=
    fun older member slot => (h.1 older member slot).trans (grows slot)
  obtain same | ⟨event, same, none_ | met⟩ := step.logs
  · rw [same]
    exact ⟨later, h.2⟩
  · rw [same, List.filterMap_cons_none none_]
    exact ⟨later, h.2⟩
  · rw [same, List.filterMap_cons_some met, List.pairwise_cons]
    refine ⟨?_, h.1, h.2⟩
    intro older member
    obtain rfl | member := List.mem_cons.mp member
    · exact grows
    · exact later older member

end History

section Claims

open Node

variable {env : Env} {nodeID : String} {steps : List (Step env.backend.Answer)}

theorem budget_of_run
    (compared : Compared (fun _ => True) (run env (initial nodeID) steps).trace) :
    Budget (run env (initial nodeID) steps).phase.1 (run env (initial nodeID) steps).phase.2 ∧
      NeverBack (run env (initial nodeID) steps).db (run env (initial nodeID) steps).trace := by
  have path : Path env (fun _ => True) (initial nodeID).phase (run env (initial nodeID) steps).phase :=
    path_run_initial nodeID steps fun _ _ => trivial
  have preserved := path.preserves
    (J := fun p s => Compared (fun _ => True) s.trace → Budget p s ∧ NeverBack s.db s.trace)
    (fun drifting step before later => by
      obtain ⟨budget, history⟩ := before (later.of_suffix step.suffix)
      exact ⟨budget.step drifting step later, history.step step later⟩)
    trivial (fun _ => ⟨⟨⟨by rintro _ _ _ ⟨⟩, fun live => absurd rfl live⟩, by rintro _ ⟨⟩, by rintro _ ⟨⟩,
      trivial, trivial⟩, List.pairwise_singleton _ _⟩)
  rw [trace_phase] at preserved
  have ended := preserved compared
  rwa [db_phase] at ended

/-- Whatever a run consists of: at most six Applys are made under one retry key; each follows a
durable Applying record whose number exceeds every earlier one, and no earlier Apply of the key
had its number; and no row ever moved back. -/
theorem attempts_within_budget
    (compared : Compared (fun _ => True) (run env (initial nodeID) steps).trace) :
    (∀ ref, (run env (initial nodeID) steps).trace.countP (Event.isApplyOf ref) ≤ 6) ∧
    (∀ newer event older ref n, (run env (initial nodeID) steps).trace = newer ++ event :: older →
      event.applies ref n →
        Announced ref n older ∧ ∀ earlier ∈ older, ∀ k, earlier.applies ref k → k < n) ∧
    NeverBack (run env (initial nodeID) steps).db (run env (initial nodeID) steps).trace := by
  obtain ⟨budget, history⟩ := budget_of_run compared
  have backed := budget.backed
  have bounded := budget.bounded
  rw [trace_phase] at backed bounded
  refine ⟨?_, ?_, history⟩
  · intro ref
    refine backed.count_le fun event member n applies => ?_
    obtain ⟨record, found, announces⟩ := backed.announced member applies
    exact bounded record found ref n announces
  · intro newer event older ref n split applies
    rw [split] at backed
    have unspent := backed.split applies
    exact ⟨unspent.announced, unspent.larger⟩

end Claims

namespace Sample

def refusing : Answer where
  probe := .ok {}
  apply := .ok { kind := .rejected, domain := .infrastructure }

def revisionFive : DesiredSnapshot := desired 5 5 1 []

def keyOfRevisionFive : AttemptRef := ⟨.infrastructure, 5, 0⟩

def starts : List (Step Answer) :=
  [⟨.restart, ticks 2 1⟩, ⟨.external (.publish revisionFive), []⟩]

/-- A reading of a clock that has been set back from 100 s to 50 s after `before` readings; the
monotonic clock runs on. -/
def setBack (before : Nat) : List (Tick Answer) :=
  List.replicate before
      { now := ⟨100 * Core.second, some 0⟩, answer := refusing } ++
    List.replicate 30
      { now := ⟨50 * Core.second, some Core.second⟩, answer := refusing }

/-- A refused attempt during which the clock is set back leaves a row that does not decode; an
invalid plan of an older revision then overwrites it, and the process starts again. -/
def forgets : List (Step Answer) :=
  [⟨.execute (plan revisionFive .infrastructure), setBack 12⟩,
    ⟨.execute { key := { domain := .infrastructure, infrastructureRevision := 1 } },
      ticks 10 60⟩] ++ starts

def refusedTwice : List (Step Answer) := starts ++
  [⟨.execute (plan revisionFive .infrastructure), ticks 30 100 refusing⟩,
    ⟨.execute (plan revisionFive .infrastructure), ticks 30 200 refusing⟩]

theorem refused_runs :
    (Node.run (Sample.env false) (Node.initial Sample.nodeID) refusedTwice).trace.countP
        (Event.isApplyOf keyOfRevisionFive) = 2 ∧
      Compared (fun _ => True)
        (Node.run (Sample.env false) (Node.initial Sample.nodeID) refusedTwice).trace ∧
      (Node.run (Sample.env false) (Node.initial Sample.nodeID)
        (starts ++ (List.replicate 7 forgets).flatten)).trace.countP
          (Event.isApplyOf keyOfRevisionFive) = 7 := by
  decide +kernel

end Sample

open Sample in
theorem attempts_within_budget_refused :
    let steps : List (Step (Sample.env false).backend.Answer) := starts ++
      [⟨.execute (plan revisionFive .infrastructure), ticks 30 100 refusing⟩,
        ⟨.execute (plan revisionFive .infrastructure), ticks 30 200 refusing⟩]
    let node := Node.run (Sample.env false) (Node.initial Sample.nodeID) steps
    node.trace.countP (Event.isApplyOf keyOfRevisionFive) = 2 ∧
      (∀ ref, node.trace.countP (Event.isApplyOf ref) ≤ 6) ∧ NeverBack node.db node.trace := by
  obtain ⟨count, compared, _⟩ := refused_runs
  have all := @attempts_within_budget (Sample.env false) Sample.nodeID refusedTwice compared
  exact ⟨count, all.1, all.2.2⟩

open Sample in
/-- Seven Applys under one retry key. -/
theorem attempts_exceed_budget :
    (Node.run (Sample.env false) (Node.initial Sample.nodeID)
      (starts ++ (List.replicate 7 forgets).flatten)).trace.countP
        (Event.isApplyOf keyOfRevisionFive) = 7 := refused_runs.2.2

end GuardWall.Reconcile
