import GuardWall.Store.Effects

/-! Sequences of the four calls that write the ledger tables, with the unit of work the two
resets run in. -/
namespace GuardWall.Store

open GuardWall.Core GuardWall.Foundation

inductive Reset where
  | target (nodeID : String) (cidr : Prefix) (generation : Nat) (updatedAt : Instant)
  | policy (revision : Nat) (updatedAt : Instant)
  deriving DecidableEq, Repr

def Reset.statement : Reset → Database → Except Fault Database
  | target nodeID cidr generation updatedAt =>
      resetTargetReconcileState nodeID cidr generation updatedAt
  | policy revision updatedAt => resetPolicyReconcileState revision updatedAt

/-- `UnitOfWork`: an open transaction and the first failure of a call in it. -/
structure UnitOfWork where
  db : Database
  failed : Option Fault := none

namespace UnitOfWork

/-- One call, between `ready` and `fail`. A failed statement leaves the transaction open. -/
def call (u : UnitOfWork) (statement : Database → Except Fault Database) :
    Except Fault Unit × UnitOfWork :=
  match u.failed with
  | some fault => (.error fault, u)
  | none =>
      match statement u.db with
      | .ok db => (.ok (), { u with db := db })
      | .error fault => (.error fault, { u with failed := some fault })

/-- The calls of a unit whose caller goes on after an error. -/
def issue (u : UnitOfWork) (resets : List Reset) : UnitOfWork :=
  resets.foldl (fun u reset => (u.call reset.statement).2) u

def commit (u : UnitOfWork) : Except Fault Database :=
  match u.failed with
  | some fault => .error fault
  | none => .ok u.db

end UnitOfWork

inductive Call where
  | transition (t : Transition)
  | retry (t : RetryTransition)
  | work (resets : List Reset)

def Call.transact : Call → Database → Except Fault Database
  | transition t, db => applyReconcileTransition t db
  | retry t, db => applyReconcileRetryTransition t db
  | work resets, db => (UnitOfWork.issue ⟨db, none⟩ resets).commit

structure Issued where
  call : Call
  lands : Bool := true

def Issued.after (issued : Issued) (db : Database) : Database :=
  match issued.call.transact db with
  | .ok db' => if issued.lands then db' else db
  | .error _ => db

def replay (calls : List Issued) (db : Database) : Database :=
  calls.foldl (fun db issued => issued.after db) db

theorem replay_append (past recent : List Issued) (db : Database) :
    replay (past ++ recent) db = replay recent (replay past db) := List.foldl_append

/-- The store can decode the row. A Target row is compared without being decoded. -/
def StateRow.decodes (nodeID : String) : ReconcileKey → StateRow → Bool
  | .target _, _ => true
  | slot, row => (decodeReconcileState nodeID slot row).isOk

def Issued.readable (issued : Issued) (db : Database) : Prop :=
  ∀ t s after row, issued.call = .transition t → issued.lands = true → t.state = some s →
    applyReconcileTransition t db = .ok after → db.row? s.ref.slot = some row →
    StateRow.decodes db.nodeID s.ref.slot row = true

section Units

variable {u : UnitOfWork} {resets : List Reset}

theorem UnitOfWork.issue_failed {fault : Fault} (failed : u.failed = some fault) :
    u.issue resets = u := by
  induction resets with
  | nil => rfl
  | cons reset rest ih =>
    have same : (u.call reset.statement).2 = u := by
      unfold UnitOfWork.call
      rw [failed]
    unfold UnitOfWork.issue at ih ⊢
    rw [List.foldl_cons, same, ih]

theorem UnitOfWork.commit_of_refused {past rest : List Reset} {reset : Reset} {fault : Fault}
    (refused : ((u.issue past).call reset.statement).1 = .error fault) :
    ∃ first, (u.issue (past ++ reset :: rest)).commit = .error first := by
  have failed : ∃ first, ((u.issue past).call reset.statement).2.failed = some first := by
    unfold UnitOfWork.call at refused ⊢
    cases failed : (u.issue past).failed with
    | some first => exact ⟨first, by simpa using failed⟩
    | none =>
      rw [failed] at refused
      simp only at refused ⊢
      split at refused
      · cases refused
      · exact ⟨_, rfl⟩
  obtain ⟨first, failed⟩ := failed
  refine ⟨first, ?_⟩
  have later : u.issue (past ++ reset :: rest) = ((u.issue past).call reset.statement).2 := by
    have split : u.issue (past ++ reset :: rest) =
        UnitOfWork.issue ((u.issue past).call reset.statement).2 rest := by
      unfold UnitOfWork.issue
      rw [List.foldl_append, List.foldl_cons]
    rw [split, UnitOfWork.issue_failed failed]
  unfold UnitOfWork.commit
  rw [later, failed]

end Units

section Growth

variable {db db' : Database}

private theorem grows_insert {slot : ReconcileKey} {new : StateRow}
    (newer : ∀ row, db.row? slot = some row → row.version < new.version) :
    LedgerGrows db { db with ledger := db.ledger.insert slot new } := by
  intro other row found
  by_cases same : other = slot
  · subst same
    exact ⟨new, AList.lookup_insert _, Version.le_iff.mpr (.inl (newer row found))⟩
  · exact ⟨row, by unfold Database.row?; rw [AList.lookup_insert_ne same]; exact found, le_refl _⟩

theorem Reset.grows {reset : Reset} (h : reset.statement db = .ok db') : LedgerGrows db db' := by
  cases reset with
  | target nodeID cidr generation updatedAt =>
    obtain ⟨_, _, newer, rfl⟩ := resetTargetReconcileState_inserts h
    exact grows_insert newer
  | policy revision updatedAt => exact (resetPolicyReconcileState_resets h).grows

theorem LedgerGrows.trans {a b c : Database} (first : LedgerGrows a b) (second : LedgerGrows b c) :
    LedgerGrows a c := fun slot => (first slot).trans (second slot)

theorem UnitOfWork.issue_grows (u : UnitOfWork) (resets : List Reset) :
    LedgerGrows u.db (u.issue resets).db := by
  induction resets generalizing u with
  | nil => exact fun _ => GrowsAt.refl _
  | cons reset rest ih =>
    refine LedgerGrows.trans ?_ (ih (u.call reset.statement).2)
    unfold UnitOfWork.call
    split
    · exact fun _ => GrowsAt.refl _
    · split
      · rename_i written
        exact Reset.grows written
      · exact fun _ => GrowsAt.refl _

theorem Issued.comparable {issued : Issued} {t : Transition} {p : PersistedState}
    (readable : issued.readable db) (call : issued.call = .transition t)
    (lands : issued.lands = true) (h : applyReconcileTransition t db = .ok db')
    (state : t.state = some p) : Comparable p.nodeID p.ref.slot db := by
  have node : db.nodeID = p.nodeID := (applyReconcileTransition_accepted h).node p state
  have decodes := fun row found => readable t p db' row call lands state h found
  rw [node] at decodes
  cases slot : p.ref.slot with
  | target cidr => exact comparable_target _ _ _
  | infrastructure | policy =>
    rw [slot] at decodes
    exact comparable_of_decodes fun row found => isOk_iff.mp (decodes row found)

theorem Issued.grows {issued : Issued} (readable : issued.readable db) :
    LedgerGrows db (issued.after db) := by
  unfold Issued.after
  cases written : issued.call.transact db with
  | error fault => exact fun _ => GrowsAt.refl _
  | ok db' =>
    cases lands : issued.lands with
    | false => exact fun _ => GrowsAt.refl _
    | true =>
      cases call : issued.call with
      | transition t =>
        rw [call] at written
        exact fun slot => (applyReconcileTransition_accepted written).growsAt fun p state _ =>
          Issued.comparable readable call lands written state
      | retry t =>
        rw [call] at written
        have retried := applyReconcileRetryTransition_retried written
        refine fun slot => retried.growsAt ?_
        rintro p ⟨⟩ _
        exact retried.comparable
      | work resets =>
        have grows := UnitOfWork.issue_grows ⟨db, none⟩ resets
        simp only [call, Call.transact, UnitOfWork.commit] at written
        split at written
        · cases written
        · cases written
          exact grows

theorem replay_grows {calls : List Issued}
    (readable : ∀ past issued rest, calls = past ++ issued :: rest →
      issued.readable (replay past db)) :
    LedgerGrows db (replay calls db) := by
  induction calls generalizing db with
  | nil => exact fun _ => GrowsAt.refl _
  | cons issued rest ih =>
    refine (Issued.grows (readable [] issued rest rfl)).trans (ih ?_)
    intro past next later split
    exact readable (issued :: past) next later (by rw [split]; rfl)

end Growth

def StateRow.legible (nodeID : String) : ReconcileKey → StateRow → Bool
  | .target _, row => row.attemptCount ≤ maxUint32
  | slot, row => (decodeReconcileState nodeID slot row).isOk

def Database.epochOf (db : Database) (slot : ReconcileKey) : Nat :=
  match db.row? slot with
  | some row => row.epoch
  | none => 0

structure Admissible (t : RetryTransition) (db : Database) : Prop where
  valid : validateReconcileRetryTransition t = .ok ()
  node : db.nodeID = t.state.nodeID
  legible : ∀ row, db.row? t.state.ref.slot = some row →
    StateRow.legible t.state.nodeID t.state.ref.slot row = true
  /-- The retry is not of an older revision or generation than the row. -/
  current : ∀ row, db.row? t.state.ref.slot = some row → row.version ≤ t.state.ref.version
  epoch : t.audit.previousEpoch = db.epochOf t.state.ref.slot
  unused : ∀ a ∈ db.audits,
    a.id ≠ t.audit.id ∧ a.idempotencyKey ≠ t.audit.idempotencyKey

section Retries

variable {t : RetryTransition} {db db' : Database}

theorem retry_of_valid (valid : validateReconcileRetryTransition t = .ok ()) :
    t.state.retry = RetryState.fresh ∧ t.state.ref.epoch = t.audit.previousEpoch + 1 := by
  unfold validateReconcileRetryTransition at valid
  simp only [bind_eq_ok, reject_eq_ok, Bool.or_eq_false_iff, bne_eq_false_iff_eq] at valid
  obtain ⟨_, _, _, clean, _, _, _, _, _, _, _, next⟩ := valid
  exact ⟨clean, next⟩

theorem currentRetryEpoch_eq_ok {nodeID : String} {slot : ReconcileKey} {epoch : Nat}
    (inRange : targetOutOfRange slot db = false) :
    currentRetryEpoch nodeID slot db = .ok epoch ↔
      (∀ row, db.row? slot = some row → StateRow.legible nodeID slot row = true) ∧
        db.epochOf slot = epoch := by
  unfold currentRetryEpoch Database.epochOf StateRow.legible
  unfold targetOutOfRange at inRange
  cases found : db.row? slot with
  | none => simp
  | some row =>
    cases slot with
    | target cidr =>
      rw [found] at inRange
      simp only [decide_eq_false_iff_not, not_lt] at inRange
      simp [inRange]
    | infrastructure =>
      cases decoded : decodeReconcileState nodeID .infrastructure row <;>
        simp [decoded, Except.isOk, Except.toBool, bind_eq_ok, pure, Except.pure]
    | policy =>
      cases decoded : decodeReconcileState nodeID .policy row <;>
        simp [decoded, Except.isOk, Except.toBool, bind_eq_ok, pure, Except.pure]

theorem comparable_of_legible {nodeID : String} {slot : ReconcileKey}
    (legible : ∀ row, db.row? slot = some row → StateRow.legible nodeID slot row = true) :
    targetOutOfRange slot db = false ∧ Comparable nodeID slot db := by
  cases slot with
  | target cidr =>
    refine ⟨?_, comparable_target _ _ _⟩
    unfold targetOutOfRange
    cases found : db.row? (.target cidr) with
    | none => rfl
    | some row =>
      have range := legible row found
      simp only [StateRow.legible, decide_eq_true_eq] at range
      simpa using range
  | infrastructure | policy =>
    exact ⟨rfl, comparable_of_decodes fun row found => isOk_iff.mp (legible row found)⟩

theorem regression_retry (valid : validateReconcileRetryTransition t = .ok ())
    (legible : ∀ row, db.row? t.state.ref.slot = some row →
      StateRow.legible t.state.nodeID t.state.ref.slot row = true)
    (epoch : db.epochOf t.state.ref.slot = t.audit.previousEpoch) :
    rejectReconcileRegression t.state db = .ok () ↔
      ∀ row, db.row? t.state.ref.slot = some row → row.version ≤ t.state.ref.version := by
  obtain ⟨inRange, comparable⟩ := comparable_of_legible legible
  obtain ⟨clean, next⟩ := retry_of_valid valid
  constructor
  · intro admitted row found
    have le := Version.le_iff.mp (version_le_of_admitted admitted comparable found)
    simp only [StateRow.stateVersion, PersistedState.stateVersion] at le
    omega
  · intro current
    unfold rejectReconcileRegression
    rw [bind_eq_ok]
    refine ⟨(), reject_eq_ok.mpr inRange, ?_⟩
    cases found : db.row? t.state.ref.slot with
    | none =>
      unfold currentVersion
      rw [found]
    | some row =>
      have version := current row found
      rw [comparable row found]
      simp only
      rw [if_neg]
      refine Version.compare_ne_lt.mpr (Version.le_iff.mpr ?_)
      unfold Database.epochOf at epoch
      rw [found] at epoch
      simp only at epoch
      simp only [StateRow.stateVersion, PersistedState.stateVersion]
      omega

theorem retry_accepted_iff :
    (∃ db', applyReconcileRetryTransition t db = .ok db') ↔ Admissible t db := by
  unfold applyReconcileRetryTransition Database.requireNodeIdentity writeReconcileRetryAudit
  simp only [within_eq_ok, bind_eq_ok, reject_eq_ok]
  constructor
  · rintro ⟨db', _, valid, _, node, _, admitted, previous, read, _, same, _, unused, _⟩
    have inRange : targetOutOfRange t.state.ref.slot db = false := by
      unfold rejectReconcileRegression at admitted
      rw [bind_eq_ok] at admitted
      obtain ⟨_, range, _⟩ := admitted
      exact reject_eq_ok.mp range
    obtain ⟨legible, epoch⟩ := (currentRetryEpoch_eq_ok inRange).mp read
    have matching : t.audit.previousEpoch = previous := by simpa using same
    refine ⟨valid, by simpa using node, legible, ?_, by rw [matching, epoch], ?_⟩
    · exact (regression_retry valid legible (epoch.trans matching.symm)).mp admitted
    · intro a member
      simpa [upsertReconcileState] using List.any_eq_false.mp unused a member
  · rintro ⟨valid, node, legible, current, epoch, unused⟩
    obtain ⟨inRange, _⟩ := comparable_of_legible legible
    refine ⟨_, (), valid, (), by simpa using node, (),
      (regression_retry valid legible epoch.symm).mpr current, t.audit.previousEpoch,
      (currentRetryEpoch_eq_ok inRange).mpr ⟨legible, epoch.symm⟩, (), by simp, (), ?_, rfl⟩
    refine List.any_eq_false.mpr fun a member => ?_
    simpa using unused a member

theorem retry_accepted_effect (h : applyReconcileRetryTransition t db = .ok db') :
    db'.epochOf t.state.ref.slot = db.epochOf t.state.ref.slot + 1 ∧
      db'.audits = retryAuditRow t :: db.audits := by
  have admissible := retry_accepted_iff.mp ⟨db', h⟩
  obtain ⟨_, next⟩ := retry_of_valid admissible.valid
  have written : db'.epochOf t.state.ref.slot = t.state.ref.epoch := by
    unfold Database.epochOf
    rw [(applyReconcileRetryTransition_retried h).row?_self]
    rfl
  refine ⟨by rw [written, next, admissible.epoch], ?_⟩
  unfold applyReconcileRetryTransition writeReconcileRetryAudit at h
  simp only [within_eq_ok, bind_eq_ok] at h
  obtain ⟨_, _, _, _, _, _, _, _, _, _, _, _, h⟩ := h
  cases h
  rfl

end Retries

theorem Issued.after_of_refused {issued : Issued} {db : Database} {fault : Fault}
    (refused : issued.call.transact db = .error fault) : issued.after db = db := by
  unfold Issued.after
  rw [refused]

/-- Along every sequence of calls no row moves to an older version, if the rows that transitions
write over decode. Each retry is accepted exactly when it is admissible and then raises the epoch
by one with its audit record; and a refused call, or a unit of work with a refused reset, changes
nothing. -/
theorem ledger_versions_grow (calls : List Issued) (db : Database) :
    ((∀ past issued rest, calls = past ++ issued :: rest → issued.readable (replay past db)) →
      ∀ past recent rest, calls = past ++ recent ++ rest →
        LedgerGrows (replay past db) (replay (past ++ recent) db)) ∧
    ∀ past issued rest, calls = past ++ issued :: rest →
      (∀ t, issued.call = .retry t →
        ((∃ after, issued.call.transact (replay past db) = .ok after) ↔
          Admissible t (replay past db)) ∧
        ∀ after, issued.call.transact (replay past db) = .ok after →
          after.epochOf t.state.ref.slot = (replay past db).epochOf t.state.ref.slot + 1 ∧
          after.audits = retryAuditRow t :: (replay past db).audits) ∧
      (∀ earlier reset later fault, issued.call = .work (earlier ++ reset :: later) →
        ((UnitOfWork.issue ⟨replay past db, none⟩ earlier).call reset.statement).1 =
          .error fault →
        ∃ first, issued.call.transact (replay past db) = .error first) ∧
      ∀ fault, issued.call.transact (replay past db) = .error fault →
        replay (past ++ [issued]) db = replay past db := by
  refine ⟨?_, ?_⟩
  · intro readable past recent rest split
    rw [replay_append]
    refine replay_grows fun before issued after inner => ?_
    rw [← replay_append]
    exact readable (past ++ before) issued (after ++ rest) (by rw [split, inner]; simp)
  · intro past issued rest split
    refine ⟨?_, ?_, ?_⟩
    · rintro t same
      rw [same]
      exact ⟨retry_accepted_iff, fun after h => retry_accepted_effect h⟩
    · intro earlier reset later fault same refused
      rw [same]
      exact UnitOfWork.commit_of_refused refused
    · intro fault refused
      rw [replay_append]
      exact Issued.after_of_refused refused

namespace Sample

def node : String := "0123456789abcdef0123456789abcdef"

def instant (seconds : Int) : Instant := ⟨seconds * second, none⟩

def atRevisionTwo : Database :=
  { nodeID := node, ledger := AList.singleton .policy (pendingRow 2 0 (instant 1)) }

def retryOf (revision : Nat) : RetryTransition where
  state := ⟨node, ⟨.policy, revision, 1⟩, .fresh, instant 2⟩
  audit := ⟨"audit", "retry", node, "administrator", 0, instant 2⟩

def attemptOf (nodeID : String) : Transition where
  state := some ⟨nodeID, ⟨.policy, 2, 0⟩,
    { status := .applying, attemptCount := 1, lastAttemptAt := some (instant 2) }, instant 2⟩

/-- An attempt asked for by another node is refused, one by the node itself lands, then a retry of
its revision, one of an older revision, which is refused, and a reset to revision 3. -/
def policyCalls : List Issued :=
  [⟨.transition (attemptOf "other"), true⟩, ⟨.transition (attemptOf node), true⟩,
    ⟨.retry (retryOf 2), true⟩, ⟨.retry (retryOf 1), true⟩, ⟨.work [.policy 3 (instant 3)], true⟩]

end Sample

open Sample in
theorem ledger_versions_grow_policy :
    (replay (policyCalls.take 2) atRevisionTwo).row? .policy ≠ atRevisionTwo.row? .policy ∧
      LedgerGrows atRevisionTwo (replay policyCalls atRevisionTwo) := by
  refine ⟨by decide +kernel, (ledger_versions_grow policyCalls atRevisionTwo).1 ?_ [] _ [] rfl⟩
  intro past issued rest split t p after row call _ state accepted found
  obtain _ | ⟨first, _ | ⟨second, past⟩⟩ := past
  · cases split
    cases call
    cases state
    exact absurd (isOk_iff.mpr ⟨_, accepted⟩) (by decide +kernel)
  · cases split
    cases call
    cases state
    cases found
    decide +kernel
  · exfalso
    have later : issued ∈ policyCalls.drop 2 := by
      simp only [List.cons_append] at split
      rw [split]
      simp
    simp only [policyCalls, List.drop_succ_cons, List.drop_zero, List.mem_cons, List.not_mem_nil,
      or_false] at later
    obtain rfl | rfl | rfl := later <;> cases call

open Sample in
/-- A valid retry that names the row's epoch, but an older revision, is refused. -/
theorem stale_retry_refused :
    (validateReconcileRetryTransition (retryOf 1)).isOk = true ∧
    (retryOf 1).audit.previousEpoch = atRevisionTwo.epochOf .policy ∧
    (applyReconcileRetryTransition (retryOf 1) atRevisionTwo).isOk = false := by
  decide +kernel

end GuardWall.Store
