import GuardWall.Store.Desired
import Mathlib.Data.Prod.Lex

/-! What each transaction can do to the ledger and the Probe requirements. Later proofs use
these statements and never unfold the store. -/
namespace GuardWall.Store

open GuardWall.Core GuardWall.Foundation

namespace Version

def rank (v : Version) : Nat ×ₗ Nat ×ₗ Nat := toLex (v.key, toLex (v.epoch, v.attempts))

instance : Preorder Version := Preorder.lift rank

theorem le_iff {a b : Version} :
    a ≤ b ↔ a.key < b.key ∨
      a.key = b.key ∧ (a.epoch < b.epoch ∨ a.epoch = b.epoch ∧ a.attempts ≤ b.attempts) := by
  change rank a ≤ rank b ↔ _
  simp only [rank, Prod.Lex.toLex_le_toLex]

theorem compare_ne_lt {left right : Version} :
    compareReconcileVersion left right ≠ .lt ↔ right ≤ left := by
  rw [le_iff]
  unfold compareReconcileVersion
  constructor
  · intro admitted
    split_ifs at admitted <;> first | exact absurd rfl admitted | omega
  · intro order
    split_ifs <;> first | omega | decide

end Version

def GrowsAt (slot : ReconcileKey) (before after : Database) : Prop :=
  ∀ row, before.row? slot = some row →
    ∃ row', after.row? slot = some row' ∧ StateRow.stateVersion row ≤ StateRow.stateVersion row'

namespace GrowsAt

variable {slot : ReconcileKey}

theorem of_eq {before after : Database} (same : after.row? slot = before.row? slot) :
    GrowsAt slot before after := fun row found => ⟨row, by rw [same, found], le_refl _⟩

theorem refl (db : Database) : GrowsAt slot db db := of_eq rfl

theorem trans {a b c : Database} (first : GrowsAt slot a b) (second : GrowsAt slot b c) :
    GrowsAt slot a c := by
  intro row found
  obtain ⟨middle, foundMiddle, le⟩ := first row found
  obtain ⟨last, foundLast, le'⟩ := second middle foundMiddle
  exact ⟨last, foundLast, le_trans le le'⟩

end GrowsAt

def LedgerGrows (before after : Database) : Prop := ∀ slot, GrowsAt slot before after

/-- The row is at the revision and epoch of an attempt or past them. -/
def StateRow.reaches (row : StateRow) (ref : AttemptRef) : Prop :=
  ref.version < row.version ∨ ref.version = row.version ∧ ref.epoch ≤ row.epoch

def Database.reaches (db : Database) (ref : AttemptRef) : Prop :=
  ∃ row, db.row? ref.slot = some row ∧ StateRow.reaches row ref

variable {before after db db' : Database} {t : Transition}

theorem GrowsAt.reaches {ref : AttemptRef} (h : GrowsAt ref.slot before after)
    (reached : before.reaches ref) : after.reaches ref := by
  obtain ⟨row, found, reaches⟩ := reached
  obtain ⟨row', found', le⟩ := h row found
  refine ⟨row', found', ?_⟩
  rw [Version.le_iff] at le
  simp only [StateRow.stateVersion] at le
  unfold StateRow.reaches at reaches ⊢
  omega

structure SameLedger (before after : Database) : Prop where
  nodeID : after.nodeID = before.nodeID
  ledger : after.ledger = before.ledger
  probes : after.probes = before.probes

namespace SameLedger

theorem refl (db : Database) : SameLedger db db := ⟨rfl, rfl, rfl⟩

theorem trans {a b c : Database} (first : SameLedger a b) (second : SameLedger b c) :
    SameLedger a c :=
  ⟨second.nodeID.trans first.nodeID, second.ledger.trans first.ledger,
    second.probes.trans first.probes⟩

theorem row? {before after : Database} (same : SameLedger before after) (slot : ReconcileKey) :
    after.row? slot = before.row? slot := by
  unfold Database.row?
  rw [same.ledger]

end SameLedger

/-- One write of an observation. The generation it confirms for a target is the Desired one. -/
inductive Observes (db : Database) : Database → Prop
  | infrastructure (o : InfrastructureObserved) :
      Observes db { db with infrastructureObserved := some o }
  | policy (o : PolicyObserved) : Observes db { db with policyObserved := some o }
  | target {row : EnforcementRow} (o : TargetObserved)
      (found : db.enforcement.lookup o.canonicalTarget = some row)
      (fence : o.confirmedGeneration = 0 ∨ o.confirmedGeneration = row.intent.generation) :
      Observes db { db with
        enforcement := db.enforcement.insert o.canonicalTarget
          { row with observed := some (persistTarget o) } }

section Observed

open Relation (ReflTransGen)

variable {db db' : Database}

theorem upsertInfrastructureObserved_observes {o : InfrastructureObserved}
    (h : upsertInfrastructureObserved o db = .ok db') : ReflTransGen Observes db db' := by
  unfold upsertInfrastructureObserved at h
  split at h
  · cases h
    exact .single (.infrastructure _)
  · split at h
    · cases h
      exact .single (.infrastructure _)
    · simp only [bind_eq_ok] at h
      obtain ⟨_, _, _, _, h⟩ := h
      cases h
      exact .refl

theorem upsertPolicyObserved_observes {o : PolicyObserved}
    (h : upsertPolicyObserved o db = .ok db') : ReflTransGen Observes db db' := by
  unfold upsertPolicyObserved at h
  split at h
  · cases h
    exact .single (.policy _)
  · split at h
    · cases h
      exact .single (.policy _)
    · simp only [bind_eq_ok] at h
      obtain ⟨_, _, _, _, h⟩ := h
      cases h
      exact .refl

theorem updateTargetObserved_observes {o : TargetObserved}
    (h : updateTargetObserved o db = .ok db') : ReflTransGen Observes db db' := by
  unfold updateTargetObserved at h
  split at h
  · cases h
  rename_i row found
  simp only [bind_eq_ok, reject_eq_ok, Bool.and_eq_false_iff, bne_eq_false_iff_eq] at h
  obtain ⟨_, _, _, _, _, fence, h⟩ := h
  split at h
  · simp only [bind_eq_ok] at h
    obtain ⟨_, _, h⟩ := h
    split at h
    · cases h
      exact .refl
    · cases h
      exact .single (.target o found fence)
  · cases h
    exact .single (.target o found fence)

theorem writeTargets_observes {targets : List TargetObserved}
    (h : writeTargets targets db = .ok db') : ReflTransGen Observes db db' := by
  induction targets generalizing db with
  | nil =>
    cases h
    exact .refl
  | cons o rest ih =>
    simp only [writeTargets, bind_eq_ok, within_eq_ok] at h
    obtain ⟨middle, first, h⟩ := h
    exact (updateTargetObserved_observes first).trans (ih h)

theorem stepSome_observes {α : Type} {value : Option α}
    {step : α → Database → Except Fault Database}
    (each : ∀ a db db', step a db = .ok db' → ReflTransGen Observes db db')
    (h : stepSome value step db = .ok db') : ReflTransGen Observes db db' := by
  rw [stepSome_eq_ok] at h
  obtain ⟨a, _, taken⟩ | ⟨_, rfl⟩ := h
  · exact each a _ _ taken
  · exact .refl

theorem writeObservedFirewallUpdate_observes {u : ObservedUpdate}
    (h : writeObservedFirewallUpdate u db = .ok db') : ReflTransGen Observes db db' := by
  unfold writeObservedFirewallUpdate at h
  simp only [bind_eq_ok] at h
  obtain ⟨first, infrastructure, second, policy, h⟩ := h
  exact ((stepSome_observes (fun _ _ _ w => upsertInfrastructureObserved_observes (within_eq_ok.mp w))
    infrastructure).trans (stepSome_observes
      (fun _ _ _ w => upsertPolicyObserved_observes (within_eq_ok.mp w)) policy)).trans
    (writeTargets_observes h)

theorem applyObservedFirewallUpdate_observes {u : ObservedUpdate}
    (h : applyObservedFirewallUpdate u db = .ok db') : ReflTransGen Observes db db' := by
  unfold applyObservedFirewallUpdate at h
  simp only [within_eq_ok, bind_eq_ok] at h
  obtain ⟨_, _, _, _, h⟩ := h
  exact writeObservedFirewallUpdate_observes h

theorem SameLedger.of_observes (h : ReflTransGen Observes db db') : SameLedger db db' := by
  induction h with
  | refl => exact .refl _
  | tail _ step ih => cases step <;> exact ih.trans ⟨rfl, rfl, rfl⟩

theorem applyObservedFirewallUpdate_same {u : ObservedUpdate}
    (h : applyObservedFirewallUpdate u db = .ok db') : SameLedger db db' :=
  .of_observes (applyObservedFirewallUpdate_observes h)

end Observed

def probesKept (t : Transition) (probes : Table ProbeID Int) : Table ProbeID Int :=
  match t.deleteProbe with
  | some p => probes.erase (ProbeRequirement.probeID p)
  | none => probes

def probesWith (probe : Option ProbeRequirement) (probes : Table ProbeID Int) :
    Table ProbeID Int :=
  match probe with
  | some p => probes.insert (ProbeRequirement.probeID p) p.recordedAt.unixMicro
  | none => probes

def probesAfter (t : Transition) (probes : Table ProbeID Int) : Table ProbeID Int :=
  probesWith t.upsertProbe (probesKept t probes)

def ledgerAfter (state : Option PersistedState) (ledger : Table ReconcileKey StateRow) :
    Table ReconcileKey StateRow :=
  match state with
  | some s => ledger.insert s.ref.slot (encodeReconcileState s)
  | none => ledger

/-- What every write of a ledger row was checked for and does to the ledger. -/
structure Admitted (state : Option PersistedState) (before after : Database) : Prop where
  valid : ∀ s, state = some s → validatePersistedReconcileState s = .ok ()
  node : ∀ s, state = some s → before.nodeID = s.nodeID
  admitted : ∀ s, state = some s → rejectReconcileRegression s before = .ok ()
  nodeID : after.nodeID = before.nodeID
  ledger : after.ledger = ledgerAfter state before.ledger

structure Accepted (t : Transition) (before after : Database) : Prop
    extends Admitted t.state before after where
  validated : validateReconcileTransition t = .ok ()
  exact_ : ∀ p, t.deleteProbe = some p →
    (before.probes.lookup (ProbeRequirement.probeID p)).isSome
  unique : ∀ p, t.upsertProbe = some p → ∀ id us,
    (probesKept t before.probes).lookup id = some us → id.key = p.key →
      id = ProbeRequirement.probeID p
  observed : Relation.ReflTransGen Observes { before with
    ledger := ledgerAfter t.state before.ledger
    probes := probesAfter t before.probes } after

theorem Accepted.probes (h : Accepted t before after) : after.probes = probesAfter t before.probes :=
  (SameLedger.of_observes h.observed).probes

structure Retried (t : RetryTransition) (before after : Database) : Prop
    extends Admitted (some t.state) before after where
  validated : validateReconcileRetryTransition t = .ok ()
  previous : currentRetryEpoch t.state.nodeID t.state.ref.slot before =
    .ok t.audit.previousEpoch
  probes : after.probes = before.probes
  enforcement : after.enforcement = before.enforcement

private theorem deleted_effect (h : stepSome t.deleteProbe
      (fun p db => within "delete probe requirement" (deleteProbeRequirement p db)) db = .ok db') :
    (∀ p, t.deleteProbe = some p → (db.probes.lookup (ProbeRequirement.probeID p)).isSome) ∧
    db' = { db with probes := probesKept t db.probes } := by
  unfold probesKept
  rw [stepSome_eq_ok] at h
  obtain ⟨p, found, h⟩ | ⟨missing, rfl⟩ := h
  · simp only [within_eq_ok, deleteProbeRequirement, bind_eq_ok, reject_eq_ok] at h
    obtain ⟨_, present, h⟩ := h
    cases h
    refine ⟨?_, by rw [found]⟩
    intro q same
    rw [found] at same
    cases same
    simpa [Option.isSome_iff_ne_none] using present
  · refine ⟨?_, by rw [missing]⟩
    intro p found
    rw [missing] at found
    cases found

private theorem stated_effect {state : Option PersistedState}
    (h : stepSome state (fun s db => .ok (upsertReconcileState s db)) db = .ok db') :
    db' = { db with ledger := ledgerAfter state db.ledger } := by
  unfold ledgerAfter
  rw [stepSome_eq_ok] at h
  obtain ⟨s, found, h⟩ | ⟨missing, rfl⟩ := h
  · cases h
    rw [found]
    rfl
  · rw [missing]

private theorem required_effect {probe : Option ProbeRequirement} (h : stepSome probe
      (fun p db => within "upsert probe requirement" (upsertProbeRequirement p db)) db = .ok db') :
    (∀ p, probe = some p → ∀ id us, db.probes.lookup id = some us → id.key = p.key →
      id = ProbeRequirement.probeID p) ∧
    db' = { db with probes := probesWith probe db.probes } := by
  unfold probesWith
  rw [stepSome_eq_ok] at h
  obtain ⟨p, found, h⟩ | ⟨missing, rfl⟩ := h
  · simp only [within_eq_ok, upsertProbeRequirement, bind_eq_ok, reject_eq_ok,
      List.any_eq_false] at h
    obtain ⟨_, alone, h⟩ := h
    cases h
    refine ⟨?_, by rw [found]⟩
    intro q same id us held keys
    rw [found] at same
    cases same
    simpa [keys] using alone (id, us) (Table.mem_rows.mpr held)
  · refine ⟨?_, by rw [missing]⟩
    intro p found
    rw [missing] at found
    cases found

theorem writeTransition_effect (h : writeTransition t db = .ok db') :
    (∀ s, t.state = some s → rejectReconcileRegression s db = .ok ()) ∧
    (∀ p, t.deleteProbe = some p → (db.probes.lookup (ProbeRequirement.probeID p)).isSome) ∧
    (∀ p, t.upsertProbe = some p → ∀ id us, (probesKept t db.probes).lookup id = some us →
      id.key = p.key → id = ProbeRequirement.probeID p) ∧
    Relation.ReflTransGen Observes { db with
      ledger := ledgerAfter t.state db.ledger
      probes := probesAfter t db.probes } db' := by
  unfold writeTransition at h
  simp only [bind_eq_ok, checkSome_eq_ok] at h
  obtain ⟨_, admitted, _, deleted, _, stated, _, required, h⟩ := h
  obtain ⟨exact_, rfl⟩ := deleted_effect deleted
  obtain rfl := stated_effect stated
  obtain ⟨unique, rfl⟩ := required_effect required
  exact ⟨admitted, exact_, unique, stepSome_observes
    (fun _ _ _ w => writeObservedFirewallUpdate_observes (within_eq_ok.mp w)) h⟩

theorem validateReconcileTransition_state {s : PersistedState}
    (h : validateReconcileTransition t = .ok ()) (found : t.state = some s) :
    validatePersistedReconcileState s = .ok () := by
  unfold validateReconcileTransition at h
  simp only [found, bind_eq_ok] at h
  exact h.choose_spec.1

theorem applyReconcileTransition_accepted (h : applyReconcileTransition t db = .ok db') :
    Accepted t db db' := by
  unfold applyReconcileTransition Database.requireNodeIdentity at h
  simp only [within_eq_ok, bind_eq_ok, reject_eq_ok] at h
  obtain ⟨_, valid, _, node, h⟩ := h
  obtain ⟨admitted, exact_, unique, observed⟩ := writeTransition_effect h
  have same := SameLedger.of_observes observed
  refine ⟨⟨fun s found => validateReconcileTransition_state valid found, ?_, admitted, same.nodeID,
    same.ledger⟩, valid, exact_, unique, observed⟩
  intro s found
  simpa [Transition.nodeID?, found] using node

theorem applyReconcileRetryTransition_retried {t : RetryTransition}
    (h : applyReconcileRetryTransition t db = .ok db') : Retried t db db' := by
  unfold applyReconcileRetryTransition Database.requireNodeIdentity writeReconcileRetryAudit at h
  simp only [within_eq_ok, bind_eq_ok, reject_eq_ok] at h
  obtain ⟨_, valid, _, node, _, admitted, previous, read, _, same, _, _, h⟩ := h
  cases h
  have checked : validatePersistedReconcileState t.state = .ok () := by
    unfold validateReconcileRetryTransition at valid
    simp only [bind_eq_ok] at valid
    exact valid.choose_spec.1
  have epoch : t.audit.previousEpoch = previous := by simpa using same
  refine ⟨⟨?_, ?_, ?_, rfl, rfl⟩, valid, ?_, rfl, rfl⟩
  · rintro s ⟨⟩
    exact checked
  · rintro s ⟨⟩
    simpa using node
  · rintro s ⟨⟩
    exact admitted
  · rw [read, epoch]

/-- A row the regression check can read. A target row always is; an infrastructure or policy
row only if it decodes. -/
def Comparable (nodeID : String) (slot : ReconcileKey) (db : Database) : Prop :=
  ∀ row, db.row? slot = some row →
    currentVersion nodeID slot db = some (StateRow.stateVersion row)

instance (nodeID : String) (slot : ReconcileKey) (db : Database) :
    Decidable (Comparable nodeID slot db) :=
  decidable_of_iff ((db.row? slot).all fun row =>
      currentVersion nodeID slot db == some (StateRow.stateVersion row)) (by
    unfold Comparable
    cases db.row? slot <;> simp)

theorem comparable_target (nodeID : String) (target : Prefix) (db : Database) :
    Comparable nodeID (.target target) db := by
  intro row found
  simp only [currentVersion, found]

theorem comparable_of_decodes {nodeID : String} {slot : ReconcileKey}
    (decodes : ∀ row, db.row? slot = some row →
      ∃ s, decodeReconcileState nodeID slot row = .ok s) :
    Comparable nodeID slot db := by
  intro row found
  obtain ⟨s, ok⟩ := decodes row found
  cases slot <;> simp only [currentVersion, found, ok]

theorem version_le_of_admitted {s : PersistedState} {row : StateRow}
    (admitted : rejectReconcileRegression s db = .ok ())
    (comparable : Comparable s.nodeID s.ref.slot db) (found : db.row? s.ref.slot = some row) :
    StateRow.stateVersion row ≤ PersistedState.stateVersion s := by
  unfold rejectReconcileRegression at admitted
  rw [comparable row found] at admitted
  simp only [bind_eq_ok] at admitted
  obtain ⟨_, _, admitted⟩ := admitted
  split at admitted
  · cases admitted
  · rename_i order
    exact Version.compare_ne_lt.mp order

@[simp] theorem ref_encode (s : PersistedState) :
    StateRow.ref s.ref.slot (encodeReconcileState s) = s.ref := rfl

@[simp] theorem stateVersion_encode (s : PersistedState) :
    StateRow.stateVersion (encodeReconcileState s) = PersistedState.stateVersion s := rfl

namespace Admitted

variable {state : Option PersistedState} {before after : Database}

theorem row? (h : Admitted state before after) (slot : ReconcileKey) :
    after.row? slot =
      match state with
      | some s => if slot = s.ref.slot then some (encodeReconcileState s) else before.row? slot
      | none => before.row? slot := by
  unfold Database.row?
  rw [h.ledger]
  unfold ledgerAfter
  cases state with
  | none => rfl
  | some s =>
    simp only
    split
    · rename_i same
      rw [same, AList.lookup_insert]
    · rename_i other
      rw [AList.lookup_insert_ne other]

theorem row?_none (h : Admitted none before after) (slot : ReconcileKey) :
    after.row? slot = before.row? slot := h.row? slot

theorem row?_self {s : PersistedState} (h : Admitted (some s) before after) :
    after.row? s.ref.slot = some (encodeReconcileState s) := by
  rw [h.row?]
  exact if_pos rfl

theorem row?_other {s : PersistedState} (h : Admitted (some s) before after) {slot : ReconcileKey}
    (other : slot ≠ s.ref.slot) : after.row? slot = before.row? slot := by
  rw [h.row?]
  exact if_neg other

theorem growsAt (h : Admitted state before after) {slot : ReconcileKey}
    (comparable : ∀ s, state = some s → s.ref.slot = slot → Comparable s.nodeID s.ref.slot before) :
    GrowsAt slot before after := by
  intro row found
  rw [h.row?]
  cases state with
  | none => exact ⟨row, found, le_refl _⟩
  | some s =>
    simp only
    split
    · rename_i same
      subst same
      refine ⟨_, rfl, ?_⟩
      rw [stateVersion_encode]
      exact version_le_of_admitted (h.admitted s rfl) (comparable s rfl rfl) found
    · exact ⟨row, found, le_refl _⟩

end Admitted

theorem Retried.comparable {t : RetryTransition} (h : Retried t before after) :
    Comparable t.state.nodeID t.state.ref.slot before := by
  intro row found
  have read := h.previous
  unfold currentRetryEpoch at read
  unfold currentVersion
  rw [found] at read ⊢
  cases slot : t.state.ref.slot with
  | target target => rfl
  | infrastructure | policy =>
    rw [slot] at read
    simp only [bind_eq_ok, within_eq_ok] at read
    obtain ⟨s, decoded, _⟩ := read
    simp only [decoded]

theorem Accepted.upsert (h : Accepted t before after) {p : ProbeRequirement}
    (added : t.upsertProbe = some p) :
    ∃ s, t.state = some s ∧ s.ref = p.ref ∧ s.retry.attemptCount = p.attempt ∧
      probeCompatible s.retry.status = true := by
  have valid := h.validated
  unfold validateReconcileTransition at valid
  cases state : t.state with
  | none =>
    rw [state] at valid
    simp only [added] at valid
    cases valid
  | some s =>
    rw [state] at valid
    simp only [bind_eq_ok, checkSome_eq_ok] at valid
    obtain ⟨_, _, _, _, _, matching, _⟩ := valid
    have checked := matching p added
    unfold validateUpsertProbe sameReconcileKey at checked
    simp only [bind_eq_ok, reject_eq_ok, Bool.or_eq_false_iff, Bool.not_eq_false',
      Bool.and_eq_true, beq_iff_eq, bne_eq_false_iff_eq] at checked
    obtain ⟨_, _, _, ⟨⟨⟨_, keys⟩, epoch⟩, count⟩, compatible⟩ := checked
    refine ⟨s, rfl, ?_, count, by simpa using compatible⟩
    unfold ProbeRequirement.ref PhysicalKey.ref
    rw [← keys, ← epoch, AttemptRef.slot_physicalKey, AttemptRef.version_physicalKey]

theorem Accepted.probe (h : Accepted t before after) {id : ProbeID} {us : Int}
    (found : after.probes.lookup id = some us) :
    (∃ p, t.upsertProbe = some p ∧ id = ProbeRequirement.probeID p) ∨
      before.probes.lookup id = some us ∧
        ∀ p, t.deleteProbe = some p → id ≠ ProbeRequirement.probeID p := by
  rw [h.probes, probesAfter] at found
  have kept : (probesKept t before.probes).lookup id = some us →
      before.probes.lookup id = some us ∧
        ∀ p, t.deleteProbe = some p → id ≠ ProbeRequirement.probeID p := by
    unfold probesKept
    cases deleted : t.deleteProbe with
    | none => exact fun held => ⟨held, nofun⟩
    | some q =>
      intro held
      by_cases same : id = ProbeRequirement.probeID q
      · rw [same, AList.lookup_erase] at held
        cases held
      · rw [AList.lookup_erase_ne same] at held
        refine ⟨held, ?_⟩
        rintro p ⟨⟩
        exact same
  unfold probesWith at found
  cases added : t.upsertProbe with
  | none =>
    rw [added] at found
    exact .inr (kept found)
  | some p =>
    rw [added] at found
    by_cases same : id = ProbeRequirement.probeID p
    · exact .inl ⟨p, rfl, same⟩
    · rw [AList.lookup_insert_ne same] at found
      exact .inr (kept found)

/-- A row as the Decision and Policy transactions write it over `old`: nothing attempted, a
newer revision or generation, and for a target the retry epoch it had. -/
structure FreshRow (slot : ReconcileKey) (old : Option StateRow) (new : StateRow) : Prop where
  fresh : ∃ at_ : Instant, at_.unset = false ∧ new = pendingRow new.version new.epoch at_
  positive : 0 < new.version
  bounded : new.version ≤ maxInt64
  newer : ∀ row, old = some row → row.version < new.version
  kept : ∀ target, slot = .target target → new.epoch = (old.map StateRow.epoch).getD 0
  restarted : slot = .policy → new.epoch = 0
  domain : slot ≠ .infrastructure
  named : ∀ target, slot = .target target →
    target.canonical = true ∧ 3 ≤ target.toText.length ∧ target.toText.length ≤ 64

namespace FreshRow

variable {slot : ReconcileKey} {old : Option StateRow} {new : StateRow}

theorem attemptCount (h : FreshRow slot old new) : new.attemptCount = 0 := by
  obtain ⟨at_, _, eq⟩ := h.fresh
  rw [eq]
  rfl

theorem status (h : FreshRow slot old new) : new.status = .pending := by
  obtain ⟨at_, _, eq⟩ := h.fresh
  rw [eq]
  rfl

theorem le (h : FreshRow slot old new) {row : StateRow} (found : old = some row) :
    StateRow.stateVersion row ≤ StateRow.stateVersion new :=
  Version.le_iff.mpr (.inl (h.newer row found))

theorem trans {middle : StateRow} (first : FreshRow slot old middle)
    (second : FreshRow slot (some middle) new) : FreshRow slot old new := by
  refine ⟨second.fresh, second.positive, second.bounded, ?_, ?_, second.restarted, second.domain,
    second.named⟩
  · intro row found
    exact lt_trans (first.newer row found) (second.newer middle rfl)
  · intro target same
    rw [second.kept target same, ← first.kept target same]
    rfl

end FreshRow

/-- What other parties can do to the reconciler's tables: write fresh rows. -/
structure Resets (before after : Database) : Prop where
  nodeID : after.nodeID = before.nodeID
  probes : after.probes = before.probes
  rows : ∀ slot, after.row? slot = before.row? slot ∨
    ∃ row, after.row? slot = some row ∧ FreshRow slot (before.row? slot) row

namespace Resets

variable {before after : Database}

theorem of_same (same : SameLedger before after) :
    Resets before after :=
  ⟨same.nodeID, same.probes, fun slot => .inl (same.row? slot)⟩

theorem refl (db : Database) : Resets db db := of_same (SameLedger.refl db)

theorem trans {a b c : Database} (first : Resets a b) (second : Resets b c) : Resets a c := by
  refine ⟨second.nodeID.trans first.nodeID, second.probes.trans first.probes, ?_⟩
  intro slot
  obtain same | ⟨row, found, fresh⟩ := second.rows slot
  · rw [same]
    exact first.rows slot
  · right
    refine ⟨row, found, ?_⟩
    obtain same | ⟨middle, foundMiddle, freshMiddle⟩ := first.rows slot
    · rwa [same] at fresh
    · rw [foundMiddle] at fresh
      exact freshMiddle.trans fresh

theorem grows (h : Resets before after) : LedgerGrows before after := by
  intro slot row found
  obtain same | ⟨new, foundNew, fresh⟩ := h.rows slot
  · exact GrowsAt.of_eq same row found
  · exact ⟨new, foundNew, fresh.le found⟩

theorem row?_of_attempted (h : Resets before after) {slot : ReconcileKey} {row : StateRow}
    (found : after.row? slot = some row) (attempted : 0 < row.attemptCount) :
    before.row? slot = some row := by
  obtain same | ⟨new, foundNew, fresh⟩ := h.rows slot
  · rw [← same, found]
  · rw [found] at foundNew
    cases foundNew
    rw [fresh.attemptCount] at attempted
    exact absurd attempted (lt_irrefl 0)

end Resets

section Desired

variable {db db' : Database}

variable {i : Intent} {at_ : Instant} {changed : List Intent}

theorem putTargetEnforcementIntent_cases (h : putTargetEnforcementIntent i db = .ok db') :
    i.validate = .ok () ∧ enforcementConstraints i = .ok () ∧ i.nodeID = db.nodeID ∧
      ((∃ row, db.enforcement.lookup i.canonicalTarget = some row ∧
          i.generation ≤ row.intent.generation ∧ db' = db) ∨
        db' = { db with
          enforcement := db.enforcement.insert i.canonicalTarget ⟨persistIntent i,
            (db.enforcement.lookup i.canonicalTarget).bind EnforcementRow.observed⟩ }) := by
  simp only [putTargetEnforcementIntent, bind_eq_ok, within_eq_ok, reject_eq_ok,
    bne_eq_false_iff_eq] at h
  obtain ⟨_, valid, _, _, _, constraints, _, node, h⟩ := h
  refine ⟨valid, constraints, node, ?_⟩
  split at h
  · rename_i missing
    cases h
    rw [missing]
    exact .inr rfl
  · rename_i row found
    split at h
    · cases h
      rw [found]
      exact .inr rfl
    · rename_i old
      simp only [bind_eq_ok] at h
      obtain ⟨_, _, h⟩ := h
      cases h
      exact .inl ⟨row, found, not_lt.mp old, rfl⟩

theorem putTargetEnforcementIntent_same (h : putTargetEnforcementIntent i db = .ok db') :
    SameLedger db db' := by
  obtain ⟨_, _, _, ⟨_, _, _, rfl⟩ | rfl⟩ := putTargetEnforcementIntent_cases h
  · exact .refl _
  · exact ⟨rfl, rfl, rfl⟩

private theorem named_of_put (h : putTargetEnforcementIntent i db = .ok db') :
    i.canonicalTarget.canonical = true ∧ 3 ≤ i.canonicalTarget.toText.length ∧
      i.canonicalTarget.toText.length ≤ 64 := by
  obtain ⟨valid, constraints, _⟩ := putTargetEnforcementIntent_cases h
  unfold Intent.validate at valid
  unfold enforcementConstraints at constraints
  simp only [bind_eq_ok, reject_eq_ok, Bool.or_eq_false_iff, decide_eq_false_iff_not] at valid constraints
  obtain ⟨_, _, _, canonical, _⟩ := valid
  obtain ⟨_, ⟨low, high⟩, _⟩ := constraints
  exact ⟨by simpa using canonical, by omega, by omega⟩

private theorem resets_insert {slot : ReconcileKey} {row : StateRow}
    (fresh : FreshRow slot (db.row? slot) row) :
    Resets db { db with ledger := db.ledger.insert slot row } := by
  refine ⟨rfl, rfl, ?_⟩
  intro other
  by_cases same : other = slot
  · subst same
    exact .inr ⟨row, AList.lookup_insert _, fresh⟩
  · exact .inl (AList.lookup_insert_ne same)

variable {nodeID : String} {target : Prefix} {generation : Nat}

theorem resetTargetReconcileState_inserts
    (h : resetTargetReconcileState nodeID target generation at_ db = .ok db') :
    (generation ≠ 0 ∧ generation ≤ maxInt64) ∧ at_.unset = false ∧
    (∀ row, db.row? (.target target) = some row → row.version < generation) ∧
    db' = { db with
      ledger := db.ledger.insert (.target target) (pendingRow generation
        (((db.row? (.target target)).map StateRow.epoch).getD 0) at_) } := by
  unfold resetTargetReconcileState at h
  simp only [bind_eq_ok, reject_eq_ok, Bool.or_eq_false_iff, beq_eq_false_iff_ne,
    decide_eq_false_iff_not, not_lt] at h
  obtain ⟨_, bounds, _, time, _, _, _, _, h⟩ := h
  refine ⟨bounds, time, ?_⟩
  split at h
  · rename_i missing
    cases h
    rw [missing]
    exact ⟨by simp, rfl⟩
  · rename_i row found
    simp only [bind_eq_ok, reject_eq_ok, decide_eq_false_iff_not, not_le] at h
    obtain ⟨_, newer, h⟩ := h
    cases h
    rw [found]
    refine ⟨?_, rfl⟩
    rintro other ⟨⟩
    exact newer

theorem resetTargetReconcileState_resets
    (named : target.canonical = true ∧ 3 ≤ target.toText.length ∧ target.toText.length ≤ 64)
    (h : resetTargetReconcileState nodeID target generation at_ db = .ok db') :
    Resets db db' := by
  obtain ⟨⟨nonzero, bound⟩, time, newer, rfl⟩ := resetTargetReconcileState_inserts h
  refine resets_insert ⟨⟨at_, time, rfl⟩, Nat.pos_of_ne_zero nonzero, bound, newer,
    fun _ _ => rfl, ?_, ?_, ?_⟩
  · intro other
    cases other
  · intro other
    cases other
  · rintro other ⟨⟩
    exact named

theorem resetPolicyReconcileState_resets {revision : Nat}
    (h : resetPolicyReconcileState revision at_ db = .ok db') : Resets db db' := by
  unfold resetPolicyReconcileState at h
  simp only [bind_eq_ok, reject_eq_ok, checkSome_eq_ok, Bool.or_eq_false_iff, beq_eq_false_iff_ne,
    decide_eq_false_iff_not, not_lt, not_le] at h
  obtain ⟨_, ⟨nonzero, bound⟩, _, time, _, newer, h⟩ := h
  cases h
  refine resets_insert ⟨⟨at_, time, rfl⟩, Nat.pos_of_ne_zero nonzero, bound, newer, ?_,
    fun _ => rfl, ?_, ?_⟩
  · intro target other
    cases other
  · intro other
    cases other
  · intro target other
    cases other

theorem materializeTargets_resets (h : materializeTargets at_ changed db = .ok db') :
    Resets db db' := by
  induction changed generalizing db with
  | nil =>
    cases h
    exact Resets.refl _
  | cons i rest ih =>
    simp only [materializeTargets, bind_eq_ok] at h
    obtain ⟨put, hPut, reset, hReset, h⟩ := h
    have first := Resets.of_same (putTargetEnforcementIntent_same hPut)
    have second := resetTargetReconcileState_resets (named_of_put hPut) hReset
    exact (first.trans second).trans (ih h)

theorem finalizeTargets_resets (h : finalizeTargets changed at_ db = .ok db') : Resets db db' := by
  unfold finalizeTargets at h
  simp only [bind_eq_ok] at h
  obtain ⟨middle, written, h⟩ := h
  refine (materializeTargets_resets written).trans (Resets.of_same ?_)
  split at h
  · cases h
    exact SameLedger.refl _
  · unfold advanceSnapshotRevision at h
    simp only [bind_eq_ok] at h
    obtain ⟨_, _, h⟩ := h
    cases h
    exact ⟨rfl, rfl, rfl⟩

theorem replacePolicy_resets {hash : Hash String} {expected : Nat} {policy : PolicyIntent}
    (h : replacePolicy hash expected policy changed at_ db = .ok db') : Resets db db' := by
  unfold replacePolicy replaceManagedPolicy at h
  simp only [bind_eq_ok] at h
  obtain ⟨⟨revision, first⟩, ⟨_, _, _, _, _, _, _, _, _, _, replaced⟩, second, written, h⟩ := h
  cases replaced
  have rows := (materializeTargets_resets written).trans (resetPolicyReconcileState_resets h)
  refine Resets.trans ?_ rows
  exact Resets.of_same ⟨rfl, rfl, rfl⟩

end Desired

end GuardWall.Store
