import GuardWall.Store.Desired

/-! Which sentinels the errors of the store's statements carry: the regression check is the only
source of one. -/
namespace GuardWall.Store

open GuardWall.Core GuardWall.Foundation

def Avoids {α : Type} (k : Sentinel) (result : Except Fault α) : Prop :=
  ∀ fault, result = .error fault → fault.is k = false

section Rules

variable {α β : Type} {k : Sentinel}

@[simp] theorem avoids_ok (a : α) : Avoids k (.ok a) := by
  intro fault h
  cases h

@[simp] theorem avoids_pure (a : α) : Avoids k (pure a : Except Fault α) := avoids_ok a

@[simp] theorem avoids_error (fault : Fault) :
    Avoids k (.error fault : Except Fault α) ↔ fault.is k = false := by
  simp [Avoids]

@[simp] theorem avoids_reject (condition : Bool) (message : String) :
    Avoids k (reject condition message) := by
  unfold reject
  split <;> simp [Fault.is]

@[simp] theorem avoids_within (context : String) (result : Except Fault α) :
    Avoids k (within context result) ↔ Avoids k result := by
  cases result <;> simp [Fault.is]

@[simp] theorem avoids_bind (m : Except Fault α) (f : α → Except Fault β) :
    Avoids k (m >>= f) ↔ Avoids k m ∧ ∀ a, m = .ok a → Avoids k (f a) := by
  cases m <;> simp [bind, Except.bind]

@[simp] theorem avoids_ite (condition : Prop) [Decidable condition] (left right : Except Fault α) :
    Avoids k (if condition then left else right) ↔
      (condition → Avoids k left) ∧ (¬ condition → Avoids k right) := by
  split <;> simp [*]

@[simp] theorem avoids_checkSome (value : Option α) (check : α → Except Fault Unit) :
    Avoids k (checkSome value check) ↔ ∀ a, value = some a → Avoids k (check a) := by
  cases value <;> simp [checkSome]

@[simp] theorem avoids_stepSome (value : Option α) (step : α → β → Except Fault β) (b : β) :
    Avoids k (stepSome value step b) ↔ ∀ a, value = some a → Avoids k (step a b) := by
  cases value <;> simp [stepSome]

@[simp] theorem avoids_map (f : α → β) (m : Except Fault α) : Avoids k (f <$> m) ↔ Avoids k m := by
  cases m <;> simp [Functor.map, Except.map]

@[simp] theorem avoids_forM {xs : List α} {f : α → Except Fault PUnit}
    (each : ∀ a, Avoids k (f a)) : Avoids k (forM xs f) := by
  induction xs with
  | nil => exact avoids_ok _
  | cons a rest ih =>
    rw [List.forM_cons, avoids_bind]
    exact ⟨each a, fun _ _ => ih⟩

end Rules

variable {k : Sentinel}

@[simp] theorem avoids_sqliteUint64 (name : String) (value : Nat) :
    Avoids k (sqliteUint64 name value) := avoids_reject _ _

@[simp] theorem avoids_validateReconcileKey (key : PhysicalKey) :
    Avoids k (validateReconcileKey key) := by
  unfold validateReconcileKey
  split <;> simp

@[simp] theorem avoids_validateRetryState (s : RetryState) : Avoids k (validateRetryState s) := by
  unfold validateRetryState validateAttemptTimes validateNextAttempt
  simp

@[simp] theorem avoids_validatePersistedReconcileState (s : PersistedState) :
    Avoids k (validatePersistedReconcileState s) := by
  unfold validatePersistedReconcileState
  simp

@[simp] theorem avoids_validateProbeRequirement (p : ProbeRequirement) :
    Avoids k (validateProbeRequirement p) := by
  unfold validateProbeRequirement
  simp

@[simp] theorem avoids_validateInfrastructure (o : InfrastructureObserved) :
    Avoids k o.validate := by
  unfold InfrastructureObserved.validate validateObservedTime
  cases o.presence <;> simp

@[simp] theorem avoids_validatePolicy (o : PolicyObserved) : Avoids k o.validate := by
  unfold PolicyObserved.validate validateObservedTime
  cases o.presence <;> simp

@[simp] theorem avoids_validateTarget (o : TargetObserved) : Avoids k o.validate := by
  unfold TargetObserved.validate TargetObserved.validatePresent validateObservedTime
  cases o.banMembership <;> cases o.evidence <;> simp

@[simp] theorem avoids_validateUpdate (u : ObservedUpdate) : Avoids k u.validate := by
  unfold ObservedUpdate.validate
  simp

@[simp] theorem avoids_validateObservedFirewallUpdate (u : ObservedUpdate) :
    Avoids k (validateObservedFirewallUpdate u) := by
  unfold validateObservedFirewallUpdate
  simp

@[simp] theorem avoids_upsertInfrastructureObserved (o : InfrastructureObserved) (db : Database) :
    Avoids k (upsertInfrastructureObserved o db) := by
  unfold upsertInfrastructureObserved rejectObservedTimeConflict
  split <;> simp

@[simp] theorem avoids_upsertPolicyObserved (o : PolicyObserved) (db : Database) :
    Avoids k (upsertPolicyObserved o db) := by
  unfold upsertPolicyObserved rejectObservedTimeConflict
  split <;> simp

@[simp] theorem avoids_updateTargetObserved (o : TargetObserved) (db : Database) :
    Avoids k (updateTargetObserved o db) := by
  unfold updateTargetObserved rejectObservedTimeConflict
  split
  · simp [Fault.is]
  · rename_i row _
    cases row.observed <;> simp

@[simp] theorem avoids_writeTargets (targets : List TargetObserved) (db : Database) :
    Avoids k (writeTargets targets db) := by
  induction targets generalizing db with
  | nil => exact avoids_ok _
  | cons o rest ih => simp [writeTargets, ih]

@[simp] theorem avoids_writeObservedFirewallUpdate (u : ObservedUpdate) (db : Database) :
    Avoids k (writeObservedFirewallUpdate u db) := by
  unfold writeObservedFirewallUpdate
  simp

@[simp] theorem avoids_validateReconcileTransition (t : Transition) :
    Avoids k (validateReconcileTransition t) := by
  unfold validateReconcileTransition validateUpsertProbe validateDeleteProbe
  cases t.state <;> cases t.upsertProbe <;> cases t.deleteProbe <;> simp [Fault.is]

theorem avoids_rejectReconcileRegression (other : k ≠ .stateRegression) (s : PersistedState)
    (db : Database) : Avoids k (rejectReconcileRegression s db) := by
  unfold rejectReconcileRegression
  simp only [avoids_bind, avoids_reject, true_and]
  intro _ _
  split
  · simp
  · simp only [avoids_ite, avoids_ok, avoids_error, Fault.is, implies_true, and_true]
    intro _
    simpa using other.symm

theorem avoids_of_rejectReconcileRegression {t : Transition} {db : Database}
    (checked : ∀ s, t.state = some s → Avoids k (rejectReconcileRegression s db)) :
    Avoids k (applyReconcileTransition t db) := by
  unfold applyReconcileTransition writeTransition Database.requireNodeIdentity
    deleteProbeRequirement upsertProbeRequirement
  simpa using fun _ _ _ => checked

theorem avoids_applyReconcileTransition (other : k ≠ .stateRegression) (t : Transition)
    (db : Database) : Avoids k (applyReconcileTransition t db) :=
  avoids_of_rejectReconcileRegression fun s _ => avoids_rejectReconcileRegression other s db

@[simp] theorem avoids_currentRetryEpoch (nodeID : String) (slot : ReconcileKey) (db : Database) :
    Avoids k (currentRetryEpoch nodeID slot db) := by
  unfold currentRetryEpoch decodeReconcileState
  split
  · simp
  · split <;> simp

theorem avoids_retry_of_rejectReconcileRegression {t : RetryTransition} {db : Database}
    (checked : Avoids k (rejectReconcileRegression t.state db)) :
    Avoids k (applyReconcileRetryTransition t db) := by
  unfold applyReconcileRetryTransition validateReconcileRetryTransition
    Database.requireNodeIdentity writeReconcileRetryAudit
  simp [checked]

theorem avoids_applyReconcileRetryTransition (other : k ≠ .stateRegression) (t : RetryTransition)
    (db : Database) : Avoids k (applyReconcileRetryTransition t db) :=
  avoids_retry_of_rejectReconcileRegression (avoids_rejectReconcileRegression other t.state db)

end GuardWall.Store
