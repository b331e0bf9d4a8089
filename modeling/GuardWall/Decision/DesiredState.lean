import GuardWall.Decision.Projection
import GuardWall.Store.Effects
import Mathlib.Data.List.Dedup

/-! The transactions that change Desired state: Decision transactions with their finalizer and
replacements of the managed policy. What each of them does to the Desired columns is one of two
things: nothing, or an advance that the snapshot revision shows. -/
namespace GuardWall.Decision

open GuardWall.Core GuardWall.Foundation GuardWall.Store

structure Book where
  db : Database
  projections : Table Prefix Projection := ∅

/-- `TargetPolicyResolver`: Firewall-significant inputs from the policy of the same transaction. -/
abbrev Resolver : Type := Option (Nat × PolicyIntent) → Projection → Except Fault TargetPolicy

/-- The CHECK constraints of `desired_ban_projections` that the types leave open. -/
def projectionConstraints (p : Projection) (updatedAt : Instant) : Except Fault Unit :=
  reject (p.canonicalTarget.toText.length < 3 || 64 < p.canonicalTarget.toText.length ||
      updatedAt.unset)
    "CHECK constraint failed: desired_ban_projections"

def Book.putProjection (b : Book) (p : Projection) (updatedAt : Instant) : Except Fault Book := do
  within "put projection: validate" p.validate
  reject updatedAt.isZero "put projection: updated time is required"
  within "put projection" (projectionConstraints p updatedAt)
  reject (p.nodeID != b.db.nodeID) "put projection: FOREIGN KEY constraint failed"
  match b.projections.lookup p.canonicalTarget with
  | none => return { b with projections := b.projections.insert p.canonicalTarget p.persisted }
  | some existing =>
      if existing = p.persisted then return b
      else do
        reject (p.revision ≤ existing.revision) "put projection: stale or conflicting revision"
        return { b with projections := b.projections.insert p.canonicalTarget p.persisted }

/-- `UnitOfWork.TargetEnforcementGenerationFloor` -/
def generationFloor (db : Database) (target : Prefix) : Option Nat :=
  let reconcile := ((db.row? (.target target)).map StateRow.version).toList
  let probes := db.probes.rows.filterMap fun row =>
    if row.1.key.domain = .target ∧ row.1.key.target = target then some row.1.key.targetGeneration
    else none
  (reconcile ++ probes).max?

section Transactions

variable (resolver : Resolver)

def firstGeneration (b : Book) (i : Intent) (found : Bool) : Except Fault Intent :=
  if found then .ok i
  else
    match generationFloor b.db i.canonicalTarget with
    | none => .ok i
    | some floor => do
        reject (maxInt64 ≤ floor) "target generation is exhausted"
        return { i with generation := floor + 1 }

def materializeTarget (updatedAt : Instant) (target : Prefix) (b : Book) :
    Except Fault (Bool × Book) := do
  match b.projections.lookup target with
  | none => .error (.text "affected projection was not materialized")
  | some projection => do
      let previous := (b.db.enforcement.lookup target).map EnforcementRow.intent
      let policy ← within "resolve target policy" (resolver b.db.policy projection)
      let (intent, changed) ← within "resolve target intent"
        (resolveTarget projection policy previous)
      if !changed then return (false, b)
      else do
        let intent ← firstGeneration b intent previous.isSome
        reject (maxInt64 < intent.generation) "target generation is exhausted"
        let db ← putTargetEnforcementIntent intent b.db
        let db ← resetTargetReconcileState projection.nodeID target intent.generation updatedAt db
        return (true, { b with db := db })

def materializeEach (updatedAt : Instant) : List Prefix → Book → Except Fault (Bool × Book)
  | [], b => .ok (false, b)
  | target :: rest, b => do
      let (first, b) ← materializeTarget resolver updatedAt target b
      let (later, b) ← materializeEach updatedAt rest b
      return (first || later, b)

/-- `DesiredStateFinalizer.MaterializeTargets`: every affected target once, in the order of their
texts. -/
def materialize (affected : List Projection) (updatedAt : Instant) (b : Book) :
    Except Fault (Bool × Book) := do
  reject updatedAt.isZero "desired state update time is required"
  affected.forM fun p => within "validate affected projection" p.validate
  let targets := (affected.map Projection.canonicalTarget).dedup.mergeSort
    fun s t => decide (s.toText ≤ t.toText)
  materializeEach resolver updatedAt targets b

/-- `DesiredStateFinalizer.FinalizeTargets` -/
def finalize (affected : List Projection) (updatedAt : Instant) (b : Book) : Except Fault Book := do
  let (changed, b) ← materialize resolver affected updatedAt b
  if !changed then return b
  else do
    let db ← advanceSnapshotRevision b.db
    return { b with db := db }

/-- `PolicyService.replace`. The audit row is not among the modelled tables. -/
def replace (hash : Hash String) (expectedRevision : Nat) (policy : PolicyIntent)
    (updatedAt : Instant) (b : Book) : Except Fault Book := do
  within "validate policy write" (policy.validateComplete hash)
  reject updatedAt.unset "policy write update time is required"
  if b.db.policy = some (expectedRevision, policy) then return b
  else do
    let (revision, db) ← replaceManagedPolicy hash expectedRevision policy updatedAt b.db
    let (_, b) ← materialize resolver ((b.projections.rows).map Prod.snd) updatedAt { b with db := db }
    let db ← resetPolicyReconcileState revision updatedAt b.db
    return { b with db := db }

/-- A transaction with an automatic, manual or expired Decision writes the projections it rebuilt
and finalizes the affected ones; the reconciler writes its ledger in transactions of its own. -/
inductive Transaction where
  | decision (rebuilt affected : List Projection) (updatedAt : Instant)
  | replacePolicy (expectedRevision : Nat) (policy : PolicyIntent) (updatedAt : Instant)
  | reconcile (ledger : Table ReconcileKey StateRow) (probes : Table ProbeID Int)

def Transaction.attempt (hash : Hash String) (b : Book) : Transaction → Except Fault Book
  | decision rebuilt affected updatedAt => do
      let b ← rebuilt.foldlM (fun b p => b.putProjection p updatedAt) b
      finalize resolver affected updatedAt b
  | replacePolicy expectedRevision policy updatedAt =>
      replace resolver hash expectedRevision policy updatedAt b
  | reconcile ledger probes => .ok { b with db := { b.db with ledger := ledger, probes := probes } }

/-- A transaction that fails is rolled back. -/
def Transaction.commit (hash : Hash String) (b : Book) (t : Transaction) : Book :=
  match t.attempt resolver hash b with
  | .ok b => b
  | .error _ => b

def commitAll (hash : Hash String) (b : Book) (ts : List Transaction) : Book :=
  ts.foldl (fun b t => t.commit resolver hash b) b

end Transactions

def intent? (db : Database) (target : Prefix) : Option Intent :=
  (db.enforcement.lookup target).map EnforcementRow.intent

structure Keyed (b : Book) : Prop where
  intents : ∀ t i, intent? b.db t = some i → i.canonicalTarget = t
  projections : ∀ t p, b.projections.lookup t = some p → p.canonicalTarget = t

structure SameDesired (a b : Database) : Prop where
  intents : ∀ t, intent? b t = intent? a t
  policy : b.policy = a.policy

/-- No intent and no policy is gone or changed without a greater generation or revision. -/
structure Later (a b : Database) : Prop where
  intents : ∀ t i, intent? a t = some i →
    ∃ j, intent? b t = some j ∧ (j = i ∨ i.generation < j.generation)
  policy : ∀ r p, a.policy = some (r, p) →
    ∃ r' p', b.policy = some (r', p') ∧ (r' = r ∧ p' = p ∨ r < r')

def Moved (a b : Database) : Prop :=
  (∃ t j, intent? a t = none ∧ intent? b t = some j) ∨
  (∃ t i j, intent? a t = some i ∧ intent? b t = some j ∧ i.generation < j.generation) ∨
  (∃ r' p', b.policy = some (r', p') ∧ ∀ r p, a.policy = some (r, p) → r < r')

/-- `b` comes after `a` in a history of transactions: the snapshot revision shows whether anything
has moved. -/
structure Follows (a b : Database) : Prop where
  later : Later a b
  snapshot : a.snapshotRevision ≤ b.snapshotRevision
  same : a.snapshotRevision = b.snapshotRevision → SameDesired a b
  moved : a.snapshotRevision < b.snapshotRevision → Moved a b

section Order

variable {a b c : Database}

theorem SameDesired.refl (a : Database) : SameDesired a a := ⟨fun _ => rfl, rfl⟩

theorem SameDesired.trans (h : SameDesired a b) (h' : SameDesired b c) : SameDesired a c :=
  ⟨fun t => (h'.intents t).trans (h.intents t), h'.policy.trans h.policy⟩

theorem SameDesired.later (h : SameDesired a b) : Later a b where
  intents t i found := ⟨i, (h.intents t).trans found, .inl rfl⟩
  policy r p found := ⟨r, p, h.policy.trans found, .inl ⟨rfl, rfl⟩⟩

theorem Later.trans (h : Later a b) (h' : Later b c) : Later a c where
  intents t i found := by
    obtain ⟨j, found, first⟩ := h.intents t i found
    obtain ⟨k, found, second⟩ := h'.intents t j found
    refine ⟨k, found, ?_⟩
    obtain rfl | first := first
    · exact second
    · obtain rfl | second := second
      · exact .inr first
      · exact .inr (first.trans second)
  policy r p found := by
    obtain ⟨r', p', found, first⟩ := h.policy r p found
    obtain ⟨r'', p'', found, second⟩ := h'.policy r' p' found
    refine ⟨r'', p'', found, ?_⟩
    obtain ⟨rfl, rfl⟩ | first := first
    · exact second
    · obtain ⟨rfl, rfl⟩ | second := second
      · exact .inr first
      · exact .inr (first.trans second)

theorem Later.generation_le (h : Later a b) {t : Prefix} {i j : Intent}
    (before : intent? a t = some i) (after : intent? b t = some j) :
    i.generation ≤ j.generation := by
  obtain ⟨j', after', change⟩ := h.intents t i before
  rw [after] at after'
  cases after'
  obtain rfl | newer := change
  · exact le_rfl
  · exact newer.le

theorem Moved.later (h : Moved a b) (h' : Later b c) : Moved a c := by
  obtain ⟨t, j, absent, found⟩ | ⟨t, i, j, before, found, newer⟩ | ⟨r, p, found, newer⟩ := h
  · obtain ⟨k, found, _⟩ := h'.intents t j found
    exact .inl ⟨t, k, absent, found⟩
  · obtain ⟨k, kept, _⟩ := h'.intents t j found
    exact .inr (.inl ⟨t, i, k, before, kept, newer.trans_le (h'.generation_le found kept)⟩)
  · obtain ⟨r', p', kept, change⟩ := h'.policy r p found
    refine .inr (.inr ⟨r', p', kept, fun r0 p0 first => ?_⟩)
    obtain ⟨rfl, rfl⟩ | later := change
    · exact newer r0 p0 first
    · exact (newer r0 p0 first).trans later

theorem Later.moved (h : Later a b) (h' : Moved b c) : Moved a c := by
  obtain ⟨t, k, absent, found⟩ | ⟨t, j, k, between, found, newer⟩ | ⟨r, p, found, newer⟩ := h'
  · refine .inl ⟨t, k, ?_, found⟩
    cases first : intent? a t with
    | none => rfl
    | some i =>
      obtain ⟨j, kept, _⟩ := h.intents t i first
      rw [absent] at kept
      cases kept
  · cases first : intent? a t with
    | none => exact .inl ⟨t, k, first, found⟩
    | some i =>
      exact .inr (.inl ⟨t, i, k, first, found, (h.generation_le first between).trans_lt newer⟩)
  · refine .inr (.inr ⟨r, p, found, fun r0 p0 first => ?_⟩)
    obtain ⟨r', p', kept, change⟩ := h.policy r0 p0 first
    obtain ⟨rfl, rfl⟩ | later := change
    · exact newer r' p' kept
    · exact later.trans (newer r' p' kept)

theorem SameDesired.follows (h : SameDesired a b) (snapshot : a.snapshotRevision = b.snapshotRevision) :
    Follows a b :=
  ⟨h.later, snapshot.le, fun _ => h, fun less => absurd snapshot less.ne⟩

theorem Follows.trans (h : Follows a b) (h' : Follows b c) : Follows a c where
  later := h.later.trans h'.later
  snapshot := h.snapshot.trans h'.snapshot
  same equal := by
    have first : a.snapshotRevision = b.snapshotRevision :=
      le_antisymm h.snapshot (equal ▸ h'.snapshot)
    exact (h.same first).trans (h'.same (first.symm.trans equal))
  moved less := by
    obtain first | first := h.snapshot.lt_or_eq
    · exact (h.moved first).later h'.later
    · exact h.later.moved (h'.moved (first ▸ less))

end Order

section Effects

variable {resolver : Resolver} {hash : Hash String} {updatedAt : Instant}
variable {affected : List Projection} {targets : List Prefix} {target : Prefix}
variable {expectedRevision : Nat} {policy : PolicyIntent} {b b' : Book} {changed : Bool}

/-- What a step of the finalizer leaves: policy and snapshot revision stand, and the flag says
whether an intent has moved. -/
structure Wrote (changed : Bool) (a b : Book) : Prop where
  keyed : Keyed b
  later : Later a.db b.db
  policy : b.db.policy = a.db.policy
  snapshot : b.db.snapshotRevision = a.db.snapshotRevision
  same : changed = false → SameDesired a.db b.db
  moved : changed = true → Moved a.db b.db

theorem Wrote.refl (keyed : Keyed b) : Wrote false b b :=
  ⟨keyed, (SameDesired.refl _).later, rfl, rfl, fun _ => .refl _, by simp⟩

variable {a c : Book} {t : Prefix} {i : Intent} {p : Projection}

theorem Wrote.trans {first second : Bool} (h : Wrote first a b) (h' : Wrote second b c) :
    Wrote (first || second) a c where
  keyed := h'.keyed
  later := h.later.trans h'.later
  policy := h'.policy.trans h.policy
  snapshot := h'.snapshot.trans h.snapshot
  same none_ := by
    obtain ⟨none_, none_'⟩ := Bool.or_eq_false_iff.mp none_
    exact (h.same none_).trans (h'.same none_')
  moved some_ := by
    cases first with
    | true => exact (h.moved rfl).later h'.later
    | false => exact h.later.moved (h'.moved (by simpa using some_))

theorem intent?_insert {db : Database} {t' : Prefix} {row : EnforcementRow} :
    intent? { db with enforcement := db.enforcement.insert t row } t' =
      if t' = t then some row.intent else intent? db t' := by
  unfold intent?
  dsimp only
  rw [Table.lookup_insert]
  split <;> rfl

def Book.write (b : Book) (target : Prefix) (i : Intent) (updatedAt : Instant) : Book :=
  { b with db := { b.db with
    enforcement := b.db.enforcement.insert target ⟨persistIntent i,
      (b.db.enforcement.lookup target).bind EnforcementRow.observed⟩
    ledger := b.db.ledger.insert (.target target) (pendingRow i.generation
      (((b.db.row? (.target target)).map StateRow.epoch).getD 0) updatedAt) } }

theorem intent?_write : intent? (b.write target i updatedAt).db t =
    if t = target then some (persistIntent i) else intent? b.db t :=
  intent?_insert

theorem resolveTarget_cases {policy : TargetPolicy} {previous : Option Intent} {changed : Bool}
    (h : resolveTarget p policy previous = .ok (i, changed)) :
    p.validate = .ok () ∧ i.validate = .ok () ∧ i = resolvedIntent p policy i.generation ∧
      (previous = none → changed = true ∧ i.generation = 1) ∧
      ∀ old, previous = some old → old.validate = .ok () ∧
        changed = !old.equivalent (resolvedIntent p policy old.generation) ∧
          i.generation = if changed then old.generation + 1 else old.generation := by
  unfold resolveTarget at h
  simp only [bind_eq_ok, within_eq_ok] at h
  obtain ⟨_, projected, _, _, h⟩ := h
  refine ⟨projected, ?_⟩
  cases previous with
  | none =>
    simp only [bind_eq_ok, within_eq_ok] at h
    obtain ⟨_, valid, h⟩ := h
    cases h
    exact ⟨valid, rfl, fun _ => ⟨rfl, rfl⟩, by simp⟩
  | some old =>
    simp only [bind_eq_ok, within_eq_ok] at h
    obtain ⟨_, before, _, _, h⟩ := h
    split at h
    · rename_i same
      simp only [bind_eq_ok, within_eq_ok] at h
      obtain ⟨_, valid, h⟩ := h
      cases h
      refine ⟨valid, rfl, by simp, ?_⟩
      rintro _ ⟨⟩
      exact ⟨before, by simp [same], rfl⟩
    · rename_i differ
      simp only [bind_eq_ok, within_eq_ok] at h
      obtain ⟨_, _, _, valid, h⟩ := h
      cases h
      refine ⟨valid, rfl, by simp, ?_⟩
      rintro _ ⟨⟩
      exact ⟨before, by simpa using differ, rfl⟩

theorem firstGeneration_cases {i' : Intent} {found : Bool}
    (first : found = false → i.generation = 1) (h : firstGeneration b i found = .ok i') :
    i' = { i with generation :=
      if found then i.generation else (generationFloor b.db i.canonicalTarget).getD 0 + 1 } := by
  unfold firstGeneration at h
  cases found with
  | true =>
    cases h
    rfl
  | false =>
    simp only [Bool.false_eq_true, if_false] at h ⊢
    split at h
    · rename_i missing
      cases h
      rw [missing, Option.getD_none, zero_add, ← first rfl]
    · rename_i floor found
      simp only [bind_eq_ok] at h
      obtain ⟨_, _, h⟩ := h
      cases h
      rw [found, Option.getD_some]

theorem materializeTarget_parts
    (h : materializeTarget resolver updatedAt target b = .ok (changed, b')) :
    ∃ projection policy i, b.projections.lookup target = some projection ∧
      resolver b.db.policy projection = .ok policy ∧
      resolveTarget projection policy (intent? b.db target) = .ok (i, changed) ∧
      (changed = false ∧ b' = b ∨ changed = true ∧ ∃ i' put reset,
        firstGeneration b i (intent? b.db target).isSome = .ok i' ∧ i'.generation ≤ maxInt64 ∧
        putTargetEnforcementIntent i' b.db = .ok put ∧
        resetTargetReconcileState projection.nodeID target i'.generation updatedAt put =
          .ok reset ∧ b' = { b with db := reset }) := by
  unfold materializeTarget at h
  split at h
  · cases h
  rename_i projection listed
  simp only [bind_eq_ok, within_eq_ok] at h
  obtain ⟨policy, resolved, ⟨i, flag⟩, made, h⟩ := h
  cases flag with
  | false =>
    cases h
    exact ⟨projection, policy, i, listed, resolved, made, .inl ⟨rfl, rfl⟩⟩
  | true =>
    simp only [Bool.not_true, Bool.false_eq_true, if_false, bind_eq_ok, reject_eq_ok,
      decide_eq_false_iff_not, not_lt] at h
    obtain ⟨i', first, _, bound, put, stored, reset, cleared, h⟩ := h
    cases h
    exact ⟨projection, policy, i, listed, resolved, made,
      .inr ⟨rfl, i', put, reset, first, bound, stored, cleared, rfl⟩⟩

/-- What the finalizer does to one target: nothing, where the intent it resolves to is the one it
has; else it stores that intent with the next generation and starts its ledger row again. -/
theorem materializeTarget_cases (keyed : Keyed b)
    (h : materializeTarget resolver updatedAt target b = .ok (changed, b')) :
    ∃ projection policy, b.projections.lookup target = some projection ∧
      resolver b.db.policy projection = .ok policy ∧
      ((changed = false ∧ b' = b ∧ ∃ old, intent? b.db target = some old ∧ old.validate = .ok () ∧
          old.equivalent (resolvedIntent projection policy old.generation) = true) ∨
        changed = true ∧ ∃ i, i.validate = .ok () ∧
          i = resolvedIntent projection policy i.generation ∧ i.nodeID = b.db.nodeID ∧
          (∀ old, intent? b.db target = some old →
            old.equivalent (resolvedIntent projection policy old.generation) = false ∧
            i.generation = old.generation + 1) ∧
          (intent? b.db target = none →
            i.generation = (generationFloor b.db target).getD 0 + 1) ∧
          i.generation ≤ maxInt64 ∧
          (∀ row, b.db.row? (.target target) = some row → row.version < i.generation) ∧
          b' = b.write target i updatedAt) := by
  obtain ⟨projection, policy, j, listed, resolved, made, outcome⟩ := materializeTarget_parts h
  refine ⟨projection, policy, listed, resolved, ?_⟩
  obtain ⟨_, _, whole, fresh, next⟩ := resolveTarget_cases made
  obtain ⟨rfl, rfl⟩ | ⟨rfl, i, put, reset, first, bound, stored, cleared, rfl⟩ := outcome
  · cases found : intent? b'.db target with
    | none => cases (fresh found).1
    | some old =>
      obtain ⟨before, same, _⟩ := next old found
      exact .inl ⟨rfl, rfl, old, rfl, before, by simpa using same⟩
  have own : j.canonicalTarget = target := by
    rw [whole]
    exact keyed.projections target projection listed
  -- the intent is the resolved one, with the generation of its history
  have known := firstGeneration_cases (fun absent => (fresh (by simpa using absent)).2) first
  have at_ : i.canonicalTarget = target := by
    rw [known]
    exact own
  have shape : i = resolvedIntent projection policy i.generation := by
    rw [known, whole]
    rfl
  have generation : i.generation = if (intent? b.db target).isSome then j.generation
      else (generationFloor b.db target).getD 0 + 1 := by
    rw [known, own]
  have advanced : ∀ old, intent? b.db target = some old → i.generation = old.generation + 1 := by
    intro old found
    rw [generation, found]
    exact (next old found).2.2
  obtain ⟨checked, _, node, ⟨row, found, le, _⟩ | rfl⟩ := putTargetEnforcementIntent_cases stored
  · -- an intent that is found has an older generation
    rw [at_] at found
    have newer := advanced row.intent (congrArg (Option.map EnforcementRow.intent) found)
    omega
  rw [at_] at cleared
  obtain ⟨_, _, newer, rfl⟩ := resetTargetReconcileState_inserts cleared
  refine .inr ⟨rfl, i, checked, shape, node, fun old found => ⟨?_, advanced old found⟩, ?_, bound,
    newer, rfl⟩
  · simpa using (next old found).2.1
  · intro absent
    rw [generation, absent]
    rfl

theorem wrote_materializeTarget (keyed : Keyed b)
    (h : materializeTarget resolver updatedAt target b = .ok (changed, b')) :
    Wrote changed b b' := by
  obtain ⟨projection, _, listed, _, ⟨rfl, rfl, _⟩ | ⟨rfl, i, _, shape, _, next, _, _, _, rfl⟩⟩ :=
    materializeTarget_cases keyed h
  · exact .refl keyed
  have greater : ∀ old, intent? b.db target = some old → old.generation < i.generation := by
    intro old found
    rw [(next old found).2]
    exact Nat.lt_succ_self _
  refine ⟨⟨?_, keyed.projections⟩, ⟨?_, ?_⟩, rfl, rfl, by simp, fun _ => ?_⟩
  · intro t j found
    rw [intent?_write] at found
    split at found
    · rename_i here
      cases found
      rw [here, shape]
      exact keyed.projections target projection listed
    · exact keyed.intents t j found
  · intro t old found
    rw [intent?_write]
    split
    · rename_i here
      subst here
      exact ⟨_, rfl, .inr (greater old found)⟩
    · exact ⟨old, found, .inl rfl⟩
  · intro r p found
    exact ⟨r, p, found, .inl ⟨rfl, rfl⟩⟩
  · have written : intent? (b.write target i updatedAt).db target = some (persistIntent i) :=
      intent?_write.trans (if_pos rfl)
    cases before : intent? b.db target with
    | none => exact .inl ⟨target, _, before, written⟩
    | some old => exact .inr (.inl ⟨target, old, _, before, written, greater old before⟩)

theorem materializeTarget_rest
    (h : materializeTarget resolver updatedAt target b = .ok (changed, b')) :
    b'.projections = b.projections ∧ b'.db.nodeID = b.db.nodeID := by
  obtain ⟨_, _, _, _, _, _, ⟨_, rfl⟩ | ⟨_, _, _, _, _, _, stored, cleared, rfl⟩⟩ :=
    materializeTarget_parts h
  · exact ⟨rfl, rfl⟩
  · obtain ⟨_, _, _, rfl⟩ := resetTargetReconcileState_inserts cleared
    obtain ⟨_, _, _, ⟨_, _, _, rfl⟩ | rfl⟩ := putTargetEnforcementIntent_cases stored
    · exact ⟨rfl, rfl⟩
    · exact ⟨rfl, rfl⟩

theorem materialize_cases (h : materialize resolver affected updatedAt b = .ok (changed, b')) :
    ∃ targets, targets.Nodup ∧ (∀ t, t ∈ targets ↔ t ∈ affected.map Projection.canonicalTarget) ∧
      materializeEach resolver updatedAt targets b = .ok (changed, b') := by
  simp only [materialize, bind_eq_ok] at h
  obtain ⟨_, _, _, _, h⟩ := h
  refine ⟨_, (List.mergeSort_perm _ _).nodup_iff.mpr (List.nodup_dedup _), fun t => ?_, h⟩
  rw [List.mem_mergeSort, List.mem_dedup]

theorem materialize_keeps {P : Book → Prop}
    (step : ∀ target changed b b', P b →
      materializeTarget resolver updatedAt target b = .ok (changed, b') → P b')
    (h : materialize resolver affected updatedAt b = .ok (changed, b')) (first : P b) : P b' := by
  obtain ⟨targets, -, -, each⟩ := materialize_cases h
  clear h
  induction targets generalizing b changed with
  | nil =>
    cases each
    exact first
  | cons target rest ih =>
    simp only [materializeEach, bind_eq_ok] at each
    obtain ⟨⟨_, middle⟩, one, ⟨_, last⟩, others, each⟩ := each
    cases each
    exact ih (step target _ b middle first one) others

theorem finalize_cases (h : finalize resolver affected updatedAt b = .ok b') :
    ∃ changed middle, materialize resolver affected updatedAt b = .ok (changed, middle) ∧
      (changed = false ∧ b' = middle ∨ changed = true ∧ b' = { middle with db := { middle.db with
        snapshotRevision := middle.db.snapshotRevision + 1 } }) := by
  simp only [finalize, bind_eq_ok] at h
  obtain ⟨⟨changed, middle⟩, made, h⟩ := h
  refine ⟨changed, middle, made, ?_⟩
  cases changed with
  | false =>
    cases h
    exact .inl ⟨rfl, rfl⟩
  | true =>
    simp only [Bool.not_true, Bool.false_eq_true, if_false, advanceSnapshotRevision, bind_eq_ok] at h
    obtain ⟨db, ⟨_, _, advanced⟩, h⟩ := h
    cases advanced
    cases h
    exact .inr ⟨rfl, rfl⟩

def Book.withPolicy (b : Book) (policy : PolicyIntent) : Book :=
  { b with db := { b.db with
    policy := some ((b.db.policy.map Prod.fst).getD 0 + 1, policy)
    snapshotRevision := b.db.snapshotRevision + 1 } }

theorem replace_cases
    (h : replace resolver hash expectedRevision policy updatedAt b = .ok b') :
    policy.validateComplete hash = .ok () ∧
      (b.db.policy = some (expectedRevision, policy) ∧ b' = b ∨
        ∃ changed middle row, materialize resolver (b.projections.rows.map Prod.snd) updatedAt
            (b.withPolicy policy) = .ok (changed, middle) ∧
          b' = { middle with db := { middle.db with
            ledger := middle.db.ledger.insert .policy row } }) := by
  simp only [replace, bind_eq_ok, within_eq_ok] at h
  obtain ⟨_, complete, _, _, h⟩ := h
  refine ⟨complete, ?_⟩
  split at h
  · rename_i same
    cases h
    exact .inl ⟨same, rfl⟩
  simp only [bind_eq_ok, replaceManagedPolicy, resetPolicyReconcileState] at h
  obtain ⟨⟨revision, replaced⟩, ⟨_, _, _, _, _, _, _, _, _, _, written⟩, ⟨changed, middle⟩, made, db,
    ⟨_, _, _, _, _, _, cleared⟩, h⟩ := h
  cases written
  cases cleared
  cases h
  exact .inr ⟨changed, middle, _, made, rfl⟩

theorem wrote_materializeEach (keyed : Keyed b)
    (h : materializeEach resolver updatedAt targets b = .ok (changed, b')) :
    Wrote changed b b' := by
  induction targets generalizing b changed with
  | nil =>
    cases h
    exact .refl keyed
  | cons target rest ih =>
    simp only [materializeEach, bind_eq_ok] at h
    obtain ⟨⟨first, middle⟩, one, ⟨later, last⟩, others, h⟩ := h
    cases h
    have wrote := wrote_materializeTarget keyed one
    exact wrote.trans (ih wrote.keyed others)

theorem materialize_rest (h : materialize resolver affected updatedAt b = .ok (changed, b')) :
    b'.projections = b.projections ∧ b'.db.nodeID = b.db.nodeID := by
  refine materialize_keeps (P := fun middle => middle.projections = b.projections ∧
    middle.db.nodeID = b.db.nodeID) (fun _ _ _ _ before one => ?_) h ⟨rfl, rfl⟩
  obtain ⟨projections, node⟩ := materializeTarget_rest one
  exact ⟨projections.trans before.1, node.trans before.2⟩

theorem finalize_rest (h : finalize resolver affected updatedAt b = .ok b') :
    b'.projections = b.projections ∧ b'.db.nodeID = b.db.nodeID := by
  obtain ⟨_, middle, made, outcome⟩ := finalize_cases h
  obtain ⟨projections, node⟩ := materialize_rest made
  obtain ⟨_, rfl⟩ | ⟨_, rfl⟩ := outcome
  · exact ⟨projections, node⟩
  · exact ⟨projections, node⟩

theorem replace_rest (h : replace resolver hash expectedRevision policy updatedAt b = .ok b') :
    b'.projections = b.projections ∧ b'.db.nodeID = b.db.nodeID := by
  obtain ⟨_, ⟨_, rfl⟩ | ⟨_, middle, _, made, rfl⟩⟩ := replace_cases h
  · exact ⟨rfl, rfl⟩
  · obtain ⟨projections, node⟩ := materialize_rest made
    exact ⟨projections, node⟩

theorem wrote_materialize (keyed : Keyed b)
    (h : materialize resolver affected updatedAt b = .ok (changed, b')) : Wrote changed b b' := by
  obtain ⟨targets, _, _, h⟩ := materialize_cases h
  exact wrote_materializeEach keyed h

theorem Wrote.follows (h : Wrote false b b') : Follows b.db b'.db :=
  (h.same rfl).follows h.snapshot.symm

theorem Wrote.advance (h : Wrote true b b') :
    Follows b.db { b'.db with snapshotRevision := b'.db.snapshotRevision + 1 } := by
  have less : b.db.snapshotRevision < b'.db.snapshotRevision + 1 := by
    rw [h.snapshot]
    exact Nat.lt_succ_self _
  have same : SameDesired b'.db { b'.db with snapshotRevision := b'.db.snapshotRevision + 1 } :=
    ⟨fun _ => rfl, rfl⟩
  exact ⟨h.later.trans same.later, less.le, fun equal => absurd equal less.ne,
    fun _ => (h.moved rfl).later same.later⟩

structure Committed (hash : Hash String) (b b' : Book) : Prop where
  keyed : Keyed b'
  follows : Follows b.db b'.db
  policy : b'.db.policy = b.db.policy ∨
    ∃ r p, b'.db.policy = some (r, p) ∧ p.validateComplete hash = .ok ()

theorem Committed.refl (keyed : Keyed b) : Committed hash b b :=
  ⟨keyed, (SameDesired.refl _).follows rfl, .inl rfl⟩

theorem Committed.trans (h : Committed hash a b) (h' : Committed hash b c) :
    Committed hash a c := by
  refine ⟨h'.keyed, h.follows.trans h'.follows, ?_⟩
  obtain same | complete := h'.policy
  · rw [same]
    exact h.policy
  · exact .inr complete

theorem committed_finalize (hash : Hash String) (keyed : Keyed b)
    (h : finalize resolver affected updatedAt b = .ok b') : Committed hash b b' := by
  obtain ⟨changed, middle, made, outcome⟩ := finalize_cases h
  have wrote := wrote_materialize keyed made
  obtain ⟨rfl, rfl⟩ | ⟨rfl, rfl⟩ := outcome
  · exact ⟨wrote.keyed, wrote.follows, .inl wrote.policy⟩
  · exact ⟨⟨wrote.keyed.intents, wrote.keyed.projections⟩, wrote.advance, .inl wrote.policy⟩

theorem committed_replace (keyed : Keyed b)
    (h : replace resolver hash expectedRevision policy updatedAt b = .ok b') :
    Committed hash b b' := by
  obtain ⟨complete, ⟨_, rfl⟩ | ⟨_, middle, row, made, rfl⟩⟩ := replace_cases h
  · exact .refl keyed
  have newer : ∀ r p, b.db.policy = some (r, p) → r < (b.db.policy.map Prod.fst).getD 0 + 1 := by
    intro r p found
    rw [found]
    exact Nat.lt_succ_self _
  have first : Later b.db (b.withPolicy policy).db :=
    ⟨fun t i found => ⟨i, found, .inl rfl⟩, fun r p found => ⟨_, policy, rfl, .inr (newer r p found)⟩⟩
  have moved : Moved b.db (b.withPolicy policy).db := .inr (.inr ⟨_, policy, rfl, newer⟩)
  have wrote := wrote_materialize (b := b.withPolicy policy) ⟨keyed.intents, keyed.projections⟩ made
  have last : SameDesired middle.db { middle.db with
      ledger := middle.db.ledger.insert .policy row } := ⟨fun _ => rfl, rfl⟩
  have less : b.db.snapshotRevision < middle.db.snapshotRevision := by
    rw [wrote.snapshot]
    exact Nat.lt_succ_self _
  refine ⟨⟨wrote.keyed.intents, wrote.keyed.projections⟩, ?_,
    .inr ⟨_, policy, wrote.policy, complete⟩⟩
  exact ⟨first.trans (wrote.later.trans last.later), less.le,
    fun equal => absurd equal less.ne, fun _ => (moved.later wrote.later).later last.later⟩

theorem Book.putProjection_cases (h : b.putProjection p updatedAt = .ok b') :
    updatedAt.unset = false ∧ p.nodeID = b.db.nodeID ∧
      (b.projections.lookup p.canonicalTarget = some p.persisted ∧ b' = b ∨
        (∀ old, b.projections.lookup p.canonicalTarget = some old → old.revision < p.revision) ∧
          b' = { b with projections := b.projections.insert p.canonicalTarget p.persisted }) := by
  simp only [Book.putProjection, projectionConstraints, bind_eq_ok, within_eq_ok, reject_eq_ok,
    Bool.or_eq_false_iff, bne_eq_false_iff_eq] at h
  obtain ⟨_, _, _, _, _, ⟨_, valid⟩, _, node, h⟩ := h
  refine ⟨valid, node, ?_⟩
  split at h
  · rename_i missing
    cases h
    exact .inr ⟨by simp [missing], rfl⟩
  · rename_i existing found
    split at h
    · rename_i same
      cases h
      exact .inl ⟨found.trans (congrArg some same), rfl⟩
    · simp only [bind_eq_ok, reject_eq_ok, decide_eq_false_iff_not, not_le] at h
      obtain ⟨_, newer, h⟩ := h
      cases h
      refine .inr ⟨fun old found' => ?_, rfl⟩
      rw [found] at found'
      cases found'
      exact newer

theorem putProjection_keyed (keyed : Keyed b) (h : b.putProjection p updatedAt = .ok b') :
    Keyed b' ∧ b'.db = b.db := by
  obtain ⟨_, _, ⟨_, rfl⟩ | ⟨_, rfl⟩⟩ := Book.putProjection_cases h
  · exact ⟨keyed, rfl⟩
  refine ⟨⟨keyed.intents, fun t q found => ?_⟩, rfl⟩
  rw [Table.lookup_insert] at found
  split at found
  · rename_i here
    cases found
    exact here.symm
  · exact keyed.projections t q found

theorem committed_attempt {t : Transaction} (keyed : Keyed b)
    (h : t.attempt resolver hash b = .ok b') : Committed hash b b' := by
  cases t with
  | decision rebuilt affected updatedAt =>
    simp only [Transaction.attempt, bind_eq_ok] at h
    obtain ⟨middle, written, h⟩ := h
    have projected : Keyed middle ∧ middle.db = b.db :=
      foldlM_eq_ok (fun _ middle => Keyed middle ∧ middle.db = b.db)
        (fun _ p _ _ before step =>
          have now := putProjection_keyed before.1 step
          ⟨now.1, now.2.trans before.2⟩)
        rebuilt [] b middle ⟨keyed, rfl⟩ written
    obtain ⟨keyed', follows, policy⟩ := committed_finalize hash projected.1 h
    rw [projected.2] at follows policy
    exact ⟨keyed', follows, policy⟩
  | replacePolicy expectedRevision policy updatedAt => exact committed_replace keyed h
  | reconcile ledger probes =>
    cases h
    exact ⟨⟨keyed.intents, keyed.projections⟩, SameDesired.follows ⟨fun _ => rfl, rfl⟩ rfl, .inl rfl⟩

variable (resolver hash)

theorem committed_commit (keyed : Keyed b) (t : Transaction) :
    Committed hash b (t.commit resolver hash b) := by
  unfold Transaction.commit
  split
  · rename_i made
    exact committed_attempt keyed made
  · exact .refl keyed

theorem committed_commitAll (keyed : Keyed b) (ts : List Transaction) :
    Committed hash b (commitAll resolver hash b ts) := by
  induction ts generalizing b with
  | nil => exact .refl keyed
  | cons t rest ih =>
    have first := committed_commit resolver hash keyed t
    exact first.trans (ih first.keyed)

theorem commitAll_append (b : Book) (earlier later : List Transaction) :
    commitAll resolver hash b (earlier ++ later) =
      commitAll resolver hash (commitAll resolver hash b earlier) later :=
  List.foldl_append

end Effects

end GuardWall.Decision
