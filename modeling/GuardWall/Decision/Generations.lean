import GuardWall.Decision.Acceptance

/-! When a target gets a new generation and the snapshot a new revision: exactly with the
transactions that change an intent or the policy, and beyond all that is on record of the target. -/
namespace GuardWall.Decision

open GuardWall.Core GuardWall.Foundation GuardWall.Store

def recordedGenerations (db : Database) (target : Prefix) : List Nat :=
  ((db.row? (.target target)).map StateRow.version).toList ++
  db.probes.rows.filterMap (fun row =>
    if row.1.key.domain = .target ∧ row.1.key.target = target then some row.1.key.targetGeneration
    else none) ++
  (((db.enforcement.lookup target).bind EnforcementRow.observed).map
    TargetObserved.confirmedGeneration).toList

theorem mem_recordedGenerations {db : Database} {target : Prefix} {g : Nat} :
    g ∈ recordedGenerations db target ↔
      (∃ row, db.row? (.target target) = some row ∧ row.version = g) ∨
      (∃ id us, db.probes.lookup id = some us ∧ id.ref.slot = .target target ∧
        id.ref.version = g) ∨
      ∃ row o, db.enforcement.lookup target = some row ∧ row.observed = some o ∧
        o.confirmedGeneration = g := by
  have probe : ∀ id : ProbeID, id.ref.slot = .target target ∧ id.ref.version = g ↔
      (id.key.domain = .target ∧ id.key.target = target) ∧ id.key.targetGeneration = g := by
    intro id
    unfold ProbeID.ref PhysicalKey.ref PhysicalKey.slot PhysicalKey.version
    cases id.key.domain <;> simp
  simp only [recordedGenerations, List.mem_append, Option.mem_toList, Option.map_eq_some_iff,
    Option.bind_eq_some_iff, List.mem_filterMap, Option.ite_none_right_eq_some, Option.some.injEq,
    Prod.exists, Table.mem_rows, ← probe, or_assoc]
  refine or_congr_right (or_congr_right ⟨?_, ?_⟩)
  · rintro ⟨o, ⟨row, found, seen⟩, same⟩
    exact ⟨row, o, found, seen, same⟩
  · rintro ⟨row, o, found, seen, same⟩
    exact ⟨o, ⟨row, found, seen⟩, same⟩

def Confirmed (db : Database) : Prop :=
  ∀ target row o, db.enforcement.lookup target = some row → row.observed = some o →
    o.confirmedGeneration ≤ row.intent.generation

/-- What the calls of the reconciler and the transactions keep; a Probe requirement of a target is
not ahead of the row of the target. -/
structure Recorded (db : Database) : Prop where
  probes : ∀ id us target, db.probes.lookup id = some us → id.ref.slot = .target target →
    db.reaches id.ref
  confirmed : Confirmed db

/-- What holds between the transactions: rows stand under their targets, and projections read back
as they were stored. -/
structure Standing (b : Book) : Prop where
  keyed : Keyed b
  stored : ∀ t p, b.projections.lookup t = some p → p.persisted = p
  recorded : Recorded b.db

theorem Recorded.lt {db : Database} {target : Prefix} {next : Nat} (h : Recorded db)
    (row : ∀ row, db.row? (.target target) = some row → row.version < next)
    (intent : ∀ i, intent? db target = some i → i.generation < next) :
    ∀ g ∈ recordedGenerations db target, g < next := by
  intro g recorded
  obtain ⟨held, found, rfl⟩ | ⟨id, us, found, slot, rfl⟩ | ⟨held, o, found, seen, rfl⟩ :=
    mem_recordedGenerations.mp recorded
  · exact row held found
  · obtain ⟨held, there, reached⟩ := h.probes id us target found slot
    rw [slot] at there
    have newer := row held there
    unfold StateRow.reaches at reached
    omega
  · exact (h.confirmed target held o found seen).trans_lt
      (intent held.intent (congrArg (Option.map EnforcementRow.intent) found))

def Rests (a b : Database) (t : Prefix) : Prop :=
  intent? b t = intent? a t ∧ recordedGenerations b t = recordedGenerations a t

/-- A target has another intent, of a generation beyond all that is on record of it. -/
def Advances (a b : Database) (t : Prefix) : Prop :=
  ∃ j, intent? b t = some j ∧ (∀ g ∈ recordedGenerations a t, g < j.generation) ∧
    ∀ i, intent? a t = some i → i.generation < j.generation ∧ i.equivalent j = false

section Finalizing

variable {resolver : Resolver} {hash : Hash String} {updatedAt : Instant} {b b' : Book}
variable {affected : List Projection} {targets : List Prefix} {target : Prefix} {changed : Bool}

theorem persistIntent_resolvedIntent {p : Projection} (policy : TargetPolicy) (generation : Nat)
    (stored : p.persisted = p) :
    persistIntent (resolvedIntent p policy generation) = resolvedIntent p policy generation := by
  have time : p.effectiveUntil.map Instant.truncateMicro = p.effectiveUntil :=
    congrArg Projection.effectiveUntil stored
  unfold persistIntent resolvedIntent
  dsimp only
  split
  · rw [time]
  · rfl

/-- Nothing is on record beyond the intents: without the reconciler at work it stays so. -/
def Bounded (db : Database) : Prop :=
  ∀ t i, intent? db t = some i → ∀ g ∈ recordedGenerations db t, g ≤ i.generation

/-- What one call of the finalizer leaves: each of its targets rests or advances, all others
rest. -/
structure Finalized (targets : List Prefix) (changed : Bool) (b b' : Book) : Prop where
  standing : Standing b'
  bounded : Bounded b.db → Bounded b'.db
  each : ∀ t, Rests b.db b'.db t ∨ t ∈ targets ∧ Advances b.db b'.db t
  policy : b'.db.policy = b.db.policy
  snapshot : b'.db.snapshotRevision = b.db.snapshotRevision
  unchanged : changed = false → ∀ t, Rests b.db b'.db t
  moved : changed = true → ∃ t ∈ targets, Advances b.db b'.db t

variable {t : Prefix} {a c : Database}

theorem mem_recordedGenerations_write {i : Intent} {g : Nat}
    (h : g ∈ recordedGenerations (b.write target i updatedAt).db t) :
    g ∈ recordedGenerations b.db t ∨ t = target ∧ g = i.generation := by
  simp only [recordedGenerations, Book.write, List.mem_append, Option.mem_toList,
    Option.map_eq_some_iff, Option.bind_eq_some_iff, Database.row?, Table.lookup_insert] at h ⊢
  obtain (⟨row, found, version⟩ | probe) | ⟨o, ⟨row, found, at_⟩, generation⟩ := h
  · split at found
    · rename_i same
      cases found
      cases same
      exact .inr ⟨rfl, version.symm⟩
    · exact .inl (.inl (.inl ⟨row, found, version⟩))
  · exact .inl (.inl (.inr probe))
  · split at found
    · rename_i same
      cases found
      subst same
      exact .inl (.inr ⟨o, Option.bind_eq_some_iff.mp at_, generation⟩)
    · exact .inl (.inr ⟨o, ⟨row, found, at_⟩, generation⟩)

theorem Recorded.write {i : Intent} (h : Recorded b.db)
    (row : ∀ row, b.db.row? (.target target) = some row → row.version < i.generation)
    (intent : ∀ old, intent? b.db target = some old → old.generation < i.generation) :
    Recorded (b.write target i updatedAt).db := by
  refine ⟨fun id us t found slot => ?_, fun t held o found seen => ?_⟩
  · refine GrowsAt.reaches ?_ (h.probes id us t found slot)
    intro held there
    unfold Database.row? at there
    unfold Book.write Database.row?
    rw [Table.lookup_insert]
    split
    · rename_i same
      rw [same] at there
      exact ⟨_, rfl, Version.le_iff.mpr (.inl (row held there))⟩
    · exact ⟨held, there, le_refl _⟩
  · unfold Book.write at found
    rw [Table.lookup_insert] at found
    split at found
    · cases found
      obtain ⟨old, there, seen⟩ := Option.bind_eq_some_iff.mp seen
      exact (h.confirmed target old o there seen).trans
        (intent old.intent (congrArg (Option.map EnforcementRow.intent) there)).le
    · exact h.confirmed t held o found seen

theorem finalized_materializeTarget (standing : Standing b)
    (h : materializeTarget resolver updatedAt target b = .ok (changed, b')) :
    Finalized [target] changed b b' := by
  obtain ⟨projection, policy, listed, _, ⟨rfl, rfl, _⟩ | ⟨rfl, i, _, shape, _, next, _, _, newer, rfl⟩⟩ :=
    materializeTarget_cases standing.keyed h
  · exact ⟨standing, id, fun t => .inl ⟨rfl, rfl⟩, rfl, rfl, fun _ t => ⟨rfl, rfl⟩, by simp⟩
  have intents : ∀ t, intent? (b.write target i updatedAt).db t =
      if t = target then some i else intent? b.db t := by
    have persisted : persistIntent i = i := by
      rw [shape]
      exact persistIntent_resolvedIntent policy _ (standing.stored target projection listed)
    intro t
    rw [intent?_write, persisted]
  have later : ∀ old, intent? b.db target = some old → old.generation < i.generation := by
    intro old found
    rw [(next old found).2]
    exact Nat.lt_succ_self _
  have greater := standing.recorded.lt newer later
  have others : ∀ t, t ≠ target →
      recordedGenerations (b.write target i updatedAt).db t = recordedGenerations b.db t := by
    intro t other
    simp [recordedGenerations, Book.write, Database.row?, other]
  have advances : Advances b.db (b.write target i updatedAt).db target := by
    refine ⟨i, by rw [intents, if_pos rfl], greater, fun old found => ⟨later old found, ?_⟩⟩
    rw [shape]
    exact (next old found).1
  refine ⟨⟨⟨?_, standing.keyed.projections⟩, standing.stored, standing.recorded.write newer later⟩,
    fun bounded => ?_, fun t => ?_, rfl, rfl, by simp,
    fun _ => ⟨target, List.mem_singleton_self _, advances⟩⟩
  · intro t j found
    rw [intents] at found
    split at found
    · rename_i same
      cases found
      rw [same, shape]
      exact standing.keyed.projections target projection listed
    · exact standing.keyed.intents t j found
  · intro t j found g recorded
    rw [intents] at found
    split at found
    · rename_i same
      cases found
      obtain before | ⟨_, rfl⟩ := mem_recordedGenerations_write recorded
      · rw [same] at before
        exact (greater g before).le
      · exact le_rfl
    · rename_i other
      rw [others t other] at recorded
      exact bounded t j found g recorded
  · by_cases same : t = target
    · rw [same]
      exact .inr ⟨List.mem_singleton_self _, advances⟩
    · exact .inl ⟨by rw [intents, if_neg same], others t same⟩

theorem Finalized.refl (standing : Standing b) : Finalized [] false b b :=
  ⟨standing, id, fun t => .inl ⟨rfl, rfl⟩, rfl, rfl, fun _ t => ⟨rfl, rfl⟩, by simp⟩

theorem Rests.advances {d : Database} (rests : Rests a c t) (h : Advances c d t) :
    Advances a d t := by
  obtain ⟨j, found, greater, differ⟩ := h
  rw [rests.2] at greater
  rw [rests.1] at differ
  exact ⟨j, found, greater, differ⟩

theorem Advances.rests {d : Database} (h : Advances a c t) (rests : Rests c d t) :
    Advances a d t := by
  obtain ⟨j, found, greater, differ⟩ := h
  exact ⟨j, rests.1.trans found, greater, differ⟩

theorem finalized_materializeEach (standing : Standing b)
    (distinct : targets.Nodup)
    (h : materializeEach resolver updatedAt targets b = .ok (changed, b')) :
    Finalized targets changed b b' := by
  induction targets generalizing b changed with
  | nil =>
    cases h
    exact .refl standing
  | cons target rest ih =>
    simp only [materializeEach, bind_eq_ok] at h
    obtain ⟨⟨first, middle⟩, one, ⟨later, last⟩, others, h⟩ := h
    cases h
    obtain ⟨fresh, distinct⟩ := List.nodup_cons.mp distinct
    have head := finalized_materializeTarget standing one
    have tail := ih head.standing distinct others
    -- the target does not come again, so what it was given stays
    have settled : Rests middle.db last.db target := by
      obtain rests | ⟨member, _⟩ := tail.each target
      · exact rests
      · exact absurd member fresh
    have early : ∀ t, t ≠ target → Rests b.db middle.db t := by
      intro t other
      obtain rests | ⟨member, _⟩ := head.each t
      · exact rests
      · exact absurd (List.mem_singleton.mp member) other
    refine ⟨tail.standing, tail.bounded ∘ head.bounded, fun t => ?_, tail.policy.trans head.policy,
      tail.snapshot.trans head.snapshot, fun none_ t => ?_, fun some_ => ?_⟩
    · by_cases same : t = target
      · subst same
        obtain rests | ⟨_, advances⟩ := head.each t
        · exact .inl ⟨settled.1.trans rests.1, settled.2.trans rests.2⟩
        · exact .inr ⟨List.mem_cons_self, advances.rests settled⟩
      · obtain rests | ⟨member, advances⟩ := tail.each t
        · exact .inl ⟨rests.1.trans (early t same).1, rests.2.trans (early t same).2⟩
        · exact .inr ⟨.tail _ member, (early t same).advances advances⟩
    · obtain ⟨none_, none_'⟩ := Bool.or_eq_false_iff.mp none_
      have rests := head.unchanged none_ t
      have rests' := tail.unchanged none_' t
      exact ⟨rests'.1.trans rests.1, rests'.2.trans rests.2⟩
    · cases first with
      | true =>
        obtain ⟨t, member, advances⟩ := head.moved rfl
        rw [List.mem_singleton.mp member] at advances
        exact ⟨target, List.mem_cons_self, advances.rests settled⟩
      | false =>
        obtain ⟨t, member, advances⟩ := tail.moved (by simpa using some_)
        exact ⟨t, .tail _ member, (head.unchanged rfl t).advances advances⟩

theorem finalized_materialize (standing : Standing b)
    (h : materialize resolver affected updatedAt b = .ok (changed, b')) :
    ∃ targets, Finalized targets changed b b' := by
  obtain ⟨targets, distinct, _, h⟩ := materialize_cases h
  exact ⟨targets, finalized_materializeEach standing distinct h⟩

structure Transacted (b b' : Book) : Prop where
  standing : Standing b'
  bounded : Bounded b.db → Bounded b'.db
  targets : ∀ t, intent? b'.db t = intent? b.db t ∨ Advances b.db b'.db t
  changed : (∃ t, Advances b.db b'.db t) ∨ b'.db.policy ≠ b.db.policy →
    b'.db.snapshotRevision = b.db.snapshotRevision + 1
  unchanged : (∀ t, intent? b'.db t = intent? b.db t) → b'.db.policy = b.db.policy →
    b'.db.snapshotRevision = b.db.snapshotRevision

theorem Transacted.refl (standing : Standing b) : Transacted b b := by
  refine ⟨standing, id, fun t => .inl rfl, ?_, fun _ _ => rfl⟩
  rintro (⟨t, j, found, _, differ⟩ | differ)
  · exact absurd (differ j found).1 (lt_irrefl _)
  · exact absurd rfl differ

theorem Advances.differs (h : Advances a c t) :
    intent? c t ≠ intent? a t := by
  obtain ⟨j, found, _, differ⟩ := h
  intro same
  rw [found] at same
  exact absurd (differ j same.symm).1 (lt_irrefl _)

structure SameTargets (a c : Database) : Prop where
  enforcement : c.enforcement = a.enforcement
  probes : c.probes = a.probes
  rows : ∀ t, c.row? (.target t) = a.row? (.target t)

theorem SameTargets.intents (same : SameTargets a c) : intent? c t = intent? a t := by
  unfold intent?
  rw [same.enforcement]

theorem SameTargets.bounded (same : SameTargets a c) (h : Bounded a) : Bounded c := by
  intro t i found g recorded
  refine h t i (same.intents.symm.trans found) g ?_
  simpa only [recordedGenerations, same.rows, same.probes, same.enforcement] using recorded

theorem Standing.of_same {db : Database} (h : Standing b) (same : SameTargets b.db db) :
    Standing { b with db := db } := by
  refine ⟨⟨fun t i found => h.keyed.intents t i (same.intents.symm.trans found),
    h.keyed.projections⟩, h.stored, fun id us t found slot => ?_, fun t row o found => ?_⟩
  · obtain ⟨row, there, reached⟩ := h.recorded.probes id us t (same.probes ▸ found) slot
    refine ⟨row, ?_, reached⟩
    rw [slot] at there ⊢
    rw [same.rows, there]
  · exact h.recorded.confirmed t row o (same.enforcement ▸ found)

theorem Book.withPolicy_same (policy : PolicyIntent) :
    SameTargets b.db (b.withPolicy policy).db := ⟨rfl, rfl, fun _ => rfl⟩

theorem Standing.withPolicy (h : Standing b) (policy : PolicyIntent) :
    Standing (b.withPolicy policy) := h.of_same (b.withPolicy_same policy)

theorem transacted_finalize (standing : Standing b)
    (h : finalize resolver affected updatedAt b = .ok b') : Transacted b b' := by
  obtain ⟨changed, middle, made, outcome⟩ := finalize_cases h
  obtain ⟨targets, final⟩ := finalized_materialize standing made
  have intents : ∀ t, intent? middle.db t = intent? b.db t ∨ Advances b.db middle.db t := by
    intro t
    obtain rests | ⟨_, advances⟩ := final.each t
    · exact .inl rests.1
    · exact .inr advances
  obtain ⟨rfl, rfl⟩ | ⟨rfl, rfl⟩ := outcome
  · refine ⟨final.standing, final.bounded, intents, ?_, fun _ _ => final.snapshot⟩
    rintro (⟨t, advances⟩ | differ)
    · exact absurd (final.unchanged rfl t).1 advances.differs
    · exact absurd final.policy differ
  · obtain ⟨t, _, advances⟩ := final.moved rfl
    have same : SameTargets middle.db { middle.db with
        snapshotRevision := middle.db.snapshotRevision + 1 } := ⟨rfl, rfl, fun _ => rfl⟩
    refine ⟨final.standing.of_same same, same.bounded ∘ final.bounded, intents,
      fun _ => congrArg (· + 1) final.snapshot, fun same => ?_⟩
    exact absurd (same t) advances.differs

theorem transacted_replace {expectedRevision : Nat} {policy : PolicyIntent} (standing : Standing b)
    (h : replace resolver hash expectedRevision policy updatedAt b = .ok b') : Transacted b b' := by
  obtain ⟨_, ⟨_, rfl⟩ | ⟨_, middle, row, made, rfl⟩⟩ := replace_cases h
  · exact .refl standing
  obtain ⟨targets, final⟩ := finalized_materialize (standing.withPolicy policy) made
  have newer : some ((b.db.policy.map Prod.fst).getD 0 + 1, policy) ≠ b.db.policy := by
    intro same
    rw [← same] at same
    simp at same
  have after : SameTargets middle.db
      { middle.db with ledger := middle.db.ledger.insert .policy row } := by
    refine ⟨rfl, rfl, fun t => ?_⟩
    unfold Database.row?
    dsimp only
    rw [Table.lookup_insert, if_neg (by simp)]
  refine ⟨final.standing.of_same after, after.bounded ∘ final.bounded ∘
    (b.withPolicy_same policy).bounded, fun t => ?_, fun _ => final.snapshot, fun _ same => absurd (final.policy.symm.trans same) newer⟩
  obtain rests | ⟨_, advances⟩ := final.each t
  · exact .inl rests.1
  · exact .inr advances

theorem standing_putProjection {p : Projection} (standing : Standing b)
    (h : b.putProjection p updatedAt = .ok b') : Standing b' ∧ b'.db = b.db := by
  obtain ⟨keyed, db⟩ := putProjection_keyed standing.keyed h
  refine ⟨⟨keyed, ?_, db ▸ standing.recorded⟩, db⟩
  · obtain ⟨_, _, ⟨_, rfl⟩ | ⟨_, rfl⟩⟩ := Book.putProjection_cases h
    · exact standing.stored
    have again : p.persisted.persisted = p.persisted := by
      unfold Projection.persisted
      cases p.effectiveUntil with
      | none => rfl
      | some t => simp [Instant.truncateMicro]
    intro t q found
    rw [Table.lookup_insert] at found
    split at found
    · cases found
      exact again
    · exact standing.stored t q found

def Transaction.desires : Transaction → Bool
  | decision .. => true
  | replacePolicy .. => true
  | reconcile .. => false

theorem transacted_commit {t : Transaction} (standing : Standing b) (desires : t.desires = true) :
    Transacted b (t.commit resolver hash b) := by
  unfold Transaction.commit
  split
  · rename_i after done
    cases t with
    | decision rebuilt affected updatedAt =>
      simp only [Transaction.attempt, bind_eq_ok] at done
      obtain ⟨middle, written, done⟩ := done
      have projected : Standing middle ∧ middle.db = b.db :=
        foldlM_eq_ok (fun _ middle => Standing middle ∧ middle.db = b.db)
          (fun _ p _ _ before step =>
            have now := standing_putProjection before.1 step
            ⟨now.1, now.2.trans before.2⟩)
          rebuilt [] b middle ⟨standing, rfl⟩ written
      obtain ⟨standing', bounded, targets, changed, unchanged⟩ :=
        transacted_finalize projected.1 done
      rw [projected.2] at bounded targets changed unchanged
      exact ⟨standing', bounded, targets, changed, unchanged⟩
    | replacePolicy expectedRevision policy updatedAt => exact transacted_replace standing done
    | reconcile ledger probes => cases desires
  · exact .refl standing

end Finalizing

section Reconciling

variable {b : Book} {db db' : Database}

theorem intents_of_observes (h : Relation.ReflTransGen Observes db db') (t : Prefix) :
    intent? db' t = intent? db t := by
  induction h with
  | refl => rfl
  | tail _ step ih =>
    rw [← ih]
    cases step with
    | target o found fence =>
      unfold intent?
      rw [Table.lookup_insert]
      split
      · rename_i same
        rw [same, found]
        rfl
      · rfl
    | _ => rfl

theorem confirmed_of_observes (h : Relation.ReflTransGen Observes db db')
    (confirmed : Confirmed db) : Confirmed db' := by
  induction h with
  | refl => exact confirmed
  | tail _ step ih =>
    cases step with
    | @target row o found fence =>
      intro t held seen there noted
      rw [Table.lookup_insert] at there
      split at there
      · cases there
        cases noted
        change o.confirmedGeneration ≤ row.intent.generation
        omega
      · exact ih t held seen there noted
    | _ => exact ih

theorem Standing.recording (h : Standing b) (intents : ∀ t, intent? db t = intent? b.db t)
    (recorded : Recorded db) : Standing { b with db := db } :=
  ⟨⟨fun t i found => h.keyed.intents t i ((intents t).symm.trans found), h.keyed.projections⟩,
    h.stored, recorded⟩

theorem Standing.transition {t : Core.Transition} (h : Standing b)
    (accepted : applyReconcileTransition t b.db = .ok db) : Standing { b with db := db } := by
  have effect := applyReconcileTransition_accepted accepted
  refine h.recording (fun target => intents_of_observes effect.observed target)
    ⟨?_, confirmed_of_observes effect.observed h.recorded.confirmed⟩
  · intro id us target found slot
    obtain ⟨p, added, rfl⟩ | ⟨before, _⟩ := effect.probe found
    · obtain ⟨s, state, same, _⟩ := effect.upsert added
      have written : Admitted (some s) b.db db := state ▸ effect.toAdmitted
      change db.reaches p.ref
      rw [← same]
      exact ⟨_, written.row?_self, .inr ⟨rfl, le_refl _⟩⟩
    · refine GrowsAt.reaches (effect.growsAt fun s _ same => ?_)
        (h.recorded.probes id us target before slot)
      rw [same, slot]
      exact comparable_target _ _ _

theorem Standing.retry {t : RetryTransition} (h : Standing b)
    (accepted : applyReconcileRetryTransition t b.db = .ok db) : Standing { b with db := db } := by
  have effect := applyReconcileRetryTransition_retried accepted
  refine h.recording (fun target => ?_) ⟨?_, ?_⟩
  · unfold intent?
    rw [effect.enforcement]
  · intro id us target found slot
    rw [effect.probes] at found
    refine GrowsAt.reaches (effect.growsAt fun s _ same => ?_)
      (h.recorded.probes id us target found slot)
    rw [same, slot]
    exact comparable_target _ _ _
  · unfold Confirmed
    rw [effect.enforcement]
    exact h.recorded.confirmed

theorem Standing.observe {u : ObservedUpdate} (h : Standing b)
    (accepted : applyObservedFirewallUpdate u b.db = .ok db) : Standing { b with db := db } := by
  have observed := applyObservedFirewallUpdate_observes accepted
  have same := SameLedger.of_observes observed
  refine h.recording (intents_of_observes observed)
    ⟨?_, confirmed_of_observes observed h.recorded.confirmed⟩
  intro id us target found slot
  rw [same.probes] at found
  exact GrowsAt.reaches (.of_eq (same.row? _)) (h.recorded.probes id us target found slot)

end Reconciling

/-- The books of a node: a fresh one, and those reached from it by the transactions that write
Desired state and the calls of the reconciler, in any order. -/
inductive Reaches (resolver : Resolver) (hash : Hash String) (nodeID : String) : Book → Prop
  | start : Reaches resolver hash nodeID ⟨{ nodeID := nodeID }, ∅⟩
  | commit {b : Book} (t : Transaction) (desires : t.desires = true)
      (reached : Reaches resolver hash nodeID b) :
      Reaches resolver hash nodeID (t.commit resolver hash b)
  | transition {b : Book} {db : Database} (t : Core.Transition)
      (accepted : applyReconcileTransition t b.db = .ok db)
      (reached : Reaches resolver hash nodeID b) :
      Reaches resolver hash nodeID { b with db := db }
  | retry {b : Book} {db : Database} (t : RetryTransition)
      (accepted : applyReconcileRetryTransition t b.db = .ok db)
      (reached : Reaches resolver hash nodeID b) :
      Reaches resolver hash nodeID { b with db := db }
  | observe {b : Book} {db : Database} (u : ObservedUpdate)
      (accepted : applyObservedFirewallUpdate u b.db = .ok db)
      (reached : Reaches resolver hash nodeID b) :
      Reaches resolver hash nodeID { b with db := db }

theorem standing_fresh (nodeID : String) : Standing ⟨{ nodeID := nodeID }, ∅⟩ :=
  ⟨⟨by rintro t i ⟨⟩, by rintro t p ⟨⟩⟩, by rintro t p ⟨⟩,
    by rintro id us t ⟨⟩, by rintro t row o ⟨⟩⟩

theorem Reaches.standing {resolver : Resolver} {hash : Hash String} {nodeID : String} {b : Book}
    (reached : Reaches resolver hash nodeID b) : Standing b := by
  induction reached with
  | start => exact standing_fresh nodeID
  | commit t desires _ ih => exact (transacted_commit ih desires).standing
  | transition t accepted _ ih => exact ih.transition accepted
  | retry t accepted _ ih => exact ih.retry accepted
  | observe u accepted _ ih => exact ih.observe accepted

/-- In every transaction of a history: the generation of a target grows exactly if its intent
changes, a new generation is beyond all that is on record of the target, and the snapshot revision
grows by one exactly if an intent or the policy changes. -/
theorem generations_advance_with_intents {resolver : Resolver} {hash : Hash String}
    {nodeID : String} {b : Book} (reached : Reaches resolver hash nodeID b) (t : Transaction)
    (desires : t.desires = true) :
    let b' := t.commit resolver hash b
    (∀ target i, intent? b.db target = some i → ∃ j, intent? b'.db target = some j ∧
      i.generation ≤ j.generation ∧ (i.generation < j.generation ↔ i.equivalent j = false) ∧
      (i.generation = j.generation → j = i)) ∧
    (∀ target j, intent? b'.db target = some j → intent? b.db target ≠ some j →
      ∀ g ∈ recordedGenerations b.db target, g < j.generation) ∧
    ((∃ target, intent? b'.db target ≠ intent? b.db target) ∨ b'.db.policy ≠ b.db.policy →
      b'.db.snapshotRevision = b.db.snapshotRevision + 1) ∧
    ((∀ target, intent? b'.db target = intent? b.db target) → b'.db.policy = b.db.policy →
      b'.db.snapshotRevision = b.db.snapshotRevision) := by
  intro b'
  have transacted : Transacted b b' := transacted_commit reached.standing desires
  refine ⟨fun target i found => ?_, fun target j found differ => ?_, fun moved => ?_,
    transacted.unchanged⟩
  · obtain same | ⟨j, found', _, next⟩ := transacted.targets target
    · refine ⟨i, same.trans found, le_rfl, ?_, fun _ => rfl⟩
      rw [equivalent_refl]
      simp
    · obtain ⟨less, differ⟩ := next i found
      exact ⟨j, found', less.le, ⟨fun _ => differ, fun _ => less⟩,
        fun same => absurd same less.ne⟩
  · obtain same | ⟨j', found', greater, _⟩ := transacted.targets target
    · exact absurd (same.symm.trans found) differ
    · rw [found'] at found
      cases found
      exact greater
  · refine transacted.changed (moved.imp_left ?_)
    rintro ⟨target, differ⟩
    obtain same | advances := transacted.targets target
    · exact absurd same differ
    · exact ⟨target, advances⟩

namespace Sample

open GuardWall.Reconcile.Sample

def attempt : Core.Transition where
  state := some ⟨nodeID, ⟨.target target, 1, 0⟩,
    { status := .applying, attemptCount := 1, lastAttemptAt := some (second 2) }, second 2⟩
  upsertProbe := some
    ⟨nodeID, { domain := .target, target := target, targetGeneration := 1 }, 0, 1, second 2⟩

def confirmation : ObservedUpdate where
  nodeID := nodeID
  targets := [{
    canonicalTarget := target
    evidence := .managedSnapshot
    banMembership := .present
    scopes := scopeInput
    addressFamily := .ipv4
    observedAt := second 3
    confirmedGeneration := 1 }]

def confirmed : Except Fault Database := do
  let db ← applyReconcileTransition attempt (commitAll resolver (hash _) store banned).db
  applyObservedFirewallUpdate confirmation db

/-- A ban that was applied and confirmed is lifted: its new generation is beyond the row, the Probe
requirement and the confirmed state. -/
theorem unban_advances_generation : ∃ db i j, confirmed = .ok db ∧
    let b : Book := ⟨db, (commitAll resolver (hash _) store banned).projections⟩
    let b' := unbanned.commit resolver (hash _) b
    intent? db target = some i ∧ intent? b'.db target = some j ∧ i.generation < j.generation ∧
      recordedGenerations db target = [1, 1, 1] ∧
      (∀ g ∈ recordedGenerations db target, g < j.generation) ∧
      b'.db.snapshotRevision = db.snapshotRevision + 1 := by
  have run : (confirmed.toOption.map fun db =>
      (recordedGenerations db target, (intent? db target).map Intent.banMembership,
        (intent? (unbanned.commit resolver (hash _)
          ⟨db, (commitAll resolver (hash _) store banned).projections⟩).db target).map
            Intent.banMembership)) = some ([1, 1, 1], some .present, some .absent) := by
    decide +kernel
  obtain ⟨db, done, facts⟩ := Option.map_eq_some_iff.mp run
  simp only [Prod.mk.injEq] at facts
  obtain ⟨recorded, before, after⟩ := facts
  obtain ⟨i, found, present⟩ := Option.map_eq_some_iff.mp before
  obtain ⟨j, found', absent⟩ := Option.map_eq_some_iff.mp after
  have done := toOption_eq_some.mp done
  obtain ⟨middle, attempted, seen⟩ := bind_eq_ok.mp done
  have first : Reaches resolver (hash _) nodeID (commitAll resolver (hash _) store banned) :=
    .commit _ rfl (.commit _ rfl .start)
  have tried := Reaches.transition attempt attempted first
  have reached := Reaches.observe confirmation seen tried
  obtain ⟨grows, beyond, snapshot, _⟩ := generations_advance_with_intents reached unbanned rfl
  obtain ⟨j', found'', _, iff, _⟩ := grows target i found
  have same : j' = j := Option.some.inj (found''.symm.trans found')
  subst same
  have differ : i.equivalent j' = false := by simp [Intent.equivalent, present, absent]
  have moved : intent? db target ≠ some j' := by
    rw [found]
    rintro ⟨⟩
    exact absurd (present.symm.trans absent) (by decide)
  refine ⟨db, i, j', done, found, found', iff.mpr differ, recorded, beyond target j' found' moved,
    snapshot (.inl ⟨target, ?_⟩)⟩
  rw [show intent? _ target = some j' from found']
  exact moved.symm

end Sample

end GuardWall.Decision
