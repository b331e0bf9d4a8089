import GuardWall.Decision.Aggregation
import GuardWall.Decision.Generations

/-! A Decision operation is, as far as projections and Desired state go, one transaction: puts of
the projections it rebuilt and one call of the finalizer. -/
namespace GuardWall.Decision

open GuardWall.Core GuardWall.Foundation GuardWall.Store

def Transaction.Complete : Transaction → Prop
  | decision rebuilt affected _ =>
      ∀ p ∈ rebuilt, p.canonicalTarget ∈ affected.map Projection.canonicalTarget
  | replacePolicy .. => True
  | reconcile .. => False

theorem Transaction.Complete.desires {t : Transaction} (h : t.Complete) : t.desires = true := by
  cases t with
  | reconcile => cases h
  | _ => rfl

inductive Puts : List Projection → Book → Book → Prop
  | none (b : Book) : Puts [] b b
  | put {b b' b'' : Book} {p : Projection} {rest : List Projection} (at_ : Instant)
      (first : b.putProjection p at_ = .ok b') (later : Puts rest b' b'') : Puts (p :: rest) b b''

section Putting

variable {b b' b'' : Book} {p : Projection} {at_ updatedAt : Instant}

theorem putProjection_valid (h : b.putProjection p at_ = .ok b') : at_.unset = false :=
  (Book.putProjection_cases h).1

theorem isZero_of_valid (valid : at_.unset = false) : at_.isZero = false := by
  rw [Bool.eq_false_iff]
  intro zero
  rw [Instant.unset_of_isZero zero] at valid
  cases valid

theorem putProjection_time (valid : updatedAt.unset = false) (h : b.putProjection p at_ = .ok b') :
    b.putProjection p updatedAt = .ok b' := by
  have valid' := putProjection_valid h
  have zero := isZero_of_valid valid
  have zero' := isZero_of_valid valid'
  simpa only [Book.putProjection, projectionConstraints, valid, valid', zero, zero'] using h

theorem Puts.eq_of_nil (h : Puts [] b b') : b' = b := by
  cases h
  rfl

theorem Puts.foldlM {ps : List Projection} (h : Puts ps b b') (valid : updatedAt.unset = false) :
    ps.foldlM (fun b p => b.putProjection p updatedAt) b = .ok b' := by
  induction h with
  | none => rfl
  | put at_ first _ ih =>
    rw [List.foldlM_cons]
    exact bind_eq_ok.mpr ⟨_, putProjection_time valid first, ih⟩

end Putting

section Operations

variable {resolver : Resolver} {hash : Hash String} {digest : Hash (List String)}
variable {d d' : Docket} {nodeID : String} {at_ : Instant}

variable {target : Prefix} {changed referenced : Bool} {p : Projection} {g : Gathered}
  {requests : List (AutomaticRequest × Bool)} {b : Book}

theorem puts_rebuildProjection {force : Bool}
    (h : d.rebuildProjection nodeID target at_ force = .ok (p, changed, d')) :
    (changed = false ∧ force = false ∧ d'.book = d.book) ∨
      changed = true ∧ d.book.putProjection p at_ = .ok d'.book := by
  obtain ⟨_, _, _, _, _, _, ⟨same, force, _, _, rfl⟩ | ⟨same, stored, _⟩⟩ :=
    rebuildProjection_cases h
  · exact .inl ⟨same, force, rfl⟩
  · obtain ⟨book, put, rfl⟩ := putProjection_cases stored
    exact .inr ⟨same, put⟩

theorem canonicalTarget_rebuildProjection
    (h : d.rebuildProjection nodeID target at_ true = .ok (p, changed, d')) :
    p.canonicalTarget = target := by
  obtain ⟨_, _, _, _, _, made, ⟨_, force, _⟩ | ⟨_, _, outcome⟩⟩ := rebuildProjection_cases h
  · cases force
  simp only [aggregateProjection, bind_eq_ok] at made
  obtain ⟨_, _, _, _, _, _, _, _, made⟩ := made
  cases made
  obtain ⟨_, rfl⟩ | ⟨_, _, _, rfl⟩ := outcome <;> rfl

theorem puts_rebuildEach {targets : List Prefix} {projections : List Projection}
    (h : rebuildEach nodeID at_ targets d = .ok (projections, d')) :
    Puts projections d.book d'.book ∧ (projections ≠ [] → at_.unset = false) := by
  induction targets generalizing d projections with
  | nil =>
    cases h
    exact ⟨.none _, by simp⟩
  | cons target rest ih =>
    simp only [rebuildEach, bind_eq_ok] at h
    obtain ⟨⟨p, changed, middle⟩, one, ⟨others, last⟩, more, h⟩ := h
    cases h
    obtain ⟨_, force, _⟩ | ⟨_, put⟩ := puts_rebuildProjection one
    · cases force
    · exact ⟨.put at_ put (ih more).1, fun _ => putProjection_valid put⟩

theorem book_insertRow {inserted : Bool} {row : DecisionRow}
    (h : d.insertRow referenced row = .ok (inserted, d')) : d'.book = d.book := by
  obtain ⟨_, rfl⟩ | ⟨_, s, _, rfl, _⟩ := insertRow_cases h <;> rfl

theorem book_audit {audit : DecisionAudit} (h : d.appendCriticalAudit audit = .ok d') :
    d'.book = d.book := by rw [appendCriticalAudit_cases h]

theorem puts_recordAutomatic {r : AutomaticRequest} {result : AutomaticResult}
    (h : recordAutomaticInTransaction hash digest referenced r d = .ok (result, d')) :
    (result.projection = none ∧ d'.book = d.book) ∨
      ∃ p, result.projection = some p ∧ d.book.putProjection p r.triggeredAt = .ok d'.book := by
  obtain ⟨d1, p, changed, d2, same, ⟨_, _, one, two, three⟩ | ⟨_, _, _, one, two, three⟩⟩ :=
    recordAutomatic_cases h
  · rw [same, book_audit three, ← book_insertRow one]
    obtain ⟨_, force, _⟩ | ⟨rfl, put⟩ := puts_rebuildProjection two
    · cases force
    · exact .inr ⟨p, rfl, put⟩
  · obtain ⟨_, s, _, _, _, _, rfl, _⟩ := suppressAutomaticDecision_cases one
    rw [same, book_audit three]
    obtain ⟨rfl, _, same⟩ | ⟨rfl, put⟩ := puts_rebuildProjection two
    · exact .inl ⟨rfl, same⟩
    · exact .inr ⟨p, rfl, put⟩

def Gathered.Timed (g : Gathered) : Prop :=
  g.projections = [] ∧ g.lastUpdatedAt = .zero ∨ g.lastUpdatedAt.unset = false

theorem Gathered.Timed.step (timed : g.Timed) (p : Projection) {at_ : Instant}
    (valid : at_.unset = false) :
    Gathered.Timed
      { projections := g.projections ++ [p]
        lastUpdatedAt := if at_.after g.lastUpdatedAt then at_ else g.lastUpdatedAt } := by
  refine .inr ?_
  dsimp only
  split
  · exact valid
  · rename_i early
    obtain ⟨_, zero⟩ | timed := timed
    · -- every valid time is after the zero time
      have late : ¬ at_.wall / 1000 ≤ 0 := of_decide_eq_false valid
      simp [zero, Instant.after, Instant.zero, second] at early
      omega
    · exact timed

theorem puts_recordEach {g' : Gathered} (timed : g.Timed)
    (h : recordEach hash digest requests g d = .ok (g', d')) :
    ∃ ps, g'.projections = g.projections ++ ps ∧ Puts ps d.book d'.book ∧ g'.Timed := by
  induction requests generalizing g d with
  | nil =>
    cases h
    exact ⟨[], by simp, .none _, timed⟩
  | cons request rest ih =>
    obtain ⟨r, referenced⟩ := request
    simp only [recordEach, bind_eq_ok] at h
    obtain ⟨⟨result, middle⟩, one, h⟩ := h
    obtain ⟨none_, same⟩ | ⟨p, some_, put⟩ := puts_recordAutomatic one
    · simp only [none_] at h
      obtain ⟨ps, all, puts, timed'⟩ := ih timed h
      rw [same] at puts
      exact ⟨ps, all, puts, timed'⟩
    · simp only [some_] at h
      obtain ⟨ps, all, puts, timed'⟩ := ih (timed.step p (putProjection_valid put)) h
      refine ⟨p :: ps, ?_, .put _ put puts, timed'⟩
      rw [all]
      simp

theorem attempt_decision {ps affected : List Projection} {book : Book} (puts : Puts ps b book)
    (valid : at_.unset = false) {book' : Book} (h : finalize resolver affected at_ book = .ok book')
    :
    (Transaction.decision ps affected at_).attempt resolver hash b = .ok book' := by
  simp only [Transaction.attempt]
  exact bind_eq_ok.mpr ⟨book, puts.foldlM valid, h⟩

theorem finalize_nil {b' : Book} (h : finalize resolver [] at_ b = .ok b') : b' = b := by
  simp only [finalize, materialize, bind_eq_ok, List.map_nil, List.dedup_nil, List.mergeSort_nil,
    materializeEach] at h
  obtain ⟨_, ⟨_, _, _, _, each⟩, unchanged⟩ := h
  cases each
  cases unchanged
  rfl

theorem complete_nothing : (Transaction.decision [] [] (.ofMicro 1)).Complete :=
  fun _ put => absurd put List.not_mem_nil

theorem commit_nothing (b : Book) :
    (Transaction.decision [] [] (.ofMicro 1)).commit resolver hash b = b := by
  have time : (Instant.ofMicro 1).isZero = false := by decide
  simp [Transaction.commit, Transaction.attempt, finalize, materialize, materializeEach, reject,
    time, bind, Except.bind, pure, Except.pure]

theorem book_process (h : processDecisions resolver hash digest requests d = .ok d') :
    ∃ t : Transaction, t.Complete ∧ t.commit resolver hash d.book = d'.book := by
  obtain ⟨gathered, middle, one, outcome⟩ := process_cases h
  obtain ⟨ps, all, puts, timed⟩ := puts_recordEach (.inl ⟨rfl, rfl⟩) one
  rw [List.nil_append] at all
  obtain ⟨empty, rfl⟩ | ⟨some_, h⟩ := outcome
  · rw [← all, empty] at puts
    exact ⟨_, complete_nothing, (commit_nothing _).trans puts.eq_of_nil.symm⟩
  · obtain ⟨none_, _⟩ | valid := timed
    · exact absurd none_ some_
    · obtain ⟨final, _⟩ := finalizeTargets_cases h
      refine ⟨.decision ps gathered.projections gathered.lastUpdatedAt, ?_, ?_⟩
      · rw [all]
        exact fun p put => List.mem_map_of_mem put
      simp only [Transaction.commit, attempt_decision puts valid final]

theorem book_ban {r : ManualRequest} {replace : Bool} (keyed : Keyed d.book)
    (h : banManual resolver digest nodeID r replace d = .ok d') :
    ∃ t : Transaction, t.Complete ∧ t.commit resolver hash d.book = d'.book := by
  obtain ⟨_, d1, d2, p, changed, last, q, statements, read, h⟩ := ban_cases h
  have rebuilt : p.canonicalTarget = r.target ∧
      d.book.putProjection p r.createdAt = .ok last.book := by
    obtain ⟨one, two, three⟩ | ⟨_, _, d3, _, one, two, three, four⟩ := statements
    · rw [book_audit three, ← book_insertRow one]
      obtain ⟨_, force, _⟩ | ⟨_, put⟩ := puts_rebuildProjection two
      · cases force
      · exact ⟨canonicalTarget_rebuildProjection two, put⟩
    · obtain ⟨_, s, _, _, _, _, rfl, _⟩ := revokeActiveManualDecision_cases one
      have audited : d2.book = (d.put s).book := book_audit two
      rw [show d.book = d3.book from ((book_insertRow three).trans audited).symm]
      obtain ⟨_, force, _⟩ | ⟨_, put⟩ := puts_rebuildProjection four
      · cases force
      · exact ⟨canonicalTarget_rebuildProjection four, put⟩
  obtain ⟨own, put⟩ := rebuilt
  obtain ⟨final, _⟩ := finalizeTargets_cases h
  refine ⟨.decision [p] [q] r.createdAt, ?_, ?_⟩
  · have listed := (Option.filter_eq_some_iff.mp (findDecisionProjection_cases read).symm).1
    have there : q.canonicalTarget = r.target :=
      (putProjection_keyed keyed put).1.projections _ _ listed
    simp [Transaction.Complete, own, there]
  have puts : Puts [p] d.book last.book := .put _ put (.none _)
  simp only [Transaction.commit, attempt_decision puts (putProjection_valid put) final]

theorem book_expireRows {rows : List DecisionRow} {values : List Decision}
    (h : Docket.expireRows nodeID at_ rows d = .ok (values, d')) : d'.book = d.book := by
  induction rows generalizing d values with
  | nil =>
    cases h
    rfl
  | cons row rest ih =>
    simp only [Docket.expireRows, bind_eq_ok] at h
    obtain ⟨⟨value, middle⟩, one, ⟨others, last⟩, more, h⟩ := h
    cases h
    have swept := ih more
    obtain ⟨_, s, _, _, _, _, _, rfl, _⟩ := expireRow_cases one
    exact swept

theorem book_expire (h : expire resolver digest nodeID at_ d = .ok d') :
    ∃ t : Transaction, t.Complete ∧ t.commit resolver hash d.book = d'.book := by
  obtain ⟨_, _, due, d1, d2, ps, d3, one, two, three, h⟩ := expire_cases h
  obtain ⟨puts, valid⟩ := puts_rebuildEach three
  have audited : d2.book = d1.book := by rw [auditEach_cases two]
  have swept : d2.book = d.book := audited.trans (book_expireRows one)
  rw [swept] at puts
  obtain ⟨final, _⟩ := finalizeTargets_cases h
  cases ps with
  | nil =>
    have same : d'.book = d3.book := finalize_nil final
    exact ⟨_, complete_nothing, (commit_nothing _).trans (same.trans puts.eq_of_nil).symm⟩
  | cons p rest =>
    refine ⟨.decision (p :: rest) (p :: rest) at_, fun p put => List.mem_map_of_mem put, ?_⟩
    simp only [Transaction.commit, attempt_decision puts (valid (by simp)) final]

theorem book_commit (op : Operation) (d : Docket) (keyed : Keyed d.book) :
    ∃ t : Transaction, t.Complete ∧
      t.commit resolver hash d.book = (op.commit resolver hash digest d).book := by
  unfold Operation.commit
  split
  · rename_i after done
    cases op with
    | process requests => exact book_process done
    | ban nodeID request replace => exact book_ban keyed done
    | expire nodeID now => exact book_expire done
    | replacePolicy expectedRevision policy updatedAt =>
      simp only [Operation.attempt, bind_eq_ok] at done
      obtain ⟨book, replaced, done⟩ := done
      cases done
      refine ⟨.replacePolicy expectedRevision policy updatedAt, trivial, ?_⟩
      simp only [Transaction.commit, Transaction.attempt, replaced]
  · exact ⟨_, complete_nothing, commit_nothing _⟩

end Operations

section Resolving

variable {resolver : Resolver} {hash : Hash String} {updatedAt : Instant} {b b' : Book}

def ResolvedAt (resolver : Resolver) (b : Book) (t : Prefix) : Prop :=
  ∀ p, b.projections.lookup t = some p → ∃ i policy, intent? b.db t = some i ∧
    i.validate = .ok () ∧ resolver b.db.policy p = .ok policy ∧
    i.equivalent (resolvedIntent p policy i.generation) = true

variable {t : Prefix} {changed : Bool}

theorem ResolvedAt.of_same (h : ResolvedAt resolver b t)
    (projections : b'.projections.lookup t = b.projections.lookup t)
    (intents : intent? b'.db t = intent? b.db t) (policy : b'.db.policy = b.db.policy) :
    ResolvedAt resolver b' t := by
  intro p listed
  rw [intents, policy]
  exact h p (projections.symm.trans listed)

theorem resolvedAt_materializeTarget {target : Prefix} (standing : Standing b)
    (h : materializeTarget resolver updatedAt target b = .ok (changed, b')) :
    ResolvedAt resolver b' target ∧
      ∀ t, ResolvedAt resolver b t → ResolvedAt resolver b' t := by
  have final := finalized_materializeTarget standing h
  obtain ⟨projections, _⟩ := materializeTarget_rest h
  have here : ResolvedAt resolver b' target := by
    intro p listed
    obtain ⟨projection, policy, listed', resolved, outcome⟩ :=
      materializeTarget_cases standing.keyed h
    rw [projections, listed'] at listed
    cases listed
    obtain ⟨_, rfl, old, found, valid, same⟩ | ⟨_, i, valid, shape, _, _, _, _, _, rfl⟩ := outcome
    · exact ⟨old, policy, found, valid, resolved, same⟩
    · have stored := persistIntent_resolvedIntent policy i.generation
        (standing.stored target p listed')
      rw [← shape] at stored
      refine ⟨i, policy, ?_, valid, resolved, ?_⟩
      · rw [intent?_write, if_pos rfl, stored]
      · rw [← shape]
        exact equivalent_refl i
  refine ⟨here, fun t before => ?_⟩
  by_cases same : t = target
  · rw [same]
    exact here
  · obtain rests | ⟨member, _⟩ := final.each t
    · exact before.of_same (by rw [projections]) rests.1 final.policy
    · exact absurd (List.mem_singleton.mp member) same

theorem resolvedAt_materializeEach {targets : List Prefix} (standing : Standing b)
    (h : materializeEach resolver updatedAt targets b = .ok (changed, b')) :
    (∀ t ∈ targets, ResolvedAt resolver b' t) ∧
      ∀ t, ResolvedAt resolver b t → ResolvedAt resolver b' t := by
  induction targets generalizing b changed with
  | nil =>
    cases h
    exact ⟨by simp, fun _ before => before⟩
  | cons target rest ih =>
    simp only [materializeEach, bind_eq_ok] at h
    obtain ⟨⟨first, middle⟩, one, ⟨later, last⟩, others, h⟩ := h
    cases h
    obtain ⟨here, kept⟩ := resolvedAt_materializeTarget standing one
    obtain ⟨each, kept'⟩ := ih (finalized_materializeTarget standing one).standing others
    refine ⟨?_, fun t before => kept' t (kept t before)⟩
    rintro t (_ | ⟨_, member⟩)
    · exact kept' target here
    · exact each t member

theorem resolvedAt_materialize {affected : List Projection} (standing : Standing b)
    (h : materialize resolver affected updatedAt b = .ok (changed, b')) :
    ∀ t, t ∈ affected.map Projection.canonicalTarget ∨ ResolvedAt resolver b t →
      ResolvedAt resolver b' t := by
  obtain ⟨targets, _, all, h⟩ := materialize_cases h
  obtain ⟨each, kept⟩ := resolvedAt_materializeEach standing h
  rintro t (member | before)
  · exact each t ((all t).mpr member)
  · exact kept t before

theorem resolvedAt_puts {ps : List Projection}
    (h : ps.foldlM (fun b p => b.putProjection p updatedAt) b = .ok b')
    (before : ResolvedAt resolver b t) :
    (∃ p ∈ ps, p.canonicalTarget = t) ∨ ResolvedAt resolver b' t := by
  induction ps generalizing b with
  | nil =>
    cases h
    exact .inr before
  | cons p rest ih =>
    rw [List.foldlM_cons] at h
    obtain ⟨middle, one, h⟩ := bind_eq_ok.mp h
    by_cases here : p.canonicalTarget = t
    · exact .inl ⟨p, List.mem_cons_self, here⟩
    · obtain ⟨lookup, db, _⟩ := putProjection_lookup one
      have other : middle.projections.lookup t = b.projections.lookup t := by
        rw [lookup, if_neg (Ne.symm here)]
      obtain ⟨q, member, own⟩ | after := ih h (before.of_same other (by rw [db]) (by rw [db]))
      · exact .inl ⟨q, .tail _ member, own⟩
      · exact .inr after

theorem resolved_commit {t : Transaction} (standing : Standing b) (complete : t.Complete)
    (before : ∀ target, ResolvedAt resolver b target) :
    ∀ target, ResolvedAt resolver (t.commit resolver hash b) target := by
  unfold Transaction.commit
  split
  · rename_i after done
    cases t with
    | reconcile => cases complete
    | decision rebuilt affected updatedAt =>
      simp only [Transaction.attempt, bind_eq_ok] at done
      obtain ⟨middle, written, done⟩ := done
      obtain ⟨changed, made, final, outcome⟩ := finalize_cases done
      have projected : Standing middle :=
        foldlM_eq_ok (fun _ middle => Standing middle)
          (fun _ p _ _ before step => (standing_putProjection before step).1)
          rebuilt [] b middle standing written
      have resolved : ∀ target, ResolvedAt resolver made target := by
        intro target
        refine resolvedAt_materialize projected final target ?_
        obtain ⟨p, member, rfl⟩ | kept := resolvedAt_puts written (before target)
        · exact .inl (complete p member)
        · exact .inr kept
      obtain ⟨_, rfl⟩ | ⟨_, rfl⟩ := outcome
      · exact resolved
      · exact fun target => (resolved target).of_same rfl rfl rfl
    | replacePolicy expectedRevision policy updatedAt =>
      obtain ⟨_, ⟨_, rfl⟩ | ⟨_, middle, _, made, rfl⟩⟩ := replace_cases done
      · exact before
      intro target p listed
      obtain ⟨projections, _⟩ := materialize_rest made
      have resolved := resolvedAt_materialize (standing.withPolicy policy) made target (.inl ?_)
      · exact resolved p listed
      · dsimp only at listed
        rw [projections] at listed
        have own := standing.keyed.projections target p listed
        rw [List.map_map]
        exact List.mem_map.mpr ⟨(target, p), Table.mem_rows.mpr listed, own⟩
  · exact before

structure Book.Kept (resolver : Resolver) (b : Book) : Prop where
  standing : Standing b
  bounded : Bounded b.db
  resolved : ∀ target, ResolvedAt resolver b target

theorem kept_run {digest : Hash (List String)} {d : Docket} (ops : List Operation)
    (first : d.book.Kept resolver) : (Docket.run resolver hash digest d ops).book.Kept resolver := by
  induction ops generalizing d with
  | nil => exact first
  | cons op rest ih =>
    obtain ⟨t, complete, same⟩ := @book_commit resolver hash digest op d first.standing.keyed
    refine ih ?_
    rw [← same]
    have transacted := @transacted_commit resolver hash d.book t first.standing complete.desires
    exact ⟨transacted.standing, transacted.bounded first.bounded,
      resolved_commit first.standing complete first.resolved⟩

theorem kept_empty (nodeID : String) : Book.Kept resolver ⟨{ nodeID := nodeID }, ∅⟩ := by
  refine ⟨standing_fresh nodeID, by rintro t i ⟨⟩, ?_⟩
  rintro target p ⟨⟩

end Resolving

end GuardWall.Decision
