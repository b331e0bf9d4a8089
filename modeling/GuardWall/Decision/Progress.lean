import GuardWall.Decision.PolicyResolution

/-! What the steps of a Decision transaction need to go through: ending due rows, auditing them,
rebuilding projections and finalizing targets. -/
namespace GuardWall.Decision

open GuardWall.Core GuardWall.Foundation GuardWall.Store

section Finalizing

variable {resolver : Resolver} {updatedAt : Instant} {b b' : Book} {target : Prefix}

structure TargetPolicy.Usable (policy : TargetPolicy) : Prop where
  scopes : (policy.scopes == 0#8 || unsupportedScope policy.scopes) = false
  attributes : policy.backendAttributesDigest.length = 64
  relation : policy.coverage = .none ∧ policy.relationDigest = "" ∨
    policy.coverage ≠ .none ∧ policy.relationDigest.length = 64

variable {p : Projection} {policy : TargetPolicy} {generation : Nat} {i : Intent} {db : Database}

theorem resolvedIntent_valid (valid : p.validate = .ok ()) (usable : policy.Usable)
    (positive : 0 < generation) :
    (resolvedIntent p policy generation).validate = .ok () := by
  simp only [Projection.validate, bind_eq_ok, reject_eq_ok] at valid
  obtain ⟨_, node, _, canonical, _, _, valid⟩ := valid
  have scopes := usable.scopes
  cases state : p.state with
  | absent =>
    simp [Intent.validate, resolvedIntent, node, canonical, scopes, state, reject,
      positive.ne', bind, Except.bind]
  | present =>
    simp only [state, bind_eq_ok, reject_eq_ok] at valid
    obtain ⟨_, _, time⟩ := valid
    cases until_ : p.effectiveUntil with
    | none =>
      simp [Intent.validate, resolvedIntent, node, canonical, scopes, state, reject, until_,
        positive.ne', bind, Except.bind]
    | some t =>
      simp only [until_, Option.any_some] at time
      simp [Intent.validate, resolvedIntent, node, canonical, scopes, state, reject, until_, time,
        positive.ne', bind, Except.bind]

theorem enforcementConstraints_resolvedIntent (generation : Nat) (usable : policy.Usable)
    (short : 3 ≤ p.canonicalTarget.toText.length ∧ p.canonicalTarget.toText.length ≤ 64) :
    enforcementConstraints (resolvedIntent p policy generation) = .ok () := by
  have relation := usable.relation
  have digest := usable.attributes
  simp only [enforcementConstraints, bind_eq_ok, reject_eq_ok]
  refine ⟨(), ?_, (), by simp [resolvedIntent, digest], ?_⟩
  · have short' : 3 ≤ (resolvedIntent p policy generation).canonicalTarget.toText.length ∧
        (resolvedIntent p policy generation).canonicalTarget.toText.length ≤ 64 := short
    simp only [Bool.or_eq_false_iff, decide_eq_false_iff_not]
    omega
  simp only [resolvedIntent]
  cases p.state with
  | absent => simp
  | present => obtain ⟨none_, empty⟩ | ⟨some_, full⟩ := relation <;> simp_all

structure Able (resolver : Resolver) (b : Book) (target : Prefix) : Prop where
  projected : ∃ p, b.projections.lookup target = some p ∧ p.validate = .ok () ∧
    p.nodeID = b.db.nodeID ∧ ∃ policy, resolver b.db.policy p = .ok policy ∧ policy.Usable
  intended : ∃ old, intent? b.db target = some old ∧ old.validate = .ok () ∧
    old.nodeID = b.db.nodeID ∧ old.generation < maxInt64
  bounded : ∀ old, intent? b.db target = some old →
    ∀ g ∈ recordedGenerations b.db target, g ≤ old.generation
  short : 3 ≤ target.toText.length ∧ target.toText.length ≤ 64

theorem generation_pos_of_valid (valid : i.validate = .ok ()) : 0 < i.generation := by
  simp only [Intent.validate, bind_eq_ok, reject_eq_ok, beq_eq_false_iff_ne] at valid
  obtain ⟨_, _, _, _, _, positive, _⟩ := valid
  exact Nat.pos_of_ne_zero positive

theorem putTargetEnforcementIntent_newer {row : EnforcementRow} (valid : i.validate = .ok ())
    (most : i.generation ≤ maxInt64) (constraints : enforcementConstraints i = .ok ())
    (node : i.nodeID = db.nodeID) (there : db.enforcement.lookup i.canonicalTarget = some row)
    (newer : row.intent.generation < i.generation) :
    putTargetEnforcementIntent i db = .ok { db with
      enforcement := db.enforcement.insert i.canonicalTarget ⟨persistIntent i, row.observed⟩ } := by
  simp only [putTargetEnforcementIntent, bind_eq_ok, within_eq_ok, reject_eq_ok]
  refine ⟨(), valid, (), decide_eq_false (not_lt.mpr most), (), constraints, (), by simp [node], ?_⟩
  simp only [there]
  rw [if_pos newer]
  rfl

theorem resetTargetReconcileState_succeeds {nodeID : String} (positive : 0 < generation)
    (most : generation ≤ maxInt64) (valid : updatedAt.unset = false)
    (short : 3 ≤ target.toText.length ∧ target.toText.length ≤ 64) (node : nodeID = db.nodeID)
    (bounded : ∀ held, db.row? (.target target) = some held → held.version < generation) :
    resetTargetReconcileState nodeID target generation updatedAt db = .ok { db with
      ledger := db.ledger.insert (.target target)
        (pendingRow generation (((db.row? (.target target)).map StateRow.epoch).getD 0)
          updatedAt) } := by
  have inside : (generation == 0 || decide (maxInt64 < generation)) = false := by
    simp [positive.ne', most]
  have text : (decide (target.toText.length < 3) || decide (64 < target.toText.length)) = false := by
    simp only [Bool.or_eq_false_iff, decide_eq_false_iff_not]
    omega
  cases recorded : db.row? (.target target) with
  | none =>
    simp only [resetTargetReconcileState, bind_eq_ok, reject_eq_ok, recorded]
    exact ⟨(), inside, (), valid, (), text, (), by simp [node], rfl⟩
  | some held =>
    have newer := bounded held recorded
    simp only [resetTargetReconcileState, bind_eq_ok, reject_eq_ok, recorded]
    exact ⟨(), inside, (), valid, (), text, (), by simp [node], (), by simpa using newer, rfl⟩

theorem materializeTarget_succeeds (standing : Standing b) (able : Able resolver b target)
    (valid : updatedAt.unset = false) :
    ∃ made, materializeTarget resolver updatedAt target b = .ok made := by
  obtain ⟨p, listed, checked, node, policy, resolved, usable⟩ := able.projected
  obtain ⟨old, found, oldValid, oldNode, below⟩ := able.intended
  have own := standing.keyed.projections target p listed
  have oldOwn := standing.keyed.intents target old found
  have positive := generation_pos_of_valid oldValid
  have stored : ∃ row, b.db.enforcement.lookup target = some row ∧ row.intent = old :=
    Option.map_eq_some_iff.mp found
  obtain ⟨row, there, rfl⟩ := stored
  have next := resolvedIntent_valid checked usable (Nat.succ_pos row.intent.generation)
  have bounded : ∀ held, b.db.row? (.target target) = some held →
      held.version < row.intent.generation + 1 := by
    intro held recorded
    refine Nat.lt_succ_of_le (able.bounded row.intent found held.version ?_)
    simp [recordedGenerations, recorded]
  have constraints : enforcementConstraints (resolvedIntent p policy (row.intent.generation + 1)) =
      .ok () :=
    enforcementConstraints_resolvedIntent _ usable (by rw [own]; exact able.short)
  by_cases same : row.intent.equivalent (resolvedIntent p policy row.intent.generation) = true
  · have resolves : resolveTarget p policy (some row.intent) =
        .ok (resolvedIntent p policy row.intent.generation, false) := by
      simp [resolveTarget, bind_eq_ok, checked, usable.scopes, oldValid, oldNode, node, oldOwn, own,
        same, resolvedIntent_valid checked usable positive, pure, Except.pure]
    refine ⟨(false, b), ?_⟩
    simp [materializeTarget, listed, there, resolved, resolves, bind_eq_ok, pure, Except.pure]
  · have resolves : resolveTarget p policy (some row.intent) =
        .ok (resolvedIntent p policy (row.intent.generation + 1), true) := by
      have most : row.intent.generation ≠ maxUint64 := by
        unfold maxInt64 at below
        unfold maxUint64
        omega
      simp only [resolveTarget, bind_eq_ok, within_eq_ok, reject_eq_ok]
      refine ⟨(), checked, (), usable.scopes, (), oldValid, (), by simp [oldNode, node, oldOwn, own],
        ?_⟩
      rw [if_neg same]
      exact bind_eq_ok.mpr ⟨(), by simp [most], bind_eq_ok.mpr ⟨(), within_eq_ok.mpr next, rfl⟩⟩
    have put := putTargetEnforcementIntent_newer next below constraints node
      (by rw [show Intent.canonicalTarget _ = target from own]; exact there) (Nat.lt_succ_self _)
    rw [show Intent.canonicalTarget _ = target from own] at put
    obtain ⟨db, reset⟩ : ∃ db, resetTargetReconcileState p.nodeID target (row.intent.generation + 1)
        updatedAt { b.db with
          enforcement := b.db.enforcement.insert target
            ⟨persistIntent (resolvedIntent p policy (row.intent.generation + 1)), row.observed⟩ } =
          .ok db :=
      ⟨_, resetTargetReconcileState_succeeds (Nat.succ_pos _) below valid able.short node bounded⟩
    refine ⟨(true, { b with db := db }), ?_⟩
    simp only [materializeTarget, listed, there, Option.map_some, resolved, bind_eq_ok,
      within_eq_ok, Except.ok.injEq]
    refine ⟨policy, rfl, _, resolves, ?_⟩
    simp only [Bool.not_true, Bool.false_eq_true, if_false, bind_eq_ok, reject_eq_ok]
    refine ⟨_, rfl, (), ?_, _, put, db, reset, rfl⟩
    exact decide_eq_false (not_lt.mpr below)

theorem Able.of_rests {t : Prefix} (able : Able resolver b t) (rests : Rests b.db b'.db t)
    (projections : b'.projections = b.projections) (node : b'.db.nodeID = b.db.nodeID)
    (policy : b'.db.policy = b.db.policy) : Able resolver b' t := by
  refine ⟨?_, ?_, ?_, able.short⟩
  · rw [projections, node, policy]
    exact able.projected
  · rw [rests.1, node]
    exact able.intended
  · rw [rests.1, rests.2]
    exact able.bounded

theorem materializeEach_succeeds {targets : List Prefix} (standing : Standing b)
    (distinct : targets.Nodup) (able : ∀ t ∈ targets, Able resolver b t)
    (valid : updatedAt.unset = false) :
    ∃ made, materializeEach resolver updatedAt targets b = .ok made := by
  induction targets generalizing b with
  | nil => exact ⟨_, rfl⟩
  | cons target rest ih =>
    obtain ⟨fresh, distinct⟩ := List.nodup_cons.mp distinct
    obtain ⟨⟨first, middle⟩, one⟩ :=
      materializeTarget_succeeds standing (able target List.mem_cons_self) valid
    have final := finalized_materializeTarget standing one
    obtain ⟨projections, node⟩ := materializeTarget_rest one
    obtain ⟨⟨later, last⟩, others⟩ := ih final.standing distinct fun t member => by
      have other : t ≠ target := fun same => fresh (same ▸ member)
      obtain rests | ⟨here, _⟩ := final.each t
      · exact (able t (.tail _ member)).of_rests rests projections node final.policy
      · exact absurd (List.mem_singleton.mp here) other
    exact ⟨(first || later, last), by
      simp only [materializeEach, bind_eq_ok]
      exact ⟨_, one, _, others, rfl⟩⟩

theorem finalize_succeeds {affected : List Projection} (standing : Standing b)
    (able : ∀ p ∈ affected, Able resolver b p.canonicalTarget ∧ p.validate = .ok ())
    (valid : updatedAt.isZero = false) (timed : affected ≠ [] → updatedAt.unset = false)
    (below : b.db.snapshotRevision < maxInt64) :
    ∃ b', finalize resolver affected updatedAt b = .ok b' := by
  obtain ⟨⟨changed, middle⟩, made⟩ : ∃ made, materialize resolver affected updatedAt b = .ok made := by
    have checked : (affected.forM fun p => within "validate affected projection" p.validate) =
        .ok () := by
      induction affected with
      | nil => rfl
      | cons p rest ih =>
        refine bind_eq_ok.mpr ⟨(), within_eq_ok.mpr (able p List.mem_cons_self).2, ?_⟩
        exact ih (fun q member => able q (.tail _ member)) fun _ => timed (by simp)
    have each : ∃ made, materializeEach resolver updatedAt
        ((affected.map Projection.canonicalTarget).dedup.mergeSort
          fun s t => decide (s.toText ≤ t.toText)) b = .ok made := by
      cases affected with
      | nil => exact ⟨(false, b), by simp [materializeEach]⟩
      | cons p rest =>
        refine materializeEach_succeeds standing
          ((List.mergeSort_perm _ _).nodup_iff.mpr (List.nodup_dedup _)) ?_ (timed (by simp))
        intro t member
        rw [List.mem_mergeSort, List.mem_dedup, List.mem_map] at member
        obtain ⟨q, inside, rfl⟩ := member
        exact (able q inside).1
    obtain ⟨made, each⟩ := each
    refine ⟨made, ?_⟩
    simp only [materialize, bind_eq_ok, reject_eq_ok]
    exact ⟨(), valid, (), checked, each⟩
  obtain ⟨targets, final⟩ := finalized_materialize standing made
  cases changed with
  | false =>
    refine ⟨middle, ?_⟩
    simp only [finalize, bind_eq_ok]
    exact ⟨_, made, rfl⟩
  | true =>
    refine ⟨{ middle with db := { middle.db with
      snapshotRevision := middle.db.snapshotRevision + 1 } }, ?_⟩
    simp only [finalize, bind_eq_ok]
    refine ⟨_, made, ?_⟩
    simp only [Bool.not_true, Bool.false_eq_true, if_false, advanceSnapshotRevision, bind_eq_ok,
      reject_eq_ok, decide_eq_false_iff_not, not_le]
    exact ⟨_, ⟨(), by rw [final.snapshot]; exact below, rfl⟩, rfl⟩

end Finalizing

section Rows

variable {d d' : Docket} {nodeID : String} {now : Instant} {r : DecisionRow}

def DecisionRow.swept (nodeID : String) (us : Int) (r : DecisionRow) : DecisionRow :=
  if r.due nodeID us then r.ended us .expired .expired else r

theorem checked_ended {us : Int} (checked : r.Checked) (due : r.due nodeID us = true) :
    (r.ended us .expired .expired).Checked := by
  obtain ⟨_, _, e, expires, le⟩ := due_cases due
  have after : r.createdUS ≤ us := (checked.expires e expires).trans le
  refine ⟨checked.idLength, checked.targetLength, checked.created, after, checked.lastTriggered,
    checked.source, rfl, by simp [DecisionRow.ended], by simp [DecisionRow.ended], checked.expires,
    ?_⟩
  rintro _ ⟨⟩
  exact after

theorem genuine_ended {us : Int} (genuine : r.Genuine) (due : r.due nodeID us = true) :
    (r.ended us .expired .expired).Genuine := by
  obtain ⟨_, _, e, expires, le⟩ := due_cases due
  exact ⟨genuine.node, genuine.target, genuine.rule, fun _ => ⟨e, us, expires, rfl, le⟩⟩

theorem expireRow_succeeds (sound : d.Sound) (held : d.row? r.id = some r)
    (due : r.due nodeID now.unixMicro = true) :
    ∃ s : StoredDecision, s.row = r.ended now.unixMicro .expired .expired ∧
      d.expireRow nodeID now r = .ok (s.row.decision, d.put s) := by
  obtain ⟨node, active, _⟩ := due_cases due
  have checked := checked_ended (checked_of_row? held) due
  have reads := decisionFromRow_eq checked (genuine_ended (sound.genuine _ _ held) due)
  refine ⟨⟨_, checked⟩, rfl, ?_⟩
  have hit : (some r).filter (fun q =>
      q.nodeID == nodeID && q.state == .active && q.expiresUS == r.expiresUS) = some r := by
    simp [Option.filter, node, active]
  simp only [Docket.expireRow, held, hit, bind_eq_ok, within_eq_ok]
  exact ⟨_, checkRow_succeeds checked, _, reads, rfl⟩

theorem expireRows_succeeds {rows : List DecisionRow} (sound : d.Sound)
    (distinct : (rows.map DecisionRow.id).Nodup)
    (held : ∀ r ∈ rows, d.row? r.id = some r ∧ r.due nodeID now.unixMicro = true) :
    ∃ d', d.expireRows nodeID now rows =
        .ok (rows.map fun r => (r.ended now.unixMicro .expired .expired).decision, d') ∧
      d'.book = d.book ∧ d'.audits = d.audits ∧ d'.Sound ∧
      ∀ id, d'.row? id = (d.row? id).map fun r =>
        if r ∈ rows then r.ended now.unixMicro .expired .expired else r := by
  induction rows generalizing d with
  | nil => exact ⟨d, rfl, rfl, rfl, sound, by simp⟩
  | cons row rest ih =>
    obtain ⟨fresh, distinct⟩ := List.nodup_cons.mp distinct
    obtain ⟨here, due⟩ := held row List.mem_cons_self
    obtain ⟨s, same, one⟩ := expireRow_succeeds sound here due
    have sameID : s.row.id = row.id := by rw [same]; rfl
    have sound' : (d.put s).Sound :=
      (edits_expireRow sound due one).sound sound
    have others : ∀ r ∈ rest, r.id ≠ row.id := fun r member same =>
      fresh (List.mem_map.mpr ⟨r, member, same⟩)
    obtain ⟨d', more, book, audits, sound'', rows⟩ := ih sound' distinct fun r member => by
      obtain ⟨there, due⟩ := held r (.tail _ member)
      rw [row?_put, if_neg (by rw [sameID]; exact others r member)]
      exact ⟨there, due⟩
    refine ⟨d', ?_, book, audits, sound'', fun id => ?_⟩
    · simp only [Docket.expireRows, bind_eq_ok]
      refine ⟨_, one, _, more, ?_⟩
      rw [same]
      rfl
    · rw [rows id, row?_put]
      by_cases at_ : id = s.row.id
      · rw [if_pos at_, at_, sameID, here]
        have ended : s.row ∉ rest := fun member => others _ member sameID
        rw [Option.map_some, if_neg ended, Option.map_some, if_pos List.mem_cons_self, same]
      · rw [if_neg at_]
        cases found : d.row? id with
        | none => rfl
        | some r =>
          have other : r ≠ row := by
            rintro rfl
            exact at_ ((sound.filed id r found).symm.trans sameID.symm)
          simp [other]

theorem expireDueActiveDecisions_succeeds (now : Instant) (sound : d.Sound) (some_ : nodeID ≠ "")
    (home : d.book.db.nodeID = nodeID) :
    ∃ d', d.expireDueActiveDecisions nodeID now =
        .ok ((d.allRows.filter (·.due nodeID now.unixMicro)).map
          (fun r => (r.ended now.unixMicro .expired .expired).decision), d') ∧
      d'.book = d.book ∧ d'.audits = d.audits ∧ d'.Sound ∧
      ∀ id, d'.row? id = (d.row? id).map (·.swept nodeID now.unixMicro) := by
  have held : ∀ r ∈ d.allRows.filter (·.due nodeID now.unixMicro),
      d.row? r.id = some r ∧ r.due nodeID now.unixMicro = true := by
    intro r member
    obtain ⟨stored, due⟩ := List.mem_filter.mp member
    obtain ⟨id, found⟩ := mem_allRows.mp stored
    rw [sound.filed id r found]
    exact ⟨found, due⟩
  obtain ⟨d', swept, book, audits, sound', rows⟩ := expireRows_succeeds sound
    ((nodup_allRows_ids sound).sublist (List.filter_sublist.map _)) held
  refine ⟨d', ?_, book, audits, sound', fun id => ?_⟩
  · simp only [Docket.expireDueActiveDecisions, within_eq_ok, bind_eq_ok, reject_eq_ok]
    exact ⟨(), by simp [some_], (), by simp [home], swept⟩
  · rw [rows id]
    cases found : d.row? id with
    | none => rfl
    | some r =>
      have stored : r ∈ d.allRows := mem_allRows.mpr ⟨id, found⟩
      simp [DecisionRow.swept, stored]

end Rows

section Audits

variable {digest : Hash (List String)} {d d' : Docket} {now : Instant}

def ExpiryCollision (digest : Hash (List String)) (d : Docket) : Prop :=
  ∃ r ∈ d.allRows, ∃ s ∈ d.allRows, r.id ≠ s.id ∧
    digest.hex ["decision:expire", r.id] = digest.hex ["decision:expire", s.id]

def Unaudited (digest : Hash (List String)) (now : Instant) (d : Docket) (value : Decision) : Prop :=
  ∀ a ∈ d.audits, a.id ≠ (expiredAudit digest value now).id ∧
    a.idempotencyKey ≠ (expiredAudit digest value now).idempotencyKey

theorem appendCriticalAudit_succeeds {audit : DecisionAudit}
    (named : audit.id ≠ "" ∧ audit.idempotencyKey ≠ "" ∧ audit.nodeID ≠ "")
    (classified : audit.action ≠ "" ∧ audit.actorType ≠ "")
    (short : audit.id.length ≤ 160 ∧ audit.idempotencyKey.length ≤ 256)
    (valid : audit.createdAt.unset = false) (home : audit.nodeID = d.book.db.nodeID)
    (stored : (d.row? audit.decisionID).isSome = true)
    (fresh : ∀ a ∈ d.audits, a.id ≠ audit.id ∧ a.idempotencyKey ≠ audit.idempotencyKey) :
    d.appendCriticalAudit audit = .ok { d with
      audits := { audit with createdAt := audit.createdAt.truncateMicro } :: d.audits } := by
  have zero := isZero_of_valid valid
  simp only [Docket.appendCriticalAudit, within_eq_ok, bind_eq_ok, reject_eq_ok]
  refine ⟨(), ?_, (), ?_, (), ?_, (), ?_, (), ?_, rfl⟩
  · simp [named]
  · simp [classified, zero]
  · simp [short, valid]
  · rw [Bool.eq_false_iff]
    intro clash
    obtain ⟨a, member, same⟩ := List.any_eq_true.mp clash
    simp only [Bool.or_eq_true, beq_iff_eq] at same
    obtain ⟨differ, differ'⟩ := fresh a member
    exact same.elim differ differ'
  · obtain ⟨row, found⟩ := Option.isSome_iff_exists.mp stored
    simp [home, found]

theorem append_ne_empty {label text : String} (h : label ≠ "") : label ++ text ≠ "" := by
  intro empty
  exact h (by simpa using (String.append_eq_empty_iff.mp empty).1)

theorem length_label_hex (label : String) (frame : List String) :
    (label ++ digest.hex frame).length ≤ label.length + 64 := by
  have length := length_le_utf8ByteSize (digest.hex frame)
  rw [digest.size] at length
  rw [String.length_append]
  omega

theorem appendCriticalAudit_expired {value : Decision} (valid : now.unset = false)
    (some_ : value.nodeID ≠ "") (home : value.nodeID = d.book.db.nodeID)
    (stored : (d.row? value.id).isSome = true) (fresh : Unaudited digest now d value) :
    d.appendCriticalAudit (expiredAudit digest value now) =
      .ok { d with audits := expiredRecord digest now value :: d.audits } :=
  appendCriticalAudit_succeeds
    ⟨append_ne_empty (by decide), append_ne_empty (by decide), some_⟩
    ⟨show "decision_expire" ≠ "" by decide, show "system" ≠ "" by decide⟩
    ⟨(length_label_hex _ _).trans (by decide), (length_label_hex _ _).trans (by decide)⟩
    valid home stored fresh

theorem auditEach_succeeds {values : List Decision} (valid : now.unset = false)
    (each : ∀ v ∈ values, v.nodeID ≠ "" ∧ v.nodeID = d.book.db.nodeID ∧
      (d.row? v.id).isSome = true ∧ Unaudited digest now d v)
    (distinct : values.Pairwise fun v w =>
      digest.hex ["decision:expire", v.id] ≠ digest.hex ["decision:expire", w.id]) :
    values.foldlM (fun d value => d.appendCriticalAudit (expiredAudit digest value now)) d =
      .ok { d with audits := (values.map (expiredRecord digest now)).reverse ++ d.audits } := by
  induction values generalizing d with
  | nil => rfl
  | cons v rest ih =>
    obtain ⟨apart, distinct⟩ := List.pairwise_cons.mp distinct
    obtain ⟨some_, home, stored, fresh⟩ := each v List.mem_cons_self
    rw [List.foldlM_cons]
    refine bind_eq_ok.mpr ⟨_, appendCriticalAudit_expired valid some_ home stored fresh, ?_⟩
    rw [ih (d := { d with audits := expiredRecord digest now v :: d.audits }) ?_ distinct]
    · simp
    · intro w member
      obtain ⟨some_, home, stored, fresh⟩ := each w (.tail _ member)
      refine ⟨some_, home, stored, ?_⟩
      rintro a (_ | ⟨_, older⟩)
      · have differ := apart w member
        refine ⟨fun same => differ ?_, fun same => differ ?_⟩
        · exact (String.append_right_inj _).mp same
        · exact (String.append_right_inj _).mp same
      · exact fresh a older

end Audits

section Projections

variable {d d' : Docket} {nodeID : String} {target : Prefix} {at_ : Instant}

theorem aggregateProjection_succeeds {rows : List DecisionRow} {revision : Nat}
    (node : isLowerHex128 nodeID = true) (canonical : target.canonical = true)
    (positive : 0 < revision)
    (each : ∀ r ∈ rows, r.Checked ∧ r.Genuine ∧ r.bans nodeID target = true) :
    ∃ p, aggregateProjection nodeID target revision (rows.map DecisionRow.decision) = .ok p := by
  have bans : ∀ r ∈ rows, r.nodeID = nodeID ∧ r.canonicalTarget = target ∧ r.state = .active := by
    intro r member
    have h := (each r member).2.2
    simp only [DecisionRow.bans, Bool.and_eq_true, beq_iff_eq] at h
    exact ⟨h.1.1, h.1.2, h.2⟩
  have counted := counted_foldl (fun r member => (bans r member).2.2) fun r member us expires =>
    lt_of_lt_of_le (each r member).1.created ((each r member).1.expires us expires)
  have named : nodeID ≠ "" := by
    rintro rfl
    exact absurd node (by decide)
  have checks : ((rows.map DecisionRow.decision).forM fun d => do
      within "validate decision" d.validate
      reject (d.nodeID != nodeID || d.canonicalTarget != target)
        "decision belongs to another projection") = .ok () := by
    clear counted
    induction rows with
    | nil => rfl
    | cons r rest ih =>
      obtain ⟨checked, genuine, _⟩ := each r List.mem_cons_self
      obtain ⟨home, own, _⟩ := bans r List.mem_cons_self
      refine bind_eq_ok.mpr ⟨(), bind_eq_ok.mpr ⟨(), ?_, ?_⟩, ?_⟩
      · exact within_eq_ok.mpr (validate_decision checked genuine)
      · simp [DecisionRow.decision, home, own]
      · exact ih (fun r member => each r (.tail _ member)) fun r member => bans r (.tail _ member)
  simp only [aggregateProjection, bind_eq_ok, reject_eq_ok]
  refine ⟨_, (), by simpa using named, (), by simp [canonical], (), checks, (), ?_, rfl⟩
  generalize (rows.map DecisionRow.decision).foldl Tally.count {} = tally at counted ⊢
  simp only [Projection.validate, bind_eq_ok, reject_eq_ok]
  refine ⟨(), by simp [node], (), by simp [canonical], (), by simp [positive.ne'], ?_⟩
  by_cases none_ : tally.activeCount = 0
  · simp [none_]
  · simp only [none_, if_false, ne_eq, not_false_eq_true, true_and, bind_eq_ok, reject_eq_ok]
    refine ⟨(), by simp [none_], ?_⟩
    split
    · rename_i finite
      have some_ : ∃ r ∈ rows, r.expiresUS ≠ none := by
        rw [counted.count] at none_
        obtain ⟨r, member⟩ := List.exists_mem_of_length_pos (Nat.pos_of_ne_zero none_)
        exact ⟨r, member, (counted.finite.mp finite) r member⟩
      obtain ⟨us, positive, latest, _⟩ := counted.latest some_
      simp [latest, isZero_ofMicro positive]
    · rfl

structure Rebuildable (d : Docket) (target : Prefix) : Prop where
  canonical : target.canonical = true
  short : 3 ≤ target.toText.length ∧ target.toText.length ≤ 64
  stored : ∃ c, d.book.projections.lookup target = some c ∧ c.revision < maxInt64

theorem putProjection_newer {b : Book} {p c : Projection} (checked : p.validate = .ok ())
    (valid : at_.unset = false)
    (short : 3 ≤ p.canonicalTarget.toText.length ∧ p.canonicalTarget.toText.length ≤ 64)
    (home : p.nodeID = b.db.nodeID) (stored : b.projections.lookup p.canonicalTarget = some c)
    (newer : c.revision < p.revision) :
    b.putProjection p at_ =
      .ok { b with projections := b.projections.insert p.canonicalTarget p.persisted } := by
  have text : (decide (p.canonicalTarget.toText.length < 3) ||
      decide (64 < p.canonicalTarget.toText.length) || at_.unset) = false := by
    rw [valid, Bool.or_false, Bool.or_eq_false_iff, decide_eq_false_iff_not,
      decide_eq_false_iff_not]
    omega
  have differ : c ≠ p.persisted := by
    rintro rfl
    exact absurd newer (lt_irrefl _)
  simp only [Book.putProjection, projectionConstraints, bind_eq_ok, within_eq_ok, reject_eq_ok]
  refine ⟨(), checked, (), isZero_of_valid valid, (), text, (), by simp [home], ?_⟩
  simp only [stored]
  rw [if_neg differ]
  exact bind_eq_ok.mpr ⟨(), by simpa using newer, rfl⟩

theorem revision_pos_of_valid {p : Projection} (checked : p.validate = .ok ()) : 0 < p.revision := by
  simp only [Projection.validate, bind_eq_ok, reject_eq_ok, beq_eq_false_iff_ne] at checked
  obtain ⟨_, _, _, _, _, positive, _⟩ := checked
  exact Nat.pos_of_ne_zero positive

theorem rebuildProjection_succeeds (sound : d.Sound) (posted : d.Posted)
    (node : isLowerHex128 nodeID = true) (home : d.book.db.nodeID = nodeID)
    (able : Rebuildable d target) (valid : at_.unset = false) :
    ∃ c p d', d.book.projections.lookup target = some c ∧ p.revision = c.revision + 1 ∧
      d.rebuildProjection nodeID target at_ true = .ok (p, true, d') := by
  obtain ⟨c, stored, below⟩ := able.stored
  obtain ⟨_, own, checked, _⟩ := posted target c stored
  have found : d.findDecisionProjection nodeID target = .ok (some c) := by
    have here : c.nodeID = nodeID := own.trans home
    simp only [Docket.findDecisionProjection, stored, Option.filter, here, beq_self_eq_true,
      if_true, bind_eq_ok, within_eq_ok]
    exact ⟨(), checked, rfl⟩
  have rows : ∀ r ∈ d.activeRows nodeID target,
      r.Checked ∧ r.Genuine ∧ r.bans nodeID target = true := by
    intro r member
    obtain ⟨stored, bans⟩ := mem_activeRows.mp member
    obtain ⟨id, found⟩ := mem_allRows.mp stored
    exact ⟨checked_of_row? found, sound.genuine id r found, bans⟩
  obtain ⟨active, listed⟩ : ∃ active, d.listActiveDecisions nodeID target = .ok active := by
    refine mapM_succeeds fun r member => ⟨r.decision, within_eq_ok.mpr ?_⟩
    obtain ⟨checked, genuine, _⟩ := rows r member
    exact decisionFromRow_eq checked genuine
  have same := listActiveDecisions_eq listed
  obtain ⟨desired, made⟩ := aggregateProjection_succeeds node able.canonical
    (revision_pos_of_valid checked) rows
  obtain ⟨_, home', own', _, valid'⟩ := aggregates_of_activeRows made
  obtain ⟨book, put⟩ : ∃ book,
      d.book.putProjection { desired with revision := c.revision + 1 } at_ = .ok book :=
    ⟨_, putProjection_newer (validate_revision valid' c.revision) valid
      (by rw [own']; exact able.short) (home'.trans home.symm) (by rw [own']; exact stored)
      (Nat.lt_succ_self _)⟩
  refine ⟨c, { desired with revision := c.revision + 1 }, { d with book := book }, stored, rfl, ?_⟩
  simp only [Docket.rebuildProjection, bind_eq_ok]
  refine ⟨some c, found, active, listed, desired, ?_, ?_⟩
  · rw [same]
    exact made
  simp only [Bool.not_true, Bool.false_and, Bool.false_eq_true, if_false, bind_eq_ok, reject_eq_ok,
    Docket.putProjection]
  exact ⟨(), by simpa using below, _, ⟨_, put, rfl⟩, rfl⟩

theorem rebuildEach_succeeds {targets : List Prefix} (sound : d.Sound) (posted : d.Posted)
    (node : isLowerHex128 nodeID = true) (home : d.book.db.nodeID = nodeID)
    (distinct : targets.Nodup) (able : ∀ t ∈ targets, Rebuildable d t)
    (valid : targets ≠ [] → at_.unset = false) :
    ∃ ps d', rebuildEach nodeID at_ targets d = .ok (ps, d') ∧
      d'.decisions = d.decisions ∧ d'.audits = d.audits ∧ d'.book.db = d.book.db ∧ d'.Posted ∧
      ps.map Projection.canonicalTarget = targets ∧
      (∀ p ∈ ps, d'.book.projections.lookup p.canonicalTarget = some p) ∧
      (∀ t ∈ targets, ∃ c p, d.book.projections.lookup t = some c ∧
        d'.book.projections.lookup t = some p ∧ p.revision = c.revision + 1) ∧
      ∀ t, t ∉ targets → d'.book.projections.lookup t = d.book.projections.lookup t := by
  induction targets generalizing d with
  | nil => exact ⟨[], d, rfl, rfl, rfl, rfl, posted, rfl, by simp, by simp, fun _ _ => rfl⟩
  | cons target rest ih =>
    obtain ⟨fresh, distinct⟩ := List.nodup_cons.mp distinct
    obtain ⟨c, p, middle, stored, next, one⟩ := rebuildProjection_succeeds sound posted node home
      (able target List.mem_cons_self) (valid (by simp))
    obtain ⟨rebuilt, here⟩ := rebuilt_rebuildProjection posted one
    have own : p.canonicalTarget = target := canonicalTarget_rebuildProjection one
    have sound' : middle.Sound :=
      (Edits.elsewhere rebuilt.decisions : Edits true d middle).sound sound
    obtain ⟨ps, last, more, decisions, audits, db, posted', targets', stored', moved, others⟩ :=
      ih sound' rebuilt.posted (by rw [rebuilt.db]; exact home) distinct
        (fun t member => by
          have other : t ≠ target := fun same => fresh (same ▸ member)
          obtain ⟨canonical, short, stored⟩ := able t (.tail _ member)
          rw [← rebuilt.others t other] at stored
          exact ⟨canonical, short, stored⟩)
        fun _ => valid (by simp)
    refine ⟨p :: ps, last, ?_, decisions.trans rebuilt.decisions, audits.trans rebuilt.audits,
      db.trans rebuilt.db, posted', by simp [own, targets'], ?_, ?_, ?_⟩
    · simp only [rebuildEach, bind_eq_ok]
      exact ⟨_, one, _, more, rfl⟩
    · rintro q (_ | ⟨_, member⟩)
      · rw [own, others target fresh]
        exact here
      · exact stored' q member
    · rintro t (_ | ⟨_, member⟩)
      · exact ⟨c, p, stored, (others target fresh).trans here, next⟩
      · obtain ⟨c, p, before, after, next⟩ := moved t member
        have other : t ≠ target := fun same => fresh (same ▸ member)
        rw [rebuilt.others t other] at before
        exact ⟨c, p, before, after, next⟩
    · intro t outside
      rw [List.mem_cons, not_or] at outside
      exact (others t outside.2).trans (rebuilt.others t outside.1)

end Projections

end GuardWall.Decision
