import GuardWall.Decision.Lifecycle
import Mathlib.Logic.Relation

/-! What the transactions do to the rows of `decisions`. Each is a sequence of edits: a new Active
row that no index refuses, a suppression, or the end of an Active row. -/
namespace GuardWall.Decision

open GuardWall.Core GuardWall.Foundation GuardWall.Store

structure DecisionRow.Genuine (r : DecisionRow) : Prop where
  node : isLowerHex128 r.nodeID = true
  target : r.canonicalTarget.canonical = true
  rule : r.source = .automatic → r.ruleID.getD "" ≠ ""
  expired : r.state = .expired → ∃ expires ended,
    r.expiresUS = some expires ∧ r.endedUS = some ended ∧ expires ≤ ended

section Decoding

variable {r : DecisionRow} {d : Decision}

theorem before_ofMicro (a b : Int) : (Instant.ofMicro a).before (.ofMicro b) = decide (a < b) :=
  Instant.after_ofMicro b a

theorem isZero_ofMicro {us : Int} (positive : 0 < us) : (Instant.ofMicro us).isZero = false := by
  simp only [Instant.isZero, Instant.ofMicro, Instant.zero, microsecond, second, beq_eq_false_iff_ne]
  omega

theorem validateEnd_decision (checked : r.Checked) (genuine : r.Genuine) {reason : EndReason}
    {us : Int} (why : r.endReason = some reason) (at_ : r.endedUS = some us)
    (inactive : r.state ≠ .active) : r.decision.validateEnd reason (.ofMicro us) = .ok () := by
  have after := checked.endedAfter us at_
  have state := checked.ended
  simp only [DecisionRow.endChecked, why, at_] at state
  simp only [Decision.validateEnd, DecisionRow.decision, bind_eq_ok, reject_eq_ok, before_ofMicro]
  refine ⟨(), by simpa using after, ?_⟩
  cases status : r.state with
  | active => exact absurd status inactive
  | expired =>
    obtain ⟨expires, ended, found, found', le⟩ := genuine.expired status
    rw [at_] at found'
    cases found'
    cases reason <;> simp [status] at state
    simp [found, before_ofMicro, le]
  | revoked =>
    cases reason with
    | expired => simp [status] at state
    | manual => rfl
    | systemCleanup => rfl
    | manualReplace => simp [checked.replaced why]
    | ruleDisabled => simp [checked.disabled why]

theorem validate_decision (checked : r.Checked) (genuine : r.Genuine) :
    r.decision.validate = .ok () := by
  have named : r.id ≠ "" := by
    rintro empty
    have := checked.idLength.1
    rw [empty] at this
    simp at this
  simp only [Decision.validate, bind_eq_ok, reject_eq_ok]
  refine ⟨(), by simpa [DecisionRow.decision] using named, (),
    by simp [DecisionRow.decision, genuine.node], (),
    by simp [DecisionRow.decision, genuine.target], (), ?_, (), ?_, (), ?_, ?_⟩
  · have rule := genuine.rule
    simp only [DecisionRow.decision, Bool.and_eq_false_iff, beq_eq_false_iff_ne]
    by_cases automatic : r.source = .automatic
    · exact .inr (rule automatic)
    · exact .inl automatic
  · simp [DecisionRow.decision, isZero_ofMicro checked.created, before_ofMicro, checked.updated,
      checked.lastTriggered]
  · simp only [DecisionRow.decision]
    cases found : r.expiresUS with
    | none => rfl
    | some us => simp [before_ofMicro, checked.expires us found]
  · have state := checked.ended
    have ends (reason : EndReason) (us : Int) (why : r.endReason = some reason)
        (at_ : r.endedUS = some us) (inactive : r.state ≠ .active) :=
      validateEnd_decision checked genuine why at_ inactive
    simp only [DecisionRow.endChecked] at state
    simp only [DecisionRow.decision] at ends ⊢
    cases status : r.state <;> cases why : r.endReason <;> cases at_ : r.endedUS <;>
      simp [status, why, at_] at state ends ⊢
    · exact ends
    · exact ends

theorem decisionFromRow_eq (checked : r.Checked) (genuine : r.Genuine) :
    decisionFromRow r = .ok r.decision := by
  simp [decisionFromRow, within, validate_decision checked genuine, Except.mapError, bind,
    Except.bind, pure, Except.pure]

theorem genuine_ofDecision (valid : d.validate = .ok ()) : (DecisionRow.ofDecision d).Genuine := by
  simp only [Decision.validate, bind_eq_ok, reject_eq_ok] at valid
  obtain ⟨_, _, _, node, _, target, _, rule, _⟩ := valid
  refine ⟨by simpa [DecisionRow.ofDecision] using node, by simpa [DecisionRow.ofDecision] using target,
    fun automatic => ?_, by simp [DecisionRow.ofDecision]⟩
  have automatic : d.source = .automatic := automatic
  simpa [DecisionRow.ofDecision, automatic] using rule

end Decoding

section Tables

variable {d : Docket} {s : StoredDecision} {id : String} {r : DecisionRow}

theorem row?_put : (d.put s).row? id = if id = s.row.id then some s.row else d.row? id := by
  simp only [Docket.row?, Docket.put, Table.lookup_insert]
  split <;> rfl

theorem mem_allRows : r ∈ d.allRows ↔ ∃ id, d.row? id = some r := by
  simp only [Docket.allRows, Docket.row?, List.mem_map, Option.map_eq_some_iff, Prod.exists,
    Table.mem_rows]

theorem checked_of_row? (found : d.row? id = some r) : r.Checked := by
  obtain ⟨stored, _, rfl⟩ := Option.map_eq_some_iff.mp found
  exact stored.checked

end Tables

theorem DecisionRow.collides_symm {r s : DecisionRow} (h : r.collides s = true) :
    s.collides r = true := by
  simp only [DecisionRow.collides, Bool.and_eq_true, Bool.or_eq_true, beq_iff_eq] at h ⊢
  obtain ⟨⟨⟨⟨⟨active, active'⟩, source⟩, node⟩, target⟩, key⟩ := h
  refine ⟨⟨⟨⟨⟨active', active⟩, source.symm⟩, node.symm⟩, target.symm⟩, ?_⟩
  rw [← source]
  exact key.imp_right Eq.symm

/-- The rows stand under their ids, are genuine, and no two share an index of Active rows. -/
structure Docket.Sound (d : Docket) : Prop where
  filed : ∀ id r, d.row? id = some r → r.id = id
  genuine : ∀ id r, d.row? id = some r → r.Genuine
  alone : ∀ r ∈ d.allRows, ∀ s ∈ d.allRows, r.collides s = true → r.id = s.id

inductive Edit (ends : Bool) : Docket → Docket → Prop
  | insert {d : Docket} (s : StoredDecision) (fresh : d.row? s.row.id = none)
      (alone : ∀ r ∈ d.allRows, r.collides s.row = false) (genuine : s.row.Genuine) :
      Edit ends d (d.put s)
  | suppress {d : Docket} (r : DecisionRow) (s : StoredDecision) (us : Int)
      (held : d.row? r.id = some r) (active : r.state = .active) (same : s.row = r.suppressed us) :
      Edit ends d (d.put s)
  | finish {d : Docket} (r : DecisionRow) (s : StoredDecision) (us : Int) (state : DecisionState)
      (reason : EndReason) (may : ends = true) (held : d.row? r.id = some r)
      (active : r.state = .active) (inactive : state ≠ .active)
      (same : s.row = r.ended us state reason) (genuine : s.row.Genuine) : Edit ends d (d.put s)
  | elsewhere {d d' : Docket} (same : d'.decisions = d.decisions) : Edit ends d d'

def Edits (ends : Bool) : Docket → Docket → Prop := Relation.ReflTransGen (Edit ends)

def DecisionRow.settled (r : DecisionRow) : DecisionRow :=
  { r with lastTriggeredUS := 0, suppressedCount := 0 }

def DecisionRow.identity (r : DecisionRow) : DecisionRow :=
  { r.settled with updatedUS := 0, endedUS := none, state := .active, endReason := none }

structure DecisionRow.Evolves (ends : Bool) (r r' : DecisionRow) : Prop where
  frozen : r.state ≠ .active → r' = r
  identity : r'.identity = r.identity
  settled : ends = false → r'.settled = r.settled

theorem DecisionRow.Evolves.refl (ends : Bool) (r : DecisionRow) : r.Evolves ends r :=
  ⟨fun _ => rfl, rfl, fun _ => rfl⟩

theorem DecisionRow.Evolves.trans {ends : Bool} {r r' r'' : DecisionRow} (h : r.Evolves ends r')
    (h' : r'.Evolves ends r'') : r.Evolves ends r'' where
  frozen inactive := by
    have same := h.frozen inactive
    subst same
    exact h'.frozen inactive
  identity := h'.identity.trans h.identity
  settled lasting := (h'.settled lasting).trans (h.settled lasting)

section Edits

variable {ends : Bool} {d d' : Docket}

theorem Docket.Sound.put {s : StoredDecision} (sound : d.Sound) (genuine : s.row.Genuine)
    (alone : ∀ r ∈ d.allRows, r.id ≠ s.row.id → r.collides s.row = false) : (d.put s).Sound where
  filed id r found := by
    rw [row?_put] at found
    split at found
    · rename_i here
      cases found
      exact here.symm
    · exact sound.filed id r found
  genuine id r found := by
    rw [row?_put] at found
    split at found
    · cases found
      exact genuine
    · exact sound.genuine id r found
  alone := by
    have origin : ∀ r ∈ (d.put s).allRows, r = s.row ∨ (r ∈ d.allRows ∧ r.id ≠ s.row.id) := by
      intro r member
      obtain ⟨id, found⟩ := mem_allRows.mp member
      rw [row?_put] at found
      split at found
      · cases found
        exact .inl rfl
      · rename_i other
        refine .inr ⟨mem_allRows.mpr ⟨id, found⟩, ?_⟩
        rw [sound.filed id r found]
        exact other
    intro r first t second collide
    have symmetric := DecisionRow.collides_symm collide
    obtain rfl | ⟨old, differ⟩ := origin r first
    · obtain rfl | ⟨old', differ'⟩ := origin t second
      · rfl
      · rw [alone t old' differ'] at symmetric
        cases symmetric
    · obtain rfl | ⟨old', _⟩ := origin t second
      · rw [alone r old differ] at collide
        cases collide
      · exact sound.alone r old t old' collide

theorem Edit.sound (edit : Edit ends d d') (sound : d.Sound) : d'.Sound := by
  -- a row that stays Active keeps its key; one that has ended is in no index
  have kept : ∀ (r : DecisionRow) (s : StoredDecision), d.row? r.id = some r →
      (∀ t : DecisionRow, t.collides s.row = true → t.collides r = true) → s.row.id = r.id →
      ∀ t ∈ d.allRows, t.id ≠ s.row.id → t.collides s.row = false := by
    intro r s held key same t member differ
    by_contra collide
    rw [Bool.not_eq_false] at collide
    have equal := sound.alone t member r (mem_allRows.mpr ⟨_, held⟩) (key t collide)
    exact differ (equal.trans same.symm)
  cases edit with
  | insert s fresh alone genuine => exact sound.put genuine fun r member _ => alone r member
  | suppress r s us held active same =>
    have before := sound.genuine _ _ held
    refine sound.put ?_ (kept r s held ?_ (by rw [same]; rfl))
    · rw [same]
      exact ⟨before.node, before.target, before.rule, before.expired⟩
    · intro t collide
      rw [same] at collide
      exact collide
  | finish r s us state reason may held active inactive same genuine =>
    refine sound.put genuine (kept r s held ?_ (by rw [same]; rfl))
    intro t collide
    rw [same] at collide
    simp [DecisionRow.collides, DecisionRow.ended, inactive] at collide
  | elsewhere same =>
    have rows : ∀ id, d'.row? id = d.row? id := by
      intro id
      unfold Docket.row?
      rw [same]
    have all : d'.allRows = d.allRows := by
      unfold Docket.allRows
      rw [same]
    refine ⟨fun id r found => sound.filed id r (rows id ▸ found),
      fun id r found => sound.genuine id r (rows id ▸ found), ?_⟩
    rw [all]
    exact sound.alone

theorem Edit.evolves (edit : Edit ends d d') {id : String} {r : DecisionRow}
    (found : d.row? id = some r) : ∃ r', d'.row? id = some r' ∧ r.Evolves ends r' := by
  -- the edits of a row in its place
  have replaced : ∀ (old : DecisionRow) (s : StoredDecision), d.row? old.id = some old →
      s.row.id = old.id → old.Evolves ends s.row →
      ∃ r', (d.put s).row? id = some r' ∧ r.Evolves ends r' := by
    intro old s held same evolves
    rw [row?_put]
    split
    · rename_i here
      rw [here, same, held] at found
      cases found
      exact ⟨s.row, rfl, evolves⟩
    · exact ⟨r, found, .refl _ r⟩
  cases edit with
  | insert s fresh alone genuine =>
    rw [row?_put]
    split
    · rename_i here
      rw [here, fresh] at found
      cases found
    · exact ⟨r, found, .refl _ r⟩
  | suppress old s us held active same =>
    refine replaced old s held (by rw [same]; rfl) ?_
    rw [same]
    exact ⟨fun inactive => absurd active inactive, rfl, fun _ => rfl⟩
  | finish old s us state reason may held active inactive same genuine =>
    refine replaced old s held (by rw [same]; rfl) ?_
    rw [same]
    exact ⟨fun inactive => absurd active inactive, rfl, fun lasting => by rw [may] at lasting; cases lasting⟩
  | elsewhere same =>
    refine ⟨r, ?_, .refl _ r⟩
    unfold Docket.row?
    rw [same]
    exact found

theorem Edits.sound (edits : Edits ends d d') (sound : d.Sound) : d'.Sound := by
  induction edits with
  | refl => exact sound
  | tail _ edit ih => exact edit.sound ih

theorem Edits.evolves (edits : Edits ends d d') {id : String} {r : DecisionRow}
    (found : d.row? id = some r) : ∃ r', d'.row? id = some r' ∧ r.Evolves ends r' := by
  induction edits with
  | refl => exact ⟨r, found, .refl _ r⟩
  | tail _ edit ih =>
    obtain ⟨r', found', first⟩ := ih
    obtain ⟨r'', found'', second⟩ := edit.evolves found'
    exact ⟨r'', found'', first.trans second⟩

theorem Edit.edits (edit : Edit ends d d') : Edits ends d d' := .single edit

theorem Edits.refl (ends : Bool) (d : Docket) : Edits ends d d := Relation.ReflTransGen.refl

theorem Edits.trans {d'' : Docket} (first : Edits ends d d') (second : Edits ends d' d'') :
    Edits ends d d'' := Relation.ReflTransGen.trans first second

end Edits

section Primitives

variable {d d' : Docket} {id nodeID : String} {value : Decision} {at_ : Instant}

variable {row : DecisionRow} {p : Projection} {target : Prefix} {force changed : Bool}

theorem insertRow_cases {referenced inserted : Bool}
    (h : d.insertRow referenced row = .ok (inserted, d')) :
    (inserted = false ∧ d' = d) ∨
      inserted = true ∧ ∃ s : StoredDecision, s.row = row ∧ d' = d.put s ∧
        d.row? row.id = none ∧ (∀ r ∈ d.allRows, r.collides row = false) ∧
        row.nodeID = d.book.db.nodeID := by
  simp only [Docket.insertRow, bind_eq_ok] at h
  obtain ⟨s, stored, h⟩ := h
  split at h
  · cases h
    exact .inl ⟨rfl, rfl⟩
  · rename_i free
    simp only [bind_eq_ok, reject_eq_ok, Bool.or_eq_false_iff] at h
    obtain ⟨_, ⟨node, _⟩, h⟩ := h
    cases h
    simp only [Bool.or_eq_true, not_or, Bool.not_eq_true, List.any_eq_false,
      Option.isSome_eq_false_iff, Option.isNone_iff_eq_none] at free
    exact .inr ⟨rfl, s, checkRow_eq_ok stored, rfl, free.1, free.2, by simpa using node⟩

theorem suppressAutomaticDecision_cases
    (h : d.suppressAutomaticDecision id at_ = .ok (value, d')) :
    ∃ (r : DecisionRow) (s : StoredDecision), d.row? id = some r ∧ r.source = .automatic ∧
      r.state = .active ∧ s.row = r.suppressed at_.unixMicro ∧ d' = d.put s ∧
      value = s.row.decision := by
  unfold Docket.suppressAutomaticDecision at h
  split at h
  · cases h
  rename_i r found
  simp only [bind_eq_ok, within_eq_ok, decisionFromRow] at h
  obtain ⟨_, _, s, stored, _, ⟨_, _, same⟩, h⟩ := h
  cases same
  cases h
  simp only [Option.filter_eq_some_iff, Bool.and_eq_true, beq_iff_eq] at found
  exact ⟨r, s, found.1, found.2.1, found.2.2, checkRow_eq_ok stored, rfl, rfl⟩

theorem revokeActiveManualDecision_cases
    (h : d.revokeActiveManualDecision id at_ = .ok (value, d')) :
    ∃ (r : DecisionRow) (s : StoredDecision), d.row? id = some r ∧ r.source = .manual ∧
      r.state = .active ∧ s.row = r.ended at_.unixMicro .revoked .manualReplace ∧ d' = d.put s ∧
      value = s.row.decision := by
  unfold Docket.revokeActiveManualDecision at h
  split at h
  · cases h
  rename_i r found
  simp only [bind_eq_ok, within_eq_ok, decisionFromRow] at h
  obtain ⟨s, stored, _, ⟨_, _, same⟩, h⟩ := h
  cases same
  cases h
  simp only [Option.filter_eq_some_iff, Bool.and_eq_true, beq_iff_eq] at found
  exact ⟨r, s, found.1, found.2.1.1, found.2.1.2, checkRow_eq_ok stored, rfl, rfl⟩

theorem expireRow_cases (h : d.expireRow nodeID at_ row = .ok (value, d')) :
    ∃ (r : DecisionRow) (s : StoredDecision), d.row? row.id = some r ∧ r.nodeID = nodeID ∧
      r.state = .active ∧ r.expiresUS = row.expiresUS ∧
      s.row = r.ended at_.unixMicro .expired .expired ∧ d' = d.put s ∧
      value = (row.ended at_.unixMicro .expired .expired).decision := by
  unfold Docket.expireRow at h
  split at h
  · cases h
  rename_i r found
  simp only [bind_eq_ok, within_eq_ok, decisionFromRow] at h
  obtain ⟨s, stored, _, ⟨_, _, same⟩, h⟩ := h
  cases same
  cases h
  simp only [Option.filter_eq_some_iff, Bool.and_eq_true, beq_iff_eq] at found
  exact ⟨r, s, found.1, found.2.1.1, found.2.1.2, found.2.2, checkRow_eq_ok stored, rfl, rfl⟩

theorem appendCriticalAudit_cases {audit : DecisionAudit}
    (h : d.appendCriticalAudit audit = .ok d') :
    d' = { d with
      audits := { audit with createdAt := audit.createdAt.truncateMicro } :: d.audits } := by
  simp only [Docket.appendCriticalAudit, within_eq_ok, bind_eq_ok] at h
  obtain ⟨_, _, _, _, _, _, _, _, _, _, h⟩ := h
  cases h
  rfl

theorem putProjection_cases (h : d.putProjection p at_ = .ok d') :
    ∃ book, d.book.putProjection p at_ = .ok book ∧ d' = { d with book := book } := by
  simp only [Docket.putProjection, bind_eq_ok] at h
  obtain ⟨book, stored, h⟩ := h
  cases h
  exact ⟨book, stored, rfl⟩

theorem rebuildProjection_cases
    (h : d.rebuildProjection nodeID target at_ force = .ok (p, changed, d')) :
    ∃ current active desired, d.findDecisionProjection nodeID target = .ok current ∧
      d.listActiveDecisions nodeID target = .ok active ∧
      aggregateProjection nodeID target ((current.map Projection.revision).getD 1) active =
        .ok desired ∧
      ((changed = false ∧ force = false ∧ current = some p ∧
          sameProjectionContent p desired = true ∧ d' = d) ∨
        changed = true ∧ d.putProjection p at_ = .ok d' ∧
          (current = none ∧ p = desired ∨ ∃ c, current = some c ∧ c.revision < maxInt64 ∧
            p = { desired with revision := c.revision + 1 })) := by
  simp only [Docket.rebuildProjection, bind_eq_ok] at h
  obtain ⟨current, found, active, listed, desired, made, h⟩ := h
  refine ⟨current, active, desired, found, listed, made, ?_⟩
  cases current with
  | none =>
    simp only [bind_eq_ok] at h
    obtain ⟨after, stored, h⟩ := h
    cases h
    exact .inr ⟨rfl, stored, .inl ⟨rfl, rfl⟩⟩
  | some c =>
    simp only at h
    split at h
    · rename_i same
      cases h
      simp only [Bool.and_eq_true, Bool.not_eq_true'] at same
      exact .inl ⟨rfl, same.1, rfl, same.2, rfl⟩
    · simp only [bind_eq_ok, reject_eq_ok, decide_eq_false_iff_not, not_le] at h
      obtain ⟨_, bound, after, stored, h⟩ := h
      cases h
      exact .inr ⟨rfl, stored, .inr ⟨c, rfl, bound, rfl⟩⟩

theorem rebuildProjection_rest
    (h : d.rebuildProjection nodeID target at_ force = .ok (p, changed, d')) :
    d'.decisions = d.decisions ∧ d'.audits = d.audits := by
  obtain ⟨_, _, _, _, _, _, ⟨_, _, _, _, rfl⟩ | ⟨_, stored, _⟩⟩ := rebuildProjection_cases h
  · exact ⟨rfl, rfl⟩
  · obtain ⟨book, _, rfl⟩ := putProjection_cases stored
    exact ⟨rfl, rfl⟩

end Primitives

section Operations

variable {resolver : Resolver} {hash : Hash String} {digest : Hash (List String)} {ends : Bool}
variable {d d' : Docket} {id nodeID : String} {value : Decision} {at_ : Instant}

theorem due_cases {r : DecisionRow} {us : Int} (h : r.due nodeID us = true) :
    r.nodeID = nodeID ∧ r.state = .active ∧ ∃ e, r.expiresUS = some e ∧ e ≤ us := by
  simp only [DecisionRow.due, Bool.and_eq_true, beq_iff_eq, Option.any_eq_true, decide_eq_true_eq]
    at h
  obtain ⟨⟨node, active⟩, e, expires, le⟩ := h
  exact ⟨node, active, e, expires, le⟩

variable {affected projections : List Projection} {replace : Bool} {P : Docket → Prop}
  {g g' : Gathered} {targets : List Prefix} {op : Operation}

theorem finalizeTargets_cases (h : d.finalizeTargets resolver affected at_ = .ok d') :
    finalize resolver affected at_ d.book = .ok d'.book ∧ d'.decisions = d.decisions ∧
      d'.audits = d.audits := by
  simp only [Docket.finalizeTargets, bind_eq_ok] at h
  obtain ⟨book, final, h⟩ := h
  cases h
  exact ⟨final, rfl, rfl⟩

variable {r : AutomaticRequest} {referenced : Bool} {result : AutomaticResult}
  {requests : List (AutomaticRequest × Bool)} {row : DecisionRow}

/-- The statements that record a match: a new row or a suppression, the projection, the audit. -/
theorem recordAutomatic_cases
    (h : recordAutomaticInTransaction hash digest referenced r d = .ok (result, d')) :
    ∃ d1 p changed d2, result.projection = (if changed then some p else none) ∧
      ((result.created = true ∧ r.candidate.validate = .ok () ∧
          d.insertRow referenced (.ofDecision r.candidate) = .ok (true, d1) ∧
          d1.rebuildProjection r.nodeID r.target r.triggeredAt true = .ok (p, changed, d2) ∧
          d2.appendCriticalAudit (automaticCreatedAudit hash r) = .ok d') ∨
        result.created = false ∧ ∃ current,
          d.findActiveAutomaticDecision r.nodeID r.ruleID r.target = .ok (some current) ∧
          d.suppressAutomaticDecision current.id r.triggeredAt = .ok (result.decision, d1) ∧
          d1.rebuildProjection r.nodeID r.target r.triggeredAt false = .ok (p, changed, d2) ∧
          d2.appendCriticalAudit (automaticSuppressedAudit digest r result.decision.id) =
            .ok d') := by
  simp only [recordAutomaticInTransaction, Docket.insertAutomaticDecision, within_eq_ok,
    bind_eq_ok] at h
  obtain ⟨_, _, _, _, _, valid, ⟨inserted, d1⟩, ⟨_, _, _, _, one⟩, h⟩ := h
  cases inserted with
  | false =>
    obtain ⟨_, rfl⟩ | ⟨inserted, _⟩ := insertRow_cases one
    · simp only [Bool.not_false, if_true, suppressInTransaction, bind_eq_ok] at h
      obtain ⟨_, _, current, found, h⟩ := h
      cases current with
      | none => cases h
      | some current =>
        simp only [bind_eq_ok] at h
        obtain ⟨_, _, _, _, ⟨_, d2⟩, two, ⟨p, changed, d3⟩, three, d4, four, h⟩ := h
        cases h
        exact ⟨d2, p, changed, d3, rfl, .inr ⟨rfl, current, found, two, three, four⟩⟩
    · cases inserted
  | true =>
    simp only [Bool.not_true, Bool.false_eq_true, if_false, bind_eq_ok] at h
    obtain ⟨⟨p, changed, d2⟩, two, d3, three, h⟩ := h
    cases h
    obtain ⟨_, _, _, _, _, _, ⟨_, force, _⟩ | ⟨rfl, _⟩⟩ := rebuildProjection_cases two
    · cases force
    · exact ⟨d1, p, true, d2, rfl, .inl ⟨rfl, valid, one, two, three⟩⟩

/-- The statements of a manual ban: a new row, in place of the Active one where it is replaced, the
projection and the audit, and the finalizer. -/
theorem ban_cases {r : ManualRequest} (h : banManual resolver digest nodeID r replace d = .ok d') :
    r.candidate.validate = .ok () ∧ ∃ d1 d2 p changed last q,
      ((d.insertRow true (.ofDecision r.candidate) = .ok (true, d1) ∧
          d1.rebuildProjection r.nodeID r.target r.createdAt true = .ok (p, changed, d2) ∧
          d2.appendCriticalAudit (manualCreatedAudit digest r) = .ok last) ∨
        ∃ current previous d3, d.findActiveManualDecision r.nodeID r.target = .ok (some current) ∧
          d.revokeActiveManualDecision current.id r.createdAt = .ok (previous, d1) ∧
          d1.appendCriticalAudit (manualReplacedAudit digest r previous.id) = .ok d2 ∧
          d2.insertRow true (.ofDecision r.candidate) = .ok (true, d3) ∧
          d3.rebuildProjection r.nodeID r.target r.createdAt true = .ok (p, changed, last)) ∧
      last.findDecisionProjection r.nodeID r.target = .ok (some q) ∧
      last.finalizeTargets resolver [q] r.createdAt = .ok d' := by
  simp only [banManual, recordManualInTransaction, Docket.insertManualDecision, within_eq_ok,
    bind_eq_ok] at h
  obtain ⟨_, _, _, _, _, _, ⟨result, last⟩,
    ⟨_, valid, ⟨inserted, d1⟩, ⟨_, _, _, _, one⟩, record⟩, q, read, h⟩ := h
  refine ⟨valid, ?_⟩
  cases q with
  | none => cases h
  | some q =>
  cases inserted with
  | false =>
    obtain ⟨_, rfl⟩ | ⟨inserted, _⟩ := insertRow_cases one
    · simp only [Bool.not_false, if_true, replaceInTransaction, bind_eq_ok] at record
      obtain ⟨current, found, _, _, _, _, _, _, record⟩ := record
      cases current with
      | none => cases record
      | some current =>
        simp only [Docket.insertManualDecision, within_eq_ok, bind_eq_ok, reject_eq_ok,
          Bool.not_eq_false'] at record
        obtain ⟨_, _, ⟨previous, d2⟩, two, d3, three, ⟨_, d4⟩, ⟨_, _, _, _, four⟩, _, rfl,
          ⟨p, changed, d5⟩, five, record⟩ := record
        cases record
        exact ⟨d2, d3, p, changed, _, q,
          .inr ⟨current, previous, d4, found, two, three, four, five⟩, read, h⟩
    · cases inserted
  | true =>
    simp only [Bool.not_true, Bool.false_eq_true, if_false, bind_eq_ok] at record
    obtain ⟨⟨p, changed, d2⟩, two, d3, three, record⟩ := record
    cases record
    exact ⟨d1, d2, p, changed, _, q, .inl ⟨one, two, three⟩, read, h⟩

theorem process_cases (h : processDecisions resolver hash digest requests d = .ok d') :
    ∃ gathered middle, recordEach hash digest requests {} d = .ok (gathered, middle) ∧
      (gathered.projections = [] ∧ d' = middle ∨ gathered.projections ≠ [] ∧
        middle.finalizeTargets resolver gathered.projections gathered.lastUpdatedAt = .ok d') := by
  simp only [processDecisions, bind_eq_ok] at h
  obtain ⟨⟨gathered, middle⟩, one, h⟩ := h
  refine ⟨gathered, middle, one, ?_⟩
  split at h
  · rename_i empty
    cases h
    exact .inl ⟨List.isEmpty_iff.mp empty, rfl⟩
  · rename_i full
    exact .inr ⟨fun empty => full (List.isEmpty_iff.mpr empty), h⟩

/-- The statements of an expiry sweep: the due rows, their audits, the projections of their targets,
and the finalizer. -/
theorem expire_cases (h : expire resolver digest nodeID at_ d = .ok d') :
    nodeID ≠ "" ∧ d.book.db.nodeID = nodeID ∧ ∃ due d1 d2 ps d3,
      Docket.expireRows nodeID at_ (d.allRows.filter (·.due nodeID at_.unixMicro)) d =
        .ok (due, d1) ∧
      (due.insertionSort expiryOrder).foldlM
        (fun d value => d.appendCriticalAudit (expiredAudit digest value at_)) d1 = .ok d2 ∧
      rebuildEach nodeID at_ (affectedTargets [] (due.insertionSort expiryOrder)) d2 =
        .ok (ps, d3) ∧
      d3.finalizeTargets resolver ps at_ = .ok d' := by
  simp only [expire, expireInTransaction, Docket.expireDueActiveDecisions, bind_eq_ok,
    within_eq_ok, reject_eq_ok] at h
  obtain ⟨⟨result, last⟩, ⟨_, _, _, named, ⟨due, d1⟩, ⟨_, _, _, home, one⟩, d2, two, ⟨ps, d3⟩, three,
    record⟩, h⟩ := h
  cases record
  exact ⟨by simpa using named, by simpa using home, due, d1, d2, ps, d3, one, two, three, h⟩

theorem recordEach_keeps (step : ∀ r referenced result d d', P d →
      recordAutomaticInTransaction hash digest referenced r d = .ok (result, d') → P d')
    (h : recordEach hash digest requests g d = .ok (g', d')) (first : P d) : P d' := by
  induction requests generalizing g d with
  | nil =>
    cases h
    exact first
  | cons request rest ih =>
    obtain ⟨r, referenced⟩ := request
    simp only [recordEach, bind_eq_ok] at h
    obtain ⟨⟨result, middle⟩, one, h⟩ := h
    have next := step r referenced result d middle first one
    simp only at h
    split at h
    · exact ih h next
    · exact ih h next

theorem rebuildEach_keeps (step : ∀ target p changed d d', P d →
      d.rebuildProjection nodeID target at_ true = .ok (p, changed, d') → P d')
    (h : rebuildEach nodeID at_ targets d = .ok (projections, d')) (first : P d) : P d' := by
  induction targets generalizing d projections with
  | nil =>
    cases h
    exact first
  | cons target rest ih =>
    simp only [rebuildEach, bind_eq_ok] at h
    obtain ⟨⟨p, changed, middle⟩, one, ⟨others, last⟩, more, h⟩ := h
    cases h
    exact ih more (step target p changed d middle first one)

theorem Edits.elsewhere (same : d'.decisions = d.decisions) : Edits ends d d' :=
  (Edit.elsewhere same).edits

theorem edits_insertRow {inserted : Bool} (genuine : row.Genuine)
    (h : d.insertRow referenced row = .ok (inserted, d')) : Edits ends d d' := by
  obtain ⟨_, rfl⟩ | ⟨_, s, rfl, rfl, fresh, alone, _⟩ := insertRow_cases h
  · exact .refl ends _
  · exact (Edit.insert s fresh alone genuine).edits

theorem edits_suppress (sound : d.Sound)
    (h : d.suppressAutomaticDecision id at_ = .ok (value, d')) : Edits ends d d' := by
  obtain ⟨r, s, held, _, active, same, rfl, _⟩ := suppressAutomaticDecision_cases h
  rw [← sound.filed id r held] at held
  exact (Edit.suppress r s _ held active same).edits

theorem edits_revoke (sound : d.Sound)
    (h : d.revokeActiveManualDecision id at_ = .ok (value, d')) : Edits true d d' := by
  obtain ⟨r, s, held, _, active, same, rfl, _⟩ := revokeActiveManualDecision_cases h
  have before := sound.genuine id r held
  rw [← sound.filed id r held] at held
  refine (Edit.finish r s _ _ _ rfl held active (by simp) same ?_).edits
  rw [same]
  exact ⟨before.node, before.target, before.rule, by simp [DecisionRow.ended]⟩

theorem edits_expireRow (sound : d.Sound) (due : row.due nodeID at_.unixMicro = true)
    (h : d.expireRow nodeID at_ row = .ok (value, d')) : Edits true d d' := by
  obtain ⟨r, s, held, _, active, expires, same, rfl, _⟩ := expireRow_cases h
  obtain ⟨_, _, us, found, le⟩ := due_cases due
  have before := sound.genuine _ r held
  rw [← sound.filed _ r held] at held
  refine (Edit.finish r s _ _ _ rfl held active (by simp) same ?_).edits
  rw [same]
  exact ⟨before.node, before.target, before.rule,
    fun _ => ⟨us, at_.unixMicro, expires.trans found, rfl, le⟩⟩

theorem edits_expireRows {rows : List DecisionRow} {values : List Decision} (sound : d.Sound)
    (due : ∀ row ∈ rows, row.due nodeID at_.unixMicro = true)
    (h : Docket.expireRows nodeID at_ rows d = .ok (values, d')) : Edits true d d' := by
  induction rows generalizing d values with
  | nil =>
    cases h
    exact .refl _ _
  | cons row rest ih =>
    simp only [Docket.expireRows, bind_eq_ok] at h
    obtain ⟨⟨value, middle⟩, one, ⟨others, last⟩, more, h⟩ := h
    cases h
    have first := edits_expireRow sound (due row List.mem_cons_self) one
    exact first.trans (ih (first.sound sound) (fun r member => due r (.tail _ member)) more)

theorem decode_eq_some {context : String} {found : Option DecisionRow}
    (h : Docket.decode context found = .ok (some value)) :
    ∃ r, found = some r ∧ value = r.decision := by
  cases found with
  | none => cases h
  | some r =>
    simp only [Docket.decode, decisionFromRow, within_eq_ok, bind_eq_ok] at h
    obtain ⟨_, ⟨_, _, same⟩, h⟩ := h
    cases same
    cases h
    exact ⟨r, rfl, rfl⟩

theorem edits_rebuildProjection {target : Prefix} {force changed : Bool} {p : Projection}
    (h : d.rebuildProjection nodeID target at_ force = .ok (p, changed, d')) : Edits ends d d' :=
  .elsewhere (rebuildProjection_rest h).1

theorem edits_appendCriticalAudit {audit : DecisionAudit}
    (h : d.appendCriticalAudit audit = .ok d') : Edits ends d d' :=
  .elsewhere (by rw [appendCriticalAudit_cases h])

theorem edits_finalizeTargets (h : d.finalizeTargets resolver affected at_ = .ok d') :
    Edits ends d d' :=
  .elsewhere (finalizeTargets_cases h).2.1

theorem edits_recordAutomatic (sound : d.Sound)
    (h : recordAutomaticInTransaction hash digest referenced r d = .ok (result, d')) :
    Edits ends d d' := by
  obtain ⟨d1, p, changed, d2, _, ⟨_, valid, one, two, three⟩ | ⟨_, _, _, one, two, three⟩⟩ :=
    recordAutomatic_cases h
  · exact ((edits_insertRow (genuine_ofDecision valid) one).trans (edits_rebuildProjection two)).trans
      (edits_appendCriticalAudit three)
  · exact ((edits_suppress sound one).trans (edits_rebuildProjection two)).trans
      (edits_appendCriticalAudit three)

theorem edits_recordEach (sound : d.Sound) (h : recordEach hash digest requests g d = .ok (g', d'))
    :
    Edits ends d d' := by
  refine (recordEach_keeps (P := fun after => Edits ends d after ∧ after.Sound)
    (fun _ _ _ _ _ before one => ?_) h ⟨.refl _ _, sound⟩).1
  have step : Edits ends _ _ := edits_recordAutomatic before.2 one
  exact ⟨before.1.trans step, step.sound before.2⟩

theorem edits_process (sound : d.Sound)
    (h : processDecisions resolver hash digest requests d = .ok d') : Edits ends d d' := by
  obtain ⟨gathered, middle, one, ⟨_, rfl⟩ | ⟨_, h⟩⟩ := process_cases h
  · exact edits_recordEach sound one
  · exact (edits_recordEach sound one).trans (edits_finalizeTargets h)

theorem edits_ban {r : ManualRequest} (sound : d.Sound)
    (h : banManual resolver digest nodeID r replace d = .ok d') : Edits true d d' := by
  obtain ⟨valid, d1, d2, p, changed, last, q,
    ⟨one, two, three⟩ | ⟨_, _, d3, _, one, two, three, four⟩, _, h⟩ := ban_cases h
  · exact (((edits_insertRow (genuine_ofDecision valid) one).trans
      (edits_rebuildProjection two)).trans (edits_appendCriticalAudit three)).trans
      (edits_finalizeTargets h)
  · exact ((((edits_revoke sound one).trans (edits_appendCriticalAudit two)).trans
      (edits_insertRow (genuine_ofDecision valid) three)).trans (edits_rebuildProjection four)).trans
      (edits_finalizeTargets h)

theorem rebuildEach_rest (h : rebuildEach nodeID at_ targets d = .ok (projections, d')) :
    d'.decisions = d.decisions ∧ d'.audits = d.audits :=
  rebuildEach_keeps (P := fun after => after.decisions = d.decisions ∧ after.audits = d.audits)
    (fun _ _ _ _ _ before one =>
      have rest := rebuildProjection_rest one
      ⟨rest.1.trans before.1, rest.2.trans before.2⟩) h ⟨rfl, rfl⟩

def expiredRecord (digest : Hash (List String)) (now : Instant) (value : Decision) : DecisionAudit :=
  { expiredAudit digest value now with createdAt := now.truncateMicro }

theorem auditEach_cases {expired : List Decision}
    (h : expired.foldlM (fun d value => d.appendCriticalAudit (expiredAudit digest value at_)) d =
      .ok d') :
    d' = { d with audits := (expired.map (expiredRecord digest at_)).reverse ++ d.audits } := by
  induction expired generalizing d with
  | nil =>
    cases h
    rfl
  | cons value rest ih =>
    rw [List.foldlM_cons, bind_eq_ok] at h
    obtain ⟨middle, one, h⟩ := h
    rw [ih h, appendCriticalAudit_cases one, List.map_cons, List.reverse_cons, List.append_assoc]
    rfl

theorem edits_expire (sound : d.Sound) (h : expire resolver digest nodeID at_ d = .ok d') :
    Edits true d d' := by
  obtain ⟨_, _, due, d1, d2, ps, d3, one, two, three, h⟩ := expire_cases h
  have swept : Edits true d d1 :=
    edits_expireRows sound (fun row member => (List.mem_filter.mp member).2) one
  exact ((swept.trans (.elsewhere (by rw [auditEach_cases two]))).trans
    (.elsewhere (rebuildEach_rest three).1)).trans (edits_finalizeTargets h)

def Operation.mayEnd : Operation → Bool
  | process _ => false
  | ban .. => true
  | expire .. => true
  | replacePolicy .. => false

theorem edits_attempt (sound : d.Sound) (h : op.attempt resolver hash digest d = .ok d') :
    Edits op.mayEnd d d' := by
  cases op with
  | process requests => exact edits_process sound h
  | ban nodeID request replace => exact edits_ban sound h
  | expire nodeID now => exact edits_expire sound h
  | replacePolicy expectedRevision policy updatedAt =>
    simp only [Operation.attempt, bind_eq_ok] at h
    obtain ⟨book, _, h⟩ := h
    cases h
    exact .elsewhere rfl

theorem edits_commit (sound : d.Sound) :
    Edits op.mayEnd d (op.commit resolver hash digest d) := by
  unfold Operation.commit
  split
  · rename_i after done
    exact edits_attempt sound done
  · exact .refl _ d

theorem sound_run (sound : d.Sound) (ops : List Operation) :
    (d.run resolver hash digest ops).Sound := by
  induction ops generalizing d with
  | nil => exact sound
  | cons op rest ih => exact ih ((edits_commit sound).sound sound)

theorem sound_empty (book : Book) : Docket.Sound { book := book } := by
  have none_ : ∀ id, Docket.row? { book := book } id = none := fun id => by
    simp [Docket.row?]
  refine ⟨fun id r found => ?_, fun id r found => ?_, fun r member => ?_⟩
  · rw [none_ id] at found
    cases found
  · rw [none_ id] at found
    cases found
  · obtain ⟨id, found⟩ := mem_allRows.mp member
    rw [none_ id] at found
    cases found

theorem record_repeated (sound : d.Sound) (member : row ∈ d.allRows)
    (active : row.bans r.nodeID r.target = true) (automatic : row.source = .automatic)
    (rule : row.ruleID = some r.ruleID)
    (h : recordAutomaticInTransaction hash digest referenced r d = .ok (result, d')) :
    result.created = false ∧ ∀ id, d'.row? id =
      if id = row.id then some (row.suppressed r.triggeredAt.unixMicro) else d.row? id := by
  have banned := active
  simp only [DecisionRow.bans, Bool.and_eq_true, beq_iff_eq] at banned
  obtain ⟨d1, p, changed, d2, _, ⟨_, _, one, _⟩ | ⟨created, current, found, one, two, three⟩⟩ :=
    recordAutomatic_cases h
  · -- the row stands in the way of another one
    obtain ⟨inserted, _⟩ | ⟨_, s, _, _, _, alone, _⟩ := insertRow_cases one
    · cases inserted
    · have apart := alone row member
      simp [DecisionRow.collides, DecisionRow.ofDecision, AutomaticRequest.candidate, banned,
        automatic, rule] at apart
  · refine ⟨created, fun id => ?_⟩
    obtain ⟨row', hit, rfl⟩ := decode_eq_some found
    have passes := List.find?_some hit
    have member' := List.mem_of_find?_eq_some hit
    simp only [DecisionRow.bans, Bool.and_eq_true, beq_iff_eq] at passes
    -- both rows are in the index under one key, so they are the same row
    have same : row'.id = row.id := by
      refine sound.alone row' member' row member ?_
      simp [DecisionRow.collides, passes, banned, automatic, rule]
    obtain ⟨held, s, stands, _, _, suppressed, rfl, _⟩ := suppressAutomaticDecision_cases one
    obtain ⟨key, filed⟩ := mem_allRows.mp member
    rw [← sound.filed key row filed] at filed
    have here : held = row := by
      rw [show row'.decision.id = row.id from same, filed] at stands
      cases stands
      rfl
    subst here
    have untouched : d'.row? id = (d.put s).row? id := by
      rw [appendCriticalAudit_cases three]
      unfold Docket.row?
      dsimp only
      rw [(rebuildProjection_rest two).1]
    rw [untouched, row?_put, suppressed]
    rfl

/-- Over any run of transactions from a database without Decisions: the Active rows are unique
under their keys, a Decision that has ended stays as it is, a repeated match only counts, and
every row reads back as a valid Decision. -/
theorem decisions_keep_their_rules (book : Book) (ops : List Operation) :
    let d := Docket.run resolver hash digest { book := book } ops
    (∀ r ∈ d.allRows, ∀ s ∈ d.allRows, r.state = .active → s.state = .active →
      r.nodeID = s.nodeID → r.canonicalTarget = s.canonicalTarget →
      (r.source = .automatic ∧ s.source = .automatic ∧ r.ruleID = s.ruleID ∨
        r.source = .manual ∧ s.source = .manual) → r = s) ∧
    (∀ (op : Operation) (id : String) (r : DecisionRow), d.row? id = some r → r.state ≠ .active →
      (op.commit resolver hash digest d).row? id = some r) ∧
    (∀ (r : AutomaticRequest) (referenced : Bool) (result : AutomaticResult) (d' : Docket)
      (row : DecisionRow), row ∈ d.allRows → row.bans r.nodeID r.target = true →
      row.source = .automatic → row.ruleID = some r.ruleID →
      recordAutomaticInTransaction hash digest referenced r d = .ok (result, d') →
      result.created = false ∧ ∀ id, d'.row? id =
        if id = row.id then
          some { row with
            lastTriggeredUS := max row.lastTriggeredUS r.triggeredAt.unixMicro
            suppressedCount := row.suppressedCount + 1 }
        else d.row? id) ∧
    (∀ (requests : List (AutomaticRequest × Bool)) (id : String) (r : DecisionRow),
      d.row? id = some r → ∃ triggered count,
        ((Operation.process requests).commit resolver hash digest d).row? id =
          some { r with lastTriggeredUS := triggered, suppressedCount := count }) ∧
    ∀ r ∈ d.allRows, decisionFromRow r = .ok r.decision ∧ r.decision.validate = .ok () := by
  intro d
  have sound : d.Sound := sound_run (sound_empty book) ops
  refine ⟨?_, ?_, ?_, ?_, ?_⟩
  · intro r first s second active active' node target key
    obtain ⟨id, found⟩ := mem_allRows.mp first
    obtain ⟨id', found'⟩ := mem_allRows.mp second
    have same : r.id = s.id := by
      refine sound.alone r first s second ?_
      obtain ⟨source, source', rule⟩ | ⟨source, source'⟩ := key
      · simp [DecisionRow.collides, active, active', node, target, source, source', rule]
      · simp [DecisionRow.collides, active, active', node, target, source, source']
    rw [← sound.filed id r found, same] at found
    rw [← sound.filed id' s found', found] at found'
    cases found'
    rfl
  · intro op id r found inactive
    obtain ⟨r', found', evolves⟩ := (edits_commit sound).evolves found
    rw [found', evolves.frozen inactive]
  · intro r referenced result d' row member active automatic rule done
    exact record_repeated sound member active automatic rule done
  · intro requests id r found
    have edits : Edits (Operation.process requests).mayEnd d
        ((Operation.process requests).commit resolver hash digest d) := edits_commit sound
    obtain ⟨r', found', evolves⟩ := edits.evolves found
    refine ⟨r'.lastTriggeredUS, r'.suppressedCount, found'.trans (congrArg some ?_)⟩
    have settled := evolves.settled rfl
    cases r
    cases r'
    simp only [DecisionRow.settled, DecisionRow.mk.injEq] at settled ⊢
    simp [settled]
  · intro r member
    obtain ⟨id, found⟩ := mem_allRows.mp member
    have checked := checked_of_row? found
    have genuine := sound.genuine id r found
    exact ⟨decisionFromRow_eq checked genuine, validate_decision checked genuine⟩

end Operations

end GuardWall.Decision
