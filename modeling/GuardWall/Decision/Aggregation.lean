import GuardWall.Decision.Rows
import Mathlib.Data.List.Induction

/-! After every transaction the stored projection of a target is the aggregation of its Active
Decisions. Inside a transaction this holds of every target but those whose rows were edited and
whose projection is still to be rebuilt. -/
namespace GuardWall.Decision

open GuardWall.Core GuardWall.Foundation GuardWall.Store

structure Aggregates (rows : List DecisionRow) (p : Projection) : Prop where
  present : p.state = .present ↔ rows ≠ []
  count : p.activeCount = rows.length
  lasting : p.effectiveUntil = none ↔ rows = [] ∨ ∃ r ∈ rows, r.expiresUS = none
  latest : ∀ t, p.effectiveUntil = some t → ∃ us, t = .ofMicro us ∧
    (∃ r ∈ rows, r.expiresUS = some us) ∧ ∀ r ∈ rows, ∀ us', r.expiresUS = some us' → us' ≤ us

section Tallies

structure Counted (rows : List DecisionRow) (t : Tally) : Prop where
  count : t.activeCount = rows.length
  finite : t.allFinite = true ↔ ∀ r ∈ rows, r.expiresUS ≠ none
  untouched : (∀ r ∈ rows, r.expiresUS = none) → t.latestExpiry = .zero
  latest : (∃ r ∈ rows, r.expiresUS ≠ none) → ∃ us, 0 < us ∧ t.latestExpiry = .ofMicro us ∧
    (∃ r ∈ rows, r.expiresUS = some us) ∧ ∀ r ∈ rows, ∀ us', r.expiresUS = some us' → us' ≤ us

theorem isZero_zero : Instant.zero.isZero = true := by decide

theorem Counted.step {rows : List DecisionRow} {t : Tally} {r : DecisionRow} (h : Counted rows t)
    (active : r.state = .active) (positive : ∀ us, r.expiresUS = some us → 0 < us) :
    Counted (rows ++ [r]) (t.count r.decision) := by
  have count := h.count
  cases found : r.expiresUS with
  | none =>
    have made : t.count r.decision =
        { t with activeCount := t.activeCount + 1, allFinite := false } := by
      simp [Tally.count, DecisionRow.decision, active, found]
    rw [made]
    refine ⟨by simp [count], by simp [found], fun all => h.untouched fun r' member =>
      all r' (by simp [member]), ?_⟩
    rintro ⟨r', member, timed⟩
    obtain member | rfl : r' ∈ rows ∨ r' = r := by simpa using member
    · obtain ⟨us, bound, made, ⟨r'', inside, reached⟩, greatest⟩ := h.latest ⟨r', member, timed⟩
      refine ⟨us, bound, made, ⟨r'', by simp [inside], reached⟩, ?_⟩
      simpa [or_imp, forall_and, found] using greatest
    · exact absurd found timed
  | some us =>
    have made : t.count r.decision =
        { t with
          activeCount := t.activeCount + 1
          latestExpiry :=
            if t.latestExpiry.isZero || (Instant.ofMicro us).after t.latestExpiry then .ofMicro us
            else t.latestExpiry } := by
      simp [Tally.count, DecisionRow.decision, active, found]
    rw [made]
    refine ⟨by simp [count], ?_, fun all => ?_, fun _ => ?_⟩
    · simp [h.finite, found, or_imp, forall_and]
    · have := all r (by simp)
      rw [found] at this
      cases this
    · simp only [List.forall_mem_append, List.forall_mem_singleton, found, Option.some.injEq,
        forall_eq']
      by_cases some_ : ∃ r' ∈ rows, r'.expiresUS ≠ none
      · obtain ⟨before, bound, same, ⟨r', member, reached⟩, greatest⟩ := h.latest some_
        simp only [same, isZero_ofMicro bound, Bool.false_or, Instant.after_ofMicro]
        by_cases later : before < us
        · refine ⟨us, positive us found, by simp [later], ⟨r, by simp, found⟩, ?_, le_rfl⟩
          exact fun r' member us' expires => (greatest r' member us' expires).trans later.le
        · exact ⟨before, bound, by simp [later], ⟨r', by simp [member], reached⟩, greatest,
            not_lt.mp later⟩
      · push Not at some_
        rw [h.untouched some_]
        refine ⟨us, positive us found, by simp [isZero_zero], ⟨r, by simp, found⟩, ?_, le_rfl⟩
        intro r' member us' expires
        rw [some_ r' member] at expires
        cases expires

theorem counted_foldl {rows : List DecisionRow} (active : ∀ r ∈ rows, r.state = .active)
    (positive : ∀ r ∈ rows, ∀ us, r.expiresUS = some us → 0 < us) :
    Counted rows ((rows.map DecisionRow.decision).foldl Tally.count {}) := by
  induction rows using List.reverseRecOn with
  | nil => exact ⟨rfl, by simp, fun _ => rfl, by simp⟩
  | append_singleton rows r ih =>
    rw [List.map_append, List.foldl_append]
    refine (ih ?_ ?_).step (active r (by simp)) (positive r (by simp))
    · exact fun r' member => active r' (by simp [member])
    · exact fun r' member => positive r' (by simp [member])

end Tallies

section Projections

variable {nodeID : String} {target : Prefix} {revision : Nat} {rows : List DecisionRow}
variable {p : Projection} {at_ : Instant}

theorem aggregates_of_aggregateProjection (active : ∀ r ∈ rows, r.state = .active)
    (positive : ∀ r ∈ rows, ∀ us, r.expiresUS = some us → 0 < us)
    (h : aggregateProjection nodeID target revision (rows.map DecisionRow.decision) = .ok p) :
    Aggregates rows p ∧ p.nodeID = nodeID ∧ p.canonicalTarget = target ∧ p.revision = revision ∧
      p.validate = .ok () := by
  have counted := counted_foldl active positive
  simp only [aggregateProjection, bind_eq_ok] at h
  obtain ⟨_, _, _, _, _, _, _, valid, h⟩ := h
  cases h
  refine ⟨?_, rfl, rfl, rfl, valid⟩
  generalize (rows.map DecisionRow.decision).foldl Tally.count {} = tally at counted
  have empty : tally.activeCount = 0 ↔ rows = [] := by
    rw [counted.count, List.length_eq_zero_iff]
  refine ⟨?_, counted.count, ?_, ?_⟩
  · simp only [empty]
    split <;> simp_all
  · simp only [ne_eq, empty, counted.finite]
    split
    · rename_i full
      simp only [reduceCtorEq, false_iff, not_or, not_exists, not_and]
      exact ⟨full.1, full.2⟩
    · rename_i none_
      simp only [true_iff]
      by_contra some_
      push Not at some_
      exact none_ some_
  · simp only [ne_eq, empty, counted.finite]
    intro t until_
    split at until_
    · rename_i full
      cases until_
      obtain ⟨r, rest, rfl⟩ := List.exists_cons_of_ne_nil full.1
      obtain ⟨us, _, same, reached, greatest⟩ :=
        counted.latest ⟨r, List.mem_cons_self, full.2 r List.mem_cons_self⟩
      exact ⟨us, same, reached, greatest⟩
    · cases until_

theorem truncateMicro_ofMicro (us : Int) : (Instant.ofMicro us).truncateMicro = .ofMicro us := by
  simp [Instant.truncateMicro]

theorem Aggregates.persisted (h : Aggregates rows p) : p.persisted = p := by
  unfold Projection.persisted
  cases until_ : p.effectiveUntil with
  | none =>
    rw [Option.map_none, ← until_]
  | some t =>
    obtain ⟨us, rfl, _⟩ := h.latest t until_
    rw [Option.map_some, truncateMicro_ofMicro, ← until_]

theorem putProjection_lookup {b b' : Book} (h : b.putProjection p at_ = .ok b') :
    (∀ t, b'.projections.lookup t =
      if t = p.canonicalTarget then some p.persisted else b.projections.lookup t) ∧
    b'.db = b.db ∧ p.nodeID = b.db.nodeID ∧
    ∀ old, b.projections.lookup p.canonicalTarget = some old →
      old = p.persisted ∨ old.revision < p.revision := by
  obtain ⟨_, home, ⟨found, rfl⟩ | ⟨newer, rfl⟩⟩ := Book.putProjection_cases h
  · refine ⟨fun t => ?_, rfl, home, fun old found' => ?_⟩
    · split
      · rename_i here
        rw [here, found]
      · rfl
    · rw [found] at found'
      cases found'
      exact .inl rfl
  · exact ⟨fun t => Table.lookup_insert, rfl, home, fun old found => .inr (newer old found)⟩

end Projections

def Docket.Posted (d : Docket) : Prop :=
  ∀ t p, d.book.projections.lookup t = some p →
    p.canonicalTarget = t ∧ p.nodeID = d.book.db.nodeID ∧ p.validate = .ok () ∧ p.persisted = p

def Docket.Reflects (d : Docket) (target : Prefix) : Prop :=
  match d.book.projections.lookup target with
  | none => d.activeRows d.book.db.nodeID target = []
  | some p => Aggregates (d.activeRows d.book.db.nodeID target) p

def Revised (b b' : Book) : Prop :=
  ∀ t p, b.projections.lookup t = some p →
    ∃ p', b'.projections.lookup t = some p' ∧ (p' = p ∨ p.revision < p'.revision)

theorem Revised.refl (b : Book) : Revised b b := fun _ p found => ⟨p, found, .inl rfl⟩

theorem Revised.trans {a b c : Book} (h : Revised a b) (h' : Revised b c) : Revised a c := by
  intro t p found
  obtain ⟨p', found', first⟩ := h t p found
  obtain ⟨p'', found'', second⟩ := h' t p' found'
  refine ⟨p'', found'', ?_⟩
  obtain rfl | first := first
  · exact second
  · obtain rfl | second := second
    · exact .inr first
    · exact .inr (first.trans second)

section ActiveRows

variable {d d' : Docket} {nodeID : String} {target : Prefix} {r : DecisionRow}

theorem mem_activeRows :
    r ∈ d.activeRows nodeID target ↔ r ∈ d.allRows ∧ r.bans nodeID target = true := by
  rw [Docket.activeRows, List.mem_insertionSort, List.mem_filter]

theorem nodup_allRows_ids (sound : d.Sound) : (d.allRows.map DecisionRow.id).Nodup := by
  have same : d.allRows.map DecisionRow.id = d.decisions.rows.map Prod.fst := by
    simp only [Docket.allRows, List.map_map]
    refine List.map_congr_left ?_
    rintro ⟨id, stored⟩ member
    refine sound.filed id stored.row ?_
    rw [Docket.row?, Table.mem_rows.mp member]
    rfl
  rw [same]
  exact d.decisions.nodup_rows_keys

theorem activeRows_congr (sound : d.Sound) (sound' : d'.Sound)
    (same : ∀ r : DecisionRow, r.bans nodeID target = true → (r ∈ d'.allRows ↔ r ∈ d.allRows)) :
    d'.activeRows nodeID target = d.activeRows nodeID target := by
  have distinct := (nodup_allRows_ids sound).of_map
  have distinct' := (nodup_allRows_ids sound').of_map
  have perm : (d'.activeRows nodeID target).Perm (d.activeRows nodeID target) := by
    refine (List.perm_insertionSort _ _).trans (.trans ?_ (List.perm_insertionSort _ _).symm)
    rw [List.perm_ext_iff_of_nodup (distinct'.filter _) (distinct.filter _)]
    intro r
    rw [List.mem_filter, List.mem_filter]
    constructor
    · rintro ⟨member, bans⟩
      exact ⟨(same r bans).mp member, bans⟩
    · rintro ⟨member, bans⟩
      exact ⟨(same r bans).mpr member, bans⟩
  have total : Std.Total fun r s : DecisionRow => r.id ≤ s.id := ⟨fun r s => String.le_total _ _⟩
  have transitive : IsTrans DecisionRow fun r s => r.id ≤ s.id :=
    ⟨fun _ _ _ => String.le_trans⟩
  refine List.Perm.eq_of_pairwise ?_ (List.pairwise_insertionSort _ _)
    (List.pairwise_insertionSort _ _) perm
  intro r s first second le ge
  obtain ⟨id, found⟩ := mem_allRows.mp (mem_activeRows.mp first).1
  obtain ⟨id', found'⟩ := mem_allRows.mp (mem_activeRows.mp (perm.symm.mem_iff.mp second)).1
  rw [← sound'.filed id r found, String.le_antisymm le ge, sound'.filed id' s found', found'] at found
  cases found
  rfl

theorem listActiveDecisions_eq {active : List Decision}
    (h : d.listActiveDecisions nodeID target = .ok active) :
    active = (d.activeRows nodeID target).map DecisionRow.decision := by
  refine eq_map_of_mapM_eq_ok (fun r value decoded => ?_) h
  simp only [within_eq_ok, decisionFromRow, bind_eq_ok] at decoded
  obtain ⟨_, _, decoded⟩ := decoded
  cases decoded
  rfl

theorem findDecisionProjection_cases {found : Option Projection}
    (h : d.findDecisionProjection nodeID target = .ok found) :
    found = (d.book.projections.lookup target).filter fun p => p.nodeID == nodeID := by
  unfold Docket.findDecisionProjection at h
  split at h
  · rename_i none_
    cases h
    exact none_.symm
  · rename_i p some_
    simp only [bind_eq_ok] at h
    obtain ⟨_, _, h⟩ := h
    cases h
    exact some_.symm

end ActiveRows

theorem equalTime_readBack {t u : Option Instant} (stored : t.map Instant.truncateMicro = t)
    (micros : ∀ v, u = some v → ∃ us, v = .ofMicro us) (same : Intent.equalTime t u = true) :
    t = u := by
  cases t with
  | none =>
    cases u with
    | none => rfl
    | some u => cases same
  | some t =>
    cases u with
    | none => cases same
    | some u =>
      obtain ⟨us, rfl⟩ := micros u rfl
      have read : Instant.ofMicro t.unixMicro = t := Option.some.inj stored
      generalize t.unixMicro = w at read
      subst read
      have wall : w * microsecond = us * microsecond := by
        simpa [Intent.equalTime, Instant.equal, Instant.ofMicro] using same
      unfold microsecond at wall
      rw [show w = us by omega]

theorem Aggregates.of_sameContent {rows : List DecisionRow} {p q : Projection}
    (h : Aggregates rows q) (stored : p.persisted = p) (same : sameProjectionContent p q = true) :
    Aggregates rows p := by
  simp only [sameProjectionContent, Bool.and_eq_true, beq_iff_eq] at same
  obtain ⟨⟨⟨⟨_, _⟩, state⟩, count⟩, times⟩ := same
  have until_ : p.effectiveUntil = q.effectiveUntil := by
    refine equalTime_readBack (congrArg Projection.effectiveUntil stored) (fun t until_ => ?_) times
    obtain ⟨us, same, _⟩ := h.latest t until_
    exact ⟨us, same⟩
  refine ⟨state ▸ h.present, count.trans h.count, ?_, ?_⟩
  · rw [until_]
    exact h.lasting
  · rw [until_]
    exact h.latest

section Rebuilding

variable {d d' : Docket} {nodeID : String} {target : Prefix} {at_ : Instant} {p : Projection}

structure Rebuilt (target : Prefix) (d d' : Docket) : Prop where
  decisions : d'.decisions = d.decisions
  audits : d'.audits = d.audits
  db : d'.book.db = d.book.db
  posted : d'.Posted
  others : ∀ t, t ≠ target → d'.book.projections.lookup t = d.book.projections.lookup t
  reflects : d'.Reflects target
  revised : Revised d.book d'.book

theorem activeRows_of_decisions (same : d'.decisions = d.decisions) :
    d'.activeRows nodeID target = d.activeRows nodeID target := by
  unfold Docket.activeRows Docket.allRows
  rw [same]

theorem validate_revision {p : Projection} (checked : p.validate = .ok ()) (revision : Nat) :
    ({ p with revision := revision + 1 } : Projection).validate = .ok () := by
  simp only [Projection.validate, bind_eq_ok, reject_eq_ok] at checked ⊢
  obtain ⟨_, node, _, canonical, _, _, state⟩ := checked
  exact ⟨(), node, (), canonical, (), by simp, state⟩

theorem aggregates_of_activeRows {revision : Nat} (h : aggregateProjection nodeID target revision
      ((d.activeRows nodeID target).map DecisionRow.decision) = .ok p) :
    Aggregates (d.activeRows nodeID target) p ∧ p.nodeID = nodeID ∧ p.canonicalTarget = target ∧
      p.revision = revision ∧ p.validate = .ok () := by
  refine aggregates_of_aggregateProjection (fun r member => ?_) (fun r member us expires => ?_) h
  · have bans := (mem_activeRows.mp member).2
    simp only [DecisionRow.bans, Bool.and_eq_true, beq_iff_eq] at bans
    exact bans.2
  · obtain ⟨id, row⟩ := mem_allRows.mp (mem_activeRows.mp member).1
    have checked := checked_of_row? row
    exact checked.created.trans_le (checked.expires us expires)

theorem rebuilt_rebuildProjection {force changed : Bool} (posted : d.Posted)
    (h : d.rebuildProjection nodeID target at_ force = .ok (p, changed, d')) :
    Rebuilt target d d' ∧ d'.book.projections.lookup target = some p := by
  obtain ⟨current, active, desired, found, listed, made, outcome⟩ := rebuildProjection_cases h
  have whole := findDecisionProjection_cases found
  rw [listActiveDecisions_eq listed] at made
  obtain ⟨aggregates, node, own, revision, valid⟩ := aggregates_of_activeRows made
  obtain ⟨_, _, rfl, same, rfl⟩ | ⟨_, stored, which⟩ := outcome
  · -- the projection stands as it is
    obtain ⟨lookup, home⟩ := Option.filter_eq_some_iff.mp whole.symm
    obtain ⟨_, node', _, persisted⟩ := posted target p lookup
    have home : nodeID = d'.book.db.nodeID := by rw [← node', eq_of_beq home]
    refine ⟨⟨rfl, rfl, rfl, posted, fun _ _ => rfl, ?_, .refl _⟩, lookup⟩
    unfold Docket.Reflects
    rw [lookup, ← home]
    exact aggregates.of_sameContent persisted same
  · have fresh : Aggregates (d.activeRows nodeID target) p ∧ p.nodeID = nodeID ∧
        p.canonicalTarget = target ∧ p.validate = .ok () := by
      obtain ⟨_, rfl⟩ | ⟨c, _, _, rfl⟩ := which
      · exact ⟨aggregates, node, own, valid⟩
      · exact ⟨⟨aggregates.present, aggregates.count, aggregates.lasting, aggregates.latest⟩,
          node, own, validate_revision valid c.revision⟩
    obtain ⟨aggregates, node, own, valid⟩ := fresh
    obtain ⟨book, put, rfl⟩ := putProjection_cases stored
    obtain ⟨lookup, db, home, revised⟩ := putProjection_lookup put
    rw [aggregates.persisted, own] at lookup
    have here : book.projections.lookup target = some p := by rw [lookup, if_pos rfl]
    refine ⟨⟨rfl, rfl, db, ?_, fun t other => by rw [lookup, if_neg other], ?_, ?_⟩, here⟩
    · intro t q found
      rw [lookup] at found
      split at found
      · rename_i same
        cases found
        dsimp only
        rw [db]
        exact ⟨own.trans same.symm, home, valid, aggregates.persisted⟩
      · dsimp only
        rw [db]
        exact posted t q found
    · unfold Docket.Reflects
      dsimp only
      rw [here, db, ← home, node]
      exact aggregates
    · intro t q found
      dsimp only
      rw [lookup]
      split
      · rename_i same
        rw [same, ← own] at found
        refine ⟨p, rfl, ?_⟩
        obtain equal | newer := revised q found
        · rw [aggregates.persisted] at equal
          exact .inl equal.symm
        · exact .inr newer
      · exact ⟨q, found, .inl rfl⟩

theorem Rebuilt.reflects_others (h : Rebuilt target d d') {t : Prefix} (before : d.Reflects t)
    (other : t ≠ target) : d'.Reflects t := by
  unfold Docket.Reflects at before ⊢
  rw [h.others t other, h.db, activeRows_of_decisions h.decisions]
  exact before

theorem rebuilt_rebuildEach {targets : List Prefix} {projections : List Projection}
    (posted : d.Posted) (before : ∀ t, t ∉ targets → d.Reflects t)
    (h : rebuildEach nodeID at_ targets d = .ok (projections, d')) :
    d'.decisions = d.decisions ∧ d'.book.db = d.book.db ∧ d'.Posted ∧ (∀ t, d'.Reflects t) ∧
      Revised d.book d'.book := by
  induction targets generalizing d projections with
  | nil =>
    cases h
    exact ⟨rfl, rfl, posted, fun t => before t List.not_mem_nil, .refl _⟩
  | cons target rest ih =>
    simp only [rebuildEach, bind_eq_ok] at h
    obtain ⟨⟨p, changed, middle⟩, one, ⟨others, last⟩, more, h⟩ := h
    cases h
    obtain ⟨rebuilt, _⟩ := rebuilt_rebuildProjection posted one
    have outside : ∀ t, t ∉ rest → middle.Reflects t := by
      intro t outside
      by_cases same : t = target
      · rw [same]
        exact rebuilt.reflects
      · exact rebuilt.reflects_others (before t (by simp [same, outside])) same
    obtain ⟨decisions, db, posted', all, revised⟩ := ih rebuilt.posted outside more
    exact ⟨decisions.trans rebuilt.decisions, db.trans rebuilt.db, posted', all,
      rebuilt.revised.trans revised⟩

end Rebuilding

structure EditedAt (targets : List Prefix) (d d' : Docket) : Prop where
  book : d'.book = d.book
  sound : d'.Sound
  rows : ∀ r : DecisionRow, r.canonicalTarget ∉ targets → (r ∈ d'.allRows ↔ r ∈ d.allRows)

section Editing

variable {d d' d'' : Docket} {targets targets' : List Prefix}

theorem EditedAt.refl (sound : d.Sound) : EditedAt targets d d := ⟨rfl, sound, fun _ _ => Iff.rfl⟩

theorem EditedAt.trans (h : EditedAt targets d d') (h' : EditedAt targets d' d'') :
    EditedAt targets d d'' :=
  ⟨h'.book.trans h.book, h'.sound, fun r outside => (h'.rows r outside).trans (h.rows r outside)⟩

theorem EditedAt.mono (h : EditedAt targets d d') (more : targets ⊆ targets') :
    EditedAt targets' d d' :=
  ⟨h.book, h.sound, fun r outside => h.rows r fun member => outside (more member)⟩

theorem EditedAt.reflects (h : EditedAt targets d d') (sound : d.Sound) {t : Prefix}
    (outside : t ∉ targets) (before : d.Reflects t) : d'.Reflects t := by
  have rows : d'.activeRows d.book.db.nodeID t = d.activeRows d.book.db.nodeID t := by
    refine activeRows_congr sound h.sound fun r bans => h.rows r ?_
    simp only [DecisionRow.bans, Bool.and_eq_true, beq_iff_eq] at bans
    rw [bans.1.2]
    exact outside
  unfold Docket.Reflects at before ⊢
  rw [h.book, rows]
  exact before

theorem editedAt_put {s : StoredDecision} (sound' : (d.put s).Sound)
    (old : ∀ r, d.row? s.row.id = some r → r.canonicalTarget = s.row.canonicalTarget) :
    EditedAt [s.row.canonicalTarget] d (d.put s) := by
  refine ⟨rfl, sound', fun r outside => ?_⟩
  rw [List.mem_singleton] at outside
  rw [mem_allRows, mem_allRows]
  constructor
  · rintro ⟨id, found⟩
    rw [row?_put] at found
    split at found
    · cases found
      exact absurd rfl outside
    · exact ⟨id, found⟩
  · rintro ⟨id, found⟩
    refine ⟨id, ?_⟩
    rw [row?_put, if_neg]
    · exact found
    · rintro rfl
      exact outside (old r found)

theorem editedAt_insertRow {referenced inserted : Bool} {row : DecisionRow} (sound : d.Sound)
    (genuine : row.Genuine) (h : d.insertRow referenced row = .ok (inserted, d')) :
    EditedAt [row.canonicalTarget] d d' := by
  have after : d'.Sound := Edits.sound (edits_insertRow genuine h : Edits true d d') sound
  obtain ⟨_, rfl⟩ | ⟨_, s, rfl, rfl, fresh, _⟩ := insertRow_cases h
  · exact .refl sound
  · refine editedAt_put after fun r found => ?_
    rw [fresh] at found
    cases found

theorem editedAt_replace {r : DecisionRow} {s : StoredDecision} {id : String} (sound : d.Sound)
    (sound' : (d.put s).Sound) (held : d.row? id = some r) (same : s.row.id = r.id)
    (target : s.row.canonicalTarget = r.canonicalTarget) :
    EditedAt [r.canonicalTarget] d (d.put s) := by
  rw [← target]
  refine editedAt_put sound' fun r' found => ?_
  rw [same, sound.filed id r held, held] at found
  cases found
  exact target.symm

theorem find_cases {context : String} {test : DecisionRow → Bool} {value : Decision}
    (sound : d.Sound) (h : Docket.decode context (d.allRows.find? test) = .ok (some value)) :
    ∃ r, d.row? r.id = some r ∧ test r = true ∧ value = r.decision := by
  obtain ⟨r, hit, same⟩ := decode_eq_some h
  obtain ⟨id, found⟩ := mem_allRows.mp (List.mem_of_find?_eq_some hit)
  rw [← sound.filed id r found] at found
  exact ⟨r, found, List.find?_some hit, same⟩

end Editing

structure Docket.Whole (d : Docket) : Prop where
  sound : d.Sound
  posted : d.Posted
  reflects : ∀ t, d.Reflects t

structure Carried (d d' : Docket) : Prop where
  whole : d'.Whole
  revised : Revised d.book d'.book

section Operations

variable {resolver : Resolver} {hash : Hash String} {digest : Hash (List String)}
variable {d d' d'' : Docket} {nodeID : String} {target : Prefix} {at_ : Instant}

theorem Carried.refl (whole : d.Whole) : Carried d d := ⟨whole, .refl _⟩

theorem Carried.trans (h : Carried d d') (h' : Carried d' d'') : Carried d d'' :=
  ⟨h'.whole, h.revised.trans h'.revised⟩

theorem carried_rebuild {force changed : Bool} {p : Projection} (whole : d.Whole)
    (edited : EditedAt [target] d d')
    (h : d'.rebuildProjection nodeID target at_ force = .ok (p, changed, d'')) : Carried d d'' := by
  have posted : d'.Posted := by
    intro t p found
    rw [edited.book] at found ⊢
    exact whole.posted t p found
  obtain ⟨rebuilt, _⟩ := rebuilt_rebuildProjection posted h
  have sound : d''.Sound := Edit.sound (.elsewhere rebuilt.decisions : Edit true d' d'') edited.sound
  refine ⟨⟨sound, rebuilt.posted, fun t => ?_⟩, ?_⟩
  · by_cases same : t = target
    · rw [same]
      exact rebuilt.reflects
    · refine rebuilt.reflects_others ?_ same
      exact edited.reflects whole.sound (by simpa using same) (whole.reflects t)
  · have revised := rebuilt.revised
    rw [edited.book] at revised
    exact revised

theorem Docket.Whole.carried (whole : d.Whole) (rows : d'.decisions = d.decisions)
    (projections : d'.book.projections = d.book.projections)
    (node : d'.book.db.nodeID = d.book.db.nodeID) : Carried d d' := by
  refine ⟨⟨Edit.sound (.elsewhere rows : Edit true d d') whole.sound, ?_, fun t => ?_⟩, ?_⟩
  · intro t p found
    rw [projections] at found
    rw [node]
    exact whole.posted t p found
  · have before := whole.reflects t
    unfold Docket.Reflects at before ⊢
    rw [projections, node, activeRows_of_decisions rows]
    exact before
  · intro t p found
    rw [projections]
    exact ⟨p, found, .inl rfl⟩

theorem carried_audit {audit : DecisionAudit} (whole : d.Whole)
    (h : d.appendCriticalAudit audit = .ok d') : Carried d d' := by
  rw [appendCriticalAudit_cases h]
  exact whole.carried rfl rfl rfl

theorem carried_finalize {affected : List Projection} (whole : d.Whole)
    (h : d.finalizeTargets resolver affected at_ = .ok d') : Carried d d' := by
  obtain ⟨final, rows, _⟩ := finalizeTargets_cases h
  obtain ⟨projections, node⟩ := finalize_rest final
  exact whole.carried rows projections node

theorem carried_recordAutomatic {r : AutomaticRequest} {referenced : Bool}
    {result : AutomaticResult} (whole : d.Whole)
    (h : recordAutomaticInTransaction hash digest referenced r d = .ok (result, d')) :
    Carried d d' := by
  obtain ⟨d1, p, changed, d2, _, ⟨_, valid, one, two, three⟩ |
    ⟨_, current, found, one, two, three⟩⟩ := recordAutomatic_cases h
  · have edited := editedAt_insertRow whole.sound (genuine_ofDecision valid) one
    have rebuilt := carried_rebuild whole edited two
    exact rebuilt.trans (carried_audit rebuilt.whole three)
  · obtain ⟨row, held, passes, rfl⟩ := find_cases whole.sound found
    simp only [DecisionRow.bans, Bool.and_eq_true, beq_iff_eq] at passes
    have sound := Edits.sound (edits_suppress whole.sound one : Edits true d d1) whole.sound
    have edited : EditedAt [r.target] d d1 := by
      obtain ⟨row', s, held', _, _, same, rfl, _⟩ := suppressAutomaticDecision_cases one
      rw [show row.decision.id = row.id from rfl, held] at held'
      cases held'
      rw [← passes.1.1.1.2]
      exact editedAt_replace whole.sound sound held (by rw [same]; rfl) (by rw [same]; rfl)
    have rebuilt := carried_rebuild whole edited two
    exact rebuilt.trans (carried_audit rebuilt.whole three)

theorem carried_recordEach {requests : List (AutomaticRequest × Bool)} {g g' : Gathered}
    (whole : d.Whole) (h : recordEach hash digest requests g d = .ok (g', d')) :
    Carried d d' :=
  recordEach_keeps (P := Carried d)
    (fun _ _ _ _ _ before one => before.trans (carried_recordAutomatic before.whole one)) h
    (.refl whole)

theorem carried_process {requests : List (AutomaticRequest × Bool)} (whole : d.Whole)
    (h : processDecisions resolver hash digest requests d = .ok d') : Carried d d' := by
  obtain ⟨gathered, middle, one, outcome⟩ := process_cases h
  have first := carried_recordEach whole one
  obtain ⟨_, rfl⟩ | ⟨_, h⟩ := outcome
  · exact first
  · exact first.trans (carried_finalize first.whole h)

theorem carried_ban {r : ManualRequest} {replace : Bool} (whole : d.Whole)
    (h : banManual resolver digest nodeID r replace d = .ok d') : Carried d d' := by
  obtain ⟨valid, d1, d2, p, changed, last, q, statements, _, h⟩ := ban_cases h
  have recorded : Carried d last := by
    obtain ⟨one, two, three⟩ | ⟨current, previous, d3, found, one, two, three, four⟩ := statements
    · have edited := editedAt_insertRow whole.sound (genuine_ofDecision valid) one
      have rebuilt := carried_rebuild whole edited two
      exact rebuilt.trans (carried_audit rebuilt.whole three)
    obtain ⟨row, held, passes, rfl⟩ := find_cases whole.sound found
    simp only [DecisionRow.bans, Bool.and_eq_true, beq_iff_eq] at passes
    have sound := (edits_revoke whole.sound one).sound whole.sound
    have revoked : EditedAt [r.target] d d1 := by
      obtain ⟨row', s, held', _, _, same, rfl, _⟩ := revokeActiveManualDecision_cases one
      rw [show row.decision.id = row.id from rfl, held] at held'
      cases held'
      rw [← passes.1.1.2]
      exact editedAt_replace whole.sound sound held (by rw [same]; rfl) (by rw [same]; rfl)
    have audited : EditedAt [r.target] d1 d2 := by
      have sound' := Edits.sound (edits_appendCriticalAudit two : Edits true d1 d2) sound
      rw [appendCriticalAudit_cases two] at sound' ⊢
      exact ⟨rfl, sound', fun _ _ => Iff.rfl⟩
    have inserted := editedAt_insertRow audited.sound (genuine_ofDecision valid) three
    exact carried_rebuild whole ((revoked.trans audited).trans inserted) four
  exact recorded.trans (carried_finalize recorded.whole h)

theorem mem_affectedTargets {seen : List Prefix} {ds : List Decision} {t : Prefix} :
    t ∈ affectedTargets seen ds ↔ t ∉ seen ∧ ∃ v ∈ ds, v.canonicalTarget = t := by
  induction ds generalizing seen with
  | nil => simp [affectedTargets]
  | cons v rest ih =>
    unfold affectedTargets
    split
    · rename_i known
      rw [ih]
      constructor
      · rintro ⟨new, v', member, same⟩
        exact ⟨new, v', .tail _ member, same⟩
      · rintro ⟨new, v', member, same⟩
        obtain rfl | member := List.mem_cons.mp member
        · exact absurd (same ▸ known) new
        · exact ⟨new, v', member, same⟩
    · rename_i new
      rw [List.mem_cons, ih]
      constructor
      · rintro (rfl | ⟨other, v', member, same⟩)
        · exact ⟨new, v, List.mem_cons_self, rfl⟩
        · exact ⟨fun known => other (.tail _ known), v', .tail _ member, same⟩
      · rintro ⟨other, v', member, same⟩
        by_cases here : t = v.canonicalTarget
        · exact .inl here
        · obtain rfl | member := List.mem_cons.mp member
          · exact absurd same.symm here
          · exact .inr ⟨by simp [here, other], v', member, same⟩

theorem editedAt_expireRows {rows : List DecisionRow} {values : List Decision} (sound : d.Sound)
    (due : ∀ row ∈ rows, row.due nodeID at_.unixMicro = true)
    (held : ∀ row ∈ rows, ∃ r, d.row? row.id = some r ∧ r.canonicalTarget = row.canonicalTarget)
    (h : Docket.expireRows nodeID at_ rows d = .ok (values, d')) :
    EditedAt (values.map Decision.canonicalTarget) d d' := by
  induction rows generalizing d values with
  | nil =>
    cases h
    exact .refl sound
  | cons row rest ih =>
    simp only [Docket.expireRows, bind_eq_ok] at h
    obtain ⟨⟨value, middle⟩, one, ⟨others, last⟩, more, h⟩ := h
    cases h
    have edits := edits_expireRow sound (due row List.mem_cons_self) one
    have sound' := edits.sound sound
    have kept : ∀ row' ∈ rest, ∃ r, middle.row? row'.id = some r ∧
        r.canonicalTarget = row'.canonicalTarget := by
      intro row' member
      obtain ⟨r, found, same⟩ := held row' (.tail _ member)
      obtain ⟨r', found', evolves⟩ := edits.evolves found
      exact ⟨r', found', (congrArg DecisionRow.canonicalTarget evolves.identity).trans same⟩
    have first : EditedAt [value.canonicalTarget] d middle := by
      obtain ⟨r, found, same⟩ := held row List.mem_cons_self
      obtain ⟨r', s, found', _, _, _, stored, rfl, rfl⟩ := expireRow_cases one
      rw [found] at found'
      cases found'
      rw [show (row.ended at_.unixMicro .expired .expired).decision.canonicalTarget =
        r.canonicalTarget from same.symm]
      exact editedAt_replace sound sound' found (by rw [stored]; rfl) (by rw [stored]; rfl)
    have later := ih sound' (fun r member => due r (.tail _ member)) kept more
    exact (first.mono (by simp)).trans (later.mono (by simp))

theorem carried_expire (whole : d.Whole) (h : expire resolver digest nodeID at_ d = .ok d') :
    Carried d d' := by
  obtain ⟨_, _, due, d1, d2, ps, d3, one, two, three, h⟩ := expire_cases h
  have swept : EditedAt (due.map Decision.canonicalTarget) d d1 := by
    refine editedAt_expireRows whole.sound (fun row member => (List.mem_filter.mp member).2)
      (fun row member => ?_) one
    obtain ⟨id, found⟩ := mem_allRows.mp (List.mem_filter.mp member).1
    rw [← whole.sound.filed id row found] at found
    exact ⟨row, found, rfl⟩
  -- the audits change neither rows nor projections
  have audited : d2.decisions = d1.decisions ∧ d2.book = d1.book := by
    rw [auditEach_cases two]
    exact ⟨rfl, rfl⟩
  have posted : d2.Posted := by
    intro t p found
    rw [audited.2, swept.book] at found ⊢
    exact whole.posted t p found
  have outside : ∀ t, t ∉ affectedTargets [] (due.insertionSort expiryOrder) → d2.Reflects t := by
    intro t outside
    rw [mem_affectedTargets] at outside
    have before : d1.Reflects t := by
      refine swept.reflects whole.sound ?_ (whole.reflects t)
      intro member
      obtain ⟨value, member, same⟩ := List.mem_map.mp member
      exact outside ⟨List.not_mem_nil, value, (List.mem_insertionSort _).mpr member, same⟩
    unfold Docket.Reflects at before ⊢
    rw [audited.2, activeRows_of_decisions audited.1]
    exact before
  obtain ⟨rows, db, posted', reflects, revised⟩ := rebuilt_rebuildEach posted outside three
  have sound : d3.Sound :=
    Edit.sound (.elsewhere (rows.trans audited.1) : Edit true d1 d3) swept.sound
  rw [audited.2, swept.book] at revised
  have rebuilt : Carried d d3 := ⟨⟨sound, posted', reflects⟩, revised⟩
  exact rebuilt.trans (carried_finalize rebuilt.whole h)

theorem carried_attempt {op : Operation} (whole : d.Whole)
    (h : op.attempt resolver hash digest d = .ok d') : Carried d d' := by
  cases op with
  | process requests => exact carried_process whole h
  | ban nodeID request replace => exact carried_ban whole h
  | expire nodeID now => exact carried_expire whole h
  | replacePolicy expectedRevision policy updatedAt =>
    simp only [Operation.attempt, bind_eq_ok] at h
    obtain ⟨book, replaced, h⟩ := h
    cases h
    obtain ⟨projections, node⟩ := replace_rest replaced
    exact whole.carried rfl projections node

theorem carried_commit (whole : d.Whole) (op : Operation) :
    Carried d (op.commit resolver hash digest d) := by
  unfold Operation.commit
  split
  · rename_i after done
    exact carried_attempt whole done
  · exact .refl whole

theorem whole_run (whole : d.Whole) (ops : List Operation) :
    (d.run resolver hash digest ops).Whole := by
  induction ops generalizing d with
  | nil => exact whole
  | cons op rest ih => exact ih (carried_commit whole op).whole

theorem whole_empty (db : Database) : Docket.Whole { book := { db := db } } := by
  refine ⟨sound_empty _, fun t p found => ?_, fun t => ?_⟩
  · simp at found
  · simp [Docket.Reflects, Docket.activeRows, Docket.allRows, Table.rows]

/-- Over any run of transactions from a database without Decisions and projections: the stored
projection of every target is the aggregation of its Active Decisions, and no transaction rewrites
one without a greater revision. -/
theorem projections_aggregate_active_decisions (db : Database) (ops : List Operation) :
    let d := Docket.run resolver hash digest { book := { db := db } } ops
    (∀ target,
      match d.book.projections.lookup target with
      | none => d.activeRows d.book.db.nodeID target = []
      | some p => Aggregates (d.activeRows d.book.db.nodeID target) p) ∧
    ∀ (op : Operation) (target : Prefix) (p : Projection),
      d.book.projections.lookup target = some p →
      ∃ p', (op.commit resolver hash digest d).book.projections.lookup target = some p' ∧
        (p' = p ∨ p.revision < p'.revision) := by
  intro d
  have whole : d.Whole := whole_run (whole_empty db) ops
  exact ⟨whole.reflects, fun op => (carried_commit whole op).revised⟩

end Operations

end GuardWall.Decision
