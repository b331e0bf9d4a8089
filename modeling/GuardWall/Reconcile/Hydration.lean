import GuardWall.Reconcile.Persistence
import GuardWall.Store.Effects

/-! What hydration makes of a durable ledger: one state for every row, one pending Probe for
every requirement, and a synthetic state for a requirement whose row has moved on. -/
namespace GuardWall.Reconcile

open GuardWall.Core GuardWall.Foundation GuardWall.Store

def requirementOf (nodeID : String) (id : ProbeID) (us : Int) : ProbeRequirement :=
  ⟨nodeID, id.key, id.epoch, id.attempt, Instant.ofMicro us⟩

variable {nodeID : String} {p : ProbeRequirement} {db : Database} {r : Recovery}
  {base c c' : Controller}

theorem decodeProbeRequirement_eq {id : ProbeID} {us : Int}
    (h : decodeProbeRequirement nodeID (id, us) = .ok p) :
    p = requirementOf nodeID id us := by
  unfold decodeProbeRequirement at h
  simp only [bind_eq_ok] at h
  obtain ⟨_, _, _, _, h⟩ := h
  cases h
  rfl

theorem decodeReconcileState_eq {slot : ReconcileKey} {row : StateRow} {p : PersistedState}
    (h : decodeReconcileState nodeID slot row = .ok p) :
    p = row.state nodeID slot := by
  unfold decodeReconcileState at h
  simp only [bind_eq_ok] at h
  obtain ⟨_, _, _, _, h⟩ := h
  cases h
  rfl

structure Loaded (nodeID : String) (db : Database) (r : Recovery) : Prop where
  node : db.nodeID = nodeID
  decodes : ∀ slot row, db.row? slot = some row →
    decodeReconcileState nodeID slot row = .ok (row.state nodeID slot)
  states : ∀ p, p ∈ r.states ↔ ∃ slot row, db.row? slot = some row ∧ p = row.state nodeID slot
  probes : ∀ p, p ∈ r.probes ↔
    ∃ id us, db.probes.lookup id = some us ∧ p = requirementOf nodeID id us

theorem loaded_of_loadRecovery (h : loadRecovery nodeID db = .ok r) : Loaded nodeID db r := by
  unfold loadRecovery Database.requireNodeIdentity at h
  simp only [bind_eq_ok, reject_eq_ok] at h
  obtain ⟨_, node, states, hStates, probes, hProbes, h⟩ := h
  cases h
  have decodes : ∀ slot row, db.row? slot = some row →
      decodeReconcileState nodeID slot row = .ok (row.state nodeID slot) := by
    intro slot row found
    obtain ⟨p, decoded⟩ := ok_of_mapM_eq_ok hStates (slot, row) (Table.mem_rows.mpr found)
    rw [within_eq_ok] at decoded
    rw [decoded, decodeReconcileState_eq decoded]
  refine ⟨by simpa using node, decodes, ?_, ?_⟩
  · intro p
    rw [mem_of_mapM_eq_ok hStates]
    constructor
    · rintro ⟨⟨slot, row⟩, member, decoded⟩
      exact ⟨slot, row, Table.mem_rows.mp member, decodeReconcileState_eq (within_eq_ok.mp decoded)⟩
    · rintro ⟨slot, row, found, rfl⟩
      exact ⟨(slot, row), Table.mem_rows.mpr found, within_eq_ok.mpr (decodes slot row found)⟩
  · intro p
    rw [mem_of_mapM_eq_ok hProbes]
    constructor
    · rintro ⟨⟨id, us⟩, member, decoded⟩
      exact ⟨id, us, Table.mem_rows.mp member, decodeProbeRequirement_eq (within_eq_ok.mp decoded)⟩
    · rintro ⟨id, us, found, rfl⟩
      have member := Table.mem_rows.mpr found
      obtain ⟨p, decoded⟩ := ok_of_mapM_eq_ok hProbes (id, us) member
      refine ⟨(id, us), member, ?_⟩
      rw [within_eq_ok] at decoded ⊢
      rw [decoded, decodeProbeRequirement_eq decoded]

theorem loadRecovery_of_loadReconcileRecovery (h : loadReconcileRecovery nodeID db = .ok r) :
    loadRecovery nodeID db = .ok r := by
  unfold loadReconcileRecovery at h
  simp only [within_eq_ok, bind_eq_ok] at h
  obtain ⟨_, _, h⟩ := h
  exact h

theorem loaded_of_loadReconcileRecovery (h : loadReconcileRecovery nodeID db = .ok r) :
    Loaded nodeID db r :=
  loaded_of_loadRecovery (loadRecovery_of_loadReconcileRecovery h)

namespace Controller

@[simp] theorem state?_putState (c : Controller) (ref : AttemptRef) (state : RetryState)
    (other : AttemptRef) :
    (c.putState ref state).state? other = if other = ref then some state else c.state? other := by
  unfold putState state?
  split
  · rename_i same
    rw [same, AList.lookup_insert]
  · rename_i different
    rw [AList.lookup_insert_ne different]

def Rehydrates (c c' : Controller) : Prop :=
  c' = { c with
    states := c'.states
    pendingProbes := c'.pendingProbes
    syntheticRefs := c'.syntheticRefs }

theorem Rehydrates.refl (c : Controller) : c.Rehydrates c := rfl

end Controller

theorem recoverApplying_attemptCount {s st : RetryState} (h : recoverApplying s = .ok st) :
    st.attemptCount = s.attemptCount := by
  unfold recoverApplying at h
  split at h
  · cases h
    rfl
  · split at h
    · cases h
      rfl
    · split at h
      · cases h
        rfl
      · cases h

structure StatesTaken (base : Controller) (taken : List PersistedState) (c : Controller) : Prop where
  shape : base.Rehydrates c
  pendingProbes : c.pendingProbes = base.pendingProbes
  syntheticRefs : c.syntheticRefs = base.syntheticRefs
  recovered : ∀ p ∈ taken, ∃ st, recoverApplying p.retry = .ok st
  state? : (taken.map PersistedState.ref).Nodup → ∀ ref st, c.state? ref = some st ↔
    (∃ p ∈ taken, p.ref = ref ∧ recoverApplying p.retry = .ok st) ∨
      base.state? ref = some st ∧ ∀ p ∈ taken, p.ref ≠ ref

theorem statesTaken_step {taken : List PersistedState} {p : PersistedState}
    (h : StatesTaken base taken c) (step : hydrateState c p = .ok c') :
    StatesTaken base (taken ++ [p]) c' := by
  unfold hydrateState at step
  simp only [bind_eq_ok] at step
  obtain ⟨_, _, _, _, _, _, st, recovered, step⟩ := step
  cases step
  refine ⟨?_, h.pendingProbes, h.syntheticRefs, ?_, ?_⟩
  · unfold Controller.Rehydrates
    rw [h.shape]
    rfl
  · intro q member
    obtain member | member := List.mem_append.mp member
    · exact h.recovered q member
    · rw [List.mem_singleton.mp member]
      exact ⟨st, recovered⟩
  · intro distinct ref found
    rw [List.map_append, List.nodup_append] at distinct
    obtain ⟨distinct, _, apart⟩ := distinct
    simp only [Controller.state?_putState, List.mem_append, List.mem_singleton]
    split
    · rename_i same
      subst same
      constructor
      · rintro ⟨⟩
        exact .inl ⟨p, .inr rfl, rfl, recovered⟩
      · rintro (⟨q, member | rfl, same, eq⟩ | ⟨_, missing⟩)
        · exact absurd same (apart q.ref (List.mem_map_of_mem member) p.ref (by simp))
        · rw [recovered] at eq
          cases eq
          rfl
        · exact absurd rfl (missing p (.inr rfl))
    · rename_i different
      rw [h.state? distinct]
      constructor
      · rintro (⟨q, member, same, eq⟩ | ⟨old, missing⟩)
        · exact .inl ⟨q, .inl member, same, eq⟩
        · refine .inr ⟨old, ?_⟩
          rintro q (member | rfl)
          · exact missing q member
          · exact Ne.symm different
      · rintro (⟨q, member | rfl, same, eq⟩ | ⟨old, missing⟩)
        · exact .inl ⟨q, member, same, eq⟩
        · exact absurd same.symm different
        · exact .inr ⟨old, fun q member => missing q (.inl member)⟩

structure ProbesTaken (base : Controller) (taken : List ProbeRequirement) (c : Controller) :
    Prop where
  shape : base.Rehydrates c
  kept : ∀ ref st, base.state? ref = some st → c.state? ref = some st
  state? : ∀ ref st, c.state? ref = some st → base.state? ref = some st ∨
    base.state? ref = none ∧ ∃ p ∈ taken, p.ref = ref ∧
      st = { status := .applying, attemptCount := p.attempt }
  agrees : ∀ p ∈ taken, ∃ st, c.state? p.ref = some st ∧ st.attemptCount = p.attempt ∧
    probeCompatible st.status = true
  pending : ∀ key ref, c.pendingProbes.lookup key = some ref ↔
    base.pendingProbes.lookup key = some ref ∨ ∃ p ∈ taken, p.key = key ∧ p.ref = ref
  synthetic : ∀ ref, ref ∈ c.syntheticRefs ↔
    ref ∈ base.syntheticRefs ∨ base.state? ref = none ∧ ∃ p ∈ taken, p.ref = ref

private theorem pending_insert {taken : List ProbeRequirement}
    (before : ∀ key ref, c.pendingProbes.lookup key = some ref ↔
      base.pendingProbes.lookup key = some ref ∨ ∃ q ∈ taken, q.key = key ∧ q.ref = ref)
    (unused : c.pendingProbes.lookup p.key = none) (key : PendingProbeKey) (ref : AttemptRef) :
    (c.pendingProbes.insert p.key p.ref).lookup key = some ref ↔
      base.pendingProbes.lookup key = some ref ∨
        ∃ q ∈ taken ++ [p], q.key = key ∧ q.ref = ref := by
  simp only [List.mem_append, List.mem_singleton]
  by_cases same : key = p.key
  · subst same
    have fresh : ¬ (base.pendingProbes.lookup p.key = some ref ∨
        ∃ q ∈ taken, q.key = p.key ∧ q.ref = ref) := by
      rw [← before, unused]
      exact (Option.some_ne_none ref).symm
    rw [AList.lookup_insert, Option.some.injEq]
    constructor
    · intro eq
      exact .inr ⟨p, .inr rfl, rfl, eq⟩
    · rintro (old | ⟨q, member | rfl, keys, eq⟩)
      · exact absurd (.inl old) fresh
      · exact absurd (.inr ⟨q, member, keys, eq⟩) fresh
      · exact eq
  · rw [AList.lookup_insert_ne same, before]
    constructor
    · rintro (old | ⟨q, member, keys, eq⟩)
      · exact .inl old
      · exact .inr ⟨q, .inl member, keys, eq⟩
    · rintro (old | ⟨q, member | rfl, keys, eq⟩)
      · exact .inl old
      · exact .inr ⟨q, member, keys, eq⟩
      · exact absurd keys.symm same

theorem probesTaken_step {taken : List ProbeRequirement} (h : ProbesTaken base taken c)
    (step : hydrateProbe c p = .ok c') : ProbesTaken base (taken ++ [p]) c' := by
  unfold hydrateProbe at step
  simp only [bind_eq_ok, reject_eq_ok] at step
  obtain ⟨_, _, _, _, _, _, _, unused, step⟩ := step
  have unused : c.pendingProbes.lookup p.key = none := by simpa using unused
  split at step
  · rename_i state found
    simp only [bind_eq_ok, reject_eq_ok, bne_eq_false_iff_eq, Bool.not_eq_false'] at step
    obtain ⟨_, count, _, compatible, step⟩ := step
    cases step
    refine ⟨?_, h.kept, ?_, ?_, pending_insert h.pending unused, ?_⟩
    · unfold Controller.Rehydrates
      rw [h.shape]
    · intro ref st known
      obtain old | ⟨missing, q, member, same, eq⟩ := h.state? ref st known
      · exact .inl old
      · exact .inr ⟨missing, q, List.mem_append_left _ member, same, eq⟩
    · intro q member
      obtain member | member := List.mem_append.mp member
      · exact h.agrees q member
      · rw [List.mem_singleton.mp member]
        exact ⟨state, found, count, compatible⟩
    · intro ref
      change ref ∈ c.syntheticRefs ↔ _
      rw [h.synthetic]
      constructor
      · rintro (old | ⟨missing, q, member, same⟩)
        · exact .inl old
        · exact .inr ⟨missing, q, List.mem_append_left _ member, same⟩
      · rintro (old | ⟨missing, q, member, same⟩)
        · exact .inl old
        · obtain member | member := List.mem_append.mp member
          · exact .inr ⟨missing, q, member, same⟩
          · rw [List.mem_singleton.mp member] at same
            subst same
            obtain old | ⟨_, q', member', same', _⟩ := h.state? _ _ found
            · rw [missing] at old
              cases old
            · exact .inr ⟨missing, q', member', same'⟩
  · rename_i missing
    cases step
    have absent : base.state? p.ref = none := by
      cases old : base.state? p.ref with
      | none => rfl
      | some st =>
        rw [h.kept _ _ old] at missing
        cases missing
    have lookup : ∀ ref, Controller.state?
        { c.putState p.ref { status := .applying, attemptCount := p.attempt } with
          pendingProbes := c.pendingProbes.insert p.key p.ref
          syntheticRefs := insert p.ref c.syntheticRefs } ref =
        if ref = p.ref then some { status := .applying, attemptCount := p.attempt }
        else c.state? ref := Controller.state?_putState c _ _
    refine ⟨?_, ?_, ?_, ?_, pending_insert h.pending unused, ?_⟩
    · unfold Controller.Rehydrates
      rw [h.shape]
      rfl
    · intro ref st known
      rw [lookup, if_neg]
      · exact h.kept ref st known
      · rintro rfl
        rw [absent] at known
        cases known
    · intro ref st known
      rw [lookup] at known
      split at known
      · rename_i same
        cases known
        exact .inr ⟨same ▸ absent, p, by simp, same.symm, rfl⟩
      · obtain old | ⟨none_, q, member, same, eq⟩ := h.state? ref st known
        · exact .inl old
        · exact .inr ⟨none_, q, List.mem_append_left _ member, same, eq⟩
    · intro q member
      rw [lookup]
      obtain member | member := List.mem_append.mp member
      · rw [if_neg]
        · exact h.agrees q member
        · intro same
          obtain ⟨st, found, _⟩ := h.agrees q member
          rw [same, missing] at found
          cases found
      · rw [List.mem_singleton.mp member, if_pos rfl]
        exact ⟨_, rfl, rfl, rfl⟩
    · intro ref
      change ref ∈ insert p.ref c.syntheticRefs ↔ _
      rw [Finset.mem_insert, h.synthetic]
      constructor
      · rintro (rfl | old | ⟨none_, q, member, same⟩)
        · exact .inr ⟨absent, p, by simp, rfl⟩
        · exact .inl old
        · exact .inr ⟨none_, q, List.mem_append_left _ member, same⟩
      · rintro (old | ⟨none_, q, member, same⟩)
        · exact .inr (.inl old)
        · obtain member | member := List.mem_append.mp member
          · exact .inr (.inr ⟨none_, q, member, same⟩)
          · rw [List.mem_singleton.mp member] at same
            exact .inl same.symm

/-- The memory hydration builds from the durable ledger of a node. -/
structure Hydrated (nodeID : String) (db : Database) (c : Controller) : Prop where
  shape : Controller.Rehydrates { nodeID := nodeID } c
  row : ∀ slot row, db.row? slot = some row →
    ∃ st, recoverApplying row.retry = .ok st ∧ c.state? (row.ref slot) = some st
  /-- Every state is that of a row or the synthetic one of a requirement without a row. -/
  state : ∀ ref st, c.state? ref = some st →
    (∃ row, db.row? ref.slot = some row ∧ row.ref ref.slot = ref ∧
      recoverApplying row.retry = .ok st) ∨
    (∀ row, db.row? ref.slot = some row → row.ref ref.slot ≠ ref) ∧
      ∃ id us, db.probes.lookup id = some us ∧ id.ref = ref ∧
        st = { status := .applying, attemptCount := id.attempt }
  probe : ∀ id us, db.probes.lookup id = some us →
    ∃ st, c.state? id.ref = some st ∧ st.attemptCount = id.attempt ∧
      probeCompatible st.status = true
  pending : ∀ key ref, c.pendingProbes.lookup key = some ref ↔
    ∃ id us, db.probes.lookup id = some us ∧ id.key = key ∧ id.ref = ref
  synthetic : ∀ ref, ref ∈ c.syntheticRefs ↔
    (∀ row, db.row? ref.slot = some row → row.ref ref.slot ≠ ref) ∧
      ∃ id us, db.probes.lookup id = some us ∧ id.ref = ref
  applying : ∀ slot row, db.row? slot = some row → row.status = .applying →
    ∃ id us, db.probes.lookup id = some us ∧ id.ref = row.ref slot

theorem nodup_refs (h : loadRecovery nodeID db = .ok r) :
    (r.states.map PersistedState.ref).Nodup := by
  unfold loadRecovery at h
  simp only [bind_eq_ok] at h
  obtain ⟨_, _, states, hStates, probes, _, h⟩ := h
  cases h
  have slots : (states.map fun p => p.ref.slot) = db.ledger.rows.map Prod.fst := by
    generalize db.ledger.rows = rows at hStates
    induction rows generalizing states with
    | nil =>
      cases hStates
      rfl
    | cons entry rest ih =>
      simp only [List.mapM_cons, bind_eq_ok, within_eq_ok] at hStates
      obtain ⟨head, hHead, tail, hTail, hStates⟩ := hStates
      cases hStates
      rw [List.map_cons, List.map_cons, ih tail hTail, decodeReconcileState_eq hHead]
      rfl
  have distinct := db.ledger.nodup_rows_keys
  rw [← slots] at distinct
  exact List.Nodup.of_map (fun ref : AttemptRef => ref.slot) (by rwa [List.map_map])

section States

variable {nodeID owner : String} {db : Database} {r : Recovery} {c : Controller}
  (load : loadRecovery nodeID db = .ok r) (states : StatesTaken { nodeID := owner } r.states c)

include load states

theorem state?_of_states (ref : AttemptRef) (st : RetryState) :
    c.state? ref = some st ↔ ∃ row, db.row? ref.slot = some row ∧ row.ref ref.slot = ref ∧
      recoverApplying row.retry = .ok st := by
  have loaded := loaded_of_loadRecovery load
  rw [states.state? (nodup_refs load)]
  constructor
  · rintro (⟨p, member, same, recovered⟩ | ⟨empty, _⟩)
    · obtain ⟨slot, row, found, rfl⟩ := (loaded.states p).mp member
      subst same
      exact ⟨row, found, rfl, recovered⟩
    · cases empty
  · rintro ⟨row, found, same, recovered⟩
    exact .inl ⟨_, (loaded.states _).mpr ⟨_, row, found, rfl⟩, same, recovered⟩

private theorem recovered_of_states {slot : ReconcileKey} {row : StateRow}
    (found : db.row? slot = some row) : ∃ st, recoverApplying row.retry = .ok st :=
  states.recovered _ (((loaded_of_loadRecovery load).states _).mpr ⟨slot, row, found, rfl⟩)

private theorem unknown_of_states (ref : AttemptRef) :
    c.state? ref = none ↔ ∀ row, db.row? ref.slot = some row → row.ref ref.slot ≠ ref := by
  rw [Option.eq_none_iff_forall_ne_some]
  constructor
  · intro none_ row found same
    obtain ⟨st, recovered⟩ := recovered_of_states load states found
    exact none_ st ((state?_of_states load states ref st).mpr ⟨row, found, same, recovered⟩)
  · intro none_ st found
    obtain ⟨row, found, same, _⟩ := (state?_of_states load states ref st).mp found
    exact none_ row found same

end States

theorem hydrated_of_loadRecovery {owner : String} (load : loadRecovery nodeID db = .ok r)
    (h : Controller.hydrateRecovery r { nodeID := owner } = .ok c) : Hydrated owner db c := by
  have loaded := loaded_of_loadRecovery load
  unfold Controller.hydrateRecovery at h
  simp only [bind_eq_ok, reject_eq_ok] at h
  obtain ⟨stated, hStates, _, hProbes, _, guarded, h⟩ := h
  cases h
  -- the states first: one for every row, and nothing else is known yet
  have states := foldlM_eq_ok (StatesTaken { nodeID := owner })
    (fun _ _ _ _ before step => statesTaken_step before step) r.states [] _ stated
    ⟨Controller.Rehydrates.refl _, rfl, rfl, by simp, by simp⟩ hStates
  rw [List.nil_append] at states
  have known := state?_of_states load states
  have unknown := unknown_of_states load states
  -- then the requirements, on top of those states
  have probes := foldlM_eq_ok (ProbesTaken stated)
    (fun _ _ _ _ before step => probesTaken_step before step) r.probes [] _ _
    ⟨Controller.Rehydrates.refl _, fun _ _ h => h, fun _ _ h => .inl h, by simp, by simp,
      by simp⟩ hProbes
  rw [List.nil_append] at probes
  have pendingEmpty : ∀ key ref, stated.pendingProbes.lookup key ≠ some ref := by
    intro key ref
    rw [states.pendingProbes]
    exact (Option.some_ne_none ref).symm
  have pending : ∀ key ref, c.pendingProbes.lookup key = some ref ↔
      ∃ id us, db.probes.lookup id = some us ∧ id.key = key ∧ id.ref = ref := by
    intro key ref
    rw [probes.pending]
    constructor
    · rintro (old | ⟨p, member, keys, refs⟩)
      · exact absurd old (pendingEmpty key ref)
      · obtain ⟨id, us, found, rfl⟩ := (loaded.probes p).mp member
        exact ⟨id, us, found, keys, refs⟩
    · rintro ⟨id, us, found, keys, refs⟩
      exact .inr ⟨_, (loaded.probes _).mpr ⟨id, us, found, rfl⟩, keys, refs⟩
  refine ⟨?_, ?_, ?_, ?_, pending, ?_, ?_⟩
  · unfold Controller.Rehydrates
    rw [probes.shape, states.shape]
  · intro slot row found
    obtain ⟨st, recovered⟩ := recovered_of_states load states found
    exact ⟨st, recovered, probes.kept _ _ ((known _ st).mpr ⟨row, found, rfl, recovered⟩)⟩
  · intro ref st found
    obtain old | ⟨missing, p, member, same, eq⟩ := probes.state? ref st found
    · exact .inl ((known ref st).mp old)
    · obtain ⟨id, us, found, rfl⟩ := (loaded.probes p).mp member
      exact .inr ⟨(unknown ref).mp missing, id, us, found, same, eq⟩
  · intro id us found
    exact probes.agrees _ ((loaded.probes _).mpr ⟨id, us, found, rfl⟩)
  · intro ref
    rw [probes.synthetic, unknown, states.syntheticRefs]
    constructor
    · rintro (empty | ⟨missing, p, member, same⟩)
      · cases empty
      · obtain ⟨id, us, found, rfl⟩ := (loaded.probes p).mp member
        exact ⟨missing, id, us, found, same⟩
    · rintro ⟨missing, id, us, found, same⟩
      exact .inr ⟨missing, _, (loaded.probes _).mpr ⟨id, us, found, rfl⟩, same⟩
  · intro slot row found applying
    have member := (loaded.states (row.state nodeID slot)).mpr ⟨_, row, found, rfl⟩
    rw [List.any_eq_false] at guarded
    have held : c.hasPendingRef (row.ref slot) = true := by
      have := guarded _ member
      simpa [StateRow.state, StateRow.retry, applying] using this
    unfold Controller.hasPendingRef at held
    rw [List.any_eq_true] at held
    obtain ⟨⟨key, ref⟩, entry, same⟩ := held
    obtain ⟨id, us, found, _, refs⟩ := (pending key ref).mp (Table.mem_rows.mp entry)
    exact ⟨id, us, found, refs.trans (by simpa using same)⟩

/-- Replacing the recovered state keeps everything else, except that the retry epochs follow
the new states where Desired state is published. -/
structure Replaced (r : Recovery) (c c' : Controller) : Prop where
  hydrated : ∃ h, Controller.hydrateRecovery r { nodeID := c.nodeID } = .ok h ∧
    c'.states = h.states ∧ c'.pendingProbes = h.pendingProbes ∧ c'.syntheticRefs = h.syntheticRefs
  nodeID : c'.nodeID = c.nodeID
  desired : c'.desired = c.desired
  epochs : ∀ slot version, c'.published? slot = some version →
    c'.epochs slot = c'.maxEpoch slot version
  startup : c'.startupProbeRequired = !(r.states.isEmpty && r.probes.isEmpty)

theorem replaced_of_replaceRecovery (h : c.replaceRecovery r = .ok c') : Replaced r c c' := by
  unfold Controller.replaceRecovery at h
  simp only [bind_eq_ok] at h
  obtain ⟨hydrated, eq, h⟩ := h
  cases h
  split
  · refine ⟨⟨hydrated, eq, rfl, rfl, rfl⟩, rfl, rfl, ?_, rfl⟩
    intro slot version published
    change Controller.published? { c with
      states := hydrated.states
      pendingProbes := hydrated.pendingProbes
      syntheticRefs := hydrated.syntheticRefs
      startupProbeRequired := !(r.states.isEmpty && r.probes.isEmpty) } slot = _ at published
    unfold Controller.activateHydratedState
    dsimp only
    rw [published]
    rfl
  · rename_i unpublished
    refine ⟨⟨hydrated, eq, rfl, rfl, rfl⟩, rfl, rfl, ?_, rfl⟩
    have none_ : c.desired = none := by simpa using unpublished
    intro slot version published
    cases slot <;> simp [Controller.published?, Controller.desiredTarget?, none_] at published

end GuardWall.Reconcile
