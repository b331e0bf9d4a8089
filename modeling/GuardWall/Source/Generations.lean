import GuardWall.Source.Changes

/-! What holds of the generations of every source in every run: their states and their coverage
only advance, the coverage has no gap, and nothing refers to a Retired generation. -/
namespace GuardWall.Source

open GuardWall.Core GuardWall.Foundation GuardWall.Processor

inductive FileGenerationState.Next : FileGenerationState → FileGenerationState → Prop
  | drain : Next .opened .draining
  | sealOpen : Next .opened .sealed
  | sealDraining : Next .draining .sealed
  | retire : Next .sealed .retired

structure Follows (row row' : FileGenerationRow) : Prop where
  state : Relation.ReflTransGen FileGenerationState.Next row.state row'.state
  durable : ∀ durable, row.durableEndOffset = some durable →
    ∃ durable', row'.durableEndOffset = some durable' ∧ durable ≤ durable'

theorem Follows.refl (row : FileGenerationRow) : Follows row row :=
  ⟨.refl, fun durable known => ⟨durable, known, le_rfl⟩⟩

theorem Follows.trans {row row' row'' : FileGenerationRow} (first : Follows row row')
    (second : Follows row' row'') : Follows row row'' := by
  refine ⟨first.state.trans second.state, fun durable known => ?_⟩
  obtain ⟨durable', known', le⟩ := first.durable durable known
  obtain ⟨durable'', known'', le'⟩ := second.durable durable' known'
  exact ⟨durable'', known'', le.trans le'⟩

section Revisions

variable {covers : FilePosition → Prop} {row row' : FileGenerationRow}

theorem follows_revision (h : Revision covers row row') : Follows row row' := by
  cases h with
  | drained us isOpen =>
    exact ⟨.single (by rw [isOpen]; exact .drain), fun durable known => ⟨durable, known, le_rfl⟩⟩
  | sealed eof sequence us unsealed =>
    refine ⟨.single ?_, fun durable known => ⟨durable, known, le_rfl⟩⟩
    obtain isOpen | draining := unsealed
    · rw [isOpen]
      exact .sealOpen
    · rw [draining]
      exact .sealDraining
  | claimed session live unknown =>
    refine ⟨.refl, fun durable known => ?_⟩
    rw [unknown] at known
    cases known
  | covered session span durable live known joined further ranged =>
    refine ⟨.refl, fun durable' known' => ⟨span.endOffset, rfl, ?_⟩⟩
    rw [known] at known'
    cases known'
    exact further.le

theorem not_retired_revision (h : Revision covers row row') :
    row.state ≠ .retired ∧ row'.state ≠ .retired := by
  cases h with
  | drained us isOpen => simp [isOpen]
  | sealed eof sequence us unsealed =>
    obtain isOpen | draining := unsealed
    · simp [isOpen]
    · simp [draining]
  | claimed session live unknown
  | covered session span durable live known joined further ranged => exact ⟨live, live⟩

end Revisions

section Rows

variable {t t' : Registry} {saves : List Save} {sourceID generation : String}
  {row : FileGenerationRow}

theorem row_of_change (h : Change saves t t') (found : t'.row? sourceID generation = some row) :
    t.row? sourceID generation = some row ∨
      (t.row? sourceID generation = none ∧ row.state = .opened ∧ row.durableEndOffset = none) ∨
      ∃ old, t.row? sourceID generation = some old ∧
        Revision (fun span => span.generation = generation ∧ Spans saves sourceID span) old row := by
  cases h with
  | source | checkpoint | receipt => exact .inl found
  | opened s g stored fresh isOpen unknown alone =>
    rw [Registry.row?_store] at found
    split at found
    · rename_i same
      obtain ⟨rfl, rfl⟩ := same
      cases found
      exact .inr (.inl ⟨fresh, isOpen, unknown⟩)
    · exact .inl found
  | revised s g old stored present revision alone =>
    rw [Registry.row?_store] at found
    split at found
    · rename_i same
      obtain ⟨rfl, rfl⟩ := same
      cases found
      exact .inr (.inr ⟨old, present, revision⟩)
    · exact .inl found

theorem change_keeps_row (h : Change saves t t') (found : t.row? sourceID generation = some row) :
    ∃ row', t'.row? sourceID generation = some row' ∧ Follows row row' ∧
      (row'.state = .retired → row.state = .retired) := by
  have same : ∃ row', t.row? sourceID generation = some row' ∧ Follows row row' ∧
      (row'.state = .retired → row.state = .retired) := ⟨row, found, .refl row, id⟩
  cases h with
  | source | checkpoint | receipt => exact same
  | opened s g stored fresh isOpen unknown alone =>
    rw [Registry.row?_store]
    split
    · rename_i equal
      obtain ⟨rfl, rfl⟩ := equal
      rw [fresh] at found
      cases found
    · exact same
  | revised s g old stored present revision alone =>
    rw [Registry.row?_store]
    split
    · rename_i equal
      obtain ⟨rfl, rfl⟩ := equal
      rw [found] at present
      cases present
      exact ⟨_, rfl, follows_revision revision,
        fun retired => absurd retired (not_retired_revision revision).2⟩
    · exact same

theorem path_keeps_row (h : Path saves t t') (found : t.row? sourceID generation = some row) :
    ∃ row', t'.row? sourceID generation = some row' ∧ Follows row row' ∧
      (row'.state = .retired → row.state = .retired) := by
  induction h with
  | refl => exact ⟨row, found, .refl row, id⟩
  | tail _ change ih =>
    obtain ⟨middle, present, first, retired⟩ := ih
    obtain ⟨row', present', second, retired'⟩ := change_keeps_row change present
    exact ⟨row', present', first.trans second, fun final => retired (retired' final)⟩

theorem retires_keeps_row (h : Retires t t') (found : t.row? sourceID generation = some row) :
    ∃ row', t'.row? sourceID generation = some row' ∧ Follows row row' ∧
      (row'.state = .retired → row.state ≠ .retired →
        (fileGenerationFromRow sourceID generation row).coverageComplete = true) := by
  cases h with
  | retired s g old stored us present complete unreceipted unmarked written =>
    rw [Registry.row?_store]
    split
    · rename_i same
      obtain ⟨rfl, rfl⟩ := same
      rw [found] at present
      cases present
      refine ⟨_, rfl, ?_, fun _ _ => complete⟩
      simp only [FileGeneration.coverageComplete, fileGenerationFromRow, Bool.and_eq_true,
        beq_iff_eq, Option.some.injEq] at complete
      obtain ⟨⟨⟨⟨sealed, _⟩, _⟩, _⟩, _⟩ := complete
      rw [written]
      exact ⟨.single (by rw [sealed]; exact .retire), (Follows.refl row).durable⟩
    · exact ⟨row, found, .refl row, fun retired live => absurd retired live⟩

end Rows

def Gapless (saves : List Save) (t : Registry) : Prop :=
  ∀ sourceID generation row durable, t.row? sourceID generation = some row →
    row.durableEndOffset = some durable → ∀ byte < durable, ∃ span : FilePosition,
      span.generation = generation ∧ Spans saves sourceID span ∧
        span.startOffset ≤ byte ∧ byte < span.endOffset

structure Sound (t : Registry) : Prop where
  alone : ∀ sourceID g g' row row', t.row? sourceID g = some row →
    t.row? sourceID g' = some row' → row.state = .opened → row'.state = .opened → g = g'
  covered : ∀ sourceID generation row, t.row? sourceID generation = some row →
    row.state = .retired → ∃ eof, row.finalEOF = some eof ∧ row.durableEndOffset = some eof
  unreceipted : ∀ sourceID generation row, t.row? sourceID generation = some row →
    row.state = .retired → ∀ id receipt, t.receipts.lookup id = some receipt →
      receipt.sourceID = sourceID → receipt.generation ≠ some generation
  unmarked : ∀ sourceID generation row, t.row? sourceID generation = some row →
    row.state = .retired → ∀ current, t.checkpoints.lookup sourceID = some current →
      generationOf current.position ≠ some generation

section Invariants

variable {t t' : Registry} {saves saves' : List Save}

theorem Gapless.mono (h : Gapless saves t) (grown : saves ⊆ saves') : Gapless saves' t := by
  intro sourceID generation row durable found known byte below
  obtain ⟨span, same, spans, within⟩ := h _ _ _ _ found known byte below
  exact ⟨span, same, spans.mono grown, within⟩

theorem Gapless.change (h : Gapless saves t) (change : Change saves t t') : Gapless saves t' := by
  intro sourceID generation row durable found known byte below
  obtain same | ⟨_, _, unknown⟩ | ⟨old, present, revision⟩ := row_of_change change found
  · exact h _ _ _ _ same known byte below
  · rw [unknown] at known
    cases known
  · cases revision with
    | drained | sealed => exact h _ _ _ _ present known byte below
    | claimed session live unknown =>
      cases known
      exact absurd below (Nat.not_lt_zero byte)
    | covered session span reached live known' joined further ranged =>
      cases known
      -- Below the old end the old ranges hold the byte; the new one reaches back to that end.
      by_cases old_byte : byte < reached
      · exact h _ _ _ _ present known' byte old_byte
      · exact ⟨span, ranged.1, ranged.2, joined.trans (not_lt.mp old_byte), below⟩

theorem Gapless.retires (h : Gapless saves t) (retires : Retires t t') : Gapless saves t' := by
  cases retires with
  | retired s g old stored us present complete unreceipted unmarked written =>
    intro sourceID generation row durable found known byte below
    rw [Registry.row?_store] at found
    split at found
    · rename_i same
      obtain ⟨rfl, rfl⟩ := same
      cases found
      rw [written] at known
      exact h _ _ _ _ present known byte below
    · exact h _ _ _ _ found known byte below

variable {sourceID g : String} {row : FileGenerationRow} {op : Operation}

theorem eq_of_otherOpen {g' : String} (alone : t.otherOpen sourceID g = false)
    (found : t.row? sourceID g' = some row) (isOpen : row.state = .opened) : g' = g := by
  obtain ⟨stored, present, rfl⟩ := Option.map_eq_some_iff.mp found
  have other := List.any_eq_false.mp alone _ (Table.mem_rows.mpr present)
  simpa [isOpen] using other

theorem alone_store (h : Sound t) {s : String} {stored : StoredGeneration}
    (index : stored.row.state = .opened → t.otherOpen s g = false) {g₁ g₂ : String}
    {row' : FileGenerationRow} (found : (t.store s g stored).row? sourceID g₁ = some row)
    (found' : (t.store s g stored).row? sourceID g₂ = some row') (isOpen : row.state = .opened)
    (isOpen' : row'.state = .opened) : g₁ = g₂ := by
  rw [Registry.row?_store] at found found'
  split at found <;> split at found'
  · rename_i same same'
    exact same.2.trans same'.2.symm
  · rename_i same differ
    obtain ⟨rfl, rfl⟩ := same
    cases found
    exact (eq_of_otherOpen (index isOpen) found' isOpen').symm
  · rename_i differ same
    obtain ⟨rfl, rfl⟩ := same
    cases found'
    exact eq_of_otherOpen (index isOpen') found isOpen
  · exact h.alone _ _ _ _ _ found found' isOpen isOpen'

theorem Sound.store (h : Sound t) {s : String} {stored : StoredGeneration}
    (index : stored.row.state = .opened → t.otherOpen s g = false)
    (live : stored.row.state ≠ .retired) : Sound (t.store s g stored) := by
  have old {sourceID generation : String} {row : FileGenerationRow}
      (found : (t.store s g stored).row? sourceID generation = some row)
      (retired : row.state = .retired) : t.row? sourceID generation = some row := by
    rw [Registry.row?_store] at found
    split at found
    · cases found
      exact absurd retired live
    · exact found
  exact ⟨fun _ _ _ _ _ found found' => alone_store h index found found',
    fun _ _ _ found retired => h.covered _ _ _ (old found retired) retired,
    fun _ _ _ found retired => h.unreceipted _ _ _ (old found retired) retired,
    fun _ _ _ found retired => h.unmarked _ _ _ (old found retired) retired⟩

theorem Sound.change (h : Sound t) (change : Change saves t t') : Sound t' := by
  cases change with
  | source id source fresh idle => exact ⟨h.alone, h.covered, h.unreceipted, h.unmarked⟩
  | opened s g stored fresh isOpen unknown alone =>
    exact h.store (fun _ => alone) (by simp [isOpen])
  | revised s g old stored present revision alone =>
    exact h.store alone (not_retired_revision revision).2
  | checkpoint session checkpoint active own later live =>
    refine ⟨h.alone, h.covered, h.unreceipted, ?_⟩
    intro sourceID generation row found retired current written same
    change (t.checkpoints.insert session.sourceID checkpoint).lookup sourceID = some current
      at written
    rw [Table.lookup_insert] at written
    split at written
    · rename_i equal
      subst equal
      cases written
      obtain ⟨row', found', unretired⟩ := live generation same
      rw [show t.row? session.sourceID generation = some row from found] at found'
      cases found'
      exact unretired retired
    · exact h.unmarked _ _ _ found retired current written same
  | receipt id receipt live =>
    refine ⟨h.alone, h.covered, ?_, h.unmarked⟩
    intro sourceID generation row found retired id' receipt' written source same
    change (t.receipts.insert id receipt).lookup id' = some receipt' at written
    rw [Table.lookup_insert] at written
    split at written
    · cases written
      obtain ⟨row', found', unretired⟩ := live generation same
      rw [source, show t.row? sourceID generation = some row from found] at found'
      cases found'
      exact unretired retired
    · exact h.unreceipted _ _ _ found retired id' receipt' written source same

theorem Sound.retires (h : Sound t) (retires : Retires t t') : Sound t' := by
  cases retires with
  | retired s g old stored us present complete unreceipted unmarked written =>
    have state : stored.row.state = .retired := by rw [written]
    refine ⟨fun _ _ _ _ _ found found' => alone_store h (by simp [state]) found found',
      ?_, ?_, ?_⟩
    all_goals
      intro sourceID generation row found retired
      rw [Registry.row?_store] at found
      split at found
    · cases found
      simp only [FileGeneration.coverageComplete, fileGenerationFromRow, Bool.and_eq_true,
        beq_iff_eq, Option.isSome_iff_exists] at complete
      obtain ⟨⟨_, eof, sealed⟩, durable⟩ := complete
      exact ⟨eof, by rw [written, sealed], by rw [written, durable, sealed]⟩
    · exact h.covered _ _ _ found retired
    · rename_i same
      obtain ⟨rfl, rfl⟩ := same
      intro id receipt put source refers
      have counted := List.any_eq_false.mp unreceipted _ (Table.mem_rows.mpr put)
      simp [source, refers] at counted
    · exact h.unreceipted _ _ _ found retired
    · rename_i same
      obtain ⟨rfl, rfl⟩ := same
      intro current put refers
      have put : t.checkpoints.lookup sourceID = some current := put
      simp [Registry.checkpointReferences, put, refers] at unmarked
    · exact h.unmarked _ _ _ found retired

theorem Sound.effect (h : Sound t) (effect : Effect op saves t t') :
    Sound t' := by
  cases effect with
  | path path =>
    induction path with
    | refl => exact h
    | tail _ change ih => exact ih.change change
  | retires retires => exact h.retires retires
  | begins sourceID expected newID begun begins =>
    cases begins
    exact ⟨h.alone, h.covered, h.unreceipted, h.unmarked⟩

theorem Gapless.effect (h : Gapless saves t) (effect : Effect op saves t t') :
    Gapless saves t' := by
  cases effect with
  | path path =>
    induction path with
    | refl => exact h
    | tail _ change ih => exact ih.change change
  | retires retires => exact h.retires retires
  | begins sourceID expected newID begun begins =>
    cases begins
    exact h

theorem effect_keeps_row {generation : String} (effect : Effect op saves t t')
    (found : t.row? sourceID generation = some row) :
    ∃ row', t'.row? sourceID generation = some row' ∧ Follows row row' ∧
      (row'.state = .retired → row.state ≠ .retired →
        (fileGenerationFromRow sourceID generation row).coverageComplete = true) := by
  cases effect with
  | path path =>
    obtain ⟨row', found', follows, retired⟩ := path_keeps_row path found
    exact ⟨row', found', follows, fun final live => absurd (retired final) live⟩
  | retires retires => exact retires_keeps_row retires found
  | begins sourceID expected newID begun begins =>
    cases begins
    exact ⟨row, found, .refl row, fun retired live => absurd retired live⟩

end Invariants

/-- The checkpoint of a source where one of its sessions had come to `sequence`: it is still the
session's and as far, or the session is no longer active. -/
def Ahead (session : SourceSession) (sequence : Nat) (t : Registry) : Prop :=
  ∃ current, t.checkpoints.lookup session.sourceID = some current ∧
    ((current.sessionID = some session.id ∧ sequence ≤ current.sequence) ∨
      (current.sessionID ≠ some session.id ∧ t.holds session = false))

section Sessions

variable {t t' : Registry} {saves : List Save} {session : SourceSession} {sequence : Nat}

theorem id_of_holds {other : SourceSession} (h : t.holds session = true)
    (h' : t.holds other = true) (same : session.sourceID = other.sourceID) :
    session.id = other.id := by
  simp only [Registry.holds, Option.any_eq_true, beq_iff_eq] at h h'
  obtain ⟨source, found, active⟩ := h
  obtain ⟨source', found', active'⟩ := h'
  rw [same, found'] at found
  cases found
  rw [active] at active'
  exact Option.some.inj active'

theorem Ahead.sources (h : Ahead session sequence t) (checkpoints : t'.checkpoints = t.checkpoints)
    (idle : t'.holds session = true → t.holds session = true) : Ahead session sequence t' := by
  obtain ⟨current, found, own | ⟨other, inactive⟩⟩ := h
  · exact ⟨current, by rw [checkpoints, found], .inl own⟩
  · refine ⟨current, by rw [checkpoints, found], .inr ⟨other, ?_⟩⟩
    rw [Bool.eq_false_iff] at inactive ⊢
    exact fun active => inactive (idle active)

theorem Ahead.change (h : Ahead session sequence t) (change : Change saves t t') :
    Ahead session sequence t' := by
  cases change with
  | source id source fresh idle =>
    refine h.sources rfl fun active => ?_
    simp only [Registry.holds, Table.lookup_insert] at active
    split at active
    · simp [idle] at active
    · exact active
  | opened | revised => exact h.sources rfl id
  | receipt id receipt live => exact h.sources rfl fun active => active
  | checkpoint writer checkpoint active own later live =>
    obtain ⟨current, found, rest⟩ := h
    by_cases elsewhere : session.sourceID = writer.sourceID
    · refine ⟨checkpoint, by simp [Table.lookup_insert, elsewhere], ?_⟩
      rw [elsewhere] at found
      by_cases same : session.id = writer.id
      · obtain rfl : session = writer := by
          cases session
          cases writer
          simp_all
        obtain ⟨mine, le⟩ | ⟨_, inactive⟩ := rest
        · exact .inl ⟨own, le.trans (later current found mine).le⟩
        · rw [active] at inactive
          cases inactive
      · refine .inr ⟨fun mine => same ?_, ?_⟩
        · rw [own] at mine
          exact (Option.some.inj mine).symm
        · rw [Bool.eq_false_iff]
          exact fun held => same (id_of_holds held active elsewhere)
    · exact ⟨current, by simp [elsewhere, found], rest⟩

theorem Ahead.effect {op : Operation} (h : Ahead session sequence t)
    (effect : Effect op saves t t')
    (other : ∀ expected, op ≠ .beginSession session.sourceID expected session.id) :
    Ahead session sequence t' := by
  cases effect with
  | path path =>
    induction path with
    | refl => exact h
    | tail _ change ih => exact ih.change change
  | retires retires =>
    cases retires
    exact h.sources rfl id
  | begins sourceID expected newID begun begins =>
    cases begins with
    | begun source found =>
      refine h.sources rfl fun active => ?_
      simp only [Registry.holds, Table.lookup_insert] at active
      split at active
      · rename_i same
        simp only [Option.any_some, beq_iff_eq, Option.some.injEq] at active
        exact absurd (by rw [begun, active, same]) (other expected)
      · exact active

end Sessions

section Runs

variable (hash : DeliveryHash)

def Archive.installed (nodeID : Option String) : Archive := { registry := { nodeID := nodeID } }

structure Kept (a : Archive) : Prop where
  sound : Sound a.registry
  gapless : Gapless a.saves a.registry

theorem kept_installed (nodeID : Option String) : Kept (.installed nodeID) := by
  have empty {sourceID generation : String} {row : FileGenerationRow}
      (found : (Archive.installed nodeID).registry.row? sourceID generation = some row) : False := by
    cases found
  exact ⟨⟨fun _ _ _ _ _ found => (empty found).elim, fun _ _ _ found => (empty found).elim,
    fun _ _ _ found => (empty found).elim, fun _ _ _ found => (empty found).elim⟩,
    fun _ _ _ _ found => (empty found).elim⟩

variable {hash} {a : Archive}

theorem Kept.step (h : Kept a) (op : Operation × Bool) : Kept (a.step hash op) :=
  ⟨h.sound.effect (effect_step hash a op),
    (h.gapless.mono (saves_step hash a op)).effect (effect_step hash a op)⟩

theorem Archive.run_append (ops later : List (Operation × Bool)) :
    a.run hash (ops ++ later) = (a.run hash ops).run hash later :=
  List.foldl_append

theorem Kept.run (h : Kept a) (ops : List (Operation × Bool)) : Kept (a.run hash ops) := by
  induction ops generalizing a with
  | nil => exact h
  | cons op rest ih => exact ih (h.step op)

theorem run_keeps_row {sourceID generation : String} {row : FileGenerationRow}
    (found : a.registry.row? sourceID generation = some row) (ops : List (Operation × Bool)) :
    ∃ row', (a.run hash ops).registry.row? sourceID generation = some row' ∧ Follows row row' := by
  induction ops generalizing a row with
  | nil => exact ⟨row, found, .refl row⟩
  | cons op rest ih =>
    obtain ⟨middle, found', first, _⟩ := effect_keeps_row (effect_step hash a op) found
    obtain ⟨row', found'', second⟩ := ih found'
    exact ⟨row', found'', first.trans second⟩

theorem Ahead.run {session : SourceSession} {sequence : Nat}
    (h : Ahead session sequence a.registry) {ops : List (Operation × Bool)}
    (other : ∀ op ∈ ops, ∀ expected,
      op.1 ≠ .beginSession session.sourceID expected session.id) :
    Ahead session sequence (a.run hash ops).registry := by
  induction ops generalizing a with
  | nil => exact h
  | cons op rest ih =>
    exact ih (h.effect (effect_step hash a op) (other op List.mem_cons_self))
      fun later member => other later (List.mem_cons_of_mem _ member)

/-- A save one of whose ranges is refused after the checkpoint and the ranges before it were
written. -/
def RejectsRange (t : Registry) (s : Save) : Prop :=
  ∃ written advancing taken span rest reached fault,
    t.advanceCheckpointRow s.session s.sequence s.position true s.persistedAt =
      .ok (written, advancing) ∧
    s.ranges = taken ++ span :: rest ∧
    taken.foldlM (Registry.advanceSpan s.session advancing) written = .ok reached ∧
    Registry.advanceSpan s.session advancing reached span = .error fault

theorem RejectsRange.not_ok {t t' : Registry} {s : Save} (h : RejectsRange t s) :
    t.advanceSourceCheckpointWithCoverage s.session s.sequence s.position s.ranges
      s.persistedAt ≠ .ok t' := by
  intro saved
  obtain ⟨written, advancing, taken, span, rest, reached, fault, row, ranges, before, refused⟩ := h
  simp only [Registry.advanceSourceCheckpointWithCoverage, bind_eq_ok, row, Except.ok.injEq,
    exists_eq_left'] at saved
  unfold Registry.advanceFileCoverage at saved
  split at saved
  · simp only [bind_eq_ok, ranges, List.foldlM_append, List.foldlM_cons, before, refused,
      Except.ok.injEq, exists_eq_left', reduceCtorEq, false_and, exists_false, and_false]
      at saved
  · cases saved

theorem step_save_of_not_ok {s : Save} (lands : Bool)
    (failed : ∀ t', a.registry.advanceSourceCheckpointWithCoverage s.session s.sequence s.position
      s.ranges s.persistedAt ≠ .ok t') : a.step hash (.save s, lands) = a := by
  cases lands with
  | false => rfl
  | true =>
    cases saved : a.registry.advanceSourceCheckpointWithCoverage s.session s.sequence s.position
        s.ranges s.persistedAt with
    | ok t' => exact absurd saved (failed t')
    | error fault => simp [Archive.step, Registry.apply, saved, transact]

end Runs

/-- The durable end of a generation only grows, every byte below it lies in a range of a committed
save, and it stays within the sealed length. Within a session the checkpoint's sequence only grows.
A save by a session that is not active, or with a range that is refused, changes nothing. -/
theorem coverage_has_no_gap (hash : DeliveryHash) (nodeID : Option String)
    (ops later : List (Operation × Bool)) :
    let a := (Archive.installed nodeID).run hash ops
    let b := a.run hash later
    (∀ sourceID generation row durable, a.registry.row? sourceID generation = some row →
      row.durableEndOffset = some durable →
        (∀ byte < durable, ∃ save ∈ a.saves, save.session.sourceID = sourceID ∧
          ∃ span ∈ save.ranges, span.generation = generation ∧ span.startOffset ≤ byte ∧
            byte < span.endOffset) ∧
        (∀ eof, row.finalEOF = some eof → durable ≤ eof) ∧
        ∃ row' durable', b.registry.row? sourceID generation = some row' ∧
          row'.durableEndOffset = some durable' ∧ durable ≤ durable') ∧
    (∀ (session : SourceSession) current current',
      (∀ op ∈ later, ∀ expected, op.1 ≠ .beginSession session.sourceID expected session.id) →
      a.registry.checkpoints.lookup session.sourceID = some current →
      current.sessionID = some session.id →
      b.registry.checkpoints.lookup session.sourceID = some current' →
      current'.sessionID = some session.id → current.sequence ≤ current'.sequence) ∧
    (∀ s lands, a.registry.holds s.session = false → a.step hash (.save s, lands) = a) ∧
    ∀ s lands, RejectsRange a.registry s → a.step hash (.save s, lands) = a := by
  intro a b
  have kept : Kept a := (kept_installed nodeID).run ops
  refine ⟨?_, ?_, ?_, ?_⟩
  · intro sourceID generation row durable found known
    refine ⟨fun byte below => ?_, fun eof sealed => ?_, ?_⟩
    · obtain ⟨span, same, ⟨save, member, source, ranged⟩, within⟩ :=
        kept.gapless _ _ _ _ found known byte below
      exact ⟨save, member, source, span, ranged, same, within⟩
    · obtain ⟨stored, _, rfl⟩ := Option.map_eq_some_iff.mp found
      have checked := stored.checked
      simp only [FileGenerationRow.checks, FileGenerationRow.coverageCheck, known,
        Bool.and_eq_true] at checked
      cases session : stored.row.coverageSessionID with
      | none => simp [session] at checked
      | some id =>
        simp only [session, sealed, Option.all_some, Bool.and_eq_true, decide_eq_true_eq]
          at checked
        exact checked.2.1
    · obtain ⟨row', found', follows⟩ : ∃ row', b.registry.row? sourceID generation = some row' ∧
        Follows row row' := run_keeps_row found later
      obtain ⟨durable', known', le⟩ := follows.durable durable known
      exact ⟨row', durable', found', known', le⟩
  · intro session current current' other found own found' own'
    have ahead : Ahead session current.sequence b.registry :=
      Ahead.run ⟨current, found, .inl ⟨own, le_rfl⟩⟩ other
    obtain ⟨final, final', ⟨_, le⟩ | ⟨foreign, _⟩⟩ := ahead
    · rw [final'] at found'
      cases found'
      exact le
    · rw [final'] at found'
      cases found'
      exact absurd own' foreign
  · intro s lands inactive
    refine step_save_of_not_ok lands fun t' saved => ?_
    have active := (path_save (List.mem_singleton_self s) saved).1
    rw [inactive] at active
    cases active
  · intro s lands rejected
    exact step_save_of_not_ok lands fun t' => rejected.not_ok

namespace Sample

def nodeID : String := "00000000000000000000000000000001"

def session : SourceSession := ⟨"ssh", "000000000000000000000000000000a1"⟩

def first : String := "000000000000000000000000000000f1"

def second : String := "000000000000000000000000000000f2"

def hash : DeliveryHash := ⟨fun _ _ _ _ => "", fun _ _ => ""⟩

def generation (name : String) (us : Int) : FileGeneration where
  sourceID := "ssh"
  generation := name
  deviceID := 1
  inode := 2
  path := "/var/log/auth.log"
  openedAt := .ofMicro us

def saving (sequence : Nat) (name : String) (start stop : Nat) : Save :=
  ⟨session, sequence, .file ⟨name, 1, 2, start, stop⟩, [⟨name, 1, 2, start, stop⟩], .ofMicro 9⟩

/-- A file is read to its end over two saves, rotated, sealed and, once the checkpoint has moved to
its successor, retired. -/
def rotated : List (Operation × Bool) :=
  [(.ensureSource "ssh" nodeID .file (.ofMicro 1), true), (.beginSession "ssh" "" session.id, true),
    (.register (generation first 1), true), (.initializeCoverage session first, true),
    (.save (saving 1 first 0 5), true), (.save (saving 2 first 5 9), true),
    (.rotate "ssh" first (generation second 2) (.ofMicro 2), true),
    (.sealWithSession session first .draining 9 2 (.ofMicro 3), true),
    (.initializeCoverage session second, true)]

def retiring : List (Operation × Bool) :=
  [(.save (saving 3 second 0 4), true), (.retire "ssh" first (.ofMicro 4), true)]

def summary (a : Archive) (name : String) : Option (FileGenerationState × Option Nat) :=
  (a.registry.row? "ssh" name).map fun row => (row.state, row.durableEndOffset)

def marks (a : Archive) : Option (Option String × Nat) :=
  (a.registry.checkpoints.lookup "ssh").map fun current => (current.sessionID, current.sequence)

theorem summary_rotated :
    let a := (Archive.installed (some nodeID)).run hash rotated
    summary a first = some (.sealed, some 9) ∧ marks a = some (some session.id, 2) ∧
      summary (a.run hash retiring) first = some (.retired, some 9) ∧
      marks (a.run hash retiring) = some (some session.id, 3) := by
  decide +kernel

end Sample

open Source.Sample in
theorem coverage_has_no_gap_rotated :
    let a := (Archive.installed (some nodeID)).run hash rotated
    (∀ byte < 9, ∃ save ∈ a.saves, save.session.sourceID = "ssh" ∧ ∃ span ∈ save.ranges,
      span.generation = first ∧ span.startOffset ≤ byte ∧ byte < span.endOffset) ∧
    ∃ current current', a.registry.checkpoints.lookup "ssh" = some current ∧
      (a.run hash retiring).registry.checkpoints.lookup "ssh" = some current' ∧
      current.sequence = 2 ∧ current'.sequence = 3 ∧ current.sequence ≤ current'.sequence := by
  intro a
  obtain ⟨covered, marked, _, marked'⟩ := summary_rotated
  obtain ⟨row, found, state⟩ := Option.map_eq_some_iff.mp covered
  obtain ⟨current, present, two⟩ := Option.map_eq_some_iff.mp marked
  obtain ⟨current', present', three⟩ := Option.map_eq_some_iff.mp marked'
  obtain ⟨gapless, sequences, _⟩ := coverage_has_no_gap hash (some nodeID) rotated retiring
  refine ⟨(gapless _ _ row 9 found (Prod.mk.inj state).2).1,
    current, current', present, present', (Prod.mk.inj two).2, (Prod.mk.inj three).2, ?_⟩
  refine sequences session current current' ?_ present (Prod.mk.inj two).1 present'
    (Prod.mk.inj three).1
  simp [retiring]

/-- A generation moves only from Open, possibly through Draining, to Sealed and to Retired, and to
Retired only where it is covered to its sealed end. No source has two Open generations. No receipt
and no checkpoint refers to a Retired generation. -/
theorem generations_only_advance (hash : DeliveryHash) (nodeID : Option String)
    (ops : List (Operation × Bool)) (op : Operation × Bool) :
    let a := (Archive.installed nodeID).run hash ops
    (∀ sourceID generation row, a.registry.row? sourceID generation = some row →
      ∃ row', (a.step hash op).registry.row? sourceID generation = some row' ∧
        Relation.ReflTransGen FileGenerationState.Next row.state row'.state ∧
        (row'.state = .retired → row.state ≠ .retired →
          (fileGenerationFromRow sourceID generation row).coverageComplete = true)) ∧
    (∀ sourceID g g' row row', a.registry.row? sourceID g = some row →
      a.registry.row? sourceID g' = some row' → row.state = .opened → row'.state = .opened →
        g = g') ∧
    ∀ sourceID generation row, a.registry.row? sourceID generation = some row →
      row.state = .retired →
        (∃ eof, row.finalEOF = some eof ∧ row.durableEndOffset = some eof) ∧
        (∀ id receipt, a.registry.receipts.lookup id = some receipt →
          receipt.sourceID = sourceID → receipt.generation ≠ some generation) ∧
        ∀ current, a.registry.checkpoints.lookup sourceID = some current →
          generationOf current.position ≠ some generation := by
  intro a
  have sound : Sound a.registry := ((kept_installed nodeID).run ops).sound
  refine ⟨?_, sound.alone, ?_⟩
  · intro sourceID generation row found
    obtain ⟨row', found', follows, complete⟩ := effect_keeps_row (effect_step hash a op) found
    exact ⟨row', found', follows.state, complete⟩
  · intro sourceID generation row found retired
    exact ⟨sound.covered _ _ _ found retired, sound.unreceipted _ _ _ found retired,
      sound.unmarked _ _ _ found retired⟩

open Source.Sample in
theorem generations_only_advance_retiring :
    ∃ a row, (Archive.installed (some nodeID)).run hash (rotated ++ retiring) = a ∧
      a.registry.row? "ssh" first = some row ∧ row.state = .retired ∧
      ∀ current, a.registry.checkpoints.lookup "ssh" = some current →
        generationOf current.position ≠ some first := by
  obtain ⟨_, _, retired, _⟩ := summary_rotated
  obtain ⟨row, found, state⟩ := Option.map_eq_some_iff.mp retired
  rw [← Archive.run_append] at found
  obtain ⟨_, _, unreferenced⟩ := generations_only_advance hash (some nodeID)
    (rotated ++ retiring) (.register (generation first 1), true)
  have state := (Prod.mk.inj state).1
  obtain ⟨_, _, unmarked⟩ := unreferenced "ssh" first row found state
  exact ⟨_, row, rfl, found, state, unmarked⟩

end GuardWall.Source
