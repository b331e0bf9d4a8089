import GuardWall.Source.Registry
import Mathlib.Logic.Relation

/-! What the operations do to the tables: each is a sequence of changes of one row, or it retires
a generation, or it begins a session. -/
namespace GuardWall.Source

open GuardWall.Core GuardWall.Foundation GuardWall.Processor

def Spans (saves : List Save) (sourceID : String) (span : FilePosition) : Prop :=
  ∃ save ∈ saves, save.session.sourceID = sourceID ∧ span ∈ save.ranges

theorem Spans.mono {saves saves' : List Save} {sourceID : String} {span : FilePosition}
    (h : Spans saves sourceID span) (grown : saves ⊆ saves') : Spans saves' sourceID span := by
  obtain ⟨save, member, source, ranged⟩ := h
  exact ⟨save, grown member, source, ranged⟩

inductive Revision (covers : FilePosition → Prop) : FileGenerationRow → FileGenerationRow → Prop
  | drained (r : FileGenerationRow) (us : Int) (isOpen : r.state = .opened) :
      Revision covers r { r with state := .draining, drainingAtUS := some us }
  | sealed (r : FileGenerationRow) (finalEOF maxSequence : Nat) (us : Int)
      (unsealed : r.state = .opened ∨ r.state = .draining) :
      Revision covers r { r with
        state := .sealed
        finalEOF := some finalEOF
        maxDeliverySequence := some maxSequence
        sealedAtUS := some us }
  | claimed (r : FileGenerationRow) (session : String) (live : r.state ≠ .retired)
      (unknown : r.durableEndOffset = none) :
      Revision covers r
        { r with durableEndOffset := some 0, coverageSessionID := some session }
  | covered (r : FileGenerationRow) (session : String) (span : FilePosition) (durable : Nat)
      (live : r.state ≠ .retired) (known : r.durableEndOffset = some durable)
      (joined : span.startOffset ≤ durable) (further : durable < span.endOffset)
      (ranged : covers span) :
      Revision covers r
        { r with durableEndOffset := some span.endOffset, coverageSessionID := some session }

def Live (t : Registry) (sourceID : String) (generation : Option String) : Prop :=
  ∀ g, generation = some g → ∃ row, t.row? sourceID g = some row ∧ row.state ≠ .retired

def Registry.store (t : Registry) (sourceID generation : String) (stored : StoredGeneration) :
    Registry :=
  { t with generations := t.generations.insert (sourceID, generation) stored }

theorem Registry.row?_store {t : Registry} {sourceID generation sourceID' generation' : String}
    {stored : StoredGeneration} : (t.store sourceID generation stored).row? sourceID' generation' =
      if sourceID' = sourceID ∧ generation' = generation then some stored.row
      else t.row? sourceID' generation' := by
  simp only [row?, store, Table.lookup_insert, Prod.mk.injEq]
  split <;> rfl

/-- One change of a row; the ranges that extend a coverage are those of `saves`. -/
inductive Change (saves : List Save) : Registry → Registry → Prop
  | source {t : Registry} (sourceID : String) (row : SourceRow)
      (fresh : t.sources.lookup sourceID = none) (idle : row.activeSessionID = none) :
      Change saves t { t with sources := t.sources.insert sourceID row }
  | opened {t : Registry} (sourceID generation : String) (stored : StoredGeneration)
      (fresh : t.row? sourceID generation = none) (isOpen : stored.row.state = .opened)
      (unknown : stored.row.durableEndOffset = none)
      (alone : t.otherOpen sourceID generation = false) :
      Change saves t (t.store sourceID generation stored)
  | revised {t : Registry} (sourceID generation : String) (row : FileGenerationRow)
      (stored : StoredGeneration) (found : t.row? sourceID generation = some row)
      (revision : Revision (fun span => span.generation = generation ∧ Spans saves sourceID span)
        row stored.row)
      (alone : stored.row.state = .opened → t.otherOpen sourceID generation = false) :
      Change saves t (t.store sourceID generation stored)
  | checkpoint {t : Registry} (session : SourceSession) (row : CheckpointRow)
      (active : t.holds session = true) (own : row.sessionID = some session.id)
      (later : ∀ current, t.checkpoints.lookup session.sourceID = some current →
        current.sessionID = some session.id → current.sequence < row.sequence)
      (live : Live t session.sourceID (generationOf row.position)) :
      Change saves t { t with checkpoints := t.checkpoints.insert session.sourceID row }
  | receipt {t : Registry} (deliveryID : String) (row : ReceiptRow)
      (live : Live t row.sourceID row.generation) :
      Change saves t { t with receipts := t.receipts.insert deliveryID row }

abbrev Path (saves : List Save) : Registry → Registry → Prop := Relation.ReflTransGen (Change saves)

/-- The retirement of a generation that is covered to its end and that nothing refers to. -/
inductive Retires : Registry → Registry → Prop
  | retired {t : Registry} (sourceID generation : String) (row : FileGenerationRow)
      (stored : StoredGeneration) (us : Int) (found : t.row? sourceID generation = some row)
      (complete : (fileGenerationFromRow sourceID generation row).coverageComplete = true)
      (unreceipted : t.receiptReferences sourceID generation = false)
      (unmarked : t.checkpointReferences sourceID generation = false)
      (written : stored.row = { row with state := .retired, retiredAtUS := some us }) :
      Retires t (t.store sourceID generation stored)

inductive Begins (sourceID newID : String) : Registry → Registry → Prop
  | begun {t : Registry} (source : SourceRow) (found : t.sources.lookup sourceID = some source) :
      Begins sourceID newID t { t with
        sources := t.sources.insert sourceID { source with activeSessionID := some newID } }

section Operations

variable {t t' : Registry} {saves : List Save} {sourceID generation : String}
  {session : SourceSession}

variable {row : FileGenerationRow} {g : FileGeneration} {sequence : Nat} {persistedAt : Instant}

theorem put_eq_ok (h : t.put sourceID generation row = .ok t') :
    ∃ stored : StoredGeneration, stored.row = row ∧ t' = t.store sourceID generation stored ∧
      (row.state = .opened → t.otherOpen sourceID generation = false) := by
  unfold Registry.put at h
  split at h
  · rename_i checked
    simp only [bind_eq_ok, refuse_eq_ok, Bool.and_eq_false_iff, beq_eq_false_iff_ne] at h
    obtain ⟨_, alone, h⟩ := h
    cases h
    refine ⟨⟨row, checked⟩, rfl, rfl, fun isOpen => ?_⟩
    exact alone.resolve_left fun other => other isOpen
  · cases h

theorem change_put {row' : FileGenerationRow} (found : t.row? sourceID generation = some row)
    (revision : Revision (fun span => span.generation = generation ∧ Spans saves sourceID span)
      row row') (h : t.put sourceID generation row' = .ok t') : Change saves t t' := by
  obtain ⟨stored, rfl, rfl, alone⟩ := put_eq_ok h
  exact .revised sourceID generation row stored found revision alone

theorem row?_isNone_of_unused
    (unused : (t.generations.rows.any fun (key, _) => key.2 == generation) = false) :
    t.row? sourceID generation = none := by
  simp only [Registry.row?, Option.map_eq_none_iff]
  cases found : t.generations.lookup (sourceID, generation) with
  | none => rfl
  | some stored =>
    simp only [List.any_eq_false, beq_iff_eq] at unused
    exact absurd rfl (unused _ (Table.mem_rows.mpr found))

theorem change_insertGeneration
    (h : t.insertGeneration sourceID generation (newSourceFileGenerationRow g) = .ok t') :
    Change saves t t' := by
  simp only [Registry.insertGeneration, bind_eq_ok, refuse_eq_ok] at h
  obtain ⟨_, unused, _, _, h⟩ := h
  obtain ⟨stored, row, rfl, alone⟩ := put_eq_ok h
  refine .opened sourceID generation stored (row?_isNone_of_unused unused) ?_ ?_ (alone rfl)
  · rw [row]
    rfl
  · rw [row]
    rfl

theorem live_of_refer {used : Option String} (h : t.refer sourceID used = .ok ()) :
    Live t sourceID used := by
  simp only [Registry.refer, bind_eq_ok, refuse_eq_ok] at h
  obtain ⟨_, _, _, known, living⟩ := h
  rintro g rfl
  simp only [Option.any_some] at known living
  cases found : t.row? sourceID g with
  | none => simp [found] at known
  | some row =>
    simp only [found, Option.any_some, beq_eq_false_iff_ne] at living
    exact ⟨row, rfl, living⟩

theorem path_ensureSource {nodeID : String} {kind : SourceKind} {now : Instant}
    (h : t.ensureSourceInsert sourceID nodeID kind now = .ok t') : Path saves t t' := by
  simp only [Registry.ensureSourceInsert, bind_eq_ok, refuse_eq_ok] at h
  obtain ⟨_, _, _, _, _, _, _, _, h⟩ := h
  split at h
  · cases h
    exact .refl
  · rename_i fresh
    simp only [bind_eq_ok, refuse_eq_ok] at h
    obtain ⟨_, _, h⟩ := h
    cases h
    exact .single (.source sourceID _ (by simpa using fresh) rfl)

theorem path_createFileGeneration (h : t.createFileGeneration g = .ok t') :
    Path saves t t' := by
  simp only [Registry.createFileGeneration, bind_eq_ok, refuse_eq_ok] at h
  obtain ⟨_, _, _, _, h⟩ := h
  split at h
  · cases h
    exact .refl
  · exact .single (change_insertGeneration h)

theorem path_initialized (h : t.initializeFileGenerationCoverage session generation = .ok t') :
    Path saves t t' := by
  simp only [Registry.initializeFileGenerationCoverage, bind_eq_ok, refuse_eq_ok] at h
  obtain ⟨_, _, _, _, h⟩ := h
  split at h
  · cases h
  · rename_i row found
    simp only [bind_eq_ok, refuse_eq_ok, beq_eq_false_iff_ne] at h
    obtain ⟨_, live, h⟩ := h
    split at h
    · cases h
      exact .refl
    · rename_i unknown
      exact .single (change_put found (.claimed row session.id live (by simpa using unknown)) h)

theorem change_drain {at_ : Instant} (h : t.drain sourceID generation at_ = .ok t') :
    Change saves t t' := by
  unfold Registry.drain at h
  split at h
  · cases h
  · rename_i row found
    simp only [bind_eq_ok, refuse_eq_ok, Bool.or_eq_false_iff, bne_eq_false_iff_eq] at h
    obtain ⟨_, ⟨isOpen, _⟩, h⟩ := h
    exact change_put found (.drained row _ isOpen) h

theorem change_sealRow {from_ : FileGenerationState} {finalEOF maxSequence : Nat}
    {sealedAt : Instant} {bound : Bool}
    (unsealed : (from_ != .opened && from_ != .draining) = false)
    (h : t.sealRow sourceID generation from_ finalEOF maxSequence sealedAt bound = .ok t') :
    Change saves t t' := by
  unfold Registry.sealRow at h
  split at h
  · cases h
  · rename_i row found
    simp only [bind_eq_ok, refuse_eq_ok, Bool.or_eq_false_iff, bne_eq_false_iff_eq] at h
    obtain ⟨_, ⟨⟨same, _⟩, _⟩, h⟩ := h
    simp only [Bool.and_eq_false_iff, bne_eq_false_iff_eq] at unsealed
    rw [← same] at unsealed
    exact change_put found (.sealed row _ _ _ unsealed) h

theorem path_rotateFileGeneration {next : FileGeneration} {rotatedAt : Instant}
    (h : t.rotateFileGeneration sourceID generation next rotatedAt = .ok t') :
    Path saves t t' := by
  simp only [Registry.rotateFileGeneration, bind_eq_ok, refuse_eq_ok] at h
  obtain ⟨_, _, _, _, _, _, drained, first, second⟩ := h
  exact .tail (.single (change_drain first)) (change_insertGeneration second)

theorem retires_retireFileGeneration {retiredAt : Instant}
    (h : t.retireFileGeneration sourceID generation retiredAt = .ok t') : Retires t t' := by
  simp only [Registry.retireFileGeneration, bind_eq_ok, refuse_eq_ok] at h
  obtain ⟨_, _, h⟩ := h
  split at h
  · cases h
  · rename_i row found
    simp only [bind_eq_ok, refuse_eq_ok, Bool.not_eq_false'] at h
    obtain ⟨_, _, _, _, _, unreceipted, _, complete, _, unmarked, h⟩ := h
    obtain ⟨stored, written, rfl, _⟩ := put_eq_ok h
    exact .retired sourceID generation row stored _ found complete unreceipted unmarked written

theorem begins_beginSourceSession {expectedActive newID : String}
    (h : t.beginSourceSession sourceID expectedActive newID = .ok t') :
    Begins sourceID newID t t' := by
  simp only [Registry.beginSourceSession, bind_eq_ok, refuse_eq_ok] at h
  obtain ⟨_, _, h⟩ := h
  split at h
  · cases h
  · rename_i source found
    simp only [bind_eq_ok, refuse_eq_ok] at h
    obtain ⟨_, _, h⟩ := h
    cases h
    exact .begun source found

theorem path_putReceipt {hash : DeliveryHash} {r : ProcessingReceipt}
    (h : t.putReceipt hash r = .ok t') : Path saves t t' := by
  unfold Registry.putReceipt at h
  split at h
  · cases h
  · rename_i row encoded
    simp only [bind_eq_ok, refuse_eq_ok] at h
    obtain ⟨_, _, _, _, _, referred, h⟩ := h
    cases h
    exact .single (.receipt r.deliveryID row (live_of_refer referred))

variable {advancing : Bool} {position : SourcePosition}

theorem path_writeCheckpoint {row : CheckpointRow} (active : t.holds session = true)
    (own : row.sessionID = some session.id)
    (h : t.writeCheckpoint session row = .ok (t', advancing)) :
    Path saves t t' := by
  simp only [Registry.writeCheckpoint, bind_eq_ok, refuse_eq_ok] at h
  obtain ⟨_, _, _, referred, h⟩ := h
  have change (later : ∀ current, t.checkpoints.lookup session.sourceID = some current →
      current.sessionID = some session.id → current.sequence < row.sequence) :
      Path saves t { t with checkpoints := t.checkpoints.insert session.sourceID row } :=
    .single (.checkpoint session row active own later (live_of_refer referred))
  split at h
  · rename_i missing
    cases h
    refine change fun current found => ?_
    rw [missing] at found
    cases found
  · rename_i current found
    split at h
    · rename_i newer
      cases h
      refine change fun other found' same => ?_
      rw [found] at found'
      cases found'
      exact newer.resolve_left fun differ => differ same
    · simp only [bind_eq_ok, refuse_eq_ok] at h
      obtain ⟨_, _, h⟩ := h
      cases h
      exact .refl

theorem path_advanceCheckpointRow {coverage : Bool}
    (h : t.advanceCheckpointRow session sequence position coverage persistedAt =
      .ok (t', advancing)) : t.holds session = true ∧ Path saves t t' := by
  simp only [Registry.advanceCheckpointRow, bind_eq_ok, refuse_eq_ok, Bool.not_eq_false'] at h
  obtain ⟨_, _, _, _, _, _, _, active, _, _, _, _, h⟩ := h
  exact ⟨active, path_writeCheckpoint active rfl h⟩

theorem path_advanceSpan {span : FilePosition} (ranged : Spans saves session.sourceID span)
    (h : Registry.advanceSpan session advancing t span = .ok t') : Path saves t t' := by
  simp only [Registry.advanceSpan, bind_eq_ok, refuse_eq_ok] at h
  obtain ⟨_, _, h⟩ := h
  split at h
  · cases h
  · rename_i row found
    simp only [bind_eq_ok, refuse_eq_ok, Bool.or_eq_false_iff, beq_eq_false_iff_ne] at h
    obtain ⟨_, ⟨⟨live, _⟩, _⟩, h⟩ := h
    split at h
    · cases h
    · rename_i durable known
      simp only [bind_eq_ok, refuse_eq_ok, Bool.or_eq_false_iff, decide_eq_false_iff_not,
        not_lt] at h
      obtain ⟨_, ⟨joined, _⟩, h⟩ := h
      split at h
      · cases h
        exact .refl
      · rename_i further
        simp only [bind_eq_ok, refuse_eq_ok] at h
        obtain ⟨_, _, h⟩ := h
        exact .single (change_put found (.covered row session.id span durable live known joined
          (not_le.mp further) ⟨rfl, ranged⟩) h)

theorem path_advanceFileCoverage {ranges : List FilePosition}
    (ranged : ∀ span ∈ ranges, Spans saves session.sourceID span)
    (h : t.advanceFileCoverage session position ranges advancing = .ok t') : Path saves t t' := by
  unfold Registry.advanceFileCoverage at h
  split at h
  · simp only [bind_eq_ok, refuse_eq_ok] at h
    obtain ⟨_, _, covered, folded, _, _, h⟩ := h
    cases h
    clear * - ranged folded
    induction ranges generalizing t with
    | nil =>
      cases folded
      exact .refl
    | cons span rest ih =>
      simp only [List.foldlM_cons, bind_eq_ok] at folded
      obtain ⟨middle, first, folded⟩ := folded
      exact (path_advanceSpan (ranged span List.mem_cons_self) first).trans
        (ih (fun other member => ranged other (List.mem_cons_of_mem _ member)) folded)
  · cases h

theorem path_checkpoint
    (h : t.advanceSourceCheckpoint session sequence position persistedAt = .ok t') :
    Path saves t t' := by
  simp only [Registry.advanceSourceCheckpoint, bind_eq_ok, Prod.exists] at h
  obtain ⟨written, _, h, same⟩ := h
  cases same
  exact (path_advanceCheckpointRow h).2

theorem path_save {s : Save} (logged : s ∈ saves)
    (h : t.advanceSourceCheckpointWithCoverage s.session s.sequence s.position s.ranges
      s.persistedAt = .ok t') : t.holds s.session = true ∧ Path saves t t' := by
  simp only [Registry.advanceSourceCheckpointWithCoverage, bind_eq_ok, Prod.exists] at h
  obtain ⟨written, _, first, second⟩ := h
  obtain ⟨active, path⟩ : t.holds s.session = true ∧ Path saves t written :=
    path_advanceCheckpointRow first
  exact ⟨active, path.trans (path_advanceFileCoverage
    (fun span member => ⟨s, logged, rfl, member⟩) second)⟩

end Operations

inductive Effect (op : Operation) (saves : List Save) (t t' : Registry) : Prop
  | path (path : Path saves t t')
  | retires (retires : Retires t t')
  | begins (sourceID expectedActive newID : String)
      (begun : op = .beginSession sourceID expectedActive newID)
      (begins : Begins sourceID newID t t')

theorem effect_transact {op : Operation} {saves : List Save} {t : Registry}
    {result : Except SourceFault Registry} (ok : ∀ t', result = .ok t' → Effect op saves t t') :
    Effect op saves t (transact t result).1 := by
  cases result with
  | error fault => exact .path .refl
  | ok t' => exact ok t' rfl

theorem effect_apply (hash : DeliveryHash) (t : Registry) (op : Operation) (saves : List Save)
    (logged : ∀ s, op = .save s → (t.apply hash op).2 = .ok () → s ∈ saves) :
    Effect op saves t (t.apply hash op).1 := by
  cases op with
  | ensureSource sourceID nodeID kind now =>
    simp only [Registry.apply, Registry.ensureSource]
    split
    · exact .path .refl
    · rename_i inserted
      exact .path (path_ensureSource inserted)
  | register g =>
    simp only [Registry.apply, Registry.registerFileGeneration]
    split
    · exact .path .refl
    · rename_i created
      exact .path (path_createFileGeneration created)
  | beginSession sourceID expected newID =>
    exact effect_transact fun t' h => .begins _ _ _ rfl (begins_beginSourceSession h)
  | initializeCoverage session generation =>
    exact effect_transact fun t' h => .path (path_initialized h)
  | checkpoint session sequence position persistedAt =>
    exact effect_transact fun t' h => .path (path_checkpoint h)
  | save s =>
    refine effect_transact fun t' h => .path (path_save (logged s rfl ?_) h).2
    simp [Registry.apply, h, transact]
  | drain sourceID generation from_ to_ at_ =>
    refine effect_transact fun t' h => ?_
    simp only [Registry.advanceFileGeneration, bind_eq_ok, refuse_eq_ok] at h
    obtain ⟨_, _, _, _, h⟩ := h
    exact .path (.single (change_drain h))
  | sealGeneration sourceID generation from_ finalEOF maxSequence sealedAt =>
    refine effect_transact fun t' h => ?_
    simp only [Registry.sealFileGeneration, bind_eq_ok, refuse_eq_ok] at h
    obtain ⟨_, _, _, unsealed, h⟩ := h
    exact .path (.single (change_sealRow unsealed h))
  | sealWithSession session generation from_ finalEOF maxSequence sealedAt =>
    refine effect_transact fun t' h => ?_
    simp only [Registry.sealFileGenerationWithSession, bind_eq_ok, refuse_eq_ok] at h
    obtain ⟨_, _, _, unsealed, _, _, h⟩ := h
    exact .path (.single (change_sealRow unsealed h))
  | rotate sourceID oldGeneration next rotatedAt =>
    exact effect_transact fun t' h => .path (path_rotateFileGeneration h)
  | retire sourceID generation retiredAt =>
    exact effect_transact fun t' h => .retires (retires_retireFileGeneration h)
  | receipt r => exact effect_transact fun t' h => .path (path_putReceipt h)

section Steps

variable (hash : DeliveryHash) (a : Archive) (op : Operation × Bool)

theorem saves_step : a.saves ⊆ (a.step hash op).saves := by
  obtain ⟨operation, lands⟩ := op
  cases lands with
  | false => exact List.Subset.refl _
  | true =>
    simp only [Archive.step]
    split
    · cases operation with
      | save s => exact List.subset_cons_self s _
      | _ => exact List.Subset.refl _
    · exact List.Subset.refl _

theorem effect_step :
    Effect op.1 (a.step hash op).saves a.registry (a.step hash op).registry := by
  obtain ⟨operation, lands⟩ := op
  cases lands with
  | false => exact .path .refl
  | true =>
    simp only [Archive.step]
    have effect := effect_apply hash a.registry operation
    cases applied : a.registry.apply hash operation with
    | mk t verdict =>
      rw [applied] at effect
      cases verdict with
      | error fault =>
        exact effect a.saves fun s _ ok => nomatch ok
      | ok _ =>
        refine effect _ fun s same _ => ?_
        rw [same]
        exact List.mem_cons_self

end Steps

end GuardWall.Source
