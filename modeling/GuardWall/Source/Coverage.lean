import GuardWall.Source.Checkpoint

/-! What the saves of a session cover: exactly the bytes of the file deliveries up to the sequence
of the last one, in every interleaving of `Complete` and `Flush`. -/
namespace GuardWall.Source

open GuardWall.Core GuardWall.Foundation GuardWall.Processor

structure Byte where
  generation : String
  deviceID : Nat
  inode : Nat
  offset : Nat

def Holds (p : FilePosition) (b : Byte) : Prop :=
  p.generation = b.generation ∧ p.deviceID = b.deviceID ∧ p.inode = b.inode ∧
    p.startOffset ≤ b.offset ∧ b.offset < p.endOffset

def Covers (ranges : List FilePosition) (b : Byte) : Prop := ∃ p ∈ ranges, Holds p b

def Forward (ranges : List FilePosition) : Prop := ∀ p ∈ ranges, p.startOffset ≤ p.endOffset

@[simp] theorem covers_nil (b : Byte) : ¬ Covers [] b := by simp [Covers]

@[simp] theorem covers_cons {p : FilePosition} {ranges : List FilePosition} {b : Byte} :
    Covers (p :: ranges) b ↔ Holds p b ∨ Covers ranges b := by simp [Covers]

section Merging

variable {file last : FilePosition} {merged merged' next : List FilePosition}

theorem holds_joined {b : Byte} (generation : last.generation = file.generation)
    (device : last.deviceID = file.deviceID) (inode : last.inode = file.inode)
    (adjacent : last.endOffset = file.startOffset) (forward : last.startOffset ≤ last.endOffset)
    (forward' : file.startOffset ≤ file.endOffset) :
    Holds { last with endOffset := file.endOffset } b ↔ Holds last b ∨ Holds file b := by
  simp only [Holds, generation, device, inode]
  constructor
  · rintro ⟨same, same', same'', low, high⟩
    by_cases before : b.offset < last.endOffset
    · exact .inl ⟨same, same', same'', low, before⟩
    · exact .inr ⟨same, same', same'', by omega, high⟩
  · rintro (⟨same, same', same'', low, high⟩ | ⟨same, same', same'', low, high⟩)
    · exact ⟨same, same', same'', low, by omega⟩
    · exact ⟨same, same', same'', by omega, high⟩

theorem covers_mergeFile (forward : Forward merged) (valid : file.startOffset ≤ file.endOffset)
    (h : mergeFile file merged = .ok merged') :
    Forward merged' ∧ ∀ b, Covers merged' b ↔ Covers merged b ∨ Holds file b := by
  induction merged generalizing merged' with
  | nil =>
    cases h
    refine ⟨?_, fun b => by simp⟩
    rintro p (_ | ⟨_, ⟨⟩⟩)
    exact valid
  | cons last rest ih =>
    have here := forward last List.mem_cons_self
    have others : Forward rest := fun p member => forward p (.tail _ member)
    unfold mergeFile at h
    split at h
    · rename_i found
      simp only [bind_eq_ok, reject_eq_ok, Bool.or_eq_false_iff, bne_eq_false_iff_eq] at h
      obtain ⟨_, ⟨⟨device, inode⟩, adjacent⟩, h⟩ := h
      cases h
      refine ⟨?_, fun b => ?_⟩
      · rintro p (_ | ⟨_, member⟩)
        · show last.startOffset ≤ file.endOffset
          omega
        · exact others p member
      · rw [covers_cons, covers_cons, holds_joined found.1 device inode adjacent here valid]
        tauto
    · simp only [bind_eq_ok] at h
      obtain ⟨tail, later, h⟩ := h
      cases h
      obtain ⟨forward', covers⟩ := ih others later
      refine ⟨?_, fun b => ?_⟩
      · rintro p (_ | ⟨_, member⟩)
        · exact here
        · exact forward' p member
      · rw [covers_cons, covers_cons, covers b, or_assoc]

theorem covers_mergeFileRanges (forward : Forward merged) (valid : Forward next)
    (h : mergeFileRanges merged next = .ok merged') :
    Forward merged' ∧ ∀ b, Covers merged' b ↔ Covers merged b ∨ Covers next b := by
  induction next generalizing merged with
  | nil =>
    cases h
    exact ⟨forward, fun b => by simp⟩
  | cons file rest ih =>
    unfold mergeFileRanges at h
    rw [List.foldlM_cons] at h
    obtain ⟨middle, one, h⟩ := bind_eq_ok.mp h
    obtain ⟨forward', covers⟩ := covers_mergeFile forward (valid file List.mem_cons_self) one
    obtain ⟨forward'', covers'⟩ := ih forward' (fun p member => valid p (.tail _ member)) h
    exact ⟨forward'', fun b => by rw [covers' b, covers b, covers_cons, or_assoc]⟩

end Merging

def InPosition (position : SourcePosition) (b : Byte) : Prop :=
  ∃ p, position = .file p ∧ Holds p b

section Tracker

variable {t t' : CompletionTracker} {c : DurableCompletion}

def CompletionTracker.Valid (t : CompletionTracker) : Prop :=
  ∀ k position, t.completed.lookup k = some position → position.valid = true

theorem covers_extend {next : Nat} {position : SourcePosition}
    {candidate : Option CheckpointCandidate} {extended : CheckpointCandidate}
    (forward : ∀ old, candidate = some old → Forward old.fileRanges)
    (valid : position.valid = true) (h : t.extend next position candidate = .ok extended) :
    extended.throughSequence = next ∧ Forward extended.fileRanges ∧
      ∀ b, Covers extended.fileRanges b ↔
        (∃ old, candidate = some old ∧ Covers old.fileRanges b) ∨ InPosition position b := by
  have before : Forward ((candidate.map CheckpointCandidate.fileRanges).getD []) := by
    cases candidate with
    | none => exact fun p member => absurd member List.not_mem_nil
    | some old => exact forward old rfl
  have old : ∀ b, Covers ((candidate.map CheckpointCandidate.fileRanges).getD []) b ↔
      ∃ old, candidate = some old ∧ Covers old.fileRanges b := by
    intro b
    cases candidate with
    | none => simp
    | some old => simp
  simp only [CompletionTracker.extend, bind_eq_ok] at h
  obtain ⟨ranges, made, h⟩ := h
  cases h
  refine ⟨rfl, ?_⟩
  cases position with
  | file p =>
    have forward' : p.startOffset ≤ p.endOffset := by
      simp only [SourcePosition.valid, Bool.and_eq_true, decide_eq_true_eq] at valid
      exact valid.2
    obtain ⟨forward'', covers⟩ := covers_mergeFileRanges before (by
      rintro q (_ | ⟨_, ⟨⟩⟩)
      exact forward') made
    refine ⟨forward'', fun b => ?_⟩
    rw [covers b, old b]
    simp [Covers, InPosition]
  | zero => cases valid
  | journald cursor =>
    cases made
    exact ⟨before, fun b => by rw [old b]; simp [InPosition]⟩

theorem gather_cases {left next : Nat} {candidate result : Option CheckpointCandidate}
    (valid : t.Valid) (most : next + left = maxSequence)
    (forward : ∀ old, candidate = some old → Forward old.fileRanges)
    (h : t.gather left next candidate = .ok result) :
    (t.completed.lookup next = none ∧ result = candidate) ∨
      ∃ made, result = some made ∧ next ≤ made.throughSequence ∧
        made.throughSequence ≤ maxSequence ∧ Forward made.fileRanges ∧
        (∀ k, next ≤ k → k ≤ made.throughSequence → (t.completed.lookup k).isSome = true) ∧
        ∀ b, Covers made.fileRanges b ↔
          (∃ old, candidate = some old ∧ Covers old.fileRanges b) ∨
            ∃ k position, next ≤ k ∧ k ≤ made.throughSequence ∧
              t.completed.lookup k = some position ∧ InPosition position b := by
  induction left generalizing next candidate with
  | zero =>
    unfold CompletionTracker.gather at h
    split at h
    · rename_i missing
      cases h
      exact .inl ⟨missing, rfl⟩
    · rename_i position found
      simp only [bind_eq_ok] at h
      obtain ⟨made, extended, h⟩ := h
      cases h
      obtain ⟨through, forward', covers⟩ := covers_extend forward (valid _ _ found) extended
      refine .inr ⟨made, rfl, through.ge, by omega, forward', fun k low high => ?_, fun b => ?_⟩
      · rw [show k = next by omega, found]
        rfl
      · rw [covers b]
        refine or_congr Iff.rfl ⟨fun inside => ⟨next, position, le_rfl, through.ge, found, inside⟩, ?_⟩
        rintro ⟨k, position', low, high, found', inside⟩
        rw [show k = next by omega, found] at found'
        cases found'
        exact inside
  | succ left ih =>
    unfold CompletionTracker.gather at h
    split at h
    · rename_i missing
      cases h
      exact .inl ⟨missing, rfl⟩
    · rename_i position found
      simp only [bind_eq_ok] at h
      obtain ⟨extended, one, h⟩ := h
      obtain ⟨through, forward', covers⟩ := covers_extend forward (valid _ _ found) one
      refine .inr ?_
      obtain ⟨missing, rfl⟩ | ⟨made, rfl, low, high, forward'', all, covers'⟩ :=
        ih (by omega) (fun old same => by cases same; exact forward') h
      · refine ⟨extended, rfl, through.ge, by omega, forward', fun k low high => ?_, fun b => ?_⟩
        · rw [show k = next by omega, found]
          rfl
        · rw [covers b]
          refine or_congr Iff.rfl
            ⟨fun inside => ⟨next, position, le_rfl, through.ge, found, inside⟩, ?_⟩
          rintro ⟨k, position', low, high, found', inside⟩
          rw [show k = next by omega, found] at found'
          cases found'
          exact inside
      · refine ⟨made, rfl, by omega, high, forward'', fun k from_ to_ => ?_, fun b => ?_⟩
        · by_cases here : k = next
          · rw [here, found]
            rfl
          · exact all k (by omega) to_
        · rw [covers' b]
          constructor
          · rintro (⟨_, ⟨⟩, inside⟩ | ⟨k, position', from_, to_, found', inside⟩)
            · obtain old | inside := (covers b).mp inside
              · exact .inl old
              · exact .inr ⟨next, position, le_rfl, by omega, found, inside⟩
            · exact .inr ⟨k, position', by omega, to_, found', inside⟩
          · rintro (old | ⟨k, position', from_, to_, found', inside⟩)
            · exact .inl ⟨extended, rfl, (covers b).mpr (.inl old)⟩
            · by_cases here : k = next
              · rw [here, found] at found'
                cases found'
                exact .inl ⟨extended, rfl, (covers b).mpr (.inr inside)⟩
              · exact .inr ⟨k, position', by omega, to_, found', inside⟩

theorem forget_cases {through left : Nat} (most : t.next + left = maxSequence)
    (low : t.next ≤ through) (high : through ≤ maxSequence) :
    (∀ k, (CompletionTracker.forget through left t).completed.lookup k =
      if t.next ≤ k ∧ k ≤ through then none else t.completed.lookup k) ∧
    (through = maxSequence ∧ (CompletionTracker.forget through left t).next = maxSequence ∧
        (CompletionTracker.forget through left t).exhausted = true ∨
      through < maxSequence ∧ (CompletionTracker.forget through left t).next = through + 1 ∧
        (CompletionTracker.forget through left t).exhausted = t.exhausted) := by
  have erased : ∀ (t : CompletionTracker) k, (t.completed.erase t.next).lookup k =
      if k = t.next then none else t.completed.lookup k := by
    intro t k
    split
    · rename_i same
      rw [same, AList.lookup_erase]
    · rename_i other
      rw [AList.lookup_erase_ne other]
  induction left generalizing t with
  | zero =>
    refine ⟨fun k => ?_, .inl ⟨by omega, by simpa [CompletionTracker.forget] using most, rfl⟩⟩
    rw [CompletionTracker.forget, erased]
    by_cases here : k = t.next
    · rw [if_pos here, if_pos ⟨by omega, by omega⟩]
    · rw [if_neg here, if_neg (by omega)]
  | succ left ih =>
    rw [CompletionTracker.forget]
    split
    · rename_i past
      dsimp only at past
      refine ⟨fun k => ?_, .inr ⟨by omega, ?_, rfl⟩⟩
      · rw [erased]
        by_cases here : k = t.next
        · rw [if_pos here, if_pos ⟨by omega, by omega⟩]
        · rw [if_neg here, if_neg (by omega)]
      · show t.next + 1 = through + 1
        omega
    · rename_i more
      dsimp only at more
      obtain ⟨completed, ends⟩ := ih
        (t := { t with completed := t.completed.erase t.next, next := t.next + 1 })
        (by show t.next + 1 + left = maxSequence; omega) (by show t.next + 1 ≤ through; omega)
      refine ⟨fun k => ?_, ends⟩
      rw [completed k, erased]
      dsimp only
      by_cases here : k = t.next
      · rw [if_pos here, if_pos (show t.next ≤ k ∧ k ≤ through by omega)]
        split <;> rfl
      · rw [if_neg here]
        by_cases inside : t.next ≤ k ∧ k ≤ through
        · rw [if_pos inside, if_pos (by omega)]
        · rw [if_neg inside, if_neg (by omega)]

def CompletionTracker.upto (t : CompletionTracker) : Nat :=
  if t.exhausted then maxSequence + 1 else t.next

/-- The tracker against the completions it was given: those below `upto` are complete, and the
others are held. -/
structure Tracks (first : Nat) (t : CompletionTracker) (marked : List DurableCompletion) : Prop where
  started : first ≤ t.upto
  bounded : t.next ≤ maxSequence
  range : ∀ c ∈ marked, first ≤ c.sequence ∧ c.sequence ≤ maxSequence
  unique : ∀ c ∈ marked, ∀ c' ∈ marked, c.sequence = c'.sequence → c = c'
  valid : ∀ c ∈ marked, c.position.valid = true
  done : ∀ k, first ≤ k → k < t.upto → ∃ c ∈ marked, c.sequence = k
  held : ∀ k position, t.completed.lookup k = some position ↔
    t.upto ≤ k ∧ ∃ c ∈ marked, c.sequence = k ∧ c.position = position

theorem admits_cases (h : t.admits c = .ok true) : c.position.valid = true ∧
    t.exhausted = false ∧ t.next ≤ c.sequence ∧ t.completed.lookup c.sequence = none := by
  simp only [CompletionTracker.admits, bind_eq_ok, reject_eq_ok, Bool.or_eq_false_iff,
    Bool.not_eq_false'] at h
  obtain ⟨_, _, _, ⟨_, valid⟩, _, fresh, h⟩ := h
  refine ⟨valid, fresh, ?_⟩
  split at h
  · cases h
  · rename_i late
    refine ⟨not_lt.mp late, ?_⟩
    split at h
    · simp only [bind_eq_ok] at h
      obtain ⟨_, _, h⟩ := h
      cases h
    · rename_i missing
      exact missing

variable {first : Nat} {marked : List DurableCompletion}

theorem Tracks.insert (tracks : Tracks first t marked) (width : c.sequence ≤ maxSequence)
    (admitted : t.admits c = .ok true) :
    Tracks first { t with completed := t.completed.insert c.sequence c.position } (c :: marked) := by
  obtain ⟨valid, fresh, late, missing⟩ := admits_cases admitted
  have upto : t.upto = t.next := by simp [CompletionTracker.upto, fresh]
  have absent : ∀ d ∈ marked, d.sequence ≠ c.sequence := by
    intro d member same
    have found := (tracks.held c.sequence d.position).mpr
      ⟨by rw [upto]; exact late, d, member, same, rfl⟩
    rw [missing] at found
    cases found
  have started := tracks.started
  refine ⟨tracks.started, tracks.bounded, ?_, ?_, ?_, ?_, ?_⟩
  · rintro d (_ | ⟨_, member⟩)
    · exact ⟨by omega, width⟩
    · exact tracks.range d member
  · rintro d (_ | ⟨_, member⟩) d' (_ | ⟨_, member'⟩) same
    · rfl
    · exact absurd same.symm (absent d' member')
    · exact absurd same (absent d member)
    · exact tracks.unique d member d' member' same
  · rintro d (_ | ⟨_, member⟩)
    · exact valid
    · exact tracks.valid d member
  · intro k low high
    obtain ⟨d, member, same⟩ := tracks.done k low high
    exact ⟨d, .tail _ member, same⟩
  · intro k position
    show (t.completed.insert c.sequence c.position).lookup k = some position ↔ t.upto ≤ k ∧ _
    rw [Table.lookup_insert]
    split
    · rename_i here
      constructor
      · rintro ⟨⟩
        exact ⟨by omega, c, List.mem_cons_self, here.symm, rfl⟩
      · rintro ⟨_, d, _ | ⟨_, member⟩, same, at_⟩
        · rw [at_]
        · exact absurd (same.trans here) (absent d member)
    · rename_i other
      rw [tracks.held k position]
      constructor
      · rintro ⟨low, d, member, same, at_⟩
        exact ⟨low, d, .tail _ member, same, at_⟩
      · rintro ⟨low, d, _ | ⟨_, member⟩, same, at_⟩
        · exact absurd same.symm other
        · exact ⟨low, d, member, same, at_⟩

theorem store_cases {result : Except Fault (Option CheckpointCandidate)}
    (tracks : Tracks first t marked) (width : c.sequence ≤ maxSequence)
    (admitted : t.admits c = .ok true) (h : t.store c = (result, t')) :
    Tracks first t' (c :: marked) ∧
      ((∀ made, result ≠ .ok (some made)) ∧ t'.upto = t.upto ∨
        ∃ made, result = .ok (some made) ∧ t.upto ≤ made.throughSequence ∧
          t'.upto = made.throughSequence + 1 ∧ Forward made.fileRanges ∧
          ∀ b, Covers made.fileRanges b ↔ ∃ d ∈ c :: marked, t.upto ≤ d.sequence ∧
            d.sequence ≤ made.throughSequence ∧ InPosition d.position b) := by
  obtain ⟨_, fresh, late, _⟩ := admits_cases admitted
  have upto : t.upto = t.next := by simp [CompletionTracker.upto, fresh]
  have stored := tracks.insert width admitted
  have valid : CompletionTracker.Valid { t with
      completed := t.completed.insert c.sequence c.position } := by
    intro k position found
    obtain ⟨_, d, member, _, rfl⟩ := (stored.held k position).mp found
    exact stored.valid d member
  unfold CompletionTracker.store at h
  dsimp only at h
  split at h
  · cases h
    exact ⟨stored, .inl ⟨by simp, rfl⟩⟩
  · cases h
    exact ⟨stored, .inl ⟨by simp, rfl⟩⟩
  · rename_i made gathered
    cases h
    have bounded := tracks.bounded
    obtain ⟨_, same⟩ | ⟨_, same, low, high, forward, all, covers⟩ :=
      gather_cases valid (by show t.next + _ = _; omega) (by simp) gathered
    · cases same
    cases same
    dsimp only at low all covers
    obtain ⟨completed, ends⟩ := forget_cases (t := { t with
      completed := t.completed.insert c.sequence c.position })
      (Nat.add_sub_cancel' bounded) low high
    generalize CompletionTracker.forget made.throughSequence (maxSequence - t.next)
      { t with completed := t.completed.insert c.sequence c.position } = after at completed ends
    dsimp only at completed ends
    rw [fresh] at ends
    have beyond : after.upto = made.throughSequence + 1 := by
      unfold CompletionTracker.upto
      obtain ⟨last, _, ended⟩ | ⟨_, next, ended⟩ := ends
      · simp [ended, last]
      · simp [ended, next]
    have held : ∀ k position, ({ t with completed := t.completed.insert c.sequence c.position } :
        CompletionTracker).completed.lookup k = some position ↔ t.next ≤ k ∧
          ∃ d ∈ c :: marked, d.sequence = k ∧ d.position = position := by
      intro k position
      rw [← upto]
      exact stored.held k position
    refine ⟨⟨?_, ?_, stored.range, stored.unique, stored.valid, ?_, ?_⟩,
      .inr ⟨made, rfl, by omega, beyond, forward, fun b => ?_⟩⟩
    · have started := tracks.started
      omega
    · obtain ⟨_, next, _⟩ | ⟨inside, next, _⟩ := ends
      · exact next.le
      · omega
    · intro k from_ to_
      by_cases before : k < t.next
      · exact stored.done k from_ (by show k < t.upto; omega)
      · obtain ⟨position, found⟩ := Option.isSome_iff_exists.mp (all k (by omega) (by omega))
        obtain ⟨_, d, member, same, _⟩ := (held k position).mp found
        exact ⟨d, member, same⟩
    · intro k position
      rw [completed k, beyond]
      split
      · rename_i inside
        constructor
        · rintro ⟨⟩
        · rintro ⟨later, _⟩
          omega
      · rename_i outside
        rw [held k position]
        constructor
        · rintro ⟨from_, rest⟩
          exact ⟨by omega, rest⟩
        · rintro ⟨from_, rest⟩
          exact ⟨by omega, rest⟩
    · rw [covers b]
      constructor
      · rintro (⟨_, none_, _⟩ | ⟨k, position, from_, to_, found, inside⟩)
        · cases none_
        · obtain ⟨_, d, member, rfl, rfl⟩ := (held k position).mp found
          exact ⟨d, member, by omega, to_, inside⟩
      · rintro ⟨d, member, from_, to_, inside⟩
        refine .inr ⟨d.sequence, d.position, by omega, to_, ?_, inside⟩
        exact (held _ _).mpr ⟨by omega, d, member, rfl, rfl⟩

end Tracker

def Done (marked : List DurableCompletion) (through : Nat) (b : Byte) : Prop :=
  ∃ c ∈ marked, c.sequence ≤ through ∧ InPosition c.position b

def Saved (saves : List CheckpointCandidate) (b : Byte) : Prop :=
  ∃ saved ∈ saves, Covers saved.fileRanges b

theorem Done.mono {marked marked' : List DurableCompletion} {through through' : Nat} {b : Byte}
    (h : Done marked through b) (more : marked ⊆ marked') (le : through ≤ through') :
    Done marked' through' b := by
  obtain ⟨c, member, early, inside⟩ := h
  exact ⟨c, more member, early.trans le, inside⟩

theorem done_cons {marked : List DurableCompletion} {c : DurableCompletion} {through : Nat}
    {b : Byte} (beyond : through < c.sequence) : Done (c :: marked) through b ↔ Done marked through b := by
  constructor
  · rintro ⟨d, _ | ⟨_, member⟩, early, inside⟩
    · omega
    · exact ⟨d, member, early, inside⟩
  · exact fun h => h.mono (List.subset_cons_self _ _) le_rfl

/-- The ranges of a candidate, with those saved before it, are the bytes done up to it. -/
structure Fits (marked : List DurableCompletion) (saves : List CheckpointCandidate)
    (candidate : CheckpointCandidate) : Prop where
  forward : Forward candidate.fileRanges
  inside : ∀ b, Covers candidate.fileRanges b → Done marked candidate.throughSequence b
  whole : ∀ b, Done marked candidate.throughSequence b →
    Saved saves b ∨ Covers candidate.fileRanges b

structure Exact (first : Nat) (marked : List DurableCompletion) (saved : CheckpointCandidate)
    (older : List CheckpointCandidate) : Prop where
  later : ∀ o ∈ older, o.throughSequence < saved.throughSequence
  complete : ∀ k, first ≤ k → k ≤ saved.throughSequence → ∃ c ∈ marked, c.sequence = k
  covers : ∀ b, Saved (saved :: older) b ↔ Done marked saved.throughSequence b

structure Consistent (first : Nat) (s : Session) : Prop where
  tracks : Tracks first s.manager.tracker s.marked
  early : ∀ o ∈ s.saves, o.throughSequence < s.manager.tracker.upto
  exact : EachTail (Exact first s.marked) s.saves
  none_ : s.manager.invalid = none → s.manager.pending = none → ∀ b,
    ∀ c ∈ s.marked, c.sequence < s.manager.tracker.upto → InPosition c.position b → Saved s.saves b
  some_ : s.manager.invalid = none → ∀ p, s.manager.pending = some p →
    p.throughSequence + 1 = s.manager.tracker.upto ∧ Fits s.marked s.saves p
  idle : s.flush = .idle → s.manager.invalid = none → ∀ p, s.manager.pending = some p →
    ∀ o ∈ s.saves, o.throughSequence < p.throughSequence
  saving : ∀ candidate, s.flush = .saving candidate →
    candidate.throughSequence < s.manager.tracker.upto ∧ Fits s.marked s.saves candidate ∧
      (∀ o ∈ s.saves, o.throughSequence < candidate.throughSequence) ∧
      (s.manager.invalid = none → ∀ p, s.manager.pending = some p →
        candidate.throughSequence ≤ p.throughSequence)
  saved : ∀ candidate, s.flush = .saved candidate → ∃ older, s.saves = candidate :: older ∧
    (s.manager.invalid = none → ∀ p, s.manager.pending = some p →
      candidate.throughSequence ≤ p.throughSequence)

section Sessions

variable {first : Nat} {s s' : Session}

variable {marked : List DurableCompletion} {saves : List CheckpointCandidate}
  {candidate made : CheckpointCandidate} {c : DurableCompletion}

theorem Fits.cons (h : Fits marked saves candidate)
    (beyond : candidate.throughSequence < c.sequence) : Fits (c :: marked) saves candidate :=
  ⟨h.forward, fun b covered => (done_cons beyond).mpr (h.inside b covered),
    fun b done => h.whole b ((done_cons beyond).mp done)⟩

theorem Fits.saved (h : Fits marked saves candidate) (saved : CheckpointCandidate) :
    Fits marked (saved :: saves) candidate := by
  refine ⟨h.forward, h.inside, fun b done => ?_⟩
  obtain ⟨o, member, covered⟩ | covered := h.whole b done
  · exact .inl ⟨o, .tail _ member, covered⟩
  · exact .inr covered

theorem exact_cons (beyond : ∀ o ∈ saves, o.throughSequence < c.sequence)
    (h : EachTail (Exact first marked) saves) : EachTail (Exact first (c :: marked)) saves := by
  induction saves with
  | nil => trivial
  | cons saved older ih =>
    obtain ⟨here, rest⟩ := h
    refine ⟨⟨here.later, fun k low high => ?_, fun b => ?_⟩,
      ih (fun o member => beyond o (.tail _ member)) rest⟩
    · obtain ⟨d, member, same⟩ := here.complete k low high
      exact ⟨d, .tail _ member, same⟩
    · rw [done_cons (beyond saved List.mem_cons_self)]
      exact here.covers b

theorem Consistent.invalid (h : Consistent first s) (err : Fault) :
    Consistent first { s with manager := { s.manager with invalid := some err } } := by
  refine ⟨h.tracks, h.early, h.exact, by simp, by simp, by simp, fun candidate running => ?_,
    fun candidate running => ?_⟩
  · obtain ⟨reached, fits, later, _⟩ := h.saving candidate running
    exact ⟨reached, fits, later, by simp⟩
  · obtain ⟨older, same, _⟩ := h.saved candidate running
    exact ⟨older, same, by simp⟩

theorem Consistent.stored (h : Consistent first s) (sane : s.manager.invalid = none)
    {m : CheckpointManager} (tracks : Tracks first m.tracker (c :: s.marked))
    (grows : s.manager.tracker.upto ≤ m.tracker.upto) (beyond : s.manager.tracker.upto ≤ c.sequence)
    (none_ : m.invalid = none → m.pending = none → ∀ b, ∀ d ∈ c :: s.marked,
      d.sequence < m.tracker.upto → InPosition d.position b → Saved s.saves b)
    (some_ : m.invalid = none → ∀ p, m.pending = some p →
      p.throughSequence + 1 = m.tracker.upto ∧ Fits (c :: s.marked) s.saves p)
    (newer : m.invalid = none → ∀ p, m.pending = some p →
      s.manager.pending = some p ∨ s.manager.tracker.upto ≤ p.throughSequence) :
    Consistent first { s with manager := m, marked := c :: s.marked } := by
  refine ⟨tracks, fun o member => lt_of_lt_of_le (h.early o member) grows,
    exact_cons (fun o member => lt_of_lt_of_le (h.early o member) beyond) h.exact, none_, some_,
    fun idle valid p pending o member => ?_, fun candidate running => ?_, fun candidate running => ?_⟩
  · obtain same | further := newer valid p pending
    · exact h.idle idle sane p same o member
    · exact lt_of_lt_of_le (h.early o member) further
  · obtain ⟨reached, fits, later, before⟩ := h.saving candidate running
    refine ⟨lt_of_lt_of_le reached grows, fits.cons (lt_of_lt_of_le reached beyond), later,
      fun valid p pending => ?_⟩
    obtain same | further := newer valid p pending
    · exact before sane p same
    · exact reached.le.trans further
  · obtain ⟨older, same, before⟩ := h.saved candidate running
    refine ⟨older, same, fun valid p pending => ?_⟩
    obtain kept | further := newer valid p pending
    · exact before sane p kept
    · have early := h.early candidate (by rw [same]; exact List.mem_cons_self)
      exact early.le.trans further

variable {upto : Nat} {moves : List Move} {sourceID : String} {tracker : CompletionTracker}

theorem fits_merged {p : CheckpointCandidate} {ranges : List FilePosition}
    (fits : Fits marked saves p) (reached : p.throughSequence + 1 = upto)
    (beyond : upto ≤ c.sequence) (further : upto ≤ made.throughSequence)
    (forward : Forward made.fileRanges)
    (covers : ∀ b, Covers made.fileRanges b ↔ ∃ d ∈ c :: marked, upto ≤ d.sequence ∧
      d.sequence ≤ made.throughSequence ∧ InPosition d.position b)
    (merged : mergeFileRanges p.fileRanges made.fileRanges = .ok ranges) :
    Fits (c :: marked) saves { made with fileRanges := ranges } := by
  obtain ⟨forward', joined⟩ := covers_mergeFileRanges fits.forward forward merged
  refine ⟨forward', fun b covered => ?_, ?_⟩
  · obtain covered | covered := (joined b).mp covered
    · exact (fits.inside b covered).mono (List.subset_cons_self _ _)
        (show p.throughSequence ≤ made.throughSequence by omega)
    · obtain ⟨d, member, _, high, inside⟩ := (covers b).mp covered
      exact ⟨d, member, high, inside⟩
  · rintro b ⟨d, member, high, inside⟩
    by_cases late : upto ≤ d.sequence
    · exact .inr ((joined b).mpr (.inr ((covers b).mpr ⟨d, member, late, high, inside⟩)))
    · have old : d ∈ marked := by
        obtain _ | ⟨_, old⟩ := member
        · omega
        · exact old
      obtain saved | covered := fits.whole b ⟨d, old, by omega, inside⟩
      · exact .inl saved
      · exact .inr ((joined b).mpr (.inl covered))

theorem fits_made (beyond : upto ≤ c.sequence)
    (saved : ∀ b, ∀ d ∈ marked, d.sequence < upto → InPosition d.position b → Saved saves b)
    (forward : Forward made.fileRanges)
    (covers : ∀ b, Covers made.fileRanges b ↔ ∃ d ∈ c :: marked, upto ≤ d.sequence ∧
      d.sequence ≤ made.throughSequence ∧ InPosition d.position b) :
    Fits (c :: marked) saves made := by
  refine ⟨forward, fun b covered => ?_, ?_⟩
  · obtain ⟨d, member, _, high, inside⟩ := (covers b).mp covered
    exact ⟨d, member, high, inside⟩
  · rintro b ⟨d, member, high, inside⟩
    by_cases late : upto ≤ d.sequence
    · exact .inr ((covers b).mpr ⟨d, member, late, high, inside⟩)
    · obtain _ | ⟨_, old⟩ := member
      · omega
      · exact .inl (saved b d old (by omega) inside)

theorem Consistent.replace (h : Consistent first s) (sane : s.manager.invalid = none)
    {t : CompletionTracker} (tracks : Tracks first t (c :: s.marked))
    (beyond : s.manager.tracker.upto ≤ c.sequence)
    (further : s.manager.tracker.upto ≤ made.throughSequence)
    (reaches : t.upto = made.throughSequence + 1) (forward : Forward made.fileRanges)
    (covers : ∀ b, Covers made.fileRanges b ↔ ∃ d ∈ c :: s.marked,
      s.manager.tracker.upto ≤ d.sequence ∧ d.sequence ≤ made.throughSequence ∧
        InPosition d.position b) :
    Consistent first { s with
      manager := { s.manager with tracker := t }.replace made, marked := c :: s.marked } := by
  have grows : s.manager.tracker.upto ≤ t.upto := by omega
  unfold CheckpointManager.replace
  cases pending : s.manager.pending with
  | none =>
    refine h.stored sane tracks grows beyond (by simp) ?_ ?_
    · rintro _ _ ⟨⟩
      exact ⟨reaches.symm, fits_made beyond (h.none_ sane pending) forward covers⟩
    · rintro _ _ ⟨⟩
      exact .inr further
  | some p =>
    obtain ⟨reached, fits⟩ := h.some_ sane p pending
    dsimp only
    split
    · exact h.stored sane tracks grows beyond (by simp) (by simp) (by simp)
    · rename_i ranges merged
      refine h.stored sane tracks grows beyond (by simp) ?_ ?_
      · rintro _ _ ⟨⟩
        exact ⟨reaches.symm, fits_merged fits reached beyond further forward covers merged⟩
      · rintro _ _ ⟨⟩
        exact .inr further

theorem Consistent.mark (h : Consistent first s) (sane : s.manager.invalid = none)
    (width : c.sequence ≤ maxSequence) (admitted : s.manager.tracker.admits c = .ok true) :
    Consistent first { s with manager := s.manager.complete c, marked := c :: s.marked } := by
  obtain ⟨_, fresh, late, _⟩ := admits_cases admitted
  have beyond : s.manager.tracker.upto ≤ c.sequence := by
    simpa [CompletionTracker.upto, fresh] using late
  obtain ⟨result, t, stores⟩ : ∃ result t, s.manager.tracker.store c = (result, t) := ⟨_, _, rfl⟩
  obtain ⟨tracks, outcome⟩ := store_cases h.tracks width admitted stores
  have marks : s.manager.tracker.mark c = (result, t) := by
    simp only [CompletionTracker.mark, admitted, stores]
  rw [CheckpointManager.complete, if_neg (by simp [sane]), marks]
  obtain ⟨nothing, same⟩ | ⟨made, rfl, further, reaches, forward, covers⟩ := outcome
  · have kept : Consistent first { s with
        manager := { s.manager with tracker := t }, marked := c :: s.marked } := by
      refine h.stored sane tracks same.ge beyond (fun _ pending b d member early inside => ?_)
        (fun _ p pending => ?_) fun _ p pending => .inl pending
      · rw [show t.upto = _ from same] at early
        obtain _ | ⟨_, old⟩ := member
        · omega
        · exact h.none_ sane pending b d old early inside
      · obtain ⟨reached, fits⟩ := h.some_ sane p pending
        exact ⟨reached.trans same.symm, fits.cons (by omega)⟩
    match result with
    | .error err => exact kept.invalid err
    | .ok none => exact kept
    | .ok (some made) => exact absurd rfl (nothing made)
  · exact h.replace sane tracks beyond further reaches forward covers

theorem consistent_complete (h : Consistent first s) (width : c.sequence ≤ maxSequence) :
    Consistent first { s with
      manager := s.manager.complete c
      marked := if s.manager.invalid.isNone && (s.manager.tracker.admits c).toOption == some true
        then c :: s.marked else s.marked } := by
  cases sane : s.manager.invalid with
  | some err =>
    rw [CheckpointManager.complete, if_pos (by simp [sane]), if_neg (by simp)]
    exact h
  | none =>
    cases admitted : s.manager.tracker.admits c with
    | error err =>
      rw [CheckpointManager.complete, if_neg (by simp [sane]), CompletionTracker.mark, admitted,
        if_neg (by simp [Except.toOption])]
      exact h.invalid err
    | ok new =>
      cases new with
      | false =>
        rw [CheckpointManager.complete, if_neg (by simp [sane]), CompletionTracker.mark, admitted,
          if_neg (by simp [Except.toOption])]
        exact h
      | true =>
        rw [if_pos (by simp [Except.toOption])]
        exact h.mark sane width admitted

theorem consistent_save (h : Consistent first s) (running : s.flush = .saving candidate) :
    Consistent first { s with flush := .saved candidate, saves := candidate :: s.saves } := by
  obtain ⟨reached, fits, later, before⟩ := h.saving candidate running
  have more : ∀ b, Saved s.saves b → Saved (candidate :: s.saves) b :=
    fun b ⟨o, member, covered⟩ => ⟨o, .tail _ member, covered⟩
  refine ⟨h.tracks, ?_, ⟨⟨later, fun k low high => ?_, fun b => ?_⟩, h.exact⟩,
    fun sane pending b c member early inside => more b (h.none_ sane pending b c member early inside),
    fun sane p pending => ?_, by simp, by simp, ?_⟩
  · rintro o (_ | ⟨_, member⟩)
    · exact reached
    · exact h.early o member
  · exact h.tracks.done k low (by omega)
  · constructor
    · rintro ⟨o, _ | ⟨_, member⟩, covered⟩
      · exact fits.inside b covered
      · obtain ⟨newer, older, same⟩ := List.append_of_mem member
        have exact_ := EachTail.split (same ▸ h.exact)
        refine ((exact_.covers b).mp ⟨o, List.mem_cons_self, covered⟩).mono (List.Subset.refl _) ?_
        exact (later o member).le
    · intro done
      obtain saved | covered := fits.whole b done
      · exact more b saved
      · exact ⟨candidate, List.mem_cons_self, covered⟩
  · obtain ⟨reached, fits⟩ := h.some_ sane p pending
    exact ⟨reached, fits.saved candidate⟩
  · rintro _ ⟨⟩
    exact ⟨s.saves, rfl, before⟩

theorem consistent_clear (h : Consistent first s) (running : s.flush = .saved candidate) :
    Consistent first (s.clear candidate) := by
  obtain ⟨older, same, before⟩ := h.saved candidate running
  have latest := h.exact
  rw [same] at latest
  obtain ⟨exact_, _⟩ := latest
  unfold Session.clear
  dsimp only
  split
  · rename_i cleared
    obtain ⟨p, pending, through⟩ := (Option.any_eq_true _ _).mp cleared
    rw [beq_iff_eq] at through
    refine ⟨h.tracks, h.early, h.exact, fun sane _ b c member early inside => ?_, by simp, by simp,
      by simp, by simp⟩
    obtain ⟨reached, _⟩ := h.some_ sane p pending
    rw [same]
    exact (exact_.covers b).mpr ⟨c, member, by dsimp only at early; omega, inside⟩
  · rename_i kept
    refine ⟨h.tracks, h.early, h.exact, h.none_, h.some_, fun _ sane p pending o member => ?_,
      by simp, by simp⟩
    have le := before sane p pending
    have differ : p.throughSequence ≠ candidate.throughSequence := by
      intro equal
      dsimp only at pending
      simp [pending, equal] at kept
    dsimp only at member
    rw [same] at member
    obtain _ | ⟨_, member⟩ := member
    · omega
    · have less := exact_.later o member
      omega

theorem consistent_step {move : Move} (h : Consistent first s) (moved : s.step move = some s') :
    Consistent first s' := by
  cases move with
  | complete c =>
    simp only [Session.step] at moved
    split at moved
    · cases moved
    · rename_i width
      cases moved
      exact consistent_complete h (not_lt.mp width)
  | look =>
    simp only [Session.step] at moved
    split at moved
    · rename_i idle
      cases moved
      unfold Session.look
      split
      · rename_i p sane pending
        obtain ⟨reached, fits⟩ := h.some_ sane p pending
        refine ⟨h.tracks, h.early, h.exact, h.none_, h.some_, by simp, ?_, by simp⟩
        rintro _ ⟨⟩
        refine ⟨by dsimp only; omega, fits, h.idle idle sane p pending, fun _ q found => ?_⟩
        rw [show q = p from Option.some.inj (found.symm.trans pending)]
      · exact h
    · cases moved
  | save succeeds =>
    simp only [Session.step] at moved
    split at moved
    · rename_i candidate running
      cases succeeds with
      | true =>
        cases moved
        exact consistent_save h running
      | false =>
        cases moved
        obtain ⟨_, _, later, before⟩ := h.saving candidate running
        refine ⟨h.tracks, h.early, h.exact, h.none_, h.some_, fun _ sane p pending o member => ?_,
          by simp, by simp⟩
        exact lt_of_lt_of_le (later o member) (before sane p pending)
    · cases moved
  | clear =>
    simp only [Session.step] at moved
    split at moved
    · rename_i candidate running
      cases moved
      exact consistent_clear h running
    · cases moved

theorem completed_of_marked (h : runSteps Session.step s moves = some s') (member : c ∈ s'.marked) :
    c ∈ s.marked ∨ .complete c ∈ moves := by
  induction moves generalizing s with
  | nil =>
    cases h
    exact .inl member
  | cons move rest ih =>
    obtain ⟨middle, first, later⟩ := Option.bind_eq_some_iff.mp h
    obtain old | listed := ih later
    · have here : c ∈ s.marked ∨ move = .complete c := by
        cases move with
        | complete d =>
          simp only [Session.step] at first
          split at first
          · cases first
          · cases first
            dsimp only at old
            split at old
            · obtain _ | ⟨_, old⟩ := old
              · exact .inr rfl
              · exact .inl old
            · exact .inl old
        | look =>
          simp only [Session.step, Session.look] at first
          split at first
          · cases first
            split at old
            · exact .inl old
            · exact .inl old
          · cases first
        | save succeeds =>
          simp only [Session.step] at first
          split at first
          · split at first
            · cases first
              exact .inl old
            · cases first
              exact .inl old
          · cases first
        | clear =>
          simp only [Session.step, Session.clear] at first
          split at first
          · cases first
            exact .inl old
          · cases first
      obtain here | same := here
      · exact .inl here
      · rw [same]
        exact .inr List.mem_cons_self
    · exact .inr (.tail _ listed)

theorem consistent_start (new : newCompletionTracker sourceID first = .ok tracker)
    (width : first ≤ maxSequence) :
    Consistent first { manager := { tracker := tracker } } := by
  simp only [newCompletionTracker, bind_eq_ok] at new
  obtain ⟨_, _, _, _, new⟩ := new
  cases new
  refine ⟨⟨le_rfl, width, by simp, by simp, by simp, fun k low high => ?_, fun k position => ?_⟩,
    by simp, trivial, by simp, by simp, by simp, by simp, by simp⟩
  · exact absurd (lt_of_lt_of_le high low) (lt_irrefl _)
  · simp

/-- In every interleaving of `Complete` and `Flush`, with any completions and any failures of the
store: each save goes beyond the ones before it, comes after all sequences up to its own have been
completed, and with it the saved ranges are exactly the bytes of the file deliveries up to it. -/
theorem saves_cover_completed_deliveries (new : newCompletionTracker sourceID first = .ok tracker)
    (width : first ≤ maxSequence)
    (h : runSteps Session.step { manager := { tracker := tracker } } moves = some s) :
    (∀ newer saved older, s.saves = newer ++ saved :: older →
      (∀ o ∈ older, o.throughSequence ≤ saved.throughSequence) ∧
      (∀ k, first ≤ k → k ≤ saved.throughSequence → ∃ c ∈ s.marked, c.sequence = k) ∧
      ∀ b, (∃ o ∈ saved :: older, Covers o.fileRanges b) ↔
        ∃ c ∈ s.marked, c.sequence ≤ saved.throughSequence ∧ InPosition c.position b) ∧
    (∀ c ∈ s.marked, .complete c ∈ moves) ∧
    ∀ c ∈ s.marked, ∀ c' ∈ s.marked, c.sequence = c'.sequence → c = c' := by
  have consistent : Consistent first s :=
    runSteps_preserves (Consistent first) (fun _ _ _ => consistent_step)
      (consistent_start new width) h
  refine ⟨fun newer saved older same => ?_, fun c member => ?_, consistent.tracks.unique⟩
  · have exact_ := EachTail.split (same ▸ consistent.exact)
    exact ⟨fun o member => (exact_.later o member).le, exact_.complete, exact_.covers⟩
  · obtain old | listed := completed_of_marked h member
    · exact absurd old List.not_mem_nil
    · exact listed

end Sessions

namespace Sample

def deliveryID : String := "dlv1_0000000000000000000000000000000000000000000000000000"

def file (startOffset endOffset : Nat) : FilePosition :=
  ⟨"0123456789abcdef0123456789abcdef", 1, 2, startOffset, endOffset⟩

def completion (sequence startOffset endOffset : Nat) : DurableCompletion :=
  ⟨"ssh", deliveryID, sequence, .file (file startOffset endOffset)⟩

/-- The second delivery completes first; the first save fails, and a third delivery completes while
the second save is under way. -/
def interleaved : List Move :=
  [.complete (completion 2 5 9), .look, .complete (completion 1 0 5), .look, .save false, .look,
    .complete (completion 3 9 12), .save true, .clear, .look, .save true, .clear]

def finished : Option Session :=
  runSteps Session.step { manager := { tracker := { sourceID := "ssh", next := 1 } } } interleaved

theorem interleaved_saves_cover : ∃ s, finished = some s ∧
    s.saves.map CheckpointCandidate.throughSequence = [3, 2] ∧
    ∀ b, (∃ o ∈ s.saves, Covers o.fileRanges b) ↔
      ∃ c ∈ s.marked, c.sequence ≤ 3 ∧ InPosition c.position b := by
  have run : finished.map (fun s => s.saves.map CheckpointCandidate.throughSequence) =
      some [3, 2] := by decide +kernel
  obtain ⟨s, done, saves⟩ := Option.map_eq_some_iff.mp run
  refine ⟨s, done, saves, ?_⟩
  cases same : s.saves with
  | nil =>
    rw [same] at saves
    cases saves
  | cons saved older =>
    rw [same] at saves
    have new : newCompletionTracker "ssh" 1 = .ok { sourceID := "ssh", next := 1 } := rfl
    have covers := ((saves_cover_completed_deliveries new (by decide) done).1 [] saved older same).2.2
    rw [show saved.throughSequence = 3 from (List.cons.inj saves).1] at covers
    exact covers

end Sample

end GuardWall.Source
