import GuardWall.Processor.Durable

/-! How the reservations of attempts are resolved: the gate lets one call at a time deal with a
delivery, and the first `Confirm` or `Abort` of an attempt agrees with what its transaction did. -/
namespace GuardWall.Processor

open GuardWall.Core GuardWall.Foundation

def verdict (number : Nat) : List ProcEvent → Option Bool
  | [] => none
  | e :: older => (verdict number older).or
      (match e with
      | .resolved n confirmed => if n = number then some confirmed else none
      | .committed .. => none)

@[simp] theorem verdict_committed (number call : Nat) (id : String) (trace : List ProcEvent) :
    verdict number (.committed call id :: trace) = verdict number trace := by
  simp [verdict]

theorem verdict_resolved (number n : Nat) (confirmed : Bool) (trace : List ProcEvent) :
    verdict number (.resolved n confirmed :: trace) =
      (verdict number trace).or (if n = number then some confirmed else none) := rfl

theorem verdict_resolved_ne {number n : Nat} (other : n ≠ number) (confirmed : Bool)
    (trace : List ProcEvent) :
    verdict number (.resolved n confirmed :: trace) = verdict number trace := by
  simp [verdict_resolved, other]

def Stage.attempt : Stage → Option Attempt
  | .entered => none
  | .absent => none
  | .prepared a => some a
  | .begun a => some a
  | .written a => some a
  | .finalized a => some a
  | .staged a _ _ => some a
  | .ambiguous a => some a

def Carries (b : ProcBoard) (busy : Option Nat) (id : Nat) (a : Attempt) : Prop :=
  some id ≠ busy ∧ ∃ call channel stage, b.calls.lookup id = some call ∧
    call.point = .inside channel stage ∧ stage.attempt = some a

structure Inside (b : ProcBoard) (landed : List Nat) (id : Nat) (call : ProcCall) (stage : Stage) :
    Prop where
  owns : ∃ slot, b.slots.lookup call.delivery.id = some slot ∧ slot.holder = some id ∧
    id ∈ slot.refs
  clear : stage ≠ .entered → b.deferred.lookup call.delivery.id = none ∧
    b.pending.lookup (call.coordinator, call.delivery.id) = none
  unwritten : stage ≠ .entered → (∀ a, stage ≠ .ambiguous a) →
    b.receipts.lookup call.delivery.id = none
  attempt : ∀ a, stage.attempt = some a → verdict a.number b.trace = none ∧
    a.number < b.attempts ∧
    (a.number ∈ landed ↔ (b.receipts.lookup call.delivery.id).isSome = true)

/-- The order among the calls, but for a call that is in the middle of a move; `landed` are the
attempts whose transaction became durable. -/
structure Ordered (b : ProcBoard) (landed : List Nat) (busy : Option Nat) : Prop where
  inside : ∀ id call channel stage, some id ≠ busy → b.calls.lookup id = some call →
    call.point = .inside channel stage → Inside b landed id call stage
  queued : ∀ id call channel, some id ≠ busy → b.calls.lookup id = some call →
    call.point = .queued channel → ∃ slot, b.slots.lookup call.delivery.id = some slot ∧
      id ∈ slot.refs
  apart : ∀ id id' a a', Carries b busy id a → Carries b busy id' a' → a.number = a'.number →
    id = id'
  deferred : ∀ deliveryID a, b.deferred.lookup deliveryID = some a →
    verdict a.number b.trace = none ∧ a.number < b.attempts ∧
    (a.number ∈ landed ↔ (b.receipts.lookup deliveryID).isSome = true)
  uncarried : ∀ deliveryID a id a', b.deferred.lookup deliveryID = some a →
    Carries b busy id a' → a'.number ≠ a.number
  once : ∀ deliveryID deliveryID' a a', b.deferred.lookup deliveryID = some a →
    b.deferred.lookup deliveryID' = some a' → a.number = a'.number → deliveryID = deliveryID'
  pending : ∀ coordinator deliveryID a, b.pending.lookup (coordinator, deliveryID) = some a →
    verdict a.number b.trace ≠ none ∨ b.deferred.lookup deliveryID = some a
  judged : ∀ n confirmed, verdict n b.trace = some confirmed →
    n < b.attempts ∧ (confirmed = true ↔ n ∈ landed)
  numbered : ∀ n ∈ landed, n < b.attempts
  nodup : landed.Nodup

def Alone (b : ProcBoard) (id : Nat) (deliveryID : String) : Prop :=
  ∀ id' call channel stage, some id' ≠ some id → b.calls.lookup id' = some call →
    call.point = .inside channel stage → call.delivery.id ≠ deliveryID

section Primitives

variable {b b' : ProcBoard} {landed : List Nat} {busy : Option Nat} {id : Nat} {call : ProcCall}
  {a : Attempt} {deliveryID : String}

theorem Ordered.weaken (h : Ordered b landed none) (id : Nat) : Ordered b landed (some id) := by
  have carries {id' : Nat} {a : Attempt} (c : Carries b (some id) id' a) :
      Carries b none id' a := ⟨by simp, c.2⟩
  exact ⟨fun id' call channel stage _ => h.inside id' call channel stage (by simp),
    fun id' call channel _ => h.queued id' call channel (by simp),
    fun id' id'' a a' c c' => h.apart id' id'' a a' (carries c) (carries c'), h.deferred,
    fun d a id' a' found c => h.uncarried d a id' a' found (carries c), h.once, h.pending,
    h.judged, h.numbered, h.nodup⟩

theorem Ordered.alone (h : Ordered b landed none) {channel : Nat} {stage : Stage}
    (found : b.calls.lookup id = some call) (at_ : call.point = .inside channel stage) :
    Alone b id call.delivery.id := by
  intro id' call' channel' stage' other found' at' same
  obtain ⟨slot, present, holder, _⟩ := (h.inside id call channel stage (by simp) found at_).owns
  obtain ⟨slot', present', holder', _⟩ :=
    (h.inside id' call' channel' stage' (by simp) found' at').owns
  rw [same, present] at present'
  cases present'
  rw [holder] at holder'
  exact other holder'.symm

structure Local (b b' : ProcBoard) (id : Nat) (deliveryID : String) : Prop where
  calls : b'.calls = b.calls
  attempts : b.attempts ≤ b'.attempts
  slots : ∀ d, d ≠ deliveryID → b'.slots.lookup d = b.slots.lookup d
  queued : ∀ id', id' ≠ id → (∃ slot, b.slots.lookup deliveryID = some slot ∧ id' ∈ slot.refs) →
    ∃ slot, b'.slots.lookup deliveryID = some slot ∧ id' ∈ slot.refs
  deferred : ∀ d, d ≠ deliveryID → b'.deferred.lookup d = b.deferred.lookup d
  pending : ∀ c d, d ≠ deliveryID → b'.pending.lookup (c, d) = b.pending.lookup (c, d)
  receipts : ∀ d, d ≠ deliveryID → b'.receipts.lookup d = b.receipts.lookup d

theorem Carries.of_calls (same : b'.calls = b.calls) {id' : Nat} (h : Carries b' busy id' a) :
    Carries b busy id' a := by
  unfold Carries at h ⊢
  rwa [same] at h

theorem Ordered.change {landed' : List Nat} (h : Ordered b landed (some id))
    (alone : Alone b id deliveryID) (change : Local b b' id deliveryID) (mine : Nat → Prop)
    (steady : ∀ n, ¬ mine n → verdict n b'.trace = verdict n b.trace ∧
      (n ∈ landed' ↔ n ∈ landed))
    (kept : ∀ n, verdict n b.trace ≠ none → verdict n b'.trace ≠ none)
    (free : ∀ id' a', Carries b (some id) id' a' → ¬ mine a'.number)
    (elsewhere : ∀ d a', d ≠ deliveryID → b.deferred.lookup d = some a' → ¬ mine a'.number)
    (deferred : ∀ a, b'.deferred.lookup deliveryID = some a →
      (verdict a.number b'.trace = none ∧ a.number < b'.attempts ∧
        (a.number ∈ landed' ↔ (b'.receipts.lookup deliveryID).isSome = true)) ∧
      (∀ id' a', Carries b (some id) id' a' → a'.number ≠ a.number) ∧
      ∀ d a', d ≠ deliveryID → b.deferred.lookup d = some a' → a'.number ≠ a.number)
    (pending : ∀ c a, b'.pending.lookup (c, deliveryID) = some a →
      verdict a.number b'.trace ≠ none ∨ b'.deferred.lookup deliveryID = some a)
    (judged : ∀ n, mine n → ∀ confirmed, verdict n b'.trace = some confirmed →
      n < b'.attempts ∧ (confirmed = true ↔ n ∈ landed'))
    (numbered : ∀ n ∈ landed', n < b'.attempts) (nodup : landed'.Nodup) :
    Ordered b' landed' (some id) := by
  have carries {id' : Nat} {a' : Attempt} (c : Carries b' (some id) id' a') :
      Carries b (some id) id' a' := c.of_calls change.calls
  have counted {n : Nat} (lt : n < b.attempts) : n < b'.attempts := lt.trans_le change.attempts
  refine ⟨fun id' call channel stage other found at_ => ?_, fun id' call channel other found at_ => ?_,
    fun id' id'' a a' c c' => h.apart id' id'' a a' (carries c) (carries c'), fun d a found => ?_,
    fun d a id' a' found c => ?_, fun d d' a a' found found' same => ?_, fun c d a found => ?_,
    fun n confirmed said => ?_, numbered, nodup⟩
  · rw [change.calls] at found
    have apart := alone id' call channel stage other found at_
    have before := h.inside id' call channel stage other found at_
    refine ⟨?_, ?_, ?_, fun a some_ => ?_⟩
    · rw [change.slots _ apart]
      exact before.owns
    · rw [change.deferred _ apart, change.pending _ _ apart]
      exact before.clear
    · rw [change.receipts _ apart]
      exact before.unwritten
    · obtain ⟨undecided, lt, iff⟩ := before.attempt a some_
      obtain ⟨same, same'⟩ := steady a.number
        (free id' a ⟨other, call, channel, stage, found, at_, some_⟩)
      rw [same, same', change.receipts _ apart]
      exact ⟨undecided, counted lt, iff⟩
  · rw [change.calls] at found
    by_cases same : call.delivery.id = deliveryID
    · rw [same]
      refine change.queued id' (fun equal => other (congrArg some equal)) ?_
      rw [← same]
      exact h.queued id' call channel other found at_
    · rw [change.slots _ same]
      exact h.queued id' call channel other found at_
  · by_cases same : d = deliveryID
    · subst same
      exact (deferred a found).1
    · rw [change.deferred _ same] at found
      obtain ⟨undecided, lt, iff⟩ := h.deferred d a found
      obtain ⟨same', same''⟩ := steady a.number (elsewhere d a same found)
      rw [same', same'', change.receipts _ same]
      exact ⟨undecided, counted lt, iff⟩
  · by_cases same : d = deliveryID
    · subst same
      exact (deferred a found).2.1 id' a' (carries c)
    · rw [change.deferred _ same] at found
      exact h.uncarried d a id' a' found (carries c)
  · by_cases first : d = deliveryID <;> by_cases second : d' = deliveryID
    · rw [first, second]
    · subst first
      rw [change.deferred _ second] at found'
      exact absurd same.symm ((deferred a found).2.2 d' a' second found')
    · subst second
      rw [change.deferred _ first] at found
      exact absurd same ((deferred a' found').2.2 d a first found)
    · rw [change.deferred _ first] at found
      rw [change.deferred _ second] at found'
      exact h.once d d' a a' found found' same
  · by_cases same : d = deliveryID
    · subst same
      exact pending c a found
    · rw [change.pending _ _ same] at found
      rw [change.deferred _ same]
      exact (h.pending c d a found).imp_left (kept a.number)
  · by_cases own : mine n
    · exact judged n own confirmed said
    · obtain ⟨same, same'⟩ := steady n own
      rw [same] at said
      rw [same']
      exact ⟨counted (h.judged n confirmed said).1, (h.judged n confirmed said).2⟩

theorem Ordered.quiet (h : Ordered b landed (some id)) (alone : Alone b id deliveryID)
    (change : Local b b' id deliveryID) (trace : b'.trace = b.trace)
    (deferred : b'.deferred.lookup deliveryID = b.deferred.lookup deliveryID)
    (receipts : b'.receipts = b.receipts)
    (pending : ∀ c a, b'.pending.lookup (c, deliveryID) = some a →
      b.pending.lookup (c, deliveryID) = some a) : Ordered b' landed (some id) := by
  refine h.change alone change (fun _ => False) (fun n _ => by simp [trace]) (fun n => by simp [trace])
    (by simp) (by simp) (fun a found => ?_) (fun c a found => ?_) (by simp)
    (fun n member => (h.numbered n member).trans_le change.attempts) h.nodup
  · rw [deferred] at found
    obtain ⟨undecided, lt, iff⟩ := h.deferred deliveryID a found
    rw [trace, receipts]
    refine ⟨⟨undecided, lt.trans_le change.attempts, iff⟩,
      fun id' a' c => h.uncarried deliveryID a id' a' found c, fun d a' other found' same => ?_⟩
    exact other (h.once d deliveryID a' a found' found same)
  · rw [trace, deferred]
    exact h.pending c deliveryID a (pending c a found)

theorem Ordered.resolve (h : Ordered b landed (some id)) (alone : Alone b id deliveryID)
    {confirmed : Bool} (free : ∀ id' a', Carries b (some id) id' a' → a'.number ≠ a.number)
    (only : ∀ d a', b.deferred.lookup d = some a' → a'.number = a.number →
      d = deliveryID ∧ a' = a)
    (lt : a.number < b.attempts)
    (right : verdict a.number b.trace = none → (confirmed = true ↔ a.number ∈ landed)) :
    Ordered (b.resolve deliveryID a confirmed) landed (some id) := by
  have forgotten (d : String) : (b.resolve deliveryID a confirmed).deferred.lookup d =
      if d = deliveryID ∧ b.deferred.lookup deliveryID = some a then none
      else b.deferred.lookup d := by
    unfold ProcBoard.resolve
    dsimp only
    by_cases same : b.deferred.lookup deliveryID = some a
    · rw [if_pos same, Table.lookup_erase]
      simp [same]
    · rw [if_neg same]
      simp [same]
  have said (n : Nat) : verdict n (b.resolve deliveryID a confirmed).trace =
      (verdict n b.trace).or (if a.number = n then some confirmed else none) := rfl
  have kept (n : Nat) (decided : verdict n b.trace ≠ none) :
      verdict n (b.resolve deliveryID a confirmed).trace ≠ none := by
    rw [said]
    cases first : verdict n b.trace with
    | none => exact absurd first decided
    | some c => simp
  refine h.change alone ⟨rfl, le_rfl, fun _ _ => rfl, fun _ _ known => known, fun d other => ?_,
    fun _ _ _ => rfl, fun _ _ => rfl⟩ (fun n => n = a.number) (fun n other => ?_) kept free
    (fun d a' other found same => other (only d a' found same).1) (fun a' found => ?_)
    (fun c a' found => ?_) (fun n same confirmed' said' => ?_) h.numbered h.nodup
  · rw [forgotten]
    simp [other]
  · rw [said]
    simp [Ne.symm other]
  · rw [forgotten] at found
    split at found
    · cases found
    · rename_i standing
      obtain ⟨undecided, lt', iff⟩ := h.deferred deliveryID a' found
      have other : a.number ≠ a'.number := by
        intro same
        obtain ⟨_, rfl⟩ := only deliveryID a' found same.symm
        exact standing ⟨rfl, found⟩
      refine ⟨⟨?_, lt', iff⟩, fun id' a'' c => h.uncarried deliveryID a' id' a'' found c,
        fun d a'' differ found' same => differ (h.once d deliveryID a'' a' found' found same)⟩
      rw [said, undecided]
      simp [other]
  · rw [forgotten]
    obtain decided | standing := h.pending c deliveryID a' found
    · exact .inl (kept a'.number decided)
    · by_cases same : a' = a
      · left
        rw [said, same]
        cases verdict a.number b.trace <;> simp
      · right
        rw [if_neg, standing]
        rintro ⟨_, equal⟩
        rw [standing] at equal
        exact same (Option.some.inj equal)
  · subst same
    rw [said, if_pos rfl] at said'
    refine ⟨lt, ?_⟩
    cases first : verdict a.number b.trace with
    | none =>
      rw [first] at said'
      cases said'
      exact right first
    | some c =>
      rw [first] at said'
      cases said'
      exact (h.judged _ _ first).2

theorem Ordered.resolvePending (h : Ordered b landed (some id))
    (alone : Alone b id call.delivery.id) (committed : Bool)
    (reads : committed = (b.receipts.lookup call.delivery.id).isSome) :
    Ordered (b.resolvePending call committed) landed (some id) ∧
      (b.resolvePending call committed).deferred.lookup call.delivery.id = none ∧
      (b.resolvePending call committed).pending.lookup (call.coordinator, call.delivery.id) =
        none := by
  have deferred_right {b : ProcBoard} (h : Ordered b landed (some id)) {a : Attempt}
      (same : committed = (b.receipts.lookup call.delivery.id).isSome)
      (alone : Alone b id call.delivery.id)
      (found : b.deferred.lookup call.delivery.id = some a) :
      Ordered (b.resolve call.delivery.id a committed) landed (some id) := by
    obtain ⟨undecided, lt, iff⟩ := h.deferred _ a found
    refine h.resolve alone (fun id' a' c => h.uncarried _ a id' a' found c)
      (fun d a' found' equal => ?_) lt (fun _ => ?_)
    · obtain rfl := h.once d _ a' a found' found equal
      rw [found] at found'
      exact ⟨rfl, (Option.some.inj found').symm⟩
    · rw [same, iff]
  let key := (call.coordinator, call.delivery.id)
  let erased : ProcBoard := { b with pending := b.pending.erase key }
  have first : Ordered erased landed (some id) := by
    refine h.quiet alone ⟨rfl, le_rfl, fun _ _ => rfl, fun _ _ known => known, fun _ _ => rfl,
      fun c d other => ?_, fun _ _ => rfl⟩ rfl rfl rfl fun c a found => ?_
    · change (b.pending.erase key).lookup (c, d) = _
      rw [Table.lookup_erase, if_neg]
      intro same
      exact other (Prod.mk.inj same).2
    · change (b.pending.erase key).lookup (c, _) = _ at found
      rw [Table.lookup_erase] at found
      split at found
      · cases found
      · exact found
  let middle := erased.resolveSome call.delivery.id (b.pending.lookup key) committed
  have second : Ordered middle landed (some id) ∧ middle.calls = b.calls ∧
      middle.receipts = b.receipts ∧ middle.pending = b.pending.erase key := by
    change Ordered (erased.resolveSome call.delivery.id (b.pending.lookup key) committed) _ _ ∧
      (erased.resolveSome call.delivery.id (b.pending.lookup key) committed).calls = _ ∧
      (erased.resolveSome call.delivery.id (b.pending.lookup key) committed).receipts = _ ∧
      (erased.resolveSome call.delivery.id (b.pending.lookup key) committed).pending = _
    cases found : b.pending.lookup key with
    | none => exact ⟨first, rfl, rfl, rfl⟩
    | some a =>
      refine ⟨?_, rfl, rfl, rfl⟩
      obtain decided | standing := h.pending _ _ a found
      · -- The attempt was resolved for another Coordinator: nothing happens.
        have known : ∃ c, verdict a.number b.trace = some c := Option.ne_none_iff_exists'.mp decided
        obtain ⟨c, known⟩ := known
        refine first.resolve alone (fun id' a' carried same => ?_) (fun d a' found' same => ?_)
          (h.judged _ _ known).1 (fun none_ => absurd none_ decided)
        · obtain ⟨other, call', channel, stage, present, at_, own⟩ := carried
          have undecided := ((first.inside id' call' channel stage other present at_).attempt a'
            own).1
          rw [same] at undecided
          exact decided undecided
        · have undecided := (first.deferred d a' found').1
          rw [same] at undecided
          exact absurd undecided decided
      · exact deferred_right first reads alone standing
  obtain ⟨second, calls, receipts, pending⟩ := second
  have pending' : middle.pending.lookup key = none := by
    rw [pending, Table.lookup_erase, if_pos rfl]
  have alone' : Alone middle id call.delivery.id := by
    unfold Alone
    rw [calls]
    exact alone
  change Ordered (middle.resolveSome call.delivery.id (middle.deferred.lookup call.delivery.id)
      committed) _ _ ∧
    (middle.resolveSome call.delivery.id (middle.deferred.lookup call.delivery.id)
      committed).deferred.lookup _ = none ∧
    (middle.resolveSome call.delivery.id (middle.deferred.lookup call.delivery.id)
      committed).pending.lookup _ = none
  cases found : middle.deferred.lookup call.delivery.id with
  | none => exact ⟨second, found, pending'⟩
  | some a =>
    refine ⟨deferred_right second (by rw [receipts, reads]) alone' found, ?_, pending'⟩
    change (if middle.deferred.lookup call.delivery.id = some a then
      middle.deferred.erase call.delivery.id else middle.deferred).lookup _ = none
    rw [if_pos found, Table.lookup_erase, if_pos rfl]

theorem Ordered.rememberPending (h : Ordered b landed (some id))
    (alone : Alone b id call.delivery.id) (clear : b.deferred.lookup call.delivery.id = none ∧
      b.pending.lookup (call.coordinator, call.delivery.id) = none)
    (undecided : verdict a.number b.trace = none) (lt : a.number < b.attempts)
    (iff : a.number ∈ landed ↔ (b.receipts.lookup call.delivery.id).isSome = true)
    (free : ∀ id' a', Carries b (some id) id' a' → a'.number ≠ a.number)
    (elsewhere : ∀ d a', b.deferred.lookup d = some a' → a'.number ≠ a.number) :
    Ordered (b.rememberPending call a) landed (some id) := by
  have remembered : b.rememberPending call a = { b with
      deferred := b.deferred.insert call.delivery.id a
      pending := b.pending.insert (call.coordinator, call.delivery.id) a } := by
    simp [ProcBoard.rememberPending, clear, ProcBoard.resolveSome]
  rw [remembered]
  refine h.change alone ⟨rfl, le_rfl, fun _ _ => rfl, fun _ _ known => known, fun d other => ?_,
    fun c d other => ?_, fun _ _ => rfl⟩ (fun _ => False) (fun n _ => ⟨rfl, Iff.rfl⟩)
    (fun n decided => decided) (by simp) (by simp) (fun a' found => ?_) (fun c a' found => ?_)
    (by simp) h.numbered h.nodup
  · exact Table.lookup_insert.trans (if_neg other)
  · refine Table.lookup_insert.trans (if_neg fun same => other (Prod.mk.inj same).2)
  · change (b.deferred.insert call.delivery.id a).lookup call.delivery.id = some a' at found
    rw [Table.lookup_insert, if_pos rfl] at found
    cases found
    exact ⟨⟨undecided, lt, iff⟩, free, fun d a' _ found => elsewhere d a' found⟩
  · change (b.pending.insert (call.coordinator, call.delivery.id) a).lookup _ = some a' at found
    change _ ∨ (b.deferred.insert call.delivery.id a).lookup _ = some a'
    rw [Table.lookup_insert] at found ⊢
    split at found
    · exact .inr (by rw [if_pos rfl, found])
    · obtain decided | standing := h.pending c _ a' found
      · exact .inl decided
      · rw [clear.1] at standing
        cases standing

theorem Ordered.settle (h : Ordered b landed (some id)) (alone : Alone b id deliveryID)
    {row : ReceiptRow} (clear : b.deferred.lookup deliveryID = none)
    (lt : a.number < b.attempts) (fresh : a.number ∉ landed)
    (undecided : verdict a.number b.trace = none)
    (free : ∀ id' a', Carries b (some id) id' a' → a'.number ≠ a.number)
    (elsewhere : ∀ d a', b.deferred.lookup d = some a' → a'.number ≠ a.number) :
    Ordered (b.settle id deliveryID row true) (a.number :: landed) (some id) := by
  refine h.change alone ⟨rfl, le_rfl, fun _ _ => rfl, fun _ _ known => known, fun _ _ => rfl,
    fun _ _ _ => rfl, fun d other => ?_⟩ (fun n => n = a.number) (fun n other => ?_)
    (fun n decided => ?_) free (fun d a' _ found => elsewhere d a' found) (fun a' found => ?_)
    (fun c a' found => ?_) (fun n same confirmed said => ?_) (fun n member => ?_)
    (List.nodup_cons.mpr ⟨fresh, h.nodup⟩)
  · exact Table.lookup_insert.trans (if_neg other)
  · exact ⟨verdict_committed .., by simp [other]⟩
  · rw [show verdict n (b.settle id deliveryID row true).trace = verdict n b.trace from
      verdict_committed ..]
    exact decided
  · change b.deferred.lookup deliveryID = some a' at found
    rw [clear] at found
    cases found
  · rw [show verdict a'.number (b.settle id deliveryID row true).trace =
      verdict a'.number b.trace from verdict_committed ..]
    exact h.pending c deliveryID a' found
  · subst same
    rw [show verdict a.number (b.settle id deliveryID row true).trace =
      verdict a.number b.trace from verdict_committed .., undecided] at said
    cases said
  · obtain rfl | member := List.mem_cons.mp member
    · exact lt
    · exact h.numbered n member

theorem Ordered.release (h : Ordered b landed (some id)) (alone : Alone b id deliveryID) :
    Ordered (b.release id deliveryID) landed (some id) := by
  unfold ProcBoard.release
  split
  · rename_i slot present
    unfold ProcBoard.dropReference
    dsimp only
    have others {id' : Nat} (other : id' ≠ id) (member : id' ∈ slot.refs) :
        id' ∈ slot.refs.erase id := (List.mem_erase_of_ne other).mpr member
    refine h.quiet alone ⟨rfl, le_rfl, fun d other => ?_, fun id' other known => ?_,
      fun _ _ => rfl, fun _ _ _ => rfl, fun _ _ => rfl⟩ rfl rfl rfl fun _ _ found => found
    · dsimp only
      split
      · rw [Table.lookup_erase, if_neg other]
      · rw [Table.lookup_insert, if_neg other]
    · obtain ⟨slot', present', member⟩ := known
      rw [present] at present'
      cases present'
      dsimp only
      split
      · rename_i empty
        have none_ := others other member
        rw [List.isEmpty_iff.mp empty] at none_
        cases none_
      · exact ⟨_, by rw [Table.lookup_insert, if_pos rfl], others other member⟩
  · exact h

structure Fits (b : ProcBoard) (landed : List Nat) (id : Nat) (call : ProcCall)
    (point : ProcPoint) : Prop where
  inside : ∀ channel stage, point = .inside channel stage → Inside b landed id call stage
  queued : ∀ channel, point = .queued channel →
    ∃ slot, b.slots.lookup call.delivery.id = some slot ∧ id ∈ slot.refs
  free : ∀ channel stage a, point = .inside channel stage → stage.attempt = some a →
    (∀ id' a', Carries b (some id) id' a' → a'.number ≠ a.number) ∧
      ∀ d a', b.deferred.lookup d = some a' → a'.number ≠ a.number

theorem Ordered.put (h : Ordered b landed (some id)) {point : ProcPoint}
    (fits : Fits b landed id call point) : Ordered (b.put id call point) landed none := by
  have calls (id' : Nat) : (b.put id call point).calls.lookup id' =
      if id' = id then some { call with point := point } else b.calls.lookup id' :=
    Table.lookup_insert
  have carries {id' : Nat} {a' : Attempt} (c : Carries (b.put id call point) none id' a') :
      (id' = id ∧ ∃ channel stage, point = .inside channel stage ∧ stage.attempt = some a') ∨
        (id' ≠ id ∧ Carries b (some id) id' a') := by
    obtain ⟨_, call', channel, stage, found, at_, own⟩ := c
    rw [calls] at found
    split at found
    · rename_i same
      cases found
      exact .inl ⟨same, channel, stage, at_, own⟩
    · rename_i other
      exact .inr ⟨other, fun same => other (Option.some.inj same), call', channel, stage, found,
        at_, own⟩
  refine ⟨fun id' call' channel stage _ found at_ => ?_, fun id' call' channel _ found at_ => ?_,
    fun id' id'' a a' c c' same => ?_, h.deferred, fun d a id' a' found c => ?_, h.once, h.pending,
    h.judged, h.numbered, h.nodup⟩
  · rw [calls] at found
    split at found
    · rename_i same
      cases found
      rw [same]
      have inside := fits.inside channel stage at_
      exact ⟨inside.owns, inside.clear, inside.unwritten, inside.attempt⟩
    · rename_i other
      have inside := h.inside id' call' channel stage
        (fun same => other (Option.some.inj same)) found at_
      exact ⟨inside.owns, inside.clear, inside.unwritten, inside.attempt⟩
  · rw [calls] at found
    split at found
    · rename_i same
      cases found
      rw [same]
      exact fits.queued channel at_
    · rename_i other
      exact h.queued id' call' channel (fun same => other (Option.some.inj same)) found at_
  · obtain ⟨rfl, channel, stage, at_, own⟩ | ⟨_, c⟩ := carries c <;>
      obtain ⟨rfl, channel', stage', at', own'⟩ | ⟨_, c'⟩ := carries c'
    · rfl
    · exact absurd same.symm ((fits.free channel stage a at_ own).1 id'' a' c')
    · exact absurd same ((fits.free channel' stage' a' at' own').1 id' a c)
    · exact h.apart id' id'' a a' c c' same
  · obtain ⟨rfl, channel, stage, at_, own⟩ | ⟨_, c⟩ := carries c
    · exact fun same => (fits.free channel stage a' at_ own).2 d a found same.symm
    · exact h.uncarried d a id' a' found c

theorem Ordered.outside (h : Ordered b landed (some id)) {point : ProcPoint}
    (inside : ∀ channel stage, point ≠ .inside channel stage)
    (queued : ∀ channel, point ≠ .queued channel) :
    Ordered (b.put id call point) landed none :=
  h.put ⟨fun channel stage same => absurd same (inside channel stage),
    fun channel same => absurd same (queued channel),
    fun channel stage _ same => absurd same (inside channel stage)⟩

theorem Ordered.finish (h : Ordered b landed (some id)) (alone : Alone b id call.delivery.id)
    (channel : Nat) (outcome : Outcome) :
    Ordered (b.finish id call channel outcome) landed none :=
  (h.release alone).outside (by simp) (by simp)

end Primitives

end GuardWall.Processor
