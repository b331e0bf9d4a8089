import GuardWall.Processor.Coordinator

/-! What every interleaving of the processors keeps: a receipt is written once, and a completion
has its receipt in the store. -/
namespace GuardWall.Processor

open GuardWall.Core GuardWall.Foundation

def commitsOf (deliveryID : String) (trace : List ProcEvent) : List Nat :=
  trace.filterMap fun e =>
    match e with
    | .committed call id => if id = deliveryID then some call else none
    | .resolved .. => none

def ProcPoint.outcome : ProcPoint → Option Outcome
  | .leaving _ outcome => some outcome
  | .returned outcome => some outcome
  | _ => none

@[simp]
theorem outcome_inside (channel : Nat) (stage : Stage) :
    (ProcPoint.inside channel stage).outcome = none := rfl

structure Quiet (b b' : ProcBoard) : Prop where
  calls : b'.calls = b.calls
  receipts : b'.receipts = b.receipts
  writer : b'.writer = b.writer
  commits : ∀ deliveryID, commitsOf deliveryID b'.trace = commitsOf deliveryID b.trace

structure Aside (b b' : ProcBoard) (deliveryID : String) : Prop where
  calls : b'.calls = b.calls
  receipts : b'.receipts = b.receipts
  writer : b'.writer = b.writer
  attempts : b'.attempts = b.attempts
  trace : ∃ events, b'.trace = events ++ b.trace ∧ ∀ d, commitsOf d events = []
  deferred : ∀ d, d ≠ deliveryID → b'.deferred.lookup d = b.deferred.lookup d

namespace Aside

variable {b b' b'' : ProcBoard} {deliveryID : String} {call : ProcCall}

theorem of_eq (calls : b'.calls = b.calls) (receipts : b'.receipts = b.receipts)
    (writer : b'.writer = b.writer) (attempts : b'.attempts = b.attempts)
    (trace : b'.trace = b.trace) (deferred : b'.deferred = b.deferred) : Aside b b' deliveryID :=
  ⟨calls, receipts, writer, attempts, ⟨[], trace, fun _ => rfl⟩, fun _ _ => by rw [deferred]⟩

theorem refl (b : ProcBoard) (deliveryID : String) : Aside b b deliveryID :=
  .of_eq rfl rfl rfl rfl rfl rfl

theorem trans (first : Aside b b' deliveryID) (second : Aside b' b'' deliveryID) :
    Aside b b'' deliveryID := by
  obtain ⟨events, trace, quiet⟩ := first.trace
  obtain ⟨events', trace', quiet'⟩ := second.trace
  refine ⟨second.calls.trans first.calls, second.receipts.trans first.receipts,
    second.writer.trans first.writer, second.attempts.trans first.attempts,
    ⟨events' ++ events, by rw [trace', trace, List.append_assoc], fun d => ?_⟩,
    fun d other => (second.deferred d other).trans (first.deferred d other)⟩
  exact List.filterMap_append.trans (by rw [← commitsOf, ← commitsOf, quiet, quiet']; rfl)

theorem quiet (h : Aside b b' deliveryID) : Quiet b b' := by
  obtain ⟨events, trace, quiet⟩ := h.trace
  refine ⟨h.calls, h.receipts, h.writer, fun d => ?_⟩
  rw [trace]
  exact List.filterMap_append.trans (by rw [← commitsOf, quiet]; rfl)

theorem resolve (h : Aside b b' deliveryID) (a : Attempt) (confirmed : Bool) :
    Aside b (b'.resolve deliveryID a confirmed) deliveryID := by
  refine h.trans ⟨rfl, rfl, rfl, rfl, ⟨[_], rfl, fun _ => rfl⟩, fun d other => ?_⟩
  unfold ProcBoard.resolve
  dsimp only
  split
  · rw [Table.lookup_erase, if_neg other]
  · rfl

theorem resolveSome (h : Aside b b' deliveryID) (attempt : Option Attempt) (confirmed : Bool) :
    Aside b (b'.resolveSome deliveryID attempt confirmed) deliveryID := by
  cases attempt with
  | none => exact h
  | some a => exact h.resolve a confirmed

theorem resolvePending (b : ProcBoard) (call : ProcCall) (committed : Bool) :
    Aside b (b.resolvePending call committed) call.delivery.id := by
  have forgets : Aside b
      { b with pending := b.pending.erase (call.coordinator, call.delivery.id) }
        call.delivery.id := .of_eq rfl rfl rfl rfl rfl rfl
  exact (forgets.resolveSome _ _).resolveSome _ _

theorem rememberPending (b : ProcBoard) (call : ProcCall) (a : Attempt) :
    Aside b (b.rememberPending call a) call.delivery.id := by
  unfold ProcBoard.rememberPending
  dsimp only
  refine resolveSome ?_ _ _
  refine ⟨rfl, rfl, rfl, rfl, ⟨[], rfl, fun _ => rfl⟩, fun d other => ?_⟩
  dsimp only
  split
  · rw [Table.lookup_insert, if_neg other]
  · rfl

theorem release (h : Aside b b' deliveryID) (id : Nat) :
    Aside b (b'.release id deliveryID) deliveryID := by
  unfold ProcBoard.release
  split
  · exact h.trans (.of_eq rfl rfl rfl rfl rfl rfl)
  · exact h

end Aside

structure Moved (b b' : ProcBoard) (id : Nat) (call : ProcCall) (point : ProcPoint) : Prop where
  calls : b'.calls = b.calls.insert id { call with point := point }
  receipts : b'.receipts = b.receipts
  writer : b'.writer = b.writer
  commits : ∀ deliveryID, commitsOf deliveryID b'.trace = commitsOf deliveryID b.trace

theorem Moved.of_quiet {b b' : ProcBoard} (quiet : Quiet b b') (id : Nat) (call : ProcCall)
    (point : ProcPoint) : Moved b (b'.put id call point) id call point :=
  ⟨by rw [← quiet.calls]; rfl, quiet.receipts, quiet.writer, quiet.commits⟩

def Receipted (hash : DeliveryHash) (b : ProcBoard) (d : Delivery) : Prop :=
  ∃ row, b.receipts.lookup d.id = some row ∧ Proves hash row d.id d.sourceID d.position

def Completed (hash : DeliveryHash) (b : ProcBoard) (d : Delivery) (point : ProcPoint) : Prop :=
  ∀ outcome completion, point.outcome = some outcome → outcome.completion = some completion →
    completion = ⟨d.sourceID, d.id, d.sequence, d.position⟩ ∧ Receipted hash b d

def Staging (hash : DeliveryHash) (b : ProcBoard) (id : Nat) (d : Delivery) (point : ProcPoint) :
    Prop :=
  ∀ channel attempt receipt row, point = .inside channel (.staged attempt receipt row) →
    Proves hash row d.id d.sourceID d.position ∧
      (b.writer = some id → b.receipts.lookup d.id = none)

/-- A call goes to a next point that is not the staging of a receipt; `known` is what the
completion it may return with rests on. -/
def Passes (hash : DeliveryHash) (b b' : ProcBoard) (id : Nat) (call : ProcCall) (known : Prop) :
    Prop :=
  ∃ base point, Aside b base call.delivery.id ∧ b' = base.put id call point ∧
    (∀ channel a receipt row, point ≠ .inside channel (.staged a receipt row)) ∧
    (known → Completed hash b call.delivery point)

namespace Passes

variable {hash : DeliveryHash} {b b' base : ProcBoard} {id : Nat} {call : ProcCall} {channel : Nat}
  {known : Prop} {attempt : Attempt} {found : ProcessingReceipt} {completion : DurableCompletion}

theorem silent (aside : Aside b base call.delivery.id) {point : ProcPoint}
    (unstaged : ∀ channel a receipt row, point ≠ .inside channel (.staged a receipt row))
    (none_ : ∀ outcome, point.outcome = some outcome → outcome.completion = none) :
    Passes hash b (base.put id call point) id call known := by
  refine ⟨base, point, aside, rfl, unstaged, fun _ outcome completion at_ some_ => ?_⟩
  rw [none_ outcome at_] at some_
  cases some_

theorem inside (aside : Aside b base call.delivery.id) {next : Stage}
    (unstaged : ∀ a receipt row, next ≠ .staged a receipt row) :
    Passes hash b (base.put id call (.inside channel next)) id call known := by
  refine silent aside ?_ (by simp)
  rintro _ a receipt row ⟨⟩
  exact unstaged a receipt row rfl

theorem fail (aside : Aside b base call.delivery.id) (err : ProcessError) :
    Passes hash b (base.fail id call channel err) id call known := by
  refine silent (aside.release id) (by simp) ?_
  rintro outcome ⟨⟩
  rfl

theorem complete (aside : Aside b base call.delivery.id) {notifyFailed : Bool}
    (matching : completionFromReceipt hash call.delivery found = .ok completion)
    (stored : known → Receipted hash b call.delivery) :
    Passes hash b (base.complete id call channel completion notifyFailed) id call known := by
  obtain ⟨_, _, rfl⟩ := completionFromReceipt_ok matching
  refine ⟨_, _, aside.release id, rfl, by simp, ?_⟩
  rintro holds outcome completion' ⟨⟩ ⟨⟩
  exact ⟨rfl, stored holds⟩

theorem abortWith (err : ProcessError) :
    Passes hash b (b.abortWith id call channel attempt err) id call known :=
  fail ((Aside.refl _ _).resolve _ _) err

theorem receipted_of_find (read : b.findReceipt hash call.delivery.id = .ok (some found))
    (matching : completionFromReceipt hash call.delivery found = .ok completion) :
    Receipted hash b call.delivery := by
  unfold ProcBoard.findReceipt at read
  split at read
  · cases read
  · rename_i row stored
    cases decoded : decodeReceipt hash call.delivery.id row with
    | error fault =>
      rw [decoded] at read
      cases read
    | ok receipt =>
      rw [decoded] at read
      cases read
      obtain ⟨source, position, _⟩ := completionFromReceipt_ok matching
      obtain ⟨valid, named⟩ := decodeReceipt_ok decoded
      exact ⟨row, stored, _, decoded, valid, named, source, position⟩

theorem check (failed notifyFailed : Bool) :
    Passes hash b (b.check hash id call channel failed notifyFailed) id call known := by
  unfold ProcBoard.check
  split
  · exact fail (.refl _ _) _
  · split
    · exact fail (.refl _ _) _
    · exact inside (.resolvePending b call false) (by simp)
    · rename_i found read
      split
      · exact fail (.refl _ _) _
      · rename_i completion matching
        exact complete (.resolvePending b call true) matching
          fun _ => receipted_of_find read matching

theorem port (failed : Bool) (err : ProcessError) {next : Stage}
    (unstaged : ∀ a receipt row, next ≠ .staged a receipt row) :
    Passes hash b (b.port id call channel attempt failed err next) id call known := by
  unfold ProcBoard.port
  split
  · exact abortWith err
  · exact inside (.refl _ _) unstaged

theorem conclude {receipt : ProcessingReceipt} {report : CommitReport} {notifyFailed : Bool}
    (stored : known → report.state = .confirmed → Receipted hash b call.delivery) :
    Passes hash b (b.conclude hash id call channel attempt receipt report notifyFailed) id call
      known := by
  have resolved := (Aside.refl b call.delivery.id).resolve attempt true
  unfold ProcBoard.conclude
  split
  · rename_i confirmed
    dsimp only
    split
    · exact fail resolved _
    · split
      · exact fail resolved _
      · rename_i completion matching
        exact complete resolved matching fun holds => stored holds confirmed
  · exact abortWith _
  · exact inside (.refl _ _) (by simp)
  · exact abortWith _

theorem readback (failed notifyFailed : Bool) :
    Passes hash b (b.readback hash id call channel attempt failed notifyFailed) id call known := by
  have remembered := Aside.rememberPending b call attempt
  unfold ProcBoard.readback
  split
  · exact fail remembered _
  · split
    · exact fail remembered _
    · exact abortWith _
    · rename_i found read
      split
      · exact fail remembered _
      · rename_i completion matching
        exact complete ((Aside.refl _ _).resolve _ _) matching
          fun _ => receipted_of_find read matching

end Passes

section Acts

variable {hash : DeliveryHash} {b b' : ProcBoard} {id : Nat} {call : ProcCall} {m : ProcMove}

theorem act_cases (acted : b.act hash id call m call.point = some b') :
    Passes hash b b' id call (Completed hash b call.delivery call.point) ∨
    (∃ channel terminal, m = .prepare m.id (some terminal) ∧
      b' = b.prepare id call channel (some terminal)) ∨
    (∃ channel a now row, call.point = .inside channel (.finalized a) ∧
      receiptRow hash (ProcBoard.receiptOf call a now) = .ok row ∧ row.checks = true ∧
      b.receipts.lookup call.delivery.id = none ∧ b' = { b with writer := some id }.put id call
        (.inside channel (.staged a (ProcBoard.receiptOf call a now) row))) ∨
    b' = b.discard id ∨
    ∃ channel a receipt row report durable notifyFailed,
      call.point = .inside channel (.staged a receipt row) ∧ report.admits durable = true ∧
      (durable = true → b.writer = some id) ∧
      b' = (b.settle id call.delivery.id row durable).conclude hash id call channel a receipt
        report notifyFailed := by
  have same := Aside.refl b call.delivery.id
  unfold ProcBoard.act at acted
  split at acted
  · cases acted
    left
    unfold ProcBoard.acquireFlight
    split
    · exact .silent same (by simp) (by simp [ProcPoint.outcome])
    · refine .silent ?_ (by simp) (by simp [ProcPoint.outcome])
      exact .of_eq rfl rfl rfl rfl rfl rfl
  · split at acted
    · cases acted
      exact .inl (.silent same (by simp) (by simp [ProcPoint.outcome]))
    · cases acted
  · cases acted
    exact .inl (.silent same (by simp) (by simp [ProcPoint.outcome]))
  · split at acted
    · cases acted
      refine .inl (.silent ?_ (by simp) ?_)
      · exact .of_eq rfl rfl rfl rfl rfl rfl
      · rintro outcome ⟨⟩
        rfl
    · cases acted
  · cases acted
    refine .inl (.silent ?_ (by simp) (by simp [ProcPoint.outcome]))
    exact .of_eq rfl rfl rfl rfl rfl rfl
  · split at acted
    · split at acted
      · cases acted
        refine .inl (.inside ?_ (by simp))
        exact .of_eq rfl rfl rfl rfl rfl rfl
      · cases acted
    · cases acted
  · cases acted
    exact .inl (.check _ _)
  · rename_i terminal _ _
    cases acted
    cases terminal with
    | none => exact .inl (.fail same _)
    | some terminal => exact .inr (.inl ⟨_, terminal, rfl, rfl⟩)
  iterate 3
    · cases acted
      exact .inl (.port _ _ (by simp))
  · rename_i at_
    unfold ProcBoard.putReceipt at acted
    dsimp only at acted
    split at acted
    · cases acted
      exact .inl (.abortWith _)
    · rename_i row encoded
      split at acted
      · cases acted
        exact .inl (.abortWith _)
      · rename_i accepted
        split at acted
        · cases acted
          simp only [Bool.or_eq_true, Bool.not_eq_true', not_or, Bool.not_eq_true,
            Bool.not_eq_false, Option.isSome_eq_false_iff, Option.isNone_iff_eq_none] at accepted
          obtain ⟨⟨_, checked⟩, absent⟩ := accepted
          exact .inr (.inr (.inl ⟨_, _, _, row, at_, encoded, checked, absent, rfl⟩))
        · cases acted
  · cases acted
    exact .inr (.inr (.inr (.inl rfl)))
  · rename_i at_
    split at acted
    · rename_i admitted
      cases acted
      simp only [Bool.and_eq_true, Bool.or_eq_true, Bool.not_eq_true', beq_iff_eq] at admitted
      refine .inr (.inr (.inr (.inr ⟨_, _, _, _, _, _, _, at_, admitted.1, fun lands => ?_, rfl⟩)))
      exact admitted.2.resolve_left (by simp [lands])
    · cases acted
  · cases acted
    exact .inl (.readback _ _)
  · rename_i at_
    cases acted
    left
    rw [at_]
    refine ⟨_, _, ?_, rfl, by simp, fun completed => completed⟩
    exact .of_eq rfl rfl rfl rfl rfl rfl
  · cases acted

end Acts

structure Durable (hash : DeliveryHash) (b : ProcBoard) : Prop where
  completed : ∀ id call, b.calls.lookup id = some call → Completed hash b call.delivery call.point
  staging : ∀ id call, b.calls.lookup id = some call → Staging hash b id call.delivery call.point
  once : ∀ deliveryID, (commitsOf deliveryID b.trace).length ≤ 1
  written : ∀ deliveryID, b.receipts.lookup deliveryID = none → commitsOf deliveryID b.trace = []

namespace Durable

variable {hash : DeliveryHash} {b b' : ProcBoard} {id : Nat} {call : ProcCall} {channel : Nat}
  {point : ProcPoint} {attempt : Attempt} {receipt : ProcessingReceipt} {row : ReceiptRow}

theorem moved (h : Durable hash b) (moved : Moved b b' id call point)
    (completed : Completed hash b call.delivery point)
    (staging : Staging hash b id call.delivery point) : Durable hash b' := by
  refine ⟨?_, ?_, ?_, ?_⟩
  · intro other found at_
    unfold Completed Receipted
    rw [moved.calls, Table.lookup_insert] at at_
    rw [moved.receipts]
    split at at_
    · cases at_
      exact completed
    · exact h.completed other found at_
  · intro other found at_
    unfold Staging
    rw [moved.calls, Table.lookup_insert] at at_
    rw [moved.receipts, moved.writer]
    split at at_
    · rename_i same
      cases at_
      rw [same]
      exact staging
    · exact h.staging other found at_
  · intro deliveryID
    rw [moved.commits]
    exact h.once deliveryID
  · intro deliveryID absent
    rw [moved.receipts] at absent
    rw [moved.commits]
    exact h.written deliveryID absent

theorem passes (h : Durable hash b) {known : Prop} (passed : Passes hash b b' id call known)
    (holds : known) : Durable hash b' := by
  obtain ⟨base, point, aside, rfl, unstaged, completed⟩ := passed
  refine h.moved (.of_quiet aside.quiet id call point) (completed holds) ?_
  exact fun channel a receipt row same => absurd same (unstaged channel a receipt row)

variable {durable : Bool} {m : ProcMove}

theorem discard (h : Durable hash b) (id : Nat) : Durable hash (b.discard id) := by
  refine ⟨h.completed, ?_, h.once, h.written⟩
  intro other found at_ channel attempt receipt row same
  obtain ⟨proves, fresh⟩ := h.staging other found at_ channel attempt receipt row same
  refine ⟨proves, fun holds => fresh ?_⟩
  unfold ProcBoard.discard at holds
  dsimp only at holds
  split at holds
  · cases holds
  · exact holds

theorem settle (h : Durable hash b) (found : b.calls.lookup id = some call)
    (at_ : call.point = .inside channel (.staged attempt receipt row))
    (alive : durable = true → b.writer = some id) :
    Durable hash (b.settle id call.delivery.id row durable) := by
  unfold ProcBoard.settle
  split
  · rename_i lands
    have fresh := (h.staging id call found channel attempt receipt row at_).2 (alive lands)
    refine ⟨?_, ?_, ?_, ?_⟩
    · intro other found' lookup outcome completion point done
      obtain ⟨same, kept, stored, proves⟩ := h.completed other found' lookup outcome completion
        point done
      refine ⟨same, kept, ?_, proves⟩
      rw [Table.lookup_insert, if_neg ?_]
      · exact stored
      · intro same
        rw [same, fresh] at stored
        cases stored
    · intro other found' lookup channel' attempt' receipt' row' same
      refine ⟨(h.staging other found' lookup channel' attempt' receipt' row' same).1, ?_⟩
      intro holds
      cases holds
    · intro deliveryID
      unfold commitsOf
      rw [List.filterMap_cons]
      dsimp only
      by_cases same : call.delivery.id = deliveryID
      · rw [if_pos same]
        have none_ := h.written _ fresh
        rw [same] at none_
        unfold commitsOf at none_
        simp [none_]
      · rw [if_neg same]
        exact h.once deliveryID
    · intro deliveryID absent
      rw [Table.lookup_insert] at absent
      split at absent
      · cases absent
      · rename_i differ
        unfold commitsOf
        rw [List.filterMap_cons]
        dsimp only
        rw [if_neg fun same => differ same.symm]
        exact h.written deliveryID absent
  · exact h.discard id

theorem commit (h : Durable hash b) (found : b.calls.lookup id = some call)
    (at_ : call.point = .inside channel (.staged attempt receipt row)) {report : CommitReport}
    (admitted : report.admits durable = true) (alive : durable = true → b.writer = some id)
    (notifyFailed : Bool) :
    Durable hash ((b.settle id call.delivery.id row durable).conclude hash id call channel attempt
      receipt report notifyFailed) := by
  refine (h.settle found at_ alive).passes (Passes.conclude fun (_ : True) confirmed => ?_)
    trivial
  have lands : durable = true := by
    unfold CommitReport.admits at admitted
    rwa [confirmed] at admitted
  refine ⟨row, ?_, (h.staging id call found channel attempt receipt row at_).1⟩
  unfold ProcBoard.settle
  rw [if_pos lands]
  exact AList.lookup_insert _

theorem stage (h : Durable hash b) (found : b.calls.lookup id = some call)
    (at_ : call.point = .inside channel (.finalized attempt)) {now : Instant}
    (encoded : receiptRow hash (ProcBoard.receiptOf call attempt now) = .ok row)
    (checked : row.checks = true) (absent : b.receipts.lookup call.delivery.id = none) :
    Durable hash ({ b with writer := some id }.put id call
      (.inside channel (.staged attempt (ProcBoard.receiptOf call attempt now) row))) := by
  have locked : Durable hash { b with writer := some id } := by
    refine ⟨h.completed, ?_, h.once, h.written⟩
    intro other call' found' channel attempt receipt row same
    refine ⟨(h.staging other call' found' channel attempt receipt row same).1, fun holds => ?_⟩
    cases holds
    rw [found] at found'
    cases found'
    rw [at_] at same
    cases same
  have moved : Moved { b with writer := some id } _ id call (.inside channel (.staged attempt
    (ProcBoard.receiptOf call attempt now) row)) := .of_quiet (Aside.refl _ "").quiet id call _
  refine locked.moved moved (by simp [Completed]) ?_
  intro channel' attempt' receipt' row' same
  obtain ⟨_, _, rfl⟩ := Stage.staged.inj (ProcPoint.inside.inj same).2
  have proves := proves_receiptRow encoded checked
  exact ⟨proves, fun _ => absent⟩

theorem act (h : Durable hash b) (found : b.calls.lookup id = some call)
    (acted : b.act hash id call m call.point = some b') : Durable hash b' := by
  obtain passed | ⟨channel, terminal, _, rfl⟩ | ⟨channel, a, now, row, at_, encoded, checked, absent,
    rfl⟩ | rfl | ⟨channel, a, receipt, row, report, durable, _, at_, admitted, alive, rfl⟩ :=
    act_cases acted
  · exact h.passes passed (h.completed id call found)
  · have moved : Moved b (b.prepare id call channel (some terminal)) id call
        (.inside channel (.prepared ⟨b.attempts, terminal.1, terminal.2⟩)) :=
      ⟨rfl, rfl, rfl, fun _ => rfl⟩
    exact h.moved moved (by simp [Completed]) (by simp [Staging])
  · exact h.stage found at_ encoded checked absent
  · exact h.discard id
  · exact h.commit found at_ admitted alive _

theorem start (h : Durable hash b) (id coordinator : Nat) (delivery : Delivery) :
    Durable hash (b.start hash id coordinator delivery) := by
  have moved : Moved b (b.start hash id coordinator delivery) id ⟨coordinator, delivery, .arrived⟩
      (if (delivery.validate hash).isOk then .arrived
        else .returned { err := some .validateDelivery }) := ⟨rfl, rfl, rfl, fun _ => rfl⟩
  refine h.moved moved ?_ ?_
  · split
    · simp [Completed, ProcPoint.outcome]
    · rintro _ _ ⟨⟩ ⟨⟩
  · split <;> simp [Staging]

theorem step (h : Durable hash b) (stepped : b.step hash m = some b') :
    Durable hash b' := by
  unfold ProcBoard.step at stepped
  split at stepped
  · cases stepped
    exact h.start _ _ _
  · rename_i call found
    exact h.act found stepped
  · cases stepped

theorem initial (stored : Table String ReceiptRow) : Durable hash { receipts := stored } := by
  refine ⟨?_, ?_, fun _ => Nat.zero_le 1, fun _ _ => rfl⟩
  · intro id call found
    rw [AList.lookup_empty] at found
    cases found
  · intro id call found
    rw [AList.lookup_empty] at found
    cases found

theorem run {stored : Table String ReceiptRow} {moves : List ProcMove}
    (ran : runSteps (ProcBoard.step hash) { receipts := stored } moves = some b) :
    Durable hash b :=
  runSteps_preserves (Durable hash) (fun _ _ _ before stepped => before.step stepped)
    (initial stored) ran

end Durable

/-- In every interleaving over any store: a call that comes back with a completion has a valid
receipt of its delivery, source and position in the store, and at most one transaction that wrote
the receipt of a delivery was ever committed. -/
theorem completion_has_receipt {hash : DeliveryHash} {stored : Table String ReceiptRow}
    {moves : List ProcMove} {b : ProcBoard}
    (ran : runSteps (ProcBoard.step hash) { receipts := stored } moves = some b) :
    (∀ id call outcome completion, b.calls.lookup id = some call →
      call.point.outcome = some outcome → outcome.completion = some completion →
      completion = ⟨call.delivery.sourceID, call.delivery.id, call.delivery.sequence,
        call.delivery.position⟩ ∧
      ∃ row, b.receipts.lookup call.delivery.id = some row ∧
        Proves hash row call.delivery.id call.delivery.sourceID call.delivery.position) ∧
    ∀ deliveryID, (commitsOf deliveryID b.trace).length ≤ 1 := by
  have durable := Durable.run ran
  refine ⟨?_, durable.once⟩
  intro id call outcome completion found point done
  exact durable.completed id call found outcome completion point done

namespace Sample

def deliveryID : String := "dlv1_0000000000000000000000000000000000000000000000000000"

def hash : DeliveryHash := ⟨fun _ _ _ _ => deliveryID, fun _ _ => deliveryID⟩

def delivery : Delivery := ⟨deliveryID, 1, "ssh", .ofMicro 1, .journald "s=1"⟩

def replayed : List ProcMove :=
  [.call 0 0 delivery, .call 1 1 delivery, .flight 0, .flight 1, .register 0, .register 1, .enter 0,
    .check 0 false false, .prepare 0 (some (.success, none)), .begin 0 false, .write 0 false,
    .finalize 0 false, .putReceipt 0 (.ofMicro 2) false, .commit 0 ⟨.unknown, true⟩ true false,
    .readback 0 false false, .enter 1, .leave 0, .check 1 false true, .leave 1]

def completion : DurableCompletion := ⟨"ssh", deliveryID, 1, .journald "s=1"⟩

theorem replayed_points :
    ((runSteps (ProcBoard.step hash) {} replayed).bind fun b =>
      (b.calls.lookup 0).bind fun first => (b.calls.lookup 1).map fun second =>
        (first.point, second.point)) =
    some (.returned ⟨some completion, none⟩, .returned ⟨some completion, some .notify⟩) := by
  decide +kernel

end Sample

open Sample in
theorem completion_has_receipt_replayed :
    ∃ b call, runSteps (ProcBoard.step hash) {} replayed = some b ∧
      b.calls.lookup 1 = some call ∧ call.point = .returned ⟨some completion, some .notify⟩ ∧
      (∃ row, b.receipts.lookup call.delivery.id = some row ∧
        Proves hash row call.delivery.id call.delivery.sourceID call.delivery.position) ∧
      (commitsOf deliveryID b.trace).length ≤ 1 := by
  obtain ⟨b, ran, points⟩ := Option.bind_eq_some_iff.mp replayed_points
  obtain ⟨first, _, points⟩ := Option.bind_eq_some_iff.mp points
  obtain ⟨second, found, points⟩ := Option.map_eq_some_iff.mp points
  have returned := (Prod.mk.inj points).2
  obtain ⟨completed, once⟩ := completion_has_receipt ran
  refine ⟨b, second, ran, found, returned, ?_, once deliveryID⟩
  exact (completed 1 second _ completion found (by rw [returned]; rfl) rfl).2

end GuardWall.Processor
