import GuardWall.Foundation.Steps
import GuardWall.Foundation.Table
import GuardWall.Processor.Receipt

/-! `Coordinator.Process` for any number of deliveries, on any number of Coordinators that share
one store and one detection Ledger. One move is the work of one call between two points at which
another call can run. Whether a port fails, when a context ends and what a commit does to the
database is the environment's choice. -/
namespace GuardWall.Processor

open GuardWall.Core GuardWall.Foundation

/-- `commitState`; `other` is a value without a name. -/
inductive CommitState where
  | confirmed
  | rejected
  | unknown
  | other
  deriving DecidableEq, Repr

structure CommitReport where
  state : CommitState
  failed : Bool
  deriving DecidableEq, Repr

/-- What the states mean: the writes of a confirmed transaction are durable, those of a rejected
one are not. -/
def CommitReport.admits (report : CommitReport) (durable : Bool) : Bool :=
  match report.state with
  | .confirmed => durable
  | .rejected => !durable
  | .unknown | .other => true

/-- `sql.Tx.Commit`: an error says nothing about durability. -/
inductive TxCommit where
  | succeeds
  | fails (durable : Bool)
  deriving DecidableEq, Repr

/-- `sqliteUnitOfWork.commit` over `UnitOfWork.Commit`: the report, and whether the writes are
durable. `failed` is an error an earlier write left in the unit of work. -/
def sqliteCommit (canceled failed : Bool) (tx : TxCommit) : CommitReport × Bool :=
  if canceled then (⟨.rejected, true⟩, false)
  else if failed then (⟨.unknown, true⟩, false)
  else
    match tx with
    | .succeeds => (⟨.confirmed, false⟩, true)
    | .fails durable => (⟨.unknown, true⟩, durable)

theorem sqliteCommit_admits (canceled failed : Bool) (tx : TxCommit) :
    (sqliteCommit canceled failed tx).1.admits (sqliteCommit canceled failed tx).2 = true := by
  unfold sqliteCommit
  split
  · rfl
  · split
    · rfl
    · cases tx <;> rfl

inductive ProcessError where
  | validateDelivery
  | contextDone
  | acquireShared
  | findReceipt
  | receipt
  | prepare
  | beginProcessing
  | write
  | finalize
  | writeReceipt
  | confirmedWithError
  | commitRejected
  | commitUnknown
  | unsupportedState
  | notify
  deriving DecidableEq, Repr

structure Outcome where
  completion : Option DurableCompletion := none
  err : Option ProcessError
  deriving DecidableEq, Repr

structure Attempt where
  number : Nat
  kind : ReceiptKind
  failure : Option PermanentFailure
  deriving DecidableEq, Repr

inductive Stage where
  | entered
  | absent
  | prepared (attempt : Attempt)
  | begun (attempt : Attempt)
  | written (attempt : Attempt)
  | finalized (attempt : Attempt)
  | staged (attempt : Attempt) (receipt : ProcessingReceipt) (row : ReceiptRow)
  | ambiguous (attempt : Attempt)
  deriving DecidableEq, Repr

inductive ProcPoint where
  | arrived
  | following (channel : Nat)
  | leading (channel : Nat)
  | queued (channel : Nat)
  | inside (channel : Nat) (stage : Stage)
  | leaving (channel : Nat) (outcome : Outcome)
  | returned (outcome : Outcome)
  deriving DecidableEq, Repr

structure ProcCall where
  coordinator : Nat
  delivery : Delivery
  point : ProcPoint
  deriving DecidableEq, Repr

/-- `deliverySlot`: the call that took the guard, and the calls `refs` counts. -/
structure Slot where
  holder : Option Nat := none
  refs : List Nat := []
  deriving DecidableEq, Repr

inductive ProcEvent where
  | committed (call : Nat) (deliveryID : String)
  | resolved (attempt : Nat) (confirmed : Bool)
  deriving DecidableEq, Repr

structure ProcBoard where
  receipts : Table String ReceiptRow := ∅
  /-- The open transaction that has written: SQLite lets one at a time. -/
  writer : Option Nat := none
  flights : Table (Nat × String) Nat := ∅
  channels : Nat := 0
  closed : List Nat := []
  slots : Table String Slot := ∅
  pending : Table (Nat × String) Attempt := ∅
  deferred : Table String Attempt := ∅
  attempts : Nat := 0
  calls : Table Nat ProcCall := ∅
  trace : List ProcEvent := []

inductive ProcMove where
  | call (id coordinator : Nat) (delivery : Delivery)
  | flight (id : Nat)
  | wake (id : Nat)
  | cancel (id : Nat)
  | register (id : Nat)
  | enter (id : Nat)
  | check (id : Nat) (failed notifyFailed : Bool)
  | prepare (id : Nat) (terminal : Option (ReceiptKind × Option PermanentFailure))
  | begin (id : Nat) (failed : Bool)
  | write (id : Nat) (failed : Bool)
  | finalize (id : Nat) (failed : Bool)
  /-- `refused`: a foreign key, a trigger, a busy database or a context that is done. -/
  | putReceipt (id : Nat) (now : Instant) (refused : Bool)
  /-- `database/sql` rolls back the transaction of a context that is done. -/
  | expire (id : Nat)
  | commit (id : Nat) (report : CommitReport) (durable notifyFailed : Bool)
  | readback (id : Nat) (failed notifyFailed : Bool)
  | leave (id : Nat)

namespace ProcBoard

variable (hash : DeliveryHash)

def put (b : ProcBoard) (id : Nat) (call : ProcCall) (point : ProcPoint) : ProcBoard :=
  { b with calls := b.calls.insert id { call with point := point } }

/-- `Reservation.Confirm` or `Abort`: the Ledger forgets the reservation. -/
def resolve (b : ProcBoard) (deliveryID : String) (attempt : Attempt) (confirmed : Bool) :
    ProcBoard :=
  { b with
    deferred :=
      if b.deferred.lookup deliveryID = some attempt then b.deferred.erase deliveryID
      else b.deferred
    trace := .resolved attempt.number confirmed :: b.trace }

def resolveSome (b : ProcBoard) (deliveryID : String) (attempt : Option Attempt)
    (confirmed : Bool) : ProcBoard :=
  match attempt with
  | some attempt => b.resolve deliveryID attempt confirmed
  | none => b

/-- `Coordinator.resolvePending`, with the `ResolveDeferred` of the Ledger at its end. -/
def resolvePending (b : ProcBoard) (call : ProcCall) (committed : Bool) : ProcBoard :=
  let key := (call.coordinator, call.delivery.id)
  let b := { b with pending := b.pending.erase key }.resolveSome call.delivery.id
    (b.pending.lookup key) committed
  b.resolveSome call.delivery.id (b.deferred.lookup call.delivery.id) committed

/-- `Coordinator.rememberPending`, with the `DeferResolution` of the attempt. -/
def rememberPending (b : ProcBoard) (call : ProcCall) (attempt : Attempt) : ProcBoard :=
  let key := (call.coordinator, call.delivery.id)
  { b with
    deferred :=
      if (b.deferred.lookup call.delivery.id).isNone then
        b.deferred.insert call.delivery.id attempt
      else b.deferred
    pending := b.pending.insert key attempt }.resolveSome call.delivery.id
      (b.pending.lookup key) false

def dropReference (b : ProcBoard) (id : Nat) (deliveryID : String) (slot : Slot) : ProcBoard :=
  let refs := slot.refs.erase id
  { b with
    slots := if refs.isEmpty then b.slots.erase deliveryID
      else b.slots.insert deliveryID { slot with refs := refs } }

def release (b : ProcBoard) (id : Nat) (deliveryID : String) : ProcBoard :=
  match b.slots.lookup deliveryID with
  | some slot => b.dropReference id deliveryID { slot with holder := none }
  | none => b

def finish (b : ProcBoard) (id : Nat) (call : ProcCall) (channel : Nat) (outcome : Outcome) :
    ProcBoard :=
  (b.release id call.delivery.id).put id call (.leaving channel outcome)

def fail (b : ProcBoard) (id : Nat) (call : ProcCall) (channel : Nat) (err : ProcessError) :
    ProcBoard :=
  b.finish id call channel { err := some err }

def abortWith (b : ProcBoard) (id : Nat) (call : ProcCall) (channel : Nat) (attempt : Attempt)
    (err : ProcessError) : ProcBoard :=
  (b.resolve call.delivery.id attempt false).fail id call channel err

def complete (b : ProcBoard) (id : Nat) (call : ProcCall) (channel : Nat)
    (completion : DurableCompletion) (notifyFailed : Bool) : ProcBoard :=
  b.finish id call channel ⟨some completion, if notifyFailed then some .notify else none⟩

def findReceipt (b : ProcBoard) (deliveryID : String) : Except Fault (Option ProcessingReceipt) :=
  match b.receipts.lookup deliveryID with
  | none => .ok none
  | some row => some <$> decodeReceipt hash deliveryID row

def check (b : ProcBoard) (id : Nat) (call : ProcCall) (channel : Nat)
    (failed notifyFailed : Bool) : ProcBoard :=
  if failed then b.fail id call channel .findReceipt
  else
    match b.findReceipt hash call.delivery.id with
    | .error _ => b.fail id call channel .findReceipt
    | .ok none => (b.resolvePending call false).put id call (.inside channel .absent)
    | .ok (some receipt) =>
        match completionFromReceipt hash call.delivery receipt with
        | .error _ => b.fail id call channel .receipt
        | .ok completion =>
            (b.resolvePending call true).complete id call channel completion notifyFailed

def prepare (b : ProcBoard) (id : Nat) (call : ProcCall) (channel : Nat)
    (terminal : Option (ReceiptKind × Option PermanentFailure)) : ProcBoard :=
  match terminal with
  | none => b.fail id call channel .prepare
  | some (kind, failure) =>
      { b with attempts := b.attempts + 1 }.put id call
        (.inside channel (.prepared ⟨b.attempts, kind, failure⟩))

def port (b : ProcBoard) (id : Nat) (call : ProcCall) (channel : Nat) (attempt : Attempt)
    (failed : Bool) (err : ProcessError) (next : Stage) : ProcBoard :=
  if failed then b.abortWith id call channel attempt err
  else b.put id call (.inside channel next)

def receiptOf (call : ProcCall) (attempt : Attempt) (now : Instant) : ProcessingReceipt :=
  ⟨call.delivery.id, call.delivery.sourceID, call.delivery.position, attempt.kind,
    attempt.failure, now⟩

def putReceipt (b : ProcBoard) (id : Nat) (call : ProcCall) (channel : Nat) (attempt : Attempt)
    (now : Instant) (refused : Bool) : Option ProcBoard :=
  let receipt := receiptOf call attempt now
  match receiptRow hash receipt with
  | .error _ => some (b.abortWith id call channel attempt .writeReceipt)
  | .ok row =>
      if refused || !row.checks || (b.receipts.lookup call.delivery.id).isSome then
        some (b.abortWith id call channel attempt .writeReceipt)
      else if b.writer = none then
        some ({ b with writer := some id }.put id call (.inside channel (.staged attempt receipt row)))
      else none

def discard (b : ProcBoard) (id : Nat) : ProcBoard :=
  { b with writer := if b.writer = some id then none else b.writer }

def settle (b : ProcBoard) (id : Nat) (deliveryID : String) (row : ReceiptRow) (durable : Bool) :
    ProcBoard :=
  if durable then
    { b with
      writer := none
      receipts := b.receipts.insert deliveryID row
      trace := .committed id deliveryID :: b.trace }
  else b.discard id

def conclude (b : ProcBoard) (id : Nat) (call : ProcCall) (channel : Nat) (attempt : Attempt)
    (receipt : ProcessingReceipt) (report : CommitReport) (notifyFailed : Bool) : ProcBoard :=
  match report.state with
  | .confirmed =>
      let b := b.resolve call.delivery.id attempt true
      if report.failed then b.fail id call channel .confirmedWithError
      else
        match completionFromReceipt hash call.delivery receipt with
        | .error _ => b.fail id call channel .receipt
        | .ok completion => b.complete id call channel completion notifyFailed
  | .rejected => b.abortWith id call channel attempt .commitRejected
  | .unknown => b.put id call (.inside channel (.ambiguous attempt))
  | .other => b.abortWith id call channel attempt .unsupportedState

def readback (b : ProcBoard) (id : Nat) (call : ProcCall) (channel : Nat) (attempt : Attempt)
    (failed notifyFailed : Bool) : ProcBoard :=
  if failed then (b.rememberPending call attempt).fail id call channel .commitUnknown
  else
    match b.findReceipt hash call.delivery.id with
    | .error _ => (b.rememberPending call attempt).fail id call channel .commitUnknown
    | .ok none => b.abortWith id call channel attempt .commitUnknown
    | .ok (some receipt) =>
        match completionFromReceipt hash call.delivery receipt with
        | .error _ => (b.rememberPending call attempt).fail id call channel .receipt
        | .ok completion =>
            (b.resolve call.delivery.id attempt true).complete id call channel completion
              notifyFailed

def acquireFlight (b : ProcBoard) (id : Nat) (call : ProcCall) : ProcBoard :=
  match b.flights.lookup (call.coordinator, call.delivery.id) with
  | some channel => b.put id call (.following channel)
  | none =>
      { b with
        flights := b.flights.insert (call.coordinator, call.delivery.id) b.channels
        channels := b.channels + 1 }.put id call (.leading b.channels)

def releaseFlight (b : ProcBoard) (call : ProcCall) (channel : Nat) : ProcBoard :=
  { b with
    flights := b.flights.erase (call.coordinator, call.delivery.id)
    closed := channel :: b.closed }

def register (b : ProcBoard) (id : Nat) (call : ProcCall) (channel : Nat) : ProcBoard :=
  let slot := (b.slots.lookup call.delivery.id).getD {}
  { b with slots := b.slots.insert call.delivery.id { slot with refs := id :: slot.refs } }.put id
    call (.queued channel)

def act (b : ProcBoard) (id : Nat) (call : ProcCall) : ProcMove → ProcPoint → Option ProcBoard
  | .flight _, .arrived => some (b.acquireFlight id call)
  | .wake _, .following channel =>
      if channel ∈ b.closed then some (b.put id call .arrived) else none
  | .cancel _, .following _ => some (b.put id call (.returned { err := some .contextDone }))
  | .cancel _, .queued channel =>
      match b.slots.lookup call.delivery.id with
      | some slot =>
          some ((b.dropReference id call.delivery.id slot).put id call
            (.leaving channel { err := some .acquireShared }))
      | none => none
  | .register _, .leading channel => some (b.register id call channel)
  | .enter _, .queued channel =>
      match b.slots.lookup call.delivery.id with
      | some slot =>
          if slot.holder = none then
            some ({ b with
              slots := b.slots.insert call.delivery.id { slot with holder := some id } }.put id call
                (.inside channel .entered))
          else none
      | none => none
  | .check _ failed notifyFailed, .inside channel .entered =>
      some (b.check hash id call channel failed notifyFailed)
  | .prepare _ terminal, .inside channel .absent => some (b.prepare id call channel terminal)
  | .begin _ failed, .inside channel (.prepared attempt) =>
      some (b.port id call channel attempt failed .beginProcessing (.begun attempt))
  | .write _ failed, .inside channel (.begun attempt) =>
      some (b.port id call channel attempt failed .write (.written attempt))
  | .finalize _ failed, .inside channel (.written attempt) =>
      some (b.port id call channel attempt failed .finalize (.finalized attempt))
  | .putReceipt _ now refused, .inside channel (.finalized attempt) =>
      b.putReceipt hash id call channel attempt now refused
  | .expire _, .inside _ (.staged ..) => some (b.discard id)
  | .commit _ report durable notifyFailed, .inside channel (.staged attempt receipt row) =>
      if report.admits durable && (!durable || b.writer == some id) then
        some ((b.settle id call.delivery.id row durable).conclude hash id call channel attempt
          receipt report notifyFailed)
      else none
  | .readback _ failed notifyFailed, .inside channel (.ambiguous attempt) =>
      some (b.readback hash id call channel attempt failed notifyFailed)
  | .leave _, .leaving channel outcome =>
      some ((b.releaseFlight call channel).put id call (.returned outcome))
  | _, _ => none

end ProcBoard

def ProcMove.id : ProcMove → Nat
  | call id _ _ => id
  | flight id => id
  | wake id => id
  | cancel id => id
  | register id => id
  | enter id => id
  | check id _ _ => id
  | prepare id _ => id
  | begin id _ => id
  | write id _ => id
  | finalize id _ => id
  | putReceipt id _ _ => id
  | expire id => id
  | commit id _ _ _ => id
  | readback id _ _ => id
  | leave id => id

def ProcBoard.start (hash : DeliveryHash) (b : ProcBoard) (id coordinator : Nat)
    (delivery : Delivery) : ProcBoard :=
  let point : ProcPoint :=
    if (delivery.validate hash).isOk then .arrived
    else .returned { err := some .validateDelivery }
  { b with calls := b.calls.insert id ⟨coordinator, delivery, point⟩ }

def ProcBoard.step (hash : DeliveryHash) (b : ProcBoard) (m : ProcMove) : Option ProcBoard :=
  match b.calls.lookup m.id, m with
  | none, .call id coordinator delivery => some (b.start hash id coordinator delivery)
  | some call, m => b.act hash m.id call m call.point
  | none, _ => none

end GuardWall.Processor
