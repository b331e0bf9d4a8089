import GuardWall.Core.Retry
import GuardWall.Foundation.Steps
import GuardWall.Foundation.Table

/-! `Dispatcher.Wake` called by any number of goroutines, against the single worker of
`Dispatcher.Run`. One move is one critical section, one channel operation or one `select` case;
runs are their interleavings. -/
namespace GuardWall.Reconcile

open GuardWall.Core GuardWall.Foundation

inductive WakeError where
  | invalidKey
  | canceled
  | stopped
  deriving DecidableEq, Repr

inductive WakePoint where
  | looking
  | waiting (reservation : Nat)
  | sending (reservation : Nat)
  /-- Past that `select`, about to take `queueMu` again. -/
  | finishing (reservation : Nat) (err : Option WakeError)
  | returned (err : Option WakeError)
  deriving DecidableEq, Repr

namespace WakePoint

def owns : WakePoint → Option Nat
  | sending r => some r
  | finishing r _ => some r
  | _ => none

def unsent : WakePoint → Option Nat
  | sending r => some r
  | finishing r (some _) => some r
  | _ => none

end WakePoint

structure WakeCall where
  key : ReconcileKey
  version : Nat
  point : WakePoint
  deriving DecidableEq, Repr

inductive WakeWorker where
  | idle
  | holding (key : ReconcileKey)
  | stopped
  deriving DecidableEq, Repr

inductive WakeEvent where
  | began (id : Nat)
  | received (key : ReconcileKey)
  | marked (key : ReconcileKey)
  | planRead (key : ReconcileKey) (version : Nat)
  deriving DecidableEq, Repr

/-- The part of `Dispatcher` that `Wake` and the worker share, with their positions. -/
structure WakeBoard where
  capacity : Nat
  queue : List ReconcileKey := []
  queued : Table ReconcileKey Nat := ∅
  reservations : Nat := 0
  closed : Table Nat (Option WakeError) := ∅
  calls : Table Nat WakeCall := ∅
  worker : WakeWorker := .idle
  ready : List ReconcileKey := []
  stopped : Bool := false
  done : Bool := false
  version : Nat := 0
  trace : List WakeEvent := []

inductive WakeMove where
  | commit
  | begin (id : Nat) (key : ReconcileKey)
  | look (id : Nat)
  | join (id : Nat)
  | send (id : Nat)
  | cancel (id : Nat)
  | seeDone (id : Nat)
  | finish (id : Nat)
  | receive
  | markDequeued
  /-- Startup, health recovery, a retry timer or a stale plan asks for a key. -/
  | schedule (key : ReconcileKey)
  | dispatch
  /-- `Run` returns: `stopped` is stored, then `done` closed. -/
  | stop
  | closeDone
  deriving DecidableEq, Repr

namespace WakeBoard

def put (b : WakeBoard) (id : Nat) (call : WakeCall) (point : WakePoint) : WakeBoard :=
  { b with calls := b.calls.insert id { call with point := point } }

/-- `validateReconcileKey` of the dispatcher. -/
def validKey : ReconcileKey → Bool
  | .target t => t.canonical
  | _ => true

def record (b : WakeBoard) (event : WakeEvent) : WakeBoard :=
  { b with trace := event :: b.trace }

def begin (b : WakeBoard) (id : Nat) (key : ReconcileKey) : WakeBoard :=
  let point : WakePoint :=
    if !validKey key then .returned (some .invalidKey)
    else if b.stopped then .returned (some .stopped)
    else .looking
  (b.record (.began id)).put id ⟨key, b.version, point⟩ point

def look (b : WakeBoard) (id : Nat) (call : WakeCall) : WakeBoard :=
  match b.queued.lookup call.key with
  | some r => b.put id call (.waiting r)
  | none =>
      { b with
        queued := b.queued.insert call.key b.reservations
        reservations := b.reservations + 1 }.put id call (.sending b.reservations)

def finish (b : WakeBoard) (id : Nat) (call : WakeCall) (r : Nat) (err : Option WakeError) :
    WakeBoard :=
  { b with
    queued :=
      if b.queued.lookup call.key = some r ∧ err.isSome then b.queued.erase call.key
      else b.queued
    closed := b.closed.insert r err }.put id call (.returned err)

def giveUp (b : WakeBoard) (id : Nat) (err : WakeError) : Option WakeBoard :=
  match b.calls.lookup id with
  | some call =>
      match call.point with
      | .waiting _ => some (b.put id call (.returned (some err)))
      | .sending r => some (b.put id call (.finishing r (some err)))
      | _ => none
  | none => none

def step (b : WakeBoard) : WakeMove → Option WakeBoard
  | .commit => some { b with version := b.version + 1 }
  | .begin id key => if (b.calls.lookup id).isNone then some (b.begin id key) else none
  | .look id =>
      match b.calls.lookup id with
      | some call => if call.point = .looking then some (b.look id call) else none
      | none => none
  | .join id =>
      match b.calls.lookup id with
      | some call =>
          match call.point with
          | .waiting r =>
              match b.closed.lookup r with
              | some none => some (b.put id call (.returned none))
              | some (some _) => some (b.put id call .looking)
              | none => none
          | _ => none
      | none => none
  | .send id =>
      match b.calls.lookup id with
      | some call =>
          match call.point with
          | .sending r =>
              if b.queue.length < b.capacity then
                some ({ b with queue := b.queue ++ [call.key] }.put id call (.finishing r none))
              else none
          | _ => none
      | none => none
  | .cancel id => b.giveUp id .canceled
  | .seeDone id => if b.done then b.giveUp id .stopped else none
  | .finish id =>
      match b.calls.lookup id with
      | some call =>
          match call.point with
          | .finishing r err => some (b.finish id call r err)
          | _ => none
      | none => none
  | .receive =>
      match b.worker, b.queue with
      | .idle, key :: rest =>
          some ({ b with queue := rest, worker := .holding key }.record (.received key))
      | _, _ => none
  | .markDequeued =>
      match b.worker with
      | .holding key =>
          some ({ b with
            queued := b.queued.erase key
            worker := .idle
            ready := b.ready ++ [key] }.record (.marked key))
      | _ => none
  | .schedule key => if b.worker = .idle then some { b with ready := b.ready ++ [key] } else none
  | .dispatch =>
      match b.worker, b.ready with
      | .idle, key :: rest =>
          some ({ b with ready := rest }.record (.planRead key b.version))
      | _, _ => none
  | .stop =>
      if b.worker = .idle then some { b with worker := .stopped, stopped := true } else none
  | .closeDone => if b.worker = .stopped then some { b with done := true } else none
end WakeBoard

inductive WakeStep (b : WakeBoard) : WakeBoard → Prop where
  | commit : WakeStep b { b with version := b.version + 1 }
  | begin {id : Nat} {key : ReconcileKey} (fresh : b.calls.lookup id = none) :
      WakeStep b (b.begin id key)
  | wait {id : Nat} {call : WakeCall} {r : Nat} (found : b.calls.lookup id = some call)
      (at_ : call.point = .looking) (reserved : b.queued.lookup call.key = some r) :
      WakeStep b (b.put id call (.waiting r))
  | reserve {id : Nat} {call : WakeCall} (found : b.calls.lookup id = some call)
      (at_ : call.point = .looking) (free : b.queued.lookup call.key = none) :
      WakeStep b ({ b with
        queued := b.queued.insert call.key b.reservations
        reservations := b.reservations + 1 }.put id call (.sending b.reservations))
  | joined {id : Nat} {call : WakeCall} {r : Nat} (found : b.calls.lookup id = some call)
      (at_ : call.point = .waiting r) (closed : b.closed.lookup r = some none) :
      WakeStep b (b.put id call (.returned none))
  | again {id : Nat} {call : WakeCall} {r : Nat} {err : WakeError}
      (found : b.calls.lookup id = some call) (at_ : call.point = .waiting r)
      (closed : b.closed.lookup r = some (some err)) : WakeStep b (b.put id call .looking)
  | send {id : Nat} {call : WakeCall} {r : Nat} (found : b.calls.lookup id = some call)
      (at_ : call.point = .sending r) (room : b.queue.length < b.capacity) :
      WakeStep b ({ b with queue := b.queue ++ [call.key] }.put id call (.finishing r none))
  | giveUpWaiting {id : Nat} {call : WakeCall} {r : Nat} {err : WakeError}
      (found : b.calls.lookup id = some call) (at_ : call.point = .waiting r) :
      WakeStep b (b.put id call (.returned (some err)))
  | giveUpSending {id : Nat} {call : WakeCall} {r : Nat} {err : WakeError}
      (found : b.calls.lookup id = some call) (at_ : call.point = .sending r) :
      WakeStep b (b.put id call (.finishing r (some err)))
  | finish {id : Nat} {call : WakeCall} {r : Nat} {err : Option WakeError}
      (found : b.calls.lookup id = some call) (at_ : call.point = .finishing r err) :
      WakeStep b (b.finish id call r err)
  | receive {key : ReconcileKey} {rest : List ReconcileKey} (idle : b.worker = .idle)
      (front : b.queue = key :: rest) :
      WakeStep b ({ b with queue := rest, worker := .holding key }.record (.received key))
  | markDequeued {key : ReconcileKey} (holds : b.worker = .holding key) :
      WakeStep b ({ b with
        queued := b.queued.erase key
        worker := .idle
        ready := b.ready ++ [key] }.record (.marked key))
  | schedule {key : ReconcileKey} : WakeStep b { b with ready := b.ready ++ [key] }
  | dispatch {key : ReconcileKey} {rest : List ReconcileKey} (front : b.ready = key :: rest) :
      WakeStep b ({ b with ready := rest }.record (.planRead key b.version))
  | stop (idle : b.worker = .idle) : WakeStep b { b with worker := .stopped, stopped := true }
  | closeDone : WakeStep b { b with done := true }

private theorem step_giveUp {b b' : WakeBoard} {id : Nat} {err : WakeError}
    (h : b.giveUp id err = some b') : WakeStep b b' := by
  unfold WakeBoard.giveUp at h
  split at h
  · rename_i call found
    split at h
    · cases h
      exact .giveUpWaiting found ‹_›
    · cases h
      exact .giveUpSending found ‹_›
    · cases h
  · cases h

theorem step_cases {b b' : WakeBoard} {move : WakeMove} (h : b.step move = some b') :
    WakeStep b b' := by
  cases move with
  | commit =>
    cases h
    exact .commit
  | begin id key =>
    simp only [WakeBoard.step] at h
    split at h
    · rename_i fresh
      cases h
      exact .begin (Option.isNone_iff_eq_none.mp fresh)
    · cases h
  | look id =>
    simp only [WakeBoard.step] at h
    split at h
    · rename_i call found
      split at h
      · rename_i at_
        cases h
        unfold WakeBoard.look
        split
        · exact .wait found at_ ‹_›
        · exact .reserve found at_ ‹_›
      · cases h
    · cases h
  | join id =>
    simp only [WakeBoard.step] at h
    split at h
    · rename_i call found
      split at h
      · rename_i r at_
        split at h <;> cases h
        · exact .joined found at_ ‹_›
        · exact .again found at_ ‹_›
      · cases h
    · cases h
  | send id =>
    simp only [WakeBoard.step] at h
    split at h
    · rename_i call found
      split at h
      · rename_i r at_
        split at h
        · cases h
          exact .send found at_ ‹_›
        · cases h
      · cases h
    · cases h
  | cancel id => exact step_giveUp h
  | seeDone id =>
    simp only [WakeBoard.step] at h
    split at h
    · exact step_giveUp h
    · cases h
  | finish id =>
    simp only [WakeBoard.step] at h
    split at h
    · rename_i call found
      split at h
      · cases h
        exact .finish found ‹_›
      · cases h
    · cases h
  | receive =>
    simp only [WakeBoard.step] at h
    split at h
    · rename_i idle front
      cases h
      exact .receive idle front
    · cases h
  | markDequeued =>
    simp only [WakeBoard.step] at h
    split at h
    · cases h
      exact .markDequeued ‹_›
    · cases h
  | schedule key =>
    simp only [WakeBoard.step] at h
    split at h
    · cases h
      exact .schedule
    · cases h
  | dispatch =>
    simp only [WakeBoard.step] at h
    split at h
    · rename_i front
      cases h
      exact .dispatch front
    · cases h
  | stop =>
    simp only [WakeBoard.step] at h
    split at h
    · cases h
      exact .stop ‹_›
    · cases h
  | closeDone =>
    simp only [WakeBoard.step] at h
    split at h
    · cases h
      exact .closeDone
    · cases h

end GuardWall.Reconcile
