import GuardWall.Foundation.Steps
import GuardWall.Foundation.Table
import GuardWall.Processor.Receipt

/-! `source/checkpoint.go`: completions of one source session are turned into checkpoint candidates
that `Flush` saves. `Complete` marks and merges under `mu`; `Flush` takes its snapshot, saves and
clears in three steps between which other calls of `Complete` may run. -/
namespace GuardWall.Source

open GuardWall.Core GuardWall.Foundation GuardWall.Processor

def maxSequence : Nat := 18446744073709551615

structure CheckpointCandidate where
  sourceID : String
  throughSequence : Nat
  position : SourcePosition
  fileRanges : List FilePosition
  deriving DecidableEq, Repr

/-- One range in the loop of `mergeFileRanges`: the last range of its generation takes it in. -/
def mergeFile (file : FilePosition) : List FilePosition → Except Fault (List FilePosition)
  | [] => .ok [file]
  | last :: rest =>
      if last.generation = file.generation ∧ ∀ p ∈ rest, p.generation ≠ file.generation then do
        reject (last.deviceID != file.deviceID || last.inode != file.inode ||
            last.endOffset != file.startOffset)
          ("generation \"" ++ file.generation ++ "\" completion range is not contiguous")
        return { last with endOffset := file.endOffset } :: rest
      else do
        let rest ← mergeFile file rest
        return last :: rest

def mergeFileRanges (previous next : List FilePosition) : Except Fault (List FilePosition) :=
  next.foldlM (fun merged file => mergeFile file merged) previous

structure CompletionTracker where
  sourceID : String
  next : Nat
  completed : Table Nat SourcePosition := ∅
  exhausted : Bool := false

def newCompletionTracker (sourceID : String) (next : Nat) : Except Fault CompletionTracker := do
  reject (sourceID == "") "source id is required"
  reject (next == 0) "next delivery sequence must be positive"
  return { sourceID := sourceID, next := next }

namespace CompletionTracker

/-- The checks of `Mark`; the flag says whether the completion is a new one. -/
def admits (t : CompletionTracker) (c : DurableCompletion) : Except Fault Bool := do
  reject (c.sourceID != t.sourceID) "completion source id mismatch"
  reject (!validDeliveryID c.deliveryID || c.sequence == 0 || !c.position.valid)
    "invalid durable completion"
  reject t.exhausted "delivery sequence space is exhausted"
  if c.sequence < t.next then return false
  else
    match t.completed.lookup c.sequence with
    | some existing => do
        reject (existing != c.position)
          ("delivery sequence " ++ toString c.sequence ++ " has conflicting positions")
        return false
    | none => return true

def addPosition (ranges : List FilePosition) : SourcePosition → Except Fault (List FilePosition)
  | .file file => mergeFileRanges ranges [file]
  | _ => .ok ranges

def extend (t : CompletionTracker) (next : Nat) (position : SourcePosition)
    (candidate : Option CheckpointCandidate) : Except Fault CheckpointCandidate := do
  let ranges ← addPosition ((candidate.map CheckpointCandidate.fileRanges).getD []) position
  return ⟨t.sourceID, next, position, ranges⟩

/-- The loop of `Mark` over the completions from `next` on; `left` sequences follow `next`. -/
def gather (t : CompletionTracker) : Nat → Nat → Option CheckpointCandidate →
    Except Fault (Option CheckpointCandidate)
  | left, next, candidate =>
      match t.completed.lookup next with
      | none => .ok candidate
      | some position => do
          let extended ← t.extend next position candidate
          match left with
          | 0 => return some extended
          | left + 1 => gather t left (next + 1) (some extended)

/-- The loop of `Mark` that forgets the completions up to `through`. -/
def forget (through : Nat) : Nat → CompletionTracker → CompletionTracker
  | 0, t => { t with completed := t.completed.erase t.next, exhausted := true }
  | left + 1, t =>
      let t := { t with completed := t.completed.erase t.next, next := t.next + 1 }
      if through < t.next then t else forget through left t

def store (t : CompletionTracker) (c : DurableCompletion) :
    Except Fault (Option CheckpointCandidate) × CompletionTracker :=
  let t := { t with completed := t.completed.insert c.sequence c.position }
  match t.gather (maxSequence - t.next) t.next none with
  | .error err => (.error err, t)
  | .ok none => (.ok none, t)
  | .ok (some candidate) =>
      (.ok (some candidate), forget candidate.throughSequence (maxSequence - t.next) t)

def mark (t : CompletionTracker) (c : DurableCompletion) :
    Except Fault (Option CheckpointCandidate) × CompletionTracker :=
  match t.admits c with
  | .error err => (.error err, t)
  | .ok false => (.ok none, t)
  | .ok true => t.store c

end CompletionTracker

structure CheckpointManager where
  tracker : CompletionTracker
  pending : Option CheckpointCandidate := none
  invalid : Option Fault := none

/-- The new candidate in the place of one that was not saved yet. -/
def CheckpointManager.replace (m : CheckpointManager) (candidate : CheckpointCandidate) :
    CheckpointManager :=
  match m.pending with
  | none => { m with pending := some candidate }
  | some pending =>
      match mergeFileRanges pending.fileRanges candidate.fileRanges with
      | .error err => { m with invalid := some err }
      | .ok ranges => { m with pending := some { candidate with fileRanges := ranges } }

/-- `CheckpointManager.Complete` up to its call of `Flush`. -/
def CheckpointManager.complete (m : CheckpointManager) (c : DurableCompletion) :
    CheckpointManager :=
  if m.invalid.isSome then m
  else
    match m.tracker.mark c with
    | (.error err, tracker) => { m with tracker := tracker, invalid := some err }
    | (.ok none, tracker) => { m with tracker := tracker }
    | (.ok (some candidate), tracker) => { m with tracker := tracker }.replace candidate

/-- Where the call of `Flush` that holds `flushMu` is. -/
inductive Flush where
  | idle
  | saving (candidate : CheckpointCandidate)
  | saved (candidate : CheckpointCandidate)
  deriving DecidableEq, Repr

/-- A session: the manager, the running `Flush`, the completions `Mark` has stored and the
candidates that were saved, newest first. -/
structure Session where
  manager : CheckpointManager
  flush : Flush := .idle
  marked : List DurableCompletion := []
  saves : List CheckpointCandidate := []

inductive Move where
  | complete (c : DurableCompletion)
  | look
  | save (succeeds : Bool)
  | clear

def Session.look (s : Session) : Session :=
  match s.manager.invalid, s.manager.pending with
  | none, some pending => { s with flush := .saving pending }
  | _, _ => s

def Session.clear (s : Session) (saved : CheckpointCandidate) : Session :=
  let same := s.manager.pending.any fun p => p.throughSequence == saved.throughSequence
  { s with
    flush := .idle
    manager := if same then { s.manager with pending := none } else s.manager }

/-- One move; a sequence is 64 bits wide. -/
def Session.step (s : Session) : Move → Option Session
  | .complete c =>
      if maxSequence < c.sequence then none
      else
        let new := s.manager.invalid.isNone && (s.manager.tracker.admits c).toOption == some true
        some { s with
          manager := s.manager.complete c
          marked := if new then c :: s.marked else s.marked }
  | .look =>
      match s.flush with
      | .idle => some s.look
      | _ => none
  | .save succeeds =>
      match s.flush with
      | .saving candidate =>
          if succeeds then
            some { s with flush := .saved candidate, saves := candidate :: s.saves }
          else some { s with flush := .idle }
      | _ => none
  | .clear =>
      match s.flush with
      | .saved candidate => some (s.clear candidate)
      | _ => none

end GuardWall.Source
