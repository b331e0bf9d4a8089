import GuardWall.Detection.Tallies
import GuardWall.Processor.Gate

/-! The processors with the detection Ledger they share. Where the Coordinator prepares an attempt,
`Pipeline.evaluateRules` makes a reservation: it waits for one guard after another, stages the
batch, and starts again without a candidate whose evaluation fails for good. What the rules match
and how an evaluation ends is the environment's choice. -/
namespace GuardWall.Processor

open GuardWall.Core GuardWall.Foundation GuardWall.Detection

/-- Where `evaluateRules` of a call is: it waits for the guards in `todo`, or it has staged the
active candidates and evaluates their previews. -/
structure Proposal where
  candidates : List Candidate
  excluded : List ContributionKey
  reservation : Nat
  todo : List WindowKey
  previews : Option (List Preview) := none

def activeCandidates (candidates : List Candidate) (excluded : List ContributionKey) :
    List Candidate :=
  candidates.filter fun c => c.key ∉ excluded

def Proposal.active (p : Proposal) : List Candidate := activeCandidates p.candidates p.excluded

structure Detector where
  board : ProcBoard := {}
  ledger : Ledger := {}
  proposals : Table Nat Proposal := ∅
  /-- The reservation of each attempt, and the contributions its transaction writes. -/
  attempts : Table Nat (Nat × List Candidate) := ∅
  landed : List Nat := []

inductive Evaluation where
  | lock
  | cancel
  | stage
  /-- The evaluation of the preview at the index fails for good. -/
  | exclude (index : Nat)
  /-- Any other error while the previews are evaluated or the audits are built. -/
  | giveUp
  | finish (kind : ReceiptKind) (failure : Option PermanentFailure)

inductive DetectMove where
  | processor (m : ProcMove)
  | propose (id : Nat) (candidates : List Candidate)
  | evaluate (id : Nat) (e : Evaluation)

/-- What an event of the processors does to the Ledger. -/
def resolveEvent (attempts : Table Nat (Nat × List Candidate)) (e : ProcEvent) (l : Ledger) :
    Ledger :=
  match e with
  | .committed .. => l
  | .resolved n confirmed =>
      match attempts.lookup n with
      | some (reservation, _) => l.settle reservation confirmed
      | none => l

def newEvents (b b' : ProcBoard) : List ProcEvent :=
  b'.trace.take (b'.trace.length - b.trace.length)

namespace Detector

variable (hash : DeliveryHash)

def processor (d : Detector) (m : ProcMove) : Option Detector :=
  (d.board.step hash m).map fun board => { d with
    board := board
    ledger := (newEvents d.board board).foldr (resolveEvent d.attempts) d.ledger
    landed := landedBy d.board m d.landed }

def fail (d : Detector) (id : Nat) : Option Detector :=
  { d with proposals := d.proposals.erase id }.processor hash (.prepare id none)

def batch (d : Detector) (id : Nat) (deliveryID : String) (candidates : List Candidate)
    (excluded : List ContributionKey) : Option Detector :=
  let active := activeCandidates candidates excluded
  if validDeliveryID deliveryID && active.all fun c => (validateCandidate deliveryID c).isOk then
    some { d with
      ledger := d.ledger.reserve
      proposals := d.proposals.insert id
        { candidates := candidates
          excluded := excluded
          reservation := d.ledger.made
          todo := uniqueSortedWindowKeys active } }
  else d.fail hash id

def propose (d : Detector) (id : Nat) (candidates : List Candidate) : Option Detector :=
  match d.board.calls.lookup id, d.proposals.lookup id with
  | some call, none =>
      match call.point with
      | .inside _ .absent => d.batch hash id call.delivery.id candidates []
      | _ => none
  | _, _ => none

def lock (d : Detector) (id : Nat) (p : Proposal) : Option Detector :=
  match p.previews, p.todo with
  | none, key :: rest =>
      (d.ledger.lock p.reservation key).map fun ledger => { d with
        ledger := ledger
        proposals := d.proposals.insert id { p with todo := rest } }
  | _, _ => none

def stage (d : Detector) (id : Nat) (p : Proposal) : Option Detector :=
  match p.previews, p.todo with
  | none, [] =>
      match d.ledger.prepareLocked p.reservation p.active with
      | (ledger, .error _) => { d with ledger := ledger }.fail hash id
      | (ledger, .ok previews) => some { d with
          ledger := ledger
          proposals := d.proposals.insert id { p with previews := some previews } }
  | _, _ => none

def exclude (d : Detector) (id : Nat) (p : Proposal) (index : Nat) : Option Detector :=
  match d.board.calls.lookup id, p.previews with
  | some call, some previews =>
      match previews[index]? with
      | some preview =>
          if (previews.take (index + 1)).all Preview.willContribute then
            { d with ledger := d.ledger.abort p.reservation }.batch hash id call.delivery.id
              p.candidates (preview.candidate.key :: p.excluded)
          else none
      | none => none
  | _, _ => none

def finish (d : Detector) (id : Nat) (p : Proposal) (kind : ReceiptKind)
    (failure : Option PermanentFailure) : Option Detector :=
  match p.previews with
  | some previews =>
      if previews.all Preview.willContribute then
        { d with
          proposals := d.proposals.erase id
          attempts := d.attempts.insert d.board.attempts (p.reservation, p.active) }.processor hash
          (.prepare id (some (kind, failure)))
      else none
  | none => none

def moves (d : Detector) : ProcMove → Bool
  | .prepare id none => (d.proposals.lookup id).isNone
  | .prepare _ (some _) => false
  | _ => true

def evaluate (d : Detector) (id : Nat) (p : Proposal) : Evaluation → Option Detector
  | .lock => d.lock id p
  | .cancel =>
      -- It has staged nothing, so that only its guards go back.
      if p.previews.isNone then
        { d with ledger := d.ledger.abort p.reservation }.fail hash id
      else none
  | .stage => d.stage hash id p
  | .exclude index => d.exclude hash id p index
  | .giveUp =>
      if p.previews.isSome then
        { d with ledger := d.ledger.abort p.reservation }.fail hash id
      else none
  | .finish kind failure => d.finish hash id p kind failure

def step (d : Detector) : DetectMove → Option Detector
  | .processor m => if d.moves m then d.processor hash m else none
  | .propose id candidates => d.propose hash id candidates
  | .evaluate id e => (d.proposals.lookup id).bind fun p => d.evaluate hash id p e

end Detector

def DetectMove.named : DetectMove → Bool
  | .processor m => m.named
  | _ => true

end GuardWall.Processor
