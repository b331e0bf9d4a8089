import GuardWall.Core.Intent
import GuardWall.Foundation.Table
import Mathlib.Data.List.Sort

/-! The Ledger of the detection windows. A reservation takes the guards of its windows one by one,
stages the memberships that are new, and holds the guards until it is confirmed or aborted. -/
namespace GuardWall.Detection

open GuardWall.Core GuardWall.Foundation

structure ContributionKey where
  eventID : String
  ruleID : String
  ruleVersion : String
  deriving DecidableEq, Repr

structure WindowKey where
  ruleID : String
  ruleVersion : String
  groupKey : String
  deriving DecidableEq, Repr

structure Candidate where
  deliveryID : String
  key : ContributionKey
  window : WindowKey
  distinctKey : String
  observedAt : Instant
  deriving DecidableEq, Repr

structure Snapshot where
  count : Nat
  distinctCount : Nat
  deriving DecidableEq, Repr

structure Preview where
  candidate : Candidate
  snapshot : Snapshot
  willContribute : Bool
  deriving DecidableEq, Repr

structure Tally where
  count : Nat := 0
  distinct : Table String Nat := ∅

/-- `windowSlot`; instead of the guard's channel, the reservation that took it. -/
structure WindowSlot where
  holder : Option Nat := none
  tally : Tally := {}

structure MemberRecord where
  window : WindowKey
  distinctKey : String
  observedAt : Instant
  deriving DecidableEq, Repr

structure Reservation where
  locked : List WindowKey := []
  candidates : List Candidate := []
  deriving DecidableEq, Repr

/-- `Ledger`; a reservation is named by the number of those made before it, and is in
`reservations` as long as its `once` has not been used. -/
structure Ledger where
  windows : Table WindowKey WindowSlot := ∅
  memberships : Table ContributionKey MemberRecord := ∅
  claims : Table ContributionKey Nat := ∅
  reservations : Table Nat Reservation := ∅
  made : Nat := 0

def Tally.add (t : Tally) (distinctKey : String) : Tally :=
  ⟨t.count + 1, t.distinct.insert distinctKey ((t.distinct.lookup distinctKey).getD 0 + 1)⟩

def Tally.snapshot (t : Tally) : Snapshot := ⟨t.count, t.distinct.keys.length⟩

def Candidate.record (c : Candidate) : MemberRecord := ⟨c.window, c.distinctKey, c.observedAt⟩

def validateWindowKey (key : WindowKey) : Except Fault Unit := do
  reject (key.ruleID == "") "rule id must be non-empty UTF-8"
  reject (key.ruleVersion == "") "rule version must be non-empty UTF-8"
  reject (key.groupKey == "") "group key must be non-empty UTF-8"

def validateCandidate (deliveryID : String) (c : Candidate) : Except Fault Unit := do
  reject (c.deliveryID != deliveryID) "candidate delivery id differs from batch delivery"
  reject (!validEventID c.key.eventID) "event id is not canonical"
  validateWindowKey c.window
  reject (c.key.ruleID != c.window.ruleID || c.key.ruleVersion != c.window.ruleVersion)
    "membership rule identity differs from window"
  reject (c.distinctKey == "") "distinct key must be non-empty UTF-8"
  reject c.observedAt.isZero "observed time is required"

def WindowKey.le (a b : WindowKey) : Bool :=
  if a.ruleID ≠ b.ruleID then decide (a.ruleID < b.ruleID)
  else if a.ruleVersion ≠ b.ruleVersion then decide (a.ruleVersion < b.ruleVersion)
  else decide (a.groupKey ≤ b.groupKey)

def uniqueSortedWindowKeys (candidates : List Candidate) : List WindowKey :=
  (candidates.map Candidate.window).dedup.mergeSort WindowKey.le

def sameCandidateMapping (left right : Candidate) : Bool :=
  left.window == right.window && left.distinctKey == right.distinctKey &&
    left.observedAt.equal right.observedAt

def sameMemberMapping (member : MemberRecord) (c : Candidate) : Bool :=
  member.window == c.window && member.distinctKey == c.distinctKey &&
    member.observedAt.equal c.observedAt

namespace Ledger

/-- `Snapshot`, which waits while the guard of the window is taken. -/
def snapshot (l : Ledger) (key : WindowKey) : Option Snapshot :=
  let slot := (l.windows.lookup key).getD {}
  if slot.holder.isSome then none else some slot.tally.snapshot

def reserve (l : Ledger) : Ledger :=
  { l with reservations := l.reservations.insert l.made {}, made := l.made + 1 }

def lock (l : Ledger) (number : Nat) (key : WindowKey) : Option Ledger :=
  match l.reservations.lookup number with
  | none => none
  | some r =>
      let slot := (l.windows.lookup key).getD {}
      if slot.holder = none then
        some { l with
          windows := l.windows.insert key { slot with holder := some number }
          reservations := l.reservations.insert number { r with locked := r.locked ++ [key] } }
      else none

/-- The first loop of `prepareLocked`. -/
def admissible (l : Ledger) (number : Nat) :
    List Candidate → Table ContributionKey Candidate → Except Fault Unit
  | [], _ => .ok ()
  | c :: rest, seen =>
      match seen.lookup c.key, l.memberships.lookup c.key with
      | some prior, _ => do
        reject (!sameCandidateMapping prior c) "membership has inconsistent candidates in one batch"
        l.admissible number rest seen
      | none, some member => do
        reject (!sameMemberMapping member c) "membership maps to a different window or value"
        l.admissible number rest (seen.insert c.key c)
      | none, none => do
        reject ((l.claims.lookup c.key).any fun owner => owner != number)
          "membership is reserved by another window"
        l.admissible number rest (seen.insert c.key c)

structure Draft where
  projected : Table WindowKey Tally := ∅
  seen : List ContributionKey := []
  claims : Table ContributionKey Nat
  previews : List Preview := []
  staged : List Candidate := []

def stage (l : Ledger) (number : Nat) (d : Draft) (c : Candidate) : Draft :=
  let tally := (d.projected.lookup c.window).getD ((l.windows.lookup c.window).getD {}).tally
  if c.key ∈ d.seen ∨ (l.memberships.lookup c.key).isSome then
    { d with
      projected := d.projected.insert c.window tally
      seen := c.key :: d.seen
      previews := d.previews ++ [⟨c, tally.snapshot, false⟩] }
  else
    { projected := d.projected.insert c.window (tally.add c.distinctKey)
      seen := c.key :: d.seen
      claims := d.claims.insert c.key number
      previews := d.previews ++ [⟨c, (tally.add c.distinctKey).snapshot, true⟩]
      staged := d.staged ++ [c] }

def releaseSlots (windows : Table WindowKey WindowSlot) (keys : List WindowKey) :
    Table WindowKey WindowSlot :=
  keys.foldr (fun key windows =>
    match windows.lookup key with
    | some slot => windows.insert key { slot with holder := none }
    | none => windows) windows

def release (l : Ledger) (number : Nat) (locked : List WindowKey) : Ledger :=
  { l with
    windows := releaseSlots l.windows locked
    reservations := l.reservations.erase number }

/-- `prepareLocked`; an error gives the guards back. -/
def prepareLocked (l : Ledger) (number : Nat) (candidates : List Candidate) :
    Ledger × Except Fault (List Preview) :=
  match l.reservations.lookup number with
  | none => (l, .error (.text "detection ledger is required"))
  | some r =>
      match l.admissible number candidates ∅ with
      | .error fault => (l.release number r.locked, .error fault)
      | .ok _ =>
          let d := candidates.foldl (l.stage number) { claims := l.claims }
          ({ l with
            claims := d.claims
            reservations := l.reservations.insert number { r with candidates := d.staged } },
            .ok d.previews)

def enroll (l : Ledger) (c : Candidate) : Ledger :=
  match l.windows.lookup c.window with
  | none => l
  | some slot =>
      { l with
        windows := l.windows.insert c.window { slot with tally := slot.tally.add c.distinctKey }
        memberships := l.memberships.insert c.key c.record
        claims := l.claims.erase c.key }

def confirm (l : Ledger) (number : Nat) : Ledger :=
  match l.reservations.lookup number with
  | none => l
  | some r => (r.candidates.foldl enroll l).release number r.locked

def disclaim (number : Nat) (claims : Table ContributionKey Nat) (c : Candidate) :
    Table ContributionKey Nat :=
  if claims.lookup c.key = some number then claims.erase c.key else claims

def abort (l : Ledger) (number : Nat) : Ledger :=
  match l.reservations.lookup number with
  | none => l
  | some r =>
      { l with claims := r.candidates.foldl (disclaim number) l.claims }.release number r.locked

def settle (l : Ledger) (number : Nat) (confirmed : Bool) : Ledger :=
  if confirmed then l.confirm number else l.abort number

def members (l : Ledger) (key : WindowKey) : List MemberRecord :=
  (l.memberships.rows.map Prod.snd).filter fun m => m.window = key

end Ledger

end GuardWall.Detection
