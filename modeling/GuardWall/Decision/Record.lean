import GuardWall.Core.Decision
import GuardWall.Decision.DesiredState
import GuardWall.Processor.Receipt

/-! The `decisions` table. A stored row carries the CHECK constraints of its table; what reading it
back yields is a Decision again. -/
namespace GuardWall.Decision

open GuardWall.Core GuardWall.Foundation GuardWall.Store

structure DecisionRow where
  id : String
  nodeID : String
  source : DecisionSource
  ruleID : Option String
  ruleVersion : Option String
  alertID : Option String
  canonicalTarget : Prefix
  createdUS : Int
  updatedUS : Int
  lastTriggeredUS : Int
  expiresUS : Option Int
  endedUS : Option Int
  state : DecisionState
  endReason : Option EndReason
  suppressedCount : Nat
  deriving DecidableEq, Repr

namespace DecisionRow

def endChecked (r : DecisionRow) : Bool :=
  match r.state, r.endedUS, r.endReason with
  | .active, none, none => true
  | .expired, some _, some .expired => true
  | .revoked, some _, some reason => reason != .expired
  | _, _, _ => false

def sourceChecked (r : DecisionRow) : Bool :=
  match r.source with
  | .automatic => r.ruleID.isSome && r.ruleVersion.isSome
  | .manual => r.ruleID.isNone && r.ruleVersion.isNone && r.alertID.isNone

structure Checked (r : DecisionRow) : Prop where
  idLength : 1 ≤ r.id.length ∧ r.id.length ≤ 160
  targetLength : 3 ≤ r.canonicalTarget.toText.length ∧ r.canonicalTarget.toText.length ≤ 64
  created : 0 < r.createdUS
  updated : r.createdUS ≤ r.updatedUS
  lastTriggered : r.createdUS ≤ r.lastTriggeredUS
  source : r.sourceChecked = true
  ended : r.endChecked = true
  replaced : r.endReason = some .manualReplace → r.source = .manual
  disabled : r.endReason = some .ruleDisabled → r.source = .automatic
  expires : ∀ us, r.expiresUS = some us → r.createdUS ≤ us
  endedAfter : ∀ us, r.endedUS = some us → r.createdUS ≤ us

instance (r : DecisionRow) : Decidable r.Checked :=
  decidable_of_iff
    ((1 ≤ r.id.length ∧ r.id.length ≤ 160) ∧
      (3 ≤ r.canonicalTarget.toText.length ∧ r.canonicalTarget.toText.length ≤ 64) ∧
      0 < r.createdUS ∧ r.createdUS ≤ r.updatedUS ∧ r.createdUS ≤ r.lastTriggeredUS ∧
      r.sourceChecked = true ∧ r.endChecked = true ∧
      (r.endReason = some .manualReplace → r.source = .manual) ∧
      (r.endReason = some .ruleDisabled → r.source = .automatic) ∧
      (∀ us ∈ r.expiresUS, r.createdUS ≤ us) ∧ ∀ us ∈ r.endedUS, r.createdUS ≤ us)
    ⟨fun ⟨a, b, c, d, e, f, g, h, i, j, k⟩ => ⟨a, b, c, d, e, f, g, h, i, j, k⟩,
      fun ⟨a, b, c, d, e, f, g, h, i, j, k⟩ => ⟨a, b, c, d, e, f, g, h, i, j, k⟩⟩

/-- `decisionFromRow` before the result is validated. -/
def decision (r : DecisionRow) : Decision where
  id := r.id
  nodeID := r.nodeID
  source := r.source
  ruleID := r.ruleID
  ruleVersion := r.ruleVersion
  alertID := r.alertID
  canonicalTarget := r.canonicalTarget
  createdAt := .ofMicro r.createdUS
  updatedAt := .ofMicro r.updatedUS
  lastTriggeredAt := .ofMicro r.lastTriggeredUS
  expiresAt := r.expiresUS.map .ofMicro
  endedAt := r.endedUS.map .ofMicro
  state := r.state
  endReason := r.endReason
  suppressedCount := r.suppressedCount

end DecisionRow

def decisionFromRow (r : DecisionRow) : Except Fault Decision := do
  within "validate persisted decision" r.decision.validate
  return r.decision

structure StoredDecision where
  row : DecisionRow
  checked : row.Checked
  deriving DecidableEq

def checkRow (row : DecisionRow) : Except Fault StoredDecision :=
  if checked : row.Checked then .ok ⟨row, checked⟩
  else .error (.text "CHECK constraint failed: decisions")

theorem checkRow_eq_ok {row : DecisionRow} {s : StoredDecision} (h : checkRow row = .ok s) :
    s.row = row := by
  unfold checkRow at h
  split at h
  · cases h
    rfl
  · cases h

theorem checkRow_succeeds {row : DecisionRow} (checked : row.Checked) :
    checkRow row = .ok ⟨row, checked⟩ := dif_pos checked

end GuardWall.Decision
