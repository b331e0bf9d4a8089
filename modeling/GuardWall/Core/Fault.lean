import GuardWall.Foundation.Fallible

/-! Go error values: sentinels, texts, and the ways the code wraps and joins them. -/
namespace GuardWall.Core

inductive Sentinel where
  | invalidPlan
  | stalePlan
  | staleCompletion
  | retryNotReady
  | budgetExhausted
  | targetIntentExpired
  | commitUnknown
  | stateRegression
  deriving DecidableEq, Repr

inductive Fault where
  | sentinel (s : Sentinel)
  | text (message : String)
  /-- `fmt.Errorf("context: %w", cause)` -/
  | wrap (context : String) (cause : Fault)
  /-- A sentinel whose cause is only printed: `fmt.Errorf("%w: %v", s, cause)` and
  `ReconcileCommitUnknownError`. -/
  | detail (s : Sentinel) (cause : Fault)
  /-- `errors.Join(left, right)` of two errors that are both present. -/
  | join (left right : Fault)
  | backendOperation (operation : String) (cause : Fault)
  deriving DecidableEq, Repr

namespace Fault

def is : Fault → Sentinel → Bool
  | sentinel t, s => t == s
  | text _, _ => false
  | wrap _ cause, s => cause.is s
  | detail t _, s => t == s
  | join left right, s => left.is s || right.is s
  | backendOperation _ cause, s => cause.is s

end Fault

def reject (condition : Bool) (message : String) : Except Fault Unit :=
  if condition then .error (.text message) else .ok ()

variable {u : Unit} {α : Type} {value : Option α}

@[simp] theorem reject_eq_ok {condition : Bool} {message : String} :
    reject condition message = .ok u ↔ condition = false := by
  unfold reject
  cases condition <;> simp

/-- Adds a context to the error of a step that may fail. -/
def within {α : Type} (context : String) (result : Except Fault α) : Except Fault α :=
  result.mapError (Fault.wrap context)

@[simp] theorem within_eq_ok {context : String} {result : Except Fault α} {a : α} :
    within context result = .ok a ↔ result = .ok a := by
  unfold within
  cases result <;> simp [Except.mapError]

@[simp] theorem within_ok (context : String) (a : α) :
    within context (.ok a) = .ok a := rfl

@[simp] theorem within_error (context : String) (fault : Fault) :
    (within context (.error fault) : Except Fault α) = .error (.wrap context fault) := rfl

def checkSome {α : Type} (value : Option α) (check : α → Except Fault Unit) : Except Fault Unit :=
  match value with
  | some a => check a
  | none => .ok ()

@[simp] theorem checkSome_eq_ok {check : α → Except Fault Unit} :
    checkSome value check = .ok u ↔ ∀ a, value = some a → check a = .ok () := by
  cases value <;> simp [checkSome]

def stepSome {α σ : Type} (value : Option α) (step : α → σ → Except Fault σ) (s : σ) :
    Except Fault σ :=
  match value with
  | some a => step a s
  | none => .ok s

theorem stepSome_eq_ok {σ : Type} {step : α → σ → Except Fault σ} {s t : σ} :
    stepSome value step s = .ok t ↔
      (∃ a, value = some a ∧ step a s = .ok t) ∨ (value = none ∧ s = t) := by
  cases value <;> simp [stepSome]

end GuardWall.Core
