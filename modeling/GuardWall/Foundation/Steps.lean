import Mathlib.Tactic.Common

/-! Runs of a labelled step function, and what a history says about the order of its events. -/
namespace GuardWall.Foundation

variable {σ μ α : Type}

/-- The state after a list of moves; `none` if one of them is not enabled. -/
def runSteps (step : σ → μ → Option σ) : σ → List μ → Option σ
  | s, [] => some s
  | s, m :: rest => (step s m).bind fun s' => runSteps step s' rest

theorem runSteps_append (step : σ → μ → Option σ) (s : σ) (first second : List μ) :
    runSteps step s (first ++ second) =
      (runSteps step s first).bind fun s' => runSteps step s' second := by
  induction first generalizing s with
  | nil => rfl
  | cons m rest ih =>
    show (step s m).bind _ = ((step s m).bind _).bind _
    rw [Option.bind_assoc]
    exact congrArg _ (funext fun s' => ih s')

theorem runSteps_concat (step : σ → μ → Option σ) (s : σ) (moves : List μ) (m : μ) :
    runSteps step s (moves ++ [m]) = (runSteps step s moves).bind fun s' => step s' m := by
  rw [runSteps_append]
  refine congrArg _ (funext fun s' => ?_)
  show (step s' m).bind some = step s' m
  cases step s' m <;> rfl

theorem runSteps_preserves {step : σ → μ → Option σ} (inv : σ → Prop)
    (each : ∀ s m s', inv s → step s m = some s' → inv s') {s s' : σ} {moves : List μ}
    (start : inv s) (h : runSteps step s moves = some s') : inv s' := by
  induction moves generalizing s with
  | nil =>
    cases h
    exact start
  | cons m rest ih =>
    obtain ⟨middle, first, later⟩ := Option.bind_eq_some_iff.mp h
    exact ih (each s m middle start first) later

section Histories

variable {older trace newer : List α} {e mark : α}

theorem suffix_of_append {x : α} (newer : List α) (other : ∀ e ∈ newer, e ≠ x)
    (h : (x :: older) <:+ newer ++ trace) :
    (x :: older) <:+ trace := by
  induction newer with
  | nil => exact h
  | cons e rest ih =>
    obtain same | suffix := List.suffix_cons_iff.mp h
    · exact absurd (List.cons.inj same).1.symm (other e List.mem_cons_self)
    · exact ih (fun y member => other y (List.mem_cons_of_mem _ member)) suffix

def EachTail (P : α → List α → Prop) : List α → Prop
  | [] => True
  | e :: older => P e older ∧ EachTail P older

theorem EachTail.split {P : α → List α → Prop} (h : EachTail P (newer ++ e :: older)) :
    P e older := by
  induction newer with
  | nil => exact h.1
  | cons _ _ ih => exact ih h.2

def anyTail (check : α → List α → Bool) : List α → Bool
  | [] => false
  | e :: older => check e older || anyTail check older

theorem exists_of_anyTail {check : α → List α → Bool} (h : anyTail check trace = true) :
    ∃ newer e older, trace = newer ++ e :: older ∧ check e older = true := by
  induction trace with
  | nil => cases h
  | cons e rest ih =>
    obtain checked | later := Bool.or_eq_true_iff.mp h
    · exact ⟨[], e, rest, rfl, checked⟩
    · obtain ⟨newer, found, older, rfl, checked⟩ := ih later
      exact ⟨e :: newer, found, older, rfl, checked⟩

variable [DecidableEq α]

/-- The events of a history, newest first, that came after `mark`. -/
def newerThan (mark : α) (trace : List α) : List α := trace.takeWhile fun e => e != mark

theorem newerThan_self (mark : α) (trace : List α) : newerThan mark (mark :: trace) = [] := by
  simp [newerThan]

theorem newerThan_cons (other : e ≠ mark) (trace : List α) :
    newerThan mark (e :: trace) = e :: newerThan mark trace := by
  simp [newerThan, other]

theorem newerThan_append (other : ∀ e ∈ newer, e ≠ mark) :
    newerThan mark (newer ++ trace) = newer ++ newerThan mark trace := by
  induction newer with
  | nil => rfl
  | cons e rest ih =>
    rw [List.cons_append, newerThan_cons (other e List.mem_cons_self),
      ih fun y member => other y (List.mem_cons_of_mem _ member), List.cons_append]

end Histories

end GuardWall.Foundation
