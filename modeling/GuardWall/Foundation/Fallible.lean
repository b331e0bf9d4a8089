import Mathlib.Tactic.Common

/-! Inversion of computations that may fail: what a successful sequence, traversal or fold was
made of. -/
namespace GuardWall.Foundation

variable {ε α β : Type}

variable {m : Except ε α} {f : α → Except ε β} {xs : List α} {ys : List β}

theorem bind_eq_ok {b : β} :
    (m >>= f) = .ok b ↔ ∃ a, m = .ok a ∧ f a = .ok b := by
  cases m <;> simp [bind, Except.bind]

theorem isOk_iff : m.isOk = true ↔ ∃ a, m = .ok a := by
  cases m <;> simp [Except.isOk, Except.toBool]

theorem toOption_eq_some {a : α} : m.toOption = some a ↔ m = .ok a := by
  cases m <;> simp [Except.toOption]

theorem mem_of_mapM_eq_ok (h : xs.mapM f = .ok ys) (y : β) : y ∈ ys ↔ ∃ x ∈ xs, f x = .ok y := by
  induction xs generalizing ys with
  | nil =>
    cases h
    simp
  | cons x rest ih =>
    simp only [List.mapM_cons, bind_eq_ok] at h
    obtain ⟨head, hHead, tail, hTail, h⟩ := h
    cases h
    simp [ih hTail, hHead, eq_comm]

theorem ok_of_mapM_eq_ok (h : xs.mapM f = .ok ys) : ∀ x ∈ xs, ∃ y, f x = .ok y := by
  induction xs generalizing ys with
  | nil => simp
  | cons x rest ih =>
    simp only [List.mapM_cons, bind_eq_ok] at h
    obtain ⟨head, hHead, tail, hTail, h⟩ := h
    intro z member
    obtain rfl | member := List.mem_cons.mp member
    · exact ⟨head, hHead⟩
    · exact ih hTail z member

theorem eq_map_of_mapM_eq_ok {g : α → β} (each : ∀ x y, f x = .ok y → y = g x)
    (h : xs.mapM f = .ok ys) : ys = xs.map g := by
  induction xs generalizing ys with
  | nil =>
    cases h
    rfl
  | cons x rest ih =>
    simp only [List.mapM_cons, bind_eq_ok] at h
    obtain ⟨head, hHead, tail, hTail, h⟩ := h
    cases h
    rw [each x head hHead, ih hTail, List.map_cons]

/-- The rule for a fold that succeeded: `inv` holds of the elements taken so far. -/
theorem foldlM_eq_ok {step : β → α → Except ε β} (inv : List α → β → Prop)
    (each : ∀ taken a acc acc', inv taken acc → step acc a = .ok acc' → inv (taken ++ [a]) acc') :
    ∀ xs taken acc acc', inv taken acc → xs.foldlM step acc = .ok acc' →
      inv (taken ++ xs) acc' := by
  intro xs
  induction xs with
  | nil =>
    intro taken acc acc' start h
    cases h
    simpa using start
  | cons a rest ih =>
    intro taken acc acc' start h
    simp only [List.foldlM_cons, bind_eq_ok] at h
    obtain ⟨middle, first, h⟩ := h
    simpa using ih (taken ++ [a]) middle acc' (each taken a acc middle start first) h

theorem mapM_succeeds (each : ∀ x ∈ xs, ∃ y, f x = .ok y) :
    ∃ ys, xs.mapM f = .ok ys := by
  induction xs with
  | nil => exact ⟨[], rfl⟩
  | cons x rest ih =>
    obtain ⟨head, first⟩ := each x List.mem_cons_self
    obtain ⟨tail, later⟩ := ih fun y member => each y (List.mem_cons_of_mem _ member)
    refine ⟨head :: tail, ?_⟩
    rw [List.mapM_cons]
    exact bind_eq_ok.mpr ⟨head, first, bind_eq_ok.mpr ⟨tail, later, rfl⟩⟩

end GuardWall.Foundation
