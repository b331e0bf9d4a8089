import Mathlib.Logic.Basic

/-! Stateful procedures that return a value, fail with an error, or are cut off
by the death of the process running them. A cut-off run still leaves the state
it had reached, so a durable part of that state can be reasoned about. -/
namespace GuardWall.Foundation

inductive Outcome (ε α : Type) where
  | ok (value : α)
  | error (fault : ε)
  | crash
  deriving DecidableEq, Repr

def Proc (σ ε α : Type) : Type := σ → Outcome ε α × σ

namespace Proc

variable {σ ε α β : Type}

def bind (m : Proc σ ε α) (next : α → Proc σ ε β) : Proc σ ε β := fun s =>
  match m s with
  | (.ok a, t) => next a t
  | (.error e, t) => (.error e, t)
  | (.crash, t) => (.crash, t)

instance : Monad (Proc σ ε) where
  pure a := fun s => (.ok a, s)
  bind := Proc.bind

def fail (fault : ε) : Proc σ ε α := fun s => (.error fault, s)

def halt : Proc σ ε α := fun s => (.crash, s)

def read : Proc σ ε σ := fun s => (.ok s, s)

def update (f : σ → σ) : Proc σ ε Unit := fun s => (.ok (), f s)

def lift : Except ε α → Proc σ ε α
  | .ok a => fun s => (.ok a, s)
  | .error e => fun s => (.error e, s)

/-- Hands an error to the caller as a value. A crash is not an error. -/
def attempt (m : Proc σ ε α) : Proc σ ε (Except ε α) := fun s =>
  match m s with
  | (.ok a, t) => (.ok (.ok a), t)
  | (.error e, t) => (.ok (.error e), t)
  | (.crash, t) => (.crash, t)

def mapError (wrap : ε → ε) (m : Proc σ ε α) : Proc σ ε α := fun s =>
  match m s with
  | (.ok a, t) => (.ok a, t)
  | (.error e, t) => (.error (wrap e), t)
  | (.crash, t) => (.crash, t)

/-- A loop over a fixed list that carries an accumulator and stops at the first error. -/
def fold (body : β → α → Proc σ ε β) : List α → β → Proc σ ε β
  | [], acc => Pure.pure acc
  | a :: rest, acc => body acc a >>= fold body rest

/-- What a caller asks of a procedure: of its value, of its error, and of the state a run that
is cut off leaves. -/
structure Post (σ ε α : Type) where
  ok : α → σ → Prop
  error : ε → σ → Prop
  crash : σ → Prop

def wp (m : Proc σ ε α) (s : σ) (post : Post σ ε α) : Prop :=
  match m s with
  | (.ok a, t) => post.ok a t
  | (.error e, t) => post.error e t
  | (.crash, t) => post.crash t

section Rules

variable {m : Proc σ ε α} {s : σ}

variable {P : α → σ → Prop} {E : ε → σ → Prop} {Q : Post σ ε β}

theorem wp_conseq {P Q : Post σ ε α} (h : wp m s P) (ok : ∀ a t, P.ok a t → Q.ok a t)
    (error : ∀ e t, P.error e t → Q.error e t) (crash : ∀ t, P.crash t → Q.crash t) :
    wp m s Q := by
  unfold wp at h ⊢
  generalize m s = run at h ⊢
  rcases run with ⟨o, t⟩
  cases o with
  | ok a => exact ok a t h
  | error e => exact error e t h
  | crash => exact crash t h

theorem wp_mono {Q : Post σ ε α} (h : wp m s ⟨P, E, Q.crash⟩) (ok : ∀ a t, P a t → Q.ok a t)
    (error : ∀ e t, E e t → Q.error e t) : wp m s Q :=
  wp_conseq h ok error fun _ c => c

theorem wp_imp {Q : Post σ ε α} (h : wp m s ⟨P, Q.error, Q.crash⟩)
    (ok : ∀ a t, P a t → Q.ok a t) : wp m s Q :=
  wp_mono h ok fun _ _ e => e

theorem wp_sure {Q : Post σ ε α} (h : wp m s ⟨P, fun _ _ => False, Q.crash⟩)
    (ok : ∀ a t, P a t → Q.ok a t) : wp m s Q :=
  wp_mono h ok fun _ _ e => e.elim

/-- A procedure that may neither fail nor be cut off returns. -/
theorem returns_of_wp {P : α → σ → Prop} (h : wp m s ⟨P, fun _ _ => False, fun _ => False⟩) :
    ∃ a t, m s = (.ok a, t) ∧ P a t := by
  unfold wp at h
  generalize m s = run at h ⊢
  rcases run with ⟨o, t⟩
  cases o with
  | ok a => exact ⟨a, t, rfl, h⟩
  | error e => exact h.elim
  | crash => exact h.elim

@[simp] theorem wp_pure (a : α) (Q : Post σ ε α) :
    wp (Pure.pure a : Proc σ ε α) s Q ↔ Q.ok a s := Iff.rfl

@[simp] theorem wp_fail (e : ε) (Q : Post σ ε α) :
    wp (fail e : Proc σ ε α) s Q ↔ Q.error e s := Iff.rfl

@[simp] theorem wp_read (Q : Post σ ε σ) : wp (read : Proc σ ε σ) s Q ↔ Q.ok s s := Iff.rfl

@[simp] theorem wp_update (f : σ → σ) (Q : Post σ ε Unit) :
    wp (update f : Proc σ ε Unit) s Q ↔ Q.ok () (f s) := Iff.rfl

@[simp] theorem wp_bind (next : α → Proc σ ε β) (Q : Post σ ε β) :
    wp (m >>= next) s Q ↔ wp m s ⟨fun a t => wp (next a) t Q, Q.error, Q.crash⟩ := by
  change wp (Proc.bind m next) s Q ↔ _
  unfold wp Proc.bind
  rcases m s with ⟨o, t⟩
  cases o <;> exact Iff.rfl

theorem wp_step_or {next : α → Proc σ ε β} (h : wp m s ⟨P, E, Q.crash⟩)
    (ok : ∀ a t, P a t → wp (next a) t Q) (error : ∀ e t, E e t → Q.error e t) :
    wp (m >>= next) s Q :=
  (wp_bind next Q).mpr (wp_mono h ok error)

theorem wp_step {next : α → Proc σ ε β} (h : wp m s ⟨P, Q.error, Q.crash⟩)
    (ok : ∀ a t, P a t → wp (next a) t Q) : wp (m >>= next) s Q :=
  (wp_bind next Q).mpr (wp_imp h ok)

theorem wp_step_sure {next : α → Proc σ ε β} (h : wp m s ⟨P, fun _ _ => False, Q.crash⟩)
    (ok : ∀ a t, P a t → wp (next a) t Q) : wp (m >>= next) s Q :=
  (wp_bind next Q).mpr (wp_sure h ok)

theorem wp_ite {condition : Prop} [Decidable condition] {n : Proc σ ε α} {Q : Post σ ε α}
    (yes : condition → wp m s Q) (no : ¬ condition → wp n s Q) :
    wp (if condition then m else n) s Q := by
  split
  · exact yes ‹_›
  · exact no ‹_›

@[simp] theorem wp_attempt (Q : Post σ ε (Except ε α)) :
    wp (attempt m) s Q ↔
      wp m s ⟨fun a t => Q.ok (.ok a) t, fun e t => Q.ok (.error e) t, Q.crash⟩ := by
  unfold wp attempt
  rcases m s with ⟨o, t⟩
  cases o <;> exact Iff.rfl

@[simp] theorem wp_mapError (wrap : ε → ε) (Q : Post σ ε α) :
    wp (mapError wrap m) s Q ↔ wp m s ⟨Q.ok, fun e t => Q.error (wrap e) t, Q.crash⟩ := by
  unfold wp mapError
  rcases m s with ⟨o, t⟩
  cases o <;> exact Iff.rfl

theorem wp_step_attempt {next : Except ε α → Proc σ ε β} (h : wp m s ⟨P, E, Q.crash⟩)
    (ok : ∀ a t, P a t → wp (next (.ok a)) t Q)
    (error : ∀ e t, E e t → wp (next (.error e)) t Q) : wp (attempt m >>= next) s Q :=
  (wp_bind next Q).mpr ((wp_attempt _).mpr (wp_mono h ok error))

theorem wp_step_mapError {wrap : ε → ε} {next : α → Proc σ ε β} (h : wp m s ⟨P, E, Q.crash⟩)
    (ok : ∀ a t, P a t → wp (next a) t Q) (error : ∀ e t, E e t → Q.error (wrap e) t) :
    wp (mapError wrap m >>= next) s Q :=
  (wp_bind next Q).mpr ((wp_mapError wrap _).mpr (wp_mono h ok error))

/-- The loop rule: `inv` relates the elements still to come, the accumulator and the state. -/
theorem wp_fold {body : β → α → Proc σ ε β} (inv : List α → β → σ → Prop)
    (step : ∀ a rest acc s, inv (a :: rest) acc s →
      wp (body acc a) s ⟨inv rest, Q.error, Q.crash⟩) (done : ∀ acc s, inv [] acc s → Q.ok acc s) :
    ∀ xs acc s, inv xs acc s → wp (fold body xs acc) s Q := by
  intro xs
  induction xs with
  | nil =>
    intro acc s h
    exact done acc s h
  | cons a rest ih =>
    intro acc s h
    unfold fold
    rw [wp_bind]
    exact wp_imp (step a rest acc s h) (fun acc' t ht => ih acc' t ht)

end Rules

end Proc

end GuardWall.Foundation
