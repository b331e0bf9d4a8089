import Mathlib.Tactic.Common

/-! Go's `time.Time` as far as the controller depends on it: a wall-clock reading in
nanoseconds since the Unix epoch and, on values taken from the running process's clock, a
monotonic reading. Comparisons use the monotonic readings when both sides carry one; the
database keeps only whole microseconds of the wall clock. -/
namespace GuardWall.Core

abbrev Duration : Type := Int

def microsecond : Duration := 1000

def second : Duration := 1000000000

def minute : Duration := 60 * second

structure Instant where
  wall : Int
  mono : Option Int := none
  deriving DecidableEq, Repr

namespace Instant

/-- Go's zero `time.Time`, the first instant of year 1. -/
def zero : Instant := ⟨-62135596800 * second, none⟩

def isZero (t : Instant) : Bool := t.wall == zero.wall

def add (t : Instant) (d : Duration) : Instant := ⟨t.wall + d, t.mono.map (· + d)⟩

def after (t u : Instant) : Bool :=
  match t.mono, u.mono with
  | some a, some b => decide (b < a)
  | _, _ => decide (u.wall < t.wall)

def before (t u : Instant) : Bool := u.after t

def equal (t u : Instant) : Bool :=
  match t.mono, u.mono with
  | some a, some b => a == b
  | _, _ => t.wall == u.wall

def unixMicro (t : Instant) : Int := t.wall / microsecond

/-- `UnixMicro` is an `int64`, and not defined for the times out of its range. -/
def ranged (t : Instant) : Bool :=
  decide (-9223372036854775808 ≤ t.unixMicro ∧ t.unixMicro ≤ 9223372036854775807)

/-- `time.UnixMicro(us).UTC()`. -/
def ofMicro (us : Int) : Instant := ⟨us * microsecond, none⟩

/-- `t.UTC().Truncate(time.Microsecond)`: the monotonic reading is dropped. -/
def truncateMicro (t : Instant) : Instant := ofMicro t.unixMicro

/-- The rejection `t.IsZero() || t.UTC().UnixMicro() <= 0`; the first disjunct implies the
second. -/
def unset (t : Instant) : Bool := decide (t.unixMicro ≤ 0)

@[simp] theorem unixMicro_ofMicro (us : Int) : (ofMicro us).unixMicro = us := by
  unfold unixMicro ofMicro microsecond
  exact Int.mul_ediv_cancel us (by decide)

theorem unset_of_isZero {t : Instant} (h : t.isZero = true) : t.unset = true := by
  have wall : t.wall = zero.wall := by simpa [isZero] using h
  simp [unset, unixMicro, wall, zero, second, microsecond]

@[simp] theorem after_ofMicro (a b : Int) : (ofMicro a).after (ofMicro b) = decide (b < a) := by
  have scale : b * microsecond < a * microsecond ↔ b < a := by
    unfold microsecond
    omega
  simp [after, ofMicro, scale]

end Instant

end GuardWall.Core
