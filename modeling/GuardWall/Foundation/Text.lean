import Mathlib.Tactic.IntervalCases

/-! Texts whose bytes are their characters, as numbers are written. -/
namespace GuardWall.Foundation

def Narrow (s : String) : Prop := s.utf8ByteSize = s.length

namespace Narrow

theorem append {s t : String} (hs : Narrow s) (ht : Narrow t) : Narrow (s ++ t) := by
  unfold Narrow at *
  rw [String.utf8ByteSize_append, String.length_append, hs, ht]

theorem ofList {cs : List Char} (h : ∀ c ∈ cs, c.utf8Size = 1) : Narrow (String.ofList cs) := by
  induction cs with
  | nil => rfl
  | cons c rest ih =>
    rw [show String.ofList (c :: rest) = String.singleton c ++ String.ofList rest by
      rw [← String.toList_inj]; simp]
    refine append ?_ (ih fun c member => h c (List.mem_cons_of_mem _ member))
    unfold Narrow
    rw [String.utf8ByteSize_singleton, String.length_singleton]
    exact h c List.mem_cons_self

theorem intercalate {s : String} {ts : List String} (hs : Narrow s) (h : ∀ t ∈ ts, Narrow t) :
    Narrow (s.intercalate ts) := by
  induction ts with
  | nil => rfl
  | cons t rest ih =>
    have later := ih fun t member => h t (List.mem_cons_of_mem _ member)
    have first := h t List.mem_cons_self
    cases rest with
    | nil => simpa using first
    | cons u rest =>
      rw [String.intercalate_cons_cons]
      exact (first.append hs).append later

end Narrow

theorem length_le_utf8ByteSize (s : String) : s.length ≤ s.utf8ByteSize := by
  obtain ⟨cs, rfl⟩ : ∃ cs, s = String.ofList cs := ⟨s.toList, by simp⟩
  induction cs with
  | nil => simp
  | cons c rest ih =>
    have one := Char.utf8Size_pos c
    rw [show String.ofList (c :: rest) = String.singleton c ++ String.ofList rest by
      rw [← String.toList_inj]; simp]
    rw [String.length_append, String.utf8ByteSize_append, String.utf8ByteSize_singleton,
      String.length_singleton]
    omega

theorem utf8Size_digitChar (n : Nat) : n.digitChar.utf8Size = 1 := by
  by_cases small : n < 16
  · interval_cases n <;> rfl
  · rw [Nat.digitChar_eq_star.mpr (not_lt.mp small)]
    rfl

theorem utf8Size_toDigits (base n : Nat) : ∀ c ∈ Nat.toDigits base n, c.utf8Size = 1 := by
  have core : ∀ fuel n ds, (∀ c ∈ ds, c.utf8Size = 1) →
      ∀ c ∈ Nat.toDigitsCore base fuel n ds, c.utf8Size = 1 := by
    intro fuel
    induction fuel with
    | zero => exact fun n ds h => h
    | succ fuel ih =>
      intro n ds h
      unfold Nat.toDigitsCore
      have extended : ∀ c ∈ (n % base).digitChar :: ds, c.utf8Size = 1 := by
        intro c member
        obtain rfl | member := List.mem_cons.mp member
        · exact utf8Size_digitChar _
        · exact h c member
      simp only
      split
      · exact extended
      · exact ih _ _ extended
  exact core _ _ _ (by simp)

theorem narrow_toString (n : Nat) : Narrow (toString n) :=
  Narrow.ofList (utf8Size_toDigits 10 n)

end GuardWall.Foundation
