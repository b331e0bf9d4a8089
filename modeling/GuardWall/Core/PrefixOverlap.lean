import GuardWall.Core.Prefix

/-! How prefixes lie to each other: two overlap if their common leading bits agree, so what
overlaps a half of a prefix overlaps the whole. -/
namespace GuardWall.Core

namespace Addr

theorem keep_keep {m n : Nat} (le : m ≤ n) (a : Addr) : (a.keep n).keep m = a.keep m := by
  cases a with
  | v4 bits =>
    refine congrArg v4 (BitVec.eq_of_getLsbD_eq fun i hi => ?_)
    simp only [BitVec.getLsbD_and, BitVec.getLsbD_shiftLeft, BitVec.getLsbD_allOnes]
    grind
  | v6 bits =>
    refine congrArg v6 (BitVec.eq_of_getLsbD_eq fun i hi => ?_)
    simp only [BitVec.getLsbD_and, BitVec.getLsbD_shiftLeft, BitVec.getLsbD_allOnes]
    grind

def setBit (n : Nat) : Addr → Addr
  | v4 bits => v4 (bits ||| (1#32 <<< (31 - n)))
  | v6 bits => v6 (bits ||| (1#128 <<< (127 - n)))

@[simp] theorem bitLen_setBit (n : Nat) (a : Addr) : (a.setBit n).bitLen = a.bitLen := by
  cases a <;> rfl

theorem keep_setBit {n : Nat} {a : Addr} (inside : n < a.bitLen) : (a.setBit n).keep n = a.keep n := by
  cases a with
  | v4 bits =>
    have inside : n < 32 := inside
    refine congrArg v4 (BitVec.eq_of_getLsbD_eq fun i hi => ?_)
    simp only [BitVec.getLsbD_and, BitVec.getLsbD_or, BitVec.getLsbD_shiftLeft,
      BitVec.getLsbD_allOnes, BitVec.getLsbD_one]
    grind
  | v6 bits =>
    have inside : n < 128 := inside
    refine congrArg v6 (BitVec.eq_of_getLsbD_eq fun i hi => ?_)
    simp only [BitVec.getLsbD_and, BitVec.getLsbD_or, BitVec.getLsbD_shiftLeft,
      BitVec.getLsbD_allOnes, BitVec.getLsbD_one]
    grind

theorem keep_bits {w n : Nat} (bits : BitVec w) (inside : n < w) :
    let kept := bits &&& (BitVec.allOnes w <<< (w - n))
    bits &&& (BitVec.allOnes w <<< (w - (n + 1))) = kept ∨
      bits &&& (BitVec.allOnes w <<< (w - (n + 1))) = kept ||| (1#w <<< (w - 1 - n)) := by
  cases bit : bits.getLsbD (w - 1 - n) <;> [left; right]
  all_goals
    refine BitVec.eq_of_getLsbD_eq fun i hi => ?_
    simp only [BitVec.getLsbD_and, BitVec.getLsbD_or, BitVec.getLsbD_shiftLeft,
      BitVec.getLsbD_allOnes, BitVec.getLsbD_one]
    grind

theorem keep_succ {n : Nat} {a : Addr} (inside : n < a.bitLen) :
    a.keep (n + 1) = a.keep n ∨ a.keep (n + 1) = (a.keep n).setBit n := by
  cases a with
  | v4 bits => exact (keep_bits bits inside).imp (congrArg v4) (congrArg v4)
  | v6 bits => exact (keep_bits bits inside).imp (congrArg v6) (congrArg v6)

theorem keep_zero_eq {a b : Addr} (family : a.is4 = b.is4) : a.keep 0 = b.keep 0 := by
  cases a <;> cases b <;> simp_all [is4, keep]

theorem is4_of_keep {m n : Nat} {a b : Addr} (h : a.keep m = b.keep n) : a.is4 = b.is4 := by
  cases a <;> cases b <;> first | rfl | cases h

end Addr

namespace Cidr

/-- `Prefix.Contains` for a valid prefix -/
def contains (c : Cidr) (a : Addr) : Bool := c.addr.keep c.bits == a.keep c.bits

theorem overlaps_iff (c d : Cidr) :
    c.overlaps d = true ↔ c.addr.keep (min c.bits d.bits) = d.addr.keep (min c.bits d.bits) := by
  unfold overlaps
  simp only [Bool.or_eq_true, beq_iff_eq, Bool.and_eq_true]
  constructor
  · rintro (rfl | ⟨family, none_ | shared⟩)
    · rfl
    · rw [none_]
      exact Addr.keep_zero_eq family
    · exact shared
  · intro shared
    exact .inr ⟨Addr.is4_of_keep shared, .inr shared⟩

def Within (d c : Cidr) : Prop := c.bits ≤ d.bits ∧ d.addr.keep c.bits = c.addr.keep c.bits

theorem overlaps_of_within {p c d : Cidr} (inside : Within d c) (h : p.overlaps d = true) :
    p.overlaps c = true := by
  rw [overlaps_iff] at h ⊢
  have narrower : min p.bits c.bits ≤ min p.bits d.bits := by
    have := inside.1
    omega
  calc p.addr.keep (min p.bits c.bits)
      = (p.addr.keep (min p.bits d.bits)).keep (min p.bits c.bits) :=
        (Addr.keep_keep narrower _).symm
    _ = (d.addr.keep (min p.bits d.bits)).keep (min p.bits c.bits) := by rw [h]
    _ = d.addr.keep (min p.bits c.bits) := Addr.keep_keep narrower _
    _ = (d.addr.keep c.bits).keep (min p.bits c.bits) := (Addr.keep_keep (min_le_right _ _) _).symm
    _ = (c.addr.keep c.bits).keep (min p.bits c.bits) := by rw [inside.2]
    _ = c.addr.keep (min p.bits c.bits) := Addr.keep_keep (min_le_right _ _) _

theorem overlaps_of_contains {p c : Cidr} (shorter : p.bits ≤ c.bits)
    (h : p.contains c.addr = true) : p.overlaps c = true := by
  rw [overlaps_iff, min_eq_left shorter]
  exact beq_iff_eq.mp h

/-- `netip.PrefixFrom(addr, bits+1).Masked()` of the two halves of a prefix that has halves. -/
def firstHalf (c : Cidr) (more : c.bits < c.addr.bitLen) : Cidr :=
  (⟨c.addr, c.bits + 1, more⟩ : Cidr).masked

def secondHalf (c : Cidr) (more : c.bits < c.addr.bitLen) : Cidr :=
  (⟨c.addr.setBit c.bits, c.bits + 1, (c.addr.bitLen_setBit _).symm ▸ more⟩ : Cidr).masked

theorem within_firstHalf (c : Cidr) (more : c.bits < c.addr.bitLen) :
    Within (c.firstHalf more) c :=
  ⟨Nat.le_succ _, Addr.keep_keep (Nat.le_succ _) _⟩

theorem within_secondHalf (c : Cidr) (more : c.bits < c.addr.bitLen) :
    Within (c.secondHalf more) c :=
  ⟨Nat.le_succ _, (Addr.keep_keep (Nat.le_succ _) _).trans (Addr.keep_setBit more)⟩

section Addresses

variable {c d : Cidr} {a : Addr}

theorem contains_iff : c.contains a = true ↔ c.addr.keep c.bits = a.keep c.bits := beq_iff_eq

theorem bitLen_of_contains (h : c.contains a = true) : c.addr.bitLen = a.bitLen := by
  simpa using congrArg Addr.bitLen (contains_iff.mp h)

theorem contains_of_within (inside : Within d c) (h : d.contains a = true) :
    c.contains a = true := by
  rw [contains_iff] at h ⊢
  rw [← inside.2, ← Addr.keep_keep inside.1, h, Addr.keep_keep inside.1]

theorem contains_half (more : c.bits < c.addr.bitLen) (canonical : c.addr.keep c.bits = c.addr)
    (h : c.contains a = true) :
    (c.firstHalf more).contains a = true ∨ (c.secondHalf more).contains a = true := by
  have size : c.bits < a.bitLen := bitLen_of_contains h ▸ more
  rw [contains_iff, canonical] at h
  simp only [contains_iff, firstHalf, secondHalf, masked, Addr.keep_keep le_rfl]
  refine (Addr.keep_succ size).imp (fun same => ?_) (fun same => ?_)
  all_goals rw [h, ← same, Addr.keep_keep le_rfl]

theorem overlaps_iff_contains :
    c.overlaps d = true ↔ ∃ a, c.contains a = true ∧ d.contains a = true := by
  simp only [overlaps_iff, contains_iff]
  constructor
  · intro h
    obtain le | le := le_total c.bits d.bits
    · exact ⟨d.addr, min_eq_left le ▸ h, rfl⟩
    · exact ⟨c.addr, rfl, min_eq_right le ▸ h.symm⟩
  · rintro ⟨a, first, second⟩
    have first := congrArg (Addr.keep (min c.bits d.bits)) first
    have second := congrArg (Addr.keep (min c.bits d.bits)) second
    rw [Addr.keep_keep (min_le_left _ _), Addr.keep_keep (min_le_left _ _)] at first
    rw [Addr.keep_keep (min_le_right _ _), Addr.keep_keep (min_le_right _ _)] at second
    exact first.trans second.symm

end Addresses

end Cidr

end GuardWall.Core
