import GuardWall.Foundation.Text
import Mathlib.Tactic.Common

/-! `netip.Prefix`: the zero value or an address with a prefix length in range. -/
namespace GuardWall.Core

open GuardWall.Foundation

inductive Addr where
  | v4 (bits : BitVec 32)
  | v6 (bits : BitVec 128)
  deriving DecidableEq, Repr

namespace Addr

def bitLen : Addr → Nat
  | v4 _ => 32
  | v6 _ => 128

def is4 : Addr → Bool
  | v4 _ => true
  | v6 _ => false

def keep (n : Nat) : Addr → Addr
  | v4 bits => v4 (bits &&& (BitVec.allOnes 32 <<< (32 - n)))
  | v6 bits => v6 (bits &&& (BitVec.allOnes 128 <<< (128 - n)))

@[simp] theorem bitLen_keep (n : Nat) (a : Addr) : (a.keep n).bitLen = a.bitLen := by
  cases a <;> rfl

def dotted (bits : Nat) : String :=
  String.intercalate "." <|
    [24, 16, 8, 0].map fun shift => toString (bits >>> shift % 256)

def groups (bits : Nat) : List Nat :=
  [112, 96, 80, 64, 48, 32, 16, 0].map fun shift => bits >>> shift % 65536

def hexGroups (gs : List Nat) : String :=
  String.intercalate ":" (gs.map fun g => String.ofList (Nat.toDigits 16 g))

/-- The first longest run of at least two zero groups, as start and length. -/
def zeroRun (gs : List Nat) : Nat × Nat :=
  (List.range gs.length).foldl
    (fun best start =>
      let length := ((gs.drop start).takeWhile (· == 0)).length
      if 2 ≤ length ∧ best.2 < length then (start, length) else best)
    (0, 0)

/-- `Addr.String` -/
def toText : Addr → String
  | v4 bits => dotted bits.toNat
  | v6 bits =>
      if bits.toNat >>> 32 = 65535 then
        "::ffff:" ++ dotted (bits.toNat % 4294967296)
      else
        let gs := groups bits.toNat
        let (start, length) := zeroRun gs
        if length = 0 then hexGroups gs
        else hexGroups (gs.take start) ++ "::" ++ hexGroups (gs.drop (start + length))

end Addr

structure Cidr where
  addr : Addr
  bits : Nat
  bounded : bits ≤ addr.bitLen
  deriving DecidableEq, Repr

namespace Cidr

def masked (c : Cidr) : Cidr := ⟨c.addr.keep c.bits, c.bits, by simpa using c.bounded⟩

def toText (c : Cidr) : String := c.addr.toText ++ "/" ++ toString c.bits

/-- `Prefix.Overlaps` on two valid prefixes. -/
def overlaps (c d : Cidr) : Bool :=
  c == d ||
    (c.addr.is4 == d.addr.is4 &&
      (let shared := min c.bits d.bits
       shared == 0 || c.addr.keep shared == d.addr.keep shared))

end Cidr

/-- `netip.Prefix`; `none` is the zero value, the only invalid one the code meets. -/
abbrev Prefix : Type := Option Cidr

namespace Prefix

def isValid (p : Prefix) : Bool := p.isSome

def masked (p : Prefix) : Prefix := p.map Cidr.masked

/-- `p.IsValid() && p == p.Masked()` -/
def canonical (p : Prefix) : Bool := p.isSome && p == p.masked

def is4 : Prefix → Bool
  | none => false
  | some c => c.addr.is4

def toText : Prefix → String
  | none => "invalid Prefix"
  | some c => c.toText

def overlaps : Prefix → Prefix → Bool
  | some c, some d => c.overlaps d
  | _, _ => false

def loopback4 : Prefix := some ⟨.v4 0x7f000000#32, 8, by decide⟩

def loopback6 : Prefix := some ⟨.v6 1#128, 128, by decide⟩

end Prefix

private theorem Addr.narrow_dotted (bits : Nat) : Narrow (dotted bits) := by
  unfold dotted
  refine Narrow.intercalate rfl ?_
  intro t member
  obtain ⟨shift, _, rfl⟩ := List.mem_map.mp member
  exact narrow_toString _

private theorem Addr.narrow_hexGroups (gs : List Nat) : Narrow (hexGroups gs) := by
  unfold hexGroups
  refine Narrow.intercalate rfl ?_
  intro t member
  obtain ⟨g, _, rfl⟩ := List.mem_map.mp member
  exact Narrow.ofList (utf8Size_toDigits 16 g)

theorem Addr.narrow_toText (a : Addr) : Narrow a.toText := by
  cases a with
  | v4 bits => exact narrow_dotted _
  | v6 bits =>
    simp only [Addr.toText]
    split
    · exact Narrow.append rfl (narrow_dotted _)
    · split
      · exact narrow_hexGroups _
      · exact ((narrow_hexGroups _).append (show Narrow "::" from rfl)).append (narrow_hexGroups _)

theorem Prefix.narrow_toText (p : Prefix) : Narrow p.toText := by
  cases p with
  | none => rfl
  | some c => exact (c.addr.narrow_toText.append (show Narrow "/" from rfl)).append (narrow_toString _)

example : Prefix.loopback6.toText = "::1/128" := by decide

example : Prefix.loopback4.canonical = true := by decide

end GuardWall.Core
