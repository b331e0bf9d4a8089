import Mathlib.Data.List.AList
import Mathlib.Data.List.Perm.Basic

/-! Finite maps as association lists with distinct keys, and iteration over them
in an order the map does not determine. -/
namespace GuardWall.Foundation

/-- A reordering of `xs` chosen by `order`: each element is inserted at the position the
next number of `order` picks among those already placed. -/
def reorder {α : Type} : List Nat → List α → List α
  | _, [] => []
  | order, x :: rest =>
      (reorder order.tail rest).insertIdx (order.headD 0 % (rest.length + 1)) x

theorem reorder_perm {α : Type} (order : List Nat) (xs : List α) :
    (reorder order xs).Perm xs := by
  induction xs generalizing order with
  | nil => exact List.Perm.refl _
  | cons x rest ih =>
    have length := (ih order.tail).length_eq
    have bound : order.headD 0 % (rest.length + 1) ≤ (reorder order.tail rest).length := by
      rw [length]
      exact Nat.lt_succ_iff.mp (Nat.mod_lt _ (Nat.succ_pos _))
    exact (List.perm_insertIdx x _ bound).trans ((ih order.tail).cons x)

abbrev Table (κ ν : Type) : Type := AList fun _ : κ => ν

namespace Table

variable {κ ν : Type}

def rows (t : Table κ ν) : List (κ × ν) := t.entries.map fun e => (e.1, e.2)

theorem nodup_rows_keys (t : Table κ ν) : (t.rows.map Prod.fst).Nodup := by
  have h := t.nodupKeys
  unfold List.NodupKeys at h
  unfold rows
  rw [List.map_map]
  exact h

def range (order : List Nat) (t : Table κ ν) : List (κ × ν) := reorder order t.rows

theorem nodup_range_keys (order : List Nat) (t : Table κ ν) :
    ((t.range order).map Prod.fst).Nodup :=
  (((reorder_perm order t.rows).map Prod.fst).nodup_iff).mpr t.nodup_rows_keys

variable [DecidableEq κ]

variable {t : Table κ ν} {k : κ} {v : ν}

theorem mem_rows : (k, v) ∈ t.rows ↔ t.lookup k = some v := by
  rw [← Option.mem_def, AList.mem_lookup_iff]
  unfold rows
  simp only [List.mem_map, Prod.mk.injEq]
  constructor
  · rintro ⟨⟨key, value⟩, member, rfl, rfl⟩
    exact member
  · intro member
    exact ⟨⟨k, v⟩, member, rfl, rfl⟩

theorem mem_range {order : List Nat} :
    (k, v) ∈ t.range order ↔ t.lookup k = some v := by
  unfold range
  rw [(reorder_perm order t.rows).mem_iff, mem_rows]

theorem lookup_insert {k' : κ} :
    (t.insert k v).lookup k' = if k' = k then some v else t.lookup k' := by
  split
  · rename_i same
    rw [same, AList.lookup_insert]
  · rename_i differ
    rw [AList.lookup_insert_ne differ]

theorem lookup_insert_eq_some {k' : κ} {w : ν} :
    (t.insert k v).lookup k' = some w ↔ k' = k ∧ v = w ∨ k' ≠ k ∧ t.lookup k' = some w := by
  rw [lookup_insert]
  split <;> simp [*]

theorem lookup_erase {k' : κ} :
    (t.erase k).lookup k' = if k' = k then none else t.lookup k' := by
  split
  · rename_i same
    rw [same, AList.lookup_erase]
  · rename_i differ
    rw [AList.lookup_erase_ne differ]

theorem lookup_erase_eq_some {k' : κ} {w : ν} :
    (t.erase k).lookup k' = some w ↔ k' ≠ k ∧ t.lookup k' = some w := by
  rw [lookup_erase]
  split <;> simp [*]

theorem erase_insert : (t.insert k v).erase k = t.erase k := by
  apply AList.ext
  change List.kerase k (AList.insert k v t).entries = List.kerase k t.entries
  rw [AList.entries_insert]
  exact List.kerase_cons_eq rfl

theorem insert_erase : (t.erase k).insert k v = t.insert k v := by
  apply AList.ext
  rw [AList.entries_insert, AList.entries_insert]
  congr 1
  exact List.kerase_of_notMem_keys (List.notMem_keys_kerase k t.nodupKeys)

theorem erase_of_none (absent : t.lookup k = none) : t.erase k = t := by
  apply AList.ext
  exact List.kerase_of_notMem_keys (AList.lookup_eq_none.mp absent)

theorem rows_insert_of_none (absent : t.lookup k = none) :
    rows (t.insert k v) = (k, v) :: t.rows := by
  rw [AList.lookup_eq_none] at absent
  unfold rows
  rw [AList.entries_insert_of_notMem absent, List.map_cons]

def isEmpty (t : Table κ ν) : Bool := t.entries.isEmpty

theorem isEmpty_iff : t.isEmpty = true ↔ ∀ k, t.lookup k = none := by
  unfold isEmpty
  rw [List.isEmpty_iff]
  constructor
  · intro empty k
    rw [AList.lookup_eq_none, AList.mem_keys, AList.keys, List.keys, empty]
    exact List.not_mem_nil
  · intro missing
    rw [List.eq_nil_iff_forall_not_mem]
    rintro ⟨k, v⟩ member
    have found := AList.mem_lookup_iff.mpr member
    rw [missing k] at found
    exact Option.not_mem_none _ found

theorem isEmpty_of_lookup (found : t.lookup k = some v) :
    t.isEmpty = false := by
  rw [Bool.eq_false_iff]
  intro empty
  rw [isEmpty_iff.mp empty k] at found
  cases found

end Table

end GuardWall.Foundation
