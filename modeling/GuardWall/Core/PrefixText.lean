import GuardWall.Core.Prefix
import Mathlib.Data.List.TakeWhile
import Mathlib.Data.Nat.Digits.Lemmas

/-! `Prefix.String` is injective and short: what the sorted listings of prefixes and the size of a
response rest on. -/
namespace GuardWall.Core

open GuardWall.Foundation

section Digits

variable {base n m : Nat}

theorem mem_toDigits (many : 1 < base) {c : Char} (member : c ∈ Nat.toDigits base n) :
    ∃ d < base, c = d.digitChar := by
  induction n using Nat.strongRecOn with
  | ind n ih =>
    rw [Nat.toDigits_eq_if many] at member
    split at member
    · rename_i small
      exact ⟨n, small, List.mem_singleton.mp member⟩
    · rename_i large
      obtain member | member := List.mem_append.mp member
      · exact ih (n / base) (Nat.div_lt_self (by omega) many) member
      · exact ⟨n % base, Nat.mod_lt _ (by omega), List.mem_singleton.mp member⟩

theorem digitChar_inj {d e : Nat} (hd : d < 16) (he : e < 16) (h : d.digitChar = e.digitChar) :
    d = e := by
  have distinct : ∀ x y : Fin 16, x.val.digitChar = y.val.digitChar → x = y := by decide
  exact Fin.mk.inj (distinct ⟨d, hd⟩ ⟨e, he⟩ h)

theorem toDigits_inj (many : 1 < base) (few : base ≤ 16)
    (h : Nat.toDigits base n = Nat.toDigits base m) : n = m := by
  induction n using Nat.strongRecOn generalizing m with
  | ind n ih =>
    rw [Nat.toDigits_eq_if many, Nat.toDigits_eq_if many (n := m)] at h
    have last : ∀ k, k % base < 16 := fun k => (Nat.mod_lt k (by omega)).trans_le few
    split at h <;> split at h
    · exact digitChar_inj (by omega) (by omega) (List.cons.inj h).1
    · have := congrArg List.length h
      simp at this
    · have := congrArg List.length h
      simp at this
    · rename_i large _
      obtain ⟨front, digit⟩ := List.append_inj' h rfl
      have quotient := ih (n / base) (Nat.div_lt_self (by omega) many) front
      have remainder := digitChar_inj (last n) (last m) (List.cons.inj digit).1
      rw [← Nat.div_add_mod n base, ← Nat.div_add_mod m base, quotient, remainder]

theorem separator_notMem_toDigits (many : 1 < base) (few : base ≤ 16) {c : Char}
    (separator : c = '.' ∨ c = ':' ∨ c = '/' ∨ c = '\n') : c ∉ Nat.toDigits base n := by
  intro member
  obtain ⟨d, small, rfl⟩ := mem_toDigits many member
  have bound : d < 16 := small.trans_le few
  clear member
  interval_cases d <;> simp [Nat.digitChar] at separator

end Digits

section Joined

variable {x : Char} {xs ys : List (List Char)}

theorem intercalate_inj (hx : ∀ l ∈ xs, x ∉ l) (hy : ∀ l ∈ ys, x ∉ l) (xs_ne : xs ≠ [])
    (ys_ne : ys ≠ []) (h : [x].intercalate xs = [x].intercalate ys) : xs = ys := by
  rw [← List.splitOn_intercalate x hx xs_ne, h, List.splitOn_intercalate x hy ys_ne]

theorem intercalate_append (xs_ne : xs ≠ []) (ys_ne : ys ≠ []) :
    [x].intercalate (xs ++ ys) = [x].intercalate xs ++ x :: [x].intercalate ys := by
  induction xs with
  | nil => exact absurd rfl xs_ne
  | cons l rest ih =>
    cases rest with
    | nil =>
      cases ys with
      | nil => exact absurd rfl ys_ne
      | cons l' rest => simp [List.intercalate_cons_cons]
    | cons l' rest =>
      rw [List.cons_append, List.cons_append, List.intercalate_cons_cons, ← List.cons_append,
        ih (by simp), List.intercalate_cons_cons]
      simp

theorem mem_intercalate {c : Char} (h : c ∈ [x].intercalate xs) : c = x ∨ ∃ l ∈ xs, c ∈ l := by
  induction xs with
  | nil => simp at h
  | cons l rest ih =>
    cases rest with
    | nil => exact .inr ⟨l, by simp, by simpa using h⟩
    | cons l' rest =>
      rw [List.intercalate_cons_cons] at h
      simp only [List.append_assoc, List.mem_append, List.mem_singleton] at h
      obtain member | rfl | member := h
      · exact .inr ⟨l, List.mem_cons_self, member⟩
      · exact .inl rfl
      · obtain same | ⟨l'', inside, member⟩ := ih member
        · exact .inl same
        · exact .inr ⟨l'', List.mem_cons_of_mem _ inside, member⟩

end Joined

namespace Addr

theorem toList_dotted (bits : Nat) : (dotted bits).toList =
    ['.'].intercalate ([24, 16, 8, 0].map fun shift => Nat.toDigits 10 (bits >>> shift % 256)) := by
  unfold dotted
  rw [String.toList_intercalate, List.map_map]
  simp

variable {a b : Nat} {c : Char}

theorem dotted_inj (ha : a < 2 ^ 32) (hb : b < 2 ^ 32) (h : dotted a = dotted b) :
    a = b := by
  have free : ∀ c : Nat, ∀ l ∈ [24, 16, 8, 0].map fun shift => Nat.toDigits 10 (c >>> shift % 256),
      '.' ∉ l := by
    intro c l member
    obtain ⟨shift, _, rfl⟩ := List.mem_map.mp member
    exact separator_notMem_toDigits (by decide) (by decide) (.inl rfl)
  have joined := String.toList_inj.mpr h
  rw [toList_dotted, toList_dotted] at joined
  have bytes := intercalate_inj (free a) (free b) (by simp) (by simp) joined
  simp only [List.map_cons, List.map_nil, List.cons.injEq, and_true] at bytes
  obtain ⟨b3, b2, b1, b0⟩ := bytes
  have e3 := toDigits_inj (by decide) (by decide) b3
  have e2 := toDigits_inj (by decide) (by decide) b2
  have e1 := toDigits_inj (by decide) (by decide) b1
  have e0 := toDigits_inj (by decide) (by decide) b0
  simp only [Nat.shiftRight_eq_div_pow] at e3 e2 e1 e0
  omega

def pieces (gs : List Nat) : List (List Char) :=
  if gs = [] then [[]] else gs.map (Nat.toDigits 16)

theorem pieces_ne_nil (gs : List Nat) : pieces gs ≠ [] := by
  unfold pieces
  split
  · simp
  · simpa

theorem toList_hexGroups (gs : List Nat) :
    (hexGroups gs).toList = [':'].intercalate (pieces gs) := by
  unfold hexGroups pieces
  rw [String.toList_intercalate, List.map_map]
  split
  · rename_i empty
    rw [empty]
    rfl
  · congr 1
    exact List.map_congr_left fun g _ => String.toList_ofList

theorem colon_notMem_pieces {gs : List Nat} : ∀ l ∈ pieces gs, ':' ∉ l := by
  intro l member
  unfold pieces at member
  split at member
  · rw [List.mem_singleton.mp member]
    exact List.not_mem_nil
  · obtain ⟨g, _, rfl⟩ := List.mem_map.mp member
    exact separator_notMem_toDigits (by decide) (by decide) (.inr (.inl rfl))

theorem takeWhile_pieces (gs : List Nat) (rest : List (List Char)) :
    (pieces gs ++ [] :: rest).takeWhile (fun l => l != []) = gs.map (Nat.toDigits 16) := by
  unfold pieces
  split
  · rename_i empty
    rw [empty]
    rfl
  · rw [List.takeWhile_append_of_pos]
    · simp
    · intro l member
      obtain ⟨g, _, rfl⟩ := List.mem_map.mp member
      simp

theorem map_toDigits_inj {gs gs' : List Nat}
    (h : gs.map (Nat.toDigits 16) = gs'.map (Nat.toDigits 16)) : gs = gs' :=
  List.map_injective_iff.mpr (fun _ _ => toDigits_inj (by decide) (by decide)) h

theorem compressed_inj {t d t' d' : List Nat}
    (h : pieces t ++ [] :: pieces d = pieces t' ++ [] :: pieces d') : t = t' ∧ d = d' := by
  have front := congrArg (List.takeWhile fun l => l != []) h
  rw [takeWhile_pieces, takeWhile_pieces] at front
  have reversed : ∀ gs rest, ((pieces rest ++ [] :: pieces gs).reverse.takeWhile fun l => l != []) =
      (gs.map (Nat.toDigits 16)).reverse := by
    intro gs rest
    rw [List.reverse_append, List.reverse_cons]
    unfold pieces
    split
    · rename_i empty
      rw [empty]
      rfl
    · rw [List.append_assoc, List.takeWhile_append_of_pos]
      · simp
      · intro l member
        obtain ⟨g, _, rfl⟩ := List.mem_map.mp (List.mem_reverse.mp member)
        simp
  have back := congrArg (fun l => l.reverse.takeWhile fun l => l != []) h
  simp only [reversed] at back
  exact ⟨map_toDigits_inj front, map_toDigits_inj (List.reverse_injective back)⟩

theorem zeroRun_spec (gs : List Nat) :
    (zeroRun gs).2 = 0 ∨
      gs = gs.take (zeroRun gs).1 ++ List.replicate (zeroRun gs).2 0 ++
        gs.drop ((zeroRun gs).1 + (zeroRun gs).2) := by
  unfold zeroRun
  refine List.foldlRecOn (motive := fun best : Nat × Nat => best.2 = 0 ∨
    gs = gs.take best.1 ++ List.replicate best.2 0 ++ gs.drop (best.1 + best.2)) _ _ (.inl rfl) ?_
  intro best found start _
  dsimp only
  split
  · right
    obtain ⟨rest, whole⟩ := List.takeWhile_prefix (fun g => g == 0) (l := gs.drop start)
    have zeros : (gs.drop start).takeWhile (fun g => g == 0) =
        List.replicate ((gs.drop start).takeWhile (fun g => g == 0)).length 0 := by
      refine List.eq_replicate_of_mem ?_
      intro g member
      simpa using List.mem_takeWhile_imp member
    rw [← zeros, List.append_assoc, ← List.drop_drop]
    conv_lhs => rw [← List.take_append_drop start gs, ← whole]
    congr 2
    have tail := congrArg (List.drop ((gs.drop start).takeWhile fun g => g == 0).length) whole
    rwa [List.drop_left] at tail
  · exact found

theorem shiftRight_inj {k : Nat} (high : a >>> (k + 16) = b >>> (k + 16))
    (group : a >>> k % 65536 = b >>> k % 65536) : a >>> k = b >>> k := by
  rw [Nat.shiftRight_add, Nat.shiftRight_add, Nat.shiftRight_eq_div_pow _ 16,
    Nat.shiftRight_eq_div_pow _ 16] at high
  omega

theorem groups_inj (ha : a < 2 ^ 128) (hb : b < 2 ^ 128) (h : groups a = groups b) : a = b := by
  simp only [groups, List.map_cons, List.map_nil, List.cons.injEq, and_true] at h
  obtain ⟨g7, g6, g5, g4, g3, g2, g1, g0⟩ := h
  have top : a >>> 128 = b >>> 128 := by
    rw [Nat.shiftRight_eq_zero a 128 ha, Nat.shiftRight_eq_zero b 128 hb]
  exact shiftRight_inj (k := 0) (shiftRight_inj (shiftRight_inj (shiftRight_inj (shiftRight_inj
    (shiftRight_inj (shiftRight_inj (shiftRight_inj top g7) g6) g5) g4) g3) g2) g1) g0

theorem notMem_hexGroups (other : c = '.' ∨ c = '/' ∨ c = '\n') (gs : List Nat) :
    c ∉ (hexGroups gs).toList := by
  rw [toList_hexGroups]
  intro member
  obtain rfl | ⟨l, inside, member⟩ := mem_intercalate member
  · simp at other
  · unfold pieces at inside
    split at inside
    · rw [List.mem_singleton.mp inside] at member
      exact List.not_mem_nil member
    · obtain ⟨g, _, rfl⟩ := List.mem_map.mp inside
      refine separator_notMem_toDigits (by decide) (by decide) ?_ member
      exact other.imp_right .inr

theorem dot_mem_dotted (bits : Nat) : '.' ∈ (dotted bits).toList := by
  rw [toList_dotted]
  simp [List.intercalate_cons_cons]

def hexText (bits : Nat) : String :=
  if (zeroRun (groups bits)).2 = 0 then hexGroups (groups bits)
  else hexGroups ((groups bits).take (zeroRun (groups bits)).1) ++ "::" ++
    hexGroups ((groups bits).drop ((zeroRun (groups bits)).1 + (zeroRun (groups bits)).2))

theorem notMem_hexText (other : c = '.' ∨ c = '/' ∨ c = '\n') (bits : Nat) :
    c ∉ (hexText bits).toList := by
  unfold hexText
  split
  · exact notMem_hexGroups other _
  · rw [String.toList_append, String.toList_append]
    simp only [List.mem_append, notMem_hexGroups other, false_or, or_false]
    obtain rfl | rfl | rfl := other <;> decide

theorem toList_compressed (t d : List Nat) :
    (hexGroups t ++ "::" ++ hexGroups d).toList =
      [':'].intercalate (pieces t ++ [] :: pieces d) := by
  rw [intercalate_append (pieces_ne_nil t) (by simp), String.toList_append, String.toList_append,
    toList_hexGroups, toList_hexGroups]
  cases same : pieces d with
  | nil => exact absurd same (pieces_ne_nil d)
  | cons l rest =>
    rw [List.intercalate_cons_cons]
    simp

theorem length_groups (bits : Nat) : (groups bits).length = 8 := by
  simp [groups]

def spelled (bits : Nat) : List (List Char) :=
  if (zeroRun (groups bits)).2 = 0 then pieces (groups bits)
  else pieces ((groups bits).take (zeroRun (groups bits)).1) ++
    [] :: pieces ((groups bits).drop ((zeroRun (groups bits)).1 + (zeroRun (groups bits)).2))

theorem toList_hexText (bits : Nat) :
    (hexText bits).toList = [':'].intercalate (spelled bits) := by
  unfold hexText spelled
  split
  · exact toList_hexGroups _
  · exact toList_compressed _ _

theorem spelled_inj (h : hexText a = hexText b) : spelled a = spelled b := by
  have free : ∀ c, ∀ l ∈ spelled c, ':' ∉ l := by
    intro c l member
    unfold spelled at member
    split at member
    · exact colon_notMem_pieces l member
    · obtain member | member := List.mem_append.mp member
      · exact colon_notMem_pieces l member
      · obtain rfl | member := List.mem_cons.mp member
        · exact List.not_mem_nil
        · exact colon_notMem_pieces l member
  have filled : ∀ c, spelled c ≠ [] := by
    intro c
    unfold spelled
    split
    · exact pieces_ne_nil _
    · simp
  have chars := String.toList_inj.mpr h
  rw [toList_hexText, toList_hexText] at chars
  exact intercalate_inj (free a) (free b) (filled a) (filled b) chars

theorem pieces_groups (bits : Nat) : pieces (groups bits) = (groups bits).map (Nat.toDigits 16) :=
  if_neg (List.ne_nil_of_length_eq_add_one (length_groups bits))

theorem nil_notMem_pieces_groups (bits : Nat) : [] ∉ pieces (groups bits) := by
  rw [pieces_groups]
  simp

theorem groups_of_compressed (ha : (zeroRun (groups a)).2 ≠ 0) (hb : (zeroRun (groups b)).2 ≠ 0)
    (front : (groups a).take (zeroRun (groups a)).1 = (groups b).take (zeroRun (groups b)).1)
    (back : (groups a).drop ((zeroRun (groups a)).1 + (zeroRun (groups a)).2) =
      (groups b).drop ((zeroRun (groups b)).1 + (zeroRun (groups b)).2)) :
    groups a = groups b := by
  have whole := (zeroRun_spec (groups a)).resolve_left ha
  have whole' := (zeroRun_spec (groups b)).resolve_left hb
  have length := congrArg List.length whole
  have length' := congrArg List.length whole'
  rw [front, back] at length
  rw [List.length_append, List.length_append, List.length_replicate, length_groups] at length length'
  have run : (zeroRun (groups a)).2 = (zeroRun (groups b)).2 := by omega
  calc groups a = _ := whole
    _ = _ := by rw [front, back, run]
    _ = groups b := whole'.symm

theorem hexText_inj (ha : a < 2 ^ 128) (hb : b < 2 ^ 128) (h : hexText a = hexText b) : a = b := by
  refine groups_inj ha hb ?_
  have same := spelled_inj h
  unfold spelled at same
  split at same <;> split at same
  · rw [pieces_groups, pieces_groups] at same
    exact map_toDigits_inj same
  · exact absurd (same ▸ List.mem_append_right _ List.mem_cons_self) (nil_notMem_pieces_groups a)
  · exact absurd (same.symm ▸ List.mem_append_right _ List.mem_cons_self)
      (nil_notMem_pieces_groups b)
  · rename_i run run'
    obtain ⟨front, back⟩ := compressed_inj same
    exact groups_of_compressed run run' front back

theorem toText_v6 (bits : BitVec 128) : (v6 bits).toText =
    if bits.toNat >>> 32 = 65535 then "::ffff:" ++ dotted (bits.toNat % 4294967296)
    else hexText bits.toNat := rfl

theorem colon_mem_hexText (bits : Nat) : ':' ∈ (hexText bits).toList := by
  have two : ∀ {xs : List (List Char)}, 2 ≤ xs.length → ':' ∈ [':'].intercalate xs := by
    intro xs long
    obtain ⟨l, l', rest, rfl⟩ : ∃ l l' rest, xs = l :: l' :: rest := by
      match xs, long with
      | l :: l' :: rest, _ => exact ⟨l, l', rest, rfl⟩
    simp [List.intercalate_cons_cons]
  rw [toList_hexText]
  refine two ?_
  unfold spelled
  split
  · rw [pieces_groups, List.length_map, length_groups]
    decide
  · have := List.length_pos_iff.mpr (pieces_ne_nil ((groups bits).take (zeroRun (groups bits)).1))
    simp only [List.length_append, List.length_cons]
    omega

theorem notMem_dotted (other : c = ':' ∨ c = '/' ∨ c = '\n') (bits : Nat) :
    c ∉ (dotted bits).toList := by
  rw [toList_dotted]
  intro member
  obtain rfl | ⟨l, inside, member⟩ := mem_intercalate member
  · simp at other
  · obtain ⟨shift, _, rfl⟩ := List.mem_map.mp inside
    exact separator_notMem_toDigits (by decide) (by decide) (.inr other) member

theorem colon_mem_v6 (bits : BitVec 128) : ':' ∈ (v6 bits).toText.toList := by
  rw [toText_v6]
  split
  · rw [String.toList_append]
    simp
  · exact colon_mem_hexText _

theorem mapped_inj {a b : BitVec 128} (ha : a.toNat >>> 32 = 65535) (hb : b.toNat >>> 32 = 65535)
    (h : "::ffff:" ++ dotted (a.toNat % 4294967296) = "::ffff:" ++ dotted (b.toNat % 4294967296)) :
    a = b := by
  have chars := String.toList_inj.mpr h
  rw [String.toList_append, String.toList_append] at chars
  have low := dotted_inj (Nat.mod_lt _ (by decide)) (Nat.mod_lt _ (by decide))
    (String.toList_inj.mp (List.append_cancel_left chars))
  refine BitVec.eq_of_toNat_eq ?_
  rw [Nat.shiftRight_eq_div_pow] at ha hb
  omega

theorem toText_inj {a b : Addr} (h : a.toText = b.toText) : a = b := by
  cases a with
  | v4 a =>
    cases b with
    | v4 b => exact congrArg v4 (BitVec.eq_of_toNat_eq (dotted_inj a.isLt b.isLt h))
    | v6 b => exact absurd (h ▸ colon_mem_v6 b) (notMem_dotted (.inl rfl) _)
  | v6 a =>
    cases b with
    | v4 b => exact absurd (h ▸ colon_mem_v6 a) (notMem_dotted (.inl rfl) _)
    | v6 b =>
      have mapped : ∀ c : Nat, '.' ∈ ("::ffff:" ++ dotted c).toList := by
        intro c
        rw [String.toList_append]
        exact List.mem_append_right _ (dot_mem_dotted c)
      rw [toText_v6, toText_v6] at h
      split at h <;> split at h
      · rename_i ha hb
        exact congrArg v6 (mapped_inj ha hb h)
      · exact absurd (h ▸ mapped _) (notMem_hexText (.inl rfl) _)
      · exact absurd (h ▸ mapped _) (notMem_hexText (.inl rfl) _)
      · exact congrArg v6 (BitVec.eq_of_toNat_eq (hexText_inj a.isLt b.isLt h))

theorem notMem_toText (other : c = '/' ∨ c = '\n') (a : Addr) :
    c ∉ a.toText.toList := by
  cases a with
  | v4 bits => exact notMem_dotted (.inr other) _
  | v6 bits =>
    rw [toText_v6]
    split
    · rw [String.toList_append]
      simp only [List.mem_append, notMem_dotted (.inr other), or_false]
      obtain rfl | rfl := other <;> decide
    · exact notMem_hexText (.inr other) _

end Addr

theorem Cidr.toText_inj {c d : Cidr} (h : c.toText = d.toText) : c = d := by
  have chars := String.toList_inj.mpr h
  have joined : ∀ e : Cidr, e.toText.toList =
      ['/'].intercalate [e.addr.toText.toList, (toString e.bits).toList] := by
    intro e
    unfold Cidr.toText
    rw [String.toList_append, String.toList_append]
    simp [List.intercalate_cons_cons]
  have free : ∀ e : Cidr, ∀ l ∈ [e.addr.toText.toList, (toString e.bits).toList], '/' ∉ l := by
    intro e l member
    simp only [List.mem_cons, List.not_mem_nil, or_false] at member
    obtain rfl | rfl := member
    · exact e.addr.notMem_toText (.inl rfl)
    · rw [Nat.toString_eq_ofList_toDigits, String.toList_ofList]
      exact separator_notMem_toDigits (by decide) (by decide) (.inr (.inr (.inl rfl)))
  rw [joined, joined] at chars
  have parts := intercalate_inj (free c) (free d) (by simp) (by simp) chars
  simp only [List.cons.injEq, and_true, String.toList_inj] at parts
  obtain ⟨addr, bits⟩ := c
  obtain ⟨addr', bits'⟩ := d
  have address : addr = addr' := Addr.toText_inj parts.1
  have width : bits = bits' := by
    have digits := congrArg String.toList parts.2
    rw [Nat.toString_eq_ofList_toDigits, Nat.toString_eq_ofList_toDigits, String.toList_ofList,
      String.toList_ofList] at digits
    exact toDigits_inj (by decide) (by decide) digits
  subst address width
  rfl

theorem Cidr.newline_notMem_toText (c : Cidr) : '\n' ∉ c.toText.toList := by
  unfold Cidr.toText
  rw [String.toList_append, String.toList_append]
  simp only [List.mem_append, c.addr.notMem_toText (.inr rfl), false_or]
  rintro (slash | digit)
  · revert slash
    decide
  · rw [Nat.toString_eq_ofList_toDigits, String.toList_ofList] at digit
    exact separator_notMem_toDigits (by decide) (by decide) (.inr (.inr (.inr rfl))) digit

section Length

theorem length_intercalate_le {x : Char} {xs : List (List Char)} {n : Nat}
    (each : ∀ l ∈ xs, l.length ≤ n) : ([x].intercalate xs).length ≤ (n + 1) * xs.length := by
  induction xs with
  | nil => simp
  | cons l rest ih =>
    have first := each l List.mem_cons_self
    have later := ih fun l member => each l (List.mem_cons_of_mem _ member)
    cases rest with
    | nil =>
      simp
      omega
    | cons l' rest =>
      rw [List.intercalate_cons_cons, List.length_append, List.length_append, List.length_cons]
      simp only [List.length_cons, List.length_nil] at later ⊢
      rw [Nat.mul_add]
      omega

theorem Addr.length_dotted_le (bits : Nat) : (dotted bits).length ≤ 16 := by
  rw [← String.length_toList, toList_dotted]
  refine (length_intercalate_le (n := 3) ?_).trans (by simp)
  intro l member
  obtain ⟨shift, _, rfl⟩ := List.mem_map.mp member
  exact Nat.toDigits_length 10 _ 3 (by decide) ((Nat.mod_lt _ (by decide)).trans (by decide))

theorem Addr.length_hexGroups_le (gs : List Nat) (small : ∀ g ∈ gs, g < 65536) :
    (hexGroups gs).length ≤ 5 * gs.length := by
  rw [← String.length_toList]
  unfold hexGroups
  rw [String.toList_intercalate, List.map_map]
  refine (length_intercalate_le (n := 4) ?_).trans (by simp)
  intro l member
  obtain ⟨g, inside, rfl⟩ := List.mem_map.mp member
  rw [Function.comp_apply, String.toList_ofList]
  exact Nat.toDigits_length 16 _ 4 (by decide) (small g inside)

theorem Addr.length_hexText_le (bits : Nat) : (hexText bits).length ≤ 42 := by
  have small : ∀ g ∈ groups bits, g < 65536 := by
    intro g member
    obtain ⟨shift, _, rfl⟩ := List.mem_map.mp member
    exact Nat.mod_lt _ (by decide)
  unfold hexText
  split
  · exact (length_hexGroups_le _ small).trans (by rw [length_groups]; decide)
  · rename_i run
    have whole := congrArg List.length ((zeroRun_spec (groups bits)).resolve_left run)
    rw [List.length_append, List.length_append, length_groups] at whole
    have front := length_hexGroups_le ((groups bits).take (zeroRun (groups bits)).1)
      fun g member => small g (List.mem_of_mem_take member)
    have back := length_hexGroups_le
      ((groups bits).drop ((zeroRun (groups bits)).1 + (zeroRun (groups bits)).2))
      fun g member => small g (List.mem_of_mem_drop member)
    rw [String.length_append, String.length_append, show "::".length = 2 from rfl]
    omega

theorem Addr.length_toText_le (a : Addr) : a.toText.length ≤ 42 := by
  cases a with
  | v4 bits => exact (length_dotted_le _).trans (by decide)
  | v6 bits =>
    rw [toText_v6]
    split
    · rw [String.length_append, show "::ffff:".length = 7 from rfl]
      have := length_dotted_le (bits.toNat % 4294967296)
      omega
    · exact length_hexText_le _

theorem Cidr.length_toText_le (c : Cidr) : c.toText.length ≤ 46 := by
  unfold Cidr.toText
  rw [String.length_append, String.length_append, show "/".length = 1 from rfl]
  have address := c.addr.length_toText_le
  have width : (toString c.bits).length ≤ 3 := by
    rw [Nat.toString_eq_ofList_toDigits, String.length_ofList]
    refine Nat.toDigits_length 10 _ 3 (by decide) ?_
    have := c.bounded
    cases h : c.addr <;> rw [h] at this <;> simp only [Addr.bitLen] at this <;> omega
  omega

end Length

end GuardWall.Core
