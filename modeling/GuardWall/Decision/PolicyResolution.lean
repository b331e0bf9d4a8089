import GuardWall.Core.PrefixOverlap
import GuardWall.Core.PrefixText
import GuardWall.Decision.Transactions

/-! `policy_resolution.go`: how a managed policy relates to one target. Which part of the target
its prefixes cover depends on those that overlap it only; the digest of the relation does not. -/
namespace GuardWall.Decision

open GuardWall.Core GuardWall.Foundation GuardWall.Store

structure PolicyResolution where
  coverage : PolicyCoverage
  relationDigest : String := ""
  deriving DecidableEq, Repr

def dropRepeats : List Cidr → List Cidr
  | a :: b :: rest => if a = b then dropRepeats (b :: rest) else a :: dropRepeats (b :: rest)
  | short => short

def relationPrefixes (prefixes : List Prefix) : List Cidr :=
  dropRepeats ((prefixes.filterMap id).insertionSort fun a b => a.toText ≤ b.toText)

def canonicalPolicyRelationPrefixes (name : String) (prefixes : List Prefix) :
    Except Fault (List Cidr) := do
  reject (prefixes.any fun p => !p.canonical)
    ("policy " ++ name ++ " contains a non-canonical prefix")
  return relationPrefixes prefixes

/-- `anyPolicyOverlap`. Prefixes of different families never overlap. -/
def anyPolicyOverlap (target : Cidr) (prefixes : List Cidr) : Bool :=
  prefixes.any fun p => p.addr.bitLen == target.addr.bitLen && p.overlaps target

def coversAlone (target p : Cidr) : Bool :=
  p.addr.bitLen == target.addr.bitLen && decide (p.bits ≤ target.bits) && p.contains target.addr

/-- `policyUnionCovers` with the number of halvings that are left. -/
def policyUnionCoversWithin : Nat → Cidr → List Cidr → Bool
  | 0, target, prefixes => prefixes.any (coversAlone target)
  | left + 1, target, prefixes =>
      prefixes.any (coversAlone target) ||
        anyPolicyOverlap target prefixes &&
          if more : target.bits < target.addr.bitLen then
            policyUnionCoversWithin left (target.firstHalf more) prefixes &&
              policyUnionCoversWithin left (target.secondHalf more) prefixes
          else false

def policyUnionCovers (target : Cidr) (prefixes : List Cidr) : Bool :=
  policyUnionCoversWithin (target.addr.bitLen - target.bits) target prefixes

/-- The text `policyRelationDigest` hashes. -/
def policyRelationText (target : Cidr) (allowlist protectedTargets : List Cidr) : String :=
  let parts := ("target:" ++ target.toText) ::
    (allowlist.map (fun p => "allow:" ++ p.toText) ++
      protectedTargets.map fun p => "protected:" ++ p.toText)
  "guard-policy-relation/v1\n" ++
    String.intercalate "\n" (parts.insertionSort (· ≤ ·))

def resolvePolicy (hash : Hash String) (target : Prefix) (allowlists protectedTargets : List Prefix) :
    Except Fault PolicyResolution := do
  reject (!target.canonical) "policy target must be canonical"
  let allowlist ← canonicalPolicyRelationPrefixes "allowlist" allowlists
  let guarded ← canonicalPolicyRelationPrefixes "protected targets" protectedTargets
  match target with
  | none => .error (.text "policy target must be canonical")
  | some t =>
      if !anyPolicyOverlap t (allowlist ++ guarded) then return { coverage := .none }
      else
        return {
          coverage := if policyUnionCovers t (allowlist ++ guarded) then .full else .partly
          relationDigest := hash.hex (policyRelationText t allowlist guarded) }

section Coverage

variable {target : Cidr} {xs ys : List Cidr}

def Agree (target : Cidr) (xs ys : List Cidr) : Prop :=
  ∀ p, p.overlaps target = true → (p ∈ xs ↔ p ∈ ys)

theorem Agree.within {part : Cidr} (h : Agree target xs ys) (inside : part.Within target) :
    Agree part xs ys := fun p overlap => h p (Cidr.overlaps_of_within inside overlap)

theorem Agree.append {xs' ys' : List Cidr} (h : Agree target xs ys) (h' : Agree target xs' ys') :
    Agree target (xs ++ xs') (ys ++ ys') := by
  intro p overlap
  rw [List.mem_append, List.mem_append, h p overlap, h' p overlap]

private theorem any_congr {test : Cidr → Bool} (h : Agree target xs ys)
    (local_ : ∀ p, test p = true → p.overlaps target = true) : xs.any test = ys.any test := by
  rw [Bool.eq_iff_iff, List.any_eq_true, List.any_eq_true]
  constructor
  · rintro ⟨p, member, passes⟩
    exact ⟨p, (h p (local_ p passes)).mp member, passes⟩
  · rintro ⟨p, member, passes⟩
    exact ⟨p, (h p (local_ p passes)).mpr member, passes⟩

theorem anyPolicyOverlap_congr (h : Agree target xs ys) :
    anyPolicyOverlap target xs = anyPolicyOverlap target ys :=
  any_congr h fun _ passes => (Bool.and_eq_true_iff.mp passes).2

theorem coversAlone_overlaps {p : Cidr} (h : coversAlone target p = true) :
    p.overlaps target = true := by
  simp only [coversAlone, Bool.and_eq_true, decide_eq_true_eq] at h
  exact Cidr.overlaps_of_contains h.1.2 h.2

theorem policyUnionCoversWithin_congr (left : Nat) (h : Agree target xs ys) :
    policyUnionCoversWithin left target xs = policyUnionCoversWithin left target ys := by
  induction left generalizing target with
  | zero => exact any_congr h fun _ => coversAlone_overlaps
  | succ left ih =>
    unfold policyUnionCoversWithin
    rw [any_congr h fun _ => coversAlone_overlaps, anyPolicyOverlap_congr h]
    congr 2
    split
    · rename_i more
      rw [ih (h.within (target.within_firstHalf more)), ih (h.within (target.within_secondHalf more))]
    · rfl

theorem policyUnionCovers_congr (h : Agree target xs ys) :
    policyUnionCovers target xs = policyUnionCovers target ys :=
  policyUnionCoversWithin_congr _ h

def Covered (target : Cidr) (xs : List Cidr) : Prop :=
  ∀ a, target.contains a = true → ∃ p ∈ xs, p.contains a = true

theorem covered_of_alone (h : xs.any (coversAlone target) = true) : Covered target xs := by
  intro a inside
  obtain ⟨p, member, covers⟩ := List.any_eq_true.mp h
  simp only [coversAlone, Bool.and_eq_true, decide_eq_true_eq] at covers
  have around : target.Within p := ⟨covers.1.2, (Cidr.contains_iff.mp covers.2).symm⟩
  exact ⟨p, member, Cidr.contains_of_within around inside⟩

theorem anyPolicyOverlap_iff :
    anyPolicyOverlap target xs = true ↔
      ∃ a, target.contains a = true ∧ ∃ p ∈ xs, p.contains a = true := by
  simp only [anyPolicyOverlap, List.any_eq_true, Bool.and_eq_true, beq_iff_eq,
    Cidr.overlaps_iff_contains]
  constructor
  · rintro ⟨p, member, _, a, inside, own⟩
    exact ⟨a, own, p, member, inside⟩
  · rintro ⟨a, own, p, member, inside⟩
    exact ⟨p, member, (Cidr.bitLen_of_contains inside).trans (Cidr.bitLen_of_contains own).symm, a,
      inside, own⟩

theorem policyUnionCoversWithin_iff {left : Nat}
    (canonical : target.addr.keep target.bits = target.addr)
    (size : target.addr.bitLen - target.bits = left) :
    policyUnionCoversWithin left target xs = true ↔ Covered target xs := by
  have own (c : Cidr) : c.contains c.addr = true := Cidr.contains_iff.mpr rfl
  induction left generalizing target with
  | zero =>
    -- A prefix with the only address of the target is not longer than it.
    refine ⟨covered_of_alone, fun covered => ?_⟩
    obtain ⟨p, member, inside⟩ := covered _ (own target)
    have family := Cidr.bitLen_of_contains inside
    have shorter : p.bits ≤ target.bits := by
      have := p.bounded
      omega
    exact List.any_eq_true.mpr ⟨p, member, by simp [coversAlone, family, shorter, inside]⟩
  | succ left ih =>
    have more : target.bits < target.addr.bitLen := by omega
    have first : policyUnionCoversWithin left (target.firstHalf more) xs = true ↔ _ :=
      ih (Addr.keep_keep le_rfl _) (by
        simp only [Cidr.firstHalf, Cidr.masked, Addr.bitLen_keep]
        omega)
    have second : policyUnionCoversWithin left (target.secondHalf more) xs = true ↔ _ :=
      ih (Addr.keep_keep le_rfl _) (by
        simp only [Cidr.secondHalf, Cidr.masked, Addr.bitLen_keep, Addr.bitLen_setBit]
        omega)
    rw [policyUnionCoversWithin, dif_pos more, Bool.or_eq_true, Bool.and_eq_true, Bool.and_eq_true,
      first, second]
    constructor
    · rintro (alone | ⟨_, first, second⟩)
      · exact covered_of_alone alone
      · exact fun a inside =>
          (Cidr.contains_half more canonical inside).elim (first a) (second a)
    · intro covered
      exact .inr ⟨anyPolicyOverlap_iff.mpr ⟨_, own target, covered _ (own target)⟩,
        fun a half => covered a (Cidr.contains_of_within (target.within_firstHalf more) half),
        fun a half => covered a (Cidr.contains_of_within (target.within_secondHalf more) half)⟩

end Coverage

section Lists

theorem mem_dropRepeats {p : Cidr} {xs : List Cidr} : p ∈ dropRepeats xs ↔ p ∈ xs := by
  fun_induction dropRepeats xs with
  | case1 b rest ih => simp [ih]
  | case2 a b rest _ ih => simp [ih]
  | case3 => rfl

structure Ordered (xs : List Cidr) : Prop where
  sorted : xs.Pairwise fun a b => a.toText ≤ b.toText
  nodup : xs.Nodup

theorem ordered_dropRepeats {xs : List Cidr} (h : xs.Pairwise fun a b => a.toText ≤ b.toText) :
    Ordered (dropRepeats xs) := by
  fun_induction dropRepeats xs with
  | case1 b rest ih => exact ih (List.pairwise_cons.mp h).2
  | case2 a b rest different ih =>
    obtain ⟨first, later⟩ := List.pairwise_cons.mp h
    obtain ⟨sorted, nodup⟩ := ih later
    refine ⟨List.pairwise_cons.mpr ⟨fun c member => first c (mem_dropRepeats.mp member), sorted⟩,
      List.nodup_cons.mpr ⟨fun repeated => ?_, nodup⟩⟩
    obtain same | member := List.mem_cons.mp (mem_dropRepeats.mp repeated)
    · exact different same
    · have texts := String.le_antisymm (first b List.mem_cons_self)
        ((List.pairwise_cons.mp later).1 a member)
      exact different (Cidr.toText_inj texts)
  | case3 xs short =>
    match xs, short with
    | [], _ => exact ⟨List.Pairwise.nil, List.nodup_nil⟩
    | [a], _ => exact ⟨List.pairwise_singleton _ _, List.nodup_singleton a⟩
    | a :: b :: rest, short => exact absurd rfl (short a b rest)

theorem Ordered.eq {xs ys : List Cidr} (first : Ordered xs) (second : Ordered ys)
    (same : ∀ p, p ∈ xs ↔ p ∈ ys) : xs = ys := by
  refine List.Perm.eq_of_pairwise ?_ first.sorted second.sorted
    ((List.perm_ext_iff_of_nodup first.nodup second.nodup).mpr same)
  exact fun a b _ _ before after => Cidr.toText_inj (String.le_antisymm before after)

instance : Std.Total fun a b : Cidr => a.toText ≤ b.toText :=
  ⟨fun a b => String.le_total a.toText b.toText⟩

instance : IsTrans Cidr fun a b => a.toText ≤ b.toText := ⟨fun _ _ _ h h' => String.le_trans h h'⟩

theorem mem_relationPrefixes {p : Cidr} {prefixes : List Prefix} :
    p ∈ relationPrefixes prefixes ↔ some p ∈ prefixes := by
  unfold relationPrefixes
  rw [mem_dropRepeats, List.mem_insertionSort]
  simp

theorem ordered_relationPrefixes (prefixes : List Prefix) : Ordered (relationPrefixes prefixes) :=
  ordered_dropRepeats (List.pairwise_insertionSort _ _)

theorem relationPrefixes_congr {xs ys : List Prefix} (same : ∀ p, p ∈ xs ↔ p ∈ ys) :
    relationPrefixes xs = relationPrefixes ys := by
  refine (ordered_relationPrefixes xs).eq (ordered_relationPrefixes ys) fun p => ?_
  rw [mem_relationPrefixes, mem_relationPrefixes, same]

end Lists

section Text

variable {target : Cidr} {xs ys xs' ys' : List Cidr}

def relationLines (target : Cidr) (allowlist protectedTargets : List Cidr) : List String :=
  ("target:" ++ target.toText) ::
    (allowlist.map (fun p => "allow:" ++ p.toText) ++
      protectedTargets.map fun p => "protected:" ++ p.toText)

private theorem newline_notMem_line {line : String} (h : line ∈ relationLines target xs ys) :
    '\n' ∉ line.toList := by
  have labelled : ∀ (label : String) (p : Cidr), '\n' ∉ label.toList →
      '\n' ∉ (label ++ p.toText).toList := by
    intro label p free
    rw [String.toList_append]
    simp [free, p.newline_notMem_toText]
  simp only [relationLines, List.mem_cons, List.mem_append, List.mem_map] at h
  obtain rfl | ⟨p, _, rfl⟩ | ⟨p, _, rfl⟩ := h
  · exact labelled _ _ (by decide)
  · exact labelled _ _ (by decide)
  · exact labelled _ _ (by decide)

theorem labelled_ne {label label' : String} (s s' : String) (nonempty : label.toList ≠ [])
    (nonempty' : label'.toList ≠ []) (heads : label.toList.head? ≠ label'.toList.head?) :
    label ++ s ≠ label' ++ s' := by
  intro same
  have chars := congrArg (fun s => s.toList.head?) same
  simp only [String.toList_append, List.head?_append_of_ne_nil _ nonempty,
    List.head?_append_of_ne_nil _ nonempty'] at chars
  exact heads chars

theorem mem_allowLine {p : Cidr} :
    "allow:" ++ p.toText ∈ relationLines target xs ys ↔ p ∈ xs := by
  simp only [relationLines, List.mem_cons, List.mem_append, List.mem_map]
  constructor
  · rintro (same | ⟨q, member, same⟩ | ⟨q, _, same⟩)
    · exact absurd same (labelled_ne _ _ (by decide) (by decide) (by decide))
    · rw [← Cidr.toText_inj ((String.append_right_inj _).mp same)]
      exact member
    · exact absurd same.symm (labelled_ne _ _ (by decide) (by decide) (by decide))
  · exact fun member => .inr (.inl ⟨p, member, rfl⟩)

theorem mem_protectedLine {p : Cidr} :
    "protected:" ++ p.toText ∈ relationLines target xs ys ↔ p ∈ ys := by
  simp only [relationLines, List.mem_cons, List.mem_append, List.mem_map]
  constructor
  · rintro (same | ⟨q, _, same⟩ | ⟨q, member, same⟩)
    · exact absurd same (labelled_ne _ _ (by decide) (by decide) (by decide))
    · exact absurd same.symm (labelled_ne _ _ (by decide) (by decide) (by decide))
    · rw [← Cidr.toText_inj ((String.append_right_inj _).mp same)]
      exact member
  · exact fun member => .inr (.inr ⟨p, member, rfl⟩)

theorem policyRelationText_inj
    (h : policyRelationText target xs ys = policyRelationText target xs' ys') :
    (∀ p, p ∈ xs ↔ p ∈ xs') ∧ ∀ p, p ∈ ys ↔ p ∈ ys' := by
  have joined := congrArg String.toList ((String.append_right_inj _).mp h)
  rw [String.toList_intercalate, String.toList_intercalate] at joined
  have free : ∀ zs zs' : List Cidr, ∀ l ∈
      ((relationLines target zs zs').insertionSort (· ≤ ·)).map String.toList, '\n' ∉ l := by
    intro zs zs' l member
    obtain ⟨line, inside, rfl⟩ := List.mem_map.mp member
    exact newline_notMem_line ((List.mem_insertionSort _).mp inside)
  have nonempty : ∀ zs zs' : List Cidr,
      ((relationLines target zs zs').insertionSort (· ≤ ·)).map String.toList ≠ [] := by
    intro zs zs' empty
    have length := congrArg List.length empty
    rw [List.length_map, List.length_insertionSort] at length
    cases length
  have sorted := intercalate_inj (free xs ys) (free xs' ys') (nonempty xs ys) (nonempty xs' ys')
    joined
  have lines : ∀ line, line ∈ relationLines target xs ys ↔ line ∈ relationLines target xs' ys' := by
    intro line
    rw [← List.mem_insertionSort (· ≤ ·),
      List.map_injective_iff.mpr (fun _ _ => String.toList_inj.mp) sorted, List.mem_insertionSort]
  refine ⟨fun p => ?_, fun p => ?_⟩
  · have first : "allow:" ++ p.toText ∈ relationLines target xs ys ↔ p ∈ xs := mem_allowLine
    rw [← first, lines, mem_allowLine]
  · have first : "protected:" ++ p.toText ∈ relationLines target xs ys ↔ p ∈ ys :=
      mem_protectedLine
    rw [← first, lines, mem_protectedLine]

end Text

/-- `ManagedPolicyTargetResolver`, with what its constructor checks. -/
structure ManagedPolicyTargetResolver where
  scopes : EnforcementScope
  nativeTimeoutSupported : Bool
  backendAttributesDigest : String
  supported : (scopes == 0#8 || unsupportedScope scopes) = false
  digestLength : backendAttributesDigest.length = 64

def ManagedPolicyTargetResolver.resolveTargetPolicy (r : ManagedPolicyTargetResolver)
    (hash : Hash String) : Resolver := fun policy projection =>
  match policy with
  | none => .error (.wrap "read managed policy" (.wrap "read managed policy"
      (.wrap "policy rows are missing" (.text "managed policy is uninitialized"))))
  | some (_, policy) => do
      let resolution ← within "resolve managed policy relation"
        (resolvePolicy hash projection.canonicalTarget policy.allowlist policy.protectedTargets)
      return {
        coverage := resolution.coverage
        relationDigest := resolution.relationDigest
        scopes := r.scopes
        nativeTimeoutSupported := r.nativeTimeoutSupported
        backendAttributesDigest := r.backendAttributesDigest }

section Replacement

variable {hash : Hash String} {target : Prefix} {a b : PolicyIntent}

def Managed (p : PolicyIntent) : Prop :=
  (∀ x ∈ p.allowlist, x.canonical = true) ∧ ∀ x ∈ p.protectedTargets, x.canonical = true

structure DifferElsewhere (target : Prefix) (a b : PolicyIntent) : Prop where
  allowlist : ∀ p : Prefix, p.overlaps target = true → (p ∈ a.allowlist ↔ p ∈ b.allowlist)
  protectedTargets : ∀ p : Prefix, p.overlaps target = true →
    (p ∈ a.protectedTargets ↔ p ∈ b.protectedTargets)

def Untouched (target : Prefix) (p : PolicyIntent) : Prop :=
  ∀ x ∈ p.allowlist ++ p.protectedTargets, x.overlaps target = false

def SamePrefixes (a b : PolicyIntent) : Prop :=
  (∀ p, p ∈ a.allowlist ↔ p ∈ b.allowlist) ∧ ∀ p, p ∈ a.protectedTargets ↔ p ∈ b.protectedTargets

def relationText (target : Cidr) (p : PolicyIntent) : String :=
  policyRelationText target (relationPrefixes p.allowlist) (relationPrefixes p.protectedTargets)

def Collide (hash : Hash String) (target : Prefix) (a b : PolicyIntent) : Prop :=
  ∃ t, target = some t ∧ relationText t a ≠ relationText t b ∧
    hash.hex (relationText t a) = hash.hex (relationText t b)

def resolution (hash : Hash String) (target : Cidr) (p : PolicyIntent) : PolicyResolution :=
  let related := relationPrefixes p.allowlist ++ relationPrefixes p.protectedTargets
  if anyPolicyOverlap target related then
    { coverage := if policyUnionCovers target related then .full else .partly
      relationDigest := hash.hex (relationText target p) }
  else { coverage := .none }

theorem resolvePolicy_eq {t : Cidr} (canonical : Prefix.canonical (some t) = true)
    (managed : Managed a) :
    resolvePolicy hash (some t) a.allowlist a.protectedTargets = .ok (resolution hash t a) := by
  have accepted : ∀ (name : String) (prefixes : List Prefix),
      (∀ x ∈ prefixes, x.canonical = true) →
      canonicalPolicyRelationPrefixes name prefixes = .ok (relationPrefixes prefixes) := by
    intro name prefixes all
    have fine : (prefixes.any fun p => !p.canonical) = false := by simpa using all
    unfold canonicalPolicyRelationPrefixes
    rw [fine]
    rfl
  unfold resolvePolicy resolution
  rw [canonical, accepted _ _ managed.1, accepted _ _ managed.2]
  simp only [reject, Bool.not_true, Bool.false_eq_true, if_false, bind, Except.bind]
  cases anyPolicyOverlap t
    (relationPrefixes a.allowlist ++ relationPrefixes a.protectedTargets) <;> rfl

variable {t : Cidr}

theorem DifferElsewhere.agree (h : DifferElsewhere (some t) a b) :
    Agree t (relationPrefixes a.allowlist ++ relationPrefixes a.protectedTargets)
      (relationPrefixes b.allowlist ++ relationPrefixes b.protectedTargets) := by
  refine Agree.append ?_ ?_
  · intro p overlap
    rw [mem_relationPrefixes, mem_relationPrefixes]
    exact h.allowlist (some p) overlap
  · intro p overlap
    rw [mem_relationPrefixes, mem_relationPrefixes]
    exact h.protectedTargets (some p) overlap

theorem DifferElsewhere.coverage (h : DifferElsewhere (some t) a b) :
    (resolution hash t a).coverage = (resolution hash t b).coverage := by
  unfold resolution
  dsimp only
  rw [anyPolicyOverlap_congr h.agree, policyUnionCovers_congr h.agree]
  split <;> rfl

theorem anyPolicyOverlap_eq_false : Untouched (some t) a ↔ anyPolicyOverlap t
    (relationPrefixes a.allowlist ++ relationPrefixes a.protectedTargets) = false := by
  unfold anyPolicyOverlap
  rw [List.any_eq_false]
  constructor
  · intro untouched p member
    have apart := untouched (some p) (by
      rw [List.mem_append, mem_relationPrefixes, mem_relationPrefixes] at member
      rwa [List.mem_append])
    rw [show p.overlaps t = false from apart]
    simp
  · intro apart x member
    cases x with
    | none => rfl
    | some p =>
      have here := apart p (by
        rw [List.mem_append] at member
        rwa [List.mem_append, mem_relationPrefixes, mem_relationPrefixes])
      rw [Prefix.overlaps, Bool.eq_false_iff]
      intro overlap
      have family := congrArg Addr.bitLen ((p.overlaps_iff t).mp overlap)
      simp only [Addr.bitLen_keep] at family
      simp [overlap, family] at here

theorem relationText_eq_iff (managed : Managed a) (managed' : Managed b) :
    relationText t a = relationText t b ↔ SamePrefixes a b := by
  constructor
  · intro same
    obtain ⟨allowed, guarded⟩ := policyRelationText_inj same
    have lift : ∀ xs ys : List Prefix, (∀ x ∈ xs, x.canonical = true) →
        (∀ y ∈ ys, y.canonical = true) →
        (∀ p, p ∈ relationPrefixes xs ↔ p ∈ relationPrefixes ys) → ∀ p, p ∈ xs ↔ p ∈ ys := by
      intro xs ys first second same p
      cases p with
      | none =>
        constructor
        · exact fun member => nomatch first none member
        · exact fun member => nomatch second none member
      | some p =>
        rw [← mem_relationPrefixes, same p, mem_relationPrefixes]
    exact ⟨lift _ _ managed.1 managed'.1 allowed, lift _ _ managed.2 managed'.2 guarded⟩
  · rintro ⟨allowed, guarded⟩
    have same : ∀ xs ys : List Prefix, (∀ p, p ∈ xs ↔ p ∈ ys) →
        relationPrefixes xs = relationPrefixes ys := by
      intro xs ys members
      refine (ordered_relationPrefixes xs).eq (ordered_relationPrefixes ys) fun p => ?_
      rw [mem_relationPrefixes, mem_relationPrefixes, members]
    unfold relationText
    rw [same _ _ allowed, same _ _ guarded]

theorem resolution_eq_iff (managed : Managed a) (managed' : Managed b)
    (elsewhere : DifferElsewhere (some t) a b) :
    (resolution hash t a).relationDigest = (resolution hash t b).relationDigest ↔
      Untouched (some t) a ∨ SamePrefixes a b ∨ Collide hash (some t) a b := by
  have touched := anyPolicyOverlap_congr elsewhere.agree
  rw [anyPolicyOverlap_eq_false]
  unfold resolution
  dsimp only
  rw [← touched]
  cases anyPolicyOverlap t
      (relationPrefixes a.allowlist ++ relationPrefixes a.protectedTargets) with
  | false => simp
  | true =>
    simp only [if_true, Bool.true_eq_false, false_or]
    rw [← relationText_eq_iff managed managed']
    constructor
    · intro digest
      by_cases same : relationText t a = relationText t b
      · exact .inl same
      · exact .inr ⟨t, rfl, same, digest⟩
    · rintro (same | ⟨t', here, _, digest⟩)
      · rw [same]
      · cases here
        exact digest

theorem resolvePolicy_samePrefixes (canonical : Prefix.canonical (some t) = true)
    (managed : Managed a) (same : SamePrefixes a b) :
    resolvePolicy hash (some t) b.allowlist b.protectedTargets = .ok (resolution hash t a) := by
  rw [resolvePolicy_eq canonical ⟨fun x member => managed.1 x ((same.1 x).mpr member),
    fun x member => managed.2 x ((same.2 x).mpr member)⟩]
  unfold resolution relationText
  rw [relationPrefixes_congr same.1, relationPrefixes_congr same.2]

def InUnion (a : PolicyIntent) (x : Addr) : Prop :=
  ∃ p, some p ∈ a.allowlist ++ a.protectedTargets ∧ p.contains x = true

theorem resolution_coverage (canonical : Prefix.canonical (some t) = true) :
    ((resolution hash t a).coverage = .full ↔ ∀ x, t.contains x = true → InUnion a x) ∧
      ((resolution hash t a).coverage = .none ↔ ¬∃ x, t.contains x = true ∧ InUnion a x) := by
  have fixed : t.addr.keep t.bits = t.addr := by
    have same : t = t.masked := by simpa [Prefix.canonical, Prefix.masked] using canonical
    exact congrArg Cidr.addr same.symm
  have own : t.contains t.addr = true := Cidr.contains_iff.mpr rfl
  let related := relationPrefixes a.allowlist ++ relationPrefixes a.protectedTargets
  have covers : policyUnionCovers t related = true ↔ _ := policyUnionCoversWithin_iff fixed rfl
  have touches : anyPolicyOverlap t related = true ↔ _ := anyPolicyOverlap_iff
  have implied : policyUnionCovers t related = true → anyPolicyOverlap t related = true := fun h =>
    touches.mpr ⟨_, own, covers.mp h _ own⟩
  simp only [Covered, related, List.mem_append, mem_relationPrefixes] at covers touches
  simp only [InUnion, List.mem_append]
  rw [← covers, ← touches]
  unfold resolution
  cases overlap : anyPolicyOverlap t related <;> cases union : policyUnionCovers t related <;>
    simp_all [related]

theorem partly_iff {c : PolicyCoverage} {covered inside : Addr → Prop}
    (full : c = .full ↔ ∀ x, inside x → covered x) (none_ : c = .none ↔ ¬∃ x, inside x ∧ covered x) :
    c = .partly ↔ (∃ x, inside x ∧ covered x) ∧ ∃ x, inside x ∧ ¬covered x := by
  have some_ : (∃ x, inside x ∧ ¬covered x) ↔ ¬∀ x, inside x → covered x := by
    simp only [not_forall, exists_prop]
  rw [some_, ← full, ← not_not (a := ∃ x, inside x ∧ covered x), ← none_]
  cases c <;> simp

/-- Each target is one of three kinds, by the addresses it has in the union of the prefixes, and the
resolution says which; lists with the same members give the same. -/
theorem resolvePolicy_trichotomy {allowlist protectedTargets : List Prefix}
    (canonical : Prefix.canonical (some t) = true)
    (prefixes : ∀ x ∈ allowlist ++ protectedTargets, x.canonical = true) :
    let covered := fun x => ∃ p, some p ∈ allowlist ++ protectedTargets ∧ p.contains x = true
    ∃ r, resolvePolicy hash (some t) allowlist protectedTargets = .ok r ∧
      (r.coverage = .full ↔ ∀ x, t.contains x = true → covered x) ∧
      (r.coverage = .none ↔ ¬∃ x, t.contains x = true ∧ covered x) ∧
      (r.coverage = .partly ↔ (∃ x, t.contains x = true ∧ covered x) ∧
        ∃ x, t.contains x = true ∧ ¬covered x) ∧
      ∀ allow protect, (∀ p, p ∈ allowlist ↔ p ∈ allow) → (∀ p, p ∈ protectedTargets ↔ p ∈ protect) →
        resolvePolicy hash (some t) allow protect = .ok r := by
  intro covered
  let a : PolicyIntent := ⟨"", allowlist, protectedTargets⟩
  have managed : Managed a := ⟨fun x member => prefixes x (List.mem_append_left _ member),
    fun x member => prefixes x (List.mem_append_right _ member)⟩
  obtain ⟨full, none_⟩ := @resolution_coverage hash a t canonical
  exact ⟨resolution hash t a, resolvePolicy_eq canonical managed, full, none_, partly_iff full none_,
    fun allow protect same same' =>
      @resolvePolicy_samePrefixes hash a ⟨"", allow, protect⟩ t canonical managed ⟨same, same'⟩⟩

/-- Half of a network, listed twice. -/
theorem resolvePolicy_trichotomy_half :
    let c : Cidr := ⟨.v4 0xC0000200#32, 24, by decide⟩
    let half : Cidr := ⟨.v4 0xC0000200#32, 25, by decide⟩
    ∃ r, resolvePolicy (Reconcile.Sample.hash _) (some c) [some half, some half] [] = .ok r ∧
      r.coverage = .partly := by
  intro c half
  obtain ⟨r, _, _, _, partly, same⟩ := @resolvePolicy_trichotomy (Reconcile.Sample.hash _) c
    [some half] [] (by decide) (by decide)
  refine ⟨r, same _ _ (by simp) (by simp), partly.mpr ⟨⟨.v4 0xC0000201#32, ?_⟩, .v4 0xC0000281#32, ?_⟩⟩
  · exact ⟨by decide, half, by decide, by decide⟩
  · exact ⟨by decide, by simp [half]; decide⟩

def ManagedPolicyTargetResolver.targetPolicy (r : ManagedPolicyTargetResolver)
    (resolution : PolicyResolution) : TargetPolicy where
  coverage := resolution.coverage
  relationDigest := resolution.relationDigest
  scopes := r.scopes
  nativeTimeoutSupported := r.nativeTimeoutSupported
  backendAttributesDigest := r.backendAttributesDigest

theorem resolveTargetPolicy_eq (r : ManagedPolicyTargetResolver) {projection : Projection}
    {revision : Nat} (own : projection.canonicalTarget = some t)
    (canonical : Prefix.canonical (some t) = true) (managed : Managed a) :
    r.resolveTargetPolicy hash (some (revision, a)) projection =
      .ok (r.targetPolicy (resolution hash t a)) := by
  simp only [ManagedPolicyTargetResolver.resolveTargetPolicy, own, resolvePolicy_eq canonical managed]
  rfl

theorem equivalent_targetPolicy {r : ManagedPolicyTargetResolver} {projection : Projection}
    {i : Intent} {p q : PolicyResolution} (coverage : p.coverage = q.coverage)
    (before : i.equivalent (resolvedIntent projection (r.targetPolicy p) i.generation) = true) :
    i.equivalent (resolvedIntent projection (r.targetPolicy q) i.generation) = true ↔
      projection.state = .absent ∨ p.relationDigest = q.relationDigest := by
  simp only [Intent.equivalent, resolvedIntent, ManagedPolicyTargetResolver.targetPolicy,
    Bool.and_eq_true, beq_iff_eq] at before ⊢
  obtain ⟨⟨⟨⟨⟨⟨⟨⟨⟨h1, h2⟩, h3⟩, h4⟩, h5⟩, h6⟩, h7⟩, h8⟩, h9⟩, h10⟩ := before
  rw [h1, h2, h3, h4, h5, h6, h7, h8, h9, h10, coverage]
  cases projection.state <;> simp

end Replacement

section Generations

variable {resolver : Resolver} {hash : Hash String} {updatedAt : Instant}

variable {target : Prefix} {book book' : Book} {projection : Projection} {i : Intent}
  {a b : PolicyIntent}

theorem materializeEach_at {targets : List Prefix} {changed : Bool} (standing : Standing book)
    (distinct : targets.Nodup) (member : target ∈ targets)
    (listed : book.projections.lookup target = some projection)
    (found : intent? book.db target = some i)
    (h : materializeEach resolver updatedAt targets book = .ok (changed, book')) :
    ∃ policy j, resolver book.db.policy projection = .ok policy ∧
      intent? book'.db target = some j ∧
      (j.generation = i.generation ↔
        i.equivalent (resolvedIntent projection policy i.generation) = true) := by
  induction targets generalizing book changed with
  | nil => cases member
  | cons first rest ih =>
    simp only [materializeEach, bind_eq_ok] at h
    obtain ⟨⟨one, middle⟩, head, ⟨later, last⟩, others, h⟩ := h
    cases h
    obtain ⟨fresh, distinct⟩ := List.nodup_cons.mp distinct
    have step := finalized_materializeTarget standing head
    have tail := finalized_materializeEach step.standing distinct others
    by_cases here : target = first
    · subst here
      have settled : intent? last.db target = intent? middle.db target := by
        obtain rests | ⟨member, _⟩ := tail.each target
        · exact rests.1
        · exact absurd member fresh
      obtain ⟨projection', policy, listed', resolved, outcome⟩ :=
        materializeTarget_cases standing.keyed head
      rw [listed] at listed'
      cases listed'
      rw [settled]
      obtain ⟨_, rfl, old, found', _, same⟩ | ⟨_, j, _, _, _, next, _, _, _, rfl⟩ := outcome
      · rw [found] at found'
        cases found'
        exact ⟨policy, i, resolved, found, by simp [same]⟩
      · obtain ⟨differ, generation⟩ := next i found
        refine ⟨policy, persistIntent j, resolved, ?_, ?_⟩
        · exact intent?_write.trans (if_pos rfl)
        · simp [persistIntent, generation, differ]
    · obtain rests | ⟨member', _⟩ := step.each target
      · obtain ⟨projections, _⟩ := materializeTarget_rest head
        obtain ⟨policy, j, resolved, found', iff⟩ := ih step.standing distinct
          ((List.mem_cons.mp member).resolve_left here) (by rw [projections]; exact listed)
          (rests.1.trans found) others
        rw [step.policy] at resolved
        exact ⟨policy, j, resolved, found', iff⟩
      · exact absurd (List.mem_singleton.mp member') here

theorem generation_replace {t : Cidr} {r : ManagedPolicyTargetResolver} {revision : Nat}
    (canonical : Prefix.canonical (some t) = true) (managed : Managed a) (managed' : Managed b)
    (elsewhere : DifferElsewhere (some t) a b) (kept : book.Kept (r.resolveTargetPolicy hash))
    (stored : book.db.policy = some (revision, a))
    (listed : book.projections.lookup (some t) = some projection)
    (found : intent? book.db (some t) = some i)
    (h : replace (r.resolveTargetPolicy hash) hash revision b updatedAt book = .ok book') :
    ∃ j, intent? book'.db (some t) = some j ∧
      (j.generation = i.generation ↔ projection.state = .absent ∨
        Untouched (some t) a ∨ SamePrefixes a b ∨ Collide hash (some t) a b) := by
  have standing := kept.standing
  have own := standing.keyed.projections (some t) projection listed
  obtain ⟨i', policy, found', _, resolved, settled⟩ := kept.resolved (some t) projection listed
  rw [found] at found'
  cases found'
  rw [stored, resolveTargetPolicy_eq r own canonical managed] at resolved
  cases resolved
  obtain ⟨_, ⟨same, rfl⟩ | ⟨_, middle, _, made, rfl⟩⟩ := replace_cases h
  · rw [stored] at same
    cases same
    refine ⟨i, found, ?_⟩
    simp [SamePrefixes]
  obtain ⟨targets, distinct, all, made⟩ := materialize_cases made
  have member : some t ∈ targets := by
    rw [all, List.mem_map]
    exact ⟨projection, List.mem_map.mpr ⟨_, Table.mem_rows.mpr listed, rfl⟩, own⟩
  obtain ⟨policy', j, resolved', found', iff⟩ :=
    materializeEach_at (standing.withPolicy b) distinct member listed found made
  rw [Book.withPolicy, resolveTargetPolicy_eq r own canonical managed'] at resolved'
  cases resolved'
  refine ⟨j, found', iff.trans ?_⟩
  rw [equivalent_targetPolicy elsewhere.coverage settled,
    resolution_eq_iff managed managed' elsewhere]

/-- Two managed policies that differ only in prefixes disjoint from a target: its coverage is the
same. Its relation digest is the same exactly if no prefix overlaps the target or the prefixes are
the same, and these are the cases in which replacing one policy by the other, after any operations,
leaves the generation of a Present target as it is. (A collision of the hash would hide a
difference.) -/
theorem disjoint_policy_change_keeps_generation (canonical : target.canonical = true)
    (managed : Managed a) (managed' : Managed b) (elsewhere : DifferElsewhere target a b) :
    (∃ p q, resolvePolicy hash target a.allowlist a.protectedTargets = .ok p ∧
      resolvePolicy hash target b.allowlist b.protectedTargets = .ok q ∧
      p.coverage = q.coverage ∧
      (p.relationDigest = q.relationDigest ↔
        Untouched target a ∨ SamePrefixes a b ∨ Collide hash target a b)) ∧
    ∀ (r : ManagedPolicyTargetResolver) (digest : Hash (List String)) (nodeID : String)
      (ops : List Operation) (revision : Nat) (updatedAt : Instant) (after : Docket)
      (projection : Projection),
      let d := Docket.run (r.resolveTargetPolicy hash) hash digest
        { book := { db := { nodeID := nodeID } } } ops
      d.book.db.policy = some (revision, a) →
      d.book.projections.lookup target = some projection →
      (Operation.replacePolicy revision b updatedAt).attempt (r.resolveTargetPolicy hash) hash
        digest d = .ok after →
      ∃ i j, intent? d.book.db target = some i ∧ intent? after.book.db target = some j ∧
        (j.generation = i.generation ↔ projection.state = .absent ∨
          Untouched target a ∨ SamePrefixes a b ∨ Collide hash target a b) := by
  cases target with
  | none => cases canonical
  | some t =>
  refine ⟨⟨_, _, resolvePolicy_eq canonical managed, resolvePolicy_eq canonical managed',
    elsewhere.coverage, resolution_eq_iff managed managed' elsewhere⟩, ?_⟩
  intro r digest nodeID ops revision updatedAt after projection d stored listed h
  have kept : d.book.Kept (r.resolveTargetPolicy hash) := kept_run ops (kept_empty nodeID)
  obtain ⟨i, _, found, _⟩ := kept.resolved (some t) projection listed
  simp only [Operation.attempt, bind_eq_ok] at h
  obtain ⟨book, replaced, h⟩ := h
  cases h
  obtain ⟨j, found', iff⟩ :=
    generation_replace canonical managed managed' elsewhere kept stored listed found replaced
  exact ⟨i, j, found, found', iff⟩

end Generations

namespace Sample

open GuardWall.Reconcile.Sample

def parity : Hash String :=
  ⟨fun s => if s.toList.length % 2 = 0 then digest
    else "1111111111111111111111111111111111111111111111111111111111111111",
    fun s => by split <;> decide⟩

def subnet : Prefix := some ⟨.v4 0xC0000200#32, 24, by decide⟩

theorem bits_elsewhere : 8 ≤ (Addr.v4 0x0A000000#32).bitLen := by decide

def elsewhere : Prefix := some ⟨.v4 0x0A000000#32, 8, bits_elsewhere⟩

def allowing (allowlist : List Prefix) : PolicyIntent :=
  ⟨digest, allowlist, [Prefix.loopback4, Prefix.loopback6]⟩

def targetResolver : ManagedPolicyTargetResolver :=
  ⟨scopeInput, true, digest, by decide, by decide⟩

def bannedUnder (allowlist : List Prefix) : Docket :=
  Docket.run (targetResolver.resolveTargetPolicy parity) parity (hash _)
    { book := { db := { nodeID := nodeID } } }
    [.replacePolicy 0 (allowing allowlist) (second 1),
      .ban nodeID ⟨"decision", nodeID, target, second 2, none⟩ false]

def replaced (before after : List Prefix) : Except Fault Docket :=
  (Operation.replacePolicy 1 (allowing after) (second 3)).attempt
    (targetResolver.resolveTargetPolicy parity) parity (hash _) (bannedUnder before)

theorem managed_allowing {allowlist : List Prefix} (h : ∀ x ∈ allowlist, x.canonical = true) :
    Managed (allowing allowlist) := by
  refine ⟨h, ?_⟩
  show ∀ x ∈ [Prefix.loopback4, Prefix.loopback6], x.canonical = true
  decide

theorem differ_elsewhere (rest : List Prefix) :
    DifferElsewhere target (allowing rest) (allowing (elsewhere :: rest)) := by
  refine ⟨fun p overlap => ?_, fun p _ => Iff.rfl⟩
  have other : p ≠ elsewhere := by
    rintro rfl
    exact absurd overlap (by decide)
  simp [allowing, other]

theorem bannedUnder_reads :
    ((bannedUnder [subnet]).book.db.policy = some (1, allowing [subnet]) ∧
      (((intent? (bannedUnder [subnet]).book.db target).map Intent.generation = some 1) ∧
        ((replaced [subnet] [elsewhere, subnet]).toOption.bind
          fun d => intent? d.book.db target).map Intent.generation = some 2)) ∧
    (bannedUnder []).book.db.policy = some (1, allowing []) ∧
      ((bannedUnder []).book.projections.lookup target).isSome = true ∧
      (replaced [] [elsewhere]).isOk = true := by
  decide +kernel

/-- The allowlist covers a banned address and gets a prefix far from it: the digest of the address's
relation and its generation change. -/
theorem covered_target_moves : target.canonical = true ∧ Managed (allowing [subnet]) ∧
    Managed (allowing [elsewhere, subnet]) ∧
    DifferElsewhere target (allowing [subnet]) (allowing [elsewhere, subnet]) ∧
    (bannedUnder [subnet]).book.db.policy = some (1, allowing [subnet]) ∧
    (((intent? (bannedUnder [subnet]).book.db target).map Intent.generation = some 1) ∧
      ((replaced [subnet] [elsewhere, subnet]).toOption.bind
        fun d => intent? d.book.db target).map Intent.generation = some 2) := by
  exact ⟨by decide, managed_allowing (by decide), managed_allowing (by decide),
    differ_elsewhere _, bannedUnder_reads.1⟩

/-- No prefix overlaps the address: its generation stays. -/
theorem untouched_target_stays : ∃ after i j, replaced [] [elsewhere] = .ok after ∧
    intent? (bannedUnder []).book.db target = some i ∧ intent? after.book.db target = some j ∧
    j.generation = i.generation := by
  obtain ⟨_, stored, listed, done⟩ := bannedUnder_reads
  obtain ⟨projection, listed⟩ := Option.isSome_iff_exists.mp listed
  obtain ⟨after, done⟩ := isOk_iff.mp done
  obtain ⟨i, j, found, found', iff⟩ := (disjoint_policy_change_keeps_generation (by decide)
    (managed_allowing (by decide)) (managed_allowing (by decide)) (differ_elsewhere [])).2
    targetResolver (hash _) nodeID _ 1 (second 3) after projection stored listed done
  have untouched : Untouched target (allowing []) := by
    unfold Untouched
    decide
  exact ⟨after, i, j, done, found, found', iff.mpr (.inr (.inl untouched))⟩

end Sample

end GuardWall.Decision
