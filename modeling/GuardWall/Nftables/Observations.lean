import GuardWall.Nftables.Backend
import Mathlib.Data.Finset.Card

/-! What Snapshot reports of the elements in the ban sets, whatever stands in them: the entries of a
prefix are merged into one observation, and an observation that cannot be built is left out. -/
namespace GuardWall.Nftables

open GuardWall.Core GuardWall.Firewall GuardWall.Foundation GuardWall.Enforcer GuardWall.Ipc

abbrev Entry : Type := ManagedScope × Listed

section Scopes

def orderedScopes (scopes : List ManagedScope) : List ManagedScope :=
  (if .input ∈ scopes then [.input] else []) ++ (if .forward ∈ scopes then [.forward] else [])

variable {scopes : List ManagedScope}

@[simp] theorem mem_orderedScopes {scope : ManagedScope} :
    scope ∈ orderedScopes scopes ↔ scope ∈ scopes := by
  unfold orderedScopes
  cases scope <;> simp

theorem nodup_orderedScopes (scopes : List ManagedScope) : (orderedScopes scopes).Nodup := by
  unfold orderedScopes
  split <;> split <;> simp

theorem orderedScopes_congr {scopes' : List ManagedScope}
    (same : ∀ scope, scope ∈ scopes ↔ scope ∈ scopes') :
    orderedScopes scopes = orderedScopes scopes' := by
  unfold orderedScopes
  simp only [same]

theorem nodup_scopes_iff :
    scopes.Nodup ↔ scopes.count .input ≤ 1 ∧ scopes.count .forward ≤ 1 := by
  rw [List.nodup_iff_count_le_one]
  constructor
  · intro each
    exact ⟨each .input, each .forward⟩
  · rintro ⟨input, forward⟩ scope
    cases scope with
    | input => exact input
    | forward => exact forward

theorem canonicalManagedScopes_eq_some {canonical : List ManagedScope} :
    canonicalManagedScopes scopes = some canonical ↔
      scopes.Nodup ∧ scopes ≠ [] ∧ orderedScopes scopes = canonical := by
  rw [nodup_scopes_iff]
  unfold canonicalManagedScopes
  split
  · rename_i refused
    simp only [Bool.or_eq_true, decide_eq_true_eq, List.isEmpty_iff] at refused
    refine iff_of_false (by simp) ?_
    rintro ⟨⟨input, forward⟩, some_, _⟩
    obtain (many | many) | empty := refused
    · omega
    · omega
    · exact some_ empty
  · rename_i fine
    simp only [Bool.or_eq_true, decide_eq_true_eq, List.isEmpty_iff, not_or, not_lt] at fine
    rw [Option.some.injEq]
    exact ⟨fun same => ⟨fine.1, fine.2, same⟩, fun h => h.2.2⟩

theorem canonicalManagedScopes_ordered (some_ : scopes ≠ []) :
    canonicalManagedScopes (orderedScopes scopes) = some (orderedScopes scopes) := by
  refine canonicalManagedScopes_eq_some.mpr ⟨nodup_orderedScopes _, ?_, ?_⟩
  · obtain ⟨scope, member⟩ := List.exists_mem_of_ne_nil scopes some_
    exact List.ne_nil_of_mem (mem_orderedScopes.mpr member)
  · exact orderedScopes_congr fun scope => mem_orderedScopes

end Scopes

section Merging

variable {entries : List Entry} {c : Cidr}

def entriesOf (c : Cidr) (entries : List Entry) : List Entry :=
  entries.filter fun p => p.2.cidr == c

theorem mem_entriesOf {p : Entry} : p ∈ entriesOf c entries ↔ p ∈ entries ∧ p.2.cidr = c := by
  simp [entriesOf]

def Seen.collect (prior : Option Seen) (entry : Entry) : Option Seen :=
  let prior := prior.getD {}
  some { scopes := prior.scopes ++ [entry.1], expiresUS := entry.2.expiresUS.or prior.expiresUS }

theorem lookup_merge (all : Table Cidr Seen) :
    (entries.foldl Seen.merge all).lookup c =
      (entriesOf c entries).foldl Seen.collect (all.lookup c) := by
  unfold entriesOf
  induction entries generalizing all with
  | nil => rfl
  | cons entry rest ih =>
    rw [List.foldl_cons, ih]
    unfold Seen.merge
    rw [Table.lookup_insert]
    by_cases same : entry.2.cidr = c
    · subst same
      rw [if_pos rfl, List.filter_cons_of_pos (by simp)]
      rfl
    · rw [if_neg (Ne.symm same), List.filter_cons_of_neg (by simpa using same)]

def latestExpiry (entries : List Entry) : Option Int :=
  entries.foldl (fun prior p => p.2.expiresUS.or prior) none

theorem foldl_collect (entries : List Entry) (prior : Seen) :
    entries.foldl Seen.collect (some prior) =
      some ⟨prior.scopes ++ entries.map Prod.fst,
        entries.foldl (fun prior p => p.2.expiresUS.or prior) prior.expiresUS⟩ := by
  induction entries generalizing prior with
  | nil => simp
  | cons entry rest ih =>
    rw [List.foldl_cons]
    change rest.foldl Seen.collect (some _) = _
    rw [ih]
    simp

theorem lookup_merged_eq_some {v : Seen} :
    (entries.foldl Seen.merge ∅).lookup c = some v ↔
      entriesOf c entries ≠ [] ∧
        v = ⟨(entriesOf c entries).map Prod.fst, latestExpiry (entriesOf c entries)⟩ := by
  rw [lookup_merge, AList.lookup_empty]
  cases mine : entriesOf c entries with
  | nil => simp
  | cons entry rest =>
    rw [List.foldl_cons]
    change rest.foldl Seen.collect (some ⟨[entry.1], entry.2.expiresUS.or none⟩) = _ ↔ _
    rw [foldl_collect]
    simp [latestExpiry, eq_comm]

theorem latestExpiry_mem (entries : List Entry) (prior : Option Int) :
    entries.foldl (fun prior p => p.2.expiresUS.or prior) prior = prior ∨
      ∃ p ∈ entries, entries.foldl (fun prior p => p.2.expiresUS.or prior) prior = p.2.expiresUS := by
  induction entries generalizing prior with
  | nil => exact .inl rfl
  | cons entry rest ih =>
    rw [List.foldl_cons]
    obtain kept | ⟨p, member, same⟩ := ih (entry.2.expiresUS.or prior)
    · cases own : entry.2.expiresUS with
      | none => exact .inl (by simpa [own] using kept)
      | some us => exact .inr ⟨entry, List.mem_cons_self, by simpa [own] using kept⟩
    · exact .inr ⟨p, List.mem_cons_of_mem _ member, same⟩

theorem exists_of_latestExpiry {us : Int} (latest : latestExpiry entries = some us) :
    ∃ p ∈ entries, p.2.expiresUS = some us := by
  obtain none_ | ⟨p, member, same⟩ := latestExpiry_mem entries none
  · cases none_.symm.trans latest
  · exact ⟨p, member, same.symm.trans latest⟩

theorem latestExpiry_eq_none (entries : List Entry) (prior : Option Int) :
    entries.foldl (fun prior p => p.2.expiresUS.or prior) prior = none ↔
      prior = none ∧ ∀ p ∈ entries, p.2.expiresUS = none := by
  induction entries generalizing prior with
  | nil => simp
  | cons entry rest ih =>
    rw [List.foldl_cons, ih, Option.or_eq_none_iff]
    simp only [List.mem_cons, forall_eq_or_imp]
    tauto

end Merging

section Observing

def observationOf (c : Cidr) (entries : List Entry) : TargetObservation where
  target := some c
  timeoutMode := if (latestExpiry entries).isSome then .native else .none
  effectiveUntilUS := latestExpiry entries
  scopes := orderedScopes (entries.map Prod.fst)

/-- `NewTargetObservation` takes the prefix with these entries. -/
structure Accepted (c : Cidr) (entries : List Entry) : Prop where
  managed : validManagedTarget (some c) = true
  scopes : (entries.map Prod.fst).Nodup
  some_ : entries ≠ []
  expires : ∀ us, latestExpiry entries = some us → 0 < us

theorem valid_observationOf {c : Cidr} {entries : List Entry} (some_ : entries ≠ []) :
    (observationOf c entries).valid = true ↔ validManagedTarget (some c) = true ∧
      ∀ us, latestExpiry entries = some us → 0 < us := by
  have named : entries.map Prod.fst ≠ [] := by simpa using some_
  have scopes := canonicalManagedScopes_ordered named
  unfold TargetObservation.valid observationOf
  simp only [scopes]
  cases until_ : latestExpiry entries with
  | none => simp
  | some us => simp

theorem observation_eq_some {c : Cidr} {entries : List Entry} {o : TargetObservation}
    (some_ : entries ≠ []) :
    Seen.observation c ⟨entries.map Prod.fst, latestExpiry entries⟩ = some o ↔
      Accepted c entries ∧ o = observationOf c entries := by
  unfold Seen.observation newTargetObservation
  by_cases distinct : (entries.map Prod.fst).Nodup
  · have canonical := canonicalManagedScopes_eq_some.mpr
      ⟨distinct, by simpa using some_, rfl⟩
    rw [canonical]
    change (if (observationOf c entries).valid = true then some (observationOf c entries) else none) =
      some o ↔ _
    by_cases valid : (observationOf c entries).valid = true
    · rw [if_pos valid, Option.some.injEq]
      obtain ⟨managed, expires⟩ := (valid_observationOf some_).mp valid
      exact ⟨fun same => ⟨⟨managed, distinct, some_, expires⟩, same.symm⟩, fun h => h.2.symm⟩
    · rw [if_neg valid]
      refine iff_of_false (by simp) ?_
      rintro ⟨accepted, _⟩
      exact valid ((valid_observationOf some_).mpr ⟨accepted.managed, accepted.expires⟩)
  · have refused : canonicalManagedScopes (entries.map Prod.fst) = none := by
      cases found : canonicalManagedScopes (entries.map Prod.fst) with
      | none => rfl
      | some canonical => exact absurd (canonicalManagedScopes_eq_some.mp found).1 distinct
    rw [refused]
    refine iff_of_false (by simp) ?_
    rintro ⟨accepted, _⟩
    exact distinct accepted.scopes

variable {order : List Nat} {sets : SetName → List Listed} {o : TargetObservation}

def rangedEntries (order : List Nat) (sets : SetName → List Listed) : List Entry :=
  banEntries sets (reorder order managedSets)

theorem rangedEntries_perm (order : List Nat) (sets : SetName → List Listed) :
    (rangedEntries order sets).Perm (banEntries sets managedSets) :=
  (reorder_perm order managedSets).flatMap_right _

theorem mem_targetObservations : o ∈ targetObservations order sets ↔
    ∃ c, Accepted c (entriesOf c (rangedEntries order sets)) ∧
      o = observationOf c (entriesOf c (rangedEntries order sets)) := by
  unfold targetObservations
  rw [List.mem_mergeSort, List.mem_filterMap]
  constructor
  · rintro ⟨⟨c, v⟩, member, made⟩
    obtain ⟨some_, rfl⟩ := lookup_merged_eq_some.mp (Table.mem_range.mp member)
    exact ⟨c, (observation_eq_some some_).mp made⟩
  · rintro ⟨c, accepted, rfl⟩
    refine ⟨(c, _), Table.mem_range.mpr (lookup_merged_eq_some.mpr ⟨accepted.some_, rfl⟩), ?_⟩
    exact (observation_eq_some accepted.some_).mpr ⟨accepted, rfl⟩

theorem nodup_targetObservations (order : List Nat) (sets : SetName → List Listed) :
    ((targetObservations order sets).map TargetObservation.target).Nodup := by
  unfold targetObservations
  rw [((List.mergeSort_perm _ _).map _).nodup_iff]
  generalize entries : (banEntries sets (reorder order managedSets)).foldl Seen.merge ∅ = all
  have keys := Table.nodup_range_keys order all
  have each : ∀ row ∈ all.range order, ∀ o, Seen.observation row.1 row.2 = some o →
      o.target = some row.1 := by
    rintro ⟨c, v⟩ member o made
    rw [Table.mem_range, ← entries] at member
    obtain ⟨some_, rfl⟩ := lookup_merged_eq_some.mp member
    obtain ⟨_, rfl⟩ := (observation_eq_some some_).mp made
    rfl
  generalize all.range order = rows at keys each
  induction rows with
  | nil => simp
  | cons row rest ih =>
    rw [List.map_cons, List.nodup_cons] at keys
    have later := ih keys.2 fun r member => each r (List.mem_cons_of_mem _ member)
    cases made : Seen.observation row.1 row.2 with
    | none =>
      simpa only [List.filterMap_cons, made] using later
    | some o =>
      simp only [List.filterMap_cons, made]
      rw [List.map_cons, List.nodup_cons]
      refine ⟨fun member => keys.1 ?_, later⟩
      obtain ⟨o', inside, same⟩ := List.mem_map.mp member
      obtain ⟨row', member', made'⟩ := List.mem_filterMap.mp inside
      have target := each row List.mem_cons_self o made
      have target' := each row' (List.mem_cons_of_mem _ member') o' made'
      rw [target, target', Option.some.injEq] at same
      exact same ▸ List.mem_map_of_mem member'

theorem targetObservations_eq_of_mem {order' : List Nat}
    (same : ∀ o, o ∈ targetObservations order sets ↔ o ∈ targetObservations order' sets) :
    targetObservations order sets = targetObservations order' sets := by
  have sorted : ∀ order, (targetObservations order sets).Pairwise fun a b =>
      decide (a.target.toText ≤ b.target.toText) = true := fun order =>
    List.pairwise_mergeSort (by simpa using fun a b c h h' => String.le_trans h h')
      (by simpa using fun a b => String.le_total _ _) _
  refine List.Perm.eq_of_pairwise ?_ (sorted order) (sorted order') ?_
  · intro a b inside inside' below above
    have text : a.target.toText = b.target.toText := by
      rw [decide_eq_true_eq] at below above
      exact String.le_antisymm below above
    rw [← same b] at inside'
    obtain ⟨c, _, rfl⟩ := mem_targetObservations.mp inside
    obtain ⟨d, _, rfl⟩ := mem_targetObservations.mp inside'
    rw [Cidr.toText_inj (show c.toText = d.toText from text)]
  · exact (List.perm_ext_iff_of_nodup (List.Nodup.of_map _ (nodup_targetObservations order sets))
      (List.Nodup.of_map _ (nodup_targetObservations order' sets))).mpr same

end Observing

section Reading

theorem bits_full (c : Cidr) : c.addr.bitLen ≤ c.addr.bitLen := le_rfl

def readAs (c : Cidr) : Cidr := if c.bits = 0 then ⟨c.addr, c.addr.bitLen, bits_full c⟩ else c

theorem parseElementPrefix_eq_some {c read : Cidr} :
    parseElementPrefix c = some read ↔ readAs c = read ∧ read = read.masked := by
  unfold parseElementPrefix
  change (if readAs c = (readAs c).masked then some (readAs c) else none) = some read ↔ _
  split
  · rename_i canonical
    rw [Option.some.injEq]
    constructor
    · rintro rfl
      exact ⟨rfl, canonical⟩
    · exact fun h => h.1
  · rename_i refused
    refine iff_of_false (by simp) ?_
    rintro ⟨rfl, canonical⟩
    exact refused canonical

def Element.listed (now : Reading) (e : Element) : Listed :=
  ⟨readAs e.cidr, e.remainingMS.map fun ms => expiryUnixMicro now (ms / 1000 : Nat)⟩

theorem listElement_eq_some {now : Reading} {e : Element} {item : Listed} :
    listElement now e = some item ↔ e.listed now = item ∧ e.legible = true ∧
      readAs e.cidr = (readAs e.cidr).masked ∧
      ∀ ms, e.remainingMS = some ms → 0 < expiryUnixMicro now (ms / 1000 : Nat) := by
  unfold listElement Element.listed
  cases seen : e.legible with
  | false => simp
  | true =>
    simp only [Bool.not_true, Bool.false_eq_true, if_false, Option.bind_eq_bind,
      Option.bind_eq_some_iff, parseElementPrefix_eq_some, true_and]
    cases left : e.remainingMS with
    | none =>
      simp only [Option.pure_def, Option.some.injEq, Option.map_none, reduceCtorEq,
        false_implies, implies_true, and_true]
      constructor
      · rintro ⟨read, ⟨rfl, canonical⟩, rfl⟩
        exact ⟨rfl, canonical⟩
      · rintro ⟨rfl, canonical⟩
        exact ⟨_, ⟨rfl, canonical⟩, rfl⟩
    | some ms =>
      simp only [Option.map_some, Option.some.injEq, forall_eq']
      constructor
      · rintro ⟨read, ⟨rfl, canonical⟩, made⟩
        split at made
        · cases made
        · rename_i positive
          exact ⟨Option.some.inj made, canonical, not_le.mp positive⟩
      · rintro ⟨rfl, canonical, positive⟩
        exact ⟨_, ⟨rfl, canonical⟩, if_neg (not_le.mpr positive)⟩

theorem nftSetElements_eq_some {now : Reading} {s : NftSet} {items : List Listed} :
    nftSetElements now s = some items ↔
      s.elements.map (Element.listed now) = items ∧ ∀ e ∈ s.elements, (listElement now e).isSome := by
  unfold nftSetElements
  generalize s.elements = elements
  induction elements generalizing items with
  | nil => simp
  | cons e rest ih =>
    rw [List.mapM_cons]
    simp only [Option.bind_eq_bind, Option.bind_eq_some_iff, Option.pure_def, Option.some.injEq, ih]
    constructor
    · rintro ⟨item, first, later, ⟨rfl, each⟩, rfl⟩
      refine ⟨?_, ?_⟩
      · rw [List.map_cons, (listElement_eq_some.mp first).1]
      · simpa [first] using each
    · rintro ⟨rfl, each⟩
      obtain ⟨item, first⟩ := Option.isSome_iff_exists.mp (each e List.mem_cons_self)
      refine ⟨item, first, _, ⟨rfl, fun x member => each x (List.mem_cons_of_mem _ member)⟩, ?_⟩
      rw [List.map_cons, (listElement_eq_some.mp first).1]

variable {now : Reading} {t : GuardTable}

structure Readable (now : Reading) (t : GuardTable) : Prop where
  sets : ∀ name, ∃ s, t.sets name = some s ∧ s.v4 = name.v4 ∧ s.timeout = name.isBan ∧
    ∀ e ∈ s.elements, (listElement now e).isSome
  hooked : ∀ scope, t.chains (.hooked scope) = some ⟨some scope, expectedRules scope⟩
  policy : ∃ markers, t.chains .guardPolicy = some ⟨none, markers⟩ ∧
    (markers = [.infrastructureMarker] ∨ markers = [.infrastructureMarker, .policyMarker] ∨
      markers = [.policyMarker, .infrastructureMarker])

theorem mem_managedSets (name : SetName) : name ∈ managedSets := by
  cases name with
  | allow v4 | protectedTargets v4 => cases v4 <;> decide
  | ban scope v4 => cases scope <;> cases v4 <;> decide

theorem mem_managedChains (name : ChainName) : name ∈ managedChains := by
  cases name with
  | hooked scope => cases scope <;> decide
  | guardPolicy => decide

theorem setConflict_eq_false {name : SetName} : t.setConflict now name = false ↔
    ∃ s, t.sets name = some s ∧ s.v4 = name.v4 ∧ s.timeout = name.isBan ∧
      ∀ e ∈ s.elements, (listElement now e).isSome := by
  unfold GuardTable.setConflict
  cases t.sets name with
  | none => simp
  | some s =>
    simp only [Bool.or_eq_false_iff, Bool.not_eq_false', validManagedSet, Bool.and_eq_true,
      beq_iff_eq, Option.some.injEq, exists_eq_left', and_assoc, Option.isNone_eq_false_iff]
    rw [Option.isSome_iff_exists]
    simp only [nftSetElements_eq_some, exists_eq_left']

theorem chainConflict_hooked {scope : ManagedScope}
    (rules : t.rules (.hooked scope) = expectedRules scope) :
    t.chainConflict (.hooked scope) = false ↔
      t.chains (.hooked scope) = some ⟨some scope, expectedRules scope⟩ := by
  unfold GuardTable.chainConflict
  unfold GuardTable.rules at rules
  cases found : t.chains (.hooked scope) with
  | none => simp
  | some chain =>
    obtain ⟨hook, own⟩ := chain
    rw [found] at rules
    obtain rfl : own = expectedRules scope := rules
    have expected : (expectedRules scope).all (validManagedRule (.hooked scope)) = true := by
      cases scope <;> decide
    simp [validManagedChain, expected]

theorem validMarkers_iff {markers : List Rule}
    (valid : ∀ rule ∈ markers, rule = .infrastructureMarker ∨ rule = .policyMarker) :
    (markers.length = 1 + markers.count .policyMarker ∧ markers.count .infrastructureMarker = 1 ∧
      markers.count .policyMarker ≤ 1) ↔
    (markers = [.infrastructureMarker] ∨ markers = [.infrastructureMarker, .policyMarker] ∨
      markers = [.policyMarker, .infrastructureMarker]) := by
  constructor
  · rintro ⟨length, once, few⟩
    match markers with
    | [] => simp at length
    | [a] =>
      obtain rfl | rfl := valid a (by simp)
      · exact .inl rfl
      · simp at once
    | [a, b] =>
      obtain rfl | rfl := valid a (by simp) <;> obtain rfl | rfl := valid b (by simp)
      · simp at once
      · exact .inr (.inl rfl)
      · exact .inr (.inr rfl)
      · simp at few
    | a :: b :: c :: rest =>
      simp only [List.length_cons] at length
      omega
  · rintro (rfl | rfl | rfl) <;> decide

theorem chainConflict_policy : t.chainConflict .guardPolicy = false ↔
    ∃ markers, t.chains .guardPolicy = some ⟨none, markers⟩ ∧
      ∀ rule ∈ markers, rule = .infrastructureMarker ∨ rule = .policyMarker := by
  unfold GuardTable.chainConflict
  cases t.chains .guardPolicy with
  | none => simp
  | some chain =>
    obtain ⟨hook, markers⟩ := chain
    simp [validManagedChain, validManagedRule]

/-- A ruleset is read without a conflict exactly if Guard would have laid it out so. -/
theorem conflict_eq_false_iff :
    (parseRuleset now (some t)).ownershipConflict = false ↔ Readable now t := by
  simp only [parseRuleset, Bool.or_eq_false_iff, Bool.not_eq_false', List.any_eq_false,
    Bool.not_eq_true, validManagedRuleCounts, Bool.and_eq_true, beq_iff_eq, decide_eq_true_eq]
  constructor
  · rintro ⟨⟨⟨sets, chains⟩, _⟩, ⟨⟨⟨length, once⟩, few⟩, input⟩, forward⟩
    have hooked : ∀ scope, t.rules (.hooked scope) = expectedRules scope := fun scope => by
      cases scope with
      | input => exact input
      | forward => exact forward
    obtain ⟨markers, found, valid⟩ := chainConflict_policy.mp (chains _ (mem_managedChains _))
    have rules : t.rules .guardPolicy = markers := by simp [GuardTable.rules, found]
    rw [rules] at length once few
    exact ⟨fun name => setConflict_eq_false.mp (sets name (mem_managedSets name)),
      fun scope => (chainConflict_hooked (hooked scope)).mp (chains _ (mem_managedChains _)),
      markers, found, (validMarkers_iff valid).mp ⟨length, once, few⟩⟩
  · rintro ⟨sets, hooked, markers, found, shape⟩
    have rules : ∀ scope, t.rules (.hooked scope) = expectedRules scope := fun scope => by
      simp [GuardTable.rules, hooked scope]
    have marked : t.rules .guardPolicy = markers := by simp [GuardTable.rules, found]
    have valid : ∀ rule ∈ markers, rule = .infrastructureMarker ∨ rule = .policyMarker := by
      obtain rfl | rfl | rfl := shape <;> simp
    have counts := (validMarkers_iff valid).mpr shape
    have owned : (t.rules .guardPolicy).contains .infrastructureMarker = true := by
      rw [marked]
      obtain rfl | rfl | rfl := shape <;> rfl
    refine ⟨⟨⟨fun name _ => setConflict_eq_false.mpr (sets name), ?_⟩, owned⟩, ?_⟩
    · intro name _
      cases name with
      | hooked scope => exact (chainConflict_hooked (rules scope)).mpr (hooked scope)
      | guardPolicy => exact chainConflict_policy.mpr ⟨markers, found, valid⟩
    · rw [marked]
      exact ⟨⟨⟨⟨counts.1, counts.2.1⟩, counts.2.2⟩, rules .input⟩, rules .forward⟩

theorem Readable.listed (readable : Readable now t) (name : SetName) :
    ∃ s, t.sets name = some s ∧
      (parseRuleset now (some t)).sets name = s.elements.map (Element.listed now) := by
  obtain ⟨s, found, _, _, each⟩ := readable.sets name
  refine ⟨s, found, ?_⟩
  simp only [parseRuleset, found, Option.bind_some]
  rw [nftSetElements_eq_some.mpr ⟨rfl, each⟩, Option.getD_some]

end Reading

section Entries

variable {sets : SetName → List Listed} {order : List Nat} {c : Cidr} {scope : ManagedScope}

def scopeCidrs (sets : SetName → List Listed) (scope : ManagedScope) : List Cidr :=
  (sets (.ban scope true)).map Listed.cidr ++ (sets (.ban scope false)).map Listed.cidr

theorem banEntries_managedSets (sets : SetName → List Listed) :
    banEntries sets managedSets =
      (sets (.ban .input true)).map (ManagedScope.input, ·) ++
      (sets (.ban .input false)).map (ManagedScope.input, ·) ++
      (sets (.ban .forward true)).map (ManagedScope.forward, ·) ++
      (sets (.ban .forward false)).map (ManagedScope.forward, ·) := by
  simp [banEntries, managedSets]

theorem count_scope_map (own : ManagedScope) (items : List Listed) :
    ((entriesOf c (items.map (own, ·))).map Prod.fst).count scope =
      if own = scope then (items.map Listed.cidr).count c else 0 := by
  unfold entriesOf
  induction items with
  | nil => simp
  | cons item rest ih =>
    by_cases same : item.cidr = c
    · rw [List.map_cons, List.filter_cons_of_pos (by simpa using same), List.map_cons,
        List.count_cons, ih, List.map_cons, List.count_cons, same]
      split <;> simp_all
    · rw [List.map_cons, List.filter_cons_of_neg (by simpa using same), ih, List.map_cons,
        List.count_cons_of_ne same]

theorem count_scope (order : List Nat) (sets : SetName → List Listed) (c : Cidr)
    (scope : ManagedScope) :
    ((entriesOf c (rangedEntries order sets)).map Prod.fst).count scope =
      (scopeCidrs sets scope).count c := by
  have perm : ((entriesOf c (rangedEntries order sets)).map Prod.fst).Perm
      ((entriesOf c (banEntries sets managedSets)).map Prod.fst) :=
    ((rangedEntries_perm order sets).filter _).map _
  have parts : ∀ xs ys : List Entry, entriesOf c (xs ++ ys) = entriesOf c xs ++ entriesOf c ys :=
    fun xs ys => List.filter_append ..
  rw [perm.count_eq, banEntries_managedSets]
  simp only [parts, List.map_append, List.count_append, count_scope_map, scopeCidrs]
  cases scope <;> simp

theorem mem_scopes : scope ∈ (entriesOf c (rangedEntries order sets)).map Prod.fst ↔
    c ∈ scopeCidrs sets scope := by
  rw [← List.count_pos_iff, count_scope, List.count_pos_iff]

theorem entriesOf_ne_nil : entriesOf c (rangedEntries order sets) ≠ [] ↔
    ∃ scope, c ∈ scopeCidrs sets scope := by
  constructor
  · intro some_
    obtain ⟨p, member⟩ := List.exists_mem_of_ne_nil _ some_
    exact ⟨p.1, mem_scopes.mp (List.mem_map_of_mem member)⟩
  · rintro ⟨scope, held⟩ none_
    have member : scope ∈ (entriesOf c (rangedEntries order sets)).map Prod.fst :=
      mem_scopes.mpr held
    rw [none_] at member
    cases member

theorem mem_rangedEntries {item : Listed} :
    (scope, item) ∈ rangedEntries order sets ↔ ∃ v4, item ∈ sets (.ban scope v4) := by
  rw [(rangedEntries_perm order sets).mem_iff, banEntries_managedSets]
  cases scope <;> simp [or_comm]

theorem accepted_iff (positive : ∀ name, ∀ item ∈ sets name, ∀ us, item.expiresUS = some us → 0 < us) :
    Accepted c (entriesOf c (rangedEntries order sets)) ↔
      validManagedTarget (some c) = true ∧ (∃ scope, c ∈ scopeCidrs sets scope) ∧
      ∀ scope, (scopeCidrs sets scope).count c ≤ 1 := by
  constructor
  · rintro ⟨managed, distinct, some_, _⟩
    refine ⟨managed, entriesOf_ne_nil.mp some_, fun scope => ?_⟩
    rw [← count_scope order]
    exact List.nodup_iff_count_le_one.mp distinct scope
  · rintro ⟨managed, held, single⟩
    refine ⟨managed, ?_, entriesOf_ne_nil.mpr held, ?_⟩
    · refine List.nodup_iff_count_le_one.mpr fun scope => ?_
      rw [count_scope]
      exact single scope
    · intro us latest
      obtain ⟨⟨scope, item⟩, member, until_⟩ := exists_of_latestExpiry latest
      obtain ⟨v4, inside⟩ := mem_rangedEntries.mp (mem_entriesOf.mp member).1
      exact positive _ item inside us until_

end Entries

section Snapshots

variable {os : List TargetObservation}

theorem sortedTargets_mergeSort (distinct : (os.map TargetObservation.target).Nodup) :
    sortedTargets (os.mergeSort fun a b => decide (a.target.toText ≤ b.target.toText)) = true := by
  have sorted : (os.mergeSort fun a b => decide (a.target.toText ≤ b.target.toText)).Pairwise
      fun a b => decide (a.target.toText ≤ b.target.toText) = true :=
    List.pairwise_mergeSort (by simpa using fun a b c h h' => String.le_trans h h')
      (by simpa using fun a b => String.le_total _ _) os
  have distinct : ((os.mergeSort fun a b => decide (a.target.toText ≤ b.target.toText)).map
      TargetObservation.target).Nodup :=
    ((List.mergeSort_perm os _).map _).nodup_iff.mpr distinct
  generalize os.mergeSort _ = sortedOs at sorted distinct
  induction sortedOs with
  | nil => rfl
  | cons first rest ih =>
    cases rest with
    | nil => rfl
    | cons second rest =>
      obtain ⟨before, sorted⟩ := List.pairwise_cons.mp sorted
      rw [List.map_cons, List.nodup_cons] at distinct
      have differ : first.target ≠ second.target := fun same => distinct.1 (by simp [same])
      have below := before second List.mem_cons_self
      simp only [sortedTargets, Bool.and_eq_true]
      exact ⟨⟨by simpa using differ, below⟩, ih sorted distinct.2⟩

variable {infrastructure : Option InfrastructureObservation} {policy : Option String}
  {state : ManagedState}

theorem newManagedState_eq {n : Nat}
    (infra : infrastructure.all InfrastructureObservation.valid = true)
    (relation : policy.all validSnapshotDigest = true) (valid : ∀ o ∈ os, o.valid = true)
    (distinct : (os.map TargetObservation.target).Nodup) (length : os.length = n) :
    newManagedState infrastructure policy os =
      if n ≤ maxManagedSnapshotTargets then
        some ⟨infrastructure, policy,
          os.mergeSort fun a b => decide (a.target.toText ≤ b.target.toText)⟩
      else none := by
  have sorted := sortedTargets_mergeSort distinct
  have valid : (os.mergeSort fun a b => decide (a.target.toText ≤ b.target.toText)).all
      TargetObservation.valid = true :=
    List.all_eq_true.mpr fun o member => valid o (List.mem_mergeSort.mp member)
  unfold newManagedState ManagedState.valid
  simp [infra, relation, valid, sorted, length]

theorem valid_of_newManagedState (made : newManagedState infrastructure policy os = some state) :
    state.valid = true := by
  unfold newManagedState at made
  dsimp only at made
  split at made
  · rename_i valid
    rwa [← Option.some.inj made]
  · cases made

theorem managedState_valid {digests : Digests} {ruleset : RulesetState}
    (made : ruleset.managedState digests order = some state) :
    state.valid = true := by
  unfold RulesetState.managedState at made
  split at made <;> exact valid_of_newManagedState made

theorem valid_of_mem_targetObservations {sets : SetName → List Listed} {o : TargetObservation}
    (member : o ∈ targetObservations order sets) : o.valid = true := by
  obtain ⟨c, accepted, rfl⟩ := mem_targetObservations.mp member
  exact (valid_observationOf accepted.some_).mpr ⟨accepted.managed, accepted.expires⟩

def stateOf (digests : Digests) (order : List Nat) (ruleset : RulesetState) : ManagedState where
  infrastructure :=
    some ⟨.nftablesNative, managedOwnerVersion, managedSchemaVersion, digests.infrastructure⟩
  policy := if ruleset.policy then some (policyDigest digests ruleset.sets) else none
  targets := (targetObservations order ruleset.sets).mergeSort
    fun a b => decide (a.target.toText ≤ b.target.toText)

variable {digests : Digests} {order : List Nat} {ruleset : RulesetState}

theorem managedState_eq (managed : ruleset.managed = true) :
    ruleset.managedState digests order =
      if (targetObservations order ruleset.sets).length ≤ maxManagedSnapshotTargets then
        some (stateOf digests order ruleset)
      else none := by
  unfold RulesetState.managedState
  rw [if_pos managed]
  refine newManagedState_eq ?_ ?_ (fun o => valid_of_mem_targetObservations)
    (nodup_targetObservations ..) rfl
  · simp [InfrastructureObservation.valid, digests.infrastructureLower]
  · split
    · exact digests.policyLower _
    · rfl

variable {look : Look} {t : GuardTable} {s : ManagedSnapshot}

theorem snapshot_eq_ok : snapshot digests look (some t) = .ok s ↔
    Readable look.now t ∧
    (targetObservations look.order (parseRuleset look.now (some t)).sets).length ≤
      maxManagedSnapshotTargets ∧
    s = ⟨stateOf digests look.order (parseRuleset look.now (some t)), look.foreignDigest,
      digests.snapshot.hex
        (stateOf digests look.order (parseRuleset look.now (some t)), look.foreignDigest)⟩ := by
  rw [← conflict_eq_false_iff]
  unfold snapshot
  dsimp only
  cases conflict : (parseRuleset look.now (some t)).ownershipConflict with
  | true => simp
  | false =>
    rw [if_neg (by simp), managedState_eq rfl]
    by_cases few : (targetObservations look.order (parseRuleset look.now (some t)).sets).length ≤
      maxManagedSnapshotTargets
    · rw [if_pos few, Option.bind_some]
      have made : (parseRuleset look.now (some t)).managedState digests look.order =
          some (stateOf digests look.order (parseRuleset look.now (some t))) := by
        rw [managedState_eq rfl, if_pos few]
      have valid := managedState_valid made
      unfold newManagedSnapshot
      rw [if_pos (by simp [valid, look.foreignLower])]
      simp [few, eq_comm]
    · rw [if_neg few]
      simp [few]

theorem snapshot_unavailable (readable : Readable look.now t)
    (many : maxManagedSnapshotTargets <
      (targetObservations look.order (parseRuleset look.now (some t)).sets).length) :
    snapshot digests look (some t) = .error .unavailable := by
  unfold snapshot
  dsimp only
  rw [conflict_eq_false_iff.mpr readable, if_neg (by simp), managedState_eq rfl,
    if_neg (not_le.mpr many)]
  rfl

theorem valid_of_snapshot (reported : snapshot digests look (some t) = .ok s) :
    s.valid digests.snapshot = true := by
  obtain ⟨_, few, rfl⟩ := snapshot_eq_ok.mp reported
  have made : (parseRuleset look.now (some t)).managedState digests look.order =
      some (stateOf digests look.order (parseRuleset look.now (some t))) := by
    rw [managedState_eq rfl, if_pos few]
  have valid := managedState_valid made
  simp [ManagedSnapshot.valid, digests.snapshotLower, valid, look.foreignLower]

end Snapshots

end GuardWall.Nftables
