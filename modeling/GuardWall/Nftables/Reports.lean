import GuardWall.Nftables.Observations

/-! Which hosts Snapshot reports truly: every prefix in a ban set with the scopes and the expiry its
elements have, whatever the order in which the maps are ranged over. -/
namespace GuardWall.Nftables

open GuardWall.Core GuardWall.Firewall GuardWall.Foundation GuardWall.Enforcer GuardWall.Ipc

namespace Sample

def zeros : String := "0000000000000000000000000000000000000000000000000000000000000000"

theorem zeros_lower : validSnapshotDigest zeros = true := by decide

def digests : Digests :=
  { snapshot := ⟨fun _ => zeros, fun _ => by decide⟩, mutation := ⟨fun _ => zeros, fun _ => by decide⟩
    policy := ⟨fun _ => zeros, fun _ => by decide⟩, infrastructure := zeros
    lower := fun _ => zeros_lower, snapshotLower := fun _ => zeros_lower
    policyLower := fun _ => zeros_lower, infrastructureLower := zeros_lower }

def look (digests : Digests) : Look :=
  { now := ⟨1000000000, by decide, by decide⟩, order := [], toolVersion := "nftables v1.0.6"
    coexisting := true, foreignDigest := digests.infrastructure
    foreignLower := digests.infrastructureLower }

def chains (markers : List Rule) : ChainName → Option Chain
  | .hooked scope => some ⟨some scope, expectedRules scope⟩
  | .guardPolicy => some ⟨none, markers⟩

def banning (input forward : List Element) : GuardTable where
  sets name := some ⟨name.v4, name.isBan,
    match name with
    | .ban .input true => input
    | .ban .forward true => forward
    | _ => []⟩
  chains := chains [.infrastructureMarker, .policyMarker]

def address (host : BitVec 32) : Cidr := ⟨.v4 host, 32, le_rfl⟩

def target : Cidr := address 0x0a000001#32

end Sample

def bannedIn (t : GuardTable) (scope : ManagedScope) : List Cidr :=
  ((t.sets (.ban scope true)).elim [] NftSet.elements ++
    (t.sets (.ban scope false)).elim [] NftSet.elements).map Element.cidr

def Held (host : Host) (scope : ManagedScope) (c : Cidr) : Prop :=
  ∃ t v4 s, host = some t ∧ t.sets (.ban scope v4) = some s ∧ c ∈ s.elements.map Element.cidr

theorem held_iff {t : GuardTable} {scope : ManagedScope} {c : Cidr} :
    Held (some t) scope c ↔ c ∈ bannedIn t scope := by
  unfold Held bannedIn
  constructor
  · rintro ⟨t, v4, s, ⟨⟩, found, member⟩
    rw [List.map_append, List.mem_append]
    cases v4 with
    | true => exact .inl (by simpa [found] using member)
    | false => exact .inr (by simpa [found] using member)
  · intro member
    rw [List.map_append, List.mem_append] at member
    obtain member | member := member
    · cases found : t.sets (.ban scope true) with
      | none => simp [found] at member
      | some s => exact ⟨t, true, s, rfl, found, by simpa [found] using member⟩
    · cases found : t.sets (.ban scope false) with
      | none => simp [found] at member
      | some s => exact ⟨t, false, s, rfl, found, by simpa [found] using member⟩

section Readings

variable {now : Reading} {host : Host} {t : GuardTable} {c : Cidr}

theorem readAs_of_bits (some_ : c.bits ≠ 0) : readAs c = c := if_neg some_

theorem validManagedTarget_bits (valid : validManagedTarget (some c) = true) : c.bits ≠ 0 := by
  intro zero
  obtain ⟨addr, bits, bounded⟩ := c
  unfold validManagedTarget Prefix.loopback4 Prefix.loopback6 Prefix.overlaps Cidr.overlaps at valid
  cases addr <;> simp_all [Addr.is4]

theorem Readable.scopeCidrs (readable : Readable now t) (scope : ManagedScope) :
    scopeCidrs (parseRuleset now (some t)).sets scope = (bannedIn t scope).map readAs := by
  obtain ⟨s4, found4, listed4⟩ := readable.listed (.ban scope true)
  obtain ⟨s6, found6, listed6⟩ := readable.listed (.ban scope false)
  unfold Nftables.scopeCidrs bannedIn
  rw [listed4, listed6, found4, found6]
  simp only [Option.elim_some, List.map_append, List.map_map]
  rfl

theorem listed_positive (now : Reading) (host : Host) (name : SetName) :
    ∀ item ∈ (parseRuleset now host).sets name, ∀ us, item.expiresUS = some us → 0 < us := by
  intro item member us until_
  cases host with
  | none => cases member
  | some t =>
    simp only [parseRuleset] at member
    cases read : (t.sets name).bind (nftSetElements now) with
    | none =>
      rw [read] at member
      cases member
    | some items =>
      rw [read, Option.getD_some] at member
      obtain ⟨s, _, listed⟩ := Option.bind_eq_some_iff.mp read
      obtain ⟨rfl, each⟩ := nftSetElements_eq_some.mp listed
      obtain ⟨e, inside, rfl⟩ := List.mem_map.mp member
      obtain ⟨item, made⟩ := Option.isSome_iff_exists.mp (each e inside)
      obtain ⟨ms, left, rfl⟩ := Option.map_eq_some_iff.mp until_
      exact (listElement_eq_some.mp made).2.2.2 ms left

theorem snapshot_none_eq (digests : Digests) (look : Look) :
    snapshot digests look none = .ok ⟨⟨none, none, []⟩, look.foreignDigest,
      digests.snapshot.hex (⟨none, none, []⟩, look.foreignDigest)⟩ := by
  have state : (parseRuleset look.now none).managedState digests look.order =
      some ⟨none, none, []⟩ := by
    simp [RulesetState.managedState, parseRuleset, newManagedState, ManagedState.valid,
      sortedTargets]
  have bound : newManagedSnapshot digests.snapshot ⟨none, none, []⟩ look.foreignDigest = some
      ⟨⟨none, none, []⟩, look.foreignDigest,
        digests.snapshot.hex (⟨none, none, []⟩, look.foreignDigest)⟩ := by
    refine if_pos ?_
    rw [look.foreignLower]
    rfl
  unfold snapshot
  dsimp only
  rw [state, Option.bind_some, bound]
  rfl

end Readings

section Targets

variable {digests : Digests} {look : Look} {now : Reading} {order : List Nat} {host : Host}
  {t : GuardTable} {s : ManagedSnapshot} {os : List TargetObservation}

/-- The observations are those of the prefixes in the ban sets, each with the scopes whose set has
it. -/
structure Exact (host : Host) (os : List TargetObservation) : Prop where
  targets : ∀ c, some c ∈ os.map TargetObservation.target ↔ ∃ scope, Held host scope c
  scopes : ∀ o ∈ os, ∀ c, o.target = some c → ∀ scope, scope ∈ o.scopes ↔ Held host scope c

theorem Exact.perm {os' : List TargetObservation} (perm : os'.Perm os) :
    Exact host os' ↔ Exact host os := by
  have targets : ∀ c, some c ∈ os'.map TargetObservation.target ↔
      some c ∈ os.map TargetObservation.target := fun c => (perm.map _).mem_iff
  constructor
  · rintro ⟨reported, scopes⟩
    exact ⟨fun c => (targets c).symm.trans (reported c),
      fun o member => scopes o (perm.mem_iff.mpr member)⟩
  · rintro ⟨reported, scopes⟩
    exact ⟨fun c => (targets c).trans (reported c),
      fun o member => scopes o (perm.mem_iff.mp member)⟩

structure Tidy (t : GuardTable) : Prop where
  managed : ∀ scope, ∀ c ∈ bannedIn t scope, validManagedTarget (some c) = true
  single : ∀ scope, (bannedIn t scope).Nodup

theorem scopeCidrs_of_managed (readable : Readable now t)
    (managed : ∀ scope, ∀ c ∈ bannedIn t scope, validManagedTarget (some c) = true)
    (scope : ManagedScope) :
    scopeCidrs (parseRuleset now (some t)).sets scope = bannedIn t scope := by
  rw [readable.scopeCidrs]
  exact (List.map_congr_left fun c member =>
    readAs_of_bits (validManagedTarget_bits (managed scope c member))).trans (List.map_id _)

theorem mem_observed {sets : SetName → List Listed} {c : Cidr} :
    some c ∈ (targetObservations order sets).map TargetObservation.target ↔
      Accepted c (entriesOf c (rangedEntries order sets)) := by
  rw [List.mem_map]
  constructor
  · rintro ⟨o, member, target⟩
    obtain ⟨d, accepted, rfl⟩ := mem_targetObservations.mp member
    cases target
    exact accepted
  · intro accepted
    exact ⟨_, mem_targetObservations.mpr ⟨c, accepted, rfl⟩, rfl⟩

theorem exact_of_tidy (readable : Readable now t) (tidy : Tidy t) :
    Exact (some t) (targetObservations order (parseRuleset now (some t)).sets) := by
  have same := scopeCidrs_of_managed readable tidy.managed
  constructor
  · intro c
    rw [mem_observed, accepted_iff (listed_positive now (some t))]
    simp only [held_iff, same]
    constructor
    · exact fun accepted => accepted.2.1
    · rintro ⟨scope, held⟩
      exact ⟨tidy.managed scope c held, ⟨scope, held⟩, fun other =>
        List.nodup_iff_count_le_one.mp (tidy.single other) c⟩
  · intro o member c target scope
    obtain ⟨d, _, rfl⟩ := mem_targetObservations.mp member
    cases target
    rw [held_iff, ← same scope]
    exact mem_orderedScopes.trans mem_scopes

theorem tidy_of_exact (readable : Readable now t)
    (exact_ : Exact (some t) (targetObservations order (parseRuleset now (some t)).sets)) :
    Tidy t := by
  have accepted : ∀ scope, ∀ c ∈ bannedIn t scope,
      Accepted c (entriesOf c (rangedEntries order (parseRuleset now (some t)).sets)) :=
    fun scope c held => mem_observed.mp ((exact_.targets c).mpr ⟨scope, held_iff.mpr held⟩)
  have managed : ∀ scope, ∀ c ∈ bannedIn t scope, validManagedTarget (some c) = true :=
    fun scope c held => (accepted scope c held).managed
  refine ⟨managed, fun scope => List.nodup_iff_count_le_one.mpr fun c => ?_⟩
  by_cases held : c ∈ bannedIn t scope
  · have taken := (accepted_iff (listed_positive now (some t))).mp (accepted scope c held)
    rw [← scopeCidrs_of_managed readable managed scope]
    exact taken.2.2 scope
  · rw [List.count_eq_zero_of_not_mem held]
    exact Nat.zero_le _

/-- A reported snapshot is exact if and only if the ban sets hold only prefixes Guard would ban, each
once for a scope. -/
theorem snapshot_exact_iff (reported : snapshot digests look host = .ok s) :
    Exact host s.state.targets ↔ ∀ t, host = some t → Tidy t := by
  cases host with
  | none =>
    rw [snapshot_none_eq] at reported
    cases reported
    refine iff_of_true ⟨?_, ?_⟩ (by simp)
    · simp [Held]
    · simp
  | some t =>
    obtain ⟨readable, _, rfl⟩ := snapshot_eq_ok.mp reported
    rw [stateOf, Exact.perm (List.mergeSort_perm _ _)]
    constructor
    · rintro exact_ _ ⟨⟩
      exact tidy_of_exact readable exact_
    · exact fun tidy => exact_of_tidy readable (tidy t rfl)

theorem eq_ok_of_toOption {error α : Type} {r : Except error α} {a : α} (h : r.toOption = some a) :
    r = .ok a := by
  cases r with
  | error e => cases h
  | ok b => exact congrArg Except.ok (Option.some.inj h)

theorem snapshot_exact_iff_first_ban :
    ∃ s, snapshot Sample.digests (Sample.look Sample.digests)
        (some (Sample.banning [⟨Sample.target, none⟩] [])) = .ok s ∧
      Exact (some (Sample.banning [⟨Sample.target, none⟩] [])) s.state.targets := by
  have taken : (snapshot Sample.digests (Sample.look Sample.digests)
      (some (Sample.banning [⟨Sample.target, none⟩] []))).toOption.isSome = true := by
    decide +kernel
  obtain ⟨s, reported⟩ := Option.isSome_iff_exists.mp taken
  refine ⟨s, eq_ok_of_toOption reported, ?_⟩
  refine (snapshot_exact_iff (eq_ok_of_toOption reported)).mpr ?_
  rintro _ ⟨⟩
  constructor
  · intro scope
    cases scope <;> decide +kernel
  · intro scope
    cases scope <;> decide +kernel

/-- The loopback address is no target of Guard's, so that a ban set that has it is reported without
it. -/
theorem loopback_ban_unreported :
    ∃ s, snapshot Sample.digests (Sample.look Sample.digests)
        (some (Sample.banning [⟨Sample.address 0x7f000001#32, none⟩] [])) = .ok s ∧
      s.state.targets = [] ∧
      Held (some (Sample.banning [⟨Sample.address 0x7f000001#32, none⟩] [])) .input
        (Sample.address 0x7f000001#32) := by
  have taken : (snapshot Sample.digests (Sample.look Sample.digests)
      (some (Sample.banning [⟨Sample.address 0x7f000001#32, none⟩] []))).toOption.map
        (fun s => s.state.targets) = some [] := by
    decide +kernel
  obtain ⟨s, reported, none_⟩ := Option.map_eq_some_iff.mp taken
  exact ⟨s, eq_ok_of_toOption reported, none_, _, true, _, rfl, rfl, List.mem_cons_self⟩

end Targets

section Stability

variable {digests : Digests} {now : Reading} {host : Host} {order : List Nat}
  {sets : SetName → List Listed} {c : Cidr}

def reportedCidrs (sets : SetName → List Listed) : Finset Cidr :=
  (scopeCidrs sets .input ++ scopeCidrs sets .forward).toFinset.filter fun c =>
    validManagedTarget (some c) = true ∧
      (scopeCidrs sets .input).count c ≤ 1 ∧ (scopeCidrs sets .forward).count c ≤ 1

theorem mem_reportedCidrs
    (positive : ∀ name, ∀ item ∈ sets name, ∀ us, item.expiresUS = some us → 0 < us) :
    c ∈ reportedCidrs sets ↔ Accepted c (entriesOf c (rangedEntries order sets)) := by
  rw [accepted_iff positive]
  unfold reportedCidrs
  simp only [Finset.mem_filter, List.mem_toFinset, List.mem_append]
  constructor
  · rintro ⟨held, managed, input, forward⟩
    refine ⟨managed, ?_, fun scope => ?_⟩
    · exact held.elim (fun held => ⟨.input, held⟩) fun held => ⟨.forward, held⟩
    · cases scope with
      | input => exact input
      | forward => exact forward
  · rintro ⟨managed, ⟨scope, held⟩, single⟩
    refine ⟨?_, managed, single .input, single .forward⟩
    cases scope with
    | input => exact .inl held
    | forward => exact .inr held

theorem length_targetObservations (order : List Nat)
    (positive : ∀ name, ∀ item ∈ sets name, ∀ us, item.expiresUS = some us → 0 < us) :
    (targetObservations order sets).length = (reportedCidrs sets).card := by
  have same : ((targetObservations order sets).map TargetObservation.target).toFinset =
      (reportedCidrs sets).image some := by
    ext target
    rw [List.mem_toFinset, Finset.mem_image]
    constructor
    · intro member
      obtain ⟨o, inside, rfl⟩ := List.mem_map.mp member
      obtain ⟨c, accepted, rfl⟩ := mem_targetObservations.mp inside
      exact ⟨c, (mem_reportedCidrs positive).mpr accepted, rfl⟩
    · rintro ⟨c, reported, rfl⟩
      exact mem_observed.mpr ((mem_reportedCidrs positive).mp reported)
  rw [← List.length_map (f := TargetObservation.target),
    ← List.toFinset_card_of_nodup (nodup_targetObservations order sets), same,
    Finset.card_image_of_injective _ (Option.some_injective _)]

def Agree (sets : SetName → List Listed) (c : Cidr) : Prop :=
  ∀ scope v4 scope' v4', ∀ item ∈ sets (.ban scope v4), ∀ item' ∈ sets (.ban scope' v4'),
    item.cidr = c → item'.cidr = c → item.expiresUS = item'.expiresUS

structure Timely (sets : SetName → List Listed) (o : TargetObservation) : Prop where
  native : o.timeoutMode = .native → ∃ us, o.effectiveUntilUS = some us ∧
    ∀ scope ∈ o.scopes, ∀ v4, ∀ item ∈ sets (.ban scope v4), some item.cidr = o.target →
      item.expiresUS = some us
  permanent : o.timeoutMode = .none → ∀ scope v4, ∀ item ∈ sets (.ban scope v4),
    some item.cidr = o.target → item.expiresUS = none

theorem mem_entriesOf_ranged {scope : ManagedScope} {item : Listed} :
    (scope, item) ∈ entriesOf c (rangedEntries order sets) ↔
      (∃ v4, item ∈ sets (.ban scope v4)) ∧ item.cidr = c := by
  rw [mem_entriesOf, mem_rangedEntries]

theorem latestExpiry_of_agree (agree : Agree sets c) {p : Entry}
    (member : p ∈ entriesOf c (rangedEntries order sets)) :
    latestExpiry (entriesOf c (rangedEntries order sets)) = p.2.expiresUS := by
  have same : ∀ q ∈ entriesOf c (rangedEntries order sets), q.2.expiresUS = p.2.expiresUS := by
    intro q inside
    obtain ⟨⟨v4, listed⟩, own⟩ := mem_entriesOf_ranged.mp inside
    obtain ⟨⟨v4', listed'⟩, own'⟩ := mem_entriesOf_ranged.mp member
    exact agree _ _ _ _ _ listed _ listed' own own'
  cases latest : latestExpiry (entriesOf c (rangedEntries order sets)) with
  | none => exact (((latestExpiry_eq_none _ none).mp latest).2 p member).symm
  | some us =>
    obtain ⟨q, inside, until_⟩ := exists_of_latestExpiry latest
    rw [← same q inside, until_]

theorem timely_of_agree (agree : Agree sets c) :
    Timely sets (observationOf c (entriesOf c (rangedEntries order sets))) := by
  have each : ∀ scope v4, ∀ item ∈ sets (.ban scope v4), item.cidr = c →
      latestExpiry (entriesOf c (rangedEntries order sets)) = item.expiresUS :=
    fun scope v4 item listed own =>
      latestExpiry_of_agree agree (mem_entriesOf_ranged.mpr ⟨⟨v4, listed⟩, own⟩)
  constructor
  · intro native
    cases latest : latestExpiry (entriesOf c (rangedEntries order sets)) with
    | none => simp [observationOf, latest] at native
    | some us =>
      refine ⟨us, latest, fun scope _ v4 item listed own => ?_⟩
      rw [← each scope v4 item listed (Option.some.inj own), latest]
  · intro permanent scope v4 item listed own
    rw [← each scope v4 item listed (Option.some.inj own)]
    cases latest : latestExpiry (entriesOf c (rangedEntries order sets)) with
    | none => rfl
    | some us => simp [observationOf, latest] at permanent

theorem agree_of_timely (order : List Nat)
    (timely : Timely sets (observationOf c (entriesOf c (rangedEntries order sets)))) :
    Agree sets c := by
  have same : ∀ scope v4, ∀ item ∈ sets (.ban scope v4), item.cidr = c →
      item.expiresUS = latestExpiry (entriesOf c (rangedEntries order sets)) := by
    intro scope v4 item listed own
    have inside : scope ∈
        (observationOf c (entriesOf c (rangedEntries order sets))).scopes :=
      mem_orderedScopes.mpr (List.mem_map_of_mem (mem_entriesOf_ranged.mpr ⟨⟨v4, listed⟩, own⟩))
    cases latest : latestExpiry (entriesOf c (rangedEntries order sets)) with
    | none =>
      exact timely.permanent (by simp [observationOf, latest]) scope v4 item listed
        (congrArg some own)
    | some us =>
      obtain ⟨us', until_, each⟩ := timely.native (by simp [observationOf, latest])
      rw [each scope inside v4 item listed (congrArg some own), ← until_]
      exact latest
  intro scope v4 scope' v4' item listed item' listed' own own'
  rw [same scope v4 item listed own, same scope' v4' item' listed' own']

/-- The managed state and its digest are the same for every order of the maps, and the expiries of
the state are those of the elements. -/
structure Stable (digests : Digests) (now : Reading) (host : Host) : Prop where
  order : ∀ look : Look, look.now = now → ∀ order',
    snapshot digests look host = snapshot digests { look with order := order' } host
  timely : ∀ look s, look.now = now → snapshot digests look host = .ok s →
    ∀ o ∈ s.state.targets, Timely (parseRuleset now host).sets o

theorem observationOf_of_agree {order' : List Nat} (agree : Agree sets c)
    (some_ : entriesOf c (rangedEntries order sets) ≠ []) :
    observationOf c (entriesOf c (rangedEntries order sets)) =
      observationOf c (entriesOf c (rangedEntries order' sets)) := by
  obtain ⟨p, member⟩ := List.exists_mem_of_ne_nil _ some_
  have member' : p ∈ entriesOf c (rangedEntries order' sets) :=
    mem_entriesOf_ranged.mpr (mem_entriesOf_ranged.mp member)
  have latest : latestExpiry (entriesOf c (rangedEntries order sets)) =
      latestExpiry (entriesOf c (rangedEntries order' sets)) :=
    (latestExpiry_of_agree agree member).trans (latestExpiry_of_agree agree member').symm
  have scopes : orderedScopes ((entriesOf c (rangedEntries order sets)).map Prod.fst) =
      orderedScopes ((entriesOf c (rangedEntries order' sets)).map Prod.fst) := by
    refine orderedScopes_congr fun scope => ?_
    rw [mem_scopes, mem_scopes]
  unfold observationOf
  rw [latest, scopes]

theorem targetObservations_of_agree (order order' : List Nat)
    (positive : ∀ name, ∀ item ∈ sets name, ∀ us, item.expiresUS = some us → 0 < us)
    (agree : ∀ c ∈ reportedCidrs sets, Agree sets c) :
    targetObservations order sets = targetObservations order' sets := by
  have one : ∀ order order' o, o ∈ targetObservations order sets →
      o ∈ targetObservations order' sets := by
    intro order order' o member
    obtain ⟨c, accepted, rfl⟩ := mem_targetObservations.mp member
    have reported := (mem_reportedCidrs positive).mpr accepted
    refine mem_targetObservations.mpr ⟨c, (mem_reportedCidrs positive).mp reported, ?_⟩
    exact observationOf_of_agree (agree c reported) accepted.some_
  exact targetObservations_eq_of_mem fun o => ⟨one order order' o, one order' order o⟩

end Stability

section Snapshots

variable {digests : Digests} {look : Look} {t : GuardTable} {s : ManagedSnapshot}

theorem mem_snapshot (reported : snapshot digests look (some t) = .ok s) {o : TargetObservation} :
    o ∈ s.state.targets ↔
      o ∈ targetObservations look.order (parseRuleset look.now (some t)).sets := by
  obtain ⟨_, _, rfl⟩ := snapshot_eq_ok.mp reported
  exact List.mem_mergeSort

theorem find_snapshot (reported : snapshot digests look (some t) = .ok s) {c : Cidr}
    (accepted : Accepted c
      (entriesOf c (rangedEntries look.order (parseRuleset look.now (some t)).sets))) :
    s.state.targets.find? (fun o => o.target == some c) = some (observationOf c
      (entriesOf c (rangedEntries look.order (parseRuleset look.now (some t)).sets))) := by
  have distinct : (s.state.targets.map TargetObservation.target).Nodup := by
    obtain ⟨_, _, rfl⟩ := snapshot_eq_ok.mp reported
    exact ((List.mergeSort_perm _ _).map _).nodup_iff.mpr (nodup_targetObservations ..)
  have member := (mem_snapshot reported).mpr (mem_targetObservations.mpr ⟨c, accepted, rfl⟩)
  cases found : s.state.targets.find? (fun o => o.target == some c) with
  | none => exact absurd (List.find?_eq_none.mp found _ member) (by simp [observationOf])
  | some o =>
    have target : o.target = some c := by simpa using List.find?_some found
    rw [List.inj_on_of_nodup_map distinct (List.mem_of_find?_eq_some found) member target]

theorem snapshot_of_few (digests : Digests) (look : Look) (readable : Readable look.now t)
    (few : (reportedCidrs (parseRuleset look.now (some t)).sets).card ≤ maxManagedSnapshotTargets) :
    ∃ s, snapshot digests look (some t) = .ok s := by
  rw [← length_targetObservations look.order (listed_positive _ _)] at few
  exact ⟨_, snapshot_eq_ok.mpr ⟨readable, few, rfl⟩⟩

theorem snapshot_order {order' : List Nat}
    (same : targetObservations look.order (parseRuleset look.now (some t)).sets =
      targetObservations order' (parseRuleset look.now (some t)).sets) :
    snapshot digests look (some t) = snapshot digests { look with order := order' } (some t) := by
  have states : (parseRuleset look.now (some t)).managedState digests look.order =
      (parseRuleset look.now (some t)).managedState digests order' := by
    unfold RulesetState.managedState
    rw [same]
  unfold snapshot
  simp only [states]

theorem snapshot_of_many (look : Look) (readable : Readable look.now t)
    (many : ¬ (reportedCidrs (parseRuleset look.now (some t)).sets).card ≤
      maxManagedSnapshotTargets) :
    snapshot digests look (some t) = .error .unavailable := by
  rw [← length_targetObservations look.order (listed_positive _ _), not_le] at many
  exact snapshot_unavailable readable many

variable (digests) (now : Reading) (host : Host)

/-- The elements of a reported prefix have to agree on the expiry. -/
theorem snapshot_stable_iff : Stable digests now host ↔
    ((parseRuleset now host).ownershipConflict = false →
      (reportedCidrs (parseRuleset now host).sets).card ≤ maxManagedSnapshotTargets →
        ∀ c ∈ reportedCidrs (parseRuleset now host).sets, Agree (parseRuleset now host).sets c) := by
  have positive := listed_positive now host
  cases host with
  | none =>
    refine iff_of_true ⟨?_, ?_⟩ fun _ _ c reported => absurd reported (Finset.notMem_empty c)
    · intro look _ order'
      rw [snapshot_none_eq, snapshot_none_eq]
    · intro look s _ reported o member
      rw [snapshot_none_eq] at reported
      cases reported
      cases member
  | some t =>
    constructor
    · intro stable readable few c reported
      rw [conflict_eq_false_iff] at readable
      let look : Look := ⟨now, [], "", true, digests.infrastructure, digests.infrastructureLower⟩
      obtain ⟨s, accepted⟩ := snapshot_of_few digests look readable few
      refine agree_of_timely [] (stable.timely look s rfl accepted _ ?_)
      rw [mem_snapshot accepted, mem_targetObservations]
      exact ⟨c, (mem_reportedCidrs positive).mp reported, rfl⟩
    · intro agree
      constructor
      · rintro look rfl order'
        by_cases conflict : (parseRuleset look.now (some t)).ownershipConflict = false
        · by_cases few : (reportedCidrs (parseRuleset look.now (some t)).sets).card ≤
              maxManagedSnapshotTargets
          · exact snapshot_order
              (targetObservations_of_agree _ _ positive (agree conflict few))
          · have readable := conflict_eq_false_iff.mp conflict
            rw [snapshot_of_many look readable few]
            exact (snapshot_of_many { look with order := order' } readable few).symm
        · rw [Bool.not_eq_false] at conflict
          unfold snapshot
          simp [conflict]
      · rintro look s rfl accepted o member
        obtain ⟨readable, few, _⟩ := snapshot_eq_ok.mp accepted
        rw [length_targetObservations _ positive] at few
        obtain ⟨c, taken, rfl⟩ := mem_targetObservations.mp ((mem_snapshot accepted).mp member)
        exact timely_of_agree (agree (conflict_eq_false_iff.mpr readable) few c
          ((mem_reportedCidrs positive).mpr taken))

/-- The two elements of a ban that expire within a millisecond are listed with 5 and with 4 seconds
left. Which of them is taken depends on the order of the sets. -/
theorem split_ban_unstable :
    ¬ Stable Sample.digests (Sample.look Sample.digests).now
      (some (Sample.banning [⟨Sample.target, some 5000⟩] [⟨Sample.target, some 4999⟩])) := by
  have forwardLast : (snapshot Sample.digests (Sample.look Sample.digests)
      (some (Sample.banning [⟨Sample.target, some 5000⟩] [⟨Sample.target, some 4999⟩]))).toOption.map
        (fun s => s.state.targets.map TargetObservation.effectiveUntilUS) =
      some [some 5000000] := by decide +kernel
  have inputLast : (snapshot Sample.digests { Sample.look Sample.digests with order := [0, 0, 0, 0, 2] }
      (some (Sample.banning [⟨Sample.target, some 5000⟩] [⟨Sample.target, some 4999⟩]))).toOption.map
        (fun s => s.state.targets.map TargetObservation.effectiveUntilUS) =
      some [some 6000000] := by decide +kernel
  intro stable
  rw [stable.order _ rfl [0, 0, 0, 0, 2], inputLast] at forwardLast
  cases forwardLast

end Snapshots

end GuardWall.Nftables
