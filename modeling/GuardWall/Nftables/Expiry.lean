import GuardWall.Nftables.Closure
import GuardWall.Reconcile.IpcBackend

/-! The expiry that is reconstructed from a listing. The kernel drops an element at a fixed instant;
nft lists the whole seconds until then, and they are added to the whole second of the read. -/
namespace GuardWall.Nftables

open GuardWall.Core GuardWall.Firewall GuardWall.Foundation GuardWall.Reconcile

structure TimedElement where
  cidr : Cidr
  deadline : Option Int
  deriving DecidableEq, Repr

structure TimedSet where
  v4 : Bool
  timeout : Bool
  elements : List TimedElement

structure TimedTable where
  sets : SetName → Option TimedSet
  chains : ChainName → Option Chain

/-- The milliseconds an element has left; it is not listed after its deadline. -/
def TimedElement.at (now : Reading) (e : TimedElement) : Option Element :=
  match e.deadline with
  | none => some ⟨e.cidr, none⟩
  | some deadline =>
      if deadline ≤ now.ns then none
      else some ⟨e.cidr, some ((deadline - now.ns) / 1000000).toNat⟩

def TimedTable.at (table : TimedTable) (now : Reading) : GuardTable where
  sets name := (table.sets name).map fun s =>
    ⟨s.v4, s.timeout, s.elements.filterMap (TimedElement.at now)⟩
  chains := table.chains

section Rounding

def remainingSeconds (deadline : Int) (now : Reading) : Int := (deadline - now.ns) / second

/-- The whole second before the deadline, or the one before that if the read is in a later part of
its second than the deadline. -/
def lastSecond (deadline : Int) (now : Reading) : Int :=
  if now.ns % second ≤ deadline % second then deadline / second * second
  else deadline / second * second - second

/-- How often the duration of so many seconds wraps. -/
def wraps (seconds : Int) : Int :=
  (seconds * second + 9223372036854775808) / 18446744073709551616

theorem secondsDuration_wraps (seconds : Int) :
    secondsDuration seconds = seconds * second - wraps seconds * 18446744073709551616 := by
  unfold secondsDuration wraps second
  generalize seconds * 1000000000 = x
  rw [Int.bmod_def]
  split <;> omega

theorem expiryUnixMicro_deadline (deadline : Int) (now : Reading) :
    expiryUnixMicro now (remainingSeconds deadline now) =
      (lastSecond deadline now - wraps (remainingSeconds deadline now) * 18446744073709551616) /
        1000 := by
  unfold expiryUnixMicro
  rw [secondsDuration_wraps]
  generalize wraps _ = w
  unfold remainingSeconds lastSecond second
  congr 1
  split <;> omega

/-- The two reads fall on the same side of the deadline's part of a second, and their durations wrap
as often. -/
def Steady (deadline : Int) (now later : Reading) : Prop :=
  (now.ns % second ≤ deadline % second ↔ later.ns % second ≤ deadline % second) ∧
    wraps (remainingSeconds deadline now) = wraps (remainingSeconds deadline later)

theorem expiryUnixMicro_eq_iff (deadline : Int) (now later : Reading) :
    expiryUnixMicro now (remainingSeconds deadline now) =
        expiryUnixMicro later (remainingSeconds deadline later) ↔
      Steady deadline now later := by
  rw [expiryUnixMicro_deadline, expiryUnixMicro_deadline]
  unfold Steady
  generalize wraps (remainingSeconds deadline now) = w
  generalize wraps (remainingSeconds deadline later) = w'
  unfold lastSecond second
  -- A wrap moves the sum by far more than the second in which the reads can differ.
  rcases lt_trichotomy w w' with less | rfl | more
  · split <;> split <;> omega
  · split <;> split <;> omega
  · split <;> split <;> omega

end Rounding

section Reads

variable {table : TimedTable} {now later : Reading}

def TimedTable.Expires (table : TimedTable) (deadline : Int) : Prop :=
  ∃ name s, table.sets name = some s ∧ ∃ e ∈ s.elements, e.deadline = some deadline

def TimedTable.Alive (table : TimedTable) (now : Reading) : Prop :=
  ∀ deadline, table.Expires deadline → now.ns < deadline

variable {e : TimedElement}

theorem at_alive (alive : ∀ deadline, e.deadline = some deadline → now.ns < deadline) :
    e.at now = some ⟨e.cidr, e.deadline.map fun d => ((d - now.ns) / 1000000).toNat⟩ := by
  unfold TimedElement.at
  cases until_ : e.deadline with
  | none => rfl
  | some deadline =>
    have before := alive deadline until_
    simp [not_le.mpr before]

theorem cidr_at {listed : Element} (made : e.at now = some listed) : listed.cidr = e.cidr := by
  unfold TimedElement.at at made
  split at made
  · cases made
    rfl
  · split at made
    · cases made
    · cases made
      rfl

theorem seconds_of_milliseconds {deadline : Int} (before : now.ns < deadline) :
    ((((deadline - now.ns) / 1000000).toNat / 1000 : Nat) : Int) =
      remainingSeconds deadline now := by
  unfold remainingSeconds second
  omega

theorem listElement_at (alive : ∀ deadline, e.deadline = some deadline → now.ns < deadline) :
    (e.at now).bind (listElement now) =
      if e.deadline.isSome && e.cidr.bits != e.cidr.addr.bitLen then none
      else (parseElementPrefix e.cidr).bind fun c =>
        match e.deadline.map fun d => expiryUnixMicro now (remainingSeconds d now) with
        | none => some ⟨c, none⟩
        | some us => if us ≤ 0 then none else some ⟨c, some us⟩ := by
  rw [at_alive alive, Option.bind_some]
  unfold listElement Element.legible
  cases until_ : e.deadline with
  | none => simp
  | some deadline =>
    simp only [Option.map_some, seconds_of_milliseconds (alive deadline until_)]
    simp

theorem listElement_steady (alive : ∀ deadline, e.deadline = some deadline → now.ns < deadline)
    (alive' : ∀ deadline, e.deadline = some deadline → later.ns < deadline)
    (steady : ∀ deadline, e.deadline = some deadline → Steady deadline now later) :
    (e.at now).bind (listElement now) = (e.at later).bind (listElement later) := by
  rw [listElement_at alive, listElement_at alive']
  cases until_ : e.deadline with
  | none => rfl
  | some deadline =>
    simp only [Option.map_some, (expiryUnixMicro_eq_iff deadline now later).mpr (steady deadline until_)]

theorem mapM_filterMap_congr {α β γ : Type} {f f' : α → Option β} {g g' : β → Option γ} {xs : List α}
    (listed : ∀ x ∈ xs, (f x).isSome ∧ (f' x).isSome)
    (same : ∀ x ∈ xs, (f x).bind g = (f' x).bind g') :
    (xs.filterMap f).mapM g = (xs.filterMap f').mapM g' := by
  induction xs with
  | nil => rfl
  | cons x rest ih =>
    obtain ⟨some_, some_'⟩ := listed x List.mem_cons_self
    obtain ⟨y, made⟩ := Option.isSome_iff_exists.mp some_
    obtain ⟨y', made'⟩ := Option.isSome_iff_exists.mp some_'
    have head := same x List.mem_cons_self
    rw [made, made', Option.bind_some, Option.bind_some] at head
    have tail := ih (fun z member => listed z (List.mem_cons_of_mem x member))
      (fun z member => same z (List.mem_cons_of_mem x member))
    simp only [List.filterMap_cons, made, made', List.mapM_cons, head, tail]

theorem parseRuleset_at (alive : table.Alive now) (alive' : table.Alive later)
    (steady : ∀ deadline, table.Expires deadline → Steady deadline now later) :
    parseRuleset now (some (table.at now)) = parseRuleset later (some (table.at later)) := by
  have elements : ∀ name s, table.sets name = some s →
      nftSetElements now ⟨s.v4, s.timeout, s.elements.filterMap (TimedElement.at now)⟩ =
        nftSetElements later ⟨s.v4, s.timeout, s.elements.filterMap (TimedElement.at later)⟩ := by
    intro name s found
    have has : ∀ e ∈ s.elements, ∀ deadline, e.deadline = some deadline → table.Expires deadline :=
      fun e member deadline until_ => ⟨name, s, found, e, member, until_⟩
    have listed : ∀ {reading : Reading}, table.Alive reading → ∀ e ∈ s.elements,
        (e.at reading).isSome := fun {reading} alive e member => by
      rw [at_alive fun deadline until_ => alive deadline (has e member deadline until_)]
      rfl
    refine mapM_filterMap_congr (fun e member => ⟨listed alive e member, listed alive' e member⟩)
      fun e member => ?_
    exact listElement_steady (fun d until_ => alive d (has e member d until_))
      (fun d until_ => alive' d (has e member d until_))
      (fun d until_ => steady d (has e member d until_))
  have sets : ∀ name, ((table.at now).sets name).bind (nftSetElements now) =
      ((table.at later).sets name).bind (nftSetElements later) := by
    intro name
    show (Option.map _ _).bind _ = (Option.map _ _).bind _
    cases found : table.sets name with
    | none => rfl
    | some s => exact elements name s found
  have conflicts : (table.at now).setConflict now = (table.at later).setConflict later := by
    funext name
    unfold GuardTable.setConflict TimedTable.at
    dsimp only
    cases found : table.sets name with
    | none => rfl
    | some s =>
      simp only [Option.map_some, elements name s found]
      rfl
  simp only [parseRuleset, conflicts, sets]
  rfl

variable (digests : Digests) (look : Look)

/-- Two reads of an unchanged table reconstruct the same expiries, and so the same snapshot, if and
only if they are steady for every deadline. -/
theorem reads_agree_iff (alive : table.Alive look.now) (alive' : table.Alive later) :
    ((∀ deadline, table.Expires deadline →
        expiryUnixMicro look.now (remainingSeconds deadline look.now) =
          expiryUnixMicro later (remainingSeconds deadline later)) ∧
      snapshot digests look (some (table.at look.now)) =
        snapshot digests { look with now := later } (some (table.at later))) ↔
    ∀ deadline, table.Expires deadline → Steady deadline look.now later := by
  constructor
  · rintro ⟨same, _⟩ deadline expires
    exact (expiryUnixMicro_eq_iff deadline look.now later).mp (same deadline expires)
  · intro steady
    refine ⟨fun deadline expires => ?_, ?_⟩
    · exact (expiryUnixMicro_eq_iff deadline look.now later).mpr (steady deadline expires)
    · unfold snapshot
      rw [parseRuleset_at alive alive' steady]

def Sample.standing (deadline : Int) : TimedTable where
  sets name := some ⟨name.v4, name.isBan,
    match name with
    | .ban .input true => [⟨Sample.target, some deadline⟩]
    | _ => []⟩
  chains := Sample.chains [.infrastructureMarker, .policyMarker]

theorem Sample.standing_expires {deadline d : Int} (expires : (Sample.standing deadline).Expires d) :
    d = deadline := by
  obtain ⟨name, s, found, e, member, until_⟩ := expires
  cases found
  rcases name with v4 | v4 | ⟨_ | _, _ | _⟩
  · cases member
  · cases member
  · cases member
  · rw [List.mem_singleton.mp member] at until_
    exact (Option.some.inj until_).symm
  · cases member
  · cases member

theorem reads_agree_iff_same_phase :
    snapshot Sample.digests (Sample.look Sample.digests)
        (some ((Sample.standing 12250000000).at (Sample.look Sample.digests).now)) =
      snapshot Sample.digests
        { Sample.look Sample.digests with now := ⟨3125000000, by decide, by decide⟩ }
        (some ((Sample.standing 12250000000).at ⟨3125000000, by decide, by decide⟩)) := by
  refine ((reads_agree_iff Sample.digests (Sample.look Sample.digests) ?_ ?_).mpr ?_).2
  · intro deadline expires
    rw [Sample.standing_expires expires]
    decide
  · intro deadline expires
    rw [Sample.standing_expires expires]
    decide
  · intro deadline expires
    rw [Sample.standing_expires expires]
    unfold Steady
    decide

theorem reads_of_one_ban_differ :
    ((snapshot Sample.digests (Sample.look Sample.digests)
        (some ((Sample.standing 12250000000).at (Sample.look Sample.digests).now))).toOption.map fun s =>
      s.state.targets.map TargetObservation.effectiveUntilUS) = some [some 12000000] ∧
    ((snapshot Sample.digests
        { Sample.look Sample.digests with now := ⟨1500000000, by decide, by decide⟩ }
        (some ((Sample.standing 12250000000).at ⟨1500000000, by decide, by decide⟩))).toOption.map fun s =>
      s.state.targets.map TargetObservation.effectiveUntilUS) = some [some 11000000] := by
  decide +kernel

end Reads

section Merging

variable {c : Cidr} {sets : SetName → List Listed}

def lastOrder : ManagedScope → List Nat
  | .input => [0, 0, 0, 0, 3, 2]
  | .forward => []

theorem rangedEntries_lastOrder (sets : SetName → List Listed) (scope : ManagedScope) : ∃ front v4,
    rangedEntries (lastOrder scope) sets =
      front ++ banEntries sets [.ban scope v4, .ban scope !v4] := by
  cases scope with
  | input =>
    refine ⟨banEntries sets [.ban .forward true, .ban .forward false], false, ?_⟩
    simp [rangedEntries, lastOrder, managedSets, reorder, banEntries]
  | forward =>
    refine ⟨banEntries sets [.ban .input true, .ban .input false], true, ?_⟩
    simp [rangedEntries, lastOrder, managedSets, reorder, banEntries]

theorem latestExpiry_append {entries later : List Entry} {us : Int} (some_ : later ≠ [])
    (same : ∀ p ∈ later, p.2.expiresUS = some us) :
    latestExpiry (entries ++ later) = some us := by
  unfold latestExpiry
  rw [List.foldl_append]
  cases later with
  | nil => exact absurd rfl some_
  | cons p rest =>
    rw [List.foldl_cons, same p List.mem_cons_self, Option.some_or]
    obtain kept | ⟨q, member, latest⟩ := latestExpiry_mem rest (some us)
    · exact kept
    · rw [latest, same q (List.mem_cons_of_mem p member)]

def StandsOnce (sets : SetName → List Listed) (c : Cidr) (scopes : List ManagedScope)
    (expiry : ManagedScope → Int) : Prop :=
  ∀ scope v4, (sets (.ban scope v4)).filter (fun item => item.cidr == c) =
    if scope ∈ scopes ∧ v4 = c.addr.is4 then [⟨c, some (expiry scope)⟩] else []

variable {scopes : List ManagedScope} {expiry : ManagedScope → Int} {order : List Nat}

variable {scope : ManagedScope}

theorem StandsOnce.mem (stands : StandsOnce sets c scopes expiry) {v4 : Bool} {item : Listed}
    (member : item ∈ sets (.ban scope v4)) (own : item.cidr = c) :
    scope ∈ scopes ∧ v4 = c.addr.is4 ∧ item.expiresUS = some (expiry scope) := by
  have filtered : item ∈ (sets (.ban scope v4)).filter (fun item => item.cidr == c) :=
    List.mem_filter.mpr ⟨member, by simpa using own⟩
  rw [stands scope v4] at filtered
  split at filtered
  · rename_i inside
    rw [List.mem_singleton.mp filtered]
    exact ⟨inside.1, inside.2, rfl⟩
  · cases filtered

theorem StandsOnce.entries (stands : StandsOnce sets c scopes expiry) {p : Entry}
    (member : p ∈ entriesOf c (rangedEntries order sets)) :
    p.1 ∈ scopes ∧ p.2.expiresUS = some (expiry p.1) := by
  obtain ⟨⟨v4, listed⟩, own⟩ := mem_entriesOf_ranged.mp member
  obtain ⟨inside, _, until_⟩ := stands.mem listed own
  exact ⟨inside, until_⟩

theorem StandsOnce.listed (stands : StandsOnce sets c scopes expiry) (inside : scope ∈ scopes) :
    ∃ item ∈ sets (.ban scope c.addr.is4), item.cidr = c := by
  have filtered := stands scope c.addr.is4
  rw [if_pos ⟨inside, rfl⟩] at filtered
  have member : (⟨c, some (expiry scope)⟩ : Listed) ∈
      (sets (.ban scope c.addr.is4)).filter (fun item => item.cidr == c) := by
    rw [filtered]
    exact List.mem_singleton_self _
  exact ⟨_, (List.mem_filter.mp member).1, rfl⟩

theorem StandsOnce.latest (stands : StandsOnce sets c scopes expiry) (inside : scope ∈ scopes) :
    latestExpiry (entriesOf c (rangedEntries (lastOrder scope) sets)) = some (expiry scope) := by
  obtain ⟨front, v4, ranged⟩ := rangedEntries_lastOrder sets scope
  have names : ∀ name ∈ [SetName.ban scope v4, .ban scope !v4], ∃ v4, name = .ban scope v4 := by
    simp
  rw [ranged, entriesOf, List.filter_append]
  refine latestExpiry_append ?_ ?_
  · obtain ⟨item, member, own⟩ := stands.listed inside
    refine List.ne_nil_of_mem (a := (scope, item)) ?_
    refine List.mem_filter.mpr ⟨List.mem_flatMap.mpr ?_, by simpa using own⟩
    refine ⟨.ban scope c.addr.is4, ?_, List.mem_map_of_mem member⟩
    cases c.addr.is4 <;> cases v4 <;> simp
  · intro p member
    obtain ⟨entry, own⟩ := List.mem_filter.mp member
    obtain ⟨name, listed, made⟩ := List.mem_flatMap.mp entry
    obtain ⟨v4, rfl⟩ := names name listed
    obtain ⟨item, held, rfl⟩ := List.mem_map.mp made
    exact (stands.mem held (by simpa using own)).2.2

theorem StandsOnce.latest_mem (stands : StandsOnce sets c scopes expiry) (order : List Nat)
    (some_ : scopes ≠ []) : ∃ scope ∈ scopes,
      latestExpiry (entriesOf c (rangedEntries order sets)) = some (expiry scope) := by
  obtain ⟨scope, inside⟩ := List.exists_mem_of_ne_nil _ some_
  obtain ⟨item, member, own⟩ := stands.listed inside
  have entry : (scope, item) ∈ entriesOf c (rangedEntries order sets) :=
    mem_entriesOf_ranged.mpr ⟨⟨_, member⟩, own⟩
  cases latest : latestExpiry (entriesOf c (rangedEntries order sets)) with
  | none =>
    have none_ := ((latestExpiry_eq_none _ none).mp latest).2 _ entry
    rw [(stands.entries entry).2] at none_
    cases none_
  | some us =>
    obtain ⟨p, listed, until_⟩ := exists_of_latestExpiry latest
    obtain ⟨own, same⟩ := stands.entries listed
    exact ⟨p.1, own, until_.symm.trans same⟩

theorem StandsOnce.mem_scopes (stands : StandsOnce sets c scopes expiry) (order : List Nat)
    (scope : ManagedScope) :
    scope ∈ (entriesOf c (rangedEntries order sets)).map Prod.fst ↔ scope ∈ scopes := by
  rw [List.mem_map]
  constructor
  · rintro ⟨p, member, rfl⟩
    exact (stands.entries member).1
  · intro inside
    obtain ⟨item, member, own⟩ := stands.listed inside
    exact ⟨(scope, item), mem_entriesOf_ranged.mpr ⟨⟨_, member⟩, own⟩, rfl⟩

theorem StandsOnce.accepted (stands : StandsOnce sets c scopes expiry)
    (managed : validManagedTarget (some c) = true) (some_ : scopes ≠ [])
    (positive : ∀ name, ∀ item ∈ sets name, ∀ us, item.expiresUS = some us → 0 < us) :
    Accepted c (entriesOf c (rangedEntries order sets)) := by
  rw [accepted_iff positive]
  refine ⟨managed, ?_, fun scope => ?_⟩
  · obtain ⟨scope, inside⟩ := List.exists_mem_of_ne_nil _ some_
    exact ⟨scope, Nftables.mem_scopes.mp ((stands.mem_scopes [] scope).mpr inside)⟩
  · have count : ∀ v4, ((sets (.ban scope v4)).map Listed.cidr).count c =
        if scope ∈ scopes ∧ v4 = c.addr.is4 then 1 else 0 := by
      intro v4
      have filtered := congrArg List.length (stands scope v4)
      rw [List.count_eq_length_filter, List.filter_map, List.length_map]
      exact filtered.trans (by split <;> rfl)
    unfold scopeCidrs
    rw [List.count_append, count true, count false]
    by_cases inside : scope ∈ scopes
    · cases c.addr.is4 <;> simp [inside]
    · simp [inside]

theorem StandsOnce.observation (stands : StandsOnce sets c scopes expiry) {us : Int}
    (ordered : orderedScopes scopes = scopes)
    (latest : latestExpiry (entriesOf c (rangedEntries order sets)) = some us) :
    observationOf c (entriesOf c (rangedEntries order sets)) =
      ⟨some c, .native, some us, scopes⟩ := by
  have same : orderedScopes ((entriesOf c (rangedEntries order sets)).map Prod.fst) = scopes :=
    (orderedScopes_congr (stands.mem_scopes order)).trans ordered
  unfold observationOf
  rw [latest, same]
  rfl

end Merging

section Bans

variable {table : TimedTable} {now : Reading} {c : Cidr} {scopes : List ManagedScope}
  {deadline : ManagedScope → Int}

/-- The ban stands in the sets of its scopes, each element with a deadline of its own, and no other
element stands for it. -/
def TimedTable.Bans (table : TimedTable) (c : Cidr) (scopes : List ManagedScope)
    (deadline : ManagedScope → Int) : Prop :=
  ∀ scope v4, ∃ s, table.sets (.ban scope v4) = some s ∧
    s.elements.filter (fun e => readAs e.cidr == c) =
      if scope ∈ scopes ∧ v4 = c.addr.is4 then [⟨c, some (deadline scope)⟩] else []

/-- The table without the elements that are read as the ban. -/
def TimedTable.without (table : TimedTable) (c : Cidr) : TimedTable where
  sets name := (table.sets name).map fun s =>
    ⟨s.v4, s.timeout, s.elements.filter fun e => !(name.isBan && readAs e.cidr == c)⟩
  chains := table.chains

theorem filter_listed (elements : List TimedElement) (keep : Cidr → Bool) :
    ((elements.filterMap (TimedElement.at now)).map (Element.listed now)).filter
        (fun item => keep item.cidr) =
      ((elements.filter fun e => keep (readAs e.cidr)).filterMap (TimedElement.at now)).map
        (Element.listed now) := by
  induction elements with
  | nil => rfl
  | cons e rest ih =>
    cases made : e.at now with
    | none =>
      rw [List.filter_cons]
      split <;> simp only [List.filterMap_cons, made, ih]
    | some e' =>
      have same : (e'.listed now).cidr = readAs e.cidr := congrArg readAs (cidr_at made)
      cases own : keep (readAs e.cidr) with
      | true => simp [made, same, own, ih]
      | false => simp [made, same, own, ih]

theorem TimedTable.Bans.standsOnce (bans : table.Bans c scopes deadline)
    (readable : Readable now (table.at now)) (managed : validManagedTarget (some c) = true)
    (alive : ∀ scope ∈ scopes, now.ns < deadline scope) :
    StandsOnce (parseRuleset now (some (table.at now))).sets c scopes fun scope =>
      expiryUnixMicro now (remainingSeconds (deadline scope) now) := by
  intro scope v4
  obtain ⟨s, found, filtered⟩ := bans scope v4
  obtain ⟨s', found', listed⟩ := readable.listed (.ban scope v4)
  have same : some ⟨s.v4, s.timeout, s.elements.filterMap (TimedElement.at now)⟩ = some s' := by
    rw [← found']
    show _ = (table.sets (.ban scope v4)).map _
    rw [found]
    rfl
  cases same
  rw [listed, filter_listed _ (· == c), filtered]
  split
  · rename_i inside
    have before := alive scope inside.1
    have own : readAs c = c := readAs_of_bits (validManagedTarget_bits managed)
    have made : TimedElement.at now ⟨c, some (deadline scope)⟩ =
        some ⟨c, some ((deadline scope - now.ns) / 1000000).toNat⟩ := if_neg (not_le.mpr before)
    simp only [List.filterMap_cons, made, List.filterMap_nil, List.map_cons, List.map_nil,
      Element.listed, own, Option.map_some, seconds_of_milliseconds before]
  · rfl

theorem reportedCidrs_without (readable : Readable now (table.at now))
    (others : Readable now ((table.without c).at now)) :
    (reportedCidrs (parseRuleset now (some (table.at now))).sets).card ≤
      (reportedCidrs (parseRuleset now (some ((table.without c).at now))).sets).card + 1 := by
  have sets : ∀ scope v4, ((parseRuleset now (some ((table.without c).at now))).sets
      (.ban scope v4)).map Listed.cidr =
        (((parseRuleset now (some (table.at now))).sets (.ban scope v4)).map Listed.cidr).filter
          (· != c) := by
    intro scope v4
    obtain ⟨s, found, listed⟩ := readable.listed (.ban scope v4)
    obtain ⟨s', found', listed'⟩ := others.listed (.ban scope v4)
    obtain ⟨own, stored, rfl⟩ := Option.map_eq_some_iff.mp found
    obtain ⟨kept, stored', rfl⟩ := Option.map_eq_some_iff.mp found'
    obtain ⟨own', stored'', rfl⟩ := Option.map_eq_some_iff.mp stored'
    obtain rfl : own = own' := Option.some.inj (stored.symm.trans stored'')
    rw [listed, listed', List.filter_map]
    exact congrArg _ (filter_listed own.elements (· != c)).symm
  have scopes : ∀ scope,
      scopeCidrs (parseRuleset now (some ((table.without c).at now))).sets scope =
        (scopeCidrs (parseRuleset now (some (table.at now))).sets scope).filter (· != c) := by
    intro scope
    unfold scopeCidrs
    rw [sets, sets, List.filter_append]
  refine le_trans (Finset.card_le_card ?_) (Finset.card_insert_le c _)
  intro other reported
  by_cases same : other = c
  · exact same ▸ Finset.mem_insert_self _ _
  · refine Finset.mem_insert_of_mem ?_
    have kept : (other != c) = true := by simpa using same
    unfold reportedCidrs at reported ⊢
    simpa [scopes, List.count_filter, kept, same] using reported

theorem expiryUnixMicro_lastSecond {untilUS delay : Int} {generated : Reading} {ms : Nat}
    (timeout : timeoutMS (some untilUS) generated = some (some ms))
    (started : generated.ns + delay ≤ now.ns)
    (alive : now.ns < generated.ns + delay + ms * 1000000) :
    expiryUnixMicro now (remainingSeconds (generated.ns + delay + ms * 1000000) now) * 1000 =
      lastSecond (generated.ns + delay + ms * 1000000) now := by
  have short := timeoutMS_le timeout ms rfl
  have left : generated.ns + delay + ms * 1000000 - now.ns ≤ ms * 1000000 := by omega
  rw [expiryUnixMicro_deadline]
  generalize generated.ns + delay + ms * 1000000 = deadline at *
  have none_ : wraps (remainingSeconds deadline now) = 0 := by
    unfold wraps remainingSeconds second
    unfold maxTimeoutMS at short
    omega
  rw [none_]
  unfold lastSecond second
  split <;> omega

end Bans

/-- A ban as a batch adds it: for each scope the reading its timeout is computed at, and how much
later the timeout starts to run in the kernel. -/
structure Ban where
  cidr : Cidr
  scopes : List ManagedScope
  untilUS : Int
  generated : ManagedScope → Reading
  delay : ManagedScope → Int
  managed : validManagedTarget (some cidr) = true
  ordered : canonicalManagedScopes scopes = some scopes
  ahead : ∀ scope ∈ scopes, timeoutMS (some untilUS) (generated scope) ≠ none
  delayed : ∀ scope ∈ scopes, 0 ≤ delay scope ∧ delay scope < second

namespace Ban

variable (b : Ban)

def timeout (scope : ManagedScope) : Nat :=
  (timeoutMS (some b.untilUS) (b.generated scope)).join.getD 0

def deadline (scope : ManagedScope) : Int :=
  (b.generated scope).ns + b.delay scope + b.timeout scope * 1000000

/-- The postcondition of Apply holds as long as the reported expiry is ahead, and the reconciler
takes it for the one the intent wants. -/
def Recognized (digests : Digests) (intent : Intent) (state : ManagedState) : Prop :=
  ∃ o, state.targets.find? (fun o => o.target == some b.cidr) = some o ∧
    (∀ capabilities basis generation, ∀ check : Reading,
      (∀ us, o.effectiveUntilUS = some us → check.ns / 1000 < us) →
        postcondition digests check state (.target capabilities basis generation (some b.cidr)
          .present .native (some b.untilUS) b.scopes) = true) ∧
    nativeExpiryMatchesIntent (physicalTarget o).nativeExpiry intent = true

variable {b} {scope : ManagedScope} {now : Reading}

theorem timeoutMS_eq (inside : scope ∈ b.scopes) :
    timeoutMS (some b.untilUS) (b.generated scope) = some (some (b.timeout scope)) := by
  have ahead := b.ahead scope inside
  unfold timeout
  unfold timeoutMS at ahead ⊢
  dsimp only at ahead ⊢
  split
  · rename_i none_
    exact absurd (if_pos none_) ahead
  · rfl

theorem timeout_eq (inside : scope ∈ b.scopes) :
    0 < min (b.untilUS * 1000 - (b.generated scope).ns) maxDurationNS ∧
    b.timeout scope =
      max 1 (min (b.untilUS * 1000 - (b.generated scope).ns) maxDurationNS / 1000000).toNat := by
  have made := timeoutMS_eq inside
  unfold timeoutMS at made
  dsimp only at made
  split at made
  · cases made
  · rename_i ahead
    exact ⟨not_le.mp ahead, (Option.some.inj (Option.some.inj made)).symm⟩

theorem le_lastSecond (inside : scope ∈ b.scopes)
    (fits : b.untilUS * 1000 - (b.generated scope).ns ≤ maxDurationNS) :
    b.untilUS * 1000 - 3 * second ≤ lastSecond (b.deadline scope) now := by
  obtain ⟨ahead, timeout⟩ := timeout_eq inside
  have delayed := b.delayed scope inside
  rw [min_eq_left fits] at timeout ahead
  unfold lastSecond deadline
  unfold second at *
  split <;> omega

variable (digests : Digests) {table : TimedTable} {intent : Intent} {us : Int}

theorem nativeExpiry_eq (native : intent.timeoutMode = .native)
    (finite : intent.effectiveUntil = some (Instant.ofMicro us))
    (wanted : intent.nativeExpiry.map Instant.unixMicro = some b.untilUS) :
    intent.nativeExpiry = some (Instant.ofMicro b.untilUS) := by
  have made : intent.nativeExpiry = some (Instant.ofMicro (us + 300000000)) := by
    unfold Intent.nativeExpiry
    rw [native, finite]
    unfold Instant.ofMicro Instant.add Intent.safetyGrace minute second microsecond
    simp
    omega
  rw [made, Option.map_some, Instant.unixMicro_ofMicro] at wanted
  rw [made, Option.some.inj wanted]

theorem nativeExpiryMatchesIntent_iff (native : intent.timeoutMode = .native)
    (finite : intent.effectiveUntil = some (Instant.ofMicro us))
    (wanted : intent.nativeExpiry.map Instant.unixMicro = some b.untilUS) (seen : Int) :
    nativeExpiryMatchesIntent (some (Instant.ofMicro seen)) intent = true ↔
      b.untilUS * 1000 - 3 * second ≤ seen * 1000 ∧ seen * 1000 ≤ b.untilUS * 1000 := by
  unfold nativeExpiryMatchesIntent
  rw [nativeExpiry_eq native finite wanted, finite]
  simp [Instant.before, Instant.after, Instant.add, Instant.ofMicro, microsecond,
    nativeExpirySnapshotTolerance, second]

theorem find_ban (bans : table.Bans b.cidr b.scopes b.deadline) (look : Look) {s : ManagedSnapshot}
    (running : ∀ scope ∈ b.scopes, look.now.ns < b.deadline scope)
    (reported : snapshot digests look (some (table.at look.now)) = .ok s) {us : Int}
    (latest : latestExpiry (entriesOf b.cidr (rangedEntries look.order
      (parseRuleset look.now (some (table.at look.now))).sets)) = some us) :
    s.state.targets.find? (fun o => o.target == some b.cidr) =
      some ⟨some b.cidr, .native, some us, b.scopes⟩ := by
  obtain ⟨readable, _⟩ := snapshot_eq_ok.mp reported
  obtain ⟨_, some_, ordered⟩ := canonicalManagedScopes_eq_some.mp b.ordered
  have stands := bans.standsOnce readable b.managed running
  rw [find_snapshot reported (stands.accepted b.managed some_ (listed_positive _ _)),
    stands.observation ordered latest]

theorem postcondition_ban {state : ManagedState} {seen : Int}
    (found : state.targets.find? (fun o => o.target == some b.cidr) =
      some ⟨some b.cidr, .native, some seen, b.scopes⟩)
    (early : seen ≤ b.untilUS) {check : Reading} (ahead : check.ns / 1000 < seen)
    (capabilities : Capabilities) (basis : String) (generation : Nat) :
    postcondition digests check state (.target capabilities basis generation (some b.cidr)
      .present .native (some b.untilUS) b.scopes) = true := by
  simp [postcondition, found, early, ahead]

theorem listed_ban (inside : scope ∈ b.scopes)
    (running : (b.generated scope).ns + b.delay scope ≤ now.ns ∧ now.ns < b.deadline scope) :
    ∃ e, TimedElement.at now ⟨b.cidr, some (b.deadline scope)⟩ = some e ∧
      ((listElement now e).isSome = true ↔ b.cidr.bits = b.cidr.addr.bitLen) := by
  obtain ⟨started, alive⟩ := running
  refine ⟨_, if_neg (not_le.mpr alive), ?_⟩
  have short := timeoutMS_le (timeoutMS_eq inside) _ rfl
  have fits : ((b.deadline scope - now.ns) / 1000000).toNat ≤ maxTimeoutMS := by
    unfold deadline
    omega
  rw [Option.isSome_iff_exists]
  simp only [listElement_eq_some, exists_eq_left']
  constructor
  · rintro ⟨legible, _⟩
    simpa [Element.legible] using legible
  · intro host
    refine ⟨by simpa [Element.legible] using host, ?_, ?_⟩
    · exact readAs_canonical (validManagedTarget_canonical b.managed)
    · rintro _ ⟨⟩
      exact expiryUnixMicro_pos now fits

theorem readable_ban_iff (bans : table.Bans b.cidr b.scopes b.deadline)
    (running : ∀ scope ∈ b.scopes, (b.generated scope).ns + b.delay scope ≤ now.ns ∧
      now.ns < b.deadline scope)
    (others : Readable now ((table.without b.cidr).at now)) :
    Readable now (table.at now) ↔ b.cidr.bits = b.cidr.addr.bitLen := by
  obtain ⟨_, some_, _⟩ := canonicalManagedScopes_eq_some.mp b.ordered
  constructor
  · intro readable
    obtain ⟨scope, inside⟩ := List.exists_mem_of_ne_nil _ some_
    obtain ⟨e, made, listed⟩ := listed_ban inside (running scope inside)
    obtain ⟨s, found, filtered⟩ := bans scope b.cidr.addr.is4
    obtain ⟨s', found', _, _, each⟩ := readable.sets (.ban scope b.cidr.addr.is4)
    obtain ⟨_, stored, rfl⟩ := Option.map_eq_some_iff.mp found'
    obtain rfl := Option.some.inj (stored.symm.trans found)
    rw [if_pos ⟨inside, rfl⟩] at filtered
    have member := (List.mem_filter.mp (filtered ▸ List.mem_singleton_self _)).1
    exact listed.mp (each e (List.mem_filterMap.mpr ⟨_, member, made⟩))
  · intro host
    refine ⟨fun name => ?_, others.hooked, others.policy⟩
    obtain ⟨s', found', typed, timeout, each⟩ := others.sets name
    obtain ⟨_, stored, rfl⟩ := Option.map_eq_some_iff.mp found'
    obtain ⟨s, found, rfl⟩ := Option.map_eq_some_iff.mp stored
    refine ⟨⟨s.v4, s.timeout, s.elements.filterMap (TimedElement.at now)⟩,
      congrArg (Option.map _) found, typed, timeout, fun e listed => ?_⟩
    obtain ⟨timed, member, made⟩ := List.mem_filterMap.mp listed
    cases own : name.isBan && readAs timed.cidr == b.cidr with
    | false =>
      refine each e (List.mem_filterMap.mpr ⟨timed, ?_, made⟩)
      exact List.mem_filter.mpr ⟨member, congrArg not own⟩
    | true =>
      obtain ⟨isBan, same⟩ := Bool.and_eq_true_iff.mp own
      cases name with
      | allow | protectedTargets => cases isBan
      | ban scope v4 =>
        obtain ⟨s', found', filtered⟩ := bans scope v4
        obtain rfl := Option.some.inj (found'.symm.trans found)
        have among := filtered ▸ List.mem_filter.mpr ⟨member, same⟩
        split at among
        · rename_i inside
          obtain rfl := List.mem_singleton.mp among
          obtain ⟨e', made', listed⟩ := listed_ban inside.1 (running scope inside.1)
          obtain rfl := Option.some.inj (made.symm.trans made')
          exact listed.mpr host
        · cases among

/-- If all else is read and reported, the ban is recognized at a read, whatever the order of the maps,
if and only if it is one of a host, and the second it seems to expire at is not after the wanted expiry
and not more than the tolerance before it. The latter concerns only expiries that are further away than
the longest duration. -/
theorem ban_recognized_iff (native : intent.timeoutMode = .native)
    (finite : intent.effectiveUntil = some (Instant.ofMicro us))
    (wanted : intent.nativeExpiry.map Instant.unixMicro = some b.untilUS)
    (bans : table.Bans b.cidr b.scopes b.deadline)
    (running : ∀ scope ∈ b.scopes, (b.generated scope).ns + b.delay scope ≤ now.ns ∧
      now.ns < b.deadline scope)
    (others : Readable now ((table.without b.cidr).at now))
    (room : (reportedCidrs (parseRuleset now (some ((table.without b.cidr).at now))).sets).card <
      maxManagedSnapshotTargets) :
    (∀ look : Look, look.now = now → ∃ s, snapshot digests look (some (table.at now)) = .ok s ∧
      b.Recognized digests intent s.state) ↔
    b.cidr.bits = b.cidr.addr.bitLen ∧
    ∀ scope ∈ b.scopes, lastSecond (b.deadline scope) now ≤ b.untilUS * 1000 ∧
      (b.untilUS * 1000 - (b.generated scope).ns ≤ maxDurationNS ∨
        b.untilUS * 1000 - 3 * second ≤ lastSecond (b.deadline scope) now) := by
  obtain ⟨_, some_, _⟩ := canonicalManagedScopes_eq_some.mp b.ordered
  have host := readable_ban_iff bans running others
  have alive : ∀ scope ∈ b.scopes, now.ns < b.deadline scope :=
    fun scope inside => (running scope inside).2
  have seconds : ∀ scope ∈ b.scopes,
      expiryUnixMicro now (remainingSeconds (b.deadline scope) now) * 1000 =
        lastSecond (b.deadline scope) now := fun scope inside =>
    expiryUnixMicro_lastSecond (timeoutMS_eq inside) (running scope inside).1 (alive scope inside)
  have judged := nativeExpiryMatchesIntent_iff native finite wanted
  constructor
  · intro recognized
    let at_ (order : List Nat) : Look :=
      ⟨now, order, "", false, digests.infrastructure, digests.infrastructureLower⟩
    obtain ⟨_, reported, _⟩ := recognized (at_ []) rfl
    obtain ⟨readable, _⟩ := snapshot_eq_ok.mp reported
    have stands := bans.standsOnce readable b.managed alive
    refine ⟨host.mp readable, fun scope inside => ?_⟩
    obtain ⟨s, reported, o, found', _, matched⟩ := recognized (at_ (lastOrder scope)) rfl
    have found := find_ban digests bans (at_ (lastOrder scope)) alive reported (stands.latest inside)
    rw [found] at found'
    cases found'
    have bounds := (judged _).mp matched
    rw [seconds scope inside] at bounds
    exact ⟨bounds.2, .inr bounds.1⟩
  · rintro ⟨whole, bounds⟩ look rfl
    have readable := host.mpr whole
    have stands := bans.standsOnce readable b.managed alive
    obtain ⟨s, reported⟩ := snapshot_of_few digests look readable
      ((reportedCidrs_without readable others).trans room)
    obtain ⟨scope, inside, latest⟩ := stands.latest_mem look.order some_
    have found := find_ban digests bans look alive reported latest
    obtain ⟨early, late⟩ := bounds scope inside
    have late : b.untilUS * 1000 - 3 * second ≤ lastSecond (b.deadline scope) look.now :=
      late.elim (le_lastSecond inside) id
    rw [← seconds scope inside] at early late
    refine ⟨s, reported, _, found, ?_, ?_⟩
    · intro capabilities basis generation check ahead
      exact postcondition_ban digests found (by omega) (ahead _ rfl) capabilities basis generation
    · exact (judged _).mpr ⟨late, early⟩

end Ban

section Runs

variable {digests : Digests} {t t' : GuardTable} {markers : List Rule} {basis : ManagedSnapshot}
  {commands : List Command} {start : Int}

/-- The table as the kernel keeps it if the timeouts of its elements start to run at once. -/
def GuardTable.since (t : GuardTable) (start : Int) : TimedTable where
  sets name := (t.sets name).map fun s => ⟨s.v4, s.timeout, s.elements.map fun e =>
    ⟨e.cidr, e.remainingMS.map fun ms => start + ms * 1000000⟩⟩
  chains := t.chains

theorem filter_since {name : SetName} {s : NftSet} (sound : Sound name s) (isBan : name.isBan = true)
    (c : Cidr) :
    (((s.without c).elements.map fun e =>
      (⟨e.cidr, e.remainingMS.map fun ms => start + ms * 1000000⟩ : TimedElement)).filter
        fun e => readAs e.cidr == c) = [] := by
  rw [List.filter_eq_nil_iff]
  intro e member
  obtain ⟨was, inside, rfl⟩ := List.mem_map.mp member
  obtain ⟨held, other⟩ := List.mem_filter.mp inside
  rw [readAs_of_bits (validManagedTarget_bits (sound.managed isBan was held))]
  simpa using other

theorem bans_of_run (framed : Framed markers t) (shows : Shows digests (some t) basis) (b : Ban)
    (made : targetBatch b.generated b.cidr .present (some b.untilUS) b.scopes basis.state.targets =
      some commands)
    (ran : runBatch (some t) commands = some (some t'))
    (started : ∀ scope ∈ b.scopes, (b.generated scope).ns + b.delay scope = start) :
    (t'.since start).Bans b.cidr b.scopes b.deadline := by
  obtain ⟨once, scopesOf⟩ := scopesForTarget_shown framed shows b.cidr
  obtain ⟨distinct, _, _⟩ := canonicalManagedScopes_eq_some.mp b.ordered
  obtain ⟨_, _, placed⟩ | ⟨_, failed⟩ := run_target (prepared_of_framed framed b.cidr)
    (fun scope => (scopesOf scope).mpr) once distinct made
  swap
  · rw [ran] at failed
    cases failed
  rw [ran] at placed
  cases placed
  intro scope v4
  obtain ⟨s, found, sound⟩ := framed.sets (.ban scope v4)
  have own : readAs b.cidr = b.cidr := readAs_of_bits (validManagedTarget_bits b.managed)
  have sets : (GuardTable.placed t b.cidr (addedSets b.cidr .present b.scopes)
      (timeoutOf (some b.untilUS) b.generated)).sets (.ban scope v4) =
        if v4 = b.cidr.addr.is4 then
          some (if scope ∈ b.scopes then (s.without b.cidr).plus (b.cidr, some (b.timeout scope))
            else s.without b.cidr)
        else some s := by
    have among : SetName.ban scope v4 ∈ addedSets b.cidr .present b.scopes ↔
        scope ∈ b.scopes ∧ v4 = b.cidr.addr.is4 := by
      simp [addedSets, mem_targetSets]
    have member : SetName.ban scope v4 ∈
        [SetName.ban .input b.cidr.addr.is4, .ban .forward b.cidr.addr.is4] ↔
          v4 = b.cidr.addr.is4 := by
      cases scope <;> simp
    unfold GuardTable.placed
    rw [sets_editSets, found]
    simp only [member, among, Option.map_some]
    by_cases family : v4 = b.cidr.addr.is4
    · by_cases inside : scope ∈ b.scopes
      · simp [family, inside, timeoutOf, Ban.timeoutMS_eq inside]
      · simp [family, inside]
    · simp [family]
  show ∃ s', Option.map _ _ = some s' ∧ _
  rw [sets]
  by_cases family : v4 = b.cidr.addr.is4
  · rw [if_pos family]
    refine ⟨_, rfl, ?_⟩
    by_cases inside : scope ∈ b.scopes
    · rw [if_pos inside, if_pos ⟨inside, family⟩]
      simp only [NftSet.plus, List.map_append, List.filter_append]
      rw [filter_since sound rfl, List.nil_append]
      simp [own, Ban.deadline, started scope inside]
    · rw [if_neg inside, if_neg fun both => inside both.1]
      exact filter_since sound rfl b.cidr
  · rw [if_neg family]
    refine ⟨_, rfl, ?_⟩
    rw [if_neg fun both => family both.2, List.filter_eq_nil_iff]
    intro e member
    obtain ⟨was, held, rfl⟩ := List.mem_map.mp member
    rw [readAs_of_bits (validManagedTarget_bits (sound.managed rfl was held))]
    intro same
    refine family ?_
    rw [← eq_of_beq same, sound.family was held]
    rfl

end Runs

namespace Sample

def shortBan (delay : Int) (short : 0 ≤ delay ∧ delay < second) : Ban where
  cidr := target
  scopes := [.input]
  untilUS := 600900000
  generated _ := (look digests).now
  delay _ := delay
  managed := by decide +kernel
  ordered := by decide
  ahead := by decide
  delayed _ _ := short

def shortIntent : Intent where
  nodeID := ""
  canonicalTarget := some target
  banMembership := .present
  effectiveUntil := some (Instant.ofMicro 300900000)
  timeoutMode := .native
  scopes := scopeInput
  addressFamily := .ipv4
  policyCoverage := .none
  policyRelationDigest := ""
  backendAttributesDigest := ""
  generation := 1

def later : Look := { look digests with now := ⟨2000000000, by decide, by decide⟩ }

theorem bans_standing (delay : Int) (short : 0 ≤ delay ∧ delay < second) :
    (standing ((shortBan delay short).deadline .input)).Bans (shortBan delay short).cidr
      (shortBan delay short).scopes (shortBan delay short).deadline := by
  intro scope v4
  refine ⟨_, rfl, ?_⟩
  cases scope <;> cases v4 <;> rfl

end Sample

open Sample in
theorem bans_of_run_fresh : ∃ t' : GuardTable, (t'.since 1000000000).Bans target [.input]
    (shortBan 0 (by decide)).deadline := by
  have shows : Shows digests (some fresh) ⟨⟨some ⟨.nftablesNative, managedOwnerVersion,
      managedSchemaVersion, zeros⟩, none, []⟩, zeros, zeros⟩ :=
    ⟨by decide, by simp, rfl, by simp [show bannedOn (some fresh) = ∅ from rfl], by simp, rfl⟩
  have done : ((targetBatch (shortBan 0 (by decide)).generated target .present (some 600900000)
      [.input] []).bind fun commands => (runBatch (some fresh) commands).bind id).isSome = true := by
    decide +kernel
  obtain ⟨t', done⟩ := Option.isSome_iff_exists.mp done
  obtain ⟨commands, made, ran⟩ := Option.bind_eq_some_iff.mp done
  obtain ⟨_, ran, rfl⟩ := Option.bind_eq_some_iff.mp ran
  exact ⟨t', bans_of_run framed_fresh shows (shortBan 0 (by decide)) made ran (by simp [shortBan]; rfl)⟩

theorem Ban.ban_recognized_iff_prompt :
    ∃ s, snapshot Sample.digests Sample.later
        (some ((Sample.standing 600900000000).at Sample.later.now)) = .ok s ∧
      (Sample.shortBan 0 (by decide)).Recognized Sample.digests Sample.shortIntent s.state := by
  have wanted : Sample.shortIntent.nativeExpiry.map Instant.unixMicro =
      some (Sample.shortBan 0 (by decide)).untilUS := by decide
  have due : (Sample.shortBan 0 (by decide)).deadline .input = 600900000000 := by decide
  have bans := Sample.bans_standing 0 (by decide)
  rw [due] at bans
  refine (Ban.ban_recognized_iff Sample.digests rfl rfl wanted bans (by decide) ?_ ?_).mpr
    ⟨by decide, by decide⟩ _ rfl
  · exact conflict_eq_false_iff.mp (by decide +kernel)
  · decide +kernel

/-- If the kernel takes half a second, the ban seems to last longer than wanted. -/
theorem late_ban_unrecognized :
    (snapshot Sample.digests Sample.later (some ((Sample.standing
      ((Sample.shortBan 500000000 (by decide)).deadline .input)).at Sample.later.now))).toOption.map
        (fun s => (postcondition Sample.digests Sample.later.now s.state
          (.target Sample.capabilities "" 1 (some Sample.target) .present .native (some 600900000)
            [.input]),
          s.state.targets.map fun o =>
            (o.effectiveUntilUS,
              nativeExpiryMatchesIntent (physicalTarget o).nativeExpiry Sample.shortIntent))) =
      some (false, [(some 601000000, false)]) := by
  decide +kernel

end GuardWall.Nftables
