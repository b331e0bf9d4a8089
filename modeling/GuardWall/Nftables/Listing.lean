import GuardWall.Nftables.Reports

/-! What Probe and Snapshot report of a guard table that only Guard's batches have changed. -/
namespace GuardWall.Nftables

open GuardWall.Core GuardWall.Firewall GuardWall.Foundation GuardWall.Enforcer GuardWall.Ipc

def maxTimeoutMS : Nat := 9223372036854

structure Sound (name : SetName) (s : NftSet) : Prop where
  v4 : s.v4 = name.v4
  timeout : s.timeout = name.isBan
  distinct : (s.elements.map Element.cidr).Nodup
  family : ∀ e ∈ s.elements, e.cidr.addr.is4 = name.v4
  canonical : ∀ e ∈ s.elements, e.cidr = e.cidr.masked
  fits : ∀ e ∈ s.elements, ∀ ms, e.remainingMS = some ms → ms ≤ maxTimeoutMS
  managed : name.isBan = true → ∀ e ∈ s.elements, validManagedTarget (some e.cidr) = true

structure Framed (markers : List Rule) (t : GuardTable) : Prop where
  sets : ∀ name, ∃ s, t.sets name = some s ∧ Sound name s
  hooked : ∀ scope, t.chains (.hooked scope) = some ⟨some scope, expectedRules scope⟩
  policy : t.chains .guardPolicy = some ⟨none, markers⟩

def Intact (t : GuardTable) : Prop :=
  ∃ markers, Framed markers t ∧
    (markers = [.infrastructureMarker] ∨ markers = [.infrastructureMarker, .policyMarker])

def Legible (t : GuardTable) : Prop :=
  ∀ name s, t.sets name = some s → ∀ e ∈ s.elements, e.legible = true

def banned (t : GuardTable) : Finset Cidr :=
  (managedSets.flatMap fun name =>
    if name.isBan then ((t.sets name).elim [] NftSet.elements).map Element.cidr else []).toFinset

theorem mem_banned {t : GuardTable} {c : Cidr} : c ∈ banned t ↔
    ∃ scope v4 s, t.sets (.ban scope v4) = some s ∧ c ∈ s.elements.map Element.cidr := by
  unfold banned
  rw [List.mem_toFinset, List.mem_flatMap]
  constructor
  · rintro ⟨name, _, member⟩
    cases name with
    | ban scope v4 =>
      cases found : t.sets (.ban scope v4) with
      | none => simp [found, SetName.isBan] at member
      | some s =>
        refine ⟨scope, v4, s, found, ?_⟩
        simpa [found, SetName.isBan] using member
    | _ => simp [SetName.isBan] at member
  · rintro ⟨scope, v4, s, found, member⟩
    refine ⟨.ban scope v4, mem_managedSets _, ?_⟩
    simpa [found, SetName.isBan] using member

theorem mem_banned_iff_held {t : GuardTable} {c : Cidr} :
    c ∈ banned t ↔ ∃ scope, Held (some t) scope c := by
  rw [mem_banned]
  constructor
  · rintro ⟨scope, v4, s, found, member⟩
    exact ⟨scope, t, v4, s, rfl, found, member⟩
  · rintro ⟨scope, _, v4, s, ⟨⟩, found, member⟩
    exact ⟨scope, v4, s, found, member⟩

section Elements

theorem keep_bitLen (a : Addr) : a.keep a.bitLen = a := by
  cases a with
  | v4 bits =>
    show Addr.v4 (bits &&& BitVec.allOnes 32 <<< 0) = _
    rw [BitVec.shiftLeft_zero, BitVec.and_allOnes]
  | v6 bits =>
    show Addr.v6 (bits &&& BitVec.allOnes 128 <<< 0) = _
    rw [BitVec.shiftLeft_zero, BitVec.and_allOnes]

theorem readAs_canonical {c : Cidr} (canonical : c = c.masked) :
    readAs c = (readAs c).masked := by
  unfold readAs
  split
  · simp [Cidr.masked, keep_bitLen]
  · exact canonical

theorem validManagedTarget_canonical {c : Cidr} (valid : validManagedTarget (some c) = true) :
    c = c.masked := by
  unfold validManagedTarget Prefix.canonical Prefix.masked at valid
  simp only [Option.isSome_some, Option.map_some, Bool.true_and, Bool.and_eq_true, beq_iff_eq,
    Option.some.injEq] at valid
  exact valid.1.1

variable (now : Reading) {ms : Nat}

theorem secondsDuration_eq (fits : ms ≤ maxTimeoutMS) :
    secondsDuration (ms / 1000 : Nat) = (ms / 1000 : Nat) * 1000000000 := by
  unfold secondsDuration
  unfold maxTimeoutMS at fits
  refine Int.bmod_eq_of_le ?_ ?_ <;> omega

theorem expiryUnixMicro_pos (fits : ms ≤ maxTimeoutMS) :
    0 < expiryUnixMicro now (ms / 1000 : Nat) := by
  have early := now.early
  unfold expiryUnixMicro
  rw [secondsDuration_eq fits]
  omega

theorem expiryUnixMicro_le (fits : ms ≤ maxTimeoutMS) :
    expiryUnixMicro now (ms / 1000 : Nat) ≤ maxInt64 := by
  have late := now.late
  unfold expiryUnixMicro
  rw [secondsDuration_eq fits]
  unfold maxDurationNS maxInt64 at *
  unfold maxTimeoutMS at fits
  omega

end Elements

section Parse

variable (now : Reading) {name : SetName} {s : NftSet} {t : GuardTable} {markers : List Rule}

theorem Sound.listed (sound : Sound name s) {e : Element} (member : e ∈ s.elements) :
    (listElement now e).isSome = e.legible := by
  rw [Bool.eq_iff_iff, Option.isSome_iff_exists]
  simp only [listElement_eq_some, exists_eq_left']
  constructor
  · exact fun listed => listed.1
  · intro legible
    exact ⟨legible, readAs_canonical (sound.canonical e member), fun ms left =>
      expiryUnixMicro_pos now (sound.fits e member ms left)⟩

theorem Intact.readable_iff (intact : Intact t) : Readable now t ↔ Legible t := by
  obtain ⟨markers, framed, shape⟩ := intact
  constructor
  · intro readable name s found e member
    obtain ⟨s', found', _, _, each⟩ := readable.sets name
    obtain ⟨own, found'', sound⟩ := framed.sets name
    obtain rfl : s' = s := Option.some.inj (found'.symm.trans found)
    obtain rfl : own = s' := Option.some.inj (found''.symm.trans found)
    exact (sound.listed now member).symm.trans (each e member)
  · intro legible
    refine ⟨fun name => ?_, framed.hooked, markers, framed.policy, shape.imp_right .inl⟩
    obtain ⟨s, found, sound⟩ := framed.sets name
    exact ⟨s, found, sound.v4, sound.timeout, fun e member =>
      (sound.listed now member).trans (legible name s found e member)⟩

theorem Framed.tidy (framed : Framed markers t) : Tidy t := by
  refine ⟨fun scope c held => ?_, fun scope => ?_⟩
  · obtain ⟨_, v4, s, ⟨⟩, found, member⟩ := held_iff.mpr held
    obtain ⟨own, found', sound⟩ := framed.sets (.ban scope v4)
    obtain rfl : own = s := Option.some.inj (found'.symm.trans found)
    obtain ⟨e, among, rfl⟩ := List.mem_map.mp member
    exact sound.managed rfl e among
  · obtain ⟨s4, found4, sound4⟩ := framed.sets (.ban scope true)
    obtain ⟨s6, found6, sound6⟩ := framed.sets (.ban scope false)
    unfold bannedIn
    rw [found4, found6, Option.elim_some, Option.elim_some, List.map_append, List.nodup_append]
    refine ⟨sound4.distinct, sound6.distinct, ?_⟩
    intro c left d right same
    obtain ⟨e, among, rfl⟩ := List.mem_map.mp left
    obtain ⟨e', among', rfl⟩ := List.mem_map.mp right
    have family4 : e.cidr.addr.is4 = true := sound4.family e among
    have family6 : e'.cidr.addr.is4 = false := sound6.family e' among'
    rw [same, family6] at family4
    cases family4

end Parse

section Snapshots

variable {t : GuardTable} {markers : List Rule}

structure Observes (t : GuardTable) (os : List TargetObservation) : Prop where
  built : ∀ o ∈ os, Built o
  distinct : (os.map TargetObservation.target).Nodup
  targets : ∀ c, some c ∈ os.map TargetObservation.target ↔ c ∈ banned t
  scopes : ∀ o ∈ os, ∀ c, o.target = some c → ∀ scope, scope ∈ o.scopes ↔ Held (some t) scope c

theorem Observes.length {os : List TargetObservation} (observes : Observes t os) :
    os.length = (banned t).card := by
  have same : (os.map TargetObservation.target).toFinset = (banned t).image some := by
    ext target
    rw [List.mem_toFinset, Finset.mem_image]
    constructor
    · intro member
      obtain ⟨o, inside, rfl⟩ := List.mem_map.mp member
      obtain ⟨c, target⟩ := (observes.built o inside).target
      rw [target] at member ⊢
      exact ⟨c, (observes.targets c).mp member, rfl⟩
    · rintro ⟨c, member, rfl⟩
      exact (observes.targets c).mpr member
  rw [← List.length_map (f := TargetObservation.target),
    ← List.toFinset_card_of_nodup observes.distinct, same,
    Finset.card_image_of_injective _ (Option.some_injective _)]

theorem observes_of_perm {now : Reading} {order : List Nat} {os : List TargetObservation}
    (framed : Framed markers t) (readable : Readable now t)
    (perm : os.Perm (targetObservations order (parseRuleset now (some t)).sets)) :
    Observes t os := by
  have exact_ := (Exact.perm perm).mpr (exact_of_tidy readable framed.tidy)
  refine ⟨fun o member => ?_, (perm.map _).nodup_iff.mpr (nodup_targetObservations ..), ?_,
    exact_.scopes⟩
  · have member := perm.mem_iff.mp member
    refine ⟨valid_of_mem_targetObservations member, ?_, ?_⟩
    · obtain ⟨c, accepted, rfl⟩ := mem_targetObservations.mp member
      exact canonicalManagedScopes_ordered (by simpa using accepted.some_)
    · obtain ⟨c, _, rfl⟩ := mem_targetObservations.mp member
      intro us latest
      obtain ⟨⟨scope, item⟩, inside, until_⟩ := exists_of_latestExpiry latest
      obtain ⟨v4, listed⟩ := mem_rangedEntries.mp (mem_entriesOf.mp inside).1
      obtain ⟨s, found, read⟩ := readable.listed (.ban scope v4)
      obtain ⟨own, found', sound⟩ := framed.sets (.ban scope v4)
      obtain rfl : own = s := Option.some.inj (found'.symm.trans found)
      rw [read] at listed
      obtain ⟨e, among, rfl⟩ := List.mem_map.mp listed
      obtain ⟨ms, left, rfl⟩ := Option.map_eq_some_iff.mp until_
      exact expiryUnixMicro_le now (sound.fits e among ms left)
  · intro c
    rw [exact_.targets, mem_banned_iff_held]

structure Reported (digests : Digests) (look : Look) (t : GuardTable) (s : ManagedSnapshot) : Prop
    where
  valid : s.valid digests.snapshot = true
  observes : Observes t s.state.targets
  infrastructure : s.state.infrastructure =
    some ⟨.nftablesNative, managedOwnerVersion, managedSchemaVersion, digests.infrastructure⟩
  policy : s.state.policy.isSome = (t.rules .guardPolicy).contains .policyMarker

variable (digests : Digests) (look : Look)

/-- Snapshot reports an intact table if and only if every element is read and it bans at most as many
prefixes as a managed state has targets. -/
theorem snapshot_intact (intact : Intact t) :
    (Legible t ∧ (banned t).card ≤ maxManagedSnapshotTargets ∧
      ∃ s, snapshot digests look (some t) = .ok s ∧ Reported digests look t s) ∨
    (Legible t ∧ maxManagedSnapshotTargets < (banned t).card ∧
      snapshot digests look (some t) = .error .unavailable) ∨
    (¬ Legible t ∧ snapshot digests look (some t) = .error .ownershipConflict) := by
  by_cases legible : Legible t
  · have readable := (intact.readable_iff look.now).mpr legible
    obtain ⟨markers, framed, _⟩ := intact
    have length := (observes_of_perm framed readable
      (List.Perm.refl (targetObservations look.order (parseRuleset look.now (some t)).sets))).length
    by_cases few : (banned t).card ≤ maxManagedSnapshotTargets
    · obtain ⟨s, reported⟩ : ∃ s, snapshot digests look (some t) = .ok s :=
        ⟨_, snapshot_eq_ok.mpr ⟨readable, length.le.trans few, rfl⟩⟩
      have valid := valid_of_snapshot reported
      refine .inl ⟨legible, few, s, reported, ?_⟩
      obtain ⟨_, _, rfl⟩ := snapshot_eq_ok.mp reported
      refine ⟨valid, ?_, rfl, ?_⟩
      · exact observes_of_perm framed readable (List.mergeSort_perm _ _)
      · have marked : (parseRuleset look.now (some t)).policy =
            (t.rules .guardPolicy).contains .policyMarker := rfl
        rw [← marked, stateOf]
        dsimp only
        split <;> simp_all
    · refine .inr (.inl ⟨legible, not_le.mp few, ?_⟩)
      exact snapshot_unavailable readable (by rwa [length, ← not_le])
  · refine .inr (.inr ⟨legible, if_pos ?_⟩)
    rw [← Bool.not_eq_false, conflict_eq_false_iff, intact.readable_iff]
    exact legible

end Snapshots

end GuardWall.Nftables
