import GuardWall.Nftables.Effects

/-! Whether Snapshot can report a host after a run of Guard's own mutations. -/
namespace GuardWall.Nftables

open GuardWall.Core GuardWall.Firewall GuardWall.Foundation GuardWall.Enforcer GuardWall.Ipc

def Kept (host : Host) : Prop := ∀ t, host = some t → Intact t

def bannedOn (host : Host) : Finset Cidr := host.elim ∅ banned

def LegibleOn (host : Host) : Prop := ∀ t, host = some t → Legible t

/-- Snapshot reports the host at every look, and the response with the report is read back. -/
def Reportable (digests : Digests) (host : Host) : Prop :=
  ∀ look, ∃ s, snapshot digests look host = .ok s ∧
    ∀ netip : PrefixParser, ∃ raw, encodeSnapshotManagedResponse digests.snapshot s = .ok raw ∧
      decodeSnapshotManagedResponse netip digests.snapshot raw = .ok s

section Hosts

variable {digests : Digests} {host : Host}

structure Shows (digests : Digests) (host : Host) (s : ManagedSnapshot) : Prop where
  valid : s.valid digests.snapshot = true
  built : ∀ o ∈ s.state.targets, Built o
  length : s.state.targets.length = (bannedOn host).card
  targets : ∀ c, some c ∈ s.state.targets.map TargetObservation.target ↔ c ∈ bannedOn host
  scopes : ∀ o ∈ s.state.targets, ∀ c, o.target = some c →
    ∀ scope, scope ∈ o.scopes ↔ Held host scope c
  infrastructure : s.state.infrastructure.isSome = host.isSome

theorem snapshot_none (digests : Digests) (look : Look) :
    ∃ s, snapshot digests look none = .ok s ∧ Shows digests none s := by
  refine ⟨_, snapshot_none_eq digests look, ?_, by simp, rfl, by simp [bannedOn], by simp, rfl⟩
  simp [ManagedSnapshot.valid, digests.snapshotLower, look.foreignLower]
  rfl

theorem snapshot_kept (digests : Digests) (kept : Kept host) (look : Look) :
    (LegibleOn host ∧ (bannedOn host).card ≤ maxManagedSnapshotTargets ∧
      ∃ s, snapshot digests look host = .ok s ∧ Shows digests host s) ∨
    (LegibleOn host ∧ maxManagedSnapshotTargets < (bannedOn host).card ∧
      snapshot digests look host = .error .unavailable) ∨
    (¬ LegibleOn host ∧ snapshot digests look host = .error .ownershipConflict) := by
  cases host with
  | none => exact .inl ⟨by simp [LegibleOn], Nat.zero_le _, snapshot_none digests look⟩
  | some t =>
    have same : LegibleOn (some t) ↔ Legible t := by simp [LegibleOn]
    rw [same]
    refine (snapshot_intact digests look (kept t rfl)).imp_left ?_
    rintro ⟨legible, few, s, reported, report⟩
    refine ⟨legible, few, s, reported, report.valid, report.observes.built,
      report.observes.length, report.observes.targets, report.observes.scopes, ?_⟩
    rw [report.infrastructure]
    rfl

theorem snapshot_shows (kept : Kept host) {look : Look} {s : ManagedSnapshot}
    (reported : snapshot digests look host = .ok s) : Shows digests host s := by
  obtain ⟨_, _, s', reported', shows⟩ | ⟨_, _, failed⟩ | ⟨_, failed⟩ :=
    snapshot_kept digests kept look
  · rw [reported] at reported'
    cases reported'
    exact shows
  · rw [reported] at failed
    cases failed
  · rw [reported] at failed
    cases failed

theorem legible_of_reported (kept : Kept host) {look : Look} {s : ManagedSnapshot}
    (reported : snapshot digests look host = .ok s) : LegibleOn host := by
  obtain ⟨legible, _⟩ | ⟨legible, _⟩ | ⟨_, failed⟩ := snapshot_kept digests kept look
  · exact legible
  · exact legible
  · rw [reported] at failed
    cases failed

/-- Whether every element is read and the number of the banned prefixes decide whether the host is
reported; the codec carries every report. -/
theorem reportable_iff (kept : Kept host) :
    Reportable digests host ↔
      LegibleOn host ∧ (bannedOn host).card ≤ maxManagedSnapshotTargets := by
  constructor
  · intro reportable
    have look : Look := ⟨⟨1000000000, by decide, by decide⟩, [], "", false, digests.infrastructure,
      digests.infrastructureLower⟩
    obtain ⟨s, reported, _⟩ := reportable look
    obtain ⟨legible, few, _⟩ | ⟨_, _, failed⟩ | ⟨_, failed⟩ := snapshot_kept digests kept look
    · exact ⟨legible, few⟩
    · rw [reported] at failed
      cases failed
    · rw [reported] at failed
      cases failed
  · rintro ⟨legible, few⟩ look
    obtain ⟨_, _, s, reported, shows⟩ | ⟨_, many, _⟩ | ⟨illegible, _⟩ :=
      snapshot_kept digests kept look
    · exact ⟨s, reported, fun netip => decode_encode netip shows.valid shows.built⟩
    · exact absurd few (not_le.mpr many)
    · exact absurd legible illegible

end Hosts

namespace Move

def adds : Move → Option Cidr
  | mutation (.apply (.target _ _ _ cidr .present _ _ _)) _ _ _ _ => cidr
  | _ => none

/-- A Target that is not among those of the authorizing snapshot finds room in it. -/
def Roomy (digests : Digests) (host : Host) (move : Move) : Prop :=
  match move with
  | mutation _ authorizing _ _ _ =>
      ∀ c s, move.adds = some c → snapshot digests authorizing host = .ok s →
        some c ∈ s.state.targets.map TargetObservation.target ∨
          s.state.targets.length < maxManagedSnapshotTargets
  | elapse _ => True

def Obscures : Move → Prop
  | mutation (.apply (.target _ _ _ (some c) .present _ (some _) _)) _ _ _ _ =>
      c.bits ≠ c.addr.bitLen
  | _ => False

end Move

section Steps

variable {digests : Digests} {host changed : Host}

def Carried (clock : ManagedScope → Reading) (state : ManagedState) (authority : Authority)
    (host changed : Host) : Prop :=
  work clock state authority = .nothing ∧ changed = host ∨
    ∃ commands, work clock state authority = .batch commands ∧
      runBatch host commands = some changed

variable {before after : Look} {authority : Authority} {request : Enforcer.Request} {batch : List Command}
  {mode : TimeoutMode}

theorem mutate_executed {confirmed : Bool}
    (h : mutate digests before after clock authority host = .executed confirmed changed) :
    ∃ basis, snapshot digests before host = .ok basis ∧
      Carried clock basis.state authority host changed := by
  unfold mutate at h
  split at h
  · cases h
  split at h
  · cases h
  split at h
  · cases h
  rename_i basis reported
  refine ⟨basis, reported, ?_⟩
  split at h
  · cases h
  split at h
  · rename_i nothing
    cases h
    exact .inl ⟨nothing, rfl⟩
  · cases h
  · rename_i commands batch
    refine .inr ⟨commands, batch, ?_⟩
    split at h
    · cases h
    · rename_i result executed
      split at h <;> cases h <;> exact executed

theorem step_mutation {authorizing : Look}
    (done : step digests host (.mutation request authorizing before after clock) = some changed) :
    ∃ authority s basis, snapshot digests authorizing host = .ok s ∧ Permitted request authority ∧
      snapshot digests before host = .ok basis ∧
      Carried clock basis.state authority host changed := by
  simp only [step] at done
  obtain ⟨authority, granted, done⟩ := Option.bind_eq_some_iff.mp done
  unfold authorize at granted
  obtain ⟨capabilities, _, granted⟩ := Option.bind_eq_some_iff.mp granted
  obtain ⟨s, reported, granted⟩ := Option.bind_eq_some_iff.mp granted
  split at granted
  · rename_i authority' authorized
    cases granted
    split at done
    · rename_i confirmed result ended
      cases done
      obtain ⟨basis, based, executed⟩ := mutate_executed ended
      exact ⟨authority, s, basis, toOption_eq_some.mp reported,
        permitted_request (toOption_eq_some.mp authorized), based, executed⟩
    · cases done
  · cases granted

theorem runBatch_none {command : Command} (other : command ≠ .addTable) :
    runBatch none (command :: batch) = none := by
  cases command with
  | addTable => exact absurd rfl other
  | _ => rfl

structure Effect (host changed : Host) (added : Option Cidr) (obscured : Prop) : Prop where
  kept : Kept changed
  within : ∀ c ∈ bannedOn changed, c ∈ bannedOn host ∨ added = some c
  fresh : ∀ c, added = some c → c ∉ bannedOn host → bannedOn changed = insert c (bannedOn host)
  legible : LegibleOn host → (LegibleOn changed ↔ ¬ obscured)

theorem Effect.refl (kept : Kept host) : Effect host host none False :=
  ⟨kept, fun _ member => .inl member, by simp, fun legible => iff_of_true legible id⟩

variable {t : GuardTable} {c : Cidr} {membership : BanMembership} {expiryUS : Option Int}
  {scopes : List ManagedScope} {commands : List Command} {markers : List Rule}

theorem Effect.shrinks {t' : GuardTable} (intact : Intact t') (fewer : banned t' ⊆ banned t)
    (legible : Legible t → Legible t') : Effect (some t) (some t') none False where
  kept := fun _ same => Option.some.inj same ▸ intact
  within := fun _ member => .inl (fewer member)
  fresh := by simp
  legible := fun before => iff_of_true
    (fun _ same => Option.some.inj same ▸ legible (before t rfl)) id

variable {basis : ManagedSnapshot} {clock : ManagedScope → Reading} {capabilities : Capabilities}
  {digest : String} {revision : Nat}

theorem effect_infrastructure (kept : Kept host) (shows : Shows digests host basis)
    (done : Carried clock basis.state (.infrastructure capabilities digest revision) host changed) :
    Effect host changed none False := by
  obtain ⟨_, rfl⟩ | ⟨commands, made, done⟩ := done
  · exact .refl kept
  simp only [work, shows.infrastructure] at made
  cases host with
  | some t => simp at made
  | none =>
    simp only [Option.isSome_none, Bool.false_eq_true, if_false] at made
    cases made
    obtain ⟨t, fresh, framed, empty, bare⟩ := infrastructureBatch_fresh
    have legible := legible_empty bare
    rw [fresh] at done
    cases done
    refine ⟨fun _ same => Option.some.inj same ▸ ⟨_, framed, .inl rfl⟩, ?_, by simp, ?_⟩
    · intro c member
      have member : c ∈ banned t := member
      simp [empty] at member
    · exact fun _ => iff_of_true (fun _ same => Option.some.inj same ▸ legible) id

theorem effect_policy (kept : Kept host) {allowlist protectedTargets : List Prefix}
    (allow : validCanonicalPrefixList allowlist = true)
    (protect : validCanonicalPrefixList protectedTargets = true)
    (done : Carried clock basis.state
      (.policy capabilities digest revision allowlist protectedTargets) host changed) :
    Effect host changed none False := by
  obtain ⟨_, rfl⟩ | ⟨commands, made, done⟩ := done
  · exact .refl kept
  simp only [work] at made
  split at made
  · cases made
  · cases made
    cases host with
    | none =>
      unfold policyBatch at done
      rw [List.cons_append, List.cons_append, List.cons_append, List.cons_append, List.cons_append,
        runBatch_none (by simp)] at done
      cases done
    | some t =>
      obtain ⟨markers, framed, _⟩ := kept t rfl
      have found : ∀ name ∈ policyNames, ∃ s, t.sets name = some s ∧ s.v4 = name.v4 :=
        fun name _ => (framed.sets name).imp fun _ h => ⟨h.1, h.2.v4⟩
      obtain ⟨_, ran⟩ | ⟨_, failed⟩ := run_policy found framed.policy allow protect
      · rw [done] at ran
        cases ran
        exact .shrinks ⟨_, framed.policed allow protect, .inr rfl⟩ (banned_policed _).subset
          fun legible => legible.policed _
      · rw [done] at failed
        cases failed

theorem effect_removal (kept : Kept host) (shows : Shows digests host basis)
    (done : Carried clock basis.state (.removal capabilities digest) host changed) :
    Effect host changed none False := by
  obtain ⟨_, rfl⟩ | ⟨commands, made, done⟩ := done
  · exact .refl kept
  simp only [work] at made
  split at made
  · cases made
  · cases made
    cases host with
    | none => cases done
    | some t =>
      cases done
      exact ⟨by simp [Kept], by simp [bannedOn], by simp, fun _ => by simp [LegibleOn]⟩

theorem work_target {state : ManagedState} (made : work clock state
      (.target capabilities digest revision (some c) membership mode expiryUS scopes) =
        .batch commands) :
    targetBatch clock c membership expiryUS scopes state.targets = some commands := by
  simp only [work] at made
  split at made
  · cases made
  · cases batch : targetBatch clock c membership expiryUS scopes state.targets with
    | none => simp [batch, Work.ofOption] at made
    | some found =>
      rw [batch] at made
      cases made
      rfl

theorem runBatch_targetBatch_none {observed : List TargetObservation}
    (made : targetBatch clock c membership expiryUS scopes observed = some batch) :
    runBatch none batch = none := by
  have shape : batch ≠ [] ∧ ∀ command ∈ batch, command ≠ .addTable := by
    cases membership with
    | absent =>
      obtain ⟨some_, rfl⟩ := targetBatch_absent made
      simp [deletions, targetSets, some_]
    | present =>
      obtain ⟨some_, _, rfl⟩ := targetBatch_present made
      refine ⟨by simp [additions, targetSets, some_], fun command member => ?_⟩
      obtain member | member := List.mem_append.mp member
      all_goals
        obtain ⟨name, _, rfl⟩ := List.mem_map.mp member
        simp
  obtain ⟨command, rest, rfl⟩ := List.exists_cons_of_ne_nil shape.1
  exact runBatch_none (shape.2 command List.mem_cons_self)

theorem held_iff_inSet (framed : Framed markers t) {scope : ManagedScope} :
    Held (some t) scope c ↔ InSet t scope c := by
  constructor
  · rintro ⟨_, v4, s, ⟨⟩, found, member⟩
    obtain ⟨own, found', sound⟩ := framed.sets (.ban scope v4)
    obtain rfl : own = s := Option.some.inj (found'.symm.trans found)
    obtain ⟨e, among, rfl⟩ := List.mem_map.mp member
    obtain rfl : e.cidr.addr.is4 = v4 := sound.family e among
    exact ⟨own, found, member⟩
  · rintro ⟨s, found, member⟩
    exact ⟨t, _, s, rfl, found, member⟩

theorem prepared_of_framed (framed : Framed markers t) (c : Cidr) : Prepared t c := by
  intro scope
  obtain ⟨s, found, sound⟩ := framed.sets (.ban scope c.addr.is4)
  exact ⟨s, found, sound.v4, sound.timeout⟩

theorem find_target {os : List TargetObservation}
    (absent : some c ∉ os.map TargetObservation.target) : scopesForTarget os c = [] := by
  unfold scopesForTarget
  rw [List.find?_eq_none.mpr]
  · rfl
  · intro o member same
    exact absent (List.mem_map.mpr ⟨o, member, by simpa using same⟩)

theorem scopesForTarget_shown (framed : Framed markers t) (shows : Shows digests (some t) basis)
    (c : Cidr) :
    (scopesForTarget basis.state.targets c).Nodup ∧
    ∀ scope, scope ∈ scopesForTarget basis.state.targets c ↔ InSet t scope c := by
  cases found : basis.state.targets.find? fun o => o.target == some c with
  | none =>
    have absent : some c ∉ basis.state.targets.map TargetObservation.target := by
      intro member
      obtain ⟨o, inside, same⟩ := List.mem_map.mp member
      exact List.find?_eq_none.mp found o inside (by simpa using same)
    rw [find_target absent]
    refine ⟨List.nodup_nil, fun scope => iff_of_false (by simp) fun held => absent ?_⟩
    rw [shows.targets]
    exact mem_banned_iff_held.mpr ⟨scope, (held_iff_inSet framed).mpr held⟩
  | some o =>
    have inside := List.mem_of_find?_eq_some found
    have target : o.target = some c := by simpa using List.find?_some found
    have same : scopesForTarget basis.state.targets c = o.scopes := by
      simp [scopesForTarget, found]
    rw [same]
    refine ⟨(canonicalManagedScopes_eq_some.mp (shows.built o inside).canonical).1, fun scope => ?_⟩
    rw [shows.scopes o inside c target, held_iff_inSet framed]

theorem legibleOn_some : LegibleOn (some t) ↔ Legible t := by
  simp [LegibleOn]

theorem placed_of_run (framed : Framed markers t) (shows : Shows digests (some t) basis)
    (ordered : canonicalManagedScopes scopes = some scopes)
    (made : targetBatch clock c membership expiryUS scopes basis.state.targets = some commands)
    (done : runBatch (some t) commands = some changed) :
    changed = some (t.placed c (addedSets c membership scopes) (timeoutOf expiryUS clock)) := by
  obtain ⟨once, scopesOf⟩ := scopesForTarget_shown framed shows c
  obtain ⟨distinct, _, _⟩ := canonicalManagedScopes_eq_some.mp ordered
  obtain ⟨_, _, ran⟩ | ⟨_, failed⟩ := run_target (prepared_of_framed framed c)
    (fun scope => (scopesOf scope).mpr) once distinct made
  · exact Option.some.inj (done.symm.trans ran)
  · rw [done] at failed
    cases failed

theorem legible_target (framed : Framed markers t)
    (ordered : canonicalManagedScopes scopes = some scopes)
    (made : targetBatch clock c membership expiryUS scopes basis.state.targets = some commands)
    (legible : Legible t) :
    Legible (t.placed c (addedSets c membership scopes) (timeoutOf expiryUS clock)) ↔
      ¬ (membership = .present ∧ expiryUS.isSome = true ∧ c.bits ≠ c.addr.bitLen) := by
  obtain ⟨_, some_, _⟩ := canonicalManagedScopes_eq_some.mp ordered
  cases membership with
  | absent => exact iff_of_true (legible.placed (by simp [addedSets])) (by simp)
  | present =>
    have own : ∀ scope ∈ scopes,
        Element.legible ⟨c, timeoutOf expiryUS clock (.ban scope c.addr.is4)⟩ = true ↔
          ¬ (expiryUS.isSome = true ∧ c.bits ≠ c.addr.bitLen) := by
      intro scope member
      have timed := timeoutOf_isSome c.addr.is4 member made
      unfold Element.legible
      cases left : timeoutOf expiryUS clock (.ban scope c.addr.is4) <;> simp_all
    rw [and_iff_right rfl]
    constructor
    · intro legible'
      obtain ⟨scope, member⟩ := List.exists_mem_of_ne_nil scopes some_
      exact (own scope member).mp (element_of_legible_placed (prepared_of_framed framed c)
        (mem_targetSets.mpr ⟨scope, member, rfl⟩) legible')
    · intro short
      refine legible.placed fun name member => ?_
      obtain ⟨scope, inside, rfl⟩ := mem_targetSets.mp member
      exact (own scope inside).mpr short

theorem effect_target (kept : Kept host) (shows : Shows digests host basis)
    (managed : validManagedTarget (some c) = true)
    (ordered : canonicalManagedScopes scopes = some scopes) (done : Carried clock basis.state
      (.target capabilities digest revision (some c) membership mode expiryUS scopes) host
      changed) :
    Effect host changed (if membership = .present then some c else none)
      (membership = .present ∧ expiryUS.isSome = true ∧ c.bits ≠ c.addr.bitLen) := by
  obtain ⟨made, rfl⟩ | ⟨commands, made, done⟩ := done
  · cases membership with
    | absent => simpa using Effect.refl kept
    | present =>
      cases batch : targetBatch clock c .present expiryUS scopes basis.state.targets <;>
        simp [work, batch, Work.ofOption] at made
  have made := work_target made
  cases host with
  | none =>
    rw [runBatch_targetBatch_none made] at done
    cases done
  | some t =>
    obtain ⟨markers, framed, shape⟩ := kept t rfl
    obtain rfl := placed_of_run framed shows ordered made done
    have legible := legible_target framed ordered made
    have fitting : ∀ name ∈ addedSets c membership scopes,
        Fitting name (c, timeoutOf expiryUS clock name) := by
      intro name member
      cases membership with
      | absent => cases member
      | present =>
        obtain ⟨scope, inside, rfl⟩ := mem_targetSets.mp member
        obtain ⟨timeout, left⟩ := (targetBatch_present made).2.1 scope inside
        refine ⟨rfl, validManagedTarget_canonical managed, ?_, fun _ => managed⟩
        simpa [timeoutOf, left] using timeoutMS_le left
    have intact : Intact (t.placed c (addedSets c membership scopes) (timeoutOf expiryUS clock)) :=
      ⟨markers, framed.placed fitting, shape⟩
    cases membership with
    | absent =>
      simpa using Effect.shrinks intact (fun d member => by
        simpa [addedSets] using ((mem_banned_placed framed).mp member).imp_right And.right)
        fun before => (legible before).mpr (by simp)
    | present =>
      obtain ⟨_, some_, _⟩ := canonicalManagedScopes_eq_some.mp ordered
      obtain ⟨scope, inside⟩ := List.exists_mem_of_ne_nil scopes some_
      have added : ∃ scope, SetName.ban scope c.addr.is4 ∈ addedSets c .present scopes :=
        ⟨scope, mem_targetSets.mpr ⟨scope, inside, rfl⟩⟩
      refine ⟨fun _ same => Option.some.inj same ▸ intact, fun d member => ?_, fun d same absent => ?_,
        fun before => ?_⟩
      · obtain ⟨rfl, _⟩ | ⟨_, old⟩ := (mem_banned_placed framed).mp member
        · exact .inr rfl
        · exact .inl old
      · obtain rfl : c = d := by simpa using same
        ext d
        change d ∈ banned _ ↔ d ∈ insert c (banned t)
        rw [mem_banned_placed framed, Finset.mem_insert]
        by_cases own : d = c
        · simp [own, added]
        · simp [own]
      · rw [legibleOn_some] at before ⊢
        exact legible before

theorem effect_of_carried (looks : Look × Look × Look) (kept : Kept host)
    (shows : Shows digests host basis) (permitted : Permitted request authority)
    (done : Carried clock basis.state authority host changed) :
    Effect host changed (Move.adds (.mutation request looks.1 looks.2.1 looks.2.2 clock))
      (Move.Obscures (.mutation request looks.1 looks.2.1 looks.2.2 clock)) := by
  cases permitted with
  | infrastructure => exact effect_infrastructure kept shows done
  | policy allow protect =>
    exact effect_policy kept allow protect done
  | removal => exact effect_removal kept shows done
  | @target _ _ _ _ membership _ expiryUS _ _ managed ordered =>
    have effect := effect_target kept shows managed ordered done
    cases membership with
    | absent => simpa [Move.Obscures, Move.adds] using effect
    | present => cases expiryUS <;> simpa [Move.Obscures, Move.adds] using effect

theorem legible_after (ms : Nat) (legible : Legible t) : Legible (t.after ms) := by
  intro name s' found e' member
  obtain ⟨s, was, rfl⟩ := Option.map_eq_some_iff.mp found
  obtain ⟨e, among, kept⟩ := List.mem_filterMap.mp member
  have before := legible name s was e among
  unfold Element.after at kept
  split at kept
  · cases kept
    exact before
  · rename_i left
    split at kept <;> cases kept
    simpa [Element.legible, left] using before

theorem effect_elapse (ms : Nat) (kept : Kept host) :
    Effect host (host.map (GuardTable.after ms)) none False := by
  cases host with
  | none => exact .refl kept
  | some t =>
    obtain ⟨markers, framed, shape⟩ := kept t rfl
    refine .shrinks ⟨markers, ⟨?_, framed.hooked, framed.policy⟩, shape⟩ ?_ (legible_after ms)
    · intro name
      obtain ⟨s, found, sound⟩ := framed.sets name
      exact ⟨s.after ms, by simp [GuardTable.after, found], sound.shrinks (shrinks_after ms s)⟩
    · intro c member
      obtain ⟨scope, v4, s', listed, member⟩ := mem_banned.mp member
      obtain ⟨s, found, rfl⟩ := Option.map_eq_some_iff.mp listed
      exact mem_banned.mpr ⟨scope, v4, s, found, (shrinks_after ms s).cidrs.subset member⟩

theorem Effect.room {added : Option Cidr} {obscured : Prop}
    (effect : Effect host changed added obscured)
    (few : (bannedOn host).card ≤ maxManagedSnapshotTargets) :
    (bannedOn changed).card ≤ maxManagedSnapshotTargets ↔
      ∀ c, added = some c → c ∈ bannedOn host ∨
        (bannedOn host).card < maxManagedSnapshotTargets := by
  by_cases grows : ∃ c, added = some c ∧ c ∉ bannedOn host
  · obtain ⟨c, rfl, absent⟩ := grows
    rw [effect.fresh c rfl absent, Finset.card_insert_of_notMem absent]
    constructor
    · intro bound d _
      exact .inr bound
    · intro room
      exact (room c rfl).resolve_left absent
  · push Not at grows
    refine iff_of_true (le_trans (Finset.card_le_card fun c member => ?_) few)
      fun c same => .inl (grows c same)
    exact (effect.within c member).elim id (grows c)

/-- A move keeps the layout; if the host was reported before it, it still is exactly if the move
found room and left no element that is not read. -/
theorem step_kept {move : Move} (kept : Kept host) (done : step digests host move = some changed) :
    Kept changed ∧
    (LegibleOn host ∧ (bannedOn host).card ≤ maxManagedSnapshotTargets →
      (LegibleOn changed ∧ (bannedOn changed).card ≤ maxManagedSnapshotTargets ↔
        ¬ move.Obscures ∧ move.Roomy digests host)) := by
  cases move with
  | elapse ms =>
    cases done
    have effect := effect_elapse ms kept
    refine ⟨effect.kept, fun ⟨legible, few⟩ => and_congr (effect.legible legible) ?_⟩
    exact (effect.room few).trans (by simp [Move.Roomy])
  | mutation request authorizing before after clock =>
    obtain ⟨authority, s, basis, reported, permitted, based, carried⟩ := step_mutation done
    have shows := snapshot_shows kept reported
    have effect := effect_of_carried (authorizing, before, after) kept
      (snapshot_shows kept based) permitted carried
    refine ⟨effect.kept, fun ⟨legible, few⟩ => and_congr (effect.legible legible) ?_⟩
    refine (effect.room few).trans ?_
    constructor
    · intro room c s' added reported'
      have shows := snapshot_shows kept reported'
      rw [shows.targets, shows.length]
      exact room c added
    · intro room c added
      rw [← shows.targets, ← shows.length]
      exact room c s added reported

/-- In a run from an empty host, every host reached is one that Snapshot reports and the response
codec carries, if and only if no mutation bans a network for a limited time and every Target that a
mutation adds to those of its authorizing snapshot found fewer than the maximum there. -/
theorem executed_mutations_stay_reportable {moves : List Move} {last : Host}
    (ran : runSteps (step digests) none moves = some last) :
    (∀ earlier later host, moves = earlier ++ later →
      runSteps (step digests) none earlier = some host → Reportable digests host) ↔
    (∀ earlier move later host, moves = earlier ++ move :: later →
      runSteps (step digests) none earlier = some host →
        ¬ move.Obscures ∧ move.Roomy digests host) := by
  have kept : ∀ {earlier host}, runSteps (step digests) none earlier = some host → Kept host :=
    runSteps_preserves Kept (fun _ _ _ before done => (step_kept before done).1) (by simp [Kept])
  constructor
  · intro reportable earlier move later host split reached
    have upTo : runSteps (step digests) none (earlier ++ [move]) = step digests host move := by
      rw [runSteps_concat, reached, Option.bind_some]
    have enabled : ∃ changed, step digests host move = some changed := by
      rw [split, ← List.singleton_append, ← List.append_assoc, runSteps_append] at ran
      obtain ⟨changed, done, _⟩ := Option.bind_eq_some_iff.mp ran
      exact ⟨changed, upTo.symm.trans done⟩
    obtain ⟨changed, done⟩ := enabled
    have before := reportable earlier (move :: later) host split reached
    have after := reportable (earlier ++ [move]) later changed (by simp [split]) (upTo.trans done)
    obtain ⟨kept', fits⟩ := step_kept (kept reached) done
    exact (fits ((reportable_iff (kept reached)).mp before)).mp ((reportable_iff kept').mp after)
  · intro fitting earlier
    -- Along the run: the hosts before the last move of `earlier` are reportable by induction.
    induction earlier using List.reverseRecOn with
    | nil =>
      rintro later host _ ⟨⟩
      exact (reportable_iff (by simp [Kept])).mpr ⟨by simp [LegibleOn], Nat.zero_le _⟩
    | append_singleton earlier move ih =>
      intro later host split reached
      rw [runSteps_concat] at reached
      obtain ⟨middle, before, done⟩ := Option.bind_eq_some_iff.mp reached
      rw [List.append_assoc, List.singleton_append] at split
      have was := (reportable_iff (kept before)).mp (ih (move :: later) middle split before)
      obtain ⟨kept', fits⟩ := step_kept (kept before) done
      exact (reportable_iff kept').mpr
        ((fits was).mpr (fitting earlier move later middle split before))

end Steps

section Submitting

variable (digests : Digests) (host : Host)

namespace Sample

def basisAt : String :=
  ((snapshot digests (look digests) host).toOption.map ManagedSnapshot.digest).getD ""

def submit (plan : String → ManagedPlan) : Move :=
  .mutation (.apply (plan (basisAt digests host))) (look digests) (look digests) (look digests)
    fun _ => (look digests).now

def capabilities : Capabilities :=
  { backend := .nftablesNative, toolVersion := "nftables v1.0.6", ipv4 := true, ipv6 := true
    cidr := true, nativeSet := true, nativeTimeout := true, crashSafeExpiry := true
    atomicBatch := true, hostInput := true, forward := true, ufwIntegrationProven := true
    dockerIntegrationProven := true, ownershipProven := true, mutationReady := true }

end Sample

variable {digests host}

theorem probe_kept (digests : Digests) (kept : Kept host) (legible : LegibleOn host) :
    probe (Sample.look digests) host = .ok Sample.capabilities := by
  have conflict : (parseRuleset (Sample.look digests).now host).ownershipConflict = false := by
    cases host with
    | none => rfl
    | some t =>
      exact conflict_eq_false_iff.mpr (((kept t rfl).readable_iff _).mpr (legible t rfl))
  unfold probe
  rw [if_neg (by simp [conflict])]
  exact if_pos (show Sample.capabilities.valid = true by decide)

theorem step_submit {plan : String → ManagedPlan} {s : ManagedSnapshot} {authority : Authority}
    {commands : List Command} {changed : Host} (kept : Kept host)
    (reported : snapshot digests (Sample.look digests) host = .ok s)
    (granted : authorizeMutationRequest digests.toFirewallDigests Sample.capabilities s
      (.apply (plan s.digest)) = .ok (.mutation authority))
    (made : work (fun _ => (Sample.look digests).now) s.state authority = .batch commands)
    (done : runBatch host commands = some changed) :
    step digests host (Sample.submit digests host plan) = some changed := by
  have basis : Sample.basisAt digests host = s.digest := by
    simp [Sample.basisAt, reported, Except.toOption]
  have probed := probe_kept digests kept (legible_of_reported kept reported)
  obtain ⟨same, identity, based⟩ := authorizeMutationRequest_mutation granted
  have capable : authority.capabilities = Sample.capabilities := by
    rw [same]
    cases plan s.digest <;> rfl
  have valid : validAuthority authority = true := by
    unfold mutationIdentity at identity
    simp only [Bool.and_eq_true] at identity
    unfold validAuthority
    rw [capable, identity.1.2]
    decide
  have authorized : authorize digests (Sample.look digests) host (.apply (plan s.digest)) =
      some authority := by
    simp [authorize, probed, reported, granted, Except.toOption]
  have executed : ∃ confirmed, mutate digests (Sample.look digests) (Sample.look digests)
      (fun _ => (Sample.look digests).now) authority host = .executed confirmed changed := by
    unfold mutate
    rw [if_neg (by simp [valid]), if_neg (by simp [probed, capable]), reported]
    dsimp only
    rw [if_neg (by simp [based]), made]
    dsimp only
    rw [done]
    dsimp only
    split
    · exact ⟨_, rfl⟩
    · exact ⟨_, rfl⟩
  obtain ⟨confirmed, executed⟩ := executed
  unfold Sample.submit
  simp only [step]
  rw [basis, authorized, Option.bind_eq_bind, Option.bind_some, executed]

end Submitting

namespace Sample

def fresh : GuardTable :=
  { sets := fun name => some ⟨name.v4, name.isBan, []⟩, chains := chains [.infrastructureMarker] }

theorem bits_address : 32 ≤ 32 := le_rfl

def cidr (i : Nat) : Cidr := ⟨.v4 (BitVec.ofNat 32 (0x0a000000 + i)), 32, bits_address⟩

theorem bits_loopback4 : 8 ≤ (Addr.v4 0x7f000000#32).bitLen := by decide

theorem bits_loopback6 : 128 ≤ (Addr.v6 1#128).bitLen := by decide

def elements (n : Nat) : SetName → List Element
  | .protectedTargets true => [⟨⟨.v4 0x7f000000#32, 8, bits_loopback4⟩, none⟩]
  | .protectedTargets false => [⟨⟨.v6 1#128, 128, bits_loopback6⟩, none⟩]
  | .ban .input true => (List.range n).map fun i => ⟨cidr i, none⟩
  | _ => []

def crowded (n : Nat) : GuardTable :=
  { sets := fun name => some ⟨name.v4, name.isBan, elements n name⟩
    chains := chains [.infrastructureMarker, .policyMarker] }

def infrastructure (basis : String) : ManagedPlan :=
  .infrastructure managedOwnerVersion basis 1 managedSchemaVersion

def policy (basis : String) : ManagedPlan :=
  .policy managedOwnerVersion basis 1 [] [Prefix.loopback4, Prefix.loopback6]

def ban (i : Nat) (basis : String) : ManagedPlan :=
  .target managedOwnerVersion basis 1 (some (cidr i)) .present .none none [.input]

def crowding (digests : Digests) (n : Nat) : List Move :=
  submit digests none infrastructure :: submit digests (some fresh) policy ::
    (List.range n).map fun i => submit digests (some (crowded i)) (ban i)

theorem tables_eq {t t' : GuardTable} (sets : ∀ name, t.sets name = t'.sets name)
    (chains : ∀ name, t.chains name = t'.chains name) : t = t' := by
  cases t
  cases t'
  rw [GuardTable.mk.injEq]
  exact ⟨funext sets, funext chains⟩

theorem runBatch_infrastructure : runBatch none infrastructureBatch = some (some fresh) := by
  refine Eq.trans rfl (congrArg (some ∘ some) (tables_eq ?_ ?_))
  · intro name
    rcases name with v4 | v4 | ⟨scope, v4⟩
    · cases v4 <;> rfl
    · cases v4 <;> rfl
    · cases scope <;> cases v4 <;> rfl
  · intro name
    rcases name with scope | _
    · cases scope <;> rfl
    · rfl

theorem runBatch_policy :
    runBatch (some fresh) (policyBatch [] [Prefix.loopback4, Prefix.loopback6]) =
      some (some (crowded 0)) := by
  refine Eq.trans rfl (congrArg (some ∘ some) (tables_eq ?_ ?_))
  · intro name
    rcases name with v4 | v4 | ⟨scope, v4⟩
    · cases v4 <;> rfl
    · cases v4 <;> rfl
    · cases scope <;> cases v4 <;> rfl
  · intro name
    rcases name with scope | _
    · cases scope <;> rfl
    · rfl

theorem keep_cidr (i : Nat) : (cidr i).addr.keep 32 = (cidr i).addr := keep_bitLen (cidr i).addr

theorem masked_cidr (i : Nat) : cidr i = (cidr i).masked := by
  unfold Cidr.masked
  rw [Cidr.mk.injEq]
  exact ⟨(keep_cidr i).symm, rfl⟩

variable {i n : Nat}

theorem keep_cidr_ne_loopback (bound : i ≤ 1024) :
    (cidr i).addr.keep 8 ≠ Addr.keep 8 (.v4 0x7f000000#32) := by
  intro same
  have bit := congrArg (fun bits => bits.getLsbD 30) (Addr.v4.inj same)
  have low : (0x0a000000 + i).testBit 30 = false := Nat.testBit_lt_two_pow (by omega)
  simp only [BitVec.getLsbD_and, BitVec.getLsbD_ofNat, low] at bit
  exact absurd bit (by decide)

theorem cidr_managed (bound : i ≤ 1024) : validManagedTarget (some (cidr i)) = true := by
  have apart := keep_cidr_ne_loopback bound
  have other4 : cidr i ≠ ⟨.v4 0x7f000000#32, 8, by decide⟩ := fun same => by
    cases congrArg Cidr.bits same
  have other6 : cidr i ≠ ⟨.v6 1#128, 128, by decide⟩ := fun same => by
    cases congrArg Cidr.bits same
  have least : min (cidr i).bits 8 = 8 := rfl
  have family : (cidr i).addr.is4 = true := rfl
  have family6 : (Addr.v6 1#128).is4 = false := rfl
  unfold validManagedTarget Prefix.canonical Prefix.masked Prefix.loopback4 Prefix.loopback6
    Prefix.overlaps Cidr.overlaps
  simp [← masked_cidr, least, apart, other4, other6, family, family6]

theorem cidr_inj {j : Nat} (hi : i ≤ 1024) (hj : j ≤ 1024) (same : (cidr i).addr = (cidr j).addr) :
    i = j := by
  have bits := congrArg BitVec.toNat (Addr.v4.inj same)
  simp only [BitVec.toNat_ofNat] at bits
  omega

theorem cidr_apart {j : Nat} (hi : i ≤ 1024) (hj : j ≤ 1024) (differ : i ≠ j) :
    (cidr i).overlaps (cidr j) = false := by
  have addrs : (cidr i).addr ≠ (cidr j).addr := fun same => differ (cidr_inj hi hj same)
  have whole : cidr i ≠ cidr j := fun same => addrs (congrArg Cidr.addr same)
  have least : min (cidr i).bits (cidr j).bits = 32 := rfl
  unfold Cidr.overlaps
  dsimp only
  rw [least, keep_cidr, keep_cidr]
  simp [whole, addrs]

theorem nodup_cidrs (bound : n ≤ 1025) : ((List.range n).map cidr).Nodup := by
  refine List.Nodup.map_on ?_ List.nodup_range
  intro i hi j hj same
  rw [List.mem_range] at hi hj
  exact cidr_inj (by omega) (by omega) (congrArg Cidr.addr same)

theorem sound_crowded (bound : n ≤ 1025) (name : SetName) :
    Sound name ⟨name.v4, name.isBan, elements n name⟩ := by
  rcases name with v4 | v4 | ⟨scope, v4⟩
  · exact sound_empty _
  · cases v4 <;> refine ⟨rfl, rfl, ?_, ?_, ?_, ?_, ?_⟩ <;> simp [elements, SetName.isBan] <;> decide
  · cases scope with
    | forward => cases v4 <;> exact sound_empty _
    | input =>
      cases v4 with
      | false => exact sound_empty _
      | true =>
        have each : ∀ e ∈ elements n (.ban .input true), ∃ i ≤ 1024, e = ⟨cidr i, none⟩ := by
          intro e member
          obtain ⟨i, inside, rfl⟩ := List.mem_map.mp member
          exact ⟨i, by have := List.mem_range.mp inside; omega, rfl⟩
        refine ⟨rfl, rfl, ?_, ?_, ?_, ?_, ?_⟩
        · show (((List.range n).map fun i => (⟨cidr i, none⟩ : Element)).map Element.cidr).Nodup
          rw [List.map_map]
          exact nodup_cidrs bound
        · intro e member
          obtain ⟨i, _, rfl⟩ := each e member
          rfl
        · intro e member
          obtain ⟨i, _, rfl⟩ := each e member
          exact masked_cidr i
        · intro e member ms left
          obtain ⟨i, _, rfl⟩ := each e member
          cases left
        · intro _ e member
          obtain ⟨i, small, rfl⟩ := each e member
          exact cidr_managed small

theorem elements_permanent (n : Nat) (name : SetName) :
    ∀ e ∈ elements n name, e.remainingMS = none := by
  rcases name with v4 | v4 | ⟨scope, v4⟩
  · simp [elements]
  · cases v4 <;> simp [elements]
  · cases scope <;> cases v4 <;> simp [elements]

theorem legible_crowded (n : Nat) : Legible (crowded n) := by
  rintro name _ ⟨⟩ e member
  simp [Element.legible, elements_permanent n name e member]

theorem framed_crowded (bound : n ≤ 1025) :
    Framed [.infrastructureMarker, .policyMarker] (crowded n) where
  sets name := ⟨_, rfl, sound_crowded bound name⟩
  hooked _ := rfl
  policy := rfl

theorem kept_crowded (bound : n ≤ 1025) : Kept (some (crowded n)) :=
  fun _ same => Option.some.inj same ▸ ⟨_, framed_crowded bound, .inr rfl⟩

theorem mem_banned_crowded {c : Cidr} :
    c ∈ banned (crowded n) ↔ c ∈ (List.range n).map cidr := by
  rw [mem_banned]
  constructor
  · rintro ⟨scope, v4, s, found, member⟩
    cases found
    cases scope with
    | forward => cases v4 <;> cases member
    | input =>
      cases v4 with
      | false => cases member
      | true => simpa [elements] using member
  · intro member
    refine ⟨.input, true, _, rfl, ?_⟩
    simpa [elements] using member

theorem card_crowded (bound : n ≤ 1025) : (bannedOn (some (crowded n))).card = n := by
  have same : banned (crowded n) = ((List.range n).map cidr).toFinset := by
    ext c
    rw [mem_banned_crowded, List.mem_toFinset]
  show (banned (crowded n)).card = n
  rw [same, List.toFinset_card_of_nodup (nodup_cidrs bound), List.length_map, List.length_range]

theorem runBatch_ban (bound : n ≤ 1024) :
    runBatch (some (crowded n)) [.addElements (.ban .input true) [(cidr n, none)]] =
      some (some (crowded (n + 1))) := by
  have fresh : ∀ e ∈ elements n (.ban .input true), (e.cidr == cidr n) = false ∧
      e.cidr.overlaps (cidr n) = false := by
    intro e member
    obtain ⟨i, inside, rfl⟩ := List.mem_map.mp member
    have small := List.mem_range.mp inside
    have apart := cidr_apart (i := i) (j := n) (by omega) bound (by omega)
    refine ⟨beq_false_of_ne fun same => ?_, apart⟩
    exact absurd (cidr_inj (by omega) bound (congrArg Cidr.addr same)) (by omega)
  have added : NftSet.add ⟨true, true, elements n (.ban .input true)⟩ (cidr n, none) =
      some ⟨true, true, elements (n + 1) (.ban .input true)⟩ := by
    unfold NftSet.add
    rw [if_neg (by simp [cidr, Addr.is4]),
      if_neg (by simpa using fun e member => beq_eq_false_iff_ne.mp (fresh e member).1),
      if_neg (by simpa using fun e member => (fresh e member).2)]
    simp [elements, List.range_succ]
  have executed : (crowded n).exec (.addElements (.ban .input true) [(cidr n, none)]) =
      some ((crowded n).setSet (.ban .input true)
        ⟨true, true, elements (n + 1) (.ban .input true)⟩) := by
    have found : (crowded n).sets (.ban .input true) =
        some ⟨true, true, elements n (.ban .input true)⟩ := rfl
    simp [GuardTable.exec, found, added]
  have whole : (crowded n).setSet (.ban .input true)
      ⟨true, true, elements (n + 1) (.ban .input true)⟩ = crowded (n + 1) := by
    refine tables_eq (fun name => ?_) fun _ => rfl
    by_cases own : name = .ban .input true
    · subst own
      exact GuardTable.sets_setSet_self ..
    · rw [GuardTable.sets_setSet_ne _ _ own]
      rcases name with v4 | v4 | ⟨scope, v4⟩
      · rfl
      · cases v4 <;> rfl
      · cases scope <;> cases v4 <;> first | rfl | exact absurd rfl own
  unfold runBatch
  rw [List.foldlM_cons, show exec (some (crowded n)) _ = ((crowded n).exec _).map some from rfl,
    executed, whole]
  rfl

end Sample

section Authorized

variable {digests : Digests} {s : ManagedSnapshot}

theorem digest_of_valid (valid : s.valid digests.snapshot = true) :
    validSnapshotDigest s.digest = true ∧ s.digest ≠ "" := by
  unfold ManagedSnapshot.valid at valid
  simp only [Bool.and_eq_true] at valid
  refine ⟨valid.1.1.1, fun empty => ?_⟩
  rw [empty] at valid
  cases valid.1.1.1

theorem validateMutationAuthority_sample (valid : s.valid digests.snapshot = true)
    (native : (s.state.infrastructure.any fun o => o.backend != .nftablesNative) = false) :
    validateMutationAuthority digests.snapshot Sample.capabilities s s.digest = .ok () := by
  have ready : (!Sample.capabilities.valid || !s.valid digests.snapshot ||
      !Sample.capabilities.mutationReady || !Sample.capabilities.ownershipProven) = false := by
    rw [valid]
    decide
  have backend : (s.state.infrastructure.any fun o => o.backend != Sample.capabilities.backend) =
      false := native
  have basis : (s.digest != "" && s.digest != s.digest) = false := by simp
  unfold validateMutationAuthority
  rw [ready, backend, basis]
  rfl

theorem authorize_sample {plan : ManagedPlan} {authority : Authority}
    (valid : s.valid digests.snapshot = true) (owner : plan.ownerVersion = managedOwnerVersion)
    (basis : plan.basis = s.digest) (revision : plan.revision = 1)
    (schema : plan.schemaSupported = true)
    (h : authorizeManagedPlan digests.toFirewallDigests Sample.capabilities s plan =
      .ok authority) :
    authorizeMutationRequest digests.toFirewallDigests Sample.capabilities s (.apply plan) =
      .ok (.mutation authority) := by
  have apply : authorizeApplyPlan digests.toFirewallDigests Sample.capabilities s plan =
      .ok authority := by
    unfold authorizeApplyPlan
    rw [owner, basis, revision, schema, h, if_neg (by simp [(digest_of_valid valid).2])]
    rfl
  simp only [authorizeMutationRequest]
  rw [apply]
  rfl

end Authorized

theorem after_permanent (ms : Nat) {v4 timeout : Bool} {elements : List Element}
    (permanent : ∀ e ∈ elements, e.remainingMS = none) :
    NftSet.after ms ⟨v4, timeout, elements⟩ = ⟨v4, timeout, elements⟩ := by
  have same : elements.filterMap (Element.after ms) = elements.filterMap some :=
    List.filterMap_congr fun e member => by simp [Element.after, permanent e member]
  unfold NftSet.after
  rw [same, List.filterMap_some]

namespace Sample

section Run

variable (digests : Digests)

theorem step_infrastructure :
    step digests none (submit digests none infrastructure) = some (some fresh) := by
  obtain ⟨s, reported, shows⟩ := snapshot_none digests (look digests)
  have absent : s.state.infrastructure = none := by simpa using shows.infrastructure
  have granted : authorizeManagedPlan digests.toFirewallDigests capabilities s
      (infrastructure s.digest) = .ok (.infrastructure capabilities s.digest 1) := by
    simp only [infrastructure, authorizeManagedPlan, authorizeInfrastructureMutation]
    rw [(digest_of_valid shows.valid).1,
      validateMutationAuthority_sample shows.valid (by simp [absent])]
    rfl
  have made : work (fun _ => (look digests).now) s.state
      (.infrastructure capabilities s.digest 1) = .batch infrastructureBatch := by
    simp [work, absent]
  exact step_submit (by simp [Kept]) reported (authorize_sample shows.valid rfl rfl rfl rfl granted)
    made runBatch_infrastructure

theorem framed_fresh : Framed [.infrastructureMarker] fresh where
  sets name := ⟨_, rfl, sound_empty name⟩
  hooked _ := rfl
  policy := rfl

theorem legible_fresh : Legible fresh := by
  rintro name _ ⟨⟩ e member
  cases member

theorem reported_framed {markers : List Rule} {t : GuardTable} (framed : Framed markers t)
    (shape : markers = [.infrastructureMarker] ∨ markers = [.infrastructureMarker, .policyMarker])
    (legible : Legible t) (few : (banned t).card ≤ maxManagedSnapshotTargets) :
    ∃ s, snapshot digests (look digests) (some t) = .ok s ∧
      Reported digests (look digests) t s ∧
      validateMutationAuthority digests.snapshot capabilities s s.digest = .ok () := by
  obtain ⟨_, _, s, reported, report⟩ | ⟨_, many, _⟩ | ⟨illegible, _⟩ :=
    snapshot_intact digests (look digests) ⟨markers, framed, shape⟩
  · exact ⟨s, reported, report, validateMutationAuthority_sample report.valid (by
      simp [report.infrastructure])⟩
  · exact absurd few (not_le.mpr many)
  · exact absurd legible illegible

theorem step_policy :
    step digests (some fresh) (submit digests (some fresh) policy) = some (some (crowded 0)) := by
  obtain ⟨s, reported, report, checked⟩ := reported_framed digests framed_fresh (.inl rfl)
    legible_fresh (by decide)
  have present : s.state.infrastructure.isNone = false := by simp [report.infrastructure]
  have granted : authorizeManagedPlan digests.toFirewallDigests capabilities s (policy s.digest) =
      .ok (.policy capabilities s.digest 1 [] [Prefix.loopback4, Prefix.loopback6]) := by
    simp only [policy, authorizeManagedPlan, authorizePolicyMutation]
    rw [(digest_of_valid report.valid).1, checked, present]
    rfl
  have made : work (fun _ => (look digests).now) s.state
      (.policy capabilities s.digest 1 [] [Prefix.loopback4, Prefix.loopback6]) =
        .batch (policyBatch [] [Prefix.loopback4, Prefix.loopback6]) := by
    simp [work, present]
  exact step_submit (fun _ same => Option.some.inj same ▸ ⟨_, framed_fresh, .inl rfl⟩) reported
    (authorize_sample report.valid rfl rfl rfl rfl granted) made runBatch_policy

theorem step_ban {n : Nat} (bound : n ≤ 1024) :
    step digests (some (crowded n)) (submit digests (some (crowded n)) (ban n)) =
      some (some (crowded (n + 1))) := by
  have few : (banned (crowded n)).card ≤ maxManagedSnapshotTargets :=
    (card_crowded (by omega)).le.trans bound
  obtain ⟨s, reported, report, checked⟩ :=
    reported_framed digests (framed_crowded (by omega)) (.inr rfl) (legible_crowded n) few
  have present : s.state.infrastructure.isNone = false := by simp [report.infrastructure]
  have policed : s.state.policy.isNone = false := by
    rw [Option.isNone_eq_false_iff, report.policy]
    rfl
  have granted : authorizeManagedPlan digests.toFirewallDigests capabilities s (ban n s.digest) =
      .ok (.target capabilities s.digest 1 (some (cidr n)) .present .none none [.input]) := by
    simp only [ban, authorizeManagedPlan, authorizeTargetMutation]
    rw [(digest_of_valid report.valid).1, cidr_managed bound, checked, present, policed]
    rfl
  have absent : scopesForTarget s.state.targets (cidr n) = [] := by
    refine find_target fun shown => ?_
    have member := mem_banned_crowded.mp ((report.observes.targets _).mp shown)
    obtain ⟨i, inside, same⟩ := List.mem_map.mp member
    have small := List.mem_range.mp inside
    have equal := cidr_inj (by omega) bound (congrArg Cidr.addr same)
    omega
  have made : work (fun _ => (look digests).now) s.state
      (.target capabilities s.digest 1 (some (cidr n)) .present .none none [.input]) =
        .batch [.addElements (.ban .input true) [(cidr n, none)]] := by
    have family : (cidr n).addr.is4 = true := rfl
    simp [work, targetBatch, absent, targetSets, timeoutMS, Work.ofOption, family]
  exact step_submit (kept_crowded (by omega)) reported
    (authorize_sample report.valid rfl rfl rfl rfl granted) made (runBatch_ban bound)

theorem runSteps_crowding {n : Nat} (bound : n ≤ 1025) :
    runSteps (step digests) none (crowding digests n) = some (some (crowded n)) := by
  induction n with
  | zero =>
    show (step digests none (submit digests none infrastructure)).bind _ = _
    rw [step_infrastructure, Option.bind_some]
    show (step digests (some fresh) (submit digests (some fresh) policy)).bind _ = _
    rw [step_policy]
    rfl
  | succ n ih =>
    have longer : crowding digests (n + 1) =
        crowding digests n ++ [submit digests (some (crowded n)) (ban n)] := by
      simp [crowding, List.range_succ]
    rw [longer, runSteps_concat, ih (by omega), Option.bind_some, step_ban digests (by omega)]

theorem unreported_crowded (look : Look) :
    snapshot digests look (some (crowded 1025)) = .error .unavailable := by
  obtain ⟨_, few, _⟩ | ⟨_, _, failed⟩ | ⟨illegible, _⟩ :=
    snapshot_kept digests (kept_crowded le_rfl) look
  · rw [card_crowded le_rfl] at few
    exact absurd few (by decide)
  · exact failed
  · exact absurd (legibleOn_some.mpr (legible_crowded 1025)) illegible

/-- Nothing that is submitted later changes a host that is not reported, and no time does if its
elements have no timeout. -/
theorem stuck_crowded {later : List Move} {host : Host}
    (ran : runSteps (step digests) (some (crowded 1025)) later = some host) :
    host = some (crowded 1025) := by
  refine runSteps_preserves (fun h => h = some (crowded 1025)) ?_ rfl ran
  rintro _ move changed rfl done
  cases move with
  | mutation request authorizing before after clock =>
    obtain ⟨_, s, _, reported, _⟩ := step_mutation done
    rw [unreported_crowded digests authorizing] at reported
    cases reported
  | elapse ms =>
    cases done
    refine congrArg some (tables_eq (fun name => ?_) fun _ => rfl)
    have same : NftSet.after ms ⟨name.v4, name.isBan, elements 1025 name⟩ =
        ⟨name.v4, name.isBan, elements 1025 name⟩ := after_permanent ms (elements_permanent 1025 name)
    exact congrArg some same

end Run

end Sample

/-- With 1024 Targets on the host one more is authorized and executed, and from then on no Snapshot
is reported any more, whatever is submitted. -/
theorem one_target_too_many :
    runSteps (step Sample.digests) none (Sample.crowding Sample.digests 1025) =
      some (some (Sample.crowded 1025)) ∧
    ∀ later host, runSteps (step Sample.digests) (some (Sample.crowded 1025)) later = some host →
      ∀ look, snapshot Sample.digests look host = .error .unavailable := by
  refine ⟨Sample.runSteps_crowding _ le_rfl, ?_⟩
  intro later host ran look
  rw [Sample.stuck_crowded _ ran]
  exact Sample.unreported_crowded _ look

theorem executed_mutations_stay_reportable_first_ban :
    runSteps (step Sample.digests) none (Sample.crowding Sample.digests 1) =
      some (some (Sample.crowded 1)) ∧
    ∀ earlier later host, Sample.crowding Sample.digests 1 = earlier ++ later →
      runSteps (step Sample.digests) none earlier = some host →
        Reportable Sample.digests host := by
  have ran := Sample.runSteps_crowding Sample.digests (n := 1) (by decide)
  refine ⟨ran, (executed_mutations_stay_reportable ran).mpr ?_⟩
  intro earlier move later host split reached
  match earlier with
  | [] =>
    obtain ⟨rfl, _⟩ := List.cons.inj split
    refine ⟨id, fun c s added => ?_⟩
    cases added
  | [_] =>
    obtain ⟨rfl, tail⟩ := List.cons.inj split
    obtain ⟨rfl, _⟩ := List.cons.inj tail
    refine ⟨id, fun c s added => ?_⟩
    cases added
  | [_, _] =>
    obtain ⟨rfl, tail⟩ := List.cons.inj split
    obtain ⟨rfl, last⟩ := List.cons.inj tail
    obtain ⟨rfl, _⟩ := List.cons.inj last
    have same := reached.symm.trans (Sample.runSteps_crowding Sample.digests (n := 0) (by decide))
    cases same
    refine ⟨id, fun c s _ reported => ?_⟩
    have shows := snapshot_shows (Sample.kept_crowded (by decide)) reported
    rw [shows.length, Sample.card_crowded (by decide)]
    exact .inr (by decide)
  | _ :: _ :: _ :: rest =>
    have lengths := congrArg List.length split
    simp [Sample.crowding] at lengths

end GuardWall.Nftables
