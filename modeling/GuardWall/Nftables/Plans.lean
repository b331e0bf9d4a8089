import GuardWall.Core.PrefixOverlap
import GuardWall.Nftables.Closure

/-! What the batch of an authorized plan does to the ruleset of a host: when nft accepts it, and what
it leaves as it was. -/
namespace GuardWall.Nftables

open GuardWall.Core GuardWall.Firewall GuardWall.Foundation GuardWall.Enforcer GuardWall.Ipc

section Scripts

structure TableKey where
  family : String
  name : String
  deriving DecidableEq, Repr

def managedTable : TableKey := ⟨"inet", "guard"⟩

/-- The tables of a host. What a table has besides the objects of a guard table is left out. -/
abbrev Tables : Type := TableKey → Host

structure Statement where
  table : TableKey
  command : Command

def Command.statement (command : Command) : Statement := ⟨managedTable, command⟩

def execStatement (tables : Tables) (s : Statement) : Option Tables :=
  (exec (tables s.table) s.command).map (Function.update tables s.table)

def runScript (tables : Tables) (script : List Statement) : Option Tables :=
  script.foldlM execStatement tables

theorem runScript_statements (tables : Tables) (batch : List Command) :
    runScript tables (batch.map Command.statement) =
      (runBatch (tables managedTable) batch).map (Function.update tables managedTable) := by
  induction batch generalizing tables with
  | nil =>
    show some tables = some (Function.update tables managedTable (tables managedTable))
    rw [Function.update_eq_self]
  | cons command rest ih =>
    have first : execStatement tables command.statement =
        (exec (tables managedTable) command).map (Function.update tables managedTable) := rfl
    unfold runScript runBatch at *
    rw [List.map_cons, List.foldlM_cons, List.foldlM_cons, first]
    cases exec (tables managedTable) command with
    | none => rfl
    | some host =>
      have twice : Function.update (Function.update tables managedTable host) managedTable =
          Function.update tables managedTable := funext fun _ => Function.update_idem ..
      have later := ih (Function.update tables managedTable host)
      rw [Function.update_self, twice] at later
      exact later

end Scripts

section Readings

variable {t : GuardTable} {c d : Cidr} {now : Reading} {scope : ManagedScope}

/-- What nft sees to in every set: the elements have its type, and no two overlap. -/
structure Interval (t : GuardTable) : Prop where
  family : ∀ name s, t.sets name = some s → ∀ e ∈ s.elements, e.cidr.addr.is4 = s.v4
  apart : ∀ name s, t.sets name = some s → (s.elements.map Element.cidr).Pairwise Apart

def Mistaken (t : GuardTable) (c : Cidr) : Prop :=
  ∃ scope, ∃ d ∈ bannedIn t scope, d ≠ c ∧ readAs d = c

theorem addr_readAs (c : Cidr) : (readAs c).addr = c.addr := by
  unfold readAs
  split <;> rfl

theorem overlaps_of_addr (same : c.addr = d.addr) : c.overlaps d = true := by
  rw [Cidr.overlaps_iff, same]

theorem overlaps_of_family (other : c.addr.is4 ≠ d.addr.is4) : c.overlaps d = false := by
  rw [← Bool.not_eq_true, Cidr.overlaps_iff]
  exact fun same => other (Addr.is4_of_keep same)

instance : Std.Symm Apart where
  symm c d apart := by
    rw [Apart, ← Bool.not_eq_true, Cidr.overlaps_iff] at *
    rw [min_comm]
    exact fun same => apart same.symm

theorem not_apart_of_read {e : Cidr} (own : readAs d = c) (other : readAs e = c) : ¬ Apart d e := by
  have same : d.addr = e.addr := by rw [← addr_readAs d, ← addr_readAs e, own, other]
  unfold Apart
  rw [overlaps_of_addr same]
  simp

theorem mem_bannedIn : d ∈ bannedIn t scope ↔
    ∃ v4 s, t.sets (.ban scope v4) = some s ∧ d ∈ s.elements.map Element.cidr := by
  rw [← held_iff]
  constructor
  · rintro ⟨_, v4, s, ⟨⟩, found, member⟩
    exact ⟨v4, s, found, member⟩
  · rintro ⟨v4, s, found, member⟩
    exact ⟨t, v4, s, rfl, found, member⟩

theorem Interval.mem_bannedIn (interval : Interval t) (readable : Readable now t) :
    d ∈ bannedIn t scope ↔ InSet t scope d := by
  rw [Nftables.mem_bannedIn]
  constructor
  · rintro ⟨v4, s, found, member⟩
    obtain ⟨e, inside, rfl⟩ := List.mem_map.mp member
    obtain ⟨s', found', family, _⟩ := readable.sets (.ban scope v4)
    obtain rfl : s = s' := Option.some.inj (found.symm.trans found')
    have own : e.cidr.addr.is4 = v4 := (interval.family _ s found e inside).trans family
    exact ⟨s, by rw [own]; exact found, member⟩
  · rintro ⟨s, found, member⟩
    exact ⟨_, s, found, member⟩

theorem count_le_one {α : Type} [DecidableEq α] {xs : List α} {a : α}
    (once : xs.Pairwise fun x y => ¬ (x = a ∧ y = a)) : xs.count a ≤ 1 := by
  induction xs with
  | nil => simp
  | cons x rest ih =>
    obtain ⟨first, later⟩ := List.pairwise_cons.mp once
    rw [List.count_cons]
    by_cases own : x = a
    · have none_ : rest.count a = 0 :=
        List.count_eq_zero.mpr fun member => first a member ⟨own, rfl⟩
      simp [none_, own]
    · simpa [own] using ih later

theorem Interval.count (interval : Interval t) (readable : Readable now t) (c : Cidr)
    (scope : ManagedScope) :
    (scopeCidrs (parseRuleset now (some t)).sets scope).count c ≤ 1 := by
  have once : ∀ v4, ∃ s, t.sets (.ban scope v4) = some s ∧
      ((s.elements.map Element.cidr).map readAs).count c ≤ 1 ∧
      (v4 ≠ c.addr.is4 → ((s.elements.map Element.cidr).map readAs).count c = 0) := by
    intro v4
    obtain ⟨s, found, family, _⟩ := readable.sets (.ban scope v4)
    refine ⟨s, found, count_le_one ?_, fun other => ?_⟩
    · rw [List.pairwise_map]
      refine (interval.apart _ s found).imp ?_
      rintro d e apart ⟨own, own'⟩
      exact not_apart_of_read own own' apart
    · refine List.count_eq_zero.mpr fun member => other ?_
      obtain ⟨d, inside, rfl⟩ := List.mem_map.mp member
      obtain ⟨e, held, rfl⟩ := List.mem_map.mp inside
      rw [addr_readAs, interval.family _ s found e held, family]
      rfl
  obtain ⟨s4, found4, once4, none4⟩ := once true
  obtain ⟨s6, found6, once6, none6⟩ := once false
  rw [readable.scopeCidrs]
  unfold bannedIn
  rw [found4, found6]
  simp only [Option.elim_some, List.map_append, List.count_append]
  cases own : c.addr.is4 with
  | true => rw [none6 (by simp [own])]; exact once4
  | false => rw [none4 (by simp [own]), Nat.zero_add]; exact once6

variable {digests : Digests} {look : Look} {s : ManagedSnapshot}

theorem Interval.mem_scopesForTarget (interval : Interval t)
    (reported : snapshot digests look (some t) = .ok s) (managed : validManagedTarget (some c) = true) :
    (scopesForTarget s.state.targets c).Nodup ∧
    ∀ scope, scope ∈ scopesForTarget s.state.targets c ↔ ∃ d ∈ bannedIn t scope, readAs d = c := by
  obtain ⟨readable, _⟩ := snapshot_eq_ok.mp reported
  have held : ∀ scope, c ∈ scopeCidrs (parseRuleset look.now (some t)).sets scope ↔
      ∃ d ∈ bannedIn t scope, readAs d = c := by
    intro scope
    rw [readable.scopeCidrs, List.mem_map]
  simp only [← held]
  by_cases shown : ∃ scope, c ∈ scopeCidrs (parseRuleset look.now (some t)).sets scope
  · have accepted : Accepted c
        (entriesOf c (rangedEntries look.order (parseRuleset look.now (some t)).sets)) :=
      (accepted_iff (listed_positive look.now (some t))).mpr
        ⟨managed, shown, interval.count readable c⟩
    have same : scopesForTarget s.state.targets c = orderedScopes ((entriesOf c
        (rangedEntries look.order (parseRuleset look.now (some t)).sets)).map Prod.fst) := by
      unfold scopesForTarget
      rw [find_snapshot reported accepted]
      rfl
    rw [same]
    refine ⟨nodup_orderedScopes _, fun scope => ?_⟩
    rw [mem_orderedScopes, mem_scopes]
  · have absent : some c ∉ s.state.targets.map TargetObservation.target := by
      intro member
      obtain ⟨o, inside, target⟩ := List.mem_map.mp member
      obtain ⟨d, accepted, rfl⟩ := mem_targetObservations.mp ((mem_snapshot reported).mp inside)
      cases target
      exact shown ((accepted_iff (listed_positive look.now (some t))).mp accepted).2.1
    rw [find_target absent]
    exact ⟨List.nodup_nil, fun scope => iff_of_false (by simp) fun inside => shown ⟨scope, inside⟩⟩

end Readings

section Effects

structure Places (clock : ManagedScope → Reading) (c : Cidr) (membership : BanMembership)
    (expiryUS : Option Int) (scopes : List ManagedScope) (t t' : GuardTable) : Prop where
  sets : ∀ name, name.isBan = false → t'.sets name = t.sets name
  others : ∀ scope v4, (t'.sets (.ban scope v4)).map (NftSet.without · c) =
    (t.sets (.ban scope v4)).map (NftSet.without · c)
  present : ∀ scope v4 s, t'.sets (.ban scope v4) = some s →
    membership = .present → scope ∈ scopes → v4 = c.addr.is4 →
      ∃ timeout, timeoutMS expiryUS (clock scope) = some timeout ∧
        s.elements.filter (fun e => e.cidr == c) = [⟨c, timeout⟩]
  absent : ∀ scope v4 s, t'.sets (.ban scope v4) = some s →
    ¬ (membership = .present ∧ scope ∈ scopes ∧ v4 = c.addr.is4) →
      s.elements.filter (fun e => e.cidr == c) = []
  chains : t'.chains = t.chains

structure Polices (allowlist protectedTargets : List Prefix) (t t' : GuardTable) : Prop where
  allow : ∀ v4 s, t'.sets (.allow v4) = some s →
    s.elements = (family allowlist v4).map (⟨·, none⟩)
  protect : ∀ v4 s, t'.sets (.protectedTargets v4) = some s →
    s.elements = (family protectedTargets v4).map (⟨·, none⟩)
  declared : ∀ name, (t'.sets name).map (fun s => (s.v4, s.timeout)) =
    (t.sets name).map fun s => (s.v4, s.timeout)
  bans : ∀ scope v4, t'.sets (.ban scope v4) = t.sets (.ban scope v4)
  chains : ∀ name, (t'.chains name).map Chain.hook = (t.chains name).map Chain.hook
  rules : ∀ scope, t'.chains (.hooked scope) = t.chains (.hooked scope)
  markers : (t'.chains .guardPolicy).map Chain.rules =
    some [.infrastructureMarker, .policyMarker]

/-- What the plan of an authority is meant to change. -/
def Intended (clock : ManagedScope → Reading) : Authority → Host → Host → Prop
  | .infrastructure .., _, host' => ∃ t', host' = some t' ∧ Framed [.infrastructureMarker] t' ∧
      ∀ name s, t'.sets name = some s → s.elements = []
  | .policy _ _ _ allowlist protectedTargets, host, host' =>
      ∃ t t', host = some t ∧ host' = some t' ∧ Polices allowlist protectedTargets t t'
  | .target _ _ _ target membership _ expiryUS scopes, host, host' =>
      ∃ t t' c, host = some t ∧ host' = some t' ∧ target = some c ∧
        Places clock c membership expiryUS scopes t t'
  | .removal .., _, host' => host' = none

/-- What nft has to find for the batch of the authority. -/
def Admits : Authority → Host → Prop
  | .policy _ _ _ allowlist protectedTargets, _ => Separate allowlist protectedTargets
  | .target _ _ _ target membership _ _ scopes, host => ∀ t c, host = some t → target = some c →
      ¬ Mistaken t c ∧ (membership = .present → ∀ scope ∈ scopes, Clear t scope c)
  | _, _ => True

end Effects

section Targets

variable {t t' : GuardTable} {c : Cidr} {now : Reading} {clock : ManagedScope → Reading}
  {membership : BanMembership} {expiryUS : Option Int} {scopes : List ManagedScope}
  {observed : List TargetObservation} {commands : List Command}

theorem filter_without (s : NftSet) (c : Cidr) :
    (s.without c).elements.filter (fun e => e.cidr == c) = [] := by
  rw [List.filter_eq_nil_iff]
  intro e member
  simpa using (List.mem_filter.mp member).2

theorem without_plus (s : NftSet) (c : Cidr) (timeout : Option Nat) :
    ((s.without c).plus (c, timeout)).without c = s.without c := by
  unfold NftSet.without NftSet.plus
  simp

theorem filter_plus (s : NftSet) (c : Cidr) (timeout : Option Nat) :
    ((s.without c).plus (c, timeout)).elements.filter (fun e => e.cidr == c) = [⟨c, timeout⟩] := by
  show ((s.without c).elements ++ [(⟨c, timeout⟩ : Element)]).filter (fun e => e.cidr == c) = _
  rw [List.filter_append, filter_without]
  simp

theorem sets_placed (scope : ManagedScope) (v4 : Bool) {s : NftSet}
    (found : t.sets (.ban scope v4) = some s) :
    (t.placed c (addedSets c membership scopes) (timeoutOf expiryUS clock)).sets (.ban scope v4) =
      some (if v4 = c.addr.is4 then
        if membership = .present ∧ scope ∈ scopes then
          (s.without c).plus (c, timeoutOf expiryUS clock (.ban scope v4))
        else s.without c
      else s) := by
  have among : SetName.ban scope v4 ∈ addedSets c membership scopes ↔
      (membership = .present ∧ scope ∈ scopes) ∧ v4 = c.addr.is4 := by
    cases membership <;> simp [addedSets, mem_targetSets]
  have edited : SetName.ban scope v4 ∈
      [SetName.ban .input c.addr.is4, .ban .forward c.addr.is4] ↔ v4 = c.addr.is4 := by
    cases scope <;> simp
  unfold GuardTable.placed
  rw [sets_editSets, found]
  simp only [edited, among, Option.map_some]
  by_cases family : v4 = c.addr.is4
  · simp only [family, and_true, if_true]
  · simp [family]

theorem places_placed (interval : Interval t) (readable : Readable now t)
    (made : targetBatch clock c membership expiryUS scopes observed = some commands) :
    Places clock c membership expiryUS scopes t
      (t.placed c (addedSets c membership scopes) (timeoutOf expiryUS clock)) := by
  have foreign : ∀ scope v4 s, t.sets (.ban scope v4) = some s → v4 ≠ c.addr.is4 →
      s.elements.filter (fun e => e.cidr == c) = [] := by
    intro scope v4 s found other
    rw [List.filter_eq_nil_iff]
    intro e member same
    obtain ⟨s', found', family, _⟩ := readable.sets (.ban scope v4)
    obtain rfl : s = s' := Option.some.inj (found.symm.trans found')
    refine other ?_
    rw [← eq_of_beq same, interval.family _ s found e member, family]
    rfl
  refine ⟨?_, ?_, ?_, ?_, rfl⟩
  · intro name other
    unfold GuardTable.placed
    rw [sets_editSets, if_neg]
    rintro member
    simp only [List.mem_cons, List.not_mem_nil, or_false] at member
    obtain rfl | rfl := member <;> cases other
  · intro scope v4
    obtain ⟨s, found, _⟩ := readable.sets (.ban scope v4)
    rw [sets_placed scope v4 found, found, Option.map_some, Option.map_some]
    congr 1
    split
    · split
      · exact without_plus ..
      · simp [NftSet.without]
    · rfl
  · intro scope v4 s' found' present inside family
    obtain ⟨s, found, _⟩ := readable.sets (.ban scope v4)
    subst present
    obtain ⟨timeout, left⟩ := (targetBatch_present made).2.1 scope inside
    rw [sets_placed scope v4 found, if_pos family, if_pos ⟨rfl, inside⟩] at found'
    cases found'
    refine ⟨timeout, left, ?_⟩
    rw [filter_plus, timeoutOf, left]
    rfl
  · intro scope v4 s' found' absent
    obtain ⟨s, found, _⟩ := readable.sets (.ban scope v4)
    rw [sets_placed scope v4 found] at found'
    by_cases family : v4 = c.addr.is4
    · rw [if_pos family, if_neg fun both => absent ⟨both.1, both.2, family⟩] at found'
      cases found'
      exact filter_without s c
    · rw [if_neg family] at found'
      cases found'
      exact foreign scope v4 _ found family

variable {digests : Digests} {look : Look} {s : ManagedSnapshot}

theorem held_iff_not_mistaken (interval : Interval t)
    (reported : snapshot digests look (some t) = .ok s)
    (managed : validManagedTarget (some c) = true) :
    (∀ scope ∈ scopesForTarget s.state.targets c, InSet t scope c) ↔ ¬ Mistaken t c := by
  obtain ⟨readable, _⟩ := snapshot_eq_ok.mp reported
  obtain ⟨_, shown⟩ := interval.mem_scopesForTarget reported managed
  constructor
  · rintro held ⟨scope, d, member, other, read⟩
    obtain ⟨s, found, inside⟩ := held scope ((shown scope).mpr ⟨d, member, read⟩)
    obtain ⟨s', found', inside'⟩ := (interval.mem_bannedIn readable).mp member
    have family : d.addr.is4 = c.addr.is4 := by rw [← read, addr_readAs]
    rw [family] at found'
    obtain rfl : s = s' := Option.some.inj (found.symm.trans found')
    refine not_apart_of_read (e := c) read ?_ ((interval.apart _ s found).forall inside' inside other)
    exact readAs_of_bits (validManagedTarget_bits managed)
  · intro correct scope member
    obtain ⟨d, inside, read⟩ := (shown scope).mp member
    by_cases same : d = c
    · rw [← same]
      exact (interval.mem_bannedIn readable).mp inside
    · exact absurd ⟨scope, d, inside, same, read⟩ correct

theorem run_target_iff (interval : Interval t) (reported : snapshot digests look (some t) = .ok s)
    (managed : validManagedTarget (some c) = true)
    (ordered : canonicalManagedScopes scopes = some scopes)
    (made : targetBatch clock c membership expiryUS scopes s.state.targets = some commands) :
    (∃ host', runBatch (some t) commands = some host' ∧ ∃ t', host' = some t' ∧
      Places clock c membership expiryUS scopes t t') ↔
    ¬ Mistaken t c ∧ (membership = .present → ∀ scope ∈ scopes, Clear t scope c) := by
  obtain ⟨readable, _⟩ := snapshot_eq_ok.mp reported
  obtain ⟨once, shown⟩ := interval.mem_scopesForTarget reported managed
  have own : readAs c = c := readAs_of_bits (validManagedTarget_bits managed)
  have prepared : Prepared t c := by
    intro scope
    obtain ⟨s, found, v4, timeout, _⟩ := readable.sets (.ban scope c.addr.is4)
    exact ⟨s, found, v4, timeout⟩
  have covers : ∀ scope, InSet t scope c → scope ∈ scopesForTarget s.state.targets c :=
    fun scope held => (shown scope).mpr ⟨c, (interval.mem_bannedIn readable).mpr held, own⟩
  obtain ⟨distinct, _, _⟩ := canonicalManagedScopes_eq_some.mp ordered
  rw [← held_iff_not_mistaken interval reported managed]
  obtain ⟨held, clear, ran⟩ | ⟨refused, ran⟩ := run_target prepared covers once distinct made
  · exact iff_of_true ⟨_, ran, _, rfl, places_placed interval readable made⟩ ⟨held, clear⟩
  · refine iff_of_false ?_ refused
    rintro ⟨host', done, _⟩
    rw [ran] at done
    cases done

end Targets

section Policies

variable {t : GuardTable} {now : Reading} {allowlist protectedTargets : List Prefix}

theorem polices_policed (readable : Readable now t) :
    Polices allowlist protectedTargets t (t.policed none allowlist protectedTargets) := by
  obtain ⟨markers, marked, _⟩ := readable.policy
  refine ⟨?_, ?_, ?_, ?_, ?_, ?_, ?_⟩
  · intro v4 s' found'
    obtain ⟨s, found, _⟩ := readable.sets (.allow v4)
    have member : SetName.allow v4 ∈ policyNames := by cases v4 <;> decide
    simp only [GuardTable.policed, member, found, if_true, Option.map_some] at found'
    cases found'
    rfl
  · intro v4 s' found'
    obtain ⟨s, found, _⟩ := readable.sets (.protectedTargets v4)
    have member : SetName.protectedTargets v4 ∈ policyNames := by cases v4 <;> decide
    simp only [GuardTable.policed, member, found, if_true, Option.map_some] at found'
    cases found'
    rfl
  · intro name
    simp only [GuardTable.policed]
    split
    · rw [Option.map_map]
      rfl
    · rfl
  · intro scope v4
    have other : SetName.ban scope v4 ∉ policyNames := by simp [policyNames]
    simp only [GuardTable.policed, other, if_false]
  · intro name
    by_cases own : name = .guardPolicy
    · subst own
      simp [GuardTable.policed, marked]
    · simp [GuardTable.policed, Function.update_of_ne own]
  · intro scope
    simp [GuardTable.policed]
  · simp [GuardTable.policed]

theorem run_policy_iff (readable : Readable now t) (allow : validCanonicalPrefixList allowlist = true)
    (protect : validCanonicalPrefixList protectedTargets = true) :
    (∃ host', runBatch (some t) (policyBatch allowlist protectedTargets) = some host' ∧
      ∃ t', host' = some t' ∧ Polices allowlist protectedTargets t t') ↔
    Separate allowlist protectedTargets := by
  have found : ∀ name ∈ policyNames, ∃ s, t.sets name = some s ∧ s.v4 = name.v4 := by
    intro name _
    obtain ⟨s, found, v4, _⟩ := readable.sets name
    exact ⟨s, found, v4⟩
  obtain ⟨markers, marked, _⟩ := readable.policy
  obtain ⟨separate, ran⟩ | ⟨overlap, ran⟩ := run_policy found marked allow protect
  · exact iff_of_true ⟨_, ran, _, rfl, polices_policed readable⟩ separate
  · refine iff_of_false ?_ overlap
    rintro ⟨host', done, _⟩
    rw [ran] at done
    cases done

end Policies

section Plans

variable {digests : Digests} {look : Look} {s : ManagedSnapshot} {plan : ManagedPlan}
  {capabilities : Capabilities} {authority : Authority} {clock : ManagedScope → Reading}
  {commands : List Command} {host : Host}

theorem authorized_none (reported : snapshot digests look none = .ok s)
    (authorized : authorizeManagedPlan digests.toFirewallDigests capabilities s plan = .ok authority) :
    ∃ basis revision, authority = .infrastructure capabilities basis revision := by
  rw [snapshot_none_eq] at reported
  cases reported
  cases plan with
  | infrastructure owner basis revision schema =>
    simp only [authorizeManagedPlan, bind_eq_ok] at authorized
    obtain ⟨_, _, same⟩ := authorized
    cases same
    exact ⟨basis, revision, rfl⟩
  | policy owner basis revision allowlist protectedTargets =>
    simp [authorizeManagedPlan, authorizePolicyMutation, bind_eq_ok, deny_eq_ok] at authorized
  | target owner basis generation cidr membership mode expiryUS scopes =>
    simp [authorizeManagedPlan, authorizeTargetMutation, bind_eq_ok, deny_eq_ok] at authorized

/-- The batch of an authorized plan does what is intended on the host of its snapshot, if and only if
nft admits it. -/
theorem run_plan_iff (interval : ∀ t, host = some t → Interval t)
    (reported : snapshot digests look host = .ok s)
    (authorized : authorizeManagedPlan digests.toFirewallDigests capabilities s plan = .ok authority)
    (made : work clock s.state authority = .batch commands) :
    (∃ host', runBatch host commands = some host' ∧ Intended clock authority host host') ↔
      Admits authority host := by
  have permitted := permitted_plan authorized
  cases host with
  | none =>
    obtain ⟨basis, revision, rfl⟩ := authorized_none reported authorized
    rw [snapshot_none_eq] at reported
    cases reported
    cases made
    obtain ⟨t, ran, framed, _, empty⟩ := infrastructureBatch_fresh
    exact iff_of_true ⟨_, ran, t, rfl, framed, empty⟩ trivial
  | some t =>
    obtain ⟨readable, _, rfl⟩ := snapshot_eq_ok.mp reported
    cases permitted with
    | infrastructure => cases made
    | policy allow protect =>
      cases made
      rw [show Admits _ (some t) = Separate _ _ from rfl, ← run_policy_iff readable allow protect]
      constructor
      · rintro ⟨host', ran, _, t', ⟨⟩, rfl, polices⟩
        exact ⟨_, ran, t', rfl, polices⟩
      · rintro ⟨host', ran, t', rfl, polices⟩
        exact ⟨_, ran, t, t', rfl, rfl, polices⟩
    | target managed ordered =>
      have run := run_target_iff (interval t rfl) reported managed ordered (work_target made)
      constructor
      · rintro ⟨host', ran, _, t', c, ⟨⟩, rfl, ⟨⟩, places⟩
        rintro _ _ ⟨⟩ ⟨⟩
        exact run.mp ⟨_, ran, t', rfl, places⟩
      · intro admitted
        obtain ⟨host', ran, t', rfl, places⟩ := run.mpr (admitted t _ rfl rfl)
        exact ⟨_, ran, t, t', _, rfl, rfl, rfl, places⟩

variable {tables : Tables}

/-- The script of an authorized plan, whose statements all name the guard table, is accepted and
changes exactly what the plan says, if and only if nft admits it. -/
theorem apply_script_iff (interval : ∀ t, tables managedTable = some t → Interval t)
    (reported : snapshot digests look (tables managedTable) = .ok s)
    (authorized : authorizeManagedPlan digests.toFirewallDigests capabilities s plan = .ok authority)
    (made : work clock s.state authority = .batch commands) :
    (∃ tables', runScript tables (commands.map Command.statement) = some tables' ∧
      (∀ key, key ≠ managedTable → tables' key = tables key) ∧
      Intended clock authority (tables managedTable) (tables' managedTable)) ↔
    Admits authority (tables managedTable) := by
  rw [← run_plan_iff interval reported authorized made, runScript_statements]
  constructor
  · rintro ⟨tables', done, _, intended⟩
    obtain ⟨host', ran, rfl⟩ := Option.map_eq_some_iff.mp done
    rw [Function.update_self] at intended
    exact ⟨host', ran, intended⟩
  · rintro ⟨host', ran, intended⟩
    refine ⟨Function.update tables managedTable host', by rw [ran]; rfl, ?_, ?_⟩
    · exact fun key other => Function.update_of_ne other ..
    · rwa [Function.update_self]

end Plans

namespace Sample

def nested : List Prefix :=
  [some ⟨.v4 0x0a000000#32, 8, by decide⟩, some ⟨.v4 0x0a010000#32, 16, by decide⟩]

def loopbacks : List Prefix := [Prefix.loopback4, Prefix.loopback6]

def tables : Tables := fun key => if key = managedTable then some fresh else none

def policyWork (allowlist : List Prefix) : Option (ManagedSnapshot × Authority × List Command) := do
  let s ← (snapshot digests (look digests) (tables managedTable)).toOption
  let authority ← (authorizeManagedPlan digests.toFirewallDigests capabilities s
    (.policy managedOwnerVersion s.digest 1 allowlist loopbacks)).toOption
  match work (fun _ => (look digests).now) s.state authority with
  | .batch commands => some (s, authority, commands)
  | _ => none

theorem policyWork_eq_some {allowlist : List Prefix} {s : ManagedSnapshot} {authority : Authority}
    {commands : List Command} (made : policyWork allowlist = some (s, authority, commands)) :
    snapshot digests (look digests) (tables managedTable) = .ok s ∧
    authorizeManagedPlan digests.toFirewallDigests capabilities s
      (.policy managedOwnerVersion s.digest 1 allowlist loopbacks) = .ok authority ∧
    work (fun _ => (look digests).now) s.state authority = .batch commands := by
  obtain ⟨s', reported, rest⟩ := Option.bind_eq_some_iff.mp made
  obtain ⟨authority', authorized, rest⟩ := Option.bind_eq_some_iff.mp rest
  split at rest
  · rename_i commands' worked
    cases rest
    exact ⟨eq_ok_of_toOption reported, eq_ok_of_toOption authorized, worked⟩
  · cases rest

theorem interval_fresh : Interval fresh where
  family name s found e member := by
    cases found
    cases member
  apart name s found := by
    cases found
    exact List.Pairwise.nil

end Sample

theorem apply_script_iff_first_policy :
    ∃ s authority commands tables',
      Sample.policyWork [] = some (s, authority, commands) ∧
      runScript Sample.tables (commands.map Command.statement) = some tables' ∧
      (∀ key, key ≠ managedTable → tables' key = Sample.tables key) ∧
      Intended (fun _ => (Sample.look Sample.digests).now) authority
        (Sample.tables managedTable) (tables' managedTable) := by
  have taken : (Sample.policyWork []).isSome = true := by decide +kernel
  obtain ⟨⟨s, authority, commands⟩, made⟩ := Option.isSome_iff_exists.mp taken
  obtain ⟨reported, authorized, worked⟩ := Sample.policyWork_eq_some made
  have granted : authority = .policy Sample.capabilities s.digest 1 [] Sample.loopbacks := by
    cases permitted_plan authorized
    simp only [authorizeManagedPlan, bind_eq_ok] at authorized
    obtain ⟨_, _, same⟩ := authorized
    cases same
    rfl
  have separate : Separate [] Sample.loopbacks := by
    unfold Separate Apart
    decide
  obtain ⟨tables', ran, frame, intended⟩ := (apply_script_iff
    (fun t found => by cases found; exact Sample.interval_fresh) reported authorized worked).mpr
      (by rw [granted]; exact separate)
  exact ⟨s, authority, commands, tables', made, ran, frame, intended⟩

/-- A policy with a prefix inside another one is authorized, and nft refuses its batch. -/
theorem nested_policy_refused :
    (Sample.policyWork Sample.nested).map (fun made =>
      (runScript Sample.tables (made.2.2.map Command.statement)).isNone) = some true := by
  decide +kernel

section Additions

def AddsApart (commands : List Command) : Prop :=
  ∀ name items, Command.addElements name items ∈ commands → (items.map Prod.fst).Pairwise Apart

/-- What a batch adds to a set overlaps no element the batch leaves there. -/
def AddsBeside (host : Host) (commands : List Command) : Prop :=
  ∀ t, host = some t → ∀ name items, Command.addElements name items ∈ commands →
    ∀ s, t.sets name = some s → ∀ e ∈ s.elements, Command.deleteElement name e.cidr ∉ commands →
      ∀ item ∈ items, Apart e.cidr item.1

variable {name : SetName} {items : List (Cidr × Option Nat)}

theorem mem_writeElements {other : SetName} {prefixes : List Prefix} :
    Command.addElements name items ∈ writeElements other prefixes ↔
      name = other ∧ items = (family prefixes other.v4).map (·, none) ∧ items ≠ [] := by
  unfold writeElements
  split
  · rename_i empty
    refine iff_of_false (by simp) ?_
    rintro ⟨rfl, rfl, some_⟩
    simp [empty] at some_
  · rename_i some_
    rw [List.mem_singleton, Command.addElements.injEq]
    refine and_congr_right fun _ => ⟨fun same => ⟨same, ?_⟩, fun both => both.1⟩
    rw [same]
    simpa using some_

theorem mem_policyBatch {allowlist protectedTargets : List Prefix} :
    Command.addElements name items ∈ policyBatch allowlist protectedTargets ↔
      name ∈ policyNames ∧ items = (policyList allowlist protectedTargets name).map (·, none) ∧
        items ≠ [] := by
  rw [policyBatch_eq]
  simp only [List.mem_append, List.mem_map, List.mem_cons, List.mem_flatMap, mem_writeElements,
    family_policyPrefixes]
  constructor
  · rintro (⟨_, _, ⟨⟩⟩ | ⟨⟨⟩⟩ | ⟨other, member, rfl, same⟩ | ⟨⟨⟩⟩ | ⟨⟨⟩⟩ | ⟨⟨⟩⟩)
    exact ⟨member, same⟩
  · rintro ⟨member, same⟩
    exact .inr (.inr (.inl ⟨name, member, rfl, same⟩))

theorem addsApart_policyBatch (allowlist protectedTargets : List Prefix) :
    AddsApart (policyBatch allowlist protectedTargets) ↔ Separate allowlist protectedTargets := by
  unfold AddsApart Separate
  simp only [mem_policyBatch]
  constructor
  · intro apart name member
    by_cases some_ : policyList allowlist protectedTargets name = []
    · rw [some_]
      exact List.Pairwise.nil
    · have pairwise := apart name _ ⟨member, rfl, by simpa using some_⟩
      simpa [List.map_map, Function.comp_def] using pairwise
  · rintro separate name items ⟨member, rfl, _⟩
    simpa [List.map_map, Function.comp_def] using separate name member

variable {digests : Digests} {t : GuardTable} {markers : List Rule} {basis : ManagedSnapshot}
  {c : Cidr} {clock : ManagedScope → Reading} {expiryUS : Option Int} {scopes : List ManagedScope}
  {commands : List Command}

theorem mem_targetBatch_add
    (made : targetBatch clock c .present expiryUS scopes basis.state.targets =
      some commands) :
    Command.addElements name items ∈ commands ↔
      name ∈ targetSets c scopes ∧ items = [(c, timeoutOf expiryUS clock name)] := by
  rw [(targetBatch_present made).2.2]
  simp only [deletions, additions, List.mem_append, List.mem_map]
  constructor
  · rintro (⟨_, _, ⟨⟩⟩ | ⟨other, member, same⟩)
    cases same
    exact ⟨member, rfl⟩
  · rintro ⟨member, rfl⟩
    exact .inr ⟨name, member, rfl⟩

theorem mem_targetBatch_delete
    (made : targetBatch clock c .present expiryUS scopes basis.state.targets = some commands)
    {d : Cidr} :
    Command.deleteElement name d ∈ commands ↔
      d = c ∧ name ∈ targetSets c (scopesForTarget basis.state.targets c) := by
  rw [(targetBatch_present made).2.2]
  simp only [deletions, additions, List.mem_append, List.mem_map]
  constructor
  · rintro (⟨other, member, same⟩ | ⟨_, _, ⟨⟩⟩)
    cases same
    exact ⟨rfl, member⟩
  · rintro ⟨rfl, member⟩
    exact .inl ⟨name, member, rfl⟩

theorem addsBeside_iff_clear (framed : Framed markers t) (shows : Shows digests (some t) basis)
    (made : targetBatch clock c .present expiryUS scopes basis.state.targets = some commands) :
    AddsBeside (some t) commands ↔ ∀ scope ∈ scopes, Clear t scope c := by
  obtain ⟨_, scopesOf⟩ := scopesForTarget_shown framed shows c
  constructor
  · intro beside scope inside s found e member other
    have added := (mem_targetBatch_add made).mpr
      ⟨mem_targetSets.mpr ⟨scope, inside, rfl⟩, rfl⟩
    refine beside t rfl _ _ added s found e member ?_ _ (List.mem_singleton_self _)
    exact fun deleted => other ((mem_targetBatch_delete made).mp deleted).1
  · rintro clear _ ⟨⟩ name items added s found e member stays item inside
    obtain ⟨named, rfl⟩ := (mem_targetBatch_add made).mp added
    obtain ⟨scope, own, rfl⟩ := mem_targetSets.mp named
    rw [List.mem_singleton.mp inside]
    refine clear scope own s found e member fun same => stays ?_
    refine (mem_targetBatch_delete made).mpr ⟨same, mem_targetSets.mpr ⟨scope, ?_, rfl⟩⟩
    exact (scopesOf scope).mpr ⟨s, found, List.mem_map.mpr ⟨e, member, same⟩⟩

/-- No other Target of the state that shares a scope with the plan overlaps its prefix. -/
def Alone (state : ManagedState) (c : Cidr) (scopes : List ManagedScope) : Prop :=
  ∀ o ∈ state.targets, ∀ d, o.target = some d → d ≠ c → (∃ scope ∈ scopes, scope ∈ o.scopes) →
    Apart d c

theorem clear_iff_alone (framed : Framed markers t) (shows : Shows digests (some t) basis) :
    (∀ scope ∈ scopes, Clear t scope c) ↔ Alone basis.state c scopes := by
  constructor
  · rintro clear o inside d target other ⟨scope, own, shared⟩
    obtain ⟨s, found, member⟩ :=
      (held_iff_inSet framed).mp ((shows.scopes o inside d target scope).mp shared)
    obtain ⟨e, held, rfl⟩ := List.mem_map.mp member
    by_cases family : e.cidr.addr.is4 = c.addr.is4
    · rw [family] at found
      exact clear scope own s found e held other
    · exact overlaps_of_family family
  · intro alone scope own s found e member other
    have held : Held (some t) scope e.cidr := ⟨t, _, s, rfl, found, List.mem_map_of_mem member⟩
    obtain ⟨o, inside, target⟩ := List.mem_map.mp
      ((shows.targets e.cidr).mpr (mem_banned_iff_held.mpr ⟨scope, held⟩))
    exact alone o inside e.cidr target other
      ⟨scope, own, (shows.scopes o inside e.cidr target scope).mpr held⟩

theorem kept_of_run {moves : List Move} {host : Host}
    (ran : runSteps (step digests) none moves = some host) : Kept host :=
  runSteps_preserves Kept (fun _ _ _ before done => (step_kept before done).1) (by simp [Kept]) ran

variable (digests)

/-- The prefixes of a policy are added apart from each other if and only if its lists are separate. On
every host that a run of moves leads to, an accepted ban is added beside the others if and only if it is
alone among the Targets of the snapshot. -/
theorem additions_apart_iff :
    (∀ allowlist protectedTargets,
      AddsApart (policyBatch allowlist protectedTargets) ↔ Separate allowlist protectedTargets) ∧
    ∀ moves host authorizing before clock request capabilities digest generation c mode expiryUS scopes
        s commands,
      runSteps (step digests) none moves = some host →
      authorize digests authorizing host request =
        some (.target capabilities digest generation (some c) .present mode expiryUS scopes) →
      snapshot digests before host = .ok s →
      targetBatch clock c .present expiryUS scopes s.state.targets = some commands →
        (AddsBeside host commands ↔ Alone s.state c scopes) := by
  refine ⟨addsApart_policyBatch, ?_⟩
  intro moves host authorizing before clock request capabilities digest generation c mode expiryUS
    scopes s commands ran _ reported made
  have kept := kept_of_run ran
  cases host with
  | none =>
    rw [snapshot_none_eq] at reported
    cases reported
    exact iff_of_true (by rintro _ ⟨⟩) (by rintro o ⟨⟩)
  | some t =>
    obtain ⟨markers, framed, _⟩ := kept t rfl
    have shows := snapshot_shows kept reported
    rw [addsBeside_iff_clear framed shows made, clear_iff_alone framed shows]

end Additions

namespace Sample

def networkRun : List Move :=
  [submit digests none infrastructure, submit digests (some fresh) policy,
    submit digests (some (crowded 0)) fun basis => .target managedOwnerVersion basis 1
      (some ⟨.v4 0x0a000000#32, 8, by decide⟩) .present .none none [.input]]

def banWork (moves : List Move) (c : Cidr) : Option (Host × ManagedSnapshot × List Command) :=
  (runSteps (step digests) none moves).bind fun host =>
    if authorize digests (look digests) host
        (.apply (.target managedOwnerVersion zeros 1 (some c) .present .none none [.input])) =
      some (.target capabilities zeros 1 (some c) .present .none none [.input]) then
      (snapshot digests (look digests) host).toOption.bind fun s =>
        (targetBatch (fun _ => (look digests).now) c .present none [.input] s.state.targets).map
          fun commands => (host, s, commands)
    else none

theorem banWork_eq_some {moves : List Move} {c : Cidr} {host : Host} {s : ManagedSnapshot}
    {commands : List Command} (made : banWork moves c = some (host, s, commands)) :
    runSteps (step digests) none moves = some host ∧
    authorize digests (look digests) host
        (.apply (.target managedOwnerVersion zeros 1 (some c) .present .none none [.input])) =
      some (.target capabilities zeros 1 (some c) .present .none none [.input]) ∧
    snapshot digests (look digests) host = .ok s ∧
    targetBatch (fun _ => (look digests).now) c .present none [.input] s.state.targets =
      some commands := by
  obtain ⟨host', ran, rest⟩ := Option.bind_eq_some_iff.mp made
  split at rest
  · rename_i granted
    obtain ⟨s', reported, rest⟩ := Option.bind_eq_some_iff.mp rest
    obtain ⟨commands', batch, same⟩ := Option.map_eq_some_iff.mp rest
    cases same
    exact ⟨ran, granted, eq_ok_of_toOption reported, batch⟩
  · cases rest

end Sample

theorem additions_apart_iff_first_ban :
    ∃ host s commands, Sample.banWork (Sample.networkRun.take 2) Sample.target =
      some (host, s, commands) ∧ AddsBeside host commands := by
  have taken : ((Sample.banWork (Sample.networkRun.take 2) Sample.target).map fun made =>
      made.2.1.state.targets) = some [] := by decide +kernel
  obtain ⟨⟨host, s, commands⟩, made, none_⟩ := Option.map_eq_some_iff.mp taken
  obtain ⟨ran, granted, reported, batch⟩ := Sample.banWork_eq_some made
  refine ⟨host, s, commands, made, ?_⟩
  refine ((additions_apart_iff Sample.digests).2 _ _ _ _ _ _ _ _ _ _ _ _ _ _ _ ran granted
    reported batch).mpr ?_
  intro o member
  rw [show s.state.targets = [] from none_] at member
  cases member

/-- A ban of an address in a banned network is accepted and overlaps it. -/
theorem address_of_network_overlaps :
    ∃ host s commands, Sample.banWork Sample.networkRun Sample.target = some (host, s, commands) ∧
      ¬ AddsBeside host commands := by
  have taken : ((Sample.banWork Sample.networkRun Sample.target).map fun made =>
      (made.1.isSome, made.2.1.state.targets)) =
        some (true, [⟨some ⟨.v4 0x0a000000#32, 8, by decide⟩, .none, none, [.input]⟩]) := by
    decide +kernel
  obtain ⟨⟨host, s, commands⟩, made, same⟩ := Option.map_eq_some_iff.mp taken
  obtain ⟨some_, targets⟩ := Prod.mk.inj same
  obtain ⟨ran, granted, reported, batch⟩ := Sample.banWork_eq_some made
  obtain ⟨t, rfl⟩ := Option.isSome_iff_exists.mp some_
  have kept := kept_of_run ran
  obtain ⟨markers, framed, _⟩ := kept t rfl
  have shows := snapshot_shows kept reported
  refine ⟨_, s, commands, made, ?_⟩
  rw [addsBeside_iff_clear framed shows batch, clear_iff_alone framed shows]
  intro alone
  have apart := alone _ (by rw [targets]; exact List.mem_singleton_self _) _ rfl (by decide)
    ⟨.input, by simp, by simp⟩
  revert apart
  unfold Apart
  decide

end GuardWall.Nftables
