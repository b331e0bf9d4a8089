import GuardWall.Nftables.Batches

/-! What the batches do to a guard table, set by set: when nft accepts one, which elements are there
afterwards, and that everything else is as it was. -/
namespace GuardWall.Nftables

open GuardWall.Core GuardWall.Firewall GuardWall.Foundation GuardWall.Enforcer GuardWall.Ipc

def GuardTable.editSets (t : GuardTable) (names : List SetName) (edit : SetName → NftSet → NftSet) :
    GuardTable :=
  { t with sets := fun name => if name ∈ names then (t.sets name).map (edit name) else t.sets name }

theorem sets_editSets (t : GuardTable) (names : List SetName) (edit : SetName → NftSet → NftSet)
    (name : SetName) : (t.editSets names edit).sets name =
      if name ∈ names then (t.sets name).map (edit name) else t.sets name := rfl

def NftSet.without (s : NftSet) (c : Cidr) : NftSet :=
  { s with elements := s.elements.filter fun e => e.cidr != c }

def NftSet.plus (s : NftSet) (item : Cidr × Option Nat) : NftSet :=
  { s with elements := s.elements ++ [⟨item.1, item.2⟩] }

def NftSet.Free (s : NftSet) (c : Cidr) : Prop := ∀ e ∈ s.elements, e.cidr.overlaps c = false

instance (s : NftSet) (c : Cidr) : Decidable (s.Free c) :=
  inferInstanceAs (Decidable (∀ e ∈ s.elements, e.cidr.overlaps c = false))

section Single

variable {t : GuardTable} {name : SetName} {s : NftSet} {c : Cidr}

theorem delete_eq : s.delete c =
    if c ∈ s.elements.map Element.cidr then some (s.without c) else none := by
  have found : (s.elements.any fun e => e.cidr == c) = true ↔ c ∈ s.elements.map Element.cidr := by
    simp
  unfold NftSet.delete NftSet.without
  simp only [found]

theorem exec_deleteElement (found : t.sets name = some s) :
    t.exec (.deleteElement name c) =
      if c ∈ s.elements.map Element.cidr then some (t.setSet name (s.without c)) else none := by
  simp only [GuardTable.exec, found, Option.bind_eq_bind, Option.bind_some, delete_eq]
  split <;> rfl

variable {item : Cidr × Option Nat}

theorem add_eq (family : item.1.addr.is4 = s.v4) (timed : item.2.isSome = true → s.timeout = true)
    (fresh : item.1 ∉ s.elements.map Element.cidr) :
    s.add item = if s.Free item.1 then some (s.plus item) else none := by
  have fits : (item.1.addr.is4 != s.v4 || (item.2.isSome && !s.timeout)) = false := by
    simpa [family] using timed
  have absent : (s.elements.any fun e => e.cidr == item.1) = false := by
    rw [List.any_eq_false]
    intro e member same
    exact fresh (List.mem_map.mpr ⟨e, member, by simpa using same⟩)
  unfold NftSet.add
  rw [fits, absent, if_neg (by simp), if_neg (by simp)]
  by_cases free : s.Free item.1
  · rw [if_pos free, if_neg]
    · rfl
    · simpa [NftSet.Free] using free
  · rw [if_neg free, if_pos]
    simpa [NftSet.Free] using free

theorem exec_addElement (found : t.sets name = some s) (family : item.1.addr.is4 = s.v4)
    (timed : item.2.isSome = true → s.timeout = true) (fresh : item.1 ∉ s.elements.map Element.cidr)
    :
    t.exec (.addElements name [item]) =
      if s.Free item.1 then some (t.setSet name (s.plus item)) else none := by
  simp only [GuardTable.exec, found, Option.bind_eq_bind, Option.bind_some, List.foldlM_cons,
    List.foldlM_nil, add_eq family timed fresh]
  split <;> rfl

theorem Sound.without (sound : Sound name s) (c : Cidr) : Sound name (s.without c) :=
  sound.shrinks (shrinks_of_sublist List.filter_sublist)

theorem Sound.plus (sound : Sound name s) (fitting : Fitting name item)
    (fresh : item.1 ∉ s.elements.map Element.cidr) : Sound name (s.plus item) := by
  have split : ∀ e ∈ (s.plus item).elements, e ∈ s.elements ∨ e = ⟨item.1, item.2⟩ :=
    fun e member => by simpa [NftSet.plus] using member
  refine ⟨sound.v4, sound.timeout, ?_, fun e member => ?_, fun e member => ?_, fun e member => ?_,
    fun ban e member => ?_⟩
  · unfold NftSet.plus
    rw [List.map_append, List.map_singleton, List.nodup_append]
    refine ⟨sound.distinct, List.nodup_singleton _, ?_⟩
    rintro c member d last rfl
    rw [List.mem_singleton.mp last] at member
    exact fresh member
  all_goals obtain among | rfl := split e member
  · exact sound.family e among
  · exact fitting.family
  · exact sound.canonical e among
  · exact fitting.canonical
  · exact sound.fits e among
  · exact fitting.fits
  · exact sound.managed ban e among
  · exact fitting.managed ban

end Single

section Each

variable {names : List SetName} {command : SetName → Command} {edit : SetName → NftSet → NftSet}
  {accepts : SetName → NftSet → Prop} {rest : List Command} {t : GuardTable}

theorem editSets_nil (t : GuardTable) (edit : SetName → NftSet → NftSet) :
    t.editSets [] edit = t := by
  simp [GuardTable.editSets]

theorem editSets_cons {name : SetName} {s : NftSet} (found : t.sets name = some s)
    (fresh : name ∉ names) :
    (t.setSet name (edit name s)).editSets names edit = t.editSets (name :: names) edit := by
  unfold GuardTable.editSets
  rw [GuardTable.mk.injEq]
  refine ⟨funext fun other => ?_, rfl⟩
  by_cases same : other = name
  · subst same
    rw [if_neg fresh, if_pos List.mem_cons_self, found]
    exact t.sets_setSet_self _ _
  · rw [t.sets_setSet_ne _ same]
    simp [same]

structure Edits (names : List SetName) (command : SetName → Command)
    (accepts : SetName → NftSet → Prop) (edit : SetName → NftSet → NftSet) (t₀ : GuardTable) : Prop
    where
  table : ∀ name, command name ≠ .deleteTable
  found : ∀ name ∈ names, ∃ s, t₀.sets name = some s
  accepted : ∀ (t : GuardTable) (name : SetName) (s : NftSet), name ∈ names →
    t.sets name = some s → t₀.sets name = some s → accepts name s →
    t.exec (command name) = some (t.setSet name (edit name s))
  refused : ∀ (t : GuardTable) (name : SetName) (s : NftSet), name ∈ names →
    t.sets name = some s → t₀.sets name = some s → ¬ accepts name s → t.exec (command name) = none

theorem runBatch_exec {command : Command} (other : command ≠ .deleteTable) :
    runBatch (some t) (command :: rest) =
      (t.exec command).bind fun t' => runBatch (some t') rest := by
  have same : exec (some t) command = (t.exec command).map some := by
    cases command with
    | deleteTable => exact absurd rfl other
    | _ => rfl
  unfold runBatch
  rw [List.foldlM_cons, same]
  cases t.exec command <;> rfl

theorem runBatch_each (distinct : names.Nodup) (edits : Edits names command accepts edit t)
    (rest : List Command) :
    ((∀ name ∈ names, ∀ s, t.sets name = some s → accepts name s) ∧
      runBatch (some t) (names.map command ++ rest) = runBatch (some (t.editSets names edit)) rest) ∨
    ((∃ name ∈ names, ∃ s, t.sets name = some s ∧ ¬ accepts name s) ∧
      runBatch (some t) (names.map command ++ rest) = none) := by
  induction names generalizing t with
  | nil => exact .inl ⟨by simp, by rw [editSets_nil]; rfl⟩
  | cons name names ih =>
    rw [List.nodup_cons] at distinct
    obtain ⟨s, found⟩ := edits.found name List.mem_cons_self
    rw [List.map_cons, List.cons_append, runBatch_exec (edits.table name)]
    by_cases fine : accepts name s
    · rw [edits.accepted t name s List.mem_cons_self found found fine, Option.bind_some]
      have kept : ∀ other ∈ names, (t.setSet name (edit name s)).sets other = t.sets other :=
        fun other member => t.sets_setSet_ne _ fun same => distinct.1 (same ▸ member)
      have later : Edits names command accepts edit (t.setSet name (edit name s)) :=
        { table := edits.table
          found := fun other member => by
            rw [kept other member]
            exact edits.found other (List.mem_cons_of_mem _ member)
          accepted := fun t' other s' member found' was => by
            rw [kept other member] at was
            exact edits.accepted t' other s' (List.mem_cons_of_mem _ member) found' was
          refused := fun t' other s' member found' was => by
            rw [kept other member] at was
            exact edits.refused t' other s' (List.mem_cons_of_mem _ member) found' was }
      rw [← editSets_cons found distinct.1]
      refine (ih distinct.2 later).imp ?_ ?_
      · rintro ⟨all, ran⟩
        refine ⟨fun other member s' was => ?_, ran⟩
        obtain rfl | member := List.mem_cons.mp member
        · obtain rfl : s = s' := Option.some.inj (found.symm.trans was)
          exact fine
        · exact all other member s' ((kept other member).trans was)
      · rintro ⟨⟨other, member, s', was, refused⟩, ran⟩
        exact ⟨⟨other, List.mem_cons_of_mem _ member, s', (kept other member).symm.trans was,
          refused⟩, ran⟩
    · rw [edits.refused t name s List.mem_cons_self found found fine]
      exact .inr ⟨⟨name, List.mem_cons_self, s, found, fine⟩, rfl⟩

end Each

section Targets

variable {t : GuardTable} {host : Host} {c : Cidr} {scopes prior : List ManagedScope}
  {clock : ManagedScope → Reading} {expiryUS : Option Int} {observed : List TargetObservation}
  {batch : List Command}

def Prepared (t : GuardTable) (c : Cidr) : Prop :=
  ∀ scope, ∃ s, t.sets (.ban scope c.addr.is4) = some s ∧ s.v4 = c.addr.is4 ∧ s.timeout = true

def InSet (t : GuardTable) (scope : ManagedScope) (c : Cidr) : Prop :=
  ∃ s, t.sets (.ban scope c.addr.is4) = some s ∧ c ∈ s.elements.map Element.cidr

def Clear (t : GuardTable) (scope : ManagedScope) (c : Cidr) : Prop :=
  ∀ s, t.sets (.ban scope c.addr.is4) = some s → ∀ e ∈ s.elements, e.cidr ≠ c →
    e.cidr.overlaps c = false

def timeoutOf (expiryUS : Option Int) (clock : ManagedScope → Reading) : SetName → Option Nat
  | .ban scope _ => (timeoutMS expiryUS (clock scope)).getD none
  | _ => none

/-- The table with the prefix in exactly the named sets among those of its family. -/
def GuardTable.placed (t : GuardTable) (c : Cidr) (names : List SetName)
    (timeout : SetName → Option Nat) : GuardTable :=
  t.editSets [.ban .input c.addr.is4, .ban .forward c.addr.is4] fun name s =>
    if name ∈ names then (s.without c).plus (c, timeout name) else s.without c

variable {name : SetName} {names : List SetName} {timeout : SetName → Option Nat}

def deletions (c : Cidr) (prior : List ManagedScope) : List Command :=
  (targetSets c prior).map fun name => .deleteElement name c

def additions (c : Cidr) (scopes : List ManagedScope) (timeout : SetName → Option Nat) :
    List Command :=
  (targetSets c scopes).map fun name => .addElements name [(c, timeout name)]

def GuardTable.cleared (t : GuardTable) (c : Cidr) (prior : List ManagedScope) : GuardTable :=
  t.editSets (targetSets c prior) fun _ s => s.without c

theorem mem_targetSets :
    name ∈ targetSets c scopes ↔ ∃ scope ∈ scopes, name = .ban scope c.addr.is4 := by
  unfold targetSets
  rw [List.mem_map]
  exact ⟨fun ⟨scope, member, same⟩ => ⟨scope, member, same.symm⟩,
    fun ⟨scope, member, same⟩ => ⟨scope, member, same.symm⟩⟩

theorem nodup_targetSets (distinct : scopes.Nodup) : (targetSets c scopes).Nodup :=
  distinct.map fun _ _ same => (SetName.ban.inj same).1

variable {s : NftSet} {scope : ManagedScope}

theorem without_of_notMem (absent : c ∉ s.elements.map Element.cidr) :
    s.without c = s := by
  unfold NftSet.without
  rw [List.filter_eq_self.mpr]
  intro e member
  rw [bne_iff_ne]
  intro same
  exact absent (List.mem_map.mpr ⟨e, member, same⟩)

theorem notMem_without (s : NftSet) (c : Cidr) : c ∉ (s.without c).elements.map Element.cidr := by
  simp [NftSet.without]

theorem free_without :
    (s.without c).Free c ↔ ∀ e ∈ s.elements, e.cidr ≠ c → e.cidr.overlaps c = false := by
  simp only [NftSet.Free, NftSet.without, List.mem_filter, bne_iff_ne, and_imp]

theorem edits_deletions (prepared : Prepared t c) :
    Edits (targetSets c prior) (fun name => .deleteElement name c)
      (fun _ s => c ∈ s.elements.map Element.cidr) (fun _ s => s.without c) t where
  table := by simp
  found := by
    intro name member
    obtain ⟨scope, _, rfl⟩ := mem_targetSets.mp member
    obtain ⟨s, found, _⟩ := prepared scope
    exact ⟨s, found⟩
  accepted := by
    intro t' name s _ found _ held
    rw [exec_deleteElement found, if_pos held]
  refused := by
    intro t' name s _ found _ held
    rw [exec_deleteElement found, if_neg held]

theorem edits_additions (timeout : SetName → Option Nat) (prepared : Prepared t c)
    (fresh : ∀ scope ∈ scopes, ¬ InSet t scope c) :
    Edits (targetSets c scopes) (fun name => .addElements name [(c, timeout name)])
      (fun _ s => s.Free c) (fun name s => s.plus (c, timeout name)) t where
  table := by simp
  found := by
    intro name member
    obtain ⟨scope, _, rfl⟩ := mem_targetSets.mp member
    obtain ⟨s, found, _⟩ := prepared scope
    exact ⟨s, found⟩
  accepted := by
    intro t' name s member found was free
    obtain ⟨scope, inside, rfl⟩ := mem_targetSets.mp member
    obtain ⟨s', found', family, timed⟩ := prepared scope
    obtain rfl : s = s' := Option.some.inj (was.symm.trans found')
    rw [exec_addElement found family.symm (fun _ => timed)
      (fun held => fresh scope inside ⟨s, was, held⟩), if_pos free]
  refused := by
    intro t' name s member found was taken
    obtain ⟨scope, inside, rfl⟩ := mem_targetSets.mp member
    obtain ⟨s', found', family, timed⟩ := prepared scope
    obtain rfl : s = s' := Option.some.inj (was.symm.trans found')
    rw [exec_addElement found family.symm (fun _ => timed)
      (fun held => fresh scope inside ⟨s, was, held⟩), if_neg taken]

theorem mem_placed_family :
    name ∈ [SetName.ban .input c.addr.is4, .ban .forward c.addr.is4] ↔
      ∃ scope, name = .ban scope c.addr.is4 := by
  simp only [List.mem_cons, List.not_mem_nil, or_false]
  constructor
  · rintro (rfl | rfl)
    · exact ⟨_, rfl⟩
    · exact ⟨_, rfl⟩
  · rintro ⟨scope, rfl⟩
    cases scope <;> simp

theorem sets_cleared (covers : ∀ scope, InSet t scope c → scope ∈ prior) (name : SetName) :
    (t.cleared c prior).sets name =
      if name ∈ [SetName.ban .input c.addr.is4, .ban .forward c.addr.is4] then
        (t.sets name).map fun s => s.without c
      else t.sets name := by
  unfold GuardTable.cleared GuardTable.editSets
  dsimp only
  by_cases inside : name ∈ targetSets c prior
  · obtain ⟨scope, _, rfl⟩ := mem_targetSets.mp inside
    rw [if_pos inside, if_pos (mem_placed_family.mpr ⟨scope, rfl⟩)]
  · rw [if_neg inside]
    split
    · rename_i own
      obtain ⟨scope, rfl⟩ := mem_placed_family.mp own
      cases found : t.sets (.ban scope c.addr.is4) with
      | none => rfl
      | some s =>
        rw [Option.map_some, without_of_notMem]
        intro held
        exact inside (mem_targetSets.mpr ⟨scope, covers scope ⟨s, found, held⟩, rfl⟩)
    · rfl

theorem placed_nil (covers : ∀ scope, InSet t scope c → scope ∈ prior)
    (timeout : SetName → Option Nat) :
    t.cleared c prior = t.placed c [] timeout := by
  unfold GuardTable.placed
  rw [GuardTable.mk.injEq]
  refine ⟨funext fun name => ?_, rfl⟩
  rw [sets_cleared covers name, sets_editSets]
  simp

theorem placed_eq (covers : ∀ scope, InSet t scope c → scope ∈ prior)
    (timeout : SetName → Option Nat) :
    (t.cleared c prior).editSets (targetSets c scopes)
      (fun name s => s.plus (c, timeout name)) = t.placed c (targetSets c scopes) timeout := by
  unfold GuardTable.placed
  rw [GuardTable.mk.injEq]
  refine ⟨funext fun name => ?_, rfl⟩
  rw [sets_editSets, sets_cleared covers name, sets_editSets]
  by_cases added : name ∈ targetSets c scopes
  · have own : name ∈ [SetName.ban .input c.addr.is4, .ban .forward c.addr.is4] := by
      obtain ⟨scope, _, rfl⟩ := mem_targetSets.mp added
      cases scope <;> simp
    rw [if_pos added, if_pos own, if_pos own, Option.map_map]
    simp only [if_pos added]
    rfl
  · rw [if_neg added]
    simp only [if_neg added]

theorem run_deletions (prepared : Prepared t c) (distinct : prior.Nodup) (rest : List Command) :
    ((∀ scope ∈ prior, InSet t scope c) ∧
      runBatch (some t) (deletions c prior ++ rest) = runBatch (some (t.cleared c prior)) rest) ∨
    ((∃ scope ∈ prior, ¬ InSet t scope c) ∧
      runBatch (some t) (deletions c prior ++ rest) = none) := by
  refine (runBatch_each (nodup_targetSets distinct) (edits_deletions prepared) rest).imp ?_ ?_
  · rintro ⟨all, ran⟩
    refine ⟨fun scope member => ?_, ran⟩
    obtain ⟨s, found, _⟩ := prepared scope
    exact ⟨s, found, all _ (mem_targetSets.mpr ⟨scope, member, rfl⟩) s found⟩
  · rintro ⟨⟨name, member, s, found, absent⟩, ran⟩
    obtain ⟨scope, inside, rfl⟩ := mem_targetSets.mp member
    refine ⟨⟨scope, inside, ?_⟩, ran⟩
    rintro ⟨s', found', held⟩
    obtain rfl : s = s' := Option.some.inj (found.symm.trans found')
    exact absent held

theorem run_additions (timeout : SetName → Option Nat) (prepared : Prepared t c)
    (covers : ∀ scope, InSet t scope c → scope ∈ prior) (distinct : scopes.Nodup) :
    ((∀ scope ∈ scopes, Clear t scope c) ∧
      runBatch (some (t.cleared c prior)) (additions c scopes timeout) =
        some (some (t.placed c (targetSets c scopes) timeout))) ∨
    ((∃ scope ∈ scopes, ¬ Clear t scope c) ∧
      runBatch (some (t.cleared c prior)) (additions c scopes timeout) = none) := by
  have sets : ∀ scope, ∀ s, t.sets (.ban scope c.addr.is4) = some s →
      (t.cleared c prior).sets (.ban scope c.addr.is4) = some (s.without c) := by
    intro scope s found
    rw [sets_cleared covers, if_pos (by cases scope <;> simp), found, Option.map_some]
  have prepared' : Prepared (t.cleared c prior) c := by
    intro scope
    obtain ⟨s, found, family, timed⟩ := prepared scope
    exact ⟨_, sets scope s found, family, timed⟩
  have fresh : ∀ scope ∈ scopes, ¬ InSet (t.cleared c prior) scope c := by
    rintro scope _ ⟨s', found', held⟩
    obtain ⟨s, found, _⟩ := prepared scope
    obtain rfl : s.without c = s' := Option.some.inj ((sets scope s found).symm.trans found')
    exact notMem_without s c held
  have ran := runBatch_each (nodup_targetSets distinct) (edits_additions timeout prepared' fresh) []
  rw [List.append_nil] at ran
  refine ran.imp ?_ ?_
  · rintro ⟨all, ran⟩
    refine ⟨fun scope member s found => ?_, ?_⟩
    · exact free_without.mp (all _ (mem_targetSets.mpr ⟨scope, member, rfl⟩) _ (sets scope s found))
    · rw [additions, ran, placed_eq covers]
      rfl
  · rintro ⟨⟨name, member, s', found', taken⟩, ran⟩
    obtain ⟨scope, inside, rfl⟩ := mem_targetSets.mp member
    refine ⟨⟨scope, inside, fun clear => taken ?_⟩, ran⟩
    obtain ⟨s, found, _⟩ := prepared scope
    obtain rfl : s.without c = s' := Option.some.inj ((sets scope s found).symm.trans found')
    exact free_without.mpr (clear s found)

theorem targetBatch_present
    (made : targetBatch clock c .present expiryUS scopes observed = some batch) :
    scopes ≠ [] ∧ (∀ scope ∈ scopes, ∃ timeout, timeoutMS expiryUS (clock scope) = some timeout) ∧
    batch = deletions c (scopesForTarget observed c) ++
      additions c scopes (timeoutOf expiryUS clock) := by
  unfold targetBatch at made
  dsimp only at made
  split at made
  · cases made
  · rename_i some_
    obtain ⟨added, all, same⟩ := Option.bind_eq_some_iff.mp made
    cases same
    refine ⟨by simpa using some_, ?_⟩
    unfold deletions additions
    rw [List.append_right_inj]
    clear made some_
    unfold targetSets
    induction scopes generalizing added with
    | nil =>
      cases all
      simp
    | cons scope rest ih =>
      rw [List.mapM_cons] at all
      obtain ⟨command, first, others⟩ := Option.bind_eq_some_iff.mp all
      obtain ⟨later, made, same⟩ := Option.bind_eq_some_iff.mp others
      obtain ⟨timeout, left, same'⟩ := Option.bind_eq_some_iff.mp first
      cases same
      cases same'
      obtain ⟨each, same⟩ := ih later made
      refine ⟨List.forall_mem_cons.mpr ⟨⟨timeout, left⟩, each⟩, ?_⟩
      rw [List.map_cons, List.map_cons, ← same]
      simp [timeoutOf, left]

theorem targetBatch_absent
    (made : targetBatch clock c .absent expiryUS scopes observed = some batch) :
    scopesForTarget observed c ≠ [] ∧
    batch = deletions c (scopesForTarget observed c) := by
  unfold targetBatch at made
  dsimp only at made
  split at made <;> cases made
  rename_i some_
  exact ⟨by simpa using some_, rfl⟩

def addedSets (c : Cidr) (membership : BanMembership) (scopes : List ManagedScope) : List SetName :=
  match membership with
  | .present => targetSets c scopes
  | .absent => []

/-- A Target batch is accepted if every element it deletes is there and nothing is in the way of
those it adds. -/
theorem run_target {membership : BanMembership} (prepared : Prepared t c)
    (covers : ∀ scope, InSet t scope c → scope ∈ scopesForTarget observed c)
    (once : (scopesForTarget observed c).Nodup) (distinct : scopes.Nodup)
    (made : targetBatch clock c membership expiryUS scopes observed = some batch) :
    ((∀ scope ∈ scopesForTarget observed c, InSet t scope c) ∧
      (membership = .present → ∀ scope ∈ scopes, Clear t scope c) ∧
      runBatch (some t) batch = some (some
        (t.placed c (addedSets c membership scopes) (timeoutOf expiryUS clock)))) ∨
    (¬ ((∀ scope ∈ scopesForTarget observed c, InSet t scope c) ∧
      (membership = .present → ∀ scope ∈ scopes, Clear t scope c)) ∧
      runBatch (some t) batch = none) := by
  cases membership with
  | absent =>
    have deleted := run_deletions prepared once []
    rw [List.append_nil] at deleted
    rw [(targetBatch_absent made).2]
    obtain ⟨held, ran⟩ | ⟨⟨scope, member, absent⟩, ran⟩ := deleted
    · refine .inl ⟨held, by simp, ?_⟩
      rw [ran, placed_nil covers]
      rfl
    · exact .inr ⟨fun both => absent (both.1 scope member), ran⟩
  | present =>
    rw [(targetBatch_present made).2.2]
    obtain ⟨held, ran⟩ | ⟨⟨scope, member, absent⟩, ran⟩ := run_deletions prepared once
      (additions c scopes (timeoutOf expiryUS clock))
    · rw [ran]
      obtain ⟨clear, ran⟩ | ⟨⟨scope, member, taken⟩, ran⟩ :=
        run_additions (timeoutOf expiryUS clock) prepared covers distinct
      · exact .inl ⟨held, fun _ => clear, ran⟩
      · exact .inr ⟨fun both => taken (both.2 rfl scope member), ran⟩
    · exact .inr ⟨fun both => absent (both.1 scope member), ran⟩

section Placed

variable {s : NftSet} {names : List SetName} {timeout : SetName → Option Nat} {scope : ManagedScope}
  {markers : List Rule}

theorem sets_placed_own (found : t.sets (.ban scope c.addr.is4) = some s) :
    (t.placed c names timeout).sets (.ban scope c.addr.is4) =
      some (if .ban scope c.addr.is4 ∈ names then
        (s.without c).plus (c, timeout (.ban scope c.addr.is4)) else s.without c) := by
  unfold GuardTable.placed
  rw [sets_editSets, if_pos (mem_placed_family.mpr ⟨scope, rfl⟩), found, Option.map_some]

theorem sets_placed_other {name : SetName} (other : ¬ ∃ scope, name = .ban scope c.addr.is4) :
    (t.placed c names timeout).sets name = t.sets name := by
  unfold GuardTable.placed
  rw [sets_editSets, if_neg (fun own => other (mem_placed_family.mp own))]

theorem Framed.placed (framed : Framed markers t)
    (fitting : ∀ name ∈ names, Fitting name (c, timeout name)) :
    Framed markers (t.placed c names timeout) where
  sets name := by
    obtain ⟨s, found, sound⟩ := framed.sets name
    by_cases own : ∃ scope, name = .ban scope c.addr.is4
    · obtain ⟨scope, rfl⟩ := own
      refine ⟨_, sets_placed_own found, ?_⟩
      split
      · rename_i added
        exact (sound.without c).plus (fitting _ added) (notMem_without s c)
      · exact sound.without c
    · exact ⟨s, (sets_placed_other own).trans found, sound⟩
  hooked := framed.hooked
  policy := framed.policy

theorem mem_without {d : Cidr} : d ∈ (s.without c).elements.map Element.cidr ↔
    d ≠ c ∧ d ∈ s.elements.map Element.cidr := by
  simp only [NftSet.without, List.mem_map, List.mem_filter, bne_iff_ne]
  constructor
  · rintro ⟨e, ⟨member, differ⟩, rfl⟩
    exact ⟨differ, e, member, rfl⟩
  · rintro ⟨differ, e, member, rfl⟩
    exact ⟨e, ⟨member, differ⟩, rfl⟩

theorem mem_banned_placed (framed : Framed markers t) {d : Cidr} :
    d ∈ banned (t.placed c names timeout) ↔
      (d = c ∧ ∃ scope, SetName.ban scope c.addr.is4 ∈ names) ∨ (d ≠ c ∧ d ∈ banned t) := by
  simp only [mem_banned]
  constructor
  · rintro ⟨scope, v4, s', found', member⟩
    obtain ⟨s, found, sound⟩ := framed.sets (.ban scope v4)
    by_cases own : v4 = c.addr.is4
    · subst own
      rw [sets_placed_own found, Option.some.injEq] at found'
      subst found'
      split at member
      · rename_i added
        simp only [NftSet.plus, List.map_append, List.map_singleton, List.mem_append,
          List.mem_singleton, mem_without] at member
        obtain ⟨differ, held⟩ | rfl := member
        · exact .inr ⟨differ, scope, _, s, found, held⟩
        · exact .inl ⟨rfl, scope, added⟩
      · obtain ⟨differ, held⟩ := mem_without.mp member
        exact .inr ⟨differ, scope, _, s, found, held⟩
    · rw [sets_placed_other (by simpa using own), found, Option.some.injEq] at found'
      subst found'
      refine .inr ⟨?_, scope, v4, s, found, member⟩
      rintro rfl
      obtain ⟨e, among, rfl⟩ := List.mem_map.mp member
      exact own (sound.family e among).symm
  · rintro (⟨rfl, scope, added⟩ | ⟨differ, scope, v4, s, found, held⟩)
    · obtain ⟨s, found, _⟩ := framed.sets (.ban scope d.addr.is4)
      exact ⟨scope, _, _, sets_placed_own found, by simp [added, NftSet.plus]⟩
    · by_cases own : v4 = c.addr.is4
      · subst own
        refine ⟨scope, _, _, sets_placed_own found, ?_⟩
        have kept := mem_without.mpr ⟨differ, held⟩
        split
        · unfold NftSet.plus
          rw [List.map_append]
          exact List.mem_append_left _ kept
        · exact kept
      · exact ⟨scope, v4, s, (sets_placed_other (by simpa using own)).trans found, held⟩

end Placed

theorem timeoutOf_isSome (v4 : Bool) (member : scope ∈ scopes)
    (made : targetBatch clock c .present expiryUS scopes observed = some batch) :
    (timeoutOf expiryUS clock (.ban scope v4)).isSome = expiryUS.isSome := by
  obtain ⟨timeout, left⟩ := (targetBatch_present made).2.1 scope member
  rw [timeoutOf, left, Option.getD_some]
  unfold timeoutMS at left
  split at left
  · cases left
    rfl
  · dsimp only at left
    split at left <;> cases left
    rfl

theorem legible_without (legible : ∀ e ∈ s.elements, e.legible = true) :
    ∀ e ∈ (s.without c).elements, e.legible = true :=
  fun e member => legible e (List.mem_filter.mp member).1

theorem Legible.placed (legible : Legible t)
    (readable : ∀ name ∈ names, Element.legible ⟨c, timeout name⟩ = true) :
    Legible (t.placed c names timeout) := by
  intro name s' found' e member
  unfold GuardTable.placed at found'
  rw [sets_editSets] at found'
  split at found'
  · obtain ⟨s, found, rfl⟩ := Option.map_eq_some_iff.mp found'
    split at member
    · rename_i added
      obtain member | member := List.mem_append.mp member
      · exact legible_without (legible name s found) e member
      · obtain rfl := List.mem_singleton.mp member
        exact readable name added
    · exact legible_without (legible name s found) e member
  · exact legible name s' found' e member

theorem element_of_legible_placed (prepared : Prepared t c) (member : .ban scope c.addr.is4 ∈ names)
    (legible : Legible (t.placed c names timeout)) :
    Element.legible ⟨c, timeout (.ban scope c.addr.is4)⟩ = true := by
  obtain ⟨s, found, _⟩ := prepared scope
  refine legible (.ban scope c.addr.is4) ((s.without c).plus (c, timeout (.ban scope c.addr.is4)))
    ?_ _ (List.mem_append_right _ List.mem_cons_self)
  rw [sets_placed_own found, if_pos member]

end Targets

section Policies

variable {t : GuardTable} {s : NftSet} {name : SetName} {cidrs : List Cidr} {rest : List Command}
  {allowlist protectedTargets : List Prefix}

def Apart (c d : Cidr) : Prop := c.overlaps d = false

def NftSet.holding (s : NftSet) (cidrs : List Cidr) : NftSet :=
  { s with elements := s.elements ++ cidrs.map (⟨·, none⟩) }

theorem addAll_eq (family : ∀ c ∈ cidrs, c.addr.is4 = s.v4) (distinct : cidrs.Nodup)
    (fresh : ∀ c ∈ cidrs, c ∉ s.elements.map Element.cidr) :
    ((cidrs.Pairwise Apart ∧ ∀ c ∈ cidrs, s.Free c) ∧
      (cidrs.map (·, none)).foldlM NftSet.add s = some (s.holding cidrs)) ∨
    (¬ (cidrs.Pairwise Apart ∧ ∀ c ∈ cidrs, s.Free c) ∧
      (cidrs.map (·, none)).foldlM NftSet.add s = none) := by
  induction cidrs generalizing s with
  | nil => exact .inl ⟨by simp, by simp [NftSet.holding]⟩
  | cons c cidrs ih =>
    rw [List.nodup_cons] at distinct
    rw [List.map_cons, List.foldlM_cons,
      add_eq (family c List.mem_cons_self) (by simp) (fresh c List.mem_cons_self)]
    by_cases free : s.Free c
    · rw [if_pos free, Option.bind_eq_bind, Option.bind_some]
      have free_plus : ∀ d, (s.plus (c, none)).Free d ↔ s.Free d ∧ Apart c d := by
        intro d
        simp only [NftSet.Free, NftSet.plus, Apart, List.mem_append, List.mem_singleton]
        constructor
        · exact fun all => ⟨fun e member => all e (.inl member), all ⟨c, none⟩ (.inr rfl)⟩
        · rintro ⟨all, last⟩ e (member | rfl)
          · exact all e member
          · exact last
      have same : ((c :: cidrs).Pairwise Apart ∧ ∀ d ∈ c :: cidrs, s.Free d) ↔
          (cidrs.Pairwise Apart ∧ ∀ d ∈ cidrs, (s.plus (c, none)).Free d) := by
        simp only [free_plus, List.pairwise_cons, List.forall_mem_cons, free, true_and]
        constructor
        · rintro ⟨⟨first, later⟩, all⟩
          exact ⟨later, fun d member => ⟨all d member, first d member⟩⟩
        · rintro ⟨later, all⟩
          exact ⟨⟨fun d member => (all d member).2, later⟩, fun d member => (all d member).1⟩
      have fresh' : ∀ d ∈ cidrs, d ∉ (s.plus (c, none)).elements.map Element.cidr := by
        intro d member inside
        simp only [NftSet.plus, List.map_append, List.map_singleton, List.mem_append,
          List.mem_singleton] at inside
        obtain inside | rfl := inside
        · exact fresh d (List.mem_cons_of_mem _ member) inside
        · exact distinct.1 member
      have held : (s.plus (c, none)).holding cidrs = s.holding (c :: cidrs) := by
        simp [NftSet.plus, NftSet.holding]
      rw [same, ← held]
      exact ih (fun d member => family d (List.mem_cons_of_mem _ member)) distinct.2 fresh'
    · rw [if_neg free]
      exact .inr ⟨fun all => free (all.2 c List.mem_cons_self), rfl⟩

def policyNames : List SetName :=
  [.allow true, .allow false, .protectedTargets true, .protectedTargets false]

def policyList (allowlist protectedTargets : List Prefix) : SetName → List Cidr
  | .allow v4 => family allowlist v4
  | .protectedTargets v4 => family protectedTargets v4
  | .ban .. => []

def addList (allowlist protectedTargets : List Prefix) (name : SetName) : Command :=
  .addElements name ((policyList allowlist protectedTargets name).map (·, none))

theorem exec_addNothing (found : t.sets name = some s) : t.exec (.addElements name []) = some t := by
  have same : t.setSet name s = t := by
    unfold GuardTable.setSet
    rw [← found, Function.update_eq_self]
  simp [GuardTable.exec, found, same]

variable {prefixes : List Prefix}

theorem runBatch_writeElements (found : t.sets name = some s) (batch : List Command) :
    runBatch (some t) (writeElements name prefixes ++ batch) =
      runBatch (some t) (.addElements name ((family prefixes name.v4).map (·, none)) :: batch) := by
  unfold writeElements
  split
  · rename_i empty
    rw [empty, List.map_nil, runBatch_exec (by simp), exec_addNothing found]
    rfl
  · rfl

def policyPrefixes (allowlist protectedTargets : List Prefix) : SetName → List Prefix
  | .allow _ => allowlist
  | .protectedTargets _ => protectedTargets
  | .ban .. => []

theorem family_policyPrefixes (name : SetName) :
    family (policyPrefixes allowlist protectedTargets name) name.v4 =
      policyList allowlist protectedTargets name := by
  cases name <;> rfl

theorem runBatch_writes {names : List SetName} (found : ∀ name ∈ names, ∃ s, t.sets name = some s) :
    runBatch (some t) ((names.flatMap fun name =>
      writeElements name (policyPrefixes allowlist protectedTargets name)) ++ rest) =
    runBatch (some t) (names.map (addList allowlist protectedTargets) ++ rest) := by
  induction names generalizing t with
  | nil => rfl
  | cons name names ih =>
    obtain ⟨s, own⟩ := found name List.mem_cons_self
    rw [List.flatMap_cons, List.append_assoc, runBatch_writeElements own, family_policyPrefixes,
      List.map_cons, List.cons_append]
    change runBatch (some t) (addList allowlist protectedTargets name :: _) = _
    rw [runBatch_exec (by simp [addList]), runBatch_exec (by simp [addList])]
    cases executed : t.exec (addList allowlist protectedTargets name) with
    | none => rfl
    | some t' =>
      obtain ⟨_, _, made⟩ := Option.bind_eq_some_iff.mp executed
      obtain ⟨s', _, made⟩ := Option.bind_eq_some_iff.mp made
      cases made
      refine ih fun other member => ?_
      by_cases same : other = name
      · subst same
        exact ⟨s', t.sets_setSet_self _ _⟩
      · rw [t.sets_setSet_ne _ same]
        exact found other (List.mem_cons_of_mem _ member)

theorem policyBatch_eq (allowlist protectedTargets : List Prefix) :
    policyBatch allowlist protectedTargets = policyNames.map .flushSet ++
      (.flushChain .guardPolicy :: ((policyNames.flatMap fun name =>
        writeElements name (policyPrefixes allowlist protectedTargets name)) ++
      [.addRule .guardPolicy .infrastructureMarker, .addRule .guardPolicy .policyMarker])) := by
  simp [policyBatch, policyNames, policyPrefixes]

theorem pairwise_text_of_valid (valid : validCanonicalPrefixList prefixes = true) :
    prefixes.Pairwise fun p q => p.toText < q.toText := by
  have chain : prefixes.IsChain fun p q => p.toText < q.toText := by
    induction prefixes with
    | nil => exact List.IsChain.nil
    | cons first rest ih =>
      cases rest with
      | nil => exact List.IsChain.singleton _
      | cons second rest =>
        simp only [validCanonicalPrefixList, Bool.and_eq_true, decide_eq_true_eq] at valid
        exact List.IsChain.cons_cons valid.1.2 (ih valid.2)
  have : IsTrans Prefix fun p q => p.toText < q.toText := ⟨fun _ _ _ h h' => String.lt_trans h h'⟩
  exact chain.pairwise

theorem nodup_family (valid : validCanonicalPrefixList prefixes = true) (v4 : Bool) :
    (family prefixes v4).Nodup := by
  have distinct : prefixes.Nodup := (pairwise_text_of_valid valid).imp fun below same => by
    rw [same] at below
    exact String.lt_irrefl _ below
  refine List.Nodup.filter _ ?_
  refine List.Nodup.filterMap ?_ distinct
  intro a b c first second
  rw [Option.mem_def] at first second
  exact first.trans second.symm

theorem nodup_policyList (allow : validCanonicalPrefixList allowlist = true)
    (protect : validCanonicalPrefixList protectedTargets = true) (name : SetName) :
    (policyList allowlist protectedTargets name).Nodup := by
  cases name with
  | allow v4 => exact nodup_family allow v4
  | protectedTargets v4 => exact nodup_family protect v4
  | ban scope v4 => exact List.nodup_nil

def GuardTable.policed (t : GuardTable) (hook : Option ManagedScope)
    (allowlist protectedTargets : List Prefix) : GuardTable where
  sets := fun name =>
    if name ∈ policyNames then
      (t.sets name).map fun s =>
        { s with elements := (policyList allowlist protectedTargets name).map (⟨·, none⟩) }
    else t.sets name
  chains := Function.update t.chains .guardPolicy
    (some ⟨hook, [.infrastructureMarker, .policyMarker]⟩)

def Separate (allowlist protectedTargets : List Prefix) : Prop :=
  ∀ name ∈ policyNames, (policyList allowlist protectedTargets name).Pairwise Apart

theorem edits_flush (found : ∀ name ∈ policyNames, ∃ s, t.sets name = some s) :
    Edits policyNames .flushSet (fun _ _ => True) (fun _ s => { s with elements := [] }) t where
  table := by simp
  found := found
  accepted := by
    intro t' name s _ found _ _
    simp [GuardTable.exec, found]
  refused := fun _ _ _ _ _ _ refused => absurd trivial refused

theorem edits_lists (allow : validCanonicalPrefixList allowlist = true)
    (protect : validCanonicalPrefixList protectedTargets = true)
    (found : ∀ name ∈ policyNames, ∃ s, t.sets name = some s)
    (own : ∀ name s, t.sets name = some s → name ∈ policyNames → s.v4 = name.v4 ∧ s.elements = []) :
    Edits policyNames (addList allowlist protectedTargets)
      (fun name _ => (policyList allowlist protectedTargets name).Pairwise Apart)
      (fun name s => s.holding (policyList allowlist protectedTargets name)) t := by
  have both : ∀ (t' : GuardTable) name s, name ∈ policyNames → t'.sets name = some s →
      t.sets name = some s →
      ((policyList allowlist protectedTargets name).Pairwise Apart ∧
        t'.exec (addList allowlist protectedTargets name) =
          some (t'.setSet name (s.holding (policyList allowlist protectedTargets name)))) ∨
      (¬ (policyList allowlist protectedTargets name).Pairwise Apart ∧
        t'.exec (addList allowlist protectedTargets name) = none) := by
    intro t' name s member found' was
    obtain ⟨v4, empty⟩ := own name s was member
    have listed : ∀ c ∈ policyList allowlist protectedTargets name, c.addr.is4 = s.v4 := by
      intro c inside
      rw [v4]
      rw [← family_policyPrefixes] at inside
      exact (mem_family inside).2
    have distinct := nodup_policyList allow protect name
    have free : ∀ c, s.Free c := by simp [NftSet.Free, empty]
    have fresh : ∀ c ∈ policyList allowlist protectedTargets name,
        c ∉ s.elements.map Element.cidr := by simp [empty]
    obtain ⟨⟨apart, _⟩, added⟩ | ⟨taken, refused⟩ := addAll_eq listed distinct fresh
    · exact .inl ⟨apart, by simp [addList, GuardTable.exec, found', added]⟩
    · exact .inr ⟨fun apart => taken ⟨apart, fun c _ => free c⟩,
        by simp [addList, GuardTable.exec, found', refused]⟩
  refine ⟨by simp [addList], found, ?_, ?_⟩
  · intro t' name s member found' was apart
    exact ((both t' name s member found' was).resolve_right fun h => h.1 apart).2
  · intro t' name s member found' was taken
    exact ((both t' name s member found' was).resolve_left fun h => taken h.1).2

theorem exec_addRule {name : ChainName} {chain : Chain} {rule : Rule}
    (found : t.chains name = some chain) : t.exec (.addRule name rule) =
      some (t.setChain name { chain with rules := chain.rules ++ [rule] }) := by
  simp [GuardTable.exec, found]

/-- A policy batch is accepted if no list has overlapping prefixes; it leaves the ban sets and the
hooked chains alone. -/
theorem run_policy {chain : Chain}
    (found : ∀ name ∈ policyNames, ∃ s, t.sets name = some s ∧ s.v4 = name.v4)
    (marked : t.chains .guardPolicy = some chain)
    (allow : validCanonicalPrefixList allowlist = true)
    (protect : validCanonicalPrefixList protectedTargets = true) :
    (Separate allowlist protectedTargets ∧
      runBatch (some t) (policyBatch allowlist protectedTargets) =
        some (some (t.policed chain.hook allowlist protectedTargets))) ∨
    (¬ Separate allowlist protectedTargets ∧
      runBatch (some t) (policyBatch allowlist protectedTargets) = none) := by
  have present : ∀ name ∈ policyNames, ∃ s, t.sets name = some s := fun name member =>
    (found name member).imp fun _ h => h.1
  rw [policyBatch_eq]
  obtain ⟨_, flushed⟩ | ⟨⟨_, _, _, _, refused⟩, _⟩ :=
    runBatch_each (by decide) (edits_flush present) (.flushChain .guardPolicy ::
      ((policyNames.flatMap fun name =>
        writeElements name (policyPrefixes allowlist protectedTargets name)) ++
      [.addRule .guardPolicy .infrastructureMarker, .addRule .guardPolicy .policyMarker]))
  swap
  · exact absurd trivial refused
  rw [flushed, runBatch_exec (by simp)]
  -- The four sets are empty and the chain has no rules before the lists are written.
  obtain ⟨cleared, executed, sets, chains⟩ : ∃ cleared : GuardTable,
      (t.editSets policyNames fun _ s => { s with elements := [] }).exec
        (.flushChain .guardPolicy) = some cleared ∧
      (∀ name, cleared.sets name =
        if name ∈ policyNames then (t.sets name).map fun s => { s with elements := [] }
        else t.sets name) ∧
      cleared.chains = Function.update t.chains .guardPolicy (some ⟨chain.hook, []⟩) := by
    refine ⟨(t.editSets policyNames fun _ s => { s with elements := [] }).setChain .guardPolicy
      ⟨chain.hook, []⟩, ?_, fun _ => rfl, rfl⟩
    simp [GuardTable.exec, GuardTable.editSets, marked]
  have there : ∀ name ∈ policyNames, ∃ s, cleared.sets name = some s := by
    intro name member
    obtain ⟨s, was⟩ := present name member
    exact ⟨_, by rw [sets, if_pos member, was, Option.map_some]⟩
  have own : ∀ name s, cleared.sets name = some s → name ∈ policyNames →
      s.v4 = name.v4 ∧ s.elements = [] := by
    intro name s now member
    obtain ⟨s', was, v4⟩ := found name member
    rw [sets, if_pos member, was, Option.map_some] at now
    cases now
    exact ⟨v4, rfl⟩
  rw [executed, Option.bind_some, runBatch_writes there]
  obtain ⟨separate, written⟩ | ⟨⟨name, member, s, _, taken⟩, written⟩ :=
    runBatch_each (by decide) (edits_lists allow protect there own)
      [.addRule .guardPolicy .infrastructureMarker, .addRule .guardPolicy .policyMarker]
  · refine .inl ⟨fun name member => ?_, ?_⟩
    · obtain ⟨s, now⟩ := there name member
      exact separate name member s now
    · have marked' : (cleared.editSets policyNames fun name s =>
          s.holding (policyList allowlist protectedTargets name)).chains .guardPolicy =
            some ⟨chain.hook, []⟩ := by
        change cleared.chains .guardPolicy = _
        rw [chains, Function.update_self]
      rw [written, runBatch_exec (by simp), exec_addRule marked', Option.bind_some,
        runBatch_exec (by simp), exec_addRule (GuardTable.chains_setChain_self ..),
        Option.bind_some]
      refine congrArg (fun t' => some (some t')) ?_
      unfold GuardTable.policed
      rw [GuardTable.mk.injEq]
      refine ⟨funext fun name => ?_, ?_⟩
      · change (cleared.editSets policyNames fun name s =>
          s.holding (policyList allowlist protectedTargets name)).sets name = _
        rw [sets_editSets, sets]
        by_cases member : name ∈ policyNames
        · simp only [if_pos member, Option.map_map]
          congr 1
        · simp only [if_neg member]
      · change Function.update (Function.update cleared.chains _ _) _ _ = _
        rw [chains, Function.update_idem, Function.update_idem]
        rfl
  · exact .inr ⟨fun separate => taken (separate name member), written⟩

theorem Framed.policed {markers : List Rule} (framed : Framed markers t)
    (allow : validCanonicalPrefixList allowlist = true)
    (protect : validCanonicalPrefixList protectedTargets = true) :
    Framed [.infrastructureMarker, .policyMarker] (t.policed none allowlist protectedTargets) where
  sets name := by
    obtain ⟨s, found, sound⟩ := framed.sets name
    unfold GuardTable.policed
    dsimp only
    rw [found]
    split
    · rename_i listed
      have canonical : ∀ c ∈ policyList allowlist protectedTargets name, c = c.masked := by
        intro c member
        rw [← family_policyPrefixes] at member
        have masked : ∀ p ∈ policyPrefixes allowlist protectedTargets name, p.canonical = true := by
          cases name with
          | allow v4 => exact canonical_of_validCanonicalPrefixList allow
          | protectedTargets v4 => exact canonical_of_validCanonicalPrefixList protect
          | ban scope v4 => simp [policyPrefixes]
        simpa [Prefix.canonical, Prefix.masked] using masked _ (mem_family member).1
      refine ⟨_, rfl, sound.v4, sound.timeout, ?_, ?_, ?_, by simp, ?_⟩
      · simpa [Function.comp_def] using nodup_policyList allow protect name
      · intro e member
        obtain ⟨c, inside, rfl⟩ := List.mem_map.mp member
        rw [← family_policyPrefixes] at inside
        exact (mem_family inside).2
      · intro e member
        obtain ⟨c, inside, rfl⟩ := List.mem_map.mp member
        exact canonical c inside
      · intro ban
        cases name with
        | ban scope v4 => simp [policyNames] at listed
        | _ => cases ban
    · exact ⟨s, rfl, sound⟩
  hooked scope := by
    simp [GuardTable.policed, framed.hooked scope]
  policy := by simp [GuardTable.policed]

theorem banned_policed (hook : Option ManagedScope) :
    banned (t.policed hook allowlist protectedTargets) = banned t := by
  have kept : ∀ scope v4, (t.policed hook allowlist protectedTargets).sets (.ban scope v4) =
      t.sets (.ban scope v4) := by
    intro scope v4
    unfold GuardTable.policed
    simp [policyNames]
  ext c
  simp only [mem_banned, kept]

theorem Legible.policed (legible : Legible t) (hook : Option ManagedScope) :
    Legible (t.policed hook allowlist protectedTargets) := by
  intro name s' found' e member
  unfold GuardTable.policed at found'
  dsimp only at found'
  split at found'
  · obtain ⟨s, _, rfl⟩ := Option.map_eq_some_iff.mp found'
    obtain ⟨c, _, rfl⟩ := List.mem_map.mp member
    rfl
  · exact legible name s' found' e member

end Policies

end GuardWall.Nftables
