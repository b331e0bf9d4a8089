import GuardWall.Decision.DesiredState
import GuardWall.Reconcile.Provider

/-! When `SetDesiredSnapshot` takes a Desired read after an earlier one was published. The store
gives a target a new generation, and the policy a new revision, each time its content changes; the
Controller compares the content of two reads only. The two agree as long as no content that was
left has come back in between. -/
namespace GuardWall.Decision

open GuardWall.Core GuardWall.Foundation GuardWall.Store GuardWall.Reconcile

/-- The Desired read of `loadAndPublishDesired`. -/
def readDesired (hash : Hash String) (static : StaticDesired) (nodeID : String) (db : Database) :
    Except Fault DesiredSnapshot := do
  let state ← loadDesiredFirewallState hash nodeID db
  static.snapshot hash state

structure Reads (hash : Hash String) (static : StaticDesired) (db : Database)
    (s : DesiredSnapshot) : Prop where
  prepared : s.prepare hash = .ok s
  snapshot : s.snapshotRevision = db.snapshotRevision
  infrastructure : s.infrastructure = static.infrastructure
  infrastructureRevision : s.infrastructureRevision = static.infrastructureRevision
  policy : ∃ p, db.policy = some (s.policyRevision, p) ∧
    PolicyIntent.make hash p.allowlist p.protectedTargets = .ok s.policy
  distinct : (s.targets.map Intent.canonicalTarget).Nodup
  target : ∀ t, s.target? t = intent? db t

theorem reads_of_readDesired {hash : Hash String} {static : StaticDesired} {nodeID : String}
    {b : Book} {s : DesiredSnapshot} (keyed : Keyed b)
    (h : readDesired hash static nodeID b.db = .ok s) : Reads hash static b.db s := by
  simp only [readDesired, loadDesiredFirewallState, StaticDesired.snapshot, bind_eq_ok,
    within_eq_ok] at h
  obtain ⟨state, ⟨_, _, _, _, loaded⟩, snapshot⟩ := h
  split at loaded
  · cases loaded
  rename_i revision stored row
  simp only [bind_eq_ok, within_eq_ok] at loaded
  obtain ⟨policy, made, _, _, loaded⟩ := loaded
  cases loaded
  have prepared := prepare_prepare snapshot
  have distinct := distinct_of_prepare prepared
  simp only [DesiredSnapshot.prepare, bind_eq_ok] at snapshot
  obtain ⟨_, _, same⟩ := snapshot
  cases same
  refine ⟨prepared, rfl, rfl, rfl, ⟨stored, row, made⟩, distinct, fun t => ?_⟩
  apply Option.ext
  intro i
  rw [target?_eq_some distinct, (List.perm_insertionSort _ _).mem_iff, List.mem_map]
  unfold intent?
  constructor
  · rintro ⟨⟨⟨t', row'⟩, member, rfl⟩, rfl⟩
    have found := Table.mem_rows.mp member
    have own := keyed.intents t' row'.intent (by simp [intent?, found])
    dsimp only
    rw [own, found]
    rfl
  · intro found
    obtain ⟨row', held, same⟩ := Option.map_eq_some_iff.mp found
    exact ⟨⟨(t, row'), Table.mem_rows.mpr held, same⟩, keyed.intents t i found⟩

section Transition

variable {previous next : DesiredSnapshot}

def Continues (old new : Intent) : Prop :=
  if old.equivalent new then new.generation = old.generation else old.generation < new.generation

variable {olds : List Intent} {hash : Hash String} {static : StaticDesired} {db : Database}
  {i : Intent}

theorem validateTargetTransition_eq_ok {changed : Bool}
    (h : validateTargetTransition next olds = .ok changed) :
    ∀ old ∈ olds, ∃ new, next.target? old.canonicalTarget = some new ∧ Continues old new := by
  induction olds generalizing changed with
  | nil => simp
  | cons old rest ih =>
    unfold validateTargetTransition at h
    split at h
    · cases h
    rename_i new found
    rw [List.forall_mem_cons]
    cases same : old.equivalent new with
    | true =>
      simp only [same, Bool.not_true, Bool.false_eq_true, if_false, bind_eq_ok, reject_eq_ok] at h
      obtain ⟨_, kept, others⟩ := h
      exact ⟨⟨new, found, by simpa [Continues, same] using kept⟩, ih others⟩
    | false =>
      simp only [same, Bool.not_false, if_true, bind_eq_ok, reject_eq_ok] at h
      obtain ⟨_, newer, _, others, _⟩ := h
      exact ⟨⟨new, found, by simpa [Continues, same] using newer⟩, ih others⟩

theorem validateTargetTransition_succeeds
    (each : ∀ old ∈ olds, ∃ new, next.target? old.canonicalTarget = some new ∧
      Continues old new) :
    ∃ changed, validateTargetTransition next olds = .ok changed ∧
      (changed = true ↔ ∃ old ∈ olds, ∃ new, next.target? old.canonicalTarget = some new ∧
        old.equivalent new = false) := by
  induction olds with
  | nil => exact ⟨false, rfl, by simp⟩
  | cons old rest ih =>
    rw [List.forall_mem_cons] at each
    obtain ⟨⟨new, found, continues⟩, others⟩ := each
    obtain ⟨changed, made, meaning⟩ := ih others
    unfold validateTargetTransition
    simp only [found]
    unfold Continues at continues
    cases same : old.equivalent new with
    | true =>
      rw [same, if_pos rfl] at continues
      refine ⟨changed, ?_, ?_⟩
      · simp [continues, made, bind_eq_ok]
      · rw [meaning]
        simp [found, same]
    | false =>
      rw [same, if_neg (by simp)] at continues
      refine ⟨true, ?_, ?_⟩
      · simp [continues, made, bind_eq_ok]
      · simp [found, same]

theorem Reads.intent_of_mem (h : Reads hash static db next) (member : i ∈ next.targets) :
    intent? db i.canonicalTarget = some i := by
  rw [← h.target]
  exact (target?_eq_some h.distinct).mpr ⟨member, rfl⟩

theorem Reads.mem_of_intent (h : Reads hash static db next) {t : Prefix}
    (found : intent? db t = some i) :
    i ∈ next.targets ∧ i.canonicalTarget = t := by
  rw [← h.target] at found
  exact (target?_eq_some h.distinct).mp found

section Compared

variable {hash : Hash String} {static : StaticDesired} {a b : Database}
  (first : Reads hash static a previous) (second : Reads hash static b next)

include first second

theorem policies_of_follows (follows : Follows a b) :
    (previous.policy = next.policy ∧ previous.policyRevision = next.policyRevision) ∨
      previous.policyRevision < next.policyRevision := by
  obtain ⟨p, before, made⟩ := first.policy
  obtain ⟨q, after, made'⟩ := second.policy
  obtain ⟨r', p', found, change⟩ := follows.later.policy _ p before
  rw [after] at found
  cases found
  obtain ⟨same, rfl⟩ | newer := change
  · rw [made] at made'
    exact .inl ⟨Except.ok.inj made', same.symm⟩
  · exact .inr newer

theorem continues_of_follows (follows : Follows a b)
    (unreturned : ∀ t i j, intent? a t = some i → intent? b t = some j → i.equivalent j = true →
      i.generation = j.generation) :
    ∀ old ∈ previous.targets, ∃ new, next.target? old.canonicalTarget = some new ∧
      Continues old new := by
  intro old member
  have before := first.intent_of_mem member
  obtain ⟨new, after, change⟩ := follows.later.intents _ old before
  refine ⟨new, (second.target _).trans after, ?_⟩
  unfold Continues
  cases same : old.equivalent new with
  | true => exact (unreturned _ old new before after same).symm
  | false =>
    obtain rfl | newer := change
    · simp at same
    · simpa using newer

theorem change_iff_snapshot {changed : Bool} (follows : Follows a b)
    (unreturned : ∀ t i j, intent? a t = some i → intent? b t = some j → i.equivalent j = true →
      i.generation = j.generation)
    (policies : previous.policy = next.policy → previous.policyRevision = next.policyRevision)
    (meaning : changed = true ↔ ∃ old ∈ previous.targets, ∃ new,
      next.target? old.canonicalTarget = some new ∧ old.equivalent new = false) :
    (previous.policy ≠ next.policy ∨ changed = true ∨
      ∃ i ∈ next.targets, previous.target? i.canonicalTarget = none) ↔
      previous.snapshotRevision < next.snapshotRevision := by
  rw [first.snapshot, second.snapshot, meaning]
  constructor
  · intro seen
    refine lt_of_le_of_ne follows.snapshot fun equal => ?_
    have same := follows.same equal
    obtain differ | ⟨old, member, new, found, differ⟩ | ⟨i, member, absent⟩ := seen
    · obtain ⟨p, before, made⟩ := first.policy
      obtain ⟨q, after, made'⟩ := second.policy
      rw [same.policy, before] at after
      obtain ⟨_, rfl⟩ := Prod.mk.inj (Option.some.inj after)
      rw [made] at made'
      exact differ (Except.ok.inj made')
    · rw [second.target, same.intents, first.intent_of_mem member] at found
      cases found
      simp at differ
    · rw [first.target, ← same.intents, second.intent_of_mem member] at absent
      cases absent
  · intro less
    obtain ⟨t, j, absent, found⟩ | ⟨t, i, j, before, found, newer⟩ | ⟨r, p, found, newer⟩ :=
      follows.moved less
    · obtain ⟨member, rfl⟩ := second.mem_of_intent found
      exact .inr (.inr ⟨j, member, (first.target _).trans absent⟩)
    · obtain ⟨member, rfl⟩ := first.mem_of_intent before
      refine .inr (.inl ⟨i, member, j, (second.target _).trans found, ?_⟩)
      rw [Bool.eq_false_iff]
      intro same
      exact newer.ne (unreturned _ i j before found same)
    · obtain ⟨q, before, _⟩ := first.policy
      obtain ⟨q', after, _⟩ := second.policy
      rw [after] at found
      cases found
      exact .inl fun same => (newer _ q before).ne (policies same)

/-- The store keeps to what the Controller checks, up to content that is back under a later
generation or revision. -/
theorem validateDesiredTransition_iff (follows : Follows a b) :
    validateDesiredTransition previous next = .ok () ↔
      (previous.policy = next.policy → previous.policyRevision = next.policyRevision) ∧
        ∀ t i j, intent? a t = some i → intent? b t = some j → i.equivalent j = true →
          i.generation = j.generation := by
  have ordered := policies_of_follows first second follows
  simp only [validateDesiredTransition, bind_eq_ok, reject_eq_ok, bne_eq_false_iff_eq]
  constructor
  · rintro ⟨_, _, _, _, _, policies, _, targets, _⟩
    refine ⟨fun same => ?_, fun t i j before after same => ?_⟩
    · obtain ⟨_, equal⟩ | newer := ordered
      · exact equal
      · simp [same, newer] at policies
    · obtain ⟨member, rfl⟩ := first.mem_of_intent before
      obtain ⟨new, found, continues⟩ := validateTargetTransition_eq_ok targets i member
      rw [second.target, after] at found
      cases found
      rw [Continues, if_pos same] at continues
      exact continues.symm
  · rintro ⟨policies, unreturned⟩
    obtain ⟨changed, made, meaning⟩ :=
      validateTargetTransition_succeeds (continues_of_follows first second follows unreturned)
    have snapshots := change_iff_snapshot first second follows unreturned policies meaning
    have notBack := follows.snapshot
    rw [← first.snapshot, ← second.snapshot] at notBack
    refine ⟨(), ?_, (), ?_, (), ?_, changed, made, ?_⟩
    · rw [first.infrastructureRevision, second.infrastructureRevision]
      have policyNotBack : previous.policyRevision ≤ next.policyRevision := by omega
      simp [notBack, policyNotBack]
    · simp [first.infrastructure, second.infrastructure, first.infrastructureRevision,
        second.infrastructureRevision]
    · rw [Bool.eq_iff_iff, bne_iff_ne, decide_eq_true_iff]
      constructor
      · intro differ
        exact ordered.resolve_left fun same => differ same.1
      · intro newer same
        exact newer.ne (policies same)
    · rw [Bool.eq_iff_iff, decide_eq_true_iff, ← snapshots]
      simp [first.infrastructure, second.infrastructure, or_assoc]

end Compared

end Transition

section Publication

variable {hash : Hash String} {s : DesiredSnapshot} {c c' : Controller}

theorem setDesiredSnapshot_desired (prepared : s.prepare hash = .ok s)
    (h : c.setDesiredSnapshot hash s = .ok c') : c'.desired = some s := by
  simp only [Controller.setDesiredSnapshot, bind_eq_ok, within_eq_ok, prepared] at h
  obtain ⟨_, same, _, _, made⟩ := h
  cases same
  cases made
  rfl

theorem setDesiredSnapshot_succeeds_iff {previous : DesiredSnapshot}
    (prepared : s.prepare hash = .ok s) (published : c.desired = some previous) :
    (∃ c', c.setDesiredSnapshot hash s = .ok c') ↔ validateDesiredTransition previous s = .ok () := by
  simp only [Controller.setDesiredSnapshot, bind_eq_ok, within_eq_ok, prepared, published,
    checkSome_eq_ok]
  constructor
  · rintro ⟨_, _, same, _, checked, _⟩
    cases same
    exact checked _ rfl
  · intro checked
    refine ⟨_, s, rfl, (), ?_, rfl⟩
    rintro _ ⟨⟩
    exact checked

end Publication

section History

variable (resolver : Resolver) (hash : Hash String)

/-- Between the first and the last state of a history a target or the policy has been left, and at
its end the content is back. -/
def BroughtBack (b : Book) (ts : List Transaction) : Prop :=
  ∃ between after, ts = between ++ after ∧
    ((∃ t i j, intent? b.db t = some i ∧
        intent? (commitAll resolver hash b between).db t ≠ some i ∧
        intent? (commitAll resolver hash b ts).db t = some j ∧ i.equivalent j = true) ∨
      ∃ r p r', b.db.policy = some (r, p) ∧
        (commitAll resolver hash b between).db.policy ≠ some (r, p) ∧
        (commitAll resolver hash b ts).db.policy = some (r', p))

structure Founded (b : Book) : Prop where
  keyed : Keyed b
  complete : ∀ r p, b.db.policy = some (r, p) → p.validateComplete hash = .ok ()

variable {resolver hash}

variable {b : Book} {static : StaticDesired}

theorem broughtBack_iff (keyed : Keyed b) {ts : List Transaction} :
    BroughtBack resolver hash b ts ↔
      (∃ t i j, intent? b.db t = some i ∧ intent? (commitAll resolver hash b ts).db t = some j ∧
        i.equivalent j = true ∧ i.generation ≠ j.generation) ∨
      ∃ r p r', b.db.policy = some (r, p) ∧
        (commitAll resolver hash b ts).db.policy = some (r', p) ∧ r ≠ r' := by
  constructor
  · rintro ⟨between, after, rfl, h⟩
    have committed := committed_commitAll resolver hash keyed between
    have first := committed.follows
    have rest := (committed_commitAll resolver hash committed.keyed after).follows
    rw [commitAll_append] at h ⊢
    obtain ⟨t, i, j, before, left, found, same⟩ | ⟨r, p, r', before, left, found⟩ := h
    · obtain ⟨m, middle, change⟩ := first.later.intents t i before
      obtain rfl | newer := change
      · exact absurd middle left
      · have kept := rest.later.generation_le middle found
        exact .inl ⟨t, i, j, before, found, same, by omega⟩
    · obtain ⟨q, m, middle, change⟩ := first.later.policy r p before
      obtain ⟨rfl, rfl⟩ | newer := change
      · exact absurd middle left
      · obtain ⟨q', m', last, change⟩ := rest.later.policy q m middle
        rw [found] at last
        cases last
        exact .inr ⟨r, p, r', before, found, by omega⟩
  · intro h
    refine ⟨ts, [], (List.append_nil ts).symm, ?_⟩
    obtain ⟨t, i, j, before, found, same, differ⟩ | ⟨r, p, r', before, found, differ⟩ := h
    · refine .inl ⟨t, i, j, before, fun kept => ?_, found, same⟩
      rw [found] at kept
      cases kept
      exact differ rfl
    · refine .inr ⟨r, p, r', before, fun kept => ?_, found⟩
      rw [found] at kept
      cases kept
      exact differ rfl

theorem Founded.commitAll (h : Founded hash b) (resolver : Resolver) (ts : List Transaction) :
    Founded hash (commitAll resolver hash b ts) := by
  have committed := committed_commitAll resolver hash h.keyed ts
  refine ⟨committed.keyed, fun r p found => ?_⟩
  obtain same | ⟨r', p', written, complete⟩ := committed.policy
  · exact h.complete r p (same.symm.trans found)
  · rw [written] at found
    cases found
    exact complete

theorem Founded.stored {s : DesiredSnapshot} (h : Founded hash b) (reads : Reads hash static b.db s)
    :
    b.db.policy = some (s.policyRevision, s.policy) := by
  obtain ⟨p, found, made⟩ := reads.policy
  rw [make_of_validateComplete (h.complete _ p found)] at made
  rw [found, Except.ok.inj made]

/-- Of two reads at transaction boundaries the second is accepted after the first was published if
and only if nothing left in between is back at the second. -/
theorem second_read_accepted_iff {nodeID : String} (founded : Founded hash b)
    (earlier later : List Transaction) {c c' : Controller} {first second : DesiredSnapshot}
    (readFirst : readDesired hash static nodeID (commitAll resolver hash b earlier).db = .ok first)
    (readSecond : readDesired hash static nodeID
      (commitAll resolver hash b (earlier ++ later)).db = .ok second)
    (published : c.setDesiredSnapshot hash first = .ok c') :
    (∃ c'', c'.setDesiredSnapshot hash second = .ok c'') ↔
      ¬ BroughtBack resolver hash (commitAll resolver hash b earlier) later := by
  rw [commitAll_append] at readSecond
  have atFirst := founded.commitAll resolver earlier
  have atSecond := atFirst.commitAll resolver later
  have reads := reads_of_readDesired atFirst.keyed readFirst
  have reads' := reads_of_readDesired atSecond.keyed readSecond
  have follows := (committed_commitAll resolver hash atFirst.keyed later).follows
  rw [setDesiredSnapshot_succeeds_iff reads'.prepared
    (setDesiredSnapshot_desired reads.prepared published),
    validateDesiredTransition_iff reads reads' follows, broughtBack_iff atFirst.keyed]
  have stored := atFirst.stored reads
  have stored' := atSecond.stored reads'
  rw [not_or, and_comm]
  apply and_congr
  · simp only [not_exists, not_and, not_not]
  · constructor
    · rintro policies ⟨r, p, r', before, after, differ⟩
      rw [stored] at before
      rw [stored'] at after
      cases before
      obtain ⟨rfl, same⟩ := Prod.mk.inj (Option.some.inj after)
      exact differ (policies same.symm)
    · intro unreturned same
      by_contra differ
      exact unreturned ⟨_, _, _, stored, by rw [stored', same], differ⟩

end History

namespace Sample

open GuardWall.Reconcile.Sample

def static : StaticDesired := ⟨1, infrastructure, by decide, by decide⟩

def resolver : Resolver := fun _ _ =>
  .ok ⟨.none, "", scopeInput, true, digest⟩

def managed : PolicyIntent := ⟨digest, [], [Prefix.loopback4, Prefix.loopback6]⟩

def projection (state : BanMembership) (revision : Nat) : Projection where
  nodeID := nodeID
  canonicalTarget := target
  state := state
  activeCount := if state = .present then 1 else 0
  effectiveUntil := none
  revision := revision

def decided (p : Projection) : Transaction := .decision [p] [p] (second 1)

def store : Book := ⟨{ nodeID := nodeID }, ∅⟩

def banned : List Transaction := [.replacePolicy 0 managed (second 1), decided (projection .present 1)]

def unbanned : Transaction := decided (projection .absent 2)

def bannedAgain : Transaction := decided (projection .present 3)

def read (ts : List Transaction) : Except Fault DesiredSnapshot :=
  readDesired (hash _) static nodeID (commitAll resolver (hash _) store ts).db

def started : Controller := { nodeID := nodeID }

def publishBoth (earlier later : List Transaction) : Except Fault (Bool × Controller) := do
  let first ← read earlier
  let second ← read (earlier ++ later)
  let c ← started.setDesiredSnapshot (hash _) first
  return ((c.setDesiredSnapshot (hash _) second).isOk, c)

theorem founded_store : Founded (hash _) store :=
  ⟨⟨by rintro t i ⟨⟩, by rintro t p ⟨⟩⟩, by rintro r p ⟨⟩⟩

/-- A target is banned, unbanned and banned again between two reads: the second is rejected for a
generation that advanced while the content did not change. -/
theorem banned_again_rejected : ∃ first second c,
    read banned = .ok first ∧ read (banned ++ [unbanned, bannedAgain]) = .ok second ∧
      started.setDesiredSnapshot (hash _) first = .ok c ∧
      (c.setDesiredSnapshot (hash _) second).isOk = false := by
  have run : (publishBoth banned [unbanned, bannedAgain]).toOption.map Prod.fst = some false := by
    decide +kernel
  obtain ⟨⟨_, c⟩, made, rejected⟩ := Option.map_eq_some_iff.mp run
  simp only [toOption_eq_some, publishBoth, bind_eq_ok] at made
  obtain ⟨first, readFirst, second, readSecond, c', published, same⟩ := made
  cases same
  exact ⟨first, second, c, readFirst, readSecond, published, rejected⟩

theorem second_read_accepted_iff_unbanned : ∃ first second c,
    read banned = .ok first ∧ read (banned ++ [unbanned]) = .ok second ∧
      started.setDesiredSnapshot (hash _) first = .ok c ∧
      ((∃ c', c.setDesiredSnapshot (hash _) second = .ok c') ↔
        ¬ BroughtBack resolver (hash _)
          (commitAll resolver (hash _) store banned) [unbanned]) ∧
      ∃ c', c.setDesiredSnapshot (hash _) second = .ok c' := by
  have run : (publishBoth banned [unbanned]).toOption.map Prod.fst = some true := by
    decide +kernel
  obtain ⟨⟨_, c⟩, made, accepted⟩ := Option.map_eq_some_iff.mp run
  simp only [toOption_eq_some, publishBoth, bind_eq_ok] at made
  obtain ⟨first, readFirst, second, readSecond, c', published, same⟩ := made
  cases same
  exact ⟨first, second, c, readFirst, readSecond, published,
    second_read_accepted_iff founded_store banned [unbanned] readFirst readSecond published,
    isOk_iff.mp accepted⟩

end Sample

end GuardWall.Decision
