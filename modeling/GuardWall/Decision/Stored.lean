import GuardWall.Decision.PolicyResolution

/-! What an intent in the store is, whatever transactions have run: the resolution of a projection
that is still there, with a generation and an expiry the columns can hold. -/
namespace GuardWall.Decision

open GuardWall.Core GuardWall.Foundation GuardWall.Store

section Backing

variable {resolver : Resolver} {hash : Hash String} {updatedAt : Instant} {b b' : Book}

def Backed (b : Book) : Prop :=
  ∀ t i, intent? b.db t = some i →
    (∃ p, b.projections.lookup t = some p) ∧ persistIntent i = i ∧ i.generation ≤ maxInt64

theorem Backed.of_same (h : Backed b) (intents : ∀ t, intent? b'.db t = intent? b.db t)
    (kept : ∀ t p, b.projections.lookup t = some p → ∃ q, b'.projections.lookup t = some q) :
    Backed b' := by
  intro t i found
  rw [intents] at found
  obtain ⟨⟨p, listed⟩, rest⟩ := h t i found
  exact ⟨kept t p listed, rest⟩

theorem backed_materializeTarget {target : Prefix} {changed : Bool} (standing : Standing b)
    (h : materializeTarget resolver updatedAt target b = .ok (changed, b')) (before : Backed b) :
    Backed b' := by
  obtain ⟨projection, policy, listed, _, ⟨_, rfl, _⟩ | ⟨_, i, _, shape, _, _, _, fits, _, rfl⟩⟩ :=
    materializeTarget_cases standing.keyed h
  · exact before
  · have stored : persistIntent i = i := by
      rw [shape]
      exact persistIntent_resolvedIntent policy _ (standing.stored target projection listed)
    intro t j found
    rw [intent?_write, stored] at found
    split at found
    · rename_i same
      subst same
      cases found
      exact ⟨⟨projection, listed⟩, stored, fits⟩
    · exact before t j found

theorem backed_materialize {affected : List Projection} {changed : Bool} (standing : Standing b)
    (h : materialize resolver affected updatedAt b = .ok (changed, b')) (before : Backed b) :
    Backed b' :=
  (materialize_keeps (P := fun b => Standing b ∧ Backed b)
    (fun _ _ _ _ before one => ⟨(finalized_materializeTarget before.1 one).standing,
      backed_materializeTarget before.1 one before.2⟩) h ⟨standing, before⟩).2

theorem backed_putProjection {p : Projection} (h : b.putProjection p updatedAt = .ok b')
    (before : Backed b) : Backed b' := by
  obtain ⟨lookup, db, _⟩ := putProjection_lookup h
  refine before.of_same (fun t => by rw [db]) fun t q listed => ?_
  rw [lookup]
  split
  · exact ⟨_, rfl⟩
  · exact ⟨q, listed⟩

theorem backed_commit {t : Transaction} (standing : Standing b) (complete : t.Complete)
    (before : Backed b) : Backed (t.commit resolver hash b) := by
  unfold Transaction.commit
  split
  swap
  · exact before
  rename_i after done
  cases t with
  | reconcile => cases complete
  | decision rebuilt affected updatedAt =>
    simp only [Transaction.attempt, bind_eq_ok] at done
    obtain ⟨middle, written, done⟩ := done
    obtain ⟨changed, made, final, outcome⟩ := finalize_cases done
    obtain ⟨projected, backed⟩ : Standing middle ∧ Backed middle :=
      foldlM_eq_ok (fun _ middle => Standing middle ∧ Backed middle)
        (fun _ p _ _ before step =>
          ⟨(standing_putProjection before.1 step).1, backed_putProjection step before.2⟩)
        rebuilt [] b middle ⟨standing, before⟩ written
    have resolved := backed_materialize projected final backed
    obtain ⟨_, rfl⟩ | ⟨_, rfl⟩ := outcome
    · exact resolved
    · exact resolved.of_same (fun _ => rfl) fun _ p listed => ⟨p, listed⟩
  | replacePolicy expectedRevision policy updatedAt =>
    obtain ⟨_, ⟨_, rfl⟩ | ⟨_, middle, _, made, rfl⟩⟩ := replace_cases done
    · exact before
    have resolved := backed_materialize (standing.withPolicy policy) made
      (before.of_same (fun _ => rfl) fun _ p listed => ⟨p, listed⟩)
    exact resolved.of_same (fun _ => rfl) fun _ p listed => ⟨p, listed⟩

theorem backed_run {digest : Hash (List String)} {d : Docket} (ops : List Operation)
    (first : d.book.Kept resolver) (before : Backed d.book) :
    Backed (Docket.run resolver hash digest d ops).book := by
  induction ops generalizing d with
  | nil => exact before
  | cons op rest ih =>
    obtain ⟨t, complete, same⟩ := @book_commit resolver hash digest op d first.standing.keyed
    refine ih (kept_run [op] first) ?_
    rw [← same]
    exact backed_commit first.standing complete before

end Backing

def bookAfter (r : ManagedPolicyTargetResolver) (hash : Hash String) (digest : Hash (List String))
    (nodeID : String) (ops : List Operation) : Book :=
  (Docket.run (r.resolveTargetPolicy hash) hash digest
    { book := { db := { nodeID := nodeID } } } ops).book

structure StoredIntent (r : ManagedPolicyTargetResolver) (i : Intent) : Prop where
  canonical : i.canonicalTarget.canonical = true
  positive : 0 < i.generation
  fits : i.generation ≤ maxInt64
  scopes : i.scopes = r.scopes
  absent : i.banMembership = .absent → i.effectiveUntil = none
  native : i.timeoutMode = .native ↔ i.effectiveUntil.isSome ∧ r.nativeTimeoutSupported = true
  expires : ∀ t, i.effectiveUntil = some t → ∃ us, t = .ofMicro us ∧ 0 < us

variable {p : Projection} {policy : TargetPolicy} {i : Intent}

variable {target : Prefix} {r : ManagedPolicyTargetResolver}

theorem Aggregates.expires_positive {d : Docket} {nodeID : String}
    (h : Aggregates (d.activeRows nodeID target) p) {t : Instant}
    (until_ : p.effectiveUntil = some t) : ∃ us, t = .ofMicro us ∧ 0 < us := by
  obtain ⟨us, same, ⟨row, member, expires⟩, _⟩ := h.latest t until_
  obtain ⟨id, found⟩ := mem_allRows.mp (mem_activeRows.mp member).1
  have checked := checked_of_row? found
  have lasts := checked.expires us expires
  have begins := checked.created
  exact ⟨us, same, by omega⟩

theorem resolveTargetPolicy_ok {hash : Hash String} {current : Option (Nat × PolicyIntent)}
    (h : r.resolveTargetPolicy hash current p = .ok policy) :
    policy.scopes = r.scopes ∧ policy.nativeTimeoutSupported = r.nativeTimeoutSupported := by
  unfold ManagedPolicyTargetResolver.resolveTargetPolicy at h
  split at h
  · cases h
  · simp only [bind_eq_ok] at h
    obtain ⟨resolution, _, h⟩ := h
    cases h
    exact ⟨rfl, rfl⟩

theorem effectiveUntil_of_equivalent (stored : persistIntent i = i)
    (expires : ∀ t, p.effectiveUntil = some t → ∃ us, t = .ofMicro us ∧ 0 < us)
    (same : i.equivalent (resolvedIntent p policy i.generation) = true) :
    i.effectiveUntil = if p.state = .present then p.effectiveUntil else none := by
  have read : i.effectiveUntil.map Instant.truncateMicro = i.effectiveUntil :=
    congrArg Intent.effectiveUntil stored
  simp only [Intent.equivalent, resolvedIntent, Bool.and_eq_true] at same
  have time := same.1.1.1.1.1.1.2
  refine equalTime_readBack read (fun t until_ => ?_) time
  split at until_
  · obtain ⟨us, same, _⟩ := expires t until_
    exact ⟨us, same⟩
  · cases until_

theorem storedIntent_of_equivalent (valid : i.validate = .ok ()) (stored : persistIntent i = i)
    (fits : i.generation ≤ maxInt64)
    (expires : ∀ t, p.effectiveUntil = some t → ∃ us, t = .ofMicro us ∧ 0 < us)
    (scopes : policy.scopes = r.scopes)
    (supported : policy.nativeTimeoutSupported = r.nativeTimeoutSupported)
    (same : i.equivalent (resolvedIntent p policy i.generation) = true) : StoredIntent r i := by
  have until_ := effectiveUntil_of_equivalent stored expires same
  simp only [Intent.equivalent, resolvedIntent, Bool.and_eq_true, beq_iff_eq] at same
  obtain ⟨⟨⟨⟨⟨⟨⟨⟨⟨_, _⟩, membership⟩, _⟩, mode⟩, covers⟩, _⟩, _⟩, _⟩, _⟩ := same
  simp only [Intent.validate, bind_eq_ok, reject_eq_ok] at valid
  obtain ⟨_, _, _, canonical, _, generation, _⟩ := valid
  refine
    { canonical := by simpa using canonical
      positive := Nat.pos_of_ne_zero (by simpa using generation)
      fits := fits
      scopes := covers.trans scopes
      absent := fun absent => ?_
      native := ?_
      expires := fun t own => ?_ }
  · rw [until_, if_neg (by rw [← membership, absent]; decide)]
  · rw [mode, until_, supported]
    by_cases present : p.state = .present
    · simp [present]
    · simp [present]
  · rw [until_] at own
    split at own
    · exact expires t own
    · cases own

theorem storedIntent_of_run (r : ManagedPolicyTargetResolver) (hash : Hash String)
    (digest : Hash (List String)) (nodeID : String) (ops : List Operation)
    (found : intent? (bookAfter r hash digest nodeID ops).db target = some i) :
    i.canonicalTarget = target ∧ StoredIntent r i := by
  have kept : (bookAfter r hash digest nodeID ops).Kept (r.resolveTargetPolicy hash) :=
    kept_run ops (kept_empty nodeID)
  have backed : Backed (bookAfter r hash digest nodeID ops) :=
    backed_run ops (kept_empty nodeID) (by rintro t i ⟨⟩)
  obtain ⟨⟨p, listed⟩, stored, fits⟩ := backed target i found
  obtain ⟨j, policy, found', valid, resolved, same⟩ := kept.resolved target p listed
  rw [found] at found'
  cases found'
  obtain ⟨scopes, supported⟩ := resolveTargetPolicy_ok resolved
  have whole : (Docket.run (r.resolveTargetPolicy hash) hash digest
      { book := { db := { nodeID := nodeID } } } ops).Whole := whole_run (whole_empty _) ops
  have reflects := whole.reflects target
  unfold Docket.Reflects at reflects
  rw [show (Docket.run (r.resolveTargetPolicy hash) hash digest _ ops).book.projections.lookup
    target = some p from listed] at reflects
  exact ⟨kept.standing.keyed.intents target i found,
    storedIntent_of_equivalent valid stored fits (fun _ => reflects.expires_positive) scopes
      supported same⟩

end GuardWall.Decision
