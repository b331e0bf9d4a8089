import GuardWall.Reconcile.Wake

/-! Coalescing loses no wakeup: who owns a reservation, and what a call that returned nil can
rely on. -/
namespace GuardWall.Reconcile

open GuardWall.Core GuardWall.Foundation

namespace WakeBoard

def outstanding (b : WakeBoard) (key : ReconcileKey) : Prop :=
  key ∈ b.queue ∨ b.worker = .holding key

def sent (b : WakeBoard) (r : Nat) : Prop :=
  b.closed.lookup r = some none ∨
    ∃ id call, b.calls.lookup id = some call ∧ call.point = .finishing r none

/-- The key is still to be marked dequeued; or it was marked after the call began, and since
its newest mark waits to be dispatched or had its plan read from a state not older than the
call. -/
def served (b : WakeBoard) (id : Nat) (call : WakeCall) : Prop :=
  b.outstanding call.key ∨
    .marked call.key ∈ newerThan (.began id) b.trace ∧
      (call.key ∈ b.ready ∨
        ∃ v, call.version ≤ v ∧ .planRead call.key v ∈ newerThan (.marked call.key) b.trace)

variable {b : WakeBoard} {id other : Nat} {call : WakeCall} {point : WakePoint}

theorem lookup_put : (b.put id call point).calls.lookup other =
    if other = id then some { call with point := point } else b.calls.lookup other :=
  Table.lookup_insert

theorem cases_put {found : WakeCall} (h : (b.put id call point).calls.lookup other = some found) :
    other = id ∧ found = { call with point := point } ∨
      other ≠ id ∧ b.calls.lookup other = some found := by
  obtain ⟨same, rfl⟩ | kept := Table.lookup_insert_eq_some.mp h
  · exact .inl ⟨same, rfl⟩
  · exact .inr kept

end WakeBoard

open WakeBoard

structure Ownership (b : WakeBoard) : Prop where
  distinct : b.queue.Nodup
  held : ∀ key, b.worker = .holding key → key ∉ b.queue
  reserved : ∀ key, b.outstanding key → ∃ r, b.queued.lookup key = some r
  unsent : ∀ id call r, b.calls.lookup id = some call → call.point.unsent = some r →
    b.queued.lookup call.key = some r ∧ ¬ b.outstanding call.key
  owner : ∀ id id' call call' r, b.calls.lookup id = some call → b.calls.lookup id' = some call' →
    call.point.owns = some r → call'.point.owns = some r → id = id'
  owned : ∀ id call r, b.calls.lookup id = some call → call.point.owns = some r →
    r < b.reservations ∧ b.closed.lookup r = none
  numbered : ∀ key r, b.queued.lookup key = some r → r < b.reservations
  closing : ∀ r err, b.closed.lookup r = some err → r < b.reservations
  entry : ∀ key r, b.queued.lookup key = some r → b.outstanding key ∨
    ∃ id call, b.calls.lookup id = some call ∧ call.key = key ∧ call.point.unsent = some r
  keyed : ∀ key r id call, b.queued.lookup key = some r → b.calls.lookup id = some call →
    call.point.owns = some r → call.key = key

def Covered (b : WakeBoard) (id : Nat) (call : WakeCall) : Prop :=
  match call.point with
  | .waiting r => r < b.reservations ∧
      (∀ id' call', b.calls.lookup id' = some call' → call'.point.owns = some r →
        call'.key = call.key) ∧
      (b.sent r → b.served id call)
  | .finishing _ none => b.served id call
  | .returned none => b.served id call
  | _ => True

structure Coverage (b : WakeBoard) : Prop where
  began : ∀ id call, b.calls.lookup id = some call → .began id ∈ b.trace
  version : ∀ id call, b.calls.lookup id = some call → call.version ≤ b.version
  covered : ∀ id call, b.calls.lookup id = some call → Covered b id call

namespace Ownership

variable {b : WakeBoard} {id : Nat} {call : WakeCall}

variable {r : Nat} {key : ReconcileKey} {b' : WakeBoard}

theorem same (h : Ownership b) {id' : Nat} {call' : WakeCall}
    (found : b.calls.lookup id = some call) (found' : b.calls.lookup id' = some call')
    (owns : call.point.owns = some r) (owns' : call'.point.owns = some r) : call = call' := by
  have equal := h.owner id id' call call' r found found' owns owns'
  subst equal
  rw [found] at found'
  cases found'
  rfl

theorem owns_of_unsent {point : WakePoint} (h : point.unsent = some r) :
    point.owns = some r := by
  unfold WakePoint.unsent at h
  split at h <;> cases h <;> rfl

theorem outstanding_of_sent (h : Ownership b) (reserved : b.queued.lookup key = some r)
    (sent : b.sent r) : b.outstanding key := by
  obtain outstanding | ⟨id, call, found, _, unsent⟩ := h.entry key r reserved
  · exact outstanding
  · have owns := owns_of_unsent unsent
    obtain closed | ⟨id', call', found', point⟩ := sent
    · have opened := (h.owned id call r found owns).2
      rw [opened] at closed
      cases closed
    · have equal := h.same found found' owns (by rw [point]; rfl)
      rw [equal, point] at unsent
      cases unsent

theorem transfer (h : Ownership b) (queue : b'.queue = b.queue)
    (worker : ∀ key, b'.worker = .holding key ↔ b.worker = .holding key)
    (queued : b'.queued = b.queued) (reservations : b'.reservations = b.reservations)
    (closed : b'.closed = b.closed)
    (old : ∀ id call r, b'.calls.lookup id = some call → call.point.owns = some r →
      ∃ before, b.calls.lookup id = some before ∧ before.key = call.key ∧
        before.point.owns = some r ∧ before.point.unsent = call.point.unsent)
    (kept : ∀ id call r, b.calls.lookup id = some call → call.point.unsent = some r →
      ∃ after, b'.calls.lookup id = some after ∧ after.key = call.key ∧
        after.point.unsent = some r) : Ownership b' := by
  have outstanding : ∀ key, b'.outstanding key ↔ b.outstanding key := by
    intro key
    unfold WakeBoard.outstanding
    rw [queue, worker]
  refine ⟨by rw [queue]; exact h.distinct, ?_, ?_, ?_, ?_, ?_, ?_, ?_, ?_, ?_⟩
  · intro key holds
    rw [queue]
    exact h.held key ((worker key).mp holds)
  · intro key out
    rw [queued]
    exact h.reserved key ((outstanding key).mp out)
  · intro id call r found unsent
    obtain ⟨before, found, key, _, same⟩ := old id call r found (owns_of_unsent unsent)
    rw [queued, outstanding, ← key]
    exact h.unsent id before r found (same.trans unsent)
  · intro id id' call call' r found found' owns owns'
    obtain ⟨before, found, _, owns, _⟩ := old id call r found owns
    obtain ⟨before', found', _, owns', _⟩ := old id' call' r found' owns'
    exact h.owner id id' before before' r found found' owns owns'
  · intro id call r found owns
    obtain ⟨before, found, _, owns, _⟩ := old id call r found owns
    rw [reservations, closed]
    exact h.owned id before r found owns
  · intro key r reserved
    rw [queued] at reserved
    rw [reservations]
    exact h.numbered key r reserved
  · intro r err shut
    rw [closed] at shut
    rw [reservations]
    exact h.closing r err shut
  · intro key r reserved
    rw [queued] at reserved
    rw [outstanding]
    obtain out | ⟨id, call, found, rfl, unsent⟩ := h.entry key r reserved
    · exact .inl out
    · obtain ⟨after, found, same, unsent⟩ := kept id call r found unsent
      exact .inr ⟨id, after, found, same, unsent⟩
  · intro key r id call reserved found owns
    rw [queued] at reserved
    obtain ⟨before, found, same, owns, _⟩ := old id call r found owns
    rw [← same]
    exact h.keyed key r id before reserved found owns

theorem put_free {point : WakePoint} (h : Ownership b)
    (before : ∀ old, b.calls.lookup id = some old → old.point.owns = none)
    (owns : point.owns = none) : Ownership (b.put id call point) := by
  refine h.transfer rfl (fun _ => Iff.rfl) rfl rfl rfl ?_ ?_
  · intro other found r lookup owned
    obtain ⟨_, rfl⟩ | ⟨_, lookup⟩ := cases_put lookup
    · rw [owns] at owned
      cases owned
    · exact ⟨found, lookup, rfl, owned, rfl⟩
  · intro other found r lookup unsent
    refine ⟨found, ?_, rfl, unsent⟩
    rw [lookup_put, if_neg]
    · exact lookup
    · rintro rfl
      have none_ := before found lookup
      rw [owns_of_unsent unsent] at none_
      cases none_

theorem put_from {point : WakePoint} (h : Ownership b) (found : b.calls.lookup id = some call)
    (free : call.point.owns = none) (owns : point.owns = none) :
    Ownership (b.put id call point) := by
  refine h.put_free ?_ owns
  intro old same
  rw [found] at same
  cases same
  exact free

theorem reserve (h : Ownership b) (found : b.calls.lookup id = some call)
    (at_ : call.point = .looking) (free : b.queued.lookup call.key = none) :
    Ownership ({ b with
      queued := b.queued.insert call.key b.reservations
      reservations := b.reservations + 1 }.put id call (.sending b.reservations)) := by
  have absent : ¬ b.outstanding call.key := by
    intro out
    obtain ⟨r, reserved⟩ := h.reserved call.key out
    rw [free] at reserved
    cases reserved
  have entries : ∀ {key r}, (b.queued.insert call.key b.reservations).lookup key = some r →
      key = call.key ∧ r = b.reservations ∨ key ≠ call.key ∧ b.queued.lookup key = some r := by
    intro key r reserved
    obtain ⟨same, rfl⟩ | kept := Table.lookup_insert_eq_some.mp reserved
    · exact .inl ⟨same, rfl⟩
    · exact .inr kept
  refine ⟨h.distinct, h.held, ?_, ?_, ?_, ?_, ?_, ?_, ?_, ?_⟩
  · intro key out
    obtain ⟨r, reserved⟩ := h.reserved key out
    have differ : key ≠ call.key := by
      rintro rfl
      exact absent out
    exact ⟨r, (AList.lookup_insert_ne differ).trans reserved⟩
  · intro other found' r lookup unsent
    obtain ⟨_, rfl⟩ | ⟨_, lookup⟩ := cases_put lookup
    · cases unsent
      exact ⟨AList.lookup_insert _, absent⟩
    · obtain ⟨reserved, out⟩ := h.unsent other found' r lookup unsent
      refine ⟨(AList.lookup_insert_ne ?_).trans reserved, out⟩
      intro same
      rw [same, free] at reserved
      cases reserved
  · intro one two call₁ call₂ r lookup₁ lookup₂ owns₁ owns₂
    obtain ⟨rfl, rfl⟩ | ⟨_, old₁⟩ := cases_put lookup₁ <;>
      obtain ⟨rfl, rfl⟩ | ⟨_, old₂⟩ := cases_put lookup₂
    · rfl
    · cases owns₁
      exact absurd (h.owned two call₂ _ old₂ owns₂).1 (Nat.lt_irrefl _)
    · cases owns₂
      exact absurd (h.owned one call₁ _ old₁ owns₁).1 (Nat.lt_irrefl _)
    · exact h.owner one two call₁ call₂ r old₁ old₂ owns₁ owns₂
  · intro other found' r lookup owns
    obtain ⟨_, rfl⟩ | ⟨_, lookup⟩ := cases_put lookup
    · cases owns
      refine ⟨Nat.lt_succ_self _, ?_⟩
      cases shut : b.closed.lookup b.reservations with
      | none => exact shut
      | some err => exact absurd (h.closing _ err shut) (Nat.lt_irrefl _)
    · obtain ⟨bound, opened⟩ := h.owned other found' r lookup owns
      exact ⟨Nat.lt_succ_of_lt bound, opened⟩
  · intro key r reserved
    obtain ⟨_, rfl⟩ | ⟨_, reserved⟩ := entries reserved
    · exact Nat.lt_succ_self _
    · exact Nat.lt_succ_of_lt (h.numbered key r reserved)
  · intro r err shut
    exact Nat.lt_succ_of_lt (h.closing r err shut)
  · intro key r reserved
    obtain ⟨rfl, rfl⟩ | ⟨_, reserved⟩ := entries reserved
    · exact .inr ⟨id, { call with point := .sending b.reservations },
        by rw [lookup_put, if_pos rfl], rfl, rfl⟩
    · obtain out | ⟨other, found', lookup, key', unsent⟩ := h.entry key r reserved
      · exact .inl out
      · refine .inr ⟨other, found', ?_, key', unsent⟩
        rw [lookup_put, if_neg]
        · exact lookup
        · rintro rfl
          rw [found] at lookup
          cases lookup
          rw [at_] at unsent
          cases unsent
  · intro key r other found' reserved lookup owns
    obtain ⟨rfl, rfl⟩ | ⟨differ, reserved⟩ := entries reserved <;>
      obtain ⟨_, rfl⟩ | ⟨_, lookup⟩ := cases_put lookup
    · rfl
    · exact absurd (h.owned other found' _ lookup owns).1 (Nat.lt_irrefl _)
    · cases owns
      exact absurd (h.numbered key _ reserved) (Nat.lt_irrefl _)
    · exact h.keyed key r other found' reserved lookup owns

theorem send (h : Ownership b) (found : b.calls.lookup id = some call)
    (at_ : call.point = .sending r) :
    Ownership ({ b with queue := b.queue ++ [call.key] }.put id call (.finishing r none)) := by
  obtain ⟨reserved, absent⟩ := h.unsent id call r found (by rw [at_]; rfl)
  obtain ⟨missing, free⟩ := not_or.mp absent
  have ownsBefore : call.point.owns = some r := by rw [at_]; rfl
  have outstanding : ∀ {key},
      ({ b with queue := b.queue ++ [call.key] }.put id call (.finishing r none)).outstanding key ↔
        b.outstanding key ∨ key = call.key := by
    intro key
    unfold WakeBoard.outstanding WakeBoard.put
    simp only [List.mem_append, List.mem_singleton]
    tauto
  -- Everyone else who has sent nothing waits for another key.
  have others : ∀ {other found' r'}, b.calls.lookup other = some found' →
      found'.point.unsent = some r' → other ≠ id → found'.key ≠ call.key := by
    intro other found' r' lookup unsent differ same
    have reserved' := (h.unsent other found' r' lookup unsent).1
    rw [same, reserved] at reserved'
    cases reserved'
    exact differ (h.owner other id found' call r lookup found (owns_of_unsent unsent) ownsBefore)
  refine ⟨?_, ?_, ?_, ?_, ?_, ?_, h.numbered, h.closing, ?_, ?_⟩
  · exact List.nodup_append.mpr ⟨h.distinct, List.nodup_singleton _, by
      rintro key member _ last rfl
      rw [List.mem_singleton] at last
      exact missing (last ▸ member)⟩
  · intro key holds member
    obtain member | last := List.mem_append.mp member
    · exact h.held key holds member
    · rw [List.mem_singleton] at last
      exact free (last ▸ holds)
  · intro key out
    obtain out | rfl := outstanding.mp out
    · exact h.reserved key out
    · exact ⟨r, reserved⟩
  · intro other found' r' lookup unsent
    obtain ⟨_, rfl⟩ | ⟨differ, lookup⟩ := cases_put lookup
    · cases unsent
    · obtain ⟨reserved', absent'⟩ := h.unsent other found' r' lookup unsent
      refine ⟨reserved', fun out => ?_⟩
      obtain out | same := outstanding.mp out
      · exact absent' out
      · exact others lookup unsent differ same
  · intro one two call₁ call₂ r' lookup₁ lookup₂ owns₁ owns₂
    obtain ⟨rfl, rfl⟩ | ⟨_, old₁⟩ := cases_put lookup₁ <;>
      obtain ⟨rfl, rfl⟩ | ⟨_, old₂⟩ := cases_put lookup₂
    · rfl
    · cases owns₁
      exact h.owner _ two call call₂ _ found old₂ ownsBefore owns₂
    · cases owns₂
      exact h.owner one _ call₁ call _ old₁ found owns₁ ownsBefore
    · exact h.owner one two call₁ call₂ r' old₁ old₂ owns₁ owns₂
  · intro other found' r' lookup owns
    obtain ⟨rfl, rfl⟩ | ⟨_, lookup⟩ := cases_put lookup
    · cases owns
      exact h.owned _ call r found ownsBefore
    · exact h.owned other found' r' lookup owns
  · intro key r' reserved'
    obtain out | ⟨other, found', lookup, key', unsent⟩ := h.entry key r' reserved'
    · exact .inl (outstanding.mpr (.inl out))
    · by_cases same : other = id
      · subst same
        rw [found] at lookup
        cases lookup
        exact .inl (outstanding.mpr (.inr key'.symm))
      · exact .inr ⟨other, found', by rw [lookup_put, if_neg same]; exact lookup, key', unsent⟩
  · intro key r' other found' reserved' lookup owns
    obtain ⟨rfl, rfl⟩ | ⟨_, lookup⟩ := cases_put lookup
    · cases owns
      exact h.keyed key r _ call reserved' found ownsBefore
    · exact h.keyed key r' other found' reserved' lookup owns

theorem giveUpSending (h : Ownership b) {err : WakeError} (found : b.calls.lookup id = some call)
    (at_ : call.point = .sending r) :
    Ownership (b.put id call (.finishing r (some err))) := by
  refine h.transfer rfl (fun _ => Iff.rfl) rfl rfl rfl ?_ ?_
  · intro other found' r' lookup owns
    obtain ⟨rfl, rfl⟩ | ⟨_, lookup⟩ := cases_put lookup
    · exact ⟨call, found, rfl, by rw [at_]; exact owns, by rw [at_]; rfl⟩
    · exact ⟨found', lookup, rfl, owns, rfl⟩
  · intro other found' r' lookup unsent
    by_cases same : other = id
    · subst same
      rw [found] at lookup
      cases lookup
      rw [at_] at unsent
      exact ⟨{ call with point := .finishing r (some err) }, by rw [lookup_put, if_pos rfl], rfl,
        unsent⟩
    · exact ⟨found', by rw [lookup_put, if_neg same]; exact lookup, rfl, unsent⟩

theorem finish (h : Ownership b) {err : Option WakeError} (found : b.calls.lookup id = some call)
    (at_ : call.point = .finishing r err) :
    Ownership (b.finish id call r err) := by
  have owns : call.point.owns = some r := by rw [at_]; rfl
  have unsentOf : err.isSome → call.point.unsent = some r := by
    intro failed
    obtain ⟨e, rfl⟩ := Option.isSome_iff_exists.mp failed
    rw [at_]
    rfl
  have calls : ∀ {other found'}, (b.finish id call r err).calls.lookup other = some found' →
      found'.point.owns ≠ none → other ≠ id ∧ b.calls.lookup other = some found' := by
    intro other found' lookup owned
    obtain ⟨_, rfl⟩ | old := cases_put lookup
    · exact absurd rfl owned
    · exact old
  -- The entry of the call's key goes if nothing was sent for it, and every other one stays.
  have queued : ∀ {key r'}, (b.finish id call r err).queued.lookup key = some r' ↔
      b.queued.lookup key = some r' ∧ ¬ (key = call.key ∧ err.isSome) := by
    intro key r'
    simp only [WakeBoard.finish, WakeBoard.put]
    by_cases erased : b.queued.lookup call.key = some r ∧ err.isSome
    · rw [if_pos erased, Table.lookup_erase_eq_some]
      simp [erased.2, and_comm]
    · rw [if_neg erased]
      refine ⟨fun reserved => ⟨reserved, ?_⟩, fun both => both.1⟩
      rintro ⟨_, failed⟩
      exact erased ⟨(h.unsent id call r found (unsentOf failed)).1, failed⟩
  refine ⟨h.distinct, h.held, ?_, ?_, ?_, ?_, ?_, ?_, ?_, ?_⟩
  · intro key out
    obtain ⟨r', reserved⟩ := h.reserved key out
    refine ⟨r', queued.mpr ⟨reserved, ?_⟩⟩
    rintro ⟨rfl, failed⟩
    exact (h.unsent id call r found (unsentOf failed)).2 out
  · intro other found' r' lookup unsent
    have owns' := owns_of_unsent unsent
    obtain ⟨differ, lookup⟩ := calls lookup (by rw [owns']; nofun)
    obtain ⟨reserved', absent⟩ := h.unsent other found' r' lookup unsent
    refine ⟨queued.mpr ⟨reserved', ?_⟩, absent⟩
    rintro ⟨same, failed⟩
    have reserved := (h.unsent id call r found (unsentOf failed)).1
    rw [same, reserved] at reserved'
    cases reserved'
    exact differ (h.owner other id found' call r lookup found owns' owns)
  · intro one two call₁ call₂ r' lookup₁ lookup₂ owns₁ owns₂
    obtain ⟨_, lookup₁⟩ := calls lookup₁ (by rw [owns₁]; nofun)
    obtain ⟨_, lookup₂⟩ := calls lookup₂ (by rw [owns₂]; nofun)
    exact h.owner one two call₁ call₂ r' lookup₁ lookup₂ owns₁ owns₂
  · intro other found' r' lookup owns'
    obtain ⟨differ, old⟩ := calls lookup (by rw [owns']; nofun)
    obtain ⟨bound, opened⟩ := h.owned other found' r' old owns'
    refine ⟨bound, (AList.lookup_insert_ne ?_).trans opened⟩
    rintro rfl
    exact differ (h.owner other id found' call r' old found owns' owns)
  · intro key r' reserved
    exact h.numbered key r' (queued.mp reserved).1
  · intro r' err' shut
    by_cases same : r' = r
    · rw [same]
      exact (h.owned id call r found owns).1
    · exact h.closing r' err' ((AList.lookup_insert_ne same).symm.trans shut)
  · intro key r' reserved
    obtain ⟨reserved, stays⟩ := queued.mp reserved
    obtain out | ⟨other, found', lookup, key', unsent⟩ := h.entry key r' reserved
    · exact .inl out
    · refine .inr ⟨other, found', ?_, key', unsent⟩
      unfold WakeBoard.finish
      rw [lookup_put, if_neg]
      · exact lookup
      · rintro rfl
        rw [found] at lookup
        cases lookup
        rw [at_] at unsent
        cases err with
        | none => cases unsent
        | some e => exact stays ⟨key'.symm, rfl⟩
  · intro key r' other found' reserved lookup owns'
    obtain ⟨_, lookup⟩ := calls lookup (by rw [owns']; nofun)
    exact h.keyed key r' other found' (queued.mp reserved).1 lookup owns'

theorem receive (h : Ownership b) {rest : List ReconcileKey} (idle : b.worker = .idle)
    (front : b.queue = key :: rest) :
    Ownership ({ b with queue := rest, worker := .holding key }.record (.received key)) := by
  have distinct := h.distinct
  rw [front, List.nodup_cons] at distinct
  have outstanding : ∀ {k},
      ({ b with queue := rest, worker := .holding key }.record (.received key)).outstanding k ↔
        b.outstanding k := by
    intro k
    simp only [WakeBoard.outstanding, WakeBoard.record, WakeWorker.holding.injEq, idle, front,
      List.mem_cons, reduceCtorEq, or_false]
    rw [or_comm, eq_comm]
  refine ⟨distinct.2, ?_, ?_, ?_, h.owner, h.owned, h.numbered, h.closing, ?_, h.keyed⟩
  · rintro k ⟨⟩
    exact distinct.1
  · intro k out
    exact h.reserved k (outstanding.mp out)
  · intro other found r lookup unsent
    obtain ⟨reserved, absent⟩ := h.unsent other found r lookup unsent
    exact ⟨reserved, fun out => absent (outstanding.mp out)⟩
  · intro k r reserved
    exact (h.entry k r reserved).imp outstanding.mpr fun unsent => unsent

theorem markDequeued (h : Ownership b) (holds : b.worker = .holding key) :
    Ownership ({ b with
      queued := b.queued.erase key
      worker := .idle
      ready := b.ready ++ [key] }.record (.marked key)) := by
  have outstanding : ∀ {k},
      ({ b with
        queued := b.queued.erase key
        worker := .idle
        ready := b.ready ++ [key] }.record (.marked key)).outstanding k ↔
        b.outstanding k ∧ k ≠ key := by
    intro k
    simp only [WakeBoard.outstanding, WakeBoard.record, reduceCtorEq, or_false, holds,
      WakeWorker.holding.injEq]
    constructor
    · intro member
      refine ⟨.inl member, ?_⟩
      rintro rfl
      exact h.held k holds member
    · rintro ⟨member | rfl, differ⟩
      · exact member
      · exact absurd rfl differ
  have entries : ∀ {k r}, (b.queued.erase key).lookup k = some r →
      k ≠ key ∧ b.queued.lookup k = some r := Table.lookup_erase_eq_some.mp
  refine ⟨h.distinct, nofun, ?_, ?_, h.owner, h.owned, ?_, h.closing, ?_, ?_⟩
  · intro k out
    obtain ⟨out, differ⟩ := outstanding.mp out
    obtain ⟨r, reserved⟩ := h.reserved k out
    exact ⟨r, (AList.lookup_erase_ne differ).trans reserved⟩
  · intro other found r lookup unsent
    obtain ⟨reserved, absent⟩ := h.unsent other found r lookup unsent
    refine ⟨(AList.lookup_erase_ne ?_).trans reserved, fun out => absent (outstanding.mp out).1⟩
    rintro rfl
    exact absent (.inr holds)
  · intro k r reserved
    exact h.numbered k r (entries reserved).2
  · intro k r reserved
    obtain ⟨differ, reserved⟩ := entries reserved
    exact (h.entry k r reserved).imp (fun out => outstanding.mpr ⟨out, differ⟩)
      fun unsent => unsent
  · intro k r other found reserved lookup owns
    exact h.keyed k r other found (entries reserved).2 lookup owns

theorem aside (h : Ownership b) (queue : b'.queue = b.queue)
    (worker : ∀ key, b'.worker = .holding key ↔ b.worker = .holding key)
    (queued : b'.queued = b.queued) (reservations : b'.reservations = b.reservations)
    (closed : b'.closed = b.closed) (calls : b'.calls = b.calls) : Ownership b' := by
  refine h.transfer queue worker queued reservations closed ?_ ?_
  · intro id call r found owns
    rw [calls] at found
    exact ⟨call, found, rfl, owns, rfl⟩
  · intro id call r found unsent
    rw [calls]
    exact ⟨call, found, rfl, unsent⟩

theorem step (h : Ownership b) (move : WakeStep b b') : Ownership b' := by
  cases move with
  | commit | schedule | dispatch | closeDone => exact h.aside rfl (fun _ => Iff.rfl) rfl rfl rfl rfl
  | @begin id key fresh =>
    have recorded : Ownership (b.record (.began id)) :=
      h.aside rfl (fun _ => Iff.rfl) rfl rfl rfl rfl
    refine recorded.put_free ?_ ?_
    · intro old found
      exact absurd (found.symm.trans fresh) nofun
    · split
      · rfl
      · split <;> rfl
  | wait found at_ reserved | joined found at_ closed | again found at_ closed
  | giveUpWaiting found at_ => exact h.put_from found (by rw [at_]; rfl) rfl
  | reserve found at_ free => exact h.reserve found at_ free
  | send found at_ room => exact h.send found at_
  | giveUpSending found at_ => exact h.giveUpSending found at_
  | finish found at_ => exact h.finish found at_
  | receive idle front => exact h.receive idle front
  | markDequeued holds => exact h.markDequeued holds
  | stop idle => exact h.aside rfl (fun key => by simp [idle]) rfl rfl rfl rfl

end Ownership

section Serving

variable {b b' : WakeBoard} {id : Nat} {call old : WakeCall}

private theorem newer_cons {mark e x : WakeEvent} {trace : List WakeEvent} (other : e ≠ mark)
    (member : x ∈ newerThan mark trace) : x ∈ newerThan mark (e :: trace) := by
  rw [newerThan_cons other]
  exact List.mem_cons_of_mem _ member

private theorem newer_head {mark e : WakeEvent} {trace : List WakeEvent} (other : e ≠ mark) :
    e ∈ newerThan mark (e :: trace) := by
  rw [newerThan_cons other]
  exact List.mem_cons_self

private theorem served_record {e : WakeEvent} (other : e ≠ .began id)
    (unmarked : e ≠ .marked call.key)
    (out : b.outstanding call.key → b'.outstanding call.key)
    (ready : call.key ∈ b.ready → call.key ∈ b'.ready) (trace : b'.trace = e :: b.trace)
    (h : b.served id call) : b'.served id call := by
  obtain outstanding | ⟨marked, waits | ⟨v, newer, read⟩⟩ := h
  · exact .inl (out outstanding)
  · exact .inr ⟨by rw [trace]; exact newer_cons other marked, .inl (ready waits)⟩
  · exact .inr ⟨by rw [trace]; exact newer_cons other marked,
      .inr ⟨v, newer, by rw [trace]; exact newer_cons unmarked read⟩⟩

theorem served_step (move : WakeStep b b') (known : b.calls.lookup id = some old)
    (version : call.version ≤ b.version) (h : b.served id call) : b'.served id call := by
  cases move with
  | commit | wait | reserve | joined | again | giveUpWaiting
  | giveUpSending | finish | closeDone => exact h
  | @begin other key fresh =>
    refine served_record (b := b) (e := .began other) ?_ nofun (fun out => out)
      (fun ready => ready) rfl h
    rintro ⟨⟩
    exact absurd (known.symm.trans fresh) nofun
  | send found at_ room =>
    obtain (member | holds) | kept := h
    · exact .inl (.inl (List.mem_append_left _ member))
    · exact .inl (.inr holds)
    · exact .inr kept
  | @receive key rest idle front =>
    refine served_record (b := b) (e := .received key) nofun nofun ?_ (fun ready => ready) rfl h
    rintro (member | holds)
    · rw [front, List.mem_cons] at member
      obtain rfl | member := member
      · exact .inr rfl
      · exact .inl member
    · rw [idle] at holds
      cases holds
  | @markDequeued key holds =>
    by_cases mine : key = call.key
    -- A read before this mark no longer counts, but the mark makes the key ready.
    · subst mine
      refine .inr ⟨?_, .inl (List.mem_append_right _ (List.mem_singleton.mpr rfl))⟩
      exact newer_head nofun
    · refine served_record (b := b) (e := .marked key) nofun ?_ ?_
        (fun ready => List.mem_append_left _ ready) rfl h
      · rintro ⟨⟩
        exact mine rfl
      rintro (member | holds')
      · exact .inl member
      · rw [holds] at holds'
        cases holds'
        exact absurd rfl mine
  | schedule =>
    obtain out | ⟨marked, waits | read⟩ := h
    · exact .inl out
    · exact .inr ⟨marked, .inl (List.mem_append_left _ waits)⟩
    · exact .inr ⟨marked, .inr read⟩
  | @dispatch key rest front =>
    obtain out | ⟨marked, waits | ⟨v, newer, read⟩⟩ := h
    · exact .inl out
    · have marked' : .marked call.key ∈ newerThan (.began id) (.planRead key b.version :: b.trace) :=
        newer_cons (by nofun) marked
      rw [front, List.mem_cons] at waits
      obtain rfl | waits := waits
      · exact .inr ⟨marked', .inr ⟨b.version, version, newer_head nofun⟩⟩
      · exact .inr ⟨marked', .inl waits⟩
    · exact .inr ⟨newer_cons (by nofun) marked, .inr ⟨v, newer, newer_cons (by nofun) read⟩⟩
  | stop idle =>
    obtain (member | holds) | kept := h
    · exact .inl (.inl member)
    · rw [idle] at holds
      cases holds
    · exact .inr kept

theorem Covered.keep (h : Covered b id call) (serves : b.served id call → b'.served id call)
    (reservations : b.reservations ≤ b'.reservations)
    (owners : ∀ r id' call', call.point = .waiting r → b'.calls.lookup id' = some call' →
      call'.point.owns = some r → ∃ before, b.calls.lookup id' = some before ∧
        before.point.owns = some r ∧ before.key = call'.key)
    (sends : ∀ r, call.point = .waiting r → b'.sent r → b.sent r ∨ b'.served id call) :
    Covered b' id call := by
  unfold Covered at h ⊢
  split at h
  · rename_i r at_
    obtain ⟨bound, agreed, joined⟩ := h
    refine ⟨Nat.lt_of_lt_of_le bound reservations, ?_, ?_⟩
    · intro id' call' found owns
      obtain ⟨before, found, owns, key⟩ := owners r id' call' at_ found owns
      rw [← key]
      exact agreed id' before found owns
    · intro sent
      obtain sent | served := sends r at_ sent
      · exact serves (joined sent)
      · exact served
  · exact serves h
  · exact serves h
  · trivial

end Serving

namespace Coverage

variable {b b' : WakeBoard} {id : Nat} {call : WakeCall} {point : WakePoint}

/-- A move keeps the coverage if every call it changes is covered where it gets to, and it makes
no reservation owned or sent that a waiting call does not know of. -/
theorem next (h : Coverage b) (move : WakeStep b b') (trace : ∀ e ∈ b.trace, e ∈ b'.trace)
    (version : b.version ≤ b'.version) (reservations : b.reservations ≤ b'.reservations)
    (calls : ∀ id found, b'.calls.lookup id = some found → b.calls.lookup id = some found ∨
      .began id ∈ b'.trace ∧ found.version ≤ b'.version ∧ Covered b' id found)
    (owners : ∀ r id' call', r < b.reservations → b'.calls.lookup id' = some call' →
      call'.point.owns = some r → ∃ before, b.calls.lookup id' = some before ∧
        before.point.owns = some r ∧ before.key = call'.key)
    (sends : ∀ id call r, b.calls.lookup id = some call → call.point = .waiting r → b'.sent r →
      b.sent r ∨ b'.served id call) : Coverage b' := by
  refine ⟨?_, ?_, ?_⟩
  · intro id call found
    obtain found | ⟨began, _⟩ := calls id call found
    · exact trace _ (h.began id call found)
    · exact began
  · intro id call found
    obtain found | ⟨_, bound, _⟩ := calls id call found
    · exact (h.version id call found).trans version
    · exact bound
  · intro id call found
    obtain found | ⟨_, _, covered⟩ := calls id call found
    · refine (h.covered id call found).keep
        (served_step move found (h.version id call found)) reservations ?_ ?_
      · intro r id' call' at_ found' owns
        have covered := h.covered id call found
        unfold Covered at covered
        rw [at_] at covered
        exact owners r id' call' covered.1 found' owns
      · intro r at_ sent
        exact sends id call r found at_ sent
    · exact covered

theorem put {c : WakeBoard} (h : Coverage b) (move : WakeStep b (c.put id call point))
    (found : b.calls.lookup id = some call) (calls : c.calls = b.calls) (trace : c.trace = b.trace)
    (version : c.version = b.version) (reservations : b.reservations ≤ c.reservations)
    (closed : ∀ r, c.closed.lookup r = some none → b.sent r)
    (covered : Covered (c.put id call point) id { call with point := point })
    (owned : ∀ r, r < b.reservations → point.owns = some r → call.point.owns = some r)
    (sends : ∀ r other waiting, point = .finishing r none → b.calls.lookup other = some waiting →
      waiting.point = .waiting r → (c.put id call point).served other waiting) :
    Coverage (c.put id call point) := by
  have cases_calls {other : Nat} {found' : WakeCall}
      (lookup : (c.put id call point).calls.lookup other = some found') :
      other = id ∧ found' = { call with point := point } ∨ b.calls.lookup other = some found' := by
    obtain own | ⟨_, lookup⟩ := cases_put lookup
    · exact .inl own
    · exact .inr (calls ▸ lookup)
  refine h.next move (fun e member => trace.symm ▸ member) version.ge reservations ?_ ?_ ?_
  · intro other found' lookup
    obtain ⟨rfl, rfl⟩ | lookup := cases_calls lookup
    · exact .inr ⟨trace.symm ▸ h.began _ call found, (h.version _ call found).trans version.ge,
        covered⟩
    · exact .inl lookup
  · intro r other call' bound lookup owns
    obtain ⟨rfl, rfl⟩ | lookup := cases_calls lookup
    · exact ⟨call, found, owned r bound owns, rfl⟩
    · exact ⟨call', lookup, owns, rfl⟩
  · rintro other waiting r lookup waits (shut | ⟨owner, owning, lookup', at_⟩)
    · exact .inl (closed r shut)
    · obtain ⟨_, rfl⟩ | lookup' := cases_calls lookup'
      · exact .inr (sends r other waiting at_ lookup waits)
      · exact .inl (.inr ⟨owner, owning, lookup', at_⟩)

theorem put_free (h : Coverage b) (move : WakeStep b (b.put id call point))
    (found : b.calls.lookup id = some call) (owns : point.owns = none)
    (covered : Covered (b.put id call point) id { call with point := point }) :
    Coverage (b.put id call point) := by
  refine h.put move found rfl rfl rfl le_rfl (fun _ => .inl) covered ?_ ?_
  · intro r _ owned
    rw [owns] at owned
    cases owned
  · rintro r _ _ rfl
    cases owns

theorem aside (h : Coverage b) (move : WakeStep b b') (trace : ∀ e ∈ b.trace, e ∈ b'.trace)
    (version : b.version ≤ b'.version) (reservations : b'.reservations = b.reservations)
    (closed : b'.closed = b.closed) (calls : b'.calls = b.calls) : Coverage b' := by
  refine h.next move trace version (le_of_eq reservations.symm) ?_ ?_ ?_
  · intro id found lookup
    rw [calls] at lookup
    exact .inl lookup
  · intro r id' call' _ lookup owns
    rw [calls] at lookup
    exact ⟨call', lookup, owns, rfl⟩
  · intro id call r _ _ sent
    unfold WakeBoard.sent at sent ⊢
    rw [closed, calls] at sent
    exact .inl sent

theorem step (own : Ownership b) (h : Coverage b) (move : WakeStep b b') : Coverage b' := by
  have moved := move
  cases move with
  | commit => exact h.aside moved (fun _ member => member) (Nat.le_succ _) rfl rfl rfl
  | @begin id key fresh =>
    refine h.next moved (fun _ member => List.mem_cons_of_mem _ member) le_rfl le_rfl ?_ ?_ ?_
    · intro other found lookup
      obtain ⟨rfl, rfl⟩ | ⟨_, lookup⟩ := cases_put lookup
      · refine .inr ⟨List.mem_cons_self, le_rfl, ?_⟩
        unfold Covered
        by_cases valid : validKey key <;> by_cases stopped : b.stopped <;> simp [valid, stopped]
      · exact .inl lookup
    · intro r other call _ lookup owns
      obtain ⟨_, rfl⟩ | ⟨_, lookup⟩ := cases_put lookup
      · simp only at owns
        split at owns
        · cases owns
        · split at owns <;> cases owns
      · exact ⟨call, lookup, owns, rfl⟩
    · rintro other call r _ _ (closed | ⟨owner, owning, lookup, at_⟩)
      · exact .inl (.inl closed)
      · obtain ⟨_, rfl⟩ | ⟨_, lookup⟩ := cases_put lookup
        · simp only at at_
          split at at_
          · cases at_
          · split at at_ <;> cases at_
        · exact .inl (.inr ⟨owner, owning, lookup, at_⟩)
  | @wait id call r found at_ reserved =>
    refine h.put_free moved found rfl ⟨own.numbered _ r reserved, ?_, ?_⟩
    · intro other call' lookup owns
      obtain ⟨_, rfl⟩ | ⟨_, lookup⟩ := cases_put lookup
      · cases owns
      · exact own.keyed call.key r other call' reserved lookup owns
    · intro sent
      refine .inl (own.outstanding_of_sent reserved ?_)
      obtain closed | ⟨owner, owning, lookup, at'⟩ := sent
      · exact .inl closed
      · obtain ⟨_, rfl⟩ | ⟨_, lookup⟩ := cases_put lookup
        · cases at'
        · exact .inr ⟨owner, owning, lookup, at'⟩
  | reserve found at_ free =>
    refine h.put moved found rfl rfl rfl (Nat.le_succ _) (fun _ => .inl) trivial ?_ nofun
    rintro r bound ⟨⟩
    exact absurd bound (Nat.lt_irrefl _)
  | @joined id call r found at_ closed =>
    have covered := h.covered id call found
    unfold Covered at covered
    rw [at_] at covered
    exact h.put_free moved found rfl (covered.2.2 (.inl closed))
  | again found at_ closed | giveUpWaiting found at_ => exact h.put_free moved found rfl trivial
  | @send id call r found at_ room =>
    have owns : call.point.owns = some r := by rw [at_]; rfl
    have queued : call.key ∈ b.queue ++ [call.key] :=
      List.mem_append_right _ (List.mem_singleton.mpr rfl)
    refine h.put moved found rfl rfl rfl le_rfl (fun _ => .inl) (.inl (.inl queued)) ?_ ?_
    · rintro r' _ ⟨⟩
      exact owns
    · rintro r' other waiting ⟨⟩ lookup waits
      have covered := h.covered other waiting lookup
      unfold Covered at covered
      rw [waits] at covered
      exact .inl (.inl (covered.2.1 _ call found owns ▸ queued))
  | giveUpSending found at_ =>
    refine h.put moved found rfl rfl rfl le_rfl (fun _ => .inl) trivial ?_ nofun
    intro r' _ owned
    rw [at_]
    exact owned
  | @finish id call r err found at_ =>
    refine h.put moved found rfl rfl rfl le_rfl ?_ ?_ nofun nofun
    · intro r' shut
      obtain ⟨rfl, rfl⟩ | ⟨_, shut⟩ := Table.lookup_insert_eq_some.mp shut
      · exact .inr ⟨id, call, found, at_⟩
      · exact .inl shut
    · have covered := h.covered _ call found
      unfold Covered at covered ⊢
      rw [at_] at covered
      cases err with
      | none => exact covered
      | some e => trivial
  | receive | markDequeued | dispatch =>
    exact h.aside moved (fun _ member => List.mem_cons_of_mem _ member) le_rfl rfl rfl rfl
  | schedule | stop | closeDone => exact h.aside moved (fun _ member => member) le_rfl rfl rfl rfl

end Coverage

def WakeBoard.initial (capacity version : Nat) : WakeBoard :=
  { capacity := capacity, version := version }

section Initial

variable {capacity version : Nat}

theorem ownership_initial : Ownership (.initial capacity version) := by
  constructor <;> simp [WakeBoard.initial, WakeBoard.outstanding]

theorem coverage_initial : Coverage (.initial capacity version) := by
  constructor <;> simp [WakeBoard.initial]

theorem coverage_of_run {moves : List WakeMove} {b : WakeBoard}
    (h : runSteps WakeBoard.step (.initial capacity version) moves = some b) :
    Ownership b ∧ Coverage b := by
  refine runSteps_preserves (fun s => Ownership s ∧ Coverage s) (fun s move s' before taken => ?_)
    ⟨ownership_initial, coverage_initial⟩ h
  have step := step_cases taken
  exact ⟨before.1.step step, before.2.step before.1 step⟩

end Initial

/-- In every interleaving the channel holds no key twice, and a call that returned nil either
finds its key in the channel or in the worker's hand, or the worker marked the key dequeued after
the call began; the plan read that follows the newest mark is of a state not older than the
call. -/
theorem wake_coalesces (capacity version : Nat) (moves : List WakeMove) (b : WakeBoard)
    (run : runSteps WakeBoard.step (.initial capacity version) moves = some b) :
    b.queue.Nodup ∧
    ∀ id call, b.calls.lookup id = some call → call.point = .returned none →
      .began id ∈ b.trace ∧
      (call.key ∈ b.queue ∨ b.worker = .holding call.key ∨
        .marked call.key ∈ newerThan (.began id) b.trace ∧
          (call.key ∈ b.ready ∨
            ∃ v, call.version ≤ v ∧
              .planRead call.key v ∈ newerThan (.marked call.key) b.trace)) := by
  obtain ⟨own, coverage⟩ := coverage_of_run run
  refine ⟨own.distinct, fun id call found returned => ⟨coverage.began id call found, ?_⟩⟩
  have covered := coverage.covered id call found
  unfold Covered at covered
  rw [returned] at covered
  exact or_assoc.mp covered

namespace Sample

/-- A call sends the policy key and returns; the worker receives it; a second call begins before
the worker marks the key dequeued. -/
def lateWake : List WakeMove :=
  [.begin 0 .policy, .look 0, .send 0, .finish 0, .receive, .commit, .begin 1 .policy, .look 1,
    .join 1]

theorem lateWake_runs : (runSteps WakeBoard.step (.initial 1 0) lateWake).isSome = true := by
  decide +kernel

def afterLateWake : WakeBoard := (runSteps WakeBoard.step (.initial 1 0) lateWake).get lateWake_runs

theorem run_lateWake : runSteps WakeBoard.step (.initial 1 0) lateWake = some afterLateWake :=
  (Option.some_get lateWake_runs).symm

end Sample

open Sample in
theorem wake_coalesces_late :
    runSteps WakeBoard.step (.initial 1 0) lateWake = some afterLateWake ∧
      afterLateWake.queue.Nodup :=
  ⟨run_lateWake, (wake_coalesces 1 0 lateWake afterLateWake run_lateWake).1⟩

open Sample in
/-- The second call returns nil with its key no longer in the channel, and the worker received
the key only before that call began. -/
theorem late_wake_missed :
    runSteps WakeBoard.step (.initial 1 0) lateWake = some afterLateWake ∧
    (afterLateWake.calls.lookup 1).map WakeCall.point = some (.returned none) ∧
    ReconcileKey.policy ∉ afterLateWake.queue ∧
    .received .policy ∉ newerThan (.began 1) afterLateWake.trace := by
  refine ⟨run_lateWake, ?_⟩
  decide +kernel

end GuardWall.Reconcile
