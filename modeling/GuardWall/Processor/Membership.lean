import GuardWall.Processor.Detector

/-! The memberships of the Ledger are the contributions of the attempts whose transaction was
committed, whenever no reservation is outstanding. -/
namespace GuardWall.Processor

open GuardWall.Core GuardWall.Foundation GuardWall.Detection

structure Extends (b b' : ProcBoard) (id : Nat) (deliveryID : String) : Prop where
  trace : b.trace <:+ b'.trace
  attempts : b'.attempts = b.attempts
  calls : ∀ id', id' ≠ id → b'.calls.lookup id' = b.calls.lookup id'
  deferred : ∀ d, d ≠ deliveryID → b'.deferred.lookup d = b.deferred.lookup d

namespace Extends

variable {hash : DeliveryHash} {b b' b'' : ProcBoard} {id : Nat} {deliveryID : String}

theorem of_aside (h : Aside b b' deliveryID) : Extends b b' id deliveryID := by
  obtain ⟨events, trace, _⟩ := h.trace
  exact ⟨⟨events, trace.symm⟩, h.attempts, fun _ _ => by rw [h.calls], h.deferred⟩

theorem trans (first : Extends b b' id deliveryID) (second : Extends b' b'' id deliveryID) :
    Extends b b'' id deliveryID :=
  ⟨first.trace.trans second.trace, second.attempts.trans first.attempts,
    fun id' other => (second.calls id' other).trans (first.calls id' other),
    fun d other => (second.deferred d other).trans (first.deferred d other)⟩

variable (call : ProcCall)

theorem put (h : Extends b b' id deliveryID) (point : ProcPoint) :
    Extends b (b'.put id call point) id deliveryID := by
  refine h.trans ⟨List.suffix_refl _, rfl, fun id' other => ?_, fun _ _ => rfl⟩
  exact Table.lookup_insert.trans (if_neg other)

theorem passes {known : Prop} (passed : Passes hash b b' id call known) :
    Extends b b' id call.delivery.id := by
  obtain ⟨base, point, aside, rfl, _⟩ := passed
  exact (of_aside aside).put call point

theorem settle (row : ReceiptRow) (durable : Bool) :
    Extends b (b.settle id call.delivery.id row durable) id call.delivery.id := by
  unfold ProcBoard.settle
  split
  · exact ⟨List.suffix_cons _ _, rfl, fun _ _ => rfl, fun _ _ => rfl⟩
  · exact ⟨List.suffix_refl _, rfl, fun _ _ => rfl, fun _ _ => rfl⟩

theorem act {m : ProcMove} (unprepared : ∀ terminal, m ≠ .prepare m.id (some terminal))
    (acted : b.act hash id call m call.point = some b') : Extends b b' id call.delivery.id := by
  obtain passed | ⟨_, terminal, same, _⟩ | ⟨channel, a, now, row, _, _, _, _, rfl⟩ | rfl |
    ⟨channel, a, receipt, row, report, durable, _, _, _, _, rfl⟩ := act_cases acted
  · exact passes call passed
  · exact absurd same (unprepared terminal)
  · refine put call ?_ _
    exact ⟨List.suffix_refl _, rfl, fun _ _ => rfl, fun _ _ => rfl⟩
  · exact ⟨List.suffix_refl _, rfl, fun _ _ => rfl, fun _ _ => rfl⟩
  · exact (settle call row durable).trans (passes call (Passes.conclude fun (no : False) => no.elim))

theorem step {m : ProcMove} (unprepared : ∀ terminal, m ≠ .prepare m.id (some terminal))
    (stepped : b.step hash m = some b') : ∃ deliveryID, Extends b b' m.id deliveryID ∧
      ∀ call, b.calls.lookup m.id = some call → deliveryID = call.delivery.id := by
  unfold ProcBoard.step at stepped
  split at stepped
  · rename_i id coordinator delivery absent
    cases stepped
    refine ⟨delivery.id, ⟨List.suffix_refl _, rfl, fun id' other => ?_, fun _ _ => rfl⟩,
      fun call found => ?_⟩
    · exact Table.lookup_insert.trans (if_neg other)
    · rw [absent] at found
      cases found
  · rename_i call found
    exact ⟨call.delivery.id, act _ unprepared stepped, fun call' found' => by
      rw [found] at found'
      cases found'
      rfl⟩
  · cases stepped

end Extends

theorem newEvents_append {b b' : ProcBoard} (extends_ : b.trace <:+ b'.trace) :
    newEvents b b' ++ b.trace = b'.trace := by
  obtain ⟨events, same⟩ := extends_
  unfold newEvents
  rw [← same]
  simp

structure Proposal.Backed (p : Proposal) (r : Reservation) : Prop where
  covered : ∀ c ∈ p.active, c.window ∈ r.locked ∨ c.window ∈ p.todo
  unstaged : p.previews = none → r.candidates = []
  staged : ∀ previews, p.previews = some previews →
    (∀ q ∈ previews, q.willContribute = true) → r.candidates = p.active

/-- How the attempts and the proposals account for what is in the Ledger, after a history of
resolutions. -/
structure Accounts (attempts : Table Nat (Nat × List Candidate)) (proposals : Table Nat Proposal)
    (trace : List ProcEvent) (l : Ledger) : Prop where
  sound : l.Sound
  standing : ∀ n number cs, attempts.lookup n = some (number, cs) → verdict n trace = none →
    ∃ r, l.reservations.lookup number = some r ∧ r.candidates = cs
  closed : ∀ n number cs, attempts.lookup n = some (number, cs) → verdict n trace ≠ none →
    l.reservations.lookup number = none
  owned : ∀ number r, l.reservations.lookup number = some r →
    (∃ n cs, attempts.lookup n = some (number, cs)) ∨
      ∃ id p, proposals.lookup id = some p ∧ p.reservation = number
  proposed : ∀ id p, proposals.lookup id = some p →
    ∃ r, l.reservations.lookup p.reservation = some r ∧ p.Backed r
  single : ∀ n n' number cs cs', attempts.lookup n = some (number, cs) →
    attempts.lookup n' = some (number, cs') → n = n'
  separate : ∀ id id' p p', proposals.lookup id = some p → proposals.lookup id' = some p' →
    p.reservation = p'.reservation → id = id'
  apart : ∀ n number cs id p, attempts.lookup n = some (number, cs) →
    proposals.lookup id = some p → p.reservation ≠ number
  made : ∀ n number cs, attempts.lookup n = some (number, cs) → number < l.made
  members : ∀ key m, l.memberships.lookup key = some m ↔ ∃ n number cs c,
    attempts.lookup n = some (number, cs) ∧ verdict n trace = some true ∧ c ∈ cs ∧ c.key = key ∧
      c.record = m
  distinct : ∀ n number cs, attempts.lookup n = some (number, cs) →
    (cs.map Candidate.key).Nodup
  disjoint : ∀ n n' number number' cs cs' c c', attempts.lookup n = some (number, cs) →
    attempts.lookup n' = some (number', cs') → verdict n trace = some true →
    verdict n' trace = some true → c ∈ cs → c' ∈ cs' → c.key = c'.key → n = n'

section Resolutions

variable {attempts : Table Nat (Nat × List Candidate)} {proposals : Table Nat Proposal}
  {trace : List ProcEvent} {l : Ledger}

theorem Accounts.same_verdicts (h : Accounts attempts proposals trace l) {trace' : List ProcEvent}
    (same : ∀ n number cs, attempts.lookup n = some (number, cs) →
      verdict n trace' = verdict n trace) : Accounts attempts proposals trace' l := by
  refine ⟨h.sound, fun n number cs found => ?_, fun n number cs found => ?_, h.owned, h.proposed,
    h.single, h.separate, h.apart, h.made, fun key m => ?_, h.distinct,
    fun n n' number number' cs cs' c c' found found' => ?_⟩
  · rw [same n number cs found]
    exact h.standing n number cs found
  · rw [same n number cs found]
    exact h.closed n number cs found
  · rw [h.members]
    constructor
    · rintro ⟨n, number, cs, c, found, rest⟩
      exact ⟨n, number, cs, c, found, (same n number cs found) ▸ rest⟩
    · rintro ⟨n, number, cs, c, found, rest⟩
      exact ⟨n, number, cs, c, found, (same n number cs found) ▸ rest⟩
  · rw [same n number cs found, same n' number' cs' found']
    exact h.disjoint n n' number number' cs cs' c c' found found'

theorem Accounts.settle (h : Accounts attempts proposals trace l) {n number : Nat}
    {cs : List Candidate} (found : attempts.lookup n = some (number, cs))
    (undecided : verdict n trace = none) (confirmed : Bool) :
    Accounts attempts proposals (.resolved n confirmed :: trace) (l.settle number confirmed) := by
  obtain ⟨r, reserved, rfl⟩ := h.standing n number cs found undecided
  have own : verdict n (.resolved n confirmed :: trace) = some confirmed := by
    simp [verdict_resolved, undecided]
  have others {n' : Nat} (other : n' ≠ n) :
      verdict n' (.resolved n confirmed :: trace) = verdict n' trace :=
    verdict_resolved_ne (Ne.symm other) confirmed trace
  have elsewhere {n' number' : Nat} {cs' : List Candidate}
      (found' : attempts.lookup n' = some (number', cs')) (other : n' ≠ n) : number' ≠ number := by
    rintro rfl
    exact other (h.single n' n number' cs' _ found' found)
  refine ⟨h.sound.settle number confirmed, fun n' number' cs' found' open_ => ?_,
    fun n' number' cs' found' decided => ?_, fun number' r' reserved' => ?_,
    fun id p proposed => ?_, h.single, h.separate, h.apart, ?_, fun key m => ?_, h.distinct, ?_⟩
  · have other : n' ≠ n := by
      rintro rfl
      rw [own] at open_
      cases open_
    rw [others other] at open_
    rw [Ledger.lookup_reservations_settle, if_neg (elsewhere found' other)]
    exact h.standing n' number' cs' found' open_
  · rw [Ledger.lookup_reservations_settle]
    split
    · rfl
    · rename_i differ
      have other : n' ≠ n := by
        rintro rfl
        rw [found] at found'
        cases found'
        exact differ rfl
      rw [others other] at decided
      exact h.closed n' number' cs' found' decided
  · rw [Ledger.lookup_reservations_settle] at reserved'
    split at reserved'
    · cases reserved'
    · exact h.owned number' r' reserved'
  · rw [Ledger.lookup_reservations_settle, if_neg (h.apart n number _ id p found proposed)]
    exact h.proposed id p proposed
  · rw [Ledger.made_settle]
    exact h.made
  · rw [Ledger.lookup_memberships_settle h.sound reserved, h.members]
    constructor
    · rintro (⟨n', number', cs', c, found', yes, rest⟩ | ⟨rfl, c, member, same, record⟩)
      · refine ⟨n', number', cs', c, found', ?_, rest⟩
        rw [others, yes]
        rintro rfl
        rw [undecided] at yes
        cases yes
      · exact ⟨n, number, r.candidates, c, found, own, member, same, record⟩
    · rintro ⟨n', number', cs', c, found', yes, member, rest⟩
      by_cases same : n' = n
      · subst same
        rw [found] at found'
        cases found'
        rw [own] at yes
        exact .inr ⟨Option.some.inj yes, c, member, rest⟩
      · rw [others same] at yes
        exact .inl ⟨n', number', cs', c, found', yes, member, rest⟩
  · -- A key of the attempt that is confirmed was claimed by it, so that it was no membership.
    have fresh {n' number' : Nat} {cs' : List Candidate} {c c' : Candidate}
        (found' : attempts.lookup n' = some (number', cs')) (yes : verdict n' trace = some true)
        (member : c ∈ r.candidates) (member' : c' ∈ cs') : c.key ≠ c'.key := by
      intro same
      have absent := (h.sound.claimed number r c reserved member).2
      have present := (h.members c'.key c'.record).mpr
        ⟨n', number', cs', c', found', yes, member', rfl, rfl⟩
      rw [same, present] at absent
      cases absent
    intro n₁ n₂ number₁ number₂ cs₁ cs₂ c₁ c₂ found₁ found₂ yes₁ yes₂ member₁ member₂ same
    by_cases first : n₁ = n <;> by_cases second : n₂ = n
    · rw [first, second]
    · subst first
      rw [found] at found₁
      cases found₁
      rw [others second] at yes₂
      exact absurd same (fresh found₂ yes₂ member₁ member₂)
    · subst second
      rw [found] at found₂
      cases found₂
      rw [others first] at yes₁
      exact absurd same.symm (fresh found₁ yes₁ member₂ member₁)
    · rw [others first] at yes₁
      rw [others second] at yes₂
      exact h.disjoint n₁ n₂ _ _ cs₁ cs₂ c₁ c₂ found₁ found₂ yes₁ yes₂ member₁ member₂ same

theorem Accounts.event (h : Accounts attempts proposals trace l) (e : ProcEvent) :
    Accounts attempts proposals (e :: trace) (resolveEvent attempts e l) := by
  cases e with
  | committed call id => exact h.same_verdicts fun n _ _ _ => verdict_committed n call id trace
  | resolved n confirmed =>
    unfold resolveEvent
    dsimp only
    cases found : attempts.lookup n with
    | none =>
      refine h.same_verdicts fun n' number cs found' => verdict_resolved_ne ?_ confirmed trace
      rintro rfl
      rw [found] at found'
      cases found'
    | some bound =>
      obtain ⟨number, cs⟩ := bound
      cases said : verdict n trace with
      | none => exact h.settle found said confirmed
      | some first =>
        dsimp only
        rw [Ledger.settle_of_none (h.closed n number cs found (by simp [said]))]
        refine h.same_verdicts fun n' _ _ _ => ?_
        rw [verdict_resolved]
        by_cases same : n = n'
        · subst same
          simp [said]
        · simp [same]

theorem Accounts.events (h : Accounts attempts proposals trace l) (events : List ProcEvent) :
    Accounts attempts proposals (events ++ trace)
      (events.foldr (resolveEvent attempts) l) := by
  induction events with
  | nil => exact h
  | cons e older ih => exact ih.event e

end Resolutions

section Proposals

variable {attempts : Table Nat (Nat × List Candidate)} {proposals : Table Nat Proposal}
  {trace : List ProcEvent} {l l' : Ledger} {id : Nat} {p : Proposal}

theorem Accounts.replace (h : Accounts attempts proposals trace l) {proposals' : Table Nat Proposal}
    (number : Nat) {own : Option Proposal} {reservation : Option Reservation}
    (proposed : ∀ id', proposals'.lookup id' = if id' = id then own else proposals.lookup id')
    (reservations : ∀ n, l'.reservations.lookup n =
      if n = number then reservation else l.reservations.lookup n)
    (unbound : ∀ n cs, attempts.lookup n ≠ some (number, cs))
    (mine : ∀ id' q, proposals.lookup id' = some q → (q.reservation = number ↔ id' = id))
    (backed : ∀ q, own = some q → q.reservation = number ∧ ∃ r, reservation = some r ∧ q.Backed r)
    (owner : ∀ r, reservation = some r → ∃ q, own = some q) (sound : l'.Sound)
    (members : ∀ key m, l'.memberships.lookup key = some m ↔ l.memberships.lookup key = some m)
    (made : l.made ≤ l'.made) : Accounts attempts proposals' trace l' := by
  have other {n n' : Nat} {cs : List Candidate} (bound : attempts.lookup n = some (n', cs)) :
      n' ≠ number := by
    rintro rfl
    exact unbound n cs bound
  have old {id' : Nat} {q : Proposal} (found : proposals'.lookup id' = some q) :
      (id' = id ∧ own = some q ∧ q.reservation = number) ∨
        (id' ≠ id ∧ proposals.lookup id' = some q ∧ q.reservation ≠ number) := by
    rw [proposed] at found
    split at found
    · exact .inl ⟨‹_›, found, (backed q found).1⟩
    · rename_i differ
      exact .inr ⟨differ, found, fun same => differ ((mine id' q found).mp same)⟩
  refine ⟨sound, fun n n' cs bound open_ => ?_, fun n n' cs bound decided => ?_,
    fun n r reserved => ?_, fun id' q found => ?_, h.single,
    fun id₁ id₂ p₁ p₂ found₁ found₂ same => ?_, fun n n' cs id' q bound found => ?_,
    fun n n' cs bound => (h.made n n' cs bound).trans_le made, fun key m => ?_, h.distinct,
    h.disjoint⟩
  · rw [reservations, if_neg (other bound)]
    exact h.standing n n' cs bound open_
  · rw [reservations, if_neg (other bound)]
    exact h.closed n n' cs bound decided
  · rw [reservations] at reserved
    split at reserved
    · rename_i same
      obtain ⟨q, own⟩ := owner r reserved
      exact .inr ⟨id, q, by rw [proposed, if_pos rfl, own], (backed q own).1.trans same.symm⟩
    · rename_i differ
      obtain bound | ⟨id', q, found, same⟩ := h.owned n r reserved
      · exact .inl bound
      · refine .inr ⟨id', q, ?_, same⟩
        rw [proposed, if_neg, found]
        exact fun equal => differ (same.symm.trans ((mine id' q found).mpr equal))
  · obtain ⟨_, own, same⟩ | ⟨_, found, differ⟩ := old found
    · rw [reservations, if_pos same]
      exact (backed q own).2
    · rw [reservations, if_neg differ]
      exact h.proposed id' q found
  · obtain ⟨rfl, _, same₁⟩ | ⟨_, found₁, differ₁⟩ := old found₁ <;>
      obtain ⟨rfl, _, same₂⟩ | ⟨_, found₂, differ₂⟩ := old found₂
    · rfl
    · exact absurd (same.symm.trans same₁) differ₂
    · exact absurd (same.trans same₂) differ₁
    · exact h.separate id₁ id₂ p₁ p₂ found₁ found₂ same
  · obtain ⟨_, _, same⟩ | ⟨_, found, _⟩ := old found
    · rw [same]
      exact (other bound).symm
    · exact h.apart n n' cs id' q bound found
  · rw [members]
    exact h.members key m

theorem Accounts.mine (h : Accounts attempts proposals trace l)
    (found : proposals.lookup id = some p) (id' : Nat) (q : Proposal)
    (found' : proposals.lookup id' = some q) : q.reservation = p.reservation ↔ id' = id := by
  refine ⟨h.separate id' id q p found' found, ?_⟩
  rintro rfl
  rw [found] at found'
  cases found'
  rfl

theorem Accounts.withdraw (h : Accounts attempts proposals trace l)
    (found : proposals.lookup id = some p) :
    Accounts attempts (proposals.erase id) trace (l.abort p.reservation) := by
  obtain ⟨r, reserved, _⟩ := h.proposed id p found
  refine h.replace p.reservation (fun _ => Table.lookup_erase)
    (fun n => Ledger.lookup_reservations_settle n false)
    (fun n cs bound => h.apart n _ cs id p bound found rfl) (h.mine found) nofun nofun
    (h.sound.abort p.reservation) (fun key m => ?_) (Ledger.made_settle false).ge
  have members : (l.abort p.reservation).memberships.lookup key = some m ↔
      l.memberships.lookup key = some m ∨ (false = true ∧ _) :=
    Ledger.lookup_memberships_settle h.sound reserved false
  rw [members]
  simp

theorem Accounts.reserve (h : Accounts attempts proposals trace l)
    (absent : proposals.lookup id = none) (own : p.reservation = l.made) (backed : p.Backed {}) :
    Accounts attempts (proposals.insert id p) trace l.reserve := by
  refine h.replace l.made (fun _ => Table.lookup_insert) (fun _ => Table.lookup_insert)
    (fun n cs bound => (h.made n _ cs bound).false) (fun id' q found => ?_) ?_ ?_ h.sound.reserve
    (fun _ _ => Iff.rfl) (Nat.le_succ _)
  · obtain ⟨r, reserved, _⟩ := h.proposed id' q found
    refine iff_of_false (h.sound.fresh _ r reserved).ne ?_
    rintro rfl
    rw [absent] at found
    cases found
  · rintro _ ⟨⟩
    exact ⟨own, {}, rfl, backed⟩
  · exact fun _ _ => ⟨p, rfl⟩

theorem Accounts.advance (h : Accounts attempts proposals trace l)
    (found : proposals.lookup id = some p) {p' : Proposal} (r' : Reservation)
    (same : p'.reservation = p.reservation) (backed : p'.Backed r') (sound : l'.Sound)
    (memberships : l'.memberships = l.memberships) (made : l'.made = l.made)
    (reservations : ∀ n, l'.reservations.lookup n =
      if n = p.reservation then some r' else l.reservations.lookup n) :
    Accounts attempts (proposals.insert id p') trace l' := by
  refine h.replace p.reservation (fun _ => Table.lookup_insert) reservations
    (fun n cs bound => h.apart n _ cs id p bound found rfl) (h.mine found) ?_ ?_ sound
    (fun _ _ => by rw [memberships]) made.ge
  · rintro _ ⟨⟩
    exact ⟨same, r', rfl, backed⟩
  · exact fun _ _ => ⟨p', rfl⟩

theorem Accounts.bind (h : Accounts attempts proposals trace l)
    (found : proposals.lookup id = some p) {n : Nat} (fresh : attempts.lookup n = none)
    (undecided : verdict n trace = none) {r : Reservation}
    (reserved : l.reservations.lookup p.reservation = some r) (staged : r.candidates = p.active) :
    Accounts (attempts.insert n (p.reservation, p.active)) (proposals.erase id) trace l := by
  have bound {n' number : Nat} {cs : List Candidate}
      (given : (attempts.insert n (p.reservation, p.active)).lookup n' = some (number, cs)) :
      (n' = n ∧ number = p.reservation ∧ cs = p.active) ∨
        (n' ≠ n ∧ attempts.lookup n' = some (number, cs)) := by
    obtain ⟨same, ⟨⟩⟩ | later := Table.lookup_insert_eq_some.mp given
    · exact .inl ⟨same, rfl, rfl⟩
    · exact .inr later
  have kept {n' : Nat} {b : Nat × List Candidate} (given : attempts.lookup n' = some b) :
      (attempts.insert n (p.reservation, p.active)).lookup n' = some b := by
    refine (AList.lookup_insert_ne ?_).trans given
    rintro rfl
    rw [fresh] at given
    cases given
  have old {id' : Nat} {q : Proposal} (found' : (proposals.erase id).lookup id' = some q) :
      id' ≠ id ∧ proposals.lookup id' = some q := Table.lookup_erase_eq_some.mp found'
  refine ⟨h.sound, fun n' number cs given open_ => ?_, fun n' number cs given decided => ?_,
    fun number r' reserved' => ?_, fun id' q found' => h.proposed id' q (old found').2,
    fun n₁ n₂ number cs₁ cs₂ given₁ given₂ => ?_,
    fun id₁ id₂ p₁ p₂ found₁ found₂ => h.separate id₁ id₂ p₁ p₂ (old found₁).2 (old found₂).2,
    fun n' number cs id' q given found' => ?_, fun n' number cs given => ?_, fun key m => ?_,
    fun n' number cs given => ?_,
    fun n₁ n₂ number₁ number₂ cs₁ cs₂ c₁ c₂ given₁ given₂ yes₁ yes₂ => ?_⟩
  · obtain ⟨rfl, rfl, rfl⟩ | ⟨_, given⟩ := bound given
    · exact ⟨r, reserved, staged⟩
    · exact h.standing n' number cs given open_
  · obtain ⟨rfl, rfl, rfl⟩ | ⟨_, given⟩ := bound given
    · exact absurd undecided decided
    · exact h.closed n' number cs given decided
  · obtain ⟨n', cs, given⟩ | ⟨id', q, found', mine⟩ := h.owned number r' reserved'
    · exact .inl ⟨n', cs, kept given⟩
    · by_cases same : id' = id
      · subst same
        rw [found] at found'
        cases found'
        exact .inl ⟨n, p.active, by simp [mine]⟩
      · exact .inr ⟨id', q, Table.lookup_erase_eq_some.mpr ⟨same, found'⟩, mine⟩
  · obtain ⟨rfl, rfl, rfl⟩ | ⟨_, earlier₁⟩ := bound given₁ <;>
      obtain ⟨rfl, equal, _⟩ | ⟨_, earlier₂⟩ := bound given₂
    · rfl
    · exact absurd rfl (h.apart n₂ _ cs₂ id p earlier₂ found)
    · exact absurd equal.symm (h.apart n₁ _ cs₁ id p earlier₁ found)
    · exact h.single n₁ n₂ number cs₁ cs₂ earlier₁ earlier₂
  · obtain ⟨differ, found'⟩ := old found'
    obtain ⟨rfl, rfl, rfl⟩ | ⟨_, given⟩ := bound given
    · exact fun equal => differ (h.separate id' id q p found' found equal)
    · exact h.apart n' number cs id' q given found'
  · obtain ⟨rfl, rfl, rfl⟩ | ⟨_, given⟩ := bound given
    · exact h.sound.fresh _ r reserved
    · exact h.made n' number cs given
  · rw [h.members]
    constructor
    · rintro ⟨n', number, cs, c, given, rest⟩
      exact ⟨n', number, cs, c, kept given, rest⟩
    · rintro ⟨n', number, cs, c, given, yes, rest⟩
      obtain ⟨rfl, rfl, rfl⟩ | ⟨_, given⟩ := bound given
      · rw [undecided] at yes
        cases yes
      · exact ⟨n', number, cs, c, given, yes, rest⟩
  · obtain ⟨rfl, rfl, rfl⟩ | ⟨_, given⟩ := bound given
    · rw [← staged]
      exact h.sound.distinct _ r reserved
    · exact h.distinct n' number cs given
  · obtain ⟨rfl, rfl, rfl⟩ | ⟨_, given₁⟩ := bound given₁
    · rw [undecided] at yes₁
      cases yes₁
    · obtain ⟨rfl, rfl, rfl⟩ | ⟨_, given₂⟩ := bound given₂
      · rw [undecided] at yes₂
        cases yes₂
      · exact h.disjoint n₁ n₂ number₁ number₂ cs₁ cs₂ c₁ c₂ given₁ given₂ yes₁ yes₂

end Proposals

structure Detector.Consistent (d : Detector) : Prop where
  ordered : Ordered d.board d.landed none
  accounts : Accounts d.attempts d.proposals d.board.trace d.ledger
  numbered : ∀ n, (d.attempts.lookup n).isSome = true ↔ n < d.board.attempts

namespace Detector.Consistent

variable {hash : DeliveryHash} {d d' : Detector} {id : Nat} {p : Proposal}

theorem initial (stored : Table String ReceiptRow) :
    Consistent { board := { receipts := stored } } :=
  ⟨.initial stored, ⟨.initial, by simp, by simp, by simp, by simp, by simp, by simp, by simp,
    by simp, by simp, by simp, by simp⟩, by simp⟩

theorem processor (h : d.Consistent) {m : ProcMove} (named : m.named = true)
    (unprepared : ∀ terminal, m ≠ .prepare m.id (some terminal))
    (stepped : d.processor hash m = some d') : d'.Consistent := by
  unfold Detector.processor at stepped
  obtain ⟨board, moved, rfl⟩ := Option.map_eq_some_iff.mp stepped
  obtain ⟨deliveryID, extends_, _⟩ := Extends.step unprepared moved
  refine ⟨h.ordered.step named moved, ?_, fun n => ?_⟩
  · dsimp only
    rw [← newEvents_append extends_.trace]
    exact h.accounts.events _
  · dsimp only
    rw [h.numbered, extends_.attempts]

theorem fail (h : { d with proposals := d.proposals.erase id }.Consistent)
    (failed : d.fail hash id = some d') : d'.Consistent :=
  h.processor rfl (by simp) failed

variable {candidates : List Candidate} {kind : ReceiptKind} {failure : Option PermanentFailure}

theorem batch (h : { d with proposals := d.proposals.erase id }.Consistent) {deliveryID : String}
    {excluded : List ContributionKey}
    (begun : d.batch hash id deliveryID candidates excluded = some d') : d'.Consistent := by
  unfold Detector.batch at begun
  dsimp only at begun
  split at begun
  · cases begun
    refine ⟨h.ordered, ?_, h.numbered⟩
    dsimp only
    rw [← Table.insert_erase]
    refine h.accounts.reserve (by simp) rfl
      ⟨fun c member => .inr ?_, fun _ => rfl, fun _ none_ => by cases none_⟩
    change c ∈ activeCandidates candidates excluded at member
    simpa [uniqueSortedWindowKeys] using ⟨c, member, rfl⟩
  · exact h.fail begun

theorem withdraw (h : d.Consistent) (found : d.proposals.lookup id = some p) :
    { d with
      ledger := d.ledger.abort p.reservation
      proposals := d.proposals.erase id }.Consistent :=
  ⟨h.ordered, h.accounts.withdraw found, h.numbered⟩

theorem propose (h : d.Consistent) (proposed : d.propose hash id candidates = some d') :
    d'.Consistent := by
  unfold Detector.propose at proposed
  split at proposed
  · rename_i call _ absent
    split at proposed
    · refine batch ?_ proposed
      rw [Table.erase_of_none absent]
      exact h
    · cases proposed
  · cases proposed

theorem lock (h : d.Consistent) (found : d.proposals.lookup id = some p)
    (locked : d.lock id p = some d') : d'.Consistent := by
  unfold Detector.lock at locked
  split at locked
  · rename_i key rest unstaged todo
    obtain ⟨ledger, taken, rfl⟩ := Option.map_eq_some_iff.mp locked
    have sound := h.accounts.sound.lock taken
    obtain ⟨r, reserved, backed⟩ := h.accounts.proposed id p found
    unfold Ledger.lock at taken
    rw [reserved] at taken
    dsimp only at taken
    split at taken
    · cases taken
      refine ⟨h.ordered, h.accounts.advance found { r with locked := r.locked ++ [key] } rfl
        ⟨fun c member => ?_, backed.unstaged, backed.staged⟩ sound rfl rfl
        (fun n => Table.lookup_insert), h.numbered⟩
      have covered := backed.covered c member
      rw [todo, List.mem_cons] at covered
      rw [List.mem_append, List.mem_singleton]
      tauto
    · cases taken
  · cases locked

theorem stage (h : d.Consistent) (found : d.proposals.lookup id = some p)
    (staged : d.stage hash id p = some d') : d'.Consistent := by
  unfold Detector.stage at staged
  split at staged
  · rename_i unstaged todo
    obtain ⟨r, reserved, backed⟩ := h.accounts.proposed id p found
    have locked : ∀ c ∈ p.active, c.window ∈ r.locked := by
      intro c member
      simpa [todo] using backed.covered c member
    split at staged
    · rename_i ledger fault prepared
      obtain ⟨_, _, _, ⟨_, _, rfl⟩ | ⟨_, _, ok, _⟩⟩ :=
        Ledger.prepareLocked_cases h.accounts.sound reserved locked prepared
      · refine fail ?_ staged
        have same : d.ledger.release p.reservation r.locked = d.ledger.abort p.reservation := by
          simp [Ledger.abort, reserved, backed.unstaged unstaged]
        rw [same]
        exact h.withdraw found
      · cases ok
    · rename_i ledger previews prepared
      cases staged
      obtain ⟨sound, memberships, made, ⟨_, ok, _⟩ | ⟨_, cs, ok, reservations, all⟩⟩ :=
        Ledger.prepareLocked_cases h.accounts.sound reserved locked prepared
      · cases ok
      · cases ok
        refine ⟨h.ordered, h.accounts.advance found { r with candidates := cs } rfl
          ⟨backed.covered, by simp, fun _ same contribute => ?_⟩ sound memberships made
          reservations, h.numbered⟩
        cases same
        exact all contribute
  · cases staged

theorem exclude (h : d.Consistent) (found : d.proposals.lookup id = some p) {index : Nat}
    (excluded : d.exclude hash id p index = some d') : d'.Consistent := by
  unfold Detector.exclude at excluded
  split at excluded
  · split at excluded
    · split at excluded
      · exact batch (h.withdraw found) excluded
      · cases excluded
    · cases excluded
  · cases excluded

theorem prepared {b b' : ProcBoard}
    (stepped : b.step hash (.prepare id (some (kind, failure))) = some b') :
    ∃ call channel, b.calls.lookup id = some call ∧ call.point = .inside channel .absent ∧
      b' = { b with attempts := b.attempts + 1 }.put id call
        (.inside channel (.prepared ⟨b.attempts, kind, failure⟩)) := by
  unfold ProcBoard.step at stepped
  split at stepped
  · rename_i same
    cases same
  · rename_i call found
    cases at_ : call.point with
    | inside channel stage =>
      cases stage <;> simp only [ProcBoard.act, at_, Option.some.injEq, reduceCtorEq] at stepped
      subst stepped
      exact ⟨call, channel, found, at_, rfl⟩
    | _ => simp [ProcBoard.act, at_] at stepped
  · cases stepped

theorem finish (h : d.Consistent) (found : d.proposals.lookup id = some p)
    (finished : d.finish hash id p kind failure = some d') :
    d'.Consistent := by
  unfold Detector.finish at finished
  split at finished
  · rename_i previews staged
    split at finished
    · rename_i contribute
      unfold Detector.processor at finished
      obtain ⟨board, moved, rfl⟩ := Option.map_eq_some_iff.mp finished
      have ⟨trace, attempts⟩ : board.trace = d.board.trace ∧
          board.attempts = d.board.attempts + 1 := by
        obtain ⟨call, channel, _, _, rfl⟩ := prepared moved
        exact ⟨rfl, rfl⟩
      obtain ⟨r, reserved, backed⟩ := h.accounts.proposed id p found
      have fresh : d.attempts.lookup d.board.attempts = none := by
        rw [← Option.not_isSome_iff_eq_none, h.numbered]
        exact Nat.lt_irrefl _
      have undecided : verdict d.board.attempts d.board.trace = none := by
        cases said : verdict d.board.attempts d.board.trace with
        | none => rfl
        | some confirmed => exact absurd (h.ordered.judged _ _ said).1 (Nat.lt_irrefl _)
      have quiet : newEvents d.board board = [] := by simp [newEvents, trace]
      refine ⟨h.ordered.step rfl moved, ?_, fun n => ?_⟩
      · dsimp only
        rw [trace, quiet, List.foldr_nil]
        exact h.accounts.bind found fresh undecided reserved
          (backed.staged previews staged (List.all_eq_true.mp contribute))
      · dsimp only
        rw [attempts, Table.lookup_insert]
        split
        · rename_i same
          simp [same]
        · rename_i differ
          change n ≠ d.board.attempts at differ
          rw [h.numbered]
          omega
    · cases finished
  · cases finished

theorem evaluate (h : d.Consistent) (found : d.proposals.lookup id = some p) {e : Evaluation}
    (evaluated : d.evaluate hash id p e = some d') : d'.Consistent := by
  cases e with
  | lock => exact h.lock found evaluated
  | stage => exact h.stage found evaluated
  | exclude index => exact h.exclude found evaluated
  | finish kind failure => exact h.finish found evaluated
  | cancel | giveUp =>
    simp only [Detector.evaluate] at evaluated
    split at evaluated
    · exact fail (h.withdraw found) evaluated
    · cases evaluated

theorem step (h : d.Consistent) {m : DetectMove} (named : m.named = true)
    (stepped : d.step hash m = some d') : d'.Consistent := by
  cases m with
  | processor m =>
    simp only [Detector.step] at stepped
    split at stepped
    · rename_i allowed
      refine h.processor named (fun terminal same => ?_) stepped
      rw [same] at allowed
      cases allowed
    · cases stepped
  | propose id candidates => exact h.propose stepped
  | evaluate id e =>
    obtain ⟨p, found, evaluated⟩ := Option.bind_eq_some_iff.mp stepped
    exact h.evaluate found evaluated

theorem run {moves : List DetectMove} (named : ∀ m ∈ moves, m.named = true)
    (ran : runSteps (Detector.step hash) d moves = some d') (h : d.Consistent) :
    d'.Consistent := by
  induction moves generalizing d with
  | nil =>
    cases ran
    exact h
  | cons m rest ih =>
    obtain ⟨middle, first, later⟩ := Option.bind_eq_some_iff.mp ran
    exact ih (fun m' member => named m' (List.mem_cons_of_mem _ member)) later
      (h.step (named m List.mem_cons_self) first)

end Detector.Consistent

end GuardWall.Processor
