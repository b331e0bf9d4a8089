import GuardWall.Detection.Ledger
import Mathlib.Data.List.Dedup

/-! What every operation of the Ledger keeps: the guards and the claims are those of its
reservations, and the counters of a window count its memberships. -/
namespace GuardWall.Detection

open GuardWall.Core GuardWall.Foundation

structure Tally.Counts (t : Tally) (ms : List MemberRecord) : Prop where
  count : t.count = ms.length
  each : ∀ k, (t.distinct.lookup k).getD 0 = ms.countP fun m => m.distinctKey = k
  positive : ∀ k, t.distinct.lookup k ≠ some 0

namespace Tally.Counts

variable {t : Tally} {ms : List MemberRecord}

theorem empty : Tally.Counts {} [] := ⟨rfl, fun _ => rfl, fun _ => by simp⟩

theorem add (h : t.Counts ms) (m : MemberRecord) : (t.add m.distinctKey).Counts (m :: ms) := by
  refine ⟨by simp [Tally.add, h.count], fun k => ?_, fun k => ?_⟩
  · rw [Tally.add, Table.lookup_insert, List.countP_cons]
    split
    · rename_i same
      rw [Option.getD_some, h.each, same]
      simp
    · rename_i differ
      rw [h.each]
      simp [Ne.symm differ]
  · rw [Tally.add, Table.lookup_insert]
    split
    · simp
    · exact h.positive k

theorem mem_keys (h : t.Counts ms) (k : String) :
    k ∈ t.distinct.keys ↔ k ∈ ms.map MemberRecord.distinctKey := by
  rw [← AList.mem_keys, ← AList.lookup_isSome, List.mem_map]
  have each := h.each k
  cases found : t.distinct.lookup k with
  | none =>
    rw [found, Option.getD_none, eq_comm, List.countP_eq_zero] at each
    simp only [decide_eq_true_eq] at each
    simpa using each
  | some n =>
    have some_ : 0 < ms.countP fun m => m.distinctKey = k := by
      have positive := h.positive k
      rw [found, Option.getD_some] at each
      rw [found] at positive
      rw [← each]
      exact Nat.pos_of_ne_zero fun zero => positive (by rw [zero])
    obtain ⟨m, member, same⟩ := List.countP_pos_iff.mp some_
    simpa using ⟨m, member, of_decide_eq_true same⟩

theorem snapshot (h : t.Counts ms) :
    t.snapshot = ⟨ms.length, (ms.map MemberRecord.distinctKey).dedup.length⟩ := by
  have perm : t.distinct.keys.Perm (ms.map MemberRecord.distinctKey).dedup := by
    refine (List.perm_ext_iff_of_nodup t.distinct.keys_nodup (List.nodup_dedup _)).mpr fun k => ?_
    rw [List.mem_dedup, h.mem_keys]
  simp [Tally.snapshot, h.count, perm.length_eq]

end Tally.Counts

structure Ledger.Sound (l : Ledger) : Prop where
  held : ∀ w slot number, l.windows.lookup w = some slot → slot.holder = some number →
    ∃ r, l.reservations.lookup number = some r ∧ w ∈ r.locked
  locks : ∀ number r w, l.reservations.lookup number = some r → w ∈ r.locked →
    ∃ slot, l.windows.lookup w = some slot ∧ slot.holder = some number
  covered : ∀ number r c, l.reservations.lookup number = some r → c ∈ r.candidates →
    c.window ∈ r.locked
  claimed : ∀ number r c, l.reservations.lookup number = some r → c ∈ r.candidates →
    l.claims.lookup c.key = some number ∧ l.memberships.lookup c.key = none
  distinct : ∀ number r, l.reservations.lookup number = some r →
    (r.candidates.map Candidate.key).Nodup
  fresh : ∀ number r, l.reservations.lookup number = some r → number < l.made
  tallied : ∀ w slot, l.windows.lookup w = some slot → slot.tally.Counts (l.members w)
  placed : ∀ key m, l.memberships.lookup key = some m → (l.windows.lookup m.window).isSome

namespace Ledger

variable {l l' : Ledger} {number : Nat} {r : Reservation}

theorem members_of_none (h : l.Sound) {w : WindowKey} (absent : l.windows.lookup w = none) :
    l.members w = [] := by
  unfold members
  rw [List.filter_eq_nil_iff]
  intro m member
  obtain ⟨⟨key, m'⟩, row, rfl⟩ := List.mem_map.mp member
  have placed := h.placed key m' (Table.mem_rows.mp row)
  intro same
  rw [of_decide_eq_true same, absent] at placed
  cases placed

theorem Sound.initial : Sound {} :=
  ⟨by simp, by simp, by simp, by simp, by simp, by simp, by simp, by simp⟩

theorem Sound.reserve (h : l.Sound) : l.reserve.Sound := by
  refine ⟨fun w slot n present holder => ?_, fun n r w found member => ?_,
    fun n r c found member => ?_, fun n r c found member => ?_, fun n r found => ?_,
    fun n r found => ?_, h.tallied, h.placed⟩
  · obtain ⟨r, found, locked⟩ := h.held w slot n present holder
    refine ⟨r, ?_, locked⟩
    unfold Ledger.reserve
    rw [Table.lookup_insert, if_neg (h.fresh n r found).ne]
    exact found
  all_goals obtain ⟨rfl, rfl⟩ | ⟨_, found⟩ := Table.lookup_insert_eq_some.mp found
  · cases member
  · exact h.locks n r w found member
  · cases member
  · exact h.covered n r c found member
  · cases member
  · exact h.claimed n r c found member
  · exact List.nodup_nil
  · exact h.distinct n r found
  · exact Nat.lt_succ_self _
  · exact (h.fresh n r found).trans (Nat.lt_succ_self _)

theorem Sound.lock (h : l.Sound) {key : WindowKey} (taken : l.lock number key = some l') :
    l'.Sound := by
  unfold Ledger.lock at taken
  split at taken
  · cases taken
  rename_i r found
  dsimp only at taken
  split at taken
  · rename_i free
    cases taken
    have old {n : Nat} {r' : Reservation}
        (found' : (l.reservations.insert number { r with locked := r.locked ++ [key] }).lookup n =
          some r') : ∃ before, l.reservations.lookup n = some before ∧
            r'.candidates = before.candidates ∧
            ∀ w, w ∈ r'.locked ↔ w ∈ before.locked ∨ (n = number ∧ w = key) := by
      obtain ⟨rfl, rfl⟩ | ⟨differ, found'⟩ := Table.lookup_insert_eq_some.mp found'
      · exact ⟨r, found, rfl, by simp⟩
      · exact ⟨r', found', rfl, by simp [differ]⟩
    have unheld {n : Nat} {slot : WindowSlot} (present : l.windows.lookup key = some slot)
        (holder : slot.holder = some n) : False := by
      simp [present, holder] at free
    refine ⟨fun w slot n present holder => ?_, fun n r' w found' member => ?_,
      fun n r' c found' member => ?_, fun n r' c found' member => ?_, fun n r' found' => ?_,
      fun n r' found' => ?_, fun w slot present => ?_, fun k m member => ?_⟩
    · obtain ⟨rfl, rfl⟩ | ⟨_, present⟩ := Table.lookup_insert_eq_some.mp present
      · cases holder
        exact ⟨_, AList.lookup_insert _, by simp⟩
      · obtain ⟨before, found', locked⟩ := h.held w slot n present holder
        by_cases own : n = number
        · subst own
          rw [found] at found'
          cases found'
          exact ⟨_, AList.lookup_insert _, by simp [locked]⟩
        · exact ⟨before, (AList.lookup_insert_ne own).trans found', locked⟩
    · obtain ⟨before, found', _, locks⟩ := old found'
      obtain member | ⟨rfl, rfl⟩ := (locks w).mp member
      · obtain ⟨slot, present, holder⟩ := h.locks n before w found' member
        refine ⟨slot, (AList.lookup_insert_ne ?_).trans present, holder⟩
        rintro rfl
        exact unheld present holder
      · exact ⟨_, AList.lookup_insert _, rfl⟩
    · obtain ⟨before, found', same, locks⟩ := old found'
      rw [same] at member
      exact (locks _).mpr (.inl (h.covered n before c found' member))
    · obtain ⟨before, found', same, _⟩ := old found'
      rw [same] at member
      exact h.claimed n before c found' member
    · obtain ⟨before, found', same, _⟩ := old found'
      rw [same]
      exact h.distinct n before found'
    · obtain ⟨before, found', _⟩ := old found'
      exact h.fresh n before found'
    · obtain ⟨rfl, rfl⟩ | ⟨_, present⟩ := Table.lookup_insert_eq_some.mp present
      · cases slot : l.windows.lookup w with
        | none =>
          change Tally.Counts {} (l.members w)
          rw [members_of_none h slot]
          exact .empty
        | some slot' => exact h.tallied w slot' slot
      · exact h.tallied w slot present
    · have placed := h.placed k m member
      dsimp only
      rw [Table.lookup_insert]
      split
      · rfl
      · exact placed
  · cases taken

theorem lookup_releaseSlots (windows : Table WindowKey WindowSlot) (keys : List WindowKey)
    (w : WindowKey) : (releaseSlots windows keys).lookup w =
      if w ∈ keys then (windows.lookup w).map fun slot => { slot with holder := none }
      else windows.lookup w := by
  induction keys with
  | nil => simp [releaseSlots]
  | cons key rest ih =>
    unfold releaseSlots at ih ⊢
    rw [List.foldr_cons]
    by_cases same : w = key
    · subst same
      split
      · rename_i slot found
        rw [Table.lookup_insert, if_pos rfl, if_pos List.mem_cons_self]
        rw [ih] at found
        split at found
        · obtain ⟨before, present, rfl⟩ := Option.map_eq_some_iff.mp found
          rw [present]
          rfl
        · rw [found]
          rfl
      · rename_i found
        rw [found, if_pos List.mem_cons_self]
        rw [ih] at found
        split at found
        · rw [found]
        · rw [found]
          rfl
    · have others : w ∈ key :: rest ↔ w ∈ rest := by simp [same]
      simp only [others]
      rw [← ih]
      split
      · rw [Table.lookup_insert, if_neg same]
      · rfl

theorem Sound.release (h : l.Sound) (found : l.reservations.lookup number = some r) :
    (l.release number r.locked).Sound := by
  have old {n : Nat} {r' : Reservation}
      (found' : (l.release number r.locked).reservations.lookup n = some r') :
      n ≠ number ∧ l.reservations.lookup n = some r' := Table.lookup_erase_eq_some.mp found'
  have window (w : WindowKey) : (l.release number r.locked).windows.lookup w =
      if w ∈ r.locked then (l.windows.lookup w).map fun slot => { slot with holder := none }
      else l.windows.lookup w := lookup_releaseSlots l.windows r.locked w
  refine ⟨fun w slot n present holder => ?_, fun n r' w found' member => ?_,
    fun n r' c found' => h.covered n r' c (old found').2,
    fun n r' c found' => h.claimed n r' c (old found').2,
    fun n r' found' => h.distinct n r' (old found').2,
    fun n r' found' => h.fresh n r' (old found').2, fun w slot present => ?_,
    fun key m member => ?_⟩
  · rw [window] at present
    split at present
    · obtain ⟨before, _, rfl⟩ := Option.map_eq_some_iff.mp present
      cases holder
    · rename_i free
      obtain ⟨r', found', locked⟩ := h.held w slot n present holder
      refine ⟨r', Table.lookup_erase_eq_some.mpr ⟨?_, found'⟩, locked⟩
      rintro rfl
      rw [found] at found'
      cases found'
      exact free locked
  · obtain ⟨differ, found'⟩ := old found'
    obtain ⟨slot, present, holder⟩ := h.locks n r' w found' member
    refine ⟨slot, ?_, holder⟩
    rw [window, if_neg, present]
    intro locked
    obtain ⟨slot', present', holder'⟩ := h.locks number r w found locked
    rw [present] at present'
    cases present'
    rw [holder] at holder'
    exact differ (Option.some.inj holder')
  · rw [window] at present
    split at present
    · obtain ⟨before, present', rfl⟩ := Option.map_eq_some_iff.mp present
      exact h.tallied w before present'
    · exact h.tallied w slot present
  · have placed := h.placed key m member
    rw [window]
    split
    · simpa using placed
    · exact placed

def restage (l : Ledger) (number : Nat) (r : Reservation) (candidates : List Candidate) : Ledger :=
  { l with
    reservations := l.reservations.insert number { r with candidates := candidates } }

theorem release_restage (candidates : List Candidate) :
    (l.restage number r candidates).release number r.locked = l.release number r.locked := by
  simp [restage, Ledger.release, Table.erase_insert]

variable {candidates : List Candidate} {c : Candidate}

theorem Sound.restaged (h : l.Sound) (found : l.reservations.lookup number = some r)
    {claims : Table ContributionKey Nat}
    (others : ∀ k n, n ≠ number → l.claims.lookup k = some n → claims.lookup k = some n)
    (covered : ∀ c ∈ candidates, c.window ∈ r.locked)
    (claimed : ∀ c ∈ candidates, claims.lookup c.key = some number ∧
      l.memberships.lookup c.key = none) (distinct : (candidates.map Candidate.key).Nodup) :
    ({ l with claims := claims }.restage number r candidates).Sound := by
  refine ⟨fun w slot n present holder => ?_, fun n r' w found' member => ?_,
    fun n r' c found' member => ?_, fun n r' c found' member => ?_, fun n r' found' => ?_,
    fun n r' found' => ?_, h.tallied, h.placed⟩
  · obtain ⟨r', found', locked⟩ := h.held w slot n present holder
    change ∃ r', (l.reservations.insert number _).lookup n = some r' ∧ w ∈ r'.locked
    rw [Table.lookup_insert]
    split
    · rename_i same
      subst same
      rw [found] at found'
      cases found'
      exact ⟨_, rfl, locked⟩
    · exact ⟨r', found', locked⟩
  all_goals obtain ⟨rfl, rfl⟩ | ⟨differ, found'⟩ := Table.lookup_insert_eq_some.mp found'
  · exact h.locks _ r w found member
  · exact h.locks n r' w found' member
  · exact covered c member
  · exact h.covered n r' c found' member
  · exact claimed c member
  · obtain ⟨claim, absent⟩ := h.claimed n r' c found' member
    exact ⟨others c.key n differ claim, absent⟩
  · exact distinct
  · exact h.distinct n r' found'
  · exact h.fresh _ r found
  · exact h.fresh n r' found'

variable {n : Nat} {key : ContributionKey} {m : MemberRecord}

theorem unclaimed_of_admissible {seen : Table ContributionKey Candidate}
    (before : ∀ k prior, seen.lookup k = some prior → l.memberships.lookup k = none →
      ∀ n, l.claims.lookup k = some n → n = number)
    (ok : l.admissible number candidates seen = .ok ()) (member : c ∈ candidates)
    (absent : l.memberships.lookup c.key = none) (claim : l.claims.lookup c.key = some n) :
    n = number := by
  induction candidates generalizing seen with
  | nil => cases member
  | cons head rest ih =>
    have grown (head_ok : l.memberships.lookup head.key = none → ∀ n,
        l.claims.lookup head.key = some n → n = number)
        (ok : l.admissible number rest (seen.insert head.key head) = .ok ()) : n = number := by
      obtain rfl | member := List.mem_cons.mp member
      · exact head_ok absent n claim
      · refine ih (fun k prior found => ?_) ok member
        obtain ⟨rfl, _⟩ | ⟨_, found⟩ := Table.lookup_insert_eq_some.mp found
        · exact head_ok
        · exact before k prior found
    unfold Ledger.admissible at ok
    split at ok
    · rename_i prior found
      simp only [bind_eq_ok, reject_eq_ok] at ok
      obtain ⟨_, _, ok⟩ := ok
      obtain rfl | member := List.mem_cons.mp member
      · exact before c.key _ (by assumption) absent n claim
      · exact ih before ok member
    · rename_i member_ found
      simp only [bind_eq_ok, reject_eq_ok] at ok
      obtain ⟨_, _, ok⟩ := ok
      refine grown (fun none_ => ?_) ok
      rw [found] at none_
      cases none_
    · simp only [bind_eq_ok, reject_eq_ok] at ok
      obtain ⟨_, unowned, ok⟩ := ok
      refine grown (fun _ n owned => ?_) ok
      simpa [owned] using unowned

/-- What the second loop of `prepareLocked` has staged of the candidates taken so far. -/
structure Drafted (l : Ledger) (number : Nat) (taken : List Candidate) (d : Draft) : Prop where
  seen : ∀ k, k ∈ d.seen ↔ ∃ c ∈ taken, c.key = k
  staged : ∀ c ∈ d.staged, c ∈ taken ∧ d.claims.lookup c.key = some number ∧
    l.memberships.lookup c.key = none
  distinct : (d.staged.map Candidate.key).Nodup
  claims : ∀ k, k ∉ d.staged.map Candidate.key → d.claims.lookup k = l.claims.lookup k
  all : (∀ p ∈ d.previews, p.willContribute = true) → d.staged = taken

theorem Drafted.stage {taken : List Candidate} {d : Draft} (h : Drafted l number taken d)
    (c : Candidate) : Drafted l number (taken ++ [c]) (l.stage number d c) := by
  have seen (k : ContributionKey) : k ∈ c.key :: d.seen ↔ ∃ c' ∈ taken ++ [c], c'.key = k := by
    simp only [List.mem_cons, h.seen, List.mem_append, List.not_mem_nil, or_false]
    constructor
    · rintro (rfl | ⟨c', member, rfl⟩)
      · exact ⟨c, .inr rfl, rfl⟩
      · exact ⟨c', .inl member, rfl⟩
    · rintro ⟨c', member | rfl, rfl⟩
      · exact .inr ⟨c', member, rfl⟩
      · exact .inl rfl
  unfold Ledger.stage
  dsimp only
  split
  · refine ⟨seen, fun c' member => ?_, h.distinct, h.claims, fun contributes => ?_⟩
    · exact ⟨List.mem_append_left _ (h.staged c' member).1, (h.staged c' member).2⟩
    · cases contributes _ (List.mem_append_right _ List.mem_cons_self)
  · rename_i new
    simp only [not_or, Option.not_isSome_iff_eq_none] at new
    have unstaged (c' : Candidate) (member : c' ∈ d.staged) : c'.key ≠ c.key := by
      intro same
      exact new.1 ((h.seen c.key).mpr ⟨c', (h.staged c' member).1, same⟩)
    refine ⟨seen, fun c' member => ?_, ?_, fun k other => ?_, fun contributes => ?_⟩
    · dsimp only
      rw [Table.lookup_insert]
      obtain member | member := List.mem_append.mp member
      · obtain ⟨inside, claim, absent⟩ := h.staged c' member
        exact ⟨List.mem_append_left _ inside, by rw [if_neg (unstaged c' member), claim], absent⟩
      · cases List.mem_singleton.mp member
        exact ⟨List.mem_append_right _ List.mem_cons_self, if_pos rfl, new.2⟩
    · rw [List.map_append, List.nodup_append]
      refine ⟨h.distinct, List.nodup_singleton _, ?_⟩
      intro k member k' member'
      obtain ⟨c', inside, rfl⟩ := List.mem_map.mp member
      cases List.mem_singleton.mp member'
      exact unstaged c' inside
    · simp only [List.map_append, List.mem_append, not_or] at other
      dsimp only
      rw [Table.lookup_insert, if_neg (by simpa using other.2)]
      exact h.claims k other.1
    · dsimp only
      rw [h.all fun p member => contributes p (List.mem_append_left _ member)]

theorem drafted_foldl (l : Ledger) (number : Nat) (candidates : List Candidate) :
    Drafted l number candidates
      (candidates.foldl (l.stage number) { claims := l.claims }) := by
  have fold : ∀ (rest taken : List Candidate) (d : Draft), Drafted l number taken d →
      Drafted l number (taken ++ rest) (rest.foldl (l.stage number) d) := by
    intro rest
    induction rest with
    | nil =>
      intro taken d h
      simpa using h
    | cons c rest ih =>
      intro taken d h
      simpa using ih (taken ++ [c]) _ (h.stage c)
  refine fold candidates [] _ ⟨by simp, by simp, by simp, by simp, by simp⟩

theorem prepareLocked_cases (h : l.Sound) (found : l.reservations.lookup number = some r)
    (locked : ∀ c ∈ candidates, c.window ∈ r.locked) {l' : Ledger}
    {result : Except Fault (List Preview)}
    (prepared : l.prepareLocked number candidates = (l', result)) :
    l'.Sound ∧ l'.memberships = l.memberships ∧ l'.made = l.made ∧
      ((∃ fault, result = .error fault ∧ l' = l.release number r.locked) ∨
        ∃ previews staged, result = .ok previews ∧
          (∀ n, l'.reservations.lookup n = if n = number then
            some { r with candidates := staged } else l.reservations.lookup n) ∧
          ((∀ p ∈ previews, p.willContribute = true) → staged = candidates)) := by
  simp only [Ledger.prepareLocked, found] at prepared
  split at prepared
  · rename_i fault refused
    cases prepared
    exact ⟨h.release found, rfl, rfl, .inl ⟨fault, rfl, rfl⟩⟩
  · rename_i ok
    cases prepared
    have drafted := drafted_foldl l number candidates
    refine ⟨h.restaged found (fun k n differ claim => ?_) (fun c member => ?_)
      (fun c member => (drafted.staged c member).2) drafted.distinct, rfl, rfl,
      .inr ⟨_, _, rfl, fun n => Table.lookup_insert, drafted.all⟩⟩
    · rw [drafted.claims k, claim]
      intro staged
      obtain ⟨c, member, rfl⟩ := List.mem_map.mp staged
      obtain ⟨inside, _, absent⟩ := drafted.staged c member
      exact differ (unclaimed_of_admissible (fun _ _ found => by cases found) ok inside absent claim)
    · exact locked c (drafted.staged c member).1

theorem members_insert (absent : l.memberships.lookup c.key = none) (w : WindowKey) :
    { l with memberships := l.memberships.insert c.key c.record }.members w =
      if c.window = w then c.record :: l.members w else l.members w := by
  unfold members
  rw [Table.rows_insert_of_none absent, List.map_cons, List.filter_cons]
  by_cases same : c.window = w <;> simp [Candidate.record, same]

theorem enroll_eq {slot : WindowSlot} (present : l.windows.lookup c.window = some slot) :
    l.enroll c = { l with
      windows := l.windows.insert c.window { slot with tally := slot.tally.add c.distinctKey }
      memberships := l.memberships.insert c.key c.record
      claims := l.claims.erase c.key } := by
  unfold Ledger.enroll
  rw [present]

theorem Sound.enroll {rest : List Candidate} (h : (l.restage number r (c :: rest)).Sound) :
    ((l.enroll c).restage number r rest).Sound := by
  have own : (l.restage number r (c :: rest)).reservations.lookup number =
      some { r with candidates := c :: rest } := by
    simp [restage]
  obtain ⟨slot, present, holder⟩ := h.locks number _ c.window own
    (h.covered number _ c own List.mem_cons_self)
  obtain ⟨claim, absent⟩ := h.claimed number _ c own List.mem_cons_self
  have keys := h.distinct number _ own
  simp only [List.map_cons, List.nodup_cons] at keys
  change l.windows.lookup c.window = some slot at present
  change l.claims.lookup c.key = some number at claim
  change l.memberships.lookup c.key = none at absent
  rw [enroll_eq present]
  -- The reservations are as before, but for the candidate that is taken.
  have old {n : Nat} {r' : Reservation}
      (found : (l.reservations.insert number { r with candidates := rest }).lookup n = some r') :
      ∃ before, (l.restage number r (c :: rest)).reservations.lookup n = some before ∧
        before.locked = r'.locked ∧ (∀ c' ∈ r'.candidates, c' ∈ before.candidates ∧
          c'.key ≠ c.key) ∧ (r'.candidates.map Candidate.key).Nodup := by
    obtain ⟨rfl, rfl⟩ | ⟨differ, found⟩ := Table.lookup_insert_eq_some.mp found
    · refine ⟨_, own, rfl, fun c' member => ⟨List.mem_cons_of_mem _ member, fun equal => ?_⟩,
        keys.2⟩
      exact keys.1 (List.mem_map.mpr ⟨c', member, equal⟩)
    · have before : (l.restage number r (c :: rest)).reservations.lookup n = some r' := by
        simp [restage, differ, found]
      refine ⟨r', before, rfl, fun c' member => ⟨member, fun equal => ?_⟩, h.distinct n r' before⟩
      have claim' : l.claims.lookup c'.key = some n := (h.claimed n r' c' before member).1
      rw [equal, claim] at claim'
      exact differ (Option.some.inj claim').symm
  have kept (n : Nat) (before : Reservation)
      (found : (l.restage number r (c :: rest)).reservations.lookup n = some before) :
      ∃ r', (l.reservations.insert number { r with candidates := rest }).lookup n = some r' ∧
        r'.locked = before.locked := by
    obtain ⟨rfl, rfl⟩ | ⟨differ, found⟩ := Table.lookup_insert_eq_some.mp found
    · exact ⟨_, AList.lookup_insert _, rfl⟩
    · exact ⟨before, (AList.lookup_insert_ne differ).trans found, rfl⟩
  have windows (w : WindowKey) (slot' : WindowSlot) (found : (l.windows.insert c.window
      { slot with tally := slot.tally.add c.distinctKey }).lookup w = some slot') :
      ∃ before, l.windows.lookup w = some before ∧ before.holder = slot'.holder ∧
        slot'.tally = if c.window = w then before.tally.add c.distinctKey else before.tally := by
    obtain ⟨rfl, rfl⟩ | ⟨differ, found⟩ := Table.lookup_insert_eq_some.mp found
    · exact ⟨slot, present, rfl, (if_pos rfl).symm⟩
    · exact ⟨slot', found, rfl, (if_neg (Ne.symm differ)).symm⟩
  refine ⟨fun w slot' n found holds => ?_, fun n r' w found member => ?_,
    fun n r' c' found member => ?_, fun n r' c' found member => ?_, fun n r' found => ?_,
    fun n r' found => ?_, fun w slot' found => ?_, fun key m found => ?_⟩
  · obtain ⟨before, found', same, _⟩ := windows w slot' found
    obtain ⟨r', reserved, locked⟩ := h.held w before n found' (same.trans holds)
    obtain ⟨r'', reserved', same'⟩ := kept n r' reserved
    exact ⟨r'', reserved', by rw [same']; exact locked⟩
  · obtain ⟨before, reserved, same, _⟩ := old found
    rw [← same] at member
    obtain ⟨slot', found', holds⟩ := h.locks n before w reserved member
    change ∃ slot'', (l.windows.insert c.window
      { slot with tally := slot.tally.add c.distinctKey }).lookup w = some slot'' ∧ _
    rw [Table.lookup_insert]
    split
    · rename_i equal
      subst equal
      change l.windows.lookup c.window = some slot' at found'
      rw [present] at found'
      cases found'
      exact ⟨_, rfl, holds⟩
    · exact ⟨slot', found', holds⟩
  · obtain ⟨before, reserved, same, members, _⟩ := old found
    rw [← same]
    exact h.covered n before c' reserved (members c' member).1
  · obtain ⟨before, reserved, _, members, _⟩ := old found
    obtain ⟨member', differ⟩ := members c' member
    obtain ⟨claim', absent'⟩ := h.claimed n before c' reserved member'
    change (l.claims.erase c.key).lookup c'.key = some n ∧
      (l.memberships.insert c.key c.record).lookup c'.key = none
    rw [Table.lookup_erase, if_neg differ, Table.lookup_insert, if_neg differ]
    exact ⟨claim', absent'⟩
  · exact (old found).elim fun _ facts => facts.2.2.2
  · obtain ⟨before, reserved, _⟩ := old found
    exact h.fresh n before reserved
  · obtain ⟨before, found', _, tally⟩ := windows w slot' found
    have counts : before.tally.Counts (l.members w) := h.tallied w before found'
    change slot'.tally.Counts
      ({ l with memberships := l.memberships.insert c.key c.record }.members w)
    rw [tally, members_insert absent]
    split
    · exact counts.add c.record
    · exact counts
  · change ((l.windows.insert c.window _).lookup m.window).isSome
    rw [Table.lookup_insert]
    split
    · rfl
    · rename_i differ
      obtain ⟨_, rfl⟩ | ⟨_, found⟩ := Table.lookup_insert_eq_some.mp found
      · exact absurd rfl differ
      · exact h.placed key m found

theorem reservations_foldl_enroll (candidates : List Candidate) :
    (candidates.foldl Ledger.enroll l).reservations = l.reservations := by
  induction candidates generalizing l with
  | nil => rfl
  | cons c rest ih =>
    rw [List.foldl_cons, ih]
    unfold Ledger.enroll
    split <;> rfl

theorem Sound.foldl_enroll (h : (l.restage number r candidates).Sound) :
    ((candidates.foldl Ledger.enroll l).restage number r []).Sound := by
  induction candidates generalizing l with
  | nil => exact h
  | cons c rest ih => exact ih h.enroll

theorem restage_self (found : l.reservations.lookup number = some r) (h : l.Sound) :
    (l.restage number r r.candidates).Sound := by
  exact h.restaged found (fun _ _ _ claim => claim) (fun c => h.covered number r c found)
    (fun c => h.claimed number r c found) (h.distinct number r found)

theorem Sound.confirm (h : l.Sound) (number : Nat) : (l.confirm number).Sound := by
  unfold Ledger.confirm
  split
  · exact h
  · rename_i r found
    rw [← release_restage []]
    exact (restage_self found h).foldl_enroll.release (r := { r with candidates := [] })
      (by simp [restage])

theorem lookup_foldl_disclaim (candidates : List Candidate) (claims : Table ContributionKey Nat)
    {k : ContributionKey} (other : n ≠ number) (claim : claims.lookup k = some n) :
    (candidates.foldl (disclaim number) claims).lookup k = some n := by
  induction candidates generalizing claims with
  | nil => exact claim
  | cons c rest ih =>
    refine ih _ ?_
    unfold disclaim
    split
    · rename_i own
      refine Table.lookup_erase_eq_some.mpr ⟨?_, claim⟩
      rintro rfl
      rw [claim] at own
      exact other (Option.some.inj own)
    · exact claim

theorem Sound.abort (h : l.Sound) (number : Nat) : (l.abort number).Sound := by
  unfold Ledger.abort
  split
  · exact h
  · rename_i r found
    rw [← release_restage []]
    refine Sound.release (r := { r with candidates := [] }) (h.restaged found
      (fun k n other claim => ?_) (by simp) (by simp) List.nodup_nil) (by simp [restage])
    exact lookup_foldl_disclaim _ _ other claim

theorem lookup_foldl_enroll (h : (l.restage number r candidates).Sound) :
    (candidates.foldl Ledger.enroll l).memberships.lookup key = some m ↔
      l.memberships.lookup key = some m ∨ ∃ c ∈ candidates, c.key = key ∧ c.record = m := by
  induction candidates generalizing l with
  | nil => simp
  | cons c rest ih =>
    have own : (l.restage number r (c :: rest)).reservations.lookup number =
        some { r with candidates := c :: rest } := by
      simp [restage]
    obtain ⟨slot, present, _⟩ : ∃ slot, l.windows.lookup c.window = some slot ∧ _ :=
      h.locks number _ c.window own (h.covered number _ c own List.mem_cons_self)
    have absent : l.memberships.lookup c.key = none :=
      (h.claimed number _ c own List.mem_cons_self).2
    rw [List.foldl_cons, ih h.enroll, enroll_eq present]
    simp only [List.mem_cons, exists_eq_or_imp, ← or_assoc]
    refine or_congr_left ?_
    rw [Table.lookup_insert]
    split
    · rename_i same
      subst same
      simp [absent]
    · rename_i differ
      simp [Ne.symm differ]

theorem lookup_reservations_settle (n : Nat) (confirmed : Bool) :
    (l.settle number confirmed).reservations.lookup n =
      if n = number then none else l.reservations.lookup n := by
  have erased (l' : Ledger) (same : l'.reservations = l.reservations) (locked : List WindowKey) :
      (l'.release number locked).reservations.lookup n =
        if n = number then none else l.reservations.lookup n := by
    rw [← same]
    exact Table.lookup_erase
  have kept (absent : l.reservations.lookup number = none) :
      l.reservations.lookup n = if n = number then none else l.reservations.lookup n := by
    split
    · rename_i same
      rw [same, absent]
    · rfl
  unfold settle Ledger.confirm Ledger.abort
  split
  · split
    · exact kept (by assumption)
    · exact erased _ (reservations_foldl_enroll _) _
  · split
    · exact kept (by assumption)
    · rename_i r _
      exact erased { l with claims := r.candidates.foldl (disclaim number) l.claims } rfl r.locked

theorem Sound.settle (h : l.Sound) (number : Nat) (confirmed : Bool) :
    (l.settle number confirmed).Sound := by
  unfold Ledger.settle
  split
  · exact h.confirm number
  · exact h.abort number

theorem lookup_memberships_settle (h : l.Sound) (found : l.reservations.lookup number = some r)
    (confirmed : Bool) :
    (l.settle number confirmed).memberships.lookup key = some m ↔
      l.memberships.lookup key = some m ∨
        (confirmed = true ∧ ∃ c ∈ r.candidates, c.key = key ∧ c.record = m) := by
  unfold Ledger.settle
  split
  · rename_i yes
    simp only [Ledger.confirm, found, yes, true_and]
    exact lookup_foldl_enroll (restage_self found h)
  · rename_i no
    simp [Ledger.abort, found, Ledger.release, no]

theorem settle_of_none (absent : l.reservations.lookup number = none) (confirmed : Bool) :
    l.settle number confirmed = l := by
  unfold Ledger.settle Ledger.confirm Ledger.abort
  split <;> rw [absent]

theorem made_settle (confirmed : Bool) : (l.settle number confirmed).made = l.made := by
  have folded (candidates : List Candidate) : ∀ l : Ledger,
      (candidates.foldl Ledger.enroll l).made = l.made := by
    induction candidates with
    | nil => exact fun _ => rfl
    | cons c rest ih =>
      intro l
      rw [List.foldl_cons, ih]
      unfold Ledger.enroll
      split <;> rfl
  unfold Ledger.settle Ledger.confirm Ledger.abort
  split
  · split
    · rfl
    · exact folded _ _
  · split <;> rfl

end Ledger

end GuardWall.Detection
