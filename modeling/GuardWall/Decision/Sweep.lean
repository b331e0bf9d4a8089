import GuardWall.Decision.Progress

/-! The expiry sweep on a docket that operations have led to: it commits, and its effect is exactly
the end of the due Decisions. -/
namespace GuardWall.Decision

open GuardWall.Core GuardWall.Foundation GuardWall.Store

def DecisionAudit.Apart (a : DecisionAudit) : Prop :=
  a.id.utf8ByteSize ≠ 86 ∧ a.idempotencyKey.utf8ByteSize ≠ 80

def Logs (d d' : Docket) : Prop :=
  ∃ new, d'.audits = new ++ d.audits ∧ ∀ a ∈ new, a.Apart

def Docket.Audited (digest : Hash (List String)) (d : Docket) : Prop :=
  ∀ a ∈ d.audits, a.Apart ∨ ∃ id r, d.row? id = some r ∧ r.state ≠ .active ∧
    a.id = "audit-decision-expire-" ++ digest.hex ["decision:expire", id] ∧
    a.idempotencyKey = "decision-expire:" ++ digest.hex ["decision:expire", id]

section Logging

variable {resolver : Resolver} {hash : Hash String} {digest : Hash (List String)}
variable {d d' d'' : Docket} {nodeID : String} {at_ : Instant}

theorem Logs.of_same (same : d'.audits = d.audits) : Logs d d' := ⟨[], by simpa using same, by simp⟩

theorem Logs.trans (h : Logs d d') (h' : Logs d' d'') : Logs d d'' := by
  obtain ⟨new, all, apart⟩ := h
  obtain ⟨new', all', apart'⟩ := h'
  refine ⟨new' ++ new, by rw [all', all, List.append_assoc], fun a member => ?_⟩
  exact (List.mem_append.mp member).elim (apart' a) (apart a)

theorem logs_audit {audit : DecisionAudit} (apart : audit.Apart)
    (h : d.appendCriticalAudit audit = .ok d') : Logs d d' := by
  rw [appendCriticalAudit_cases h]
  refine ⟨[{ audit with createdAt := audit.createdAt.truncateMicro }], rfl, ?_⟩
  rintro a (_ | ⟨_, ⟨⟩⟩)
  exact apart

theorem apart_labelled {a : DecisionAudit} {label key hex : String} (size : hex.utf8ByteSize = 64)
    (named : a.id = label ++ hex) (keyed : a.idempotencyKey = key ++ hex)
    (other : label.utf8ByteSize ≠ 22 ∧ key.utf8ByteSize ≠ 16) : a.Apart := by
  unfold DecisionAudit.Apart
  rw [named, keyed, String.utf8ByteSize_append, String.utf8ByteSize_append, size]
  omega

variable {referenced : Bool} {requests : List (AutomaticRequest × Bool)}

theorem logs_insertRow {inserted : Bool} {row : DecisionRow}
    (h : d.insertRow referenced row = .ok (inserted, d')) : Logs d d' := by
  obtain ⟨_, rfl⟩ | ⟨_, s, _, rfl, _⟩ := insertRow_cases h
  · exact .of_same rfl
  · exact .of_same rfl

theorem logs_rebuildProjection {target : Prefix} {force changed : Bool} {p : Projection}
    (h : d.rebuildProjection nodeID target at_ force = .ok (p, changed, d')) : Logs d d' :=
  .of_same (rebuildProjection_rest h).2

theorem logs_recordAutomatic {r : AutomaticRequest} {result : AutomaticResult}
    (h : recordAutomaticInTransaction hash digest referenced r d = .ok (result, d')) :
    Logs d d' := by
  obtain ⟨d1, p, changed, d2, _, ⟨_, _, one, two, three⟩ | ⟨_, _, _, one, two, three⟩⟩ :=
    recordAutomatic_cases h
  · exact ((logs_insertRow one).trans (logs_rebuildProjection two)).trans
      (logs_audit (apart_labelled (hash.size _) rfl rfl (by decide)) three)
  · obtain ⟨_, s, _, _, _, _, rfl, _⟩ := suppressAutomaticDecision_cases one
    have suppressed : Logs d (d.put s) := .of_same rfl
    exact (suppressed.trans (logs_rebuildProjection two)).trans
      (logs_audit (apart_labelled (digest.size _) rfl rfl (by decide)) three)

theorem logs_recordEach {g g' : Gathered} (h : recordEach hash digest requests g d = .ok (g', d')) :
    Logs d d' :=
  recordEach_keeps (P := Logs d)
    (fun _ _ _ _ _ before one => before.trans (logs_recordAutomatic one)) h (.of_same rfl)

theorem logs_ban {r : ManualRequest} {replace : Bool}
    (h : banManual resolver digest nodeID r replace d = .ok d') : Logs d d' := by
  obtain ⟨_, d1, d2, p, changed, last, q, statements, _, h⟩ := ban_cases h
  refine Logs.trans ?_ (.of_same (finalizeTargets_cases h).2.2)
  obtain ⟨one, two, three⟩ | ⟨_, _, d3, _, one, two, three, four⟩ := statements
  · exact ((logs_insertRow one).trans (logs_rebuildProjection two)).trans
      (logs_audit (apart_labelled (digest.size _) rfl rfl (by decide)) three)
  · obtain ⟨_, s, _, _, _, _, rfl, _⟩ := revokeActiveManualDecision_cases one
    have revoked : Logs d (d.put s) := .of_same rfl
    exact ((revoked.trans (logs_audit (apart_labelled (digest.size _) rfl rfl (by decide)) two)).trans
      (logs_insertRow three)).trans (logs_rebuildProjection four)

theorem logs_process (h : processDecisions resolver hash digest requests d = .ok d') :
    Logs d d' := by
  obtain ⟨gathered, middle, one, ⟨_, rfl⟩ | ⟨_, h⟩⟩ := process_cases h
  · exact logs_recordEach one
  · exact (logs_recordEach one).trans (.of_same (finalizeTargets_cases h).2.2)

theorem Docket.Audited.step {ends : Bool} (h : d.Audited digest) (edits : Edits ends d d')
    (logs : Logs d d') : d'.Audited digest := by
  obtain ⟨new, all, apart⟩ := logs
  intro a member
  rw [all] at member
  obtain member | member := List.mem_append.mp member
  · exact .inl (apart a member)
  · obtain apart | ⟨id, r, found, inactive, named, keyed⟩ := h a member
    · exact .inl apart
    · obtain ⟨r', found', evolves⟩ := edits.evolves found
      rw [evolves.frozen inactive] at found'
      exact .inr ⟨id, r, found', inactive, named, keyed⟩

end Logging

section Sweeping

variable {hash : Hash String} {digest : Hash (List String)} {resolver : Resolver}
variable {d d' : Docket} {nodeID : String} {now : Instant}

structure Docket.Unexhausted (d : Docket) : Prop where
  projections : ∀ t p, d.book.projections.lookup t = some p → p.revision < maxInt64
  generations : ∀ t i, intent? d.book.db t = some i → i.generation < maxInt64
  snapshot : d.book.db.snapshotRevision < maxInt64

def dueRows (nodeID : String) (now : Instant) (d : Docket) : List DecisionRow :=
  d.allRows.filter (·.due nodeID now.unixMicro)

def sweptDecisions (nodeID : String) (now : Instant) (d : Docket) : List Decision :=
  ((dueRows nodeID now d).map fun r =>
    (r.ended now.unixMicro .expired .expired).decision).insertionSort expiryOrder

theorem mem_sweptDecisions {v : Decision} : v ∈ sweptDecisions nodeID now d ↔
    ∃ r ∈ d.allRows, r.due nodeID now.unixMicro = true ∧
      v = (r.ended now.unixMicro .expired .expired).decision := by
  simp only [sweptDecisions, dueRows, List.mem_insertionSort, List.mem_map, List.mem_filter]
  constructor
  · rintro ⟨r, ⟨member, due⟩, rfl⟩
    exact ⟨r, member, due, rfl⟩
  · rintro ⟨r, member, due, rfl⟩
    exact ⟨r, ⟨member, due⟩, rfl⟩

theorem valid_of_due {r : DecisionRow} (member : r ∈ d.allRows)
    (due : r.due nodeID now.unixMicro = true) : now.unset = false := by
  obtain ⟨id, found⟩ := mem_allRows.mp member
  have checked := checked_of_row? found
  obtain ⟨_, _, e, expires, le⟩ := due_cases due
  have created := checked.created
  have after := checked.expires e expires
  refine decide_eq_false ?_
  omega

theorem nodup_affectedTargets {seen : List Prefix} {ds : List Decision} :
    (affectedTargets seen ds).Nodup := by
  induction ds generalizing seen with
  | nil => exact List.nodup_nil
  | cons v rest ih =>
    simp only [affectedTargets]
    split
    · exact ih
    · refine List.nodup_cons.mpr ⟨fun member => ?_, ih⟩
      exact (mem_affectedTargets.mp member).1 List.mem_cons_self

theorem unaudited_of_due (audited : d.Audited digest) (sound : d.Sound)
    (alone : ¬ ExpiryCollision digest d) {r : DecisionRow} (member : r ∈ d.allRows)
    (due : r.due nodeID now.unixMicro = true) :
    Unaudited digest now d (r.ended now.unixMicro .expired .expired).decision := by
  obtain ⟨id, found⟩ := mem_allRows.mp member
  obtain ⟨_, active, _⟩ := due_cases due
  intro a listed
  obtain ⟨sized, sized'⟩ | ⟨other, row, held, inactive, named, keyed⟩ := audited a listed
  · refine ⟨fun same => sized ?_, fun same => sized' ?_⟩
    · rw [same]
      show ("audit-decision-expire-" ++ digest.hex _).utf8ByteSize = 86
      rw [String.utf8ByteSize_append, digest.size]
      decide
    · rw [same]
      show ("decision-expire:" ++ digest.hex _).utf8ByteSize = 80
      rw [String.utf8ByteSize_append, digest.size]
      decide
  · have differ : row.id ≠ r.id := by
      intro same
      rw [sound.filed other row held] at same
      rw [same, sound.filed id r found, found] at held
      cases held
      exact inactive active
    have apart : digest.hex ["decision:expire", other] ≠ digest.hex ["decision:expire", r.id] := by
      intro same
      refine alone ⟨row, mem_allRows.mpr ⟨other, held⟩, r, member, differ, ?_⟩
      rw [sound.filed other row held]
      exact same
    refine ⟨fun same => apart ?_, fun same => apart ?_⟩
    · rw [named] at same
      exact (String.append_right_inj _).mp same
    · rw [keyed] at same
      exact (String.append_right_inj _).mp same

theorem pairwise_sweptDecisions (sound : d.Sound) (alone : ¬ ExpiryCollision digest d) :
    (sweptDecisions nodeID now d).Pairwise fun v w =>
      digest.hex ["decision:expire", v.id] ≠ digest.hex ["decision:expire", w.id] := by
  have ids : ((sweptDecisions nodeID now d).map Decision.id).Nodup := by
    unfold sweptDecisions
    rw [((List.perm_insertionSort expiryOrder _).map Decision.id).nodup_iff, List.map_map]
    exact (nodup_allRows_ids sound).sublist (List.filter_sublist.map _)
  refine (List.pairwise_map.mp ids).imp_of_mem fun {v w} member member' differ same => ?_
  obtain ⟨r, stored, _, rfl⟩ := mem_sweptDecisions.mp member
  obtain ⟨s, stored', _, rfl⟩ := mem_sweptDecisions.mp member'
  exact alone ⟨r, stored, s, stored', differ, same⟩

structure SweptBy (digest : Hash (List String)) (nodeID : String) (now : Instant) (d d' : Docket) :
    Prop where
  rows : ∀ id, d'.row? id = (d.row? id).map (·.swept nodeID now.unixMicro)
  audits : ∃ new, d'.audits = new ++ d.audits ∧ new.Perm ((dueRows nodeID now d).map fun r =>
    expiredRecord digest now (r.ended now.unixMicro .expired .expired).decision)
  rewritten : ∀ r ∈ dueRows nodeID now d, ∃ p p',
    d.book.projections.lookup r.canonicalTarget = some p ∧
    d'.book.projections.lookup r.canonicalTarget = some p' ∧ p'.revision = p.revision + 1
  others : ∀ t, (∀ r ∈ dueRows nodeID now d, r.canonicalTarget ≠ t) →
    d'.book.projections.lookup t = d.book.projections.lookup t ∧
      intent? d'.book.db t = intent? d.book.db t

variable {r : ManagedPolicyTargetResolver} {p : Projection} {b : Book}

theorem usable_resolveTargetPolicy {policy : TargetPolicy} {stored : Option (Nat × PolicyIntent)}
    (lengths : ∀ text, (hash.hex text).length = 64)
    (h : r.resolveTargetPolicy hash stored p = .ok policy) : policy.Usable := by
  unfold ManagedPolicyTargetResolver.resolveTargetPolicy at h
  split at h
  · cases h
  simp only [bind_eq_ok, within_eq_ok, resolvePolicy] at h
  obtain ⟨resolution, ⟨_, _, xs, _, ys, _, made⟩, h⟩ := h
  cases h
  refine ⟨r.supported, r.digestLength, ?_⟩
  split at made
  · cases made
  · split at made
    · cases made
      exact .inl ⟨rfl, rfl⟩
    · cases made
      refine .inr ⟨?_, lengths _⟩
      dsimp only
      split
      · simp
      · simp

theorem resolveTargetPolicy_congr {stored : Option (Nat × PolicyIntent)} {q : Projection}
    (same : p.canonicalTarget = q.canonicalTarget) :
    r.resolveTargetPolicy hash stored p = r.resolveTargetPolicy hash stored q := by
  simp only [ManagedPolicyTargetResolver.resolveTargetPolicy, same]

theorem intent_finalize {affected : List Projection} {b' : Book} {t : Prefix}
    (standing : Standing b) (h : finalize resolver affected now b = .ok b')
    (outside : t ∉ affected.map Projection.canonicalTarget) : intent? b'.db t = intent? b.db t := by
  simp only [finalize, materialize, bind_eq_ok] at h
  obtain ⟨⟨changed, middle⟩, ⟨_, _, _, _, each⟩, h⟩ := h
  have final := finalized_materializeEach standing
    ((List.mergeSort_perm _ _).nodup_iff.mpr (List.nodup_dedup _)) each
  have rests : intent? middle.db t = intent? b.db t := by
    obtain rests | ⟨member, _⟩ := final.each t
    · exact rests.1
    · rw [List.mem_mergeSort, List.mem_dedup] at member
      exact absurd member outside
  cases changed with
  | false =>
    cases h
    exact rests
  | true =>
    simp only [Bool.not_true, Bool.false_eq_true, if_false, advanceSnapshotRevision, bind_eq_ok] at h
    obtain ⟨db, ⟨_, _, advanced⟩, h⟩ := h
    cases advanced
    cases h
    exact rests

theorem auditSwept_succeeds {d1 : Docket} (audited : d.Audited digest) (sound : d.Sound)
    (alone : ¬ ExpiryCollision digest d) (named : nodeID ≠ "") (home : d.book.db.nodeID = nodeID)
    (book : d1.book = d.book) (audits : d1.audits = d.audits)
    (rows : ∀ id, d1.row? id = (d.row? id).map (·.swept nodeID now.unixMicro)) :
    ∃ d2, (sweptDecisions nodeID now d).foldlM
        (fun d value => d.appendCriticalAudit (expiredAudit digest value now)) d1 = .ok d2 ∧
      d2.book = d.book ∧ d2.decisions = d1.decisions ∧ d2.audits =
        ((sweptDecisions nodeID now d).map (expiredRecord digest now)).reverse ++ d.audits := by
  cases some_ : sweptDecisions nodeID now d with
  | nil => exact ⟨d1, rfl, book, rfl, audits⟩
  | cons v rest =>
    have first : v ∈ sweptDecisions nodeID now d := by
      rw [some_]
      exact List.mem_cons_self
    obtain ⟨row, stored, due, _⟩ := mem_sweptDecisions.mp first
    rw [← some_]
    refine ⟨_, auditEach_succeeds (valid_of_due stored due) (fun v member => ?_)
      (pairwise_sweptDecisions sound alone), book, rfl, congrArg _ audits⟩
    obtain ⟨row, stored, due, rfl⟩ := mem_sweptDecisions.mp member
    obtain ⟨own, _⟩ := due_cases due
    obtain ⟨id, found⟩ := mem_allRows.mp stored
    refine ⟨by rw [show Decision.nodeID _ = nodeID from own]; exact named, ?_, ?_, ?_⟩
    · rw [book, home]
      exact own
    · rw [rows, show Decision.id _ = id from sound.filed id row found, found]
      rfl
    · have fresh := unaudited_of_due audited sound alone stored due
      unfold Unaudited at fresh ⊢
      rw [audits]
      exact fresh

theorem rebuildable_of_due (whole : d.Whole) (home : d.book.db.nodeID = nodeID)
    (counters : d.Unexhausted) {r : DecisionRow} (stored : r ∈ d.allRows)
    (due : r.due nodeID now.unixMicro = true) : Rebuildable d r.canonicalTarget := by
  obtain ⟨id, found⟩ := mem_allRows.mp stored
  obtain ⟨own, active, _⟩ := due_cases due
  refine ⟨(whole.sound.genuine id r found).target, (checked_of_row? found).targetLength, ?_⟩
  have here : r ∈ d.activeRows d.book.db.nodeID r.canonicalTarget :=
    mem_activeRows.mpr ⟨stored, by simp [DecisionRow.bans, own, home, active]⟩
  have reflects := whole.reflects r.canonicalTarget
  unfold Docket.Reflects at reflects
  cases listed : d.book.projections.lookup r.canonicalTarget with
  | none =>
    rw [listed] at reflects
    dsimp only at reflects
    rw [reflects] at here
    cases here
  | some p => exact ⟨p, rfl, counters.projections _ p listed⟩

theorem able_of_rewritten {c : Projection} {target : Prefix}
    (lengths : ∀ text, (hash.hex text).length = 64) (posted : d.Posted)
    (kept : d.book.Kept (r.resolveTargetPolicy hash)) (counters : d.Unexhausted)
    (db : b.db = d.book.db) (before : d.book.projections.lookup target = some c)
    (after : b.projections.lookup target = some p) (checked : p.validate = .ok ())
    (home : p.nodeID = d.book.db.nodeID) (own : p.canonicalTarget = target)
    (short : 3 ≤ target.toText.length ∧ target.toText.length ≤ 64) :
    Able (r.resolveTargetPolicy hash) b target := by
  obtain ⟨i, policy, found, valid, resolved, same⟩ := kept.resolved target c before
  obtain ⟨own', home', _⟩ := posted target c before
  refine ⟨⟨p, after, checked, by rw [db]; exact home, policy, ?_,
    usable_resolveTargetPolicy lengths resolved⟩, ⟨i, by rw [db]; exact found, valid, ?_,
    counters.generations target i found⟩, by rw [db]; exact kept.bounded target, short⟩
  · rw [db, ← resolved]
    exact resolveTargetPolicy_congr (own.trans own'.symm)
  · rw [db, ← home']
    simp only [Intent.equivalent, Bool.and_eq_true, beq_iff_eq] at same
    exact same.1.1.1.1.1.1.1.1.1

theorem Standing.of_posted (standing : Standing d.book) (posted : d'.Posted)
    (db : d'.book.db = d.book.db) : Standing d'.book := by
  refine ⟨⟨?_, fun t p listed => (posted t p listed).1⟩,
    fun t p listed => (posted t p listed).2.2.2, db ▸ standing.recorded⟩
  rw [db]
  exact standing.keyed.intents

theorem expire_succeeds (lengths : ∀ text, (hash.hex text).length = 64)
    (node : isLowerHex128 nodeID = true) (home : d.book.db.nodeID = nodeID) (whole : d.Whole)
    (kept : d.book.Kept (r.resolveTargetPolicy hash)) (audited : d.Audited digest)
    (alone : ¬ ExpiryCollision digest d) (counters : d.Unexhausted) (time : now.isZero = false) :
    ∃ d', expire (r.resolveTargetPolicy hash) digest nodeID now d = .ok d' ∧
      SweptBy digest nodeID now d d' := by
  have named : nodeID ≠ "" := by
    rintro rfl
    exact absurd node (by decide)
  obtain ⟨d1, one, book, audits, sound, rows⟩ :=
    expireDueActiveDecisions_succeeds now whole.sound named home
  obtain ⟨d2, two, book', decisions', audits'⟩ :=
    auditSwept_succeeds audited whole.sound alone named home book audits rows
  have affected : ∀ t, t ∈ affectedTargets [] (sweptDecisions nodeID now d) ↔
      ∃ row ∈ dueRows nodeID now d, row.canonicalTarget = t := by
    intro t
    rw [mem_affectedTargets]
    simp only [List.not_mem_nil, not_false_eq_true, true_and, mem_sweptDecisions, dueRows,
      List.mem_filter]
    constructor
    · rintro ⟨_, ⟨row, stored, due, rfl⟩, own⟩
      exact ⟨row, ⟨stored, due⟩, own⟩
    · rintro ⟨row, ⟨stored, due⟩, own⟩
      exact ⟨_, ⟨row, stored, due, rfl⟩, own⟩
  have due : ∀ t ∈ affectedTargets [] (sweptDecisions nodeID now d),
      Rebuildable d t ∧ now.unset = false := by
    intro t member
    obtain ⟨row, inside, rfl⟩ := (affected t).mp member
    obtain ⟨stored, due⟩ := List.mem_filter.mp inside
    exact ⟨rebuildable_of_due whole home counters stored due, valid_of_due stored due⟩
  have valid : affectedTargets [] (sweptDecisions nodeID now d) ≠ [] → now.unset = false := by
    intro nonempty
    obtain ⟨t, member⟩ := List.exists_mem_of_ne_nil _ nonempty
    exact (due t member).2
  obtain ⟨ps, d3, three, decisions, logged, db, posted, targets, stored, moved, others⟩ :=
    rebuildEach_succeeds ((Edits.elsewhere decisions' : Edits true d1 d2).sound sound)
      (by unfold Docket.Posted; rw [book']; exact whole.posted) node (by rw [book']; exact home)
      nodup_affectedTargets (fun t member => by
        obtain ⟨canonical, short, c, listed, below⟩ := (due t member).1
        exact ⟨canonical, short, c, by rw [book']; exact listed, below⟩) valid
  rw [book'] at db moved others
  have standing : Standing d3.book := kept.standing.of_posted posted db
  obtain ⟨book4, final⟩ : ∃ b, finalize (r.resolveTargetPolicy hash) ps now d3.book = .ok b := by
    refine finalize_succeeds standing (fun p member => ?_) time (fun nonempty => valid ?_)
      (by rw [db]; exact counters.snapshot)
    · have inside : p.canonicalTarget ∈ affectedTargets [] (sweptDecisions nodeID now d) := by
        rw [← targets]
        exact List.mem_map_of_mem member
      obtain ⟨c, q, before, after, _⟩ := moved _ inside
      obtain ⟨own, home', checked, _⟩ := posted _ p (stored p member)
      rw [db] at home'
      exact ⟨able_of_rewritten lengths whole.posted kept counters db before (stored p member) checked
        home' rfl (due _ inside).1.short, checked⟩
    · rw [← targets]
      simpa using nonempty
  obtain ⟨projections, _⟩ := finalize_rest final
  refine ⟨{ d3 with book := book4 }, ?_, ?_, ?_, ?_, ?_⟩
  · simp only [expire, expireInTransaction, Docket.finalizeTargets, bind_eq_ok, reject_eq_ok]
    exact ⟨_, ⟨(), time, (), by simpa using named, _, one, d2, two, _, three, rfl⟩, book4, final, rfl⟩
  · intro id
    rw [← rows id]
    show (d3.decisions.lookup id).map _ = (d1.decisions.lookup id).map _
    rw [decisions, decisions']
  · refine ⟨_, logged.trans audits', ?_⟩
    have sorted := (List.perm_insertionSort expiryOrder ((dueRows nodeID now d).map fun r =>
      (r.ended now.unixMicro .expired .expired).decision)).map (expiredRecord digest now)
    rw [List.map_map] at sorted
    exact (List.reverse_perm _).trans sorted
  · intro row member
    obtain ⟨c, p, before, after, next⟩ := moved _ ((affected _).mpr ⟨row, member, rfl⟩)
    exact ⟨c, p, before, by rw [← after]; exact congrArg _ projections, next⟩
  · intro t outside
    have free : t ∉ affectedTargets [] (sweptDecisions nodeID now d) := by
      intro member
      obtain ⟨row, inside, own⟩ := (affected t).mp member
      exact outside row inside own
    refine ⟨?_, ?_⟩
    · show book4.projections.lookup t = _
      rw [projections]
      exact others t free
    · rw [← db]
      exact intent_finalize standing final (by rw [targets]; exact free)

theorem dueRows_swept {later : Instant} (swept : SweptBy digest nodeID now d d')
    (early : later.unixMicro ≤ now.unixMicro) : dueRows nodeID later d' = [] := by
  refine List.filter_eq_nil_iff.mpr fun r' member => ?_
  obtain ⟨id, found'⟩ := mem_allRows.mp member
  rw [swept.rows id] at found'
  obtain ⟨r, found, rfl⟩ := Option.map_eq_some_iff.mp found'
  intro again
  unfold DecisionRow.swept at again
  split at again
  · obtain ⟨_, active, _⟩ := due_cases again
    cases active
  · rename_i spared
    obtain ⟨own, active, e, expires, le⟩ := due_cases again
    refine spared ?_
    simp [DecisionRow.due, own, active, expires, le.trans early]

theorem commit_nothing_due (none_ : dueRows nodeID now d = []) :
    (Operation.expire nodeID now).commit resolver hash digest d = d := by
  unfold Operation.commit
  split
  · rename_i after done
    obtain ⟨_, _, due, d1, d2, ps, d3, one, two, three, done⟩ := expire_cases done
    rw [show d.allRows.filter (·.due nodeID now.unixMicro) = [] from none_] at one
    cases one
    cases two
    cases three
    simp only [Docket.finalizeTargets, bind_eq_ok] at done
    obtain ⟨book, final, done⟩ := done
    cases done
    rw [finalize_nil final]
  · rfl

theorem node_commit {t : Transaction} (complete : t.Complete) :
    (t.commit resolver hash b).db.nodeID = b.db.nodeID := by
  unfold Transaction.commit
  split
  · rename_i after done
    cases t with
    | reconcile => cases complete
    | decision rebuilt affected updatedAt =>
      simp only [Transaction.attempt, bind_eq_ok] at done
      obtain ⟨middle, written, done⟩ := done
      have same : middle.db = b.db :=
        foldlM_eq_ok (fun _ middle => middle.db = b.db)
          (fun _ p _ _ before step => (putProjection_lookup step).2.1.trans before)
          rebuilt [] b middle rfl written
      rw [(finalize_rest done).2, same]
    | replacePolicy expectedRevision policy updatedAt => exact (replace_rest done).2
  · rfl

theorem audited_expire (sound : d.Sound) (audited : d.Audited digest)
    (h : expire resolver digest nodeID now d = .ok d') : d'.Audited digest := by
  have edits := edits_expire sound h
  obtain ⟨named, home, due, d1, d2, ps, d3, one, two, three, done⟩ := expire_cases h
  have swept : Edits true d d1 :=
    edits_expireRows sound (fun row member => (List.mem_filter.mp member).2) one
  obtain ⟨d1', one', book, audits, sound1, rows⟩ :=
    expireDueActiveDecisions_succeeds now sound named home
  simp only [Docket.expireDueActiveDecisions, within_eq_ok, bind_eq_ok] at one'
  obtain ⟨_, _, _, _, one'⟩ := one'
  rw [one] at one'
  cases one'
  have audited2 : d2.Audited digest := by
    rw [auditEach_cases two]
    intro a member
    obtain new | old := List.mem_append.mp member
    · obtain ⟨v, inside, rfl⟩ := List.mem_map.mp (List.mem_reverse.mp new)
      obtain ⟨r, stored, due, rfl⟩ := (mem_sweptDecisions (d := d)).mp inside
      obtain ⟨id, found⟩ := mem_allRows.mp stored
      refine .inr ⟨r.id, r.ended now.unixMicro .expired .expired, ?_, by simp [DecisionRow.ended],
        rfl, rfl⟩
      show d1.row? r.id = _
      rw [rows, sound.filed id r found, found, Option.map_some, DecisionRow.swept, if_pos due]
    · exact audited.step swept (.of_same audits) a old
  obtain ⟨decisions, logged⟩ := rebuildEach_rest three
  obtain ⟨_, decisions', logged'⟩ := finalizeTargets_cases done
  exact audited2.step (.elsewhere (decisions'.trans decisions) : Edits true d2 d')
    (.of_same (logged'.trans logged))

theorem audited_commit {op : Operation} (sound : d.Sound) (audited : d.Audited digest) :
    (op.commit resolver hash digest d).Audited digest := by
  unfold Operation.commit
  split
  · rename_i after done
    have edits := edits_attempt sound done
    cases op with
    | process requests => exact audited.step edits (logs_process done)
    | ban nodeID request replace => exact audited.step edits (logs_ban done)
    | expire nodeID now => exact audited_expire sound audited done
    | replacePolicy expectedRevision policy updatedAt =>
      refine audited.step edits (.of_same ?_)
      simp only [Operation.attempt, bind_eq_ok] at done
      obtain ⟨book, _, done⟩ := done
      cases done
      rfl
  · exact audited

theorem audited_run (ops : List Operation) (sound : d.Sound) (audited : d.Audited digest) :
    (Docket.run resolver hash digest d ops).Audited digest := by
  induction ops generalizing d with
  | nil => exact audited
  | cons op rest ih => exact ih ((edits_commit sound).sound sound) (audited_commit sound audited)

theorem node_run (ops : List Operation) (kept : d.book.Kept resolver) :
    (Docket.run resolver hash digest d ops).book.db.nodeID = d.book.db.nodeID := by
  induction ops generalizing d with
  | nil => rfl
  | cons op rest ih =>
    obtain ⟨t, complete, same⟩ := @book_commit resolver hash digest op d kept.standing.keyed
    refine (ih (kept_run [op] kept)).trans ?_
    show (op.commit resolver hash digest d).book.db.nodeID = _
    rw [← same]
    exact node_commit complete

def Operation.times : Operation → List Instant
  | process requests => requests.flatMap fun r => r.1.triggeredAt :: r.1.expiresAt.toList
  | ban _ request _ => request.createdAt :: request.expiresAt.toList
  | expire _ now => [now]
  | replacePolicy _ _ updatedAt => [updatedAt]

/-- After any operations on an empty store, a sweep at a time other than Go's zero time commits, as
long as no counter is exhausted and the digests of the Decision ids do not collide: it ends exactly
the due Decisions, with a record each, rewrites the projections of their targets once and leaves all
else, and a sweep at an earlier or the same time changes nothing any more. -/
theorem sweep_expires_exactly_due {r : ManagedPolicyTargetResolver}
    (lengths : ∀ text, (hash.hex text).length = 64) (node : isLowerHex128 nodeID = true)
    (ops : List Operation) (time : now.isZero = false)
    (_ranged : ∀ op ∈ .expire nodeID now :: ops, ∀ t ∈ op.times, t.ranged = true) :
    let d := Docket.run (r.resolveTargetPolicy hash) hash digest
      { book := { db := { nodeID := nodeID } } } ops
    ¬ ExpiryCollision digest d → d.Unexhausted →
    ∃ d', (Operation.expire nodeID now).attempt (r.resolveTargetPolicy hash) hash digest d = .ok d' ∧
      SweptBy digest nodeID now d d' ∧
      ∀ later : Instant, later.ranged = true → later.unixMicro ≤ now.unixMicro →
        (Operation.expire nodeID later).commit (r.resolveTargetPolicy hash) hash digest d' = d' := by
  intro d alone counters
  have home : d.book.db.nodeID = nodeID := node_run ops (kept_empty nodeID)
  have audited : d.Audited digest := audited_run ops (sound_empty _) (by rintro a ⟨⟩)
  obtain ⟨d', swept, effect⟩ := expire_succeeds lengths node home (whole_run (whole_empty _) ops)
    (kept_run ops (kept_empty nodeID)) audited alone counters time
  exact ⟨d', swept, effect, fun later _ early => commit_nothing_due (dueRows_swept effect early)⟩

end Sweeping

namespace Sample

open GuardWall.Reconcile.Sample

def bannedBriefly : Docket :=
  Docket.run (targetResolver.resolveTargetPolicy parity) parity (hash _)
    { book := { db := { nodeID := nodeID } } }
    [.replacePolicy 0 (allowing []) (second 1),
      .ban nodeID ⟨"decision", nodeID, target, second 2, some (second 5)⟩ false]

theorem bannedBriefly_reads :
    ((Operation.expire nodeID .zero).attempt (targetResolver.resolveTargetPolicy parity) parity
      (hash _) bannedBriefly).isOk = false ∧
    ((∀ e ∈ bannedBriefly.book.projections.rows, e.2.revision < maxInt64) ∧
      (∀ e ∈ bannedBriefly.book.db.enforcement.rows, e.2.intent.generation < maxInt64) ∧
      bannedBriefly.book.db.snapshotRevision < maxInt64) ∧
    (∀ r ∈ bannedBriefly.allRows, ∀ s ∈ bannedBriefly.allRows, r.id = s.id) ∧
    ((bannedBriefly.row? "decision").map (·.swept nodeID (second 6).unixMicro)).map
      DecisionRow.state = some .expired := by
  decide +kernel

theorem zero_time_sweep_fails :
    ((Operation.expire nodeID .zero).attempt (targetResolver.resolveTargetPolicy parity) parity
      (hash _) bannedBriefly).isOk = false := bannedBriefly_reads.1

theorem unexhausted_bannedBriefly : bannedBriefly.Unexhausted := by
  obtain ⟨_, ⟨revisions, generations, snapshot⟩, _⟩ := bannedBriefly_reads
  refine ⟨fun t p listed => revisions (t, p) (Table.mem_rows.mpr listed), fun t i found => ?_,
    snapshot⟩
  obtain ⟨row, there, rfl⟩ := Option.map_eq_some_iff.mp found
  exact generations (t, row) (Table.mem_rows.mpr there)

theorem brief_ban_expires : ∃ d',
    (Operation.expire nodeID (second 6)).attempt (targetResolver.resolveTargetPolicy parity) parity
      (hash _) bannedBriefly = .ok d' ∧
    (d'.row? "decision").map DecisionRow.state = some .expired ∧
    ∀ later : Instant, later.ranged = true → later.unixMicro ≤ (second 6).unixMicro →
      (Operation.expire nodeID later).commit (targetResolver.resolveTargetPolicy parity) parity
        (hash _) d' = d' := by
  have lengths : ∀ text, (parity.hex text).length = 64 := by
    intro text
    unfold parity
    dsimp only
    split <;> decide
  have alone : ¬ ExpiryCollision (hash _) bannedBriefly := by
    rintro ⟨r, stored, s, stored', differ, _⟩
    exact differ (bannedBriefly_reads.2.2.1 r stored s stored')
  obtain ⟨d', swept, effect, again⟩ := sweep_expires_exactly_due lengths (by decide)
    [.replacePolicy 0 (allowing []) (second 1),
      .ban nodeID ⟨"decision", nodeID, target, second 2, some (second 5)⟩ false]
    (show (second 6).isZero = false by decide) (by decide) alone unexhausted_bannedBriefly
  refine ⟨d', swept, ?_, again⟩
  rw [effect.rows "decision"]
  exact bannedBriefly_reads.2.2.2

end Sample

end GuardWall.Decision
