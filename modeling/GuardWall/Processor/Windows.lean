import GuardWall.Processor.Membership

/-! What can be read from the Ledger: the committed contributions while nothing is reserved, and
nothing of a window whose attempt has an unknown commit. -/
namespace GuardWall.Processor

open GuardWall.Core GuardWall.Foundation GuardWall.Detection

def Detector.contributionsOf (d : Detector) (n : Nat) : List Candidate :=
  ((d.attempts.lookup n).map Prod.snd).getD []

/-- The contributions of the attempts whose transaction became durable. -/
def Detector.contributions (d : Detector) : List Candidate := d.landed.flatMap d.contributionsOf

/-- The commit of an attempt was reported unknown, and no receipt has decided it: its call is
about to read the receipt, or the reservation is deferred until the delivery comes again. -/
def Awaits (b : ProcBoard) (deliveryID : String) (n : Nat) : Prop :=
  (∃ a, b.deferred.lookup deliveryID = some a ∧ a.number = n) ∨
    ∃ id call channel a, b.calls.lookup id = some call ∧ call.delivery.id = deliveryID ∧
      call.point = .inside channel (.ambiguous a) ∧ a.number = n

section Receipts

variable {hash : DeliveryHash} {b b' : ProcBoard} {landed : List Nat} {id : Nat} {call : ProcCall}
  {a : Attempt} {m : ProcMove} {deliveryID : String} {n : Nat}

/-- A receipt check of the delivery has resolved the attempt as the receipt says. -/
def DecidedBy (hash : DeliveryHash) (b b' : ProcBoard) (deliveryID : String) (n : Nat) : Prop :=
  ∃ receipt, b.findReceipt hash deliveryID = .ok receipt ∧
    verdict n b'.trace = some receipt.isSome

theorem finish_reservations (b : ProcBoard) (id : Nat) (call : ProcCall) (channel : Nat)
    (outcome : Outcome) : (b.finish id call channel outcome).trace = b.trace ∧
      (b.finish id call channel outcome).deferred = b.deferred := by
  unfold ProcBoard.finish ProcBoard.release
  split <;> exact ⟨rfl, rfl⟩

theorem verdict_resolve (b : ProcBoard) (deliveryID : String) (a : Attempt) (confirmed : Bool)
    (undecided : verdict a.number b.trace = none) :
    verdict a.number (b.resolve deliveryID a confirmed).trace = some confirmed := by
  simp [ProcBoard.resolve, verdict_resolved, undecided]

theorem verdict_resolvePending (deferred : b.deferred.lookup call.delivery.id = some a)
    (undecided : verdict a.number b.trace = none) (committed : Bool) :
    verdict a.number (b.resolvePending call committed).trace = some committed := by
  unfold ProcBoard.resolvePending
  dsimp only
  cases b.pending.lookup (call.coordinator, call.delivery.id) with
  | none => simp [ProcBoard.resolveSome, ProcBoard.resolve, deferred, verdict_resolved, undecided]
  | some a' =>
    by_cases same : a = a'
    · subst same
      simp [ProcBoard.resolveSome, ProcBoard.resolve, deferred, verdict_resolved, undecided]
    · by_cases number : a'.number = a.number <;>
        simp [ProcBoard.resolveSome, ProcBoard.resolve, deferred, same, verdict_resolved, undecided,
          number]

theorem deferred_check (deferred : b.deferred.lookup call.delivery.id = some a)
    (undecided : verdict a.number b.trace = none) (channel : Nat) (failed notifyFailed : Bool) :
    (b.check hash id call channel failed notifyFailed).deferred.lookup call.delivery.id = some a ∨
      DecidedBy hash b (b.check hash id call channel failed notifyFailed) call.delivery.id
        a.number := by
  have kept (err : ProcessError) :
      (b.fail id call channel err).deferred.lookup call.delivery.id = some a := by
    rw [ProcBoard.fail, (finish_reservations ..).2, deferred]
  unfold ProcBoard.check
  split
  · exact .inl (kept _)
  · cases read : b.findReceipt hash call.delivery.id with
    | error fault => exact .inl (kept _)
    | ok receipt =>
      cases receipt with
      | none => exact .inr ⟨none, read, verdict_resolvePending deferred undecided false⟩
      | some receipt =>
        dsimp only
        cases completionFromReceipt hash call.delivery receipt with
        | error fault => exact .inl (kept _)
        | ok completion =>
          refine .inr ⟨some receipt, read, ?_⟩
          dsimp only
          rw [ProcBoard.complete, (finish_reservations ..).1]
          exact verdict_resolvePending deferred undecided true

/-- A deferred reservation stays until a call of its delivery has checked the receipt: any later
point behind the gate is reached with nothing deferred. -/
theorem deferred_act (h : Ordered b landed none) (found : b.calls.lookup id = some call)
    (deferred : b.deferred.lookup call.delivery.id = some a)
    (acted : b.act hash id call m call.point = some b') :
    b'.deferred.lookup call.delivery.id = some a ∨
      DecidedBy hash b b' call.delivery.id a.number := by
  have past {channel : Nat} {stage : Stage} (at_ : call.point = .inside channel stage)
      (entered : stage ≠ .entered) : False := by
    have clear := ((h.inside id call channel stage (by simp) found at_).clear entered).1
    rw [deferred] at clear
    cases clear
  unfold ProcBoard.act at acted
  split at acted
  · cases acted
    left
    unfold ProcBoard.acquireFlight
    split <;> exact deferred
  · split at acted
    · cases acted
      exact .inl deferred
    · cases acted
  · cases acted
    exact .inl deferred
  · split at acted
    · cases acted
      exact .inl deferred
    · cases acted
  · cases acted
    exact .inl deferred
  · split at acted
    · split at acted
      · cases acted
        exact .inl deferred
      · cases acted
    · cases acted
  · cases acted
    exact deferred_check deferred (h.deferred _ a deferred).1 _ _ _
  iterate 8
    · rename_i at_
      exact (past at_ (by simp)).elim
  · cases acted
    exact .inl deferred
  · cases acted

theorem ambiguous_readback {channel : Nat} (h : Ordered b landed none)
    (found : b.calls.lookup id = some call) (at_ : call.point = .inside channel (.ambiguous a))
    (failed notifyFailed : Bool) :
    (b.readback hash id call channel a failed notifyFailed).deferred.lookup call.delivery.id =
        some a ∨
      DecidedBy hash b (b.readback hash id call channel a failed notifyFailed) call.delivery.id
        a.number := by
  have inside := h.inside id call channel _ (by simp) found at_
  obtain ⟨undeferred, forgotten⟩ := inside.clear (by simp)
  have undecided := (inside.attempt a rfl).1
  have remembered (err : ProcessError) : ((b.rememberPending call a).fail id call channel
      err).deferred.lookup call.delivery.id = some a := by
    rw [ProcBoard.fail, (finish_reservations ..).2]
    simp [ProcBoard.rememberPending, undeferred, forgotten, ProcBoard.resolveSome]
  unfold ProcBoard.readback
  split
  · exact .inl (remembered _)
  · cases read : b.findReceipt hash call.delivery.id with
    | error fault => exact .inl (remembered _)
    | ok receipt =>
      cases receipt with
      | none =>
        refine .inr ⟨none, read, ?_⟩
        dsimp only
        rw [ProcBoard.abortWith, ProcBoard.fail, (finish_reservations ..).1]
        exact verdict_resolve b _ a false undecided
      | some receipt =>
        dsimp only
        cases completionFromReceipt hash call.delivery receipt with
        | error fault => exact .inl (remembered _)
        | ok completion =>
          refine .inr ⟨some receipt, read, ?_⟩
          dsimp only
          rw [ProcBoard.complete, (finish_reservations ..).1]
          exact verdict_resolve b _ a true undecided

theorem ambiguous_act {channel : Nat} (h : Ordered b landed none)
    (found : b.calls.lookup id = some call) (at_ : call.point = .inside channel (.ambiguous a))
    (acted : b.act hash id call m call.point = some b') :
    Awaits b' call.delivery.id a.number ∨ DecidedBy hash b b' call.delivery.id a.number := by
  rw [at_] at acted
  cases m with
  | readback _ failed notifyFailed =>
    cases acted
    obtain deferred | decided := ambiguous_readback h found at_ failed notifyFailed
    · exact .inl (.inl ⟨a, deferred, rfl⟩)
    · exact .inr decided
  | _ => cases acted

theorem awaits_step (h : Ordered b landed none) (awaits : Awaits b deliveryID n)
    (stepped : b.step hash m = some b') :
    Awaits b' deliveryID n ∨ DecidedBy hash b b' deliveryID n := by
  cases moving : b.calls.lookup m.id with
  | none =>
    unfold ProcBoard.step at stepped
    rw [moving] at stepped
    split at stepped
    · rename_i id _ _ _
      cases stepped
      left
      obtain deferred | ⟨id', call, channel, a, found, rest⟩ := awaits
      · exact .inl deferred
      · refine .inr ⟨id', call, channel, a, Table.lookup_insert.trans ?_, rest⟩
        rw [if_neg, found]
        rintro rfl
        rw [show b.calls.lookup id' = none from moving] at found
        cases found
    · rename_i same
      cases same
    · cases stepped
  | some call =>
    have acted : b.act hash m.id call m call.point = some b' := by
      unfold ProcBoard.step at stepped
      rw [moving] at stepped
      exact stepped
    by_cases prepares : ∃ kind failure, m = .prepare m.id (some (kind, failure))
    · obtain ⟨kind, failure, same⟩ := prepares
      rw [same] at stepped
      obtain ⟨call, channel, found, at_, rfl⟩ := Detector.Consistent.prepared stepped
      left
      obtain deferred | ⟨id', call', channel', a, found', own, at', number⟩ := awaits
      · exact .inl deferred
      · refine .inr ⟨id', call', channel', a, Table.lookup_insert.trans ?_, own, at', number⟩
        rw [if_neg, found']
        rintro rfl
        rw [found] at found'
        cases found'
        rw [at_] at at'
        cases at'
    · have extends_ : Extends b b' m.id call.delivery.id :=
        Extends.act call (fun terminal same => prepares ⟨terminal.1, terminal.2, same⟩) acted
      obtain ⟨a, deferred, rfl⟩ | ⟨id', call', channel, a, found, rfl, at_, rfl⟩ := awaits
      · by_cases own : deliveryID = call.delivery.id
        · subst own
          obtain kept | decided := deferred_act h moving deferred acted
          · exact .inl (.inl ⟨a, kept, rfl⟩)
          · exact .inr decided
        · exact .inl (.inl ⟨a, (extends_.deferred deliveryID own).trans deferred, rfl⟩)
      · by_cases own : id' = m.id
        · subst own
          rw [moving] at found
          cases found
          exact ambiguous_act h moving at_ acted
        · exact .inl (.inr ⟨id', call', channel, a, (extends_.calls id' own).trans found, rfl, at_,
            rfl⟩)

end Receipts

namespace Detector.Consistent

variable {hash : DeliveryHash} {d d' : Detector} {deliveryID : String} {n : Nat}

theorem bound (h : d.Consistent) (issued : n < d.board.attempts) :
    ∃ number, d.attempts.lookup n = some (number, d.contributionsOf n) := by
  obtain ⟨⟨number, cs⟩, found⟩ := Option.isSome_iff_exists.mp ((h.numbered n).mpr issued)
  exact ⟨number, by simp [Detector.contributionsOf, found]⟩

section Quiet

variable (h : d.Consistent) (quiet : ∀ number, d.ledger.reservations.lookup number = none)
include h quiet

theorem confirmed_iff : verdict n d.board.trace = some true ↔ n ∈ d.landed := by
  constructor
  · intro said
    exact ((h.ordered.judged n true said).2).mp rfl
  · intro landed
    obtain ⟨number, found⟩ := h.bound (h.ordered.numbered n landed)
    cases said : verdict n d.board.trace with
    | none =>
      obtain ⟨r, reserved, _⟩ := h.accounts.standing n number _ found said
      rw [quiet] at reserved
      cases reserved
    | some confirmed => rw [((h.ordered.judged n confirmed said).2).mpr landed]

theorem nodup_contributions : (d.contributions.map Candidate.key).Nodup := by
  unfold Detector.contributions
  rw [List.map_flatMap, List.nodup_flatMap]
  refine ⟨fun n landed => ?_, h.ordered.nodup.imp_of_mem fun {n n'} landed landed' differ => ?_⟩
  · obtain ⟨number, found⟩ := h.bound (h.ordered.numbered n landed)
    exact h.accounts.distinct n number _ found
  · obtain ⟨number, found⟩ := h.bound (h.ordered.numbered n landed)
    obtain ⟨number', found'⟩ := h.bound (h.ordered.numbered n' landed')
    intro key left right
    obtain ⟨c, member, rfl⟩ := List.mem_map.mp left
    obtain ⟨c', member', same⟩ := List.mem_map.mp right
    exact differ (h.accounts.disjoint n n' number number' _ _ c c' found found'
      ((h.confirmed_iff quiet).mpr landed) ((h.confirmed_iff quiet).mpr landed') member member'
      same.symm)

theorem memberships_perm :
    d.ledger.memberships.rows.Perm (d.contributions.map fun c => (c.key, c.record)) := by
  have rows : d.ledger.memberships.rows.Nodup := (Table.nodup_rows_keys _).of_map
  have listed : (d.contributions.map fun c => (c.key, c.record)).Nodup := by
    refine List.Nodup.of_map Prod.fst ?_
    rw [List.map_map]
    exact h.nodup_contributions quiet
  rw [List.perm_ext_iff_of_nodup rows listed]
  rintro ⟨key, m⟩
  rw [Table.mem_rows, h.accounts.members]
  simp only [List.mem_map, Detector.contributions, List.mem_flatMap, Prod.mk.injEq]
  constructor
  · rintro ⟨n, number, cs, c, found, said, member, rfl, rfl⟩
    exact ⟨c, ⟨n, (h.confirmed_iff quiet).mp said, by simpa [Detector.contributionsOf, found]⟩,
      rfl, rfl⟩
  · rintro ⟨c, ⟨n, landed, member⟩, rfl, rfl⟩
    obtain ⟨number, found⟩ := h.bound (h.ordered.numbered n landed)
    exact ⟨n, number, _, c, found, (h.confirmed_iff quiet).mpr landed, member, rfl, rfl⟩

theorem guards_free {w : WindowKey} {slot : WindowSlot}
    (found : d.ledger.windows.lookup w = some slot) : slot.holder = none := by
  cases held : slot.holder with
  | none => rfl
  | some number =>
    obtain ⟨r, reserved, _⟩ := h.accounts.sound.held w slot number found held
    rw [quiet] at reserved
    cases reserved

theorem snapshot_counts (w : WindowKey) : d.ledger.snapshot w =
    some ⟨(d.ledger.members w).length,
      ((d.ledger.members w).map MemberRecord.distinctKey).dedup.length⟩ := by
  unfold Ledger.snapshot
  cases found : d.ledger.windows.lookup w with
  | none =>
    rw [Ledger.members_of_none h.accounts.sound found]
    rfl
  | some slot =>
    simp [h.guards_free quiet found, (h.accounts.sound.tallied w slot found).snapshot]

end Quiet

theorem unreadable (h : d.Consistent) (issued : n < d.board.attempts)
    (undecided : verdict n d.board.trace = none) {c : Candidate}
    (member : c ∈ d.contributionsOf n) : d.ledger.snapshot c.window = none := by
  obtain ⟨number, found⟩ := h.bound issued
  obtain ⟨r, reserved, staged⟩ := h.accounts.standing n number _ found undecided
  rw [← staged] at member
  obtain ⟨slot, present, holder⟩ := h.accounts.sound.locks number r c.window reserved
    (h.accounts.sound.covered number r c reserved member)
  simp [Ledger.snapshot, present, holder]

theorem undecided_of_awaits (h : d.Consistent) (awaits : Awaits d.board deliveryID n) :
    verdict n d.board.trace = none ∧ n < d.board.attempts := by
  obtain ⟨a, deferred, rfl⟩ | ⟨id, call, channel, a, found, _, at_, rfl⟩ := awaits
  · obtain ⟨undecided, issued, _⟩ := h.ordered.deferred deliveryID a deferred
    exact ⟨undecided, issued⟩
  · obtain ⟨undecided, issued, _⟩ :=
      (h.ordered.inside id call channel _ (by simp) found at_).attempt a rfl
    exact ⟨undecided, issued⟩

end Detector.Consistent

section Boards

variable {hash : DeliveryHash} {d d' : Detector} {id : Nat} {p : Proposal}

theorem board_processor {m : ProcMove} (stepped : d.processor hash m = some d') :
    d.board.step hash m = some d'.board := by
  unfold Detector.processor at stepped
  obtain ⟨board, moved, rfl⟩ := Option.map_eq_some_iff.mp stepped
  exact moved

theorem board_fail (failed : d.fail hash id = some d') :
    d.board.step hash (.prepare id none) = some d'.board := by
  unfold Detector.fail at failed
  have moved := board_processor failed
  exact moved

theorem board_batch {deliveryID : String} {candidates : List Candidate}
    {excluded : List ContributionKey}
    (begun : d.batch hash id deliveryID candidates excluded = some d') :
    d'.board = d.board ∨ ∃ m, d.board.step hash m = some d'.board := by
  unfold Detector.batch at begun
  dsimp only at begun
  split at begun
  · cases begun
    exact .inl rfl
  · exact .inr ⟨_, board_fail begun⟩

theorem board_evaluate {e : Evaluation} (evaluated : d.evaluate hash id p e = some d') :
    d'.board = d.board ∨ ∃ m, d.board.step hash m = some d'.board := by
  cases e with
  | lock =>
    simp only [Detector.evaluate, Detector.lock] at evaluated
    split at evaluated
    · obtain ⟨ledger, _, rfl⟩ := Option.map_eq_some_iff.mp evaluated
      exact .inl rfl
    · cases evaluated
  | stage =>
    simp only [Detector.evaluate, Detector.stage] at evaluated
    split at evaluated
    · split at evaluated
      · have moved := board_fail evaluated
        exact .inr ⟨_, moved⟩
      · cases evaluated
        exact .inl rfl
    · cases evaluated
  | exclude index =>
    simp only [Detector.evaluate, Detector.exclude] at evaluated
    split at evaluated
    · split at evaluated
      · split at evaluated
        · have moved := board_batch evaluated
          exact moved
        · cases evaluated
      · cases evaluated
    · cases evaluated
  | finish kind failure =>
    simp only [Detector.evaluate, Detector.finish] at evaluated
    split at evaluated
    · split at evaluated
      · have moved := board_processor evaluated
        exact .inr ⟨_, moved⟩
      · cases evaluated
    · cases evaluated
  | cancel | giveUp =>
    simp only [Detector.evaluate] at evaluated
    split at evaluated
    · have moved := board_fail evaluated
      exact .inr ⟨_, moved⟩
    · cases evaluated

theorem board_step {m : DetectMove} (stepped : d.step hash m = some d') :
    d'.board = d.board ∨ ∃ m, d.board.step hash m = some d'.board := by
  cases m with
  | processor m =>
    simp only [Detector.step] at stepped
    split at stepped
    · exact .inr ⟨m, board_processor stepped⟩
    · cases stepped
  | propose id candidates =>
    simp only [Detector.step, Detector.propose] at stepped
    split at stepped
    · split at stepped
      · exact board_batch stepped
      · cases stepped
    · cases stepped
  | evaluate id e =>
    obtain ⟨p, _, evaluated⟩ := Option.bind_eq_some_iff.mp stepped
    exact board_evaluate evaluated

end Boards

theorem awaits_of_unknown {hash : DeliveryHash} {b b' : ProcBoard} {id channel : Nat}
    {call : ProcCall} {a : Attempt} {receipt : ProcessingReceipt} {row : ReceiptRow}
    {failed durable notifyFailed : Bool} (found : b.calls.lookup id = some call)
    (at_ : call.point = .inside channel (.staged a receipt row))
    (stepped : b.step hash (.commit id ⟨.unknown, failed⟩ durable notifyFailed) = some b') :
    Awaits b' call.delivery.id a.number := by
  unfold ProcBoard.step at stepped
  rw [show b.calls.lookup (ProcMove.commit id ⟨.unknown, failed⟩ durable notifyFailed).id =
    some call from found] at stepped
  dsimp only at stepped
  rw [at_] at stepped
  simp only [ProcBoard.act] at stepped
  split at stepped
  · cases stepped
    exact .inr ⟨id, { call with point := .inside channel (.ambiguous a) }, channel, a,
      Table.lookup_insert.trans (if_pos rfl), rfl, rfl, rfl⟩
  · cases stepped

/-- In every interleaving of the processors: while nothing is reserved, the Ledger holds the
contributions of the committed attempts, each once, counts them right and has every guard free;
an attempt with an unknown commit keeps its windows from being read until a receipt decides it. -/
theorem ledger_holds_committed_contributions (hash : DeliveryHash)
    (stored : Table String ReceiptRow) {moves : List DetectMove} {d : Detector}
    (named : ∀ m ∈ moves, m.named = true)
    (ran : runSteps (Detector.step hash) { board := { receipts := stored } } moves = some d) :
    ((∀ number, d.ledger.reservations.lookup number = none) →
      (d.contributions.map Candidate.key).Nodup ∧
      d.ledger.memberships.rows.Perm (d.contributions.map fun c => (c.key, c.record)) ∧
      (∀ w, d.ledger.snapshot w = some ⟨(d.ledger.members w).length,
        ((d.ledger.members w).map MemberRecord.distinctKey).dedup.length⟩) ∧
      ∀ w slot, d.ledger.windows.lookup w = some slot → slot.holder = none) ∧
    (∀ id call channel a receipt row failed durable notifyFailed d',
      d.board.calls.lookup id = some call → call.point = .inside channel (.staged a receipt row) →
      d.step hash (.processor (.commit id ⟨.unknown, failed⟩ durable notifyFailed)) = some d' →
      Awaits d'.board call.delivery.id a.number) ∧
    ∀ deliveryID n, Awaits d.board deliveryID n →
      (∀ c ∈ d.contributionsOf n, d.ledger.snapshot c.window = none) ∧
      ∀ m d', d.step hash m = some d' →
        Awaits d'.board deliveryID n ∨ DecidedBy hash d.board d'.board deliveryID n := by
  have h := Detector.Consistent.run named ran (.initial stored)
  refine ⟨fun quiet => ⟨h.nodup_contributions quiet, h.memberships_perm quiet,
    h.snapshot_counts quiet, fun w slot => h.guards_free quiet⟩,
    fun id call channel a receipt row failed durable notifyFailed d' found at_ stepped => ?_,
    fun deliveryID n awaits => ⟨fun c member => ?_, fun m d' stepped => ?_⟩⟩
  · exact awaits_of_unknown found at_ (board_processor stepped)
  · obtain ⟨undecided, issued⟩ := h.undecided_of_awaits awaits
    exact h.unreadable issued undecided member
  · obtain same | ⟨m, moved⟩ := board_step stepped
    · rw [same]
      exact .inl awaits
    · exact awaits_step h.ordered awaits moved

namespace Sample

def window : WindowKey := ⟨"ssh-bruteforce", "1", "192.0.2.1"⟩

def candidate : Candidate :=
  ⟨deliveryID, ⟨"evt1_0000000000000000000000000000000000000000000000000000", "ssh-bruteforce", "1"⟩,
    window, "root", .ofMicro 1⟩

def unresolved : List DetectMove :=
  [.processor (.call 0 0 delivery), .processor (.flight 0), .processor (.register 0),
    .processor (.enter 0), .processor (.check 0 false false), .propose 0 [candidate],
    .evaluate 0 .lock, .evaluate 0 .stage, .evaluate 0 (.finish .success none),
    .processor (.begin 0 false), .processor (.write 0 false), .processor (.finalize 0 false),
    .processor (.putReceipt 0 (.ofMicro 2) false),
    .processor (.commit 0 ⟨.unknown, true⟩ true false), .processor (.readback 0 true false),
    .processor (.leave 0)]

def resolved : List DetectMove := unresolved ++
  [.processor (.call 1 1 delivery), .processor (.flight 1), .processor (.register 1),
    .processor (.enter 1), .processor (.check 1 false false), .processor (.leave 1)]

theorem unresolved_reads :
    (runSteps (Detector.step hash) {} unresolved).map (fun d =>
      (d.board.deferred.lookup deliveryID, d.contributionsOf 0)) =
      some (some ⟨0, .success, none⟩, [candidate]) := by
  decide +kernel

theorem resolved_reads :
    (runSteps (Detector.step hash) {} resolved).map (fun d =>
      (d.ledger.reservations.keys, d.contributions, (d.ledger.members window).length)) =
      some ([], [candidate], 1) := by
  decide +kernel

end Sample

open Sample in
theorem ledger_holds_committed_contributions_resolved :
    (∃ d, runSteps (Detector.step hash) {} unresolved = some d ∧
      Awaits d.board deliveryID 0 ∧ d.ledger.snapshot window = none) ∧
    ∃ d, runSteps (Detector.step hash) {} resolved = some d ∧
      (∀ number, d.ledger.reservations.lookup number = none) ∧
      d.ledger.memberships.rows.Perm [(candidate.key, candidate.record)] ∧
      (d.ledger.snapshot window).map Snapshot.count = some 1 := by
  constructor
  · obtain ⟨d, ran, reads⟩ := Option.map_eq_some_iff.mp unresolved_reads
    obtain ⟨deferred, staged⟩ := Prod.mk.inj reads
    have awaits : Awaits d.board deliveryID 0 := .inl ⟨_, deferred, rfl⟩
    refine ⟨d, ran, awaits, ?_⟩
    exact ((ledger_holds_committed_contributions hash ∅ (by decide) ran).2.2 deliveryID 0
      awaits).1 candidate (by rw [staged]; exact List.mem_singleton.mpr rfl)
  · obtain ⟨d, ran, reads⟩ := Option.map_eq_some_iff.mp resolved_reads
    obtain ⟨none_, reads⟩ := Prod.mk.inj reads
    obtain ⟨contributions, count⟩ := Prod.mk.inj reads
    have quiet (number : Nat) : d.ledger.reservations.lookup number = none := by
      rw [AList.lookup_eq_none, AList.mem_keys, none_]
      exact List.not_mem_nil
    obtain ⟨_, perm, counts, _⟩ :=
      (ledger_holds_committed_contributions hash ∅ (by decide) ran).1 quiet
    refine ⟨d, ran, quiet, ?_, ?_⟩
    · rw [contributions] at perm
      exact perm
    · rw [counts, Option.map_some, count]

end GuardWall.Processor
