import GuardWall.Processor.Resolution

/-! Every move of the processors keeps the order among the calls. -/
namespace GuardWall.Processor

open GuardWall.Core GuardWall.Foundation

def landedBy (b : ProcBoard) (m : ProcMove) (landed : List Nat) : List Nat :=
  match m with
  | .commit id _ true _ =>
      match (b.calls.lookup id).map ProcCall.point with
      | some (.inside _ (.staged attempt _ _)) => attempt.number :: landed
      | _ => landed
  | _ => landed

def ProcMove.named : ProcMove → Bool
  | .commit _ report _ _ => report.state != .other
  | _ => true

section Steps

variable {hash : DeliveryHash} {b b' : ProcBoard} {landed : List Nat} {id channel : Nat}
  {call : ProcCall} {stage : Stage} {a : Attempt}

structure Holding (b : ProcBoard) (landed : List Nat) (id : Nat) (call : ProcCall) (stage : Stage) :
    Prop where
  others : Ordered b landed (some id)
  alone : Alone b id call.delivery.id
  inside : Inside b landed id call stage
  free : ∀ a, stage.attempt = some a → ∀ id' a', Carries b (some id) id' a' →
    a'.number ≠ a.number
  elsewhere : ∀ a, stage.attempt = some a → ∀ d a', b.deferred.lookup d = some a' →
    a'.number ≠ a.number

theorem Ordered.holding (h : Ordered b landed none) (found : b.calls.lookup id = some call)
    (at_ : call.point = .inside channel stage) : Holding b landed id call stage := by
  have carries {a : Attempt} (own : stage.attempt = some a) : Carries b none id a :=
    ⟨by simp, call, channel, stage, found, at_, own⟩
  refine ⟨h.weaken id, h.alone found at_, h.inside id call channel stage (by simp) found at_,
    fun a own id' a' c same => ?_, fun a own d a' found' same => ?_⟩
  · exact c.1 (congrArg some (h.apart id' id a' a ⟨by simp, c.2⟩ (carries own) same))
  · exact h.uncarried d a' id a found' (carries own) same.symm

namespace Holding

theorem fits (h : Holding b landed id call stage) {next : Stage} (channel : Nat)
    (same : next.attempt = stage.attempt) (entered : stage ≠ .entered)
    (early : (∀ a, stage ≠ .ambiguous a) ∨ ∃ a, next = .ambiguous a) :
    Fits b landed id call (.inside channel next) := by
  have inside : Inside b landed id call next := by
    refine ⟨h.inside.owns, fun _ => h.inside.clear entered, fun _ early' => ?_, fun a own => ?_⟩
    · obtain early | ⟨a, rfl⟩ := early
      · exact h.inside.unwritten entered early
      · exact absurd rfl (early' a)
    · exact h.inside.attempt a (same ▸ own)
  refine ⟨?_, by simp, ?_⟩
  · rintro _ _ ⟨⟩
    exact inside
  · rintro _ _ a ⟨⟩ own
    exact ⟨h.free a (same ▸ own), h.elsewhere a (same ▸ own)⟩

theorem resolve (h : Holding b landed id call stage) (own : stage.attempt = some a)
    {confirmed : Bool} (right : confirmed = true ↔ a.number ∈ landed) (channel : Nat)
    (outcome : Outcome) :
    Ordered ((b.resolve call.delivery.id a confirmed).finish id call channel outcome) landed
      none := by
  refine (h.others.resolve h.alone (h.free a own)
    (fun d a' found same => absurd same (h.elsewhere a own d a' found))
    (h.inside.attempt a own).2.1 fun _ => right).finish ?_ channel outcome
  exact h.alone

theorem abortWith (h : Holding b landed id call stage) (own : stage.attempt = some a)
    (early : ∀ a, stage ≠ .ambiguous a) (channel : Nat) (err : ProcessError) :
    Ordered (b.abortWith id call channel a err) landed none := by
  refine h.resolve own ?_ channel _
  have entered : stage ≠ .entered := by
    rintro rfl
    cases own
  rw [(h.inside.attempt a own).2.2, h.inside.unwritten entered early]
  simp

theorem remember (h : Holding b landed id call stage) (own : stage.attempt = some a)
    (channel : Nat) (err : ProcessError) :
    Ordered ((b.rememberPending call a).fail id call channel err) landed none := by
  have entered : stage ≠ .entered := by
    rintro rfl
    cases own
  have clear := h.inside.clear entered
  obtain ⟨undecided, lt, iff⟩ := h.inside.attempt a own
  refine (h.others.rememberPending h.alone clear undecided lt iff (h.free a own)
    (h.elsewhere a own)).finish ?_ channel _
  have same : (b.rememberPending call a).calls = b.calls := by
    simp [ProcBoard.rememberPending, clear, ProcBoard.resolveSome]
  unfold Alone
  rw [same]
  exact h.alone

theorem fail (h : Holding b landed id call stage) (channel : Nat) (err : ProcessError) :
    Ordered (b.fail id call channel err) landed none := h.others.finish h.alone channel _

end Holding

theorem findReceipt_none (read : b.findReceipt hash call.delivery.id = .ok none) :
    b.receipts.lookup call.delivery.id = none := by
  unfold ProcBoard.findReceipt at read
  split at read
  · assumption
  · rename_i row _
    cases decoded : decodeReceipt hash call.delivery.id row with
    | error | ok =>
      rw [decoded] at read
      cases read

theorem findReceipt_some {found : ProcessingReceipt}
    (read : b.findReceipt hash call.delivery.id = .ok (some found)) :
    (b.receipts.lookup call.delivery.id).isSome = true := by
  unfold ProcBoard.findReceipt at read
  split at read
  · cases read
  · rename_i row stored
    rw [stored]
    rfl

theorem calls_resolvePending (b : ProcBoard) (call : ProcCall) (committed : Bool) :
    (b.resolvePending call committed).calls = b.calls :=
  (Aside.resolvePending b call committed).calls

theorem slots_resolvePending (b : ProcBoard) (call : ProcCall) (committed : Bool) :
    (b.resolvePending call committed).slots = b.slots := by
  have some_ (b : ProcBoard) (attempt : Option Attempt) :
      (b.resolveSome call.delivery.id attempt committed).slots = b.slots := by
    cases attempt <;> rfl
  unfold ProcBoard.resolvePending
  dsimp only
  rw [some_, some_]

theorem Ordered.check (h : Ordered b landed none) (found : b.calls.lookup id = some call)
    (at_ : call.point = .inside channel .entered) (failed notifyFailed : Bool) :
    Ordered (b.check hash id call channel failed notifyFailed) landed none := by
  have holding := h.holding found at_
  have alone (committed : Bool) : Alone (b.resolvePending call committed) id call.delivery.id := by
    unfold Alone
    rw [calls_resolvePending]
    exact holding.alone
  unfold ProcBoard.check
  split
  · exact holding.fail channel _
  · split
    · exact holding.fail channel _
    · rename_i read
      have absent := findReceipt_none read
      obtain ⟨ordered, deferred, pending⟩ := holding.others.resolvePending holding.alone
        false (by rw [absent]; rfl)
      refine ordered.put ⟨?_, by simp, ?_⟩
      · rintro _ _ ⟨⟩
        refine ⟨?_, fun _ => ⟨deferred, pending⟩, fun _ _ => ?_, by simp [Stage.attempt]⟩
        · rw [slots_resolvePending]
          exact holding.inside.owns
        · rw [(Aside.resolvePending b call false).receipts]
          exact absent
      · rintro _ _ a ⟨⟩ own
        cases own
    · rename_i receipt read
      split
      · exact holding.fail channel _
      · exact (holding.others.resolvePending holding.alone true
          (by rw [findReceipt_some read])).1.finish (alone true) channel _

theorem Ordered.prepare (h : Ordered b landed none) (found : b.calls.lookup id = some call)
    (at_ : call.point = .inside channel .absent)
    (terminal : Option (ReceiptKind × Option PermanentFailure)) :
    Ordered (b.prepare id call channel terminal) landed none := by
  have holding := h.holding found at_
  unfold ProcBoard.prepare
  split
  · exact holding.fail channel _
  · rename_i kind failure
    have counted : Ordered { b with attempts := b.attempts + 1 } landed (some id) :=
      holding.others.quiet holding.alone ⟨rfl, Nat.le_succ _, fun _ _ => rfl,
        fun _ _ known => known, fun _ _ => rfl, fun _ _ _ => rfl, fun _ _ => rfl⟩ rfl rfl rfl
        fun _ _ found => found
    have absent := holding.inside.unwritten (by simp) (by simp)
    have unsaid : verdict b.attempts b.trace = none := by
      cases said : verdict b.attempts b.trace with
      | none => rfl
      | some c => exact absurd (h.judged _ _ said).1 (lt_irrefl _)
    have fresh : b.attempts ∉ landed := fun member => lt_irrefl _ (h.numbered _ member)
    refine counted.put ⟨?_, by simp, ?_⟩
    · rintro _ _ ⟨⟩
      refine ⟨holding.inside.owns, fun _ => holding.inside.clear (by simp), fun _ _ => absent, ?_⟩
      rintro a ⟨⟩
      refine ⟨unsaid, Nat.lt_succ_self _, ?_⟩
      change b.attempts ∈ landed ↔ (b.receipts.lookup call.delivery.id).isSome = true
      rw [absent]
      simp [fresh]
    · rintro _ _ a ⟨⟩ ⟨⟩
      refine ⟨fun id' a' c => ?_, fun d a' deferred => ?_⟩
      · obtain ⟨other, call', channel', stage, present, at', own⟩ := c
        exact ((holding.others.inside id' call' channel' stage other present at').attempt a'
          own).2.1.ne
      · exact (h.deferred d a' deferred).2.1.ne

theorem Ordered.port (h : Ordered b landed none) (found : b.calls.lookup id = some call)
    (at_ : call.point = .inside channel stage) (own : stage.attempt = some a)
    (early : ∀ a, stage ≠ .ambiguous a) {next : Stage} (same : next.attempt = some a)
    (failed : Bool) (err : ProcessError) :
    Ordered (b.port id call channel a failed err next) landed none := by
  have holding := h.holding found at_
  unfold ProcBoard.port
  split
  · exact holding.abortWith own early channel err
  · refine holding.others.put (holding.fits channel (same.trans own.symm) ?_ (.inl early))
    rintro rfl
    cases own

theorem Ordered.ignore {busy : Option Nat} (h : Ordered b landed busy) (writer : Option Nat)
    (flights : Table (Nat × String) Nat) (channels : Nat) (closed : List Nat) :
    Ordered { b with
      writer := writer
      flights := flights
      channels := channels
      closed := closed } landed busy :=
  ⟨fun id' call channel stage other found at_ =>
    have inside := h.inside id' call channel stage other found at_
    ⟨inside.owns, inside.clear, inside.unwritten, inside.attempt⟩,
    h.queued, h.apart, h.deferred, h.uncarried, h.once, h.pending, h.judged, h.numbered, h.nodup⟩

theorem Holding.writer (h : Holding b landed id call stage) (writer : Option Nat) :
    Holding { b with writer := writer } landed id call stage :=
  ⟨h.others.ignore writer _ _ _, h.alone,
    ⟨h.inside.owns, h.inside.clear, h.inside.unwritten, h.inside.attempt⟩, h.free, h.elsewhere⟩

theorem Ordered.putReceipt (h : Ordered b landed none) (found : b.calls.lookup id = some call)
    (at_ : call.point = .inside channel (.finalized a)) {now : Instant} {refused : Bool}
    (put : b.putReceipt hash id call channel a now refused = some b') :
    Ordered b' landed none := by
  have holding := h.holding found at_
  unfold ProcBoard.putReceipt at put
  dsimp only at put
  split at put
  · cases put
    exact holding.abortWith rfl (by simp) channel _
  · split at put
    · cases put
      exact holding.abortWith rfl (by simp) channel _
    · split at put
      · cases put
        have written := holding.writer (some id)
        exact written.others.put (written.fits channel rfl (by simp) (.inl (by simp)))
      · cases put

theorem Holding.settled (h : Holding b landed id call stage) (own : stage.attempt = some a)
    (early : ∀ a, stage ≠ .ambiguous a) (row : ReceiptRow) :
    Holding (b.settle id call.delivery.id row true) (a.number :: landed) id call
      (.ambiguous a) := by
  have entered : stage ≠ .entered := by
    rintro rfl
    cases own
  obtain ⟨undecided, lt, iff⟩ := h.inside.attempt a own
  rw [h.inside.unwritten entered early] at iff
  have fresh : a.number ∉ landed := fun member => by simpa using iff.mp member
  obtain ⟨deferred, pending⟩ := h.inside.clear entered
  refine ⟨h.others.settle h.alone deferred lt fresh undecided (h.free a own) (h.elsewhere a own),
    h.alone, ⟨h.inside.owns, fun _ => ⟨deferred, pending⟩, fun _ early => absurd rfl (early a), ?_⟩,
    ?_, ?_⟩
  · rintro _ ⟨⟩
    refine ⟨(verdict_committed ..).trans undecided, lt, ?_⟩
    change _ ↔ ((b.receipts.insert call.delivery.id row).lookup call.delivery.id).isSome = true
    rw [Table.lookup_insert]
    simp
  · rintro _ ⟨⟩
    exact h.free a own
  · rintro _ ⟨⟩
    exact h.elsewhere a own

theorem Holding.discarded (h : Holding b landed id call stage) (own : stage.attempt = some a)
    (early : ∀ a, stage ≠ .ambiguous a) :
    Holding (b.discard id) landed id call (.ambiguous a) := by
  have entered : stage ≠ .entered := by
    rintro rfl
    cases own
  have written := h.writer (b.discard id).writer
  refine ⟨written.others, h.alone, ⟨h.inside.owns, fun _ => h.inside.clear entered,
    fun _ early => absurd rfl (early a), ?_⟩, ?_, ?_⟩
  · rintro _ ⟨⟩
    exact h.inside.attempt a own
  · rintro _ ⟨⟩
    exact h.free a own
  · rintro _ ⟨⟩
    exact h.elsewhere a own

theorem Holding.conclude (h : Holding b landed id call (.ambiguous a)) {report : CommitReport}
    {durable : Bool} (admitted : report.admits durable = true) (named : report.state ≠ .other)
    (lands : a.number ∈ landed ↔ durable = true) (receipt : ProcessingReceipt)
    (notifyFailed : Bool) :
    Ordered (b.conclude hash id call channel a receipt report notifyFailed) landed none := by
  unfold CommitReport.admits at admitted
  unfold ProcBoard.conclude
  split
  · rename_i confirmed
    have right : true = true ↔ a.number ∈ landed := by simpa [confirmed, lands] using admitted
    dsimp only
    split
    · exact h.resolve rfl right channel _
    · split
      · exact h.resolve rfl right channel _
      · exact h.resolve rfl right channel _
  · rename_i rejected
    refine h.resolve rfl ?_ channel _
    rw [rejected] at admitted
    simp [lands, Bool.not_eq_true' _ ▸ admitted]
  · refine h.others.put ⟨?_, by simp, ?_⟩
    · rintro _ _ ⟨⟩
      exact h.inside
    · rintro _ _ a' ⟨⟩ own
      exact ⟨h.free a' own, h.elsewhere a' own⟩
  · rename_i other
    exact absurd other named

theorem Ordered.commit (h : Ordered b landed none) (found : b.calls.lookup id = some call)
    {receipt : ProcessingReceipt} {row : ReceiptRow}
    (at_ : call.point = .inside channel (.staged a receipt row)) {report : CommitReport}
    {durable : Bool} (admitted : report.admits durable = true) (named : report.state ≠ .other)
    (notifyFailed : Bool) :
    Ordered ((b.settle id call.delivery.id row durable).conclude hash id call channel a receipt
      report notifyFailed) (landedBy b (.commit id report durable notifyFailed) landed) none := by
  have holding := h.holding found at_
  cases durable with
  | true =>
    have landed' : landedBy b (.commit id report true notifyFailed) landed =
        a.number :: landed := by
      simp [landedBy, found, at_]
    rw [landed']
    exact (holding.settled rfl (by simp) row).conclude admitted named (by simp) receipt _
  | false =>
    change Ordered ((b.discard id).conclude hash id call channel a receipt report notifyFailed)
      landed none
    refine (holding.discarded rfl (by simp)).conclude admitted named ?_ receipt _
    rw [(holding.inside.attempt a rfl).2.2, holding.inside.unwritten (by simp) (by simp)]
    simp

theorem Ordered.readback (h : Ordered b landed none) (found : b.calls.lookup id = some call)
    (at_ : call.point = .inside channel (.ambiguous a)) (failed notifyFailed : Bool) :
    Ordered (b.readback hash id call channel a failed notifyFailed) landed none := by
  have holding := h.holding found at_
  have iff := (holding.inside.attempt a rfl).2.2
  unfold ProcBoard.readback
  split
  · exact holding.remember rfl channel _
  · split
    · exact holding.remember rfl channel _
    · rename_i read
      refine holding.resolve rfl ?_ channel _
      rw [iff, findReceipt_none read]
      simp
    · rename_i receipt read
      split
      · exact holding.remember rfl channel _
      · refine holding.resolve rfl ?_ channel _
        rw [iff, findReceipt_some read]

theorem Ordered.slot (h : Ordered b landed (some id)) (deliveryID : String)
    {slots : Table String Slot} (elsewhere : ∀ d, d ≠ deliveryID →
      slots.lookup d = b.slots.lookup d)
    (kept : ∀ slot, b.slots.lookup deliveryID = some slot → ∀ id' ∈ slot.refs, id' ≠ id →
      ∃ slot', slots.lookup deliveryID = some slot' ∧ id' ∈ slot'.refs ∧
        (slot.holder = some id' → slot'.holder = some id')) :
    Ordered { b with slots := slots } landed (some id) := by
  refine ⟨fun id' call channel stage other found at_ => ?_, fun id' call channel other found at_ => ?_,
    h.apart, h.deferred, h.uncarried, h.once, h.pending, h.judged, h.numbered, h.nodup⟩
  all_goals have differ : id' ≠ id := fun same => other (congrArg some same)
  · have inside := h.inside id' call channel stage other found at_
    refine ⟨?_, inside.clear, inside.unwritten, inside.attempt⟩
    obtain ⟨slot, present, holder, member⟩ := inside.owns
    by_cases same : call.delivery.id = deliveryID
    · rw [same] at present ⊢
      obtain ⟨slot', present', member', holders⟩ := kept slot present id' member differ
      exact ⟨slot', present', holders holder, member'⟩
    · exact ⟨slot, (elsewhere _ same).trans present, holder, member⟩
  · obtain ⟨slot, present, member⟩ := h.queued id' call channel other found at_
    by_cases same : call.delivery.id = deliveryID
    · rw [same] at present ⊢
      obtain ⟨slot', present', member', _⟩ := kept slot present id' member differ
      exact ⟨slot', present', member'⟩
    · exact ⟨slot, (elsewhere _ same).trans present, member⟩

theorem Ordered.dropReference (h : Ordered b landed (some id)) {deliveryID : String} {slot : Slot}
    (present : b.slots.lookup deliveryID = some slot) :
    Ordered (b.dropReference id deliveryID slot) landed (some id) := by
  unfold ProcBoard.dropReference
  dsimp only
  refine h.slot deliveryID (fun d other => ?_) (fun slot' present' id' member differ => ?_)
  · split
    · rw [Table.lookup_erase, if_neg other]
    · rw [Table.lookup_insert, if_neg other]
  · rw [present] at present'
    cases present'
    have left : id' ∈ slot.refs.erase id := (List.mem_erase_of_ne differ).mpr member
    split
    · rename_i empty
      rw [List.isEmpty_iff.mp empty] at left
      cases left
    · exact ⟨{ slot with refs := slot.refs.erase id },
        by rw [Table.lookup_insert, if_pos rfl], left, fun holder => holder⟩

theorem Ordered.register (h : Ordered b landed none) (id : Nat) (call : ProcCall)
    (channel : Nat) : Ordered (b.register id call channel) landed none := by
  unfold ProcBoard.register
  dsimp only
  have slots : Ordered { b with
      slots := b.slots.insert call.delivery.id
        { (b.slots.lookup call.delivery.id).getD {} with
          refs := id :: ((b.slots.lookup call.delivery.id).getD {}).refs } } landed (some id) := by
    refine (h.weaken id).slot call.delivery.id (fun d other => ?_) (fun slot present id' member differ => ?_)
    · rw [Table.lookup_insert, if_neg other]
    · refine ⟨_, by rw [Table.lookup_insert, if_pos rfl], ?_, ?_⟩
      · rw [present]
        exact List.mem_cons_of_mem _ member
      · rw [present]
        exact fun holder => holder
  refine slots.put ⟨by simp, fun _ _ => ?_, by simp⟩
  exact ⟨_, by rw [Table.lookup_insert, if_pos rfl], List.mem_cons_self⟩

theorem Ordered.enter (h : Ordered b landed none) (found : b.calls.lookup id = some call)
    (at_ : call.point = .queued channel) {slot : Slot}
    (present : b.slots.lookup call.delivery.id = some slot) (free : slot.holder = none) :
    Ordered ({ b with
      slots := b.slots.insert call.delivery.id { slot with holder := some id } }.put id call
        (.inside channel .entered)) landed none := by
  have member : id ∈ slot.refs := by
    obtain ⟨slot', present', member⟩ := h.queued id call channel (by simp) found at_
    rw [present] at present'
    cases present'
    exact member
  have slots : Ordered { b with
      slots := b.slots.insert call.delivery.id { slot with holder := some id } } landed
        (some id) := by
    refine (h.weaken id).slot call.delivery.id (fun d other => ?_) (fun slot' present' id' member' differ => ?_)
    · rw [Table.lookup_insert, if_neg other]
    · rw [present] at present'
      cases present'
      refine ⟨{ slot with holder := some id }, by rw [Table.lookup_insert, if_pos rfl], member',
        fun holder => ?_⟩
      rw [free] at holder
      cases holder
  refine slots.put ⟨?_, by simp, ?_⟩
  · rintro _ _ ⟨⟩
    exact ⟨⟨{ slot with holder := some id }, by rw [Table.lookup_insert, if_pos rfl], rfl, member⟩,
      by simp, by simp, by simp [Stage.attempt]⟩
  · rintro _ _ a ⟨⟩ own
    cases own

theorem Ordered.act (h : Ordered b landed none) (found : b.calls.lookup id = some call)
    {m : ProcMove} (own : m.id = id) (named : m.named = true)
    (acted : b.act hash id call m call.point = some b') :
    Ordered b' (landedBy b m landed) none := by
  have busy := h.weaken id
  unfold ProcBoard.act at acted
  split at acted
  · cases acted
    unfold ProcBoard.acquireFlight
    split
    · exact busy.outside (by simp) (by simp)
    · exact (busy.ignore _ _ _ _).outside (by simp) (by simp)
  · split at acted
    · cases acted
      exact busy.outside (by simp) (by simp)
    · cases acted
  · cases acted
    exact busy.outside (by simp) (by simp)
  · split at acted
    · rename_i present
      cases acted
      exact (busy.dropReference present).outside (by simp) (by simp)
    · cases acted
  · cases acted
    exact h.register id call _
  · rename_i at_
    split at acted
    · rename_i slot present
      split at acted
      · rename_i free
        cases acted
        exact h.enter found at_ present free
      · cases acted
    · cases acted
  · rename_i at_
    cases acted
    exact h.check found at_ _ _
  · rename_i at_
    cases acted
    exact h.prepare found at_ _
  · rename_i at_
    cases acted
    exact h.port found at_ rfl (by simp) rfl _ _
  · rename_i at_
    cases acted
    exact h.port found at_ rfl (by simp) rfl _ _
  · rename_i at_
    cases acted
    exact h.port found at_ rfl (by simp) rfl _ _
  · rename_i at_
    exact h.putReceipt found at_ acted
  · cases acted
    exact h.ignore _ _ _ _
  · rename_i at_
    split at acted
    · rename_i admitted
      cases acted
      simp only [Bool.and_eq_true] at admitted
      cases own
      exact h.commit found at_ admitted.1 (by simpa [ProcMove.named] using named) _
    · cases acted
  · rename_i at_
    cases acted
    exact h.readback found at_ _ _
  · cases acted
    exact (busy.ignore _ _ _ _).outside (by simp) (by simp)
  · cases acted

theorem Ordered.step (h : Ordered b landed none) {m : ProcMove} (named : m.named = true)
    (stepped : b.step hash m = some b') : Ordered b' (landedBy b m landed) none := by
  unfold ProcBoard.step at stepped
  split at stepped
  · rename_i id coordinator delivery _
    cases stepped
    have started : b.start hash id coordinator delivery =
        b.put id ⟨coordinator, delivery, .arrived⟩
          (if (delivery.validate hash).isOk then .arrived
            else .returned { err := some .validateDelivery }) := rfl
    rw [started]
    exact (h.weaken id).outside (by split <;> simp) (by split <;> simp)
  · rename_i call found
    exact h.act found rfl named stepped
  · cases stepped

theorem Ordered.initial (stored : Table String ReceiptRow) :
    Ordered { receipts := stored } [] none := by
  have empty {κ ν : Type} [DecidableEq κ] {k : κ} {v : ν}
      (found : (∅ : Table κ ν).lookup k = some v) : False := by
    rw [AList.lookup_empty] at found
    cases found
  refine ⟨fun id call channel stage _ found => (empty found).elim,
    fun id call channel _ found => (empty found).elim, fun id id' a a' c => ?_,
    fun d a found => (empty found).elim, fun d a id a' found => (empty found).elim,
    fun d d' a a' found => (empty found).elim, fun c d a found => (empty found).elim,
    fun n confirmed said => (by cases said), by simp, List.nodup_nil⟩
  obtain ⟨_, call, channel, stage, found, _⟩ := c
  exact (empty found).elim

end Steps

end GuardWall.Processor
