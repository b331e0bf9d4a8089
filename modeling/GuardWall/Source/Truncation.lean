import GuardWall.Processor.Receipt

/-! `source/file_truncation.go`: the observer of one file generation compares what the reader sees
with what it saw before and latches the first visible loss. -/
namespace GuardWall.Source

open GuardWall.Core GuardWall.Foundation

structure FileObservation where
  deviceID : Nat
  inode : Nat
  size : Nat
  readOffset : Nat
  observedAt : Instant

inductive FileObservationResult where
  | noTruncationEvidence
  | identityChanged
  | dataLossSuspected
  deriving DecidableEq

structure SourceDataLossAudit where
  nodeID : String
  sourceID : String
  generation : String
  deviceID : Nat
  inode : Nat
  previousSize : Nat
  readOffset : Nat
  observedSize : Nat
  observedAt : Instant

structure FileTruncationHealth where
  degraded : Bool := false
  stopReading : Bool := false
  auditRecorded : Bool := false

structure FileTruncationObserver where
  nodeID : String
  sourceID : String
  generation : String
  previous : FileObservation
  pending : Option SourceDataLossAudit := none
  health : FileTruncationHealth := {}

def validateFileObservation (o : FileObservation) : Except Fault Unit :=
  reject (decide (maxInt64 < o.deviceID) || decide (maxInt64 < o.inode) ||
      decide (maxInt64 < o.size) || decide (maxInt64 < o.readOffset) || o.observedAt.unset)
    "file observation requires SQLite-range values and positive time"

def newFileTruncationObserver (nodeID sourceID generation : String) (baseline : FileObservation) :
    Except Fault FileTruncationObserver := do
  reject (nodeID == "" || sourceID == "") "file observer identity and reporter are required"
  reject (!isLowerHex128 generation) "file generation must be 128-bit lowercase hex"
  validateFileObservation baseline
  return { nodeID, sourceID, generation, previous := baseline }

/-- A call of `Observe`: its context, if there is one, with what its `Err` says; the observation;
and the answer of `report`, should it be asked. -/
structure ObserveCall where
  context : Option (Option Fault)
  current : FileObservation
  report : Option Fault

/-- What a call comes to: its result, its error, and the audit it handed to `report` with the
answer. -/
structure Observed where
  result : Option FileObservationResult
  error : Option Fault
  reported : Option (SourceDataLossAudit × Option Fault) := none

namespace FileTruncationObserver

def loss (o : FileTruncationObserver) (current : FileObservation) : SourceDataLossAudit :=
  ⟨o.nodeID, o.sourceID, o.generation, current.deviceID, current.inode, o.previous.size,
    current.readOffset, current.size, current.observedAt⟩

def latch (o : FileTruncationObserver) (current : FileObservation) : FileTruncationObserver :=
  { o with
    pending := some (o.loss current)
    health := { o.health with degraded := true, stopReading := true } }

def retry (o : FileTruncationObserver) (audit : SourceDataLossAudit) (ended report : Option Fault) :
    FileTruncationObserver × Observed :=
  match ended with
  | some e => (o, { result := some .dataLossSuspected, error := some e })
  | none =>
      if o.health.auditRecorded then (o, { result := some .dataLossSuspected, error := none })
      else
        ({ o with health := { o.health with auditRecorded := report.isNone } },
          ⟨some .dataLossSuspected, report, some (audit, report)⟩)

def observe (o : FileTruncationObserver) (c : ObserveCall) : FileTruncationObserver × Observed :=
  match c.context, o.pending with
  | none, _ =>
      (o, ⟨none, some (.text "initialized file observer and context are required"), none⟩)
  | some ended, some audit => o.retry audit ended c.report
  | some ended, none =>
      match validateFileObservation c.current with
      | .error e => (o, { result := none, error := some e })
      | .ok _ =>
          if c.current.observedAt.before o.previous.observedAt then
            (o, { result := none, error := some (.text "file observation time regressed") })
          else if c.current.deviceID ≠ o.previous.deviceID ∨ c.current.inode ≠ o.previous.inode then
            (o, { result := some .identityChanged, error := ended })
          else if o.previous.size ≤ c.current.size ∧ c.current.readOffset ≤ c.current.size then
            match ended with
            | some e => (o, { result := none, error := some e })
            | none =>
                ({ o with previous := c.current },
                  { result := some .noTruncationEvidence, error := none })
          else (o.latch c.current).retry (o.loss c.current) ended c.report

def observeAll (o : FileTruncationObserver) :
    List ObserveCall → FileTruncationObserver × List Observed
  | [] => (o, [])
  | c :: rest =>
      let (o, seen) := o.observe c
      let (o, later) := o.observeAll rest
      (o, seen :: later)

end FileTruncationObserver

/-- An observation that is compared with the last one: of the same file, in range, and not from
before it. -/
def Comparable (last : FileObservation) (c : ObserveCall) : Prop :=
  c.context.isSome = true ∧ (validateFileObservation c.current).isOk = true ∧
    c.current.observedAt.before last.observedAt = false ∧
    c.current.deviceID = last.deviceID ∧ c.current.inode = last.inode

instance (last : FileObservation) (c : ObserveCall) : Decidable (Comparable last c) :=
  inferInstanceAs (Decidable (_ ∧ _))

def Loses (last : FileObservation) (c : ObserveCall) : Prop :=
  Comparable last c ∧ (c.current.size < last.size ∨ c.current.size < c.current.readOffset)

def kept (last : FileObservation) (c : ObserveCall) : FileObservation :=
  if Comparable last c ∧ c.context = some none then c.current else last

def Lossless (last : FileObservation) : List ObserveCall → Prop
  | [] => True
  | c :: rest => ¬Loses last c ∧ Lossless (kept last c) rest

def untilSuccess : List (Option Fault) → List (Option Fault)
  | [] => []
  | none :: _ => [none]
  | some e :: rest => some e :: untilSuccess rest

namespace FileTruncationObserver

variable {o : FileTruncationObserver} {c : ObserveCall} {calls : List ObserveCall}

theorem observe_lossless (open_ : o.pending = none) (lossless : ¬Loses o.previous c) :
    (o.observe c).1 = { o with previous := kept o.previous c } ∧
      (o.observe c).2.reported = none := by
  obtain ⟨_, _, _, last, _, _⟩ := o
  cases open_
  unfold Loses at lossless
  unfold observe kept
  by_cases compared : Comparable last c
  · obtain ⟨given, valid, ordered, device, inode⟩ := id compared
    obtain ⟨ended, given⟩ := Option.isSome_iff_exists.mp given
    obtain ⟨_, valid⟩ := isOk_iff.mp valid
    have grown : last.size ≤ c.current.size ∧ c.current.readOffset ≤ c.current.size := by
      by_contra shrunk
      exact lossless ⟨compared, by dsimp only; omega⟩
    cases ended <;> simp [compared, given, valid, ordered, device, inode, grown]
  · rw [if_neg (fun both => compared both.1)]
    unfold Comparable at compared
    cases given : c.context with
    | none => simp
    | some ended =>
      cases valid : validateFileObservation c.current with
      | error e => simp
      | ok _ =>
        dsimp only
        split
        · simp
        · rename_i ordered
          rw [if_pos]
          · simp
          · by_contra same
            refine compared ⟨by simp [given], by rw [valid]; rfl, by simpa using ordered, ?_⟩
            tauto

theorem observe_loss (open_ : o.pending = none) (lost : Loses o.previous c) :
    o.observe c = (o.latch c.current).observe c := by
  obtain ⟨⟨given, valid, ordered, device, inode⟩, shrunk⟩ := lost
  obtain ⟨ended, given⟩ := Option.isSome_iff_exists.mp given
  obtain ⟨_, valid⟩ := isOk_iff.mp valid
  have not_grown : ¬(o.previous.size ≤ c.current.size ∧ c.current.readOffset ≤ c.current.size) := by
    omega
  simp [observe, latch, open_, given, valid, ordered, device, inode, not_grown]

theorem observeAll_loss (open_ : o.pending = none) (lost : Loses o.previous c) :
    o.observeAll (c :: calls) = (o.latch c.current).observeAll (c :: calls) := by
  simp only [observeAll, observe_loss open_ lost]

theorem observeAll_lossless (open_ : o.pending = none) (lossless : Lossless o.previous calls) :
    (o.observeAll calls).1 = { o with previous := calls.foldl kept o.previous } ∧
      ∀ seen ∈ (o.observeAll calls).2, seen.reported = none := by
  induction calls generalizing o with
  | nil => simp [observeAll]
  | cons c rest ih =>
    obtain ⟨next, silent⟩ := observe_lossless open_ lossless.1
    have later := ih (o := (o.observe c).1) (by rw [next]; exact open_) (by rw [next]; exact lossless.2)
    simp only [observeAll, List.mem_cons, forall_eq_or_imp]
    refine ⟨?_, silent, later.2⟩
    rw [later.1, next]
    rfl

/-- The calls after a latched loss: the loss stays, and the recorder is asked for it, and for
nothing else, until it has succeeded. -/
theorem observeAll_latched {audit : SourceDataLossAudit} (pending : o.pending = some audit) :
    (o.observeAll calls).1.pending = some audit ∧
    (o.observeAll calls).1.health.degraded = o.health.degraded ∧
    (o.observeAll calls).1.health.stopReading = o.health.stopReading ∧
    (o.observeAll calls).2.filterMap Observed.reported =
      (if o.health.auditRecorded then []
        else untilSuccess ((calls.filter fun c => c.context == some none).map ObserveCall.report)).map
          (audit, ·) ∧
    List.Forall₂ (fun c seen => c.context ≠ none → seen.result = some .dataLossSuspected)
      calls (o.observeAll calls).2 := by
  induction calls generalizing o with
  | nil => simp [observeAll, untilSuccess, pending]
  | cons c rest ih =>
    simp only [observeAll]
    obtain ⟨context, current, report⟩ := c
    cases context with
    | none =>
      simpa [observe] using ih pending
    | some ended =>
      simp only [observe, pending, retry]
      cases ended with
      | some e => simpa using ih pending
      | none =>
        cases recorded : o.health.auditRecorded with
        | true => simpa [recorded] using ih pending
        | false =>
          have later := ih (o := { o with health := { o.health with auditRecorded := report.isNone } })
            pending
          cases report <;> simpa [untilSuccess, pending] using later

/-- The first loss of a file's observations is latched for good: whatever is observed and however
the recorder answers, the reader is told to stop, and the recorder is handed that loss at every call
whose context lives until it has taken it once. -/
theorem first_loss_latched (nodeID sourceID generation : String) (baseline : FileObservation)
    (made : newFileTruncationObserver nodeID sourceID generation baseline = .ok o)
    (earlier later : List ObserveCall) (call : ObserveCall)
    (_ranged : ∀ seen ∈ baseline :: (earlier ++ call :: later).map ObserveCall.current,
      seen.observedAt.ranged = true)
    (lossless : Lossless baseline earlier) (lost : Loses (earlier.foldl kept baseline) call) :
    let before := o.observeAll earlier
    let after := before.1.observeAll (call :: later)
    let audit : SourceDataLossAudit :=
      ⟨nodeID, sourceID, generation, call.current.deviceID, call.current.inode,
        (earlier.foldl kept baseline).size, call.current.readOffset, call.current.size,
        call.current.observedAt⟩
    (∀ seen ∈ before.2, seen.reported = none) ∧ after.1.pending = some audit ∧
    after.1.health.degraded = true ∧ after.1.health.stopReading = true ∧
    after.2.filterMap Observed.reported =
      (untilSuccess (((call :: later).filter fun c => c.context == some none).map
        ObserveCall.report)).map (audit, ·) ∧
    List.Forall₂ (fun c seen => c.context ≠ none → seen.result = some .dataLossSuspected)
      (call :: later) after.2 := by
  simp only [newFileTruncationObserver, bind_eq_ok] at made
  obtain ⟨_, _, _, _, _, _, made⟩ := made
  obtain rfl := Except.ok.inj made
  obtain ⟨state, silent⟩ :=
    observeAll_lossless (o := { nodeID, sourceID, generation, previous := baseline }) rfl lossless
  refine ⟨silent, ?_⟩
  rw [state, observeAll_loss rfl lost]
  exact observeAll_latched rfl

end FileTruncationObserver

private def tenBytes : FileObservation := ⟨1, 2, 10, 0, ⟨2 * second, none⟩⟩

private def zeroGeneration : String := "00000000000000000000000000000000"

theorem first_loss_latched_shrink :
    let o : FileTruncationObserver := ⟨"node", "source", zeroGeneration, tenBytes, none, {}⟩
    (o.observeAll [⟨some none, { tenBytes with size := 5 }, some (.text "busy")⟩,
      ⟨some none, { tenBytes with size := 20 }, none⟩]).1.health.stopReading = true :=
  (FileTruncationObserver.first_loss_latched "node" "source" zeroGeneration tenBytes rfl [] [_] _
    (by decide) trivial ⟨by decide, by decide⟩).2.2.2.1

/-- A shrink that is dated before the last observation is refused, not latched. -/
theorem backdated_shrink_not_latched :
    let shrunk : FileObservation := { tenBytes with size := 5, observedAt := ⟨second, none⟩ }
    (shrunk.deviceID = tenBytes.deviceID ∧ shrunk.inode = tenBytes.inode ∧
      shrunk.size < tenBytes.size) ∧
    (newFileTruncationObserver "node" "source" zeroGeneration tenBytes).toOption.map (fun o =>
      (o.observe ⟨some none, shrunk, none⟩).1.health.stopReading) = some false := by
  decide +kernel

end GuardWall.Source
