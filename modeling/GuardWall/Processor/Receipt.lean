import GuardWall.Core.Intent

/-! Deliveries, processing receipts and the row of `processing_receipts` a receipt is kept in.
Texts are UTF-8, so of `validateTextIdentifier` only the test for the empty text is left. -/
namespace GuardWall.Processor

open GuardWall.Core GuardWall.Foundation

structure FilePosition where
  generation : String
  deviceID : Nat
  inode : Nat
  startOffset : Nat
  endOffset : Nat
  deriving DecidableEq, Repr

/-- `SourcePosition`; `zero` is Go's zero value, which is of no kind. -/
inductive SourcePosition where
  | zero
  | file (position : FilePosition)
  | journald (cursor : String)
  deriving DecidableEq, Repr

def SourcePosition.valid : SourcePosition → Bool
  | zero => false
  | file p => isLowerHex128 p.generation && decide (p.startOffset ≤ p.endOffset)
  | journald cursor => cursor != ""

/-- `hashIdentity("dlv1_", frame)` of the two frames a delivery id is made from. Device and inode
are not part of the file frame. -/
structure DeliveryHash where
  file : String → String → Nat → Nat → String
  journald : String → String → String

variable (hash : DeliveryHash)

def fileDeliveryID (sourceID : String) (p : FilePosition) : Except Fault String := do
  reject (sourceID == "") "source id must be non-empty UTF-8"
  reject (!isLowerHex128 p.generation) "file generation must be 128-bit lowercase hex"
  reject (decide (p.endOffset < p.startOffset)) "file position start exceeds end"
  return hash.file sourceID p.generation p.startOffset p.endOffset

def journaldDeliveryID (sourceID cursor : String) : Except Fault String := do
  reject (sourceID == "") "source id must be non-empty UTF-8"
  reject (cursor == "") "journald cursor must be non-empty UTF-8"
  return hash.journald sourceID cursor

def deliveryIDForPosition (sourceID : String) : SourcePosition → Except Fault String
  | .file p => fileDeliveryID hash sourceID p
  | .journald cursor => journaldDeliveryID hash sourceID cursor
  | .zero => .error (.text "unsupported source position")

/-- `Delivery` with the fields of its record that the Coordinator reads. -/
structure Delivery where
  id : String
  sequence : Nat
  sourceID : String
  observedAt : Instant
  position : SourcePosition
  deriving DecidableEq, Repr

def Delivery.validate (d : Delivery) : Except Fault Unit := do
  reject (!validDeliveryID d.id) "delivery id is not canonical"
  reject (d.sequence == 0) "delivery sequence must be positive"
  reject (d.sourceID == "") "source id must be non-empty UTF-8"
  reject d.observedAt.isZero "record observed time is required"
  reject (!d.position.valid) "record source position is invalid"
  let expected ← within "derive delivery id" (deliveryIDForPosition hash d.sourceID d.position)
  reject (d.id != expected) "delivery id does not bind source and position"

structure PermanentFailure where
  stage : String
  code : String
  sanitizedError : String
  action : String
  occurredAt : Instant
  deriving DecidableEq, Repr

def PermanentFailure.incomplete (f : PermanentFailure) : Bool :=
  f.stage == "" || f.code == "" || f.sanitizedError == "" || f.action == "" || f.occurredAt.isZero

/-- `ReceiptKind`; `other` is any value without a name. -/
inductive ReceiptKind where
  | success
  | recordPermanent
  | other
  deriving DecidableEq, Repr

structure ProcessingReceipt where
  deliveryID : String
  sourceID : String
  position : SourcePosition
  kind : ReceiptKind
  failure : Option PermanentFailure
  committed : Instant
  deriving DecidableEq, Repr

/-- The last check of `ProcessingReceipt.Validate`. -/
def ProcessingReceipt.validateKind (r : ProcessingReceipt) : Except Fault Unit :=
  match r.kind, r.failure with
  | .success, failure =>
      reject failure.isSome "success receipt cannot contain a permanent failure"
  | .recordPermanent, none => .error (.text "permanent receipt requires failure details")
  | .recordPermanent, some failure => reject failure.incomplete "permanent failure is incomplete"
  | .other, _ => .error (.text "unsupported receipt kind")

def ProcessingReceipt.validate (r : ProcessingReceipt) : Except Fault Unit := do
  reject (!validDeliveryID r.deliveryID) "receipt delivery id is not canonical"
  reject (r.sourceID == "") "receipt source id must be non-empty UTF-8"
  reject (!r.position.valid || r.committed.isZero) "receipt position and committed time are required"
  let expected ← within "derive receipt delivery id"
    (deliveryIDForPosition hash r.sourceID r.position)
  reject (r.deliveryID != expected) "receipt delivery id does not bind source and position"
  r.validateKind

structure DurableCompletion where
  sourceID : String
  deliveryID : String
  sequence : Nat
  position : SourcePosition
  deriving DecidableEq, Repr

def completionFromReceipt (d : Delivery) (r : ProcessingReceipt) :
    Except Fault DurableCompletion := do
  within "validate receipt" (r.validate hash)
  reject (r.deliveryID != d.id) "receipt delivery id mismatch"
  reject (r.sourceID != d.sourceID) "receipt source id mismatch"
  reject (r.position != d.position) "receipt source position mismatch"
  reject (r.kind == .other) "unsupported receipt kind"
  return ⟨d.sourceID, d.id, d.sequence, d.position⟩

structure ReceiptRow where
  sourceID : String
  positionKind : String
  generation : Option String := none
  deviceID : Option Int := none
  inode : Option Int := none
  startOffset : Option Int := none
  endOffset : Option Int := none
  journaldCursor : Option String := none
  kind : String
  failureStage : Option String := none
  failureCode : Option String := none
  sanitizedError : Option String := none
  terminalAction : Option String := none
  failureOccurredAtUS : Option Int := none
  committedAtUS : Int
  deriving DecidableEq, Repr

/-- SQLite's `length` of a text: the characters before the first NUL. -/
def sqliteLength (text : String) : Nat := (text.toList.takeWhile fun c => c != '\x00').length

def between (low high : Nat) (text : Option String) : Bool :=
  text.any fun t => low ≤ sqliteLength t && sqliteLength t ≤ high

namespace ReceiptRow

def positionCheck (r : ReceiptRow) : Bool :=
  (r.positionKind == "file" && r.generation.isSome && r.deviceID.isSome && r.inode.isSome &&
    r.startOffset.any (fun s => 0 ≤ s && r.endOffset.any fun e => s ≤ e) &&
    r.journaldCursor.isNone) ||
  (r.positionKind == "journald" && r.journaldCursor.any (fun c => 0 < sqliteLength c) &&
    r.generation.isNone && r.deviceID.isNone && r.inode.isNone && r.startOffset.isNone &&
    r.endOffset.isNone)

def failureCheck (r : ReceiptRow) : Bool :=
  (r.kind == "success" && r.failureStage.isNone && r.failureCode.isNone &&
    r.sanitizedError.isNone && r.terminalAction.isNone && r.failureOccurredAtUS.isNone) ||
  (r.kind == "record_permanent" && between 1 64 r.failureStage && between 1 128 r.failureCode &&
    between 1 2048 r.sanitizedError && between 1 64 r.terminalAction &&
    r.failureOccurredAtUS.any fun us => 0 < us)

def checks (r : ReceiptRow) : Bool :=
  decide (0 < r.committedAtUS) && r.positionCheck && r.failureCheck &&
    r.failureOccurredAtUS.all fun us => us ≤ r.committedAtUS

end ReceiptRow

def SourcePosition.encodable : SourcePosition → Except Fault Unit
  | .file p => reject (decide (maxInt64 < p.deviceID) || decide (maxInt64 < p.inode) ||
      decide (maxInt64 < p.startOffset) || decide (maxInt64 < p.endOffset))
      "file position exceeds SQLite INTEGER range"
  | .journald _ => .ok ()
  | .zero => .error (.text "unsupported source position")

/-- `encodePosition`: the position columns of a row. -/
def encodePosition (row : ReceiptRow) (position : SourcePosition) : Except Fault ReceiptRow := do
  position.encodable
  match position with
  | .file p => return { row with
      positionKind := "file"
      generation := some p.generation
      deviceID := some p.deviceID
      inode := some p.inode
      startOffset := some p.startOffset
      endOffset := some p.endOffset }
  | .journald cursor => return { row with
      positionKind := "journald"
      journaldCursor := some cursor }
  | .zero => return row

def encodeReceipt (r : ProcessingReceipt) : Except Fault String :=
  match r.kind, r.failure with
  | .success, some _ => .error (.text "put receipt: success cannot contain failure")
  | .success, none => .ok "success"
  | .recordPermanent, some failure => do
      reject failure.incomplete "put receipt: permanent failure is incomplete"
      return "record_permanent"
  | .recordPermanent, none => .error (.text "put receipt: permanent failure is incomplete")
  | .other, _ => .error (.text "put receipt: unsupported kind")

def receiptRow (r : ProcessingReceipt) : Except Fault ReceiptRow := do
  within "put receipt: validate" (r.validate hash)
  let bare : ReceiptRow :=
    { sourceID := r.sourceID, positionKind := "", kind := "", committedAtUS := r.committed.unixMicro }
  let row ← within "put receipt" (encodePosition bare r.position)
  let kind ← encodeReceipt r
  return { row with
    kind := kind
    failureStage := r.failure.map PermanentFailure.stage
    failureCode := r.failure.map PermanentFailure.code
    sanitizedError := r.failure.map PermanentFailure.sanitizedError
    terminalAction := r.failure.map PermanentFailure.action
    failureOccurredAtUS := r.failure.map fun f => f.occurredAt.unixMicro }

def decodePosition (r : ReceiptRow) : Except Fault SourcePosition :=
  if r.positionKind = "file" then
    match r.generation, r.deviceID, r.inode, r.startOffset, r.endOffset with
    | some generation, some deviceID, some inode, some startOffset, some endOffset => do
        reject (decide (deviceID < 0) || decide (inode < 0) || decide (startOffset < 0) ||
          decide (endOffset < 0)) "stored file position is incomplete"
        reject (!isLowerHex128 generation) "file generation must be 128-bit lowercase hex"
        reject (decide (endOffset.toNat < startOffset.toNat)) "file position start exceeds end"
        return .file ⟨generation, deviceID.toNat, inode.toNat, startOffset.toNat, endOffset.toNat⟩
    | _, _, _, _, _ => .error (.text "stored file position is incomplete")
  else if r.positionKind = "journald" then
    match r.journaldCursor with
    | some cursor => do
        reject (cursor == "") "journald cursor must be non-empty UTF-8"
        return .journald cursor
    | none => .error (.text "stored journald position is incomplete")
  else .error (.text "unsupported stored position kind")

def decodeKind (r : ReceiptRow) : Except Fault (ReceiptKind × Option PermanentFailure) :=
  if r.kind = "success" then .ok (.success, none)
  else if r.kind = "record_permanent" then
    match r.failureStage, r.failureCode, r.sanitizedError, r.terminalAction,
        r.failureOccurredAtUS with
    | some stage, some code, some sanitizedError, some action, some occurredAtUS =>
        .ok (.recordPermanent,
          some ⟨stage, code, sanitizedError, action, .ofMicro occurredAtUS⟩)
    | _, _, _, _, _ => .error (.text "permanent failure is incomplete")
  else .error (.text "unsupported kind")

/-- `FindProcessingReceipt` of a row that exists. -/
def decodeReceipt (deliveryID : String) (row : ReceiptRow) : Except Fault ProcessingReceipt := do
  let position ← decodePosition row
  let (kind, failure) ← decodeKind row
  let receipt : ProcessingReceipt :=
    ⟨deliveryID, row.sourceID, position, kind, failure, .ofMicro row.committedAtUS⟩
  within "validate" (receipt.validate hash)
  return receipt

section RoundTrip

variable {hash} {r found : ProcessingReceipt} {row bare : ReceiptRow} {d : Delivery}
  {position : SourcePosition} {deliveryID : String}

variable (hash) in
/-- What a stored row has to say for a delivery to be complete. -/
def Proves (row : ReceiptRow) (deliveryID sourceID : String) (position : SourcePosition) : Prop :=
  ∃ receipt, decodeReceipt hash deliveryID row = .ok receipt ∧ receipt.validate hash = .ok () ∧
    receipt.deliveryID = deliveryID ∧ receipt.sourceID = sourceID ∧ receipt.position = position

theorem decodeReceipt_ok (h : decodeReceipt hash deliveryID row = .ok found) :
    found.validate hash = .ok () ∧ found.deliveryID = deliveryID := by
  unfold decodeReceipt at h
  simp only [bind_eq_ok, within_eq_ok] at h
  obtain ⟨_, _, ⟨_, _⟩, _, ⟨⟩, valid, h⟩ := h
  cases h
  exact ⟨valid, rfl⟩

theorem completionFromReceipt_ok {c : DurableCompletion}
    (h : completionFromReceipt hash d found = .ok c) :
    found.sourceID = d.sourceID ∧ found.position = d.position ∧
      c = ⟨d.sourceID, d.id, d.sequence, d.position⟩ := by
  unfold completionFromReceipt at h
  simp only [bind_eq_ok, within_eq_ok, reject_eq_ok, bne_eq_false_iff_eq] at h
  obtain ⟨_, _, _, _, _, source, _, position, _, _, h⟩ := h
  cases h
  exact ⟨source, position, rfl⟩

theorem decodePosition_encodePosition (valid : position.valid = true)
    (h : encodePosition bare position = .ok row) (kind : String)
    (stage code error action : Option String) (us : Option Int) :
    decodePosition { row with
      kind := kind
      failureStage := stage
      failureCode := code
      sanitizedError := error
      terminalAction := action
      failureOccurredAtUS := us } = .ok position := by
  cases position with
  | zero => cases valid
  | file p =>
    simp only [encodePosition, bind_eq_ok] at h
    obtain ⟨_, _, h⟩ := h
    cases h
    simp only [SourcePosition.valid, Bool.and_eq_true, decide_eq_true_eq] at valid
    have nonnegative : ∀ n : Nat, ¬ (n : Int) < 0 := by omega
    simp [decodePosition, reject, nonnegative, valid.1, not_lt.mpr valid.2, pure, Except.pure,
      bind, Except.bind]
  | journald cursor =>
    cases h
    have nonempty : cursor ≠ "" := by simpa [SourcePosition.valid] using valid
    simp [decodePosition, reject, nonempty, pure, Except.pure, bind, Except.bind]

theorem encodePosition_sourceID (h : encodePosition bare position = .ok row) :
    row.sourceID = bare.sourceID := by
  cases position with
  | zero => cases h
  | file p =>
    simp only [encodePosition, bind_eq_ok] at h
    obtain ⟨_, _, h⟩ := h
    cases h
    rfl
  | journald cursor =>
    cases h
    rfl

theorem isZero_ofMicro {us : Int} (positive : 0 < us) : (Instant.ofMicro us).isZero = false := by
  cases zero : (Instant.ofMicro us).isZero with
  | false => rfl
  | true =>
    have unset := Instant.unset_of_isZero zero
    simp only [Instant.unset, Instant.unixMicro_ofMicro, decide_eq_true_eq] at unset
    omega

def PermanentFailure.stored (f : PermanentFailure) : PermanentFailure :=
  { f with occurredAt := f.occurredAt.truncateMicro }

theorem decodeKind_receiptRow {kind : String} (encoded : encodeReceipt r = .ok kind)
    (row : ReceiptRow)
    (stored : row.kind = kind ∧ row.failureStage = r.failure.map PermanentFailure.stage ∧
      row.failureCode = r.failure.map PermanentFailure.code ∧
      row.sanitizedError = r.failure.map PermanentFailure.sanitizedError ∧
      row.terminalAction = r.failure.map PermanentFailure.action ∧
      row.failureOccurredAtUS = r.failure.map fun f => f.occurredAt.unixMicro)
    (checked : row.failureCheck = true) (committed : Instant) :
    decodeKind row = .ok (r.kind, r.failure.map PermanentFailure.stored) ∧
      ProcessingReceipt.validateKind { r with
        failure := r.failure.map PermanentFailure.stored
        committed := committed } = .ok () := by
  obtain ⟨rfl, stage, code, error, action, us⟩ := stored
  unfold encodeReceipt at encoded
  cases known : r.kind with
  | other =>
    rw [known] at encoded
    cases encoded
  | success =>
    rw [known] at encoded
    cases failed : r.failure with
    | some f =>
      rw [failed] at encoded
      cases encoded
    | none =>
      rw [failed] at encoded
      have success : row.kind = "success" := (Except.ok.inj encoded).symm
      refine ⟨by simp [decodeKind, success], ?_⟩
      simp [ProcessingReceipt.validateKind]
  | recordPermanent =>
    rw [known] at encoded
    cases failed : r.failure with
    | none =>
      rw [failed] at encoded
      cases encoded
    | some f =>
      rw [failed] at encoded
      simp only [bind_eq_ok, reject_eq_ok] at encoded
      obtain ⟨_, complete, encoded⟩ := encoded
      have permanent : row.kind = "record_permanent" := (Except.ok.inj encoded).symm
      simp only [failed, Option.map_some] at stage code error action us
      have positive : 0 < f.occurredAt.unixMicro := by
        simp only [ReceiptRow.failureCheck, permanent, us, Bool.or_eq_true, Bool.and_eq_true,
          Option.any_some, decide_eq_true_eq] at checked
        obtain success | permanent := checked
        · simp at success
        · exact permanent.2
      refine ⟨?_, ?_⟩
      · simp [decodeKind, permanent, stage, code, error, action, us, PermanentFailure.stored,
          Instant.truncateMicro]
      · simp only [ProcessingReceipt.validateKind, Option.map_some, reject_eq_ok]
        simp only [PermanentFailure.incomplete, Bool.or_eq_false_iff] at complete ⊢
        exact ⟨complete.1, isZero_ofMicro positive⟩

theorem proves_receiptRow (h : receiptRow hash r = .ok row) (checked : row.checks = true) :
    Proves hash row r.deliveryID r.sourceID r.position := by
  unfold receiptRow at h
  simp only [bind_eq_ok, within_eq_ok] at h
  obtain ⟨_, valid, placed, position, kind, encoded, h⟩ := h
  unfold ReceiptRow.checks at checked
  simp only [Bool.and_eq_true, decide_eq_true_eq] at checked
  obtain ⟨⟨⟨committed, _⟩, failure⟩, _⟩ := checked
  unfold ProcessingReceipt.validate at valid
  simp only [bind_eq_ok, within_eq_ok, reject_eq_ok, Bool.or_eq_false_iff,
    Bool.not_eq_false'] at valid
  obtain ⟨_, canonical, _, named, _, ⟨located, _⟩, expected, derived, _, bound, _⟩ := valid
  cases h
  obtain ⟨decoded, complete⟩ := decodeKind_receiptRow encoded _ ⟨rfl, rfl, rfl, rfl, rfl, rfl⟩
    failure (.ofMicro placed.committedAtUS)
  have source : placed.sourceID = r.sourceID := encodePosition_sourceID position
  have stored : ProcessingReceipt.validate hash ⟨r.deliveryID, r.sourceID, r.position, r.kind,
      r.failure.map PermanentFailure.stored, .ofMicro placed.committedAtUS⟩ = .ok () := by
    unfold ProcessingReceipt.validate
    simp only [bind_eq_ok, within_eq_ok, reject_eq_ok, Bool.or_eq_false_iff, Bool.not_eq_false']
    exact ⟨(), canonical, (), named, (), ⟨located, isZero_ofMicro committed⟩, expected, derived,
      (), bound, complete⟩
  refine ⟨_, ?_, stored, rfl, rfl, rfl⟩
  unfold decodeReceipt
  simp only [bind_eq_ok, within_eq_ok]
  refine ⟨r.position, decodePosition_encodePosition located position _ _ _ _ _ _, _, decoded, ?_⟩
  simp only [source]
  exact ⟨(), stored, rfl⟩

end RoundTrip

end GuardWall.Processor
