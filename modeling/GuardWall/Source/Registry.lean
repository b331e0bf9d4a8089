import GuardWall.Foundation.Table
import GuardWall.Processor.Receipt

/-! The tables that keep what is known of a Source: its active session, the file generations it
reads, its checkpoint, and the receipts of its deliveries. An operation that runs in a transaction
gives the tables it would commit, or an error after which they are rolled back. -/
namespace GuardWall.Source

open GuardWall.Core GuardWall.Foundation GuardWall.Processor

inductive SourceSentinel where
  | sourceSessionConflict
  | staleSourceSession
  | checkpointRegression
  | fileGenerationTransition
  | fileGenerationReferenced
  | fileGenerationNotDurable
  | sourcePositionMismatch
  deriving DecidableEq, Repr

inductive SourceFault where
  | text (message : String)
  | sentinel (s : SourceSentinel) (detail : String)
  | constraint (name : String)
  | fault (cause : Fault)
  deriving DecidableEq, Repr

inductive SourceKind where
  | file
  | journald
  deriving DecidableEq, Repr

structure SourceRow where
  nodeID : String
  kind : SourceKind
  activeSessionID : Option String := none
  deriving DecidableEq, Repr

structure SourceSession where
  sourceID : String
  id : String
  deriving DecidableEq, Repr

inductive FileGenerationState where
  | opened
  | draining
  | sealed
  | retired
  deriving DecidableEq, Repr

/-- `FileGeneration`; its state is `none` where Go has the empty text. -/
structure FileGeneration where
  sourceID : String
  generation : String
  deviceID : Nat
  inode : Nat
  path : String
  state : Option FileGenerationState := none
  observedSize : Nat := 0
  openedAt : Instant
  finalEOF : Option Nat := none
  maxDeliverySequence : Option Nat := none
  durableEndOffset : Option Nat := none
  coverageSessionID : Option String := none
  drainingAt : Option Instant := none
  sealedAt : Option Instant := none
  retiredAt : Option Instant := none
  deriving DecidableEq, Repr

/-- A row of `source_file_generations`, whose key is the source and the generation. -/
structure FileGenerationRow where
  deviceID : Nat
  inode : Nat
  path : String
  state : FileGenerationState
  observedSize : Nat
  openedAtUS : Int
  finalEOF : Option Nat := none
  maxDeliverySequence : Option Nat := none
  durableEndOffset : Option Nat := none
  coverageSessionID : Option String := none
  drainingAtUS : Option Int := none
  sealedAtUS : Option Int := none
  retiredAtUS : Option Int := none
  deriving DecidableEq, Repr

namespace FileGenerationRow

def timesCheck (r : FileGenerationRow) : Bool :=
  decide (0 < r.openedAtUS) && r.drainingAtUS.all (fun us => decide (r.openedAtUS ≤ us)) &&
    r.sealedAtUS.all (fun us => decide (r.drainingAtUS.getD r.openedAtUS ≤ us)) &&
    r.retiredAtUS.all fun us => r.sealedAtUS.any fun sealedUS => decide (sealedUS ≤ us)

def stateCheck (r : FileGenerationRow) : Bool :=
  match r.state with
  | .opened => r.drainingAtUS.isNone && r.sealedAtUS.isNone && r.retiredAtUS.isNone &&
      r.finalEOF.isNone && r.maxDeliverySequence.isNone
  | .draining => r.drainingAtUS.isSome && r.sealedAtUS.isNone && r.retiredAtUS.isNone &&
      r.finalEOF.isNone && r.maxDeliverySequence.isNone
  | .sealed => r.sealedAtUS.isSome && r.retiredAtUS.isNone && r.finalEOF.isSome &&
      r.maxDeliverySequence.isSome
  | .retired => r.sealedAtUS.isSome && r.retiredAtUS.isSome && r.finalEOF.isSome &&
      r.maxDeliverySequence.isSome

def coverageCheck (r : FileGenerationRow) : Bool :=
  match r.durableEndOffset, r.coverageSessionID with
  | none, none => true
  | some durable, some session =>
      r.finalEOF.all (fun eof => decide (durable ≤ eof)) && isLowerHex128 session
  | _, _ => false

def checks (r : FileGenerationRow) : Bool :=
  between 1 4096 (some r.path) && r.timesCheck && r.stateCheck && r.coverageCheck

end FileGenerationRow

structure StoredGeneration where
  row : FileGenerationRow
  checked : row.checks = true

structure CheckpointRow where
  sessionID : Option String
  sequence : Nat
  position : SourcePosition
  persistedAtUS : Int
  deriving DecidableEq, Repr

def generationOf : SourcePosition → Option String
  | .file p => some p.generation
  | _ => none

def CheckpointRow.checks (r : CheckpointRow) : Bool :=
  decide (0 < r.persistedAtUS) &&
    match r.position with
    | .file p => decide (p.startOffset ≤ p.endOffset)
    | .journald cursor => decide (0 < sqliteLength cursor)
    | .zero => false

structure Registry where
  nodeID : Option String := none
  sources : Table String SourceRow := ∅
  generations : Table (String × String) StoredGeneration := ∅
  checkpoints : Table String CheckpointRow := ∅
  receipts : Table String ReceiptRow := ∅

/-- `loadFileGeneration`, and `fileGenerationFromRow` of what it finds. -/
def fileGenerationFromRow (sourceID generation : String) (r : FileGenerationRow) :
    FileGeneration where
  sourceID := sourceID
  generation := generation
  deviceID := r.deviceID
  inode := r.inode
  path := r.path
  state := some r.state
  observedSize := r.observedSize
  openedAt := .ofMicro r.openedAtUS
  finalEOF := r.finalEOF
  maxDeliverySequence := r.maxDeliverySequence
  durableEndOffset := r.durableEndOffset
  coverageSessionID := r.coverageSessionID
  drainingAt := r.drainingAtUS.map Instant.ofMicro
  sealedAt := r.sealedAtUS.map Instant.ofMicro
  retiredAt := r.retiredAtUS.map Instant.ofMicro

def FileGeneration.coverageComplete (g : FileGeneration) : Bool :=
  g.state == some .sealed && g.durableEndOffset.isSome && g.coverageSessionID.isSome &&
    g.finalEOF.isSome && g.durableEndOffset == g.finalEOF

def newSourceFileGenerationRow (g : FileGeneration) : FileGenerationRow where
  deviceID := g.deviceID
  inode := g.inode
  path := g.path
  state := .opened
  observedSize := g.observedSize
  openedAtUS := g.openedAt.unixMicro

def refuse (condition : Bool) (fault : SourceFault) : Except SourceFault Unit :=
  if condition then .error fault else .ok ()

@[simp] theorem refuse_eq_ok {condition : Bool} {fault : SourceFault} {u : Unit} :
    refuse condition fault = .ok u ↔ condition = false := by
  unfold refuse
  cases condition <;> simp

def validateNewFileGeneration (g : FileGeneration) : Except SourceFault Unit := do
  refuse (g.sourceID == "" || !isLowerHex128 g.generation || g.path == "" ||
    decide (4096 < g.path.utf8ByteSize)) (.text "identity is invalid")
  refuse (decide (maxInt64 < g.deviceID) || decide (maxInt64 < g.inode) ||
    decide (maxInt64 < g.observedSize)) (.text "numeric field exceeds SQLite range")
  refuse (g.openedAt.isZero || g.openedAt.unset) (.text "opened time is required")
  refuse (g.state.isSome && g.state != some .opened) (.text "new generation must be open")
  refuse (g.finalEOF.isSome || g.maxDeliverySequence.isSome || g.durableEndOffset.isSome ||
      g.coverageSessionID.isSome || g.drainingAt.isSome || g.sealedAt.isSome || g.retiredAt.isSome)
    (.text "new generation cannot contain lifecycle high-water or terminal times")

namespace Registry

def row? (t : Registry) (sourceID generation : String) : Option FileGenerationRow :=
  (t.generations.lookup (sourceID, generation)).map StoredGeneration.row

def otherOpen (t : Registry) (sourceID generation : String) : Bool :=
  t.generations.rows.any fun (key, stored) =>
    key.1 == sourceID && key.2 != generation && stored.row.state == .opened

/-- Writes a row of `source_file_generations`: its CHECKs, and the unique index of Open rows. -/
def put (t : Registry) (sourceID generation : String) (row : FileGenerationRow) :
    Except SourceFault Registry :=
  if checked : row.checks = true then do
    refuse (row.state == .opened && t.otherOpen sourceID generation)
      (.constraint "source_file_generations_one_open_uq")
    return { t with generations := t.generations.insert (sourceID, generation) ⟨row, checked⟩ }
  else .error (.constraint "source_file_generations")

def insertGeneration (t : Registry) (sourceID generation : String) (row : FileGenerationRow) :
    Except SourceFault Registry := do
  refuse (t.generations.rows.any fun (key, _) => key.2 == generation)
    (.constraint "source_file_generations.generation")
  refuse (t.sources.lookup sourceID).isNone (.constraint "sources.source_id")
  t.put sourceID generation row

/-- What SQLite asks of a row of `source_checkpoints` or `processing_receipts`: the foreign keys,
and the triggers that reject a Retired generation. -/
def refer (t : Registry) (sourceID : String) (generation : Option String) :
    Except SourceFault Unit := do
  refuse (t.sources.lookup sourceID).isNone (.constraint "sources.source_id")
  refuse (generation.any fun g => (t.row? sourceID g).isNone)
    (.constraint "source_file_generations.generation")
  refuse (generation.any fun g => (t.row? sourceID g).any fun r => r.state == .retired)
    (.constraint "reject_retired")

def ensureSourceInsert (t : Registry) (sourceID nodeID : String) (kind : SourceKind)
    (now : Instant) : Except SourceFault Registry := do
  refuse (sourceID == "" || decide (128 < sourceID.utf8ByteSize))
    (.text "ensure source: source id is invalid")
  refuse (!isLowerHex128 nodeID) (.text "ensure source: node id must be 128-bit lowercase hex")
  refuse now.isZero (.text "ensure source: time is required")
  refuse (!between 1 128 (some sourceID) || now.unset) (.constraint "sources")
  if (t.sources.lookup sourceID).isSome then return t
  else
    refuse (t.nodeID != some nodeID) (.constraint "node_identity.node_id")
    return { t with sources := t.sources.insert sourceID { nodeID := nodeID, kind := kind } }

def ensureSource (t : Registry) (sourceID nodeID : String) (kind : SourceKind) (now : Instant) :
    Registry × Except SourceFault Unit :=
  match t.ensureSourceInsert sourceID nodeID kind now with
  | .error fault => (t, .error fault)
  | .ok t' => (t', refuse
      (!(t'.sources.lookup sourceID).any fun row => row.nodeID == nodeID && row.kind == kind)
      (.text "ensure source: persisted identity differs"))

def beginSourceSession (t : Registry) (sourceID expectedActive newID : String) :
    Except SourceFault Registry := do
  refuse (sourceID == "" || !isLowerHex128 newID ||
      (expectedActive != "" && !isLowerHex128 expectedActive) || newID == expectedActive)
    (.text "begin source session: valid Source, expected identity and fresh identity are required")
  match t.sources.lookup sourceID with
  | none => .error (.sentinel .sourceSessionConflict "source")
  | some source => do
    refuse (source.activeSessionID != if expectedActive = "" then none else some expectedActive)
      (.sentinel .sourceSessionConflict "source")
    return { t with
      sources := t.sources.insert sourceID { source with activeSessionID := some newID } }

/-- The conditional write that takes the write lock for the active session. -/
def holds (t : Registry) (session : SourceSession) : Bool :=
  (t.sources.lookup session.sourceID).any fun source => source.activeSessionID == some session.id

def lockSourceSession (t : Registry) (session : SourceSession) : Except SourceFault Unit := do
  refuse (session.sourceID == "" || !isLowerHex128 session.id)
    (.text "valid source session is required")
  refuse (!t.holds session) (.sentinel .staleSourceSession "source")

def createFileGeneration (t : Registry) (g : FileGeneration) : Except SourceFault Registry := do
  validateNewFileGeneration g
  refuse (!(newSourceFileGenerationRow g).checks) (.constraint "source_file_generations")
  if (t.row? g.sourceID g.generation).isSome then return t
  else t.insertGeneration g.sourceID g.generation (newSourceFileGenerationRow g)

def confirmFileGeneration (t : Registry) (g : FileGeneration) : Except SourceFault Unit :=
  match t.row? g.sourceID g.generation with
  | none => .error (.text "register file generation: read back missing")
  | some row => do
    refuse (row.deviceID != g.deviceID || row.inode != g.inode || row.path != g.path ||
        row.observedSize != g.observedSize || row.openedAtUS != g.openedAt.unixMicro)
      (.text "register file generation: immutable identity differs")
    refuse (row.state != .opened) (.sentinel .fileGenerationTransition "generation is already")

/-- The insert is not undone when the read back finds another generation. -/
def registerFileGeneration (t : Registry) (g : FileGeneration) :
    Registry × Except SourceFault Unit :=
  match t.createFileGeneration g with
  | .error fault => (t, .error fault)
  | .ok t' => (t', t'.confirmFileGeneration g)

def initializeFileGenerationCoverage (t : Registry) (session : SourceSession)
    (generation : String) : Except SourceFault Registry := do
  refuse (!isLowerHex128 generation) (.text "initialize coverage: invalid generation")
  t.lockSourceSession session
  match t.row? session.sourceID generation with
  | none => .error (.sentinel .sourcePositionMismatch "coverage generation unavailable")
  | some row => do
    refuse (row.state == .retired)
      (.sentinel .sourcePositionMismatch "coverage generation unavailable")
    if row.durableEndOffset.isSome then return t
    else
      t.put session.sourceID generation
        { row with durableEndOffset := some 0, coverageSessionID := some session.id }

/-- The `UPDATE` of one Open row to Draining, by `AdvanceFileGeneration` and by a rotation. -/
def drain (t : Registry) (sourceID generation : String) (at_ : Instant) :
    Except SourceFault Registry :=
  match t.row? sourceID generation with
  | none => .error (.sentinel .fileGenerationTransition "generation is not in open")
  | some row => do
    refuse (row.state != .opened || decide (at_.unixMicro < row.openedAtUS))
      (.sentinel .fileGenerationTransition "generation is not in open")
    t.put sourceID generation
      { row with state := .draining, drainingAtUS := some at_.unixMicro }

def advanceFileGeneration (t : Registry) (sourceID generation : String)
    (from_ to_ : FileGenerationState) (at_ : Instant) : Except SourceFault Registry := do
  refuse (sourceID == "" || !isLowerHex128 generation || at_.isZero)
    (.text "advance file generation: identity and time are required")
  refuse (from_ != .opened || to_ != .draining) (.sentinel .fileGenerationTransition "from -> to")
  t.drain sourceID generation at_

def sealRow (t : Registry) (sourceID generation : String) (from_ : FileGenerationState)
    (finalEOF maxSequence : Nat) (sealedAt : Instant) (sessionBound : Bool) :
    Except SourceFault Registry :=
  match t.row? sourceID generation with
  | none => .error (.sentinel .fileGenerationTransition "not in state or time regressed")
  | some row => do
    let since := if from_ = .draining then row.drainingAtUS else some row.openedAtUS
    refuse (row.state != from_ || (!sessionBound && row.durableEndOffset.isSome) ||
        !since.any fun us => decide (us ≤ sealedAt.unixMicro))
      (.sentinel .fileGenerationTransition "not in state or time regressed")
    t.put sourceID generation { row with
      state := .sealed
      finalEOF := some finalEOF
      maxDeliverySequence := some maxSequence
      sealedAtUS := some sealedAt.unixMicro }

def sealFileGeneration (t : Registry) (sourceID generation : String)
    (from_ : FileGenerationState) (finalEOF maxSequence : Nat) (sealedAt : Instant) :
    Except SourceFault Registry := do
  refuse (sourceID == "" || !isLowerHex128 generation || sealedAt.isZero ||
      decide (maxInt64 < finalEOF) || decide (maxInt64 < maxSequence))
    (.text "seal file generation: identity, SQLite-range high-water, and time are required")
  refuse (from_ != .opened && from_ != .draining)
    (.sentinel .fileGenerationTransition "from -> sealed")
  t.sealRow sourceID generation from_ finalEOF maxSequence sealedAt false

def sealFileGenerationWithSession (t : Registry) (session : SourceSession) (generation : String)
    (from_ : FileGenerationState) (finalEOF maxSequence : Nat) (sealedAt : Instant) :
    Except SourceFault Registry := do
  refuse (!isLowerHex128 generation || sealedAt.isZero || decide (maxInt64 < finalEOF) ||
    decide (maxInt64 < maxSequence)) (.text "seal generation: invalid range or time")
  refuse (from_ != .opened && from_ != .draining)
    (.sentinel .fileGenerationTransition "from -> sealed")
  t.lockSourceSession session
  t.sealRow session.sourceID generation from_ finalEOF maxSequence sealedAt true

def rotateFileGeneration (t : Registry) (sourceID oldGeneration : String) (next : FileGeneration)
    (rotatedAt : Instant) : Except SourceFault Registry := do
  refuse (sourceID == "" || !isLowerHex128 oldGeneration || rotatedAt.isZero ||
    next.sourceID != sourceID) (.text "rotate file generation: identity and time are required")
  validateNewFileGeneration next
  refuse (next.openedAt.unixMicro != rotatedAt.unixMicro)
    (.text "rotate file generation: replacement opened time must equal rotation time")
  let drained ← t.drain sourceID oldGeneration rotatedAt
  drained.insertGeneration sourceID next.generation (newSourceFileGenerationRow next)

def receiptReferences (t : Registry) (sourceID generation : String) : Bool :=
  t.receipts.rows.any fun (_, row) =>
    row.sourceID == sourceID && row.generation == some generation

def checkpointReferences (t : Registry) (sourceID generation : String) : Bool :=
  (t.checkpoints.lookup sourceID).any fun row => generationOf row.position == some generation

def retireFileGeneration (t : Registry) (sourceID generation : String) (retiredAt : Instant) :
    Except SourceFault Registry := do
  refuse (sourceID == "" || !isLowerHex128 generation || retiredAt.isZero)
    (.text "retire file generation: identity and time are required")
  match t.row? sourceID generation with
  | none => .error (.sentinel .fileGenerationTransition "generation is not sealed")
  | some row => do
    refuse (row.state != .sealed) (.sentinel .fileGenerationTransition "generation is not sealed")
    refuse (row.sealedAtUS.all fun us => retiredAt.before (.ofMicro us))
      (.sentinel .fileGenerationTransition "generation retirement predates sealing")
    refuse (t.receiptReferences sourceID generation)
      (.sentinel .fileGenerationReferenced "generation has receipt references")
    refuse (!(fileGenerationFromRow sourceID generation row).coverageComplete)
      (.sentinel .fileGenerationNotDurable "generation has no complete durable prefix")
    refuse (t.checkpointReferences sourceID generation)
      (.sentinel .fileGenerationReferenced "generation is the recovery checkpoint")
    t.put sourceID generation
      { row with state := .retired, retiredAtUS := some retiredAt.unixMicro }

def validateCheckpointPosition (t : Registry) (sourceID : String) (position : SourcePosition) :
    Except SourceFault Unit :=
  match t.sources.lookup sourceID, position with
  | none, _ => .error (.text "load source kind")
  | some source, .file p => do
    refuse (source.kind != .file)
      (.sentinel .sourcePositionMismatch "file position requires file source")
    refuse ((t.row? sourceID p.generation).all fun row => row.state == .retired ||
        row.deviceID != p.deviceID || row.inode != p.inode)
      (.sentinel .sourcePositionMismatch "file generation identity or lifecycle differs")
  | some source, .journald _ => refuse (source.kind != .journald)
      (.sentinel .sourcePositionMismatch "journald position requires journald source")
  | some _, .zero => .error (.sentinel .sourcePositionMismatch "unsupported position")

def writeCheckpoint (t : Registry) (session : SourceSession) (row : CheckpointRow) :
    Except SourceFault (Registry × Bool) := do
  refuse (!row.checks) (.constraint "source_checkpoints")
  t.refer session.sourceID (generationOf row.position)
  let written := { t with checkpoints := t.checkpoints.insert session.sourceID row }
  match t.checkpoints.lookup session.sourceID with
  | none => return (written, true)
  | some current =>
    if current.sessionID ≠ some session.id ∨ current.sequence < row.sequence then
      return (written, true)
    else do
      refuse (current.sequence != row.sequence || current.position != row.position)
        (.sentinel .checkpointRegression "source current sequence, attempted")
      return (t, false)

def advanceSpan (session : SourceSession) (advancing : Bool) (t : Registry)
    (span : FilePosition) : Except SourceFault Registry := do
  refuse (!isLowerHex128 span.generation || decide (span.endOffset < span.startOffset) ||
      decide (maxInt64 < span.endOffset) || decide (maxInt64 < span.deviceID) ||
      decide (maxInt64 < span.inode)) (.sentinel .sourcePositionMismatch "invalid coverage range")
  match t.row? session.sourceID span.generation with
  | none => .error (.sentinel .sourcePositionMismatch "coverage generation identity differs")
  | some row => do
    refuse (row.state == .retired || row.deviceID != span.deviceID || row.inode != span.inode)
      (.sentinel .sourcePositionMismatch "coverage generation identity differs")
    match row.durableEndOffset with
    | none => .error (.sentinel .fileGenerationNotDurable "unknown prefix")
    | some durable => do
      refuse (decide (durable < span.startOffset) ||
          row.finalEOF.any fun eof => decide (eof < span.endOffset))
        (.sentinel .fileGenerationNotDurable "gap or sealed boundary exceeded")
      if span.endOffset ≤ durable then return t
      else do
        refuse (!advancing)
          (.sentinel .checkpointRegression "equal sequence cannot extend coverage")
        t.put session.sourceID span.generation
          { row with
            durableEndOffset := some span.endOffset
            coverageSessionID := some session.id }

def spanHolds (last span : FilePosition) : Bool :=
  span.generation == last.generation && span.deviceID == last.deviceID &&
    span.inode == last.inode && decide (span.startOffset ≤ last.startOffset) &&
    decide (last.endOffset ≤ span.endOffset)

def advanceFileCoverage (t : Registry) (session : SourceSession) (position : SourcePosition)
    (ranges : List FilePosition) (advancing : Bool) : Except SourceFault Registry :=
  match position with
  | .file last => do
    refuse ranges.isEmpty (.sentinel .fileGenerationNotDurable "file coverage ranges required")
    let covered ← ranges.foldlM (advanceSpan session advancing) t
    refuse (!ranges.any (spanHolds last))
      (.sentinel .fileGenerationNotDurable "last checkpoint position absent from coverage")
    return covered
  | _ => .error (.sentinel .fileGenerationNotDurable "file coverage ranges required")

/-- The checks and the write of the checkpoint that come before the ranges; `coverage` says which
of the two functions is called. -/
def advanceCheckpointRow (t : Registry) (session : SourceSession) (sequence : Nat)
    (position : SourcePosition) (coverage : Bool) (persistedAt : Instant) :
    Except SourceFault (Registry × Bool) := do
  refuse (session.sourceID == "" || !isLowerHex128 session.id || sequence == 0 ||
      decide (maxInt64 < sequence))
    (.text "advance source checkpoint: source and positive SQLite-range sequence are required")
  refuse persistedAt.isZero (.text "advance source checkpoint: persisted time is required")
  position.encodable.mapError .fault
  refuse (!t.holds session) (.sentinel .staleSourceSession "source")
  t.validateCheckpointPosition session.sourceID position
  refuse (!coverage && t.generations.rows.any fun (key, stored) =>
      key.1 == session.sourceID && stored.row.durableEndOffset.isSome)
    (.sentinel .fileGenerationNotDurable "coverage checkpoint is required")
  t.writeCheckpoint session ⟨some session.id, sequence, position, persistedAt.unixMicro⟩

def advanceSourceCheckpoint (t : Registry) (session : SourceSession) (sequence : Nat)
    (position : SourcePosition) (persistedAt : Instant) : Except SourceFault Registry := do
  let (written, _) ← t.advanceCheckpointRow session sequence position false persistedAt
  return written

def advanceSourceCheckpointWithCoverage (t : Registry) (session : SourceSession)
    (sequence : Nat) (position : SourcePosition) (ranges : List FilePosition)
    (persistedAt : Instant) : Except SourceFault Registry := do
  let (written, advancing) ← t.advanceCheckpointRow session sequence position true persistedAt
  written.advanceFileCoverage session position ranges advancing

/-- `PutReceipt` and the commit of its unit of work. -/
def putReceipt (hash : DeliveryHash) (t : Registry) (r : ProcessingReceipt) :
    Except SourceFault Registry :=
  match receiptRow hash r with
  | .error cause => .error (.fault cause)
  | .ok row => do
    refuse (!row.checks) (.constraint "processing_receipts")
    refuse (t.receipts.lookup r.deliveryID).isSome (.constraint "processing_receipts.delivery_id")
    t.refer row.sourceID row.generation
    return { t with receipts := t.receipts.insert r.deliveryID row }

end Registry

structure Save where
  session : SourceSession
  sequence : Nat
  position : SourcePosition
  ranges : List FilePosition
  persistedAt : Instant
  deriving DecidableEq, Repr

inductive Operation where
  | ensureSource (sourceID nodeID : String) (kind : SourceKind) (now : Instant)
  | beginSession (sourceID expectedActive newID : String)
  | register (g : FileGeneration)
  | initializeCoverage (session : SourceSession) (generation : String)
  | checkpoint (session : SourceSession) (sequence : Nat) (position : SourcePosition)
      (persistedAt : Instant)
  | save (s : Save)
  | drain (sourceID generation : String) (from_ to_ : FileGenerationState) (at_ : Instant)
  | sealGeneration (sourceID generation : String) (from_ : FileGenerationState) (finalEOF maxSequence : Nat)
      (sealedAt : Instant)
  | sealWithSession (session : SourceSession) (generation : String) (from_ : FileGenerationState)
      (finalEOF maxSequence : Nat) (sealedAt : Instant)
  | rotate (sourceID oldGeneration : String) (next : FileGeneration) (rotatedAt : Instant)
  | retire (sourceID generation : String) (retiredAt : Instant)
  | receipt (r : ProcessingReceipt)

def transact (t : Registry) : Except SourceFault Registry → Registry × Except SourceFault Unit
  | .ok t' => (t', .ok ())
  | .error fault => (t, .error fault)

def Registry.apply (hash : DeliveryHash) (t : Registry) :
    Operation → Registry × Except SourceFault Unit
  | .ensureSource sourceID nodeID kind now => t.ensureSource sourceID nodeID kind now
  | .beginSession sourceID expected newID =>
      transact t (t.beginSourceSession sourceID expected newID)
  | .register g => t.registerFileGeneration g
  | .initializeCoverage session generation =>
      transact t (t.initializeFileGenerationCoverage session generation)
  | .checkpoint session sequence position persistedAt =>
      transact t (t.advanceSourceCheckpoint session sequence position persistedAt)
  | .save s => transact t
      (t.advanceSourceCheckpointWithCoverage s.session s.sequence s.position s.ranges s.persistedAt)
  | .drain sourceID generation from_ to_ at_ =>
      transact t (t.advanceFileGeneration sourceID generation from_ to_ at_)
  | .sealGeneration sourceID generation from_ finalEOF maxSequence sealedAt =>
      transact t (t.sealFileGeneration sourceID generation from_ finalEOF maxSequence sealedAt)
  | .sealWithSession session generation from_ finalEOF maxSequence sealedAt => transact t
      (t.sealFileGenerationWithSession session generation from_ finalEOF maxSequence sealedAt)
  | .rotate sourceID oldGeneration next rotatedAt =>
      transact t (t.rotateFileGeneration sourceID oldGeneration next rotatedAt)
  | .retire sourceID generation retiredAt =>
      transact t (t.retireFileGeneration sourceID generation retiredAt)
  | .receipt r => transact t (t.putReceipt hash r)

structure Archive where
  registry : Registry
  saves : List Save := []

def Operation.logged : Operation → List Save → List Save
  | .save s, saves => s :: saves
  | _, saves => saves

/-- One operation; a commit that does not land leaves everything as it was, whatever the caller is
told. -/
def Archive.step (hash : DeliveryHash) (a : Archive) (op : Operation × Bool) : Archive :=
  match op with
  | (_, false) => a
  | (operation, true) =>
      match a.registry.apply hash operation with
      | (t, .ok _) => ⟨t, operation.logged a.saves⟩
      | (t, .error _) => { a with registry := t }

def Archive.run (hash : DeliveryHash) (a : Archive) (ops : List (Operation × Bool)) : Archive :=
  ops.foldl (Archive.step hash) a

end GuardWall.Source
