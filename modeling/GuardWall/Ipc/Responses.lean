import GuardWall.Enforcer.Executor
import GuardWall.Ipc.SnapshotResponse

/-! The encoders of the three responses. Each checks the response once more and then counts the
bytes of its compact JSON text; every response that passed its constructor fits. -/
namespace GuardWall.Ipc

open GuardWall.Core GuardWall.Firewall GuardWall.Foundation GuardWall.Enforcer

inductive ProbeFailure where
  | unsupported
  | notReady
  deriving DecidableEq, Repr

inductive SnapshotFailure where
  | unsupported
  | ownershipConflict
  | notReady
  deriving DecidableEq, Repr

inductive ProbeResponse where
  | success (capabilities : Capabilities)
  | failure (code : ProbeFailure)
  deriving DecidableEq, Repr

inductive SnapshotResponse where
  | success (snapshot : ManagedSnapshot)
  | failure (code : SnapshotFailure)
  deriving DecidableEq, Repr

structure Payload where
  wire : Json
  size : Nat

section Texts

def ProbeFailure.text : ProbeFailure → String
  | unsupported => "unsupported"
  | notReady => "not_ready"

def SnapshotFailure.text : SnapshotFailure → String
  | unsupported => "unsupported"
  | ownershipConflict => "ownership_conflict"
  | notReady => "not_ready"

def domainText : Domain → String
  | .infrastructure => "infrastructure"
  | .policy => "policy"
  | .target => "target"

def statusText : Status → String
  | .confirmed => "confirmed"
  | .rejected => "rejected"
  | .unknown => "unknown"
  | .other => ""

def errorCodeText : ErrorCode → String
  | .invalidPlan => "invalid_plan"
  | .ownershipConflict => "ownership_conflict"
  | .unsupported => "unsupported"
  | .notReady => "not_ready"
  | .backendRejected => "backend_rejected"
  | .unknownResult => "unknown_result"
  | .none | .other => ""

def escapedBytes (c : Char) : Nat :=
  if c == '"' || c == '\\' then 2
  else if c == '<' || c == '>' || c == '&' then 6
  else c.utf8Size

def escapes (text : String) : Nat :=
  (text.toList.map fun c => escapedBytes c - c.utf8Size).sum

end Texts

section Encode

def maxProbeResponseBytes : Nat := 4096

def maxMutationResponseBytes : Nat := 4096

def bounded (limit : Nat) (payload : Payload) : Except CodecError Payload :=
  if limit < payload.size then .error .responseTooLarge else .ok payload

def failureWire (operation code : String) : Json :=
  .object [("version", .int 1), ("operation", .text operation), ("error_code", .text code)]

def probeFlags (c : Capabilities) : List (String × Bool) :=
  [("ipv4", c.ipv4), ("ipv6", c.ipv6), ("cidr", c.cidr), ("native_set", c.nativeSet),
    ("native_timeout", c.nativeTimeout), ("crash_safe_expiry", c.crashSafeExpiry),
    ("atomic_batch", c.atomicBatch), ("host_input", c.hostInput), ("forward", c.forward),
    ("ufw_integration_proven", c.ufwIntegrationProven),
    ("docker_integration_proven", c.dockerIntegrationProven),
    ("ownership_proven", c.ownershipProven), ("mutation_ready", c.mutationReady)]

def probeWire (c : Capabilities) : Json :=
  .object [("version", .int 1), ("operation", .text "ProbeCapabilities"),
    ("payload", .object (("backend", .text c.backend.text) ::
      ("tool_version", .text c.toolVersion) ::
      (probeFlags c).map fun flag => (flag.1, .bool flag.2)))]

/-- `EncodeProbeCapabilitiesResponse`; of its texts only the tool version can need escapes. -/
def encodeProbeCapabilitiesResponse : ProbeResponse → Except CodecError Payload
  | .success c =>
      if !c.valid then .error .semanticRejected
      else bounded maxProbeResponseBytes
        ⟨probeWire c, (probeWire c).bytes + escapes c.toolVersion⟩
  | .failure code =>
      let wire := failureWire "ProbeCapabilities" code.text
      bounded maxProbeResponseBytes ⟨wire, wire.bytes⟩

def encodeSnapshotResponse (hash : Hash (ManagedState × String)) :
    SnapshotResponse → Except CodecError Payload
  | .success s => do
      let wire ← encodeSnapshotManagedResponse hash s
      return ⟨wire, wire.bytes⟩
  | .failure code =>
      let wire := failureWire "SnapshotManaged" code.text
      bounded maxResponseBytes ⟨wire, wire.bytes⟩

/-- The wire forms of both mutation responses; `error_code` is left out when there is none. -/
def mutationWire (response : Response) : Json :=
  let code : List (String × Json) :=
    if response.errorCode = .none then [] else
      [("error_code", .text (errorCodeText response.errorCode))]
  match response.operation with
  | .apply domain =>
      .object ([("version", .int 1), ("operation", .text "ApplyManagedPlan"),
        ("status", .text (statusText response.status)), ("domain", .text (domainText domain))] ++
        code)
  | .remove =>
      .object ([("version", .int 1), ("operation", .text "RemoveManagedInfrastructure"),
        ("status", .text (statusText response.status))] ++ code)

/-- `validApplyResponseState` and `validRemoveResponseState` -/
def validResponseState (response : Response) : Bool :=
  validMutationResultState response.operation.kind response.status response.errorCode
    (response.errorCode != .none)

def encodeMutationResponse (response : Response) : Except CodecError Payload :=
  if !validResponseState response then .error .schemaRejected
  else bounded maxMutationResponseBytes ⟨mutationWire response, (mutationWire response).bytes⟩

end Encode

section Fit

theorem bounded_eq_ok {limit : Nat} {payload : Payload} (fits : payload.size ≤ limit) :
    bounded limit payload = .ok payload := if_neg (not_lt.mpr fits)

theorem escapedBytes_le (c : Char) : escapedBytes c - c.utf8Size ≤ 5 := by
  have positive := c.utf8Size_pos
  unfold escapedBytes
  split
  · omega
  split <;> omega

theorem escapes_le (text : String) : escapes text ≤ 5 * text.toList.length := by
  unfold escapes
  induction text.toList with
  | nil => rfl
  | cons c rest ih =>
    have first := escapedBytes_le c
    simp only [List.map_cons, List.sum_cons, List.length_cons]
    omega

theorem fieldBytes_flags_le (flags : List (String × Bool)) :
    Json.fieldBytes (flags.map fun flag => (flag.1, .bool flag.2)) ≤
      (flags.map fun flag => flag.1.utf8ByteSize + 9).sum := by
  induction flags with
  | nil => exact Nat.le_refl 0
  | cons flag rest ih =>
    have value : (Json.bool flag.2).bytes ≤ 5 := by cases flag.2 <;> decide
    simp only [List.map_cons, Json.fieldBytes, List.sum_cons]
    omega

theorem bytes_failureWire_le {operation code : String} (named : operation.utf8ByteSize ≤ 20)
    (coded : code.utf8ByteSize ≤ 20) : (failureWire operation code).bytes ≤ 100 := by
  have texts : "version".utf8ByteSize = 7 ∧ "operation".utf8ByteSize = 9 ∧
      "error_code".utf8ByteSize = 10 ∧ (toString (1 : Int)).utf8ByteSize = 1 := by decide
  obtain ⟨t1, t2, t3, t4⟩ := texts
  simp only [failureWire, Json.bytes, Json.fieldBytes, t1, t2, t3, t4]
  omega

theorem encode_probeFailure (code : ProbeFailure) :
    ∃ payload, encodeProbeCapabilitiesResponse (.failure code) = .ok payload ∧
      payload.size ≤ maxProbeResponseBytes := by
  have small : (failureWire "ProbeCapabilities" code.text).bytes ≤ maxProbeResponseBytes :=
    (bytes_failureWire_le (by decide) (by cases code <;> decide)).trans (by decide)
  exact ⟨_, bounded_eq_ok small, small⟩

theorem encode_snapshotFailure (hash : Hash (ManagedState × String)) (code : SnapshotFailure) :
    ∃ payload, encodeSnapshotResponse hash (.failure code) = .ok payload ∧
      payload.size ≤ maxResponseBytes := by
  have small : (failureWire "SnapshotManaged" code.text).bytes ≤ maxResponseBytes :=
    (bytes_failureWire_le (by decide) (by cases code <;> decide)).trans (by decide)
  exact ⟨_, bounded_eq_ok small, small⟩

theorem bytes_probeWire_le {c : Capabilities} (valid : c.valid = true) :
    (probeWire c).bytes + escapes c.toolVersion ≤ maxProbeResponseBytes := by
  have version : c.toolVersion.utf8ByteSize ≤ 128 := by
    unfold Capabilities.valid validToolVersion at valid
    simp only [Bool.and_eq_true, decide_eq_true_eq] at valid
    exact valid.1.1.1.1.1.1.1.1.1.1.2
  have escaped := escapes_le c.toolVersion
  have characters := length_le_utf8ByteSize c.toolVersion
  rw [String.length_toList] at escaped
  have backend : c.backend.text.utf8ByteSize ≤ 15 := by cases c.backend <;> decide
  have texts : "version".utf8ByteSize = 7 ∧ "operation".utf8ByteSize = 9 ∧
      "ProbeCapabilities".utf8ByteSize = 17 ∧ "payload".utf8ByteSize = 7 ∧
      "backend".utf8ByteSize = 7 ∧ "tool_version".utf8ByteSize = 12 ∧
      (toString (1 : Int)).utf8ByteSize = 1 := by decide
  have names : ((probeFlags c).map fun flag => flag.1.utf8ByteSize + 9).sum = 276 := by
    simp only [probeFlags, List.map_cons, List.map_nil, List.sum_cons, List.sum_nil]
    decide
  have flags := fieldBytes_flags_le (probeFlags c)
  simp only [maxProbeResponseBytes, probeWire, Json.bytes, Json.fieldBytes, texts]
  omega

theorem encode_probeSuccess {c : Capabilities} (valid : c.valid = true) :
    ∃ payload, encodeProbeCapabilitiesResponse (.success c) = .ok payload ∧
      payload.size ≤ maxProbeResponseBytes := by
  have small := bytes_probeWire_le valid
  refine ⟨⟨probeWire c, (probeWire c).bytes + escapes c.toolVersion⟩, ?_, small⟩
  simp only [encodeProbeCapabilitiesResponse, valid, Bool.not_true, Bool.false_eq_true, if_false]
  exact bounded_eq_ok small

theorem encode_snapshotSuccess {hash : Hash (ManagedState × String)} {s : ManagedSnapshot}
    (valid : s.valid hash = true) (built : ∀ o ∈ s.state.targets, Built o) :
    ∃ payload, encodeSnapshotResponse hash (.success s) = .ok payload ∧
      payload.size ≤ maxResponseBytes := by
  have small : (successWire s).bytes ≤ maxResponseBytes := by
    have scanned := scan_wire valid built
    simp only [scan, bind_eq_ok, ensure_eq_ok, decide_eq_true_eq] at scanned
    obtain ⟨_, bytes, _⟩ := scanned
    exact bytes
  have encoded : encodeSnapshotManagedResponse hash s = .ok (successWire s) := by
    unfold encodeSnapshotManagedResponse
    rw [if_neg (by simp [valid]), if_neg (not_lt.mpr small)]
  refine ⟨⟨successWire s, (successWire s).bytes⟩, ?_, small⟩
  simp only [encodeSnapshotResponse, encoded]
  rfl

theorem bytes_mutationWire_le (response : Response) :
    (mutationWire response).bytes ≤ maxMutationResponseBytes := by
  have texts : "version".utf8ByteSize = 7 ∧ "operation".utf8ByteSize = 9 ∧
      "ApplyManagedPlan".utf8ByteSize = 16 ∧ "RemoveManagedInfrastructure".utf8ByteSize = 27 ∧
      "status".utf8ByteSize = 6 ∧ "domain".utf8ByteSize = 6 ∧ "error_code".utf8ByteSize = 10 ∧
      (toString (1 : Int)).utf8ByteSize = 1 := by decide
  have status : (statusText response.status).utf8ByteSize ≤ 9 := by
    cases response.status <;> decide
  have code : (errorCodeText response.errorCode).utf8ByteSize ≤ 18 := by
    cases response.errorCode <;> decide
  have domain : ∀ d, (domainText d).utf8ByteSize ≤ 14 := by
    intro d
    cases d <;> decide
  unfold mutationWire maxMutationResponseBytes
  cases response.operation with
  | apply d =>
    have := domain d
    by_cases none_ : response.errorCode = .none <;>
      simp only [none_, if_true, if_false, List.cons_append, List.nil_append, Json.bytes,
        Json.fieldBytes, texts] <;> omega
  | remove =>
    by_cases none_ : response.errorCode = .none <;>
      simp only [none_, if_true, if_false, List.cons_append, List.nil_append, Json.bytes,
        Json.fieldBytes, texts] <;> omega

theorem encode_mutation {response : Response} (valid : validResponseState response = true) :
    ∃ payload, encodeMutationResponse response = .ok payload ∧
      payload.size ≤ maxMutationResponseBytes := by
  have small := bytes_mutationWire_le response
  refine ⟨⟨mutationWire response, (mutationWire response).bytes⟩, ?_, small⟩
  unfold encodeMutationResponse
  rw [if_neg (by simp [valid])]
  exact bounded_eq_ok small

theorem valid_of_newResponse {operation : Operation} {status : Status} {code : ErrorCode}
    {response : Response} (built : newResponse operation status code = some response) :
    validResponseState response = true := by
  unfold newResponse at built
  split at built
  · rename_i valid
    cases built
    exact valid
  · cases built

end Fit

end GuardWall.Ipc
