import GuardWall.Ipc.Requests

/-! `DecodeRequest` and `DecodeFrame`: what the bytes of a peer become. Between the bytes and the
JSON value stand `unicode/utf8` and `encoding/json`; everything after them is here. -/
namespace GuardWall.Ipc

open GuardWall.Core GuardWall.Firewall GuardWall.Foundation GuardWall.Enforcer

inductive Request where
  | probeCapabilities
  | snapshotManaged
  | mutation (request : Enforcer.Request)
  deriving DecidableEq, Repr

inductive ValidationError where
  | requestTooLarge
  | invalidUTF8
  | invalidJSON
  | duplicateKey
  | maxDepthExceeded
  | tokenLimitExceeded
  | refused (code : RequestError)
  deriving DecidableEq, Repr

def maxRequestBytes : Nat := 65536

def maxJSONDepth : Nat := 8

def maxJSONTokens : Nat := 4096

/-- `utf8.Valid` and the JSON value of a payload that is one JSON text. -/
structure TextReader where
  utf8 : List UInt8 → Bool
  json : List UInt8 → Option Json

def require {α : Type} (value : Option α) : Except RequestError α :=
  match value with
  | some a => .ok a
  | none => .error .schemaRejected

section Schema

def isHexText (c : Char) : Bool :=
  ('0' ≤ c && c ≤ '9') || ('A' ≤ c && c ≤ 'F') || ('a' ≤ c && c ≤ 'f') || c == ':' || c == '.'

/-- `schemaPrefixString`: an address, the last slash and at most three digits. -/
def schemaPrefixString (value : Json) : Option String := do
  let text ← value.asText
  let characters := text.toList
  let bits := (characters.reverse.takeWhile (· != '/')).reverse
  let address := characters.take (characters.length - bits.length - 1)
  if characters.length < 3 || 64 < characters.length || !characters.contains '/' ||
      address.isEmpty || bits.isEmpty || 3 < bits.length || !bits.all Char.isDigit ||
      !address.all isHexText then none
  else some text

def schemaPrefixStrings (value : Json) (minimum maximum : Nat) : Option (List String) :=
  match value with
  | .array items =>
      if items.length < minimum || maximum < items.length then none
      else do
        let texts ← items.mapM schemaPrefixString
        if texts.Nodup then some texts else none
  | _ => none

def scopeOf (text : String) : Option ManagedScope :=
  if text = "input" then some .input else if text = "forward" then some .forward else none

def schemaScopes (value : Json) : Option (List ManagedScope) :=
  match value with
  | .array items =>
      if items.length < 1 || 2 < items.length then none
      else do
        let scopes ← items.mapM fun item => item.asText.bind scopeOf
        if scopes.Nodup then some scopes else none
  | _ => none

def singleOperation (value : Json) : Option Json :=
  match value with
  | .array [.object fields] => some (.object fields)
  | _ => none

def nullablePositive (value : Json) : Option (Option Int) :=
  match value with
  | .null => some none
  | value => value.asPositive.map some

def membershipOf (text : String) : Option BanMembership :=
  if text = "present" then some .present else if text = "absent" then some .absent else none

def stringsAreSorted : List String → Bool
  | [] => true
  | [_] => true
  | first :: second :: rest => !decide (second < first) && stringsAreSorted (second :: rest)

end Schema

section Decode

variable (netip : PrefixParser)

def canonicalPrefixList (texts : List String) : Except RequestError (List Prefix) := do
  refuse (!stringsAreSorted texts) .noncanonicalOrder
  texts.mapM fun text => do
    let c ← canonicalPrefix netip text
    return some c

def decodePlanBase (payload : Json) (revisionField : String) :
    Except RequestError (String × Nat) := do
  let owner ← require ((payload.field "owner_version").bind Json.asText)
  let digest ← require ((payload.field "basis_snapshot_digest").bind Json.asText)
  let revision ← require ((payload.field revisionField).bind Json.asPositive)
  refuse (owner != managedOwnerVersion || !validSnapshotDigest digest) .schemaRejected
  return (digest, revision.toNat)

/-- The part the three plans share: the members of the payload and the one operation in it. -/
def decodeOperation (payload : Json) (revisionField kind : String) (members : List String) :
    Except RequestError (String × Nat × Json) := do
  refuse (!payload.shape ["domain", "owner_version", "basis_snapshot_digest", revisionField,
    "operations"]) .schemaRejected
  let (digest, revision) ← decodePlanBase payload revisionField
  let operation ← require ((payload.field "operations").bind singleOperation)
  refuse (!operation.shape ("kind" :: members)) .schemaRejected
  let named ← require ((operation.field "kind").bind Json.asText)
  refuse (named != kind) .schemaRejected
  return (digest, revision, operation)

def decodeInfrastructurePlan (payload : Json) : Except RequestError ManagedPlan := do
  let (digest, revision, operation) ← decodeOperation payload "infrastructure_revision"
    "ensure_infrastructure" ["schema_version"]
  let schemaVersion ← require ((operation.field "schema_version").bind Json.asPositive)
  refuse (schemaVersion != 1) .schemaRejected
  return .infrastructure managedOwnerVersion digest revision schemaVersion

def decodePolicyPlan (payload : Json) : Except RequestError ManagedPlan := do
  let (digest, revision, operation) ← decodeOperation payload "policy_revision" "replace_policy"
    ["allowlist", "protected_targets"]
  let allowlist ← require ((operation.field "allowlist").bind
    (schemaPrefixStrings · 0 maxPlanPrefixes))
  let protectedTargets ← require ((operation.field "protected_targets").bind
    (schemaPrefixStrings · 2 maxPlanPrefixes))
  refuse (maxPlanPrefixes < allowlist.length + protectedTargets.length) .prefixLimit
  let parsedAllowlist ← canonicalPrefixList netip allowlist
  let parsedProtected ← canonicalPrefixList netip protectedTargets
  refuse (!protectedTargets.contains "127.0.0.0/8" || !protectedTargets.contains "::1/128")
    .protectedPolicyMissing
  return .policy managedOwnerVersion digest revision parsedAllowlist parsedProtected

def decodeTargetPlan (payload : Json) : Except RequestError ManagedPlan := do
  let (digest, generation, operation) ← decodeOperation payload "target_generation" "set_target"
    ["target", "membership", "timeout_mode", "effective_until_unix_us", "scopes"]
  let targetText ← require ((operation.field "target").bind schemaPrefixString)
  let membership ← require (((operation.field "membership").bind Json.asText).bind membershipOf)
  let mode ← require (((operation.field "timeout_mode").bind Json.asText).bind timeoutMode)
  let expiry ← require ((operation.field "effective_until_unix_us").bind nullablePositive)
  let scopes ← require ((operation.field "scopes").bind schemaScopes)
  let c ← canonicalPrefix netip targetText
  refuse (Prefix.overlaps (some c) Prefix.loopback4 || Prefix.overlaps (some c) Prefix.loopback6)
    .protectedTarget
  refuse (scopes.length == 2 && scopes != [.input, .forward]) .invalidScope
  refuse (membership == .absent && (mode != .none || expiry.isSome)) .invalidTimeout
  refuse (mode == .native && expiry.isNone) .invalidTimeout
  refuse (mode == .none && expiry.isSome) .invalidTimeout
  return .target managedOwnerVersion digest generation (some c) membership mode expiry scopes

def decodeManagedPlan (payload : Json) : Except RequestError ManagedPlan := do
  let domain ← require ((payload.field "domain").bind Json.asText)
  match domain with
  | "infrastructure" => decodeInfrastructurePlan payload
  | "policy" => decodePolicyPlan netip payload
  | "target" => decodeTargetPlan netip payload
  | _ => .error .schemaRejected

def decodeRequestObject (root : Json) : Except RequestError Request := do
  refuse (!root.shape ["version", "operation", "payload"]) .schemaRejected
  let version ← require ((root.field "version").bind Json.asPositive)
  refuse (version != 1) .schemaRejected
  let operation ← require ((root.field "operation").bind Json.asText)
  let payload ← require (root.field "payload")
  match operation with
  | "ProbeCapabilities" =>
      refuse (!payload.shape []) .schemaRejected
      return .probeCapabilities
  | "SnapshotManaged" =>
      refuse (!payload.shape []) .schemaRejected
      return .snapshotManaged
  | "ApplyManagedPlan" =>
      let plan ← decodeManagedPlan netip payload
      return .mutation (.apply plan)
  | "RemoveManagedInfrastructure" =>
      refuse (!payload.shape ["expected_owner_version"]) .schemaRejected
      let owner ← require ((payload.field "expected_owner_version").bind Json.asText)
      refuse (owner != managedOwnerVersion) .schemaRejected
      return .mutation (.remove owner)
  | _ => .error .schemaRejected

variable (reader : TextReader)

/-- `scanJSON`, once the payload is known to be one JSON text. -/
def scanJSON (value : Json) : Except ValidationError Unit :=
  if maxJSONDepth < value.depth then .error .maxDepthExceeded
  else if !value.distinct then .error .duplicateKey
  else if maxJSONTokens < value.tokens then .error .tokenLimitExceeded
  else .ok ()

def decodeRequest (raw : List UInt8) : Except ValidationError Request :=
  if maxRequestBytes < raw.length then .error .requestTooLarge
  else if !reader.utf8 raw then .error .invalidUTF8
  else
    match reader.json raw with
    | none => .error .invalidJSON
    | some value => do
        scanJSON value
        (decodeRequestObject netip value).mapError .refused

inductive FrameFailure where
  | truncatedLength
  | frameTooLarge
  | truncatedPayload
  | invalid (code : ValidationError)
  deriving DecidableEq, Repr

def maxFrameBytes : Nat := 1048576

def uint32 (header : List UInt8) : Nat :=
  header.foldl (fun value byte => value * 256 + byte.toNat) 0

/-- `DecodeFrame` of a stream that delivers `stream` and then ends, fails or times out. -/
def decodeFrame (stream : List UInt8) : Except FrameFailure Request :=
  if stream.length < 4 then .error .truncatedLength
  else
    let payloadLength := uint32 (stream.take 4)
    if maxFrameBytes < payloadLength then .error .frameTooLarge
    else if maxRequestBytes < payloadLength then .error (.invalid .requestTooLarge)
    else if (stream.drop 4).length < payloadLength then .error .truncatedPayload
    else (decodeRequest netip reader ((stream.drop 4).take payloadLength)).mapError .invalid

end Decode

def Request.correlatable : Request → Prop
  | mutation request => request.correlatable = true
  | _ => True

section Correlation

variable {netip : PrefixParser} {reader : TextReader}

theorem correlatable_of_decodeRequestObject {root : Json} {request : Request}
    (decoded : decodeRequestObject netip root = .ok request) : request.correlatable := by
  simp only [decodeRequestObject, bind_eq_ok] at decoded
  obtain ⟨_, _, _, _, _, _, operation, _, payload, _, decoded⟩ := decoded
  split at decoded
  · simp only [bind_eq_ok] at decoded
    obtain ⟨_, _, decoded⟩ := decoded
    cases decoded
    trivial
  · simp only [bind_eq_ok] at decoded
    obtain ⟨_, _, decoded⟩ := decoded
    cases decoded
    trivial
  · simp only [bind_eq_ok] at decoded
    obtain ⟨plan, _, decoded⟩ := decoded
    cases decoded
    rfl
  · simp only [bind_eq_ok, refuse_eq_ok, bne_eq_false_iff_eq] at decoded
    obtain ⟨_, _, owner, _, _, owned, decoded⟩ := decoded
    cases decoded
    exact beq_iff_eq.mpr owned
  · cases decoded

theorem correlatable_of_decodeRequest {raw : List UInt8} {request : Request}
    (decoded : decodeRequest netip reader raw = .ok request) : request.correlatable := by
  unfold decodeRequest at decoded
  split at decoded
  · cases decoded
  split at decoded
  · cases decoded
  split at decoded
  · cases decoded
  · simp only [bind_eq_ok, mapError_eq_ok] at decoded
    obtain ⟨_, _, decoded⟩ := decoded
    exact correlatable_of_decodeRequestObject decoded

theorem correlatable_of_decodeFrame {stream : List UInt8} {request : Request}
    (decoded : decodeFrame netip reader stream = .ok request) : request.correlatable := by
  unfold decodeFrame at decoded
  split at decoded
  · cases decoded
  dsimp only at decoded
  split at decoded
  · cases decoded
  split at decoded
  · cases decoded
  split at decoded
  · cases decoded
  · exact correlatable_of_decodeRequest (mapError_eq_ok.mp decoded)

end Correlation

end GuardWall.Ipc
