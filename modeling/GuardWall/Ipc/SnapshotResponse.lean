import GuardWall.Core.PrefixText
import GuardWall.Firewall.Mutation

/-! The Snapshot response of the IPC: what `EncodeSnapshotManagedResponse` writes and
`DecodeSnapshotManagedResponse` reads back, at the level of JSON values. Between a value and its
compact text stands `encoding/json`; the limits of the codec count the bytes, the tokens and the
depth of that text. -/
namespace GuardWall.Ipc

open GuardWall.Core GuardWall.Firewall GuardWall.Foundation

inductive Json where
  | null
  | bool (value : Bool)
  | int (value : Int)
  | text (value : String)
  | array (items : List Json)
  | object (fields : List (String × Json))

namespace Json

mutual

/-- The bytes of the compact text. None of the texts of a response has a character that is
escaped. -/
def bytes : Json → Nat
  | null => 4
  | bool value => if value then 4 else 5
  | int value => (toString value).utf8ByteSize
  | text value => value.utf8ByteSize + 2
  | array items => max 1 (itemBytes items) + 1
  | object fields => max 1 (fieldBytes fields) + 1

def itemBytes : List Json → Nat
  | [] => 0
  | item :: rest => item.bytes + 1 + itemBytes rest

def fieldBytes : List (String × Json) → Nat
  | [] => 0
  | (name, value) :: rest => name.utf8ByteSize + 3 + value.bytes + 1 + fieldBytes rest

end

mutual

def tokens : Json → Nat
  | array items => itemTokens items + 2
  | object fields => fieldTokens fields + 2
  | _ => 1

def itemTokens : List Json → Nat
  | [] => 0
  | item :: rest => item.tokens + itemTokens rest

def fieldTokens : List (String × Json) → Nat
  | [] => 0
  | (_, value) :: rest => 1 + value.tokens + fieldTokens rest

end

mutual

def depth : Json → Nat
  | array items => itemDepth items + 1
  | object fields => fieldDepth fields + 1
  | _ => 0

def itemDepth : List Json → Nat
  | [] => 0
  | item :: rest => max item.depth (itemDepth rest)

def fieldDepth : List (String × Json) → Nat
  | [] => 0
  | (_, value) :: rest => max value.depth (fieldDepth rest)

end

mutual

def distinct : Json → Bool
  | array items => itemsDistinct items
  | object fields => decide (fields.map Prod.fst).Nodup && fieldsDistinct fields
  | _ => true

def itemsDistinct : List Json → Bool
  | [] => true
  | item :: rest => item.distinct && itemsDistinct rest

def fieldsDistinct : List (String × Json) → Bool
  | [] => true
  | (_, value) :: rest => value.distinct && fieldsDistinct rest

end

/-- `value.(map[string]any)` and a lookup. -/
def field (name : String) : Json → Option Json
  | object fields => (fields.find? fun f => f.1 == name).map Prod.snd
  | _ => none

def shape (names : List String) : Json → Bool
  | object fields =>
      fields.length == names.length && names.all fun name => fields.any fun f => f.1 == name
  | _ => false

def asText : Json → Option String
  | text value => some value
  | _ => none

def asBool : Json → Option Bool
  | bool value => some value
  | _ => none

def asPositive : Json → Option Int
  | int value => if 0 < value ∧ value ≤ maxInt64 then some value else none
  | _ => none

end Json

inductive CodecError where
  | responseTooLarge
  | duplicateKey
  | maxDepthExceeded
  | tokenLimitExceeded
  | schemaRejected
  | semanticRejected
  deriving DecidableEq, Repr

def maxResponseBytes : Nat := 1048576

def maxResponseDepth : Nat := 4

def maxResponseTokens : Nat := 32768

def timeoutText : TimeoutMode → String
  | .none => "none"
  | .native => "native"

section Encode

def infrastructureWire (o : InfrastructureObservation) : Json :=
  .object [("backend", .text o.backend.text), ("owner_version", .text o.ownerVersion),
    ("schema_version", .int o.schemaVersion), ("digest", .text o.digest)]

def policyWire (relationDigest : String) : Json :=
  .object [("relation_digest", .text relationDigest)]

def targetWire (o : TargetObservation) : Json :=
  .object [("target", .text o.target.toText), ("membership", .text "present"),
    ("timeout_mode", .text (timeoutText o.timeoutMode)),
    ("effective_until_unix_us", o.effectiveUntilUS.elim .null .int),
    ("input", .bool (o.scopes.contains .input)), ("forward", .bool (o.scopes.contains .forward))]

/-- `snapshotManagedPayloadFromDomain` -/
def payloadWire (s : ManagedSnapshot) : Json :=
  .object [("snapshot_digest", .text s.digest),
    ("infrastructure", s.state.infrastructure.elim .null infrastructureWire),
    ("policy", s.state.policy.elim .null policyWire),
    ("targets", .array (s.state.targets.map targetWire)),
    ("foreign_context_digest", .text s.foreignDigest)]

def successWire (s : ManagedSnapshot) : Json :=
  .object [("version", .int 1), ("operation", .text "SnapshotManaged"), ("payload", payloadWire s)]

/-- `EncodeSnapshotManagedResponse` of a success response. -/
def encodeSnapshotManagedResponse (hash : Hash (ManagedState × String)) (s : ManagedSnapshot) :
    Except CodecError Json :=
  if !s.valid hash then .error .semanticRejected
  else if maxResponseBytes < (successWire s).bytes then .error .responseTooLarge
  else .ok (successWire s)

end Encode

/-- `netip.ParsePrefix`, of which the codec needs that it reads what `Prefix.String` writes. -/
structure PrefixParser where
  parse : String → Option Cidr
  reads : ∀ c, parse c.toText = some c

section Decode

variable (netip : PrefixParser) (hash : Hash (ManagedState × String))

def ensure (condition : Bool) (code : CodecError) : Except CodecError Unit :=
  if condition then .ok () else .error code

def expect {α : Type} (value : Option α) (code : CodecError) : Except CodecError α :=
  match value with
  | some a => .ok a
  | none => .error code

/-- The bytes are counted first, then the scan meets the other limits. -/
def scan (raw : Json) : Except CodecError Unit := do
  ensure (decide (raw.bytes ≤ maxResponseBytes)) .responseTooLarge
  ensure (decide (raw.depth ≤ maxResponseDepth)) .maxDepthExceeded
  ensure raw.distinct .duplicateKey
  ensure (decide (raw.tokens ≤ maxResponseTokens)) .tokenLimitExceeded

def backendKind (text : String) : Option BackendKind :=
  [.nftablesNative, .iptablesNFT, .iptablesLegacy].find? fun kind => kind.text == text

def timeoutMode (text : String) : Option TimeoutMode :=
  [.none, .native].find? fun mode => timeoutText mode == text

def decodeInfrastructure (value : Json) : Except CodecError (Option InfrastructureObservation) :=
  match value with
  | .null => .ok none
  | value => do
      ensure (value.shape ["backend", "owner_version", "schema_version", "digest"]) .schemaRejected
      let backend ← expect ((value.field "backend").bind Json.asText) .schemaRejected
      let owner ← expect ((value.field "owner_version").bind Json.asText) .schemaRejected
      let schema ← expect ((value.field "schema_version").bind Json.asPositive) .schemaRejected
      let digest ← expect ((value.field "digest").bind Json.asText) .schemaRejected
      ensure (validSnapshotDigest digest) .schemaRejected
      let kind ← expect (backendKind backend) .semanticRejected
      let observation : InfrastructureObservation := ⟨kind, owner, schema, digest⟩
      ensure observation.valid .semanticRejected
      return some observation

def decodePolicy (value : Json) : Except CodecError (Option String) :=
  match value with
  | .null => .ok none
  | value => do
      ensure (value.shape ["relation_digest"]) .schemaRejected
      let digest ← expect ((value.field "relation_digest").bind Json.asText) .schemaRejected
      ensure (validSnapshotDigest digest) .schemaRejected
      return some digest

def newTargetObservation (target : Prefix) (mode : TimeoutMode) (untilUS : Option Int)
    (scopes : List ManagedScope) : Option TargetObservation :=
  match canonicalManagedScopes scopes with
  | some scopes =>
      if TargetObservation.valid ⟨target, mode, untilUS, scopes⟩ then
        some ⟨target, mode, untilUS, scopes⟩
      else none
  | none => none

def decodeExpiry (value : Option Json) : Except CodecError (Option Int) :=
  match value with
  | some .null | none => .ok none
  | some value => do
      let us ← expect value.asPositive .schemaRejected
      return some us

/-- One item of `decodeSnapshotTargets`, with the text of the item before it. -/
def decodeTarget (previous : String) (item : Json) : Except CodecError TargetObservation := do
  ensure (item.shape ["target", "membership", "timeout_mode", "effective_until_unix_us", "input",
    "forward"]) .schemaRejected
  let text ← expect ((item.field "target").bind Json.asText) .schemaRejected
  let membership ← expect ((item.field "membership").bind Json.asText) .schemaRejected
  ensure (membership == "present") .schemaRejected
  let modeText ← expect ((item.field "timeout_mode").bind Json.asText) .schemaRejected
  let input ← expect ((item.field "input").bind Json.asBool) .schemaRejected
  let forward ← expect ((item.field "forward").bind Json.asBool) .schemaRejected
  ensure (input || forward) .semanticRejected
  let cidr ← expect (netip.parse text) .semanticRejected
  ensure (cidr.toText == text && !(previous != "" && decide (text ≤ previous))) .semanticRejected
  let untilUS ← decodeExpiry (item.field "effective_until_unix_us")
  let mode ← expect (timeoutMode modeText) .semanticRejected
  expect (newTargetObservation (some cidr) mode untilUS
    ((if input then [.input] else []) ++ (if forward then [.forward] else []))) .semanticRejected

def decodeTargets (previous : String) : List Json → Except CodecError (List TargetObservation)
  | [] => .ok []
  | item :: rest => do
      let observation ← decodeTarget netip previous item
      let later ← decodeTargets observation.target.toText rest
      return observation :: later

/-- `NewManagedState`, whose targets are sorted by their texts. -/
def newManagedState (infrastructure : Option InfrastructureObservation) (policy : Option String)
    (targets : List TargetObservation) : Option ManagedState :=
  let state : ManagedState :=
    ⟨infrastructure, policy,
      targets.mergeSort fun a b => decide (a.target.toText ≤ b.target.toText)⟩
  if state.valid then some state else none

def newManagedSnapshot (state : ManagedState) (foreignDigest : String) : Option ManagedSnapshot :=
  if state.valid && validSnapshotDigest foreignDigest then
    some ⟨state, foreignDigest, hash.hex (state, foreignDigest)⟩
  else none

def decodePayload (payload : Json) : Except CodecError ManagedSnapshot := do
  ensure (payload.shape ["snapshot_digest", "infrastructure", "policy", "targets",
    "foreign_context_digest"]) .schemaRejected
  let digest ← expect ((payload.field "snapshot_digest").bind Json.asText) .schemaRejected
  let foreignDigest ← expect ((payload.field "foreign_context_digest").bind Json.asText)
    .schemaRejected
  ensure (validSnapshotDigest digest && validSnapshotDigest foreignDigest) .schemaRejected
  let infrastructure ← decodeInfrastructure ((payload.field "infrastructure").getD .null)
  let policy ← decodePolicy ((payload.field "policy").getD .null)
  let items ← expect ((payload.field "targets").bind fun value =>
    match value with
    | .array items => some items
    | _ => none) .schemaRejected
  ensure (decide (items.length ≤ maxManagedSnapshotTargets)) .schemaRejected
  let targets ← decodeTargets netip "" items
  let state ← expect (newManagedState infrastructure policy targets) .semanticRejected
  let snapshot ← expect (newManagedSnapshot hash state foreignDigest) .semanticRejected
  ensure (snapshot.digest == digest) .semanticRejected
  return snapshot

/-- `DecodeSnapshotManagedResponse` of a success response. -/
def decodeSnapshotManagedResponse (raw : Json) : Except CodecError ManagedSnapshot := do
  scan raw
  let version ← expect ((raw.field "version").bind Json.asPositive) .schemaRejected
  ensure (version == 1) .schemaRejected
  let operation ← expect ((raw.field "operation").bind Json.asText) .schemaRejected
  ensure (operation == "SnapshotManaged") .schemaRejected
  ensure (raw.shape ["version", "operation", "payload"]) .schemaRejected
  let payload ← expect (raw.field "payload") .schemaRejected
  decodePayload netip hash payload

end Decode

section RoundTrip

variable {netip : PrefixParser} {hash : Hash (ManagedState × String)}

structure Built (o : TargetObservation) : Prop where
  valid : o.valid = true
  canonical : canonicalManagedScopes o.scopes = some o.scopes
  fits : ∀ us, o.effectiveUntilUS = some us → us ≤ maxInt64

variable {us : Int} {code : CodecError} {previous : String} {p : Option String}

theorem bytes_int_le (positive : 0 < us) (fits : us ≤ maxInt64) :
    (Json.int us).bytes ≤ 19 := by
  obtain ⟨n, rfl⟩ := Int.eq_ofNat_of_zero_le positive.le
  have narrow : (toString n).utf8ByteSize = (toString n).length := narrow_toString n
  rw [Json.bytes]
  show (toString n).utf8ByteSize ≤ 19
  rw [narrow, Nat.toString_eq_ofList_toDigits, String.length_ofList]
  refine Nat.toDigits_length 10 n 19 (by decide) ?_
  unfold maxInt64 at fits
  omega

variable {o : TargetObservation} {os : List TargetObservation} {s : ManagedSnapshot}

theorem Built.expiry (built : Built o) (some_ : o.effectiveUntilUS = some us) :
    0 < us ∧ us ≤ maxInt64 := by
  have valid := built.valid
  unfold TargetObservation.valid at valid
  rw [some_] at valid
  refine ⟨?_, built.fits us some_⟩
  cases mode : o.timeoutMode <;> simp_all

theorem Built.target (built : Built o) : ∃ c, o.target = some c := by
  have valid := built.valid
  unfold TargetObservation.valid validManagedTarget Prefix.canonical at valid
  cases target : o.target with
  | none => simp [target] at valid
  | some c => exact ⟨c, rfl⟩

theorem bytes_targetWire_le (built : Built o) :
    (targetWire o).bytes ≤ 200 := by
  have texts : "target".utf8ByteSize = 6 ∧ "membership".utf8ByteSize = 10 ∧
      "present".utf8ByteSize = 7 ∧ "timeout_mode".utf8ByteSize = 12 ∧
      "effective_until_unix_us".utf8ByteSize = 23 ∧ "input".utf8ByteSize = 5 ∧
      "forward".utf8ByteSize = 7 := by decide
  obtain ⟨t1, t2, t3, t4, t5, t6, t7⟩ := texts
  have target : o.target.toText.utf8ByteSize ≤ 46 := by
    obtain ⟨c, same⟩ := built.target
    rw [o.target.narrow_toText, same]
    exact c.length_toText_le
  have mode : (timeoutText o.timeoutMode).utf8ByteSize ≤ 6 := by
    cases o.timeoutMode <;> decide
  have expiry : (o.effectiveUntilUS.elim Json.null .int).bytes ≤ 19 := by
    cases until_ : o.effectiveUntilUS with
    | none => decide
    | some us => exact bytes_int_le (built.expiry until_).1 (built.expiry until_).2
  have flag : ∀ value : Bool, (if value = true then 4 else 5) ≤ 5 := by decide
  have input := flag (o.scopes.contains .input)
  have forward := flag (o.scopes.contains .forward)
  simp only [targetWire, Json.bytes, Json.fieldBytes, t1, t2, t3, t4, t5, t6, t7]
  omega

theorem tokens_targetWire (o : TargetObservation) : (targetWire o).tokens = 14 := by
  unfold targetWire
  cases o.effectiveUntilUS <;> rfl

theorem depth_targetWire (o : TargetObservation) : (targetWire o).depth = 1 := by
  unfold targetWire
  cases o.effectiveUntilUS <;> rfl

theorem distinct_targetWire (o : TargetObservation) : (targetWire o).distinct = true := by
  unfold targetWire
  cases o.effectiveUntilUS <;> rfl

theorem targets_within (built : ∀ o ∈ os, Built o) :
    Json.itemBytes (os.map targetWire) ≤ 201 * os.length ∧
    Json.itemTokens (os.map targetWire) = 14 * os.length ∧
    Json.itemDepth (os.map targetWire) ≤ 1 ∧ Json.itemsDistinct (os.map targetWire) = true := by
  induction os with
  | nil => simp [Json.itemBytes, Json.itemTokens, Json.itemDepth, Json.itemsDistinct]
  | cons o rest ih =>
    obtain ⟨bytes, tokens, depth, distinct⟩ := ih fun o member =>
      built o (List.mem_cons_of_mem _ member)
    have first := bytes_targetWire_le (built o List.mem_cons_self)
    simp only [List.map_cons, Json.itemBytes, Json.itemTokens, Json.itemDepth, Json.itemsDistinct,
      tokens_targetWire, depth_targetWire, distinct_targetWire, List.length_cons, tokens, distinct,
      Bool.and_self, Nat.max_le, le_refl, true_and, and_true]
    omega

theorem ensure_eq_ok {condition : Bool} {u : Unit} :
    ensure condition code = .ok u ↔ condition = true := by
  unfold ensure
  cases condition <;> simp

theorem expect_eq_ok {α : Type} {value : Option α} {a : α} :
    expect value code = .ok a ↔ value = some a := by
  unfold expect
  cases value <;> simp

theorem timeoutMode_text (mode : TimeoutMode) : timeoutMode (timeoutText mode) = some mode := by
  cases mode <;> decide

theorem backendKind_text (kind : BackendKind) : backendKind kind.text = some kind := by
  cases kind <;> decide

theorem decodeExpiry_wire (built : Built o) :
    decodeExpiry (some (o.effectiveUntilUS.elim Json.null .int)) = .ok o.effectiveUntilUS := by
  cases until_ : o.effectiveUntilUS with
  | none => rfl
  | some us =>
    have bound := built.expiry until_
    simp only [Option.elim_some, decodeExpiry]
    exact bind_eq_ok.mpr ⟨us, expect_eq_ok.mpr (if_pos bound), rfl⟩

theorem scopes_of_flags {scopes : List ManagedScope}
    (canonical : canonicalManagedScopes scopes = some scopes) :
    (if scopes.contains .input then [ManagedScope.input] else []) ++
      (if scopes.contains .forward then [ManagedScope.forward] else []) = scopes := by
  unfold canonicalManagedScopes at canonical
  split at canonical
  · cases canonical
  · simpa using canonical

theorem newTargetObservation_built (built : Built o) :
    newTargetObservation o.target o.timeoutMode o.effectiveUntilUS o.scopes = some o := by
  unfold newTargetObservation
  rw [built.canonical]
  exact if_pos built.valid

theorem decodeTarget_wire (built : Built o) (after : previous = "" ∨ previous < o.target.toText) :
    decodeTarget netip previous (targetWire o) = .ok o := by
  obtain ⟨c, target⟩ := built.target
  have some_scope : (o.scopes.contains .input || o.scopes.contains .forward) = true := by
    rw [Bool.or_eq_true, or_iff_not_imp_left]
    intro input
    by_contra forward
    have empty := scopes_of_flags built.canonical
    rw [if_neg input, if_neg forward, List.append_nil] at empty
    have canonical := built.canonical
    rw [← empty] at canonical
    cases canonical
  unfold decodeTarget
  simp only [bind_eq_ok, ensure_eq_ok, expect_eq_ok]
  refine ⟨(), rfl, o.target.toText, rfl, "present", rfl, (), rfl, timeoutText o.timeoutMode, rfl,
    o.scopes.contains .input, rfl, o.scopes.contains .forward, rfl, (), some_scope, c, ?_, (), ?_,
    o.effectiveUntilUS, decodeExpiry_wire built, o.timeoutMode, timeoutMode_text _, ?_⟩
  · rw [target]
    exact netip.reads c
  · obtain rfl | later := after
    · simp [target, Prefix.toText]
    · simp only [target, Prefix.toText, beq_self_eq_true, Bool.true_and, Bool.not_eq_true',
        Bool.and_eq_false_iff, decide_eq_false_iff_not] at later ⊢
      exact .inr (String.not_le.mpr later)
  · rw [scopes_of_flags built.canonical, ← target]
    exact newTargetObservation_built built

def Ascending (previous : String) : List TargetObservation → Prop
  | [] => True
  | o :: rest =>
      (previous = "" ∨ previous < o.target.toText) ∧ Ascending o.target.toText rest

theorem decodeTargets_wire (built : ∀ o ∈ os, Built o) (ascending : Ascending previous os) :
    decodeTargets netip previous (os.map targetWire) = .ok os := by
  induction os generalizing previous with
  | nil => rfl
  | cons o rest ih =>
    obtain ⟨after, ascending⟩ := ascending
    simp only [List.map_cons, decodeTargets, bind_eq_ok]
    refine ⟨o, decodeTarget_wire (built o List.mem_cons_self) after, rest, ?_, rfl⟩
    exact ih (fun o member => built o (List.mem_cons_of_mem _ member)) ascending

theorem toText_lt {a b : TargetObservation} (ha : Built a) (hb : Built b)
    (differ : a.target ≠ b.target) (le : a.target.toText ≤ b.target.toText) :
    a.target.toText < b.target.toText := by
  refine String.not_le.mp fun ge => differ ?_
  have same := String.le_antisymm le ge
  obtain ⟨c, target⟩ := ha.target
  obtain ⟨d, target'⟩ := hb.target
  rw [target, target'] at same ⊢
  exact congrArg some (Cidr.toText_inj same)

theorem ascending_of_sorted (built : ∀ o ∈ os, Built o) (sorted : sortedTargets os = true) :
    Ascending "" os := by
  cases os with
  | nil => trivial
  | cons first rest =>
    refine ⟨.inl rfl, ?_⟩
    induction rest generalizing first with
    | nil => trivial
    | cons o rest ih =>
      simp only [sortedTargets, Bool.and_eq_true, bne_iff_ne, decide_eq_true_eq] at sorted
      refine ⟨.inr (toText_lt (built first List.mem_cons_self) (built o (by simp)) sorted.1.1
        sorted.1.2), ?_⟩
      exact ih o (fun o member => built o (List.mem_cons_of_mem _ member)) sorted.2

theorem mergeSort_of_sorted (sorted : sortedTargets os = true) :
    os.mergeSort (fun a b => decide (a.target.toText ≤ b.target.toText)) = os := by
  refine List.mergeSort_of_pairwise ?_
  induction os with
  | nil => exact .nil
  | cons first rest ih =>
    cases rest with
    | nil => exact List.pairwise_singleton _ _
    | cons o rest =>
      simp only [sortedTargets, Bool.and_eq_true, bne_iff_ne, decide_eq_true_eq] at sorted
      have later := ih sorted.2
      refine .cons ?_ later
      intro other member
      obtain rfl | member := List.mem_cons.mp member
      · exact decide_eq_true sorted.1.2
      · have next := of_decide_eq_true (List.rel_of_pairwise_cons later member)
        exact decide_eq_true (String.le_trans sorted.1.2 next)

theorem decodeInfrastructure_wire {o : Option InfrastructureObservation}
    (valid : o.all InfrastructureObservation.valid = true) :
    decodeInfrastructure (o.elim .null infrastructureWire) = .ok o := by
  cases o with
  | none => rfl
  | some o =>
    have whole := valid
    simp only [Option.all_some, InfrastructureObservation.valid, Bool.and_eq_true,
      beq_iff_eq] at valid
    have schema : (Json.int o.schemaVersion).asPositive = some o.schemaVersion := by
      rw [valid.1.2]
      rfl
    simp only [Option.elim_some, infrastructureWire, decodeInfrastructure, bind_eq_ok,
      ensure_eq_ok, expect_eq_ok]
    exact ⟨(), rfl, o.backend.text, rfl, o.ownerVersion, rfl, o.schemaVersion, schema, o.digest, rfl,
      (), valid.2, o.backend, backendKind_text _, (), whole, rfl⟩

theorem decodePolicy_wire (valid : p.all validSnapshotDigest = true) :
    decodePolicy (p.elim .null policyWire) = .ok p := by
  cases p with
  | none => rfl
  | some digest =>
    simp only [Option.elim_some, policyWire, decodePolicy, bind_eq_ok, ensure_eq_ok, expect_eq_ok]
    exact ⟨(), rfl, digest, rfl, (), by simpa using valid, rfl⟩

theorem bytes_of_digest {digest : String} (valid : validSnapshotDigest digest = true) :
    digest.utf8ByteSize = 64 := by
  unfold validSnapshotDigest at valid
  simp only [Bool.and_eq_true, beq_iff_eq] at valid
  exact valid.1

theorem infrastructure_within {o : Option InfrastructureObservation}
    (valid : o.all InfrastructureObservation.valid = true) :
    (o.elim Json.null infrastructureWire).bytes ≤ 200 ∧
    (o.elim Json.null infrastructureWire).tokens ≤ 10 ∧
    (o.elim Json.null infrastructureWire).depth ≤ 1 ∧
    (o.elim Json.null infrastructureWire).distinct = true := by
  cases o with
  | none => exact ⟨by decide, by decide, by decide, rfl⟩
  | some o =>
    simp only [Option.all_some, InfrastructureObservation.valid, Bool.and_eq_true,
      beq_iff_eq] at valid
    obtain ⟨⟨owner, schema⟩, digest⟩ := valid
    have texts : "backend".utf8ByteSize = 7 ∧ "owner_version".utf8ByteSize = 13 ∧
        "schema_version".utf8ByteSize = 14 ∧ "digest".utf8ByteSize = 6 ∧
        managedOwnerVersion.utf8ByteSize = 8 ∧
        (toString managedSchemaVersion).utf8ByteSize = 1 := by decide
    obtain ⟨t1, t2, t3, t4, t5, t6⟩ := texts
    have backend : o.backend.text.utf8ByteSize ≤ 15 := by cases o.backend <;> decide
    refine ⟨?_, le_refl 10, le_refl 1, rfl⟩
    simp only [Option.elim_some, infrastructureWire, Json.bytes, Json.fieldBytes, owner, schema,
      bytes_of_digest digest, t1, t2, t3, t4, t5, t6]
    omega

theorem policy_within (valid : p.all validSnapshotDigest = true) :
    (p.elim Json.null policyWire).bytes ≤ 100 ∧ (p.elim Json.null policyWire).tokens ≤ 4 ∧
    (p.elim Json.null policyWire).depth ≤ 1 ∧ (p.elim Json.null policyWire).distinct = true := by
  cases p with
  | none => exact ⟨by decide, by decide, by decide, rfl⟩
  | some digest =>
    have name : "relation_digest".utf8ByteSize = 15 := by decide
    have size : digest.utf8ByteSize = 64 := bytes_of_digest (by simpa using valid)
    refine ⟨?_, le_refl 4, le_refl 1, rfl⟩
    simp only [Option.elim_some, policyWire, Json.bytes, Json.fieldBytes, name, size]
    omega

theorem scan_wire (valid : s.valid hash = true) (built : ∀ o ∈ s.state.targets, Built o) :
    scan (successWire s) = .ok () := by
  unfold ManagedSnapshot.valid ManagedState.valid at valid
  simp only [Bool.and_eq_true, decide_eq_true_eq] at valid
  obtain ⟨⟨⟨digest, ⟨⟨⟨count, infrastructure⟩, policy⟩, _⟩, _⟩, foreign⟩, _⟩ := valid
  obtain ⟨bytes, tokens, depth, distinct⟩ := targets_within built
  obtain ⟨bytes₁, tokens₁, depth₁, distinct₁⟩ := infrastructure_within infrastructure
  obtain ⟨bytes₂, tokens₂, depth₂, distinct₂⟩ := policy_within policy
  have texts : "version".utf8ByteSize = 7 ∧ "operation".utf8ByteSize = 9 ∧
      "SnapshotManaged".utf8ByteSize = 15 ∧ "payload".utf8ByteSize = 7 ∧
      "snapshot_digest".utf8ByteSize = 15 ∧ "infrastructure".utf8ByteSize = 14 ∧
      "policy".utf8ByteSize = 6 ∧ "targets".utf8ByteSize = 7 ∧
      "foreign_context_digest".utf8ByteSize = 22 ∧ (toString (1 : Int)).utf8ByteSize = 1 := by
    decide
  obtain ⟨t1, t2, t3, t4, t5, t6, t7, t8, t9, t10⟩ := texts
  unfold maxManagedSnapshotTargets at count
  simp only [scan, bind_eq_ok, ensure_eq_ok, decide_eq_true_eq]
  refine ⟨(), ?_, (), ?_, (), ?_, ?_⟩
  · simp only [successWire, payloadWire, Json.bytes, Json.fieldBytes, bytes_of_digest digest,
      bytes_of_digest foreign, t1, t2, t3, t4, t5, t6, t7, t8, t9, t10, maxResponseBytes]
    omega
  · simp only [successWire, payloadWire, Json.depth, Json.fieldDepth, maxResponseDepth]
    omega
  · simp only [successWire, payloadWire, Json.distinct, Json.fieldsDistinct, distinct, distinct₁,
      distinct₂]
    rfl
  · simp only [successWire, payloadWire, Json.tokens, Json.fieldTokens, tokens, maxResponseTokens]
    omega

theorem newManagedState_valid {s : ManagedState} (valid : s.valid = true) :
    newManagedState s.infrastructure s.policy s.targets = some s := by
  have sorted : sortedTargets s.targets = true := by
    unfold ManagedState.valid at valid
    simp only [Bool.and_eq_true] at valid
    exact valid.2
  unfold newManagedState
  rw [mergeSort_of_sorted sorted]
  exact if_pos valid

theorem newManagedSnapshot_valid (valid : s.valid hash = true) :
    newManagedSnapshot hash s.state s.foreignDigest = some s := by
  unfold ManagedSnapshot.valid at valid
  simp only [Bool.and_eq_true, beq_iff_eq] at valid
  obtain ⟨⟨⟨_, state⟩, foreign⟩, digest⟩ := valid
  unfold newManagedSnapshot
  rw [if_pos (by rw [state, foreign]; rfl), ← digest]

theorem decodePayload_wire (valid : s.valid hash = true) (built : ∀ o ∈ s.state.targets, Built o) :
    decodePayload netip hash (payloadWire s) = .ok s := by
  have whole := valid
  unfold ManagedSnapshot.valid at valid
  simp only [Bool.and_eq_true] at valid
  obtain ⟨⟨⟨digest, state⟩, foreign⟩, _⟩ := valid
  have parts := state
  unfold ManagedState.valid at parts
  simp only [Bool.and_eq_true, decide_eq_true_eq] at parts
  obtain ⟨⟨⟨⟨count, infrastructure⟩, policy⟩, _⟩, sorted⟩ := parts
  simp only [decodePayload, bind_eq_ok, ensure_eq_ok, expect_eq_ok]
  exact ⟨(), rfl, s.digest, rfl, s.foreignDigest, rfl, (), by rw [digest, foreign]; rfl,
    s.state.infrastructure, decodeInfrastructure_wire infrastructure, s.state.policy,
    decodePolicy_wire policy, s.state.targets.map targetWire, rfl, (),
    by simpa using count, s.state.targets,
    decodeTargets_wire built (ascending_of_sorted built sorted), s.state,
    newManagedState_valid state, s, newManagedSnapshot_valid whole, (), by simp, rfl⟩

/-- A snapshot that can be built can be carried: it is encoded within the limits, and decoding
gives it back. -/
theorem decode_encode (netip : PrefixParser) (valid : s.valid hash = true)
    (built : ∀ o ∈ s.state.targets, Built o) :
    ∃ raw, encodeSnapshotManagedResponse hash s = .ok raw ∧
      decodeSnapshotManagedResponse netip hash raw = .ok s := by
  have scanned := scan_wire valid built
  refine ⟨successWire s, ?_, ?_⟩
  · have size : (successWire s).bytes ≤ maxResponseBytes := by
      simp only [scan, bind_eq_ok, ensure_eq_ok, decide_eq_true_eq] at scanned
      obtain ⟨_, bytes, _⟩ := scanned
      exact bytes
    unfold encodeSnapshotManagedResponse
    rw [if_neg (by simp [valid]), if_neg (not_lt.mpr size)]
  · simp only [decodeSnapshotManagedResponse, bind_eq_ok, ensure_eq_ok, expect_eq_ok]
    exact ⟨(), scanned, 1, rfl, (), rfl, "SnapshotManaged", rfl, (), rfl, (), rfl, payloadWire s, rfl,
      decodePayload_wire valid built⟩

theorem digest_of_decodePayload {payload : Json} (read : decodePayload netip hash payload = .ok s) :
    (payload.field "snapshot_digest").bind Json.asText =
      some (hash.hex (s.state, s.foreignDigest)) := by
  simp only [decodePayload, bind_eq_ok, ensure_eq_ok, expect_eq_ok] at read
  obtain ⟨_, _, digest, sent, _, _, _, _, _, _, _, _, _, _, _, _, _, _, _, _, snapshot, made, _, same,
    done⟩ := read
  cases done
  unfold newManagedSnapshot at made
  split at made
  · cases made
    rw [sent, ← beq_iff_eq.mp same]
  · cases made

/-- Every snapshot that can be built is carried within the limits, and what is accepted names the
digest of what it says. -/
theorem snapshot_response_carried (netip : PrefixParser) :
    (∀ s : ManagedSnapshot, s.valid hash = true → (∀ o ∈ s.state.targets, Built o) →
      ∃ raw, encodeSnapshotManagedResponse hash s = .ok raw ∧ scan raw = .ok () ∧
        decodeSnapshotManagedResponse netip hash raw = .ok s) ∧
    ∀ raw s, decodeSnapshotManagedResponse netip hash raw = .ok s →
      ∃ payload, raw.field "payload" = some payload ∧
        (payload.field "snapshot_digest").bind Json.asText =
          some (hash.hex (s.state, s.foreignDigest)) := by
  refine ⟨fun s valid built => ?_, fun raw s accepted => ?_⟩
  · obtain ⟨raw, encoded, decoded⟩ := decode_encode netip valid built
    obtain ⟨⟨⟩, scanned, _⟩ := bind_eq_ok.mp decoded
    exact ⟨raw, encoded, scanned, decoded⟩
  · simp only [decodeSnapshotManagedResponse, bind_eq_ok, expect_eq_ok] at accepted
    obtain ⟨_, _, _, _, _, _, _, _, _, _, _, _, payload, carried, read⟩ := accepted
    exact ⟨payload, carried, digest_of_decodePayload read⟩

end RoundTrip

end GuardWall.Ipc
