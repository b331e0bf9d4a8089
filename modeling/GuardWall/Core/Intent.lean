import GuardWall.Core.Fault
import GuardWall.Core.Instant
import GuardWall.Core.Prefix
import Mathlib.Data.List.Sort

/-! Desired firewall state: target intents, the managed policy and the complete snapshot
the reconciler plans from. -/
namespace GuardWall.Core

open GuardWall.Foundation

/-- The hexadecimal SHA-256 digest of a frame. What is hashed is kept as data. -/
structure Hash (α : Type) where
  hex : α → String
  size : ∀ a, (hex a).utf8ByteSize = 64

def maxInt64 : Nat := 9223372036854775807

def maxUint32 : Nat := 4294967295

def isLowerHex128 (value : String) : Bool :=
  value.utf8ByteSize == 32 &&
    value.toList.all fun c => ('0' ≤ c && c ≤ '9') || ('a' ≤ c && c ≤ 'f')

/-- `start` and 52 digits of base32hex. The text has to be the encoding of 32 bytes, so of its last
digit only the top bit is free. -/
def validHashedIdentity (value start : String) : Bool :=
  let digits := value.toList.drop start.length
  value.toList.take start.length == start.toList &&
  value.utf8ByteSize == start.utf8ByteSize + 52 &&
  digits.all (fun c => ('0' ≤ c && c ≤ '9') || ('a' ≤ c && c ≤ 'v')) &&
  digits.getLast?.any fun c => c == '0' || c == 'g'

def validDeliveryID (value : String) : Bool := validHashedIdentity value "dlv1_"

def validEventID (value : String) : Bool := validHashedIdentity value "evt1_"

inductive BanMembership where
  | absent
  | present
  deriving DecidableEq, Repr

inductive TimeoutMode where
  | none
  | native
  deriving DecidableEq, Repr

inductive PolicyCoverage where
  | none
  | partly
  | full
  deriving DecidableEq, Repr

inductive AddressFamily where
  | unset
  | ipv4
  | ipv6
  deriving DecidableEq, Repr

abbrev EnforcementScope : Type := BitVec 8

def scopeInput : EnforcementScope := 1#8

def scopeForward : EnforcementScope := 2#8

/-- `scopes &^ (ScopeInput | ScopeForward) != 0` -/
def unsupportedScope (scopes : EnforcementScope) : Bool :=
  scopes &&& ~~~(scopeInput ||| scopeForward) != 0#8

def familyOf (target : Prefix) : AddressFamily :=
  if target.is4 then .ipv4 else .ipv6

/-- `NormalizedTargetEnforcementIntent` -/
structure Intent where
  nodeID : String
  canonicalTarget : Prefix
  banMembership : BanMembership
  effectiveUntil : Option Instant
  timeoutMode : TimeoutMode
  scopes : EnforcementScope
  addressFamily : AddressFamily
  policyCoverage : PolicyCoverage
  policyRelationDigest : String
  backendAttributesDigest : String
  generation : Nat
  deriving DecidableEq, Repr

namespace Intent

/-- `NormalizedTargetEnforcementIntent.Validate`; its enum checks hold by typing. -/
def validate (i : Intent) : Except Fault Unit := do
  reject (!isLowerHex128 i.nodeID) "intent node id must be 128-bit lowercase hex"
  reject (!i.canonicalTarget.canonical) "intent target must be canonical"
  reject (i.generation == 0) "intent generation must be positive"
  reject (i.scopes == 0#8 || unsupportedScope i.scopes) "unsupported enforcement scope"
  reject (i.addressFamily != familyOf i.canonicalTarget)
    "intent address family does not match target"
  reject (i.banMembership == .absent && (i.effectiveUntil.isSome || i.timeoutMode != .none))
    "absent intent cannot contain timeout attributes"
  reject (i.timeoutMode == .native && i.effectiveUntil.isNone)
    "native timeout requires an effective expiry"
  reject (i.effectiveUntil.any Instant.isZero) "intent effective expiry is invalid"

def equalTime : Option Instant → Option Instant → Bool
  | some t, some u => t.equal u
  | none, none => true
  | _, _ => false

def equivalent (left right : Intent) : Bool :=
  left.nodeID == right.nodeID &&
  left.canonicalTarget == right.canonicalTarget &&
  left.banMembership == right.banMembership &&
  equalTime left.effectiveUntil right.effectiveUntil &&
  left.timeoutMode == right.timeoutMode &&
  left.scopes == right.scopes &&
  left.addressFamily == right.addressFamily &&
  left.policyCoverage == right.policyCoverage &&
  left.policyRelationDigest == right.policyRelationDigest &&
  left.backendAttributesDigest == right.backendAttributesDigest

/-- `enforcement.M0SafetyGrace` -/
def safetyGrace : Duration := 5 * minute

/-- `enforcement.NativeExpiryForIntent` -/
def nativeExpiry (i : Intent) : Option Instant :=
  match i.timeoutMode, i.effectiveUntil with
  | .native, some expiry => some (expiry.add safetyGrace)
  | _, _ => none

end Intent

structure InfrastructureIntent where
  backend : String
  ownerVersion : String
  digest : String
  deriving DecidableEq, Repr

namespace InfrastructureIntent

def incomplete (i : InfrastructureIntent) : Bool :=
  i.backend == "" || i.ownerVersion == "" || i.digest == ""

end InfrastructureIntent

/-- `ManagedPolicyIntent`. A nil and an empty prefix list are not told apart. -/
structure PolicyIntent where
  relationDigest : String
  allowlist : List Prefix
  protectedTargets : List Prefix
  deriving DecidableEq, Repr

namespace PolicyIntent

def maxManagedPolicyPrefixes : Nat := 1024

def sortPrefixes (prefixes : List Prefix) : List Prefix :=
  prefixes.insertionSort fun a b => a.toText ≤ b.toText

def adjacentEqual : List Prefix → Bool
  | a :: b :: rest => a == b || adjacentEqual (b :: rest)
  | _ => false

def canonicalPolicyPrefixes (name : String) (prefixes : List Prefix) :
    Except Fault (List Prefix) := do
  reject (prefixes.any fun p => !p.canonical)
    ("managed policy " ++ name ++ " contains a non-canonical prefix")
  let prepared := sortPrefixes prefixes
  reject (adjacentEqual prepared) ("managed policy " ++ name ++ " contains a duplicate prefix")
  return prepared

def relationParts (name : String) (prefixes : List Prefix) : List String :=
  prefixes.map fun p => name ++ "_" ++ (if p.is4 then "v4" else "v6") ++ ":" ++ p.toText

/-- The text `managedPolicyRelationDigest` hashes. -/
def relationFrame (allowlist protectedTargets : List Prefix) : String :=
  let parts := relationParts "allow" allowlist ++ relationParts "protected" protectedTargets
  "guard-nftables-policy/v1\n" ++ String.intercalate "\n" (parts.insertionSort (· ≤ ·))

/-- `NewManagedPolicyIntent` -/
def make (hash : Hash String) (allowlist protectedTargets : List Prefix) :
    Except Fault PolicyIntent := do
  let allowlist ← canonicalPolicyPrefixes "allowlist" allowlist
  let protectedTargets ← canonicalPolicyPrefixes "protected targets" protectedTargets
  reject (maxManagedPolicyPrefixes < allowlist.length + protectedTargets.length)
    "managed policy contains too many prefixes"
  reject (protectedTargets.length < 2 || !protectedTargets.contains Prefix.loopback4 ||
      !protectedTargets.contains Prefix.loopback6)
    "managed policy is missing mandatory protected targets"
  return ⟨hash.hex (relationFrame allowlist protectedTargets), allowlist, protectedTargets⟩

def validateComplete (hash : Hash String) (p : PolicyIntent) : Except Fault Unit := do
  reject (p.relationDigest == "" || p.protectedTargets.isEmpty)
    "managed policy payload is incomplete"
  let value ← make hash p.allowlist p.protectedTargets
  reject (p.relationDigest != value.relationDigest)
    "managed policy relation digest does not bind its payload"
  reject (p.allowlist != value.allowlist || p.protectedTargets != value.protectedTargets)
    "managed policy prefixes are not canonical"

def hasPayload (p : PolicyIntent) : Bool :=
  !p.allowlist.isEmpty || !p.protectedTargets.isEmpty

end PolicyIntent

structure DesiredSnapshot where
  snapshotRevision : Nat
  infrastructureRevision : Nat
  policyRevision : Nat
  infrastructure : InfrastructureIntent
  policy : PolicyIntent
  targets : List Intent
  deriving DecidableEq, Repr

namespace DesiredSnapshot

def duplicateTarget : List Intent → Bool
  | [] => false
  | i :: rest =>
      rest.any (fun j => j.canonicalTarget == i.canonicalTarget) || duplicateTarget rest

def validateTargets (targets : List Intent) : Except Fault Unit :=
  targets.forM fun i => within "validate desired target" i.validate

def validate (hash : Hash String) (s : DesiredSnapshot) : Except Fault Unit := do
  reject (s.snapshotRevision == 0 || s.infrastructureRevision == 0 || s.policyRevision == 0)
    "desired firewall revisions must be positive"
  reject s.infrastructure.incomplete "desired infrastructure intent is incomplete"
  reject (s.policy.relationDigest == "") "desired policy relation digest is required"
  if s.policy.hasPayload then
    within "desired policy payload" (s.policy.validateComplete hash)
  validateTargets s.targets
  reject (duplicateTarget s.targets) "duplicate desired target"

/-- `NewDesiredFirewallSnapshot` -/
def prepare (hash : Hash String) (s : DesiredSnapshot) : Except Fault DesiredSnapshot := do
  s.validate hash
  return { s with
    targets := s.targets.insertionSort fun i j =>
      i.canonicalTarget.toText ≤ j.canonicalTarget.toText }

def target? (s : DesiredSnapshot) (t : Prefix) : Option Intent :=
  s.targets.find? fun i => i.canonicalTarget == t

end DesiredSnapshot

section Snapshots

variable {hash : Hash String} {s s' : DesiredSnapshot}

@[simp] theorem equivalent_refl (i : Intent) : i.equivalent i = true := by
  have times : Intent.equalTime i.effectiveUntil i.effectiveUntil = true := by
    cases i.effectiveUntil with
    | none => rfl
    | some t => cases mono : t.mono <;> simp [Intent.equalTime, Instant.equal, mono]
  simp [Intent.equivalent, times]

variable {targets : List Intent} {u : Unit}

theorem duplicateTarget_eq_false :
    DesiredSnapshot.duplicateTarget targets = false ↔
      (targets.map Intent.canonicalTarget).Nodup := by
  induction targets with
  | nil => simp [DesiredSnapshot.duplicateTarget]
  | cons i rest ih =>
    rw [DesiredSnapshot.duplicateTarget, Bool.or_eq_false_iff, ih, List.map_cons, List.nodup_cons]
    simp

theorem validateTargets_eq_ok :
    DesiredSnapshot.validateTargets targets = .ok u ↔ ∀ i ∈ targets, i.validate = .ok () := by
  unfold DesiredSnapshot.validateTargets
  induction targets with
  | nil => simp [pure, Except.pure]
  | cons i rest ih =>
    rw [List.forM_eq_forM] at ih ⊢
    rw [List.forM_cons, bind_eq_ok]
    simp only [within_eq_ok, ih, List.forall_mem_cons]
    constructor
    · rintro ⟨_, own, others⟩
      exact ⟨own, others⟩
    · rintro ⟨own, others⟩
      exact ⟨(), own, others⟩

theorem validate_perm (same : targets.Perm s.targets) (h : s.validate hash = .ok u) :
    ({ s with targets := targets }).validate hash = .ok () := by
  have rest : ∀ {v : Unit}, (do
        DesiredSnapshot.validateTargets s.targets
        reject (DesiredSnapshot.duplicateTarget s.targets) "duplicate desired target") = .ok v →
      (do
        DesiredSnapshot.validateTargets targets
        reject (DesiredSnapshot.duplicateTarget targets) "duplicate desired target") = .ok () := by
    intro v checked
    simp only [bind_eq_ok, reject_eq_ok, validateTargets_eq_ok, duplicateTarget_eq_false]
      at checked ⊢
    obtain ⟨_, each, distinct⟩ := checked
    exact ⟨(), fun i member => each i (same.subset member),
      ((same.map _).nodup_iff).mpr distinct⟩
  simp only [DesiredSnapshot.validate, bind_eq_ok] at h ⊢
  obtain ⟨_, revisions, _, infrastructure, _, digest, h⟩ := h
  refine ⟨_, revisions, _, infrastructure, _, digest, ?_⟩
  split at h
  · rename_i payload
    rw [if_pos payload]
    obtain ⟨_, complete, h⟩ := bind_eq_ok.mp h
    exact bind_eq_ok.mpr ⟨_, complete, rest h⟩
  · rename_i payload
    rw [if_neg payload]
    exact rest h

abbrev textOrder (i j : Intent) : Prop := i.canonicalTarget.toText ≤ j.canonicalTarget.toText

instance : IsTrans Intent textOrder := ⟨fun _ _ _ => String.le_trans⟩

instance : Std.Total textOrder := ⟨fun _ _ => String.le_total _ _⟩

theorem prepare_prepare (h : s.prepare hash = .ok s') : s'.prepare hash = .ok s' := by
  simp only [DesiredSnapshot.prepare, bind_eq_ok] at h ⊢
  obtain ⟨u, valid, made⟩ := h
  cases made
  refine ⟨(), validate_perm (List.perm_insertionSort _ _) valid, ?_⟩
  have sorted : (s.targets.insertionSort textOrder).Pairwise textOrder :=
    List.pairwise_insertionSort _ _
  have again := sorted.insertionSort_eq
  simp only [pure, Except.pure, Except.ok.injEq]
  rw [again]

theorem distinct_of_validate (h : s.validate hash = .ok u) :
    (s.targets.map Intent.canonicalTarget).Nodup := by
  simp only [DesiredSnapshot.validate, bind_eq_ok] at h
  obtain ⟨_, _, _, _, _, _, h⟩ := h
  split at h
  · simp only [bind_eq_ok, reject_eq_ok, duplicateTarget_eq_false] at h
    obtain ⟨_, _, _, _, distinct⟩ := h
    exact distinct
  · simp only [bind_eq_ok, reject_eq_ok, duplicateTarget_eq_false] at h
    obtain ⟨_, _, distinct⟩ := h
    exact distinct

theorem distinct_of_prepare (h : s.prepare hash = .ok s') :
    (s'.targets.map Intent.canonicalTarget).Nodup := by
  have again := prepare_prepare h
  simp only [DesiredSnapshot.prepare, bind_eq_ok] at again
  obtain ⟨_, valid, _⟩ := again
  exact distinct_of_validate valid

theorem target?_eq_some (distinct : (s.targets.map Intent.canonicalTarget).Nodup) {t : Prefix}
    {i : Intent} : s.target? t = some i ↔ i ∈ s.targets ∧ i.canonicalTarget = t := by
  unfold DesiredSnapshot.target?
  constructor
  · intro found
    exact ⟨List.mem_of_find?_eq_some found, by simpa using List.find?_some found⟩
  · rintro ⟨member, rfl⟩
    cases found : s.targets.find? fun j => j.canonicalTarget == i.canonicalTarget with
    | none =>
      have differs := List.find?_eq_none.mp found i member
      simp at differs
    | some j =>
      have same : j.canonicalTarget = i.canonicalTarget := by simpa using List.find?_some found
      rw [List.inj_on_of_nodup_map distinct (List.mem_of_find?_eq_some found) member same]

theorem make_of_validateComplete {p : PolicyIntent} (h : p.validateComplete hash = .ok u) :
    PolicyIntent.make hash p.allowlist p.protectedTargets = .ok p := by
  simp only [PolicyIntent.validateComplete, bind_eq_ok, reject_eq_ok, Bool.or_eq_false_iff,
    bne_eq_false_iff_eq] at h
  obtain ⟨_, _, value, made, _, digest, allowlist, protected_⟩ := h
  rw [made]
  cases p
  cases value
  cases digest
  cases allowlist
  cases protected_
  rfl

end Snapshots

end GuardWall.Core
