import GuardWall.Enforcer.Executor
import GuardWall.Ipc.SnapshotResponse

/-! The constructors of mutation requests in `internal/ipc/request.go`. They check their arguments
anew, and take all that `internal/firewall` authorizes. -/
namespace GuardWall.Ipc

open GuardWall.Core GuardWall.Firewall GuardWall.Foundation GuardWall.Enforcer

/-- `ErrorCode`, as far as the constructors give it. -/
inductive RequestError where
  | schemaRejected
  | prefixLimit
  | noncanonicalPrefix
  | noncanonicalOrder
  | protectedPolicyMissing
  | protectedTarget
  | invalidTimeout
  | invalidScope
  deriving DecidableEq, Repr

def refuse (condition : Bool) (code : RequestError) : Except RequestError Unit :=
  if condition then .error code else .ok ()

theorem refuse_eq_ok {condition : Bool} {code : RequestError} {u : Unit} :
    refuse condition code = .ok u ↔ condition = false := by
  unfold refuse
  cases condition <;> simp

def maxPlanPrefixes : Nat := 1024

def newPlanBase (basis : String) (revision : Nat) : Except RequestError Unit :=
  refuse (!validSnapshotDigest basis || !validRevision revision) .schemaRejected

def validatedScopeList (scopes : List ManagedScope) : Except RequestError (List ManagedScope) := do
  refuse (scopes.length < 1 || 2 < scopes.length) .schemaRejected
  refuse (!scopes.Nodup) .schemaRejected
  refuse (scopes.length == 2 && scopes != [.input, .forward]) .invalidScope
  return scopes

open Classical in
/-- `netip.ParsePrefix` as the inverse of `Prefix.String`. -/
noncomputable def PrefixParser.inverse : PrefixParser where
  parse text := if known : ∃ c : Cidr, c.toText = text then some known.choose else none
  reads c := by
    have known : ∃ d : Cidr, d.toText = c.toText := ⟨c, rfl⟩
    rw [dif_pos known, Cidr.toText_inj known.choose_spec]

section Constructors

variable (netip : PrefixParser)

def canonicalPrefix (value : String) : Except RequestError Cidr :=
  match netip.parse value with
  | none => .error .noncanonicalPrefix
  | some c => if c ≠ c.masked ∨ c.toText ≠ value then .error .noncanonicalPrefix else .ok c

def validatedPrefixes (seen : List String) : List Prefix → Except RequestError (List Prefix)
  | [] => .ok []
  | value :: rest => do
      let c ← canonicalPrefix netip value.toText
      refuse (seen.contains c.toText) .schemaRejected
      refuse (seen.head?.any fun previous => c.toText < previous) .noncanonicalOrder
      let others ← validatedPrefixes (c.toText :: seen) rest
      return some c :: others

def newApplyInfrastructureRequest (basis : String) (revision : Nat) :
    Except RequestError ManagedPlan := do
  newPlanBase basis revision
  return .infrastructure managedOwnerVersion basis revision 1

def newApplyPolicyRequest (basis : String) (revision : Nat)
    (allowlist protectedTargets : List Prefix) : Except RequestError ManagedPlan := do
  newPlanBase basis revision
  refuse (maxPlanPrefixes < allowlist.length || protectedTargets.length < 2 ||
    maxPlanPrefixes < protectedTargets.length) .schemaRejected
  refuse (maxPlanPrefixes < allowlist.length + protectedTargets.length) .prefixLimit
  let allowlist ← validatedPrefixes netip [] allowlist
  let protectedTargets ← validatedPrefixes netip [] protectedTargets
  refuse (!protectedTargets.contains Prefix.loopback4 ||
    !protectedTargets.contains Prefix.loopback6) .protectedPolicyMissing
  return .policy managedOwnerVersion basis revision allowlist protectedTargets

/-- `NewApplyTargetRequest`; the enumerations are closed by their types. -/
def newApplyTargetRequest (basis : String) (generation : Nat) (target : Prefix)
    (membership : BanMembership) (mode : TimeoutMode) (expiryUS : Option Int)
    (scopes : List ManagedScope) : Except RequestError ManagedPlan := do
  newPlanBase basis generation
  let c ← canonicalPrefix netip target.toText
  refuse (Prefix.overlaps (some c) Prefix.loopback4 || Prefix.overlaps (some c) Prefix.loopback6)
    .protectedTarget
  refuse (expiryUS.any (· ≤ 0)) .schemaRejected
  let scopes ← validatedScopeList scopes
  refuse (membership == .absent && (mode != .none || expiryUS.isSome)) .invalidTimeout
  refuse (mode == .native && expiryUS.isNone) .invalidTimeout
  refuse (mode == .none && expiryUS.isSome) .invalidTimeout
  return .target managedOwnerVersion basis generation (some c) membership mode expiryUS scopes

end Constructors

section Acceptance

variable {netip : PrefixParser} {hash : Hash (ManagedState × String)} {capabilities : Capabilities}
  {snapshot : ManagedSnapshot} {basis : String} {revision : Nat}

theorem newPlanBase_ok (digest : validSnapshotDigest basis = true)
    (positive : validRevision revision = true) : newPlanBase basis revision = .ok () := by
  simp [newPlanBase, digest, positive, refuse]

theorem canonicalPrefix_toText (netip : PrefixParser) {p : Prefix} (canonical : p.canonical = true) :
    ∃ c, p = some c ∧ canonicalPrefix netip p.toText = .ok c := by
  cases p with
  | none => cases canonical
  | some c =>
    refine ⟨c, rfl, ?_⟩
    have masked : c = c.masked := by simpa [Prefix.canonical, Prefix.masked] using canonical
    have read : netip.parse (Prefix.toText (some c)) = some c := netip.reads c
    unfold canonicalPrefix
    rw [read]
    simp [← masked, Prefix.toText]

variable {scopes : List ManagedScope}

theorem scopes_of_canonical (canonical : canonicalManagedScopes scopes = some scopes) :
    scopes = [.input] ∨ scopes = [.forward] ∨ scopes = [.input, .forward] := by
  unfold canonicalManagedScopes at canonical
  split at canonical
  · cases canonical
  · rename_i refused
    replace canonical := Option.some.inj canonical
    by_cases input : .input ∈ scopes <;> by_cases forward : .forward ∈ scopes <;>
      simp only [input, forward, if_true, if_false, List.nil_append, List.append_nil,
        List.cons_append] at canonical
    · exact .inr (.inr canonical.symm)
    · exact .inl canonical.symm
    · exact .inr (.inl canonical.symm)
    · simp [← canonical] at refused

theorem validatedScopeList_canonical (canonical : canonicalManagedScopes scopes = some scopes) :
    validatedScopeList scopes = .ok scopes := by
  obtain rfl | rfl | rfl := scopes_of_canonical canonical <;> rfl

theorem pairwise_of_validCanonicalPrefixList {prefixes : List Prefix}
    (valid : validCanonicalPrefixList prefixes = true) :
    (∀ p ∈ prefixes, p.canonical = true) ∧ prefixes.Pairwise fun p q => p.toText < q.toText := by
  induction prefixes with
  | nil => simp
  | cons p rest ih =>
    cases rest with
    | nil => simpa [validCanonicalPrefixList] using valid
    | cons q rest =>
      simp only [validCanonicalPrefixList, Bool.and_eq_true, decide_eq_true_eq] at valid
      obtain ⟨⟨canonical, first⟩, valid⟩ := valid
      obtain ⟨others, sorted⟩ := ih valid
      refine ⟨fun r member => ?_, List.pairwise_cons.mpr ⟨fun r member => ?_, sorted⟩⟩
      · obtain rfl | member := List.mem_cons.mp member
        · exact canonical
        · exact others r member
      · obtain rfl | member := List.mem_cons.mp member
        · exact first
        · exact String.lt_trans first (List.rel_of_pairwise_cons sorted member)

theorem validatedPrefixes_ok (netip : PrefixParser) {prefixes : List Prefix} {seen : List String}
    (canonical : ∀ p ∈ prefixes, p.canonical = true)
    (sorted : prefixes.Pairwise fun p q => p.toText < q.toText)
    (later : ∀ text ∈ seen, ∀ p ∈ prefixes, text < p.toText) :
    validatedPrefixes netip seen prefixes = .ok prefixes := by
  induction prefixes generalizing seen with
  | nil => rfl
  | cons p rest ih =>
    obtain ⟨c, rfl, read⟩ := canonicalPrefix_toText netip (canonical p List.mem_cons_self)
    have before : ∀ text ∈ seen, text < c.toText := fun text member =>
      later text member (some c) List.mem_cons_self
    have fresh : c.toText ∉ seen := fun member => String.lt_irrefl _ (before _ member)
    have ordered : (seen.head?.any fun previous => decide (c.toText < previous)) = false := by
      cases seen with
      | nil => rfl
      | cons previous _ => exact decide_eq_false (String.lt_asymm (before _ List.mem_cons_self))
    have others : validatedPrefixes netip (c.toText :: seen) rest = .ok rest := by
      refine ih (fun q member => canonical q (.tail _ member)) (List.pairwise_cons.mp sorted).2 ?_
      intro text member q listed
      obtain rfl | member := List.mem_cons.mp member
      · exact List.rel_of_pairwise_cons sorted listed
      · exact later text member q (.tail _ listed)
    simp only [validatedPrefixes, read, bind, Except.bind, refuse, List.contains_eq_mem, fresh,
      decide_false, ordered, others, Bool.false_eq_true, if_false]
    rfl

theorem newApplyInfrastructureRequest_of_authorized
    (authorized : authorizeInfrastructureMutation hash capabilities snapshot basis revision =
      .ok ()) :
    newApplyInfrastructureRequest basis revision =
      .ok (.infrastructure managedOwnerVersion basis revision managedSchemaVersion) := by
  simp only [authorizeInfrastructureMutation, bind_eq_ok, deny_eq_ok, Bool.or_eq_false_iff,
    Bool.not_eq_false'] at authorized
  obtain ⟨_, ⟨digest, positive⟩, _⟩ := authorized
  simp only [newApplyInfrastructureRequest, newPlanBase_ok digest positive]
  rfl

theorem newApplyPolicyRequest_of_authorized {allowlist protectedTargets : List Prefix}
    (authorized : authorizePolicyMutation hash capabilities snapshot basis revision allowlist
      protectedTargets = .ok ()) :
    newApplyPolicyRequest netip basis revision allowlist protectedTargets =
      .ok (.policy managedOwnerVersion basis revision allowlist protectedTargets) := by
  simp only [authorizePolicyMutation, bind_eq_ok, deny_eq_ok, Bool.or_eq_false_iff,
    Bool.not_eq_false', decide_eq_false_iff_not, Bool.and_eq_true] at authorized
  obtain ⟨_, ⟨⟨⟨⟨⟨⟨digest, positive⟩, few⟩, enough⟩, allow⟩, protect⟩, mandatory⟩, _⟩ := authorized
  obtain ⟨allowCanonical, allowSorted⟩ := pairwise_of_validCanonicalPrefixList allow
  obtain ⟨protectCanonical, protectSorted⟩ := pairwise_of_validCanonicalPrefixList protect
  have counts : (decide (maxPlanPrefixes < allowlist.length) ||
      decide (protectedTargets.length < 2) ||
      decide (maxPlanPrefixes < protectedTargets.length)) = false ∧
      decide (maxPlanPrefixes < allowlist.length + protectedTargets.length) = false := by
    unfold maxManagedSnapshotTargets at few
    unfold maxPlanPrefixes
    simp only [Bool.or_eq_false_iff, decide_eq_false_iff_not]
    omega
  have allowed : validatedPrefixes netip [] allowlist = .ok allowlist :=
    validatedPrefixes_ok netip allowCanonical allowSorted (by simp)
  have guarded : validatedPrefixes netip [] protectedTargets = .ok protectedTargets :=
    validatedPrefixes_ok netip protectCanonical protectSorted (by simp)
  simp only [newApplyPolicyRequest, newPlanBase_ok digest positive, bind, Except.bind, refuse,
    counts, allowed, guarded, mandatory, Bool.not_true, Bool.or_self, Bool.false_eq_true, if_false]
  rfl

theorem newApplyTargetRequest_of_authorized {target : Prefix} {membership : BanMembership}
    {mode : TimeoutMode} {expiryUS : Option Int}
    (authorized : authorizeTargetMutation hash capabilities snapshot basis revision target
      membership mode expiryUS scopes = .ok ()) :
    newApplyTargetRequest netip basis revision target membership mode expiryUS scopes =
      .ok (.target managedOwnerVersion basis revision target membership mode expiryUS scopes) := by
  simp only [authorizeTargetMutation, bind_eq_ok, deny_eq_ok, Bool.or_eq_false_iff,
    Bool.not_eq_false', bne_eq_false_iff_eq] at authorized
  obtain ⟨_, ⟨⟨digest, positive⟩, managed⟩, _, ⟨canonical, timeout⟩, _⟩ := authorized
  simp only [validManagedTarget, Bool.and_eq_true, Bool.not_eq_true'] at managed
  obtain ⟨⟨target_, apart4⟩, apart6⟩ := managed
  obtain ⟨c, rfl, read⟩ := canonicalPrefix_toText netip target_
  simp only [newApplyTargetRequest, newPlanBase_ok digest positive, read, bind, Except.bind, refuse,
    apart4, apart6, Bool.or_self, Bool.false_eq_true, if_false,
    validatedScopeList_canonical canonical]
  have timed : expiryUS.any (fun us => decide (us ≤ 0)) = false ∧
      (membership == .absent && (mode != .none || expiryUS.isSome)) = false ∧
      (mode == .native && expiryUS.isNone) = false ∧
      (mode == .none && expiryUS.isSome) = false := by
    cases membership <;> cases mode <;> cases expiryUS <;> simp_all [validTargetTimeout]
  simp only [timed, Bool.false_eq_true, if_false]
  rfl

end Acceptance

end GuardWall.Ipc
