import GuardWall.Foundation.Proc
import GuardWall.Nftables.Closure

/-! Apply and RemoveManagedInfrastructure command by command. Every nft command may fail, print
anything or take effect in part, the context may end at any point, and the host may change between
any two of them; what a result then proves about the commands that were run. -/
namespace GuardWall.Nftables

open GuardWall.Core GuardWall.Firewall GuardWall.Foundation GuardWall.Enforcer GuardWall.Ipc
open Proc (wp wp_bind wp_ite wp_step_attempt wp_step_or)

structure Listing where
  state : RulesetState
  look : Look

def Listing.probe (listing : Listing) (toolVersion : String) :
    Except ObservationError Capabilities :=
  if listing.state.ownershipConflict then .error .ownershipConflict
  else
    let coexisting := listing.look.coexisting
    let capabilities : Capabilities :=
      { backend := .nftablesNative, toolVersion := toolVersion, ipv4 := true, ipv6 := true,
        cidr := true, nativeSet := true, nativeTimeout := true, crashSafeExpiry := true,
        atomicBatch := true, hostInput := true, forward := true,
        ufwIntegrationProven := coexisting, dockerIntegrationProven := coexisting,
        ownershipProven := true, mutationReady := coexisting }
    if capabilities.valid then .ok capabilities else .error .unavailable

def Listing.snapshot (digests : Digests) (listing : Listing) :
    Except ObservationError ManagedSnapshot :=
  if listing.state.ownershipConflict then .error .ownershipConflict
  else
    match (listing.state.managedState digests listing.look.order).bind fun managed =>
        newManagedSnapshot digests.snapshot managed listing.look.foreignDigest with
    | some s => .ok s
    | none => .error .unavailable

def listingOf (look : Look) (host : Host) : Listing := ⟨parseRuleset look.now host, look⟩

/-- What a call meets outside its own code. Nothing is asked of the answers. -/
structure Environment (σ : Type) where
  /-- `nft --version`: its trimmed output, or an error. -/
  version : σ → Option String × σ
  /-- `nft --json list ruleset`: an error, an output that cannot be parsed, or a listing. -/
  listRuleset : σ → Option (Option Listing) × σ
  file : List Command → σ → Bool × σ
  ended : σ → Bool × σ
  /-- The readings of the clock for the timeouts of a batch. -/
  clock : σ → (ManagedScope → Reading) × σ
  now : σ → Reading × σ

inductive Event where
  | version
  | listRuleset (listing : Option Listing)
  | file (batch : List Command) (succeeded : Bool)
  | now (reading : Reading)

def Event.mutating : Event → Bool
  | file .. => true
  | _ => false

structure Session (σ : Type) where
  world : σ
  events : List Event

abbrev Procedure (σ α : Type) : Type := Proc (Session σ) ObservationError α

def ask {σ α : Type} (answer : σ → α × σ) (events : α → List Event) : Procedure σ α := fun s =>
  (.ok (answer s.world).1, ⟨(answer s.world).2, s.events ++ events (answer s.world).1⟩)

/-- `newMutationResult` with the result of its callers in the backend, who drop its error. -/
def mutationResult (digests : FirewallDigests) (authority : Authority) (status : Status)
    (code : ErrorCode) : MutationResult :=
  if mutationIdentity digests authority &&
      validMutationResultState authority.operation.kind status code (code != .none) then
    { operation := authority.operation.kind
      domain :=
        match authority.operation with
        | .apply domain => some domain
        | .remove => none
      hasDomain :=
        match authority.operation with
        | .apply _ => true
        | .remove => false
      mutationDigest := digests.mutation.hex authority
      status := status
      errorCode := code
      hasErrorCode := code != .none
      valid := true }
  else ⟨.other, none, false, "", .other, .none, false, false⟩

namespace Environment

variable {σ : Type} (env : Environment σ) (digests : Digests)

def list : Procedure σ Listing := do
  match ← ask env.listRuleset fun output => [.listRuleset output.join] with
  | none => Proc.fail .unavailable
  | some parsed =>
      if ← ask env.ended fun _ => [] then Proc.fail .unavailable
      else
        match parsed with
        | none => Proc.fail .unavailable
        | some listing => pure listing

def probe : Procedure σ Capabilities := do
  match ← ask env.version fun _ => [.version] with
  | none => Proc.fail .unsupported
  | some toolVersion =>
      if ← ask env.ended fun _ => [] then Proc.fail .unsupported
      else
        let listing ← env.list
        Proc.lift (listing.probe toolVersion)

def snapshot : Procedure σ ManagedSnapshot := do
  let listing ← env.list
  Proc.lift (listing.snapshot digests)

def carryOut (authority : Authority) (basis : ManagedSnapshot) (batch : List Command) :
    Procedure σ MutationResult := do
  let unknown := mutationResult digests.toFirewallDigests authority .unknown .unknownResult
  let succeeded ← ask (env.file batch) fun succeeded => [.file batch succeeded]
  if !succeeded then pure unknown
  else if ← ask env.ended fun _ => [] then pure unknown
  else
    match ← Proc.attempt (env.snapshot digests) with
    | .error _ => pure unknown
    | .ok after =>
        let now ← ask env.now fun reading => [.now reading]
        if after.foreignDigest != basis.foreignDigest ||
            !postcondition digests now after.state authority then pure unknown
        else pure (mutationResult digests.toFirewallDigests authority .confirmed .none)

/-- `Backend.Apply` and `Backend.RemoveManagedInfrastructure`. -/
def mutate (authority : Authority) : Procedure σ MutationResult := do
  let rejected := mutationResult digests.toFirewallDigests authority .rejected
  if !validAuthority authority then pure (rejected (invalidCode authority))
  else if ← ask env.ended fun _ => [] then pure (rejected (invalidCode authority))
  else
    match ← Proc.attempt env.probe with
    | .error _ => pure (rejected .notReady)
    | .ok capabilities =>
        if capabilities != authority.capabilities then pure (rejected .notReady)
        else
          match ← Proc.attempt (env.snapshot digests) with
          | .error _ => pure (rejected .notReady)
          | .ok basis =>
              if basis.digest != authority.basis then pure (rejected .notReady)
              else
                let clock ← ask env.clock fun _ => []
                match work clock basis.state authority with
                | .nothing =>
                    pure (mutationResult digests.toFirewallDigests authority .confirmed .none)
                | .impossible code => pure (rejected code)
                | .batch commands => env.carryOut digests authority basis commands

end Environment

section Commands

variable {σ : Type} {env : Environment σ} {digests : Digests} {authority : Authority}
  {s : Session σ}

@[simp] theorem wp_ask {α : Type} {answer : σ → α × σ} {events : α → List Event}
    {Q : Proc.Post (Session σ) ObservationError α} :
    wp (ask answer events) s Q ↔
      Q.ok (answer s.world).1
        ⟨(answer s.world).2, s.events ++ events (answer s.world).1⟩ := Iff.rfl

def Idle (events : List Event) : Prop := ∀ e ∈ events, e.mutating = false

theorem idle_nil : Idle [] := fun _ member => absurd member List.not_mem_nil

theorem Idle.append {first later : List Event} (before : Idle first) (after : Idle later) :
    Idle (first ++ later) := by
  intro e member
  obtain member | member := List.mem_append.mp member
  · exact before e member
  · exact after e member

variable {events : List Event}

theorem Idle.countP (idle : Idle events) :
    events.countP Event.mutating = 0 := by
  rw [List.countP_eq_zero]
  intro e member
  simp [idle e member]

theorem idle_listRuleset (listing : Option Listing) : Idle [.listRuleset listing] := by
  intro e member
  rw [List.mem_singleton.mp member]
  rfl

def Watched (s t : Session σ) : Prop := ∃ more, t.events = s.events ++ more ∧ Idle more

theorem wp_list :
    env.list.wp s
      ⟨fun listing t => t.events = s.events ++ [.listRuleset (some listing)], fun _ t => Watched s t,
        fun _ => False⟩ := by
  unfold Environment.list
  rw [wp_bind, wp_ask]
  cases (env.listRuleset s.world).1 with
  | none => exact ⟨_, rfl, idle_listRuleset _⟩
  | some parsed =>
    simp only [wp_bind, wp_ask, List.append_nil]
    refine wp_ite (fun _ => ⟨_, rfl, idle_listRuleset _⟩) fun _ => ?_
    cases parsed with
    | none => exact ⟨_, rfl, idle_listRuleset _⟩
    | some listing => exact rfl

theorem wp_snapshot :
    (env.snapshot digests).wp s
      ⟨fun snap t => ∃ listing : Listing, listing.snapshot digests = .ok snap ∧
          t.events = s.events ++ [.listRuleset (some listing)],
        fun _ t => Watched s t, fun _ => False⟩ := by
  unfold Environment.snapshot
  refine wp_step_or wp_list (fun listing t read => ?_) (fun _ _ h => h)
  cases taken : listing.snapshot digests with
  | error e => exact ⟨_, read, idle_listRuleset _⟩
  | ok snap => exact ⟨listing, taken, read⟩

theorem wp_probe :
    env.probe.wp s ⟨fun _ t => Watched s t, fun _ t => Watched s t, fun _ => False⟩ := by
  have asked : Idle [Event.version] := by
    intro e member
    rw [List.mem_singleton.mp member]
    rfl
  unfold Environment.probe
  rw [wp_bind, wp_ask]
  cases (env.version s.world).1 with
  | none => exact ⟨_, rfl, asked⟩
  | some toolVersion =>
    simp only [wp_bind, wp_ask, List.append_nil]
    refine wp_ite (fun _ => ⟨_, rfl, asked⟩) fun _ => ?_
    refine wp_step_or wp_list (fun listing t read => ?_) (fun _ t watched => ?_)
    · have quiet : Watched s t :=
        ⟨_, by rw [read, List.append_assoc], asked.append (idle_listRuleset _)⟩
      cases listing.probe toolVersion with
      | error e => exact quiet
      | ok capabilities => exact quiet
    · obtain ⟨more, grown, idle⟩ := watched
      exact ⟨_, by rw [grown, List.append_assoc], asked.append idle⟩

/-- No command was needed: a snapshot with the digest of the basis shows what the authority asks
for, whatever the time. -/
def AlreadyMet (digests : Digests) (authority : Authority) (events : List Event) : Prop :=
  Idle events ∧ ∃ listing basis, .listRuleset (some listing) ∈ events ∧
    listing.snapshot digests = .ok basis ∧ basis.digest = authority.basis ∧
    ∀ now, postcondition digests now basis.state authority = true

/-- One mutating command has succeeded after a snapshot with the digest of the basis, and a snapshot
after it has the foreign digest of the first and passes the check of the authority. -/
def CarriedOut (digests : Digests) (authority : Authority) (events : List Event) : Prop :=
  ∃ earlier listing basis batch later after now,
    events = earlier ++ [.file batch true, .listRuleset (some later), .now now] ∧ Idle earlier ∧
    .listRuleset (some listing) ∈ earlier ∧ listing.snapshot digests = .ok basis ∧
    basis.digest = authority.basis ∧ later.snapshot digests = .ok after ∧
    after.foreignDigest = basis.foreignDigest ∧
    postcondition digests now after.state authority = true

structure Accounted (digests : Digests) (authority : Authority) (r : MutationResult)
    (events : List Event) : Prop where
  once : events.countP Event.mutating ≤ 1
  rejected : r.status = .rejected → Idle events
  confirmed : r.status = .confirmed →
    AlreadyMet digests authority events ∨ CarriedOut digests authority events
  settled : r.status = .rejected ∨ r.status = .confirmed ∨ r.status = .unknown

theorem mutationResult_correlates {digests : FirewallDigests} (status : Status) (code : ErrorCode)
    (identity : mutationIdentity digests authority = true)
    (formed : validMutationResultState authority.operation.kind status code (code != .none) = true) :
    (mutationResult digests authority status code).correlates digests authority = true ∧
      (mutationResult digests authority status code).status = status := by
  have lower := digests.lower authority
  unfold mutationResult
  rw [identity, formed]
  refine ⟨?_, rfl⟩
  cases operation : authority.operation <;> rw [operation] at formed <;>
    simp_all [MutationResult.correlates, MutationResult.wellFormed, Operation.kind]

/-- A result that names its authority and is accounted for by the commands of its call. -/
def Explained (digests : Digests) (authority : Authority) (r : MutationResult)
    (events : List Event) : Prop :=
  r.correlates digests.toFirewallDigests authority = true ∧ Accounted digests authority r events

theorem explained_rejected {code : ErrorCode}
    (identity : mutationIdentity digests.toFirewallDigests authority = true)
    (formed : validMutationResultState authority.operation.kind .rejected code (code != .none) = true)
    (idle : Idle events) :
    Explained digests authority
      (mutationResult digests.toFirewallDigests authority .rejected code) events := by
  obtain ⟨correlated, status⟩ := mutationResult_correlates .rejected code identity formed
  exact ⟨correlated,
    { once := by rw [idle.countP]; exact Nat.zero_le 1
      rejected := fun _ => idle
      confirmed := fun other => by rw [status] at other; cases other
      settled := .inl status }⟩

theorem explained_unknown (identity : mutationIdentity digests.toFirewallDigests authority = true)
    (once : events.countP Event.mutating ≤ 1) :
    Explained digests authority
      (mutationResult digests.toFirewallDigests authority .unknown .unknownResult) events := by
  obtain ⟨correlated, status⟩ :=
    mutationResult_correlates .unknown .unknownResult identity
      (by cases authority.operation <;> rfl)
  exact ⟨correlated,
    { once := once
      rejected := fun other => by rw [status] at other; cases other
      confirmed := fun other => by rw [status] at other; cases other
      settled := .inr (.inr status) }⟩

theorem explained_confirmed (identity : mutationIdentity digests.toFirewallDigests authority = true)
    (once : events.countP Event.mutating ≤ 1)
    (proved : AlreadyMet digests authority events ∨ CarriedOut digests authority events) :
    Explained digests authority
      (mutationResult digests.toFirewallDigests authority .confirmed .none) events := by
  obtain ⟨correlated, status⟩ :=
    mutationResult_correlates .confirmed .none identity
      (by cases authority.operation <;> rfl)
  exact ⟨correlated,
    { once := once
      rejected := fun other => by rw [status] at other; cases other
      confirmed := fun _ => proved
      settled := .inr (.inl status) }⟩

theorem postcondition_of_nothing {clock : ManagedScope → Reading} {state : ManagedState}
    (nothing : work clock state authority = .nothing) (now : Reading) :
    postcondition digests now state authority = true := by
  cases authority with
  | infrastructure | removal =>
    simp only [work] at nothing
    split at nothing
    · assumption
    · cases nothing
  | policy capabilities basis revision allowlist protectedTargets =>
    simp only [work] at nothing
    split at nothing <;> cases nothing
  | target capabilities basis generation target membership mode expiryUS scopes =>
    simp only [work] at nothing
    split at nothing
    · rename_i absent
      simp only [Bool.and_eq_true, beq_iff_eq, Bool.not_eq_true', List.contains_eq_mem,
        decide_eq_false_iff_not, List.mem_map, not_exists, not_and] at absent
      have unseen : state.targets.find? (fun o => o.target == target) = none := by
        rw [List.find?_eq_none]
        intro o member
        simpa using absent.2 o member
      simp [postcondition, unseen, absent.1]
    · cases target with
      | none => cases nothing
      | some c =>
        simp only [Work.ofOption] at nothing
        split at nothing <;> cases nothing

theorem code_of_impossible {clock : ManagedScope → Reading} {state : ManagedState}
    {code : ErrorCode} (impossible : work clock state authority = .impossible code) :
    validMutationResultState authority.operation.kind .rejected code (code != .none) = true := by
  cases authority with
  | infrastructure | removal =>
    simp only [work] at impossible
    split at impossible <;> cases impossible
  | policy capabilities basis revision allowlist protectedTargets =>
    simp only [work] at impossible
    split at impossible <;> cases impossible
    rfl
  | target capabilities basis generation target membership mode expiryUS scopes =>
    simp only [work] at impossible
    split at impossible
    · cases impossible
    · cases target with
      | none => cases impossible; rfl
      | some c =>
        simp only [Work.ofOption] at impossible
        split at impossible <;> cases impossible
        rfl

theorem countP_append_file {earlier more : List Event} {batch : List Command} {succeeded : Bool}
    (idle : Idle earlier) (watched : Idle more) :
    (earlier ++ .file batch succeeded :: more).countP Event.mutating ≤ 1 := by
  rw [List.countP_append, List.countP_cons, idle.countP, watched.countP]
  exact le_rfl

theorem wp_carryOut {basis : ManagedSnapshot} {batch : List Command} {listing : Listing}
    (identity : mutationIdentity digests.toFirewallDigests authority = true)
    (idle : Idle s.events) (read : .listRuleset (some listing) ∈ s.events)
    (taken : listing.snapshot digests = .ok basis) (based : basis.digest = authority.basis) :
    (env.carryOut digests authority basis batch).wp s
      ⟨fun r t => Explained digests authority r t.events, fun _ _ => False, fun _ => False⟩ := by
  unfold Environment.carryOut
  simp only [wp_bind, wp_ask]
  refine wp_ite (fun _ => ?_) fun ran => ?_
  · exact explained_unknown identity (countP_append_file idle idle_nil)
  rw [wp_bind, wp_ask, List.append_nil]
  refine wp_ite (fun _ => ?_) fun _ => ?_
  · exact explained_unknown identity (countP_append_file idle idle_nil)
  refine wp_step_attempt wp_snapshot (fun after t observed => ?_) (fun _ t watched => ?_)
  · obtain ⟨later, seen, grown⟩ := observed
    have succeeded : (env.file batch s.world).1 = true := by simpa using ran
    simp only [succeeded, List.append_assoc, List.cons_append, List.nil_append] at grown
    simp only [wp_bind, wp_ask, grown, List.append_assoc, List.cons_append, List.nil_append]
    have quiet : ∀ now, Idle [.listRuleset (some later), .now now] := by
      intro now e member
      obtain rfl | rfl : e = .listRuleset (some later) ∨ e = .now now := by simpa using member
      · rfl
      · rfl
    refine wp_ite (fun _ => ?_) fun proved => ?_
    · exact explained_unknown identity (countP_append_file idle (quiet _))
    · simp only [Bool.or_eq_true, bne_iff_ne, Bool.not_eq_true', not_or, not_not,
        Bool.not_eq_false] at proved
      refine explained_confirmed identity (countP_append_file idle (quiet _)) (.inr ?_)
      exact ⟨_, listing, basis, batch, later, after, _, rfl, idle, read, taken, based, seen,
        proved.1, proved.2⟩
  · obtain ⟨more, grown, watched⟩ := watched
    refine explained_unknown identity ?_
    rw [grown, List.append_assoc]
    exact countP_append_file idle watched

theorem wp_mutate (identity : mutationIdentity digests.toFirewallDigests authority = true)
    (idle : Idle s.events) :
    (env.mutate digests authority).wp s
      ⟨fun r t => Explained digests authority r t.events, fun _ _ => False, fun _ => False⟩ := by
  have refused : ∀ {events : List Event}, Idle events →
      Explained digests authority
        (mutationResult digests.toFirewallDigests authority .rejected (invalidCode authority))
        events :=
    explained_rejected identity (by cases authority <;> rfl)
  have notReady : ∀ {events : List Event}, Idle events →
      Explained digests authority
        (mutationResult digests.toFirewallDigests authority .rejected .notReady) events :=
    explained_rejected identity (by cases authority.operation <;> rfl)
  have kept : ∀ {t u : Session σ}, Idle t.events → Watched t u → Idle u.events := by
    rintro t u before ⟨more, grown, watched⟩
    rw [grown]
    exact before.append watched
  unfold Environment.mutate
  refine wp_ite (fun _ => refused idle) fun _ => ?_
  rw [wp_bind, wp_ask, List.append_nil]
  refine wp_ite (fun _ => refused idle) fun _ => ?_
  refine wp_step_attempt wp_probe (fun capabilities t watched => ?_)
    (fun _ t watched => notReady (kept idle watched))
  replace idle : Idle t.events := kept idle watched
  refine wp_ite (fun _ => notReady idle) fun _ => ?_
  refine wp_step_attempt wp_snapshot (fun basis u observed => ?_)
    (fun _ u watched => notReady (kept idle watched))
  obtain ⟨listing, taken, grown⟩ := observed
  replace idle : Idle u.events := grown ▸ idle.append (idle_listRuleset _)
  have read : .listRuleset (some listing) ∈ u.events := by rw [grown]; simp
  refine wp_ite (fun _ => notReady idle) fun based => ?_
  replace based : basis.digest = authority.basis := by simpa using based
  simp only [wp_bind, wp_ask, List.append_nil]
  cases needed : work (env.clock u.world).1 basis.state authority with
  | nothing =>
    have once : u.events.countP Event.mutating ≤ 1 := by rw [idle.countP]; exact Nat.zero_le 1
    exact explained_confirmed identity once
      (.inl ⟨idle, listing, basis, read, taken, based, postcondition_of_nothing needed⟩)
  | impossible code => exact explained_rejected identity (code_of_impossible needed) idle
  | batch commands => exact wp_carryOut identity idle read taken based

end Commands

/-- The authorities there are: those the authorizations have given. -/
inductive Granted (digests : FirewallDigests) : Authority → Prop where
  | plan {capabilities : Capabilities} {basis : ManagedSnapshot} {plan : ManagedPlan}
      {authority : Authority}
      (authorized : authorizeManagedPlan digests capabilities basis plan = .ok authority) :
      Granted digests authority
  | removal {capabilities : Capabilities} {basis : ManagedSnapshot} {owner : String}
      {authority : Authority}
      (authorized : authorizeManagedRemoval digests capabilities basis owner =
        .ok (some authority)) :
      Granted digests authority

theorem Granted.identity {digests : FirewallDigests} {authority : Authority}
    (granted : Granted digests authority) : mutationIdentity digests authority = true := by
  cases granted with
  | plan authorized => exact (authorizeManagedPlan_ok authorized).2.1
  | removal authorized =>
    obtain ⟨missing, _⟩ | ⟨same, identity⟩ := authorizeManagedRemoval_ok authorized
    · cases missing
    · cases same
      exact identity

/-- Whatever the commands answer and whenever the context ends, the call returns a result of its own
authority, and its commands account for it. -/
theorem mutate_accounted {σ : Type} (env : Environment σ) (digests : Digests)
    {authority : Authority} (granted : Granted digests.toFirewallDigests authority) (world : σ) :
    ∃ r t, env.mutate digests authority ⟨world, []⟩ = (.ok r, t) ∧
      r.correlates digests.toFirewallDigests authority = true ∧
      Accounted digests authority r t.events :=
  Proc.returns_of_wp (wp_mutate granted.identity idle_nil)

namespace Sample

def vacant : ManagedSnapshot := ⟨⟨none, none, []⟩, zeros, zeros⟩

/-- Every command succeeds and lists nothing, and the context ends when the batch has run. -/
def ending : Environment Bool where
  version ended := (some "nftables v1.0.6", ended)
  listRuleset ended := (some (some (listingOf (look digests) none)), ended)
  file _ _ := (true, true)
  ended ended := (ended, ended)
  clock ended := (fun _ => (look digests).now, ended)
  now ended := ((look digests).now, ended)

end Sample

theorem mutate_accounted_ended_context :
    ∃ r t, Sample.ending.mutate Sample.digests
        (.infrastructure Sample.capabilities Sample.zeros 1) ⟨false, []⟩ = (.ok r, t) ∧
      r.correlates Sample.digests.toFirewallDigests
        (.infrastructure Sample.capabilities Sample.zeros 1) = true ∧
      Accounted Sample.digests (.infrastructure Sample.capabilities Sample.zeros 1) r t.events := by
  have authorized : authorizeManagedPlan Sample.digests.toFirewallDigests Sample.capabilities
      Sample.vacant (.infrastructure managedOwnerVersion Sample.zeros 1 managedSchemaVersion) =
      .ok (.infrastructure Sample.capabilities Sample.zeros 1) :=
    eq_ok_of_toOption (by decide +kernel)
  exact mutate_accounted Sample.ending Sample.digests (.plan authorized) false

end GuardWall.Nftables
