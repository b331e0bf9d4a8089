import GuardWall.Enforcer.Executor

/-! What every run of the executor keeps: one account of each request, and a section that one call
at a time is in. -/
namespace GuardWall.Enforcer

open GuardWall.Core GuardWall.Firewall GuardWall.Foundation

def mutationsOf (id : Nat) (trace : List ExecEvent) : List (Authority × MutationResult) :=
  trace.filterMap fun e =>
    match e with
    | .mutated other authority result => if other = id then some (authority, result) else none
    | _ => none

/-- What a mutating call rests on: a probe and a snapshot of its own serialized section authorize
exactly its request, with the snapshot's digest as basis. -/
def Authorized (digests : FirewallDigests) (older : List ExecEvent) (id : Nat) (request : Request)
    (authority : Authority) : Prop :=
  .entered id ∈ older ∧
  (∀ e ∈ newerThan (.entered id) older, e.serialized = true → e.id = id) ∧
  ∃ capabilities snapshot,
    .probed id (some capabilities) ∈ newerThan (.entered id) older ∧
    .observed id (some snapshot) ∈ newerThan (.entered id) older ∧
    authorizeMutationRequest digests capabilities snapshot request = .ok (.mutation authority) ∧
    authority = request.grant capabilities snapshot ∧ authority.basis = snapshot.digest

def Settled (digests : FirewallDigests) (older : List ExecEvent) (id : Nat) (request : Request)
    (response : Response) : Prop :=
  response.operation = request.operation ∧
  match mutationsOf id older with
  | [] => response.status = .rejected ∨
      response.status = .confirmed ∧ request.operation = .remove ∧
        ∃ snapshot, .observed id (some snapshot) ∈ newerThan (.entered id) older ∧
          ManagedSnapshot.vacant snapshot
  | (authority, result) :: _ =>
      response.status = (if result.correlates digests authority then result.status else .unknown) ∧
      (response.status = .rejected → response.errorCode = result.errorCode)

def Inside (gate : Option Nat) (trace : List ExecEvent) (id : Nat) : Prop :=
  gate = some id ∧ .entered id ∈ trace ∧
    ∀ e ∈ newerThan (.entered id) trace, e.serialized = true → e.id = id

def Standing (digests : FirewallDigests) (gate : Option Nat) (trace : List ExecEvent) (id : Nat)
    (request : Request) : ExecPoint → Prop
  | .arrived => gate ≠ some id ∧ ∀ e ∈ trace, e.id ≠ id
  | .entered => Inside gate trace id
  | .probed capabilities => Inside gate trace id ∧
      .probed id (some capabilities) ∈ newerThan (.entered id) trace
  | .observed capabilities snapshot => Inside gate trace id ∧
      .probed id (some capabilities) ∈ newerThan (.entered id) trace ∧
      .observed id (some snapshot) ∈ newerThan (.entered id) trace
  | .authorized capabilities snapshot authority => Inside gate trace id ∧
      .probed id (some capabilities) ∈ newerThan (.entered id) trace ∧
      .observed id (some snapshot) ∈ newerThan (.entered id) trace ∧
      authorizeMutationRequest digests capabilities snapshot request = .ok (.mutation authority)
  | .answered response => gate ≠ some id ∧ .answered id response ∈ trace

def ExecPoint.isAnswered : ExecPoint → Bool
  | .answered _ => true
  | _ => false

structure Recorded (digests : FirewallDigests) (trace : List ExecEvent) (id : Nat)
    (request : Request) : Prop where
  authorized : ∀ older authority result, (.mutated id authority result :: older) <:+ trace →
    Authorized digests older id request authority
  answers : ∀ older answer, (.answered id answer :: older) <:+ trace →
    ∃ response, answer = some response ∧ Settled digests older id request response
  once : (mutationsOf id trace).length ≤ 1

structure Account (digests : FirewallDigests) (gate : Option Nat) (trace : List ExecEvent)
    (id : Nat) (call : ExecCall) : Prop extends Recorded digests trace id call.request where
  unmutated : call.point.isAnswered = false → mutationsOf id trace = []
  standing : Standing digests gate trace id call.request call.point

structure Serial (digests : FirewallDigests) (b : ExecBoard) : Prop where
  accounts : ∀ id call, b.calls.lookup id = some call → Account digests b.gate b.trace id call
  known : ∀ e ∈ b.trace, (b.calls.lookup e.id).isSome
  holder : ∀ id, b.gate = some id → (b.calls.lookup id).isSome

section Keeping

variable {digests : FirewallDigests} {gate gate' : Option Nat} {trace events : List ExecEvent}
  {id : Nat} {call : ExecCall} {e : ExecEvent} {request : Request}

def Quiet (id : Nat) (events : List ExecEvent) : Prop :=
  ∀ e ∈ events, (∀ authority result, e ≠ .mutated id authority result) ∧
    ∀ answer, e ≠ .answered id answer

theorem quiet_of_other (other : ∀ e ∈ events, e.id ≠ id) : Quiet id events := by
  intro e member
  refine ⟨?_, ?_⟩
  · rintro authority result rfl
    exact other _ member rfl
  · rintro answer rfl
    exact other _ member rfl

theorem mutationsOf_quiet (quiet : Quiet id events) :
    mutationsOf id (events ++ trace) = mutationsOf id trace := by
  unfold mutationsOf
  rw [List.filterMap_append]
  have empty : events.filterMap (fun e =>
      match e with
      | .mutated other authority result => if other = id then some (authority, result) else none
      | _ => none) = [] := by
    rw [List.filterMap_eq_nil_iff]
    intro e member
    cases e with
    | mutated owner authority result =>
      have differ : owner ≠ id := by
        rintro rfl
        exact (quiet _ member).1 authority result rfl
      simp [differ]
    | _ => rfl
  rw [empty, List.nil_append]

theorem Recorded.quiet (h : Recorded digests trace id request) (quiet : Quiet id events) :
    Recorded digests (events ++ trace) id request := by
  refine ⟨?_, ?_, by rw [mutationsOf_quiet quiet]; exact h.once⟩
  · intro older authority result suffix
    exact h.authorized older authority result
      (suffix_of_append events (fun e member => (quiet e member).1 authority result) suffix)
  · intro older answer suffix
    exact h.answers older answer
      (suffix_of_append events (fun e member => (quiet e member).2 answer) suffix)

theorem Recorded.mutated (h : Recorded digests trace id request) {authority : Authority}
    {result : MutationResult} (first : mutationsOf id trace = [])
    (authorized : Authorized digests trace id request authority) :
    Recorded digests (.mutated id authority result :: trace) id request := by
  refine ⟨?_, ?_, ?_⟩
  · intro older authority' result' suffix
    obtain same | suffix := List.suffix_cons_iff.mp suffix
    · cases same
      exact authorized
    · exact h.authorized older authority' result' suffix
  · intro older answer suffix
    exact h.answers older answer (suffix_of_append [_] (by simp) suffix)
  · unfold mutationsOf at first ⊢
    rw [List.filterMap_cons]
    simp [first]

theorem Recorded.answered (h : Recorded digests trace id request) {response : Response}
    (settled : Settled digests trace id request response) :
    Recorded digests (.answered id (some response) :: trace) id request := by
  refine ⟨?_, ?_, h.once⟩
  · intro older authority result suffix
    exact h.authorized older authority result (suffix_of_append [_] (by simp) suffix)
  · intro older answer suffix
    obtain same | suffix := List.suffix_cons_iff.mp suffix
    · cases same
      exact ⟨response, rfl, settled⟩
    · exact h.answers older answer suffix

theorem Inside.append (h : Inside gate trace id) (kept : gate' = some id)
    (mark : ∀ e ∈ events, e ≠ .entered id)
    (alone : ∀ e ∈ events, e.serialized = true → e.id = id) :
    Inside gate' (events ++ trace) id := by
  obtain ⟨_, entered, before⟩ := h
  refine ⟨kept, List.mem_append_right _ entered, ?_⟩
  intro e member serialized
  rw [newerThan_append mark] at member
  obtain member | member := List.mem_append.mp member
  · exact alone e member serialized
  · exact before e member serialized

theorem Account.others (h : Account digests gate trace id call) (other : ∀ e ∈ events, e.id ≠ id)
    (kept : gate' = some id ↔ gate = some id)
    (outside : gate = some id → ∀ e ∈ events, e.serialized = false) :
    Account digests gate' (events ++ trace) id call := by
  have quiet := quiet_of_other other
  have mark : ∀ e ∈ events, e ≠ .entered id := by
    rintro e member rfl
    exact other _ member rfl
  have newer : ∀ {x}, x ∈ newerThan (.entered id) trace →
      x ∈ newerThan (.entered id) (events ++ trace) := by
    intro x member
    rw [newerThan_append mark]
    exact List.mem_append_right _ member
  have inside : Inside gate trace id → Inside gate' (events ++ trace) id := by
    intro inside
    refine inside.append (kept.mpr inside.1) mark fun e member serialized => ?_
    rw [outside inside.1 e member] at serialized
    cases serialized
  refine ⟨h.toRecorded.quiet quiet, by rw [mutationsOf_quiet quiet]; exact h.unmutated, ?_⟩
  have standing := h.standing
  unfold Standing at standing ⊢
  split at standing
  · refine ⟨fun holds => standing.1 (kept.mp holds), ?_⟩
    intro x member
    obtain member | member := List.mem_append.mp member
    · exact other x member
    · exact standing.2 x member
  · exact inside standing
  · exact ⟨inside standing.1, newer standing.2⟩
  · exact ⟨inside standing.1, newer standing.2.1, newer standing.2.2⟩
  · exact ⟨inside standing.1, newer standing.2.1, newer standing.2.2.1, standing.2.2.2⟩
  · exact ⟨fun holds => standing.1 (kept.mp holds), List.mem_append_right _ standing.2⟩

end Keeping

namespace Serial

variable {digests : FirewallDigests} {b b' : ExecBoard} {id : Nat} {call call' : ExecCall}
  {response : Response} {code : ErrorCode} {authority : Authority}
  {capabilities : Capabilities} {snapshot : ManagedSnapshot}

theorem move (h : Serial digests b) (events : List ExecEvent)
    (calls : b'.calls = b.calls.insert id call')
    (trace : b'.trace = events ++ b.trace) (own : ∀ e ∈ events, e.id = id)
    (gate : ∀ other, other ≠ id → (b'.gate = some other ↔ b.gate = some other))
    (outside : ∀ other, other ≠ id → b.gate = some other → ∀ e ∈ events, e.serialized = false)
    (account : Account digests b'.gate b'.trace id call') : Serial digests b' := by
  refine ⟨?_, ?_, ?_⟩
  · intro other found at_
    rw [calls, Table.lookup_insert] at at_
    split at at_
    · rename_i same
      cases at_
      rw [same]
      exact account
    · rename_i differ
      rw [trace]
      refine (h.accounts other found at_).others (fun e member same => ?_) (gate other differ)
        (outside other differ)
      exact differ (same.symm.trans (own e member))
  · intro e member
    rw [calls, Table.lookup_insert]
    split
    · rfl
    · rename_i differ
      rw [trace] at member
      obtain member | member := List.mem_append.mp member
      · exact absurd (own e member) differ
      · exact h.known e member
  · intro other holds
    rw [calls, Table.lookup_insert]
    split
    · rfl
    · rename_i differ
      exact h.holder other ((gate other differ).mp holds)

theorem proceed (h : Serial digests b) (events : List ExecEvent)
    (found : b.calls.lookup id = some call)
    (unanswered : call.point.isAnswered = false) (holds : b.gate = some id) {point : ExecPoint}
    (own : ∀ e ∈ events, e.id = id) (quiet : Quiet id events)
    (standing : Standing digests b.gate (events ++ b.trace) id call.request point) :
    Serial digests (ExecBoard.put { b with trace := events ++ b.trace } id call point) := by
  have account := h.accounts id call found
  refine h.move events rfl rfl own (fun _ _ => Iff.rfl) ?_ ⟨account.toRecorded.quiet quiet, ?_, standing⟩
  · intro other differ taken
    exact absurd (Option.some.inj (taken.symm.trans holds)) differ
  · intro _
    exact (mutationsOf_quiet quiet).trans (account.unmutated unanswered)

theorem answer (h : Serial digests b) (events : List ExecEvent)
    (own : ∀ e ∈ events, e.id = id)
    (recorded : Recorded digests (events ++ b.trace) id call.request)
    (settled : Settled digests (events ++ b.trace) id call.request response)
    (access : b.gate = some id ∨ events = []) :
    Serial digests
      (ExecBoard.answer { b with trace := events ++ b.trace } id call (some response)) := by
  have released : (if b.gate = some id then none else b.gate) ≠ some id := by
    split
    · nofun
    · assumption
  refine h.move (.answered id (some response) :: events) rfl rfl ?_ ?_ ?_
    ⟨recorded.answered settled, nofun, released, List.mem_cons_self⟩
  · intro e member
    obtain rfl | member := List.mem_cons.mp member
    · rfl
    · exact own e member
  · intro other differ
    show (if b.gate = some id then none else b.gate) = some other ↔ _
    split
    · rename_i holds
      rw [holds]
      simp [differ.symm]
    · rfl
  · intro other differ taken e member
    obtain rfl | member := List.mem_cons.mp member
    · rfl
    · obtain holds | rfl := access
      · exact absurd (Option.some.inj (taken.symm.trans holds)) differ
      · cases member

theorem reject (h : Serial digests b) (events : List ExecEvent)
    (found : b.calls.lookup id = some call)
    (unanswered : call.point.isAnswered = false) (own : ∀ e ∈ events, e.id = id)
    (quiet : Quiet id events) (access : b.gate = some id ∨ events = [])
    (early : code.early = true) :
    Serial digests (ExecBoard.reject { b with trace := events ++ b.trace } id call code) := by
  have account := h.accounts id call found
  obtain ⟨response, refused, operation, status⟩ :=
    rejectedMutationResponse_some call.request early
  unfold ExecBoard.reject
  rw [refused]
  refine h.answer events own (account.toRecorded.quiet quiet) ⟨operation, ?_⟩ access
  rw [mutationsOf_quiet quiet, account.unmutated unanswered]
  exact .inl status

theorem refuse (h : Serial digests b) (found : b.calls.lookup id = some call)
    (unanswered : call.point.isAnswered = false) (early : code.early = true) :
    Serial digests (b.reject id call code) :=
  h.reject [] found unanswered (by simp) (by simp [Quiet]) (.inr rfl) early

theorem probe (h : Serial digests b) (found : b.calls.lookup id = some call)
    (at_ : call.point = .entered) (canceled : Bool)
    (result : Except ObservationError Capabilities) :
    Serial digests (b.probe id call canceled result) := by
  have inside : Inside b.gate b.trace id := by
    have standing := (h.accounts id call found).standing
    rwa [at_] at standing
  have unanswered : call.point.isAnswered = false := by rw [at_]; rfl
  have quiet : Quiet id [.probed id result.toOption] := by simp [Quiet]
  unfold ExecBoard.probe
  split
  · exact h.refuse found unanswered rfl
  · dsimp only
    cases result with
    | error err =>
      exact h.reject [_] found unanswered (by simp [ExecEvent.id]) quiet
        (.inl inside.1) (early_observation err)
    | ok capabilities =>
      dsimp only
      split
      · exact h.reject [_] found unanswered (by simp [ExecEvent.id]) quiet
          (.inl inside.1) rfl
      · refine h.proceed [_] found unanswered inside.1 (by simp [ExecEvent.id]) quiet
          ⟨inside.append inside.1 (by simp) (by simp [ExecEvent.id]), ?_⟩
        rw [newerThan_append (by simp)]
        exact List.mem_append_left _ List.mem_cons_self

theorem observe (h : Serial digests b) (found : b.calls.lookup id = some call)
    (at_ : call.point = .probed capabilities) (canceled : Bool)
    (result : Except ObservationError ManagedSnapshot) :
    Serial digests (b.observe digests id call capabilities canceled result) := by
  obtain ⟨inside, probed⟩ : Standing digests b.gate b.trace id call.request
      (.probed capabilities) := at_ ▸ (h.accounts id call found).standing
  have unanswered : call.point.isAnswered = false := by rw [at_]; rfl
  have quiet : Quiet id [.observed id result.toOption] := by simp [Quiet]
  unfold ExecBoard.observe
  split
  · exact h.refuse found unanswered rfl
  · dsimp only
    cases result with
    | error err =>
      exact h.reject [_] found unanswered (by simp [ExecEvent.id]) quiet
        (.inl inside.1) (early_observation err)
    | ok snapshot =>
      dsimp only
      split
      · exact h.reject [_] found unanswered (by simp [ExecEvent.id]) quiet
          (.inl inside.1) rfl
      · refine h.proceed [_] found unanswered inside.1 (by simp [ExecEvent.id]) quiet
          ⟨inside.append inside.1 (by simp) (by simp [ExecEvent.id]), ?_, ?_⟩
        · rw [newerThan_append (by simp)]
          exact List.mem_append_right _ probed
        · rw [newerThan_append (by simp)]
          exact List.mem_append_left _ List.mem_cons_self

theorem authorize (h : Serial digests b) (found : b.calls.lookup id = some call)
    (at_ : call.point = .observed capabilities snapshot) (canceled : Bool) :
    Serial digests (b.authorize digests id call capabilities snapshot canceled) := by
  have account := h.accounts id call found
  obtain ⟨inside, probed, observed⟩ : Standing digests b.gate b.trace id call.request
      (.observed capabilities snapshot) := at_ ▸ account.standing
  have unanswered : call.point.isAnswered = false := by rw [at_]; rfl
  unfold ExecBoard.authorize
  split
  · exact h.refuse found unanswered rfl
  · split
    · rename_i err _
      exact h.refuse found unanswered (early_authorization err)
    · rename_i response granted
      obtain ⟨removal, rfl, vacant⟩ := authorizeMutationRequest_immediate granted
      refine h.answer [] (by simp) account.toRecorded ⟨removal.symm, ?_⟩ (.inr rfl)
      rw [List.nil_append, account.unmutated unanswered]
      exact .inr ⟨rfl, removal, snapshot, observed, vacant⟩
    · rename_i authority granted
      exact h.proceed [] found unanswered inside.1 (by simp) (by simp [Quiet])
        ⟨inside, probed, observed, granted⟩

theorem mutate (h : Serial digests b) (found : b.calls.lookup id = some call)
    (at_ : call.point = .authorized capabilities snapshot authority) (canceled : Bool)
    (result : MutationResult) :
    Serial digests (b.mutate digests id call authority canceled result) := by
  have account := h.accounts id call found
  obtain ⟨inside, probed, observed, granted⟩ : Standing digests b.gate b.trace id call.request
      (.authorized capabilities snapshot authority) := at_ ▸ account.standing
  have unanswered : call.point.isAnswered = false := by rw [at_]; rfl
  obtain ⟨grant, identity, based⟩ := authorizeMutationRequest_mutation granted
  unfold ExecBoard.mutate
  split
  · exact h.refuse found unanswered rfl
  · obtain ⟨response, concluded, operation, status, code⟩ := concludeMutation_some identity result
    rw [concluded]
    refine h.answer [_] (by simp [ExecEvent.id]) ?_ ⟨?_, ?_⟩ (.inl inside.1)
    · exact account.toRecorded.mutated (account.unmutated unanswered)
        ⟨inside.2.1, inside.2.2, capabilities, snapshot, probed, observed, granted, grant, based⟩
    · rw [operation, grant, operation_grant]
    · have only : mutationsOf id (.mutated id authority result :: b.trace) =
          [(authority, result)] := by
        unfold mutationsOf at account ⊢
        have first := account.unmutated unanswered
        unfold mutationsOf at first
        rw [List.filterMap_cons]
        simp [first]
      rw [List.cons_append, List.nil_append, only]
      exact ⟨status, code⟩

theorem enter (h : Serial digests b) (found : b.calls.lookup id = some call)
    (at_ : call.point = .arrived) (free : b.gate = none) :
    Serial digests { (b.record (.entered id)).put id call .entered with gate := some id } := by
  have account := h.accounts id call found
  have quiet : Quiet id [.entered id] := by simp [Quiet]
  have unanswered : call.point.isAnswered = false := by rw [at_]; rfl
  refine h.move [.entered id] rfl rfl (by simp [ExecEvent.id]) ?_ ?_
    ⟨account.toRecorded.quiet quiet, fun _ => ?_, rfl, List.mem_cons_self, ?_⟩
  · intro other differ
    rw [free]
    simp [differ.symm]
  · intro other differ taken
    rw [free] at taken
    cases taken
  · exact (mutationsOf_quiet quiet).trans (account.unmutated unanswered)
  · intro e member
    rw [show ((b.record (.entered id)).put id call .entered).trace = .entered id :: b.trace from rfl,
      newerThan_self] at member
    cases member

theorem submit (h : Serial digests b) (fresh : b.calls.lookup id = none) (request : Request) :
    Serial digests { b with calls := b.calls.insert id ⟨request, .arrived⟩ } := by
  have unseen : ∀ e ∈ b.trace, e.id ≠ id := by
    rintro e member rfl
    have known := h.known e member
    rw [fresh] at known
    cases known
  have unheld : b.gate ≠ some id := by
    intro holds
    have known := h.holder id holds
    rw [fresh] at known
    cases known
  have silent : mutationsOf id b.trace = [] := by
    rw [← List.append_nil b.trace, mutationsOf_quiet (quiet_of_other unseen)]
    rfl
  refine h.move [] rfl rfl (by simp) (fun _ _ => Iff.rfl) (by simp)
    ⟨⟨?_, ?_, by rw [silent]; simp⟩, fun _ => silent, unheld, unseen⟩
  · intro older authority result suffix
    exact absurd rfl (unseen _ (suffix.subset List.mem_cons_self))
  · intro older answer suffix
    exact absurd rfl (unseen _ (suffix.subset List.mem_cons_self))

theorem step (h : Serial digests b) {m : ExecMove} (moved : b.step digests m = some b') :
    Serial digests b' := by
  cases m with
  | submit id request =>
    simp only [ExecBoard.step] at moved
    split at moved
    · rename_i fresh
      cases moved
      simp only [Bool.and_eq_true, Option.isNone_iff_eq_none] at fresh
      exact h.submit fresh.1 request
    · cases moved
  | refuse id =>
    simp only [ExecBoard.step] at moved
    split at moved
    · rename_i call found
      split at moved
      · rename_i at_
        cases moved
        exact h.refuse found (by rw [at_]; rfl) rfl
      · cases moved
    · cases moved
  | enter id =>
    simp only [ExecBoard.step] at moved
    split at moved
    · rename_i call found
      split at moved
      · rename_i at_
        cases moved
        exact h.enter found at_.1 at_.2
      · cases moved
    · cases moved
  | probe id canceled result =>
    simp only [ExecBoard.step] at moved
    split at moved
    · rename_i call found
      split at moved
      · rename_i at_
        cases moved
        exact h.probe found at_ canceled result
      · cases moved
    · cases moved
  | snapshot id canceled result =>
    simp only [ExecBoard.step] at moved
    split at moved
    · rename_i call found
      split at moved
      · rename_i capabilities at_
        cases moved
        exact h.observe found at_ canceled result
      · cases moved
    · cases moved
  | authorize id canceled =>
    simp only [ExecBoard.step] at moved
    split at moved
    · rename_i call found
      split at moved
      · rename_i capabilities snapshot at_
        cases moved
        exact h.authorize found at_ canceled
      · cases moved
    · cases moved
  | mutate id canceled result =>
    simp only [ExecBoard.step] at moved
    split at moved
    · rename_i call found
      split at moved
      · rename_i capabilities snapshot authority at_
        cases moved
        exact h.mutate found at_ canceled result
      · cases moved
    · cases moved

theorem initial : Serial digests {} := by
  constructor <;> simp

theorem run {moves : List ExecMove}
    (ran : runSteps (ExecBoard.step digests) {} moves = some b) : Serial digests b :=
  runSteps_preserves (Serial digests) (fun _ _ _ before moved => before.step moved) initial ran

end Serial

/-- However any number of requests interleave and whatever the backend answers: a request makes
at most one mutating call, authorized by what its own serialized section observed, and each of its
answers is a response that says what became of it. A request that made its call is answered. -/
theorem mutation_requests_serialized {digests : FirewallDigests} {moves : List ExecMove}
    {b : ExecBoard} (ran : runSteps (ExecBoard.step digests) {} moves = some b) {id : Nat}
    {call : ExecCall} (found : b.calls.lookup id = some call) :
    (mutationsOf id b.trace).length ≤ 1 ∧
    (∀ older authority result, (.mutated id authority result :: older) <:+ b.trace →
      Authorized digests older id call.request authority) ∧
    (∀ older answer, (.answered id answer :: older) <:+ b.trace →
      ∃ response, answer = some response ∧ Settled digests older id call.request response) ∧
    (mutationsOf id b.trace ≠ [] →
      ∃ response, call.point = .answered (some response) ∧
        .answered id (some response) ∈ b.trace) := by
  have account := (Serial.run ran).accounts id call found
  refine ⟨account.once, account.authorized, account.answers, fun called => ?_⟩
  cases at_ : call.point with
  | answered answer =>
    have standing := account.standing
    rw [at_] at standing
    obtain ⟨newer, older, split⟩ := List.append_of_mem standing.2
    obtain ⟨response, rfl, _⟩ := account.answers older answer ⟨newer, split.symm⟩
    exact ⟨response, rfl, standing.2⟩
  | _ => exact absurd (account.unmutated (by rw [at_]; rfl)) called

namespace Sample

def digits : String := "0123456789abcdef0123456789abcdef0123456789abcdef0123456789abcdef"

theorem digits_valid : validSnapshotDigest digits = true := by
  decide +kernel

def hash (α : Type) : Hash α := ⟨fun _ => digits, fun _ => by decide⟩

def digests : FirewallDigests := ⟨hash _, hash _, fun _ => digits_valid⟩

def capabilities : Capabilities where
  backend := .nftablesNative
  toolVersion := "nft"
  ipv4 := true
  ipv6 := true
  cidr := true
  nativeSet := true
  nativeTimeout := true
  crashSafeExpiry := true
  atomicBatch := true
  hostInput := true
  forward := true
  dockerIntegrationProven := false
  ownershipProven := true
  mutationReady := true

def bare : ManagedSnapshot := ⟨⟨none, none, []⟩, digits, digits⟩

def foreign : MutationResult := ⟨.remove, none, false, digits, .confirmed, .none, false, true⟩

/-- One request is refused at the gate while another applies the infrastructure, and the backend
answers with the result of a removal. -/
def crossed : List ExecMove :=
  [.submit 0 (.apply (.infrastructure managedOwnerVersion digits 1 managedSchemaVersion)),
    .submit 1 (.remove managedOwnerVersion), .enter 0, .probe 0 false (.ok capabilities),
    .refuse 1, .snapshot 0 false (.ok bare), .authorize 0 false, .mutate 0 false foreign]

theorem crossed_answer :
    ((runSteps (ExecBoard.step digests) {} crossed).bind fun b =>
      (b.calls.lookup 0).map ExecCall.point) =
    some (.answered (some ⟨.apply .infrastructure, .unknown, .unknownResult⟩)) := by
  decide +kernel

end Sample

open Sample in
theorem mutation_requests_serialized_crossed :
    ∃ b call, runSteps (ExecBoard.step digests) {} crossed = some b ∧
      b.calls.lookup 0 = some call ∧
      call.point = .answered (some ⟨.apply .infrastructure, .unknown, .unknownResult⟩) ∧
      (mutationsOf 0 b.trace).length ≤ 1 := by
  obtain ⟨b, ran, answered⟩ := Option.bind_eq_some_iff.mp crossed_answer
  obtain ⟨call, found, answered⟩ := Option.map_eq_some_iff.mp answered
  exact ⟨b, call, ran, found, answered, (mutation_requests_serialized ran found).1⟩

end GuardWall.Enforcer
