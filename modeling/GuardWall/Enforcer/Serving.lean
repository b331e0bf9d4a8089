import GuardWall.Enforcer.Serialized
import GuardWall.Ipc.Decoding
import GuardWall.Ipc.Responses

/-! `UnixListener.ServeEnforcer` with the handlers of `NewEnforcerHandlers`: one connection after
the other, from the credentials of the peer to the last byte of the response. What a peer sends,
when a context ends and what the backend answers is the environment's choice. -/
namespace GuardWall.Enforcer

open GuardWall.Core GuardWall.Firewall GuardWall.Foundation GuardWall.Ipc

structure HostSnapshot where
  snapshot : ManagedSnapshot
  built : ∀ o ∈ snapshot.state.targets, Built o

structure Observation (α : Type) where
  acquired : Bool
  canceled : Bool
  result : Except ObservationError α

/-- One call of the mutation handler: the gate, the five checks of the context in `Execute` and
the answers of the backend. -/
structure Execution where
  acquired : Bool
  refused : Bool
  beforeProbe : Bool
  probe : Except ObservationError Capabilities
  beforeSnapshot : Bool
  snapshot : Except ObservationError HostSnapshot
  beforeAuthorize : Bool
  beforeMutate : Bool
  result : Authority → MutationResult

section Handlers

def probeFailureCode : ObservationError → ProbeFailure
  | .unsupported => .unsupported
  | _ => .notReady

def snapshotFailureCode : ObservationError → SnapshotFailure
  | .unsupported => .unsupported
  | .ownershipConflict => .ownershipConflict
  | .unavailable => .notReady

def probeCapabilities (o : Observation Capabilities) : ProbeResponse :=
  if !o.acquired || o.canceled then .failure .notReady
  else
    match o.result with
    | .error err => .failure (probeFailureCode err)
    | .ok c => if c.valid then .success c else .failure .notReady

variable (digests : FirewallDigests)

def snapshotManaged (o : Observation HostSnapshot) : SnapshotResponse :=
  if !o.acquired || o.canceled then .failure .notReady
  else
    match o.result with
    | .error err => .failure (snapshotFailureCode err)
    | .ok s => if s.snapshot.valid digests.snapshot then .success s.snapshot else .failure .notReady

/-- `MutationExecutor.Execute` of one request, alone. -/
def execute (e : Execution) (request : Request) : Option Response :=
  if !request.correlatable then none
  else if e.refused || e.beforeProbe then rejectedMutationResponse request .notReady
  else
    match e.probe with
    | .error err => rejectedMutationResponse request (mutationObservationErrorCode err)
    | .ok c =>
      if !c.valid || !c.mutationReady || !c.ownershipProven || e.beforeSnapshot then
        rejectedMutationResponse request .notReady
      else
        match e.snapshot with
        | .error err => rejectedMutationResponse request (mutationObservationErrorCode err)
        | .ok s =>
          if !s.snapshot.valid digests.snapshot || e.beforeAuthorize then
            rejectedMutationResponse request .notReady
          else
            match authorizeMutationRequest digests c s.snapshot request with
            | .error err => rejectedMutationResponse request (mutationAuthorizationErrorCode err)
            | .ok (.immediate response) => some response
            | .ok (.mutation authority) =>
              if e.beforeMutate then rejectedMutationResponse request .notReady
              else concludeMutation digests authority (e.result authority)

def mutation (e : Execution) (request : Request) : Option Response :=
  if !e.acquired then rejectedMutationResponse request .notReady else execute digests e request

end Handlers

structure Connection where
  armed : Bool
  /-- The UID of the peer, unless its credentials cannot be read. -/
  peer : Option UInt32
  /-- What can be read before the peer closes its end or the deadline passes. -/
  stream : List UInt8
  /-- How many checks the request context passes. An ended context stays ended. -/
  lifetime : Option Nat
  probe : Observation Capabilities
  snapshot : Observation HostSnapshot
  execution : Execution
  written : Bool

/-- `contextTerminationError` at a check of the request context. -/
def Connection.ended (c : Connection) (check : Nat) : Bool :=
  c.lifetime.any (· ≤ check)

inductive ServerError where
  | contextEnded
  | unavailable
  | credentialUnavailable
  | uidMismatch
  | frame (failure : FrameFailure)
  | responseMismatch
  | encoding (code : CodecError)
  | responseTooLarge
  | writeFailed
  deriving DecidableEq, Repr

/-- `enforcerConnectionResult`, with the request that reached a handler. -/
structure Served where
  error : Option ServerError
  requestLocal : Bool := false
  handled : Option Ipc.Request := none
  deriving DecidableEq, Repr

section Connection

variable (digests : FirewallDigests) (netip : PrefixParser) (reader : TextReader)
  (expectedUID : UInt32)

def decodeUnixFrame (c : Connection) : Except ServerError Ipc.Request :=
  match c.peer with
  | none => .error .credentialUnavailable
  | some uid =>
      if uid ≠ expectedUID then .error .uidMismatch
      else (decodeFrame netip reader c.stream).mapError .frame

def decodeFailureIsRequestLocal : ServerError → Bool
  | .uidMismatch | .frame _ => true
  | _ => false

def encodeEnforcerServerPayload (c : Connection) : Ipc.Request → Except ServerError Payload
  | .probeCapabilities =>
      let response := probeCapabilities c.probe
      if c.ended 2 then .error .contextEnded
      else (encodeProbeCapabilitiesResponse response).mapError .encoding
  | .snapshotManaged =>
      let response := snapshotManaged digests c.snapshot
      if c.ended 2 then .error .contextEnded
      else (encodeSnapshotResponse digests.snapshot response).mapError .encoding
  | .mutation request =>
      let response := mutation digests c.execution request
      if c.ended 2 then .error .contextEnded
      else
        match response with
        | none => .error .responseMismatch
        | some response =>
            -- `mutationResponseMatchesRequest`
            if response.operation ≠ request.operation then .error .responseMismatch
            else (encodeMutationResponse response).mapError .encoding

def writeEnforcerServerPayload (c : Connection) (payload : Payload) : Option ServerError :=
  let failure : Option ServerError :=
    if maxFrameBytes < payload.size then some .responseTooLarge
    else if c.written then none
    else some .writeFailed
  match failure with
  | none => none
  | some err => if c.ended 4 then some .contextEnded else some err

def serveEnforcerConnection (c : Connection) : Served :=
  if !c.armed then
    if c.ended 0 then ⟨some .contextEnded, true, none⟩ else ⟨some .unavailable, false, none⟩
  else
    let decoded := decodeUnixFrame netip reader expectedUID c
    if c.ended 1 then ⟨some .contextEnded, true, none⟩
    else
      match decoded with
      | .error err => ⟨some err, decodeFailureIsRequestLocal err, none⟩
      | .ok request =>
          let encoded := encodeEnforcerServerPayload digests c request
          if c.ended 3 then ⟨some .contextEnded, true, some request⟩
          else
            match encoded with
            | .error err => ⟨some err, false, some request⟩
            | .ok payload =>
                match writeEnforcerServerPayload c payload with
                | none => ⟨none, false, some request⟩
                | some err =>
                    if c.ended 5 then ⟨some .contextEnded, true, some request⟩
                    -- `enforcerWriteFailureIsRequestLocal`
                    else ⟨some err, err == .writeFailed, some request⟩

end Connection

inductive Arrival where
  /-- The parent context ended before or while a connection was accepted. -/
  | contextEnded
  /-- `AcceptUnix` failed, or the deadline of the listener could not be set or reset. -/
  | acceptFailed
  | connection (c : Connection) (parentEnded : Bool)

inductive Return where
  | contextEnded
  | acceptFailed
  | connection (error : ServerError)
  deriving DecidableEq, Repr

structure Loop where
  returned : Option Return := none
  /-- The connections served, the errors given to `OnRequestFailure` and the requests that reached
  a handler with the UID of their peer, newest first. -/
  served : Nat := 0
  failures : List ServerError := []
  handled : List (Option UInt32 × Ipc.Request) := []
  deriving DecidableEq, Repr

section Loop

variable (digests : FirewallDigests) (netip : PrefixParser) (reader : TextReader)
  (expectedUID : UInt32)

def Loop.turn (loop : Loop) : Arrival → Loop
  | .contextEnded => { loop with returned := some .contextEnded }
  | .acceptFailed => { loop with returned := some .acceptFailed }
  | .connection c parentEnded =>
      let result := serveEnforcerConnection digests netip reader expectedUID c
      let loop := { loop with
        served := loop.served + 1
        handled := (result.handled.toList.map fun request => (c.peer, request)) ++ loop.handled }
      if parentEnded then { loop with returned := some .contextEnded }
      else
        match result.error with
        | none => loop
        | some err =>
            if !result.requestLocal then { loop with returned := some (.connection err) }
            else { loop with failures := err :: loop.failures }

/-- `ServeEnforcer`, from its first `acceptUnix` on. -/
def serveEnforcer (loop : Loop) : List Arrival → Loop
  | [] => loop
  | arrival :: rest =>
      let loop := loop.turn digests netip reader expectedUID arrival
      if loop.returned.isSome then loop else serveEnforcer loop rest

end Loop

section Answers

variable {digests : FirewallDigests} {request : Request}

def Answers (request : Request) (answer : Option Response) : Prop :=
  ∃ response, answer = some response ∧ response.operation = request.operation ∧
    validResponseState response = true

theorem answers_rejected (request : Request) {code : ErrorCode} (early : code.early = true) :
    Answers request (rejectedMutationResponse request code) := by
  obtain ⟨response, rejected, operation, _⟩ := rejectedMutationResponse_some request early
  refine ⟨response, rejected, operation, ?_⟩
  unfold rejectedMutationResponse at rejected
  cases request with
  | apply | remove => exact valid_of_newResponse rejected

theorem valid_of_mapMutationResult {authority : Authority} {r : MutationResult}
    {response : Response} (mapped : mapMutationResult digests authority r = some response) :
    validResponseState response = true := by
  unfold mapMutationResult at mapped
  split at mapped
  · cases mapped
  split at mapped
  · exact valid_of_newResponse mapped
  · exact valid_of_newResponse mapped
  · exact valid_of_newResponse mapped
  · cases mapped

theorem answers_concluded {authority : Authority} (r : MutationResult)
    (identity : mutationIdentity digests authority = true)
    (operation : authority.operation = request.operation) :
    Answers request (concludeMutation digests authority r) := by
  obtain ⟨response, concluded, same, _⟩ := concludeMutation_some identity r
  refine ⟨response, concluded, same.trans operation, ?_⟩
  unfold concludeMutation at concluded
  split at concluded
  · rename_i mapped
    cases concluded
    exact valid_of_mapMutationResult mapped
  · obtain ⟨unknown, _, mapped⟩ := Option.bind_eq_some_iff.mp concluded
    exact valid_of_mapMutationResult mapped

theorem answers_execute (e : Execution) (correlatable : request.correlatable = true) :
    Answers request (execute digests e request) := by
  unfold execute
  rw [if_neg (by simp [correlatable])]
  split
  · exact answers_rejected request rfl
  cases e.probe with
  | error err => exact answers_rejected request (early_observation err)
  | ok c =>
    dsimp only
    split
    · exact answers_rejected request rfl
    cases e.snapshot with
    | error err => exact answers_rejected request (early_observation err)
    | ok s =>
      dsimp only
      split
      · exact answers_rejected request rfl
      cases authorized : authorizeMutationRequest digests c s.snapshot request with
      | error err => exact answers_rejected request (early_authorization err)
      | ok authorization =>
        cases authorization with
        | immediate response =>
          obtain ⟨operation, rfl, _⟩ := authorizeMutationRequest_immediate authorized
          exact ⟨_, rfl, operation.symm, rfl⟩
        | mutation authority =>
          dsimp only
          split
          · exact answers_rejected request rfl
          · obtain ⟨rfl, identity, _⟩ := authorizeMutationRequest_mutation authorized
            exact answers_concluded _ identity (operation_grant c s.snapshot request)

theorem answers_mutation (digests : FirewallDigests) (e : Execution)
    (correlatable : request.correlatable = true) :
    Answers request (mutation digests e request) := by
  unfold mutation
  split
  · exact answers_rejected request rfl
  · exact answers_execute e correlatable

theorem encode_probeCapabilities (o : Observation Capabilities) :
    ∃ payload, encodeProbeCapabilitiesResponse (probeCapabilities o) = .ok payload ∧
      payload.size ≤ maxProbeResponseBytes := by
  unfold probeCapabilities
  split
  · exact encode_probeFailure .notReady
  cases o.result with
  | error err => exact encode_probeFailure (probeFailureCode err)
  | ok c =>
    dsimp only
    split
    · rename_i valid
      exact encode_probeSuccess valid
    · exact encode_probeFailure .notReady

theorem encode_snapshotManaged (digests : FirewallDigests) (o : Observation HostSnapshot) :
    ∃ payload, encodeSnapshotResponse digests.snapshot (snapshotManaged digests o) = .ok payload ∧
      payload.size ≤ maxResponseBytes := by
  unfold snapshotManaged
  split
  · exact encode_snapshotFailure digests.snapshot .notReady
  cases o.result with
  | error err => exact encode_snapshotFailure digests.snapshot (snapshotFailureCode err)
  | ok s =>
    dsimp only
    split
    · rename_i valid
      exact encode_snapshotSuccess valid s.built
    · exact encode_snapshotFailure digests.snapshot .notReady

end Answers

section Classification

variable {digests : FirewallDigests} {netip : PrefixParser} {reader : TextReader}
  {expectedUID : UInt32} {c : Connection}

theorem Connection.ended_mono {i j : Nat} (later : i ≤ j) (ended : c.ended i = true) :
    c.ended j = true := by
  unfold Connection.ended at ended ⊢
  cases lifetime : c.lifetime with
  | none => simp [lifetime] at ended
  | some n =>
    simp only [lifetime, Option.any_some, decide_eq_true_eq] at ended ⊢
    omega

variable {request : Ipc.Request} {err : ServerError}

theorem encode_answers (digests : FirewallDigests) (correlatable : request.correlatable)
    (running : c.ended 2 = false) :
    ∃ payload, encodeEnforcerServerPayload digests c request = .ok payload ∧
      payload.size ≤ maxFrameBytes := by
  cases request with
  | probeCapabilities =>
    obtain ⟨payload, encoded, small⟩ := encode_probeCapabilities c.probe
    refine ⟨payload, ?_, small.trans (by decide)⟩
    simp [encodeEnforcerServerPayload, running, encoded, Except.mapError]
  | snapshotManaged =>
    obtain ⟨payload, encoded, small⟩ := encode_snapshotManaged digests c.snapshot
    refine ⟨payload, ?_, small⟩
    simp [encodeEnforcerServerPayload, running, encoded, Except.mapError]
  | mutation request =>
    obtain ⟨response, answered, operation, valid⟩ := answers_mutation digests c.execution correlatable
    obtain ⟨payload, encoded, small⟩ := encode_mutation valid
    refine ⟨payload, ?_, small.trans (by decide)⟩
    simp [encodeEnforcerServerPayload, running, answered, operation, encoded, Except.mapError]

theorem decodeUnixFrame_ok (decoded : decodeUnixFrame netip reader expectedUID c = .ok request) :
    c.peer = some expectedUID ∧ request.correlatable := by
  unfold decodeUnixFrame at decoded
  split at decoded
  · cases decoded
  · rename_i uid peer
    split at decoded
    · cases decoded
    · rename_i same
      exact ⟨by rw [peer, not_not.mp same],
        correlatable_of_decodeFrame (mapError_eq_ok.mp decoded)⟩

theorem decodeUnixFrame_fatal (failed : decodeUnixFrame netip reader expectedUID c = .error err)
    (fatal : decodeFailureIsRequestLocal err = false) :
    c.peer = none ∧ err = .credentialUnavailable := by
  unfold decodeUnixFrame at failed
  split at failed
  · rename_i unreadable
    cases failed
    exact ⟨unreadable, rfl⟩
  · split at failed
    · cases failed
      cases fatal
    · cases decoded : decodeFrame netip reader c.stream with
      | ok request => simp [decoded, Except.mapError] at failed
      | error failure =>
        simp only [decoded, Except.mapError, Except.error.injEq] at failed
        subst failed
        cases fatal

theorem write_failure {payload : Payload} (fits : payload.size ≤ maxFrameBytes)
    (running : c.ended 4 = false) (failed : writeEnforcerServerPayload c payload = some err) :
    err = .writeFailed := by
  unfold writeEnforcerServerPayload at failed
  simp only [if_neg (not_lt.mpr fits), running] at failed
  cases written : c.written <;> simp_all

theorem fatal_credentials (armed : c.armed = true)
    (failed : (serveEnforcerConnection digests netip reader expectedUID c).error = some err)
    (fatal : (serveEnforcerConnection digests netip reader expectedUID c).requestLocal = false) :
    c.peer = none ∧ err = .credentialUnavailable := by
  unfold serveEnforcerConnection at failed fatal
  simp only [armed, Bool.not_true, Bool.false_eq_true, if_false] at failed fatal
  cases ended₁ : c.ended 1 with
  | true => simp [ended₁] at fatal
  | false =>
    simp only [ended₁, Bool.false_eq_true, if_false] at failed fatal
    cases decoded : decodeUnixFrame netip reader expectedUID c with
    | error err' =>
      simp only [decoded, Option.some.injEq] at failed fatal
      subst failed
      exact decodeUnixFrame_fatal decoded fatal
    | ok request =>
      simp only [decoded] at failed fatal
      cases ended₃ : c.ended 3 with
      | true => simp [ended₃] at fatal
      | false =>
        have running : c.ended 2 = false :=
          Bool.eq_false_iff.mpr fun ended =>
            absurd (Connection.ended_mono (by omega) ended) (Bool.eq_false_iff.mp ended₃)
        obtain ⟨payload, encoded, fits⟩ :=
          encode_answers digests (decodeUnixFrame_ok decoded).2 running
        simp only [ended₃, Bool.false_eq_true, if_false, encoded] at failed fatal
        cases wrote : writeEnforcerServerPayload c payload with
        | none => simp [wrote] at failed
        | some err' =>
          cases ended₅ : c.ended 5 with
          | true => simp [wrote, ended₅] at fatal
          | false =>
            have running : c.ended 4 = false :=
              Bool.eq_false_iff.mpr fun ended =>
                absurd (Connection.ended_mono (by omega) ended) (Bool.eq_false_iff.mp ended₅)
            simp [wrote, ended₅, write_failure fits running wrote] at fatal

theorem handled_peer
    (handled : (serveEnforcerConnection digests netip reader expectedUID c).handled =
      some request) : c.peer = some expectedUID := by
  unfold serveEnforcerConnection at handled
  split at handled
  · split at handled <;> cases handled
  dsimp only at handled
  split at handled
  · cases handled
  split at handled
  · cases handled
  · rename_i decoded
    exact (decodeUnixFrame_ok decoded).1

end Classification

inductive Arrival.Stops : Arrival → Return → Prop where
  | context : Stops .contextEnded .contextEnded
  | accept : Stops .acceptFailed .acceptFailed
  | parent (c : Connection) : Stops (.connection c true) .contextEnded
  | credentials {c : Connection} (parentEnded : Bool) (unreadable : c.peer = none) :
      Stops (.connection c parentEnded) (.connection .credentialUnavailable)

section Serving

variable {digests : FirewallDigests} {netip : PrefixParser} {reader : TextReader}
  {expectedUID : UInt32}

def Loop.Trusted (expectedUID : UInt32) (loop : Loop) : Prop :=
  ∀ peer request, (peer, request) ∈ loop.handled → peer = some expectedUID

variable {loop : Loop} {arrival : Arrival}

theorem turn_returned {reason : Return} (running : loop.returned = none)
    (armed : ∀ c parentEnded, arrival = .connection c parentEnded → c.armed = true)
    (returned : (loop.turn digests netip reader expectedUID arrival).returned = some reason) :
    arrival.Stops reason := by
  cases arrival with
  | contextEnded =>
    cases returned
    exact .context
  | acceptFailed =>
    cases returned
    exact .accept
  | connection c parentEnded =>
    unfold Loop.turn at returned
    cases parentEnded with
    | true =>
      cases returned
      exact .parent c
    | false =>
      simp only [Bool.false_eq_true, if_false] at returned
      cases failed : (serveEnforcerConnection digests netip reader expectedUID c).error with
      | none => simp [failed, running] at returned
      | some err =>
        cases fatal : (serveEnforcerConnection digests netip reader expectedUID c).requestLocal with
        | true => simp [failed, fatal, running] at returned
        | false =>
          obtain ⟨unreadable, rfl⟩ := fatal_credentials (armed c false rfl) failed fatal
          simp only [failed, fatal, Bool.not_false, if_true, Option.some.injEq] at returned
          subst returned
          exact .credentials false unreadable

theorem turn_served
    (returned : (loop.turn digests netip reader expectedUID arrival).returned = none) :
    (loop.turn digests netip reader expectedUID arrival).served = loop.served + 1 := by
  cases arrival with
  | contextEnded | acceptFailed => cases returned
  | connection c parentEnded =>
    unfold Loop.turn
    dsimp only
    split
    · rfl
    split
    · rfl
    split <;> rfl

theorem turn_handled (loop : Loop) (arrival : Arrival) :
    (loop.turn digests netip reader expectedUID arrival).handled = loop.handled ∨
      ∃ c parentEnded request, arrival = .connection c parentEnded ∧
        (serveEnforcerConnection digests netip reader expectedUID c).handled = some request ∧
        (loop.turn digests netip reader expectedUID arrival).handled =
          (c.peer, request) :: loop.handled := by
  cases arrival with
  | contextEnded | acceptFailed => exact .inl rfl
  | connection c parentEnded =>
    have kept : (loop.turn digests netip reader expectedUID (.connection c parentEnded)).handled =
        ((serveEnforcerConnection digests netip reader expectedUID c).handled.toList.map
          fun request => (c.peer, request)) ++ loop.handled := by
      unfold Loop.turn
      dsimp only
      split
      · rfl
      split
      · rfl
      split <;> rfl
    cases handled : (serveEnforcerConnection digests netip reader expectedUID c).handled with
    | none => exact .inl (by rw [kept, handled]; rfl)
    | some request => exact .inr ⟨c, parentEnded, request, rfl, handled, by rw [kept, handled]; rfl⟩

theorem turn_trusted (digests : FirewallDigests) (netip : PrefixParser) (reader : TextReader)
    (arrival : Arrival) (trusted : loop.Trusted expectedUID) :
    (loop.turn digests netip reader expectedUID arrival).Trusted expectedUID := by
  intro peer request member
  obtain same | ⟨c, _, handled, _, reached, same⟩ := turn_handled loop arrival
  · exact trusted peer request (same ▸ member)
  · rw [same] at member
    obtain first | member := List.mem_cons.mp member
    · cases first
      exact handled_peer reached
    · exact trusted peer request member

theorem serveEnforcer_run (digests : FirewallDigests) (netip : PrefixParser) (reader : TextReader)
    {arrivals : List Arrival}
    (armed : ∀ c parentEnded, .connection c parentEnded ∈ arrivals → c.armed = true)
    (loop : Loop) (running : loop.returned = none) (trusted : loop.Trusted expectedUID) :
    (∀ reason, (serveEnforcer digests netip reader expectedUID loop arrivals).returned =
      some reason → ∃ arrival ∈ arrivals, arrival.Stops reason) ∧
    ((serveEnforcer digests netip reader expectedUID loop arrivals).returned = none →
      (serveEnforcer digests netip reader expectedUID loop arrivals).served =
        loop.served + arrivals.length) ∧
    (serveEnforcer digests netip reader expectedUID loop arrivals).Trusted expectedUID := by
  induction arrivals generalizing loop with
  | nil => exact ⟨fun reason returned => by simp [serveEnforcer, running] at returned,
      fun _ => rfl, trusted⟩
  | cons arrival rest ih =>
    have stops : ∀ reason, (loop.turn digests netip reader expectedUID arrival).returned =
        some reason → arrival.Stops reason := fun reason returned =>
      turn_returned running (fun c parentEnded same => armed c parentEnded (by simp [same])) returned
    have trusted' := turn_trusted digests netip reader arrival trusted
    unfold serveEnforcer
    cases returned : (loop.turn digests netip reader expectedUID arrival).returned with
    | some reason =>
      simp only [returned, Option.isSome_some, if_true]
      refine ⟨fun other same => ⟨arrival, List.mem_cons_self, ?_⟩, nofun, trusted'⟩
      cases same
      exact stops reason returned
    | none =>
      simp only [returned, Option.isSome_none, Bool.false_eq_true, if_false]
      obtain ⟨stopped, served, trusted⟩ := ih
        (fun c parentEnded member => armed c parentEnded (List.mem_cons_of_mem _ member))
        _ returned trusted'
      refine ⟨fun reason same => ?_, fun same => ?_, trusted⟩
      · obtain ⟨other, member, stops⟩ := stopped reason same
        exact ⟨other, List.mem_cons_of_mem _ member, stops⟩
      · rw [served same, turn_served returned, List.length_cons]
        omega

end Serving

/-- The loop serves every connection until its context ends, an accept fails or the credentials of
a peer cannot be read, and no handler runs for another UID. That a connection just accepted takes
its deadline is a law of `net`: `SetDeadline` fails on a closed connection only. -/
theorem serve_loop_survives_connections (digests : FirewallDigests) (netip : PrefixParser)
    (reader : TextReader) (expectedUID : UInt32) (arrivals : List Arrival)
    (armed : ∀ c parentEnded, .connection c parentEnded ∈ arrivals → c.armed = true) :
    (∀ reason, (serveEnforcer digests netip reader expectedUID {} arrivals).returned =
      some reason → ∃ arrival ∈ arrivals, arrival.Stops reason) ∧
    ((serveEnforcer digests netip reader expectedUID {} arrivals).returned = none →
      (serveEnforcer digests netip reader expectedUID {} arrivals).served = arrivals.length) ∧
    ∀ peer request,
      (peer, request) ∈ (serveEnforcer digests netip reader expectedUID {} arrivals).handled →
        peer = some expectedUID := by
  have fresh : Loop.Trusted expectedUID {} := nofun
  obtain ⟨stopped, served, trusted⟩ := serveEnforcer_run digests netip reader armed {} rfl fresh
  refine ⟨stopped, fun returned => ?_, trusted⟩
  rw [served returned, Nat.zero_add]

namespace Sample

def hasty : Execution :=
  ⟨true, false, false, .ok capabilities, false, .ok ⟨bare, nofun⟩, false, false, fun _ => foreign⟩

def visit (peer : UInt32) (stream : List UInt8) : Connection where
  armed := true
  peer := some peer
  stream := stream
  lifetime := none
  probe := ⟨true, false, .ok capabilities⟩
  snapshot := ⟨true, false, .ok ⟨bare, nofun⟩⟩
  execution := hasty
  written := false

def removals : TextReader where
  utf8 _ := true
  json _ := some (.object [("version", .int 1), ("operation", .text "RemoveManagedInfrastructure"),
    ("payload", .object [("expected_owner_version", .text managedOwnerVersion)])])

def visitors : List Arrival :=
  [.connection (visit 1000 []) false, .connection (visit 0 [0, 0]) false,
    .connection (visit 0 [0, 0, 0, 1, 32]) false, .contextEnded]

theorem armed_visitors (c : Connection) (parentEnded : Bool)
    (member : .connection c parentEnded ∈ visitors) : c.armed = true := by
  simp only [visitors, List.mem_cons, Arrival.connection.injEq, reduceCtorEq, or_false,
    List.not_mem_nil] at member
  obtain ⟨rfl, _⟩ | ⟨rfl, _⟩ | ⟨rfl, _⟩ := member <;> rfl

theorem visitors_served :
    serveEnforcer digests .inverse removals 0 {} visitors =
      { returned := some .contextEnded
        served := 3
        failures := [.writeFailed, .frame .truncatedLength, .uidMismatch]
        handled := [(some 0, .mutation (.remove managedOwnerVersion))] } := by
  decide +kernel

end Sample

open Sample in
theorem serve_loop_survives_visitors :
    (serveEnforcer digests .inverse removals 0 {} visitors).failures =
        [.writeFailed, .frame .truncatedLength, .uidMismatch] ∧
      ∃ arrival ∈ visitors, arrival.Stops .contextEnded := by
  refine ⟨by rw [visitors_served], ?_⟩
  obtain ⟨stopped, _⟩ :=
    serve_loop_survives_connections digests .inverse removals 0 visitors armed_visitors
  exact stopped .contextEnded (by rw [visitors_served])

end GuardWall.Enforcer
