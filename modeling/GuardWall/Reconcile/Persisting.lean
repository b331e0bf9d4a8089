import GuardWall.Reconcile.Protocol
import GuardWall.Store.Faults

/-! The code's interactions follow the protocol: ticks, transactions of other parties, Probes,
Apply, reads, observation writes, and ledger changes down to the readback of a COMMIT without an
answer. -/
namespace GuardWall.Reconcile

open GuardWall.Core GuardWall.Foundation GuardWall.Store Session
open Proc (wp wp_attempt wp_bind wp_conseq wp_fail wp_mono wp_read wp_update)

section Frames

/-- The newest Probe and what is known of the newest Apply are the same, and nothing recorded is
lost. -/
structure SameProbe (s t : Scene) : Prop where
  lastProbe : lastProbe t.trace = lastProbe s.trace
  answered : answered t.trace = answered s.trace
  recorded : ∀ event ∈ s.trace, event ∈ t.trace

namespace SameProbe

theorem refl (s : Scene) : SameProbe s s := ⟨rfl, rfl, fun _ h => h⟩

theorem trans {a b c : Scene} (first : SameProbe a b) (second : SameProbe b c) : SameProbe a c :=
  ⟨second.lastProbe.trans first.lastProbe, second.answered.trans first.answered,
    fun e h => second.recorded e (first.recorded e h)⟩

end SameProbe

structure Meanwhile (s t : Scene) : Prop extends SameProbe s t where
  controller : Republished s.controller t.controller

/-- While `stateMu` was held and no ledger change was asked for. -/
structure Kept (s t : Scene) : Prop extends SameProbe s t where
  controller : t.controller =
    { s.controller with lastObservedAt := t.controller.lastObservedAt }

namespace Kept

theorem refl (s : Scene) : Kept s s := ⟨SameProbe.refl s, rfl⟩

theorem trans {a b c : Scene} (first : Kept a b) (second : Kept b c) : Kept a c :=
  ⟨first.toSameProbe.trans second.toSameProbe, by rw [second.controller, first.controller]⟩

end Kept

end Frames

variable {env : Env} {plans : Command → Prop} {origin : Phase × Scene}

section

variable (env plans origin)

/-- The run since `origin` is a path of the protocol to where the session stands. -/
def At (phase : Phase) (s : Session env.backend.Answer) : Prop :=
  Path env plans origin (phase, s.toScene)

def Reached (s : Session env.backend.Answer) : Prop := ∃ phase, At env plans origin phase s

def Stopped (s : Session env.backend.Answer) : Prop :=
  ∃ σ, σ ≠ .dead ∧ At env plans origin (.settled σ) s

def follows {α : Type} (ok : α → Session env.backend.Answer → Prop) :
    Proc.Post (Session env.backend.Answer) Fault α :=
  ⟨ok, fun _ t => Stopped env plans origin t, Reached env plans origin⟩

def keeps {α : Type} (σ : Stage) (before : Scene) :
    Proc.Post (Session env.backend.Answer) Fault α :=
  ⟨fun _ t => At env plans origin (.settled σ) t ∧ Kept before t.toScene,
    fun _ t => At env plans origin (.settled σ) t ∧ Kept before t.toScene,
    Reached env plans origin⟩

def proceeds {α : Type} (ok : α → Session env.backend.Answer → Prop) :
    Proc.Post (Session env.backend.Answer) Fault α :=
  ⟨ok, fun _ _ => False, Reached env plans origin⟩

end

variable {s t : Session env.backend.Answer} {phase phase' : Phase} {σ : Stage}

theorem At.reached (h : At env plans origin phase s) : Reached env plans origin s := ⟨phase, h⟩

theorem At.stopped (h : At env plans origin (.settled σ) s) (live : σ ≠ .dead) :
    Stopped env plans origin s := ⟨σ, live, h⟩

theorem At.move (h : At env plans origin phase s)
    (step : Move env plans phase s.toScene phase' t.toScene) : At env plans origin phase' t :=
  Path.move h step

structure Sound (env : Env) (plans : Command → Prop) (origin : Phase × Scene) : Prop where
  drifting : Drifting env plans origin.1 origin.2
  shaped : Shaped origin.1 origin.2

theorem At.named {phase : Phase} {s : Session env.backend.Answer} {order : List Nat}
    (h : At env plans origin phase s) (sound : Sound env plans origin) :
    ∀ entry ∈ s.controller.pendingProbes.range order, entry.1.names entry.2 := by
  rintro ⟨key, ref⟩ member
  have shaped : Shaped phase s.toScene := Path.shaped h sound.drifting sound.shaped
  exact shaped.pending key ref (Table.mem_range.mp member)

section Ticks

theorem wp_tick {Q : Proc.Post (Session env.backend.Answer) Fault (Tick env.backend.Answer)}
    (next : ∀ entry rest, Q.ok entry { s with script := rest }) (crash : Q.crash s) :
    wp (tick env) s Q := by
  unfold wp tick
  cases s.script with
  | nil => exact crash
  | cons entry rest => exact next entry rest

theorem wp_now {Q : Proc.Post (Session env.backend.Answer) Fault Instant}
    (next : ∀ reading rest, Q.ok reading { s with script := rest }) (crash : Q.crash s) :
    wp (now env) s Q := by
  unfold now
  rw [wp_bind]
  exact wp_tick (fun entry rest => next entry.now rest) crash

theorem wp_mapOrder {Q : Proc.Post (Session env.backend.Answer) Fault (List Nat)}
    (next : ∀ order rest, Q.ok order { s with script := rest }) (crash : Q.crash s) :
    wp (mapOrder env) s Q := by
  unfold mapOrder
  rw [wp_bind]
  exact wp_tick (fun entry rest => next entry.order rest) crash

@[simp] theorem wp_memory {Q : Proc.Post (Session env.backend.Answer) Fault Controller} :
    wp (memory env) s Q ↔ Q.ok s.controller s := Iff.rfl

theorem wp_memory_bind {α : Type} {next : Controller → Act env α}
    {Q : Proc.Post (Session env.backend.Answer) Fault α} :
    wp (memory env >>= next) s Q ↔ wp (next s.controller) s Q := Iff.rfl

variable {Q : Proc.Post (Session env.backend.Answer) Fault Unit}

@[simp] theorem wp_setMemory {f : Controller → Controller} :
    wp (setMemory env f) s Q ↔ Q.ok () { s with controller := f s.controller } := Iff.rfl

@[simp] theorem wp_log {event : Event} :
    wp (log env event) s Q ↔ Q.ok () { s with trace := event :: s.trace } := Iff.rfl

end Ticks

section Others

theorem meanwhile_actions (locked : Bool) (actions : List External) (s : Scene) :
    Meanwhile s (actions.foldl (act env locked) s) := by
  induction actions generalizing s with
  | nil => exact ⟨SameProbe.refl s, Republished.refl _⟩
  | cons action rest ih =>
    have first : Meanwhile s (act env locked s action) := by
      exact ⟨⟨rfl, rfl, fun e h => List.mem_cons_of_mem _ h⟩, republished_act⟩
    have later := ih (act env locked s action)
    exact ⟨first.toSameProbe.trans later.toSameProbe, first.controller.trans later.controller⟩

theorem actions_locked (actions : List External) (s : Scene) (c : Controller) :
    actions.foldl (act env true) { s with controller := c } =
      { actions.foldl (act env true) s with controller := c } := by
  induction actions generalizing s with
  | nil => rfl
  | cons action rest ih => exact ih (act env true s action)

theorem controller_actions_locked (actions : List External) (s : Scene) :
    (actions.foldl (act env true) s).controller = s.controller := by
  rw [show actions.foldl (act env true) s =
    actions.foldl (act env true) { s with controller := s.controller } from rfl, actions_locked]

theorem kept_actions (actions : List External) (s : Scene) :
    Kept s (actions.foldl (act env true) s) :=
  ⟨(meanwhile_actions true actions s).toSameProbe, by rw [controller_actions_locked]⟩

theorem path_actions {phase : Phase} {locked : Bool} (may : phase.admits locked) (actions : List External)
    (s : Scene) : Path env plans (phase, s) (phase, actions.foldl (act env locked) s) := by
  induction actions generalizing s with
  | nil => exact .refl
  | cons action rest ih => exact .head (.external action may) (ih _)

theorem At.actions {locked : Bool} (h : At env plans origin phase s) (may : phase.admits locked)
    (actions : List External) :
    At env plans origin phase { s with toScene := actions.foldl (act env locked) s.toScene } :=
  Relation.ReflTransGen.trans h (path_actions may actions s.toScene)

@[simp] theorem wp_environment {locked : Bool} {actions : List External}
    {Q : Proc.Post (Session env.backend.Answer) Fault Unit} :
    wp (environment env locked actions) s Q ↔
      Q.ok () { s with toScene := actions.foldl (act env locked) s.toScene } := Iff.rfl

theorem Stage.free.admits (free : σ.free) : (Phase.settled σ).admits false := .inr free

theorem wp_lock (h : At env plans origin (.settled σ) s) (free : σ.free) :
    wp (lock env) s (proceeds env plans origin fun _ t =>
      At env plans origin (.settled σ) t ∧ Meanwhile s.toScene t.toScene) := by
  unfold lock
  rw [wp_bind]
  refine wp_tick (fun entry rest => ?_) h.reached
  exact ⟨h.actions free.admits entry.external, meanwhile_actions false entry.external s.toScene⟩

theorem wp_probe (h : At env plans origin (.settled σ) s) (free : σ.free) :
    wp (probe env) s (proceeds env plans origin fun result t =>
      At env plans origin (.settled σ) t ∧ Republished s.controller t.controller ∧
      (∀ event ∈ s.trace, event ∈ t.trace) ∧
      ∀ snapshot, result = .ok snapshot → lastProbe t.trace = some snapshot) := by
  unfold probe
  rw [wp_bind]
  refine wp_tick (fun entry rest => ?_) h.reached
  have before := h.actions free.admits entry.external
  have meanwhile := @meanwhile_actions env false entry.external s.toScene
  refine ⟨before.move (.probe _ free), meanwhile.controller, ?_, ?_⟩
  · intro event member
    exact List.mem_cons_of_mem _ (meanwhile.recorded event member)
  · intro snapshot same
    change lastProbe (.probed (env.backend.probe entry.answer) :: _) = _
    rw [same]
    rfl

theorem wp_apply {plan : OperationPlan} {ref : AttemptRef}
    (h : At env plans origin (.settled (.begun plan ref)) s)
    (unexpired : Unexpired plan s.trace) :
    wp (apply env plan ref) s (proceeds env plans origin fun result t =>
      At env plans origin (.settled (.applied plan ref)) t ∧
      Republished s.controller t.controller ∧ answered t.trace = refusal result) := by
  unfold apply
  rw [wp_bind]
  refine wp_tick (fun entry rest => ?_) h.reached
  have applied := h.move (t := { s with
    script := rest
    trace := .applied plan ref (s.controller.getState ref).attemptCount
      (env.backend.mutates entry.answer plan) (env.backend.apply entry.answer plan) s.toMoment ::
        s.trace })
    (.apply (env.backend.mutates entry.answer plan) (env.backend.apply entry.answer plan) unexpired)
  have meanwhile := @meanwhile_actions env false entry.external
  exact ⟨applied.actions (.inr trivial) entry.external, (meanwhile _).controller,
    (meanwhile _).answered⟩

end Others

section Reads

def Waited (env : Env) (s t : Scene) : Prop :=
  ∃ actions : List External, t = actions.foldl (act env true) s

theorem Waited.kept {s t : Scene} (h : Waited env s t) : Kept s t := by
  obtain ⟨actions, rfl⟩ := h
  exact kept_actions actions s

theorem Waited.controller {s t : Scene} (h : Waited env s t) : t.controller = s.controller := by
  obtain ⟨actions, rfl⟩ := h
  exact controller_actions_locked actions s

theorem Waited.trans {a b c : Scene} (first : Waited env a b) (second : Waited env b c) :
    Waited env a c := by
  obtain ⟨actions, rfl⟩ := first
  obtain ⟨more, rfl⟩ := second
  exact ⟨actions ++ more, by rw [List.foldl_append]⟩

theorem Waited.refl (a : Scene) : Waited env a a := ⟨[], rfl⟩

theorem wp_load_waited {α : Type} {query : Database → Except Fault α}
    {Q : Proc.Post (Session env.backend.Answer) Fault α}
    (ok : ∀ u rest r, Waited env s.toScene u → query u.db = .ok r → Q.ok r ⟨u, rest⟩)
    (error : ∀ u rest e, Waited env s.toScene u → Q.error e ⟨u, rest⟩) (crash : Q.crash s) :
    wp (load env query) s Q := by
  unfold load fetch
  rw [wp_bind]
  refine wp_tick (fun entry rest => ?_) crash
  have waited : Waited env s.toScene (entry.external.foldl (act env true) s.toScene) := ⟨_, rfl⟩
  simp only [wp_bind, wp_environment, wp_read]
  cases entry.commit with
  | commits =>
    dsimp only
    cases answer : query (entry.external.foldl (act env true) s.toScene).db with
    | ok r => exact ok _ rest r waited answer
    | error e => exact error _ rest e waited
  | fails | unknownCommitted | unknownLost => exact error _ rest _ waited

theorem At.waited {u : Scene} {rest : List (Tick env.backend.Answer)}
    (h : At env plans origin phase s) (waited : Waited env s.toScene u) :
    At env plans origin phase ⟨u, rest⟩ := by
  obtain ⟨actions, rfl⟩ := waited
  exact h.actions phase.admits_locked actions

theorem wp_load {α : Type} {query : Database → Except Fault α}
    (h : At env plans origin phase s) :
    wp (load env query) s
      ⟨fun r t => At env plans origin phase t ∧ Waited env s.toScene t.toScene ∧
          query t.db = .ok r,
        fun _ t => At env plans origin phase t ∧ Waited env s.toScene t.toScene,
        Reached env plans origin⟩ := by
  refine wp_load_waited ?_ ?_ h.reached
  · exact fun u rest r waited read => ⟨h.waited waited, waited, read⟩
  · exact fun u rest e waited => ⟨h.waited waited, waited⟩

theorem wp_store {write : Database → Except Fault Database}
    {record : Moment → Commit → List Event} {refusal : Moment → Fault → List Event}
    {Q : Proc.Post (Session env.backend.Answer) Fault Unit}
    (refused : ∀ u rest fault, Waited env s.toScene u → write u.db = .error fault →
      Q.error fault ⟨{ u with trace := refusal u.toMoment fault ++ u.trace }, rest⟩)
    (committed : ∀ u rest db, Waited env s.toScene u → write u.db = .ok db →
      Q.ok () ⟨⟨⟨db, u.controller⟩, record u.toMoment .commits ++ u.trace⟩, rest⟩)
    (failed : ∀ u rest db, Waited env s.toScene u → write u.db = .ok db →
      Q.error storeUnavailable ⟨{ u with trace := record u.toMoment .fails ++ u.trace }, rest⟩)
    (landed : ∀ u rest db, Waited env s.toScene u → write u.db = .ok db →
      Q.error commitUnknown
        ⟨⟨⟨db, u.controller⟩, record u.toMoment .unknownCommitted ++ u.trace⟩, rest⟩)
    (lost : ∀ u rest db, Waited env s.toScene u → write u.db = .ok db →
      Q.error commitUnknown ⟨{ u with trace := record u.toMoment .unknownLost ++ u.trace }, rest⟩)
    (crash : Q.crash s) : wp (store env write record refusal) s Q := by
  unfold store
  rw [wp_bind]
  refine wp_tick (fun entry rest => ?_) crash
  simp only [wp_bind, wp_environment, wp_read]
  have waited : Waited env s.toScene (entry.external.foldl (act env true) s.toScene) := ⟨_, rfl⟩
  cases answer : write (entry.external.foldl (act env true) s.toScene).db with
  | error fault => exact refused _ rest fault waited answer
  | ok db =>
    cases entry.commit with
    | commits =>
      simp only [finishCommit, setDatabase, wp_bind, wp_update]
      exact committed _ rest db waited answer
    | fails =>
      simp only [finishCommit, wp_bind, wp_update, wp_fail]
      exact failed _ rest db waited answer
    | unknownCommitted =>
      simp only [finishCommit, setDatabase, wp_bind, wp_update, wp_fail]
      exact landed _ rest db waited answer
    | unknownLost =>
      simp only [finishCommit, wp_bind, wp_update, wp_fail]
      exact lost _ rest db waited answer

private theorem At.observe {u : Scene} {update : ObservedUpdate} {commit : Commit} {db : Database}
    (rest : List (Tick env.backend.Answer)) (h : At env plans origin (.settled σ) s)
    (attested : Attested s.controller s.trace update) (waited : Waited env s.toScene u)
    (same : SameLedger u.db db) :
    At env plans origin (.settled σ)
        ⟨⟨⟨db, u.controller⟩, .observed update commit u.toMoment :: u.trace⟩, rest⟩ ∧
      Kept s.toScene ⟨⟨db, u.controller⟩, .observed update commit u.toMoment :: u.trace⟩ := by
  have kept := waited.kept
  have at_ : At env plans origin (.settled σ) ⟨u, rest⟩ := h.waited waited
  refine ⟨at_.move (.observe (attested.later ?_ kept.lastProbe) same), ⟨kept.lastProbe,
    kept.answered, fun event member => List.mem_cons_of_mem _ (kept.recorded event member)⟩,
    kept.controller⟩
  exact congrArg Controller.desired waited.controller

section Observed

variable {update : ObservedUpdate} {before : Scene}

private theorem wp_resolveIndeterminateObserved {err : Fault}
    (h : At env plans origin (.settled σ) s) (kept : Kept before s.toScene) :
    wp (Controller.resolveIndeterminateObserved env update err) s
      (keeps env plans origin σ before) := by
  unfold Controller.resolveIndeterminateObserved
  simp only [wp_bind, wp_memory, wp_attempt]
  refine wp_mono (wp_load h) ?_ ?_
  · rintro observed t ⟨at_, waited, _⟩
    simp only
    split <;> exact ⟨at_, kept.trans waited.kept⟩
  · rintro e t ⟨at_, waited⟩
    exact ⟨at_, kept.trans waited.kept⟩

theorem wp_persistObserved {update : Option ObservedUpdate}
    (h : At env plans origin (.settled σ) s)
    (attested : ∀ observed, update = some observed → Attested s.controller s.trace observed) :
    wp (Controller.persistObserved env update) s (keeps env plans origin σ s.toScene) := by
  unfold Controller.persistObserved
  cases update with
  | none => exact ⟨h, Kept.refl _⟩
  | some update =>
    simp only [wp_bind, wp_attempt]
    -- whatever the COMMIT reported, a readback adds only what others do meanwhile
    have failed : ∀ (err : Fault) (u : Session env.backend.Answer),
        At env plans origin (.settled σ) u → Kept s.toScene u.toScene →
        wp (if err.is .commitUnknown then
            Controller.resolveIndeterminateObserved env update err else Proc.fail err) u
          (keeps env plans origin σ s.toScene) := by
      intro err u at_ kept
      split
      · exact wp_resolveIndeterminateObserved at_ kept
      · exact ⟨at_, kept⟩
    have attested := attested update rfl
    refine wp_store ?_ ?_ ?_ ?_ ?_ h.reached
    · intro u rest fault waited _
      exact failed fault _ (h.waited waited) waited.kept
    · intro u rest db waited written
      exact h.observe rest attested waited (applyObservedFirewallUpdate_same written)
    · intro u rest db waited _
      obtain ⟨at_, kept⟩ := h.observe rest attested waited (SameLedger.refl _)
      exact failed storeUnavailable _ at_ kept
    · intro u rest db waited written
      obtain ⟨at_, kept⟩ := h.observe rest attested waited (applyObservedFirewallUpdate_same written)
      exact failed commitUnknown ⟨_, rest⟩ at_ kept
    · intro u rest db waited _
      obtain ⟨at_, kept⟩ := h.observe rest attested waited (SameLedger.refl _)
      exact failed commitUnknown _ at_ kept

end Observed

end Reads

section Changes

/-- The call that persists a change: `applyTransitionLocked`, or the store call of
`persistRetryLocked`. -/
def Controller.persist (env : Env) : Change → Act env Unit
  | .ledger t => applyTransition env t
  | .retry t => storeRetry env t

section Calls

variable {change : Change}

/-- The COMMIT of an accepted change gave no answer; the change is there or it is not. -/
inductive Indeterminate (env : Env) (change : Change) (s : Scene) : Scene → Prop
  | landed {u : Scene} {db : Database} (waited : Waited env s u)
      (accepted : change.apply u.db = .ok db) :
      Indeterminate env change s
        ⟨⟨db, u.controller⟩, change.wrote .unknownCommitted u.toMoment :: u.trace⟩
  | lost {u : Scene} {db : Database} (waited : Waited env s u)
      (accepted : change.apply u.db = .ok db) :
      Indeterminate env change s (u.logging (change.wrote .unknownLost u.toMoment))

/-- How a call that persists a change can end. Others may act before the transaction and between
it and the reads that follow. -/
inductive Settled (env : Env) (change : Change) (s : Scene) : Except Fault Unit → Scene → Prop
  | refused {u : Scene} {fault : Fault} (waited : Waited env s u)
      (refused : change.apply u.db = .error fault) :
      Settled env change s (.error fault) (u.logging (change.refused fault u.toMoment))
  | failed {u : Scene} {db : Database} (waited : Waited env s u)
      (accepted : change.apply u.db = .ok db) :
      Settled env change s (.error storeUnavailable) (u.logging (change.wrote .fails u.toMoment))
  | committed {u : Scene} {db : Database} (waited : Waited env s u)
      (accepted : change.apply u.db = .ok db) :
      Settled env change s (.ok ())
        ⟨⟨db, u.controller⟩, change.wrote .commits u.toMoment :: u.trace⟩
  /-- The readback failed, or what it returned cannot be hydrated. -/
  | flagged {u v : Scene} {fault : Fault} (unknown : Indeterminate env change s u)
      (waited : Waited env u v) :
      Settled env change s (.error fault)
        { v with controller := { v.controller with recoveryReloadNeeded := true } }
  | shown {u v w : Scene} {r : Recovery} {c : Controller} (unknown : Indeterminate env change s u)
      (waited : Waited env u v) (read : change.readback v.controller.nodeID v.db = .ok (r, true))
      (replaced : v.controller.replaceRecovery r = .ok c) (later : Waited env v w) :
      Settled env change s (.ok ())
        { w with controller := { c with recoveryReloadNeeded := false } }
  /-- The ledger, or the observation, that was read does not show the change. -/
  | unshown {u v w : Scene} {r : Recovery} {c : Controller} {shown : Bool} {fault : Fault}
      (unknown : Indeterminate env change s u) (waited : Waited env u v)
      (read : change.readback v.controller.nodeID v.db = .ok (r, shown))
      (replaced : v.controller.replaceRecovery r = .ok c) (later : Waited env v w) :
      Settled env change s (.error fault)
        { w with controller := { c with recoveryReloadNeeded := false } }

/-- A call that is cut off has not asked for the change, or not learnt how its COMMIT ended. -/
def settles (env : Env) (change : Change) (s : Scene) :
    Proc.Post (Session env.backend.Answer) Fault Unit :=
  ⟨fun _ t => Settled env change s (.ok ()) t.toScene,
    fun fault t => Settled env change s (.error fault) t.toScene,
    fun t => t.toScene = s ∨ ∃ u, Indeterminate env change s u ∧ Waited env u t.toScene⟩

theorem Change.avoids_commitUnknown (change : Change) (db : Database) :
    Avoids .commitUnknown (change.apply db) := by
  cases change with
  | ledger t => exact avoids_applyReconcileTransition (by decide) t db
  | retry t => exact avoids_applyReconcileRetryTransition (by decide) t db

variable {before : Scene} {err : Fault}

private theorem wp_flagReload {u : Scene} {cause : Fault} {context : String}
    (unknown : Indeterminate env change before u) (waited : Waited env u s.toScene) :
    wp (Controller.flagReload env err context cause) s (settles env change before) := by
  unfold Controller.flagReload
  simp only [wp_bind, wp_setMemory, wp_fail]
  exact .flagged unknown waited

private theorem wp_adoptRecovery {u v : Scene} {r : Recovery} {shown applied : Bool}
    {context : String} (unknown : Indeterminate env change before u) (waited : Waited env u v)
    (read : change.readback v.controller.nodeID v.db = .ok (r, shown))
    (only : applied = true → shown = true) (later : Waited env v s.toScene) :
    wp (Controller.adoptRecovery env r applied err context) s
      (settles env change before) := by
  unfold Controller.adoptRecovery
  simp only [wp_bind, wp_memory]
  split
  · exact wp_flagReload unknown (waited.trans later)
  · rename_i replaced eq
    rw [later.controller] at eq
    simp only [wp_bind, wp_setMemory]
    split
    · rename_i isApplied
      rw [only isApplied] at read
      exact .shown unknown waited read eq later
    · exact .unshown unknown waited read eq later

private theorem wp_resolveIndeterminate {t : Transition}
    (unknown : Indeterminate env (.ledger t) before s.toScene) :
    wp (Controller.resolveIndeterminate env t err) s (settles env (.ledger t) before) := by
  unfold Controller.resolveIndeterminate
  simp only [wp_bind, wp_memory, wp_attempt]
  refine wp_load_waited ?_ ?_ (.inr ⟨_, unknown, .refl _⟩)
  · intro u rest r waited read
    have shown : (Change.ledger t).readback u.controller.nodeID u.db =
        .ok (r, reconcileTransitionApplied r t) := by
      rw [← waited.controller] at read
      simp [Change.readback, read, Except.map]
    dsimp only
    split
    · exact wp_adoptRecovery unknown waited shown id (Waited.refl _)
    · simp only [wp_bind, wp_attempt]
      refine wp_load_waited ?_ ?_ (.inr ⟨_, unknown, waited⟩)
      · intro v rest observed later _
        refine wp_adoptRecovery unknown waited shown ?_ later
        exact fun both => (Bool.and_eq_true_iff.mp both).1
      · intro v rest e later
        exact wp_flagReload unknown (waited.trans later)
  · intro u rest e waited
    exact wp_flagReload unknown waited

private theorem wp_resolveIndeterminateRetry {t : RetryTransition}
    (unknown : Indeterminate env (.retry t) before s.toScene) :
    wp (Controller.resolveIndeterminateRetry env t err) s
      (settles env (.retry t) before) := by
  unfold Controller.resolveIndeterminateRetry
  simp only [wp_bind, wp_attempt]
  refine wp_load_waited ?_ ?_ (.inr ⟨_, unknown, .refl _⟩)
  · rintro u rest ⟨r, applied⟩ waited read
    exact wp_adoptRecovery unknown waited read id (Waited.refl _)
  · intro u rest e waited
    exact wp_flagReload unknown waited

private theorem wp_call {resolve : Fault → Act env Unit}
    (resolves : ∀ (u : Session env.backend.Answer) err,
      Indeterminate env change s.toScene u.toScene →
        wp (resolve err) u (settles env change s.toScene)) :
    wp (do
        match ← Proc.attempt (store env change.apply
            (fun before commit => [change.wrote commit before])
            (fun before fault => [change.refused fault before])) with
        | .ok () => pure ()
        | .error err => if err.is .commitUnknown then resolve err else Proc.fail err) s
      (settles env change s.toScene) := by
  simp only [wp_bind, wp_attempt]
  refine wp_store ?_ ?_ ?_ ?_ ?_ (.inl rfl)
  · intro u rest fault waited refused
    simp only [change.avoids_commitUnknown _ fault refused, Bool.false_eq_true, if_false]
    exact .refused waited refused
  · intro u rest db waited accepted
    exact .committed waited accepted
  · intro u rest db waited accepted
    exact .failed waited accepted
  · intro u rest db waited accepted
    exact resolves _ commitUnknown (.landed waited accepted)
  · intro u rest db waited accepted
    exact resolves _ commitUnknown (.lost waited accepted)

theorem wp_persist : wp (Controller.persist env change) s (settles env change s.toScene) := by
  cases change with
  | ledger t => exact wp_call fun u err unknown => wp_resolveIndeterminate unknown
  | retry t => exact wp_call fun u err unknown => wp_resolveIndeterminateRetry unknown

end Calls

/-- The change of `w` is known to be durable; what is left is to set memory. -/
structure Landed (w : Write) (env : Env) (plans : Command → Prop) (origin : Phase × Scene)
    (s : Scene) (t : Session env.backend.Answer) : Prop extends SameProbe s t.toScene where
  path : Path env plans origin
    (.settled w.stage, { t.toScene with controller := w.success t.controller })
  loaded : t.controller.recoveryReloadNeeded = false
  desired : t.controller.desired = s.controller.desired

theorem SameProbe.setting {s t : Scene} (h : SameProbe s t) (c : Controller) :
    SameProbe s { t with controller := c } := ⟨h.lastProbe, h.answered, h.recorded⟩

def persists (w : Write) (env : Env) (plans : Command → Prop) (origin : Phase × Scene)
    (σ : Stage) (s : Scene) : Proc.Post (Session env.backend.Answer) Fault Unit :=
  ⟨fun _ t => Landed w env plans origin s t,
    fun _ t => At env plans origin (.settled σ.ended) t, Reached env plans origin⟩

section Asking

variable {w : Write} {u v : Scene} (h : At env plans origin (.settled σ) s)
  (loaded : s.controller.recoveryReloadNeeded = false)
  (permitted : Permitted env plans s.controller s.trace σ w)

include h loaded permitted

private theorem asking_waited (waited : Waited env s.toScene u) :
    Path env plans origin (.settled σ, u) ∧ u.controller.recoveryReloadNeeded = false ∧
      Permitted env plans u.controller u.trace σ w := by
  have kept := waited.kept
  have path : At env plans origin (.settled σ) ⟨u, s.script⟩ := h.waited waited
  rw [waited.controller]
  exact ⟨path, loaded, permitted.later kept.lastProbe kept.answered kept.recorded⟩

omit h loaded permitted in
private theorem sameProbe_wrote {c : Controller} {db : Database} {commit : Commit}
    {a b : Scene} (waited : Waited env a b) :
    SameProbe a ⟨⟨db, c⟩, w.change.wrote commit b.toMoment :: b.trace⟩ := by
  have kept := waited.kept
  refine ⟨by simpa using kept.lastProbe, by simpa using kept.answered, ?_⟩
  exact fun event member => List.mem_cons_of_mem _ (kept.recorded event member)

/-- Only a COMMIT without an answer leaves the protocol adrift. -/
private theorem adrift_of_indeterminate (unknown : Indeterminate env w.change s.toScene u)
    (later : Waited env u v) :
    Path env plans origin (.adrift σ w, v) ∧ SameProbe s.toScene v ∧
      v.controller = s.controller := by
  suffices Path env plans origin (.adrift σ w, u) ∧ SameProbe s.toScene u ∧
      u.controller = s.controller by
    obtain ⟨path, probe, memory⟩ := this
    obtain ⟨actions, rfl⟩ := later
    exact ⟨path.trans (path_actions (Phase.admits_locked _) actions u),
      probe.trans (kept_actions actions u).toSameProbe,
      (controller_actions_locked actions u).trans memory⟩
  cases unknown with
  | landed waited accepted =>
    obtain ⟨path, loaded, permitted⟩ := asking_waited h loaded permitted waited
    exact ⟨Path.move path (.land loaded permitted accepted), sameProbe_wrote waited,
      waited.controller⟩
  | lost waited accepted =>
    obtain ⟨path, loaded, permitted⟩ := asking_waited h loaded permitted waited
    exact ⟨Path.move path (.lose loaded permitted accepted), sameProbe_wrote waited,
      waited.controller⟩

theorem wp_persists :
    wp (Controller.persist env w.change) s (persists w env plans origin σ s.toScene) := by
  have asking := @asking_waited env plans origin s σ w
  have adrift := @adrift_of_indeterminate env plans origin s σ w
  -- memory can be replaced where the recovery was read: what others did since commutes
  have moved : ∀ {phase : Phase} {a b : Scene} (c : Controller),
      Path env plans origin (phase, { a with controller := c }) → Waited env a b →
      Path env plans origin (phase, { b with controller := c }) := by
    rintro phase a _ c path ⟨actions, rfl⟩
    rw [← actions_locked]
    exact path.trans (path_actions (Phase.admits_locked _) actions _)
  refine wp_conseq wp_persist ?_ ?_ ?_
  · rintro _ ⟨t, script⟩ settled
    cases settled with
    | committed waited accepted =>
      obtain ⟨path, loaded, permitted⟩ := asking h loaded permitted waited
      exact ⟨sameProbe_wrote waited, Path.move path (.commit loaded permitted accepted), loaded,
        congrArg Controller.desired waited.controller⟩
    | shown unknown waited read replaced later =>
      obtain ⟨path, probe, memory⟩ := adrift h loaded permitted unknown waited
      have adopted := moved _ (Path.move path (.adopt read replaced)) later
      refine ⟨(probe.trans later.kept.toSameProbe).setting _, adopted, rfl, ?_⟩
      exact (replaced_of_replaceRecovery replaced).desired.trans
        (congrArg Controller.desired memory)
  · rintro fault ⟨t, script⟩ settled
    cases settled with
    | refused waited refused =>
      obtain ⟨path, loaded, permitted⟩ := asking h loaded permitted waited
      exact Path.move path (.refuse loaded permitted refused)
    | failed waited accepted =>
      obtain ⟨path, loaded, permitted⟩ := asking h loaded permitted waited
      exact Path.move path (.fail loaded permitted accepted)
    | flagged unknown waited => exact Path.move (adrift h loaded permitted unknown waited).1 .flag
    | unshown unknown waited read replaced later =>
      exact moved _ (Path.move (adrift h loaded permitted unknown waited).1
        (.abandon read replaced)) later
  · rintro ⟨t, script⟩ (rfl | ⟨u, unknown, waited⟩)
    · exact ⟨_, h⟩
    · exact ⟨_, (adrift h loaded permitted unknown waited).1⟩

end Asking

end Changes

end GuardWall.Reconcile
