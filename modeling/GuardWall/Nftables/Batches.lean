import GuardWall.Nftables.Listing
import Mathlib.Data.List.ReduceOption

/-! The sets of a guard table as the batches of the authorized mutations leave them, and what an
authorized mutation may ask for. -/
namespace GuardWall.Nftables

open GuardWall.Core GuardWall.Firewall GuardWall.Foundation GuardWall.Enforcer GuardWall.Ipc

section Sets

variable {name : SetName} {s s' : NftSet}

structure Fitting (name : SetName) (item : Cidr × Option Nat) : Prop where
  family : item.1.addr.is4 = name.v4
  canonical : item.1 = item.1.masked
  fits : ∀ ms, item.2 = some ms → ms ≤ maxTimeoutMS
  managed : name.isBan = true → validManagedTarget (some item.1) = true

structure Shrinks (s s' : NftSet) : Prop where
  v4 : s'.v4 = s.v4
  timeout : s'.timeout = s.timeout
  cidrs : (s'.elements.map Element.cidr).Sublist (s.elements.map Element.cidr)
  fits : ∀ e' ∈ s'.elements, ∀ ms', e'.remainingMS = some ms' →
    ∃ e ∈ s.elements, ∃ ms, e.remainingMS = some ms ∧ ms' ≤ ms

theorem Sound.shrinks (sound : Sound name s) (shrinks : Shrinks s s') : Sound name s' := by
  have origin : ∀ e' ∈ s'.elements, ∃ e ∈ s.elements, e.cidr = e'.cidr := fun e' member =>
    List.mem_map.mp (shrinks.cidrs.subset (List.mem_map_of_mem member))
  refine ⟨shrinks.v4.trans sound.v4, shrinks.timeout.trans sound.timeout,
    sound.distinct.sublist shrinks.cidrs, ?_, ?_, ?_, ?_⟩
  · intro e' member
    obtain ⟨e, among, same⟩ := origin e' member
    exact same ▸ sound.family e among
  · intro e' member
    obtain ⟨e, among, same⟩ := origin e' member
    exact same ▸ sound.canonical e among
  · intro e' member ms' left
    obtain ⟨e, among, ms, more, le⟩ := shrinks.fits e' member ms' left
    exact le.trans (sound.fits e among ms more)
  · intro ban e' member
    obtain ⟨e, among, same⟩ := origin e' member
    exact same ▸ sound.managed ban e among

theorem shrinks_of_sublist {elements : List Element} (sub : elements.Sublist s.elements) :
    Shrinks s { s with elements := elements } where
  v4 := rfl
  timeout := rfl
  cidrs := sub.map _
  fits e' member ms' left := ⟨e', sub.subset member, ms', left, le_rfl⟩

theorem shrinks_after (elapsedMS : Nat) (s : NftSet) : Shrinks s (s.after elapsedMS) where
  v4 := rfl
  timeout := rfl
  cidrs := by
    show ((s.elements.filterMap (Element.after elapsedMS)).map Element.cidr).Sublist _
    induction s.elements with
    | nil => exact List.Sublist.refl _
    | cons e rest ih =>
      cases gone : e.after elapsedMS with
      | none =>
        rw [List.filterMap_cons_none gone]
        exact ih.cons _
      | some e' =>
        have same : e'.cidr = e.cidr := by
          unfold Element.after at gone
          split at gone
          · cases gone
            rfl
          · split at gone <;> cases gone
            rfl
        rw [List.filterMap_cons_some gone, List.map_cons, List.map_cons, same]
        exact ih.cons_cons _
  fits e' member ms' left := by
    obtain ⟨e, among, kept⟩ := List.mem_filterMap.mp member
    refine ⟨e, among, ?_⟩
    unfold Element.after at kept
    split at kept
    · rename_i forever
      cases kept
      rw [forever] at left
      cases left
    · rename_i ms more
      split at kept
      · cases kept
      · cases kept
        cases left
        exact ⟨ms, more, Nat.sub_le _ _⟩

end Sets

section Batches

theorem sound_empty (name : SetName) : Sound name ⟨name.v4, name.isBan, []⟩ :=
  ⟨rfl, rfl, List.nodup_nil, by simp, by simp, by simp, by simp⟩

theorem infrastructureBatch_fresh : ∃ t, runBatch none infrastructureBatch = some (some t) ∧
    Framed [.infrastructureMarker] t ∧ banned t = ∅ ∧
    ∀ name s, t.sets name = some s → s.elements = [] := by
  refine ⟨_, rfl, ⟨?_, ?_, rfl⟩, ?_, ?_⟩
  · intro name
    refine ⟨_, ?_, sound_empty name⟩
    cases name with
    | allow v4 | protectedTargets v4 => cases v4 <;> rfl
    | ban scope v4 => cases scope <;> cases v4 <;> rfl
  · intro scope
    cases scope <;> rfl
  · rfl
  · intro name s found
    cases name with
    | allow v4 | protectedTargets v4 => cases v4 <;> cases found <;> rfl
    | ban scope v4 => cases scope <;> cases v4 <;> cases found <;> rfl

theorem legible_empty {t : GuardTable} (empty : ∀ name s, t.sets name = some s → s.elements = []) :
    Legible t := by
  intro name s found e member
  rw [empty name s found] at member
  cases member

theorem mem_family {prefixes : List Prefix} {v4 : Bool} {c : Cidr} (member : c ∈ family prefixes v4) :
    some c ∈ prefixes ∧ c.addr.is4 = v4 := by
  obtain ⟨inside, own⟩ := List.mem_filter.mp member
  exact ⟨List.reduceOption_mem_iff.mp inside, by simpa using own⟩

theorem canonical_of_validCanonicalPrefixList {prefixes : List Prefix}
    (valid : validCanonicalPrefixList prefixes = true) :
    ∀ p ∈ prefixes, p.canonical = true := by
  induction prefixes with
  | nil => simp
  | cons first rest ih =>
    cases rest with
    | nil => simpa [validCanonicalPrefixList] using valid
    | cons second rest =>
      simp only [validCanonicalPrefixList, Bool.and_eq_true] at valid
      intro p member
      obtain rfl | member := List.mem_cons.mp member
      · exact valid.1.1
      · exact ih valid.2 p member

end Batches

theorem timeoutMS_le {expiryUS : Option Int} {now : Reading} {timeout : Option Nat}
    (left : timeoutMS expiryUS now = some timeout) :
    ∀ ms, timeout = some ms → ms ≤ maxTimeoutMS := by
  intro ms some_
  unfold timeoutMS at left
  split at left
  · cases left
    cases some_
  · dsimp only at left
    split at left
    · cases left
    · cases left
      cases some_
      unfold maxTimeoutMS maxDurationNS
      omega

section Authorities

inductive Permitted : Enforcer.Request → Authority → Prop
  | infrastructure {owner basis revision schema capabilities} :
      Permitted (.apply (.infrastructure owner basis revision schema))
        (.infrastructure capabilities basis revision)
  | policy {owner basis revision allowlist protectedTargets capabilities}
      (allow : validCanonicalPrefixList allowlist = true)
      (protect : validCanonicalPrefixList protectedTargets = true) :
      Permitted (.apply (.policy owner basis revision allowlist protectedTargets))
        (.policy capabilities basis revision allowlist protectedTargets)
  | target {owner basis generation c membership mode expiryUS scopes capabilities}
      (managed : validManagedTarget (some c) = true)
      (ordered : canonicalManagedScopes scopes = some scopes) :
      Permitted (.apply (.target owner basis generation (some c) membership mode expiryUS scopes))
        (.target capabilities basis generation (some c) membership mode expiryUS scopes)
  | removal {owner capabilities basis} : Permitted (.remove owner) (.removal capabilities basis)

variable {digests : FirewallDigests} {capabilities : Capabilities} {s : ManagedSnapshot}
  {authority : Authority}

theorem permitted_plan {plan : ManagedPlan}
    (h : authorizeManagedPlan digests capabilities s plan = .ok authority) :
    Permitted (.apply plan) authority := by
  cases plan with
  | infrastructure owner basis revision schema =>
    simp only [authorizeManagedPlan, bind_eq_ok] at h
    obtain ⟨_, _, same⟩ := h
    cases same
    exact .infrastructure
  | policy owner basis revision allowlist protectedTargets =>
    simp only [authorizeManagedPlan, authorizePolicyMutation, bind_eq_ok, deny_eq_ok,
      Bool.or_eq_false_iff, Bool.not_eq_false'] at h
    obtain ⟨_, ⟨_, ⟨⟨⟨_, allow⟩, protect⟩, _⟩, _⟩, same⟩ := h
    cases same
    exact .policy allow protect
  | target owner basis generation cidr membership mode expiryUS scopes =>
    simp only [authorizeManagedPlan, authorizeTargetMutation, bind_eq_ok, deny_eq_ok,
      Bool.or_eq_false_iff, Bool.not_eq_false'] at h
    obtain ⟨_, ⟨_, ⟨_, managed⟩, _, ⟨ordered, _⟩, _⟩, same⟩ := h
    cases same
    cases cidr with
    | none => simp [validManagedTarget, Prefix.canonical] at managed
    | some c => exact .target managed (by simpa using ordered)

theorem permitted_request {request : Enforcer.Request}
    (h : authorizeMutationRequest digests capabilities s request = .ok (.mutation authority)) :
    Permitted request authority := by
  cases request with
  | apply plan =>
    simp only [authorizeMutationRequest, bind_eq_ok] at h
    obtain ⟨authority', authorized, same⟩ := h
    cases same
    unfold authorizeApplyPlan at authorized
    split at authorized
    · cases authorized
    · exact permitted_plan (mapError_eq_ok.mp authorized)
  | remove owner =>
    simp only [authorizeMutationRequest] at h
    split at h
    · cases h
    · simp only [bind_eq_ok, mapError_eq_ok] at h
      obtain ⟨removal, authorized, h⟩ := h
      obtain ⟨rfl, _⟩ | ⟨rfl, _⟩ := authorizeManagedRemoval_ok authorized
      · cases h
      · cases h
        exact .removal

end Authorities

end GuardWall.Nftables
