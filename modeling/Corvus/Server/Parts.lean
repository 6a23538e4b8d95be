import Corvus.Refinement
import Corvus.Resources.Isolation
import Corvus.Server.KeySpaces
import Corvus.Server.Server

/-!
# The components of the server

Inside the server the checks of API keys run as the component that was studied
alone, and so do the calls of the resource service: what the rest of the server
does, and what the two do to the Redis they share, is nothing to the other that
time or eviction could not do.
-/

namespace Corvus.Server

open Corvus.Auth Corvus.Db Corvus.Resources

variable {platform : Platform} {deployment : Deployment}

/-- Others write neither cached resources nor entries that read as API keys from
Postgres, and the API keys of Postgres hold no NUL. -/
def Trusted (_ : ServerState platform) : ServerEvent → Prop
  | .start _ _ => True
  | .advance _ choice => ∀ record, choice.keys.lookup = .ok (some record) → record.NulFree
  | .stop _ => True
  | .happen (.write key entry) => cacheSpace key = false ∧
      ∀ hash, key = redisKey hash → ¬CarriesPg entry ∧ FieldsNulFree entry
  | .happen _ => True

/-- `Trusted`, where others write nothing. -/
def trustedCheck : ServerEvent → Bool
  | .advance _ choice =>
      match choice.keys.lookup with
      | .ok (some record) => decide record.NulFree
      | _ => true
  | .happen (.write _ _) => false
  | _ => true

theorem trusted_of_check {state : ServerState platform} {event : ServerEvent}
    (checked : trustedCheck event = true) : Trusted state event := by
  cases event with
  | advance id choice =>
      intro record found
      rw [trustedCheck, found] at checked
      exact of_decide_eq_true checked
  | happen happening =>
      cases happening with
      | write key entry => cases checked
      | _ => trivial
  | _ => trivial

/-- A replay from a fresh server is a run of trusted steps, if a check of its events says so. -/
theorem reachable_of_checked {shared : ServerShared platform} (isFresh : shared.Fresh)
    {events : List ServerEvent} (possible : ((server platform deployment).machine.execute
      (Component.fresh shared) events).isSome = true)
    (checked : events.all trustedCheck = true) :
    (server platform deployment).machine.Reachable Trusted
      ((server platform deployment).replay shared events) :=
  Component.reachable_replay isFresh possible (Machine.allows_of_forall fun event member _ =>
    trusted_of_check (List.all_eq_true.mp checked event member))

theorem deletingState_reachable :
    (server Platform.reference sampleDeployment).machine.Reachable Trusted deletingState :=
  reachable_of_checked sampleShared_fresh (by decide +kernel) (by decide)

/-- The status, the client and the id of a removal that was answered. -/
def ServerCall.removal (call : ServerCall platform) : Option (Nat × String × String) :=
  match call.phase with
  | .answered response (some (.remove clientId id, .ok .removed)) =>
      some (response.status, clientId, id)
  | _ => none

theorem deletingState_answered :
    ∃ call response, deletingState.calls 0 = some call ∧ call.phase =
        .answered response (some (.remove sampleClientText sampleIdText, .ok .removed)) ∧
      response.status = 200 := by
  have removal : (deletingState.calls 0).bind ServerCall.removal =
      some (200, sampleClientText, sampleIdText) := by decide +kernel
  obtain ⟨call, found, removed⟩ := Option.bind_eq_some_iff.mp removal
  unfold ServerCall.removal at removed
  split at removed
  · rename_i response clientId id answered
    simp only [Option.some.injEq, Prod.mk.injEq] at removed
    obtain ⟨isOk, rfl, rfl⟩ := removed
    exact ⟨call, response, found, answered, isOk⟩
  · cases removed

/-! ## The validators -/

/-- The check of an API key a request is in. -/
def pickCheck (call : ServerCall platform) : Option ValidateCall :=
  match call.phase with
  | .validating _ check => some check
  | _ => none

/-- The validators in the server. -/
def validationView : ServerState platform → ValidationState :=
  Component.view (fun shared => apiKeysOf shared.keys) pickCheck

section Pick

variable {call : ServerCall platform}

@[simp] theorem pickCheck_respond (response : Api.Response) :
    pickCheck (call.respond response) = none := rfl

@[simp] theorem pickCheck_route : pickCheck (call.route deployment) = none := by
  unfold ServerCall.route
  split <;> rfl

@[simp] theorem pickCheck_authenticated (target : Target) (checkKey : KeyCheck) (systemNow : Int) :
    pickCheck (call.authenticated deployment target checkKey systemNow) = none := by
  unfold ServerCall.authenticated
  split <;> rfl

theorem pickCheck_of_phase {phase : ServerPhase platform} (phaseEq : call.phase = phase)
    (notValidating : ∀ target check, phase ≠ .validating target check) :
    pickCheck call = none := by
  unfold pickCheck
  split
  · rename_i target check validating
    exact (notValidating target check (phaseEq.symm.trans validating)).elim
  · rfl

end Pick

theorem keys_spared {shared : ServerShared platform} {store : Store platform}
    (spared : store.redis.within apiKeySpace = shared.redis.within apiKeySpace) :
    apiKeysOf (shared.withStore store).keys = apiKeysOf shared.keys := by
  simp only [apiKeysOf, ServerShared.keys, ServerShared.withStore, spared]

/-- Guards under which the checks of API keys in the server are allowed as checks of the
validators alone. -/
structure AllowsChecks (deployment : Deployment)
    (guard : ServerState platform → ServerEvent → Prop)
    (checkGuard : ValidationState → ValidationEvent → Prop) : Prop where
  started : ∀ state id request, request.hasLookup = true → checkGuard state (.start id request)
  advanced : ∀ state id choice, guard state (.advance id choice) →
    checkGuard (validationView state) (.advance id choice.keys)
  stopped : ∀ state id, checkGuard state (.stop id)
  happened : ∀ state happening, guard state (.happen happening) →
    checkGuard (validationView state) (.happen happening)

/-- What the server does in a state is to the validators what one of their checks does, or
nothing. -/
theorem hostsAt_validation {guard : ServerState platform → ServerEvent → Prop}
    {checkGuard : ValidationState → ValidationEvent → Prop}
    (allows : AllowsChecks deployment guard checkGuard) (state : ServerState platform) :
    Component.HostsAt (server platform deployment) guard (validation deployment.sha256)
      checkGuard (fun shared => apiKeysOf shared.keys) pickCheck state where
  entered _ _ _ := .unchanged rfl rfl
  advanced id choice call next after allowed found stepped := by
    cases ServerStep.of_step stepped with
    | declaredTooLarge phaseEq | refused phaseEq | bodyTooLarge phaseEq
    | handled phaseEq | finished phaseEq | invoked phaseEq =>
        exact .unchanged (pickCheck_of_phase phaseEq (by simp)).symm rfl
    | uncounted phaseEq =>
        rw [pickCheck_route, pickCheck_of_phase phaseEq (by simp)]
        exact .unchanged rfl rfl
    | counted phaseEq nextEq =>
        have notYet : pickCheck next = none := by
          rw [nextEq]
          split
          · exact pickCheck_route
          · rfl
        rw [notYet, pickCheck_of_phase phaseEq (by simp)]
        exact .unchanged rfl rfl
    | asked phaseEq =>
        rw [pickCheck_of_phase phaseEq (by simp)]
        exact .begins (allows.started _ _ _ rfl)
    | decided decided =>
        rw [pickCheck_authenticated]
        cases decided with
        | unasked _ phaseEq => exact .unchanged (pickCheck_of_phase phaseEq (by simp)).symm rfl
        | checked phaseEq =>
            simp only [pickCheck, phaseEq]
            exact .ends _
    | @validated target check moved keys phaseEq checkStepped =>
        have picked : pickCheck call = some check := by simp only [pickCheck, phaseEq]
        rw [picked]
        refine .moves (allows.advanced state id choice allowed) ?_
        have within := @validate_step_within deployment.sha256 check choice.keys state.shared.keys
        rw [checkStepped] at within
        exact within
    | served phaseEq innerStepped =>
        have spared := service_step_spares innerStepped
        exact .unchanged (pickCheck_of_phase phaseEq (by simp)).symm (keys_spared spared)
  stopped := allows.stopped
  happened happening after allowed happened := by
    cases happened
    cases happening with
    | tick span => exact Or.inr ⟨.tick span, allows.happened state _ allowed, rfl⟩
    | write key entry =>
        cases kept : apiKeySpace key with
        | true =>
            refine Or.inr ⟨.write key entry, allows.happened state _ allowed, ?_⟩
            simp only [validation, RedisHappening.apply, apiKeysOf, ServerShared.keys,
              ExpiringStore.within_put _ _ kept]
        | false =>
            left
            simp only [RedisHappening.apply, apiKeysOf, ServerShared.keys,
              ExpiringStore.within_put_of_not _ _ kept]
    | remove key =>
        refine Or.inr ⟨.remove key, allows.happened state _ allowed, ?_⟩
        simp only [validation, RedisHappening.apply, apiKeysOf, ServerShared.keys,
          ExpiringStore.within_erase]

theorem trusted_allowsChecks :
    @AllowsChecks platform deployment Trusted TrustedWrites where
  started _ _ _ hasLookup := hasLookup
  advanced _ _ _ trusted := trusted
  stopped _ _ := trivial
  happened _ happening trusted := by
    cases happening with
    | write key entry => exact trusted.2
    | tick span => trivial
    | remove key => trivial

theorem hosts_validation :
    Component.Hosts (server platform deployment) Trusted (validation deployment.sha256)
      TrustedWrites (fun shared => apiKeysOf shared.keys) pickCheck where
  initially shared fresh := by
    obtain ⟨_, _, keysEq, _⟩ := fresh
    have unchanged : apiKeysOf KeyService.fresh = KeyService.fresh := by
      simp only [apiKeysOf, KeyService.fresh, ExpiringStore.within_empty]
    rw [keysEq]
    exact unchanged
  hostsAt state _ := hostsAt_validation trusted_allowsChecks state

/-- Whatever else the server does, its checks of API keys are runs of the validators
alone. -/
theorem server_refines_validation :
    (server platform deployment).machine.Refines Trusted
      (validation deployment.sha256).machine TrustedWrites validationView :=
  hosts_validation.refines

end Corvus.Server
