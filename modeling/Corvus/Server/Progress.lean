import Corvus.Progress
import Corvus.Server.Parts

/-!
# Every request is answered

A request that is not answered yet can always take its next step, whatever it finds: the
failures of Redis, of Postgres and of the token library all lead on.  And it has at most
twenty-one steps to take, whatever the other requests do.
-/

namespace Corvus.Server

open Corvus.Auth Corvus.Db Corvus.Resources

variable {platform : Platform} {deployment : Deployment}

/-! ## Checks of API keys -/

/-- The steps a check has left to take, at most. -/
def checkRank : ValidatePhase → Nat
  | .entered => 11
  | .acquire => 10
  | .hgetall _ => 9
  | .reconnect => 8
  | .hgetallAgain _ => 7
  | .release _ _ => 6
  | .lookup => 5
  | .storeAcquire _ => 4
  | .storeHmset _ _ => 3
  | .storeExpire _ _ => 2
  | .storeRelease _ _ => 1
  | .done _ => 0

section Checks

variable {call next : ValidateCall} {answer : Answer} {service after : KeyService}
  {sha256 : String → List UInt8}

theorem checkRank_cacheFailed (call : ValidateCall) (what : String) :
    checkRank (call.cacheFailed what).phase ≤ 5 := by
  unfold ValidateCall.cacheFailed
  split
  · exact Nat.le_refl 5
  · exact Nat.zero_le 5

theorem checkRank_cacheAnswered (call : ValidateCall) (cached : Option ApiKeyInfo) :
    checkRank (call.cacheAnswered cached).phase ≤ 5 := by
  unfold ValidateCall.cacheAnswered
  split
  · exact Nat.zero_le 5
  · split
    · exact Nat.le_refl 5
    · exact Nat.zero_le 5

theorem check_descends (stepped : call.step sha256 answer service = some (next, after)) :
    checkRank next.phase < checkRank call.phase := by
  cases ValidateCall.Step.of_step stepped with
  | refused phaseEq | began phaseEq | acquired phaseEq | dropped phaseEq | reconnected phaseEq
  | notFound phaseEq | found phaseEq | storing phaseEq | stored phaseEq | expires phaseEq
  | storeLost phaseEq | expiryLost phaseEq =>
      simp [checkRank, ValidateCall.goTo, ValidateCall.finish, phaseEq]
  | replied phaseEq =>
      rcases phaseEq with phaseEq | phaseEq <;> simp [checkRank, ValidateCall.goTo, phaseEq]
  | released phaseEq =>
      refine Nat.lt_of_le_of_lt (checkRank_cacheAnswered _ _) ?_
      simp [checkRank, phaseEq]
  | cacheLost phaseEq =>
      refine Nat.lt_of_le_of_lt (checkRank_cacheFailed _ _) ?_
      rcases phaseEq with phaseEq | phaseEq | ⟨connection, phaseEq | phaseEq⟩ <;>
        simp [checkRank, phaseEq]
  | finished phaseEq =>
      rcases phaseEq with phaseEq | ⟨connection, phaseEq | phaseEq | phaseEq⟩ <;>
        simp [checkRank, ValidateCall.goTo, ValidateCall.finish, phaseEq]

/-- A check that has not ended can take a step. -/
theorem check_enabled (notDone : ∀ outcome, call.phase ≠ .done outcome) :
    (call.step sha256 answer service).isSome = true := by
  unfold ValidateCall.step
  cases phaseEq : call.phase with
  | done outcome => exact (notDone outcome phaseEq).elim
  | _ =>
      dsimp only
      repeat' split
      all_goals rfl

end Checks

/-! ## Calls of the service -/

/-- The steps a call has left to take, at most. -/
def serviceRank : Phase → Nat
  | .cacheGet => 5
  | .cacheExists => 4
  | .readVersion => 3
  | .selectRow _ => 2
  | .putIfVersion _ _ => 1
  | .insertRow => 1
  | .selectPage => 1
  | .writeRow => 2
  | .invalidateVersioned _ _ => 1
  | .done _ => 0

/-- The phases a call goes through for a request. -/
def Passes : Request → Phase → Prop
  | _, .done _ => True
  | .create _ _, .insertRow => True
  | .get _ _, .cacheGet | .get _ _, .cacheExists | .get _ _, .readVersion => True
  | .get _ _, .selectRow _ | .get _ _, .putIfVersion _ _ => True
  | .list _ _, .selectPage => True
  | .update _ _ _, .writeRow | .update _ _ _, .invalidateVersioned _ _ => True
  | .remove _ _, .writeRow | .remove _ _, .invalidateVersioned _ _ => True
  | _, _ => False

section Calls

variable {call next : Resources.Call platform} {choice : Choice} {store after : Store platform}

theorem passes_enter (request : Request) : Passes request request.firstPhase := by
  cases request <;> trivial

theorem passes_step (stepped : ServiceStep call choice store next after) :
    Passes next.request next.phase := by
  cases stepped with
  | created requestEq _ _ nextEq =>
      rcases nextEq with ⟨resource, rfl, _⟩ | ⟨error, rfl⟩ <;> exact trivial
  | missed requestEq | versionRead requestEq | selected requestEq | gotEmpty requestEq =>
      simp only [Call.goTo, requestEq]
      exact trivial
  | written requestEq _ _ nextEq =>
      rcases nextEq with ⟨outcome, rfl, _⟩ | ⟨error, rfl⟩
      · rcases requestEq with ⟨changes, requestEq⟩ | requestEq <;>
          simp only [Call.goTo, requestEq] <;> exact trivial
      · exact trivial
  | _ => exact trivial

/-- Calls that create or list have one step to take. -/
theorem phase_of_single (stepped : call.step choice store = some (next, after)) :
    (∀ clientId request, call.request = .create clientId request → call.phase = .insertRow) ∧
      ∀ clientId filter, call.request = .list clientId filter → call.phase = .selectPage := by
  constructor <;> intro clientId content requestEq <;>
    simp only [Call.step, requestEq, Call.createStep, Call.listStep] at stepped <;>
    split at stepped
  · assumption
  · cases stepped
  · assumption
  · cases stepped

theorem service_descends (stepped : call.step choice store = some (next, after)) :
    serviceRank next.phase < serviceRank call.phase := by
  obtain ⟨inserts, lists⟩ := phase_of_single stepped
  cases ServiceStep.of_step stepped with
  | notCreated error requestEq => simp [serviceRank, Call.finish, Call.goTo, inserts _ _ requestEq]
  | created requestEq _ _ nextEq =>
      rcases nextEq with ⟨resource, rfl, _⟩ | ⟨error, rfl⟩ <;>
        simp [serviceRank, Call.finish, Call.goTo, inserts _ _ requestEq]
  | listed requestEq | notListed _ requestEq =>
      simp [serviceRank, Call.finish, Call.goTo, lists _ _ requestEq]
  | missed _ phaseEq =>
      rcases phaseEq with phaseEq | phaseEq <;> simp [serviceRank, Call.goTo, phaseEq]
  | written _ phaseEq _ nextEq =>
      rcases nextEq with ⟨outcome, rfl, _⟩ | ⟨error, rfl⟩ <;>
        simp [serviceRank, Call.finish, Call.goTo, phaseEq]
  | gotEmpty _ phaseEq | hit _ phaseEq | hitEmpty _ phaseEq | versionRead _ phaseEq
  | selected _ phaseEq | answered _ phaseEq | cached _ phaseEq | notWritten _ _ phaseEq
  | invalidated _ phaseEq =>
      simp [serviceRank, Call.finish, Call.goTo, phaseEq]

/-- A call of the service that has not ended can take a step. -/
theorem service_enabled (passes : Passes call.request call.phase)
    (notDone : ∀ outcome, call.phase ≠ .done outcome) :
    (call.step choice store).isSome = true := by
  unfold Call.step
  cases requestEq : call.request <;> cases phaseEq : call.phase <;>
    simp only [requestEq, phaseEq, Passes] at passes <;>
    first
      | exact (notDone _ phaseEq).elim
      | (simp only [Call.createStep, Call.getStep, Call.listStep, Call.updateStep,
          Call.removeStep, phaseEq]
         repeat' split
         all_goals rfl)

end Calls

/-! ## Requests -/

/-- The steps a request has left to take, at most. -/
def requestRank : ServerPhase platform → Nat
  | .arrived => 21
  | .limited _ => 1
  | .routed _ => 20
  | .validating _ check => 8 + checkRank check.phase
  | .handling _ => 7
  | .serving inner _ => 1 + serviceRank inner.phase
  | .answered _ _ => 0

theorem checkRank_le (phase : ValidatePhase) : checkRank phase ≤ 11 := by
  cases phase <;> simp [checkRank]

theorem serviceRank_le (phase : Phase) : serviceRank phase ≤ 5 := by
  cases phase <;> simp [serviceRank]

theorem requestRank_le (phase : ServerPhase platform) : requestRank phase ≤ 21 := by
  cases phase with
  | validating target check =>
      exact (Nat.add_le_add_left (checkRank_le check.phase) 8).trans (by decide)
  | serving inner answer =>
      exact (Nat.add_le_add_left (serviceRank_le inner.phase) 1).trans (by decide)
  | _ => simp [requestRank]

section Requests

variable {call next : ServerCall platform} {choice : ServerChoice}
  {shared after : ServerShared platform}

theorem requestRank_route (call : ServerCall platform) :
    requestRank (call.route deployment).phase ≤ 20 := by
  unfold ServerCall.route
  split
  · exact Nat.le_refl 20
  · exact Nat.zero_le 20

theorem requestRank_authenticated (call : ServerCall platform) (target : Target)
    (checkKey : KeyCheck) (systemNow : Int) :
    requestRank (call.authenticated deployment target checkKey systemNow).phase ≤ 7 := by
  unfold ServerCall.authenticated
  split
  · exact Nat.zero_le 7
  · exact Nat.le_refl 7

theorem request_descends (stepped : ServerStep deployment call choice shared next after) :
    requestRank next.phase < requestRank call.phase := by
  cases stepped with
  | declaredTooLarge phaseEq | refused phaseEq | bodyTooLarge phaseEq | handled phaseEq
  | finished phaseEq =>
      simp [requestRank, ServerCall.respond, ServerCall.goTo, phaseEq]
  | uncounted phaseEq =>
      rw [phaseEq]
      exact Nat.lt_succ_of_le (requestRank_route _)
  | counted phaseEq nextEq =>
      rw [phaseEq, nextEq]
      split
      · exact Nat.lt_succ_of_le (requestRank_route _)
      · simp [requestRank, ServerCall.goTo]
  | asked phaseEq =>
      simp [requestRank, ServerCall.goTo, validation, checkRank, phaseEq]
  | decided decided =>
      refine Nat.lt_of_le_of_lt (requestRank_authenticated _ _ _ _) ?_
      cases decided with
      | unasked _ phaseEq => simp [requestRank, phaseEq]
      | checked phaseEq ended => simp [requestRank, checkRank, phaseEq, ended]
  | validated phaseEq checkStepped =>
      rw [phaseEq]
      exact Nat.add_lt_add_left (check_descends checkStepped) 8
  | invoked phaseEq =>
      rw [phaseEq]
      exact Nat.lt_succ_of_le (Nat.add_le_add_left (serviceRank_le _) 1)
  | served phaseEq innerStepped =>
      rw [phaseEq]
      exact Nat.add_lt_add_left (service_descends innerStepped) 1

/-- A request that is being served is in a phase of its operation. -/
def OnItsWay (call : ServerCall platform) : Prop :=
  ∀ inner answer, call.phase = .serving inner answer → Passes inner.request inner.phase

theorem onItsWay_route (call : ServerCall platform) : OnItsWay (call.route deployment) := by
  unfold ServerCall.route
  split <;> exact fun _ _ serving => nomatch serving

theorem onItsWay_authenticated (call : ServerCall platform) (target : Target) (checkKey : KeyCheck)
    (systemNow : Int) : OnItsWay (call.authenticated deployment target checkKey systemNow) := by
  unfold ServerCall.authenticated
  split <;> exact fun _ _ serving => nomatch serving

theorem onItsWay_step (stepped : ServerStep deployment call choice shared next after) :
    OnItsWay next := by
  cases stepped with
  | uncounted => exact onItsWay_route _
  | counted phaseEq nextEq =>
      rw [nextEq]
      split
      · exact onItsWay_route _
      · exact fun _ _ serving => nomatch serving
  | decided => exact onItsWay_authenticated _ _ _ _
  | invoked =>
      intro inner answer serving
      cases serving
      exact passes_enter _
  | served phaseEq innerStepped =>
      intro inner answer serving
      cases serving
      exact passes_step (ServiceStep.of_step innerStepped)
  | _ => exact fun _ _ serving => nomatch serving

/-- A request that has not been answered can take a step, whatever it finds. -/
theorem request_enabled (onItsWay : OnItsWay call)
    (notAnswered : ∀ response served, call.phase ≠ .answered response served) :
    (call.step deployment choice shared).isSome = true := by
  unfold ServerCall.step
  cases phaseEq : call.phase with
  | answered response served => exact (notAnswered response served phaseEq).elim
  | validating target check =>
      dsimp only
      split
      · rfl
      · rename_i notDone
        have enabled := @check_enabled check choice.keys shared.keys deployment.sha256 notDone
        split
        · rename_i stuck
          rw [stuck] at enabled
          cases enabled
        · rfl
  | serving inner answer =>
      dsimp only
      split
      · rfl
      · rename_i notDone
        have enabled := @service_enabled _ inner choice.service shared.store
          (onItsWay inner answer phaseEq) notDone
        split
        · rename_i stuck
          rw [stuck] at enabled
          cases enabled
        · rfl
  | _ =>
      dsimp only
      repeat' split
      all_goals rfl

end Requests

theorem descends_server : (server platform deployment).Descends
    (fun call => requestRank call.phase) :=
  fun _ _ _ _ _ stepped => request_descends (ServerStep.of_step stepped)

theorem wayObligations : Component.Obligations (server platform deployment)
    (fun _ _ => True) (fun _ => True) (fun _ => OnItsWay) where
  initially _ _ := trivial
  entered _ _ _ _ _ _ _ serving := by cases serving
  advanced _ _ _ _ _ _ _ _ _ stepped := ⟨trivial, onItsWay_step (ServerStep.of_step stepped)⟩
  undisturbed _ _ _ _ _ _ holds _ _ _ other bystander _ otherFound :=
    holds.calls other bystander otherFound
  happened _ _ _ holds _ _ := ⟨trivial, fun id call found => holds.calls id call found⟩

/-- Whatever fails and whatever the other requests do: a request that has not been answered can
take its next step, and after twenty-one steps it has been answered. -/
theorem answered_within {state : ServerState platform}
    (reachable : (server platform deployment).machine.Reachable (fun _ _ => True) state)
    {id : Nat} {call : ServerCall platform} (found : state.calls id = some call) :
    ((∀ response served, call.phase ≠ .answered response served) → ∀ choice, ∃ next,
      (server platform deployment).eventStep state (.advance id choice) = some next) ∧
    ∀ events last, (server platform deployment).machine.execute state events = some last →
      .stop id ∉ events → events.countP (Component.isAdvance id) ≤ 21 ∧
        (events.countP (Component.isAdvance id) = 21 → ∃ ending response served,
          last.calls id = some ending ∧ ending.phase = .answered response served) := by
  refine ⟨fun notAnswered choice => ?_, fun events last replayed notStopped => ?_⟩
  · have enabled := @request_enabled _ deployment call choice state.shared
      ((wayObligations.of_reachable reachable).calls id call found) notAnswered
    obtain ⟨⟨next, after⟩, stepped⟩ := Option.isSome_iff_exists.mp enabled
    exact ⟨_, Component.eventStep_advance found stepped⟩
  · obtain ⟨ending, endingFound, taken⟩ := descends_server.countP_le replayed found notStopped
    have atMost := requestRank_le call.phase
    refine ⟨by omega, fun all => ?_⟩
    have nothingLeft : requestRank ending.phase = 0 := by omega
    cases phaseEq : ending.phase with
    | answered response served => exact ⟨ending, response, served, endingFound, phaseEq⟩
    | _ =>
        rw [phaseEq] at nothingLeft
        simp [requestRank] at nothingLeft

/-- The request has just arrived. -/
def arrivedState : ServerState Platform.reference :=
  (server Platform.reference sampleDeployment).replay sampleShared [.start 0 deletingRequest]

/-- The steps of the deletion, from there on. -/
def deletingSteps : List ServerEvent :=
  List.replicate 13 (.advance 0 deletingChoice)

theorem answered_within_deletion :
    (∃ next, (server Platform.reference sampleDeployment).eventStep arrivedState
      (.advance 0 deletingChoice) = some next) ∧
    deletingSteps.countP (Component.isAdvance 0) ≤ 21 := by
  have reachable : (server Platform.reference sampleDeployment).machine.Reachable
      (fun _ _ => True) arrivedState :=
    Component.reachable_replay sampleShared_fresh rfl ⟨trivial, fun _ _ => trivial⟩
  have found : arrivedState.calls 0 = some
      { incoming := deletingRequest, request := deletingRequest.request, phase := .arrived } := rfl
  have possible : ((server Platform.reference sampleDeployment).machine.execute arrivedState
      deletingSteps).isSome = true := by decide +kernel
  obtain ⟨last, replayed⟩ := Option.isSome_iff_exists.mp possible
  have notStopped : .stop 0 ∉ deletingSteps := by simp [deletingSteps]
  obtain ⟨enabled, bounded⟩ := answered_within reachable found
  exact ⟨enabled (by simp) deletingChoice, (bounded deletingSteps last replayed notStopped).1⟩

end Corvus.Server
