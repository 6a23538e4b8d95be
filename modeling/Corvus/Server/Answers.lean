import Corvus.Api.Envelope
import Corvus.Resources.Outcomes
import Corvus.Server.Parts

/-!
# Answers of the service on the wire

A request that the service was called for is answered by what became of the call: the
outcome alone decides the status, the error and the data, whichever handler answers.
A client that reads the body finds all of it.
-/

namespace Corvus.Server

open Corvus.Api Corvus.Resources

variable {platform : Platform} {deployment : Deployment}

/-- What holds of a request from its call of the service on. -/
def PhaseConveys (request : HttpRequest) : ServerPhase platform → Prop
  | .serving inner answer => inner.phase.Suits inner.request ∧
      ∀ outcome, inner.request.EndsWith outcome →
        answer outcome = respondOutcome platform request inner.request outcome
  | .answered response served => ∀ asked outcome, served = some (asked, outcome) →
      asked.EndsWith outcome ∧
        response = postHandling request (respondOutcome platform request asked outcome)
  | _ => True

theorem phaseConveys_of_unserved {request : HttpRequest} {response : Response} :
    @PhaseConveys platform request (.answered response none) :=
  fun _ _ served => nomatch served

theorem phaseConveys_route (call : ServerCall platform) :
    PhaseConveys (call.route deployment).request (call.route deployment).phase := by
  unfold ServerCall.route
  split
  · trivial
  · exact phaseConveys_of_unserved

theorem phaseConveys_authenticated (call : ServerCall platform) (target : Target)
    (checkKey : Auth.KeyCheck) (systemNow : Int) :
    PhaseConveys (call.authenticated deployment target checkKey systemNow).request
      (call.authenticated deployment target checkKey systemNow).phase := by
  unfold ServerCall.authenticated
  split
  · exact phaseConveys_of_unserved
  · trivial

theorem conveyingObligations : Component.Obligations (server platform deployment)
    (fun _ _ => True) (fun _ => True) (fun _ call => PhaseConveys call.request call.phase) where
  initially _ _ := trivial
  entered _ _ _ _ _ := trivial
  advanced state id choice call next after holds _ found stepped := by
    refine ⟨trivial, ?_⟩
    have own := holds.calls id call found
    cases ServerStep.of_step stepped with
    | declaredTooLarge | refused | bodyTooLarge | handled => exact phaseConveys_of_unserved
    | uncounted => exact phaseConveys_route _
    | counted phaseEq nextEq =>
        rw [nextEq]
        split
        · exact phaseConveys_route _
        · trivial
    | asked | validated => trivial
    | decided => exact phaseConveys_authenticated _ _ _ _
    | @invoked route routeId asked answer phaseEq invokes =>
        exact ⟨suits_firstPhase asked, fun outcome ends => respondOutcome_of_invoke invokes ends⟩
    | @served inner moved answer store phaseEq innerStepped =>
        rw [phaseEq] at own
        have suits := suits_step own.1 innerStepped
        obtain ⟨sameRequest, _⟩ := (ServiceStep.of_step innerStepped).keeps
        refine ⟨?_, ?_⟩
        · rw [sameRequest]
          exact suits
        · rw [sameRequest]
          exact own.2
    | @finished inner answer outcome phaseEq ended =>
        rw [phaseEq] at own
        obtain ⟨suits, answers⟩ := own
        rw [ended] at suits
        intro asked result served
        cases served
        exact ⟨suits, congrArg (postHandling call.request) (answers _ suits)⟩
  undisturbed _ _ _ _ _ _ holds _ _ _ other bystander _ otherFound :=
    holds.calls other bystander otherFound
  happened _ _ _ holds _ _ := ⟨trivial, fun id call found => holds.calls id call found⟩

/-- However requests interleave: a request that the service was called for is answered
with the one response to the outcome of that call, which is of a kind the operation
has, and a client that reads its body back reads the envelope of that response. -/
theorem answers_conveyed {state : ServerState platform}
    (reachable : (server platform deployment).machine.Reachable (fun _ _ => True) state)
    {id : Nat} {call : ServerCall platform} {response : Response} {asked : Request}
    {outcome : Outcome} (found : state.calls id = some call)
    (answered : call.phase = .answered response (some (asked, outcome)))
    {write : Json → String} {read : String → Option Json}
    (readsBack : read (write response.envelope.toJson) = some response.envelope.toJson) :
    asked.EndsWith outcome ∧
      response = postHandling call.request (respondOutcome platform call.request asked outcome) ∧
      (read (write response.envelope.toJson)).bind Envelope.ofJson? =
        some (respondOutcome platform call.request asked outcome).envelope := by
  have own := (conveyingObligations.of_reachable reachable).calls id call found
  rw [answered] at own
  obtain ⟨ends, same⟩ := own asked outcome rfl
  refine ⟨ends, same, ?_⟩
  rw [readsBack, Option.bind_some, Envelope.ofJson?_toJson, same]
  rfl

/-- The client reads the envelope of a deletion. -/
theorem answers_conveyed_deletion :
    ∃ (call : ServerCall Platform.reference) (response : Response),
      deletingState.calls 0 = some call ∧
      (Json.read (Json.print [] response.envelope.toJson)).bind Envelope.ofJson? =
        some (respondOk .null call.request.info).envelope := by
  obtain ⟨call, response, found, answered, _⟩ := deletingState_answered
  have conveyed := answers_conveyed (deletingState_reachable.mono fun _ _ _ => trivial) found
    answered (Platform.read_dump _)
  exact ⟨call, response, found, conveyed.2.2⟩

end Corvus.Server
