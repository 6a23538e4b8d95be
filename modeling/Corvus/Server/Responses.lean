import Corvus.Resources.StoredRows
import Corvus.Server.Authorisation

/-!
# What is sent back

Every answer names the request it belongs to and says one thing: data with a status
below 400, or an error with the status of its code.  An answer with data comes
from the service, for a client that the credentials of the request stand for, or
from one of the two routes that need no credentials.
-/

namespace Corvus.Server

open Corvus.Api Corvus.Auth Corvus.Gateway Corvus.Resources

variable {platform : Platform} {deployment : Deployment}

/-! ## Envelopes -/

/-- The response carries the id in its envelope, and data or an error that fits its
status. -/
structure AnswersTo (requestId : String) (response : Response) : Prop where
  named : response.envelope.info.requestId = requestId
  kind : (response.envelope.error = none ∧ response.status < 400) ∨
    ∃ error, response.envelope.error = some error ∧ response.envelope.data = .null ∧
      response.status = httpStatus error.code

/-- The statuses of the two limits, on the size of a request and on the rate of a client. -/
def OverLimit (status : Nat) : Prop :=
  status = 413 ∨ status = 429

instance (status : Nat) : Decidable (OverLimit status) :=
  inferInstanceAs (Decidable (_ ∨ _))

/-- The id is in the header as well, but for answers of the limits, which have no such
header. -/
def Labelled (requestId : String) (response : Response) : Prop :=
  if OverLimit response.status then ∀ header ∈ response.headers, header.1 ≠ "X-Request-ID"
  else ("X-Request-ID", requestId) ∈ response.headers

/-- An answer of a handler, an advice or the custom error handler that is none of the
limits. -/
structure Unlimited (requestId : String) (response : Response) : Prop
    extends AnswersTo requestId response where
  notOver : ¬OverLimit response.status

section Envelopes

variable {request : HttpRequest} {response : Response}

theorem AnswersTo.addHeader {requestId : String} (answers : AnswersTo requestId response)
    (name value : String) : AnswersTo requestId (response.addHeader name value) :=
  ⟨answers.named, answers.kind⟩

theorem Unlimited.addHeader {requestId : String} (unlimited : Unlimited requestId response)
    (name value : String) : Unlimited requestId (response.addHeader name value) :=
  ⟨unlimited.toAnswersTo.addHeader name value, unlimited.notOver⟩

/-- The advice after the handlers labels what they answer. -/
theorem Unlimited.labelled {requestId : String} (unlimited : Unlimited requestId response) :
    Labelled requestId (response.addHeader "X-Request-ID" requestId) := by
  unfold Labelled
  rw [if_neg (unlimited.addHeader "X-Request-ID" requestId).notOver]
  exact List.mem_append_right _ (List.mem_singleton.mpr rfl)

/-- An answer with data. -/
theorem Unlimited.of_success {requestId : String}
    (named : response.envelope.info.requestId = requestId)
    (noError : response.envelope.error = none) (success : response.status < 400) :
    Unlimited requestId response := by
  refine ⟨⟨named, Or.inl ⟨noError, success⟩⟩, ?_⟩
  rintro (isSize | isRate) <;> omega

theorem unlimited_ok (data : Json) : Unlimited request.requestId (respondOk data request.info) :=
  .of_success rfl rfl (Nat.lt_of_sub_eq_succ rfl)

theorem unlimited_created (data : Json) :
    Unlimited request.requestId (respondCreated data request.info) :=
  .of_success rfl rfl (Nat.lt_of_sub_eq_succ rfl)

theorem unlimited_list (data : Json) (nextCursor : Option String) (hasMore : Bool) :
    Unlimited request.requestId (respondList data request.info nextCursor hasMore) :=
  .of_success rfl rfl (Nat.lt_of_sub_eq_succ rfl)

/-- An answer with an error. -/
structure Refuses (requestId : String) (response : Response) : Prop where
  answers : AnswersTo requestId response
  failed : 400 ≤ response.status

theorem Refuses.addHeader {requestId : String} (refuses : Refuses requestId response)
    (name value : String) : Refuses requestId (response.addHeader name value) :=
  ⟨refuses.answers.addHeader name value, refuses.failed⟩

theorem refuses_error (code : ErrorCode) (message : String) :
    Refuses request.requestId (respondError code message request.info) :=
  ⟨⟨rfl, Or.inr ⟨_, rfl, rfl, rfl⟩⟩, four_hundred_le_httpStatus code⟩

/-- No handler answers with the status of a limit. -/
theorem unlimited_error (code : ErrorCode) (message : String)
    (notOver : ¬OverLimit (httpStatus code) := by decide) :
    Unlimited request.requestId (respondError code message request.info) :=
  ⟨(refuses_error code message).answers, notOver⟩

end Envelopes

/-! ## Handlers -/

/-- An answer to what the service returned, which holds data only if it returned some. -/
structure RepliesTo (requestId : String) (outcome : Outcome) (response : Response) : Prop where
  answers : Unlimited requestId response
  success : response.status < 400 → ∃ reply, outcome = .ok reply

/-- A handler that answers by itself answers with an error. -/
def HandlesFor (requestId : String) : Handled → Prop
  | .respond response => Unlimited requestId response ∧ 400 ≤ response.status
  | .invoke _ answer => ∀ outcome, RepliesTo requestId outcome (answer outcome)

section Handlers

variable {request : HttpRequest} {id : String}

theorem repliesTo_error {outcome : Outcome} (code : ErrorCode) (message : String)
    (notOver : ¬OverLimit (httpStatus code) := by decide) :
    RepliesTo request.requestId outcome (respondError code message request.info) :=
  ⟨unlimited_error code message notOver,
    fun success => absurd success (four_hundred_le_httpStatus code).not_gt⟩

theorem handlesFor_error (code : ErrorCode) (message : String)
    (notOver : ¬OverLimit (httpStatus code) := by decide) :
    HandlesFor request.requestId (.respond (respondError code message request.info)) :=
  ⟨unlimited_error code message notOver, four_hundred_le_httpStatus code⟩

theorem repliesTo_ok {reply : Reply} {response : Response}
    (answers : Unlimited request.requestId response) :
    RepliesTo request.requestId (.ok reply) response :=
  ⟨answers, fun _ => ⟨reply, rfl⟩⟩

theorem handlesFor_withClient {handle : String → Handled}
    (handles : ∀ clientId, HandlesFor request.requestId (handle clientId)) :
    HandlesFor request.requestId (withClient request handle) := by
  unfold withClient
  split
  · exact handlesFor_error _ _
  · exact handles _

theorem handlesFor_withUuid {handle : Handled} (handles : HandlesFor request.requestId handle) :
    HandlesFor request.requestId (withUuid request id handle) := by
  unfold withUuid
  split
  · exact handles
  · exact handlesFor_error _ _

theorem handlesFor_withBody {handle : Json → Handled}
    (handles : ∀ body, HandlesFor request.requestId (handle body)) :
    HandlesFor request.requestId (withBody platform request handle) := by
  unfold withBody
  split
  · exact handles _
  · exact handlesFor_error _ _

/-- A resource that was returned is answered with, or cannot be converted. -/
theorem unlimited_resource {resource : Resource} {respond : Json → Response}
    (answers : ∀ data, Unlimited request.requestId (respond data)) :
    Unlimited request.requestId (respondResource platform request resource respond) := by
  unfold respondResource
  split
  · exact answers _
  · exact unlimited_error _ _

/-- A page that was returned is answered with, or cannot be converted. -/
theorem repliesTo_page (outcome : Outcome) :
    RepliesTo request.requestId outcome
      (match outcome with
        | .ok (.page result) =>
            match toJsonValues platform result.items with
            | some items => respondList items request.info result.nextCursor result.hasMore
            | none => unexpected request
        | .error (.invalidCursor _) =>
            respondError .badRequest "Query parameter 'cursor' is not valid." request.info
        | _ => unexpected request) := by
  split
  · split
    · exact repliesTo_ok (unlimited_list _ _ _)
    · exact repliesTo_error _ _
  · exact repliesTo_error _ _
  · exact repliesTo_error _ _

/-- Every handler of a resource route is one of these. -/
theorem handlesFor_route (route : ResourceRoute) :
    HandlesFor request.requestId (route.handle platform request id) := by
  cases route with
  | create =>
      refine handlesFor_withClient fun clientId => handlesFor_withBody fun body => ?_
      split
      · exact handlesFor_error _ _
      · intro outcome
        dsimp only
        split
        · exact repliesTo_ok (unlimited_resource fun data =>
            (unlimited_created data).addHeader _ _)
        · exact repliesTo_error _ _
        · exact repliesTo_error _ _
  | list =>
      simp only [ResourceRoute.handle, listResourcesHandler]
      refine handlesFor_withClient fun clientId => ?_
      split
      · exact repliesTo_page
      · split
        · exact repliesTo_page
        · exact handlesFor_error _ _
  | getOne =>
      refine handlesFor_withClient fun clientId => handlesFor_withUuid fun outcome => ?_
      dsimp only
      split
      · exact repliesTo_ok (unlimited_resource unlimited_ok)
      · exact repliesTo_error _ _
      · exact repliesTo_error _ _
  | update =>
      refine handlesFor_withClient fun clientId => handlesFor_withUuid
        (handlesFor_withBody fun body => ?_)
      split
      · exact handlesFor_error _ _
      · intro outcome
        dsimp only
        split
        · exact repliesTo_ok (unlimited_resource unlimited_ok)
        · exact repliesTo_error _ _
        · exact repliesTo_error _ _
        · exact repliesTo_error _ _
  | remove =>
      refine handlesFor_withClient fun clientId => handlesFor_withUuid fun outcome => ?_
      dsimp only
      split
      · exact repliesTo_ok (unlimited_ok _)
      · exact repliesTo_error _ _
      · exact repliesTo_error _ _

/-- What a handler asks of the service is made of the body of its request. -/
theorem parsedFrom_of_invoke {route : ResourceRoute} {invoked : Request}
    {answer : Outcome → Response}
    (invokes : route.handle platform request id = .invoke invoked answer) :
    invoked.ParsedFrom platform request.body := by
  cases route with
  | create =>
      simp only [ResourceRoute.handle, createResourceHandler] at invokes
      obtain ⟨_, invokes⟩ := invoke_of_withClient invokes
      obtain ⟨body, read, invokes⟩ := invoke_of_withBody invokes
      split at invokes
      · cases invokes
      · rename_i parsed
        cases invokes
        exact ⟨body, read, parsed⟩
  | update =>
      simp only [ResourceRoute.handle, updateResourceHandler] at invokes
      obtain ⟨_, invokes⟩ := invoke_of_withClient invokes
      obtain ⟨_, invokes⟩ := invoke_of_withUuid invokes
      obtain ⟨body, read, invokes⟩ := invoke_of_withBody invokes
      split at invokes
      · cases invokes
      · rename_i parsed
        cases invokes
        exact ⟨body, read, parsed⟩
  | list =>
      simp only [ResourceRoute.handle, listResourcesHandler] at invokes
      obtain ⟨_, invokes⟩ := invoke_of_withClient invokes
      split at invokes
      · cases invokes
        trivial
      · split at invokes
        · cases invokes
          trivial
        · cases invokes
  | getOne =>
      simp only [ResourceRoute.handle, getResourceHandler] at invokes
      obtain ⟨_, invokes⟩ := invoke_of_withClient invokes
      obtain ⟨_, invokes⟩ := invoke_of_withUuid invokes
      cases invokes
      trivial
  | remove =>
      simp only [ResourceRoute.handle, deleteResourceHandler] at invokes
      obtain ⟨_, invokes⟩ := invoke_of_withClient invokes
      obtain ⟨_, invokes⟩ := invoke_of_withUuid invokes
      cases invokes
      trivial

end Handlers

/-! ## Requests on their way -/

/-- Some request for the same path is routed to the target. -/
def RoutedTo (deployment : Deployment) (request : HttpRequest) (target : Target) : Prop :=
  ∃ asked : HttpRequest, asked.path = request.path ∧ deployment.router asked = .ok target

def IsApi (request : HttpRequest) : Prop :=
  "/v1/".toList.isPrefixOf request.path.toList = true

/-- An answer with data was made by one of the two routes that need no credentials, or by the
service, for a request under `/v1/` with a body within the limit. -/
def Deserved (deployment : Deployment) (request : HttpRequest)
    (served : Option (Request × Outcome)) : Prop :=
  RoutedTo deployment request .health ∨ RoutedTo deployment request .ready ∨
    ∃ asked reply, served = some (asked, .ok reply) ∧ IsApi request ∧
      WithinSizeLimit sizeLimit request

/-- What holds of a request at each point. -/
def PhaseAnswers (deployment : Deployment) (request : HttpRequest) :
    ServerPhase platform → Prop
  | .arrived => True
  | .limited _ => True
  | .routed target => request.clientId = "" ∧ RoutedTo deployment request target
  | .validating target _ => request.clientId = "" ∧ RoutedTo deployment request target ∧
      WithinSizeLimit sizeLimit request
  | .handling target => (request.clientId ≠ "" → IsApi request) ∧
      RoutedTo deployment request target ∧ WithinSizeLimit sizeLimit request
  | .serving inner answer => IsApi request ∧ WithinSizeLimit sizeLimit request ∧
      inner.request.ParsedFrom platform request.body ∧
      ∀ outcome, RepliesTo request.requestId outcome (answer outcome)
  | .answered response served => AnswersTo request.requestId response ∧
      Labelled request.requestId response ∧
      (response.status < 400 → Deserved deployment request served)

/-- The declared size has been checked, and the request not been refused. -/
def ServerPhase.Admitted : ServerPhase platform → Prop
  | .arrived => False
  | .answered response _ => response.status < 400
  | _ => True

/-- A request is the one that came in, with an id once it has been looked at. -/
structure OwnAnswers (deployment : Deployment) (call : ServerCall platform) : Prop where
  request : ∃ clientId requestId,
    call.request = { call.incoming.request with clientId, requestId }
  identified : call.phase ≠ .arrived → ∃ draws,
    call.request.requestId = getRequestId "" call.incoming.idHeader draws
  declared : call.phase.Admitted →
    DeclaresWithinLimit sizeLimit call.incoming.contentLength call.incoming.request
  phase : PhaseAnswers deployment call.request call.phase

section Steps

variable {call : ServerCall platform}

theorem refuses_custom (status : Nat) (request : HttpRequest) :
    Refuses request.requestId (customError status request) := by
  unfold customError
  refine Refuses.addHeader ?_ _ _
  split
  · exact refuses_error _ _
  · split <;> exact refuses_error _ _

theorem labelled_custom (status : Nat) (request : HttpRequest) :
    Labelled request.requestId (customError status request) := by
  unfold customError
  refine Unlimited.labelled ?_
  split
  · exact unlimited_error _ _
  · split <;> exact unlimited_error _ _

theorem refuses_tooLarge (request : HttpRequest) (limit : Nat) :
    Refuses request.requestId (make413 request.info limit) :=
  (refuses_error _ _).addHeader _ _

theorem labelled_tooLarge (request : HttpRequest) (limit : Nat) :
    Labelled request.requestId (make413 request.info limit) := by
  have isLimit : OverLimit (make413 request.info limit).status := Or.inl rfl
  rw [Labelled, if_pos isLimit]
  simp [make413, respondError, Response.addHeader]

theorem refuses_tooMany (request : HttpRequest) (limiter : RateLimiter) (later : ℚ)
    (key : String) :
    Refuses request.requestId (tooManyRequests limiter later key request.info) :=
  (((refuses_error _ _).addHeader _ _).addHeader _ _).addHeader _ _

theorem labelled_tooMany (request : HttpRequest) (limiter : RateLimiter) (later : ℚ)
    (key : String) :
    Labelled request.requestId (tooManyRequests limiter later key request.info) := by
  have isLimit : OverLimit (tooManyRequests limiter later key request.info).status := Or.inr rfl
  rw [Labelled, if_pos isLimit]
  simp [tooManyRequests, respondError, Response.addHeader]

theorem refuses_rejection (request : HttpRequest) (error : AuthError) :
    Refuses request.requestId (rejection request error) := by
  unfold rejection
  split
  · exact ((refuses_error _ _).addHeader _ _).addHeader _ _
  · exact (refuses_error _ _).addHeader _ _

theorem labelled_rejection (request : HttpRequest) (error : AuthError) :
    Labelled request.requestId (rejection request error) := by
  have notOver : ¬OverLimit (rejection request error).status := by
    unfold rejection
    cases error.kind <;> simp [Response.addHeader, respondError, toErrorCode] <;> decide
  rw [Labelled, if_neg notOver]
  unfold rejection
  split <;> simp [Response.addHeader]

theorem unlimited_readiness (postgresUp redisUp : Bool) (request : HttpRequest) :
    Unlimited request.requestId (readinessHandler postgresUp redisUp request) := by
  unfold readinessHandler
  refine Unlimited.addHeader ?_ _ _
  split
  · exact unlimited_ok _
  · exact unlimited_error _ _

/-- A request that is refused has been answered as it has to be. -/
theorem OwnAnswers.refuse {response : Response} (same : ∃ clientId requestId,
      call.request = { call.incoming.request with clientId, requestId })
    (known : ∃ draws, call.request.requestId = getRequestId "" call.incoming.idHeader draws)
    (refuses : Refuses call.request.requestId response)
    (labelled : Labelled call.request.requestId response) :
    OwnAnswers deployment (call.respond response) where
  request := same
  identified _ := known
  declared admitted := absurd admitted refuses.failed.not_gt
  phase := ⟨refuses.answers, labelled, fun success => absurd success refuses.failed.not_gt⟩

/-- Routing puts a request on the way to a handler, or answers it. -/
theorem OwnAnswers.route (same : ∃ clientId requestId,
      call.request = { call.incoming.request with clientId, requestId })
    (known : ∃ draws, call.request.requestId = getRequestId "" call.incoming.idHeader draws)
    (declared : DeclaresWithinLimit sizeLimit call.incoming.contentLength call.incoming.request)
    (unnamed : call.request.clientId = "") : OwnAnswers deployment (call.route deployment) := by
  unfold ServerCall.route
  split
  · rename_i target routed
    exact ⟨same, fun _ => known, fun _ => declared, unnamed, call.request, rfl, routed⟩
  · exact OwnAnswers.refuse same known (refuses_custom _ _) (labelled_custom _ _)

/-- The authentication answers with an error, or lets a request through; it gets a client only
under `/v1/`. -/
theorem OwnAnswers.authenticated {target : Target} {checkKey : KeyCheck} {systemNow : Int}
    (same : ∃ clientId requestId,
      call.request = { call.incoming.request with clientId, requestId })
    (known : ∃ draws, call.request.requestId = getRequestId "" call.incoming.idHeader draws)
    (declared : DeclaresWithinLimit sizeLimit call.incoming.contentLength call.incoming.request)
    (unnamed : call.request.clientId = "") (routed : RoutedTo deployment call.request target)
    (fits : WithinSizeLimit sizeLimit call.request) :
    OwnAnswers deployment (call.authenticated deployment target checkKey systemNow) := by
  unfold ServerCall.authenticated authAdvice
  split
  · rename_i response advice
    split at advice
    · split at advice
      · cases advice
        exact OwnAnswers.refuse same known (refuses_rejection _ _) (labelled_rejection _ _)
      · cases advice
    · cases advice
  · rename_i passed advice
    obtain ⟨clientId, requestId, sameEq⟩ := same
    split at advice
    · rename_i isApi
      split at advice
      · cases advice
      · rename_i principal admitted
        cases advice
        refine ⟨⟨principal.clientId, requestId, ?_⟩, fun _ => known, fun _ => declared,
          fun _ => isApi, routed, fits⟩
        simp only [sameEq]
    · cases advice
      exact ⟨⟨clientId, requestId, sameEq⟩, fun _ => known, fun _ => declared,
        fun named => absurd unnamed named, routed, fits⟩

end Steps

theorem answeringObligations : Component.Obligations (server platform deployment)
    (fun _ _ => True) (fun _ => True) (fun _ => OwnAnswers deployment) where
  initially _ _ := trivial
  entered _ _ incoming _ _ :=
    ⟨⟨incoming.request.clientId, incoming.request.requestId, rfl⟩, fun moved => absurd rfl moved,
      fun admitted => admitted.elim, trivial⟩
  advanced state id choice call next after holds _ found stepped := by
    refine ⟨trivial, ?_⟩
    obtain ⟨same, known, declared, own⟩ := holds.calls id call found
    cases ServerStep.of_step stepped with
    | declaredTooLarge phaseEq refused =>
        rw [status_of_declaredSizeAdvice refused]
        exact OwnAnswers.refuse ⟨"", _, rfl⟩ ⟨choice.draws, rfl⟩ (refuses_tooLarge _ _)
          (labelled_tooLarge _ _)
    | uncounted phaseEq fits =>
        have passed := declaresWithinLimit_of_next fits
        exact OwnAnswers.route ⟨"", _, rfl⟩ ⟨choice.draws, rfl⟩ passed rfl
    | counted phaseEq nextEq fits =>
        have passed := declaresWithinLimit_of_next fits
        rw [nextEq]
        split
        · exact OwnAnswers.route ⟨"", _, rfl⟩ ⟨choice.draws, rfl⟩ passed rfl
        · exact ⟨⟨"", _, rfl⟩, fun _ => ⟨choice.draws, rfl⟩, fun _ => passed, trivial⟩
    | refused phaseEq =>
        exact OwnAnswers.refuse same (known (by simp [phaseEq])) (refuses_tooMany _ _ _ _)
          (labelled_tooMany _ _ _ _)
    | bodyTooLarge phaseEq refused =>
        rw [status_of_bodySizeAdvice refused]
        exact OwnAnswers.refuse same (known (by simp [phaseEq])) (refuses_tooLarge _ _)
          (labelled_tooLarge _ _)
    | asked phaseEq fits =>
        rw [phaseEq] at own declared
        exact ⟨same, fun _ => known (by simp [phaseEq]), declared, own.1, own.2,
          withinSizeLimit_of_next fits⟩
    | decided decided fits =>
        cases decided with
        | unasked _ phaseEq =>
            rw [phaseEq] at own declared
            exact OwnAnswers.authenticated same (known (by simp [phaseEq])) (declared trivial)
              own.1 own.2 (withinSizeLimit_of_next (fits phaseEq))
        | checked phaseEq =>
            rw [phaseEq] at own declared
            exact OwnAnswers.authenticated same (known (by simp [phaseEq])) (declared trivial)
              own.1 own.2.1 own.2.2
    | validated phaseEq =>
        rw [phaseEq] at own declared
        exact ⟨same, fun _ => known (by simp [phaseEq]), declared, own⟩
    | @handled target response phaseEq ofHandler =>
        rw [phaseEq] at own declared
        have isKnown := known (by simp [phaseEq])
        rcases ofHandler with ⟨route, routeId, _, responds⟩ | ⟨rfl, rfl⟩ | ⟨rfl, rfl⟩ | rfl
        · have handles := @handlesFor_route platform call.request routeId route
          rw [responds] at handles
          exact OwnAnswers.refuse same isKnown
            ⟨handles.1.toAnswersTo.addHeader _ _, handles.2⟩ handles.1.labelled
        · have answer := @unlimited_ok call.request (.object [("path", .string call.request.path),
            ("status", .string "ok"), ("version", .string "0.1.0")])
          exact ⟨same, fun _ => isKnown, fun _ => declared trivial,
            answer.toAnswersTo.addHeader _ _, answer.labelled, fun _ => Or.inl own.2.1⟩
        · have answer := unlimited_readiness choice.postgresUp choice.redisUp call.request
          exact ⟨same, fun _ => isKnown, fun _ => declared trivial,
            answer.toAnswersTo.addHeader _ _, answer.labelled, fun _ => Or.inr (Or.inl own.2.1)⟩
        · exact OwnAnswers.refuse same isKnown ((refuses_error _ _).addHeader _ _)
            (unlimited_error _ _).labelled
    | @invoked route routeId request answer phaseEq invokes =>
        rw [phaseEq] at own declared
        refine ⟨same, fun _ => known (by simp [phaseEq]), declared,
          own.1 (route.of_invoke invokes).1, own.2.2, parsedFrom_of_invoke invokes, ?_⟩
        have handles := @handlesFor_route platform call.request routeId route
        rwa [invokes] at handles
    | served phaseEq innerStepped =>
        rw [phaseEq] at own declared
        obtain ⟨isApi, fits, parsed, replies⟩ := own
        rw [← (ServiceStep.of_step innerStepped).keeps.1] at parsed
        exact ⟨same, fun _ => known (by simp [phaseEq]), declared, isApi, fits, parsed, replies⟩
    | @finished inner answer outcome phaseEq ended =>
        rw [phaseEq] at own declared
        obtain ⟨isApi, fits, _, replies⟩ := own
        refine ⟨same, fun _ => known (by simp [phaseEq]), fun _ => declared trivial,
          (replies outcome).answers.toAnswersTo.addHeader _ _, (replies outcome).answers.labelled,
          fun success => ?_⟩
        obtain ⟨reply, isReply⟩ := (replies outcome).success success
        exact Or.inr (Or.inr ⟨inner.request, reply, by rw [isReply], isApi, fits⟩)
  undisturbed _ _ _ _ _ _ holds _ _ _ other bystander _ otherFound :=
    holds.calls other bystander otherFound
  happened _ _ _ holds _ _ := ⟨trivial, fun id call found => holds.calls id call found⟩

/-- Every answer carries the id of its request, which is the one its client sent or a new
one and is never assigned again, and is data with a status below 400 or an error with the
status of its code. -/
theorem answers_identified {state : ServerState platform}
    (reachable : (server platform deployment).machine.Reachable (fun _ _ => True) state)
    {id : Nat} {call : ServerCall platform} {response : Response}
    {served : Option (Request × Outcome)} (found : state.calls id = some call)
    (answered : call.phase = .answered response served) :
    ∃ draws, call.request.requestId = getRequestId "" call.incoming.idHeader draws ∧
      (∀ later, getRequestId call.request.requestId call.incoming.idHeader later =
        call.request.requestId) ∧
      AnswersTo call.request.requestId response ∧ Labelled call.request.requestId response := by
  obtain ⟨_, known, _, own⟩ := (answeringObligations.of_reachable reachable).calls id call found
  obtain ⟨draws, isId⟩ := known (by simp [answered])
  rw [answered] at own
  refine ⟨draws, isId, fun later => ?_, own.1, own.2.1⟩
  rw [isId, getRequestId_kept]

theorem answers_identified_deletion :
    ∃ call response draws, deletingState.calls 0 = some call ∧
      call.request.requestId = getRequestId "" call.incoming.idHeader draws ∧
      (∀ later, getRequestId call.request.requestId call.incoming.idHeader later =
        call.request.requestId) ∧
      AnswersTo call.request.requestId response ∧
      ("X-Request-ID", call.request.requestId) ∈ response.headers := by
  obtain ⟨call, response, found, answered, isOk⟩ := deletingState_answered
  obtain ⟨draws, isId, kept, answers, labelled⟩ := answers_identified
    (deletingState_reachable.mono fun _ _ _ => trivial) found answered
  have notOver : ¬OverLimit response.status := by
    rw [isOk]
    decide
  rw [Labelled, if_neg notOver] at labelled
  exact ⟨call, response, draws, found, isId, kept, answers, labelled⟩

/-- The routes that need no credentials are for their own paths. -/
def Deployment.RespectsPaths (deployment : Deployment) : Prop :=
  ∀ request, (deployment.router request = .ok .health → request.path = "/health") ∧
    (deployment.router request = .ok .ready → request.path = "/ready")

theorem Deployment.RespectsPaths.health (respects : deployment.RespectsPaths)
    {request : HttpRequest} (routed : RoutedTo deployment request .health) :
    request.path = "/health" := by
  obtain ⟨asked, samePath, isHealth⟩ := routed
  rw [← samePath]
  exact (respects asked).1 isHealth

theorem Deployment.RespectsPaths.ready (respects : deployment.RespectsPaths)
    {request : HttpRequest} (routed : RoutedTo deployment request .ready) :
    request.path = "/ready" := by
  obtain ⟨asked, samePath, isReady⟩ := routed
  rw [← samePath]
  exact (respects asked).2 isReady

/-- An answer below 400 is a health report, or what the service returned for a request under
`/v1/` whose body and declared size are within the limit, and every credential of the request
backs it. -/
theorem success_backed (methods : deployment.RespectsMethods) (paths : deployment.RespectsPaths)
    {state : ServerState platform}
    (reachable : (server platform deployment).machine.Reachable Trusted state) {id : Nat}
    {call : ServerCall platform} {response : Response} {served : Option (Request × Outcome)}
    (found : state.calls id = some call) (answered : call.phase = .answered response served)
    (success : response.status < 400) :
    call.incoming.request.path = "/health" ∨ call.incoming.request.path = "/ready" ∨
      ∃ request reply, served = some (request, .ok reply) ∧ IsApi call.incoming.request ∧
        WithinSizeLimit sizeLimit call.incoming.request ∧
        DeclaresWithinLimit sizeLimit call.incoming.contentLength call.incoming.request ∧
        Backed deployment state.shared.lookups (credentials call.incoming.request)
          request.clientId request.scope := by
  obtain ⟨⟨clientId, requestId, sameEq⟩, _, declared, own⟩ :=
    (answeringObligations.of_reachable (reachable.mono fun _ _ _ => trivial)).calls id call found
  rw [answered] at own declared
  have samePath : call.request.path = call.incoming.request.path := by rw [sameEq]
  rcases own.2.2 success with isHealth | isReady | ⟨request, reply, rfl, isApi, fits⟩
  · exact Or.inl (samePath ▸ paths.health isHealth)
  · exact Or.inr (Or.inl (samePath ▸ paths.ready isReady))
  · obtain ⟨sameCredentials, backed⟩ := backed_of_reachable methods reachable found
    rw [answered] at backed
    refine Or.inr (Or.inr ⟨request, reply, rfl, ?_, ?_, declared success,
      sameCredentials ▸ backed⟩)
    · rwa [IsApi, samePath] at isApi
    · rwa [sameEq] at fits

theorem sampleDeployment_respectsPaths : sampleDeployment.RespectsPaths := by
  intro request
  simp only [sampleDeployment]
  split <;> simp

theorem success_backed_deletion :
    ∃ call, deletingState.calls 0 = some call ∧
      (call.incoming.request.path = "/health" ∨ call.incoming.request.path = "/ready" ∨
        ∃ (request : Request) (reply : Reply),
          some (Request.remove sampleClientText sampleIdText,
            (Except.ok Reply.removed : Outcome)) = some (request, .ok reply) ∧
          IsApi call.incoming.request ∧
          WithinSizeLimit sizeLimit call.incoming.request ∧
          DeclaresWithinLimit sizeLimit call.incoming.contentLength call.incoming.request ∧
          Backed sampleDeployment deletingState.shared.lookups
            (credentials call.incoming.request) request.clientId request.scope) := by
  obtain ⟨call, response, found, answered, isOk⟩ := deletingState_answered
  have success : response.status < 400 := by
    rw [isOk]
    decide
  exact ⟨call, found, success_backed sampleDeployment_respectsMethods
    sampleDeployment_respectsPaths deletingState_reachable found answered success⟩

end Corvus.Server
