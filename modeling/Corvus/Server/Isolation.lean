import Corvus.Resources.Versions
import Corvus.Server.Responses

/-!
# What a served request gets

The calls of the resource service in the server are runs of the service alone: the
handlers pass on the client ids of credentials, ids that passed `is_uuid` and bodies that
were parsed only, as the service needs it.  So an answer holds resources of the client that the
credentials of the request stand for, and rows change through requests whose
credentials stand for their client and grant the scope `write`.
-/

namespace Corvus.Server

open Corvus.Auth Corvus.Db Corvus.Resources

variable {platform : Platform} {deployment : Deployment}

/-! ## Client ids hold no NUL -/

/-- Every record a lookup returned holds no NUL. -/
theorem nulFree_of_logged {sha256 : String → List UInt8} {state : ValidationState}
    (reachable : (validation sha256).machine.Reachable TrustedWrites state) {hash : String}
    {record : ApiKeyRecord} (logged : LoggedRecord state.shared.lookups hash record) :
    record.NulFree := by
  have obligations : Component.Obligations (validation sha256) TrustedWrites
      (fun service => ∀ hash record, LoggedRecord service.lookups hash record → record.NulFree)
      (fun _ _ => True) :=
    { initially := by
        rintro service rfl hash record logged
        cases logged
      entered := fun _ _ _ _ _ => trivial
      advanced := by
        intro state id answer call next after holds trusted _ stepped
        refine ⟨fun hash record logged => ?_, trivial⟩
        rcases ValidateCall.step_lookups stepped with ⟨_, same⟩ | ⟨_, appended⟩
        · rw [same] at logged
          exact holds.shared hash record logged
        · rw [LoggedRecord, appended, List.mem_append, List.mem_singleton, Prod.mk.injEq] at logged
          rcases logged with before | ⟨_, found⟩
          · exact holds.shared hash record before
          · exact trusted record found.symm
      undisturbed := fun _ _ _ _ _ _ _ _ _ _ _ _ _ _ => trivial
      happened := by
        intro state happening after holds _ happened
        cases happened
        exact ⟨holds.shared, fun _ _ _ => trivial⟩ }
  exact (obligations.of_reachable reachable).shared hash record logged

/-- The client a verified token names is a text without NUL. -/
def Deployment.TokensNameText (deployment : Deployment) : Prop :=
  ∀ systemNow decoded clientId,
    deployment.tokens.verify deployment.publicKeyPem systemNow decoded = .ok () →
    deployment.tokens.payloadClaim decoded "client_id" = some (.ok clientId) → NulFree clientId

/-- The client that credentials stand for is a text without NUL. -/
theorem nulFree_of_backed (text : deployment.TokensNameText) {state : ServerState platform}
    (reachable : (server platform deployment).machine.Reachable Trusted state)
    {creds : Credentials} {clientId scope : String}
    (backed : Backed deployment state.shared.lookups creds clientId scope) :
    NulFree clientId := by
  rcases backed.presented with hasKey | hasHeader
  · obtain ⟨record, logged, rfl, _⟩ := backed.byKey hasKey
    have seen := hosts_validation.refines.reachable reachable
    exact (nulFree_of_logged seen logged).1
  · obtain ⟨_, decoded, systemNow, _, _, _, _, verified, named, _⟩ := backed.byToken hasHeader
    exact text systemNow decoded clientId verified named

/-- What a handler asks of the service is admissible. -/
theorem admissible_of_invoke {request : HttpRequest} {id : String} {invoked : Request}
    {answer : Outcome → Api.Response} {route : ResourceRoute}
    (invokes : route.handle platform request id = .invoke invoked answer)
    (nulFree : NulFree request.clientId) : invoked.Admissible := by
  cases route with
  | create =>
      simp only [ResourceRoute.handle, createResourceHandler] at invokes
      obtain ⟨_, invokes⟩ := invoke_of_withClient invokes
      obtain ⟨body, _, invokes⟩ := invoke_of_withBody invokes
      split at invokes
      · cases invokes
      · cases invokes
        exact nulFree
  | list =>
      simp only [ResourceRoute.handle, listResourcesHandler] at invokes
      obtain ⟨_, invokes⟩ := invoke_of_withClient invokes
      split at invokes
      · cases invokes
        exact nulFree
      · split at invokes
        · cases invokes
          exact nulFree
        · cases invokes
  | getOne =>
      simp only [ResourceRoute.handle, getResourceHandler] at invokes
      obtain ⟨_, invokes⟩ := invoke_of_withClient invokes
      obtain ⟨accepted, invokes⟩ := invoke_of_withUuid invokes
      cases invokes
      exact ⟨nulFree, accepted⟩
  | update =>
      simp only [ResourceRoute.handle, updateResourceHandler] at invokes
      obtain ⟨_, invokes⟩ := invoke_of_withClient invokes
      obtain ⟨accepted, invokes⟩ := invoke_of_withUuid invokes
      obtain ⟨body, _, invokes⟩ := invoke_of_withBody invokes
      split at invokes
      · cases invokes
      · cases invokes
        exact ⟨nulFree, accepted⟩
  | remove =>
      simp only [ResourceRoute.handle, deleteResourceHandler] at invokes
      obtain ⟨_, invokes⟩ := invoke_of_withClient invokes
      obtain ⟨accepted, invokes⟩ := invoke_of_withUuid invokes
      cases invokes
      exact ⟨nulFree, accepted⟩

/-! ## The resource service -/

/-- The call of the service a request is in. -/
def pickService (call : ServerCall platform) : Option (Resources.Call platform) :=
  match call.phase with
  | .serving inner _ => some inner
  | _ => none

/-- The resource service in the server. -/
def serviceView : ServerState platform → ServiceState platform :=
  Component.view (fun shared => cachedOf shared.store) pickService

section Pick

variable {call : ServerCall platform}

@[simp] theorem pickService_route : pickService (call.route deployment) = none := by
  unfold ServerCall.route
  split <;> rfl

@[simp] theorem pickService_authenticated (target : Target) (checkKey : KeyCheck)
    (systemNow : Int) :
    pickService (call.authenticated deployment target checkKey systemNow) = none := by
  unfold ServerCall.authenticated
  split <;> rfl

theorem pickService_of_phase {phase : ServerPhase platform} (phaseEq : call.phase = phase)
    (notServing : ∀ inner answer, phase ≠ .serving inner answer) :
    pickService call = none := by
  unfold pickService
  split
  · rename_i inner answer serving
    exact (notServing inner answer (phaseEq.symm.trans serving)).elim
  · rfl

theorem Decided.pickService {target : Target} {checkKey : KeyCheck}
    (decided : Decided call target checkKey) : pickService call = none := by
  cases decided with
  | unasked _ phaseEq => exact pickService_of_phase phaseEq (by simp)
  | checked phaseEq => exact pickService_of_phase phaseEq (by simp)

end Pick

theorem store_spared {shared : ServerShared platform} {keys : KeyService}
    (spared : keys.redis.within cacheSpace = shared.redis.within cacheSpace) :
    cachedOf (shared.withKeys keys).store = cachedOf shared.store := by
  simp only [cachedOf, ServerShared.store, ServerShared.withKeys, spared]

/-- What handlers ask of the service: it is admissible, and made of a body that was parsed. -/
def HandlerEvent (state : ServiceState platform) (event : ServiceEvent) : Prop :=
  AdmissibleEvent state event ∧ Starting (Request.Parsed platform) state event

theorem handlerEvent_stop (state : ServiceState platform) (id : Nat) :
    HandlerEvent state (.stop id) :=
  ⟨trivial, fun _ _ isStart => by cases isStart⟩

theorem hostsAt_service (respects : deployment.RespectsMethods)
    (text : deployment.TokensNameText) {state : ServerState platform}
    (reachable : (server platform deployment).machine.Reachable Trusted state) :
    Component.HostsAt (server platform deployment) Trusted (resourceService platform)
      HandlerEvent (fun shared => cachedOf shared.store) pickService state where
  entered _ _ _ := .unchanged rfl rfl
  advanced id choice call next after trusted found stepped := by
    cases ServerStep.of_step stepped with
    | declaredTooLarge phaseEq | refused phaseEq | bodyTooLarge phaseEq
    | handled phaseEq | asked phaseEq =>
        exact .unchanged (pickService_of_phase phaseEq (by simp)).symm rfl
    | uncounted phaseEq =>
        rw [pickService_route, pickService_of_phase phaseEq (by simp)]
        exact .unchanged rfl rfl
    | counted phaseEq nextEq =>
        have notYet : pickService next = none := by
          rw [nextEq]
          split
          · exact pickService_route
          · rfl
        rw [notYet, pickService_of_phase phaseEq (by simp)]
        exact .unchanged rfl rfl
    | decided decided =>
        rw [pickService_authenticated, decided.pickService]
        exact .unchanged rfl rfl
    | validated phaseEq checkStepped =>
        have spared := validate_step_spares checkStepped
        exact .unchanged (pickService_of_phase phaseEq (by simp)).symm (store_spared spared)
    | @invoked route routeId request answer phaseEq invokes =>
        rw [pickService_of_phase phaseEq (by simp)]
        refine .begins ?_
        have own := (backed_of_reachable respects reachable found).2
        rw [phaseEq] at own
        have named := (route.of_invoke invokes).1
        refine ⟨admissible_of_invoke invokes (nulFree_of_backed text reachable (own.2 named)), ?_⟩
        rintro starting started ⟨⟩
        exact (parsedFrom_of_invoke invokes).parsed
    | @served inner moved answer store phaseEq innerStepped =>
        have picked : pickService call = some inner := by simp only [pickService, phaseEq]
        rw [picked]
        have within : (resourceService platform).step inner choice.service
            (cachedOf state.shared.store) = some (moved, cachedOf store) := by
          have seen := @service_step_within platform state.shared.store inner choice.service
          rwa [innerStepped] at seen
        exact .moves ⟨trivial, fun _ _ isStart => by cases isStart⟩ within
    | finished phaseEq =>
        simp only [pickService, phaseEq]
        exact .ends _
  stopped := handlerEvent_stop
  happened happening after trusted happened := by
    have allowed : ∀ seen, HandlerEvent (serviceView state) (.happen seen) :=
      fun seen => ⟨trivial, fun _ _ isStart => by cases isStart⟩
    cases happened
    cases happening with
    | tick span => exact Or.inr ⟨.tick span, allowed _, rfl⟩
    | write key entry =>
        left
        simp only [RedisHappening.apply, cachedOf, ServerShared.store,
          ExpiringStore.within_put_of_not _ _ trusted.1]
    | remove key =>
        refine Or.inr ⟨.evict key, allowed _, ?_⟩
        simp only [resourceService, CacheHappening.apply, RedisHappening.apply, cachedOf,
          ServerShared.store, ExpiringStore.within_erase]

theorem hosts_service (respects : deployment.RespectsMethods) (text : deployment.TokensNameText) :
    Component.Hosts (server platform deployment) Trusted (resourceService platform)
      HandlerEvent (fun shared => cachedOf shared.store) pickService where
  initially shared fresh := by
    obtain ⟨_, _, keysEq, commitsEq, returnedEq⟩ := fresh
    have emptyRedis : shared.redis = .empty := congrArg KeyService.redis keysEq
    exact ⟨by simp only [cachedOf, ServerShared.store, emptyRedis, ExpiringStore.within_empty],
      commitsEq, returnedEq⟩
  hostsAt _ reachable := hostsAt_service respects text reachable

/-- What a handler asks of the service is for the client the credentials of its request stand
for, with the scope they grant, and made of its body. -/
structure AskedFor (deployment : Deployment) (shared : ServerShared platform)
    (incoming : HttpRequest) (request : Request) : Prop where
  backed : Backed deployment shared.lookups (credentials incoming) request.clientId
    request.scope
  parsedFrom : request.ParsedFrom platform incoming.body

theorem askedFor_of_serving (respects : deployment.RespectsMethods)
    {state : ServerState platform}
    (reachable : (server platform deployment).machine.Reachable Trusted state) {id : Nat}
    {call : ServerCall platform} {inner : Resources.Call platform}
    {answer : Outcome → Api.Response} (found : state.calls id = some call)
    (serving : call.phase = .serving inner answer) :
    AskedFor deployment state.shared call.incoming.request inner.request := by
  obtain ⟨same, backed⟩ := backed_of_reachable respects reachable found
  obtain ⟨⟨clientId, requestId, sameEq⟩, _, _, own⟩ :=
    (answeringObligations.of_reachable (reachable.mono fun _ _ _ => trivial)).calls id call found
  rw [serving] at backed own
  have sameBody : call.request.body = call.incoming.request.body := by rw [sameEq]
  exact ⟨same ▸ backed, sameBody ▸ own.2.2.1⟩

/-- Whatever else the server does, its calls of the resource service are runs of the
service alone, and what it asks of it is what a request with such credentials and such a
body asks for. -/
theorem server_refines_service (respects : deployment.RespectsMethods)
    (text : deployment.TokensNameText) :
    (server platform deployment).machine.Refines Trusted (resourceService platform).machine
      HandlerEvent serviceView ∧
    ∀ state, (server platform deployment).machine.Reachable Trusted state →
      ∀ id call inner answer, state.calls id = some call →
        call.phase = .serving inner answer →
        AskedFor deployment state.shared call.incoming.request inner.request :=
  ⟨(hosts_service respects text).refines, fun _ reachable _ _ _ _ found serving =>
    askedFor_of_serving respects reachable found serving⟩

theorem sampleDeployment_tokensNameText : sampleDeployment.TokensNameText :=
  fun _ token => nomatch token

/-- The service has been called for the deletion. -/
def calledState : ServerState Platform.reference :=
  (server Platform.reference sampleDeployment).replay sampleShared (deleting.take 11)

/-- What the service is asked for a request. -/
def ServerCall.asked (call : ServerCall platform) : Option (String × String) :=
  match call.phase with
  | .serving inner _ => some (inner.request.clientId, inner.request.scope)
  | _ => none

theorem server_refines_service_deletion :
    (resourceService Platform.reference).machine.Reachable HandlerEvent
      (serviceView deletingState) ∧
    ∃ call, calledState.calls 0 = some call ∧ Backed sampleDeployment
      calledState.shared.lookups (credentials call.incoming.request) sampleClientText "write" := by
  have refines := @server_refines_service Platform.reference _ sampleDeployment_respectsMethods
    sampleDeployment_tokensNameText
  refine ⟨refines.1.reachable deletingState_reachable, ?_⟩
  have reachable : (server Platform.reference sampleDeployment).machine.Reachable Trusted
      calledState := reachable_of_checked sampleShared_fresh (by decide +kernel) (by decide)
  have asked : (calledState.calls 0).bind ServerCall.asked =
      some (sampleClientText, "write") := by decide +kernel
  obtain ⟨call, found, isAsked⟩ := Option.bind_eq_some_iff.mp asked
  unfold ServerCall.asked at isAsked
  split at isAsked
  · rename_i inner answer serving
    obtain ⟨clientEq, scopeEq⟩ := Prod.mk.inj (Option.some.inj isAsked)
    have askedFor := refines.2 calledState reachable 0 call inner answer found serving
    rw [← clientEq, ← scopeEq]
    exact ⟨call, found, askedFor.backed⟩
  · cases isAsked

/-- So the server is a table whose calls take effect at one moment each, but for reads of
single resources, which may show an earlier version. -/
theorem server_refines_versions (roundTrips : platform.RoundTrips)
    (respects : deployment.RespectsMethods)
    (text : deployment.TokensNameText) :
    (server platform deployment).machine.Refines Trusted (versionedTable platform).machine
      (fun _ _ => True) (versionsView ∘ serviceView) :=
  ((hosts_service respects text).refines.weaken fun _ _ asked => asked.1).trans
    (hosts_versions roundTrips).refines

/-! ## Answers -/

/-- What a row was, it stays known to have been. -/
theorem ServerStep.held {call next : ServerCall platform} {choice : ServerChoice}
    {shared after : ServerShared platform}
    (stepped : ServerStep deployment call choice shared next after) {row : Row platform}
    (held : shared.store.Held row) : after.store.Held row := by
  cases stepped with
  | served _ innerStepped => exact (ServiceStep.of_step innerStepped).held held
  | _ => exact held

/-- What the service was asked and returned, once a request is answered by it. -/
def ServerCall.served (call : ServerCall platform) : Option (Request × Outcome) :=
  match call.phase with
  | .answered _ served => served
  | _ => none

/-- An answer of the service holds resources of the client it was asked for. -/
def OwnAnswer (shared : ServerShared platform) (call : ServerCall platform) : Prop :=
  ∀ request outcome, call.served = some (request, outcome) →
    OutcomeOwned shared.store request.clientId outcome

theorem ownAnswer_of_none {shared : ServerShared platform} {call : ServerCall platform}
    (notServed : call.served = none) : OwnAnswer shared call := by
  intro request outcome served
  rw [notServed] at served
  cases served

theorem served_route (call : ServerCall platform) : (call.route deployment).served = none := by
  unfold ServerCall.route
  split <;> rfl

theorem served_authenticated (call : ServerCall platform) (target : Target) (checkKey : KeyCheck)
    (systemNow : Int) :
    (call.authenticated deployment target checkKey systemNow).served = none := by
  unfold ServerCall.authenticated
  split <;> rfl

theorem answerObligations (roundTrips : platform.RoundTrips) (respects : deployment.RespectsMethods)
    (text : deployment.TokensNameText) :
    Component.Obligations (server platform deployment) (TrustedRun deployment)
      (fun _ => True) OwnAnswer where
  initially _ _ := trivial
  entered _ _ _ _ _ := ownAnswer_of_none rfl
  advanced state id choice call next after holds allowed found stepped := by
    refine ⟨trivial, ?_⟩
    cases ServerStep.of_step stepped with
    | uncounted => exact ownAnswer_of_none (served_route _)
    | counted phaseEq nextEq =>
        rw [nextEq]
        split
        · exact ownAnswer_of_none (served_route _)
        · exact ownAnswer_of_none rfl
    | decided => exact ownAnswer_of_none (served_authenticated _ _ _ _)
    | @finished inner answer outcome phaseEq ended =>
        intro request served answered
        cases answered
        have seen := ((hosts_service respects text).refines.reachable allowed.2).mono
          fun _ _ asked => asked.1
        have serving : (serviceView state).calls id = some inner := by
          simp only [serviceView, Component.view, found, Option.bind_some, pickService, phaseEq]
        have own := ((isolationObligations roundTrips).of_reachable seen).calls id inner serving
        rw [OwnsItsData, ended] at own
        exact own.2
    | _ => exact ownAnswer_of_none rfl
  undisturbed state id choice call next after holds _ _ stepped other bystander _ otherFound := by
    intro request outcome served
    exact OutcomeOwned.mono (fun row held => (ServerStep.of_step stepped).held held)
      (holds.calls other bystander otherFound request outcome served)
  happened state happening after holds _ happened := by
    cases happened
    exact ⟨trivial, fun id call found => holds.calls id call found⟩

/-- However the requests of any number of processes interleave: what the service did for
a request is backed by every credential the request presented, and every resource in
the answer belongs to the client these credentials stand for. -/
theorem answers_backed (roundTrips : platform.RoundTrips) (respects : deployment.RespectsMethods)
    (text : deployment.TokensNameText) {state : ServerState platform}
    (reachable : (server platform deployment).machine.Reachable Trusted state) {id : Nat}
    {call : ServerCall platform} {response : Api.Response} {request : Request}
    {outcome : Outcome} (found : state.calls id = some call)
    (answered : call.phase = .answered response (some (request, outcome))) :
    Backed deployment state.shared.lookups (credentials call.incoming.request)
      request.clientId request.scope ∧
    ∀ resource, Returns outcome resource → ∃ client, uuidParam request.clientId = some client ∧
      resource.clientId = uuidOut client := by
  constructor
  · obtain ⟨same, own⟩ := backed_of_reachable respects reachable found
    rw [answered] at own
    rw [← same]
    exact own
  · intro resource returned
    have own := ((answerObligations roundTrips respects text).of_reachable reachable.remember).calls
      id call found
    have served : call.served = some (request, outcome) := by
      simp only [ServerCall.served, answered]
    exact OutcomeOwned.clientId (own request outcome served) returned

/-- Two clients with a row each. -/
def twoClientsShared : ServerShared Platform.reference :=
  { sampleShared with database := twoClients }

/-- A deployment that has the route for reading the resource. -/
def readingDeployment : Deployment :=
  { sampleDeployment with
    router := fun request =>
      if request.method = "GET" then .ok (.resource .getOne sampleIdText) else .error 404 }

theorem readingDeployment_respectsMethods : readingDeployment.RespectsMethods := by
  intro request route id routed
  simp only [readingDeployment] at routed
  split at routed
  · rename_i isGet
    cases routed
    exact Or.inl isGet
  · cases routed

/-- One of the clients reads its resource. -/
def reading : List ServerEvent :=
  .start 0 { deletingRequest with request := { deletingRequest.request with method := "GET" } } ::
    List.replicate 16 (.advance 0 deletingChoice)

def readingState : ServerState Platform.reference :=
  (server Platform.reference readingDeployment).replay twoClientsShared reading

/-- The client and the id of a resource that was returned, and that resource. -/
def ServerCall.got (call : ServerCall platform) : Option (String × String × Resource) :=
  match call.phase with
  | .answered _ (some (.get clientId id, .ok (.resource resource))) =>
      some (clientId, id, resource)
  | _ => none

theorem answers_backed_reading :
    ∃ call resource, readingState.calls 0 = some call ∧
      call.got = some (sampleClientText, sampleIdText, resource) ∧
      Backed readingDeployment readingState.shared.lookups (credentials call.incoming.request)
        sampleClientText "read" ∧
      resource.clientId = sampleClientText := by
  have isFresh : twoClientsShared.Fresh := sampleShared_fresh
  have reachable : (server Platform.reference readingDeployment).machine.Reachable Trusted
      readingState := reachable_of_checked isFresh (by decide +kernel) (by decide)
  have got : ((readingState.calls 0).bind ServerCall.got).map (fun read => (read.1, read.2.1)) =
      some (sampleClientText, sampleIdText) := by decide +kernel
  obtain ⟨⟨clientId, id, resource⟩, returned, isAsked⟩ := Option.map_eq_some_iff.mp got
  obtain ⟨rfl, rfl⟩ := Prod.mk.inj isAsked
  obtain ⟨call, found, isGot⟩ := Option.bind_eq_some_iff.mp returned
  refine ⟨call, resource, found, isGot, ?_⟩
  unfold ServerCall.got at isGot
  split at isGot
  · rename_i answered
    simp only [Option.some.injEq, Prod.mk.injEq] at isGot
    obtain ⟨rfl, rfl, rfl⟩ := isGot
    obtain ⟨backed, owned⟩ := answers_backed Platform.reference_lawful.toRoundTrips
      readingDeployment_respectsMethods (fun _ token => nomatch token) reachable found answered
    obtain ⟨client, isClient, sameClient⟩ := owned _ (Or.inl rfl)
    refine ⟨backed, ?_⟩
    rw [sameClient]
    obtain rfl := Option.some.inj (isClient.symm.trans (by decide : _ = some sampleClient))
    decide
  · cases isGot

/-! ## Rows -/

/-- A step of a request that writes for the client, and whose credentials allow it. -/
def WriterStep (deployment : Deployment) (client : Uuid) (state : ServerState platform) :
    ServerEvent → Prop
  | .advance id _ => ∃ call inner answer, state.calls id = some call ∧
      call.phase = .serving inner answer ∧
      uuidParam inner.request.clientId = some client ∧
      Backed deployment state.shared.lookups (credentials call.incoming.request)
        inner.request.clientId "write"
  | _ => False

/-- Only operations that need the scope `write` change the table. -/
theorem rows_of_read {call next : Resources.Call platform} {choice : Choice}
    {store after : Store platform} (stepped : ServiceStep call choice store next after)
    (reads : call.request.scope ≠ "write") :
    after.database.resources.rows = store.database.resources.rows := by
  cases stepped with
  | created requestEq =>
      rw [requestEq] at reads
      exact (reads rfl).elim
  | written requestEq =>
      rcases requestEq with ⟨changes, requestEq⟩ | requestEq <;> rw [requestEq] at reads <;>
        exact (reads rfl).elim
  | _ => rfl

/-- One event that is no such step leaves the rows of the client as they are. -/
theorem rows_kept_of_step (respects : deployment.RespectsMethods)
    {state next : ServerState platform} {event : ServerEvent}
    (reachable : (server platform deployment).machine.Reachable Trusted state)
    {row : Row platform} (notWriter : ¬WriterStep deployment row.clientId state event)
    (stepped : (server platform deployment).eventStep state event = some next) :
    row ∈ next.shared.database.resources.rows ↔ row ∈ state.shared.database.resources.rows := by
  cases event with
  | start id incoming =>
      obtain ⟨_, rfl⟩ := Component.start_cases stepped
      exact Iff.rfl
  | stop id =>
      obtain rfl := Component.stop_cases stepped
      exact Iff.rfl
  | happen happening =>
      obtain ⟨_, happened, rfl⟩ := Component.happen_cases stepped
      cases happened
      exact Iff.rfl
  | advance id choice =>
      obtain ⟨call, moved, after, found, callStepped, rfl⟩ := Component.advance_cases stepped
      cases ServerStep.of_step callStepped with
      | @served inner innerMoved answer store phaseEq innerStepped =>
          have effect := ServiceStep.of_step innerStepped
          by_cases writes : inner.request.scope = "write"
          · refine effect.rows_frame fun ofClient => notWriter ?_
            obtain ⟨same, own⟩ := backed_of_reachable respects reachable found
            rw [phaseEq] at own
            have backed : Backed deployment state.shared.lookups (credentials call.request)
                inner.request.clientId inner.request.scope := own
            rw [writes, same] at backed
            exact ⟨call, inner, answer, found, phaseEq, ofClient, backed⟩
          · exact iff_of_eq (congrArg (row ∈ ·) (rows_of_read effect writes))
      | _ => exact Iff.rfl

/-- The rows of a client survive every run without a step of a request whose credentials
stand for that client and grant the scope `write`. -/
theorem rows_kept (respects : deployment.RespectsMethods) {source target : ServerState platform}
    (reachable : (server platform deployment).machine.Reachable Trusted source)
    {row : Row platform}
    (runs : (server platform deployment).machine.Runs (fun state event =>
      Trusted state event ∧ ¬WriterStep deployment row.clientId state event) source target) :
    row ∈ target.shared.database.resources.rows ↔
      row ∈ source.shared.database.resources.rows := by
  induction runs with
  | refl => exact Iff.rfl
  | tail before allowed stepped ih =>
      have trustedBefore := before.mono fun _ _ both => both.1
      exact (rows_kept_of_step respects (reachable.extend trustedBefore) allowed.2 stepped).trans ih

def twoClientsState : ServerState Platform.reference :=
  (server Platform.reference sampleDeployment).replay twoClientsShared deleting

/-- No step of a call of the service for the client. -/
def bystanding (client : Uuid) (state : ServerState platform) : ServerEvent → Bool
  | .advance id _ => ((state.calls id).bind ServerCall.asked).all fun asked =>
      decide (uuidParam asked.1 ≠ some client)
  | _ => true

theorem not_writerStep_of_bystanding {client : Uuid} {state : ServerState platform}
    {event : ServerEvent} (stands : bystanding client state event = true) :
    ¬WriterStep deployment client state event := by
  intro writes
  cases event with
  | advance id choice =>
      obtain ⟨call, inner, answer, found, serving, ofClient, _⟩ := writes
      have asked : (state.calls id).bind ServerCall.asked =
          some (inner.request.clientId, inner.request.scope) := by
        rw [found, Option.bind_some, ServerCall.asked, serving]
      rw [bystanding, asked, Option.all_some] at stands
      exact of_decide_eq_true stands ofClient
  | start | stop | happen => exact writes

/-- One client has its row deleted, and the other keeps its own. -/
theorem rows_kept_deletion :
    (twoClientsState.calls 0).bind ServerCall.removal =
        some (200, sampleClientText, sampleIdText) ∧
      sampleRow ∉ twoClientsState.shared.database.resources.rows ∧
      neighbourRow ∈ twoClientsState.shared.database.resources.rows := by
  have isFresh : twoClientsShared.Fresh := sampleShared_fresh
  have possible : ((server Platform.reference sampleDeployment).machine.execute
      (Component.fresh twoClientsShared) deleting).isSome = true := by decide +kernel
  have checked : (server Platform.reference sampleDeployment).machine.accepts
      (fun state event => trustedCheck event && bystanding neighbour state event)
      (Component.fresh twoClientsShared) deleting = true := by
    decide +kernel
  have allowed : (server Platform.reference sampleDeployment).machine.Allows
      (fun state event => Trusted state event ∧
        ¬WriterStep sampleDeployment neighbour state event)
      (Component.fresh twoClientsShared) deleting :=
    @Machine.allows_of_accepts _ _ _ _ _ (fun _ => True) _ _ trivial
      (fun _ _ _ _ accepted => ⟨trusted_of_check (Bool.and_eq_true_iff.mp accepted).1,
        not_writerStep_of_bystanding (Bool.and_eq_true_iff.mp accepted).2⟩)
      (fun _ _ _ _ _ _ => trivial) checked
  have start : (server Platform.reference sampleDeployment).machine.Reachable Trusted
      (Component.fresh twoClientsShared) :=
    ⟨Component.fresh twoClientsShared, ⟨isFresh, rfl⟩, .refl _⟩
  have kept : neighbourRow ∈ twoClientsState.shared.database.resources.rows ↔
      neighbourRow ∈ twoClientsShared.database.resources.rows :=
    rows_kept sampleDeployment_respectsMethods start (Component.runs_replay possible allowed)
  have ids : twoClientsState.shared.database.resources.rows.map Row.id = [neighbourRow.id] := by
    decide +kernel
  refine ⟨by decide +kernel, fun present => ?_, kept.mpr (by simp [twoClientsShared, twoClients])⟩
  have idIn : sampleRow.id ∈ twoClientsState.shared.database.resources.rows.map Row.id :=
    List.mem_map_of_mem present
  rw [ids, List.mem_singleton] at idIn
  exact absurd idIn (by decide)

end Corvus.Server
